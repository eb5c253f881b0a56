import Courier.Proofs.Routing.Books
import Courier.Proofs.Server.Attachments

/-! # Two servers that a peer cannot tell apart

Two servers mirror each other for a connection if its channel and the state of the policies are the
same in both, and so are the mailboxes of some addresses, the channels attached to these, and which
of these take packets; to other addresses the channel is not attached (`Node.Mirrors`). An action is
blind if it gives the same on two such servers and leaves two such servers (`Blind`): so are writing
on the connection, stepping its session and asking the policies.
-/
set_option autoImplicit false

namespace Courier

open Courier.Wire Courier.Wire.Frame Courier.Routing

variable {σ α β : Type} {n n' m m' : Node σ} {c : ChannelId} {ch ch' : Channel σ}
  {own : Address → Prop}

/-! ## Servers -/

/-- A channel of a connection that a server accepted. -/
structure Channel.IsServer (ch : Channel σ) : Prop where
  wired : ∃ w l, ch.Wired l (serverRest w)
  role : ch.session.role = .responder

/-- All connections are ones that a server accepted, and the registry is in order. -/
structure Node.IsServer (n : Node σ) : Prop where
  channel : ∀ c ch, n.channel? c = some ch → ch.IsServer
  tidy : n.registry.Tidy

theorem Channel.IsServer.later (h : ch.IsServer) (hlater : ch.Later ch') : ch'.IsServer := by
  obtain ⟨⟨w, l, hw⟩, hrole⟩ := h
  obtain ⟨l', hw'⟩ := hw.later hlater
  exact ⟨⟨w, l', hw'⟩, hlater.role.trans hrole⟩

namespace Node.IsServer

theorem allWired (h : n.IsServer) : n.AllWired := by
  intro c ch hch
  obtain ⟨w, l, hw⟩ := (h.channel c ch hch).wired
  exact ⟨l, serverRest w, hw⟩

theorem later (h : n.IsServer) (hlater : n.Later n') (htidy : n'.registry.Tidy) :
    n'.IsServer := by
  refine ⟨?_, htidy⟩
  intro c ch' hch'
  obtain ⟨ch, hch, hlater'⟩ := hlater.before hch'
  exact (h.channel c ch hch).later hlater'

end Node.IsServer

/-! ## Registries that change -/

/-- The second is in order, and attaches nobody that the first does not, but the connection to
addresses of its own. -/
structure Routing.Registry.Refiled (c : ChannelId) (own : Address → Prop) (r r' : Registry) :
    Prop where
  tidy : r'.Tidy
  attached : ∀ a, ∀ x ∈ r'.channels a, x ∈ r.channels a ∨ x = c ∧ own a

namespace Routing.Registry.Tidy

variable {r : Registry} (h : r.Tidy)

include h

theorem refiled_attach {a : Address} (ha : own a) : r.Refiled c own (r.attach a c) := by
  refine ⟨h.attach a c, fun a' x hx => ?_⟩
  refine ((mem_channels_attach h.toProper).1 hx).imp id ?_
  rintro ⟨rfl, rfl⟩
  exact ⟨rfl, ha⟩

theorem refiled_detach (a : Address) (x : ChannelId) : r.Refiled c own (r.detach a x) :=
  ⟨h.detach a x, fun _ _ hy => .inl ((mem_channels_detach h.toProper).1 hy).1⟩

theorem refiled_release (x : ChannelId) : r.Refiled c own (r.release x) := by
  refine ⟨h.release x, fun a y hy => .inl ?_⟩
  rw [h.channels_release] at hy
  exact List.mem_of_mem_filter hy

theorem refiled_enqueue (p : Packet) : r.Refiled c own (r.enqueue p) :=
  ⟨h.enqueue p, fun _ _ hx => .inl hx⟩

theorem refiled_setWaiting (a : Address) (ps : List Packet) :
    r.Refiled c own (r.setWaiting a ps) := by
  refine ⟨h.setWaiting a ps, fun a' x hx => .inl ?_⟩
  rwa [channels_setWaiting] at hx

end Routing.Registry.Tidy

/-! ## Mirrored servers -/

/-- An address has the same mailbox and the same channels in both, and the same of them take
packets. -/
structure Node.SameFor (a : Address) (n m : Node σ) : Prop where
  waiting : m.registry.waiting a = n.registry.waiting a
  channels : m.registry.channels a = n.registry.channels a
  accepts : ∀ c ∈ n.registry.channels a, m.accepts c = n.accepts c

/-- The connection and these addresses are the same in both, and the connection is attached to no
other address. -/
structure Node.SameTo (c : ChannelId) (own : Address → Prop) (n m : Node σ) : Prop where
  channel : m.channel? c = n.channel? c
  policy : m.policy = n.policy
  same : ∀ a, own a → n.SameFor a m
  attached : ∀ a, c ∈ n.registry.channels a → own a
  attached' : ∀ a, c ∈ m.registry.channels a → own a

/-- Two servers that are the same to the connection. -/
structure Node.Mirrors (c : ChannelId) (own : Address → Prop) (n m : Node σ) : Prop
    extends Node.SameTo c own n m where
  server : n.IsServer
  server' : m.IsServer

/-- Something happens that the connection takes no notice of. -/
structure Node.Elsewhere (c : ChannelId) (n n' : Node σ) : Prop where
  later : n.Later n'
  registry : n'.registry = n.registry
  policy : n'.policy = n.policy
  channel : n'.channel? c = n.channel? c
  accepts : ∀ x, n'.accepts x = n.accepts x

theorem Node.Elsewhere.of_channels (c : ChannelId) (hchannels : n'.channels = n.channels)
    (hregistry : n'.registry = n.registry) (hpolicy : n'.policy = n.policy) :
    n.Elsewhere c n' := by
  have hsame : ∀ x, n'.channel? x = n.channel? x := fun x => congrArg (·[x.index]?) hchannels
  exact ⟨later_of_channels hchannels, hregistry, hpolicy, hsame c, fun x => accepts_congr (hsame x)⟩

namespace Node.Mirrors

variable (h : n.Mirrors c own m)

include h

/-- Who is attached to an own address takes packets in both or in neither, and so does the
connection. -/
theorem accepts_of_or {a : Address} (ha : own a) {c' : ChannelId}
    (hc' : c' ∈ n.registry.channels a ∨ c' = c) : m.accepts c' = n.accepts c' := by
  obtain hc' | rfl := hc'
  · exact (h.same a ha).accepts c' hc'
  · exact accepts_congr h.channel

/-- The connection's channel changes in both alike. -/
theorem modify (hch : n.channel? c = some ch) (hserver : ch'.IsServer) :
    (n.modify c fun _ => ch').Mirrors c own (m.modify c fun _ => ch') := by
  have hch' : m.channel? c = some ch := h.channel.trans hch
  have hself := channel?_modify_of_some hch fun _ => ch'
  have hself' := channel?_modify_of_some hch' fun _ => ch'
  have hserves : ∀ {n : Node σ}, n.IsServer → n.channel? c = some ch →
      (n.modify c fun _ => ch').IsServer := by
    intro n hn hch
    refine ⟨?_, hn.tidy⟩
    intro c' ch₀ hch₀
    by_cases hc : c' = c
    · subst hc
      rw [channel?_modify_of_some hch] at hch₀
      cases hch₀
      exact hserver
    · rw [channel?_modify_of_ne n _ hc] at hch₀
      exact hn.channel c' ch₀ hch₀
  refine ⟨⟨hself'.trans hself.symm, h.policy, fun a ha => ?_, h.attached, h.attached'⟩,
    hserves h.server hch, hserves h.server' hch'⟩
  refine ⟨(h.same a ha).waiting, (h.same a ha).channels, ?_⟩
  intro c' hc'
  by_cases hc : c' = c
  · subst hc
    exact accepts_congr (hself'.trans hself.symm)
  · rw [accepts_congr (channel?_modify_of_ne m _ hc), accepts_congr (channel?_modify_of_ne n _ hc)]
    exact (h.same a ha).accepts c' hc'

/-- Something happens in both that the connection takes no notice of. -/
theorem elsewhere (hn : n.Elsewhere c n') (hm : m.Elsewhere c m') : n'.Mirrors c own m' := by
  refine ⟨⟨hm.channel.trans (h.channel.trans hn.channel.symm),
    hm.policy.trans (h.policy.trans hn.policy.symm), fun a ha => ⟨?_, ?_, ?_⟩, ?_, ?_⟩,
    h.server.later hn.later ?_, h.server'.later hm.later ?_⟩
  · rw [hn.registry, hm.registry, (h.same a ha).waiting]
  · rw [hn.registry, hm.registry, (h.same a ha).channels]
  · intro x hx
    rw [hn.registry] at hx
    rw [hn.accepts, hm.accepts, (h.same a ha).accepts x hx]
  · rw [hn.registry]
    exact h.attached
  · rw [hm.registry]
    exact h.attached'
  · rw [hn.registry]
    exact h.server.tidy
  · rw [hm.registry]
    exact h.server'.tidy

theorem quiet (hn : Quiet n n') (hm : Quiet m m') : n'.Mirrors c own m' :=
  h.elsewhere (.of_channels c hn.channels hn.registry hn.policy)
    (.of_channels c hm.channels hm.registry hm.policy)

theorem note (c' : ChannelId) (r : Reporter) (s : Signal) :
    (n.note c' r s).Mirrors c own (m.note c' r s) :=
  h.elsewhere (.of_channels c (channels_note ..) (registry_note ..) (policy_note ..))
    (.of_channels c (channels_note ..) (registry_note ..) (policy_note ..))

/-- The registries change, and for the connection's addresses they change alike. -/
theorem registry {r r' : Registry} (hr : n.registry.Refiled c own r)
    (hr' : m.registry.Refiled c own r') (hwaiting : ∀ a, own a → r'.waiting a = r.waiting a)
    (hchannels : ∀ a, own a → r'.channels a = r.channels a) :
    ({ n with registry := r } : Node σ).Mirrors c own { m with registry := r' } := by
  refine ⟨⟨h.channel, h.policy, fun a ha => ⟨hwaiting a ha, hchannels a ha, ?_⟩, ?_, ?_⟩,
    ⟨h.server.channel, hr.tidy⟩, ⟨h.server'.channel, hr'.tidy⟩⟩
  · intro x hx
    exact h.accepts_of_or ha ((hr.attached a x hx).imp id And.left)
  · exact fun a hc => (hr.attached a c hc).elim (h.attached a) And.right
  · exact fun a hc => (hr'.attached a c hc).elim (h.attached' a) And.right

end Node.Mirrors

/-! ## Blind actions -/

/-- The action gives the same on both servers, and it leaves two that mirror each other. -/
def Agrees (c : ChannelId) (own : Address → Prop) (a : Action σ α) (n m : Node σ) : Prop :=
  (a.apply m).1 = (a.apply n).1 ∧ (a.apply n).2.Mirrors c own (a.apply m).2

theorem Agrees.bind {a : Action σ α} {f : α → Action σ β} (ha : Agrees c own a n m)
    (hf : ∀ v n' m', a.apply n = (.ok v, n') → n'.Mirrors c own m' → Agrees c own (f v) n' m') :
    Agrees c own (a >>= f) n m := by
  obtain ⟨heq, h'⟩ := ha
  unfold Agrees
  rw [Action.apply_bind, Action.apply_bind]
  cases hn : a.apply n with
  | mk r n' =>
    cases hm : a.apply m with
    | mk r' m' =>
      rw [hn, hm] at heq h'
      cases heq
      cases r with
      | error f => exact ⟨rfl, h'⟩
      | ok v => exact hf v n' m' hn h'

/-- The action agrees on all servers that mirror each other. -/
def Blind (c : ChannelId) (own : Address → Prop) (a : Action σ α) : Prop :=
  ∀ n m, n.Mirrors c own m → Agrees c own a n m

namespace Blind

theorem pure (v : α) : Blind c own (Pure.pure v : Action σ α) := fun _ _ h => ⟨rfl, h⟩

theorem changes {g : Node σ → Node σ}
    (hg : ∀ n m, n.Mirrors c own m → (g n).Mirrors c own (g m)) :
    Blind c own (modify g : Action σ Unit) := fun n m h => ⟨rfl, hg n m h⟩

theorem bind {a : Action σ α} {f : α → Action σ β} (ha : Blind c own a)
    (hf : ∀ v, Blind c own (f v)) : Blind c own (a >>= f) :=
  fun n m h => (ha n m h).bind fun v n' m' _ h' => hf v n' m' h'

theorem forM {f : β → Action σ Unit} (hf : ∀ x, Blind c own (f x)) (xs : List β) :
    Blind c own (xs.forM f) := by
  induction xs with
  | nil => exact pure ()
  | cons x xs ih => exact (hf x).bind fun _ => ih

/-- A step on the channel itself. -/
theorem onChannel {f : Channel σ → Except Fault (α × Channel σ)}
    (hf : ∀ ch v ch', f ch = .ok (v, ch') → ch.IsServer → ch'.IsServer) :
    Blind c own (onChannel c f) := by
  intro n m h
  unfold Agrees
  rw [apply_onChannel, apply_onChannel, h.channel]
  cases hch : n.channel? c with
  | none => exact ⟨rfl, h⟩
  | some ch =>
    cases hrun : f ch with
    | error e =>
      simp only [hrun, true_and]
      exact h
    | ok field =>
      simp only [hrun, true_and]
      exact h.modify hch (hf ch field.1 field.2 hrun (h.server.channel c ch hch))

/-- What is read off the channel. -/
theorem reading {f : Channel σ → Except Fault (α × Channel σ)}
    (hf : ∀ ch v ch', f ch = .ok (v, ch') → ch' = ch) : Blind c own (Courier.onChannel c f) :=
  onChannel fun ch v ch' hrun hserver => hf ch v ch' hrun ▸ hserver

theorem identityOf : Blind c own (identityOf c : Action σ Address) := by
  apply reading
  intro ch v ch' hrun
  cases hidentity : ch.session.identity with
  | none =>
    rw [hidentity] at hrun
    cases hrun
  | some a =>
    rw [hidentity] at hrun
    cases hrun
    rfl

theorem realm : Blind c own (Courier.onChannel c fun ch => do
    let realm ← realmOf ch.session
    return (realm, ch) : Action σ Address) := by
  apply reading
  intro ch v ch' hrun
  cases hrealm : realmOf ch.session with
  | error e =>
    rw [hrealm] at hrun
    cases hrun
  | ok a =>
    rw [hrealm] at hrun
    cases hrun
    rfl

theorem enqueue (b : ByteArray) : Blind (σ := σ) c own (enqueue c b) := by
  apply onChannel
  intro ch v ch' hrun hserver
  cases hqueued : ch.enqueue c b with
  | error e =>
    rw [hqueued] at hrun
    cases hrun
  | ok ch₁ =>
    rw [hqueued] at hrun
    cases hrun
    exact hserver.later (Channel.later_enqueue hqueued)

theorem writeFrame (f : Frame) : Blind (σ := σ) c own (writeFrame c f) := by
  unfold Courier.writeFrame
  cases f.encode with
  | ok b => exact enqueue b
  | error e => exact fun n m h => ⟨rfl, h⟩

theorem writePackets (ps : List Packet) : Blind (σ := σ) c own (writePackets c ps) := by
  unfold Courier.writePackets
  cases sendFrames ps with
  | ok b =>
    by_cases hempty : b.isEmpty = true
    · simp only [hempty, if_true]
      exact pure ()
    · simp only [hempty, if_false, Bool.false_eq_true]
      exact enqueue b
  | error e => exact fun n m h => ⟨rfl, h⟩

theorem stepSession {step : Session → Except InvalidStep (Session × α)}
    (hstep : ∀ {s s' v}, step s = .ok (s', v) → s.Step s') :
    Blind (σ := σ) c own (stepSession c step) := by
  apply onChannel
  intro ch v ch' hrun hserver
  cases hs : step ch.session with
  | error e =>
    rw [hs] at hrun
    cases hrun
  | ok field =>
    rw [hs] at hrun
    cases hrun
    exact hserver.later (Channel.later_setSession (hstep hs))

theorem plainStep {step : Session → Except InvalidStep Session}
    (hstep : ∀ {s s'}, step s = .ok s' → s.Step s') :
    Blind (σ := σ) c own (Courier.stepSession c (plainStep step)) :=
  stepSession fun h => hstep (plainStep_eq_ok_iff.1 h)

/-- The policies have the same state in both, and so they answer the same. -/
theorem consult (p : Policy σ α) : Blind c own (consult p) := by
  intro n m h
  unfold Agrees
  rw [apply_consult, apply_consult, h.policy]
  exact ⟨rfl, ⟨⟨h.channel, rfl, fun a ha => ⟨(h.same a ha).waiting, (h.same a ha).channels,
    (h.same a ha).accepts⟩, h.attached, h.attached'⟩, ⟨h.server.channel, h.server.tidy⟩,
    ⟨h.server'.channel, h.server'.tidy⟩⟩⟩

theorem settleLedger (l : Ledger) (demands : List LedgerDemand) :
    Blind (σ := σ) c own (settleLedger c 2 l demands) := by
  have hset : ∀ n m : Node σ, n.Mirrors c own m →
      (n.setReactor c 2 (.reliableDelivery l)).Mirrors c own
        (m.setReactor c 2 (.reliableDelivery l)) := by
    intro n m h
    cases hch : n.channel? c with
    | none =>
      rw [Node.setReactor, Node.setReactor, Node.modify_of_none n c _ hch,
        Node.modify_of_none m c _ (h.channel.trans hch)]
      exact h
    | some ch =>
      obtain ⟨⟨w, l₀, hw⟩, hrole⟩ := h.server.channel c ch hch
      rw [Node.setReactor_eq hch, Node.setReactor_eq (h.channel.trans hch)]
      exact h.modify hch ⟨⟨w, l, hw.setLedger l⟩, hrole⟩
  refine (changes hset).bind fun _ => forM (fun d => ?_) demands
  cases d with
  | retransmit packets => exact writePackets packets
  | requestAcknowledgment => exact writeFrame .requestAcknowledgment
  | acknowledge count => exact writeFrame (.acknowledge count)

end Blind

/-! ## Faults and events -/

variable {k : Reentry σ}

theorem Node.Mirrors.raiseWith (h : n.Mirrors c own m) (f : Fault) :
    (raiseWith k c f n).Mirrors c own (raiseWith k c f m) := by
  cases hch : n.channel? c with
  | none =>
    rw [raiseWith_of_none hch, raiseWith_of_none (h.channel.trans hch)]
    exact h
  | some ch =>
    obtain ⟨⟨w, l, hw⟩, hrole⟩ := h.server.channel c ch hch
    have hover := ch.over_failed f
    have hserver : (ch.failed f).IsServer := by
      refine ⟨⟨w, l, hw.of_reactors_eq hover.reactors⟩, ?_⟩
      rw [hover.session]
      exact hrole
    exact (h.modify hch hserver).quiet (raiseWith_failed hch hw f)
      (raiseWith_failed (h.channel.trans hch) hw f)

/-- A fault is raised on both, or on neither. -/
theorem Agrees.settled {a : Action σ Unit} (ha : Agrees c own a n m) :
    (settled k c a n).Mirrors c own (settled k c a m) := by
  obtain ⟨heq, h'⟩ := ha
  unfold Courier.settled
  cases hn : a.apply n with
  | mk r n' =>
    cases hm : a.apply m with
    | mk r' m' =>
      rw [hn, hm] at heq h'
      cases heq
      cases r with
      | ok u => exact h'
      | error f => exact h'.raiseWith f

/-- An event that the connection's pipeline reacts to blindly. -/
theorem Node.Mirrors.dispatchWith (h : n.Mirrors c own m) (hk : k.Moves Node.Later) (e : Event)
    (hreaction : ∀ l w, Blind c own (reaction k c e l (serverRest w))) :
    (dispatchWith k c e n).Mirrors c own (dispatchWith k c e m) := by
  cases hch : n.channel? c with
  | none =>
    rw [dispatchWith_of_none hch, dispatchWith_of_none (h.channel.trans hch)]
    exact h
  | some ch =>
    obtain ⟨w, l, hw⟩ := (h.server.channel c ch hch).wired
    rw [dispatchWith_eq hk ⟨ch, hch, hw⟩, dispatchWith_eq hk ⟨ch, h.channel.trans hch, hw⟩]
    exact (hreaction l w _ _ (h.note c _ _)).settled

/-! ## Packets and mailboxes -/

namespace Node.Mirrors

theorem packetSent (h : n.Mirrors c own m) (p : Packet) :
    (Courier.dispatchWith .quiet c (.packetSent p) n).Mirrors c own
      (Courier.dispatchWith .quiet c (.packetSent p) m) := by
  cases hch : n.channel? c with
  | none =>
    rw [dispatchWith_of_none hch, dispatchWith_of_none (h.channel.trans hch)]
    exact h
  | some ch =>
    obtain ⟨⟨w, l, hw⟩, hrole⟩ := h.server.channel c ch hch
    exact (h.modify hch ⟨⟨w, _, hw.setLedger (l.recordSent p)⟩, hrole⟩).quiet
      (dispatchWith_packetSent later_rule.quiet hch hw p)
      (dispatchWith_packetSent later_rule.quiet (h.channel.trans hch) hw p)

theorem foldl {f : Node σ → β → Node σ} (hf : ∀ n m x, n.Mirrors c own m →
    (f n x).Mirrors c own (f m x)) (xs : List β) (h : n.Mirrors c own m) :
    (xs.foldl f n).Mirrors c own (xs.foldl f m) := by
  induction xs generalizing n m with
  | nil => exact h
  | cons x xs ih => exact ih (hf n m x h)

end Node.Mirrors

theorem Blind.sendPackets (ps : List Packet) :
    Blind (σ := σ) c own (sendPacketsWith .full c ps) :=
  (writePackets ps).bind fun _ => changes fun _ _ h => h.foldl (fun _ _ p h => h.packetSent p) ps

namespace Node.Mirrors

/-- The same packets come to wait for an address in both. -/
theorem setWaiting (h : n.Mirrors c own m) (a : Address) {ps ps' : List Packet} (hps : ps' = ps) :
    ({ n with registry := n.registry.setWaiting a ps } : Node σ).Mirrors c own
      { m with registry := m.registry.setWaiting a ps' } := by
  subst hps
  have htidy := h.server.tidy
  have htidy' := h.server'.tidy
  refine h.registry (htidy.refiled_setWaiting a _) (htidy'.refiled_setWaiting a _) ?_ ?_
  · intro a' ha'
    rw [htidy.toProper.waiting_setWaiting, htidy'.toProper.waiting_setWaiting,
      (h.same a' ha').waiting]
  · intro a' ha'
    rw [Registry.channels_setWaiting, Registry.channels_setWaiting, (h.same a' ha').channels]

/-- The connection gets the same mailbox in both, since it gets its own. -/
theorem flushMailbox (h : n.Mirrors c own m) (hown : ∀ a, n.identity? c = some a → own a) :
    Agrees c own (flushMailbox .full c) n m := by
  refine (Blind.identityOf n m h).bind ?_
  intro a n₁ m₁ hidentity h₁
  obtain ⟨rfl, hnamed⟩ := apply_identityOf_eq_ok hidentity
  have ha : own a := hown a hnamed
  have hsame : (m₁.registry.takeAll a).1 = (n₁.registry.takeAll a).1 := (h₁.same a ha).waiting
  have htaken : ({ n₁ with registry := (n₁.registry.takeAll a).2 } : Node σ).Mirrors c own
      { m₁ with registry := (m₁.registry.takeAll a).2 } := h₁.setWaiting a (rfl : [] = [])
  -- From here on both servers have the same packets to send, in two registries.
  unfold Agrees
  simp only [Action.apply_get_bind, Action.apply_set_bind, hsame]
  generalize (n₁.registry.takeAll a).1 = ps
  by_cases hempty : ps.isEmpty = true
  · simp only [hempty, if_true]
    exact ⟨rfl, htaken⟩
  · simp only [hempty, if_false, Bool.false_eq_true, Action.apply_get_bind]
    obtain ⟨heq, hsent⟩ := Blind.sendPackets ps _ _ htaken
    cases hn : (sendPacketsWith .full c ps).apply
        { n₁ with registry := (n₁.registry.takeAll a).2 } with
    | mk r n' =>
      cases hm : (sendPacketsWith .full c ps).apply
          { m₁ with registry := (m₁.registry.takeAll a).2 } with
      | mk r' m' =>
        rw [hn, hm] at heq hsent
        cases heq
        cases r with
        | ok u =>
          simp only [Action.apply_set_bind]
          exact Blind.writeFrame .requestAcknowledgment n' m' hsent
        | error f =>
          -- What could not be sent waits again, before what came to wait meanwhile.
          simp only [Action.apply_set_bind]
          refine ⟨rfl, hsent.setWaiting a ?_⟩
          rw [(hsent.same a ha).waiting]

/-- The connection is attached to its identity in both. -/
theorem attachRoute (h : n.Mirrors c own m) (hown : ∀ a, n.identity? c = some a → own a) :
    (attachRoute c n).Mirrors c own (attachRoute c m) := by
  have hsame : m.identity? c = n.identity? c := by
    rw [Node.identity?, h.channel]
    rfl
  cases hidentity : n.identity? c with
  | none =>
    rw [attachRoute_of_stranger hidentity, attachRoute_of_stranger (hsame.trans hidentity)]
    exact h
  | some a =>
    rw [attachRoute_of_identity hidentity, attachRoute_of_identity (hsame.trans hidentity)]
    have ha : own a := hown a hidentity
    have htidy := h.server.tidy
    have htidy' := h.server'.tidy
    refine h.registry (htidy.refiled_attach ha) (htidy'.refiled_attach ha)
      (fun a' ha' => (h.same a' ha').waiting) ?_
    intro a' ha'
    rw [htidy.toProper.channels_attach, htidy'.toProper.channels_attach,
      (h.same a' ha').channels, (h.same a ha).channels]

/-- The connection is released in both. -/
theorem release (h : n.Mirrors c own m) :
    ({ n with registry := n.registry.release c } : Node σ).Mirrors c own
      { m with registry := m.registry.release c } := by
  have htidy := h.server.tidy
  have htidy' := h.server'.tidy
  refine h.registry (htidy.refiled_release c) (htidy'.refiled_release c)
    (fun a ha => (h.same a ha).waiting) ?_
  intro a ha
  rw [htidy.toProper.channels_release, htidy'.toProper.channels_release, (h.same a ha).channels]

end Node.Mirrors

end Courier
