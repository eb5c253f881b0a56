import Courier.Proofs.Server.Mirror
import Mathlib.Data.List.Infix

/-! # A peer learns nothing of other addresses

What a peer sees of a server is its own connection. Two servers that differ elsewhere, in the
mailboxes of addresses that the peer does not get and in the channels attached to these, treat the
connection alike, whatever frames arrive on it and whether it is finished behind them or not
(`peers_learn_nothing_of_others`). The invariant is `Node.Mirrors`: packets that the peer sends to
others change what the two servers may differ in, and nothing comes back from there.
-/
set_option autoImplicit false

namespace Courier

open Courier.Wire Courier.Wire.Frame Courier.Routing

variable {σ : Type} {n n' m m' : Node σ} {c : ChannelId} {ch ch' : Channel σ}
  {own : Address → Prop} {p : Packet}

/-! ## What routing leaves as it is -/

/-- No packet that is offered makes a channel take packets that did not, or the other way round. -/
theorem accepts_offerPacket (h : n.AllWired) (p : Packet) (c x : ChannelId) :
    (offerPacket .full p n c).2.accepts x = n.accepts x := by
  obtain ⟨n', hoffer, -, hoffered⟩ := offerPacket_spec (h.aloof p c)
  by_cases hx : x = c
  · subst hx
    cases haccepts : n.accepts x with
    | true =>
      obtain ⟨ch, hch, hlive⟩ := Node.accepts_iff.1 haccepts
      obtain ⟨l, rest, hw⟩ := h x ch hch
      obtain ⟨n₁, hoffer₁, hquiet⟩ := offerPacket_of_wired hch hw hlive p
      rw [hoffer₁]
      refine Node.accepts_iff.2 ⟨_, ?_, (hlive.say (sends [p])).setLedger (l.recordSent p)⟩
      rw [hquiet.channel?]
      exact Node.channel?_modify_of_some hch _
    | false =>
      have hlater := later_rule.offerPacket later_rule.full p n x
      rw [Bool.eq_false_iff]
      intro haccepts'
      obtain ⟨ch', hch', hlive'⟩ := Node.accepts_iff.1 haccepts'
      obtain ⟨ch, hch, hlater'⟩ := hlater.before hch'
      exact not_live_of_not_accepts haccepts ch hch (hlater'.live hlive')
  · rw [hoffer]
    exact Node.accepts_congr (hoffered.others x fun hmem => hx (List.mem_singleton.1 hmem))

theorem accepts_offerAll (h : n.AllWired) (p : Packet) (cs : List ChannelId) (x : ChannelId) :
    (offerAll .full p cs n).2.accepts x = n.accepts x := by
  induction cs generalizing n with
  | nil => rfl
  | cons c cs ih =>
    have hnext := h.later (later_rule.offerPacket later_rule.full p n c)
    exact (ih hnext).trans (accepts_offerPacket h p c x)

theorem accepts_routePacket (h : n.AllWired) (p : Packet) (x : ChannelId) :
    (routePacket p n).2.accepts x = n.accepts x := by
  have hoffer := accepts_offerAll h p (n.registry.channels p.recipient) x
  unfold routePacket routeWith
  split
  · rfl
  · simp only []
    split <;> exact hoffer

/-- The policies and the identities stay as they are. -/
structure Node.Steady (n n' : Node σ) : Prop where
  policy : n'.policy = n.policy
  identity : ∀ c, n'.identity? c = n.identity? c

theorem Node.Steady.of_channels (hpolicy : n'.policy = n.policy)
    (hchannels : n'.channels = n.channels) : n.Steady n' :=
  ⟨hpolicy, identity?_of_channels hchannels⟩

theorem steady_loose : Law.Loose (fun _ _ => True) (fun _ => True) (Node.Steady (σ := σ)) where
  trans := fun h h' =>
    ⟨h'.policy.trans h.policy, fun c => (h'.identity c).trans (h.identity c)⟩
  quiet := fun h => .of_channels h.policy h.channels
  act := fun hch hact => ⟨rfl, identity?_modify_of_eq hch hact.identity⟩
  detach := fun _ _ _ => .of_channels rfl rfl
  enqueue := fun _ _ => .of_channels rfl rfl
  takeAll := fun _ _ => .of_channels rfl rfl
  putBack := fun _ _ => .of_channels rfl rfl

theorem Book.route_of_ne {takes : ChannelId → Bool} {b : Book} {a : Address}
    (ha : a ≠ p.recipient) : (b.route takes p).2.waiting a = b.waiting a ∧
      (b.route takes p).2.attached a = b.attached a := by
  unfold route
  split
  · exact ⟨rfl, rfl⟩
  · simp only []
    split
    · exact ⟨Function.update_of_ne ha .., Function.update_of_ne ha ..⟩
    · exact ⟨rfl, Function.update_of_ne ha ..⟩

theorem Book.mem_of_setAttached_filter {takes : ChannelId → Bool} {b : Book} {a a' : Address}
    (hc : c ∈ (b.setAttached a' ((b.attached a').filter takes)).attached a) : c ∈ b.attached a := by
  change c ∈ Function.update b.attached a' ((b.attached a').filter takes) a at hc
  rw [Function.update_apply] at hc
  split at hc
  · rename_i ha
    rw [ha]
    exact List.mem_of_mem_filter hc
  · exact hc

theorem Book.mem_of_route {takes : ChannelId → Bool} {b : Book} {a : Address}
    (hc : c ∈ (b.route takes p).2.attached a) : c ∈ b.attached a := by
  unfold route at hc
  split at hc
  · exact hc
  · simp only [] at hc
    split at hc
    · exact mem_of_setAttached_filter hc
    · exact mem_of_setAttached_filter hc

/-- What routing a packet does to the registry concerns its recipient, and attaches nobody. -/
theorem registry_routePacket (htidy : n.registry.Tidy) (h : n.AllWired) (p : Packet) :
    n.registry.Refiled c own (routePacket p n).2.registry ∧
      ∀ a, a ≠ p.recipient → (routePacket p n).2.registry.waiting a = n.registry.waiting a ∧
        (routePacket p n).2.registry.channels a = n.registry.channels a := by
  obtain ⟨-, hbook, htidy'⟩ := routePacket_enters htidy fun _ => h.aloofFrom p _
  have hwaiting : ∀ a, (routePacket p n).2.registry.waiting a =
      (n.registry.book.route n.accepts p).2.waiting a := fun a => congrArg (·.waiting a) hbook
  have hchannels : ∀ a, (routePacket p n).2.registry.channels a =
      (n.registry.book.route n.accepts p).2.attached a := fun a => congrArg (·.attached a) hbook
  refine ⟨⟨htidy', fun a x hx => .inl ?_⟩, fun a ha => ?_⟩
  · rw [hchannels] at hx
    exact Book.mem_of_route hx
  · rw [hwaiting, hchannels]
    exact Book.route_of_ne ha

/-- A packet leaves a channel alone that is not attached to its recipient. -/
theorem channel?_routePacket (htidy : n.registry.Tidy) (h : n.AllWired)
    (hc : c ∉ n.registry.channels p.recipient) :
    (routePacket p n).2.channel? c = n.channel? c := by
  cases hecho : p.isEcho with
  | true => rw [routePacket_of_echo hecho]
  | false =>
    obtain ⟨n', hroute, -, hoffered⟩ := routePacket_spec hecho (h.aloofFrom p _) (htidy.once _)
    rw [hroute]
    exact hoffered.others c hc

/-! ## Packets -/

namespace Node.Mirrors

theorem detach (h : n.Mirrors c own m) (a : Address) (x : ChannelId) :
    ({ n with registry := n.registry.detach a x } : Node σ).Mirrors c own
      { m with registry := m.registry.detach a x } := by
  have htidy := h.server.tidy
  have htidy' := h.server'.tidy
  refine h.registry (htidy.refiled_detach a x) (htidy'.refiled_detach a x) ?_ ?_
  · intro a' ha'
    rw [Registry.waiting_detach, Registry.waiting_detach, (h.same a' ha').waiting]
  · intro a' ha'
    rw [htidy.toProper.channels_detach, htidy'.toProper.channels_detach]
    by_cases ha : a' = a
    · rw [if_pos ha, if_pos ha, ← ha, (h.same a' ha').channels]
    · rw [if_neg ha, if_neg ha, (h.same a' ha').channels]

theorem enqueue (h : n.Mirrors c own m) (p : Packet) :
    ({ n with registry := n.registry.enqueue p } : Node σ).Mirrors c own
      { m with registry := m.registry.enqueue p } := by
  have htidy := h.server.tidy
  have htidy' := h.server'.tidy
  refine h.registry (htidy.refiled_enqueue p) (htidy'.refiled_enqueue p) ?_
    fun a ha => (h.same a ha).channels
  intro a ha
  rw [htidy.toProper.waiting_enqueue, htidy'.toProper.waiting_enqueue, (h.same a ha).waiting]

/-- A packet that is offered to a channel that takes packets in both, or in neither. -/
theorem offerPacket (h : n.Mirrors c own m) (p : Packet) {x : ChannelId}
    (haccepts : m.accepts x = n.accepts x) :
    (offerPacket .full p m x).1 = (offerPacket .full p n x).1 ∧
      (offerPacket .full p n x).2.Mirrors c own (offerPacket .full p m x).2 := by
  by_cases hx : x = c
  · -- The connection itself is offered the packet, and sends it in both or fails in both.
    subst hx
    obtain ⟨heq, hsent⟩ := Blind.sendPackets [p] n m h
    unfold Courier.offerPacket
    cases hn : (sendPacketsWith .full x [p]).apply n with
    | mk r n' =>
      cases hm : (sendPacketsWith .full x [p]).apply m with
      | mk r' m' =>
        rw [hn, hm] at heq hsent
        cases heq
        cases r with
        | ok u => exact ⟨rfl, hsent⟩
        | error f => exact ⟨rfl, (hsent.detach p.recipient x).raiseWith f⟩
  · have hother : ∀ {n : Node σ}, n.AllWired → ∃ n₁,
        Courier.offerPacket .full p n x = (n.accepts x, n₁) ∧
        ({ n with registry := if n.accepts x then n.registry
          else n.registry.detach p.recipient x } : Node σ).Elsewhere c n₁ := by
      intro n hn
      obtain ⟨n₁, hoffer, hregistry, hoffered⟩ := offerPacket_spec (hn.aloof p x)
      have hlater := later_rule.offerPacket later_rule.full p n x
      have hsteady := steady_loose.law.offerPacket hn p x trivial
      have hkept := accepts_offerPacket hn p x
      rw [hoffer] at hlater hsteady hkept
      refine ⟨n₁, hoffer, ⟨hlater.count, hlater.channel⟩, hregistry, hsteady.policy, ?_, hkept⟩
      exact hoffered.others c fun hmem => hx (List.mem_singleton.1 hmem).symm
    obtain ⟨n₁, hn₁, helsewhere⟩ := hother h.server.allWired
    obtain ⟨m₁, hm₁, helsewhere'⟩ := hother h.server'.allWired
    rw [hn₁, hm₁]
    refine ⟨haccepts, Mirrors.elsewhere ?_ helsewhere helsewhere'⟩
    rw [haccepts]
    cases n.accepts x with
    | true => exact h
    | false => exact h.detach p.recipient x

theorem offerAll (h : n.Mirrors c own m) (p : Packet) (xs : List ChannelId)
    (haccepts : ∀ x ∈ xs, m.accepts x = n.accepts x) :
    (offerAll .full p xs m).1 = (offerAll .full p xs n).1 ∧
      (offerAll .full p xs n).2.Mirrors c own (offerAll .full p xs m).2 := by
  induction xs generalizing n m with
  | nil => exact ⟨rfl, h⟩
  | cons x xs ih =>
    obtain ⟨htaken, hoffered⟩ := h.offerPacket p (haccepts x (List.mem_cons_self ..))
    obtain ⟨hcounts, hall⟩ := ih hoffered fun y hy => by
      rw [accepts_offerPacket h.server.allWired, accepts_offerPacket h.server'.allWired,
        haccepts y (List.mem_cons_of_mem _ hy)]
    refine ⟨?_, hall⟩
    rw [Courier.offerAll, Courier.offerAll]
    simp only [htaken, hcounts]

/-- A packet for an address of the connection takes the same course in both. -/
theorem routePacket_of_own (h : n.Mirrors c own m) (ha : own p.recipient) :
    (routePacket p n).2.Mirrors c own (routePacket p m).2 := by
  have hsame := h.same p.recipient ha
  obtain ⟨hcounts, hall⟩ := h.offerAll p (n.registry.channels p.recipient) hsame.accepts
  unfold routePacket routeWith
  rw [hsame.channels]
  by_cases hecho : p.isEcho = true
  · simp only [hecho, if_true]
    exact h
  · simp only [hecho, if_false, Bool.false_eq_true, hcounts]
    split
    · exact hall.enqueue p
    · exact hall

/-- A packet for another address changes what the servers may differ in. -/
theorem routePacket_of_other (h : n.Mirrors c own m) (ha : ¬ own p.recipient) :
    (routePacket p n).2.Mirrors c own (routePacket p m).2 := by
  have helsewhere : ∀ {n : Node σ}, n.IsServer → c ∉ n.registry.channels p.recipient →
      ({ n with registry := (routePacket p n).2.registry } : Node σ).Elsewhere c
        (routePacket p n).2 := by
    intro n hn hc
    have hlater := later_rule.telling.routePacket p n
    have hsteady := steady_loose.law.routePacket hn.allWired p fun _ _ => trivial
    exact ⟨⟨hlater.count, hlater.channel⟩, rfl, hsteady.policy,
      channel?_routePacket hn.tidy hn.allWired hc, accepts_routePacket hn.allWired p⟩
  obtain ⟨hrefiled, hkept⟩ := registry_routePacket h.server.tidy h.server.allWired p
  obtain ⟨hrefiled', hkept'⟩ := registry_routePacket h.server'.tidy h.server'.allWired p
  have hne : ∀ a, own a → a ≠ p.recipient := fun a hown heq => ha (heq ▸ hown)
  refine (h.registry hrefiled hrefiled' ?_ ?_).elsewhere
    (helsewhere h.server fun hc => ha (h.attached _ hc))
    (helsewhere h.server' fun hc => ha (h.attached' _ hc))
  · intro a hown
    rw [(hkept a (hne a hown)).1, (hkept' a (hne a hown)).1, (h.same a hown).waiting]
  · intro a hown
    rw [(hkept a (hne a hown)).2, (hkept' a (hne a hown)).2, (h.same a hown).channels]

theorem routePacket (h : n.Mirrors c own m) (p : Packet) :
    (routePacket p n).2.Mirrors c own (routePacket p m).2 := by
  by_cases ha : own p.recipient
  · exact h.routePacket_of_own ha
  · exact h.routePacket_of_other ha

end Node.Mirrors

/-! ## Frames -/

namespace Blind

theorem createSession (create : SessionFactory σ) (a : Address) :
    Blind c own (createSession .full c create a) := by
  refine (plainStep fun h => .attach a h).bind fun _ => (consult _).bind fun id =>
    (writeFrame _).bind fun _ => (stepSession fun h => .establish id _ h).bind fun _ =>
      changes fun n m h => h.dispatchWith later_rule.quiet (.sessionCreated id) fun l w => ?_
  rw [reaction_sessionCreated]
  exact settleLedger _ _

theorem acceptCredential (authenticate : Authenticator σ) (credential : Credential) :
    Blind c own (acceptCredential c authenticate credential) :=
  realm.bind fun _ => (consult _).bind fun identity =>
    (plainStep fun h => .authenticate h).bind fun _ => (writeFrame _).bind fun _ =>
      (stepSession fun h => .identify identity _ h).bind fun _ => pure ()

end Blind

namespace Node.Mirrors

theorem packetReceived (h : n.Mirrors c own m) (hch : n.channel? c = some ch) (p : Packet) :
    (dispatch c (.packetReceived p) n).Mirrors c own (dispatch c (.packetReceived p) m) := by
  obtain ⟨⟨w, l, hw⟩, hrole⟩ := h.server.channel c ch hch
  have hch' : m.channel? c = some ch := h.channel.trans hch
  obtain ⟨n₁, hquiet, hn⟩ := server_packetReceived hch hw p
  obtain ⟨m₁, hquiet', hm⟩ := server_packetReceived hch' hw p
  rw [heard_eq hch hw] at hquiet
  rw [heard_eq hch' hw] at hquiet'
  have hnoted := (n.channel?_note c c .eventLog (.event (.packetReceived p))).trans hch
  have hheard := (h.note c .eventLog (.event (.packetReceived p))).modify hnoted
    ⟨⟨w, _, hw.setLedger l.recordReceived⟩, hrole⟩
  rw [hn, hm]
  exact (hheard.quiet hquiet hquiet').routePacket p

theorem receivePackets (h : n.Mirrors c own m) (ps : List Packet) :
    (receivePackets c ps n).Mirrors c own (receivePackets c ps m) := by
  refine h.foldl (fun n m p h => ?_) ps
  have hsame : m.isClosed c = n.isClosed c := by
    rw [Node.isClosed, h.channel]
    rfl
  rw [hsame]
  cases hch : n.channel? c with
  | none =>
    have hclosed : n.isClosed c = true := by rw [Node.isClosed, hch]
    rw [if_pos hclosed, if_pos hclosed]
    exact h
  | some ch =>
    split
    · exact h
    · exact h.packetReceived hch p

theorem attachRequested (h : n.Mirrors c own m) (a : Address) :
    (dispatch c (.attachRequested a) n).Mirrors c own (dispatch c (.attachRequested a) m) := by
  refine h.dispatchWith later_rule.full (.attachRequested a) fun l w => ?_
  rw [reaction_attachRequested]
  exact (Blind.consult _).bind fun _ => Blind.createSession _ a

/-- The connection asks for the mailbox of its identity. -/
theorem fetchRequested (h : n.Mirrors c own m) (hch : n.channel? c = some ch)
    (hown : ∀ a, n.identity? c = some a → own a) :
    (dispatch c .fetchRequested n).Mirrors c own (dispatch c .fetchRequested m) := by
  obtain ⟨w, l, hw⟩ := (h.server.channel c ch hch).wired
  rw [dispatch, dispatch, dispatchWith_eq later_rule.full ⟨ch, hch, hw⟩,
    dispatchWith_eq later_rule.full ⟨ch, h.channel.trans hch, hw⟩, reaction_fetchRequested]
  have hnote := h.note c .eventLog (.event .fetchRequested)
  have hnoted := (n.channel?_note c c .eventLog (.event .fetchRequested)).trans hch
  refine ((Blind.settleLedger l.flush.1 l.flush.2 _ _ hnote).bind ?_).settled
  intro u n' m' hn h'
  -- What the ledger does before it leaves the identity as it is.
  have hsteady : (n.note c .eventLog (.event .fetchRequested)).Steady n' := by
    obtain ⟨n₁, hn₁, hsteady⟩ | ⟨f, hf⟩ := steady_loose.law.settle_flush hnoted hw
    · rw [hn] at hn₁
      cases hn₁
      exact hsteady
    · rw [hn] at hf
      cases hf
  refine h'.flushMailbox fun a ha => hown a ?_
  rw [hsteady.identity, identity?_eq hnoted] at ha
  rw [identity?_eq hch, ha]

/-- The connection presents a credential, and if it gets an identity, it is attached to that. -/
theorem credentialReceived (h : n.Mirrors c own m) (hch : n.channel? c = some ch)
    (credential : Credential)
    (hown : ∀ a, (dispatch c (.credentialReceived credential) n).identity? c = some a → own a) :
    (dispatch c (.credentialReceived credential) n).Mirrors c own
      (dispatch c (.credentialReceived credential) m) := by
  obtain ⟨w, l, hw⟩ := (h.server.channel c ch hch).wired
  rw [dispatch, dispatchWith_eq later_rule.full ⟨ch, hch, hw⟩, reaction_credentialReceived]
    at hown ⊢
  rw [dispatch, dispatchWith_eq later_rule.full ⟨ch, h.channel.trans hch, hw⟩,
    reaction_credentialReceived]
  have hnote := h.note c .eventLog (.event (.credentialReceived credential))
  refine ((Blind.acceptCredential w.authenticate credential _ _ hnote).bind ?_).settled
  intro u n' m' hn h'
  rw [settled, Action.apply_bind_ok hn] at hown
  refine ⟨rfl, h'.attachRoute fun a ha => hown a ?_⟩
  -- Attaching the connection does not change what it is.
  rw [← ha]
  apply identity?_of_channels
  show (Courier.attachRoute c n').channels = n'.channels
  unfold Courier.attachRoute
  split <;> rfl

/-- A frame arrives on the connection in both; what it is identified as, before and after that, is
an address of its own. -/
theorem receive (h : n.Mirrors c own m) (f : Frame) (hbefore : ∀ a, n.identity? c = some a → own a)
    (hafter : ∀ a, (receive c f n).2.identity? c = some a → own a) :
    (receive c f n).2.Mirrors c own (receive c f m).2 := by
  cases hch : n.channel? c with
  | none =>
    rw [Courier.receive, Courier.receive, h.channel, hch]
    exact h
  | some ch =>
    have hrole := (h.server.channel c ch hch).role
    rw [Courier.receive, hch] at hafter
    rw [Courier.receive, Courier.receive, h.channel, hch]
    simp only [hrole] at hafter ⊢
    cases f with
    | attach a => exact h.attachRequested a
    | authenticate credential => exact h.credentialReceived hch credential hafter
    | session id => cases id <;> exact h.raiseWith _
    | identify identity => cases identity <;> exact h.raiseWith _
    | fetch => exact h.fetchRequested hch hbefore
    | send ps => exact h.receivePackets ps
    | requestAcknowledgment =>
      refine h.dispatchWith later_rule.full .acknowledgmentRequested fun l w => ?_
      rw [reaction_acknowledgmentRequested]
      exact Blind.settleLedger _ _
    | acknowledge count =>
      refine h.dispatchWith later_rule.full (.acknowledgmentReceived count) fun l w => ?_
      rw [reaction_acknowledgmentReceived]
      exact Blind.settleLedger _ _
    | detach | unknown code => exact h

theorem finish (h : n.Mirrors c own m) : (finish c n).Mirrors c own (finish c m) := by
  cases hch : n.channel? c with
  | none =>
    rw [Courier.finish, Courier.finish, h.channel, hch]
    exact h
  | some ch =>
    have hch' : m.channel? c = some ch := h.channel.trans hch
    by_cases hfinished : ch.finished = true
    · rw [finish_of_finished hch hfinished, finish_of_finished hch' hfinished]
      exact h
    · rw [finish_of_not_finished hch hfinished, finish_of_not_finished hch' hfinished]
      have hover := h.modify hch ((h.server.channel c ch hch).later ch.later_over)
      refine hover.dispatchWith later_rule.ended .disconnected fun l w => ?_
      rw [reaction_disconnected]
      exact .changes fun _ _ h => h.release

end Node.Mirrors

/-! ## Every sequence of frames -/

/-- Frames arrive on a connection one after the other. -/
def receiveAll (c : ChannelId) (frames : List Frame) (n : Node σ) : Node σ :=
  frames.foldl (fun n f => (receive c f n).2) n

/-- The connection is identified as the address before these frames arrive, or behind one of
them. -/
def Node.Gets (n : Node σ) (c : ChannelId) (frames : List Frame) (a : Address) : Prop :=
  ∃ before, before <+: frames ∧ (receiveAll c before n).identity? c = some a

theorem Node.Mirrors.receiveAll {frames : List Frame} (h : n.Mirrors c own m)
    (hown : ∀ a, n.Gets c frames a → own a) :
    (receiveAll c frames n).Mirrors c own (receiveAll c frames m) := by
  induction frames generalizing n m with
  | nil => exact h
  | cons f frames ih =>
    have hfirst := h.receive f (fun a ha => hown a ⟨[], List.nil_prefix, ha⟩) fun a ha =>
      hown a ⟨[f], List.prefix_cons_inj f |>.2 List.nil_prefix, ha⟩
    refine ih hfirst fun a ha => hown a ?_
    obtain ⟨before, hbefore, hidentity⟩ := ha
    exact ⟨f :: before, (List.prefix_cons_inj f).2 hbefore, hidentity⟩

/-- On two servers that are the same for a connection and for the addresses that it is identified as
while frames arrive on it, and where it is attached to no others, its channel is the same behind
the frames, and when it is finished then: its queue, its session, its ledger and its fault. -/
theorem peers_learn_nothing_of_others (n m : Node σ) (c : ChannelId) (frames : List Frame)
    (hn : n.IsServer) (hm : m.IsServer) (h : n.SameTo c (n.Gets c frames) m) :
    (receiveAll c frames m).channel? c = (receiveAll c frames n).channel? c ∧
    (finish c (receiveAll c frames m)).channel? c =
      (finish c (receiveAll c frames n)).channel? c := by
  have hmirrors : n.Mirrors c (n.Gets c frames) m := ⟨h, hn, hm⟩
  have hafter := hmirrors.receiveAll fun _ ha => ha
  exact ⟨hafter.channel, hafter.finish.channel⟩

/-! ## Servers that run -/

/-- A server is one in every state that it can reach. -/
theorem isServer_run (policy : σ) (acts : List (ServerAct σ)) :
    (serverRun policy acts).node.IsServer := by
  have hsound := (ServerRun.right_run policy acts).sound
  refine ⟨?_, (tracks_run policy acts).tidy⟩
  intro c ch hch
  obtain ⟨⟨w, l, hw, -⟩, hrole, -⟩ := hsound.channel c ch hch
  exact ⟨⟨w, l, hw⟩, hrole⟩

theorem node_serverRun_concat (policy : σ) (acts : List (ServerAct σ)) (a : ServerAct σ) :
    (serverRun policy (acts ++ [a])).node = a.perform (serverRun policy acts).node := by
  rw [serverRun, List.foldl_append]
  rfl

/-- A connection is attached to what it is identified as only. -/
theorem gets_of_attached (policy : σ) (acts : List (ServerAct σ)) {a : Address}
    (hc : c ∈ (serverRun policy acts).node.registry.channels a) (frames : List Frame) :
    (serverRun policy acts).node.Gets c frames a :=
  ⟨[], List.nil_prefix, (ServerRun.right_run policy acts).sound.attached.channels hc⟩

/-- The second twin has left. -/
def leftRun : List (ServerAct Unit) := twinRun ++ [.finish ⟨1⟩]

/-- A packet for the second twin, and what its sender can ask for then. -/
def curiousFrames : List Frame :=
  [.send [{ smallPacket with recipient := twins.2 }], .fetch, .requestAcknowledgment]

/-- The first twin cannot tell whether the second has left. -/
theorem peers_learn_nothing_of_others_left :
    (serverRun () twinRun).node.registry.channels twins.2 = [⟨1⟩] ∧
    (serverRun () leftRun).node.registry.channels twins.2 = [] ∧
    (receiveAll ⟨0⟩ curiousFrames (serverRun () leftRun).node).channel? ⟨0⟩ =
      (receiveAll ⟨0⟩ curiousFrames (serverRun () twinRun).node).channel? ⟨0⟩ ∧
    (finish ⟨0⟩ (receiveAll ⟨0⟩ curiousFrames (serverRun () leftRun).node)).channel? ⟨0⟩ =
      (finish ⟨0⟩ (receiveAll ⟨0⟩ curiousFrames (serverRun () twinRun).node)).channel? ⟨0⟩ := by
  have hchannel : (serverRun () leftRun).node.channel? ⟨0⟩ =
      (serverRun () twinRun).node.channel? ⟨0⟩ := by
    rw [leftRun, node_serverRun_concat, ServerAct.perform]
    exact (within_finish ⟨1⟩ _).others ⟨0⟩ (by decide)
  have hnamed : ∀ before ∈ curiousFrames.inits,
      (receiveAll ⟨0⟩ before (serverRun () twinRun).node).identity? ⟨0⟩ = some twins.1 := by
    decide +kernel
  have hsame : (serverRun () twinRun).node.SameFor twins.1 (serverRun () leftRun).node :=
    ⟨by decide +kernel, by decide +kernel, by decide +kernel⟩
  have hto : (serverRun () twinRun).node.SameTo ⟨0⟩
      ((serverRun () twinRun).node.Gets ⟨0⟩ curiousFrames) (serverRun () leftRun).node := by
    refine ⟨hchannel, Subsingleton.elim _ _, ?_, fun a ha => gets_of_attached () twinRun ha _, ?_⟩
    · rintro a ⟨before, hbefore, ha⟩
      rw [hnamed before ((List.mem_inits before curiousFrames).2 hbefore)] at ha
      exact Option.some.inj ha ▸ hsame
    · intro a ha
      have hidentity := (ServerRun.right_run () leftRun).sound.attached.channels ha
      rw [Node.identity?, hchannel] at hidentity
      exact ⟨[], List.nil_prefix, hidentity⟩
  exact ⟨by decide +kernel, by decide +kernel, peers_learn_nothing_of_others _ _ ⟨0⟩ curiousFrames
    (isServer_run () twinRun) (isServer_run () leftRun) hto⟩

end Courier
