import Courier.Proofs.Server.Deliveries

/-! # What the handshake does to a sound server

Every step of the handshake keeps a server sound and queues no packet. All but the last leave the
identities alone; the credential that is accepted gives its channel an identity, and nothing is
delivered on it in that step (`Admitted`).
-/
set_option autoImplicit false

namespace Courier

open Courier.Wire Courier.Wire.Frame Courier.Routing

variable {σ α β : Type} {n n' n'' : Node σ} {c : ChannelId} {ch ch' : Channel σ}

/-! ## Actions that keep the identities -/

/-- A sound node stays sound, with the same identities. -/
def Served (n n' : Node σ) : Prop := Sound n → Delivered n n'

namespace Served

theorem refl (n : Node σ) : Served n n := fun hsound => .refl hsound

theorem trans (h : Served n n') (h' : Served n' n'') : Served n n'' :=
  fun hsound => (h hsound).trans (h' (h hsound).sound)

theorem writeFrame (c : ChannelId) {f : Frame} (hregular : f.Regular) (hfor : ∀ i, f.IsFor i) :
    Moves (Served (σ := σ)) (writeFrame c f) := by
  intro n hsound
  obtain ⟨ch, hch, hlive⟩ | hnot := live_or_not n c
  · rw [apply_writeFrame hch hlive hregular]
    exact .modify hsound hch ((hsound.channel c ch hch).say_one hregular (hfor _))
  · obtain ⟨e, he⟩ := apply_writeFrame_of_not_live hnot hregular
    rw [he]
    exact .refl hsound

theorem stepSession (c : ChannelId) {step : Session → Except InvalidStep (Session × α)}
    (hstep : ∀ {s s' v}, step s = .ok (s', v) → s.Step s' ∧ s'.identity = s.identity) :
    Moves (Served (σ := σ)) (stepSession c step) := by
  intro n hsound
  rw [apply_stepSession]
  cases hch : n.channel? c with
  | none => exact .refl hsound
  | some ch =>
    simp only []
    cases hs : step ch.session with
    | error e => exact .refl hsound
    | ok field =>
      obtain ⟨hmoved, hidentity⟩ := hstep hs
      exact .modify hsound hch ⟨((hsound.channel c ch hch).step hmoved).1, hidentity, .of_queue rfl⟩

theorem plainStep (c : ChannelId) {step : Session → Except InvalidStep Session}
    (hstep : ∀ {s s'}, step s = .ok s' → s.Step s' ∧ s'.identity = s.identity) :
    Moves (Served (σ := σ)) (Courier.stepSession c (plainStep step)) := by
  apply stepSession
  intro s s' v h
  exact hstep (plainStep_eq_ok_iff.1 h)

theorem consult (p : Policy σ α) : Moves Served (consult p) := by
  intro n hsound
  rw [apply_consult]
  exact .of_channels hsound rfl hsound.attached hsound.waiting

theorem clearLedger (c : ChannelId) :
    Moves (Served (σ := σ)) (settleLedger c 2 .empty []) := by
  intro n hsound
  show Delivered n (n.setReactor c 2 (.reliableDelivery .empty))
  cases hch : n.channel? c with
  | none =>
    rw [Node.setReactor, Node.modify_of_none n c _ hch]
    exact .refl hsound
  | some ch =>
    rw [Node.setReactor_eq hch]
    exact .modify hsound hch ((hsound.channel c ch hch).setLedger fun p hp => by cases hp)

theorem settled (k : Reentry σ) (c : ChannelId) {a : Action σ Unit} (ha : Moves Served a)
    (n : Node σ) : Served n (settled k c a n) := by
  intro hsound
  have hrun := ha n hsound
  unfold Courier.settled
  split
  · rename_i n' heq
    rw [heq] at hrun
    exact hrun
  · rename_i f n' heq
    rw [heq] at hrun
    exact hrun.trans (hrun.sound.raiseWith k c f)

end Served

/-! ## Events -/

/-- An event whose reaction keeps the identities. -/
theorem Sound.dispatchWith (h : Sound n) {k : Reentry σ} (hk : k.Moves Node.Later) (c : ChannelId)
    {e : Event} (hnew : ∀ p, e ≠ .packetReceived p)
    (hreaction : ∀ w l, Moves Served (reaction k c e l (serverRest w))) :
    Delivered n (dispatchWith k c e n) := by
  cases hch : n.channel? c with
  | none =>
    rw [Courier.dispatchWith, Node.places, hch]
    exact .refl h
  | some ch =>
    obtain ⟨w, l, hw, -⟩ := (h.channel c ch hch).wired
    have hnoted := Delivered.quiet h (quiet_note_event n c hnew)
    rw [dispatchWith_eq hk ⟨ch, hch, hw⟩]
    exact hnoted.trans (Served.settled k c (hreaction w l) _ hnoted.sound)

namespace Served

theorem sessionCreated (c : ChannelId) (id : SessionId) (n : Node σ) :
    Served n (dispatchWith .quiet c (.sessionCreated id) n) := by
  intro hsound
  refine hsound.dispatchWith later_rule.quiet c (fun p hp => nomatch hp) ?_
  intro w l
  rw [reaction_sessionCreated]
  exact clearLedger c

theorem createSession (c : ChannelId) (create : SessionFactory σ) (a : Address) :
    Moves Served (createSession .full c create a) := by
  refine (plainStep c ?_).bind trans fun _ => (consult _).bind trans fun id =>
    (writeFrame c (regular_session (some id)) fun i => isFor_session i _).bind trans fun _ =>
      (stepSession c ?_).bind trans fun _ n => sessionCreated c id n
  · intro s s' h
    refine ⟨.attach a h, ?_⟩
    rw [(Session.attach_eq_ok_iff.1 h).2]
  · intro s s' v h
    refine ⟨.establish id v h, ?_⟩
    rw [(Session.establish_eq_ok_iff.1 h).2.1]

theorem connect (c : ChannelId) : Moves (Served (σ := σ)) (do
    Courier.stepSession c (Courier.plainStep (·.connect))
    modify (dispatch c .connected)) := by
  refine (plainStep c ?_).bind trans fun _ n hsound => ?_
  · intro s s' hs
    refine ⟨.connect hs, ?_⟩
    rw [(Session.connect_eq_ok_iff.1 hs).2]
  · refine hsound.dispatchWith later_rule.full c (fun p hp => nomatch hp) ?_
    intro w l
    rw [reaction_connected]
    exact fun n hn => .refl hn

theorem openChannel (c : ChannelId) : Moves (Served (σ := σ)) (openChannel c) := by
  intro n hsound
  rw [Courier.openChannel, Action.apply_get_bind]
  cases hch : n.channel? c with
  | none => exact .refl hsound
  | some ch =>
    have hrole : ¬ ch.session.role = .initiator := by
      rw [(hsound.channel c ch hch).role]
      decide
    simp only [hrole, if_false]
    exact connect c n hsound

end Served

namespace Sound

variable (h : Sound n)

include h

theorem attachRequested (c : ChannelId) (a : Address) :
    Delivered n (dispatch c (.attachRequested a) n) := by
  refine h.dispatchWith later_rule.full c (fun p hp => nomatch hp) ?_
  intro w l
  rw [reaction_attachRequested]
  exact (Served.consult _).bind Served.trans fun _ => Served.createSession c w.create a

/-- A channel whose connection is over is attached to nothing. -/
theorem finish (c : ChannelId) : Delivered n (finish c n) := by
  unfold Courier.finish
  cases hch : n.channel? c with
  | none => exact .refl h
  | some ch =>
    simp only []
    split
    · exact .refl h
    · have hclosed : Delivered n (n.modify c fun ch => { ch with finished := true }.close) := by
        rw [Node.modify_eq_const hch]
        exact .modify h hch ((h.channel c ch hch).of_finish (Channel.over_shut _ false))
      refine hclosed.trans (hclosed.sound.dispatchWith later_rule.ended c ?_ ?_)
      · exact fun p hp => nomatch hp
      · intro w l n hsound
        rw [reaction_disconnected]
        exact .of_channels hsound rfl (hsound.attached.release c) hsound.waiting

theorem greet (c : ChannelId) : Delivered n (Connection.greet c n) :=
  Served.settled .full c (Served.openChannel c) n h

end Sound

/-! ## Credentials -/

/-- The second is sound, no identity is taken away, and what was queued in between is addressed to
the identity that its channel had before. -/
structure Admitted (n n' : Node σ) : Prop where
  sound : Sound n'
  identity : ∀ c a, n.identity? c = some a → n'.identity? c = some a
  channel : ∀ c ch, n.channel? c = some ch → ∃ ch', n'.channel? c = some ch' ∧ ch.Forwards ch'

theorem Delivered.admitted (h : Delivered n n') : Admitted n n' := by
  refine ⟨h.sound, fun c a ha => (h.identity c).trans ha, ?_⟩
  intro c ch hch
  obtain ⟨ch', hch', haddressed⟩ := h.channel c ch hch
  exact ⟨ch', hch', haddressed.queue⟩

/-- Deliveries before an admission are part of it. -/
theorem Delivered.then_admitted (h : Delivered n n') (h' : Admitted n' n'') : Admitted n n'' := by
  refine ⟨h'.sound, ?_, ?_⟩
  · intro c a ha
    exact h'.identity c a ((h.identity c).trans ha)
  · intro c ch hch
    obtain ⟨ch', hch', haddressed⟩ := h.channel c ch hch
    obtain ⟨ch'', hch'', hforwards⟩ := h'.channel c ch' hch'
    exact ⟨ch'', hch'', haddressed.forwards hforwards⟩

/-- An action after which a channel may have got its identity, if it does not fail. -/
def Admits (a : Action σ α) : Prop :=
  ∀ n, Sound n → (∀ v n', a.apply n = (.ok v, n') → Admitted n n') ∧
    ∀ f n', a.apply n = (.error f, n') → Delivered n n'

theorem Moves.admits {a : Action σ α} {f : α → Action σ β} (ha : Moves Served a)
    (hf : ∀ v, Admits (f v)) : Admits (a >>= f) := by
  intro n hsound
  have hfirst := ha n hsound
  rw [Action.apply_bind]
  cases hrun : a.apply n with
  | mk r n₁ =>
    rw [hrun] at hfirst
    cases r with
    | error e =>
      refine ⟨?_, ?_⟩
      · intro u n' heq
        cases heq
      · intro e' n' heq
        cases heq
        exact hfirst
    | ok v =>
      obtain ⟨hok, herror⟩ := hf v n₁ hfirst.sound
      exact ⟨fun u n' heq => hfirst.then_admitted (hok u n' heq),
        fun e n' heq => hfirst.trans (herror e n' heq)⟩

theorem admits_identify (c : ChannelId) (a : Address) :
    Admits (σ := σ) (do let _ ← stepSession c (·.identify a)) := by
  intro n hsound
  rw [Action.apply_bind, apply_stepSession]
  cases hch : n.channel? c with
  | none =>
    refine ⟨?_, ?_⟩
    · intro v n' heq
      cases heq
    · intro f n' heq
      cases heq
      exact .refl hsound
  | some ch =>
    simp only []
    cases hs : ch.session.identify a with
    | error e =>
      refine ⟨?_, ?_⟩
      · intro v n' heq
        cases heq
      · intro f n' heq
        cases heq
        exact .refl hsound
    | ok field =>
      obtain ⟨s, d⟩ := field
      obtain ⟨hnext, hnone⟩ := (hsound.channel c ch hch).step (.identify a d hs)
      -- The channel had no identity, so none is taken away.
      have hkept : ∀ b, ch.session.identity = some b → s.identity = some b := by
        intro b hb
        rw [hnone] at hb
        cases hb
      refine ⟨?_, fun f n' heq => nomatch heq⟩
      intro v n' heq
      cases heq
      refine ⟨hsound.modify hch hnext hkept, identity?_modify_of_kept hch hkept, ?_⟩
      exact Node.exists_modify (Q := fun _ ch ch' => ch.Forwards ch') hch (.of_queue rfl)
        fun _ _ _ => .of_queue rfl

theorem admits_acceptCredential (c : ChannelId) (authenticate : Authenticator σ)
    (credential : Credential) : Admits (acceptCredential c authenticate credential) := by
  refine (Moves.readingRealm Served.refl c).admits fun realm => (Served.consult _).admits fun a =>
    (Served.plainStep c ?_).admits fun _ =>
      (Served.writeFrame c (regular_identify (some a)) fun i => isFor_identify i _).admits
        fun _ => admits_identify c a
  intro s s' hs
  refine ⟨.authenticate hs, ?_⟩
  rw [(Session.authenticate_eq_ok_iff.1 hs).2]

/-- A channel is attached to the identity that it has. -/
theorem Admitted.attachRoute (h : Admitted n n') (c : ChannelId) :
    Admitted n (attachRoute c n') := by
  unfold Courier.attachRoute
  split
  · rename_i a ha
    refine ⟨⟨h.sound.channel, h.sound.attached.attach ha, h.sound.waiting⟩, h.identity, h.channel⟩
  · exact h

theorem Sound.credentialReceived (h : Sound n) (c : ChannelId) (credential : Credential) :
    Admitted n (dispatch c (.credentialReceived credential) n) := by
  cases hch : n.channel? c with
  | none =>
    rw [dispatch, Courier.dispatchWith, Node.places, hch]
    exact (Delivered.refl h).admitted
  | some ch =>
    obtain ⟨w, l, hw, -⟩ := (h.channel c ch hch).wired
    have hnoted := Delivered.quiet h
      (quiet_note_event n c (e := .credentialReceived credential) fun _ hp => by cases hp)
    rw [dispatch, dispatchWith_eq later_rule.full ⟨ch, hch, hw⟩, settled,
      reaction_credentialReceived, Action.apply_bind]
    obtain ⟨hok, herror⟩ := admits_acceptCredential c w.authenticate credential _ hnoted.sound
    cases hrun : (acceptCredential c w.authenticate credential).apply
        (n.note c .eventLog (.event (.credentialReceived credential))) with
    | mk r n' =>
      cases r with
      | ok u => exact (hnoted.then_admitted (hok u n' hrun)).attachRoute c
      | error f =>
        have hfailed := hnoted.trans (herror f n' hrun)
        exact (hfailed.trans (hfailed.sound.raiseWith .full c f)).admitted

/-! ## Frames -/

theorem Sound.receivePackets (h : Sound n) (c : ChannelId) (ps : List Packet) :
    Delivered n (receivePackets c ps n) := by
  induction ps generalizing n with
  | nil => exact .refl h
  | cons p ps ih =>
    have hfirst : Delivered n (if n.isClosed c then n else dispatch c (.packetReceived p) n) := by
      split
      · exact .refl h
      · rename_i hopen
        cases hch : n.channel? c with
        | none => exact absurd (by rw [Node.isClosed, hch]) hopen
        | some ch => exact h.traffic hch trivial
    exact hfirst.trans (ih hfirst.sound)

theorem Sound.receive (h : Sound n) (c : ChannelId) (f : Frame) :
    Admitted n (receive c f n).2 := by
  cases hch : n.channel? c with
  | none =>
    rw [Courier.receive, hch]
    exact (Delivered.refl h).admitted
  | some ch =>
    have hrole := (h.channel c ch hch).role
    rw [Courier.receive, hch]
    simp only [hrole]
    cases f with
    | attach a => exact (h.attachRequested c a).admitted
    | authenticate credential => exact h.credentialReceived c credential
    | session id => cases id <;> exact (h.raiseWith .full c _).admitted
    | identify identity => cases identity <;> exact (h.raiseWith .full c _).admitted
    | fetch => exact (h.traffic (e := .fetchRequested) hch trivial).admitted
    | requestAcknowledgment =>
      exact (h.traffic (e := .acknowledgmentRequested) hch trivial).admitted
    | acknowledge count =>
      exact (h.traffic (e := .acknowledgmentReceived count) hch trivial).admitted
    | send packets => exact (h.receivePackets c packets).admitted
    | detach | unknown code => exact (Delivered.refl h).admitted

end Courier
