import Courier.Proofs.Node.Becoming
import Courier.Proofs.Server.Run

/-! # Everything a server does

On a server whose channels are sound, every act is a chain of few changes: the traffic of identified
channels, the handshake of a channel that has no identity yet, its admission, and the coming and
going of connections and writers. A relation that holds of each change and of chains of them
(`ServerLaw`) holds of every act (`ServerLaw.perform`).
-/
set_option autoImplicit false

namespace Courier

open Courier.Wire Courier.Wire.Frame Courier.Routing

variable {σ α : Type} {n n' n'' : Node σ} {c : ChannelId} {ch ch' ch'' : Channel σ}

/-! ## The handshake before the admission -/

/-- What the handshake makes of a channel, short of giving it an identity. -/
structure Channel.Prepares (ch ch' : Channel σ) : Prop where
  identity : ch'.session.identity = ch.session.identity
  finished : ch'.finished = ch.finished
  closed : ch.session.isClosed = true → ch'.session.isClosed = true
  identified : ch'.session.phase = .identified → ch.session.phase = .identified

namespace Channel.Prepares

theorem refl (ch : Channel σ) : ch.Prepares ch := ⟨rfl, rfl, fun h => h, fun h => h⟩

theorem trans (h : ch.Prepares ch') (h' : ch'.Prepares ch'') : ch.Prepares ch'' :=
  ⟨h'.identity.trans h.identity, h'.finished.trans h.finished, fun hc => h'.closed (h.closed hc),
    fun hp => h.identified (h'.identified hp)⟩

theorem of_session (hsession : ch'.session = ch.session) (hfinished : ch'.finished = ch.finished) :
    ch.Prepares ch' := by
  refine ⟨?_, hfinished, ?_, ?_⟩
  · rw [hsession]
  · rw [hsession]
    exact fun h => h
  · rw [hsession]
    exact fun h => h

theorem of_over (hover : ch.Over ch') : ch.Prepares ch' := by
  refine ⟨?_, hover.finished, ?_, ?_⟩
  · rw [hover.session]
    rfl
  · rw [hover.session]
    exact fun _ => rfl
  · rw [hover.session]
    exact fun h => nomatch h

end Channel.Prepares

/-- A step that gives no identity. -/
structure Session.Forward (s s' : Session) : Prop where
  step : s.Step s'
  identity : s'.identity = s.identity
  phase : s'.phase ≠ .identified

theorem Channel.Prepares.of_forward {s : Session} (h : ch.session.Forward s) :
    ch.Prepares (ch.setSession s) := by
  refine ⟨h.identity, rfl, ?_, ?_⟩
  · intro hclosed
    rw [h.step.isOpen] at hclosed
    cases hclosed
  · exact fun hp => absurd hp h.phase

namespace Session.Forward

variable {s s' : Session} {d : List Demand}

theorem connect (h : s.connect = .ok s') : s.Forward s' := by
  have heq := (connect_eq_ok_iff.1 h).2
  refine ⟨.connect h, ?_, ?_⟩
  · rw [heq]
  · rw [heq]
    exact fun hp => nomatch hp

theorem attach {a : Address} (h : s.attach a = .ok s') : s.Forward s' := by
  have heq := (attach_eq_ok_iff.1 h).2
  refine ⟨.attach a h, ?_, ?_⟩
  · rw [heq]
  · rw [heq]
    exact fun hp => nomatch hp

theorem establish {id : SessionId} (h : s.establish id = .ok (s', d)) : s.Forward s' := by
  have heq := (establish_eq_ok_iff.1 h).2.1
  refine ⟨.establish id d h, ?_, ?_⟩
  · rw [heq]
  · rw [heq]
    exact fun hp => nomatch hp

theorem authenticate (h : s.authenticate = .ok s') : s.Forward s' := by
  have heq := (authenticate_eq_ok_iff.1 h).2
  refine ⟨.authenticate h, ?_, ?_⟩
  · rw [heq]
  · rw [heq]
    exact fun hp => nomatch hp

end Session.Forward

/-! ## Actions that prepare one channel -/

/-- Only the server's channel in this place changes, and it is prepared. -/
def Confined (c : ChannelId) (n n' : Node σ) : Prop :=
  ∀ ch w l, n.channel? c = some ch → ch.Wired l (serverRest w) →
    ∃ ch' l', n.Becomes c ch' n' ∧ ch.Prepares ch' ∧ ch'.Wired l' (serverRest w)

namespace Confined

theorem refl (n : Node σ) : Confined c n n := fun ch _ l hch hw =>
  ⟨ch, l, .quiet hch (.refl n), .refl ch, hw⟩

theorem trans (h : Confined c n n') (h' : Confined c n' n'') : Confined c n n'' := by
  intro ch w l hch hw
  obtain ⟨ch', l', hbecomes, hprepares, hw'⟩ := h ch w l hch hw
  obtain ⟨ch'', l'', hbecomes', hprepares', hw''⟩ := h' ch' w l' hbecomes.self hw'
  exact ⟨ch'', l'', hbecomes.trans hbecomes', hprepares.trans hprepares', hw''⟩

theorem writeFrame (c : ChannelId) {f : Frame} (hregular : f.Regular) :
    Moves (Confined (σ := σ) c) (writeFrame c f) := by
  intro n ch w l hch hw
  by_cases hlive : ch.Live
  · rw [apply_writeFrame hch hlive hregular]
    exact ⟨_, l, .modify hch _, .of_session rfl rfl, hw.say [f]⟩
  · obtain ⟨e, he⟩ := apply_writeFrame_of_not_live (not_live_of_channel? hch hlive) hregular
    rw [he]
    exact refl n ch w l hch hw

theorem stepSession (c : ChannelId) {step : Session → Except InvalidStep (Session × α)}
    (hstep : ∀ {s s' v}, step s = .ok (s', v) → s.Forward s') :
    Moves (Confined (σ := σ) c) (stepSession c step) := by
  intro n ch w l hch hw
  rw [apply_stepSession, hch]
  simp only []
  cases hs : step ch.session with
  | error e => exact refl n ch w l hch hw
  | ok field => exact ⟨_, l, .modify hch _, .of_forward (hstep hs), hw.of_reactors_eq rfl⟩

theorem plainStep (c : ChannelId) {step : Session → Except InvalidStep Session}
    (hstep : ∀ {s s'}, step s = .ok s' → s.Forward s') :
    Moves (Confined (σ := σ) c) (Courier.stepSession c (plainStep step)) := by
  apply stepSession
  intro s s' v h
  exact hstep (plainStep_eq_ok_iff.1 h)

theorem consult (c : ChannelId) (p : Policy σ α) : Moves (Confined c) (consult p) := by
  intro n ch w l hch hw
  rw [apply_consult]
  exact ⟨ch, l, ⟨hch, fun _ _ => rfl, fun _ => rfl, rfl⟩, .refl ch, hw⟩

theorem clearLedger (c : ChannelId) :
    Moves (Confined (σ := σ) c) (settleLedger c 2 .empty []) := by
  intro n ch w l hch hw
  show ∃ ch' l', n.Becomes c ch' (n.setReactor c 2 (.reliableDelivery .empty)) ∧ _
  rw [Node.setReactor_eq hch]
  exact ⟨_, .empty, .modify hch _, .of_session rfl rfl, hw.setLedger .empty⟩

theorem raiseWith (k : Reentry σ) (c : ChannelId) (f : Fault) (n : Node σ) :
    Confined c n (raiseWith k c f n) := by
  intro ch w l hch hw
  obtain ⟨ch', hquiet, hover⟩ := raiseWith_spec (k := k) hch hw f
  have hself := Node.channel?_modify_of_some hch fun _ => ch'
  exact ⟨ch', l, (Node.Becomes.modify hch ch').trans (.quiet hself hquiet), .of_over hover,
    hw.of_reactors_eq hover.reactors⟩

theorem settled (k : Reentry σ) (c : ChannelId) {a : Action σ Unit} (ha : Moves (Confined c) a)
    (n : Node σ) : Confined c n (settled k c a n) := by
  have hrun := ha n
  unfold Courier.settled
  split
  · rename_i n' heq
    rw [heq] at hrun
    exact hrun
  · rename_i f n' heq
    rw [heq] at hrun
    exact hrun.trans (raiseWith k c f n')

theorem dispatchWith {k : Reentry σ} (hk : k.Moves Node.Later) (c : ChannelId) {e : Event}
    (hnew : ∀ p, e ≠ .packetReceived p)
    (hreaction : ∀ w l, Moves (Confined c) (reaction k c e l (serverRest w))) (n : Node σ) :
    Confined c n (dispatchWith k c e n) := by
  intro ch w l hch hw
  rw [dispatchWith_eq hk ⟨ch, hch, hw⟩]
  have hnoted : Confined c n (n.note c .eventLog (.event e)) :=
    fun ch _ l hch hw => ⟨ch, l, becomes_noted hch hnew, .refl ch, hw⟩
  exact hnoted.trans (settled k c (hreaction w l) _) ch w l hch hw

theorem sessionCreated (c : ChannelId) (id : SessionId) (n : Node σ) :
    Confined c n (Courier.dispatchWith .quiet c (.sessionCreated id) n) := by
  refine dispatchWith (e := .sessionCreated id) later_rule.quiet c (fun p hp => nomatch hp) ?_ n
  intro w l
  rw [reaction_sessionCreated]
  exact clearLedger c

theorem attachRequested (c : ChannelId) (a : Address) (n : Node σ) :
    Confined c n (dispatch c (.attachRequested a) n) := by
  refine dispatchWith (e := .attachRequested a) later_rule.full c (fun p hp => nomatch hp) ?_ n
  intro w l
  rw [reaction_attachRequested]
  exact (consult c _).bind trans fun _ => (plainStep c fun h => .attach h).bind trans fun _ =>
    (consult c _).bind trans fun id => (writeFrame c (regular_session (some id))).bind trans fun _ =>
      (stepSession c fun h => .establish h).bind trans fun _ n => sessionCreated c id n

theorem connect (c : ChannelId) : Moves (Confined (σ := σ) c) (do
    Courier.stepSession c (Courier.plainStep (·.connect))
    modify (dispatch c .connected)) := by
  refine (plainStep c fun h => .connect h).bind trans fun _ n => ?_
  refine dispatchWith (e := .connected) later_rule.full c (fun p hp => nomatch hp) ?_ n
  intro w l
  rw [reaction_connected]
  exact refl

theorem greet (hch : n.channel? c = some ch) (hrole : ch.session.role = .responder) :
    Confined c n (Connection.greet c n) := by
  have hopens : (openChannel c).apply n =
      (do Courier.stepSession c (Courier.plainStep (·.connect))
          modify (dispatch c .connected) : Action σ Unit).apply n := by
    rw [openChannel, Action.apply_get_bind, hch]
    simp only [hrole, reduceCtorEq, if_false]
  have hsettled := settled .full c (connect c) n
  rw [Courier.settled, ← hopens] at hsettled
  exact hsettled

end Confined

/-! ## Admission -/

/-- The channel after it was given an identity. -/
def Channel.admitted (ch : Channel σ) (a : Address) : Channel σ :=
  ch.setSession { ch.session with identity := some a, phase := .identified }

/-- An action that prepares a channel and then admits it, if it does not fail. -/
def Grants (c : ChannelId) (act : Action σ Unit) : Prop :=
  ∀ n ch w l, n.channel? c = some ch → ch.Wired l (serverRest w) →
    (∀ f n', act.apply n = (.error f, n') → ∃ ch' l', n.Becomes c ch' n' ∧ ch.Prepares ch' ∧
      ch'.Wired l' (serverRest w)) ∧
    ∀ u n', act.apply n = (.ok u, n') → ∃ ch' a, n.Becomes c (ch'.admitted a) n' ∧
      ch.Prepares ch' ∧ ch'.session.phase = .authenticated

theorem Moves.grants {a : Action σ α} {f : α → Action σ Unit} (ha : Moves (Confined c) a)
    (hf : ∀ v, Grants c (f v)) : Grants c (a >>= f) := by
  intro n ch w l hch hw
  obtain ⟨ch₁, l₁, hbecomes, hprepares, hw₁⟩ := ha n ch w l hch hw
  rw [Action.apply_bind]
  cases hrun : a.apply n with
  | mk r n₁ =>
    rw [hrun] at hbecomes
    cases r with
    | error e =>
      refine ⟨?_, fun u n' heq => nomatch heq⟩
      intro f n' heq
      cases heq
      exact ⟨ch₁, l₁, hbecomes, hprepares, hw₁⟩
    | ok v =>
      obtain ⟨herror, hok⟩ := hf v n₁ ch₁ w l₁ hbecomes.self hw₁
      refine ⟨?_, ?_⟩
      · intro f n' heq
        obtain ⟨ch', l', hbecomes', hprepares', hw'⟩ := herror f n' heq
        exact ⟨ch', l', hbecomes.trans hbecomes', hprepares.trans hprepares', hw'⟩
      · intro u n' heq
        obtain ⟨ch', a, hbecomes', hprepares', hphase⟩ := hok u n' heq
        exact ⟨ch', a, hbecomes.trans hbecomes', hprepares.trans hprepares', hphase⟩

theorem grants_identify (c : ChannelId) (a : Address) :
    Grants (σ := σ) c (do let _ ← stepSession c (·.identify a)) := by
  intro n ch w l hch hw
  rw [Action.apply_bind, apply_stepSession, hch]
  simp only []
  cases hs : ch.session.identify a with
  | error e =>
    refine ⟨?_, fun u n' heq => nomatch heq⟩
    intro f n' heq
    cases heq
    exact Confined.refl n ch w l hch hw
  | ok field =>
    obtain ⟨s, d⟩ := field
    obtain ⟨hphase, rfl, -⟩ := Session.identify_eq_ok_iff.1 hs
    refine ⟨?_, ?_⟩
    · intro f n' heq
      cases heq
    intro u n' heq
    cases heq
    exact ⟨ch, a, .modify hch _, .refl ch, hphase⟩

theorem grants_acceptCredential (c : ChannelId) (authenticate : Authenticator σ)
    (credential : Credential) : Grants c (acceptCredential c authenticate credential) :=
  (Moves.readingRealm Confined.refl c).grants fun _ => (Confined.consult c _).grants fun a =>
    (Confined.plainStep c fun h => .authenticate h).grants fun _ =>
      (Confined.writeFrame c (regular_identify (some a))).grants fun _ => grants_identify c a

/-! ## Finishing -/

/-- A channel that was not finished is over, and it is attached to nothing. -/
theorem Sound.finish_cases (h : Sound n) (hch : n.channel? c = some ch) :
    (ch.finished = true ∧ Courier.finish c n = n) ∨
    ∃ ch', { ch with finished := true }.Over ch' ∧
      Quiet { n.modify c (fun _ => ch') with registry := n.registry.release c }
        (Courier.finish c n) := by
  unfold Courier.finish
  rw [hch]
  simp only []
  by_cases hfinished : ch.finished = true
  · rw [if_pos hfinished]
    exact .inl ⟨hfinished, rfl⟩
  · rw [if_neg hfinished]
    right
    have hover := Channel.over_shut { ch with finished := true } false
    obtain ⟨w, l, hw, -⟩ := (h.channel c ch hch).wired
    have hw' : ({ ch with finished := true }.close).Wired l (serverRest w) :=
      hw.of_reactors_eq hover.reactors
    have hself := Node.channel?_modify_of_some hch fun _ => { ch with finished := true }.close
    have hnote := quiet_note_event (n.modify c fun _ => { ch with finished := true }.close) c
      (e := .disconnected) fun _ hp => nomatch hp
    have hmodify := Node.modify_eq_const hch fun ch => { ch with finished := true }.close
    refine ⟨{ ch with finished := true }.close, hover, ?_⟩
    rw [hmodify, dispatchWith_eq later_rule.ended ⟨_, hself, hw'⟩,
      reaction_disconnected]
    refine ⟨hnote.channels, ?_, hnote.policy, hnote.arrivals⟩
    show (Node.note _ c _ _).registry.release c = n.registry.release c
    rw [hnote.registry]
    rfl

/-! ## The law of a server -/

/-- A relation that holds of every change of a server's node and of chains of them; `hears` says
whether packets may arrive, and `clears` whether acknowledgments may clear buffers. -/
structure ServerLaw (hears clears : Prop) (R : Node σ → Node σ → Prop) : Prop
    extends Law (fun _ _ => True) (fun _ => clears) R where
  policy : ∀ n s, R n { n with policy := s }
  heard : hears → ∀ {n c ch l rest} (p : Packet), n.channel? c = some ch → ch.Wired l rest →
    R n (n.heard c p)
  prepare : ∀ {n n' c ch ch'}, n.channel? c = some ch → ch.session.identity = none →
    ch.Prepares ch' → n.Becomes c ch' n' → R n n'
  admits : ∀ {n n' c ch ch' a}, n.channel? c = some ch → ch.session.identity = none →
    ch.Prepares ch' → ch'.session.phase = .authenticated → n.Becomes c (ch'.admitted a) n' →
      R n { n' with registry := n'.registry.attach a c }
  accept : ∀ n w now, R n (accept w now n).2
  finish : ∀ {n c ch ch'}, n.channel? c = some ch → { ch with finished := true }.Over ch' →
    R n { n.modify c (fun _ => ch') with registry := n.registry.release c }
  empty : ∀ {n c ch ch'}, n.channel? c = some ch → ch'.session = ch.session →
    ch'.reactors = ch.reactors → ch'.finished = ch.finished → R n (n.modify c fun _ => ch')

/-- The act is an acknowledgment that clears a buffer. -/
def ServerAct.Clears (n : Node σ) : ServerAct σ → Prop
  | receive c (.acknowledge count) =>
    ∃ ch l, n.channel? c = some ch ∧ ch.ledger? = some l ∧ count = l.transmitted
  | _ => False

/-- The act brings packets. -/
def ServerAct.Brings : ServerAct σ → Prop
  | receive _ (.send _) => True
  | _ => False

namespace ServerLaw

variable {hears clears : Prop} {R : Node σ → Node σ → Prop} (hL : ServerLaw hears clears R)

include hL

theorem refl (n : Node σ) : R n n := hL.quiet (.refl n)

/-- A reaction that fails before it did anything but consult the policies. -/
theorem settled_of_error (h : Sound n) {a : Action σ Unit}
    (ha : ∃ f s, a.apply n = (.error f, { n with policy := s })) : R n (settled .full c a n) := by
  obtain ⟨f, s, happly⟩ := ha
  have hwired : ({ n with policy := s } : Node σ).AllWired := h.allWired
  rw [settled, happly]
  exact hL.trans (hL.policy n s) (hL.toLaw.raiseWith hwired .full c f)

omit hL in
/-- A channel that has an identity takes no step of the handshake. -/
theorem stepSession_of_named (h : Sound n) (hch : n.channel? c = some ch)
    (hnamed : ch.session.identity ≠ none) {step : Session → Except InvalidStep (Session × α)}
    (hstep : ∀ {s s' v}, step s = .ok (s', v) → s.Step s') :
    ∃ f, (stepSession c step).apply n = (.error f, n) := by
  rw [apply_stepSession, hch]
  simp only []
  cases hs : step ch.session with
  | error e => exact ⟨_, rfl⟩
  | ok field => exact absurd ((h.channel c ch hch).step (hstep hs)).2 hnamed

theorem greet (h : Sound n) (c : ChannelId) : R n (Connection.greet c n) := by
  cases hch : n.channel? c with
  | none =>
    rw [greet_of_none hch]
    exact hL.refl n
  | some ch =>
    have hsound := h.channel c ch hch
    by_cases hnamed : ch.session.identity = none
    · obtain ⟨w, l, hw, -⟩ := hsound.wired
      obtain ⟨ch', l', hbecomes, hprepares, -⟩ := Confined.greet hch hsound.role ch w l hch hw
      exact hL.prepare hch hnamed hprepares hbecomes
    · refine hL.settled_of_error (a := openChannel c) h ?_
      obtain ⟨f, hf⟩ : ∃ f, (stepSession c (plainStep (·.connect))).apply n = (.error f, n) :=
        stepSession_of_named h hch hnamed fun hs => .connect (plainStep_eq_ok_iff.1 hs)
      refine ⟨f, n.policy, ?_⟩
      rw [openChannel, Action.apply_get_bind, hch]
      simp only [hsound.role, reduceCtorEq, if_false]
      exact Action.apply_bind_error hf

theorem attachRequested (h : Sound n) (hch : n.channel? c = some ch) (a : Address) :
    R n (dispatch c (.attachRequested a) n) := by
  obtain ⟨w, l, hw, -⟩ := (h.channel c ch hch).wired
  by_cases hnamed : ch.session.identity = none
  · obtain ⟨ch', l', hbecomes, hprepares, -⟩ := Confined.attachRequested c a n ch w l hch hw
    exact hL.prepare hch hnamed hprepares hbecomes
  · have hnote := quiet_note_event n c (e := .attachRequested a) fun _ hp => nomatch hp
    have hnoted := (Delivered.quiet h hnote).sound
    rw [dispatch, dispatchWith_eq later_rule.full ⟨ch, hch, hw⟩, reaction_attachRequested]
    refine hL.trans (hL.quiet hnote) (hL.settled_of_error hnoted ?_)
    generalize n.note c .eventLog (.event (.attachRequested a)) = m at hnote hnoted
    have hm := (hnote.channel? c).trans hch
    rw [Action.apply_bind, apply_consult]
    cases hverify : w.verify a m.policy with
    | mk answer s =>
      cases answer with
      | error f => exact ⟨f, s, rfl⟩
      | ok u =>
        have hsound : Sound { m with policy := s } := hnoted.of_channels rfl hnoted.attached
          hnoted.waiting
        obtain ⟨f, hf⟩ : ∃ f, (stepSession c (plainStep (·.attach a))).apply
            { m with policy := s } = (.error f, { m with policy := s }) :=
          stepSession_of_named hsound hm hnamed fun hs => .attach a (plainStep_eq_ok_iff.1 hs)
        exact ⟨f, s, Action.apply_bind_error hf⟩

theorem credentialReceived (h : Sound n) (hch : n.channel? c = some ch)
    (credential : Credential) : R n (dispatch c (.credentialReceived credential) n) := by
  obtain ⟨w, l, hw, -⟩ := (h.channel c ch hch).wired
  have hnote := quiet_note_event n c (e := .credentialReceived credential) fun _ hp => nomatch hp
  have hnoted := (Delivered.quiet h hnote).sound
  have hm := (hnote.channel? c).trans hch
  rw [dispatch, dispatchWith_eq later_rule.full ⟨ch, hch, hw⟩, reaction_credentialReceived]
  refine hL.trans (hL.quiet hnote) ?_
  generalize n.note c .eventLog (.event (.credentialReceived credential)) = m at hnoted hm
  by_cases hnamed : ch.session.identity = none
  · obtain ⟨herror, hok⟩ := grants_acceptCredential c w.authenticate credential m ch w l hm hw
    rw [settled, Action.apply_bind]
    cases hrun : (acceptCredential c w.authenticate credential).apply m with
    | mk r m' =>
      cases r with
      | error f =>
        obtain ⟨ch₁, l₁, hbecomes, hprepares, hw₁⟩ := herror f m' hrun
        obtain ⟨ch', l', hfailed, hover, -⟩ :=
          Confined.raiseWith .full c f m' ch₁ w l₁ hbecomes.self hw₁
        exact hL.prepare hm hnamed (hprepares.trans hover) (hbecomes.trans hfailed)
      | ok u =>
        obtain ⟨ch', a, hbecomes, hprepares, hphase⟩ := hok u m' hrun
        have hattach := attachRoute_of_identity (a := a) (identity?_eq hbecomes.self)
        show R m (attachRoute c m')
        rw [hattach]
        exact hL.admits hm hnamed hprepares hphase hbecomes
  · refine hL.settled_of_error hnoted ?_
    -- The phase is `identified` or `closed`, and no realm takes credentials then.
    have hrealm : ∃ e, realmOf ch.session = .error e := by
      obtain hp | hp := (h.channel c ch hch).named hnamed
      · exact ⟨_, by rw [realmOf, Session.require, hp]; rfl⟩
      · exact ⟨_, by rw [realmOf, Session.require, hp]; rfl⟩
    obtain ⟨e, he⟩ := hrealm
    refine ⟨e, m.policy, Action.apply_bind_error (Action.apply_bind_error ?_)⟩
    rw [apply_onChannel, hm]
    simp only [he]
    rfl

theorem finish_act (h : Sound n) (c : ChannelId) : R n (Courier.finish c n) := by
  cases hch : n.channel? c with
  | none =>
    rw [Courier.finish, hch]
    exact hL.refl n
  | some ch =>
    obtain hsame | ⟨ch', hover, hquiet⟩ := h.finish_cases hch
    · rw [hsame.2]
      exact hL.refl n
    · exact hL.trans (hL.finish hch hover) (hL.quiet hquiet)

theorem shut (h : Sound n) (c : ChannelId) (goodbye : Bool) :
    R n (n.modify c (·.shut goodbye)) := by
  cases hch : n.channel? c with
  | none =>
    rw [Node.modify_of_none n c _ hch]
    exact hL.refl n
  | some ch =>
    obtain ⟨w, l, hw, -⟩ := (h.channel c ch hch).wired
    rw [Node.modify_eq_const hch]
    have hover : (ch.setLedger l).Over (ch.shut goodbye) := by
      rw [hw.setLedger_self]
      exact ch.over_shut goodbye
    exact hL.act hch (.fail hw rfl hover)

theorem empty_act (c : ChannelId) {f : Channel σ → Channel σ}
    (hsession : ∀ ch, (f ch).session = ch.session) (hreactors : ∀ ch, (f ch).reactors = ch.reactors)
    (hfinished : ∀ ch, (f ch).finished = ch.finished) : R n (n.modify c f) := by
  cases hch : n.channel? c with
  | none =>
    rw [Node.modify_of_none n c _ hch]
    exact hL.refl n
  | some ch =>
    rw [Node.modify_eq_const hch]
    exact hL.empty hch (hsession ch) (hreactors ch) (hfinished ch)

/-! ## Frames -/

omit hL in
theorem permits_all (n : Node σ) : Permits (fun _ _ => True) n :=
  ⟨fun _ _ _ => trivial, fun _ _ _ _ => trivial⟩

/-- Traffic that brings no packet. -/
theorem traffic (h : Sound n) (hch : n.channel? c = some ch) {e : Event} (he : e.IsTraffic)
    (hnew : ∀ p, e ≠ .packetReceived p)
    (hclears : ∀ count l, e = .acknowledgmentReceived count → ch.ledger? = some l →
      count = l.transmitted → clears) : R n (dispatch c e n) := by
  obtain ⟨w, l, hw, -⟩ := (h.channel c ch hch).wired
  exact hL.toLaw.dispatch h.allWired hch hw he hnew
    (fun count heq hcount => hclears count l heq hw.ledger?_eq hcount) fun n' _ => permits_all n'

theorem packetReceived (hhears : hears) (h : Sound n) (hch : n.channel? c = some ch) (p : Packet) :
    R n (dispatch c (.packetReceived p) n) := by
  obtain ⟨w, l, hw, -⟩ := (h.channel c ch hch).wired
  obtain ⟨-, hrest⟩ :=
    hL.toLaw.dispatch_packetReceived h.allWired hch p fun n' _ => permits_all n'
  exact hL.trans (hL.heard hhears p hch hw) hrest

theorem receivePackets (hhears : hears) (h : Sound n) (c : ChannelId) (ps : List Packet) :
    R n (receivePackets c ps n) := by
  induction ps generalizing n with
  | nil => exact hL.refl n
  | cons p ps ih =>
    have hsound := (h.receivePackets c [p]).sound
    refine hL.trans ?_ (ih hsound)
    show R n (if n.isClosed c then n else dispatch c (.packetReceived p) n)
    split
    · exact hL.refl n
    · rename_i hopen
      cases hch : n.channel? c with
      | none => exact absurd (by rw [Node.isClosed, hch]) hopen
      | some ch => exact hL.packetReceived hhears h hch p

theorem receive (h : Sound n) (c : ChannelId) (f : Frame)
    (hclears : (ServerAct.receive c f).Clears n → clears)
    (hhears : (ServerAct.receive (σ := σ) c f).Brings → hears) : R n (receive c f n).2 := by
  cases hch : n.channel? c with
  | none =>
    rw [Courier.receive, hch]
    exact hL.refl n
  | some ch =>
    rw [Courier.receive, hch]
    simp only [(h.channel c ch hch).role]
    have hraise := fun fault => hL.toLaw.raiseWith h.allWired .full c fault
    cases f with
    | attach a => exact hL.attachRequested h hch a
    | authenticate credential => exact hL.credentialReceived h hch credential
    | session id => cases id <;> exact hraise _
    | identify identity => cases identity <;> exact hraise _
    | fetch =>
      exact hL.traffic (e := .fetchRequested) h hch trivial (fun _ heq => by cases heq)
        fun _ _ heq => by cases heq
    | requestAcknowledgment =>
      exact hL.traffic (e := .acknowledgmentRequested) h hch trivial (fun _ heq => by cases heq)
        fun _ _ heq => by cases heq
    | acknowledge count =>
      refine hL.traffic (e := .acknowledgmentReceived count) h hch trivial
        (fun _ heq => by cases heq) ?_
      intro count' l heq hl hcount
      cases heq
      exact hclears ⟨ch, l, hch, hl, hcount⟩
    | send packets => exact hL.receivePackets (hhears trivial) h c packets
    | detach | unknown code => exact hL.refl n

/-- The relation holds of every act on a sound server. -/
theorem perform (h : Sound n) (a : ServerAct σ) (hclears : a.Clears n → clears)
    (hhears : a.Brings → hears) : R n (a.perform n) := by
  cases a with
  | accept w now => exact hL.accept n w now
  | greet c => exact hL.greet h c
  | receive c f => exact hL.receive h c f hclears hhears
  | fail c f => exact hL.toLaw.raiseWith h.allWired .full c f
  | close c => exact hL.shut h c false
  | detach c => exact hL.shut h c true
  | finish c => exact hL.finish_act h c
  | take c => exact hL.empty_act c (fun _ => rfl) (fun _ => rfl) fun _ => rfl
  | dropWriter c => exact hL.empty_act c (fun _ => rfl) (fun _ => rfl) fun _ => rfl
  | route p => exact hL.toLaw.routePacket h.allWired p fun _ _ => trivial

omit hL in
/-- The relation holds between a state of a run and every later one. -/
theorem run (hL : ServerLaw True True R) {r : ServerRun σ} (hr : r.Right)
    (acts : List (ServerAct σ)) : R r.node (acts.foldl ServerRun.step r).node := by
  induction acts generalizing r with
  | nil => exact hL.refl r.node
  | cons a acts ih =>
    have hstep : R r.node (r.step a).node :=
      hL.perform hr.sound a (fun _ => trivial) fun _ => trivial
    exact hL.trans hstep (ih (hr.step a))

end ServerLaw
end Courier
