import Courier.Proofs.Node.Becoming
import Courier.Proofs.Node.Scripts
import Courier.Proofs.Server.Pipeline

/-! # The handshake on a server

What becomes of a server's channel by each event of its handshake, case by case: by the connection
header (`Channel.Opens`), by a request to attach (`Channel.Attaches`) and by a credential
(`Channel.Identifies`). With the events of traffic this is every frame that a client can send, so
whatever arrives, the channel plays a script of its handshake (`plays_handleFrame_server`).
-/
set_option autoImplicit false

namespace Courier

open Courier.Wire Courier.Wire.Frame Courier.Routing

variable {σ : Type} {n n' : Node σ} {c : ChannelId} {ch ch' : Channel σ} {l : Ledger}
  {rest : List (Reactor σ)} {w : ServerWiring σ} {a : Address} {credential : Credential} {s s' : σ}

/-! ## The connection header -/

inductive Channel.Opens (ch : Channel σ) : Channel σ → Prop where
  | connected {x : Session} (hstep : ch.session.connect = .ok x) : Opens ch (ch.setSession x)
  | untimely {e : InvalidStep} (hstep : ch.session.connect = .error e) :
      Opens ch (ch.failed (.step e))

theorem server_opens (hch : n.channel? c = some ch) (hw : ch.Wired l (serverRest w))
    (hrole : ch.session.role = .responder) :
    ∃ ch', ch.Opens ch' ∧ n.Yields c ch' n.policy (Connection.greet c n) := by
  have hnot : ¬ ch.session.role = .initiator := by
    rw [hrole]
    decide
  have hopen : (openChannel c).apply n = (do
      stepSession c (plainStep (·.connect))
      modify (dispatch c .connected) : Action σ Unit).apply n := by
    rw [openChannel, Action.apply_get_bind, hch]
    simp only [hnot, if_false]
  show ∃ ch', ch.Opens ch' ∧ n.Yields c ch' n.policy (settled .full c (openChannel c) n)
  cases hstep : ch.session.connect with
  | error e =>
    refine ⟨_, .untimely hstep, Node.Yields.settled_error (.quiet hch (.refl n)) ?_ hw⟩
    rw [hopen, Action.apply_bind_error (apply_plainStep_error hch hstep)]
  | ok x =>
    have hconnected := Node.Yields.modify hch (ch.setSession x)
    have hreaction : dispatch c .connected (n.modify c fun _ => ch.setSession x) =
        (n.modify c fun _ => ch.setSession x).note c .eventLog (.event .connected) := by
      rw [dispatch, dispatchWith_eq later_rule.full ⟨_, hconnected.self, hw.of_reactors_eq rfl⟩,
        reaction_connected]
      rfl
    have htold := Node.Yields.noted hconnected.self (e := .connected) fun _ h => by cases h
    refine ⟨_, .connected hstep, Node.Yields.settled_ok (hconnected.trans htold) ?_⟩
    rw [hopen, Action.apply_bind_ok (apply_plainStep_ok hch hstep), ← hreaction]
    rfl

/-! ## A request to attach -/

/-- A channel that is asked to attach to an address, with the policies before and after. -/
inductive Channel.Attaches (w : ServerWiring σ) (a : Address) (ch : Channel σ) (s : σ) :
    Channel σ → σ → Prop where
  | refused {f : Fault} {s₁ : σ} (hverify : w.verify a s = (.error f, s₁)) :
      Attaches w a ch s (ch.failed f) s₁
  | untimely {e : InvalidStep} {s₁ : σ} (hverify : w.verify a s = (.ok (), s₁))
      (hattach : ch.session.attach a = .error e) : Attaches w a ch s (ch.failed (.step e)) s₁
  | unserved {x : Session} {f : Fault} {s₁ s₂ : σ} (hverify : w.verify a s = (.ok (), s₁))
      (hattach : ch.session.attach a = .ok x) (hcreate : w.create a s₁ = (.error f, s₂)) :
      Attaches w a ch s ((ch.setSession x).failed f) s₂
  | unheard {x : Session} {id : SessionId} {f : Fault} {s₁ s₂ : σ}
      (hverify : w.verify a s = (.ok (), s₁)) (hattach : ch.session.attach a = .ok x)
      (hcreate : w.create a s₁ = (.ok id, s₂)) (hmute : ¬ ch.Live) :
      Attaches w a ch s ((ch.setSession x).failed f) s₂
  | established {x y : Session} {d : List Demand} {id : SessionId} {s₁ s₂ : σ}
      (hverify : w.verify a s = (.ok (), s₁)) (hattach : ch.session.attach a = .ok x)
      (hcreate : w.create a s₁ = (.ok id, s₂)) (hlive : ch.Live)
      (hestablish : x.establish id = .ok (y, d)) :
      Attaches w a ch s
        ((((ch.setSession x).say [.session (some id)]).setSession y).setLedger .empty) s₂

theorem Session.establish_of_attach {t x : Session} (h : t.attach a = .ok x) (id : SessionId) :
    ∃ y d, x.establish id = .ok (y, d) := by
  obtain ⟨-, rfl⟩ := attach_eq_ok_iff.1 h
  exact ⟨_, _, establish_eq_ok_iff.2 ⟨rfl, rfl, rfl⟩⟩

theorem Channel.live_setSession {x : Session} (hopen : x.isClosed = false) (hlive : ch.Live) :
    (ch.setSession x).Live := ⟨hopen, hlive.writer⟩

/-- The ledger starts anew with the session. -/
theorem yields_sessionCreated (hch : n.channel? c = some ch) (hw : ch.Wired l (serverRest w))
    (id : SessionId) : n.Yields c (ch.setLedger .empty) n.policy
      (dispatchWith .quiet c (.sessionCreated id) n) := by
  have htold := Node.Yields.noted hch (e := .sessionCreated id) fun _ h => nomatch h
  have hset := Node.Yields.modify htold.self (ch.setLedger .empty)
  rw [htold.policy, ← Node.setReactor_eq htold.self] at hset
  rw [dispatchWith_eq later_rule.quiet ⟨ch, hch, hw⟩, reaction_sessionCreated]
  exact htold.trans (Node.Yields.settled_ok (a := settleLedger c 2 .empty []) hset rfl)

/-- The peer is told its session, and then the session is in place. -/
theorem apply_welcome {x : Session} {d : List Demand} (hch : n.channel? c = some ch)
    (hw : ch.Wired l (serverRest w)) (hlive : ch.Live) {id : SessionId}
    (hestablish : ch.session.establish id = .ok (x, d)) : ∃ n',
      (do writeFrame c (.session (some id))
          let _ ← stepSession c (·.establish id)
          modify (dispatchWith .quiet c (.sessionCreated id)) : Action σ Unit).apply n =
        (.ok (), n') ∧
      n.Yields c (((ch.say [.session (some id)]).setSession x).setLedger .empty) n.policy n' := by
  have hwrite := apply_writeFrame hch hlive (regular_session (some id))
  have hsaid := Node.Yields.modify hch (ch.say [.session (some id)])
  have hmove : (stepSession c (·.establish id)).apply _ = _ :=
    apply_stepSession_ok hsaid.self hestablish
  have hmoved := hsaid.trans (.modify hsaid.self ((ch.say [.session (some id)]).setSession x))
  refine ⟨_, ?_, hmoved.trans (yields_sessionCreated hmoved.self (hw.of_reactors_eq rfl) id)⟩
  rw [Action.apply_bind_ok hwrite, Action.apply_bind_ok hmove]
  rfl

theorem server_attaches (hch : n.channel? c = some ch) (hw : ch.Wired l (serverRest w))
    (a : Address) : ∃ ch' s', ch.Attaches w a n.policy ch' s' ∧
      n.Yields c ch' s' (dispatch c (.attachRequested a) n) := by
  refine Node.Yields.consulted later_rule.full hch hw (e := .attachRequested a)
    (fun _ h => nomatch h) fun m hm hsame => ?_
  rw [reaction_attachRequested, ← hsame]
  cases hverify : w.verify a m.policy with
  | mk answer s₁ =>
  have hasked := apply_consult_eq hverify
  have hverified := Node.Yields.setPolicy hm s₁
  cases answer with
  | error f =>
    exact ⟨_, _, .refused hverify,
      .settled_error hverified (Action.apply_bind_error hasked) hw⟩
  | ok u =>
  cases hattach : ch.session.attach a with
  | error e =>
    refine ⟨_, _, .untimely hverify hattach, .settled_error hverified ?_ hw⟩
    rw [Action.apply_bind_ok hasked, createSession,
      Action.apply_bind_error (apply_plainStep_error hverified.self hattach)]
  | ok x =>
  have hx : (ch.setSession x).Wired l (serverRest w) := hw.of_reactors_eq rfl
  have hattached := hverified.trans (.modify hverified.self (ch.setSession x))
  have hstep : (stepSession c (plainStep (·.attach a))).apply { m with policy := s₁ } = (.ok (),
      { m with policy := s₁ }.modify c fun _ => ch.setSession x) :=
    apply_plainStep_ok hverified.self hattach
  generalize ({ m with policy := s₁ }.modify c fun _ => ch.setSession x) = m₁ at hattached hstep
  have hpolicy : m₁.policy = s₁ := hattached.policy
  cases hcreate : w.create a s₁ with
  | mk answer s₂ =>
  have hchosen : (consult (w.create a)).apply m₁ = (answer, { m₁ with policy := s₂ }) :=
    apply_consult_eq (hpolicy ▸ hcreate)
  have hcreated := hattached.trans (.setPolicy hattached.self s₂)
  have hmoved := Session.Step.attach a hattach
  cases answer with
  | error f =>
    refine ⟨_, _, .unserved hverify hattach hcreate, .settled_error hcreated ?_ hx⟩
    rw [Action.apply_bind_ok hasked, createSession, Action.apply_bind_ok hstep,
      Action.apply_bind_error hchosen]
  | ok id =>
  by_cases hlive : ch.Live
  · obtain ⟨y, d, hestablish⟩ := Session.establish_of_attach hattach id
    obtain ⟨m₂, hwelcome, hwelcomed⟩ := apply_welcome hcreated.self hx
      (Channel.live_setSession hmoved.open_after hlive) hestablish
    refine ⟨_, _, .established hverify hattach hcreate hlive hestablish,
      .settled_ok (hcreated.trans hwelcomed) ?_⟩
    rw [Action.apply_bind_ok hasked, createSession, Action.apply_bind_ok hstep,
      Action.apply_bind_ok hchosen]
    exact hwelcome
  · have hmute : ¬ (ch.setSession x).Live := fun h => hlive ⟨hmoved.isOpen, h.writer⟩
    obtain ⟨f, hwrite⟩ := apply_writeFrame_of_not_live
      (not_live_of_channel? hcreated.self hmute) (regular_session (some id))
    refine ⟨_, _, .unheard (f := f) hverify hattach hcreate hlive, .settled_error hcreated ?_ hx⟩
    rw [Action.apply_bind_ok hasked, createSession, Action.apply_bind_ok hstep,
      Action.apply_bind_ok hchosen, Action.apply_bind_error hwrite]

/-! ## A credential -/

theorem realmOf_eq_ok_iff {t : Session} {realm : Address} : realmOf t = .ok realm ↔
    t.phase = .established ∧ t.attachedAddress = some realm := by
  unfold realmOf
  by_cases h : t.phase = .established
  · rw [Session.require_eq_ok_iff.2 h]
    cases t.attachedAddress <;> simp [h]
  · rw [Session.require, if_neg h]
    simp [h]

/-- A channel that is shown a credential, with the policies before and after; in the end it may be
attached to the identity that it is given. -/
inductive Channel.Identifies (w : ServerWiring σ) (credential : Credential) (c : ChannelId)
    (ch : Channel σ) (s : σ) (r : Registry) : Channel σ → σ → Registry → Prop where
  | untimely {f : Fault} (hrealm : realmOf ch.session = .error f) :
      Identifies w credential c ch s r (ch.failed f) s r
  | rejected {realm : Address} {f : Fault} {s₁ : σ} (hrealm : realmOf ch.session = .ok realm)
      (hanswer : w.authenticate realm credential s = (.error f, s₁)) :
      Identifies w credential c ch s r (ch.failed f) s₁ r
  | unheard {realm a : Address} {x : Session} {f : Fault} {s₁ : σ}
      (hrealm : realmOf ch.session = .ok realm)
      (hanswer : w.authenticate realm credential s = (.ok a, s₁))
      (hauthenticate : ch.session.authenticate = .ok x) (hmute : ¬ ch.Live) :
      Identifies w credential c ch s r ((ch.setSession x).failed f) s₁ r
  | identified {realm a : Address} {x y : Session} {d : List Demand} {s₁ : σ}
      (hrealm : realmOf ch.session = .ok realm)
      (hanswer : w.authenticate realm credential s = (.ok a, s₁))
      (hauthenticate : ch.session.authenticate = .ok x) (hlive : ch.Live)
      (hidentify : x.identify a = .ok (y, d)) :
      Identifies w credential c ch s r
        (((ch.setSession x).say [.identify (some a)]).setSession y) s₁ (r.attach a c)

theorem Session.identify_of_authenticate {t x : Session} (h : t.authenticate = .ok x)
    (a : Address) : ∃ y d, x.identify a = .ok (y, d) := by
  obtain ⟨-, rfl⟩ := authenticate_eq_ok_iff.1 h
  exact ⟨_, _, identify_eq_ok_iff.2 ⟨rfl, rfl, rfl⟩⟩

theorem apply_readRealm (hch : n.channel? c = some ch) :
    (onChannel c (fun ch => do
      let realm ← realmOf ch.session
      return (realm, ch)) : Action σ Address).apply n = (realmOf ch.session, n) := by
  rw [apply_onChannel, hch]
  simp only []
  cases realmOf ch.session with
  | error f => rfl
  | ok realm =>
    show (Except.ok realm, n.modify c fun _ => ch) = (Except.ok realm, n)
    rw [Node.modify_const_self n c hch]

/-- The peer is told its identity, and then the identity is in place. -/
theorem apply_naming {x : Session} {d : List Demand} (hch : n.channel? c = some ch)
    (hlive : ch.Live) (hidentify : ch.session.identify a = .ok (x, d)) : ∃ n',
      (do writeFrame c (.identify (some a))
          let _ ← stepSession c (·.identify a) : Action σ Unit).apply n = (.ok (), n') ∧
      n.Yields c ((ch.say [.identify (some a)]).setSession x) n.policy n' := by
  have hwrite := apply_writeFrame hch hlive (regular_identify (some a))
  have hsaid := Node.Yields.modify hch (ch.say [.identify (some a)])
  have hname : (stepSession c (·.identify a)).apply _ = _ :=
    apply_stepSession_ok hsaid.self hidentify
  refine ⟨_, ?_, hsaid.trans (.modify hsaid.self _)⟩
  rw [Action.apply_bind_ok hwrite, Action.apply_bind_ok hname]
  rfl

/-- A credential is accepted, or the channel is to fail; then it is attached to nothing. -/
theorem apply_acceptCredential (hch : n.channel? c = some ch) (hw : ch.Wired l (serverRest w))
    (credential : Credential) :
    (∃ f ch₁ s₁ m, (acceptCredential c w.authenticate credential).apply n = (.error f, m) ∧
      n.Yields c ch₁ s₁ m ∧ ch₁.Wired l (serverRest w) ∧
      ch.Identifies w credential c n.policy n.registry (ch₁.failed f) s₁ n.registry) ∨
    ∃ a ch₁ s₁ m, (acceptCredential c w.authenticate credential).apply n = (.ok (), m) ∧
      n.Yields c ch₁ s₁ m ∧ ch₁.session.identity = some a ∧
      ch.Identifies w credential c n.policy n.registry ch₁ s₁ (n.registry.attach a c) := by
  have hread := apply_readRealm hch
  cases hrealm : realmOf ch.session with
  | error f =>
    rw [hrealm] at hread
    exact .inl ⟨f, ch, _, n, Action.apply_bind_error hread, .quiet hch (.refl n), hw,
      .untimely hrealm⟩
  | ok realm =>
  rw [hrealm] at hread
  cases hanswer : w.authenticate realm credential n.policy with
  | mk answer s₁ =>
  have hasked := apply_consult_eq hanswer
  have hanswered := Node.Yields.setPolicy hch s₁
  cases answer with
  | error f =>
    refine .inl ⟨f, ch, s₁, _, ?_, hanswered, hw, .rejected hrealm hanswer⟩
    rw [acceptCredential, Action.apply_bind_ok hread, Action.apply_bind_error hasked]
  | ok a =>
  have hauthenticate : ch.session.authenticate = .ok { ch.session with phase := .authenticated } :=
    Session.authenticate_eq_ok_iff.2 ⟨(realmOf_eq_ok_iff.1 hrealm).1, rfl⟩
  have hstep : (stepSession c (plainStep (·.authenticate))).apply { n with policy := s₁ } = _ :=
    apply_plainStep_ok hanswered.self hauthenticate
  have hmoved := Session.Step.authenticate hauthenticate
  generalize ({ ch.session with phase := .authenticated } : Session) = x
    at hauthenticate hstep hmoved
  have hauthenticated := hanswered.trans (.modify hanswered.self (ch.setSession x))
  by_cases hlive : ch.Live
  · obtain ⟨y, d, hidentify⟩ := Session.identify_of_authenticate hauthenticate a
    obtain ⟨m, hnaming, hnamed⟩ := apply_naming hauthenticated.self
      (Channel.live_setSession hmoved.open_after hlive) hidentify
    refine .inr ⟨a, _, s₁, m, ?_, hauthenticated.trans hnamed,
      congrArg Session.identity (Session.identify_eq_ok_iff.1 hidentify).2.1,
      .identified hrealm hanswer hauthenticate hlive hidentify⟩
    rw [acceptCredential, Action.apply_bind_ok hread, Action.apply_bind_ok hasked,
      Action.apply_bind_ok hstep]
    exact hnaming
  · have hmute : ¬ (ch.setSession x).Live := fun h => hlive ⟨hmoved.isOpen, h.writer⟩
    obtain ⟨f, hwrite⟩ := apply_writeFrame_of_not_live
      (not_live_of_channel? hauthenticated.self hmute) (regular_identify (some a))
    refine .inl ⟨f, _, s₁, _, ?_, hauthenticated, hw.of_reactors_eq rfl,
      .unheard (f := f) hrealm hanswer hauthenticate hlive⟩
    rw [acceptCredential, Action.apply_bind_ok hread, Action.apply_bind_ok hasked,
      Action.apply_bind_ok hstep, Action.apply_bind_error hwrite]

theorem server_identifies (hch : n.channel? c = some ch) (hw : ch.Wired l (serverRest w))
    (credential : Credential) : ∃ ch' s' r m,
      ch.Identifies w credential c n.policy n.registry ch' s' r ∧ n.Yields c ch' s' m ∧
        dispatch c (.credentialReceived credential) n = { m with registry := r } := by
  have hnoted := Node.Yields.noted hch (e := .credentialReceived credential) fun _ h => nomatch h
  rw [dispatch, dispatchWith_eq later_rule.full ⟨ch, hch, hw⟩, reaction_credentialReceived]
  generalize n.note c .eventLog (.event (.credentialReceived credential)) = m at hnoted ⊢
  rw [← hnoted.policy, ← hnoted.registry]
  obtain ⟨f, ch₁, s₁, m₁, hrun, hyields, hw₁, hidentifies⟩ |
    ⟨a, ch₁, s₁, m₁, hrun, hyields, hidentity, hidentifies⟩ :=
    apply_acceptCredential hnoted.self hw credential
  · have hfailed := hyields.settled_error (k := .full)
      (Action.apply_bind_error (f := fun _ => modify (attachRoute c)) hrun) hw₁
    refine ⟨_, _, _, _, hidentifies, hnoted.trans hfailed, ?_⟩
    rw [← hfailed.registry]
  · refine ⟨ch₁, s₁, _, m₁, hidentifies, hnoted.trans hyields, ?_⟩
    rw [settled, Action.apply_bind_ok hrun, ← hyields.registry]
    exact attachRoute_of_identity ((identity?_eq hyields.self).trans hidentity)

/-! ## The script of a server -/

/-- The steps of a server's session: `hears` says which frames may have come, and `names` who has
shown which credential in which realm. -/
inductive Hosts (hears : Frame → Prop) (names : Address → Credential → Address → Prop) :
    Stride where
  | speaks {t t' : Session} {fs : List Frame} (h : Speaks t fs t') : Hosts hears names t fs t'
  | connect {t t' : Session} (h : t.connect = .ok t') : Hosts hears names t [] t'
  | attach {t t' : Session} {a : Address} (heard : hears (.attach a)) (h : t.attach a = .ok t') :
      Hosts hears names t [] t'
  | establish {t t' : Session} {id : SessionId} {d : List Demand}
      (h : t.establish id = .ok (t', d)) : Hosts hears names t [.session (some id)] t'
  | authenticate {t t' : Session} (h : t.authenticate = .ok t') : Hosts hears names t [] t'
  | identify {t t' : Session} {realm a : Address} {credential : Credential} {d : List Demand}
      (heard : hears (.authenticate credential)) (hrealm : t.attachedAddress = some realm)
      (hnames : names realm credential a) (h : t.identify a = .ok (t', d)) :
      Hosts hears names t [.identify (some a)] t'

theorem Hosts.named {hears : Frame → Prop} {names : Address → Credential → Address → Prop}
    {t t' : Session} {fs : List Frame} (h : Hosts hears names t fs t')
    (hnamed : t.identity ≠ none) : t'.identity ≠ none := by
  cases h with
  | speaks h => cases h <;> exact hnamed
  | connect h => rwa [(Session.connect_eq_ok_iff.1 h).2]
  | attach heard h => rwa [(Session.attach_eq_ok_iff.1 h).2]
  | establish h => rwa [(Session.establish_eq_ok_iff.1 h).2.1]
  | authenticate h => rwa [(Session.authenticate_eq_ok_iff.1 h).2]
  | identify heard hrealm hnames h =>
    rw [(Session.identify_eq_ok_iff.1 h).2.1]
    exact fun hnone => nomatch hnone

section script

variable {hears : Frame → Prop} {names : Address → Credential → Address → Prop}

theorem Channel.Opens.plays (h : ch.Opens ch') : ch.Plays (Hosts hears names) ch' := by
  cases h with
  | connected hstep => exact .setSession (.connect hstep)
  | untimely => exact .failed .speaks ch _

theorem Channel.Attaches.plays (h : ch.Attaches w a s ch' s') (heard : hears (.attach a)) :
    ch.Plays (Hosts hears names) ch' := by
  have hattached : ∀ {x : Session}, ch.session.attach a = .ok x →
      ch.Plays (Hosts hears names) (ch.setSession x) := fun h => .setSession (.attach heard h)
  cases h with
  | refused => exact .failed .speaks ch _
  | untimely => exact .failed .speaks ch _
  | unserved hverify hattach hcreate => exact (hattached hattach).trans (.failed .speaks _ _)
  | unheard hverify hattach hcreate hmute => exact (hattached hattach).trans (.failed .speaks _ _)
  | established hverify hattach hcreate hlive hestablish =>
    rename_i x y d id s₁
    have hwelcomed : (ch.setSession x).Plays (Hosts hears names)
        (((ch.setSession x).say [.session (some id)]).setSession y) :=
      .say_setSession (regular_singleton (regular_session _)) (.establish hestablish)
    exact ((hattached hattach).trans hwelcomed).trans (.of_session_eq rfl rfl)

theorem Channel.Identifies.plays {r r' : Registry}
    (h : ch.Identifies w credential c s r ch' s' r') (heard : hears (.authenticate credential))
    (hnames : ∀ realm a, (w.authenticate realm credential s).1 = .ok a →
      names realm credential a) : ch.Plays (Hosts hears names) ch' := by
  have hauthenticated : ∀ {x : Session}, ch.session.authenticate = .ok x →
      ch.Plays (Hosts hears names) (ch.setSession x) := fun h => .setSession (.authenticate h)
  cases h with
  | untimely => exact .failed .speaks ch _
  | rejected => exact .failed .speaks ch _
  | unheard hrealm hanswer hauthenticate hmute =>
    exact (hauthenticated hauthenticate).trans (.failed .speaks _ _)
  | identified hrealm hanswer hauthenticate hlive hidentify =>
    rename_i realm a x y d
    have hattached : x.attachedAddress = some realm := by
      rw [(Session.authenticate_eq_ok_iff.1 hauthenticate).2]
      exact (realmOf_eq_ok_iff.1 hrealm).2
    have hnamed : names realm credential a := hnames realm a (by rw [hanswer])
    have hsaid : (ch.setSession x).Plays (Hosts hears names)
        (((ch.setSession x).say [.identify (some a)]).setSession y) :=
      .say_setSession (regular_singleton (regular_identify _))
        (.identify heard hattached hnamed hidentify)
    exact (hauthenticated hauthenticate).trans hsaid

variable {R : ChannelId → Stride} (hspeaks : ∀ c {t fs t'}, Speaks t fs t' → R c t fs t')
  (hhosts : ∀ {t fs t'}, Hosts hears names t fs t' → R c t fs t')

include hhosts

theorem plays_greet_server (hch : n.channel? c = some ch) (hw : ch.Wired l (serverRest w))
    (hrole : ch.session.role = .responder) : n.Plays R (Connection.greet c n) := by
  obtain ⟨ch', hopens, hyields⟩ := server_opens hch hw hrole
  exact .of_becomes hch hyields.toBecomes (hopens.plays.mono hhosts)

include hspeaks

/-- Whatever frame arrives, a server's channel plays its handshake, and the others speak. -/
theorem plays_handleFrame_server (h : n.AllWired) (hch : n.channel? c = some ch)
    (hw : ch.Wired l (serverRest w)) {f : Frame} (heard : hears f)
    (hnames : ∀ realm credential a, (w.authenticate realm credential n.policy).1 = .ok a →
      names realm credential a) : n.Plays R (handleFrame c .responder f n) := by
  cases f with
  | attach a =>
    obtain ⟨ch', s', hattaches, hyields⟩ := server_attaches hch hw a
    exact .of_becomes hch hyields.toBecomes ((hattaches.plays heard).mono hhosts)
  | authenticate credential =>
    obtain ⟨ch', s', r, m, hidentifies, hyields, heq⟩ := server_identifies hch hw credential
    have hplays : ch.Plays (R c) ch' :=
      (hidentifies.plays heard fun realm a => hnames realm credential a).mono hhosts
    have hm : n.Plays R m := .of_becomes hch hyields.toBecomes hplays
    rw [handleFrame, heq]
    exact hm.trans (.of_channels rfl)
  | session id => cases id <;> exact plays_raise hspeaks h c _
  | identify identity => cases identity <;> exact plays_raise hspeaks h c _
  | fetch => exact plays_traffic hspeaks h hch (e := .fetchRequested) trivial
  | send packets => exact plays_receivePackets hspeaks h c packets
  | requestAcknowledgment =>
    exact plays_traffic hspeaks h hch (e := .acknowledgmentRequested) trivial
  | acknowledge count =>
    exact plays_traffic hspeaks h hch (e := .acknowledgmentReceived count) trivial
  | detach | unknown code => exact .refl n

end script
end Courier
