import Courier.Proofs.Client.Pipeline
import Courier.Proofs.Node.Becoming
import Courier.Proofs.Node.Scripts

/-! # The handshake on a client

What becomes of a client's channel by each event of its handshake, case by case: by the connection
header (`Channel.Applies`), by a session (`Channel.Presents`) and by an identity
(`Channel.Fetches`). With the events of traffic and the refusals this is every frame that a server
can send, so whatever arrives, the channel plays a script of its handshake
(`plays_handleFrame_client`).
-/
set_option autoImplicit false

namespace Courier

open Courier.Wire Courier.Wire.Frame Courier.Routing

variable {σ : Type} {n : Node σ} {c : ChannelId} {ch ch' : Channel σ} {l : Ledger}
  {w : ClientWiring} {rest : List (Reactor σ)} {a : Address} {id : SessionId}

/-! ## The connection header -/

/-- The channel with the connection header queued. -/
def Channel.headed (ch : Channel σ) : Channel σ :=
  { ch with queue := ch.queue.push (.bytes Header.bytes) }

inductive Channel.Applies (w : ClientWiring) (ch : Channel σ) : Channel σ → Prop where
  | mute {f : Fault} (hmute : ¬ ch.Live) : Applies w ch (ch.failed f)
  | untimely {e : InvalidStep} (hlive : ch.Live) (hconnect : ch.session.connect = .error e) :
      Applies w ch (ch.headed.failed (.step e))
  | applied {x y : Session} (hlive : ch.Live) (hconnect : ch.session.connect = .ok x)
      (hattach : x.attach w.address = .ok y) :
      Applies w ch (((ch.headed.setSession x).say [.attach w.address]).setSession y)

theorem Session.attach_of_connect {t x : Session} (h : t.connect = .ok x) (a : Address) :
    ∃ y, x.attach a = .ok y := by
  obtain ⟨-, rfl⟩ := connect_eq_ok_iff.1 h
  exact ⟨_, attach_eq_ok_iff.2 ⟨rfl, rfl⟩⟩

/-- A client that is connected asks to attach. -/
theorem yields_connected {y : Session} (hrest : Attends w rest) (hch : n.channel? c = some ch)
    (hw : ch.Wired l rest) (hlive : ch.Live)
    (hattach : ch.session.attach w.address = .ok y) :
    n.Yields c ((ch.say [.attach w.address]).setSession y) n.policy (dispatch c .connected n) := by
  obtain ⟨_, rfl, hyields⟩ := Node.Yields.dispatched later_rule.full hch hw (e := .connected)
    (Q := (· = (ch.say [.attach w.address]).setSession y)) (fun _ h => nomatch h) fun m hm => by
      obtain ⟨told, hquiet, hreaction⟩ := hrest.reaction .full c .connected l
      have htold := Node.Yields.quiet hm (hquiet m)
      have hwrite := apply_writeFrame htold.self hlive (regular_attach w.address)
      have hsaid := Node.Yields.modify htold.self (ch.say [.attach w.address])
      have hmoved : m.Yields c ((ch.say [.attach w.address]).setSession y) (told m).policy _ :=
        htold.trans (hsaid.trans (.modify hsaid.self _))
      rw [htold.policy] at hmoved
      refine ⟨_, rfl, .settled_ok hmoved ?_⟩
      rw [hreaction]
      show (do
        writeFrame c (.attach w.address)
        stepSession c (plainStep (·.attach w.address)) : Action σ Unit).apply (told m) = _
      rw [Action.apply_bind_ok hwrite]
      exact apply_plainStep_ok hsaid.self hattach
  exact hyields

theorem client_applies (hrest : Attends w rest) (hch : n.channel? c = some ch)
    (hw : ch.Wired l rest) (hrole : ch.session.role = .initiator) :
    ∃ ch', ch.Applies w ch' ∧ n.Yields c ch' n.policy (Connection.greet c n) := by
  have hopen : (openChannel c).apply n = (do
      writeHeader c
      stepSession c (plainStep (·.connect))
      modify (dispatch c .connected) : Action σ Unit).apply n := by
    rw [openChannel, Action.apply_get_bind, hch]
    simp only [hrole, if_true]
  show ∃ ch', ch.Applies w ch' ∧ n.Yields c ch' n.policy (settled .full c (openChannel c) n)
  by_cases hlive : ch.Live
  · have hheader : (writeHeader c).apply n = (.ok (), n.modify c fun _ => ch.headed) :=
      apply_enqueue_of_live hch hlive Header.bytes
    have hheaded := Node.Yields.modify hch ch.headed
    have hwired : ch.headed.Wired l rest := hw.of_reactors_eq rfl
    cases hconnect : ch.session.connect with
    | error e =>
      refine ⟨_, .untimely hlive hconnect, .settled_error hheaded ?_ hwired⟩
      rw [hopen, Action.apply_bind_ok hheader,
        Action.apply_bind_error (apply_plainStep_error hheaded.self hconnect)]
    | ok x =>
      obtain ⟨y, hattach⟩ := Session.attach_of_connect hconnect w.address
      have hmoved := Session.Step.connect hconnect
      have hconnected := hheaded.trans (.modify hheaded.self (ch.headed.setSession x))
      have hattached := hconnected.trans (yields_connected hrest hconnected.self
        (hwired.of_reactors_eq rfl) ⟨hmoved.open_after, hlive.writer⟩ hattach)
      refine ⟨_, .applied hlive hconnect hattach, .settled_ok hattached ?_⟩
      rw [hopen, Action.apply_bind_ok hheader,
        Action.apply_bind_ok (apply_plainStep_ok hheaded.self hconnect)]
      rfl
  · obtain ⟨f, hwrite⟩ := apply_enqueue_of_not_live (not_live_of_channel? hch hlive) Header.bytes
    refine ⟨_, .mute (f := f) hlive, .settled_error (.quiet hch (.refl n)) ?_ hw⟩
    rw [hopen]
    exact Action.apply_bind_error hwrite

/-! ## A session -/

inductive Channel.Presents (w : ClientWiring) (id : SessionId) (ch : Channel σ) :
    Channel σ → Prop where
  | untimely {e : InvalidStep} (hestablish : ch.session.establish id = .error e) :
      Presents w id ch ((ch.setLedger .empty).failed (.step e))
  | mute {x : Session} {d : List Demand} {f : Fault}
      (hestablish : ch.session.establish id = .ok (x, d)) (hmute : ¬ ch.Live) :
      Presents w id ch (((ch.setLedger .empty).setSession x).failed f)
  | presented {x y : Session} {d : List Demand} (hlive : ch.Live)
      (hestablish : ch.session.establish id = .ok (x, d)) (hauthenticate : x.authenticate = .ok y) :
      Presents w id ch
        ((((ch.setLedger .empty).setSession x).say [.authenticate w.credential]).setSession y)

theorem Session.authenticate_of_establish {t x : Session} {d : List Demand}
    (h : t.establish id = .ok (x, d)) : ∃ y, x.authenticate = .ok y := by
  obtain ⟨-, rfl, -⟩ := establish_eq_ok_iff.1 h
  exact ⟨_, authenticate_eq_ok_iff.2 ⟨rfl, rfl⟩⟩

/-- A step that asks for one frame, which is sent next. -/
theorem apply_demanded {step : Session → Except InvalidStep (Session × List Demand)}
    {x : Session} {d : Demand} (hch : n.channel? c = some ch)
    (h : step ch.session = .ok (x, [d])) (credential : Credential) :
    (do let demands ← stepSession c step
        demands.forM (performDemand c credential) : Action σ Unit).apply n =
      (performDemand c credential d).apply (n.modify c fun _ => ch.setSession x) := by
  rw [Action.apply_bind_ok (apply_stepSession_ok hch h)]
  exact congrArg (Action.apply · _) bind_pure_unit

theorem client_presents (hrest : Attends w rest) (hch : n.channel? c = some ch)
    (hw : ch.Wired l rest) (hrole : ch.session.role = .initiator) (id : SessionId) :
    ∃ ch', ch.Presents w id ch' ∧ n.Yields c ch' n.policy (dispatch c (.sessionCreated id) n) := by
  refine Node.Yields.dispatched later_rule.full hch hw (e := .sessionCreated id)
    (fun _ h => nomatch h) fun m₀ hm₀ => ?_
  -- The ledger is cleared first.
  have hclear : (settleLedger c 2 .empty []).apply m₀ =
      (.ok (), m₀.modify c fun _ => ch.setLedger .empty) := by
    rw [← Node.setReactor_eq hm₀]
    rfl
  obtain ⟨told, hquiet, hreaction⟩ := hrest.reaction .full c (.sessionCreated id) l
  have hset := Node.Yields.modify hm₀ (ch.setLedger .empty)
  have hcleared := hset.trans (.quiet hset.self (hquiet _))
  have hwired := hw.setLedger .empty
  have hledger : (ledgerReacts c 2 l (.sessionCreated id)).apply m₀ = _ := hclear
  rw [hreaction, settled, Action.apply_bind_ok hledger, Action.apply_modify_bind]
  suffices h : ∀ m : Node σ, m.channel? c = some (ch.setLedger .empty) →
      ∃ ch', ch.Presents w id ch' ∧ m.Yields c ch' m.policy (settled .full c (do
        let demands ← stepSession c (·.establish id)
        demands.forM (performDemand c w.credential)) m) by
    obtain ⟨ch', hpresents, hyields⟩ := h _ hcleared.self
    rw [hcleared.policy] at hyields
    exact ⟨ch', hpresents, hcleared.trans hyields⟩
  intro m hm
  cases hestablish : ch.session.establish id with
  | error e =>
    refine ⟨_, .untimely hestablish, .settled_error (.quiet hm (.refl m)) ?_ hwired⟩
    exact Action.apply_bind_error (apply_stepSession_error hm hestablish)
  | ok field =>
  obtain ⟨x, d⟩ := field
  have hmoved := Session.Step.establish id _ hestablish
  have hdemanded : ch.session.establish id = .ok (x, [.credential]) := by
    obtain ⟨-, -, rfl⟩ := Session.establish_eq_ok_iff.1 hestablish
    rw [hestablish, Session.demands, hrole]
  have hmoving := Node.Yields.modify hm ((ch.setLedger .empty).setSession x)
  by_cases hlive : ch.Live
  · obtain ⟨y, hauthenticate⟩ := Session.authenticate_of_establish hestablish
    have hlive' : ((ch.setLedger .empty).setSession x).Live := ⟨hmoved.open_after, hlive.writer⟩
    have hwrite := apply_writeFrame hmoving.self hlive' (regular_authenticate w.credential)
    have hsaid := Node.Yields.modify hmoving.self
      (((ch.setLedger .empty).setSession x).say [.authenticate w.credential])
    refine ⟨_, .presented hlive hestablish hauthenticate,
      .settled_ok (hmoving.trans (hsaid.trans (.modify hsaid.self _))) ?_⟩
    rw [apply_demanded hm hdemanded, performDemand, Action.apply_bind_ok hwrite]
    exact apply_plainStep_ok hsaid.self hauthenticate
  · have hmute : ¬ ((ch.setLedger .empty).setSession x).Live :=
      fun h => hlive ⟨hmoved.isOpen, h.writer⟩
    obtain ⟨f, hwrite⟩ := apply_writeFrame_of_not_live (not_live_of_channel? hmoving.self hmute)
      (regular_authenticate w.credential)
    refine ⟨_, .mute (f := f) hestablish hlive,
      .settled_error hmoving ?_ (hwired.of_reactors_eq rfl)⟩
    rw [apply_demanded hm hdemanded, performDemand, Action.apply_bind_error hwrite]

/-! ## An identity -/

inductive Channel.Fetches (a : Address) (ch : Channel σ) : Channel σ → Prop where
  | untimely {e : InvalidStep} (hidentify : ch.session.identify a = .error e) :
      Fetches a ch (ch.failed (.step e))
  | mute {x : Session} {d : List Demand} {f : Fault}
      (hidentify : ch.session.identify a = .ok (x, d)) (hmute : ¬ ch.Live) :
      Fetches a ch ((ch.setSession x).failed f)
  | fetched {x : Session} {d : List Demand} (hlive : ch.Live)
      (hidentify : ch.session.identify a = .ok (x, d)) :
      Fetches a ch ((ch.setSession x).say [.fetch])

theorem client_fetches (hrest : Attends w rest) (hch : n.channel? c = some ch)
    (hw : ch.Wired l rest) (hrole : ch.session.role = .initiator) (a : Address) :
    ∃ ch', ch.Fetches a ch' ∧ n.Yields c ch' n.policy (dispatch c (.identityReceived a) n) := by
  refine Node.Yields.dispatched later_rule.full hch hw (e := .identityReceived a)
    (fun _ h => nomatch h) fun m₀ hm₀ => ?_
  obtain ⟨told, hquiet, hreaction⟩ := hrest.reaction .full c (.identityReceived a) l
  have htold := Node.Yields.quiet hm₀ (hquiet m₀)
  have hledger : (ledgerReacts c 2 l (.identityReceived a)).apply m₀ = (.ok (), m₀) := rfl
  rw [hreaction, settled, Action.apply_bind_ok hledger, Action.apply_modify_bind, ← htold.policy]
  suffices h : ∀ m : Node σ, m.channel? c = some ch →
      ∃ ch', ch.Fetches a ch' ∧ m.Yields c ch' m.policy (settled .full c (do
        let demands ← stepSession c (·.identify a)
        demands.forM (performDemand c w.credential)) m) by
    obtain ⟨ch', hfetches, hyields⟩ := h _ htold.self
    exact ⟨ch', hfetches, htold.trans hyields⟩
  intro m hm
  cases hidentify : ch.session.identify a with
  | error e =>
    refine ⟨_, .untimely hidentify, .settled_error (.quiet hm (.refl m)) ?_ hw⟩
    exact Action.apply_bind_error (apply_stepSession_error hm hidentify)
  | ok field =>
  obtain ⟨x, d⟩ := field
  have hmoved := Session.Step.identify a _ hidentify
  have hdemanded : ch.session.identify a = .ok (x, [.fetch]) := by
    obtain ⟨-, -, rfl⟩ := Session.identify_eq_ok_iff.1 hidentify
    rw [hidentify, Session.demands, hrole]
  have hmoving := Node.Yields.modify hm (ch.setSession x)
  by_cases hlive : ch.Live
  · have hlive' : (ch.setSession x).Live := ⟨hmoved.open_after, hlive.writer⟩
    have hsaid := Node.Yields.modify hmoving.self ((ch.setSession x).say [.fetch])
    refine ⟨_, .fetched hlive hidentify, .settled_ok (hmoving.trans hsaid) ?_⟩
    rw [apply_demanded hm hdemanded, performDemand]
    exact apply_writeFrame hmoving.self hlive' regular_fetch
  · have hmute : ¬ (ch.setSession x).Live := fun h => hlive ⟨hmoved.isOpen, h.writer⟩
    obtain ⟨f, hwrite⟩ := apply_writeFrame_of_not_live (not_live_of_channel? hmoving.self hmute)
      regular_fetch
    refine ⟨_, .mute (f := f) hidentify hlive, .settled_error hmoving ?_ (hw.of_reactors_eq rfl)⟩
    rw [apply_demanded hm hdemanded, performDemand, hwrite]

/-! ## The script of a client -/

/-- The steps of a client's session; `hears` says which frames may have come. -/
inductive Joins (w : ClientWiring) (hears : Frame → Prop) : Stride where
  | speaks {t t' : Session} {fs : List Frame} (h : Speaks t fs t') : Joins w hears t fs t'
  | connect {t t' : Session} (h : t.connect = .ok t') : Joins w hears t [] t'
  | attach {t t' : Session} (h : t.attach w.address = .ok t') :
      Joins w hears t [.attach w.address] t'
  | establish {t t' : Session} {id : SessionId} {d : List Demand}
      (heard : hears (.session (some id))) (h : t.establish id = .ok (t', d)) :
      Joins w hears t [] t'
  | authenticate {t t' : Session} (h : t.authenticate = .ok t') :
      Joins w hears t [.authenticate w.credential] t'
  | identify {t t' : Session} {a : Address} {d : List Demand}
      (heard : hears (.identify (some a))) (h : t.identify a = .ok (t', d)) :
      Joins w hears t [] t'

section script

variable {hears : Frame → Prop}

theorem plays_headed {R : Stride} (ch : Channel σ) : ch.Plays R ch.headed := by
  refine ⟨[.bytes Header.bytes], Backlog.toList_push _ _, ?_⟩
  rw [framesOf_header]
  exact .rest _

theorem Channel.Applies.plays (h : ch.Applies w ch') : ch.Plays (Joins w hears) ch' := by
  cases h with
  | mute => exact .failed .speaks ch _
  | untimely => exact (plays_headed ch).trans (.failed .speaks _ _)
  | applied hlive hconnect hattach =>
    have hconnected : ch.headed.Plays (Joins w hears) _ := .setSession (.connect hconnect)
    exact ((plays_headed ch).trans hconnected).trans
      (.say_setSession (regular_singleton (regular_attach w.address)) (.attach hattach))

theorem Channel.Presents.plays (h : ch.Presents w id ch') (heard : hears (.session (some id))) :
    ch.Plays (Joins w hears) ch' := by
  have hcleared : ch.Plays (Joins w hears) (ch.setLedger .empty) := .of_session_eq rfl rfl
  refine hcleared.trans ?_
  have hestablished : ∀ {x : Session} {d : List Demand}, ch.session.establish id = .ok (x, d) →
      (ch.setLedger .empty).Plays (Joins w hears) ((ch.setLedger .empty).setSession x) :=
    fun h => .setSession (.establish heard h)
  cases h with
  | untimely => exact .failed .speaks _ _
  | mute hestablish => exact (hestablished hestablish).trans (.failed .speaks _ _)
  | presented hlive hestablish hauthenticate =>
    exact (hestablished hestablish).trans (.say_setSession
      (regular_singleton (regular_authenticate w.credential)) (.authenticate hauthenticate))

theorem Channel.Fetches.plays (h : ch.Fetches a ch') (heard : hears (.identify (some a))) :
    ch.Plays (Joins w hears) ch' := by
  have hidentified : ∀ {x : Session} {d : List Demand}, ch.session.identify a = .ok (x, d) →
      ch.Plays (Joins w hears) (ch.setSession x) := fun h => .setSession (.identify heard h)
  cases h with
  | untimely => exact .failed .speaks _ _
  | mute hidentify => exact (hidentified hidentify).trans (.failed .speaks _ _)
  | fetched hlive hidentify =>
    rename_i x d
    have hlive' : (ch.setSession x).Live :=
      ⟨(Session.Step.identify a _ hidentify).open_after, hlive.writer⟩
    exact (hidentified hidentify).trans (.say_one .speaks hlive' regular_fetch trivial)

variable {R : ChannelId → Stride} (hspeaks : ∀ c {t fs t'}, Speaks t fs t' → R c t fs t')
  (hjoins : ∀ {t fs t'}, Joins w hears t fs t' → R c t fs t')

include hjoins

theorem plays_greet_client (hrest : Attends w rest) (hch : n.channel? c = some ch)
    (hw : ch.Wired l rest) (hrole : ch.session.role = .initiator) :
    n.Plays R (Connection.greet c n) := by
  obtain ⟨ch', happlies, hyields⟩ := client_applies hrest hch hw hrole
  exact .of_becomes hch hyields.toBecomes (happlies.plays.mono hjoins)

include hspeaks

/-- Whatever frame arrives, a client's channel plays its handshake, and the others speak. -/
theorem plays_handleFrame_client (h : n.AllWired) (hrest : Attends w rest)
    (hch : n.channel? c = some ch) (hw : ch.Wired l rest)
    (hrole : ch.session.role = .initiator) {f : Frame} (heard : hears f) :
    n.Plays R (handleFrame c .initiator f n) := by
  cases f with
  | session id =>
    cases id with
    | none => exact plays_raise hspeaks h c _
    | some id =>
      obtain ⟨ch', hpresents, hyields⟩ := client_presents hrest hch hw hrole id
      exact .of_becomes hch hyields.toBecomes ((hpresents.plays heard).mono hjoins)
  | identify a =>
    cases a with
    | none => exact plays_raise hspeaks h c _
    | some a =>
      obtain ⟨ch', hfetches, hyields⟩ := client_fetches hrest hch hw hrole a
      exact .of_becomes hch hyields.toBecomes ((hfetches.plays heard).mono hjoins)
  | attach a => exact plays_raise hspeaks h c _
  | authenticate credential => exact plays_raise hspeaks h c _
  | fetch => exact plays_traffic hspeaks h hch (e := .fetchRequested) trivial
  | send packets => exact plays_receivePackets hspeaks h c packets
  | requestAcknowledgment =>
    exact plays_traffic hspeaks h hch (e := .acknowledgmentRequested) trivial
  | acknowledge count =>
    exact plays_traffic hspeaks h hch (e := .acknowledgmentReceived count) trivial
  | detach | unknown code => exact .refl n

end script
end Courier
