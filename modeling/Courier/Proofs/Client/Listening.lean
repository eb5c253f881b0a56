import Courier.Proofs.Client.Retention

/-! # What a client's listener hears

Who listens on a client's connection stands in front of the handshake, and so it is told of an
IDENTIFY before the session is asked. It hears every one that arrives
(`connections_perform`), but at most the first completes the handshake; any other leaves the channel
closed (`listener_hears_every_identity`).
-/
set_option autoImplicit false

namespace Courier

open Courier.Wire Courier.Wire.Frame Courier.Routing

variable {σ : Type} {n n' : Node σ} {c : ChannelId} {ch ch' : Channel σ} {l : Ledger}
  {w : ClientWiring} {rest : List (Reactor σ)} {k : Reentry σ} {e : Event}

/-! ## What is told of identities -/

/-- The identity that a notice tells a channel's listener, if it tells one. -/
def Notice.connection? (c : ChannelId) (x : Notice) : Option Address :=
  match x.reporter, x.signal with
  | .connectionObserver, .event (.identityReceived a) => if x.channel = c then some a else none
  | _, _ => none

/-- The identities that a channel's listener was told, in order. -/
def Node.connections (n : Node σ) (c : ChannelId) : List Address :=
  n.notices.toList.filterMap (Notice.connection? c)

def Event.identity? : Event → Option Address
  | identityReceived a => some a
  | _ => none

/-- What a reactor tells a listener about an event. -/
def Reactor.tells (e : Event) : Reactor σ → List Address
  | .connectionObserver => e.identity?.toList
  | _ => []

theorem connections_note (hch : n.channel? c = some ch) (r : Reporter) (s : Signal) :
    (n.note c r s).connections c =
      n.connections c ++ (Notice.connection? c ⟨r, c, ch.session.role, s⟩).toList := by
  rw [Node.note, hch]
  simp only [Node.connections, Backlog.toList_push, List.filterMap_append, List.filterMap_cons,
    List.filterMap_nil]
  congr 1

/-- Other reporters do not tell the listener of identities. -/
theorem connections_note_of_ne {r : Reporter} (h : r ≠ .connectionObserver) (c' : ChannelId)
    (s : Signal) : (n.note c' r s).connections c = n.connections c := by
  unfold Node.note
  cases n.channel? c' with
  | none => rfl
  | some ch =>
    have hnone : Notice.connection? c ⟨r, c', ch.session.role, s⟩ = none := by
      unfold Notice.connection?
      split
      · rename_i hr _
        exact absurd hr h
      · rfl
    simp only [Node.connections, Backlog.toList_push, List.filterMap_append, List.filterMap_cons,
      List.filterMap_nil, hnone, List.append_nil]

theorem connections_works (c : ChannelId) :
    Works fun n n' : Node σ => n'.connections c = n.connections c where
  refl _ := rfl
  trans h h' := h'.trans h
  registry _ _ := rfl
  policy _ _ := rfl
  enqueue _ _ := rfl
  session _ _ := rfl
  remember _ _ _ := rfl
  shut _ _ _ := rfl
  reactor _ _ := rfl

theorem tells_eq_nil (he : e.identity? = none) (rest : List (Reactor σ)) :
    rest.flatMap (Reactor.tells e) = [] := by
  rw [List.flatMap_eq_nil_iff]
  intro r _
  cases r with
  | connectionObserver =>
    rw [Reactor.tells, he]
    rfl
  | _ => rfl

/-! ## Events -/

/-- Each one who listens to the connection is told, before the handshake goes on. -/
theorem Attends.connections_reactAll (h : Attends w rest) (hch : n.channel? c = some ch) (i : Nat) :
    ((Courier.reactAll k c e i rest).apply n).2.connections c =
      n.connections c ++ rest.flatMap (Reactor.tells e) := by
  -- Induction on who listens in front of the handshake, which itself tells nothing.
  induction h generalizing n i with
  | handshake =>
    have hlast : Courier.reactAll k c e i [.clientHandshake w.address w.credential] =
        handshakeReacts c w.address w.credential e := bind_pure_unit
    rw [hlast, (connections_works c).handshakeReacts c w.address w.credential e n]
    exact (List.append_nil _).symm
  | packets h ih =>
    have hreport : ∀ (s : Signal), ((Courier.reactAll k c e (i + 1) _).apply
        (n.note c .packetObserver s)).2.connections c = _ := fun s =>
      (ih ((n.channel?_note c c _ s).trans hch) (i + 1)).trans
        (congrArg (· ++ _) (connections_note_of_ne (r := .packetObserver) nofun c s))
    cases e with
    | packetReceived p => exact hreport _
    | packetSent p => exact hreport _
    | _ => exact ih hch (i + 1)
  | connection h ih =>
    cases e with
    | identityReceived a =>
      have hnoted := connections_note hch .connectionObserver (.event (.identityReceived a))
      have htold : Notice.connection? c ⟨.connectionObserver, c, ch.session.role,
          .event (.identityReceived a)⟩ = some a := if_pos rfl
      rw [htold] at hnoted
      refine (ih ((n.channel?_note c c _ _).trans hch) (i + 1)).trans ?_
      rw [hnoted, List.append_assoc]
      rfl
    | disconnected =>
      have hnoted := connections_note hch .connectionObserver (.event .disconnected)
      refine (ih ((n.channel?_note c c _ _).trans hch) (i + 1)).trans ?_
      rw [hnoted, tells_eq_nil (e := .disconnected) rfl, tells_eq_nil (e := .disconnected) rfl]
      exact List.append_nil _
    | _ => exact ih hch (i + 1)

theorem connections_raiseWith (h : n.WiredAt c l rest) (f : Fault) :
    (raiseWith k c f n).connections c = n.connections c := by
  rw [raiseWith_eq h]
  exact ((connections_works c).refuse c f _).trans
    (connections_note_of_ne (r := .eventLog) nofun c _)

theorem connections_settled {a : Action σ Unit} (h : ((a.apply n).2).WiredAt c l rest) :
    (settled k c a n).connections c = (a.apply n).2.connections c := by
  unfold settled
  cases hrun : a.apply n with
  | mk result m =>
    rw [hrun] at h
    cases result with
    | ok u => rfl
    | error f => exact connections_raiseWith h f

theorem connections_reaction (hrest : Attends w rest) (h : n.WiredAt c l rest) (e : Event) :
    ((reaction k c e l rest).apply n).2.connections c =
      n.connections c ++ rest.flatMap (Reactor.tells e) := by
  have hledger := (connections_works c).ledgerReacts (h.reactor? 2) e
  have hlater := later_rule.ledgerReacts (h.reactor? 2) e
  rw [reaction, Action.apply_bind]
  cases hrun : (ledgerReacts c 2 l e).apply n with
  | mk result m =>
    rw [hrun] at hledger hlater
    cases result with
    | error f =>
      -- The ledger does not heed identities.
      have he : e.identity? = none := by
        cases e with
        | identityReceived a => cases hrun
        | _ => rfl
      rw [tells_eq_nil he, List.append_nil]
      exact hledger
    | ok u =>
      obtain ⟨l', ch, hch, -⟩ := h.later hlater
      exact (hrest.connections_reactAll hch 3).trans (congrArg (· ++ _) hledger)

/-- An identity is told once to each one who listens, and nothing else is. -/
theorem connections_dispatchWith (hk : k.Moves Node.Later) (hrest : Attends w rest)
    (h : n.WiredAt c l rest) (e : Event) : (dispatchWith k c e n).connections c =
      n.connections c ++ rest.flatMap (Reactor.tells e) := by
  have hnoted := h.note c .eventLog (.event e)
  obtain ⟨l', hafter⟩ := hnoted.later (later_reaction hk hnoted e)
  rw [dispatchWith_eq hk h, connections_settled hafter, connections_reaction hrest hnoted,
    connections_note_of_ne (r := .eventLog) nofun]

theorem connections_dispatchWith_of_ne (hk : k.Moves Node.Later) (hrest : Attends w rest)
    (h : n.WiredAt c l rest) (he : e.identity? = none) :
    (dispatchWith k c e n).connections c = n.connections c := by
  rw [connections_dispatchWith hk hrest h, tells_eq_nil he, List.append_nil]

theorem connections_foldl {β : Type} {f : Node σ → β → Node σ}
    (hlater : ∀ (m : Node σ) x, m.Later (f m x))
    (hf : ∀ (m : Node σ) x l, m.WiredAt c l rest → (f m x).connections c = m.connections c)
    (xs : List β) (h : n.WiredAt c l rest) : (xs.foldl f n).connections c = n.connections c := by
  induction xs generalizing n l with
  | nil => rfl
  | cons x xs ih =>
    obtain ⟨l', h'⟩ := h.later (hlater n x)
    exact (ih h').trans (hf n x l h)

/-! ## Acts -/

/-- The identity that an act brings, if it is an IDENTIFY. -/
def ClientAct.identity? : ClientAct → Option Address
  | receive (.identify (some a)) => some a
  | _ => none

/-- What those who listen are told by an act. -/
def ClientAct.tells (rest : List (Reactor σ)) (a : ClientAct) : List Address :=
  match a.identity? with
  | some a => rest.flatMap (Reactor.tells (.identityReceived a))
  | none => []

theorem connections_silent (h : n'.connections c = n.connections c) :
    n'.connections c = n.connections c ++ [] :=
  h.trans (List.append_nil _).symm

section acts

variable (hrest : Attends w rest) (h : n.WiredAt c l rest)

include hrest h

theorem connections_sendPackets (ps : List Packet) :
    ((sendPackets c ps).apply n).2.connections c = n.connections c := by
  have hwrite := (connections_works c).writePackets c ps n
  have hlater := later_rule.writePackets c ps n
  rw [sendPackets, sendPacketsWith, Action.apply_bind]
  cases hrun : (writePackets c ps).apply n with
  | mk result m =>
    rw [hrun] at hwrite hlater
    cases result with
    | error f => exact hwrite
    | ok u =>
      obtain ⟨l', h'⟩ := h.later hlater
      refine (connections_foldl (fun m p => ?_) (fun m p l hm => ?_) ps h').trans hwrite
      · exact later_rule.full.dispatch c (.packetSent p) m (by rintro ⟨⟩)
      · exact connections_dispatchWith_of_ne later_rule.quiet hrest hm rfl

theorem connections_receivePackets (ps : List Packet) :
    (receivePackets c ps n).connections c = n.connections c := by
  refine connections_foldl (fun m p => ?_) (fun m p l hm => ?_) ps h
  · split
    · exact .refl m
    · exact later_rule.dispatch c (.packetReceived p) m
  · split
    · rfl
    · exact connections_dispatchWith_of_ne later_rule.full hrest hm rfl

theorem connections_finish : (finish c n).connections c = n.connections c := by
  obtain ⟨ch, hch, hw⟩ := h
  by_cases hfinished : ch.finished = true
  · rw [Node.finish_of_finished hch hfinished]
  · rw [Node.finish_of_not_finished hch hfinished]
    have hclosed : ({ ch with finished := true }.close).Wired l rest :=
      hw.of_reactors_eq (Channel.reactors_shut _ _)
    exact connections_dispatchWith_of_ne later_rule.ended hrest
      ⟨_, Node.channel?_modify_of_some hch _, hclosed⟩ rfl

theorem connections_resume (saved : ByteArray) :
    ((resume c saved).apply n).2.connections c = n.connections c := by
  unfold resume
  cases Ledger.restore saved with
  | error f => rfl
  | ok found =>
  cases found with
  | none => rfl
  | some kept =>
    simp only []
    split
    · rfl
    · have hsend := connections_sendPackets hrest h kept.unacknowledged
      rw [Action.apply_bind]
      cases hrun : (sendPackets c kept.unacknowledged).apply n with
      | mk result m =>
        rw [hrun] at hsend
        cases result with
        | error f => exact hsend
        | ok u =>
          have hworks := connections_works (σ := σ) c
          have hask : Moves (fun n n' : Node σ => n'.connections c = n.connections c) (do
              requestAcknowledgment c
              return true) := hworks.bind (hworks.writeFrame c _) fun _ => hworks.pure true
          exact (hask m).trans hsend

theorem connections_handleFrame (f : Frame) : (handleFrame c .initiator f n).connections c =
    n.connections c ++ (ClientAct.receive f).tells rest := by
  have hquiet : ∀ {e : Event}, e.identity? = none →
      (dispatch c e n).connections c = n.connections c ++ [] := fun he =>
    connections_silent (connections_dispatchWith_of_ne later_rule.full hrest h he)
  have hraise : ∀ f, (raise c f n).connections c = n.connections c ++ [] := fun f =>
    connections_silent (connections_raiseWith h f)
  cases f with
  | identify a =>
    cases a with
    | none => exact hraise _
    | some a => exact connections_dispatchWith later_rule.full hrest h (.identityReceived a)
  | session id =>
    cases id with
    | none => exact hraise _
    | some id => exact hquiet (e := .sessionCreated id) rfl
  | send ps => exact connections_silent (connections_receivePackets hrest h ps)
  | fetch => exact hquiet (e := .fetchRequested) rfl
  | requestAcknowledgment => exact hquiet (e := .acknowledgmentRequested) rfl
  | acknowledge count => exact hquiet (e := .acknowledgmentReceived count) rfl
  | attach | authenticate => exact hraise _
  | detach | unknown => exact connections_silent rfl

/-- Those who listen are told of an IDENTIFY, whatever the session, and of no other act. -/
theorem connections_perform (hrole : ∀ ch, n.channel? c = some ch → ch.session.role = .initiator)
    (a : ClientAct) : (a.perform c n).connections c = n.connections c ++ a.tells rest := by
  cases a with
  | receive f =>
    obtain ⟨ch, hch, hw⟩ := h
    have hreceive : (receive c f n).2 = handleFrame c .initiator f n := by
      rw [receive, hch]
      simp only [hrole ch hch]
    rw [ClientAct.perform, hreceive]
    exact connections_handleFrame hrest ⟨ch, hch, hw⟩ f
  | send ps => exact connections_silent (connections_sendPackets hrest h ps)
  | ask => exact connections_silent ((connections_works c).writeFrame c _ n)
  | resume saved => exact connections_silent (connections_resume hrest h saved)
  | fail t => exact connections_silent (connections_raiseWith h _)
  | finish => exact connections_silent (connections_finish hrest h)
  | close | detach | take | dropWriter => exact connections_silent rfl

end acts

/-! ## The opening -/

theorem connections_greet (hrest : Attends w rest) (hch : n.channel? c = some ch)
    (hw : ch.Wired l rest) (hrole : ch.session.role = .initiator) :
    (Connection.greet c n).connections c = n.connections c := by
  have hworks := connections_works (σ := σ) c
  have hwired : n.WiredAt c l rest := ⟨ch, hch, hw⟩
  obtain ⟨l₁, hopened⟩ := hwired.later (later_rule.telling.openChannel c n)
  have hopen : (openChannel c).apply n = ((do
      writeHeader c
      stepSession c (plainStep (·.connect))) >>= fun _ => modify (dispatch c .connected)).apply n := by
    rw [openChannel, Action.apply_get_bind, hch]
    simp only [hrole, if_true, bind_assoc]
  have hfirst : Moves (fun n n' : Node σ => n'.connections c = n.connections c) (do
      writeHeader c
      stepSession c (plainStep (·.connect))) :=
    hworks.bind (hworks.write c _) fun _ => hworks.plainStep c fun h => .connect h
  have hlater : Moves Node.Later (do
      writeHeader c
      stepSession c (plainStep (·.connect)) : Action σ Unit) :=
    later_rule.bind (later_rule.write c _) fun _ => later_rule.plainStep c fun h => .connect h
  have hbegun := hfirst n
  have hlater := hlater n
  refine (connections_settled hopened).trans ?_
  rw [hopen, Action.apply_bind]
  generalize (do
      writeHeader c
      stepSession c (plainStep (·.connect)) : Action σ Unit).apply n = run at hbegun hlater ⊢
  obtain ⟨result, m⟩ := run
  cases result with
  | error f => exact hbegun
  | ok u =>
    obtain ⟨l', hm⟩ := hwired.later hlater
    have htold := connections_dispatchWith_of_ne (e := .connected) later_rule.full hrest hm rfl
    exact htold.trans hbegun

/-! ## The session -/

/-- The handshake is over, well or not. -/
def Session.IsOver (t : Session) : Prop := t.phase = .identified ∨ t.phase = .closed

theorem Channel.phase_failed (ch : Channel σ) (f : Fault) :
    (ch.failed f).session.phase = .closed := by
  rw [(ch.over_failed f).session]
  rfl

/-- An IDENTIFY completes the handshake when it is due and can be answered; any other closes. -/
theorem Channel.Fetches.phase {a : Address} (h : ch.Fetches a ch') :
    if ch.session.phase = .authenticated ∧ ch.hasWriter = true then
      ch'.session.phase = .identified ∧ ch'.session.identity = some a
    else ch'.session.phase = .closed := by
  cases h with
  | untimely hidentify =>
    have hphase : ch.session.phase ≠ .authenticated := by
      intro hphase
      rw [Session.identify_eq_ok_iff.2 ⟨hphase, rfl, rfl⟩] at hidentify
      cases hidentify
    rw [if_neg fun hdue => hphase hdue.1]
    exact ch.phase_failed _
  | mute hidentify hmute =>
    have hopen := (Session.Step.identify a _ hidentify).isOpen
    rw [if_neg fun hdue => hmute ⟨hopen, hdue.2⟩]
    exact Channel.phase_failed _ _
  | fetched hlive hidentify =>
    obtain ⟨hphase, rfl, -⟩ := Session.identify_eq_ok_iff.1 hidentify
    rw [if_pos ⟨hphase, hlive.writer⟩]
    exact ⟨rfl, rfl⟩

theorem Channel.Fetches.isOver {a : Address} (h : ch.Fetches a ch') : ch'.session.IsOver := by
  have hphase := h.phase
  split at hphase
  · exact .inl hphase.1
  · exact .inr hphase

/-- A handshake that is over stays so, whatever is done. -/
theorem Channel.Outcome.isOver {a : ClientAct} (h : ch.Outcome w l a ch')
    (hover : ch.session.IsOver) : ch'.session.IsOver := by
  cases h with
  | presents h =>
    cases h with
    | untimely => exact .inr (Channel.phase_failed _ _)
    | mute => exact .inr (Channel.phase_failed _ _)
    | presented hlive hestablish =>
      obtain ⟨hphase, -⟩ := Session.establish_eq_ok_iff.1 hestablish
      rw [Session.IsOver, hphase] at hover
      obtain hover | hover := hover <;> cases hover
  | fetches h => exact h.isOver
  | parts l' hkept h =>
    right
    rw [h.session]
    rfl
  | _ => exact hover

/-! ## Runs -/

theorem client_identify (h : ch.IsClient w l) (hch : n.channel? c = some ch) (a : Address) :
    ∃ ch', ch.Fetches a ch' ∧
      ((ClientAct.receive (.identify (some a))).perform c n).channel? c = some ch' := by
  obtain ⟨rest, hrest, hw⟩ := h.wired
  obtain ⟨ch', hfetches, hyields⟩ := client_fetches hrest hch hw h.role a
  refine ⟨ch', hfetches, ?_⟩
  rw [ClientAct.perform, receive, hch]
  simp only [h.role]
  exact hyields.self

namespace ClientRun

def connections (r : ClientRun σ) : List Address := r.node.connections r.channel

def identity? (r : ClientRun σ) : Option Address := r.node.identity? r.channel

def hasWriter (r : ClientRun σ) : Bool :=
  ((r.node.channel? r.channel).map (·.hasWriter)).getD false

end ClientRun

/-- One listens to the connection, and perhaps one to packets. -/
def heardListeners (packets : Bool) : List Listener :=
  (if packets then [.packets] else []) ++ [.connection]

/-- What stands behind the front of a client that is listened to. -/
def heardRest (w : ClientWiring) (packets : Bool) : List (Reactor σ) :=
  (heardListeners packets).map Listener.reactor ++ [.clientHandshake w.address w.credential]

theorem tells_heardRest (w : ClientWiring) (packets : Bool) (a : ClientAct) :
    a.tells (heardRest w packets : List (Reactor σ)) = a.identity?.toList := by
  unfold ClientAct.tells
  cases a.identity? with
  | none => rfl
  | some a => cases packets <;> rfl

/-- The run's channel is a client's, with these reactors behind the front. -/
def ClientRun.Attended (rest : List (Reactor σ)) (r : ClientRun σ) : Prop :=
  ∃ ch l, r.node.channel? r.channel = some ch ∧ ch.session.role = .initiator ∧ ch.Wired l rest

theorem attends_heardRest (w : ClientWiring) (packets : Bool) :
    Attends w (heardRest w packets : List (Reactor σ)) := attends_listeners w _

theorem attended_opened (n : Node σ) (w : ClientWiring) (packets : Bool) (now : Nat) :
    let r := ClientRun.opened n w (heardListeners packets) now
    r.Attended (heardRest w packets) ∧ r.connections = n.connections r.channel := by
  intro r
  have hfresh : (n.addChannel (clientChannel w (heardListeners packets) now)).2.channel?
      r.channel = some (clientChannel w (heardListeners packets) now) :=
    List.getElem?_concat_length
  have hw := wired_clientChannel (σ := σ) w (heardListeners packets) now
  obtain ⟨ch, hch, hlater⟩ := (later_rule.telling.greet r.channel _).channel _ _ hfresh
  obtain ⟨l, hw'⟩ := hw.later hlater
  exact ⟨⟨ch, l, hch, hlater.role, hw'⟩,
    connections_greet (attends_heardRest w packets) hfresh hw rfl⟩

theorem attended_step {packets : Bool} {r : ClientRun σ} (h : r.Attended (heardRest w packets))
    (a : ClientAct) : (r.step a).Attended (heardRest w packets) ∧
      (r.step a).connections = r.connections ++ a.identity?.toList := by
  obtain ⟨ch, l, hch, hrole, hw⟩ := h
  obtain ⟨ch', l', hch', hrole', hw'⟩ := wired_perform hch hw a
  have htold := connections_perform (attends_heardRest w packets)
    ⟨ch, hch, hw⟩ (fun ch₁ hch₁ => by
      cases hch.symm.trans hch₁
      exact hrole) a
  refine ⟨⟨ch', l', hch', hrole'.trans hrole, hw'⟩, ?_⟩
  rw [tells_heardRest] at htold
  exact htold

/-- The listener is told of each IDENTIFY of a run, in order. -/
theorem connections_run (n : Node σ) (w : ClientWiring) (packets : Bool) (now : Nat)
    (acts : List ClientAct) :
    let r := clientRun n w (heardListeners packets) now acts
    r.Attended (heardRest w packets) ∧
      r.connections = n.connections r.channel ++ acts.filterMap ClientAct.identity? := by
  induction acts using List.reverseRecOn with
  | nil =>
    obtain ⟨hattended, htold⟩ := attended_opened n w packets now
    exact ⟨hattended, htold.trans (List.append_nil _).symm⟩
  | append_singleton acts a ih =>
    obtain ⟨hattended, htold⟩ := ih
    obtain ⟨hstep, hmore⟩ := attended_step hattended a
    have hrun : clientRun n w (heardListeners packets) now (acts ++ [a]) =
        (clientRun n w (heardListeners packets) now acts).step a := List.foldl_append
    rw [hrun]
    refine ⟨hstep, hmore.trans ?_⟩
    rw [htold, List.filterMap_append, ← List.append_assoc, List.filterMap_cons]
    cases a.identity? <;> rfl

/-- Once the handshake is over, it is over for the rest of the run. -/
theorem isOver_run {r : ClientRun σ} (hch : r.node.channel? r.channel = some ch)
    (h : ch.IsClient w l) (hover : ch.session.IsOver) (acts : List ClientAct) :
    ∃ ch' l', (acts.foldl ClientRun.step r).node.channel?
        (acts.foldl ClientRun.step r).channel = some ch' ∧ ch'.IsClient w l' ∧
      ch'.session.IsOver := by
  induction acts generalizing r ch l with
  | nil => exact ⟨ch, l, hch, h, hover⟩
  | cons a acts ih =>
    obtain ⟨ch', l', houtcome, hch', h'⟩ := client_step h hch a
    exact ih (r := r.step a) hch' h' (houtcome.isOver hover)

theorem phase_step_identify {r : ClientRun σ} (hch : r.node.channel? r.channel = some ch)
    (h : ch.IsClient w l) (a : Address) :
    let r' := r.step (.receive (.identify (some a)))
    (∃ ch' l', r'.node.channel? r'.channel = some ch' ∧ ch'.IsClient w l' ∧
      ch'.session.IsOver) ∧
    if r.phase = .authenticated ∧ r.hasWriter = true then
      r'.phase = .identified ∧ r'.identity? = some a
    else r'.phase = .closed := by
  intro r'
  obtain ⟨ch', hfetches, hch'⟩ := client_identify h hch a
  obtain ⟨ch₁, l', -, hch₁, hclient⟩ := client_step h hch (.receive (.identify (some a)))
  cases hch'.symm.trans hch₁
  have hafter : r'.node.channel? r'.channel = some ch' := hch'
  refine ⟨⟨ch', l', hafter, hclient, hfetches.isOver⟩, ?_⟩
  have hphase := hfetches.phase
  simp only [ClientRun.phase, ClientRun.hasWriter, ClientRun.identity?, Node.phaseAt,
    identity?_eq hafter, hch, hafter, Option.map_some, Option.getD_some]
  exact hphase

/-- The listener of a client's connection is told of every IDENTIFY that arrives, with the identity
in it, whatever the session makes of it. The session takes one only if it is due and can be
answered, and then it is identified as that; any other leaves the channel closed, and so does every
IDENTIFY behind the first. -/
theorem listener_hears_every_identity (n : Node σ) (w : ClientWiring) (packets : Bool) (now : Nat)
    (acts : List ClientAct) :
    let r := clientRun n w (heardListeners packets) now acts
    r.connections = n.connections r.channel ++ acts.filterMap ClientAct.identity? ∧
    ∀ a, let r' := r.step (.receive (.identify (some a)))
      (if r.phase = .authenticated ∧ r.hasWriter = true then
        r'.phase = .identified ∧ r'.identity? = some a
      else r'.phase = .closed) ∧
      ∀ (more : List ClientAct) (b : Address),
        ((more.foldl ClientRun.step r').step (.receive (.identify (some b)))).phase = .closed := by
  intro r
  obtain ⟨-, htold⟩ := connections_run n w packets now acts
  obtain ⟨ch, l, hch, hclient⟩ := client_run n w (heardListeners packets) now acts
  refine ⟨htold, fun a => ?_⟩
  intro r'
  obtain ⟨⟨ch', l', hch', hclient', hover'⟩, hphase⟩ := phase_step_identify hch hclient a
  refine ⟨hphase, fun more b => ?_⟩
  obtain ⟨ch₂, l₂, hch₂, hclient₂, hover₂⟩ := isOver_run hch' hclient' hover' more
  obtain ⟨-, hphase₂⟩ := phase_step_identify hch₂ hclient₂ b
  have hpast : (more.foldl ClientRun.step r').phase ≠ .authenticated := by
    rw [ClientRun.phase, Node.phaseAt, hch₂]
    obtain h | h := hover₂ <;> simp [h]
  rw [if_neg fun hdue => hpast hdue.1] at hphase₂
  exact hphase₂

/-- An IDENTIFY that arrives right after the opening, and a second one after the handshake, are
refused, and the listener is told of them all the same. -/
theorem listener_hears_refused_identities :
    let id : SessionId := ⟨⟨#[115]⟩, by decide, by decide⟩
    let early := clientRun (.start ()) Duplex.smallClient (heardListeners true) 0
      [.receive (.identify (some smallPacket.sender))]
    let twice := clientRun (.start ()) Duplex.smallClient (heardListeners true) 0
      [.receive (.session (some id)), .receive (.identify (some smallPacket.sender)),
        .receive (.identify (some smallPacket.recipient))]
    (early.connections = [smallPacket.sender] ∧ early.phase = .closed ∧ early.identity? = none) ∧
      twice.connections = [smallPacket.sender, smallPacket.recipient] ∧ twice.phase = .closed ∧
      twice.identity? = some smallPacket.sender := by
  decide +kernel

end Courier
