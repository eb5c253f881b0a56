import Courier.Proofs.Client.Handshake
import Courier.Proofs.Node.Answers

/-! # What becomes of a client's channel

Frames arrive on a client's connection from any peer, the application sends, asks and resumes,
reading or writing fails, the channel is shut, and its writer takes what is queued or goes away.
What one act makes of the channel is one of few outcomes (`Channel.Outcome`), in every state of the
handshake and of the ledger (`client_outcome`).
-/
set_option autoImplicit false

namespace Courier

open Courier.Wire Courier.Wire.Frame Courier.Routing

variable {σ : Type} {n n' : Node σ} {c : ChannelId} {ch ch' : Channel σ} {l l' : Ledger}
  {w : ClientWiring} {rest : List (Reactor σ)}

/-! ## Acts -/

/-- What goes wrong on a connection without a frame. -/
inductive Trouble where
  | reading (fault : ReadFault)
  | writing (fault : WriteFault)
  /-- The handshake takes too long. -/
  | late (elapsed : Nat)

def Trouble.fault : Trouble → Fault
  | reading fault => .read fault
  | writing fault => .write fault
  | late elapsed => .handshakeTimeout elapsed

/-- What can happen on a client's connection once it is opened. -/
inductive ClientAct where
  | receive (f : Frame)
  /-- The application sends packets. -/
  | send (ps : List Packet)
  /-- The application asks for an acknowledgment. -/
  | ask
  /-- The application takes up where an earlier connection was cut off. -/
  | resume (saved : ByteArray)
  | fail (t : Trouble)
  | close
  | detach
  | finish
  /-- The writer takes what is queued. -/
  | take
  /-- The writer goes away. -/
  | dropWriter

def ClientAct.perform (c : ChannelId) (n : Node σ) : ClientAct → Node σ
  | receive f => (Courier.receive c f n).2
  | send ps => ((sendPackets c ps).apply n).2
  | ask => ((requestAcknowledgment c).apply n).2
  | resume saved => ((Courier.resume c saved).apply n).2
  | fail t => raise c t.fault n
  | close => n.modify c Channel.close
  | detach => n.modify c Channel.detach
  | finish => Courier.finish c n
  | take => (n.takeQueue c).2
  | dropWriter => n.modify c Channel.dropWriter

/-! ## Parting -/

/-- What a client's channel may queue last. -/
def lastWords : List (List Outbound) := [[], [.close], [Channel.goodbye, .close]]

/-- The session closes behind a last word, and on a closed channel nothing is queued. -/
structure Channel.Parts (ch ch' : Channel σ) : Prop where
  reactors : ch'.reactors = ch.reactors
  session : ch'.session = ch.session.close
  queue : ∃ last ∈ lastWords, ch'.queue.toList = ch.queue.toList ++ last ∧
    (ch.session.isClosed = true → last = [])

theorem Channel.parts_shut (ch : Channel σ) (sayGoodbye : Bool) :
    ch.Parts (ch.shut sayGoodbye) := by
  refine ⟨ch.reactors_shut sayGoodbye, ch.session_shut sayGoodbye, ?_⟩
  by_cases hlive : ch.Live
  · refine ⟨_, ?_, queue_shut hlive.isOpen hlive.writer sayGoodbye, fun hclosed => ?_⟩
    · cases sayGoodbye <;> simp [lastWords]
    · rw [hlive.isOpen] at hclosed
      cases hclosed
  · refine ⟨[], by simp [lastWords], ?_, fun _ => rfl⟩
    rw [queue_shut_of_not_live sayGoodbye hlive, List.append_nil]

/-- A fault that refuses nobody, or is raised where nothing can be queued. -/
theorem Channel.parts_failed {f : Fault} (h : ch.Live → refusal? f = none) :
    ch.Parts (ch.failed f) := by
  have hover := ch.over_failed f
  obtain ⟨last, hlast, hqueue, hdead⟩ := queue_failed h
  refine ⟨hover.reactors, hover.session, last, ?_, hqueue, fun hclosed => hdead fun hlive => ?_⟩
  · obtain rfl | rfl := hlast <;> simp [lastWords]
  · rw [hlive.isOpen] at hclosed
    cases hclosed

/-! ## What becomes of the channel -/

/-- What an act makes of a client's channel whose ledger is this one. -/
inductive Channel.Outcome (w : ClientWiring) (l : Ledger) (ch : Channel σ) :
    ClientAct → Channel σ → Prop where
  /-- Nothing but counts of the ledger changes. -/
  | counts {a : ClientAct} (l' : Ledger) (hkept : l'.unacknowledged = l.unacknowledged) :
      Outcome w l ch a (ch.setLedger l')
  | presents {id : SessionId} {ch' : Channel σ} (h : ch.Presents w id ch') :
      Outcome w l ch (.receive (.session (some id))) ch'
  | fetches {a : Address} {ch' : Channel σ} (h : ch.Fetches a ch') :
      Outcome w l ch (.receive (.identify (some a))) ch'
  | answers (hlive : ch.Live) :
      Outcome w l ch (.receive .requestAcknowledgment) (ch.say [.acknowledge l.received])
  | clears : Outcome w l ch (.receive (.acknowledge l.transmitted))
      (ch.setLedger { l with buffer := .empty })
  | resends {f : Frame} (hf : f = .fetch ∨ ∃ count, f = .acknowledge count) (hlive : ch.Live) :
      Outcome w l ch (.receive f) (ch.resent l)
  | sends {ps : List Packet} (hlive : ch.Live) : Outcome w l ch (.send ps)
      ((ch.say (sends ps)).setLedger (ps.foldl Ledger.recordSent l))
  | asks (hlive : ch.Live) : Outcome w l ch .ask (ch.say [.requestAcknowledgment])
  | resumes {saved : ByteArray} {kept : Ledger} (hkept : Ledger.restore saved = .ok (some kept))
      (hlive : ch.Live) : Outcome w l ch (.resume saved)
        (((ch.say (sends kept.unacknowledged)).setLedger
          (kept.unacknowledged.foldl Ledger.recordSent l)).say [.requestAcknowledgment])
  | parts {a : ClientAct} {ch' : Channel σ} (l' : Ledger)
      (hkept : l'.unacknowledged = l.unacknowledged) (h : (ch.setLedger l').Parts ch') :
      Outcome w l ch a ch'
  | empties : Outcome w l ch .take { ch with queue := .empty }
  | drops : Outcome w l ch .dropWriter ch.dropWriter

namespace Channel.Outcome

variable {a : ClientAct}

theorem stays (hw : ch.Wired l rest) : ch.Outcome w l a ch := by
  have hcounts : ch.Outcome w l a (ch.setLedger l) := .counts l rfl
  rwa [hw.setLedger_self] at hcounts

theorem ends (hw : ch.Wired l rest) (h : ch.Parts ch') : ch.Outcome w l a ch' := by
  refine .parts l rfl ?_
  rw [hw.setLedger_self]
  exact h

/-- What cannot be queued makes the channel fail, whatever the fault. -/
theorem mute (hlive : ¬ ch.Live) (hkept : l'.unacknowledged = l.unacknowledged) (f : Fault) :
    ch.Outcome w l a ((ch.setLedger l').failed f) :=
  .parts l' hkept (parts_failed fun h => absurd ⟨h.isOpen, h.writer⟩ hlive)

end Channel.Outcome

/-! ## Frames of traffic -/

/-- An event that the handshake does not heed is settled by the ledger. -/
theorem client_settles (hrest : Attends w rest) (hch : n.channel? c = some ch)
    (hw : ch.Wired l rest) {e : Event} (hnew : ∀ p, e ≠ .packetReceived p)
    (hidle : (handshakeReacts c w.address w.credential e : Action σ Unit) = pure ())
    {Q : Channel σ → Prop} (hledger : ∀ m : Node σ, m.channel? c = some ch →
      (∃ ch', Q ch' ∧ (ledgerReacts c 2 l e).apply m = (.ok (), m.modify c fun _ => ch')) ∨
        ∃ l' f, Q ((ch.setLedger l').failed f) ∧ (ledgerReacts c 2 l e).apply m =
          (.error f, m.modify c fun _ => ch.setLedger l')) :
    ∃ ch', Q ch' ∧ (dispatch c e n).channel? c = some ch' := by
  obtain ⟨ch', hq, hyields⟩ := Node.Yields.dispatched later_rule.full hch hw hnew fun m hm => by
    obtain ⟨told, hquiet, hreaction⟩ := hrest.reaction .full c e l
    obtain ⟨ch', hq, hok⟩ | ⟨l', f, hq, herror⟩ := hledger m hm
    · have hset := Node.Yields.modify hm ch'
      refine ⟨ch', hq, .settled_ok (hset.trans (.quiet hset.self (hquiet _))) ?_⟩
      rw [hreaction, hidle, Action.apply_bind_ok hok]
      rfl
    · refine ⟨_, hq, .settled_error (.modify hm (ch.setLedger l')) ?_ (hw.setLedger l')⟩
      rw [hreaction, Action.apply_bind_error herror]
  exact ⟨ch', hq, hyields.self⟩

/-- The ledger sends its buffer again, if it holds anything and can. -/
theorem client_resends (hw : ch.Wired l rest) {f : Frame}
    (hf : f = .fetch ∨ ∃ count, f = .acknowledge count) {m : Node σ}
    (hm : m.channel? c = some ch) :
    (∃ ch', ch.Outcome w l (.receive f) ch' ∧
      (settleLedger c 2 l.flush.1 l.flush.2).apply m = (.ok (), m.modify c fun _ => ch')) ∨
      ∃ l' fault, ch.Outcome w l (.receive f) ((ch.setLedger l').failed fault) ∧
        (settleLedger c 2 l.flush.1 l.flush.2).apply m =
          (.error fault, m.modify c fun _ => ch.setLedger l') := by
  cases hbuffer : l.buffer.isEmpty with
  | true =>
    refine .inl ⟨ch, .stays hw, ?_⟩
    rw [Node.modify_const_self m c hm]
    exact apply_flush_of_empty hm hw hbuffer
  | false =>
    by_cases hlive : ch.Live
    · exact .inl ⟨_, .resends hf hlive, apply_flush hm hlive hbuffer⟩
    · obtain ⟨fault, happly⟩ := apply_flush_of_not_live hm hlive hbuffer
      exact .inr ⟨_, fault, .mute hlive l.unacknowledged_flush fault, happly⟩

/-- Packets that arrive are counted, until the channel is closed. -/
theorem client_receives (hrest : Attends w rest) (hch : n.channel? c = some ch)
    (hw : ch.Wired l rest) (ps : List Packet) : ∃ l' : Ledger, l'.buffer = l.buffer ∧
      (receivePackets c ps n).channel? c = some (ch.setLedger l') := by
  induction ps generalizing n ch l with
  | nil =>
    refine ⟨l, rfl, ?_⟩
    rw [hw.setLedger_self]
    exact hch
  | cons p ps ih =>
    rw [receivePackets, List.foldl_cons]
    by_cases hclosed : n.isClosed c = true
    · rw [if_pos hclosed]
      exact ih hch hw
    · have hheard : (dispatch c (.packetReceived p) n).channel? c =
          some (ch.setLedger l.recordReceived) := by
        rw [(client_packetReceived hrest hch hw p).channel?, heard_eq hch hw]
        exact Node.channel?_modify_of_some ((n.channel?_note c c _ _).trans hch) _
      obtain ⟨l', hbuffer, hafter⟩ := ih hheard (hw.setLedger _)
      have htwice : (ch.setLedger l.recordReceived).setLedger l' = ch.setLedger l' := by
        simp only [Channel.setLedger, List.set_set]
      rw [htwice] at hafter
      rw [if_neg hclosed]
      exact ⟨l', hbuffer, hafter⟩

/-! ## Resuming -/

section resume

variable {saved : ByteArray} {kept : Ledger}

theorem apply_resume_of_error {f : Fault} (h : Ledger.restore saved = .error f) :
    (resume c saved).apply n = (.error f, n) := by
  rw [resume, h]
  rfl

theorem apply_resume_of_none (h : Ledger.restore saved = .ok none) :
    (resume c saved).apply n = (.ok false, n) := by
  rw [resume, h]
  rfl

variable (hkept : Ledger.restore saved = .ok (some kept))

include hkept

theorem apply_resume_of_empty (hnone : kept.unacknowledged = []) :
    (resume c saved).apply n = (.ok true, n) := by
  rw [resume, hkept]
  simp only [hnone]
  rfl

variable (hsome : kept.unacknowledged ≠ [])

include hsome

theorem resume_eq : (resume c saved : Action σ Bool) = do
    sendPackets c kept.unacknowledged
    requestAcknowledgment c
    return true := by
  have hfull : ¬ kept.unacknowledged.isEmpty = true := by simpa using hsome
  rw [resume, hkept]
  simp only [hfull, if_false, Bool.false_eq_true]

/-- Packets that were saved are sent and counted like new ones, and acknowledging is asked for. -/
theorem apply_resume (hch : n.channel? c = some ch) (hw : ch.Wired l rest) (hlive : ch.Live) :
    ∃ n', (resume c saved).apply n = (.ok true, n') ∧
      Quiet (n.modify c fun _ => ((ch.say (sends kept.unacknowledged)).setLedger
        (kept.unacknowledged.foldl Ledger.recordSent l)).say [.requestAcknowledgment]) n' := by
  obtain ⟨m, hsend, hquiet⟩ := apply_sendPackets hch hw hlive hsome
  have hm := (hquiet.channel? c).trans (Node.channel?_modify_of_some hch _)
  have hask := apply_writeFrame hm ((hlive.say _).setLedger _) regular_requestAcknowledgment
  have hrequest : (requestAcknowledgment c).apply m = _ := hask
  have hmoved := hquiet.modify c fun _ => ((ch.say (sends kept.unacknowledged)).setLedger
    (kept.unacknowledged.foldl Ledger.recordSent l)).say [.requestAcknowledgment]
  rw [Node.modify_modify] at hmoved
  refine ⟨_, ?_, hmoved⟩
  rw [resume_eq hkept hsome, Action.apply_bind_ok hsend, Action.apply_bind_ok hrequest]
  rfl

theorem apply_resume_of_not_live (h : ∀ ch, n.channel? c = some ch → ¬ ch.Live) :
    ∃ f, (resume c saved).apply n = (.error f, n) := by
  obtain ⟨f, hsend⟩ := apply_sendPackets_of_not_live h hsome
  exact ⟨f, by rw [resume_eq hkept hsome, Action.apply_bind_error hsend]⟩

end resume

/-! ## Every act -/

section outcome

variable (hrest : Attends w rest) (hch : n.channel? c = some ch) (hw : ch.Wired l rest)

include hch hw

theorem client_raise (a : ClientAct) {f : Fault} (hf : refusal? f = none) :
    ∃ ch', ch.Outcome w l a ch' ∧ (raise c f n).channel? c = some ch' :=
  ⟨_, .ends hw (Channel.parts_failed fun _ => hf), (Node.Yields.failed .full hch hw f).self⟩

theorem client_shut (a : ClientAct) (sayGoodbye : Bool) : ∃ ch', ch.Outcome w l a ch' ∧
    (n.modify c (·.shut sayGoodbye)).channel? c = some ch' :=
  ⟨_, .ends hw (ch.parts_shut sayGoodbye), Node.channel?_modify_of_some hch _⟩

theorem client_finish : ∃ ch', ch.Outcome w l .finish ch' ∧
    (finish c n).channel? c = some ch' := by
  by_cases hfinished : ch.finished = true
  · rw [Node.finish_of_finished hch hfinished]
    exact ⟨ch, .stays hw, hch⟩
  · obtain ⟨hreactors, hsession, hqueue⟩ := Channel.parts_shut { ch with finished := true } false
    refine ⟨{ ch with finished := true }.close, .ends hw ⟨hreactors, hsession, hqueue⟩, ?_⟩
    rw [Node.channel?, channels_finish hch hw hfinished]
    exact Node.channel?_modify_of_some hch _

theorem client_send (ps : List Packet) : ∃ ch', ch.Outcome w l (.send ps) ch' ∧
    ((sendPackets c ps).apply n).2.channel? c = some ch' := by
  by_cases hps : ps = []
  · rw [hps, sendPackets_nil]
    exact ⟨ch, .stays hw, hch⟩
  · by_cases hlive : ch.Live
    · obtain ⟨n', happly, hquiet⟩ := apply_sendPackets hch hw hlive hps
      rw [happly]
      exact ⟨_, .sends hlive, (hquiet.channel? c).trans (Node.channel?_modify_of_some hch _)⟩
    · obtain ⟨f, happly⟩ := apply_sendPackets_of_not_live (not_live_of_channel? hch hlive) hps
      rw [happly]
      exact ⟨ch, .stays hw, hch⟩

theorem client_ask : ∃ ch', ch.Outcome w l .ask ch' ∧
    ((requestAcknowledgment c).apply n).2.channel? c = some ch' := by
  rw [requestAcknowledgment]
  by_cases hlive : ch.Live
  · rw [apply_writeFrame hch hlive regular_requestAcknowledgment]
    exact ⟨_, .asks hlive, Node.channel?_modify_of_some hch _⟩
  · obtain ⟨f, happly⟩ := apply_writeFrame_of_not_live (not_live_of_channel? hch hlive)
      regular_requestAcknowledgment
    rw [happly]
    exact ⟨ch, .stays hw, hch⟩

theorem client_resume (saved : ByteArray) : ∃ ch', ch.Outcome w l (.resume saved) ch' ∧
    ((resume c saved).apply n).2.channel? c = some ch' := by
  cases hrestore : Ledger.restore saved with
  | error f =>
    rw [apply_resume_of_error hrestore]
    exact ⟨ch, .stays hw, hch⟩
  | ok found =>
  cases found with
  | none =>
    rw [apply_resume_of_none hrestore]
    exact ⟨ch, .stays hw, hch⟩
  | some kept =>
    by_cases hnone : kept.unacknowledged = []
    · rw [apply_resume_of_empty hrestore hnone]
      exact ⟨ch, .stays hw, hch⟩
    · by_cases hlive : ch.Live
      · obtain ⟨n', happly, hquiet⟩ := apply_resume hrestore hnone hch hw hlive
        rw [happly]
        exact ⟨_, .resumes hrestore hlive,
          (hquiet.channel? c).trans (Node.channel?_modify_of_some hch _)⟩
      · obtain ⟨f, happly⟩ :=
          apply_resume_of_not_live hrestore hnone (not_live_of_channel? hch hlive)
        rw [happly]
        exact ⟨ch, .stays hw, hch⟩

include hrest

theorem client_acknowledge (count : UInt32) :
    ∃ ch', ch.Outcome w l (.receive (.acknowledge count)) ch' ∧
      (dispatch c (.acknowledgmentReceived count) n).channel? c = some ch' := by
  by_cases hcount : count = l.transmitted
  · -- The one count that lets packets go.
    subst hcount
    exact ⟨_, .clears, ((quiet_cleared hch hw).channel? c).trans
      (Node.channel?_modify_of_some hch _)⟩
  · refine client_settles (e := .acknowledgmentReceived count) hrest hch hw nofun rfl fun m hm => ?_
    rw [ledgerReacts, Ledger.acknowledge, if_neg hcount]
    exact client_resends hw (.inr ⟨count, rfl⟩) hm

theorem client_answer : ∃ ch', ch.Outcome w l (.receive .requestAcknowledgment) ch' ∧
    (dispatch c .acknowledgmentRequested n).channel? c = some ch' := by
  refine client_settles (e := .acknowledgmentRequested) hrest hch hw nofun rfl fun m hm => ?_
  by_cases hlive : ch.Live
  · exact .inl ⟨_, .answers hlive, apply_answer hm hw hlive⟩
  · obtain ⟨f, happly⟩ := apply_answer_of_not_live hm hw hlive
    refine .inr ⟨l, f, .mute hlive rfl f, ?_⟩
    rw [hw.setLedger_self, Node.modify_const_self m c hm]
    exact happly

variable (hrole : ch.session.role = .initiator)

include hrole

theorem client_receive (f : Frame) : ∃ ch', ch.Outcome w l (.receive f) ch' ∧
    (receive c f n).2.channel? c = some ch' := by
  have hreceive : (receive c f n).2 = handleFrame c .initiator f n := by
    rw [receive, hch]
    simp only [hrole]
  rw [hreceive]
  cases f with
  | session id =>
    cases id with
    | none => exact client_raise hch hw _ rfl
    | some id =>
      obtain ⟨ch', hpresents, hyields⟩ := client_presents hrest hch hw hrole id
      exact ⟨ch', .presents hpresents, hyields.self⟩
  | identify a =>
    cases a with
    | none => exact client_raise hch hw _ rfl
    | some a =>
      obtain ⟨ch', hfetches, hyields⟩ := client_fetches hrest hch hw hrole a
      exact ⟨ch', .fetches hfetches, hyields.self⟩
  | attach a => exact client_raise hch hw _ rfl
  | authenticate credential => exact client_raise hch hw _ rfl
  | fetch =>
    exact client_settles (e := .fetchRequested) hrest hch hw nofun rfl fun m hm =>
      client_resends hw (.inl rfl) hm
  | send packets =>
    obtain ⟨l', hbuffer, hafter⟩ := client_receives hrest hch hw packets
    exact ⟨_, .counts l' (congrArg Backlog.toList hbuffer), hafter⟩
  | requestAcknowledgment => exact client_answer hrest hch hw
  | acknowledge count => exact client_acknowledge hrest hch hw count
  | detach | unknown code => exact ⟨ch, .stays hw, hch⟩

/-- Whatever is done on a client's connection, its channel comes to one of the outcomes. -/
theorem client_outcome (a : ClientAct) :
    ∃ ch', ch.Outcome w l a ch' ∧ (a.perform c n).channel? c = some ch' := by
  cases a with
  | receive f => exact client_receive hrest hch hw hrole f
  | send ps => exact client_send hch hw ps
  | ask => exact client_ask hch hw
  | resume saved => exact client_resume hch hw saved
  | fail t =>
    have hfault : refusal? t.fault = none := by
      cases t <;> rfl
    exact client_raise hch hw _ hfault
  | close => exact client_shut hch hw _ false
  | detach => exact client_shut hch hw _ true
  | finish => exact client_finish hch hw
  | take => exact ⟨_, .empties, Node.channel?_modify_of_some hch _⟩
  | dropWriter => exact ⟨_, .drops, Node.channel?_modify_of_some hch _⟩

end outcome

end Courier
