import Courier.Proofs.Node.Endings
import Courier.Proofs.Node.Within
import Courier.Proofs.Stream.Writing

/-! # A connection winds down once

A connection is driven over a stream: chunks arrive, turns are taken at any times, told to stop or
not, the writer writes, and all that is done elsewhere in the node comes in between, in any order.
The stream that is written to may fail at any write or flush. When the connection is over, its
channel has been told its end once, its session is closed, and if no call failed, what was written
are the frames that were queued before `close`, and nothing was queued behind it
(`connection_winds_down`).
-/
set_option autoImplicit false

namespace Courier

open Courier.Wire Courier.Stream Courier.Routing

variable {σ : Type}

/-! ## Turns -/

namespace Connection

variable {R : Node σ → Node σ → Prop} {k : Connection} {n : Node σ} {p : Connection × Node σ}

/-- What a turn leaves: the node has moved, and if the turn was the last, the channel was finished
at its end. The writer is left alone. -/
structure Turned (R : Node σ → Node σ → Prop) (k : Connection) (n : Node σ)
    (p : Connection × Node σ) : Prop where
  channel : p.1.channel = k.channel
  writing : p.1.writing = k.writing
  sink : p.1.sink = k.sink
  moves : R n p.2
  stops : p.1.reading = k.reading ∨ ∃ m, R n m ∧ p.2 = finish k.channel m

theorem turned_windDown (hR : Passage R) {m : Node σ} (h : R n m) : Turned R k n (k.windDown m) :=
  ⟨rfl, rfl, rfl, hR.trans h (hR.finish k.channel m), .inr ⟨m, h, rfl⟩⟩

theorem turned_abort (hR : Passage R) (f : Fault) : Turned R k n (k.abort f n) :=
  turned_windDown hR (hR.raise k.channel f n)

theorem turned_tick (hR : Passage R) (now : Nat) : Turned R k n (k.tick now n) := by
  unfold tick
  split
  · exact turned_windDown hR (hR.refl n)
  · split
    · exact turned_abort hR _
    · exact ⟨rfl, rfl, rfl, hR.refl n, .inl rfl⟩

theorem turned_takeFrame (hR : Passage R) (f : Frame) : Turned R k n (k.takeFrame f n) := by
  have hreceive := hR.telling.receive k.channel f n
  unfold takeFrame
  split
  · rename_i n₁ heq
    rw [heq] at hreceive
    exact ⟨rfl, rfl, rfl, hreceive, .inl rfl⟩
  · rename_i n₁ heq
    rw [heq] at hreceive
    exact turned_windDown hR hreceive

theorem turned_runDry (hR : Passage R) : Turned R k n (k.runDry n) := by
  unfold runDry
  split
  · split
    · exact turned_windDown hR (hR.refl n)
    · exact turned_abort hR _
  · exact turned_abort hR _

/-- What has been read before does not count. -/
theorem Turned.of_reader {reader : Reader} (h : Turned R { k with reader } n p) :
    Turned R k n p := ⟨h.channel, h.writing, h.sink, h.moves, h.stops⟩

theorem turned_fill (hR : Passage R) (h : k.fill n = some p) : Turned R k n p := by
  unfold fill at h
  split at h
  · cases h
  · obtain rfl := Option.some.inj h
    exact ⟨rfl, rfl, rfl, hR.refl n, .inl rfl⟩
  · obtain rfl := Option.some.inj h
    exact turned_runDry hR
  · obtain rfl := Option.some.inj h
    exact turned_abort hR _

theorem turned_read (hR : Passage R) (h : k.read n = some p) : Turned R k n p := by
  unfold read at h
  split at h
  · split at h
    · obtain rfl := Option.some.inj h
      exact .of_reader (turned_takeFrame hR _)
    · obtain rfl := Option.some.inj h
      exact turned_abort hR _
    · exact turned_fill hR h
  · split at h
    · obtain rfl := Option.some.inj h
      exact ⟨rfl, rfl, rfl, hR.telling.greet k.channel n, .inl rfl⟩
    · obtain rfl := Option.some.inj h
      exact turned_abort hR _
    · exact turned_fill hR h

theorem turned_turn (hR : Passage R) {now : Nat} {stopping : Bool}
    (h : k.turn now stopping n = some p) : Turned R k n p := by
  unfold turn at h
  split at h
  · cases h
  · split at h
    · obtain rfl := Option.some.inj h
      exact turned_windDown hR (hR.refl n)
    · split at h
      · obtain rfl := Option.some.inj h
        exact turned_windDown hR (hR.shut n k.channel true)
      · split at h
        · obtain rfl := Option.some.inj h
          exact turned_tick hR now
        · exact turned_read hR h

end Connection

/-! ## Drives -/

/-- A connection that is driven, and everything that was ever queued on its channel. -/
structure Drive (σ : Type) where
  connection : Connection
  node : Node σ
  log : List Outbound

/-- What can happen to a connection that is driven. -/
inductive DriveAct (σ : Type) where
  | arrive (a : Arrival)
  | turn (now : Nat) (stopping : Bool)
  /-- The writer writes what is queued. -/
  | write
  | elsewhere (a : NodeAct σ)

def DriveAct.perform (k : Connection) (n : Node σ) : DriveAct σ → Connection × Node σ
  | arrive a => ({ k with arrivals := k.arrivals ++ [a] }, n)
  | turn now stopping => (k.turn now stopping n).getD (k, n)
  | write => k.drain n
  | elsewhere a => (k, a.perform n)

/-- The end of a channel is told only by finishing it, and its queue is left to its own writer. -/
def DriveAct.Spares (c : ChannelId) : DriveAct σ → Prop
  | elsewhere (.operate _ (.dispatch .disconnected)) => False
  | elsewhere (.take c') | elsewhere (.dropWriter c') => c' ≠ c
  | _ => True

/-- What waits on a channel in the second node and did not in the first. -/
def newlyQueued (n n' : Node σ) (c : ChannelId) : List Outbound :=
  (((n'.channel? c).map (·.queue.toList)).getD []).drop
    (((n.channel? c).map (·.queue.size)).getD 0)

def Drive.step (d : Drive σ) (a : DriveAct σ) : Drive σ :=
  let (k, n) := a.perform d.connection d.node
  ⟨k, n, d.log ++ newlyQueued d.node n d.connection.channel⟩

/-- What a connection is started with, and how the stream that it writes to fails. -/
structure Setting (σ : Type) where
  role : Role
  heedsShutdown : Bool
  now : Nat
  timing : Timing
  reactors : List (Reactor σ)
  limit : Option Nat
  failingWrite : Option Nat
  failingFlush : Option Nat
  failure : String

/-- A new connection, on a new channel of a node. -/
def Drive.start (n : Node σ) (s : Setting σ) : Drive σ :=
  let (c, opened) := n.addChannel (.start (.start s.role s.now s.timing) s.reactors)
  let (k, n) := Connection.start c s.role s.heedsShutdown s.now s.timing.tickInterval opened
  ⟨{ k with sink := .fresh s.limit s.failingWrite s.failingFlush s.failure }, n,
    newlyQueued opened n c⟩

def Drive.run (d : Drive σ) (acts : List (DriveAct σ)) : Drive σ := acts.foldl Drive.step d

/-! ## What every step keeps -/

/-- A move of a node: a chain of changes that keeps the book of the ends. -/
def Node.Conducts (c : ChannelId) (n n' : Node σ) : Prop := n.Changes n' ∧ n.EndsOnce c n'

theorem conducts_passage (c : ChannelId) : Passage (Node.Conducts (σ := σ) c) := by
  have hC := Node.changes_rule (σ := σ)
  have hE := Node.endsOnce_passage (σ := σ) c
  exact {
    refl := fun n => ⟨hC.refl n, hE.refl n⟩
    trans := fun h h' => ⟨hC.trans h.1 h'.1, hE.trans h.2 h'.2⟩
    registry := fun n r => ⟨hC.registry n r, hE.registry n r⟩
    policy := fun n s => ⟨hC.policy n s, hE.policy n s⟩
    report := fun c s hs n r => ⟨hC.report c s hs n r, hE.report c s hs n r⟩
    enqueue := fun hch h => ⟨hC.enqueue hch h, hE.enqueue hch h⟩
    session := fun hch h => ⟨hC.session hch h, hE.session hch h⟩
    remember := fun n c f => ⟨hC.remember n c f, hE.remember n c f⟩
    shut := fun n c goodbye => ⟨hC.shut n c goodbye, hE.shut n c goodbye⟩
    reactor := fun h halike => ⟨hC.reactor h halike, hE.reactor h halike⟩
    finish := fun c n => ⟨hC.finish c n, hE.finish c n⟩ }

/-- The channel of a driven connection and its log. While the writer goes on, what is logged is what
was written and what waits; once it has stopped, nothing waits any more. -/
structure Logged (k : Connection) (log : List Outbound) (ch : Channel σ) : Prop where
  writing : k.writing = true → ch.hasWriter = true ∧ ∃ frames : List ByteArray,
    log = frames.map .bytes ++ ch.queue.toList ∧ ch.InOrder (frames.map .bytes) ∧
      k.sink.written = joined .empty frames
  stopped : k.writing = false → ch.hasWriter = false ∧ ch.queue = .empty ∧
    (¬ k.sink.Failed → ∃ frames : List ByteArray,
      log = frames.map .bytes ++ [.close] ∧ k.sink.written = joined .empty frames)

namespace Logged

variable {k k' : Connection} {n n' : Node σ} {c : ChannelId} {ch ch' : Channel σ}
  {log : List Outbound}

theorem of_same (h : Logged k log ch) (hwriting : k'.writing = k.writing)
    (hsink : k'.sink = k.sink) : Logged k' log ch := by
  refine ⟨?_, ?_⟩
  · rw [hwriting, hsink]
    exact h.writing
  · rw [hwriting, hsink]
    exact h.stopped

/-- A channel without a writer takes nothing. -/
theorem nothing_of_change (hchange : ch.Change c ch')
    (h : ch.hasWriter = false ∧ ch.queue = .empty) :
    ch'.hasWriter = false ∧ ch'.queue = .empty := by
  refine ⟨hchange.later.writer.trans h.1, ?_⟩
  cases hchange with
  | enqueue henqueue =>
    obtain ⟨-, hwriter, -⟩ := Channel.enqueue_eq_ok henqueue
    rw [h.1] at hwriter
    cases hwriter
  | shut goodbye =>
    have hnot : ¬ ch.Live := by
      intro hlive
      rw [hlive.writer] at h
      cases h.1
    exact (Channel.queue_shut_of_not_live goodbye hnot).trans h.2
  | _ => exact h.2

theorem newlyQueued_eq {items : List Outbound} (hch : n.channel? c = some ch)
    (hch' : n'.channel? c = some ch')
    (hqueue : ch'.queue.toList = ch.queue.toList ++ items) : newlyQueued n n' c = items := by
  simp only [newlyQueued, hch, hch', Option.map_some, Option.getD_some, hqueue,
    ← Backlog.length_toList, List.drop_left]

/-- Whatever is queued in a chain of changes is logged. -/
theorem changes (h : Logged k log ch) (hchanges : n.Changes n') (hch : n.channel? c = some ch)
    (hch' : n'.channel? c = some ch') : Logged k (log ++ newlyQueued n n' c) ch' := by
  obtain ⟨ch₁, hch₁, hlater⟩ := hchanges.later.channel c ch hch
  rw [hch'] at hch₁
  cases hch₁
  obtain ⟨items, hitems⟩ := hlater.grows
  rw [newlyQueued_eq hch hch' hitems]
  refine ⟨?_, ?_⟩
  · intro hwriting
    obtain ⟨hwriter, frames, hlog, horder, hwritten⟩ := h.writing hwriting
    obtain ⟨ch₁, hch₁, horder'⟩ := hchanges.keeps Channel.Change.inOrder hch horder
    rw [hch'] at hch₁
    cases hch₁
    refine ⟨hlater.writer.trans hwriter, frames, ?_, horder', hwritten⟩
    rw [hlog, hitems, List.append_assoc]
  · intro hwriting
    obtain ⟨hwriter, hempty, hall⟩ := h.stopped hwriting
    obtain ⟨ch₁, hch₁, hnothing⟩ := hchanges.keeps nothing_of_change hch ⟨hwriter, hempty⟩
    rw [hch'] at hch₁
    cases hch₁
    have hnone : items = [] := by
      rw [hempty, hnothing.2] at hitems
      exact hitems.symm
    rw [hnone, List.append_nil]
    exact ⟨hnothing.1, hnothing.2, hall⟩

theorem newlyQueued_of_empty (hch' : n'.channel? c = some ch') (h : ch'.queue = .empty) :
    newlyQueued n n' c = [] := by
  rw [newlyQueued, hch', Option.map_some, Option.getD_some, h, Backlog.toList_empty, List.drop_nil]

theorem same_node (h : Logged k log ch) (hch : n.channel? c = some ch)
    (hch' : n'.channel? c = some ch) : Logged k (log ++ newlyQueued n n' c) ch := by
  rw [newlyQueued_eq hch hch' (List.append_nil _).symm, List.append_nil]
  exact h

end Logged

/-- The book of the end of a channel: what was reported and what is owed are these reports, and it
is closed if it is finished. -/
structure Booked (reports : List Reporter) (n : Node σ) (c : ChannelId) (ch : Channel σ) :
    Prop where
  here : n.channel? c = some ch
  steady : ch.Steady
  told : n.farewells c ++ ch.owed = reports
  ended : ch.finished = true → ch.session.isClosed = true

namespace Booked

variable {reports : List Reporter} {n n' : Node σ} {c : ChannelId} {ch : Channel σ}

theorem moves (h : Booked reports n c ch) (hmove : n.EndsOnce c n') :
    ∃ ch', Booked reports n' c ch' ∧ ch.Later ch' := by
  obtain ⟨ch', hch', hlater⟩ := hmove.later.channel c ch h.here
  exact ⟨ch', ⟨hch', hlater.steady h.steady,
    (hmove.told ch ch' h.here hch' h.steady).trans h.told,
    hmove.ended ch ch' h.here hch' h.ended⟩, hlater⟩

/-- The queue and the writer do not matter. -/
theorem modify (h : Booked reports n c ch) {f : Channel σ → Channel σ}
    (hsession : (f ch).session = ch.session) (hreactors : (f ch).reactors = ch.reactors)
    (hfinished : (f ch).finished = ch.finished) : Booked reports (n.modify c f) c (f ch) := by
  refine ⟨Node.channel?_modify_of_some h.here f, ?_, ?_, ?_⟩
  · intro r hr
    rw [hreactors] at hr
    exact h.steady r hr
  · have howed : (f ch).owed = ch.owed := by rw [Channel.owed, Channel.owed, hfinished, hreactors]
    rw [howed]
    exact h.told
  · rw [hfinished, hsession]
    exact h.ended

theorem of_same (h : Booked reports n c ch) (hch : n'.channel? c = n.channel? c)
    (hnotices : n'.notices = n.notices) : Booked reports n' c ch := by
  refine ⟨hch.trans h.here, h.steady, ?_, h.ended⟩
  rw [Node.farewells, hnotices]
  exact h.told

end Booked

/-- What holds of a driven connection: the book is kept, a connection that takes no more turns has
finished its channel, and the writer has its log. -/
structure Driven (reports : List Reporter) (d : Drive σ) (ch : Channel σ) : Prop where
  booked : Booked reports d.node d.connection.channel ch
  reading : d.connection.reading = false → ch.finished = true
  logged : Logged d.connection d.log ch

/-! ## Each step -/

section steps

variable {reports : List Reporter} {d : Drive σ} {ch : Channel σ}

theorem Driven.turn (h : Driven reports d ch) (now : Nat) (stopping : Bool) :
    ∃ ch', Driven reports (d.step (.turn now stopping)) ch' := by
  cases hturn : d.connection.turn now stopping d.node with
  | none =>
    have hstep : d.step (.turn now stopping) = ⟨d.connection, d.node,
        d.log ++ newlyQueued d.node d.node d.connection.channel⟩ := by
      simp only [Drive.step, DriveAct.perform, hturn, Option.getD_none]
    rw [hstep]
    exact ⟨ch, h.booked, h.reading, h.logged.same_node h.booked.here h.booked.here⟩
  | some p =>
    have hstep : d.step (.turn now stopping) = ⟨p.1, p.2,
        d.log ++ newlyQueued d.node p.2 d.connection.channel⟩ := by
      simp only [Drive.step, DriveAct.perform, hturn, Option.getD_some]
    obtain ⟨hchannel, hwriting, hsink, hmoves, hstops⟩ :=
      Connection.turned_turn (conducts_passage d.connection.channel) hturn
    obtain ⟨ch', hbooked, hlater⟩ := h.booked.moves hmoves.2
    rw [hstep]
    refine ⟨ch', ?_, ?_, ?_⟩
    · show Booked reports p.2 p.1.channel ch'
      rw [hchannel]
      exact hbooked
    · intro hreading
      obtain hsame | ⟨m, hm, hfinish⟩ := hstops
      · exact hlater.finished (h.reading (hsame.symm.trans hreading))
      · obtain ⟨ch₁, hch₁, -⟩ := hm.2.later.channel _ ch h.booked.here
        obtain ⟨ch₂, hch₂, hfinished⟩ := Node.finished_finish hch₁
        rw [← hfinish, hbooked.here] at hch₂
        cases hch₂
        exact hfinished
    · exact (h.logged.changes hmoves.1 h.booked.here hbooked.here).of_same hwriting hsink

/-- Frames that wait, and `close` behind them if the channel is closed. -/
theorem queue_of_inOrder {frames : List ByteArray} (h : ch.InOrder (frames.map .bytes))
    (hwriter : ch.hasWriter = true) : ∃ waiting : List ByteArray, ch.queue.toList =
      waiting.map .bytes ++ if ch.session.isClosed then [.close] else [] := by
  obtain ⟨all, hall⟩ := h.ordered hwriter
  clear h
  induction frames generalizing all with
  | nil => exact ⟨all, hall⟩
  | cons b frames ih =>
    cases all with
    | nil =>
      simp only [List.map_cons, List.cons_append, List.map_nil, List.nil_append] at hall
      split at hall <;> cases hall
    | cons b' all =>
      simp only [List.map_cons, List.cons_append, List.cons.injEq] at hall
      exact ih all hall.2

def Channel.emptied (ch : Channel σ) : Channel σ := { ch with queue := .empty }

/-- A writer that is given what waits writes it all and goes on, or has come to `close` and stops,
or a call fails and the channel is abandoned. -/
theorem drain_cases {k : Connection} {n : Node σ} {waiting : List ByteArray}
    (hw : k.writing = true) (hch : n.channel? k.channel = some ch)
    (hwaiting : ch.queue.toList =
      waiting.map .bytes ++ if ch.session.isClosed then [.close] else []) :
    (ch.session.isClosed = false ∧ ∃ sink,
      k.drain n = ({ k with sink }, n.modify k.channel Channel.emptied) ∧
        sink.written = joined k.sink.written waiting) ∨
    (ch.session.isClosed = true ∧ ∃ sink,
      k.drain n = ({ k with sink, writing := false },
        (n.modify k.channel Channel.emptied).modify k.channel Channel.dropWriter) ∧
        sink.written = joined k.sink.written waiting) ∨
    ∃ text sink, k.drain n = ({ k with sink, writing := false },
      (abandon k.channel text (n.modify k.channel Channel.emptied)).modify k.channel
        Channel.dropWriter) ∧ sink.Failed := by
  have hqueue : n.takeQueue k.channel =
      (waiting.map .bytes ++ if ch.session.isClosed then [.close] else [],
        n.modify k.channel Channel.emptied) := by
    rw [Node.takeQueue, hch, ← hwaiting]
    rfl
  obtain ⟨sink, hrun, hwritten, -⟩ | ⟨text, sink, hrun, hfailed⟩ := writeItems_spec k.channel
    waiting ch.session.isClosed k.sink (n.modify k.channel Channel.emptied)
  · cases hclosed : ch.session.isClosed with
    | false =>
      simp only [hclosed, Bool.false_eq_true, if_false] at hqueue hrun
      refine .inl ⟨rfl, sink, ?_, hwritten⟩
      rw [Connection.drain, if_pos hw, hqueue]
      simp only [hrun]
    | true =>
      simp only [hclosed, if_true] at hqueue hrun
      refine .inr (.inl ⟨rfl, sink, ?_, hwritten⟩)
      rw [Connection.drain, if_pos hw, hqueue]
      simp only [hrun]
  · refine .inr (.inr ⟨text, sink, ?_, hfailed⟩)
    rw [Connection.drain, if_pos hw, hqueue]
    simp only [hrun]

/-- After a write nothing waits, so nothing is logged. -/
theorem Driven.of_write {ch' : Channel σ} {p : Connection × Node σ}
    (hdrain : d.connection.drain d.node = p)
    (hbooked : Booked reports p.2 d.connection.channel ch') (hempty : ch'.queue = .empty)
    (hchannel : p.1.channel = d.connection.channel)
    (hreading : p.1.reading = false → ch'.finished = true) (hlogged : Logged p.1 d.log ch') :
    Driven reports (d.step .write) ch' := by
  have hstep : d.step .write = ⟨p.1, p.2, d.log⟩ := by
    have hnone := Logged.newlyQueued_of_empty (n := d.node) hbooked.here hempty
    simp only [Drive.step, DriveAct.perform, hdrain, hnone, List.append_nil]
  rw [hstep]
  refine ⟨?_, hreading, hlogged⟩
  show Booked reports p.2 p.1.channel ch'
  rw [hchannel]
  exact hbooked

theorem Driven.write (h : Driven reports d ch) : ∃ ch', Driven reports (d.step .write) ch' := by
  obtain ⟨hbooked, hreading, hlogged⟩ := h
  cases hw : d.connection.writing with
  | false =>
    have hdrain : d.connection.drain d.node = (d.connection, d.node) := by
      simp only [Connection.drain, hw, Bool.false_eq_true, if_false]
    exact ⟨ch, .of_write hdrain hbooked (hlogged.stopped hw).2.1 rfl hreading hlogged⟩
  | true =>
    obtain ⟨hwriter, frames, hlog, horder, hwritten⟩ := hlogged.writing hw
    obtain ⟨waiting, hwaiting⟩ := queue_of_inOrder horder hwriter
    have hall : d.log = (frames ++ waiting).map .bytes ++
        if ch.session.isClosed then [.close] else [] := by
      rw [hlog, hwaiting, List.map_append, List.append_assoc]
    have hjoined : joined d.connection.sink.written waiting =
        joined .empty (frames ++ waiting) := by
      rw [hwritten, joined, joined, joined, List.foldl_append]
    have htaken : Booked reports (d.node.modify d.connection.channel Channel.emptied)
        d.connection.channel ch.emptied := hbooked.modify rfl rfl rfl
    obtain ⟨hopen, sink, hdrain, hmore⟩ | ⟨hclosed, sink, hdrain, hmore⟩ |
      ⟨text, sink, hdrain, hfailed⟩ := drain_cases hw hbooked.here hwaiting
    · rw [hopen, if_neg Bool.false_ne_true, List.append_nil] at hall
      refine ⟨ch.emptied, .of_write hdrain htaken rfl rfl hreading ⟨fun _ => ?_, ?_⟩⟩
      · refine ⟨hwriter, frames ++ waiting, hall.trans (List.append_nil _).symm,
          ⟨horder.shown, fun _ => ?_⟩, hmore.trans hjoined⟩
        have hstill : ch.emptied.session.isClosed = false := hopen
        exact (Channel.ordered_of_open hstill).2 ⟨frames ++ waiting, List.append_nil _⟩
      · intro hnot
        rw [hw] at hnot
        cases hnot
    · rw [hclosed, if_pos rfl] at hall
      have hdropped := htaken.modify (f := Channel.dropWriter) rfl rfl rfl
      refine ⟨_, .of_write hdrain hdropped rfl rfl hreading ⟨fun hw => ?_, fun _ => ?_⟩⟩
      · cases hw
      · exact ⟨rfl, rfl, fun _ => ⟨_, hall, hmore.trans hjoined⟩⟩
    · -- What is queued while the channel is abandoned is lost with the writer.
      have habandon : (d.node.modify d.connection.channel Channel.emptied).EndsOnce
          d.connection.channel (abandon d.connection.channel text
            (d.node.modify d.connection.channel Channel.emptied)) := by
        have hR := Node.endsOnce_passage (σ := σ) d.connection.channel
        exact hR.trans (hR.raise d.connection.channel _ _) (hR.shut _ d.connection.channel false)
      obtain ⟨ch₁, hleft, hlater⟩ := htaken.moves habandon
      have hdropped := hleft.modify (f := Channel.dropWriter) rfl rfl rfl
      refine ⟨_, .of_write hdrain hdropped rfl rfl (fun hr => ?_) ⟨fun hw => ?_, fun _ => ?_⟩⟩
      · exact hlater.finished (hreading hr)
      · cases hw
      · exact ⟨rfl, rfl, fun hnot => absurd hfailed hnot⟩

/-- What is done elsewhere leaves the channel alone, or is a chain of changes that keeps the
book. -/
theorem Driven.elsewhere (h : Driven reports d ch) {a : NodeAct σ}
    (hspares : (DriveAct.elsewhere a).Spares d.connection.channel) :
    ∃ ch', Driven reports (d.step (.elsewhere a)) ch' := by
  obtain ⟨hbooked, hreading, hlogged⟩ := h
  have hsame : (a.perform d.node).channel? d.connection.channel =
      d.node.channel? d.connection.channel → (a.perform d.node).notices = d.node.notices →
      ∃ ch', Driven reports (d.step (.elsewhere a)) ch' := by
    intro hch hnotices
    exact ⟨ch, hbooked.of_same hch hnotices, hreading,
      hlogged.same_node hbooked.here (hch.trans hbooked.here)⟩
  cases a with
  | openChannel role now timing reactors =>
    have hlt := (List.getElem?_eq_some_iff.1 hbooked.here).1
    exact hsame (List.getElem?_append_left hlt) rfl
  | operate c o =>
    have hother : o ≠ .dispatch .disconnected := by
      rintro rfl
      exact hspares
    obtain ⟨ch', hbooked', hlater⟩ := hbooked.moves
      (endsOnce_operation d.connection.channel c d.node hother)
    exact ⟨ch', hbooked', fun hr => hlater.finished (hreading hr),
      hlogged.changes (changes_operation c d.node o) hbooked.here hbooked'.here⟩
  | take c => exact hsame (Node.channel?_modify_of_ne _ _ (Ne.symm hspares)) rfl
  | dropWriter c => exact hsame (Node.channel?_modify_of_ne _ _ (Ne.symm hspares)) rfl

theorem Driven.step (h : Driven reports d ch) {a : DriveAct σ}
    (hspares : a.Spares d.connection.channel) : ∃ ch', Driven reports (d.step a) ch' := by
  cases a with
  | arrive a =>
    exact ⟨ch, h.booked, h.reading,
      h.logged.same_node h.booked.here h.booked.here |>.of_same rfl rfl⟩
  | turn now stopping => exact h.turn now stopping
  | write => exact h.write
  | elsewhere a => exact h.elsewhere hspares

theorem channel_step (d : Drive σ) (a : DriveAct σ) :
    (d.step a).connection.channel = d.connection.channel := by
  cases a with
  | turn now stopping =>
    show ((d.connection.turn now stopping d.node).getD (d.connection, d.node)).1.channel = _
    cases hturn : d.connection.turn now stopping d.node with
    | none => rfl
    | some p => exact (Connection.turned_turn Node.changes_rule.toPassage hturn).channel
  | write =>
    show (d.connection.drain d.node).1.channel = _
    unfold Connection.drain
    split
    · split
      split <;> rfl
    · rfl
  | _ => rfl

theorem channel_run (d : Drive σ) (acts : List (DriveAct σ)) :
    (d.run acts).connection.channel = d.connection.channel := by
  induction acts generalizing d with
  | nil => rfl
  | cons a acts ih => exact (ih (d.step a)).trans (channel_step d a)

/-! ## Every run -/

theorem Driven.run (h : Driven reports d ch) (acts : List (DriveAct σ))
    (hspares : ∀ a ∈ acts, a.Spares d.connection.channel) :
    ∃ ch', Driven reports (d.run acts) ch' := by
  induction acts generalizing d ch with
  | nil => exact ⟨ch, h⟩
  | cons a acts ih =>
    obtain ⟨ch', h'⟩ := h.step (hspares a (List.mem_cons_self ..))
    apply ih h'
    intro b hb
    rw [channel_step]
    exact hspares b (List.mem_cons_of_mem _ hb)

end steps

theorem driven_start (n : Node σ) (s : Setting σ) (hsteady : ∀ r ∈ s.reactors, r.Steady) :
    ∃ ch, Driven (n.farewells ⟨n.channels.length⟩ ++ s.reactors.filterMap Reactor.reporter?)
      (Drive.start n s) ch := by
  let c : ChannelId := ⟨n.channels.length⟩
  let ch : Channel σ := .start (.start s.role s.now s.timing) s.reactors
  let opened : Node σ := (n.addChannel ch).2
  have hch : opened.channel? c = some ch := by
    show (n.channels ++ [ch])[n.channels.length]? = some ch
    simp
  have hopened : Booked (n.farewells c ++ s.reactors.filterMap Reactor.reporter?) opened c ch :=
    ⟨hch, hsteady, rfl, fun hf => nomatch hf⟩
  have hlogged : Logged (Drive.start n s).connection [] ch := by
    refine ⟨fun _ => ⟨rfl, [], rfl, inOrder_start s.role s.now s.timing s.reactors, rfl⟩, ?_⟩
    exact fun hnot => nomatch hnot
  -- An initiator opens the connection at once.
  have hmoves : opened.Conducts c (Drive.start n s).node := by
    show opened.Conducts c (Connection.start c s.role s.heedsShutdown s.now s.timing.tickInterval
      opened).2
    by_cases hrole : s.role = .initiator
    · simp only [Connection.start, hrole, if_true]
      exact (conducts_passage c).telling.greet c opened
    · simp only [Connection.start, hrole, if_false]
      exact (conducts_passage c).refl opened
  obtain ⟨ch', hbooked, -⟩ := hopened.moves hmoves.2
  exact ⟨ch', ⟨hbooked, (fun hnot => nomatch hnot),
    hlogged.changes hmoves.1 hch hbooked.here⟩⟩

/-- However a connection is driven: when it is over, each reporter of its pipeline has reported the
end once, in order, the session is closed, and unless a call failed, what was written are the frames
that were queued, with `close` queued behind them and nothing behind it. -/
theorem connection_winds_down (n : Node σ) (s : Setting σ) (acts : List (DriveAct σ))
    (hsteady : ∀ r ∈ s.reactors, r.Steady) (hspares : ∀ a ∈ acts, a.Spares ⟨n.channels.length⟩)
    (hover : ((Drive.start n s).run acts).connection.isOver = true) :
    ∃ ch, ((Drive.start n s).run acts).node.channel? ⟨n.channels.length⟩ = some ch ∧
      ch.session.isClosed = true ∧ ch.finished = true ∧
      ((Drive.start n s).run acts).node.farewells ⟨n.channels.length⟩ =
        n.farewells ⟨n.channels.length⟩ ++ s.reactors.filterMap Reactor.reporter? ∧
      (¬ ((Drive.start n s).run acts).connection.sink.Failed → ∃ frames : List ByteArray,
        ((Drive.start n s).run acts).log = frames.map .bytes ++ [.close] ∧
          ((Drive.start n s).run acts).connection.sink.written = joined .empty frames) := by
  obtain ⟨ch₀, hstart⟩ := driven_start n s hsteady
  obtain ⟨ch, hbooked, hreading, hlogged⟩ := hstart.run acts hspares
  have hchannel : ((Drive.start n s).run acts).connection.channel = ⟨n.channels.length⟩ :=
    channel_run _ acts
  rw [hchannel] at hbooked
  simp only [Connection.isOver, Bool.and_eq_true, Bool.not_eq_true'] at hover
  have hfinished := hreading hover.1
  refine ⟨ch, hbooked.here, hbooked.ended hfinished, hfinished, ?_, (hlogged.stopped hover.2).2.2⟩
  have htold := hbooked.told
  rw [Channel.owed_of_finished hfinished, List.append_nil] at htold
  exact htold

/-- A responder is greeted and says something, and then its stream ends. -/
def briefVisit : List (DriveAct Unit) :=
  [.arrive (.bytes Header.bytes), .turn 0 false, .turn 0 false, .turn 0 false,
    .elsewhere (.operate ⟨0⟩ (.write (.frame .fetch))), .arrive .endOfStream, .turn 0 false, .write]

def briefSetting : Setting Unit :=
  ⟨.responder, true, 0, {}, [.eventLog, .detachOnException, .connectionObserver], some 1, none,
    none, ""⟩

theorem connection_winds_down_briefVisit :
    ∃ ch, ((Drive.start (.start ()) briefSetting).run briefVisit).node.channel? ⟨0⟩ = some ch ∧
      ch.session.isClosed = true ∧ ch.finished = true ∧
      ((Drive.start (.start ()) briefSetting).run briefVisit).node.farewells ⟨0⟩ =
        [.eventLog, .connectionObserver] ∧
      ∃ frames : List ByteArray,
        ((Drive.start (.start ()) briefSetting).run briefVisit).log =
          frames.map .bytes ++ [.close] ∧
        ((Drive.start (.start ()) briefSetting).run briefVisit).connection.sink.written =
          joined .empty frames := by
  have hsteady : ∀ r ∈ briefSetting.reactors, r.Steady := by
    intro r hr
    simp only [briefSetting, List.mem_cons, List.not_mem_nil, or_false] at hr
    obtain rfl | rfl | rfl := hr <;> trivial
  have hspares : ∀ a ∈ briefVisit, a.Spares ⟨0⟩ := by
    intro a ha
    simp only [briefVisit, List.mem_cons, List.not_mem_nil, or_false] at ha
    obtain rfl | rfl | rfl | rfl | rfl | rfl | rfl | rfl := ha <;> trivial
  have hsink : let sink := ((Drive.start (.start ()) briefSetting).run briefVisit).connection.sink
      sink.failingWrite = none ∧ sink.failingFlush = none ∧ sink.limit = some 1 := by
    decide +kernel
  have hfailed :
      ¬ ((Drive.start (.start ()) briefSetting).run briefVisit).connection.sink.Failed := by
    rintro (⟨k, hk, -⟩ | ⟨k, hk, -⟩ | ⟨hlimit, -⟩)
    · exact absurd (hk.symm.trans hsink.1) nofun
    · exact absurd (hk.symm.trans hsink.2.1) nofun
    · exact absurd (hlimit.symm.trans hsink.2.2) (by decide)
  obtain ⟨ch, hch, hclosed, hfinished, htold, hwritten⟩ := connection_winds_down (.start ())
    briefSetting briefVisit hsteady hspares (by decide +kernel)
  exact ⟨ch, hch, hclosed, hfinished, htold, hwritten hfailed⟩

end Courier
