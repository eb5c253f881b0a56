import Courier.Proofs.Connection.Deeds
import Courier.Proofs.Connection.WindDown
import Courier.Server

/-! # A connection on a clock

A server serves a connection while time passes: bytes arrive, the connection takes turns, its writer
writes, and anything else is done in the node. Working takes no time: time passes only when there is
nothing to do, and it stops when the deadline is to be checked. Nobody tells the connection to stop.
What holds at the start and is kept by each move holds of every run (`Service.run_keeps`). Whatever is
done, a session that is identified or closed stays so, and a connection that takes no more turns has
closed it (`alive_run`).
-/
set_option autoImplicit false

namespace Courier

open Courier.Wire Courier.Stream Courier.Routing

variable {σ : Type}

/-! ## Runs -/

/-- What was done, when, and in which phase of the session. -/
structure TimedDeed where
  time : Nat
  phase : Phase
  deed : Deed

/-- A connection that is served, what has arrived on it, and what it has done. -/
structure Service (σ : Type) where
  connection : Connection
  node : Node σ
  now : Nat
  arrived : List Arrival
  record : List TimedDeed

inductive ServiceAct (σ : Type) where
  | arrive (a : Arrival)
  | turn
  /-- The writer writes what is queued. -/
  | write
  | elsewhere (a : NodeAct σ)
  | pass (span : Nat)

/-- It is the connection's own, or its peer's. -/
def ServiceAct.isOwn : ServiceAct σ → Bool
  | elsewhere _ => false
  | _ => true

namespace Service

def start (w : ServerWiring σ) (now : Nat) (n : Node σ) : Service σ :=
  let (k, n) := accept w now n
  ⟨k, n, now, [], []⟩

variable (s : Service σ)

/-- The session's phase; where no channel is, it is closed. -/
def phase : Phase :=
  ((s.node.channel? s.connection.channel).map (·.session.phase)).getD .closed

/-- There is nothing to do: no turn to take and nothing to write. -/
def atRest : Bool :=
  (s.connection.turn s.now false s.node).isNone &&
    !(s.connection.writing &&
      !(((s.node.channel? s.connection.channel).map (·.queue.isEmpty)).getD true))

/-- Nothing is to be checked before this time. -/
def mayPassTo (time : Nat) : Bool := !s.connection.reading || time ≤ s.connection.nextTick

/-- A deed is done, and recorded. -/
def did (d : Deed) : Service σ :=
  let (k, n) := s.connection.perform s.now s.node d
  { s with connection := k, node := n, record := s.record ++ [⟨s.now, s.phase, d⟩] }

def wrote : Service σ :=
  let (k, n) := s.connection.drain s.node
  { s with connection := k, node := n }

/-- The frames that were taken, in order. -/
def frames : List Frame := s.record.filterMap (·.deed.frame?)

/-- The times at which the deadline was checked. -/
def ticks (record : List TimedDeed) : List Nat :=
  (record.filter (·.deed.isTick)).map (·.time)

/-- What comes of an act; none if it cannot be done now. The end of the connection is told by nobody
else. -/
def step : ServiceAct σ → Option (Service σ)
  | .arrive a => some { s with
      connection := { s.connection with arrivals := s.connection.arrivals ++ [a] }
      arrived := s.arrived ++ [a] }
  | .turn => (s.connection.turn s.now false s.node).bind fun (k, n) =>
    (s.connection.deed? s.now s.node).map fun d =>
      { s with connection := k, node := n, record := s.record ++ [⟨s.now, s.phase, d⟩] }
  | .write => some s.wrote
  | .elsewhere (.operate _ (.dispatch .disconnected)) => none
  | .elsewhere a => some { s with node := a.perform s.node }
  | .pass span =>
    if s.atRest && s.mayPassTo (s.now + span) then some { s with now := s.now + span } else none

def run : Service σ → List (ServiceAct σ) → Option (Service σ)
  | s, [] => some s
  | s, a :: acts => (s.step a).bind (run · acts)

theorem step_turn : s.step .turn = (s.connection.deed? s.now s.node).map s.did := by
  rw [step, Connection.turn_eq]
  cases s.connection.deed? s.now s.node <;> rfl

variable {s} {s' s'' : Service σ} {acts more : List (ServiceAct σ)}

theorem run_append : s.run (acts ++ more) = (s.run acts).bind (·.run more) := by
  induction acts generalizing s with
  | nil => rfl
  | cons a acts ih =>
    rw [List.cons_append, run, run]
    cases s.step a with
    | none => rfl
    | some s₁ => exact ih

theorem run_cons_eq_some_iff {a : ServiceAct σ} :
    s.run (a :: acts) = some s'' ↔ ∃ s', s.step a = some s' ∧ s'.run acts = some s'' :=
  Option.bind_eq_some_iff

/-- A connection that reads and has nothing to do waits. -/
theorem waits_of_atRest (h : s.atRest = true) (hreading : s.connection.reading = true)
    (hinterval : 0 < s.connection.interval) : s.now < s.connection.nextTick ∧
      s.connection.Waits ∧ s.connection.arrivals = [] := by
  refine Connection.waits_of_deed?_eq_none (n := s.node) ?_ hreading hinterval
  have hturn := Option.isNone_iff_eq_none.1 (Bool.and_eq_true_iff.1 h).1
  rw [Connection.turn_eq] at hturn
  exact Option.map_eq_none_iff.1 hturn

/-- What is read off the end of a run. -/
theorem eq_of_run {α : Type} {a : α} (h : s.run acts = some s') (f : Service σ → α)
    (hf : (s.run acts).map f = some a) : f s' = a := by
  rw [h] at hf
  exact Option.some.inj hf

/-! ## Moves -/

/-- The ways of going on. -/
inductive Move (s : Service σ) : Service σ → Prop where
  | arrive (a : Arrival) : Move s { s with
      connection := { s.connection with arrivals := s.connection.arrivals ++ [a] }
      arrived := s.arrived ++ [a] }
  | turn {d : Deed} (h : s.connection.deed? s.now s.node = some d) : Move s (s.did d)
  | write : Move s s.wrote
  | elsewhere {a : NodeAct σ} (h : ∀ c, a ≠ .operate c (.dispatch .disconnected)) :
      Move s { s with node := a.perform s.node }
  | pass {span : Nat} (hrest : s.atRest = true) (h : s.mayPassTo (s.now + span) = true) :
      Move s { s with now := s.now + span }

theorem move_of_step {a : ServiceAct σ} (h : s.step a = some s') : s.Move s' := by
  cases a with
  | arrive a =>
    cases h
    exact .arrive a
  | turn =>
    obtain ⟨d, hd, rfl⟩ := Option.map_eq_some_iff.1 (s.step_turn ▸ h)
    exact .turn hd
  | write =>
    cases h
    exact .write
  | elsewhere a =>
    by_cases htells : ∃ c, a = .operate c (.dispatch .disconnected)
    · obtain ⟨c, rfl⟩ := htells
      cases h
    · rw [step] at h
      · cases h
        exact .elsewhere fun c hc => htells ⟨c, hc⟩
      · exact fun c hc => htells ⟨c, hc⟩
  | pass span =>
    rw [step] at h
    split at h
    · rename_i hboth
      cases h
      obtain ⟨hrest, hdue⟩ := Bool.and_eq_true_iff.1 hboth
      exact .pass hrest hdue
    · cases h

/-- What each of these acts keeps holds at the end of a run of them. -/
theorem run_keeps_among {P : Service σ → Prop} {A : ServiceAct σ → Prop}
    (hP : ∀ {s s' : Service σ} {a : ServiceAct σ}, A a → s.step a = some s' → P s → P s')
    (hacts : ∀ a ∈ acts, A a) (h : s.run acts = some s') (hs : P s) : P s' := by
  induction acts generalizing s with
  | nil =>
    cases h
    exact hs
  | cons a acts ih =>
    obtain ⟨s₁, hstep, hrest⟩ := run_cons_eq_some_iff.1 h
    obtain ⟨ha, hacts⟩ := List.forall_mem_cons.1 hacts
    exact ih hacts hrest (hP ha hstep hs)

/-- What each move keeps holds at the end of a run. -/
theorem run_keeps {P : Service σ → Prop} (hP : ∀ {s s' : Service σ}, s.Move s' → P s → P s')
    (h : s.run acts = some s') (hs : P s) : P s' :=
  run_keeps_among (A := fun _ => True) (fun _ hstep => hP (move_of_step hstep)) (fun _ _ => trivial)
    h hs

end Service

/-! ## The channel in the meantime -/

/-- The handshake is over, one way or the other. -/
def Session.Past (s : Session) : Prop := s.phase = .identified ∨ s.phase = .closed

namespace Channel

/-- The second is the first at a later time, but for what is queued and by whom it is taken. -/
structure Onward (ch ch' : Channel σ) : Prop where
  timing : ch'.session.timing = ch.session.timing
  startedAt : ch'.session.startedAt = ch.session.startedAt
  past : ch.session.Past → ch'.session.Past
  closed : ch.session.isClosed = true → ch'.session.isClosed = true
  shown : ch.published = ch.session.phase → ch'.published = ch'.session.phase
  ended : (ch.finished = true → ch.session.isClosed = true) →
    ch'.finished = true → ch'.session.isClosed = true

variable {c : ChannelId} {ch ch' ch'' : Channel σ}

theorem onward_of_session (hsession : ch'.session = ch.session)
    (hshown : ch'.published = ch.published) (hfinished : ch'.finished = ch.finished) :
    ch.Onward ch' := by
  refine ⟨?_, ?_, ?_, ?_, ?_, ?_⟩ <;> simp only [hsession, hshown, hfinished, imp_self]

theorem Onward.trans (h : ch.Onward ch') (h' : ch'.Onward ch'') : ch.Onward ch'' :=
  ⟨h'.timing.trans h.timing, h'.startedAt.trans h.startedAt, fun hp => h'.past (h.past hp),
    fun hc => h'.closed (h.closed hc), fun hs => h'.shown (h.shown hs),
    fun he => h'.ended (h.ended he)⟩

theorem Change.schedule (h : ch.Change c ch') : ch'.session.timing = ch.session.timing ∧
    ch'.session.startedAt = ch.session.startedAt := by
  cases h with
  | enqueue h =>
    obtain ⟨-, -, rfl⟩ := enqueue_eq_ok h
    exact ⟨rfl, rfl⟩
  | session h => exact h.schedule
  | shut goodbye =>
    rw [session_shut]
    exact ⟨rfl, rfl⟩
  | _ => exact ⟨rfl, rfl⟩

theorem Change.past (h : ch.Change c ch') (hpast : ch.session.Past) : ch'.session.Past := by
  cases h with
  | enqueue h =>
    obtain ⟨-, -, rfl⟩ := enqueue_eq_ok h
    exact hpast
  | session h => exact absurd hpast (not_or.2 h.phase)
  | shut goodbye =>
    rw [session_shut]
    exact .inr rfl
  | _ => exact hpast

end Channel

namespace Node

variable {n n' : Node σ} {c : ChannelId} {ch : Channel σ}

theorem Conducts.onward (h : n.Conducts c n') (hch : n.channel? c = some ch) :
    ∃ ch', n'.channel? c = some ch' ∧ ch.Onward ch' := by
  obtain ⟨ch', hch', hlater⟩ := h.2.later.channel c ch hch
  have hkept {P : Channel σ → Prop} (hP : ∀ {ch ch' : Channel σ}, ch.Change c ch' → P ch → P ch')
      (hp : P ch) : P ch' := by
    obtain ⟨ch₁, hch₁, hp₁⟩ := h.1.keeps hP hch hp
    cases hch'.symm.trans hch₁
    exact hp₁
  refine ⟨ch', hch', ?_, ?_, hkept Channel.Change.past, ?_, hlater.shown,
    h.2.ended ch ch' hch hch'⟩
  · exact hkept (P := fun x => x.session.timing = ch.session.timing)
      (fun hx ht => hx.schedule.1.trans ht) rfl
  · exact hkept (P := fun x => x.session.startedAt = ch.session.startedAt)
      (fun hx ht => hx.schedule.2.trans ht) rfl
  · intro hclosed
    rw [hlater.session hclosed]
    exact hclosed

/-- What a change of the queue or of the writer does not show. -/
theorem onward_modify (hch : n.channel? c = some ch) {f : Channel σ → Channel σ}
    (h : ch.Onward (f ch)) : ∃ ch', (n.modify c f).channel? c = some ch' ∧ ch.Onward ch' :=
  ⟨f ch, channel?_modify_of_some hch f, h⟩

theorem onward_abandon (hch : n.channel? c = some ch) (text : String) :
    ∃ ch', (abandon c text n).channel? c = some ch' ∧ ch.Onward ch' := by
  have hR := conducts_passage (σ := σ) c
  exact Conducts.onward (hR.trans (hR.raise c _ n) (hR.shut _ c false)) hch

theorem onward_elsewhere (hch : n.channel? c = some ch) {a : NodeAct σ}
    (h : ∀ c, a ≠ .operate c (.dispatch .disconnected)) :
    ∃ ch', (a.perform n).channel? c = some ch' ∧ ch.Onward ch' := by
  have hmodify (c' : ChannelId) {f : Channel σ → Channel σ} (hf : ch.Onward (f ch)) :
      ∃ ch', (n.modify c' f).channel? c = some ch' ∧ ch.Onward ch' := by
    by_cases hc : c' = c
    · subst hc
      exact onward_modify hch hf
    · exact ⟨ch, (n.channel?_modify_of_ne f (Ne.symm hc)).trans hch,
        Channel.onward_of_session rfl rfl rfl⟩
  cases a with
  | openChannel role now timing reactors =>
    have hlt := (List.getElem?_eq_some_iff.1 hch).1
    exact ⟨ch, (List.getElem?_append_left hlt).trans hch, Channel.onward_of_session rfl rfl rfl⟩
  | operate c' o =>
    have ho : o ≠ .dispatch .disconnected := by
      rintro rfl
      exact h c' rfl
    exact Conducts.onward ⟨changes_operation c' n o, endsOnce_operation c c' n ho⟩ hch
  | take c' => exact hmodify c' (Channel.onward_of_session rfl rfl rfl)
  | dropWriter c' => exact hmodify c' (Channel.onward_of_session rfl rfl rfl)

end Node

namespace Connection

variable {k : Connection} {n : Node σ} {ch : Channel σ}

theorem onward_drain (hch : n.channel? k.channel = some ch) :
    ∃ ch', (k.drain n).2.channel? k.channel = some ch' ∧ ch.Onward ch' := by
  have htaken := Node.onward_modify (f := fun ch : Channel σ => { ch with queue := .empty }) hch
    (Channel.onward_of_session rfl rfl rfl)
  obtain ⟨ch₁, hch₁, honward₁⟩ := htaken
  have hdrop {m : Node σ} {ch₂ : Channel σ} (hm : m.channel? k.channel = some ch₂)
      (h : ch.Onward ch₂) : ∃ ch', (m.modify k.channel Channel.dropWriter).channel? k.channel =
        some ch' ∧ ch.Onward ch' :=
    ⟨_, Node.channel?_modify_of_some hm _, h.trans (Channel.onward_of_session rfl rfl rfl)⟩
  unfold drain
  split
  · obtain ⟨cuts, s, hrun, -⟩ | ⟨cuts, b, rest, text, s₁, s, hrun, -⟩ :=
      writeItems_cases k.channel (n.takeQueue k.channel).1 k.sink (n.takeQueue k.channel).2
    · by_cases hclose : .close ∈ (n.takeQueue k.channel).1
      · simp only [hrun, hclose, if_true]
        exact hdrop hch₁ honward₁
      · simp only [hrun, hclose, if_false]
        exact ⟨ch₁, hch₁, honward₁⟩
    · simp only [hrun]
      obtain ⟨ch₂, hch₂, honward₂⟩ := Node.onward_abandon hch₁ text
      exact hdrop hch₂ (honward₁.trans honward₂)
  · exact ⟨ch, hch, Channel.onward_of_session rfl rfl rfl⟩

/-! ## Deeds -/

theorem turned_deed {R : Node σ → Node σ → Prop} (hR : Passage R) {now : Nat} {d : Deed}
    (h : k.deed? now n = some d) : Turned R k n (k.perform now n d) := by
  have hturn : k.turn now false n = some (k.perform now n d) := by
    rw [turn_eq, h]
    rfl
  exact turned_turn hR hturn

theorem interval_perform (now : Nat) (d : Deed) :
    (k.perform now n d).1.interval = k.interval := by
  cases d with
  | take f next closed =>
    unfold perform
    simp only []
    split <;> rfl
  | _ => rfl

end Connection

/-- Of the connection, only the writer changes while it writes. -/
theorem Service.connection_wrote (s : Service σ) :
    ∃ writing sink, s.wrote.connection = { s.connection with writing, sink } := by
  have hwrote : s.wrote.connection = (s.connection.drain s.node).1 := rfl
  rw [hwrote, Connection.drain]
  split
  · simp only []
    split <;> exact ⟨_, _, rfl⟩
  · exact ⟨_, _, rfl⟩

/-! ## A served connection -/

/-- The connection, and the channel that it drives. -/
structure Alive (w : ServerWiring σ) (start : Nat) (c : ChannelId) (s : Service σ)
    (ch : Channel σ) : Prop where
  channel : s.connection.channel = c
  interval : s.connection.interval = w.timing.tickInterval
  here : s.node.channel? c = some ch
  timing : ch.session.timing = w.timing
  startedAt : ch.session.startedAt = start
  shown : ch.published = ch.session.phase
  ended : ch.finished = true → ch.session.isClosed = true
  closed : s.connection.reading = false → ch.session.isClosed = true

namespace Alive

variable {w : ServerWiring σ} {start : Nat} {c : ChannelId} {s s' : Service σ} {ch ch' : Channel σ}

theorem phase (h : Alive w start c s ch) : s.phase = ch.session.phase := by
  rw [Service.phase, h.channel, h.here]
  rfl

theorem isClosed (h : Alive w start c s ch) :
    s.node.isClosed s.connection.channel = ch.session.isClosed := by
  rw [h.channel, Node.isClosed, h.here, Session.isClosed, ← h.shown]
  rfl

theorem onward (h : Alive w start c s ch) (honward : ch.Onward ch')
    (hch : s'.node.channel? c = some ch') (hchannel : s'.connection.channel = s.connection.channel)
    (hinterval : s'.connection.interval = s.connection.interval)
    (hover : s'.connection.reading = false → ch'.session.isClosed = true) :
    Alive w start c s' ch' :=
  ⟨hchannel.trans h.channel, hinterval.trans h.interval, hch, honward.timing.trans h.timing,
    honward.startedAt.trans h.startedAt, honward.shown h.shown, honward.ended h.ended, hover⟩

theorem move (h : Alive w start c s ch) (hmove : s.Move s') :
    ∃ ch', Alive w start c s' ch' ∧ ch.Onward ch' := by
  have hself : ch.Onward ch := Channel.onward_of_session rfl rfl rfl
  obtain rfl := h.channel
  cases hmove with
  | arrive a => exact ⟨ch, h.onward hself h.here rfl rfl h.closed, hself⟩
  | pass hrest hdue => exact ⟨ch, h.onward hself h.here rfl rfl h.closed, hself⟩
  | turn hd =>
    rename_i d
    obtain ⟨hchannel, -, -, hmoves, hstops⟩ := Connection.turned_deed (conducts_passage _) hd
    obtain ⟨ch', hch', honward⟩ := hmoves.onward h.here
    refine ⟨ch', h.onward honward hch' hchannel (Connection.interval_perform _ d) ?_, honward⟩
    intro hreading
    obtain hsame | ⟨m, hm, hfinish⟩ := hstops
    · -- The connection was still reading, or there would have been no turn.
      have hstill := (Connection.due_of_deed? hd).1
      exact nomatch (hsame.trans hstill).symm.trans hreading
    · obtain ⟨ch₁, hch₁, -⟩ := hm.onward h.here
      obtain ⟨ch₂, hch₂, hfinished⟩ := Node.finished_finish hch₁
      rw [← hfinish, hch'] at hch₂
      cases hch₂
      exact honward.ended h.ended hfinished
  | write =>
    obtain ⟨ch', hch', honward⟩ := Connection.onward_drain h.here
    obtain ⟨writing, sink, hconnection⟩ := s.connection_wrote
    refine ⟨ch', h.onward honward hch' ?_ ?_ fun hr => honward.closed (h.closed ?_), honward⟩
    · rw [hconnection]
    · rw [hconnection]
    · rwa [hconnection] at hr
  | elsewhere hnot =>
    obtain ⟨ch', hch', honward⟩ := Node.onward_elsewhere h.here hnot
    exact ⟨ch', h.onward honward hch' rfl rfl fun hr => honward.closed (h.closed hr), honward⟩

end Alive

theorem alive_start (w : ServerWiring σ) (now : Nat) (n : Node σ) :
    Alive w now ⟨n.channels.length⟩ (.start w now n)
      (.start (.start .responder now w.timing) w.pipeline) := by
  refine ⟨rfl, rfl, ?_, rfl, rfl, rfl, (fun h => nomatch h), (fun h => nomatch h)⟩
  show (n.channels ++ [_])[n.channels.length]? = _
  simp

end Courier
