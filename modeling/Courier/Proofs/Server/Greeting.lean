import Courier.Proofs.Connection.Deadline
import Courier.Proofs.Server.Attachments

/-! # Nothing is interpreted before the header

A peer whose bytes do not begin with the header is turned away: its connection is told one fault and
its end, writes a goodbye, and leaves no other trace (`header_comes_first`). Until then the server is
as it was when it accepted the connection (`Untouched`), and afterwards it is the same but for what
the event log has reported (`Away`). Behind a header, the frames are those that follow it.
-/
set_option autoImplicit false

namespace Courier

open Courier.Wire Courier.Stream Courier.Routing

variable {σ : Type}

/-- The place of the channel that comes next. -/
abbrev Node.nextChannel (n : Node σ) : ChannelId := ⟨n.channels.length⟩

/-! ## Turning a peer away -/

section turnedAway

variable {n : Node σ} {c : ChannelId} {ch : Channel σ} {l : Ledger} {w : ServerWiring σ}

/-- What the event log reports when a fault has ended a channel. -/
def farewell (c : ChannelId) (role : Role) (f : Fault) : List Notice :=
  [⟨.eventLog, c, role, .exception f⟩, ⟨.eventLog, c, role, .event .disconnected⟩]

/-- A fault that is raised on a server's channel is told to the event log. -/
theorem raise_eq (hch : n.channel? c = some ch) (hw : ch.Wired l (serverRest w)) (f : Fault) :
    (raise c f n).channel? c = some (ch.failed f) ∧ (raise c f n).registry = n.registry ∧
      (raise c f n).policy = n.policy ∧
      (raise c f n).notices.toList =
        n.notices.toList ++ [⟨.eventLog, c, ch.session.role, .exception f⟩] := by
  have hyields := Node.Yields.failed .full hch hw f
  refine ⟨hyields.self, hyields.registry, hyields.policy, ?_⟩
  have hremembered := Node.channel?_modify_of_some hch (·.remember f)
  have hnoted := ((n.modify c (·.remember f)).channel?_note c c .eventLog (.exception f)).trans
    hremembered
  rw [raise, raiseWith_eq ⟨ch, hch, hw⟩, refuse_eq hnoted, Node.note, hremembered]
  exact Backlog.toList_push _ _

/-- A server's channel that is finished is told its end, and attached to nothing. -/
theorem finish_eq (hch : n.channel? c = some ch) (hw : ch.Wired l (serverRest w))
    (hnew : ¬ ch.finished = true) :
    (finish c n).channel? c = some { ch with finished := true }.close ∧
      (finish c n).registry = n.registry.release c ∧ (finish c n).policy = n.policy ∧
      (finish c n).notices.toList =
        n.notices.toList ++ [⟨.eventLog, c, ch.session.role, .event .disconnected⟩] := by
  have hover := Channel.over_shut { ch with finished := true } false
  have hclosed : ({ ch with finished := true }.close).Wired l (serverRest w) :=
    hw.of_reactors_eq hover.reactors
  have hself := Node.channel?_modify_of_some hch fun _ => { ch with finished := true }.close
  have hrole : ({ ch with finished := true }.close).session.role = ch.session.role := by
    have hsame := congrArg Session.role hover.session
    exact hsame
  rw [Node.finish_of_not_finished hch hnew, dispatchWith_eq later_rule.ended ⟨_, hself, hclosed⟩,
    reaction_disconnected]
  refine ⟨?_, ?_, ?_, ?_⟩
  · show (Node.note _ c _ _).channel? c = _
    rw [Node.channel?_note, hself]
  · show (Node.note _ c _ _).registry.release c = _
    rw [Node.registry_note]
    rfl
  · show (Node.note _ c _ _).policy = _
    rw [Node.policy_note]
    rfl
  · show (Node.note _ c _ _).notices.toList = _
    rw [Node.note, hself, ← hrole]
    exact Backlog.toList_push _ _

end turnedAway

/-- The channel of a connection that has just been accepted. -/
def newChannel (w : ServerWiring σ) (now : Nat) : Channel σ :=
  .start (.start .responder now w.timing) w.pipeline

section accepted

variable (w : ServerWiring σ) (start : Nat) (n : Node σ)

/-- The node when a connection has been accepted, and a fault has ended it. -/
def turnedAway (f : Fault) : Node σ :=
  finish n.nextChannel (raise n.nextChannel f (accept w start n).2)

theorem channel?_accept_new :
    (accept w start n).2.channel? n.nextChannel = some (newChannel w start) := by
  show (n.channels ++ [_])[n.channels.length]? = _
  simp [newChannel]

theorem wired_newChannel : (newChannel w start).Wired .empty (serverRest w) :=
  ⟨server_pipeline_eq w, plain_serverRest w⟩

/-- A peer is turned away with a goodbye. -/
theorem turnedAway_spec {f : Fault} (hf : refusal? f = none) :
    (turnedAway w start n f).registry = n.registry.release n.nextChannel ∧
      (turnedAway w start n f).policy = n.policy ∧
      (turnedAway w start n f).notices.toList =
        n.notices.toList ++ farewell n.nextChannel .responder f ∧
      ∃ ch, (turnedAway w start n f).channel? n.nextChannel = some ch ∧
        ch.session.phase = .closed ∧ ch.queue.toList = [Channel.goodbye, .close] := by
  have hch := channel?_accept_new w start n
  have hw := wired_newChannel w start
  obtain ⟨hself, hregistry, hpolicy, hnotices⟩ := raise_eq hch hw f
  have hfailed : (newChannel w start).failed f = ((newChannel w start).remember f).detach := by
    rw [Channel.failed, Channel.refused, hf]
  have hreactors : ((newChannel w start).failed f).reactors = (newChannel w start).reactors := by
    rw [hfailed]
    exact Channel.reactors_shut _ true
  obtain ⟨hself', hregistry', hpolicy', hnotices'⟩ :=
    finish_eq (w := w) hself (hw.of_reactors_eq hreactors) (by rw [hfailed]; exact Bool.false_ne_true)
  refine ⟨?_, hpolicy'.trans hpolicy, ?_, _, hself', ?_, ?_⟩
  · exact hregistry'.trans (by rw [hregistry]; rfl)
  · rw [turnedAway, hnotices', hnotices, List.append_assoc, hfailed]
    rfl
  · rw [hfailed]
    rfl
  · rw [hfailed]
    rfl

end accepted

/-- Nobody is attached in the place of the next channel. -/
theorem Sound.not_mem_channels {n : Node σ} (h : Sound n) (a : Address) :
    n.nextChannel ∉ n.registry.channels a := by
  intro hmem
  have hidentity := h.attached.channels hmem
  simp [Node.identity?, Node.channel?] at hidentity

/-! ## The connection meanwhile -/

/-- The node when a channel's writer has taken everything and is gone. -/
def Node.drained (n : Node σ) (c : ChannelId) : Node σ :=
  (n.takeQueue c).2.modify c Channel.dropWriter

theorem Node.channel?_drained {n : Node σ} {c : ChannelId} {ch : Channel σ}
    (hch : n.channel? c = some ch) : (n.drained c).channel? c = some ch.dropWriter :=
  Node.channel?_modify_of_some (Node.channel?_modify_of_some hch _) Channel.dropWriter

/-- A goodbye and `close` are one byte, a flush and a shutdown. -/
theorem writeItems_goodbye (c : ChannelId) (n : Node σ) :
    ∃ sink, writeItems c [Channel.goodbye, .close] .unlimited n = (.stopped, sink, n) ∧
      sink.calls.toList = [.write ⟨#[0xFF]⟩, .flush, .shutdown] := ⟨_, rfl, by decide⟩

section outset

variable (w : ServerWiring σ) (start : Nat) (n : Node σ)

/-- The connection has done nothing but look at the clock and take bytes. -/
structure Untouched (s : Service σ) : Prop where
  channel : s.connection.channel = n.nextChannel
  node : s.node = (accept w start n).2
  reading : s.connection.reading = true
  greeted : s.connection.greeted = false
  writing : s.connection.writing = true
  sink : s.connection.sink = .unlimited
  interval : s.connection.interval = w.timing.tickInterval

/-- A fault has ended the connection before it had the header. -/
structure Away (f : Fault) (s : Service σ) : Prop where
  channel : s.connection.channel = n.nextChannel
  reading : s.connection.reading = false
  greeted : s.connection.greeted = false
  writes :
    s.connection.writing = true ∧ s.connection.sink = .unlimited ∧
      s.node = turnedAway w start n f ∨
    s.connection.writing = false ∧
      s.connection.sink.calls.toList = [.write ⟨#[0xFF]⟩, .flush, .shutdown] ∧
      s.node = (turnedAway w start n f).drained n.nextChannel

/-- What an untouched connection can do. -/
inductive Opening (s : Service σ) : Deed → Prop where
  | check (hdue : s.connection.nextTick ≤ s.now) (h : Untouched w start n (s.did .check)) :
      Opening s .check
  | timeOut {elapsed : Nat} (hlate : start + w.timing.handshakeTimeout < s.now)
      (h : Away w start n (.handshakeTimeout elapsed) (s.did (.timeOut elapsed))) :
      Opening s (.timeOut elapsed)
  | greet (next : Reader) : Opening s (.greet next)
  | feed {b : ByteArray} {rest : List Arrival} (harrivals : s.connection.arrivals = .bytes b :: rest)
      (h : Untouched w start n (s.did (.feed b))) : Opening s (.feed b)
  | refuse {f : ReadFault} (h : Away w start n (.read f) (s.did (.refuse f))) :
      Opening s (.refuse f)

end outset

variable {w : ServerWiring σ} {start : Nat} {n : Node σ} {s s' : Service σ}

theorem untouched_start : Untouched w start n (.start w start n) :=
  ⟨rfl, rfl, rfl, rfl, rfl, rfl, rfl⟩

namespace Untouched

theorem here (h : Untouched w start n s) :
    s.node.channel? s.connection.channel = some (newChannel w start) := by
  rw [h.node, h.channel]
  exact channel?_accept_new w start n

/-- A fault turns the peer away. -/
theorem away (h : Untouched w start n s) (f : Fault) {record : List TimedDeed} :
    Away w start n f { s with
      connection := (s.connection.abort f s.node).1
      node := (s.connection.abort f s.node).2
      record } := by
  refine ⟨h.channel, rfl, h.greeted, .inl ⟨h.writing, h.sink, ?_⟩⟩
  show finish s.connection.channel (raise s.connection.channel f s.node) = _
  rw [h.channel, h.node]
  rfl

theorem opening (h : Untouched w start n s) {d : Deed}
    (hd : s.connection.deed? s.now s.node = some d) : Opening w start n s d := by
  obtain ⟨-, -, hdue⟩ := Connection.due_of_deed? hd
  have hungreeted (hgreeted : s.connection.greeted = true) : False := by
    cases h.greeted.symm.trans hgreeted
  cases hdue with
  | leave hclosed =>
    rw [Node.isClosed, h.here] at hclosed
    cases hclosed
  | tick hopen hdue =>
    by_cases hlate : w.timing.handshakeTimeout < s.now - start
    · have hover : (newChannel w start).session.overrun? s.now = some (s.now - start) :=
        Session.overrun?_of_late (by simp [Session.Past, newChannel, Channel.start, Session.start])
          hlate
      rw [Connection.tickDeed_of_overrun _ _ _ h.here hover]
      exact .timeOut (by omega) (h.away _)
    · have hover : (newChannel w start).session.overrun? s.now = none :=
        Session.overrun?_of_early (Nat.not_lt.1 hlate)
      rw [Connection.tickDeed_of_intime _ _ _ h.here hover]
      exact .check hdue ⟨h.channel, h.node, h.reading, h.greeted, h.writing, h.sink, h.interval⟩
  | read hopen hearly hreads =>
    cases hreads with
    | greet => exact .greet _
    | take hgreeted => exact (hungreeted hgreeted).elim
    | feed hwaits harrivals =>
      exact .feed harrivals
        ⟨h.channel, h.node, h.reading, h.greeted, h.writing, h.sink, h.interval⟩
    | depart hgreeted => exact (hungreeted hgreeted).elim
    | malformed => exact .refuse (h.away _)
    | cutOff => exact .refuse (h.away _)

/-- There is nothing to write. -/
theorem wrote (h : Untouched w start n s) : Untouched w start n s.wrote := by
  have hqueue : s.node.takeQueue s.connection.channel = ([], s.node) := by
    rw [Node.takeQueue, h.here, Node.modify_eq_const h.here]
    refine Prod.ext rfl ?_
    exact Node.modify_const_self _ _ h.here
  have hdrain : s.connection.drain s.node = (s.connection, s.node) := by
    unfold Connection.drain
    rw [if_pos h.writing, hqueue]
    rfl
  have hwrote : s.wrote = s := by
    unfold Service.wrote
    rw [hdrain]
  rwa [hwrote]

end Untouched

namespace Away

variable {f : Fault}

/-- What is left of the connection. -/
theorem trace (hf : refusal? f = none) (h : Away w start n f s) : s.phase = .closed ∧
    s.node.registry = n.registry.release n.nextChannel ∧ s.node.policy = n.policy ∧
    s.node.notices.toList =
      n.notices.toList ++ farewell n.nextChannel .responder f := by
  obtain ⟨hregistry, hpolicy, hnotices, ch, hch, hphase, -⟩ := turnedAway_spec w start n hf
  rw [Service.phase, h.channel]
  obtain ⟨-, -, hnode⟩ | ⟨-, -, hnode⟩ := h.writes
  · rw [hnode, hch]
    exact ⟨hphase, hregistry, hpolicy, hnotices⟩
  · rw [hnode, Node.channel?_drained hch]
    exact ⟨hphase, hregistry, hpolicy, hnotices⟩

/-- The goodbye is written, once. -/
theorem wrote (hf : refusal? f = none) (h : Away w start n f s) :
    Away w start n f s.wrote ∧ s.wrote.connection.writing = false := by
  obtain ⟨hwriting, hsink, hnode⟩ | ⟨hwriting, hcalls, hnode⟩ := h.writes
  · obtain ⟨-, -, -, ch, hch, -, hqueue⟩ := turnedAway_spec w start n hf
    have hitems : ((turnedAway w start n f).takeQueue n.nextChannel).1 =
        [Channel.goodbye, .close] := by
      rw [Node.takeQueue, hch]
      exact hqueue
    obtain ⟨sink, hrun, hcalls⟩ := writeItems_goodbye n.nextChannel
      ((turnedAway w start n f).takeQueue n.nextChannel).2
    have hdrain : s.connection.drain s.node = ({ s.connection with sink, writing := false },
        (turnedAway w start n f).drained n.nextChannel) := by
      unfold Connection.drain
      rw [if_pos hwriting]
      simp only [h.channel, hnode, hsink, hitems, hrun, Node.drained]
    have hwrote : s.wrote = { s with
        connection := (s.connection.drain s.node).1, node := (s.connection.drain s.node).2 } := rfl
    rw [hwrote, hdrain]
    exact ⟨⟨h.channel, h.reading, h.greeted, .inr ⟨rfl, hcalls, rfl⟩⟩, rfl⟩
  · have hdrain : s.connection.drain s.node = (s.connection, s.node) := by
      unfold Connection.drain
      rw [if_neg (by simp [hwriting])]
    have hwrote : s.wrote = s := by
      unfold Service.wrote
      rw [hdrain]
    rw [hwrote]
    exact ⟨h, hwriting⟩

theorem deed?_eq_none (h : Away w start n f s) : s.connection.deed? s.now s.node = none := by
  simp [Connection.deed?, h.reading]

/-- There is nothing to do once the goodbye has been written, and not before. -/
theorem atRest_eq (hf : refusal? f = none) (h : Away w start n f s) :
    s.atRest = !s.connection.writing := by
  have hturn : s.connection.turn s.now false s.node = none := by
    rw [Connection.turn_eq, h.deed?_eq_none]
    rfl
  unfold Service.atRest
  rw [hturn, h.channel]
  obtain ⟨hwriting, -, hnode⟩ | ⟨hwriting, -, -⟩ := h.writes
  · obtain ⟨-, -, -, ch, hch, -, hqueue⟩ := turnedAway_spec w start n hf
    have hempty : ch.queue.isEmpty = false := by
      rw [← Backlog.isEmpty_toList, hqueue]
      rfl
    simp [hwriting, hnode, hch, hempty]
  · simp [hwriting]

end Away

/-! ## Runs -/

/-- What can have become of a connection that only its peer has to do with. -/
inductive Outset (w : ServerWiring σ) (start : Nat) (n : Node σ) (s : Service σ) : Prop where
  | untouched (h : Untouched w start n s)
  | greeted (h : s.connection.greeted = true)
  | away {f : ReadFault} (h : Away w start n (.read f) s)
  | timedOut {elapsed : Nat} (hlate : start + w.timing.handshakeTimeout < s.now)
      (h : Away w start n (.handshakeTimeout elapsed) s)

theorem greeted_step {a : ServiceAct σ} (hstep : s.step a = some s')
    (h : s.connection.greeted = true) : s'.connection.greeted = true := by
  cases Service.move_of_step hstep with
  | turn hd => exact s.connection.greeted_perform s.now s.node _ h
  | write =>
    obtain ⟨writing, sink, hconnection⟩ := s.connection_wrote
    rw [hconnection]
    exact h
  | _ => exact h

theorem now_step {a : ServiceAct σ} (hstep : s.step a = some s') : s.now ≤ s'.now := by
  cases Service.move_of_step hstep with
  | pass => exact Nat.le_add_right _ _
  | _ => exact Nat.le_refl _

theorem Away.step {f : Fault} (hf : refusal? f = none) (h : Away w start n f s)
    {a : ServiceAct σ} (hown : a.isOwn = true) (hstep : s.step a = some s') :
    Away w start n f s' := by
  cases a with
  | arrive a =>
    cases hstep
    exact ⟨h.channel, h.reading, h.greeted, h.writes⟩
  | turn =>
    rw [s.step_turn, h.deed?_eq_none] at hstep
    cases hstep
  | write =>
    cases hstep
    exact (h.wrote hf).1
  | elsewhere a => cases hown
  | pass span =>
    rw [Service.step] at hstep
    split at hstep
    · cases hstep
      exact ⟨h.channel, h.reading, h.greeted, h.writes⟩
    · cases hstep

theorem Outset.step (h : Outset w start n s) {a : ServiceAct σ} (hown : a.isOwn = true)
    (hstep : s.step a = some s') : Outset w start n s' := by
  cases h with
  | greeted h => exact .greeted (greeted_step hstep h)
  | away h => exact .away (h.step rfl hown hstep)
  | timedOut hlate h =>
    exact .timedOut (Nat.lt_of_lt_of_le hlate (now_step hstep)) (h.step rfl hown hstep)
  | untouched h =>
    cases a with
    | arrive a =>
      cases hstep
      exact .untouched ⟨h.channel, h.node, h.reading, h.greeted, h.writing, h.sink, h.interval⟩
    | turn =>
      obtain ⟨d, hd, rfl⟩ := Option.map_eq_some_iff.1 (s.step_turn ▸ hstep)
      cases h.opening hd with
      | check hdue h => exact .untouched h
      | timeOut hlate h => exact .timedOut hlate h
      | greet next => exact .greeted rfl
      | feed harrivals h => exact .untouched h
      | refuse h => exact .away h
    | write =>
      cases hstep
      exact .untouched h.wrote
    | elsewhere a => cases hown
    | pass span =>
      rw [Service.step] at hstep
      split at hstep
      · cases hstep
        exact .untouched ⟨h.channel, h.node, h.reading, h.greeted, h.writing, h.sink, h.interval⟩
      · cases hstep

/-! ## Streams without the header -/

/-- The first bytes are not the header, or the stream has ended among them. -/
def Headless (arrived : List Arrival) : Prop :=
  Header.size ≤ (inflow arrived).size ∧
      (inflow arrived).extract 0 Header.size ≠ Header.bytes ∨
    (inflow arrived).size < Header.size ∧ ∃ a ∈ arrived, a.isEnd = true

/-- Nothing that follows makes up for it. -/
theorem Headless.append {arrived : List Arrival} (h : Headless arrived) (more : List Arrival) :
    Headless (arrived ++ more) := by
  unfold Headless
  rw [inflow_append]
  obtain ⟨hsize, hother⟩ | ⟨hsize, a, ha, hend⟩ := h
  · left
    split
    · exact ⟨hsize, hother⟩
    · rw [ByteArray.size_append, extract_append_of_le hsize]
      exact ⟨Nat.le_trans hsize (Nat.le_add_right _ _), hother⟩
  · right
    rw [if_pos (List.any_eq_true.2 ⟨a, ha, hend⟩)]
    exact ⟨hsize, a, List.mem_append_left _ ha, hend⟩

theorem Headless.step {a : ServiceAct σ} (hstep : s.step a = some s') (h : Headless s.arrived) :
    Headless s'.arrived := by
  cases Service.move_of_step hstep with
  | arrive a => exact h.append [a]
  | _ => exact h

theorem Headless.not_greeted (h : Headless s.arrived) (hintake : Intake s) :
    s.connection.greeted = false := by
  rw [Bool.eq_false_iff]
  intro hgreeted
  have hcheck := hintake.check_eq hgreeted (inflow s.connection.arrivals)
  rw [← hintake.input_eq] at hcheck
  obtain ⟨-, hother⟩ | ⟨hshort, -⟩ := h
  · exact hother (Header.check_eq_ok_iff.1 hcheck)
  · rw [Service.input, Header.check_of_size_lt hshort] at hcheck
    cases hcheck

section headless

variable (hinterval : 0 < w.timing.tickInterval)

include hinterval

/-- While a connection lacks the header and its stream is wrong, it has something to do. -/
theorem Untouched.due (h : Untouched w start n s) (hintake : Intake s)
    (hheadless : Headless s.arrived) : ∃ d, s.connection.deed? s.now s.node = some d := by
  by_contra hnone
  obtain ⟨-, hwaits, harrivals⟩ := Connection.waits_of_deed?_eq_none
    (Option.eq_none_iff_forall_ne_some.2 fun d hd => hnone ⟨d, hd⟩) h.reading
    (h.interval ▸ hinterval)
  have hshort := hintake.size_lt h.greeted hwaits harrivals
  obtain ⟨hlong, -⟩ | ⟨-, a, ha, hend⟩ := hheadless
  · exact Nat.not_lt.2 hlong hshort
  · have harrived := hintake.arrived
    rw [harrivals, List.append_nil] at harrived
    rw [harrived] at ha
    obtain ⟨b, -, rfl⟩ := List.mem_map.1 ha
    cases hend

theorem Untouched.atRest_eq (h : Untouched w start n s) (hintake : Intake s)
    (hheadless : Headless s.arrived) : s.atRest = false := by
  obtain ⟨d, hd⟩ := h.due hinterval hintake hheadless
  rw [Service.atRest, Connection.turn_eq, hd]
  rfl

/-- A connection that gets the wrong bytes in time: it is still untouched, or it is over. -/
inductive Doomed (w : ServerWiring σ) (start : Nat) (n : Node σ) (s : Service σ) : Prop where
  | untouched (h : Untouched w start n s) (hheadless : Headless s.arrived)
      (hearly : s.now ≤ start + w.timing.handshakeTimeout)
  | away {f : ReadFault} (h : Away w start n (.read f) s)

omit hinterval in
theorem Outset.doomed (h : Outset w start n s) (hintake : Intake s)
    (hheadless : Headless s.arrived) (hearly : s.now ≤ start + w.timing.handshakeTimeout) :
    Doomed w start n s := by
  cases h with
  | untouched h => exact .untouched h hheadless hearly
  | greeted h => cases (hheadless.not_greeted hintake).symm.trans h
  | away h => exact .away h
  | timedOut hlate h => exact absurd hlate (Nat.not_lt.2 hearly)

theorem Doomed.step (h : Doomed w start n s) (hintake : Intake s) {a : ServiceAct σ}
    (hown : a.isOwn = true) (hstep : s.step a = some s') : Doomed w start n s' := by
  have hintake' := hintake.move (Service.move_of_step hstep)
  cases h with
  | away h => exact .away (h.step rfl hown hstep)
  | untouched h hheadless hearly =>
    refine ((Outset.untouched h).step hown hstep).doomed hintake' (hheadless.step hstep) ?_
    cases a with
    | pass span =>
      -- There is something to do, so no time passes.
      rw [Service.step, h.atRest_eq hinterval hintake hheadless] at hstep
      cases hstep
    | arrive a =>
      cases hstep
      exact hearly
    | turn =>
      obtain ⟨d, -, rfl⟩ := Option.map_eq_some_iff.1 (s.step_turn ▸ hstep)
      exact hearly
    | write =>
      cases hstep
      exact hearly
    | elsewhere a => cases hown

/-! ## Coming to rest -/

omit hinterval in
theorem Away.comes_to_rest {f : Fault} (hf : refusal? f = none) (h : Away w start n f s) :
    s.run [.write] = some s.wrote ∧ s.wrote.atRest = true := by
  obtain ⟨haway, hwriting⟩ := h.wrote hf
  exact ⟨rfl, by rw [haway.atRest_eq hf, hwriting]; rfl⟩

/-- The turns that an untouched connection can still take before it has to read. -/
def Service.pending (s : Service σ) : Nat :=
  s.connection.arrivals.length + if s.connection.nextTick ≤ s.now then 1 else 0

/-- A connection that gets the wrong bytes takes some turns and writes, and then it is over. -/
theorem Doomed.comes_to_rest (h : Doomed w start n s) (hintake : Intake s) :
    ∃ more s', (∀ a ∈ more, a = .turn ∨ a = .write) ∧ s.run more = some s' ∧
      s'.atRest = true := by
  induction hpending : s.pending using Nat.strongRecOn generalizing s with
  | _ pending ih =>
    cases h with
    | away h =>
      obtain ⟨hrun, hrest⟩ := h.comes_to_rest rfl
      exact ⟨[.write], _, by simp, hrun, hrest⟩
    | untouched h hheadless hearly =>
      obtain ⟨d, hd⟩ := h.due hinterval hintake hheadless
      have hstep : s.step .turn = some (s.did d) := by rw [s.step_turn, hd]; rfl
      have hintake' := hintake.move (.turn hd)
      have hdoomed := (Doomed.untouched h hheadless hearly).step hinterval hintake rfl hstep
      have hfinal (hless : (s.did d).pending < pending) : ∃ more s',
          (∀ a ∈ more, a = .turn ∨ a = .write) ∧ s.run more = some s' ∧ s'.atRest = true := by
        obtain ⟨more, s', hacts, hrun, hrest⟩ := ih _ hless hdoomed hintake' rfl
        refine ⟨.turn :: more, s', ?_, Service.run_cons_eq_some_iff.2 ⟨_, hstep, hrun⟩, hrest⟩
        exact List.forall_mem_cons.2 ⟨.inl rfl, hacts⟩
      cases h.opening hd with
      | check hdue h' =>
        apply hfinal
        have hlonger : 0 < s.connection.interval := h.interval ▸ hinterval
        have hnext : ¬ (s.did .check).connection.nextTick ≤ (s.did .check).now := by
          show ¬ s.now + s.connection.interval ≤ s.now
          omega
        rw [← hpending, Service.pending, Service.pending, if_pos hdue, if_neg hnext]
        exact Nat.lt_succ_self _
      | timeOut hlate => exact absurd hlate (Nat.not_lt.2 hearly)
      | greet next =>
        have hnot := (hheadless.step hstep).not_greeted hintake'
        cases hnot
      | @feed b rest harrivals h' =>
        apply hfinal
        have hshorter : (s.did (.feed b)).connection.arrivals = rest := by
          show s.connection.arrivals.tail = rest
          rw [harrivals]
          rfl
        have hnext : (s.did (.feed b)).connection.nextTick = s.connection.nextTick := rfl
        rw [← hpending, Service.pending, Service.pending, hshorter, hnext, harrivals,
          List.length_cons]
        exact Nat.add_lt_add_right (Nat.lt_succ_self _) _
      | refuse h' =>
        obtain ⟨hrun, hrest⟩ := h'.comes_to_rest rfl
        refine ⟨[.turn, .write], _, by simp, Service.run_cons_eq_some_iff.2 ⟨_, hstep, hrun⟩, hrest⟩

/-- When there is nothing to do, the goodbye has been written. -/
theorem Doomed.at_rest (h : Doomed w start n s) (hintake : Intake s) (hrest : s.atRest = true) :
    s.phase = .closed ∧ s.connection.isOver = true ∧
      s.connection.sink.calls.toList = [.write ⟨#[0xFF]⟩, .flush, .shutdown] := by
  cases h with
  | untouched h hheadless =>
    cases (h.atRest_eq hinterval hintake hheadless).symm.trans hrest
  | away h =>
    have hwriting : s.connection.writing = false := by simpa [h.atRest_eq rfl] using hrest
    refine ⟨(h.trace rfl).1, by simp [Connection.isOver, h.reading, hwriting], ?_⟩
    obtain ⟨hnot, -⟩ | ⟨-, hcalls, -⟩ := h.writes
    · cases hwriting.symm.trans hnot
    · exact hcalls

end headless

/-! ## Every run -/

theorem outset_run {acts : List (ServiceAct σ)} (hown : ∀ a ∈ acts, a.isOwn = true)
    (h : (Service.start w start n).run acts = some s) : Outset w start n s :=
  Service.run_keeps_among (P := Outset w start n) (fun ha hstep hs => hs.step ha hstep) hown h
    (.untouched untouched_start)

theorem Doomed.run {acts : List (ServiceAct σ)} (hinterval : 0 < w.timing.tickInterval)
    (h : Doomed w start n s) (hintake : Intake s) (hown : ∀ a ∈ acts, a.isOwn = true)
    (hrun : s.run acts = some s') : Doomed w start n s' := by
  have hkept := Service.run_keeps_among (P := fun s => Doomed w start n s ∧ Intake s)
    (fun ha hstep hs =>
      ⟨hs.1.step hinterval hs.2 ha hstep, hs.2.move (Service.move_of_step hstep)⟩)
    hown hrun ⟨h, hintake⟩
  exact hkept.1

theorem Doomed.untouched_or_away (h : Doomed w start n s) :
    Untouched w start n s ∨ ∃ f, Away w start n (.read f) s := by
  cases h with
  | untouched h => exact .inl h
  | away h => exact .inr ⟨_, h⟩

/-- So it has been ever since the start. -/
theorem Outset.untouched_or_away {more : List (ServiceAct σ)} (h : Outset w start n s)
    (hrun : s.run more = some s') (hintake : Intake s') (hheadless : Headless s'.arrived)
    (hearly : s'.now ≤ start + w.timing.handshakeTimeout) :
    Untouched w start n s ∨ ∃ f, Away w start n (.read f) s := by
  have hkept {P : Service σ → Prop}
      (hP : ∀ {s s' : Service σ} {a : ServiceAct σ}, s.step a = some s' → P s → P s') (hs : P s) :
      P s' :=
    Service.run_keeps_among (A := fun _ => True) (fun _ hstep => hP hstep) (fun _ _ => trivial)
      hrun hs
  cases h with
  | untouched h => exact .inl h
  | away h => exact .inr ⟨_, h⟩
  | greeted h =>
    have hgreeted := hkept (P := fun s => s.connection.greeted = true) greeted_step h
    cases (hheadless.not_greeted hintake).symm.trans hgreeted
  | timedOut hlate h =>
    have hlater := hkept (P := fun x => s.now ≤ x.now)
      (fun hstep hle => Nat.le_trans hle (now_step hstep)) (Nat.le_refl _)
    omega

/-- Before the header, a connection leaves nothing but what the event log says. -/
theorem trace_of_headless (hsound : Sound n) (htidy : n.registry.Tidy) (hintake : Intake s)
    (h : Untouched w start n s ∨ ∃ f, Away w start n (.read f) s) :
    s.frames = [] ∧ s.node.registry = n.registry ∧ s.node.policy = n.policy ∧
      (s.phase = .unconnected ∧ s.node.notices = n.notices ∨
        s.phase = .closed ∧ ∃ f, s.node.notices.toList =
          n.notices.toList ++ farewell n.nextChannel .responder (.read f)) := by
  obtain h | ⟨f, h⟩ := h
  · refine ⟨(hintake.before h.greeted).2, ?_, ?_, .inl ⟨?_, ?_⟩⟩
    · rw [h.node]
      rfl
    · rw [h.node]
      rfl
    · rw [Service.phase, h.here]
      rfl
    · rw [h.node]
      rfl
  · obtain ⟨hphase, hregistry, hpolicy, hnotices⟩ := h.trace rfl
    rw [htidy.release_eq_self hsound.not_mem_channels] at hregistry
    exact ⟨(hintake.before h.greeted).2, hregistry, hpolicy, .inr ⟨hphase, f, hnotices⟩⟩

/-- Frames are taken from the bytes behind the header, one after another, until one cannot be read,
the peer says goodbye or the channel is closed. -/
theorem frames_behind_header {acts : List (ServiceAct σ)} (hinterval : 0 < w.timing.tickInterval)
    (h : (Service.start w start n).run acts = some s)
    (hheader : s.input.extract 0 Header.size = Header.bytes) :
    s.frames <+: (Frame.decodeAll (restOf s.input Header.size)).1 ∧
      (∀ before e after, s.record = before ++ e :: after →
        (e.deed.isInput = true → e.phase ≠ .closed) ∧ (e.deed.cuts = true → after = [])) ∧
      (s.atRest = true → s.frames = (Frame.decodeAll (restOf s.input Header.size)).1 ∨
        ∃ before e, s.record = before ++ [e] ∧ e.deed.cuts = true ∧
          (e.deed.isTimeOut = true → w.timing.handshakeTimeout < e.time - start)) := by
  obtain ⟨hintake, hstopped⟩ := stopped_run h
  obtain ⟨ch, halive, hpunctual⟩ := punctual_run h
  refine ⟨?_, fun before e after heq => ⟨?_, fun hcuts => ?_⟩, fun hrest => ?_⟩
  · cases hgreeted : s.connection.greeted with
    | true => exact hintake.frames_prefix hgreeted
    | false =>
      rw [(hintake.before hgreeted).2]
      exact List.nil_prefix
  · exact open_at_input h e (heq ▸ List.mem_append_cons_self)
  · exact hstopped.last before e after heq (Deed.ends_of_cuts hcuts)
  · refine (hstopped.frames_eq hintake (halive.interval ▸ hinterval) hrest hheader).imp_right ?_
    rintro ⟨before, e, heq, hcuts⟩
    refine ⟨before, e, heq, hcuts, fun htimeOut => ?_⟩
    cases hdeed : e.deed with
    | timeOut elapsed => exact ((hpunctual.entries before e [] heq).timeOut elapsed hdeed).2.1
    | _ =>
      rw [hdeed] at htimeOut
      cases htimeOut

/-- A server that accepts a connection and gets, before the deadline, a stream that does not begin
with the header writes one byte, goes from unconnected to closed, reports one fault and the end, and
is otherwise as it was, whatever follows. Of a stream that begins with the header it takes the frames
that follow, up to the first that cannot be read, unless the connection is cut off. -/
theorem header_comes_first (policy : σ) (before : List (ServerAct σ))
    {acts₁ acts₂ : List (ServiceAct σ)} {s₁ : Service σ} (hinterval : 0 < w.timing.tickInterval)
    (h₁ : (Service.start w start (serverRun policy before).node).run acts₁ = some s₁)
    (h₂ : s₁.run acts₂ = some s) :
    let n := (serverRun policy before).node
    ((∀ a ∈ acts₁ ++ acts₂, a.isOwn = true) → Headless s₁.arrived →
      s₁.now ≤ start + w.timing.handshakeTimeout →
      (∀ acts rest s₀, acts₁ ++ acts₂ = acts ++ rest →
        (Service.start w start n).run acts = some s₀ →
        s₀.frames = [] ∧ s₀.node.registry = n.registry ∧ s₀.node.policy = n.policy ∧
        (s₀.phase = .unconnected ∧ s₀.node.notices = n.notices ∨
          s₀.phase = .closed ∧ ∃ f, s₀.node.notices.toList =
            n.notices.toList ++ farewell n.nextChannel .responder (.read f))) ∧
      (s.atRest = true → s.phase = .closed ∧ s.connection.isOver = true ∧
        s.connection.sink.calls.toList = [.write ⟨#[0xFF]⟩, .flush, .shutdown]) ∧
      ∃ more s', (∀ a ∈ more, a = .turn ∨ a = .write) ∧ s.run more = some s' ∧
        s'.atRest = true) ∧
    (s.input.extract 0 Header.size = Header.bytes →
      s.frames <+: (Frame.decodeAll (restOf s.input Header.size)).1 ∧
      (∀ before e after, s.record = before ++ e :: after →
        (e.deed.isInput = true → e.phase ≠ .closed) ∧ (e.deed.cuts = true → after = [])) ∧
      (s.atRest = true → s.frames = (Frame.decodeAll (restOf s.input Header.size)).1 ∨
        ∃ before e, s.record = before ++ [e] ∧ e.deed.cuts = true ∧
          (e.deed.isTimeOut = true → w.timing.handshakeTimeout < e.time - start))) := by
  intro n
  have hrun : (Service.start w start n).run (acts₁ ++ acts₂) = some s := by
    rw [Service.run_append, h₁]
    exact h₂
  refine ⟨fun hown hheadless hearly => ?_, frames_behind_header hinterval hrun⟩
  have hsound : Sound n := (ServerRun.right_run policy before).sound
  have hintake₁ := intake_run h₁
  obtain ⟨hown₁, hown₂⟩ := List.forall_mem_append.1 hown
  have hdoomed₁ : Doomed w start n s₁ := (outset_run hown₁ h₁).doomed hintake₁ hheadless hearly
  have hdoomed := hdoomed₁.run hinterval hintake₁ hown₂ h₂
  refine ⟨fun acts rest s₀ hacts h₀ => ?_, hdoomed.at_rest hinterval (intake_run hrun),
    hdoomed.comes_to_rest hinterval (intake_run hrun)⟩
  have hmeanwhile : Untouched w start n s₀ ∨ ∃ f, Away w start n (.read f) s₀ := by
    -- The state is behind the one with the wrong bytes, or before it.
    obtain ⟨late, rfl, hlate⟩ | ⟨late, rfl, -⟩ := List.append_eq_append_iff.1 hacts
    · rw [Service.run_append, h₁] at h₀
      have hown₀ := (List.forall_mem_append.1 (hlate ▸ hown₂)).1
      exact (hdoomed₁.run hinterval hintake₁ hown₀ h₀).untouched_or_away
    · have hlater : s₀.run late = some s₁ := by
        rw [Service.run_append, h₀] at h₁
        exact h₁
      have hown₀ := (List.forall_mem_append.1 hown₁).1
      exact (outset_run hown₀ h₀).untouched_or_away hlater hintake₁ hheadless hearly
  exact trace_of_headless hsound (tracks_run policy before).tidy (intake_run h₀) hmeanwhile

/-- Somebody speaks another protocol, in two pieces. -/
def strangeStart : List (ServiceAct Unit) :=
  [.turn, .arrive (.bytes ⟨#[72, 84]⟩), .turn, .pass 4, .turn,
    .arrive (.bytes ⟨#[84, 80, 47, 49, 5]⟩)]

def strangeRest : List (ServiceAct Unit) :=
  [.turn, .turn, .arrive (.bytes Header.bytes), .write, .pass 100]

/-- A header, two frames and a byte that is none. -/
def politeVisit : List (ServiceAct Unit) :=
  [.turn, .arrive (.bytes Header.bytes), .turn, .turn, .arrive (.bytes ⟨#[7, 255, 7]⟩), .turn, .turn,
    .turn, .write]

/-- The stranger gets a goodbye; of the visitor's three frames two are taken. -/
theorem header_comes_first_stranger :
    (∃ s, (Service.start hastyServer 0 (serverRun () []).node).run
        (strangeStart ++ strangeRest) = some s ∧ s.frames = [] ∧ s.phase = .closed ∧
      s.connection.sink.calls.toList = [.write ⟨#[0xFF]⟩, .flush, .shutdown]) ∧
    ∃ s, (Service.start hastyServer 0 (serverRun () []).node).run politeVisit = some s ∧
      s.frames = [.requestAcknowledgment, .detach] ∧
      s.frames <+: (Frame.decodeAll (restOf s.input Header.size)).1 ∧
      ∃ before e, s.record = before ++ [e] ∧ e.deed.cuts = true := by
  constructor
  · obtain ⟨s₁, h₁⟩ : ∃ s₁, (Service.start hastyServer 0 (serverRun () []).node).run
        strangeStart = some s₁ := Option.isSome_iff_exists.1 (by decide +kernel)
    obtain ⟨s, hrun⟩ : ∃ s, (Service.start hastyServer 0 (serverRun () []).node).run
        (strangeStart ++ strangeRest) = some s :=
      Option.isSome_iff_exists.1 (by decide +kernel)
    have h₂ : s₁.run strangeRest = some s := by
      rw [Service.run_append, h₁] at hrun
      exact hrun
    obtain ⟨hstranger, -⟩ := header_comes_first () [] (by decide) h₁ h₂
    have hheadless : Headless s₁.arrived := by
      have hsize := Service.eq_of_run h₁ (fun s => s.input.size) (a := 7) (by decide +kernel)
      have hfirst := Service.eq_of_run h₁ (fun s => s.input.extract 0 Header.size)
        (a := ⟨#[72, 84, 84, 80, 47, 49]⟩) (by decide +kernel)
      refine .inl ⟨?_, ?_⟩
      · show Header.size ≤ s₁.input.size
        rw [hsize]
        decide
      · show s₁.input.extract 0 Header.size ≠ Header.bytes
        rw [hfirst]
        decide
    have hearly : s₁.now ≤ 0 + hastyServer.timing.handshakeTimeout := by
      rw [Service.eq_of_run h₁ Service.now (a := 4) (by decide +kernel)]
      decide
    obtain ⟨hall, hend, -⟩ := hstranger (by decide) hheadless hearly
    obtain ⟨hphase, -, hcalls⟩ := hend (Service.eq_of_run hrun Service.atRest (by decide +kernel))
    exact ⟨s, hrun, (hall _ [] s (List.append_nil _).symm hrun).1, hphase, hcalls⟩
  · obtain ⟨s, hrun⟩ : ∃ s, (Service.start hastyServer 0 (serverRun () []).node).run
        politeVisit = some s := Option.isSome_iff_exists.1 (by decide +kernel)
    obtain ⟨-, hvisitor⟩ := header_comes_first () [] (by decide) hrun
      (show s.run [] = some s from rfl)
    have hframes := Service.eq_of_run hrun Service.frames (a := [.requestAcknowledgment, .detach])
      (by decide +kernel)
    obtain ⟨hfront, -, hrest⟩ := hvisitor
      (Service.eq_of_run hrun (fun s => s.input.extract 0 Header.size) (by decide +kernel))
    refine ⟨s, hrun, hframes, hfront, ?_⟩
    obtain hall | ⟨before, e, heq, hcuts, -⟩ :=
      hrest (Service.eq_of_run hrun Service.atRest (by decide +kernel))
    · have hmore : s.frames.length < (Frame.decodeAll (restOf s.input Header.size)).1.length :=
        of_decide_eq_true (Service.eq_of_run hrun (fun s => decide (s.frames.length <
          (Frame.decodeAll (restOf s.input Header.size)).1.length)) (by decide +kernel))
      rw [← hall] at hmore
      exact absurd hmore (Nat.lt_irrefl _)
    · exact ⟨before, e, heq, hcuts⟩

end Courier
