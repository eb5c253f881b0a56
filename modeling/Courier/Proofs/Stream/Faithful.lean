import Courier.Proofs.Node.Endings
import Courier.Proofs.Stream.Writing

/-! # A faithful prefix

Whatever a writer is given and however much a call takes, it writes the frames before `close`, flushes
behind each, and shuts the stream down if `close` comes. If a call fails, it has written the frames
before and a part of the one that it was writing, and nothing else; then the failure is raised on the
channel, which is closed afterwards whatever its reactors did (`writes_faithful_prefix`).
-/
set_option autoImplicit false

namespace Courier

open Courier.Wire Courier.Routing

variable {σ : Type}

/-! ## A fault that is raised -/

namespace Channel

variable {c : ChannelId} {ch ch' : Channel σ}

/-- A channel keeps the fault that it remembers. -/
theorem Change.fault {f : Fault} (h : ch.Change c ch') (hf : ch.fault = some f) :
    ch'.fault = some f := by
  cases h with
  | enqueue h =>
    obtain ⟨-, -, rfl⟩ := enqueue_eq_ok h
    exact hf
  | remember g =>
    rw [Channel.remember, hf]
    rfl
  | shut goodbye => exact (ch.fault_shut goodbye).trans hf
  | _ => exact hf

/-- The names under which the reactors of a channel from a place on report. -/
def reportersFrom (ch : Channel σ) (i : Nat) : List Reporter :=
  (ch.reactors.drop i).filterMap Reactor.reporter?

/-- None of a channel's reactors is a probe. -/
def Unprobed (ch : Channel σ) : Prop := ∀ name, .probe name ∉ ch.reportersFrom 0

theorem Later.reportersFrom (h : ch.Later ch') (i : Nat) :
    ch'.reportersFrom i = ch.reportersFrom i := by
  rw [Channel.reportersFrom, Channel.reportersFrom, filterMap_reporter?, List.map_drop, h.reporters,
    ← List.map_drop, ← filterMap_reporter?]

theorem Unprobed.ne_probe (h : ch.Unprobed) {i : Nat} {r : Reactor σ}
    (hr : ch.reactors[i]? = some r) (p : Probe) : r ≠ .probe p := by
  rintro rfl
  exact h p.name (List.mem_filterMap.2 ⟨_, List.mem_of_getElem? hr, rfl⟩)

end Channel

namespace Node

variable {n : Node σ} {c : ChannelId} {ch : Channel σ}

/-- Of a channel's faults the first is remembered. -/
theorem fault_raise (hch : n.channel? c = some ch) (f : Fault) :
    ∃ ch', (raise c f n).channel? c = some ch' ∧ ch.Later ch' ∧ ch'.fault = ch.fault.or (some f) := by
  have hremembered := channel?_modify_of_some hch (·.remember f)
  have htold : (n.modify c (·.remember f)).Changes (raise c f n) :=
    changes_course.foldl (changes_course.exceptionAt changes_rule.full c f) _ _
  have hfirst : (ch.remember f).fault = some (ch.fault.getD f) := by
    rw [Channel.remember]
    cases ch.fault <;> rfl
  obtain ⟨ch', hch', hfault⟩ := htold.keeps Channel.Change.fault hremembered hfirst
  obtain ⟨ch'', hch'', hlater⟩ := htold.later.channel c _ hremembered
  rw [hch'] at hch''
  cases hch''
  refine ⟨ch', hch', (ch.later_remember f).trans hlater, ?_⟩
  rw [hfault, ← hfirst]
  rfl

/-- The reports of an exception by these reporters, of which only the event log makes one. -/
def alarms (c : ChannelId) (role : Role) (f : Fault) (reporters : List Reporter) : List Notice :=
  (reporters.filter (· = .eventLog)).map (⟨·, c, role, .exception f⟩)

section exceptions

variable {k : Reentry σ} (f : Fault)

theorem notices_exceptionAt {i : Nat} {r : Reactor σ} (hch : n.channel? c = some ch)
    (hr : ch.reactors[i]? = some r) (hprobe : ∀ p, r ≠ .probe p) :
    (exceptionAt k c f n i).notices.toList = n.notices.toList ++
      alarms c ch.session.role f r.reporter?.toList := by
  rw [exceptionAt, (n.reactor?_eq_some_iff c).2 ⟨ch, hch, hr⟩]
  cases r with
  | eventLog =>
    show (n.note c .eventLog (.exception f)).notices.toList = _
    rw [note, hch]
    exact Backlog.toList_push _ _
  | detachOnException =>
    show (refuse c f n).notices.toList = _
    rw [refuse_eq hch]
    exact (List.append_nil _).symm
  | probe p => exact absurd rfl (hprobe p)
  | _ => exact (List.append_nil _).symm

/-- The reactors from a place on are told of a fault, one after another. -/
theorem notices_exceptions (hk : k.Moves Node.Later) (count i : Nat) (hch : n.channel? c = some ch)
    (hprobes : ch.Unprobed) (hlength : ch.reactors.length = i + count) :
    ((List.range' i count).foldl (exceptionAt k c f) n).notices.toList =
      n.notices.toList ++ alarms c ch.session.role f (ch.reportersFrom i) := by
  induction count generalizing n ch i with
  | zero =>
    rw [Channel.reportersFrom, List.drop_of_length_le (by omega)]
    exact (List.append_nil _).symm
  | succ count ih =>
    have hlt : i < ch.reactors.length := by omega
    have hr := List.getElem?_eq_getElem hlt
    obtain ⟨ch₁, hch₁, hlater⟩ := (later_course.exceptionAt hk c f n i).channel c ch hch
    have hprobes₁ : ch₁.Unprobed := by
      intro name
      rw [hlater.reportersFrom]
      exact hprobes name
    rw [List.range'_succ, List.foldl_cons, ih (i + 1) hch₁ hprobes₁ (by rw [hlater.length]; omega),
      notices_exceptionAt f hch hr (hprobes.ne_probe hr), hlater.role, hlater.reportersFrom,
      List.append_assoc, alarms, alarms, alarms, ← List.map_append, ← List.filter_append,
      Channel.reportersFrom, Channel.reportersFrom, List.drop_eq_getElem_cons hlt,
      List.filterMap_cons]
    cases ch.reactors[i].reporter? <;> rfl

end exceptions

/-- A fault that is raised on a channel without probes is reported by the event log, and nothing
else is reported. -/
theorem notices_raise (hch : n.channel? c = some ch) (hprobes : ch.Unprobed) (f : Fault) :
    (raise c f n).notices.toList =
      n.notices.toList ++ alarms c ch.session.role f (ch.reportersFrom 0) := by
  have hremembered := channel?_modify_of_some hch (·.remember f)
  have hplaces : (n.modify c (·.remember f)).places c = List.range' 0 ch.reactors.length := by
    rw [places, hremembered]
    exact List.range_eq_range'
  have htold := notices_exceptions f later_rule.full ch.reactors.length 0 hremembered hprobes
    (Nat.zero_add _).symm
  rw [raise, raiseWith, hplaces]
  exact htold

end Node

/-! ## The writer -/

namespace Stream

open Sink

/-- The frames before `close` have been written, each as some pieces and a flush behind them, and the
stream has been shut down behind them if `close` came. -/
structure WroteAll (items : List Outbound) (s : Sink) : Prop where
  written : s.written = joined .empty (framesBefore items)
  calls : ∃ cuts : List (List ByteArray), cuts.map (joined .empty) = framesBefore items ∧
    s.calls.toList = cuts.flatMap putCalls ++ lastCalls items
  shutdown : .shutdown ∈ s.calls.toList ↔ .close ∈ items

/-- A call failed while the frame behind these was written: those before have been written and
flushed, and the first bytes of this one have been written. -/
structure BrokeOff (items : List Outbound) (before : List ByteArray) (b : ByteArray) (s : Sink) :
    Prop where
  place : ∃ rest, items = before.map .bytes ++ .bytes b :: rest
  written : ∃ k ≤ b.size, s.written = joined .empty before ++ b.extract 0 k
  calls : ∃ (cuts : List (List ByteArray)) (pieces : List ByteArray),
    cuts.map (joined .empty) = before ∧
    s.calls.toList = cuts.flatMap putCalls ++ pieces.map .write
  behind : ∃ rest, s.written ++ rest = joined .empty (framesBefore items)

theorem shutdown_not_mem_cuts (cuts : List (List ByteArray)) : .shutdown ∉ cuts.flatMap putCalls := by
  intro h
  obtain ⟨pieces, -, h⟩ := List.mem_flatMap.1 h
  simp [putCalls] at h

theorem BrokeOff.shutdown {items : List Outbound} {before : List ByteArray} {b : ByteArray}
    {s : Sink} (h : BrokeOff items before b s) : .shutdown ∉ s.calls.toList := by
  obtain ⟨cuts, pieces, -, hcalls⟩ := h.calls
  rw [hcalls, List.mem_append]
  rintro (h | h)
  · exact shutdown_not_mem_cuts cuts h
  · simp at h

theorem wroteAll_of_took {items : List Outbound} {s s' : Sink} {cuts : List (List ByteArray)}
    (hs : s.calls = .empty) (hcuts : cuts.map (joined .empty) = framesBefore items)
    (htook : Took (cuts.flatMap putCalls ++ lastCalls items) s s') : WroteAll items s' := by
  have hcalls : s'.calls.toList = cuts.flatMap putCalls ++ lastCalls items := by
    rw [htook.calls, hs]
    rfl
  have hlast : (lastCalls items).filterMap piece? = [] := by
    unfold lastCalls
    split <;> rfl
  refine ⟨?_, ⟨cuts, hcuts, hcalls⟩, ?_⟩
  · rw [htook.written, List.filterMap_append, hlast, List.append_nil, joined_putCalls, hcuts, written,
      hs]
    exact ByteArray.empty_append
  · rw [hcalls, List.mem_append, or_iff_right (shutdown_not_mem_cuts cuts), lastCalls]
    split <;> simp [*]

theorem brokeOff_of_broke {s s₁ s' : Sink} {cuts : List (List ByteArray)} {b : ByteArray}
    (rest : List Outbound) {text : String} (hs : s.calls = .empty)
    (htook : Took (cuts.flatMap putCalls) s s₁) (hbroke : Broke b 0 text s₁ s') :
    BrokeOff ((cuts.map (joined .empty)).map .bytes ++ .bytes b :: rest)
      (cuts.map (joined .empty)) b s' := by
  obtain ⟨-, -, pieces, k, -, hk, hpart, htook'⟩ := hbroke
  have hwhole := htook.trans htook'
  have hwritten : s'.written = joined .empty (cuts.map (joined .empty)) ++ b.extract 0 k := by
    rw [hwhole.written, List.filterMap_append, filterMap_piece?_write, joined_append_list,
      joined_append, joined_putCalls, hpart, written, hs]
    exact ByteArray.empty_append
  refine ⟨⟨rest, rfl⟩, ⟨k, hk, hwritten⟩, ⟨cuts, pieces, rfl, ?_⟩, ?_⟩
  · rw [hwhole.calls, hs]
    rfl
  · refine ⟨b.extract k b.size ++ joined .empty (framesBefore rest), ?_⟩
    have hsplit (a : ByteArray) : a ++ b.extract 0 k ++ b.extract k b.size = a ++ b := by
      rw [ByteArray.append_assoc, ByteArray.extract_append_extract, Nat.min_eq_left (Nat.zero_le _),
        Nat.max_eq_right hk, ByteArray.extract_zero_size]
    rw [framesBefore_bytes, hwritten, joined_append_list, framesBefore, joined_cons,
      joined_append (_ ++ b), ← ByteArray.append_assoc, hsplit]

/-- A channel that is abandoned heard of the failure once, and is closed. -/
structure Abandoned (c : ChannelId) (f : Fault) (ch : Channel σ) (n n' : Node σ) : Prop where
  raised : n' = (raise c f n).modify c Channel.close
  closed : ∃ ch', n'.channel? c = some ch' ∧ ch'.isClosed = true ∧ ch'.session.isClosed = true ∧
    ch'.fault = ch.fault.or (some f)
  told : ch.Unprobed → n'.notices.toList =
    n.notices.toList ++ Node.alarms c ch.session.role f (ch.reportersFrom 0)

theorem abandoned {n : Node σ} {c : ChannelId} {ch : Channel σ} (hch : n.channel? c = some ch)
    (hshown : ch.published = ch.session.phase) (text : String) :
    Abandoned c (.write (.transport text)) ch n (abandon c text n) := by
  obtain ⟨ch₁, hch₁, hlater, hfault⟩ := Node.fault_raise hch (.write (.transport text))
  refine ⟨rfl, ⟨ch₁.close, Node.channel?_modify_of_some hch₁ _, ?_, ?_, ?_⟩,
    fun hprobes => Node.notices_raise hch hprobes _⟩
  · have hclosed := (ch₁.later_shut false).shown (hlater.shown hshown)
    rw [Channel.isClosed, Channel.phase, Channel.close, hclosed, ch₁.session_shut]
    rfl
  · rw [Channel.close, ch₁.session_shut]
    rfl
  · exact (ch₁.fault_shut false).trans hfault

/-- However much a call takes: unless a call fails, a writer writes all frames before `close`. If one
fails, it has written those before the frame that it was writing and a part of that one, and abandons
the channel. -/
theorem writes_faithful_prefix {n : Node σ} {c : ChannelId} {ch : Channel σ}
    (hch : n.channel? c = some ch) (hshown : ch.published = ch.session.phase) (items : List Outbound)
    {limit : Option Nat} (hlimit : limit ≠ some 0) (failingWrite failingFlush : Option Nat)
    (failure : String) :
    let run := writeItems c items (.fresh limit failingWrite failingFlush failure) n
    (failingWrite = none → failingFlush = none → ¬ run.2.1.Failed) ∧
    (¬ run.2.1.Failed → WroteAll items run.2.1 ∧
      run.1 = (if .close ∈ items then .stopped else .waiting) ∧ run.2.2 = n) ∧
    (run.2.1.Failed → ∃ before b, BrokeOff items before b run.2.1 ∧
      .shutdown ∉ run.2.1.calls.toList ∧ run.1 = .stopped ∧
      Abandoned c (.write (.transport failure)) ch n run.2.2) := by
  intro run
  obtain ⟨cuts, s, hrun, hcuts, htook, hsame⟩ |
    ⟨cuts, b, rest, text, s₁, s, hrun, rfl, htook, hbroke⟩ :=
      writeItems_cases c items (fresh limit failingWrite failingFlush failure) n
  · have hnot : ¬ s.Failed := fun h =>
      fresh_not_failed limit failingWrite failingFlush failure (hsame.1 h)
    rw [show run = _ from hrun]
    exact ⟨fun _ _ => hnot, fun _ => ⟨wroteAll_of_took rfl hcuts htook, rfl, rfl⟩,
      fun h => absurd h hnot⟩
  · rw [show run = _ from hrun]
    have hbrokeOff := brokeOff_of_broke rest rfl htook hbroke
    obtain ⟨hfailed, htext, pieces, k, -, -, -, htook'⟩ := hbroke
    have hwhole := htook.trans htook'
    refine ⟨?_, fun h => absurd hfailed h, fun _ => ⟨_, b, hbrokeOff, hbrokeOff.shutdown, rfl, ?_⟩⟩
    · rintro rfl rfl
      exact absurd hfailed (not_failed hwhole.failingWrite hwhole.failingFlush
        fun hzero => hlimit (hwhole.limit.symm.trans hzero))
    · rw [htook.limit, htook.failure] at htext
      obtain rfl := htext.resolve_left hlimit
      exact abandoned hch hshown _

/-- Two frames and `close`. -/
def tornFrames : List Outbound :=
  [.bytes [97, 98, 99].toByteArray, .bytes [100, 101, 102, 103].toByteArray, .close]

def guardedNode : Node Unit :=
  ((Node.start ()).addChannel (.start (.start .responder 0 {}) [.eventLog, .detachOnException])).2

/-- Each call takes two bytes, and the fourth fails: half of the second frame has been written. -/
theorem tornFrames_broken_off :
    let run := writeItems ⟨0⟩ tornFrames (.fresh (some 2) (some 4) none "broken pipe") guardedNode
    run.2.1.written = [97, 98, 99, 100, 101].toByteArray ∧ .shutdown ∉ run.2.1.calls.toList ∧
      run.2.2.notices.toList =
        [⟨.eventLog, ⟨0⟩, .responder, .exception (.write (.transport "broken pipe"))⟩] ∧
      ∃ ch', run.2.2.channel? ⟨0⟩ = some ch' ∧ ch'.isClosed = true ∧
        ch'.fault = some (.write (.transport "broken pipe")) := by
  intro run
  obtain ⟨-, -, hfails⟩ := writes_faithful_prefix (n := guardedNode) (c := ⟨0⟩) rfl rfl tornFrames
    (show some 2 ≠ some 0 by decide) (some 4) none "broken pipe"
  have hfourth : run.2.1.failingWrite = some 4 ∧ run.2.1.writes = 4 := by decide +kernel
  obtain ⟨before, b, -, hshutdown, -, habandoned⟩ :=
    hfails (.inl ⟨4, hfourth.1, by decide, Nat.le_of_eq hfourth.2.symm⟩)
  obtain ⟨ch', hch', hclosed, -, hfault⟩ := habandoned.closed
  refine ⟨by decide +kernel, hshutdown, ?_, ch', hch', hclosed, hfault⟩
  apply habandoned.told
  intro name h
  simp [Channel.reportersFrom, Channel.start, Reactor.reporter?] at h

end Stream

end Courier
