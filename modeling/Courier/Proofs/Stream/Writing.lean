import Courier.Proofs.Stream.Cuts
import Courier.Stream.Writer

/-! # What a writer has written

A stream has taken the bytes of the write calls that did not fail, in order. Bytes that are put are
taken whole, in however many pieces, unless a call fails; then a part of them was taken
(`Sink.put_cases`). So a writer that is given frames writes them one behind the other, or a call fails
while it writes one of them (`writeItems_cases`).
-/
set_option autoImplicit false

namespace Courier.Stream

open Courier.Wire

namespace Sink

/-- The bytes that the stream has taken. -/
def written (s : Sink) : ByteArray :=
  joined .empty (s.calls.toList.filterMap fun
    | .write b => some b
    | _ => none)

/-- The call that is to fail is among those made. -/
def Reached (failing : Option Nat) (made : Nat) : Prop :=
  ∃ k, failing = some k ∧ 0 < k ∧ k ≤ made

/-- Some call has failed: the write call or the flush call that was to fail has been made, or a
write call that can take nothing. -/
def Failed (s : Sink) : Prop :=
  Reached s.failingWrite s.writes ∨ Reached s.failingFlush s.flushes ∨
    (s.limit = some 0 ∧ 0 < s.writes)

/-- A stream that nothing has been written to. -/
def fresh (limit failingWrite failingFlush : Option Nat) (failure : String) : Sink :=
  ⟨limit, failingWrite, failingFlush, failure, 0, 0, .empty⟩

theorem fresh_not_failed (limit failingWrite failingFlush : Option Nat) (failure : String) :
    ¬ (fresh limit failingWrite failingFlush failure).Failed := by
  have hnone (failing : Option Nat) : ¬ Reached failing 0 := by
    rintro ⟨k, -, hpos, hle⟩
    omega
  rintro (h | h | ⟨-, h⟩)
  · exact hnone _ h
  · exact hnone _ h
  · exact absurd h (Nat.lt_irrefl 0)

/-- A stream of which no call is to fail. -/
theorem not_failed {s : Sink} (hwrite : s.failingWrite = none) (hflush : s.failingFlush = none)
    (hlimit : s.limit ≠ some 0) : ¬ s.Failed := by
  rintro (⟨k, hk, -⟩ | ⟨k, hk, -⟩ | ⟨hzero, -⟩)
  · exact nomatch hwrite.symm.trans hk
  · exact nomatch hflush.symm.trans hk
  · exact hlimit hzero

theorem accepts_le (s : Sink) (n : Nat) : s.accepts n ≤ n := by
  unfold accepts
  split
  · exact Nat.min_le_right ..
  · exact Nat.le_refl n

theorem reached_succ_iff {failing : Option Nat} {made : Nat} (h : failing ≠ some (made + 1)) :
    Reached failing (made + 1) ↔ Reached failing made := by
  constructor
  · rintro ⟨k, hk, hpos, hle⟩
    have hne : k ≠ made + 1 := fun heq => h (heq ▸ hk)
    exact ⟨k, hk, hpos, by omega⟩
  · rintro ⟨k, hk, hpos, hle⟩
    exact ⟨k, hk, hpos, by omega⟩

/-! ## What has been taken -/

/-- The bytes that a call takes, if it takes any. -/
def piece? : SinkCall → Option ByteArray
  | .write b => some b
  | _ => none

/-- Since the first, the second has taken these calls. -/
structure Took (calls : List SinkCall) (s s' : Sink) : Prop where
  calls : s'.calls.toList = s.calls.toList ++ calls
  limit : s'.limit = s.limit
  failingWrite : s'.failingWrite = s.failingWrite
  failingFlush : s'.failingFlush = s.failingFlush
  failure : s'.failure = s.failure

theorem Took.refl (s : Sink) : Took [] s s := ⟨(List.append_nil _).symm, rfl, rfl, rfl, rfl⟩

theorem Took.trans {s s' s'' : Sink} {calls more : List SinkCall} (h : Took calls s s')
    (h' : Took more s' s'') : Took (calls ++ more) s s'' := by
  refine ⟨?_, h'.limit.trans h.limit, h'.failingWrite.trans h.failingWrite,
    h'.failingFlush.trans h.failingFlush, h'.failure.trans h.failure⟩
  rw [h'.calls, h.calls, List.append_assoc]

theorem took_counting (s : Sink) (writes flushes : Nat) :
    Took [] s { s with writes := writes, flushes := flushes } :=
  ⟨(List.append_nil _).symm, rfl, rfl, rfl, rfl⟩

theorem took_record (s : Sink) (call : SinkCall) : Took [call] s (s.record call) :=
  ⟨Backlog.toList_push _ _, rfl, rfl, rfl, rfl⟩

theorem Took.written {s s' : Sink} {calls : List SinkCall} (h : Took calls s s') :
    s'.written = s.written ++ joined .empty (calls.filterMap piece?) := by
  have hpieces : ∀ s : Sink, s.written = joined .empty (s.calls.toList.filterMap piece?) :=
    fun _ => rfl
  rw [hpieces, hpieces, h.calls, List.filterMap_append, joined_append_list, joined_append]

theorem filterMap_piece?_write (pieces : List ByteArray) :
    (pieces.map SinkCall.write).filterMap piece? = pieces := by
  rw [List.filterMap_map]
  exact List.filterMap_some

/-- The calls for bytes that are taken whole, in pieces. -/
def putCalls (pieces : List ByteArray) : List SinkCall := pieces.map .write ++ [.flush]

theorem joined_putCalls (cuts : List (List ByteArray)) :
    joined .empty ((cuts.flatMap putCalls).filterMap piece?) =
      joined .empty (cuts.map (joined .empty)) := by
  induction cuts with
  | nil => rfl
  | cons pieces cuts ih =>
    have hpieces : (putCalls pieces).filterMap piece? = pieces := by
      rw [putCalls, List.filterMap_append, filterMap_piece?_write]
      exact List.append_nil _
    rw [List.flatMap_cons, List.filterMap_append, hpieces, List.map_cons, joined_cons,
      joined_append_list, joined_append, ih, ByteArray.empty_append, ← joined_append]

/-! ## Calls -/

/-- A call has failed: of the bytes from a position on, those up to some other were taken. -/
structure Broke (bytes : ByteArray) (pos : Nat) (text : String) (s s' : Sink) : Prop where
  failed : s'.Failed
  text : s.limit = some 0 ∨ text = s.failure
  part : ∃ pieces stop, pos ≤ stop ∧ stop ≤ bytes.size ∧
    joined .empty pieces = bytes.extract pos stop ∧ Took (pieces.map .write) s s'

theorem Broke.behind {bytes : ByteArray} {pos mid : Nat} {text : String} {s s' s'' : Sink}
    {pieces : List ByteArray} (h : Broke bytes mid text s' s'') (hmid : pos ≤ mid)
    (hpieces : joined .empty pieces = bytes.extract pos mid)
    (htook : Took (pieces.map .write) s s') : Broke bytes pos text s s'' := by
  obtain ⟨hfailed, htext, more, stop, hstop, hsize, hmore, htook'⟩ := h
  refine ⟨hfailed, ?_, pieces ++ more, stop, by omega, hsize, ?_, ?_⟩
  · rw [← htook.limit, ← htook.failure]
    exact htext
  · rw [joined_append_list, joined_append, hpieces, hmore, ByteArray.extract_append_extract]
    congr 1 <;> omega
  · rw [List.map_append]
    exact htook.trans htook'

/-- A call that fails is the one that was to fail; one that does not takes some of the bytes, if any
can be taken. -/
theorem write_cases (s : Sink) (bytes : ByteArray) (pos : Nat) (hpos : pos < bytes.size) :
    (∃ s', s.write bytes pos = (.error s.failure, s') ∧ Took [] s s' ∧ s'.Failed) ∨
    (∃ s', s.write bytes pos = (.ok 0, s') ∧ s.limit = some 0 ∧
      Took [.write (bytes.extract pos pos)] s s' ∧ s'.Failed) ∨
    ∃ k s', s.write bytes pos = (.ok (k + 1), s') ∧ pos + k + 1 ≤ bytes.size ∧
      Took [.write (bytes.extract pos (pos + k + 1))] s s' ∧ (s'.Failed ↔ s.Failed) := by
  by_cases hfails : s.failingWrite = some (s.writes + 1)
  · refine .inl ⟨{ s with writes := s.writes + 1 }, ?_, took_counting s _ _,
      .inl ⟨s.writes + 1, hfails, by omega, Nat.le_refl _⟩⟩
    simp only [write, hfails, if_true]
  · have hwrite : ∀ k, s.accepts (bytes.size - pos) = k → s.write bytes pos =
        (.ok k, { s with writes := s.writes + 1 }.record (.write (bytes.extract pos (pos + k)))) := by
      rintro k rfl
      simp only [write, hfails, if_false]
      rfl
    have hle := s.accepts_le (bytes.size - pos)
    have htook (call) := (took_counting s (s.writes + 1) s.flushes).trans (took_record _ call)
    cases htaken : s.accepts (bytes.size - pos) with
    | zero =>
      -- There are bytes to take, so no call can take any.
      have hstuck : s.limit = some 0 := by
        unfold accepts at htaken
        split at htaken
        · rename_i limit heq
          have hzero : limit = 0 := by omega
          rw [heq, hzero]
        · omega
      exact .inr (.inl ⟨_, hwrite 0 htaken, hstuck, htook _, .inr (.inr ⟨hstuck, Nat.succ_pos _⟩)⟩)
    | succ k =>
      refine .inr (.inr ⟨k, _, hwrite _ htaken, by omega, htook _, ?_⟩)
      have hfree : s.limit ≠ some 0 := by
        intro hzero
        simp [accepts, hzero] at htaken
      show Reached s.failingWrite (s.writes + 1) ∨ Reached s.failingFlush s.flushes ∨ _ ↔ _
      simp only [reached_succ_iff hfails, Failed, record, hfree, false_and]

/-- Bytes are taken whole, in pieces, unless a call has failed. -/
theorem writeCalls_cases (bytes : ByteArray) (n pos : Nat) (s : Sink) (hpos : pos ≤ bytes.size)
    (hn : bytes.size ≤ pos + n) :
    (∃ pieces s', writeCalls bytes n pos s = (.ok (), s') ∧
      joined .empty pieces = bytes.extract pos bytes.size ∧ Took (pieces.map .write) s s' ∧
      (s'.Failed ↔ s.Failed)) ∨
    ∃ text s', writeCalls bytes n pos s = (.error text, s') ∧ Broke bytes pos text s s' := by
  have hdone : bytes.size ≤ pos → joined .empty [] = bytes.extract pos bytes.size := by
    intro hle
    rw [ByteArray.extract_eq_empty_iff.2 (by omega)]
    rfl
  induction n generalizing pos s with
  | zero => exact .inl ⟨[], s, rfl, hdone hn, .refl s, Iff.rfl⟩
  | succ n ih =>
    by_cases hend : bytes.size ≤ pos
    · exact .inl ⟨[], s, by rw [writeCalls, if_pos hend], hdone hend, .refl s, Iff.rfl⟩
    · rw [writeCalls, if_neg hend]
      obtain ⟨s', hwrite, htook, hfailed⟩ | ⟨s', hwrite, hstuck, htook, hfailed⟩ |
        ⟨k, s', hwrite, hle, htook, hsame⟩ := s.write_cases bytes pos (Nat.not_le.1 hend)
      · refine .inr ⟨_, s', by rw [hwrite], hfailed, .inr rfl, [], pos, Nat.le_refl _, hpos, ?_, htook⟩
        rw [ByteArray.extract_same]
        rfl
      · refine .inr ⟨_, s', by rw [hwrite], hfailed, .inl hstuck, [bytes.extract pos pos], pos,
          Nat.le_refl _, hpos, ByteArray.empty_append, htook⟩
      · rw [hwrite]
        simp only []
        have hpiece : joined .empty [bytes.extract pos (pos + k + 1)] =
            bytes.extract pos (pos + k + 1) := ByteArray.empty_append
        obtain ⟨pieces, s'', hcalls, hrest, htook', hsame'⟩ | ⟨text, s'', hcalls, hbroke⟩ :=
          ih (pos + k + 1) s' hle (by omega) fun hover => by
            rw [ByteArray.extract_eq_empty_iff.2 (by omega)]
            rfl
        · refine .inl ⟨bytes.extract pos (pos + k + 1) :: pieces, s'', hcalls, ?_,
            htook.trans htook', hsame'.trans hsame⟩
          rw [← List.singleton_append, joined_append_list, joined_append, hpiece, hrest,
            ByteArray.extract_append_extract]
          congr 1 <;> omega
        · exact .inr ⟨text, s'', hcalls, hbroke.behind (by omega) hpiece htook⟩

theorem flush_cases (s : Sink) :
    (∃ s', s.flush = (.ok (), s') ∧ Took [.flush] s s' ∧ (s'.Failed ↔ s.Failed)) ∨
    ∃ s', s.flush = (.error s.failure, s') ∧ Took [] s s' ∧ s'.Failed := by
  by_cases hfails : s.failingFlush = some (s.flushes + 1)
  · refine .inr ⟨{ s with flushes := s.flushes + 1 }, ?_, took_counting s _ _,
      .inr (.inl ⟨s.flushes + 1, hfails, by omega, Nat.le_refl _⟩)⟩
    simp only [flush, hfails, if_true]
  · refine .inl ⟨{ s with flushes := s.flushes + 1 }.record .flush, ?_,
      (took_counting s s.writes (s.flushes + 1)).trans (took_record _ _), ?_⟩
    · simp only [flush, hfails, if_false]
    · show _ ∨ Reached s.failingFlush (s.flushes + 1) ∨ _ ↔ _
      simp only [reached_succ_iff hfails, Failed, record]

/-- Bytes that are put are taken whole and flushed, unless a call fails. -/
theorem put_cases (s : Sink) (bytes : ByteArray) :
    (∃ pieces s', s.put bytes = (.ok (), s') ∧ joined .empty pieces = bytes ∧
      Took (putCalls pieces) s s' ∧ (s'.Failed ↔ s.Failed)) ∨
    ∃ text s', s.put bytes = (.error text, s') ∧ Broke bytes 0 text s s' := by
  obtain ⟨pieces, s₁, hwrite, hwhole, htook, hsame⟩ | ⟨text, s₁, hwrite, hbroke⟩ :=
    writeCalls_cases bytes bytes.size 0 s (Nat.zero_le _) (by omega)
  · obtain ⟨s₂, hflush, htook', hsame'⟩ | ⟨s₂, hflush, htook', hfailed⟩ := s₁.flush_cases
    · exact .inl ⟨pieces, s₂, by rw [put, writeAll, hwrite]; exact hflush,
        hwhole.trans ByteArray.extract_zero_size, htook.trans htook', hsame'.trans hsame⟩
    · refine .inr ⟨_, s₂, by rw [put, writeAll, hwrite]; exact hflush, hfailed, .inr htook.failure,
        pieces, bytes.size, Nat.zero_le _, Nat.le_refl _, hwhole, ?_⟩
      have hboth := htook.trans htook'
      rw [List.append_nil] at hboth
      exact hboth
  · exact .inr ⟨text, s₁, by rw [put, writeAll, hwrite], hbroke⟩

end Sink

/-! ## The writer -/

open Sink

variable {σ : Type}

/-- The frames before the first `close`. -/
def framesBefore : List Outbound → List ByteArray
  | .bytes b :: rest => b :: framesBefore rest
  | _ => []

theorem framesBefore_bytes (frames : List ByteArray) (rest : List Outbound) :
    framesBefore (frames.map .bytes ++ rest) = frames ++ framesBefore rest := by
  induction frames with
  | nil => rfl
  | cons b frames ih => exact congrArg (b :: ·) ih

/-- What ends a writer's work at `close`, if it comes. -/
def lastCalls (items : List Outbound) : List SinkCall :=
  if .close ∈ items then [.shutdown] else []

/-- A writer takes the frames before `close` one by one, and stops there if it comes; or a call fails
while it writes one of them, and it abandons the channel. -/
theorem writeItems_cases (c : ChannelId) (items : List Outbound) (s : Sink) (n : Node σ) :
    (∃ (cuts : List (List ByteArray)) (s' : Sink), writeItems c items s n =
        (if .close ∈ items then .stopped else .waiting, s', n) ∧
      cuts.map (joined .empty) = framesBefore items ∧
      Took (cuts.flatMap putCalls ++ lastCalls items) s s' ∧ (s'.Failed ↔ s.Failed)) ∨
    ∃ (cuts : List (List ByteArray)) (b : ByteArray) (rest : List Outbound) (text : String)
      (s₁ s' : Sink), writeItems c items s n = (.stopped, s', abandon c text n) ∧
      items = (cuts.map (joined .empty)).map .bytes ++ .bytes b :: rest ∧
      Took (cuts.flatMap putCalls) s s₁ ∧ Broke b 0 text s₁ s' := by
  induction items generalizing s with
  | nil => exact .inl ⟨[], s, rfl, rfl, .refl s, Iff.rfl⟩
  | cons item items ih =>
    cases item with
    | close =>
      have hcloses : Outbound.close ∈ Outbound.close :: items := List.mem_cons_self ..
      refine .inl ⟨[], s.record .shutdown, ?_, rfl, ?_, Iff.rfl⟩
      · rw [if_pos hcloses]
        rfl
      · rw [lastCalls, if_pos hcloses]
        exact took_record s _
    | bytes b =>
      have hcloses : Outbound.close ∈ Outbound.bytes b :: items ↔ Outbound.close ∈ items := by simp
      rw [writeItems]
      obtain ⟨pieces, s₁, hput, rfl, htook, hsame⟩ | ⟨text, s₁, hput, hbroke⟩ := s.put_cases b
      · rw [hput]
        simp only [hcloses, lastCalls]
        obtain ⟨cuts, s', hrest, hcuts, htook', hsame'⟩ |
          ⟨cuts, b', rest, text, s₂, s', hrest, hitems, htook', hbroke⟩ := ih s₁
        · refine .inl ⟨pieces :: cuts, s', hrest, congrArg (_ :: ·) hcuts, ?_, hsame'.trans hsame⟩
          rw [List.flatMap_cons, List.append_assoc]
          exact htook.trans htook'
        · exact .inr ⟨pieces :: cuts, b', rest, text, s₂, s', hrest, congrArg (_ :: ·) hitems,
            htook.trans htook', hbroke⟩
      · rw [hput]
        exact .inr ⟨[], b, items, text, s, s₁, rfl, rfl, .refl s, hbroke⟩

/-- A writer that is given frames writes them, and stops behind them if `close` comes; or a call
fails, and it stops there. -/
theorem writeItems_spec (c : ChannelId) (frames : List ByteArray) (closing : Bool) (s : Sink)
    (n : Node σ) :
    let items := frames.map Outbound.bytes ++ if closing then [.close] else []
    (∃ s', writeItems c items s n = (if closing then .stopped else .waiting, s', n) ∧
      s'.written = joined s.written frames ∧ (s'.Failed ↔ s.Failed)) ∨
    ∃ text s', writeItems c items s n = (.stopped, s', abandon c text n) ∧ s'.Failed := by
  intro items
  have hcloses : .close ∈ items ↔ closing = true := by
    cases closing <;> simp [items]
  have hframes : framesBefore items = frames := by
    refine (framesBefore_bytes frames _).trans ?_
    cases closing <;> exact List.append_nil _
  obtain ⟨cuts, s', hrun, hcuts, htook, hsame⟩ |
    ⟨cuts, b, rest, text, s₁, s', hrun, -, -, hbroke⟩ := writeItems_cases c items s n
  · simp only [hcloses] at hrun
    refine .inl ⟨s', hrun, ?_, hsame⟩
    have hlast : (lastCalls items).filterMap piece? = [] := by
      unfold lastCalls
      split <;> rfl
    rw [htook.written, List.filterMap_append, hlast, List.append_nil, joined_putCalls, hcuts,
      hframes, ← joined_append]
  · exact .inr ⟨text, s', hrun, hbroke.failed⟩

end Courier.Stream
