import Courier.Proofs.Wire.Positions
import Courier.Stream.Reader

/-! # Reading does not depend on the pieces

However a stream is cut into pieces, a reader gives what the codec gives on all of its bytes at once
(`pull_spec`): each piece that comes can only settle a reading that still lacked bytes. Hence a
header and any number of frames are read from the pieces as they are read from the bytes
(`readings_independent_of_cuts`).
-/
set_option autoImplicit false

namespace Courier.Stream

open Courier.Wire

/-! ## Pieces and what they make up -/

/-- The bytes of the pieces, behind those that are there. -/
def joined (b : ByteArray) (pieces : List ByteArray) : ByteArray := pieces.foldl (· ++ ·) b

def AllFull (pieces : List ByteArray) : Prop := ∀ piece ∈ pieces, piece.isEmpty = false

instance (pieces : List ByteArray) : Decidable (AllFull pieces) :=
  inferInstanceAs (Decidable (∀ piece ∈ pieces, piece.isEmpty = false))

theorem joined_cons (b piece : ByteArray) (rest : List ByteArray) :
    joined b (piece :: rest) = joined (b ++ piece) rest := rfl

theorem joined_append_list (b : ByteArray) (front back : List ByteArray) :
    joined b (front ++ back) = joined (joined b front) back :=
  List.foldl_append

theorem joined_append (b : ByteArray) (pieces : List ByteArray) :
    joined b pieces = b ++ joined .empty pieces := by
  induction pieces generalizing b with
  | nil => exact ByteArray.append_empty.symm
  | cons piece rest ih =>
    rw [joined_cons, joined_cons, ih (b ++ piece), ih (.empty ++ piece), ByteArray.empty_append,
      ByteArray.append_assoc]

theorem restOf_append {b : ByteArray} {n : Nat} (hn : n ≤ b.size) (more : ByteArray) :
    restOf (b ++ more) n = restOf b n ++ more := by
  rw [restOf, restOf, ByteArray.extract_append, Nat.sub_eq_zero_of_le hn, ByteArray.size_append,
    Nat.add_sub_cancel_left, ByteArray.extract_zero_size]
  congr 1
  by_cases hmore : more.size = 0
  · rw [hmore, Nat.add_zero]
  · exact extract_of_size_le (Nat.le_add_right _ _)

theorem restOf_joined {b : ByteArray} {n : Nat} (hn : n ≤ b.size) (pieces : List ByteArray) :
    restOf (joined b pieces) n = joined (restOf b n) pieces := by
  induction pieces generalizing b with
  | nil => rfl
  | cons piece rest ih =>
    have hn' : n ≤ (b ++ piece).size := by
      rw [ByteArray.size_append]
      omega
    rw [joined_cons, joined_cons, ih hn', restOf_append hn]

/-- A reading that lacks nothing stays the same, whatever pieces come. -/
theorem settled_joined {α : Type} {read : ByteArray → Except WireError α} (hread : Settles read)
    {b : ByteArray} (h : ¬ Lacks (read b)) (pieces : List ByteArray) :
    read (joined b pieces) = read b := by
  induction pieces generalizing b with
  | nil => rfl
  | cons piece rest ih =>
    have hstep := hread b piece h
    have h' : ¬ Lacks (read (b ++ piece)) := by
      rw [hstep]
      exact h
    rw [joined_cons, ih h', hstep]

/-! ## Reading by pieces -/

/-- The fault, or the value, when no more bytes come. -/
def atEnding {α : Type} (atEnd : Reader → Except ReadFault α) : Ending → Reader → Except ReadFault α
  | .endOfStream, r => atEnd r
  | .failure f, _ => .error f

/-- A step of a reader reads the front of its unused bytes. -/
structure Reads {α : Type} (step : Reader → Progress α)
    (read : ByteArray → Except WireError (α × Nat)) : Prop where
  settles : Settles read
  inside : ∀ b a n, read b = .ok (a, n) → n ≤ b.size
  ready : ∀ r a n, read r.unused = .ok (a, n) →
    ∃ next, step r = .ready a next ∧ next.unused = restOf r.unused n
  halt : ∀ r e, read r.unused = .error e → step r = Reader.halt e

section pull

variable {α : Type} {step : Reader → Progress α} {read : ByteArray → Except WireError (α × Nat)}
  {atEnd : Reader → Except ReadFault α} {ending : Ending}

theorem pull_of_ready {r next : Reader} {a : α} (h : step r = .ready a next)
    (pieces : List ByteArray) : pull step atEnd ending r pieces = ⟨.ok a, next, pieces⟩ := by
  unfold pull
  rw [h]

theorem pull_of_failed {r : Reader} {f : ReadFault} (h : step r = .failed f)
    (pieces : List ByteArray) : (pull step atEnd ending r pieces).result = .error f := by
  unfold pull
  rw [h]

theorem pull_of_waiting_nil {r : Reader} (h : step r = .waiting) :
    (pull step atEnd ending r []).result = atEnding atEnd ending r := by
  unfold pull
  rw [h]
  cases ending <;> rfl

theorem pull_of_waiting_cons {r : Reader} (h : step r = .waiting) {piece : ByteArray}
    (hfull : piece.isEmpty = false) (rest : List ByteArray) :
    pull step atEnd ending r (piece :: rest) = pull step atEnd ending (r.feed piece) rest := by
  rw [pull, h]
  simp [hfull]

/-- A step that reads the front of the unused bytes gives, piece by piece, what reading all bytes
gives: the value and the rest, the error, or what the ending makes of the bytes that are left. -/
theorem pull_spec (atEnd : Reader → Except ReadFault α) (ending : Ending) (hstep : Reads step read)
    {pieces : List ByteArray} (hfull : AllFull pieces) (r : Reader) :
    match read (joined r.unused pieces) with
    | .ok (a, n) => ∃ next left, pull step atEnd ending r pieces = ⟨.ok a, next, left⟩ ∧
        AllFull left ∧ joined next.unused left = restOf (joined r.unused pieces) n
    | .error e =>
      if e.isIncomplete then ∃ last : Reader, last.unused = joined r.unused pieces ∧
        (pull step atEnd ending r pieces).result = atEnding atEnd ending last
      else (pull step atEnd ending r pieces).result = .error (.malformed e) := by
  induction pieces generalizing r with
  | nil =>
    change match read r.unused with | .ok (a, n) => _ | .error e => _
    cases hr : read r.unused with
    | ok field =>
      obtain ⟨a, n⟩ := field
      obtain ⟨next, hready, hrest⟩ := hstep.ready r a n hr
      exact ⟨next, [], pull_of_ready hready [], hfull, hrest⟩
    | error e =>
      have hhalt := hstep.halt r e hr
      by_cases he : e.isIncomplete = true
      · simp only [Reader.halt, he, if_true] at hhalt ⊢
        exact ⟨r, rfl, pull_of_waiting_nil hhalt⟩
      · simp only [Reader.halt, he] at hhalt ⊢
        exact pull_of_failed hhalt []
  | cons piece rest ih =>
    cases hr : read r.unused with
    | ok field =>
      obtain ⟨a, n⟩ := field
      rw [settled_joined hstep.settles (not_lacks_of_eq_ok hr), hr]
      obtain ⟨next, hready, hrest⟩ := hstep.ready r a n hr
      refine ⟨next, piece :: rest, pull_of_ready hready _, hfull, ?_⟩
      rw [hrest, restOf_joined (hstep.inside _ _ _ hr)]
    | error e =>
      have hhalt := hstep.halt r e hr
      by_cases he : e.isIncomplete = true
      · -- The step waits, so the piece is fed to the reader, and the rest goes by induction.
        simp only [Reader.halt, he, if_true] at hhalt
        have hpiece := hfull piece (List.mem_cons_self ..)
        have hrest : AllFull rest := fun p hp => hfull p (List.mem_cons_of_mem _ hp)
        have h := ih hrest (r.feed piece)
        rw [Reader.unused_feed, ← joined_cons] at h
        rw [pull_of_waiting_cons hhalt hpiece]
        exact h
      · have hsettled : ¬ Lacks (read r.unused) := by
          rw [hr]
          exact he
        rw [settled_joined hstep.settles hsettled, hr]
        simp only [Reader.halt, he] at hhalt ⊢
        exact pull_of_failed hhalt _

end pull

/-! ## The header and a frame -/

theorem check_extract (b : ByteArray) :
    Header.check (b.extract 0 Header.size) = Header.check b := by
  have hpart : (b.extract 0 Header.size).extract 0 Header.size = b.extract 0 Header.size := by
    rw [ByteArray.extract_extract, Nat.zero_add, Nat.zero_add, Nat.min_self]
  unfold Header.check
  rw [hpart]

theorem header_check (r : Reader) :
    Header.check (r.buffer.extract r.used (r.used + Header.size)) = Header.check r.unused := by
  have hunused : r.unused = restOf r.buffer r.used := rfl
  have hsize := size_restOf r.buffer r.used
  by_cases hwhole : r.used + Header.size ≤ r.buffer.size
  · have hpart := extract_restOf 0 Header.size hwhole
    rw [Nat.add_zero] at hpart
    rw [hunused, ← check_extract (restOf r.buffer r.used), hpart]
  · rw [hunused, extract_of_size_le (by omega)]
    rfl

/-- The header and its length. -/
def readingHeader (b : ByteArray) : Except WireError (Unit × Nat) :=
  (Header.check b).map fun _ => ((), Header.size)

/-- A frame, as something that may be missing, and its length. -/
def readingFrame (b : ByteArray) : Except WireError (Option Frame × Nat) :=
  (Frame.decode b).map fun field => (some field.1, field.2)

theorem unused_advanceTo (r : Reader) (n : Nat) :
    (r.advanceTo (r.used + n)).unused = restOf r.unused n := by
  have hsize := r.size_unused
  have hstop : min (r.used + r.unused.size) r.buffer.size = r.buffer.size := by
    rw [hsize, Reader.buffered]
    omega
  show r.buffer.extract (r.used + n) r.buffer.size = r.unused.extract n r.unused.size
  rw [Reader.unused] at hstop ⊢
  rw [ByteArray.extract_extract, hstop]

theorem reads_header : Reads Reader.header readingHeader where
  settles := settles_check.map _
  inside := by
    intro b a n h
    obtain ⟨u, hcheck, heq⟩ := map_eq_ok_iff.1 h
    cases heq
    by_cases hsize : b.size < Header.size
    · rw [Header.check_of_size_lt hsize] at hcheck
      cases hcheck
    · exact Nat.not_lt.1 hsize
  ready := by
    intro r a n h
    obtain ⟨u, hcheck, heq⟩ := map_eq_ok_iff.1 h
    cases heq
    refine ⟨r.advanceTo (r.used + Header.size), ?_, unused_advanceTo r Header.size⟩
    rw [Reader.header, header_check, hcheck]
  halt := by
    intro r e h
    rw [Reader.header, header_check, map_eq_error_iff.1 h]

theorem frame_of_empty {r : Reader} (h : r.buffered = 0) : r.frame = .waiting := if_pos h

/-- A frame is read at the front of the unused bytes. -/
theorem frame_decode {r : Reader} (h : r.buffered ≠ 0) :
    r.frame = match Frame.decode r.unused with
      | .ok (f, n) => .ready f (r.advanceTo (r.used + n))
      | .error e => Reader.halt e := by
  have hused : r.used ≤ r.buffer.size := by
    unfold Reader.buffered at h
    omega
  have hdecode : Frame.decodeAt r.buffer r.used = (Frame.decode r.unused).map (later r.used) :=
    Frame.decodeAt_eq_decode_rest hused
  rw [Reader.frame, if_neg h, hdecode]
  cases Frame.decode r.unused with
  | ok field => rfl
  | error e => rfl

theorem decode_of_size_eq_zero {b : ByteArray} (h : b.size = 0) :
    Frame.decode b = .error (.incomplete 1) := by
  rw [ByteArray.size_eq_zero_iff.1 h]
  rfl

theorem reads_frame : Reads nextFrame readingFrame where
  settles := (Frame.settles_decodeAt 0).map _
  inside := by
    intro b a n h
    obtain ⟨field, hdecode, heq⟩ := map_eq_ok_iff.1 h
    cases heq
    exact (Frame.encode_of_decode hdecode).1.2.1
  ready := by
    intro r a n h
    obtain ⟨field, hdecode, heq⟩ := map_eq_ok_iff.1 h
    cases heq
    refine ⟨r.advanceTo (r.used + field.2), ?_, unused_advanceTo r field.2⟩
    have hbuffered : r.buffered ≠ 0 := by
      intro hzero
      rw [decode_of_size_eq_zero (r.size_unused.trans hzero)] at hdecode
      cases hdecode
    rw [nextFrame, frame_decode hbuffered, hdecode]
  halt := by
    intro r e h
    have hdecode := map_eq_error_iff.1 h
    by_cases hbuffered : r.buffered = 0
    · rw [decode_of_size_eq_zero (r.size_unused.trans hbuffered)] at hdecode
      cases hdecode
      rw [nextFrame, frame_of_empty hbuffered]
      rfl
    · rw [nextFrame, frame_decode hbuffered, hdecode]
      by_cases he : e.isIncomplete = true
      · simp only [Reader.halt, he, if_true]
      · simp only [Reader.halt, he, if_false, Bool.false_eq_true]

/-! ## A header and frames -/

/-- How a stream ends: with its end, or with an error. -/
def Ending.of : Option StreamError → Ending
  | none => .endOfStream
  | some e => .failure (.ofStream e)

/-- What a call of a reader gives. -/
inductive Reading where
  | header
  | frame (f : Frame)
  /-- The stream has ended between two frames. -/
  | over
  | fault (f : ReadFault)
deriving DecidableEq

/-- What `n` reads of a frame give, up to the first that gives none. -/
def readFrames (ending : Ending) : (n : Nat) → Reader → List ByteArray → List Reading
  | 0, _, _ => []
  | n + 1, r, pieces =>
    let o := readFrame ending r pieces
    match o.result with
    | .ok (some f) => .frame f :: readFrames ending n o.reader o.pieces
    | .ok none => [.over]
    | .error f => [.fault f]

/-- What a new reader gives: the header, if it is asked for, and `n` frames. -/
def readings (ending : Ending) (greets : Bool) (n : Nat) (pieces : List ByteArray) : List Reading :=
  if greets then
    let o := readHeader ending .empty pieces
    match o.result with
    | .ok () => .header :: readFrames ending n o.reader o.pieces
    | .error f => [.fault f]
  else readFrames ending n .empty pieces

/-! ## The same by the codec alone -/

/-- What is left of a stream that ended where a value was due. -/
def leftover (left : Nat) : ReadFault := if left = 0 then .endOfStream else .truncated left

/-- What the ending makes of a value that lacks bytes, when `left` bytes were left. -/
def unfinished (error? : Option StreamError) (left : Nat) : ReadFault :=
  match error? with
  | none => leftover left
  | some s => .ofStream s

/-- What the codec's error means, when `left` bytes were left and no more come. -/
def faultAtEnd (error? : Option StreamError) (left : Nat) (e : WireError) : ReadFault :=
  if e.isIncomplete then unfinished error? left else .malformed e

/-- The frames from an offset on, at most `n`. -/
def sliceFrames (error? : Option StreamError) (b : ByteArray) : (n offset : Nat) → List Reading
  | 0, _ => []
  | n + 1, offset =>
    match Frame.decode (restOf b offset) with
    | .ok (f, size) => .frame f :: sliceFrames error? b n (offset + size)
    | .error e =>
      if error? = none ∧ b.size ≤ offset then [.over]
      else [.fault (faultAtEnd error? (b.size - offset) e)]

/-- The header, if it is asked for, and at most `n` frames of the bytes. -/
def sliceReadings (error? : Option StreamError) (greets : Bool) (n : Nat) (b : ByteArray) :
    List Reading :=
  if greets then
    match Header.check (b.extract 0 Header.size) with
    | .ok () => .header :: sliceFrames error? b n Header.size
    | .error e => [.fault (faultAtEnd error? b.size e)]
  else sliceFrames error? b n 0

/-! ## Both are the same -/

section frames

variable {ending : Ending} {r : Reader} {pieces : List ByteArray} {n : Nat}

theorem readFrames_of_frame {f : Frame} {next : Reader} {left : List ByteArray}
    (h : readFrame ending r pieces = ⟨.ok (some f), next, left⟩) :
    readFrames ending (n + 1) r pieces = .frame f :: readFrames ending n next left := by
  rw [readFrames, h]

theorem readFrames_of_over (h : (readFrame ending r pieces).result = .ok none) :
    readFrames ending (n + 1) r pieces = [.over] := by
  simp only [readFrames, h]

theorem readFrames_of_fault {f : ReadFault} (h : (readFrame ending r pieces).result = .error f) :
    readFrames ending (n + 1) r pieces = [.fault f] := by
  simp only [readFrames, h]

end frames

theorem cutShort_eq_leftover {r : Reader} {left : Nat} (h : r.buffered = left) :
    r.cutShort = leftover left := by
  rw [Reader.cutShort, leftover, h]

/-- A reader that has read up to an offset reads on as the codec does from there. -/
theorem readFrames_eq_sliceFrames (error? : Option StreamError) (b : ByteArray) (n : Nat)
    {offset : Nat} (hoffset : offset ≤ b.size) {r : Reader} {pieces : List ByteArray}
    (hfull : AllFull pieces) (hjoined : joined r.unused pieces = restOf b offset) :
    readFrames (.of error?) n r pieces = sliceFrames error? b n offset := by
  induction n generalizing offset r pieces with
  | zero => rfl
  | succ n ih =>
    -- What the reader has not used and the pieces to come make up the bytes from the offset on.
    have hpull := pull_spec betweenFrames (.of error?) reads_frame hfull r
    have hsize := size_restOf b offset
    rw [hjoined, readingFrame] at hpull
    rw [sliceFrames]
    cases hdecode : Frame.decode (restOf b offset) with
    | ok field =>
      obtain ⟨f, size⟩ := field
      simp only [hdecode, map_ok] at hpull ⊢
      obtain ⟨next, left, hread, hleft, hrest⟩ := hpull
      have hle := (Frame.encode_of_decode hdecode).1.2.1
      rw [readFrames_of_frame hread]
      congr 1
      apply ih (by omega) hleft
      rw [hrest, restOf_restOf (by omega)]
    | error e =>
      simp only [hdecode, map_error] at hpull ⊢
      by_cases hover : error? = none ∧ b.size ≤ offset
      · -- Only a stream that ends between two frames gives none.
        obtain ⟨rfl, hnone⟩ := hover
        have he := decode_of_size_eq_zero (b := restOf b offset) (by omega)
        rw [hdecode] at he
        cases he
        simp only [WireError.isIncomplete, if_true] at hpull
        obtain ⟨last, hlast, hresult⟩ := hpull
        have hbuffered : last.buffered = 0 := by
          rw [← last.size_unused, hlast, hsize]
          omega
        rw [if_pos ⟨rfl, hnone⟩]
        apply readFrames_of_over
        exact hresult.trans (if_pos hbuffered)
      · rw [if_neg hover]
        apply readFrames_of_fault
        by_cases he : e.isIncomplete = true
        · simp only [he, if_true] at hpull
          obtain ⟨last, hlast, hresult⟩ := hpull
          have hbuffered : last.buffered = b.size - offset := by
            rw [← last.size_unused, hlast, hsize]
          rw [faultAtEnd, if_pos he]
          cases error? with
          | some s => exact hresult
          | none =>
            have hleft : last.buffered ≠ 0 := by
              intro hzero
              exact hover ⟨rfl, by omega⟩
            rw [unfinished, ← cutShort_eq_leftover hbuffered]
            exact hresult.trans (if_neg hleft)
        · rw [if_neg he] at hpull
          rw [faultAtEnd, if_neg he]
          exact hpull

/-- However the bytes are cut, a new reader gives what the codec gives on all of them at once. -/
theorem readings_eq_sliceReadings (error? : Option StreamError) (greets : Bool) (n : Nat)
    {pieces : List ByteArray} (hfull : AllFull pieces) :
    readings (.of error?) greets n pieces =
      sliceReadings error? greets n (joined .empty pieces) := by
  generalize hb : joined .empty pieces = b
  have hempty : Reader.empty.unused = .empty := rfl
  have hrest : restOf b 0 = b := ByteArray.extract_zero_size
  cases greets with
  | false =>
    apply readFrames_eq_sliceFrames error? b n (Nat.zero_le _) hfull
    rw [hempty, hb, hrest]
  | true =>
    have hpull := pull_spec (fun r => .error r.cutShort) (.of error?) reads_header hfull
      .empty
    rw [hempty, hb, readingHeader] at hpull
    simp only [readings, sliceReadings, if_true, check_extract]
    cases hcheck : Header.check b with
    | ok u =>
      simp only [hcheck, map_ok] at hpull ⊢
      obtain ⟨next, left, hread, hleft, hjoined⟩ := hpull
      have hsize : Header.size ≤ b.size := by
        apply Nat.not_lt.1
        intro hlt
        rw [Header.check_of_size_lt hlt] at hcheck
        cases hcheck
      have hheader : readHeader (.of error?) .empty pieces = ⟨.ok (), next, left⟩ := hread
      rw [hheader]
      simp only []
      rw [readFrames_eq_sliceFrames error? b n hsize hleft hjoined]
    | error e =>
      simp only [hcheck, map_error] at hpull ⊢
      have hfault : (readHeader (.of error?) .empty pieces).result =
          .error (faultAtEnd error? b.size e) := by
        by_cases he : e.isIncomplete = true
        · simp only [he, if_true] at hpull
          obtain ⟨last, hlast, hresult⟩ := hpull
          have hbuffered : last.buffered = b.size := by
            rw [← last.size_unused, hlast]
          rw [faultAtEnd, if_pos he]
          cases error? with
          | some s => exact hresult
          | none =>
            rw [unfinished, ← cutShort_eq_leftover hbuffered]
            exact hresult
        · rw [if_neg he] at hpull
          rw [faultAtEnd, if_neg he]
          exact hpull
      rw [hfault]

/-- Two ways of cutting the same bytes give the same readings, up to the first fault or the end of
the stream, and these are the codec's readings of the bytes. -/
theorem readings_independent_of_cuts (b : ByteArray) (pieces pieces' : List ByteArray)
    (hfull : AllFull pieces) (hfull' : AllFull pieces') (hb : joined .empty pieces = b)
    (hb' : joined .empty pieces' = b) (error? : Option StreamError) (greets : Bool) (n : Nat) :
    readings (.of error?) greets n pieces = readings (.of error?) greets n pieces' ∧
      readings (.of error?) greets n pieces = sliceReadings error? greets n b := by
  have h := readings_eq_sliceReadings error? greets n hfull
  have h' := readings_eq_sliceReadings error? greets n hfull'
  rw [hb] at h
  rw [hb'] at h'
  exact ⟨h.trans h'.symm, h⟩

/-- A header, a FETCH frame and the beginning of an ACKNOWLEDGE frame. -/
def shortStream : ByteArray := Header.bytes ++ ⟨#[0x05, 0x08, 0x00]⟩

/-- Whether it comes at once or in two pieces, the stream gives the header, the frame and the fault
of two bytes that were left. -/
theorem readings_of_shortStream :
    let b := shortStream
    let halves := [b.extract 0 2, b.extract 2 9]
    readings .endOfStream true 3 [b] = readings .endOfStream true 3 halves ∧
      readings .endOfStream true 3 [b] = [.header, .frame .fetch, .fault (.truncated 2)] := by
  have hone : AllFull [shortStream] := by decide
  have htwo : AllFull [shortStream.extract 0 2, shortStream.extract 2 9] := by decide
  have h := readings_independent_of_cuts shortStream _ _ hone htwo (by decide) (by decide) none
    true 3
  have hslice : sliceReadings none true 3 shortStream =
      [.header, .frame .fetch, .fault (.truncated 2)] := by decide
  exact ⟨h.1, h.2.trans hslice⟩

end Courier.Stream
