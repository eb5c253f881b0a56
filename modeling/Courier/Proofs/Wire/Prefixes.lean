import Courier.Proofs.Wire.FrameCodec
import Courier.Wire.Header

/-! # Input that arrives in parts

A reading of a part of the input lacks bytes, or it is settled: it gives the same value, or the same
error, whatever follows (`settles_decodeAt`). A frame does not depend on what stands before it: at
a later position it is read as it is read at the start of the rest (`decodeAt_eq_decode_rest`).
-/
set_option autoImplicit false

namespace Courier.Wire

variable {α β : Type}

/-! ## Settled readings -/

/-- The reading needs more input. -/
def Lacks : Except WireError α → Prop
  | .ok _ => False
  | .error e => e.isIncomplete = true

/-- More input changes a reading only if it lacks bytes. -/
def Settles (read : ByteArray → Except WireError α) : Prop :=
  ∀ input more, ¬ Lacks (read input) → read (input ++ more) = read input

theorem not_lacks_of_eq_ok {x : Except WireError α} {a : α} (h : x = .ok a) : ¬ Lacks x := by
  rw [h]
  exact not_false

theorem lacks_bind_of_lacks {x : Except WireError α} {f : α → Except WireError β} (h : Lacks x) :
    Lacks (x >>= f) := by
  cases x with
  | ok a => exact h.elim
  | error e => exact h

theorem settles_const (x : Except WireError α) : Settles fun _ => x := fun _ _ _ => rfl

theorem Settles.bind {read : ByteArray → Except WireError α}
    {next : α → ByteArray → Except WireError β} (hread : Settles read)
    (hnext : ∀ a, Settles (next a)) :
    Settles fun input => read input >>= fun a => next a input := by
  intro input more h
  have hfirst : ¬ Lacks (read input) := fun hl => h (lacks_bind_of_lacks hl)
  simp only [hread input more hfirst]
  cases hr : read input with
  | error e => rfl
  | ok a =>
    simp only [hr, ok_bind] at h
    exact hnext a input more h

theorem Settles.map {read : ByteArray → Except WireError α} (h : Settles read) (f : α → β) :
    Settles fun input => (read input).map f := by
  intro input more hmap
  have hread : ¬ Lacks (read input) := by
    intro hl
    cases hr : read input with
    | ok a =>
      rw [hr] at hl
      exact hl
    | error e =>
      rw [hr] at hl
      simp only [hr] at hmap
      exact hmap hl
  simp only [h input more hread]

theorem settles_ite (p : Prop) [Decidable p] {read read' : ByteArray → Except WireError α}
    (h : Settles read) (h' : Settles read') :
    Settles fun input => if p then read input else read' input := by
  split
  · exact h
  · exact h'

/-! ## The readers settle -/

theorem settles_skipAt (pos n : Nat) : Settles fun input => skipAt input pos n := by
  intro input more h
  simp only [skipAt] at h ⊢
  split at h
  case isTrue hle =>
    rw [if_pos hle, if_pos (by rw [ByteArray.size_append]; omega)]
  case isFalse => exact absurd rfl h

theorem settles_takeAt (pos n : Nat) : Settles fun input => takeAt input pos n := by
  intro input more h
  simp only [] at h ⊢
  cases hr : takeAt input pos n with
  | error e =>
    rw [hr] at h
    unfold takeAt skipAt at hr
    split at hr
    · cases hr
    · cases hr
      exact absurd rfl h
  | ok field =>
    obtain ⟨b, next⟩ := field
    obtain ⟨hsize, hf⟩ := takeAt_eq_ok_iff.1 hr
    exact takeAt_eq_ok_iff.2 ⟨hsize, hf.extend more⟩

theorem settles_byteAt (pos : Nat) : Settles fun input => byteAt input pos := by
  intro input more h
  simp only [] at h ⊢
  cases hr : byteAt input pos with
  | error e =>
    rw [hr] at h
    unfold byteAt at hr
    split at hr
    · cases hr
    · cases hr
      exact absurd rfl h
  | ok field =>
    obtain ⟨b, next⟩ := field
    exact byteAt_eq_ok_iff.2 ((byteAt_eq_ok_iff.1 hr).extend more)

theorem settles_numberAt (k pos : Nat) : Settles fun input => numberAt k input pos :=
  (settles_takeAt pos k).bind fun _ => settles_const _

theorem settles_skipLabelAt (pos : Nat) : Settles fun input => skipLabelAt input pos :=
  (settles_byteAt pos).bind fun field => settles_skipAt field.2 field.1.toNat

namespace Frame

theorem settles_skipPacketAt (start pos : Nat) :
    Settles fun input => skipPacketAt input start pos := by
  refine (settles_skipAt pos 8).bind fun pos => (settles_skipLabelAt pos).bind fun pos =>
    (settles_skipLabelAt pos).bind fun pos => (settles_numberAt 4 pos).bind fun field => ?_
  apply settles_ite
  · exact settles_const _
  · apply settles_ite
    · exact settles_const _
    · exact settles_skipAt field.2 field.1

theorem settles_skipPacketsAt (start n pos : Nat) :
    Settles fun input => skipPacketsAt input start n pos := by
  induction n generalizing pos with
  | zero => exact settles_const _
  | succ n ih => exact (settles_skipPacketAt start pos).bind fun pos => ih pos

theorem settles_endAt (start : Nat) : Settles fun input => endAt input start := by
  refine (settles_byteAt start).bind fun field => ?_
  obtain ⟨code, pos⟩ := field
  simp only []
  cases Command.ofCode? code with
  | none => exact settles_const _
  | some c =>
    cases c with
    | attach | authenticate | identify | session => exact settles_skipLabelAt pos
    | acknowledge => exact settles_skipAt pos 4
    | send => exact (settles_byteAt pos).bind fun field => settles_skipPacketsAt start _ field.2
    | fetch | requestAcknowledgment | detach => exact settles_const _

/-! ## A frame ends inside the input -/

/-- The position that is read lies in the input. -/
def Inside (input : ByteArray) (x : Except WireError Nat) : Prop :=
  ∀ next, x = .ok next → next ≤ input.size

theorem inside_skipAt (input : ByteArray) (pos n : Nat) : Inside input (skipAt input pos n) :=
  fun _ h => (skipAt_eq_ok_iff.1 h).2

theorem inside_skipLabelAt (input : ByteArray) (pos : Nat) :
    Inside input (skipLabelAt input pos) := by
  intro next h
  obtain ⟨b, hb⟩ := skipLabelAt_eq_ok_iff.1 h
  exact (labelAt_eq_ok_iff.1 hb).2.next_le

theorem inside_skipPacketAt (input : ByteArray) (start pos : Nat) :
    Inside input (skipPacketAt input start pos) := by
  intro next h
  simp only [skipPacketAt, bind_eq_ok_iff, Prod.exists] at h
  obtain ⟨_, _, _, _, _, _, size, pos, _, hskip⟩ := h
  split at hskip
  · cases hskip
  · split at hskip
    · cases hskip
    · exact inside_skipAt input _ _ next hskip

theorem inside_skipPacketsAt (input : ByteArray) (start n : Nat) {pos : Nat}
    (hpos : pos ≤ input.size) : Inside input (skipPacketsAt input start n pos) := by
  induction n generalizing pos with
  | zero =>
    intro next h
    cases h
    exact hpos
  | succ n ih =>
    intro next h
    obtain ⟨mid, hmid, hrest⟩ := bind_eq_ok_iff.1 h
    exact ih (inside_skipPacketAt input start pos mid hmid) next hrest

theorem inside_endAt (input : ByteArray) (start : Nat) : Inside input (endAt input start) := by
  intro next h
  obtain ⟨⟨code, pos⟩, hbyte, h⟩ := bind_eq_ok_iff.1 h
  have hpos := (byteAt_eq_ok_iff.1 hbyte).next_le
  simp only [] at h
  split at h
  case h_5 => exact inside_skipAt input pos 4 next h
  case h_6 =>
    obtain ⟨⟨count, pos⟩, hcount, h⟩ := bind_eq_ok_iff.1 h
    exact inside_skipPacketsAt input start _ (byteAt_eq_ok_iff.1 hcount).next_le next h
  case h_1 | h_2 | h_3 | h_4 => exact inside_skipLabelAt input pos next h
  all_goals
    cases h
    exact hpos

/-! ## Frames settle -/

theorem lacks_decodeAt_of_lacks_endAt {input : ByteArray} {start : Nat}
    (h : Lacks (endAt input start)) : Lacks (decodeAt input start) :=
  lacks_bind_of_lacks h

/-- More input changes neither a frame nor an error, unless the error is that input is missing. -/
theorem settles_decodeAt (start : Nat) : Settles fun input => decodeAt input start := by
  intro input more h
  have hend := settles_endAt start input more fun hl => h (lacks_decodeAt_of_lacks_endAt hl)
  simp only [decodeAt] at hend ⊢
  rw [hend]
  cases hnext : endAt input start with
  | error e => rfl
  | ok next =>
    rw [ok_bind, ok_bind, extract_append_of_le (inside_endAt input start next hnext)]

end Frame

/-! ## The header settles -/

theorem Header.check_of_size_lt {input : ByteArray} (h : input.size < Header.size) :
    Header.check input = .error (.incomplete (Header.size - input.size)) := by
  have hlen : (input.extract 0 Header.size).data.toList.length = input.size := by
    change (input.extract 0 Header.size).size = _
    rw [ByteArray.size_extract]
    omega
  unfold Header.check
  split
  case h_1 hbytes =>
    rw [hbytes] at hlen
    simp only [List.length_cons] at hlen
    unfold Header.size at h
    omega
  case h_2 => rw [hlen]

/-- An input that is long enough is accepted or refused, whatever follows. -/
theorem Header.not_lacks_of_size_le {input : ByteArray} (h : Header.size ≤ input.size) :
    ¬ Lacks (Header.check input) := by
  have hlen : (input.extract 0 Header.size).data.toList.length = Header.size := by
    change (input.extract 0 Header.size).size = _
    rw [ByteArray.size_extract]
    omega
  unfold Header.check
  split
  · split
    · exact Bool.false_ne_true
    · split
      · exact Bool.false_ne_true
      · exact not_false
  · rename_i hshort
    match hbytes : (input.extract 0 Header.size).data.toList with
    | a :: b :: c :: d :: x :: y :: rest => exact absurd hbytes (hshort a b c d x y rest)
    | [] | [_] | [_, _] | [_, _, _] | [_, _, _, _] | [_, _, _, _, _] =>
      rw [hbytes] at hlen
      simp [Header.size] at hlen

/-- Only the header itself is accepted. -/
theorem Header.check_eq_ok_iff {input : ByteArray} :
    Header.check input = .ok () ↔ input.extract 0 Header.size = Header.bytes := by
  constructor
  · intro h
    have hlen : (input.extract 0 Header.size).data.toList.length ≤ Header.size := by
      change (input.extract 0 Header.size).size ≤ _
      rw [ByteArray.size_extract]
      omega
    unfold Header.check at h
    split at h
    · rename_i a b c d x y rest hbytes
      split at h
      · cases h
      · rename_i hmagic
        split at h
        · cases h
        · rename_i hversion
          obtain ⟨rfl, rfl⟩ : x = major ∧ y = minor := by simpa using hversion
          rw [hbytes] at hlen
          have hrest : rest = [] := by
            apply List.eq_nil_of_length_eq_zero
            simp only [List.length_cons] at hlen
            unfold Header.size at hlen
            omega
          have hfour : [a, b, c, d].toByteArray.data.toList = magic.data.toList := by
            rw [Decidable.of_not_not hmagic]
          have hfour : [a, b, c, d] = magic.data.toList := hfour
          apply ByteArray.ext
          apply Array.toList_inj.1
          rw [hbytes, hrest]
          exact congrArg (· ++ [major, minor]) hfour
    · cases h
  · intro h
    unfold Header.check
    rw [h]
    rfl
/-- Six bytes decide about the header. -/
theorem settles_check : Settles Header.check := by
  intro input more h
  by_cases hsize : Header.size ≤ input.size
  · rw [Header.check, extract_append_of_le hsize]
    rfl
  · rw [Header.check_of_size_lt (Nat.not_le.1 hsize)] at h
    exact absurd rfl h

end Courier.Wire
