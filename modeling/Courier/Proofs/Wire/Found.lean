import Courier.Wire.Cursor

/-! # Bytes found in an input

`Found input pos next b`: the bytes `b` stand in the input from `pos` up to `next`. Each reader of a
field gives a value and a next position exactly if the bytes of that value are found there; the
bytes of several fields are found one after the other. More input does not move what is found.
-/
set_option autoImplicit false

namespace Courier.Wire

/-- A part of the input stays the same when more input follows. -/
theorem extract_append_of_le {input : ByteArray} {pos next : Nat} (h : next ≤ input.size)
    (more : ByteArray) : (input ++ more).extract pos next = input.extract pos next := by
  have hempty : more.extract (pos - input.size) (next - input.size) = .empty := by
    rw [Nat.sub_eq_zero_of_le h, ByteArray.extract_eq_empty_iff]
    omega
  rw [ByteArray.extract_append, hempty, ByteArray.append_empty]

theorem extract_of_size_le {input : ByteArray} {pos next : Nat} (h : input.size ≤ next) :
    input.extract pos next = input.extract pos input.size := by
  have hwhole : (input.extract 0 input.size).extract pos next = input.extract pos input.size := by
    rw [ByteArray.extract_extract, Nat.zero_add, Nat.zero_add, Nat.min_eq_right h]
  rw [ByteArray.extract_zero_size] at hwhole
  exact hwhole

/-- The bytes stand in the input between two positions. -/
structure Found (input : ByteArray) (pos next : Nat) (b : ByteArray) : Prop where
  next_eq : next = pos + b.size
  next_le : next ≤ input.size
  extract_eq : input.extract pos next = b

namespace Found

variable {input : ByteArray} {pos mid next : Nat} {b c : ByteArray}

/-! ## Where bytes are found -/

theorem empty (h : pos ≤ input.size) : Found input pos pos .empty :=
  ⟨rfl, h, ByteArray.extract_same⟩

theorem eq_of_empty (h : Found input pos next .empty) : next = pos := h.next_eq

theorem of_extract (hpos : pos ≤ next) (hnext : next ≤ input.size) :
    Found input pos next (input.extract pos next) := by
  refine ⟨?_, hnext, rfl⟩
  rw [ByteArray.size_extract, Nat.min_eq_left hnext]
  omega

theorem pos_le (h : Found input pos next b) : pos ≤ next := by
  rw [h.next_eq]
  exact Nat.le_add_right _ _

theorem append_iff :
    Found input pos next (b ++ c) ↔ ∃ mid, Found input pos mid b ∧ Found input mid next c := by
  constructor
  · intro h
    have hnext := h.next_eq
    have hle := h.next_le
    rw [ByteArray.size_append] at hnext
    have hb : Found input pos (pos + b.size) (input.extract pos (pos + b.size)) :=
      of_extract (by omega) (by omega)
    have hc : Found input (pos + b.size) next (input.extract (pos + b.size) next) :=
      of_extract (by omega) hle
    have hsplit :
        input.extract pos (pos + b.size) ++ input.extract (pos + b.size) next = b ++ c := by
      rw [← h.extract_eq]
      exact (ByteArray.extract_eq_extract_append_extract _ (by omega) (by omega)).symm
    have hfirst : input.extract pos (pos + b.size) = b := by
      apply ByteArray.append_inj_left hsplit
      rw [ByteArray.size_extract]
      omega
    rw [hfirst] at hb hsplit
    rw [(ByteArray.append_right_inj _).1 hsplit] at hc
    exact ⟨_, hb, hc⟩
  · rintro ⟨mid, hb, hc⟩
    refine ⟨?_, hc.next_le, ?_⟩
    · rw [hc.next_eq, hb.next_eq, ByteArray.size_append, Nat.add_assoc]
    · rw [ByteArray.extract_eq_extract_append_extract mid hb.pos_le hc.pos_le, hb.extract_eq,
        hc.extract_eq]

/-! ## Input that grows or is cut -/

/-- Bytes stand at the end of those before them. -/
theorem of_append (before b after : ByteArray) :
    Found (before ++ b ++ after) before.size (before.size + b.size) b := by
  refine ⟨rfl, ?_, ?_⟩
  · rw [ByteArray.size_append, ByteArray.size_append]
    omega
  · rw [ByteArray.append_assoc]
    have h := ByteArray.extract_append_size_add (a := before) (b := b ++ after) (i := 0)
      (j := b.size)
    rw [Nat.add_zero] at h
    rw [h, ByteArray.extract_append_eq_left rfl]

theorem self (b after : ByteArray) : Found (b ++ after) 0 b.size b := by
  have h := of_append .empty b after
  rw [ByteArray.empty_append, ByteArray.size_empty, Nat.zero_add] at h
  exact h

theorem whole (b : ByteArray) : Found b 0 b.size b := by
  have h := self b .empty
  rw [ByteArray.append_empty] at h
  exact h

/-- Bytes are found at the start of an input exactly if it opens with them. -/
theorem zero_iff : (∃ next, Found input 0 next b) ↔ ∃ t, input = b ++ t := by
  constructor
  · rintro ⟨next, h⟩
    refine ⟨input.extract next input.size, ?_⟩
    have hsplit := ByteArray.extract_eq_extract_append_extract (a := input) next
      (Nat.zero_le _) h.next_le
    rw [ByteArray.extract_zero_size, h.extract_eq] at hsplit
    exact hsplit
  · rintro ⟨t, rfl⟩
    exact ⟨_, .self b t⟩

/-- What is found in a part of the input is found in the input. -/
theorem of_part {start stop : Nat} (hstart : start ≤ input.size)
    (h : Found (input.extract start stop) pos next b) :
    Found input (start + pos) (start + next) b := by
  have hle := h.next_le
  have hnext := h.next_eq
  have heq := h.extract_eq
  rw [ByteArray.size_extract] at hle
  rw [ByteArray.extract_extract] at heq
  by_cases hb : b.size = 0
  · have hsame : next = pos := by omega
    rw [ByteArray.size_eq_zero_iff.1 hb, hsame]
    exact empty (by omega)
  · have hmin : min (start + next) stop = start + next := by omega
    rw [hmin] at heq
    exact ⟨by omega, by omega, heq⟩

theorem extend (h : Found input pos next b) (more : ByteArray) :
    Found (input ++ more) pos next b := by
  have hle := h.next_le
  refine ⟨h.next_eq, ?_, ?_⟩
  · rw [ByteArray.size_append]
    omega
  · rw [extract_append_of_le hle, h.extract_eq]

end Found
end Courier.Wire
