import Courier.Proofs.Wire.Prefixes

/-! # Frames behind other bytes

A reader looks at nothing before its position: what it reads `k` bytes later is what it reads at the
start of the input without its first `k` bytes, errors included (`decodeAt_eq_decode_rest`).
-/
set_option autoImplicit false

namespace Courier.Wire

variable {α β : Type} {input : ByteArray} {k : Nat}

/-! ## The rest of an input -/

/-- The input without its first `k` bytes. -/
def restOf (input : ByteArray) (k : Nat) : ByteArray := input.extract k input.size

/-- A value and a position, `k` bytes later. -/
def later (k : Nat) (field : α × Nat) : α × Nat := (field.1, k + field.2)

theorem size_restOf (input : ByteArray) (k : Nat) : (restOf input k).size = input.size - k := by
  rw [restOf, ByteArray.size_extract, Nat.min_self]

theorem extract_restOf (pos next : Nat) (hnext : k + next ≤ input.size) :
    (restOf input k).extract pos next = input.extract (k + pos) (k + next) := by
  rw [restOf, ByteArray.extract_extract]
  have hmin : min (k + next) input.size = k + next := by omega
  rw [hmin]

theorem restOf_restOf {n : Nat} (h : k + n ≤ input.size) :
    restOf (restOf input k) n = restOf input (k + n) := by
  have hstop : k + (restOf input k).size = input.size := by
    rw [size_restOf]
    omega
  show (restOf input k).extract n (restOf input k).size = input.extract (k + n) input.size
  rw [extract_restOf n _ (Nat.le_of_eq hstop), hstop]

/-- Steps that agree up to a move, one after the other. -/
theorem bind_eq_map {γ δ : Type} {x : Except WireError β} {y : Except WireError α} {move : α → β}
    {f : β → Except WireError δ} {g : α → Except WireError γ} {move' : γ → δ}
    (hx : x = y.map move) (hf : ∀ a, f (move a) = (g a).map move') :
    x >>= f = (y >>= g).map move' := by
  rw [hx]
  cases y with
  | error e => rfl
  | ok a => exact hf a

/-! ## The readers -/

theorem skipAt_later (hk : k ≤ input.size) (pos n : Nat) :
    skipAt input (k + pos) n = (skipAt (restOf input k) pos n).map (k + ·) := by
  have hsize := size_restOf input k
  by_cases h : k + pos + n ≤ input.size
  · have h' : pos + n ≤ (restOf input k).size := by omega
    rw [skipAt, skipAt, if_pos h, if_pos h', map_ok, Nat.add_assoc]
  · have h' : ¬ pos + n ≤ (restOf input k).size := by omega
    have hmissing : k + pos + n - input.size = pos + n - (restOf input k).size := by omega
    rw [skipAt, skipAt, if_neg h, if_neg h', map_error, hmissing]

theorem byteAt_later (hk : k ≤ input.size) (pos : Nat) :
    byteAt input (k + pos) = (byteAt (restOf input k) pos).map (later k) := by
  have hsize := size_restOf input k
  by_cases h : k + pos < input.size
  · have hf : Found (restOf input k) pos (pos + 1) [input[k + pos]].toByteArray := by
      refine ⟨rfl, by omega, ?_⟩
      rw [extract_restOf pos (pos + 1) (by omega)]
      exact ByteArray.extract_add_one h
    rw [byteAt_eq_ok_iff.2 hf, byteAt, dif_pos h]
    rfl
  · have h' : ¬ pos < (restOf input k).size := by omega
    have hmissing : k + pos + 1 - input.size = pos + 1 - (restOf input k).size := by omega
    rw [byteAt, byteAt, dif_neg h, dif_neg h', map_error, hmissing]

theorem numberAt_later (hk : k ≤ input.size) (width pos : Nat) :
    numberAt width input (k + pos) = (numberAt width (restOf input k) pos).map (later k) := by
  have htake : takeAt input (k + pos) width =
      (takeAt (restOf input k) pos width).map (later k) := by
    have hskip := skipAt_later hk pos width
    unfold takeAt
    cases hnext : skipAt (restOf input k) pos width with
    | error e =>
      rw [hnext] at hskip
      rw [hskip]
      rfl
    | ok next =>
      obtain ⟨_, hle⟩ := skipAt_eq_ok_iff.1 hnext
      have hsize := size_restOf input k
      rw [hnext] at hskip
      rw [hskip, map_ok, ok_bind, ok_bind, extract_restOf pos next (by omega)]
      rfl
  exact bind_eq_map htake fun field => rfl

theorem skipLabelAt_later (hk : k ≤ input.size) (pos : Nat) :
    skipLabelAt input (k + pos) = (skipLabelAt (restOf input k) pos).map (k + ·) :=
  bind_eq_map (byteAt_later hk pos) fun field => skipAt_later hk field.2 field.1.toNat

namespace Frame

/-! ## Frames -/

theorem skipPacketAt_later (hk : k ≤ input.size) (start pos : Nat) :
    skipPacketAt input (k + start) (k + pos) =
      (skipPacketAt (restOf input k) start pos).map (k + ·) := by
  refine bind_eq_map (skipAt_later hk pos 8) fun pos => ?_
  refine bind_eq_map (skipLabelAt_later hk pos) fun pos => ?_
  refine bind_eq_map (skipLabelAt_later hk pos) fun pos => ?_
  refine bind_eq_map (numberAt_later hk 4 pos) fun field => ?_
  obtain ⟨size, pos⟩ := field
  have hlength : k + pos - (k + start) = pos - start := by omega
  simp only [later, hlength]
  by_cases hpayload : size > maxPayloadSize
  · rw [if_pos hpayload, if_pos hpayload]
    rfl
  · rw [if_neg hpayload, if_neg hpayload]
    by_cases hframe : pos - start + size > maxFrameSize
    · rw [if_pos hframe, if_pos hframe]
      rfl
    · rw [if_neg hframe, if_neg hframe]
      exact skipAt_later hk pos size

theorem skipPacketsAt_later (hk : k ≤ input.size) (start n pos : Nat) :
    skipPacketsAt input (k + start) n (k + pos) =
      (skipPacketsAt (restOf input k) start n pos).map (k + ·) := by
  induction n generalizing pos with
  | zero => rfl
  | succ n ih => exact bind_eq_map (skipPacketAt_later hk start pos) ih

theorem endAt_later (hk : k ≤ input.size) :
    endAt input k = (endAt (restOf input k) 0).map (k + ·) := by
  refine bind_eq_map (byteAt_later hk 0) fun field => ?_
  obtain ⟨code, pos⟩ := field
  simp only [later]
  cases Command.ofCode? code with
  | none => rfl
  | some c =>
    cases c with
    | attach | authenticate | identify | session => exact skipLabelAt_later hk pos
    | acknowledge => exact skipAt_later hk pos 4
    | send =>
      refine bind_eq_map (byteAt_later hk pos) fun field => ?_
      exact skipPacketsAt_later hk 0 field.1.toNat field.2
    | fetch | requestAcknowledgment | detach => rfl

/-- A frame is read at a position as it is read at the start of the rest. -/
theorem decodeAt_eq_decode_rest (hk : k ≤ input.size) :
    decodeAt input k = (decode (restOf input k)).map (later k) := by
  have hend := endAt_later hk
  unfold decode decodeAt
  cases hnext : endAt (restOf input k) 0 with
  | error e =>
    rw [hnext] at hend
    rw [hend]
    rfl
  | ok next =>
    have hle := inside_endAt (restOf input k) 0 next hnext
    have hsize := size_restOf input k
    rw [hnext] at hend
    rw [hend, map_ok, ok_bind, ok_bind, extract_restOf 0 next (by omega)]
    cases parse (input.extract (k + 0) (k + next)) with
    | error e => rfl
    | ok field => rfl

end Frame
end Courier.Wire
