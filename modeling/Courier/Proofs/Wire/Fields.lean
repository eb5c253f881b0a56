import Courier.Proofs.Steps
import Courier.Proofs.Wire.Found
import Mathlib.Algebra.Group.Nat.Defs

/-! # What the readers of fields find

One law for each reader of a field: it gives a value and a position exactly if the bytes of that
value are found up to there. A number has bytes if it fits its width, a byte string if its length
byte can hold its size.
-/
set_option autoImplicit false

namespace Courier.Wire

variable {input : ByteArray} {pos next : Nat}

/-! ## Numbers and their bytes -/

theorem bigEndian_snoc (k : Nat) (bytes : List UInt8) (b : UInt8) :
    bigEndian (k + 1) (ofBigEndian (bytes ++ [b])) = bigEndian k (ofBigEndian bytes) ++ [b] := by
  have hb : b.toNat < 256 := b.toNat_lt
  have hdiv : (ofBigEndian bytes * 256 + b.toNat) / 256 = ofBigEndian bytes := by omega
  have hlow : UInt8.ofNat (ofBigEndian bytes * 256 + b.toNat) = b := by
    apply UInt8.toNat_inj.1
    rw [UInt8.toNat_ofNat']
    omega
  rw [ofBigEndian_append_singleton, bigEndian, hdiv, hlow]

/-- Bytes are the bytes of the number they write. -/
theorem bigEndian_ofBigEndian (k : Nat) (bytes : List UInt8) (h : bytes.length = k) :
    bigEndian k (ofBigEndian bytes) = bytes := by
  induction k generalizing bytes with
  | zero =>
    rw [List.length_eq_zero_iff.1 h]
    rfl
  | succ k ih =>
    have hne : bytes ≠ [] := by
      intro hnil
      rw [hnil] at h
      cases h
    have hsplit := List.dropLast_concat_getLast hne
    have hlen : bytes.dropLast.length = k := by
      rw [List.length_dropLast, h]
      rfl
    rw [← hsplit, bigEndian_snoc, ih _ hlen]

/-- A number that `k` bytes write has at most `k` bytes. -/
theorem ofBigEndian_lt (k : Nat) (bytes : List UInt8) (h : bytes.length = k) :
    ofBigEndian bytes < 256 ^ k := by
  induction k generalizing bytes with
  | zero =>
    rw [List.length_eq_zero_iff.1 h]
    exact Nat.one_pos
  | succ k ih =>
    have hne : bytes ≠ [] := by
      intro hnil
      rw [hnil] at h
      cases h
    have hlen : bytes.dropLast.length = k := by
      rw [List.length_dropLast, h]
      rfl
    have hlast := (bytes.getLast hne).toNat_lt
    have hfront := ih _ hlen
    rw [← List.dropLast_concat_getLast hne, ofBigEndian_append_singleton, Nat.pow_succ]
    omega

theorem size_numberBytes (k n : Nat) : (numberBytes k n).size = k := by
  rw [numberBytes, List.size_toByteArray, length_bigEndian]

theorem size_labelBytes {kind : LabelKind} (l : Label kind) : (labelBytes l).size = 1 + l.size := by
  rw [labelBytes, ByteArray.size_append, List.size_toByteArray]
  rfl

/-! ## The readers -/

theorem skipAt_eq_ok_iff {n : Nat} :
    skipAt input pos n = .ok next ↔ next = pos + n ∧ next ≤ input.size := by
  unfold skipAt
  split
  case isTrue h =>
    constructor
    · intro heq
      cases heq
      exact ⟨rfl, h⟩
    · rintro ⟨rfl, _⟩
      rfl
  case isFalse h =>
    constructor
    · intro heq
      cases heq
    · rintro ⟨rfl, hle⟩
      exact absurd hle h

theorem takeAt_eq_ok_iff {n : Nat} {b : ByteArray} :
    takeAt input pos n = .ok (b, next) ↔ b.size = n ∧ Found input pos next b := by
  unfold takeAt
  rw [bind_eq_ok_iff]
  constructor
  · rintro ⟨stop, hskip, heq⟩
    obtain ⟨rfl, hle⟩ := skipAt_eq_ok_iff.1 hskip
    cases heq
    refine ⟨?_, Found.of_extract (Nat.le_add_right _ _) hle⟩
    rw [ByteArray.size_extract]
    omega
  · rintro ⟨rfl, h⟩
    refine ⟨next, skipAt_eq_ok_iff.2 ⟨h.next_eq, h.next_le⟩, ?_⟩
    rw [h.extract_eq]
    rfl

theorem byteAt_eq_ok_iff {b : UInt8} :
    byteAt input pos = .ok (b, next) ↔ Found input pos next [b].toByteArray := by
  unfold byteAt
  split
  case isTrue h =>
    have hone : input.extract pos (pos + 1) = [input[pos]].toByteArray :=
      ByteArray.extract_add_one h
    constructor
    · intro heq
      cases heq
      exact ⟨rfl, h, hone⟩
    · intro hf
      have hnext : next = pos + 1 := hf.next_eq
      have hbyte := hf.extract_eq
      rw [hnext, hone, List.toByteArray_inj] at hbyte
      rw [hnext, List.singleton_inj.1 hbyte]
  case isFalse h =>
    constructor
    · intro heq
      cases heq
    · intro hf
      have hnext : next = pos + 1 := hf.next_eq
      exact absurd hf.next_le (by omega)

theorem numberAt_eq_ok_iff {k v : Nat} :
    numberAt k input pos = .ok (v, next) ↔
      v < 256 ^ k ∧ Found input pos next (numberBytes k v) := by
  unfold numberAt
  rw [bind_eq_ok_iff]
  constructor
  · rintro ⟨⟨bytes, stop⟩, htake, heq⟩
    obtain ⟨hsize, hf⟩ := takeAt_eq_ok_iff.1 htake
    cases heq
    have hlen : bytes.data.toList.length = k := hsize
    refine ⟨ofBigEndian_lt k _ hlen, ?_⟩
    have hbytes : numberBytes k (ofBigEndian bytes.data.toList) = bytes := by
      rw [numberBytes, bigEndian_ofBigEndian k _ hlen]
      apply ByteArray.ext
      simp
    rw [hbytes]
    exact hf
  · rintro ⟨hlt, hf⟩
    refine ⟨⟨_, next⟩, takeAt_eq_ok_iff.2 ⟨size_numberBytes k v, hf⟩, ?_⟩
    have hv : ofBigEndian (numberBytes k v).data.toList = v := by
      rw [numberBytes, List.data_toByteArray]
      exact ofBigEndian_bigEndian k v hlt
    exact congrArg (fun n => Except.ok (n, next)) hv

theorem labelAt_eq_ok_iff {b : ByteArray} :
    labelAt input pos = .ok (b, next) ↔
      b.size ≤ maxLabelSize ∧ Found input pos next ([UInt8.ofNat b.size].toByteArray ++ b) := by
  unfold labelAt
  rw [bind_eq_ok_iff, Found.append_iff]
  constructor
  · rintro ⟨⟨size, mid⟩, hbyte, htake⟩
    obtain ⟨hsize, hb⟩ := takeAt_eq_ok_iff.1 htake
    have hlt := size.toNat_lt
    refine ⟨by rw [hsize]; unfold maxLabelSize; omega, mid, ?_, hb⟩
    rw [hsize, UInt8.ofNat_toNat]
    exact byteAt_eq_ok_iff.1 hbyte
  · rintro ⟨hle, mid, hbyte, hb⟩
    refine ⟨(UInt8.ofNat b.size, mid), byteAt_eq_ok_iff.2 hbyte, takeAt_eq_ok_iff.2 ⟨?_, hb⟩⟩
    unfold maxLabelSize at hle
    rw [UInt8.toNat_ofNat']
    omega

/-- Passing over a label's field ends where reading it does. -/
theorem skipLabelAt_eq_ok_iff :
    skipLabelAt input pos = .ok next ↔ ∃ b, labelAt input pos = .ok (b, next) := by
  unfold skipLabelAt labelAt
  cases byteAt input pos with
  | error e => simp
  | ok field =>
    obtain ⟨size, mid⟩ := field
    simp only [ok_bind]
    constructor
    · intro h
      obtain ⟨rfl, hle⟩ := skipAt_eq_ok_iff.1 h
      refine ⟨_, takeAt_eq_ok_iff.2 ⟨?_, Found.of_extract (Nat.le_add_right _ _) hle⟩⟩
      rw [ByteArray.size_extract]
      omega
    · rintro ⟨b, h⟩
      obtain ⟨hsize, hf⟩ := takeAt_eq_ok_iff.1 h
      rw [← hsize]
      exact skipAt_eq_ok_iff.2 ⟨hf.next_eq, hf.next_le⟩

/-! ## Labels with their kind -/

theorem of?_eq_ok_iff {kind : LabelKind} {b : ByteArray} {l : Label kind} :
    Label.of? kind b = .ok l ↔ l.bytes = b := by
  constructor
  · exact Label.bytes_of_of?
  · rintro rfl
    exact Label.of?_bytes l

/-- A label's field holds the label. -/
theorem labelAt_eq_ok_bytes_iff {kind : LabelKind} {l : Label kind} :
    labelAt input pos = .ok (l.bytes, next) ↔ Found input pos next (labelBytes l) := by
  rw [labelAt_eq_ok_iff]
  exact and_iff_right l.size_le

end Courier.Wire
