/-! # Numbers as bytes

Fixed-width numbers, most significant byte first. `ofBigEndian (bigEndian k n)` is `n` when `n` has
at most `k` bytes.
-/
set_option autoImplicit false

namespace Courier.Wire

def bigEndian : (k n : Nat) → List UInt8
  | 0, _ => []
  | k + 1, n => bigEndian k (n / 256) ++ [UInt8.ofNat n]

/-- The number that bytes write. -/
def ofBigEndian (bytes : List UInt8) : Nat :=
  bytes.foldl (fun n b => n * 256 + b.toNat) 0

theorem length_bigEndian (k n : Nat) : (bigEndian k n).length = k := by
  induction k generalizing n with
  | zero => rfl
  | succ k ih => rw [bigEndian, List.length_append, ih]; rfl

theorem ofBigEndian_append_singleton (bytes : List UInt8) (b : UInt8) :
    ofBigEndian (bytes ++ [b]) = ofBigEndian bytes * 256 + b.toNat := by
  unfold ofBigEndian
  rw [List.foldl_append]
  rfl

theorem ofBigEndian_bigEndian (k n : Nat) (h : n < Nat.pow 256 k) :
    ofBigEndian (bigEndian k n) = n := by
  induction k generalizing n with
  | zero =>
    have : n = 0 := Nat.lt_one_iff.1 h
    subst this
    rfl
  | succ k ih =>
    have hq : n / 256 < Nat.pow 256 k := (Nat.div_lt_iff_lt_mul (by decide)).2 h
    rw [bigEndian, ofBigEndian_append_singleton, ih _ hq, UInt8.toNat_ofNat']
    omega

end Courier.Wire
