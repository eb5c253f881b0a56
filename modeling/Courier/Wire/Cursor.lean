import Courier.Wire.BigEndian
import Courier.Wire.Error
import Courier.Wire.Label

/-! # Reading at a position

A reader of one field takes the input and a position in it, and gives the field and the position
after it. A field that runs past the end is `incomplete` by exactly the bytes it lacks. Since
positions count from the start of the input, a field that was read stays the same, at the same
place, when more input arrives.
-/
set_option autoImplicit false

namespace Courier.Wire

def skipAt (input : ByteArray) (pos n : Nat) : Except WireError Nat :=
  if pos + n ≤ input.size then .ok (pos + n)
  else .error (.incomplete (pos + n - input.size))

def takeAt (input : ByteArray) (pos n : Nat) : Except WireError (ByteArray × Nat) := do
  let next ← skipAt input pos n
  return (input.extract pos next, next)

def byteAt (input : ByteArray) (pos : Nat) : Except WireError (UInt8 × Nat) :=
  if h : pos < input.size then .ok (input[pos], pos + 1)
  else .error (.incomplete (pos + 1 - input.size))

/-- Reads a number of `k` bytes. -/
def numberAt (k : Nat) (input : ByteArray) (pos : Nat) : Except WireError (Nat × Nat) := do
  let (bytes, next) ← takeAt input pos k
  return (ofBigEndian bytes.data.toList, next)

/-- Reads a length byte and as many bytes. -/
def labelAt (input : ByteArray) (pos : Nat) : Except WireError (ByteArray × Nat) := do
  let (size, pos) ← byteAt input pos
  takeAt input pos size.toNat

/-- Passes over a length byte and as many bytes. -/
def skipLabelAt (input : ByteArray) (pos : Nat) : Except WireError Nat := do
  let (size, pos) ← byteAt input pos
  skipAt input pos size.toNat

/-! ## Writing the same fields -/

/-- A number in `k` bytes. -/
def numberBytes (k n : Nat) : ByteArray := (bigEndian k n).toByteArray

/-- A byte string after its length byte. -/
def labelBytes {kind : LabelKind} (l : Label kind) : ByteArray :=
  [UInt8.ofNat l.size].toByteArray ++ l.bytes

end Courier.Wire
