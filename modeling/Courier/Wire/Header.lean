import Courier.Wire.Error

/-! # The connection header

An initiator opens a connection with six bytes: a magic of four and a version of two. The length is
checked first, then the magic, then the version.
-/
set_option autoImplicit false

namespace Courier.Wire.Header

def size : Nat := 6

def magic : ByteArray := ⟨#[0x46, 0x41, 0x53, 0x54]⟩

def major : UInt8 := 1

def minor : UInt8 := 0

def bytes : ByteArray := magic ++ [major, minor].toByteArray

/-- Whether the input opens with the header. -/
def check (input : ByteArray) : Except WireError Unit :=
  match (input.extract 0 size).data.toList with
  | a :: b :: c :: d :: x :: y :: _ =>
    if [a, b, c, d].toByteArray ≠ magic then .error (.invalidMagic [a, b, c, d].toByteArray)
    else if x ≠ major ∨ y ≠ minor then .error (.unsupportedVersion x y)
    else .ok ()
  | short => .error (.incomplete (size - short.length))

end Courier.Wire.Header
