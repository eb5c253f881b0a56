/-! # Hexadecimal text

Bytes as pairs of lower-case hexadecimal digits.
-/
set_option autoImplicit false

namespace Courier.Text

/-- One hexadecimal digit. -/
def hexDigit (n : Nat) : Char :=
  if n < 10 then Char.ofNat (0x30 + n) else Char.ofNat (0x57 + n)

def hexByte (b : UInt8) : List Char :=
  [hexDigit (b.toNat / 16), hexDigit (b.toNat % 16)]

def hex (bytes : ByteArray) : String :=
  String.ofList (bytes.data.toList.flatMap hexByte)

end Courier.Text
