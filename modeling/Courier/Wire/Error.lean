import Courier.Text.Hex
import Courier.Wire.Bytes

/-! # Codec errors

Why a value cannot be written, or why bytes are not one. `incomplete` is the only error that more
input can mend; every other one is final, whatever bytes follow.
-/
set_option autoImplicit false

namespace Courier.Wire

inductive WireError where
  /-- The input ends inside the value; at least `needed` more bytes are required. -/
  | incomplete (needed : Nat)
  /-- A connection does not open with the protocol's magic. -/
  | invalidMagic (found : ByteArray)
  /-- A connection opens with a version that is not spoken here. -/
  | unsupportedVersion (major minor : UInt8)
  /-- A label is empty or longer than its length byte can say. -/
  | invalidLength (field : String) (length : Nat)
  /-- A packet's payload is over the payload limit. -/
  | payloadTooLarge (size max : Nat)
  /-- A frame is over the frame limit. -/
  | frameTooLarge (size max : Nat)
  /-- A SEND frame would hold more packets than its count byte can say. -/
  | tooManyPackets (count max : Nat)
deriving DecidableEq

namespace WireError

/-- Whether more input can turn the error into a value. -/
def isIncomplete : WireError → Bool
  | incomplete _ => true
  | _ => false

/-- Bytes as a bracketed list of two-digit hexadecimal numbers. -/
def byteList (bytes : ByteArray) : String :=
  "[" ++ ", ".intercalate (bytes.data.toList.map fun b => String.ofList (Text.hexByte b)) ++ "]"

def message : WireError → String
  | incomplete needed => s!"incomplete frame: need {needed} more bytes"
  | invalidMagic found => "invalid connection header magic: " ++ byteList found
  | unsupportedVersion major minor => s!"unsupported protocol version {major}.{minor}"
  | invalidLength field length => s!"invalid {field} length: {length} (expected 1..=255)"
  | payloadTooLarge size max => s!"payload too large: {size} bytes exceeds maximum {max}"
  | frameTooLarge size max => s!"frame too large: {size} bytes exceeds maximum {max}"
  | tooManyPackets count max => s!"too many packets for one SEND frame: {count} (max {max})"

end WireError
end Courier.Wire
