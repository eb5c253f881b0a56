import Courier.Wire.Command
import Courier.Wire.Packet

/-! # Frames

A frame is a command byte and the arguments of that command. A reply to a handshake step carries a
label, or none when the step was refused; on the wire the refusal is an empty label. A frame with an
unassigned code has no arguments.
-/
set_option autoImplicit false

namespace Courier.Wire

def maxPacketsPerSend : Nat := 255

/-- The greatest number of bytes in a frame. A packet with a payload at the limit fits. -/
def maxFrameSize : Nat := 2 * maxPayloadSize

/-- The command byte and the count byte of a SEND frame. -/
def sendOverhead : Nat := 2

inductive Frame where
  | attach (address : Address)
  | authenticate (credential : Credential)
  /-- The accepted identity, or a refusal. -/
  | identify (reply : Option Address)
  /-- The session id given, or a refusal. -/
  | session (reply : Option SessionId)
  | fetch
  | send (packets : List Packet)
  | requestAcknowledgment
  | acknowledge (count : UInt32)
  | detach
  | unknown (code : UInt8)
deriving DecidableEq

namespace Frame

/-- The frame's command; a frame with an unassigned code has none. -/
def command? : Frame → Option Command
  | attach _ => some .attach
  | authenticate _ => some .authenticate
  | identify _ => some .identify
  | session _ => some .session
  | fetch => some .fetch
  | send _ => some .send
  | requestAcknowledgment => some .requestAcknowledgment
  | acknowledge _ => some .acknowledge
  | detach => some .detach
  | unknown _ => none

/-- The number of bytes of a SEND frame with these packets. -/
def sendSize (packets : List Packet) : Nat :=
  packets.foldl (fun size p => size + p.encodedSize) sendOverhead

end Frame
end Courier.Wire
