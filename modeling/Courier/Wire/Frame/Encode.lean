import Courier.Wire.Frame

/-! # Writing frames

Every frame has bytes, but for a SEND frame that holds too many packets or is too long; the number
of packets is looked at first.
-/
set_option autoImplicit false

namespace Courier.Wire.Frame

def commandByte (c : Command) : ByteArray := [c.code].toByteArray

/-- A reply's label; a refusal is the empty label. -/
def replyBytes {kind : LabelKind} : Option (Label kind) → ByteArray
  | some l => labelBytes l
  | none => [0].toByteArray

def encode : Frame → Except WireError ByteArray
  | attach address => .ok (commandByte .attach ++ labelBytes address)
  | authenticate credential => .ok (commandByte .authenticate ++ labelBytes credential)
  | identify reply => .ok (commandByte .identify ++ replyBytes reply)
  | session reply => .ok (commandByte .session ++ replyBytes reply)
  | fetch => .ok (commandByte .fetch)
  | send packets =>
    if packets.length > maxPacketsPerSend then
      .error (.tooManyPackets packets.length maxPacketsPerSend)
    else if sendSize packets > maxFrameSize then
      .error (.frameTooLarge (sendSize packets) maxFrameSize)
    else
      .ok (commandByte .send ++ [UInt8.ofNat packets.length].toByteArray ++ encodePackets packets)
  | requestAcknowledgment => .ok (commandByte .requestAcknowledgment)
  | acknowledge count => .ok (commandByte .acknowledge ++ numberBytes 4 count.toNat)
  | detach => .ok (commandByte .detach)
  | unknown code => .ok [code].toByteArray

/-- Writes the frame behind what a buffer holds: the outcome, and the buffer afterwards, which a
frame that has no bytes leaves as it was. -/
def appendTo (f : Frame) (buffer : ByteArray) : Except WireError Unit × ByteArray :=
  match f.encode with
  | .ok bytes => (.ok (), buffer ++ bytes)
  | .error e => (.error e, buffer)

end Courier.Wire.Frame
