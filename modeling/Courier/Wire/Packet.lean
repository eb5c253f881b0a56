import Courier.Wire.Cursor

/-! # Packets

A message from one address to another: a time stamp of eight bytes, the two addresses, the length of
the payload in four bytes, and the payload.
-/
set_option autoImplicit false

namespace Courier.Wire

def maxPayloadSize : Nat := 16 * 1024 * 1024

/-- A message; the time stamp is in milliseconds since the Unix epoch. -/
structure Packet where
  timestamp : Int64
  sender : Address
  recipient : Address
  payload : ByteArray
  payload_le : payload.size ≤ maxPayloadSize
deriving DecidableEq

namespace Packet

/-- A packet with this payload, unless it is over the limit. -/
def of? (timestamp : Int64) (sender recipient : Address) (payload : ByteArray) :
    Except WireError Packet :=
  if h : payload.size ≤ maxPayloadSize then .ok ⟨timestamp, sender, recipient, payload, h⟩
  else .error (.payloadTooLarge payload.size maxPayloadSize)

def isEcho (p : Packet) : Bool := p.sender = p.recipient

def encodedSize (p : Packet) : Nat :=
  8 + 1 + p.sender.size + 1 + p.recipient.size + 4 + p.payload.size

def encode (p : Packet) : ByteArray :=
  numberBytes 8 p.timestamp.toUInt64.toNat ++ labelBytes p.sender ++ labelBytes p.recipient ++
    numberBytes 4 p.payload.size ++ p.payload

/-- Reads a packet at a position. The declared payload length is checked before the payload. -/
def decodeAt (input : ByteArray) (pos : Nat) : Except WireError (Packet × Nat) := do
  let (stamp, pos) ← numberAt 8 input pos
  let (sender, pos) ← labelAt input pos
  let sender ← Label.of? .address sender
  let (recipient, pos) ← labelAt input pos
  let recipient ← Label.of? .address recipient
  let (size, pos) ← numberAt 4 input pos
  if size > maxPayloadSize then
    throw (.payloadTooLarge size maxPayloadSize)
  let (payload, pos) ← takeAt input pos size
  let packet ← of? (UInt64.ofNat stamp).toInt64 sender recipient payload
  return (packet, pos)

end Packet

/-- The bytes of packets one after the other. -/
def encodePackets (packets : List Packet) : ByteArray :=
  packets.foldl (fun bytes p => bytes ++ p.encode) ByteArray.empty

/-- Reads `n` packets one after the other. -/
def decodePacketsAt (input : ByteArray) : (n pos : Nat) → Except WireError (List Packet × Nat)
  | 0, pos => .ok ([], pos)
  | n + 1, pos => do
    let (p, pos) ← Packet.decodeAt input pos
    let (ps, pos) ← decodePacketsAt input n pos
    return (p :: ps, pos)

end Courier.Wire
