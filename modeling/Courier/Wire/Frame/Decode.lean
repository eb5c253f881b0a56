import Courier.Wire.Frame

/-! # Reading frames

Reading goes over the input twice. `measure` looks at length fields only: it finds the frame's
length, refuses a frame that is too long as soon as its length fields say so, and tells how much
input is missing. `parse` then reads the fields of a frame that is known to be complete.
-/
set_option autoImplicit false

namespace Courier.Wire.Frame

/-! ## Measuring -/

/-- Passes over one packet of a SEND frame that begins at `start`. -/
def skipPacketAt (input : ByteArray) (start pos : Nat) : Except WireError Nat := do
  let pos ← skipAt input pos 8
  let pos ← skipLabelAt input pos
  let pos ← skipLabelAt input pos
  let (size, pos) ← numberAt 4 input pos
  if size > maxPayloadSize then
    throw (.payloadTooLarge size maxPayloadSize)
  if pos - start + size > maxFrameSize then
    throw (.frameTooLarge (pos - start + size) maxFrameSize)
  skipAt input pos size

def skipPacketsAt (input : ByteArray) (start : Nat) : (n pos : Nat) → Except WireError Nat
  | 0, pos => .ok pos
  | n + 1, pos => do
    let pos ← skipPacketAt input start pos
    skipPacketsAt input start n pos

/-- The position after the frame that begins at `start`. -/
def endAt (input : ByteArray) (start : Nat) : Except WireError Nat := do
  let (code, pos) ← byteAt input start
  match Command.ofCode? code with
  | some .attach | some .authenticate | some .identify | some .session => skipLabelAt input pos
  | some .acknowledge => skipAt input pos 4
  | some .send => do
    let (count, pos) ← byteAt input pos
    skipPacketsAt input start count.toNat pos
  | some .fetch | some .requestAcknowledgment | some .detach | none => return pos

/-- The length of the frame that the input opens with. -/
def measure (input : ByteArray) : Except WireError Nat := endAt input 0

/-! ## Parsing -/

/-- A reply's label; the empty label is a refusal. -/
def replyOf (kind : LabelKind) (bytes : ByteArray) : Except WireError (Option (Label kind)) :=
  if bytes.size = 0 then .ok none
  else do
    let l ← Label.of? kind bytes
    return some l

/-- Reads the frame that the input opens with, and the position after it. -/
def parse (input : ByteArray) : Except WireError (Frame × Nat) := do
  let (code, pos) ← byteAt input 0
  match Command.ofCode? code with
  | some .attach => do
    let (bytes, pos) ← labelAt input pos
    let address ← Label.of? .address bytes
    return (.attach address, pos)
  | some .authenticate => do
    let (bytes, pos) ← labelAt input pos
    let credential ← Label.of? .credential bytes
    return (.authenticate credential, pos)
  | some .identify => do
    let (bytes, pos) ← labelAt input pos
    let reply ← replyOf .address bytes
    return (.identify reply, pos)
  | some .session => do
    let (bytes, pos) ← labelAt input pos
    let reply ← replyOf .sessionId bytes
    return (.session reply, pos)
  | some .fetch => return (.fetch, pos)
  | some .send => do
    let (count, pos) ← byteAt input pos
    let (packets, pos) ← decodePacketsAt input count.toNat pos
    return (.send packets, pos)
  | some .requestAcknowledgment => return (.requestAcknowledgment, pos)
  | some .acknowledge => do
    let (count, pos) ← numberAt 4 input pos
    return (.acknowledge (UInt32.ofNat count), pos)
  | some .detach => return (.detach, pos)
  | none => return (.unknown code, pos)

/-- Reads the frame that begins at `start`. -/
def decodeAt (input : ByteArray) (start : Nat) : Except WireError (Frame × Nat) := do
  let next ← endAt input start
  let (frame, _) ← parse (input.extract start next)
  return (frame, next)

/-- The frame that the input opens with, and its length. -/
def decode (input : ByteArray) : Except WireError (Frame × Nat) := decodeAt input 0

/-- At most `n` frames from a position on, and the error of the first that cannot be read. -/
def decodeManyAt (input : ByteArray) : (n pos : Nat) → List Frame × Option WireError
  | 0, _ => ([], none)
  | n + 1, pos =>
    if input.size ≤ pos then ([], none)
    else
      match decodeAt input pos with
      | .ok (frame, pos) =>
        let (frames, error?) := decodeManyAt input n pos
        (frame :: frames, error?)
      | .error e => ([], some e)

/-- The frames of the input, up to its end or to the first that cannot be read. A frame has at least
one byte, so there are no more of them than bytes. -/
def decodeAll (input : ByteArray) : List Frame × Option WireError :=
  decodeManyAt input input.size 0

end Courier.Wire.Frame
