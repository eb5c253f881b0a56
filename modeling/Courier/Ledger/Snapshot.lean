import Courier.Fault
import Courier.Ledger

/-! # Saved ledgers

A saved ledger is a header of four numbers of four bytes, the format's version, the count received,
the count sent and the size of the buffer, and then the buffered packets. The retransmissions are
not saved: a restored ledger has made none.
-/
set_option autoImplicit false

namespace Courier.Ledger

open Courier.Wire

def snapshotVersion : Nat := 1

/-- The number of bytes before the packets. -/
def snapshotHeaderSize : Nat := 16

def save (l : Ledger) : ByteArray :=
  numberBytes 4 snapshotVersion ++ numberBytes 4 l.received.toNat ++ numberBytes 4 l.sent.toNat ++
    numberBytes 4 (UInt32.ofNat l.buffer.size).toNat ++ encodePackets l.unacknowledged

/-- A packet of a saved ledger that cannot be read, by its place. -/
def badPacket (index count : Nat) (e : WireError) : Fault :=
  .snapshot (s!"packet {index} of {count}: " ++ e.message)

/-- Reads the packets of a saved ledger from the one at `index` on, with `n` to come. -/
def restorePackets (bytes : ByteArray) (count : Nat) :
    (n index pos : Nat) → Except Fault (List Packet)
  | 0, _, _ => .ok []
  | n + 1, index, pos => do
    let (p, pos) ← (Packet.decodeAt bytes pos).mapError (badPacket index count)
    let ps ← restorePackets bytes count n (index + 1) pos
    return p :: ps

/-- The number in the `i`-th place of the header. -/
def headerNumber (bytes : ByteArray) (i : Nat) : Nat :=
  ofBigEndian (bytes.extract (4 * i) (4 * i + 4)).data.toList

/-- The ledger that bytes open with, or none if they are of another version. What follows the
saved packets is passed over. -/
def restore (bytes : ByteArray) : Except Fault (Option Ledger) :=
  if bytes.size < snapshotHeaderSize then
    .error (.snapshot s!"header needs {snapshotHeaderSize} bytes")
  else if headerNumber bytes 0 ≠ snapshotVersion then .ok none
  else do
    let count := headerNumber bytes 3
    let packets ← restorePackets bytes count count 0 snapshotHeaderSize
    let received := UInt32.ofNat (headerNumber bytes 1)
    let sent := UInt32.ofNat (headerNumber bytes 2)
    return some ⟨received, sent, 0, .ofList packets⟩

end Courier.Ledger
