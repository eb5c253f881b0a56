import Courier.Backlog
import Courier.Wire.Packet

/-! # The delivery ledger

Each end of a session counts the packets it has received and sent, and keeps every packet it sent
until the other end acknowledges. An acknowledgment carries the number of packets that arrived,
duplicates included. If it equals the number of packets put on the wire, retransmissions included,
the buffer is cleared; any other number makes the ledger retransmit the whole buffer and ask again.

Counts are 32-bit words and wrap around.
-/
set_option autoImplicit false

namespace Courier

open Courier.Wire

/-- What a ledger asks its channel to send. -/
inductive LedgerDemand where
  /-- These packets again, in order; they are counted already. -/
  | retransmit (packets : List Packet)
  | requestAcknowledgment
  | acknowledge (count : UInt32)
deriving DecidableEq

/-- The packet counts of one session and the packets that await acknowledgment. -/
structure Ledger where
  received : UInt32
  /-- Distinct packets sent. -/
  sent : UInt32
  /-- Packets sent again. -/
  retransmitted : UInt32
  buffer : Backlog Packet
deriving DecidableEq

namespace Ledger

def empty : Ledger := ⟨0, 0, 0, .empty⟩

/-- The packets that await acknowledgment, oldest first. -/
def unacknowledged (l : Ledger) : List Packet := l.buffer.toList

/-- Packets put on the wire, retransmissions included. -/
def transmitted (l : Ledger) : UInt32 := l.sent + l.retransmitted

/-- Distinct packets sent and acknowledged. -/
def acknowledged (l : Ledger) : UInt32 := l.sent - UInt32.ofNat l.buffer.size

def recordSent (l : Ledger) (p : Packet) : Ledger :=
  { l with sent := l.sent + 1, buffer := l.buffer.push p }

def recordReceived (l : Ledger) : Ledger := { l with received := l.received + 1 }

def answerRequest (l : Ledger) : List LedgerDemand := [.acknowledge l.received]

/-- Retransmits the whole buffer and asks for an acknowledgment, if the buffer holds anything. -/
def flush (l : Ledger) : Ledger × List LedgerDemand :=
  if l.buffer.isEmpty then (l, [])
  else ({ l with retransmitted := l.retransmitted + UInt32.ofNat l.buffer.size },
    [.retransmit l.unacknowledged, .requestAcknowledgment])

def acknowledge (l : Ledger) (count : UInt32) : Ledger × List LedgerDemand :=
  if count = l.transmitted then ({ l with buffer := .empty }, [])
  else l.flush

end Ledger
end Courier
