import Courier.Proofs.Duplex.Balance

/-! # A client and a server, frame by frame

The channel of a client and the channel of a server, joined by two links. Each link carries the
frames that one end has queued to the other, one at a time and in order; nothing is lost. Between
deliveries either end may send, fetch or ask for an acknowledgment, and the server may route
packets.
-/
set_option autoImplicit false

namespace Courier

open Courier.Wire Courier.Wire.Frame Courier.Routing

variable {σ : Type}

inductive End where
  | client
  | server
deriving DecidableEq

namespace End

def other : End → End
  | client => server
  | server => client

def channel : End → ChannelId
  | client => ⟨0⟩
  | server => ⟨1⟩

@[simp] theorem other_other (e : End) : e.other.other = e := by cases e <;> rfl

theorem other_ne (e : End) : e.other ≠ e := by cases e <;> decide

theorem channel_other_ne (e : End) : e.other.channel ≠ e.channel := by cases e <;> decide

theorem eq_or_eq_other (e x : End) : x = e ∨ x = e.other := by cases e <;> cases x <;> decide

end End

structure Duplex (σ : Type) where
  node : Node σ
  /-- How many of the frames that an end has queued were handed over to the other. -/
  handed : End → Nat

inductive DuplexMove where
  | greet (e : End)
  /-- The application sends, if the end is identified. -/
  | send (e : End) (packets : List Packet)
  | route (p : Packet)
  | fetch (e : End)
  /-- The end asks for an acknowledgment. -/
  | ask (e : End)
  /-- The end receives the next frame of its link. -/
  | deliver (e : End)

namespace Duplex

/-- Both channels as they begin, at some time. -/
def start (policy : σ) (client : ClientWiring) (server : ServerWiring σ) (now : Nat) : Duplex σ :=
  let n := Node.start policy
  let (_, n) := n.addChannel (.start (.start .initiator now client.timing) client.pipeline)
  let (_, n) := n.addChannel (.start (.start .responder now server.timing) server.pipeline)
  ⟨n, fun _ => 0⟩

variable (d : Duplex σ) (e : End)

def channel? : Option (Channel σ) := d.node.channel? e.channel

/-- Every frame that an end has queued. -/
def spoken : List Frame := ((d.channel? e).map (·.spoken)).getD []

def ledger : Ledger := ((d.channel? e).map (·.ledger)).getD .empty

/-- Every packet that an end has transmitted, as often as it has. -/
def sent : List Packet := (d.spoken e).flatMap packets

/-- The packets that an end has transmitted and that are on the link still. -/
def inFlight : List Packet := ((d.spoken e).drop (d.handed e)).flatMap packets

/-- The packets that were dispatched as received at an end, in order. -/
def arrivals : List Packet := d.node.arrivals e.channel

/-- The next frame that an end will receive. -/
def next? : Option Frame := (d.spoken e.other)[d.handed e.other]?

/-- One more frame is handed over to an end. -/
def handOver : End → Nat := fun x => if x = e.other then d.handed x + 1 else d.handed x

def BothOpen : Prop := ∀ e : End, d.node.OpenAt e.channel

instance : Decidable d.BothOpen :=
  decidable_of_iff (d.node.OpenAt End.client.channel ∧ d.node.OpenAt End.server.channel)
    ⟨fun h e => by cases e <;> simp [h], fun h => ⟨h .client, h .server⟩⟩

def move : DuplexMove → Duplex σ
  | .greet e => { d with node := Connection.greet e.channel d.node }
  | .send e ps =>
    if (d.channel? e).map (·.session.phase) = some .identified then
      { d with node := ((sendPackets e.channel ps).apply d.node).2 }
    else d
  | .route p => { d with node := (routePacket p d.node).2 }
  | .fetch e => { d with node := ((writeFrame e.channel .fetch).apply d.node).2 }
  | .ask e => { d with node := ((writeFrame e.channel .requestAcknowledgment).apply d.node).2 }
  | .deliver e =>
    match d.next? e with
    | some f => ⟨deliverFrame e.channel d.node f, d.handOver e⟩
    | none => d

def run (moves : List DuplexMove) : Duplex σ := moves.foldl move d

variable {d e} {ch : Channel σ}

theorem spoken_eq (h : d.channel? e = some ch) : d.spoken e = ch.spoken := by
  rw [spoken, h]
  rfl

theorem ledger_eq (h : d.channel? e = some ch) : d.ledger e = ch.ledger := by
  rw [ledger, h]
  rfl

end Duplex
end Courier
