import Courier.Connection

/-! # Clients

A client opens a connection, attaches to an address and presents its credential. Once it is
identified it sends packets, and it can take up where an earlier connection was cut off: the packets
that were not acknowledged then are sent again, as new ones.
-/
set_option autoImplicit false

namespace Courier

open Courier.Wire

variable {σ : Type}

/-! ## Connecting -/

/-- Whether an application listens to packets, and whether to the connection. -/
structure Listeners where
  packets : Bool
  connection : Bool

/-- An application can be said to listen to both, or to neither. -/
instance : Coe Bool Listeners := ⟨fun listens => ⟨listens, listens⟩⟩

def Listeners.reactors (l : Listeners) : List (Reactor σ) :=
  (if l.packets then [.packetObserver] else []) ++
    (if l.connection then [.connectionObserver] else [])

structure ClientWiring where
  address : Address
  credential : Credential
  timing : Timing
  listeners : Listeners

def ClientWiring.pipeline (w : ClientWiring) : List (Reactor σ) :=
  [.eventLog, .detachOnException, .reliableDelivery .empty] ++ w.listeners.reactors ++
    [.clientHandshake w.address w.credential]

def connect (w : ClientWiring) (now : Nat) (n : Node σ) : Connection × Node σ :=
  let (c, n) := n.addChannel (.start (.start .initiator now w.timing) w.pipeline)
  Connection.start c .initiator false now w.timing.tickInterval n

inductive Attempt where
  | pending
  | connected
  | failed (fault : Fault)

/-- How a connection attempt stands, by its channel: it waits until the channel is identified or
closed. A channel that closed without a fault was closed by its peer. -/
def attemptOf (ch : Channel σ) : Attempt :=
  match ch.phase with
  | .identified => .connected
  | .closed => .failed (ch.fault.getD (.read .endOfStream))
  | _ => .pending

/-! ## Sending -/

/-- Sends a payload to an address, from the client's identity and stamped with the time. -/
def sendPayload (c : ChannelId) (timestamp : Int64) (recipient : Address) (payload : ByteArray) :
    Action σ Unit := do
  let identity ← identityOf c
  match Packet.of? timestamp identity recipient payload with
  | .ok p => sendPackets c [p]
  | .error e => throw (.ofWire e)

def requestAcknowledgment (c : ChannelId) : Action σ Unit := writeFrame c .requestAcknowledgment

/-- Sends the packets that a saved ledger had not seen acknowledged, and asks to acknowledge them;
tells whether the saved ledger was of this version. -/
def resume (c : ChannelId) (saved : ByteArray) : Action σ Bool := do
  match Ledger.restore saved with
  | .error f => throw f
  | .ok none => return false
  | .ok (some l) =>
    if l.unacknowledged.isEmpty then return true
    sendPackets c l.unacknowledged
    requestAcknowledgment c
    return true

end Courier
