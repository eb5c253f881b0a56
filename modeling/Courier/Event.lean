import Courier.Fault
import Courier.Wire.Packet

/-! # Events

What happens on a channel, as its reactors see it. A signal is an event, or a fault that an earlier
reactor or the connection raised.
-/
set_option autoImplicit false

namespace Courier

open Courier.Wire

inductive Event where
  | connected
  /-- The peer asks for an address. -/
  | attachRequested (address : Address)
  /-- The session has its id, given by the responder. -/
  | sessionCreated (id : SessionId)
  /-- The peer submits a credential. -/
  | credentialReceived (credential : Credential)
  /-- The peer tells the identity it has accepted. -/
  | identityReceived (identity : Address)
  /-- The peer asks for its mailbox. -/
  | fetchRequested
  /-- The peer delivers a packet. -/
  | packetReceived (packet : Packet)
  /-- A packet has been queued for the peer. -/
  | packetSent (packet : Packet)
  /-- The peer asks how many packets arrived. -/
  | acknowledgmentRequested
  /-- The peer tells how many packets arrived. -/
  | acknowledgmentReceived (count : UInt32)
  | disconnected
deriving DecidableEq

def Event.name : Event → String
  | connected => "connected"
  | attachRequested _ => "attach"
  | sessionCreated _ => "session"
  | credentialReceived _ => "credential"
  | identityReceived _ => "identity"
  | fetchRequested => "fetch"
  | packetReceived _ => "received"
  | packetSent _ => "sent"
  | acknowledgmentRequested => "ack_requested"
  | acknowledgmentReceived _ => "ack"
  | disconnected => "disconnected"

/-- What a reactor is told. -/
inductive Signal where
  | event (e : Event)
  | exception (f : Fault)
deriving DecidableEq

def Signal.name : Signal → String
  | event e => e.name
  | exception _ => "exception"

end Courier
