import Courier.Node.Dispatch

/-! # Frames that arrive

A frame becomes an event, unless the channel's role never receives it: then it is a fault. A frame
with an unassigned code is passed over. Reading goes on until the peer says goodbye or the channel
is closed; the packets of a SEND frame are looked at one by one, so none is taken after that.
-/
set_option autoImplicit false

namespace Courier

open Courier.Wire

variable {σ : Type}

inductive Flow where
  | continue
  | stop
deriving DecidableEq

/-- Packets that arrive one after the other; none is taken once the channel is closed. -/
def receivePackets (c : ChannelId) (packets : List Packet) (n : Node σ) : Node σ :=
  packets.foldl (fun n p => if n.isClosed c then n else dispatch c (.packetReceived p) n) n

/-- What a frame does to a channel of this role. -/
def handleFrame (c : ChannelId) (role : Role) (f : Frame) (n : Node σ) : Node σ :=
  match f, role with
  | .attach a, .responder => dispatch c (.attachRequested a) n
  | .authenticate credential, .responder => dispatch c (.credentialReceived credential) n
  | .session (some id), .initiator => dispatch c (.sessionCreated id) n
  | .session none, .initiator => raise c .greetingRejected n
  | .identify (some identity), .initiator => dispatch c (.identityReceived identity) n
  | .identify none, .initiator => raise c .authenticationRejected n
  | .fetch, _ => dispatch c .fetchRequested n
  | .send packets, _ => receivePackets c packets n
  | .requestAcknowledgment, _ => dispatch c .acknowledgmentRequested n
  | .acknowledge count, _ => dispatch c (.acknowledgmentReceived count) n
  | .attach _, .initiator => raise c (.unexpectedFrame .attach role) n
  | .authenticate _, .initiator => raise c (.unexpectedFrame .authenticate role) n
  | .session _, .responder => raise c (.unexpectedFrame .session role) n
  | .identify _, .responder => raise c (.unexpectedFrame .identify role) n
  | .detach, _ => n
  | .unknown _, _ => n

def receive (c : ChannelId) (f : Frame) (n : Node σ) : Flow × Node σ :=
  match n.channel? c with
  | none => (.stop, n)
  | some ch =>
    let n := handleFrame c ch.session.role f n
    (if f = .detach ∨ n.isClosed c then .stop else .continue, n)

/-- The header has been exchanged: an initiator writes it, then either end tells its reactors. -/
def openChannel (c : ChannelId) : Action σ Unit := do
  match (← get).channel? c with
  | none => throw (.write (.writerGone c))
  | some ch =>
    if ch.session.role = .initiator then writeHeader c
    stepSession c (plainStep (·.connect))
    modify (dispatch c .connected)

end Courier
