import Courier.Reactor
import Courier.Wire.Frame.Batch
import Courier.Wire.Header

/-! # Channels

A channel is what a node keeps of one connection: the session, the queue of what is to be written,
the pipeline and the first fault. Nothing is queued behind `close`, because a channel queues it when
its session closes, and a closed channel takes nothing.
-/
set_option autoImplicit false

namespace Courier

open Courier.Wire

/-- What a connection's writer is to do. -/
inductive Outbound where
  /-- Write these bytes and flush. -/
  | bytes (b : ByteArray)
  /-- Shut the stream down and stop. -/
  | close
deriving DecidableEq

structure Channel (σ : Type) where
  session : Session
  /-- The phase that those who watch the channel see. -/
  published : Phase
  /-- What the writer has not taken yet. -/
  queue : Backlog Outbound
  /-- Whether somebody still takes the queue. -/
  hasWriter : Bool
  fault : Option Fault
  /-- Whether the end of the connection has been dispatched. -/
  finished : Bool
  reactors : List (Reactor σ)

namespace Channel

variable {σ : Type}

def start (session : Session) (reactors : List (Reactor σ)) : Channel σ :=
  ⟨session, session.phase, .empty, true, none, false, reactors⟩

/-- The handshake's phase. -/
def phase (ch : Channel σ) : Phase := ch.published

def isClosed (ch : Channel σ) : Bool := ch.phase = .closed

/-- Puts a session in place and shows its phase. -/
def setSession (ch : Channel σ) (s : Session) : Channel σ :=
  { ch with session := s, published := s.phase }

def push (ch : Channel σ) (item : Outbound) : Channel σ :=
  if ch.hasWriter then { ch with queue := ch.queue.push item } else ch

/-- Queues bytes; `id` is the channel's place, for the fault. -/
def enqueue (ch : Channel σ) (id : ChannelId) (b : ByteArray) : Except WriteFault (Channel σ) :=
  if ch.session.isClosed then .error (.closed id)
  else if ch.hasWriter then .ok (ch.push (.bytes b))
  else .error (.writerGone id)

def goodbye : Outbound := .bytes [Command.detach.code].toByteArray

/-- Closes the session and queues the last items, with a goodbye or without. A closed channel stays
as it is. -/
def shut (ch : Channel σ) (sayGoodbye : Bool) : Channel σ :=
  match ch.session.shut with
  | (false, _) => ch
  | (true, session) =>
    let ch := ch.setSession session
    let ch := if sayGoodbye then ch.push goodbye else ch
    ch.push .close

def close (ch : Channel σ) : Channel σ := ch.shut false

def detach (ch : Channel σ) : Channel σ := ch.shut true

/-- Nobody takes the queue any more, and what is in it is lost. -/
def dropWriter (ch : Channel σ) : Channel σ := { ch with hasWriter := false, queue := .empty }

def remember (ch : Channel σ) (f : Fault) : Channel σ :=
  { ch with fault := ch.fault.or (some f) }

/-- The ledger of a channel whose pipeline keeps one; of several, the last. -/
def ledger? (ch : Channel σ) : Option Ledger :=
  ch.reactors.foldl (fun found r => match r with
    | .reliableDelivery l => some l
    | _ => found) none

/-- The channel in one line, under a name. -/
def summary (ch : Channel σ) (id : ChannelId) : String :=
  s!"Channel \x7b id: ChannelId({id.index}), state: {ch.phase.name} \x7d"

end Channel

/-- Packets as the bytes of SEND frames. -/
def sendFrames (packets : List Packet) : Except WireError ByteArray :=
  (Frame.sendBatches packets).foldlM (fun bytes run => do
    let frame ← (Frame.send run).encode
    return bytes ++ frame) ByteArray.empty

end Courier
