import Courier.Node.Receive
import Courier.Stream.Reader
import Courier.Stream.Writer

/-! # Connections

A connection drives a channel over a byte stream. In each turn it looks first whether the channel is
closed, then whether it is told to stop, then whether the handshake's deadline is due to be checked,
and reads only then: the header if it is a responder that has not had it, else a frame. Whatever
ends the turns, the channel is finished once, and the writer goes on until it has written `close`.

The deadline is checked when the connection starts and then once in every interval. An interval of
zero is no schedule, and a connection that has one takes no turns.
-/
set_option autoImplicit false

namespace Courier

open Courier.Wire Courier.Stream

variable {σ : Type}

/-- What a read of the stream gives. -/
inductive Arrival where
  | bytes (b : ByteArray)
  | endOfStream
  | failure (fault : ReadFault)

def Arrival.content : Arrival → ByteArray
  | bytes b => b
  | _ => .empty

def Arrival.isEnd : Arrival → Bool
  | bytes _ => false
  | _ => true

structure Connection where
  channel : ChannelId
  /-- Whether it is told to stop when its server is. -/
  heedsShutdown : Bool
  /-- Whether the header has been exchanged. -/
  greeted : Bool
  reader : Reader
  /-- What the stream has to give, in order. -/
  arrivals : List Arrival
  /-- When the deadline is checked next. -/
  nextTick : Nat
  /-- How often it is to be checked. -/
  interval : Nat
  reading : Bool
  /-- Whether the writer has not stopped. -/
  writing : Bool
  sink : Sink

namespace Connection

/-! ## Beginning and end -/

/-- Exchanges the header on the channel; the first fault is raised. -/
def greet (c : ChannelId) (n : Node σ) : Node σ :=
  match (openChannel c).apply n with
  | (.ok (), n) => n
  | (.error f, n) => raise c f n

/-- A connection that begins now. An initiator opens at once. -/
def start (c : ChannelId) (role : Role) (heedsShutdown : Bool) (now interval : Nat) (n : Node σ) :
    Connection × Node σ :=
  (⟨c, heedsShutdown, role = .initiator, .empty, [], now, interval, true, true, .unlimited⟩,
    if role = .initiator then greet c n else n)

/-- Takes no more turns, and finishes the channel. -/
def windDown (k : Connection) (n : Node σ) : Connection × Node σ :=
  ({ k with reading := false }, finish k.channel n)

def abort (k : Connection) (f : Fault) (n : Node σ) : Connection × Node σ :=
  k.windDown (raise k.channel f n)

/-! ## Turns -/

def tick (k : Connection) (now : Nat) (n : Node σ) : Connection × Node σ :=
  match n.channel? k.channel with
  | none => k.windDown n
  | some ch =>
    match ch.session.overrun? now with
    | some elapsed => k.abort (.handshakeTimeout elapsed) n
    | none => ({ k with nextTick := now + k.interval }, n)

def takeFrame (k : Connection) (f : Frame) (n : Node σ) : Connection × Node σ :=
  match receive k.channel f n with
  | (.continue, n) => (k, n)
  | (.stop, n) => k.windDown n

/-- The stream has nothing more for a value that is not whole. -/
def runDry (k : Connection) (n : Node σ) : Connection × Node σ :=
  if k.greeted then
    match betweenFrames k.reader with
    | .ok _ => k.windDown n
    | .error f => k.abort (.read f) n
  else k.abort (.read k.reader.cutShort) n

/-- Takes what the stream has to give next, if it has anything. -/
def fill (k : Connection) (n : Node σ) : Option (Connection × Node σ) :=
  match k.arrivals with
  | [] => none
  | .bytes b :: rest => some ({ k with reader := k.reader.feed b, arrivals := rest }, n)
  | .endOfStream :: _ => some (k.runDry n)
  | .failure f :: _ => some (k.abort (.read f) n)

def read (k : Connection) (n : Node σ) : Option (Connection × Node σ) :=
  if k.greeted then
    match k.reader.frame with
    | .ready f reader => some ({ k with reader }.takeFrame f n)
    | .failed f => some (k.abort (.read f) n)
    | .waiting => k.fill n
  else
    match k.reader.header with
    | .ready () reader => some ({ k with reader, greeted := true }, greet k.channel n)
    | .failed f => some (k.abort (.read f) n)
    | .waiting => k.fill n

/-- One turn, or none if the connection has to wait. -/
def turn (now : Nat) (stopping : Bool) (k : Connection) (n : Node σ) :
    Option (Connection × Node σ) :=
  if !k.reading || k.interval = 0 then none
  else if n.isClosed k.channel then some (k.windDown n)
  else if stopping && k.heedsShutdown then some (k.windDown (n.modify k.channel Channel.detach))
  else if k.nextTick ≤ now then some (k.tick now n)
  else k.read n

/-- The bytes that have arrived and have not been used. -/
def pendingBytes (k : Connection) : Nat :=
  k.arrivals.foldl (fun n a => n + a.content.size) k.reader.buffered

/-- A bound of the number of turns before the connection has to wait: a turn uses up bytes, takes an
arrival, checks the deadline or is the last. -/
def turnBound (k : Connection) : Nat := k.pendingBytes + k.arrivals.length + 3

def turns (now : Nat) (stopping : Bool) : (bound : Nat) → Connection → Node σ → Connection × Node σ
  | 0, k, n => (k, n)
  | bound + 1, k, n =>
    match k.turn now stopping n with
    | none => (k, n)
    | some (k, n) => turns now stopping bound k n

/-- Takes turns until the connection has to wait. -/
def settle (now : Nat) (stopping : Bool) (k : Connection) (n : Node σ) : Connection × Node σ :=
  turns now stopping k.turnBound k n

/-! ## Writing -/

def drain (k : Connection) (n : Node σ) : Connection × Node σ :=
  if k.writing then
    let (items, n) := n.takeQueue k.channel
    match writeItems k.channel items k.sink n with
    | (.waiting, sink, n) => ({ k with sink }, n)
    | (.stopped, sink, n) =>
      ({ k with sink, writing := false }, n.modify k.channel Channel.dropWriter)
  else (k, n)

/-- Whether the connection is over and its stream is gone. -/
def isOver (k : Connection) : Bool := !k.reading && !k.writing

end Connection
end Courier
