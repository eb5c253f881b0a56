import Courier.Client
import Courier.Server

/-! # A network on a virtual clock

Clients, a server and bare peers, joined by streams in memory. A stream loses nothing and delivers
at once; it ends for one side when the other has shut it down or is gone. Time passes only when the
network is told to wait, and then it stops at every deadline check that falls due. Otherwise
everything goes on until nothing has anything to do. The timers of the clock are bounded, which the
connections themselves know nothing of.
-/
set_option autoImplicit false

namespace Courier

open Courier.Wire Courier.Stream

/-! ## Ends of streams -/

/-- Who is at the other end of a connection's stream. -/
inductive Far where
  | peer (index : Nat)
  | connection (index : Nat)

/-- A bare peer: it sends what it likes and keeps what it receives. -/
structure Peer where
  /-- The connection at the other end; none if it was not accepted. -/
  connection : Option Nat
  received : ByteArray
  sawEnd : Bool
  ended : Bool
  dropped : Bool

def Peer.of (connection : Option Nat) : Peer :=
  ⟨connection, .empty, connection.isNone, false, false⟩

/-- A peer receives what arrives, unless it is gone. -/
def Peer.receive (peer : Peer) (arrivals : List Arrival) : Peer :=
  if peer.dropped then peer
  else { peer with
    received := arrivals.foldl (fun bytes a => bytes ++ a.content) peer.received
    sawEnd := peer.sawEnd || arrivals.any (·.isEnd) }

/-- A client: its channel, how its attempt stands, and whether it was given up. -/
structure Client where
  channel : ChannelId
  attempt : Attempt
  detached : Bool

structure Network (σ : Type) where
  node : Node σ
  wiring : ServerWiring σ
  connections : List (Connection × Far)
  peers : List Peer
  clients : List Client
  accepting : Bool
  stopping : Bool
  /-- The time since the start, in nanoseconds. -/
  now : Nat

namespace Network

variable {σ : Type}

def start (policy : σ) (wiring : ServerWiring σ) : Network σ :=
  ⟨.start policy, wiring, [], [], [], true, false, 0⟩

/-! ## Streams -/

def modifyConnection (w : Network σ) (i : Nat) (f : Connection → Connection) : Network σ :=
  { w with connections := w.connections.modify i fun (k, far) => (f k, far) }

def modifyPeer (w : Network σ) (p : Nat) (f : Peer → Peer) : Network σ :=
  { w with peers := w.peers.modify p f }

/-- Whether nobody is left at an end of a stream. -/
def isGone (w : Network σ) : Far → Bool
  | .peer p => match w.peers[p]? with
    | some peer => peer.dropped
    | none => true
  | .connection i => match w.connections[i]? with
    | some (k, _) => k.isOver
    | none => true

/-- Something reaches an end of a stream. -/
def deliver (w : Network σ) (far : Far) (arrivals : List Arrival) : Network σ :=
  match far with
  | .connection i => w.modifyConnection i fun k => { k with arrivals := k.arrivals ++ arrivals }
  | .peer p => w.modifyPeer p (·.receive arrivals)

/-- What the other end sees of a call. -/
def arrivalOf? : SinkCall → Option Arrival
  | .write b => some (.bytes b)
  | .flush => none
  | .shutdown => some .endOfStream

/-- The stream to an end where nobody is left. -/
def brokenSink (s : Sink) : Sink :=
  { s with failingWrite := some (s.writes + 1), failure := "broken pipe" }

/-! ## Going on -/

/-- A connection takes its turns and writes what it can. -/
def runConnection (w : Network σ) (i : Nat) : Network σ :=
  match w.connections[i]? with
  | none => w
  | some (k, far) =>
    let (k, node) := k.settle w.now w.stopping w.node
    let k := if w.isGone far then { k with sink := brokenSink k.sink } else k
    let (after, node) := k.drain node
    let calls := after.sink.calls
    let after := { after with sink := { after.sink with calls := .empty } }
    { w.modifyConnection i fun _ => after with node }.deliver far
      (calls.toList.filterMap arrivalOf?)

def isBusy (w : Network σ) : Connection × Far → Bool
  | (k, _) =>
    (k.turn w.now w.stopping w.node).isSome ||
      (k.writing && !(((w.node.channel? k.channel).map (·.queue.isEmpty)).getD true))

def sweep (w : Network σ) : Network σ :=
  (List.range w.connections.length).foldl runConnection w

/-- Everything goes on until nothing has anything to do, in at most `rounds` rounds. -/
def quiesce : (rounds : Nat) → Network σ → Network σ
  | 0, w => w
  | rounds + 1, w =>
    if w.connections.any w.isBusy then quiesce rounds w.sweep else w

/-- A client learns how its attempt has come out. -/
def settleClient (node : Node σ) (c : Client) : Client :=
  match c.attempt, node.channel? c.channel with
  | .pending, some ch => { c with attempt := attemptOf ch }
  | _, _ => c

/-- The number of rounds in which an exchange comes to rest. -/
def roundLimit : Nat := 100000

/-- Everything goes on until nothing has anything to do. -/
def settle (w : Network σ) : Network σ :=
  let w := quiesce roundLimit w
  { w with clients := w.clients.map (settleClient w.node) }

/-! ## Time -/

def nextDue (w : Network σ) : Option Nat :=
  ((w.connections.filter fun (k, _) => k.reading && k.interval ≠ 0).map (·.1.nextTick)).min?

/-- Lets time pass until `target`, from `now` on. -/
def passTime (target now : Nat) (w : Network σ) : Network σ :=
  match w.nextDue with
  | none => { w with now := target }
  | some due =>
    if _h : now < due ∧ due ≤ target then passTime target due (settle { w with now := due })
    else { w with now := target }
termination_by target - now

def wait (w : Network σ) (span : Nat) : Network σ := passTime (w.now + span) w.now w

/-! ## What happens from outside -/

/-- The longest time in nanoseconds that a timer of this clock runs: thirty years of 365 days. -/
def longestTimer : Nat := 30 * 365 * 86400 * 1000000000

/-- A connection begins, on a timer of the clock: if its interval is longer than such a timer runs,
its checks come sooner. -/
def addConnection (w : Network σ) (far : Far) (make : Nat → Node σ → Connection × Node σ) :
    Network σ :=
  let (k, node) := make w.now w.node
  let k := { k with interval := min k.interval longestTimer }
  { w with node, connections := w.connections ++ [(k, far)] }

/-- A bare peer connects to the server. A server that accepts no more ends the stream. -/
def openPeer (w : Network σ) : Network σ :=
  if w.accepting then
    let w' := w.addConnection (.peer w.peers.length) (accept w.wiring)
    { w' with peers := w'.peers ++ [.of (some w.connections.length)] }
  else { w with peers := w.peers ++ [.of none] }

/-- What becomes of bytes that a peer sends. -/
inductive Sending where
  | done
  /-- Nobody is left at the other end, or the peer has ended its side. -/
  | brokenPipe
  | dropped
deriving DecidableEq

def send (w : Network σ) (p : Nat) (b : ByteArray) : Sending × Network σ :=
  match w.peers[p]? with
  | none => (.dropped, w)
  | some peer =>
    if peer.dropped then (.dropped, w)
    else if b.isEmpty then (.done, w)
    else match peer.connection with
      | none => (.brokenPipe, w)
      | some i =>
        if peer.ended ∨ w.isGone (.connection i) then (.brokenPipe, w)
        else (.done, w.deliver (.connection i) [.bytes b])

def endPeer (w : Network σ) (p : Nat) : Network σ :=
  match w.peers[p]? with
  | none => w
  | some peer =>
    if peer.dropped ∨ peer.ended then w
    else
      let w := w.modifyPeer p fun peer => { peer with ended := true }
      match peer.connection with
      | some i => w.deliver (.connection i) [.endOfStream]
      | none => w

def dropPeer (w : Network σ) (p : Nat) : Network σ :=
  (w.endPeer p).modifyPeer p fun peer => { peer with dropped := true }

/-- The server is told to stop: it accepts no more, and its connections say goodbye. -/
def shutdown (w : Network σ) : Network σ := { w with accepting := false, stopping := true }

def addClient (w : Network σ) (c : ClientWiring) (far : Far) : Network σ :=
  let id : ChannelId := ⟨w.node.channels.length⟩
  let w := w.addConnection far (connect c)
  { w with clients := w.clients ++ [⟨id, .pending, false⟩] }

def connectToPeer (w : Network σ) (c : ClientWiring) : Network σ :=
  let i := w.connections.length
  let w := w.addClient c (.peer w.peers.length)
  { w with peers := w.peers ++ [.of (some i)] }

/-- A client connects to the server; none if the server accepts no more. -/
def connectToServer (w : Network σ) (c : ClientWiring) : Option (Network σ) :=
  if w.accepting then
    let i := w.connections.length
    let w := w.addClient c (.connection (i + 1))
    some (w.addConnection (.connection i) (accept w.wiring))
  else none

/-- A client in a place, if it is connected and has not been given up. -/
def connected? (w : Network σ) (i : Nat) : Option Client :=
  (w.clients[i]?).bind fun c =>
    match c.attempt with
    | .connected => if c.detached then none else some c
    | _ => none

/-- A connected client is given up: it says goodbye and closes. -/
def detachClient (w : Network σ) (i : Nat) : Network σ :=
  match w.connected? i with
  | none => w
  | some c =>
    { w with
      node := w.node.modify c.channel Channel.detach
      clients := w.clients.modify i fun c => { c with detached := true } }

end Network
end Courier
