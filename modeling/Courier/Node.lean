import Courier.Channel
import Courier.Ledger.Snapshot
import Courier.Routing.Registry

/-! # Nodes

A node is the channels of one program together with what they share: the registry, the state of the
policies and the notices. An action changes a node and may fail; what it did before it failed stays
done. Here are the actions that only write: queueing bytes and moving the session. None of them
dispatches an event.
-/
set_option autoImplicit false

namespace Courier

open Courier.Wire Courier.Routing

structure Node (σ : Type) where
  channels : List (Channel σ)
  registry : Registry
  policy : σ
  notices : Backlog Notice

/-- A change of a node that can fail. -/
abbrev Action (σ α : Type) := ExceptT Fault (StateM (Node σ)) α

variable {σ : Type}

/-- Runs an action: what it gives, and the node afterwards. -/
def Action.apply {α : Type} (a : Action σ α) (n : Node σ) : Except Fault α × Node σ :=
  StateT.run (ExceptT.run a) n

namespace Node

def start (policy : σ) : Node σ := ⟨[], .empty, policy, .empty⟩

/-! ## Channels -/

def channel? (n : Node σ) (c : ChannelId) : Option (Channel σ) := n.channels[c.index]?

def modify (n : Node σ) (c : ChannelId) (f : Channel σ → Channel σ) : Node σ :=
  { n with channels := n.channels.modify c.index f }

def addChannel (n : Node σ) (ch : Channel σ) : ChannelId × Node σ :=
  (⟨n.channels.length⟩, { n with channels := n.channels ++ [ch] })

def isClosed (n : Node σ) (c : ChannelId) : Bool :=
  match n.channel? c with
  | some ch => ch.isClosed
  | none => true

def reactor? (n : Node σ) (c : ChannelId) (i : Nat) : Option (Reactor σ) :=
  (n.channel? c).bind (·.reactors[i]?)

def setReactor (n : Node σ) (c : ChannelId) (i : Nat) (r : Reactor σ) : Node σ :=
  n.modify c fun ch => { ch with reactors := ch.reactors.set i r }

def places (n : Node σ) (c : ChannelId) : List Nat :=
  match n.channel? c with
  | some ch => List.range ch.reactors.length
  | none => []

/-- The place of a channel's ledger; of several, the last. -/
def ledgerPlace? (n : Node σ) (c : ChannelId) : Option Nat :=
  (n.places c).foldl (fun found i => match n.reactor? c i with
    | some (.reliableDelivery _) => some i
    | _ => found) none

def takeQueue (n : Node σ) (c : ChannelId) : List Outbound × Node σ :=
  (((n.channel? c).map (·.queue.toList)).getD [],
    n.modify c fun ch => { ch with queue := .empty })

def note (n : Node σ) (c : ChannelId) (reporter : Reporter) (signal : Signal) : Node σ :=
  match n.channel? c with
  | some ch => { n with notices := n.notices.push ⟨reporter, c, ch.session.role, signal⟩ }
  | none => n

end Node

/-! ## Writing -/

/-- Runs a step on a channel, or fails if there is no such channel. -/
def onChannel {α : Type} (c : ChannelId) (f : Channel σ → Except Fault (α × Channel σ)) :
    Action σ α := do
  match (← get).channel? c with
  | none => throw (.write (.writerGone c))
  | some ch =>
    match f ch with
    | .error fault => throw fault
    | .ok (value, ch) =>
      modify (·.modify c fun _ => ch)
      return value

def enqueue (c : ChannelId) (b : ByteArray) : Action σ Unit :=
  onChannel c fun ch => do
    let ch ← (ch.enqueue c b).mapError .write
    return ((), ch)

def writeHeader (c : ChannelId) : Action σ Unit := enqueue c Header.bytes

def writeFrame (c : ChannelId) (f : Frame) : Action σ Unit :=
  match f.encode with
  | .ok b => enqueue c b
  | .error e => throw (.ofWire e)

/-- Queues packets as SEND frames, without telling the pipeline. No packets queue nothing. -/
def writePackets (c : ChannelId) (packets : List Packet) : Action σ Unit :=
  match sendFrames packets with
  | .ok b => if b.isEmpty then pure () else enqueue c b
  | .error e => throw (.ofWire e)

/-! ## The session -/

/-- Takes a step of the handshake and shows the new phase. -/
def stepSession {α : Type} (c : ChannelId)
    (step : Session → Except InvalidStep (Session × α)) : Action σ α :=
  onChannel c fun ch => do
    let (s, value) ← (step ch.session).mapError .step
    return (value, ch.setSession s)

/-- A step that asks for nothing. -/
def plainStep (step : Session → Except InvalidStep Session) (s : Session) :
    Except InvalidStep (Session × Unit) := do
  let s ← step s
  return (s, ())

/-- Puts a saved ledger in place of a channel's ledger; tells whether it was of this version. -/
def restoreLedger (c : ChannelId) (saved : ByteArray) : Action σ Bool := do
  match Ledger.restore saved with
  | .error f => throw f
  | .ok none => return false
  | .ok (some l) =>
    modify fun n => match n.ledgerPlace? c with
      | some i => n.setReactor c i (.reliableDelivery l)
      | none => n
    return true

def consult {α : Type} (p : Policy σ α) : Action σ α := do
  let n ← get
  let (answer, policy) := p n.policy
  set { n with policy }
  match answer with
  | .ok value => return value
  | .error f => throw f

end Courier
