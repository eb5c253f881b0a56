import Courier.Node.Receive
import Courier.Wire.Frame.Decode

/-! # Two channels back to back

A client's channel and a server's channel whose queues feed each other without loss. A round takes
everything that both have queued, and then hands it over: what the client queued first, what the
server queued second. Bytes that cannot be read end the exchange: what was handed over before them
stays done, and the rest of the round is lost.
-/
set_option autoImplicit false

namespace Courier

open Courier.Wire

variable {σ : Type}

inductive Direction where
  | up
  | down
deriving DecidableEq

/-- An open channel receives a frame, and is finished when it is to read no more. -/
def deliverFrame (c : ChannelId) (n : Node σ) (f : Frame) : Node σ :=
  if n.isClosed c then n
  else
    match receive c f n with
    | (.continue, n) => n
    | (.stop, n) => finish c n

/-- The bytes after the connection header, if they open with one. -/
def withoutHeader (b : ByteArray) : ByteArray :=
  match Header.check b with
  | .ok () => b.extract Header.size b.size
  | .error _ => b

/-- Handing over changes the node, and fails at bytes that cannot be read. -/
abbrev Handover (σ α : Type) := ExceptT WireError (StateM (Node σ)) α

/-- A channel receives the frames of an item, up to one that cannot be read. -/
def deliverItem (c : ChannelId) : Outbound → Handover σ Unit
  | .bytes b => do
    let (frames, error?) := Frame.decodeAll (withoutHeader b)
    modify fun n => frames.foldl (deliverFrame c) n
    if let some e := error? then throw e
  | .close => return ()

/-- Hands over everything that both channels have queued; gives what was handed over. -/
def exchangeRound (client server : ChannelId) : Handover σ (List (Direction × Outbound)) := do
  let ups ← modifyGet (·.takeQueue client)
  let downs ← modifyGet (·.takeQueue server)
  ups.forM (deliverItem server)
  downs.forM (deliverItem client)
  return ups.map (Direction.up, ·) ++ downs.map (Direction.down, ·)

/-- Hands over what the channels queue, until they queue nothing, in at most `rounds` rounds. -/
def exchange (client server : ChannelId) :
    (rounds : Nat) → Handover σ (List (Direction × Outbound))
  | 0 => return []
  | rounds + 1 => do
    let items ← exchangeRound client server
    if items.isEmpty then return []
    let more ← exchange client server rounds
    return items ++ more

end Courier
