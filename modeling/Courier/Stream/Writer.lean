import Courier.Node.Dispatch

/-! # Writing a queue

A writer takes the items of a channel's queue in order. It writes the bytes of an item, call by call
until the stream has taken them all, and flushes; at `close` it shuts the stream down and stops. A
call that fails stops it too: the fault is raised on the channel, and the channel is closed.
-/
set_option autoImplicit false

namespace Courier.Stream

open Courier.Wire

/-! ## Sinks -/

inductive SinkCall where
  | write (bytes : ByteArray)
  | flush
  | shutdown
deriving DecidableEq

/-- A stream that is written to: how many bytes a call takes at most, if there is a limit, which
write call and which flush call fail, counted from one, and the calls that did not fail. -/
structure Sink where
  limit : Option Nat
  failingWrite : Option Nat
  failingFlush : Option Nat
  failure : String
  writes : Nat
  flushes : Nat
  calls : Backlog SinkCall

namespace Sink

/-- The number of bytes that a write call takes of `n`. -/
def accepts (s : Sink) (n : Nat) : Nat :=
  match s.limit with
  | some limit => min limit n
  | none => n

def unlimited : Sink := ⟨none, none, none, "", 0, 0, .empty⟩

def record (s : Sink) (call : SinkCall) : Sink := { s with calls := s.calls.push call }

/-- One write call, with the bytes from a position on: how many it took, or why it failed. -/
def write (s : Sink) (bytes : ByteArray) (pos : Nat) : Except String Nat × Sink :=
  let s := { s with writes := s.writes + 1 }
  if s.failingWrite = some s.writes then (.error s.failure, s)
  else
    let taken := s.accepts (bytes.size - pos)
    (.ok taken, s.record (.write (bytes.extract pos (pos + taken))))

def flush (s : Sink) : Except String Unit × Sink :=
  let s := { s with flushes := s.flushes + 1 }
  if s.failingFlush = some s.flushes then (.error s.failure, s) else (.ok (), s.record .flush)

/-- Writes the bytes from a position on, call by call; a call that takes none fails. At most `n`
calls are made, and a call that goes on takes at least one byte. -/
def writeCalls (bytes : ByteArray) : (n pos : Nat) → Sink → Except String Unit × Sink
  | 0, _, s => (.ok (), s)
  | n + 1, pos, s =>
    if bytes.size ≤ pos then (.ok (), s)
    else
      match s.write bytes pos with
      | (.error text, s) => (.error text, s)
      | (.ok 0, s) => (.error "write zero", s)
      | (.ok (k + 1), s) => writeCalls bytes n (pos + k + 1) s

def writeAll (s : Sink) (bytes : ByteArray) : Except String Unit × Sink :=
  writeCalls bytes bytes.size 0 s

/-- Writes the bytes of one item and flushes. -/
def put (s : Sink) (bytes : ByteArray) : Except String Unit × Sink :=
  match s.writeAll bytes with
  | (.ok (), s) => s.flush
  | (.error text, s) => (.error text, s)

end Sink

/-! ## The writer -/

variable {σ : Type}

/-- A failed call is raised on the channel, which closes. -/
def abandon (c : ChannelId) (text : String) (n : Node σ) : Node σ :=
  (raise c (.write (.transport text)) n).modify c Channel.close

/-- Where a writer stands after the items it was given. -/
inductive WriterState where
  | waiting
  /-- It has stopped, at `close` or at a call that failed. -/
  | stopped
deriving DecidableEq

/-- Writes items until they end, `close` comes or a call fails. -/
def writeItems (c : ChannelId) : List Outbound → Sink → Node σ → WriterState × Sink × Node σ
  | [], s, n => (.waiting, s, n)
  | .close :: _, s, n => (.stopped, s.record .shutdown, n)
  | .bytes b :: rest, s, n =>
    match s.put b with
    | (.ok (), s) => writeItems c rest s n
    | (.error text, s) => (.stopped, s, abandon c text n)

end Courier.Stream
