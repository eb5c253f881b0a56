import Courier.Fault
import Courier.Wire.Frame.Decode
import Courier.Wire.Header

/-! # Reading a stream

Bytes arrive in pieces of any size. A reader keeps those that have arrived and not been used, and
gives the header and the frames as soon as they are whole. What it gives depends on the bytes alone
and not on the pieces in which they came.
-/
set_option autoImplicit false

namespace Courier.Stream

open Courier.Wire

/-! ## Readers -/

/-- Bytes that have arrived; those at the front have been used. -/
structure Reader where
  buffer : ByteArray
  used : Nat

/-- What a reader makes of its bytes: a value, or nothing before more arrive. -/
inductive Progress (α : Type) where
  | ready (value : α) (reader : Reader)
  | waiting
  | failed (fault : ReadFault)

namespace Reader

def empty : Reader := ⟨.empty, 0⟩

/-- The bytes that have not been used. -/
def unused (r : Reader) : ByteArray := r.buffer.extract r.used r.buffer.size

/-- More bytes arrive. Those that have been used are let go. -/
def feed (r : Reader) (bytes : ByteArray) : Reader :=
  if r.used = 0 then ⟨r.buffer ++ bytes, 0⟩ else ⟨r.unused ++ bytes, 0⟩

def buffered (r : Reader) : Nat := r.buffer.size - r.used

/-- The bytes before a position have been used. -/
def advanceTo (r : Reader) (pos : Nat) : Reader := { r with used := pos }

theorem size_unused (r : Reader) : r.unused.size = r.buffered := by
  simp [unused, buffered]

theorem unused_feed (r : Reader) (bytes : ByteArray) :
    (r.feed bytes).unused = r.unused ++ bytes := by
  unfold feed
  split
  case isTrue h =>
    have whole : r.unused = r.buffer := by rw [unused, h, ByteArray.extract_zero_size]
    rw [whole]
    exact ByteArray.extract_zero_size
  case isFalse h => exact ByteArray.extract_zero_size

/-- A codec error is a fault, unless more bytes can mend it. -/
def halt {α : Type} (e : WireError) : Progress α :=
  if e.isIncomplete then .waiting else .failed (.malformed e)

/-- The header. Nothing after it is looked at. -/
def header (r : Reader) : Progress Unit :=
  match Header.check (r.buffer.extract r.used (r.used + Header.size)) with
  | .ok () => .ready () (r.advanceTo (r.used + Header.size))
  | .error e => halt e

def frame (r : Reader) : Progress Frame :=
  if r.buffered = 0 then .waiting
  else match Frame.decodeAt r.buffer r.used with
    | .ok (f, pos) => .ready f (r.advanceTo pos)
    | .error e => halt e

/-- The fault of a stream that ends where a value was due. -/
def cutShort (r : Reader) : ReadFault :=
  if r.buffered = 0 then .endOfStream else .truncated r.buffered

end Reader

/-! ## Streams -/

inductive Ending where
  | endOfStream
  | failure (fault : ReadFault)

/-- What comes of reading to the end of a value. -/
structure Outcome (α : Type) where
  result : Except ReadFault α
  reader : Reader
  pieces : List ByteArray

/-- Reads pieces until the reader gives a value, fails or the stream ends; `atEnd` is the value, or
the fault, of a stream that ends. A piece without bytes reads like the end of the stream. -/
def pull {α : Type} (step : Reader → Progress α) (atEnd : Reader → Except ReadFault α)
    (ending : Ending) : Reader → List ByteArray → Outcome α
  | r, pieces =>
    match step r with
    | .ready value next => ⟨.ok value, next, pieces⟩
    | .failed fault => ⟨.error fault, r, pieces⟩
    | .waiting =>
      match pieces with
      | [] =>
        match ending with
        | .endOfStream => ⟨atEnd r, r, []⟩
        | .failure fault => ⟨.error fault, r, []⟩
      | piece :: rest =>
        if piece.isEmpty then ⟨atEnd r, r, rest⟩
        else pull step atEnd ending (r.feed piece) rest

def readHeader (ending : Ending) (r : Reader) (pieces : List ByteArray) : Outcome Unit :=
  pull Reader.header (fun r => .error r.cutShort) ending r pieces

/-- A frame as something that may be missing. -/
def nextFrame (r : Reader) : Progress (Option Frame) :=
  match r.frame with
  | .ready f next => .ready (some f) next
  | .waiting => .waiting
  | .failed fault => .failed fault

/-- A stream may end between two frames, and then there is none. -/
def betweenFrames (r : Reader) : Except ReadFault (Option Frame) :=
  if r.buffered = 0 then .ok none else .error r.cutShort

def readFrame (ending : Ending) (r : Reader) (pieces : List ByteArray) : Outcome (Option Frame) :=
  pull nextFrame betweenFrames ending r pieces

end Courier.Stream
