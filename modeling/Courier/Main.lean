import Courier.Server.Options

/-! # The command line

Serves one connection on standard input and output, as a program does that is started for each
connection. What the event log reports goes to standard error.
-/
set_option autoImplicit false

namespace Courier

open Courier.Wire Courier.Stream

/-- Makes a call of the writer on standard output. -/
def perform (output : IO.FS.Stream) : SinkCall → IO Unit
  | .write bytes => output.write bytes
  | .flush => output.flush
  | .shutdown => output.flush

def report (n : Notice) : IO Unit :=
  let fields := n.fields.map fun (key, value) => key ++ "=" ++ value
  IO.eprintln (" ".intercalate (n.signal.level.name :: fields))

/-- Serves the connection until it is over. -/
partial def serve (input output : IO.FS.Stream) (start : Nat) (k : Connection) (n : Node Desk) :
    IO Unit := do
  let now := (← IO.monoNanosNow) - start
  let (k, n) := k.settle now false n
  let (k, n) := k.drain n
  k.sink.calls.toList.forM (perform output)
  n.notices.toList.forM report
  if k.isOver then return
  let bytes ← input.read 65536
  let arrivals := k.arrivals ++ [if bytes.isEmpty then .endOfStream else .bytes bytes]
  let k := { k with arrivals, sink := { k.sink with calls := .empty } }
  serve input output start k { n with notices := .empty }

def run (settings : ServerSettings) : IO Unit := do
  IO.eprintln ("serving " ++ settings.bind)
  let desk : Desk := ⟨.empty, .empty, [⟨← IO.getRandomBytes 64, 0⟩]⟩
  let (k, n) := accept settings.wiring 0 (.start desk)
  serve (← IO.getStdin) (← IO.getStdout) (← IO.monoNanosNow) k n

end Courier

/-- Serves one connection with the settings that the command line asks for. -/
def main (words : List String) : IO UInt32 := do
  match Courier.ServerSettings.ofWords words with
  | .error e =>
    IO.eprintln ("error: " ++ e.message)
    return 2
  | .ok settings =>
    Courier.run settings
    return 0
