/-! # Durations as text

A duration is a number of nanoseconds. It is shown in the largest of the units s, ms, µs and ns that
it fills at least once, with the fraction of that unit to its last digit that is not zero.
-/
set_option autoImplicit false

namespace Courier.Text

/-- A fraction written with a fixed number of places, without its trailing zeros. -/
def fractionDigits (value places : Nat) : List Char :=
  let digits := Nat.toDigits 10 value
  let padded := List.replicate (places - digits.length) '0' ++ digits
  (padded.reverse.dropWhile (· = '0')).reverse

/-- A count of nanoseconds in a unit of ten to the `places` of them. -/
def inUnit (ns places : Nat) (unit : String) : String :=
  let size := Nat.pow 10 places
  let whole := toString (ns / size)
  match fractionDigits (ns % size) places with
  | [] => whole ++ unit
  | digits => whole ++ "." ++ String.ofList digits ++ unit

def duration (ns : Nat) : String :=
  if ns < 1000 then inUnit ns 0 "ns"
  else if ns < 1000000 then inUnit ns 3 "µs"
  else if ns < 1000000000 then inUnit ns 6 "ms"
  else inUnit ns 9 "s"

end Courier.Text
