import Courier.Policy

/-! # Random session ids

A source of random bytes yields a byte sequence over and over. A random session id is four bytes of
it in hexadecimal.
-/
set_option autoImplicit false

namespace Courier

open Courier.Wire

/-- A byte sequence that is yielded in a circle, from a position on. -/
structure Randomness where
  cycle : ByteArray
  position : Nat

namespace Randomness

/-- The next byte. A source without bytes yields zeros. -/
def next (r : Randomness) : UInt8 × Randomness :=
  ((r.cycle[r.position % r.cycle.size]?).getD 0, { r with position := r.position + 1 })

def draw : (n : Nat) → Randomness → List UInt8 × Randomness
  | 0, r => ([], r)
  | n + 1, r =>
    let (b, r) := r.next
    let (bs, r) := draw n r
    (b :: bs, r)

/-- A session id of eight hexadecimal digits. -/
def sessionId : SessionFactory Randomness := fun _ r =>
  let (bytes, r) := draw 4 r
  ((Label.of? .sessionId (Text.hex bytes.toByteArray).toUTF8).mapError Fault.ofWire, r)

end Randomness
end Courier
