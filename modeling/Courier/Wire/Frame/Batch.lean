import Courier.Wire.Frame.Encode

/-! # Packets in batches

Any number of packets, cut into runs that each fit one SEND frame. A run takes packets while both
the count byte and the frame limit allow, and always takes its first one.
-/
set_option autoImplicit false

namespace Courier.Wire.Frame

/-- The packets that still fit a SEND frame which holds `count` packets in `size` bytes, and the
packets left over. -/
def fill : (count size : Nat) → List Packet → List Packet × List Packet
  | _, _, [] => ([], [])
  | count, size, p :: rest =>
    if count < maxPacketsPerSend ∧ size + p.encodedSize ≤ maxFrameSize then
      let (run, left) := fill (count + 1) (size + p.encodedSize) rest
      (p :: run, left)
    else ([], p :: rest)

theorem length_fill_snd (count size : Nat) (packets : List Packet) :
    (fill count size packets).2.length ≤ packets.length := by
  induction packets generalizing count size with
  | nil => simp [fill]
  | cons p rest ih =>
    unfold fill
    split
    · exact Nat.le_succ_of_le (ih _ _)
    · exact Nat.le_refl _

def sendBatches : List Packet → List (List Packet)
  | [] => []
  | p :: rest =>
    let parts := fill 1 (sendOverhead + p.encodedSize) rest
    (p :: parts.1) :: sendBatches parts.2
termination_by packets => packets.length
decreasing_by
  exact Nat.lt_succ_of_le (length_fill_snd _ _ _)

end Courier.Wire.Frame
