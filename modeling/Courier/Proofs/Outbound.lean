import Courier.Exchange
import Courier.Proofs.Wire.Batches
import Courier.Proofs.Wire.Prefixes

/-! # What a queue carries

The items of a queue as the frames that the other end reads from them. An item made of frames of
known commands carries these frames, and the connection header carries none.
-/
set_option autoImplicit false

namespace Courier

open Courier.Wire Courier.Wire.Frame

def Outbound.frames : Outbound → List Frame
  | .bytes b => (decodeAll (withoutHeader b)).1
  | .close => []

def framesOf (items : List Outbound) : List Frame := items.flatMap Outbound.frames

theorem framesOf_append (items more : List Outbound) :
    framesOf (items ++ more) = framesOf items ++ framesOf more := List.flatMap_append

/-! ## The header -/

/-- The input opens with the first byte of the magic, if it opens with the header. -/
theorem byteAt_of_check {b : ByteArray} (h : Header.check b = .ok ()) :
    byteAt b 0 = .ok (0x46, 1) := by
  have hsize : Header.size ≤ b.size := by
    apply Nat.not_lt.1
    intro hlt
    rw [Header.check_of_size_lt hlt] at h
    cases h
  have hpos : 0 < b.size := Nat.lt_of_lt_of_le (by decide) hsize
  unfold Header.check at h
  split at h
  case h_2 => cases h
  case h_1 x0 x1 x2 x3 x4 x5 rest heq =>
    split at h
    · cases h
    · rename_i hmagic
      have hlist : [x0, x1, x2, x3] = [0x46, 0x41, 0x53, 0x54] := by
        apply List.toByteArray_inj.1
        rw [Decidable.of_not_not hmagic]
        rfl
      have hx : x0 = 0x46 := List.head_eq_of_cons_eq hlist
      have hfirst : b[0] = 0x46 := by
        have hlt : 0 < (b.extract 0 Header.size).data.toList.length := by
          rw [heq]
          exact Nat.zero_lt_succ _
        have hget : (b.extract 0 Header.size).data.toList[0] = b[0] := by
          simp [ByteArray.getElem_eq_getElem_data]
        rw [← hget, ← hx]
        simp only [heq, List.getElem_cons_zero]
      rw [byteAt, dif_pos hpos, hfirst]

theorem withoutHeader_of_byteAt {b : ByteArray} {x : UInt8} {pos : Nat}
    (h : byteAt b 0 = .ok (x, pos)) (hx : x ≠ 0x46) : withoutHeader b = b := by
  unfold withoutHeader
  split
  · rename_i hcheck
    have hbyte := byteAt_of_check hcheck
    rw [h] at hbyte
    cases hbyte
    exact absurd rfl hx
  · rfl

/-! ## Frames of known commands -/

theorem code_ne (c : Command) : c.code ≠ 0x46 := by
  cases c <;> decide

theorem firstByte_ne {f : Frame} (h : f.command? ≠ none) : f.firstByte ≠ 0x46 := by
  cases hc : f.command? with
  | none => exact absurd hc h
  | some c =>
    have hbyte : f.firstByte = c.code := by
      cases f <;> cases hc <;> rfl
    rw [hbyte]
    exact code_ne c

theorem byteAt_layouts {f : Frame} (rest : List Frame) :
    ∃ pos, byteAt (layouts (f :: rest)) 0 = .ok (f.firstByte, pos) := by
  obtain ⟨pos, hbyte, -⟩ := found_layout_iff.1 (Found.self f.layout (layouts rest))
  exact ⟨pos, hbyte⟩

/-- A frame of a known command, within the limits. -/
structure Wire.Frame.Regular (f : Frame) : Prop where
  known : f.command? ≠ none
  fits : f.Fits

theorem Wire.Frame.Regular.sendable {f : Frame} (h : f.Regular) : f.Sendable := by
  refine ⟨?_, h.fits⟩
  cases f with
  | unknown code => exact absurd rfl h.known
  | _ => trivial

/-- A frame of a known command without packets is regular. -/
theorem regular_of_known {f : Frame} (hknown : f.command? ≠ none) (h : ∀ ps, f ≠ .send ps) :
    f.Regular := ⟨hknown, fits_of_packets_nil f h⟩

theorem regular_attach (a : Address) : (Frame.attach a).Regular :=
  regular_of_known (fun h => nomatch h) fun _ h => nomatch h

theorem regular_session (id : Option SessionId) : (Frame.session id).Regular :=
  regular_of_known (fun h => nomatch h) fun _ h => nomatch h

theorem regular_authenticate (credential : Credential) : (Frame.authenticate credential).Regular :=
  regular_of_known (fun h => nomatch h) fun _ h => nomatch h

theorem regular_identify (a : Option Address) : (Frame.identify a).Regular :=
  regular_of_known (fun h => nomatch h) fun _ h => nomatch h

theorem regular_fetch : Frame.fetch.Regular :=
  regular_of_known (fun h => nomatch h) fun _ h => nomatch h

theorem regular_requestAcknowledgment : Frame.requestAcknowledgment.Regular :=
  regular_of_known (fun hc => nomatch hc) fun _ hc => nomatch hc

theorem regular_acknowledge (count : UInt32) : (Frame.acknowledge count).Regular :=
  regular_of_known (fun hc => nomatch hc) fun _ hc => nomatch hc

theorem regular_of_mem_sends {ps : List Packet} {f : Frame} (h : f ∈ sends ps) : f.Regular := by
  have hfits := (sendable_of_mem_sends h).fits
  obtain ⟨run, -, rfl⟩ := List.mem_map.1 h
  exact ⟨fun hnone => (nomatch hnone), hfits⟩

/-- An item carries the frames that it was made of. -/
theorem frames_layouts {fs : List Frame} (h : ∀ f ∈ fs, f.Regular) :
    (Outbound.bytes (layouts fs)).frames = fs := by
  have hwhole : withoutHeader (layouts fs) = layouts fs := by
    cases fs with
    | nil => rfl
    | cons f rest =>
      obtain ⟨pos, hbyte⟩ := byteAt_layouts (f := f) rest
      exact withoutHeader_of_byteAt hbyte (firstByte_ne (h f (List.mem_cons_self ..)).known)
  rw [Outbound.frames, hwhole, decodeAll_layouts fs fun f hf => (h f hf).sendable]

theorem framesOf_layouts {fs : List Frame} (h : ∀ f ∈ fs, f.Regular) :
    framesOf [.bytes (layouts fs)] = fs := by
  rw [framesOf, List.flatMap_cons, List.flatMap_nil, List.append_nil, frames_layouts h]

theorem framesOf_header : framesOf [.bytes Header.bytes] = [] := rfl

end Courier
