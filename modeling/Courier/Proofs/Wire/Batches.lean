import Courier.Channel
import Courier.Proofs.Wire.FrameCodec

/-! # Frames in a row

The bytes of frames one after the other are read back as these frames (`decodeAll_layouts`).
Packets in batches are the same packets, each batch fits a SEND frame
(`sendable_of_mem_sendBatches`), so any packets can be written (`sendFrames_eq`). A batch that another
follows has no room for one packet more (`noRoom_of_sendBatches`).
-/
set_option autoImplicit false

namespace Courier.Wire.Frame

/-! ## Frames read back -/

def layouts : List Frame → ByteArray
  | [] => .empty
  | f :: rest => f.layout ++ layouts rest

theorem layouts_singleton (f : Frame) : layouts [f] = f.layout := ByteArray.append_empty

theorem length_le_size_layouts (fs : List Frame) : fs.length ≤ (layouts fs).size := by
  induction fs with
  | nil => exact Nat.le_refl _
  | cons f rest ih =>
    have hpos := f.size_layout_pos
    rw [layouts, ByteArray.size_append, List.length_cons]
    omega

/-- A frame that can be written and read back. -/
structure Sendable (f : Frame) : Prop where
  proper : f.Proper
  fits : f.Fits

theorem decodeManyAt_layouts (fs : List Frame) (h : ∀ f ∈ fs, f.Sendable) (before : ByteArray)
    (n : Nat) (hn : fs.length ≤ n) :
    decodeManyAt (before ++ layouts fs) n before.size = (fs, none) := by
  induction fs generalizing before n with
  | nil =>
    have hend : (before ++ layouts []).size ≤ before.size := by
      exact Nat.le_of_eq (congrArg ByteArray.size ByteArray.append_empty)
    cases n with
    | zero => rfl
    | succ n => rw [decodeManyAt, if_pos hend]
  | cons f rest ih =>
    have hsendable := h f (List.mem_cons_self ..)
    have hrest : ∀ f' ∈ rest, f'.Sendable := fun f' hf' => h f' (List.mem_cons_of_mem _ hf')
    have hpos := f.size_layout_pos
    have hsplit : before ++ layouts (f :: rest) = before ++ f.layout ++ layouts rest := by
      rw [layouts, ByteArray.append_assoc]
    have hsize : (before ++ f.layout).size = before.size + f.layout.size := ByteArray.size_append
    have hstart : before.size < (before ++ f.layout ++ layouts rest).size := by
      rw [ByteArray.size_append, hsize]
      omega
    have hread : decodeAt (before ++ f.layout ++ layouts rest) before.size =
        .ok (f, (before ++ f.layout).size) := by
      rw [hsize]
      exact (decodeAt_eq_ok_iff (Nat.le_of_lt hstart)).2
        ⟨hsendable.proper, hsendable.fits, Found.of_append before f.layout (layouts rest)⟩
    cases n with
    | zero => exact absurd hn (Nat.not_succ_le_zero _)
    | succ n =>
      rw [hsplit, decodeManyAt, if_neg (Nat.not_le.2 hstart), hread]
      simp only [ih hrest (before ++ f.layout) n (Nat.le_of_succ_le_succ hn)]

/-- Frames are read back from their bytes. -/
theorem decodeAll_layouts (fs : List Frame) (h : ∀ f ∈ fs, f.Sendable) :
    decodeAll (layouts fs) = (fs, none) := by
  have hmany := decodeManyAt_layouts fs h .empty _ (length_le_size_layouts fs)
  rw [ByteArray.empty_append] at hmany
  exact hmany

/-! ## Batches -/

theorem fill_append (count size : Nat) (ps : List Packet) :
    (fill count size ps).1 ++ (fill count size ps).2 = ps := by
  induction ps generalizing count size with
  | nil => rfl
  | cons p rest ih =>
    rw [fill]
    by_cases hfits : count < maxPacketsPerSend ∧ size + p.encodedSize ≤ maxFrameSize
    · rw [if_pos hfits]
      exact congrArg (p :: ·) (ih (count + 1) (size + p.encodedSize))
    · rw [if_neg hfits]
      rfl

theorem fill_within (count size : Nat) (ps : List Packet) (hcount : count ≤ maxPacketsPerSend)
    (hsize : size ≤ maxFrameSize) :
    count + (fill count size ps).1.length ≤ maxPacketsPerSend ∧
      size + (encodePackets (fill count size ps).1).size ≤ maxFrameSize := by
  induction ps generalizing count size with
  | nil =>
    rw [fill, encodePackets_nil, List.length_nil, ByteArray.size_empty]
    omega
  | cons p rest ih =>
    rw [fill]
    by_cases hfits : count < maxPacketsPerSend ∧ size + p.encodedSize ≤ maxFrameSize
    · have hrest := ih (count + 1) (size + p.encodedSize) hfits.1 hfits.2
      rw [if_pos hfits]
      simp only [List.length_cons, encodePackets_cons, ByteArray.size_append, size_encode]
      omega
    · rw [if_neg hfits]
      simp only [List.length_nil, encodePackets_nil, ByteArray.size_empty]
      omega

theorem flatten_sendBatches (ps : List Packet) : (sendBatches ps).flatten = ps := by
  fun_induction sendBatches ps with
  | case1 => rfl
  | case2 p rest parts ih =>
    rw [List.flatten_cons, ih, List.cons_append]
    exact congrArg (p :: ·) (fill_append 1 _ rest)

theorem encodedSize_le (p : Packet) : sendOverhead + p.encodedSize ≤ maxFrameSize := by
  have hsender := p.sender.size_le
  have hrecipient := p.recipient.size_le
  have hpayload := p.payload_le
  unfold maxLabelSize at hsender hrecipient
  unfold sendOverhead maxFrameSize Packet.encodedSize Label.size
  unfold maxPayloadSize at hpayload ⊢
  omega

theorem sendable_send {ps : List Packet} (hcount : ps.length ≤ maxPacketsPerSend)
    (hsize : sendOverhead + (encodePackets ps).size ≤ maxFrameSize) : (send ps).Sendable := by
  refine ⟨trivial, hcount, ?_⟩
  rw [size_layout_send, sendSize_eq]
  exact hsize

theorem sendable_of_mem_sendBatches (ps : List Packet) :
    ∀ run ∈ sendBatches ps, (send run).Sendable := by
  fun_induction sendBatches ps with
  | case1 =>
    intro run hrun
    cases hrun
  | case2 p rest parts ih =>
    intro run hrun
    obtain rfl | hrun := List.mem_cons.1 hrun
    · have hwithin : 1 + parts.1.length ≤ maxPacketsPerSend ∧
          sendOverhead + p.encodedSize + (encodePackets parts.1).size ≤ maxFrameSize :=
        fill_within 1 _ rest (by decide) (encodedSize_le p)
      apply sendable_send
      · rw [List.length_cons]
        omega
      · rw [encodePackets_cons, ByteArray.size_append, size_encode]
        omega
    · exact ih run hrun

theorem run_ne_nil {ps run : List Packet} (h : run ∈ sendBatches ps) : run ≠ [] := by
  fun_induction sendBatches ps with
  | case1 => cases h
  | case2 p rest parts ih =>
    obtain rfl | h := List.mem_cons.1 h
    · simp
    · exact ih h

/-! ## No room for one more -/

/-- With this packet behind it, a run is too much for one SEND frame. -/
def NoRoom (run : List Packet) (p : Packet) : Prop :=
  maxPacketsPerSend < (run ++ [p]).length ∨ maxFrameSize < sendSize (run ++ [p])

theorem sendSize_concat (run : List Packet) (p : Packet) :
    sendSize (run ++ [p]) = sendSize run + p.encodedSize := by
  simp [sendSize]

/-- A frame that holds some packets is filled until the next one does not fit. -/
theorem noRoom_fill (held ps : List Packet) {p : Packet} {left : List Packet}
    (h : (fill held.length (sendSize held) ps).2 = p :: left) :
    NoRoom (held ++ (fill held.length (sendSize held) ps).1) p := by
  induction ps generalizing held with
  | nil => simp [fill] at h
  | cons q rest ih =>
    rw [fill] at h ⊢
    by_cases hfits : held.length < maxPacketsPerSend ∧ sendSize held + q.encodedSize ≤ maxFrameSize
    · rw [if_pos hfits] at h ⊢
      have hheld := ih (held ++ [q])
      rw [List.length_append, sendSize_concat] at hheld
      have hnext := hheld h
      rw [List.append_assoc] at hnext
      exact hnext
    · rw [if_neg hfits] at h ⊢
      obtain ⟨rfl, -⟩ := List.cons.inj h
      rw [NoRoom, List.append_nil, sendSize_concat, List.length_append, List.length_singleton]
      omega

/-- A run that another follows has no room for the first packet of that one. -/
theorem noRoom_of_sendBatches {run next : List Packet} {p : Packet} {after : List (List Packet)}
    (ps : List Packet) (before : List (List Packet))
    (h : sendBatches ps = before ++ run :: (p :: next) :: after) : NoRoom run p := by
  fun_induction sendBatches ps generalizing before with
  | case1 => simp at h
  | case2 q rest parts ih =>
    cases before with
    | cons first before => exact ih before (List.cons.inj h).2
    | nil =>
      obtain ⟨rfl, hbatches⟩ := List.cons.inj h
      -- What the first run leaves begins with the packet that the second begins with.
      have hleft := flatten_sendBatches parts.2
      rw [hbatches, List.flatten_cons, List.cons_append] at hleft
      exact noRoom_fill [q] rest hleft.symm

/-- The SEND frames of packets. -/
def sends (ps : List Packet) : List Frame := (sendBatches ps).map send

theorem sendable_of_mem_sends {ps : List Packet} {f : Frame} (h : f ∈ sends ps) : f.Sendable := by
  obtain ⟨run, hrun, rfl⟩ := List.mem_map.1 h
  exact sendable_of_mem_sendBatches ps run hrun

theorem packets_sends (ps : List Packet) : (sends ps).flatMap packets = ps := by
  have hpackets : (sends ps).flatMap packets = (sendBatches ps).flatten := by
    unfold sends
    induction sendBatches ps with
    | nil => rfl
    | cons run rest ih => exact congrArg (run ++ ·) ih
  rw [hpackets, flatten_sendBatches]

theorem sends_nil : sends [] = [] := by
  unfold sends
  rw [sendBatches]
  rfl

theorem sends_singleton (p : Packet) : sends [p] = [send [p]] := by
  unfold sends
  rw [sendBatches, fill, sendBatches]
  rfl

theorem sends_ne_nil {ps : List Packet} (h : ps ≠ []) : sends ps ≠ [] := by
  intro hnil
  have hpackets := packets_sends ps
  rw [hnil] at hpackets
  exact h hpackets.symm

end Courier.Wire.Frame

namespace Courier

open Courier.Wire Courier.Wire.Frame

/-! ## Any packets can be written -/

theorem foldlM_sends (runs : List (List Packet)) (h : ∀ run ∈ runs, (send run).Sendable)
    (start : ByteArray) :
    runs.foldlM (fun bytes run => do
      let frame ← (send run).encode
      return bytes ++ frame) start = .ok (start ++ layouts (runs.map send)) := by
  induction runs generalizing start with
  | nil =>
    rw [List.map_nil, layouts, ByteArray.append_empty]
    rfl
  | cons run rest ih =>
    have henc := encode_eq_ok_iff.2 ⟨(h run (List.mem_cons_self ..)).fits, rfl⟩
    have hrest := ih fun r hr => h r (List.mem_cons_of_mem _ hr)
    rw [List.foldlM_cons, henc, List.map_cons, layouts, ← ByteArray.append_assoc]
    exact hrest (start ++ (send run).layout)

theorem sendFrames_eq (ps : List Packet) : sendFrames ps = .ok (layouts (sends ps)) := by
  have h := foldlM_sends (sendBatches ps) (sendable_of_mem_sendBatches ps) .empty
  rw [ByteArray.empty_append] at h
  exact h

end Courier
