import Courier.Proofs.Node.Sending

/-! # Any packets as one item

Packets are cut into runs that each fit one SEND frame, in order, and no run but the last could take
one packet more. So packets can always be written on a live channel: they are queued as one item, no
packets as none, and the item reads as a SEND frame for each run (`packets_are_packed`).
-/
set_option autoImplicit false

namespace Courier

open Courier.Wire Courier.Wire.Frame

variable {σ : Type}

/-! ## Each run -/

theorem run_within_limits {ps run : List Packet} (h : run ∈ sendBatches ps) :
    run.length ≤ maxPacketsPerSend ∧ sendSize run ≤ maxFrameSize ∧
      (send run).encode = .ok (send run).layout := by
  have hfits := (sendable_of_mem_sendBatches ps run h).fits
  refine ⟨hfits.countable, ?_, encode_eq_ok_iff.2 ⟨hfits, rfl⟩⟩
  rw [← size_layout_send]
  exact hfits.size_le

theorem decodeAll_sends (ps : List Packet) :
    decodeAll (layouts (sends ps)) = ((sendBatches ps).map send, none) :=
  decodeAll_layouts (sends ps) fun _ => sendable_of_mem_sends

/-! ## The item -/

/-- On a live channel any packets are queued, as one item if there are any. -/
theorem apply_writePackets {n : Node σ} {c : ChannelId} {ch : Channel σ}
    (hch : n.channel? c = some ch) (hlive : ch.Live) (ps : List Packet) :
    (writePackets c ps).apply n = (.ok (), if ps = [] then n else
      n.modify c fun _ => { ch with queue := ch.queue.push (.bytes (layouts (sends ps))) }) := by
  by_cases hps : ps = []
  · rw [hps, writePackets_nil, if_pos rfl]
    rfl
  · rw [writePackets_eq hps, if_neg hps]
    exact apply_enqueue_of_live hch hlive _

/-- Packets make up non-empty runs that can all be encoded, in order and each as long as can be; on
a live channel they are written as one item that reads as these runs, and no packets as no item. -/
theorem packets_are_packed (ps : List Packet) :
    (sendBatches ps).flatten = ps ∧
    (∀ run ∈ sendBatches ps, run ≠ [] ∧ run.length ≤ maxPacketsPerSend ∧
      sendSize run ≤ maxFrameSize ∧ ∃ b, (send run).encode = .ok b) ∧
    (∀ before run p next after, sendBatches ps = before ++ run :: (p :: next) :: after →
      maxPacketsPerSend < (run ++ [p]).length ∨ maxFrameSize < sendSize (run ++ [p])) ∧
    ∀ (n : Node σ) (c : ChannelId) (ch : Channel σ), n.channel? c = some ch →
      ch.session.isClosed = false → ch.hasWriter = true →
      ∃ n', (writePackets c ps).apply n = (.ok (), n') ∧ (ps = [] → n' = n) ∧
        (ps ≠ [] → ∃ b,
          n' = (n.modify c fun _ => { ch with queue := ch.queue.push (.bytes b) }) ∧
          decodeAll b = ((sendBatches ps).map send, none) ∧
          (decodeAll b).1.flatMap packets = ps) := by
  refine ⟨flatten_sendBatches ps, ?_, ?_, ?_⟩
  · intro run hrun
    obtain ⟨hcount, hsize, hencode⟩ := run_within_limits hrun
    exact ⟨run_ne_nil hrun, hcount, hsize, _, hencode⟩
  · intro before run p next after h
    exact noRoom_of_sendBatches ps before h
  · intro n c ch hch hopen hwriter
    have hwrite := apply_writePackets hch ⟨hopen, hwriter⟩ ps
    refine ⟨_, hwrite, fun hps => if_pos hps, fun hps => ?_⟩
    refine ⟨layouts (sends ps), if_neg hps, decodeAll_sends ps, ?_⟩
    rw [decodeAll_sends]
    exact packets_sends ps

/-- One packet more than a SEND frame can count. -/
def manyPackets : List Packet := List.replicate 256 smallPacket

def bareChannel : Channel Unit := .start (.start .initiator 0 {}) []

/-- They go out as one item with at least two SEND frames. -/
theorem manyPackets_are_packed :
    ∃ b n', (writePackets ⟨0⟩ manyPackets).apply (((Node.start ()).addChannel bareChannel).2) =
        (.ok (), n') ∧
      (n'.channel? ⟨0⟩).map (·.queue.toList) = some [.bytes b] ∧
      2 ≤ (decodeAll b).1.length ∧ (decodeAll b).1.flatMap packets = manyPackets := by
  have hmany : manyPackets.length = 256 := List.length_replicate
  obtain ⟨hflatten, hruns, -, hwrites⟩ := packets_are_packed (σ := Unit) manyPackets
  obtain ⟨n', hwrite, -, hsome⟩ := hwrites ((Node.start ()).addChannel bareChannel).2 ⟨0⟩
    bareChannel rfl rfl rfl
  obtain ⟨b, rfl, hdecode, hpackets⟩ := hsome (List.length_pos_iff.1 (by omega))
  refine ⟨b, _, hwrite, rfl, ?_, hpackets⟩
  rw [hdecode, List.length_map]
  rw [← hflatten] at hmany
  match hbatches : sendBatches manyPackets with
  | [] => simp [hbatches] at hmany
  | [run] =>
    have hcount : run.length ≤ 255 := (hruns run (by simp [hbatches])).2.1
    simp [hbatches] at hmany
    omega
  | run :: next :: rest => simp

end Courier
