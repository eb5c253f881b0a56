import Courier.Proofs.Wire.Fields
import Courier.Wire.Frame.Decode

/-! # Packets, written and read

A packet is read exactly where its bytes are found, and packets in a row are read exactly where the
bytes of all of them are. Passing over a packet ends where reading it does, unless the frame that
holds it becomes too long there.
-/
set_option autoImplicit false

namespace Courier.Wire

variable {input : ByteArray} {pos next : Nat}

/-! ## One packet -/

theorem of?_packet_eq_ok_iff {timestamp : Int64} {sender recipient : Address}
    {payload : ByteArray} {p : Packet} :
    Packet.of? timestamp sender recipient payload = .ok p ↔
      p.timestamp = timestamp ∧ p.sender = sender ∧ p.recipient = recipient ∧
        p.payload = payload := by
  unfold Packet.of?
  split
  case isTrue h =>
    constructor
    · intro heq
      cases heq
      exact ⟨rfl, rfl, rfl, rfl⟩
    · rintro ⟨rfl, rfl, rfl, rfl⟩
      rfl
  case isFalse h =>
    constructor
    · intro heq
      cases heq
    · rintro ⟨_, _, _, rfl⟩
      exact absurd p.payload_le h

theorem size_encode (p : Packet) : p.encode.size = p.encodedSize := by
  unfold Packet.encode Packet.encodedSize
  simp only [ByteArray.size_append, size_numberBytes, size_labelBytes]
  omega

/-- A time stamp in eight bytes. -/
theorem stamp_eq_iff {v : Nat} (hv : v < 256 ^ 8) (t : Int64) :
    t = (UInt64.ofNat v).toInt64 ↔ v = t.toUInt64.toNat := by
  have hlow : (UInt64.ofNat v).toNat = v := UInt64.toNat_ofNat_of_lt' hv
  constructor
  · rintro rfl
    rw [UInt64.toUInt64_toInt64, hlow]
  · rintro rfl
    rw [UInt64.ofNat_toNat, Int64.toInt64_toUInt64]

theorem found_encode_iff {p : Packet} :
    Found input pos next p.encode ↔ ∃ a b c d,
      Found input pos a (numberBytes 8 p.timestamp.toUInt64.toNat) ∧
        Found input a b (labelBytes p.sender) ∧ Found input b c (labelBytes p.recipient) ∧
          Found input c d (numberBytes 4 p.payload.size) ∧ Found input d next p.payload := by
  unfold Packet.encode
  simp only [Found.append_iff]
  constructor
  · rintro ⟨d, ⟨c, ⟨b, ⟨a, h1, h2⟩, h3⟩, h4⟩, h5⟩
    exact ⟨a, b, c, d, h1, h2, h3, h4, h5⟩
  · rintro ⟨a, b, c, d, h1, h2, h3, h4, h5⟩
    exact ⟨d, ⟨c, ⟨b, ⟨a, h1, h2⟩, h3⟩, h4⟩, h5⟩

theorem stamp_lt (p : Packet) : p.timestamp.toUInt64.toNat < 256 ^ 8 :=
  p.timestamp.toUInt64.toNat_lt

theorem payload_size_lt (p : Packet) : p.payload.size < 256 ^ 4 := by
  have h := p.payload_le
  unfold maxPayloadSize at h
  omega

/-- A packet is read exactly where its bytes are found. -/
theorem decodeAt_packet_eq_ok_iff {p : Packet} :
    Packet.decodeAt input pos = .ok (p, next) ↔ Found input pos next p.encode := by
  rw [found_encode_iff]
  simp only [Packet.decodeAt, bind_eq_ok_iff, Prod.exists]
  constructor
  · rintro ⟨stamp, a, h1, from', b, h2, sender, hs, to', c, h3, recipient, hr, size, d, h4, h5⟩
    obtain ⟨hstamp, f1⟩ := numberAt_eq_ok_iff.1 h1
    obtain ⟨-, f4⟩ := numberAt_eq_ok_iff.1 h4
    rw [← of?_eq_ok_iff.1 hs, labelAt_eq_ok_bytes_iff] at h2
    rw [← of?_eq_ok_iff.1 hr, labelAt_eq_ok_bytes_iff] at h3
    split at h5
    case isTrue => cases h5
    case isFalse hle =>
      simp only [bind_eq_ok_iff, Prod.exists] at h5
      obtain ⟨payload, stop, h6, packet, h7, h8⟩ := h5
      obtain ⟨hsize, f5⟩ := takeAt_eq_ok_iff.1 h6
      obtain ⟨ht, hps, hpr, hpp⟩ := of?_packet_eq_ok_iff.1 h7
      cases h8
      rw [(stamp_eq_iff hstamp _).1 ht] at f1
      rw [hps, hpr, hpp, hsize]
      exact ⟨a, b, c, d, f1, h2, h3, f4, f5⟩
  · rintro ⟨a, b, c, d, f1, f2, f3, f4, f5⟩
    refine ⟨_, a, numberAt_eq_ok_iff.2 ⟨stamp_lt p, f1⟩, _, b, labelAt_eq_ok_bytes_iff.2 f2,
      p.sender, Label.of?_bytes _, _, c, labelAt_eq_ok_bytes_iff.2 f3, p.recipient,
      Label.of?_bytes _, _, d, numberAt_eq_ok_iff.2 ⟨payload_size_lt p, f4⟩, ?_⟩
    rw [if_neg (Nat.not_lt.2 p.payload_le)]
    simp only [bind_eq_ok_iff, Prod.exists]
    refine ⟨p.payload, next, takeAt_eq_ok_iff.2 ⟨rfl, f5⟩, p, of?_packet_eq_ok_iff.2 ?_, rfl⟩
    exact ⟨(stamp_eq_iff (stamp_lt p) _).2 rfl, rfl, rfl, rfl⟩

/-! ## Packets in a row -/

theorem foldl_encode (packets : List Packet) (start : ByteArray) :
    packets.foldl (fun bytes p => bytes ++ p.encode) start = start ++ encodePackets packets := by
  unfold encodePackets
  induction packets generalizing start with
  | nil => exact ByteArray.append_empty.symm
  | cons p rest ih =>
    rw [List.foldl_cons, List.foldl_cons, ih (start ++ p.encode), ih (.empty ++ p.encode),
      ByteArray.empty_append, ByteArray.append_assoc]

theorem encodePackets_nil : encodePackets [] = .empty := rfl

theorem encodePackets_cons (p : Packet) (rest : List Packet) :
    encodePackets (p :: rest) = p.encode ++ encodePackets rest := by
  unfold encodePackets
  rw [List.foldl_cons, foldl_encode, ByteArray.empty_append]
  rfl

/-- Packets are read exactly where the bytes of all of them are found. -/
theorem decodePacketsAt_eq_ok_iff {n : Nat} {packets : List Packet} (hpos : pos ≤ input.size) :
    decodePacketsAt input n pos = .ok (packets, next) ↔
      packets.length = n ∧ Found input pos next (encodePackets packets) := by
  induction n generalizing pos packets with
  | zero =>
    constructor
    · intro h
      cases h
      exact ⟨rfl, Found.empty hpos⟩
    · rintro ⟨hlen, hf⟩
      obtain rfl := List.length_eq_zero_iff.1 hlen
      rw [hf.eq_of_empty]
      rfl
  | succ n ih =>
    simp only [decodePacketsAt, bind_eq_ok_iff, Prod.exists]
    constructor
    · rintro ⟨p, mid, hp, rest, stop, hrest, heq⟩
      have hf := decodeAt_packet_eq_ok_iff.1 hp
      cases heq
      obtain ⟨hlen, hr⟩ := (ih hf.next_le).1 hrest
      rw [encodePackets_cons]
      exact ⟨congrArg (· + 1) hlen, Found.append_iff.2 ⟨mid, hf, hr⟩⟩
    · rintro ⟨hlen, hf⟩
      cases packets with
      | nil => cases hlen
      | cons p rest =>
        rw [encodePackets_cons] at hf
        obtain ⟨mid, hp, hr⟩ := Found.append_iff.1 hf
        refine ⟨p, mid, decodeAt_packet_eq_ok_iff.2 hp, rest, next, ?_, rfl⟩
        exact (ih hp.next_le).2 ⟨Nat.succ.inj hlen, hr⟩

theorem sendSize_eq (packets : List Packet) :
    Frame.sendSize packets = sendOverhead + (encodePackets packets).size := by
  have hfold : ∀ start, packets.foldl (fun size p => size + p.encodedSize) start =
      start + (encodePackets packets).size := by
    induction packets with
    | nil => exact fun start => rfl
    | cons p rest ih =>
      intro start
      rw [List.foldl_cons, ih, encodePackets_cons, ByteArray.size_append, size_encode,
        Nat.add_assoc]
  exact hfold sendOverhead

/-! ## Passing over packets -/

namespace Frame

variable {start stop : Nat}

theorem skipPacketAt_eq_ok_iff {p : Packet} (hf : Found input pos next p.encode)
    (hstart : start ≤ pos) :
    skipPacketAt input start pos = .ok stop ↔ stop = next ∧ next - start ≤ maxFrameSize := by
  obtain ⟨a, b, c, d, f1, f2, f3, f4, f5⟩ := found_encode_iff.1 hf
  have h1 : skipAt input pos 8 = .ok a :=
    skipAt_eq_ok_iff.2 ⟨by rw [f1.next_eq, size_numberBytes], f1.next_le⟩
  have h2 : skipLabelAt input a = .ok b :=
    skipLabelAt_eq_ok_iff.2 ⟨_, labelAt_eq_ok_bytes_iff.2 f2⟩
  have h3 : skipLabelAt input b = .ok c :=
    skipLabelAt_eq_ok_iff.2 ⟨_, labelAt_eq_ok_bytes_iff.2 f3⟩
  have h4 : numberAt 4 input c = .ok (p.payload.size, d) :=
    numberAt_eq_ok_iff.2 ⟨payload_size_lt p, f4⟩
  have h5 : skipAt input d p.payload.size = .ok next :=
    skipAt_eq_ok_iff.2 ⟨f5.next_eq, f5.next_le⟩
  have hd : start ≤ d := by
    have := f1.pos_le
    have := f2.pos_le
    have := f3.pos_le
    have := f4.pos_le
    omega
  have hsize : d - start + p.payload.size = next - start := by
    rw [f5.next_eq]
    omega
  simp only [skipPacketAt, h1, h2, h3, h4, ok_bind, if_neg (Nat.not_lt.2 p.payload_le), hsize, h5]
  split
  case isTrue hlarge =>
    constructor
    · intro h
      cases h
    · rintro ⟨-, hle⟩
      exact absurd hle (Nat.not_le.2 hlarge)
  case isFalse hfits =>
    constructor
    · intro h
      cases h
      exact ⟨rfl, Nat.not_lt.1 hfits⟩
    · rintro ⟨rfl, -⟩
      rfl

/-- Passing over packets ends where they do, if the frame is not too long there. -/
theorem skipPacketsAt_eq_ok_iff {packets : List Packet}
    (hf : Found input pos next (encodePackets packets)) (hstart : start ≤ pos)
    (hsize : pos - start ≤ maxFrameSize) :
    skipPacketsAt input start packets.length pos = .ok stop ↔
      stop = next ∧ next - start ≤ maxFrameSize := by
  induction packets generalizing pos with
  | nil =>
    rw [hf.eq_of_empty]
    constructor
    · intro h
      cases h
      exact ⟨rfl, hsize⟩
    · rintro ⟨rfl, -⟩
      rfl
  | cons p rest ih =>
    rw [encodePackets_cons] at hf
    obtain ⟨mid, hp, hr⟩ := Found.append_iff.1 hf
    have hpos := hp.pos_le
    have hmid := hr.pos_le
    simp only [List.length_cons, skipPacketsAt, bind_eq_ok_iff, skipPacketAt_eq_ok_iff hp hstart]
    constructor
    · rintro ⟨_, ⟨rfl, hle⟩, hskip⟩
      exact (ih hr (Nat.le_trans hstart hpos) hle).1 hskip
    · rintro ⟨rfl, hle⟩
      have hle' : mid - start ≤ maxFrameSize := by omega
      exact ⟨mid, ⟨rfl, hle'⟩, (ih hr (Nat.le_trans hstart hpos) hle').2 ⟨rfl, hle⟩⟩

end Frame
end Courier.Wire
