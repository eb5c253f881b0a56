import Courier.Proofs.Wire.PacketCodec
import Courier.Wire.Frame.Encode

/-! # Frames, written and read

The bytes of a frame are laid out by its command. `decodeAt_eq_ok_iff`: a frame is read exactly
where its layout is found, if it fits the limits and its code is its own. From this follow both
round trips at once: what is written is read back before any other bytes, and what is read is
written back byte for byte.
-/
set_option autoImplicit false

namespace Courier.Wire.Frame

variable {input : ByteArray} {pos next start stop : Nat}

/-! ## The layout of a frame -/

def packets : Frame → List Packet
  | send ps => ps
  | _ => []

/-- A frame that is not known by its code has no known code. -/
def Proper : Frame → Prop
  | unknown code => Command.ofCode? code = none
  | _ => True

/-- The bytes of a frame, whatever its size. -/
def layout : Frame → ByteArray
  | attach address => commandByte .attach ++ labelBytes address
  | authenticate credential => commandByte .authenticate ++ labelBytes credential
  | identify reply => commandByte .identify ++ replyBytes reply
  | session reply => commandByte .session ++ replyBytes reply
  | fetch => commandByte .fetch
  | send ps => commandByte .send ++ [UInt8.ofNat ps.length].toByteArray ++ encodePackets ps
  | requestAcknowledgment => commandByte .requestAcknowledgment
  | acknowledge count => commandByte .acknowledge ++ numberBytes 4 count.toNat
  | detach => commandByte .detach
  | unknown code => [code].toByteArray

/-- The count byte can hold the number of packets. -/
def Countable (f : Frame) : Prop := f.packets.length ≤ maxPacketsPerSend

/-- The frame is within the limits. -/
structure Fits (f : Frame) : Prop where
  countable : f.Countable
  size_le : f.layout.size ≤ maxFrameSize

/-- Why a frame has no bytes. -/
def refusal? : Frame → Option WireError
  | send ps =>
    if maxPacketsPerSend < ps.length then some (.tooManyPackets ps.length maxPacketsPerSend)
    else if maxFrameSize < sendSize ps then some (.frameTooLarge (sendSize ps) maxFrameSize)
    else none
  | _ => none

theorem size_commandByte (c : Command) : (commandByte c).size = 1 := by
  rw [commandByte, List.size_toByteArray]
  rfl

theorem size_replyBytes_le {kind : LabelKind} (r : Option (Label kind)) :
    (replyBytes r).size ≤ 256 := by
  cases r with
  | none =>
    rw [replyBytes, List.size_toByteArray]
    decide
  | some l =>
    have h := l.size_le
    unfold maxLabelSize at h
    rw [replyBytes, size_labelBytes, Label.size]
    omega

theorem size_labelBytes_le {kind : LabelKind} (l : Label kind) : (labelBytes l).size ≤ 256 :=
  size_replyBytes_le (some l)

theorem size_layout_send (ps : List Packet) : (send ps).layout.size = sendSize ps := by
  rw [layout, sendSize_eq, ByteArray.size_append, ByteArray.size_append, size_commandByte,
    List.size_toByteArray]
  rfl

theorem size_layout_pos (f : Frame) : 1 ≤ f.layout.size := by
  cases f <;> simp only [layout, ByteArray.size_append, size_commandByte, List.size_toByteArray] <;>
    first
      | omega
      | exact Nat.le_refl _

/-- Frames without packets are far below the limits. -/
theorem fits_of_packets_nil (f : Frame) (h : ∀ ps, f ≠ send ps) : f.Fits := by
  have hlimit : maxFrameSize = 33554432 := rfl
  constructor
  · cases f <;> first
      | exact absurd rfl (h _)
      | exact Nat.zero_le _
  · cases f with
    | attach a =>
      have := size_labelBytes_le a
      rw [layout, ByteArray.size_append, size_commandByte]
      omega
    | authenticate c =>
      have := size_labelBytes_le c
      rw [layout, ByteArray.size_append, size_commandByte]
      omega
    | identify r =>
      have := size_replyBytes_le r
      rw [layout, ByteArray.size_append, size_commandByte]
      omega
    | session r =>
      have := size_replyBytes_le r
      rw [layout, ByteArray.size_append, size_commandByte]
      omega
    | send ps => exact absurd rfl (h ps)
    | acknowledge count =>
      rw [layout, ByteArray.size_append, size_commandByte, size_numberBytes]
      omega
    | unknown code =>
      rw [layout, List.size_toByteArray, hlimit]
      exact (by decide : 1 ≤ 33554432)
    | _ =>
      rw [layout, size_commandByte]
      omega

theorem refusal?_send (ps : List Packet) : (send ps).refusal? =
    if maxPacketsPerSend < ps.length then some (.tooManyPackets ps.length maxPacketsPerSend)
    else if maxFrameSize < sendSize ps then some (.frameTooLarge (sendSize ps) maxFrameSize)
    else none := rfl

theorem refusal?_eq_none_iff {f : Frame} : f.refusal? = none ↔ f.Fits := by
  cases f with
  | send ps =>
    have hsize := size_layout_send ps
    rw [refusal?_send]
    constructor
    · intro h
      split at h
      · cases h
      · rename_i hcount
        split at h
        · cases h
        · rename_i hlarge
          exact ⟨Nat.not_lt.1 hcount, by rw [hsize]; exact Nat.not_lt.1 hlarge⟩
    · intro h
      have hcount : ps.length ≤ maxPacketsPerSend := h.countable
      have hle := h.size_le
      rw [if_neg (by omega), if_neg (by omega)]
  | _ => exact ⟨fun _ => fits_of_packets_nil _ (by intro ps h; cases h), fun _ => rfl⟩

/-- Encoding gives the layout, or the reason why there is none. -/
theorem encode_eq (f : Frame) :
    f.encode = match f.refusal? with
      | some e => .error e
      | none => .ok f.layout := by
  cases f with
  | send ps =>
    rw [refusal?_send]
    simp only [encode, layout, gt_iff_lt]
    split
    · rfl
    · split <;> rfl
  | _ => rfl

theorem encode_eq_ok_iff {f : Frame} {e : ByteArray} :
    f.encode = .ok e ↔ f.Fits ∧ e = f.layout := by
  rw [← refusal?_eq_none_iff, encode_eq]
  cases f.refusal? with
  | none =>
    constructor
    · intro h
      cases h
      exact ⟨rfl, rfl⟩
    · rintro ⟨-, rfl⟩
      rfl
  | some e' =>
    constructor
    · intro h
      cases h
    · rintro ⟨h, -⟩
      cases h

/-! ## Labels in frames -/

theorem labelAt_label_iff {kind : LabelKind} {l : Label kind} :
    (∃ b, labelAt input pos = .ok (b, next) ∧ Label.of? kind b = .ok l) ↔
      Found input pos next (labelBytes l) := by
  rw [← labelAt_eq_ok_bytes_iff]
  constructor
  · rintro ⟨b, hb, hl⟩
    rw [of?_eq_ok_iff.1 hl]
    exact hb
  · intro h
    exact ⟨l.bytes, h, Label.of?_bytes l⟩

theorem replyOf_empty (kind : LabelKind) : replyOf kind .empty = .ok none := rfl

theorem replyOf_bytes {kind : LabelKind} (l : Label kind) :
    replyOf kind l.bytes = .ok (some l) := by
  have h : ¬ l.bytes.size = 0 := Nat.ne_of_gt l.size_pos
  rw [replyOf, if_neg h, Label.of?_bytes]
  rfl

/-- A reply is read exactly where its label, or the empty label, is found. -/
theorem labelAt_reply_iff {kind : LabelKind} {r : Option (Label kind)} :
    (∃ b, labelAt input pos = .ok (b, next) ∧ replyOf kind b = .ok r) ↔
      Found input pos next (replyBytes r) := by
  have hempty : replyBytes (none : Option (Label kind)) =
      [UInt8.ofNat ByteArray.empty.size].toByteArray ++ .empty := by
    rw [ByteArray.append_empty]
    rfl
  constructor
  · rintro ⟨b, hb, hr⟩
    unfold replyOf at hr
    split at hr
    case isTrue hsize =>
      cases hr
      rw [hempty]
      rw [ByteArray.size_eq_zero_iff.1 hsize] at hb
      exact (labelAt_eq_ok_iff.1 hb).2
    case isFalse =>
      obtain ⟨l, hl, heq⟩ := bind_eq_ok_iff.1 hr
      cases heq
      exact labelAt_label_iff.1 ⟨b, hb, hl⟩
  · intro hf
    cases r with
    | none =>
      rw [hempty] at hf
      exact ⟨.empty, labelAt_eq_ok_iff.2 ⟨Nat.zero_le _, hf⟩, replyOf_empty kind⟩
    | some l => exact ⟨l.bytes, labelAt_eq_ok_bytes_iff.2 hf, replyOf_bytes l⟩

theorem skipLabelAt_of_label {kind : LabelKind} {l : Label kind}
    (h : Found input pos next (labelBytes l)) : skipLabelAt input pos = .ok next :=
  skipLabelAt_eq_ok_iff.2 ⟨_, labelAt_eq_ok_bytes_iff.2 h⟩

theorem skipLabelAt_of_reply {kind : LabelKind} {r : Option (Label kind)}
    (h : Found input pos next (replyBytes r)) : skipLabelAt input pos = .ok next := by
  obtain ⟨b, hb, -⟩ := labelAt_reply_iff.2 h
  exact skipLabelAt_eq_ok_iff.2 ⟨b, hb⟩

/-! ## Counts -/

theorem toNat_count {f : Frame} (h : f.Countable) :
    (UInt8.ofNat f.packets.length).toNat = f.packets.length := by
  unfold Countable maxPacketsPerSend at h
  rw [UInt8.toNat_ofNat']
  omega

theorem ackCount_eq_iff {v : Nat} (hv : v < 256 ^ 4) (count : UInt32) :
    count = UInt32.ofNat v ↔ v = count.toNat := by
  constructor
  · rintro rfl
    exact (UInt32.toNat_ofNat_of_lt' hv).symm
  · rintro rfl
    exact UInt32.ofNat_toNat.symm

/-! ## Parsing -/

def Body (input : ByteArray) (pos next : Nat) : Frame → Prop
  | attach address => Found input pos next (labelBytes address)
  | authenticate credential => Found input pos next (labelBytes credential)
  | identify reply => Found input pos next (replyBytes reply)
  | session reply => Found input pos next (replyBytes reply)
  | send ps => ∃ mid, Found input pos mid [UInt8.ofNat ps.length].toByteArray ∧
      Found input mid next (encodePackets ps)
  | acknowledge count => Found input pos next (numberBytes 4 count.toNat)
  | fetch | requestAcknowledgment | detach | unknown _ => next = pos

def firstByte : Frame → UInt8
  | unknown code => code
  | f => (f.command?.map Command.code).getD 0

theorem found_layout_iff {f : Frame} :
    Found input start next f.layout ↔
      ∃ pos, byteAt input start = .ok (f.firstByte, pos) ∧ f.Body input pos next := by
  simp only [byteAt_eq_ok_iff]
  have hbare : ∀ code : UInt8, Found input start next [code].toByteArray ↔
      ∃ pos, Found input start pos [code].toByteArray ∧ next = pos := by
    intro code
    constructor
    · intro h
      exact ⟨next, h, rfl⟩
    · rintro ⟨_, h, rfl⟩
      exact h
  cases f with
  | send ps =>
    simp only [layout, ByteArray.append_assoc, Found.append_iff, Body]
    rfl
  | attach | authenticate | identify | session | acknowledge => exact Found.append_iff
  | fetch | requestAcknowledgment | detach | unknown => exact hbare _

/-- What is read behind the command byte. -/
def parseBody (input : ByteArray) (code : UInt8) (pos : Nat) : Except WireError (Frame × Nat) :=
  match Command.ofCode? code with
  | some .attach => do
    let (bytes, pos) ← labelAt input pos
    let address ← Label.of? .address bytes
    return (.attach address, pos)
  | some .authenticate => do
    let (bytes, pos) ← labelAt input pos
    let credential ← Label.of? .credential bytes
    return (.authenticate credential, pos)
  | some .identify => do
    let (bytes, pos) ← labelAt input pos
    let reply ← replyOf .address bytes
    return (.identify reply, pos)
  | some .session => do
    let (bytes, pos) ← labelAt input pos
    let reply ← replyOf .sessionId bytes
    return (.session reply, pos)
  | some .fetch => return (.fetch, pos)
  | some .send => do
    let (count, pos) ← byteAt input pos
    let (packets, pos) ← decodePacketsAt input count.toNat pos
    return (.send packets, pos)
  | some .requestAcknowledgment => return (.requestAcknowledgment, pos)
  | some .acknowledge => do
    let (count, pos) ← numberAt 4 input pos
    return (.acknowledge (UInt32.ofNat count), pos)
  | some .detach => return (.detach, pos)
  | none => return (.unknown code, pos)

theorem parse_eq (input : ByteArray) :
    parse input = byteAt input 0 >>= fun field => parseBody input field.1 field.2 := rfl

theorem body_of_parseBody {f : Frame} {code : UInt8}
    (h : parseBody input code pos = .ok (f, next)) :
    f.firstByte = code ∧ f.Proper ∧ f.Countable ∧ f.Body input pos next := by
  have hnone : ([] : List Packet).length ≤ maxPacketsPerSend := Nat.zero_le _
  unfold parseBody at h
  cases hcode : Command.ofCode? code with
  | none =>
    rw [hcode] at h
    cases h
    exact ⟨rfl, hcode, hnone, rfl⟩
  | some c =>
    have hbyte := Command.code_of_ofCode? hcode
    subst hbyte
    rw [hcode] at h
    cases c with
    | attach =>
      simp only [bind_eq_ok_iff, Prod.exists] at h
      obtain ⟨b, stop, hb, l, hl, heq⟩ := h
      cases heq
      exact ⟨rfl, trivial, hnone, labelAt_label_iff.1 ⟨b, hb, hl⟩⟩
    | authenticate =>
      simp only [bind_eq_ok_iff, Prod.exists] at h
      obtain ⟨b, stop, hb, l, hl, heq⟩ := h
      cases heq
      exact ⟨rfl, trivial, hnone, labelAt_label_iff.1 ⟨b, hb, hl⟩⟩
    | identify =>
      simp only [bind_eq_ok_iff, Prod.exists] at h
      obtain ⟨b, stop, hb, r, hr, heq⟩ := h
      cases heq
      exact ⟨rfl, trivial, hnone, labelAt_reply_iff.1 ⟨b, hb, hr⟩⟩
    | session =>
      simp only [bind_eq_ok_iff, Prod.exists] at h
      obtain ⟨b, stop, hb, r, hr, heq⟩ := h
      cases heq
      exact ⟨rfl, trivial, hnone, labelAt_reply_iff.1 ⟨b, hb, hr⟩⟩
    | send =>
      simp only [bind_eq_ok_iff, Prod.exists] at h
      obtain ⟨count, mid, hcount, ps, stop, hps, heq⟩ := h
      cases heq
      have hf := byteAt_eq_ok_iff.1 hcount
      obtain ⟨hlen, hbody⟩ := (decodePacketsAt_eq_ok_iff hf.next_le).1 hps
      have hlt := count.toNat_lt
      refine ⟨rfl, trivial, ?_, mid, ?_, hbody⟩
      · change ps.length ≤ 255
        omega
      · rw [hlen, UInt8.ofNat_toNat]
        exact hf
    | acknowledge =>
      simp only [bind_eq_ok_iff, Prod.exists] at h
      obtain ⟨v, stop, hv, heq⟩ := h
      cases heq
      obtain ⟨hlt, hf⟩ := numberAt_eq_ok_iff.1 hv
      refine ⟨rfl, trivial, hnone, ?_⟩
      rw [(ackCount_eq_iff hlt _).1 rfl] at hf
      exact hf
    | fetch | requestAcknowledgment | detach =>
      cases h
      exact ⟨rfl, trivial, hnone, rfl⟩

theorem ofCode?_firstByte {f : Frame} (h : f.Proper) :
    Command.ofCode? f.firstByte = f.command? := by
  cases f with
  | unknown code => exact h
  | _ => rfl

theorem parseBody_of_body {f : Frame} (hproper : f.Proper) (hcount : f.Countable)
    (h : f.Body input pos next) : parseBody input f.firstByte pos = .ok (f, next) := by
  unfold parseBody
  rw [ofCode?_firstByte hproper]
  cases f with
  | attach address =>
    obtain ⟨b, hb, hl⟩ := labelAt_label_iff.2 h
    simp only [command?, hb, ok_bind, hl]
    rfl
  | authenticate credential =>
    obtain ⟨b, hb, hl⟩ := labelAt_label_iff.2 h
    simp only [command?, hb, ok_bind, hl]
    rfl
  | identify reply =>
    obtain ⟨b, hb, hr⟩ := labelAt_reply_iff.2 h
    simp only [command?, hb, ok_bind, hr]
    rfl
  | session reply =>
    obtain ⟨b, hb, hr⟩ := labelAt_reply_iff.2 h
    simp only [command?, hb, ok_bind, hr]
    rfl
  | send ps =>
    obtain ⟨mid, hbyte, hps⟩ := h
    have hread := (decodePacketsAt_eq_ok_iff hbyte.next_le).2 ⟨(toNat_count hcount).symm, hps⟩
    change decodePacketsAt input (UInt8.ofNat ps.length).toNat mid = _ at hread
    simp only [command?, byteAt_eq_ok_iff.2 hbyte, ok_bind, hread]
    rfl
  | acknowledge count =>
    have hread := numberAt_eq_ok_iff.2 ⟨count.toNat_lt, h⟩
    simp only [command?, hread, ok_bind, UInt32.ofNat_toNat]
    rfl
  | fetch | requestAcknowledgment | detach | unknown =>
    cases h
    rfl

/-- A frame is parsed exactly where its layout is found. -/
theorem parse_eq_ok_iff {f : Frame} :
    parse input = .ok (f, next) ↔ f.Proper ∧ f.Countable ∧ Found input 0 next f.layout := by
  rw [parse_eq, bind_eq_ok_iff, found_layout_iff]
  constructor
  · rintro ⟨⟨code, pos⟩, hbyte, hbody⟩
    obtain ⟨rfl, hproper, hcount, hf⟩ := body_of_parseBody hbody
    exact ⟨hproper, hcount, pos, hbyte, hf⟩
  · rintro ⟨hproper, hcount, pos, hbyte, hf⟩
    exact ⟨_, hbyte, parseBody_of_body hproper hcount hf⟩

/-! ## Measuring -/

/-- Measuring a frame ends where its layout does, unless it is too long. -/
theorem endAt_eq_ok_iff {f : Frame} (hproper : f.Proper) (hcount : f.Countable)
    (h : Found input start next f.layout) :
    endAt input start = .ok stop ↔ stop = next ∧ next - start ≤ maxFrameSize := by
  have hsize : next - start = f.layout.size := by
    rw [h.next_eq]
    omega
  obtain ⟨pos, hbyte, hbody⟩ := found_layout_iff.1 h
  -- Without packets nothing can be too long, and the end is where the last field ends.
  have hsmall : ∀ {reach : Except WireError Nat}, (∀ ps, f ≠ send ps) → reach = .ok next →
      (reach = .ok stop ↔ stop = next ∧ next - start ≤ maxFrameSize) := by
    intro reach hne hend
    have hle := (fits_of_packets_nil f hne).size_le
    rw [hend, hsize]
    constructor
    · intro heq
      cases heq
      exact ⟨rfl, hle⟩
    · rintro ⟨rfl, -⟩
      rfl
  rw [endAt, hbyte]
  simp only [ok_bind, ofCode?_firstByte hproper]
  cases f with
  | send ps =>
    obtain ⟨mid, hcountByte, hps⟩ := hbody
    have hmid : mid = pos + 1 := hcountByte.next_eq
    have hpos : pos = start + 1 := (byteAt_eq_ok_iff.1 hbyte).next_eq
    have hcountEq := toNat_count hcount
    simp only [command?, byteAt_eq_ok_iff.2 hcountByte, ok_bind]
    change skipPacketsAt input start (UInt8.ofNat (send ps).packets.length).toNat mid = _ ↔ _
    rw [hcountEq]
    apply skipPacketsAt_eq_ok_iff hps (by omega)
    rw [hmid, hpos]
    change _ ≤ 33554432
    omega
  | attach | authenticate => exact hsmall (by intro ps h; cases h) (skipLabelAt_of_label hbody)
  | identify | session => exact hsmall (by intro ps h; cases h) (skipLabelAt_of_reply hbody)
  | acknowledge count =>
    refine hsmall (by intro ps h; cases h) (skipAt_eq_ok_iff.2 ⟨?_, hbody.next_le⟩)
    rw [hbody.next_eq, size_numberBytes]
  | fetch | requestAcknowledgment | detach | unknown =>
    refine hsmall (by intro ps h; cases h) ?_
    rw [hbody]
    rfl

/-! ## Reading a frame -/

/-- A frame is read exactly where its layout is found. -/
theorem decodeAt_eq_ok_iff {f : Frame} (hstart : start ≤ input.size) :
    decodeAt input start = .ok (f, next) ↔
      f.Proper ∧ f.Fits ∧ Found input start next f.layout := by
  simp only [decodeAt, bind_eq_ok_iff, Prod.exists]
  constructor
  · rintro ⟨stop, hend, f', n, hparse, heq⟩
    cases heq
    obtain ⟨hproper, hcount, hf⟩ := parse_eq_ok_iff.1 hparse
    have hfound := hf.of_part hstart
    rw [Nat.add_zero] at hfound
    obtain ⟨hnext, hle⟩ := (endAt_eq_ok_iff hproper hcount hfound).1 hend
    rw [← hnext] at hfound
    refine ⟨hproper, ⟨hcount, ?_⟩, hfound⟩
    have := hfound.next_eq
    omega
  · rintro ⟨hproper, hfits, hf⟩
    have hsize := hfits.size_le
    have hnext := hf.next_eq
    have hend := (endAt_eq_ok_iff hproper hfits.countable hf).2 ⟨rfl, by omega⟩
    refine ⟨next, hend, f, f.layout.size, ?_, rfl⟩
    rw [hf.extract_eq]
    exact parse_eq_ok_iff.2 ⟨hproper, hfits.countable, Found.whole _⟩

/-! ## Both round trips -/

/-- What is written is read back, whatever follows it. -/
theorem decode_append {f : Frame} {e : ByteArray} (hproper : f.Proper) (he : f.encode = .ok e)
    (after : ByteArray) : decode (e ++ after) = .ok (f, e.size) := by
  obtain ⟨hfits, rfl⟩ := encode_eq_ok_iff.1 he
  exact (decodeAt_eq_ok_iff (Nat.zero_le _)).2 ⟨hproper, hfits, Found.self _ after⟩

/-- What is read is written back, byte for byte. -/
theorem encode_of_decode {f : Frame} {b : ByteArray} {n : Nat} (h : decode b = .ok (f, n)) :
    (1 ≤ n ∧ n ≤ b.size ∧ n ≤ maxFrameSize) ∧ f.Proper ∧ f.encode = .ok (b.extract 0 n) := by
  obtain ⟨hproper, hfits, hf⟩ := (decodeAt_eq_ok_iff (Nat.zero_le _)).1 h
  have hn : n = f.layout.size := by
    rw [hf.next_eq, Nat.zero_add]
  have hpos := size_layout_pos f
  have hsize := hfits.size_le
  refine ⟨⟨by omega, hf.next_le, by omega⟩, hproper, ?_⟩
  exact encode_eq_ok_iff.2 ⟨hfits, hf.extract_eq⟩

/-- Frames and what is read are in bijection: a frame is refused for its number of packets or for
its size and leaves the buffer alone, or it is written and read back before any other bytes; and
bytes that are read as a frame are the bytes of that frame. -/
theorem codec_bijective :
    (∀ (f : Frame) (buffer : ByteArray), f.Proper →
      match f.refusal? with
      | some e => f.appendTo buffer = (.error e, buffer)
      | none => ∃ bytes, f.appendTo buffer = (.ok (), buffer ++ bytes) ∧
          ∀ after, decode (bytes ++ after) = .ok (f, bytes.size)) ∧
    (∀ (b : ByteArray) (f : Frame) (n : Nat), decode b = .ok (f, n) →
      (1 ≤ n ∧ n ≤ b.size ∧ n ≤ maxFrameSize) ∧ f.Proper ∧ f.encode = .ok (b.extract 0 n)) := by
  constructor
  · intro f buffer hproper
    have henc := encode_eq f
    cases hrefusal : f.refusal? with
    | some e =>
      rw [hrefusal] at henc
      simp only [appendTo, henc]
    | none =>
      rw [hrefusal] at henc
      refine ⟨f.layout, ?_, decode_append hproper henc⟩
      simp only [appendTo, henc]
  · intro b f n h
    exact encode_of_decode h

/-- A packet without payload from `a` to `b`. -/
def smallPacket : Packet :=
  ⟨-1, ⟨⟨#[97]⟩, by decide, by decide⟩, ⟨⟨#[98]⟩, by decide, by decide⟩, .empty, by decide⟩

/-- One packet makes the round trip before other bytes, and 256 packets are refused. -/
theorem codec_bijective_send :
    (∃ bytes, (send [smallPacket]).appendTo ⟨#[170]⟩ = (.ok (), ⟨#[170]⟩ ++ bytes) ∧
      decode (bytes ++ ⟨#[6, 1]⟩) = .ok (send [smallPacket], bytes.size) ∧
      (send [smallPacket]).encode = .ok ((bytes ++ ⟨#[6, 1]⟩).extract 0 bytes.size)) ∧
    (send (List.replicate 256 smallPacket)).appendTo ⟨#[170]⟩ =
      (.error (.tooManyPackets 256 255), ⟨#[170]⟩) := by
  constructor
  · obtain ⟨bytes, hwrite, hread⟩ := codec_bijective.1 (send [smallPacket]) ⟨#[170]⟩ trivial
    have hback := codec_bijective.2 _ _ _ (hread ⟨#[6, 1]⟩)
    exact ⟨bytes, hwrite, hread _, hback.2.2⟩
  · generalize hps : List.replicate 256 smallPacket = ps
    have hlength : ps.length = 256 := by rw [← hps, List.length_replicate]
    have hrefused : (send ps).refusal? = some (.tooManyPackets 256 255) := by
      rw [refusal?_send, hlength]
      rfl
    have h := codec_bijective.1 (send ps) ⟨#[170]⟩ trivial
    rw [hrefused] at h
    exact h

end Courier.Wire.Frame
