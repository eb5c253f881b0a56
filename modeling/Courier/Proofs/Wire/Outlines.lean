import Courier.Proofs.Wire.Prefixes

/-! # Outlines of frames

An outline is what the length fields of a frame show: its command and its fields as they stand on
the wire, labels that may be empty and packets whose payloads may be too long. Measuring ends behind
an outline, or refuses it by its declared lengths (`skipPacketAt_eq`, `exists_outline_of_endAt`).
Parsing what was measured gives a frame that takes all of it, or names the first empty label that
may not be empty (`parse_follows_measure`).
-/
set_option autoImplicit false

namespace Courier.Wire

variable {α β : Type} {input : ByteArray} {start stop pos mid next : Nat}

/-! ## Labels that may be empty -/

/-- A byte string that its length byte can describe. -/
structure RawLabel where
  bytes : ByteArray
  size_le : bytes.size ≤ maxLabelSize

namespace RawLabel

def isEmpty (l : RawLabel) : Bool := l.bytes.size = 0

/-- The label's field: its length byte and its bytes. -/
def field (l : RawLabel) : ByteArray := [UInt8.ofNat l.bytes.size].toByteArray ++ l.bytes

end RawLabel

/-- A label as a field, its kind left out. -/
def Label.raw {kind : LabelKind} (l : Label kind) : RawLabel := ⟨l.bytes, l.size_le⟩

theorem labelAt_eq_ok_iff_field {b : ByteArray} :
    labelAt input pos = .ok (b, next) ↔
      ∃ l : RawLabel, l.bytes = b ∧ Found input pos next l.field := by
  rw [labelAt_eq_ok_iff]
  constructor
  · rintro ⟨hle, hf⟩
    exact ⟨⟨b, hle⟩, rfl, hf⟩
  · rintro ⟨l, rfl, hf⟩
    exact ⟨l.size_le, hf⟩

theorem skipLabelAt_eq_ok_iff_field :
    skipLabelAt input pos = .ok next ↔ ∃ l : RawLabel, Found input pos next l.field := by
  simp only [skipLabelAt_eq_ok_iff, labelAt_eq_ok_iff_field]
  constructor
  · rintro ⟨b, l, -, hf⟩
    exact ⟨l, hf⟩
  · rintro ⟨l, hf⟩
    exact ⟨_, l, rfl, hf⟩

theorem of?_empty (kind : LabelKind) {l : RawLabel} (h : l.isEmpty = true) :
    Label.of? kind l.bytes = .error (.invalidLength kind.name 0) := by
  have hsize : l.bytes.size = 0 := of_decide_eq_true h
  unfold Label.of?
  simp only [hsize, Nat.lt_irrefl, false_and, dite_false]

/-- Bytes that a length byte can describe make a label of any kind, unless they are none. -/
theorem exists_of?_eq_ok (kind : LabelKind) {l : RawLabel} (h : l.isEmpty = false) :
    ∃ label, Label.of? kind l.bytes = .ok label := by
  have hpos : 0 < l.bytes.size := Nat.pos_of_ne_zero (of_decide_eq_false h)
  exact ⟨_, dif_pos ⟨hpos, l.size_le⟩⟩

/-! ## Packets -/

/-- The fields of a packet before its payload, with the payload's declared size. -/
structure PacketHead where
  stamp : UInt64
  sender : RawLabel
  recipient : RawLabel
  size : UInt32

def PacketHead.bytes (h : PacketHead) : ByteArray :=
  numberBytes 8 h.stamp.toNat ++ h.sender.field ++ h.recipient.field ++ numberBytes 4 h.size.toNat

/-- A packet's fields, the payload as long as is declared. -/
structure PacketOutline where
  head : PacketHead
  payload : ByteArray
  payload_size : payload.size = head.size.toNat

namespace PacketOutline

def bytes (p : PacketOutline) : ByteArray := p.head.bytes ++ p.payload

/-- The payload is within the payload limit. -/
def Modest (p : PacketOutline) : Prop := p.payload.size ≤ maxPayloadSize

/-- The labels that may not be empty, in the order of the wire. -/
def labels (p : PacketOutline) : List (LabelKind × RawLabel) :=
  [(.address, p.head.sender), (.address, p.head.recipient)]

end PacketOutline

/-- The bytes of packets one after the other. -/
def outlineBytes : List PacketOutline → ByteArray
  | [] => .empty
  | p :: rest => p.bytes ++ outlineBytes rest

theorem found_head_iff {h : PacketHead} :
    Found input pos next h.bytes ↔ ∃ a b c,
      Found input pos a (numberBytes 8 h.stamp.toNat) ∧ Found input a b h.sender.field ∧
        Found input b c h.recipient.field ∧ Found input c next (numberBytes 4 h.size.toNat) := by
  unfold PacketHead.bytes
  simp only [Found.append_iff]
  constructor
  · rintro ⟨c, ⟨b, ⟨a, h1, h2⟩, h3⟩, h4⟩
    exact ⟨a, b, c, h1, h2, h3, h4⟩
  · rintro ⟨a, b, c, h1, h2, h3, h4⟩
    exact ⟨c, ⟨b, ⟨a, h1, h2⟩, h3⟩, h4⟩

namespace Frame

/-! ## Measuring packets -/

/-- A packet is refused by its declared size as soon as its head is there. -/
theorem skipPacketAt_eq {h : PacketHead} (hf : Found input pos mid h.bytes) :
    skipPacketAt input start pos =
      if maxPayloadSize < h.size.toNat then
        .error (.payloadTooLarge h.size.toNat maxPayloadSize)
      else if maxFrameSize < mid - start + h.size.toNat then
        .error (.frameTooLarge (mid - start + h.size.toNat) maxFrameSize)
      else skipAt input mid h.size.toNat := by
  obtain ⟨a, b, c, f1, f2, f3, f4⟩ := found_head_iff.1 hf
  have h1 : skipAt input pos 8 = .ok a :=
    skipAt_eq_ok_iff.2 ⟨by rw [f1.next_eq, size_numberBytes], f1.next_le⟩
  have h2 : skipLabelAt input a = .ok b := skipLabelAt_eq_ok_iff_field.2 ⟨_, f2⟩
  have h3 : skipLabelAt input b = .ok c := skipLabelAt_eq_ok_iff_field.2 ⟨_, f3⟩
  have h4 : numberAt 4 input c = .ok (h.size.toNat, mid) :=
    numberAt_eq_ok_iff.2 ⟨h.size.toNat_lt, f4⟩
  simp only [skipPacketAt, h1, h2, h3, h4, ok_bind, gt_iff_lt]
  split
  · rfl
  · split
    · rfl
    · rfl

/-- Bytes that are passed over are the bytes of the number that they write. -/
theorem exists_number_of_skipAt {k : Nat} (h : skipAt input pos k = .ok next) :
    ∃ v < 256 ^ k, Found input pos next (numberBytes k v) := by
  have hread : numberAt k input pos =
      .ok (ofBigEndian (input.extract pos next).data.toList, next) := by
    rw [numberAt, takeAt, h]
    rfl
  obtain ⟨hlt, hf⟩ := numberAt_eq_ok_iff.1 hread
  exact ⟨_, hlt, hf⟩

/-- A packet that is passed over has an outline. -/
theorem exists_outline_of_skipPacketAt (h : skipPacketAt input start pos = .ok next) :
    ∃ p : PacketOutline, Found input pos next p.bytes := by
  have hread := h
  simp only [skipPacketAt, bind_eq_ok_iff, Prod.exists] at hread
  obtain ⟨a, h1, b, h2, c, h3, size, mid, h4, -⟩ := hread
  obtain ⟨stamp, hstamp, f1⟩ := exists_number_of_skipAt h1
  obtain ⟨sender, f2⟩ := skipLabelAt_eq_ok_iff_field.1 h2
  obtain ⟨recipient, f3⟩ := skipLabelAt_eq_ok_iff_field.1 h3
  obtain ⟨hsize, f4⟩ := numberAt_eq_ok_iff.1 h4
  obtain ⟨stamp, rfl⟩ : ∃ word : UInt64, word.toNat = stamp :=
    ⟨_, UInt64.toNat_ofNat_of_lt' hstamp⟩
  obtain ⟨size, rfl⟩ : ∃ word : UInt32, word.toNat = size := ⟨_, UInt32.toNat_ofNat_of_lt' hsize⟩
  have hhead : Found input pos mid (PacketHead.mk stamp sender recipient size).bytes :=
    found_head_iff.2 ⟨a, b, c, f1, f2, f3, f4⟩
  have hskip : skipAt input mid size.toNat = .ok next := by
    rw [skipPacketAt_eq hhead] at h
    split at h
    · cases h
    · split at h
      · cases h
      · exact h
  obtain ⟨hnext, hle⟩ := skipAt_eq_ok_iff.1 hskip
  have hpayload : Found input mid next (input.extract mid next) :=
    .of_extract (hnext ▸ Nat.le_add_right mid _) hle
  have hlength : (input.extract mid next).size = size.toNat := by
    have hend := hpayload.next_eq
    omega
  exact ⟨⟨_, _, hlength⟩, Found.append_iff.2 ⟨mid, hhead, hpayload⟩⟩

/-! ## Packets in a row -/

theorem skipPacketAt_outline {p : PacketOutline} (hf : Found input pos next p.bytes)
    (h : skipPacketAt input start pos = .ok stop) : stop = next ∧ p.Modest := by
  obtain ⟨mid, hhead, hpayload⟩ := Found.append_iff.1 hf
  have hsize := p.payload_size
  have hnext := hpayload.next_eq
  rw [skipPacketAt_eq hhead] at h
  split at h
  · cases h
  · split at h
    · cases h
    · obtain ⟨hstop, -⟩ := skipAt_eq_ok_iff.1 h
      have hmodest : p.payload.size ≤ maxPayloadSize := by omega
      exact ⟨by omega, hmodest⟩

theorem skipPacketsAt_outlines {ps : List PacketOutline}
    (hf : Found input pos next (outlineBytes ps))
    (h : skipPacketsAt input start ps.length pos = .ok stop) :
    stop = next ∧ ∀ p ∈ ps, p.Modest := by
  induction ps generalizing pos with
  | nil =>
    cases h
    exact ⟨hf.eq_of_empty.symm, fun p hp => nomatch hp⟩
  | cons p rest ih =>
    obtain ⟨mid, hp, hrest⟩ := Found.append_iff.1 hf
    obtain ⟨mid', hskip, hskips⟩ := bind_eq_ok_iff.1 h
    obtain ⟨rfl, hmodest⟩ := skipPacketAt_outline hp hskip
    obtain ⟨hstop, hmodests⟩ := ih hrest hskips
    exact ⟨hstop, List.forall_mem_cons.2 ⟨hmodest, hmodests⟩⟩

theorem exists_outlines_of_skipPacketsAt {n : Nat} (hpos : pos ≤ input.size)
    (h : skipPacketsAt input start n pos = .ok next) :
    ∃ ps : List PacketOutline, ps.length = n ∧ Found input pos next (outlineBytes ps) := by
  induction n generalizing pos with
  | zero =>
    cases h
    exact ⟨[], rfl, .empty hpos⟩
  | succ n ih =>
    obtain ⟨mid, hskip, hskips⟩ := bind_eq_ok_iff.1 h
    obtain ⟨p, hp⟩ := exists_outline_of_skipPacketAt hskip
    obtain ⟨ps, hlength, hps⟩ := ih hp.next_le hskips
    exact ⟨p :: ps, congrArg (· + 1) hlength, Found.append_iff.2 ⟨mid, hp, hps⟩⟩

end Frame

/-! ## Frames -/

/-- A count byte tells as many packets as it can. -/
theorem toNat_length {ps : List PacketOutline} (h : ps.length ≤ maxPacketsPerSend) :
    (UInt8.ofNat ps.length).toNat = ps.length := by
  unfold maxPacketsPerSend at h
  rw [UInt8.toNat_ofNat']
  omega

/-- What stands behind a command byte. -/
inductive Arguments where
  | nothing
  | label (l : RawLabel)
  | word (w : UInt32)
  | packets (ps : List PacketOutline)

namespace Arguments

def bytes : Arguments → ByteArray
  | nothing => .empty
  | label l => l.field
  | word w => numberBytes 4 w.toNat
  | packets ps => [UInt8.ofNat ps.length].toByteArray ++ outlineBytes ps

/-- A command has such arguments; a code outside the table has none. -/
inductive Belong : Option Command → Arguments → Prop where
  | attach (l : RawLabel) : Belong (some .attach) (label l)
  | authenticate (l : RawLabel) : Belong (some .authenticate) (label l)
  | identify (l : RawLabel) : Belong (some .identify) (label l)
  | session (l : RawLabel) : Belong (some .session) (label l)
  | acknowledge (w : UInt32) : Belong (some .acknowledge) (word w)
  | send {ps : List PacketOutline} (countable : ps.length ≤ maxPacketsPerSend) :
      Belong (some .send) (packets ps)
  | fetch : Belong (some .fetch) nothing
  | requestAcknowledgment : Belong (some .requestAcknowledgment) nothing
  | detach : Belong (some .detach) nothing
  | unassigned : Belong none nothing

/-- The labels that may not be empty, in the order of the wire. -/
def labels : Option Command → Arguments → List (LabelKind × RawLabel)
  | some .attach, label l => [(.address, l)]
  | some .authenticate, label l => [(.credential, l)]
  | some .send, packets ps => ps.flatMap PacketOutline.labels
  | _, _ => []

def Modest : Arguments → Prop
  | packets ps => ∀ p ∈ ps, p.Modest
  | _ => True

end Arguments

/-- The code of a frame's command and the fields behind it, as they stand on the wire. -/
structure Outline where
  code : UInt8
  arguments : Arguments
  belong : arguments.Belong (Command.ofCode? code)

/-- The kind of the first label that is empty. -/
def firstEmpty? (labels : List (LabelKind × RawLabel)) : Option LabelKind :=
  (labels.find? fun l => l.2.isEmpty).map (·.1)

theorem firstEmpty?_cons (l : LabelKind × RawLabel) (rest : List (LabelKind × RawLabel)) :
    firstEmpty? (l :: rest) = if l.2.isEmpty then some l.1 else firstEmpty? rest := by
  rw [firstEmpty?, List.find?_cons]
  cases hempty : l.2.isEmpty with
  | true => rfl
  | false => rfl

theorem firstEmpty?_append (labels more : List (LabelKind × RawLabel)) :
    firstEmpty? (labels ++ more) = (firstEmpty? labels).or (firstEmpty? more) := by
  rw [firstEmpty?, List.find?_append, Option.map_or]
  rfl

namespace Outline

def bytes (o : Outline) : ByteArray := [o.code].toByteArray ++ o.arguments.bytes

/-- The kind of the first empty label that may not be empty: an address in ATTACH or of a packet's
sender or recipient, or the credential in AUTHENTICATE. -/
def firstEmpty? (o : Outline) : Option LabelKind :=
  Wire.firstEmpty? (o.arguments.labels (Command.ofCode? o.code))

end Outline

namespace Frame

/-! ## Measuring frames -/

/-- A frame that is measured has an outline. -/
theorem exists_outline_of_endAt (h : endAt input start = .ok next) :
    ∃ o : Outline, Found input start next o.bytes := by
  obtain ⟨⟨code, pos⟩, hbyte, h⟩ := bind_eq_ok_iff.1 h
  have hcode := byteAt_eq_ok_iff.1 hbyte
  -- It is enough to find arguments that belong to the command.
  suffices hargs : ∃ a : Arguments, a.Belong (Command.ofCode? code) ∧ Found input pos next a.bytes by
    obtain ⟨a, hbelong, ha⟩ := hargs
    exact ⟨⟨code, a, hbelong⟩, Found.append_iff.2 ⟨pos, hcode, ha⟩⟩
  simp only [] at h
  cases hcommand : Command.ofCode? code with
  | none =>
    rw [hcommand] at h
    cases h
    exact ⟨.nothing, .unassigned, .empty hcode.next_le⟩
  | some c =>
    rw [hcommand] at h
    cases c with
    | attach | authenticate | identify | session =>
      obtain ⟨l, hl⟩ := skipLabelAt_eq_ok_iff_field.1 h
      exact ⟨.label l, by constructor, hl⟩
    | acknowledge =>
      obtain ⟨v, hv, hf⟩ := exists_number_of_skipAt h
      refine ⟨.word (UInt32.ofNat v), .acknowledge _, ?_⟩
      rw [Arguments.bytes, UInt32.toNat_ofNat_of_lt' hv]
      exact hf
    | send =>
      obtain ⟨⟨count, mid⟩, hcount, hskips⟩ := bind_eq_ok_iff.1 h
      have hbyte := byteAt_eq_ok_iff.1 hcount
      obtain ⟨ps, hlength, hps⟩ := exists_outlines_of_skipPacketsAt hbyte.next_le hskips
      have hlt := count.toNat_lt
      refine ⟨.packets ps, .send ?_, Found.append_iff.2 ⟨mid, ?_, hps⟩⟩
      · change ps.length ≤ 255
        simp only [] at hlength
        omega
      · rw [hlength, UInt8.ofNat_toNat]
        exact hbyte
    | fetch | requestAcknowledgment | detach =>
      cases h
      exact ⟨.nothing, by constructor, .empty hcode.next_le⟩

/-- Measuring what has an outline ends behind it, if it ends. -/
theorem endAt_outline {o : Outline} (hf : Found input start next o.bytes)
    (h : endAt input start = .ok stop) : stop = next ∧ o.arguments.Modest := by
  obtain ⟨pos, hcode, hargs⟩ := Found.append_iff.1 hf
  have hbelong := o.belong
  rw [endAt, byteAt_eq_ok_iff.2 hcode] at h
  simp only [ok_bind] at h
  generalize Command.ofCode? o.code = command at h hbelong
  generalize o.arguments = arguments at hargs hbelong ⊢
  cases hbelong with
  | attach l | authenticate l | identify l | session l =>
    rw [skipLabelAt_eq_ok_iff_field.2 ⟨l, hargs⟩] at h
    cases h
    exact ⟨rfl, trivial⟩
  | acknowledge w =>
    have hnext := hargs.next_eq
    rw [Arguments.bytes, size_numberBytes] at hnext
    exact ⟨(skipAt_eq_ok_iff.1 h).1.trans hnext.symm, trivial⟩
  | @send ps countable =>
    obtain ⟨mid, hcount, hps⟩ := Found.append_iff.1 hargs
    simp only [byteAt_eq_ok_iff.2 hcount, ok_bind, toNat_length countable] at h
    exact skipPacketsAt_outlines hps h
  | fetch | requestAcknowledgment | detach | unassigned =>
    cases h
    exact ⟨hargs.eq_of_empty.symm, trivial⟩

/-! ## Parsing -/

/-- Labels and what is behind them are read: the first empty label is refused, and if there is none
the reading ends here. -/
def Concludes (labels : List (LabelKind × RawLabel)) (next : Nat)
    (x : Except WireError (α × Nat)) : Prop :=
  match Wire.firstEmpty? labels with
  | some kind => x = .error (.invalidLength kind.name 0)
  | none => ∃ a, x = .ok (a, next)

theorem concludes_nil {a : α} : Concludes [] next (.ok (a, next)) := ⟨a, rfl⟩

theorem Concludes.bind {labels more : List (LabelKind × RawLabel)}
    {x : Except WireError (α × Nat)} {f : α × Nat → Except WireError (β × Nat)}
    (hx : Concludes labels mid x) (hf : ∀ a, Concludes more next (f (a, mid))) :
    Concludes (labels ++ more) next (x >>= f) := by
  unfold Concludes at hx
  rw [Concludes, firstEmpty?_append]
  cases hempty : Wire.firstEmpty? labels with
  | some kind =>
    simp only [hempty] at hx
    rw [hx]
    rfl
  | none =>
    simp only [hempty] at hx
    obtain ⟨a, rfl⟩ := hx
    exact hf a

/-- What is made of the value does not matter. -/
theorem Concludes.bind_ok {labels : List (LabelKind × RawLabel)}
    {x : Except WireError (α × Nat)} (hx : Concludes labels next x) (f : α → β) :
    Concludes labels next (x >>= fun field => .ok (f field.1, field.2)) := by
  have h := hx.bind (f := fun field => .ok (f field.1, field.2)) fun _ => concludes_nil
  rw [List.append_nil] at h
  exact h

/-- A label that may not be empty. -/
theorem concludes_label (kind : LabelKind) {l : RawLabel} (hf : Found input pos next l.field)
    (f : Label kind → β) : Concludes [(kind, l)] next (do
      let (bytes, pos) ← labelAt input pos
      let label ← Label.of? kind bytes
      return (f label, pos)) := by
  have hread : labelAt input pos = .ok (l.bytes, next) := labelAt_eq_ok_iff_field.2 ⟨l, rfl, hf⟩
  rw [Concludes, firstEmpty?_cons]
  simp only [hread, ok_bind]
  cases hempty : l.isEmpty with
  | true =>
    rw [of?_empty kind hempty]
    rfl
  | false =>
    obtain ⟨label, hlabel⟩ := exists_of?_eq_ok kind hempty
    rw [hlabel]
    exact ⟨f label, rfl⟩

/-- A label that may be empty, which is a refusal. -/
theorem concludes_reply (kind : LabelKind) {l : RawLabel} (hf : Found input pos next l.field)
    (f : Option (Label kind) → β) : Concludes [] next (do
      let (bytes, pos) ← labelAt input pos
      let reply ← replyOf kind bytes
      return (f reply, pos)) := by
  have hread : labelAt input pos = .ok (l.bytes, next) := labelAt_eq_ok_iff_field.2 ⟨l, rfl, hf⟩
  have hreply : ∃ reply, replyOf kind l.bytes = .ok reply := by
    unfold replyOf
    cases hempty : l.isEmpty with
    | true => exact ⟨none, if_pos (of_decide_eq_true hempty)⟩
    | false =>
      obtain ⟨label, hlabel⟩ := exists_of?_eq_ok kind hempty
      rw [if_neg (of_decide_eq_false hempty), hlabel]
      exact ⟨some label, rfl⟩
  obtain ⟨reply, hreply⟩ := hreply
  simp only [hread, ok_bind, hreply]
  exact concludes_nil

theorem concludes_packet {p : PacketOutline} (hf : Found input pos next p.bytes)
    (hmodest : p.Modest) : Concludes p.labels next (Packet.decodeAt input pos) := by
  obtain ⟨mid, hhead, hpayload⟩ := Found.append_iff.1 hf
  obtain ⟨a, b, c, f1, f2, f3, f4⟩ := found_head_iff.1 hhead
  have h1 : numberAt 8 input pos = .ok (p.head.stamp.toNat, a) :=
    numberAt_eq_ok_iff.2 ⟨p.head.stamp.toNat_lt, f1⟩
  have h2 : labelAt input a = .ok (p.head.sender.bytes, b) :=
    labelAt_eq_ok_iff_field.2 ⟨_, rfl, f2⟩
  have h3 : labelAt input b = .ok (p.head.recipient.bytes, c) :=
    labelAt_eq_ok_iff_field.2 ⟨_, rfl, f3⟩
  have h4 : numberAt 4 input c = .ok (p.head.size.toNat, mid) :=
    numberAt_eq_ok_iff.2 ⟨p.head.size.toNat_lt, f4⟩
  have h5 : takeAt input mid p.head.size.toNat = .ok (p.payload, next) :=
    takeAt_eq_ok_iff.2 ⟨p.payload_size, hpayload⟩
  have hsize : ¬ p.head.size.toNat > maxPayloadSize := by
    have hle : p.payload.size ≤ maxPayloadSize := hmodest
    have heq := p.payload_size
    omega
  rw [Concludes, PacketOutline.labels, firstEmpty?_cons, firstEmpty?_cons]
  simp only [Packet.decodeAt, h1, h2, ok_bind]
  cases hempty : p.head.sender.isEmpty with
  | true =>
    rw [of?_empty .address hempty]
    rfl
  | false =>
    obtain ⟨sender, hsender⟩ := exists_of?_eq_ok .address hempty
    simp only [hsender, h3, ok_bind, Bool.false_eq_true, if_false]
    cases hempty' : p.head.recipient.isEmpty with
    | true =>
      rw [of?_empty .address hempty']
      rfl
    | false =>
      obtain ⟨recipient, hrecipient⟩ := exists_of?_eq_ok .address hempty'
      have hpacket : Packet.of? (UInt64.ofNat p.head.stamp.toNat).toInt64 sender recipient
          p.payload = .ok ⟨_, sender, recipient, p.payload, hmodest⟩ := dif_pos hmodest
      simp only [hrecipient, h4, h5, ok_bind, if_neg hsize, hpacket]
      exact ⟨_, rfl⟩

theorem concludes_packets {ps : List PacketOutline} (hf : Found input pos next (outlineBytes ps))
    (hmodest : ∀ p ∈ ps, p.Modest) :
    Concludes (ps.flatMap PacketOutline.labels) next (decodePacketsAt input ps.length pos) := by
  induction ps generalizing pos with
  | nil =>
    obtain rfl := hf.eq_of_empty
    exact concludes_nil
  | cons p rest ih =>
    obtain ⟨mid, hp, hrest⟩ := Found.append_iff.1 hf
    obtain ⟨hfirst, hmodests⟩ := List.forall_mem_cons.1 hmodest
    have htail := ih hrest hmodests
    exact (concludes_packet hp hfirst).bind fun packet => htail.bind_ok (packet :: ·)

/-- What stands behind a command byte is read to its end, or refused for its first empty label. -/
theorem concludes_parseBody {code : UInt8} {a : Arguments}
    (hbelong : a.Belong (Command.ofCode? code)) (hf : Found input pos next a.bytes)
    (hmodest : a.Modest) :
    Concludes (a.labels (Command.ofCode? code)) next (parseBody input code pos) := by
  unfold parseBody
  generalize Command.ofCode? code = command at hbelong ⊢
  cases hbelong with
  | attach l => exact concludes_label .address hf Frame.attach
  | authenticate l => exact concludes_label .credential hf Frame.authenticate
  | identify l => exact concludes_reply .address hf Frame.identify
  | session l => exact concludes_reply .sessionId hf Frame.session
  | acknowledge w =>
    have hread := numberAt_eq_ok_iff.2 ⟨w.toNat_lt, hf⟩
    simp only [hread, ok_bind]
    exact concludes_nil
  | @send ps countable =>
    obtain ⟨mid, hcount, hps⟩ := Found.append_iff.1 hf
    simp only [byteAt_eq_ok_iff.2 hcount, ok_bind, toNat_length countable]
    exact (concludes_packets hps hmodest).bind_ok Frame.send
  | fetch | requestAcknowledgment | detach | unassigned =>
    obtain rfl := hf.eq_of_empty
    exact concludes_nil

theorem concludes_parse {o : Outline} (hf : Found input 0 next o.bytes)
    (hmodest : o.arguments.Modest) :
    Concludes (o.arguments.labels (Command.ofCode? o.code)) next (parse input) := by
  obtain ⟨pos, hcode, hargs⟩ := Found.append_iff.1 hf
  rw [parse_eq, byteAt_eq_ok_iff.2 hcode]
  exact concludes_parseBody o.belong hargs hmodest

/-- Decoding follows measuring. What cannot be measured is not decoded, for the same reason. What
is measured has an outline, and its parsing takes exactly the measured bytes, or refuses the first
empty label of an address or a credential; so it never lacks input or exceeds a limit. -/
theorem parse_follows_measure (b : ByteArray) :
    (∀ e, measure b = .error e → decode b = .error e) ∧
    ∀ n, measure b = .ok n →
      (∃ o : Outline, o.bytes = b.extract 0 n) ∧
      ∀ o : Outline, o.bytes = b.extract 0 n →
        match o.firstEmpty? with
        | some kind => parse (b.extract 0 n) = .error (.invalidLength kind.name 0)
        | none => ∃ f, parse (b.extract 0 n) = .ok (f, n) := by
  constructor
  · intro e he
    exact congrArg (· >>= _) he
  · intro n hn
    have hn : endAt b 0 = .ok n := hn
    have hle := inside_endAt b 0 n hn
    obtain ⟨o, hfound⟩ := exists_outline_of_endAt hn
    refine ⟨⟨o, hfound.extract_eq.symm⟩, ?_⟩
    intro o ho
    have hsize : (b.extract 0 n).size = n := by
      rw [ByteArray.size_extract]
      omega
    have hpart : Found (b.extract 0 n) 0 n o.bytes := by
      have hwhole := Found.whole (b.extract 0 n)
      rw [hsize] at hwhole
      rw [ho]
      exact hwhole
    have hmodest : o.arguments.Modest := by
      have hfound : Found b 0 n o.bytes := ho ▸ .of_extract (Nat.zero_le n) hle
      exact (endAt_outline hfound hn).2
    exact concludes_parse hpart hmodest

/-- A SEND frame with a packet from no one, before another byte. -/
def namelessSend : ByteArray := ⟨#[6, 1, 0, 0, 0, 0, 0, 0, 0, 7, 0, 1, 98, 0, 0, 0, 1, 42, 170]⟩

def namelessOutline : Outline where
  code := 6
  arguments := .packets [⟨⟨7, ⟨.empty, by decide⟩, smallPacket.recipient.raw, 1⟩, ⟨#[42]⟩, rfl⟩]
  belong := .send (by decide)

/-- The packet from no one is measured and its empty sender is refused; without its last byte it
is neither measured nor decoded. -/
theorem parse_follows_measure_nameless :
    (measure namelessSend = .ok 18 ∧
      parse (namelessSend.extract 0 18) = .error (.invalidLength "address" 0)) ∧
    (measure (namelessSend.extract 0 17) = .error (.incomplete 1) ∧
      decode (namelessSend.extract 0 17) = .error (.incomplete 1)) := by
  have hmeasure : measure namelessSend = .ok 18 := by rfl
  have hlacks : measure (namelessSend.extract 0 17) = .error (.incomplete 1) := by rfl
  have hbytes : namelessOutline.bytes = namelessSend.extract 0 18 := by rfl
  refine ⟨⟨hmeasure, ?_⟩, hlacks, (parse_follows_measure _).1 _ hlacks⟩
  exact ((parse_follows_measure namelessSend).2 18 hmeasure).2 namelessOutline hbytes

end Frame
end Courier.Wire
