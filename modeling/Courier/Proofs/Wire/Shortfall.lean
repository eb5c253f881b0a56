import Courier.Proofs.Wire.Outlines

/-! # How much input is missing

A reading that lacks bytes says how many it lacks as far as it can see. Until they are there the
number only goes down with the bytes that arrive (`tellsShortfall_endAt`). A frame with a part of
its end cut off lacks bytes. A SEND frame is refused by its declared lengths before their bytes
arrive (`measure_sendStart`).
-/
set_option autoImplicit false

namespace Courier.Wire

variable {α β : Type} {input : ByteArray} {start pos mid next : Nat}

/-! ## The laws of what is missing -/

/-- A reading that lacks bytes lacks those that it tells: with fewer of them it lacks the rest. -/
def TellsShortfall (read : ByteArray → Except WireError α) : Prop :=
  ∀ input k, read input = .error (.incomplete k) → 1 ≤ k ∧
    ∀ more : ByteArray, more.size < k →
      read (input ++ more) = .error (.incomplete (k - more.size))

/-- A value lacks nothing. -/
theorem tellsShortfall_ok (f : ByteArray → α) : TellsShortfall fun input => .ok (f input) := by
  intro input k h
  cases h

theorem tellsShortfall_error {e : WireError} (he : e.isIncomplete = false) :
    TellsShortfall fun _ => (.error e : Except WireError α) := by
  intro input k h
  cases h
  cases he

/-- The second reading begins where the first has settled. -/
theorem TellsShortfall.bind {read : ByteArray → Except WireError α}
    {rest : α → ByteArray → Except WireError β} (hread : TellsShortfall read)
    (hsettles : Settles read) (hrest : ∀ a, TellsShortfall (rest a)) :
    TellsShortfall fun input => read input >>= fun a => rest a input := by
  intro input k h
  simp only [] at h
  cases hfirst : read input with
  | error e =>
    rw [hfirst] at h
    cases h
    obtain ⟨hpos, hmore⟩ := hread input k hfirst
    refine ⟨hpos, fun more hsize => ?_⟩
    simp only [hmore more hsize]
    rfl
  | ok a =>
    rw [hfirst] at h
    obtain ⟨hpos, hmore⟩ := hrest a input k h
    refine ⟨hpos, fun more hsize => ?_⟩
    have hsettled : read (input ++ more) = .ok a :=
      (hsettles input more (not_lacks_of_eq_ok hfirst)).trans hfirst
    simp only [hsettled]
    exact hmore more hsize

theorem tellsShortfall_ite (p : Prop) [Decidable p] {read read' : ByteArray → Except WireError α}
    (h : TellsShortfall read) (h' : TellsShortfall read') :
    TellsShortfall fun input => if p then read input else read' input := by
  split
  · exact h
  · exact h'

/-! ## The readers tell what is missing -/

theorem tellsShortfall_skipAt (pos n : Nat) : TellsShortfall fun input => skipAt input pos n := by
  intro input k h
  simp only [skipAt] at h ⊢
  split at h
  case isTrue => cases h
  case isFalse hend =>
    cases h
    refine ⟨by omega, fun more hsize => ?_⟩
    rw [ByteArray.size_append, if_neg (by omega)]
    congr 2
    omega

theorem tellsShortfall_takeAt (pos n : Nat) : TellsShortfall fun input => takeAt input pos n :=
  (tellsShortfall_skipAt pos n).bind (settles_skipAt pos n) fun _ => tellsShortfall_ok _

theorem tellsShortfall_byteAt (pos : Nat) : TellsShortfall fun input => byteAt input pos := by
  intro input k h
  simp only [byteAt] at h ⊢
  split at h
  case isTrue => cases h
  case isFalse hend =>
    cases h
    refine ⟨by omega, fun more hsize => ?_⟩
    rw [dif_neg (by rw [ByteArray.size_append]; omega), ByteArray.size_append]
    congr 2
    omega

theorem tellsShortfall_numberAt (k pos : Nat) :
    TellsShortfall fun input => numberAt k input pos :=
  (tellsShortfall_takeAt pos k).bind (settles_takeAt pos k) fun _ => tellsShortfall_ok _

theorem tellsShortfall_skipLabelAt (pos : Nat) :
    TellsShortfall fun input => skipLabelAt input pos :=
  (tellsShortfall_byteAt pos).bind (settles_byteAt pos) fun field =>
    tellsShortfall_skipAt field.2 field.1.toNat

namespace Frame

theorem tellsShortfall_skipPacketAt (start pos : Nat) :
    TellsShortfall fun input => skipPacketAt input start pos := by
  refine (tellsShortfall_skipAt pos 8).bind (settles_skipAt pos 8) fun pos => ?_
  refine (tellsShortfall_skipLabelAt pos).bind (settles_skipLabelAt pos) fun pos => ?_
  refine (tellsShortfall_skipLabelAt pos).bind (settles_skipLabelAt pos) fun pos => ?_
  refine (tellsShortfall_numberAt 4 pos).bind (settles_numberAt 4 pos) fun field => ?_
  apply tellsShortfall_ite
  · exact tellsShortfall_error rfl
  · apply tellsShortfall_ite
    · exact tellsShortfall_error rfl
    · exact tellsShortfall_skipAt field.2 field.1

theorem tellsShortfall_skipPacketsAt (start n pos : Nat) :
    TellsShortfall fun input => skipPacketsAt input start n pos := by
  induction n generalizing pos with
  | zero => exact tellsShortfall_ok fun _ => pos
  | succ n ih =>
    exact (tellsShortfall_skipPacketAt start pos).bind (settles_skipPacketAt start pos) ih

theorem tellsShortfall_endAt (start : Nat) : TellsShortfall fun input => endAt input start := by
  refine (tellsShortfall_byteAt start).bind (settles_byteAt start) fun field => ?_
  obtain ⟨code, pos⟩ := field
  simp only []
  cases Command.ofCode? code with
  | none => exact tellsShortfall_ok fun _ => pos
  | some c =>
    cases c with
    | attach | authenticate | identify | session => exact tellsShortfall_skipLabelAt pos
    | acknowledge => exact tellsShortfall_skipAt pos 4
    | send =>
      exact (tellsShortfall_byteAt pos).bind (settles_byteAt pos) fun field =>
        tellsShortfall_skipPacketsAt start _ field.2
    | fetch | requestAcknowledgment | detach => exact tellsShortfall_ok fun _ => pos

/-! ## A frame that is cut off -/

theorem exists_incomplete_of_lacks {x : Except WireError α} (h : Lacks x) :
    ∃ k, x = .error (.incomplete k) := by
  cases x with
  | ok a => exact h.elim
  | error e =>
    cases e with
    | incomplete k => exact ⟨k, rfl⟩
    | _ => cases h

/-- Bytes before the end of what is measured lack some: settled, they would measure more than they
are. -/
theorem lacks_of_measure_append {p rest : ByteArray}
    (h : measure (p ++ rest) = .ok (p ++ rest).size) (hrest : 0 < rest.size) :
    Lacks (measure p) := by
  refine Classical.byContradiction fun hsettled => ?_
  have hsame : endAt (p ++ rest) 0 = endAt p 0 := settles_endAt 0 p rest hsettled
  have hle := inside_endAt p 0 _ (hsame.symm.trans h)
  rw [ByteArray.size_append] at hle
  omega

theorem measure_incomplete_of_encode {f : Frame} {p rest : ByteArray}
    (h : f.encode = .ok (p ++ rest)) (hrest : 0 < rest.size) :
    ∃ k, measure p = .error (.incomplete k) := by
  obtain ⟨hfits, hlayout⟩ := encode_eq_ok_iff.1 h
  by_cases hproper : f.Proper
  · have hfound : Found (p ++ rest) 0 (p ++ rest).size f.layout := by
      rw [← hlayout]
      exact Found.whole _
    have hsize := hfits.size_le
    rw [← hlayout] at hsize
    have hwhole : measure (p ++ rest) = .ok (p ++ rest).size :=
      (endAt_eq_ok_iff hproper hfits.countable hfound).2 ⟨rfl, by omega⟩
    exact exists_incomplete_of_lacks (lacks_of_measure_append hwhole hrest)
  · -- A frame that passes for unknown is one byte, and nothing is before its end.
    cases f with
    | unknown code =>
      have hone : (p ++ rest).size = 1 := by
        rw [hlayout]
        exact List.size_toByteArray
      rw [ByteArray.size_append] at hone
      obtain rfl : p = .empty := ByteArray.size_eq_zero_iff.1 (by omega)
      exact ⟨1, rfl⟩
    | _ => exact absurd trivial hproper

/-! ## A SEND frame that declares too much -/

theorem skipPacketsAt_append {before : List PacketOutline} (m : Nat)
    (hf : Found input pos mid (outlineBytes before)) (hstart : start ≤ pos)
    (hmodest : ∀ p ∈ before, p.Modest) (hsize : mid - start ≤ maxFrameSize) :
    skipPacketsAt input start (before.length + m) pos = skipPacketsAt input start m mid := by
  induction before generalizing pos with
  | nil =>
    obtain rfl := hf.eq_of_empty
    rw [List.length_nil, Nat.zero_add]
  | cons p rest ih =>
    obtain ⟨stop, hp, hrest⟩ := Found.append_iff.1 hf
    obtain ⟨hfirst, hmodests⟩ := List.forall_mem_cons.1 hmodest
    obtain ⟨behind, hhead, hpayload⟩ := Found.append_iff.1 hp
    have hstop := hrest.pos_le
    have hbehind := hhead.pos_le
    have hlength := p.payload_size
    have hnext := hpayload.next_eq
    have hsmall : ¬ maxPayloadSize < p.head.size.toNat := by
      have hle : p.payload.size ≤ maxPayloadSize := hfirst
      omega
    have hskip : skipPacketAt input start pos = .ok stop := by
      rw [skipPacketAt_eq hhead, if_neg hsmall, if_neg (by omega), skipAt_eq_ok_iff]
      exact ⟨by omega, hpayload.next_le⟩
    rw [List.length_cons, Nat.add_right_comm, skipPacketsAt, hskip, ok_bind]
    exact ih hrest (by omega) hmodests

/-- A SEND frame up to the length field of one of its packets; the packets before it are within the
limits. -/
structure SendStart where
  count : UInt8
  before : List PacketOutline
  head : PacketHead
  counted : before.length < count.toNat
  modest : ∀ p ∈ before, p.Modest
  within : sendOverhead + (outlineBytes before).size ≤ maxFrameSize

namespace SendStart

def bytes (s : SendStart) : ByteArray :=
  commandByte .send ++ [s.count].toByteArray ++ outlineBytes s.before ++ s.head.bytes

/-- Why the packet at the end cannot be in the frame. -/
def refusal? (s : SendStart) : Option WireError :=
  if maxPayloadSize < s.head.size.toNat then
    some (.payloadTooLarge s.head.size.toNat maxPayloadSize)
  else if maxFrameSize < s.bytes.size + s.head.size.toNat then
    some (.frameTooLarge (s.bytes.size + s.head.size.toNat) maxFrameSize)
  else none

end SendStart

/-- The length field of a packet decides whether the packet is refused. -/
theorem measure_sendStart {s : SendStart} {e : WireError} (h : s.refusal? = some e)
    (after : ByteArray) : measure (s.bytes ++ after) = .error e := by
  have hwhole := Found.self s.bytes after
  obtain ⟨c, hc, hhead⟩ := Found.append_iff.1 hwhole
  obtain ⟨b, hb, hbefore⟩ := Found.append_iff.1 hc
  obtain ⟨a, hcommand, hcount⟩ := Found.append_iff.1 hb
  have ha := hcommand.next_eq
  have hb' := hcount.next_eq
  have hc' := hbefore.next_eq
  rw [size_commandByte] at ha
  rw [List.size_toByteArray, List.length_singleton] at hb'
  have hwithin := s.within
  have hcounted := s.counted
  unfold sendOverhead at hwithin
  have hn : s.count.toNat = s.before.length + ((s.count.toNat - s.before.length - 1) + 1) := by
    omega
  have hcode : Command.ofCode? Command.send.code = some .send := rfl
  have hskip : skipPacketAt (s.bytes ++ after) 0 c = .error e := by
    rw [skipPacketAt_eq hhead, Nat.sub_zero]
    unfold SendStart.refusal? at h
    split at h
    case isTrue hpayload =>
      cases h
      rw [if_pos hpayload]
    case isFalse hpayload =>
      split at h
      case isTrue hframe =>
        cases h
        rw [if_neg hpayload, if_pos hframe]
      case isFalse => cases h
  rw [measure, endAt, byteAt_eq_ok_iff.2 hcommand]
  simp only [ok_bind, hcode, byteAt_eq_ok_iff.2 hcount]
  rw [hn, skipPacketsAt_append _ hbefore (Nat.zero_le _) s.modest (by omega), skipPacketsAt, hskip]
  rfl

/-- A part of the input is measured for good, or it tells how many bytes it lacks at least: with
fewer of them it lacks the rest. A frame that is cut off lacks bytes, and a SEND frame that declares
too much is refused as soon as it does. -/
theorem measure_partial (p : ByteArray) :
    (∀ n, measure p = .ok n → ∀ q, measure (p ++ q) = .ok n) ∧
    (∀ e, e.isIncomplete = false → measure p = .error e → ∀ q, measure (p ++ q) = .error e) ∧
    (∀ k, measure p = .error (.incomplete k) → 1 ≤ k ∧
      ∀ q : ByteArray, q.size < k → measure (p ++ q) = .error (.incomplete (k - q.size))) ∧
    (∀ (f : Frame) (rest : ByteArray), f.encode = .ok (p ++ rest) → 0 < rest.size →
      ∃ k, measure p = .error (.incomplete k)) ∧
    (∀ (s : SendStart) (e : WireError), s.refusal? = some e → s.bytes = p →
      ∀ q, measure (p ++ q) = .error e) := by
  refine ⟨?_, ?_, tellsShortfall_endAt 0 p, ?_, ?_⟩
  · intro n hn q
    exact (settles_endAt 0 p q (not_lacks_of_eq_ok hn)).trans hn
  · intro e he hp q
    have hsettled : ¬ Lacks (endAt p 0) := by
      rw [show endAt p 0 = .error e from hp]
      exact ne_true_of_eq_false he
    exact (settles_endAt 0 p q hsettled).trans hp
  · intro f rest
    exact measure_incomplete_of_encode
  · rintro s e he rfl q
    exact measure_sendStart he q

/-- The first packet of a SEND frame declares one byte more than the limit. -/
def greatSend : SendStart where
  count := 2
  before := []
  head := ⟨7, smallPacket.sender.raw, smallPacket.recipient.raw, 0x1000001⟩
  counted := by decide
  modest := fun p hp => nomatch hp
  within := by decide

/-- A FETCH is measured whatever follows, a cut ACKNOWLEDGE lacks bytes, an identity of five bytes
lacks the three that are missing, and the great SEND is refused and stays refused. -/
theorem measure_partial_cases :
    measure (⟨#[5]⟩ ++ ⟨#[9]⟩) = .ok 1 ∧
    measure (⟨#[3, 5]⟩ ++ ⟨#[97, 64]⟩) = .error (.incomplete 3) ∧
    (∃ k, measure ⟨#[8, 0]⟩ = .error (.incomplete k)) ∧
    measure (greatSend.bytes ++ ⟨#[1]⟩) = .error (.payloadTooLarge 0x1000001 maxPayloadSize) ∧
    measure (greatSend.bytes ++ ⟨#[1]⟩ ++ ⟨#[2]⟩) =
      .error (.payloadTooLarge 0x1000001 maxPayloadSize) := by
  obtain ⟨hok, -⟩ := measure_partial ⟨#[5]⟩
  obtain ⟨-, -, hlacks, -⟩ := measure_partial ⟨#[3, 5]⟩
  obtain ⟨-, -, -, hcut, -⟩ := measure_partial ⟨#[8, 0]⟩
  obtain ⟨-, -, -, -, hgreat⟩ := measure_partial greatSend.bytes
  obtain ⟨-, hkept, -⟩ := measure_partial (greatSend.bytes ++ ⟨#[1]⟩)
  have hrefused := hgreat greatSend (.payloadTooLarge 0x1000001 maxPayloadSize) rfl rfl ⟨#[1]⟩
  refine ⟨hok 1 rfl _, ?_, ?_, hrefused, hkept _ rfl hrefused _⟩
  · exact (hlacks 5 rfl).2 ⟨#[97, 64]⟩ (by decide)
  · exact hcut (acknowledge 7) ⟨#[0, 0, 7]⟩ rfl (by decide)

end Frame
end Courier.Wire
