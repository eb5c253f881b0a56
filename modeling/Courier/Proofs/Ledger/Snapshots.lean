import Courier.Proofs.Node.Actions
import Courier.Proofs.Wire.FrameCodec
import Mathlib.Data.List.Basic
import Mathlib.Data.List.Induction

/-! # Saved ledgers, read back

Bytes are restored exactly if they open with a saved ledger (`restore_eq_some_iff`). One reader
reads all of them, so a saved ledger that is cut short opens with no other one: it is refused
wherever it is cut (`restore_of_cut`). A node puts a ledger in place only when all of it has been
read (`restoreLedger_atomic`).
-/
set_option autoImplicit false

namespace Courier

open Courier.Wire

namespace Ledger

variable {b : ByteArray} {l : Ledger}

/-! ## The header -/

theorem numberAt_header {i : Nat} (h : 4 * i + 4 ≤ b.size) :
    numberAt 4 b (4 * i) = .ok (headerNumber b i, 4 * i + 4) := by
  rw [numberAt, takeAt, skipAt, if_pos h]
  rfl

/-- A place of the header holds the bytes of its number. -/
theorem headerNumber_spec {i : Nat} (h : 4 * i + 4 ≤ b.size) : headerNumber b i < 2 ^ 32 ∧
    Found b (4 * i) (4 * i + 4) (numberBytes 4 (headerNumber b i)) :=
  numberAt_eq_ok_iff.1 (numberAt_header h)

theorem headerNumber_of_found {i v next : Nat} (hv : v < 2 ^ 32)
    (h : Found b (4 * i) next (numberBytes 4 v)) : headerNumber b i = v := by
  have hread : numberAt 4 b (4 * i) = .ok (v, next) := numberAt_eq_ok_iff.2 ⟨hv, h⟩
  have hnext : next = 4 * i + 4 := by rw [h.next_eq, size_numberBytes]
  rw [numberAt_header (hnext ▸ h.next_le)] at hread
  injection hread with hread
  exact congrArg Prod.fst hread

/-- The bytes that a saved ledger of this version opens with. -/
def versionBytes : ByteArray := [0, 0, 0, 1].toByteArray

theorem headerNumber_zero_iff (h : 4 ≤ b.size) :
    headerNumber b 0 = snapshotVersion ↔ b.extract 0 4 = versionBytes := by
  constructor
  · intro hversion
    have hfound := (headerNumber_spec (i := 0) h).2
    rw [hversion] at hfound
    exact hfound.extract_eq
  · intro hversion
    exact headerNumber_of_found (i := 0) (by decide) ⟨rfl, h, hversion⟩

/-- A saved ledger is found as its header and its packets. -/
theorem found_save_iff {next : Nat} : Found b 0 next l.save ↔
    Found b (4 * 0) 4 (numberBytes 4 snapshotVersion) ∧
      Found b (4 * 1) 8 (numberBytes 4 l.received.toNat) ∧
      Found b (4 * 2) 12 (numberBytes 4 l.sent.toNat) ∧
      Found b (4 * 3) 16 (numberBytes 4 (UInt32.ofNat l.buffer.size).toNat) ∧
      Found b 16 next (encodePackets l.unacknowledged) := by
  unfold save
  simp only [Found.append_iff]
  constructor
  · rintro ⟨x₄, ⟨x₃, ⟨x₂, ⟨x₁, h₁, h₂⟩, h₃⟩, h₄⟩, h₅⟩
    have e₁ := h₁.next_eq
    have e₂ := h₂.next_eq
    have e₃ := h₃.next_eq
    have e₄ := h₄.next_eq
    rw [size_numberBytes] at e₁ e₂ e₃ e₄
    subst e₁ e₂ e₃ e₄
    exact ⟨h₁, h₂, h₃, h₄, h₅⟩
  · rintro ⟨h₁, h₂, h₃, h₄, h₅⟩
    exact ⟨16, ⟨12, ⟨8, ⟨4, h₁, h₂⟩, h₃⟩, h₄⟩, h₅⟩

/-! ## The packets -/

/-- Packets are restored exactly where their bytes are found. -/
theorem restorePackets_eq_ok_iff {count n index pos : Nat} {ps : List Packet}
    (hpos : pos ≤ b.size) : restorePackets b count n index pos = .ok ps ↔
      ps.length = n ∧ ∃ next, Found b pos next (encodePackets ps) := by
  induction n generalizing index pos ps with
  | zero =>
    constructor
    · intro h
      cases h
      exact ⟨rfl, pos, .empty hpos⟩
    · rintro ⟨hlength, -⟩
      rw [List.length_eq_zero_iff.1 hlength]
      rfl
  | succ n ih =>
    have hread : ∀ (e : WireError → Fault) (p : Packet) (mid : Nat),
        (Packet.decodeAt b pos).mapError e = .ok (p, mid) ↔ Found b pos mid p.encode := by
      intro e p mid
      rw [← decodeAt_packet_eq_ok_iff]
      cases Packet.decodeAt b pos with
      | error e' => exact ⟨nofun, nofun⟩
      | ok field => exact ⟨fun h => by cases h; rfl, fun h => by cases h; rfl⟩
    simp only [restorePackets, bind_eq_ok_iff, Prod.exists, hread]
    constructor
    · rintro ⟨p, mid, hp, rest, hrest, heq⟩
      cases heq
      obtain ⟨hlength, next, hnext⟩ := (ih hp.next_le).1 hrest
      rw [encodePackets_cons]
      exact ⟨congrArg (· + 1) hlength, next, Found.append_iff.2 ⟨mid, hp, hnext⟩⟩
    · rintro ⟨hlength, next, hfound⟩
      cases ps with
      | nil => cases hlength
      | cons p rest =>
        rw [encodePackets_cons] at hfound
        obtain ⟨mid, hp, hrest⟩ := Found.append_iff.1 hfound
        exact ⟨p, mid, hp, rest, (ih hp.next_le).2 ⟨Nat.succ.inj hlength, next, hrest⟩, rfl⟩

/-- What is wrong with packets is told as a fault of the saved ledger. -/
theorem restorePackets_eq_error {count n index pos : Nat} {f : Fault}
    (h : restorePackets b count n index pos = .error f) : ∃ text, f = .snapshot text := by
  induction n generalizing index pos with
  | zero => cases h
  | succ n ih =>
    rw [restorePackets] at h
    cases hread : Packet.decodeAt b pos with
    | error e =>
      rw [hread] at h
      cases h
      exact ⟨_, rfl⟩
    | ok field =>
      rw [hread] at h
      change restorePackets b count n (index + 1) field.2 >>= _ = _ at h
      cases hrest : restorePackets b count n (index + 1) field.2 with
      | error e =>
        rw [hrest] at h
        cases h
        exact ih hrest
      | ok ps =>
        rw [hrest] at h
        cases h

/-! ## Restoring -/

theorem restore_of_short (h : ¬ 16 ≤ b.size) :
    ∃ text, restore b = .error (.snapshot text) := by
  have hshort : b.size < snapshotHeaderSize := Nat.not_le.1 h
  rw [restore, if_pos hshort]
  exact ⟨_, rfl⟩

theorem restore_of_other (hsize : 16 ≤ b.size) (hversion : headerNumber b 0 ≠ snapshotVersion) :
    restore b = .ok none := by
  have hlong : ¬ b.size < snapshotHeaderSize := Nat.not_lt.2 hsize
  rw [restore, if_neg hlong, if_pos hversion]

theorem restore_of_full (hsize : 16 ≤ b.size) (hversion : headerNumber b 0 = snapshotVersion) :
    restore b =
      (restorePackets b (headerNumber b 3) (headerNumber b 3) 0 snapshotHeaderSize).map fun ps =>
        some ⟨.ofNat (headerNumber b 1), .ofNat (headerNumber b 2), 0, .ofList ps⟩ := by
  have hlong : ¬ b.size < snapshotHeaderSize := Nat.not_lt.2 hsize
  rw [restore, if_neg hlong, if_neg fun hother => hother hversion]
  simp only []
  cases restorePackets b (headerNumber b 3) (headerNumber b 3) 0 snapshotHeaderSize <;> rfl

/-- Of another version are those bytes that are as long as a header and open with another one. -/
theorem restore_eq_none_iff :
    restore b = .ok none ↔ 16 ≤ b.size ∧ b.extract 0 4 ≠ versionBytes := by
  by_cases hsize : 16 ≤ b.size
  · rw [Ne, ← headerNumber_zero_iff (by omega)]
    by_cases hversion : headerNumber b 0 = snapshotVersion
    · rw [restore_of_full hsize hversion, map_eq_ok_iff]
      constructor
      · rintro ⟨ps, -, heq⟩
        cases heq
      · rintro ⟨-, hother⟩
        exact absurd hversion hother
    · rw [restore_of_other hsize hversion]
      exact ⟨fun _ => ⟨hsize, hversion⟩, fun _ => rfl⟩
  · obtain ⟨text, hshort⟩ := restore_of_short hsize
    rw [hshort]
    exact ⟨nofun, fun h => absurd h.1 hsize⟩

theorem restore_eq_error {f : Fault} (h : restore b = .error f) : ∃ text, f = .snapshot text := by
  by_cases hsize : 16 ≤ b.size
  · by_cases hversion : headerNumber b 0 = snapshotVersion
    · rw [restore_of_full hsize hversion, map_eq_error_iff] at h
      exact restorePackets_eq_error h
    · rw [restore_of_other hsize hversion] at h
      cases h
  · obtain ⟨text, hshort⟩ := restore_of_short hsize
    rw [hshort] at h
    cases h
    exact ⟨text, rfl⟩

theorem header_of_restore (h : restore b = .ok (some l)) :
    16 ≤ b.size ∧ headerNumber b 0 = snapshotVersion := by
  by_cases hsize : 16 ≤ b.size
  · by_cases hversion : headerNumber b 0 = snapshotVersion
    · exact ⟨hsize, hversion⟩
    · rw [restore_of_other hsize hversion] at h
      cases h
  · obtain ⟨text, hshort⟩ := restore_of_short hsize
    rw [hshort] at h
    cases h

/-- Exactly the bytes that open with a saved ledger are restored, to that ledger without its
retransmissions. -/
theorem restore_eq_some_iff : restore b = .ok (some l) ↔
    l.buffer.size < 2 ^ 32 ∧ l.retransmitted = 0 ∧ ∃ t, b = l.save ++ t := by
  simp only [← Found.zero_iff, found_save_iff]
  constructor
  · intro h
    obtain ⟨hsize, hversion⟩ := header_of_restore h
    rw [restore_of_full hsize hversion, map_eq_ok_iff] at h
    obtain ⟨ps, hps, heq⟩ := h
    obtain ⟨hlength, next, hpackets⟩ := (restorePackets_eq_ok_iff hsize).1 hps
    cases heq
    obtain ⟨-, h₀⟩ := headerNumber_spec (b := b) (i := 0) (by omega)
    obtain ⟨hlt₁, h₁⟩ := headerNumber_spec (b := b) (i := 1) (by omega)
    obtain ⟨hlt₂, h₂⟩ := headerNumber_spec (b := b) (i := 2) (by omega)
    obtain ⟨hlt₃, h₃⟩ := headerNumber_spec (b := b) (i := 3) (by omega)
    have hcount : (Backlog.ofList ps).size = headerNumber b 3 := by
      rw [← hlength, ← Backlog.length_toList, Backlog.toList_ofList]
    rw [hversion] at h₀
    simp only [unacknowledged, Backlog.toList_ofList, hcount, UInt32.toNat_ofNat_of_lt' hlt₁,
      UInt32.toNat_ofNat_of_lt' hlt₂, UInt32.toNat_ofNat_of_lt' hlt₃]
    exact ⟨hlt₃, trivial, next, h₀, h₁, h₂, h₃, hpackets⟩
  · rintro ⟨hcount, hzero, next, h₀, h₁, h₂, h₃, hpackets⟩
    have hsize : 16 ≤ b.size := h₃.next_le
    have hversion := headerNumber_of_found (by decide) h₀
    have hreceived := headerNumber_of_found l.received.toNat_lt h₁
    have hsent := headerNumber_of_found l.sent.toNat_lt h₂
    have hsaved := headerNumber_of_found (UInt32.toNat_lt _) h₃
    rw [UInt32.toNat_ofNat_of_lt' hcount] at hsaved
    have hread : restorePackets b l.buffer.size l.buffer.size 0 snapshotHeaderSize =
        .ok l.unacknowledged :=
      (restorePackets_eq_ok_iff hsize).2 ⟨l.buffer.length_toList, next, hpackets⟩
    rw [restore_of_full hsize hversion, hreceived, hsent, hsaved, hread, map_ok, UInt32.ofNat_toNat,
      UInt32.ofNat_toNat, unacknowledged, Backlog.ofList_toList, ← hzero]

/-- A saved ledger is restored whatever follows it. -/
theorem restore_save (hcount : l.buffer.size < 2 ^ 32) (t : ByteArray) :
    restore (l.save ++ t) = .ok (some { l with retransmitted := 0 }) :=
  restore_eq_some_iff.2 ⟨hcount, rfl, t, rfl⟩

theorem extract_version_save (l : Ledger) : l.save.extract 0 4 = versionBytes := by
  have h := (found_save_iff.1 (.whole l.save)).1
  exact h.extract_eq

/-- A saved ledger that is cut short is refused, wherever it is cut: what opened with another saved
ledger would, made whole again, be restored to that one too. -/
theorem restore_of_cut (hcount : l.buffer.size < 2 ^ 32) {s u : ByteArray} (h : l.save = s ++ u)
    (hu : u ≠ .empty) : ∃ text, restore s = .error (.snapshot text) := by
  cases hrestore : restore s with
  | error f =>
    obtain ⟨text, rfl⟩ := restore_eq_error hrestore
    exact ⟨text, rfl⟩
  | ok found =>
  cases found with
  | none =>
    obtain ⟨hsize, hother⟩ := restore_eq_none_iff.1 hrestore
    have hversion := l.extract_version_save
    rw [h, extract_append_of_le (by omega)] at hversion
    exact absurd hversion hother
  | some l' =>
    obtain ⟨hcount', hzero, t, rfl⟩ := restore_eq_some_iff.1 hrestore
    have hwhole := restore_save hcount .empty
    rw [ByteArray.append_empty, h, ByteArray.append_assoc, restore_save hcount'] at hwhole
    injection hwhole with hwhole
    injection hwhole with hsame
    -- The retransmissions are not saved.
    have hsave := congrArg save hsame
    change l'.save = l.save at hsave
    have hsize := congrArg ByteArray.size h
    rw [hsave, ByteArray.size_append, ByteArray.size_append] at hsize
    exact absurd (ByteArray.size_eq_zero_iff.1 (by omega)) hu

end Ledger

/-! ## Putting a ledger in place -/

variable {σ : Type} {n : Node σ} {c : ChannelId} {ch : Channel σ} {m : Ledger}

/-- The place of the last ledger among reactors. -/
def ledgerPlaceIn (rs : List (Reactor σ)) : Option Nat :=
  (List.range rs.length).foldl (fun found (i : Nat) => match rs[i]? with
    | some (.reliableDelivery _) => some i
    | _ => found) none

theorem Node.ledgerPlace?_eq (hch : n.channel? c = some ch) :
    n.ledgerPlace? c = ledgerPlaceIn ch.reactors := by
  rw [ledgerPlace?, places, hch]
  simp only [reactor?, hch, Option.bind_some]
  rfl

theorem ledgerPlaceIn_concat (rs : List (Reactor σ)) (r : Reactor σ) :
    ledgerPlaceIn (rs ++ [r]) = match r with
      | .reliableDelivery _ => some rs.length
      | _ => ledgerPlaceIn rs := by
  have hbefore : ∀ (found : Option Nat), ∀ i ∈ List.range rs.length,
      (match (rs ++ [r])[i]? with
        | some (.reliableDelivery _) => some i
        | _ => found) =
      match rs[i]? with
        | some (.reliableDelivery _) => some i
        | _ => found := by
    intro found i hi
    rw [List.getElem?_append_left (List.mem_range.1 hi)]
  rw [ledgerPlaceIn, List.length_append, List.length_singleton, List.range_succ, List.foldl_append,
    List.foldl_ext _ _ _ hbefore, List.foldl_cons, List.foldl_nil, List.getElem?_concat_length]
  cases r <;> rfl

/-- The last ledger among reactors. -/
def ledgerIn (rs : List (Reactor σ)) : Option Ledger :=
  rs.foldl (fun found r => match r with
    | .reliableDelivery l => some l
    | _ => found) none

theorem ledgerIn_concat (rs : List (Reactor σ)) (r : Reactor σ) :
    ledgerIn (rs ++ [r]) = match r with
      | .reliableDelivery l => some l
      | _ => ledgerIn rs := by
  rw [ledgerIn, List.foldl_append]
  rfl

/-- Where the last ledger stands, another one can be put. -/
theorem exists_ledgerPlaceIn {rs : List (Reactor σ)} (h : ledgerIn rs = some m) :
    ∃ i < rs.length, ledgerPlaceIn rs = some i ∧
      ∀ l, ledgerIn (rs.set i (.reliableDelivery l)) = some l := by
  induction rs using List.reverseRecOn with
  | nil => cases h
  | append_singleton rs r ih =>
    -- The last reactor is the ledger, or it is not and the place is one before.
    have hlast : (∃ l₀, r = .reliableDelivery l₀) ∨
        (ledgerPlaceIn (rs ++ [r]) = ledgerPlaceIn rs ∧
          ∀ rs', ledgerIn (rs' ++ [r]) = ledgerIn rs') := by
      simp only [ledgerPlaceIn_concat, ledgerIn_concat]
      cases r with
      | reliableDelivery l₀ => exact .inl ⟨l₀, rfl⟩
      | _ => exact .inr ⟨rfl, fun _ => rfl⟩
    rw [List.length_append, List.length_singleton]
    obtain ⟨l₀, rfl⟩ | ⟨hplace, hledger⟩ := hlast
    · refine ⟨rs.length, Nat.lt_succ_self _, ledgerPlaceIn_concat rs _, fun l => ?_⟩
      rw [List.set_append_right _ _ (Nat.le_refl _), Nat.sub_self]
      exact ledgerIn_concat rs _
    · rw [hledger] at h
      obtain ⟨i, hi, hfound, hset⟩ := ih h
      refine ⟨i, Nat.lt_succ_of_lt hi, hplace.trans hfound, fun l => ?_⟩
      rw [List.set_append_left _ _ hi, hledger]
      exact hset l

/-- A restored ledger takes the place of the channel's ledger, and nothing else changes. -/
theorem apply_restoreLedger (hch : n.channel? c = some ch) (hm : ch.ledger? = some m)
    {saved : ByteArray} {l : Ledger} (h : Ledger.restore saved = .ok (some l)) :
    ∃ rs, (restoreLedger c saved).apply n =
        (.ok true, n.modify c fun _ => { ch with reactors := rs }) ∧ ledgerIn rs = some l := by
  obtain ⟨i, -, hplace, hset⟩ := exists_ledgerPlaceIn hm
  refine ⟨ch.reactors.set i (.reliableDelivery l), ?_, hset l⟩
  rw [restoreLedger, h]
  simp only [Action.apply_modify_bind, Node.ledgerPlace?_eq hch, hplace]
  rw [Node.setReactor, Node.modify_eq_const hch]
  rfl

theorem apply_restoreLedger_of_error {saved : ByteArray} {f : Fault}
    (h : Ledger.restore saved = .error f) :
    (restoreLedger c saved).apply n = (.error f, n) := by
  rw [restoreLedger, h]
  rfl

theorem apply_restoreLedger_of_none {saved : ByteArray} (h : Ledger.restore saved = .ok none) :
    (restoreLedger c saved).apply n = (.ok false, n) := by
  rw [restoreLedger, h]
  rfl

/-- A saved ledger is restored whatever follows it, and what is cut short is refused. Whatever is not
restored leaves the node as it was, and what is restored was saved as the start of the bytes. -/
theorem restoreLedger_atomic (hch : n.channel? c = some ch) (hm : ch.ledger? = some m) :
    (∀ l : Ledger, l.buffer.size < 2 ^ 32 →
      (∀ t : ByteArray, ∃ ch' : Channel σ, (restoreLedger c (l.save ++ t)).apply n =
          (.ok true, n.modify c fun _ => ch') ∧
        ch'.ledger? = some ⟨l.received, l.sent, 0, l.buffer⟩ ∧
        ch' = { ch with reactors := ch'.reactors }) ∧
      ∀ s u : ByteArray, l.save = s ++ u → u ≠ .empty →
        ∃ text, (restoreLedger c s).apply n = (.error (.snapshot text), n)) ∧
    ∀ b : ByteArray,
      let result := (restoreLedger c b).apply n
      (result.1 = .ok false ↔ 16 ≤ b.size ∧ b.extract 0 4 ≠ Ledger.versionBytes) ∧
      (result.1 ≠ .ok true → result.2 = n) ∧
      (result.1 = .ok true → ∃ (ch' : Channel σ) (l : Ledger),
        result.2.channel? c = some ch' ∧ ch'.ledger? = some l ∧ ∃ t, b = l.save ++ t) := by
  constructor
  · intro l hcount
    constructor
    · intro t
      obtain ⟨rs, happly, hledger⟩ := apply_restoreLedger hch hm (Ledger.restore_save hcount t)
      exact ⟨_, happly, hledger, rfl⟩
    · intro s u h hu
      obtain ⟨text, hrestore⟩ := Ledger.restore_of_cut hcount h hu
      exact ⟨text, apply_restoreLedger_of_error hrestore⟩
  · intro b result
    rw [← Ledger.restore_eq_none_iff]
    cases hrestore : Ledger.restore b with
    | error f =>
      have hresult : result = (.error f, n) := apply_restoreLedger_of_error hrestore
      rw [hresult]
      exact ⟨⟨nofun, nofun⟩, fun _ => rfl, nofun⟩
    | ok found =>
    cases found with
    | none =>
      have hresult : result = (.ok false, n) := apply_restoreLedger_of_none hrestore
      rw [hresult]
      exact ⟨⟨fun _ => rfl, fun _ => rfl⟩, fun _ => rfl, nofun⟩
    | some l =>
      obtain ⟨rs, hrestored, hledger⟩ := apply_restoreLedger hch hm hrestore
      have hresult : result = _ := hrestored
      rw [hresult]
      refine ⟨⟨nofun, nofun⟩, fun h => absurd rfl h, fun _ => ?_⟩
      exact ⟨_, l, Node.channel?_modify_of_some hch _, hledger,
        (Ledger.restore_eq_some_iff.1 hrestore).2.2⟩

/-- A node whose one channel keeps a ledger. -/
def keepingNode : Node Unit :=
  { Node.start () with
    channels := [.start (.start .initiator 0 {})
      [.eventLog, .reliableDelivery ⟨1, 2, 3, .ofList [Frame.smallPacket]⟩, .packetObserver]] }

def savedLedger : Ledger := ⟨7, 9, 4, .ofList [Frame.smallPacket, Frame.smallPacket]⟩

/-- A saved ledger is restored; without its last byte it is refused, and as of version 2 it is
passed over. -/
theorem restoreLedger_atomic_cases :
    (∃ ch' : Channel Unit,
      (restoreLedger ⟨0⟩ (savedLedger.save ++ [0].toByteArray)).apply keepingNode =
          (.ok true, keepingNode.modify ⟨0⟩ fun _ => ch') ∧
        ch'.ledger? = some ⟨7, 9, 0, savedLedger.buffer⟩) ∧
    (∃ text, (restoreLedger ⟨0⟩ (savedLedger.save.extract 0 (savedLedger.save.size - 1))).apply
      keepingNode = (.error (.snapshot text), keepingNode)) ∧
    ((restoreLedger ⟨0⟩ (numberBytes 4 2 ++ savedLedger.save.extract 4 16)).apply keepingNode).1 =
      .ok false ∧
    ∃ (ch' : Channel Unit) (l : Ledger),
      ((restoreLedger ⟨0⟩ savedLedger.save).apply keepingNode).2.channel? ⟨0⟩ = some ch' ∧
        ch'.ledger? = some l ∧ ∃ t, savedLedger.save = l.save ++ t := by
  obtain ⟨hsaved, hany⟩ := restoreLedger_atomic (n := keepingNode) (c := ⟨0⟩) rfl rfl
  obtain ⟨hwhole, hcut⟩ := hsaved savedLedger (by decide)
  refine ⟨?_, ?_, ?_, ?_⟩
  · obtain ⟨ch', happly, hledger, -⟩ := hwhole [0].toByteArray
    exact ⟨ch', happly, hledger⟩
  · exact hcut _ (savedLedger.save.extract (savedLedger.save.size - 1) savedLedger.save.size)
      (by decide +kernel) (by decide +kernel)
  · exact (hany _).1.2 (by decide +kernel)
  · refine (hany _).2.2 ?_
    obtain ⟨ch', happly, -, -⟩ := hwhole .empty
    rw [ByteArray.append_empty] at happly
    rw [happly]

end Courier
