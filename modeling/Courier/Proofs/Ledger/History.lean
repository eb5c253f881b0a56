import Courier.Proofs.Node.Answers
import Mathlib.Data.List.DropRight
import Mathlib.Data.List.Induction

/-! # A ledger and its history

Packets are recorded, the peer asks and tells how many arrived, the buffer is flushed and a new
session resets the ledger, in any order. What a ledger shows is what one reads off the operations
since the last reset (`Ledger.recalls_after`): the packets behind the last acknowledgment that
matched are unacknowledged, those before it are acknowledged, and every retransmission is on the
wire once more.
-/
set_option autoImplicit false

namespace Courier

open Courier.Wire Courier.Wire.Frame

/-! ## Operations -/

inductive LedgerOp where
  | send (p : Packet)
  | receive
  /-- The peer asks how many packets have arrived. -/
  | asked
  /-- The peer tells how many packets have arrived. -/
  | told (count : UInt32)
  | flush
  | reset

def LedgerOp.perform (l : Ledger) : LedgerOp → Ledger × List LedgerDemand
  | send p => (l.recordSent p, [])
  | receive => (l.recordReceived, [])
  | asked => (l, l.answerRequest)
  | told count => l.acknowledge count
  | flush => l.flush
  | reset => (.empty, [])

def LedgerDemand.resent : LedgerDemand → List Packet
  | retransmit ps => ps
  | _ => []

/-- An operation and the ledger that it found. -/
structure LedgerEntry where
  before : Ledger
  op : LedgerOp

namespace LedgerEntry

def demands (e : LedgerEntry) : List LedgerDemand := (e.op.perform e.before).2

def resets : LedgerEntry → Bool
  | ⟨_, .reset⟩ => true
  | _ => false

/-- Whether it is an acknowledgment that matches. -/
def clears : LedgerEntry → Bool
  | ⟨l, .told count⟩ => count = l.transmitted
  | _ => false

def recorded : LedgerEntry → List Packet
  | ⟨_, .send p⟩ => [p]
  | _ => []

/-- The packets that an acknowledgment cleared. -/
def cleared (e : LedgerEntry) : List Packet := if e.clears then e.before.unacknowledged else []

def resent (e : LedgerEntry) : List Packet := e.demands.flatMap LedgerDemand.resent

end LedgerEntry

open LedgerEntry

/-- The ledger after operations. -/
def Ledger.after (l : Ledger) (ops : List LedgerOp) : Ledger :=
  ops.foldl (fun l op => (op.perform l).1) l

def Ledger.history : Ledger → List LedgerOp → List LedgerEntry
  | _, [] => []
  | l, op :: rest => ⟨l, op⟩ :: history (op.perform l).1 rest

/-- The entries since the last reset. -/
def sinceReset (es : List LedgerEntry) : List LedgerEntry := es.rtakeWhile (!·.resets)

/-- The entries since the last acknowledgment that matched. -/
def sinceCleared (es : List LedgerEntry) : List LedgerEntry := es.rtakeWhile (!·.clears)

namespace Ledger

theorem after_concat (l : Ledger) (ops : List LedgerOp) (op : LedgerOp) :
    l.after (ops ++ [op]) = (op.perform (l.after ops)).1 := by
  simp [after]

theorem history_append (l : Ledger) (ops more : List LedgerOp) :
    l.history (ops ++ more) = l.history ops ++ (l.after ops).history more := by
  induction ops generalizing l with
  | nil => rfl
  | cons op ops ih => simp [history, ih, after]

theorem history_concat (l : Ledger) (ops : List LedgerOp) (op : LedgerOp) :
    l.history (ops ++ [op]) = l.history ops ++ [⟨l.after ops, op⟩] := history_append l ops [op]

/-- An entry's ledger is the one after the operations before it. -/
theorem exists_of_history {l : Ledger} {ops : List LedgerOp} {earlier later : List LedgerEntry}
    {e : LedgerEntry} (h : l.history ops = earlier ++ e :: later) :
    ∃ ops', l.history ops' = earlier ∧ e.before = l.after ops' := by
  induction earlier generalizing l ops with
  | nil =>
    cases ops with
    | nil => cases h
    | cons op ops =>
      cases h
      exact ⟨[], rfl, rfl⟩
  | cons e₀ earlier ih =>
    cases ops with
    | nil => cases h
    | cons op ops =>
      injection h with hfirst hrest
      obtain ⟨ops', hops', hbefore⟩ := ih hrest
      refine ⟨op :: ops', ?_, hbefore⟩
      rw [history, hops', hfirst]

/-! ## What a ledger recalls of its session -/

/-- The ledger shows what was done in a session. -/
structure Recalls (l : Ledger) (session : List LedgerEntry) : Prop where
  pending : l.unacknowledged = (sinceCleared session).flatMap recorded
  sent : l.sent = .ofNat (session.flatMap recorded).length
  retransmitted : l.retransmitted = .ofNat (session.flatMap resent).length
  settled : (session.flatMap recorded).length =
    (session.flatMap cleared).length + l.unacknowledged.length

theorem sent_flush (l : Ledger) : l.flush.1.sent = l.sent := by
  unfold flush
  split <;> rfl

theorem retransmitted_flush (l : Ledger) : l.flush.1.retransmitted =
    l.retransmitted + .ofNat (l.flush.2.flatMap LedgerDemand.resent).length := by
  unfold flush
  split
  · simp
  · simp [unacknowledged, LedgerDemand.resent]

/-- What one operation does, by its entry; a reset begins anew. -/
theorem perform_spec (l : Ledger) {op : LedgerOp} (hop : op ≠ .reset) :
    (op.perform l).1.unacknowledged =
        (if clears ⟨l, op⟩ then [] else l.unacknowledged ++ recorded ⟨l, op⟩) ∧
      (op.perform l).1.sent = l.sent + .ofNat (recorded ⟨l, op⟩).length ∧
      (op.perform l).1.retransmitted = l.retransmitted + .ofNat (resent ⟨l, op⟩).length := by
  have hflush : ∀ op : LedgerOp, op.perform l = l.flush → clears ⟨l, op⟩ = false →
      recorded ⟨l, op⟩ = [] → (op.perform l).1.unacknowledged =
        (if clears ⟨l, op⟩ then [] else l.unacknowledged ++ recorded ⟨l, op⟩) ∧
      (op.perform l).1.sent = l.sent + .ofNat (recorded ⟨l, op⟩).length ∧
      (op.perform l).1.retransmitted = l.retransmitted + .ofNat (resent ⟨l, op⟩).length := by
    intro op hop hclears hrecorded
    simp [resent, demands, hop, hclears, hrecorded, unacknowledged_flush, sent_flush,
      retransmitted_flush]
  cases op with
  | send p => exact ⟨Backlog.toList_push l.buffer p, rfl, (UInt32.add_zero _).symm⟩
  | receive | asked =>
    exact ⟨(List.append_nil _).symm, (UInt32.add_zero _).symm, (UInt32.add_zero _).symm⟩
  | told count =>
    by_cases hcount : count = l.transmitted
    · simp [LedgerOp.perform, acknowledge, hcount, clears, recorded, resent, demands,
        unacknowledged]
    · exact hflush (.told count) (if_neg hcount) (decide_eq_false hcount) rfl
  | flush => exact hflush .flush rfl rfl rfl
  | reset => exact absurd rfl hop

theorem recorded_of_clears {e : LedgerEntry} (h : e.clears = true) : e.recorded = [] := by
  obtain ⟨l, op⟩ := e
  cases op with
  | told count => rfl
  | _ => cases h

namespace Recalls

variable {l : Ledger} {session : List LedgerEntry}

theorem empty : Ledger.empty.Recalls [] := ⟨rfl, rfl, rfl, rfl⟩

/-- Every operation but a reset goes on with the session. -/
theorem perform (h : l.Recalls session) {op : LedgerOp} (hop : op ≠ .reset) :
    (op.perform l).1.Recalls (session ++ [⟨l, op⟩]) := by
  obtain ⟨hpending, hsent, hretransmitted⟩ := l.perform_spec hop
  have hsettled := h.settled
  refine ⟨?_, ?_, ?_, ?_⟩
  · rw [hpending, sinceCleared, List.rtakeWhile_concat, h.pending, sinceCleared]
    cases clears ⟨l, op⟩ <;> simp
  · simp only [hsent, h.sent, List.flatMap_append, List.flatMap_singleton, List.length_append,
      UInt32.ofNat_add]
  · simp only [hretransmitted, h.retransmitted, List.flatMap_append, List.flatMap_singleton,
      List.length_append, UInt32.ofNat_add]
  · rw [hpending, List.flatMap_append, List.flatMap_append, List.flatMap_singleton,
      List.flatMap_singleton, List.length_append, List.length_append, cleared]
    cases hclears : clears ⟨l, op⟩ with
    | true =>
      simp only [recorded_of_clears hclears, if_true, List.length_nil]
      omega
    | false =>
      simp only [Bool.false_eq_true, if_false, List.length_append, List.length_nil]
      omega

/-- As long as fewer packets than a count can tell were recorded, those that are not buffered were
cleared. -/
theorem toNat_acknowledged (h : l.Recalls session)
    (hcount : (session.flatMap recorded).length < 2 ^ 32) :
    l.acknowledged.toNat = (session.flatMap cleared).length := by
  have hsize : l.unacknowledged.length = l.buffer.size := Backlog.length_toList l.buffer
  have hsettled := h.settled
  rw [acknowledged, h.sent, ← hsize, hsettled, UInt32.ofNat_add, UInt32.add_sub_cancel,
    UInt32.toNat_ofNat']
  omega

theorem toNat_transmitted (h : l.Recalls session) :
    l.transmitted.toNat = (l.sent.toNat + (session.flatMap resent).length) % 2 ^ 32 := by
  rw [transmitted, UInt32.toNat_add, h.retransmitted, UInt32.toNat_ofNat']
  omega

end Recalls

/-- What a ledger shows is what was done since the last reset. -/
theorem recalls_after (ops : List LedgerOp) :
    (empty.after ops).Recalls (sinceReset (empty.history ops)) := by
  induction ops using List.reverseRecOn with
  | nil => exact .empty
  | append_singleton ops op ih =>
    rw [after_concat, history_concat, sinceReset]
    cases hresets : (⟨empty.after ops, op⟩ : LedgerEntry).resets with
    | true =>
      have hop : op = .reset := by
        cases op with
        | reset => rfl
        | _ => cases hresets
      rw [List.rtakeWhile_concat_neg _ _ _ (by simp [hresets]), hop]
      exact .empty
    | false =>
      have hop : op ≠ .reset := by
        rintro rfl
        cases hresets
      rw [List.rtakeWhile_concat_pos _ _ _ (by simp [hresets])]
      exact ih.perform hop

/-! ## What is sent again -/

theorem demands_of_mismatch {e : LedgerEntry} {count : UInt32} (hop : e.op = .told count)
    (hcount : count ≠ e.before.transmitted) (hsome : e.before.unacknowledged ≠ []) :
    e.demands = [.retransmit e.before.unacknowledged, .requestAcknowledgment] := by
  rw [demands, hop, LedgerOp.perform, acknowledge, if_neg hcount,
    flush_demands (isEmpty_buffer_of_ne hsome)]

theorem demands_of_empty {e : LedgerEntry} (hop : e.op = .flush ∨ ∃ count, e.op = .told count)
    (hnone : e.before.unacknowledged = []) : e.demands = [] := by
  have hflush : e.before.flush = (e.before, []) :=
    if_pos (by rw [isEmpty_buffer, hnone]; rfl)
  obtain hop | ⟨count, hop⟩ := hop
  · simp [demands, hop, LedgerOp.perform, hflush]
  · simp only [demands, hop, LedgerOp.perform, acknowledge, hflush]
    split <;> rfl

theorem eq_of_retransmit {e : LedgerEntry} {ps : List Packet} (h : .retransmit ps ∈ e.demands) :
    ps = e.before.unacknowledged := by
  obtain ⟨l, op⟩ := e
  have hflush : .retransmit ps ∈ l.flush.2 → ps = l.unacknowledged := by
    rw [flush]
    split
    · simp
    · simp
  cases op with
  | told count =>
    simp only [demands, LedgerOp.perform, acknowledge] at h
    split at h
    · cases h
    · exact hflush h
  | flush => exact hflush h
  | _ => simp [demands, LedgerOp.perform, answerRequest] at h

/-- All that is recalled as pending was recorded behind every acknowledgment that matched. -/
theorem sinceCleared_suffix {earlier later : List LedgerEntry} {e : LedgerEntry}
    (he : e.clears = true) : sinceCleared (sinceReset (earlier ++ e :: later)) <:+ later := by
  generalize hes : sinceCleared (sinceReset (earlier ++ e :: later)) = es
  have hsuffix : es <:+ earlier ++ e :: later := by
    rw [← hes]
    exact (List.rtakeWhile_suffix _ _).trans (List.rtakeWhile_suffix _ _)
  have hnot : e ∉ es := by
    intro hmem
    rw [← hes] at hmem
    have hkept := List.mem_rtakeWhile_imp hmem
    simp [he] at hkept
  -- Of two ends of one list, the one without `e` is the end of the one that `e` opens.
  obtain h | h := List.suffix_or_suffix_of_suffix hsuffix (List.suffix_append earlier (e :: later))
  · obtain h | h := List.suffix_cons_iff.1 h
    · exact absurd (h ▸ List.mem_cons_self ..) hnot
    · exact h
  · exact absurd (h.subset (List.mem_cons_self ..)) hnot

/-- Behind an acknowledgment that matched, only what was recorded since is sent again. -/
theorem resent_suffix {ops : List LedgerOp} {earlier mid rest : List LedgerEntry}
    {e e' : LedgerEntry} (h : empty.history ops = earlier ++ e :: (mid ++ e' :: rest))
    (he : e.clears = true) {ps : List Packet} (hps : .retransmit ps ∈ e'.demands) :
    ps <:+ mid.flatMap recorded := by
  have hsplit : empty.history ops = (earlier ++ e :: mid) ++ e' :: rest := by simp [h]
  obtain ⟨ops', hops', hbefore⟩ := exists_of_history hsplit
  have hpending := (recalls_after ops').pending
  rw [hops', ← hbefore, ← eq_of_retransmit hps] at hpending
  obtain ⟨first, hfirst⟩ : sinceCleared (sinceReset (earlier ++ e :: mid)) <:+ mid :=
    sinceCleared_suffix he
  rw [hpending]
  exact ⟨first.flatMap recorded, by rw [← List.flatMap_append, hfirst]⟩

/-- A ledger shows what was done with it. Since the last reset, the packets recorded behind the last
acknowledgment that matched are unacknowledged, in order; all that were recorded are counted as
sent, those that were cleared as acknowledged, and those sent again, too, as transmitted. At every
point, an acknowledgment that does not match a buffer that holds anything has the whole buffer sent
again and asks once, and an empty buffer asks for nothing; what is sent again was recorded behind
every acknowledgment that matched. -/
theorem shows_history (ops : List LedgerOp) :
    let l := empty.after ops
    let session := sinceReset (empty.history ops)
    l.unacknowledged = (sinceCleared session).flatMap recorded ∧
    l.transmitted.toNat = (l.sent.toNat + (session.flatMap resent).length) % 2 ^ 32 ∧
    ((session.flatMap recorded).length < 2 ^ 32 →
      l.sent.toNat = (session.flatMap recorded).length ∧
      l.acknowledged.toNat = (session.flatMap cleared).length) ∧
    ∀ (earlier : List LedgerEntry) (e : LedgerEntry) (later : List LedgerEntry),
      empty.history ops = earlier ++ e :: later →
      (∀ count, e.op = .told count → count ≠ e.before.transmitted →
        e.before.unacknowledged ≠ [] →
          e.demands = [.retransmit e.before.unacknowledged, .requestAcknowledgment]) ∧
      ((e.op = .flush ∨ ∃ count, e.op = .told count) → e.before.unacknowledged = [] →
        e.demands = []) ∧
      (e.clears = true →
        ∀ (mid : List LedgerEntry) (e' : LedgerEntry) (rest : List LedgerEntry),
        later = mid ++ e' :: rest → ∀ ps, .retransmit ps ∈ e'.demands →
          ps <:+ mid.flatMap recorded) := by
  intro l session
  have hrecalls : l.Recalls session := recalls_after ops
  refine ⟨hrecalls.pending, hrecalls.toNat_transmitted, ?_, ?_⟩
  · intro hcount
    refine ⟨?_, hrecalls.toNat_acknowledged hcount⟩
    rw [hrecalls.sent, UInt32.toNat_ofNat', Nat.mod_eq_of_lt hcount]
  · intro earlier e later h
    refine ⟨fun count => demands_of_mismatch, demands_of_empty, ?_⟩
    rintro he mid e' rest rfl ps hps
    exact resent_suffix h he hps

/-- Of the second session, two packets are sent again and then cleared, and one is recorded again
and sent again twice. -/
def resentOps : List LedgerOp :=
  let p := smallPacket
  let q := { p with recipient := p.sender }
  [.send q, .reset, .send p, .send q, .told 1, .told 4, .asked, .send p, .flush, .receive, .told 9]

theorem shows_history_resent :
    let l := empty.after resentOps
    l.unacknowledged = [smallPacket] ∧ l.transmitted.toNat = (3 + 4) % 2 ^ 32 ∧
      l.sent.toNat = 3 ∧ l.acknowledged.toNat = 2 ∧
      ∃ (earlier : List LedgerEntry) (e : LedgerEntry) (mid : List LedgerEntry)
        (e' : LedgerEntry) (rest : List LedgerEntry),
        empty.history resentOps = earlier ++ e :: (mid ++ e' :: rest) ∧ e.clears = true ∧
        .retransmit [smallPacket] ∈ e'.demands ∧ [smallPacket] <:+ mid.flatMap recorded := by
  obtain ⟨hpending, htransmitted, hcounts, hentries⟩ := shows_history resentOps
  obtain ⟨hsent, hacknowledged⟩ := hcounts (by decide +kernel)
  refine ⟨hpending.trans (by decide +kernel), ?_, hsent.trans (by decide +kernel),
    hacknowledged.trans (by decide +kernel), ?_⟩
  · rw [htransmitted, hsent]
    decide +kernel
  · have hsplit : empty.history resentOps = empty.history (resentOps.take 5) ++
        ⟨empty.after (resentOps.take 5), .told 4⟩ ::
          ((empty.after (resentOps.take 6)).history [.asked, .send smallPacket] ++
            ⟨empty.after (resentOps.take 8), .flush⟩ ::
              (empty.after (resentOps.take 9)).history (resentOps.drop 9)) := rfl
    have hagain : LedgerDemand.retransmit [smallPacket] ∈
        (⟨empty.after (resentOps.take 8), .flush⟩ : LedgerEntry).demands := by decide +kernel
    exact ⟨_, _, _, _, _, hsplit, by decide +kernel, hagain,
      (hentries _ _ _ hsplit).2.2 (by decide +kernel) _ _ _ rfl _ hagain⟩

end Ledger
end Courier
