import Courier.Routing.Registry
import Mathlib.Data.List.Perm.Basic

/-! # What holds of every entry

A property that every entry of a map has, by its whole address, whatever bucket it is in. It is kept
by each change of the map whose new values have it; so it does not matter which addresses share a
locator. For the registry these are a property of every attached channel and one of every packet
that waits.
-/
set_option autoImplicit false

namespace Courier.Routing

open Courier.Wire

variable {α : Type}

/-! ## Taking entries out of buckets -/

/-- The last element takes the place of the one that is removed; so the others are all there. -/
theorem swapRemove_perm {β : Type} {xs : List β} {i : Nat} (h : i < xs.length) :
    (swapRemove xs i).Perm (xs.eraseIdx i) := by
  obtain ⟨first, last, rfl⟩ : ∃ first last, xs = first ++ [last] := by
    have hne : xs ≠ [] := List.ne_nil_of_length_pos (Nat.zero_lt_of_lt h)
    exact ⟨_, _, (List.dropLast_append_getLast hne).symm⟩
  have hset : (first ++ [last]).set i last = swapRemove (first ++ [last]) i ++ [last] := by
    unfold swapRemove
    rw [List.getLast?_concat]
    by_cases hi : i < first.length
    · simp [hi]
    · have hlast : i - first.length = 0 := by
        rw [List.length_append, List.length_singleton] at h
        omega
      simp [List.set_append, hi, hlast]
  have hperm := List.set_perm_cons_eraseIdx h last
  rw [hset] at hperm
  exact ((List.perm_append_singleton _ _).symm.trans hperm).cons_inv

/-- The first entry of an address is the one that is found. -/
theorem Bucket.findIdx?_of_get? {b : Bucket α} {a : Address} {v : α} (h : b.get? a = some v) :
    ∃ i, ∃ hi : i < b.length, b.findIdx? (·.1 = a) = some i ∧ b[i] = (a, v) := by
  induction b with
  | nil => cases h
  | cons e b ih =>
    obtain ⟨a₀, v₀⟩ := e
    rw [Bucket.get?, List.lookup_cons] at h
    by_cases ha : a₀ = a
    · rw [beq_iff_eq.2 ha.symm] at h
      cases h
      exact ⟨0, Nat.zero_lt_succ _, by simp [List.findIdx?_cons, ha], by rw [← ha]; rfl⟩
    · rw [beq_false_of_ne (Ne.symm ha)] at h
      obtain ⟨i, hi, hfind, hent⟩ := ih h
      exact ⟨i + 1, Nat.succ_lt_succ hi, by simp [List.findIdx?_cons, ha, hfind], hent⟩

/-- Taking the entry of an address out takes out no other. -/
theorem Bucket.erase_perm {b : Bucket α} {a : Address} {v : α} (h : b.get? a = some v) :
    ((a, v) :: b.erase a).Perm b := by
  obtain ⟨i, hi, hfind, hent⟩ := findIdx?_of_get? h
  have herase : b.erase a = swapRemove b i := by rw [Bucket.erase, hfind]
  rw [herase, ← hent]
  exact ((swapRemove_perm hi).cons _).trans (List.getElem_cons_eraseIdx_perm hi)

namespace AddressMap

/-- Every entry has the property. -/
def All (m : AddressMap α) (P : Address → α → Prop) : Prop := ∀ a v, (a, v) ∈ m.entries → P a v

variable {m : AddressMap α} {P : Address → α → Prop}

/-! ## Entries and buckets -/

theorem all_empty (P : Address → α → Prop) : (empty : AddressMap α).All P := by
  intro a v h
  cases h

theorem mem_of_lookup {β γ : Type} [BEq β] [LawfulBEq β] {entries : List (β × γ)} {k : β} {v : γ}
    (h : entries.lookup k = some v) : (k, v) ∈ entries := by
  induction entries with
  | nil => cases h
  | cons e rest ih =>
    obtain ⟨k', v'⟩ := e
    by_cases hk : k == k'
    · rw [List.lookup_cons, hk] at h
      cases h
      rw [eq_of_beq hk]
      exact List.mem_cons_self ..
    · have hk' : (k == k') = false := by simpa using hk
      rw [List.lookup_cons, hk'] at h
      exact List.mem_cons_of_mem _ (ih h)

theorem mem_entries_of_mem_bucket {a : Address} {e : Address × α} (h : e ∈ m.bucket a) :
    e ∈ m.entries := by
  unfold bucket at h
  cases hb : m.buckets.lookup (locator a) with
  | none =>
    rw [hb] at h
    cases h
  | some b =>
    rw [hb] at h
    exact List.mem_flatMap.2 ⟨_, mem_of_lookup hb, h⟩

theorem mem_setBucket {buckets : List (UInt32 × Bucket α)} {key : UInt32} {b : Bucket α}
    {e : Address × α} (h : e ∈ (setBucket buckets key b).flatMap (·.2)) :
    e ∈ b ∨ e ∈ buckets.flatMap (·.2) := by
  induction buckets with
  | nil =>
    unfold setBucket at h
    split at h
    · cases h
    · simp only [List.flatMap_cons, List.flatMap_nil, List.append_nil] at h
      exact .inl h
  | cons first rest ih =>
    unfold setBucket at h
    split at h
    · split at h
      · right
        rw [List.flatMap_cons]
        exact List.mem_append_right _ h
      · rw [List.flatMap_cons] at h ⊢
        obtain h | h := List.mem_append.1 h
        · exact .inl h
        · exact .inr (List.mem_append_right _ h)
    · rw [List.flatMap_cons] at h ⊢
      obtain h | h := List.mem_append.1 h
      · exact .inr (List.mem_append_left _ h)
      · obtain h | h := ih h
        · exact .inl h
        · exact .inr (List.mem_append_right _ h)

/-! ## The operations -/

theorem All.of_get? (h : m.All P) {a : Address} {v : α} (hget : m.get? a = some v) : P a v :=
  h a v (mem_entries_of_mem_bucket (mem_of_lookup hget))

/-- Putting in place a bucket whose entries have the property. -/
theorem All.setBucket (h : m.All P) {key : UInt32} {b : Bucket α} (size : Nat)
    (hb : ∀ a v, (a, v) ∈ b → P a v) :
    (⟨setBucket m.buckets key b, size⟩ : AddressMap α).All P := by
  intro a v he
  obtain he | he := mem_setBucket he
  · exact hb a v he
  · exact h a v he

theorem All.bucket (h : m.All P) (a : Address) : ∀ a' v, (a', v) ∈ m.bucket a → P a' v :=
  fun a' v he => h a' v (mem_entries_of_mem_bucket he)

theorem All.modify (h : m.All P) {a : Address} {f : α → α} (hf : ∀ v, P a v → P a (f v)) :
    (m.modify a f).All P := by
  apply h.setBucket
  intro a' v he
  obtain ⟨⟨a₀, v₀⟩, he₀, heq⟩ := List.mem_map.1 he
  have hold := h.bucket a a₀ v₀ he₀
  by_cases ha : a₀ = a
  · rw [if_pos ha] at heq
    cases heq
    subst ha
    exact hf v₀ hold
  · rw [if_neg ha] at heq
    cases heq
    exact hold

theorem All.getOrInsert (h : m.All P) {a : Address} {fresh : α} (hfresh : P a fresh) :
    (m.getOrInsert a fresh).2.All P := by
  unfold AddressMap.getOrInsert
  cases m.get? a with
  | some v => exact h
  | none =>
    apply h.setBucket
    intro a' v he
    obtain he | he := List.mem_append.1 he
    · exact h.bucket a a' v he
    · cases List.mem_singleton.1 he
      exact hfresh

theorem All.upsert (h : m.All P) {a : Address} {fresh : α} {f : α → α} (hfresh : P a fresh)
    (hf : ∀ v, P a v → P a (f v)) : (m.upsert a fresh f).All P :=
  (h.getOrInsert hfresh).modify hf

theorem All.remove (h : m.All P) (a : Address) : (m.remove a).2.All P := by
  unfold AddressMap.remove
  cases hget : m.get? a with
  | none => exact h
  | some v =>
    apply h.setBucket
    intro a' v' he
    exact h.bucket a a' v' ((Bucket.erase_perm hget).mem_iff.1 (List.mem_cons_of_mem _ he))

theorem All.retain (h : m.All P) {keep : Address → α → Option α}
    (hkeep : ∀ a v v', P a v → keep a v = some v' → P a v') : (m.retain keep).All P := by
  intro a v he
  obtain ⟨e, he, hv⟩ := List.mem_flatMap.1 he
  obtain ⟨⟨key, b⟩, hb, rfl⟩ := List.mem_map.1 (List.mem_filter.1 he).1
  obtain ⟨⟨a₀, v₀⟩, hv₀, heq⟩ := List.mem_filterMap.1 hv
  have hold := h a₀ v₀ (List.mem_flatMap.2 ⟨_, hb, hv₀⟩)
  cases hk : keep a₀ v₀ with
  | none =>
    simp only [hk] at heq
    cases heq
  | some v' =>
    simp only [hk] at heq
    cases heq
    exact hkeep _ _ _ hold hk

end AddressMap

/-! ## The registry -/

namespace Registry

/-- Every channel attached to an address has the property with it. -/
def Attached (r : Registry) (P : Address → ChannelId → Prop) : Prop :=
  r.attachments.All fun a cs => ∀ c ∈ cs, P a c

/-- Every packet that waits for an address has the property with it. -/
def Waiting (r : Registry) (P : Address → Packet → Prop) : Prop :=
  r.mailboxes.All fun a box => ∀ p ∈ box.toList, P a p

variable {r : Registry} {P : Address → ChannelId → Prop} {Q : Address → Packet → Prop}

theorem Attached.channels (h : r.Attached P) {a : Address} {c : ChannelId}
    (hc : c ∈ r.channels a) : P a c := by
  unfold Registry.channels at hc
  cases hget : r.attachments.get? a with
  | none =>
    rw [hget] at hc
    cases hc
  | some cs =>
    rw [hget] at hc
    exact h.of_get? hget c hc

theorem Attached.imp {P' : Address → ChannelId → Prop} (h : r.Attached P)
    (himp : ∀ a c, P a c → P' a c) : r.Attached P' :=
  fun a cs he c hc => himp a c (h a cs he c hc)

theorem Attached.attach (h : r.Attached P) {a : Address} {c : ChannelId} (hc : P a c) :
    (r.attach a c).Attached P := by
  apply AddressMap.All.upsert h
  · intro c' hc'
    cases hc'
  · intro cs hcs
    split
    · exact hcs
    · intro c' hc'
      obtain hc' | hc' := List.mem_append.1 hc'
      · exact hcs c' hc'
      · rw [List.mem_singleton.1 hc']
        exact hc

theorem Attached.detach (h : r.Attached P) (a : Address) (c : ChannelId) :
    (r.detach a c).Attached P := by
  unfold Registry.detach
  cases r.attachments.get? a with
  | none => exact h
  | some cs =>
    simp only []
    split
    · exact AddressMap.All.remove h a
    · apply AddressMap.All.modify h
      intro cs hcs c' hc'
      exact hcs c' (List.mem_filter.1 hc').1

theorem Attached.release (h : r.Attached P) (c : ChannelId) : (r.release c).Attached P := by
  apply AddressMap.All.retain h
  intro a cs cs' hcs hkeep c' hc'
  simp only [] at hkeep
  split at hkeep
  · cases hkeep
  · cases hkeep
    exact hcs c' (List.mem_filter.1 hc').1

theorem Waiting.waiting (h : r.Waiting Q) {a : Address} {p : Packet} (hp : p ∈ r.waiting a) :
    Q a p := by
  unfold Registry.waiting at hp
  cases hget : r.mailboxes.get? a with
  | none =>
    rw [hget] at hp
    cases hp
  | some box =>
    rw [hget] at hp
    exact h.of_get? hget p hp

theorem Waiting.enqueue (h : r.Waiting Q) {p : Packet} (hp : Q p.recipient p) :
    (r.enqueue p).Waiting Q := by
  apply AddressMap.All.upsert h
  · intro q hq
    cases hq
  · intro box hbox q hq
    rw [Backlog.toList_push] at hq
    obtain hq | hq := List.mem_append.1 hq
    · exact hbox q hq
    · rw [List.mem_singleton.1 hq]
      exact hp

theorem Waiting.setWaiting (h : r.Waiting Q) {a : Address} {ps : List Packet}
    (hps : ∀ p ∈ ps, Q a p) : (r.setWaiting a ps).Waiting Q := by
  unfold Registry.setWaiting
  split
  · exact AddressMap.All.remove h a
  · apply AddressMap.All.upsert h
    · intro p hp
      cases hp
    · intro box _ p hp
      rw [Backlog.toList_ofList] at hp
      exact hps p hp

theorem attachments_setWaiting (r : Registry) (a : Address) (ps : List Packet) :
    (r.setWaiting a ps).attachments = r.attachments := by
  unfold Registry.setWaiting
  split <;> rfl

theorem mailboxes_detach (r : Registry) (a : Address) (c : ChannelId) :
    (r.detach a c).mailboxes = r.mailboxes := by
  unfold Registry.detach
  split
  · rfl
  · split <;> rfl

end Registry
end Courier.Routing
