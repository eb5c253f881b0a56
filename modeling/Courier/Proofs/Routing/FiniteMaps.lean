import Courier.Proofs.Routing.Maps
import Mathlib.Data.Finmap

/-! # Maps from addresses and finite maps

A finite map from addresses has no locators, no buckets and no count of its own. It is given the same
operations as a map from addresses, one for one, and gives the same answers to all of them
(`address_map_refines_finite_map`). Beside what each address has, the two are tied by the length: it
is kept apart from the buckets, and no operation takes more off it than there is.
-/
set_option autoImplicit false

namespace Courier.Routing

open Courier.Wire

variable {α : Type}

/-! ## Operations -/

/-- What is done to a map. A reference that is handed out may be used to change the value. -/
inductive MapOp (α : Type) where
  | get (a : Address)
  | change (a : Address) (f : α → α)
  /-- Looks an address up, after giving it `fresh` if it has no value, and changes what it has. -/
  | insert (a : Address) (fresh : α) (f : α → α)
  | remove (a : Address)
  /-- Keeps the entries that the predicate says yes to, with what it makes of their values. It is
  asked about each entry once, so also one with a memory is a function of the entry. -/
  | retain (keep : Address → α → Bool × α)

def survivor (keep : Address → α → Bool × α) (a : Address) (v : α) : Option α :=
  if (keep a v).1 then some (keep a v).2 else none

namespace MapOp

def perform (m : AddressMap α) : MapOp α → Option α × AddressMap α
  | get a => (m.get? a, m)
  | change a f => (m.get? a, m.modify a f)
  | insert a fresh f => (some (m.getOrInsert a fresh).1, m.upsert a fresh f)
  | remove a => m.remove a
  | retain keep => (none, m.retain (survivor keep))

/-- What an operation adds to the length. -/
def putsOn (m : AddressMap α) : MapOp α → Nat
  | insert a _ _ => if (m.get? a).isSome then 0 else 1
  | _ => 0

/-- What an operation subtracts from the length. -/
def takesOff (m : AddressMap α) : MapOp α → Nat
  | remove a => if (m.get? a).isSome then 1 else 0
  | retain keep => AddressMap.count m.buckets -
      AddressMap.count (m.buckets.map fun e => (e.1, AddressMap.keepEntries (survivor keep) e.2))
  | _ => 0

end MapOp

/-! ## Finite maps -/

/-- A finite map from addresses. Two addresses are one key exactly when their bytes are equal. -/
abbrev FiniteMap (α : Type) := Finmap fun _ : Address => α

namespace FiniteMap

def keepWith (p : FiniteMap α) (keep : Address → α → Option α) : FiniteMap α :=
  Finmap.keysLookupEquiv.symm
    ⟨(p.keys.filter fun a => ((p.lookup a).bind (keep a)).isSome,
      fun a => (p.lookup a).bind (keep a)), by
        intro a
        rw [Finset.mem_filter, Finmap.mem_keys, ← Finmap.lookup_isSome]
        constructor
        · intro hkept
          exact ⟨Option.isSome_of_isSome_bind hkept, hkept⟩
        · exact And.right⟩

theorem lookup_keepWith (p : FiniteMap α) (keep : Address → α → Option α) (a : Address) :
    (p.keepWith keep).lookup a = (p.lookup a).bind (keep a) :=
  Finmap.keysLookupEquiv_symm_apply_lookup _ a

end FiniteMap

/-- The answer to the same operation on a finite map, and the finite map after it. -/
def MapOp.enter (p : FiniteMap α) : MapOp α → Option α × FiniteMap α
  | get a => (p.lookup a, p)
  | change a f => (p.lookup a, (p.lookup a).elim p fun v => p.insert a (f v))
  | insert a fresh f =>
    let v := (p.lookup a).getD fresh
    (some v, p.insert a (f v))
  | remove a => (p.lookup a, p.erase a)
  | retain keep => (none, p.keepWith (survivor keep))

/-! ## Runs -/

def AddressMap.after (m : AddressMap α) (ops : List (MapOp α)) : AddressMap α :=
  ops.foldl (fun m op => (op.perform m).2) m

def FiniteMap.after (p : FiniteMap α) (ops : List (MapOp α)) : FiniteMap α :=
  ops.foldl (fun p op => (op.enter p).2) p

/-! ## The length -/

namespace AddressMap

variable {m : AddressMap α}

/-- The length that is kept is the number of entries. -/
def Counted (m : AddressMap α) : Prop := m.size = count m.buckets

theorem count_cons (e : UInt32 × Bucket α) (buckets : List (UInt32 × Bucket α)) :
    count (e :: buckets) = e.2.length + count buckets := by
  rw [count, List.flatMap_cons, List.length_append, ← count]

/-- A bucket that is put in place of another changes the number of entries by the difference. -/
theorem count_setBucket (buckets : List (UInt32 × Bucket α)) (key : UInt32) (b : Bucket α) :
    count (setBucket buckets key b) + ((buckets.lookup key).getD []).length =
      count buckets + b.length := by
  induction buckets with
  | nil =>
    unfold setBucket
    split
    · rename_i hb
      rw [List.isEmpty_iff.1 hb]
      rfl
    · rw [count_cons]
      exact Nat.add_comm ..
  | cons first rest ih =>
    rw [setBucket, lookup_cons_eq, count_cons]
    by_cases hkey : first.1 = key
    · rw [if_pos hkey, if_pos hkey.symm, Option.getD_some]
      split
      · rename_i hb
        rw [List.isEmpty_iff.1 hb, List.length_nil]
        omega
      · rw [count_cons]
        show b.length + count rest + _ = _
        omega
    · rw [if_neg hkey, if_neg (Ne.symm hkey), count_cons]
      omega

theorem count_setBucket_bucket (a : Address) (b : Bucket α) :
    count (setBucket m.buckets (locator a) b) + (m.bucket a).length =
      count m.buckets + b.length := count_setBucket m.buckets (locator a) b

theorem length_bucket_le (a : Address) : (m.bucket a).length ≤ count m.buckets := by
  have h := count_setBucket_bucket (m := m) a []
  rw [List.length_nil] at h
  omega

theorem count_keepEntries_le (keep : Address → α → Option α)
    (buckets : List (UInt32 × Bucket α)) :
    count (buckets.map fun e => (e.1, keepEntries keep e.2)) ≤ count buckets := by
  induction buckets with
  | nil => exact le_rfl
  | cons e rest ih =>
    rw [List.map_cons, count_cons, count_cons]
    exact Nat.add_le_add (List.length_filterMap_le ..) ih

/-- Buckets that are left out because they are empty do not count. -/
theorem count_filter_full (buckets : List (UInt32 × Bucket α)) :
    count (buckets.filter (!·.2.isEmpty)) = count buckets := by
  induction buckets with
  | nil => rfl
  | cons e rest ih =>
    rw [List.filter_cons, count_cons]
    by_cases he : e.2.isEmpty = true
    · rw [if_neg (by simp [he]), ih, List.isEmpty_iff.1 he, List.length_nil, Nat.zero_add]
    · rw [if_pos (by simp [he]), count_cons, ih]

theorem size_perform (op : MapOp α) :
    (op.perform m).2.size = m.size + op.putsOn m - op.takesOff m := by
  cases op with
  | get a => rfl
  | change a f => rfl
  | insert a fresh f =>
    show (m.getOrInsert a fresh).2.size = m.size + if (m.get? a).isSome then 0 else 1
    unfold getOrInsert
    cases m.get? a <;> rfl
  | remove a =>
    show (m.remove a).2.size = m.size - if (m.get? a).isSome then 1 else 0
    unfold remove
    cases m.get? a <;> rfl
  | retain keep => rfl

namespace Counted

variable (h : m.Counted)

include h

theorem modify (a : Address) (f : α → α) : (m.modify a f).Counted := by
  have hset := count_setBucket_bucket (m := m) a ((m.bucket a).modify a f)
  have hlen : ((m.bucket a).modify a f).length = (m.bucket a).length := List.length_map ..
  show m.size = count (setBucket m.buckets (locator a) ((m.bucket a).modify a f))
  rw [h]
  omega

theorem getOrInsert (a : Address) (fresh : α) : (m.getOrInsert a fresh).2.Counted := by
  unfold AddressMap.getOrInsert
  cases m.get? a with
  | some v => exact h
  | none =>
    have hset := count_setBucket_bucket (m := m) a (m.bucket a ++ [(a, fresh)])
    rw [List.length_append, List.length_singleton] at hset
    show m.size + 1 = count (setBucket m.buckets (locator a) (m.bucket a ++ [(a, fresh)]))
    rw [h]
    omega

theorem upsert (a : Address) (fresh : α) (f : α → α) : (m.upsert a fresh f).Counted :=
  (h.getOrInsert a fresh).modify a f

theorem remove (a : Address) : (m.remove a).2.Counted := by
  unfold AddressMap.remove
  cases hget : m.get? a with
  | none => exact h
  | some v =>
    have hset := count_setBucket_bucket (m := m) a ((m.bucket a).erase a)
    have hlen : ((m.bucket a).erase a).length + 1 = (m.bucket a).length :=
      (Bucket.erase_perm hget).length_eq
    show m.size - 1 = count (setBucket m.buckets (locator a) ((m.bucket a).erase a))
    rw [h]
    omega

theorem retain (keep : Address → α → Option α) : (m.retain keep).Counted := by
  have hle := count_keepEntries_le keep m.buckets
  show m.size - (count m.buckets - _) = count (List.filter _ _)
  rw [count_filter_full, h]
  omega

/-- No operation takes more off the length than there is. -/
theorem takesOff_le (op : MapOp α) : op.takesOff m ≤ m.size := by
  cases op with
  | get a => exact Nat.zero_le _
  | change a f => exact Nat.zero_le _
  | insert a fresh f => exact Nat.zero_le _
  | remove a =>
    show (if (m.get? a).isSome then 1 else 0) ≤ m.size
    cases hget : m.get? a with
    | none => exact Nat.zero_le _
    | some v =>
      have hlen : ((m.bucket a).erase a).length + 1 = (m.bucket a).length :=
        (Bucket.erase_perm hget).length_eq
      have hle := length_bucket_le (m := m) a
      rw [← h] at hle
      rw [Option.isSome_some, if_pos rfl]
      omega
  | retain keep =>
    show _ - _ ≤ m.size
    rw [h]
    exact Nat.sub_le ..

end Counted
end AddressMap

/-! ## One operation on both -/

/-- A properly kept map with its length, and the finite map that has the same values. -/
structure Refines (m : AddressMap α) (p : FiniteMap α) : Prop where
  proper : m.Proper
  counted : m.Counted
  values : ∀ a, m.get? a = p.lookup a

namespace Refines

variable {m : AddressMap α} {p : FiniteMap α}

theorem empty : Refines (AddressMap.empty : AddressMap α) ∅ :=
  ⟨AddressMap.proper_empty, rfl, fun _ => rfl⟩

theorem lookup_insert_eq (p : FiniteMap α) (a a' : Address) (v : α) :
    (p.insert a v).lookup a' = if a' = a then some v else p.lookup a' := by
  by_cases ha : a' = a
  · rw [if_pos ha, ha, Finmap.lookup_insert]
  · rw [if_neg ha, Finmap.lookup_insert_of_ne _ ha]

theorem change (h : Refines m p) (a : Address) (f : α → α) :
    Refines (m.modify a f) ((p.lookup a).elim p fun v => p.insert a (f v)) := by
  refine ⟨h.proper.modify a f, h.counted.modify a f, ?_⟩
  intro a'
  rw [h.proper.get?_modify, h.values]
  cases hget : p.lookup a with
  | none =>
    by_cases ha : a' = a
    · rw [if_pos ha, ha, hget]
      exact hget.symm
    · rw [if_neg ha]
      rfl
  | some v =>
    rw [Option.elim_some, lookup_insert_eq]
    by_cases ha : a' = a
    · rw [if_pos ha, if_pos ha, ha, hget]
      rfl
    · rw [if_neg ha, if_neg ha]

theorem insert (h : Refines m p) (a : Address) (fresh : α) (f : α → α) :
    Refines (m.upsert a fresh f) (p.insert a (f ((p.lookup a).getD fresh))) := by
  refine ⟨h.proper.upsert a fresh f, h.counted.upsert a fresh f, ?_⟩
  intro a'
  rw [h.proper.get?_upsert, lookup_insert_eq, h.values, h.values]

theorem remove (h : Refines m p) (a : Address) : Refines (m.remove a).2 (p.erase a) := by
  refine ⟨h.proper.remove a, h.counted.remove a, ?_⟩
  intro a'
  rw [h.proper.get?_remove, h.values]
  by_cases ha : a' = a
  · rw [if_pos ha, ha, Finmap.lookup_erase]
  · rw [if_neg ha, Finmap.lookup_erase_ne ha]

theorem retain (h : Refines m p) (keep : Address → α → Option α) :
    Refines (m.retain keep) (p.keepWith keep) := by
  refine ⟨h.proper.retain keep, h.counted.retain keep, ?_⟩
  intro a
  rw [h.proper.get?_retain, p.lookup_keepWith, h.values]

theorem perform (h : Refines m p) (op : MapOp α) : Refines (op.perform m).2 (op.enter p).2 := by
  cases op with
  | get a => exact h
  | change a f => exact h.change a f
  | insert a fresh f => exact h.insert a fresh f
  | remove a => exact h.remove a
  | retain keep => exact h.retain (survivor keep)

theorem answer_eq (h : Refines m p) (op : MapOp α) : (op.perform m).1 = (op.enter p).1 := by
  cases op with
  | get a => exact h.values a
  | change a f => exact h.values a
  | insert a fresh f =>
    show some (m.getOrInsert a fresh).1 = some ((p.lookup a).getD fresh)
    rw [← h.values, AddressMap.getOrInsert]
    cases m.get? a <;> rfl
  | remove a =>
    show (m.remove a).1 = p.lookup a
    rw [← h.values, AddressMap.remove]
    cases hget : m.get? a <;> rfl
  | retain keep => rfl

/-! ## What the two have in common -/

theorem keys_eq (h : Refines m p) : (m.entries.map (·.1)).toFinset = p.keys := by
  ext a
  rw [List.mem_toFinset, Finmap.mem_keys, ← Finmap.lookup_isSome, ← h.values,
    Option.isSome_iff_exists]
  constructor
  · intro ha
    obtain ⟨⟨a', v⟩, he, rfl⟩ := List.mem_map.1 ha
    exact ⟨v, h.proper.mem_entries_iff.1 he⟩
  · rintro ⟨v, hget⟩
    exact List.mem_map.2 ⟨(a, v), h.proper.mem_entries_iff.2 hget, rfl⟩

theorem size_eq (h : Refines m p) : m.size = p.keys.card := by
  rw [← h.keys_eq, List.toFinset_card_of_nodup h.proper.once, List.length_map]
  exact h.counted

theorem isEmpty_iff (h : Refines m p) : m.isEmpty = true ↔ p = ∅ := by
  rw [AddressMap.isEmpty, decide_eq_true_iff, h.size_eq, Finset.card_eq_zero]
  constructor
  · intro hkeys
    apply Finmap.ext_lookup
    intro a
    have ha : a ∉ p := by rw [← Finmap.mem_keys, hkeys]; exact Finset.notMem_empty a
    rw [Finmap.lookup_eq_none.2 ha, Finmap.lookup_empty]
  · rintro rfl
    rfl

end Refines

/-! ## Runs -/

theorem refines_after (ops : List (MapOp α)) :
    Refines (AddressMap.empty.after ops) (FiniteMap.after ∅ ops) := by
  induction ops using List.reverseRecOn with
  | nil => exact .empty
  | append_singleton ops op ih =>
    rw [AddressMap.after, FiniteMap.after, List.foldl_concat, List.foldl_concat]
    exact ih.perform op

/-- After any operations, on any addresses and whatever locators these share: the map answers the
next operation as a finite map does that has gone through the same, and the two have the same
values; the length is the number of keys. The map is properly kept, each address has one entry in
all of it, and no operation takes more off the length than there is. -/
theorem address_map_refines_finite_map (ops : List (MapOp α)) :
    let m := AddressMap.empty.after ops
    let p := FiniteMap.after ∅ ops
    (∀ op : MapOp α, (op.perform m).1 = (op.enter p).1) ∧
      (∀ a, m.get? a = p.lookup a) ∧
      m.size = p.keys.card ∧
      (m.isEmpty = true ↔ p = ∅) ∧
      m.Proper ∧
      (m.entries.map (·.1)).Nodup ∧
      ∀ op : MapOp α, op.takesOff m ≤ m.size ∧
        (op.perform m).2.size = m.size + op.putsOn m - op.takesOff m := by
  intro m p
  have h : Refines m p := refines_after ops
  exact ⟨h.answer_eq, h.values, h.size_eq, h.isEmpty_iff, h.proper, h.proper.once,
    fun op => ⟨h.counted.takesOff_le op, AddressMap.size_perform op⟩⟩

end Courier.Routing
