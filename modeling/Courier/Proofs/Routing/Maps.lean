import Courier.Proofs.Routing.Entries

/-! # Maps from addresses as plain maps

In a map that is kept properly (`AddressMap.Proper`) no two buckets share a locator, every entry is in
the bucket of its locator, no address is in a bucket twice and no bucket is empty. Every operation
keeps it so, and does to the value of each address what it would do in a plain map; which addresses
share a locator makes no difference.
-/
set_option autoImplicit false

namespace Courier.Routing

open Courier.Wire

variable {α : Type} {a a' : Address}

/-! ## Looking up in a list -/

section lookup

variable {β γ : Type} [BEq β] [LawfulBEq β] [DecidableEq β] {entries : List (β × γ)} {k : β}

theorem lookup_cons_eq (e : β × γ) (entries : List (β × γ)) (k : β) :
    (e :: entries).lookup k = if k = e.1 then some e.2 else entries.lookup k := by
  by_cases h : k = e.1
  · rw [if_pos h, List.lookup_cons, beq_iff_eq.2 h]
  · rw [if_neg h, List.lookup_cons, beq_false_of_ne h]

theorem lookup_eq_none_iff_not_mem : entries.lookup k = none ↔ k ∉ entries.map (·.1) := by
  induction entries with
  | nil => simp
  | cons e entries ih =>
    rw [lookup_cons_eq, List.map_cons, List.mem_cons, not_or, ← ih]
    by_cases h : k = e.1 <;> simp [h]

/-- Where no key comes twice, every entry is found. -/
theorem lookup_of_mem {v : γ} (honce : (entries.map (·.1)).Nodup) (h : (k, v) ∈ entries) :
    entries.lookup k = some v := by
  induction entries with
  | nil => cases h
  | cons e entries ih =>
    obtain ⟨hfirst, hrest⟩ := List.nodup_cons.1 honce
    rw [lookup_cons_eq]
    obtain heq | h := List.mem_cons.1 h
    · rw [← heq, if_pos rfl]
    · have hne : k ≠ e.1 := fun heq => hfirst (List.mem_map.2 ⟨_, h, heq⟩)
      rw [if_neg hne, ih hrest h]

end lookup

/-! ## Buckets -/

namespace Bucket

variable {b : Bucket α}

theorem get?_cons (e : Address × α) (b : Bucket α) :
    get? (e :: b : Bucket α) a = if a = e.1 then some e.2 else get? b a := lookup_cons_eq e b a

theorem get?_modify (f : α → α) :
    (b.modify a f).get? a' = if a' = a then (b.get? a').map f else b.get? a' := by
  induction b with
  | nil => exact (ite_self _).symm
  | cons e b ih =>
    change get? ((if e.1 = a then (e.1, f e.2) else e) :: modify b a f) a' = _
    rw [get?_cons, get?_cons, ih]
    by_cases ha' : a' = e.1
    · by_cases ha : e.1 = a
      · simp [ha, ha']
      · simp [ha, ha']
    · have hkey : (if e.1 = a then (e.1, f e.2) else e).1 = e.1 := by split <;> rfl
      rw [hkey, if_neg ha', if_neg ha']

theorem get?_append_one (v : α) :
    get? (b ++ [(a, v)] : Bucket α) a' =
      (b.get? a').or (if a' = a then some v else none) := by
  induction b with
  | nil => rw [List.nil_append, get?_cons]; rfl
  | cons e b ih =>
    rw [List.cons_append, get?_cons, get?_cons, ih]
    by_cases ha' : a' = e.1 <;> simp [ha']

/-- Where each address is in it once, the order of a bucket makes no difference. -/
theorem get?_perm {b' : Bucket α} (h : b.Perm b') (honce : (b.map (·.1)).Nodup) :
    b.get? a = b'.get? a := by
  have honce' : (b'.map (·.1)).Nodup := (h.map (·.1)).nodup_iff.1 honce
  apply Option.ext
  intro v
  constructor
  · intro hget
    exact lookup_of_mem honce' (h.mem_iff.1 (AddressMap.mem_of_lookup hget))
  · intro hget
    exact lookup_of_mem honce (h.mem_iff.2 (AddressMap.mem_of_lookup hget))

theorem get?_erase (honce : (b.map (·.1)).Nodup) {v : α} (hget : b.get? a = some v) :
    (b.erase a).get? a' = if a' = a then none else b.get? a' := by
  have hperm := erase_perm hget
  have hnodup : (((a, v) :: b.erase a).map (·.1)).Nodup := (hperm.map _).nodup_iff.2 honce
  rw [← get?_perm hperm hnodup, get?_cons]
  by_cases ha : a' = a
  · rw [if_pos ha, ha]
    exact lookup_eq_none_iff_not_mem.2 (List.nodup_cons.1 hnodup).1
  · rw [if_neg ha, if_neg ha]

/-- The entries of a bucket: each address once, and all with this locator. -/
structure Homed (key : UInt32) (b : Bucket α) : Prop where
  once : (b.map (·.1)).Nodup
  home : ∀ e ∈ b, locator e.1 = key

namespace Homed

variable {key : UInt32}

theorem nil : Homed key ([] : Bucket α) := ⟨List.nodup_nil, fun _ he => nomatch he⟩

theorem modify (h : Homed key b) (a : Address) (f : α → α) : Homed key (b.modify a f) := by
  have hkeys : (b.modify a f).map (·.1) = b.map (·.1) := by
    rw [Bucket.modify, List.map_map]
    apply List.map_congr_left
    intro e _
    show (if e.1 = a then (e.1, f e.2) else e).1 = e.1
    split <;> rfl
  refine ⟨hkeys ▸ h.once, ?_⟩
  intro e he
  have hmem : e.1 ∈ b.map (·.1) := hkeys ▸ List.mem_map_of_mem he
  obtain ⟨e', he', heq⟩ := List.mem_map.1 hmem
  rw [← heq]
  exact h.home e' he'

theorem append_one (h : Homed (locator a) b) (v : α) (hnew : b.get? a = none) :
    Homed (locator a) (b ++ [(a, v)]) := by
  refine ⟨?_, ?_⟩
  · rw [List.map_append, List.nodup_append]
    refine ⟨h.once, List.pairwise_singleton .., ?_⟩
    intro x hx y hy heq
    have hx' : x = a := heq.trans (List.mem_singleton.1 hy)
    rw [hx'] at hx
    exact lookup_eq_none_iff_not_mem.1 hnew hx
  · intro e he
    obtain he | he := List.mem_append.1 he
    · exact h.home e he
    · rw [List.mem_singleton.1 he]

/-- Some of the entries, with other values. -/
theorem filterMap (h : Homed key b) {f : Address × α → Option (Address × α)}
    (hf : ∀ e e', f e = some e' → e'.1 = e.1) : Homed key (b.filterMap f) := by
  induction b with
  | nil => exact nil
  | cons e b ih =>
    have hrest : Homed key b :=
      ⟨(List.nodup_cons.1 h.once).2, fun e' he' => h.home e' (List.mem_cons_of_mem _ he')⟩
    obtain ⟨honce, hhome⟩ := ih hrest
    rw [List.filterMap_cons]
    cases hfe : f e with
    | none => exact ⟨honce, hhome⟩
    | some e' =>
      refine ⟨?_, ?_⟩
      · rw [List.map_cons, List.nodup_cons]
        refine ⟨?_, honce⟩
        intro hmem
        obtain ⟨x', hx', heq⟩ := List.mem_map.1 hmem
        obtain ⟨x, hx, hfx⟩ := List.mem_filterMap.1 hx'
        have hsame : x.1 = e.1 := by rw [← hf x x' hfx, heq, hf e e' hfe]
        exact (List.nodup_cons.1 h.once).1 (List.mem_map.2 ⟨x, hx, hsame⟩)
      · intro x hx
        obtain rfl | hx := List.mem_cons.1 hx
        · rw [hf e x hfe]
          exact h.home e (List.mem_cons_self ..)
        · exact hhome x hx

theorem erase (h : Homed key b) {v : α} (hget : b.get? a = some v) : Homed key (b.erase a) := by
  have hperm := erase_perm hget
  refine ⟨?_, fun e he => h.home e (hperm.mem_iff.1 (List.mem_cons_of_mem _ he))⟩
  exact (List.nodup_cons.1 ((hperm.map (·.1)).nodup_iff.2 h.once)).2

end Homed
end Bucket

namespace AddressMap

variable {m : AddressMap α}

/-! ## Buckets by their locators -/

theorem bucket_eq (h : locator a' = locator a) : m.bucket a' = m.bucket a := by
  rw [bucket, h, bucket]

theorem mem_buckets_setBucket {buckets : List (UInt32 × Bucket α)} {key : UInt32} {b : Bucket α}
    {e : UInt32 × Bucket α} (h : e ∈ setBucket buckets key b) :
    e ∈ buckets ∨ (b ≠ [] ∧ e = (key, b)) := by
  induction buckets with
  | nil =>
    unfold setBucket at h
    split at h
    · cases h
    · rename_i hb
      exact .inr ⟨fun hnil => hb (by rw [hnil]; rfl), List.mem_singleton.1 h⟩
  | cons first rest ih =>
    unfold setBucket at h
    split at h
    · split at h
      · exact .inl (List.mem_cons_of_mem _ h)
      · rename_i hb
        obtain rfl | h := List.mem_cons.1 h
        · exact .inr ⟨fun hnil => hb (by rw [hnil]; rfl), rfl⟩
        · exact .inl (List.mem_cons_of_mem _ h)
    · obtain rfl | h := List.mem_cons.1 h
      · exact .inl (List.mem_cons_self ..)
      · obtain h | h := ih h
        · exact .inl (List.mem_cons_of_mem _ h)
        · exact .inr h

theorem keys_setBucket {buckets : List (UInt32 × Bucket α)} (key : UInt32) (b : Bucket α)
    (h : (buckets.map (·.1)).Nodup) : ((setBucket buckets key b).map (·.1)).Nodup := by
  induction buckets with
  | nil =>
    unfold setBucket
    split
    · exact List.nodup_nil
    · exact List.pairwise_singleton ..
  | cons first rest ih =>
    obtain ⟨hfirst, hrest⟩ := List.nodup_cons.1 h
    unfold setBucket
    split
    · rename_i hkey
      split
      · exact hrest
      · rw [List.map_cons, List.nodup_cons, ← hkey]
        exact ⟨hfirst, hrest⟩
    · rename_i hkey
      rw [List.map_cons, List.nodup_cons]
      refine ⟨?_, ih hrest⟩
      intro hmem
      obtain ⟨e, he, heq⟩ := List.mem_map.1 hmem
      obtain he | ⟨-, rfl⟩ := mem_buckets_setBucket he
      · exact hfirst (List.mem_map.2 ⟨e, he, heq⟩)
      · exact hkey heq.symm

theorem lookup_setBucket {buckets : List (UInt32 × Bucket α)} {key key' : UInt32} {b : Bucket α}
    (h : (buckets.map (·.1)).Nodup) : ((setBucket buckets key b).lookup key').getD [] =
      if key' = key then b else (buckets.lookup key').getD [] := by
  induction buckets with
  | nil =>
    unfold setBucket
    split
    · rename_i hb
      rw [List.isEmpty_iff.1 hb]
      simp
    · rw [lookup_cons_eq]
      by_cases hkey : key' = key <;> simp [hkey]
  | cons first rest ih =>
    obtain ⟨hfirst, hrest⟩ := List.nodup_cons.1 h
    unfold setBucket
    split
    · rename_i heq
      rw [lookup_cons_eq, heq]
      split
      · rename_i hb
        rw [List.isEmpty_iff.1 hb]
        by_cases hkey : key' = key
        · rw [if_pos hkey, hkey, ← heq, lookup_eq_none_iff_not_mem.2 hfirst]
          rfl
        · rw [if_neg hkey, if_neg hkey]
      · rw [lookup_cons_eq]
        by_cases hkey : key' = key <;> simp [hkey]
    · rename_i hne
      rw [lookup_cons_eq, lookup_cons_eq]
      by_cases hkey : key' = first.1
      · have hother : ¬ key' = key := fun heq => hne (hkey.symm.trans heq)
        simp [hkey, hne]
      · rw [if_neg hkey, if_neg hkey]
        exact ih hrest

/-! ## Proper maps -/

structure Proper (m : AddressMap α) : Prop where
  keys : (m.buckets.map (·.1)).Nodup
  homed : ∀ e ∈ m.buckets, Bucket.Homed e.1 e.2
  full : ∀ e ∈ m.buckets, e.2 ≠ []

theorem proper_empty : (empty : AddressMap α).Proper :=
  ⟨List.nodup_nil, (fun _ he => nomatch he), fun _ he => nomatch he⟩

namespace Proper

variable (h : m.Proper)

include h

theorem bucket (a : Address) : Bucket.Homed (locator a) (m.bucket a) := by
  unfold AddressMap.bucket
  cases hb : m.buckets.lookup (locator a) with
  | none => exact .nil
  | some b => exact h.homed _ (mem_of_lookup hb)

theorem setBucket {key : UInt32} {b : Bucket α} (hb : Bucket.Homed key b) (size : Nat) :
    (⟨setBucket m.buckets key b, size⟩ : AddressMap α).Proper := by
  refine ⟨keys_setBucket key b h.keys, ?_, ?_⟩
  · intro e he
    obtain he | ⟨-, rfl⟩ := mem_buckets_setBucket he
    · exact h.homed e he
    · exact hb
  · intro e he
    obtain he | ⟨hne, rfl⟩ := mem_buckets_setBucket he
    · exact h.full e he
    · exact hne

theorem modify (a : Address) (f : α → α) : (m.modify a f).Proper :=
  h.setBucket ((h.bucket a).modify a f) m.size

theorem getOrInsert (a : Address) (fresh : α) : (m.getOrInsert a fresh).2.Proper := by
  unfold AddressMap.getOrInsert
  cases hget : m.get? a with
  | some v => exact h
  | none => exact h.setBucket ((h.bucket a).append_one fresh hget) _

theorem upsert (a : Address) (fresh : α) (f : α → α) : (m.upsert a fresh f).Proper :=
  (h.getOrInsert a fresh).modify a f

theorem remove (a : Address) : (m.remove a).2.Proper := by
  unfold AddressMap.remove
  cases hget : m.get? a with
  | none => exact h
  | some v => exact h.setBucket ((h.bucket a).erase hget) _

theorem retain (keep : Address → α → Option α) : (m.retain keep).Proper := by
  have hkeys : (m.buckets.map fun e => (e.1, keepEntries keep e.2)).map (·.1) =
      m.buckets.map (·.1) := by
    rw [List.map_map]
    rfl
  refine ⟨?_, ?_, ?_⟩
  · have hsub : ((m.retain keep).buckets.map (·.1)).Sublist (m.buckets.map (·.1)) := by
      rw [← hkeys]
      exact List.filter_sublist.map _
    exact hsub.nodup h.keys
  · intro e he
    obtain ⟨e₀, he₀, rfl⟩ := List.mem_map.1 (List.mem_filter.1 he).1
    apply (h.homed e₀ he₀).filterMap
    intro x x' hx
    obtain ⟨v, -, rfl⟩ := Option.map_eq_some_iff.1 hx
    rfl
  · intro e he hnil
    have hne := (List.mem_filter.1 he).2
    rw [hnil] at hne
    cases hne

/-! ## What each operation does to a value -/

theorem get?_setBucket (b : Bucket α) (size : Nat) :
    get? ⟨AddressMap.setBucket m.buckets (locator a) b, size⟩ a' =
      if locator a' = locator a then b.get? a' else m.get? a' := by
  unfold AddressMap.get? AddressMap.bucket
  rw [lookup_setBucket h.keys]
  by_cases hl : locator a' = locator a <;> simp [hl]

theorem get?_modify (f : α → α) :
    (m.modify a f).get? a' = if a' = a then (m.get? a').map f else m.get? a' := by
  rw [AddressMap.modify, h.get?_setBucket, Bucket.get?_modify]
  by_cases hl : locator a' = locator a
  · rw [if_pos hl, ← bucket_eq hl]
    rfl
  · have ha : a' ≠ a := fun heq => hl (heq ▸ rfl)
    rw [if_neg hl, if_neg ha]

theorem get?_getOrInsert (fresh : α) : (m.getOrInsert a fresh).2.get? a' =
    if a' = a then some ((m.get? a).getD fresh) else m.get? a' := by
  unfold AddressMap.getOrInsert
  cases hget : m.get? a with
  | some v =>
    by_cases ha : a' = a
    · simp [ha, hget]
    · simp [ha]
  | none =>
    simp only []
    rw [h.get?_setBucket, Bucket.get?_append_one]
    by_cases hl : locator a' = locator a
    · rw [if_pos hl, ← bucket_eq hl]
      change (m.get? a').or _ = _
      by_cases ha : a' = a
      · simp [ha, hget]
      · simp [ha]
    · have ha : a' ≠ a := fun heq => hl (heq ▸ rfl)
      rw [if_neg hl, if_neg ha]

theorem get?_upsert (fresh : α) (f : α → α) : (m.upsert a fresh f).get? a' =
    if a' = a then some (f ((m.get? a).getD fresh)) else m.get? a' := by
  rw [AddressMap.upsert, (h.getOrInsert a fresh).get?_modify, h.get?_getOrInsert]
  by_cases ha : a' = a <;> simp [ha]

theorem get?_remove : (m.remove a).2.get? a' = if a' = a then none else m.get? a' := by
  unfold AddressMap.remove
  cases hget : m.get? a with
  | none =>
    by_cases ha : a' = a
    · simp [ha, hget]
    · simp [ha]
  | some v =>
    simp only []
    rw [h.get?_setBucket, Bucket.get?_erase (h.bucket a).once hget]
    by_cases hl : locator a' = locator a
    · rw [if_pos hl, ← bucket_eq hl]
      rfl
    · have ha : a' ≠ a := fun heq => hl (heq ▸ rfl)
      rw [if_neg hl, if_neg ha]

omit h in
theorem get?_keepEntries (keep : Address → α → Option α) {b : Bucket α}
    (honce : (b.map (·.1)).Nodup) :
    Bucket.get? (keepEntries keep b) a = (b.get? a).bind (keep a) := by
  induction b with
  | nil => rfl
  | cons e b ih =>
    obtain ⟨hfirst, hrest⟩ := List.nodup_cons.1 honce
    have hcons : keepEntries keep (e :: b) =
        ((keep e.1 e.2).map (e.1, ·)).toList ++ keepEntries keep b := by
      unfold keepEntries
      rw [List.filterMap_cons]
      cases keep e.1 e.2 <;> rfl
    rw [hcons, Bucket.get?_cons]
    cases hk : keep e.1 e.2 with
    | none =>
      change Bucket.get? (keepEntries keep b) a = _
      rw [ih hrest]
      by_cases ha : a = e.1
      · have hnone : Bucket.get? b e.1 = none := lookup_eq_none_iff_not_mem.2 hfirst
        simp [ha, hk, hnone]
      · rw [if_neg ha]
    | some v =>
      change Bucket.get? ((e.1, v) :: keepEntries keep b) a = _
      rw [Bucket.get?_cons, ih hrest]
      by_cases ha : a = e.1
      · simp [ha, hk]
      · rw [if_neg ha, if_neg ha]

omit h in
theorem lookup_retain (keep : Address → α → Option α) {buckets : List (UInt32 × Bucket α)}
    {key : UInt32} (hkeys : (buckets.map (·.1)).Nodup) :
    (((buckets.map fun e => (e.1, keepEntries keep e.2)).filter (!·.2.isEmpty)).lookup key).getD
      [] = keepEntries keep ((buckets.lookup key).getD []) := by
  induction buckets with
  | nil => rfl
  | cons e rest ih =>
    obtain ⟨hfirst, hrest⟩ := List.nodup_cons.1 hkeys
    rw [List.map_cons, List.filter_cons, lookup_cons_eq]
    by_cases hempty : (keepEntries keep e.2).isEmpty = true
    · simp only [hempty, Bool.not_true, Bool.false_eq_true, if_false]
      rw [ih hrest]
      by_cases hkey : key = e.1
      · rw [if_pos hkey, hkey, lookup_eq_none_iff_not_mem.2 hfirst]
        exact (List.isEmpty_iff.1 hempty).symm
      · rw [if_neg hkey]
    · simp only [hempty, Bool.not_false, if_true]
      rw [lookup_cons_eq]
      by_cases hkey : key = e.1
      · simp [hkey]
      · rw [if_neg hkey, if_neg hkey]
        exact ih hrest

theorem get?_retain (keep : Address → α → Option α) :
    (m.retain keep).get? a = (m.get? a).bind (keep a) := by
  have hbucket : (m.retain keep).bucket a = keepEntries keep (m.bucket a) :=
    lookup_retain keep h.keys
  rw [AddressMap.get?, hbucket, get?_keepEntries keep (h.bucket a).once]
  rfl

/-! ## Entries -/

theorem get?_of_mem {v : α} (he : (a, v) ∈ m.entries) : m.get? a = some v := by
  obtain ⟨⟨key, b⟩, hb, he⟩ := List.mem_flatMap.1 he
  have hhomed := h.homed _ hb
  have hkey : locator a = key := hhomed.home _ he
  rw [get?, AddressMap.bucket, hkey, lookup_of_mem h.keys hb]
  exact lookup_of_mem hhomed.once he

theorem mem_entries_iff {v : α} : (a, v) ∈ m.entries ↔ m.get? a = some v :=
  ⟨h.get?_of_mem, fun hget => mem_entries_of_mem_bucket (mem_of_lookup hget)⟩

/-- No address has two entries. -/
theorem once : (m.entries.map (·.1)).Nodup := by
  obtain ⟨hkeys, hhomed, -⟩ := h
  rw [entries, List.map_flatMap]
  generalize m.buckets = buckets at hkeys hhomed
  induction buckets with
  | nil => exact List.nodup_nil
  | cons e rest ih =>
    obtain ⟨hfirst, hrest⟩ := List.nodup_cons.1 hkeys
    have htail := ih hrest fun e' he' => hhomed e' (List.mem_cons_of_mem _ he')
    rw [List.flatMap_cons, List.nodup_append]
    refine ⟨(hhomed e (List.mem_cons_self ..)).once, htail, ?_⟩
    intro x hx y hy heq
    -- Entries of two buckets have two locators.
    obtain ⟨ex, hex, rfl⟩ := List.mem_map.1 hx
    obtain ⟨e', he', hy⟩ := List.mem_flatMap.1 hy
    obtain ⟨ey, hey, rfl⟩ := List.mem_map.1 hy
    have hx := (hhomed e (List.mem_cons_self ..)).home ex hex
    have hy := (hhomed e' (List.mem_cons_of_mem _ he')).home ey hey
    have hkey : e'.1 = e.1 := by rw [← hx, ← hy, heq]
    exact hfirst (List.mem_map.2 ⟨e', he', hkey⟩)

/-- Keeping every entry as it is changes nothing. -/
theorem retain_eq_self {keep : Address → α → Option α}
    (hkeep : ∀ e ∈ m.entries, keep e.1 e.2 = some e.2) : m.retain keep = m := by
  have hbuckets : (m.buckets.map fun e => (e.1, keepEntries keep e.2)) = m.buckets := by
    conv_rhs => rw [← List.map_id m.buckets]
    refine List.map_congr_left fun e he => Prod.ext rfl ?_
    have hsome : ∀ x ∈ e.2, (keep x.1 x.2).map (x.1, ·) = some x := by
      intro x hx
      rw [hkeep x (List.mem_flatMap.2 ⟨e, he, hx⟩)]
      rfl
    exact (List.filterMap_congr hsome).trans List.filterMap_some
  have hfull : m.buckets.filter (!·.2.isEmpty) = m.buckets :=
    List.filter_eq_self.2 fun e he => by simpa using h.full e he
  simp only [AddressMap.retain, hbuckets, hfull, Nat.sub_self, Nat.sub_zero]

end Proper
end AddressMap
end Courier.Routing
