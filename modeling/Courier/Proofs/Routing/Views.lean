import Courier.Proofs.Routing.Maps
import Mathlib.Data.List.Nodup

/-! # What one sees of a registry

A registry shows two things for each address: the channels that are attached to it, and the packets
that wait for it. Each operation of a registry that is kept properly is stated here by what it does
to both.
-/
set_option autoImplicit false

namespace Courier.Routing.Registry

open Courier.Wire Courier.Routing

variable {r : Registry} {a a' : Address} {c c' : ChannelId}

/-! ## Proper registries -/

structure Proper (r : Registry) : Prop where
  attachments : r.attachments.Proper
  mailboxes : r.mailboxes.Proper

theorem proper_empty : Registry.empty.Proper := ⟨AddressMap.proper_empty, AddressMap.proper_empty⟩

namespace Proper

variable (h : r.Proper)

include h

theorem attach (a : Address) (c : ChannelId) : (r.attach a c).Proper :=
  ⟨h.attachments.upsert a _ _, h.mailboxes⟩

theorem detach (a : Address) (c : ChannelId) : (r.detach a c).Proper := by
  refine ⟨?_, ?_⟩
  · unfold Registry.detach
    split
    · exact h.attachments
    · split
      · exact h.attachments.remove a
      · exact h.attachments.modify a _
  · rw [mailboxes_detach]
    exact h.mailboxes

theorem release (c : ChannelId) : (r.release c).Proper := ⟨h.attachments.retain _, h.mailboxes⟩

theorem enqueue (p : Packet) : (r.enqueue p).Proper :=
  ⟨h.attachments, h.mailboxes.upsert p.recipient _ _⟩

theorem setWaiting (a : Address) (ps : List Packet) : (r.setWaiting a ps).Proper := by
  refine ⟨?_, ?_⟩
  · rw [attachments_setWaiting]
    exact h.attachments
  · unfold Registry.setWaiting
    split
    · exact h.mailboxes.remove a
    · exact h.mailboxes.upsert a _ _

/-! ## The channels of an address -/

theorem channels_attach : (r.attach a c).channels a' =
    if a' = a then if c ∈ r.channels a then r.channels a else r.channels a ++ [c]
    else r.channels a' := by
  unfold Registry.channels Registry.attach
  simp only [h.attachments.get?_upsert]
  by_cases ha : a' = a <;> simp [ha]

theorem channels_detach : (r.detach a c).channels a' =
    if a' = a then (r.channels a).filter (· ≠ c) else r.channels a' := by
  unfold Registry.channels Registry.detach
  cases hget : r.attachments.get? a with
  | none =>
    by_cases ha : a' = a
    · simp [ha, hget]
    · simp [ha]
  | some cs =>
    simp only [Option.getD_some]
    generalize hleft : cs.filter (· ≠ c) = left
    by_cases hempty : left.isEmpty = true
    · simp only [hempty, if_true, h.attachments.get?_remove]
      by_cases ha : a' = a
      · simp [ha, List.isEmpty_iff.1 hempty]
      · simp [ha]
    · simp only [hempty, if_false, Bool.false_eq_true, h.attachments.get?_modify]
      by_cases ha : a' = a
      · rw [if_pos ha, if_pos ha, ha, hget, ← hleft]
        rfl
      · simp [ha]

theorem channels_detachAll (cs : List ChannelId) :
    (cs.foldl (fun r c => r.detach a c) r).channels a' =
      if a' = a then (r.channels a).filter (· ∉ cs) else r.channels a' := by
  induction cs generalizing r with
  | nil =>
    by_cases ha : a' = a
    · simp [ha]
    · simp [ha]
  | cons c cs ih =>
    rw [List.foldl_cons, ih (h.detach a c), h.channels_detach, h.channels_detach, if_pos rfl,
      List.filter_filter]
    by_cases ha : a' = a
    · rw [if_pos ha, if_pos ha]
      apply List.filter_congr
      intro c' _
      by_cases hc : c' = c <;> simp [hc]
    · rw [if_neg ha, if_neg ha, if_neg ha]

theorem channels_release : (r.release c).channels a = (r.channels a).filter (· ≠ c) := by
  unfold Registry.channels Registry.release
  simp only [h.attachments.get?_retain]
  cases r.attachments.get? a with
  | none => rfl
  | some cs =>
    simp only [Option.bind_some, Option.getD_some]
    split
    · rename_i hempty
      exact (List.isEmpty_iff.1 hempty).symm
    · rfl

/-! ## The mailbox of an address -/

theorem waiting_enqueue (p : Packet) : (r.enqueue p).waiting a =
    if a = p.recipient then r.waiting a ++ [p] else r.waiting a := by
  unfold Registry.waiting Registry.enqueue
  simp only [h.mailboxes.get?_upsert]
  by_cases ha : a = p.recipient
  · simp [ha]
  · simp [ha]

theorem waiting_setWaiting (ps : List Packet) : (r.setWaiting a ps).waiting a' =
    if a' = a then ps else r.waiting a' := by
  unfold Registry.waiting Registry.setWaiting
  by_cases hps : ps.isEmpty = true
  · simp only [hps, if_true, h.mailboxes.get?_remove]
    by_cases ha : a' = a
    · simp [ha, List.isEmpty_iff.1 hps]
    · simp [ha]
  · simp only [hps, if_false, Bool.false_eq_true, h.mailboxes.get?_upsert]
    by_cases ha : a' = a <;> simp [ha]

theorem waiting_takeAll : (r.takeAll a).2.waiting a' = if a' = a then [] else r.waiting a' :=
  h.waiting_setWaiting []

/-- What is taken out and put back waits as it did. -/
theorem waiting_putBack :
    ((r.takeAll a).2.requeue a (r.takeAll a).1).waiting a' = r.waiting a' := by
  have htaken : (r.takeAll a).2.Proper := h.setWaiting a []
  rw [Registry.requeue, htaken.waiting_setWaiting, h.waiting_takeAll, h.waiting_takeAll, if_pos rfl,
    List.append_nil]
  by_cases ha : a' = a
  · rw [if_pos ha, ha]
    rfl
  · rw [if_neg ha, if_neg ha]

theorem channels_of_mem {e : Address × List ChannelId} (he : e ∈ r.attachments.entries) :
    r.channels e.1 = e.2 := by
  rw [channels, h.attachments.get?_of_mem he]
  rfl

end Proper

theorem waiting_attach : (r.attach a c).waiting a' = r.waiting a' := rfl

theorem waiting_detach : (r.detach a c).waiting a' = r.waiting a' := by
  rw [waiting, mailboxes_detach, waiting]

theorem waiting_detachAll (cs : List ChannelId) :
    (cs.foldl (fun r c => r.detach a c) r).waiting a' = r.waiting a' := by
  induction cs generalizing r with
  | nil => rfl
  | cons c cs ih => rw [List.foldl_cons, ih, waiting_detach]

theorem channels_enqueue (p : Packet) : (r.enqueue p).channels a = r.channels a := rfl

theorem channels_setWaiting (ps : List Packet) : (r.setWaiting a ps).channels a' = r.channels a' := by
  rw [channels, attachments_setWaiting, channels]

/-! ## Tidy registries -/

/-- No address has an empty list of channels, and in no list does a channel come twice. -/
structure Tidy (r : Registry) : Prop extends r.Proper where
  full : ∀ a cs, r.attachments.get? a = some cs → cs ≠ []
  once : ∀ a, (r.channels a).Nodup

theorem tidy_empty : Registry.empty.Tidy :=
  ⟨proper_empty, (fun _ _ hget => nomatch hget), fun _ => List.nodup_nil⟩

namespace Tidy

variable (h : r.Tidy)

include h

/-- Only the mailboxes change. -/
theorem of_attachments {r' : Registry} (heq : r'.attachments = r.attachments)
    (hmailboxes : r'.mailboxes.Proper) : r'.Tidy := by
  refine ⟨⟨heq ▸ h.attachments, hmailboxes⟩, heq ▸ h.full, fun a => ?_⟩
  rw [channels, heq]
  exact h.once a

theorem attach (a : Address) (c : ChannelId) : (r.attach a c).Tidy := by
  refine ⟨h.toProper.attach a c, ?_, ?_⟩
  · intro a' cs hget
    unfold Registry.attach at hget
    simp only [h.attachments.get?_upsert] at hget
    by_cases ha : a' = a
    · rw [if_pos ha] at hget
      cases hget
      split
      · rename_i hmem
        exact List.ne_nil_of_mem hmem
      · simp
    · rw [if_neg ha] at hget
      exact h.full a' cs hget
  · intro a'
    rw [h.channels_attach]
    split
    · split
      · exact h.once a
      · rename_i hnew
        rw [List.nodup_append]
        refine ⟨h.once a, List.pairwise_singleton .., ?_⟩
        intro x hx y hy heq
        rw [heq, List.mem_singleton.1 hy] at hx
        exact hnew hx
    · exact h.once a'

theorem detach (a : Address) (c : ChannelId) : (r.detach a c).Tidy := by
  refine ⟨h.toProper.detach a c, ?_, ?_⟩
  · intro a' cs hget
    unfold Registry.detach at hget
    cases hfound : r.attachments.get? a with
    | none =>
      rw [hfound] at hget
      exact h.full a' cs hget
    | some old =>
      rw [hfound] at hget
      simp only [] at hget
      by_cases hempty : (old.filter (· ≠ c)).isEmpty = true
      · simp only [hempty, if_true, h.attachments.get?_remove] at hget
        by_cases ha : a' = a
        · simp [ha] at hget
        · rw [if_neg ha] at hget
          exact h.full a' cs hget
      · simp only [hempty, if_false, Bool.false_eq_true, h.attachments.get?_modify] at hget
        by_cases ha : a' = a
        · rw [if_pos ha, ha, hfound] at hget
          cases hget
          exact fun hnil => hempty (List.isEmpty_iff.2 hnil)
        · rw [if_neg ha] at hget
          exact h.full a' cs hget
  · intro a'
    rw [h.channels_detach]
    split
    · exact (h.once a).filter _
    · exact h.once a'

theorem detachAll (a : Address) (cs : List ChannelId) :
    (cs.foldl (fun r c => r.detach a c) r).Tidy := by
  induction cs generalizing r with
  | nil => exact h
  | cons c cs ih => exact ih (h.detach a c)

theorem release (c : ChannelId) : (r.release c).Tidy := by
  refine ⟨h.toProper.release c, ?_, ?_⟩
  · intro a cs hget
    unfold Registry.release at hget
    simp only [h.attachments.get?_retain] at hget
    obtain ⟨old, -, hkept⟩ := Option.bind_eq_some_iff.1 hget
    split at hkept
    · cases hkept
    · rename_i hne
      cases hkept
      exact fun hnil => hne (List.isEmpty_iff.2 hnil)
  · intro a
    rw [h.channels_release]
    exact (h.once a).filter _

/-- Releasing a channel that is attached nowhere changes nothing. -/
theorem release_eq_self (hnone : ∀ a, c ∉ r.channels a) : r.release c = r := by
  have hkept : ∀ e ∈ r.attachments.entries, (e.2.filter (· ≠ c)) = e.2 := by
    intro e he
    rw [← h.toProper.channels_of_mem he]
    exact List.filter_eq_self.2 fun c' hc' => decide_eq_true fun heq => hnone e.1 (heq ▸ hc')
  rw [Registry.release, h.attachments.retain_eq_self fun e he => ?_]
  have hfull : e.2 ≠ [] := h.full e.1 e.2 (h.attachments.get?_of_mem he)
  simp only [hkept e he, List.isEmpty_iff, hfull, if_false]

/-! ## How often a channel is attached -/

theorem attachedCount_eq_zero (hnone : ∀ a, c ∉ r.channels a) : r.attachedCount c = 0 := by
  have hempty : (r.attachments.entries.flatMap fun e => e.2.filter (· = c)) = [] := by
    rw [List.flatMap_eq_nil_iff]
    intro e he
    rw [List.filter_eq_nil_iff]
    intro c' hc' heq
    apply hnone e.1
    rw [h.toProper.channels_of_mem he, ← of_decide_eq_true heq]
    exact hc'
  rw [attachedCount, hempty]
  rfl

/-- A channel that is attached to one address only is counted once. -/
theorem attachedCount_eq_one (hc : c ∈ r.channels a) (honly : ∀ a', c ∈ r.channels a' → a' = a) :
    r.attachedCount c = 1 := by
  obtain ⟨cs, hget⟩ : ∃ cs, r.attachments.get? a = some cs := by
    cases hget : r.attachments.get? a with
    | none =>
      rw [channels, hget] at hc
      cases hc
    | some cs => exact ⟨cs, rfl⟩
  have hchannels : r.channels a = cs := by
    rw [channels, hget]
    rfl
  obtain ⟨before, after, hsplit⟩ := List.append_of_mem (h.attachments.mem_entries_iff.2 hget)
  -- The entries before and after it are of other addresses.
  have hothers : ∀ e ∈ before ++ after, (e.2.filter (· = c)) = [] := by
    intro e he
    have hmem : e ∈ r.attachments.entries := by
      rw [hsplit]
      obtain he | he := List.mem_append.1 he
      · exact List.mem_append_left _ he
      · exact List.mem_append_right _ (List.mem_cons_of_mem _ he)
    have hother : e.1 ≠ a := by
      have honce := h.attachments.once
      rw [hsplit, List.map_append, List.map_cons] at honce
      have hnot := (List.nodup_cons.1 (List.perm_middle.nodup_iff.1 honce)).1
      intro heq
      rw [← List.map_append] at hnot
      exact hnot (List.mem_map.2 ⟨e, he, heq⟩)
    rw [List.filter_eq_nil_iff]
    intro c' hc' heq
    apply hother
    apply honly
    rw [channels, h.attachments.get?_of_mem hmem, ← of_decide_eq_true heq]
    exact hc'
  have hbefore : before.flatMap (fun e => e.2.filter (· = c)) = [] :=
    List.flatMap_eq_nil_iff.2 fun e he => hothers e (List.mem_append_left _ he)
  have hafter : after.flatMap (fun e => e.2.filter (· = c)) = [] :=
    List.flatMap_eq_nil_iff.2 fun e he => hothers e (List.mem_append_right _ he)
  have hcount : cs.count c = 1 :=
    List.count_eq_one_of_mem (hchannels ▸ h.once a) (hchannels ▸ hc)
  rw [attachedCount, hsplit, List.flatMap_append, List.flatMap_cons, hbefore, hafter,
    List.nil_append, List.append_nil, ← hcount, List.count_eq_length_filter]
  congr 1

end Tidy
end Courier.Routing.Registry
