import Courier.Proofs.Duplex.Undisturbed

/-! # Acknowledgments that are due

An end is due the acknowledgments on its link and one for each of its requests on the way; the
counts that these will carry are settled already (`Duplex.pending`), however the frames are
delivered. Only an acknowledgment that makes the end send its buffer again adds one, and that one
will carry the number that the end has transmitted by then (`Duplex.Hears.pending`).
-/
set_option autoImplicit false

namespace Courier

open Courier.Wire Courier.Wire.Frame Courier.Routing

variable {σ : Type} {cl sv : Channel σ} {d d' : Duplex σ} {e : End} {f : Frame} {fs : List Frame}
  {l : Ledger} {received : UInt32}

/-- The counts that the acknowledgments among frames carry. -/
def counts (fs : List Frame) : List UInt32 :=
  fs.filterMap fun
    | .acknowledge count => some count
    | _ => none

/-- The counts that the requests among frames will be answered with, by an end that had received so
many packets before them. -/
def answers (received : UInt32) : List Frame → List UInt32
  | [] => []
  | .requestAcknowledgment :: fs => received :: answers received fs
  | f :: fs => answers (received + .ofNat f.packets.length) fs

theorem counts_append (fs fs' : List Frame) : counts (fs ++ fs') = counts fs ++ counts fs' :=
  List.filterMap_append

theorem counts_eq_nil (h : ∀ f ∈ fs, ∀ count, f ≠ .acknowledge count) : counts fs = [] := by
  refine List.filterMap_eq_nil_iff.2 fun f hf => ?_
  cases f with
  | acknowledge count => exact absurd rfl (h _ hf count)
  | _ => rfl

theorem answers_of_ne (hf : f ≠ .requestAcknowledgment) :
    answers received (f :: fs) = answers (received + .ofNat f.packets.length) fs := by
  cases f with
  | requestAcknowledgment => exact absurd rfl hf
  | _ => rfl

theorem answers_append (received : UInt32) (fs fs' : List Frame) : answers received (fs ++ fs') =
    answers received fs ++ answers (received + .ofNat (fs.flatMap packets).length) fs' := by
  induction fs generalizing received with
  | nil =>
    show answers received fs' = answers (received + 0) fs'
    rw [UInt32.add_zero]
  | cons f fs ih =>
    rw [List.cons_append, List.flatMap_cons, List.length_append, UInt32.ofNat_add,
      ← UInt32.add_assoc]
    by_cases hf : f = .requestAcknowledgment
    · subst hf
      rw [answers, answers, ih, List.cons_append]
      show _ = received :: (_ ++ answers (received + 0 + _) fs')
      rw [UInt32.add_zero]
    · rw [answers_of_ne hf, answers_of_ne hf, ih]

theorem answers_eq_nil (h : ∀ f ∈ fs, f ≠ .requestAcknowledgment) : answers received fs = [] := by
  induction fs generalizing received with
  | nil => rfl
  | cons f fs ih =>
    rw [answers_of_ne (h f (List.mem_cons_self ..))]
    exact ih fun g hg => h g (List.mem_cons_of_mem f hg)

theorem answers_ne_nil (h : .requestAcknowledgment ∈ fs) : answers received fs ≠ [] := by
  induction fs generalizing received with
  | nil => cases h
  | cons f fs ih =>
    by_cases hf : f = .requestAcknowledgment
    · subst hf
      exact List.cons_ne_nil _ _
    · rw [answers_of_ne hf]
      exact ih ((List.mem_cons.1 h).resolve_left fun heq => hf heq.symm)

namespace Ledger

/-- Only a request is answered with an acknowledgment, of what was received. -/
theorem counts_reply (l : Ledger) (f : Frame) : counts (l.reply f).2 =
    if f = .requestAcknowledgment then [l.received] else [] := by
  cases f with
  | requestAcknowledgment => rfl
  | acknowledge count =>
    rw [if_neg (fun heq => nomatch heq)]
    obtain ⟨-, heq⟩ | ⟨-, heq⟩ | ⟨-, -, heq⟩ := l.reply_cases count
    · rw [heq]
      rfl
    · rw [heq]
      rfl
    · rw [heq]
      apply counts_eq_nil
      rintro g hg count' rfl
      obtain hg | hg := List.mem_append.1 hg
      · obtain ⟨run, -, hrun⟩ := List.mem_map.1 hg
        cases hrun
      · cases List.mem_singleton.1 hg
  | _ => rfl

theorem received_reply (l : Ledger) (f : Frame) :
    (l.reply f).1.received = l.received + .ofNat f.packets.length := by
  cases f with
  | send ps => rfl
  | acknowledge count =>
    show _ = l.received + 0
    rw [UInt32.add_zero]
    obtain ⟨-, heq⟩ | ⟨-, heq⟩ | ⟨-, -, heq⟩ := l.reply_cases count
    · rw [heq]
    · rw [heq]
    · rw [heq]
      exact l.received_flush
  | _ => exact (UInt32.add_zero _).symm

end Ledger

namespace Duplex

/-- The counts that the acknowledgments due to an end carry, in order. -/
def pending (d : Duplex σ) (e : End) : List UInt32 :=
  counts (d.link e) ++ answers (d.ledger e.other).received (d.link e.other)

theorem pending_ne_nil (h : .requestAcknowledgment ∈ d.link e.other) : d.pending e ≠ [] :=
  fun hnil => answers_ne_nil h (List.append_eq_nil_iff.1 hnil).2

theorem Good.transmitted (h : Good cl sv d) (e : End) : (d.ledger e).transmitted =
    (d.ledger e.other).received + .ofNat ((d.link e.other).flatMap packets).length := by
  obtain ⟨a, b, ha, hb, hbalanced⟩ := h.balanced e
  have hlink : d.link e.other = a.spoken.drop (d.handed e) := by
    rw [link, End.other_other, spoken_eq ha]
  rw [ledger_eq ha, ledger_eq hb, hlink, hbalanced.transmitted, hbalanced.received,
    ← UInt32.ofNat_add, hbalanced.length_sent]

namespace Hears

variable (h : Hears e f d d')

include h

theorem pending_other : d'.pending e.other = d.pending e.other := by
  rw [pending, pending, End.other_other, h.reply, h.link, h.ledger, counts_append,
    Ledger.counts_reply, Ledger.received_reply, List.append_assoc]
  by_cases hf : f = .requestAcknowledgment
  · subst hf
    rw [if_pos rfl, answers]
    show _ ++ ([_] ++ answers (_ + 0) _) = _
    rw [UInt32.add_zero]
    rfl
  · rw [if_neg hf, answers_of_ne hf, List.nil_append]

/-- An acknowledgment that arrives is the first of those due. -/
theorem pending (hgood : Good cl sv d) : ∃ left, d.pending e = counts [f] ++ left ∧
    d'.pending e = left ++ answers (d.ledger e).transmitted ((d.ledger e).reply f).2 := by
  refine ⟨counts (d'.link e) ++ answers (d.ledger e.other).received (d.link e.other), ?_, ?_⟩
  · rw [Duplex.pending, h.link, ← List.append_assoc, ← counts_append]
    rfl
  · rw [Duplex.pending, h.reply, h.other, answers_append, ← hgood.transmitted, List.append_assoc]

end Hears
end Duplex
end Courier
