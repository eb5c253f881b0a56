import Courier.Proofs.Node.Traffic
import Courier.Proofs.Routing.Entries

/-! # What traffic writes in the books

Two ends account for the same packets: each counts what it transmits and what it receives, and keeps
what it may have to send again. Here is what traffic does to these books on a channel that stays
open (`Channel.Traded`), and that it does so on all channels of a node (`Node.Traded`), whatever
arrives and wherever it is routed. Nobody takes what the channels queue.
-/
set_option autoImplicit false

namespace Courier

open Courier.Wire Courier.Wire.Frame Courier.Routing

variable {σ : Type} {ch ch' ch'' : Channel σ} {l : Ledger}
  {rest : List (Reactor σ)}

/-! ## Books -/

namespace Channel

def spoken (ch : Channel σ) : List Frame := framesOf ch.queue.toList

/-- The channel's ledger, or an empty one if it keeps none. -/
def ledger (ch : Channel σ) : Ledger := ch.ledger?.getD .empty

theorem Wired.ledger_eq (h : ch.Wired l rest) : ch.ledger = l := by
  rw [ledger, h.ledger?_eq]
  rfl

theorem spoken_say {fs : List Frame} (h : ∀ f ∈ fs, f.Regular) :
    (ch.say fs).spoken = ch.spoken ++ fs := by
  rw [spoken, say, Backlog.toList_push, framesOf_append, framesOf_layouts h]
  rfl

@[simp] theorem ledger_say (ch : Channel σ) (fs : List Frame) : (ch.say fs).ledger = ch.ledger :=
  rfl

/-- What becomes of a channel that stays open: it receives these packets and says these frames. -/
structure Traded (got : List Packet) (fs : List Frame) (ch ch' : Channel σ) : Prop where
  session : ch'.session = ch.session
  spoken : ch'.spoken = ch.spoken ++ fs
  traffic : ∀ f ∈ fs, f.IsTraffic
  transmitted : ch'.ledger.transmitted = ch.ledger.transmitted + .ofNat (fs.flatMap packets).length
  received : ch'.ledger.received = ch.ledger.received + .ofNat got.length
  held : ch'.ledger.unacknowledged.Sublist (ch.ledger.unacknowledged ++ fs.flatMap packets)
  speaks : fs.flatMap packets ≠ [] → ch.session.identity ≠ none ∨ ch.ledger.unacknowledged ≠ []
  acks : ∀ count, .acknowledge count ∈ fs →
    ∃ m, m ≤ got.length ∧ count = ch.ledger.received + .ofNat m

namespace Traded

theorem refl (ch : Channel σ) : Traded [] [] ch ch where
  session := rfl
  spoken := (List.append_nil _).symm
  traffic := fun _ hf => nomatch hf
  transmitted := (UInt32.add_zero _).symm
  received := (UInt32.add_zero _).symm
  held := by simp
  speaks := fun h => absurd rfl h
  acks := fun _ h => nomatch h

theorem trans {got got' : List Packet} {fs fs' : List Frame} (h : Traded got fs ch ch')
    (h' : Traded got' fs' ch' ch'') : Traded (got ++ got') (fs ++ fs') ch ch'' where
  session := h'.session.trans h.session
  spoken := by rw [h'.spoken, h.spoken, List.append_assoc]
  traffic := by
    intro f hf
    obtain hf | hf := List.mem_append.1 hf
    · exact h.traffic f hf
    · exact h'.traffic f hf
  transmitted := by
    rw [h'.transmitted, h.transmitted, UInt32.add_assoc, ← UInt32.ofNat_add, List.flatMap_append,
      List.length_append]
  received := by
    rw [h'.received, h.received, UInt32.add_assoc, ← UInt32.ofNat_add, List.length_append]
  held := by
    rw [List.flatMap_append, ← List.append_assoc]
    exact h'.held.trans (h.held.append_right _)
  speaks := by
    intro hne
    rw [List.flatMap_append] at hne
    by_cases hfirst : fs.flatMap packets = []
    · rw [hfirst, List.nil_append] at hne
      obtain hi | hu := h'.speaks hne
      · rw [h.session] at hi
        exact .inl hi
      · right
        intro hnil
        have hheld := h.held
        rw [hnil, hfirst] at hheld
        exact hu (List.sublist_nil.1 hheld)
    · exact h.speaks hfirst
  acks := by
    intro count hcount
    obtain hcount | hcount := List.mem_append.1 hcount
    · obtain ⟨m, hm, heq⟩ := h.acks count hcount
      refine ⟨m, ?_, heq⟩
      rw [List.length_append]
      omega
    · obtain ⟨m, hm, heq⟩ := h'.acks count hcount
      refine ⟨got.length + m, ?_, ?_⟩
      · rw [List.length_append]
        omega
      · rw [heq, h.received, UInt32.add_assoc, UInt32.ofNat_add]

/-- A frame of traffic that neither sends nor acknowledges. -/
theorem ask {f : Frame} (htraffic : f.IsTraffic) (hregular : f.Regular) (hnone : f.packets = [])
    (hcount : ∀ count, f ≠ .acknowledge count) : Traded [] [f] ch (ch.say [f]) where
  session := rfl
  spoken := spoken_say (regular_singleton hregular)
  traffic := fun g hg => List.mem_singleton.1 hg ▸ htraffic
  transmitted := by simp [hnone]
  received := (UInt32.add_zero _).symm
  held := by simp [hnone]
  speaks := by simp [hnone]
  acks := fun count h => absurd (List.mem_singleton.1 h).symm (hcount count)

theorem setLedger (hw : ch.Wired l rest) {l' : Ledger} {got : List Packet}
    (htransmitted : l'.transmitted = l.transmitted)
    (hreceived : l'.received = l.received + .ofNat got.length)
    (hheld : l'.unacknowledged.Sublist l.unacknowledged) : Traded got [] ch (ch.setLedger l') where
  session := rfl
  spoken := (List.append_nil _).symm
  traffic := fun _ hf => nomatch hf
  transmitted := by
    rw [(hw.setLedger l').ledger_eq, hw.ledger_eq, htransmitted]
    exact (UInt32.add_zero _).symm
  received := by rw [(hw.setLedger l').ledger_eq, hw.ledger_eq, hreceived]
  held := by
    rw [(hw.setLedger l').ledger_eq, hw.ledger_eq, List.flatMap_nil, List.append_nil]
    exact hheld
  speaks := fun h => absurd rfl h
  acks := fun _ h => nomatch h

/-- Packets in SEND frames, and what the ledger makes of them. -/
theorem send (hw : ch.Wired l rest) (ps : List Packet) {l' : Ledger}
    (htransmitted : l'.transmitted = l.transmitted + .ofNat ps.length)
    (hreceived : l'.received = l.received)
    (hheld : l'.unacknowledged.Sublist (l.unacknowledged ++ ps))
    (hspeaks : ps ≠ [] → ch.session.identity ≠ none ∨ l.unacknowledged ≠ []) :
    Traded [] (sends ps) ch ((ch.say (sends ps)).setLedger l') where
  session := rfl
  spoken := spoken_say fun f hf => regular_of_mem_sends hf
  traffic := by
    intro f hf
    obtain ⟨run, -, rfl⟩ := List.mem_map.1 hf
    trivial
  transmitted := by
    rw [((hw.say _).setLedger l').ledger_eq, hw.ledger_eq, packets_sends, htransmitted]
  received := by
    rw [((hw.say _).setLedger l').ledger_eq, hw.ledger_eq, hreceived]
    exact (UInt32.add_zero _).symm
  held := by
    rw [((hw.say _).setLedger l').ledger_eq, hw.ledger_eq, packets_sends]
    exact hheld
  speaks := by
    rw [packets_sends, hw.ledger_eq]
    exact hspeaks
  acks := by
    intro count hcount
    obtain ⟨run, -, heq⟩ := List.mem_map.1 hcount
    cases heq

theorem of_act {may : Packet → Prop} {clears : Prop} (hact : ch.Act may clears ch')
    (hmay : ∀ p, may p → ch.session.identity ≠ none) (hopen : ch'.session.isClosed = false) :
    ∃ fs, Traded [] fs ch ch' := by
  cases hact with
  | @send l rest hw hlive ps hps =>
    refine ⟨sends ps, .send hw ps (Ledger.transmitted_foldl_recordSent ps l)
      (Ledger.received_foldl_recordSent ps l) ?_ ?_⟩
    · have hcounted := Ledger.unacknowledged_foldl_recordSent ps l
      exact hcounted ▸ List.Sublist.refl _
    · intro hne
      obtain ⟨p, hp⟩ := List.exists_mem_of_ne_nil ps hne
      exact .inl (hmay p (hps p hp))
  | @resend l rest hw hlive hbuffer =>
    have hflushed : Traded [] (sends l.unacknowledged) ch
        ((ch.say (sends l.unacknowledged)).setLedger l.flush.1) := by
      refine .send hw _ (l.transmitted_flush hbuffer) l.received_flush ?_ ?_
      · rw [Ledger.unacknowledged_flush]
        exact List.sublist_append_left _ _
      · exact fun _ => .inr (Ledger.unacknowledged_ne_nil hbuffer)
    exact ⟨_, hflushed.trans (.ask trivial regular_requestAcknowledgment rfl fun _ h => nomatch h)⟩
  | ask hw hlive hnamed =>
    exact ⟨_, .ask trivial regular_requestAcknowledgment rfl fun _ h => nomatch h⟩
  | @answer l rest hw hlive =>
    refine ⟨[.acknowledge l.received], rfl, spoken_say (regular_singleton (regular_acknowledge _)),
      ?_, ?_, ?_, ?_, ?_, ?_⟩
    · exact fun f hf => List.mem_singleton.1 hf ▸ trivial
    · exact (UInt32.add_zero _).symm
    · exact (UInt32.add_zero _).symm
    · exact List.sublist_append_left _ _
    · exact fun h => absurd rfl h
    · intro count hcount
      cases List.mem_singleton.1 hcount
      refine ⟨0, Nat.zero_le _, ?_⟩
      rw [hw.ledger_eq]
      exact (UInt32.add_zero _).symm
  | clear hw =>
    exact ⟨[], .setLedger hw rfl (UInt32.add_zero _).symm (List.nil_sublist _)⟩
  | fail hw hbuffer hover =>
    rw [hover.session] at hopen
    cases hopen

end Traded

/-! ## Buffers that nothing clears -/

theorem Wired.prefix_of_eq {l l' : Ledger} {rest rest' : List (Reactor σ)} (hw : ch.Wired l rest)
    (hw' : ch'.Wired l' rest') (h : l'.unacknowledged = l.unacknowledged) :
    ch.ledger.unacknowledged <+: ch'.ledger.unacknowledged := by
  refine ⟨[], ?_⟩
  rw [hw.ledger_eq, hw'.ledger_eq, h, List.append_nil]

/-- An act holds what it does not see acknowledged. -/
theorem Act.holds {may : Packet → Prop} (hact : ch.Act may False ch') :
    ch.ledger.unacknowledged <+: ch'.ledger.unacknowledged := by
  cases hact with
  | @send l rest hw hlive ps hps =>
    rw [hw.ledger_eq, ((hw.say _).setLedger _).ledger_eq, Ledger.unacknowledged_foldl_recordSent]
    exact List.prefix_append _ _
  | @resend l rest hw hlive hbuffer =>
    exact hw.prefix_of_eq (((hw.setLedger _).say _).say _) l.unacknowledged_flush
  | ask hw hlive hnamed => exact List.prefix_rfl
  | answer hw hlive => exact List.prefix_rfl
  | clear hw hclears => exact hclears.elim
  | fail hw hbuffer hover =>
    exact hw.prefix_of_eq ((hw.setLedger _).of_reactors_eq hover.reactors) hbuffer

end Channel
end Courier
