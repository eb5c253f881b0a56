import Courier.Proofs.Node.Sending

/-! # What a ledger does about acknowledgments

A live channel that is asked how many packets arrived tells the number; one that is told the number
it has transmitted clears its buffer, and one that is told another number sends its buffer again, if
it holds anything, and asks again. Nothing else happens on the node.
-/
set_option autoImplicit false

namespace Courier

open Courier.Wire Courier.Wire.Frame Courier.Routing

variable {σ : Type} {n n' : Node σ} {c : ChannelId} {ch : Channel σ} {l : Ledger}
  {rest : List (Reactor σ)}

/-! ## The ledger -/

/-- The channel with its buffer sent again and an acknowledgment asked for. -/
def Channel.resent (ch : Channel σ) (l : Ledger) : Channel σ :=
  ((ch.setLedger l.flush.1).say (sends l.unacknowledged)).say [.requestAcknowledgment]

theorem apply_flush_of_empty (hch : n.channel? c = some ch) (hw : ch.Wired l rest)
    (hempty : l.buffer.isEmpty = true) :
    (settleLedger c 2 l.flush.1 l.flush.2).apply n = (.ok (), n) := by
  have hflush : l.flush = (l, []) := by rw [Ledger.flush, if_pos hempty]
  rw [settleLedger, Action.apply_modify_bind, Node.setReactor_eq hch, hflush, hw.setLedger_self,
    Node.modify_const_self n c hch]
  rfl

theorem Ledger.flush_demands (hbuffer : l.buffer.isEmpty = false) :
    l.flush.2 = [.retransmit l.unacknowledged, .requestAcknowledgment] := by
  rw [Ledger.flush, if_neg (by simp [hbuffer])]

theorem apply_flush (hch : n.channel? c = some ch) (hlive : ch.Live)
    (hbuffer : l.buffer.isEmpty = false) : (settleLedger c 2 l.flush.1 l.flush.2).apply n =
      (.ok (), n.modify c fun _ => ch.resent l) := by
  have hset := Node.channel?_modify_of_some hch fun _ => ch.setLedger l.flush.1
  have hresend : (performLedgerDemand c (.retransmit l.unacknowledged)).apply
      (n.modify c fun _ => ch.setLedger l.flush.1) =
      (.ok (), n.modify c fun _ => (ch.setLedger l.flush.1).say (sends l.unacknowledged)) := by
    rw [performLedgerDemand, writePackets_eq (Ledger.unacknowledged_ne_nil hbuffer),
      apply_enqueue_of_live hset (hlive.setLedger _), Node.modify_modify]
    rfl
  have hsaid := Node.channel?_modify_of_some hch fun _ =>
    (ch.setLedger l.flush.1).say (sends l.unacknowledged)
  have hask := apply_writeFrame hsaid ((hlive.setLedger _).say _) regular_requestAcknowledgment
  rw [Node.modify_modify] at hask
  rw [settleLedger, Action.apply_modify_bind, Node.setReactor_eq hch,
    Ledger.flush_demands hbuffer, forM_cons, Action.apply_bind_ok hresend, forM_cons]
  exact Action.apply_bind_ok hask

/-- Nothing can be sent again on a channel that is not live. -/
theorem apply_flush_of_not_live (hch : n.channel? c = some ch) (hnot : ¬ ch.Live)
    (hbuffer : l.buffer.isEmpty = false) : ∃ f,
      (settleLedger c 2 l.flush.1 l.flush.2).apply n =
        (.error f, n.modify c fun _ => ch.setLedger l.flush.1) := by
  have hset := Node.channel?_modify_of_some hch fun _ => ch.setLedger l.flush.1
  have hnot' : ¬ (ch.setLedger l.flush.1).Live := fun h => hnot ⟨h.isOpen, h.writer⟩
  obtain ⟨f, hf⟩ := apply_enqueue_of_not_live (not_live_of_channel? hset hnot')
    (layouts (sends l.unacknowledged))
  refine ⟨f, ?_⟩
  rw [settleLedger, Action.apply_modify_bind, Node.setReactor_eq hch,
    Ledger.flush_demands hbuffer, forM_cons, performLedgerDemand,
    writePackets_eq (Ledger.unacknowledged_ne_nil hbuffer), Action.apply_bind_error hf]

theorem apply_answer (hch : n.channel? c = some ch) (hw : ch.Wired l rest) (hlive : ch.Live) :
    (settleLedger c 2 l l.answerRequest).apply n =
      (.ok (), n.modify c fun _ => ch.say [.acknowledge l.received]) := by
  rw [settleLedger, Action.apply_modify_bind, Node.setReactor_eq hch, hw.setLedger_self,
    Node.modify_const_self n c hch, Ledger.answerRequest, forM_cons]
  exact Action.apply_bind_ok (apply_writeFrame hch hlive (regular_acknowledge _))

theorem apply_answer_of_not_live (hch : n.channel? c = some ch) (hw : ch.Wired l rest)
    (hnot : ¬ ch.Live) : ∃ f,
      (settleLedger c 2 l l.answerRequest).apply n = (.error f, n) := by
  obtain ⟨f, hf⟩ := apply_writeFrame_of_not_live (not_live_of_channel? hch hnot)
    (regular_acknowledge _)
  refine ⟨f, ?_⟩
  rw [settleLedger, Action.apply_modify_bind, Node.setReactor_eq hch, hw.setLedger_self,
    Node.modify_const_self n c hch, Ledger.answerRequest, forM_cons]
  exact Action.apply_bind_error hf

theorem apply_clear (hch : n.channel? c = some ch) :
    (settleLedger c 2 (l.acknowledge l.transmitted).1 (l.acknowledge l.transmitted).2).apply n =
      (.ok (), n.modify c fun _ => ch.setLedger { l with buffer := .empty }) := by
  rw [Ledger.acknowledge, if_pos rfl, settleLedger, Action.apply_modify_bind,
    Node.setReactor_eq hch]
  rfl

/-! ## The event -/

/-- Behind the front nobody heeds acknowledgments. -/
theorem reactAll_acknowledgment {k : Reentry σ} {e : Event}
    (he : e = .acknowledgmentRequested ∨ ∃ count, e = .acknowledgmentReceived count)
    (rest : List (Reactor σ)) (hplain : ∀ r ∈ rest, r.Plain) (i : Nat) (n : Node σ) :
    (reactAll k c e i rest).apply n = (.ok (), n) := by
  obtain ⟨n', hsame, happly⟩ := reactAll_ok (k := k) (c := c) (e := e) (R := fun n n' => n' = n)
    (fun _ => rfl) (fun h h' => h'.trans h) rest (fun r hr i n => ⟨n, rfl, by
      have hr' := hplain r hr
      obtain rfl | ⟨count, rfl⟩ := he <;> cases r with
      | eventLog | detachOnException | reliableDelivery | probe => exact hr'.elim
      | _ => rfl⟩) i n
  rw [happly, hsame]

/-- What the ledger does is all that happens, if it does not fail. -/
theorem quiet_dispatch_acknowledgment (hch : n.channel? c = some ch) (hw : ch.Wired l rest)
    {e : Event} (he : e = .acknowledgmentRequested ∨ ∃ count, e = .acknowledgmentReceived count)
    {ch' : Channel σ} (hledger : ∀ m : Node σ, m.channel? c = some ch →
      (ledgerReacts c 2 l e).apply m = (.ok (), m.modify c fun _ => ch')) :
    Quiet (n.modify c fun _ => ch') (dispatch c e n) := by
  have hnote : Quiet n (n.note c .eventLog (.event e)) := by
    apply quiet_note_event
    intro p hp
    obtain rfl | ⟨count, rfl⟩ := he <;> cases hp
  have hrun : (reaction .full c e l rest).apply (n.note c .eventLog (.event e)) =
      (.ok (), (n.note c .eventLog (.event e)).modify c fun _ => ch') := by
    rw [reaction, Action.apply_bind_ok (hledger _ ((hnote.channel? c).trans hch))]
    exact reactAll_acknowledgment he rest hw.plain 3 _
  rw [dispatch, dispatchWith_eq later_rule.full ⟨ch, hch, hw⟩, settled, hrun]
  exact hnote.modify c fun _ => ch'

variable (hch : n.channel? c = some ch) (hw : ch.Wired l rest)

include hch hw

theorem quiet_answered (hlive : ch.Live) :
    Quiet (n.modify c fun _ => ch.say [.acknowledge l.received])
      (dispatch c .acknowledgmentRequested n) :=
  quiet_dispatch_acknowledgment hch hw (.inl rfl) fun _ hm => apply_answer hm hw hlive

theorem quiet_cleared :
    Quiet (n.modify c fun _ => ch.setLedger { l with buffer := .empty })
      (dispatch c (.acknowledgmentReceived l.transmitted) n) :=
  quiet_dispatch_acknowledgment hch hw (.inr ⟨_, rfl⟩) fun _ hm => apply_clear hm

variable {count : UInt32} (hcount : count ≠ l.transmitted)

include hcount

theorem quiet_resent (hlive : ch.Live) (hbuffer : l.buffer.isEmpty = false) :
    Quiet (n.modify c fun _ => ch.resent l) (dispatch c (.acknowledgmentReceived count) n) := by
  refine quiet_dispatch_acknowledgment hch hw (.inr ⟨_, rfl⟩) fun m hm => ?_
  rw [ledgerReacts, Ledger.acknowledge, if_neg hcount]
  exact apply_flush hm hlive hbuffer

theorem quiet_unheeded (hempty : l.buffer.isEmpty = true) :
    Quiet n (dispatch c (.acknowledgmentReceived count) n) := by
  have hquiet : Quiet (n.modify c fun _ => ch) (dispatch c (.acknowledgmentReceived count) n) :=
    quiet_dispatch_acknowledgment hch hw (.inr ⟨_, rfl⟩) fun m hm => by
      rw [ledgerReacts, Ledger.acknowledge, if_neg hcount, Node.modify_const_self m c hm]
      exact apply_flush_of_empty hm hw hempty
  rw [Node.modify_const_self n c hch] at hquiet
  exact hquiet

end Courier
