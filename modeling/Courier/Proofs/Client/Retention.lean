import Courier.Proofs.Client.Run
import Courier.Proofs.Duplex.AtLeastOnce

/-! # When packets leave a client's buffer

Packets that a client has sent stay in its buffer, whatever happens on the connection, until an
ACKNOWLEDGE tells the number that was transmitted or a SESSION arrives
(`packets_stay_until_acknowledged_or_session`). The ledger is emptied before the session looks at
the SESSION: one that the session refuses closes the channel, and the packets that were to be saved
are lost (`refused_session_loses_packets`).
-/
set_option autoImplicit false

namespace Courier

open Courier.Wire Courier.Wire.Frame Courier.Routing

variable {σ : Type} {ch ch' : Channel σ} {l : Ledger} {w : ClientWiring}
  {rest : List (Reactor σ)} {a : ClientAct}

/-! ## One act -/

/-- How an act may leave a channel's buffer: all that was in it is still there, with what is new
behind it; or an ACKNOWLEDGE of all that was transmitted has emptied it; or a SESSION has, by which
the session was established, or which it refused. -/
def Channel.Retains (a : ClientAct) (ch ch' : Channel σ) : Prop :=
  ch.ledger.unacknowledged <+: ch'.ledger.unacknowledged ∨
  (a = .receive (.acknowledge ch.ledger.transmitted) ∧ ch'.ledger.unacknowledged = []) ∨
  ∃ id, a = .receive (.session (some id)) ∧ ch'.ledger = .empty ∧
    (ch.session.phase = .attached ∨ ch'.session.phase = .closed ∧
      ch'.fault = ch.fault.or (some (.step ⟨ch.session.phase, "establish"⟩)))

theorem Channel.ledger_of_reactors_eq (h : ch'.reactors = ch.reactors) :
    ch'.ledger = ch.ledger := by
  rw [ledger, ledger, ledger?, ledger?, h]

theorem Session.establish_eq_error {t : Session} {id : SessionId} {e : InvalidStep}
    (h : t.establish id = .error e) : e = ⟨t.phase, "establish"⟩ := by
  unfold establish at h
  by_cases hphase : t.phase = .attached
  · rw [require_eq_ok_iff.2 hphase] at h
    cases h
  · rw [require, if_neg hphase] at h
    cases h
    rfl

theorem Channel.Presents.retains {id : SessionId} (hw : ch.Wired l rest)
    (h : ch.Presents w id ch') : ch.Retains (.receive (.session (some id))) ch' := by
  -- The ledger is emptied before the session is asked, so it is empty whatever the answer.
  have hempty : (ch.setLedger .empty).ledger = .empty := (hw.setLedger .empty).ledger_eq
  have hfailed : ∀ (before : Channel σ) (f : Fault),
      before.reactors = (ch.setLedger .empty).reactors → (before.failed f).ledger = .empty := by
    intro before f hreactors
    rw [ledger_of_reactors_eq ((before.over_failed f).reactors.trans hreactors), hempty]
  cases h with
  | untimely hestablish =>
    refine .inr (.inr ⟨id, rfl, hfailed _ _ rfl, .inr ⟨?_, ?_⟩⟩)
    · rw [((ch.setLedger .empty).over_failed _).session]
      rfl
    · rw [fault_failed, Session.establish_eq_error hestablish]
      rfl
  | mute hestablish hmute =>
    obtain ⟨hphase, -⟩ := Session.establish_eq_ok_iff.1 hestablish
    exact .inr (.inr ⟨id, rfl, hfailed _ _ rfl, .inl hphase⟩)
  | presented hlive hestablish hauthenticate =>
    obtain ⟨hphase, -⟩ := Session.establish_eq_ok_iff.1 hestablish
    exact .inr (.inr ⟨id, rfl, hempty, .inl hphase⟩)

theorem Channel.Fetches.ledger_eq {address : Address} (h : ch.Fetches address ch') :
    ch'.ledger = ch.ledger := by
  cases h with
  | untimely => exact ledger_of_reactors_eq (ch.over_failed _).reactors
  | mute hidentify => exact ledger_of_reactors_eq (Channel.over_failed _ _).reactors
  | fetched => rfl

/-- Every outcome of an act, by what it leaves in the buffer. -/
theorem Channel.Outcome.retains (hw : ch.Wired l rest) (h : ch.Outcome w l a ch') :
    ch.Retains a ch' := by
  have hset : ∀ (before : Channel σ) (l' : Ledger), before.reactors = ch.reactors →
      (before.setLedger l').ledger = l' :=
    fun before l' hreactors => ((hw.of_reactors_eq hreactors).setLedger l').ledger_eq
  have hkept : ch'.ledger.unacknowledged = l.unacknowledged → ch.Retains a ch' := by
    intro heq
    have hsame : ch'.ledger.unacknowledged = ch.ledger.unacknowledged := by
      rw [heq, hw.ledger_eq]
    exact .inl (hsame ▸ List.prefix_rfl)
  have hsent : ∀ ps : List Packet, ch'.ledger = ps.foldl Ledger.recordSent l →
      ch.Retains a ch' := by
    intro ps heq
    refine .inl ?_
    rw [hw.ledger_eq, heq, Ledger.unacknowledged_foldl_recordSent]
    exact List.prefix_append _ _
  cases h with
  | counts l' hsame => exact hkept (by rw [hset ch l' rfl, hsame])
  | presents h => exact h.retains hw
  | fetches h => exact hkept (by rw [h.ledger_eq, hw.ledger_eq])
  | answers | asks => exact hkept (congrArg Ledger.unacknowledged hw.ledger_eq)
  | clears =>
    refine .inr (.inl ⟨by rw [hw.ledger_eq], ?_⟩)
    rw [hset ch _ rfl]
    rfl
  | resends hf hlive =>
    have hledger : (ch.resent l).ledger = l.flush.1 := hset ch _ rfl
    exact hkept (by rw [hledger, l.unacknowledged_flush])
  | @sends ps hlive => exact hsent ps (hset (ch.say (Frame.sends ps)) _ rfl)
  | @resumes saved kept hrestore hlive =>
    exact hsent kept.unacknowledged (hset (ch.say (Frame.sends kept.unacknowledged)) _ rfl)
  | parts l' hsame h =>
    exact hkept (by rw [ledger_of_reactors_eq h.reactors, hset ch l' rfl, hsame])
  | empties | drops => exact hkept (congrArg Ledger.unacknowledged hw.ledger_eq)

/-! ## Every run -/

namespace ClientRun

def ledger (r : ClientRun σ) : Ledger := r.node.ledgerAt r.channel

def phase (r : ClientRun σ) : Phase := r.node.phaseAt r.channel

/-- The first fault on the connection. -/
def fault? (r : ClientRun σ) : Option Fault := (r.node.channel? r.channel).bind (·.fault)

end ClientRun

/-- After any run, an act leaves all that is in the buffer there, or it is an ACKNOWLEDGE of all
that was transmitted, or it is a SESSION. A SESSION that comes in another phase than `attached` is
refused, which closes the channel, and the ledger is emptied all the same. -/
theorem packets_stay_until_acknowledged_or_session (n : Node σ) (w : ClientWiring)
    (listeners : List Listener) (now : Nat) (acts : List ClientAct) (a : ClientAct) :
    let r := clientRun n w listeners now acts
    r.ledger.unacknowledged <+: (r.step a).ledger.unacknowledged ∨
    (a = .receive (.acknowledge r.ledger.transmitted) ∧ (r.step a).ledger.unacknowledged = []) ∨
    ∃ id, a = .receive (.session (some id)) ∧ (r.step a).ledger = .empty ∧
      (r.phase = .attached ∨ (r.step a).phase = .closed ∧
        (r.step a).fault? = r.fault?.or (some (.step ⟨r.phase, "establish"⟩))) := by
  intro r
  obtain ⟨ch, l, hch, hclient⟩ := client_run n w listeners now acts
  obtain ⟨ch', l', houtcome, hch', -⟩ := client_step hclient hch a
  obtain ⟨rest, -, hw⟩ := hclient.wired
  have hretains := houtcome.retains hw
  have hbefore : r.node.channel? r.channel = some ch := hch
  have hafter : (r.step a).node.channel? (r.step a).channel = some ch' := hch'
  simp only [ClientRun.ledger, ClientRun.phase, ClientRun.fault?, Node.ledgerAt, Node.phaseAt,
    hbefore, hafter]
  exact hretains

/-- A client that is identified has sent a packet. -/
def sentRun : ClientRun Unit :=
  let id : SessionId := ⟨⟨#[115]⟩, by decide, by decide⟩
  clientRun (.start ()) Duplex.smallClient [] 0 [.receive (.session (some id)),
    .receive (.identify (some smallPacket.sender)), .send [smallPacket]]

/-- A second SESSION is refused, and the packet is in the buffer no more, nor would it be saved. -/
theorem refused_session_loses_packets :
    let id : SessionId := ⟨⟨#[115]⟩, by decide, by decide⟩
    let refused := sentRun.step (.receive (.session (some id)))
    sentRun.phase = .identified ∧ sentRun.ledger.unacknowledged = [smallPacket] ∧
      refused.fault? = some (.step ⟨.identified, "establish"⟩) ∧
      refused.ledger.unacknowledged = [] ∧ refused.ledger.save ≠ sentRun.ledger.save := by
  decide +kernel

end Courier
