import Courier.Proofs.Client.Retention
import Courier.Proofs.Ledger.Snapshots
import Courier.Proofs.Node.WireAccount

/-! # Taking up where an earlier connection was cut off

A client resumes from the bytes of a saved ledger: what was unacknowledged is sent again, as new,
behind all that the connection has queued and counted so far. Bytes that open with no saved ledger
change nothing (`resume_sends_pending`).
-/
set_option autoImplicit false

namespace Courier

open Courier.Wire Courier.Wire.Frame

variable {σ : Type} {n : Node σ} {c : ChannelId} {ch : Channel σ} {m : Ledger} {w : ClientWiring}

/-- The second ledger has these packets behind those of the first, and counts them as sent. -/
structure Ledger.Gains (ps : List Packet) (m m' : Ledger) : Prop where
  received : m'.received = m.received
  unacknowledged : m'.unacknowledged = m.unacknowledged ++ ps
  sent : m'.sent.toNat = (m.sent.toNat + ps.length) % 2 ^ 32
  transmitted : m'.transmitted.toNat = (m.transmitted.toNat + ps.length) % 2 ^ 32

theorem Ledger.gains_recordSent (ps : List Packet) (m : Ledger) :
    m.Gains ps (ps.foldl recordSent m) where
  received := m.received_foldl_recordSent ps
  unacknowledged := m.unacknowledged_foldl_recordSent ps
  sent := by
    rw [sent_foldl_recordSent, UInt32.toNat_add, UInt32.toNat_ofNat', Nat.add_mod_mod]
  transmitted := by
    rw [transmitted_foldl_recordSent, UInt32.toNat_add, UInt32.toNat_ofNat', Nat.add_mod_mod]

/-- The second channel has sent these packets, with a request for an acknowledgment, and its ledger
counts them. -/
structure Channel.TakesUp (w : ClientWiring) (m : Ledger) (ps : List Packet)
    (ch ch' : Channel σ) : Prop extends ch.Solicited ps ch' where
  client : ∃ m', ch'.IsClient w m' ∧ m.Gains ps m'

theorem client_takes_up (h : ch.IsClient w m) (hch : n.channel? c = some ch) (hlive : ch.Live)
    {saved : ByteArray} {l : Ledger} (hkept : Ledger.restore saved = .ok (some l)) :
    ∃ n' ch', (resume c saved).apply n = (.ok true, n') ∧ n'.channel? c = some ch' ∧
      ch.TakesUp w m l.unacknowledged ch' := by
  obtain ⟨rest, hrest, hw⟩ := h.wired
  by_cases hnone : l.unacknowledged = []
  · refine ⟨n, ch, apply_resume_of_empty hkept hnone, hch, ?_⟩
    rw [hnone]
    exact ⟨.nothing ch, m, h, m.gains_recordSent []⟩
  · obtain ⟨n', happly, hquiet⟩ := apply_resume hkept hnone hch hw hlive
    obtain ⟨-, -, hqueue⟩ := ch.solicited_say hnone
    exact ⟨n', _, happly, (hquiet.channel? c).trans (Node.channel?_modify_of_some hch _),
      ⟨rfl, rfl, hqueue⟩, _, ⟨h.role, rest, hrest, ((hw.say _).setLedger _).say _⟩,
      m.gains_recordSent _⟩

/-- A client that resumes from a saved ledger sends what was pending, once and in order, and asks
once for an acknowledgment; its own ledger goes on with these packets behind its own. From other
bytes it does not resume, and nothing changes. -/
theorem resume_sends_pending (h : ch.IsClient w m) (hch : n.channel? c = some ch)
    (hlive : ch.Live) :
    (∀ (l : Ledger) (t : ByteArray), l.buffer.size < 2 ^ 32 →
      ∃ n' ch', (resume c (l.save ++ t)).apply n = (.ok true, n') ∧ n'.channel? c = some ch' ∧
        ch.TakesUp w m l.unacknowledged ch') ∧
    ∀ saved : ByteArray,
      (¬ ∃ (l : Ledger) (t : ByteArray), l.buffer.size < 2 ^ 32 ∧ saved = l.save ++ t) →
      (resume c saved).apply n = (.ok false, n) ∨
        ∃ text, (resume c saved).apply n = (.error (.snapshot text), n) := by
  constructor
  · intro l t hcount
    have htakes := client_takes_up h hch hlive (Ledger.restore_save hcount t)
    exact htakes
  · intro saved hnot
    cases hrestore : Ledger.restore saved with
    | error f =>
      obtain ⟨text, rfl⟩ := Ledger.restore_eq_error hrestore
      exact .inr ⟨text, apply_resume_of_error hrestore⟩
    | ok found =>
    cases found with
    | none => exact .inl (apply_resume_of_none hrestore)
    | some l =>
      obtain ⟨hcount, -, t, heq⟩ := Ledger.restore_eq_some_iff.1 hrestore
      exact absurd ⟨l, t, hcount, heq⟩ hnot

/-- A ledger saved under version 9. -/
def foreignSaved : ByteArray := [0, 0, 0, 9, 0, 0, 0, 0, 0, 0, 0, 0, 0, 0, 0, 0].toByteArray

/-- An identified client whose one packet is not acknowledged sends two that were saved. -/
theorem resume_sends_pending_sentRun :
    sentRun.phase = .identified ∧ ∃ ch m,
      sentRun.node.channel? sentRun.channel = some ch ∧ ch.IsClient Duplex.smallClient m ∧
      m.unacknowledged = [smallPacket] ∧
      (∃ n' ch', (resume sentRun.channel (savedLedger.save ++ .empty)).apply sentRun.node =
          (.ok true, n') ∧ n'.channel? sentRun.channel = some ch' ∧
        ch.TakesUp Duplex.smallClient m [smallPacket, smallPacket] ch') ∧
      ((resume sentRun.channel foreignSaved).apply sentRun.node = (.ok false, sentRun.node) ∨
        ∃ text, (resume sentRun.channel foreignSaved).apply sentRun.node =
          (.error (.snapshot text), sentRun.node)) := by
  have hfound : (sentRun.node.channel? sentRun.channel).map
      (fun ch => decide (ch.Live ∧ ch.ledger.unacknowledged = [smallPacket])) = some true := by
    decide +kernel
  obtain ⟨ch, m, hch, hclient⟩ := client_run (.start ()) Duplex.smallClient [] 0 [.receive
    (.session (some ⟨⟨#[115]⟩, by decide, by decide⟩)), .receive (.identify
    (some smallPacket.sender)), .send [smallPacket]]
  change sentRun.node.channel? sentRun.channel = some ch at hch
  rw [hch, Option.map_some, Option.some_inj, decide_eq_true_eq] at hfound
  obtain ⟨hlive, hpending⟩ := hfound
  obtain ⟨rest, -, hw⟩ := hclient.wired
  rw [hw.ledger_eq] at hpending
  obtain ⟨hresumes, hother⟩ := resume_sends_pending hclient hch hlive
  refine ⟨by decide +kernel, ch, m, hch, hclient, hpending,
    hresumes savedLedger .empty (by decide), hother foreignSaved ?_⟩
  rintro ⟨l, t, hcount, heq⟩
  have hforeign := Ledger.restore_eq_none_iff.2
    (show 16 ≤ foreignSaved.size ∧ foreignSaved.extract 0 4 ≠ Ledger.versionBytes by
      decide +kernel)
  rw [heq, Ledger.restore_save hcount] at hforeign
  cases hforeign

end Courier
