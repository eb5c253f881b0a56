import Courier.Proofs.Steps
import Courier.Session

/-! # Steps of the handshake

Which phase each step is taken from, and what it leaves. No step is taken from `closed` or from
`identified`, and only the last gives an identity.
-/
set_option autoImplicit false

namespace Courier

open Courier.Wire

namespace Session

variable {s s' : Session} {d : List Demand}

theorem require_eq_ok_iff {phase : Phase} {op : String} :
    s.require phase op = .ok () ↔ s.phase = phase := by
  unfold require
  by_cases h : s.phase = phase
  · simp [h]
  · simp [h]

theorem connect_eq_ok_iff :
    s.connect = .ok s' ↔ s.phase = .unconnected ∧ s' = { s with phase := .connected } := by
  unfold connect
  by_cases h : s.phase = .unconnected
  · rw [require_eq_ok_iff.2 h, ok_bind]
    simp [h, pure, Except.pure, eq_comm]
  · rw [require, if_neg h, error_bind]
    simp [h]

theorem attach_eq_ok_iff {a : Address} : s.attach a = .ok s' ↔
    s.phase = .connected ∧ s' = { s with attachedAddress := some a, phase := .attached } := by
  unfold attach
  by_cases h : s.phase = .connected
  · rw [require_eq_ok_iff.2 h, ok_bind]
    simp [h, pure, Except.pure, eq_comm]
  · rw [require, if_neg h, error_bind]
    simp [h]

theorem establish_eq_ok_iff {id : SessionId} : s.establish id = .ok (s', d) ↔
    s.phase = .attached ∧ s' = { s with sessionId := some id, phase := .established } ∧
      d = s.demands .credential := by
  unfold establish
  by_cases h : s.phase = .attached
  · rw [require_eq_ok_iff.2 h, ok_bind]
    simp [h, pure, Except.pure, eq_comm]
  · rw [require, if_neg h, error_bind]
    simp [h]

theorem authenticate_eq_ok_iff : s.authenticate = .ok s' ↔
    s.phase = .established ∧ s' = { s with phase := .authenticated } := by
  unfold authenticate
  by_cases h : s.phase = .established
  · rw [require_eq_ok_iff.2 h, ok_bind]
    simp [h, pure, Except.pure, eq_comm]
  · rw [require, if_neg h, error_bind]
    simp [h]

theorem identify_eq_ok_iff {a : Address} : s.identify a = .ok (s', d) ↔
    s.phase = .authenticated ∧ s' = { s with identity := some a, phase := .identified } ∧
      d = s.demands .fetch := by
  unfold identify
  by_cases h : s.phase = .authenticated
  · rw [require_eq_ok_iff.2 h, ok_bind]
    simp [h, pure, Except.pure, eq_comm]
  · rw [require, if_neg h, error_bind]
    simp [h]

theorem close_of_closed (h : s.isClosed = true) : s.close = s := by
  have hphase : s.phase = .closed := by simpa [isClosed] using h
  cases s
  cases hphase
  rfl

inductive Step : Session → Session → Prop where
  | connect {s s' : Session} (h : s.connect = .ok s') : Step s s'
  | attach {s s' : Session} (a : Address) (h : s.attach a = .ok s') : Step s s'
  | establish {s s' : Session} (id : SessionId) (d : List Demand)
      (h : s.establish id = .ok (s', d)) : Step s s'
  | authenticate {s s' : Session} (h : s.authenticate = .ok s') : Step s s'
  | identify {s s' : Session} (a : Address) (d : List Demand)
      (h : s.identify a = .ok (s', d)) : Step s s'

theorem Step.role (h : s.Step s') : s'.role = s.role := by
  cases h with
  | connect h => rw [(connect_eq_ok_iff.1 h).2]
  | attach a h => rw [(attach_eq_ok_iff.1 h).2]
  | establish id d h => rw [(establish_eq_ok_iff.1 h).2.1]
  | authenticate h => rw [(authenticate_eq_ok_iff.1 h).2]
  | identify a d h => rw [(identify_eq_ok_iff.1 h).2.1]

/-- A step leaves the deadline alone. -/
theorem Step.schedule (h : s.Step s') : s'.timing = s.timing ∧ s'.startedAt = s.startedAt := by
  cases h with
  | connect h => simp [(connect_eq_ok_iff.1 h).2]
  | attach a h => simp [(attach_eq_ok_iff.1 h).2]
  | establish id d h => simp [(establish_eq_ok_iff.1 h).2.1]
  | authenticate h => simp [(authenticate_eq_ok_iff.1 h).2]
  | identify a d h => simp [(identify_eq_ok_iff.1 h).2.1]

theorem Step.phase (h : s.Step s') : s.phase ≠ .identified ∧ s.phase ≠ .closed := by
  have hphase : s.phase = .unconnected ∨ s.phase = .connected ∨ s.phase = .attached ∨
      s.phase = .established ∨ s.phase = .authenticated := by
    cases h with
    | connect h => exact .inl (connect_eq_ok_iff.1 h).1
    | attach a h => exact .inr (.inl (attach_eq_ok_iff.1 h).1)
    | establish id d h => exact .inr (.inr (.inl (establish_eq_ok_iff.1 h).1))
    | authenticate h => exact .inr (.inr (.inr (.inl (authenticate_eq_ok_iff.1 h).1)))
    | identify a d h => exact .inr (.inr (.inr (.inr (identify_eq_ok_iff.1 h).1)))
  obtain h | h | h | h | h := hphase <;> rw [h] <;> decide

theorem Step.isOpen (h : s.Step s') : s.isClosed = false := by
  simp [isClosed, h.phase.2]

/-- No step closes a session. -/
theorem Step.open_after (h : s.Step s') : s'.isClosed = false := by
  cases h with
  | connect h => rw [(connect_eq_ok_iff.1 h).2]; rfl
  | attach a h => rw [(attach_eq_ok_iff.1 h).2]; rfl
  | establish id d h => rw [(establish_eq_ok_iff.1 h).2.1]; rfl
  | authenticate h => rw [(authenticate_eq_ok_iff.1 h).2]; rfl
  | identify a d h => rw [(identify_eq_ok_iff.1 h).2.1]; rfl

/-- A step keeps the identity, or it is the last one. -/
theorem Step.identity (h : s.Step s') : s'.identity = s.identity ∨ s'.phase = .identified := by
  cases h with
  | connect h => exact .inl (by rw [(connect_eq_ok_iff.1 h).2])
  | attach a h => exact .inl (by rw [(attach_eq_ok_iff.1 h).2])
  | establish id d h => exact .inl (by rw [(establish_eq_ok_iff.1 h).2.1])
  | authenticate h => exact .inl (by rw [(authenticate_eq_ok_iff.1 h).2])
  | identify a d h => exact .inr (by rw [(identify_eq_ok_iff.1 h).2.1])

end Session
end Courier
