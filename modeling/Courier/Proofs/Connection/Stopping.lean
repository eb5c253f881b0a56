import Courier.Proofs.Connection.Intake

/-! # What a connection stops at

Of what a connection does, some ends its turns, and nothing is done behind it (`Stopped.last`). It
stops because its channel is closed or the peer says goodbye, or else because there are no more frames
in what arrives, whatever that will be (`Stopped.why`). So a connection with nothing to do has taken
all the frames, unless it was cut off (`Stopped.frames_eq`).
-/
set_option autoImplicit false

namespace Courier

open Courier.Wire Courier.Stream

variable {σ : Type}

namespace Deed

/-- The channel is closed, or the peer says goodbye. -/
def cuts : Deed → Bool
  | leave | timeOut _ => true
  | take f _ closed => f = .detach ∨ closed = true
  | _ => false

def ends : Deed → Bool
  | depart | refuse _ => true
  | d => d.cuts

theorem ends_of_cuts {d : Deed} (h : d.cuts = true) : d.ends = true := by
  cases d <;> first | rfl | exact h

end Deed

theorem Connection.reading_perform (k : Connection) (now : Nat) (n : Node σ) (d : Deed) :
    (k.perform now n d).1.reading = (k.reading && !d.ends) := by
  cases d with
  | take f next closed =>
    unfold perform
    by_cases hstop : f = .detach ∨ closed = true <;> simp [Deed.ends, Deed.cuts, hstop, windDown]
  | _ => simp [perform, Deed.ends, Deed.cuts, windDown, abort]

theorem Connection.greeted_perform (k : Connection) (now : Nat) (n : Node σ) (d : Deed)
    (h : k.greeted = true) : (k.perform now n d).1.greeted = true := by
  cases d with
  | greet next => rfl
  | take f next closed =>
    unfold perform
    simp only []
    split <;> exact h
  | _ => exact h

/-! ## Records -/

/-- What is so of each deed of a record is so when one more is done. -/
theorem forall_deed_snoc {P : List TimedDeed → TimedDeed → List TimedDeed → Prop}
    {record : List TimedDeed} {last : TimedDeed}
    (hold : ∀ before e after, record = before ++ e :: after → P before e (after ++ [last]))
    (hlast : P record last []) :
    ∀ before e after, record ++ [last] = before ++ e :: after → P before e after := by
  intro before e after h
  obtain rfl | ⟨after, last', rfl⟩ := after.eq_nil_or_concat
  · obtain ⟨rfl, heq⟩ := List.append_inj' h rfl
    cases heq
    exact hlast
  · rw [List.concat_eq_append, ← List.cons_append, ← List.append_assoc] at h
    obtain ⟨heq, hsame⟩ := List.append_inj' h rfl
    cases hsame
    rw [List.concat_eq_append]
    exact hold before e after heq

/-! ## Why a connection stops -/

/-- Whatever else arrives, the header is behind the connection or is never there, and there are no
more frames. -/
def Service.Exhausted (s : Service σ) : Prop :=
  ∀ more, Header.check (s.fed ++ inflow (s.connection.arrivals ++ more)) = .ok () →
    s.connection.greeted = true ∧
      (Frame.decodeAll
        (s.connection.reader.unused ++ inflow (s.connection.arrivals ++ more))).1 = []

theorem Service.Exhausted.of_same {s s' : Service σ} (h : s.Exhausted) (hfed : s'.fed = s.fed)
    (harrivals : s'.connection.arrivals = s.connection.arrivals)
    (hreader : s'.connection.reader = s.connection.reader)
    (hgreeted : s'.connection.greeted = s.connection.greeted) : s'.Exhausted := by
  unfold Exhausted
  rw [hfed, harrivals, hreader, hgreeted]
  exact h

structure Stopped (s : Service σ) : Prop where
  reading : s.connection.reading = !s.record.any (·.deed.ends)
  last : ∀ before e after, s.record = before ++ e :: after → e.deed.ends = true → after = []
  why : s.connection.reading = false →
    (∃ before e, s.record = before ++ [e] ∧ e.deed.cuts = true) ∨ s.Exhausted

theorem inflow_of_end {a : Arrival} (h : a.isEnd = true) (rest : List Arrival) :
    inflow (a :: rest) = .empty := by
  cases a with
  | bytes b => cases h
  | _ => rfl

namespace Stopped

variable {s s' : Service σ}

/-- The stream has ended where the reader lacks bytes. -/
theorem exhausted_of_end (hintake : Intake s) (hwaits : s.connection.Waits) {a : Arrival}
    {rest : List Arrival} (harrivals : s.connection.arrivals = a :: rest)
    (hend : a.isEnd = true) : s.Exhausted := by
  intro more hcheck
  rw [harrivals, List.cons_append, inflow_of_end hend, ByteArray.append_empty] at hcheck ⊢
  unfold Connection.Waits at hwaits
  cases hgreeted : s.connection.greeted with
  | true =>
    rw [if_pos hgreeted] at hwaits
    exact ⟨rfl, frame_waiting hwaits⟩
  | false =>
    rw [if_neg (by simp [hgreeted])] at hwaits
    have hshort := header_waiting hwaits
    rw [(hintake.before hgreeted).1] at hshort
    rw [Header.check_of_size_lt hshort] at hcheck
    cases hcheck

/-- The bytes cannot be read. -/
theorem exhausted_of_halts (hintake : Intake s) {f : ReadFault} (hhalts : s.connection.Halts f) :
    s.Exhausted := by
  intro more hcheck
  unfold Connection.Halts at hhalts
  cases hgreeted : s.connection.greeted with
  | true =>
    rw [if_pos hgreeted] at hhalts
    exact ⟨rfl, frame_failed hhalts _⟩
  | false =>
    rw [if_neg (by simp [hgreeted])] at hhalts
    rw [← (hintake.before hgreeted).1] at hcheck
    exact absurd hcheck (header_failed hhalts _)

/-- What ends the turns without cutting them off ends the frames. -/
theorem exhausted_of_due (hintake : Intake s) {d : Deed}
    (hdue : s.connection.Due s.now s.node d) (hends : d.ends = true) (hnot : d.cuts = false) :
    s.Exhausted := by
  cases hdue with
  | leave => cases hnot
  | tick =>
    unfold Connection.tickDeed at hends hnot
    split at hends
    · rename_i elapsed helapsed
      rw [helapsed] at hnot
      cases hnot
    · cases hends
  | read hopen hearly hreads =>
    cases hreads with
    | greet => cases hends
    | take => cases hnot.symm.trans hends
    | feed => cases hends
    | depart hgreeted hwaits harrivals =>
      exact exhausted_of_end hintake hwaits harrivals rfl
    | malformed hhalts => exact exhausted_of_halts hintake hhalts
    | cutOff hwaits harrivals hend => exact exhausted_of_end hintake hwaits harrivals hend

/-- Nothing has been done. -/
theorem of_same (h : Stopped s) (hrecord : s'.record = s.record)
    (hreading : s'.connection.reading = s.connection.reading)
    (hexhausted : s.Exhausted → s'.Exhausted) : Stopped s' := by
  refine ⟨?_, ?_, ?_⟩ <;> rw [hrecord]
  · rw [hreading]
    exact h.reading
  · exact h.last
  · rw [hreading]
    exact fun hr => (h.why hr).imp_right hexhausted

theorem did (hintake : Intake s) (h : Stopped s) {d : Deed}
    (hd : s.connection.deed? s.now s.node = some d) : Stopped (s.did d) := by
  obtain ⟨hreading, -, hdue⟩ := Connection.due_of_deed? hd
  have hnone : s.record.any (·.deed.ends) = false := by simpa [hreading] using h.reading
  have hnow : (s.did d).connection.reading = !d.ends := by
    have hperform := s.connection.reading_perform s.now s.node d
    rwa [hreading, Bool.true_and] at hperform
  refine ⟨?_, ?_, fun hover => ?_⟩
  · have hany : (s.did d).record.any (·.deed.ends) = d.ends := by
      show (s.record ++ [_]).any _ = _
      rw [List.any_append, hnone]
      simp
    rw [hnow, hany]
  · refine forall_deed_snoc (fun before e after heq hends => ?_) fun _ => rfl
    have hmem : e ∈ s.record := heq ▸ List.mem_append_cons_self
    exact absurd hends (List.any_eq_false.1 hnone e hmem)
  · rw [hnow, Bool.not_eq_false'] at hover
    cases hcuts : d.cuts with
    | true => exact .inl ⟨s.record, _, rfl, hcuts⟩
    | false =>
      have hexhausted := exhausted_of_due hintake hdue hover hcuts
      have hfed (hpiece : d.piece? = none) : (s.did d).fed = s.fed := by
        rw [Service.fed, Intake.pieces_did, hpiece]
        exact congrArg _ (List.append_nil _)
      -- What ends the turns leaves the reader as it is.
      cases d with
      | depart => exact .inr (hexhausted.of_same (hfed rfl) rfl rfl rfl)
      | refuse f => exact .inr (hexhausted.of_same (hfed rfl) rfl rfl rfl)
      | _ => cases hcuts.symm.trans hover

theorem move (hintake : Intake s) (h : Stopped s) (hmove : s.Move s') : Stopped s' := by
  cases hmove with
  | arrive a =>
    refine h.of_same rfl rfl fun hexhausted more => ?_
    have hbehind := hexhausted (a :: more)
    rwa [← List.singleton_append, ← List.append_assoc] at hbehind
  | turn hd => exact h.did hintake hd
  | write =>
    obtain ⟨writing, sink, hconnection⟩ := s.connection_wrote
    refine h.of_same rfl (by rw [hconnection]) fun hexhausted => hexhausted.of_same rfl ?_ ?_ ?_ <;>
      rw [hconnection]
  | elsewhere hnot => exact h.of_same rfl rfl id
  | pass hrest hdue => exact h.of_same rfl rfl id

/-- When there is nothing to do, all the frames behind the header have been taken, or the connection
was cut off. -/
theorem frames_eq (hintake : Intake s) (h : Stopped s) (hinterval : 0 < s.connection.interval)
    (hrest : s.atRest = true) (hheader : s.input.extract 0 Header.size = Header.bytes) :
    s.frames = (Frame.decodeAll (restOf s.input Header.size)).1 ∨
      ∃ before e, s.record = before ++ [e] ∧ e.deed.cuts = true := by
  rw [← Header.check_eq_ok_iff] at hheader
  by_cases hreading : s.connection.reading = true
  · obtain ⟨-, hwaits, harrivals⟩ := s.waits_of_atRest hrest hreading hinterval
    refine .inl (hintake.frames_eq ?_ hwaits harrivals)
    by_contra hnot
    rw [Header.check_of_size_lt (hintake.size_lt (Bool.eq_false_iff.2 hnot) hwaits harrivals)]
      at hheader
    cases hheader
  · obtain hcut | hexhausted := h.why (Bool.eq_false_iff.2 hreading)
    · exact .inr hcut
    · have hnone := hexhausted []
      rw [List.append_nil, ← hintake.input_eq] at hnone
      obtain ⟨hgreeted, hnil⟩ := hnone hheader
      rw [hintake.decodeAll_eq hgreeted, hnil, List.append_nil]
      exact .inl rfl

end Stopped

theorem stopped_run {w : ServerWiring σ} {now : Nat} {n : Node σ} {acts : List (ServiceAct σ)}
    {s : Service σ} (h : (Service.start w now n).run acts = some s) : Intake s ∧ Stopped s := by
  refine Service.run_keeps (P := fun s => Intake s ∧ Stopped s)
    (fun hmove hs => ⟨hs.1.move hmove, hs.2.move hs.1 hmove⟩) h
    ⟨intake_start w now n, rfl, ?_, nofun⟩
  intro before e after heq
  cases before <;> cases heq

/-- What arrives on a closed channel is not looked at. -/
theorem open_at_input {w : ServerWiring σ} {now : Nat} {n : Node σ} {acts : List (ServiceAct σ)}
    {s : Service σ} (h : (Service.start w now n).run acts = some s) :
    ∀ e ∈ s.record, e.deed.isInput = true → e.phase ≠ .closed := by
  have hkept := Service.run_keeps (P := fun s => (∃ ch, Alive w now ⟨n.channels.length⟩ s ch) ∧
    ∀ e ∈ s.record, e.deed.isInput = true → e.phase ≠ .closed) (fun hmove hs => ?_) h
    ⟨⟨_, alive_start w now n⟩, nofun⟩
  · exact hkept.2
  · obtain ⟨⟨ch, halive⟩, hold⟩ := hs
    refine ⟨(halive.move hmove).imp fun _ h => h.1, ?_⟩
    cases hmove with
    | turn hd =>
      intro e he hinput
      obtain he | he := List.mem_append.1 he
      · exact hold e he hinput
      · obtain rfl := List.mem_singleton.1 he
        obtain ⟨-, -, hdue⟩ := Connection.due_of_deed? hd
        cases hdue with
        | leave => cases hinput
        | tick =>
          revert hinput
          unfold Connection.tickDeed
          split <;> nofun
        | read hopen =>
          rw [halive.isClosed] at hopen
          rw [halive.phase]
          exact of_decide_eq_false hopen
    | _ => exact hold

end Courier
