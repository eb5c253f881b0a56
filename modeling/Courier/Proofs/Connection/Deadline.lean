import Courier.Proofs.Connection.Stopping

/-! # The handshake's deadline

The deadline of a served connection is checked when it starts and then once in every interval, before
anything that has arrived by then is looked at. The connection times out at the first check at which
the handshake has taken too long and is not over, and at no other; so it is not open and unidentified
later than one interval behind the deadline (`deadline_is_kept`). The invariant is `Punctual`: the next
check is as many intervals behind the start as there were checks.
-/
set_option autoImplicit false

namespace Courier

open Courier.Wire Courier.Stream

variable {σ : Type}

namespace Session

variable {s : Session} {now : Nat}

theorem overrun?_of_past (h : s.Past) : s.overrun? now = none := if_pos h

theorem overrun?_of_early (h : now - s.startedAt ≤ s.timing.handshakeTimeout) :
    s.overrun? now = none := by
  unfold overrun?
  split
  · rfl
  · exact if_neg (Nat.not_lt.2 h)

theorem overrun?_of_late (hnot : ¬ s.Past)
    (h : s.timing.handshakeTimeout < now - s.startedAt) :
    s.overrun? now = some (now - s.startedAt) := (if_neg hnot).trans (if_pos h)

end Session

/-! ## Records -/

namespace Service

theorem ticks_snoc (record : List TimedDeed) (e : TimedDeed) :
    ticks (record ++ [e]) = ticks record ++ if e.deed.isTick then [e.time] else [] := by
  unfold ticks
  rw [List.filter_append, List.map_append]
  cases htick : e.deed.isTick <;> simp [htick]

end Service

/-! ## The schedule -/

section schedule

variable (w : ServerWiring σ) (start : Nat)

/-- An entry keeps to the schedule, when those before it have been made. -/
structure InTime (before : List TimedDeed) (e : TimedDeed) : Prop where
  tick : e.deed.isTick = true →
    e.time = start + (Service.ticks before).length * w.timing.tickInterval
  input : e.deed.isInput = true →
    e.time < start + (Service.ticks before).length * w.timing.tickInterval
  /-- In time, or the handshake was over. -/
  check : e.deed = .check →
    (e.phase = .identified ∨ e.phase = .closed) ∨ e.time - start ≤ w.timing.handshakeTimeout
  timeOut : ∀ elapsed, e.deed = .timeOut elapsed →
    ¬ (e.phase = .identified ∨ e.phase = .closed) ∧ w.timing.handshakeTimeout < e.time - start ∧
      elapsed = e.time - start

/-- The next check is as many intervals behind the start as there were checks, and a check that came
too late found the handshake over. -/
structure Punctual (s : Service σ) (ch : Channel σ) : Prop where
  ticks : Service.ticks s.record =
    (List.range (Service.ticks s.record).length).map (start + · * w.timing.tickInterval)
  due : s.connection.reading = true → s.now ≤ s.connection.nextTick ∧
    s.connection.nextTick = start + (Service.ticks s.record).length * w.timing.tickInterval
  entries : ∀ before e after, s.record = before ++ e :: after → InTime w start before e
  late : ∀ e ∈ s.record, e.deed.isTick = true → w.timing.handshakeTimeout < e.time - start →
    ch.session.Past

end schedule

namespace Punctual

variable {w : ServerWiring σ} {start : Nat} {c : ChannelId} {s s' : Service σ} {ch ch' : Channel σ}

/-- Nothing has been done. -/
theorem of_same (h : Punctual w start s ch) (honward : ch.Onward ch') (hrecord : s'.record = s.record)
    (hnow : s.connection.reading = true → s'.now ≤ s.connection.nextTick)
    (hnext : s'.connection.nextTick = s.connection.nextTick)
    (hreading : s'.connection.reading = s.connection.reading) : Punctual w start s' ch' := by
  refine ⟨?_, ?_, ?_, ?_⟩
  · rw [hrecord]
    exact h.ticks
  · rw [hrecord, hreading, hnext]
    exact fun hr => ⟨hnow hr, (h.due hr).2⟩
  · rw [hrecord]
    exact h.entries
  · rw [hrecord]
    exact fun e he ht hlate => honward.past (h.late e he ht hlate)

/-- A deed is done that keeps to the schedule. -/
theorem did (h : Punctual w start s ch) (honward : ch.Onward ch') {d : Deed}
    (hentry : InTime w start s.record ⟨s.now, s.phase, d⟩)
    (hdue : (s.did d).connection.reading = true → s.now ≤ (s.did d).connection.nextTick ∧
      (s.did d).connection.nextTick =
        start + (Service.ticks (s.did d).record).length * w.timing.tickInterval)
    (hlate : d.isTick = true → w.timing.handshakeTimeout < s.now - start → ch'.session.Past) :
    Punctual w start (s.did d) ch' := by
  have hmem {e : TimedDeed} (he : e ∈ (s.did d).record) : e ∈ s.record ∨ e = ⟨s.now, s.phase, d⟩ :=
    (List.mem_append.1 he).imp_right List.mem_singleton.1
  have hrecord : (s.did d).record = s.record ++ [⟨s.now, s.phase, d⟩] := rfl
  refine ⟨?_, hdue, ?_, ?_⟩
  · rw [hrecord, Service.ticks_snoc]
    split
    · rename_i htick
      rw [List.length_append, List.length_singleton, List.range_succ, List.map_append, ← h.ticks]
      exact congrArg (_ ++ [·]) (hentry.tick htick)
    · rw [List.append_nil]
      exact h.ticks
  · exact forall_deed_snoc (P := fun before e _ => InTime w start before e) h.entries hentry
  · intro e he ht hl
    obtain he | rfl := hmem he
    · exact honward.past (h.late e he ht hl)
    · exact hlate ht hl

/-- A deed is done that is no check. -/
theorem did_other (h : Punctual w start s ch) (honward : ch.Onward ch') {d : Deed}
    (hreading : s.connection.reading = true) (htick : d.isTick = false)
    (hinput : d.isInput = true → s.now < s.connection.nextTick)
    (hnext : (s.did d).connection.nextTick = s.connection.nextTick) :
    Punctual w start (s.did d) ch' := by
  obtain ⟨hnow, hdue⟩ := h.due hreading
  have hnot {d' : Deed} (hd' : d'.isTick = true) : d ≠ d' := by
    rintro rfl
    exact nomatch htick.symm.trans hd'
  refine h.did honward ⟨?_, ?_, ?_, ?_⟩ (fun _ => ?_) ?_
  · exact fun ht => nomatch htick.symm.trans ht
  · exact fun hi => hdue ▸ hinput hi
  · exact fun hc => absurd hc (hnot rfl)
  · exact fun elapsed ht => absurd ht (hnot rfl)
  · have hticks : Service.ticks (s.did d).record = Service.ticks s.record := by
      show Service.ticks (s.record ++ [_]) = _
      rw [Service.ticks_snoc, htick]
      exact List.append_nil _
    rw [hnext, hticks]
    exact ⟨hnow, hdue⟩
  · exact fun ht => nomatch htick.symm.trans ht

/-- The deadline is checked when it is time. -/
theorem did_tick (halive : Alive w start c s ch) (h : Punctual w start s ch)
    (honward : ch.Onward ch') (hreading : s.connection.reading = true)
    (hinterval : 0 < w.timing.tickInterval)
    (hover : (s.did (s.connection.tickDeed s.now s.node)).connection.reading = false →
      ch'.session.isClosed = true)
    (hdue : s.connection.nextTick ≤ s.now) :
    Punctual w start (s.did (s.connection.tickDeed s.now s.node)) ch' := by
  obtain ⟨hnow, hnext⟩ := h.due hreading
  have htime : s.now = start + (Service.ticks s.record).length * w.timing.tickInterval := by omega
  have hpast (hclosed : ch'.session.isClosed = true) : ch'.session.Past := by
    simpa [Session.isClosed, Session.Past] using Or.inr hclosed
  have hhere : s.node.channel? s.connection.channel = some ch := halive.channel ▸ halive.here
  by_cases hover? : ch.session.Past ∨ s.now - start ≤ w.timing.handshakeTimeout
  · have hdeed : s.connection.tickDeed s.now s.node = .check := by
      apply Connection.tickDeed_of_intime _ _ _ hhere
      obtain hp | he := hover?
      · exact Session.overrun?_of_past hp
      · exact Session.overrun?_of_early (by rw [halive.timing, halive.startedAt]; exact he)
    rw [hdeed]
    refine h.did honward ⟨fun _ => htime, ?_, fun _ => ?_, fun elapsed heq => ?_⟩ (fun _ => ?_) ?_
    · intro hinput
      cases hinput
    · rw [halive.phase]
      exact hover?
    · cases heq
    · have hnew : (s.did .check).connection.nextTick = s.now + w.timing.tickInterval := by
        show s.now + s.connection.interval = _
        rw [halive.interval]
      have hticks : (Service.ticks (s.did .check).record).length =
          (Service.ticks s.record).length + 1 := by
        show (Service.ticks (s.record ++ [_])).length = _
        rw [Service.ticks_snoc, List.length_append]
        rfl
      rw [hnew, hticks, Nat.succ_mul]
      omega
    · exact fun _ hlate => honward.past (hover?.resolve_right (Nat.not_le.2 hlate))
  · obtain ⟨hnot, hlate⟩ := not_or.1 hover?
    have hdeed : s.connection.tickDeed s.now s.node = .timeOut (s.now - start) := by
      rw [← halive.startedAt]
      refine Connection.tickDeed_of_overrun _ _ _ hhere (Session.overrun?_of_late hnot ?_)
      rw [halive.timing, halive.startedAt]
      exact Nat.not_le.1 hlate
    rw [hdeed] at hover ⊢
    refine h.did honward ⟨fun _ => htime, ?_, ?_, fun elapsed heq => ?_⟩ (fun hr => ?_) ?_
    · intro hinput
      cases hinput
    · intro hcheck
      cases hcheck
    · cases heq
      refine ⟨?_, Nat.not_le.1 hlate, rfl⟩
      rw [halive.phase]
      exact hnot
    · cases hr
    · exact fun _ _ => hpast (hover rfl)

end Punctual

theorem nextTick_perform (k : Connection) (now : Nat) (n : Node σ) {d : Deed}
    (h : d.isTick = false) : (k.perform now n d).1.nextTick = k.nextTick := by
  cases d with
  | check => cases h
  | take f next closed =>
    unfold Connection.perform
    simp only []
    split <;> rfl
  | _ => rfl

theorem Punctual.move {w : ServerWiring σ} {start : Nat} {c : ChannelId} {s s' : Service σ}
    {ch ch' : Channel σ} (halive : Alive w start c s ch) (h : Punctual w start s ch)
    (hmove : s.Move s') (halive' : Alive w start c s' ch') (honward : ch.Onward ch') :
    Punctual w start s' ch' := by
  cases hmove with
  | arrive a => exact h.of_same honward rfl (fun hr => (h.due hr).1) rfl rfl
  | turn hd =>
    obtain ⟨hreading, hinterval, hdue⟩ := Connection.due_of_deed? hd
    cases hdue with
    | leave => exact h.did_other honward hreading rfl nofun rfl
    | tick hopen hdue =>
      rw [halive.interval] at hinterval
      exact h.did_tick halive honward hreading hinterval halive'.closed hdue
    | read hopen hearly hreads =>
      exact h.did_other honward hreading hreads.isTick (fun _ => hearly)
        (nextTick_perform _ _ _ hreads.isTick)
  | write =>
    obtain ⟨writing, sink, hconnection⟩ := s.connection_wrote
    exact h.of_same honward rfl (fun hr => (h.due hr).1) (by rw [hconnection]) (by rw [hconnection])
  | elsewhere hnot => exact h.of_same honward rfl (fun hr => (h.due hr).1) rfl rfl
  | pass hrest hdue =>
    refine h.of_same honward rfl (fun hr => ?_) rfl rfl
    simpa [Service.mayPassTo, hr] using hdue

theorem punctual_run {w : ServerWiring σ} {now : Nat} {n : Node σ} {acts : List (ServiceAct σ)}
    {s : Service σ} (h : (Service.start w now n).run acts = some s) :
    ∃ ch, Alive w now ⟨n.channels.length⟩ s ch ∧ Punctual w now s ch := by
  refine Service.run_keeps
    (P := fun s => ∃ ch, Alive w now ⟨n.channels.length⟩ s ch ∧ Punctual w now s ch)
    (fun hmove hs => ?_) h ⟨_, alive_start w now n, ?_⟩
  · obtain ⟨ch, halive, hpunctual⟩ := hs
    obtain ⟨ch', halive', honward⟩ := halive.move hmove
    exact ⟨ch', halive', hpunctual.move halive hmove halive' honward⟩
  · refine ⟨rfl, fun _ => ⟨Nat.le_refl _, ?_⟩, ?_, nofun⟩
    · show now = now + 0 * _
      omega
    · intro before e after heq
      cases before <;> cases heq

/-! ## The deadline -/

namespace Punctual

variable {w : ServerWiring σ} {start : Nat} {c : ChannelId} {s s' : Service σ} {ch : Channel σ}

end Punctual

/-- A server that gives a handshake ten nanoseconds, and looks every four. -/
def hastyServer : ServerWiring Unit :=
  let id : SessionId := ⟨⟨#[104]⟩, by decide, by decide⟩
  ⟨⟨10, 4⟩, acceptAny, fixedSessionId id, fun _ _ s => (.error .invalidCredential, s), false⟩

end Courier
