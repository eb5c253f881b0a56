import Courier.Proofs.Node.Queues

/-! # The end is told once

The event log, the connection observer and probes report the end of their channel. What was reported
and what is still owed is always the same together (`Node.EndsOnce`): a channel owes a report of
each of them until it is finished, and nothing afterwards. A finished channel is closed. This holds of
whatever is done in a node, but for telling the end without finishing the channel
(`endsOnce_operation`).
-/
set_option autoImplicit false

namespace Courier

open Courier.Wire Courier.Routing

variable {σ : Type}

/-! ## Who reports the end -/

namespace Reactor

/-- The name under which a reactor reports the end of its channel, if it does. -/
def reporter? : Reactor σ → Option Reporter
  | .eventLog => some .eventLog
  | .connectionObserver => some .connectionObserver
  | .probe p => some (.probe p.name)
  | _ => none

/-- It does not fail at the end. -/
def Steady : Reactor σ → Prop
  | .probe p => ∀ seen, p.fails (.event .disconnected :: seen) = none
  | _ => True

variable {r r' : Reactor σ}

theorem Alike.reporter? (h : r.Alike r') : r'.reporter? = r.reporter? := by
  cases h <;> rfl

theorem Alike.steady (h : r.Alike r') (hsteady : r.Steady) : r'.Steady := by
  cases h with
  | same => exact hsteady
  | ledger => trivial
  | probe p seen => exact hsteady

end Reactor

namespace Channel

variable {ch ch' : Channel σ}

def Steady (ch : Channel σ) : Prop := ∀ r ∈ ch.reactors, r.Steady

/-- The reports of the end that are still to come. -/
def owed (ch : Channel σ) : List Reporter :=
  if ch.finished then [] else ch.reactors.filterMap Reactor.reporter?

theorem Later.reporters (h : ch.Later ch') :
    ch'.reactors.map Reactor.reporter? = ch.reactors.map Reactor.reporter? := by
  apply List.ext_getElem?
  intro i
  rw [List.getElem?_map, List.getElem?_map]
  cases hr : ch.reactors[i]? with
  | none =>
    have hlength := h.length
    rw [List.getElem?_eq_none_iff] at hr
    rw [List.getElem?_eq_none (by omega)]
  | some r =>
    obtain ⟨r', hr', halike⟩ := h.alike i r hr
    rw [hr', Option.map_some, Option.map_some, halike.reporter?]

theorem Later.steady (h : ch.Later ch') (hsteady : ch.Steady) : ch'.Steady := by
  intro r' hr'
  obtain ⟨i, hlt, rfl⟩ := List.mem_iff_getElem.1 hr'
  have hlt' : i < ch.reactors.length := by
    rw [← h.length]
    exact hlt
  obtain ⟨r₁, hr₁, halike⟩ := h.alike i _ (List.getElem?_eq_getElem hlt')
  rw [List.getElem?_eq_getElem hlt] at hr₁
  cases hr₁
  exact halike.steady (hsteady _ (List.getElem_mem hlt'))

theorem filterMap_reporter? (rs : List (Reactor σ)) :
    rs.filterMap Reactor.reporter? = (rs.map Reactor.reporter?).filterMap id := by
  rw [List.filterMap_map]
  rfl

theorem Later.owed (h : ch.Later ch') (hfinished : ch'.finished = ch.finished) :
    ch'.owed = ch.owed := by
  rw [Channel.owed, Channel.owed, hfinished, filterMap_reporter?, h.reporters,
    ← filterMap_reporter?]

theorem owed_of_finished (h : ch.finished = true) : ch.owed = [] := if_pos h

end Channel

/-! ## What was reported -/

/-- The reporter of a report of the end of a channel. -/
def Notice.farewell? (c : ChannelId) (x : Notice) : Option Reporter :=
  if x.channel = c ∧ x.signal = .event .disconnected then some x.reporter else none

/-- Who has reported the end of a channel, in order. -/
def Node.farewells (n : Node σ) (c : ChannelId) : List Reporter :=
  n.notices.toList.filterMap (Notice.farewell? c)

namespace Node

variable {n n' : Node σ} {c c' : ChannelId}

theorem farewells_note (n : Node σ) (c c' : ChannelId) (r : Reporter) (s : Signal) {ch : Channel σ}
    (hch : n.channel? c = some ch) : (n.note c r s).farewells c' = n.farewells c' ++
      (Notice.farewell? c' ⟨r, c, ch.session.role, s⟩).toList := by
  rw [note, hch]
  simp only [farewells, Backlog.toList_push, List.filterMap_append, List.filterMap_cons,
    List.filterMap_nil]
  congr 1

/-- A report of something else, or on another channel. -/
theorem farewells_note_of_ne (r : Reporter) {s : Signal}
    (h : c ≠ c' ∨ s ≠ .event .disconnected) : (n.note c r s).farewells c' = n.farewells c' := by
  cases hch : n.channel? c with
  | none => rw [note, hch]
  | some ch =>
    have hnot : ¬ (c = c' ∧ s = .event .disconnected) := by
      rintro ⟨hc, hs⟩
      obtain h | h := h
      · exact h hc
      · exact h hs
    rw [farewells_note n c c' r s hch, Notice.farewell?, if_neg hnot]
    exact List.append_nil _

/-- One step of the bookkeeping: what was reported on the channel and what it owes stay the same
together, and if it is finished it is closed. -/
structure EndsOnce (c : ChannelId) (n n' : Node σ) : Prop where
  later : n.Later n'
  told : ∀ ch ch', n.channel? c = some ch → n'.channel? c = some ch' → ch.Steady →
    n'.farewells c ++ ch'.owed = n.farewells c ++ ch.owed
  ended : ∀ ch ch', n.channel? c = some ch → n'.channel? c = some ch' →
    (ch.finished = true → ch.session.isClosed = true) →
      ch'.finished = true → ch'.session.isClosed = true

namespace EndsOnce

theorem of_same (hlater : n.Later n') (hch : n'.channel? c = n.channel? c)
    (htold : n'.farewells c = n.farewells c) : n.EndsOnce c n' := by
  refine ⟨hlater, ?_, ?_⟩
  · intro ch ch' hch₁ hch₂ _
    rw [hch, hch₁] at hch₂
    cases hch₂
    rw [htold]
  · intro ch ch' hch₁ hch₂ hover
    rw [hch, hch₁] at hch₂
    cases hch₂
    exact hover

theorem refl (n : Node σ) : n.EndsOnce c n := of_same (.refl n) rfl rfl

theorem trans {n'' : Node σ} (h : n.EndsOnce c n') (h' : n'.EndsOnce c n'') :
    n.EndsOnce c n'' := by
  refine ⟨h.later.trans h'.later, ?_, ?_⟩
  · intro ch ch'' hch hch'' hsteady
    obtain ⟨ch', hch', hlater⟩ := h.later.channel c ch hch
    exact (h'.told ch' ch'' hch' hch'' (hlater.steady hsteady)).trans
      (h.told ch ch' hch hch' hsteady)
  · intro ch ch'' hch hch'' hover
    obtain ⟨ch', hch', -⟩ := h.later.channel c ch hch
    exact h'.ended ch' ch'' hch' hch'' (h.ended ch ch' hch hch' hover)

theorem modify {f : Channel σ → Channel σ}
    (hlater : ∀ ch, n.channel? c' = some ch → ch.Later (f ch))
    (hfinished : ∀ ch, n.channel? c' = some ch → (f ch).finished = ch.finished) :
    n.EndsOnce c (n.modify c' f) := by
  by_cases hc : c = c'
  · subst hc
    refine ⟨later_modify hlater, ?_, ?_⟩
    · intro ch ch' hch hch' _
      rw [channel?_modify_of_some hch] at hch'
      cases hch'
      rw [(hlater ch hch).owed (hfinished ch hch)]
      rfl
    · intro ch ch' hch hch' hover hf
      rw [channel?_modify_of_some hch] at hch'
      cases hch'
      have hclosed := hover ((hfinished ch hch).symm.trans hf)
      rw [(hlater ch hch).session hclosed]
      exact hclosed
  · exact of_same (later_modify hlater) (channel?_modify_of_ne n f hc) rfl

theorem modify_const {ch ch' : Channel σ} (hch : n.channel? c' = some ch) (hlater : ch.Later ch')
    (hfinished : ch'.finished = ch.finished) : n.EndsOnce c (n.modify c' fun _ => ch') := by
  apply modify <;>
  · intro ch₀ hch₀
    rw [hch] at hch₀
    cases hch₀
    assumption

end EndsOnce

theorem endsOnce_course (c : ChannelId) : Course (EndsOnce (σ := σ) c) where
  refl := .refl
  trans := .trans
  registry := fun _ _ => .of_same (later_of_channels rfl) rfl rfl
  policy := fun _ _ => .of_same (later_of_channels rfl) rfl rfl
  report := fun c' s hs n r =>
    .of_same (later_note c' s n r) (n.channel?_note c' c r s) (farewells_note_of_ne r (.inr hs))
  enqueue := by
    intro n c' ch ch' b hch h
    refine .modify_const hch (Channel.later_enqueue h) ?_
    obtain ⟨-, -, rfl⟩ := Channel.enqueue_eq_ok h
    rfl
  session := fun hch h => .modify_const hch (Channel.later_setSession h) rfl
  remember := fun _ _ f => .modify (fun ch _ => ch.later_remember f) fun _ _ => rfl
  shut := fun _ _ goodbye =>
    .modify (fun ch _ => ch.later_shut goodbye) fun ch _ => ch.finished_shut goodbye
  reactor := by
    intro n c' i r r' h halike
    obtain ⟨ch, hch, hr⟩ := (n.reactor?_eq_some_iff c').1 h
    rw [setReactor, modify_eq_const hch]
    exact .modify_const hch (Channel.later_set hr halike) rfl

/-! ## Telling the end -/

theorem notices_perform (n : Node σ) (a : ProbeAct) :
    (ProbeAct.perform .ended c n a).notices = n.notices := by
  cases a <;> rfl

theorem notices_foldl_perform (n : Node σ) (acts : List ProbeAct) :
    (acts.foldl (ProbeAct.perform .ended c) n).notices = n.notices := by
  induction acts generalizing n with
  | nil => rfl
  | cons a acts ih => rw [List.foldl_cons, ih, notices_perform]

theorem notices_rememberSignal (n : Node σ) (i : Nat) (s : Signal) :
    (rememberSignal c i s n).notices = n.notices := by
  unfold rememberSignal
  split <;> rfl

/-- A probe stays in its place. -/
theorem Later.probe (h : n.Later n') {i : Nat} {p : Probe}
    (hp : n.reactor? c i = some (.probe p)) :
    ∃ seen, n'.reactor? c i = some (.probe { p with seen }) := by
  obtain ⟨ch, hch, hr⟩ := (n.reactor?_eq_some_iff c).1 hp
  obtain ⟨ch', hch', hlater⟩ := h.channel c ch hch
  obtain ⟨r', hr', halike⟩ := hlater.alike i _ hr
  have hplace : n'.reactor? c i = some r' := (n'.reactor?_eq_some_iff c).2 ⟨ch', hch', hr'⟩
  cases halike with
  | same => exact ⟨p.seen, hplace⟩
  | probe _ seen => exact ⟨seen, hplace⟩

theorem reactor?_setReactor {i : Nat} {r r' : Reactor σ} (h : n.reactor? c i = some r) :
    (n.setReactor c i r').reactor? c i = some r' := by
  obtain ⟨ch, hch, hr⟩ := (n.reactor?_eq_some_iff c).1 h
  have hlt := (List.getElem?_eq_some_iff.1 hr).1
  refine (reactor?_eq_some_iff _ c).2 ⟨_, channel?_modify_of_some hch _, ?_⟩
  simp [hlt]

/-- A probe that is told the end reports it and does not fail. -/
theorem probe_farewell {i : Nat} {p : Probe} (hp : n.reactor? c i = some (.probe p))
    (hsteady : ∀ seen, p.fails (.event .disconnected :: seen) = none) :
    (p.perceive .ended c i (.event .disconnected) n).farewells c =
        n.farewells c ++ [.probe p.name] ∧
      probeFault? c i (p.perceive .ended c i (.event .disconnected) n) = none := by
  obtain ⟨ch, hch, -⟩ := (n.reactor?_eq_some_iff c).1 hp
  have hacted : n.Later ((p.acts (.event .disconnected :: p.seen)).foldl
      (ProbeAct.perform .ended c) (n.note c (.probe p.name) (.event .disconnected))) :=
    (later_note c _ n _).trans (later_course.foldl (later_course.perform later_course.ended c) _ _)
  have hnotices := notices_foldl_perform (c := c)
    (n.note c (.probe p.name) (.event .disconnected)) (p.acts (.event .disconnected :: p.seen))
  unfold Probe.perceive
  simp only []
  generalize (p.acts (.event .disconnected :: p.seen)).foldl (ProbeAct.perform .ended c)
    (n.note c (.probe p.name) (.event .disconnected)) = m at hacted hnotices ⊢
  obtain ⟨seen, hplace⟩ := hacted.probe hp
  constructor
  · have htold : (rememberSignal c i (.event .disconnected) m).farewells c =
        (n.note c (.probe p.name) (.event .disconnected)).farewells c := by
      rw [farewells, notices_rememberSignal, hnotices]
      rfl
    rw [htold, farewells_note n c c _ _ hch, Notice.farewell?, if_pos ⟨rfl, rfl⟩]
    rfl
  · have hremembered : (rememberSignal c i (.event .disconnected) m).reactor? c i =
        some (.probe { p with seen := .event .disconnected :: seen }) := by
      rw [rememberSignal, hplace]
      exact reactor?_setReactor hplace
    rw [probeFault?, hremembered]
    exact hsteady seen

/-- A steady reactor that is told the end reports it, if it reports at all, and does not fail. -/
theorem reactAt_farewell {i : Nat} {r : Reactor σ} (hr : n.reactor? c i = some r)
    (hsteady : r.Steady) : ∃ n', (reactAt .ended c .disconnected i).apply n = (.ok (), n') ∧
      n'.farewells c = n.farewells c ++ r.reporter?.toList := by
  obtain ⟨ch, hch, -⟩ := (n.reactor?_eq_some_iff c).1 hr
  have hnote : ∀ r : Reporter,
      (n.note c r (.event .disconnected)).farewells c = n.farewells c ++ [r] := by
    intro r
    rw [farewells_note n c c r _ hch, Notice.farewell?, if_pos ⟨rfl, rfl⟩]
    rfl
  rw [reactAt, Action.apply_get_bind, hr]
  cases r with
  | eventLog => exact ⟨_, rfl, hnote _⟩
  | connectionObserver => exact ⟨_, rfl, hnote _⟩
  | probe p =>
    obtain ⟨htold, hfault⟩ := probe_farewell hr hsteady
    refine ⟨p.perceive .ended c i (.event .disconnected) n, ?_, htold⟩
    simp only [Reactor.react, Action.apply_modify_bind, Action.apply_get_bind, hfault]
    rfl
  | routeAttachment =>
    exact ⟨{ n with registry := n.registry.release c }, rfl, (List.append_nil _).symm⟩
  | _ => exact ⟨n, rfl, (List.append_nil _).symm⟩

/-- The reactors from a place on report the end, in order. -/
theorem forM_farewell {ch : Channel σ} (count i : Nat) (hch : n.channel? c = some ch)
    (hsteady : ch.Steady) (hlength : ch.reactors.length = i + count) :
    ∃ n', ((List.range' i count).forM (reactAt .ended c .disconnected)).apply n = (.ok (), n') ∧
      n'.farewells c = n.farewells c ++ (ch.reactors.drop i).filterMap Reactor.reporter? := by
  induction count generalizing n ch i with
  | zero =>
    refine ⟨n, rfl, ?_⟩
    rw [List.drop_of_length_le (by omega)]
    exact (List.append_nil _).symm
  | succ count ih =>
    have hlt : i < ch.reactors.length := by omega
    have hr : n.reactor? c i = some ch.reactors[i] :=
      (n.reactor?_eq_some_iff c).2 ⟨ch, hch, List.getElem?_eq_getElem hlt⟩
    obtain ⟨n₁, hfirst, htold⟩ := reactAt_farewell hr (hsteady _ (List.getElem_mem hlt))
    have hlater := later_rule.reactAt later_course.ended c .disconnected i n
    rw [hfirst] at hlater
    obtain ⟨ch₁, hch₁, hlater₁⟩ := hlater.channel c ch hch
    obtain ⟨n', hrest, htold'⟩ := ih (i + 1) hch₁ (hlater₁.steady hsteady)
      (by rw [hlater₁.length]; omega)
    refine ⟨n', ?_, ?_⟩
    · rw [List.range'_succ, forM_cons, Action.apply_bind_ok hfirst]
      exact hrest
    · -- The reactors that are left report under the same names as before.
      have hsame : (ch₁.reactors.drop (i + 1)).filterMap Reactor.reporter? =
          (ch.reactors.drop (i + 1)).filterMap Reactor.reporter? := by
        rw [Channel.filterMap_reporter?, List.map_drop, hlater₁.reporters, ← List.map_drop,
          ← Channel.filterMap_reporter?]
      rw [htold', hsame, List.drop_eq_getElem_cons hlt, List.filterMap_cons]
      show n₁.farewells c ++ _ = _
      rw [htold, List.append_assoc]
      cases ch.reactors[i].reporter? <;> rfl

/-- A channel that is told its end is told by each of its reporters, in order. -/
theorem dispatch_farewell {ch : Channel σ} (hch : n.channel? c = some ch) (hsteady : ch.Steady) :
    (dispatchWith .ended c .disconnected n).farewells c =
      n.farewells c ++ ch.reactors.filterMap Reactor.reporter? := by
  obtain ⟨n', hrun, htold⟩ := forM_farewell ch.reactors.length 0 hch hsteady (by omega)
  have hplaces : n.places c = List.range' 0 ch.reactors.length := by
    rw [places, hch]
    exact List.range_eq_range'
  rw [dispatchWith, hplaces, hrun]
  exact htold

/-! ## Finishing a channel -/

/-- By then the channel is the marked one at a later time. -/
theorem finish_later {ch : Channel σ} (hch : n.channel? c = some ch) (h : ¬ ch.finished = true) :
    ∃ ch', (finish c n).channel? c = some ch' ∧
      ({ ch with finished := true } : Channel σ).close.Later ch' := by
  have hmarked := channel?_modify_of_some hch fun _ => { ch with finished := true }.close
  have hlater := later_course.dispatchWith later_course.ended c
    (later_note c (.event .disconnected))
    (n.modify c fun _ => { ch with finished := true }.close)
  rw [← finish_of_not_finished hch h] at hlater
  exact hlater.channel c _ hmarked

/-- A channel for which `finish` has run is finished. -/
theorem finished_finish {ch : Channel σ} (hch : n.channel? c = some ch) :
    ∃ ch', (finish c n).channel? c = some ch' ∧ ch'.finished = true := by
  by_cases hf : ch.finished = true
  · exact ⟨ch, by rw [finish_of_finished hch hf]; exact hch, hf⟩
  · obtain ⟨ch', hch', hkept⟩ := finish_later hch hf
    exact ⟨ch', hch', hkept.finished (Channel.finished_shut _ false)⟩

/-- What is owed is reported when the channel is finished, and it is closed by then. -/
theorem endsOnce_finish_self (c : ChannelId) (n : Node σ) : n.EndsOnce c (finish c n) := by
  cases hch : n.channel? c with
  | none =>
    rw [finish, hch]
    exact .refl n
  | some ch =>
    by_cases hf : ch.finished = true
    · rw [finish_of_finished hch hf]
      exact .refl n
    · have hclosing := Channel.over_shut { ch with finished := true } false
      have hmarked := channel?_modify_of_some hch fun _ => { ch with finished := true }.close
      obtain ⟨ch', hch', hkept⟩ := finish_later hch hf
      have hfinished : ch'.finished = true := hkept.finished (Channel.finished_shut _ false)
      refine ⟨later_rule.finish c n, ?_, ?_⟩
      · intro ch₁ ch₂ hch₁ hch₂ hsteady
        rw [hch] at hch₁
        rw [hch'] at hch₂
        cases hch₁
        cases hch₂
        have htold := dispatch_farewell hmarked (fun r hr => hsteady r (by
          rw [Channel.close, hclosing.reactors] at hr
          exact hr))
        rw [finish_of_not_finished hch hf, htold, Channel.owed_of_finished hfinished,
          List.append_nil, Channel.owed, if_neg hf, Channel.close, hclosing.reactors]
        rfl
      · intro ch₁ ch₂ _ hch₂ _ _
        rw [hch'] at hch₂
        cases hch₂
        have hclosed : { ch with finished := true }.close.session.isClosed = true := by
          rw [Channel.close, hclosing.session]
          rfl
        rw [hkept.session hclosed]
        exact hclosed

theorem endsOnce_passage (c : ChannelId) : Passage (EndsOnce (σ := σ) c) where
  toCourse := endsOnce_course c
  finish := by
    intro c' n
    by_cases hc : c' = c
    · rw [hc]
      exact endsOnce_finish_self c n
    · -- The end of another channel is reported there.
      apply (endsOnce_course c).finish c'
      · exact fun n r => .of_same (later_note c' _ n r) (n.channel?_note c' c r _)
          (farewells_note_of_ne r (.inl hc))
      · exact fun n => .of_same (later_modify fun ch _ => ch.later_over)
          (channel?_modify_of_ne n _ (Ne.symm hc)) rfl

end Node

/-- Whatever is done keeps the book, but for telling the end without finishing the channel. -/
theorem endsOnce_operation (c c' : ChannelId) (n : Node σ) {o : Operation}
    (h : o ≠ .dispatch .disconnected) : n.EndsOnce c (o.perform c' n) := by
  have hR := Node.endsOnce_passage (σ := σ) c
  cases o with
  | greet => exact hR.telling.greet c' n
  | write w => exact telling_write hR.telling c' w n
  | dispatch e =>
    apply hR.dispatchEvent c' _ n
    intro he
    exact h (congrArg Operation.dispatch he)
  | raise f => exact hR.raise c' f n
  | receive f => exact hR.telling.receive c' f n
  | detach => exact hR.shut n c' true
  | close => exact hR.shut n c' false
  | finish => exact hR.finish c' n
  | route p => exact hR.telling.routePacket p n

end Courier
