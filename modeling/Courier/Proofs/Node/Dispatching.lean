import Courier.Proofs.Node.Marks

/-! # Who is called when an event is told

The account of one dispatch is a list of calls: each handler that is called, what was told while it
acted, and the fault it failed with. It is lawful when the handlers are called in the order of the
pipeline up to the first that fails, and that fault, and none otherwise, is then handed to every
reactor once, in the same order (`Dispatch.Lawful`). While they act, handlers may finish the channel,
and then its end is told: that is a dispatch of its own, and lawful too, and while the end is told
nothing more is.

A pipeline of probes has a lawful account of whatever it is told (`exists_dispatchWith`,
`exists_alarmWith`, `exists_farewell`), and the node bears its marks. The layer below is a parameter:
all that counts is what its `finish` does.
-/
set_option autoImplicit false

namespace Courier

open Courier.Wire

variable {σ δ : Type}

/-! ## Accounts -/

/-- A handler that is called: its place, what it is told, what happens while it acts, and the fault
that it fails with. -/
structure Call (δ : Type) where
  place : Nat
  signal : Signal
  meanwhile : List δ
  fault : Option Fault

structure Alarm (δ : Type) where
  fault : Fault
  calls : List (Call δ)

/-- An event that is told to the reactors, and the alarm, if one fails. -/
structure Dispatch (δ : Type) where
  event : Event
  calls : List (Call δ)
  alarm : Option (Alarm δ)

/-- A call without what happens meanwhile. -/
def Call.outline (x : Call δ) : Nat × Signal × Option Fault := (x.place, x.signal, x.fault)

/-- Everything that happens during some calls has the property. -/
def During (P : δ → Prop) (xs : List (Call δ)) : Prop := ∀ x ∈ xs, ∀ d ∈ x.meanwhile, P d

theorem during_nil (P : δ → Prop) : During P [] := fun _ hx => absurd hx List.not_mem_nil

theorem During.cons {P : δ → Prop} {x : Call δ} {xs : List (Call δ)} (hxs : During P xs)
    (hx : ∀ d ∈ x.meanwhile, P d) : During P (x :: xs) :=
  List.forall_mem_cons.2 ⟨hx, hxs⟩

/-- Every reactor is called once, in order, and none fails. -/
structure Alarm.Lawful (P : δ → Prop) (size : Nat) (a : Alarm δ) : Prop where
  outline : a.calls.map Call.outline =
    (List.range size).map fun i => (i, Signal.exception a.fault, none)
  during : During P a.calls

/-- The reactors are called in order: all of them, and no alarm is given, or those up to the first
that fails, and the alarm is given with its fault. -/
inductive Dispatch.Lawful (P : δ → Prop) (size : Nat) (d : Dispatch δ) : Prop where
  | passed
    (outline : d.calls.map Call.outline =
      (List.range size).map fun i => (i, Signal.event d.event, none))
    (during : During P d.calls) (silent : d.alarm = none)
  | failed (i : Nat) (hi : i < size) (a : Alarm δ)
    (outline : d.calls.map Call.outline =
      ((List.range i).map fun j => (j, Signal.event d.event, none)) ++
        [(i, Signal.event d.event, some a.fault)])
    (during : During P d.calls) (alarm : d.alarm = some a) (lawful : a.Lawful P size)

/-! ## The marks of an account -/

section marks

variable (inner : δ → List Mark)

def Call.marks (x : Call δ) : List Mark :=
  .told x.place x.signal :: (x.meanwhile.flatMap inner ++ [.dealt x.place x.signal x.fault])

def Alarm.marks (a : Alarm δ) : List Mark := .raised a.fault :: a.calls.flatMap (Call.marks inner)

def Dispatch.marks (d : Dispatch δ) : List Mark :=
  d.calls.flatMap (Call.marks inner) ++ d.alarm.toList.flatMap (Alarm.marks inner)

end marks

/-- The end of a channel is told. Nothing else is told meanwhile. -/
abbrev Farewell := Dispatch Empty

def Farewell.marks (d : Farewell) : List Mark := .ended :: Dispatch.marks Empty.elim d

/-- It is the end that is told, by the same rule. -/
structure Farewell.Lawful (size : Nat) (d : Farewell) : Prop where
  event : d.event = .disconnected
  lawful : Dispatch.Lawful (fun _ => True) size d

/-! ## The layer below -/

/-- What the layer below does when it is asked to finish a channel has these marks. -/
def Reentry.Finishes (k : Reentry σ) (c : ChannelId) (size : Nat) (inner : δ → List Mark)
    (P : δ → Prop) : Prop :=
  ∀ n : Node σ, n.Probes c size → ∃ ds : List δ, (∀ d ∈ ds, P d) ∧
    n.MarkedOnly c (ds.flatMap inner) (k.finish c n)

section layer

variable {k : Reentry σ} {c : ChannelId} {size : Nat} {inner : δ → List Mark} {P : δ → Prop}
  {n : Node σ} {i : Nat} {p : Probe}

/-! ## One probe -/

theorem exceptionAt_eq (hp : n.reactor? c i = some (.probe p)) (f : Fault) :
    exceptionAt k c f n i = p.perceive k c i (.exception f) n := by
  rw [exceptionAt, hp]
  rfl

theorem apply_reactAt (hp : n.reactor? c i = some (.probe p)) (e : Event) :
    (reactAt k c e i).apply n =
      (match probeFault? c i (p.perceive k c i (.event e) n) with
        | some f => .error f
        | none => .ok (), p.perceive k c i (.event e) n) := by
  rw [reactAt, Action.apply_get_bind, hp]
  simp only [Reactor.react, Action.apply_modify_bind, Action.apply_get_bind]
  cases probeFault? c i (p.perceive k c i (.event e) n) <;> rfl

/-- Among the places of a pipeline, those before one are the smaller ones. -/
theorem eq_range_of_range_eq {before behind : List Nat}
    (h : List.range size = before ++ i :: behind) : before = List.range i ∧ i < size := by
  have hlength : size = before.length + (behind.length + 1) := by
    have hlen := congrArg List.length h
    rwa [List.length_range, List.length_append, List.length_cons] at hlen
  have hi : i = before.length := by
    have hget := congrArg (·[before.length]?) h
    simp only [List.getElem?_append_right (Nat.le_refl _), Nat.sub_self, List.getElem?_cons_zero,
      List.getElem?_range (show before.length < size by omega)] at hget
    exact (Option.some.inj hget).symm
  have htake := congrArg (List.take before.length) h
  rw [List.take_left, List.take_range, Nat.min_eq_left (by omega)] at htake
  rw [hi]
  exact ⟨htake.symm, by omega⟩

section

variable (hk : k.Finishes c size inner P)

include hk

/-! ## One call -/

theorem exists_perform (hn : n.Probes c size) (a : ProbeAct) : ∃ ds : List δ, (∀ d ∈ ds, P d) ∧
    n.MarkedOnly c (ds.flatMap inner) (ProbeAct.perform k c n a) := by
  cases a with
  | close => exact ⟨[], nofun, n.markedOnly_shut c false⟩
  | detach => exact ⟨[], nofun, n.markedOnly_shut c true⟩
  | finish => exact hk n hn

theorem exists_acts (hn : n.Probes c size) (acts : List ProbeAct) :
    ∃ ds : List δ, (∀ d ∈ ds, P d) ∧
      n.MarkedOnly c (ds.flatMap inner) (acts.foldl (ProbeAct.perform k c) n) := by
  induction acts generalizing n with
  | nil => exact ⟨[], nofun, .refl n c⟩
  | cons a acts ih =>
    obtain ⟨ds, hds, hfirst⟩ := exists_perform hk hn a
    obtain ⟨more, hmore, hrest⟩ := ih (hn.marked hfirst.1)
    refine ⟨ds ++ more, fun d hd => (List.mem_append.1 hd).elim (hds d) (hmore d), ?_⟩
    rw [List.flatMap_append]
    exact hfirst.trans hrest

/-- A probe is called, acts and returns. -/
theorem exists_call (hn : n.Probes c size) (hp : n.reactor? c i = some (.probe p)) (s : Signal) :
    ∃ x : Call δ, x.place = i ∧ x.signal = s ∧ (∀ d ∈ x.meanwhile, P d) ∧
      n.MarkedOnly c (x.marks inner) (p.perceive k c i s n) ∧
      match s with
      | .event _ => probeFault? c i (p.perceive k c i s n) = x.fault
      | .exception _ => x.fault = none := by
  have htold := Node.markedOnly_note hp s
  obtain ⟨ds, hds, hacted⟩ := exists_acts hk (hn.marked htold.1) (p.acts (s :: p.seen))
  -- While it acted, it may have dealt with further signals.
  obtain ⟨seen, hplace⟩ : ∃ seen, ((p.acts (s :: p.seen)).foldl (ProbeAct.perform k c)
      (n.note c (.probe p.name) s)).reactor? c i = some (.probe { p with seen }) :=
    ⟨_, (htold.trans hacted).1.reactor? hp⟩
  have hdealt := Node.markedOnly_rememberSignal hplace s
  refine ⟨⟨i, s, ds, verdict p.fails seen s⟩, rfl, rfl, hds, (htold.trans hacted).trans hdealt, ?_⟩
  cases s with
  | event e =>
    rw [Probe.perceive, probeFault?, rememberSignal, hplace]
    simp only [Node.reactor?_setReactor hplace]
    rfl
  | exception f => rfl

/-! ## Alarms -/

theorem exists_exceptions (f : Fault) (places : List Nat) (hplaces : ∀ i ∈ places, i < size)
    (hn : n.Probes c size) : ∃ xs : List (Call δ),
      xs.map Call.outline = places.map (fun i => (i, Signal.exception f, none)) ∧
      During P xs ∧
      n.MarkedOnly c (xs.flatMap (Call.marks inner)) (places.foldl (exceptionAt k c f) n) := by
  induction places generalizing n with
  | nil => exact ⟨[], rfl, during_nil P, .refl n c⟩
  | cons i places ih =>
    obtain ⟨p, hp⟩ := hn.reactor? (hplaces i (List.mem_cons_self ..))
    obtain ⟨x, hplace, hsignal, hmeanwhile, hmarked, hfault⟩ := exists_call hk hn hp (.exception f)
    obtain ⟨xs, houtline, hduring, hrest⟩ :=
      ih (fun j hj => hplaces j (List.mem_cons_of_mem _ hj)) (hn.marked hmarked.1)
    refine ⟨x :: xs, ?_, hduring.cons hmeanwhile, ?_⟩
    · rw [List.map_cons, List.map_cons, houtline, Call.outline, hplace, hsignal, hfault]
    · rw [List.flatMap_cons, List.foldl_cons, exceptionAt_eq hp]
      exact hmarked.trans hrest

theorem exists_alarmWith (hn : n.Probes c size) (f : Fault) : ∃ a : Alarm δ, a.fault = f ∧
    a.Lawful P size ∧ n.MarkedOnly c (a.marks inner) (raiseWith k c f n) := by
  have hraised := n.markedOnly_remember c f
  have hn' := hn.marked hraised.1
  obtain ⟨xs, houtline, hduring, hmarked⟩ := exists_exceptions hk f (List.range size)
    (fun i hi => List.mem_range.1 hi) hn'
  refine ⟨⟨f, xs⟩, rfl, ⟨houtline, hduring⟩, ?_⟩
  rw [raiseWith, hn'.places]
  exact hraised.trans hmarked

/-! ## Events -/

/-- An event is told to the reactors in some places, one after the other, as long as none fails. -/
theorem exists_events (e : Event) (places : List Nat) (hplaces : ∀ i ∈ places, i < size)
    (hn : n.Probes c size) : ∃ (xs : List (Call δ)) (m : Node σ), During P xs ∧
      n.MarkedOnly c (xs.flatMap (Call.marks inner)) m ∧
      ((places.forM (reactAt k c e)).apply n = (.ok (), m) ∧
          xs.map Call.outline = places.map (fun i => (i, Signal.event e, none)) ∨
        ∃ before i behind f, places = before ++ i :: behind ∧
          (places.forM (reactAt k c e)).apply n = (.error f, m) ∧
          xs.map Call.outline = before.map (fun j => (j, Signal.event e, none)) ++
            [(i, Signal.event e, some f)]) := by
  induction places generalizing n with
  | nil => exact ⟨[], n, during_nil P, .refl n c, .inl ⟨rfl, rfl⟩⟩
  | cons i places ih =>
    obtain ⟨p, hp⟩ := hn.reactor? (hplaces i (List.mem_cons_self ..))
    obtain ⟨x, hplace, hsignal, hmeanwhile, hmarked, hfault⟩ := exists_call hk hn hp (.event e)
    have hreact := apply_reactAt (k := k) hp e
    rw [hfault] at hreact
    cases hx : x.fault with
    -- The reactors behind the one that fails are not told.
    | some f =>
      rw [hx] at hreact
      refine ⟨[x], p.perceive k c i (.event e) n, (during_nil P).cons hmeanwhile, ?_,
        .inr ⟨[], i, places, f, rfl, ?_, ?_⟩⟩
      · rw [List.flatMap_singleton]
        exact hmarked
      · rw [forM_cons, Action.apply_bind_error hreact]
      · simp [Call.outline, hplace, hsignal, hx]
    | none =>
      rw [hx] at hreact
      obtain ⟨xs, m, hduring, hrest, hcases⟩ :=
        ih (fun j hj => hplaces j (List.mem_cons_of_mem _ hj)) (hn.marked hmarked.1)
      have houtline : x.outline = (i, Signal.event e, none) := by
        rw [Call.outline, hplace, hsignal, hx]
      refine ⟨x :: xs, m, hduring.cons hmeanwhile, ?_, ?_⟩
      · rw [List.flatMap_cons]
        exact hmarked.trans hrest
      · rw [forM_cons, Action.apply_bind_ok hreact]
        obtain ⟨hrun, hxs⟩ | ⟨before, j, behind, f, rfl, hrun, hxs⟩ := hcases
        · exact .inl ⟨hrun, by rw [List.map_cons, List.map_cons, hxs, houtline]⟩
        · refine .inr ⟨i :: before, j, behind, f, rfl, hrun, ?_⟩
          rw [List.map_cons, List.map_cons, hxs, houtline, List.cons_append]

theorem exists_dispatchWith (hn : n.Probes c size) (e : Event) : ∃ d : Dispatch δ, d.event = e ∧
    d.Lawful P size ∧ n.MarkedOnly c (d.marks inner) (dispatchWith k c e n) := by
  obtain ⟨xs, m, hduring, hmarked, hcases⟩ := exists_events hk e (List.range size)
    (fun i hi => List.mem_range.1 hi) hn
  rw [dispatchWith, hn.places]
  obtain ⟨hrun, hxs⟩ | ⟨before, i, behind, f, hplaces, hrun, hxs⟩ := hcases
  · refine ⟨⟨e, xs, none⟩, rfl, .passed hxs hduring rfl, ?_⟩
    rw [hrun, Dispatch.marks, Option.toList_none, List.flatMap_nil, List.append_nil]
    exact hmarked
  · obtain ⟨rfl, hi⟩ := eq_range_of_range_eq hplaces
    obtain ⟨a, rfl, ha, halarm⟩ := exists_alarmWith hk (hn.marked hmarked.1) f
    refine ⟨⟨e, xs, some a⟩, rfl, .failed i hi a hxs hduring rfl ha, ?_⟩
    rw [hrun, Dispatch.marks, Option.toList_some, List.flatMap_singleton]
    exact hmarked.trans halarm

end

end layer

/-! ## The layers -/

section layers

variable {c : ChannelId} {size : Nat} {n : Node σ}

theorem finishes_ended (c : ChannelId) (size : Nat) :
    (.ended : Reentry σ).Finishes c size Empty.elim fun _ => True :=
  fun n _ => ⟨[], nofun, .refl n c⟩

/-- The end of a channel is told if it was not finished, and then it is finished. -/
theorem exists_farewell {ch : Channel σ} (hn : n.Probes c size) (hch : n.channel? c = some ch)
    (h : ¬ ch.finished = true) : ∃ d : Farewell, d.Lawful size ∧
      n.MarkedOnly c d.marks (finish c n) := by
  have hover := Node.markedOnly_over hch h
  obtain ⟨d, hevent, hlawful, hmarked⟩ :=
    exists_dispatchWith (finishes_ended c size) (hn.marked hover.1) .disconnected
  refine ⟨d, ⟨hevent, hlawful⟩, ?_⟩
  rw [Node.finish_of_not_finished hch h]
  exact hover.trans hmarked

theorem finishes_full (c : ChannelId) (size : Nat) :
    (.full : Reentry σ).Finishes c size Farewell.marks (Farewell.Lawful size) := by
  intro n hn
  obtain ⟨ch, hch, -⟩ := id hn
  by_cases h : ch.finished = true
  · refine ⟨[], List.forall_mem_nil _, ?_⟩
    show n.MarkedOnly c _ (finish c n)
    rw [Node.finish_of_finished hch h]
    exact .refl n c
  · obtain ⟨d, hlawful, hmarked⟩ := exists_farewell hn hch h
    refine ⟨[d], fun d' hd' => List.mem_singleton.1 hd' ▸ hlawful, ?_⟩
    rw [List.flatMap_singleton]
    exact hmarked

end layers

/-! ## Finishing is dispatching the end

While the end is told, handlers may finish the channel again, and that does nothing. So it makes no
difference that the layer below does not even try: to finish a channel is to mark it, to close it and
to dispatch its end like any other event.
-/

def Node.Over (c : ChannelId) (n : Node σ) : Prop :=
  ∃ ch, n.channel? c = some ch ∧ ch.finished = true

theorem Node.Over.marked {n n' : Node σ} {c : ChannelId} {marks : List Mark} (h : n.Over c)
    (hmarked : n.Marked c marks n') : n'.Over c := by
  obtain ⟨ch, hch, hover⟩ := h
  obtain ⟨ch', hch', hlater, -⟩ := hmarked.2 ch hch
  refine ⟨ch', hch', ?_⟩
  have hcount := hlater.finished
  rw [hover] at hcount
  cases hf : ch'.finished with
  | true => rfl
  | false =>
    rw [hf, Bool.toNat_true, Bool.toNat_false] at hcount
    omega

section finished

variable {c : ChannelId} {size : Nat} {n : Node σ}

theorem perform_full_eq (hover : n.Over c) (a : ProbeAct) :
    ProbeAct.perform .full c n a = ProbeAct.perform .ended c n a := by
  obtain ⟨ch, hch, hfinished⟩ := hover
  cases a with
  | finish => exact Node.finish_of_finished hch hfinished
  | _ => rfl

theorem acts_full_eq (hn : n.Probes c size) (hover : n.Over c) (acts : List ProbeAct) :
    acts.foldl (ProbeAct.perform .full c) n = acts.foldl (ProbeAct.perform .ended c) n := by
  induction acts generalizing n with
  | nil => rfl
  | cons a acts ih =>
    obtain ⟨_, _, hmarked⟩ := exists_perform (finishes_ended c size) hn a
    rw [List.foldl_cons, List.foldl_cons, perform_full_eq hover]
    exact ih (hn.marked hmarked.1) (hover.marked hmarked.1)

theorem perceive_full_eq (hn : n.Probes c size) (hover : n.Over c) {i : Nat} {p : Probe}
    (hp : n.reactor? c i = some (.probe p)) (s : Signal) :
    p.perceive .full c i s n = p.perceive .ended c i s n := by
  have htold := Node.markedOnly_note hp s
  rw [Probe.perceive, Probe.perceive,
    acts_full_eq (hn.marked htold.1) (hover.marked htold.1) (p.acts (s :: p.seen))]

theorem exceptions_full_eq (f : Fault) (places : List Nat) (hplaces : ∀ i ∈ places, i < size)
    (hn : n.Probes c size) (hover : n.Over c) :
    places.foldl (exceptionAt .full c f) n = places.foldl (exceptionAt .ended c f) n := by
  induction places generalizing n with
  | nil => rfl
  | cons i places ih =>
    obtain ⟨p, hp⟩ := hn.reactor? (hplaces i (List.mem_cons_self ..))
    obtain ⟨_, _, _, _, hmarked, _⟩ := exists_call (finishes_ended c size) hn hp (.exception f)
    rw [List.foldl_cons, List.foldl_cons, exceptionAt_eq hp, exceptionAt_eq hp,
      perceive_full_eq hn hover hp]
    exact ih (fun j hj => hplaces j (List.mem_cons_of_mem _ hj)) (hn.marked hmarked.1)
      (hover.marked hmarked.1)

theorem raiseWith_full_eq (hn : n.Probes c size) (hover : n.Over c) (f : Fault) :
    raiseWith .full c f n = raiseWith .ended c f n := by
  have hraised := n.markedOnly_remember c f
  have hn' := hn.marked hraised.1
  rw [raiseWith, raiseWith, hn'.places]
  exact exceptions_full_eq f _ (fun i hi => List.mem_range.1 hi) hn' (hover.marked hraised.1)

theorem events_full_eq (e : Event) (places : List Nat) (hplaces : ∀ i ∈ places, i < size)
    (hn : n.Probes c size) (hover : n.Over c) :
    (places.forM (reactAt .full c e)).apply n = (places.forM (reactAt .ended c e)).apply n := by
  induction places generalizing n with
  | nil =>
    have hnone : ∀ k : Reentry σ, (([] : List Nat).forM (reactAt k c e)).apply n = (.ok (), n) :=
      fun _ => rfl
    rw [hnone, hnone]
  | cons i places ih =>
    obtain ⟨p, hp⟩ := hn.reactor? (hplaces i (List.mem_cons_self ..))
    obtain ⟨_, _, _, _, hmarked, _⟩ := exists_call (finishes_ended c size) hn hp (.event e)
    have hrest := ih (fun j hj => hplaces j (List.mem_cons_of_mem _ hj)) (hn.marked hmarked.1)
      (hover.marked hmarked.1)
    rw [forM_cons, forM_cons, Action.apply_bind, Action.apply_bind, apply_reactAt hp,
      apply_reactAt hp, perceive_full_eq hn hover hp]
    cases probeFault? c i (p.perceive .ended c i (.event e) n) with
    | some f => rfl
    | none => exact hrest

theorem dispatch_of_over (hn : n.Probes c size) (hover : n.Over c) (e : Event) :
    dispatch c e n = dispatchWith .ended c e n := by
  have hrange : ∀ i ∈ List.range size, i < size := fun i hi => List.mem_range.1 hi
  obtain ⟨_, m, _, hmarked, hcases⟩ := exists_events (finishes_ended c size) e _ hrange hn
  rw [dispatch, dispatchWith, dispatchWith, hn.places, events_full_eq e _ hrange hn hover]
  obtain ⟨hrun, -⟩ | ⟨_, _, _, f, _, hrun, -⟩ := hcases
  · rw [hrun]
  · rw [hrun]
    exact raiseWith_full_eq (hn.marked hmarked.1) (hover.marked hmarked.1) f

/-- To finish a channel is to mark it, to close it and to dispatch its end. -/
theorem finish_eq_dispatch {ch : Channel σ} (hn : n.Probes c size) (hch : n.channel? c = some ch)
    (h : ¬ ch.finished = true) : finish c n =
      dispatch c .disconnected (n.modify c fun _ => { ch with finished := true }.close) := by
  have hover := Node.markedOnly_over hch h
  have hmarked : (n.modify c fun _ => { ch with finished := true }.close).Over c :=
    ⟨_, Node.channel?_modify_of_some hch _, Channel.finished_shut _ false⟩
  rw [Node.finish_of_not_finished hch h, dispatch_of_over (hn.marked hover.1) hmarked]

end finished

end Courier
