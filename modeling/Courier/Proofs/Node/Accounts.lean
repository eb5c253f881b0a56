import Courier.Proofs.Node.Dispatching

/-! # What is told at one go

On a pipeline of probes something is told at a few goes: an event is dispatched, a fault is raised,
or the channel is finished (`Entry`). The end is dispatched where the channel is finished, and
elsewhere only if it is the event itself (`Entry.Lawful.count_disconnected`). At one go each reactor
is called twice at most, and twice more if the channel is finished (`Entry.Lawful.toldIn_le`).

A page lists what is told on each channel while something is done in a node (`Node.Records`).
-/
set_option autoImplicit false

namespace Courier

open Courier.Wire Courier.Routing Mark

variable {σ δ : Type}

/-! ## Counting -/

section events

variable (inner : δ → List Event)

/-- The events that are dispatched while some handlers are called. -/
def eventsIn (xs : List (Call δ)) : List Event := xs.flatMap fun x => x.meanwhile.flatMap inner

def Alarm.events (a : Alarm δ) : List Event := eventsIn inner a.calls

def Dispatch.events (d : Dispatch δ) : List Event :=
  d.event :: (eventsIn inner d.calls ++ d.alarm.toList.flatMap (Alarm.events inner))

end events

/-- In what happens meanwhile, the end is dispatched whenever a channel is over. -/
def EndsWith (P : δ → Prop) (events : δ → List Event) (inner : δ → List Mark) : Prop :=
  ∀ d, P d → (events d).count .disconnected = (inner d).countP isEnded

/-- In what happens meanwhile, at most so many handlers are called whenever a channel is over. -/
def CallsWithin (P : δ → Prop) (bound : Nat) (inner : δ → List Mark) : Prop :=
  ∀ d, P d → (toldIn (inner d)).length ≤ bound * (inner d).countP isEnded

section counting

variable {P : δ → Prop} {events : δ → List Event} {inner : δ → List Mark} {size bound : Nat}

theorem countP_isEnded_marks (x : Call δ) :
    (x.marks inner).countP isEnded = (x.meanwhile.flatMap inner).countP isEnded := by
  simp [Call.marks, isEnded]

theorem count_eventsIn {xs : List (Call δ)} (hends : EndsWith P events inner)
    (hduring : During P xs) : (eventsIn events xs).count .disconnected =
      (xs.flatMap (Call.marks inner)).countP isEnded := by
  rw [eventsIn, List.count_flatMap, List.countP_flatMap]
  congr 1
  apply List.map_congr_left
  intro x hx
  simp only [Function.comp_apply]
  rw [countP_isEnded_marks, List.count_flatMap, List.countP_flatMap]
  congr 1
  apply List.map_congr_left
  intro d hd
  exact hends d (hduring x hx d hd)

theorem length_toldIn_meanwhile (hcalls : CallsWithin P bound inner) {ds : List δ}
    (hds : ∀ d ∈ ds, P d) : (toldIn (ds.flatMap inner)).length ≤
      bound * (ds.flatMap inner).countP isEnded := by
  induction ds with
  | nil => exact Nat.le_refl _
  | cons d ds ih =>
    have hfirst := hcalls d (hds d (List.mem_cons_self ..))
    have hrest := ih fun d' hd' => hds d' (List.mem_cons_of_mem _ hd')
    rw [List.flatMap_cons, toldIn_append, List.length_append, List.countP_append, Nat.mul_add]
    exact Nat.add_le_add hfirst hrest

theorem length_toldIn_calls (hcalls : CallsWithin P bound inner) {xs : List (Call δ)}
    (hduring : During P xs) : (toldIn (xs.flatMap (Call.marks inner))).length ≤
      xs.length + bound * (xs.flatMap (Call.marks inner)).countP isEnded := by
  induction xs with
  | nil => exact Nat.le_refl _
  | cons x xs ih =>
    have hfirst := length_toldIn_meanwhile hcalls (hduring x (List.mem_cons_self ..))
    have hrest := ih fun y hy => hduring y (List.mem_cons_of_mem _ hy)
    have hown : (toldIn (x.marks inner)).length =
        (toldIn (x.meanwhile.flatMap inner)).length + 1 := by
      rw [Call.marks, ← List.singleton_append, toldIn_append, toldIn_append]
      simp [toldIn, told?]
    rw [List.flatMap_cons, toldIn_append, List.length_append, hown, List.countP_append,
      countP_isEnded_marks, Nat.mul_add, List.length_cons]
    omega

namespace Alarm

variable {a : Alarm δ}

theorem Lawful.count_disconnected (h : a.Lawful P size) (hends : EndsWith P events inner) :
    (a.events events).count .disconnected = (a.marks inner).countP isEnded := by
  rw [Alarm.events, count_eventsIn hends h.during, Alarm.marks,
    List.countP_cons_of_neg (by simp [isEnded])]

theorem Lawful.length_calls (h : a.Lawful P size) : a.calls.length = size := by
  simpa using congrArg List.length h.outline

theorem Lawful.toldIn_le (h : a.Lawful P size) (hcalls : CallsWithin P bound inner) :
    (toldIn (a.marks inner)).length ≤ size + bound * (a.marks inner).countP isEnded := by
  have hown := length_toldIn_calls hcalls h.during
  rw [h.length_calls] at hown
  rw [marks, List.countP_cons_of_neg (by simp [isEnded])]
  exact hown

end Alarm

namespace Dispatch

variable {d : Dispatch δ}

theorem Lawful.during (h : d.Lawful P size) : During P d.calls := by
  cases h with
  | passed _ hduring _ => exact hduring
  | failed _ _ _ _ hduring _ _ => exact hduring

theorem Lawful.alarm (h : d.Lawful P size) : ∀ a ∈ d.alarm, a.Lawful P size := by
  cases h with
  | passed _ _ hsilent =>
    intro a ha
    rw [hsilent] at ha
    cases ha
  | failed _ _ a _ _ halarm hlawful =>
    intro a' ha'
    rw [halarm] at ha'
    cases ha'
    exact hlawful

theorem Lawful.length_calls (h : d.Lawful P size) : d.calls.length ≤ size := by
  cases h with
  | passed houtline _ _ =>
    have hlength := congrArg List.length houtline
    simp only [List.length_map, List.length_range] at hlength
    omega
  | failed i hi _ houtline _ _ _ =>
    have hlength := congrArg List.length houtline
    simp only [List.length_map, List.length_range, List.length_append, List.length_singleton]
      at hlength
    omega

/-- The end is dispatched when a channel is over, and if it is the event itself. -/
theorem Lawful.count_disconnected (h : d.Lawful P size) (hends : EndsWith P events inner) :
    (d.events events).count .disconnected =
      (d.marks inner).countP isEnded + (decide (d.event = .disconnected)).toNat := by
  have hcalls := count_eventsIn hends h.during
  have hfirst : [d.event].count .disconnected = (decide (d.event = .disconnected)).toNat := by
    by_cases he : d.event = .disconnected <;> simp [he]
  rw [Dispatch.events, Dispatch.marks, ← List.singleton_append, List.count_append, hfirst,
    List.count_append, List.countP_append, hcalls, Nat.add_comm]
  congr 2
  cases ha : d.alarm with
  | none => rfl
  | some a =>
    rw [Option.toList_some, List.flatMap_singleton, List.flatMap_singleton]
    exact (h.alarm a ha).count_disconnected hends

theorem Lawful.toldIn_le (h : d.Lawful P size) (hcalls : CallsWithin P bound inner) :
    (toldIn (d.marks inner)).length ≤ 2 * size + bound * (d.marks inner).countP isEnded := by
  have hown := length_toldIn_calls hcalls h.during
  have hlength := h.length_calls
  have halarm : (toldIn (d.alarm.toList.flatMap (Alarm.marks inner))).length ≤
      size + bound * (d.alarm.toList.flatMap (Alarm.marks inner)).countP isEnded := by
    cases ha : d.alarm with
    | none => exact Nat.zero_le _
    | some a =>
      rw [Option.toList_some, List.flatMap_singleton]
      exact (h.alarm a ha).toldIn_le hcalls
  rw [Dispatch.marks, toldIn_append, List.length_append, List.countP_append, Nat.mul_add]
  omega

end Dispatch

end counting

/-! ## Farewells -/

namespace Farewell

variable {d : Farewell} {size : Nat}

def events (d : Farewell) : List Event := Dispatch.events Empty.elim d

theorem eventsIn_empty (xs : List (Call Empty)) : eventsIn Empty.elim xs = [] := by
  rw [eventsIn, List.flatMap_eq_nil_iff]
  intro x _
  rw [List.flatMap_eq_nil_iff]
  exact fun y => y.elim

theorem Lawful.events_eq (h : d.Lawful size) : d.events = [.disconnected] := by
  have halarm : d.alarm.toList.flatMap (Alarm.events Empty.elim) = [] := by
    rw [List.flatMap_eq_nil_iff]
    exact fun a _ => eventsIn_empty a.calls
  rw [events, Dispatch.events, eventsIn_empty, halarm, h.event]
  rfl

theorem Lawful.countP_isEnded (h : d.Lawful size) : d.marks.countP isEnded = 1 := by
  -- While the end is told, no other end is: all are counted when the channel is marked.
  have hnothing : EndsWith (fun _ : Empty => True) Empty.elim Empty.elim := fun y => y.elim
  have hcount := h.lawful.count_disconnected hnothing
  have hevents : (Dispatch.events Empty.elim d).count .disconnected = 1 := by
    rw [← events, h.events_eq]
    rfl
  rw [hevents, h.event] at hcount
  rw [marks, List.countP_cons_of_pos rfl]
  simpa using hcount.symm

theorem Lawful.toldIn_le (h : d.Lawful size) : (toldIn d.marks).length ≤ 2 * size := by
  have hnothing : CallsWithin (fun _ : Empty => True) 0 Empty.elim := fun y => y.elim
  have hown := h.lawful.toldIn_le hnothing
  rw [Nat.zero_mul, Nat.add_zero] at hown
  exact hown

theorem endsWith (size : Nat) : EndsWith (Farewell.Lawful size) events marks := by
  intro d h
  rw [h.events_eq, h.countP_isEnded]
  rfl

theorem callsWithin (size : Nat) : CallsWithin (Farewell.Lawful size) (2 * size) marks := by
  intro d h
  rw [h.countP_isEnded, Nat.mul_one]
  exact h.toldIn_le

end Farewell

/-! ## Entries -/

/-- What is told at one go. -/
inductive Entry where
  | dispatched (d : Dispatch Farewell)
  | alarmed (a : Alarm Farewell)
  /-- The channel is finished. -/
  | ended (d : Farewell)

namespace Entry

variable {e : Entry} {size : Nat}

def marks : Entry → List Mark
  | dispatched d => d.marks Farewell.marks
  | alarmed a => a.marks Farewell.marks
  | ended d => d.marks

def events : Entry → List Event
  | dispatched d => d.events Farewell.events
  | alarmed a => a.events Farewell.events
  | ended d => d.events

def Lawful (size : Nat) : Entry → Prop
  | dispatched d => d.Lawful (Farewell.Lawful size) size
  | alarmed a => a.Lawful (Farewell.Lawful size) size
  | ended d => Farewell.Lawful size d

/-- The end is dispatched, but the channel is not finished. -/
def bidsFarewell : Entry → Bool
  | dispatched d => d.event = .disconnected
  | _ => false

/-- An event other than the end is dispatched, or a fault is raised. -/
def Ordinary : Entry → Prop
  | dispatched d => d.event ≠ .disconnected
  | alarmed _ => True
  | ended _ => False

theorem Ordinary.bidsFarewell (h : e.Ordinary) : e.bidsFarewell = false := by
  cases e with
  | dispatched d => exact decide_eq_false h
  | _ => rfl

theorem Lawful.count_disconnected (h : e.Lawful size) :
    e.events.count .disconnected = e.marks.countP isEnded + e.bidsFarewell.toNat := by
  cases e with
  | dispatched d => exact Dispatch.Lawful.count_disconnected h (Farewell.endsWith size)
  | alarmed a => exact Alarm.Lawful.count_disconnected h (Farewell.endsWith size)
  | ended d => exact Farewell.endsWith size d h

/-- Each reactor is called twice at most, and twice more if the channel is finished. -/
theorem Lawful.toldIn_le (h : e.Lawful size) :
    (toldIn e.marks).length ≤ 2 * size + 2 * size * e.marks.countP isEnded := by
  cases e with
  | dispatched d => exact Dispatch.Lawful.toldIn_le h (Farewell.callsWithin size)
  | alarmed a =>
    exact Nat.le_trans (Alarm.Lawful.toldIn_le h (Farewell.callsWithin size))
      (Nat.add_le_add_right (by omega) _)
  | ended d => exact Nat.le_trans (Farewell.Lawful.toldIn_le h) (Nat.le_add_right _ _)

end Entry

/-! ## Pages -/

/-- What is told on each channel while something is done. -/
abbrev Page := ChannelId → List Entry

namespace Page

def blank : Page := fun _ => []

def only (c : ChannelId) (e : Entry) : Page := fun c' => if c' = c then [e] else []

theorem only_self (c : ChannelId) (e : Entry) : only c e c = [e] := if_pos rfl

theorem only_of_ne {c c' : ChannelId} (e : Entry) (h : c' ≠ c) : only c e c' = [] := if_neg h

theorem eq_of_mem_only {c c' : ChannelId} {e e' : Entry} (h : e' ∈ only c e c') :
    c' = c ∧ e' = e := by
  obtain rfl | hc := eq_or_ne c' c
  · rw [only_self] at h
    exact ⟨rfl, List.mem_singleton.1 h⟩
  · rw [only_of_ne e hc] at h
    cases h

end Page

namespace Node

variable {n n' n'' : Node σ} {c : ChannelId} {page more : Page} {marks : List Mark}

def AllProbes (n : Node σ) : Prop :=
  ∀ c ch, n.channel? c = some ch → ∀ r ∈ ch.reactors, ∃ p, r = .probe p

/-- What was told from one node to the other is on the page. -/
structure Records (n : Node σ) (page : Page) (n' : Node σ) : Prop where
  lawful : ∀ c, ∀ e ∈ page c, e.Lawful (n.places c).length
  absent : ∀ c, n.channel? c = none → page c = []
  marked : ∀ c, n.Marked c ((page c).flatMap Entry.marks) n'

theorem AllProbes.probes (h : n.AllProbes) {ch : Channel σ} (hch : n.channel? c = some ch) :
    n.Probes c (n.places c).length := by
  refine ⟨ch, hch, ?_, h c ch hch⟩
  rw [places, hch, List.length_range]

theorem Marked.places (h : n.Marked c marks n') : n'.places c = n.places c := by
  cases hch : n.channel? c with
  | none => rw [Node.places, Node.places, (h.1 hch).1, hch]
  | some ch =>
    obtain ⟨ch', hch', hlater, -⟩ := h.2 ch hch
    rw [Node.places, Node.places, hch', hch]
    exact congrArg List.range hlater.length

theorem Records.allProbes (h : n.Records page n') (hprobes : n.AllProbes) : n'.AllProbes := by
  intro c ch' hch'
  cases hch : n.channel? c with
  | none =>
    rw [((h.marked c).1 hch).1] at hch'
    cases hch'
  | some ch =>
    obtain ⟨ch₁, hch₁, -, hall⟩ := (hprobes.probes hch).marked (h.marked c)
    rw [hch'] at hch₁
    cases hch₁
    exact hall

theorem Records.blank (h : ∀ c, n.Marked c [] n') : n.Records .blank n' :=
  ⟨fun _ => List.forall_mem_nil _, fun _ _ => rfl, h⟩

theorem Records.only {e : Entry} {ch : Channel σ} (hch : n.channel? c = some ch)
    (hlawful : e.Lawful (n.places c).length) (hmarked : n.MarkedOnly c e.marks n') :
    n.Records (.only c e) n' := by
  refine ⟨fun c' e' he' => ?_, fun c' hnone => ?_, fun c' => ?_⟩
  · obtain ⟨rfl, rfl⟩ := Page.eq_of_mem_only he'
    exact hlawful
  · refine Page.only_of_ne e fun hc => ?_
    rw [hc, hch] at hnone
    cases hnone
  · obtain rfl | hc := eq_or_ne c' c
    · rw [Page.only_self, List.flatMap_singleton]
      exact hmarked.1
    · rw [Page.only_of_ne e hc]
      exact hmarked.2 c' hc

theorem Records.trans (h : n.Records page n') (h' : n'.Records more n'') :
    n.Records (fun c => page c ++ more c) n'' := by
  refine ⟨fun c e he => ?_, fun c hnone => ?_, fun c => ?_⟩
  · obtain he | he := List.mem_append.1 he
    · exact h.lawful c e he
    · rw [← (h.marked c).places]
      exact h'.lawful c e he
  · rw [h.absent c hnone, h'.absent c ((h.marked c).1 hnone).1]
    rfl
  · rw [List.flatMap_append]
    exact (h.marked c).trans (h'.marked c)

end Node
end Courier
