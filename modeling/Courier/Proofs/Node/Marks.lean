import Courier.Proofs.Node.Endings

/-! # What handlers leave behind

A pipeline of probes is told signals. What happens on its channel while it is told can be read as a
list of marks: a handler is called, and later returns, with a fault or without; a fault is raised;
the channel is over. A node bears the marks of what was done in it (`Node.Marked`): the notices are
the calls, in order; each probe has dealt with the signals for which its handler returned, and it
failed where it says so itself; the first fault raised is remembered; and the channel is finished
once it is over.
-/
set_option autoImplicit false

namespace Courier

open Courier.Wire

variable {σ : Type}

/-! ## Marks -/

/-- One thing that happens on a channel while its pipeline is told something. -/
inductive Mark where
  /-- The handler in a place is called. -/
  | told (place : Nat) (signal : Signal)
  /-- It returns. -/
  | dealt (place : Nat) (signal : Signal) (fault : Option Fault)
  | raised (fault : Fault)
  /-- The channel is marked as finished. -/
  | ended
deriving DecidableEq

namespace Mark

def told? : Mark → Option (Nat × Signal)
  | told i s => some (i, s)
  | _ => none

def dealtAt? (i : Nat) : Mark → Option (Signal × Option Fault)
  | dealt j s f => if j = i then some (s, f) else none
  | _ => none

def raised? : Mark → Option Fault
  | raised f => some f
  | _ => none

def isEnded : Mark → Bool
  | ended => true
  | _ => false

end Mark

open Mark

/-- The handlers that were called: their places, and what they were told. -/
def toldIn (marks : List Mark) : List (Nat × Signal) := marks.filterMap told?

/-- What the handler in a place has dealt with, and how. -/
def dealtIn (marks : List Mark) (i : Nat) : List (Signal × Option Fault) :=
  marks.filterMap (dealtAt? i)

def raisedIn (marks : List Mark) : List Fault := marks.filterMap raised?

theorem toldIn_append (marks more : List Mark) :
    toldIn (marks ++ more) = toldIn marks ++ toldIn more := List.filterMap_append

theorem dealtIn_append (marks more : List Mark) (i : Nat) :
    dealtIn (marks ++ more) i = dealtIn marks i ++ dealtIn more i := List.filterMap_append

theorem raisedIn_append (marks more : List Mark) :
    raisedIn (marks ++ more) = raisedIn marks ++ raisedIn more := List.filterMap_append

/-! ## Probes -/

/-- Whether a handler fails on a signal, behind those that it has dealt with. A handler of exceptions
does not fail. -/
def verdict (fails : List Signal → Option Fault) (seen : List Signal) : Signal → Option Fault
  | .event e => fails (.event e :: seen)
  | .exception _ => none

/-- A handler deals with signals, one after the other, and fails on those on which it says so. -/
def Answers (fails : List Signal → Option Fault) :
    List Signal → List (Signal × Option Fault) → Prop
  | _, [] => True
  | seen, x :: rest => x.2 = verdict fails seen x.1 ∧ Answers fails (x.1 :: seen) rest

theorem answers_append_iff {fails : List Signal → Option Fault} {seen : List Signal}
    {xs ys : List (Signal × Option Fault)} :
    Answers fails seen (xs ++ ys) ↔
      Answers fails seen xs ∧ Answers fails ((xs.map (·.1)).reverse ++ seen) ys := by
  induction xs generalizing seen with
  | nil => simp [Answers]
  | cons x xs ih => simp [Answers, ih, and_assoc]

/-- A reactor that has dealt with more signals; only a probe remembers any. -/
def Reactor.hear (signals : List Signal) : Reactor σ → Reactor σ
  | .probe p => .probe { p with seen := signals.reverse ++ p.seen }
  | r => r

theorem Reactor.hear_nil (r : Reactor σ) : r.hear [] = r := by cases r <;> rfl

theorem Reactor.hear_hear (r : Reactor σ) (xs ys : List Signal) :
    (r.hear xs).hear ys = r.hear (xs ++ ys) := by
  cases r with
  | probe p => simp [hear]
  | _ => rfl

/-! ## A channel -/

namespace Channel

def probeName (ch : Channel σ) (i : Nat) : String :=
  match ch.reactors[i]? with
  | some (.probe p) => p.name
  | _ => ""

def notice (ch : Channel σ) (c : ChannelId) (x : Nat × Signal) : Notice :=
  ⟨.probe (ch.probeName x.1), c, ch.session.role, x.2⟩

/-- The channel, later, bears these marks. -/
structure Marked (marks : List Mark) (ch ch' : Channel σ) : Prop where
  role : ch'.session.role = ch.session.role
  reactors : ∀ i, ch'.reactors[i]? =
    (ch.reactors[i]?).map (Reactor.hear ((dealtIn marks i).map (·.1)))
  answers : ∀ i p, ch.reactors[i]? = some (.probe p) → Answers p.fails p.seen (dealtIn marks i)
  fault : ch'.fault = ch.fault.or (raisedIn marks).head?
  finished : ch'.finished.toNat = ch.finished.toNat + marks.countP isEnded

variable {ch ch' ch'' : Channel σ} {marks more : List Mark}

namespace Marked

/-- A change that leaves the pipeline as it is. -/
theorem of_same (hrole : ch'.session.role = ch.session.role)
    (hreactors : ch'.reactors = ch.reactors) (hdealt : ∀ i, dealtIn marks i = [])
    (hfault : ch'.fault = ch.fault.or (raisedIn marks).head?)
    (hfinished : ch'.finished.toNat = ch.finished.toNat + marks.countP isEnded) :
    ch.Marked marks ch' := by
  refine ⟨hrole, fun i => ?_, fun i p _ => ?_, hfault, hfinished⟩
  · rw [hreactors, hdealt]
    cases ch.reactors[i]? with
    | none => rfl
    | some r => exact congrArg some r.hear_nil.symm
  · rw [hdealt]
    trivial

/-- What is no change of the pipeline, the fault or the end leaves no marks. -/
theorem of_unchanged (hrole : ch'.session.role = ch.session.role)
    (hreactors : ch'.reactors = ch.reactors) (hfault : ch'.fault = ch.fault)
    (hfinished : ch'.finished = ch.finished) : ch.Marked [] ch' :=
  of_same hrole hreactors (fun _ => rfl) (hfault.trans (Option.or_none ..).symm)
    (congrArg Bool.toNat hfinished)

theorem refl (ch : Channel σ) : ch.Marked [] ch := of_unchanged rfl rfl rfl rfl

theorem trans (h : ch.Marked marks ch') (h' : ch'.Marked more ch'') :
    ch.Marked (marks ++ more) ch'' where
  role := h'.role.trans h.role
  reactors i := by
    rw [h'.reactors, h.reactors, dealtIn_append, List.map_append, Option.map_map]
    congr 1
    funext r
    exact r.hear_hear _ _
  answers i p hp := by
    rw [dealtIn_append, answers_append_iff]
    refine ⟨h.answers i p hp, ?_⟩
    have hlater := h.reactors i
    rw [hp] at hlater
    exact h'.answers i _ hlater
  fault := by
    rw [h'.fault, h.fault, raisedIn_append, List.head?_append, Option.or_assoc]
  finished := by rw [h'.finished, h.finished, List.countP_append, Nat.add_assoc]

theorem length (h : ch.Marked marks ch') : ch'.reactors.length = ch.reactors.length := by
  have hlist : ch'.reactors =
      ch.reactors.mapIdx fun i r => r.hear ((dealtIn marks i).map (·.1)) := by
    apply List.ext_getElem?
    intro i
    rw [h.reactors, List.getElem?_mapIdx]
  rw [hlist, List.length_mapIdx]

theorem probeName (h : ch.Marked marks ch') (i : Nat) : ch'.probeName i = ch.probeName i := by
  rw [Channel.probeName, Channel.probeName, h.reactors]
  cases ch.reactors[i]? with
  | none => rfl
  | some r => cases r <;> rfl

theorem notice (h : ch.Marked marks ch') (c : ChannelId) : ch'.notice c = ch.notice c := by
  funext x
  rw [Channel.notice, Channel.notice, h.probeName, h.role]

end Marked
end Channel

/-! ## A node -/

namespace Node

def reports (n : Node σ) (c : ChannelId) : List Notice := n.notices.toList.filter (·.channel = c)

/-- The node, later, bears these marks of a channel. -/
def Marked (c : ChannelId) (marks : List Mark) (n n' : Node σ) : Prop :=
  (n.channel? c = none → n'.channel? c = none ∧ n'.reports c = n.reports c) ∧
  ∀ ch, n.channel? c = some ch → ∃ ch', n'.channel? c = some ch' ∧ ch.Marked marks ch' ∧
    n'.reports c = n.reports c ++ (toldIn marks).map (ch.notice c)

/-- It bears these marks of one channel, and none of any other. -/
def MarkedOnly (c : ChannelId) (marks : List Mark) (n n' : Node σ) : Prop :=
  n.Marked c marks n' ∧ ∀ c' ≠ c, n.Marked c' [] n'

variable {n n' n'' : Node σ} {c c' : ChannelId} {marks more : List Mark}

theorem Marked.of_same (hchannel : n'.channel? c = n.channel? c)
    (hreports : n'.reports c = n.reports c) : n.Marked c [] n' := by
  refine ⟨fun hnone => ⟨hchannel.trans hnone, hreports⟩, fun ch hch => ?_⟩
  exact ⟨ch, hchannel.trans hch, .refl ch, hreports.trans (List.append_nil _).symm⟩

theorem Marked.refl (n : Node σ) (c : ChannelId) : n.Marked c [] n := .of_same rfl rfl

theorem Marked.trans (h : n.Marked c marks n') (h' : n'.Marked c more n'') :
    n.Marked c (marks ++ more) n'' := by
  refine ⟨fun hnone => ?_, fun ch hch => ?_⟩
  · obtain ⟨hnone', hreports⟩ := h.1 hnone
    obtain ⟨hnone'', hreports'⟩ := h'.1 hnone'
    exact ⟨hnone'', hreports'.trans hreports⟩
  · obtain ⟨ch', hch', hmarked, hreports⟩ := h.2 ch hch
    obtain ⟨ch'', hch'', hmarked', hreports'⟩ := h'.2 ch' hch'
    refine ⟨ch'', hch'', hmarked.trans hmarked', ?_⟩
    rw [hreports', hreports, hmarked.notice, toldIn_append, List.map_append, List.append_assoc]

theorem MarkedOnly.refl (n : Node σ) (c : ChannelId) : n.MarkedOnly c [] n :=
  ⟨.refl n c, fun c' _ => .refl n c'⟩

theorem MarkedOnly.trans (h : n.MarkedOnly c marks n') (h' : n'.MarkedOnly c more n'') :
    n.MarkedOnly c (marks ++ more) n'' :=
  ⟨h.1.trans h'.1, fun c' hc => (h.2 c' hc).trans (h'.2 c' hc)⟩

theorem MarkedOnly.modify {f : Channel σ → Channel σ}
    (h : ∀ ch, n.channel? c = some ch → ch.Marked marks (f ch)) (htold : toldIn marks = []) :
    n.MarkedOnly c marks (n.modify c f) := by
  refine ⟨⟨fun hnone => ?_, fun ch hch => ?_⟩, fun c' hc => ?_⟩
  · rw [modify_of_none n c f hnone]
    exact ⟨hnone, rfl⟩
  · refine ⟨f ch, channel?_modify_of_some hch f, h ch hch, ?_⟩
    rw [htold]
    exact (List.append_nil _).symm
  · exact .of_same (channel?_modify_of_ne n f hc) rfl

theorem Marked.reactor? (h : n.Marked c marks n') {i : Nat} {r : Reactor σ}
    (hr : n.reactor? c i = some r) :
    n'.reactor? c i = some (r.hear ((dealtIn marks i).map (·.1))) := by
  obtain ⟨ch, hch, hr⟩ := (n.reactor?_eq_some_iff c).1 hr
  obtain ⟨ch', hch', hmarked, -⟩ := h.2 ch hch
  refine (n'.reactor?_eq_some_iff c).2 ⟨ch', hch', ?_⟩
  rw [hmarked.reactors, hr]
  rfl

/-! ## Single changes -/

theorem reports_note (n : Node σ) (c c' : ChannelId) (r : Reporter) (s : Signal) {ch : Channel σ}
    (hch : n.channel? c = some ch) : (n.note c r s).reports c' =
      n.reports c' ++ if c = c' then [⟨r, c, ch.session.role, s⟩] else [] := by
  rw [note, hch]
  simp only [reports, Backlog.toList_push, List.filter_append, List.filter_cons, List.filter_nil,
    decide_eq_true_eq]

theorem markedOnly_note {i : Nat} {p : Probe} (hp : n.reactor? c i = some (.probe p)) (s : Signal) :
    n.MarkedOnly c [.told i s] (n.note c (.probe p.name) s) := by
  obtain ⟨ch, hch, hplace⟩ := (n.reactor?_eq_some_iff c).1 hp
  have hname : ch.probeName i = p.name := by rw [Channel.probeName, hplace]
  refine ⟨⟨fun hnone => ?_, fun ch₀ hch₀ => ?_⟩, fun c' hc => ?_⟩
  · rw [hch] at hnone
    cases hnone
  · rw [hch] at hch₀
    cases hch₀
    refine ⟨ch, (n.channel?_note c c _ s).trans hch,
      .of_same rfl rfl (fun _ => rfl) (Option.or_none ..).symm rfl, ?_⟩
    rw [reports_note n c c _ s hch, if_pos rfl, ← hname]
    rfl
  · refine .of_same (n.channel?_note c c' _ s) ?_
    rw [reports_note n c c' _ s hch, if_neg (Ne.symm hc), List.append_nil]

theorem markedOnly_shut (n : Node σ) (c : ChannelId) (goodbye : Bool) :
    n.MarkedOnly c [] (n.modify c (·.shut goodbye)) := by
  refine .modify (fun ch _ => ?_) rfl
  refine .of_unchanged ?_ (ch.reactors_shut goodbye) (ch.fault_shut goodbye)
    (ch.finished_shut goodbye)
  rw [ch.session_shut goodbye]
  rfl

theorem markedOnly_remember (n : Node σ) (c : ChannelId) (f : Fault) :
    n.MarkedOnly c [.raised f] (n.modify c (·.remember f)) :=
  .modify (fun _ _ => .of_same rfl rfl (fun _ => rfl) rfl rfl) rfl

/-- A channel that is not finished yet is marked and closed. -/
theorem markedOnly_over {ch : Channel σ} (hch : n.channel? c = some ch)
    (h : ¬ ch.finished = true) :
    n.MarkedOnly c [.ended] (n.modify c fun _ => { ch with finished := true }.close) := by
  refine .modify (fun ch₀ hch₀ => ?_) rfl
  rw [hch] at hch₀
  cases hch₀
  have hopen : ch.finished = false := by simpa using h
  refine .of_same ?_ (Channel.reactors_shut _ false) (fun _ => rfl) ?_ ?_
  · rw [Channel.close, Channel.session_shut]
    rfl
  · rw [Channel.close, Channel.fault_shut]
    exact (Option.or_none ..).symm
  · rw [Channel.close, Channel.finished_shut, hopen]
    rfl

theorem markedOnly_rememberSignal {i : Nat} {p : Probe} (hp : n.reactor? c i = some (.probe p))
    (s : Signal) :
    n.MarkedOnly c [.dealt i s (verdict p.fails p.seen s)] (rememberSignal c i s n) := by
  obtain ⟨ch, hch, hplace⟩ := (n.reactor?_eq_some_iff c).1 hp
  rw [rememberSignal, hp]
  refine .modify (fun ch₀ hch₀ => ?_) rfl
  rw [hch] at hch₀
  cases hch₀
  refine ⟨rfl, fun j => ?_, fun j q hq => ?_, (Option.or_none ..).symm, rfl⟩
  · by_cases hij : i = j
    · subst hij
      have hone : dealtIn [.dealt i s (verdict p.fails p.seen s)] i =
          [(s, verdict p.fails p.seen s)] := by simp [dealtIn, Mark.dealtAt?]
      rw [hone, hplace]
      exact List.getElem?_set_self (List.getElem?_eq_some_iff.1 hplace).1
    · have hnone : dealtIn [.dealt i s (verdict p.fails p.seen s)] j = [] := by
        simp [dealtIn, Mark.dealtAt?, hij]
      rw [hnone]
      simp only [List.getElem?_set_ne hij]
      cases ch.reactors[j]? with
      | none => rfl
      | some r => exact congrArg some r.hear_nil.symm
  · by_cases hij : i = j
    · subst hij
      rw [hplace] at hq
      cases hq
      simp [dealtIn, Mark.dealtAt?, Answers]
    · simp [dealtIn, Mark.dealtAt?, hij, Answers]

/-! ## Pipelines of probes -/

/-- A channel whose pipeline is made of this many probes. -/
def Probes (c : ChannelId) (size : Nat) (n : Node σ) : Prop :=
  ∃ ch, n.channel? c = some ch ∧ ch.reactors.length = size ∧ ∀ r ∈ ch.reactors, ∃ p, r = .probe p

variable {size : Nat}

theorem Probes.marked (h : n.Probes c size) (hmarked : n.Marked c marks n') :
    n'.Probes c size := by
  obtain ⟨ch, hch, hlength, hprobes⟩ := h
  obtain ⟨ch', hch', hlater, -⟩ := hmarked.2 ch hch
  refine ⟨ch', hch', hlater.length.trans hlength, fun r' hr' => ?_⟩
  obtain ⟨i, hr'⟩ := List.mem_iff_getElem?.1 hr'
  rw [hlater.reactors] at hr'
  obtain ⟨r, hr, rfl⟩ := Option.map_eq_some_iff.1 hr'
  obtain ⟨p, rfl⟩ := hprobes r (List.mem_of_getElem? hr)
  exact ⟨_, rfl⟩

theorem Probes.reactor? (h : n.Probes c size) {i : Nat} (hi : i < size) :
    ∃ p, n.reactor? c i = some (.probe p) := by
  obtain ⟨ch, hch, rfl, hprobes⟩ := h
  obtain ⟨p, hp⟩ := hprobes ch.reactors[i] (List.getElem_mem hi)
  exact ⟨p, (n.reactor?_eq_some_iff c).2 ⟨ch, hch, by rw [List.getElem?_eq_getElem hi, hp]⟩⟩

theorem Probes.places (h : n.Probes c size) : n.places c = List.range size := by
  obtain ⟨ch, hch, rfl, -⟩ := h
  rw [Node.places, hch]

end Node
end Courier
