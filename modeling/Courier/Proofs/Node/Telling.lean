import Courier.Proofs.Node.Accounts

/-! # What an operation tells

Whatever is done on pipelines of probes has a page (`exists_page`). An event that is dispatched is
one entry, a fault that is raised is one, and so is the end of a channel that was not finished
before; to close a channel tells nothing. The other operations tell events other than the end, and
faults (`Node.Tells`).
-/
set_option autoImplicit false

namespace Courier

open Courier.Wire Courier.Routing

variable {σ : Type}

namespace Node

variable {n n' n'' : Node σ} {c : ChannelId} {page more : Page}

/-! ## What tells no end -/

/-- Events other than the end are dispatched, and faults are raised. -/
def Tells (n n' : Node σ) : Prop :=
  n.AllProbes → ∃ page, n.Records page n' ∧ ∀ c, ∀ e ∈ page c, e.Ordinary

theorem Tells.blank (h : ∀ c, n.Marked c [] n') : n.Tells n' :=
  fun _ => ⟨.blank, .blank h, fun _ => List.forall_mem_nil _⟩

theorem Tells.refl (n : Node σ) : n.Tells n := .blank fun c => .refl n c

theorem Tells.trans (h : n.Tells n') (h' : n'.Tells n'') : n.Tells n'' := by
  intro hprobes
  obtain ⟨page, hpage, hordinary⟩ := h hprobes
  obtain ⟨more, hmore, hordinary'⟩ := h' (hpage.allProbes hprobes)
  refine ⟨_, hpage.trans hmore, fun c e he => ?_⟩
  exact (List.mem_append.1 he).elim (hordinary c e) (hordinary' c e)

theorem Tells.only {e : Entry} (hordinary : e.Ordinary) (h : n.Records (.only c e) n') :
    n.Tells n' := by
  refine fun _ => ⟨_, h, fun c' e' he' => ?_⟩
  rw [(Page.eq_of_mem_only he').2]
  exact hordinary

/-- A change of a channel that leaves no marks leaves none anywhere. -/
theorem unmarked_modify {f : Channel σ → Channel σ}
    (h : ∀ ch, n.channel? c = some ch → ch.Marked [] (f ch)) (c' : ChannelId) :
    n.Marked c' [] (n.modify c f) := by
  have honly := MarkedOnly.modify h rfl
  obtain rfl | hc := eq_or_ne c' c
  · exact honly.1
  · exact honly.2 c' hc

theorem unmarked_modify_const {ch ch' : Channel σ} (hch : n.channel? c = some ch)
    (h : ch.Marked [] ch') (c' : ChannelId) : n.Marked c' [] (n.modify c fun _ => ch') := by
  refine unmarked_modify (fun ch₀ hch₀ => ?_) c'
  rw [hch] at hch₀
  cases hch₀
  exact h

theorem unmarked_shut (n : Node σ) (c : ChannelId) (goodbye : Bool) (c' : ChannelId) :
    n.Marked c' [] (n.modify c (·.shut goodbye)) := by
  obtain rfl | hc := eq_or_ne c' c
  · exact (n.markedOnly_shut c' goodbye).1
  · exact (n.markedOnly_shut c goodbye).2 c' hc

end Node

/-! ## Operations -/

section operations

variable {n : Node σ} {c : ChannelId} {k : Reentry σ}

theorem finish_of_none (h : n.channel? c = none) : finish c n = n := by
  rw [finish, h]

section layer

variable (hk : ∀ c size, k.Finishes c size Farewell.marks (Farewell.Lawful size))

include hk

theorem records_dispatchWith {ch : Channel σ} (hprobes : n.AllProbes)
    (hch : n.channel? c = some ch) (e : Event) : ∃ d : Dispatch Farewell, d.event = e ∧
      n.Records (.only c (.dispatched d)) (dispatchWith k c e n) := by
  obtain ⟨d, hevent, hlawful, hmarked⟩ := exists_dispatchWith (hk c _) (hprobes.probes hch) e
  exact ⟨d, hevent, .only hch hlawful hmarked⟩

theorem records_raiseWith {ch : Channel σ} (hprobes : n.AllProbes)
    (hch : n.channel? c = some ch) (f : Fault) : ∃ a : Alarm Farewell, a.fault = f ∧
      n.Records (.only c (.alarmed a)) (raiseWith k c f n) := by
  obtain ⟨a, hfault, hlawful, hmarked⟩ := exists_alarmWith (hk c _) (hprobes.probes hch) f
  exact ⟨a, hfault, .only hch hlawful hmarked⟩

theorem tells_dispatchWith (n : Node σ) (c : ChannelId) {e : Event} (he : e ≠ .disconnected) :
    n.Tells (dispatchWith k c e n) := by
  intro hprobes
  cases hch : n.channel? c with
  | none =>
    rw [dispatchWith_of_none hch]
    exact Node.Tells.refl n hprobes
  | some ch =>
    obtain ⟨d, rfl, hrecords⟩ := records_dispatchWith hk hprobes hch e
    exact Node.Tells.only (e := .dispatched d) he hrecords hprobes

theorem tells_raiseWith (n : Node σ) (c : ChannelId) (f : Fault) :
    n.Tells (raiseWith k c f n) := by
  intro hprobes
  cases hch : n.channel? c with
  | none =>
    rw [raiseWith_of_none hch]
    exact Node.Tells.refl n hprobes
  | some ch =>
    obtain ⟨a, -, hrecords⟩ := records_raiseWith hk hprobes hch f
    exact Node.Tells.only (e := .alarmed a) trivial hrecords hprobes

end layer

/-- So any operation that neither finishes a channel nor dispatches its end tells nothing else. -/
theorem tells_telling : Telling (Node.Tells (σ := σ)) where
  refl := .refl
  trans := .trans
  registry := fun _ _ => .blank fun _ => .of_same rfl rfl
  policy := fun _ _ => .blank fun _ => .of_same rfl rfl
  enqueue := by
    intro n c ch ch' b hch h
    obtain ⟨-, -, rfl⟩ := Channel.enqueue_eq_ok h
    exact .blank (Node.unmarked_modify_const hch (.of_unchanged rfl rfl rfl rfl))
  session := fun hch hstep =>
    .blank (Node.unmarked_modify_const hch (.of_unchanged hstep.role rfl rfl rfl))
  dispatch := fun c _ n he => tells_dispatchWith finishes_full n c he
  -- The layer below finishes channels as this one does.
  announce := fun c _ n he => tells_dispatchWith (k := .quiet) finishes_full n c he
  raise := fun c f n => tells_raiseWith finishes_full n c f

/-! ## Any operation -/

/-- What an operation puts on a page, on a channel that exists or not: dispatching, raising and
finishing one entry, closing none; any other no end. -/
def Operation.Fills (c : ChannelId) (page : Page) : Option (Channel σ) → Operation → Prop
  | some _, .dispatch e => ∃ d, d.event = e ∧ page = .only c (.dispatched d)
  | some _, .raise f => ∃ a, a.fault = f ∧ page = .only c (.alarmed a)
  | some ch, .finish => if ch.finished then page = .blank else ∃ d, page = .only c (.ended d)
  | none, .dispatch _ | none, .raise _ | none, .finish => page = .blank
  | _, .close | _, .detach => page = .blank
  | _, .greet | _, .write _ | _, .receive _ | _, .route _ => ∀ c, ∀ e ∈ page c, e.Ordinary

/-- Where a farewell is bidden, that is what the operation is for. -/
theorem Operation.Fills.eq_of_bidsFarewell {o : Operation} {page : Page}
    {found : Option (Channel σ)} (h : o.Fills c page found) {c' : ChannelId} {e : Entry}
    (he : e ∈ page c') (hbids : e.bidsFarewell = true) :
    o = .dispatch .disconnected ∧ c' = c ∧ page c' = [e] := by
  have hblank : page ≠ .blank := by
    rintro rfl
    cases he
  have hordinary : ¬ e.Ordinary := by
    intro hordinary
    rw [hordinary.bidsFarewell] at hbids
    cases hbids
  have honly : ∀ {e' : Entry}, page = .only c e' → e = e' ∧ c' = c ∧ page c' = [e] := by
    rintro e' rfl
    obtain ⟨rfl, rfl⟩ := Page.eq_of_mem_only he
    exact ⟨rfl, rfl, Page.only_self ..⟩
  cases o with
  | dispatch e' =>
    cases found with
    | none => exact absurd h hblank
    | some ch =>
      obtain ⟨d, rfl, hpage⟩ := h
      obtain ⟨rfl, hplace⟩ := honly hpage
      exact ⟨congrArg Operation.dispatch (of_decide_eq_true hbids), hplace⟩
  | raise f =>
    cases found with
    | none => exact absurd h hblank
    | some ch =>
      obtain ⟨a, -, hpage⟩ := h
      obtain ⟨rfl, -⟩ := honly hpage
      cases hbids
  | finish =>
    cases found with
    | none => exact absurd h hblank
    | some ch =>
      rw [Fills] at h
      split at h
      · exact absurd h hblank
      · obtain ⟨d, hpage⟩ := h
        obtain ⟨rfl, -⟩ := honly hpage
        cases hbids
  | close | detach => cases found <;> exact absurd h hblank
  | greet | write | receive | route => cases found <;> exact absurd (h c' e he) hordinary

/-- Whatever is done on pipelines of probes has a page. -/
theorem exists_page (hprobes : n.AllProbes) (c : ChannelId) (o : Operation) :
    ∃ page, n.Records page (o.perform c n) ∧ o.Fills c page (n.channel? c) := by
  have hsame : ∀ {n' : Node σ}, n' = n → n.Records .blank n' := by
    rintro n' rfl
    exact .blank fun c => .refl n' c
  have hshut : ∀ goodbye, n.Records .blank (n.modify c (·.shut goodbye)) := fun goodbye =>
    .blank (Node.unmarked_shut n c goodbye)
  cases o with
  | dispatch e =>
    cases hch : n.channel? c with
    | none => exact ⟨.blank, hsame (dispatchWith_of_none hch e), rfl⟩
    | some ch =>
      obtain ⟨d, hevent, hrecords⟩ := records_dispatchWith finishes_full hprobes hch e
      exact ⟨_, hrecords, d, hevent, rfl⟩
  | raise f =>
    cases hch : n.channel? c with
    | none => exact ⟨.blank, hsame (raiseWith_of_none hch f), rfl⟩
    | some ch =>
      obtain ⟨a, hfault, hrecords⟩ := records_raiseWith finishes_full hprobes hch f
      exact ⟨_, hrecords, a, hfault, rfl⟩
  | finish =>
    cases hch : n.channel? c with
    | none => exact ⟨.blank, hsame (finish_of_none hch), rfl⟩
    | some ch =>
      by_cases hf : ch.finished = true
      · exact ⟨.blank, hsame (Node.finish_of_finished hch hf), by rw [Operation.Fills, if_pos hf]⟩
      · obtain ⟨d, hlawful, hmarked⟩ := exists_farewell (hprobes.probes hch) hch hf
        refine ⟨_, .only (e := .ended d) hch hlawful hmarked, ?_⟩
        rw [Operation.Fills, if_neg hf]
        exact ⟨d, rfl⟩
  | close => exact ⟨.blank, hshut false, by cases n.channel? c <;> rfl⟩
  | detach => exact ⟨.blank, hshut true, by cases n.channel? c <;> rfl⟩
  | greet =>
    obtain ⟨page, hrecords, hordinary⟩ := tells_telling.greet c n hprobes
    exact ⟨page, hrecords, by cases n.channel? c <;> exact hordinary⟩
  | write w =>
    obtain ⟨page, hrecords, hordinary⟩ := telling_write tells_telling c w n hprobes
    exact ⟨page, hrecords, by cases n.channel? c <;> exact hordinary⟩
  | receive f =>
    obtain ⟨page, hrecords, hordinary⟩ := tells_telling.receive c f n hprobes
    exact ⟨page, hrecords, by cases n.channel? c <;> exact hordinary⟩
  | route p =>
    obtain ⟨page, hrecords, hordinary⟩ := tells_telling.routePacket p n hprobes
    exact ⟨page, hrecords, by cases n.channel? c <;> exact hordinary⟩

end operations
end Courier
