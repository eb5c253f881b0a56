import Courier.Node.Receive

/-! # Running actions

An action is run step by step: a step that gives a value hands it on, a step that fails ends the
run, and the node stays as it is then. With this, here is what one finds in a node after a change of
one part of it.
-/
set_option autoImplicit false

namespace Courier

open Courier.Wire Courier.Routing

variable {σ α β : Type}

/-! ## Steps -/

namespace Action

theorem apply_bind (a : Action σ α) (f : α → Action σ β) (n : Node σ) :
    (a >>= f).apply n = match a.apply n with
      | (.ok v, n') => (f v).apply n'
      | (.error e, n') => (.error e, n') := by
  unfold apply ExceptT.run StateT.run
  simp only [bind, ExceptT.bind, ExceptT.mk, StateT.bind]
  cases a n with
  | mk r n' => cases r <;> rfl

variable {a : Action σ α} {f : α → Action σ β} {n n' : Node σ}

theorem apply_bind_ok {v : α} (h : a.apply n = (.ok v, n')) :
    (a >>= f).apply n = (f v).apply n' := by
  rw [apply_bind, h]

theorem apply_bind_error {e : Fault} (h : a.apply n = (.error e, n')) :
    (a >>= f).apply n = (.error e, n') := by
  rw [apply_bind, h]

theorem apply_bind_eq_ok {v : β} (h : (a >>= f).apply n = (.ok v, n')) :
    ∃ u n₁, a.apply n = (.ok u, n₁) ∧ (f u).apply n₁ = (.ok v, n') := by
  rw [apply_bind] at h
  cases hrun : a.apply n with
  | mk r n₁ =>
    rw [hrun] at h
    cases r with
    | error e => cases h
    | ok u => exact ⟨u, n₁, rfl, h⟩

@[simp] theorem apply_get_bind (f : Node σ → Action σ β) (n : Node σ) :
    (get >>= f).apply n = (f n).apply n := rfl

@[simp] theorem apply_modify_bind (g : Node σ → Node σ) (f : Unit → Action σ β) (n : Node σ) :
    ((modify g : Action σ Unit) >>= f).apply n = (f ()).apply (g n) := rfl

@[simp] theorem apply_set_bind (n' : Node σ) (f : Unit → Action σ β) (n : Node σ) :
    ((set n' : Action σ Unit) >>= f).apply n = (f ()).apply n' := rfl

end Action

/-! ## What a change leaves in a node -/

namespace Node

variable (n : Node σ) (c c' : ChannelId) (f : Channel σ → Channel σ)

@[simp] theorem channel?_with_registry (r : Registry) :
    ({ n with registry := r } : Node σ).channel? c = n.channel? c := rfl

theorem channel?_modify_self : (n.modify c f).channel? c = (n.channel? c).map f := by
  show (n.channels.modify c.index f)[c.index]? = _
  rw [List.getElem?_modify]
  simp [channel?]

theorem channel?_modify_of_some {n : Node σ} {c : ChannelId} {ch : Channel σ}
    (h : n.channel? c = some ch) (f : Channel σ → Channel σ) :
    (n.modify c f).channel? c = some (f ch) := by
  rw [channel?_modify_self, h]
  rfl

theorem channel?_modify_of_ne {c c' : ChannelId} (h : c' ≠ c) :
    (n.modify c f).channel? c' = n.channel? c' := by
  have hindex : ¬ c.index = c'.index := by
    intro heq
    apply h
    cases c
    cases c'
    exact congrArg ChannelId.mk heq.symm
  show (n.channels.modify c.index f)[c'.index]? = _
  rw [List.getElem?_modify]
  simp [channel?, hindex]

/-- Only what a change does to the channel in its place counts. -/
theorem modify_congr {n : Node σ} {c : ChannelId} {f g : Channel σ → Channel σ}
    (h : ∀ ch, n.channel? c = some ch → f ch = g ch) : n.modify c f = n.modify c g := by
  have hchannels : n.channels.modify c.index f = n.channels.modify c.index g := by
    apply List.ext_getElem?
    intro i
    rw [List.getElem?_modify, List.getElem?_modify]
    by_cases hi : c.index = i
    · subst hi
      cases hch : n.channels[c.index]? with
      | none => rfl
      | some ch => simp [h ch hch]
    · simp [hi]
  show { n with channels := n.channels.modify c.index f } =
    { n with channels := n.channels.modify c.index g }
  rw [hchannels]

theorem modify_eq_const {n : Node σ} {c : ChannelId} {ch : Channel σ} (h : n.channel? c = some ch)
    (f : Channel σ → Channel σ) : n.modify c f = n.modify c fun _ => f ch := by
  apply modify_congr
  intro ch₀ hch₀
  rw [h] at hch₀
  cases hch₀
  rfl

theorem modify_same : (n.modify c fun ch => ch) = n := by
  show { n with channels := n.channels.modify c.index id } = n
  rw [List.modify_id]

theorem modify_const_self {ch : Channel σ} (h : n.channel? c = some ch) :
    (n.modify c fun _ => ch) = n := by
  have hsame : (n.modify c fun _ => ch) = n.modify c fun ch => ch := by
    apply modify_congr
    intro ch₀ hch₀
    rw [h] at hch₀
    exact Option.some.inj hch₀
  rw [hsame, modify_same]

theorem modify_of_none (h : n.channel? c = none) : n.modify c f = n := by
  have hsame : n.modify c f = n.modify c fun ch => ch := by
    apply modify_congr
    intro ch hch
    rw [h] at hch
    cases hch
  rw [hsame, modify_same]

theorem modify_modify (g : Channel σ → Channel σ) :
    (n.modify c f).modify c g = n.modify c fun ch => g (f ch) := by
  have hchannels : (n.channels.modify c.index f).modify c.index g =
      n.channels.modify c.index fun ch => g (f ch) := by
    apply List.ext_getElem?
    intro i
    rw [List.getElem?_modify, List.getElem?_modify, List.getElem?_modify]
    by_cases hi : c.index = i <;> simp [hi, Function.comp_def]
  show { n with channels := (n.channels.modify c.index f).modify c.index g } =
    { n with channels := n.channels.modify c.index fun ch => g (f ch) }
  rw [hchannels]

variable (r : Reporter) (s : Signal)

@[simp] theorem channels_note : (n.note c r s).channels = n.channels := by
  unfold note
  split <;> rfl

@[simp] theorem channel?_note : (n.note c r s).channel? c' = n.channel? c' := by
  unfold note
  split <;> rfl

@[simp] theorem registry_note : (n.note c r s).registry = n.registry := by
  unfold note
  split <;> rfl

@[simp] theorem policy_note : (n.note c r s).policy = n.policy := by
  unfold note
  split <;> rfl

theorem reactor?_eq_some_iff {i : Nat} {r : Reactor σ} :
    n.reactor? c i = some r ↔ ∃ ch, n.channel? c = some ch ∧ ch.reactors[i]? = some r := by
  unfold reactor?
  cases n.channel? c with
  | none => simp
  | some ch => simp

end Node

def Node.identity? (n : Node σ) (c : ChannelId) : Option Address :=
  (n.channel? c).bind (·.session.identity)

section identity

variable {n n' : Node σ} {c : ChannelId} {ch ch' : Channel σ}

theorem identity?_eq (h : n.channel? c = some ch) : n.identity? c = ch.session.identity := by
  rw [Node.identity?, h]
  rfl

theorem identity?_modify (hch : n.channel? c = some ch) (c' : ChannelId) :
    (n.modify c fun _ => ch').identity? c' =
      if c' = c then ch'.session.identity else n.identity? c' := by
  by_cases hc : c' = c
  · subst hc
    rw [identity?_eq (Node.channel?_modify_of_some hch _), if_pos rfl]
  · rw [Node.identity?, Node.channel?_modify_of_ne n _ hc, if_neg hc]
    rfl

theorem identity?_modify_of_eq (hch : n.channel? c = some ch)
    (heq : ch'.session.identity = ch.session.identity) (c' : ChannelId) :
    (n.modify c fun _ => ch').identity? c' = n.identity? c' := by
  rw [identity?_modify hch]
  by_cases hc : c' = c
  · rw [if_pos hc, hc, heq, identity?_eq hch]
  · rw [if_neg hc]

theorem identity?_modify_of_kept (hch : n.channel? c = some ch)
    (hkept : ∀ a, ch.session.identity = some a → ch'.session.identity = some a) (c' : ChannelId)
    (a : Address) (ha : n.identity? c' = some a) :
    (n.modify c fun _ => ch').identity? c' = some a := by
  rw [identity?_modify hch]
  by_cases hc : c' = c
  · rw [hc, identity?_eq hch] at ha
    rw [if_pos hc]
    exact hkept a ha
  · rw [if_neg hc]
    exact ha

/-- What holds of the channel that is changed and of those that stay the same holds of every
channel. -/
theorem Node.exists_modify {Q : ChannelId → Channel σ → Channel σ → Prop}
    (hch : n.channel? c = some ch) (hself : Q c ch ch') (hothers : ∀ c' ≠ c, ∀ ch₀, Q c' ch₀ ch₀) :
    ∀ c' ch₀, n.channel? c' = some ch₀ →
      ∃ ch₁, (n.modify c fun _ => ch').channel? c' = some ch₁ ∧ Q c' ch₀ ch₁ := by
  intro c' ch₀ hch₀
  by_cases hc : c' = c
  · subst hc
    rw [hch] at hch₀
    cases hch₀
    exact ⟨ch', channel?_modify_of_some hch _, hself⟩
  · exact ⟨ch₀, (channel?_modify_of_ne n _ hc).trans hch₀, hothers c' hc ch₀⟩

theorem identity?_of_channels (h : n'.channels = n.channels) (c : ChannelId) :
    n'.identity? c = n.identity? c := by
  rw [Node.identity?, Node.channel?, h]
  rfl

end identity

/-! ## Single steps -/

theorem apply_onChannel (c : ChannelId) (f : Channel σ → Except Fault (α × Channel σ))
    (n : Node σ) :
    (onChannel c f).apply n = match n.channel? c with
      | none => (.error (.write (.writerGone c)), n)
      | some ch => match f ch with
        | .error e => (.error e, n)
        | .ok (v, ch') => (.ok v, n.modify c fun _ => ch') := by
  rw [onChannel, Action.apply_get_bind]
  cases n.channel? c with
  | none => rfl
  | some ch =>
    simp only []
    cases f ch with
    | error e => rfl
    | ok field => rfl

theorem apply_enqueue (c : ChannelId) (b : ByteArray) (n : Node σ) :
    (enqueue c b).apply n = match n.channel? c with
      | none => (.error (.write (.writerGone c)), n)
      | some ch => match ch.enqueue c b with
        | .error e => (.error (.write e), n)
        | .ok ch' => (.ok (), n.modify c fun _ => ch') := by
  rw [enqueue, apply_onChannel]
  cases n.channel? c with
  | none => rfl
  | some ch =>
    simp only []
    cases ch.enqueue c b with
    | error e => rfl
    | ok ch' => rfl

theorem apply_stepSession (c : ChannelId) (step : Session → Except InvalidStep (Session × α))
    (n : Node σ) :
    (stepSession c step).apply n = match n.channel? c with
      | none => (.error (.write (.writerGone c)), n)
      | some ch => match step ch.session with
        | .error e => (.error (.step e), n)
        | .ok (s, v) => (.ok v, n.modify c fun _ => ch.setSession s) := by
  rw [stepSession, apply_onChannel]
  cases n.channel? c with
  | none => rfl
  | some ch =>
    simp only []
    cases step ch.session with
    | error e => rfl
    | ok field => rfl

theorem plainStep_eq_ok_iff {step : Session → Except InvalidStep Session} {s s' : Session}
    {u : Unit} : plainStep step s = .ok (s', u) ↔ step s = .ok s' := by
  unfold plainStep
  cases step s with
  | error e => exact ⟨fun h => (nomatch h), fun h => (nomatch h)⟩
  | ok s₀ => exact ⟨fun h => by cases h; rfl, fun h => by cases h; rfl⟩

theorem apply_consult (p : Policy σ α) (n : Node σ) :
    (consult p).apply n = ((p n.policy).1, { n with policy := (p n.policy).2 }) := by
  rw [consult, Action.apply_get_bind]
  cases hp : p n.policy with
  | mk answer policy => cases answer <;> rfl

theorem forM_cons (f : β → Action σ Unit) (x : β) (rest : List β) :
    (x :: rest).forM f = (f x >>= fun _ => rest.forM f) := rfl

/-- What comes of an action whose fault is raised. -/
def settled (k : Reentry σ) (c : ChannelId) (a : Action σ Unit) (n : Node σ) : Node σ :=
  match a.apply n with
  | (.ok (), n) => n
  | (.error f, n) => raiseWith k c f n

theorem settled_bind_ok {k : Reentry σ} {c : ChannelId} {x y : Action σ Unit} {n m : Node σ}
    (h : x.apply n = (.ok (), m)) : settled k c (do x; y) n = settled k c y m := by
  rw [settled, settled, Action.apply_bind_ok h]

end Courier
