import Courier.Proofs.Node.Later
import Mathlib.Data.List.Induction

/-! # Pipelines as they are wired

Both ends of a connection put the same three reactors in front: the event log, the one that closes
on a fault, and the ledger; none of those behind them is one of these or a probe. On such a pipeline
a fault is one thing (`raiseWith_eq`), and an event is told to the log, to the ledger and then to
the others in turn (`dispatchWith_eq`).
-/
set_option autoImplicit false

namespace Courier

open Courier.Wire Courier.Routing

variable {σ : Type}

/-! ## Wired channels -/

def front (l : Ledger) : List (Reactor σ) := [.eventLog, .detachOnException, .reliableDelivery l]

/-- A reactor that can stand behind those in front. -/
def Reactor.Plain : Reactor σ → Prop
  | .eventLog | .detachOnException | .reliableDelivery _ | .probe _ => False
  | _ => True

/-- The reactors in front with this ledger, and these behind them. -/
structure Channel.Wired (ch : Channel σ) (l : Ledger) (rest : List (Reactor σ)) : Prop where
  reactors : ch.reactors = front l ++ rest
  plain : ∀ r ∈ rest, r.Plain

def Channel.setLedger (ch : Channel σ) (l : Ledger) : Channel σ :=
  { ch with reactors := ch.reactors.set 2 (.reliableDelivery l) }

def Node.WiredAt (n : Node σ) (c : ChannelId) (l : Ledger) (rest : List (Reactor σ)) : Prop :=
  ∃ ch, n.channel? c = some ch ∧ ch.Wired l rest

variable {c : ChannelId} {l l' : Ledger} {rest : List (Reactor σ)} {n n' : Node σ} {k : Reentry σ}

theorem Reactor.Plain.of_alike {r r' : Reactor σ} (h : r.Plain) (halike : r.Alike r') : r' = r := by
  cases halike with
  | same => rfl
  | ledger => exact h.elim
  | probe => exact h.elim

namespace Channel

variable {ch ch' : Channel σ}

theorem Wired.setLedger (h : ch.Wired l rest) (l' : Ledger) : (ch.setLedger l').Wired l' rest := by
  refine ⟨?_, h.plain⟩
  rw [Channel.setLedger, h.reactors]
  rfl

theorem Wired.ledger?_eq (h : ch.Wired l rest) : ch.ledger? = some l := by
  obtain ⟨hreactors, hplain⟩ := h
  rw [ledger?, hreactors]
  clear hreactors
  -- From the right, since of several ledgers the last is found.
  induction rest using List.reverseRecOn with
  | nil => rfl
  | append_singleton rest r ih =>
    have hr : r.Plain := hplain r (List.mem_append_right _ (List.mem_singleton_self r))
    have hfound := ih fun r' hr' => hplain r' (List.mem_append_left _ hr')
    rw [← List.append_assoc, List.foldl_append, hfound]
    cases r with
    | reliableDelivery => exact hr.elim
    | _ => rfl

theorem Wired.unique {l l' : Ledger} {rest rest' : List (Reactor σ)} (h : ch.Wired l rest)
    (h' : ch.Wired l' rest') : l = l' ∧ rest = rest' := by
  have heq : front l ++ rest = front l' ++ rest' := h.reactors.symm.trans h'.reactors
  injection heq with _ heq
  injection heq with _ heq
  injection heq with hledger hrest
  injection hledger with hledger
  exact ⟨hledger, hrest⟩

theorem Wired.of_reactors_eq (h : ch.Wired l rest) (heq : ch'.reactors = ch.reactors) :
    ch'.Wired l rest := ⟨heq.trans h.reactors, h.plain⟩

/-- A wired channel stays wired; only its ledger may change. -/
theorem Wired.later (h : ch.Wired l rest) (hlater : ch.Later ch') : ∃ l', ch'.Wired l' rest := by
  have hplace : ∀ (i : Nat) (r : Reactor σ), (front l ++ rest)[i]? = some r →
      ∃ r', ch'.reactors[i]? = some r' ∧ r.Alike r' := by
    intro i r hr
    rw [← h.reactors] at hr
    exact hlater.alike i r hr
  obtain ⟨r, hlog, halike⟩ := hplace 0 .eventLog rfl
  cases halike
  obtain ⟨r, hdetach, halike⟩ := hplace 1 .detachOnException rfl
  cases halike
  obtain ⟨r, hledger, halike⟩ := hplace 2 (.reliableDelivery l) rfl
  have hl' : ∃ l', r = .reliableDelivery l' := by
    cases halike with
    | same => exact ⟨l, rfl⟩
    | ledger _ l' => exact ⟨l', rfl⟩
  obtain ⟨l', rfl⟩ := hl'
  refine ⟨l', ?_, h.plain⟩
  -- Behind the front the reactors are plain, and a plain reactor is alike to itself only.
  apply List.ext_getElem?
  intro i
  match i with
  | 0 => exact hlog
  | 1 => exact hdetach
  | 2 => exact hledger
  | i + 3 =>
    show ch'.reactors[i + 3]? = rest[i]?
    have hshift : (front l ++ rest)[i + 3]? = rest[i]? := rfl
    cases hr : rest[i]? with
    | some r =>
      obtain ⟨r', hr', halike⟩ := hplace (i + 3) r (hshift.trans hr)
      rw [hr', (h.plain r (List.mem_of_getElem? hr)).of_alike halike]
    | none =>
      have hlength := hlater.length
      rw [h.reactors, List.length_append] at hlength
      rw [List.getElem?_eq_none_iff] at hr ⊢
      change _ = 3 + _ at hlength
      omega

end Channel

namespace Node

theorem setReactor_eq {ch : Channel σ} (hch : n.channel? c = some ch) (l : Ledger) :
    n.setReactor c 2 (.reliableDelivery l) = n.modify c fun _ => ch.setLedger l :=
  modify_eq_const hch (·.setLedger l)

theorem WiredAt.later (h : n.WiredAt c l rest) (hlater : n.Later n') :
    ∃ l', n'.WiredAt c l' rest := by
  obtain ⟨ch, hch, hwired⟩ := h
  obtain ⟨ch', hch', hlater'⟩ := hlater.channel c ch hch
  obtain ⟨l', hwired'⟩ := hwired.later hlater'
  exact ⟨l', ch', hch', hwired'⟩

theorem WiredAt.reactor? (h : n.WiredAt c l rest) (i : Nat) :
    n.reactor? c i = (front l ++ rest)[i]? := by
  obtain ⟨ch, hch, hwired⟩ := h
  rw [Node.reactor?, hch, ← hwired.reactors]
  rfl

theorem WiredAt.reactor?_behind {before behind : List (Reactor σ)} {r : Reactor σ}
    (h : n.WiredAt c l (before ++ r :: behind)) :
    n.reactor? c (3 + before.length) = some r := by
  rw [h.reactor?, List.getElem?_append_right (Nat.le_add_right 3 _)]
  show (before ++ r :: behind)[3 + before.length - 3]? = some r
  rw [Nat.add_sub_cancel_left, List.getElem?_append_right (Nat.le_refl _), Nat.sub_self]
  rfl

theorem WiredAt.places (h : n.WiredAt c l rest) :
    n.places c = 0 :: 1 :: 2 :: List.range' 3 rest.length := by
  obtain ⟨ch, hch, hwired⟩ := h
  rw [Node.places, hch]
  simp only [hwired.reactors, front, List.length_append, List.length_cons, List.length_nil]
  rw [List.range_eq_range', Nat.add_comm, List.range'_succ, List.range'_succ, List.range'_succ]

theorem WiredAt.note (h : n.WiredAt c l rest) (c' : ChannelId) (r : Reporter) (s : Signal) :
    (n.note c' r s).WiredAt c l rest := by
  obtain ⟨ch, hch, hwired⟩ := h
  exact ⟨ch, (n.channel?_note c' c r s).trans hch, hwired⟩

theorem WiredAt.plain (h : n.WiredAt c l rest) : ∀ r ∈ rest, r.Plain := by
  obtain ⟨ch, -, hwired⟩ := h
  exact hwired.plain

end Node

/-! ## Faults -/

theorem exceptionAt_of_plain {i : Nat} (f : Fault)
    (h : ∀ r, n.reactor? c i = some r → r.Plain) : exceptionAt k c f n i = n := by
  unfold exceptionAt
  cases hr : n.reactor? c i with
  | none => rfl
  | some r =>
    have hplain := h r hr
    cases r with
    | eventLog | detachOnException | probe => exact hplain.elim
    | _ => rfl

/-- A fault on a wired channel is remembered, logged and told to the peer if it refuses it, and the
channel closes. -/
theorem raiseWith_eq (h : n.WiredAt c l rest) (f : Fault) :
    raiseWith k c f n =
      refuse c f ((n.modify c (·.remember f)).note c .eventLog (.exception f)) := by
  obtain ⟨ch, hch, hwired⟩ := h
  have hremembered : (n.modify c (·.remember f)).WiredAt c l rest := by
    exact ⟨ch.remember f, Node.channel?_modify_of_some hch _, hwired.of_reactors_eq rfl⟩
  have hnoted := hremembered.note c .eventLog (.exception f)
  generalize hm : (n.modify c (·.remember f)).note c .eventLog (.exception f) = m at hnoted ⊢
  obtain ⟨l', hrefused⟩ := hnoted.later (later_rule.refuse c f m)
  have hfirst : exceptionAt k c f (n.modify c (·.remember f)) 0 = m := by
    rw [exceptionAt, hremembered.reactor? 0, ← hm]
    rfl
  have hsecond : exceptionAt k c f m 1 = refuse c f m := by
    rw [exceptionAt, hnoted.reactor? 1]
    rfl
  have hthird : exceptionAt k c f (refuse c f m) 2 = refuse c f m := by
    rw [exceptionAt, hrefused.reactor? 2]
    rfl
  -- Those behind the front are told of the fault too, and do nothing.
  have hbehind : ∀ places : List Nat, (∀ i ∈ places, 3 ≤ i) →
      places.foldl (exceptionAt k c f) (refuse c f m) = refuse c f m := by
    intro places
    induction places with
    | nil => exact fun _ => rfl
    | cons i places ih =>
      intro hplaces
      have hi := hplaces i (List.mem_cons_self ..)
      have hplain : exceptionAt k c f (refuse c f m) i = refuse c f m := by
        apply exceptionAt_of_plain
        intro r hr
        rw [hrefused.reactor? i, List.getElem?_append_right hi] at hr
        exact hrefused.plain r (List.mem_of_getElem? hr)
      rw [List.foldl_cons, hplain]
      exact ih fun j hj => hplaces j (List.mem_cons_of_mem _ hj)
  rw [raiseWith, hremembered.places]
  simp only [List.foldl_cons, hfirst, hsecond, hthird]
  apply hbehind
  intro i hi
  exact (List.mem_range'_1.1 hi).1

/-! ## Events -/

/-- Reactors from a place on react in turn. -/
def reactAll (k : Reentry σ) (c : ChannelId) (e : Event) :
    (i : Nat) → List (Reactor σ) → Action σ Unit
  | _, [] => pure ()
  | i, r :: rest => do
    r.react k c i e
    reactAll k c e (i + 1) rest

/-- Reactors that all succeed succeed together. -/
theorem reactAll_ok {R : Node σ → Node σ → Prop} (hrefl : ∀ n, R n n)
    (htrans : ∀ {a b c}, R a b → R b c → R a c) {e : Event} (rest : List (Reactor σ))
    (h : ∀ r ∈ rest, ∀ i n, ∃ n', R n n' ∧ (r.react k c i e).apply n = (.ok (), n')) (i : Nat)
    (n : Node σ) : ∃ n', R n n' ∧ (reactAll k c e i rest).apply n = (.ok (), n') := by
  induction rest generalizing i n with
  | nil => exact ⟨n, hrefl n, rfl⟩
  | cons r rest ih =>
    obtain ⟨n₁, hfirst, happly⟩ := h r (List.mem_cons_self ..) i n
    obtain ⟨n', hrest, happly'⟩ := ih (fun r' hr' => h r' (List.mem_cons_of_mem _ hr')) (i + 1) n₁
    refine ⟨n', htrans hfirst hrest, ?_⟩
    rw [reactAll, Action.apply_bind_ok happly]
    exact happly'

/-- The places of a wired pipeline behind the front hold the same reactors all the time. -/
theorem forM_reactAt_eq (hk : k.Moves Node.Later) (e : Event) (before : List (Reactor σ))
    (behind : List (Reactor σ)) (h : n.WiredAt c l (before ++ behind)) :
    ((List.range' (3 + before.length) behind.length).forM (reactAt k c e)).apply n =
      (reactAll k c e (3 + before.length) behind).apply n := by
  induction behind generalizing n l before with
  | nil => rfl
  | cons r behind ih =>
    have hplace := h.reactor?_behind
    have hreact : (reactAt k c e (3 + before.length)).apply n =
        (r.react k c (3 + before.length) e).apply n := by
      rw [reactAt, Action.apply_get_bind, hplace]
    have hmoves := later_rule.react hk hplace e
    rw [List.length_cons, List.range'_succ, forM_cons, reactAll, Action.apply_bind,
      Action.apply_bind, hreact]
    cases hr : (r.react k c (3 + before.length) e).apply n with
    | mk result n' =>
      rw [hr] at hmoves
      cases result with
      | error f => rfl
      | ok u =>
        -- The reaction may have changed the ledger in front, but no reactor behind it.
        have hsplit : before ++ r :: behind = (before ++ [r]) ++ behind := by simp
        rw [hsplit] at h
        obtain ⟨l', h'⟩ := h.later hmoves
        have hnext := ih (before ++ [r]) h'
        rw [List.length_append, ← Nat.add_assoc] at hnext
        exact hnext

theorem later_reactAll (hk : k.Moves Node.Later) (e : Event) (before behind : List (Reactor σ))
    (h : n.WiredAt c l (before ++ behind)) :
    n.Later ((reactAll k c e (3 + before.length) behind).apply n).2 := by
  rw [← forM_reactAt_eq hk e before behind h]
  exact later_rule.forM (later_rule.reactAt hk c e) _ n

/-- What is done about an event on a wired channel, behind the log. -/
def reaction (k : Reentry σ) (c : ChannelId) (e : Event) (l : Ledger) (rest : List (Reactor σ)) :
    Action σ Unit := do
  ledgerReacts c 2 l e
  reactAll k c e 3 rest

theorem later_reaction (hk : k.Moves Node.Later) (h : n.WiredAt c l rest) (e : Event) :
    n.Later ((reaction k c e l rest).apply n).2 := by
  have hledger := later_rule.ledgerReacts (h.reactor? 2) e
  rw [reaction, Action.apply_bind]
  cases hrun : (ledgerReacts c 2 l e).apply n with
  | mk r n' =>
    rw [hrun] at hledger
    cases r with
    | error f => exact hledger
    | ok u =>
      obtain ⟨l', h'⟩ := h.later hledger
      exact hledger.trans (later_reactAll hk e [] rest h')

/-- An event on a wired channel is logged, and then the ledger and those behind it react; the first
fault is raised. -/
theorem dispatchWith_eq (hk : k.Moves Node.Later) (h : n.WiredAt c l rest) (e : Event) :
    dispatchWith k c e n = settled k c (reaction k c e l rest) (n.note c .eventLog (.event e)) := by
  have hnoted := h.note c .eventLog (.event e)
  have hlog : (reactAt k c e 0).apply n = (.ok (), n.note c .eventLog (.event e)) := by
    rw [reactAt, Action.apply_get_bind, h.reactor? 0]
    rfl
  have hdetach : (reactAt k c e 1).apply (n.note c .eventLog (.event e)) =
      (.ok (), n.note c .eventLog (.event e)) := by
    rw [reactAt, Action.apply_get_bind, hnoted.reactor? 1]
    cases e <;> rfl
  have hledger : (reactAt k c e 2).apply (n.note c .eventLog (.event e)) =
      (ledgerReacts c 2 l e).apply (n.note c .eventLog (.event e)) := by
    rw [reactAt, Action.apply_get_bind, hnoted.reactor? 2]
    rfl
  have hrun : ((n.places c).forM (reactAt k c e)).apply n =
      (reaction k c e l rest).apply (n.note c .eventLog (.event e)) := by
    rw [h.places, forM_cons, Action.apply_bind_ok hlog, forM_cons, Action.apply_bind_ok hdetach,
      forM_cons, reaction, Action.apply_bind, Action.apply_bind, hledger]
    have hmoves := later_rule.ledgerReacts (hnoted.reactor? 2) e
    cases hr : (ledgerReacts c 2 l e).apply (n.note c .eventLog (.event e)) with
    | mk result n' =>
      rw [hr] at hmoves
      cases result with
      | error f => rfl
      | ok u =>
        obtain ⟨l', h'⟩ := hnoted.later hmoves
        exact forM_reactAt_eq hk e [] rest h'
  rw [dispatchWith, hrun, settled]
  rfl

/-! ## The end -/

namespace Node

variable {ch : Channel σ}

theorem finish_of_finished (hch : n.channel? c = some ch)
    (h : ch.finished = true) : finish c n = n := by
  rw [finish, hch]
  exact if_pos h

/-- A channel that is finished for the first time is marked and closed, and then told its end. -/
theorem finish_of_not_finished (hch : n.channel? c = some ch)
    (h : ¬ ch.finished = true) : finish c n = dispatchWith .ended c .disconnected
      (n.modify c fun _ => { ch with finished := true }.close) := by
  rw [finish, hch]
  simp only [h, if_false, Bool.false_eq_true]
  rw [modify_eq_const hch]

end Node

/-- Behind the front, the end of a connection changes no channel. -/
theorem reactAll_disconnected {k : Reentry σ} (rest : List (Reactor σ)) (h : ∀ r ∈ rest, r.Plain)
    (i : Nat) (n : Node σ) : ∃ n', n'.channels = n.channels ∧
      (reactAll k c .disconnected i rest).apply n = (.ok (), n') := by
  refine reactAll_ok (R := fun n n' => n'.channels = n.channels) (fun _ => rfl)
    (fun h h' => h'.trans h) rest (fun r hr i n => ?_) i n
  have hplain := h r hr
  cases r with
  | eventLog | detachOnException | reliableDelivery | probe => exact hplain.elim
  | connectionObserver =>
    exact ⟨_, n.channels_note c .connectionObserver (.event .disconnected), rfl⟩
  | routeAttachment => exact ⟨{ n with registry := n.registry.release c }, rfl, rfl⟩
  | _ => exact ⟨n, rfl, rfl⟩

/-- A wired channel that is finished for the first time is marked and closed, and nothing else
becomes of the channels. -/
theorem channels_finish {ch : Channel σ} (hch : n.channel? c = some ch) (hw : ch.Wired l rest)
    (h : ¬ ch.finished = true) : (finish c n).channels =
      (n.modify c fun _ => { ch with finished := true }.close).channels := by
  have hmarked := Node.channel?_modify_of_some hch fun _ => { ch with finished := true }.close
  have hclosed : ({ ch with finished := true }.close).Wired l rest :=
    hw.of_reactors_eq (Channel.reactors_shut _ _)
  obtain ⟨n', hchannels, happly⟩ := reactAll_disconnected (k := .ended) (c := c) rest hw.plain 3
    ((n.modify c fun _ => { ch with finished := true }.close).note c .eventLog
      (.event .disconnected))
  have hrun : (reaction .ended c .disconnected l rest).apply
      ((n.modify c fun _ => { ch with finished := true }.close).note c .eventLog
        (.event .disconnected)) = (.ok (), n') := happly
  rw [Node.finish_of_not_finished hch h, dispatchWith_eq later_rule.ended ⟨_, hmarked, hclosed⟩,
    settled, hrun]
  exact hchannels.trans (Node.channels_note _ c _ _)

end Courier
