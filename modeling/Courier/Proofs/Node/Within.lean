import Courier.Proofs.Node.Sending

/-! # What stays within a channel

A channel is told that a packet was sent, that a fault was raised, or that it is over. Whatever its
pipeline is, no other channel changes, and on the channel itself at most frames without packets are
queued; nothing is, if it is closed or nobody takes its queue (`within_dispatchWith`,
`within_raiseWith`).
-/
set_option autoImplicit false

namespace Courier

open Courier.Wire Courier.Routing

variable {σ α β : Type}

/-! ## One channel -/

namespace Channel

variable {ch ch' ch'' : Channel σ}

/-- The second is the first at a later time, and has at most bare frames behind what was queued. -/
structure Trails (ch ch' : Channel σ) : Prop extends ch.Later ch' where
  tail : ∃ items, ch'.queue.toList = ch.queue.toList ++ items ∧ (∀ f ∈ framesOf items, f.Bare) ∧
    (¬ ch.Live → items = [])

theorem Later.live (h : ch.Later ch') (hlive : ch'.Live) : ch.Live :=
  ⟨h.isOpen hlive.isOpen, h.writer.symm.trans hlive.writer⟩

namespace Trails

theorem of_queue (hlater : ch.Later ch') (hqueue : ch'.queue = ch.queue) : ch.Trails ch' := by
  refine ⟨hlater, [], ?_, (fun f hf => nomatch hf), fun _ => rfl⟩
  rw [hqueue, List.append_nil]

theorem refl (ch : Channel σ) : ch.Trails ch := of_queue (.refl ch) rfl

theorem trans (h : ch.Trails ch') (h' : ch'.Trails ch'') : ch.Trails ch'' := by
  obtain ⟨items, hqueue, hbare, hdead⟩ := h.tail
  obtain ⟨more, hqueue', hbare', hdead'⟩ := h'.tail
  refine ⟨h.toLater.trans h'.toLater, items ++ more, ?_, ?_, ?_⟩
  · rw [hqueue', hqueue, List.append_assoc]
  · intro f hf
    rw [framesOf_append] at hf
    obtain hf | hf := List.mem_append.1 hf
    · exact hbare f hf
    · exact hbare' f hf
  · intro hnot
    rw [hdead hnot, hdead' fun hlive => hnot (h.toLater.live hlive)]
    rfl

/-- On a channel that is closed, or whose queue nobody takes, nothing is queued. -/
theorem queue_eq (h : ch.Trails ch') (hnot : ¬ ch.Live) : ch'.queue = ch.queue := by
  obtain ⟨items, hqueue, -, hdead⟩ := h.tail
  apply Backlog.eq_of_toList_eq
  rw [hqueue, hdead hnot, List.append_nil]

end Trails

theorem trails_shut (ch : Channel σ) (goodbye : Bool) : ch.Trails (ch.shut goodbye) := by
  obtain ⟨-, -, -, items, hqueue, hparting, hdead⟩ := ch.over_shut goodbye
  exact ⟨ch.later_shut goodbye, items, hqueue, hparting.bare, hdead⟩

theorem trails_over (ch : Channel σ) : ch.Trails { ch with finished := true }.close := by
  have hfinished : ch.Trails { ch with finished := true } :=
    .of_queue (later_of_queue rfl rfl rfl rfl (List.append_nil _).symm (fun _ => rfl)
      fun _ => rfl) rfl
  exact hfinished.trans (trails_shut _ false)

theorem trails_say (hlive : ch.Live) {f : Frame} (hbare : f.Bare) (hregular : f.Regular) :
    ch.Trails (ch.say [f]) := by
  have hqueue : (ch.say [f]).queue.toList =
      ch.queue.toList ++ [.bytes (Frame.layouts [f])] := Backlog.toList_push ..
  have hlater : ch.Later (ch.say [f]) := by
    refine later_of_queue rfl rfl rfl rfl hqueue ?_ fun h => h
    intro hclosed
    rw [hlive.isOpen] at hclosed
    cases hclosed
  refine ⟨hlater, _, hqueue, ?_, fun hnot => absurd hlive hnot⟩
  intro g hg
  rw [framesOf_layouts (regular_singleton hregular)] at hg
  rw [List.mem_singleton.1 hg]
  exact hbare

end Channel

/-! ## A node -/

/-- Nothing but this channel changes, and it trails what was queued on it. -/
structure Node.Within (c : ChannelId) (n n' : Node σ) : Prop where
  count : n'.channels.length = n.channels.length
  others : ∀ c' ≠ c, n'.channel? c' = n.channel? c'
  own : ∀ ch, n.channel? c = some ch → ∃ ch', n'.channel? c = some ch' ∧ ch.Trails ch'

variable {c : ChannelId} {n n' n'' : Node σ} {k : Reentry σ}

namespace Node.Within

theorem of_channels (h : n'.channels = n.channels) : n.Within c n' := by
  have hsame : ∀ c', n'.channel? c' = n.channel? c' := by
    intro c'
    rw [channel?, h]
    rfl
  exact ⟨congrArg List.length h, fun c' _ => hsame c', fun ch hch =>
    ⟨ch, (hsame c).trans hch, .refl ch⟩⟩

theorem refl (n : Node σ) : n.Within c n := of_channels rfl

theorem trans (h : n.Within c n') (h' : n'.Within c n'') : n.Within c n'' := by
  refine ⟨h'.count.trans h.count, fun c' hc => (h'.others c' hc).trans (h.others c' hc), ?_⟩
  intro ch hch
  obtain ⟨ch', hch', htrails⟩ := h.own ch hch
  obtain ⟨ch'', hch'', htrails'⟩ := h'.own ch' hch'
  exact ⟨ch'', hch'', htrails.trans htrails'⟩

/-- Where no channel was, none is. -/
theorem none (h : n.Within c n') (hnone : n.channel? c = none) : n'.channel? c = none := by
  have hlength : n.channels.length ≤ c.index := List.getElem?_eq_none_iff.1 hnone
  rw [← h.count] at hlength
  exact List.getElem?_eq_none_iff.2 hlength

theorem modify {f : Channel σ → Channel σ} (h : ∀ ch, n.channel? c = some ch → ch.Trails (f ch)) :
    n.Within c (n.modify c f) := by
  refine ⟨List.length_modify .., fun c' hc => channel?_modify_of_ne n f hc, ?_⟩
  intro ch hch
  exact ⟨f ch, channel?_modify_of_some hch f, h ch hch⟩

theorem note (n : Node σ) (c : ChannelId) (r : Reporter) (s : Signal) :
    n.Within c (n.note c r s) := of_channels (n.channels_note c r s)

theorem setReactor {i : Nat} {r r' : Reactor σ} (h : n.reactor? c i = some r)
    (halike : r.Alike r') : n.Within c (n.setReactor c i r') := by
  obtain ⟨ch, hch, hr⟩ := (n.reactor?_eq_some_iff c).1 h
  apply modify
  intro ch₀ hch₀
  rw [hch] at hch₀
  cases hch₀
  exact .of_queue (Channel.later_set hr halike) rfl

theorem foldl {f : Node σ → β → Node σ} (hf : ∀ (n : Node σ) x, n.Within c (f n x)) (xs : List β)
    (n : Node σ) : n.Within c (xs.foldl f n) := by
  induction xs generalizing n with
  | nil => exact refl n
  | cons x xs ih => exact (hf n x).trans (ih (f n x))

end Node.Within

open Node

/-! ## Faults -/

theorem within_writeFrame {f : Frame} (hbare : f.Bare) (hregular : f.Regular) :
    Moves (Within c) (writeFrame c f : Action σ Unit) := by
  intro n
  by_cases hlive : ∃ ch, n.channel? c = some ch ∧ ch.Live
  · obtain ⟨ch, hch, hlive⟩ := hlive
    rw [apply_writeFrame hch hlive hregular]
    apply Within.modify
    intro ch₀ hch₀
    rw [hch] at hch₀
    cases hch₀
    exact Channel.trails_say hlive hbare hregular
  · have hnone : ∀ ch, n.channel? c = some ch → ¬ ch.Live :=
      fun ch hch hch' => hlive ⟨ch, hch, hch'⟩
    obtain ⟨e, he⟩ := apply_writeFrame_of_not_live hnone hregular
    rw [he]
    exact .refl n

theorem within_refuse (c : ChannelId) (f : Fault) (n : Node σ) : n.Within c (refuse c f n) := by
  have hshut : ∀ n : Node σ, n.Within c (n.modify c Channel.detach) :=
    fun n => .modify fun ch _ => ch.trails_shut true
  unfold refuse
  cases hrefusal : refusal? f with
  | none => exact hshut n
  | some frame =>
    obtain ⟨hbare, hregular⟩ := refusal?_spec hrefusal
    exact (within_writeFrame hbare hregular n).trans (hshut _)

section layer

variable (hk : ∀ n : Node σ, n.Within c (k.finish c n))

include hk

theorem within_perform (n : Node σ) (a : ProbeAct) : n.Within c (a.perform k c n) := by
  cases a with
  | close => exact .modify fun ch _ => ch.trails_shut false
  | detach => exact .modify fun ch _ => ch.trails_shut true
  | finish => exact hk n

omit hk in
theorem within_rememberSignal (i : Nat) (s : Signal) (n : Node σ) :
    n.Within c (rememberSignal c i s n) := by
  unfold rememberSignal
  split
  · rename_i p hp
    exact .setReactor hp (.probe p _)
  · exact .refl n

theorem within_perceive (i : Nat) (p : Probe) (s : Signal) (n : Node σ) :
    n.Within c (p.perceive k c i s n) := by
  have hnote := Within.note n c (.probe p.name) s
  have hacts := Within.foldl (within_perform hk) (p.acts (s :: p.seen)) (n.note c (.probe p.name) s)
  exact (hnote.trans hacts).trans (within_rememberSignal i s _)

theorem within_exceptionAt (f : Fault) (n : Node σ) (i : Nat) :
    n.Within c (exceptionAt k c f n i) := by
  unfold exceptionAt
  cases n.reactor? c i with
  | none => exact .refl n
  | some r =>
    cases r with
    | eventLog => exact .note n c _ _
    | detachOnException => exact within_refuse c f n
    | probe p => exact within_perceive hk i p _ n
    | _ => exact .refl n

theorem within_raiseWith (f : Fault) (n : Node σ) : n.Within c (raiseWith k c f n) := by
  have hremember : n.Within c (n.modify c (·.remember f)) :=
    .modify fun ch _ => .of_queue (ch.later_remember f) rfl
  exact hremember.trans (.foldl (within_exceptionAt hk f) _ _)

/-! ## Events -/

omit hk in
/-- What a channel is told while it is written to or comes to its end. -/
def Event.Inward : Event → Prop
  | .packetSent _ | .disconnected => True
  | _ => False

omit hk in
theorem within_ledgerReacts {i : Nat} {l : Ledger} (h : n.reactor? c i = some (.reliableDelivery l))
    {e : Event} (he : e.Inward) : n.Within c ((ledgerReacts c i l e).apply n).2 := by
  cases e with
  | packetSent p => exact .setReactor h (.ledger l _)
  | disconnected => exact .refl n
  | _ => exact he.elim

theorem within_react {i : Nat} {r : Reactor σ} (h : n.reactor? c i = some r) {e : Event}
    (he : e.Inward) : n.Within c ((r.react k c i e).apply n).2 := by
  unfold Reactor.react
  split
  case h_1 | h_2 | h_3 | h_4 | h_5 => exact .note n c _ _
  case h_6 => exact within_ledgerReacts h he
  case h_7 | h_8 | h_9 | h_10 | h_11 | h_12 => exact he.elim
  case h_13 => exact .of_channels rfl
  case h_14 =>
    cases e with
    | packetSent | disconnected => exact .refl n
    | _ => exact he.elim
  case h_15 =>
    rw [Action.apply_modify_bind, Action.apply_get_bind]
    have hperceive := fun p s => within_perceive hk i p s n
    split
    · exact hperceive _ _
    · exact hperceive _ _
  case h_16 => exact .refl n

theorem within_dispatchWith {e : Event} (he : e.Inward) (n : Node σ) :
    n.Within c (dispatchWith k c e n) := by
  have hplace : ∀ i, Moves (Within c) (reactAt k c e i) := by
    intro i n
    rw [reactAt, Action.apply_get_bind]
    cases h : n.reactor? c i with
    | none => exact .refl n
    | some r => exact within_react hk h he
  have hplaces : ∀ places : List Nat, Moves (Within c) (places.forM (reactAt k c e)) := by
    intro places
    induction places with
    | nil => exact fun n => .refl n
    | cons i places ih => exact (hplace i).bind .trans fun _ => ih
  have hrun := hplaces (n.places c) n
  unfold dispatchWith
  split
  · rename_i n' heq
    rw [heq] at hrun
    exact hrun
  · rename_i f n' heq
    rw [heq] at hrun
    exact hrun.trans (within_raiseWith hk f n')

end layer

theorem within_finish (c : ChannelId) (n : Node σ) : n.Within c (finish c n) := by
  unfold finish
  cases n.channel? c with
  | none => exact .refl n
  | some ch =>
    simp only []
    split
    · exact .refl n
    · have hover : n.Within c (n.modify c fun ch => { ch with finished := true }.close) :=
        .modify fun ch _ => ch.trails_over
      have hended : ∀ n : Node σ, n.Within c (Reentry.ended.finish c n) := fun n => .refl n
      have hin : Event.disconnected.Inward := trivial
      exact hover.trans (within_dispatchWith hended hin _)

end Courier
