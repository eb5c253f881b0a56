import Courier.Proofs.Node.Moves
import Courier.Proofs.Steps

/-! # What lasts

A channel keeps its role, its writer and its pipeline, but for ledgers and the memories of probes,
and its queue only grows. Once it is closed, its session and its queue stay as they are, and once it
is finished it stays so (`later_rule`).
-/
set_option autoImplicit false

namespace Courier

open Courier.Wire Courier.Routing

variable {σ : Type}

/-! ## Alike reactors -/

namespace Reactor

theorem Alike.trans {r r' r'' : Reactor σ} (h : r.Alike r') (h' : r'.Alike r'') : r.Alike r'' := by
  cases h with
  | same => exact h'
  | ledger l l' =>
    cases h' with
    | same => exact .ledger l l'
    | ledger _ l'' => exact .ledger l l''
  | probe p seen =>
    cases h' with
    | same => exact .probe p seen
    | probe _ seen' => exact .probe p seen'

end Reactor

/-! ## A channel and the same channel later -/

namespace Channel

/-- The second is the first at a later time. -/
structure Later (ch ch' : Channel σ) : Prop where
  role : ch'.session.role = ch.session.role
  writer : ch'.hasWriter = ch.hasWriter
  length : ch'.reactors.length = ch.reactors.length
  alike : ∀ (i : Nat) (r : Reactor σ), ch.reactors[i]? = some r →
    ∃ r', ch'.reactors[i]? = some r' ∧ r.Alike r'
  shown : ch.published = ch.session.phase → ch'.published = ch'.session.phase
  session : ch.session.isClosed = true → ch'.session = ch.session
  queue : ch.session.isClosed = true → ch'.queue = ch.queue
  grows : ∃ items, ch'.queue.toList = ch.queue.toList ++ items
  finished : ch.finished = true → ch'.finished = true

theorem Later.refl (ch : Channel σ) : ch.Later ch :=
  ⟨rfl, rfl, rfl, fun _ r h => ⟨r, h, .same r⟩, fun h => h, fun _ => rfl, fun _ => rfl,
    ⟨[], (List.append_nil _).symm⟩, fun h => h⟩

theorem Later.trans {ch ch' ch'' : Channel σ} (h : ch.Later ch') (h' : ch'.Later ch'') :
    ch.Later ch'' where
  role := h'.role.trans h.role
  writer := h'.writer.trans h.writer
  length := h'.length.trans h.length
  alike := by
    intro i r hr
    obtain ⟨r', hr', halike⟩ := h.alike i r hr
    obtain ⟨r'', hr'', halike'⟩ := h'.alike i r' hr'
    exact ⟨r'', hr'', halike.trans halike'⟩
  shown := fun hs => h'.shown (h.shown hs)
  session := by
    intro hc
    have hfirst := h.session hc
    rw [← hfirst] at hc
    rw [h'.session hc, hfirst]
  queue := by
    intro hc
    have hfirst := h.queue hc
    rw [← h.session hc] at hc
    rw [h'.queue hc, hfirst]
  grows := by
    obtain ⟨items, hitems⟩ := h.grows
    obtain ⟨more, hmore⟩ := h'.grows
    refine ⟨items ++ more, ?_⟩
    rw [hmore, hitems, List.append_assoc]
  finished := fun hf => h'.finished (h.finished hf)

theorem later_of_queue {ch ch' : Channel σ} {items : List Outbound}
    (hsession : ch'.session = ch.session) (hshown : ch'.published = ch.published)
    (hwriter : ch'.hasWriter = ch.hasWriter) (hreactors : ch'.reactors = ch.reactors)
    (hqueue : ch'.queue.toList = ch.queue.toList ++ items)
    (hclosed : ch.session.isClosed = true → items = [])
    (hfinished : ch.finished = true → ch'.finished = true) : ch.Later ch' := by
  refine ⟨by rw [hsession], hwriter, by rw [hreactors], ?_, ?_, fun _ => hsession, ?_,
    ⟨items, hqueue⟩, hfinished⟩
  · intro i r hr
    rw [hreactors]
    exact ⟨r, hr, .same r⟩
  · intro hs
    rw [hshown, hsession, hs]
  · intro hc
    apply Backlog.eq_of_toList_eq
    rw [hqueue, hclosed hc, List.append_nil]

theorem Later.isOpen {ch ch' : Channel σ} (h : ch.Later ch')
    (hopen : ch'.session.isClosed = false) : ch.session.isClosed = false := by
  by_cases hclosed : ch.session.isClosed = true
  · rw [h.session hclosed, hclosed] at hopen
    cases hopen
  · simpa using hclosed

/-! ## Each change -/

theorem enqueue_eq_ok {ch ch' : Channel σ} {id : ChannelId} {b : ByteArray}
    (h : ch.enqueue id b = .ok ch') : ch.session.isClosed = false ∧ ch.hasWriter = true ∧
      ch' = { ch with queue := ch.queue.push (.bytes b) } := by
  unfold enqueue at h
  by_cases hclosed : ch.session.isClosed = true
  · rw [if_pos hclosed] at h
    cases h
  · rw [if_neg hclosed] at h
    by_cases hwriter : ch.hasWriter = true
    · rw [if_pos hwriter] at h
      cases h
      rw [push, if_pos hwriter]
      exact ⟨by simpa using hclosed, hwriter, rfl⟩
    · rw [if_neg hwriter] at h
      cases h

theorem later_enqueue {ch ch' : Channel σ} {id : ChannelId} {b : ByteArray}
    (h : ch.enqueue id b = .ok ch') : ch.Later ch' := by
  obtain ⟨hopen, -, rfl⟩ := enqueue_eq_ok h
  refine later_of_queue rfl rfl rfl rfl (Backlog.toList_push ch.queue (.bytes b)) ?_ fun h => h
  intro hc
  rw [hopen] at hc
  cases hc

theorem later_remember (ch : Channel σ) (f : Fault) : ch.Later (ch.remember f) :=
  later_of_queue rfl rfl rfl rfl (List.append_nil _).symm (fun _ => rfl) fun h => h

theorem push_session (ch : Channel σ) (item : Outbound) : (ch.push item).session = ch.session := by
  unfold push
  split <;> rfl

theorem push_published (ch : Channel σ) (item : Outbound) :
    (ch.push item).published = ch.published := by
  unfold push
  split <;> rfl

theorem push_reactors (ch : Channel σ) (item : Outbound) :
    (ch.push item).reactors = ch.reactors := by
  unfold push
  split <;> rfl

theorem push_hasWriter (ch : Channel σ) (item : Outbound) :
    (ch.push item).hasWriter = ch.hasWriter := by
  unfold push
  split <;> rfl

theorem push_finished (ch : Channel σ) (item : Outbound) :
    (ch.push item).finished = ch.finished := by
  unfold push
  split <;> rfl

theorem push_fault (ch : Channel σ) (item : Outbound) : (ch.push item).fault = ch.fault := by
  unfold push
  split <;> rfl

theorem push_queue (ch : Channel σ) (item : Outbound) : ∃ items,
    (ch.push item).queue.toList = ch.queue.toList ++ items ∧ ∀ x ∈ items, x = item := by
  unfold push
  split
  · exact ⟨[item], Backlog.toList_push _ _, fun x hx => List.mem_singleton.1 hx⟩
  · exact ⟨[], (List.append_nil _).symm, fun x hx => nomatch hx⟩

theorem shut_eq (ch : Channel σ) (sayGoodbye : Bool) : ch.shut sayGoodbye =
    if ch.session.isClosed then ch
    else
      let ch := ch.setSession ch.session.close
      let ch := if sayGoodbye then ch.push goodbye else ch
      ch.push .close := by
  unfold shut Session.shut
  cases ch.session.isClosed <;> rfl

/-- An open channel that shuts: the session closes, and the last items are queued. -/
theorem shut_spec (ch : Channel σ) (goodbye : Bool) (hopen : ch.session.isClosed = false) :
    (ch.shut goodbye).session = ch.session.close ∧
      (ch.shut goodbye).published = .closed ∧
      (ch.shut goodbye).reactors = ch.reactors ∧
      (ch.shut goodbye).hasWriter = ch.hasWriter ∧
      ∃ items, (ch.shut goodbye).queue.toList = ch.queue.toList ++ items ∧
        ∀ x ∈ items, x = Channel.goodbye ∨ x = .close := by
  rw [shut_eq, if_neg (by simp [hopen])]
  cases goodbye with
  | false =>
    obtain ⟨items, hitems, hmem⟩ := (ch.setSession ch.session.close).push_queue .close
    refine ⟨push_session _ _, push_published _ _, push_reactors _ _, push_hasWriter _ _,
      items, hitems, fun x hx => .inr (hmem x hx)⟩
  | true =>
    obtain ⟨items, hitems, hmem⟩ := (ch.setSession ch.session.close).push_queue Channel.goodbye
    obtain ⟨more, hmore, hmem'⟩ :=
      ((ch.setSession ch.session.close).push Channel.goodbye).push_queue .close
    simp only [if_true, push_session, push_published, push_reactors, push_hasWriter]
    refine ⟨rfl, rfl, rfl, rfl, items ++ more, ?_, ?_⟩
    · rw [hmore, hitems, List.append_assoc]
      rfl
    · intro x hx
      obtain hx | hx := List.mem_append.1 hx
      · exact .inl (hmem x hx)
      · exact .inr (hmem' x hx)

theorem shut_of_closed {ch : Channel σ} (goodbye : Bool) (h : ch.session.isClosed = true) :
    ch.shut goodbye = ch := (ch.shut_eq goodbye).trans (if_pos h)

theorem session_shut (ch : Channel σ) (goodbye : Bool) :
    (ch.shut goodbye).session = ch.session.close := by
  by_cases hclosed : ch.session.isClosed = true
  · rw [shut_of_closed goodbye hclosed, Session.close_of_closed hclosed]
  · exact (ch.shut_spec goodbye (by simpa using hclosed)).1

theorem reactors_shut (ch : Channel σ) (goodbye : Bool) :
    (ch.shut goodbye).reactors = ch.reactors := by
  by_cases hclosed : ch.session.isClosed = true
  · rw [shut_of_closed goodbye hclosed]
  · exact (ch.shut_spec goodbye (by simpa using hclosed)).2.2.1

theorem finished_shut (ch : Channel σ) (goodbye : Bool) :
    (ch.shut goodbye).finished = ch.finished := by
  rw [shut_eq]
  split
  · rfl
  · cases goodbye with
    | false => exact push_finished _ _
    | true => exact (push_finished _ _).trans (push_finished _ _)

theorem fault_shut (ch : Channel σ) (goodbye : Bool) : (ch.shut goodbye).fault = ch.fault := by
  rw [shut_eq]
  split
  · rfl
  · cases goodbye with
    | false => exact push_fault _ _
    | true => exact (push_fault _ _).trans (push_fault _ _)

theorem later_shut (ch : Channel σ) (goodbye : Bool) : ch.Later (ch.shut goodbye) := by
  by_cases hclosed : ch.session.isClosed = true
  · rw [shut_of_closed goodbye hclosed]
    exact .refl ch
  · have hopen : ch.session.isClosed = false := by simpa using hclosed
    obtain ⟨hsession, hshown, hreactors, hwriter, items, hqueue, -⟩ := ch.shut_spec goodbye hopen
    refine ⟨by rw [hsession]; rfl, hwriter, by rw [hreactors], ?_, ?_, ?_, ?_, ⟨items, hqueue⟩,
      fun hf => (ch.finished_shut goodbye).trans hf⟩
    · intro i r hr
      rw [hreactors]
      exact ⟨r, hr, .same r⟩
    · intro _
      rw [hshown, hsession]
      rfl
    · exact fun hc => absurd hc hclosed
    · exact fun hc => absurd hc hclosed

theorem later_over (ch : Channel σ) : ch.Later { ch with finished := true }.close := by
  have hfinish : ch.Later { ch with finished := true } :=
    later_of_queue rfl rfl rfl rfl (List.append_nil _).symm (fun _ => rfl) fun _ => rfl
  exact hfinish.trans (later_shut _ false)

theorem later_setSession {ch : Channel σ} {s : Session} (h : ch.session.Step s) :
    ch.Later (ch.setSession s) := by
  refine ⟨h.role, rfl, rfl, fun i r hr => ⟨r, hr, .same r⟩, fun _ => rfl, ?_, ?_,
    ⟨[], (List.append_nil _).symm⟩, fun hf => hf⟩
  · intro hc
    rw [h.isOpen] at hc
    cases hc
  · exact fun _ => rfl

theorem later_set {ch : Channel σ} {i : Nat} {r r' : Reactor σ} (h : ch.reactors[i]? = some r)
    (halike : r.Alike r') : ch.Later { ch with reactors := ch.reactors.set i r' } := by
  refine ⟨rfl, rfl, List.length_set, ?_, fun hs => hs, fun _ => rfl, fun _ => rfl,
    ⟨[], (List.append_nil _).symm⟩, fun hf => hf⟩
  intro j q hq
  by_cases hij : i = j
  · subst hij
    rw [h] at hq
    cases hq
    obtain ⟨hlt, -⟩ := List.getElem?_eq_some_iff.1 h
    exact ⟨r', by simp [hlt], halike⟩
  · exact ⟨q, by simpa [List.getElem?_set, hij] using hq, .same q⟩

end Channel

/-! ## A node and the same node later -/

/-- Each channel of the first is in its place in the second, at a later time. -/
structure Node.Later (n n' : Node σ) : Prop where
  count : n'.channels.length = n.channels.length
  channel : ∀ c ch, n.channel? c = some ch → ∃ ch', n'.channel? c = some ch' ∧ ch.Later ch'

namespace Node

theorem Later.refl (n : Node σ) : n.Later n := ⟨rfl, fun _ ch h => ⟨ch, h, .refl ch⟩⟩

theorem Later.trans {n n' n'' : Node σ} (h : n.Later n') (h' : n'.Later n'') : n.Later n'' := by
  refine ⟨h'.count.trans h.count, ?_⟩
  intro c ch hch
  obtain ⟨ch', hch', hlater⟩ := h.channel c ch hch
  obtain ⟨ch'', hch'', hlater'⟩ := h'.channel c ch' hch'
  exact ⟨ch'', hch'', hlater.trans hlater'⟩

/-- Where a channel is later, one was before. -/
theorem Later.before {n n' : Node σ} (h : n.Later n') {c : ChannelId} {ch' : Channel σ}
    (hch' : n'.channel? c = some ch') : ∃ ch, n.channel? c = some ch ∧ ch.Later ch' := by
  have hlt : c.index < n'.channels.length := (List.getElem?_eq_some_iff.1 hch').1
  rw [h.count] at hlt
  have hch : n.channel? c = some n.channels[c.index] := List.getElem?_eq_getElem hlt
  obtain ⟨ch'', hch'', hlater⟩ := h.channel c _ hch
  rw [hch'] at hch''
  cases hch''
  exact ⟨_, hch, hlater⟩

theorem later_of_channels {n n' : Node σ} (h : n'.channels = n.channels) : n.Later n' := by
  refine ⟨congrArg List.length h, ?_⟩
  intro c ch hch
  refine ⟨ch, ?_, .refl ch⟩
  rw [channel?, h]
  exact hch

theorem later_modify {n : Node σ} {c : ChannelId} {f : Channel σ → Channel σ}
    (h : ∀ ch, n.channel? c = some ch → ch.Later (f ch)) : n.Later (n.modify c f) := by
  refine ⟨List.length_modify f n.channels c.index, ?_⟩
  intro c' ch hch
  by_cases hc : c' = c
  · subst hc
    rw [channel?_modify_self, hch]
    exact ⟨f ch, rfl, h ch hch⟩
  · rw [channel?_modify_of_ne n f hc]
    exact ⟨ch, hch, .refl ch⟩

theorem later_modify_const {n : Node σ} {c : ChannelId} {ch ch' : Channel σ}
    (hch : n.channel? c = some ch) (h : ch.Later ch') : n.Later (n.modify c fun _ => ch') := by
  apply later_modify
  intro ch₀ hch₀
  rw [hch] at hch₀
  cases hch₀
  exact h

end Node

theorem later_note (c : ChannelId) (s : Signal) : Reports (Node.Later (σ := σ)) c s :=
  fun n r => Node.later_of_channels (n.channels_note c r s)

theorem later_course : Course (Node.Later (σ := σ)) where
  refl := .refl
  trans := .trans
  registry := fun _ _ => Node.later_of_channels rfl
  policy := fun _ _ => Node.later_of_channels rfl
  report := fun c s _ => later_note c s
  enqueue := fun hch h => Node.later_modify_const hch (Channel.later_enqueue h)
  session := fun hch h => Node.later_modify_const hch (Channel.later_setSession h)
  remember := fun _ _ f => Node.later_modify fun ch _ => ch.later_remember f
  shut := fun _ _ goodbye => Node.later_modify fun ch _ => ch.later_shut goodbye
  reactor := by
    intro n c i r r' h halike
    obtain ⟨ch, hch, hr⟩ := (n.reactor?_eq_some_iff c).1 h
    rw [Node.setReactor, Node.modify_eq_const hch]
    exact Node.later_modify_const hch (Channel.later_set hr halike)

theorem later_rule : Rule (Node.Later (σ := σ)) where
  toCourse := later_course
  finish := fun c => later_course.finish c (later_note c _) fun _ =>
    Node.later_modify fun ch _ => ch.later_over
  farewell := fun c => later_note c _

end Courier
