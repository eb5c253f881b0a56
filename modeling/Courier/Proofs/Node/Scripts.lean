import Courier.Proofs.Node.Becoming
import Courier.Proofs.Node.Traffic

/-! # What is said on the way of a session

A session goes from step to step, and its channel says frames for each step. A script is a chain of
such steps, with everything that is said for them. Whatever traffic does to a node, every channel
plays a script of frames of traffic, which may end in a parting (`plays_law`).
-/
set_option autoImplicit false

namespace Courier

open Courier.Wire Courier.Wire.Frame Courier.Routing

variable {σ : Type}

/-! ## Scripts -/

/-- A step of a session, and the frames that are said for it. -/
abbrev Stride := Session → List Frame → Session → Prop

/-- A step for which nothing else is said. -/
def Stride.each (R : Stride) (Q : Frame → Prop) : Stride := fun s fs s' =>
  R s fs s' ∧ ∀ f ∈ fs, Q f

inductive Script (R : Stride) : Session → List Frame → Session → Prop where
  | rest (s : Session) : Script R s [] s
  | step {s s₁ s₂ : Session} {fs gs : List Frame} (h : R s fs s₁) (more : Script R s₁ gs s₂) :
      Script R s (fs ++ gs) s₂

/-- What every channel may do: say a frame of traffic, or close with a parting. -/
inductive Speaks : Stride where
  | say {s : Session} {f : Frame} (hopen : s.isClosed = false) (h : f.IsTraffic) : Speaks s [f] s
  | part {s : Session} {fs : List Frame} (hopen : s.isClosed = false) (h : Parting fs) :
      Speaks s fs s.close

namespace Script

variable {R R' : Stride} {s s₁ s₂ : Session} {fs gs : List Frame}

theorem single (h : R s fs s₁) : Script R s fs s₁ := by
  have hstep : Script R s (fs ++ []) s₁ := .step h (.rest s₁)
  rw [List.append_nil] at hstep
  exact hstep

theorem trans (h : Script R s fs s₁) (h' : Script R s₁ gs s₂) : Script R s (fs ++ gs) s₂ := by
  induction h with
  | rest s => exact h'
  | step hstep _ ih =>
    rw [List.append_assoc]
    exact .step hstep (ih h')

theorem mono (hR : ∀ {s fs s'}, R s fs s' → R' s fs s') (h : Script R s fs s₁) :
    Script R' s fs s₁ := by
  induction h with
  | rest s => exact .rest s
  | step hstep _ ih => exact .step (hR hstep) ih

/-- What each step keeps, of the session and all that was said, a script keeps. -/
theorem keeps {P : Session → List Frame → Prop}
    (hP : ∀ {s fs s'} (said : List Frame), R s fs s' → P s said → P s' (said ++ fs))
    (h : Script R s fs s₁) {said : List Frame} (hs : P s said) : P s₁ (said ++ fs) := by
  induction h generalizing said with
  | rest s =>
    rw [List.append_nil]
    exact hs
  | step hstep _ ih =>
    rw [← List.append_assoc]
    exact ih (hP said hstep hs)

/-- What holds of every frame that was said holds of those that were said for one step. -/
theorem each {Q : Frame → Prop} (h : Script R s fs s₁) (hQ : ∀ f ∈ fs, Q f) :
    Script (R.each Q) s fs s₁ := by
  induction h with
  | rest s => exact .rest s
  | step hstep _ ih =>
    have hfirst := fun f hf => hQ f (List.mem_append_left _ hf)
    exact .step ⟨hstep, hfirst⟩ (ih fun f hf => hQ f (List.mem_append_right _ hf))

variable (hR : ∀ {s fs s'}, Speaks s fs s' → R s fs s')

include hR

theorem say (hopen : s.isClosed = false) (h : ∀ f ∈ fs, f.IsTraffic) : Script R s fs s := by
  induction fs with
  | nil => exact .rest s
  | cons f fs ih =>
    have hfirst : R s [f] s := hR (.say hopen (h f (List.mem_cons_self ..)))
    exact .step hfirst (ih fun g hg => h g (List.mem_cons_of_mem _ hg))

end Script

theorem traffic_of_mem_sends {ps : List Packet} : ∀ f ∈ sends ps, f.IsTraffic := by
  intro f hf
  obtain ⟨run, -, rfl⟩ := List.mem_map.1 hf
  trivial

/-! ## Channels -/

variable {n n' n'' : Node σ} {c : ChannelId} {ch ch' ch'' : Channel σ} {l : Ledger}
  {rest : List (Reactor σ)}

/-- The second has queued what a script from the session of the first to its own says. -/
def Channel.Plays (R : Stride) (ch ch' : Channel σ) : Prop :=
  ∃ items, ch'.queue.toList = ch.queue.toList ++ items ∧
    Script R ch.session (framesOf items) ch'.session

namespace Channel.Plays

variable {R R' : Stride}

theorem of_session_eq (hsession : ch'.session = ch.session) (hqueue : ch'.queue = ch.queue) :
    ch.Plays R ch' := by
  refine ⟨[], ?_, ?_⟩
  · rw [hqueue, List.append_nil]
  · rw [hsession]
    exact .rest _

theorem refl (ch : Channel σ) : ch.Plays R ch := of_session_eq rfl rfl

theorem trans (h : ch.Plays R ch') (h' : ch'.Plays R ch'') : ch.Plays R ch'' := by
  obtain ⟨items, hqueue, hscript⟩ := h
  obtain ⟨more, hqueue', hscript'⟩ := h'
  refine ⟨items ++ more, ?_, ?_⟩
  · rw [hqueue', hqueue, List.append_assoc]
  · rw [framesOf_append]
    exact hscript.trans hscript'

theorem mono (hR : ∀ {s fs s'}, R s fs s' → R' s fs s') (h : ch.Plays R ch') : ch.Plays R' ch' := by
  obtain ⟨items, hqueue, hscript⟩ := h
  exact ⟨items, hqueue, hscript.mono hR⟩

/-- A step of the session without a word. -/
theorem setSession {s : Session} (h : R ch.session [] s) : ch.Plays R (ch.setSession s) :=
  ⟨[], (List.append_nil _).symm, .single h⟩

/-- Frames are said, and then the session takes a step. -/
theorem say_setSession {s : Session} {fs : List Frame} (hregular : ∀ f ∈ fs, f.Regular)
    (h : R ch.session fs s) : ch.Plays R ((ch.say fs).setSession s) := by
  refine ⟨[.bytes (layouts fs)], Backlog.toList_push _ _, ?_⟩
  rw [framesOf_layouts hregular]
  exact .single h

section speaks

variable (hR : ∀ {s fs s'}, Speaks s fs s' → R s fs s')

include hR

theorem say (hlive : ch.Live) {fs : List Frame} (hregular : ∀ f ∈ fs, f.Regular)
    (htraffic : ∀ f ∈ fs, f.IsTraffic) : ch.Plays R (ch.say fs) := by
  refine ⟨[.bytes (layouts fs)], Backlog.toList_push _ _, ?_⟩
  rw [framesOf_layouts hregular]
  exact .say hR hlive.isOpen htraffic

theorem say_one (hlive : ch.Live) {f : Frame} (hregular : f.Regular) (htraffic : f.IsTraffic) :
    ch.Plays R (ch.say [f]) :=
  say hR hlive (regular_singleton hregular) fun _ hg => List.mem_singleton.1 hg ▸ htraffic

theorem of_over (hover : ch.Over ch') : ch.Plays R ch' := by
  obtain ⟨items, hqueue, hparting, hdead⟩ := hover.queue
  refine ⟨items, hqueue, ?_⟩
  rw [hover.session]
  by_cases hclosed : ch.session.isClosed = true
  · have hnot : ¬ ch.Live := fun hlive => by simp [hlive.isOpen] at hclosed
    rw [hdead hnot, Session.close_of_closed hclosed]
    exact .rest _
  · exact .single (hR (.part (by simpa using hclosed) hparting))

theorem failed (ch : Channel σ) (f : Fault) : ch.Plays R (ch.failed f) :=
  of_over hR (ch.over_failed f)

theorem of_act {may : Packet → Prop} {clears : Prop} (hact : ch.Act may clears ch') :
    ch.Plays R ch' := by
  cases hact with
  | send hw hlive ps hmay =>
    have hsaid : ch.Plays R (ch.say (sends ps)) :=
      say hR hlive (fun f hf => regular_of_mem_sends hf) traffic_of_mem_sends
    exact hsaid.trans (of_session_eq rfl rfl)
  | @resend l rest hw hlive hbuffer =>
    have hset : ch.Plays R (ch.setLedger l.flush.1) := of_session_eq rfl rfl
    have hsaid : (ch.setLedger l.flush.1).Plays R _ := say hR (hlive.setLedger l.flush.1)
      (fun f (hf : f ∈ sends l.unacknowledged) => regular_of_mem_sends hf) traffic_of_mem_sends
    have hasked := say_one hR ((hlive.setLedger l.flush.1).say (sends l.unacknowledged))
      regular_requestAcknowledgment trivial
    exact (hset.trans hsaid).trans hasked
  | ask hw hlive => exact say_one hR hlive regular_requestAcknowledgment trivial
  | answer hw hlive => exact say_one hR hlive (regular_acknowledge _) trivial
  | clear => exact of_session_eq rfl rfl
  | @fail _ l l' rest hw hbuffer hover =>
    have hset : ch.Plays R (ch.setLedger l') := of_session_eq rfl rfl
    exact hset.trans (of_over hR hover)

end speaks
end Channel.Plays

/-! ## Nodes -/

/-- Every channel plays a script of its own. -/
def Node.Plays (R : ChannelId → Stride) (n n' : Node σ) : Prop :=
  ∀ c ch, n.channel? c = some ch → ∃ ch', n'.channel? c = some ch' ∧ ch.Plays (R c) ch'

namespace Node.Plays

variable {R : ChannelId → Stride}

theorem of_channels (h : n'.channels = n.channels) : n.Plays R n' := by
  intro c ch hch
  refine ⟨ch, ?_, .refl ch⟩
  rw [channel?, h]
  exact hch

theorem refl (n : Node σ) : n.Plays R n := of_channels rfl

theorem trans (h : n.Plays R n') (h' : n'.Plays R n'') : n.Plays R n'' := by
  intro c ch hch
  obtain ⟨ch', hch', hplays⟩ := h c ch hch
  obtain ⟨ch'', hch'', hplays'⟩ := h' c ch' hch'
  exact ⟨ch'', hch'', hplays.trans hplays'⟩

theorem modify (hch : n.channel? c = some ch) (h : ch.Plays (R c) ch') :
    n.Plays R (n.modify c fun _ => ch') :=
  exists_modify (Q := fun c ch ch' => ch.Plays (R c) ch') hch h fun _ _ ch => .refl ch

theorem modify_all {f : Channel σ → Channel σ} (h : ∀ ch : Channel σ, ch.Plays (R c) (f ch)) :
    n.Plays R (n.modify c f) := by
  cases hch : n.channel? c with
  | none =>
    rw [modify_of_none n c f hch]
    exact refl n
  | some ch =>
    rw [modify_eq_const hch]
    exact modify hch (h ch)

theorem of_becomes (hch : n.channel? c = some ch) (hb : n.Becomes c ch' n')
    (h : ch.Plays (R c) ch') : n.Plays R n' := by
  intro c' ch₀ hch₀
  by_cases hc : c' = c
  · subst hc
    rw [hch] at hch₀
    cases hch₀
    exact ⟨ch', hb.self, h⟩
  · exact ⟨ch₀, (hb.others c' hc).trans hch₀, .refl ch₀⟩

end Node.Plays

section everywhere

variable {R : ChannelId → Stride} (hR : ∀ c {s fs s'}, Speaks s fs s' → R c s fs s')

include hR

theorem plays_loose : Law.Loose (fun _ _ => True) (fun _ => True) (Node.Plays (σ := σ) R) where
  trans := .trans
  quiet := fun h => .of_channels h.channels
  act := fun {_ c _ _} hch hact => .modify hch (.of_act (hR c) hact)
  detach := fun _ _ _ => .of_channels rfl
  enqueue := fun _ _ => .of_channels rfl
  takeAll := fun _ _ => .of_channels rfl
  putBack := fun _ _ => .of_channels rfl

theorem plays_law : Law (fun _ _ => True) (fun _ => True) (Node.Plays (σ := σ) R) :=
  (plays_loose hR).law

theorem plays_shut (n : Node σ) (c : ChannelId) (goodbye : Bool) :
    n.Plays R (n.modify c (·.shut goodbye)) :=
  .modify_all fun ch => .of_over (hR c) (ch.over_shut goodbye)

theorem plays_writeFrame (c : ChannelId) {f : Frame} (hregular : f.Regular)
    (htraffic : f.IsTraffic) (n : Node σ) : n.Plays R ((writeFrame c f).apply n).2 := by
  obtain ⟨ch, hch, hlive⟩ | hnot := live_or_not n c
  · rw [apply_writeFrame hch hlive hregular]
    exact .modify hch (.say_one (hR c) hlive hregular htraffic)
  · obtain ⟨e, he⟩ := apply_writeFrame_of_not_live hnot hregular
    rw [he]
    exact .refl n

variable (h : n.AllWired)

include h

theorem plays_raise (c : ChannelId) (f : Fault) : n.Plays R (raise c f n) :=
  (plays_law hR).raiseWith h .full c f

theorem plays_sendPackets (c : ChannelId) (ps : List Packet) :
    n.Plays R ((sendPackets c ps).apply n).2 :=
  (plays_law hR).sendPackets h c ps fun _ _ => trivial

theorem plays_routePacket (p : Packet) : n.Plays R (routePacket p n).2 :=
  (plays_law hR).routePacket h p fun _ _ => trivial

theorem plays_traffic (hch : n.channel? c = some ch) {e : Event} (he : e.IsTraffic) :
    n.Plays R (dispatch c e n) := by
  have hpermits : ∀ m m' : Node σ, m.Plays R m' → Permits (fun _ _ => True) m' :=
    fun _ _ _ => ⟨fun _ _ _ => trivial, fun _ _ _ _ => trivial⟩
  obtain ⟨l, rest, hw⟩ := h c ch hch
  by_cases hnew : ∃ p, e = .packetReceived p
  · obtain ⟨p, rfl⟩ := hnew
    have hnoted := (n.channel?_note c c .eventLog (.event (.packetReceived p))).trans hch
    have hheard : n.Plays R (n.heard c p) := by
      rw [heard_eq hch hw]
      exact (Node.Plays.of_channels (n.channels_note c _ _)).trans
        (.modify hnoted (.of_session_eq rfl rfl))
    exact hheard.trans ((plays_law hR).dispatch_packetReceived h hch p (hpermits _)).2
  · exact (plays_law hR).dispatch h hch hw he (fun p hp => hnew ⟨p, hp⟩)
      (fun _ _ _ => trivial) (hpermits n)

theorem plays_receivePackets (c : ChannelId) (ps : List Packet) :
    n.Plays R (receivePackets c ps n) := by
  induction ps generalizing n with
  | nil => exact .refl n
  | cons p ps ih =>
    have hlater := h.later (later_rule.telling.receivePackets c [p] n)
    have hfirst : n.Plays R (if n.isClosed c then n else dispatch c (.packetReceived p) n) := by
      split
      · exact .refl n
      · rename_i hopen
        cases hch : n.channel? c with
        | none => exact absurd (by rw [Node.isClosed, hch]) hopen
        | some ch => exact plays_traffic hR h hch trivial
    exact hfirst.trans (ih hlater)

theorem plays_finish (c : ChannelId) : n.Plays R (finish c n) := by
  cases hch : n.channel? c with
  | none =>
    rw [finish, hch]
    exact .refl n
  | some ch =>
    obtain ⟨l, rest, hw⟩ := h c ch hch
    by_cases hf : ch.finished = true
    · rw [Node.finish_of_finished hch hf]
      exact .refl n
    · have hmarked : ch.Plays (R c) { ch with finished := true } := .of_session_eq rfl rfl
      have hover : ({ ch with finished := true } : Channel σ).Over _ := Channel.over_shut _ false
      exact (Node.Plays.modify hch (hmarked.trans (.of_over (hR c) hover))).trans
        (.of_channels (channels_finish hch hw hf))

end everywhere
end Courier
