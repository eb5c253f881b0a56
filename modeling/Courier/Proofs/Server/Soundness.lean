import Courier.Proofs.Node.Traffic
import Courier.Proofs.Routing.Entries
import Courier.Proofs.Server.Pipeline

/-! # Sound servers

On a server, the packets that a channel has not seen acknowledged are addressed to its identity, a
channel is attached to nothing but its identity, and mailboxes hold what is addressed to them
(`Sound`). A channel that starts or acts stays sound (`Channel.Sound.act`, `Channel.Sound.step`),
and what it queues is addressed to the identity that it had before (`Channel.Addressed`).
-/
set_option autoImplicit false

namespace Courier

open Courier.Wire Courier.Wire.Frame Courier.Routing

variable {σ α β : Type}

/-! ## Server channels -/

/-- A channel of a server, whose unacknowledged packets are addressed to its identity. -/
structure Channel.Sound (ch : Channel σ) : Prop where
  wired : ∃ w l, ch.Wired l (serverRest w) ∧
    ∀ p ∈ l.unacknowledged, ch.session.identity = some p.recipient
  role : ch.session.role = .responder
  named : ch.session.identity ≠ none → ch.session.phase = .identified ∨ ch.session.phase = .closed

/-- Everything that waits to be sent to a channel is addressed to its identity. -/
structure Sound (n : Node σ) : Prop where
  channel : ∀ c ch, n.channel? c = some ch → ch.Sound
  attached : n.registry.Attached fun a c => n.identity? c = some a
  waiting : n.registry.Waiting fun a p => p.recipient = a

theorem Sound.allWired {n : Node σ} (h : Sound n) : n.AllWired := by
  intro c ch hch
  obtain ⟨w, l, hw, -⟩ := (h.channel c ch hch).wired
  exact ⟨l, serverRest w, hw⟩

/-! ## What may be queued -/

/-- A frame that brings packets, or asks whether they came. -/
def Wire.Frame.IsDelivery : Frame → Prop
  | .send _ | .requestAcknowledgment => True
  | _ => False

/-- A server may queue the frame for whoever has this identity. -/
structure Wire.Frame.IsFor (identity : Option Address) (f : Frame) : Prop where
  packets : ∀ p ∈ f.packets, identity = some p.recipient
  delivery : f.IsDelivery → identity ≠ none
  own : f ≠ .fetch

theorem isFor_of_bare {i : Option Address} {f : Frame} (hnone : f.packets = [])
    (hdelivery : ¬ f.IsDelivery) (hown : f ≠ .fetch) : f.IsFor i := by
  refine ⟨?_, fun h => absurd h hdelivery, hown⟩
  rw [hnone]
  exact fun p hp => nomatch hp

theorem isFor_session (i : Option Address) (id : Option SessionId) : (Frame.session id).IsFor i :=
  isFor_of_bare rfl (fun hd => hd) fun h => nomatch h

theorem isFor_identify (i a : Option Address) : (Frame.identify a).IsFor i :=
  isFor_of_bare rfl (fun hd => hd) fun h => nomatch h

theorem Parting.isFor {fs : List Frame} (h : Parting fs) (i : Option Address) :
    ∀ f ∈ fs, f.IsFor i := by
  have hdetach : Frame.detach.IsFor i := isFor_of_bare rfl (fun hd => hd) fun h => nomatch h
  intro f hf
  cases h with
  | silent => cases hf
  | goodbye =>
    rw [List.mem_singleton.1 hf]
    exact hdetach
  | refusal h =>
    obtain rfl | hf := List.mem_cons.1 hf
    · obtain rfl | rfl := refusal?_eq_some h
      · exact isFor_session i none
      · exact isFor_identify i none
    · rw [List.mem_singleton.1 hf]
      exact hdetach

theorem isFor_of_mem_sends {i : Option Address} {ps : List Packet}
    (h : ∀ p ∈ ps, i = some p.recipient) {f : Frame} (hf : f ∈ sends ps) : f.IsFor i := by
  refine ⟨fun p hp => ?_, fun _ => ?_, ?_⟩
  · have hmem := List.mem_flatMap.2 ⟨f, hf, hp⟩
    rw [packets_sends] at hmem
    exact h p hmem
  · have hne : ps ≠ [] := by
      rintro rfl
      rw [sends_nil] at hf
      cases hf
    obtain ⟨p, hp⟩ := List.exists_mem_of_ne_nil ps hne
    rw [h p hp]
    exact fun hnone => nomatch hnone
  · obtain ⟨run, -, rfl⟩ := List.mem_map.1 hf
    exact fun heq => nomatch heq

/-- What is queued in between may be queued for the identity of the first. -/
def Channel.Forwards (ch ch' : Channel σ) : Prop :=
  ∃ items, ch'.queue.toList = ch.queue.toList ++ items ∧
    ∀ f ∈ framesOf items, f.IsFor ch.session.identity

theorem Channel.Forwards.of_queue {ch ch' : Channel σ} (h : ch'.queue = ch.queue) :
    ch.Forwards ch' := by
  refine ⟨[], ?_, fun _ hf => nomatch hf⟩
  rw [h, List.append_nil]

/-- The identity stays, and the packets that are queued are addressed to it. -/
structure Channel.Addressed (ch ch' : Channel σ) : Prop where
  identity : ch'.session.identity = ch.session.identity
  queue : ch.Forwards ch'

namespace Channel.Addressed

theorem refl (ch : Channel σ) : ch.Addressed ch :=
  ⟨rfl, .of_queue rfl⟩

theorem forwards {ch ch' ch'' : Channel σ} (h : ch.Addressed ch') (h' : ch'.Forwards ch'') :
    ch.Forwards ch'' := by
  obtain ⟨items, hqueue, hitems⟩ := h.queue
  obtain ⟨more, hqueue', hmore⟩ := h'
  refine ⟨items ++ more, ?_, ?_⟩
  · rw [hqueue', hqueue, List.append_assoc]
  · intro f hf
    rw [framesOf_append] at hf
    obtain hf | hf := List.mem_append.1 hf
    · exact hitems f hf
    · rw [← h.identity]
      exact hmore f hf

theorem trans {ch ch' ch'' : Channel σ} (h : ch.Addressed ch') (h' : ch'.Addressed ch'') :
    ch.Addressed ch'' := ⟨h'.identity.trans h.identity, h.forwards h'.queue⟩

end Channel.Addressed

namespace Channel.Sound

variable {ch ch' : Channel σ}

theorem of_over (h : ch.Sound) (hover : ch.Over ch') : ch'.Sound ∧ ch.Addressed ch' := by
  obtain ⟨w, l, hw, hbuffer⟩ := h.wired
  obtain ⟨items, hqueue, hitems⟩ := hover.queue
  have hidentity : ch'.session.identity = ch.session.identity := by
    rw [hover.session]
    rfl
  refine ⟨⟨⟨w, l, hw.of_reactors_eq hover.reactors, ?_⟩, ?_, ?_⟩, hidentity, items, hqueue, ?_⟩
  · intro p hp
    rw [hidentity]
    exact hbuffer p hp
  · rw [hover.session]
    exact h.role
  · intro _
    rw [hover.session]
    exact .inr rfl
  · exact hitems.1.isFor _

/-- What becomes of a sound channel that is finished. -/
theorem of_finish (h : ch.Sound) (hover : { ch with finished := true }.Over ch') :
    ch'.Sound ∧ ch.Addressed ch' := by
  obtain ⟨⟨w, l, hw, hbuffer⟩, hrole, hnamed⟩ := h
  have hmarked : ({ ch with finished := true } : Channel σ).Sound :=
    ⟨⟨w, l, hw.of_reactors_eq rfl, hbuffer⟩, hrole, hnamed⟩
  obtain ⟨hsound, haddressed⟩ := hmarked.of_over hover
  exact ⟨hsound, haddressed.identity, haddressed.queue⟩

/-- A sound channel with another ledger, whose packets are addressed to the identity too. -/
theorem setLedger (h : ch.Sound) {l : Ledger}
    (hl : ∀ p ∈ l.unacknowledged, ch.session.identity = some p.recipient) :
    (ch.setLedger l).Sound ∧ ch.Addressed (ch.setLedger l) := by
  obtain ⟨w, l₀, hw, -⟩ := h.wired
  exact ⟨⟨⟨w, l, hw.setLedger l, hl⟩, h.role, h.named⟩, rfl, .of_queue rfl⟩

theorem say (h : ch.Sound) {fs : List Frame} (hregular : ∀ f ∈ fs, f.Regular)
    (hfs : ∀ f ∈ fs, f.IsFor ch.session.identity) :
    (ch.say fs).Sound ∧ ch.Addressed (ch.say fs) := by
  obtain ⟨w, l, hw, hbuffer⟩ := h.wired
  refine ⟨⟨⟨w, l, hw.say fs, hbuffer⟩, h.role, h.named⟩, rfl, _, Backlog.toList_push _ _, ?_⟩
  intro f hf
  rw [framesOf_layouts hregular] at hf
  exact hfs f hf

theorem say_one (h : ch.Sound) {f : Frame} (hregular : f.Regular)
    (hfor : f.IsFor ch.session.identity) : (ch.say [f]).Sound ∧ ch.Addressed (ch.say [f]) := by
  apply h.say (regular_singleton hregular)
  intro g hg
  rw [List.mem_singleton.1 hg]
  exact hfor

theorem ask (h : ch.Sound) (hnamed : ch.session.identity ≠ none) :
    (ch.say [.requestAcknowledgment]).Sound ∧ ch.Addressed (ch.say [.requestAcknowledgment]) := by
  refine h.say_one regular_requestAcknowledgment ⟨?_, fun _ => hnamed, fun h => nomatch h⟩
  exact fun p hp => nomatch hp

/-- An act of a sound channel that may send packets to its identity only. -/
theorem act {may : Packet → Prop} {clears : Prop} (h : ch.Sound)
    (hmay : ∀ p, may p → ch.session.identity = some p.recipient) (hact : ch.Act may clears ch') :
    ch'.Sound ∧ ch.Addressed ch' := by
  obtain ⟨w, l₀, hw₀, hbuffer₀⟩ := h.wired
  cases hact with
  | @send l rest hw hlive ps hps =>
    obtain ⟨rfl, rfl⟩ := hw₀.unique hw
    have hsent : ∀ f ∈ sends ps, f.IsFor ch.session.identity :=
      fun f hf => isFor_of_mem_sends (fun p hp => hmay p (hps p hp)) hf
    have hcounted : ∀ p ∈ (ps.foldl Ledger.recordSent l₀).unacknowledged,
        ch.session.identity = some p.recipient := by
      intro p hp
      rw [Ledger.unacknowledged_foldl_recordSent] at hp
      obtain hp | hp := List.mem_append.1 hp
      · exact hbuffer₀ p hp
      · exact hmay p (hps p hp)
    obtain ⟨hsaid, haddressed⟩ := h.say (fun f hf => regular_of_mem_sends hf) hsent
    obtain ⟨hset, haddressed'⟩ := hsaid.setLedger hcounted
    exact ⟨hset, haddressed.trans haddressed'⟩
  | @resend l rest hw hlive hbuffer =>
    obtain ⟨rfl, rfl⟩ := hw₀.unique hw
    have hflushed : ∀ p ∈ l₀.flush.1.unacknowledged, ch.session.identity = some p.recipient := by
      rw [Ledger.unacknowledged_flush]
      exact hbuffer₀
    have hsent : ∀ f ∈ sends l₀.unacknowledged, f.IsFor ch.session.identity :=
      fun f hf => isFor_of_mem_sends hbuffer₀ hf
    have hnamed : ch.session.identity ≠ none := by
      obtain ⟨p, hp⟩ := List.exists_mem_of_ne_nil _ (Ledger.unacknowledged_ne_nil hbuffer)
      rw [hbuffer₀ p hp]
      exact fun hnone => nomatch hnone
    obtain ⟨hset, haddressed⟩ := h.setLedger hflushed
    obtain ⟨hsaid, haddressed'⟩ := hset.say (fun f hf => regular_of_mem_sends hf) hsent
    obtain ⟨hasked, haddressed''⟩ := hsaid.ask hnamed
    exact ⟨hasked, (haddressed.trans haddressed').trans haddressed''⟩
  | ask hw hlive hnamed => exact h.ask hnamed
  | answer =>
    exact h.say_one (regular_acknowledge _) (isFor_of_bare rfl (fun hd => hd) fun h => nomatch h)
  | clear => exact h.setLedger fun p hp => nomatch hp
  | @fail _ l l' rest hw hbuffer hover =>
    obtain ⟨rfl, rfl⟩ := hw₀.unique hw
    have hkept : ∀ p ∈ l'.unacknowledged, ch.session.identity = some p.recipient := by
      rw [hbuffer]
      exact hbuffer₀
    obtain ⟨hset, haddressed⟩ := h.setLedger hkept
    obtain ⟨hfailed, haddressed'⟩ := hset.of_over hover
    exact ⟨hfailed, haddressed.trans haddressed'⟩

/-- A sound channel takes a step only while it has no identity, and is sound after it. -/
theorem step (h : ch.Sound) {s : Session} (hs : ch.session.Step s) :
    (ch.setSession s).Sound ∧ ch.session.identity = none := by
  have hnone : ch.session.identity = none := by
    cases hi : ch.session.identity with
    | none => rfl
    | some a =>
      obtain ⟨hidentified, hclosed⟩ := hs.phase
      obtain hp | hp := h.named (by simp [hi])
      · exact absurd hp hidentified
      · exact absurd hp hclosed
  obtain ⟨w, l, hw, hbuffer⟩ := h.wired
  refine ⟨⟨⟨w, l, hw.of_reactors_eq rfl, ?_⟩, ?_, ?_⟩, hnone⟩
  · intro p hp
    have hp' := hbuffer p hp
    rw [hnone] at hp'
    cases hp'
  · exact hs.role.trans h.role
  · intro hnamed
    obtain hkept | hidentified := hs.identity
    · exact absurd (hkept.trans hnone) hnamed
    · exact .inl hidentified

end Channel.Sound

end Courier
