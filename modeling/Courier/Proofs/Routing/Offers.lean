import Courier.Proofs.Node.Traffic
import Courier.Proofs.Node.Within
import Courier.Proofs.Routing.Views

/-! # A packet on its way to its recipient

A packet is offered to the channels of its recipient one after the other, and whatever their
pipelines are, what one of them does about it stays within that channel. So the channels that take
the packet are those that could when it was routed, if no reactor changes the registry meanwhile
(`Node.Aloof`): each of these has it in its queue once, the others are detached, and the packet waits
if there is none (`routePacket_spec`).
-/
set_option autoImplicit false

namespace Courier

open Courier.Wire Courier.Wire.Frame Courier.Routing

variable {σ : Type} {n n' n'' : Node σ} {c : ChannelId} {ch : Channel σ} {p : Packet}
  {cs : List ChannelId}

/-! ## Channels that take a packet -/

/-- The channel is there, it is open, and somebody takes its queue. -/
def Node.accepts (n : Node σ) (c : ChannelId) : Bool :=
  match n.channel? c with
  | some ch => decide ch.Live
  | none => false

theorem Node.accepts_iff : n.accepts c = true ↔ ∃ ch, n.channel? c = some ch ∧ ch.Live := by
  unfold Node.accepts
  cases n.channel? c with
  | none => simp
  | some ch => simp

theorem Node.accepts_congr (h : n'.channel? c = n.channel? c) : n'.accepts c = n.accepts c := by
  rw [Node.accepts, h]
  rfl

theorem not_live_of_not_accepts (h : n.accepts c = false) :
    ∀ ch, n.channel? c = some ch → ¬ ch.Live := by
  intro ch hch hlive
  rw [Node.accepts_iff.2 ⟨ch, hch, hlive⟩] at h
  cases h

/-- The packet is queued in a SEND frame of its own, and nothing behind it carries packets. -/
def Channel.Took (p : Packet) (ch ch' : Channel σ) : Prop :=
  ∃ b items, (Frame.send [p]).encode = .ok b ∧
    ch'.queue.toList = ch.queue.toList ++ .bytes b :: items ∧ ∀ f ∈ framesOf items, f.packets = []

/-- What becomes of the channels that a packet is offered to, and of all others. -/
structure Node.Offered (p : Packet) (cs : List ChannelId) (n n' : Node σ) : Prop where
  others : ∀ c ∉ cs, n'.channel? c = n.channel? c
  took : ∀ c ∈ cs, ∀ ch, n.channel? c = some ch → ch.Live →
    ∃ ch', n'.channel? c = some ch' ∧ ch.Took p ch'
  refused : ∀ c ∈ cs, n.accepts c = false →
    (n'.channel? c).map (·.queue) = (n.channel? c).map (·.queue)

namespace Node.Offered

theorem nil (n : Node σ) : n.Offered p [] n :=
  ⟨fun _ _ => rfl, (fun _ hc => nomatch hc), fun _ hc => nomatch hc⟩

/-- One channel after the other, if none comes twice. -/
theorem cons (h : n.Offered p [c] n') (h' : n'.Offered p cs n'') (hc : c ∉ cs) :
    n.Offered p (c :: cs) n'' := by
  have hfirst : n''.channel? c = n'.channel? c := h'.others c hc
  have hrest : ∀ c' ∈ cs, n'.channel? c' = n.channel? c' := by
    intro c' hc'
    apply h.others
    rw [List.mem_singleton]
    rintro rfl
    exact hc hc'
  refine ⟨?_, ?_, ?_⟩
  · intro c' hc'
    obtain ⟨hne, hnot⟩ := not_or.1 fun hor => hc' (List.mem_cons.2 hor)
    rw [h'.others c' hnot, h.others c' fun hmem => hne (List.mem_singleton.1 hmem)]
  · intro c' hc' ch hch hlive
    obtain rfl | hc' := List.mem_cons.1 hc'
    · rw [hfirst]
      exact h.took c' (List.mem_singleton.2 rfl) ch hch hlive
    · exact h'.took c' hc' ch ((hrest c' hc').trans hch) hlive
  · intro c' hc' hrefuses
    obtain rfl | hc' := List.mem_cons.1 hc'
    · rw [hfirst]
      exact h.refused c' (List.mem_singleton.2 rfl) hrefuses
    · rw [h'.refused c' hc' ((accepts_congr (hrest c' hc')).trans hrefuses), hrest c' hc']

end Node.Offered

/-! ## Reactors that leave the registry alone -/

/-- No reactor changes the registry while the packet is sent on the channel or, if the channel does
not take it, while the fault is raised. -/
def Node.Aloof (p : Packet) (c : ChannelId) (n : Node σ) : Prop :=
  match (writePackets c [p]).apply n with
  | (.ok (), m) => (dispatchWith .quiet c (.packetSent p) m).registry = m.registry
  | (.error f, m) =>
    let m := { m with registry := m.registry.detach p.recipient c }
    (raise c f m).registry = m.registry

/-- No reactor changes the registry while the packet is offered to these channels in turn. -/
def Node.AloofFrom (p : Packet) : List ChannelId → Node σ → Prop
  | [], _ => True
  | c :: rest, n => n.Aloof p c ∧ AloofFrom p rest (offerPacket .full p n c).2

/-- The pipelines of servers and clients leave the registry alone. -/
theorem Node.AllWired.aloof (h : n.AllWired) (p : Packet) (c : ChannelId) : n.Aloof p c := by
  have hraise : ∀ (r : Registry) (f : Fault),
      (raise c f { n with registry := r }).registry = r := by
    intro r f
    have hwired : ({ n with registry := r } : Node σ).AllWired := h
    cases hch : ({ n with registry := r } : Node σ).channel? c with
    | none =>
      rw [raise, raiseWith_of_none hch]
    | some ch =>
      obtain ⟨l, rest, hw⟩ := hwired c ch hch
      obtain ⟨ch', hquiet, -⟩ := raiseWith_spec (k := .full) hch hw f
      exact hquiet.registry
  have hwrite := later_rule.writePackets c [p] n
  unfold Node.Aloof
  rw [writePackets_eq (List.cons_ne_nil p []), apply_enqueue] at hwrite ⊢
  cases hch : n.channel? c with
  | none =>
    simp only []
    exact hraise _ _
  | some ch =>
    rw [hch] at hwrite
    simp only [] at hwrite ⊢
    cases hqueued : ch.enqueue c (layouts (sends [p])) with
    | error e =>
      simp only []
      exact hraise _ _
    | ok ch' =>
      rw [hqueued] at hwrite
      simp only [] at hwrite ⊢
      have hch' : (n.modify c fun _ => ch').channel? c = some ch' :=
        Node.channel?_modify_of_some hch _
      obtain ⟨l, rest, hw⟩ := h.later hwrite c ch' hch'
      exact (dispatchWith_packetSent later_rule.quiet hch' hw p).registry

theorem Node.AllWired.aloofFrom (h : n.AllWired) (p : Packet) (cs : List ChannelId) :
    n.AloofFrom p cs := by
  induction cs generalizing n with
  | nil => trivial
  | cons c cs ih =>
    exact ⟨h.aloof p c, ih (h.later (later_rule.offerPacket later_rule.full p n c))⟩

/-! ## One channel -/

theorem writePackets_singleton (c : ChannelId) (p : Packet) :
    (writePackets c [p] : Action σ Unit) = enqueue c (layouts [.send [p]]) := by
  rw [writePackets_eq (List.cons_ne_nil p []), sends_singleton]

theorem regular_send (p : Packet) : (Frame.send [p]).Regular := by
  have hmem : Frame.send [p] ∈ sends [p] := by
    rw [sends_singleton]
    exact List.mem_singleton.2 rfl
  exact regular_of_mem_sends hmem

/-- A channel that can take a packet does. -/
theorem offerPacket_of_live (haloof : n.Aloof p c) (hch : n.channel? c = some ch)
    (hlive : ch.Live) : ∃ n', offerPacket .full p n c = (true, n') ∧ n'.registry = n.registry ∧
      n.Offered p [c] n' := by
  have hwrite : (writePackets c [p]).apply n =
      (.ok (), n.modify c fun _ => ch.say [.send [p]]) := by
    rw [writePackets_singleton]
    exact apply_enqueue_of_live hch hlive _
  obtain ⟨m, hm⟩ : ∃ m, m = n.modify c fun _ => ch.say [.send [p]] := ⟨_, rfl⟩
  have hsaid : m.channel? c = some (ch.say [.send [p]]) :=
    hm ▸ Node.channel?_modify_of_some hch _
  have hothers : ∀ c' ≠ c, m.channel? c' = n.channel? c' :=
    fun c' hc => hm ▸ n.channel?_modify_of_ne _ hc
  have hkept : m.registry = n.registry := hm ▸ rfl
  rw [← hm] at hwrite
  have hin : (Event.packetSent p).Inward := trivial
  have hwithin : m.Within c (dispatchWith .quiet c (.packetSent p) m) :=
    within_dispatchWith (within_finish c) hin m
  refine ⟨dispatchWith .quiet c (.packetSent p) m, ?_, ?_, ?_, ?_, ?_⟩
  · have hsend : (sendPacketsWith .full c [p]).apply n =
        (.ok (), dispatchWith .quiet c (.packetSent p) m) := by
      rw [sendPacketsWith, Action.apply_bind_ok hwrite]
      rfl
    rw [offerPacket, hsend]
  · rw [Node.Aloof, hwrite] at haloof
    exact haloof.trans hkept
  · intro c' hc'
    have hne : c' ≠ c := fun heq => hc' (List.mem_singleton.2 heq)
    rw [hwithin.others c' hne, hothers c' hne]
  · intro c' hc' ch₀ hch₀ _
    obtain rfl := List.mem_singleton.1 hc'
    obtain rfl : ch = ch₀ := Option.some.inj (hch.symm.trans hch₀)
    obtain ⟨ch', hch', htrails⟩ := hwithin.own _ hsaid
    obtain ⟨items, hqueue, hbare, -⟩ := htrails.tail
    refine ⟨ch', hch', _, items, encode_of_regular (regular_send p), ?_, fun f hf => (hbare f hf).1⟩
    rw [hqueue, Channel.say, Backlog.toList_push, List.append_assoc]
    rfl
  · intro c' hc' hrefuses
    obtain rfl := List.mem_singleton.1 hc'
    exact absurd hlive (not_live_of_not_accepts hrefuses ch hch)

/-- Any other is detached from the packet's recipient. -/
theorem offerPacket_of_not_accepts (haloof : n.Aloof p c) (hnot : n.accepts c = false) :
    ∃ n', offerPacket .full p n c = (false, n') ∧
      n'.registry = n.registry.detach p.recipient c ∧ n.Offered p [c] n' := by
  obtain ⟨f, hwrite, hoffer⟩ := offerPacket_of_not_live (not_live_of_not_accepts hnot) p
  have hwithin : ({ n with registry := n.registry.detach p.recipient c } : Node σ).Within c
      (raise c f { n with registry := n.registry.detach p.recipient c }) :=
    within_raiseWith (within_finish c) f _
  refine ⟨_, hoffer, ?_, ?_, ?_, ?_⟩
  · rw [Node.Aloof, hwrite] at haloof
    exact haloof
  · intro c' hc'
    exact hwithin.others c' fun heq => hc' (List.mem_singleton.2 heq)
  · intro c' hc' ch hch hlive
    obtain rfl := List.mem_singleton.1 hc'
    exact absurd hlive (not_live_of_not_accepts hnot ch hch)
  · intro c' hc' _
    obtain rfl := List.mem_singleton.1 hc'
    cases hch : n.channel? c' with
    | none => rw [hwithin.none hch]
    | some ch =>
      obtain ⟨ch', hch', htrails⟩ := hwithin.own ch hch
      rw [hch', Option.map_some, Option.map_some,
        htrails.queue_eq (not_live_of_not_accepts hnot ch hch)]

theorem offerPacket_spec (haloof : n.Aloof p c) :
    ∃ n', offerPacket .full p n c = (n.accepts c, n') ∧
      n'.registry = (if n.accepts c then n.registry else n.registry.detach p.recipient c) ∧
      n.Offered p [c] n' := by
  cases haccepts : n.accepts c with
  | true =>
    obtain ⟨ch, hch, hlive⟩ := Node.accepts_iff.1 haccepts
    exact offerPacket_of_live haloof hch hlive
  | false => exact offerPacket_of_not_accepts haloof haccepts

/-! ## All channels of the recipient -/

/-- Channels that are offered a packet: those that can take it do, and the others are detached. -/
theorem offerAll_spec (haloof : n.AloofFrom p cs) (honce : cs.Nodup) :
    ∃ n', offerAll .full p cs n =
        (((cs.filter n.accepts).length, (cs.filter (!n.accepts ·)).length), n') ∧
      n'.registry = (cs.filter (!n.accepts ·)).foldl (fun r c => r.detach p.recipient c)
        n.registry ∧ n.Offered p cs n' := by
  induction cs generalizing n with
  | nil => exact ⟨n, rfl, rfl, .nil n⟩
  | cons c cs ih =>
    obtain ⟨hc, honce⟩ := List.nodup_cons.1 honce
    obtain ⟨hfirst, hrest⟩ := haloof
    -- What the first channel does about the packet leaves the others able to take it.
    have hsame : ∀ n', n.Offered p [c] n' → ∀ c' ∈ cs, n'.accepts c' = n.accepts c' := by
      intro n' hoffered c' hc'
      apply Node.accepts_congr
      apply hoffered.others
      rw [List.mem_singleton]
      rintro rfl
      exact hc hc'
    obtain ⟨n₁, hoffer, hregistry, hoffered⟩ := offerPacket_spec hfirst
    have hrest : n₁.AloofFrom p cs := by
      rw [hoffer] at hrest
      exact hrest
    obtain ⟨n', hall, hregistry', hoffered'⟩ := ih hrest honce
    have htake := List.filter_congr (hsame n₁ hoffered)
    have hleave : cs.filter (!n₁.accepts ·) = cs.filter (!n.accepts ·) :=
      List.filter_congr fun c' hc' => congrArg not (hsame n₁ hoffered c' hc')
    rw [htake, hleave] at hall
    rw [hleave, hregistry] at hregistry'
    refine ⟨n', ?_, ?_, hoffered.cons hoffered' hc⟩
    · rw [offerAll, hoffer]
      simp only [hall]
      cases haccepts : n.accepts c <;> simp [haccepts]
    · cases haccepts : n.accepts c <;> simpa [haccepts] using hregistry'

/-! ## Routing -/

theorem routePacket_of_echo (hecho : p.isEcho = true) : routePacket p n = (.echo, n) :=
  if_pos hecho

/-- A packet is queued on the channels of its recipient that can take it, and waits if there are
none; the others are detached. -/
theorem routePacket_spec (hecho : p.isEcho = false)
    (haloof : n.AloofFrom p (n.registry.channels p.recipient))
    (honce : (n.registry.channels p.recipient).Nodup) :
    let able := (n.registry.channels p.recipient).filter n.accepts
    let unable := (n.registry.channels p.recipient).filter (!n.accepts ·)
    let left := unable.foldl (fun r c => r.detach p.recipient c) n.registry
    ∃ n', routePacket p n = (if able = [] then .queued else .delivered able.length unable.length,
        n') ∧
      n'.registry = (if able = [] then left.enqueue p else left) ∧
      n.Offered p (n.registry.channels p.recipient) n' := by
  intro able unable left
  obtain ⟨n', hall, hregistry, hoffered⟩ := offerAll_spec haloof honce
  have hnot : ¬ p.isEcho = true := by simp [hecho]
  by_cases hnone : able = []
  · have hlength : able.length = 0 := by rw [hnone]; rfl
    refine ⟨{ n' with registry := n'.registry.enqueue p }, ?_, ?_, hoffered.others, hoffered.took,
      hoffered.refused⟩
    · rw [routePacket, routeWith, if_neg hnot, hall, if_pos hnone]
      simp only []
      rw [if_pos hlength]
    · rw [if_pos hnone]
      exact congrArg (·.enqueue p) hregistry
  · have hlength : able.length ≠ 0 := fun h => hnone (List.length_eq_zero_iff.1 h)
    refine ⟨n', ?_, ?_, hoffered⟩
    · rw [routePacket, routeWith, if_neg hnot, hall, if_neg hnone]
      simp only []
      rw [if_neg hlength]
    · rw [if_neg hnone]
      exact hregistry

end Courier
