import Courier.Proofs.Server.Soundness

/-! # What traffic does to a sound server

Traffic keeps a server sound, and what it queues on a channel is addressed to the identity that the
channel has had all along (`Delivered`). Addresses are compared whole, so it does not matter which
of them share a locator.
-/
set_option autoImplicit false

namespace Courier

open Courier.Wire Courier.Wire.Frame Courier.Routing

variable {σ α β : Type} {n n' n'' : Node σ} {c c' : ChannelId} {ch ch' : Channel σ}

/-! ## Changes of one channel -/

/-- A sound channel in place of one whose identity it keeps. -/
theorem Sound.modify (h : Sound n) (hch : n.channel? c = some ch) (hsound : ch'.Sound)
    (hkept : ∀ a, ch.session.identity = some a → ch'.session.identity = some a) :
    Sound (n.modify c fun _ => ch') := by
  refine ⟨?_, ?_, h.waiting⟩
  · intro c' ch₀ hch₀
    by_cases hc : c' = c
    · subst hc
      rw [Node.channel?_modify_self, hch] at hch₀
      cases hch₀
      exact hsound
    · rw [Node.channel?_modify_of_ne n _ hc] at hch₀
      exact h.channel c' ch₀ hch₀
  · exact h.attached.imp fun a c' hc' => identity?_modify_of_kept hch hkept c' a hc'

theorem Sound.of_channels (h : Sound n) (hchannels : n'.channels = n.channels)
    (hattached : n'.registry.Attached fun a c => n.identity? c = some a)
    (hwaiting : n'.registry.Waiting fun a p => p.recipient = a) : Sound n' := by
  refine ⟨?_, ?_, hwaiting⟩
  · intro c ch hch
    rw [Node.channel?, hchannels] at hch
    exact h.channel c ch hch
  · refine hattached.imp ?_
    intro a c hc
    rw [identity?_of_channels hchannels]
    exact hc

/-! ## Deliveries -/

/-- The second is sound, and what was queued in between is addressed to the identity that its
channel had all along. -/
structure Delivered (n n' : Node σ) : Prop where
  sound : Sound n'
  identity : ∀ c, n'.identity? c = n.identity? c
  channel : ∀ c ch, n.channel? c = some ch → ∃ ch', n'.channel? c = some ch' ∧ ch.Addressed ch'

namespace Delivered

theorem of_channels (h : Sound n) (hchannels : n'.channels = n.channels)
    (hattached : n'.registry.Attached fun a c => n.identity? c = some a)
    (hwaiting : n'.registry.Waiting fun a p => p.recipient = a) : Delivered n n' := by
  refine ⟨h.of_channels hchannels hattached hwaiting, identity?_of_channels hchannels, ?_⟩
  intro c ch hch
  refine ⟨ch, ?_, .refl ch⟩
  rw [Node.channel?, hchannels]
  exact hch

theorem quiet (h : Sound n) (hquiet : Quiet n n') : Delivered n n' := by
  apply of_channels h hquiet.channels
  · rw [hquiet.registry]
    exact h.attached
  · rw [hquiet.registry]
    exact h.waiting

theorem refl (h : Sound n) : Delivered n n := quiet h (.refl n)

theorem trans (h : Delivered n n') (h' : Delivered n' n'') : Delivered n n'' := by
  refine ⟨h'.sound, fun c => (h'.identity c).trans (h.identity c), ?_⟩
  intro c ch hch
  obtain ⟨ch', hch', haddressed⟩ := h.channel c ch hch
  obtain ⟨ch'', hch'', haddressed'⟩ := h'.channel c ch' hch'
  exact ⟨ch'', hch'', haddressed.trans haddressed'⟩

theorem modify (h : Sound n) (hch : n.channel? c = some ch)
    (hnext : ch'.Sound ∧ ch.Addressed ch') : Delivered n (n.modify c fun _ => ch') := by
  obtain ⟨hsound, haddressed⟩ := hnext
  refine ⟨h.modify hch hsound fun a ha => haddressed.identity.trans ha,
    identity?_modify_of_eq hch haddressed.identity, ?_⟩
  exact Node.exists_modify (Q := fun _ ch ch' => ch.Addressed ch') hch haddressed
    fun _ _ ch₀ => .refl ch₀

end Delivered

/-! ## Traffic -/

/-- From a sound node on, packets may be sent to the channels with their identities. -/
def Serves (may : ChannelId → Packet → Prop) (n n' : Node σ) : Prop :=
  Sound n → (∀ c p, may c p → n.identity? c = some p.recipient) → Delivered n n'

theorem serves_loose (may : ChannelId → Packet → Prop) (clears : ChannelId → Prop) :
    Law.Loose may clears (Serves (σ := σ) may) where
  trans := by
    intro a b d h h' hsound hmay
    have hfirst := h hsound hmay
    refine hfirst.trans (h' hfirst.sound ?_)
    intro c p hp
    rw [hfirst.identity]
    exact hmay c p hp
  quiet := fun hquiet hsound _ => .quiet hsound hquiet
  act := by
    intro n c ch ch' hch hact hsound hmay
    refine .modify hsound hch ((hsound.channel c ch hch).act ?_ hact)
    intro p hp
    rw [← identity?_eq hch]
    exact hmay c p hp
  detach := by
    intro n a c hsound _
    refine .of_channels hsound rfl (hsound.attached.detach a c) ?_
    rw [Registry.Waiting, Registry.mailboxes_detach]
    exact hsound.waiting
  enqueue := fun n p hsound _ =>
    .of_channels hsound rfl hsound.attached (hsound.waiting.enqueue rfl)
  takeAll := by
    intro n a hsound _
    refine .of_channels hsound rfl ?_ (hsound.waiting.setWaiting fun p hp => nomatch hp)
    rw [Registry.Attached, Registry.takeAll, Registry.attachments_setWaiting]
    exact hsound.attached
  putBack := by
    intro n a hsound _
    have htaken : (n.registry.takeAll a).2.Waiting fun a p => p.recipient = a :=
      hsound.waiting.setWaiting fun p hp => nomatch hp
    refine .of_channels hsound rfl ?_ (htaken.setWaiting ?_)
    · rw [Registry.Attached, Registry.requeue, Registry.attachments_setWaiting,
        Registry.takeAll, Registry.attachments_setWaiting]
      exact hsound.attached
    · intro p hp
      obtain hp | hp := List.mem_append.1 hp
      · exact hsound.waiting.waiting hp
      · exact htaken.waiting hp

theorem serves_law (may : ChannelId → Packet → Prop) (clears : ChannelId → Prop) :
    Law may clears (Serves (σ := σ) may) := (serves_loose may clears).law

/-- What may be sent on a channel of a node. -/
def Node.owes (n : Node σ) (c : ChannelId) (p : Packet) : Prop := n.identity? c = some p.recipient

theorem Delivered.permits (h : Delivered n n') : Permits n.owes n' := by
  refine ⟨?_, ?_⟩
  · intro p c hc
    have hattached := h.sound.attached.channels hc
    rw [h.identity] at hattached
    exact hattached
  · intro c ch a hch ha p hp
    have hrecipient : p.recipient = a := h.sound.waiting.waiting hp
    show n.identity? c = some p.recipient
    rw [hrecipient, ← h.identity, identity?_eq hch]
    exact ha

namespace Sound

variable (h : Sound n)

include h

theorem raiseWith (k : Reentry σ) (c : ChannelId) (f : Fault) :
    Delivered n (raiseWith k c f n) :=
  (serves_law n.owes fun _ => True).raiseWith h.allWired k c f h fun _ _ hp => hp

theorem routePacket (p : Packet) : Delivered n (routePacket p n).2 :=
  (serves_law n.owes fun _ => True).routePacket h.allWired p ((Delivered.refl h).permits.route p) h
    fun _ _ hp => hp

theorem heard (hch : n.channel? c = some ch) (p : Packet) : Delivered n (n.heard c p) := by
  obtain ⟨w, l, hw, hbuffer⟩ := (h.channel c ch hch).wired
  have hnote : Delivered n (n.note c .eventLog (.event (.packetReceived p))) := by
    apply Delivered.of_channels h
    · unfold Node.note
      split <;> rfl
    · rw [Node.registry_note]
      exact h.attached
    · rw [Node.registry_note]
      exact h.waiting
  rw [heard_eq hch hw]
  refine hnote.trans (.modify hnote.sound ((n.channel?_note c c _ _).trans hch) ?_)
  exact (h.channel c ch hch).setLedger hbuffer

theorem traffic (hch : n.channel? c = some ch) {e : Event} (he : e.IsTraffic) :
    Delivered n (dispatch c e n) := by
  by_cases hnew : ∃ p, e = .packetReceived p
  · obtain ⟨p, rfl⟩ := hnew
    have hheard := h.heard hch p
    have hmay : ∀ c' q, n.owes c' q → (n.heard c p).identity? c' = some q.recipient := by
      intro c' q hq
      rw [hheard.identity]
      exact hq
    obtain ⟨-, hserves⟩ :=
      (serves_law n.owes fun _ => True).dispatch_packetReceived h.allWired hch p
      fun n' hn' => (hheard.trans (hn' hheard.sound hmay)).permits
    exact hheard.trans (hserves hheard.sound hmay)
  · obtain ⟨w, l, hw, -⟩ := (h.channel c ch hch).wired
    refine (serves_law n.owes fun _ => True).dispatch h.allWired hch hw he
      (fun p hp => hnew ⟨p, hp⟩) (fun _ _ _ => trivial) ?_ h fun _ _ hp => hp
    exact fun n' hn' => (hn' h fun _ _ hp => hp).permits

end Sound
end Courier
