import Courier.Proofs.Duplex.Books

/-! # Traffic on a node whose channels keep books

Whatever traffic comes in, the packets that arrive are dispatched on the channel that receives them,
attachments are only taken away, and each channel that stays open has its books written
(`Node.Traded`). A SEND frame is received whole, if the channel stays open
(`Node.Ready.receivePackets`).
-/
set_option autoImplicit false

namespace Courier

open Courier.Wire Courier.Wire.Frame Courier.Routing

variable {σ : Type} {n n' n'' : Node σ} {c : ChannelId} {ch ch' : Channel σ}

/-- These packets on one channel, and none on the others. -/
def on (c : ChannelId) (ps : List Packet) (c' : ChannelId) : List Packet :=
  if c' = c then ps else []

theorem on_self (c : ChannelId) (ps : List Packet) : on c ps c = ps := if_pos rfl

theorem on_nil (c : ChannelId) : on c [] = fun _ => [] := by
  funext c'
  unfold on
  split <;> rfl

theorem on_append (c : ChannelId) (ps qs : List Packet) :
    on c (ps ++ qs) = fun c' => on c ps c' ++ on c qs c' := by
  funext c'
  by_cases h : c' = c <;> simp [on, h]

namespace Node

/-- What traffic does to a node on whose channels these packets arrive. -/
structure Traded (got : ChannelId → List Packet) (n n' : Node σ) : Prop where
  arrivals : ∀ c, n'.arrivals c = n.arrivals c ++ got c
  identity : ∀ c, n'.identity? c = n.identity? c
  attached : ∀ P, n.registry.Attached P → n'.registry.Attached P
  channel : ∀ c ch, n.channel? c = some ch → ∃ ch', n'.channel? c = some ch' ∧
    (ch'.session.isClosed = false → ∃ fs, ch.Traded (got c) fs ch')

namespace Traded

theorem of_channels (hchannels : n'.channels = n.channels)
    (harrivals : ∀ c, n'.arrivals c = n.arrivals c)
    (hattached : ∀ P, n.registry.Attached P → n'.registry.Attached P) :
    Traded (fun _ => []) n n' := by
  refine ⟨fun c => ?_, identity?_of_channels hchannels, hattached, ?_⟩
  · rw [harrivals, List.append_nil]
  · intro c ch hch
    refine ⟨ch, ?_, fun _ => ⟨[], .refl ch⟩⟩
    rw [channel?, hchannels]
    exact hch

theorem quiet (h : Quiet n n') : Traded (fun _ => []) n n' := by
  refine of_channels h.channels h.arrivals fun P hP => ?_
  rw [h.registry]
  exact hP

theorem trans {got got' : ChannelId → List Packet} (h : Traded got n n')
    (h' : Traded got' n' n'') : Traded (fun c => got c ++ got' c) n n'' := by
  refine ⟨fun c => ?_, fun c => (h'.identity c).trans (h.identity c),
    fun P hP => h'.attached P (h.attached P hP), ?_⟩
  · rw [h'.arrivals, h.arrivals, List.append_assoc]
  · intro c ch hch
    obtain ⟨ch', hch', hfirst⟩ := h.channel c ch hch
    obtain ⟨ch'', hch'', hnext⟩ := h'.channel c ch' hch'
    refine ⟨ch'', hch'', fun hopen => ?_⟩
    obtain ⟨fs', htraded'⟩ := hnext hopen
    rw [htraded'.session] at hopen
    obtain ⟨fs, htraded⟩ := hfirst hopen
    exact ⟨fs ++ fs', htraded.trans htraded'⟩

/-- A change of one channel, on which these packets arrive. -/
theorem modify {got : List Packet} {m : Node σ} (hch : n.channel? c = some ch)
    (hchannels : m.channels = n.channels) (hregistry : m.registry = n.registry)
    (harrivals : ∀ c', m.arrivals c' = n.arrivals c' ++ on c got c')
    (hidentity : ch'.session.identity = ch.session.identity)
    (hopen : ch'.session.isClosed = false → ∃ fs, ch.Traded got fs ch') :
    Traded (on c got) n (m.modify c fun _ => ch') := by
  have hm : m.channel? c = some ch := by
    rw [channel?, hchannels]
    exact hch
  refine ⟨harrivals, fun c' => ?_, fun P hP => ?_, ?_⟩
  · rw [identity?_modify_of_eq hm hidentity, identity?_of_channels hchannels]
  · show m.registry.Attached P
    rw [hregistry]
    exact hP
  · intro c' ch₀ hch₀
    rw [channel?, ← hchannels] at hch₀
    refine exists_modify (Q := fun c' ch ch' => ch'.session.isClosed = false →
      ∃ fs, ch.Traded (on c got c') fs ch') hm ?_ ?_ c' ch₀ hch₀
    · rw [on_self]
      exact hopen
    · intro c' hc ch₀ _
      rw [on, if_neg hc]
      exact ⟨[], .refl ch₀⟩

end Traded

/-! ## The law -/

/-- From a node on, packets may be sent on the channels that have an identity. -/
def Trades (may : ChannelId → Packet → Prop) (n n' : Node σ) : Prop :=
  (∀ c p, may c p → n.identity? c ≠ none) → n.Traded (fun _ => []) n'

theorem trades_loose (may : ChannelId → Packet → Prop) (clears : ChannelId → Prop) :
    Law.Loose may clears (Trades (σ := σ) may) where
  trans := by
    intro a b d h h' hmay
    have hfirst := h hmay
    refine hfirst.trans (h' ?_)
    intro c p hp
    rw [hfirst.identity]
    exact hmay c p hp
  quiet := fun hquiet _ => .quiet hquiet
  act := by
    intro n c ch ch' hch hact hmay
    rw [← on_nil c]
    refine .modify hch rfl rfl (fun c' => ?_) hact.identity fun hopen => ?_
    · rw [on_nil]
      exact (List.append_nil _).symm
    · apply Channel.Traded.of_act hact _ hopen
      intro p hp
      rw [← identity?_eq hch]
      exact hmay c p hp
  detach := fun n a c _ => .of_channels rfl (fun _ => rfl) fun P hP => hP.detach a c
  enqueue := fun n p _ => .of_channels rfl (fun _ => rfl) fun P hP => hP
  takeAll := by
    intro n a _
    refine .of_channels rfl (fun _ => rfl) fun P hP => ?_
    rw [Registry.Attached, Registry.takeAll, Registry.attachments_setWaiting]
    exact hP
  putBack := by
    intro n a _
    refine .of_channels rfl (fun _ => rfl) fun P hP => ?_
    rw [Registry.Attached, Registry.requeue, Registry.attachments_setWaiting, Registry.takeAll,
      Registry.attachments_setWaiting]
    exact hP

theorem trades_law (may : ChannelId → Packet → Prop) (clears : ChannelId → Prop) :
    Law may clears (Trades (σ := σ) may) := (trades_loose may clears).law

/-! ## Events -/

/-- The channel in a place, if there is one, is open. -/
def OpenAt (n : Node σ) (c : ChannelId) : Prop :=
  ∀ ch, n.channel? c = some ch → ch.session.isClosed = false

instance (n : Node σ) (c : ChannelId) : Decidable (n.OpenAt c) :=
  inferInstanceAs (Decidable (∀ ch, n.channel? c = some ch → ch.session.isClosed = false))

theorem OpenAt.before (hopen : n'.OpenAt c) (hlater : n.Later n') : n.OpenAt c := by
  intro ch hch
  obtain ⟨ch', hch', hlater'⟩ := hlater.channel c ch hch
  exact hlater'.isOpen (hopen ch' hch')

/-- A node on which traffic can come in: only channels with an identity are attached. -/
structure Ready (n : Node σ) : Prop where
  wired : n.AllWired
  shown : ∀ c ch, n.channel? c = some ch → ch.published = ch.session.phase
  attached : n.registry.Attached fun _ c => n.identity? c ≠ none

def may (n : Node σ) (c : ChannelId) (_ : Packet) : Prop := n.identity? c ≠ none

theorem Traded.permits {got : ChannelId → List Packet} (h : n.Ready) (ht : n.Traded got n') :
    Permits n.may n' := by
  refine ⟨fun p c hc => (ht.attached _ h.attached).channels hc, ?_⟩
  intro c ch a hch ha p _
  show n.identity? c ≠ none
  rw [← ht.identity, identity?_eq hch, ha]
  exact fun hnone => nomatch hnone

namespace Ready

theorem of_later (h : n.Ready) (hlater : n.Later n')
    (hattached : n'.registry.Attached fun _ c => n'.identity? c ≠ none) : n'.Ready := by
  refine ⟨h.wired.later hlater, ?_, hattached⟩
  intro c ch' hch'
  obtain ⟨ch, hch, hlater'⟩ := hlater.before hch'
  exact hlater'.shown (h.shown c ch hch)

theorem next {got : ChannelId → List Packet} (h : n.Ready) (ht : n.Traded got n')
    (hlater : n.Later n') : n'.Ready := by
  refine h.of_later hlater ?_
  refine (ht.attached _ h.attached).imp fun _ c hc => ?_
  rw [ht.identity]
  exact hc

theorem not_isClosed (h : n.Ready) (hch : n.channel? c = some ch) (hlater : n.Later n')
    (hopen : n'.OpenAt c) : ¬ n'.isClosed c := by
  intro hclosed
  obtain ⟨ch', hch', hlater'⟩ := hlater.channel c ch hch
  rw [isClosed, hch'] at hclosed
  have hphase : ch'.published = .closed := of_decide_eq_true hclosed
  rw [hlater'.shown (h.shown c ch hch)] at hphase
  have hisopen := hopen ch' hch'
  simp [Session.isClosed, hphase] at hisopen

variable (h : n.Ready)

include h

theorem sendPackets (c : ChannelId) (ps : List Packet) (hc : n.identity? c ≠ none) :
    n.Traded (fun _ => []) ((Courier.sendPackets c ps).apply n).2 :=
  (trades_law n.may fun _ => True).sendPackets h.wired c ps (fun _ _ => hc) fun _ _ hp => hp

theorem routePacket (p : Packet) : n.Traded (fun _ => []) (routePacket p n).2 :=
  (trades_law n.may fun _ => True).routePacket h.wired p
    (fun _ hc => h.attached.channels hc) fun _ _ hp => hp

omit h in
theorem writeFrame (c : ChannelId) {f : Frame} (htraffic : f.IsTraffic) (hregular : f.Regular)
    (hnone : f.packets = []) (hcount : ∀ count, f ≠ .acknowledge count) :
    n.Traded (fun _ => []) ((writeFrame c f).apply n).2 := by
  obtain ⟨ch, hch, hlive⟩ | hnot := live_or_not n c
  · rw [apply_writeFrame hch hlive hregular]
    rw [← on_nil c]
    refine .modify hch rfl rfl (fun c' => ?_) rfl fun _ => ⟨[f], ?_⟩
    · rw [on_nil]
      exact (List.append_nil _).symm
    · exact .ask htraffic hregular hnone hcount
  · obtain ⟨e, he⟩ := apply_writeFrame_of_not_live hnot hregular
    rw [he]
    exact .quiet (.refl n)

theorem dispatch (hch : n.channel? c = some ch) {e : Event} (he : e.IsTraffic)
    (hnew : ∀ p, e ≠ .packetReceived p) : n.Traded (fun _ => []) (dispatch c e n) := by
  obtain ⟨l, rest, hw⟩ := h.wired c ch hch
  refine (trades_law n.may fun _ => True).dispatch h.wired hch hw he hnew (fun _ _ _ => trivial) ?_
    fun _ _ hp => hp
  exact fun n' hn' => (hn' fun _ _ hp => hp).permits h

theorem heard (hch : n.channel? c = some ch) (p : Packet) : n.Traded (on c [p]) (n.heard c p) := by
  obtain ⟨l, rest, hw⟩ := h.wired c ch hch
  rw [heard_eq hch hw]
  refine .modify hch ?_ (n.registry_note c _ _) (arrivals_note_received hch p) rfl fun _ => ?_
  · unfold note
    split <;> rfl
  · exact ⟨[], .setLedger hw rfl rfl (List.Sublist.refl _)⟩

/-- A packet that arrives is dispatched, and what comes of it is traffic. -/
theorem dispatch_packetReceived (hch : n.channel? c = some ch) (p : Packet) :
    n.Traded (on c [p]) (Courier.dispatch c (.packetReceived p) n) := by
  have hheard := h.heard hch p
  have hmay : ∀ c' q, n.may c' q → (n.heard c p).identity? c' ≠ none := by
    intro c' q hq
    rw [hheard.identity]
    exact hq
  obtain ⟨-, htrades⟩ := (trades_law n.may fun _ => True).dispatch_packetReceived h.wired hch p
    fun n' hn' => (hheard.trans (hn' hmay)).permits h
  have hboth := hheard.trans (htrades hmay)
  have hsame : (fun c' => on c [p] c' ++ []) = on c [p] := funext fun c' => List.append_nil _
  rw [hsame] at hboth
  exact hboth

/-- A SEND frame arrives whole on a channel that is open after it. -/
theorem receivePackets (hch : n.channel? c = some ch) (ps : List Packet)
    (hopen : (receivePackets c ps n).OpenAt c) : n.Traded (on c ps) (receivePackets c ps n) := by
  induction ps generalizing n ch with
  | nil =>
    rw [on_nil]
    exact .quiet (.refl n)
  | cons p ps ih =>
    have hstep : Courier.receivePackets c (p :: ps) n = Courier.receivePackets c ps
        (if n.isClosed c then n else Courier.dispatch c (.packetReceived p) n) := rfl
    rw [hstep] at hopen ⊢
    -- A channel that is open at last was open before this packet.
    have hnot : ¬ n.isClosed c := by
      intro hclosed
      rw [if_pos hclosed] at hopen
      have hbefore := hopen.before (later_rule.telling.receivePackets c ps n)
      exact h.not_isClosed hch (.refl n) hbefore hclosed
    rw [if_neg hnot] at hopen ⊢
    have hfirst := h.dispatch_packetReceived hch p
    have hlater := later_rule.dispatch c (.packetReceived p) n
    obtain ⟨ch', hch', -⟩ := hlater.channel c ch hch
    rw [← List.singleton_append, on_append]
    exact hfirst.trans (ih (h.next hfirst hlater) hch' hopen)

end Ready
end Node
end Courier
