import Courier.Proofs.Duplex.Delivering

/-! # Packets are delivered at least once

Whatever a client and a server do, and in whatever order their frames arrive, the count of packets
that one end has transmitted is the count that the other has received and the number that are on
the link, and an acknowledgment that empties a buffer finds that all that was in it has arrived
(`at_least_once`).
-/
set_option autoImplicit false

namespace Courier

open Courier.Wire Courier.Wire.Frame Courier.Routing

variable {σ : Type} {n n' n'' : Node σ} {c : ChannelId} {ch ch' : Channel σ} {d : Duplex σ}

/-! ## Buffers that nothing clears -/

/-- What a channel holds unacknowledged, it holds still. -/
def Node.Holds (c : ChannelId) (n n' : Node σ) : Prop :=
  ∀ ch, n.channel? c = some ch → ∃ ch', n'.channel? c = some ch' ∧
    ch.ledger.unacknowledged <+: ch'.ledger.unacknowledged

theorem Node.holds_of_channels (h : n'.channels = n.channels) : n.Holds c n' := by
  intro ch hch
  refine ⟨ch, ?_, List.prefix_rfl⟩
  rw [Node.channel?, h]
  exact hch

theorem holds_loose (c : ChannelId) :
    Law.Loose (fun _ _ => True) (fun _ => False) (Node.Holds (σ := σ) c) where
  trans := by
    intro n n' n'' h h' ch hch
    obtain ⟨ch', hch', hprefix⟩ := h ch hch
    obtain ⟨ch'', hch'', hprefix'⟩ := h' ch' hch'
    exact ⟨ch'', hch'', hprefix.trans hprefix'⟩
  quiet := fun h => Node.holds_of_channels h.channels
  act := by
    intro n c' ch ch' hch hact
    exact Node.exists_modify
      (Q := fun _ ch ch' => ch.ledger.unacknowledged <+: ch'.ledger.unacknowledged) hch hact.holds
      (fun _ _ _ => List.prefix_rfl) c
  detach := fun _ _ _ => Node.holds_of_channels rfl
  enqueue := fun _ _ => Node.holds_of_channels rfl
  takeAll := fun _ _ => Node.holds_of_channels rfl
  putBack := fun _ _ => Node.holds_of_channels rfl

theorem holds_law (c : ChannelId) :
    Law (fun _ _ => True) (fun _ => False) (Node.Holds (σ := σ) c) := (holds_loose c).law

theorem holds_finish (h : n.AllWired) (c : ChannelId) : n.Holds c (finish c n) := by
  intro ch hch
  obtain ⟨l, rest, hw⟩ := h c ch hch
  by_cases hf : ch.finished = true
  · rw [Node.finish_of_finished hch hf]
    exact ⟨ch, hch, List.prefix_rfl⟩
  · have hover := Channel.over_shut { ch with finished := true } false
    have hw' : ({ ch with finished := true }.close).Wired l rest := hw.of_reactors_eq hover.reactors
    refine ⟨{ ch with finished := true }.close, ?_, hw.prefix_of_eq hw' rfl⟩
    rw [Node.channel?, channels_finish hch hw hf]
    exact Node.channel?_modify_of_some hch _

/-- An acknowledgment of another number than was transmitted clears nothing. -/
theorem holds_acknowledge (h : n.AllWired) (hch : n.channel? c = some ch) {count : UInt32}
    (hcount : count ≠ ch.ledger.transmitted) :
    n.Holds c (deliverFrame c n (.acknowledge count)) := by
  obtain ⟨l, rest, hw⟩ := h c ch hch
  rw [hw.ledger_eq] at hcount
  have hevent : n.Holds c (dispatch c (.acknowledgmentReceived count) n) := by
    refine (holds_law c).dispatch h hch hw trivial (fun _ heq => nomatch heq) ?_ ?_
    · intro count' heq htransmitted
      cases heq
      exact hcount htransmitted
    · exact fun _ _ => ⟨fun _ _ _ => trivial, fun _ _ _ _ => trivial⟩
  have hreceive : (receive c (.acknowledge count) n).2 =
      dispatch c (.acknowledgmentReceived count) n := by
    rw [receive, hch]
    rfl
  have hlater := later_rule.telling.receive c (.acknowledge count) n
  unfold deliverFrame
  split
  · exact Node.holds_of_channels rfl
  · split
    · rename_i n' heq
      rw [heq] at hreceive
      rw [show n' = _ from hreceive]
      exact hevent
    · rename_i n' heq
      rw [heq] at hreceive hlater
      have hfinished := holds_finish (h.later hlater) c
      rw [show n' = _ from hreceive] at hfinished ⊢
      exact (holds_law c).trans hevent hfinished

/-! ## The theorem -/

namespace Duplex

/-- In every state in which both ends are open and have transmitted fewer than 2^32 packets: what
one end has transmitted the other has received, or it is in flight; and if the next frame of an end
is an acknowledgment that empties its buffer, then all that was in the buffer has been dispatched as
received on the other end. -/
theorem at_least_once (policy : σ) (cw : ClientWiring) (sw : ServerWiring σ) (now : Nat)
    (moves : List DuplexMove) (hopen : ((start policy cw sw now).run moves).BothOpen)
    (hfew : ∀ e, (((start policy cw sw now).run moves).sent e).length < 2 ^ 32) (e : End) :
    let d := (start policy cw sw now).run moves
    (d.ledger e).transmitted.toNat =
        (d.ledger e.other).received.toNat + (d.inFlight e).length ∧
      ∀ count, d.next? e = some (.acknowledge count) →
        ((d.move (.deliver e)).ledger e).unacknowledged = [] →
          (d.ledger e).unacknowledged.Sublist (d.arrivals e.other) := by
  obtain ⟨cl, sv, hgood⟩ := good_run policy cw sw now moves hopen
  generalize (start policy cw sw now).run moves = d at hgood hfew ⊢
  obtain ⟨a, b, ha, hb, hbalanced⟩ := hgood.balanced e
  have hsent : (a.spoken.flatMap packets).length < 2 ^ 32 := by
    rw [← spoken_eq ha]
    exact hfew e
  refine ⟨?_, ?_⟩
  · rw [ledger_eq ha, ledger_eq hb, inFlight, spoken_eq ha]
    exact hbalanced.counts hsent
  · intro count hnext hempty
    rw [ledger_eq ha]
    have hmem : .acknowledge count ∈ b.spoken := by
      rw [next?, spoken_eq hb] at hnext
      exact List.mem_of_getElem? hnext
    by_cases hcount : count = a.ledger.transmitted
    · -- Everything that was transmitted has arrived, and the buffer holds nothing else.
      subst hcount
      have hall := hbalanced.all_arrived hsent hmem
      rw [← hall]
      exact hbalanced.held
    · -- Any other acknowledgment clears nothing, so the buffer was empty before.
      have hmove : d.move (.deliver e) =
          ⟨deliverFrame e.channel d.node (.acknowledge count), d.handOver e⟩ := by
        rw [move, hnext]
      obtain ⟨a', ha', hprefix⟩ := holds_acknowledge hgood.ready.wired ha hcount a ha
      have hafter : (d.move (.deliver e)).channel? e = some a' := by
        rw [hmove]
        exact ha'
      rw [ledger_eq hafter] at hempty
      rw [hempty] at hprefix
      rw [List.prefix_nil.1 hprefix]
      exact List.nil_sublist _

/-- A client with the realm of `smallPacket`. -/
def smallClient : ClientWiring :=
  ⟨smallPacket.recipient, ⟨⟨#[99]⟩, by decide, by decide⟩, {}, true⟩

/-- A server that takes every client for the sender of `smallPacket`. -/
def smallServer : ServerWiring Unit :=
  let id : SessionId := ⟨⟨#[100]⟩, by decide, by decide⟩
  ⟨{}, acceptAny, fixedSessionId id, fun _ _ s => (.ok smallPacket.sender, s), false⟩

/-- The handshake and a packet from the client, up to the acknowledgment on its way back. -/
def smallExchange : List DuplexMove :=
  [.greet .client, .greet .server, .deliver .server, .deliver .client, .deliver .server,
    .deliver .client, .send .client [smallPacket], .ask .client, .deliver .server,
    .deliver .server, .deliver .server]

/-- The acknowledgment empties the buffer: it counts the packet, which the server has received. -/
theorem at_least_once_smallExchange :
    let d := (start () smallClient smallServer 0).run smallExchange
    (d.ledger .client).transmitted.toNat =
        (d.ledger .server).received.toNat + (d.inFlight .client).length ∧
      d.next? .client = some (.acknowledge 1) ∧ [smallPacket].Sublist (d.arrivals .server) := by
  have hopen : ((start () smallClient smallServer 0).run smallExchange).BothOpen := by
    decide +kernel
  have hfew : ∀ e, (((start () smallClient smallServer 0).run smallExchange).sent e).length <
      2 ^ 32 := by
    intro e
    cases e <;> decide +kernel
  have h := at_least_once () smallClient smallServer 0 smallExchange hopen hfew .client
  generalize hd : (start () smallClient smallServer 0).run smallExchange = d at h ⊢
  have hnext : d.next? .client = some (.acknowledge 1) := by
    rw [← hd]
    decide +kernel
  have hempty : ((d.move (.deliver .client)).ledger .client).unacknowledged = [] := by
    rw [← hd]
    decide +kernel
  have hheld : (d.ledger .client).unacknowledged = [smallPacket] := by
    rw [← hd]
    decide +kernel
  refine ⟨h.1, hnext, ?_⟩
  rw [← hheld]
  exact h.2 1 hnext hempty

end Duplex
end Courier
