import Courier.Proofs.Node.Pipelines
import Courier.Proofs.Outbound

/-! # Writing, sending and failing on a wired channel

What each way of writing leaves behind, up to what reactors report (`Quiet`): frames are queued on a
channel that is open and has a writer (`apply_writeFrame`), and nowhere else
(`apply_writeFrame_of_not_live`); packets that are sent are queued and counted
(`apply_sendPackets`); a fault closes the channel (`raiseWith_spec`).
-/
set_option autoImplicit false

namespace Courier

open Courier.Wire Courier.Wire.Frame Courier.Routing

variable {σ : Type}

/-! ## Ledgers -/

namespace Ledger

theorem unacknowledged_flush (l : Ledger) : l.flush.1.unacknowledged = l.unacknowledged := by
  unfold flush
  split <;> rfl

theorem unacknowledged_foldl_recordSent (ps : List Packet) (l : Ledger) :
    (ps.foldl recordSent l).unacknowledged = l.unacknowledged ++ ps := by
  induction ps generalizing l with
  | nil => exact (List.append_nil _).symm
  | cons p ps ih =>
    rw [List.foldl_cons, ih]
    show (l.buffer.push p).toList ++ ps = l.buffer.toList ++ p :: ps
    rw [Backlog.toList_push, List.append_assoc]
    rfl

theorem isEmpty_buffer (l : Ledger) : l.buffer.isEmpty = l.unacknowledged.isEmpty :=
  l.buffer.isEmpty_toList.symm

theorem isEmpty_buffer_of_ne {l : Ledger} (h : l.unacknowledged ≠ []) :
    l.buffer.isEmpty = false := by
  rw [isEmpty_buffer]
  simpa using h

theorem unacknowledged_ne_nil {l : Ledger} (h : l.buffer.isEmpty = false) :
    l.unacknowledged ≠ [] := by
  intro hnil
  have hempty := l.buffer.isEmpty_toList
  change l.buffer.toList = [] at hnil
  rw [h, hnil] at hempty
  cases hempty

theorem transmitted_recordSent (l : Ledger) (p : Packet) :
    (l.recordSent p).transmitted = l.transmitted + 1 := by
  show l.sent + 1 + l.retransmitted = l.sent + l.retransmitted + 1
  rw [UInt32.add_assoc, UInt32.add_comm 1, ← UInt32.add_assoc]

theorem transmitted_foldl_recordSent (ps : List Packet) (l : Ledger) :
    (ps.foldl recordSent l).transmitted = l.transmitted + .ofNat ps.length := by
  induction ps generalizing l with
  | nil => exact (UInt32.add_zero _).symm
  | cons p ps ih =>
    rw [List.foldl_cons, ih, transmitted_recordSent, UInt32.add_assoc, List.length_cons,
      Nat.add_comm, UInt32.ofNat_add]
    rfl

theorem sent_foldl_recordSent (ps : List Packet) (l : Ledger) :
    (ps.foldl recordSent l).sent = l.sent + .ofNat ps.length := by
  induction ps generalizing l with
  | nil => exact (UInt32.add_zero _).symm
  | cons p ps ih =>
    rw [List.foldl_cons, ih, recordSent, UInt32.add_assoc, List.length_cons, Nat.add_comm,
      UInt32.ofNat_add]
    rfl

theorem received_foldl_recordSent (ps : List Packet) (l : Ledger) :
    (ps.foldl recordSent l).received = l.received := by
  induction ps generalizing l with
  | nil => rfl
  | cons p ps ih => exact ih (l.recordSent p)

theorem transmitted_flush (l : Ledger) (h : l.buffer.isEmpty = false) :
    l.flush.1.transmitted = l.transmitted + .ofNat l.unacknowledged.length := by
  have hflush : l.flush.1 =
      { l with retransmitted := l.retransmitted + UInt32.ofNat l.buffer.size } := by
    rw [flush, if_neg (by simp [h])]
  rw [hflush, unacknowledged, Backlog.length_toList]
  show l.sent + (l.retransmitted + _) = l.sent + l.retransmitted + _
  rw [UInt32.add_assoc]

theorem received_flush (l : Ledger) : l.flush.1.received = l.received := by
  unfold flush
  split <;> rfl

end Ledger

/-! ## Reports -/

/-- The packet that the event log reports as received on a channel, if it reports one. -/
def Notice.arrival? (c : ChannelId) (x : Notice) : Option Packet :=
  match x.reporter, x.signal with
  | .eventLog, .event (.packetReceived p) => if x.channel = c then some p else none
  | _, _ => none

/-- The packets that were dispatched as received on a channel, in order. -/
def Node.arrivals (n : Node σ) (c : ChannelId) : List Packet :=
  n.notices.toList.filterMap (Notice.arrival? c)

/-- The second differs from the first only in reports, and no packet is reported as received. -/
structure Quiet (n n' : Node σ) : Prop where
  channels : n'.channels = n.channels
  registry : n'.registry = n.registry
  policy : n'.policy = n.policy
  arrivals : ∀ c, n'.arrivals c = n.arrivals c

namespace Quiet

theorem refl (n : Node σ) : Quiet n n := ⟨rfl, rfl, rfl, fun _ => rfl⟩

theorem trans {n n' n'' : Node σ} (h : Quiet n n') (h' : Quiet n' n'') : Quiet n n'' :=
  ⟨h'.channels.trans h.channels, h'.registry.trans h.registry, h'.policy.trans h.policy,
    fun c => (h'.arrivals c).trans (h.arrivals c)⟩

theorem channel? {n n' : Node σ} (h : Quiet n n') (c : ChannelId) :
    n'.channel? c = n.channel? c := by
  rw [Node.channel?, h.channels]
  rfl

theorem modify {n n' : Node σ} (h : Quiet n n') (c : ChannelId) (f : Channel σ → Channel σ) :
    Quiet (n.modify c f) (n'.modify c f) := by
  refine ⟨?_, h.registry, h.policy, h.arrivals⟩
  show n'.channels.modify c.index f = n.channels.modify c.index f
  rw [h.channels]

end Quiet

theorem arrivals_note (n : Node σ) (c c' : ChannelId) (r : Reporter) (s : Signal) (ch : Channel σ)
    (h : n.channel? c = some ch) : (n.note c r s).arrivals c' =
      n.arrivals c' ++ (Notice.arrival? c' ⟨r, c, ch.session.role, s⟩).toList := by
  rw [Node.note, h]
  simp only [Node.arrivals, Backlog.toList_push, List.filterMap_append, List.filterMap_cons,
    List.filterMap_nil]
  congr 1

/-- A report of something else than a received packet. -/
theorem quiet_note (n : Node σ) (c : ChannelId) (r : Reporter) (s : Signal)
    (h : ∀ p, r = .eventLog → s ≠ .event (.packetReceived p)) : Quiet n (n.note c r s) := by
  refine ⟨?_, n.registry_note c r s, n.policy_note c r s, ?_⟩
  · unfold Node.note
    split <;> rfl
  · intro c'
    cases hch : n.channel? c with
    | none =>
      rw [Node.note, hch]
    | some ch =>
      have hnone : Notice.arrival? c' ⟨r, c, ch.session.role, s⟩ = none := by
        unfold Notice.arrival?
        split
        · rename_i p hr hs
          exact absurd hs (h p hr)
        · rfl
      rw [arrivals_note n c c' r s ch hch, hnone]
      exact List.append_nil _

theorem quiet_note_event (n : Node σ) (c : ChannelId) {e : Event}
    (hnew : ∀ p, e ≠ .packetReceived p) : Quiet n (n.note c .eventLog (.event e)) := by
  apply quiet_note
  intro p _ hs
  cases hs
  exact hnew p rfl

/-- A received packet is reported on its channel and nowhere else. -/
theorem arrivals_note_received {n : Node σ} {c : ChannelId} {ch : Channel σ}
    (h : n.channel? c = some ch) (p : Packet) (c' : ChannelId) :
    (n.note c .eventLog (.event (.packetReceived p))).arrivals c' =
      n.arrivals c' ++ if c' = c then [p] else [] := by
  rw [arrivals_note n c c' _ _ ch h]
  congr 1
  show (if c = c' then some p else none).toList = _
  by_cases hc : c' = c
  · rw [if_pos hc, if_pos hc.symm]
    rfl
  · rw [if_neg hc, if_neg fun heq => hc heq.symm]
    rfl

/-! ## Writing -/

namespace Channel

structure Live (ch : Channel σ) : Prop where
  isOpen : ch.session.isClosed = false
  writer : ch.hasWriter = true

instance (ch : Channel σ) : Decidable ch.Live :=
  decidable_of_iff (ch.session.isClosed = false ∧ ch.hasWriter = true)
    ⟨fun h => ⟨h.1, h.2⟩, fun h => ⟨h.1, h.2⟩⟩

/-- The channel with the bytes of these frames queued. -/
def say (ch : Channel σ) (fs : List Frame) : Channel σ :=
  { ch with queue := ch.queue.push (.bytes (layouts fs)) }

theorem Live.say {ch : Channel σ} (h : ch.Live) (fs : List Frame) : (ch.say fs).Live :=
  ⟨h.isOpen, h.writer⟩

theorem Live.setLedger {ch : Channel σ} (h : ch.Live) (l : Ledger) : (ch.setLedger l).Live :=
  ⟨h.isOpen, h.writer⟩

theorem Wired.say {ch : Channel σ} {l : Ledger} {rest : List (Reactor σ)} (h : ch.Wired l rest)
    (fs : List Frame) : (ch.say fs).Wired l rest := ⟨h.reactors, h.plain⟩

theorem Wired.setLedger_self {ch : Channel σ} {l : Ledger} {rest : List (Reactor σ)}
    (h : ch.Wired l rest) : ch.setLedger l = ch := by
  have hset : ch.reactors.set 2 (.reliableDelivery l) = ch.reactors := by
    rw [h.reactors]
    rfl
  rw [Channel.setLedger, hset]

end Channel

variable {c : ChannelId} {ch : Channel σ} {l : Ledger} {rest : List (Reactor σ)} {n : Node σ}

theorem apply_enqueue_of_live (hch : n.channel? c = some ch) (hlive : ch.Live) (b : ByteArray) :
    (enqueue c b).apply n =
      (.ok (), n.modify c fun _ => { ch with queue := ch.queue.push (.bytes b) }) := by
  have henqueue : ch.enqueue c b = .ok { ch with queue := ch.queue.push (.bytes b) } := by
    rw [Channel.enqueue, if_neg (by simp [hlive.isOpen]), if_pos hlive.writer, Channel.push,
      if_pos hlive.writer]
  rw [apply_enqueue, hch]
  simp only [henqueue]

theorem not_live_of_channel? (hch : n.channel? c = some ch) (h : ¬ ch.Live) :
    ∀ ch, n.channel? c = some ch → ¬ ch.Live := by
  intro ch₀ hch₀
  rw [hch] at hch₀
  cases hch₀
  exact h

/-- Nothing is queued on a channel that is not there, is closed or has no writer. -/
theorem apply_enqueue_of_not_live (h : ∀ ch, n.channel? c = some ch → ¬ ch.Live) (b : ByteArray) :
    ∃ f, (enqueue c b).apply n = (.error f, n) := by
  rw [apply_enqueue]
  cases hch : n.channel? c with
  | none => exact ⟨_, rfl⟩
  | some ch =>
    simp only []
    cases he : ch.enqueue c b with
    | error e => exact ⟨_, rfl⟩
    | ok ch' =>
      obtain ⟨hopen, hwriter, -⟩ := Channel.enqueue_eq_ok he
      exact absurd ⟨hopen, hwriter⟩ (h ch hch)

theorem encode_of_regular {f : Frame} (h : f.Regular) : f.encode = .ok (layouts [f]) := by
  rw [layouts_singleton]
  exact encode_eq_ok_iff.2 ⟨h.fits, rfl⟩

theorem regular_singleton {f : Frame} (h : f.Regular) : ∀ g ∈ [f], g.Regular := by
  intro g hg
  rw [List.mem_singleton.1 hg]
  exact h

theorem apply_writeFrame (hch : n.channel? c = some ch) (hlive : ch.Live) {f : Frame}
    (hf : f.Regular) : (writeFrame c f).apply n = (.ok (), n.modify c fun _ => ch.say [f]) := by
  rw [writeFrame, encode_of_regular hf]
  exact apply_enqueue_of_live hch hlive _

theorem apply_writeFrame_of_not_live (h : ∀ ch, n.channel? c = some ch → ¬ ch.Live) {f : Frame}
    (hf : f.Regular) : ∃ e, (writeFrame c f).apply n = (.error e, n) := by
  rw [writeFrame, encode_of_regular hf]
  exact apply_enqueue_of_not_live h _

theorem writePackets_nil : (writePackets c [] : Action σ Unit) = pure () := by
  rw [writePackets, sendFrames_eq, sends_nil]
  rfl

theorem writePackets_eq {ps : List Packet} (h : ps ≠ []) :
    (writePackets c ps : Action σ Unit) = enqueue c (layouts (sends ps)) := by
  have hpos : 0 < (layouts (sends ps)).size := by
    have hlength := length_le_size_layouts (sends ps)
    have hne := List.length_pos_iff.2 (sends_ne_nil h)
    omega
  have hfull : (layouts (sends ps)).isEmpty = false := by
    rw [ByteArray.isEmpty]
    simp only [beq_eq_false_iff_ne]
    omega
  rw [writePackets, sendFrames_eq]
  simp only [hfull, if_false, Bool.false_eq_true]

/-! ## Sending -/

/-- Behind the front, a packet that is sent is only reported. -/
theorem reactAll_packetSent {k : Reentry σ} (p : Packet) (rest : List (Reactor σ))
    (h : ∀ r ∈ rest, r.Plain) (i : Nat) (n : Node σ) : ∃ n', Quiet n n' ∧
      (reactAll k c (.packetSent p) i rest).apply n = (.ok (), n') := by
  refine reactAll_ok Quiet.refl Quiet.trans rest (fun r hr i n => ?_) i n
  have hplain := h r hr
  cases r with
  | eventLog | detachOnException | reliableDelivery | probe => exact hplain.elim
  | packetObserver =>
    refine ⟨_, quiet_note n c .packetObserver (.event (.packetSent p)) ?_, rfl⟩
    exact fun _ hr => nomatch hr
  | _ => exact ⟨n, .refl n, rfl⟩

/-- Telling that a packet was sent counts it. -/
theorem dispatchWith_packetSent {k : Reentry σ} (hk : k.Moves Node.Later)
    (hch : n.channel? c = some ch) (hw : ch.Wired l rest) (p : Packet) :
    Quiet (n.modify c fun _ => ch.setLedger (l.recordSent p))
      (dispatchWith k c (.packetSent p) n) := by
  have hnote := quiet_note_event n c (e := .packetSent p) fun _ h => nomatch h
  obtain ⟨n', hquiet, happly⟩ := reactAll_packetSent (k := k) (c := c) p rest hw.plain 3
    ((n.note c .eventLog (.event (.packetSent p))).setReactor c 2
      (.reliableDelivery (l.recordSent p)))
  have hnoted := (n.channel?_note c c .eventLog (.event (.packetSent p))).trans hch
  have hrun : (reaction k c (.packetSent p) l rest).apply
      (n.note c .eventLog (.event (.packetSent p))) = (.ok (), n') := happly
  rw [dispatchWith_eq hk ⟨ch, hch, hw⟩, settled, hrun]
  rw [Node.setReactor_eq hnoted] at hquiet
  exact (hnote.modify c _).trans hquiet

/-- Telling of each packet that was sent counts them all. -/
theorem foldl_packetSent {k : Reentry σ} (hk : k.Moves Node.Later) (ps : List Packet)
    (hch : n.channel? c = some ch) (hw : ch.Wired l rest) :
    Quiet (n.modify c fun _ => ch.setLedger (ps.foldl Ledger.recordSent l))
      (ps.foldl (fun n p => dispatchWith k c (.packetSent p) n) n) := by
  induction ps generalizing n ch l with
  | nil =>
    rw [List.foldl_nil, List.foldl_nil, hw.setLedger_self, Node.modify_const_self n c hch]
    exact .refl n
  | cons p ps ih =>
    have hfirst := dispatchWith_packetSent hk hch hw p
    have hch' : (dispatchWith k c (.packetSent p) n).channel? c =
        some (ch.setLedger (l.recordSent p)) := by
      rw [hfirst.channel?]
      exact Node.channel?_modify_of_some hch _
    have hrest := ih hch' (hw.setLedger _)
    have htwice : (ch.setLedger (l.recordSent p)).setLedger
        (ps.foldl Ledger.recordSent (l.recordSent p)) =
        ch.setLedger (ps.foldl Ledger.recordSent (l.recordSent p)) := by
      simp only [Channel.setLedger, List.set_set]
    rw [htwice] at hrest
    have hmoved := hfirst.modify c fun _ =>
      ch.setLedger (ps.foldl Ledger.recordSent (l.recordSent p))
    rw [Node.modify_modify] at hmoved
    exact hmoved.trans hrest

theorem sendPackets_nil : (sendPackets c [] : Action σ Unit).apply n = (.ok (), n) := by
  rw [sendPackets, sendPacketsWith, writePackets_nil]
  rfl

/-- Packets that are sent on a live channel are queued and counted. -/
theorem apply_sendPackets (hch : n.channel? c = some ch) (hw : ch.Wired l rest) (hlive : ch.Live)
    {ps : List Packet} (hps : ps ≠ []) : ∃ n', (sendPackets c ps).apply n = (.ok (), n') ∧
      Quiet (n.modify c fun _ =>
        (ch.say (sends ps)).setLedger (ps.foldl Ledger.recordSent l)) n' := by
  have hwrite := apply_enqueue_of_live hch hlive (layouts (sends ps))
  have hsaid := Node.channel?_modify_of_some hch fun _ => ch.say (sends ps)
  have hcount := foldl_packetSent later_rule.quiet ps hsaid (hw.say _)
  rw [Node.modify_modify] at hcount
  refine ⟨_, ?_, hcount⟩
  rw [sendPackets, sendPacketsWith, writePackets_eq hps, Action.apply_bind_ok hwrite]
  rfl

theorem apply_sendPackets_of_not_live (h : ∀ ch, n.channel? c = some ch → ¬ ch.Live)
    {ps : List Packet} (hps : ps ≠ []) : ∃ f, (sendPackets c ps).apply n = (.error f, n) := by
  obtain ⟨f, hf⟩ := apply_enqueue_of_not_live h (layouts (sends ps))
  refine ⟨f, ?_⟩
  rw [sendPackets, sendPacketsWith, writePackets_eq hps, Action.apply_bind_error hf]

/-! ## Offering a packet -/

/-- A live channel takes the packet that it is offered. -/
theorem offerPacket_of_wired (hch : n.channel? c = some ch) (hw : ch.Wired l rest)
    (hlive : ch.Live) (p : Packet) : ∃ n', offerPacket .full p n c = (true, n') ∧
      Quiet (n.modify c fun _ => (ch.say (sends [p])).setLedger (l.recordSent p)) n' := by
  obtain ⟨n', happly, hquiet⟩ := apply_sendPackets hch hw hlive (List.cons_ne_nil p [])
  change (sendPacketsWith .full c [p]).apply n = _ at happly
  exact ⟨n', by rw [offerPacket, happly], hquiet⟩

/-- Any other does not take it, and is detached from its recipient. -/
theorem offerPacket_of_not_live (h : ∀ ch, n.channel? c = some ch → ¬ ch.Live) (p : Packet) :
    ∃ f, (writePackets c [p]).apply n = (.error f, n) ∧ offerPacket .full p n c =
      (false, raise c f { n with registry := n.registry.detach p.recipient c }) := by
  obtain ⟨f, hwrite⟩ := apply_enqueue_of_not_live h (layouts (sends [p]))
  rw [← writePackets_eq (List.cons_ne_nil p [])] at hwrite
  refine ⟨f, hwrite, ?_⟩
  rw [offerPacket, sendPacketsWith, Action.apply_bind_error hwrite]
  rfl

/-! ## Identities and mailboxes -/

section mailbox

variable {a : Address}

theorem apply_identityOf (hch : n.channel? c = some ch) (ha : ch.session.identity = some a) :
    (identityOf c : Action σ Address).apply n = (.ok a, n) := by
  rw [identityOf, apply_onChannel, hch]
  simp only [ha, Node.modify_const_self n c hch]

theorem apply_identityOf_eq_ok {n' : Node σ}
    (h : (identityOf c : Action σ Address).apply n = (.ok a, n')) :
    n' = n ∧ n.identity? c = some a := by
  rw [identityOf, apply_onChannel] at h
  cases hch : n.channel? c with
  | none =>
    rw [hch] at h
    cases h
  | some ch =>
    simp only [hch] at h
    cases hidentity : ch.session.identity with
    | none =>
      simp only [hidentity] at h
      cases h
    | some a' =>
      simp only [hidentity, Node.modify_const_self n c hch] at h
      cases h
      exact ⟨rfl, (identity?_eq hch).trans hidentity⟩

theorem attachRoute_of_identity (h : n.identity? c = some a) :
    attachRoute c n = { n with registry := n.registry.attach a c } := by
  have hidentity : (n.channel? c).bind (·.session.identity) = some a := h
  rw [attachRoute, hidentity]

theorem attachRoute_of_stranger (h : n.identity? c = none) : attachRoute c n = n := by
  have hidentity : (n.channel? c).bind (·.session.identity) = none := h
  rw [attachRoute, hidentity]

theorem apply_identityOf_of_stranger (hch : n.channel? c = some ch)
    (h : ch.session.identity = none) :
    (identityOf c : Action σ Address).apply n = (.error .notIdentified, n) := by
  rw [identityOf, apply_onChannel, hch]
  simp only [h]

theorem apply_flushMailbox_of_stranger (h : n.identity? c = none) (k : Reentry σ) :
    ∃ f, (flushMailbox k c).apply n = (.error f, n) := by
  have hidentity : ∃ f, (identityOf c : Action σ Address).apply n = (.error f, n) := by
    cases hch : n.channel? c with
    | none =>
      rw [identityOf, apply_onChannel, hch]
      exact ⟨_, rfl⟩
    | some ch => exact ⟨_, apply_identityOf_of_stranger hch ((identity?_eq hch).symm.trans h)⟩
  obtain ⟨f, hf⟩ := hidentity
  exact ⟨f, by rw [flushMailbox, Action.apply_bind_error hf]⟩

variable (hch : n.channel? c = some ch) (ha : ch.session.identity = some a)

include hch ha

theorem apply_flushMailbox_of_empty (hnone : n.registry.waiting a = []) :
    (flushMailbox .full c).apply n =
      (.ok (), { n with registry := (n.registry.takeAll a).2 }) := by
  have hempty : (n.registry.takeAll a).1.isEmpty = true := List.isEmpty_iff.2 hnone
  rw [flushMailbox, Action.apply_bind_ok (apply_identityOf hch ha)]
  simp only [Action.apply_get_bind, Action.apply_set_bind, hempty, if_true]
  rfl

/-- A live channel sends what waits for its identity, and then asks for an acknowledgment. -/
theorem apply_flushMailbox_of_live (hw : ch.Wired l rest) (hlive : ch.Live)
    (hsome : n.registry.waiting a ≠ []) : ∃ m,
      (sendPackets c (n.registry.waiting a)).apply
        { n with registry := (n.registry.takeAll a).2 } = (.ok (), m) ∧
      Quiet ({ n with registry := (n.registry.takeAll a).2 }.modify c fun _ =>
        (ch.say (sends (n.registry.waiting a))).setLedger
          ((n.registry.waiting a).foldl Ledger.recordSent l)) m ∧
      (flushMailbox .full c).apply n = (writeFrame c .requestAcknowledgment).apply m := by
  have hnot : ¬ (n.registry.takeAll a).1.isEmpty = true := fun h => hsome (List.isEmpty_iff.1 h)
  obtain ⟨m, happly, hquiet⟩ := apply_sendPackets
    (n := { n with registry := (n.registry.takeAll a).2 }) hch hw hlive hsome
  refine ⟨m, happly, hquiet, ?_⟩
  change (sendPacketsWith .full c (n.registry.takeAll a).1).apply _ = _ at happly
  rw [flushMailbox, Action.apply_bind_ok (apply_identityOf hch ha)]
  simp only [Action.apply_get_bind, Action.apply_set_bind, hnot, if_false, Bool.false_eq_true,
    happly]

/-- Any other channel sends nothing, and the mailbox is put back. -/
theorem apply_flushMailbox_of_not_live (hnot : ¬ ch.Live) (hsome : n.registry.waiting a ≠ []) :
    ∃ f, (flushMailbox .full c).apply n = (.error f,
      { n with registry := (n.registry.takeAll a).2.requeue a (n.registry.takeAll a).1 }) := by
  have hfull : ¬ (n.registry.takeAll a).1.isEmpty = true := fun h => hsome (List.isEmpty_iff.1 h)
  obtain ⟨f, happly⟩ := apply_sendPackets_of_not_live
    (n := { n with registry := (n.registry.takeAll a).2 }) (not_live_of_channel? hch hnot) hsome
  refine ⟨f, ?_⟩
  change (sendPacketsWith .full c (n.registry.takeAll a).1).apply _ = _ at happly
  rw [flushMailbox, Action.apply_bind_ok (apply_identityOf hch ha)]
  simp only [Action.apply_get_bind, Action.apply_set_bind, hfull, if_false, Bool.false_eq_true,
    happly]
  rfl

end mailbox

/-! ## Closing -/

namespace Channel

theorem push_of_no_writer (h : ch.hasWriter = false) (item : Outbound) : ch.push item = ch := by
  rw [push, h]
  rfl

/-- The items of a channel that shuts while it is open. -/
theorem queue_shut (hopen : ch.session.isClosed = false) (hwriter : ch.hasWriter = true)
    (sayGoodbye : Bool) : (ch.shut sayGoodbye).queue.toList =
      ch.queue.toList ++ ((if sayGoodbye then [goodbye] else []) ++ [.close]) := by
  have hlive : (ch.setSession ch.session.close).hasWriter = true := hwriter
  rw [shut_eq, if_neg (by simp [hopen])]
  cases sayGoodbye with
  | false =>
    simp only [Bool.false_eq_true, if_false, List.nil_append, push, hlive, if_true,
      Backlog.toList_push]
    rfl
  | true =>
    simp only [if_true, push, hlive, Backlog.toList_push, List.append_assoc]
    rfl

theorem queue_shut_of_not_live (goodbye : Bool) (h : ¬ ch.Live) :
    (ch.shut goodbye).queue = ch.queue := by
  by_cases hclosed : ch.session.isClosed = true
  · rw [shut_of_closed goodbye hclosed]
  · have hopen : ch.session.isClosed = false := by simpa using hclosed
    have hwriter : ch.hasWriter = false := Bool.eq_false_iff.2 fun hw => h ⟨hopen, hw⟩
    have hpush : ∀ item, (ch.setSession ch.session.close).push item =
        ch.setSession ch.session.close := push_of_no_writer hwriter
    rw [shut_eq, if_neg hclosed]
    cases goodbye with
    | false =>
      show ((ch.setSession ch.session.close).push .close).queue = _
      rw [hpush]
      rfl
    | true =>
      show (((ch.setSession ch.session.close).push Channel.goodbye).push .close).queue = _
      rw [hpush, hpush]
      rfl

end Channel

/-- A frame without packets that acknowledges nothing. -/
def Wire.Frame.Bare (f : Frame) : Prop := f.packets = [] ∧ ∀ count, f ≠ .acknowledge count

/-- What a channel says last: nothing, a goodbye, or a goodbye behind a refusal. -/
inductive Parting : List Frame → Prop where
  | silent : Parting []
  | goodbye : Parting [.detach]
  | refusal {f : Fault} {frame : Frame} (h : refusal? f = some frame) : Parting [frame, .detach]

theorem refusal?_eq_some {f : Fault} {frame : Frame} (h : refusal? f = some frame) :
    frame = .session none ∨ frame = .identify none := by
  cases f with
  | unknownAddress => exact .inl (Option.some.inj h).symm
  | invalidCredential => exact .inr (Option.some.inj h).symm
  | _ => cases h

/-- A refusal is a bare frame that can be written. -/
theorem refusal?_spec {f : Fault} {frame : Frame} (h : refusal? f = some frame) :
    frame.Bare ∧ frame.Regular := by
  obtain rfl | rfl := refusal?_eq_some h
  · exact ⟨⟨rfl, fun count hc => nomatch hc⟩, regular_session none⟩
  · exact ⟨⟨rfl, fun count hc => nomatch hc⟩, regular_identify none⟩

theorem Parting.bare {fs : List Frame} (h : Parting fs) : ∀ f ∈ fs, f.Bare := by
  have hdetach : Frame.detach.Bare := ⟨rfl, fun count hc => nomatch hc⟩
  intro f hf
  cases h with
  | silent => cases hf
  | goodbye =>
    rw [List.mem_singleton.1 hf]
    exact hdetach
  | refusal h =>
    obtain rfl | hf := List.mem_cons.1 hf
    · exact (refusal?_spec h).1
    · rw [List.mem_singleton.1 hf]
      exact hdetach

/-- What becomes of a channel that ends: the session closes behind a last word, and on a channel
that is closed or that nobody writes for nothing is queued. -/
structure Channel.Over (ch ch' : Channel σ) : Prop where
  reactors : ch'.reactors = ch.reactors
  session : ch'.session = ch.session.close
  finished : ch'.finished = ch.finished
  queue : ∃ items, ch'.queue.toList = ch.queue.toList ++ items ∧ Parting (framesOf items) ∧
    (¬ ch.Live → items = [])

theorem Channel.over_shut (ch : Channel σ) (goodbye : Bool) : ch.Over (ch.shut goodbye) := by
  refine ⟨ch.reactors_shut goodbye, ch.session_shut goodbye, ch.finished_shut goodbye, ?_⟩
  by_cases hlive : ch.Live
  · refine ⟨_, queue_shut hlive.isOpen hlive.writer goodbye, ?_, fun hnot => absurd hlive hnot⟩
    cases goodbye with
    | false => exact .silent
    | true => exact .goodbye
  · refine ⟨[], ?_, .silent, fun _ => rfl⟩
    rw [queue_shut_of_not_live goodbye hlive, List.append_nil]

/-! ## Failing -/

/-- The channel when it has told its peer of a refusal, if the fault is one, and closed. -/
def Channel.refused (ch : Channel σ) (f : Fault) : Channel σ :=
  match refusal? f with
  | some frame => (if ch.Live then ch.say [frame] else ch).detach
  | none => ch.detach

/-- The channel after a fault. -/
def Channel.failed (ch : Channel σ) (f : Fault) : Channel σ := (ch.remember f).refused f

/-- A refused channel is one that shuts. -/
theorem Channel.refused_eq_detach (ch : Channel σ) (f : Fault) :
    ∃ ch₁ : Channel σ, ch.refused f = ch₁.detach ∧ ch₁.published = ch.published ∧
      ch₁.session = ch.session ∧ ch₁.fault = ch.fault := by
  unfold refused
  cases refusal? f with
  | none => exact ⟨ch, rfl, rfl, rfl, rfl⟩
  | some frame =>
    refine ⟨_, rfl, ?_⟩
    split
    · exact ⟨rfl, rfl, rfl⟩
    · exact ⟨rfl, rfl, rfl⟩

theorem Channel.fault_failed (ch : Channel σ) (f : Fault) :
    (ch.failed f).fault = ch.fault.or (some f) := by
  obtain ⟨ch₁, heq, -, -, hfault⟩ := (ch.remember f).refused_eq_detach f
  rw [failed, heq, detach, fault_shut, hfault]
  rfl

theorem Channel.queue_refused (hlive : ch.Live) (f : Fault) : (ch.refused f).queue.toList =
    ch.queue.toList ++ ((refusal? f).toList.map (fun frame => .bytes (layouts [frame])) ++
      [goodbye, .close]) := by
  unfold refused
  cases refusal? f with
  | none => exact queue_shut hlive.isOpen hlive.writer true
  | some frame =>
    simp only [hlive, if_true]
    rw [detach, queue_shut (hlive.say _).isOpen (hlive.say _).writer true, say,
      Backlog.toList_push, List.append_assoc]
    rfl

theorem Channel.frames_refused (hlive : ch.Live) (f : Fault) :
    framesOf (ch.refused f).queue.toList =
      framesOf ch.queue.toList ++ ((refusal? f).toList ++ [.detach]) := by
  rw [queue_refused hlive, framesOf_append, framesOf_append]
  congr 2
  cases hrefusal : refusal? f with
  | none => rfl
  | some frame => exact framesOf_layouts (regular_singleton (refusal?_spec hrefusal).2)

theorem Channel.over_refused (ch : Channel σ) (f : Fault) : ch.Over (ch.refused f) := by
  cases hrefusal : refusal? f with
  | none =>
    rw [refused, hrefusal]
    exact ch.over_shut true
  | some frame =>
    by_cases hlive : ch.Live
    · obtain ⟨hreactors, hsession, hfinished, -⟩ := (ch.say [frame]).over_shut true
      have hqueue := queue_refused hlive f
      have hframes : framesOf (.bytes (layouts [frame]) :: [goodbye, .close]) = [frame, .detach] := by
        rw [← List.singleton_append, framesOf_append,
          framesOf_layouts (regular_singleton (refusal?_spec hrefusal).2)]
        rfl
      rw [hrefusal] at hqueue
      rw [refused, hrefusal] at hqueue ⊢
      simp only [hlive, if_true] at hqueue ⊢
      refine ⟨hreactors, hsession, hfinished, _, hqueue, ?_, fun hnot => absurd hlive hnot⟩
      show Parting (framesOf (.bytes (layouts [frame]) :: [goodbye, .close]))
      rw [hframes]
      exact .refusal hrefusal
    · rw [refused, hrefusal]
      simp only [hlive, if_false]
      exact ch.over_shut true

theorem Channel.over_failed (ch : Channel σ) (f : Fault) : ch.Over (ch.failed f) := by
  obtain ⟨hreactors, hsession, hfinished, items, hqueue, hparting, hdead⟩ :=
    (ch.remember f).over_refused f
  exact ⟨hreactors, hsession, hfinished, items, hqueue, hparting,
    fun hnot => hdead fun hlive => hnot ⟨hlive.isOpen, hlive.writer⟩⟩

/-- A fault that refuses nobody closes the channel with a goodbye, if anything can be queued. -/
theorem Channel.queue_failed {f : Fault} (hf : ch.Live → refusal? f = none) : ∃ last,
    (last = [] ∨ last = [goodbye, .close]) ∧
      (ch.failed f).queue.toList = ch.queue.toList ++ last ∧ (¬ ch.Live → last = []) := by
  by_cases hlive : ch.Live
  · have hremembered : (ch.remember f).Live := ⟨hlive.isOpen, hlive.writer⟩
    have hqueue := queue_refused hremembered f
    rw [hf hlive] at hqueue
    exact ⟨_, .inr rfl, hqueue, fun hnot => absurd hlive hnot⟩
  · obtain ⟨-, -, -, items, hqueue, -, hdead⟩ := ch.over_failed f
    rw [hdead hlive] at hqueue
    exact ⟨[], .inl rfl, hqueue, fun _ => rfl⟩

theorem refuse_eq (hch : n.channel? c = some ch) (f : Fault) :
    refuse c f n = n.modify c fun _ => ch.refused f := by
  cases hrefusal : refusal? f with
  | none =>
    rw [refuse, Channel.refused, hrefusal]
    exact Node.modify_eq_const hch _
  | some frame =>
    obtain ⟨-, hregular⟩ := refusal?_spec hrefusal
    rw [refuse, Channel.refused, hrefusal]
    by_cases hlive : ch.Live
    · have hsaid := Node.channel?_modify_of_some hch fun _ => ch.say [frame]
      simp only [apply_writeFrame hch hlive hregular, hlive, if_true]
      rw [Node.modify_eq_const hsaid, Node.modify_modify]
    · obtain ⟨e, he⟩ := apply_writeFrame_of_not_live (not_live_of_channel? hch hlive) hregular
      simp only [he, hlive, if_false]
      exact Node.modify_eq_const hch _

/-- A fault that is raised on a wired channel makes it fail. -/
theorem raiseWith_failed {k : Reentry σ} (hch : n.channel? c = some ch) (hw : ch.Wired l rest)
    (f : Fault) : Quiet (n.modify c fun _ => ch.failed f) (raiseWith k c f n) := by
  have hremember := Node.channel?_modify_of_some hch (·.remember f)
  have hnote := quiet_note (n.modify c (·.remember f)) c .eventLog (.exception f)
    fun _ _ hs => nomatch hs
  have hmoved := hnote.modify c fun _ => ch.failed f
  rw [Node.modify_modify] at hmoved
  rw [raiseWith_eq ⟨ch, hch, hw⟩, refuse_eq ((hnote.channel? c).trans hremember)]
  exact hmoved

/-- A fault that is raised on a wired channel ends it. -/
theorem raiseWith_spec {k : Reentry σ} (hch : n.channel? c = some ch) (hw : ch.Wired l rest)
    (f : Fault) : ∃ ch', Quiet (n.modify c fun _ => ch') (raiseWith k c f n) ∧ ch.Over ch' :=
  ⟨_, raiseWith_failed hch hw f, ch.over_failed f⟩

/-- A fault that is raised where no channel is does nothing. -/
theorem raiseWith_of_none {k : Reentry σ} (h : n.channel? c = none) (f : Fault) :
    raiseWith k c f n = n := by
  rw [raiseWith, Node.modify_of_none n c _ h, Node.places, h]
  rfl

/-- An event that is told where no channel is does nothing. -/
theorem dispatchWith_of_none {k : Reentry σ} (h : n.channel? c = none) (e : Event) :
    dispatchWith k c e n = n := by
  rw [dispatchWith, Node.places, h]
  rfl

theorem greet_of_none (h : n.channel? c = none) : Connection.greet c n = n := by
  have hopens : (openChannel c).apply n = (.error (.write (.writerGone c)), n) := by
    rw [openChannel, Action.apply_get_bind, h]
    rfl
  rw [Connection.greet, hopens]
  exact raiseWith_of_none h _

end Courier
