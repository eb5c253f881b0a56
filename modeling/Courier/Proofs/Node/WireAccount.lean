import Courier.Proofs.Node.Answers

/-! # The ledger and the wire

A channel's ledger counts packets apart from the queue that the writer takes them from. Here is an
account of what is said on a channel since its session was created, kept beside both: what is
queued reads as what the account says, and the ledger's counts are the account's
(`ledger_accounts_for_wire`).
-/
set_option autoImplicit false

namespace Courier

open Courier.Wire Courier.Wire.Frame

variable {σ : Type}

/-! ## Reading a queue -/

/-- The frames of all items, if every item reads as frames to its end. -/
def readItems : List Outbound → Option (List Frame)
  | [] => some []
  | .close :: _ => none
  | .bytes b :: rest =>
    match decodeAll b with
    | (fs, none) => (readItems rest).map (fs ++ ·)
    | (_, some _) => none

theorem readItems_append {items more : List Outbound} {fs gs : List Frame}
    (h : readItems items = some fs) (hmore : readItems more = some gs) :
    readItems (items ++ more) = some (fs ++ gs) := by
  induction items generalizing fs with
  | nil =>
    cases h
    exact hmore
  | cons item rest ih =>
    cases item with
    | close => cases h
    | bytes b =>
      rw [readItems] at h
      rw [List.cons_append, readItems]
      cases hdecode : decodeAll b with
      | mk first error =>
        rw [hdecode] at h
        cases error with
        | some e => cases h
        | none =>
          obtain ⟨hs, hrest, rfl⟩ := Option.map_eq_some_iff.1 h
          simp only [ih hrest, Option.map_some, List.append_assoc]

theorem readItems_layouts {fs : List Frame} (h : ∀ f ∈ fs, f.Regular) :
    readItems [.bytes (layouts fs)] = some fs := by
  simp only [readItems, decodeAll_layouts fs fun f hf => (h f hf).sendable, Option.map_some,
    List.append_nil]

/-! ## Packets with a request -/

/-- SEND frames that carry packets, in order, and then one request for an acknowledgment; without
packets there is nothing to ask for. -/
inductive Solicits : List Packet → List Frame → Prop where
  | nothing : Solicits [] []
  | packets {runs : List (List Packet)} (h : runs.flatten ≠ []) :
      Solicits runs.flatten (runs.map .send ++ [.requestAcknowledgment])

theorem solicits_sends {ps : List Packet} (h : ps ≠ []) :
    Solicits ps (sends ps ++ [.requestAcknowledgment]) := by
  have hbatches := flatten_sendBatches ps
  have hsolicits : Solicits (sendBatches ps).flatten (sends ps ++ [.requestAcknowledgment]) :=
    .packets (by rwa [hbatches])
  rw [hbatches] at hsolicits
  exact hsolicits

/-- The second channel is the first with these packets queued and an acknowledgment asked for; the
session and the fault are the same. -/
structure Channel.Solicited (ps : List Packet) (ch ch' : Channel σ) : Prop where
  session : ch'.session = ch.session
  fault : ch'.fault = ch.fault
  queue : ∃ items fs, ch'.queue.toList = ch.queue.toList ++ items ∧ readItems items = some fs ∧
    Solicits ps fs ∧ (ps = [] → items = [])

theorem Channel.Solicited.nothing (ch : Channel σ) : ch.Solicited [] ch :=
  ⟨rfl, rfl, [], [], (List.append_nil _).symm, rfl, .nothing, fun _ => rfl⟩

theorem Channel.solicited_say (ch : Channel σ) {ps : List Packet} (hps : ps ≠ []) :
    ch.Solicited ps ((ch.say (sends ps)).say [.requestAcknowledgment]) := by
  have hsends : readItems [.bytes (layouts (sends ps))] = some (sends ps) :=
    readItems_layouts fun _ => regular_of_mem_sends
  have hask := readItems_layouts (regular_singleton regular_requestAcknowledgment)
  refine ⟨rfl, rfl, [.bytes (layouts (sends ps))] ++ [.bytes (layouts [.requestAcknowledgment])],
    _, ?_, readItems_append hsends hask, solicits_sends hps, fun hnil => absurd hnil hps⟩
  rw [Channel.say, Backlog.toList_push, Channel.say, Backlog.toList_push, List.append_assoc]

/-! ## The account -/

/-- What can be done on a channel of an open session. -/
inductive ChannelCall where
  | send (ps : List Packet)
  | heard (p : Packet)
  /-- The peer asks how many packets have arrived. -/
  | asked
  /-- The peer tells how many packets have arrived. -/
  | told (count : UInt32)
  | fetched

inductive Utterance where
  | sent (ps : List Packet)
  | resent (ps : List Packet)
  | answered (count : UInt32)

namespace Utterance

def packets : Utterance → List Packet
  | sent ps | resent ps => ps
  | answered _ => []

/-- Packets that are sent again are followed by the question how many have arrived. -/
def frames : Utterance → List Frame
  | sent ps => sends ps
  | resent ps => sends ps ++ [.requestAcknowledgment]
  | answered count => [.acknowledge count]

def isResent : Utterance → Bool
  | resent _ => true
  | _ => false

end Utterance

/-- What was said on a channel, what of it is not acknowledged, and how many packets arrived. -/
structure WireAccount where
  said : List Utterance
  pending : List Packet
  arrived : Nat

namespace WireAccount

def opened : WireAccount := ⟨[], [], 0⟩

def packets (a : WireAccount) : List Packet := a.said.flatMap Utterance.packets

def frames (a : WireAccount) : List Frame := a.said.flatMap Utterance.frames

def say (a : WireAccount) (u : Utterance) : WireAccount := { a with said := a.said ++ [u] }

def resend (a : WireAccount) : WireAccount :=
  if a.pending = [] then a else a.say (.resent a.pending)

/-- The account after a call. Only the number of all packets on the wire acknowledges them; any
other number brings about a retransmission, as a FETCH does. -/
def enter (a : WireAccount) : ChannelCall → WireAccount
  | .send ps => { a.say (.sent ps) with pending := a.pending ++ ps }
  | .heard _ => { a with arrived := a.arrived + 1 }
  | .asked => a.say (.answered (.ofNat a.arrived))
  | .told count =>
    if count.toNat = a.packets.length % 2 ^ 32 then { a with pending := [] } else a.resend
  | .fetched => a.resend

theorem packets_say (a : WireAccount) (u : Utterance) :
    (a.say u).packets = a.packets ++ u.packets := by
  rw [packets, say, List.flatMap_append, List.flatMap_singleton]
  rfl

theorem frames_say (a : WireAccount) (u : Utterance) :
    (a.say u).frames = a.frames ++ u.frames := by
  rw [frames, say, List.flatMap_append, List.flatMap_singleton]
  rfl

/-- The SEND frames of an account carry its packets, in order. -/
theorem packets_frames (a : WireAccount) : a.frames.flatMap Frame.packets = a.packets := by
  rw [frames, packets, List.flatMap_assoc]
  congr 1
  funext u
  cases u with
  | sent ps => exact packets_sends ps
  | resent ps =>
    rw [Utterance.frames, List.flatMap_append, packets_sends]
    exact List.append_nil ps
  | answered count => rfl

end WireAccount

/-- The SEND frames of packets ask for nothing. -/
theorem count_requestAcknowledgment_sends (ps : List Packet) :
    (sends ps).count .requestAcknowledgment = 0 := by
  rw [List.count_eq_zero]
  intro hmem
  obtain ⟨run, -, heq⟩ := List.mem_map.1 hmem
  cases heq

/-- An acknowledgment is asked for once for every retransmission. -/
theorem WireAccount.count_requestAcknowledgment (a : WireAccount) :
    a.frames.count .requestAcknowledgment = a.said.countP Utterance.isResent := by
  unfold frames
  induction a.said with
  | nil => rfl
  | cons u rest ih =>
    rw [List.flatMap_cons, List.count_append, ih, List.countP_cons, Nat.add_comm]
    congr 1
    cases u with
    | sent ps => exact count_requestAcknowledgment_sends ps
    | resent ps =>
      rw [Utterance.frames, List.count_append, count_requestAcknowledgment_sends]
      rfl
    | answered count => rfl

/-! ## Ledgers that keep to the account -/

/-- The ledger's counts are those of the account. -/
structure Ledger.Tallies (l : Ledger) (a : WireAccount) : Prop where
  transmitted : l.transmitted = .ofNat a.packets.length
  pending : l.unacknowledged = a.pending
  received : l.received = .ofNat a.arrived

namespace Ledger.Tallies

variable {l : Ledger} {a : WireAccount}

theorem opened : Ledger.empty.Tallies .opened := ⟨rfl, rfl, rfl⟩

theorem send (h : l.Tallies a) (ps : List Packet) :
    (ps.foldl recordSent l).Tallies (a.enter (.send ps)) where
  transmitted := by
    change _ = UInt32.ofNat (a.say (.sent ps)).packets.length
    rw [transmitted_foldl_recordSent, h.transmitted, WireAccount.packets_say, List.length_append,
      UInt32.ofNat_add]
    rfl
  pending := by
    rw [unacknowledged_foldl_recordSent, h.pending]
    rfl
  received := (received_foldl_recordSent ps l).trans h.received

theorem heard (h : l.Tallies a) (p : Packet) :
    l.recordReceived.Tallies (a.enter (.heard p)) where
  transmitted := h.transmitted
  pending := h.pending
  received := by
    change l.received + 1 = UInt32.ofNat (a.arrived + 1)
    rw [h.received, UInt32.ofNat_add]
    rfl

theorem answered (h : l.Tallies a) (count : UInt32) : l.Tallies (a.say (.answered count)) where
  transmitted := by
    rw [WireAccount.packets_say]
    exact h.transmitted.trans (congrArg _ (congrArg _ (List.append_nil a.packets).symm))
  pending := h.pending
  received := h.received

theorem cleared (h : l.Tallies a) :
    ({ l with buffer := .empty } : Ledger).Tallies { a with pending := [] } :=
  ⟨h.transmitted, rfl, h.received⟩

theorem isEmpty_iff (h : l.Tallies a) : l.buffer.isEmpty = true ↔ a.pending = [] := by
  rw [← h.pending, ← Backlog.isEmpty_toList, List.isEmpty_iff]
  rfl

theorem flushed (h : l.Tallies a) (hbuffer : l.buffer.isEmpty = false) :
    l.flush.1.Tallies (a.say (.resent a.pending)) where
  transmitted := by
    rw [transmitted_flush l hbuffer, h.transmitted, h.pending, WireAccount.packets_say,
      List.length_append, UInt32.ofNat_add]
    rfl
  pending := l.unacknowledged_flush.trans h.pending
  received := l.received_flush.trans h.received

/-- A count clears the buffer if it is the number of packets on the wire, as far as it can tell. -/
theorem eq_transmitted_iff (h : l.Tallies a) (count : UInt32) :
    count = l.transmitted ↔ count.toNat = a.packets.length % 2 ^ 32 := by
  rw [h.transmitted, ← UInt32.toNat_inj, UInt32.toNat_ofNat']

end Ledger.Tallies

/-! ## Channels that keep to the account -/

/-- A live channel with these frames queued behind these items. -/
structure Channel.Wrote (before : List Outbound) (fs : List Frame) (ch : Channel σ) : Prop where
  live : ch.Live
  queue : ∃ items, ch.queue.toList = before ++ items ∧ readItems items = some fs

theorem Channel.Wrote.say {before : List Outbound} {fs gs : List Frame} {ch : Channel σ}
    (h : ch.Wrote before fs) (hregular : ∀ g ∈ gs, g.Regular) :
    (ch.say gs).Wrote before (fs ++ gs) := by
  obtain ⟨items, hqueue, hread⟩ := h.queue
  refine ⟨h.live.say gs, items ++ [.bytes (layouts gs)], ?_, ?_⟩
  · rw [Channel.say, Backlog.toList_push, hqueue, List.append_assoc]
  · exact readItems_append hread (readItems_layouts hregular)

theorem Channel.Wrote.setLedger {before : List Outbound} {fs : List Frame} {ch : Channel σ}
    (h : ch.Wrote before fs) (l : Ledger) : (ch.setLedger l).Wrote before fs :=
  ⟨h.live.setLedger l, h.queue⟩

/-- The channel queued what the account says, and its ledger counts it. -/
structure Channel.Keeps (before : List Outbound) (a : WireAccount) (ch : Channel σ) : Prop
    extends ch.Wrote before a.frames where
  ledger : ∃ l, ch.Wired l [.packetObserver] ∧ l.Tallies a

/-! ## One call -/

/-- What a call does to a node. -/
def ChannelCall.perform (c : ChannelId) (n : Node σ) : ChannelCall → Node σ
  | .send ps => ((sendPackets c ps).apply n).2
  | .heard p => dispatch c (.packetReceived p) n
  | .asked => dispatch c .acknowledgmentRequested n
  | .told count => dispatch c (.acknowledgmentReceived count) n
  | .fetched => dispatch c .fetchRequested n

variable {n : Node σ} {c : ChannelId} {ch ch' : Channel σ} {l : Ledger}
  {before : List Outbound} {a : WireAccount}

/-- The observer behind the ledger only reports, so the channel is left as the ledger leaves it. -/
theorem channel?_dispatch_of_ledger {e : Event} (hch : n.channel? c = some ch)
    (hw : ch.Wired l [.packetObserver]) (hledger : ∀ m : Node σ, m.channel? c = some ch →
      (ledgerReacts c 2 l e).apply m = (.ok (), m.modify c fun _ => ch')) :
    (dispatch c e n).channel? c = some ch' := by
  have hobserved : ∀ m : Node σ, ∃ m', m'.channel? c = m.channel? c ∧
      (reactAll .full c e 3 [.packetObserver]).apply m = (.ok (), m') := by
    intro m
    cases e with
    | packetReceived p => exact ⟨_, m.channel?_note c c .packetObserver _, rfl⟩
    | packetSent p => exact ⟨_, m.channel?_note c c .packetObserver _, rfl⟩
    | _ => exact ⟨m, rfl, rfl⟩
  have hnoted := (n.channel?_note c c .eventLog (.event e)).trans hch
  obtain ⟨m', hsame, hobserver⟩ := hobserved
    ((n.note c .eventLog (.event e)).modify c fun _ => ch')
  have hreaction : (reaction .full c e l [.packetObserver]).apply
      (n.note c .eventLog (.event e)) = (.ok (), m') := by
    rw [reaction, Action.apply_bind_ok (hledger _ hnoted)]
    exact hobserver
  rw [dispatch, dispatchWith_eq later_rule.full ⟨ch, hch, hw⟩, settled, hreaction]
  exact hsame.trans (Node.channel?_modify_of_some hnoted _)

/-- What is not acknowledged is sent again on any event by which the ledger flushes. -/
theorem keeps_flushed {e : Event} (hch : n.channel? c = some ch) (h : ch.Keeps before a)
    (he : ∀ l : Ledger, l.Tallies a → (ledgerReacts c 2 l e : Action σ Unit) =
      settleLedger c 2 l.flush.1 l.flush.2) :
    ∃ ch', (dispatch c e n).channel? c = some ch' ∧ ch'.Keeps before a.resend := by
  obtain ⟨l, hw, htallies⟩ := h.ledger
  cases hbuffer : l.buffer.isEmpty with
  | true =>
    have hpending := htallies.isEmpty_iff.1 hbuffer
    refine ⟨ch, channel?_dispatch_of_ledger hch hw fun m hm => ?_, ?_⟩
    · rw [he l htallies, Node.modify_const_self m c hm]
      exact apply_flush_of_empty hm hw hbuffer
    · rw [WireAccount.resend, if_pos hpending]
      exact h
  | false =>
    have hpending : a.pending ≠ [] := fun hnil => by
      rw [htallies.isEmpty_iff.2 hnil] at hbuffer
      cases hbuffer
    refine ⟨ch.resent l, channel?_dispatch_of_ledger hch hw fun m hm => ?_, ?_⟩
    · rw [he l htallies]
      exact apply_flush hm h.live hbuffer
    · have hregular : ∀ f ∈ sends l.unacknowledged, f.Regular := fun _ => regular_of_mem_sends
      have hresent := ((h.toWrote.setLedger l.flush.1).say hregular).say
        (regular_singleton regular_requestAcknowledgment)
      rw [WireAccount.resend, if_neg hpending]
      refine ⟨?_, _, ((hw.setLedger _).say _).say _, htallies.flushed hbuffer⟩
      rw [WireAccount.frames_say, Utterance.frames, ← List.append_assoc, ← htallies.pending]
      exact hresent

theorem keeps_send (hch : n.channel? c = some ch) (h : ch.Keeps before a) (ps : List Packet) :
    ∃ ch', (ChannelCall.perform c n (.send ps)).channel? c = some ch' ∧
      ch'.Keeps before (a.enter (.send ps)) := by
  obtain ⟨l, hw, htallies⟩ := h.ledger
  have hframes : (a.enter (.send ps)).frames = a.frames ++ sends ps := a.frames_say (.sent ps)
  cases ps with
  | nil =>
    refine ⟨ch, ?_, ?_, l, hw, htallies.send []⟩
    · rw [ChannelCall.perform, sendPackets_nil]
      exact hch
    · rw [hframes, sends_nil, List.append_nil]
      exact h.toWrote
  | cons p rest =>
    obtain ⟨n', happly, hquiet⟩ := apply_sendPackets hch hw h.live (List.cons_ne_nil p rest)
    refine ⟨(ch.say (sends (p :: rest))).setLedger ((p :: rest).foldl Ledger.recordSent l),
      ?_, ?_, _, (hw.say _).setLedger _, htallies.send _⟩
    · rw [ChannelCall.perform, happly]
      exact (hquiet.channel? c).trans (Node.channel?_modify_of_some hch _)
    · rw [hframes]
      exact (h.toWrote.say fun _ => regular_of_mem_sends).setLedger _

/-- Every call keeps a channel to the account. -/
theorem keeps_perform (hch : n.channel? c = some ch) (h : ch.Keeps before a)
    (call : ChannelCall) : ∃ ch', (call.perform c n).channel? c = some ch' ∧
      ch'.Keeps before (a.enter call) := by
  obtain ⟨l, hw, htallies⟩ := h.ledger
  cases call with
  | send ps => exact keeps_send hch h ps
  | heard p =>
    refine ⟨ch.setLedger l.recordReceived, channel?_dispatch_of_ledger hch hw fun m hm => ?_,
      h.toWrote.setLedger _, _, hw.setLedger _, htallies.heard p⟩
    rw [← Node.setReactor_eq hm]
    rfl
  | asked =>
    refine ⟨ch.say [.acknowledge l.received], channel?_dispatch_of_ledger hch hw fun m hm =>
      apply_answer hm hw h.live, ?_, l, hw.say _, htallies.answered _⟩
    have hsaid := h.toWrote.say (regular_singleton (regular_acknowledge l.received))
    rw [WireAccount.enter, WireAccount.frames_say, Utterance.frames, ← htallies.received]
    exact hsaid
  | told count =>
    by_cases hcount : count.toNat = a.packets.length % 2 ^ 32
    · have htransmitted := (htallies.eq_transmitted_iff count).2 hcount
      rw [WireAccount.enter, if_pos hcount]
      refine ⟨_, channel?_dispatch_of_ledger hch hw fun m hm => ?_, h.toWrote.setLedger _, _,
        hw.setLedger _, htallies.cleared⟩
      rw [htransmitted]
      exact apply_clear hm
    · rw [WireAccount.enter, if_neg hcount]
      refine keeps_flushed hch h fun l' htallies' => ?_
      have hother : count ≠ l'.transmitted := fun heq =>
        hcount ((htallies'.eq_transmitted_iff count).1 heq)
      rw [ledgerReacts, Ledger.acknowledge, if_neg hother]
  | fetched => exact keeps_flushed hch h fun _ _ => rfl

/-! ## Runs -/

theorem keeps_run (hch : n.channel? c = some ch) (h : ch.Keeps before a)
    (calls : List ChannelCall) :
    ∃ ch', (calls.foldl (ChannelCall.perform c) n).channel? c = some ch' ∧
      ch'.Keeps before (calls.foldl WireAccount.enter a) := by
  induction calls generalizing n ch a with
  | nil => exact ⟨ch, hch, h⟩
  | cons call rest ih =>
    obtain ⟨ch₁, hch₁, h₁⟩ := keeps_perform hch h call
    exact ih hch₁ h₁

/-- A created session opens the account. -/
theorem keeps_sessionCreated (hch : n.channel? c = some ch) (hw : ch.Wired l [.packetObserver])
    (hlive : ch.Live) (id : SessionId) :
    ∃ ch', (dispatch c (.sessionCreated id) n).channel? c = some ch' ∧
      ch'.Keeps ch.queue.toList .opened := by
  refine ⟨ch.setLedger .empty, channel?_dispatch_of_ledger hch hw fun m hm => ?_,
    ⟨hlive.setLedger _, [], (List.append_nil _).symm, rfl⟩, _, hw.setLedger _, .opened⟩
  rw [← Node.setReactor_eq hm]
  rfl

/-- Packets that cannot be sent leave the node as it was. -/
theorem eq_of_sendPackets_error {ps : List Packet} {f : Fault} {n' : Node σ}
    (h : (sendPackets c ps).apply n = (.error f, n')) : n' = n := by
  by_cases hps : ps = []
  · rw [hps, sendPackets_nil] at h
    cases h
  · by_cases hlive : ∃ ch, n.channel? c = some ch ∧ ch.Live
    · -- The packets are queued, and telling of them does not fail.
      obtain ⟨ch, hch, hlive⟩ := hlive
      have hwrite := apply_enqueue_of_live hch hlive (layouts (sends ps))
      rw [sendPackets, sendPacketsWith, writePackets_eq hps, Action.apply_bind_ok hwrite] at h
      cases h
    · have hnot : ∀ ch, n.channel? c = some ch → ¬ ch.Live := fun ch hch hch' =>
        hlive ⟨ch, hch, hch'⟩
      obtain ⟨f', hf⟩ := apply_sendPackets_of_not_live hnot hps
      rw [hf] at h
      cases h
      rfl

/-- The ledger agrees with the wire. What is queued since the session was created reads as the
frames of the account, in order; the ledger counts the packets in them modulo `2 ^ 32`, and every
retransmission is followed by one request for an acknowledgment. Sending that fails changes
nothing. -/
theorem ledger_accounts_for_wire (n : Node σ) (c : ChannelId) :
    (∀ ch l, n.channel? c = some ch → ch.Wired l [.packetObserver] → ch.Live →
      ∀ (id : SessionId) (calls : List ChannelCall),
        let a := calls.foldl WireAccount.enter .opened
        ∃ ch' l' items,
          (calls.foldl (ChannelCall.perform c) (dispatch c (.sessionCreated id) n)).channel? c =
            some ch' ∧
          ch'.Live ∧ ch'.Wired l' [.packetObserver] ∧
          ch'.queue.toList = ch.queue.toList ++ items ∧ readItems items = some a.frames ∧
          a.frames.flatMap Frame.packets = a.packets ∧
          a.frames.count .requestAcknowledgment = a.said.countP Utterance.isResent ∧
          l'.transmitted.toNat = a.packets.length % 2 ^ 32 ∧
          l'.unacknowledged = a.pending ∧ l'.received = .ofNat a.arrived) ∧
    ∀ ps f n', (sendPackets c ps).apply n = (.error f, n') → n' = n := by
  constructor
  · intro ch l hch hw hlive id calls a
    obtain ⟨ch₁, hch₁, h₁⟩ := keeps_sessionCreated hch hw hlive id
    obtain ⟨ch', hch', h⟩ := keeps_run hch₁ h₁ calls
    obtain ⟨l', hw', htallies⟩ := h.ledger
    obtain ⟨items, hqueue, hread⟩ := h.queue
    refine ⟨ch', l', items, hch', h.live, hw', hqueue, hread, a.packets_frames,
      a.count_requestAcknowledgment, ?_, htallies.pending, htallies.received⟩
    rw [htallies.transmitted, UInt32.toNat_ofNat']
  · intro ps f n'
    exact eq_of_sendPackets_error

/-- A node with one channel that is observed. -/
def observedNode : Node Unit :=
  { Node.start () with
    channels := [.start (.start .initiator 0 {}) (front .empty ++ [.packetObserver])] }

/-- A packet is sent, another one arrives and is acknowledged, and the first is sent again before
both ends agree; where no channel is, nothing can be sent. -/
theorem ledger_accounts_for_wire_resent :
    (∃ ch' l' items,
      ([.send [smallPacket], .heard smallPacket, .asked, .fetched, .told 2].foldl
        (ChannelCall.perform ⟨0⟩)
        (dispatch ⟨0⟩ (.sessionCreated ⟨⟨#[115]⟩, by decide, by decide⟩) observedNode)).channel? ⟨0⟩ =
          some ch' ∧
      ch'.Wired l' [.packetObserver] ∧ ch'.queue.toList = items ∧
      readItems items = some [.send [smallPacket], .acknowledge 1, .send [smallPacket],
        .requestAcknowledgment] ∧
      l'.transmitted.toNat = 2 ∧ l'.unacknowledged = []) ∧
    ∃ f, (sendPackets ⟨1⟩ [smallPacket]).apply observedNode = (.error f, observedNode) := by
  constructor
  · obtain ⟨ch', l', items, hch', -, hw', hqueue, hread, -, -, htransmitted, hpending, -⟩ :=
      (ledger_accounts_for_wire observedNode ⟨0⟩).1 _ .empty rfl ⟨rfl, by
        intro r hr
        rw [List.mem_singleton.1 hr]
        trivial⟩ ⟨rfl, rfl⟩ ⟨⟨#[115]⟩, by decide, by decide⟩
        [.send [smallPacket], .heard smallPacket, .asked, .fetched, .told 2]
    refine ⟨ch', l', items, hch', hw', hqueue, ?_, htransmitted, hpending⟩
    rw [hread]
    change some (sends [smallPacket] ++ ([.acknowledge 1] ++ (sends [smallPacket] ++
      [.requestAcknowledgment] ++ []))) = _
    rw [sends_singleton]
    rfl
  · have hnot : ∀ ch, observedNode.channel? ⟨1⟩ = some ch → ¬ ch.Live := fun _ h => nomatch h
    have hfails : ∃ f n', (sendPackets ⟨1⟩ [smallPacket]).apply observedNode = (.error f, n') :=
      (apply_sendPackets_of_not_live hnot (List.cons_ne_nil smallPacket [])).imp
        fun f hf => ⟨_, hf⟩
    obtain ⟨f, n', hf⟩ := hfails
    rw [(ledger_accounts_for_wire observedNode ⟨1⟩).2 _ f n' hf] at hf
    exact ⟨f, hf⟩

end Courier
