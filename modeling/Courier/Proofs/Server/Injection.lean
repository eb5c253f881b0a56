import Courier.Proofs.Node.Queues
import Courier.Proofs.Routing.Books
import Courier.Proofs.Server.Attachments

/-! # Who can bring packets in

A SEND frame brings packets in while the session of its channel is open, in whatever phase of the
handshake, and it changes nothing once the session is closed. What it brings in are its own packets,
each for its recipient: they are appended to mailboxes and to queues, and nothing else is appended
there that carries packets (`packets_enter_through_open_sessions`).
-/
set_option autoImplicit false

namespace Courier

open Courier.Wire Courier.Wire.Frame Courier.Routing

variable {σ : Type} {n n' n'' : Node σ} {c : ChannelId} {ch ch' : Channel σ} {p : Packet}
  {ps qs : List Packet}

/-! ## What is appended -/

/-- Behind what was queued before, the channel has frames that carry no packets but these. -/
def Channel.Gains (ps : List Packet) (ch ch' : Channel σ) : Prop :=
  ∃ items, ch'.queue.toList = ch.queue.toList ++ items ∧
    ∀ p ∈ (framesOf items).flatMap Frame.packets, p ∈ ps

/-- No packets but these are appended to mailboxes, each to its recipient's, and to queues. -/
structure Node.Gains (ps : List Packet) (n n' : Node σ) : Prop where
  waiting : ∀ a, ∃ added, n'.registry.waiting a = n.registry.waiting a ++ added ∧
    ∀ p ∈ added, p ∈ ps ∧ p.recipient = a
  queue : ∀ c ch', n'.channel? c = some ch' → ∃ ch, n.channel? c = some ch ∧ ch.Gains ps ch'

theorem Channel.Gains.of_queue (ps : List Packet) (h : ch'.queue = ch.queue) : ch.Gains ps ch' := by
  refine ⟨[], ?_, fun p hp => nomatch hp⟩
  rw [h, List.append_nil]

theorem Channel.Gains.trans {ch'' : Channel σ} (h : ch.Gains ps ch') (h' : ch'.Gains qs ch'') :
    ch.Gains (ps ++ qs) ch'' := by
  obtain ⟨items, hqueue, hitems⟩ := h
  obtain ⟨more, hqueue', hmore⟩ := h'
  refine ⟨items ++ more, ?_, ?_⟩
  · rw [hqueue', hqueue, List.append_assoc]
  · intro p hp
    rw [framesOf_append, List.flatMap_append] at hp
    obtain hp | hp := List.mem_append.1 hp
    · exact List.mem_append_left _ (hitems p hp)
    · exact List.mem_append_right _ (hmore p hp)

namespace Node.Gains

/-- The mailboxes stay, and so do the queues. -/
theorem of_queues (ps : List Packet) (hregistry : n'.registry = n.registry)
    (hqueue : ∀ c, (n'.channel? c).map (·.queue) = (n.channel? c).map (·.queue)) :
    n.Gains ps n' := by
  refine ⟨fun a => ⟨[], ?_, fun p hp => nomatch hp⟩, ?_⟩
  · rw [hregistry, List.append_nil]
  · intro c ch' hch'
    have hsame := hqueue c
    rw [hch', Option.map_some] at hsame
    obtain ⟨ch, hch, heq⟩ := Option.map_eq_some_iff.1 hsame.symm
    exact ⟨ch, hch, .of_queue ps heq.symm⟩

theorem refl (ps : List Packet) (n : Node σ) : n.Gains ps n := of_queues ps rfl fun _ => rfl

theorem trans (h : n.Gains ps n') (h' : n'.Gains qs n'') : n.Gains (ps ++ qs) n'' := by
  refine ⟨?_, ?_⟩
  · intro a
    obtain ⟨added, hwaiting, hadded⟩ := h.waiting a
    obtain ⟨more, hwaiting', hmore⟩ := h'.waiting a
    refine ⟨added ++ more, ?_, ?_⟩
    · rw [hwaiting', hwaiting, List.append_assoc]
    · intro p hp
      obtain hp | hp := List.mem_append.1 hp
      · exact ⟨List.mem_append_left _ (hadded p hp).1, (hadded p hp).2⟩
      · exact ⟨List.mem_append_right _ (hmore p hp).1, (hmore p hp).2⟩
  · intro c ch'' hch''
    obtain ⟨ch', hch', hmore⟩ := h'.queue c ch'' hch''
    obtain ⟨ch, hch, hgains⟩ := h.queue c ch' hch'
    exact ⟨ch, hch, hgains.trans hmore⟩

end Node.Gains

/-- A channel that took a packet carries it behind what was queued, and no other. -/
theorem Channel.Took.carries (h : ch.Took p ch') : ∃ items,
    ch'.queue.toList = ch.queue.toList ++ items ∧ (framesOf items).flatMap Frame.packets = [p] := by
  obtain ⟨b, items, hb, hqueue, hbare⟩ := h
  rw [encode_of_regular (regular_send p)] at hb
  cases hb
  refine ⟨_, hqueue, ?_⟩
  rw [← List.singleton_append, framesOf_append,
    framesOf_layouts (regular_singleton (regular_send p)), List.flatMap_append,
    List.flatMap_eq_nil_iff.2 hbare, List.append_nil]
  rfl

/-- The packet was appended to its recipient's mailbox, or it was queued on some channel. -/
inductive Node.LetsIn (p : Packet) (n n' : Node σ) : Prop where
  | waits {added : List Packet} (hp : p ∈ added)
      (h : n'.registry.waiting p.recipient = n.registry.waiting p.recipient ++ added) :
      LetsIn p n n'
  | queued {c : ChannelId} {ch ch' : Channel σ} {items : List Outbound}
      (hch : n.channel? c = some ch) (hch' : n'.channel? c = some ch')
      (h : ch'.queue.toList = ch.queue.toList ++ items)
      (hp : p ∈ (framesOf items).flatMap Frame.packets) : LetsIn p n n'

/-- What was let in stays, while more is appended. -/
theorem Node.LetsIn.gains (h : n.LetsIn p n') (hmore : n'.Gains ps n'') (hlater : n'.Later n'') :
    n.LetsIn p n'' := by
  cases h with
  | waits hp hwaiting =>
    obtain ⟨more, hwaiting', -⟩ := hmore.waiting p.recipient
    refine .waits (List.mem_append_left more hp) ?_
    rw [hwaiting', hwaiting, List.append_assoc]
  | @queued c ch ch' items hch hch' hqueue hp =>
    obtain ⟨ch'', hch'', -⟩ := hlater.channel c ch' hch'
    obtain ⟨ch₁, hch₁, more, hqueue', -⟩ := hmore.queue c ch'' hch''
    obtain rfl : ch' = ch₁ := Option.some.inj (hch'.symm.trans hch₁)
    refine .queued hch hch'' (?_ : _ = ch.queue.toList ++ (items ++ more)) ?_
    · rw [hqueue', hqueue, List.append_assoc]
    · rw [framesOf_append, List.flatMap_append]
      exact List.mem_append_left _ hp

/-- What was let in later, while nothing was appended before. -/
theorem Node.LetsIn.of_queues (h : n'.LetsIn p n'') (hregistry : n'.registry = n.registry)
    (hqueue : ∀ c, (n'.channel? c).map (·.queue) = (n.channel? c).map (·.queue)) :
    n.LetsIn p n'' := by
  cases h with
  | waits hp hwaiting => exact .waits hp (by rw [hwaiting, hregistry])
  | @queued c ch' ch'' items hch' hch'' hitems hp =>
    have hsame := hqueue c
    rw [hch', Option.map_some] at hsame
    obtain ⟨ch, hch, heq⟩ := Option.map_eq_some_iff.1 hsame.symm
    exact .queued hch hch'' (by rw [hitems, heq]) hp

/-! ## A packet -/

theorem Node.Offered.gains {cs : List ChannelId} (h : n.Offered p cs n')
    (hch' : n'.channel? c = some ch') : ∃ ch, n.channel? c = some ch ∧ ch.Gains [p] ch' := by
  by_cases hc : c ∈ cs
  · cases haccepts : n.accepts c with
    | true =>
      obtain ⟨ch, hch, hlive⟩ := Node.accepts_iff.1 haccepts
      obtain ⟨ch₁, hch₁, htook⟩ := h.took c hc ch hch hlive
      obtain rfl : ch' = ch₁ := Option.some.inj (hch'.symm.trans hch₁)
      obtain ⟨items, hqueue, hpackets⟩ := htook.carries
      exact ⟨ch, hch, items, hqueue, by rw [hpackets]; exact fun q hq => hq⟩
    | false =>
      have hsame := h.refused c hc haccepts
      rw [hch', Option.map_some] at hsame
      obtain ⟨ch, hch, heq⟩ := Option.map_eq_some_iff.1 hsame.symm
      exact ⟨ch, hch, .of_queue [p] heq.symm⟩
  · rw [h.others c hc] at hch'
    exact ⟨ch', hch', .of_queue [p] rfl⟩

/-- A packet that is routed is appended to the queues of those who take it, or to its mailbox. -/
theorem gains_routePacket (htidy : n.registry.Tidy) (h : n.AllWired) (hecho : p.isEcho = false) :
    n.Gains [p] (routePacket p n).2 ∧ n.LetsIn p (routePacket p n).2 := by
  obtain ⟨-, hbook, -⟩ := routePacket_enters htidy fun _ => h.aloofFrom p _
  have hwaiting : ∀ a, (routePacket p n).2.registry.waiting a =
      (n.registry.book.route n.accepts p).2.waiting a := fun a => congrArg (·.waiting a) hbook
  obtain ⟨n', hroute, -, hoffered⟩ :=
    routePacket_spec hecho (h.aloofFrom p _) (htidy.once p.recipient)
  rw [hroute] at hwaiting ⊢
  have hqueue : ∀ c ch', n'.channel? c = some ch' →
      ∃ ch, n.channel? c = some ch ∧ ch.Gains [p] ch' := fun c ch' hch' => hoffered.gains hch'
  by_cases hnone : (n.registry.channels p.recipient).filter n.accepts = []
  · -- Nobody takes it, and it comes to wait.
    rw [Book.route_of_none hecho hnone] at hwaiting
    refine ⟨⟨fun a => ?_, hqueue⟩, .waits (List.mem_singleton.2 rfl) ((hwaiting _).trans ?_)⟩
    · rw [hwaiting]
      by_cases ha : a = p.recipient
      · subst ha
        refine ⟨[p], Function.update_self .., ?_⟩
        intro q hq
        exact ⟨hq, by rw [List.mem_singleton.1 hq]⟩
      · refine ⟨[], ?_, fun q hq => nomatch hq⟩
        rw [List.append_nil]
        exact Function.update_of_ne ha ..
    · exact Function.update_self ..
  · rw [Book.route_of_some hecho hnone] at hwaiting
    obtain ⟨c, hc⟩ := List.exists_mem_of_ne_nil _ hnone
    obtain ⟨hattached, haccepts⟩ := List.mem_filter.1 hc
    obtain ⟨ch, hch, hlive⟩ := Node.accepts_iff.1 haccepts
    obtain ⟨ch', hch', htook⟩ := hoffered.took c hattached ch hch hlive
    obtain ⟨items, hitems, hpackets⟩ := htook.carries
    refine ⟨⟨fun a => ⟨[], ?_, fun q hq => nomatch hq⟩, hqueue⟩, .queued hch hch' hitems ?_⟩
    · rw [hwaiting, List.append_nil]
      rfl
    · rw [hpackets]
      exact List.mem_singleton.2 rfl

/-- A packet that arrives is appended where routing takes it. -/
theorem gains_packetReceived (h : Sound n) (htidy : n.registry.Tidy) (hch : n.channel? c = some ch)
    (p : Packet) : n.Gains [p] (dispatch c (.packetReceived p) n) ∧
      (p.isEcho = false → n.LetsIn p (dispatch c (.packetReceived p) n)) := by
  obtain ⟨w, l, hw, -⟩ := (h.channel c ch hch).wired
  obtain ⟨m, hquiet, hdispatch⟩ := server_packetReceived hch hw p
  have hnoted := (n.channel?_note c c .eventLog (.event (.packetReceived p))).trans hch
  -- Before it is routed, the packet is only counted.
  have hregistry : m.registry = n.registry := by
    rw [hquiet.registry, heard_eq hch hw]
    exact n.registry_note c _ _
  have hqueue : ∀ c', (m.channel? c').map (·.queue) = (n.channel? c').map (·.queue) := by
    intro c'
    rw [hquiet.channel?, heard_eq hch hw]
    by_cases hc : c' = c
    · rw [hc, Node.channel?_modify_of_some hnoted, hch]
      rfl
    · rw [Node.channel?_modify_of_ne _ _ hc, Node.channel?_note]
  have hwired := (Delivered.quiet (h.heard hch p).sound hquiet).sound.allWired
  rw [hdispatch]
  cases hecho : p.isEcho with
  | true =>
    rw [routePacket_of_echo hecho]
    exact ⟨.of_queues [p] hregistry hqueue, fun hnot => nomatch hnot⟩
  | false =>
    obtain ⟨hgains, hin⟩ := gains_routePacket (hregistry ▸ htidy) hwired hecho
    have hbefore : n.Gains [] m := .of_queues [] hregistry hqueue
    exact ⟨hbefore.trans hgains, fun _ => hin.of_queues hregistry hqueue⟩

/-! ## A frame -/

/-- What arrives on a closed channel is not heard. -/
theorem receivePackets_of_closed (hclosed : n.isClosed c = true) (ps : List Packet) :
    receivePackets c ps n = n := by
  induction ps with
  | nil => rfl
  | cons p ps ih =>
    rw [receivePackets, List.foldl_cons, if_pos hclosed]
    exact ih

/-- The packets of a frame are appended one after the other; the first, at least, is let in. -/
theorem gains_receivePackets (h : Sound n) (htracks : Tracks n) (c : ChannelId)
    (ps : List Packet) : n.Gains ps (receivePackets c ps n) ∧
      ∀ p rest, ps = p :: rest → n.isClosed c = false → p.isEcho = false →
        n.LetsIn p (receivePackets c ps n) := by
  induction ps generalizing n with
  | nil => exact ⟨.refl [] n, fun _ _ hps => nomatch hps⟩
  | cons p ps ih =>
    obtain ⟨n', hn'⟩ : ∃ n', n' = receivePackets c [p] n := ⟨_, rfl⟩
    have hsound : Sound n' := hn' ▸ (h.receivePackets c [p]).sound
    have htracks' : Tracks n' := hn' ▸ tracks_law.receivePackets trivial h c [p] htracks
    have hrest := (ih hsound htracks').1
    have hstep : receivePackets c (p :: ps) n = receivePackets c ps n' := hn' ▸ rfl
    rw [hstep]
    cases hclosed : n.isClosed c with
    | true =>
      have hsame : n' = n := hn'.trans (receivePackets_of_closed hclosed [p])
      have hnone : n.Gains [p] n' := hsame ▸ .refl [p] n
      exact ⟨hnone.trans hrest, fun _ _ _ hopen => nomatch hopen⟩
    | false =>
      obtain ⟨ch, hch⟩ : ∃ ch, n.channel? c = some ch := by
        cases hch : n.channel? c with
        | none => simp [Node.isClosed, hch] at hclosed
        | some ch => exact ⟨ch, rfl⟩
      have hreceived : n' = dispatch c (.packetReceived p) n := by
        rw [hn', receivePackets, List.foldl_cons, if_neg (by simp [hclosed]), List.foldl_nil]
      obtain ⟨hgains, hin⟩ := gains_packetReceived h htracks.tidy hch p
      rw [← hreceived] at hgains hin
      refine ⟨hgains.trans hrest, ?_⟩
      intro q rest hps _ hecho
      cases hps
      exact (hin hecho).gains hrest (later_rule.telling.receivePackets c ps n')

/-! ## Every run -/

/-- What a server does, as an act of any node. -/
def ServerAct.plain : ServerAct σ → NodeAct σ
  | accept w now => .openChannel .responder now w.timing w.pipeline
  | greet c => .operate c .greet
  | receive c f => .operate c (.receive f)
  | fail c f => .operate c (.raise f)
  | close c => .operate c .close
  | detach c => .operate c .detach
  | finish c => .operate c .finish
  | take c => .take c
  | dropWriter c => .dropWriter c
  | route p => .operate ⟨0⟩ (.route p)

theorem perform_plain (a : ServerAct σ) (n : Node σ) : a.plain.perform n = a.perform n := by
  cases a <;> rfl

theorem node_serverRun (policy : σ) (acts : List (ServerAct σ)) :
    (serverRun policy acts).node = (nodeRun policy (acts.map ServerAct.plain)).node := by
  have hrun : ∀ (r : ServerRun σ) (r' : NodeRun σ), r.node = r'.node →
      (acts.foldl ServerRun.step r).node =
        ((acts.map ServerAct.plain).foldl NodeRun.step r').node := by
    induction acts with
    | nil => exact fun _ _ h => h
    | cons a acts ih =>
      refine fun r r' h => ih (r.step a) (r'.step a.plain) ?_
      show a.perform r.node = a.plain.perform r'.node
      rw [perform_plain, h]
  exact hrun _ _ rfl

/-- The phase that a channel of a server shows is its session's. -/
theorem shown_run (policy : σ) (acts : List (ServerAct σ))
    (hch : (serverRun policy acts).node.channel? c = some ch) :
    ch.published = ch.session.phase := by
  rw [node_serverRun] at hch
  exact ((NodeRun.orderly_run policy _).inOrder c ch hch).shown

theorem isClosed_run (policy : σ) (acts : List (ServerAct σ))
    (hch : (serverRun policy acts).node.channel? c = some ch) :
    (serverRun policy acts).node.isClosed c = ch.session.isClosed := by
  rw [Node.isClosed, hch]
  show decide (ch.published = .closed) = _
  rw [shown_run policy acts hch]
  rfl

/-- In every state of a server, a SEND frame appends no packets but its own to mailboxes, each to
its recipient's, and to queues; on a closed session it changes nothing, and on an open one, whatever
its phase, at least the first packet gets in, unless it is addressed to its sender. -/
theorem packets_enter_through_open_sessions (policy : σ) (acts : List (ServerAct σ))
    (c : ChannelId) (ps : List Packet) :
    let n := (serverRun policy acts).node
    let n' := (receive c (.send ps) n).2
    n.Gains ps n' ∧
    (n' = n ∨ ∃ ch, n.channel? c = some ch ∧ ch.session.isClosed = false) ∧
    ∀ ch p rest, n.channel? c = some ch → ch.session.isClosed = false → ps = p :: rest →
      p.isEcho = false → n.LetsIn p n' := by
  intro n n'
  have hsound : Sound n := (ServerRun.right_run policy acts).sound
  cases hch : n.channel? c with
  | none =>
    have hsame : n' = n := by
      show (receive c (.send ps) n).2 = n
      rw [receive, hch]
    rw [hsame]
    exact ⟨.refl ps n, .inl rfl, fun ch p rest h => by cases h⟩
  | some ch =>
    have hreceives : n' = receivePackets c ps n := by
      show (receive c (.send ps) n).2 = _
      rw [receive, hch]
      rfl
    have hshown : n.isClosed c = ch.session.isClosed := isClosed_run policy acts hch
    obtain ⟨hgains, hin⟩ := gains_receivePackets hsound (tracks_run policy acts) c ps
    rw [hreceives]
    refine ⟨hgains, ?_, ?_⟩
    · cases hclosed : ch.session.isClosed with
      | true => exact .inl (receivePackets_of_closed (hshown.trans hclosed) ps)
      | false => exact .inr ⟨ch, rfl, hclosed⟩
    · intro ch₁ p rest hch₁ hopen hps hecho
      cases hch₁
      exact hin p rest hps (hshown.trans hopen) hecho

/-- The twins are identified, and a third connection has not said who it is. -/
def strangerRun : List (ServerAct Unit) :=
  let id : SessionId := ⟨⟨#[51]⟩, by decide, by decide⟩
  let nobody : Authenticator Unit := fun _ _ s => (.error .invalidCredential, s)
  twinRun ++ [.accept ⟨{}, acceptAny, fixedSessionId id, nobody, false⟩ 0, .greet ⟨2⟩]

/-- A packet for the second twin, and one that nobody fetches yet. -/
def strangePackets : List Packet := [{ smallPacket with recipient := twins.2 }, smallPacket]

/-- A stranger's packets get in: one is queued for the second twin, and one waits. -/
theorem strangers_bring_packets_in :
    let n := (serverRun () strangerRun).node
    let n' := (receive ⟨2⟩ (.send strangePackets) n).2
    (n.channel? ⟨2⟩).map (·.session.phase) = some .connected ∧
    (n'.channel? ⟨1⟩).map (framesOf ·.queue.toList) =
      (n.channel? ⟨1⟩).map (framesOf ·.queue.toList ++
        [.send [{ smallPacket with recipient := twins.2 }]]) ∧
    n.registry.waiting smallPacket.recipient = [] ∧
    n'.registry.waiting smallPacket.recipient = [smallPacket] := by
  decide +kernel

theorem packets_enter_through_open_sessions_stranger :
    (∃ ch, (serverRun () strangerRun).node.channel? ⟨2⟩ = some ch ∧ ch.session.isClosed = false) ∧
      (serverRun () strangerRun).node.LetsIn { smallPacket with recipient := twins.2 }
        (receive ⟨2⟩ (.send strangePackets) (serverRun () strangerRun).node).2 := by
  have hphase : ((serverRun () strangerRun).node.channel? ⟨2⟩).map (·.session.isClosed) =
      some false := by
    decide +kernel
  obtain ⟨ch, hch, hopen⟩ := Option.map_eq_some_iff.1 hphase
  obtain ⟨-, -, hin⟩ := packets_enter_through_open_sessions () strangerRun ⟨2⟩ strangePackets
  exact ⟨⟨ch, hch, hopen⟩, hin ch _ _ hch hopen rfl (by decide +kernel)⟩

end Courier
