import Courier.Proofs.Duplex.Moves

/-! # What a move keeps

As long as both ends are open, their books balance in both directions and their handshakes keep
together (`Duplex.Good`). Each move keeps this, or it closes one of the ends.
-/
set_option autoImplicit false

namespace Courier

open Courier.Wire Courier.Wire.Frame Courier.Routing

variable {σ : Type} {n n' : Node σ} {c : ChannelId} {ch cl cl' sv sv' : Channel σ} {l : Ledger}
  {rest : List (Reactor σ)} {fs : List Frame} {s : Session} {d : Duplex σ}

/-! ## Open channels -/

/-- A frame that arrives at an open channel is dealt with by its role, and then the channel may be
finished. -/
theorem deliverFrame_eq (hch : n.channel? c = some ch) (f : Frame) : deliverFrame c n f =
    if n.isClosed c then n
    else if f = .detach ∨ (handleFrame c ch.session.role f n).isClosed c then
      finish c (handleFrame c ch.session.role f n)
    else handleFrame c ch.session.role f n := by
  rw [deliverFrame, receive, hch]
  simp only []
  by_cases hend : f = .detach ∨ (handleFrame c ch.session.role f n).isClosed c
  · rw [if_pos hend, if_pos hend]
  · rw [if_neg hend, if_neg hend]

theorem deliverFrame_of_open (h : n.Ready) (hch : n.channel? c = some ch) {f : Frame}
    (hf : f ≠ .detach) (hopen : (deliverFrame c n f).OpenAt c) :
    deliverFrame c n f = handleFrame c ch.session.role f n := by
  have hlater := later_rule.telling.handleFrame c ch.session.role f n
  rw [deliverFrame_eq hch] at hopen ⊢
  by_cases hbefore : n.isClosed c
  · rw [if_pos hbefore] at hopen
    exact absurd hbefore (h.not_isClosed hch (.refl n) hopen)
  · rw [if_neg hbefore] at hopen ⊢
    by_cases hafter : (handleFrame c ch.session.role f n).isClosed c
    · rw [if_pos (.inr hafter)] at hopen
      have hfinished := later_rule.finish c (handleFrame c ch.session.role f n)
      exact absurd hafter (h.not_isClosed hch hlater (hopen.before hfinished))
    · rw [if_neg (by simp [hf, hafter])]

theorem later_deliverFrame (c : ChannelId) (n : Node σ) (f : Frame) :
    n.Later (deliverFrame c n f) := by
  have hreceive := later_rule.telling.receive c f n
  unfold deliverFrame
  split
  · exact .refl n
  · split
    · rename_i n' heq
      rw [heq] at hreceive
      exact hreceive
    · rename_i n' heq
      rw [heq] at hreceive
      exact hreceive.trans (later_rule.finish c n')

/-- A frame of traffic, or one that is passed over. -/
theorem handleFrame_traded (h : n.Ready) (hch : n.channel? c = some ch) {f : Frame} (role : Role)
    (hf : f.IsTraffic ∨ ∃ code, f = .unknown code)
    (hopen : (handleFrame c role f n).OpenAt c) :
    n.Traded (on c f.packets) (handleFrame c role f n) := by
  obtain hf | ⟨code, rfl⟩ := hf
  · cases f with
    | fetch =>
      show n.Traded (on c []) (dispatch c .fetchRequested n)
      rw [on_nil]
      exact h.dispatch hch trivial fun _ h => nomatch h
    | send ps =>
      show n.Traded (on c ps) (receivePackets c ps n)
      exact h.receivePackets hch ps hopen
    | requestAcknowledgment =>
      show n.Traded (on c []) (dispatch c .acknowledgmentRequested n)
      rw [on_nil]
      exact h.dispatch hch trivial fun _ h => nomatch h
    | acknowledge count =>
      show n.Traded (on c []) (dispatch c (.acknowledgmentReceived count) n)
      rw [on_nil]
      exact h.dispatch hch trivial fun _ h => nomatch h
    | _ => exact hf.elim
  · show n.Traded (on c []) n
    rw [on_nil]
    exact .quiet (.refl n)

theorem attached_of_becomes {ch' : Channel σ} (h : n.Ready) (hch : n.channel? c = some ch)
    (hb : n.Becomes c ch' n') (hnone : ch.session.identity = none) :
    n'.registry.Attached fun _ c => n'.identity? c ≠ none := by
  rw [hb.registry]
  refine h.attached.imp fun _ c' hc' => ?_
  have hne : c' ≠ c := by
    intro heq
    rw [heq, identity?_eq hch] at hc'
    exact hc' hnone
  rw [Node.identity?, hb.others c' hne]
  exact hc'

/-! ## What both ends keep -/

namespace Duplex

/-- The books balance, with these channels at the ends. -/
structure Good (cl sv : Channel σ) (d : Duplex σ) : Prop where
  ready : d.node.Ready
  client : d.node.channel? End.client.channel = some cl
  server : d.node.channel? End.server.channel = some sv
  clientWired : ∃ w l, cl.Wired l (clientRest w)
  serverWired : ∃ w l, sv.Wired l (serverRest w)
  clientRole : cl.session.role = .initiator
  serverRole : sv.session.role = .responder
  shaken : Shaken cl sv
  up : Balanced cl sv (d.arrivals .server) (d.handed .client)
  down : Balanced sv cl (d.arrivals .client) (d.handed .server)

theorem channel_ne : End.server.channel ≠ End.client.channel := by decide

namespace Good

theorem balanced (h : Good cl sv d) (e : End) : ∃ a b,
    d.channel? e = some a ∧ d.channel? e.other = some b ∧
      Balanced a b (d.arrivals e.other) (d.handed e) := by
  cases e with
  | client => exact ⟨cl, sv, h.client, h.server, h.up⟩
  | server => exact ⟨sv, cl, h.server, h.client, h.down⟩

/-- Traffic, and frames that were handed over with it. -/
theorem traded (h : Good cl sv d) {got : ChannelId → List Packet} (ht : d.node.Traded got n')
    (hlater : d.node.Later n') (hopen : ∀ e : End, n'.OpenAt e.channel) {handed : End → Nat}
    (hup : handed .client ≤ cl.spoken.length ∧ d.arrivals .server ++ got End.server.channel =
      (cl.spoken.take (handed .client)).flatMap packets)
    (hdown : handed .server ≤ sv.spoken.length ∧ d.arrivals .client ++ got End.client.channel =
      (sv.spoken.take (handed .server)).flatMap packets) :
    ∃ cl' sv', Good cl' sv' ⟨n', handed⟩ := by
  obtain ⟨cl', hcl', hclient⟩ := ht.channel _ cl h.client
  obtain ⟨sv', hsv', hserver⟩ := ht.channel _ sv h.server
  obtain ⟨fs, hclient⟩ := hclient (hopen .client cl' hcl')
  obtain ⟨fs', hserver⟩ := hserver (hopen .server sv' hsv')
  have hwired : ∀ {c : ChannelId} {ch ch' : Channel σ} {l : Ledger} {rest : List (Reactor σ)},
      d.node.channel? c = some ch → n'.channel? c = some ch' → ch.Wired l rest →
        ∃ l', ch'.Wired l' rest := by
    intro c ch ch' l rest hch hch' hw
    obtain ⟨ch'', hch'', hlater'⟩ := hlater.channel c ch hch
    rw [hch'] at hch''
    cases hch''
    exact hw.later hlater'
  obtain ⟨cw, l, hcw⟩ := h.clientWired
  obtain ⟨sw, l', hsw⟩ := h.serverWired
  refine ⟨cl', sv', h.ready.next ht hlater, hcl', hsv', ⟨cw, hwired h.client hcl' hcw⟩,
    ⟨sw, hwired h.server hsv' hsw⟩, ?_, ?_, h.shaken.traded hclient hserver, ?_, ?_⟩
  · rw [hclient.session]
    exact h.clientRole
  · rw [hserver.session]
    exact h.serverRole
  · show Balanced cl' sv' (n'.arrivals End.server.channel) (handed .client)
    rw [ht.arrivals]
    exact h.up.traded hclient hserver hup.1 hup.2
  · show Balanced sv' cl' (n'.arrivals End.client.channel) (handed .server)
    rw [ht.arrivals]
    exact h.down.traded hserver hclient hdown.1 hdown.2

/-- Traffic that brings nothing over a link. -/
theorem quiet (h : Good cl sv d) (ht : d.node.Traded (fun _ => []) n') (hlater : d.node.Later n')
    (hopen : ∀ e : End, n'.OpenAt e.channel) : ∃ cl' sv', Good cl' sv' { d with node := n' } := by
  refine h.traded ht hlater hopen ⟨h.up.within, ?_⟩ ⟨h.down.within, ?_⟩
  · rw [List.append_nil]
    exact h.up.arrived
  · rw [List.append_nil]
    exact h.down.arrived

theorem client_turns (h : Good cl sv d) (hb : d.node.Becomes End.client.channel cl' n')
    (hlater : d.node.Later n') (ht : cl.Turns s l fs cl') (hnone : cl.session.identity = none)
    (hledger : l = cl.ledger ∨ l = .empty ∧ d.arrivals .client = [])
    (hbare : fs.flatMap packets = []) (hacks : ∀ count, .acknowledge count ∉ fs)
    (hrole : s.role = .initiator) (hshaken : Shaken cl' sv) :
    Good cl' sv { d with node := n' } := by
  have hserver : n'.channel? End.server.channel = some sv :=
    (hb.others _ channel_ne).trans h.server
  obtain ⟨w, l₀, hw⟩ := h.clientWired
  obtain ⟨cl'', hcl'', hlater'⟩ := hlater.channel _ cl h.client
  rw [hb.self] at hcl''
  cases hcl''
  have hready := h.ready.of_later hlater (attached_of_becomes h.ready h.client hb hnone)
  refine ⟨hready, hb.self, hserver, ⟨w, hw.later hlater'⟩, h.serverWired, ?_, h.serverRole,
    hshaken, ?_, ?_⟩
  · rw [ht.session]
    exact hrole
  · show Balanced cl' sv (n'.arrivals _) _
    rw [hb.arrivals]
    refine h.up.sender_turns ht ?_ hbare hnone
    obtain hl | ⟨hl, -⟩ := hledger
    · exact .inl hl
    · exact .inr hl
  · show Balanced sv cl' (n'.arrivals _) _
    rw [hb.arrivals]
    exact h.down.receiver_turns ht hledger hacks

/-- The server takes a turn of its handshake; the registry may change with it. -/
theorem server_turns (h : Good cl sv d) (hb : d.node.Becomes End.server.channel sv' n')
    {r : Registry} (hr : r.Attached fun _ c => n'.identity? c ≠ none)
    (hlater : d.node.Later { n' with registry := r }) (ht : sv.Turns s l fs sv')
    (hnone : sv.session.identity = none)
    (hledger : l = sv.ledger ∨ l = .empty ∧ d.arrivals .server = [])
    (hbare : fs.flatMap packets = []) (hacks : ∀ count, .acknowledge count ∉ fs)
    (hrole : s.role = .responder) (hshaken : Shaken cl sv') :
    Good cl sv' { d with node := { n' with registry := r } } := by
  have hclient : n'.channel? End.client.channel = some cl :=
    (hb.others _ channel_ne.symm).trans h.client
  obtain ⟨w, l₀, hw⟩ := h.serverWired
  obtain ⟨sv'', hsv'', hlater'⟩ := hlater.channel _ sv h.server
  rw [Node.channel?_with_registry, hb.self] at hsv''
  cases hsv''
  refine ⟨h.ready.of_later hlater hr, hclient, hb.self, h.clientWired, ⟨w, hw.later hlater'⟩,
    h.clientRole, ?_, hshaken, ?_, ?_⟩
  · rw [ht.session]
    exact hrole
  · show Balanced cl sv' (n'.arrivals _) _
    rw [hb.arrivals]
    exact h.up.receiver_turns ht hledger hacks
  · show Balanced sv' cl (n'.arrivals _) _
    rw [hb.arrivals]
    refine h.down.sender_turns ht ?_ hbare hnone
    obtain hl | ⟨hl, -⟩ := hledger
    · exact .inl hl
    · exact .inr hl

/-- A frame without packets is handed over, and nothing is done about it yet. -/
theorem skip_client (h : Good cl sv d) {f : Frame} (hf : sv.spoken[d.handed .server]? = some f)
    (hnone : f.packets = []) : Good cl sv { d with handed := d.handOver .client } where
  ready := h.ready
  client := h.client
  server := h.server
  clientWired := h.clientWired
  serverWired := h.serverWired
  clientRole := h.clientRole
  serverRole := h.serverRole
  shaken := h.shaken
  up := h.up
  down := h.down.skip hf hnone

theorem skip_server (h : Good cl sv d) {f : Frame} (hf : cl.spoken[d.handed .client]? = some f)
    (hnone : f.packets = []) : Good cl sv { d with handed := d.handOver .server } where
  ready := h.ready
  client := h.client
  server := h.server
  clientWired := h.clientWired
  serverWired := h.serverWired
  clientRole := h.clientRole
  serverRole := h.serverRole
  shaken := h.shaken
  up := h.up.skip hf hnone
  down := h.down

end Good
end Duplex
end Courier
