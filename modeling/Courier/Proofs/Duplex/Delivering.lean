import Courier.Proofs.Duplex.Steps

/-! # Every move keeps the books

The next frame of either link, and every other move, either closes an end or leaves both with books
that balance (`Duplex.Good.move`); so does every run (`Duplex.good_run`).
-/
set_option autoImplicit false

namespace Courier

open Courier.Wire Courier.Wire.Frame Courier.Routing

variable {σ : Type} {cl sv : Channel σ} {d : Duplex σ} {f : Frame}

namespace Duplex
namespace Good

/-! ## Turns of the handshake -/

section turns

variable (h : Good cl sv d)

include h

theorem client_anonymous (hphase : cl.session.phase ≠ .identified) :
    cl.session.identity = none := by
  apply Decidable.byContradiction
  exact fun hne => hphase (h.shaken.client.1 hne)

theorem server_anonymous (hphase : sv.session.phase ≠ .identified) :
    sv.session.identity = none := by
  apply Decidable.byContradiction
  exact fun hne => hphase (h.shaken.server.1 hne)

theorem greet_client (hopen : ∀ e : End, (d.move (.greet .client)).node.OpenAt e.channel) :
    ∃ cl' sv', Good cl' sv' (d.move (.greet .client)) := by
  obtain ⟨w, l, hw⟩ := h.clientWired
  obtain ⟨hphase, cl', hb, ht⟩ := client_greet h.client hw h.clientRole (hopen .client)
  have hlater := later_rule.telling.greet End.client.channel d.node
  have hearly : ¬ (cl.session.phase = .authenticated ∨ cl.session.phase = .identified) := by
    rw [hphase]
    decide
  have hnone := h.client_anonymous fun hp => hearly (.inr hp)
  refine ⟨cl', sv, h.client_turns hb hlater ht hnone (.inl hw.ledger_eq.symm) rfl ?_
    h.clientRole ?_⟩
  · intro count hmem
    cases List.mem_singleton.1 hmem
  · refine h.shaken.client_turns ht hearly rfl (fun hp => nomatch hp) ?_ ?_
    · intro credential hmem
      cases List.mem_singleton.1 hmem
    · intro hmem
      cases List.mem_singleton.1 hmem

theorem greet_server (hopen : ∀ e : End, (d.move (.greet .server)).node.OpenAt e.channel) :
    ∃ cl' sv', Good cl' sv' (d.move (.greet .server)) := by
  obtain ⟨w, l, hw⟩ := h.serverWired
  obtain ⟨hphase, sv', hb, ht⟩ := server_greet h.server hw h.serverRole (hopen .server)
  have hlater := later_rule.telling.greet End.server.channel d.node
  have hearly : sv.session.phase ≠ .identified := by
    rw [hphase]
    decide
  have hnone := h.server_anonymous hearly
  refine ⟨cl, sv', h.server_turns hb (attached_of_becomes h.ready h.server hb hnone) hlater ht hnone
    (.inl hw.ledger_eq.symm) rfl (fun _ hmem => nomatch hmem) h.serverRole ?_⟩
  refine h.shaken.server_turns ht hearly rfl (fun hp => nomatch hp) ?_ ?_
  · exact fun _ hmem => nomatch hmem
  · exact fun hmem => nomatch hmem

/-- The session is created on the client. Nothing was sent or received before. -/
theorem sessionCreated {id : SessionId}
    (hopen : (dispatch End.client.channel (.sessionCreated id) d.node).OpenAt End.client.channel) :
    ∃ cl', Good cl' sv
      { d with node := dispatch End.client.channel (.sessionCreated id) d.node } := by
  obtain ⟨w, l, hw⟩ := h.clientWired
  obtain ⟨hphase, cl', hb, ht⟩ := client_sessionCreated h.client hw h.clientRole hopen
  have hlater := later_rule.dispatch End.client.channel (.sessionCreated id) d.node
  have hearly : ¬ (cl.session.phase = .authenticated ∨ cl.session.phase = .identified) := by
    rw [hphase]
    decide
  have hnone := h.client_anonymous fun hp => hearly (.inr hp)
  have hnone' : sv.session.identity = none := by
    apply Decidable.byContradiction
    exact fun hne => hearly (h.shaken.asked hne)
  refine ⟨cl', h.client_turns hb hlater ht hnone (.inr ⟨rfl, h.down.heard_of_speechless hnone'⟩) rfl
    ?_ h.clientRole ?_⟩
  · intro count hmem
    cases List.mem_singleton.1 hmem
  · refine h.shaken.client_turns ht hearly rfl (fun hp => nomatch hp) (fun _ _ => rfl) ?_
    intro hmem
    cases List.mem_singleton.1 hmem

theorem identityReceived {a : Address} (htold : .identify (some a) ∈ sv.spoken)
    (hopen : (dispatch End.client.channel (.identityReceived a) d.node).OpenAt
      End.client.channel) :
    ∃ cl', Good cl' sv
      { d with node := dispatch End.client.channel (.identityReceived a) d.node } := by
  obtain ⟨w, l, hw⟩ := h.clientWired
  obtain ⟨hphase, cl', hb, ht⟩ := client_identityReceived h.client hw h.clientRole hopen
  have hlater := later_rule.dispatch End.client.channel (.identityReceived a) d.node
  have hnone := h.client_anonymous (by rw [hphase]; decide)
  refine ⟨cl', h.client_turns hb hlater ht hnone (.inl hw.ledger_eq.symm) rfl ?_ h.clientRole
    (h.shaken.client_identified ht htold rfl rfl)⟩
  intro count hmem
  cases List.mem_singleton.1 hmem

/-- The session is created on the server. Nothing was sent or received before. -/
theorem attachRequested {a : Address}
    (hopen : (dispatch End.server.channel (.attachRequested a) d.node).OpenAt End.server.channel) :
    ∃ sv', Good cl sv'
      { d with node := dispatch End.server.channel (.attachRequested a) d.node } := by
  obtain ⟨w, l, hw⟩ := h.serverWired
  obtain ⟨hphase, id, sv', hb, ht⟩ := server_attachRequested h.server hw hopen
  have hlater := later_rule.dispatch End.server.channel (.attachRequested a) d.node
  have hearly : sv.session.phase ≠ .identified := by
    rw [hphase]
    decide
  have hnone := h.server_anonymous hearly
  have hnone' : cl.session.identity = none := by
    apply Decidable.byContradiction
    exact fun hne => h.shaken.together hne hnone
  refine ⟨sv', h.server_turns hb (attached_of_becomes h.ready h.server hb hnone) hlater ht hnone
    (.inr ⟨rfl, h.up.heard_of_speechless hnone'⟩) rfl ?_ h.serverRole ?_⟩
  · intro count hmem
    cases List.mem_singleton.1 hmem
  · refine h.shaken.server_turns ht hearly rfl (fun hp => nomatch hp) ?_ ?_
    · intro b hmem
      cases List.mem_singleton.1 hmem
    · intro hmem
      cases List.mem_singleton.1 hmem

/-- The server accepts a credential, and its channel is attached to the identity. -/
theorem credentialReceived {credential : Credential} (hsent : .authenticate credential ∈ cl.spoken)
    (hopen : (dispatch End.server.channel (.credentialReceived credential) d.node).OpenAt
      End.server.channel) :
    ∃ sv', Good cl sv'
      { d with node := dispatch End.server.channel (.credentialReceived credential) d.node } := by
  obtain ⟨w, l, hw⟩ := h.serverWired
  obtain ⟨hphase, a, sv', n₁, hb, heq, ht⟩ := server_credentialReceived h.server hw hopen
  have hlater := later_rule.dispatch End.server.channel (.credentialReceived credential) d.node
  rw [heq] at hlater ⊢
  have hnone := h.server_anonymous (by rw [hphase]; decide)
  have hattached : (n₁.registry.attach a End.server.channel).Attached
      fun _ c => n₁.identity? c ≠ none := by
    apply (attached_of_becomes h.ready h.server hb hnone).attach
    rw [identity?_eq hb.self, ht.session]
    exact fun hnone => nomatch hnone
  refine ⟨sv', h.server_turns hb hattached hlater ht hnone (.inl hw.ledger_eq.symm) rfl ?_
    h.serverRole (h.shaken.server_identified ht hsent rfl rfl)⟩
  intro count hmem
  cases List.mem_singleton.1 hmem

end turns

/-! ## The next frame -/

section next

variable (h : Good cl sv d)

include h

theorem deliver_client (hf : sv.spoken[d.handed .server]? = some f)
    (hopen : ∀ e : End, (deliverFrame End.client.channel d.node f).OpenAt e.channel) :
    ∃ cl' sv', Good cl' sv' ⟨deliverFrame End.client.channel d.node f, d.handOver .client⟩ := by
  have hmem : f ∈ sv.spoken := List.mem_of_getElem? hf
  have hstays : f ≠ .detach := fun heq => h.shaken.serverStays (heq ▸ hmem)
  have hlater := later_deliverFrame End.client.channel d.node f
  have heq := deliverFrame_of_open h.ready h.client hstays (hopen .client)
  rw [h.clientRole] at heq
  rw [heq] at hopen hlater ⊢
  obtain ⟨w, l, hw⟩ := h.clientWired
  have htraffic : f.IsTraffic ∨ (∃ code, f = .unknown code) → ∃ cl' sv',
      Good cl' sv' ⟨handleFrame End.client.channel .initiator f d.node, d.handOver .client⟩ := by
    intro hf'
    have ht := handleFrame_traded h.ready h.client .initiator hf' (hopen .client)
    refine h.traded ht hlater hopen ⟨h.up.within, ?_⟩ ?_
    · rw [on, if_neg channel_ne, List.append_nil]
      exact h.up.arrived
    · rw [on_self]
      exact h.down.next hf
  have hrefused : ∀ fault, ¬ (raise End.client.channel fault d.node).OpenAt End.client.channel :=
    not_open_raiseWith ⟨cl, h.client, hw⟩
  cases f with
  | fetch | send | requestAcknowledgment | acknowledge => exact htraffic (.inl trivial)
  | unknown code => exact htraffic (.inr ⟨code, rfl⟩)
  | detach => exact absurd rfl hstays
  | attach | authenticate => exact absurd (hopen .client) (hrefused _)
  | session id =>
    cases id with
    | none => exact absurd (hopen .client) (hrefused _)
    | some id =>
      obtain ⟨cl', hgood⟩ := (h.skip_client hf rfl).sessionCreated (hopen .client)
      exact ⟨cl', sv, hgood⟩
  | identify a =>
    cases a with
    | none => exact absurd (hopen .client) (hrefused _)
    | some a =>
      obtain ⟨cl', hgood⟩ := (h.skip_client hf rfl).identityReceived hmem (hopen .client)
      exact ⟨cl', sv, hgood⟩

theorem deliver_server (hf : cl.spoken[d.handed .client]? = some f)
    (hopen : ∀ e : End, (deliverFrame End.server.channel d.node f).OpenAt e.channel) :
    ∃ cl' sv', Good cl' sv' ⟨deliverFrame End.server.channel d.node f, d.handOver .server⟩ := by
  have hmem : f ∈ cl.spoken := List.mem_of_getElem? hf
  have hstays : f ≠ .detach := fun heq => h.shaken.clientStays (heq ▸ hmem)
  have hlater := later_deliverFrame End.server.channel d.node f
  have heq := deliverFrame_of_open h.ready h.server hstays (hopen .server)
  rw [h.serverRole] at heq
  rw [heq] at hopen hlater ⊢
  obtain ⟨w, l, hw⟩ := h.serverWired
  have htraffic : f.IsTraffic ∨ (∃ code, f = .unknown code) → ∃ cl' sv',
      Good cl' sv' ⟨handleFrame End.server.channel .responder f d.node, d.handOver .server⟩ := by
    intro hf'
    have ht := handleFrame_traded h.ready h.server .responder hf' (hopen .server)
    refine h.traded ht hlater hopen ?_ ⟨h.down.within, ?_⟩
    · rw [on_self]
      exact h.up.next hf
    · rw [on, if_neg channel_ne.symm, List.append_nil]
      exact h.down.arrived
  have hrefused : ∀ fault, ¬ (raise End.server.channel fault d.node).OpenAt End.server.channel :=
    not_open_raiseWith ⟨sv, h.server, hw⟩
  cases f with
  | fetch | send | requestAcknowledgment | acknowledge => exact htraffic (.inl trivial)
  | unknown code => exact htraffic (.inr ⟨code, rfl⟩)
  | detach => exact absurd rfl hstays
  | session reply | identify reply =>
    cases reply with
    | none | some => exact absurd (hopen .server) (hrefused _)
  | attach a =>
    obtain ⟨sv', hgood⟩ := (h.skip_server hf rfl).attachRequested (hopen .server)
    exact ⟨cl, sv', hgood⟩
  | authenticate credential =>
    obtain ⟨sv', hgood⟩ := (h.skip_server hf rfl).credentialReceived hmem (hopen .server)
    exact ⟨cl, sv', hgood⟩

end next

/-! ## Every move -/

theorem named (h : Good cl sv d) {e : End}
    (hphase : (d.channel? e).map (·.session.phase) = some .identified) :
    d.node.identity? e.channel ≠ none := by
  cases e with
  | client =>
    rw [channel?, h.client] at hphase
    rw [identity?_eq h.client]
    exact h.shaken.client.2 (Option.some.inj hphase)
  | server =>
    rw [channel?, h.server] at hphase
    rw [identity?_eq h.server]
    exact h.shaken.server.2 (Option.some.inj hphase)

/-- A move that leaves both ends open leaves books that balance. -/
theorem move (h : Good cl sv d) (m : DuplexMove) (hopen : (d.move m).BothOpen) :
    ∃ cl' sv', Good cl' sv' (d.move m) := by
  cases m with
  | greet e =>
    cases e with
    | client => exact h.greet_client hopen
    | server => exact h.greet_server hopen
  | send e ps =>
    by_cases hphase : (d.channel? e).map (·.session.phase) = some .identified
    · have hmove : d.move (.send e ps) =
          { d with node := ((sendPackets e.channel ps).apply d.node).2 } := if_pos hphase
      rw [hmove] at hopen ⊢
      exact h.quiet (h.ready.sendPackets e.channel ps (h.named hphase))
        (later_rule.telling.sendPackets e.channel ps d.node) hopen
    · have hmove : d.move (.send e ps) = d := if_neg hphase
      rw [hmove]
      exact ⟨cl, sv, h⟩
  | route p => exact h.quiet (h.ready.routePacket p) (later_rule.telling.routePacket p d.node) hopen
  | fetch e =>
    refine h.quiet ?_ (later_rule.writeFrame e.channel _ d.node) hopen
    exact Node.Ready.writeFrame e.channel trivial regular_fetch rfl fun _ heq => nomatch heq
  | ask e =>
    refine h.quiet ?_ (later_rule.writeFrame e.channel _ d.node) hopen
    exact Node.Ready.writeFrame e.channel trivial regular_requestAcknowledgment rfl
      fun _ heq => nomatch heq
  | deliver e =>
    cases hnext : d.next? e with
    | none =>
      have hmove : d.move (.deliver e) = d := by rw [Duplex.move, hnext]
      rw [hmove]
      exact ⟨cl, sv, h⟩
    | some f =>
      have hmove : d.move (.deliver e) = ⟨deliverFrame e.channel d.node f, d.handOver e⟩ := by
        rw [Duplex.move, hnext]
      rw [hmove] at hopen ⊢
      cases e with
      | client =>
        rw [next?, spoken, channel?, End.other, h.server] at hnext
        exact h.deliver_client hnext hopen
      | server =>
        rw [next?, spoken, channel?, End.other, h.client] at hnext
        exact h.deliver_server hnext hopen

end Good

/-! ## Every run -/

theorem later_move (d : Duplex σ) (m : DuplexMove) : d.node.Later (d.move m).node := by
  cases m with
  | greet e => exact later_rule.telling.greet e.channel d.node
  | send e ps =>
    unfold Duplex.move
    simp only []
    split
    · exact later_rule.telling.sendPackets e.channel ps d.node
    · exact .refl _
  | route p => exact later_rule.telling.routePacket p d.node
  | fetch e => exact later_rule.writeFrame e.channel _ d.node
  | ask e => exact later_rule.writeFrame e.channel _ d.node
  | deliver e =>
    unfold Duplex.move
    simp only []
    split
    · exact later_deliverFrame e.channel d.node _
    · exact .refl _

theorem later_run (d : Duplex σ) (moves : List DuplexMove) : d.node.Later (d.run moves).node := by
  induction moves generalizing d with
  | nil => exact .refl d.node
  | cons m moves ih => exact (d.later_move m).trans (ih (d.move m))

/-- What every move keeps that leaves both ends open, every run keeps that does. -/
theorem run_of_open {P : Duplex σ → Prop}
    (hmove : ∀ (d : Duplex σ) (m : DuplexMove), P d → (d.move m).BothOpen → P (d.move m))
    (moves : List DuplexMove) (hd : P d) (hopen : (d.run moves).BothOpen) : P (d.run moves) := by
  induction moves generalizing d with
  | nil => exact hd
  | cons m moves ih =>
    -- Ends that are open at last were open after the first move.
    have hfirst : (d.move m).BothOpen := fun e => (hopen e).before ((d.move m).later_run moves)
    exact ih (hmove d m hd hfirst) hopen

theorem balanced_start {a b : Channel σ} (ha : a.spoken = []) (hb : b.spoken = [])
    (hledger : a.ledger = .empty) (hledger' : b.ledger = .empty) : Balanced a b [] 0 := by
  refine ⟨Nat.zero_le _, ?_, ?_, ?_, ?_, ?_, ?_⟩
  · rw [ha]
    rfl
  · rw [ha, hledger]
    rfl
  · rw [hledger']
    rfl
  · rw [hledger]
    exact List.nil_sublist _
  · rw [hb]
    exact fun _ hmem => nomatch hmem
  · rw [ha]
    exact fun hne => absurd rfl hne

theorem good_start (policy : σ) (cw : ClientWiring) (sw : ServerWiring σ) (now : Nat) :
    ∃ cl sv, Good cl sv (start policy cw sw now) := by
  have hcw : (Channel.start (.start .initiator now cw.timing) cw.pipeline : Channel σ).Wired .empty
      (clientRest cw) := ⟨client_pipeline_eq cw, plain_clientRest cw⟩
  have hsw : (Channel.start (.start .responder now sw.timing) sw.pipeline).Wired .empty
      (serverRest sw) := ⟨server_pipeline_eq sw, plain_serverRest sw⟩
  have hchannels : ∀ c ch, (start policy cw sw now).node.channel? c = some ch →
      ch = .start (.start .initiator now cw.timing) cw.pipeline ∨
        ch = .start (.start .responder now sw.timing) sw.pipeline := by
    intro c ch hch
    have hmem : ch ∈ (start policy cw sw now).node.channels := List.mem_of_getElem? hch
    obtain heq | hmem := List.mem_cons.1 hmem
    · exact .inl heq
    · exact .inr (List.mem_singleton.1 hmem)
  refine ⟨_, _, ⟨?_, ?_, AddressMap.all_empty _⟩, rfl, rfl, ⟨cw, _, hcw⟩, ⟨sw, _, hsw⟩, rfl,
    rfl, ?_,
    balanced_start rfl rfl hcw.ledger_eq hsw.ledger_eq,
    balanced_start rfl rfl hsw.ledger_eq hcw.ledger_eq⟩
  · intro c ch hch
    obtain rfl | rfl := hchannels c ch hch
    · exact ⟨_, _, hcw⟩
    · exact ⟨_, _, hsw⟩
  · intro c ch hch
    obtain rfl | rfl := hchannels c ch hch <;> rfl
  · refine ⟨⟨fun h => absurd rfl h, fun h => nomatch h⟩,
      ⟨fun h => absurd rfl h, fun h => nomatch h⟩, fun h => absurd rfl h, fun h => absurd rfl h,
      ?_, ?_, ?_, ?_⟩
    · exact fun _ hmem => nomatch hmem
    · exact fun _ hmem => nomatch hmem
    · exact fun hmem => nomatch hmem
    · exact fun hmem => nomatch hmem

/-- The books balance at the end of every run that leaves both ends open. -/
theorem good_run (policy : σ) (cw : ClientWiring) (sw : ServerWiring σ) (now : Nat)
    (moves : List DuplexMove) (hopen : ((start policy cw sw now).run moves).BothOpen) :
    ∃ cl sv, Good cl sv ((start policy cw sw now).run moves) := by
  have hmove : ∀ (d : Duplex σ) (m : DuplexMove), (∃ cl sv, Good cl sv d) →
      (d.move m).BothOpen → ∃ cl sv, Good cl sv (d.move m) := by
    rintro d m ⟨cl, sv, hgood⟩ hopen
    exact hgood.move m hopen
  exact run_of_open hmove moves (good_start policy cw sw now) hopen

end Duplex
end Courier
