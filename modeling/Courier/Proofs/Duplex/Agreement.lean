import Courier.Proofs.Duplex.Delivering

/-! # How far the two handshakes have come

The phase of an end tells how many frames of the handshake it has said and how many it has taken off
its link (`Duplex.Paced`). So no frame of the handshake is under way once both ends are identified
(`Duplex.Paced.handshaken`).
-/
set_option autoImplicit false

namespace Courier

open Courier.Wire Courier.Wire.Frame Courier.Routing

variable {σ : Type} {n' : Node σ} {cl sv ch ch' : Channel σ} {d d' : Duplex σ} {e : End}
  {f : Frame} {fs fs' : List Frame} {s : Session} {l : Ledger}

/-- A frame that belongs to the handshake, or the goodbye. -/
def Wire.Frame.isFormal : Frame → Bool
  | .fetch | .send _ | .requestAcknowledgment | .acknowledge _ | .unknown _ => false
  | _ => true

theorem Wire.Frame.isFormal_eq_false :
    f.isFormal = false ↔ f.IsTraffic ∨ ∃ code, f = .unknown code := by
  cases f <;> simp [isFormal, IsTraffic]

/-- How many of these frames are formal. -/
def formal (fs : List Frame) : Nat := fs.countP isFormal

theorem formal_append (fs fs' : List Frame) : formal (fs ++ fs') = formal fs + formal fs' :=
  List.countP_append

theorem formal_eq_zero : formal fs = 0 ↔ ∀ f ∈ fs, f.isFormal = false := by
  simp [formal, List.countP_eq_zero]

/-- The frames of the handshake that an end has said by a phase. -/
def Phase.said : Phase → Nat
  | unconnected | connected | closed => 0
  | attached | established => 1
  | authenticated | identified => 2

/-- The frames of the handshake that an end has taken by a phase. -/
def Phase.taken : Phase → Nat
  | unconnected | connected | attached | closed => 0
  | established | authenticated => 1
  | identified => 2

namespace Duplex

/-- The frames that an end has taken off its link. -/
def taken (d : Duplex σ) (e : End) : List Frame := (d.spoken e.other).take (d.handed e.other)

/-- The frames on the way to an end. -/
def link (d : Duplex σ) (e : End) : List Frame := (d.spoken e.other).drop (d.handed e.other)

theorem taken_append_link (d : Duplex σ) (e : End) : d.taken e ++ d.link e = d.spoken e.other :=
  List.take_append_drop _ _

theorem head?_link (d : Duplex σ) (e : End) : (d.link e).head? = d.next? e := List.head?_drop ..

theorem mem_link (hf : d.next? e = some f) : f ∈ d.link e := by
  rw [← head?_link] at hf
  exact List.mem_of_mem_head? hf

theorem taken_of_append (hwithin : d.handed e.other ≤ (d.spoken e.other).length)
    (hspoken : d'.spoken e.other = d.spoken e.other ++ fs)
    (hhanded : d'.handed e.other = d.handed e.other) : d'.taken e = d.taken e := by
  rw [taken, taken, hspoken, hhanded, List.take_append_of_le_length hwithin]

theorem taken_of_next (hf : d.next? e = some f)
    (hspoken : d'.spoken e.other = d.spoken e.other ++ fs)
    (hhanded : d'.handed e.other = d.handed e.other + 1) : d'.taken e = d.taken e ++ [f] := by
  obtain ⟨hlt, -⟩ := List.getElem?_eq_some_iff.1 hf
  rw [taken, taken, hspoken, hhanded, List.take_append_of_le_length hlt, List.take_add_one]
  exact congrArg (_ ++ ·) (congrArg Option.toList hf)

theorem handOver_self (d : Duplex σ) (e : End) : d.handOver e e.other = d.handed e.other + 1 :=
  if_pos rfl

theorem handOver_other (d : Duplex σ) (e : End) : d.handOver e e = d.handed e :=
  if_neg e.other_ne.symm

theorem Good.exists_channel (h : Good cl sv d) (e : End) : ∃ ch, d.channel? e = some ch := by
  obtain ⟨a, -, ha, -⟩ := h.balanced e
  exact ⟨a, ha⟩

theorem Good.within (h : Good cl sv d) (e : End) : d.handed e ≤ (d.spoken e).length := by
  obtain ⟨a, b, ha, -, hbalanced⟩ := h.balanced e
  rw [spoken_eq ha]
  exact hbalanced.within

/-! ## Pace -/

/-- Each end has said and taken as many frames of the handshake as its phase tells. -/
def Paced (d : Duplex σ) : Prop := ∀ e ch, d.channel? e = some ch →
  formal ch.spoken = ch.session.phase.said ∧ formal (d.taken e) = ch.session.phase.taken

namespace Paced

theorem handshaken (h : d.Paced) (hgood : Good cl sv d)
    (hidentified : ∀ e, (d.channel? e).map (·.session.phase) = some .identified) (e : End) :
    ∀ f ∈ d.link e, f.isFormal = false := by
  have hphase : ∀ e ch, d.channel? e = some ch → ch.session.phase = .identified := by
    intro e ch hch
    have hmap := hidentified e
    rw [hch] at hmap
    exact Option.some.inj hmap
  obtain ⟨a, ha⟩ := hgood.exists_channel e
  obtain ⟨b, hb⟩ := hgood.exists_channel e.other
  -- Two frames of the handshake were said to this end, and it has taken two.
  have hsaid := (h e.other b hb).1
  have htaken := (h e a ha).2
  rw [hphase _ _ hb, ← spoken_eq hb, ← d.taken_append_link e, formal_append] at hsaid
  rw [hphase _ _ ha] at htaken
  apply formal_eq_zero.1
  change _ = 2 at htaken
  change _ = 2 at hsaid
  omega

/-- Traffic does not change what the phases tell. -/
theorem traded (h : d.Paced) (hgood : Good cl sv d) {got : ChannelId → List Packet}
    (ht : d.node.Traded got n') (hopen : ∀ e : End, n'.OpenAt e.channel) {handed : End → Nat}
    (htaken : ∀ e fs, (Duplex.mk n' handed).spoken e.other = d.spoken e.other ++ fs →
      ∃ gs, (Duplex.mk n' handed).taken e = d.taken e ++ gs ∧ formal gs = 0) :
    (Duplex.mk n' handed).Paced := by
  have hch : ∀ e, ∃ ch ch' fs, d.channel? e = some ch ∧ n'.channel? e.channel = some ch' ∧
      ch'.session = ch.session ∧ ch'.spoken = ch.spoken ++ fs ∧ formal fs = 0 := by
    intro e
    obtain ⟨ch, hch⟩ := hgood.exists_channel e
    obtain ⟨ch', hch', htraded⟩ := ht.channel _ ch hch
    obtain ⟨fs, htraded⟩ := htraded (hopen e ch' hch')
    exact ⟨ch, ch', fs, hch, hch', htraded.session, htraded.spoken,
      formal_eq_zero.2 fun f hf => isFormal_eq_false.2 (.inl (htraded.traffic f hf))⟩
  intro e ch₀ hch₀
  obtain ⟨ch, ch', fs, hself, hself', hsession, hspoken, hfs⟩ := hch e
  cases hself'.symm.trans hch₀
  obtain ⟨b, b', fs', hother, hother', -, hspoken', -⟩ := hch e.other
  obtain ⟨gs, hgs, hformal⟩ := htaken e fs' (by
    rw [spoken_eq hother, spoken_eq (d := ⟨n', handed⟩) hother', hspoken'])
  obtain ⟨hsaid, htook⟩ := h e ch hself
  rw [hspoken, hsession, hgs, formal_append, formal_append, hfs, hformal]
  exact ⟨hsaid, htook⟩

/-- Traffic that takes nothing off a link. -/
theorem quiet (h : d.Paced) (hgood : Good cl sv d) (ht : d.node.Traded (fun _ => []) n')
    (hopen : ∀ e : End, n'.OpenAt e.channel) : Paced { d with node := n' } := by
  refine h.traded hgood ht hopen fun e fs hfs => ⟨[], ?_, rfl⟩
  rw [List.append_nil]
  exact taken_of_append (hgood.within _) hfs rfl

/-- A frame that is not formal is taken off a link. -/
theorem next (h : d.Paced) (hgood : Good cl sv d) {got : ChannelId → List Packet}
    (ht : d.node.Traded got n') (hopen : ∀ e : End, n'.OpenAt e.channel)
    (hf : d.next? e = some f) (hplain : f.isFormal = false) : Paced ⟨n', d.handOver e⟩ := by
  refine h.traded hgood ht hopen fun x fs hfs => ?_
  obtain rfl | rfl := e.eq_or_eq_other x
  · refine ⟨[f], taken_of_next hf hfs (d.handOver_self x), ?_⟩
    exact formal_eq_zero.2 fun g hg => List.mem_singleton.1 hg ▸ hplain
  · refine ⟨[], ?_, rfl⟩
    rw [List.append_nil]
    refine taken_of_append (hgood.within _) hfs ?_
    show d.handOver e e.other.other = d.handed e.other.other
    rw [End.other_other, handOver_other]

/-- One end takes a turn of its handshake, of its own accord or on a frame. -/
theorem turns (h : d.Paced) (hgood : Good cl sv d) (hch : d.channel? e = some ch)
    (hself : n'.channel? e.channel = some ch')
    (hother : n'.channel? e.other.channel = d.node.channel? e.other.channel)
    (ht : ch.Turns s l fs ch') {handed : End → Nat} {gs : List Frame}
    (htaken : (Duplex.mk n' handed).taken e = d.taken e ++ gs) (hhanded : handed e = d.handed e)
    (hsaid : s.phase.said = ch.session.phase.said + formal fs)
    (htook : s.phase.taken = ch.session.phase.taken + formal gs) :
    (Duplex.mk n' handed).Paced := by
  have hspoken : (Duplex.mk n' handed).spoken e = d.spoken e ++ fs := by
    rw [spoken_eq (d := ⟨n', handed⟩) hself, spoken_eq hch, ht.spoken]
  intro x ch₀ hch₀
  obtain rfl | rfl := e.eq_or_eq_other x
  · cases hself.symm.trans hch₀
    obtain ⟨hsaid', htook'⟩ := h x ch hch
    rw [ht.spoken, ht.session, htaken, formal_append, formal_append, hsaid', htook', hsaid, htook]
    exact ⟨rfl, rfl⟩
  · have hch₁ : d.channel? e.other = some ch₀ := hother.symm.trans hch₀
    have hsame : (Duplex.mk n' handed).taken e.other = d.taken e.other := by
      have hmore : (Duplex.mk n' handed).spoken e.other.other =
          d.spoken e.other.other ++ fs := by
        rw [End.other_other, hspoken]
      refine taken_of_append (hgood.within _) hmore ?_
      rw [End.other_other]
      exact hhanded
    rw [hsame]
    exact h e.other ch₀ hch₁

variable (h : d.Paced) (hgood : Good cl sv d) (hch : d.channel? e = some ch)
  (hself : n'.channel? e.channel = some ch')
  (hother : n'.channel? e.other.channel = d.node.channel? e.other.channel)
  (ht : ch.Turns s l fs ch')

include h hgood hch hself hother ht

/-- One end takes a turn of its accord. -/
theorem turns_unasked (hsaid : s.phase.said = ch.session.phase.said + formal fs)
    (htook : s.phase.taken = ch.session.phase.taken) : Paced { d with node := n' } := by
  have hspoken : ({ d with node := n' } : Duplex σ).spoken e.other = d.spoken e.other ++ [] := by
    rw [List.append_nil, spoken, spoken, channel?, channel?, hother]
  have htaken : ({ d with node := n' } : Duplex σ).taken e = d.taken e ++ [] := by
    rw [List.append_nil]
    exact taken_of_append (hgood.within _) hspoken rfl
  exact h.turns hgood hch hself hother ht htaken rfl hsaid htook

/-- One end takes a turn because of the next frame of its link. -/
theorem turns_on (hf : d.next? e = some f)
    (hsaid : s.phase.said = ch.session.phase.said + formal fs)
    (htook : s.phase.taken = ch.session.phase.taken + formal [f]) :
    Paced ⟨n', d.handOver e⟩ := by
  have hspoken : (Duplex.mk n' (d.handOver e)).spoken e.other = d.spoken e.other ++ [] := by
    rw [List.append_nil, spoken, spoken, channel?, channel?, hother]
  have htaken := taken_of_next hf hspoken (d.handOver_self e)
  exact h.turns hgood hch hself hother ht htaken (d.handOver_other e) hsaid htook

end Paced

/-! ## Every move keeps the pace -/

namespace Good

variable (h : Good cl sv d) (hp : d.Paced)

include h hp

theorem paced_greet (hopen : (d.move (.greet e)).BothOpen) : (d.move (.greet e)).Paced := by
  cases e with
  | client =>
    obtain ⟨w, l, hw⟩ := h.clientWired
    obtain ⟨hphase, cl', hb, ht⟩ := client_greet h.client hw h.clientRole (hopen .client)
    have hother := hb.others End.server.channel channel_ne
    refine hp.turns_unasked h h.client hb.self hother ht ?_ ?_
    all_goals rw [hphase]; rfl
  | server =>
    obtain ⟨w, l, hw⟩ := h.serverWired
    obtain ⟨hphase, sv', hb, ht⟩ := server_greet h.server hw h.serverRole (hopen .server)
    have hother := hb.others End.client.channel channel_ne.symm
    refine hp.turns_unasked h h.server hb.self hother ht ?_ ?_
    all_goals rw [hphase]; rfl

theorem paced_deliver_client (hf : d.next? .client = some f)
    (hopen : ∀ e : End, (deliverFrame End.client.channel d.node f).OpenAt e.channel) :
    Paced ⟨deliverFrame End.client.channel d.node f, d.handOver .client⟩ := by
  have hmem : f ∈ sv.spoken := by
    have hspoken : d.spoken .server = sv.spoken := spoken_eq h.server
    exact hspoken ▸ List.mem_of_getElem? hf
  have hstays : f ≠ .detach := fun heq => h.shaken.serverStays (heq ▸ hmem)
  have heq := deliverFrame_of_open h.ready h.client hstays (hopen .client)
  rw [h.clientRole] at heq
  rw [heq] at hopen ⊢
  obtain ⟨w, l, hw⟩ := h.clientWired
  have hrefused : ∀ fault, ¬ (raise End.client.channel fault d.node).OpenAt End.client.channel :=
    not_open_raiseWith ⟨cl, h.client, hw⟩
  by_cases hplain : f.isFormal = false
  · have ht := handleFrame_traded h.ready h.client _ (isFormal_eq_false.1 hplain) (hopen .client)
    exact hp.next h ht hopen hf hplain
  cases f with
  | fetch | send | requestAcknowledgment | acknowledge | unknown => exact absurd rfl hplain
  | detach => exact absurd rfl hstays
  | attach | authenticate => exact absurd (hopen .client) (hrefused _)
  | session id =>
    cases id with
    | none => exact absurd (hopen .client) (hrefused _)
    | some id =>
      obtain ⟨hphase, cl', hb, ht⟩ := client_sessionCreated h.client hw h.clientRole (hopen .client)
      refine hp.turns_on h h.client hb.self (hb.others _ channel_ne) ht hf ?_ ?_
      all_goals rw [hphase]; rfl
  | identify a =>
    cases a with
    | none => exact absurd (hopen .client) (hrefused _)
    | some a =>
      obtain ⟨hphase, cl', hb, ht⟩ :=
        client_identityReceived h.client hw h.clientRole (hopen .client)
      refine hp.turns_on h h.client hb.self (hb.others _ channel_ne) ht hf ?_ ?_
      all_goals rw [hphase]; rfl

theorem paced_deliver_server (hf : d.next? .server = some f)
    (hopen : ∀ e : End, (deliverFrame End.server.channel d.node f).OpenAt e.channel) :
    Paced ⟨deliverFrame End.server.channel d.node f, d.handOver .server⟩ := by
  have hmem : f ∈ cl.spoken := by
    have hspoken : d.spoken .client = cl.spoken := spoken_eq h.client
    exact hspoken ▸ List.mem_of_getElem? hf
  have hstays : f ≠ .detach := fun heq => h.shaken.clientStays (heq ▸ hmem)
  have heq := deliverFrame_of_open h.ready h.server hstays (hopen .server)
  rw [h.serverRole] at heq
  rw [heq] at hopen ⊢
  obtain ⟨w, l, hw⟩ := h.serverWired
  have hrefused : ∀ fault, ¬ (raise End.server.channel fault d.node).OpenAt End.server.channel :=
    not_open_raiseWith ⟨sv, h.server, hw⟩
  by_cases hplain : f.isFormal = false
  · have ht := handleFrame_traded h.ready h.server _ (isFormal_eq_false.1 hplain) (hopen .server)
    exact hp.next h ht hopen hf hplain
  cases f with
  | fetch | send | requestAcknowledgment | acknowledge | unknown => exact absurd rfl hplain
  | detach => exact absurd rfl hstays
  | session reply | identify reply =>
    cases reply with
    | none | some => exact absurd (hopen .server) (hrefused _)
  | attach a =>
    obtain ⟨hphase, id, sv', hb, ht⟩ := server_attachRequested h.server hw (hopen .server)
    refine hp.turns_on h h.server hb.self (hb.others _ channel_ne.symm) ht hf ?_ ?_
    all_goals rw [hphase]; rfl
  | authenticate credential =>
    obtain ⟨hphase, a, sv', n₁, hb, heq, ht⟩ :=
      server_credentialReceived h.server hw (hopen .server)
    have hpaced : Paced ⟨n₁, d.handOver .server⟩ := by
      refine hp.turns_on h h.server hb.self (hb.others _ channel_ne.symm) ht hf ?_ ?_
      all_goals rw [hphase]; rfl
    show Paced ⟨dispatch End.server.channel (.credentialReceived credential) d.node, _⟩
    rw [heq]
    exact hpaced

theorem paced_move (m : DuplexMove) (hopen : (d.move m).BothOpen) : (d.move m).Paced := by
  cases m with
  | greet e => exact h.paced_greet hp hopen
  | send e ps =>
    by_cases hphase : (d.channel? e).map (·.session.phase) = some .identified
    · have hmove : d.move (.send e ps) =
          { d with node := ((sendPackets e.channel ps).apply d.node).2 } := if_pos hphase
      rw [hmove] at hopen ⊢
      exact hp.quiet h (h.ready.sendPackets e.channel ps (h.named hphase)) hopen
    · have hmove : d.move (.send e ps) = d := if_neg hphase
      rw [hmove]
      exact hp
  | route p => exact hp.quiet h (h.ready.routePacket p) hopen
  | fetch e =>
    exact hp.quiet h (Node.Ready.writeFrame e.channel trivial regular_fetch rfl
      fun _ heq => nomatch heq) hopen
  | ask e =>
    exact hp.quiet h (Node.Ready.writeFrame e.channel trivial regular_requestAcknowledgment rfl
      fun _ heq => nomatch heq) hopen
  | deliver e =>
    cases hnext : d.next? e with
    | none =>
      have hmove : d.move (.deliver e) = d := by rw [Duplex.move, hnext]
      rw [hmove]
      exact hp
    | some f =>
      have hmove : d.move (.deliver e) = ⟨deliverFrame e.channel d.node f, d.handOver e⟩ := by
        rw [Duplex.move, hnext]
      rw [hmove] at hopen ⊢
      cases e with
      | client => exact h.paced_deliver_client hp hnext hopen
      | server => exact h.paced_deliver_server hp hnext hopen

end Good

theorem paced_start (policy : σ) (cw : ClientWiring) (sw : ServerWiring σ) (now : Nat) :
    (start policy cw sw now).Paced := by
  intro e ch hch
  cases e <;> cases hch <;> exact ⟨rfl, rfl⟩

theorem paced_run (policy : σ) (cw : ClientWiring) (sw : ServerWiring σ) (now : Nat)
    (moves : List DuplexMove) (hopen : ((start policy cw sw now).run moves).BothOpen) :
    ((start policy cw sw now).run moves).Paced := by
  have hmove : ∀ (d : Duplex σ) (m : DuplexMove), ((∃ cl sv, Good cl sv d) ∧ d.Paced) →
      (d.move m).BothOpen → (∃ cl sv, Good cl sv (d.move m)) ∧ (d.move m).Paced := by
    rintro d m ⟨⟨cl, sv, hgood⟩, hpaced⟩ hopen
    exact ⟨hgood.move m hopen, hgood.paced_move hpaced m hopen⟩
  exact (run_of_open hmove moves ⟨good_start policy cw sw now, paced_start policy cw sw now⟩
    hopen).2

end Duplex
end Courier
