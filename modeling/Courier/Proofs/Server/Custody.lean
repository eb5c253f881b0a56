import Courier.Proofs.Duplex.Books
import Courier.Proofs.Routing.Views
import Courier.Proofs.Server.Changes

/-! # Where routed packets are kept

A packet that a server has received and routed is kept: it waits in the mailbox of its recipient, or
a channel with the recipient's identity holds it unacknowledged (`Node.Keeps`). Nothing but an
acknowledgment of the number of packets that such a channel has transmitted ends that
(`received_packets_are_kept`). A channel that holds a packet may be finished, though, and nobody
puts the packet back in the mailbox then (`lost_with_connection`).
-/
set_option autoImplicit false

namespace Courier

open Courier.Wire Courier.Wire.Frame Courier.Routing

variable {σ : Type} {n n' : Node σ} {c : ChannelId} {ch ch' : Channel σ} {p : Packet}

/-! ## Keeping -/

/-- A channel with the packet's recipient for its identity holds the packet. -/
def Channel.Holds (ch : Channel σ) (p : Packet) : Prop :=
  ch.session.identity = some p.recipient ∧ p ∈ ch.ledger.unacknowledged

def Node.Keeps (n : Node σ) (p : Packet) : Prop :=
  p ∈ n.registry.waiting p.recipient ∨ ∃ c ch, n.channel? c = some ch ∧ ch.Holds p

namespace Channel.Holds

theorem of_prefix (h : ch.Holds p) (hidentity : ch'.session.identity = ch.session.identity)
    (hheld : ch.ledger.unacknowledged <+: ch'.ledger.unacknowledged) : ch'.Holds p :=
  ⟨hidentity.trans h.1, hheld.subset h.2⟩

theorem of_same (h : ch.Holds p) (hidentity : ch'.session.identity = ch.session.identity)
    (hreactors : ch'.reactors = ch.reactors) : ch'.Holds p := by
  have hledger : ch'.ledger = ch.ledger := by rw [ledger, ledger, ledger?, ledger?, hreactors]
  exact h.of_prefix hidentity (hledger ▸ List.prefix_rfl)

theorem of_over (h : ch.Holds p) (hover : ch.Over ch') : ch'.Holds p := by
  refine h.of_same ?_ hover.reactors
  rw [hover.session]
  rfl

theorem of_act {may : Packet → Prop} (h : ch.Holds p) (hact : ch.Act may False ch') :
    ch'.Holds p := h.of_prefix hact.identity hact.holds

end Channel.Holds

/-- The mailboxes stay proper, and whatever is kept is kept still. -/
structure Node.StillKeeps (n n' : Node σ) : Prop where
  proper : n'.registry.Proper
  keeps : ∀ p, n.Keeps p → n'.Keeps p

namespace Node.StillKeeps

theorem of_channels (hchannels : n'.channels = n.channels) (hproper : n'.registry.Proper)
    (hwaiting : ∀ a, n.registry.waiting a ⊆ n'.registry.waiting a) : n.StillKeeps n' := by
  refine ⟨hproper, ?_⟩
  rintro p (hp | ⟨c, ch, hch, hholds⟩)
  · exact .inl (hwaiting _ hp)
  · refine .inr ⟨c, ch, ?_, hholds⟩
    rw [channel?, hchannels]
    exact hch

/-- Some channel holds the packet still, if one becomes another that holds it when the first did. -/
theorem exists_holds (hch : n.channel? c = some ch) (hself : n'.channel? c = some ch')
    (hothers : ∀ c', c' ≠ c → n'.channel? c' = n.channel? c') (hholds : ch.Holds p → ch'.Holds p)
    (h : ∃ c ch, n.channel? c = some ch ∧ ch.Holds p) :
    ∃ c ch, n'.channel? c = some ch ∧ ch.Holds p := by
  obtain ⟨c', ch₀, hch₀, hp⟩ := h
  by_cases hc : c' = c
  · subst hc
    rw [hch] at hch₀
    cases hch₀
    exact ⟨c', ch', hself, hholds hp⟩
  · exact ⟨c', ch₀, (hothers c' hc).trans hch₀, hp⟩

/-- One channel becomes another that holds what it held; the others stay. -/
theorem replace (hch : n.channel? c = some ch) (hself : n'.channel? c = some ch')
    (hothers : ∀ c', c' ≠ c → n'.channel? c' = n.channel? c') (hproper : n'.registry.Proper)
    (hwaiting : ∀ a, n.registry.waiting a ⊆ n'.registry.waiting a)
    (hholds : ∀ p, ch.Holds p → ch'.Holds p) : n.StillKeeps n' := by
  refine ⟨hproper, ?_⟩
  rintro p (hp | hp)
  · exact .inl (hwaiting _ hp)
  · exact .inr (exists_holds hch hself hothers (hholds p) hp)

theorem modify (hproper : n.registry.Proper) (hch : n.channel? c = some ch)
    (hholds : ∀ p, ch.Holds p → ch'.Holds p) : n.StillKeeps (n.modify c fun _ => ch') :=
  replace hch (channel?_modify_of_some hch _) (fun _ hc => n.channel?_modify_of_ne _ hc) hproper
    (fun _ _ hp => hp) hholds

end Node.StillKeeps

/-! ## Every change but a clearing acknowledgment -/

theorem holds_of_anonymous (hnone : ch.session.identity = none) : ¬ ch.Holds p := by
  rintro ⟨hidentity, -⟩
  rw [hnone] at hidentity
  cases hidentity

/-- What waits for a channel's identity is handed to the channel, which holds it then. -/
theorem stillKeeps_handOver {l : Ledger} {rest : List (Reactor σ)} {a : Address}
    (hch : n.channel? c = some ch) (hw : ch.Wired l rest) (ha : ch.session.identity = some a)
    (hproper : n.registry.Proper) :
    n.StillKeeps ({ n with registry := (n.registry.takeAll a).2 }.modify c fun _ =>
      (ch.say (sends (n.registry.waiting a))).setLedger
        ((n.registry.waiting a).foldl Ledger.recordSent l)) := by
  generalize hlast : (ch.say (sends (n.registry.waiting a))).setLedger
    ((n.registry.waiting a).foldl Ledger.recordSent l) = ch'
  have hidentity : ch'.session.identity = ch.session.identity := by
    rw [← hlast]
    rfl
  have hledger :
      ch'.ledger.unacknowledged = ch.ledger.unacknowledged ++ n.registry.waiting a := by
    rw [← hlast, ((hw.say _).setLedger _).ledger_eq, Ledger.unacknowledged_foldl_recordSent,
      hw.ledger_eq]
  have hself := Node.channel?_modify_of_some
    (n := { n with registry := (n.registry.takeAll a).2 }) hch fun _ => ch'
  refine ⟨hproper.setWaiting a [], ?_⟩
  rintro p (hp | hp)
  · by_cases hrecipient : p.recipient = a
    · refine .inr ⟨c, ch', hself, ?_, ?_⟩
      · rw [hidentity, hrecipient]
        exact ha
      · rw [hledger, ← hrecipient]
        exact List.mem_append_right _ hp
    · left
      show p ∈ (n.registry.takeAll a).2.waiting p.recipient
      rw [hproper.waiting_takeAll, if_neg hrecipient]
      exact hp
  · refine .inr (Node.StillKeeps.exists_holds hch hself
      (fun _ hc => Node.channel?_modify_of_ne _ _ hc) (fun hholds => ?_) hp)
    refine hholds.of_prefix hidentity ?_
    rw [hledger]
    exact List.prefix_append _ _

theorem stillKeeps_law :
    ServerLaw True False fun n n' : Node σ => n.registry.Proper → n.StillKeeps n' where
  trans := by
    intro n n' n'' h h' hproper
    have hfirst := h hproper
    have hnext := h' hfirst.proper
    exact ⟨hnext.proper, fun p hp => hnext.keeps p (hfirst.keeps p hp)⟩
  quiet := by
    intro n n' hquiet hproper
    refine .of_channels hquiet.channels (hquiet.registry ▸ hproper) fun a p hp => ?_
    rw [hquiet.registry]
    exact hp
  act := fun hch hact hproper => .modify hproper hch fun _ hp => hp.of_act hact
  drop := by
    intro n c ch ch' l rest a hch hw hover hproper
    refine .replace hch (Node.channel?_modify_of_some hch _)
      (fun _ hc => n.channel?_modify_of_ne _ hc) (hproper.detach a c) ?_ fun _ hp => hp.of_over hover
    intro a' p hp
    show p ∈ (n.registry.detach a c).waiting a'
    rw [Registry.waiting_detach]
    exact hp
  lose := by
    intro n c a hch hproper
    refine .of_channels rfl (hproper.detach a c) fun a' p hp => ?_
    rw [Registry.waiting_detach]
    exact hp
  enqueue := by
    intro n p hproper
    refine .of_channels rfl (hproper.enqueue p) fun a q hq => ?_
    rw [hproper.waiting_enqueue]
    split
    · exact List.mem_append_left _ hq
    · exact hq
  handOver := fun hch hw _ ha _ hproper => stillKeeps_handOver hch hw ha hproper
  takeNone := by
    intro n a hnone hproper
    refine .of_channels rfl (hproper.setWaiting a []) fun a' p hp => ?_
    rw [hproper.waiting_takeAll]
    split
    · rename_i ha
      rw [ha, hnone] at hp
      exact hp
    · exact hp
  putBack := by
    intro n a hproper
    refine .of_channels rfl ((hproper.setWaiting a []).setWaiting a _) fun a' p hp => ?_
    rw [hproper.waiting_putBack]
    exact hp
  policy := fun _ _ hproper => .of_channels rfl hproper fun _ _ hp => hp
  heard := by
    intro _ n c ch l rest p hch hw hproper
    rw [heard_eq hch hw]
    have hnoted := (n.channel?_note c c .eventLog (.event (.packetReceived p))).trans hch
    refine .replace hch (Node.channel?_modify_of_some hnoted _) ?_ ?_ ?_ ?_
    · exact fun c' hc => (Node.channel?_modify_of_ne _ _ hc).trans (n.channel?_note c c' _ _)
    · show (n.note c _ _).registry.Proper
      rw [Node.registry_note]
      exact hproper
    · intro a q hq
      show q ∈ (n.note c _ _).registry.waiting a
      rw [Node.registry_note]
      exact hq
    · exact fun q hq => hq.of_prefix rfl (hw.prefix_of_eq (hw.setLedger _) rfl)
  prepare := by
    intro n n' c ch ch' hch hnone hprepares hbecomes hproper
    refine .replace hch hbecomes.self hbecomes.others (hbecomes.registry ▸ hproper) ?_
      fun p hp => absurd hp (holds_of_anonymous hnone)
    intro a p hp
    rw [hbecomes.registry]
    exact hp
  admits := by
    intro n n' c ch ch' a hch hnone hprepares hphase hbecomes hproper
    have hregistry : n'.registry.Proper := hbecomes.registry ▸ hproper
    refine .replace hch hbecomes.self hbecomes.others
      (hregistry.attach a c) ?_ fun p hp => absurd hp (holds_of_anonymous hnone)
    intro a' p hp
    show p ∈ n'.registry.waiting a'
    rw [hbecomes.registry]
    exact hp
  accept := by
    intro n w now hproper
    refine ⟨hproper, ?_⟩
    rintro p (hp | ⟨c, ch, hch, hp⟩)
    · exact .inl hp
    · exact .inr ⟨c, ch, channel?_accept w now hch, hp⟩
  finish := by
    intro n c ch ch' hch hover hproper
    refine .replace hch (Node.channel?_modify_of_some hch _)
      (fun _ hc => n.channel?_modify_of_ne _ hc) (hproper.release c) (fun _ _ hp => hp) ?_
    intro p hp
    have hmarked : ({ ch with finished := true } : Channel σ).Holds p := hp
    exact hmarked.of_over hover
  empty := fun hch hsession hreactors _ hproper => .modify hproper hch fun _ hp =>
    hp.of_same (by rw [hsession]) hreactors

/-- Nothing but a packet that arrives is reported as one. -/
theorem arrivals_law :
    ServerLaw False True fun n n' : Node σ => ∀ c, n'.arrivals c = n.arrivals c where
  trans := fun h h' c => (h' c).trans (h c)
  quiet := fun hquiet => hquiet.arrivals
  act := fun _ _ _ => rfl
  drop := fun _ _ _ _ _ => rfl
  lose := fun _ _ _ => rfl
  enqueue := fun _ _ _ => rfl
  handOver := fun _ _ _ _ _ _ => rfl
  takeNone := fun _ _ => rfl
  putBack := fun _ _ _ => rfl
  policy := fun _ _ _ => rfl
  heard := fun hnot => hnot.elim
  prepare := fun _ _ _ hbecomes => hbecomes.arrivals
  admits := fun _ _ _ _ hbecomes => hbecomes.arrivals
  accept := fun _ _ _ _ => rfl
  finish := fun _ _ _ => rfl
  empty := fun _ _ _ _ _ => rfl

/-! ## Packets that arrive -/

theorem keeps_offerPacket (h : Sound n) (hc : n.identity? c = some p.recipient)
    (htaken : (offerPacket .full p n c).1 = true) : (offerPacket .full p n c).2.Keeps p := by
  obtain ⟨ch, hch, hlive⟩ | hnot := live_or_not n c
  · obtain ⟨l, rest, hw⟩ := h.allWired c ch hch
    obtain ⟨n', hoffer, hquiet⟩ := offerPacket_of_wired hch hw hlive p
    rw [identity?_eq hch] at hc
    rw [hoffer]
    refine .inr ⟨c, _, (hquiet.channel? c).trans (Node.channel?_modify_of_some hch _), hc, ?_⟩
    rw [((hw.say _).setLedger _).ledger_eq]
    exact Ledger.unacknowledged_foldl_recordSent [p] l ▸
      List.mem_append_right _ (List.mem_singleton.2 rfl)
  · obtain ⟨f, -, hoffer⟩ := offerPacket_of_not_live hnot p
    rw [hoffer] at htaken
    cases htaken

/-- A packet that some channel takes is kept. -/
theorem keeps_offerAll (h : Sound n) (hproper : n.registry.Proper) (cs : List ChannelId)
    (hcs : ∀ c ∈ cs, n.identity? c = some p.recipient)
    (htaken : (offerAll .full p cs n).1.1 ≠ 0) : (offerAll .full p cs n).2.Keeps p := by
  induction cs generalizing n with
  | nil => exact absurd rfl htaken
  | cons c rest ih =>
    have hserved := (serves_law n.owes fun _ => True).offerPacket h.allWired p c
      (hcs c (List.mem_cons_self ..)) h fun _ _ hp => hp
    have hstill := stillKeeps_law.toLaw.offerPacket h.allWired p c trivial hproper
    have hrest : ∀ c' ∈ rest, (offerPacket .full p n c).2.identity? c' = some p.recipient := by
      intro c' hc'
      rw [hserved.identity]
      exact hcs c' (List.mem_cons_of_mem _ hc')
    have hlast : (offerAll .full p (c :: rest) n).2 =
        (offerAll .full p rest (offerPacket .full p n c).2).2 := rfl
    rw [hlast]
    by_cases hfirst : (offerPacket .full p n c).1 = true
    · have hkeeps := keeps_offerPacket h (hcs c (List.mem_cons_self ..)) hfirst
      exact (stillKeeps_law.toLaw.offerAll hserved.sound.allWired p rest (fun _ _ => trivial)
        hstill.proper).keeps p hkeeps
    · apply ih hserved.sound hstill.proper hrest
      intro hnone
      apply htaken
      show (if (offerPacket .full p n c).1 = true then _ else _ : Nat × Nat).1 = 0
      rw [if_neg hfirst]
      exact hnone

/-- A packet that is routed is kept, if it is not addressed to its sender. -/
theorem keeps_routePacket (h : Sound n) (hproper : n.registry.Proper) (hecho : p.isEcho = false) :
    (routePacket p n).2.Keeps p := by
  have hoffer := keeps_offerAll (p := p) h hproper (n.registry.channels p.recipient)
    fun c hc => h.attached.channels hc
  have hstill := stillKeeps_law.toLaw.offerAll h.allWired p (n.registry.channels p.recipient)
    (fun _ _ => trivial) hproper
  rw [routePacket, routeWith, if_neg (by simp [hecho])]
  simp only []
  split
  · left
    show p ∈ ((offerAll .full p (n.registry.channels p.recipient) n).2.registry.enqueue p).waiting _
    rw [hstill.proper.waiting_enqueue, if_pos rfl]
    exact List.mem_append_right _ (List.mem_singleton.2 rfl)
  · rename_i htaken
    exact hoffer htaken

/-- The packets that arrived between two states, which are kept unless they are echoes. -/
def KeptArrivals (n n' : Node σ) : Prop := ∀ c, ∃ got, n'.arrivals c = n.arrivals c ++ got ∧
  ∀ p ∈ got, p.isEcho = false → n'.Keeps p

theorem KeptArrivals.of_same (h : ∀ c, n'.arrivals c = n.arrivals c) : KeptArrivals n n' := by
  intro c
  refine ⟨[], ?_, fun p hp => nomatch hp⟩
  rw [h, List.append_nil]

theorem Sound.keptArrivals_packetReceived (h : Sound n) (hproper : n.registry.Proper)
    (hch : n.channel? c = some ch) (p : Packet) :
    KeptArrivals n (dispatch c (.packetReceived p) n) := by
  obtain ⟨w, l, hw, -⟩ := (h.channel c ch hch).wired
  obtain ⟨m, hquiet, heq⟩ := server_packetReceived hch hw p
  have hheard := h.heard hch p
  have hm := (Delivered.quiet hheard.sound hquiet).sound
  have hproper' := (stillKeeps_law.heard trivial p hch hw hproper).proper
  rw [← hquiet.registry] at hproper'
  intro c'
  refine ⟨if c' = c then [p] else [], ?_, ?_⟩
  · have hrouted := arrivals_law.toLaw.routePacket hm.allWired p (fun _ _ => trivial) c'
    rw [heq, hrouted, hquiet.arrivals, heard_eq hch hw]
    exact arrivals_note_received hch p c'
  · intro q hq hecho
    have hsame : q = p := by
      split at hq
      · exact List.mem_singleton.1 hq
      · cases hq
    rw [heq, hsame]
    exact keeps_routePacket hm hproper' (hsame ▸ hecho)

theorem Sound.keptArrivals_receivePackets (h : Sound n) (hproper : n.registry.Proper)
    (c : ChannelId) (ps : List Packet) : KeptArrivals n (Courier.receivePackets c ps n) := by
  induction ps generalizing n with
  | nil => exact .of_same fun _ => rfl
  | cons p ps ih =>
    generalize hn₁ : (if n.isClosed c then n else dispatch c (.packetReceived p) n) = n₁
    have hstep : Courier.receivePackets c (p :: ps) n = Courier.receivePackets c ps n₁ := by
      rw [← hn₁]
      rfl
    have hfirst : KeptArrivals n n₁ := by
      rw [← hn₁]
      split
      · exact .of_same fun _ => rfl
      · rename_i hopen
        cases hch : n.channel? c with
        | none => exact absurd (by rw [Node.isClosed, hch]) hopen
        | some ch => exact h.keptArrivals_packetReceived hproper hch p
    have hone : Courier.receivePackets c [p] n = n₁ := hn₁
    have hsound : Sound n₁ := hone ▸ (h.receivePackets c [p]).sound
    have hkeeps : n.StillKeeps n₁ :=
      hone ▸ stillKeeps_law.receivePackets trivial h c [p] hproper
    have hlater := stillKeeps_law.receivePackets trivial hsound c ps hkeeps.proper
    rw [hstep]
    intro c'
    obtain ⟨got, hgot, hkept⟩ := hfirst c'
    obtain ⟨more, hmore, hkept'⟩ := ih hsound hkeeps.proper c'
    refine ⟨got ++ more, ?_, ?_⟩
    · rw [hmore, hgot, List.append_assoc]
    · intro q hq hecho
      obtain hq | hq := List.mem_append.1 hq
      · exact hlater.keeps q (hkept q hq hecho)
      · exact hkept' q hq hecho

/-- What arrives by an act is kept after it. -/
theorem Sound.keptArrivals (h : Sound n) (hproper : n.registry.Proper) (a : ServerAct σ) :
    KeptArrivals n (a.perform n) := by
  by_cases hbrings : a.Brings
  · obtain ⟨c, ps, rfl⟩ : ∃ c ps, a = .receive c (.send ps) := by
      cases a with
      | receive c f =>
        cases f with
        | send ps => exact ⟨c, ps, rfl⟩
        | _ => exact hbrings.elim
      | _ => exact hbrings.elim
    cases hch : n.channel? c with
    | none =>
      refine .of_same fun c' => ?_
      rw [ServerAct.perform, Courier.receive, hch]
    | some ch =>
      have hsame : (ServerAct.receive c (.send ps)).perform n = Courier.receivePackets c ps n := by
        rw [ServerAct.perform, Courier.receive, hch]
        rfl
      rw [hsame]
      exact h.keptArrivals_receivePackets hproper c ps
  · exact .of_same (arrivals_law.perform h a (fun _ => trivial) hbrings)

/-! ## Acknowledgments -/

/-- The act is an acknowledgment that clears the packet from a buffer. -/
def ServerAct.Acknowledges (n : Node σ) (p : Packet) (a : ServerAct σ) : Prop :=
  ∃ c count ch, a = .receive c (.acknowledge count) ∧ n.channel? c = some ch ∧ ch.Holds p ∧
    count = ch.ledger.transmitted

/-- An act keeps a packet, unless it acknowledges it. -/
theorem Sound.keeps_perform (h : Sound n) (hproper : n.registry.Proper) (a : ServerAct σ) :
    (a.perform n).registry.Proper ∧
      ∀ p, n.Keeps p → (a.perform n).Keeps p ∨ a.Acknowledges n p := by
  by_cases hclears : a.Clears n
  · obtain ⟨c, count, ch, l, rfl, hch, hl, hcount⟩ : ∃ c count ch l,
        a = .receive c (.acknowledge count) ∧ n.channel? c = some ch ∧ ch.ledger? = some l ∧
          count = l.transmitted := by
      cases a with
      | receive c f =>
        cases f with
        | acknowledge count =>
          obtain ⟨ch, l, hch, hl, hcount⟩ := hclears
          exact ⟨c, count, ch, l, rfl, hch, hl, hcount⟩
        | _ => exact hclears.elim
      | _ => exact hclears.elim
    obtain ⟨w, l', hw, -⟩ := (h.channel c ch hch).wired
    obtain rfl : l' = l := Option.some.inj (hw.ledger?_eq.symm.trans hl)
    have hquiet := quiet_cleared hch hw
    have hperform : (ServerAct.receive c (.acknowledge count)).perform n =
        dispatch c (.acknowledgmentReceived l'.transmitted) n := by
      rw [ServerAct.perform, Courier.receive, hch, hcount]
      rfl
    rw [hperform]
    refine ⟨hquiet.registry ▸ hproper, ?_⟩
    rintro p (hp | ⟨c', ch₀, hch₀, hp⟩)
    · left
      left
      rw [hquiet.registry]
      exact hp
    · by_cases hc : c' = c
      · subst hc
        rw [hch] at hch₀
        cases hch₀
        right
        exact ⟨c', count, ch, rfl, hch, hp, by rw [hw.ledger_eq]; exact hcount⟩
      · left
        right
        refine ⟨c', ch₀, ?_, hp⟩
        rw [hquiet.channel?, Node.channel?_modify_of_ne n _ hc]
        exact hch₀
  · have hstill := stillKeeps_law.perform h a hclears (fun _ => trivial) hproper
    exact ⟨hstill.proper, fun p hp => .inl (hstill.keeps p hp)⟩

/-! ## Every run -/

/-- What holds of every run: the server is sound, and its registry is kept properly. -/
structure ServerRun.Kept (r : ServerRun σ) : Prop extends r.Right where
  proper : r.node.registry.Proper

theorem ServerRun.Kept.step {r : ServerRun σ} (h : r.Kept) (a : ServerAct σ) : (r.step a).Kept :=
  ⟨h.toRight.step a, (h.sound.keeps_perform h.proper a).1⟩

theorem ServerRun.kept_run (policy : σ) (acts : List (ServerAct σ)) :
    (serverRun policy acts).Kept := by
  have hrun : ∀ r : ServerRun σ, r.Kept → (acts.foldl ServerRun.step r).Kept := by
    induction acts with
    | nil => exact fun r hr => hr
    | cons a acts ih => exact fun r hr => ih _ (hr.step a)
  exact hrun _ ⟨ServerRun.right_run policy [], Registry.proper_empty⟩

/-- What is kept in one state of a run is kept in every later one, unless an act in between
acknowledges it. -/
theorem ServerRun.Kept.keeps {r : ServerRun σ} (h : r.Kept) (hp : r.node.Keeps p)
    (acts : List (ServerAct σ)) : (acts.foldl ServerRun.step r).node.Keeps p ∨
      ∃ first a last, acts = first ++ a :: last ∧
        a.Acknowledges (first.foldl ServerRun.step r).node p := by
  induction acts generalizing r with
  | nil => exact .inl hp
  | cons a acts ih =>
    obtain hkeeps | hacknowledges := (h.sound.keeps_perform h.proper a).2 p hp
    · obtain hkept | ⟨first, a', last, rfl, hacknowledges⟩ := ih (h.step a) hkeeps
      · exact .inl hkept
      · exact .inr ⟨a :: first, a', last, rfl, hacknowledges⟩
    · exact .inr ⟨[], a, acts, rfl, hacknowledges⟩

/-- A packet that a server dispatched as received by some act, and that is not addressed to its
sender, is in every later state in the mailbox of its recipient or in the unacknowledged buffer of a
channel with the recipient's identity, or an acknowledgment of all that such a channel had
transmitted has cleared it from that channel's buffer. -/
theorem received_packets_are_kept (policy : σ) (before : List (ServerAct σ)) (act : ServerAct σ)
    (after : List (ServerAct σ)) (c : ChannelId) (p : Packet)
    (hnew : p ∈ ((serverRun policy (before ++ [act])).node.arrivals c).drop
      ((serverRun policy before).node.arrivals c).length) (hecho : p.isEcho = false) :
    let n := (serverRun policy (before ++ act :: after)).node
    p ∈ n.registry.waiting p.recipient ∨
    (∃ c' ch, n.channel? c' = some ch ∧ ch.session.identity = some p.recipient ∧
      p ∈ ch.ledger.unacknowledged) ∨
    ∃ first c' count last, after = first ++ .receive c' (.acknowledge count) :: last ∧
      ∃ ch, (serverRun policy (before ++ act :: first)).node.channel? c' = some ch ∧
        ch.session.identity = some p.recipient ∧ p ∈ ch.ledger.unacknowledged ∧
        count = ch.ledger.transmitted := by
  have hbefore := ServerRun.kept_run policy before
  have hrun : ∀ acts, serverRun policy (before ++ act :: acts) =
      acts.foldl ServerRun.step ((serverRun policy before).step act) := by
    intro acts
    rw [serverRun, List.foldl_append]
    rfl
  obtain ⟨got, hgot, hkept⟩ := hbefore.sound.keptArrivals hbefore.proper act c
  have hone : (serverRun policy (before ++ [act])).node = act.perform (serverRun policy before).node :=
    congrArg ServerRun.node (hrun [])
  rw [hone, hgot, List.drop_left] at hnew
  obtain hkeeps | ⟨first, a, last, rfl, c', count, ch, rfl, hch, hholds, hcount⟩ :=
    (hbefore.step act).keeps (hkept p hnew hecho) after
  · rw [← hrun] at hkeeps
    obtain hwaits | hholds := hkeeps
    · exact .inl hwaits
    · exact .inr (.inl hholds)
  · rw [← hrun] at hch
    exact .inr (.inr ⟨first, c', count, last, rfl, ch, hch, hholds.1, hholds.2, hcount⟩)

/-- A packet from one twin to the other. -/
def twinPacket : Packet := { smallPacket with sender := twins.1, recipient := twins.2 }

theorem twinPacket_arrives :
    twinPacket ∈ ((serverRun () (twinRun ++ [.receive ⟨0⟩ (.send [twinPacket])])).node.arrivals
      ⟨0⟩).drop ((serverRun () twinRun).node.arrivals ⟨0⟩).length := by
  decide +kernel

theorem twinPacket_does_not_wait :
    twinPacket ∉ (serverRun () (twinRun ++ [.receive ⟨0⟩ (.send [twinPacket]),
      .finish ⟨1⟩])).node.registry.waiting twinPacket.recipient := by
  decide +kernel

theorem finish_acknowledges_nothing (c c' : ChannelId) (count : UInt32)
    (first last : List (ServerAct σ)) :
    [ServerAct.finish c] ≠ first ++ .receive c' (.acknowledge count) :: last := by
  intro heq
  cases first with
  | nil => cases heq
  | cons a first =>
    have hrest := (List.cons.inj heq).2
    exact absurd hrest.symm (by simp)

/-- The connection that took the packet is over, and its channel holds the packet still. -/
theorem received_packets_are_kept_finished : ∃ c' ch,
    (serverRun () (twinRun ++ [.receive ⟨0⟩ (.send [twinPacket]), .finish ⟨1⟩])).node.channel? c' =
      some ch ∧ ch.session.identity = some twinPacket.recipient ∧
      twinPacket ∈ ch.ledger.unacknowledged := by
  have hkept := received_packets_are_kept () twinRun (.receive ⟨0⟩ (.send [twinPacket]))
    [.finish ⟨1⟩] ⟨0⟩ twinPacket twinPacket_arrives (by decide +kernel)
  obtain hwaits | hholds | ⟨first, c', count, last, heq, -⟩ := hkept
  · exact absurd hwaits twinPacket_does_not_wait
  · exact hholds
  · exact absurd heq (finish_acknowledges_nothing ⟨1⟩ c' count first last)

/-- Not every packet is kept by the mailbox or by a channel that is not finished: the packet is lost
with the connection that took it. -/
theorem lost_with_connection : ¬ ∀ (before : List (ServerAct Unit)) (act : ServerAct Unit)
    (after : List (ServerAct Unit)) (c : ChannelId) (p : Packet),
    p ∈ ((serverRun () (before ++ [act])).node.arrivals c).drop
      ((serverRun () before).node.arrivals c).length → p.isEcho = false →
    let n := (serverRun () (before ++ act :: after)).node
    p ∈ n.registry.waiting p.recipient ∨
    (∃ c' ch, n.channel? c' = some ch ∧ ch.finished = false ∧ p ∈ ch.ledger.unacknowledged) ∨
    ∃ first c' count last, after = first ++ .receive c' (.acknowledge count) :: last ∧
      ∃ ch, (serverRun () (before ++ act :: first)).node.channel? c' = some ch ∧
        ch.session.identity = some p.recipient ∧ p ∈ ch.ledger.unacknowledged ∧
        count = ch.ledger.transmitted := by
  intro hclaim
  have hkept := hclaim twinRun (.receive ⟨0⟩ (.send [twinPacket])) [.finish ⟨1⟩] ⟨0⟩ twinPacket
    twinPacket_arrives (by decide +kernel)
  have hfinished : ∀ ch ∈ (serverRun () (twinRun ++ [.receive ⟨0⟩ (.send [twinPacket]),
      .finish ⟨1⟩])).node.channels, ch.finished = false →
        twinPacket ∉ ch.ledger.unacknowledged := by
    decide +kernel
  obtain hwaits | ⟨c', ch, hch, hopen, hholds⟩ | ⟨first, c', count, last, heq, -⟩ := hkept
  · exact twinPacket_does_not_wait hwaits
  · exact hfinished ch (List.mem_of_getElem? hch) hopen hholds
  · exact finish_acknowledges_nothing ⟨1⟩ c' count first last heq

end Courier
