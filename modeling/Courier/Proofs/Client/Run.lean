import Courier.Proofs.Client.Outcomes
import Courier.Proofs.Connection.WindDown
import Courier.Proofs.Duplex.Books

/-! # A client runs

A client's channel is opened once, in any node, and then anything happens on its connection, in any
order. The run keeps a log of what each act queued, with the phase and the ledger that it found.
Every act leaves a client's channel, by one of the outcomes (`client_step`).
-/
set_option autoImplicit false

namespace Courier

open Courier.Wire Courier.Wire.Frame Courier.Routing

variable {σ : Type} {n n' : Node σ} {c : ChannelId} {ch ch' : Channel σ} {l l' : Ledger}
  {w : ClientWiring} {rest : List (Reactor σ)}

/-! ## Runs -/

/-- A client's channel that was not opened yet, with those who listen. -/
def clientChannel (w : ClientWiring) (listeners : List Listener) (now : Nat) : Channel σ :=
  .start (.start .initiator now w.timing) (front .empty ++
    (listeners.map Listener.reactor ++ [.clientHandshake w.address w.credential]))

/-- A channel on the client's side: behind its front are only who listens, and the handshake. -/
structure Channel.IsClient (w : ClientWiring) (l : Ledger) (ch : Channel σ) : Prop where
  role : ch.session.role = .initiator
  wired : ∃ rest, Attends w rest ∧ ch.Wired l rest

theorem wired_clientChannel (w : ClientWiring) (listeners : List Listener) (now : Nat) :
    (clientChannel w listeners now : Channel σ).Wired .empty
      (listeners.map Listener.reactor ++ [.clientHandshake w.address w.credential]) :=
  ⟨rfl, (attends_listeners w listeners).plain⟩

theorem isClient_clientChannel (w : ClientWiring) (listeners : List Listener) (now : Nat) :
    (clientChannel w listeners now : Channel σ).IsClient w .empty :=
  ⟨rfl, _, attends_listeners w listeners, wired_clientChannel w listeners now⟩

/-- What an act queued, and what it found: the phase of the session and the ledger. No act is the
opening of the connection. -/
structure ClientEntry where
  act : Option ClientAct
  phase : Phase
  ledger : Ledger
  items : List Outbound

def Node.phaseAt (n : Node σ) (c : ChannelId) : Phase :=
  ((n.channel? c).map (·.session.phase)).getD .closed

def Node.ledgerAt (n : Node σ) (c : ChannelId) : Ledger :=
  ((n.channel? c).map (·.ledger)).getD .empty

/-- What an act that leads from one node to another is logged as. -/
def clientEntry (c : ChannelId) (act : Option ClientAct) (n n' : Node σ) : ClientEntry :=
  ⟨act, n.phaseAt c, n.ledgerAt c, newlyQueued n n' c⟩

/-- A client's connection in its node, and its log. -/
structure ClientRun (σ : Type) where
  channel : ChannelId
  node : Node σ
  log : List ClientEntry

/-- A new connection in any node, just opened. -/
def ClientRun.opened (n : Node σ) (w : ClientWiring) (listeners : List Listener) (now : Nat) :
    ClientRun σ :=
  let (c, fresh) := n.addChannel (clientChannel w listeners now)
  ⟨c, Connection.greet c fresh, [clientEntry c none fresh (Connection.greet c fresh)]⟩

def ClientRun.step (r : ClientRun σ) (a : ClientAct) : ClientRun σ :=
  let after := a.perform r.channel r.node
  ⟨r.channel, after, r.log ++ [clientEntry r.channel (some a) r.node after]⟩

def clientRun (n : Node σ) (w : ClientWiring) (listeners : List Listener) (now : Nat)
    (acts : List ClientAct) : ClientRun σ :=
  acts.foldl ClientRun.step (.opened n w listeners now)

/-- A client that connects is opened with those who listen by its wiring. -/
theorem node_opened_eq_connect (n : Node σ) (w : ClientWiring) (now : Nat) :
    (ClientRun.opened n w w.listeners.toList now).node = (connect w now n).2 := by
  have hpipeline : (clientChannel w w.listeners.toList now : Channel σ) =
      .start (.start .initiator now w.timing) w.pipeline := by
    rw [client_pipeline_eq, clientRest, ← w.listeners.map_reactor_toList]
    rfl
  rw [connect, ← hpipeline]
  rfl

/-! ## What a run keeps -/

/-- What holds when the connection is opened, and what every act keeps, holds of a run. -/
theorem clientRun_keeps {P : ClientRun σ → Prop} {listeners : List Listener} {now : Nat}
    (hopened : P (.opened n w listeners now)) (hstep : ∀ r a, P r → P (r.step a))
    (acts : List ClientAct) : P (clientRun n w listeners now acts) := by
  have hrun : ∀ r, P r → P (acts.foldl ClientRun.step r) := by
    induction acts with
    | nil => exact fun r hr => hr
    | cons a acts ih => exact fun r hr => ih _ (hstep r a hr)
  exact hrun _ hopened

theorem clientEntry_eq {items : List Outbound} (hch : n.channel? c = some ch)
    (hch' : n'.channel? c = some ch') (hqueue : ch'.queue.toList = ch.queue.toList ++ items)
    (act : Option ClientAct) :
    clientEntry c act n n' = ⟨act, ch.session.phase, ch.ledger, items⟩ := by
  rw [clientEntry, Logged.newlyQueued_eq hch hch' hqueue, Node.phaseAt, Node.ledgerAt, hch]
  rfl

theorem Channel.IsClient.later (h : ch.IsClient w l) (hlater : ch.Later ch') :
    ∃ l', ch'.IsClient w l' := by
  obtain ⟨rest, hrest, hw⟩ := h.wired
  obtain ⟨l', hw'⟩ := hw.later hlater
  exact ⟨l', hlater.role.trans h.role, rest, hrest, hw'⟩

theorem later_resume (c : ChannelId) (saved : ByteArray) (n : Node σ) :
    n.Later ((resume c saved).apply n).2 := by
  unfold resume
  cases Ledger.restore saved with
  | error f => exact .refl n
  | ok found =>
  cases found with
  | none => exact .refl n
  | some kept =>
    simp only []
    split
    · exact .refl n
    · exact later_rule.bind (later_rule.telling.sendPackets c _)
        (fun _ => later_rule.bind (later_rule.writeFrame c _) fun _ => later_rule.pure true) n

/-- No act changes the role or the pipeline, but for the ledger. -/
theorem wired_perform (hch : n.channel? c = some ch) (hw : ch.Wired l rest) (a : ClientAct) :
    ∃ ch' l', (a.perform c n).channel? c = some ch' ∧ ch'.session.role = ch.session.role ∧
      ch'.Wired l' rest := by
  have hkept : n.Later (a.perform c n) → ∃ ch' l', (a.perform c n).channel? c = some ch' ∧
      ch'.session.role = ch.session.role ∧ ch'.Wired l' rest := by
    intro hlater
    obtain ⟨ch', hch', hlater'⟩ := hlater.channel c ch hch
    obtain ⟨l', hw'⟩ := hw.later hlater'
    exact ⟨ch', l', hch', hlater'.role, hw'⟩
  cases a with
  | receive f => exact hkept (later_rule.telling.receive c f n)
  | send ps => exact hkept (later_rule.telling.sendPackets c ps n)
  | ask => exact hkept (later_rule.writeFrame c _ n)
  | resume saved => exact hkept (later_resume c saved n)
  | fail t => exact hkept (later_rule.raise c _ n)
  | close => exact hkept (later_rule.shut n c false)
  | detach => exact hkept (later_rule.shut n c true)
  | finish => exact hkept (later_rule.finish c n)
  | take | dropWriter =>
    -- Whoever takes the queue leaves the session and the pipeline alone.
    exact ⟨_, l, Node.channel?_modify_of_some hch _, rfl, hw.of_reactors_eq rfl⟩

/-- An act comes to one of the outcomes, and leaves a client's channel. -/
theorem client_step (h : ch.IsClient w l) (hch : n.channel? c = some ch) (a : ClientAct) :
    ∃ ch' l', ch.Outcome w l a ch' ∧ (a.perform c n).channel? c = some ch' ∧
      ch'.IsClient w l' := by
  obtain ⟨rest, hrest, hw⟩ := h.wired
  obtain ⟨ch', houtcome, hch'⟩ := client_outcome hrest hch hw h.role a
  obtain ⟨ch₁, l', hch₁, hrole, hw'⟩ := wired_perform hch hw a
  cases hch'.symm.trans hch₁
  exact ⟨ch', l', houtcome, hch', hrole.trans h.role, rest, hrest, hw'⟩

/-- A connection that is opened has queued the header and ATTACH, and is attached. -/
theorem client_opened (n : Node σ) (w : ClientWiring) (listeners : List Listener) (now : Nat) :
    let r := ClientRun.opened n w listeners now
    ∃ ch l, r.node.channel? r.channel = some ch ∧ ch.IsClient w l ∧
      ch.session.phase = .attached ∧ r.log = [⟨none, .unconnected, .empty,
        [.bytes Header.bytes, .bytes (layouts [.attach w.address])]⟩] := by
  intro r
  have hfresh : (n.addChannel (clientChannel w listeners now)).2.channel? r.channel =
      some (clientChannel w listeners now) := List.getElem?_concat_length
  have hclient := isClient_clientChannel (σ := σ) w listeners now
  obtain ⟨rest, hrest, hw⟩ := hclient.wired
  obtain ⟨ch, happlies, hyields⟩ := client_applies hrest hfresh hw rfl
  obtain ⟨ch₁, hch₁, hlater⟩ := (later_rule.telling.greet r.channel _).channel _ _ hfresh
  cases hyields.self.symm.trans hch₁
  obtain ⟨l, hclient'⟩ := hclient.later hlater
  refine ⟨ch, l, hyields.self, hclient', ?_⟩
  cases happlies with
  | mute hmute => exact absurd ⟨rfl, rfl⟩ hmute
  | untimely hlive hconnect => cases hconnect
  | applied hlive hconnect hattach =>
    obtain ⟨-, rfl⟩ := Session.attach_eq_ok_iff.1 hattach
    refine ⟨rfl, ?_⟩
    have hentry := clientEntry_eq hfresh hyields.self rfl none
    rw [hw.ledger_eq] at hentry
    exact congrArg (fun e => [e]) hentry

/-- The channel of a run is a client's. -/
theorem client_run (n : Node σ) (w : ClientWiring) (listeners : List Listener) (now : Nat)
    (acts : List ClientAct) : ∃ ch l,
      (clientRun n w listeners now acts).node.channel?
        (clientRun n w listeners now acts).channel = some ch ∧ ch.IsClient w l := by
  refine clientRun_keeps (P := fun r => ∃ ch l, r.node.channel? r.channel = some ch ∧
    ch.IsClient w l) ?_ ?_ acts
  · obtain ⟨ch, l, hch, hclient, -⟩ := client_opened n w listeners now
    exact ⟨ch, l, hch, hclient⟩
  · rintro r a ⟨ch, l, hch, hclient⟩
    obtain ⟨ch', l', -, hch', hclient'⟩ := client_step hclient hch a
    exact ⟨ch', l', hch', hclient'⟩

end Courier
