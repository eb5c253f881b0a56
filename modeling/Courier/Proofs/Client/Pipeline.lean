import Courier.Client
import Courier.Proofs.Node.Traffic

/-! # The pipeline of a client's connection

What stands behind the front, and what it does about the events of the handshake.
-/
set_option autoImplicit false

namespace Courier

open Courier.Wire Courier.Routing

variable {σ : Type}

/-- The reactors of a client's pipeline behind those in front. -/
def clientRest (w : ClientWiring) : List (Reactor σ) :=
  w.listeners.reactors ++ [.clientHandshake w.address w.credential]

theorem client_pipeline_eq (w : ClientWiring) :
    (w.pipeline : List (Reactor σ)) = front .empty ++ clientRest w := by
  rw [ClientWiring.pipeline, clientRest, List.append_assoc]
  rfl

/-! ## Those who listen -/

/-- One who listens on a client's connection. -/
inductive Listener where
  | packets
  | connection

def Listener.reactor : Listener → Reactor σ
  | packets => .packetObserver
  | connection => .connectionObserver

/-- Those who listen, one by one. -/
def Listeners.toList (ls : Listeners) : List Listener :=
  (if ls.packets then [.packets] else []) ++ (if ls.connection then [.connection] else [])

theorem Listeners.map_reactor_toList (ls : Listeners) :
    ls.toList.map Listener.reactor = (ls.reactors : List (Reactor σ)) := by
  rw [toList, reactors, List.map_append]
  congr 1 <;> split <;> rfl

/-- What stands behind the front of a client: those who listen, and last the handshake. -/
inductive Attends (w : ClientWiring) : List (Reactor σ) → Prop where
  | handshake : Attends w [.clientHandshake w.address w.credential]
  | packets {rest : List (Reactor σ)} (h : Attends w rest) : Attends w (.packetObserver :: rest)
  | connection {rest : List (Reactor σ)} (h : Attends w rest) :
      Attends w (.connectionObserver :: rest)

/-- What stands behind the front of a client with these listeners. -/
theorem attends_listeners (w : ClientWiring) (listeners : List Listener) :
    Attends w (listeners.map Listener.reactor ++ [.clientHandshake w.address w.credential] :
      List (Reactor σ)) := by
  induction listeners with
  | nil => exact .handshake
  | cons listener listeners ih =>
    cases listener with
    | packets => exact .packets ih
    | connection => exact .connection ih

theorem attends_clientRest (w : ClientWiring) : Attends w (clientRest w : List (Reactor σ)) := by
  rw [clientRest, ← w.listeners.map_reactor_toList]
  exact attends_listeners w w.listeners.toList

/-- What holds of the handshake, and is kept by each listener in front, holds behind the front. -/
theorem Attends.induction_on {w : ClientWiring} {P : List (Reactor σ) → Prop}
    {rest : List (Reactor σ)} (h : Attends w rest)
    (hhandshake : P [.clientHandshake w.address w.credential])
    (hlistener : ∀ (listener : Listener) {rest}, P rest → P (listener.reactor :: rest)) :
    P rest := by
  induction h with
  | handshake => exact hhandshake
  | packets _ ih => exact hlistener .packets ih
  | connection _ ih => exact hlistener .connection ih

theorem Attends.plain {w : ClientWiring} {rest : List (Reactor σ)} (h : Attends w rest) :
    ∀ r ∈ rest, r.Plain := by
  refine h.induction_on (P := fun rest => ∀ r ∈ rest, r.Plain)
    (fun r hr => List.mem_singleton.1 hr ▸ trivial) fun listener rest hrest => ?_
  refine List.forall_mem_cons.2 ⟨?_, hrest⟩
  cases listener <;> trivial

theorem plain_clientRest (w : ClientWiring) : ∀ r ∈ (clientRest w : List (Reactor σ)), r.Plain :=
  (attends_clientRest w).plain

/-- One who listens reports what it is told, and does nothing else. -/
theorem react_listener (k : Reentry σ) (c : ChannelId) (i : Nat) (listener : Listener) (e : Event) :
    ∃ told : Node σ → Node σ, (∀ n, Quiet n (told n)) ∧
      listener.reactor.react k c i e = modify told := by
  have hnothing : ∃ told : Node σ → Node σ, (∀ n, Quiet n (told n)) ∧
      (pure () : Action σ Unit) = modify told := ⟨fun n => n, .refl, rfl⟩
  have hreport (x : Reporter) (s : Signal) (hx : x ≠ .eventLog) :
      ∃ told : Node σ → Node σ, (∀ n, Quiet n (told n)) ∧
        (modify (·.note c x s) : Action σ Unit) = modify told :=
    ⟨fun n => n.note c x s, fun n => quiet_note n c x s fun _ h => absurd h hx, rfl⟩
  cases listener with
  | packets =>
    cases e with
    | packetReceived p | packetSent p => exact hreport _ _ nofun
    | _ => exact hnothing
  | connection =>
    cases e with
    | identityReceived a | disconnected => exact hreport _ _ nofun
    | _ => exact hnothing

/-- Behind the front of a client an event is reported, and then the handshake goes on. -/
theorem Attends.reactAll {w : ClientWiring} {rest : List (Reactor σ)} (h : Attends w rest)
    (k : Reentry σ) (c : ChannelId) (e : Event) (i : Nat) :
    ∃ told : Node σ → Node σ, (∀ n, Quiet n (told n)) ∧ reactAll k c e i rest = (do
      modify told
      handshakeReacts c w.address w.credential e) := by
  revert i
  refine h.induction_on (P := fun rest => ∀ i, ∃ told : Node σ → Node σ, (∀ n, Quiet n (told n)) ∧
    Courier.reactAll k c e i rest = (do
      modify told
      handshakeReacts c w.address w.credential e))
    (fun i => ⟨fun n => n, .refl, ?_⟩) fun listener rest hrest i => ?_
  · have hlast : Courier.reactAll k c e i [.clientHandshake w.address w.credential] =
        handshakeReacts c w.address w.credential e := bind_pure_unit
    rw [hlast]
    rfl
  · obtain ⟨told, hquiet, hfirst⟩ := react_listener k c i listener e
    obtain ⟨told', hquiet', hbehind⟩ := hrest (i + 1)
    refine ⟨fun n => told' (told n), fun n => (hquiet n).trans (hquiet' _), ?_⟩
    rw [Courier.reactAll, hfirst, hbehind]
    rfl

/-- What a client does about an event: the ledger, those who listen, and the handshake. -/
theorem Attends.reaction {w : ClientWiring} {rest : List (Reactor σ)} (h : Attends w rest)
    (k : Reentry σ) (c : ChannelId) (e : Event) (l : Ledger) :
    ∃ told : Node σ → Node σ, (∀ n, Quiet n (told n)) ∧ reaction k c e l rest = (do
      ledgerReacts c 2 l e
      modify told
      handshakeReacts c w.address w.credential e) := by
  obtain ⟨told, hquiet, hrest⟩ := h.reactAll k c e 3
  exact ⟨told, hquiet, congrArg (ledgerReacts c 2 l e >>= ·) (funext fun _ => hrest)⟩

/-- What those who listen do nothing about is left to the ledger and the handshake. -/
theorem Attends.reaction_unheard {w : ClientWiring} {rest : List (Reactor σ)} (h : Attends w rest)
    (k : Reentry σ) (c : ChannelId) (e : Event) (l : Ledger)
    (hunheard : ∀ i (listener : Listener),
      (listener.reactor : Reactor σ).react k c i e = pure ()) :
    Courier.reaction k c e l rest = (do
      ledgerReacts c 2 l e
      handshakeReacts c w.address w.credential e) := by
  have hrest := h.induction_on (P := fun rest => ∀ i, Courier.reactAll k c e i rest =
    handshakeReacts c w.address w.credential e) (fun i => bind_pure_unit)
    fun listener rest hbehind i => by
      rw [Courier.reactAll, hunheard i listener, hbehind]
      rfl
  exact congrArg (ledgerReacts c 2 l e >>= ·) (funext fun _ => hrest 3)

/-! ## The handshake -/

section handshake

variable (k : Reentry σ) (c : ChannelId) (l : Ledger) (w : ClientWiring)

theorem client_reaction_connected : reaction k c .connected l (clientRest w) = (do
    writeFrame c (.attach w.address)
    stepSession c (plainStep (·.attach w.address))) := by
  refine (attends_clientRest w).reaction_unheard k c .connected l fun i listener => ?_
  cases listener <;> rfl

theorem client_reaction_sessionCreated (id : SessionId) :
    reaction k c (.sessionCreated id) l (clientRest w) = (do
      settleLedger c 2 .empty []
      let demands ← stepSession c (·.establish id)
      demands.forM (performDemand c w.credential)) := by
  refine (attends_clientRest w).reaction_unheard k c (.sessionCreated id) l fun i listener => ?_
  cases listener <;> rfl

/-- A client tells who listens that it is identified. -/
theorem client_reaction_identityReceived (a : Address) :
    ∃ told : Node σ → Node σ, (∀ n, Quiet n (told n)) ∧
      reaction k c (.identityReceived a) l (clientRest w) = (do
        modify told
        let demands ← stepSession c (·.identify a)
        demands.forM (performDemand c w.credential)) :=
  (attends_clientRest w).reaction k c (.identityReceived a) l

end handshake

/-! ## Packets -/

/-- A packet that arrives is reported, counted and told to those who listen. -/
theorem client_packetReceived {n : Node σ} {c : ChannelId} {ch : Channel σ} {l : Ledger}
    {w : ClientWiring} {rest : List (Reactor σ)} (hrest : Attends w rest)
    (hch : n.channel? c = some ch) (hw : ch.Wired l rest) (p : Packet) :
    Quiet (n.heard c p) (dispatch c (.packetReceived p) n) := by
  obtain ⟨told, hquiet, hreaction⟩ := hrest.reaction .full c (.packetReceived p) l
  have hnoted := (n.channel?_note c c .eventLog (.event (.packetReceived p))).trans hch
  rw [dispatch, dispatchWith_eq later_rule.full ⟨ch, hch, hw⟩, hreaction, heard_eq hch hw,
    ← Node.setReactor_eq hnoted]
  exact hquiet _

theorem client_reaction_fetchRequested (k : Reentry σ) (c : ChannelId) (l : Ledger)
    (w : ClientWiring) : reaction k c .fetchRequested l (clientRest w) =
      settleLedger c 2 l.flush.1 l.flush.2 := by
  rw [(attends_clientRest w).reaction_unheard k c .fetchRequested l fun i listener => by
    cases listener <;> rfl]
  exact bind_pure_unit

end Courier
