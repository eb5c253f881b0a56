import Courier.Node

/-! # Dispatch

An event is told to the reactors of a channel in the order of its pipeline, until one fails; then
the fault is raised on the channel: it is remembered and told to every reactor.

While they react, reactors bring about further events: a session is created, a packet is queued on
some channel, a channel is finished. These do not go on without end. A channel is finished once; the
reactors that are told of a created session or of a sent packet dispatch nothing, but for a probe
that finishes its channel. So dispatch is built in three layers, each from the one before: telling a
finished channel that it is over, telling of sessions and sent packets, telling of anything.
-/
set_option autoImplicit false

namespace Courier

open Courier.Wire Courier.Routing

variable {σ : Type}

/-- What the layer below offers to reactors. -/
structure Reentry (σ : Type) where
  /-- Closes a channel and tells its reactors that it is over, once. -/
  finish : ChannelId → Node σ → Node σ
  /-- Tells the reactors of a channel that a session was created or a packet sent. -/
  dispatch : ChannelId → Event → Node σ → Node σ

/-! ## Raising faults -/

def ProbeAct.perform (k : Reentry σ) (c : ChannelId) (n : Node σ) : ProbeAct → Node σ
  | close => n.modify c Channel.close
  | detach => n.modify c Channel.detach
  | finish => k.finish c n

/-- The probe in a place has dealt with a signal. -/
def rememberSignal (c : ChannelId) (i : Nat) (signal : Signal) (n : Node σ) : Node σ :=
  match n.reactor? c i with
  | some (.probe p) => n.setReactor c i (.probe { p with seen := signal :: p.seen })
  | _ => n

/-- A probe is told a signal. It remembers the signal last, behind those that its acts bring
about. -/
def Probe.perceive (k : Reentry σ) (c : ChannelId) (i : Nat) (p : Probe) (signal : Signal)
    (n : Node σ) : Node σ :=
  let n := n.note c (.probe p.name) signal
  let n := (p.acts (signal :: p.seen)).foldl (ProbeAct.perform k c) n
  rememberSignal c i signal n

/-- The fault of the probe in a place, if it fails on what it has dealt with. -/
def probeFault? (c : ChannelId) (i : Nat) (n : Node σ) : Option Fault :=
  match n.reactor? c i with
  | some (.probe p) => p.fails p.seen
  | _ => none

/-- The frame that tells the peer it is refused, for a fault that refuses it. -/
def refusal? : Fault → Option Frame
  | .unknownAddress _ => some (.session none)
  | .invalidCredential => some (.identify none)
  | _ => none

/-- Tells the peer if it is refused, and closes the channel with a goodbye. -/
def refuse (c : ChannelId) (f : Fault) (n : Node σ) : Node σ :=
  let n := match refusal? f with
    | some frame => ((writeFrame c frame).apply n).2
    | none => n
  n.modify c Channel.detach

def Reactor.onException (k : Reentry σ) (c : ChannelId) (i : Nat) (r : Reactor σ) (f : Fault)
    (n : Node σ) : Node σ :=
  match r with
  | .eventLog => n.note c .eventLog (.exception f)
  | .detachOnException => refuse c f n
  | .probe p => p.perceive k c i (.exception f) n
  | _ => n

def exceptionAt (k : Reentry σ) (c : ChannelId) (f : Fault) (n : Node σ) (i : Nat) : Node σ :=
  match n.reactor? c i with
  | some r => r.onException k c i f n
  | none => n

/-- Remembers a fault and tells it to every reactor. -/
def raiseWith (k : Reentry σ) (c : ChannelId) (f : Fault) (n : Node σ) : Node σ :=
  let n := n.modify c (·.remember f)
  (n.places c).foldl (exceptionAt k c f) n

/-! ## Sending and routing -/

/-- Queues packets and tells the pipeline of each. -/
def sendPacketsWith (k : Reentry σ) (c : ChannelId) (packets : List Packet) : Action σ Unit := do
  writePackets c packets
  modify fun n => packets.foldl (fun n p => k.dispatch c (.packetSent p) n) n

inductive RouteOutcome where
  /-- It was addressed to its sender and dropped. -/
  | echo
  /-- No channel took it; it waits in the mailbox. -/
  | queued
  /-- Some channels took it; those that did not were detached. -/
  | delivered (delivered failed : Nat)
deriving DecidableEq

def RouteOutcome.text : RouteOutcome → String
  | echo => "Echo"
  | queued => "Queued"
  | delivered taken refused =>
    s!"Delivered \x7b delivered: {taken}, failed: {refused} \x7d"

/-- Offers a packet to a channel. One that does not take it is detached from the address, and the
fault is raised on it. -/
def offerPacket (k : Reentry σ) (p : Packet) (n : Node σ) (c : ChannelId) : Bool × Node σ :=
  match (sendPacketsWith k c [p]).apply n with
  | (.ok (), n) => (true, n)
  | (.error f, n) =>
    let n := { n with registry := n.registry.detach p.recipient c }
    (false, raiseWith k c f n)

/-- Offers a packet to channels in turn; counts those that took it and those that did not. -/
def offerAll (k : Reentry σ) (p : Packet) : List ChannelId → Node σ → (Nat × Nat) × Node σ
  | [], n => ((0, 0), n)
  | c :: rest, n =>
    let (taken, n) := offerPacket k p n c
    let ((delivered, failed), n) := offerAll k p rest n
    (if taken then (delivered + 1, failed) else (delivered, failed + 1), n)

/-- Delivers a packet to every channel attached to its recipient, or puts it in the mailbox if none
takes it. -/
def routeWith (k : Reentry σ) (p : Packet) (n : Node σ) : RouteOutcome × Node σ :=
  if p.isEcho then (.echo, n)
  else
    let ((delivered, failed), n) := offerAll k p (n.registry.channels p.recipient) n
    if delivered = 0 then (.queued, { n with registry := n.registry.enqueue p })
    else (.delivered delivered failed, n)

/-! ## What each reactor does -/

def performLedgerDemand (c : ChannelId) : LedgerDemand → Action σ Unit
  | .retransmit packets => writePackets c packets
  | .requestAcknowledgment => writeFrame c .requestAcknowledgment
  | .acknowledge count => writeFrame c (.acknowledge count)

/-- Puts a ledger in its place and sends what it asks for. -/
def settleLedger (c : ChannelId) (i : Nat) (l : Ledger) (demands : List LedgerDemand) :
    Action σ Unit := do
  modify (·.setReactor c i (.reliableDelivery l))
  demands.forM (performLedgerDemand c)

def ledgerReacts (c : ChannelId) (i : Nat) (l : Ledger) : Event → Action σ Unit
  | .sessionCreated _ => settleLedger c i .empty []
  | .fetchRequested => settleLedger c i l.flush.1 l.flush.2
  | .packetReceived _ => settleLedger c i l.recordReceived []
  | .packetSent p => settleLedger c i (l.recordSent p) []
  | .acknowledgmentRequested => settleLedger c i l l.answerRequest
  | .acknowledgmentReceived count =>
    settleLedger c i (l.acknowledge count).1 (l.acknowledge count).2
  | _ => pure ()

/-- An address is accepted: the session attaches, gets its id and is announced. -/
def createSession (k : Reentry σ) (c : ChannelId) (create : SessionFactory σ) (a : Address) :
    Action σ Unit := do
  stepSession c (plainStep (·.attach a))
  let id ← consult (create a)
  writeFrame c (.session (some id))
  let _ ← stepSession c (·.establish id)
  modify (k.dispatch c (.sessionCreated id))

/-- The realm whose credentials a session takes now. -/
def realmOf (s : Session) : Except Fault Address :=
  match s.require .established "authenticate" with
  | .error e => .error (.step e)
  | .ok () =>
    match s.attachedAddress with
    | some realm => .ok realm
    | none => .error .notIdentified

/-- A credential is accepted: the connection gets its identity and is told it. -/
def acceptCredential (c : ChannelId) (authenticate : Authenticator σ) (credential : Credential) :
    Action σ Unit := do
  let realm ← onChannel c fun ch => do
    let realm ← realmOf ch.session
    return (realm, ch)
  let identity ← consult (authenticate realm credential)
  stepSession c (plainStep (·.authenticate))
  writeFrame c (.identify (some identity))
  let _ ← stepSession c (·.identify identity)

/-- Sends what a handshake step asks the initiator for. -/
def performDemand (c : ChannelId) (credential : Credential) : Demand → Action σ Unit
  | .credential => do
    writeFrame c (.authenticate credential)
    stepSession c (plainStep (·.authenticate))
  | .fetch => writeFrame c .fetch

def handshakeReacts (c : ChannelId) (address : Address) (credential : Credential) :
    Event → Action σ Unit
  | .connected => do
    writeFrame c (.attach address)
    stepSession c (plainStep (·.attach address))
  | .sessionCreated id => do
    let demands ← stepSession c (·.establish id)
    demands.forM (performDemand c credential)
  | .identityReceived identity => do
    let demands ← stepSession c (·.identify identity)
    demands.forM (performDemand c credential)
  | _ => pure ()

/-- The identity of a channel's connection, which it must have. -/
def identityOf (c : ChannelId) : Action σ Address :=
  onChannel c fun ch =>
    match ch.session.identity with
    | some identity => .ok (identity, ch)
    | none => .error .notIdentified

/-- Sends the mailbox to the peer; what cannot be sent is put back. -/
def flushMailbox (k : Reentry σ) (c : ChannelId) : Action σ Unit := do
  let identity ← identityOf c
  let n ← get
  let (packets, registry) := n.registry.takeAll identity
  set { n with registry }
  if packets.isEmpty then pure ()
  else
    let n ← get
    match (sendPacketsWith k c packets).apply n with
    | (.ok (), n) =>
      set n
      writeFrame c .requestAcknowledgment
    | (.error f, n) =>
      set { n with registry := n.registry.requeue identity packets }
      throw f

def attachRoute (c : ChannelId) (n : Node σ) : Node σ :=
  match (n.channel? c).bind (·.session.identity) with
  | some identity => { n with registry := n.registry.attach identity c }
  | none => n

def Reactor.react (k : Reentry σ) (c : ChannelId) (i : Nat) (r : Reactor σ) (e : Event) :
    Action σ Unit :=
  match r, e with
  | .eventLog, e => modify (·.note c .eventLog (.event e))
  | .packetObserver, .packetReceived p =>
    modify (·.note c .packetObserver (.event (.packetReceived p)))
  | .packetObserver, .packetSent p => modify (·.note c .packetObserver (.event (.packetSent p)))
  | .connectionObserver, .identityReceived a =>
    modify (·.note c .connectionObserver (.event (.identityReceived a)))
  | .connectionObserver, .disconnected =>
    modify (·.note c .connectionObserver (.event .disconnected))
  | .reliableDelivery l, e => ledgerReacts c i l e
  | .addressFilter verify, .attachRequested a => consult (verify a)
  | .sessionCreator create, .attachRequested a => createSession k c create a
  | .credentialAuthenticator authenticate, .credentialReceived credential =>
    acceptCredential c authenticate credential
  | .packetDelivery, .packetReceived p => modify fun n => (routeWith k p n).2
  | .flushOnFetch, .fetchRequested => flushMailbox k c
  | .routeAttachment, .credentialReceived _ => modify (attachRoute c)
  | .routeAttachment, .disconnected =>
    modify fun n => { n with registry := n.registry.release c }
  | .clientHandshake address credential, e => handshakeReacts c address credential e
  | .probe p, e => do
    modify (p.perceive k c i (.event e))
    match probeFault? c i (← get) with
    | some f => throw f
    | none => pure ()
  | _, _ => pure ()

/-! ## Layers -/

def reactAt (k : Reentry σ) (c : ChannelId) (e : Event) (i : Nat) : Action σ Unit := do
  match (← get).reactor? c i with
  | some r => r.react k c i e
  | none => pure ()

/-- Tells an event to a pipeline; the first fault is raised. -/
def dispatchWith (k : Reentry σ) (c : ChannelId) (e : Event) (n : Node σ) : Node σ :=
  match ((n.places c).forM (reactAt k c e)).apply n with
  | (.ok (), n) => n
  | (.error f, n) => raiseWith k c f n

/-- On a channel that is finished, finishing does nothing. -/
def Reentry.ended : Reentry σ := ⟨fun _ n => n, fun _ _ n => n⟩

/-- Closes a channel and tells its reactors that it is over, once. -/
def finish (c : ChannelId) (n : Node σ) : Node σ :=
  match n.channel? c with
  | none => n
  | some ch =>
    if ch.finished then n
    else
      let n := n.modify c fun ch => { ch with finished := true }.close
      dispatchWith .ended c .disconnected n

/-- Sessions and sent packets: their reactors dispatch nothing but the end of the channel. -/
def Reentry.quiet : Reentry σ := ⟨Courier.finish, fun _ _ n => n⟩

/-- Any event: reactors may bring about sessions and sent packets. -/
def Reentry.full : Reentry σ := ⟨Courier.finish, dispatchWith .quiet⟩

def dispatch (c : ChannelId) (e : Event) (n : Node σ) : Node σ := dispatchWith .full c e n

def raise (c : ChannelId) (f : Fault) (n : Node σ) : Node σ := raiseWith .full c f n

def sendPackets (c : ChannelId) (packets : List Packet) : Action σ Unit :=
  sendPacketsWith .full c packets

def routePacket (p : Packet) (n : Node σ) : RouteOutcome × Node σ := routeWith .full p n

end Courier
