import Courier.Connection
import Courier.Proofs.Node.Actions
import Courier.Proofs.Session

/-! # Everything a node does

Whatever happens in a node is a chain of changes of one part at a time: bytes are queued, a session
takes a step, a channel remembers a fault, shuts or is over, a ledger or the memory of a probe
changes in its place, and the registry, the policies and the notices change. A relation that holds
of each of these and of chains (`Rule`) holds of whatever is dispatched on any pipeline
(`Rule.dispatch`). The end of a channel is told only when the channel is finished: for whatever else
happens, it is enough that the relation holds of the other changes and of finishing a channel
(`Passage`), and for what does not finish one, of the other changes (`Course`). Writing, the steps of
a session and what a ledger or a handshake does tell nobody: for them it is enough that the relation
holds of the changes that are no notices (`Works`), and for writing and a step alone, of fewer still
(`Writes`). What arrives, what is sent and what is routed tells events and faults: for these it is
enough that the relation holds of each event that is dispatched and each fault that is raised, as a
whole (`Telling`).
-/
set_option autoImplicit false

namespace Courier

open Courier.Wire Courier.Routing

variable {σ α β : Type}

/-! ## The changes -/

/-- The same reactor, but for its ledger or its memory. -/
inductive Reactor.Alike : Reactor σ → Reactor σ → Prop where
  | same (r : Reactor σ) : Alike r r
  | ledger (l l' : Ledger) : Alike (.reliableDelivery l) (.reliableDelivery l')
  | probe (p : Probe) (seen : List Signal) : Alike (.probe p) (.probe { p with seen })

/-- A signal may be reported on a channel, by any reporter. -/
def Reports (R : Node σ → Node σ → Prop) (c : ChannelId) (s : Signal) : Prop :=
  ∀ n r, R n (n.note c r s)

/-- A relation that holds of chains, of changes of what the channels share, and of bytes that are
queued and steps that sessions take. -/
structure Writes (R : Node σ → Node σ → Prop) : Prop where
  refl : ∀ n, R n n
  trans : ∀ {a b c}, R a b → R b c → R a c
  registry : ∀ n r, R n { n with registry := r }
  policy : ∀ n s, R n { n with policy := s }
  enqueue : ∀ {n c ch ch' b}, n.channel? c = some ch → ch.enqueue c b = .ok ch' →
    R n (n.modify c fun _ => ch')
  session : ∀ {n c ch s}, n.channel? c = some ch → ch.session.Step s →
    R n (n.modify c fun _ => ch.setSession s)

/-- It also holds of whatever is told that is not the end, as a whole. -/
structure Telling (R : Node σ → Node σ → Prop) : Prop extends Writes R where
  dispatch : ∀ c e n, e ≠ .disconnected → R n (dispatch c e n)
  announce : ∀ c e n, e ≠ .disconnected → R n ((.full : Reentry σ).dispatch c e n)
  raise : ∀ c f n, R n (raise c f n)

/-- A relation that holds of chains and of each change of which nothing is told. -/
structure Works (R : Node σ → Node σ → Prop) : Prop extends Writes R where
  remember : ∀ n c f, R n (n.modify c (·.remember f))
  shut : ∀ n c goodbye, R n (n.modify c (·.shut goodbye))
  reactor : ∀ {n c i r r'}, n.reactor? c i = some r → r.Alike r' → R n (n.setReactor c i r')

/-- It also holds of reports, but for those of the end of a channel. -/
structure Course (R : Node σ → Node σ → Prop) : Prop extends Works R where
  report : ∀ c s, s ≠ .event .disconnected → Reports R c s

/-- It also holds of finishing a channel, as a whole. -/
structure Passage (R : Node σ → Node σ → Prop) : Prop extends Course R where
  finish : ∀ c n, R n (finish c n)

/-- It also holds of each report of the end: whatever is told is no more than a chain of changes. -/
structure Rule (R : Node σ → Node σ → Prop) : Prop extends Passage R where
  farewell : ∀ c, Reports R c (.event .disconnected)

/-- An action moves every node by the relation, whether it fails or not. -/
def Moves (R : Node σ → Node σ → Prop) (a : Action σ α) : Prop := ∀ n, R n (a.apply n).2

/-- What the layer below does moves by the relation. -/
structure Reentry.Moves (R : Node σ → Node σ → Prop) (k : Reentry σ) : Prop where
  finish : ∀ c n, R n (k.finish c n)
  dispatch : ∀ c e n, e ≠ .disconnected → R n (k.dispatch c e n)

namespace Moves

variable {R : Node σ → Node σ → Prop}

theorem bind {a : Action σ α} {f : α → Action σ β} (ha : Moves R a)
    (htrans : ∀ {a b c : Node σ}, R a b → R b c → R a c) (hf : ∀ v, Moves R (f v)) :
    Moves R (a >>= f) := by
  intro n
  have h := ha n
  rw [Action.apply_bind]
  cases hn : a.apply n with
  | mk r n' =>
    rw [hn] at h
    cases r with
    | error e => exact h
    | ok v => exact htrans h (hf v n')

theorem reading (hrefl : ∀ n, R n n) {f : Channel σ → Except Fault (α × Channel σ)}
    (c : ChannelId) (hf : ∀ ch v ch', f ch = .ok (v, ch') → ch' = ch) :
    Moves R (onChannel c f) := by
  intro n
  rw [apply_onChannel]
  cases hc : n.channel? c with
  | none => exact hrefl n
  | some ch =>
    cases hch : f ch with
    | error e =>
      simp only [hch]
      exact hrefl n
    | ok field =>
      obtain ⟨v, ch'⟩ := field
      simp only [hch]
      rw [hf ch v ch' hch, Node.modify_const_self n c hc]
      exact hrefl n

theorem readingRealm (hrefl : ∀ n, R n n) (c : ChannelId) :
    Moves R (onChannel c fun ch => do
      let realm ← realmOf ch.session
      return (realm, ch) : Action σ Address) := by
  apply Moves.reading hrefl
  intro ch v ch' h
  cases hr : realmOf ch.session with
  | error e =>
    rw [hr] at h
    cases h
  | ok realm =>
    rw [hr] at h
    cases h
    rfl

end Moves

namespace Writes

variable {R : Node σ → Node σ → Prop} (hR : Writes R)

include hR

/-! ## Actions in sequence -/

theorem pure (v : α) : Moves R (Pure.pure v : Action σ α) := fun n => hR.refl n

theorem throw (f : Fault) : Moves R (throw f : Action σ α) := fun n => hR.refl n

theorem bind {a : Action σ α} {f : α → Action σ β} (ha : Moves R a) (hf : ∀ v, Moves R (f v)) :
    Moves R (a >>= f) := ha.bind hR.trans hf

theorem forM {f : β → Action σ Unit} (hf : ∀ x, Moves R (f x)) (xs : List β) :
    Moves R (xs.forM f) := by
  induction xs with
  | nil => exact hR.pure ()
  | cons x rest ih => exact hR.bind (hf x) fun _ => ih

theorem foldl {f : Node σ → β → Node σ} (hf : ∀ n x, R n (f n x)) (xs : List β) (n : Node σ) :
    R n (xs.foldl f n) := by
  induction xs generalizing n with
  | nil => exact hR.refl n
  | cons x rest ih => exact hR.trans (hf n x) (ih (f n x))

/-! ## Writing and the session -/

theorem write (c : ChannelId) (b : ByteArray) : Moves R (Courier.enqueue c b) := by
  intro n
  rw [apply_enqueue]
  cases hc : n.channel? c with
  | none => exact hR.refl n
  | some ch =>
    simp only []
    cases he : ch.enqueue c b with
    | error e => exact hR.refl n
    | ok ch' => exact hR.enqueue hc he

theorem writeFrame (c : ChannelId) (f : Frame) : Moves R (writeFrame c f) := by
  unfold Courier.writeFrame
  cases f.encode with
  | ok b => exact hR.write c b
  | error e => exact hR.throw _

theorem writePackets (c : ChannelId) (packets : List Packet) :
    Moves R (writePackets c packets) := by
  unfold Courier.writePackets
  cases sendFrames packets with
  | error e => exact hR.throw _
  | ok b =>
    by_cases hb : b.isEmpty = true
    · simp only [hb, if_true]
      exact hR.pure ()
    · simp only [hb, if_false, Bool.false_eq_true]
      exact hR.write c b

theorem stepSession {step : Session → Except InvalidStep (Session × α)} (c : ChannelId)
    (hstep : ∀ {s s' v}, step s = .ok (s', v) → s.Step s') : Moves R (stepSession c step) := by
  intro n
  rw [apply_stepSession]
  cases hc : n.channel? c with
  | none => exact hR.refl n
  | some ch =>
    simp only []
    cases hs : step ch.session with
    | error e => exact hR.refl n
    | ok field => exact hR.session hc (hstep hs)

theorem plainStep {step : Session → Except InvalidStep Session} (c : ChannelId)
    (hstep : ∀ {s s'}, step s = .ok s' → s.Step s') :
    Moves R (Courier.stepSession c (plainStep step)) := by
  apply hR.stepSession
  intro s s' v h
  exact hstep (plainStep_eq_ok_iff.1 h)

theorem consult (p : Policy σ α) : Moves R (consult p) := by
  intro n
  rw [apply_consult]
  exact hR.policy n _

theorem reading {f : Channel σ → Except Fault (α × Channel σ)} (c : ChannelId)
    (hf : ∀ ch v ch', f ch = .ok (v, ch') → ch' = ch) : Moves R (onChannel c f) :=
  .reading hR.refl c hf

/-! ## Sending and routing -/

theorem settled {k : Reentry σ} (hraise : ∀ c f n, R n (raiseWith k c f n)) (c : ChannelId)
    {a : Action σ Unit} (ha : Moves R a) (n : Node σ) : R n (settled k c a n) := by
  have hrun := ha n
  unfold Courier.settled
  split
  · rename_i n' heq
    rw [heq] at hrun
    exact hrun
  · rename_i f n' heq
    rw [heq] at hrun
    exact hR.trans hrun (hraise c f n')

section layer

variable {k : Reentry σ} (hannounce : ∀ c e n, e ≠ .disconnected → R n (k.dispatch c e n))

include hannounce

theorem sendPacketsWith (c : ChannelId) (packets : List Packet) :
    Moves R (sendPacketsWith k c packets) :=
  hR.bind (hR.writePackets c packets) fun _ n =>
    hR.foldl (fun n p => hannounce c (.packetSent p) n nofun) packets n

variable (hraise : ∀ c f n, R n (raiseWith k c f n))

include hraise

theorem offerPacket (p : Packet) (n : Node σ) (c : ChannelId) : R n (offerPacket k p n c).2 := by
  have hsend := hR.sendPacketsWith hannounce c [p] n
  unfold Courier.offerPacket
  split
  · rename_i n' heq
    rw [heq] at hsend
    exact hsend
  · rename_i f n' heq
    rw [heq] at hsend
    exact hR.trans hsend (hR.trans (hR.registry n' _) (hraise c f _))

theorem offerAll (p : Packet) (cs : List ChannelId) (n : Node σ) : R n (offerAll k p cs n).2 := by
  induction cs generalizing n with
  | nil => exact hR.refl n
  | cons c rest ih =>
    exact hR.trans (hR.offerPacket hannounce hraise p n c) (ih (Courier.offerPacket k p n c).2)

theorem routeWith (p : Packet) (n : Node σ) : R n (routeWith k p n).2 := by
  have hoffer := hR.offerAll hannounce hraise p (n.registry.channels p.recipient) n
  unfold Courier.routeWith
  split
  · exact hR.refl n
  · simp only []
    split
    · exact hR.trans hoffer (hR.registry _ _)
    · exact hoffer

end layer

end Writes

namespace Telling

variable {R : Node σ → Node σ → Prop} (hR : Telling R)

include hR

theorem sendPackets (c : ChannelId) (packets : List Packet) : Moves R (sendPackets c packets) :=
  hR.sendPacketsWith hR.announce c packets

theorem routePacket (p : Packet) (n : Node σ) : R n (routePacket p n).2 :=
  hR.routeWith hR.announce hR.raise p n

/-! ## What arrives -/

theorem receivePackets (c : ChannelId) (packets : List Packet) (n : Node σ) :
    R n (receivePackets c packets n) := by
  apply hR.foldl
  intro n p
  split
  · exact hR.refl n
  · exact hR.dispatch c _ n (by nofun)

theorem handleFrame (c : ChannelId) (role : Role) (f : Frame) (n : Node σ) :
    R n (handleFrame c role f n) := by
  unfold Courier.handleFrame
  split <;> first
    | exact hR.dispatch c _ n (by nofun)
    | exact hR.raise c _ n
    | exact hR.receivePackets c _ n
    | exact hR.refl n

theorem receive (c : ChannelId) (f : Frame) (n : Node σ) : R n (receive c f n).2 := by
  unfold Courier.receive
  cases n.channel? c with
  | none => exact hR.refl n
  | some ch => exact hR.handleFrame c ch.session.role f n

theorem openChannel (c : ChannelId) : Moves R (openChannel c : Action σ Unit) := by
  intro n
  rw [Courier.openChannel, Action.apply_get_bind]
  cases n.channel? c with
  | none => exact hR.refl n
  | some ch =>
    have hrest : Moves R (do
        Courier.stepSession c (Courier.plainStep (·.connect))
        modify (Courier.dispatch c .connected) : Action σ Unit) :=
      hR.bind (hR.plainStep c fun h => .connect h) fun _ n => hR.dispatch c _ n (by nofun)
    by_cases hrole : ch.session.role = .initiator
    · simp only [hrole, if_true]
      exact hR.bind (hR.write c _) (fun _ => hrest) n
    · simp only [hrole, if_false]
      exact hrest n

theorem greet (c : ChannelId) (n : Node σ) : R n (Connection.greet c n) :=
  hR.settled hR.raise c (hR.openChannel c) n

end Telling

namespace Works

variable {R : Node σ → Node σ → Prop} (hR : Works R)

include hR

/-! ## Faults -/

theorem refuse (c : ChannelId) (f : Fault) (n : Node σ) : R n (refuse c f n) := by
  unfold Courier.refuse
  cases refusal? f with
  | none => exact hR.shut n c true
  | some frame => exact hR.trans (hR.writeFrame c frame n) (hR.shut _ c true)

theorem rememberSignal (c : ChannelId) (i : Nat) (s : Signal) (n : Node σ) :
    R n (rememberSignal c i s n) := by
  unfold Courier.rememberSignal
  split
  · rename_i p hp
    exact hR.reactor hp (.probe p _)
  · exact hR.refl n

/-! ## What reactors do themselves -/

theorem performLedgerDemand (c : ChannelId) (d : LedgerDemand) :
    Moves R (performLedgerDemand c d) := by
  cases d with
  | retransmit packets => exact hR.writePackets c packets
  | requestAcknowledgment => exact hR.writeFrame c _
  | acknowledge count => exact hR.writeFrame c _

theorem settleLedger {c : ChannelId} {i : Nat} {l : Ledger} {n : Node σ}
    (h : n.reactor? c i = some (.reliableDelivery l)) (l' : Ledger) (demands : List LedgerDemand) :
    R n ((settleLedger c i l' demands).apply n).2 := by
  rw [Courier.settleLedger, Action.apply_modify_bind]
  exact hR.trans (hR.reactor h (.ledger l l')) (hR.forM (hR.performLedgerDemand c) demands _)

theorem ledgerReacts {c : ChannelId} {i : Nat} {l : Ledger} {n : Node σ}
    (h : n.reactor? c i = some (.reliableDelivery l)) (e : Event) :
    R n ((ledgerReacts c i l e).apply n).2 := by
  cases e with
  | sessionCreated | fetchRequested | packetReceived | packetSent | acknowledgmentRequested
  | acknowledgmentReceived => exact hR.settleLedger h _ _
  | _ => exact hR.refl n

theorem acceptCredential (c : ChannelId) (authenticate : Authenticator σ)
    (credential : Credential) : Moves R (acceptCredential c authenticate credential) := by
  refine hR.bind (.readingRealm hR.refl c) fun realm => hR.bind (hR.consult _) fun identity =>
    hR.bind (hR.plainStep c fun h => .authenticate h) fun _ =>
      hR.bind (hR.writeFrame c _) fun _ =>
        hR.bind (hR.stepSession c fun h => .identify identity _ h) fun _ => hR.pure ()

theorem performDemand (c : ChannelId) (credential : Credential) (d : Demand) :
    Moves R (performDemand c credential d) := by
  cases d with
  | credential =>
    exact hR.bind (hR.writeFrame c _) fun _ => hR.plainStep c fun h => .authenticate h
  | fetch => exact hR.writeFrame c _

theorem handshakeReacts (c : ChannelId) (address : Address) (credential : Credential)
    (e : Event) : Moves R (handshakeReacts c address credential e) := by
  cases e with
  | connected =>
    exact hR.bind (hR.writeFrame c _) fun _ => hR.plainStep c fun h => .attach address h
  | sessionCreated id =>
    exact hR.bind (hR.stepSession c fun h => .establish id _ h) fun _ =>
      hR.forM (hR.performDemand c credential) _
  | identityReceived identity =>
    exact hR.bind (hR.stepSession c fun h => .identify identity _ h) fun _ =>
      hR.forM (hR.performDemand c credential) _
  | _ => exact hR.pure ()

theorem identityOf (c : ChannelId) : Moves R (identityOf c : Action σ Address) := by
  apply hR.reading
  intro ch v ch' h
  cases hi : ch.session.identity with
  | none =>
    rw [hi] at h
    cases h
  | some identity =>
    rw [hi] at h
    cases h
    rfl

theorem attachRoute (c : ChannelId) (n : Node σ) : R n (attachRoute c n) := by
  unfold Courier.attachRoute
  split
  · exact hR.registry n _
  · exact hR.refl n

end Works

namespace Course

variable {R : Node σ → Node σ → Prop} (hR : Course R)

include hR

/-! ## Reports and faults -/

theorem reports (c : ChannelId) {e : Event} (he : e ≠ .disconnected) :
    Reports R c (.event e) := by
  apply hR.report
  intro h
  cases h
  exact he rfl

section layer

variable {k : Reentry σ} (hk : k.Moves R)

include hk

theorem perform (c : ChannelId) (n : Node σ) (a : ProbeAct) : R n (ProbeAct.perform k c n a) := by
  cases a with
  | close => exact hR.shut n c false
  | detach => exact hR.shut n c true
  | finish => exact hk.finish c n

theorem perceive (c : ChannelId) (i : Nat) (p : Probe) {s : Signal} (hs : Reports R c s)
    (n : Node σ) : R n (p.perceive k c i s n) := by
  have hacts := hR.foldl (hR.perform hk c) (p.acts (s :: p.seen)) (n.note c (.probe p.name) s)
  exact hR.trans (hR.trans (hs n _) hacts) (hR.rememberSignal c i s _)

theorem exceptionAt (c : ChannelId) (f : Fault) (n : Node σ) (i : Nat) :
    R n (exceptionAt k c f n i) := by
  unfold Courier.exceptionAt
  cases n.reactor? c i with
  | none => exact hR.refl n
  | some r =>
    cases r with
    | eventLog => exact hR.report c (.exception f) nofun n _
    | detachOnException => exact hR.refuse c f n
    | probe p => exact hR.perceive hk c i p (hR.report c (.exception f) nofun) n
    | _ => exact hR.refl n

theorem raiseWith (c : ChannelId) (f : Fault) (n : Node σ) : R n (raiseWith k c f n) :=
  hR.trans (hR.remember n c f) (hR.foldl (hR.exceptionAt hk c f) _ _)

theorem settled (c : ChannelId) {a : Action σ Unit} (ha : Moves R a) (n : Node σ) :
    R n (settled k c a n) := hR.toWrites.settled (hR.raiseWith hk) c ha n

theorem sendPacketsWith (c : ChannelId) (packets : List Packet) :
    Moves R (sendPacketsWith k c packets) := hR.toWrites.sendPacketsWith hk.dispatch c packets

theorem offerPacket (p : Packet) (n : Node σ) (c : ChannelId) : R n (offerPacket k p n c).2 :=
  hR.toWrites.offerPacket hk.dispatch (hR.raiseWith hk) p n c

theorem offerAll (p : Packet) (cs : List ChannelId) (n : Node σ) : R n (offerAll k p cs n).2 :=
  hR.toWrites.offerAll hk.dispatch (hR.raiseWith hk) p cs n

theorem routeWith (p : Packet) (n : Node σ) : R n (routeWith k p n).2 :=
  hR.toWrites.routeWith hk.dispatch (hR.raiseWith hk) p n

/-! ## What each reactor does -/

theorem createSession (c : ChannelId) (create : SessionFactory σ) (a : Address) :
    Moves R (createSession k c create a) :=
  hR.bind (hR.plainStep c fun h => .attach a h) fun _ =>
    hR.bind (hR.consult _) fun id =>
      hR.bind (hR.writeFrame c _) fun _ =>
        hR.bind (hR.stepSession c fun h => .establish id _ h) fun _ n =>
          hk.dispatch c (.sessionCreated id) n nofun

theorem flushMailbox (c : ChannelId) : Moves R (flushMailbox k c) := by
  refine hR.bind (hR.identityOf c) fun identity n => ?_
  rw [Action.apply_get_bind]
  have htake := hR.registry n (n.registry.takeAll identity).2
  simp only [Action.apply_set_bind]
  by_cases hempty : (n.registry.takeAll identity).1.isEmpty = true
  · simp only [hempty, if_true]
    exact htake
  · simp only [hempty, if_false, Bool.false_eq_true, Action.apply_get_bind]
    generalize (n.registry.takeAll identity).1 = packets
    have hsend := hR.sendPacketsWith hk c packets
      { n with registry := (n.registry.takeAll identity).2 }
    split
    · rename_i n' heq
      rw [heq] at hsend
      rw [Action.apply_set_bind]
      exact hR.trans htake (hR.trans hsend (hR.writeFrame c _ n'))
    · rename_i f n' heq
      rw [heq] at hsend
      exact hR.trans htake (hR.trans hsend (hR.registry n' _))

theorem react {c : ChannelId} {i : Nat} {r : Reactor σ} {n : Node σ} (h : n.reactor? c i = some r)
    {e : Event} (he : Reports R c (.event e)) : R n ((r.react k c i e).apply n).2 := by
  unfold Reactor.react
  split
  case h_1 | h_2 | h_3 | h_4 | h_5 => exact he n _
  case h_6 => exact hR.ledgerReacts h _
  case h_7 => exact hR.consult _ n
  case h_8 => exact hR.createSession hk c _ _ n
  case h_9 => exact hR.acceptCredential c _ _ n
  case h_10 => exact hR.routeWith hk _ n
  case h_11 => exact hR.flushMailbox hk c n
  case h_12 => exact hR.attachRoute c n
  case h_13 => exact hR.registry n _
  case h_14 => exact hR.handshakeReacts c _ _ _ n
  case h_15 =>
    rw [Action.apply_modify_bind, Action.apply_get_bind]
    have hperceive := fun p => hR.perceive hk c i p he n
    split
    · exact hperceive _
    · exact hperceive _
  case h_16 => exact hR.refl n

/-! ## Dispatch -/

theorem reactAt (c : ChannelId) {e : Event} (he : Reports R c (.event e)) (i : Nat) :
    Moves R (reactAt k c e i) := by
  intro n
  rw [Courier.reactAt, Action.apply_get_bind]
  cases h : n.reactor? c i with
  | none => exact hR.refl n
  | some r => exact hR.react hk h he

theorem dispatchWith (c : ChannelId) {e : Event} (he : Reports R c (.event e)) (n : Node σ) :
    R n (dispatchWith k c e n) :=
  hR.settled hk c (hR.forM (hR.reactAt hk c he) (n.places c)) n

end layer

theorem ended : Reentry.Moves R (.ended : Reentry σ) :=
  ⟨fun _ n => hR.refl n, fun _ _ n _ => hR.refl n⟩

/-- Finishing a channel is a chain of changes, if its end may be told and the channel be over. -/
theorem finish (c : ChannelId) (hfarewell : Reports R c (.event .disconnected))
    (hover : ∀ n, R n (n.modify c fun ch => { ch with finished := true }.close)) (n : Node σ) :
    R n (finish c n) := by
  unfold Courier.finish
  cases n.channel? c with
  | none => exact hR.refl n
  | some ch =>
    simp only []
    split
    · exact hR.refl n
    · exact hR.trans (hover n) (hR.dispatchWith hR.ended c hfarewell _)

end Course

namespace Passage

variable {R : Node σ → Node σ → Prop} (hR : Passage R)

include hR

/-! ## Layers -/

theorem quiet : Reentry.Moves R (.quiet : Reentry σ) := ⟨hR.finish, fun _ _ n _ => hR.refl n⟩

theorem full : Reentry.Moves R (.full : Reentry σ) :=
  ⟨hR.finish, fun c _ n he => hR.dispatchWith hR.quiet c (hR.reports c he) n⟩

theorem dispatchEvent (c : ChannelId) {e : Event} (he : e ≠ .disconnected) (n : Node σ) :
    R n (dispatch c e n) :=
  hR.dispatchWith hR.full c (hR.reports c he) n

theorem raise (c : ChannelId) (f : Fault) (n : Node σ) : R n (raise c f n) :=
  hR.raiseWith hR.full c f n

theorem telling : Telling R where
  toWrites := hR.toWrites
  dispatch := fun c _ n he => hR.dispatchEvent c he n
  announce := hR.full.dispatch
  raise := hR.raise

end Passage

namespace Rule

variable {R : Node σ → Node σ → Prop} (hR : Rule R)

include hR

/-! ## Any event -/

theorem note (n : Node σ) (c : ChannelId) (r : Reporter) (s : Signal) : R n (n.note c r s) := by
  by_cases hs : s = .event .disconnected
  · rw [hs]
    exact hR.farewell c n r
  · exact hR.report c s hs n r

theorem react {k : Reentry σ} (hk : k.Moves R) {c : ChannelId} {i : Nat} {r : Reactor σ}
    {n : Node σ} (h : n.reactor? c i = some r) (e : Event) : R n ((r.react k c i e).apply n).2 :=
  hR.toCourse.react hk h fun n r => hR.note n c r _

theorem reactAt {k : Reentry σ} (hk : k.Moves R) (c : ChannelId) (e : Event) (i : Nat) :
    Moves R (reactAt k c e i) :=
  hR.toCourse.reactAt hk c (fun n r => hR.note n c r _) i

theorem dispatch (c : ChannelId) (e : Event) (n : Node σ) : R n (dispatch c e n) :=
  hR.dispatchWith hR.full c (fun n r => hR.note n c r _) n

end Rule
end Courier
