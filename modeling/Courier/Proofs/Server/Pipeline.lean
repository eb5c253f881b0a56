import Courier.Proofs.Node.Traffic
import Courier.Server

/-! # The pipeline of a server's connection

What stands behind the front, and what it does about the events of the handshake.
-/
set_option autoImplicit false

namespace Courier

open Courier.Wire Courier.Routing

variable {σ : Type}

/-- The reactors of a server's pipeline behind those in front. -/
def serverRest (w : ServerWiring σ) : List (Reactor σ) :=
  (if w.observed then [.packetObserver] else []) ++
    [.addressFilter w.verify, .sessionCreator w.create, .credentialAuthenticator w.authenticate,
      .packetDelivery, .flushOnFetch, .routeAttachment]

theorem server_pipeline_eq (w : ServerWiring σ) : w.pipeline = front .empty ++ serverRest w := by
  rw [ServerWiring.pipeline, serverRest, List.append_assoc]
  rfl

theorem plain_serverRest (w : ServerWiring σ) : ∀ r ∈ serverRest w, r.Plain := by
  intro r hr
  unfold serverRest at hr
  cases hw : w.observed <;>
    simp only [hw, if_true, if_false, Bool.false_eq_true, List.nil_append, List.cons_append,
      List.mem_cons, List.not_mem_nil, or_false] at hr
  · obtain rfl | rfl | rfl | rfl | rfl | rfl := hr <;> trivial
  · obtain rfl | rfl | rfl | rfl | rfl | rfl | rfl := hr <;> trivial

/-! ## The handshake -/

section handshake

variable (k : Reentry σ) (c : ChannelId) (l : Ledger) (w : ServerWiring σ)

theorem reaction_connected : reaction k c .connected l (serverRest w) = pure () := by
  cases w with
  | mk timing verify create authenticate observed => cases observed <;> rfl

theorem reaction_sessionCreated (id : SessionId) :
    reaction k c (.sessionCreated id) l (serverRest w) = settleLedger c 2 .empty [] := by
  cases w with
  | mk timing verify create authenticate observed => cases observed <;> rfl

theorem reaction_attachRequested (a : Address) :
    reaction k c (.attachRequested a) l (serverRest w) = (do
      consult (w.verify a)
      createSession k c w.create a) := by
  have hlast : ∀ x : Action σ Unit, (x >>= fun _ => pure ()) = x := fun x => bind_pure_unit
  cases w with
  | mk timing verify create authenticate observed =>
    cases observed <;> exact congrArg (consult (verify a) >>= ·) (funext fun _ => hlast _)

theorem reaction_credentialReceived (credential : Credential) :
    reaction k c (.credentialReceived credential) l (serverRest w) = (do
      acceptCredential c w.authenticate credential
      modify (attachRoute c)) := by
  cases w with
  | mk timing verify create authenticate observed => cases observed <;> rfl

theorem reaction_disconnected :
    reaction k c .disconnected l (serverRest w) =
      modify fun n => { n with registry := n.registry.release c } := by
  cases w with
  | mk timing verify create authenticate observed => cases observed <;> rfl

end handshake

/-! ## Packets -/

/-- A packet is counted, told to those who listen, and routed. -/
theorem reaction_packetReceived (k : Reentry σ) (c : ChannelId) (l : Ledger) (w : ServerWiring σ)
    (p : Packet) : ∃ told : Node σ → Node σ, (∀ n, Quiet n (told n)) ∧
      reaction k c (.packetReceived p) l (serverRest w) = (do
        settleLedger c 2 l.recordReceived []
        modify told
        modify fun n => (routeWith k p n).2) := by
  cases w with
  | mk timing verify create authenticate observed =>
    cases observed with
    | false => exact ⟨fun n => n, .refl, rfl⟩
    | true =>
      refine ⟨fun n => n.note c .packetObserver (.event (.packetReceived p)), ?_, rfl⟩
      exact fun n => quiet_note n c _ _ fun _ h => nomatch h

/-- A packet that arrives is reported, counted, told to those who listen, and routed. -/
theorem server_packetReceived {n : Node σ} {c : ChannelId} {ch : Channel σ} {l : Ledger}
    {w : ServerWiring σ} (hch : n.channel? c = some ch) (hw : ch.Wired l (serverRest w))
    (p : Packet) : ∃ m, Quiet (n.heard c p) m ∧
      dispatch c (.packetReceived p) n = (routePacket p m).2 := by
  obtain ⟨told, hquiet, hreaction⟩ := reaction_packetReceived .full c l w p
  have hnoted := (n.channel?_note c c .eventLog (.event (.packetReceived p))).trans hch
  refine ⟨told (n.heard c p), hquiet _, ?_⟩
  rw [dispatch, dispatchWith_eq later_rule.full ⟨ch, hch, hw⟩, hreaction, heard_eq hch hw,
    ← Node.setReactor_eq hnoted]
  rfl

theorem reaction_fetchRequested (k : Reentry σ) (c : ChannelId) (l : Ledger) (w : ServerWiring σ) :
    reaction k c .fetchRequested l (serverRest w) = (do
      settleLedger c 2 l.flush.1 l.flush.2
      flushMailbox k c) := by
  have hlast : ∀ x : Action σ Unit, (x >>= fun _ => pure ()) = x := fun x => bind_pure_unit
  cases w with
  | mk timing verify create authenticate observed =>
    cases observed <;>
      exact congrArg (settleLedger c 2 l.flush.1 l.flush.2 >>= ·) (funext fun _ => hlast _)

section acknowledgments

variable (k : Reentry σ) (c : ChannelId) (l : Ledger) (w : ServerWiring σ)

theorem reaction_acknowledgmentRequested :
    reaction k c .acknowledgmentRequested l (serverRest w) =
      settleLedger c 2 l l.answerRequest := by
  have hlast : ∀ x : Action σ Unit, (x >>= fun _ => pure ()) = x := fun x => bind_pure_unit
  cases w with
  | mk timing verify create authenticate observed => cases observed <;> exact hlast _

theorem reaction_acknowledgmentReceived (count : UInt32) :
    reaction k c (.acknowledgmentReceived count) l (serverRest w) =
      settleLedger c 2 (l.acknowledge count).1 (l.acknowledge count).2 := by
  have hlast : ∀ x : Action σ Unit, (x >>= fun _ => pure ()) = x := fun x => bind_pure_unit
  cases w with
  | mk timing verify create authenticate observed => cases observed <;> exact hlast _

end acknowledgments

end Courier
