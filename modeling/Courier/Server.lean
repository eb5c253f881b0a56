import Courier.Connection
import Courier.Policy.Desk

/-! # Servers

A server wires every connection that it accepts with the same pipeline. Its policies say whom it
lets in; all its connections share one registry.
-/
set_option autoImplicit false

namespace Courier

open Courier.Wire

/-! ## Settings -/

def defaultTcpPort : Nat := 4857

def defaultHost : String := "0.0.0.0"

/-- What a server is told at its start. -/
structure ServerSettings where
  host : String := defaultHost
  tcpPort : Nat := defaultTcpPort
  /-- The addresses that clients may attach to; none means any. -/
  realms : List Address := []
  timing : Timing := {}

/-- The place that a server listens on. -/
def ServerSettings.bind (s : ServerSettings) : String := s!"{s.host}:{s.tcpPort}"

/-- A realm that is not an address. -/
structure InvalidRealm where
  realm : String
  error : WireError

def InvalidRealm.message (e : InvalidRealm) : String :=
  "invalid realm " ++ Text.quoted e.realm ++ ": " ++ e.error.message

/-- The address that a realm's text names. -/
def realmOfText (realm : String) : Except InvalidRealm Address :=
  (Label.of? .address realm.toUTF8).mapError (⟨realm, ·⟩)

/-! ## Pipelines -/

variable {σ : Type}

structure ServerWiring (σ : Type) where
  timing : Timing
  verify : AddressVerifier σ
  create : SessionFactory σ
  authenticate : Authenticator σ
  /-- Whether the application listens to packets. -/
  observed : Bool

def ServerSettings.verifier (s : ServerSettings) : AddressVerifier σ :=
  if s.realms.isEmpty then acceptAny else whitelist s.realms

/-- The wiring by the settings: identities are taken on first use, and session ids are random. -/
def ServerSettings.wiring (s : ServerSettings) : ServerWiring Desk :=
  ⟨s.timing, s.verifier, Desk.randomSessionId 0, Desk.onFirstUse, false⟩

def ServerWiring.pipeline (w : ServerWiring σ) : List (Reactor σ) :=
  [.eventLog, .detachOnException, .reliableDelivery .empty] ++
    (if w.observed then [.packetObserver] else []) ++
    [.addressFilter w.verify, .sessionCreator w.create, .credentialAuthenticator w.authenticate,
      .packetDelivery, .flushOnFetch, .routeAttachment]

def accept (w : ServerWiring σ) (now : Nat) (n : Node σ) : Connection × Node σ :=
  let (c, n) := n.addChannel (.start (.start .responder now w.timing) w.pipeline)
  Connection.start c .responder true now w.timing.tickInterval n

end Courier
