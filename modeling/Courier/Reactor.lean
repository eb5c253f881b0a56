import Courier.Ledger
import Courier.Notice
import Courier.Policy

/-! # Reactors

A channel's pipeline is a list of reactors. Each is told every event in turn, does its part and may
fail; then the later ones are not told, and all are told of the fault. What each one does is defined
where a node dispatches events; here is what each one is and keeps.
-/
set_option autoImplicit false

namespace Courier

open Courier.Wire

/-! ## Probes -/

inductive ProbeAct where
  | close
  | detach
  | finish
deriving DecidableEq

/-- A reactor that reports every signal, then acts on its channel, and then may fail. What it does
can depend on the signals, the latest first: how it acts on this one and all that it had dealt with
before, whether it fails on all that it has dealt with by then. While it acts it may be told further
signals, and it has dealt with those first. -/
structure Probe where
  name : String
  acts : List Signal → List ProbeAct
  fails : List Signal → Option Fault
  /-- The signals it has dealt with. -/
  seen : List Signal

/-! ## The reactors -/

inductive Reactor (σ : Type) where
  | eventLog
  /-- Closes the channel when anything failed, after telling the peer if it is refused. -/
  | detachOnException
  | reliableDelivery (ledger : Ledger)
  /-- Tells the application of packets. -/
  | packetObserver
  /-- Tells the application when the connection is identified and when it is over. -/
  | connectionObserver
  /-- Refuses addresses that are not served. -/
  | addressFilter (verify : AddressVerifier σ)
  | sessionCreator (create : SessionFactory σ)
  | credentialAuthenticator (authenticate : Authenticator σ)
  | packetDelivery
  /-- Sends the mailbox to the peer that asks for it. -/
  | flushOnFetch
  /-- Attaches the channel to its identity while it is open. -/
  | routeAttachment
  /-- Takes the initiator's steps of the handshake. -/
  | clientHandshake (address : Address) (credential : Credential)
  | probe (p : Probe)
  | silent

end Courier
