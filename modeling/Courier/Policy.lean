import Courier.Fault

/-! # Policies

A handshake asks three questions: is this address served, what id does this session get, and whose
credential is this. A policy answers one of them. It may keep a state of any type `σ`, which all
policies of a node share, and a failed answer can change the state too.
-/
set_option autoImplicit false

namespace Courier

open Courier.Wire

/-- An answer that reads and writes a shared state. -/
abbrev Policy (σ α : Type) := σ → Except Fault α × σ

/-- Is this address served? -/
abbrev AddressVerifier (σ : Type) := Address → Policy σ Unit

/-- What is the id of a session with this address? -/
abbrev SessionFactory (σ : Type) := Address → Policy σ SessionId

/-- Whose credential is this, in this realm? -/
abbrev Authenticator (σ : Type) := Address → Credential → Policy σ Address

/-! ## Addresses -/

def acceptAny {σ : Type} : AddressVerifier σ := fun _ s => (.ok (), s)

def whitelist {σ : Type} (allowed : List Address) : AddressVerifier σ := fun a s =>
  (if a ∈ allowed then .ok () else .error (.unknownAddress a), s)

/-! ## Session ids -/

def fixedSessionId {σ : Type} (id : SessionId) : SessionFactory σ := fun _ s => (.ok id, s)

def noSessionId {σ : Type} (f : Fault) : SessionFactory σ := fun _ s => (.error f, s)

end Courier
