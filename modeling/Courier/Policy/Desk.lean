import Courier.Policy.Credentials
import Courier.Policy.Randomness

/-! # The desk

The state of the policies that come with this library: a credential table that is filled by hand,
the identities taken on first use, and sources of random session ids.
-/
set_option autoImplicit false

namespace Courier

open Courier.Wire

/-- Answers from a part of the state. -/
def Policy.within {σ τ α : Type} (part : σ → τ) (put : σ → τ → σ) (p : Policy τ α) : Policy σ α :=
  fun s =>
    let (answer, t) := p (part s)
    (answer, put s t)

structure Desk where
  table : CredentialTable
  enrollment : Enrollment
  sources : List Randomness

namespace Desk

/-- Accepts what the table holds. -/
def byTable : Authenticator Desk := fun realm c d => (d.table.authenticate realm c, d)

/-- Accepts a credential for the identity that it takes, or took. -/
def onFirstUse : Authenticator Desk := fun realm c =>
  Policy.within enrollment (fun d e => { d with enrollment := e }) (Enrollment.authenticate realm c)

/-- Draws session ids from one of the sources. -/
def randomSessionId (source : Nat) : SessionFactory Desk := fun a =>
  Policy.within (fun d => (d.sources[source]?).getD ⟨.empty, 0⟩)
    (fun d r => { d with sources := d.sources.set source r }) (Randomness.sessionId a)

end Desk
end Courier
