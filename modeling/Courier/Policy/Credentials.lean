import Courier.Policy

/-! # Whose credential is it

A table holds the credentials accepted in each realm. The automatic rule fills such a table by
itself: a credential of the form user, newline, secret stands for the identity `user@realm`, and the
first credential that is presented for an identity takes it for good.
-/
set_option autoImplicit false

namespace Courier

open Courier.Wire

/-! ## Tables -/

/-- The credentials accepted in each realm, with their identities. -/
structure CredentialTable where
  rows : List ((Address × Credential) × Address)

namespace CredentialTable

def empty : CredentialTable := ⟨[]⟩

/-- Accepts a credential in a realm no more. -/
def reject (t : CredentialTable) (realm : Address) (c : Credential) : CredentialTable :=
  ⟨t.rows.filter (·.1 ≠ (realm, c))⟩

/-- Accepts a credential in a realm, for this identity and no other. -/
def accept (t : CredentialTable) (realm : Address) (c : Credential) (identity : Address) :
    CredentialTable :=
  ⟨((realm, c), identity) :: (t.reject realm c).rows⟩

def lookup (t : CredentialTable) (realm : Address) (c : Credential) : Option Address :=
  t.rows.lookup (realm, c)

/-- The identity of a credential, or the fault that it has none. -/
def authenticate (t : CredentialTable) (realm : Address) (c : Credential) :
    Except Fault Address :=
  match t.lookup realm c with
  | some identity => .ok identity
  | none => .error .invalidCredential

end CredentialTable

/-! ## Identities taken on first use -/

/-- The user part of a credential: what stands before its first newline. -/
def userPart? (c : Credential) : Option (List UInt8) :=
  let user := c.toList.takeWhile (· ≠ 0x0A)
  if user.length = c.size ∨ user = [] then none else some user

/-- The identity that a credential stands for: the user part, an at sign and the realm. -/
def identityFor (realm : Address) (c : Credential) : Except Fault Address :=
  match userPart? c with
  | none => .error .invalidCredential
  | some user =>
    match Label.of? .address (user.toByteArray ++ [0x40].toByteArray ++ realm.bytes) with
    | .ok identity => .ok identity
    | .error _ => .error .invalidCredential

/-- The identities that are taken and the credentials that took them. -/
structure Enrollment where
  claimed : List Address
  table : CredentialTable

namespace Enrollment

def empty : Enrollment := ⟨[], .empty⟩

/-- Takes an identity for a credential, unless it is taken. -/
def claim (e : Enrollment) (realm : Address) (c : Credential) (identity : Address) : Enrollment :=
  if e.claimed.contains identity then e
  else ⟨identity :: e.claimed, e.table.accept realm c identity⟩

/-- The identity of a credential, which it takes if it is free. -/
def authenticate (realm : Address) (c : Credential) : Policy Enrollment Address := fun e =>
  match identityFor realm c with
  | .error f => (.error f, e)
  | .ok identity =>
    let e := e.claim realm c identity
    (e.table.authenticate realm c, e)

end Enrollment
end Courier
