import Courier.Wire.Label

/-! # The handshake of one connection

Both ends of a connection run the same machine. It goes from `unconnected` through `connected`,
`attached`, `established` and `authenticated` to `identified`, one step at a time, and from any
phase to `closed`, which it never leaves. A step from the wrong phase is refused and changes
nothing. Some steps ask the initiator for a frame; the responder is asked for none.

Times are in nanoseconds.
-/
set_option autoImplicit false

namespace Courier

open Courier.Wire

/-! ## Roles, phases and settings -/

/-- The end of a connection: the one that opened it, or the one that accepted it. -/
inductive Role where
  | initiator
  | responder
deriving DecidableEq

def Role.name : Role → String
  | initiator => "Initiator"
  | responder => "Responder"

inductive Phase where
  /-- The header has not been exchanged. -/
  | unconnected
  | connected
  | attached
  | established
  /-- The credential has been sent, or accepted. -/
  | authenticated
  | identified
  | closed
deriving DecidableEq

def Phase.name : Phase → String
  | unconnected => "Unconnected"
  | connected => "Connected"
  | attached => "Attached"
  | established => "SessionEstablished"
  | authenticated => "Authenticated"
  | identified => "Identified"
  | closed => "Closed"

/-- How long a handshake may take, and how often that is checked. -/
structure Timing where
  handshakeTimeout : Nat := 30000000000
  tickInterval : Nat := 1000000000

/-- What a step asks the initiator to send. -/
inductive Demand where
  /-- An AUTHENTICATE frame with the credential. -/
  | credential
  | fetch
deriving DecidableEq

/-- The refusal of a step: the phase it was tried in and what was tried. -/
structure InvalidStep where
  phase : Phase
  operation : String
deriving DecidableEq

def InvalidStep.message (e : InvalidStep) : String :=
  "invalid state transition: cannot " ++ e.operation ++ " from " ++ e.phase.name

/-! ## Sessions -/

structure Session where
  role : Role
  phase : Phase
  timing : Timing
  startedAt : Nat
  /-- The address that was attached to: the realm, on the responder's side. -/
  attachedAddress : Option Address
  sessionId : Option SessionId
  /-- The initiator's identity, on both sides. -/
  identity : Option Address

namespace Session

def start (role : Role) (now : Nat) (timing : Timing) : Session :=
  ⟨role, .unconnected, timing, now, none, none, none⟩

def isClosed (s : Session) : Bool := s.phase = .closed

/-- Refuses an operation outside its phase. -/
def require (s : Session) (phase : Phase) (operation : String) : Except InvalidStep Unit :=
  if s.phase = phase then .ok () else .error ⟨s.phase, operation⟩

/-- What a step asks for, which is nothing on the responder's side. -/
def demands (s : Session) (d : Demand) : List Demand :=
  match s.role with
  | .initiator => [d]
  | .responder => []

def connect (s : Session) : Except InvalidStep Session := do
  s.require .unconnected "connect"
  return { s with phase := .connected }

def attach (s : Session) (address : Address) : Except InvalidStep Session := do
  s.require .connected "attach"
  return { s with attachedAddress := some address, phase := .attached }

def establish (s : Session) (id : SessionId) : Except InvalidStep (Session × List Demand) := do
  s.require .attached "establish"
  return ({ s with sessionId := some id, phase := .established }, s.demands .credential)

/-- The credential has been sent, or accepted. -/
def authenticate (s : Session) : Except InvalidStep Session := do
  s.require .established "authenticate"
  return { s with phase := .authenticated }

def identify (s : Session) (identity : Address) :
    Except InvalidStep (Session × List Demand) := do
  s.require .authenticated "identify"
  return ({ s with identity := some identity, phase := .identified }, s.demands .fetch)

def close (s : Session) : Session := { s with phase := .closed }

/-- Closes the session, and tells whether it was still open. -/
def shut (s : Session) : Bool × Session := if s.isClosed then (false, s) else (true, s.close)

/-- How long the handshake has taken, when that is more than it may take. A session that is
identified or closed is never late. -/
def overrun? (s : Session) (now : Nat) : Option Nat :=
  if s.phase = .identified ∨ s.phase = .closed then none
  else if now - s.startedAt > s.timing.handshakeTimeout then some (now - s.startedAt)
  else none

end Session
end Courier
