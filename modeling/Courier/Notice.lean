import Courier.Event

/-! # Notices

Some reactors only report what they are told: the event log, the observers that stand for an
application's listeners, and probes. A notice is one such report. The event log's reports have a
level and named fields.
-/
set_option autoImplicit false

namespace Courier

open Courier.Wire

inductive Reporter where
  | eventLog
  | packetObserver
  | connectionObserver
  | probe (name : String)
deriving DecidableEq

/-- A report of one signal on one channel. -/
structure Notice where
  reporter : Reporter
  channel : ChannelId
  role : Role
  signal : Signal
deriving DecidableEq

/-! ## The event log's text -/

inductive Level where
  | trace
  | debug
  | info
  | warn
deriving DecidableEq

def Level.name : Level → String
  | trace => "TRACE"
  | debug => "DEBUG"
  | info => "INFO"
  | warn => "WARN"

/-- The level at which the event log reports a signal. -/
def Signal.level : Signal → Level
  | .event (.identityReceived _) => .info
  | .event (.packetReceived _) | .event (.packetSent _) => .trace
  | .event .acknowledgmentRequested | .event (.acknowledgmentReceived _) => .trace
  | .event _ => .debug
  | .exception _ => .warn

/-- The words in which the event log reports a signal. -/
def Signal.words : Signal → String
  | .event .connected => "connected"
  | .event (.attachRequested _) => "attach requested"
  | .event (.sessionCreated _) => "session created"
  | .event (.credentialReceived _) => "credential received"
  | .event (.identityReceived _) => "identified"
  | .event .fetchRequested => "fetch requested"
  | .event (.packetReceived _) => "packet received"
  | .event (.packetSent _) => "packet sent"
  | .event .acknowledgmentRequested => "acknowledgment requested"
  | .event (.acknowledgmentReceived _) => "acknowledgment received"
  | .event .disconnected => "disconnected"
  | .exception _ => "pipeline exception"

/-- The fields that describe a packet in the event log. -/
def packetFields (p : Packet) : List (String × String) :=
  [("from", p.sender.text), ("to", p.recipient.text), ("len", toString p.payload.size)]

/-- The fields of a signal in the event log, on a channel of this role. -/
def Signal.fields (role : Role) : Signal → List (String × String)
  | .event .connected => [("role", role.name)]
  | .event (.attachRequested a) => [("address", a.text)]
  | .event (.sessionCreated id) => [("session_id", id.text)]
  | .event (.identityReceived a) => [("identity", a.text)]
  | .event (.packetReceived p) => packetFields p
  | .event (.packetSent p) => packetFields p
  | .event (.acknowledgmentReceived n) => [("count", toString n)]
  | .event _ => []
  | .exception f => [("error", f.message)]

/-- The fields of a notice, the channel and the words among them. -/
def Notice.fields (n : Notice) : List (String × String) :=
  ("channel", n.channel.text) :: ("message", n.signal.words) :: n.signal.fields n.role

end Courier
