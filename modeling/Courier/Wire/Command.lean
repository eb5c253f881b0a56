/-! # Command codes

The first byte of every frame. A code outside the table is no error: such a frame is one byte long
and is passed over.
-/
set_option autoImplicit false

namespace Courier.Wire

inductive Command where
  /-- The initiator names the address it wishes to reach. -/
  | attach
  /-- The initiator submits its credential. -/
  | authenticate
  /-- The responder tells the identity it has accepted. -/
  | identify
  /-- The responder gives a session id. -/
  | session
  /-- Asks for the packets kept in the mailbox. -/
  | fetch
  | send
  /-- Asks how many packets have been received. -/
  | requestAcknowledgment
  /-- Tells how many packets have been received. -/
  | acknowledge
  /-- Says that the sender closes the connection. -/
  | detach
deriving DecidableEq

namespace Command

def code : Command → UInt8
  | attach => 0x01
  | authenticate => 0x02
  | identify => 0x03
  | session => 0x04
  | fetch => 0x05
  | send => 0x06
  | requestAcknowledgment => 0x07
  | acknowledge => 0x08
  | detach => 0xFF

def all : List Command :=
  [attach, authenticate, identify, session, fetch, send, requestAcknowledgment, acknowledge, detach]

def ofCode? (b : UInt8) : Option Command := all.find? (·.code = b)

def name : Command → String
  | attach => "Attach"
  | authenticate => "Authenticate"
  | identify => "Identify"
  | session => "Session"
  | fetch => "Fetch"
  | send => "Send"
  | requestAcknowledgment => "RequestAcknowledgment"
  | acknowledge => "Acknowledge"
  | detach => "Detach"

theorem ofCode?_code (c : Command) : ofCode? c.code = some c := by
  cases c <;> decide

theorem code_of_ofCode? {b : UInt8} {c : Command} (h : ofCode? b = some c) : c.code = b := by
  simpa using List.find?_some h

end Command
end Courier.Wire
