import Courier.Session
import Courier.Text.Duration
import Courier.Wire.Command

/-! # Faults of a connection

Everything that can go wrong on a connection, by cause. A fault is raised on the channel where it
happened; faults of reading and of writing leave the byte stream in doubt.
-/
set_option autoImplicit false

namespace Courier

open Courier.Wire

/-- A channel's place among the channels of its node. -/
structure ChannelId where
  index : Nat
deriving DecidableEq

def ChannelId.text (c : ChannelId) : String := s!"#{c.index}"

/-- Why bytes could not be read as a header or a frame. -/
inductive ReadFault where
  /-- They are none. -/
  | malformed (error : WireError)
  /-- The stream ended inside a header or a frame. -/
  | truncated (buffered : Nat)
  /-- The stream ended where a header or an answer was due. -/
  | endOfStream
  /-- The stream failed. -/
  | transport (text : String)
deriving DecidableEq

def ReadFault.message : ReadFault → String
  | malformed error => error.message
  | truncated buffered => s!"stream closed mid-frame with {buffered} bytes buffered"
  | endOfStream => "unexpected end of stream"
  | transport text => "transport error: " ++ text

/-- What a stream says when it fails: whether it ended too early, and its text. -/
structure StreamError where
  early : Bool
  text : String
deriving DecidableEq

/-- The read fault of a stream that failed. -/
def ReadFault.ofStream (e : StreamError) : ReadFault :=
  if e.early then .endOfStream else .transport e.text

/-- Why bytes could not be written. -/
inductive WriteFault where
  | closed (channel : ChannelId)
  /-- Nobody takes the channel's queue any more. -/
  | writerGone (channel : ChannelId)
  /-- The stream failed. -/
  | transport (text : String)
deriving DecidableEq

/-- The message of a write fault, with channels named by `name`. -/
def WriteFault.message (name : ChannelId → String) : WriteFault → String
  | closed channel => "channel " ++ name channel ++ " is closed"
  | writerGone channel => "channel " ++ name channel ++ " writer is gone"
  | transport text => text

inductive Fault where
  | read (fault : ReadFault)
  | write (fault : WriteFault)
  /-- An address that is not served here was attached to. -/
  | unknownAddress (address : Address)
  | invalidCredential
  | greetingRejected
  | authenticationRejected
  | step (refusal : InvalidStep)
  /-- A frame that only the other role receives. -/
  | unexpectedFrame (command : Command) (role : Role)
  | notIdentified
  | handshakeTimeout (elapsed : Nat)
  /-- A saved ledger could not be read. -/
  | snapshot (text : String)
deriving DecidableEq

namespace Fault

/-- A codec error raised on a channel. -/
def ofWire (e : WireError) : Fault := .read (.malformed e)

/-- Whether the byte stream cannot be trusted any more. -/
def isFatal : Fault → Bool
  | read _ => true
  | write _ => true
  | _ => false

/-- The message of a fault, with channels named by `name`. -/
def messageWith (name : ChannelId → String) : Fault → String
  | read fault => "read error: " ++ fault.message
  | write fault => "write error: " ++ fault.message name
  | unknownAddress address => "unknown address: " ++ address.text
  | invalidCredential => "invalid credential"
  | greetingRejected => "greeting rejected by peer"
  | authenticationRejected => "authentication rejected by peer"
  | step refusal => refusal.message
  | unexpectedFrame command role =>
    "unexpected " ++ command.name ++ " frame on " ++ role.name ++ " side"
  | notIdentified => "channel is not identified"
  | handshakeTimeout elapsed => "handshake timeout after " ++ Text.duration elapsed
  | snapshot text => "invalid reliability snapshot: " ++ text

def message (f : Fault) : String := f.messageWith ChannelId.text

end Fault
end Courier
