import Courier.Text.Lossy
import Courier.Text.Quoted
import Courier.Wire.Error

/-! # Labels: addresses, credentials and session ids

A label is between 1 and 255 opaque bytes, written after one byte that holds their number. The empty
label is no value: replies use it to say no. Addresses, credentials and session ids are labels of
three kinds, so one cannot stand where another is meant.
-/
set_option autoImplicit false

namespace Courier.Wire

/-! ## Kinds -/

inductive LabelKind where
  | address
  | credential
  | sessionId
deriving DecidableEq

def LabelKind.name : LabelKind → String
  | address => "address"
  | credential => "credential"
  | sessionId => "session id"

def maxLabelSize : Nat := 255

/-! ## Labels -/

/-- A byte string that its length byte can describe and that is not empty. -/
structure Label (kind : LabelKind) where
  bytes : ByteArray
  size_pos : 0 < bytes.size
  size_le : bytes.size ≤ maxLabelSize
deriving DecidableEq

/-- An endpoint that packets are sent to; two are equal when their bytes are. -/
abbrev Address := Label .address

/-- A secret that proves an identity. -/
abbrev Credential := Label .credential

/-- A name that the responder gives to one connection's handshake. -/
abbrev SessionId := Label .sessionId

namespace Label

variable {kind : LabelKind}

/-- The label of these bytes, or the length that is out of range. -/
def of? (kind : LabelKind) (bytes : ByteArray) : Except WireError (Label kind) :=
  if h : 0 < bytes.size ∧ bytes.size ≤ maxLabelSize then .ok ⟨bytes, h.1, h.2⟩
  else .error (.invalidLength kind.name bytes.size)

def size (l : Label kind) : Nat := l.bytes.size

def toList (l : Label kind) : List UInt8 := l.bytes.data.toList

def text (l : Label kind) : String := Text.lossy l.bytes

/-- Labels in the order of their bytes, a label before its extensions. -/
def le (a b : Label kind) : Bool := (compare a.toList b.toList).isLE

theorem ext_bytes {a b : Label kind} (h : a.bytes = b.bytes) : a = b := by
  cases a
  cases b
  cases h
  rfl

theorem of?_bytes (l : Label kind) : of? kind l.bytes = .ok l :=
  dif_pos ⟨l.size_pos, l.size_le⟩

theorem bytes_of_of? {bytes : ByteArray} {l : Label kind} (h : of? kind bytes = .ok l) :
    l.bytes = bytes := by
  unfold of? at h
  split at h
  · cases h; rfl
  · cases h

end Label

/-- A label in diagnostics: a credential shows its length and none of its bytes. -/
def Label.debug : {kind : LabelKind} → Label kind → String
  | .address, a => "Address(" ++ Text.quoted a.text ++ ")"
  | .sessionId, s => "SessionId(" ++ Text.quoted s.text ++ ")"
  | .credential, c => s!"Credential(<{c.size} bytes redacted>)"

end Courier.Wire
