/-! # Bytes shown as text

Addresses and session ids are arbitrary bytes; messages show them as UTF-8. A maximal run of bytes
that begins a well-formed sequence and is then cut short is shown as one U+FFFD, and so is every
byte that can begin none. The reader is a left-to-right machine with at most one open sequence, so
the text of a byte list is found in one pass.
-/
set_option autoImplicit false

namespace Courier.Text

/-! ## Open sequences -/

/-- A sequence whose first bytes have been read: the bits so far, the range the next byte must lie
in, and the number of bytes after that one. -/
structure OpenSequence where
  bits : Nat
  low : UInt8
  high : UInt8
  later : Nat

/-- The sequence that a lead byte opens. The second byte's range leaves out overlong forms,
surrogates and code points above U+10FFFF. -/
def OpenSequence.ofLead? (b : UInt8) : Option OpenSequence :=
  if b < 0xC2 then none
  else if b < 0xE0 then some ⟨b.toNat - 0xC0, 0x80, 0xBF, 0⟩
  else if b < 0xF0 then
    some ⟨b.toNat - 0xE0, if b = 0xE0 then 0xA0 else 0x80, if b = 0xED then 0x9F else 0xBF, 1⟩
  else if b < 0xF5 then
    some ⟨b.toNat - 0xF0, if b = 0xF0 then 0x90 else 0x80, if b = 0xF4 then 0x8F else 0xBF, 2⟩
  else none

/-- Whether a byte continues the sequence. -/
def OpenSequence.accepts (s : OpenSequence) (b : UInt8) : Bool :=
  s.low ≤ b && b ≤ s.high

/-- The bits of the sequence with one more continuation byte. -/
def OpenSequence.extend (s : OpenSequence) (b : UInt8) : Nat :=
  s.bits * 64 + (b.toNat - 0x80)

/-! ## The machine -/

/-- The character shown for bytes that are not UTF-8. -/
def replacement : Char := '\uFFFD'

/-- Reads a byte outside any sequence: what is shown for it, and the sequence it opens. -/
def startByte (b : UInt8) : List Char × Option OpenSequence :=
  if b < 0x80 then ([Char.ofNat b.toNat], none)
  else match OpenSequence.ofLead? b with
    | some s => ([], some s)
    | none => ([replacement], none)

/-- Reads one byte after the bytes of an open sequence, if there is one. -/
def readByte (s : Option OpenSequence) (b : UInt8) : List Char × Option OpenSequence :=
  match s with
  | none => startByte b
  | some s =>
    if s.accepts b then
      match s.later with
      | 0 => ([Char.ofNat (s.extend b)], none)
      | k + 1 => ([], some ⟨s.extend b, 0x80, 0xBF, k⟩)
    else
      let (shown, next) := startByte b
      (replacement :: shown, next)

/-- The characters of a byte list that follows an open sequence. -/
def lossyChars : Option OpenSequence → List UInt8 → List Char
  | none, [] => []
  | some _, [] => [replacement]
  | s, b :: rest => (readByte s b).1 ++ lossyChars (readByte s b).2 rest

/-- The bytes as text, with U+FFFD for what is not UTF-8. -/
def lossy (bytes : ByteArray) : String :=
  String.ofList (lossyChars none bytes.data.toList)

end Courier.Text
