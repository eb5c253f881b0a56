import Courier.Server

/-! # The options of a server

A server's settings as words on a command line: `--bind HOST`, `--port NUMBER`,
`--handshake-timeout SECONDS`, each at most once, and `--realm ADDRESS` any number of times. A value
is the next word, or follows an equals sign.
-/
set_option autoImplicit false

namespace Courier

open Courier.Wire

/-- Why words are no options. -/
inductive OptionError where
  | unknown (word : String)
  /-- Nothing follows an option. -/
  | noValue (option : String)
  /-- A value that the option cannot have. -/
  | badValue (option value : String)
  | repeated (option : String)
  | invalidRealm (error : InvalidRealm)

def OptionError.message : OptionError → String
  | unknown word => "unexpected argument " ++ Text.quoted word
  | noValue option => "a value is required for " ++ option
  | badValue option value => "invalid value " ++ Text.quoted value ++ " for " ++ option
  | repeated option => option ++ " cannot be used more than once"
  | invalidRealm error => error.message

/-- Splits a word at its first equals sign. -/
def splitOption (word : String) : String × Option String :=
  match word.splitOn "=" with
  | name :: part :: parts => (name, some ("=".intercalate (part :: parts)))
  | _ => (word, none)

/-- The options whose words are separate from their values. -/
def pairOptions : List String → Except OptionError (List (String × String))
  | [] => .ok []
  | word :: rest =>
    match splitOption word with
    | (option, some value) => return (option, value) :: (← pairOptions rest)
    | (option, none) =>
      match rest with
      | [] => .error (.noValue option)
      | value :: rest => return (option, value) :: (← pairOptions rest)

/-- A number below `bound` as an option's value. -/
def numberOption (option value : String) (bound : Nat) : Except OptionError Nat :=
  match value.toNat? with
  | some n => if n < bound then .ok n else .error (.badValue option value)
  | none => .error (.badValue option value)

def ServerSettings.take (s : ServerSettings) : String × String → Except OptionError ServerSettings
  | ("--bind", host) => .ok { s with host }
  | ("--port", value) => do return { s with tcpPort := ← numberOption "--port" value 0x10000 }
  | ("--handshake-timeout", value) => do
    let seconds ← numberOption "--handshake-timeout" value 0x10000000000000000
    return { s with timing := { s.timing with handshakeTimeout := seconds * 1000000000 } }
  | ("--realm", value) => do
    let realm ← (realmOfText value).mapError .invalidRealm
    return { s with realms := s.realms ++ [realm] }
  | (word, _) => .error (.unknown word)

/-- The first option that is there twice, realms apart. -/
def repeatedOption? : List (String × String) → Option String
  | [] => none
  | (option, _) :: rest =>
    if option ≠ "--realm" ∧ (rest.lookup option).isSome then some option else repeatedOption? rest

/-- The settings that the words of a command line ask for. -/
def ServerSettings.ofWords (words : List String) : Except OptionError ServerSettings := do
  let options ← pairOptions words
  let settings ← options.foldlM ServerSettings.take {}
  match repeatedOption? options with
  | some option => throw (.repeated option)
  | none => return settings

end Courier
