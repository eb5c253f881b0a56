import Courier.Routing.Locator

/-! # Maps from addresses

Entries are kept in buckets, one for each locator in use, and found in their bucket by the whole
address. No address is in a bucket twice and no bucket is empty; the number of entries is kept
beside the buckets.
-/
set_option autoImplicit false

namespace Courier.Routing

open Courier.Wire

/-! ## Buckets -/

/-- The entries of one locator. -/
abbrev Bucket (α : Type) := List (Address × α)

def Bucket.get? {α : Type} (b : Bucket α) (a : Address) : Option α := b.lookup a

/-- Puts a new value in place of an address's value. -/
def Bucket.modify {α : Type} (b : Bucket α) (a : Address) (f : α → α) : Bucket α :=
  b.map fun e => if e.1 = a then (e.1, f e.2) else e

/-- Takes an element out of a list. The last one moves to its place. -/
def swapRemove {β : Type} (xs : List β) (i : Nat) : List β :=
  match xs.getLast? with
  | none => xs
  | some last => (xs.set i last).dropLast

def Bucket.erase {α : Type} (b : Bucket α) (a : Address) : Bucket α :=
  match b.findIdx? (·.1 = a) with
  | none => b
  | some i => swapRemove b i

/-! ## Maps -/

structure AddressMap (α : Type) where
  buckets : List (UInt32 × Bucket α)
  size : Nat

namespace AddressMap

variable {α : Type}

def empty : AddressMap α := ⟨[], 0⟩

def isEmpty (m : AddressMap α) : Bool := m.size = 0

/-- The entries that share an address's locator. -/
def bucket (m : AddressMap α) (a : Address) : Bucket α :=
  (m.buckets.lookup (locator a)).getD []

/-- The value of exactly this address. -/
def get? (m : AddressMap α) (a : Address) : Option α := (m.bucket a).get? a

/-- Puts a bucket in place of the one with its locator, if there is one, or behind all others. An
empty bucket is left out. -/
def setBucket (buckets : List (UInt32 × Bucket α)) (key : UInt32) (b : Bucket α) :
    List (UInt32 × Bucket α) :=
  match buckets with
  | [] => if b.isEmpty then [] else [(key, b)]
  | e :: rest =>
    if e.1 = key then
      if b.isEmpty then rest else (key, b) :: rest
    else e :: setBucket rest key b

/-- Changes the value of an address that has one. -/
def modify (m : AddressMap α) (a : Address) (f : α → α) : AddressMap α :=
  { m with buckets := setBucket m.buckets (locator a) ((m.bucket a).modify a f) }

/-- The value of an address, which is `fresh` if it had none, and the map in which it has it. -/
def getOrInsert (m : AddressMap α) (a : Address) (fresh : α) : α × AddressMap α :=
  match m.get? a with
  | some v => (v, m)
  | none =>
    (fresh, ⟨setBucket m.buckets (locator a) (m.bucket a ++ [(a, fresh)]), m.size + 1⟩)

/-- Changes the value of an address, after giving it `fresh` if it had none. -/
def upsert (m : AddressMap α) (a : Address) (fresh : α) (f : α → α) : AddressMap α :=
  (m.getOrInsert a fresh).2.modify a f

def remove (m : AddressMap α) (a : Address) : Option α × AddressMap α :=
  match m.get? a with
  | none => (none, m)
  | some v => (some v, ⟨setBucket m.buckets (locator a) ((m.bucket a).erase a), m.size - 1⟩)

/-- The entries of a bucket that are kept, with the values they are kept with. -/
def keepEntries (keep : Address → α → Option α) (b : Bucket α) : Bucket α :=
  b.filterMap fun e => (keep e.1 e.2).map (e.1, ·)

def count (buckets : List (UInt32 × Bucket α)) : Nat :=
  (buckets.flatMap (·.2)).length

/-- Keeps the entries for which `keep` gives a value, with that value. -/
def retain (m : AddressMap α) (keep : Address → α → Option α) : AddressMap α :=
  let kept := m.buckets.map fun e => (e.1, keepEntries keep e.2)
  ⟨kept.filter (!·.2.isEmpty), m.size - (count m.buckets - count kept)⟩

def entries (m : AddressMap α) : List (Address × α) := m.buckets.flatMap (·.2)

end AddressMap
end Courier.Routing
