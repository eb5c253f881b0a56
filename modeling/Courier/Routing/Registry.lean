import Courier.Backlog
import Courier.Fault
import Courier.Routing.AddressMap
import Courier.Wire.Packet

/-! # The registry

Which channels are attached to an address, and which packets wait for an address that had none. One
address can have several channels. Neither map keeps an address without channels, or without
packets once they are taken.
-/
set_option autoImplicit false

namespace Courier.Routing

open Courier.Wire

structure Registry where
  attachments : AddressMap (List ChannelId)
  mailboxes : AddressMap (Backlog Packet)

namespace Registry

def empty : Registry := ⟨.empty, .empty⟩

/-! ## Attachments -/

/-- Attaches a channel to an address, unless it is. -/
def attach (r : Registry) (a : Address) (c : ChannelId) : Registry :=
  { r with attachments := r.attachments.upsert a [] fun cs => if c ∈ cs then cs else cs ++ [c] }

def detach (r : Registry) (a : Address) (c : ChannelId) : Registry :=
  match r.attachments.get? a with
  | none => r
  | some cs =>
    if (cs.filter (· ≠ c)).isEmpty then { r with attachments := (r.attachments.remove a).2 }
    else { r with attachments := r.attachments.modify a fun cs => cs.filter (· ≠ c) }

/-- The channels attached to an address, in the order in which they came. -/
def channels (r : Registry) (a : Address) : List ChannelId := (r.attachments.get? a).getD []

/-- The number of addresses that a channel is attached to. -/
def attachedCount (r : Registry) (c : ChannelId) : Nat :=
  (r.attachments.entries.flatMap fun e => e.2.filter (· = c)).length

def release (r : Registry) (c : ChannelId) : Registry :=
  { r with attachments := r.attachments.retain fun _ cs =>
      let left := cs.filter (· ≠ c)
      if left.isEmpty then none else some left }

/-! ## Mailboxes -/

/-- Puts a packet behind those that wait for its recipient. -/
def enqueue (r : Registry) (p : Packet) : Registry :=
  { r with mailboxes := r.mailboxes.upsert p.recipient .empty (·.push p) }

/-- The packets that wait for an address, oldest first. -/
def waiting (r : Registry) (a : Address) : List Packet :=
  ((r.mailboxes.get? a).getD .empty).toList

def queued (r : Registry) (a : Address) : Nat := ((r.mailboxes.get? a).getD .empty).size

/-- Lets these packets wait for an address in place of those that did. -/
def setWaiting (r : Registry) (a : Address) (ps : List Packet) : Registry :=
  if ps.isEmpty then { r with mailboxes := (r.mailboxes.remove a).2 }
  else { r with mailboxes := r.mailboxes.upsert a .empty fun _ => .ofList ps }

def takeAll (r : Registry) (a : Address) : List Packet × Registry :=
  (r.waiting a, r.setWaiting a [])

/-- Takes at most `n` packets that wait for an address, oldest first. -/
def takeSome (r : Registry) (a : Address) (n : Nat) : List Packet × Registry :=
  ((r.waiting a).take n, r.setWaiting a ((r.waiting a).drop n))

def takeOne (r : Registry) (a : Address) : Option Packet × Registry :=
  let (ps, r) := r.takeSome a 1
  (ps.head?, r)

/-- Puts packets back before those that wait for an address. -/
def requeue (r : Registry) (a : Address) (ps : List Packet) : Registry :=
  r.setWaiting a (ps ++ r.waiting a)

end Registry
end Courier.Routing
