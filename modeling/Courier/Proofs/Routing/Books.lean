import Courier.Proofs.Routing.Offers
import Mathlib.Logic.Function.Basic

/-! # Registries as plain books

What one does with a registry, and what the same operation is in a plain book: for each address a
list of channels, and a queue of packets that has two ends. Both give the same answer, and the
registry then shows what the book shows (`RegistryOp.perform_enters`).
-/
set_option autoImplicit false

namespace Courier

open Courier.Wire Courier.Routing

variable {σ : Type}

/-! ## Operations -/

inductive RegistryOp (σ : Type) where
  | attach (a : Address) (c : ChannelId)
  | detach (a : Address) (c : ChannelId)
  | release (c : ChannelId)
  | route (p : Packet)
  /-- Takes all packets that wait for an address. -/
  | fetch (a : Address)
  /-- Takes the oldest packet that waits for an address. -/
  | next (a : Address)
  | requeue (a : Address) (ps : List Packet)
  /-- Anything else happens to the node; its registry stays. -/
  | elsewhere (m : Node σ)

inductive RegistryAnswer where
  | done
  | routed (outcome : RouteOutcome)
  | taken (ps : List Packet)
deriving DecidableEq

namespace RegistryOp

def perform (op : RegistryOp σ) (n : Node σ) : RegistryAnswer × Node σ :=
  match op with
  | attach a c => (.done, { n with registry := n.registry.attach a c })
  | detach a c => (.done, { n with registry := n.registry.detach a c })
  | release c => (.done, { n with registry := n.registry.release c })
  | route p => (.routed (routePacket p n).1, (routePacket p n).2)
  | fetch a => (.taken (n.registry.takeAll a).1, { n with registry := (n.registry.takeAll a).2 })
  | next a =>
    (.taken (n.registry.takeOne a).1.toList, { n with registry := (n.registry.takeOne a).2 })
  | requeue a ps => (.done, { n with registry := n.registry.requeue a ps })
  | elsewhere m => (.done, { m with registry := n.registry })

/-- No reactor changes the registry while the operation sends packets and raises faults. -/
def Aloof (op : RegistryOp σ) (n : Node σ) : Prop :=
  match op with
  | route p => p.isEcho = false → n.AloofFrom p (n.registry.channels p.recipient)
  | _ => True

/-- Takes nothing that waits for an address, and puts nothing back. -/
def Leaves (a : Address) : RegistryOp σ → Prop
  | fetch a' | next a' | requeue a' _ => a' ≠ a
  | _ => True

end RegistryOp

/-! ## Books -/

/-- For each address the channels attached to it and the packets that wait for it, oldest first. -/
structure Book where
  attached : Address → List ChannelId
  waiting : Address → List Packet

namespace Book

def empty : Book := ⟨fun _ => [], fun _ => []⟩

def setAttached (b : Book) (a : Address) (cs : List ChannelId) : Book :=
  { b with attached := Function.update b.attached a cs }

def setWaiting (b : Book) (a : Address) (ps : List Packet) : Book :=
  { b with waiting := Function.update b.waiting a ps }

/-- Routes a packet where these channels take what is written to them. -/
def route (takes : ChannelId → Bool) (p : Packet) (b : Book) : RouteOutcome × Book :=
  if p.isEcho then (.echo, b)
  else
    let able := (b.attached p.recipient).filter takes
    let unable := (b.attached p.recipient).filter (!takes ·)
    let left := b.setAttached p.recipient able
    if able = [] then (.queued, left.setWaiting p.recipient (b.waiting p.recipient ++ [p]))
    else (.delivered able.length unable.length, left)

theorem route_of_none {takes : ChannelId → Bool} {p : Packet} {b : Book} (hecho : p.isEcho = false)
    (h : (b.attached p.recipient).filter takes = []) : b.route takes p =
      (.queued, (b.setAttached p.recipient ((b.attached p.recipient).filter takes)).setWaiting
        p.recipient (b.waiting p.recipient ++ [p])) := by
  rw [route, if_neg (by simp [hecho])]
  exact if_pos h

theorem route_of_some {takes : ChannelId → Bool} {p : Packet} {b : Book} (hecho : p.isEcho = false)
    (h : (b.attached p.recipient).filter takes ≠ []) : b.route takes p =
      (.delivered ((b.attached p.recipient).filter takes).length
          ((b.attached p.recipient).filter (!takes ·)).length,
        b.setAttached p.recipient ((b.attached p.recipient).filter takes)) := by
  rw [route, if_neg (by simp [hecho])]
  exact if_neg h

end Book

/-- Enters an operation into a book, where these channels take what is written to them. -/
def RegistryOp.enter (takes : ChannelId → Bool) (op : RegistryOp σ) (b : Book) :
    RegistryAnswer × Book :=
  match op with
  | attach a c =>
    (.done, b.setAttached a (if c ∈ b.attached a then b.attached a else b.attached a ++ [c]))
  | detach a c => (.done, b.setAttached a ((b.attached a).filter (· ≠ c)))
  | release c => (.done, { b with attached := fun a => (b.attached a).filter (· ≠ c) })
  | route p => (.routed (b.route takes p).1, (b.route takes p).2)
  | fetch a => (.taken (b.waiting a), b.setWaiting a [])
  | next a => (.taken ((b.waiting a).take 1), b.setWaiting a ((b.waiting a).drop 1))
  | requeue a ps => (.done, b.setWaiting a (ps ++ b.waiting a))
  | elsewhere _ => (.done, b)

namespace Routing.Registry

variable {r : Registry}

/-- What one sees of a registry. -/
def book (r : Registry) : Book := ⟨r.channels, r.waiting⟩

theorem book_empty : Registry.empty.book = .empty := rfl

section views

variable {r' : Registry} {a : Address}

theorem book_eq_setAttached {cs : List ChannelId}
    (hattached : ∀ a', r'.channels a' = if a' = a then cs else r.channels a')
    (hwaiting : ∀ a', r'.waiting a' = r.waiting a') : r'.book = r.book.setAttached a cs := by
  have hupdate : r'.channels = Function.update r.channels a cs :=
    funext fun a' => (hattached a').trans (Function.update_apply ..).symm
  have hsame : r'.waiting = r.waiting := funext hwaiting
  rw [book, hupdate, hsame]
  rfl

theorem book_eq_setWaiting {ps : List Packet}
    (hattached : ∀ a', r'.channels a' = r.channels a')
    (hwaiting : ∀ a', r'.waiting a' = if a' = a then ps else r.waiting a') :
    r'.book = r.book.setWaiting a ps := by
  have hsame : r'.channels = r.channels := funext hattached
  have hupdate : r'.waiting = Function.update r.waiting a ps :=
    funext fun a' => (hwaiting a').trans (Function.update_apply ..).symm
  rw [book, hsame, hupdate]
  rfl

end views

namespace Proper

variable (h : r.Proper)

include h

theorem book_attach (a : Address) (c : ChannelId) : (r.attach a c).book =
    r.book.setAttached a (if c ∈ r.channels a then r.channels a else r.channels a ++ [c]) :=
  book_eq_setAttached (fun _ => h.channels_attach) fun _ => waiting_attach

theorem book_detach (a : Address) (c : ChannelId) :
    (r.detach a c).book = r.book.setAttached a ((r.channels a).filter (· ≠ c)) :=
  book_eq_setAttached (fun _ => h.channels_detach) fun _ => waiting_detach

theorem book_detachAll (a : Address) (cs : List ChannelId) :
    (cs.foldl (fun r c => r.detach a c) r).book =
      r.book.setAttached a ((r.channels a).filter (· ∉ cs)) :=
  book_eq_setAttached (fun _ => h.channels_detachAll cs) fun _ => waiting_detachAll cs

theorem book_release (c : ChannelId) : (r.release c).book =
    { r.book with attached := fun a => (r.channels a).filter (· ≠ c) } :=
  congrArg (Book.mk · r.waiting) (funext fun _ => h.channels_release)

theorem book_setWaiting (a : Address) (ps : List Packet) :
    (r.setWaiting a ps).book = r.book.setWaiting a ps :=
  book_eq_setWaiting (fun _ => channels_setWaiting ps) fun _ => h.waiting_setWaiting ps

theorem book_enqueue (p : Packet) : (r.enqueue p).book =
    r.book.setWaiting p.recipient (r.waiting p.recipient ++ [p]) := by
  refine book_eq_setWaiting (fun _ => channels_enqueue p) fun a => ?_
  rw [h.waiting_enqueue]
  by_cases ha : a = p.recipient
  · rw [if_pos ha, if_pos ha, ha]
  · rw [if_neg ha, if_neg ha]

end Proper

theorem Tidy.enqueue (h : r.Tidy) (p : Packet) : (r.enqueue p).Tidy :=
  h.of_attachments rfl (h.toProper.enqueue p).mailboxes

theorem Tidy.setWaiting (h : r.Tidy) (a : Address) (ps : List Packet) : (r.setWaiting a ps).Tidy :=
  h.of_attachments (attachments_setWaiting r a ps) (h.toProper.setWaiting a ps).mailboxes

end Routing.Registry

/-! ## One operation -/

theorem takeOne_eq (r : Registry) (a : Address) :
    (r.takeOne a).1.toList = (r.waiting a).take 1 ∧
      (r.takeOne a).2 = r.setWaiting a ((r.waiting a).drop 1) := by
  refine ⟨?_, rfl⟩
  show ((r.waiting a).take 1).head?.toList = _
  cases r.waiting a <;> rfl

theorem routePacket_enters {n : Node σ} (h : n.registry.Tidy) {p : Packet}
    (haloof : (RegistryOp.route p).Aloof n) :
    (routePacket p n).1 = (n.registry.book.route n.accepts p).1 ∧
      (routePacket p n).2.registry.book = (n.registry.book.route n.accepts p).2 ∧
      (routePacket p n).2.registry.Tidy := by
  cases hecho : p.isEcho with
  | true =>
    rw [routePacket_of_echo hecho, Book.route, if_pos hecho]
    exact ⟨rfl, rfl, h⟩
  | false =>
    obtain ⟨n', hroute, hregistry, -⟩ := routePacket_spec hecho (haloof hecho) (h.once _)
    have htidy := h.detachAll p.recipient ((n.registry.channels p.recipient).filter (!n.accepts ·))
    have hbook := h.toProper.book_detachAll p.recipient
      ((n.registry.channels p.recipient).filter (!n.accepts ·))
    -- Those left are the channels that took the packet.
    have hleft : (n.registry.channels p.recipient).filter
          (· ∉ (n.registry.channels p.recipient).filter (!n.accepts ·)) =
        (n.registry.channels p.recipient).filter n.accepts := by
      apply List.filter_congr
      intro c hc
      simp [hc]
    rw [hleft] at hbook
    simp only [hroute]
    generalize List.foldl _ n.registry _ = left at hregistry htidy hbook
    have hwaiting : left.waiting p.recipient = n.registry.waiting p.recipient :=
      congrArg (·.waiting p.recipient) hbook
    by_cases hnone : (n.registry.channels p.recipient).filter n.accepts = []
    · rw [if_pos hnone] at hregistry
      rw [if_pos hnone, Book.route_of_none hecho hnone, hregistry, htidy.toProper.book_enqueue,
        hbook, hwaiting]
      exact ⟨rfl, rfl, htidy.enqueue p⟩
    · rw [if_neg hnone] at hregistry
      rw [if_neg hnone, Book.route_of_some hecho hnone, hregistry]
      exact ⟨rfl, hbook, htidy⟩

/-- An operation gives the answer that the book gives, and the registry then shows what the book
shows. -/
theorem RegistryOp.perform_enters {op : RegistryOp σ} {n : Node σ} (h : n.registry.Tidy)
    (haloof : op.Aloof n) : (op.perform n).1 = (op.enter n.accepts n.registry.book).1 ∧
      (op.perform n).2.registry.book = (op.enter n.accepts n.registry.book).2 ∧
      (op.perform n).2.registry.Tidy := by
  cases op with
  | attach a c => exact ⟨rfl, h.toProper.book_attach a c, h.attach a c⟩
  | detach a c => exact ⟨rfl, h.toProper.book_detach a c, h.detach a c⟩
  | release c => exact ⟨rfl, h.toProper.book_release c, h.release c⟩
  | route p =>
    obtain ⟨houtcome, hbook, htidy⟩ := routePacket_enters h haloof
    exact ⟨congrArg RegistryAnswer.routed houtcome, hbook, htidy⟩
  | fetch a => exact ⟨rfl, h.toProper.book_setWaiting a [], h.setWaiting a []⟩
  | next a =>
    obtain ⟨htaken, hregistry⟩ := takeOne_eq n.registry a
    refine ⟨congrArg RegistryAnswer.taken htaken, ?_, ?_⟩
    · show (n.registry.takeOne a).2.book = _
      rw [hregistry]
      exact h.toProper.book_setWaiting a _
    · show (n.registry.takeOne a).2.Tidy
      rw [hregistry]
      exact h.setWaiting a _
  | requeue a ps => exact ⟨rfl, h.toProper.book_setWaiting a _, h.setWaiting a _⟩
  | elsewhere m => exact ⟨rfl, rfl, h⟩

end Courier
