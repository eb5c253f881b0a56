import Courier.Proofs.Routing.Books
import Mathlib.Data.List.Induction

/-! # Mailboxes over a run

A registry that starts empty is operated on in any order, while channels open, close and lose their
writers, and beside it a plain book is kept. At every moment the registry shows what the book shows,
and both have given the same answers (`registry_keeps_its_book`).
-/
set_option autoImplicit false

namespace Courier

open Courier.Wire Courier.Wire.Frame Courier.Routing

variable {σ : Type}

/-! ## What an entry of a history does to a mailbox -/

/-- The packets that are put behind those that wait for an address. -/
def queuedBy (a : Address) : RegistryOp σ × RegistryAnswer → List Packet
  | (.route p, .routed .queued) => if p.recipient = a then [p] else []
  | _ => []

/-- The packets that are taken from those that wait for an address. -/
def takenBy (a : Address) : RegistryOp σ × RegistryAnswer → List Packet
  | (.fetch a', .taken ps) | (.next a', .taken ps) => if a' = a then ps else []
  | _ => []

/-- The packets that are put back before those that wait for an address. -/
def returnedBy (a : Address) : RegistryOp σ × RegistryAnswer → List Packet
  | (.requeue a' ps, _) => if a' = a then ps else []
  | _ => []

/-- Packets come to a queue and leave it at its front, and come to it at its back; nothing else
happens to it. -/
theorem RegistryOp.enter_balance (op : RegistryOp σ) (takes : ChannelId → Bool) (b : Book)
    (a : Address) :
    returnedBy a (op, (op.enter takes b).1) ++ b.waiting a ++
        queuedBy a (op, (op.enter takes b).1) =
      takenBy a (op, (op.enter takes b).1) ++ (op.enter takes b).2.waiting a := by
  cases op with
  | attach | detach | release | elsewhere => exact List.append_nil _
  | route p =>
    show [] ++ b.waiting a ++ queuedBy a (.route p, .routed (b.route takes p).1) =
      [] ++ (b.route takes p).2.waiting a
    cases hecho : p.isEcho with
    | true =>
      rw [Book.route, if_pos hecho]
      exact List.append_nil _
    | false =>
      by_cases hnone : (b.attached p.recipient).filter takes = []
      · rw [Book.route_of_none hecho hnone]
        simp only [queuedBy, Book.setWaiting, Book.setAttached, Function.update_apply,
          List.nil_append]
        by_cases ha : p.recipient = a
        · rw [if_pos ha, if_pos ha.symm, ha]
        · rw [if_neg ha, if_neg fun heq => ha heq.symm, List.append_nil]
      · rw [Book.route_of_some hecho hnone]
        exact List.append_nil _
  | fetch a' =>
    simp only [enter, returnedBy, queuedBy, takenBy, Book.setWaiting, Function.update_apply,
      List.nil_append, List.append_nil]
    by_cases ha : a' = a
    · rw [if_pos ha, if_pos ha.symm, ha, List.append_nil]
    · rw [if_neg ha, if_neg fun heq => ha heq.symm, List.nil_append]
  | next a' =>
    simp only [enter, returnedBy, queuedBy, takenBy, Book.setWaiting, Function.update_apply,
      List.nil_append, List.append_nil]
    by_cases ha : a' = a
    · rw [if_pos ha, if_pos ha.symm, ha, List.take_append_drop]
    · rw [if_neg ha, if_neg fun heq => ha heq.symm, List.nil_append]
  | requeue a' ps =>
    simp only [enter, returnedBy, queuedBy, takenBy, Book.setWaiting, Function.update_apply,
      List.nil_append, List.append_nil]
    by_cases ha : a' = a
    · rw [if_pos ha, if_pos ha.symm, ha]
    · rw [if_neg ha, if_neg fun heq => ha heq.symm, List.nil_append]

theorem returnedBy_of_not_requeue {a : Address} {op : RegistryOp σ} (h : ∀ ps, op ≠ .requeue a ps)
    (x : RegistryAnswer) : returnedBy a (op, x) = [] := by
  cases op with
  | requeue a' ps =>
    refine if_neg ?_
    rintro rfl
    exact h ps rfl
  | _ => rfl

theorem RegistryOp.Leaves.taken_returned {a : Address} {op : RegistryOp σ} (h : op.Leaves a)
    (x : RegistryAnswer) : takenBy a (op, x) = [] ∧ returnedBy a (op, x) = [] := by
  cases op with
  | fetch | next =>
    cases x with
    | taken => exact ⟨if_neg h, rfl⟩
    | _ => exact ⟨rfl, rfl⟩
  | requeue => exact ⟨rfl, if_neg h⟩
  | _ => exact ⟨rfl, rfl⟩

/-! ## Runs -/

/-- A node and the operations on its registry with their answers; beside it a book, and the same
operations with the answers that the book gives. -/
structure RegistryRun (σ : Type) where
  node : Node σ
  history : List (RegistryOp σ × RegistryAnswer)
  book : Book
  entries : List (RegistryOp σ × RegistryAnswer)

def RegistryRun.step (r : RegistryRun σ) (op : RegistryOp σ) : RegistryRun σ where
  node := (op.perform r.node).2
  history := r.history ++ [(op, (op.perform r.node).1)]
  book := (op.enter r.node.accepts r.book).2
  entries := r.entries ++ [(op, (op.enter r.node.accepts r.book).1)]

def registryRun (n₀ : Node σ) (ops : List (RegistryOp σ)) : RegistryRun σ :=
  ops.foldl RegistryRun.step ⟨n₀, [], .empty, []⟩

/-- No reactor changes the registry while an operation of the run sends packets and raises
faults. -/
def AloofRun (n₀ : Node σ) (ops : List (RegistryOp σ)) : Prop :=
  ∀ before op after, ops = before ++ op :: after → op.Aloof (registryRun n₀ before).node

variable {n₀ : Node σ} {ops : List (RegistryOp σ)}

theorem registryRun_concat (n₀ : Node σ) (ops : List (RegistryOp σ)) (op : RegistryOp σ) :
    registryRun n₀ (ops ++ [op]) = (registryRun n₀ ops).step op := List.foldl_concat ..

theorem AloofRun.before {after : List (RegistryOp σ)} (h : AloofRun n₀ (ops ++ after)) :
    AloofRun n₀ ops := by
  rintro first op last rfl
  apply h first op (last ++ after)
  rw [List.append_assoc, List.cons_append]

theorem RegistryOp.perform_wired {op : RegistryOp σ} {n : Node σ} (h : n.AllWired)
    (helsewhere : ∀ m, op = .elsewhere m → m.AllWired) : (op.perform n).2.AllWired := by
  cases op with
  | route p => exact h.later (later_rule.telling.routePacket p n)
  | elsewhere m => exact helsewhere m rfl
  | _ => exact h

/-- In a run over the pipelines of servers and clients, no reactor changes the registry. -/
theorem aloofRun_of_wired (h : n₀.AllWired) (helsewhere : ∀ m, .elsewhere m ∈ ops → m.AllWired) :
    AloofRun n₀ ops := by
  have hwired : ∀ before after, ops = before ++ after → (registryRun n₀ before).node.AllWired := by
    intro before
    induction before using List.reverseRecOn with
    | nil => exact fun _ _ => h
    | append_singleton before op ih =>
      intro after heq
      rw [registryRun_concat]
      refine RegistryOp.perform_wired (ih (op :: after) (by simp [heq])) ?_
      rintro m rfl
      exact helsewhere m (by simp [heq])
  intro before op after heq
  have hbefore := hwired before (op :: after) heq
  cases op with
  | route p => exact fun _ => hbefore.aloofFrom p _
  | _ => trivial

/-- The registry shows what the book shows, and has given the same answers. -/
structure RegistryRun.Kept (r : RegistryRun σ) : Prop where
  tidy : r.node.registry.Tidy
  book : r.node.registry.book = r.book
  history : r.history = r.entries

theorem RegistryRun.Kept.step {r : RegistryRun σ} (h : r.Kept) {op : RegistryOp σ}
    (haloof : op.Aloof r.node) : (r.step op).Kept := by
  obtain ⟨hanswer, hbook, htidy⟩ := RegistryOp.perform_enters h.tidy haloof
  rw [h.book] at hanswer hbook
  refine ⟨htidy, hbook, ?_⟩
  show r.history ++ [_] = r.entries ++ [_]
  rw [h.history, hanswer]

theorem AloofRun.kept (haloof : AloofRun n₀ ops) (hempty : n₀.registry = .empty) :
    (registryRun n₀ ops).Kept := by
  induction ops using List.reverseRecOn with
  | nil =>
    refine ⟨?_, ?_, rfl⟩
    · show n₀.registry.Tidy
      rw [hempty]
      exact Registry.tidy_empty
    · show n₀.registry.book = .empty
      rw [hempty]
      exact Registry.book_empty
  | append_singleton ops op ih =>
    rw [registryRun_concat]
    exact (ih haloof.before).step (haloof ops op [] rfl)

/-! ## Mailboxes -/

section mailboxes

variable (n₀) (ops) (a : Address)

/-- Nothing is lost and nothing comes twice. -/
theorem balance_run : let r := registryRun n₀ ops
    (r.entries.flatMap (queuedBy a) ++ r.entries.flatMap (returnedBy a)).Perm
      (r.entries.flatMap (takenBy a) ++ r.book.waiting a) := by
  induction ops using List.reverseRecOn with
  | nil => exact .refl []
  | append_singleton ops op ih =>
    simp only [] at ih ⊢
    rw [registryRun_concat]
    generalize registryRun n₀ ops = r at ih
    have hbalance := op.enter_balance r.node.accepts r.book a
    simp only [RegistryRun.step, List.flatMap_append, List.flatMap_singleton]
    rw [List.perm_iff_count] at ih ⊢
    intro p
    have hcount := ih p
    have hstep := congrArg (List.count p) hbalance
    simp only [List.count_append] at hcount hstep ⊢
    omega

variable {a}

/-- Where nothing is put back, packets are taken in the order in which they were queued. -/
theorem fifo_run (h : ∀ ps, .requeue a ps ∉ ops) : let r := registryRun n₀ ops
    r.entries.flatMap (queuedBy a) = r.entries.flatMap (takenBy a) ++ r.book.waiting a := by
  induction ops using List.reverseRecOn with
  | nil => rfl
  | append_singleton ops op ih =>
    have hbefore := ih fun ps hps => h ps (List.mem_append_left _ hps)
    have hnone : ∀ ps, op ≠ .requeue a ps :=
      fun ps heq => h ps (heq ▸ List.mem_append_right _ (List.mem_singleton.2 rfl))
    simp only [] at hbefore ⊢
    rw [registryRun_concat]
    generalize registryRun n₀ ops = r at hbefore
    have hbalance := op.enter_balance r.node.accepts r.book a
    rw [returnedBy_of_not_requeue hnone, List.nil_append] at hbalance
    simp only [RegistryRun.step, List.flatMap_append, List.flatMap_singleton]
    rw [hbefore, List.append_assoc, hbalance, List.append_assoc]

/-- Where nothing is taken or put back, packets only come to those that wait. -/
theorem leaves_run {mid : List (RegistryOp σ)} (h : ∀ op ∈ mid, op.Leaves a) :
    ∃ since, (registryRun n₀ (ops ++ mid)).entries.flatMap (queuedBy a) =
        (registryRun n₀ ops).entries.flatMap (queuedBy a) ++ since ∧
      (registryRun n₀ (ops ++ mid)).book.waiting a =
        (registryRun n₀ ops).book.waiting a ++ since := by
  induction mid using List.reverseRecOn with
  | nil =>
    refine ⟨[], ?_, ?_⟩
    all_goals rw [List.append_nil, List.append_nil]
  | append_singleton mid op ih =>
    obtain ⟨since, hqueued, hwaiting⟩ := ih fun op hop => h op (List.mem_append_left _ hop)
    have hleaves := h op (List.mem_append_right _ (List.mem_singleton.2 rfl))
    rw [← List.append_assoc, registryRun_concat]
    generalize registryRun n₀ (ops ++ mid) = r at hqueued hwaiting
    have hbalance := op.enter_balance r.node.accepts r.book a
    obtain ⟨htaken, hreturned⟩ := hleaves.taken_returned (op.enter r.node.accepts r.book).1
    rw [htaken, hreturned, List.nil_append, List.nil_append] at hbalance
    refine ⟨since ++ queuedBy a (op, (op.enter r.node.accepts r.book).1), ?_, ?_⟩
    · show (r.entries ++ [_]).flatMap (queuedBy a) = _
      rw [List.flatMap_append, List.flatMap_singleton, hqueued, List.append_assoc]
    · show (op.enter r.node.accepts r.book).2.waiting a = _
      rw [← hbalance, hwaiting, List.append_assoc]

end mailboxes

/-! ## The whole run -/

/-- A registry that starts empty is operated on in any order, and no reactor changes it while a
packet is sent or a fault is raised. Then it has given the answers that a plain book of every address
gives, and shows what the book shows. A packet that is routed to its sender changes nothing; any
other is queued once, in a SEND frame of its own, on each channel attached to its recipient that is
open and has a writer, and on no other channel. Of the packets that wait for an address none is lost
and none comes twice; while none is put back, they are taken in the order in which they were queued.
All that a fetch has given can be put back before those that were queued since. -/
theorem registry_keeps_its_book (n₀ : Node σ) (hempty : n₀.registry = .empty)
    (ops : List (RegistryOp σ)) (haloof : AloofRun n₀ ops) :
    let r := registryRun n₀ ops
    r.node.registry.book = r.book ∧ r.history = r.entries ∧
    (∀ before p after, ops = before ++ .route p :: after →
      let n := (registryRun n₀ before).node
      let n' := (registryRun n₀ (before ++ [.route p])).node
      if p.isEcho then n' = n else n.Offered p (n.registry.channels p.recipient) n') ∧
    ∀ a,
      (r.history.flatMap (queuedBy a) ++ r.history.flatMap (returnedBy a)).Perm
        (r.history.flatMap (takenBy a) ++ r.node.registry.waiting a) ∧
      ((∀ ps, .requeue a ps ∉ ops) → r.history.flatMap (queuedBy a) =
        r.history.flatMap (takenBy a) ++ r.node.registry.waiting a) ∧
      ∀ before mid, ops = before ++ .fetch a :: mid → (∀ op ∈ mid, op.Leaves a) →
        ∃ fetched since,
          ((RegistryOp.fetch a).perform (registryRun n₀ before).node).1 = .taken fetched ∧
          r.history.flatMap (queuedBy a) =
            (registryRun n₀ before).history.flatMap (queuedBy a) ++ since ∧
          r.node.registry.waiting a = since ∧
          (registryRun n₀ (ops ++ [.requeue a fetched])).node.registry.waiting a =
            fetched ++ since := by
  intro r
  have hkept : r.Kept := haloof.kept hempty
  have hwaiting : ∀ a, r.node.registry.waiting a = r.book.waiting a :=
    fun a => congrArg (·.waiting a) hkept.book
  refine ⟨hkept.book, hkept.history, ?_, fun a => ⟨?_, ?_, ?_⟩⟩
  · rintro before p after rfl
    have hbefore := haloof.before.kept hempty
    have hroute := haloof before (.route p) after rfl
    have hafter : (registryRun n₀ (before ++ [.route p])).node =
        (routePacket p (registryRun n₀ before).node).2 := by
      rw [registryRun_concat]
      rfl
    simp only [hafter]
    cases hecho : p.isEcho with
    | true =>
      rw [if_pos rfl, routePacket_of_echo hecho]
    | false =>
      rw [if_neg (by simp)]
      obtain ⟨n', heq, -, hoffered⟩ :=
        routePacket_spec hecho (hroute hecho) (hbefore.tidy.once p.recipient)
      rw [heq]
      exact hoffered
  · rw [hkept.history, hwaiting]
    exact balance_run n₀ ops a
  · intro hnone
    rw [hkept.history, hwaiting]
    exact fifo_run n₀ ops hnone
  · rintro before mid rfl hleaves
    have hbefore := haloof.before.kept hempty
    have hfetch : (before ++ RegistryOp.fetch a :: mid) = before ++ [.fetch a] ++ mid := by simp
    obtain ⟨since, hqueued, hsince⟩ := leaves_run n₀ (before ++ [.fetch a]) hleaves
    rw [← hfetch, registryRun_concat] at hqueued hsince
    -- The fetch queues nothing and leaves nothing.
    have hnothing : ((registryRun n₀ before).step (.fetch a)).book.waiting a = [] :=
      Function.update_self ..
    have hsame : ((registryRun n₀ before).step (.fetch a)).entries.flatMap (queuedBy a) =
        (registryRun n₀ before).entries.flatMap (queuedBy a) := by
      show ((registryRun n₀ before).entries ++ [_]).flatMap (queuedBy a) = _
      rw [List.flatMap_append, List.flatMap_singleton]
      exact List.append_nil _
    rw [hnothing, List.nil_append] at hsince
    rw [hsame] at hqueued
    refine ⟨(registryRun n₀ before).node.registry.waiting a, since, rfl, ?_, ?_, ?_⟩
    · rw [hkept.history, hbefore.history]
      exact hqueued
    · rw [hwaiting]
      exact hsince
    · rw [registryRun_concat]
      show ((registryRun n₀ _).node.registry.setWaiting a _).waiting a = _
      rw [hkept.tidy.toProper.waiting_setWaiting, if_pos rfl]
      show _ ++ r.node.registry.waiting a = _
      rw [hwaiting]
      exact congrArg _ hsince

/-- Two open channels with the pipelines of servers and clients; nobody takes the queue of the
second. -/
def twoDesks : Node Unit :=
  let ch := Channel.start (.start .responder 0 {}) (front .empty)
  { Node.start () with channels := [ch, ch.dropWriter] }

/-- A packet with another time. -/
def packetAt (time : Int64) : Packet := { smallPacket with timestamp := time }

/-- Both desks are attached to the recipient; one takes the first packet. The others are queued,
fetched, put back and taken one by one. -/
def deskRun : List (RegistryOp Unit) :=
  let a := smallPacket.recipient
  [.attach a ⟨0⟩, .attach a ⟨1⟩, .route (packetAt 1), .release ⟨0⟩, .route (packetAt 2),
    .route (packetAt 3), .fetch a, .route (packetAt 4), .requeue a [packetAt 2, packetAt 3], .next a]

theorem desks_keep_their_book :
    (registryRun twoDesks deskRun).history.map (·.2) =
      [.done, .done, .routed (.delivered 1 1), .done, .routed .queued, .routed .queued,
        .taken [packetAt 2, packetAt 3], .routed .queued, .done, .taken [packetAt 2]] ∧
    (registryRun twoDesks deskRun).node.registry.waiting smallPacket.recipient =
      [packetAt 3, packetAt 4] := by
  have hwired : twoDesks.AllWired := by
    intro c ch hch
    have hmem := List.mem_of_getElem? hch
    obtain rfl | hmem := List.mem_cons.1 hmem
    · exact ⟨.empty, [], rfl, fun r hr => nomatch hr⟩
    · rw [List.mem_singleton.1 hmem]
      exact ⟨.empty, [], rfl, fun r hr => nomatch hr⟩
  have haloof : AloofRun twoDesks deskRun := by
    apply aloofRun_of_wired hwired
    intro m hm
    simp [deskRun] at hm
  obtain ⟨hbook, hhistory, -, -⟩ := registry_keeps_its_book twoDesks rfl deskRun haloof
  refine ⟨?_, ?_⟩
  · rw [hhistory]
    decide +kernel
  · show (registryRun twoDesks deskRun).node.registry.book.waiting _ = _
    rw [hbook]
    decide +kernel

end Courier
