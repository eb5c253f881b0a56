import Courier.Connection
import Courier.Proofs.Steps

/-! # What a turn does

A connection that is not told to stop does one of a few things in a turn, or waits: `turn_eq` says
which, and what comes of it. In each turn one of them is done, the first that there is a reason for.
-/
set_option autoImplicit false

namespace Courier

open Courier.Wire Courier.Stream

variable {σ : Type}

/-- What a connection can do in a turn, when it is not told to stop. -/
inductive Deed where
  /-- Its channel is closed: it takes no more turns. -/
  | leave
  /-- It checks the deadline, and goes on. -/
  | check
  /-- The handshake has taken this long, which is too long. -/
  | timeOut (elapsed : Nat)
  /-- It has the header, and what comes next is left in the reader. -/
  | greet (next : Reader)
  /-- It has a frame, which leaves the channel closed or not. -/
  | take (f : Frame) (next : Reader) (closed : Bool)
  | feed (b : ByteArray)
  /-- The stream has ended between two frames. -/
  | depart
  | refuse (f : ReadFault)

namespace Deed

def isTick : Deed → Bool
  | check | timeOut _ => true
  | _ => false

/-- It has to do with what has arrived. -/
def isInput : Deed → Bool
  | greet _ | take .. | feed _ | depart | refuse _ => true
  | _ => false

def isTimeOut : Deed → Bool
  | timeOut _ => true
  | _ => false

def frame? : Deed → Option Frame
  | take f _ _ => some f
  | _ => none

def piece? : Deed → Option ByteArray
  | feed b => some b
  | _ => none

end Deed

namespace Connection

variable (k : Connection) (now : Nat) (n : Node σ)

/-! ## Which -/

def tickDeed : Deed :=
  match (n.channel? k.channel).bind (·.session.overrun? now) with
  | some elapsed => .timeOut elapsed
  | none => .check

/-- When the stream has ended. -/
def dryDeed : Deed :=
  if k.greeted then
    match betweenFrames k.reader with
    | .ok _ => .depart
    | .error f => .refuse f
  else .refuse k.reader.cutShort

/-- When the reader has nothing to give. -/
def fillDeed? : Option Deed :=
  match k.arrivals with
  | [] => none
  | .bytes b :: _ => some (.feed b)
  | .endOfStream :: _ => some k.dryDeed
  | .failure f :: _ => some (.refuse f)

def readDeed? : Option Deed :=
  if k.greeted then
    match k.reader.frame with
    | .ready f next => some (.take f next ((receive k.channel f n).2.isClosed k.channel))
    | .failed f => some (.refuse f)
    | .waiting => k.fillDeed?
  else
    match k.reader.header with
    | .ready () next => some (.greet next)
    | .failed f => some (.refuse f)
    | .waiting => k.fillDeed?

/-- What the connection does next, if it does not have to wait. -/
def deed? : Option Deed :=
  if !k.reading || k.interval = 0 then none
  else if n.isClosed k.channel then some .leave
  else if k.nextTick ≤ now then some (k.tickDeed now n)
  else k.readDeed? n

/-! ## And what comes of it -/

def perform : Deed → Connection × Node σ
  | .leave | .depart => k.windDown n
  | .check => ({ k with nextTick := now + k.interval }, n)
  | .timeOut elapsed => k.abort (.handshakeTimeout elapsed) n
  | .greet next => ({ k with reader := next, greeted := true }, greet k.channel n)
  | .take f next closed =>
    let n := (receive k.channel f n).2
    if f = .detach ∨ closed then { k with reader := next }.windDown n
    else ({ k with reader := next }, n)
  | .feed b => ({ k with reader := k.reader.feed b, arrivals := k.arrivals.tail }, n)
  | .refuse f => k.abort (.read f) n

theorem tickDeed_of_overrun {ch : Channel σ} (hch : n.channel? k.channel = some ch) {elapsed : Nat}
    (h : ch.session.overrun? now = some elapsed) : k.tickDeed now n = .timeOut elapsed := by
  rw [tickDeed, hch, Option.bind_some, h]

theorem tickDeed_of_intime {ch : Channel σ} (hch : n.channel? k.channel = some ch)
    (h : ch.session.overrun? now = none) : k.tickDeed now n = .check := by
  rw [tickDeed, hch, Option.bind_some, h]

theorem tick_eq {ch : Channel σ} (hch : n.channel? k.channel = some ch) :
    k.tick now n = k.perform now n (k.tickDeed now n) := by
  rw [tick, tickDeed, hch, Option.bind_some]
  simp only []
  cases ch.session.overrun? now <;> rfl

theorem runDry_eq : k.runDry n = k.perform now n k.dryDeed := by
  unfold runDry dryDeed
  cases k.greeted with
  | false => rfl
  | true =>
    simp only [if_true]
    cases betweenFrames k.reader <;> rfl

theorem fill_eq : k.fill n = k.fillDeed?.map (k.perform now n) := by
  unfold fill fillDeed?
  cases harrivals : k.arrivals with
  | nil => rfl
  | cons a rest =>
    cases a with
    | bytes b =>
      show some _ = some _
      rw [perform, harrivals]
      rfl
    | endOfStream => exact congrArg some (k.runDry_eq now n)
    | failure f => rfl

/-- A frame stops the turns if it is a goodbye or leaves the channel closed. -/
theorem takeFrame_eq (f : Frame) (next : Reader) : { k with reader := next }.takeFrame f n =
    k.perform now n (.take f next ((receive k.channel f n).2.isClosed k.channel)) := by
  have hflow : (receive k.channel f n).1 =
      if f = .detach ∨ (receive k.channel f n).2.isClosed k.channel then .stop else .continue := by
    cases hch : n.channel? k.channel with
    | none => simp [receive, Node.isClosed, hch]
    | some ch => simp only [receive, hch]
  unfold takeFrame perform
  rw [← Prod.eta (receive k.channel f n)]
  simp only [hflow]
  by_cases hstop : f = .detach ∨ (receive k.channel f n).2.isClosed k.channel = true
  · simp only [hstop, if_true]
  · simp only [hstop, if_false]

theorem read_eq : k.read n = (k.readDeed? n).map (k.perform now n) := by
  rw [read, readDeed?]
  by_cases hgreeted : k.greeted = true
  · rw [if_pos hgreeted, if_pos hgreeted]
    cases k.reader.frame with
    | ready f next => exact congrArg some (k.takeFrame_eq now n f next)
    | waiting => exact k.fill_eq now n
    | failed f => rfl
  · rw [if_neg hgreeted, if_neg hgreeted]
    cases k.reader.header with
    | ready u next => rfl
    | waiting => exact k.fill_eq now n
    | failed f => rfl

/-- A turn does the deed that is due, if there is one. -/
theorem turn_eq : k.turn now false n = (k.deed? now n).map (k.perform now n) := by
  unfold turn deed?
  simp only [Bool.false_and, Bool.false_eq_true, if_false]
  split
  · rfl
  · split
    · rfl
    · rename_i hopen
      split
      · obtain ⟨ch, hch⟩ : ∃ ch, n.channel? k.channel = some ch := by
          cases hch : n.channel? k.channel with
          | none => simp [Node.isClosed, hch] at hopen
          | some ch => exact ⟨ch, rfl⟩
        exact congrArg some (k.tick_eq now n hch)
      · exact k.read_eq now n

/-! ## Why -/

variable {k now n}

/-- The reader has nothing to give. -/
def Waits (k : Connection) : Prop :=
  if k.greeted then k.reader.frame = .waiting else k.reader.header = .waiting

/-- The bytes that the reader holds cannot be read. -/
def Halts (k : Connection) (f : ReadFault) : Prop :=
  if k.greeted then k.reader.frame = .failed f else k.reader.header = .failed f

/-- What there is to read. -/
inductive Reads (k : Connection) (n : Node σ) : Deed → Prop where
  | greet {next : Reader} (hgreeted : k.greeted = false) (h : k.reader.header = .ready () next) :
      Reads k n (.greet next)
  | take {f : Frame} {next : Reader} (hgreeted : k.greeted = true)
      (h : k.reader.frame = .ready f next) :
      Reads k n (.take f next ((receive k.channel f n).2.isClosed k.channel))
  | feed {b : ByteArray} {rest : List Arrival} (hwaits : k.Waits) (h : k.arrivals = .bytes b :: rest) :
      Reads k n (.feed b)
  | depart {rest : List Arrival} (hgreeted : k.greeted = true) (hwaits : k.Waits)
      (h : k.arrivals = .endOfStream :: rest) : Reads k n .depart
  | malformed {f : ReadFault} (h : k.Halts f) : Reads k n (.refuse f)
  | cutOff {f : ReadFault} {a : Arrival} {rest : List Arrival} (hwaits : k.Waits)
      (h : k.arrivals = a :: rest) (hend : a.isEnd = true) : Reads k n (.refuse f)

theorem Reads.isTick {d : Deed} (h : k.Reads n d) : d.isTick = false := by
  cases h <;> rfl

/-- Why a deed is due: the channel is closed, or it is not and the deadline is to be checked, or
there is something to read. -/
inductive Due (k : Connection) (now : Nat) (n : Node σ) : Deed → Prop where
  | leave (hclosed : n.isClosed k.channel = true) : Due k now n .leave
  | tick (hopen : n.isClosed k.channel = false) (hdue : k.nextTick ≤ now) :
      Due k now n (k.tickDeed now n)
  | read {d : Deed} (hopen : n.isClosed k.channel = false) (hearly : now < k.nextTick)
      (h : k.Reads n d) : Due k now n d

theorem reads_of_fillDeed? {d : Deed} (hwaits : k.Waits) (h : k.fillDeed? = some d) :
    k.Reads n d := by
  unfold fillDeed? at h
  cases harrivals : k.arrivals with
  | nil =>
    rw [harrivals] at h
    cases h
  | cons a rest =>
    rw [harrivals] at h
    cases a with
    | bytes b =>
      cases h
      exact .feed hwaits harrivals
    | failure f =>
      cases h
      exact .cutOff hwaits harrivals rfl
    | endOfStream =>
      cases h
      unfold dryDeed
      split
      · rename_i hgreeted
        split
        · exact .depart hgreeted hwaits harrivals
        · exact .cutOff hwaits harrivals rfl
      · exact .cutOff hwaits harrivals rfl

theorem reads_of_readDeed? {d : Deed} (h : k.readDeed? n = some d) : k.Reads n d := by
  unfold readDeed? at h
  by_cases hgreeted : k.greeted = true
  · rw [if_pos hgreeted] at h
    cases hframe : k.reader.frame with
    | ready f next =>
      rw [hframe] at h
      cases h
      exact .take hgreeted hframe
    | waiting =>
      rw [hframe] at h
      exact reads_of_fillDeed? (by rw [Waits, if_pos hgreeted, hframe]) h
    | failed f =>
      rw [hframe] at h
      cases h
      exact .malformed (by rw [Halts, if_pos hgreeted, hframe])
  · rw [if_neg hgreeted] at h
    cases hheader : k.reader.header with
    | ready u next =>
      rw [hheader] at h
      cases h
      exact .greet (by simpa using hgreeted) hheader
    | waiting =>
      rw [hheader] at h
      exact reads_of_fillDeed? (by rw [Waits, if_neg hgreeted, hheader]) h
    | failed f =>
      rw [hheader] at h
      cases h
      exact .malformed (by rw [Halts, if_neg hgreeted, hheader])

theorem due_of_deed? {d : Deed} (h : k.deed? now n = some d) :
    k.reading = true ∧ 0 < k.interval ∧ k.Due now n d := by
  unfold deed? at h
  split at h
  · cases h
  · rename_i hnot
    simp only [Bool.or_eq_true, Bool.not_eq_true', decide_eq_true_eq, not_or,
      Bool.not_eq_false] at hnot
    refine ⟨hnot.1, Nat.pos_of_ne_zero hnot.2, ?_⟩
    split at h
    · rename_i hclosed
      cases h
      exact .leave hclosed
    · rename_i hopen
      have hopen : n.isClosed k.channel = false := by simpa using hopen
      split at h
      · rename_i hdue
        cases h
        exact .tick hopen hdue
      · rename_i hearly
        exact .read hopen (Nat.not_le.1 hearly) (reads_of_readDeed? h)

/-- A connection that has to wait has nothing to check and nothing to read. -/
theorem waits_of_deed?_eq_none (h : k.deed? now n = none) (hreading : k.reading = true)
    (hinterval : 0 < k.interval) : now < k.nextTick ∧ k.Waits ∧ k.arrivals = [] := by
  have hfill (hnone : k.fillDeed? = none) : k.arrivals = [] := by
    unfold fillDeed? at hnone
    split at hnone <;> first | assumption | cases hnone
  have hinterval : k.interval ≠ 0 := Nat.pos_iff_ne_zero.1 hinterval
  simp only [deed?, hreading, hinterval, Bool.not_true, Bool.false_or, decide_false,
    Bool.false_eq_true, if_false] at h
  split at h
  · cases h
  · split at h
    · cases h
    · rename_i hearly
      refine ⟨Nat.not_le.1 hearly, ?_⟩
      unfold readDeed? at h
      unfold Waits
      by_cases hgreeted : k.greeted = true
      · rw [if_pos hgreeted] at h ⊢
        cases hframe : k.reader.frame with
        | waiting =>
          rw [hframe] at h
          exact ⟨rfl, hfill h⟩
        | _ =>
          rw [hframe] at h
          cases h
      · rw [if_neg hgreeted] at h ⊢
        cases hheader : k.reader.header with
        | waiting =>
          rw [hheader] at h
          exact ⟨rfl, hfill h⟩
        | _ =>
          rw [hheader] at h
          cases h

end Connection
end Courier
