import Courier.Proofs.Node.Sending
import Mathlib.Logic.Relation

/-! # Nothing is queued behind `close`

A node runs: channels with any pipelines are opened, anything is done on them, and writers take what
is queued or go away, in any order. Whatever is done is a chain of small changes
(`changes_operation`), and each change keeps the queues in order: the items ever queued on a channel
that has a writer are frames, and behind them `close` when the session is closed and not before. In
every state in between the phase that is shown is the session's, and a closed session stays as it
is. A write succeeds when it queues its bytes as one item, and changes nothing otherwise
(`Writing.performWith_eq_ok_iff`). All this is `close_is_queued_last`.
-/
set_option autoImplicit false

namespace Courier

open Courier.Wire Courier.Wire.Frame Courier.Routing

variable {σ : Type}

/-! ## The changes of a channel -/

/-- One change of the channel in a place. -/
inductive Channel.Change (c : ChannelId) : Channel σ → Channel σ → Prop where
  | enqueue {ch ch' : Channel σ} {b : ByteArray} (h : ch.enqueue c b = .ok ch') : Change c ch ch'
  | session {ch : Channel σ} {s : Session} (h : ch.session.Step s) : Change c ch (ch.setSession s)
  | remember (ch : Channel σ) (f : Fault) : Change c ch (ch.remember f)
  | shut (ch : Channel σ) (goodbye : Bool) : Change c ch (ch.shut goodbye)
  | finished (ch : Channel σ) : Change c ch { ch with finished := true }
  | reactor {ch : Channel σ} {i : Nat} {r r' : Reactor σ} (h : ch.reactors[i]? = some r)
      (halike : r.Alike r') : Change c ch { ch with reactors := ch.reactors.set i r' }

namespace Channel

variable {c : ChannelId} {ch ch' : Channel σ}

theorem Change.later (h : ch.Change c ch') : ch.Later ch' := by
  cases h with
  | enqueue h => exact later_enqueue h
  | session h => exact later_setSession h
  | remember f => exact ch.later_remember f
  | shut goodbye => exact ch.later_shut goodbye
  | finished =>
    exact later_of_queue rfl rfl rfl rfl (List.append_nil _).symm (fun _ => rfl) fun _ => rfl
  | reactor h halike => exact later_set h halike

/-- Everything ever queued, what has been taken first: frames, and behind them `close` when the
session is closed and not before. -/
def Ordered (taken : List Outbound) (ch : Channel σ) : Prop :=
  ∃ frames : List ByteArray, taken ++ ch.queue.toList =
    frames.map .bytes ++ if ch.session.isClosed then [.close] else []

/-- The phase that is shown is the session's, and what a writer is given is in order. -/
structure InOrder (taken : List Outbound) (ch : Channel σ) : Prop where
  shown : ch.published = ch.session.phase
  ordered : ch.hasWriter = true → ch.Ordered taken

theorem ordered_of_open {taken : List Outbound} (hopen : ch.session.isClosed = false) :
    ch.Ordered taken ↔ ∃ frames : List ByteArray,
      taken ++ ch.queue.toList = frames.map .bytes := by
  simp only [Ordered, hopen, Bool.false_eq_true, if_false, List.append_nil]

theorem inOrder_shut {taken : List Outbound} (h : ch.InOrder taken) (sayGoodbye : Bool) :
    (ch.shut sayGoodbye).InOrder taken := by
  by_cases hclosed : ch.session.isClosed = true
  · rw [shut_of_closed sayGoodbye hclosed]
    exact h
  · have hopen : ch.session.isClosed = false := by simpa using hclosed
    obtain ⟨hsession, hshown, -, hwriter, -⟩ := ch.shut_spec sayGoodbye hopen
    refine ⟨by rw [hshown, hsession]; rfl, ?_⟩
    intro hlive
    rw [hwriter] at hlive
    obtain ⟨frames, hframes⟩ := (ordered_of_open hopen).1 (h.ordered hlive)
    have hend : (ch.shut sayGoodbye).session.isClosed = true := by rw [hsession]; rfl
    have hlast : (if sayGoodbye then [goodbye] else []) =
        (if sayGoodbye then [[Command.detach.code].toByteArray] else []).map Outbound.bytes := by
      cases sayGoodbye <;> rfl
    refine ⟨frames ++ if sayGoodbye then [[Command.detach.code].toByteArray] else [], ?_⟩
    rw [queue_shut hopen hlive, hend, if_pos rfl, hlast, ← List.append_assoc, hframes,
      List.map_append, List.append_assoc]

/-- Each change keeps the order. -/
theorem Change.inOrder {taken : List Outbound} (hchange : ch.Change c ch') (h : ch.InOrder taken) :
    ch'.InOrder taken := by
  cases hchange with
  | enqueue henqueue =>
    rename_i b
    obtain ⟨hopen, hwriter, rfl⟩ := enqueue_eq_ok henqueue
    obtain ⟨frames, hframes⟩ := (ordered_of_open hopen).1 (h.ordered hwriter)
    refine ⟨h.shown, fun _ => ⟨frames ++ [b], ?_⟩⟩
    rw [Backlog.toList_push, ← List.append_assoc, hframes, List.map_append, hopen]
    simp only [Bool.false_eq_true, if_false, List.append_nil, List.map_cons, List.map_nil]
  | session hstep =>
    refine ⟨rfl, fun hwriter => (ordered_of_open hstep.open_after).2 ?_⟩
    exact (ordered_of_open hstep.isOpen).1 (h.ordered hwriter)
  | remember f => exact ⟨h.shown, h.ordered⟩
  | shut goodbye => exact inOrder_shut h goodbye
  | finished => exact ⟨h.shown, h.ordered⟩
  | reactor => exact ⟨h.shown, h.ordered⟩

end Channel

/-! ## The changes of a node -/

/-- One change of a node: of what its channels share, or of one channel. -/
inductive Node.Change : Node σ → Node σ → Prop where
  | shared {n n' : Node σ} (h : n'.channels = n.channels) : Change n n'
  | channel {n : Node σ} {c : ChannelId} {ch ch' : Channel σ} (hch : n.channel? c = some ch)
      (h : ch.Change c ch') : Change n (n.modify c fun _ => ch')

def Node.Changes : Node σ → Node σ → Prop := Relation.ReflTransGen Node.Change

namespace Node

variable {n n' : Node σ} {c : ChannelId}

theorem Change.changes (h : n.Change n') : n.Changes n' := .single h

theorem changes_modify {f : Channel σ → Channel σ} (h : ∀ ch : Channel σ, ch.Change c (f ch)) :
    n.Changes (n.modify c f) := by
  cases hch : n.channel? c with
  | none =>
    rw [modify_of_none n c f hch]
    exact .refl
  | some ch =>
    rw [modify_eq_const hch]
    exact (Change.channel hch (h ch)).changes

theorem changes_course : Course (Node.Changes (σ := σ)) where
  refl := fun _ => .refl
  trans := .trans
  registry := fun n r => (Change.shared (show { n with registry := r }.channels = _ from rfl)).changes
  policy := fun n s =>
    (Change.shared (show { n with policy := s }.channels = _ from rfl)).changes
  report := fun c s _ n r => (Change.shared (n.channels_note c r s)).changes
  enqueue := fun hch h => (Change.channel hch (.enqueue h)).changes
  session := fun hch h => (Change.channel hch (.session h)).changes
  remember := fun _ _ f => changes_modify fun ch => .remember ch f
  shut := fun _ _ goodbye => changes_modify fun ch => .shut ch goodbye
  reactor := by
    intro n c i r r' h halike
    obtain ⟨ch, hch, hr⟩ := (n.reactor?_eq_some_iff c).1 h
    rw [setReactor, modify_eq_const hch]
    exact (Change.channel hch (.reactor hr halike)).changes

theorem changes_rule : Rule (Node.Changes (σ := σ)) where
  toCourse := changes_course
  finish := by
    intro c
    apply changes_course.finish c
    · exact fun n r => (Change.shared (n.channels_note c r _)).changes
    · intro n
      have hfinished : n.Changes (n.modify c fun ch => { ch with finished := true }) :=
        changes_modify .finished
      have hclosed : (n.modify c fun ch => { ch with finished := true }).Changes
          ((n.modify c fun ch => { ch with finished := true }).modify c Channel.close) :=
        changes_modify fun ch => .shut ch false
      rw [modify_modify] at hclosed
      exact hfinished.trans hclosed
  farewell := fun c n r => (Change.shared (n.channels_note c r _)).changes

theorem Change.later (h : n.Change n') : n.Later n' := by
  cases h with
  | shared h => exact later_of_channels h
  | channel hch h => exact later_modify_const hch h.later

theorem Changes.later (h : n.Changes n') : n.Later n' := by
  induction h with
  | refl => exact .refl n
  | tail _ hlast ih => exact ih.trans hlast.later

/-- What each change of a channel keeps holds of the channel at the end of a chain. -/
theorem Changes.keeps {P : Channel σ → Prop}
    (hP : ∀ {ch ch' : Channel σ}, ch.Change c ch' → P ch → P ch') (h : n.Changes n')
    {ch : Channel σ} (hch : n.channel? c = some ch) (hp : P ch) :
    ∃ ch', n'.channel? c = some ch' ∧ P ch' := by
  induction h with
  | refl => exact ⟨ch, hch, hp⟩
  | tail _ hlast ih =>
    obtain ⟨ch₁, hch₁, hp₁⟩ := ih
    cases hlast with
    | shared hsame => exact ⟨ch₁, by rw [channel?, hsame]; exact hch₁, hp₁⟩
    | channel hch₂ hchange =>
      rename_i m _ c' ch₂ ch₃
      by_cases hc : c = c'
      · subst hc
        rw [hch₁] at hch₂
        cases hch₂
        exact ⟨ch₃, channel?_modify_of_some hch₁ _, hP hchange hp₁⟩
      · exact ⟨ch₁, (channel?_modify_of_ne m _ hc).trans hch₁, hp₁⟩

/-- Every channel is in order, when this has been taken from each. -/
def InOrder (taken : ChannelId → List Outbound) (n : Node σ) : Prop :=
  ∀ c ch, n.channel? c = some ch → ch.InOrder (taken c)

theorem Changes.inOrder {taken : ChannelId → List Outbound} (hchanges : n.Changes n')
    (h : n.InOrder taken) : n'.InOrder taken := by
  intro c ch' hch'
  obtain ⟨ch, hch, -⟩ := hchanges.later.before hch'
  obtain ⟨ch₁, hch₁, horder⟩ := hchanges.keeps Channel.Change.inOrder hch (h c ch hch)
  rw [hch'] at hch₁
  cases hch₁
  exact horder

end Node

/-! ## Writes -/

/-- The ways of writing on a channel. -/
inductive Writing where
  | header
  | frame (f : Frame)
  | packets (ps : List Packet)
  /-- Packets of which the pipeline is told. -/
  | send (ps : List Packet)

namespace Writing

def bytes : Writing → Except WireError ByteArray
  | header => .ok Header.bytes
  | frame f => f.encode
  | packets ps | send ps => sendFrames ps

/-- Whether there is nothing to write. -/
def isEmpty : Writing → Bool
  | header | frame _ => false
  | packets ps | send ps => ps.isEmpty

def performWith (k : Reentry σ) (c : ChannelId) : Writing → Action σ Unit
  | header => writeHeader c
  | frame f => writeFrame c f
  | packets ps => writePackets c ps
  | send ps => sendPacketsWith k c ps

/-- What follows once the bytes are queued. -/
def announceWith (k : Reentry σ) (c : ChannelId) (n : Node σ) : Writing → Node σ
  | send ps => ps.foldl (fun n p => k.dispatch c (.packetSent p) n) n
  | _ => n

end Writing

/-- The channel takes what is written: the bytes as one item, or nothing if there are none. -/
inductive Node.Takes (n : Node σ) (c : ChannelId) (w : Writing) : Node σ → Prop where
  | nothing (h : w.isEmpty = true) : n.Takes c w n
  | item {ch : Channel σ} {b : ByteArray} (h : w.isEmpty = false) (hch : n.channel? c = some ch)
      (hlive : ch.Live) (hb : w.bytes = .ok b) :
      n.Takes c w (n.modify c fun _ => { ch with queue := ch.queue.push (.bytes b) })

section writes

variable {n n' : Node σ} {c : ChannelId}

theorem apply_enqueue_eq_ok_iff {b : ByteArray} :
    (enqueue c b).apply n = (.ok (), n') ↔ ∃ ch, n.channel? c = some ch ∧ ch.Live ∧
      n' = n.modify c fun _ => { ch with queue := ch.queue.push (.bytes b) } := by
  constructor
  · intro h
    by_cases hlive : ∃ ch, n.channel? c = some ch ∧ ch.Live
    · obtain ⟨ch, hch, hlive⟩ := hlive
      rw [apply_enqueue_of_live hch hlive] at h
      cases h
      exact ⟨ch, hch, hlive, rfl⟩
    · obtain ⟨f, hf⟩ := apply_enqueue_of_not_live (c := c) (n := n)
        (fun ch hch hl => hlive ⟨ch, hch, hl⟩) b
      rw [hf] at h
      cases h
  · rintro ⟨ch, hch, hlive, rfl⟩
    exact apply_enqueue_of_live hch hlive b

theorem node_of_apply_enqueue_error {b : ByteArray} {f : Fault}
    (h : (enqueue c b).apply n = (.error f, n')) : n' = n := by
  rw [apply_enqueue] at h
  cases hch : n.channel? c with
  | none =>
    rw [hch] at h
    exact (congrArg Prod.snd h).symm
  | some ch =>
    rw [hch] at h
    simp only [] at h
    cases he : ch.enqueue c b with
    | error e =>
      rw [he] at h
      exact (congrArg Prod.snd h).symm
    | ok ch' =>
      rw [he] at h
      cases h

/-- Each way of writing queues bytes if there are any, and then tells the pipeline. -/
theorem Writing.apply_performWith (k : Reentry σ) (c : ChannelId) (n : Node σ) (w : Writing) :
    (w.performWith k c).apply n =
      if w.isEmpty then (.ok (), n)
      else match w.bytes with
        | .error e => (.error (.ofWire e), n)
        | .ok b => match (enqueue c b).apply n with
          | (.ok (), n') => (.ok (), w.announceWith k c n')
          | (.error f, n') => (.error f, n') := by
  have hpackets : ∀ ps : List Packet, ps ≠ [] →
      (writePackets c ps : Action σ Unit) = enqueue c (layouts (sends ps)) ∧
        sendFrames ps = .ok (layouts (sends ps)) :=
    fun ps hps => ⟨writePackets_eq hps, sendFrames_eq ps⟩
  cases w with
  | header =>
    show (enqueue c Header.bytes).apply n = _
    cases h : (enqueue c Header.bytes).apply n with
    | mk r n' => cases r <;> simp [isEmpty, bytes, announceWith, h]
  | frame f =>
    show (writeFrame c f).apply n = _
    unfold writeFrame
    cases hencode : f.encode with
    | error e => simp [isEmpty, bytes, hencode]; rfl
    | ok b =>
      cases h : (enqueue c b).apply n with
      | mk r n' => cases r <;> simp [isEmpty, bytes, announceWith, h, hencode]
  | packets ps =>
    show (writePackets c ps).apply n = _
    by_cases hps : ps = []
    · rw [hps, writePackets_nil]
      rfl
    · obtain ⟨hwrite, hbytes⟩ := hpackets ps hps
      rw [hwrite]
      cases h : (enqueue c (layouts (sends ps))).apply n with
      | mk r n' => cases r <;> simp [isEmpty, bytes, announceWith, h, hbytes, hps]
  | send ps =>
    show (sendPacketsWith k c ps).apply n = _
    by_cases hps : ps = []
    · rw [hps, sendPacketsWith, writePackets_nil]
      rfl
    · obtain ⟨hwrite, hbytes⟩ := hpackets ps hps
      rw [sendPacketsWith, hwrite, Action.apply_bind]
      simp only [isEmpty, bytes, announceWith, hbytes, List.isEmpty_iff, hps, if_false]
      cases (enqueue c (layouts (sends ps))).apply n with
      | mk r n' => cases r <;> rfl

/-- A write succeeds when the channel takes it, and not otherwise. -/
theorem Writing.performWith_eq_ok_iff (k : Reentry σ) (w : Writing) :
    (w.performWith k c).apply n = (.ok (), n') ↔
      ∃ m, n.Takes c w m ∧ n' = w.announceWith k c m := by
  rw [apply_performWith]
  by_cases hempty : w.isEmpty = true
  · -- Nothing is queued, and there is nothing to tell.
    have htold : w.announceWith k c n = n := by
      cases w with
      | send ps =>
        rw [announceWith, List.isEmpty_iff.1 hempty]
        rfl
      | _ => rfl
    rw [if_pos hempty]
    constructor
    · intro h
      cases h
      exact ⟨n, .nothing hempty, htold.symm⟩
    · rintro ⟨m, htakes, rfl⟩
      cases htakes with
      | nothing => rw [htold]
      | item h => rw [hempty] at h; cases h
  · have hsome : w.isEmpty = false := by simpa using hempty
    rw [if_neg hempty]
    constructor
    · intro h
      cases hbytes : w.bytes with
      | error e =>
        rw [hbytes] at h
        cases h
      | ok b =>
        rw [hbytes] at h
        cases hrun : (enqueue c b).apply n with
        | mk r m =>
          simp only [hrun] at h
          cases r with
          | error f => cases h
          | ok u =>
            cases h
            obtain ⟨ch, hch, hlive, rfl⟩ := apply_enqueue_eq_ok_iff.1 hrun
            exact ⟨_, .item hsome hch hlive hbytes, rfl⟩
    · rintro ⟨m, htakes, rfl⟩
      cases htakes with
      | nothing h => exact absurd h hempty
      | item h hch hlive hb =>
        simp only [hb, apply_enqueue_eq_ok_iff.2 ⟨_, hch, hlive, rfl⟩]

/-- A write that fails changes nothing. -/
theorem Writing.node_of_performWith_error {k : Reentry σ} {w : Writing} {f : Fault}
    (h : (w.performWith k c).apply n = (.error f, n')) : n' = n := by
  rw [apply_performWith] at h
  split at h
  · cases h
  · split at h
    · exact (congrArg Prod.snd h).symm
    · split at h
      · cases h
      · rename_i hrun
        cases h
        exact node_of_apply_enqueue_error hrun

end writes

/-! ## Runs -/

/-- What can be done on a channel. -/
inductive Operation where
  /-- The header is exchanged. -/
  | greet
  | write (w : Writing)
  | dispatch (e : Event)
  | raise (f : Fault)
  | receive (f : Frame)
  | detach
  | close
  | finish
  /-- A packet is routed, from this channel or from any other. -/
  | route (p : Packet)

def Operation.perform (c : ChannelId) (n : Node σ) : Operation → Node σ
  | greet => Connection.greet c n
  | write w => ((w.performWith .full c).apply n).2
  | dispatch e => Courier.dispatch c e n
  | raise f => Courier.raise c f n
  | receive f => (Courier.receive c f n).2
  | detach => n.modify c Channel.detach
  | close => n.modify c Channel.close
  | finish => Courier.finish c n
  | route p => (routePacket p n).2

/-- What can happen in a node. -/
inductive NodeAct (σ : Type) where
  | openChannel (role : Role) (now : Nat) (timing : Timing) (reactors : List (Reactor σ))
  | operate (c : ChannelId) (o : Operation)
  /-- The writer takes what is queued. -/
  | take (c : ChannelId)
  /-- The writer goes away. -/
  | dropWriter (c : ChannelId)

def NodeAct.perform : NodeAct σ → Node σ → Node σ
  | openChannel role now timing reactors, n =>
    (n.addChannel (.start (.start role now timing) reactors)).2
  | operate c o, n => o.perform c n
  | take c, n => (n.takeQueue c).2
  | dropWriter c, n => n.modify c Channel.dropWriter

/-- What an act takes from the queue of a channel. -/
def NodeAct.takes (n : Node σ) (c : ChannelId) : NodeAct σ → List Outbound
  | take c' => if c' = c then (n.takeQueue c').1 else []
  | _ => []

/-- A node, and what was taken from the queue of each channel. -/
structure NodeRun (σ : Type) where
  node : Node σ
  taken : ChannelId → List Outbound

def NodeRun.step (r : NodeRun σ) (a : NodeAct σ) : NodeRun σ :=
  ⟨a.perform r.node, fun c => r.taken c ++ a.takes r.node c⟩

def nodeRun (policy : σ) (acts : List (NodeAct σ)) : NodeRun σ :=
  acts.foldl NodeRun.step ⟨.start policy, fun _ => []⟩

theorem telling_write {R : Node σ → Node σ → Prop} (hR : Telling R) (c : ChannelId) (w : Writing) :
    Moves R (w.performWith .full c) := by
  cases w with
  | header => exact hR.write c _
  | frame f => exact hR.writeFrame c f
  | packets ps => exact hR.writePackets c ps
  | send ps => exact hR.sendPackets c ps

/-- Whatever is done is a chain of changes. -/
theorem changes_operation (c : ChannelId) (n : Node σ) (o : Operation) :
    n.Changes (o.perform c n) := by
  have hR := Node.changes_rule (σ := σ)
  cases o with
  | greet => exact hR.telling.greet c n
  | write w => exact telling_write hR.telling c w n
  | dispatch e => exact hR.dispatch c e n
  | raise f => exact hR.raise c f n
  | receive f => exact hR.telling.receive c f n
  | detach => exact hR.shut n c true
  | close => exact hR.shut n c false
  | finish => exact hR.finish c n
  | route p => exact hR.telling.routePacket p n

/-! ## Every run -/

theorem inOrder_start (role : Role) (now : Nat) (timing : Timing) (reactors : List (Reactor σ)) :
    (Channel.start (.start role now timing) reactors).InOrder [] :=
  ⟨rfl, fun _ => ⟨[], rfl⟩⟩

/-- Every channel is in order, and nothing was taken where no channel is yet. -/
structure NodeRun.Orderly (r : NodeRun σ) : Prop where
  inOrder : r.node.InOrder r.taken
  fresh : ∀ c : ChannelId, r.node.channels.length ≤ c.index → r.taken c = []

/-- A channel of a node with one more is an old one, or the new one in its place. -/
theorem channel?_addChannel {n : Node σ} {ch ch' : Channel σ} {c : ChannelId}
    (h : (n.addChannel ch).2.channel? c = some ch') :
    n.channel? c = some ch' ∨ n.channels.length ≤ c.index ∧ ch' = ch := by
  have hmem : (n.channels ++ [ch])[c.index]? = some ch' := h
  by_cases hlt : c.index < n.channels.length
  · rw [List.getElem?_append_left hlt] at hmem
    exact .inl hmem
  · have hle : n.channels.length ≤ c.index := Nat.le_of_not_lt hlt
    rw [List.getElem?_append_right hle] at hmem
    exact .inr ⟨hle, List.mem_singleton.1 (List.mem_of_getElem? hmem)⟩

theorem takeQueue_of_none {n : Node σ} {c : ChannelId} (h : n.channel? c = none) :
    (n.takeQueue c).1 = [] := by
  rw [Node.takeQueue, h]
  rfl

theorem takes_of_fresh {n : Node σ} {c : ChannelId} (h : n.channels.length ≤ c.index)
    (a : NodeAct σ) : a.takes n c = [] := by
  have hnone : n.channel? c = none := List.getElem?_eq_none h
  cases a with
  | take c' =>
    rw [NodeAct.takes]
    split
    · rename_i heq
      rw [heq, takeQueue_of_none hnone]
    · rfl
  | _ => rfl

theorem length_perform (n : Node σ) (a : NodeAct σ) :
    n.channels.length ≤ (a.perform n).channels.length := by
  cases a with
  | openChannel role now timing reactors =>
    show n.channels.length ≤ (n.channels ++ [_]).length
    rw [List.length_append]
    omega
  | operate c o => exact Nat.le_of_eq (changes_operation c n o).later.count.symm
  | take c => exact Nat.le_of_eq (List.length_modify ..).symm
  | dropWriter c => exact Nat.le_of_eq (List.length_modify ..).symm

theorem NodeRun.Orderly.take {r : NodeRun σ} (h : r.Orderly) (c : ChannelId) :
    (r.step (.take c)).node.InOrder (r.step (.take c)).taken := by
  intro c' ch' hch'
  show ch'.InOrder (r.taken c' ++ if c = c' then (r.node.takeQueue c).1 else [])
  change (r.node.modify c fun ch => { ch with queue := .empty }).channel? c' = some ch' at hch'
  by_cases hc : c = c'
  · subst hc
    rw [Node.channel?_modify_self] at hch'
    obtain ⟨ch, hch, rfl⟩ := Option.map_eq_some_iff.1 hch'
    have htaken : (r.node.takeQueue c).1 = ch.queue.toList := by
      rw [Node.takeQueue, hch]
      rfl
    obtain ⟨hshown, hordered⟩ := h.inOrder c ch hch
    refine ⟨hshown, fun hwriter => ?_⟩
    obtain ⟨frames, hframes⟩ := hordered hwriter
    refine ⟨frames, ?_⟩
    rw [if_pos rfl, htaken, Backlog.toList_empty, List.append_nil]
    exact hframes
  · rw [Node.channel?_modify_of_ne _ _ (Ne.symm hc)] at hch'
    rw [if_neg hc, List.append_nil]
    exact h.inOrder c' ch' hch'

theorem NodeRun.Orderly.dropWriter {r : NodeRun σ} (h : r.Orderly) (c : ChannelId) :
    (r.node.modify c Channel.dropWriter).InOrder r.taken := by
  intro c' ch' hch'
  by_cases hc : c' = c
  · subst hc
    rw [Node.channel?_modify_self] at hch'
    obtain ⟨ch, hch, rfl⟩ := Option.map_eq_some_iff.1 hch'
    exact ⟨(h.inOrder c' ch hch).shown, fun hwriter => nomatch hwriter⟩
  · rw [Node.channel?_modify_of_ne _ _ hc] at hch'
    exact h.inOrder c' ch' hch'

theorem NodeRun.Orderly.step {r : NodeRun σ} (h : r.Orderly) (a : NodeAct σ) :
    (r.step a).Orderly := by
  refine ⟨?_, ?_⟩
  · cases a with
    | openChannel role now timing reactors =>
      intro c ch hch
      show ch.InOrder (r.taken c ++ [])
      rw [List.append_nil]
      obtain hold | ⟨hfresh, rfl⟩ := channel?_addChannel hch
      · exact h.inOrder c ch hold
      · rw [h.fresh c hfresh]
        exact inOrder_start role now timing reactors
    | operate c o =>
      intro c' ch hch
      show ch.InOrder (r.taken c' ++ [])
      rw [List.append_nil]
      exact (changes_operation c r.node o).inOrder h.inOrder c' ch hch
    | take c => exact h.take c
    | dropWriter c =>
      intro c' ch hch
      show ch.InOrder (r.taken c' ++ [])
      rw [List.append_nil]
      exact h.dropWriter c c' ch hch
  · intro c hc
    have hbefore := Nat.le_trans (length_perform r.node a) hc
    show r.taken c ++ a.takes r.node c = []
    rw [h.fresh c hbefore, takes_of_fresh hbefore]
    rfl

theorem NodeRun.orderly_run (policy : σ) (acts : List (NodeAct σ)) :
    (nodeRun policy acts).Orderly := by
  have hrun : ∀ r : NodeRun σ, r.Orderly → (acts.foldl NodeRun.step r).Orderly := by
    induction acts with
    | nil => exact fun r hr => hr
    | cons a acts ih => exact fun r hr => ih _ (hr.step a)
  refine hrun _ ⟨?_, fun _ _ => rfl⟩
  intro c ch hch
  cases hch

/-- No act reopens a session. -/
theorem session_perform_of_closed {n : Node σ} {c : ChannelId} {ch : Channel σ}
    (hch : n.channel? c = some ch) (hclosed : ch.session.isClosed = true) (a : NodeAct σ) :
    ∃ ch', (a.perform n).channel? c = some ch' ∧ ch'.session = ch.session := by
  have hmodify : ∀ c' (f : Channel σ → Channel σ), (∀ ch, (f ch).session = ch.session) →
      ∃ ch', (n.modify c' f).channel? c = some ch' ∧ ch'.session = ch.session := by
    intro c' f hf
    by_cases hc : c = c'
    · subst hc
      exact ⟨f ch, Node.channel?_modify_of_some hch f, hf ch⟩
    · exact ⟨ch, (Node.channel?_modify_of_ne n f hc).trans hch, rfl⟩
  cases a with
  | openChannel role now timing reactors =>
    have hlt := (List.getElem?_eq_some_iff.1 hch).1
    exact ⟨ch, (List.getElem?_append_left hlt).trans hch, rfl⟩
  | operate c' o =>
    obtain ⟨ch', hch', hlater⟩ := (changes_operation c' n o).later.channel c ch hch
    exact ⟨ch', hch', hlater.session hclosed⟩
  | take c' => exact hmodify c' _ fun _ => rfl
  | dropWriter c' => exact hmodify c' _ fun _ => rfl

theorem session_run_of_closed (r : NodeRun σ) (more : List (NodeAct σ)) {c : ChannelId}
    {ch : Channel σ} (hch : r.node.channel? c = some ch) (hclosed : ch.session.isClosed = true) :
    ∃ ch', (more.foldl NodeRun.step r).node.channel? c = some ch' ∧
      ch'.session = ch.session := by
  induction more generalizing r ch with
  | nil => exact ⟨ch, hch, rfl⟩
  | cons a more ih =>
    obtain ⟨ch', hch', hsame⟩ := session_perform_of_closed hch hclosed a
    rw [← hsame] at hclosed ⊢
    exact ih (r.step a) hch' hclosed

/-- In every run, and in every state that an operation passes through, the phase that is shown is
the session's, and the items ever queued on a channel with a writer are frames, and behind them
`close` when the session is closed and not before; a closed session stays as it is; and a write
succeeds when its bytes are one more item, and changes nothing otherwise. -/
theorem close_is_queued_last (policy : σ) (acts more : List (NodeAct σ)) :
    (∀ (c : ChannelId) (o : Operation),
      (nodeRun policy acts).node.Changes (o.perform c (nodeRun policy acts).node)) ∧
    (∀ n, (nodeRun policy acts).node.Changes n → ∀ c ch, n.channel? c = some ch →
      ch.published = ch.session.phase ∧
      (ch.hasWriter = true → ch.Ordered ((nodeRun policy acts).taken c)) ∧
      (ch.session.isClosed = true → ∀ n', n.Changes n' →
        ∃ ch', n'.channel? c = some ch' ∧ ch'.session = ch.session)) ∧
    (∀ c ch, (nodeRun policy acts).node.channel? c = some ch → ch.session.isClosed = true →
      ∃ ch', (nodeRun policy (acts ++ more)).node.channel? c = some ch' ∧
        ch'.session = ch.session) ∧
    ∀ (n n' : Node σ) (k : Reentry σ) (c : ChannelId) (w : Writing),
      ((w.performWith k c).apply n = (.ok (), n') ↔
        ∃ m, n.Takes c w m ∧ n' = w.announceWith k c m) ∧
      ∀ f, (w.performWith k c).apply n = (.error f, n') → n' = n := by
  refine ⟨fun c o => changes_operation c _ o, ?_, ?_, ?_⟩
  · intro n hn c ch hch
    obtain ⟨hshown, hordered⟩ := hn.inOrder (NodeRun.orderly_run policy acts).inOrder c ch hch
    refine ⟨hshown, hordered, ?_⟩
    intro hclosed n' hn'
    obtain ⟨ch', hch', hlater⟩ := hn'.later.channel c ch hch
    exact ⟨ch', hch', hlater.session hclosed⟩
  · intro c ch hch hclosed
    have hrun := session_run_of_closed (nodeRun policy acts) more hch hclosed
    rw [nodeRun, List.foldl_append]
    exact hrun
  · exact fun n n' k c w =>
      ⟨Writing.performWith_eq_ok_iff k w, fun f => Writing.node_of_performWith_error⟩

/-- A channel is opened and writes, and its writer takes that; then its peer asks for a mailbox
without having a name, and the channel closes. -/
def shortLife : List (NodeAct Unit) :=
  [.openChannel .responder 0 {} [.eventLog, .detachOnException, .flushOnFetch],
    .operate ⟨0⟩ .greet, .operate ⟨0⟩ (.write (.frame .fetch)), .take ⟨0⟩,
    .operate ⟨0⟩ (.receive .fetch)]

theorem close_is_queued_last_shortLife :
    (nodeRun () shortLife).taken ⟨0⟩ = [.bytes [Command.fetch.code].toByteArray] ∧
    (∃ ch, (nodeRun () shortLife).node.channel? ⟨0⟩ = some ch ∧
      ch.queue.toList = [Channel.goodbye, .close] ∧ ch.published = ch.session.phase ∧
      ch.Ordered ((nodeRun () shortLife).taken ⟨0⟩) ∧
      (∃ ch', (Connection.greet ⟨0⟩ (nodeRun () shortLife).node).channel? ⟨0⟩ = some ch' ∧
        ch'.session = ch.session) ∧
      ∃ ch', (nodeRun () (shortLife ++ shortLife)).node.channel? ⟨0⟩ = some ch' ∧
        ch'.session = ch.session) ∧
    (∃ n m, (writeHeader ⟨0⟩).apply (nodeRun () (shortLife.take 1)).node = (.ok (), n) ∧
      (nodeRun () (shortLife.take 1)).node.Takes ⟨0⟩ .header m ∧ n = m) ∧
    ∃ f n, (writeHeader ⟨0⟩).apply (nodeRun () shortLife).node = (.error f, n) ∧
      n = (nodeRun () shortLife).node := by
  obtain ⟨hoperation, hinside, hafter, hwrites⟩ := close_is_queued_last () shortLife shortLife
  obtain ⟨ch, hch, hqueue, hwriter, hclosed⟩ : ∃ ch,
      (nodeRun () shortLife).node.channel? ⟨0⟩ = some ch ∧
      ch.queue.toList = [Channel.goodbye, .close] ∧ ch.hasWriter = true ∧
      ch.session.isClosed = true := ⟨_, rfl, by decide +kernel⟩
  obtain ⟨hshown, hordered, hkept⟩ := hinside _ .refl ⟨0⟩ ch hch
  obtain ⟨m, htakes, hequal⟩ := (hwrites (nodeRun () (shortLife.take 1)).node _ .full ⟨0⟩
    .header).1.1 rfl
  exact ⟨by decide +kernel,
    ⟨ch, hch, hqueue, hshown, hordered hwriter, hkept hclosed _ (hoperation ⟨0⟩ .greet),
      hafter ⟨0⟩ ch hch hclosed⟩,
    ⟨_, m, rfl, htakes, hequal⟩,
    ⟨_, _, rfl, (hwrites _ _ .full ⟨0⟩ .header).2 _ rfl⟩⟩

end Courier
