import Courier.Proofs.Server.Admission

/-! # No packet is misdelivered

A server runs: connections come and go, frames arrive on any of them, writers take what is queued or
go away, and the application routes packets, all in any order. Whatever is queued on a channel is
kept in a log, with the session that the channel had before the step that queued it. Every packet in
the log was addressed to the identity of its channel, which had been identified by then, and the
channel still has that identity (`no_misdelivery`).
-/
set_option autoImplicit false

namespace Courier

open Courier.Wire Courier.Wire.Frame Courier.Routing

variable {σ : Type} {n n' : Node σ} {c : ChannelId} {ch ch' : Channel σ}

/-! ## Runs -/

/-- What can happen on a server. -/
inductive ServerAct (σ : Type) where
  | accept (w : ServerWiring σ) (now : Nat)
  /-- The connection header arrives. -/
  | greet (c : ChannelId)
  | receive (c : ChannelId) (f : Frame)
  /-- Reading fails, or the handshake takes too long. -/
  | fail (c : ChannelId) (f : Fault)
  | close (c : ChannelId)
  | detach (c : ChannelId)
  | finish (c : ChannelId)
  /-- The writer takes what is queued. -/
  | take (c : ChannelId)
  /-- The writer goes away. -/
  | dropWriter (c : ChannelId)
  | route (p : Packet)

def ServerAct.perform : ServerAct σ → Node σ → Node σ
  | accept w now, n => (Courier.accept w now n).2
  | greet c, n => Connection.greet c n
  | receive c f, n => (Courier.receive c f n).2
  | fail c f, n => raise c f n
  | close c, n => n.modify c Channel.close
  | detach c, n => n.modify c Channel.detach
  | finish c, n => Courier.finish c n
  | take c, n => (n.takeQueue c).2
  | dropWriter c, n => n.modify c Channel.dropWriter
  | route p, n => (routePacket p n).2

/-- An item that was queued, and the session of its channel before the step that queued it. -/
structure Queued where
  channel : ChannelId
  before : Option Session
  item : Outbound

def queuedOn (n n' : Node σ) (c : ChannelId) : List Queued :=
  let old := (n.channel? c).map (·.queue.size)
  let items := (n'.channel? c).map (·.queue.toList)
  ((items.getD []).drop (old.getD 0)).map (⟨c, (n.channel? c).map (·.session), ·⟩)

def queued (n n' : Node σ) : List Queued :=
  (List.range n'.channels.length).flatMap fun i => queuedOn n n' ⟨i⟩

/-- A server, and everything that was ever queued on it. -/
structure ServerRun (σ : Type) where
  node : Node σ
  log : List Queued

def ServerRun.step (r : ServerRun σ) (a : ServerAct σ) : ServerRun σ :=
  ⟨a.perform r.node, r.log ++ queued r.node (a.perform r.node)⟩

def serverRun (policy : σ) (acts : List (ServerAct σ)) : ServerRun σ :=
  acts.foldl ServerRun.step ⟨.start policy, []⟩

/-! ## One step -/

/-- The packets of an item were for the identity that its channel had before it was queued. -/
def Queued.Right (q : Queued) : Prop := ∀ ps, .send ps ∈ q.item.frames → ∀ p ∈ ps,
  ∃ s, q.before = some s ∧ s.phase = .identified ∧ s.identity = some p.recipient

/-- What keeps a run right. -/
structure RightStep (n n' : Node σ) : Prop where
  sound : Sound n'
  identity : ∀ c a, n.identity? c = some a → n'.identity? c = some a
  queued : ∀ q ∈ queued n n', q.Right

theorem mem_queued {q : Queued} (h : q ∈ queued n n') : ∃ ch', n'.channel? q.channel = some ch' ∧
    q.item ∈ ch'.queue.toList.drop (((n.channel? q.channel).map (·.queue.size)).getD 0) ∧
    q.before = (n.channel? q.channel).map (·.session) := by
  obtain ⟨i, -, hq⟩ := List.mem_flatMap.1 h
  obtain ⟨x, hx, rfl⟩ := List.mem_map.1 hq
  cases hch' : n'.channel? ⟨i⟩ with
  | none =>
    rw [hch'] at hx
    simp at hx
  | some ch' =>
    rw [hch'] at hx
    exact ⟨ch', rfl, hx, rfl⟩

/-- A step that leaves no more in any queue than there was before queues nothing. -/
theorem RightStep.of_queues (hsound : Sound n')
    (hidentity : ∀ c a, n.identity? c = some a → n'.identity? c = some a)
    (hqueue : ∀ c ch', n'.channel? c = some ch' → ch'.queue.toList = [] ∨
      ∃ ch, n.channel? c = some ch ∧ ch.queue = ch'.queue) : RightStep n n' := by
  refine ⟨hsound, hidentity, ?_⟩
  intro q hq
  obtain ⟨ch', hch', hitem, -⟩ := mem_queued hq
  obtain hempty | ⟨ch, hch, hsame⟩ := hqueue _ ch' hch'
  · rw [hempty] at hitem
    simp at hitem
  · rw [hch] at hitem
    change q.item ∈ ch'.queue.toList.drop ch.queue.size at hitem
    rw [hsame, ← Backlog.length_toList, List.drop_length] at hitem
    cases hitem

/-- A step that admits, and after which every channel is the same at a later time. -/
theorem Admitted.rightStep (h : Sound n) (hadmitted : Admitted n n') (hlater : n.Later n') :
    RightStep n n' := by
  refine ⟨hadmitted.sound, hadmitted.identity, ?_⟩
  intro q hq ps hps p hp
  obtain ⟨ch', hch', hitem, hbefore⟩ := mem_queued hq
  obtain ⟨ch, hch, hlater'⟩ := hlater.before hch'
  obtain ⟨ch₂, hch₂, items, hqueue, hitems⟩ := hadmitted.channel _ ch hch
  rw [hch'] at hch₂
  cases hch₂
  rw [hch] at hitem hbefore
  have hnew : ch'.queue.toList.drop ch.queue.size = items := by
    rw [hqueue, ← Backlog.length_toList, List.drop_left]
  change q.item ∈ ch'.queue.toList.drop ch.queue.size at hitem
  rw [hnew] at hitem
  have hidentity : ch.session.identity = some p.recipient :=
    (hitems (.send ps) (List.mem_flatMap.2 ⟨q.item, hitem, hps⟩)).packets p hp
  refine ⟨ch.session, hbefore, ?_, hidentity⟩
  obtain hphase | hphase := (h.channel _ ch hch).named (by simp [hidentity])
  · exact hphase
  · -- A closed channel queues nothing.
    rw [hlater'.queue (by simp [Session.isClosed, hphase])] at hqueue
    have hnone : items = [] := by simpa using hqueue
    rw [hnone] at hitem
    cases hitem

theorem Delivered.rightStep (h : Sound n) (hdelivered : Delivered n n') (hlater : n.Later n') :
    RightStep n n' := hdelivered.admitted.rightStep h hlater

theorem channel?_accept (w : ServerWiring σ) (now : Nat) (hch : n.channel? c = some ch) :
    (accept w now n).2.channel? c = some ch := by
  have hlt := (List.getElem?_eq_some_iff.1 hch).1
  exact (List.getElem?_append_left hlt).trans hch

/-- A channel of a server that has accepted a connection is an old one or a new one. -/
theorem channel?_accept_cases {w : ServerWiring σ} {now : Nat}
    (hch : (accept w now n).2.channel? c = some ch) :
    n.channel? c = some ch ∨ ch = .start (.start .responder now w.timing) w.pipeline := by
  have hmem : (n.channels ++
      [Channel.start (.start .responder now w.timing) w.pipeline])[c.index]? = some ch := hch
  by_cases hlt : c.index < n.channels.length
  · rw [List.getElem?_append_left hlt] at hmem
    exact .inl hmem
  · rw [List.getElem?_append_right (Nat.le_of_not_lt hlt)] at hmem
    exact .inr (List.mem_singleton.1 (List.mem_of_getElem? hmem))

/-- Connections that are accepted are sound. -/
theorem rightStep_accept (h : Sound n) (w : ServerWiring σ) (now : Nat) :
    RightStep n (accept w now n).2 := by
  have hidentity : ∀ c a, n.identity? c = some a → (accept w now n).2.identity? c = some a := by
    intro c a ha
    cases hch : n.channel? c with
    | none =>
      rw [Node.identity?, hch] at ha
      cases ha
    | some ch =>
      rw [identity?_eq hch] at ha
      rw [identity?_eq (channel?_accept w now hch), ha]
  refine .of_queues ⟨?_, h.attached.imp fun a c => hidentity c a, h.waiting⟩ hidentity ?_
  · intro c ch hch
    obtain hch | rfl := channel?_accept_cases hch
    · exact h.channel c ch hch
    · refine ⟨⟨w, .empty, ⟨server_pipeline_eq w, plain_serverRest w⟩, ?_⟩, rfl, ?_⟩
      · exact fun p hp => by cases hp
      · exact fun hnamed => absurd rfl hnamed
  · intro c ch hch
    obtain hch | rfl := channel?_accept_cases hch
    · exact .inr ⟨ch, hch, rfl⟩
    · exact .inl rfl

/-- A channel whose queue is emptied, and which may lose its writer. -/
theorem rightStep_empty (h : Sound n) (c : ChannelId) (f : Channel σ → Channel σ)
    (hsession : ∀ ch, (f ch).session = ch.session) (hreactors : ∀ ch, (f ch).reactors = ch.reactors)
    (hqueue : ∀ ch, (f ch).queue = .empty) : RightStep n (n.modify c f) := by
  cases hch : n.channel? c with
  | none =>
    rw [Node.modify_of_none n c f hch]
    exact (Delivered.refl h).rightStep h (.refl n)
  | some ch =>
    obtain ⟨⟨w, l, hw, hbuffer⟩, hrole, hnamed⟩ := h.channel c ch hch
    have hsound : (f ch).Sound := by
      refine ⟨⟨w, l, hw.of_reactors_eq (hreactors ch), ?_⟩, ?_, ?_⟩
      · rw [hsession]
        exact hbuffer
      · rw [hsession]
        exact hrole
      · rw [hsession]
        exact hnamed
    rw [Node.modify_eq_const hch]
    have hkept : ∀ a, ch.session.identity = some a → (f ch).session.identity = some a := by
      intro a ha
      rw [hsession, ha]
    refine .of_queues (h.modify hch hsound hkept) (identity?_modify_of_kept hch hkept) ?_
    · intro c' ch' hch'
      by_cases hc : c' = c
      · subst hc
        rw [Node.channel?_modify_self, hch] at hch'
        cases hch'
        rw [hqueue]
        exact .inl rfl
      · rw [Node.channel?_modify_of_ne n _ hc] at hch'
        exact .inr ⟨ch', hch', rfl⟩

theorem Sound.shut (h : Sound n) (c : ChannelId) (goodbye : Bool) :
    Delivered n (n.modify c (·.shut goodbye)) := by
  cases hch : n.channel? c with
  | none =>
    rw [Node.modify_of_none n c _ hch]
    exact .refl h
  | some ch =>
    rw [Node.modify_eq_const hch]
    exact .modify h hch ((h.channel c ch hch).of_over (ch.over_shut goodbye))

theorem ServerAct.rightStep (h : Sound n) (a : ServerAct σ) : RightStep n (a.perform n) := by
  cases a with
  | accept w now => exact rightStep_accept h w now
  | greet c =>
    exact (h.greet c).rightStep h (later_rule.telling.greet c n)
  | receive c f => exact (h.receive c f).rightStep h (later_rule.telling.receive c f n)
  | fail c f => exact (h.raiseWith .full c f).rightStep h (later_rule.raise c f n)
  | close c => exact (h.shut c false).rightStep h (later_rule.shut n c false)
  | detach c => exact (h.shut c true).rightStep h (later_rule.shut n c true)
  | finish c => exact (h.finish c).rightStep h (later_rule.finish c n)
  | take c => exact rightStep_empty h c _ (fun _ => rfl) (fun _ => rfl) fun _ => rfl
  | dropWriter c => exact rightStep_empty h c _ (fun _ => rfl) (fun _ => rfl) fun _ => rfl
  | route p => exact (h.routePacket p).rightStep h (later_rule.telling.routePacket p n)

/-! ## Every run -/

/-- What holds of every run: the server is sound, and what was logged is right, by the identities
that the channels have at last. -/
structure ServerRun.Right (r : ServerRun σ) : Prop where
  sound : Sound r.node
  log : ∀ q ∈ r.log, ∀ ps, .send ps ∈ q.item.frames → ∀ p ∈ ps,
    ∃ s, q.before = some s ∧ s.phase = .identified ∧ s.identity = some p.recipient ∧
      r.node.identity? q.channel = some p.recipient

theorem sound_start (policy : σ) : Sound (Node.start policy) := by
  refine ⟨?_, AddressMap.all_empty _, AddressMap.all_empty _⟩
  intro c ch hch
  cases hch

theorem ServerRun.Right.step {r : ServerRun σ} (h : r.Right) (a : ServerAct σ) :
    (r.step a).Right := by
  have hstep := a.rightStep h.sound
  refine ⟨hstep.sound, ?_⟩
  intro q hq ps hps p hp
  obtain hq | hq := List.mem_append.1 hq
  · obtain ⟨s, hbefore, hphase, hs, hidentity⟩ := h.log q hq ps hps p hp
    exact ⟨s, hbefore, hphase, hs, hstep.identity _ _ hidentity⟩
  · obtain ⟨s, hbefore, hphase, hs⟩ := hstep.queued q hq ps hps p hp
    refine ⟨s, hbefore, hphase, hs, hstep.identity _ _ ?_⟩
    obtain ⟨ch', -, -, hsession⟩ := mem_queued hq
    rw [hbefore] at hsession
    obtain ⟨ch, hch, rfl⟩ := Option.map_eq_some_iff.1 hsession.symm
    rw [identity?_eq hch, hs]

theorem ServerRun.right_run (policy : σ) (acts : List (ServerAct σ)) :
    (serverRun policy acts).Right := by
  have hrun : ∀ r : ServerRun σ, r.Right → (acts.foldl ServerRun.step r).Right := by
    induction acts with
    | nil => exact fun r hr => hr
    | cons a acts ih => exact fun r hr => ih _ (hr.step a)
  exact hrun _ ⟨sound_start policy, fun q hq => nomatch hq⟩

/-- Every packet in a SEND frame that a server ever queued on a channel was addressed to the
identity that the channel had, and the session had been identified before the frame was queued. -/
theorem no_misdelivery (policy : σ) (acts : List (ServerAct σ)) :
    ∀ q ∈ (serverRun policy acts).log, ∀ ps, .send ps ∈ q.item.frames → ∀ p ∈ ps,
      ∃ s, q.before = some s ∧ s.phase = .identified ∧ s.identity = some p.recipient ∧
        (serverRun policy acts).node.identity? q.channel = some p.recipient :=
  (ServerRun.right_run policy acts).log

/-- Two addresses with one locator. -/
def twins : Address × Address :=
  (⟨⟨#[65, 97]⟩, by decide, by decide⟩, ⟨⟨#[66, 66]⟩, by decide, by decide⟩)

/-- Two connections become the twins, by credentials that name them, and a packet is routed to the
second. -/
def twinRun : List (ServerAct Unit) :=
  let id : SessionId := ⟨⟨#[49]⟩, by decide, by decide⟩
  let byName : Authenticator Unit := fun _ c s => (.ok ⟨c.bytes, c.size_pos, c.size_le⟩, s)
  let secret (a : Address) : Credential := ⟨a.bytes, a.size_pos, a.size_le⟩
  let wiring : ServerWiring Unit := ⟨{}, acceptAny, fixedSessionId id, byName, false⟩
  [.accept wiring 0, .accept wiring 0, .greet ⟨0⟩, .greet ⟨1⟩,
    .receive ⟨0⟩ (.attach smallPacket.sender), .receive ⟨1⟩ (.attach smallPacket.sender),
    .receive ⟨0⟩ (.authenticate (secret twins.1)), .receive ⟨1⟩ (.authenticate (secret twins.2)),
    .route { smallPacket with recipient := twins.2 }]

theorem no_misdelivery_twins : locator twins.1 = locator twins.2 ∧
    ∃ q ∈ (serverRun () twinRun).log, q.channel = ⟨1⟩ ∧
      .send [{ smallPacket with recipient := twins.2 }] ∈ q.item.frames ∧
        ∃ s, q.before = some s ∧ s.phase = .identified ∧ s.identity = some twins.2 ∧
          (serverRun () twinRun).node.identity? q.channel = some twins.2 := by
  have hlogged : ∃ q ∈ (serverRun () twinRun).log, q.channel = ⟨1⟩ ∧
      .send [{ smallPacket with recipient := twins.2 }] ∈ q.item.frames := by
    decide +kernel
  obtain ⟨q, hq, hchannel, hsend⟩ := hlogged
  have hright := no_misdelivery () twinRun q hq _ hsend _ (List.mem_singleton.2 rfl)
  exact ⟨by decide +kernel, q, hq, hchannel, hsend, hright⟩

end Courier
