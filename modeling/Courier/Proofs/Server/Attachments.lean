import Courier.Proofs.Routing.Views
import Courier.Proofs.Server.Changes

/-! # Attachments track the sessions

In every state of a server the registry lists a channel exactly while its session is identified and
its connection is not over, up to the routing that finds out about closed ones: whoever is listed is
listed once, under its identity; whoever is identified is listed; whoever is finished is not
(`attachments_track_sessions`). The invariant is `Tracks`; each change of a server keeps it, because
nothing comes between an admission and its attachment, and a channel that routing detaches fails
with it.
-/
set_option autoImplicit false

namespace Courier

open Courier.Wire Courier.Wire.Frame Courier.Routing

variable {σ : Type} {n n' : Node σ} {c : ChannelId} {ch ch' : Channel σ}

/-! ## The invariant -/

/-- A channel is listed under its identity, if its session is identified, and nowhere, if it is
finished. -/
structure Channel.Tracked (r : Registry) (c : ChannelId) (ch : Channel σ) : Prop where
  listed : ch.session.phase = .identified →
    ∃ a, ch.session.identity = some a ∧ c ∈ r.channels a
  gone : ch.finished = true → ch.session.isClosed = true ∧ ∀ a, c ∉ r.channels a

structure Tracks (n : Node σ) : Prop where
  tidy : n.registry.Tidy
  channel : ∀ c ch, n.channel? c = some ch → ch.Tracked n.registry c

namespace Channel.Tracked

variable {r r' : Registry}

theorem of_eq (h : ch.Tracked r c) (hsession : ch'.session = ch.session)
    (hfinished : ch'.finished = ch.finished) : ch'.Tracked r c := by
  refine ⟨?_, ?_⟩
  · rw [hsession]
    exact h.listed
  · rw [hsession, hfinished]
    exact h.gone

/-- The channel is listed at the same addresses. -/
theorem of_channels (h : ch.Tracked r c) (hsame : ∀ a, c ∈ r'.channels a ↔ c ∈ r.channels a) :
    ch.Tracked r' c := by
  refine ⟨fun hp => ?_, fun hf => ?_⟩
  · obtain ⟨a, ha, hc⟩ := h.listed hp
    exact ⟨a, ha, (hsame a).2 hc⟩
  · obtain ⟨hclosed, hnot⟩ := h.gone hf
    exact ⟨hclosed, fun a hc => hnot a ((hsame a).1 hc)⟩

/-- A closed channel need not be listed. -/
theorem of_closed (hclosed : ch.session.isClosed = true)
    (hnot : ch.finished = true → ∀ a, c ∉ r.channels a) : ch.Tracked r c := by
  refine ⟨fun hp => ?_, fun hf => ⟨hclosed, hnot hf⟩⟩
  simp [Session.isClosed, hp] at hclosed

theorem of_over (h : ch.Tracked r c) (hover : ch.Over ch')
    (hless : ∀ a, c ∈ r'.channels a → c ∈ r.channels a) : ch'.Tracked r' c := by
  refine of_closed ?_ fun hf a hc => ?_
  · rw [hover.session]
    rfl
  · rw [hover.finished] at hf
    exact (h.gone hf).2 a (hless a hc)

theorem of_act {may : Packet → Prop} {clears : Prop} (h : ch.Tracked r c)
    (hact : ch.Act may clears ch') : ch'.Tracked r c := by
  cases hact with
  | @fail _ l l' rest hw hbuffer hover =>
    have hset : (ch.setLedger l').Tracked r c := h.of_eq rfl rfl
    exact of_over hset hover fun _ hc => hc
  | _ => exact h.of_eq rfl rfl

end Channel.Tracked

namespace Tracks

theorem of_channels (h : Tracks n) (hchannels : n'.channels = n.channels)
    (htidy : n'.registry.Tidy) (hsame : ∀ a, n'.registry.channels a = n.registry.channels a) :
    Tracks n' := by
  refine ⟨htidy, ?_⟩
  intro c ch hch
  rw [Node.channel?, hchannels] at hch
  exact (h.channel c ch hch).of_channels fun a => by rw [hsame]

/-- One channel has become another, and the other channels are listed as before. -/
theorem replace (h : Tracks n) (hself : n'.channel? c = some ch')
    (hothers : ∀ c', c' ≠ c → n'.channel? c' = n.channel? c') (htidy : n'.registry.Tidy)
    (hsame : ∀ c', c' ≠ c → ∀ a, c' ∈ n'.registry.channels a ↔ c' ∈ n.registry.channels a)
    (htracked : ch'.Tracked n'.registry c) : Tracks n' := by
  refine ⟨htidy, ?_⟩
  intro c' ch₀ hch₀
  by_cases hc : c' = c
  · subst hc
    rw [hself] at hch₀
    cases hch₀
    exact htracked
  · rw [hothers c' hc] at hch₀
    exact (h.channel c' ch₀ hch₀).of_channels (hsame c' hc)

theorem modify (h : Tracks n) (hch : n.channel? c = some ch) (htracked : ch'.Tracked n.registry c) :
    Tracks (n.modify c fun _ => ch') :=
  h.replace (Node.channel?_modify_of_some hch _) (fun _ hc => n.channel?_modify_of_ne _ hc) h.tidy
    (fun _ _ _ => Iff.rfl) htracked

/-- A mailbox changes. -/
theorem setWaiting (h : Tracks n) (a : Address) (ps : List Packet) :
    Tracks { n with registry := n.registry.setWaiting a ps } :=
  h.of_channels rfl (h.tidy.of_attachments (Registry.attachments_setWaiting _ a ps)
    (h.tidy.setWaiting a ps).mailboxes) fun _ => Registry.channels_setWaiting ps

end Tracks

/-! ## Every change -/

theorem mem_channels_detach {r : Registry} (h : r.Proper) {a a' : Address} {c c' : ChannelId} :
    c' ∈ (r.detach a c).channels a' ↔ c' ∈ r.channels a' ∧ ¬ (a' = a ∧ c' = c) := by
  rw [h.channels_detach]
  by_cases ha : a' = a
  · simp [ha, List.mem_filter]
  · simp [ha]

theorem mem_channels_attach {r : Registry} (h : r.Proper) {a a' : Address} {c c' : ChannelId} :
    c' ∈ (r.attach a c).channels a' ↔ c' ∈ r.channels a' ∨ (a' = a ∧ c' = c) := by
  rw [h.channels_attach]
  by_cases ha : a' = a
  · by_cases hc : c ∈ r.channels a
    · simp only [ha, if_true, if_pos hc, true_and]
      exact ⟨.inl, fun h => h.elim id fun heq => heq ▸ hc⟩
    · simp [ha, hc]
  · simp [ha]

theorem tracks_law : ServerLaw True True fun n n' : Node σ => Tracks n → Tracks n' where
  trans := fun h h' hn => h' (h hn)
  quiet := fun hquiet h => h.of_channels hquiet.channels (hquiet.registry ▸ h.tidy)
    fun a => by rw [hquiet.registry]
  act := fun hch hact h => h.modify hch ((h.channel _ _ hch).of_act hact)
  drop := by
    intro n c ch ch' l rest a hch hw hover h
    refine h.replace (Node.channel?_modify_of_some hch _) (fun _ hc => n.channel?_modify_of_ne _ hc)
      (h.tidy.detach a c) ?_ ?_
    · intro c' hc a'
      refine (mem_channels_detach h.tidy.toProper).trans ?_
      exact ⟨fun hm => hm.1, fun hm => ⟨hm, fun heq => hc heq.2⟩⟩
    · exact (h.channel c ch hch).of_over hover fun a' hm =>
        ((mem_channels_detach h.tidy.toProper).1 hm).1
  lose := by
    intro n c a hch h
    refine ⟨h.tidy.detach a c, ?_⟩
    intro c' ch' hch'
    have hc : c' ≠ c := by
      intro heq
      rw [heq] at hch'
      cases hch.symm.trans hch'
    refine (h.channel c' ch' hch').of_channels fun a' => ?_
    refine (mem_channels_detach h.tidy.toProper).trans ?_
    exact ⟨fun hm => hm.1, fun hm => ⟨hm, fun heq => hc heq.2⟩⟩
  enqueue := fun n p h => h.of_channels rfl
    (h.tidy.of_attachments rfl (h.tidy.enqueue p).mailboxes) fun _ => rfl
  handOver := fun hch _ _ _ _ h =>
    (h.setWaiting _ []).modify hch (((h.setWaiting _ []).channel _ _ hch).of_eq rfl rfl)
  takeNone := fun _ h => h.setWaiting _ []
  putBack := fun n a h => (h.setWaiting a []).setWaiting a _
  policy := fun n s h => h.of_channels rfl h.tidy fun _ => rfl
  heard := by
    intro _ n c ch l rest p hch hw h
    rw [heard_eq hch hw]
    have hnoted : Tracks (n.note c .eventLog (.event (.packetReceived p))) := by
      refine h.of_channels (n.channels_note c _ _) ?_ fun a => ?_
      · rw [Node.registry_note]
        exact h.tidy
      · rw [Node.registry_note]
    have hch' := (n.channel?_note c c .eventLog (.event (.packetReceived p))).trans hch
    exact hnoted.modify hch' ((hnoted.channel c ch hch').of_eq rfl rfl)
  prepare := by
    intro n n' c ch ch' hch hnone hprepares hbecomes h
    have hsame : ∀ c' a, c' ∈ n'.registry.channels a ↔ c' ∈ n.registry.channels a := by
      intro c' a
      rw [hbecomes.registry]
    refine h.replace hbecomes.self hbecomes.others (hbecomes.registry ▸ h.tidy)
      (fun c' _ => hsame c') ⟨fun hp => ?_, fun hf => ?_⟩
    · obtain ⟨a, ha, -⟩ := (h.channel c ch hch).listed (hprepares.identified hp)
      rw [hnone] at ha
      cases ha
    · rw [hprepares.finished] at hf
      obtain ⟨hclosed, hnot⟩ := (h.channel c ch hch).gone hf
      exact ⟨hprepares.closed hclosed, fun a hc => hnot a ((hsame c a).1 hc)⟩
  admits := by
    intro n n' c ch ch' a hch hnone hprepares hphase hbecomes h
    have hregistry : n'.registry.attach a c = n.registry.attach a c := by rw [hbecomes.registry]
    have htidy : (n'.registry.attach a c).Tidy := by
      rw [hregistry]
      exact h.tidy.attach a c
    refine h.replace hbecomes.self hbecomes.others htidy ?_
      ⟨fun _ => ⟨a, rfl, ?_⟩, fun hf => ?_⟩
    · intro c' hc a'
      show c' ∈ (n'.registry.attach a c).channels a' ↔ _
      rw [hregistry, mem_channels_attach h.tidy.toProper]
      exact ⟨fun hm => hm.elim id fun heq => absurd heq.2 hc, .inl⟩
    · show c ∈ (n'.registry.attach a c).channels a
      rw [hregistry, mem_channels_attach h.tidy.toProper]
      exact .inr ⟨rfl, rfl⟩
    · -- A finished channel is closed, and a closed one is not admitted.
      have hfinished : ch.finished = true := hprepares.finished.symm.trans hf
      have hclosed := hprepares.closed ((h.channel c ch hch).gone hfinished).1
      simp [Session.isClosed, hphase] at hclosed
  accept := by
    intro n w now h
    refine ⟨h.tidy, ?_⟩
    intro c ch hch
    obtain hch | rfl := channel?_accept_cases hch
    · exact h.channel c ch hch
    · exact ⟨(fun hp => by cases hp), fun hf => by cases hf⟩
  finish := by
    intro n c ch ch' hch hover h
    have hmem : ∀ c' a, c' ∈ (n.registry.release c).channels a ↔
        c' ∈ n.registry.channels a ∧ c' ≠ c := by
      intro c' a
      rw [h.tidy.channels_release, List.mem_filter, decide_eq_true_eq]
    refine h.replace (Node.channel?_modify_of_some hch _) (fun _ hc => n.channel?_modify_of_ne _ hc)
      (h.tidy.release c) ?_ (.of_closed ?_ ?_)
    · intro c' hc a
      exact (hmem c' a).trans ⟨fun hm => hm.1, fun hm => ⟨hm, hc⟩⟩
    · rw [hover.session]
      rfl
    · exact fun _ a hm => ((hmem c a).1 hm).2 rfl
  empty := fun hch hsession _ hfinished h =>
    h.modify hch ((h.channel _ _ hch).of_eq hsession hfinished)

/-! ## Finished channels -/

/-- What is finished stays finished. -/
def Node.StaysFinished (n n' : Node σ) : Prop := ∀ c ch, n.channel? c = some ch →
  ∃ ch', n'.channel? c = some ch' ∧ (ch.finished = true → ch'.finished = true)

namespace Node.StaysFinished

theorem of_channels (h : n'.channels = n.channels) : n.StaysFinished n' := by
  intro c ch hch
  refine ⟨ch, ?_, fun hf => hf⟩
  rw [Node.channel?, h]
  exact hch

theorem modify (hch : n.channel? c = some ch) (hself : ch.finished = true → ch'.finished = true) :
    n.StaysFinished (n.modify c fun _ => ch') :=
  exists_modify (Q := fun _ ch ch' => ch.finished = true → ch'.finished = true) hch hself
    fun _ _ _ hf => hf

theorem trans {n'' : Node σ} (h : n.StaysFinished n') (h' : n'.StaysFinished n'') :
    n.StaysFinished n'' := by
  intro c ch hch
  obtain ⟨ch', hch', hf⟩ := h c ch hch
  obtain ⟨ch'', hch'', hf'⟩ := h' c ch' hch'
  exact ⟨ch'', hch'', fun hdone => hf' (hf hdone)⟩

theorem becomes (hch : n.channel? c = some ch) (h : n.Becomes c ch' n')
    (hself : ch.finished = true → ch'.finished = true) : n.StaysFinished n' := by
  intro c' ch₀ hch₀
  by_cases hc : c' = c
  · subst hc
    rw [hch] at hch₀
    cases hch₀
    exact ⟨ch', h.self, hself⟩
  · exact ⟨ch₀, (h.others c' hc).trans hch₀, fun hf => hf⟩

end Node.StaysFinished

theorem staysFinished_law : ServerLaw True True (Node.StaysFinished (σ := σ)) where
  trans := .trans
  quiet := fun hquiet => .of_channels hquiet.channels
  act := fun hch hact => .modify hch fun hf => hact.finished.trans hf
  drop := fun _ hch _ hover => .modify hch fun hf => hover.finished.trans hf
  lose := fun _ _ => .of_channels rfl
  enqueue := fun _ _ => .of_channels rfl
  handOver := fun hch _ _ _ _ => .modify hch fun hf => hf
  takeNone := fun _ => .of_channels rfl
  putBack := fun _ _ => .of_channels rfl
  policy := fun _ _ => .of_channels rfl
  heard := by
    intro _ n c ch l rest p hch hw
    rw [heard_eq hch hw]
    have hch' := (n.channel?_note c c .eventLog (.event (.packetReceived p))).trans hch
    exact .trans (.of_channels (n.channels_note c _ _)) (.modify hch' fun hf => hf)
  prepare := fun hch _ hprepares hbecomes =>
    .becomes hch hbecomes fun hf => hprepares.finished.trans hf
  admits := fun hch _ hprepares _ hbecomes =>
    .trans (.becomes hch hbecomes fun hf => hprepares.finished.trans hf) (.of_channels rfl)
  accept := fun n w now c ch hch => ⟨ch, channel?_accept w now hch, fun hf => hf⟩
  finish := fun hch hover => .modify hch fun _ => hover.finished
  empty := fun hch _ _ hfinished => .modify hch fun hf => hfinished.trans hf

/-- A channel is finished once `finish` has run. -/
theorem Sound.finished_finish (h : Sound n) (hch : n.channel? c = some ch) :
    ∃ ch', (Courier.finish c n).channel? c = some ch' ∧ ch'.finished = true := by
  obtain ⟨hfinished, hsame⟩ | ⟨ch', hover, hquiet⟩ := h.finish_cases hch
  · rw [hsame]
    exact ⟨ch, hch, hfinished⟩
  · refine ⟨ch', ?_, hover.finished⟩
    rw [hquiet.channel?]
    exact Node.channel?_modify_of_some hch _

/-! ## Every run -/

theorem tracks_run (policy : σ) (acts : List (ServerAct σ)) :
    Tracks (serverRun policy acts).node := by
  have hstart : Tracks (Node.start policy) :=
    ⟨Registry.tidy_empty, fun c ch hch => nomatch hch⟩
  exact tracks_law.run (ServerRun.right_run policy []) acts hstart

/-- A channel for which `finish` has run is finished in every later state. -/
theorem finished_run (policy : σ) (before after : List (ServerAct σ)) (c : ChannelId)
    (hc : (serverRun policy before).node.channel? c ≠ none) :
    ∃ ch, (serverRun policy (before ++ .finish c :: after)).node.channel? c = some ch ∧
      ch.finished = true := by
  obtain ⟨ch, hch⟩ := Option.ne_none_iff_exists'.1 hc
  have hright := ServerRun.right_run policy before
  obtain ⟨ch₁, hch₁, hfinished⟩ := hright.sound.finished_finish hch
  obtain ⟨ch', hch', hstays⟩ := staysFinished_law.run (hright.step (.finish c)) after c ch₁ hch₁
  refine ⟨ch', ?_, hstays hfinished⟩
  rw [serverRun, List.foldl_append]
  exact hch'

/-- In every state of a server: every address that is stored has a channel, and each of its channels
has this identity and is listed only there, once; every channel that is identified is listed under
its identity; and a channel for which `finish` has run is listed nowhere. -/
theorem attachments_track_sessions (policy : σ) (acts : List (ServerAct σ)) :
    let n := (serverRun policy acts).node
    (∀ a cs, (a, cs) ∈ n.registry.attachments.entries → cs ≠ [] ∧
      ∀ c ∈ cs, n.identity? c = some a ∧ n.registry.attachedCount c = 1) ∧
    (∀ c ch, n.channel? c = some ch → ch.session.phase = .identified →
      ∃ a, ch.session.identity = some a ∧ c ∈ n.registry.channels a) ∧
    ∀ before c after, acts = before ++ .finish c :: after →
      (serverRun policy before).node.channel? c ≠ none → n.registry.attachedCount c = 0 := by
  have htracks := tracks_run policy acts
  have hsound := (ServerRun.right_run policy acts).sound
  refine ⟨?_, fun c ch hch => (htracks.channel c ch hch).listed, ?_⟩
  · intro a cs he
    have hget := htracks.tidy.attachments.mem_entries_iff.1 he
    have hchannels : (serverRun policy acts).node.registry.channels a = cs := by
      rw [Registry.channels, hget]
      rfl
    refine ⟨htracks.tidy.full a cs hget, ?_⟩
    intro c hc
    rw [← hchannels] at hc
    refine ⟨hsound.attached.channels hc, htracks.tidy.attachedCount_eq_one hc ?_⟩
    -- Wherever it is listed, it is listed under its identity.
    intro a' hc'
    have heq := (hsound.attached.channels hc').symm.trans (hsound.attached.channels hc)
    exact Option.some.inj heq
  · intro before c after hacts hc
    obtain ⟨ch, hch, hfinished⟩ := finished_run policy before after c hc
    rw [← hacts] at hch
    exact htracks.tidy.attachedCount_eq_zero ((htracks.channel c ch hch).gone hfinished).2

/-- The twins are identified; then the connection of the first is over, and a frame still comes. -/
def partedRun : List (ServerAct Unit) :=
  twinRun ++ [.finish ⟨0⟩, .receive ⟨0⟩ (.attach smallPacket.sender)]

theorem attachments_track_sessions_parted :
    (twins.2, [⟨1⟩]) ∈ (serverRun () partedRun).node.registry.attachments.entries ∧
      (serverRun () partedRun).node.identity? ⟨1⟩ = some twins.2 ∧
      (serverRun () partedRun).node.registry.attachedCount ⟨1⟩ = 1 ∧
      (serverRun () partedRun).node.registry.attachedCount ⟨0⟩ = 0 := by
  obtain ⟨hlisted, -, hfinished⟩ := attachments_track_sessions () partedRun
  have hentry : (twins.2, [⟨1⟩]) ∈ (serverRun () partedRun).node.registry.attachments.entries := by
    decide +kernel
  have hthere : ((serverRun () twinRun).node.channel? ⟨0⟩).isSome = true := by
    decide +kernel
  obtain ⟨-, hchannels⟩ := hlisted twins.2 [⟨1⟩] hentry
  obtain ⟨hidentity, hcount⟩ := hchannels ⟨1⟩ (List.mem_singleton.2 rfl)
  exact ⟨hentry, hidentity, hcount,
    hfinished twinRun ⟨0⟩ _ rfl (Option.isSome_iff_ne_none.1 hthere)⟩

end Courier
