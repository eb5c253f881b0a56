import Courier.Proofs.Node.WireAccount
import Courier.Proofs.Routing.Views
import Courier.Proofs.Server.Custody

/-! # Fetching

A FETCH makes the ledger send its buffer again, and then hands over the mailbox of the channel's
identity. On the way the ledger may fail, the channel may have no identity, or the mailbox may be
taken out and put back. It is all or nothing: the whole mailbox goes to the queue and to the ledger,
or an error is raised and every mailbox is what it was (`fetch_all_or_nothing`).
-/
set_option autoImplicit false

namespace Courier

open Courier.Wire Courier.Wire.Frame Courier.Routing

variable {σ : Type} {n m : Node σ} {c : ChannelId} {ch ch₁ ch' : Channel σ} {l l' : Ledger}
  {rest : List (Reactor σ)} {w : ServerWiring σ}

/-! ## The ledger -/

/-- The ledger has its buffer sent again, or its channel takes nothing. -/
theorem apply_flush_cases (hch : n.channel? c = some ch) (hw : ch.Wired l rest) :
    (∃ ch₁, ch.Solicited l.unacknowledged ch₁ ∧ ch₁.Wired l.flush.1 rest ∧
      (settleLedger c 2 l.flush.1 l.flush.2).apply n = (.ok (), n.modify c fun _ => ch₁)) ∨
    (¬ ch.Live ∧ ∃ f, (settleLedger c 2 l.flush.1 l.flush.2).apply n =
      (.error f, n.modify c fun _ => ch.setLedger l.flush.1)) := by
  cases hbuffer : l.buffer.isEmpty with
  | true =>
    have hflush : l.flush.1 = l := by rw [Ledger.flush, if_pos hbuffer]
    have hnil : l.unacknowledged = [] := by
      rw [Ledger.isEmpty_buffer] at hbuffer
      exact List.isEmpty_iff.1 hbuffer
    refine .inl ⟨ch, ?_, ?_, ?_⟩
    · rw [hnil]
      exact .nothing ch
    · rw [hflush]
      exact hw
    · rw [Node.modify_const_self n c hch]
      exact apply_flush_of_empty hch hw hbuffer
  | false =>
    by_cases hlive : ch.Live
    · obtain ⟨-, -, hqueue⟩ := ch.solicited_say (Ledger.unacknowledged_ne_nil hbuffer)
      exact .inl ⟨ch.resent l, ⟨rfl, rfl, hqueue⟩, ((hw.setLedger _).say _).say _,
        apply_flush hch hlive hbuffer⟩
    · exact .inr ⟨hlive, apply_flush_of_not_live hch hlive hbuffer⟩

/-! ## The mailbox -/

/-- The mailbox of the channel's identity went to the channel. -/
structure Node.HandsOver (c : ChannelId) (a : Address) (l : Ledger) (rest : List (Reactor σ))
    (ch : Channel σ) (n n' : Node σ) : Prop where
  identity : ch.session.identity = some a
  channel : ∃ ch', n'.channel? c = some ch' ∧ ch.Solicited (n.registry.waiting a) ch' ∧
    ch'.Wired ((n.registry.waiting a).foldl Ledger.recordSent l) rest
  others : ∀ c' ≠ c, n'.channel? c' = n.channel? c'
  waiting : ∀ b, n'.registry.waiting b = if b = a then [] else n.registry.waiting b

/-- Nothing was taken, and the fault is none that refuses the peer. -/
structure Node.KeepsMail (ch : Channel σ) (f : Fault) (n n' : Node σ) : Prop where
  channels : n'.channels = n.channels
  waiting : ∀ b, n'.registry.waiting b = n.registry.waiting b
  fault : ch.Live → refusal? f = none

/-- The mailbox is handed over, or it is kept and the reactor fails. -/
theorem apply_flushMailbox_cases (hch : n.channel? c = some ch) (hw : ch.Wired l rest)
    (hproper : n.registry.Proper) :
    (∃ a n', (flushMailbox .full c).apply n = (.ok (), n') ∧ n.HandsOver c a l rest ch n') ∨
      ∃ f n', (flushMailbox .full c).apply n = (.error f, n') ∧ n.KeepsMail ch f n' := by
  cases ha : ch.session.identity with
  | none =>
    refine .inr ⟨.notIdentified, n, ?_, rfl, fun _ => rfl, fun _ => rfl⟩
    rw [flushMailbox, Action.apply_bind_error (apply_identityOf_of_stranger hch ha)]
  | some a =>
    have htaken : ∀ b, (n.registry.takeAll a).2.waiting b =
        if b = a then [] else n.registry.waiting b := fun b => hproper.waiting_takeAll
    by_cases hnone : n.registry.waiting a = []
    · refine .inl ⟨a, _, apply_flushMailbox_of_empty hch ha hnone, ha, ⟨ch, hch, ?_⟩,
        fun _ _ => rfl, htaken⟩
      rw [hnone]
      exact ⟨.nothing ch, hw⟩
    · by_cases hlive : ch.Live
      · obtain ⟨m, -, hquiet, hflush⟩ := apply_flushMailbox_of_live hch ha hw hlive hnone
        have hm := (hquiet.channel? c).trans (Node.channel?_modify_of_some
          (n := { n with registry := (n.registry.takeAll a).2 }) hch _)
        have hask := apply_writeFrame hm ((hlive.say _).setLedger _) regular_requestAcknowledgment
        obtain ⟨-, -, hqueue⟩ := ch.solicited_say hnone
        refine .inl ⟨a, _, hflush.trans hask, ha, ⟨_, Node.channel?_modify_of_some hm _,
          ⟨rfl, rfl, hqueue⟩, ((hw.say _).setLedger _).say _⟩, fun c' hc => ?_, fun b => ?_⟩
        · rw [Node.channel?_modify_of_ne _ _ hc, hquiet.channel?, Node.channel?_modify_of_ne _ _ hc]
          rfl
        · show m.registry.waiting b = _
          rw [hquiet.registry]
          exact htaken b
      · obtain ⟨f, hflush⟩ := apply_flushMailbox_of_not_live hch ha hlive hnone
        exact .inr ⟨f, _, hflush, rfl, fun b => hproper.waiting_putBack, fun h => absurd h hlive⟩

/-! ## The channel -/

/-- The second channel, which was the first, has queued what the ledger had unacknowledged and then
these packets, and its ledger holds them behind its own. -/
structure Channel.Fetched (l : Ledger) (rest : List (Reactor σ)) (ps : List Packet)
    (ch ch' : Channel σ) : Prop where
  session : ch'.session = ch.session
  fault : ch'.fault = ch.fault
  ledger : ∃ l', ch'.Wired l' rest ∧ l'.unacknowledged = l.unacknowledged ++ ps
  queue : ∃ items fs gs, ch'.queue.toList = ch.queue.toList ++ items ∧
    readItems items = some (fs ++ gs) ∧ Solicits l.unacknowledged fs ∧ Solicits ps gs

/-- The fetch failed on the second channel, which was the first: the fault is remembered, and
nothing is queued but what the ledger sent again, and a goodbye. -/
structure Channel.FetchFailed (l : Ledger) (rest : List (Reactor σ)) (f : Fault)
    (ch ch' : Channel σ) : Prop where
  session : ch'.session = ch.session.close
  fault : ch'.fault = ch.fault.or (some f)
  ledger : ∃ l', ch'.Wired l' rest ∧ l'.unacknowledged = l.unacknowledged
  queue : ∃ items fs last, ch'.queue.toList = ch.queue.toList ++ (items ++ last) ∧
    readItems items = some fs ∧ (fs = [] ∨ Solicits l.unacknowledged fs) ∧
    (last = [] ∨ last = [goodbye, .close])

/-- The ledger cannot send its buffer again on a channel that takes nothing. -/
theorem Channel.fetchFailed_of_not_live (hw : ch.Wired l rest) (hnot : ¬ ch.Live) (f : Fault) :
    ch.FetchFailed l rest f ((ch.setLedger l.flush.1).failed f) := by
  have hover := (ch.setLedger l.flush.1).over_failed f
  obtain ⟨last, hlast, hqueue, -⟩ := (ch.setLedger l.flush.1).queue_failed (f := f) fun hlive =>
    absurd ⟨hlive.isOpen, hlive.writer⟩ hnot
  exact ⟨hover.session, fault_failed _ f,
    ⟨_, (hw.setLedger _).of_reactors_eq hover.reactors, l.unacknowledged_flush⟩,
    [], [], last, hqueue, rfl, .inl rfl, hlast⟩

section resent

variable (hresent : ch.Solicited l.unacknowledged ch₁)

include hresent

/-- The ledger has sent its buffer again before the fetch fails. -/
theorem Channel.Solicited.fetchFailed (hw : ch₁.Wired l.flush.1 rest) {f : Fault}
    (hf : ch₁.Live → refusal? f = none) : ch.FetchFailed l rest f (ch₁.failed f) := by
  have hover := ch₁.over_failed f
  obtain ⟨last, hlast, hqueue, -⟩ := queue_failed hf
  obtain ⟨items, fs, hitems, hread, hsolicits, -⟩ := hresent.queue
  refine ⟨?_, ?_, ⟨_, hw.of_reactors_eq hover.reactors, l.unacknowledged_flush⟩, items, fs, last,
    ?_, hread, .inr hsolicits, hlast⟩
  · rw [hover.session, hresent.session]
  · rw [fault_failed, hresent.fault]
  · rw [hqueue, hitems, List.append_assoc]

/-- Handing over the mailbox follows what the ledger sent again. -/
theorem Channel.Solicited.fetched {ps : List Packet} (hmail : ch₁.Solicited ps ch')
    (hw : ch'.Wired (ps.foldl Ledger.recordSent l.flush.1) rest) : ch.Fetched l rest ps ch' := by
  obtain ⟨items, fs, hitems, hread, hsolicits, -⟩ := hresent.queue
  obtain ⟨items', gs, hitems', hread', hsolicits', -⟩ := hmail.queue
  refine ⟨hmail.session.trans hresent.session, hmail.fault.trans hresent.fault, ⟨_, hw, ?_⟩,
    items ++ items', fs, gs, ?_, readItems_append hread hread', hsolicits, hsolicits'⟩
  · rw [Ledger.unacknowledged_foldl_recordSent, l.unacknowledged_flush]
  · rw [hitems', hitems, List.append_assoc]

end resent

/-! ## The event -/

/-- A fetch has left a node: the mailbox of the channel's identity went to the channel, or an error
is raised and every mailbox is the same. -/
def Node.FetchedOrFailed (c : ChannelId) (l : Ledger) (rest : List (Reactor σ)) (ch : Channel σ)
    (n n' : Node σ) : Prop :=
  ∃ ch', n'.channel? c = some ch' ∧ (∀ c' ≠ c, n'.channel? c' = n.channel? c') ∧
    ((∃ a, ch.session.identity = some a ∧ ch.Fetched l rest (n.registry.waiting a) ch' ∧
        ∀ b, n'.registry.waiting b = if b = a then [] else n.registry.waiting b) ∨
      ∃ f m, n' = raise c f m ∧ ch.FetchFailed l rest f ch' ∧
        ∀ b, n'.registry.waiting b = n.registry.waiting b)

/-- What becomes of the channel by the fault is all that becomes of the node. -/
theorem fetchedOrFailed_raise {m : Node σ} {f : Fault} (hm : m.channel? c = some ch₁)
    (hw : ch₁.Wired l' rest) (hothers : ∀ c' ≠ c, m.channel? c' = n.channel? c')
    (hwaiting : ∀ b, m.registry.waiting b = n.registry.waiting b)
    (hfailed : ch.FetchFailed l rest f (ch₁.failed f)) :
    n.FetchedOrFailed c l rest ch (raise c f m) := by
  have hquiet : Quiet (m.modify c fun _ => ch₁.failed f) (raise c f m) := raiseWith_failed hm hw f
  refine ⟨_, (hquiet.channel? c).trans (Node.channel?_modify_of_some hm _), fun c' hc => ?_,
    .inr ⟨f, m, rfl, hfailed, fun b => ?_⟩⟩
  · rw [hquiet.channel?, Node.channel?_modify_of_ne _ _ hc, hothers c' hc]
  · rw [hquiet.registry]
    exact hwaiting b

theorem fetchedOrFailed_settled (hch : n.channel? c = some ch) (hw : ch.Wired l rest)
    (hproper : n.registry.Proper) : n.FetchedOrFailed c l rest ch (settled .full c (do
      settleLedger c 2 l.flush.1 l.flush.2
      flushMailbox .full c) n) := by
  obtain ⟨ch₁, hresent, hw₁, hflush⟩ | ⟨hnot, f, hflush⟩ := apply_flush_cases hch hw
  · have hm := Node.channel?_modify_of_some hch fun _ => ch₁
    have hothers : ∀ c' ≠ c, (n.modify c fun _ => ch₁).channel? c' = n.channel? c' :=
      fun c' hc => Node.channel?_modify_of_ne n _ hc
    rw [settled_bind_ok hflush]
    obtain ⟨a, n', hmail, hhands⟩ | ⟨f, n', hmail, hkeeps⟩ :=
      apply_flushMailbox_cases hm hw₁ hproper
    · obtain ⟨ch', hch', hmailed, hw'⟩ := hhands.channel
      rw [settled, hmail]
      exact ⟨ch', hch', fun c' hc => (hhands.others c' hc).trans (hothers c' hc),
        .inl ⟨a, hresent.session ▸ hhands.identity, hresent.fetched hmailed hw',
          hhands.waiting⟩⟩
    · have hkept : ∀ c', n'.channel? c' = (n.modify c fun _ => ch₁).channel? c' := fun c' => by
        rw [Node.channel?, hkeeps.channels]
        rfl
      rw [settled, hmail]
      exact fetchedOrFailed_raise ((hkept c).trans hm) hw₁
        (fun c' hc => (hkept c').trans (hothers c' hc)) hkeeps.waiting
        (hresent.fetchFailed hw₁ hkeeps.fault)
  · rw [settled, Action.apply_bind_error hflush]
    exact fetchedOrFailed_raise (Node.channel?_modify_of_some hch _) (hw.setLedger _)
      (fun c' hc => Node.channel?_modify_of_ne n _ hc) (fun _ => rfl)
      (Channel.fetchFailed_of_not_live hw hnot f)

/-- A FETCH is all or nothing. Either the channel queues what its ledger had unacknowledged and then
the whole mailbox of its identity, in order and with a request for an acknowledgment behind each,
the mailbox is empty, and the ledger holds its packets behind its own; or a fault is raised, nothing
of any mailbox is queued, and all of them hold what they held. The registry is kept properly, as it
is in every run (`ServerRun.kept_run`). -/
theorem fetch_all_or_nothing (hch : n.channel? c = some ch) (hw : ch.Wired l (serverRest w))
    (hproper : n.registry.Proper) :
    n.FetchedOrFailed c l (serverRest w) ch (receive c .fetch n).2 := by
  have hnoted := (n.channel?_note c c .eventLog (.event .fetchRequested)).trans hch
  have hsettled : (receive c .fetch n).2 = settled .full c (do
      settleLedger c 2 l.flush.1 l.flush.2
      flushMailbox .full c) (n.note c .eventLog (.event .fetchRequested)) := by
    rw [← reaction_fetchRequested .full c l w, ← dispatchWith_eq later_rule.full ⟨ch, hch, hw⟩,
      receive, hch]
    rfl
  have hfetched := fetchedOrFailed_settled hnoted hw ((n.registry_note c _ _).symm ▸ hproper)
  rw [← hsettled] at hfetched
  simpa only [Node.FetchedOrFailed, Node.registry_note, Node.channel?_note] using hfetched

/-- A packet for the second twin is routed before it is identified, and another one after. -/
def mailRun : List (ServerAct Unit) := twinRun.take 6 ++ .route twinPacket :: twinRun.drop 6

/-- The second twin fetches its mail; when its connection is over, a fetch leaves the mail. -/
theorem fetch_all_or_nothing_mail :
    (∃ ch ch' l rest, (serverRun () mailRun).node.channel? ⟨1⟩ = some ch ∧
      (receive ⟨1⟩ .fetch (serverRun () mailRun).node).2.channel? ⟨1⟩ = some ch' ∧
      ch.Fetched l rest [twinPacket] ch') ∧
    ∃ ch ch' l rest f, (serverRun () (mailRun ++ [.finish ⟨1⟩])).node.channel? ⟨1⟩ = some ch ∧
      (receive ⟨1⟩ .fetch (serverRun () (mailRun ++ [.finish ⟨1⟩])).node).2.channel? ⟨1⟩ =
        some ch' ∧ ch.FetchFailed l rest f ch' := by
  have hfetches : ∀ acts, ((serverRun () acts).node.identity? ⟨1⟩).isSome →
      ∃ ch l rest, (serverRun () acts).node.channel? ⟨1⟩ = some ch ∧
        (serverRun () acts).node.FetchedOrFailed ⟨1⟩ l rest ch
          (receive ⟨1⟩ .fetch (serverRun () acts).node).2 := by
    intro acts hsome
    have hkept := ServerRun.kept_run () acts
    obtain ⟨a, ha⟩ := Option.isSome_iff_exists.1 hsome
    obtain ⟨ch, hch, -⟩ := Option.bind_eq_some_iff.1 ha
    obtain ⟨w, l, hw, -⟩ := (hkept.sound.channel _ ch hch).wired
    exact ⟨ch, l, serverRest w, hch, fetch_all_or_nothing hch hw hkept.proper⟩
  constructor
  · obtain ⟨ch, l, rest, hch, ch', hch', -, ⟨a, ha, hfetched, -⟩ | ⟨f, m, -, -, hkept⟩⟩ :=
      hfetches mailRun (by decide +kernel)
    · have hidentity : (serverRun () mailRun).node.identity? ⟨1⟩ = some twins.2 := by
        decide +kernel
      rw [identity?_eq hch, ha] at hidentity
      have hmail : (serverRun () mailRun).node.registry.waiting twins.2 = [twinPacket] := by
        decide +kernel
      rw [Option.some.inj hidentity, hmail] at hfetched
      exact ⟨ch, ch', l, rest, hch, hch', hfetched⟩
    · exact absurd (hkept twins.2) (by decide +kernel)
  · obtain ⟨ch, l, rest, hch, ch', hch', -, ⟨a, ha, -, hempty⟩ | ⟨f, m, -, hfailed, -⟩⟩ :=
      hfetches (mailRun ++ [.finish ⟨1⟩]) (by decide +kernel)
    · have hleft : (receive ⟨1⟩ .fetch
          (serverRun () (mailRun ++ [.finish ⟨1⟩])).node).2.registry.waiting twins.2 =
            [twinPacket] := by decide +kernel
      have hidentity : (serverRun () (mailRun ++ [.finish ⟨1⟩])).node.identity? ⟨1⟩ =
          some twins.2 := by decide +kernel
      rw [identity?_eq hch, ha] at hidentity
      rw [hempty, if_pos (Option.some.inj hidentity).symm] at hleft
      cases hleft
    · exact ⟨ch, ch', l, rest, f, hch, hch', hfailed⟩

end Courier
