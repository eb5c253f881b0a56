import Courier.Proofs.Node.Answers

/-! # Traffic

What an exchange of packets does to a channel is one of six acts (`Channel.Act`): packets are sent,
the unacknowledged ones are sent again, an acknowledgment is asked for, given or taken, or the
channel fails. A relation that holds of these acts and of what happens to the registry (`Law`) holds
of every event that carries traffic and of every packet that is routed (`Law.dispatch`,
`Law.routePacket`).
-/
set_option autoImplicit false

namespace Courier

open Courier.Wire Courier.Wire.Frame Courier.Routing

variable {σ : Type}

/-! ## Acts -/

/-- An act of a wired channel; `may` says which packets it may send, and `clears` whether it may
take an acknowledgment that clears its buffer. -/
inductive Channel.Act (may : Packet → Prop) (clears : Prop) : Channel σ → Channel σ → Prop where
  | send {ch : Channel σ} {l : Ledger} {rest : List (Reactor σ)} (hw : ch.Wired l rest)
      (hlive : ch.Live) (ps : List Packet) (hmay : ∀ p ∈ ps, may p) :
      Act may clears ch ((ch.say (sends ps)).setLedger (ps.foldl Ledger.recordSent l))
  | resend {ch : Channel σ} {l : Ledger} {rest : List (Reactor σ)} (hw : ch.Wired l rest)
      (hlive : ch.Live) (hbuffer : l.buffer.isEmpty = false) :
      Act may clears ch (((ch.setLedger l.flush.1).say (sends l.unacknowledged)).say
        [.requestAcknowledgment])
  | ask {ch : Channel σ} {l : Ledger} {rest : List (Reactor σ)} (hw : ch.Wired l rest)
      (hlive : ch.Live) (hnamed : ch.session.identity ≠ none) :
      Act may clears ch (ch.say [.requestAcknowledgment])
  | answer {ch : Channel σ} {l : Ledger} {rest : List (Reactor σ)} (hw : ch.Wired l rest)
      (hlive : ch.Live) : Act may clears ch (ch.say [.acknowledge l.received])
  | clear {ch : Channel σ} {l : Ledger} {rest : List (Reactor σ)} (hw : ch.Wired l rest)
      (hclears : clears) :
      Act may clears ch (ch.setLedger { l with buffer := .empty })
  | fail {ch ch' : Channel σ} {l l' : Ledger} {rest : List (Reactor σ)} (hw : ch.Wired l rest)
      (hbuffer : l'.unacknowledged = l.unacknowledged) (hover : (ch.setLedger l').Over ch') :
      Act may clears ch ch'

namespace Channel.Act

variable {may : Packet → Prop} {clears : Prop} {ch ch' : Channel σ}

theorem identity (h : ch.Act may clears ch') : ch'.session.identity = ch.session.identity := by
  cases h with
  | fail hw hbuffer hover =>
    rw [hover.session]
    rfl
  | _ => rfl

theorem finished (h : ch.Act may clears ch') : ch'.finished = ch.finished := by
  cases h with
  | fail hw hbuffer hover => exact hover.finished
  | _ => rfl

end Channel.Act

def Node.AllWired (n : Node σ) : Prop :=
  ∀ c ch, n.channel? c = some ch → ∃ l rest, ch.Wired l rest

theorem Node.AllWired.later {n n' : Node σ} (h : n.AllWired) (hlater : n.Later n') :
    n'.AllWired := by
  intro c ch' hch'
  obtain ⟨ch, hch, hlater'⟩ := hlater.before hch'
  obtain ⟨l, rest, hw⟩ := h c ch hch
  obtain ⟨l', hw'⟩ := hw.later hlater'
  exact ⟨l', rest, hw'⟩

/-- A relation that holds of acts, of what comes with them in the registry, and of chains of both.
A channel that does not take a packet is detached and fails; a mailbox is handed over to a channel
with its identity, or stays as it is. -/
structure Law (may : ChannelId → Packet → Prop) (clears : ChannelId → Prop)
    (R : Node σ → Node σ → Prop) : Prop where
  trans : ∀ {a b c}, R a b → R b c → R a c
  quiet : ∀ {n n'}, Quiet n n' → R n n'
  act : ∀ {n c ch ch'}, n.channel? c = some ch → ch.Act (may c) (clears c) ch' →
    R n (n.modify c fun _ => ch')
  drop : ∀ {n c ch ch' l rest} (a : Address), n.channel? c = some ch → ch.Wired l rest →
    ch.Over ch' → R n ({ n with registry := n.registry.detach a c }.modify c fun _ => ch')
  lose : ∀ {n c} (a : Address), n.channel? c = none →
    R n { n with registry := n.registry.detach a c }
  enqueue : ∀ n p, R n { n with registry := n.registry.enqueue p }
  handOver : ∀ {n c ch l rest a}, n.channel? c = some ch → ch.Wired l rest → ch.Live →
    ch.session.identity = some a → (∀ p ∈ n.registry.waiting a, may c p) →
    R n ({ n with registry := (n.registry.takeAll a).2 }.modify c fun _ =>
      (ch.say (sends (n.registry.waiting a))).setLedger
        ((n.registry.waiting a).foldl Ledger.recordSent l))
  takeNone : ∀ {n a}, n.registry.waiting a = [] →
    R n { n with registry := (n.registry.takeAll a).2 }
  putBack : ∀ n a, R n
    { n with registry := (n.registry.takeAll a).2.requeue a (n.registry.takeAll a).1 }

/-- A relation that holds of acts and of every change of the registry by itself. -/
structure Law.Loose (may : ChannelId → Packet → Prop) (clears : ChannelId → Prop)
    (R : Node σ → Node σ → Prop) : Prop where
  trans : ∀ {a b c}, R a b → R b c → R a c
  quiet : ∀ {n n'}, Quiet n n' → R n n'
  act : ∀ {n c ch ch'}, n.channel? c = some ch → ch.Act (may c) (clears c) ch' →
    R n (n.modify c fun _ => ch')
  detach : ∀ n a c, R n { n with registry := n.registry.detach a c }
  enqueue : ∀ n p, R n { n with registry := n.registry.enqueue p }
  takeAll : ∀ n a, R n { n with registry := (n.registry.takeAll a).2 }
  putBack : ∀ n a, R n
    { n with registry := (n.registry.takeAll a).2.requeue a (n.registry.takeAll a).1 }

theorem Law.Loose.law {may : ChannelId → Packet → Prop} {clears : ChannelId → Prop}
    {R : Node σ → Node σ → Prop} (h : Law.Loose may clears R) : Law may clears R where
  trans := h.trans
  quiet := h.quiet
  act := h.act
  drop := by
    intro n c ch ch' l rest a hch hw hover
    refine h.trans (h.detach n a c) (h.act hch (.fail hw rfl ?_))
    rw [hw.setLedger_self]
    exact hover
  lose := fun a _ => h.detach _ a _
  enqueue := h.enqueue
  handOver := fun hch hw hlive _ hmay =>
    h.trans (h.takeAll _ _) (h.act hch (.send hw hlive _ hmay))
  takeNone := fun _ => h.takeAll _ _
  putBack := h.putBack

/-- What may be sent from a node on: packets to the channels attached to their recipients, and
mailboxes to the channels with their identities. -/
structure Permits (may : ChannelId → Packet → Prop) (n : Node σ) : Prop where
  route : ∀ p, ∀ c ∈ n.registry.channels p.recipient, may c p
  fetch : ∀ {c ch a}, n.channel? c = some ch → ch.session.identity = some a →
    ∀ p ∈ n.registry.waiting a, may c p

def Wire.Frame.IsTraffic : Frame → Prop
  | .fetch | .send _ | .requestAcknowledgment | .acknowledge _ => True
  | _ => False

/-- An event of the exchange of packets, other than that one was sent. -/
def Event.IsTraffic : Event → Prop
  | .fetchRequested | .packetReceived _ | .acknowledgmentRequested
  | .acknowledgmentReceived _ => True
  | _ => False

theorem live_or_not (n : Node σ) (c : ChannelId) :
    (∃ ch, n.channel? c = some ch ∧ ch.Live) ∨ ∀ ch, n.channel? c = some ch → ¬ ch.Live := by
  cases hch : n.channel? c with
  | none => exact .inr fun ch h => nomatch h
  | some ch =>
    by_cases hlive : ch.Live
    · exact .inl ⟨ch, rfl, hlive⟩
    · rw [← hch]
      exact .inr (not_live_of_channel? hch hlive)

namespace Law

variable {may : ChannelId → Packet → Prop} {clears : ChannelId → Prop}
  {R : Node σ → Node σ → Prop} (hL : Law may clears R) {n : Node σ} {c : ChannelId}

include hL

theorem refl (n : Node σ) : R n n := hL.quiet (.refl n)

theorem act_quiet {n' : Node σ} {ch ch' : Channel σ} (hch : n.channel? c = some ch)
    (hact : ch.Act (may c) (clears c) ch') (hquiet : Quiet (n.modify c fun _ => ch') n') : R n n' :=
  hL.trans (hL.act hch hact) (hL.quiet hquiet)

/-! ## Failing -/

/-- A fault that is raised after the ledger was put in place, its buffer unchanged. -/
theorem raise_of_setLedger {k : Reentry σ} {ch : Channel σ} {l : Ledger} {rest : List (Reactor σ)}
    (hch : n.channel? c = some ch) (hw : ch.Wired l rest) (l' : Ledger)
    (hbuffer : l'.unacknowledged = l.unacknowledged) (f : Fault) :
    R n (raiseWith k c f (n.modify c fun _ => ch.setLedger l')) := by
  have hset := Node.channel?_modify_of_some hch fun _ => ch.setLedger l'
  obtain ⟨ch', hquiet, hover⟩ := raiseWith_spec (k := k) hset (hw.setLedger l') f
  rw [Node.modify_modify] at hquiet
  exact hL.act_quiet hch (.fail hw hbuffer hover) hquiet

theorem raiseWith (h : n.AllWired) (k : Reentry σ) (c : ChannelId) (f : Fault) :
    R n (raiseWith k c f n) := by
  cases hch : n.channel? c with
  | none =>
    rw [raiseWith_of_none hch]
    exact hL.refl n
  | some ch =>
    obtain ⟨l, rest, hw⟩ := h c ch hch
    have hraise := hL.raise_of_setLedger (k := k) hch hw l rfl f
    rw [hw.setLedger_self, Node.modify_const_self n c hch] at hraise
    exact hraise

/-! ## Sending and routing -/

theorem sendPackets (h : n.AllWired) (c : ChannelId) (ps : List Packet)
    (hmay : ∀ p ∈ ps, may c p) : R n ((Courier.sendPackets c ps).apply n).2 := by
  by_cases hps : ps = []
  · subst hps
    rw [sendPackets_nil]
    exact hL.refl n
  · obtain ⟨ch, hch, hlive⟩ | hnot := live_or_not n c
    · obtain ⟨l, rest, hw⟩ := h c ch hch
      obtain ⟨n', happly, hquiet⟩ := apply_sendPackets hch hw hlive hps
      rw [happly]
      exact hL.act_quiet hch (.send hw hlive ps hmay) hquiet
    · obtain ⟨f, happly⟩ := apply_sendPackets_of_not_live hnot hps
      rw [happly]
      exact hL.refl n

theorem offerPacket (h : n.AllWired) (p : Packet) (c : ChannelId) (hmay : may c p) :
    R n (offerPacket .full p n c).2 := by
  obtain ⟨ch, hch, hlive⟩ | hnot := live_or_not n c
  · obtain ⟨l, rest, hw⟩ := h c ch hch
    obtain ⟨n', hoffer, hquiet⟩ := offerPacket_of_wired hch hw hlive p
    rw [hoffer]
    exact hL.act_quiet hch (.send hw hlive [p] fun q hq => List.mem_singleton.1 hq ▸ hmay) hquiet
  · obtain ⟨f, -, hoffer⟩ := offerPacket_of_not_live hnot p
    rw [hoffer]
    cases hch : n.channel? c with
    | none =>
      rw [raise, raiseWith_of_none (n := { n with registry := n.registry.detach p.recipient c }) hch]
      exact hL.lose p.recipient hch
    | some ch =>
      obtain ⟨l, rest, hw⟩ := h c ch hch
      obtain ⟨ch', hquiet, hover⟩ := raiseWith_spec (k := .full)
        (n := { n with registry := n.registry.detach p.recipient c }) hch hw f
      exact hL.trans (hL.drop p.recipient hch hw hover) (hL.quiet hquiet)

theorem offerAll (h : n.AllWired) (p : Packet) (cs : List ChannelId) (hmay : ∀ c ∈ cs, may c p) :
    R n (offerAll .full p cs n).2 := by
  induction cs generalizing n with
  | nil => exact hL.refl n
  | cons c rest ih =>
    have hfirst := hL.offerPacket h p c (hmay c (List.mem_cons_self ..))
    have hlater := later_rule.offerPacket later_rule.full p n c
    have hrest := ih (h.later hlater) fun c' hc' => hmay c' (List.mem_cons_of_mem _ hc')
    exact hL.trans hfirst hrest

theorem routePacket (h : n.AllWired) (p : Packet)
    (hmay : ∀ c ∈ n.registry.channels p.recipient, may c p) : R n (routePacket p n).2 := by
  have hoffer := hL.offerAll h p _ hmay
  unfold Courier.routePacket Courier.routeWith
  split
  · exact hL.refl n
  · simp only []
    split
    · exact hL.trans hoffer (hL.enqueue _ p)
    · exact hoffer

/-! ## The mailbox -/

theorem writeRequest (h : n.AllWired) {c : ChannelId} (hnamed : n.identity? c ≠ none) :
    R n ((writeFrame c .requestAcknowledgment).apply n).2 := by
  obtain ⟨ch, hch, hlive⟩ | hnot := live_or_not n c
  · obtain ⟨l, rest, hw⟩ := h c ch hch
    rw [identity?_eq hch] at hnamed
    rw [apply_writeFrame hch hlive regular_requestAcknowledgment]
    exact hL.act hch (.ask hw hlive hnamed)
  · obtain ⟨f, happly⟩ := apply_writeFrame_of_not_live hnot regular_requestAcknowledgment
    rw [happly]
    exact hL.refl n

theorem flushMailbox (h : n.AllWired) (c : ChannelId)
    (hmay : ∀ {ch a}, n.channel? c = some ch → ch.session.identity = some a →
      ∀ p ∈ n.registry.waiting a, may c p) : R n ((flushMailbox .full c).apply n).2 := by
  cases hidentity : n.identity? c with
  | none =>
    obtain ⟨f, happly⟩ := apply_flushMailbox_of_stranger hidentity .full
    rw [happly]
    exact hL.refl n
  | some a =>
    obtain ⟨ch, hch, ha⟩ := Option.bind_eq_some_iff.1 hidentity
    by_cases hnone : n.registry.waiting a = []
    · rw [apply_flushMailbox_of_empty hch ha hnone]
      exact hL.takeNone hnone
    · by_cases hlive : ch.Live
      · obtain ⟨l, rest, hw⟩ := h c ch hch
        obtain ⟨m, hsend, hquiet, happly⟩ := apply_flushMailbox_of_live hch ha hw hlive hnone
        have htaken : ({ n with registry := (n.registry.takeAll a).2 } : Node σ).AllWired := h
        have hsent := htaken.later (later_rule.telling.sendPackets c (n.registry.waiting a) _)
        rw [hsend] at hsent
        have htook : ({ n with registry := (n.registry.takeAll a).2 } : Node σ).channel? c =
            some ch := hch
        have hm := (hquiet.channel? c).trans (Node.channel?_modify_of_some htook _)
        have hnamed : m.identity? c ≠ none := by
          rw [identity?_eq hm]
          show ch.session.identity ≠ none
          rw [ha]
          exact fun hnone => nomatch hnone
        rw [happly]
        exact hL.trans (hL.handOver hch hw hlive ha (hmay hch ha))
          (hL.trans (hL.quiet hquiet) (hL.writeRequest hsent hnamed))
      · obtain ⟨f, happly⟩ := apply_flushMailbox_of_not_live hch ha hlive hnone
        rw [happly]
        exact hL.putBack n a

/-! ## The reactors behind the front -/

theorem react (h : n.AllWired) (hpermits : Permits may n) (c : ChannelId) (i : Nat)
    {r : Reactor σ} (hr : r.Plain) {e : Event} (he : e.IsTraffic) :
    R n ((r.react .full c i e).apply n).2 := by
  cases r with
  | eventLog | detachOnException | reliableDelivery | probe => exact hr.elim
  | packetObserver =>
    cases e with
    | packetReceived p =>
      apply hL.quiet
      apply quiet_note
      exact fun q hq => nomatch hq
    | fetchRequested | acknowledgmentRequested | acknowledgmentReceived => exact hL.refl n
    | _ => exact he.elim
  | packetDelivery =>
    cases e with
    | packetReceived p => exact hL.routePacket h p (hpermits.route p)
    | fetchRequested | acknowledgmentRequested | acknowledgmentReceived => exact hL.refl n
    | _ => exact he.elim
  | flushOnFetch =>
    cases e with
    | fetchRequested => exact hL.flushMailbox h c hpermits.fetch
    | packetReceived | acknowledgmentRequested | acknowledgmentReceived => exact hL.refl n
    | _ => exact he.elim
  | connectionObserver | addressFilter | sessionCreator | credentialAuthenticator
  | routeAttachment | clientHandshake | silent =>
    cases e with
    | fetchRequested | packetReceived | acknowledgmentRequested
    | acknowledgmentReceived => exact hL.refl n
    | _ => exact he.elim

theorem reactAll {l : Ledger} (before behind : List (Reactor σ)) (h : n.AllWired)
    (hwired : n.WiredAt c l (before ++ behind)) (hpermits : ∀ n', R n n' → Permits may n')
    {e : Event} (he : e.IsTraffic) :
    R n ((reactAll .full c e (3 + before.length) behind).apply n).2 := by
  induction behind generalizing n l before with
  | nil => exact hL.refl n
  | cons r behind ih =>
    have hr : r.Plain := hwired.plain r (List.mem_append_right _ (List.mem_cons_self ..))
    have hreact := hL.react h (hpermits n (hL.refl n)) c (3 + before.length) hr he
    have hlater := later_rule.react later_rule.full hwired.reactor?_behind e
    rw [Courier.reactAll, Action.apply_bind]
    cases happly : (r.react .full c (3 + before.length) e).apply n with
    | mk result n' =>
      rw [happly] at hreact hlater
      cases result with
      | error f => exact hreact
      | ok u =>
        have hsplit : before ++ r :: behind = (before ++ [r]) ++ behind := by simp
        rw [hsplit] at hwired
        obtain ⟨l', hwired'⟩ := hwired.later hlater
        have hrest := ih (before ++ [r]) (h.later hlater) hwired' fun m hm =>
          hpermits m (hL.trans hreact hm)
        rw [List.length_append, ← Nat.add_assoc] at hrest
        exact hL.trans hreact hrest

/-- Once the ledger has done its part, the rest of the reaction follows the relation. -/
theorem settled_behind {l : Ledger} {rest : List (Reactor σ)} {n₀ : Node σ}
    {e : Event} (he : e.IsTraffic) (hledger : (ledgerReacts c 2 l e).apply n₀ = (.ok (), n))
    (h : n.AllWired) {l' : Ledger} (hwired : n.WiredAt c l' rest)
    (hpermits : ∀ n', R n n' → Permits may n') :
    R n (settled .full c (reaction .full c e l rest) n₀) := by
  have hrest := hL.reactAll [] rest h hwired hpermits he
  have hlater : n.Later ((Courier.reactAll .full c e 3 rest).apply n).2 :=
    later_reactAll later_rule.full e [] rest hwired
  rw [settled, reaction, Action.apply_bind_ok hledger]
  change R n ((Courier.reactAll .full c e 3 rest).apply n).2 at hrest
  cases happly : (Courier.reactAll .full c e 3 rest).apply n with
  | mk result n' =>
    rw [happly] at hrest hlater
    cases result with
    | ok u => exact hrest
    | error f => exact hL.trans hrest (hL.raiseWith (h.later hlater) .full c f)

/-! ## The ledger -/

/-- The ledger resends what it holds, if it holds anything, or it changes nothing but its count and
fails. -/
theorem settle_flush {ch : Channel σ} {l : Ledger} {rest : List (Reactor σ)}
    (hch : n.channel? c = some ch) (hw : ch.Wired l rest) :
    (∃ n', (settleLedger c 2 l.flush.1 l.flush.2).apply n = (.ok (), n') ∧ R n n') ∨
      ∃ f, (settleLedger c 2 l.flush.1 l.flush.2).apply n =
        (.error f, n.modify c fun _ => ch.setLedger l.flush.1) := by
  cases hbuffer : l.buffer.isEmpty with
  | true => exact .inl ⟨n, apply_flush_of_empty hch hw hbuffer, hL.refl n⟩
  | false =>
    by_cases hlive : ch.Live
    · exact .inl ⟨_, apply_flush hch hlive hbuffer, hL.act hch (.resend hw hlive hbuffer)⟩
    · exact .inr (apply_flush_of_not_live hch hlive hbuffer)

/-- The ledger answers, or it fails. -/
theorem settle_answer {ch : Channel σ} {l : Ledger} {rest : List (Reactor σ)}
    (hch : n.channel? c = some ch) (hw : ch.Wired l rest) :
    (∃ n', (settleLedger c 2 l l.answerRequest).apply n = (.ok (), n') ∧ R n n') ∨
      ∃ f, (settleLedger c 2 l l.answerRequest).apply n =
        (.error f, n.modify c fun _ => ch.setLedger l) := by
  by_cases hlive : ch.Live
  · exact .inl ⟨_, apply_answer hch hw hlive, hL.act hch (.answer hw hlive)⟩
  · rw [hw.setLedger_self, Node.modify_const_self n c hch]
    exact .inr (apply_answer_of_not_live hch hw hlive)

/-- What the ledger does about traffic that brings no packet. -/
theorem ledgerReacts {ch : Channel σ} {l : Ledger} {rest : List (Reactor σ)}
    (hch : n.channel? c = some ch) (hw : ch.Wired l rest) {e : Event} (he : e.IsTraffic)
    (hnew : ∀ p, e ≠ .packetReceived p)
    (hclears : ∀ count, e = .acknowledgmentReceived count → count = l.transmitted → clears c) :
    (∃ n', (ledgerReacts c 2 l e).apply n = (.ok (), n') ∧ R n n') ∨
      ∃ l' f, l'.unacknowledged = l.unacknowledged ∧ (ledgerReacts c 2 l e).apply n =
        (.error f, n.modify c fun _ => ch.setLedger l') := by
  have hflush : (∃ n', (settleLedger c 2 l.flush.1 l.flush.2).apply n = (.ok (), n') ∧ R n n') ∨
      ∃ l' f, l'.unacknowledged = l.unacknowledged ∧
        (settleLedger c 2 l.flush.1 l.flush.2).apply n =
          (.error f, n.modify c fun _ => ch.setLedger l') := by
    obtain hok | ⟨f, hf⟩ := hL.settle_flush hch hw
    · exact .inl hok
    · exact .inr ⟨_, f, l.unacknowledged_flush, hf⟩
  cases e with
  | fetchRequested => exact hflush
  | acknowledgmentRequested =>
    obtain hok | ⟨f, hf⟩ := hL.settle_answer hch hw
    · exact .inl hok
    · exact .inr ⟨l, f, rfl, hf⟩
  | acknowledgmentReceived count =>
    by_cases hcount : count = l.transmitted
    · left
      refine ⟨_, ?_, hL.act hch (.clear hw (hclears count rfl hcount))⟩
      rw [hcount]
      exact apply_clear hch
    · rw [Courier.ledgerReacts, Ledger.acknowledge, if_neg hcount]
      exact hflush
  | packetReceived p => exact absurd rfl (hnew p)
  | _ => exact he.elim

/-! ## Events -/

/-- Traffic that brings no packet follows the relation. -/
theorem dispatch (h : n.AllWired) {ch : Channel σ} (hch : n.channel? c = some ch) {l : Ledger}
    {rest : List (Reactor σ)} (hw : ch.Wired l rest) {e : Event} (he : e.IsTraffic)
    (hnew : ∀ p, e ≠ .packetReceived p)
    (hclears : ∀ count, e = .acknowledgmentReceived count → count = l.transmitted → clears c)
    (hpermits : ∀ n', R n n' → Permits may n') : R n (dispatch c e n) := by
  have hnote := quiet_note_event n c hnew
  have hnoted := h.later (later_rule.note n c .eventLog (.event e))
  have hch' := (hnote.channel? c).trans hch
  have hwired : (n.note c .eventLog (.event e)).WiredAt c l rest := ⟨ch, hch', hw⟩
  rw [Courier.dispatch, dispatchWith_eq later_rule.full ⟨ch, hch, hw⟩]
  refine hL.trans (hL.quiet hnote) ?_
  obtain ⟨n', hledger, hmoved⟩ | ⟨l', f, hbuffer, hledger⟩ :=
    hL.ledgerReacts hch' hw he hnew hclears
  · have hlater := later_rule.ledgerReacts (hwired.reactor? 2) e
    rw [hledger] at hlater
    obtain ⟨l', hwired'⟩ := hwired.later hlater
    refine hL.trans hmoved (hL.settled_behind he hledger (hnoted.later hlater) hwired' ?_)
    exact fun m hm => hpermits m (hL.trans (hL.quiet hnote) (hL.trans hmoved hm))
  · have hreaction : (reaction .full c e l rest).apply (n.note c .eventLog (.event e)) =
        (.error f, (n.note c .eventLog (.event e)).modify c fun _ => ch.setLedger l') :=
      Action.apply_bind_error hledger
    rw [settled, hreaction]
    exact hL.raise_of_setLedger hch' hw l' hbuffer f

end Law

/-- The node after a packet was reported as received and counted. -/
def Node.heard (n : Node σ) (c : ChannelId) (p : Packet) : Node σ :=
  (n.note c .eventLog (.event (.packetReceived p))).modify c fun ch =>
    match ch.ledger? with
    | some l => ch.setLedger l.recordReceived
    | none => ch

theorem heard_eq {n : Node σ} {c : ChannelId} {ch : Channel σ} {l : Ledger}
    {rest : List (Reactor σ)} (hch : n.channel? c = some ch) (hw : ch.Wired l rest) (p : Packet) :
    n.heard c p = (n.note c .eventLog (.event (.packetReceived p))).modify c
      fun _ => ch.setLedger l.recordReceived := by
  rw [Node.heard, Node.modify_eq_const ((n.channel?_note c c _ _).trans hch), hw.ledger?_eq]

/-- A packet that is received is counted first; the rest follows the relation. -/
theorem Law.dispatch_packetReceived {may : ChannelId → Packet → Prop} {clears : ChannelId → Prop}
    {R : Node σ → Node σ → Prop} (hL : Law may clears R) {n : Node σ} {c : ChannelId}
    (h : n.AllWired) {ch : Channel σ} (hch : n.channel? c = some ch) (p : Packet)
    (hpermits : ∀ n', R (n.heard c p) n' → Permits may n') :
    (n.heard c p).AllWired ∧ R (n.heard c p) (Courier.dispatch c (.packetReceived p) n) := by
  obtain ⟨l, rest, hw⟩ := h c ch hch
  have hwired : n.WiredAt c l rest := ⟨ch, hch, hw⟩
  have hnoted := hwired.note c .eventLog (.event (.packetReceived p))
  have hch' : (n.note c .eventLog (.event (.packetReceived p))).channel? c = some ch :=
    (n.channel?_note c c _ _).trans hch
  have hledger : (Courier.ledgerReacts c 2 l (.packetReceived p)).apply
      (n.note c .eventLog (.event (.packetReceived p))) = (.ok (), n.heard c p) := by
    rw [heard_eq hch hw p, ← Node.setReactor_eq hch']
    rfl
  have hlater := later_rule.ledgerReacts (hnoted.reactor? 2) (.packetReceived p)
  rw [hledger] at hlater
  obtain ⟨l', hheard⟩ := hnoted.later hlater
  have hall := (h.later (later_rule.note n c .eventLog (.event (.packetReceived p)))).later hlater
  refine ⟨hall, ?_⟩
  rw [Courier.dispatch, dispatchWith_eq later_rule.full hwired]
  exact hL.settled_behind trivial hledger hall hheard hpermits

end Courier
