import Courier.Proofs.Duplex.Replies

/-! # An exchange that is left to itself

Both ends are identified and open. When the next frame of a link makes neither end issue anything,
the end that it reaches replies as its ledger tells, and nothing else happens
(`Duplex.Joined.deliver`).
-/
set_option autoImplicit false

namespace Courier

open Courier.Wire Courier.Wire.Frame Courier.Routing

variable {σ : Type} {n n' : Node σ} {cl sv ch : Channel σ} {d d' : Duplex σ} {e : End} {f : Frame}

namespace Duplex

/-- The frames that an end has issued. -/
def issued (d : Duplex σ) (e : End) : List Frame := d.node.issued e.channel

/-- The next frame of an end is an acknowledgment, or it makes neither end issue anything. -/
def Unprompted (d : Duplex σ) (e : End) : Prop := ∀ f, d.next? e = some f →
  (∀ count, f ≠ .acknowledge count) → ∀ x, (d.move (.deliver e)).issued x = d.issued x

/-- Both ends are identified and open, and only traffic is on the links. -/
structure Joined (cl sv : Channel σ) (d : Duplex σ) : Prop extends Good cl sv d where
  clientLive : cl.Live
  serverLive : sv.Live
  identified : ∀ e, (d.channel? e).map (·.session.phase) = some .identified
  plain : ∀ e, ∀ f ∈ d.link e, f.isFormal = false
  alone : d.node.channels.length = 2

theorem joined_run (policy : σ) (cw : ClientWiring) (sw : ServerWiring σ) (now : Nat)
    (moves : List DuplexMove) (hopen : ((start policy cw sw now).run moves).BothOpen)
    (hidentified : ∀ e, (((start policy cw sw now).run moves).channel? e).map (·.session.phase) =
      some .identified) : ∃ cl sv, Joined cl sv ((start policy cw sw now).run moves) := by
  obtain ⟨cl, sv, hgood⟩ := good_run policy cw sw now moves hopen
  have hpaced := paced_run policy cw sw now moves hopen
  have hlater := (start policy cw sw now).later_run moves
  have hwriter : ∀ {e : End} {ch : Channel σ},
      ((start policy cw sw now).run moves).node.channel? e.channel = some ch →
        ch.hasWriter = true := by
    intro e ch hch
    obtain ⟨ch₀, hch₀, hlater₀⟩ := hlater.before hch
    rw [hlater₀.writer]
    cases e <;> cases hch₀ <;> rfl
  exact ⟨cl, sv, hgood, ⟨hopen .client cl hgood.client, hwriter hgood.client⟩,
    ⟨hopen .server sv hgood.server, hwriter hgood.server⟩, hidentified,
    hpaced.handshaken hgood hidentified, hlater.count⟩

namespace Joined

theorem channel_at (h : Joined cl sv d) {c : ChannelId} (hch : d.node.channel? c = some ch) :
    ∃ e : End, c = e.channel := by
  have hlt : c.index < 2 := by
    rw [← h.alone]
    exact (List.getElem?_eq_some_iff.1 hch).1
  obtain ⟨i⟩ := c
  match i, hlt with
  | 0, _ => exact ⟨.client, rfl⟩
  | 1, _ => exact ⟨.server, rfl⟩

theorem live (h : Joined cl sv d) (hch : d.channel? e = some ch) : ch.Live := by
  cases e with
  | client =>
    cases h.client.symm.trans hch
    exact h.clientLive
  | server =>
    cases h.server.symm.trans hch
    exact h.serverLive

theorem attended (h : Joined cl sv d) : d.node.Attended := by
  intro a c hc
  have hnamed := h.ready.attached.channels hc
  cases hch : d.node.channel? c with
  | none =>
    rw [Node.identity?, hch] at hnamed
    exact absurd rfl hnamed
  | some ch =>
    obtain ⟨e, rfl⟩ := h.channel_at hch
    obtain ⟨l, rest, hw⟩ := h.ready.wired _ ch hch
    exact ⟨ch, l, rest, rfl, hw, h.live hch⟩

theorem issued_nowhere (h : Joined cl sv d) (hlater : d.node.Later n')
    (hends : ∀ e : End, n'.issued e.channel = d.issued e) (c : ChannelId) :
    n'.issued c = d.node.issued c := by
  cases hch : d.node.channel? c with
  | some ch =>
    obtain ⟨e, rfl⟩ := h.channel_at hch
    exact hends e
  | none =>
    cases hch' : n'.channel? c with
    | none => rw [Node.issued, Node.issued, hch, hch']
    | some ch' =>
      obtain ⟨ch, hsome, -⟩ := hlater.before hch'
      rw [hch] at hsome
      cases hsome

theorem shown (h : Joined cl sv d) (hch : d.channel? e = some ch) :
    ch.published = ch.session.phase := h.ready.shown _ ch hch

theorem named (h : Joined cl sv d) (hch : d.channel? e = some ch) :
    ∃ a, ch.session.identity = some a := by
  have hnamed := h.toGood.named (h.identified e)
  rw [identity?_eq hch] at hnamed
  exact Option.ne_none_iff_exists'.1 hnamed

variable (h : Joined cl sv d) (hch : d.channel? e = some ch) (hnext : d.next? e = some f)

include h hch hnext

/-- An end replies to the next frame, if it is for nobody and a fetch makes it issue nothing. -/
theorem replies (hhome : ∀ ps, f = .send ps → e = .server → ∀ p ∈ ps, d.node.registry.Homeless p)
    (hfetch : f = .fetch →
      (handleFrame e.channel ch.session.role f d.node).issued e.channel = d.issued e) :
    ∃ l rest, ch.Wired l rest ∧ d.node.Replies e.channel ch l rest f
      (handleFrame e.channel ch.session.role f d.node) := by
  have hlive := h.live hch
  have hplain := h.plain e f (mem_link hnext)
  obtain ⟨l, rest, hw⟩ := h.ready.wired _ ch hch
  cases f with
  | requestAcknowledgment => exact ⟨l, rest, hw, replies_requestAcknowledgment hch hw hlive⟩
  | acknowledge count => exact ⟨l, rest, hw, replies_acknowledge hch hw hlive count⟩
  | unknown code =>
    exact ⟨l, rest, hw, ⟨ch, hch, rfl, rfl, rfl, hw, (List.append_nil _).symm⟩, fun _ _ => rfl,
      fun _ => rfl⟩
  | fetch =>
    cases e with
    | client =>
      cases h.client.symm.trans hch
      obtain ⟨w, l, hw⟩ := h.clientWired
      exact ⟨l, _, hw, client_replies_fetch hch hw hlive (hfetch rfl)⟩
    | server =>
      cases h.server.symm.trans hch
      obtain ⟨w, l, hw⟩ := h.serverWired
      obtain ⟨a, ha⟩ := h.named hch
      exact ⟨l, _, hw, server_replies_fetch hch hw hlive ha (hfetch rfl)⟩
  | send ps =>
    cases e with
    | client =>
      cases h.client.symm.trans hch
      obtain ⟨w, l, hw⟩ := h.clientWired
      exact ⟨l, _, hw, replies_receivePackets hch hw hlive (h.shown hch) ps
        fun _ hm hw p _ => client_replies_packet hm hw p⟩
    | server =>
      cases h.server.symm.trans hch
      obtain ⟨w, l, hw⟩ := h.serverWired
      refine ⟨l, _, hw, replies_receivePackets hch hw hlive (h.shown hch) ps
        fun hsame hm hw p hp => server_replies_packet hm hw ?_⟩
      rw [Registry.Homeless, hsame]
      exact hhome ps rfl rfl p hp
  | attach | authenticate | session | identify | detach => cases hplain

/-- A frame that makes neither end issue anything is replied to. -/
theorem replies_of_unprompted (hun : d.Unprompted e) :
    ∃ l rest, ch.Wired l rest ∧ d.node.Replies e.channel ch l rest f
      (handleFrame e.channel ch.session.role f d.node) := by
  have hlater := later_rule.telling.handleFrame e.channel ch.session.role f d.node
  have hrest := later_handled hch (h.live hch) (h.shown hch) f
  have hmove : d.move (.deliver e) = ⟨deliverFrame e.channel d.node f, d.handOver e⟩ := by
    rw [Duplex.move, hnext]
  have hsilent : (∀ count, f ≠ .acknowledge count) →
      ∀ c, (deliverFrame e.channel d.node f).issued c = d.node.issued c := by
    intro hnot
    refine h.issued_nowhere (hlater.trans hrest) fun x => ?_
    have hsame := hun f hnext hnot x
    rw [hmove] at hsame
    exact hsame
  refine h.replies hch hnext ?_ ?_
  · rintro ps rfl rfl
    cases h.server.symm.trans hch
    obtain ⟨w, l, hw⟩ := h.serverWired
    exact homeless_of_receivePackets hch hw (h.live hch) (h.shown hch) h.attended ps hrest
      (hsilent fun _ heq => by cases heq)
  · rintro rfl
    exact silent_before hlater hrest (hsilent (fun _ heq => by cases heq) _)

end Joined

/-! ## What an end hears -/

theorem Joined.move_deliver (h : Joined cl sv d) (hch : d.channel? e = some ch)
    (hnext : d.next? e = some f) {l : Ledger} {rest : List (Reactor σ)}
    (hreplies : d.node.Replies e.channel ch l rest f
      (handleFrame e.channel ch.session.role f d.node)) : d.move (.deliver e) =
        ⟨handleFrame e.channel ch.session.role f d.node, d.handOver e⟩ := by
  have hstays : f ≠ .detach := by
    rintro rfl
    cases h.plain e _ (mem_link hnext)
  rw [Duplex.move, hnext]
  show Duplex.mk (deliverFrame e.channel d.node f) _ = _
  rw [deliverFrame_of_replies hch (h.live hch) (h.shown hch) hstays hreplies]

/-- An end takes the next frame of its link and replies to it. -/
structure Hears (e : End) (f : Frame) (d d' : Duplex σ) : Prop where
  link : d.link e = f :: d'.link e
  ledger : d'.ledger e = ((d.ledger e).reply f).1
  reply : d'.link e.other = d.link e.other ++ ((d.ledger e).reply f).2
  other : d'.ledger e.other = d.ledger e.other
  attached : ∀ a, d'.node.registry.channels a = d.node.registry.channels a

section replying

variable (h : Joined cl sv d) (hch : d.channel? e = some ch) (hnext : d.next? e = some f)
  {l : Ledger} {rest : List (Reactor σ)}
  (hreplies : d.node.Replies e.channel ch l rest f
    (handleFrame e.channel ch.session.role f d.node))

include h hch hnext hreplies

theorem Joined.hears (hw : ch.Wired l rest) : d.Hears e f (d.move (.deliver e)) := by
  rw [h.move_deliver hch hnext hreplies]
  obtain ⟨ch', hch', hself⟩ := hreplies.self
  have hother := hreplies.others _ e.channel_other_ne
  generalize handleFrame e.channel ch.session.role f d.node = n' at *
  have hspoken : (Duplex.mk n' (d.handOver e)).spoken e =
      d.spoken e ++ ((d.ledger e).reply f).2 := by
    rw [spoken_eq (d := ⟨n', _⟩) hch', spoken_eq hch, ledger_eq hch, hw.ledger_eq, hself.spoken]
  have hspoken' : (Duplex.mk n' (d.handOver e)).spoken e.other = d.spoken e.other := by
    rw [spoken, spoken, channel?, channel?, hother]
  refine ⟨?_, ?_, ?_, ?_, hreplies.attached⟩
  · obtain ⟨hlt, hf⟩ := List.getElem?_eq_some_iff.1 hnext
    rw [link, link, hspoken', List.drop_eq_getElem_cons hlt, hf]
    show _ = f :: (d.spoken e.other).drop (d.handOver e e.other)
    rw [handOver_self]
  · rw [ledger_eq (d := ⟨n', _⟩) hch', ledger_eq hch, hself.wired.ledger_eq, hw.ledger_eq]
  · rw [link, link, End.other_other, hspoken]
    show List.drop (d.handOver e e) (_ ++ _) = _
    rw [handOver_other, List.drop_append_of_le_length (h.within e)]
  · rw [ledger, ledger, channel?, channel?, hother]

/-- Both channels stay live, and both ends identified, as an end replies. -/
theorem Joined.kept (x : End) (ch' : Channel σ)
    (hch' : (d.move (.deliver e)).channel? x = some ch') :
    ch'.Live ∧ ch'.session.phase = .identified := by
  rw [h.move_deliver hch hnext hreplies] at hch'
  -- Each end's channel has the session it had.
  have hphase : ∀ {y : End} {b : Channel σ}, d.channel? y = some b →
      b.session.phase = .identified := by
    intro y b hb
    have hmap := h.identified y
    rw [hb] at hmap
    exact Option.some.inj hmap
  obtain rfl | rfl := e.eq_or_eq_other x
  · obtain ⟨b, hb, hself⟩ := hreplies.self
    cases hb.symm.trans hch'
    rw [hself.session]
    exact ⟨hself.live (h.live hch), hphase hch⟩
  · have hbefore : d.channel? e.other = some ch' :=
      (hreplies.others _ e.channel_other_ne).symm.trans hch'
    exact ⟨h.live hbefore, hphase hbefore⟩

theorem Joined.stays (hw : ch.Wired l rest) : ∃ cl' sv', Joined cl' sv' (d.move (.deliver e)) := by
  have hkept := h.kept hch hnext hreplies
  have hhears := h.hears hch hnext hreplies hw
  have hopen : (d.move (.deliver e)).BothOpen := fun x ch' hch' => (hkept x ch' hch').1.isOpen
  obtain ⟨cl', sv', hgood⟩ := h.toGood.move (.deliver e) hopen
  refine ⟨cl', sv', hgood, (hkept .client cl' hgood.client).1, (hkept .server sv' hgood.server).1,
    fun x => ?_, fun x g hg => ?_, ?_⟩
  · obtain ⟨b, hb⟩ := hgood.exists_channel x
    rw [hb]
    exact congrArg some (hkept x b hb).2
  · obtain rfl | rfl := e.eq_or_eq_other x
    · exact h.plain x g (hhears.link ▸ List.mem_cons_of_mem f hg)
    · rw [hhears.reply] at hg
      obtain hg | hg := List.mem_append.1 hg
      · exact h.plain _ g hg
      · exact Ledger.reply_plain _ f g hg
  · rw [h.move_deliver hch hnext hreplies]
    exact (later_rule.telling.handleFrame e.channel ch.session.role f d.node).count.trans h.alone

end replying

/-- The end that the next frame reaches replies to it, if it makes neither end issue anything. -/
theorem Joined.deliver (h : Joined cl sv d) (hnext : d.next? e = some f) (hun : d.Unprompted e) :
    (∃ cl' sv', Joined cl' sv' (d.move (.deliver e))) ∧ d.Hears e f (d.move (.deliver e)) := by
  obtain ⟨ch, hch⟩ := h.exists_channel e
  obtain ⟨l, rest, hw, hreplies⟩ := h.replies_of_unprompted hch hnext hun
  exact ⟨h.stays hch hnext hreplies hw, h.hears hch hnext hreplies hw⟩

/-! ## Idle exchanges -/

/-- Nobody fetches, and the packets that may reach the server are for nobody. -/
structure Idle (d : Duplex σ) : Prop where
  unfetched : ∀ e, .fetch ∉ d.link e
  homeless : ∀ p, p ∈ (d.link .server).flatMap packets ∨ p ∈ (d.ledger .client).unacknowledged →
    d.node.registry.Homeless p

theorem Hears.idle (h : d.Hears e f d') (hidle : d.Idle) : d'.Idle := by
  obtain ⟨hfetch, hpackets, hheld⟩ := (d.ledger e).reply_resends f
  have hlink : ∀ g ∈ d'.link e, g ∈ d.link e := fun g hg => h.link ▸ List.mem_cons_of_mem f hg
  refine ⟨fun x hmem => ?_, fun p hp => ?_⟩
  · obtain rfl | rfl := e.eq_or_eq_other x
    · exact hidle.unfetched x (hlink _ hmem)
    · rw [h.reply] at hmem
      obtain hmem | hmem := List.mem_append.1 hmem
      · exact hidle.unfetched _ hmem
      · exact hfetch hmem
  · rw [Registry.Homeless, h.attached]
    apply hidle.homeless p
    cases e with
    | client =>
      have hreply : d'.link .server = d.link .server ++ _ := h.reply
      rw [hreply, List.flatMap_append, List.mem_append, h.ledger] at hp
      obtain (hp | hp) | hp := hp
      · exact .inl hp
      · exact .inr (hpackets hp)
      · exact .inr (hheld hp)
    | server =>
      have hother : d'.ledger .client = d.ledger .client := h.other
      rw [hother] at hp
      refine hp.imp_left fun hp => ?_
      obtain ⟨g, hg, hpg⟩ := List.mem_flatMap.1 hp
      exact List.mem_flatMap.2 ⟨g, hlink g hg, hpg⟩

/-- In an idle exchange nothing is issued. -/
theorem Joined.deliver_idle (h : Joined cl sv d) (hidle : d.Idle) (hnext : d.next? e = some f) :
    d.Unprompted e ∧ (∃ cl' sv', Joined cl' sv' (d.move (.deliver e))) ∧
      d.Hears e f (d.move (.deliver e)) := by
  obtain ⟨ch, hch⟩ := h.exists_channel e
  have hmem := mem_link hnext
  obtain ⟨l, rest, hw, hreplies⟩ := h.replies hch hnext
    (by
      rintro ps rfl rfl p hp
      exact hidle.homeless p (.inl (List.mem_flatMap.2 ⟨_, hmem, hp⟩)))
    (by
      rintro rfl
      exact absurd hmem (hidle.unfetched e))
  refine ⟨fun g hg hnot x => ?_, h.stays hch hnext hreplies hw, h.hears hch hnext hreplies hw⟩
  rw [hnext] at hg
  cases hg
  rw [h.move_deliver hch hnext hreplies]
  refine hreplies.issued hch ?_ x.channel
  cases f with
  | acknowledge count => exact absurd rfl (hnot count)
  | _ => rfl

end Duplex
end Courier
