import Courier.Proofs.Duplex.Agreement
import Courier.Proofs.Node.Answers
import Courier.Proofs.Routing.Views

/-! # What an end replies

A live end does about a frame what its ledger tells (`Ledger.reply`), unless it is made to issue
packets, a fetch or a request: by a packet that arrives for an address with channels, or by a fetch
that finds something to send. So an exchange in which nothing is issued goes on between the two
ledgers alone (`Duplex.Joined.deliver`).
-/
set_option autoImplicit false

namespace Courier

open Courier.Wire Courier.Wire.Frame Courier.Routing

variable {σ : Type} {n n' m : Node σ} {c : ChannelId} {ch ch' ch'' cl sv : Channel σ} {l : Ledger}
  {rest : List (Reactor σ)} {f : Frame} {fs : List Frame} {p : Packet} {ps : List Packet}
  {a : Address}

/-! ## Replies -/

namespace Ledger

/-- The ledger after a frame, and the frames that answer it. -/
def reply (l : Ledger) : Frame → Ledger × List Frame
  | .send ps => ({ l with received := l.received + .ofNat ps.length }, [])
  | .requestAcknowledgment => (l, [.acknowledge l.received])
  | .acknowledge count =>
    if count = l.transmitted then ({ l with buffer := .empty }, [])
    else if l.buffer.isEmpty then (l, [])
    else (l.flush.1, sends l.unacknowledged ++ [.requestAcknowledgment])
  | _ => (l, [])

theorem reply_matching (l : Ledger) :
    l.reply (.acknowledge l.transmitted) = ({ l with buffer := .empty }, []) := if_pos rfl

theorem reply_unheeded {count : UInt32} (hcount : count ≠ l.transmitted)
    (hempty : l.buffer.isEmpty = true) : l.reply (.acknowledge count) = (l, []) := by
  rw [reply, if_neg hcount, if_pos hempty]

theorem reply_resent {count : UInt32} (hcount : count ≠ l.transmitted)
    (hbuffer : l.buffer.isEmpty = false) : l.reply (.acknowledge count) =
      (l.flush.1, sends l.unacknowledged ++ [.requestAcknowledgment]) := by
  rw [reply, if_neg hcount, if_neg (by simp [hbuffer])]

/-- An acknowledgment clears the buffer, is not heeded, or has the buffer sent again. -/
theorem reply_cases (l : Ledger) (count : UInt32) :
    (count = l.transmitted ∧
      l.reply (.acknowledge count) = ({ l with buffer := .empty }, [])) ∨
    (l.unacknowledged = [] ∧ l.reply (.acknowledge count) = (l, [])) ∨
    (count ≠ l.transmitted ∧ l.unacknowledged ≠ [] ∧ l.reply (.acknowledge count) =
      (l.flush.1, sends l.unacknowledged ++ [.requestAcknowledgment])) := by
  by_cases hcount : count = l.transmitted
  · exact .inl ⟨hcount, hcount ▸ l.reply_matching⟩
  · cases hbuffer : l.buffer.isEmpty with
    | true =>
      have hnil : l.unacknowledged = [] := by
        rw [isEmpty_buffer] at hbuffer
        exact List.isEmpty_iff.1 hbuffer
      exact .inr (.inl ⟨hnil, reply_unheeded hcount hbuffer⟩)
    | false =>
      exact .inr (.inr ⟨hcount, unacknowledged_ne_nil hbuffer, reply_resent hcount hbuffer⟩)

theorem reply_plain (l : Ledger) (f : Frame) : ∀ g ∈ (l.reply f).2, g.isFormal = false := by
  intro g hg
  cases f with
  | requestAcknowledgment =>
    rw [List.mem_singleton.1 hg]
    rfl
  | acknowledge count =>
    obtain ⟨-, heq⟩ | ⟨-, heq⟩ | ⟨-, -, heq⟩ := l.reply_cases count
    · rw [heq] at hg
      cases hg
    · rw [heq] at hg
      cases hg
    · rw [heq] at hg
      obtain hg | hg := List.mem_append.1 hg
      · obtain ⟨run, -, rfl⟩ := List.mem_map.1 hg
        rfl
      · rw [List.mem_singleton.1 hg]
        rfl
  | _ => cases hg

/-- What is sent again is held, and no fetch is said in reply. -/
theorem reply_resends (l : Ledger) (f : Frame) :
    .fetch ∉ (l.reply f).2 ∧ (l.reply f).2.flatMap packets ⊆ l.unacknowledged ∧
      (l.reply f).1.unacknowledged ⊆ l.unacknowledged := by
  cases f with
  | acknowledge count =>
    obtain ⟨-, heq⟩ | ⟨-, heq⟩ | ⟨-, -, heq⟩ := l.reply_cases count
    · rw [heq]
      exact ⟨List.not_mem_nil, List.nil_subset _, List.nil_subset _⟩
    · rw [heq]
      exact ⟨List.not_mem_nil, List.nil_subset _, List.Subset.refl _⟩
    · rw [heq]
      refine ⟨fun hmem => ?_, ?_, ?_⟩
      · obtain hmem | hmem := List.mem_append.1 hmem
        · obtain ⟨run, -, hrun⟩ := List.mem_map.1 hmem
          cases hrun
        · cases List.mem_singleton.1 hmem
      · rw [List.flatMap_append, packets_sends]
        exact List.append_subset.2 ⟨List.Subset.refl _, List.nil_subset _⟩
      · rw [l.unacknowledged_flush]
        exact List.Subset.refl _
  | requestAcknowledgment =>
    refine ⟨fun hmem => ?_, List.nil_subset _, List.Subset.refl _⟩
    cases List.mem_singleton.1 hmem
  | _ => exact ⟨List.not_mem_nil, List.nil_subset _, List.Subset.refl _⟩

end Ledger

/-- What becomes of a channel that replies to a frame. -/
structure Channel.Replies (l : Ledger) (rest : List (Reactor σ)) (f : Frame) (ch ch' : Channel σ) :
    Prop where
  session : ch'.session = ch.session
  published : ch'.published = ch.published
  writer : ch'.hasWriter = ch.hasWriter
  wired : ch'.Wired (l.reply f).1 rest
  spoken : ch'.spoken = ch.spoken ++ (l.reply f).2

theorem Channel.Replies.live (h : ch.Replies l rest f ch') (hlive : ch.Live) : ch'.Live :=
  ⟨h.session ▸ hlive.isOpen, h.writer.trans hlive.writer⟩

theorem Channel.Replies.send_nil (hw : ch.Wired l rest) : ch.Replies l rest (.send []) ch := by
  refine ⟨rfl, rfl, rfl, ?_, (List.append_nil _).symm⟩
  have hsame : (l.reply (.send [])).1 = l := by
    show { l with received := l.received + 0 } = l
    rw [UInt32.add_zero]
  rw [hsame]
  exact hw

theorem Channel.Replies.send_cons (h : ch.Replies l rest (.send [p]) ch')
    (h' : ch'.Replies (l.reply (.send [p])).1 rest (.send ps) ch'') :
    ch.Replies l rest (.send (p :: ps)) ch'' := by
  refine ⟨h'.session.trans h.session, h'.published.trans h.published, h'.writer.trans h.writer, ?_,
    ?_⟩
  · have hsame : ((l.reply (.send [p])).1.reply (.send ps)).1 = (l.reply (.send (p :: ps))).1 := by
      show { l with received := l.received + UInt32.ofNat 1 + UInt32.ofNat ps.length } =
        { l with received := l.received + UInt32.ofNat (ps.length + 1) }
      rw [UInt32.add_assoc, ← UInt32.ofNat_add, Nat.add_comm]
    exact hsame ▸ h'.wired
  · rw [h'.spoken, h.spoken]
    exact List.append_nil _

/-- A channel replies to a frame; the other channels and the attachments stay as they are. -/
structure Node.Replies (c : ChannelId) (ch : Channel σ) (l : Ledger) (rest : List (Reactor σ))
    (f : Frame) (n n' : Node σ) : Prop where
  self : ∃ ch', n'.channel? c = some ch' ∧ ch.Replies l rest f ch'
  others : ∀ c', c' ≠ c → n'.channel? c' = n.channel? c'
  attached : ∀ a, n'.registry.channels a = n.registry.channels a

theorem Node.Replies.of_quiet (hch : n.channel? c = some ch)
    (hquiet : Quiet (n.modify c fun _ => ch') n') (h : ch.Replies l rest f ch') :
    n.Replies c ch l rest f n' := by
  refine ⟨⟨ch', ?_, h⟩, fun c' hc => ?_, fun a => ?_⟩
  · exact (hquiet.channel? c).trans (channel?_modify_of_some hch _)
  · exact (hquiet.channel? c').trans (n.channel?_modify_of_ne _ hc)
  · rw [hquiet.registry]
    rfl

section

variable (hch : n.channel? c = some ch) (hw : ch.Wired l rest) (hlive : ch.Live)

include hch hw hlive

theorem replies_requestAcknowledgment :
    n.Replies c ch l rest .requestAcknowledgment (dispatch c .acknowledgmentRequested n) :=
  .of_quiet hch (quiet_answered hch hw hlive)
    ⟨rfl, rfl, rfl, hw.say _, Channel.spoken_say (regular_singleton (regular_acknowledge _))⟩

theorem replies_acknowledge (count : UInt32) :
    n.Replies c ch l rest (.acknowledge count) (dispatch c (.acknowledgmentReceived count) n) := by
  by_cases hcount : count = l.transmitted
  · subst hcount
    refine .of_quiet hch (quiet_cleared hch hw) ⟨rfl, rfl, rfl, ?_, ?_⟩
    · rw [l.reply_matching]
      exact hw.setLedger _
    · rw [l.reply_matching]
      exact (List.append_nil _).symm
  · cases hbuffer : l.buffer.isEmpty with
    | true =>
      have hquiet : Quiet (n.modify c fun _ => ch)
          (dispatch c (.acknowledgmentReceived count) n) := by
        rw [Node.modify_const_self n c hch]
        exact quiet_unheeded hch hw hcount hbuffer
      refine .of_quiet hch hquiet ⟨rfl, rfl, rfl, ?_, ?_⟩
      · rw [Ledger.reply_unheeded hcount hbuffer]
        exact hw
      · rw [Ledger.reply_unheeded hcount hbuffer]
        exact (List.append_nil _).symm
    | false =>
      refine .of_quiet hch (quiet_resent hch hw hcount hlive hbuffer) ⟨rfl, rfl, rfl, ?_, ?_⟩
      · rw [Ledger.reply_resent hcount hbuffer]
        exact ((hw.setLedger _).say _).say _
      · rw [Ledger.reply_resent hcount hbuffer, Channel.resent,
          Channel.spoken_say (regular_singleton regular_requestAcknowledgment),
          Channel.spoken_say fun f hf => regular_of_mem_sends hf, List.append_assoc]
        rfl

end

theorem not_isClosed_of_live (hch : n.channel? c = some ch) (hlive : ch.Live)
    (hshown : ch.published = ch.session.phase) : n.isClosed c = false := by
  rw [Node.isClosed, hch]
  show decide (ch.published = .closed) = false
  rw [hshown]
  exact hlive.isOpen

/-- A channel that replies to a frame stays open and reads on. -/
theorem deliverFrame_of_replies (hch : n.channel? c = some ch) (hlive : ch.Live)
    (hshown : ch.published = ch.session.phase) (hf : f ≠ .detach)
    (h : n.Replies c ch l rest f (handleFrame c ch.session.role f n)) :
    deliverFrame c n f = handleFrame c ch.session.role f n := by
  obtain ⟨ch', hch', hreplies⟩ := h.self
  have hafter := not_isClosed_of_live hch' (hreplies.live hlive) (by
    rw [hreplies.published, hshown, hreplies.session])
  have hreceive : receive c f n = (.continue, handleFrame c ch.session.role f n) := by
    rw [receive, hch]
    simp only [hf, hafter, false_or, if_false, Bool.false_eq_true]
  rw [deliverFrame, not_isClosed_of_live hch hlive hshown, if_neg Bool.false_ne_true, hreceive]

/-- Whatever else a frame brings about comes after it was dealt with. -/
theorem later_handled (hch : n.channel? c = some ch) (hlive : ch.Live)
    (hshown : ch.published = ch.session.phase) (f : Frame) :
    (handleFrame c ch.session.role f n).Later (deliverFrame c n f) := by
  have hreceive : (receive c f n).2 = handleFrame c ch.session.role f n := by rw [receive, hch]
  rw [deliverFrame, not_isClosed_of_live hch hlive hshown, if_neg Bool.false_ne_true, ← hreceive]
  split
  · rename_i heq
    rw [heq]
    exact .refl _
  · rename_i heq
    rw [heq]
    exact later_rule.finish c _

/-! ## Packets -/

/-- Packets that arrive are replied to one by one, as long as the attachments stay. -/
theorem replies_receivePackets (hch : n.channel? c = some ch) (hw : ch.Wired l rest)
    (hlive : ch.Live) (hshown : ch.published = ch.session.phase) (ps : List Packet)
    (hone : ∀ {m : Node σ} {ch : Channel σ} {l : Ledger},
      (∀ a, m.registry.channels a = n.registry.channels a) → m.channel? c = some ch →
        ch.Wired l rest → ∀ p ∈ ps,
          m.Replies c ch l rest (.send [p]) (dispatch c (.packetReceived p) m)) :
    n.Replies c ch l rest (.send ps) (receivePackets c ps n) := by
  induction ps generalizing n ch l with
  | nil => exact ⟨⟨ch, hch, .send_nil hw⟩, fun _ _ => rfl, fun _ => rfl⟩
  | cons p ps ih =>
    have hstep : receivePackets c (p :: ps) n =
        receivePackets c ps (dispatch c (.packetReceived p) n) := by
      show receivePackets c ps (if n.isClosed c then n else _) = _
      rw [not_isClosed_of_live hch hlive hshown, if_neg Bool.false_ne_true]
    obtain ⟨⟨ch', hch', hfirst⟩, hothers, hattached⟩ :=
      hone (fun _ => rfl) hch hw p (List.mem_cons_self ..)
    have hshown' : ch'.published = ch'.session.phase := by
      rw [hfirst.published, hshown, hfirst.session]
    obtain ⟨⟨ch'', hch'', hlast⟩, hothers', hattached'⟩ :=
      ih hch' hfirst.wired (hfirst.live hlive) hshown' fun hsame hch hw p hp =>
        hone (fun a => (hsame a).trans (hattached a)) hch hw p (List.mem_cons_of_mem _ hp)
    rw [hstep]
    exact ⟨⟨ch'', hch'', hfirst.send_cons hlast⟩,
      fun c' hc => (hothers' c' hc).trans (hothers c' hc),
      fun a => (hattached' a).trans (hattached a)⟩

theorem replies_heard (hch : n.channel? c = some ch) (hw : ch.Wired l rest) (p : Packet) :
    n.Replies c ch l rest (.send [p]) (n.heard c p) := by
  have hnoted := (n.channel?_note c c .eventLog (.event (.packetReceived p))).trans hch
  rw [heard_eq hch hw]
  refine ⟨⟨_, Node.channel?_modify_of_some hnoted _, rfl, rfl, rfl, hw.setLedger _,
    (List.append_nil _).symm⟩, fun c' hc => ?_, fun a => ?_⟩
  · exact (Node.channel?_modify_of_ne _ _ hc).trans (n.channel?_note c c' _ _)
  · show (n.note c _ _).registry.channels a = _
    rw [n.registry_note]

theorem client_replies_packet {w : ClientWiring} (hch : n.channel? c = some ch)
    (hw : ch.Wired l (clientRest w)) (p : Packet) :
    n.Replies c ch l (clientRest w) (.send [p]) (dispatch c (.packetReceived p) n) := by
  have hquiet := client_packetReceived (attends_clientRest w) hch hw p
  obtain ⟨⟨ch', hch', hreplies⟩, hothers, hattached⟩ := replies_heard hch hw p
  refine ⟨⟨ch', (hquiet.channel? c).trans hch', hreplies⟩,
    fun c' hc => (hquiet.channel? c').trans (hothers c' hc), fun a => ?_⟩
  rw [hquiet.registry]
  exact hattached a

/-- No channel would be sent the packet: it is dropped or waits. -/
def Routing.Registry.Homeless (r : Registry) (p : Packet) : Prop :=
  p.isEcho = true ∨ r.channels p.recipient = []

theorem routePacket_homeless (h : n.registry.Homeless p) :
    (routePacket p n).2.channels = n.channels ∧
      ∀ a, (routePacket p n).2.registry.channels a = n.registry.channels a := by
  by_cases hecho : p.isEcho = true
  · rw [routePacket, routeWith, if_pos hecho]
    exact ⟨rfl, fun _ => rfl⟩
  · have hnone := h.resolve_left hecho
    rw [routePacket, routeWith, if_neg hecho, hnone]
    exact ⟨rfl, fun a => n.registry.channels_enqueue p⟩

theorem server_replies_packet {w : ServerWiring σ} (hch : n.channel? c = some ch)
    (hw : ch.Wired l (serverRest w)) (hhome : n.registry.Homeless p) :
    n.Replies c ch l (serverRest w) (.send [p]) (dispatch c (.packetReceived p) n) := by
  obtain ⟨m, hquiet, heq⟩ := server_packetReceived hch hw p
  obtain ⟨⟨ch', hch', hreplies⟩, hothers, hattached⟩ := replies_heard hch hw p
  have hhome' : m.registry.Homeless p := by
    rw [Registry.Homeless, hquiet.registry, hattached]
    exact hhome
  obtain ⟨hchannels, hsame⟩ := routePacket_homeless hhome'
  rw [heq]
  have hrouted : ∀ c', (routePacket p m).2.channel? c' = (n.heard c p).channel? c' := by
    intro c'
    rw [Node.channel?, hchannels]
    exact hquiet.channel? c'
  refine ⟨⟨ch', (hrouted c).trans hch', hreplies⟩,
    fun c' hc => (hrouted c').trans (hothers c' hc), fun a => ?_⟩
  rw [hsame, hquiet.registry]
  exact hattached a

/-! ## Frames that are issued -/

/-- A frame that an end says of its own accord, and not to answer another. -/
def Wire.Frame.isIssue : Frame → Bool
  | .send _ | .fetch | .requestAcknowledgment => true
  | _ => false

/-- The frames that were issued on a channel. -/
def Node.issued (n : Node σ) (c : ChannelId) : List Frame :=
  ((n.channel? c).map (·.spoken.filter isIssue)).getD []

theorem issued_eq (hch : n.channel? c = some ch) : n.issued c = ch.spoken.filter isIssue := by
  rw [Node.issued, hch]
  rfl

theorem issued_grows (hlater : n.Later n') (c : ChannelId) : n.issued c <+: n'.issued c := by
  cases hch : n.channel? c with
  | none =>
    rw [Node.issued, hch]
    exact List.nil_prefix
  | some ch =>
    obtain ⟨ch', hch', hlater'⟩ := hlater.channel c ch hch
    obtain ⟨items, hitems⟩ := hlater'.grows
    rw [issued_eq hch, issued_eq hch', Channel.spoken, Channel.spoken, hitems, framesOf_append,
      List.filter_append]
    exact List.prefix_append _ _

/-- What is silent as a whole is silent up to any state on the way. -/
theorem silent_before (hlater : n.Later m) (hlater' : m.Later n')
    (hsilent : n'.issued c = n.issued c) : m.issued c = n.issued c := by
  have hfirst := issued_grows hlater c
  have hlast := issued_grows hlater' c
  rw [hsilent] at hlast
  exact (hfirst.eq_of_length (Nat.le_antisymm hfirst.length_le hlast.length_le)).symm

theorem exists_issue {ps : List Packet} (h : ps ≠ []) : ∃ f ∈ sends ps, f.isIssue = true := by
  obtain ⟨f, hf⟩ := List.exists_mem_of_ne_nil _ (sends_ne_nil h)
  obtain ⟨run, -, rfl⟩ := List.mem_map.1 hf
  exact ⟨_, hf, rfl⟩

theorem not_silent_of_said (hch : n.channel? c = some ch) (hch' : m.channel? c = some ch')
    (hspoken : ch'.spoken = ch.spoken ++ fs) (hissue : ∃ f ∈ fs, f.isIssue = true)
    (hlater : m.Later n') : n'.issued c ≠ n.issued c := by
  obtain ⟨f, hf, hissue⟩ := hissue
  have hlength := (issued_grows hlater c).length_le
  rw [issued_eq hch', hspoken, List.filter_append, List.length_append, ← issued_eq hch] at hlength
  have hpos : 0 < (fs.filter isIssue).length :=
    List.length_pos_of_mem (List.mem_filter.2 ⟨hf, hissue⟩)
  intro heq
  rw [heq] at hlength
  omega

/-- Every channel that is attached to an address is there and takes what it is sent. -/
def Node.Attended (n : Node σ) : Prop := ∀ a, ∀ c ∈ n.registry.channels a,
  ∃ ch l rest, n.channel? c = some ch ∧ ch.Wired l rest ∧ ch.Live

theorem Node.Replies.attended (h : n.Replies c ch l rest f n') (hch : n.channel? c = some ch)
    (hlive : ch.Live) (hattended : n.Attended) : n'.Attended := by
  intro a c' hc'
  rw [h.attached] at hc'
  obtain ⟨ch₀, l₀, rest₀, hch₀, hw₀, hlive₀⟩ := hattended a c' hc'
  by_cases hc : c' = c
  · subst hc
    obtain ⟨ch', hch', hreplies⟩ := h.self
    exact ⟨ch', _, rest, hch', hreplies.wired, hreplies.live hlive⟩
  · exact ⟨ch₀, l₀, rest₀, (h.others c' hc).trans hch₀, hw₀, hlive₀⟩

theorem homeless_of_silent (hattended : n.Attended) (hlater : (routePacket p n).2.Later n')
    (hsilent : ∀ c, n'.issued c = n.issued c) : n.registry.Homeless p := by
  by_cases hecho : p.isEcho = true
  · exact .inl hecho
  cases hcs : n.registry.channels p.recipient with
  | nil => exact .inr hcs
  | cons c cs =>
    exfalso
    obtain ⟨ch, l, rest, hch, hw, hlive⟩ := hattended p.recipient c (hcs ▸ List.mem_cons_self ..)
    obtain ⟨m, hoffer, hquiet⟩ := offerPacket_of_wired hch hw hlive p
    -- The first channel takes the packet, and what is said stays said.
    have hoffered : m.Later (offerAll .full p (n.registry.channels p.recipient) n).2 := by
      have hall := later_rule.offerAll later_rule.full p cs (offerPacket .full p n c).2
      rw [hoffer] at hall
      rw [hcs, offerAll, hoffer]
      exact hall
    have hrest : m.Later (routePacket p n).2 := by
      rw [routePacket, routeWith, if_neg hecho]
      simp only []
      split
      · exact hoffered.trans (later_rule.registry _ _)
      · exact hoffered
    have hsent := (hquiet.channel? c).trans (Node.channel?_modify_of_some hch _)
    exact not_silent_of_said hch hsent (Channel.spoken_say fun g hg => regular_of_mem_sends hg)
      (exists_issue (List.cons_ne_nil p [])) (hrest.trans hlater) (hsilent c)

theorem Node.Replies.issued (h : n.Replies c ch l rest f n') (hch : n.channel? c = some ch)
    (hnone : (l.reply f).2.filter isIssue = []) (c' : ChannelId) : n'.issued c' = n.issued c' := by
  by_cases hc : c' = c
  · subst hc
    obtain ⟨ch', hch', hreplies⟩ := h.self
    rw [issued_eq hch', issued_eq hch, hreplies.spoken, List.filter_append, hnone,
      List.append_nil]
  · rw [Node.issued, Node.issued, h.others c' hc]

/-- If nothing is issued by or after packets that arrive, none of them is for anybody. -/
theorem homeless_of_receivePackets {w : ServerWiring σ} (hch : n.channel? c = some ch)
    (hw : ch.Wired l (serverRest w)) (hlive : ch.Live) (hshown : ch.published = ch.session.phase)
    (hattended : n.Attended) (ps : List Packet) (hlater : (receivePackets c ps n).Later n')
    (hsilent : ∀ c, n'.issued c = n.issued c) : ∀ p ∈ ps, n.registry.Homeless p := by
  induction ps generalizing n ch l with
  | nil => exact fun _ hp => nomatch hp
  | cons p ps ih =>
    have hstep : receivePackets c (p :: ps) n =
        receivePackets c ps (dispatch c (.packetReceived p) n) := by
      show receivePackets c ps (if n.isClosed c then n else _) = _
      rw [not_isClosed_of_live hch hlive hshown, if_neg Bool.false_ne_true]
    rw [hstep] at hlater
    obtain ⟨m, hquiet, heq⟩ := server_packetReceived hch hw p
    have hheard := replies_heard hch hw p
    have hissued : ∀ c, m.issued c = n.issued c := by
      intro c'
      rw [Node.issued, hquiet.channel?]
      exact hheard.issued hch rfl c'
    have hattended' : m.Attended := by
      intro a c' hc'
      rw [hquiet.registry] at hc'
      obtain ⟨ch', l', rest', hch', hrest⟩ := hheard.attended hch hlive hattended a c' hc'
      exact ⟨ch', l', rest', (hquiet.channel? c').trans hch', hrest⟩
    have hhome : n.registry.Homeless p := by
      have hrouted := later_rule.telling.receivePackets c ps (dispatch c (.packetReceived p) n)
      have hhome' := homeless_of_silent (p := p) hattended'
        (heq ▸ hrouted.trans hlater) fun c' => (hsilent c').trans (hissued c').symm
      rw [Registry.Homeless, hquiet.registry, hheard.attached] at hhome'
      exact hhome'
    have hreplies := server_replies_packet hch hw hhome
    obtain ⟨ch', hch', hself⟩ := hreplies.self
    have hshown' : ch'.published = ch'.session.phase := by
      rw [hself.published, hshown, hself.session]
    have hrest := ih hch' hself.wired (hself.live hlive) hshown'
      (hreplies.attended hch hlive hattended) hlater
      fun c' => (hsilent c').trans (hreplies.issued hch rfl c').symm
    intro q hq
    obtain rfl | hq := List.mem_cons.1 hq
    · exact hhome
    · have hhome' := hrest q hq
      rw [Registry.Homeless, hreplies.attached] at hhome'
      exact hhome'

/-! ## Fetches -/

/-- If a fetch makes nothing be issued, the ledger had nothing to send again. -/
theorem settled_fetch {y : Action σ Unit} (hch : n.channel? c = some ch) (hw : ch.Wired l rest)
    (hlive : ch.Live) (hy : Moves Node.Later y)
    (hsilent : (settled .full c (do settleLedger c 2 l.flush.1 l.flush.2; y) n).issued c =
      n.issued c) : settled .full c (do settleLedger c 2 l.flush.1 l.flush.2; y) n =
        settled .full c y n := by
  cases hbuffer : l.buffer.isEmpty with
  | true => exact settled_bind_ok (apply_flush_of_empty hch hw hbuffer)
  | false =>
    exfalso
    rw [settled_bind_ok (apply_flush hch hlive hbuffer)] at hsilent
    have hspoken : (ch.resent l).spoken =
        ch.spoken ++ (sends l.unacknowledged ++ [.requestAcknowledgment]) := by
      rw [Channel.resent, Channel.spoken_say (regular_singleton regular_requestAcknowledgment),
        Channel.spoken_say fun f hf => regular_of_mem_sends hf, List.append_assoc]
      rfl
    exact not_silent_of_said hch (Node.channel?_modify_of_some hch _) hspoken
      ⟨_, List.mem_append_right _ (List.mem_singleton_self _), rfl⟩
      (later_rule.settled later_rule.full c hy _) hsilent

theorem client_replies_fetch {w : ClientWiring} (hch : n.channel? c = some ch)
    (hw : ch.Wired l (clientRest w)) (hlive : ch.Live)
    (hsilent : (dispatch c .fetchRequested n).issued c = n.issued c) :
    n.Replies c ch l (clientRest w) .fetch (dispatch c .fetchRequested n) := by
  have hnote := quiet_note_event n c (e := .fetchRequested) fun _ h => nomatch h
  have hnoted := (hnote.channel? c).trans hch
  rw [dispatch, dispatchWith_eq later_rule.full ⟨ch, hch, hw⟩, client_reaction_fetchRequested]
    at hsilent ⊢
  rw [← bind_pure_unit (x := settleLedger c 2 l.flush.1 l.flush.2)] at hsilent ⊢
  have hissued : (n.note c .eventLog (.event .fetchRequested)).issued c = n.issued c := by
    rw [Node.issued, hnoted, Node.issued, hch]
  rw [settled_fetch hnoted hw hlive (later_rule.pure ()) (hsilent.trans hissued.symm)]
  have hquiet : Quiet (n.modify c fun _ => ch) (n.note c .eventLog (.event .fetchRequested)) := by
    rw [Node.modify_const_self n c hch]
    exact hnote
  exact .of_quiet hch hquiet ⟨rfl, rfl, rfl, hw, (List.append_nil _).symm⟩

/-- A live channel sends what waits for its identity. -/
theorem flushMailbox_sends (hch : n.channel? c = some ch) (hw : ch.Wired l rest) (hlive : ch.Live)
    (ha : ch.session.identity = some a) (hsome : n.registry.waiting a ≠ []) :
    ∃ (m : Node σ) (ch' : Channel σ), m.channel? c = some ch' ∧
      ch'.spoken = ch.spoken ++ sends (n.registry.waiting a) ∧
      m.Later ((flushMailbox .full c).apply n).2 := by
  obtain ⟨m, -, hquiet, happly⟩ := apply_flushMailbox_of_live hch ha hw hlive hsome
  refine ⟨m, _, (hquiet.channel? c).trans (Node.channel?_modify_of_some hch _),
    Channel.spoken_say fun f hf => regular_of_mem_sends hf, ?_⟩
  rw [happly]
  exact later_rule.writeFrame c _ m

theorem server_replies_fetch {w : ServerWiring σ} (hch : n.channel? c = some ch)
    (hw : ch.Wired l (serverRest w)) (hlive : ch.Live) (ha : ch.session.identity = some a)
    (hsilent : (dispatch c .fetchRequested n).issued c = n.issued c) :
    n.Replies c ch l (serverRest w) .fetch (dispatch c .fetchRequested n) := by
  have hnote := quiet_note_event n c (e := .fetchRequested) fun _ h => nomatch h
  have hnoted := (hnote.channel? c).trans hch
  have hissued : (n.note c .eventLog (.event .fetchRequested)).issued c = n.issued c := by
    rw [Node.issued, hnoted, Node.issued, hch]
  have hmailbox : Moves Node.Later (flushMailbox .full c : Action σ Unit) :=
    later_rule.flushMailbox later_rule.full c
  rw [dispatch, dispatchWith_eq later_rule.full ⟨ch, hch, hw⟩, reaction_fetchRequested,
    ← hissued] at hsilent
  have hsettled := settled_fetch hnoted hw hlive hmailbox hsilent
  rw [hsettled] at hsilent
  rw [dispatch, dispatchWith_eq later_rule.full ⟨ch, hch, hw⟩, reaction_fetchRequested, hsettled]
  generalize n.note c .eventLog (.event .fetchRequested) = m at hnote hnoted hsilent ⊢
  by_cases hnone : m.registry.waiting a = []
  · rw [settled, apply_flushMailbox_of_empty hnoted ha hnone]
    refine ⟨⟨ch, hnoted, rfl, rfl, rfl, hw, (List.append_nil _).symm⟩,
      fun c' _ => hnote.channel? c', fun a' => ?_⟩
    rw [← hnote.registry]
    exact Registry.channels_setWaiting []
  · exfalso
    obtain ⟨m', ch', hch', hspoken, hlater⟩ := flushMailbox_sends hnoted hw hlive ha hnone
    have hraised : ((flushMailbox .full c).apply m).2.Later
        (settled .full c (flushMailbox .full c) m) := by
      rw [settled]
      split
      · rename_i heq
        rw [heq]
        exact .refl _
      · rename_i heq
        rw [heq]
        exact later_rule.raiseWith later_rule.full c _ _
    exact not_silent_of_said hnoted hch' hspoken (exists_issue hnone) (hlater.trans hraised)
      hsilent

end Courier
