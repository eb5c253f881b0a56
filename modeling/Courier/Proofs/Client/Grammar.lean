import Courier.Proofs.Client.Run

/-! # The grammar of what a client says

Besides traffic, a client says the header, ATTACH, AUTHENTICATE and FETCH, each once at most and in
this order, and may then part. How far it has come is read off the phase of its session
(`Uttered`), and whatever its peer does, every act keeps this (`Uttered.utters`). The credential is
shown to a peer that gives a session to a client that is attached, and to nobody else
(`client_speaks_grammatically`).
-/
set_option autoImplicit false

namespace Courier

open Courier.Wire Courier.Wire.Frame Courier.Routing

variable {σ : Type} {n n' : Node σ} {c : ChannelId} {ch ch' : Channel σ} {l : Ledger}
  {w : ClientWiring} {a : ClientAct}

/-! ## What is said -/

/-- What a client says to be let in and to have its mailbox, in order. -/
def ClientWiring.introduction (w : ClientWiring) : List Outbound :=
  [.bytes Header.bytes, .bytes (layouts [.attach w.address]),
    .bytes (layouts [.authenticate w.credential]), .bytes (layouts [.fetch])]

/-- The packets that a ledger holds, and a request to acknowledge them. -/
def Ledger.again (l : Ledger) : List Outbound :=
  [.bytes (layouts (sends l.unacknowledged)), .bytes (layouts [.requestAcknowledgment])]

/-- The traffic that an act may bring about: the acknowledgment that the peer asks for, packets that
are sent again, and what the application sends. The application may send at any time. -/
def ClientAct.traffic (l : Ledger) : ClientAct → List Outbound
  | receive .requestAcknowledgment => [.bytes (layouts [.acknowledge l.received])]
  | receive .fetch | receive (.acknowledge _) => l.again
  | send ps => [.bytes (layouts (sends ps))]
  | ask => [.bytes (layouts [.requestAcknowledgment])]
  | resume saved =>
    match Ledger.restore saved with
    | .ok (some kept) => kept.again
    | _ => []
  | _ => []

def ClientEntry.isTraffic (e : ClientEntry) : Bool :=
  match e.act with
  | some a => e.items = a.traffic e.ledger
  | none => false

/-- What an act queued, if it is no traffic. -/
def ClientEntry.formal (e : ClientEntry) : List Outbound := if e.isTraffic then [] else e.items

/-- Everything that was ever queued, but for traffic. -/
def ClientRun.formal (r : ClientRun σ) : List Outbound := r.log.flatMap ClientEntry.formal

/-- Everything that was ever queued. -/
def ClientRun.said (r : ClientRun σ) : List Outbound := r.log.flatMap (·.items)

/-! ## By outcome -/

/-- What an act queues on a client's channel, and what it does to the session. -/
inductive Channel.Utters (w : ClientWiring) (l : Ledger) (ch : Channel σ) :
    ClientAct → List Outbound → Channel σ → Prop where
  | nothing {a : ClientAct} {ch' : Channel σ} (hsession : ch'.session = ch.session) :
      Utters w l ch a [] ch'
  | traffic {a : ClientAct} {ch' : Channel σ} (hopen : ch.session.isClosed = false)
      (hsession : ch'.session = ch.session) : Utters w l ch a (a.traffic l) ch'
  | presents {id : SessionId} {ch' : Channel σ} (hphase : ch.session.phase = .attached)
      (hphase' : ch'.session.phase = .authenticated) :
      Utters w l ch (.receive (.session (some id)))
        [.bytes (layouts [.authenticate w.credential])] ch'
  | fetches {a : Address} {ch' : Channel σ} (hphase : ch.session.phase = .authenticated)
      (hphase' : ch'.session.phase = .identified) :
      Utters w l ch (.receive (.identify (some a))) [.bytes (layouts [.fetch])] ch'
  | parts {a : ClientAct} {last : List Outbound} {ch' : Channel σ} (hlast : last ∈ lastWords)
      (hphase' : ch'.session.phase = .closed)
      (hdead : ch.session.phase = .closed → last = []) : Utters w l ch a last ch'

/-- The second has these items more in its queue, or its queue was taken. -/
def Channel.Queues (ch : Channel σ) (items : List Outbound) (ch' : Channel σ) : Prop :=
  ch'.queue.toList = ch.queue.toList ++ items ∨ ch'.queue = .empty ∧ items = []

theorem Channel.Queues.newlyQueued {items : List Outbound} (h : ch.Queues items ch')
    (hch : n.channel? c = some ch) (hch' : n'.channel? c = some ch') :
    newlyQueued n n' c = items := by
  obtain hqueue | ⟨hempty, rfl⟩ := h
  · exact Logged.newlyQueued_eq hch hch' hqueue
  · exact Logged.newlyQueued_of_empty hch' hempty

theorem Channel.Parts.utters {before : Channel σ} (h : before.Parts ch')
    (hsession : before.session = ch.session) (hqueue : before.queue = ch.queue) :
    ∃ items, ch.Utters w l a items ch' ∧ ch.Queues items ch' := by
  obtain ⟨last, hlast, hqueue', hdead⟩ := h.queue
  rw [hqueue] at hqueue'
  refine ⟨last, .parts hlast (by rw [h.session]; rfl) fun hclosed => hdead ?_, .inl hqueue'⟩
  rw [hsession, Session.isClosed, hclosed]
  rfl

/-- A fault that refuses nobody, raised on a channel that has queued nothing more by then. -/
theorem Channel.utters_failed {before : Channel σ} {f : Fault} (hqueue : before.queue = ch.queue)
    (hopen : ch.session.isClosed = true → before.session.isClosed = true)
    (hf : before.Live → refusal? f = none) :
    ∃ items, ch.Utters w l a items (before.failed f) ∧ ch.Queues items (before.failed f) := by
  obtain ⟨-, hsession, last, hlast, hqueue', hdead⟩ := Channel.parts_failed hf
  rw [hqueue] at hqueue'
  refine ⟨last, .parts hlast (by rw [hsession]; rfl) fun hclosed => hdead (hopen ?_), .inl hqueue'⟩
  rw [Session.isClosed, hclosed]
  rfl

theorem Channel.Presents.utters {id : SessionId} (h : ch.Presents w id ch') :
    ∃ items, ch.Utters w l (.receive (.session (some id))) items ch' ∧ ch.Queues items ch' := by
  cases h with
  | untimely => exact Channel.utters_failed rfl (fun hclosed => hclosed) fun _ => rfl
  | mute hestablish hmute =>
    have hopen := (Session.Step.establish id _ hestablish).isOpen
    refine Channel.utters_failed rfl (fun hclosed => ?_) fun hlive =>
      absurd ⟨hopen, hlive.writer⟩ hmute
    rw [hopen] at hclosed
    cases hclosed
  | presented hlive hestablish hauthenticate =>
    obtain ⟨hphase, -⟩ := Session.establish_eq_ok_iff.1 hestablish
    obtain ⟨-, rfl⟩ := Session.authenticate_eq_ok_iff.1 hauthenticate
    exact ⟨_, .presents hphase rfl, .inl (Backlog.toList_push _ _)⟩

theorem Channel.Fetches.utters {address : Address} (h : ch.Fetches address ch') :
    ∃ items, ch.Utters w l (.receive (.identify (some address))) items ch' ∧
      ch.Queues items ch' := by
  cases h with
  | untimely => exact Channel.utters_failed rfl (fun hclosed => hclosed) fun _ => rfl
  | mute hidentify hmute =>
    have hopen := (Session.Step.identify address _ hidentify).isOpen
    refine Channel.utters_failed rfl (fun hclosed => ?_) fun hlive =>
      absurd ⟨hopen, hlive.writer⟩ hmute
    rw [hopen] at hclosed
    cases hclosed
  | fetched hlive hidentify =>
    obtain ⟨hphase, rfl, -⟩ := Session.identify_eq_ok_iff.1 hidentify
    exact ⟨_, .fetches hphase rfl, .inl (Backlog.toList_push _ _)⟩

/-- Every outcome of an act, by what it says. -/
theorem Channel.Outcome.utters (h : ch.Outcome w l a ch') :
    ∃ items, ch.Utters w l a items ch' ∧ ch.Queues items ch' := by
  have htwice : ∀ first second : ByteArray,
      ((ch.queue.push (.bytes first)).push (.bytes second)).toList =
        ch.queue.toList ++ [.bytes first, .bytes second] := by
    intro first second
    rw [Backlog.toList_push, Backlog.toList_push, List.append_assoc]
    rfl
  cases h with
  | counts l' => exact ⟨[], .nothing rfl, .inl (List.append_nil _).symm⟩
  | clears => exact ⟨[], .nothing rfl, .inl (List.append_nil _).symm⟩
  | presents h => exact h.utters
  | fetches h => exact h.utters
  | answers hlive | asks hlive | sends hlive =>
    exact ⟨_, .traffic hlive.isOpen rfl, .inl (Backlog.toList_push _ _)⟩
  | resends hf hlive =>
    refine ⟨_, .traffic hlive.isOpen rfl, .inl ?_⟩
    obtain rfl | ⟨count, rfl⟩ := hf <;> exact htwice _ _
  | resumes hkept hlive =>
    refine ⟨_, .traffic hlive.isOpen rfl, .inl ?_⟩
    rw [ClientAct.traffic, hkept]
    exact htwice _ _
  | parts l' hkept h => exact h.utters rfl rfl
  | empties | drops => exact ⟨[], .nothing rfl, .inr ⟨rfl, rfl⟩⟩

/-! ## How far the introduction has come -/

/-- How much of its introduction a client has said that is in this phase. -/
def introduced : Phase → Option Nat
  | .attached => some 2
  | .authenticated => some 3
  | .identified => some 4
  | _ => none

/-- What was said but for traffic, and all that was said, up to a phase of the session: so much of
the introduction as belongs to the phase, or any of it and behind it the last word. -/
inductive Uttered (w : ClientWiring) : Phase → List Outbound → List Outbound → Prop where
  | going {phase : Phase} {k : Nat} (h : introduced phase = some k) (said : List Outbound) :
      Uttered w phase (w.introduction.take k) said
  | parted {last said : List Outbound} (k : Nat) (hlast : last ∈ lastWords) (hend : last <:+ said) :
      Uttered w .closed (w.introduction.take k ++ last) said

/-- Every act keeps to the introduction. -/
theorem Uttered.utters {formal said items : List Outbound}
    (h : Uttered w ch.session.phase formal said) (hutters : ch.Utters w l a items ch') :
    Uttered w ch'.session.phase
      (formal ++ ClientEntry.formal ⟨some a, ch.session.phase, l, items⟩) (said ++ items) := by
  cases hutters with
  | nothing hsession =>
    rw [hsession, ClientEntry.formal, ite_self, List.append_nil, List.append_nil]
    exact h
  | traffic hopen hsession =>
    have htraffic : ClientEntry.isTraffic ⟨some a, ch.session.phase, l, a.traffic l⟩ = true :=
      decide_eq_true rfl
    rw [hsession, ClientEntry.formal, if_pos htraffic, List.append_nil]
    generalize hphase : ch.session.phase = phase at h
    cases h with
    | going hk => exact .going hk _
    | parted =>
      rw [Session.isClosed, hphase] at hopen
      cases hopen
  | presents hphase hphase' =>
    rw [hphase] at h
    rw [hphase']
    cases h with
    | going hk =>
      cases hk
      exact .going (k := 3) rfl _
  | fetches hphase hphase' =>
    rw [hphase] at h
    rw [hphase']
    cases h with
    | going hk =>
      cases hk
      exact .going (k := 4) rfl _
  | parts hlast hphase' hdead =>
    rw [hphase']
    generalize hphase : ch.session.phase = phase at h
    cases h with
    | @going _ k hk =>
      -- An act that is traffic can end the channel without a word.
      rw [ClientEntry.formal]
      split
      · exact .parted k (by simp [lastWords]) List.nil_suffix
      · exact .parted k hlast (List.suffix_append _ _)
    | parted k hlast' hend =>
      -- The channel is closed already, and there is no second last word.
      rw [hdead hphase, ClientEntry.formal, ite_self, List.append_nil, List.append_nil]
      exact .parted k hlast' hend

/-! ## What is never said otherwise -/

/-- The credential is the client's own and is shown for a session that is given to it while it is
attached, and the mailbox is fetched for an identity that is given to it once it was shown. -/
structure ClientEntry.Due (w : ClientWiring) (e : ClientEntry) : Prop where
  credential : ∀ credential, .authenticate credential ∈ framesOf e.items →
    credential = w.credential ∧ e.phase = .attached ∧
      ∃ id, e.act = some (.receive (.session (some id)))
  fetch : .fetch ∈ framesOf e.items → e.phase = .authenticated ∧
    ∃ identity, e.act = some (.receive (.identify (some identity)))

/-- A frame that shows no credential and fetches nothing. -/
def Wire.Frame.Harmless : Frame → Prop
  | .authenticate _ | .fetch => False
  | _ => True

theorem ClientEntry.due_of_harmless {e : ClientEntry} (h : ∀ f ∈ framesOf e.items, f.Harmless) :
    e.Due w :=
  ⟨fun _ hf => (h _ hf).elim, fun hf => (h _ hf).elim⟩

theorem harmless_sends (ps : List Packet) :
    ∀ f ∈ framesOf [.bytes (layouts (sends ps))], f.Harmless := by
  rw [framesOf_layouts fun f hf => regular_of_mem_sends hf]
  intro f hf
  obtain ⟨run, -, rfl⟩ := List.mem_map.1 hf
  trivial

theorem harmless_one {f : Frame} (hregular : f.Regular) (h : f.Harmless) :
    ∀ g ∈ framesOf [.bytes (layouts [f])], g.Harmless := by
  rw [framesOf_layouts (regular_singleton hregular)]
  intro g hg
  rw [List.mem_singleton.1 hg]
  exact h

theorem Ledger.harmless_again (l : Ledger) : ∀ f ∈ framesOf l.again, f.Harmless := by
  have hsplit : l.again = [.bytes (layouts (sends l.unacknowledged))] ++
      [.bytes (layouts [.requestAcknowledgment])] := rfl
  rw [hsplit, framesOf_append]
  intro f hf
  obtain hf | hf := List.mem_append.1 hf
  · exact harmless_sends _ f hf
  · exact harmless_one regular_requestAcknowledgment trivial f hf

theorem ClientAct.harmless_traffic (l : Ledger) (a : ClientAct) :
    ∀ f ∈ framesOf (a.traffic l), f.Harmless := by
  have hnothing : ∀ f ∈ framesOf [], f.Harmless := fun f hf => nomatch hf
  cases a with
  | receive f =>
    cases f with
    | requestAcknowledgment => exact harmless_one (regular_acknowledge _) trivial
    | fetch | acknowledge => exact l.harmless_again
    | _ => exact hnothing
  | send ps => exact harmless_sends ps
  | ask => exact harmless_one regular_requestAcknowledgment trivial
  | resume saved =>
    rw [traffic]
    split
    · exact Ledger.harmless_again _
    · exact hnothing
  | _ => exact hnothing

theorem harmless_lastWords {last : List Outbound} (h : last ∈ lastWords) :
    ∀ f ∈ framesOf last, f.Harmless := by
  have hgoodbye : framesOf [Channel.goodbye, .close] = [.detach] := by
    have hbytes : Channel.goodbye = .bytes (layouts [.detach]) := rfl
    have hclose : framesOf [.close] = [] := rfl
    rw [hbytes, ← List.singleton_append, framesOf_append, hclose, List.append_nil]
    exact framesOf_layouts
      (regular_singleton (regular_of_known (fun h => nomatch h) fun _ h => nomatch h))
  intro f hf
  obtain rfl | rfl | rfl : last = [] ∨ last = [.close] ∨ last = [Channel.goodbye, .close] := by
    simpa [lastWords] using h
  · cases hf
  · cases hf
  · rw [hgoodbye] at hf
    rw [List.mem_singleton.1 hf]
    trivial

theorem Channel.Utters.due {items : List Outbound} (h : ch.Utters w l a items ch') :
    ClientEntry.Due w ⟨some a, ch.session.phase, l, items⟩ := by
  cases h with
  | nothing => exact ClientEntry.due_of_harmless fun f hf => nomatch hf
  | traffic => exact ClientEntry.due_of_harmless (a.harmless_traffic l)
  | parts hlast => exact ClientEntry.due_of_harmless (harmless_lastWords hlast)
  | presents hphase =>
    have hframes := framesOf_layouts (regular_singleton (regular_authenticate w.credential))
    refine ⟨fun credential hf => ?_, fun hf => ?_⟩
    · rw [hframes] at hf
      cases List.mem_singleton.1 hf
      exact ⟨rfl, hphase, _, rfl⟩
    · rw [hframes] at hf
      cases List.mem_singleton.1 hf
  | fetches hphase =>
    have hframes := framesOf_layouts (regular_singleton regular_fetch)
    refine ⟨fun credential hf => ?_, fun _ => ⟨hphase, _, rfl⟩⟩
    rw [hframes] at hf
    cases List.mem_singleton.1 hf

/-! ## Every run -/

/-- What holds of a run: the introduction has come as far as the session, and whatever was logged
was due. -/
structure ClientRun.Spoken (w : ClientWiring) (r : ClientRun σ) : Prop where
  channel : ∃ ch l, r.node.channel? r.channel = some ch ∧ ch.IsClient w l ∧
    Uttered w ch.session.phase r.formal r.said
  due : ∀ e ∈ r.log, e.Due w

theorem ClientRun.spoken_opened (n : Node σ) (w : ClientWiring) (listeners : List Listener)
    (now : Nat) : (ClientRun.opened n w listeners now).Spoken w := by
  obtain ⟨ch, l, hch, hclient, hphase, hlog⟩ := client_opened n w listeners now
  generalize ClientRun.opened n w listeners now = r at hch hlog
  refine ⟨⟨ch, l, hch, hclient, ?_⟩, ?_⟩
  · have hformal : r.formal = w.introduction.take 2 := by
      rw [ClientRun.formal, hlog, List.flatMap_singleton]
      rfl
    rw [hformal, hphase]
    exact .going rfl _
  · rw [hlog]
    intro e he
    rw [List.mem_singleton.1 he]
    apply ClientEntry.due_of_harmless
    have hheader : framesOf [.bytes Header.bytes, .bytes (layouts [.attach w.address])] =
        framesOf [.bytes (layouts [.attach w.address])] := by
      rw [← List.singleton_append, framesOf_append, framesOf_header, List.nil_append]
    intro f hf
    rw [hheader] at hf
    exact harmless_one (regular_attach w.address) trivial f hf

theorem ClientRun.Spoken.step {r : ClientRun σ} (h : r.Spoken w) (a : ClientAct) :
    (r.step a).Spoken w := by
  obtain ⟨⟨ch, l, hch, hclient, huttered⟩, hdue⟩ := h
  obtain ⟨ch', l', houtcome, hch', hclient'⟩ := client_step hclient hch a
  obtain ⟨items, hutters, hqueues⟩ := houtcome.utters
  obtain ⟨rest, -, hw⟩ := hclient.wired
  have hentry : clientEntry r.channel (some a) r.node (a.perform r.channel r.node) =
      ⟨some a, ch.session.phase, l, items⟩ := by
    rw [clientEntry, hqueues.newlyQueued hch hch', Node.phaseAt, Node.ledgerAt, hch, ← hw.ledger_eq]
    rfl
  have hlog : (r.step a).log = r.log ++ [⟨some a, ch.session.phase, l, items⟩] := by
    rw [← hentry]
    rfl
  refine ⟨⟨ch', l', hch', hclient', ?_⟩, ?_⟩
  · rw [ClientRun.formal, ClientRun.said, hlog, List.flatMap_append, List.flatMap_append,
      List.flatMap_singleton, List.flatMap_singleton]
    exact huttered.utters hutters
  · rw [hlog]
    intro e he
    obtain he | he := List.mem_append.1 he
    · exact hdue e he
    · rw [List.mem_singleton.1 he]
      exact hutters.due

/-- Whatever a client's peer sends, and whatever else happens on the connection: but for traffic,
what is queued is a beginning of the introduction, and behind it at most a last word, behind which
nothing is queued. The credential is shown while the client handles a session that is given to it
in the phase `attached`, and the mailbox fetched while it handles an identity that is given to it in
the phase `authenticated`. -/
theorem client_speaks_grammatically (n : Node σ) (w : ClientWiring) (listeners : List Listener)
    (now : Nat) (acts : List ClientAct) :
    let r := clientRun n w listeners now acts
    (∃ said last, said <+: w.introduction ∧ last ∈ lastWords ∧ r.formal = said ++ last ∧
      last <:+ r.said) ∧
    (∀ e ∈ r.log, ∀ credential, .authenticate credential ∈ framesOf e.items →
      credential = w.credential ∧ e.phase = .attached ∧
        ∃ id, e.act = some (.receive (.session (some id)))) ∧
    ∀ e ∈ r.log, .fetch ∈ framesOf e.items → e.phase = .authenticated ∧
      ∃ identity, e.act = some (.receive (.identify (some identity))) := by
  have hspoken := clientRun_keeps (ClientRun.spoken_opened n w listeners now)
    (fun r a h => h.step a) acts
  intro r
  refine ⟨?_, fun e he => (hspoken.due e he).credential, fun e he => (hspoken.due e he).fetch⟩
  obtain ⟨ch, -, -, -, huttered⟩ := hspoken.channel
  change Uttered w _ r.formal r.said at huttered
  generalize r.formal = formal at huttered ⊢
  generalize ch.session.phase = phase at huttered
  cases huttered with
  | @going _ k hk =>
    exact ⟨_, [], List.take_prefix k _, by simp [lastWords], (List.append_nil _).symm,
      List.nil_suffix⟩
  | parted k hlast hend => exact ⟨_, _, List.take_prefix k _, hlast, rfl, hend⟩

end Courier
