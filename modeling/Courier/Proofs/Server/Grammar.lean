import Courier.Proofs.Server.Handshake
import Courier.Proofs.Server.Run

/-! # The grammar of what a server says

How far a server has come in its handshake decides what it may say next (`Stage.next`). Whatever
arrives on a channel, and whatever happens on the others, the frames that were ever queued on it
lead through these stages (`Told.host`, `ServerRun.spoken_run`). So there is one SESSION before one
IDENTIFY before all that is delivered, and nothing is said after goodbye
(`server_speaks_grammatically`).
-/
set_option autoImplicit false

namespace Courier

open Courier.Wire Courier.Wire.Frame Courier.Routing

variable {σ : Type} {n n' : Node σ} {c : ChannelId} {ch ch' : Channel σ}

/-! ## Stages -/

/-- What a frame is to the grammar. -/
inductive Word where
  | welcome
  | naming
  | refusal
  | delivery
  | receipt
  | goodbye
  /-- What a server never says. -/
  | foreign
deriving DecidableEq

def Wire.Frame.word : Frame → Word
  | .session (some _) => .welcome
  | .identify (some _) => .naming
  | .session none | .identify none => .refusal
  | .send _ | .requestAcknowledgment => .delivery
  | .acknowledge _ => .receipt
  | .detach => .goodbye
  | .attach _ | .authenticate _ | .fetch | .unknown _ => .foreign

/-- How far a server has come in what it says. -/
inductive Stage where
  | fresh
  | established
  | identified
  | refused
  | ended
deriving DecidableEq

namespace Stage

/-- The stage that a word leads to, if it may be said. -/
def next : Stage → Word → Option Stage
  | .fresh, .welcome => some .established
  | .established, .naming => some .identified
  | .identified, .delivery => some .identified
  | .fresh, .receipt => some .fresh
  | .established, .receipt => some .established
  | .identified, .receipt => some .identified
  | .fresh, .refusal | .established, .refusal | .identified, .refusal => some .refused
  | .fresh, .goodbye | .established, .goodbye | .identified, .goodbye => some .ended
  | .refused, .goodbye => some .ended
  | _, _ => none

def run (g : Stage) (fs : List Frame) : Option Stage := fs.foldlM (fun g f => g.next f.word) g

variable {g g' : Stage} {fs gs : List Frame} {f : Frame}

theorem run_cons : g.run (f :: fs) = some g' ↔
    ∃ g₁, g.next f.word = some g₁ ∧ g₁.run fs = some g' := by
  rw [run, List.foldlM_cons]
  exact Option.bind_eq_some_iff

theorem run_append : g.run (fs ++ gs) = some g' ↔
    ∃ g₁, g.run fs = some g₁ ∧ g₁.run gs = some g' := by
  rw [run, List.foldlM_append]
  exact Option.bind_eq_some_iff

theorem run_concat (h : g.run fs = some g') : g.run (fs ++ [f]) = g'.next f.word := by
  have hlast : g'.run [f] = g'.next f.word := bind_pure (g'.next f.word)
  rw [run] at h
  rw [run, List.foldlM_append, h]
  exact hlast

theorem run_split {before after : List Frame} (h : g.run (before ++ f :: after) = some g') :
    ∃ g₁ g₂, g.run before = some g₁ ∧ g₁.next f.word = some g₂ ∧ g₂.run after = some g' := by
  obtain ⟨g₁, hbefore, hrest⟩ := run_append.1 h
  obtain ⟨g₂, hf, hafter⟩ := run_cons.1 hrest
  exact ⟨g₁, g₂, hbefore, hf, hafter⟩

/-- A word that always leads up, where no word leads down, is said as often as there are levels. -/
theorem countP_le {w : Word} (level : Stage → Nat)
    (hlevel : ∀ {g v g'}, g.next v = some g' → (if v = w then 1 else 0) + level g ≤ level g')
    (h : g.run fs = some g') : fs.countP (·.word = w) + level g ≤ level g' := by
  induction fs generalizing g with
  | nil =>
    cases h
    simp
  | cons f fs ih =>
    obtain ⟨g₁, hf, hrest⟩ := run_cons.1 h
    have hfirst := hlevel hf
    have hmore := ih hrest
    rw [List.countP_cons]
    simp only [decide_eq_true_eq]
    omega

/-- A stage that only one word leads to is reached by that word. -/
theorem exists_of_run {w : Word} {goal : Stage}
    (hgoal : ∀ g v, g.next v = some goal → g = goal ∨ v = w) (h : g.run fs = some goal) :
    g = goal ∨ ∃ f ∈ fs, f.word = w := by
  induction fs generalizing g with
  | nil =>
    cases h
    exact .inl rfl
  | cons f fs ih =>
    obtain ⟨g₁, hf, hrest⟩ := run_cons.1 h
    obtain rfl | ⟨f', hmem, hword⟩ := ih hrest
    · exact (hgoal g f.word hf).imp id fun hword => ⟨f, List.mem_cons_self .., hword⟩
    · exact .inr ⟨f', List.mem_cons_of_mem _ hmem, hword⟩

theorem eq_nil_of_run_ended (h : ended.run fs = some g') : fs = [] := by
  cases fs with
  | nil => rfl
  | cons f fs =>
    obtain ⟨g₁, hf, -⟩ := run_cons.1 h
    cases f.word <;> cases hf

theorem eq_detach_of_run_refused (h : refused.run fs = some g') (hg : g' ≠ .refused) :
    fs = [.detach] := by
  cases fs with
  | nil =>
    cases h
    exact absurd rfl hg
  | cons f fs =>
    obtain ⟨g₁, hf, hrest⟩ := run_cons.1 h
    obtain ⟨rfl, rfl⟩ : f = .detach ∧ g₁ = .ended := by
      cases f with
      | detach => exact ⟨rfl, (Option.some.inj hf).symm⟩
      | session id => cases id <;> cases hf
      | identify a => cases a <;> cases hf
      | _ => cases hf
    rw [eq_nil_of_run_ended hrest]

end Stage

/-! ## The grammar -/

/-- What a server may say on one connection. -/
structure Grammatical (fs : List Frame) : Prop where
  /-- At most one SESSION is accepted, one IDENTIFY, and at most one of them is empty. -/
  session : fs.countP (·.word = .welcome) ≤ 1
  identify : fs.countP (·.word = .naming) ≤ 1
  refusal : fs.countP (·.word = .refusal) ≤ 1
  session_first : ∀ before a after, fs = before ++ .identify (some a) :: after →
    ∃ id, .session (some id) ∈ before
  identify_first : ∀ before f after, fs = before ++ f :: after → f.IsDelivery →
    ∃ a, .identify (some a) ∈ before
  refusal_last : ∀ before f after, fs = before ++ f :: after →
    f = .session none ∨ f = .identify none → after = [.detach]
  detach_last : ∀ before after, fs = before ++ .detach :: after → after = []

theorem word_eq_welcome {f : Frame} (h : f.word = .welcome) : ∃ id, f = .session (some id) := by
  cases f with
  | session id =>
    cases id with
    | none => cases h
    | some id => exact ⟨id, rfl⟩
  | identify a => cases a <;> cases h
  | _ => cases h

theorem word_eq_naming {f : Frame} (h : f.word = .naming) : ∃ a, f = .identify (some a) := by
  cases f with
  | identify a =>
    cases a with
    | none => cases h
    | some a => exact ⟨a, rfl⟩
  | session id => cases id <;> cases h
  | _ => cases h

theorem Wire.Frame.IsDelivery.word {f : Frame} (h : f.IsDelivery) : f.word = .delivery := by
  cases f with
  | send | requestAcknowledgment => rfl
  | _ => cases h

namespace Stage

def welcomed : Stage → Nat
  | fresh => 0
  | _ => 1

def named : Stage → Nat
  | fresh | established => 0
  | _ => 1

def parted : Stage → Nat
  | refused | ended => 1
  | _ => 0

variable {g g' : Stage} {v : Word} {fs : List Frame}

theorem welcomed_next (h : g.next v = some g') :
    (if v = .welcome then 1 else 0) + g.welcomed ≤ g'.welcomed := by
  cases g <;> cases v <;> cases h <;> decide

theorem named_next (h : g.next v = some g') :
    (if v = .naming then 1 else 0) + g.named ≤ g'.named := by
  cases g <;> cases v <;> cases h <;> decide

theorem parted_next (h : g.next v = some g') :
    (if v = .refusal then 1 else 0) + g.parted ≤ g'.parted := by
  cases g <;> cases v <;> cases h <;> decide

theorem established_next (h : g.next v = some .established) : g = .established ∨ v = .welcome := by
  cases g <;> cases v <;> cases h <;> decide

theorem identified_next (h : g.next v = some .identified) : g = .identified ∨ v = .naming := by
  cases g <;> cases v <;> cases h <;> decide

theorem next_naming (h : g.next .naming = some g') : g = .established := by
  cases g with
  | established => rfl
  | _ => cases h

theorem next_delivery (h : g.next .delivery = some g') : g = .identified := by
  cases g with
  | identified => rfl
  | _ => cases h

theorem next_refusal (h : g.next .refusal = some g') : g' = .refused := by
  cases g <;> cases h <;> rfl

theorem next_goodbye (h : g.next .goodbye = some g') : g' = .ended := by
  cases g <;> cases h <;> rfl

theorem grammatical (h : fresh.run fs = some g) (hg : g ≠ .refused) : Grammatical fs where
  session := by
    have hcount := countP_le welcomed welcomed_next h
    have hone : g.welcomed ≤ 1 := by cases g <;> decide
    omega
  identify := by
    have hcount := countP_le named named_next h
    have hone : g.named ≤ 1 := by cases g <;> decide
    omega
  refusal := by
    have hcount := countP_le parted parted_next h
    have hone : g.parted ≤ 1 := by cases g <;> decide
    omega
  session_first := by
    rintro before a after rfl
    obtain ⟨g₁, g₂, hbefore, hf, -⟩ := run_split h
    obtain rfl := next_naming hf
    obtain heq | ⟨f, hmem, hword⟩ := exists_of_run (fun _ _ => established_next) hbefore
    · cases heq
    · obtain ⟨id, rfl⟩ := word_eq_welcome hword
      exact ⟨id, hmem⟩
  identify_first := by
    rintro before f after rfl hdelivery
    obtain ⟨g₁, g₂, hbefore, hf, -⟩ := run_split h
    rw [hdelivery.word] at hf
    obtain rfl := next_delivery hf
    obtain heq | ⟨f', hmem, hword⟩ := exists_of_run (fun _ _ => identified_next) hbefore
    · cases heq
    · obtain ⟨a, rfl⟩ := word_eq_naming hword
      exact ⟨a, hmem⟩
  refusal_last := by
    rintro before f after rfl hrefusal
    obtain ⟨g₁, g₂, -, hf, hafter⟩ := run_split h
    have hword : f.word = .refusal := by obtain rfl | rfl := hrefusal <;> rfl
    rw [hword] at hf
    obtain rfl := next_refusal hf
    exact eq_detach_of_run_refused hafter hg
  detach_last := by
    rintro before after rfl
    obtain ⟨g₁, g₂, -, hf, hafter⟩ := run_split h
    obtain rfl := next_goodbye hf
    exact eq_nil_of_run_ended hafter

end Stage

/-! ## What becomes of a channel -/

def Session.stage (t : Session) : Stage :=
  match t.phase with
  | .unconnected | .connected | .attached => .fresh
  | .established | .authenticated => .established
  | .identified => .identified
  | .closed => .ended

/-- What has been said fits the session, as far as it has come. -/
structure Told (t : Session) (said : List Frame) : Prop where
  named : t.identity ≠ none → t.phase = .identified ∨ t.phase = .closed
  stage : ∃ g, Stage.fresh.run said = some g ∧ g ≠ .refused ∧ (t.isClosed = false → g = t.stage)

/-- The steps of a server's session, whatever arrives and whoever is named. -/
abbrev Hosting : Stride := Hosts (fun _ => True) fun _ _ _ => True

namespace Told

variable {t t' : Session} {said fs : List Frame} {f : Frame}

theorem start (w : ServerWiring σ) (now : Nat) : Told (.start .responder now w.timing) [] :=
  ⟨fun hnamed => absurd rfl hnamed, .fresh, rfl, (fun h => nomatch h), fun _ => rfl⟩

theorem grammatical (h : Told t said) : Grammatical said := by
  obtain ⟨g, hrun, hg, -⟩ := h.stage
  exact Stage.grammatical hrun hg

theorem run (h : Told t said) (hopen : t.isClosed = false) :
    Stage.fresh.run said = some t.stage := by
  obtain ⟨g, hrun, -, hstage⟩ := h.stage
  rw [hrun, hstage hopen]

theorem stage_ne_refused (t : Session) : t.stage ≠ .refused := by
  unfold Session.stage
  cases t.phase <;> decide

/-- A step of the session, with the words that lead to its new stage. -/
theorem step (h : Told t said) (hstep : t.Step t')
    (hrun : t.stage.run fs = some t'.stage) : Told t' (said ++ fs) := by
  refine ⟨?_, t'.stage, ?_, stage_ne_refused t', fun _ => rfl⟩
  · intro hnamed
    obtain hkept | hidentified := hstep.identity
    · rw [hkept] at hnamed
      obtain hphase | hphase := h.named hnamed
      · exact absurd hphase hstep.phase.1
      · exact absurd hphase hstep.phase.2
    · exact .inl hidentified
  · exact Stage.run_append.2 ⟨t.stage, h.run hstep.isOpen, hrun⟩

/-- A word that the stage allows, and that leaves it. -/
theorem say (h : Told t said) (hopen : t.isClosed = false)
    (hnext : t.stage.next f.word = some t.stage) : Told t (said ++ [f]) := by
  refine ⟨h.named, t.stage, ?_, stage_ne_refused t, fun _ => rfl⟩
  rw [Stage.run_concat (h.run hopen), hnext]

theorem stage_of_open (hopen : t.isClosed = false) :
    t.stage = .fresh ∨ t.stage = .established ∨ t.stage = .identified := by
  unfold Session.isClosed at hopen
  unfold Session.stage
  cases hphase : t.phase <;> simp_all

theorem part (h : Told t said) (hopen : t.isClosed = false) (hparting : Parting fs) :
    Told t.close (said ++ fs) := by
  have hclosed : t.close.isClosed = true := rfl
  have hend : ∀ g, g ≠ .refused → Stage.fresh.run (said ++ fs) = some g →
      Told t.close (said ++ fs) := by
    intro g hg hrun
    exact ⟨fun _ => .inr rfl, g, hrun, hg, fun h => absurd (hclosed.symm.trans h) Bool.noConfusion⟩
  have hsaid := h.run hopen
  cases hparting with
  | silent =>
    refine hend t.stage (stage_ne_refused t) ?_
    rw [List.append_nil, hsaid]
  | goodbye =>
    refine hend .ended (fun h => nomatch h) ?_
    rw [Stage.run_concat hsaid]
    obtain hs | hs | hs := stage_of_open hopen <;> rw [hs] <;> rfl
  | @refusal fault f hf =>
    refine hend .ended (fun h => nomatch h) (Stage.run_append.2 ⟨t.stage, hsaid, ?_⟩)
    obtain rfl | rfl := refusal?_eq_some hf <;>
      obtain hs | hs | hs := stage_of_open hopen <;> rw [hs] <;> rfl

/-- Traffic is received by whoever is open, and delivered to whoever has an identity. -/
theorem traffic (h : Told t said) (hopen : t.isClosed = false) (htraffic : f.IsTraffic)
    (hdelivery : f.IsDelivery → t.identity ≠ none) (hown : f ≠ .fetch) : Told t (said ++ [f]) := by
  have hdelivered : f.IsDelivery → Told t (said ++ [f]) := by
    intro hf
    have hidentified : t.stage = .identified := by
      obtain hphase | hphase := h.named (hdelivery hf)
      · rw [Session.stage, hphase]
      · simp [Session.isClosed, hphase] at hopen
    refine h.say hopen ?_
    rw [hidentified, hf.word]
    rfl
  cases f with
  | send => exact hdelivered trivial
  | requestAcknowledgment => exact hdelivered trivial
  | acknowledge count =>
    refine h.say hopen ?_
    obtain hs | hs | hs := stage_of_open hopen <;> rw [hs] <;> rfl
  | fetch => exact absurd rfl hown
  | _ => cases htraffic

/-- What is said for a step of the session fits it, if there is somebody to deliver to. -/
theorem host (h : Told t said) (hstep : Hosting t fs t')
    (hfor : ∀ f ∈ fs, (f.IsDelivery → t.identity ≠ none) ∧ f ≠ .fetch) : Told t' (said ++ fs) := by
  cases hstep with
  | speaks hspeaks =>
    cases hspeaks with
    | @say _ f hopen htraffic =>
      obtain ⟨hdelivery, hown⟩ := hfor f (List.mem_singleton.2 rfl)
      exact h.traffic hopen htraffic hdelivery hown
    | part hopen hparting => exact h.part hopen hparting
  | connect hconnect =>
    refine h.step (.connect hconnect) ?_
    obtain ⟨hphase, rfl⟩ := Session.connect_eq_ok_iff.1 hconnect
    simp [Session.stage, hphase, Stage.run]
  | attach heard hattach =>
    refine h.step (.attach _ hattach) ?_
    obtain ⟨hphase, rfl⟩ := Session.attach_eq_ok_iff.1 hattach
    simp [Session.stage, hphase, Stage.run]
  | establish hestablish =>
    refine h.step (.establish _ _ hestablish) ?_
    obtain ⟨hphase, rfl, -⟩ := Session.establish_eq_ok_iff.1 hestablish
    simp [Session.stage, hphase, Stage.run, word, Stage.next]
  | authenticate hauthenticate =>
    refine h.step (.authenticate hauthenticate) ?_
    obtain ⟨hphase, rfl⟩ := Session.authenticate_eq_ok_iff.1 hauthenticate
    simp [Session.stage, hphase, Stage.run]
  | identify heard hrealm hnames hidentify =>
    refine h.step (.identify _ _ hidentify) ?_
    obtain ⟨hphase, rfl, -⟩ := Session.identify_eq_ok_iff.1 hidentify
    simp [Session.stage, hphase, Stage.run, word, Stage.next]

theorem script (h : Told t said) (hscript : Script Hosting t fs t')
    (hfor : ∀ f ∈ fs, f.IsFor t.identity) : Told t' (said ++ fs) := by
  have hkept : ∀ {t₁ gs t₂} (said : List Frame), Hosting.each (·.IsFor t.identity) t₁ gs t₂ →
      Told t₁ said ∧ (t.identity ≠ none → t₁.identity ≠ none) →
      Told t₂ (said ++ gs) ∧ (t.identity ≠ none → t₂.identity ≠ none) := by
    rintro t₁ gs t₂ said ⟨hhosts, hfor⟩ ⟨htold, hnamed⟩
    refine ⟨htold.host hhosts fun f hf => ?_, fun hne => hhosts.named (hnamed hne)⟩
    exact ⟨fun hdelivery => hnamed ((hfor f hf).delivery hdelivery), (hfor f hf).own⟩
  have hend := (hscript.each hfor).keeps
    (P := fun t₁ said => Told t₁ said ∧ (t.identity ≠ none → t₁.identity ≠ none)) hkept
    ⟨h, fun hne => hne⟩
  exact hend.1

end Told

/-! ## What becomes of a server -/

def ServerRun.spoken (r : ServerRun σ) (c : ChannelId) : List Frame :=
  framesOf ((r.log.filter (·.channel = c)).map (·.item))

theorem item_queuedOn (hch : n.channel? c = some ch) (hch' : n'.channel? c = some ch') :
    (queuedOn n n' c).map (·.item) = ch'.queue.toList.drop ch.queue.size := by
  rw [queuedOn, hch, hch', List.map_map]
  exact List.map_id _

theorem queuedOn_of_none (h : n'.channel? c = none) : queuedOn n n' c = [] := by
  simp [queuedOn, h]

theorem filter_queuedOn (n n' : Node σ) (c c' : ChannelId) :
    (queuedOn n n' c').filter (·.channel = c) = if c' = c then queuedOn n n' c else [] := by
  have hchannel : ∀ q ∈ queuedOn n n' c', q.channel = c' := by
    intro q hq
    obtain ⟨x, -, rfl⟩ := List.mem_map.1 hq
    rfl
  split
  · rename_i heq
    rw [← heq, List.filter_eq_self.2 fun q hq => decide_eq_true (hchannel q hq)]
  · rename_i hne
    refine List.filter_eq_nil_iff.2 fun q hq => ?_
    rw [hchannel q hq]
    simpa using hne

/-- Of all that a step queues, what belongs to one channel. -/
theorem filter_queued (n n' : Node σ) (c : ChannelId) :
    (queued n n').filter (·.channel = c) = queuedOn n n' c := by
  have hsome : ∀ k, ((List.range k).flatMap fun i => queuedOn n n' ⟨i⟩).filter (·.channel = c) =
      if c.index < k then queuedOn n n' c else [] := by
    intro k
    induction k with
    | zero => rfl
    | succ k ih =>
      rw [List.range_succ, List.flatMap_append, List.filter_append, ih, List.flatMap_singleton,
        filter_queuedOn]
      obtain hlt | heq | hgt := Nat.lt_trichotomy c.index k
      · have hne : (⟨k⟩ : ChannelId) ≠ c := by
          rintro rfl
          exact Nat.lt_irrefl k hlt
        rw [if_pos hlt, if_neg hne, if_pos (by omega), List.append_nil]
      · have hthis : (⟨k⟩ : ChannelId) = c := by rw [← heq]
        rw [if_neg (by omega), if_pos hthis, if_pos (by omega), List.nil_append]
      · have hne : (⟨k⟩ : ChannelId) ≠ c := by
          rintro rfl
          exact Nat.lt_irrefl k hgt
        rw [if_neg (by omega), if_neg hne, if_neg (by omega), List.append_nil]
  rw [queued, hsome]
  split
  · rfl
  · rename_i hout
    exact (queuedOn_of_none (List.getElem?_eq_none (Nat.le_of_not_lt hout))).symm

/-- Every channel goes on with its script, and what is queued may be queued for its identity;
channels that are new have said nothing. -/
structure Tells (n n' : Node σ) : Prop where
  channel : ∀ c ch, n.channel? c = some ch → ∃ ch', n'.channel? c = some ch' ∧
    Script Hosting ch.session (framesOf ((queuedOn n n' c).map (·.item))) ch'.session ∧
    ∀ f ∈ framesOf ((queuedOn n n' c).map (·.item)), f.IsFor ch.session.identity
  new : ∀ c ch', n'.channel? c = some ch' → n.channel? c = none →
    ch'.queue = .empty ∧ Told ch'.session []

theorem Tells.of_admitted (hadmitted : Admitted n n') (hlater : n.Later n')
    (hplays : n.Plays (fun _ => Hosting) n') : Tells n n' := by
  refine ⟨?_, ?_⟩
  · intro c ch hch
    obtain ⟨ch', hch', items, hqueue, hscript⟩ := hplays c ch hch
    obtain ⟨ch₂, hch₂, items', hqueue', hfor⟩ := hadmitted.channel c ch hch
    rw [hch'] at hch₂
    cases hch₂
    obtain rfl : items' = items := List.append_cancel_left (hqueue'.symm.trans hqueue)
    have hnew : (queuedOn n n' c).map (·.item) = items' := by
      rw [item_queuedOn hch hch', hqueue, ← Backlog.length_toList, List.drop_left]
    rw [hnew]
    exact ⟨ch', hch', hscript, hfor⟩
  · intro c ch' hch' hnone
    obtain ⟨ch, hch, -⟩ := hlater.before hch'
    rw [hnone] at hch
    cases hch

/-- Where nothing is added to the queues, nothing is said. -/
theorem Tells.of_queues (hold : ∀ c ch, n.channel? c = some ch → ∃ ch', n'.channel? c = some ch' ∧
      ch'.session = ch.session ∧ (ch'.queue = ch.queue ∨ ch'.queue = .empty))
    (hnew : ∀ c ch', n'.channel? c = some ch' → n.channel? c = none →
      ch'.queue = .empty ∧ Told ch'.session []) : Tells n n' := by
  refine ⟨?_, hnew⟩
  intro c ch hch
  obtain ⟨ch', hch', hsession, hqueue⟩ := hold c ch hch
  have hnothing : (queuedOn n n' c).map (·.item) = [] := by
    rw [item_queuedOn hch hch']
    obtain hsame | hempty := hqueue
    · rw [hsame, ← Backlog.length_toList, List.drop_length]
    · rw [hempty]
      exact List.drop_nil
  rw [hnothing]
  refine ⟨ch', hch', ?_, fun f hf => nomatch hf⟩
  rw [hsession]
  exact .rest _

theorem Tells.refl (n : Node σ) : Tells n n := by
  refine .of_queues (fun c ch hch => ⟨ch, hch, rfl, .inl rfl⟩) ?_
  intro c ch hch hnone
  rw [hch] at hnone
  cases hnone

theorem tells_accept (n : Node σ) (w : ServerWiring σ) (now : Nat) :
    Tells n (accept w now n).2 := by
  refine .of_queues (fun c ch hch => ⟨ch, channel?_accept w now hch, rfl, .inl rfl⟩) ?_
  intro c ch hch hnone
  obtain hch | rfl := channel?_accept_cases hch
  · rw [hnone] at hch
    cases hch
  · exact ⟨rfl, .start w now⟩

theorem tells_empty (n : Node σ) (c : ChannelId) {f : Channel σ → Channel σ}
    (hsession : ∀ ch, (f ch).session = ch.session) (hqueue : ∀ ch, (f ch).queue = .empty) :
    Tells n (n.modify c f) := by
  refine .of_queues ?_ ?_
  · intro c' ch hch
    by_cases hc : c' = c
    · subst hc
      refine ⟨f ch, ?_, hsession ch, .inr (hqueue ch)⟩
      rw [Node.channel?_modify_self, hch]
      rfl
    · refine ⟨ch, ?_, rfl, .inl rfl⟩
      rw [Node.channel?_modify_of_ne n _ hc, hch]
  · intro c' ch' hch' hnone
    by_cases hc : c' = c
    · subst hc
      rw [Node.channel?_modify_self, hnone] at hch'
      cases hch'
    · rw [Node.channel?_modify_of_ne n _ hc, hnone] at hch'
      cases hch'

theorem ServerAct.tells (h : Sound n) (a : ServerAct σ) : Tells n (a.perform n) := by
  have hspeaks : ∀ (c : ChannelId) {t fs t'}, Speaks t fs t' → Hosting t fs t' :=
    fun _ _ _ _ => .speaks
  have hwired := h.allWired
  cases a with
  | accept w now => exact tells_accept n w now
  | greet c =>
    cases hch : n.channel? c with
    | none =>
      rw [ServerAct.perform, greet_of_none hch]
      exact .refl n
    | some ch =>
      obtain ⟨w, l, hw, -⟩ := (h.channel c ch hch).wired
      have hplays : n.Plays (fun _ => Hosting) (Connection.greet c n) :=
        plays_greet_server (fun hosts => hosts) hch hw (h.channel c ch hch).role
      exact .of_admitted (h.greet c).admitted (later_rule.telling.greet c n) hplays
  | receive c f =>
    refine .of_admitted (h.receive c f) (later_rule.telling.receive c f n) ?_
    show n.Plays (fun _ => Hosting) (Courier.receive c f n).2
    cases hch : n.channel? c with
    | none =>
      rw [Courier.receive, hch]
      exact .refl n
    | some ch =>
      obtain ⟨w, l, hw, -⟩ := (h.channel c ch hch).wired
      rw [Courier.receive, hch]
      simp only [(h.channel c ch hch).role]
      exact plays_handleFrame_server hspeaks (fun hosts => hosts) hwired hch hw trivial
        fun _ _ _ _ => trivial
  | fail c f =>
    exact .of_admitted (h.raiseWith .full c f).admitted (later_rule.raise c f n)
      (plays_raise hspeaks hwired c f)
  | close c =>
    exact .of_admitted (h.shut c false).admitted (later_rule.shut n c false)
      (plays_shut hspeaks n c false)
  | detach c =>
    exact .of_admitted (h.shut c true).admitted (later_rule.shut n c true)
      (plays_shut hspeaks n c true)
  | finish c =>
    exact .of_admitted (h.finish c).admitted (later_rule.finish c n) (plays_finish hspeaks hwired c)
  | take c => exact tells_empty n c (fun _ => rfl) fun _ => rfl
  | dropWriter c => exact tells_empty n c (fun _ => rfl) fun _ => rfl
  | route p =>
    exact .of_admitted (h.routePacket p).admitted (later_rule.telling.routePacket p n)
      (plays_routePacket hspeaks hwired p)

/-- What was said on every channel fits its session, and where there is no channel nothing was. -/
structure ServerRun.Spoken (r : ServerRun σ) : Prop where
  sound : Sound r.node
  told : ∀ c ch, r.node.channel? c = some ch → Told ch.session (r.spoken c)
  silent : ∀ c, r.node.channel? c = none → r.spoken c = []

theorem ServerRun.spoken_step (r : ServerRun σ) (a : ServerAct σ) (c : ChannelId) :
    (r.step a).spoken c = r.spoken c ++
      framesOf ((queuedOn r.node (a.perform r.node) c).map (·.item)) := by
  rw [spoken, step, List.filter_append, filter_queued, List.map_append, framesOf_append]
  rfl

theorem ServerRun.Spoken.step {r : ServerRun σ} (h : r.Spoken) (a : ServerAct σ) :
    (r.step a).Spoken := by
  have htells := a.tells h.sound
  refine ⟨(a.rightStep h.sound).sound, ?_, ?_⟩
  · intro c ch' hch'
    rw [r.spoken_step]
    cases hch : r.node.channel? c with
    | none =>
      obtain ⟨hqueue, htold⟩ := htells.new c ch' hch' hch
      have hnothing : queuedOn r.node (a.perform r.node) c = [] := by
        have hch' : (a.perform r.node).channel? c = some ch' := hch'
        simp [queuedOn, hch', hqueue]
      rw [h.silent c hch, hnothing]
      exact htold
    | some ch =>
      obtain ⟨ch₂, hch₂, hscript, hfor⟩ := htells.channel c ch hch
      obtain rfl : ch₂ = ch' := Option.some.inj (hch₂.symm.trans hch')
      exact (h.told c ch hch).script hscript hfor
  · intro c hnone
    change (a.perform r.node).channel? c = none at hnone
    have hbefore : r.node.channel? c = none := by
      by_contra hsome
      obtain ⟨ch, hch⟩ := Option.ne_none_iff_exists'.1 hsome
      obtain ⟨ch', hch', -⟩ := htells.channel c ch hch
      cases hch'.symm.trans hnone
    rw [r.spoken_step, h.silent c hbefore, queuedOn_of_none hnone]
    rfl

theorem ServerRun.spoken_run (policy : σ) (acts : List (ServerAct σ)) :
    (serverRun policy acts).Spoken := by
  have hrun : ∀ r : ServerRun σ, r.Spoken → (acts.foldl ServerRun.step r).Spoken := by
    induction acts with
    | nil => exact fun r hr => hr
    | cons a acts ih => exact fun r hr => ih _ (hr.step a)
  exact hrun _ ⟨sound_start policy, fun c ch hch => (nomatch hch), fun _ _ => rfl⟩

/-- What a server ever says on a channel is one SESSION at most, then one IDENTIFY at most, then
what is delivered, and after a refusal or a goodbye nothing. -/
theorem server_speaks_grammatically (policy : σ) (acts : List (ServerAct σ)) (c : ChannelId) :
    Grammatical ((serverRun policy acts).spoken c) := by
  have hspoken := ServerRun.spoken_run policy acts
  cases hch : (serverRun policy acts).node.channel? c with
  | none =>
    rw [hspoken.silent c hch]
    exact Stage.grammatical (g := .fresh) rfl fun h => nomatch h
  | some ch => exact (hspoken.told c ch hch).grammatical

end Courier
