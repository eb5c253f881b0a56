import Courier.Proofs.Client.Handshake
import Courier.Proofs.Duplex.Steps
import Courier.Proofs.Node.Answers
import Courier.Proofs.Server.Handshake

/-! # An undisturbed handshake, frame by frame

A handshake that nobody disturbs takes its channels from one state to the next: a channel stands
open with nothing amiss (`Channel.Stands`), or it fell by a fault (`Channel.Fell`). Each frame of
the handshake, when it is delivered, does to such a channel what the policies' answers decide
(`Carries`).
-/
set_option autoImplicit false

namespace Courier

open Courier.Wire Courier.Wire.Frame Courier.Routing

variable {σ : Type} {n n' : Node σ} {c : ChannelId} {ch ch' : Channel σ}
  {rest : List (Reactor σ)} {t t' : Session} {fs fs' : List Frame} {f : Frame} {s s' : σ}

/-! ## How a channel is -/

namespace Channel

/-- An open channel, its session and all that it has said; nothing is counted yet. -/
structure Stands (rest : List (Reactor σ)) (t : Session) (fs : List Frame) (ch : Channel σ) :
    Prop where
  isOpen : t.isClosed = false
  session : ch.session = t
  shown : ch.published = t.phase
  spoken : ch.spoken = fs
  wired : ch.Wired .empty rest
  writer : ch.hasWriter = true
  fault : ch.fault = none
  finished : ch.finished = false

/-- A closed channel, all that it has said, and the fault that closed it. -/
structure Fell (t : Session) (fs : List Frame) (fault : Fault) (ch : Channel σ) : Prop where
  session : ch.session = t.close
  shown : ch.published = .closed
  spoken : ch.spoken = fs
  fault : ch.fault = some fault

/-- The session of a channel is in this phase, and the channel shows it. -/
def Reached (phase : Phase) (ch : Channel σ) : Prop :=
  ch.session.phase = phase ∧ ch.phase = phase

theorem Stands.reached (h : ch.Stands rest t fs) : ch.Reached t.phase :=
  ⟨congrArg Session.phase h.session, h.shown⟩

theorem Fell.reached {fault : Fault} (h : ch.Fell t fs fault) : ch.Reached .closed :=
  ⟨congrArg Session.phase h.session, h.shown⟩

namespace Stands

theorem live (h : ch.Stands rest t fs) : ch.Live := ⟨h.session ▸ h.isOpen, h.writer⟩

theorem not_isClosed (h : ch.Stands rest t fs) : ch.isClosed = false := by
  have hopen := h.isOpen
  rw [Session.isClosed] at hopen
  rw [isClosed, phase, h.shown]
  exact hopen

theorem setSession (h : ch.Stands rest t fs) (hopen : t'.isClosed = false) :
    (ch.setSession t').Stands rest t' fs :=
  ⟨hopen, rfl, rfl, h.spoken, h.wired.of_reactors_eq rfl, h.writer, h.fault, h.finished⟩

theorem say (h : ch.Stands rest t fs) (hregular : f.Regular) :
    (ch.say [f]).Stands rest t (fs ++ [f]) := by
  refine ⟨h.isOpen, h.session, h.shown, ?_, h.wired.say [f], h.writer, h.fault, h.finished⟩
  rw [spoken_say (regular_singleton hregular), h.spoken]

theorem setLedger (h : ch.Stands rest t fs) : (ch.setLedger .empty).Stands rest t fs := by
  rw [h.wired.setLedger_self]
  exact h

theorem headed (h : ch.Stands rest t fs) : ch.headed.Stands rest t fs := by
  refine ⟨h.isOpen, h.session, h.shown, ?_, h.wired.of_reactors_eq rfl, h.writer, h.fault,
    h.finished⟩
  show framesOf (ch.queue.push (.bytes Header.bytes)).toList = fs
  rw [Backlog.toList_push, framesOf_append, framesOf_header, List.append_nil]
  exact h.spoken

end Stands

theorem Stands.failed (h : ch.Stands rest t fs) (f : Fault) :
    (ch.failed f).Fell t (fs ++ ((refusal? f).toList ++ [.detach])) f := by
  have hsession := (ch.over_failed f).session
  have hlive : (ch.remember f).Live := ⟨h.live.isOpen, h.writer⟩
  have hspoken := frames_refused hlive f
  rw [h.session] at hsession
  obtain ⟨ch₁, heq, hpublished, hsame, -⟩ := (ch.remember f).refused_eq_detach f
  have hshown := (later_shut ch₁ true).shown
    (by rw [hpublished, hsame, remember, h.shown, h.session])
  refine ⟨hsession, ?_, ?_, ?_⟩
  · change ch₁.detach.published = ch₁.detach.session.phase at hshown
    rw [← heq] at hshown
    change (ch.failed f).published = (ch.failed f).session.phase at hshown
    rw [hshown, hsession]
    rfl
  · exact hspoken.trans (congrArg (· ++ _) h.spoken)
  · rw [fault_failed, h.fault]
    rfl

end Channel

/-- The policies are in this state, and nothing waits in the mailboxes. -/
structure Node.Calm (s : σ) (n : Node σ) : Prop where
  policy : n.policy = s
  waiting : ∀ a, n.registry.waiting a = []

theorem Node.Calm.yields (h : n.Calm s) (hyields : n.Yields c ch' s' n') : n'.Calm s' :=
  ⟨hyields.policy, fun a => by rw [hyields.registry, h.waiting]⟩

/-! ## From state to state -/

/-- What is done takes a channel, and the node around it, from one state to another, and leaves the
other channels alone. -/
def Carries (c : ChannelId) (act : Node σ → Node σ) (P P' : Channel σ → Prop)
    (E E' : Node σ → Prop) : Prop :=
  ∀ n ch, n.channel? c = some ch → P ch → E n → ∃ ch', P' ch' ∧
    (act n).channel? c = some ch' ∧ (∀ c', c' ≠ c → (act n).channel? c' = n.channel? c') ∧
    E' (act n)

section delivery

variable {role : Role} (hrole : t.role = role)

include hrole

/-- A frame that leaves its channel open is delivered as it is handled. -/
theorem carries_deliver {E E' : Node σ → Prop} (hf : f ≠ .detach)
    (h : Carries c (handleFrame c role f) (·.Stands rest t fs) (·.Stands rest t' fs') E E') :
    Carries c (deliverFrame c · f) (·.Stands rest t fs) (·.Stands rest t' fs') E E' := by
  intro n ch hch hstands hE
  obtain ⟨ch', hstands', hch', hothers, hE'⟩ := h n ch hch hstands hE
  have hbefore : ¬ n.isClosed c = true := by simp [Node.isClosed, hch, hstands.not_isClosed]
  have hafter : ¬ (handleFrame c role f n).isClosed c = true := by
    simp [Node.isClosed, hch', hstands'.not_isClosed]
  have hdelivered : deliverFrame c n f = handleFrame c role f n := by
    rw [deliverFrame_eq hch, if_neg hbefore, hstands.session, hrole,
      if_neg (by simp [hf, hafter])]
  refine ⟨ch', hstands', ?_⟩
  simp only [hdelivered]
  exact ⟨hch', hothers, hE'⟩

/-- A frame on which its channel fails closes and finishes it. -/
theorem carries_fall {E : Node σ → Prop} {fault : Fault}
    (h : ∀ n ch, n.channel? c = some ch → ch.Stands rest t fs → E n →
      ∃ s, n.Yields c (ch.failed fault) s (handleFrame c role f n)) :
    Carries c (deliverFrame c · f) (·.Stands rest t fs)
      (·.Fell t (fs ++ ((refusal? fault).toList ++ [.detach])) fault) E fun _ => True := by
  intro n ch hch hstands hE
  obtain ⟨s, hyields⟩ := h n ch hch hstands hE
  have hfell := hstands.failed fault
  have hover := ch.over_failed fault
  have hbefore : ¬ n.isClosed c = true := by simp [Node.isClosed, hch, hstands.not_isClosed]
  have hafter : (handleFrame c role f n).isClosed c = true := by
    simp [Node.isClosed, hyields.self, Channel.isClosed, Channel.phase, hfell.shown]
  have hdelivered : deliverFrame c n f = finish c (handleFrame c role f n) := by
    rw [deliverFrame_eq hch, if_neg hbefore, hstands.session, hrole, if_pos (.inr hafter)]
  have hunfinished : ¬ (ch.failed fault).finished = true := by
    rw [hover.finished, hstands.finished]
    decide
  have hclosed : ({ ch.failed fault with finished := true } : Channel σ).close =
      { ch.failed fault with finished := true } := by
    refine Channel.shut_of_closed false ?_
    show (ch.failed fault).session.isClosed = true
    rw [hfell.session]
    rfl
  have hchannels := channels_finish hyields.self (hstands.wired.of_reactors_eq hover.reactors)
    hunfinished
  rw [hclosed] at hchannels
  have hsame : ∀ c', (deliverFrame c n f).channel? c' = ((handleFrame c role f n).modify c
      fun _ => { ch.failed fault with finished := true }).channel? c' := by
    intro c'
    rw [Node.channel?, hdelivered, hchannels]
    rfl
  refine ⟨{ ch.failed fault with finished := true }, ⟨hfell.session, hfell.shown, hfell.spoken,
    hfell.fault⟩, ?_, ?_, trivial⟩
  · exact (hsame c).trans (Node.channel?_modify_of_some hyields.self _)
  · intro c' hc
    exact ((hsame c').trans (Node.channel?_modify_of_ne _ _ hc)).trans (hyields.others c' hc)

end delivery

/-- A channel that fell takes no more frames. -/
theorem carries_fallen {E : Node σ → Prop} {fault : Fault} :
    Carries c (deliverFrame c · f) (·.Fell t fs fault) (·.Fell t fs fault) E E := by
  intro n ch hch hfell hE
  have hclosed : n.isClosed c = true := by
    simp [Node.isClosed, hch, Channel.isClosed, Channel.phase, hfell.shown]
  have hdelivered : deliverFrame c n f = n := by rw [deliverFrame, if_pos hclosed]
  refine ⟨ch, hfell, ?_⟩
  show (deliverFrame c n f).channel? c = some ch ∧ (∀ c', c' ≠ c →
    (deliverFrame c n f).channel? c' = n.channel? c') ∧ E (deliverFrame c n f)
  rw [hdelivered]
  exact ⟨hch, fun _ _ => rfl, hE⟩

/-! ## The connection header -/

theorem carries_greet_client {w : ClientWiring} (hrole : t.role = .initiator)
    (hphase : t.phase = .unconnected) :
    Carries c (Connection.greet c) (·.Stands (clientRest w) t fs)
      (·.Stands (clientRest w) { t with phase := .attached, attachedAddress := some w.address }
        (fs ++ [.attach w.address])) (Node.Calm s) (Node.Calm s) := by
  intro n ch hch hstands hcalm
  obtain ⟨ch', happlies, hyields⟩ := client_applies (attends_clientRest w) hch hstands.wired
    (hstands.session ▸ hrole)
  refine ⟨ch', ?_, hyields.self, hyields.others, hcalm.policy ▸ hcalm.yields hyields⟩
  cases happlies with
  | mute hmute => exact absurd hstands.live hmute
  | untimely hlive hconnect =>
    rw [hstands.session, Session.connect_eq_ok_iff.2 ⟨hphase, rfl⟩] at hconnect
    cases hconnect
  | applied hlive hconnect hattach =>
    obtain ⟨-, rfl⟩ := Session.connect_eq_ok_iff.1 hconnect
    obtain ⟨-, rfl⟩ := Session.attach_eq_ok_iff.1 hattach
    rw [hstands.session]
    exact ((hstands.headed.setSession rfl).say (regular_attach w.address)).setSession rfl

theorem carries_greet_server {w : ServerWiring σ} (hrole : t.role = .responder)
    (hphase : t.phase = .unconnected) :
    Carries c (Connection.greet c) (·.Stands (serverRest w) t fs)
      (·.Stands (serverRest w) { t with phase := .connected } fs)
      (Node.Calm s) (Node.Calm s) := by
  intro n ch hch hstands hcalm
  obtain ⟨ch', hopens, hyields⟩ := server_opens hch hstands.wired (hstands.session ▸ hrole)
  refine ⟨ch', ?_, hyields.self, hyields.others, hcalm.policy ▸ hcalm.yields hyields⟩
  cases hopens with
  | connected hstep =>
    obtain ⟨-, rfl⟩ := Session.connect_eq_ok_iff.1 hstep
    rw [hstands.session]
    exact hstands.setSession rfl
  | untimely hstep =>
    rw [hstands.session, Session.connect_eq_ok_iff.2 ⟨hphase, rfl⟩] at hstep
    cases hstep

/-! ## A request to attach -/

section attach

variable {w : ServerWiring σ} {realm : Address} (hrole : t.role = .responder)

include hrole

theorem carries_attach {id : SessionId} {s₁ s₂ : σ} (hphase : t.phase = .connected)
    (hverify : w.verify realm s = (.ok (), s₁)) (hcreate : w.create realm s₁ = (.ok id, s₂)) :
    Carries c (deliverFrame c · (.attach realm)) (·.Stands (serverRest w) t fs)
      (·.Stands (serverRest w) { t with
          phase := .established, attachedAddress := some realm, sessionId := some id }
        (fs ++ [.session (some id)])) (Node.Calm s) (Node.Calm s₂) := by
  refine carries_deliver hrole (fun h => nomatch h) fun n ch hch hstands hcalm => ?_
  obtain ⟨ch', s', hattaches, hyields⟩ := server_attaches hch hstands.wired realm
  rw [hcalm.policy] at hattaches
  cases hattaches with
  | refused hanswer => cases hverify.symm.trans hanswer
  | untimely hanswer hattach =>
    rw [hstands.session, Session.attach_eq_ok_iff.2 ⟨hphase, rfl⟩] at hattach
    cases hattach
  | unserved hanswer hattach hanswer' =>
    cases hverify.symm.trans hanswer
    cases hcreate.symm.trans hanswer'
  | unheard hanswer hattach hanswer' hmute => exact absurd hstands.live hmute
  | established hanswer hattach hanswer' hlive hestablish =>
    cases hverify.symm.trans hanswer
    cases hcreate.symm.trans hanswer'
    obtain ⟨-, rfl⟩ := Session.attach_eq_ok_iff.1 hattach
    obtain ⟨-, rfl, -⟩ := Session.establish_eq_ok_iff.1 hestablish
    refine ⟨_, ?_, hyields.self, hyields.others, hcalm.yields hyields⟩
    rw [hstands.session]
    refine .setLedger (.setSession (.say (.setSession hstands ?_) (regular_session (some id))) ?_)
    · rfl
    · rfl

theorem carries_attach_refused {fault : Fault} {s₁ : σ}
    (hverify : w.verify realm s = (.error fault, s₁)) :
    Carries c (deliverFrame c · (.attach realm)) (·.Stands (serverRest w) t fs)
      (·.Fell t (fs ++ ((refusal? fault).toList ++ [.detach])) fault) (Node.Calm s)
      fun _ => True := by
  refine carries_fall hrole fun n ch hch hstands hcalm => ?_
  obtain ⟨ch', s', hattaches, hyields⟩ := server_attaches hch hstands.wired realm
  rw [hcalm.policy] at hattaches
  cases hattaches with
  | refused hanswer =>
    cases hverify.symm.trans hanswer
    exact ⟨_, hyields⟩
  | untimely hanswer | unserved hanswer | unheard hanswer | established hanswer =>
    cases hverify.symm.trans hanswer

end attach

/-! ## A session -/

theorem carries_session {w : ClientWiring} (hrole : t.role = .initiator)
    (hphase : t.phase = .attached) (id : SessionId) :
    Carries c (deliverFrame c · (.session (some id))) (·.Stands (clientRest w) t fs)
      (·.Stands (clientRest w) { t with phase := .authenticated, sessionId := some id }
        (fs ++ [.authenticate w.credential])) (Node.Calm s) (Node.Calm s) := by
  refine carries_deliver hrole (fun h => nomatch h) fun n ch hch hstands hcalm => ?_
  obtain ⟨ch', hpresents, hyields⟩ := client_presents (attends_clientRest w) hch hstands.wired
    (hstands.session ▸ hrole) id
  refine ⟨ch', ?_, hyields.self, hyields.others, hcalm.policy ▸ hcalm.yields hyields⟩
  cases hpresents with
  | untimely hestablish =>
    rw [hstands.session, Session.establish_eq_ok_iff.2 ⟨hphase, rfl, rfl⟩] at hestablish
    cases hestablish
  | mute hestablish hmute => exact absurd hstands.live hmute
  | presented hlive hestablish hauthenticate =>
    obtain ⟨-, rfl, -⟩ := Session.establish_eq_ok_iff.1 hestablish
    obtain ⟨-, rfl⟩ := Session.authenticate_eq_ok_iff.1 hauthenticate
    rw [hstands.session]
    refine .setSession (.say (.setSession hstands.setLedger ?_) (regular_authenticate _)) ?_
    · rfl
    · rfl

theorem carries_session_refused {w : ClientWiring} (hrole : t.role = .initiator)
    {E : Node σ → Prop} : Carries c (deliverFrame c · (.session none))
      (·.Stands (clientRest w) t fs) (·.Fell t (fs ++ [.detach]) .greetingRejected) E
      fun _ => True := by
  show Carries c _ _ (·.Fell t (fs ++ ((refusal? .greetingRejected).toList ++ [.detach])) _) E _
  refine carries_fall hrole fun n ch hch hstands _ => ?_
  exact ⟨_, .failed .full hch hstands.wired .greetingRejected⟩

/-! ## A credential -/

section authenticate

variable {w : ServerWiring σ} {realm : Address} {credential : Credential}
  (hrole : t.role = .responder) (hphase : t.phase = .established)
  (hattached : t.attachedAddress = some realm)

include hrole hphase hattached

theorem carries_authenticate {a : Address} {s₁ : σ}
    (hanswer : w.authenticate realm credential s = (.ok a, s₁)) :
    Carries c (deliverFrame c · (.authenticate credential)) (·.Stands (serverRest w) t fs)
      (·.Stands (serverRest w) { t with phase := .identified, identity := some a }
        (fs ++ [.identify (some a)])) (Node.Calm s) (Node.Calm s₁) := by
  refine carries_deliver hrole (fun h => nomatch h) fun n ch hch hstands hcalm => ?_
  obtain ⟨ch', s', r, m, hidentifies, hyields, heq⟩ :=
    server_identifies hch hstands.wired credential
  have hrealm : realmOf ch.session = .ok realm :=
    realmOf_eq_ok_iff.2 (hstands.session ▸ ⟨hphase, hattached⟩)
  rw [hcalm.policy] at hidentifies
  rw [handleFrame, heq]
  cases hidentifies with
  | untimely hfailed => cases hrealm.symm.trans hfailed
  | rejected hrealm' hanswer' =>
    cases hrealm.symm.trans hrealm'
    cases hanswer.symm.trans hanswer'
  | unheard hrealm' hanswer' hauthenticate hmute => exact absurd hstands.live hmute
  | identified hrealm' hanswer' hauthenticate hlive hidentify =>
    cases hrealm.symm.trans hrealm'
    cases hanswer.symm.trans hanswer'
    obtain ⟨-, rfl⟩ := Session.authenticate_eq_ok_iff.1 hauthenticate
    obtain ⟨-, rfl, -⟩ := Session.identify_eq_ok_iff.1 hidentify
    refine ⟨_, ?_, hyields.self, hyields.others, hyields.policy, fun b => ?_⟩
    · rw [hstands.session]
      refine .setSession (.say (.setSession hstands ?_) (regular_identify _)) ?_
      · rfl
      · rfl
    · exact hcalm.waiting b

theorem carries_authenticate_refused {fault : Fault} {s₁ : σ}
    (hanswer : w.authenticate realm credential s = (.error fault, s₁)) :
    Carries c (deliverFrame c · (.authenticate credential)) (·.Stands (serverRest w) t fs)
      (·.Fell t (fs ++ ((refusal? fault).toList ++ [.detach])) fault) (Node.Calm s)
      fun _ => True := by
  refine carries_fall hrole fun n ch hch hstands hcalm => ?_
  obtain ⟨ch', s', r, m, hidentifies, hyields, heq⟩ :=
    server_identifies hch hstands.wired credential
  have hrealm : realmOf ch.session = .ok realm :=
    realmOf_eq_ok_iff.2 (hstands.session ▸ ⟨hphase, hattached⟩)
  rw [hcalm.policy] at hidentifies
  rw [handleFrame, heq]
  cases hidentifies with
  | untimely hfailed => cases hrealm.symm.trans hfailed
  | rejected hrealm' hanswer' =>
    cases hrealm.symm.trans hrealm'
    cases hanswer.symm.trans hanswer'
    rw [← hyields.registry]
    exact ⟨_, hyields⟩
  | unheard hrealm' hanswer' | identified hrealm' hanswer' =>
    cases hrealm.symm.trans hrealm'
    cases hanswer.symm.trans hanswer'

end authenticate

/-! ## An identity -/

theorem carries_identify {w : ClientWiring} (hrole : t.role = .initiator)
    (hphase : t.phase = .authenticated) (a : Address) :
    Carries c (deliverFrame c · (.identify (some a))) (·.Stands (clientRest w) t fs)
      (·.Stands (clientRest w) { t with phase := .identified, identity := some a }
        (fs ++ [.fetch])) (Node.Calm s) (Node.Calm s) := by
  refine carries_deliver hrole (fun h => nomatch h) fun n ch hch hstands hcalm => ?_
  obtain ⟨ch', hfetches, hyields⟩ := client_fetches (attends_clientRest w) hch hstands.wired
    (hstands.session ▸ hrole) a
  refine ⟨ch', ?_, hyields.self, hyields.others, hcalm.policy ▸ hcalm.yields hyields⟩
  cases hfetches with
  | untimely hidentify =>
    rw [hstands.session, Session.identify_eq_ok_iff.2 ⟨hphase, rfl, rfl⟩] at hidentify
    cases hidentify
  | mute hidentify hmute => exact absurd hstands.live hmute
  | fetched hlive hidentify =>
    obtain ⟨-, rfl, -⟩ := Session.identify_eq_ok_iff.1 hidentify
    rw [hstands.session]
    refine .say (.setSession hstands ?_) regular_fetch
    rfl

theorem carries_identify_refused {w : ClientWiring} (hrole : t.role = .initiator)
    {E : Node σ → Prop} : Carries c (deliverFrame c · (.identify none))
      (·.Stands (clientRest w) t fs) (·.Fell t (fs ++ [.detach]) .authenticationRejected) E
      fun _ => True := by
  show Carries c _ _
    (·.Fell t (fs ++ ((refusal? .authenticationRejected).toList ++ [.detach])) _) E _
  refine carries_fall hrole fun n ch hch hstands _ => ?_
  exact ⟨_, .failed .full hch hstands.wired .authenticationRejected⟩

/-- There is nothing to fetch. -/
theorem carries_fetch {w : ServerWiring σ} {a : Address} (hrole : t.role = .responder)
    (hidentity : t.identity = some a) :
    Carries c (deliverFrame c · .fetch) (·.Stands (serverRest w) t fs)
      (·.Stands (serverRest w) t fs) (Node.Calm s) fun _ => True := by
  refine carries_deliver hrole (fun h => nomatch h) fun n ch hch hstands hcalm => ?_
  have hnoted := quiet_note_event n c (e := .fetchRequested) fun _ h => nomatch h
  have hm := (hnoted.channel? c).trans hch
  have hnone : (n.note c .eventLog (.event .fetchRequested)).registry.waiting a = [] := by
    rw [hnoted.registry]
    exact hcalm.waiting a
  rw [handleFrame, dispatch, dispatchWith_eq later_rule.full ⟨ch, hch, hstands.wired⟩,
    reaction_fetchRequested, settled,
    Action.apply_bind_ok (apply_flush_of_empty hm hstands.wired rfl),
    apply_flushMailbox_of_empty hm (hstands.session ▸ hidentity) hnone]
  exact ⟨ch, hstands, hm, fun c' _ => hnoted.channel? c', trivial⟩

end Courier
