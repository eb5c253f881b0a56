import Courier.Proofs.Client.Pipeline
import Courier.Proofs.Duplex.Trading
import Courier.Proofs.Node.Becoming
import Courier.Proofs.Server.Pipeline

/-! # The handshake, where it succeeds

An event that leaves its channel open was dealt with without a fault (`dispatchWith_of_open`). So
each event of the handshake that leaves the channel open found it in one phase and took it to the
next; what the channel has then, and that nothing else has changed (`Node.Becomes`), is stated for
each end.
-/
set_option autoImplicit false

namespace Courier

open Courier.Wire Courier.Wire.Frame Courier.Routing

variable {σ α : Type} {n n' n'' : Node σ} {c : ChannelId} {ch ch' ch'' : Channel σ} {l : Ledger}
  {rest : List (Reactor σ)} {k : Reentry σ}

/-! ## Events that leave the channel open -/

theorem not_open_raiseWith (hwired : n.WiredAt c l rest) (f : Fault) :
    ¬ (raiseWith k c f n).OpenAt c := by
  intro hopen
  obtain ⟨ch, hch, hw⟩ := hwired
  obtain ⟨last, hquiet, hover⟩ := raiseWith_spec (k := k) hch hw f
  have hlast : (raiseWith k c f n).channel? c = some last := by
    rw [hquiet.channel?]
    exact Node.channel?_modify_of_some hch _
  have hclosed := hopen last hlast
  rw [hover.session] at hclosed
  cases hclosed

/-- An action whose fault would be raised did not fail, if the channel is open after it. -/
theorem settled_of_open {a : Action σ Unit} (hwired : n.WiredAt c l rest)
    (hlater : n.Later (a.apply n).2) (hopen : (settled k c a n).OpenAt c) :
    a.apply n = (.ok (), settled k c a n) := by
  cases hrun : a.apply n with
  | mk r n' =>
    rw [hrun] at hlater
    cases r with
    | ok u => rw [settled, hrun]
    | error f =>
      obtain ⟨l', hwired'⟩ := hwired.later hlater
      rw [settled, hrun] at hopen
      exact absurd hopen (not_open_raiseWith hwired' f)

theorem dispatchWith_of_open (hk : k.Moves Node.Later) (h : n.WiredAt c l rest) {e : Event}
    (hopen : (dispatchWith k c e n).OpenAt c) :
    (reaction k c e l rest).apply (n.note c .eventLog (.event e)) =
      (.ok (), dispatchWith k c e n) := by
  have hnoted := h.note c .eventLog (.event e)
  rw [dispatchWith_eq hk h] at hopen ⊢
  exact settled_of_open hnoted (later_reaction hk hnoted e) hopen

theorem greet_of_open (h : n.WiredAt c l rest) (hopen : (Connection.greet c n).OpenAt c) :
    (openChannel c).apply n = (.ok (), Connection.greet c n) :=
  settled_of_open (k := .full) h (later_rule.telling.openChannel c n) hopen

/-! ## Each event -/

/-- The session, the ledger and the frames that a channel has after an event of the handshake. -/
structure Channel.Turns (s : Session) (l : Ledger) (fs : List Frame) (ch ch' : Channel σ) :
    Prop where
  session : ch'.session = s
  ledger : ch'.ledger = l
  spoken : ch'.spoken = ch.spoken ++ fs

section client

variable {w : ClientWiring} (hch : n.channel? c = some ch) (hw : ch.Wired l (clientRest w))
  (hrole : ch.session.role = .initiator)

include hch hw hrole

theorem client_greet (hopen : (Connection.greet c n).OpenAt c) :
    ch.session.phase = .unconnected ∧ ∃ ch', n.Becomes c ch' (Connection.greet c n) ∧
      ch.Turns { ch.session with phase := .attached, attachedAddress := some w.address } l
        [.attach w.address] ch' := by
  have hrun := greet_of_open ⟨ch, hch, hw⟩ hopen
  rw [openChannel, Action.apply_get_bind, hch] at hrun
  simp only [hrole, if_true] at hrun
  obtain ⟨_, n₁, hheader, hrun⟩ := Action.apply_bind_eq_ok hrun
  obtain ⟨-, hfirst⟩ := Node.Becomes.enqueue hch hheader
  obtain ⟨_, n₂, hconnect, hrun⟩ := Action.apply_bind_eq_ok hrun
  obtain ⟨s, hs, hsecond⟩ := Node.Becomes.plainStep hfirst.self hconnect
  obtain ⟨hphase, rfl⟩ := Session.connect_eq_ok_iff.1 hs
  have hlast : dispatch c .connected n₂ = Connection.greet c n := congrArg Prod.snd hrun
  rw [← hlast] at hopen ⊢
  have hreaction := dispatchWith_of_open later_rule.full
    ⟨_, hsecond.self, hw.of_reactors_eq rfl⟩ hopen
  rw [client_reaction_connected] at hreaction
  obtain ⟨_, n₃, hwrite, hattach⟩ := Action.apply_bind_eq_ok hreaction
  have hnoted := becomes_noted hsecond.self (e := .connected) fun _ h => by cases h
  have hsaid := Node.Becomes.writeFrame hnoted.self (regular_attach w.address) hwrite
  obtain ⟨s, hs, hthird⟩ := Node.Becomes.plainStep hsaid.self hattach
  obtain ⟨-, rfl⟩ := Session.attach_eq_ok_iff.1 hs
  refine ⟨hphase, _, hfirst.trans (hsecond.trans (hnoted.trans (hsaid.trans hthird))), rfl,
    (hw.of_reactors_eq rfl).ledger_eq, ?_⟩
  refine (Channel.spoken_say (regular_singleton (regular_attach w.address))).trans ?_
  show framesOf (ch.queue.push (.bytes Header.bytes)).toList ++ _ = _
  rw [Backlog.toList_push, framesOf_append, framesOf_header, List.append_nil, Channel.spoken]

theorem client_sessionCreated {id : SessionId}
    (hopen : (dispatch c (.sessionCreated id) n).OpenAt c) :
    ch.session.phase = .attached ∧ ∃ ch', n.Becomes c ch' (dispatch c (.sessionCreated id) n) ∧
      ch.Turns { ch.session with phase := .authenticated, sessionId := some id } .empty
        [.authenticate w.credential] ch' := by
  have hreaction := dispatchWith_of_open later_rule.full ⟨ch, hch, hw⟩ hopen
  rw [client_reaction_sessionCreated] at hreaction
  have hnoted := becomes_noted hch (e := .sessionCreated id) fun _ h => nomatch h
  obtain ⟨_, n₁, hclear, hreaction⟩ := Action.apply_bind_eq_ok hreaction
  have hcleared := Node.Becomes.clearLedger hnoted.self hclear
  obtain ⟨d, n₂, hestablish, hreaction⟩ := Action.apply_bind_eq_ok hreaction
  obtain ⟨s, hs, hfirst⟩ := Node.Becomes.stepSession hcleared.self hestablish
  obtain ⟨hphase, rfl, rfl⟩ := Session.establish_eq_ok_iff.1 hs
  have hdemands : (ch.setLedger .empty).session.demands .credential = [.credential] := by
    show ch.session.demands .credential = _
    rw [Session.demands, hrole]
  rw [hdemands, forM_cons, performDemand] at hreaction
  obtain ⟨_, n₃, hperform, hreaction⟩ := Action.apply_bind_eq_ok hreaction
  obtain ⟨_, n₄, hwrite, hauthenticate⟩ := Action.apply_bind_eq_ok hperform
  have hsaid := Node.Becomes.writeFrame hfirst.self (regular_authenticate w.credential) hwrite
  obtain ⟨s, hs, hsecond⟩ := Node.Becomes.plainStep hsaid.self hauthenticate
  obtain ⟨-, rfl⟩ := Session.authenticate_eq_ok_iff.1 hs
  have hlast : n₃ = dispatch c (.sessionCreated id) n := congrArg Prod.snd hreaction
  rw [← hlast]
  refine ⟨hphase, _, hnoted.trans (hcleared.trans (hfirst.trans (hsaid.trans hsecond))), rfl,
    ((hw.setLedger .empty).of_reactors_eq rfl).ledger_eq, ?_⟩
  exact Channel.spoken_say (regular_singleton (regular_authenticate w.credential))

theorem client_identityReceived {a : Address}
    (hopen : (dispatch c (.identityReceived a) n).OpenAt c) :
    ch.session.phase = .authenticated ∧ ∃ ch',
      n.Becomes c ch' (dispatch c (.identityReceived a) n) ∧
      ch.Turns { ch.session with phase := .identified, identity := some a } l [.fetch] ch' := by
  have hreaction := dispatchWith_of_open later_rule.full ⟨ch, hch, hw⟩ hopen
  obtain ⟨told, hquiet, heq⟩ := client_reaction_identityReceived (σ := σ) .full c l w a
  rw [heq, Action.apply_modify_bind] at hreaction
  have hnoted := becomes_noted hch (e := .identityReceived a) fun _ h => nomatch h
  have htold := Node.Becomes.quiet hnoted.self (hquiet _)
  obtain ⟨d, n₂, hidentify, hreaction⟩ := Action.apply_bind_eq_ok hreaction
  obtain ⟨s, hs, hstep⟩ := Node.Becomes.stepSession htold.self hidentify
  obtain ⟨hphase, rfl, rfl⟩ := Session.identify_eq_ok_iff.1 hs
  have hdemands : ch.session.demands .fetch = [.fetch] := by rw [Session.demands, hrole]
  rw [hdemands, forM_cons, performDemand] at hreaction
  obtain ⟨_, n₃, hwrite, hreaction⟩ := Action.apply_bind_eq_ok hreaction
  have hsaid := Node.Becomes.writeFrame hstep.self regular_fetch hwrite
  have hlast : n₃ = dispatch c (.identityReceived a) n := congrArg Prod.snd hreaction
  rw [← hlast]
  refine ⟨hphase, _, hnoted.trans (htold.trans (hstep.trans hsaid)), rfl,
    (hw.of_reactors_eq rfl).ledger_eq, ?_⟩
  exact Channel.spoken_say (regular_singleton regular_fetch)

end client

section server

variable {w : ServerWiring σ} (hch : n.channel? c = some ch) (hw : ch.Wired l (serverRest w))

include hch hw

theorem server_greet (hrole : ch.session.role = .responder)
    (hopen : (Connection.greet c n).OpenAt c) :
    ch.session.phase = .unconnected ∧ ∃ ch', n.Becomes c ch' (Connection.greet c n) ∧
      ch.Turns { ch.session with phase := .connected } l [] ch' := by
  have hrun := greet_of_open ⟨ch, hch, hw⟩ hopen
  have hnot : ¬ ch.session.role = .initiator := by
    rw [hrole]
    decide
  rw [openChannel, Action.apply_get_bind, hch] at hrun
  simp only [hnot, if_false] at hrun
  obtain ⟨_, n₁, hconnect, hrun⟩ := Action.apply_bind_eq_ok hrun
  obtain ⟨s, hs, hstep⟩ := Node.Becomes.plainStep hch hconnect
  obtain ⟨hphase, rfl⟩ := Session.connect_eq_ok_iff.1 hs
  have hlast : dispatch c .connected n₁ = Connection.greet c n := congrArg Prod.snd hrun
  rw [← hlast] at hopen ⊢
  have hreaction := dispatchWith_of_open later_rule.full
    ⟨_, hstep.self, hw.of_reactors_eq rfl⟩ hopen
  rw [reaction_connected] at hreaction
  have hnoted := becomes_noted hstep.self (e := .connected) fun _ h => by cases h
  have hlast : n₁.note c .eventLog (.event .connected) = dispatch c .connected n₁ :=
    congrArg Prod.snd hreaction
  rw [← hlast]
  exact ⟨hphase, _, hstep.trans hnoted, rfl, (hw.of_reactors_eq rfl).ledger_eq,
    (List.append_nil _).symm⟩

theorem server_attachRequested {a : Address}
    (hopen : (dispatch c (.attachRequested a) n).OpenAt c) :
    ch.session.phase = .connected ∧ ∃ id ch',
      n.Becomes c ch' (dispatch c (.attachRequested a) n) ∧
        ch.Turns { ch.session with
            phase := .established, attachedAddress := some a, sessionId := some id } .empty
          [.session (some id)] ch' := by
  have hreaction := dispatchWith_of_open later_rule.full ⟨ch, hch, hw⟩ hopen
  rw [reaction_attachRequested] at hreaction
  have hnoted := becomes_noted hch (e := .attachRequested a) fun _ h => nomatch h
  obtain ⟨_, n₁, hverify, hreaction⟩ := Action.apply_bind_eq_ok hreaction
  have hverified := Node.Becomes.consult hnoted.self hverify
  rw [createSession] at hreaction
  obtain ⟨_, n₂, hattach, hreaction⟩ := Action.apply_bind_eq_ok hreaction
  obtain ⟨s, hs, hfirst⟩ := Node.Becomes.plainStep hverified.self hattach
  obtain ⟨hphase, rfl⟩ := Session.attach_eq_ok_iff.1 hs
  obtain ⟨id, n₃, hcreate, hreaction⟩ := Action.apply_bind_eq_ok hreaction
  have hcreated := Node.Becomes.consult hfirst.self hcreate
  obtain ⟨_, n₄, hwrite, hreaction⟩ := Action.apply_bind_eq_ok hreaction
  have hsaid := Node.Becomes.writeFrame hcreated.self (regular_session (some id)) hwrite
  obtain ⟨d, n₅, hestablish, hreaction⟩ := Action.apply_bind_eq_ok hreaction
  obtain ⟨s, hs, hsecond⟩ := Node.Becomes.stepSession hsaid.self hestablish
  obtain ⟨-, rfl, -⟩ := Session.establish_eq_ok_iff.1 hs
  -- The session is announced to the server's own pipeline, where only the ledger heeds it.
  have hlast : dispatchWith .quiet c (.sessionCreated id) n₅ = dispatch c (.attachRequested a) n :=
    congrArg Prod.snd hreaction
  rw [← hlast] at hopen ⊢
  have htold := dispatchWith_of_open later_rule.quiet
    ⟨_, hsecond.self, hw.of_reactors_eq rfl⟩ hopen
  rw [reaction_sessionCreated] at htold
  have hlogged := becomes_noted hsecond.self (e := .sessionCreated id) fun _ h => nomatch h
  have hcleared := Node.Becomes.clearLedger hlogged.self htold
  refine ⟨hphase, id, _, hnoted.trans (hverified.trans (hfirst.trans (hcreated.trans
    (hsaid.trans (hsecond.trans (hlogged.trans hcleared)))))), rfl,
    (Channel.Wired.setLedger (hw.of_reactors_eq rfl) .empty).ledger_eq, ?_⟩
  exact Channel.spoken_say (regular_singleton (regular_session (some id)))

/-- The channel is attached to the identity that it is given. -/
theorem server_credentialReceived {credential : Credential}
    (hopen : (dispatch c (.credentialReceived credential) n).OpenAt c) :
    ch.session.phase = .established ∧ ∃ a ch' n₁, n.Becomes c ch' n₁ ∧
      dispatch c (.credentialReceived credential) n =
        { n₁ with registry := n₁.registry.attach a c } ∧
      ch.Turns { ch.session with phase := .identified, identity := some a } l
        [.identify (some a)] ch' := by
  have hreaction := dispatchWith_of_open later_rule.full ⟨ch, hch, hw⟩ hopen
  rw [reaction_credentialReceived] at hreaction
  have hnoted := becomes_noted hch (e := .credentialReceived credential) fun _ h => nomatch h
  obtain ⟨_, n₁, haccept, hroute⟩ := Action.apply_bind_eq_ok hreaction
  rw [acceptCredential] at haccept
  obtain ⟨realm, n₂, hread, haccept⟩ := Action.apply_bind_eq_ok haccept
  have hsame : n₂ = n.note c .eventLog (.event (.credentialReceived credential)) := by
    have hsame := Moves.readingRealm (R := fun n n' : Node σ => n' = n) (fun _ => rfl) c
      (n.note c .eventLog (.event (.credentialReceived credential)))
    rw [hread] at hsame
    exact hsame
  subst hsame
  obtain ⟨a, n₃, hconsult, haccept⟩ := Action.apply_bind_eq_ok haccept
  have hconsulted := Node.Becomes.consult hnoted.self hconsult
  obtain ⟨_, n₄, hauthenticate, haccept⟩ := Action.apply_bind_eq_ok haccept
  obtain ⟨s, hs, hfirst⟩ := Node.Becomes.plainStep hconsulted.self hauthenticate
  obtain ⟨hphase, rfl⟩ := Session.authenticate_eq_ok_iff.1 hs
  obtain ⟨_, n₅, hwrite, haccept⟩ := Action.apply_bind_eq_ok haccept
  have hsaid := Node.Becomes.writeFrame hfirst.self (regular_identify (some a)) hwrite
  obtain ⟨d, n₆, hidentify, haccept⟩ := Action.apply_bind_eq_ok haccept
  obtain ⟨s, hs, hsecond⟩ := Node.Becomes.stepSession hsaid.self hidentify
  obtain ⟨-, rfl, -⟩ := Session.identify_eq_ok_iff.1 hs
  have hdone : n₆ = n₁ := congrArg Prod.snd haccept
  subst hdone
  have hlast : attachRoute c n₆ = dispatch c (.credentialReceived credential) n :=
    congrArg Prod.snd hroute
  refine ⟨hphase, a, _, n₆,
    hnoted.trans (hconsulted.trans (hfirst.trans (hsaid.trans hsecond))), ?_, rfl,
    (hw.of_reactors_eq rfl).ledger_eq, ?_⟩
  · rw [← hlast, attachRoute_of_identity (identity?_eq hsecond.self)]
  · exact Channel.spoken_say (regular_singleton (regular_identify (some a)))

end server
end Courier
