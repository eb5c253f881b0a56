import Courier.Proofs.Duplex.Accord
import Courier.Proofs.Duplex.AtLeastOnce
import Courier.Proofs.Duplex.Progress

/-! # How a handshake ends

When the headers are exchanged and nothing but the handshake is under way, one frame at a time is in
flight, and its delivery leads to the next state of the connection (`Duplex.Leads`), until both ends
are identified or one of them has refused the other. The order of the deliveries does not matter
(`Duplex.Settles.before`). So the answers of the policies decide how the handshake ends, and all
along the client knows nothing that the server does not (`Duplex.handshake_agreement`).
-/
set_option autoImplicit false

namespace Courier

open Courier.Wire Courier.Wire.Frame Courier.Routing

variable {σ : Type} {d : Duplex σ} {e : End} {f : Frame} {s : σ}
  {P P' Q Q' : Channel σ → Prop} {E E' : Node σ → Prop} {up down : Nat}

namespace Duplex

/-! ## Deliveries that come to an end -/

/-- Nothing is in flight. -/
def Still (d : Duplex σ) : Prop := ∀ e, d.next? e = none

/-- Wherever deliveries have come from such a state, they can go on until nothing is in flight, and
when nothing is, the channels at the ends are like this. -/
def Settles (S : Duplex σ → Prop) (C : Channel σ → Channel σ → Prop) : Prop :=
  ∀ d, S d → ∀ ends : List End,
    (∃ more : List End, (d.run ((ends ++ more).map .deliver)).Still) ∧
    ((d.run (ends.map .deliver)).Still →
      ∃ cl sv, (d.run (ends.map .deliver)).channel? .client = some cl ∧
        (d.run (ends.map .deliver)).channel? .server = some sv ∧ C cl sv)

/-- One frame is in flight, and its delivery leads from the one state to the other. -/
def Leads (S S' : Duplex σ → Prop) : Prop := ∀ d, S d → ∃ e f,
  d.next? e = some f ∧ d.next? e.other = none ∧ S' (d.move (.deliver e))

theorem deliver_of_none (h : d.next? e = none) : d.move (.deliver e) = d := by
  rw [Duplex.move, h]

theorem handed_deliver (h : d.next? e = some f) :
    (d.move (.deliver e)).handed .client + (d.move (.deliver e)).handed .server =
      d.handed .client + d.handed .server + 1 := by
  have hmove : (d.move (.deliver e)).handed = d.handOver e := by rw [Duplex.move, h]
  rw [hmove]
  cases e <;> simp [handOver, End.other] <;> omega

section settling

variable {S S' : Duplex σ → Prop} {C C' : Channel σ → Channel σ → Prop}

theorem Settles.mono (h : Settles S' C) (hbefore : ∀ d, S d → S' d)
    (hmore : ∀ cl sv, C cl sv → C' cl sv) : Settles S C' := by
  intro d hd ends
  obtain ⟨hgoing, hend⟩ := h d (hbefore d hd) ends
  refine ⟨hgoing, fun hstill => ?_⟩
  obtain ⟨cl, sv, hcl, hsv, hC⟩ := hend hstill
  exact ⟨cl, sv, hcl, hsv, hmore cl sv hC⟩

theorem Settles.before (h : Settles S' C) (hleads : Leads S S') : Settles S C := by
  intro d hd ends
  obtain ⟨e, f, hnext, hother, hd'⟩ := hleads d hd
  -- Deliveries to the other end come to nothing, up to the one that leads on.
  induction ends with
  | nil =>
    obtain ⟨more, hstill⟩ := (h _ hd' []).1
    refine ⟨⟨e :: more, hstill⟩, fun hstill => ?_⟩
    cases (hstill e).symm.trans hnext
  | cons e' ends ih =>
    obtain rfl | rfl := e.eq_or_eq_other e'
    · exact h _ hd' ends
    · have hsame : ∀ ends : List End, d.run ((e.other :: ends).map .deliver) =
          d.run (ends.map .deliver) := by
        intro ends
        show (d.move (.deliver e.other)).run (ends.map .deliver) = _
        rw [deliver_of_none hother]
      simp only [List.cons_append, hsame]
      exact ih

/-- Deliveries that are bounded in number can go on until nothing is in flight. -/
theorem settles_of_bound (bound : Nat) (hstep : ∀ d e, S d → S (d.move (.deliver e)))
    (hbound : ∀ d, S d → d.handed .client + d.handed .server ≤ bound)
    (hend : ∀ d, S d → ∃ cl sv, d.channel? .client = some cl ∧ d.channel? .server = some sv ∧
      C cl sv) : Settles S C := by
  have hgoing : ∀ k d, S d → bound - (d.handed .client + d.handed .server) = k →
      ∃ more : List End, (d.run (more.map .deliver)).Still := by
    intro k
    -- By how many frames may still be handed over.
    induction k with
    | zero =>
      intro d hd hk
      refine ⟨[], fun e => Option.eq_none_iff_forall_ne_some.2 fun f hnext => ?_⟩
      change d.next? e = some f at hnext
      have hmore := hbound _ (hstep d e hd)
      rw [handed_deliver hnext] at hmore
      omega
    | succ k ih =>
      intro d hd hk
      by_cases hstill : d.Still
      · exact ⟨[], hstill⟩
      · obtain ⟨e, hsome⟩ := not_forall.1 hstill
        obtain ⟨f, hnext⟩ := Option.ne_none_iff_exists'.1 hsome
        have hmore := handed_deliver hnext
        obtain ⟨more, hend⟩ := ih _ (hstep d e hd) (by omega)
        exact ⟨e :: more, hend⟩
  intro d hd ends
  induction ends generalizing d with
  | nil => exact ⟨hgoing _ d hd rfl, fun _ => hend d hd⟩
  | cons e ends ih => exact ih _ (hstep d e hd)

end settling

/-! ## One state after the other -/

/-- How the channels at the ends and the node are, and how many frames were handed over. -/
structure At (P Q : Channel σ → Prop) (E : Node σ → Prop) (up down : Nat) (d : Duplex σ) :
    Prop where
  client : ∃ cl, d.channel? .client = some cl ∧ P cl
  server : ∃ sv, d.channel? .server = some sv ∧ Q sv
  node : E d.node
  up : d.handed .client = up
  down : d.handed .server = down

namespace At

theorem next_server {o : Option Frame} (h : At P Q E up down d)
    (hsaid : ∀ cl, P cl → cl.spoken[up]? = o) : d.next? .server = o := by
  obtain ⟨cl, hcl, hP⟩ := h.client
  rw [next?, End.other, spoken_eq hcl, h.up, hsaid cl hP]

theorem next_client {o : Option Frame} (h : At P Q E up down d)
    (hsaid : ∀ sv, Q sv → sv.spoken[down]? = o) : d.next? .client = o := by
  obtain ⟨sv, hsv, hQ⟩ := h.server
  rw [next?, End.other, spoken_eq hsv, h.down, hsaid sv hQ]

variable {act : Node σ → Node σ}

theorem act_client (h : At P Q E up down d) (hc : Carries End.client.channel act P P' E E') :
    At P' Q E' up down { d with node := act d.node } := by
  obtain ⟨cl, hcl, hP⟩ := h.client
  obtain ⟨sv, hsv, hQ⟩ := h.server
  obtain ⟨cl', hP', hcl', hothers, hE'⟩ := hc d.node cl hcl hP h.node
  exact ⟨⟨cl', hcl', hP'⟩, ⟨sv, (hothers _ channel_ne).trans hsv, hQ⟩, hE', h.up, h.down⟩

theorem act_server (h : At P Q E up down d) (hc : Carries End.server.channel act Q Q' E E') :
    At P Q' E' up down { d with node := act d.node } := by
  obtain ⟨cl, hcl, hP⟩ := h.client
  obtain ⟨sv, hsv, hQ⟩ := h.server
  obtain ⟨sv', hQ', hsv', hothers, hE'⟩ := hc d.node sv hsv hQ h.node
  exact ⟨⟨cl, (hothers _ channel_ne.symm).trans hcl, hP⟩, ⟨sv', hsv', hQ'⟩, hE', h.up, h.down⟩

end At

/-! ## The states of a handshake -/

section states

variable (cw : ClientWiring) (sw : ServerWiring σ) (now : Nat)

def asking : Session :=
  { Session.start .initiator now cw.timing with
    phase := .attached, attachedAddress := some cw.address }

def presenting (id : SessionId) : Session :=
  { asking cw now with phase := .authenticated, sessionId := some id }

def joined (id : SessionId) (a : Address) : Session :=
  { presenting cw now id with phase := .identified, identity := some a }

def greeted : Session := { Session.start .responder now sw.timing with phase := .connected }

def welcoming (id : SessionId) : Session :=
  { greeted sw now with
    phase := .established, attachedAddress := some cw.address, sessionId := some id }

def hosting (id : SessionId) (a : Address) : Session :=
  { welcoming cw sw now id with phase := .identified, identity := some a }

/-- Both channels stand, with these sessions, and have said these frames. -/
def Standing (t : Session) (fs : List Frame) (u : Session) (gs : List Frame)
    (E : Node σ → Prop) : Nat → Nat → Duplex σ → Prop :=
  At (·.Stands (clientRest cw) t fs) (·.Stands (serverRest sw) u gs) E

/-- Both headers have been exchanged, and the client asks to attach. -/
def Asked (s : σ) : Duplex σ → Prop :=
  Standing cw sw (asking cw now) [.attach cw.address] (greeted sw now) [] (Node.Calm s) 0 0

def Welcomed (s : σ) (id : SessionId) : Duplex σ → Prop :=
  Standing cw sw (asking cw now) [.attach cw.address] (welcoming cw sw now id)
    [.session (some id)] (Node.Calm s) 1 0

def Presented (s : σ) (id : SessionId) : Duplex σ → Prop :=
  Standing cw sw (presenting cw now id) [.attach cw.address, .authenticate cw.credential]
    (welcoming cw sw now id) [.session (some id)] (Node.Calm s) 1 1

def Identified (s : σ) (id : SessionId) (a : Address) : Duplex σ → Prop :=
  Standing cw sw (presenting cw now id) [.attach cw.address, .authenticate cw.credential]
    (hosting cw sw now id a) [.session (some id), .identify (some a)] (Node.Calm s) 2 1

def Fetching (s : σ) (id : SessionId) (a : Address) : Duplex σ → Prop :=
  Standing cw sw (joined cw now id a)
    [.attach cw.address, .authenticate cw.credential, .fetch] (hosting cw sw now id a)
    [.session (some id), .identify (some a)] (Node.Calm s) 2 2

def Settled (id : SessionId) (a : Address) : Duplex σ → Prop :=
  Standing cw sw (joined cw now id a)
    [.attach cw.address, .authenticate cw.credential, .fetch] (hosting cw sw now id a)
    [.session (some id), .identify (some a)] (fun _ => True) 3 2

/-- Both channels fell, with these sessions, and their last frames may be in flight. -/
def Fallen (t : Session) (fs : List Frame) (fault : Fault) (u : Session) (gs : List Frame)
    (fault' : Fault) (d : Duplex σ) : Prop :=
  ∃ up down, up ≤ fs.length ∧ down ≤ gs.length ∧
    At (·.Fell t fs fault) (·.Fell u gs fault') (fun _ => True) up down d

end states

variable {cw : ClientWiring} {sw : ServerWiring σ} {now : Nat} {id : SessionId} {a : Address}
  {s₁ s₂ s₃ : σ}

/-- Both headers are exchanged, one end after the other. No frame is delivered before. -/
def Headed (policy : σ) (cw : ClientWiring) (sw : ServerWiring σ) (now : Nat) (d : Duplex σ) :
    Prop :=
  ∃ first : End, d = (start policy cw sw now).run [.greet first, .greet first.other]

theorem Headed.asked {policy : σ} (h : Headed policy cw sw now d) : Asked cw sw now policy d := by
  have hstart : Standing cw sw (.start .initiator now cw.timing) []
      (.start .responder now sw.timing) [] (Node.Calm policy) 0 0 (start policy cw sw now) :=
    ⟨⟨_, rfl, rfl, rfl, rfl, rfl, ⟨client_pipeline_eq cw, plain_clientRest cw⟩, rfl, rfl, rfl⟩,
      ⟨_, rfl, rfl, rfl, rfl, rfl, ⟨server_pipeline_eq sw, plain_serverRest sw⟩, rfl, rfl, rfl⟩,
      ⟨rfl, fun _ => rfl⟩, rfl, rfl⟩
  obtain ⟨first, rfl⟩ := h
  cases first with
  | client =>
    exact (hstart.act_client (carries_greet_client rfl rfl)).act_server
      (carries_greet_server rfl rfl)
  | server =>
    exact (hstart.act_server (carries_greet_server rfl rfl)).act_client
      (carries_greet_client rfl rfl)

section leading

variable {t u : Session} {fs gs : List Frame}

/-- The next frame of the client is delivered, and there is none of the server. -/
theorem leads_server (hup : fs[up]? = some f) (hdown : gs[down]? = none)
    (hc : Carries End.server.channel (deliverFrame End.server.channel · f)
      (·.Stands (serverRest sw) u gs) Q' E E') :
    Leads (Standing cw sw t fs u gs E up down)
      (At (·.Stands (clientRest cw) t fs) Q' E' (up + 1) down) := by
  intro d h
  have hnext := At.next_server h (o := some f) fun cl hcl => by rw [hcl.spoken, hup]
  have hnone := At.next_client h (o := none) fun sv hsv => by rw [hsv.spoken, hdown]
  refine ⟨.server, f, hnext, hnone, ?_⟩
  have hact := At.act_server h hc
  rw [Duplex.move, hnext]
  exact ⟨hact.client, hact.server, hact.node, congrArg (· + 1) h.up, h.down⟩

theorem leads_client (hsaid : ∀ sv, Q sv → sv.spoken = gs) (hdown : gs[down]? = some f)
    (hup : fs[up]? = none)
    (hc : Carries End.client.channel (deliverFrame End.client.channel · f)
      (·.Stands (clientRest cw) t fs) P' E E') :
    Leads (At (·.Stands (clientRest cw) t fs) Q E up down) (At P' Q E' up (down + 1)) := by
  intro d h
  have hnext := h.next_client (o := some f) fun sv hsv => by rw [hsaid sv hsv, hdown]
  have hnone := h.next_server (o := none) fun cl hcl => by rw [hcl.spoken, hup]
  refine ⟨.client, f, hnext, hnone, ?_⟩
  have hact := h.act_client hc
  rw [Duplex.move, hnext]
  exact ⟨hact.client, hact.server, hact.node, h.up, congrArg (· + 1) h.down⟩

end leading

theorem leads_asked_welcomed (hverify : sw.verify cw.address s = (.ok (), s₁))
    (hcreate : sw.create cw.address s₁ = (.ok id, s₂)) :
    Leads (Asked cw sw now s) (Welcomed cw sw now s₂ id) :=
  leads_server rfl rfl (carries_attach rfl rfl hverify hcreate)

theorem leads_welcomed_presented : Leads (Welcomed cw sw now s id) (Presented cw sw now s id) :=
  leads_client (fun _ h => h.spoken) rfl rfl (carries_session rfl rfl id)

theorem leads_presented_identified
    (hanswer : sw.authenticate cw.address cw.credential s = (.ok a, s₁)) :
    Leads (Presented cw sw now s id) (Identified cw sw now s₁ id a) :=
  leads_server rfl rfl (carries_authenticate rfl rfl rfl hanswer)

theorem leads_identified_fetching :
    Leads (Identified cw sw now s id a) (Fetching cw sw now s id a) :=
  leads_client (fun _ h => h.spoken) rfl rfl (carries_identify rfl rfl a)

theorem leads_fetching_settled : Leads (Fetching cw sw now s id a) (Settled cw sw now id a) :=
  leads_server rfl rfl (carries_fetch rfl rfl)

/-! ## Refusals -/

/-- The server fell, and has refused the client. -/
def Refused (cw : ClientWiring) (t : Session) (fs : List Frame) (u : Session) (gs : List Frame)
    (fault : Fault) : Nat → Nat → Duplex σ → Prop :=
  At (·.Stands (clientRest cw) t fs) (·.Fell u gs fault) fun _ => True

theorem leads_unknown {address : Address}
    (hverify : sw.verify cw.address s = (.error (.unknownAddress address), s₁)) :
    Leads (Asked cw sw now s) (Refused cw (asking cw now) [.attach cw.address] (greeted sw now)
      [.session none, .detach] (.unknownAddress address) 1 0) :=
  leads_server rfl rfl (carries_attach_refused rfl hverify)

theorem leads_invalid
    (hanswer : sw.authenticate cw.address cw.credential s = (.error .invalidCredential, s₁)) :
    Leads (Presented cw sw now s id) (Refused cw (presenting cw now id)
      [.attach cw.address, .authenticate cw.credential] (welcoming cw sw now id)
      [.session (some id), .identify none, .detach] .invalidCredential 2 1) :=
  leads_server rfl rfl (carries_authenticate_refused rfl rfl rfl hanswer)

section refusals

variable {t u : Session} {fs gs : List Frame} {fault fault' : Fault}

/-- A client that hears why it is refused falls too. -/
theorem leads_fallen (hrole : t.role = .initiator) (hup : up = fs.length)
    (hdown : down + 1 ≤ gs.length)
    (hsaid : gs[down]? = some (.session none) ∧ fault = .greetingRejected ∨
      gs[down]? = some (.identify none) ∧ fault = .authenticationRejected) :
    Leads (Refused cw t fs u gs fault' up down)
      (Fallen (σ := σ) t (fs ++ [.detach]) fault u gs fault') := by
  have hnone : fs[up]? = none := List.getElem?_eq_none (Nat.le_of_eq hup.symm)
  have hlength : up ≤ (fs ++ [Frame.detach]).length := by simp [hup]
  have hleads : Leads (σ := σ) (Refused cw t fs u gs fault' up down)
      (At (·.Fell t (fs ++ [Frame.detach]) fault) (·.Fell u gs fault') (fun _ => True) up
        (down + 1)) := by
    obtain ⟨hsaid, rfl⟩ | ⟨hsaid, rfl⟩ := hsaid
    · exact leads_client (fun _ h => h.spoken) hsaid hnone (carries_session_refused hrole)
    · exact leads_client (fun _ h => h.spoken) hsaid hnone (carries_identify_refused hrole)
  intro d hd
  obtain ⟨e, f, hnext, hother, hat⟩ := hleads d hd
  exact ⟨e, f, hnext, hother, up, down + 1, hlength, hdown, hat⟩

theorem Fallen.deliver (h : Fallen t fs fault u gs fault' d) (e : End) :
    Fallen t fs fault u gs fault' (d.move (.deliver e)) := by
  cases hnext : d.next? e with
  | none =>
    rw [deliver_of_none hnext]
    exact h
  | some f =>
    obtain ⟨up, down, hup, hdown, hat⟩ := h
    rw [Duplex.move, hnext]
    cases e with
    | client =>
      rw [hat.next_client fun sv h => by rw [h.spoken]] at hnext
      obtain ⟨hmore, -⟩ := List.getElem?_eq_some_iff.1 hnext
      have hact := hat.act_client (carries_fallen (f := f))
      exact ⟨up, down + 1, hup, hmore, hact.client, hact.server, trivial, hact.up,
        congrArg (· + 1) hact.down⟩
    | server =>
      rw [hat.next_server fun cl h => by rw [h.spoken]] at hnext
      obtain ⟨hmore, -⟩ := List.getElem?_eq_some_iff.1 hnext
      have hact := hat.act_server (carries_fallen (f := f))
      exact ⟨up + 1, down, hmore, hdown, hact.client, hact.server, trivial,
        congrArg (· + 1) hact.up, hact.down⟩

theorem settles_fallen : Settles (Fallen (σ := σ) t fs fault u gs fault') fun cl sv =>
    cl.Fell t fs fault ∧ sv.Fell u gs fault' := by
  refine settles_of_bound (fs.length + gs.length) (fun d e h => h.deliver e)
    (fun d ⟨up, down, hup, hdown, hat⟩ => ?_) fun d ⟨up, down, hup, hdown, hat⟩ => ?_
  · rw [hat.up, hat.down]
    exact Nat.add_le_add hup hdown
  · obtain ⟨⟨cl, hcl, hclient⟩, ⟨sv, hsv, hserver⟩, -⟩ := hat
    exact ⟨cl, sv, hcl, hsv, hclient, hserver⟩

end refusals

theorem settles_settled : Settles (Settled cw sw now id a) fun cl sv =>
    cl.Stands (clientRest cw) (joined cw now id a)
        [.attach cw.address, .authenticate cw.credential, .fetch] ∧
      sv.Stands (serverRest sw) (hosting cw sw now id a)
        [.session (some id), .identify (some a)] := by
  refine settles_of_bound 5 (fun d e hd => ?_) (fun d hd => ?_) fun d hd => ?_
  · have hnone : d.next? e = none := by
      cases e with
      | client => exact At.next_client hd fun sv h => by rw [h.spoken]; rfl
      | server => exact At.next_server hd fun cl h => by rw [h.spoken]; rfl
    rw [deliver_of_none hnone]
    exact hd
  · have hup := At.up hd
    have hdown := At.down hd
    omega
  · obtain ⟨⟨cl, hcl, hclient⟩, ⟨sv, hsv, hserver⟩, -⟩ := hd
    exact ⟨cl, sv, hcl, hsv, hclient, hserver⟩

/-! ## How it ends -/

section outcomes

variable {policy : σ}

theorem settles_accepted (hverify : sw.verify cw.address policy = (.ok (), s₁))
    (hcreate : sw.create cw.address s₁ = (.ok id, s₂))
    (hanswer : sw.authenticate cw.address cw.credential s₂ = (.ok a, s₃)) :
    Settles (Headed policy cw sw now) fun cl sv =>
      cl.Reached .identified ∧ sv.Reached .identified ∧ cl.session.sessionId = some id ∧
        sv.session.sessionId = some id ∧ cl.session.identity = some a ∧
        sv.session.identity = some a := by
  have hsettles : Settles (Asked cw sw now policy) _ :=
    ((((settles_settled.before leads_fetching_settled).before leads_identified_fetching).before
      (leads_presented_identified hanswer)).before leads_welcomed_presented).before
      (leads_asked_welcomed hverify hcreate)
  refine hsettles.mono (fun d h => h.asked) ?_
  rintro cl sv ⟨hclient, hserver⟩
  refine ⟨hclient.reached, hserver.reached, ?_⟩
  rw [hclient.session, hserver.session]
  exact ⟨rfl, rfl, rfl, rfl⟩

theorem settles_unknown {address : Address}
    (hverify : sw.verify cw.address policy = (.error (.unknownAddress address), s₁)) :
    Settles (Headed policy cw sw now) fun cl sv =>
      cl.Reached .closed ∧ sv.Reached .closed ∧ cl.fault = some .greetingRejected ∧
        cl.session.sessionId = none ∧ sv.session.sessionId = none := by
  have hsettles : Settles (Asked cw sw now policy) _ :=
    (settles_fallen.before (leads_fallen rfl rfl (by decide) (.inl ⟨rfl, rfl⟩))).before
      (leads_unknown hverify)
  refine hsettles.mono (fun d h => h.asked) ?_
  rintro cl sv ⟨hclient, hserver⟩
  refine ⟨hclient.reached, hserver.reached, hclient.fault, ?_⟩
  rw [hclient.session, hserver.session]
  exact ⟨rfl, rfl⟩

theorem settles_invalid (hverify : sw.verify cw.address policy = (.ok (), s₁))
    (hcreate : sw.create cw.address s₁ = (.ok id, s₂))
    (hanswer : sw.authenticate cw.address cw.credential s₂ = (.error .invalidCredential, s₃)) :
    Settles (Headed policy cw sw now) fun cl sv =>
      cl.Reached .closed ∧ sv.Reached .closed ∧ cl.fault = some .authenticationRejected ∧
        cl.session.identity = none ∧ sv.session.identity = none := by
  have hsettles : Settles (Asked cw sw now policy) _ :=
    (((settles_fallen.before (leads_fallen rfl rfl (by simp) (.inr ⟨rfl, rfl⟩))).before
      (leads_invalid hanswer)).before leads_welcomed_presented).before
      (leads_asked_welcomed hverify hcreate)
  refine hsettles.mono (fun d h => h.asked) ?_
  rintro cl sv ⟨hclient, hserver⟩
  refine ⟨hclient.reached, hserver.reached, hclient.fault, ?_⟩
  rw [hclient.session, hserver.session]
  exact ⟨rfl, rfl⟩

end outcomes

/-- What the client knows of the connection the server knows too, in every state that the moves
lead to; and undisturbed deliveries come to an end that the answers of the policies decide. -/
theorem handshake_agreement (policy : σ) (cw : ClientWiring) (sw : ServerWiring σ) (now : Nat) :
    (∀ moves, ∃ cl sv, Manned cw sw cl sv ((start policy cw sw now).run moves) ∧
      (∀ id, cl.session.sessionId = some id →
        sv.session.sessionId = some id ∧ sv.session.attachedAddress = some cw.address) ∧
      ∀ a, cl.session.identity = some a →
        sv.session.identity = some a ∧ Named policy cw sw now moves a) ∧
    (∀ id a s₁ s₂ s₃, sw.verify cw.address policy = (.ok (), s₁) →
      sw.create cw.address s₁ = (.ok id, s₂) →
      sw.authenticate cw.address cw.credential s₂ = (.ok a, s₃) →
      Settles (Headed policy cw sw now) fun cl sv =>
        cl.Reached .identified ∧ sv.Reached .identified ∧ cl.session.sessionId = some id ∧
          sv.session.sessionId = some id ∧ cl.session.identity = some a ∧
          sv.session.identity = some a) ∧
    (∀ address s₁, sw.verify cw.address policy = (.error (.unknownAddress address), s₁) →
      Settles (Headed policy cw sw now) fun cl sv =>
        cl.Reached .closed ∧ sv.Reached .closed ∧ cl.fault = some .greetingRejected ∧
          cl.session.sessionId = none ∧ sv.session.sessionId = none) ∧
    (∀ id s₁ s₂ s₃, sw.verify cw.address policy = (.ok (), s₁) →
      sw.create cw.address s₁ = (.ok id, s₂) →
      sw.authenticate cw.address cw.credential s₂ = (.error .invalidCredential, s₃) →
      Settles (Headed policy cw sw now) fun cl sv =>
        cl.Reached .closed ∧ sv.Reached .closed ∧ cl.fault = some .authenticationRejected ∧
          cl.session.identity = none ∧ sv.session.identity = none) := by
  refine ⟨fun moves => ?_, fun id a s₁ s₂ s₃ => settles_accepted,
    fun address s₁ => settles_unknown, fun id s₁ s₂ s₃ => settles_invalid⟩
  obtain ⟨cl, sv, hmanned⟩ := manned_run policy cw sw now moves
  exact ⟨cl, sv, hmanned,
    (accord_run policy cw sw now moves).agree hmanned.client hmanned.server⟩

/-- A server that serves no address. -/
def idleServer : ServerWiring Unit := { smallServer with verify := whitelist [] }

/-- A server that accepts no credential. -/
def waryServer : ServerWiring Unit :=
  { smallServer with authenticate := fun _ _ s => (.error .invalidCredential, s) }

/-- The connection of `smallClient` after the headers and these deliveries. -/
def smallHeaded (sw : ServerWiring Unit) (ends : List End) : Duplex Unit :=
  ((start () smallClient sw 0).run [.greet .client, .greet .server]).run (ends.map .deliver)

/-- The client is taken for whom the authenticator names, and each of the three handshakes ends as
its server answers. -/
theorem handshake_agreement_smallClient :
    Named () smallClient smallServer 0 smallExchange smallPacket.sender ∧
    (∃ cl sv, (smallHeaded smallServer [.server, .client, .server, .client, .server]).channel?
        .client = some cl ∧
      (smallHeaded smallServer [.server, .client, .server, .client, .server]).channel? .server =
        some sv ∧
      cl.Reached .identified ∧ sv.Reached .identified ∧
      cl.session.identity = some smallPacket.sender ∧
      sv.session.identity = some smallPacket.sender) ∧
    (∃ cl sv, (smallHeaded idleServer [.server, .client, .client, .server, .server]).channel?
        .client = some cl ∧
      (smallHeaded idleServer [.server, .client, .client, .server, .server]).channel? .server =
        some sv ∧
      cl.Reached .closed ∧ sv.Reached .closed ∧ cl.fault = some .greetingRejected) ∧
    ∃ cl sv, (smallHeaded waryServer [.server, .client, .server, .client, .client,
        .server]).channel? .client = some cl ∧
      (smallHeaded waryServer [.server, .client, .server, .client, .client, .server]).channel?
        .server = some sv ∧
      cl.Reached .closed ∧ sv.Reached .closed ∧ cl.fault = some .authenticationRejected := by
  obtain ⟨hagree, haccepted, -, -⟩ := handshake_agreement () smallClient smallServer 0
  obtain ⟨-, -, hunknown, -⟩ := handshake_agreement () smallClient idleServer 0
  obtain ⟨-, -, -, hinvalid⟩ := handshake_agreement () smallClient waryServer 0
  refine ⟨?_, ?_, ?_, ?_⟩
  · obtain ⟨cl, sv, hmanned, -, hidentity⟩ := hagree smallExchange
    refine (hidentity smallPacket.sender ?_).2
    have hknown : (((start () smallClient smallServer 0).run smallExchange).channel? .client).map
        (·.session.identity) = some (some smallPacket.sender) := by decide +kernel
    rw [hmanned.client] at hknown
    exact Option.some.inj hknown
  · have hstill : (smallHeaded smallServer [.server, .client, .server, .client,
        .server]).Still := by
      intro e
      cases e <;> decide +kernel
    obtain ⟨cl, sv, hcl, hsv, hclient, hserver, -, -, hidentity, hidentity'⟩ :=
      (haccepted _ smallPacket.sender () () () rfl rfl rfl _ ⟨.client, rfl⟩ _).2 hstill
    exact ⟨cl, sv, hcl, hsv, hclient, hserver, hidentity, hidentity'⟩
  · have hstill : (smallHeaded idleServer [.server, .client, .client, .server, .server]).Still := by
      intro e
      cases e <;> decide +kernel
    obtain ⟨cl, sv, hcl, hsv, hclient, hserver, hfault, -, -⟩ :=
      (hunknown smallClient.address () rfl _ ⟨.client, rfl⟩ _).2 hstill
    exact ⟨cl, sv, hcl, hsv, hclient, hserver, hfault⟩
  · have hstill : (smallHeaded waryServer [.server, .client, .server, .client, .client,
        .server]).Still := by
      intro e
      cases e <;> decide +kernel
    obtain ⟨cl, sv, hcl, hsv, hclient, hserver, hfault, -, -⟩ :=
      (hinvalid _ () () () rfl rfl rfl _ ⟨.client, rfl⟩ _).2 hstill
    exact ⟨cl, sv, hcl, hsv, hclient, hserver, hfault⟩

end Duplex
end Courier
