import Courier.Proofs.Client.Handshake
import Courier.Proofs.Duplex.Delivering
import Courier.Proofs.Server.Handshake

/-! # What the two ends agree on

A client knows of its session and its identity only what the server has said, and the server stands
by what it says: a session that it has accepted stays the session of its channel, and so does an
identity (`Duplex.Accord`). Every move keeps this, whatever becomes of the ends
(`Duplex.accord_run`).
-/
set_option autoImplicit false

namespace Courier

open Courier.Wire Courier.Wire.Frame Courier.Routing

variable {σ : Type} {n : Node σ} {c : ChannelId} {ch ch' cl cl' sv sv' : Channel σ}
  {d : Duplex σ} {t t' : Session} {said fs : List Frame} {hears hears' : Frame → Prop}

/-! ## What each end knows -/

/-- A client asks for its own address with its own credential, and has what it has heard of. -/
structure Informed (w : ClientWiring) (hears : Frame → Prop) (t : Session) (said : List Frame) :
    Prop where
  attach : ∀ a, .attach a ∈ said → a = w.address
  authenticate : ∀ x, .authenticate x ∈ said → x = w.credential
  session : ∀ id, t.sessionId = some id → hears (.session (some id))
  identity : ∀ a, t.identity = some a → hears (.identify (some a))

/-- Whether a server may have told the session by a phase. -/
def Phase.tellsSession : Phase → Bool
  | .unconnected | .connected | .attached => false
  | _ => true

/-- Whether a server may have told the identity by a phase. -/
def Phase.tellsIdentity : Phase → Bool
  | .identified | .closed => true
  | _ => false

/-- A server stands by the session and the identity that it has told. -/
structure Truthful (realm : Address) (names : Address → Prop) (t : Session) (said : List Frame) :
    Prop where
  attached : ∀ a, t.attachedAddress = some a → a = realm
  attaching : t.phase = .attached → t.attachedAddress = some realm
  session : ∀ id, .session (some id) ∈ said →
    t.sessionId = some id ∧ t.attachedAddress = some realm ∧ t.phase.tellsSession = true
  identity : ∀ a, .identify (some a) ∈ said →
    t.identity = some a ∧ names a ∧ t.phase.tellsIdentity = true

theorem Parting.mem (h : Parting fs) {f : Frame} (hf : f ∈ fs) :
    f = .detach ∨ f = .session none ∨ f = .identify none := by
  cases h with
  | silent => cases hf
  | goodbye => exact .inl (List.mem_singleton.1 hf)
  | refusal h =>
    obtain rfl | hf := List.mem_cons.1 hf
    · exact .inr (refusal?_eq_some h)
    · exact .inl (List.mem_singleton.1 hf)

/-- What is said at any time: traffic, or a parting. -/
theorem Speaks.mem (h : Speaks t fs t') {f : Frame} (hf : f ∈ fs) :
    f.IsTraffic ∨ f = .detach ∨ f = .session none ∨ f = .identify none := by
  cases h with
  | say hopen h =>
    rw [List.mem_singleton.1 hf]
    exact .inl h
  | part hopen h => exact .inr (h.mem hf)

namespace Informed

variable {w : ClientWiring}

theorem mono (h : Informed w hears t said) (hmore : ∀ f, hears f → hears' f) :
    Informed w hears' t said :=
  ⟨h.attach, h.authenticate, fun id hid => hmore _ (h.session id hid),
    fun a ha => hmore _ (h.identity a ha)⟩

/-- Nothing is said but what the client is wired to say. -/
theorem say (h : Informed w hears t said) (hattach : ∀ a, .attach a ∈ fs → a = w.address)
    (hauthenticate : ∀ x, .authenticate x ∈ fs → x = w.credential)
    (hsession : ∀ id, t'.sessionId = some id → hears (.session (some id)))
    (hidentity : ∀ a, t'.identity = some a → hears (.identify (some a))) :
    Informed w hears t' (said ++ fs) := by
  refine ⟨fun a ha => ?_, fun x hx => ?_, hsession, hidentity⟩
  · exact (List.mem_append.1 ha).elim (h.attach a) (hattach a)
  · exact (List.mem_append.1 hx).elim (h.authenticate x) (hauthenticate x)

theorem join (said : List Frame) (hjoins : Joins w hears t fs t') (h : Informed w hears t said) :
    Informed w hears t' (said ++ fs) := by
  cases hjoins with
  | speaks hspeaks =>
    refine h.say (fun a ha => ?_) (fun x hx => ?_) ?_ ?_
    · obtain h | h | h | h := hspeaks.mem ha <;> cases h
    · obtain h | h | h | h := hspeaks.mem hx <;> cases h
    · cases hspeaks <;> exact h.session
    · cases hspeaks <;> exact h.identity
  | connect hstep =>
    obtain ⟨-, rfl⟩ := Session.connect_eq_ok_iff.1 hstep
    exact h.say (fun _ hf => nomatch hf) (fun _ hf => nomatch hf) h.session h.identity
  | attach hstep =>
    obtain ⟨-, rfl⟩ := Session.attach_eq_ok_iff.1 hstep
    refine h.say (fun a ha => ?_) (fun x hx => ?_) h.session h.identity
    · cases List.mem_singleton.1 ha
      rfl
    · cases List.mem_singleton.1 hx
  | establish heard hstep =>
    obtain ⟨-, rfl, -⟩ := Session.establish_eq_ok_iff.1 hstep
    refine h.say (fun _ hf => nomatch hf) (fun _ hf => nomatch hf) ?_ h.identity
    rintro id' ⟨⟩
    exact heard
  | authenticate hstep =>
    obtain ⟨-, rfl⟩ := Session.authenticate_eq_ok_iff.1 hstep
    refine h.say (fun a ha => ?_) (fun x hx => ?_) h.session h.identity
    · cases List.mem_singleton.1 ha
    · cases List.mem_singleton.1 hx
      rfl
  | identify heard hstep =>
    obtain ⟨-, rfl, -⟩ := Session.identify_eq_ok_iff.1 hstep
    refine h.say (fun _ hf => nomatch hf) (fun _ hf => nomatch hf) h.session ?_
    rintro a ⟨⟩
    exact heard

end Informed

namespace Truthful

variable {realm : Address} {names names' : Address → Prop}

theorem mono (h : Truthful realm names t said) (hmore : ∀ a, names a → names' a) :
    Truthful realm names' t said := by
  refine ⟨h.attached, h.attaching, h.session, fun a ha => ?_⟩
  obtain ⟨hidentity, hnames, hphase⟩ := h.identity a ha
  exact ⟨hidentity, hmore a hnames, hphase⟩

/-- What has been said stays true, and what is said now is true. -/
theorem say (h : Truthful realm names t said)
    (hattached : ∀ a, t'.attachedAddress = some a → a = realm)
    (hattaching : t'.phase = .attached → t'.attachedAddress = some realm)
    (hold : t.phase.tellsSession = true → t'.sessionId = t.sessionId ∧
      t'.attachedAddress = t.attachedAddress ∧ t'.phase.tellsSession = true)
    (hold' : t.phase.tellsIdentity = true →
      t'.identity = t.identity ∧ t'.phase.tellsIdentity = true)
    (hnew : ∀ id, .session (some id) ∈ fs →
      t'.sessionId = some id ∧ t'.attachedAddress = some realm ∧ t'.phase.tellsSession = true)
    (hnew' : ∀ a, .identify (some a) ∈ fs →
      t'.identity = some a ∧ names a ∧ t'.phase.tellsIdentity = true) :
    Truthful realm names t' (said ++ fs) := by
  refine ⟨hattached, hattaching, fun id hid => ?_, fun a ha => ?_⟩
  · obtain hid | hid := List.mem_append.1 hid
    · obtain ⟨hsession, haddress, hphase⟩ := h.session id hid
      obtain ⟨hsame, hsame', hphase'⟩ := hold hphase
      exact ⟨hsame.trans hsession, hsame'.trans haddress, hphase'⟩
    · exact hnew id hid
  · obtain ha | ha := List.mem_append.1 ha
    · obtain ⟨hidentity, hnames, hphase⟩ := h.identity a ha
      obtain ⟨hsame, hphase'⟩ := hold' hphase
      exact ⟨hsame.trans hidentity, hnames, hphase'⟩
    · exact hnew' a ha

/-- So long as nothing was told, only what is said now has to be true. -/
theorem say_first (h : Truthful realm names t said) (hphase : t.phase.tellsSession = false)
    (hattached : ∀ a, t'.attachedAddress = some a → a = realm)
    (hattaching : t'.phase = .attached → t'.attachedAddress = some realm)
    (hnew : ∀ id, .session (some id) ∈ fs →
      t'.sessionId = some id ∧ t'.attachedAddress = some realm ∧ t'.phase.tellsSession = true)
    (hnew' : ∀ a, .identify (some a) ∈ fs →
      t'.identity = some a ∧ names a ∧ t'.phase.tellsIdentity = true) :
    Truthful realm names t' (said ++ fs) := by
  have hphase' : t.phase.tellsIdentity = false := by
    revert hphase
    cases t.phase <;> decide
  refine h.say hattached hattaching (fun hold => ?_) (fun hold => ?_) hnew hnew'
  · cases hold.symm.trans hphase
  · cases hold.symm.trans hphase'

theorem host {answers : Address → Credential → Address → Prop} {credential : Credential}
    (hattach : ∀ a, hears (.attach a) → a = realm)
    (hauthenticate : ∀ x, hears (.authenticate x) → x = credential)
    (hanswers : ∀ a, answers realm credential a → names a) (said : List Frame)
    (hhosts : Hosts hears answers t fs t') (h : Truthful realm names t said) :
    Truthful realm names t' (said ++ fs) := by
  cases hhosts with
  | speaks hspeaks =>
    have hsession : ∀ id, .session (some id) ∉ fs := by
      intro id hid
      obtain h | h | h | h := hspeaks.mem hid <;> cases h
    have hidentity : ∀ a, .identify (some a) ∉ fs := by
      intro a ha
      obtain h | h | h | h := hspeaks.mem ha <;> cases h
    cases hspeaks with
    | say =>
      exact h.say h.attached h.attaching (fun hphase => ⟨rfl, rfl, hphase⟩)
        (fun hphase => ⟨rfl, hphase⟩) (fun id hid => absurd hid (hsession id))
        fun a ha => absurd ha (hidentity a)
    | part =>
      exact h.say h.attached (fun hphase => nomatch hphase) (fun _ => ⟨rfl, rfl, rfl⟩)
        (fun _ => ⟨rfl, rfl⟩) (fun id hid => absurd hid (hsession id))
        fun a ha => absurd ha (hidentity a)
  | connect hstep =>
    obtain ⟨hphase, rfl⟩ := Session.connect_eq_ok_iff.1 hstep
    exact h.say_first (by rw [hphase]; rfl) h.attached (fun h => nomatch h)
      (fun _ hid => nomatch hid) fun _ ha => nomatch ha
  | attach heard hstep =>
    obtain ⟨hphase, rfl⟩ := Session.attach_eq_ok_iff.1 hstep
    obtain rfl := hattach _ heard
    exact h.say_first (by rw [hphase]; rfl) (fun _ heq => (Option.some.inj heq).symm)
      (fun _ => rfl) (fun _ hid => nomatch hid) fun _ ha => nomatch ha
  | establish hstep =>
    obtain ⟨hphase, rfl, -⟩ := Session.establish_eq_ok_iff.1 hstep
    refine h.say_first (by rw [hphase]; rfl) h.attached (fun h => nomatch h)
      (fun id hid => ?_) fun a ha => ?_
    · cases List.mem_singleton.1 hid
      exact ⟨rfl, h.attaching hphase, rfl⟩
    · cases List.mem_singleton.1 ha
  | authenticate hstep =>
    obtain ⟨hphase, rfl⟩ := Session.authenticate_eq_ok_iff.1 hstep
    refine h.say h.attached (fun h => nomatch h) (fun _ => ⟨rfl, rfl, rfl⟩) (fun hold => ?_)
      (fun _ hid => nomatch hid) fun _ ha => nomatch ha
    rw [hphase] at hold
    cases hold
  | identify heard hrealm hnames hstep =>
    -- Only the credential of the client was heard, and only in its realm.
    obtain ⟨hphase, rfl, -⟩ := Session.identify_eq_ok_iff.1 hstep
    refine h.say h.attached (fun h => nomatch h) (fun _ => ⟨rfl, rfl, rfl⟩) (fun hold => ?_)
      (fun id hid => ?_) (fun a ha => ?_)
    · rw [hphase] at hold
      cases hold
    · cases List.mem_singleton.1 hid
    · cases List.mem_singleton.1 ha
      obtain rfl := h.attached _ hrealm
      obtain rfl := hauthenticate _ heard
      exact ⟨rfl, hanswers _ hnames, rfl⟩

end Truthful

theorem Channel.Plays.spoken {R : Stride} (h : ch.Plays R ch') :
    ∃ fs, ch'.spoken = ch.spoken ++ fs ∧ Script R ch.session fs ch'.session := by
  obtain ⟨items, hqueue, hscript⟩ := h
  exact ⟨framesOf items, by rw [Channel.spoken, hqueue, framesOf_append, Channel.spoken], hscript⟩

/-! ## Who is at the ends -/

namespace Duplex

/-- These channels are at the ends, with their roles and their pipelines. -/
structure Manned (cw : ClientWiring) (sw : ServerWiring σ) (cl sv : Channel σ) (d : Duplex σ) :
    Prop where
  client : d.channel? .client = some cl
  server : d.channel? .server = some sv
  clientWired : ∃ l, cl.Wired l (clientRest cw)
  serverWired : ∃ l, sv.Wired l (serverRest sw)
  clientRole : cl.session.role = .initiator
  serverRole : sv.session.role = .responder
  wired : d.node.AllWired

variable {cw : ClientWiring} {sw : ServerWiring σ}

theorem Manned.later (h : Manned cw sw cl sv d) {d' : Duplex σ} (hlater : d.node.Later d'.node) :
    ∃ cl' sv', Manned cw sw cl' sv' d' := by
  obtain ⟨cl', hcl', hclient⟩ := hlater.channel _ cl h.client
  obtain ⟨sv', hsv', hserver⟩ := hlater.channel _ sv h.server
  obtain ⟨l, hcw⟩ := h.clientWired
  obtain ⟨l', hsw⟩ := h.serverWired
  exact ⟨cl', sv', hcl', hsv', hcw.later hclient, hsw.later hserver,
    hclient.role.trans h.clientRole, hserver.role.trans h.serverRole, h.wired.later hlater⟩

theorem manned_start (policy : σ) (cw : ClientWiring) (sw : ServerWiring σ) (now : Nat) :
    ∃ cl sv, Manned cw sw cl sv (start policy cw sw now) := by
  obtain ⟨cl, sv, hgood⟩ := good_start policy cw sw now
  cases hgood.client
  cases hgood.server
  exact ⟨_, _, rfl, rfl, ⟨.empty, client_pipeline_eq cw, plain_clientRest cw⟩,
    ⟨.empty, server_pipeline_eq sw, plain_serverRest sw⟩, rfl, rfl, hgood.ready.wired⟩

theorem manned_run (policy : σ) (cw : ClientWiring) (sw : ServerWiring σ) (now : Nat)
    (moves : List DuplexMove) :
    ∃ cl sv, Manned cw sw cl sv ((start policy cw sw now).run moves) := by
  obtain ⟨cl, sv, hmanned⟩ := manned_start policy cw sw now
  exact hmanned.later (later_run _ moves)

/-! ## What a move makes them say -/

/-- What may happen at each end, where the other has said these frames. -/
def Bearing (cw : ClientWiring) (names : Address → Credential → Address → Prop) (d : Duplex σ)
    (c : ChannelId) : Stride :=
  if c = End.client.channel then Joins cw (· ∈ d.spoken .server)
  else Hosts (· ∈ d.spoken .client) names

section bearing

variable {names : Address → Credential → Address → Prop}

theorem bearing_client : Bearing cw names d End.client.channel = Joins cw (· ∈ d.spoken .server) :=
  if_pos rfl

theorem bearing_server :
    Bearing cw names d End.server.channel = Hosts (· ∈ d.spoken .client) names :=
  if_neg channel_ne

theorem bearing_speaks (c : ChannelId) {t : Session} {fs : List Frame} {t' : Session}
    (h : Speaks t fs t') : Bearing cw names d c t fs t' := by
  unfold Bearing
  split
  · exact .speaks h
  · exact .speaks h

theorem mem_of_next? {e : End} {f : Frame} (h : d.next? e = some f) : f ∈ d.spoken e.other :=
  List.mem_of_getElem? h

theorem plays_deliverFrame {R : ChannelId → Stride}
    (hspeaks : ∀ c {t fs t'}, Speaks t fs t' → R c t fs t') (h : n.AllWired)
    (hch : n.channel? c = some ch) {f : Frame}
    (hhandled : n.Plays R (handleFrame c ch.session.role f n)) :
    n.Plays R (deliverFrame c n f) := by
  have hlater := later_rule.telling.handleFrame c ch.session.role f n
  rw [deliverFrame_eq hch]
  split
  · exact .refl n
  · split
    · exact hhandled.trans (plays_finish hspeaks (h.later hlater) c)
    · exact hhandled

/-- Whatever happens, each end goes on with its handshake and hears what the other has said. -/
theorem Manned.plays (h : Manned cw sw cl sv d) (m : DuplexMove)
    (hnames : ∀ realm credential a, (sw.authenticate realm credential d.node.policy).1 = .ok a →
      names realm credential a) : d.node.Plays (Bearing cw names d) (d.move m).node := by
  have hjoins : ∀ {t fs t'}, Joins cw (· ∈ d.spoken .server) t fs t' →
      Bearing cw names d End.client.channel t fs t' := by
    intro t fs t' hjoins
    rw [bearing_client]
    exact hjoins
  have hhosts : ∀ {t fs t'}, Hosts (· ∈ d.spoken .client) names t fs t' →
      Bearing cw names d End.server.channel t fs t' := by
    intro t fs t' hhosts
    rw [bearing_server]
    exact hhosts
  obtain ⟨l, hcw⟩ := h.clientWired
  obtain ⟨l', hsw⟩ := h.serverWired
  cases m with
  | greet e =>
    cases e with
    | client => exact plays_greet_client hjoins (attends_clientRest cw) h.client hcw h.clientRole
    | server => exact plays_greet_server hhosts h.server hsw h.serverRole
  | send e ps =>
    unfold Duplex.move
    simp only []
    split
    · exact plays_sendPackets bearing_speaks h.wired e.channel ps
    · exact .refl _
  | route p => exact plays_routePacket bearing_speaks h.wired p
  | fetch e => exact plays_writeFrame bearing_speaks e.channel regular_fetch trivial d.node
  | ask e =>
    exact plays_writeFrame bearing_speaks e.channel regular_requestAcknowledgment trivial d.node
  | deliver e =>
    unfold Duplex.move
    simp only []
    split
    · rename_i f hnext
      have heard := mem_of_next? hnext
      cases e with
      | client =>
        refine plays_deliverFrame bearing_speaks h.wired h.client ?_
        rw [h.clientRole]
        exact plays_handleFrame_client bearing_speaks hjoins h.wired (attends_clientRest cw) h.client
          hcw h.clientRole heard
      | server =>
        refine plays_deliverFrame bearing_speaks h.wired h.server ?_
        rw [h.serverRole]
        exact plays_handleFrame_server bearing_speaks hhosts h.wired h.server hsw heard hnames
    · exact .refl _

end bearing

/-! ## Accord -/

/-- The client knows only what it has heard, and the server stands by what it has told. -/
structure Accord (cw : ClientWiring) (names : Address → Prop) (d : Duplex σ) : Prop where
  client : ∀ cl, d.channel? .client = some cl →
    Informed cw (· ∈ d.spoken .server) cl.session cl.spoken
  server : ∀ sv, d.channel? .server = some sv →
    Truthful cw.address names sv.session sv.spoken

namespace Accord

variable {names names' : Address → Prop}

theorem mono (h : Accord cw names d) (hmore : ∀ a, names a → names' a) : Accord cw names' d :=
  ⟨h.client, fun sv hsv => (h.server sv hsv).mono hmore⟩

/-- A move keeps the accord, if the names are those that the authenticator gives. -/
theorem move (h : Accord cw names d) (hmanned : Manned cw sw cl sv d) (m : DuplexMove)
    (hnames : ∀ a, (sw.authenticate cw.address cw.credential d.node.policy).1 = .ok a → names a) :
    Accord cw names (d.move m) := by
  have hplays : d.node.Plays (Bearing cw (fun realm credential a =>
      (sw.authenticate realm credential d.node.policy).1 = .ok a) d) (d.move m).node :=
    hmanned.plays m fun _ _ _ h => h
  obtain ⟨cl', hcl', hclient⟩ := hplays _ cl hmanned.client
  obtain ⟨sv', hsv', hserver⟩ := hplays _ sv hmanned.server
  rw [bearing_client] at hclient
  rw [bearing_server] at hserver
  obtain ⟨fs, hfs, hscript⟩ := hclient.spoken
  obtain ⟨gs, hgs, hscript'⟩ := hserver.spoken
  have hinformed := h.client cl hmanned.client
  have hup : d.spoken .client = cl.spoken := spoken_eq hmanned.client
  have hheard : ∀ f ∈ d.spoken .server, f ∈ (d.move m).spoken .server := by
    intro f hf
    rw [spoken_eq hmanned.server] at hf
    rw [spoken_eq (d := d.move m) hsv', hgs]
    exact List.mem_append_left gs hf
  refine ⟨fun cl₁ hcl₁ => ?_, fun sv₁ hsv₁ => ?_⟩
  · cases hcl₁.symm.trans hcl'
    rw [hfs]
    have hkept := hscript.keeps (P := Informed cw (· ∈ d.spoken .server)) Informed.join hinformed
    exact hkept.mono hheard
  · cases hsv₁.symm.trans hsv'
    rw [hgs]
    refine hscript'.keeps (P := Truthful cw.address names) (Truthful.host ?_ ?_ hnames)
      (h.server sv hmanned.server)
    · exact fun a ha => hinformed.attach a (hup ▸ ha)
    · exact fun x hx => hinformed.authenticate x (hup ▸ hx)

end Accord

/-- The authenticator has given this name to the client's credential, some way into the run. -/
def Named (policy : σ) (cw : ClientWiring) (sw : ServerWiring σ) (now : Nat)
    (moves : List DuplexMove) (a : Address) : Prop :=
  ∃ earlier, earlier <+: moves ∧ (sw.authenticate cw.address cw.credential
    ((start policy cw sw now).run earlier).node.policy).1 = .ok a

theorem accord_start (policy : σ) (cw : ClientWiring) (sw : ServerWiring σ) (now : Nat)
    (names : Address → Prop) : Accord cw names (start policy cw sw now) := by
  refine ⟨fun cl hcl => ?_, fun sv hsv => ?_⟩
  · cases hcl
    exact ⟨fun _ hf => (nomatch hf), fun _ hf => (nomatch hf), fun _ h => (nomatch h),
      fun _ h => nomatch h⟩
  · cases hsv
    exact ⟨fun _ h => (nomatch h), fun h => (nomatch h), fun _ hf => (nomatch hf),
      fun _ hf => nomatch hf⟩

theorem accord_run (policy : σ) (cw : ClientWiring) (sw : ServerWiring σ) (now : Nat)
    (moves : List DuplexMove) :
    Accord cw (Named policy cw sw now moves) ((start policy cw sw now).run moves) := by
  -- The authenticator is asked with the policies as the moves before have left them.
  induction moves using List.reverseRecOn with
  | nil => exact accord_start policy cw sw now _
  | append_singleton moves m ih =>
    obtain ⟨cl, sv, hmanned⟩ := manned_run policy cw sw now moves
    have hmore : ∀ a, Named policy cw sw now moves a → Named policy cw sw now (moves ++ [m]) a := by
      rintro a ⟨earlier, hprefix, hanswer⟩
      exact ⟨earlier, hprefix.trans (List.prefix_append moves [m]), hanswer⟩
    have hrun : (start policy cw sw now).run (moves ++ [m]) =
        ((start policy cw sw now).run moves).move m := List.foldl_append ..
    rw [hrun]
    exact (ih.mono hmore).move hmanned m fun a ha => ⟨moves, List.prefix_append moves [m], ha⟩

/-- What the client knows of the connection, the server knows too. -/
theorem Accord.agree {names : Address → Prop} (h : Accord cw names d)
    (hclient : d.channel? .client = some cl) (hserver : d.channel? .server = some sv) :
    (∀ id, cl.session.sessionId = some id →
      sv.session.sessionId = some id ∧ sv.session.attachedAddress = some cw.address) ∧
    ∀ a, cl.session.identity = some a → sv.session.identity = some a ∧ names a := by
  have hinformed := h.client cl hclient
  have htruthful := h.server sv hserver
  rw [spoken_eq hserver] at hinformed
  refine ⟨fun id hid => ?_, fun a ha => ?_⟩
  · obtain ⟨hsession, haddress, -⟩ := htruthful.session id (hinformed.session id hid)
    exact ⟨hsession, haddress⟩
  · obtain ⟨hidentity, hnames, -⟩ := htruthful.identity a (hinformed.identity a ha)
    exact ⟨hidentity, hnames⟩

end Duplex
end Courier
