import Courier.Proofs.Session
import Mathlib.Data.List.Induction

/-! # A session and its history

The steps of the handshake and closes are called in any order, with any arguments, and most of the
calls are refused. What a session holds is what one reads off the calls that were not
(`session_history`): each of its three fields is the argument of the one call that succeeded in
setting it. What the initiator is asked for over the whole run is a credential and then a fetch, or
less; and only the first close finds the session open.
-/
set_option autoImplicit false

namespace Courier

open Courier.Wire

/-! ## Calls -/

inductive SessionCall where
  | connect
  | attach (a : Address)
  | establish (id : SessionId)
  | authenticate
  | identify (a : Address)
  | close
deriving DecidableEq

inductive SessionAnswer where
  | refused (e : InvalidStep)
  | done (demands : List Demand)
  /-- The answer of a close: whether the session was still open. -/
  | closing (wasOpen : Bool)
deriving DecidableEq

/-- The answer of a step, and the session that it leaves. -/
def Session.settle (s : Session) : Except InvalidStep (Session × List Demand) →
    SessionAnswer × Session
  | .ok (s', d) => (.done d, s')
  | .error e => (.refused e, s)

namespace SessionCall

def perform (s : Session) : SessionCall → SessionAnswer × Session
  | connect => s.settle (s.connect.map (·, []))
  | attach a => s.settle ((s.attach a).map (·, []))
  | establish id => s.settle (s.establish id)
  | authenticate => s.settle (s.authenticate.map (·, []))
  | identify a => s.settle (s.identify a)
  | close => (.closing s.shut.1, s.shut.2)

/-- The phase that a step is taken from. -/
def source? : SessionCall → Option Phase
  | connect => some .unconnected
  | attach _ => some .connected
  | establish _ => some .attached
  | authenticate => some .established
  | identify _ => some .authenticated
  | close => none

def name : SessionCall → String
  | connect => "connect"
  | attach _ => "attach"
  | establish _ => "establish"
  | authenticate => "authenticate"
  | identify _ => "identify"
  | close => "close"

/-- What a step asks for where it is taken. -/
def asks (s : Session) : SessionCall → List Demand
  | establish _ => s.demands .credential
  | identify _ => s.demands .fetch
  | _ => []

/-- The session that a call leaves where it is not refused. -/
def advance (s : Session) : SessionCall → Session
  | connect => { s with phase := .connected }
  | attach a => { s with attachedAddress := some a, phase := .attached }
  | establish id => { s with sessionId := some id, phase := .established }
  | authenticate => { s with phase := .authenticated }
  | identify a => { s with identity := some a, phase := .identified }
  | close => s.close

def attached? : SessionCall → Option Address
  | attach a => some a
  | _ => none

def established? : SessionCall → Option SessionId
  | establish id => some id
  | _ => none

def identified? : SessionCall → Option Address
  | identify a => some a
  | _ => none

end SessionCall

/-- The phase behind a phase of the handshake. -/
def Phase.next? : Phase → Option Phase
  | unconnected => some .connected
  | connected => some .attached
  | attached => some .established
  | established => some .authenticated
  | authenticated => some .identified
  | identified | closed => none

/-! ## Histories -/

/-- A call and the session that it found. -/
structure SessionEntry where
  before : Session
  call : SessionCall

namespace SessionEntry

def answer (e : SessionEntry) : SessionAnswer := (e.call.perform e.before).1

def after (e : SessionEntry) : Session := (e.call.perform e.before).2

def succeeded (e : SessionEntry) : Bool :=
  match e.answer with
  | .done _ => true
  | _ => false

/-- What the call asks the initiator for. -/
def demands (e : SessionEntry) : List Demand :=
  match e.answer with
  | .done d => d
  | _ => []

/-- The argument of a call that succeeded. -/
def given {β : Type} (arg? : SessionCall → Option β) (e : SessionEntry) : Option β :=
  if e.succeeded then arg? e.call else none

end SessionEntry

open SessionEntry

namespace Session

def after (s : Session) (calls : List SessionCall) : Session :=
  calls.foldl (fun s c => (c.perform s).2) s

def history : Session → List SessionCall → List SessionEntry
  | _, [] => []
  | s, c :: rest => ⟨s, c⟩ :: history (c.perform s).2 rest

theorem after_concat (s : Session) (calls : List SessionCall) (c : SessionCall) :
    s.after (calls ++ [c]) = (c.perform (s.after calls)).2 := by
  simp [after]

theorem history_append (s : Session) (calls more : List SessionCall) :
    s.history (calls ++ more) = s.history calls ++ (s.after calls).history more := by
  induction calls generalizing s with
  | nil => rfl
  | cons c calls ih => simp [history, ih, after]

theorem history_concat (s : Session) (calls : List SessionCall) (c : SessionCall) :
    s.history (calls ++ [c]) = s.history calls ++ [⟨s.after calls, c⟩] :=
  history_append s calls [c]

end Session

/-! ## One call -/

namespace SessionCall

variable {s : Session} {c : SessionCall}

theorem perform_close (s : Session) : close.perform s = (.closing (!s.isClosed), s.close) := by
  unfold perform Session.shut
  cases hclosed : s.isClosed with
  | true => rw [if_pos rfl, Session.close_of_closed hclosed]; rfl
  | false => rfl

theorem perform_of_source (h : c.source? = some s.phase) :
    c.perform s = (.done (c.asks s), c.advance s) := by
  cases c with
  | connect =>
    rw [perform, Session.connect_eq_ok_iff.2 ⟨(Option.some.inj h).symm, rfl⟩]
    rfl
  | attach a =>
    rw [perform, Session.attach_eq_ok_iff.2 ⟨(Option.some.inj h).symm, rfl⟩]
    rfl
  | establish id =>
    rw [perform, Session.establish_eq_ok_iff.2 ⟨(Option.some.inj h).symm, rfl, rfl⟩]
    rfl
  | authenticate =>
    rw [perform, Session.authenticate_eq_ok_iff.2 ⟨(Option.some.inj h).symm, rfl⟩]
    rfl
  | identify a =>
    rw [perform, Session.identify_eq_ok_iff.2 ⟨(Option.some.inj h).symm, rfl, rfl⟩]
    rfl
  | close => cases h

theorem perform_of_not_source (hcall : c ≠ .close) (h : c.source? ≠ some s.phase) :
    c.perform s = (.refused ⟨s.phase, c.name⟩, s) := by
  have hphase : ∀ p, c.source? = some p → ∀ op, s.require p op = .error ⟨s.phase, op⟩ := by
    intro p hp op
    exact if_neg fun heq => h (by rw [hp, heq])
  cases c with
  | connect => rw [perform, Session.connect, hphase _ rfl]; rfl
  | attach a => rw [perform, Session.attach, hphase _ rfl]; rfl
  | establish id => rw [perform, Session.establish, hphase _ rfl]; rfl
  | authenticate => rw [perform, Session.authenticate, hphase _ rfl]; rfl
  | identify a => rw [perform, Session.identify, hphase _ rfl]; rfl
  | close => exact absurd rfl hcall

/-- A call is a close, a step that is taken, or a step that is refused. -/
theorem perform_cases (c : SessionCall) (s : Session) :
    (c = .close ∧ c.perform s = (.closing (!s.isClosed), s.close)) ∨
    (c.source? = some s.phase ∧ c.perform s = (.done (c.asks s), c.advance s)) ∨
    (c ≠ .close ∧ c.source? ≠ some s.phase ∧
      c.perform s = (.refused ⟨s.phase, c.name⟩, s)) := by
  by_cases hcall : c = .close
  · exact .inl ⟨hcall, hcall ▸ perform_close s⟩
  · by_cases hphase : c.source? = some s.phase
    · exact .inr (.inl ⟨hphase, perform_of_source hphase⟩)
    · exact .inr (.inr ⟨hcall, hphase, perform_of_not_source hcall hphase⟩)

theorem next?_of_source {p : Phase} (h : c.source? = some p) :
    p.next? = some (c.advance s).phase := by
  cases c <;> cases h <;> rfl

theorem role_advance (c : SessionCall) (s : Session) : (c.advance s).role = s.role := by
  cases c <;> rfl

theorem isOpen_of_source {p : Phase} (h : c.source? = some p) :
    p ≠ .closed ∧ (c.advance s).phase ≠ .closed := by
  cases c <;> cases h <;> exact ⟨nofun, nofun⟩

/-! ## Refusals and phases -/

theorem perform_eq_refused_iff {e : InvalidStep} : (c.perform s).1 = .refused e ↔
    c ≠ .close ∧ c.source? ≠ some s.phase ∧ e = ⟨s.phase, c.name⟩ := by
  obtain ⟨rfl, h⟩ | ⟨hphase, h⟩ | ⟨hcall, hphase, h⟩ := perform_cases c s
  · simp [h]
  · simp [h, hphase]
  · simp [h, hcall, hphase, eq_comm]

theorem after_of_refused {e : InvalidStep} (he : (c.perform s).1 = .refused e) :
    (c.perform s).2 = s := by
  obtain ⟨hcall, hphase, -⟩ := perform_eq_refused_iff.1 he
  rw [perform_of_not_source hcall hphase]

theorem next?_of_done {d : List Demand} (hd : (c.perform s).1 = .done d) :
    c.source? = some s.phase ∧ s.phase.next? = some (c.perform s).2.phase := by
  obtain ⟨-, h⟩ | ⟨hphase, h⟩ | ⟨-, -, h⟩ := perform_cases c s
  · rw [h] at hd
    cases hd
  · rw [h]
    exact ⟨hphase, next?_of_source hphase⟩
  · rw [h] at hd
    cases hd

theorem closed_of_closed (h : s.phase = .closed) : (c.perform s).2.phase = .closed := by
  obtain ⟨-, hc⟩ | ⟨hphase, -⟩ | ⟨-, -, hc⟩ := perform_cases c s
  · rw [hc]
    rfl
  · exact absurd h (isOpen_of_source (s := s) hphase).1
  · rw [hc]
    exact h

end SessionCall

theorem Session.closed_after {s : Session} (h : s.phase = .closed) (calls : List SessionCall) :
    (s.after calls).phase = .closed := by
  induction calls generalizing s with
  | nil => exact h
  | cons c calls ih => exact ih (SessionCall.closed_of_closed h)

/-- A session is closed once a close was called. -/
theorem Session.closed_after_iff {s : Session} (h : s.phase ≠ .closed) (calls : List SessionCall) :
    (s.after calls).phase = .closed ↔ .close ∈ calls := by
  induction calls using List.reverseRecOn with
  | nil => simp [after, h]
  | append_singleton calls c ih =>
    rw [after_concat, List.mem_append, List.mem_singleton, ← ih]
    obtain ⟨rfl, hc⟩ | ⟨hphase, hc⟩ | ⟨hcall, -, hc⟩ := c.perform_cases (s.after calls)
    · simp [hc, close]
    · obtain ⟨hopen, hopen'⟩ := SessionCall.isOpen_of_source (s := s.after calls) hphase
      have hcall : c ≠ .close := by
        rintro rfl
        cases hphase
      simp [hc, hopen, hopen', hcall.symm]
    · simp [hc, hcall.symm]

/-! ## Fields that are set once -/

/-- A field of the session, the calls that give it a value and the phases in which it has none. -/
structure SetOnce {β : Type} (field : Session → Option β) (arg? : SessionCall → Option β)
    (unset : Phase → Bool) : Prop where
  advance : ∀ s (c : SessionCall), field (c.advance s) = (arg? c).or (field s)
  /-- It is set in a phase in which it has no value. -/
  source : ∀ (c : SessionCall) p b, c.source? = some p → arg? c = some b → unset p = true
  /-- In a phase in which it has no value, it was not set. -/
  unset_advance : ∀ s (c : SessionCall) p, c.source? = some p → unset (c.advance s).phase = true →
    arg? c = none ∧ unset p = true
  close : arg? .close = none
  closed : unset .closed = false

theorem setOnce_attachedAddress : SetOnce Session.attachedAddress SessionCall.attached?
    fun p => p = .unconnected ∨ p = .connected where
  advance s c := by cases c <;> rfl
  source c p b hp hb := by cases c <;> cases hb; cases hp; rfl
  unset_advance s c p hp hunset := by cases c <;> cases hp <;> cases hunset; exact ⟨rfl, rfl⟩
  close := rfl
  closed := rfl

theorem setOnce_sessionId : SetOnce Session.sessionId SessionCall.established?
    fun p => p = .unconnected ∨ p = .connected ∨ p = .attached where
  advance s c := by cases c <;> rfl
  source c p b hp hb := by cases c <;> cases hb; cases hp; rfl
  unset_advance s c p hp hunset := by cases c <;> cases hp <;> cases hunset <;> exact ⟨rfl, rfl⟩
  close := rfl
  closed := rfl

theorem setOnce_identity : SetOnce Session.identity SessionCall.identified?
    fun p => p ≠ .identified ∧ p ≠ .closed where
  advance s c := by cases c <;> rfl
  source c p b hp hb := by cases c <;> cases hb; cases hp; rfl
  unset_advance s c p hp hunset := by cases c <;> cases hp <;> cases hunset <;> exact ⟨rfl, rfl⟩
  close := rfl
  closed := rfl

namespace SetOnce

variable {β : Type} {field : Session → Option β} {arg? : SessionCall → Option β}
  {unset : Phase → Bool} (h : SetOnce field arg? unset)

include h

/-- What one call gives to the field, and whether it had a value. -/
theorem perform (s : Session) (c : SessionCall) :
    field (c.perform s).2 = (given arg? ⟨s, c⟩).or (field s) ∧
      (∀ b, given arg? ⟨s, c⟩ = some b → unset s.phase = true) ∧
      (unset (c.perform s).2.phase = true →
        given arg? ⟨s, c⟩ = none ∧ unset s.phase = true) := by
  have hgiven : ∀ {a s'}, c.perform s = (a, s') → (∀ d, a ≠ .done d) →
      given arg? ⟨s, c⟩ = none := by
    intro a s' heq hnot
    rw [given, succeeded, SessionEntry.answer, heq]
    cases a with
    | done d => exact absurd rfl (hnot d)
    | _ => rfl
  obtain ⟨rfl, hc⟩ | ⟨hphase, hc⟩ | ⟨-, -, hc⟩ := c.perform_cases s
  · rw [hgiven hc nofun, hc]
    have hfield := h.advance s .close
    rw [h.close] at hfield
    refine ⟨hfield, nofun, fun hunset => ?_⟩
    rw [show s.close.phase = .closed from rfl, h.closed] at hunset
    cases hunset
  · have hdone : given arg? ⟨s, c⟩ = arg? c := by
      rw [given, succeeded, SessionEntry.answer, hc]
      rfl
    rw [hdone, hc]
    exact ⟨h.advance s c, fun b => h.source c _ b hphase, h.unset_advance s c _ hphase⟩
  · rw [hgiven hc nofun, hc]
    exact ⟨rfl, nofun, fun hunset => ⟨rfl, hunset⟩⟩

/-- The field holds the argument of the call that gave it one, which is at most one call. -/
theorem history {s : Session} (hnone : field s = none) (calls : List SessionCall) :
    (s.history calls).filterMap (given arg?) = (field (s.after calls)).toList ∧
      (unset (s.after calls).phase = true → field (s.after calls) = none) := by
  induction calls using List.reverseRecOn with
  | nil => exact ⟨by rw [Session.after, List.foldl_nil, hnone]; rfl, fun _ => hnone⟩
  | append_singleton calls c ih =>
    obtain ⟨hgiven, hunset⟩ := ih
    obtain ⟨hfield, hsource, hafter⟩ := h.perform (s.after calls) c
    rw [Session.history_concat, Session.after_concat, List.filterMap_append, hgiven, hfield]
    refine ⟨?_, fun hu => ?_⟩
    · cases hb : given arg? ⟨s.after calls, c⟩ with
      | none => simp [hb]
      | some b => simp [hb, hunset (hsource b hb)]
    · obtain ⟨hnot, hu⟩ := hafter hu
      rw [hnot, hunset hu]
      rfl

theorem kept {s : Session} (hnone : field s = none) (calls more : List SessionCall) {b : β}
    (hb : field (s.after calls) = some b) : field ((s.after calls).after more) = some b := by
  have hall := (h.history hnone (calls ++ more)).1
  have hsplit : s.after (calls ++ more) = (s.after calls).after more := List.foldl_append
  rw [Session.history_append, List.filterMap_append, (h.history hnone calls).1, hb, hsplit] at hall
  cases hlast : field ((s.after calls).after more) with
  | none => simp [hlast] at hall
  | some b' =>
    rw [hlast, Option.toList_some, Option.toList_some, List.singleton_append] at hall
    rw [(List.cons.inj hall).1]

end SetOnce

/-! ## What the initiator is asked for -/

/-- What has been asked for in a phase of the handshake. -/
def Session.asked? (s : Session) : Option (List Demand) :=
  match s.phase with
  | .unconnected | .connected | .attached => some []
  | .established | .authenticated => some (s.demands .credential)
  | .identified => some (s.demands .credential ++ s.demands .fetch)
  | .closed => none

theorem Session.asked?_of_phase {s : Session} {p : Phase} (h : s.phase = p) :
    s.asked? = { s with phase := p }.asked? := by
  cases s
  cases h
  rfl

theorem SessionCall.asked?_advance {s : Session} {c : SessionCall}
    (h : c.source? = some s.phase) :
    ∃ d, s.asked? = some d ∧ (c.advance s).asked? = some (d ++ c.asks s) := by
  have hphase : ∀ {p}, c.source? = some p → s.asked? = { s with phase := p }.asked? := by
    intro p hp
    rw [hp] at h
    exact Session.asked?_of_phase (Option.some.inj h).symm
  cases c with
  | connect => exact ⟨[], hphase rfl, rfl⟩
  | attach a => exact ⟨[], hphase rfl, rfl⟩
  | establish id => exact ⟨[], hphase rfl, rfl⟩
  | authenticate =>
    refine ⟨s.demands .credential, hphase rfl, ?_⟩
    show some (s.demands .credential) = some (s.demands .credential ++ [])
    rw [List.append_nil]
  | identify a => exact ⟨s.demands .credential, hphase rfl, rfl⟩
  | close => cases h

def Session.script (s : Session) : List Demand := s.demands .credential ++ s.demands .fetch

theorem Session.asked?_prefix {s : Session} {d : List Demand} (h : s.asked? = some d) :
    d <+: s.script := by
  unfold asked? at h
  split at h <;> cases h
  · exact List.nil_prefix
  · exact List.nil_prefix
  · exact List.nil_prefix
  · exact List.prefix_append ..
  · exact List.prefix_append ..
  · exact List.prefix_rfl

theorem Session.script_of_role {s s' : Session} (h : s'.role = s.role) : s'.script = s.script := by
  unfold script demands
  rw [h]

/-- All that is asked for over a run is the script of the handshake or a beginning of it. -/
theorem Session.demands_history {s : Session} (h : s.asked? = some []) (calls : List SessionCall) :
    (s.after calls).role = s.role ∧
      (s.history calls).flatMap SessionEntry.demands <+: s.script ∧
      ∀ d, (s.after calls).asked? = some d →
        (s.history calls).flatMap SessionEntry.demands = d := by
  induction calls using List.reverseRecOn with
  | nil => exact ⟨rfl, List.nil_prefix, fun d hd => Option.some.inj (h.symm.trans hd)⟩
  | append_singleton calls c ih =>
    obtain ⟨hrole, hprefix, hasked⟩ := ih
    have hdemands : (s.history (calls ++ [c])).flatMap SessionEntry.demands =
        (s.history calls).flatMap SessionEntry.demands ++
          SessionEntry.demands ⟨s.after calls, c⟩ := by
      rw [history_concat, List.flatMap_append, List.flatMap_singleton]
    rw [hdemands, after_concat]
    -- A close and a refusal ask for nothing.
    have hnothing : ∀ {a s'}, c.perform (s.after calls) = (a, s') → (∀ d, a ≠ .done d) →
        SessionEntry.demands ⟨s.after calls, c⟩ = [] := by
      intro a s' heq hnot
      rw [SessionEntry.demands, SessionEntry.answer, heq]
      cases a with
      | done d => exact absurd rfl (hnot d)
      | _ => rfl
    obtain ⟨rfl, hc⟩ | ⟨hphase, hc⟩ | ⟨-, -, hc⟩ := c.perform_cases (s.after calls)
    · rw [hnothing hc nofun, List.append_nil, hc]
      exact ⟨hrole, hprefix, nofun⟩
    · obtain ⟨d, hd, hd'⟩ := SessionCall.asked?_advance hphase
      have hasks : SessionEntry.demands ⟨s.after calls, c⟩ = c.asks (s.after calls) := by
        rw [SessionEntry.demands, SessionEntry.answer, hc]
      rw [hasks, hasked d hd, hc]
      have hrole' : (c.advance (s.after calls)).role = s.role := (c.role_advance _).trans hrole
      refine ⟨hrole', ?_, fun d' => fun h' => Option.some.inj (hd'.symm.trans h')⟩
      rw [← script_of_role hrole']
      exact asked?_prefix hd'
    · rw [hnothing hc nofun, List.append_nil, hc]
      exact ⟨hrole, hprefix, hasked⟩

/-! ## Whole histories -/

/-- Whatever is called, and in whatever order. A call that is refused names the phase and itself and
leaves the session as it is; this is what every step gets outside its phase, and a step that is taken
leads to the next phase. A close is never refused, and no call leads out of `closed`. Each field
holds the argument of the one call that succeeded in setting it, if there was one, and keeps it.
What was asked for is the credential and then a fetch, or a beginning of that, of an initiator, and
nothing of a responder. A close finds the session open if it is the first. -/
theorem session_history (role : Role) (now : Nat) (timing : Timing) (calls : List SessionCall) :
    let s := (Session.start role now timing).after calls
    let es := (Session.start role now timing).history calls
    (∀ (c : SessionCall) e, (c.perform s).1 = .refused e ↔
      c ≠ .close ∧ c.source? ≠ some s.phase ∧ e = ⟨s.phase, c.name⟩) ∧
    (∀ (c : SessionCall) e, (c.perform s).1 = .refused e → (c.perform s).2 = s) ∧
    (∀ (c : SessionCall) d, (c.perform s).1 = .done d →
      c.source? = some s.phase ∧ s.phase.next? = some (c.perform s).2.phase) ∧
    (SessionCall.close.perform s).2.phase = .closed ∧
    (s.phase = .closed → ∀ more, (s.after more).phase = .closed) ∧
    (es.filterMap (given SessionCall.attached?) = s.attachedAddress.toList ∧
      es.filterMap (given SessionCall.established?) = s.sessionId.toList ∧
      es.filterMap (given SessionCall.identified?) = s.identity.toList) ∧
    (∀ more, (∀ a, s.attachedAddress = some a → (s.after more).attachedAddress = some a) ∧
      (∀ id, s.sessionId = some id → (s.after more).sessionId = some id) ∧
      ∀ a, s.identity = some a → (s.after more).identity = some a) ∧
    es.flatMap SessionEntry.demands <+: (match role with
      | .initiator => [.credential, .fetch]
      | .responder => []) ∧
    (SessionCall.close.perform s).1 = .closing (decide (.close ∉ calls)) := by
  intro s es
  refine ⟨fun c e => SessionCall.perform_eq_refused_iff, fun c e => SessionCall.after_of_refused,
    fun c d => SessionCall.next?_of_done, ?_, Session.closed_after,
    ⟨(setOnce_attachedAddress.history rfl calls).1, (setOnce_sessionId.history rfl calls).1,
      (setOnce_identity.history rfl calls).1⟩,
    fun more => ⟨fun a => setOnce_attachedAddress.kept rfl calls more,
      fun id => setOnce_sessionId.kept rfl calls more,
      fun a => setOnce_identity.kept rfl calls more⟩, ?_, ?_⟩
  · rw [SessionCall.perform_close]
    rfl
  · have h := (Session.demands_history (s := Session.start role now timing) rfl calls).2.1
    cases role with
    | initiator => exact h
    | responder => exact h
  · have hclosed := Session.closed_after_iff (s := Session.start role now timing) nofun calls
    rw [SessionCall.perform_close, Session.isClosed, ← decide_not]
    exact congrArg SessionAnswer.closing (decide_eq_decide.2 (not_congr hclosed))

end Courier
