import Courier.Proofs.Duplex.AtLeastOnce
import Courier.Proofs.Duplex.Pending

/-! # Coming to rest

An end is calm if it holds nothing unacknowledged, or if it is due one acknowledgment at most, or if
the first that it is due matches what it has transmitted (`Duplex.Calm`). Calm ends stay calm, and
every frame that is delivered to one leaves less to be done (`Duplex.Hears.work_lt`), so an exchange
of calm ends that is left to itself comes to rest (`Duplex.lossless_exchange_comes_to_rest`). An end
that is due two acknowledgments of which neither will match when it comes sends its buffer again at
each of them, for ever (`Duplex.Joined.never_rests`).
-/
set_option autoImplicit false

namespace Courier

open Courier.Wire Courier.Wire.Frame Courier.Routing

variable {σ : Type} {cl sv : Channel σ} {d d' : Duplex σ} {e : End} {f : Frame}
  {left pending : List UInt32} {l : Ledger}

/-! ## What there is to do -/

/-- A request is answered; nothing else need be, if the end is calm. -/
def weight : Frame → Nat
  | .requestAcknowledgment => 2
  | _ => 1

def load : List Frame → Nat
  | [] => 0
  | f :: fs => weight f + load fs

theorem load_cons (f : Frame) (fs : List Frame) : load (f :: fs) = weight f + load fs := rfl

theorem load_append (fs fs' : List Frame) : load (fs ++ fs') = load fs + load fs' := by
  induction fs with
  | nil => exact (Nat.zero_add _).symm
  | cons f fs ih => rw [List.cons_append, load_cons, load_cons, ih, Nat.add_assoc]

theorem weight_pos (f : Frame) : 0 < weight f := by cases f <;> exact Nat.succ_pos _

namespace Ledger

def Calm (l : Ledger) (pending : List UInt32) : Prop :=
  l.unacknowledged = [] ∨ pending.length ≤ 1 ∨ pending.head? = some l.transmitted

/-- What the one acknowledgment that is due will have the end say. -/
def debt (l : Ledger) : List UInt32 → Nat
  | [count] =>
    if l.unacknowledged = [] ∨ count = l.transmitted then 0
    else load (sends l.unacknowledged ++ [.requestAcknowledgment])
  | _ => 0

theorem debt_of_empty (h : l.unacknowledged = []) (pending : List UInt32) : l.debt pending = 0 := by
  unfold debt
  split
  · exact if_pos (.inl h)
  · rfl

theorem debt_of_matching (l : Ledger) : l.debt [l.transmitted] = 0 := if_pos (.inr rfl)

/-- Buffers that are sent again are asked about, and the answer will match. -/
theorem answers_resent (hbuffer : l.unacknowledged ≠ []) :
    answers l.transmitted (sends l.unacknowledged ++ [.requestAcknowledgment]) =
      [l.flush.1.transmitted] := by
  have hsends : answers l.transmitted (sends l.unacknowledged) = [] := by
    refine answers_eq_nil fun f hf => ?_
    obtain ⟨run, -, rfl⟩ := List.mem_map.1 hf
    exact fun heq => nomatch heq
  rw [answers_append, packets_sends, hsends, l.transmitted_flush (isEmpty_buffer_of_ne hbuffer)]
  rfl

/-- A frame that is no acknowledgment leaves an end with what it holds, and due what it was. -/
theorem reply_of_ne (l : Ledger) (hf : ∀ count, f ≠ .acknowledge count) :
    (l.reply f).1.unacknowledged = l.unacknowledged ∧
      (l.reply f).1.transmitted = l.transmitted ∧ answers l.transmitted (l.reply f).2 = [] ∧
        load (l.reply f).2 < weight f := by
  cases f with
  | acknowledge count => exact absurd rfl (hf count)
  | requestAcknowledgment => exact ⟨rfl, rfl, rfl, Nat.one_lt_two⟩
  | _ => exact ⟨rfl, rfl, rfl, Nat.zero_lt_one⟩

theorem debt_congr {l' : Ledger} (hheld : l'.unacknowledged = l.unacknowledged)
    (htransmitted : l'.transmitted = l.transmitted) (pending : List UInt32) :
    l'.debt pending = l.debt pending := by
  unfold debt
  rw [hheld, htransmitted]

/-- A calm end that takes a frame stays calm, and has less to do. -/
theorem calm_reply (h : l.Calm (counts [f] ++ left)) :
    (l.reply f).1.Calm (left ++ answers l.transmitted (l.reply f).2) ∧
      load (l.reply f).2 + (l.reply f).1.debt (left ++ answers l.transmitted (l.reply f).2) <
        weight f + l.debt (counts [f] ++ left) := by
  by_cases hack : ∃ count, f = .acknowledge count
  · obtain ⟨count, rfl⟩ := hack
    have hcounts : counts [.acknowledge count] = [count] := rfl
    have hpos := weight_pos (.acknowledge count)
    rw [hcounts] at h ⊢
    obtain ⟨-, heq⟩ | ⟨hempty, heq⟩ | ⟨hcount, hbuffer, heq⟩ := l.reply_cases count
    · have hempty : ({ l with buffer := .empty } : Ledger).unacknowledged = [] := rfl
      rw [heq, debt_of_empty hempty]
      exact ⟨.inl hempty, Nat.lt_of_lt_of_le hpos (Nat.le_add_right _ _)⟩
    · rw [heq, debt_of_empty hempty]
      exact ⟨.inl hempty, Nat.lt_of_lt_of_le hpos (Nat.le_add_right _ _)⟩
    · -- The acknowledgment does not match, so it is the only one due.
      have hnone : left = [] := by
        obtain hnil | hlength | hhead := h
        · exact absurd hnil hbuffer
        · exact List.eq_nil_of_length_eq_zero (Nat.le_zero.1 (Nat.le_of_succ_le_succ hlength))
        · exact absurd (Option.some.inj hhead) hcount
      subst hnone
      have hdebt : l.debt [count] = load (sends l.unacknowledged ++ [.requestAcknowledgment]) :=
        if_neg fun hor => hor.elim hbuffer hcount
      rw [heq, answers_resent hbuffer, List.nil_append, debt_of_matching, List.append_nil, hdebt]
      exact ⟨.inr (.inl (Nat.le_refl 1)), Nat.lt_add_of_pos_left hpos⟩
  · have hf : ∀ count, f ≠ .acknowledge count := fun count heq => hack ⟨count, heq⟩
    obtain ⟨hheld, htransmitted, hanswers, hload⟩ := l.reply_of_ne hf
    have hcounts : counts [f] = [] := counts_eq_nil fun g hg => List.mem_singleton.1 hg ▸ hf
    rw [hcounts, List.nil_append] at h
    rw [hanswers, List.append_nil, hcounts, List.nil_append, Calm, hheld, htransmitted,
      debt_congr hheld htransmitted]
    exact ⟨h, by omega⟩

/-- An end that holds something was made to ask about it again. -/
theorem due_reply (hdue : l.unacknowledged = [] ∨ counts [f] ++ left ≠ []) :
    (l.reply f).1.unacknowledged = [] ∨ left ++ answers l.transmitted (l.reply f).2 ≠ [] := by
  by_cases hack : ∃ count, f = .acknowledge count
  · obtain ⟨count, rfl⟩ := hack
    obtain ⟨-, heq⟩ | ⟨hempty, heq⟩ | ⟨hcount, hbuffer, heq⟩ := l.reply_cases count
    · rw [heq]
      exact .inl rfl
    · rw [heq]
      exact .inl hempty
    · rw [heq, answers_resent hbuffer]
      exact .inr (List.append_ne_nil_of_right_ne_nil _ (List.cons_ne_nil _ _))
  · have hf : ∀ count, f ≠ .acknowledge count := fun count heq => hack ⟨count, heq⟩
    obtain ⟨hheld, -, hanswers, -⟩ := l.reply_of_ne hf
    have hcounts : counts [f] = [] := counts_eq_nil fun g hg => List.mem_singleton.1 hg ▸ hf
    rw [hheld, hanswers, List.append_nil]
    rw [hcounts] at hdue
    exact hdue

end Ledger

/-! ## Exchanges that come to rest -/

namespace Duplex

def Calm (d : Duplex σ) (e : End) : Prop := (d.ledger e).Calm (d.pending e)

/-- What the frames on the way to an end and those that it is yet to say leave to be done. -/
def share (d : Duplex σ) (e : End) : Nat := load (d.link e) + (d.ledger e).debt (d.pending e)

def work (d : Duplex σ) : Nat := d.share .client + d.share .server

theorem work_eq (d : Duplex σ) (e : End) : d.work = d.share e + d.share e.other := by
  cases e with
  | client => rfl
  | server => exact Nat.add_comm _ _

/-- If an end holds something, an acknowledgment is due to it. -/
def Due (d : Duplex σ) (e : End) : Prop := (d.ledger e).unacknowledged = [] ∨ d.pending e ≠ []

namespace Hears

variable (h : Hears e f d d') (hgood : Good cl sv d)

include h hgood

theorem calm (hcalm : ∀ e, d.Calm e) (x : End) : d'.Calm x := by
  obtain rfl | rfl := e.eq_or_eq_other x
  · obtain ⟨left, hbefore, hafter⟩ := h.pending hgood
    have hself := hcalm x
    rw [Calm, hbefore] at hself
    rw [Calm, h.ledger, hafter]
    exact (Ledger.calm_reply hself).1
  · rw [Calm, h.other, h.pending_other]
    exact hcalm e.other

theorem due {x : End} (hdue : d.Due x) : d'.Due x := by
  obtain rfl | rfl := e.eq_or_eq_other x
  · obtain ⟨left, hbefore, hafter⟩ := h.pending hgood
    rw [Due, hbefore] at hdue
    rw [Due, h.ledger, hafter]
    exact Ledger.due_reply hdue
  · rw [Due, h.other, h.pending_other]
    exact hdue

theorem work_lt (hcalm : d.Calm e) : d'.work < d.work := by
  obtain ⟨left, hbefore, hafter⟩ := h.pending hgood
  rw [Calm, hbefore] at hcalm
  have hless := (Ledger.calm_reply hcalm).2
  rw [d'.work_eq e, d.work_eq e, share, share, share, share, h.other, h.pending_other, h.link,
    h.reply, h.ledger, hafter, hbefore, load_cons, load_append]
  omega

end Hears

/-! ## Rounds -/

/-- The deliveries of a round: all that is on the way to the server, then all that was on the way to
the client. -/
def deliveries (d : Duplex σ) : List End :=
  List.replicate (d.link .server).length .server ++ List.replicate (d.link .client).length .client

def round (d : Duplex σ) : Duplex σ := d.run (d.deliveries.map .deliver)

def rounds (d : Duplex σ) : Nat → Duplex σ
  | 0 => d
  | k + 1 => d.round.rounds k

/-- None of these deliveries makes either end issue anything. -/
def Undisturbed : Duplex σ → List End → Prop
  | _, [] => True
  | d, e :: es => d.Unprompted e ∧ (d.move (.deliver e)).Undisturbed es

/-- In no round is anything issued. -/
def LeftAlone (d : Duplex σ) : Prop := ∀ k, (d.rounds k).Undisturbed (d.rounds k).deliveries

theorem exists_delivery (hbusy : ∃ e, d.link e ≠ []) :
    ∃ e es f, d.deliveries = e :: es ∧ d.next? e = some f := by
  cases hserver : d.link .server with
  | cons f fs =>
    refine ⟨.server, List.replicate fs.length .server ++
      List.replicate (d.link .client).length .client, f, ?_, ?_⟩
    · rw [deliveries, hserver]
      rfl
    · rw [← head?_link, hserver]
      rfl
  | nil =>
    cases hclient : d.link .client with
    | cons f fs =>
      refine ⟨.client, List.replicate fs.length .client, f, ?_, ?_⟩
      · rw [deliveries, hserver, hclient]
        rfl
      · rw [← head?_link, hclient]
        rfl
    | nil =>
      obtain ⟨e, he⟩ := hbusy
      cases e with
      | client => exact absurd hclient he
      | server => exact absurd hserver he

/-- Both ends are joined and calm. -/
structure Settling (d : Duplex σ) : Prop where
  joined : ∃ cl sv, Joined cl sv d
  calm : ∀ e, d.Calm e

namespace Settling

theorem deliver_none (hnone : d.next? e = none) : d.move (.deliver e) = d := by
  rw [Duplex.move, hnone]

theorem deliver (h : d.Settling) (hun : d.Unprompted e) : (d.move (.deliver e)).Settling ∧
    (d.move (.deliver e)).work ≤ d.work ∧ ∀ x, d.Due x → (d.move (.deliver e)).Due x := by
  cases hnext : d.next? e with
  | none =>
    rw [deliver_none hnext]
    exact ⟨h, Nat.le_refl _, fun _ hdue => hdue⟩
  | some f =>
    obtain ⟨cl, sv, hjoined⟩ := h.joined
    obtain ⟨hjoined', hhears⟩ := hjoined.deliver hnext hun
    exact ⟨⟨hjoined', hhears.calm hjoined.toGood h.calm⟩,
      Nat.le_of_lt (hhears.work_lt hjoined.toGood (h.calm e)), fun _ => hhears.due hjoined.toGood⟩

theorem run (h : d.Settling) (es : List End) (hun : d.Undisturbed es) :
    (d.run (es.map .deliver)).Settling ∧ (d.run (es.map .deliver)).work ≤ d.work ∧
      ∀ x, d.Due x → (d.run (es.map .deliver)).Due x := by
  induction es generalizing d with
  | nil => exact ⟨h, Nat.le_refl _, fun _ hdue => hdue⟩
  | cons e es ih =>
    obtain ⟨hfirst, hwork, hdue⟩ := h.deliver hun.1
    obtain ⟨hlast, hwork', hdue'⟩ := ih hfirst hun.2
    exact ⟨hlast, Nat.le_trans hwork' hwork, fun x hx => hdue' x (hdue x hx)⟩

/-- A round in which anything is delivered leaves less to be done. -/
theorem round (h : d.Settling) (hun : d.Undisturbed d.deliveries) (hbusy : ∃ e, d.link e ≠ []) :
    d.round.Settling ∧ d.round.work < d.work ∧ ∀ x, d.Due x → d.round.Due x := by
  obtain ⟨e, es, f, hes, hnext⟩ := exists_delivery hbusy
  rw [Duplex.round]
  rw [hes] at hun ⊢
  obtain ⟨cl, sv, hjoined⟩ := h.joined
  obtain ⟨hjoined', hhears⟩ := hjoined.deliver hnext hun.1
  have hfirst : (d.move (.deliver e)).Settling :=
    ⟨hjoined', hhears.calm hjoined.toGood h.calm⟩
  obtain ⟨hlast, hwork, hdue⟩ := hfirst.run es hun.2
  refine ⟨hlast, Nat.lt_of_le_of_lt hwork (hhears.work_lt hjoined.toGood (h.calm e)), ?_⟩
  exact fun x hx => hdue x (hhears.due hjoined.toGood hx)

/-- Calm ends that are left alone come to rest. -/
theorem rests (h : d.Settling) (halone : d.LeftAlone) :
    ∃ k, (∀ e, (d.rounds k).link e = []) ∧ ∀ x, d.Due x → (d.rounds k).Due x := by
  generalize hw : d.work = w
  induction w using Nat.strongRecOn generalizing d with
  | _ w ih =>
    subst hw
    by_cases hbusy : ∃ e, d.link e ≠ []
    · obtain ⟨hround, hless, hdue⟩ := h.round (halone 0) hbusy
      obtain ⟨k, hrest, hdue'⟩ := ih _ hless hround (fun k => halone (k + 1)) rfl
      exact ⟨k + 1, hrest, fun x hx => hdue' x (hdue x hx)⟩
    · refine ⟨0, fun e => ?_, fun _ hx => hx⟩
      apply Decidable.byContradiction
      exact fun hne => hbusy ⟨e, hne⟩

end Settling

/-! ## Idle exchanges are left alone -/

namespace Joined

theorem undisturbed (h : Joined cl sv d) (hidle : d.Idle) (es : List End) : d.Undisturbed es ∧
    (∃ cl' sv', Joined cl' sv' (d.run (es.map .deliver))) ∧ (d.run (es.map .deliver)).Idle := by
  induction es generalizing cl sv d with
  | nil => exact ⟨trivial, ⟨cl, sv, h⟩, hidle⟩
  | cons e es ih =>
    have hfirst : d.Unprompted e ∧ (∃ cl' sv', Joined cl' sv' (d.move (.deliver e))) ∧
        (d.move (.deliver e)).Idle := by
      cases hnext : d.next? e with
      | none =>
        rw [Settling.deliver_none hnext]
        refine ⟨fun f hf => ?_, ⟨cl, sv, h⟩, hidle⟩
        rw [hnext] at hf
        cases hf
      | some f =>
        obtain ⟨hun, hjoined, hhears⟩ := h.deliver_idle hidle hnext
        exact ⟨hun, hjoined, hhears.idle hidle⟩
    obtain ⟨hun, ⟨cl', sv', hjoined⟩, hidle'⟩ := hfirst
    obtain ⟨hrest, hlast⟩ := ih hjoined hidle'
    exact ⟨⟨hun, hrest⟩, hlast⟩

theorem left_alone (h : Joined cl sv d) (hidle : d.Idle) : d.LeftAlone := by
  intro k
  induction k generalizing cl sv d with
  | zero => exact (h.undisturbed hidle d.deliveries).1
  | succ k ih =>
    obtain ⟨-, ⟨cl', sv', hjoined⟩, hidle'⟩ := h.undisturbed hidle d.deliveries
    exact ih hjoined hidle'

end Joined

/-- Two identified ends are left alone: from a state on, no frame that is delivered makes either
issue packets, a fetch or a request, except as its ledger answers an acknowledgment. If each end
holds nothing unacknowledged, or is due at most one acknowledgment, or the first that it is due
matches, then after finitely many rounds no frame is on its way, and the buffer of an end that had a
request on the way is empty. -/
theorem lossless_exchange_comes_to_rest (policy : σ) (cw : ClientWiring) (sw : ServerWiring σ)
    (now : Nat) (moves : List DuplexMove)
    (hopen : ((start policy cw sw now).run moves).BothOpen)
    (hidentified : ∀ e, (((start policy cw sw now).run moves).channel? e).map (·.session.phase) =
      some .identified)
    (halone : ((start policy cw sw now).run moves).LeftAlone)
    (hcalm : ∀ e, ((start policy cw sw now).run moves).Calm e) :
    let d := (start policy cw sw now).run moves
    ∃ k, (∀ e, (d.rounds k).link e = []) ∧ ∀ e, .requestAcknowledgment ∈ d.link e.other →
      ((d.rounds k).ledger e).unacknowledged = [] := by
  have hjoined := joined_run policy cw sw now moves hopen hidentified
  obtain ⟨k, hrest, hdue⟩ := Settling.rests ⟨hjoined, hcalm⟩ halone
  refine ⟨k, hrest, fun e hasked => ?_⟩
  refine (hdue e (.inr (pending_ne_nil hasked))).resolve_right fun hpending => hpending ?_
  rw [pending, hrest, hrest]
  rfl

theorem idle_of_homeless {p : Packet} (hfetch : ∀ e, .fetch ∉ d.link e)
    (hsent : (d.link .server).flatMap packets = [p])
    (hheld : (d.ledger .client).unacknowledged = [p])
    (hhome : d.node.registry.channels p.recipient = []) : d.Idle := by
  refine ⟨hfetch, fun q hq => ?_⟩
  rw [hsent, hheld, or_self, List.mem_singleton] at hq
  exact hq ▸ .inr hhome

/-- The handshake of `smallClient` and `smallServer`, to its end. -/
def smallHandshake : List DuplexMove :=
  [.greet .client, .greet .server, .deliver .server, .deliver .client, .deliver .server,
    .deliver .client, .deliver .server]

/-- The client asks before its packet has arrived: the answer does not match, and the packet is sent
once more. -/
def hastyExchange : List DuplexMove :=
  smallHandshake ++ [.ask .client, .send .client [smallPacket]]

theorem hasty_exchange_comes_to_rest :
    let d := (start () smallClient smallServer 0).run hastyExchange
    d.pending .client = [0] ∧ (d.ledger .client).transmitted = 1 ∧
      ∃ k, (∀ e, (d.rounds k).link e = []) ∧ ((d.rounds k).ledger .client).unacknowledged = [] := by
  have hopen : ((start () smallClient smallServer 0).run hastyExchange).BothOpen := by
    decide +kernel
  have hidentified : ∀ e, (((start () smallClient smallServer 0).run hastyExchange).channel? e).map
      (·.session.phase) = some .identified := by
    intro e
    cases e <;> decide +kernel
  have hidle : ((start () smallClient smallServer 0).run hastyExchange).Idle := by
    refine idle_of_homeless (p := smallPacket) (fun e => ?_) ?_ ?_ ?_
    · cases e <;> decide +kernel
    all_goals decide +kernel
  have hcalm : ∀ e, ((start () smallClient smallServer 0).run hastyExchange).Calm e := by
    intro e
    cases e with
    | client =>
      right
      left
      decide +kernel
    | server =>
      left
      decide +kernel
  obtain ⟨cl, sv, hjoined⟩ := joined_run () smallClient smallServer 0 hastyExchange hopen hidentified
  obtain ⟨k, hrest, hdue⟩ := lossless_exchange_comes_to_rest () smallClient smallServer 0
    hastyExchange hopen hidentified (hjoined.left_alone hidle) hcalm
  refine ⟨by decide +kernel, by decide +kernel, k, hrest, hdue .client ?_⟩
  decide +kernel

end Duplex

/-! ## Exchanges that never rest -/

/-- Two acknowledgments are due. The first is short of what was transmitted by the buffer, and so
will be the second, once the first has the buffer sent again. -/
def Ledger.Overtaken (l : Ledger) (pending : List UInt32) : Prop :=
  UInt32.ofNat l.unacknowledged.length ≠ 0 ∧
    pending = [l.transmitted - .ofNat l.unacknowledged.length, l.transmitted]

theorem Ledger.overtaken_reply (h : l.Overtaken (counts [f] ++ left)) :
    (l.reply f).1.Overtaken (left ++ answers l.transmitted (l.reply f).2) := by
  obtain ⟨hsize, hpending⟩ := h
  by_cases hack : ∃ count, f = .acknowledge count
  · obtain ⟨count, rfl⟩ := hack
    have hcons : count :: left = _ := hpending
    obtain ⟨rfl, hleft⟩ := List.cons.inj hcons
    subst hleft
    obtain ⟨hcount, -⟩ | ⟨hempty, -⟩ | ⟨-, hbuffer, heq⟩ := l.reply_cases
      (l.transmitted - .ofNat l.unacknowledged.length)
    · refine absurd ?_ hsize
      have hsum := congrArg (· + UInt32.ofNat l.unacknowledged.length) hcount
      simpa [UInt32.sub_add_cancel] using hsum
    · rw [hempty] at hsize
      exact absurd rfl hsize
    · have htransmitted := l.transmitted_flush (isEmpty_buffer_of_ne hbuffer)
      rw [heq, answers_resent hbuffer]
      refine ⟨?_, ?_⟩
      · rw [l.unacknowledged_flush]
        exact hsize
      · rw [l.unacknowledged_flush, htransmitted, UInt32.add_sub_cancel]
        rfl
  · have hf : ∀ count, f ≠ .acknowledge count := fun count heq => hack ⟨count, heq⟩
    obtain ⟨hheld, htransmitted, hanswers, -⟩ := l.reply_of_ne hf
    have hcounts : counts [f] = [] := counts_eq_nil fun g hg => List.mem_singleton.1 hg ▸ hf
    rw [hcounts, List.nil_append] at hpending
    rw [Overtaken, hheld, htransmitted, hanswers, List.append_nil]
    exact ⟨hsize, hpending⟩

namespace Duplex

def Overtaken (d : Duplex σ) (e : End) : Prop := (d.ledger e).Overtaken (d.pending e)

theorem Hears.overtaken (h : Hears e f d d') (hgood : Good cl sv d) {x : End}
    (hover : d.Overtaken x) : d'.Overtaken x := by
  obtain rfl | rfl := e.eq_or_eq_other x
  · obtain ⟨left, hbefore, hafter⟩ := h.pending hgood
    rw [Overtaken, hbefore] at hover
    rw [Overtaken, h.ledger, hafter]
    exact Ledger.overtaken_reply hover
  · rw [Overtaken, h.other, h.pending_other]
    exact hover

theorem Joined.overtaken (h : Joined cl sv d) (hover : d.Overtaken e) (es : List End)
    (hun : d.Undisturbed es) : (∃ cl' sv', Joined cl' sv' (d.run (es.map .deliver))) ∧
      (d.run (es.map .deliver)).Overtaken e := by
  induction es generalizing cl sv d with
  | nil => exact ⟨⟨cl, sv, h⟩, hover⟩
  | cons x es ih =>
    have hfirst : (∃ cl' sv', Joined cl' sv' (d.move (.deliver x))) ∧
        (d.move (.deliver x)).Overtaken e := by
      cases hnext : d.next? x with
      | none =>
        rw [Settling.deliver_none hnext]
        exact ⟨⟨cl, sv, h⟩, hover⟩
      | some f =>
        obtain ⟨hjoined, hhears⟩ := h.deliver hnext hun.1
        exact ⟨hjoined, hhears.overtaken h.toGood hover⟩
    obtain ⟨⟨cl', sv', hjoined⟩, hover'⟩ := hfirst
    exact ih hjoined hover' hun.2

/-- An exchange in which an end is overtaken goes on for ever. -/
theorem Joined.never_rests (h : Joined cl sv d) (hover : d.Overtaken e) (halone : d.LeftAlone)
    (k : Nat) : ∃ x, (d.rounds k).link x ≠ [] := by
  induction k generalizing cl sv d with
  | zero =>
    by_contra hnone
    have hlink : ∀ x, d.link x = [] := fun x =>
      Decidable.byContradiction fun hne => hnone ⟨x, hne⟩
    have hpending := hover.2
    rw [pending, hlink, hlink] at hpending
    cases hpending
  | succ k ih =>
    obtain ⟨⟨cl', sv', hjoined⟩, hover'⟩ := h.overtaken hover d.deliveries (halone 0)
    exact ih hjoined hover' fun k => halone (k + 1)

/-- The client asks before and after it sends. -/
def overtakenExchange : List DuplexMove := hastyExchange ++ [.ask .client]

theorem overtaken_exchange_never_rests :
    let d := (start () smallClient smallServer 0).run overtakenExchange
    d.BothOpen ∧ (∀ e, (d.channel? e).map (·.session.phase) = some .identified) ∧
      (∀ e, (d.sent e).length < 2 ^ 32) ∧ d.LeftAlone ∧
      .requestAcknowledgment ∈ d.link .server ∧ ∀ k, ∃ e, (d.rounds k).link e ≠ [] := by
  have hopen : ((start () smallClient smallServer 0).run overtakenExchange).BothOpen := by
    decide +kernel
  have hidentified : ∀ e, (((start () smallClient smallServer 0).run overtakenExchange).channel?
      e).map (·.session.phase) = some .identified := by
    intro e
    cases e <;> decide +kernel
  have hidle : ((start () smallClient smallServer 0).run overtakenExchange).Idle := by
    refine idle_of_homeless (p := smallPacket) (fun e => ?_) ?_ ?_ ?_
    · cases e <;> decide +kernel
    all_goals decide +kernel
  have hover : ((start () smallClient smallServer 0).run overtakenExchange).Overtaken .client := by
    refine ⟨?_, ?_⟩ <;> decide +kernel
  obtain ⟨cl, sv, hjoined⟩ :=
    joined_run () smallClient smallServer 0 overtakenExchange hopen hidentified
  have halone := hjoined.left_alone hidle
  refine ⟨hopen, hidentified, fun e => ?_, halone, ?_, hjoined.never_rests hover halone⟩
  · cases e <;> decide +kernel
  · decide +kernel

end Duplex
end Courier
