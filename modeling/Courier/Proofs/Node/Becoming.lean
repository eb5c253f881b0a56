import Courier.Proofs.Node.Sending

/-! # One channel becomes another

An action on one channel that succeeds makes it another channel; the other channels, the registry
and what has arrived stay the same (`Node.Becomes`). Here is what the channel becomes by each action
that writes, moves the session or clears the ledger.
-/
set_option autoImplicit false

namespace Courier

open Courier.Wire Courier.Wire.Frame Courier.Routing

variable {σ α : Type} {n n' n'' : Node σ} {c : ChannelId} {ch ch' ch'' : Channel σ}

/-- The channel in a place has become another; the other channels, the registry and what arrived
are the same. -/
structure Node.Becomes (c : ChannelId) (ch' : Channel σ) (n n' : Node σ) : Prop where
  self : n'.channel? c = some ch'
  others : ∀ c', c' ≠ c → n'.channel? c' = n.channel? c'
  arrivals : ∀ c', n'.arrivals c' = n.arrivals c'
  registry : n'.registry = n.registry

namespace Node.Becomes

theorem quiet (hch : n.channel? c = some ch) (h : Quiet n n') : n.Becomes c ch n' :=
  ⟨(h.channel? c).trans hch, fun c' _ => h.channel? c', h.arrivals, h.registry⟩

theorem trans (h : n.Becomes c ch' n') (h' : n'.Becomes c ch'' n'') : n.Becomes c ch'' n'' :=
  ⟨h'.self, fun c' hc => (h'.others c' hc).trans (h.others c' hc),
    fun c' => (h'.arrivals c').trans (h.arrivals c'), h'.registry.trans h.registry⟩

theorem modify (hch : n.channel? c = some ch) (ch' : Channel σ) :
    n.Becomes c ch' (n.modify c fun _ => ch') := by
  exact ⟨channel?_modify_of_some hch _, fun c' hc => n.channel?_modify_of_ne _ hc, fun _ => rfl,
    rfl⟩

theorem enqueue (hch : n.channel? c = some ch) {b : ByteArray} {u : Unit}
    (h : (enqueue c b).apply n = (.ok u, n')) :
    ch.Live ∧ n.Becomes c { ch with queue := ch.queue.push (.bytes b) } n' := by
  by_cases hlive : ch.Live
  · rw [apply_enqueue_of_live hch hlive] at h
    cases h
    exact ⟨hlive, modify hch _⟩
  · obtain ⟨f, hf⟩ := apply_enqueue_of_not_live (not_live_of_channel? hch hlive) b
    rw [hf] at h
    cases h

theorem writeFrame (hch : n.channel? c = some ch) {f : Frame} (hf : f.Regular) {u : Unit}
    (h : (writeFrame c f).apply n = (.ok u, n')) : n.Becomes c (ch.say [f]) n' := by
  rw [Courier.writeFrame, encode_of_regular hf] at h
  exact (enqueue hch h).2

theorem stepSession (hch : n.channel? c = some ch)
    {step : Session → Except InvalidStep (Session × α)} {v : α}
    (h : (stepSession c step).apply n = (.ok v, n')) :
    ∃ s, step ch.session = .ok (s, v) ∧ n.Becomes c (ch.setSession s) n' := by
  rw [apply_stepSession, hch] at h
  simp only [] at h
  cases hs : step ch.session with
  | error e =>
    rw [hs] at h
    cases h
  | ok field =>
    obtain ⟨s, v'⟩ := field
    rw [hs] at h
    cases h
    exact ⟨s, rfl, modify hch _⟩

theorem plainStep (hch : n.channel? c = some ch) {step : Session → Except InvalidStep Session}
    {u : Unit} (h : (Courier.stepSession c (plainStep step)).apply n = (.ok u, n')) :
    ∃ s, step ch.session = .ok s ∧ n.Becomes c (ch.setSession s) n' := by
  obtain ⟨s, hs, hbecomes⟩ := stepSession hch h
  exact ⟨s, plainStep_eq_ok_iff.1 hs, hbecomes⟩

theorem consult (hch : n.channel? c = some ch) {p : Policy σ α} {v : α}
    (h : (consult p).apply n = (.ok v, n')) : n.Becomes c ch n' := by
  rw [apply_consult] at h
  have heq : { n with policy := (p n.policy).2 } = n' := congrArg Prod.snd h
  rw [← heq]
  exact ⟨hch, fun _ _ => rfl, fun _ => rfl, rfl⟩

theorem clearLedger (hch : n.channel? c = some ch) {u : Unit}
    (h : (settleLedger c 2 .empty []).apply n = (.ok u, n')) :
    n.Becomes c (ch.setLedger .empty) n' := by
  have heq : n.setReactor c 2 (.reliableDelivery .empty) = n' := congrArg Prod.snd h
  rw [← heq, setReactor_eq hch]
  exact modify hch _

end Node.Becomes

theorem becomes_noted (hch : n.channel? c = some ch) {e : Event}
    (hnew : ∀ p, e ≠ .packetReceived p) :
    n.Becomes c ch (n.note c .eventLog (.event e)) := .quiet hch (quiet_note_event n c hnew)

/-! ## With the policies -/

/-- The channel in a place has become another, and the policies have come to this state. -/
structure Node.Yields (c : ChannelId) (ch' : Channel σ) (s : σ) (n n' : Node σ) : Prop
    extends Node.Becomes c ch' n n' where
  policy : n'.policy = s

namespace Node.Yields

variable {s s' : σ} {l : Ledger} {rest : List (Reactor σ)}

theorem quiet (hch : n.channel? c = some ch) (h : Quiet n n') : n.Yields c ch n.policy n' :=
  ⟨.quiet hch h, h.policy⟩

theorem modify (hch : n.channel? c = some ch) (ch' : Channel σ) :
    n.Yields c ch' n.policy (n.modify c fun _ => ch') := ⟨.modify hch ch', rfl⟩

theorem setPolicy (hch : n.channel? c = some ch) (s : σ) :
    n.Yields c ch s { n with policy := s } := ⟨⟨hch, fun _ _ => rfl, fun _ => rfl, rfl⟩, rfl⟩

theorem trans (h : n.Yields c ch' s n') (h' : n'.Yields c ch'' s' n'') :
    n.Yields c ch'' s' n'' := ⟨h.toBecomes.trans h'.toBecomes, h'.policy⟩

theorem noted (hch : n.channel? c = some ch) {e : Event} (hnew : ∀ p, e ≠ .packetReceived p) :
    n.Yields c ch n.policy (n.note c .eventLog (.event e)) :=
  .quiet hch (quiet_note_event n c hnew)

theorem failed (k : Reentry σ) (hch : n.channel? c = some ch) (hw : ch.Wired l rest) (f : Fault) :
    n.Yields c (ch.failed f) n.policy (raiseWith k c f n) :=
  (modify hch _).trans (.quiet (channel?_modify_of_some hch _) (raiseWith_failed hch hw f))

/-- An action that fails makes the channel fail that it leaves. -/
theorem settled_error {k : Reentry σ} {a : Action σ Unit} {f : Fault} (h : n.Yields c ch' s n')
    (ha : a.apply n = (.error f, n')) (hw : ch'.Wired l rest) :
    n.Yields c (ch'.failed f) s (settled k c a n) := by
  have hfailed := failed k h.self hw f
  rw [h.policy] at hfailed
  rw [settled, ha]
  exact h.trans hfailed

theorem settled_ok {k : Reentry σ} {a : Action σ Unit} (h : n.Yields c ch' s n')
    (ha : a.apply n = (.ok (), n')) : n.Yields c ch' s (settled k c a n) := by
  rw [settled, ha]
  exact h

section dispatched

variable {k : Reentry σ} (hk : k.Moves Node.Later) (hch : n.channel? c = some ch)
  (hw : ch.Wired l rest) {e : Event} (hnew : ∀ p, e ≠ .packetReceived p)

include hk hch hw hnew

/-- An event is told to the log first. -/
theorem consulted {Q : Channel σ → σ → Prop} (h : ∀ m : Node σ, m.channel? c = some ch →
      m.policy = n.policy → ∃ ch' s', Q ch' s' ∧
        m.Yields c ch' s' (settled k c (reaction k c e l rest) m)) :
    ∃ ch' s', Q ch' s' ∧ n.Yields c ch' s' (dispatchWith k c e n) := by
  have hnoted := noted hch hnew
  obtain ⟨ch', s', hq, hreacted⟩ := h _ hnoted.self hnoted.policy
  rw [dispatchWith_eq hk ⟨ch, hch, hw⟩]
  exact ⟨ch', s', hq, hnoted.trans hreacted⟩

theorem dispatched {Q : Channel σ → Prop} (h : ∀ m : Node σ, m.channel? c = some ch →
      ∃ ch', Q ch' ∧ m.Yields c ch' m.policy (settled k c (reaction k c e l rest) m)) :
    ∃ ch', Q ch' ∧ n.Yields c ch' n.policy (dispatchWith k c e n) := by
  obtain ⟨ch', _, ⟨hq, rfl⟩, hyields⟩ := consulted (Q := fun ch' s' => Q ch' ∧ s' = n.policy)
    hk hch hw hnew fun m hm hpolicy => by
      obtain ⟨ch', hq, hyields⟩ := h m hm
      exact ⟨ch', m.policy, ⟨hq, hpolicy⟩, hyields⟩
  exact ⟨ch', hq, hyields⟩

end dispatched

end Node.Yields

section steps

variable (hch : n.channel? c = some ch)

include hch

theorem apply_stepSession_ok {step : Session → Except InvalidStep (Session × α)} {s : Session}
    {v : α} (h : step ch.session = .ok (s, v)) :
    (stepSession c step).apply n = (.ok v, n.modify c fun _ => ch.setSession s) := by
  rw [apply_stepSession, hch]
  simp only [h]

theorem apply_stepSession_error {step : Session → Except InvalidStep (Session × α)}
    {e : InvalidStep} (h : step ch.session = .error e) :
    (stepSession c step).apply n = (.error (.step e), n) := by
  rw [apply_stepSession, hch]
  simp only [h]

theorem apply_plainStep_ok {step : Session → Except InvalidStep Session} {s : Session}
    (h : step ch.session = .ok s) : (stepSession c (plainStep step)).apply n =
      (.ok (), n.modify c fun _ => ch.setSession s) :=
  apply_stepSession_ok hch (plainStep_eq_ok_iff.2 h)

theorem apply_plainStep_error {step : Session → Except InvalidStep Session} {e : InvalidStep}
    (h : step ch.session = .error e) :
    (stepSession c (plainStep step)).apply n = (.error (.step e), n) :=
  apply_stepSession_error hch (by rw [plainStep, h]; rfl)

end steps

theorem apply_consult_eq {p : Policy σ α} {r : Except Fault α} {s : σ} (h : p n.policy = (r, s)) :
    (consult p).apply n = (r, { n with policy := s }) := by
  rw [apply_consult, h]

end Courier
