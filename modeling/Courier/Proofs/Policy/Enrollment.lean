import Courier.Policy.Credentials
import Courier.Proofs.Routing.Maps
import Courier.Proofs.Wire.Fields
import Mathlib.Data.List.Induction

/-! # Identities and the first credential

Credentials are presented in realms, one after another, and the first that stands for an identity
takes it for good (`first_claim_is_exclusive`). An identity is the user part, an at sign and the
realm, so several realms can lead to the same one; the credential and its realm are one login, and an
identity belongs to a login. The two tables that are kept, of identities that are taken and of the
logins that took them, are both read off the logins so far: an identity is taken if some login
stands for it, and its login is the first of these.
-/
set_option autoImplicit false

namespace Courier

open Courier.Wire Courier.Routing

/-! ## Logins -/

structure Login where
  realm : Address
  credential : Credential
deriving DecidableEq

namespace Login

/-- A login is for an identity: its credential has a user part that is not empty, behind which the
first newline stands, and the identity is this user in the realm. -/
def StandsFor (q : Login) (identity : List UInt8) : Prop :=
  ∃ user secret, q.credential.toList = user ++ 0x0A :: secret ∧ 0x0A ∉ user ∧ user ≠ [] ∧
    identity = user ++ 0x40 :: q.realm.toList ∧ identity.length ≤ maxLabelSize

def answer (q : Login) (e : Enrollment) : Except Fault Address :=
  (Enrollment.authenticate q.realm q.credential e).1

def identity? (q : Login) : Option Address := (identityFor q.realm q.credential).toOption

end Login

def Enrollment.after (e : Enrollment) (qs : List Login) : Enrollment :=
  qs.foldl (fun e q => (Enrollment.authenticate q.realm q.credential e).2) e

/-! ## The identity of a login -/

/-- What stands before the first of an element's occurrences, if it occurs. -/
theorem takeWhile_ne_eq_iff {β : Type} [DecidableEq β] {b : β} {xs first : List β} :
    xs.takeWhile (· ≠ b) = first ∧ first.length ≠ xs.length ↔
      ∃ rest, xs = first ++ b :: rest ∧ b ∉ first := by
  induction xs generalizing first with
  | nil =>
    constructor
    · rintro ⟨rfl, hlen⟩
      exact absurd rfl hlen
    · rintro ⟨rest, h, -⟩
      simp at h
  | cons x xs ih =>
    by_cases hx : x = b
    · rw [List.takeWhile_cons_of_neg (by simp [hx])]
      constructor
      · rintro ⟨rfl, -⟩
        exact ⟨xs, by rw [hx]; rfl, List.not_mem_nil⟩
      · rintro ⟨rest, h, hfirst⟩
        cases first with
        | nil => exact ⟨rfl, (Nat.succ_ne_zero _).symm⟩
        | cons y first =>
          injection h with hy _
          exact absurd (hy ▸ hx ▸ List.mem_cons_self ..) hfirst
    · rw [List.takeWhile_cons_of_pos (by simpa using hx)]
      constructor
      · rintro ⟨rfl, hlen⟩
        obtain ⟨rest, hrest, hfirst⟩ := ih.1 ⟨rfl, fun heq => hlen (congrArg Nat.succ heq)⟩
        refine ⟨rest, congrArg (x :: ·) hrest, ?_⟩
        rw [List.mem_cons, not_or]
        exact ⟨Ne.symm hx, hfirst⟩
      · rintro ⟨rest, h, hfirst⟩
        cases first with
        | nil =>
          injection h with hy _
          exact absurd hy hx
        | cons y first =>
          injection h with hy hrest
          rw [List.mem_cons, not_or] at hfirst
          obtain ⟨htake, hlen⟩ := ih.2 ⟨rest, hrest, hfirst.2⟩
          exact ⟨by rw [hy, htake], fun heq => hlen (Nat.succ.inj heq)⟩

theorem userPart?_eq_some_iff {c : Credential} {user : List UInt8} : userPart? c = some user ↔
    ∃ secret, c.toList = user ++ 0x0A :: secret ∧ 0x0A ∉ user ∧ user ≠ [] := by
  constructor
  · intro h
    obtain ⟨hsome, htake⟩ := Option.ite_none_left_eq_some.1 h
    obtain ⟨hlen, hne⟩ := not_or.1 hsome
    cases htake
    obtain ⟨secret, hc, hnot⟩ := takeWhile_ne_eq_iff.1 ⟨rfl, hlen⟩
    exact ⟨secret, hc, hnot, hne⟩
  · rintro ⟨secret, hc, hnot, hne⟩
    obtain ⟨htake, hlen⟩ := takeWhile_ne_eq_iff.2 ⟨secret, hc, hnot⟩
    simp only [userPart?, htake]
    exact if_neg (not_or.2 ⟨hlen, hne⟩)

namespace Login

variable {q q' : Login} {a : Address}

theorem key_ne (h : q' ≠ q) : (q'.realm, q'.credential) ≠ (q.realm, q.credential) := by
  intro heq
  cases q
  cases q'
  cases heq
  exact h rfl

theorem identityFor_eq_ok_iff : identityFor q.realm q.credential = .ok a ↔ q.StandsFor a.toList := by
  have hbytes : ∀ {user : List UInt8},
      a.bytes = user.toByteArray ++ [0x40].toByteArray ++ q.realm.bytes ↔
        a.toList = user ++ 0x40 :: q.realm.toList := by
    intro user
    rw [ByteArray.ext_iff, ← Array.toList_inj]
    simp [Label.toList, ByteArray.data_append]
  unfold identityFor StandsFor
  constructor
  · intro h
    cases huser : userPart? q.credential with
    | none => simp [huser] at h
    | some user =>
      obtain ⟨secret, hc, hnot, hne⟩ := userPart?_eq_some_iff.1 huser
      simp only [huser] at h
      split at h
      · rename_i identity hlabel
        cases h
        exact ⟨user, secret, hc, hnot, hne, hbytes.1 (of?_eq_ok_iff.1 hlabel), a.size_le⟩
      · cases h
  · rintro ⟨user, secret, hc, hnot, hne, ha, -⟩
    rw [userPart?_eq_some_iff.2 ⟨secret, hc, hnot, hne⟩]
    simp only [of?_eq_ok_iff.2 (hbytes.2 ha)]

theorem identity?_eq_some_iff : q.identity? = some a ↔ q.StandsFor a.toList := by
  rw [← identityFor_eq_ok_iff, identity?]
  cases identityFor q.realm q.credential <;> simp [Except.toOption]

theorem identityFor_of_none (h : q.identity? = none) :
    identityFor q.realm q.credential = .error .invalidCredential := by
  unfold identity? at h
  unfold identityFor at h ⊢
  split at h
  · rfl
  · rename_i user huser
    split at h
    · cases h
    · rfl

/-- What a login stands for fits an address, and is this address. -/
theorem standsFor_iff {identity : List UInt8} :
    q.StandsFor identity ↔ ∃ a, q.identity? = some a ∧ a.toList = identity := by
  constructor
  · intro h
    have hsize : identity.toByteArray.size = identity.length := List.size_toByteArray
    obtain ⟨user, secret, hc, hnot, hne, heq, hle⟩ := id h
    have hpos : 0 < identity.length := by
      rw [heq, List.length_append, List.length_cons]
      omega
    have hlist : (⟨identity.toByteArray, by omega, by omega⟩ : Address).toList = identity := by
      rw [Label.toList, List.data_toByteArray]
    refine ⟨_, identity?_eq_some_iff.2 ?_, hlist⟩
    rw [hlist]
    exact h
  · rintro ⟨a, ha, rfl⟩
    exact identity?_eq_some_iff.1 ha

end Login

/-! ## The first of a list with a property -/

theorem find?_eq_some_iff_takeWhile {β : Type} [DecidableEq β] {p : β → Bool} {xs : List β}
    {x : β} : xs.find? p = some x ↔
      p x = true ∧ x ∈ xs ∧ ∀ y ∈ xs.takeWhile (· ≠ x), p y = false := by
  induction xs with
  | nil => simp
  | cons y xs ih =>
    by_cases hy : y = x
    · rw [hy, List.takeWhile_cons_of_neg (by simp), List.find?_cons]
      cases hp : p x with
      | true => simp
      | false =>
        have hnot : xs.find? p ≠ some x := fun h => by
          rw [List.find?_some h] at hp
          cases hp
        simp [hnot]
    · rw [List.takeWhile_cons_of_pos (by simpa using hy), List.find?_cons]
      cases hp : p y with
      | true => simp [hy, hp]
      | false => simp [ih, hp, Ne.symm hy]

theorem takeWhile_concat_self {β : Type} [DecidableEq β] (xs : List β) (x : β) :
    (xs ++ [x]).takeWhile (· ≠ x) = xs.takeWhile (· ≠ x) := by
  induction xs with
  | nil => simp
  | cons y xs ih =>
    by_cases hy : y = x
    · simp [hy]
    · rw [List.cons_append, List.takeWhile_cons_of_pos (by simpa using hy),
        List.takeWhile_cons_of_pos (by simpa using hy), ih]

/-! ## What the tables tell -/

/-- The first login that stands for an identity. -/
def owner? (qs : List Login) (a : Address) : Option Login := qs.find? (·.identity? = some a)

theorem owner?_concat (qs : List Login) (q : Login) (a : Address) : owner? (qs ++ [q]) a =
    (owner? qs a).or (if q.identity? = some a then some q else none) := by
  rw [owner?, List.find?_append, owner?]
  by_cases hq : q.identity? = some a <;> simp [hq]

theorem identity?_of_owner? {qs : List Login} {q : Login} {a : Address}
    (h : owner? qs a = some q) : q.identity? = some a := by simpa using List.find?_some h

theorem owner?_append {qs : List Login} {q : Login} {a : Address} (h : owner? qs a = some q)
    (more : List Login) : owner? (qs ++ more) a = some q := by
  rw [owner?, List.find?_append, ← owner?, h, Option.some_or]

/-- A login takes no identity but its own, and not if that has an owner. -/
theorem owner?_concat_of_owned {qs : List Login} {q : Login} {a : Address}
    (h : q.identity? = some a → owner? qs a ≠ none) : owner? (qs ++ [q]) a = owner? qs a := by
  rw [owner?_concat]
  by_cases hq : q.identity? = some a
  · obtain ⟨q', hq'⟩ := Option.ne_none_iff_exists'.1 (h hq)
    rw [hq', Option.some_or]
  · rw [if_neg hq, Option.or_none]

theorem owner?_concat_self {qs : List Login} {q : Login} {a : Address} (hq : q.identity? = some a)
    (hfree : owner? qs a = none) : owner? (qs ++ [q]) a = some q := by
  rw [owner?_concat, hfree, if_pos hq, Option.none_or]

/-- Both tables, as one reads them off the logins so far. -/
structure Enrollment.Tells (e : Enrollment) (qs : List Login) : Prop where
  claimed : ∀ a, a ∈ e.claimed ↔ owner? qs a ≠ none
  rows : ∀ q a, e.table.lookup q.realm q.credential = some a ↔ owner? qs a = some q

namespace CredentialTable

theorem lookup_reject (t : CredentialTable) {q q' : Login} (h : q' ≠ q) :
    (t.reject q.realm q.credential).lookup q'.realm q'.credential =
      t.lookup q'.realm q'.credential := by
  unfold reject lookup
  induction t.rows with
  | nil => rfl
  | cons row rows ih =>
    rw [lookup_cons_eq]
    by_cases hrow : row.1 = (q.realm, q.credential)
    · rw [List.filter_cons_of_neg (by simp [hrow]), ih, hrow, if_neg (Login.key_ne h)]
    · rw [List.filter_cons_of_pos (by simpa using hrow), lookup_cons_eq, ih]

theorem lookup_accept (t : CredentialTable) (q q' : Login) (a : Address) :
    (t.accept q.realm q.credential a).lookup q'.realm q'.credential =
      if q' = q then some a else t.lookup q'.realm q'.credential := by
  by_cases h : q' = q
  · rw [if_pos h, h, lookup, accept, lookup_cons_eq, if_pos rfl]
  · rw [if_neg h, lookup, accept, lookup_cons_eq, if_neg (Login.key_ne h)]
    exact t.lookup_reject h

end CredentialTable

namespace Enrollment

variable {e : Enrollment} {qs : List Login} {q : Login} {a : Address} {f : Fault}

theorem authenticate_of_identity (hq : q.identity? = some a) :
    authenticate q.realm q.credential e =
      ((e.claim q.realm q.credential a).table.authenticate q.realm q.credential,
        e.claim q.realm q.credential a) := by
  rw [authenticate, Login.identityFor_eq_ok_iff.2 (Login.identity?_eq_some_iff.1 hq)]

theorem authenticate_of_none (hq : q.identity? = none) :
    authenticate q.realm q.credential e = (.error .invalidCredential, e) := by
  rw [authenticate, Login.identityFor_of_none hq]

namespace Tells

theorem empty : Tells Enrollment.empty [] := by
  refine ⟨fun a => ?_, fun q a => ?_⟩
  · simp [Enrollment.empty, owner?]
  · simp [Enrollment.empty, CredentialTable.empty, CredentialTable.lookup, owner?]

/-- Nothing changes for an identity that has an owner, or by a login that stands for none. -/
theorem of_owned (h : e.Tells qs) (hq : ∀ a, q.identity? = some a → owner? qs a ≠ none) :
    e.Tells (qs ++ [q]) where
  claimed a := by
    rw [owner?_concat_of_owned (hq a)]
    exact h.claimed a
  rows q' a := by
    rw [owner?_concat_of_owned (hq a)]
    exact h.rows q' a

/-- An identity that is free goes to the login that stands for it. -/
theorem of_free (h : e.Tells qs) (hq : q.identity? = some a) (hfree : owner? qs a = none) :
    Tells ⟨a :: e.claimed, e.table.accept q.realm q.credential a⟩ (qs ++ [q]) where
  claimed a' := by
    by_cases ha : a' = a
    · subst ha
      simp [owner?_concat_self hq hfree]
    · have hother : q.identity? ≠ some a' := fun h' => ha (Option.some.inj (h'.symm.trans hq))
      rw [owner?_concat_of_owned fun h' => absurd h' hother, ← h.claimed, List.mem_cons]
      simp [ha]
  rows q' a' := by
    rw [CredentialTable.lookup_accept]
    by_cases ha : a' = a
    · subst ha
      rw [owner?_concat_self hq hfree]
      by_cases hq' : q' = q
      · simp [hq']
      · rw [if_neg hq', h.rows, hfree]
        simp [Ne.symm hq']
    · have hother : q.identity? ≠ some a' := fun h' => ha (Option.some.inj (h'.symm.trans hq))
      rw [owner?_concat_of_owned fun h' => absurd h' hother]
      by_cases hq' : q' = q
      · rw [if_pos hq', hq']
        constructor
        · intro heq
          exact absurd (Option.some.inj heq).symm ha
        · intro howner
          exact absurd (identity?_of_owner? howner) hother
      · rw [if_neg hq']
        exact h.rows q' a'

theorem claim (h : e.Tells qs) (hq : q.identity? = some a) :
    (e.claim q.realm q.credential a).Tells (qs ++ [q]) := by
  unfold Enrollment.claim
  by_cases htaken : a ∈ e.claimed
  · rw [if_pos (by simpa using htaken)]
    apply h.of_owned
    intro a' ha'
    rw [← Option.some.inj (hq.symm.trans ha')]
    exact (h.claimed a).1 htaken
  · rw [if_neg (by simpa using htaken)]
    exact h.of_free hq (not_not.1 fun hne => htaken ((h.claimed a).2 hne))

theorem authenticate (h : e.Tells qs) (q : Login) :
    (Enrollment.authenticate q.realm q.credential e).2.Tells (qs ++ [q]) := by
  cases hq : q.identity? with
  | some a =>
    rw [authenticate_of_identity hq]
    exact h.claim hq
  | none =>
    rw [authenticate_of_none hq]
    exact h.of_owned fun a ha => absurd (hq.symm.trans ha) nofun

/-- A login is answered with an identity if it is the first of those that stand for it. -/
theorem answer_eq_ok_iff (h : e.Tells qs) : q.answer e = .ok a ↔ owner? (qs ++ [q]) a = some q := by
  have hrow := (h.authenticate q).rows q a
  rw [Login.answer]
  cases hq : q.identity? with
  | some i =>
    rw [authenticate_of_identity hq] at hrow ⊢
    rw [← hrow]
    simp only [CredentialTable.authenticate]
    cases (e.claim q.realm q.credential i).table.lookup q.realm q.credential <;> simp
  | none =>
    rw [authenticate_of_none hq]
    refine ⟨nofun, fun howner => ?_⟩
    rw [identity?_of_owner? howner] at hq
    cases hq

end Tells

theorem after_cons (e : Enrollment) (q : Login) (qs : List Login) :
    e.after (q :: qs) = (Enrollment.authenticate q.realm q.credential e).2.after qs := rfl

theorem after_append (e : Enrollment) (qs more : List Login) :
    e.after (qs ++ more) = (e.after qs).after more := List.foldl_append

theorem after_concat (e : Enrollment) (qs : List Login) (q : Login) :
    e.after (qs ++ [q]) = (Enrollment.authenticate q.realm q.credential (e.after qs)).2 := by
  simp [after]

theorem tells_after (qs : List Login) : (empty.after qs).Tells qs := by
  induction qs using List.reverseRecOn with
  | nil => exact .empty
  | append_singleton qs q ih =>
    rw [after_concat]
    exact ih.authenticate q

/-- A login that fails leaves everything as it is. -/
theorem authenticate_of_error (h : q.answer e = .error f) :
    authenticate q.realm q.credential e = (.error .invalidCredential, e) := by
  cases hq : q.identity? with
  | none => exact authenticate_of_none hq
  | some a =>
    rw [Login.answer, authenticate_of_identity hq] at h
    rw [authenticate_of_identity hq]
    unfold claim at h ⊢
    split at h
    · rename_i htaken
      rw [if_pos htaken]
      unfold CredentialTable.authenticate at h ⊢
      split at h
      · cases h
      · rfl
    · rw [CredentialTable.authenticate, CredentialTable.lookup_accept, if_pos rfl] at h
      cases h

end Enrollment

/-- After any logins, whatever their realms and credentials. A login succeeds exactly if it stands
for an identity that none of the logins before its own first time stood for, and the answer is that
identity; so an identity is given to one login only, however it is split into user and realm. A
login that fails makes no difference to any that come later. -/
theorem first_claim_is_exclusive (earlier : List Login) (q : Login) :
    ((∃ a, q.answer (Enrollment.empty.after earlier) = .ok a) ↔
      ∃ i, q.StandsFor i ∧ ∀ q' ∈ earlier.takeWhile (· ≠ q), ¬ q'.StandsFor i) ∧
    (∀ a, q.answer (Enrollment.empty.after earlier) = .ok a → q.StandsFor a.toList ∧
      ∀ (between : List Login) (q' : Login),
        q'.answer (Enrollment.empty.after (earlier ++ q :: between)) = .ok a → q' = q) ∧
    ∀ f, q.answer (Enrollment.empty.after earlier) = .error f →
      f = .invalidCredential ∧
      ∀ (between : List Login) (q' : Login),
        q'.answer (Enrollment.empty.after (earlier ++ q :: between)) =
          q'.answer (Enrollment.empty.after (earlier ++ between)) := by
  have hanswer : ∀ a, q.answer (Enrollment.empty.after earlier) = .ok a ↔
      owner? (earlier ++ [q]) a = some q :=
    fun a => (Enrollment.tells_after earlier).answer_eq_ok_iff
  have hfirst : ∀ a, owner? (earlier ++ [q]) a = some q ↔ q.StandsFor a.toList ∧
      ∀ q' ∈ earlier.takeWhile (· ≠ q), ¬ q'.StandsFor a.toList := by
    intro a
    rw [owner?, find?_eq_some_iff_takeWhile, takeWhile_concat_self]
    simp [← Login.identity?_eq_some_iff]
  refine ⟨?_, ?_, ?_⟩
  · constructor
    · rintro ⟨a, ha⟩
      exact ⟨a.toList, (hfirst a).1 ((hanswer a).1 ha)⟩
    · rintro ⟨i, hq, hnone⟩
      obtain ⟨a, -, rfl⟩ := Login.standsFor_iff.1 hq
      exact ⟨a, (hanswer a).2 ((hfirst a).2 ⟨hq, hnone⟩)⟩
  · intro a ha
    have howner := (hanswer a).1 ha
    refine ⟨((hfirst a).1 howner).1, fun between q' hq' => ?_⟩
    have howner' := (Enrollment.tells_after _).answer_eq_ok_iff.1 hq'
    have hsplit : earlier ++ q :: between ++ [q'] = earlier ++ [q] ++ (between ++ [q']) := by simp
    rw [hsplit, owner?_append howner] at howner'
    exact (Option.some.inj howner').symm
  · intro f hf
    have hsame := Enrollment.authenticate_of_error hf
    refine ⟨?_, fun between q' => ?_⟩
    · rw [Login.answer, hsame] at hf
      exact (Except.error.inj hf).symm
    · have hafter : Enrollment.empty.after (earlier ++ q :: between) =
          Enrollment.empty.after (earlier ++ between) := by
        rw [Enrollment.after_append, Enrollment.after_append, Enrollment.after_cons, hsame]
      rw [hafter]

end Courier
