import Courier.Proofs.Duplex.Handshake

/-! # The books of two ends

What ties the sender's book of one direction to the receiver's, by the frames that the sender has
queued and the number of them that were handed over (`Balanced`), and what ties the two ends'
handshakes, so that no book is begun anew once it has an entry (`Shaken`). Both are kept by traffic
and by each event of the handshake.
-/
set_option autoImplicit false

namespace Courier

open Courier.Wire Courier.Wire.Frame Courier.Routing

variable {σ : Type} {a a' b b' cl cl' sv sv' : Channel σ} {heard got got' : List Packet}
  {fs fs' : List Frame} {k k' : Nat} {s : Session} {l : Ledger}

/-! ## One direction -/

/-- From sender to receiver, when `k` of the sender's frames were handed over. -/
structure Balanced (a b : Channel σ) (heard : List Packet) (k : Nat) : Prop where
  within : k ≤ a.spoken.length
  arrived : heard = (a.spoken.take k).flatMap packets
  transmitted : a.ledger.transmitted = .ofNat (a.spoken.flatMap packets).length
  received : b.ledger.received = .ofNat heard.length
  held : a.ledger.unacknowledged.Sublist (a.spoken.flatMap packets)
  acks : ∀ count, .acknowledge count ∈ b.spoken → ∃ m, m ≤ heard.length ∧ count = .ofNat m
  speaks : a.spoken.flatMap packets ≠ [] → a.session.identity ≠ none

namespace Balanced

/-- Traffic on both ends, after which `k'` frames were handed over. -/
theorem traded (h : Balanced a b heard k) (ha : a.Traded got fs a') (hb : b.Traded got' fs' b')
    (hwithin : k' ≤ a.spoken.length)
    (harrived : heard ++ got' = (a.spoken.take k').flatMap packets) :
    Balanced a' b' (heard ++ got') k' where
  within := by
    rw [ha.spoken, List.length_append]
    omega
  arrived := by rw [ha.spoken, List.take_append_of_le_length hwithin, harrived]
  transmitted := by
    rw [ha.transmitted, h.transmitted, ← UInt32.ofNat_add, ha.spoken, List.flatMap_append,
      List.length_append]
  received := by
    rw [hb.received, h.received, ← UInt32.ofNat_add, List.length_append]
  held := by
    rw [ha.spoken, List.flatMap_append]
    exact ha.held.trans (h.held.append_right _)
  acks := by
    intro count hcount
    rw [hb.spoken] at hcount
    rw [List.length_append]
    obtain hcount | hcount := List.mem_append.1 hcount
    · obtain ⟨m, hm, heq⟩ := h.acks count hcount
      exact ⟨m, by omega, heq⟩
    · obtain ⟨m, hm, heq⟩ := hb.acks count hcount
      refine ⟨heard.length + m, by omega, ?_⟩
      rw [heq, h.received, UInt32.ofNat_add]
  speaks := by
    intro hne
    rw [ha.session]
    by_cases hbefore : a.spoken.flatMap packets = []
    · rw [ha.spoken, List.flatMap_append, hbefore, List.nil_append] at hne
      obtain hidentity | hheld := ha.speaks hne
      · exact hidentity
      · have hnone := h.held
        rw [hbefore] at hnone
        exact absurd (List.sublist_nil.1 hnone) hheld
    · exact h.speaks hbefore

/-- Without an identity nothing was sent. -/
theorem unsent (h : Balanced a b heard k) (hnone : a.session.identity = none) :
    a.spoken.flatMap packets = [] := by
  apply Decidable.byContradiction
  intro hne
  exact h.speaks hne hnone

/-- The sender takes a turn of its handshake. It has not sent a packet. -/
theorem sender_turns (h : Balanced a b heard k) (ht : a.Turns s l fs a')
    (hledger : l = a.ledger ∨ l = .empty) (hfs : fs.flatMap packets = [])
    (hnone : a.session.identity = none) : Balanced a' b heard k := by
  have hsent := h.unsent hnone
  have hsent' : a'.spoken.flatMap packets = [] := by
    rw [ht.spoken, List.flatMap_append, hsent, hfs]
    rfl
  -- As nothing was sent, a book that is begun anew says what the old one said.
  have hbook : a'.ledger.transmitted = 0 ∧ a'.ledger.unacknowledged = [] := by
    have htransmitted := h.transmitted
    have hheld := h.held
    rw [hsent] at htransmitted hheld
    rw [ht.ledger]
    obtain rfl | rfl := hledger
    · exact ⟨htransmitted, List.sublist_nil.1 hheld⟩
    · exact ⟨rfl, rfl⟩
  refine ⟨?_, ?_, ?_, h.received, ?_, h.acks, fun hne => absurd hsent' hne⟩
  · have hwithin := h.within
    rw [ht.spoken, List.length_append]
    omega
  · rw [ht.spoken, List.take_append_of_le_length h.within]
    exact h.arrived
  · rw [hbook.1, hsent']
    rfl
  · rw [hbook.2]
    exact List.nil_sublist _

/-- The receiver takes a turn of its handshake; its book is not begun anew, or has no entry yet. -/
theorem receiver_turns (h : Balanced a b heard k) (ht : b.Turns s l fs b')
    (hledger : l = b.ledger ∨ l = .empty ∧ heard = [])
    (hfs : ∀ count, .acknowledge count ∉ fs) : Balanced a b' heard k := by
  refine ⟨h.within, h.arrived, h.transmitted, ?_, h.held, ?_, h.speaks⟩
  · rw [ht.ledger]
    obtain rfl | ⟨rfl, rfl⟩ := hledger
    · exact h.received
    · rfl
  · intro count hcount
    rw [ht.spoken] at hcount
    obtain hcount | hcount := List.mem_append.1 hcount
    · exact h.acks count hcount
    · exact absurd hcount (hfs count)

theorem heard_of_speechless (h : Balanced a b heard k) (hnone : a.session.identity = none) :
    heard = [] := by
  have hsent := h.unsent hnone
  have hsplit : (a.spoken.take k).flatMap packets ++ (a.spoken.drop k).flatMap packets = [] := by
    rw [← List.flatMap_append, List.take_append_drop, hsent]
  rw [h.arrived]
  exact (List.append_eq_nil_iff.1 hsplit).1

theorem next (h : Balanced a b heard k) {f : Frame} (hf : a.spoken[k]? = some f) :
    k + 1 ≤ a.spoken.length ∧ heard ++ f.packets = (a.spoken.take (k + 1)).flatMap packets := by
  obtain ⟨hlt, -⟩ := List.getElem?_eq_some_iff.1 hf
  refine ⟨hlt, ?_⟩
  rw [List.take_add_one, hf, List.flatMap_append, h.arrived]
  simp

/-- A frame without packets is handed over. -/
theorem skip (h : Balanced a b heard k) {f : Frame} (hf : a.spoken[k]? = some f)
    (hnone : f.packets = []) : Balanced a b heard (k + 1) := by
  obtain ⟨hwithin, harrived⟩ := h.next hf
  rw [hnone, List.append_nil] at harrived
  exact ⟨hwithin, harrived, h.transmitted, h.received, h.held, h.acks, h.speaks⟩

/-! ## What the books tell -/

theorem split (h : Balanced a b heard k) :
    a.spoken.flatMap packets = heard ++ (a.spoken.drop k).flatMap packets := by
  rw [h.arrived, ← List.flatMap_append, List.take_append_drop]

theorem length_sent (h : Balanced a b heard k) : (a.spoken.flatMap packets).length =
    heard.length + ((a.spoken.drop k).flatMap packets).length := by
  have hlength := congrArg List.length h.split
  rw [List.length_append] at hlength
  exact hlength

/-- While the counts do not wrap around, they differ by what is in flight. -/
theorem counts (h : Balanced a b heard k) (hfew : (a.spoken.flatMap packets).length < 2 ^ 32) :
    a.ledger.transmitted.toNat =
      b.ledger.received.toNat + ((a.spoken.drop k).flatMap packets).length := by
  have hlength := h.length_sent
  have hheard : heard.length < UInt32.size := by
    show heard.length < 2 ^ 32
    omega
  rw [h.transmitted, h.received, UInt32.toNat_ofNat_of_lt' hfew, UInt32.toNat_ofNat_of_lt' hheard]
  exact hlength

/-- An acknowledgment that counts everything sent finds that everything has arrived. -/
theorem all_arrived (h : Balanced a b heard k) (hfew : (a.spoken.flatMap packets).length < 2 ^ 32)
    (hack : .acknowledge a.ledger.transmitted ∈ b.spoken) :
    a.spoken.flatMap packets = heard := by
  obtain ⟨m, hm, heq⟩ := h.acks _ hack
  have hlength := h.length_sent
  -- The count is of packets that had arrived, and it is the count of those that were sent.
  have hsame : (a.spoken.flatMap packets).length = m := by
    rw [h.transmitted] at heq
    have hnat := congrArg UInt32.toNat heq
    rw [UInt32.toNat_ofNat_of_lt' hfew, UInt32.toNat_ofNat_of_lt' (by
      show m < 2 ^ 32
      omega)] at hnat
    exact hnat
  have hnone : (a.spoken.drop k).flatMap packets = [] := by
    apply List.eq_nil_of_length_eq_zero
    omega
  rw [h.split, hnone, List.append_nil]

end Balanced

/-! ## The two handshakes -/

/-- How far a client and a server have come, for as long as both are open. -/
structure Shaken (cl sv : Channel σ) : Prop where
  client : cl.session.identity ≠ none ↔ cl.session.phase = .identified
  server : sv.session.identity ≠ none ↔ sv.session.phase = .identified
  together : cl.session.identity ≠ none → sv.session.identity ≠ none
  asked : sv.session.identity ≠ none →
    cl.session.phase = .authenticated ∨ cl.session.phase = .identified
  credentials : ∀ credential, .authenticate credential ∈ cl.spoken →
    cl.session.phase = .authenticated ∨ cl.session.phase = .identified
  identities : ∀ a, .identify (some a) ∈ sv.spoken → sv.session.identity ≠ none
  clientStays : .detach ∉ cl.spoken
  serverStays : .detach ∉ sv.spoken

namespace Shaken

theorem traded (h : Shaken cl sv) (hc : cl.Traded got fs cl') (hs : sv.Traded got' fs' sv') :
    Shaken cl' sv' := by
  have hold : ∀ {ch ch' : Channel σ} {got : List Packet} {fs : List Frame} {f : Frame},
      ch.Traded got fs ch' → ¬ f.IsTraffic → f ∈ ch'.spoken → f ∈ ch.spoken := by
    intro ch ch' got fs f ht hf hmem
    rw [ht.spoken] at hmem
    obtain hmem | hmem := List.mem_append.1 hmem
    · exact hmem
    · exact absurd (ht.traffic f hmem) hf
  obtain ⟨hclient, hserver, htogether, hasked, hcredentials, hidentities, hcs, hss⟩ := h
  rw [← hc.session] at hclient htogether hasked hcredentials
  rw [← hs.session] at hserver htogether hasked hidentities
  exact ⟨hclient, hserver, htogether, hasked,
    fun credential hmem => hcredentials credential (hold hc (fun h => h) hmem),
    fun a hmem => hidentities a (hold hs (fun h => h) hmem),
    fun hmem => hcs (hold hc (fun h => h) hmem), fun hmem => hss (hold hs (fun h => h) hmem)⟩

/-- The client turns before its credential was sent, or sends it. -/
theorem client_turns (h : Shaken cl sv) (ht : cl.Turns s l fs cl')
    (hearly : ¬ (cl.session.phase = .authenticated ∨ cl.session.phase = .identified))
    (hidentity : s.identity = cl.session.identity) (hphase : s.phase ≠ .identified)
    (hcredentials : ∀ credential, .authenticate credential ∈ fs → s.phase = .authenticated)
    (hstays : .detach ∉ fs) : Shaken cl' sv := by
  have hnone : s.identity = none := by
    apply Decidable.byContradiction
    intro hne
    rw [hidentity] at hne
    exact hearly (.inr (h.client.1 hne))
  refine ⟨?_, h.server, ?_, ?_, ?_, h.identities, ?_, h.serverStays⟩
  · rw [ht.session, hnone]
    exact ⟨fun hne => absurd rfl hne, fun hp => absurd hp hphase⟩
  · rw [ht.session, hnone]
    exact fun hne => absurd rfl hne
  · exact fun hne => absurd (h.asked hne) hearly
  · intro credential hmem
    rw [ht.spoken] at hmem
    rw [ht.session]
    obtain hmem | hmem := List.mem_append.1 hmem
    · exact absurd (h.credentials credential hmem) hearly
    · exact .inl (hcredentials credential hmem)
  · rw [ht.spoken]
    intro hmem
    obtain hmem | hmem := List.mem_append.1 hmem
    · exact h.clientStays hmem
    · exact hstays hmem

/-- The client is told an identity, which the server has accepted before. -/
theorem client_identified (h : Shaken cl sv) (ht : cl.Turns s l [.fetch] cl') {a : Address}
    (htold : .identify (some a) ∈ sv.spoken) (hidentity : s.identity = some a)
    (hphase : s.phase = .identified) : Shaken cl' sv := by
  refine ⟨?_, h.server, fun _ => h.identities a htold, ?_, ?_, h.identities, ?_, h.serverStays⟩
  · rw [ht.session, hidentity, hphase]
    exact ⟨fun _ => rfl, fun _ hnone => nomatch hnone⟩
  · intro _
    rw [ht.session]
    exact .inr hphase
  · intro credential _
    rw [ht.session]
    exact .inr hphase
  · rw [ht.spoken]
    intro hmem
    obtain hmem | hmem := List.mem_append.1 hmem
    · exact h.clientStays hmem
    · cases List.mem_singleton.1 hmem

/-- The server turns before it accepts a credential. -/
theorem server_turns (h : Shaken cl sv) (ht : sv.Turns s l fs sv')
    (hearly : sv.session.phase ≠ .identified) (hidentity : s.identity = sv.session.identity)
    (hphase : s.phase ≠ .identified) (hidentities : ∀ a, .identify (some a) ∉ fs)
    (hstays : .detach ∉ fs) : Shaken cl sv' := by
  have hnone : sv.session.identity = none := by
    apply Decidable.byContradiction
    exact fun hne => hearly (h.server.1 hne)
  have hkept : sv'.session.identity = none := by rw [ht.session, hidentity, hnone]
  refine ⟨h.client, ?_, ?_, ?_, h.credentials, ?_, h.clientStays, ?_⟩
  · rw [hkept, ht.session]
    exact ⟨fun hne => absurd rfl hne, fun hp => absurd hp hphase⟩
  · exact fun hne => absurd hnone (h.together hne)
  · exact fun hne => absurd hkept hne
  · intro a hmem
    rw [ht.spoken] at hmem
    obtain hmem | hmem := List.mem_append.1 hmem
    · exact absurd hnone (h.identities a hmem)
    · exact absurd hmem (hidentities a)
  · rw [ht.spoken]
    intro hmem
    obtain hmem | hmem := List.mem_append.1 hmem
    · exact h.serverStays hmem
    · exact hstays hmem

/-- The server accepts a credential, which the client has sent before. -/
theorem server_identified (h : Shaken cl sv) {a : Address}
    (ht : sv.Turns s l [.identify (some a)] sv') {credential : Credential}
    (hsent : .authenticate credential ∈ cl.spoken) (hidentity : s.identity = some a)
    (hphase : s.phase = .identified) : Shaken cl sv' := by
  have hnamed : sv'.session.identity ≠ none := by
    rw [ht.session, hidentity]
    exact fun hnone => nomatch hnone
  refine ⟨h.client, ?_, fun _ => hnamed, fun _ => h.credentials credential hsent, h.credentials,
    fun _ _ => hnamed, h.clientStays, ?_⟩
  · exact ⟨fun _ => (by rw [ht.session, hphase]), fun _ => hnamed⟩
  · rw [ht.spoken]
    intro hmem
    obtain hmem | hmem := List.mem_append.1 hmem
    · exact h.serverStays hmem
    · cases List.mem_singleton.1 hmem

end Shaken
end Courier
