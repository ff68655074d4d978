import Kratos.Contracts.Identity

/-!
# The indexes of the identity registry

`Step` says what a call can do to the records the indexes are made of: nothing, a
declaration or an attestation, while the records that exist keep their owners and stay
revoked once they are.  Along every run whose declarations have no colliding ids the owner
index and the attestation pairs are exact.

The counter of active identities is exact in every state of a run if and only if no
renewal makes an expired identity active (`index_exact_iff`): the renewal does not count it.
-/

namespace Kratos

namespace IdentityRegistry

/-! ## Records -/

/-- The record of the same identity, revoked if it was. -/
structure Evolves (i i' : IdentityCommitment) : Prop where
  owner : i'.owner = i.owner
  scope : i'.scope = i.scope
  commitment : i'.commitment = i.commitment
  revoked : i.status = .revoked → i'.status = .revoked

/-- The same identities, each with a later record. -/
def SameIds (m m' : SortedMap IdentityId IdentityCommitment) : Prop :=
  ∀ id, (m.find? id = none ∧ m'.find? id = none) ∨
    ∃ i i', m.find? id = some i ∧ m'.find? id = some i' ∧ Evolves i i'

theorem Evolves.refl (i : IdentityCommitment) : Evolves i i := ⟨rfl, rfl, rfl, id⟩

theorem Evolves.trans (i j k : IdentityCommitment) (h : Evolves i j) (h' : Evolves j k) : Evolves i k :=
  ⟨h'.owner.trans h.owner, h'.scope.trans h.scope, h'.commitment.trans h.commitment,
    fun hr => h'.revoked (h.revoked hr)⟩

namespace SameIds

theorem refl (m : SortedMap IdentityId IdentityCommitment) : SameIds m m := by
  intro id
  cases h : m.find? id with
  | none => exact Or.inl ⟨rfl, rfl⟩
  | some i => exact Or.inr ⟨i, i, rfl, rfl, .refl i⟩

theorem trans (m m' m'' : SortedMap IdentityId IdentityCommitment) (h : SameIds m m') (h' : SameIds m' m'') :
    SameIds m m'' := by
  intro id
  rcases h id with ⟨hn, hn'⟩ | ⟨i, i', hi, hi', he⟩
  · rcases h' id with ⟨-, hn''⟩ | ⟨j, j', hj, -, -⟩
    · exact Or.inl ⟨hn, hn''⟩
    · rw [hn'] at hj
      cases hj
  · rcases h' id with ⟨hn', -⟩ | ⟨j, j', hj, hj', he'⟩
    · rw [hi'] at hn'
      cases hn'
    · rw [hi'] at hj
      cases hj
      exact Or.inr ⟨i, j', hi, hj', he.trans _ _ _ he'⟩

theorem insert (m : SortedMap IdentityId IdentityCommitment) (id : IdentityId) (i i' : IdentityCommitment)
    (h : m.find? id = some i) (he : Evolves i i') : SameIds m (m.insert id i') := by
  intro j
  by_cases hj : j = id
  · subst hj
    exact Or.inr ⟨i, i', h, m.find?_insert_self j i', he⟩
  · rw [m.find?_insert_ne id j i' hj]
    exact refl m j

theorem map (m : SortedMap IdentityId IdentityCommitment) (f : IdentityId → IdentityCommitment → IdentityCommitment)
    (he : ∀ id i, Evolves i (f id i)) : SameIds m (m.map f) := by
  intro id
  rw [SortedMap.find?_map]
  cases h : m.find? id with
  | none => exact Or.inl ⟨rfl, rfl⟩
  | some i => exact Or.inr ⟨i, f id i, rfl, rfl, he id i⟩

theorem find_after (m m' : SortedMap IdentityId IdentityCommitment) (h : SameIds m m') (id : IdentityId)
    (i : IdentityCommitment) (hi : m.find? id = some i) : ∃ i', m'.find? id = some i' ∧ Evolves i i' := by
  rcases h id with ⟨hn, -⟩ | ⟨j, j', hj, hj', he⟩
  · rw [hn] at hi
    cases hi
  · rw [hi] at hj
    cases hj
    exact ⟨j', hj', he⟩

theorem find_before (m m' : SortedMap IdentityId IdentityCommitment) (h : SameIds m m') (id : IdentityId)
    (i' : IdentityCommitment) (hi : m'.find? id = some i') : ∃ i, m.find? id = some i ∧ Evolves i i' := by
  rcases h id with ⟨-, hn⟩ | ⟨j, j', hj, hj', he⟩
  · rw [hn] at hi
    cases hi
  · rw [hi] at hj'
    cases hj'
    exact ⟨j, hj, he⟩

end SameIds

/-! ## What a call does -/

/-- Who attested whom, without the state of the attestation. -/
def given (r : IdentityRegistry) (id : IdentityId) : List (AccountId × IdentityId × IdentityId) :=
  (r.attestationsOf id).map fun a => (a.attester, a.attesterIdentity, a.targetIdentity)

/-- Neither a declaration nor an attestation. -/
structure Quiet (r r' : IdentityRegistry) : Prop where
  chain : r'.chainId = r.chainId
  owners : r'.ownerToIdentity = r.ownerToIdentity
  ids : SameIds r.identities r'.identities
  pairs : r'.attestationPairs = r.attestationPairs
  given : ∀ id, r'.given id = r.given id

/-- What a call leads to. -/
inductive Step (cr : Crypto) (r : IdentityRegistry) : IdentityOp → IdentityRegistry → Prop
  | quiet (op : IdentityOp) (r' : IdentityRegistry) (h : Quiet r r') : Step cr r op r'
  | declared (owner : AccountId) (data : List UInt8) (name : Option String) (block : Nat) (id : IdentityId)
      (r' : IdentityRegistry) (h : r.declareIdentity cr owner data name block = .ok (r', id)) :
      Step cr r (.declareIdentity owner data name block) r'
  | attested (attester : AccountId) (target : IdentityId) (claim : List UInt8) (block : Nat)
      (attesterId : IdentityId) (j : IdentityCommitment) (r' : IdentityRegistry)
      (howner : r.ownerToIdentity.find? attester = some attesterId) (htarget : r.identities.find? target = some j)
      (hself : attesterId ≠ target) (hfresh : (attester, target) ∉ r.attestationPairs)
      (chain : r'.chainId = r.chainId) (owners : r'.ownerToIdentity = r.ownerToIdentity)
      (ids : SameIds r.identities r'.identities)
      (pairs : r'.attestationPairs = insert (attester, target) r.attestationPairs)
      (hgiven : ∀ id, r'.given id =
        if id = target then r.given target ++ [(attester, attesterId, target)] else r.given id) :
      Step cr r (.submitAttestation attester target claim block) r'

theorem identityOf_ok (r : IdentityRegistry) (owner : AccountId) (id : IdentityId) (i : IdentityCommitment)
    (h : r.identityOf owner = .ok (id, i)) :
    r.ownerToIdentity.find? owner = some id ∧ r.identities.find? id = some i := by
  unfold identityOf at h
  split at h
  · cases h
  · next id' hid =>
    split at h
    · cases h
    · next i' hi =>
      cases h
      exact ⟨hid, hi⟩

theorem Quiet.refl (r : IdentityRegistry) : Quiet r r := ⟨rfl, rfl, .refl _, rfl, fun _ => rfl⟩

/-- Writing a later record. -/
theorem Quiet.setIdentity (r : IdentityRegistry) (id : IdentityId) (i i' : IdentityCommitment)
    (h : r.identities.find? id = some i) (he : Evolves i i') : Quiet r (r.setIdentity id i') :=
  ⟨rfl, rfl, .insert _ id i i' h he, rfl, fun _ => rfl⟩

theorem Quiet.recount (r r' : IdentityRegistry) (h : Quiet r r') (count : Nat) :
    Quiet r { r' with activeCount := count } :=
  ⟨h.chain, h.owners, h.ids, h.pairs, h.given⟩

theorem declareIdentity_ok (cr : Crypto) (r r' : IdentityRegistry) (owner : AccountId) (data : List UInt8)
    (name : Option String) (block : Nat) (id : IdentityId)
    (h : r.declareIdentity cr owner data name block = .ok (r', id)) :
    r.ownerToIdentity.find? owner = none ∧
      id = (IdentityCommitment.new cr owner r.chainId data name block).identityId ∧
      r' = { r with identities := r.identities.insert id (.new cr owner r.chainId data name block)
                    ownerToIdentity := r.ownerToIdentity.insert owner id
                    attestations := r.attestations.insert id [] } := by
  unfold declareIdentity at h
  split at h
  · cases h
  · next hfree =>
    cases h
    refine ⟨?_, rfl, rfl⟩
    simpa [SortedMap.contains] using hfree

theorem attestationChecked_ok (r : IdentityRegistry) (attester : AccountId) (target : IdentityId) (block : Nat)
    (attesterId : IdentityId) (i : IdentityCommitment)
    (h : r.attestationChecked attester target block = .ok (attesterId, i)) :
    r.ownerToIdentity.find? attester = some attesterId ∧ r.identities.find? attesterId = some i ∧
      i.isActive block = true ∧ attesterId ≠ target ∧ (attester, target) ∉ r.attestationPairs ∧
      ∃ j, r.identities.find? target = some j ∧ j.status.canReceiveAttestations = true := by
  unfold attestationChecked at h
  split at h
  · cases h
  · next id hid =>
    split at h
    · cases h
    · next i' hi =>
      split at h
      · cases h
      · next hactive =>
        split at h
        · cases h
        · next hself =>
          split at h
          · cases h
          · next j hj =>
            split at h
            · cases h
            · next hcan =>
              split at h
              · cases h
              · next hpair =>
                split at h
                · cases h
                · cases h
                  exact ⟨hid, hi, by simpa using hactive, hself, hpair, j, hj, by simpa using hcan⟩

/-- The three ways out of `maybeActivateIdentity`. -/
inductive Activation (r : IdentityRegistry) (id : IdentityId) (block : Nat) (i : IdentityCommitment) :
    IdentityRegistry → Prop
  | attested (hstatus : i.status = .declared) (hcount : 0 < r.countValidAttestations id block) :
      Activation r id block i (r.setIdentity id { i with status := .attested })
  | activated (hstatus : i.status = .declared ∨ i.status = .attested)
      (hnot : ¬ (i.status = .declared ∧ 0 < r.countValidAttestations id block))
      (hcount : r.config.minAttestations ≤ r.countValidAttestations id block) :
      Activation r id block i { r.setIdentity id { i with status := .active } with activeCount := r.activeCount + 1 }
  | unchanged (hnot : ¬ (i.status = .declared ∧ 0 < r.countValidAttestations id block))
      (hstay : ¬ ((i.status = .declared ∨ i.status = .attested) ∧
        r.config.minAttestations ≤ r.countValidAttestations id block)) :
      Activation r id block i r

theorem maybeActivateIdentity_ok (r : IdentityRegistry) (id : IdentityId) (block : Nat) (i : IdentityCommitment)
    (hi : r.identities.find? id = some i) :
    ∃ r', r.maybeActivateIdentity id block = .ok r' ∧ Activation r id block i r' := by
  unfold maybeActivateIdentity
  rw [hi]
  simp only
  split
  · next h => exact ⟨_, rfl, .attested h.1 h.2⟩
  · next h =>
    split
    · next h' => exact ⟨_, rfl, .activated h'.1 h h'.2⟩
    · next h' => exact ⟨_, rfl, .unchanged h h'⟩

theorem Activation.quiet (r r' : IdentityRegistry) (id : IdentityId) (block : Nat) (i : IdentityCommitment)
    (hi : r.identities.find? id = some i) (h : Activation r id block i r') : Quiet r r' := by
  cases h with
  | attested hstatus hcount =>
    refine .setIdentity r id i _ hi ?_
    refine ⟨rfl, rfl, rfl, fun hr => ?_⟩
    rw [hstatus] at hr
    cases hr
  | activated hstatus hnot hcount =>
    refine .recount r _ (.setIdentity r id i _ hi ?_) _
    refine ⟨rfl, rfl, rfl, fun hr => ?_⟩
    rw [hr] at hstatus
    rcases hstatus with hs | hs <;> cases hs
  | unchanged => exact .refl r

theorem find?_addAttestation_target (cr : Crypto) (r : IdentityRegistry) (attester : AccountId)
    (attesterId target : IdentityId) (i : IdentityCommitment) (claim : List UInt8) (block : Nat)
    (hself : attesterId ≠ target) :
    (r.addAttestation cr attester attesterId i target claim block).identities.find? target =
      r.identities.find? target :=
  r.identities.find?_insert_ne attesterId target _ hself.symm

/-- A call that is not refused adds the attestation and looks at the target again. -/
theorem submitAttestation_cases (cr : Crypto) (r : IdentityRegistry) (attester : AccountId) (target : IdentityId)
    (claim : List UInt8) (block : Nat) :
    ((r.submitAttestation cr attester target claim block).1 = r ∧
      (r.submitAttestation cr attester target claim block).2 ≠ .ok ()) ∨
    ∃ attesterId i j r', r.attestationChecked attester target block = .ok (attesterId, i) ∧
      r.identities.find? target = some j ∧
      Activation (r.addAttestation cr attester attesterId i target claim block) target block j r' ∧
      r.submitAttestation cr attester target claim block = (r', .ok ()) := by
  unfold submitAttestation
  cases hc : r.attestationChecked attester target block with
  | error e => exact Or.inl ⟨rfl, nofun⟩
  | ok c =>
    obtain ⟨attesterId, i⟩ := c
    obtain ⟨-, -, -, hself, -, j, hj, -⟩ := r.attestationChecked_ok attester target block attesterId i hc
    obtain ⟨r', hr', hact⟩ := maybeActivateIdentity_ok
      (r.addAttestation cr attester attesterId i target claim block) target block j
      (by rw [find?_addAttestation_target cr r attester attesterId target i claim block hself, hj])
    refine Or.inr ⟨attesterId, i, j, r', rfl, hj, hact, ?_⟩
    simp only [hr']

theorem given_addAttestation (cr : Crypto) (r : IdentityRegistry) (attester : AccountId)
    (attesterId target : IdentityId) (i : IdentityCommitment) (claim : List UInt8) (block : Nat) (id : IdentityId) :
    (r.addAttestation cr attester attesterId i target claim block).given id =
      if id = target then r.given target ++ [(attester, attesterId, target)] else r.given id := by
  unfold given
  by_cases h : id = target
  · subst h
    rw [if_pos rfl]
    have : (r.addAttestation cr attester attesterId i id claim block).attestationsOf id =
        r.attestationsOf id ++ [IdentityAttestation.new cr attester attesterId id claim
          (calculateAttestationWeight i.reputation.score) block] := by
      show ((r.attestations.insert id _).find? id).getD [] = _
      rw [SortedMap.find?_insert_self]
      rfl
    rw [this, List.map_append]
    rfl
  · rw [if_neg h]
    have : (r.addAttestation cr attester attesterId i target claim block).attestationsOf id =
        r.attestationsOf id := by
      show ((r.attestations.insert target _).find? id).getD [] = _
      rw [SortedMap.find?_insert_ne _ _ _ _ h]
      rfl
    rw [this]

theorem step_submitAttestation (cr : Crypto) (r : IdentityRegistry) (attester : AccountId) (target : IdentityId)
    (claim : List UInt8) (block : Nat) :
    Step cr r (.submitAttestation attester target claim block)
      (r.submitAttestation cr attester target claim block).1 := by
  rcases submitAttestation_cases cr r attester target claim block with ⟨h, -⟩ | ⟨attesterId, i, j, r', hc, hj, hact, h⟩
  · rw [h]
    exact .quiet _ r (.refl r)
  · rw [h]
    obtain ⟨howner, hi, -, hself, hfresh, -⟩ := r.attestationChecked_ok attester target block attesterId i hc
    have hq := hact.quiet _ _ _ _ _ (by
      rw [find?_addAttestation_target cr r attester attesterId target i claim block hself, hj])
    refine .attested attester target claim block attesterId j r' howner hj hself hfresh hq.chain hq.owners ?_
      hq.pairs ?_
    · refine SameIds.trans _ _ _ (SameIds.insert _ attesterId i _ hi ?_) hq.ids
      exact ⟨rfl, rfl, rfl, id⟩
    · intro id
      rw [hq.given id, given_addAttestation]

theorem quiet_renewIdentity (r r' : IdentityRegistry) (owner : AccountId) (block expiry : Nat)
    (h : r.renewIdentity owner block = .ok (r', expiry)) : Quiet r r' := by
  unfold renewIdentity at h
  split at h
  · cases h
  · next id i hid =>
    split at h
    · cases h
    · next hrev =>
      cases h
      refine .setIdentity r id i _ (r.identityOf_ok owner id i hid).2 ?_
      exact ⟨rfl, rfl, rfl, fun hr => absurd hr hrev⟩

theorem quiet_revoke (r : IdentityRegistry) (id : IdentityId) (i : IdentityCommitment)
    (hi : r.identities.find? id = some i) : Quiet r (r.revoke id i) := by
  refine .recount r _ (.setIdentity r id i _ hi ?_) _
  exact ⟨rfl, rfl, rfl, fun _ => rfl⟩

theorem quiet_revokeOwnIdentity (r r' : IdentityRegistry) (owner : AccountId) (deposit : Balance)
    (h : r.revokeOwnIdentity owner = .ok (r', deposit)) : Quiet r r' := by
  unfold revokeOwnIdentity at h
  split at h
  · cases h
  · next id i hid =>
    split at h
    · cases h
    · cases h
      exact r.quiet_revoke id i (r.identityOf_ok owner id i hid).2

theorem given_invalidate (r : IdentityRegistry) (attester : AccountId) (id : IdentityId) :
    (r.invalidateAttestationsFrom attester).given id = r.given id := by
  unfold given attestationsOf invalidateAttestationsFrom
  rw [SortedMap.find?_map]
  cases r.attestations.find? id with
  | none => rfl
  | some l =>
    simp only [Option.map_some, Option.getD_some, List.map_map]
    apply List.map_congr_left
    intro a _
    simp only [Function.comp_apply]
    split <;> rfl

theorem forceRevokeIdentity_ok (r r' : IdentityRegistry) (id : IdentityId) (reason : RevocationReason)
    (h : r.forceRevokeIdentity id reason = .ok r') :
    ∃ i, r.identities.find? id = some i ∧ r' = (r.revoke id i).invalidateAttestationsFrom i.owner := by
  unfold forceRevokeIdentity at h
  split at h
  · cases h
  · next i hi =>
    split at h
    · cases h
    · cases h
      exact ⟨i, hi, rfl⟩

theorem quiet_forceRevokeIdentity (r r' : IdentityRegistry) (id : IdentityId) (reason : RevocationReason)
    (h : r.forceRevokeIdentity id reason = .ok r') : Quiet r r' := by
  obtain ⟨i, hi, rfl⟩ := forceRevokeIdentity_ok r r' id reason h
  have hq := r.quiet_revoke id i hi
  exact ⟨hq.chain, hq.owners, hq.ids, hq.pairs, fun j => (given_invalidate _ _ j).trans (hq.given j)⟩

theorem quiet_processExpirations (r : IdentityRegistry) (block : Nat) : Quiet r (r.processExpirations block).1 := by
  refine ⟨rfl, rfl, .map _ _ ?_, rfl, fun _ => rfl⟩
  intro id i
  refine ⟨rfl, rfl, rfl, fun hr => ?_⟩
  simp [sweep, sweptStatus, hr]

/-- A change of the reputation alone. -/
theorem quiet_withIdentity (r r' : IdentityRegistry) (owner : AccountId) (f : IdentityCommitment → IdentityCommitment)
    (h : r.withIdentity owner f = .ok r') (he : ∀ i, Evolves i (f i)) : Quiet r r' := by
  unfold withIdentity at h
  split at h
  · cases h
  · next id i hid =>
    cases h
    exact .setIdentity r id i _ (r.identityOf_ok owner id i hid).2 (he i)

theorem evolves_applyDecay (i : IdentityCommitment) (block : Nat) : Evolves i (i.applyDecay block) := by
  unfold IdentityCommitment.applyDecay
  simp only
  split <;> exact ⟨rfl, rfl, rfl, id⟩

theorem quiet_applyReputationDecay (r : IdentityRegistry) (block : Nat) : Quiet r (r.applyReputationDecay block) := by
  unfold applyReputationDecay
  split
  · exact .refl r
  · refine ⟨rfl, rfl, .map _ _ ?_, rfl, fun _ => rfl⟩
    intro id i
    split
    · exact evolves_applyDecay i block
    · exact .refl i

/-- **Step.**  Every call. -/
theorem apply_step (cr : Crypto) (r : IdentityRegistry) (op : IdentityOp) : Step cr r op (r.apply cr op) := by
  have hkeep : ∀ op, Step cr r op r := fun op => .quiet op r (.refl r)
  cases op with
  | declareIdentity owner data name block =>
    exact Except.orKeep_map_of (Step cr r _) _ r (hkeep _) fun r' id h => .declared owner data name block id r' h
  | submitAttestation attester target claim block => exact step_submitAttestation cr r attester target claim block
  | renewIdentity owner block =>
    exact Except.orKeep_map_of (Step cr r _) _ r (hkeep _) fun r' e h =>
      .quiet _ r' (quiet_renewIdentity r r' owner block e h)
  | revokeOwnIdentity owner =>
    exact Except.orKeep_map_of (Step cr r _) _ r (hkeep _) fun r' d h =>
      .quiet _ r' (quiet_revokeOwnIdentity r r' owner d h)
  | forceRevokeIdentity id reason =>
    exact Except.orKeep_of (Step cr r _) _ r (hkeep _) fun r' h =>
      .quiet _ r' (quiet_forceRevokeIdentity r r' id reason h)
  | processExpirations block => exact .quiet _ _ (quiet_processExpirations r block)
  | recordGovernanceParticipation owner block =>
    exact Except.orKeep_of (Step cr r _) _ r (hkeep _) fun r' h =>
      .quiet _ r' (quiet_withIdentity r r' owner _ h fun _ => ⟨rfl, rfl, rfl, id⟩)
  | recordArbitrationParticipation owner block =>
    exact Except.orKeep_of (Step cr r _) _ r (hkeep _) fun r' h =>
      .quiet _ r' (quiet_withIdentity r r' owner _ h fun _ => ⟨rfl, rfl, rfl, id⟩)
  | slashReputation owner percent =>
    exact Except.orKeep_of (Step cr r _) _ r (hkeep _) fun r' h =>
      .quiet _ r' (quiet_withIdentity r r' owner _ h fun _ => ⟨rfl, rfl, rfl, id⟩)
  | applyReputationDecay block => exact .quiet _ _ (quiet_applyReputationDecay r block)
  | updateConfig config => exact .quiet _ _ ⟨rfl, rfl, .refl _, rfl, fun _ => rfl⟩

/-! ## The indexes -/

/-- The string that is hashed for the id of a record. -/
def idBytes (i : IdentityCommitment) : List UInt8 := identityIdBytes i.owner i.scope i.commitment

/-- The indexes fit the records, whose ids are hashes of the strings in `S`. -/
structure Indexed (cr : Crypto) (S : List (List UInt8)) (r : IdentityRegistry) : Prop where
  owned : ∀ owner id, r.ownerToIdentity.find? owner = some id ↔
    ∃ i, r.identities.find? id = some i ∧ i.owner = owner
  derived : ∀ id i, r.identities.find? id = some i → id = cr.blake3 (idBytes i) ∧ idBytes i ∈ S
  held : ∀ id, r.identities.find? id = none → r.given id = []
  target : ∀ id, ∀ g ∈ r.given id, g.2.2 = id
  attester : ∀ id, ∀ g ∈ r.given id, r.ownerToIdentity.find? g.1 = some g.2.1 ∧ g.2.1 ≠ id
  pairs : ∀ a id, (a, id) ∈ r.attestationPairs ↔ a ∈ (r.given id).map Prod.fst
  once : ∀ id, ((r.given id).map Prod.fst).Nodup

theorem Evolves.idBytes (i i' : IdentityCommitment) (h : Evolves i i') : idBytes i' = idBytes i := by
  unfold IdentityRegistry.idBytes
  rw [h.owner, h.scope, h.commitment]

theorem SameIds.owned_iff (m m' : SortedMap IdentityId IdentityCommitment) (h : SameIds m m') (id : IdentityId)
    (owner : AccountId) :
    (∃ i, m'.find? id = some i ∧ i.owner = owner) ↔ ∃ i, m.find? id = some i ∧ i.owner = owner := by
  constructor
  · rintro ⟨i', hi', rfl⟩
    obtain ⟨i, hi, he⟩ := SameIds.find_before _ _ h id i' hi'
    exact ⟨i, hi, he.owner.symm⟩
  · rintro ⟨i, hi, rfl⟩
    obtain ⟨i', hi', he⟩ := SameIds.find_after _ _ h id i hi
    exact ⟨i', hi', he.owner⟩

theorem SameIds.derived (cr : Crypto) (S : List (List UInt8)) (m m' : SortedMap IdentityId IdentityCommitment)
    (h : SameIds m m') (hd : ∀ id i, m.find? id = some i → id = cr.blake3 (idBytes i) ∧ idBytes i ∈ S)
    (id : IdentityId) (i' : IdentityCommitment) (hi' : m'.find? id = some i') :
    id = cr.blake3 (idBytes i') ∧ idBytes i' ∈ S := by
  obtain ⟨i, hi, he⟩ := SameIds.find_before _ _ h id i' hi'
  rw [he.idBytes]
  exact hd id i hi

theorem SameIds.find_none (m m' : SortedMap IdentityId IdentityCommitment) (h : SameIds m m') (id : IdentityId)
    (hn : m'.find? id = none) : m.find? id = none := by
  rcases h id with ⟨hn', -⟩ | ⟨i, i', -, hi', -⟩
  · exact hn'
  · rw [hn] at hi'
    cases hi'

section Indexed

variable (cr : Crypto) (S : List (List UInt8)) (hinj : ∀ x ∈ S, ∀ y ∈ S, cr.blake3 x = cr.blake3 y → x = y)

theorem Indexed.quiet (r r' : IdentityRegistry) (h : Indexed cr S r) (hq : Quiet r r') : Indexed cr S r' where
  owned owner id := by rw [hq.owners, h.owned, hq.ids.owned_iff]
  derived := SameIds.derived cr S _ _ hq.ids h.derived
  held id hn := by rw [hq.given, h.held id (SameIds.find_none _ _ hq.ids id hn)]
  target id := by rw [hq.given]; exact h.target id
  attester id := by rw [hq.given, hq.owners]; exact h.attester id
  pairs a id := by rw [hq.pairs, hq.given]; exact h.pairs a id
  once id := by rw [hq.given]; exact h.once id

include hinj in
/-- A declaration takes an id that is not in use: its string has a new owner. -/
theorem Indexed.fresh (r : IdentityRegistry) (h : Indexed cr S r) (i : IdentityCommitment)
    (hfree : r.ownerToIdentity.find? i.owner = none) (hS : idBytes i ∈ S) :
    r.identities.find? (cr.blake3 (idBytes i)) = none := by
  cases hold : r.identities.find? (cr.blake3 (idBytes i)) with
  | none => rfl
  | some j =>
    obtain ⟨hid, hj⟩ := h.derived _ j hold
    have hbytes := hinj _ hS _ hj hid
    have howner := owner_eq_of_identityIdBytes_eq _ _ _ _ _ _ hbytes
    have := (h.owned i.owner (cr.blake3 (idBytes i))).2 ⟨j, hold, howner.symm⟩
    rw [hfree] at this
    cases this

include hinj in
theorem Indexed.declared (r r' : IdentityRegistry) (h : Indexed cr S r) (owner : AccountId) (data : List UInt8)
    (name : Option String) (block : Nat) (id : IdentityId)
    (hS : identityIdBytes owner r.chainId (cr.blake3 data) ∈ S)
    (hd : r.declareIdentity cr owner data name block = .ok (r', id)) : Indexed cr S r' := by
  obtain ⟨hfree, hid, rfl⟩ := declareIdentity_ok cr r r' owner data name block id hd
  have hnone : r.identities.find? id = none := by
    rw [hid]
    exact h.fresh cr S hinj r (.new cr owner r.chainId data name block) hfree hS
  have hgiven : ∀ j, given { r with
      identities := r.identities.insert id (.new cr owner r.chainId data name block)
      ownerToIdentity := r.ownerToIdentity.insert owner id
      attestations := r.attestations.insert id [] } j = r.given j := by
    intro j
    by_cases hj : j = id
    · subst hj
      rw [h.held j hnone]
      show (((r.attestations.insert j []).find? j).getD []).map _ = []
      rw [SortedMap.find?_insert_self]
      rfl
    · show (((r.attestations.insert id []).find? j).getD []).map _ = _
      rw [SortedMap.find?_insert_ne _ _ _ _ hj]
      rfl
  refine ⟨?_, ?_, ?_, ?_, ?_, ?_, ?_⟩
  · intro o j
    by_cases ho : o = owner
    · subst ho
      rw [SortedMap.find?_insert_self]
      constructor
      · rintro ⟨⟩
        exact ⟨_, SortedMap.find?_insert_self _ _ _, rfl⟩
      · rintro ⟨i, hi, hio⟩
        by_cases hj : j = id
        · rw [hj]
        · rw [SortedMap.find?_insert_ne _ _ _ _ hj] at hi
          have := (h.owned o j).2 ⟨i, hi, hio⟩
          rw [hfree] at this
          cases this
    · rw [SortedMap.find?_insert_ne _ _ _ _ ho, h.owned]
      constructor
      · rintro ⟨i, hi, hio⟩
        refine ⟨i, ?_, hio⟩
        rw [SortedMap.find?_insert_ne _ _ _ _ (by rintro rfl; rw [hnone] at hi; cases hi)]
        exact hi
      · rintro ⟨i, hi, hio⟩
        by_cases hj : j = id
        · subst hj
          rw [SortedMap.find?_insert_self] at hi
          cases hi
          exact absurd hio.symm ho
        · rw [SortedMap.find?_insert_ne _ _ _ _ hj] at hi
          exact ⟨i, hi, hio⟩
  · intro j i hi
    by_cases hj : j = id
    · subst hj
      rw [SortedMap.find?_insert_self] at hi
      cases hi
      exact ⟨hid, hS⟩
    · rw [SortedMap.find?_insert_ne _ _ _ _ hj] at hi
      exact h.derived j i hi
  · intro j hj
    rw [hgiven]
    apply h.held
    by_cases hji : j = id
    · rw [hji, hnone]
    · rwa [SortedMap.find?_insert_ne _ _ _ _ hji] at hj
  · intro j
    rw [hgiven]
    exact h.target j
  · intro j g hg
    rw [hgiven] at hg
    obtain ⟨ha, hne⟩ := h.attester j g hg
    refine ⟨?_, hne⟩
    rw [SortedMap.find?_insert_ne _ _ _ _ (by rintro rfl; rw [hfree] at ha; cases ha)]
    exact ha
  · intro a j
    rw [hgiven]
    exact h.pairs a j
  · intro j
    rw [hgiven]
    exact h.once j

theorem Indexed.attested (r r' : IdentityRegistry) (h : Indexed cr S r) (attester : AccountId)
    (attesterId target : IdentityId) (j : IdentityCommitment)
    (howner : r.ownerToIdentity.find? attester = some attesterId) (htarget : r.identities.find? target = some j)
    (hself : attesterId ≠ target) (hfresh : (attester, target) ∉ r.attestationPairs)
    (owners : r'.ownerToIdentity = r.ownerToIdentity) (ids : SameIds r.identities r'.identities)
    (pairs : r'.attestationPairs = insert (attester, target) r.attestationPairs)
    (hgiven : ∀ id, r'.given id =
      if id = target then r.given target ++ [(attester, attesterId, target)] else r.given id) :
    Indexed cr S r' := by
  -- what is given to an identity, old or new
  have hmem : ∀ id g, g ∈ r'.given id → g ∈ r.given id ∨ (id = target ∧ g = (attester, attesterId, target)) := by
    intro id g hg
    rw [hgiven] at hg
    by_cases hid : id = target
    · rw [if_pos hid, List.mem_append, List.mem_singleton] at hg
      rw [hid]
      rcases hg with hg | hg
      · exact Or.inl hg
      · exact Or.inr ⟨rfl, hg⟩
    · rw [if_neg hid] at hg
      exact Or.inl hg
  refine ⟨?_, SameIds.derived cr S _ _ ids h.derived, ?_, ?_, ?_, ?_, ?_⟩
  · intro o id
    rw [owners, h.owned, ids.owned_iff]
  · intro id hn
    have hold := SameIds.find_none _ _ ids id hn
    rw [hgiven, if_neg (by rintro rfl; rw [htarget] at hold; cases hold), h.held id hold]
  · intro id g hg
    rcases hmem id g hg with hg | ⟨rfl, rfl⟩
    · exact h.target id g hg
    · rfl
  · intro id g hg
    rw [owners]
    rcases hmem id g hg with hg | ⟨rfl, rfl⟩
    · exact h.attester id g hg
    · exact ⟨howner, hself⟩
  · intro a id
    rw [pairs, Finset.mem_insert, Prod.mk.injEq, h.pairs, hgiven]
    by_cases hid : id = target
    · subst hid
      rw [if_pos rfl, List.map_append, List.mem_append, List.map_singleton, List.mem_singleton]
      simp only [and_true]
      exact or_comm
    · rw [if_neg hid]
      simp [hid]
  · intro id
    rw [hgiven]
    by_cases hid : id = target
    · rw [if_pos hid, List.map_append, List.nodup_append]
      refine ⟨h.once target, by simp, ?_⟩
      intro a ha b hb
      simp only [List.map_cons, List.map_nil, List.mem_singleton] at hb
      rw [hb]
      rintro rfl
      exact hfresh ((h.pairs _ _).2 ha)
    · rw [if_neg hid]
      exact h.once id

end Indexed

/-! ## The counter -/

def activeWeight (i : IdentityCommitment) : Nat := if i.status = .active then 1 else 0

/-- The number of identities with status active. -/
def numActive (r : IdentityRegistry) : Nat := SortedMap.sumOf (fun _ i => activeWeight i) r.identities

def Counted (r : IdentityRegistry) : Prop := r.activeCount = r.numActive

theorem activeWeight_of_ne (i : IdentityCommitment) (h : i.status ≠ .active) : activeWeight i = 0 := if_neg h

theorem activeWeight_of_eq (i : IdentityCommitment) (h : i.status = .active) : activeWeight i = 1 := if_pos h

theorem activeWeight_congr (i i' : IdentityCommitment) (h : i'.status = i.status) :
    activeWeight i' = activeWeight i := by
  unfold activeWeight
  rw [h]

theorem numActive_setIdentity (r : IdentityRegistry) (id : IdentityId) (i i' : IdentityCommitment)
    (h : r.identities.find? id = some i) :
    (r.setIdentity id i').numActive + activeWeight i = r.numActive + activeWeight i' := by
  have := SortedMap.sumOf_insert (fun _ i => activeWeight i) r.identities id i'
  rw [h] at this
  exact this

/-- A record with the status of the old one changes nothing. -/
theorem numActive_setIdentity_same (r : IdentityRegistry) (id : IdentityId) (i i' : IdentityCommitment)
    (h : r.identities.find? id = some i) (hs : i'.status = i.status) : (r.setIdentity id i').numActive = r.numActive := by
  have := r.numActive_setIdentity id i i' h
  rw [activeWeight_congr i i' hs] at this
  omega

theorem counted_declared (cr : Crypto) (r r' : IdentityRegistry) (owner : AccountId) (data : List UInt8)
    (name : Option String) (block : Nat) (id : IdentityId) (hnone : r.identities.find? id = none)
    (h : r.declareIdentity cr owner data name block = .ok (r', id)) (hc : Counted r) : Counted r' := by
  obtain ⟨-, -, rfl⟩ := declareIdentity_ok cr r r' owner data name block id h
  have := SortedMap.sumOf_insert (fun _ i => activeWeight i) r.identities id
    (.new cr owner r.chainId data name block)
  have hnew : activeWeight (.new cr owner r.chainId data name block) = 0 := rfl
  rw [hnone, Option.elim_none, hnew] at this
  exact hc.trans this.symm

theorem Activation.counted (r r' : IdentityRegistry) (id : IdentityId) (block : Nat) (i : IdentityCommitment)
    (hi : r.identities.find? id = some i) (h : Activation r id block i r') (hc : Counted r) : Counted r' := by
  unfold Counted at hc ⊢
  cases h with
  | attested hstatus hcount =>
    have := r.numActive_setIdentity id i { i with status := .attested } hi
    have hnew : activeWeight { i with status := .attested } = 0 := rfl
    rw [activeWeight_of_ne i (by rw [hstatus]; nofun), hnew] at this
    exact hc.trans this.symm
  | activated hstatus hnot hcount =>
    have := r.numActive_setIdentity id i { i with status := .active } hi
    rw [activeWeight_of_ne i (by rcases hstatus with hs | hs <;> rw [hs] <;> nofun), activeWeight_of_eq _ rfl] at this
    show r.activeCount + 1 = (r.setIdentity id { i with status := .active }).numActive
    omega
  | unchanged => exact hc

theorem counted_submitAttestation (cr : Crypto) (r : IdentityRegistry) (attester : AccountId) (target : IdentityId)
    (claim : List UInt8) (block : Nat) (hc : Counted r) :
    Counted (r.submitAttestation cr attester target claim block).1 := by
  rcases submitAttestation_cases cr r attester target claim block with ⟨h, -⟩ | ⟨attesterId, i, j, r', hok, hj, hact, h⟩
  · rw [h]
    exact hc
  · rw [h]
    obtain ⟨-, hi, -, hself, -, -⟩ := r.attestationChecked_ok attester target block attesterId i hok
    refine hact.counted _ _ _ _ _ ?_ ?_
    · rw [find?_addAttestation_target cr r attester attesterId target i claim block hself, hj]
    · refine hc.trans (r.numActive_setIdentity_same attesterId i _ hi ?_).symm
      rfl

/-- The renewal makes an expired identity active. -/
def Reactivates (r : IdentityRegistry) (owner : AccountId) (block : Nat) : Bool :=
  match r.identityOf owner with
  | .error _ => false
  | .ok (id, i) => i.status = .expired && r.config.minAttestations ≤ r.countValidAttestations id block

/-- It is not counted. -/
theorem counted_renewIdentity_iff (r : IdentityRegistry) (owner : AccountId) (block : Nat) (hc : Counted r) :
    Counted (((r.renewIdentity owner block).map Prod.fst).orKeep r) ↔ Reactivates r owner block = false := by
  unfold renewIdentity Reactivates
  cases hid : r.identityOf owner with
  | error e => exact iff_of_true hc rfl
  | ok x =>
    obtain ⟨id, i⟩ := x
    have hi := (r.identityOf_ok owner id i hid).2
    have hreact : (decide (i.status = .expired) &&
        decide (r.config.minAttestations ≤ r.countValidAttestations id block)) = false ↔
        ¬ (i.status = .expired ∧ r.config.minAttestations ≤ r.countValidAttestations id block) := by
      simp
    simp only [hreact]
    -- the new record counts exactly if the status is active
    have key : ∀ i', i'.status = r.renewedStatus id i block →
        (Counted (r.setIdentity id i') ↔
          ¬ (i.status = .expired ∧ r.config.minAttestations ≤ r.countValidAttestations id block)) := by
      intro i' hnew
      have hnum := r.numActive_setIdentity id i i' hi
      have hkept : Counted (r.setIdentity id i') ↔ activeWeight i' = activeWeight i := by
        unfold Counted at hc ⊢
        show r.activeCount = _ ↔ _
        omega
      rw [hkept]
      unfold renewedStatus at hnew
      by_cases hexp : i.status = .expired
      · rw [if_pos hexp] at hnew
        rw [activeWeight_of_ne i (by rw [hexp]; nofun)]
        by_cases hcount : r.config.minAttestations ≤ r.countValidAttestations id block
        · rw [if_pos hcount] at hnew
          rw [activeWeight_of_eq i' hnew]
          simp [hexp, hcount]
        · rw [if_neg hcount] at hnew
          have hne : i'.status ≠ .active := by
            rw [hnew]
            split <;> nofun
          rw [activeWeight_of_ne i' hne]
          simp [hcount]
      · rw [if_neg hexp] at hnew
        rw [activeWeight_congr i i' hnew]
        simp [hexp]
    split
    · next hrev =>
      refine ⟨fun _ => ?_, fun _ => hc⟩
      rw [hrev]
      rintro ⟨⟨⟩, -⟩
    · next hrev =>
      refine key _ ?_
      rfl

theorem counted_revoke (r : IdentityRegistry) (id : IdentityId) (i : IdentityCommitment)
    (hi : r.identities.find? id = some i) (hc : Counted r) : Counted (r.revoke id i) := by
  have hnum := r.numActive_setIdentity id i { i with status := .revoked } hi
  rw [activeWeight_of_ne { i with status := .revoked } nofun] at hnum
  unfold Counted at hc
  show (if i.status = .active then r.activeCount - 1 else r.activeCount) =
    (r.setIdentity id { i with status := .revoked }).numActive
  unfold activeWeight at hnum
  split
  · next h =>
    rw [if_pos h] at hnum
    omega
  · next h =>
    rw [if_neg h] at hnum
    omega

theorem numActive_sweep (r : IdentityRegistry) (block : Nat) :
    (r.processExpirations block).1.numActive + r.sweptOut block = r.numActive := by
  show SortedMap.sumOf _ (r.identities.map (r.sweep block)) + SortedMap.sumOf _ r.identities = _
  rw [SortedMap.sumOf_map, ← SortedMap.sumOf_add]
  apply SortedMap.sumOf_congr
  intro id i _
  have hkeep : (r.sweep block id i).status = .active → i.status = .active := by
    intro h
    simp only [sweep, sweptStatus] at h
    split at h
    · cases h
    · split at h
      · cases h
      · exact h
  unfold activeWeight
  by_cases hi : i.status = .active
  · by_cases hs : (r.sweep block id i).status = .active <;> simp [hi, hs]
  · have hs : (r.sweep block id i).status ≠ .active := fun h => hi (hkeep h)
    simp [hi, hs]

theorem counted_withIdentity (r r' : IdentityRegistry) (owner : AccountId) (f : IdentityCommitment → IdentityCommitment)
    (h : r.withIdentity owner f = .ok r') (hs : ∀ i, (f i).status = i.status) (hc : Counted r) : Counted r' := by
  unfold withIdentity at h
  split at h
  · cases h
  · next id i hid =>
    cases h
    exact hc.trans (r.numActive_setIdentity_same id i _ (r.identityOf_ok owner id i hid).2 (hs i)).symm

theorem counted_applyReputationDecay (r : IdentityRegistry) (block : Nat) (hc : Counted r) :
    Counted (r.applyReputationDecay block) := by
  unfold applyReputationDecay
  split
  · exact hc
  · refine hc.trans ?_
    unfold numActive
    rw [SortedMap.sumOf_map]
    apply SortedMap.sumOf_congr
    intro id i _
    apply (activeWeight_congr _ _ ?_).symm
    split
    · unfold IdentityCommitment.applyDecay
      simp only
      split <;> rfl
    · rfl

/-- The call is not a renewal that makes an expired identity active. -/
def CountsRenewal (r : IdentityRegistry) (op : IdentityOp) : Prop :=
  (match op with
    | .renewIdentity owner block => Reactivates r owner block
    | _ => false) = false

instance (r : IdentityRegistry) (op : IdentityOp) : Decidable (CountsRenewal r op) :=
  inferInstanceAs (Decidable (_ = _))

/-- The strings hashed for the ids of a run. -/
def declaredBytes (cr : Crypto) (chain : ChainId) : IdentityOp → Option (List UInt8)
  | .declareIdentity owner data _ _ => some (identityIdBytes owner chain (cr.blake3 data))
  | _ => none

section Runs

variable (cr : Crypto) (chain : ChainId) (S : List (List UInt8))
  (hinj : ∀ x ∈ S, ∀ y ∈ S, cr.blake3 x = cr.blake3 y → x = y)

/-- The id of a declaration is the hash of a string in `S`. -/
def Declares (_r : IdentityRegistry) (op : IdentityOp) : Prop := ∀ x, declaredBytes cr chain op = some x → x ∈ S

/-- The invariant of every run. -/
def Inv (r : IdentityRegistry) : Prop := Indexed cr S r ∧ r.chainId = chain

include hinj

theorem inv_declared (r r' : IdentityRegistry) (owner : AccountId) (data : List UInt8) (name : Option String)
    (block : Nat) (id : IdentityId) (h : Inv cr chain S r)
    (hS : Declares cr chain S r (.declareIdentity owner data name block))
    (hd : r.declareIdentity cr owner data name block = .ok (r', id)) :
    Inv cr chain S r' ∧ r.identities.find? id = none := by
  have hmem : identityIdBytes owner r.chainId (cr.blake3 data) ∈ S := by
    rw [h.2]
    exact hS _ rfl
  obtain ⟨hfree, rfl, hr'⟩ := declareIdentity_ok cr r r' owner data name block id hd
  refine ⟨⟨h.1.declared cr S hinj r r' owner data name block _ hmem hd, ?_⟩, ?_⟩
  · rw [hr']
    exact h.2
  · exact h.1.fresh cr S hinj r (.new cr owner r.chainId data name block) hfree hmem

theorem apply_inv (r : IdentityRegistry) (op : IdentityOp) (h : Inv cr chain S r)
    (hS : Declares cr chain S r op) : Inv cr chain S (r.apply cr op) := by
  have hstep := apply_step cr r op
  generalize r.apply cr op = r' at hstep
  cases hstep with
  | quiet _ _ hq => exact ⟨h.1.quiet cr S r r' hq, hq.chain.trans h.2⟩
  | declared owner data name block id _ hd =>
    exact (inv_declared cr chain S hinj r r' owner data name block id h hS hd).1
  | attested attester target claim block attesterId j _ howner htarget hself hfresh hchain howners hids hpairs
      hgiven =>
    exact ⟨h.1.attested cr S r r' attester attesterId target j howner htarget hself hfresh howners hids hpairs
      hgiven, hchain.trans h.2⟩

/-- The counter after a call. -/
theorem counted_apply_iff (r : IdentityRegistry) (op : IdentityOp) (h : Inv cr chain S r)
    (hS : Declares cr chain S r op) (hc : Counted r) : Counted (r.apply cr op) ↔ CountsRenewal r op := by
  cases op with
  | declareIdentity owner data name block =>
    refine iff_of_true (Except.orKeep_map_of Counted _ r hc ?_) rfl
    intro r' id hd
    exact counted_declared cr r r' owner data name block id
      (inv_declared cr chain S hinj r r' owner data name block id h hS hd).2 hd hc
  | submitAttestation attester target claim block =>
    exact iff_of_true (counted_submitAttestation cr r attester target claim block hc) rfl
  | renewIdentity owner block => exact counted_renewIdentity_iff r owner block hc
  | revokeOwnIdentity owner =>
    refine iff_of_true (Except.orKeep_map_of Counted _ r hc ?_) rfl
    intro r' d hd
    unfold revokeOwnIdentity at hd
    split at hd
    · cases hd
    · next id i hid =>
      split at hd
      · cases hd
      · cases hd
        exact counted_revoke r id i (r.identityOf_ok owner id i hid).2 hc
  | forceRevokeIdentity id reason =>
    refine iff_of_true (Except.orKeep_of Counted _ r hc ?_) rfl
    intro r' hd
    obtain ⟨i, hi, rfl⟩ := forceRevokeIdentity_ok r r' id reason hd
    exact counted_revoke r id i hi hc
  | processExpirations block =>
    refine iff_of_true ?_ rfl
    have := numActive_sweep r block
    unfold Counted at hc
    show r.activeCount - r.sweptOut block = (r.processExpirations block).1.numActive
    omega
  | recordGovernanceParticipation owner block =>
    exact iff_of_true (Except.orKeep_of Counted _ r hc fun r' hd =>
      counted_withIdentity r r' owner _ hd (fun _ => rfl) hc) rfl
  | recordArbitrationParticipation owner block =>
    exact iff_of_true (Except.orKeep_of Counted _ r hc fun r' hd =>
      counted_withIdentity r r' owner _ hd (fun _ => rfl) hc) rfl
  | slashReputation owner percent =>
    exact iff_of_true (Except.orKeep_of Counted _ r hc fun r' hd =>
      counted_withIdentity r r' owner _ hd (fun _ => rfl) hc) rfl
  | applyReputationDecay block => exact iff_of_true (counted_applyReputationDecay r block hc) rfl
  | updateConfig config => exact iff_of_true hc rfl

end Runs

/-! ## Exact indexes -/

/-- All attestations that are stored. -/
def stored (r : IdentityRegistry) : List IdentityAttestation := r.attestations.values.flatten

/-- Attester and target. -/
def pairOf (a : IdentityAttestation) : AccountId × IdentityId := (a.attester, a.targetIdentity)

/-- The counter, the owner index and the attestation pairs say what the records say. -/
structure Exact (r : IdentityRegistry) : Prop where
  counted : r.activeCount = r.numActive
  owned : ∀ owner id, r.ownerToIdentity.find? owner = some id ↔
    ∃ i, r.identities.find? id = some i ∧ i.owner = owner
  pairs : ∀ p, p ∈ r.attestationPairs ↔ p ∈ r.stored.map pairOf
  once : (r.stored.map pairOf).Nodup
  noSelf : ∀ a ∈ r.stored, r.ownerToIdentity.find? a.attester = some a.attesterIdentity ∧
    a.attesterIdentity ≠ a.targetIdentity

theorem mem_stored (r : IdentityRegistry) (a : IdentityAttestation) :
    a ∈ r.stored ↔ ∃ id, a ∈ r.attestationsOf id := by
  unfold stored attestationsOf
  simp only [List.mem_flatten, SortedMap.mem_values_iff]
  constructor
  · rintro ⟨l, ⟨id, hid⟩, ha⟩
    exact ⟨id, by rw [hid]; exact ha⟩
  · rintro ⟨id, ha⟩
    cases hid : r.attestations.find? id with
    | none =>
      rw [hid] at ha
      cases ha
    | some l =>
      rw [hid] at ha
      exact ⟨l, ⟨id, hid⟩, ha⟩

theorem mem_given (r : IdentityRegistry) (id : IdentityId) (a : IdentityAttestation)
    (h : a ∈ r.attestationsOf id) : (a.attester, a.attesterIdentity, a.targetIdentity) ∈ r.given id :=
  List.mem_map_of_mem h

theorem Indexed.exact (cr : Crypto) (S : List (List UInt8)) (r : IdentityRegistry) (h : Indexed cr S r)
    (hc : Counted r) : Exact r := by
  have htarget : ∀ id, ∀ a ∈ r.attestationsOf id, a.targetIdentity = id :=
    fun id a ha => h.target id _ (r.mem_given id a ha)
  refine ⟨hc, h.owned, ?_, ?_, ?_⟩
  · rintro ⟨o, id⟩
    rw [h.pairs, List.mem_map, List.mem_map]
    constructor
    · rintro ⟨g, hg, rfl⟩
      obtain ⟨a, ha, rfl⟩ := List.mem_map.1 hg
      exact ⟨a, (r.mem_stored a).2 ⟨id, ha⟩, Prod.ext rfl (htarget id a ha)⟩
    · rintro ⟨a, ha, hp⟩
      obtain ⟨id', ha'⟩ := (r.mem_stored a).1 ha
      obtain ⟨rfl, rfl⟩ := Prod.mk.inj hp
      rw [htarget id' a ha']
      exact ⟨_, r.mem_given id' a ha', rfl⟩
  · -- no pair twice under one identity, and those of two identities differ in the target
    unfold stored
    rw [List.map_flatten, List.nodup_flatten]
    constructor
    · intro l hl
      obtain ⟨l', hl', rfl⟩ := List.mem_map.1 hl
      obtain ⟨id, hid⟩ := (r.attestations.mem_values_iff l').1 hl'
      have hof : r.attestationsOf id = l' := by rw [attestationsOf, hid]; rfl
      have hnodup := h.once id
      unfold given at hnodup
      rw [hof, List.map_map] at hnodup
      refine List.Nodup.of_map Prod.fst ?_
      rw [List.map_map]
      exact hnodup
    · unfold SortedMap.values
      rw [List.map_map, List.pairwise_map]
      refine r.attestations.sorted.imp_of_mem ?_
      intro e e' he he' hlt p hp hp'
      have hof : ∀ e ∈ r.attestations.entries, ∀ p ∈ e.2.map pairOf, p.2 = e.1 := by
        rintro ⟨id, l⟩ he p hp
        obtain ⟨a, ha, rfl⟩ := List.mem_map.1 hp
        have hid := (r.attestations.mem_entries_iff id l).1 he
        exact htarget id a (by rw [attestationsOf, hid]; exact ha)
      exact absurd ((hof e he p hp).symm.trans (hof e' he' p hp')) (ne_of_lt hlt)
  · intro a ha
    obtain ⟨id, ha'⟩ := (r.mem_stored a).1 ha
    have := h.attester id _ (r.mem_given id a ha')
    rw [htarget id a ha']
    exact this

/-- A record that is revoked, and stays so. -/
def RevokedAt (r : IdentityRegistry) (id : IdentityId) : Prop :=
  ∃ i, r.identities.find? id = some i ∧ i.status = .revoked

theorem revokedAt_apply (cr : Crypto) (chain : ChainId) (S : List (List UInt8))
    (hinj : ∀ x ∈ S, ∀ y ∈ S, cr.blake3 x = cr.blake3 y → x = y) (r : IdentityRegistry) (op : IdentityOp)
    (h : Inv cr chain S r) (hS : Declares cr chain S r op) (id : IdentityId) (hr : RevokedAt r id) :
    RevokedAt (r.apply cr op) id := by
  obtain ⟨i, hi, hrev⟩ := hr
  have hsame : ∀ r', SameIds r.identities r'.identities → RevokedAt r' id := by
    intro r' hids
    obtain ⟨i', hi', he⟩ := SameIds.find_after _ _ hids id i hi
    exact ⟨i', hi', he.revoked hrev⟩
  have hstep := apply_step cr r op
  generalize r.apply cr op = r' at hstep
  cases hstep with
  | quiet _ _ hq => exact hsame r' hq.ids
  | declared owner data name block new _ hd =>
    -- the new identity is another one
    have hnone := (inv_declared cr chain S hinj r r' owner data name block new h hS hd).2
    obtain ⟨-, -, rfl⟩ := declareIdentity_ok cr r r' owner data name block new hd
    refine ⟨i, ?_, hrev⟩
    rw [SortedMap.find?_insert_ne _ _ _ _ (by rintro rfl; rw [hnone] at hi; cases hi)]
    exact hi
  | attested attester target claim block attesterId j _ howner htarget hself hfresh hchain howners hids hpairs
      hgiven => exact hsame r' hids

theorem inv_withConfig (cr : Crypto) (chain : ChainId) (config : AntiSybilConfig) (S : List (List UInt8)) :
    Inv cr chain S (withConfig chain config) := by
  refine ⟨⟨?_, nofun, fun _ _ => rfl, nofun, nofun, ?_, fun _ => List.nodup_nil⟩, rfl⟩
  · intro owner id
    exact iff_of_false nofun (by rintro ⟨i, ⟨⟩, -⟩)
  · intro a id
    exact iff_of_false (Finset.notMem_empty _) (by rintro ⟨⟩)

theorem meets_declares (cr : Crypto) (chain : ChainId) (ops : List IdentityOp) (r : IdentityRegistry) :
    Run.Meets (apply cr) (Declares cr chain (ops.filterMap (declaredBytes cr chain))) r ops := by
  rw [Run.meets_iff_split]
  rintro pre op post rfl x hx
  simp [List.filterMap_append, hx]

/-- Without colliding ids: in every state of a run the counter and the indexes are exact,
and what is revoked stays revoked, if and only if no renewal makes an expired identity
active. -/
theorem index_exact_iff (cr : Crypto) (chain : ChainId) (config : AntiSybilConfig) (ops : List IdentityOp)
    (hsep : ∀ x ∈ ops.filterMap (declaredBytes cr chain), ∀ y ∈ ops.filterMap (declaredBytes cr chain),
      cr.blake3 x = cr.blake3 y → x = y) :
    ((∀ k, Exact ((ops.take k).foldl (apply cr) (withConfig chain config))) ∧
      ∀ i j, i ≤ j → ∀ id, RevokedAt ((ops.take i).foldl (apply cr) (withConfig chain config)) id →
        RevokedAt ((ops.take j).foldl (apply cr) (withConfig chain config)) id) ↔
    Run.Meets (apply cr) CountsRenewal (withConfig chain config) ops := by
  have hstart := inv_withConfig cr chain config (ops.filterMap (declaredBytes cr chain))
  have hmeets := meets_declares cr chain ops (withConfig chain config)
  have hinv := apply_inv cr chain _ hsep
  have hrevoked : ∀ i j, i ≤ j → ∀ id, RevokedAt ((ops.take i).foldl (apply cr) (withConfig chain config)) id →
      RevokedAt ((ops.take j).foldl (apply cr) (withConfig chain config)) id := by
    intro i j hij
    exact Run.rel_take (apply cr) _ (Inv cr chain _) (fun r r' => ∀ id, RevokedAt r id → RevokedAt r' id)
      (fun _ _ h => h) (fun _ _ _ h h' id hr => h' id (h id hr)) hinv
      (fun r op h hS id hr => revokedAt_apply cr chain _ hsep r op h hS id hr) _ ops hstart hmeets i j hij
  have hexact : (∀ k, Exact ((ops.take k).foldl (apply cr) (withConfig chain config))) ↔
      ∀ k, Counted ((ops.take k).foldl (apply cr) (withConfig chain config)) := by
    refine forall_congr' fun k => ⟨fun h => h.counted, fun h => ?_⟩
    have hk := Run.inv_foldl (apply cr) _ _ hinv _ _ hstart (Run.meets_take _ _ _ _ hmeets k)
    exact hk.1.exact cr _ _ h
  rw [and_iff_left hrevoked, hexact]
  exact Run.good_take_iff (apply cr) _ CountsRenewal (Inv cr chain _) Counted hinv
    (counted_apply_iff cr chain _ hsep) _ ops hstart rfl hmeets

/-- Attestations are not asked for. -/
def openConfig : AntiSybilConfig := { AntiSybilConfig.default with minAttestations := 0 }

/-- The first identity of an owner in the sample runs. -/
def sampleId (owner : AccountId) : IdentityId :=
  IdentityCommitment.computeIdentityId Crypto.sample owner ⟨0⟩ (Crypto.sample.blake3 [7])

/-- Two identities become active while no attestation is asked for; then three are, and the
first identity attests the second. -/
def attestedOps : List IdentityOp :=
  [.updateConfig openConfig, .declareIdentity ⟨1⟩ [7] none 0, .declareIdentity ⟨2⟩ [7] none 0,
    .processExpirations 2592001, .renewIdentity ⟨1⟩ 2592001, .renewIdentity ⟨2⟩ 2592001, .updateConfig .default,
    .submitAttestation ⟨1⟩ (sampleId ⟨2⟩) [] 2592001]

/-- Under the usual settings one identity is renewed in time, a second lapses, is renewed, is
refused as an attester and is revoked, and a third is revoked by force. -/
def sampleOps : List IdentityOp :=
  [.declareIdentity ⟨1⟩ [7] none 0, .declareIdentity ⟨2⟩ [7] none 0, .renewIdentity ⟨1⟩ 2000000,
    .processExpirations 2592001, .renewIdentity ⟨2⟩ 2592001, .declareIdentity ⟨3⟩ [7] (some "c") 2592001,
    .submitAttestation ⟨2⟩ (sampleId ⟨3⟩) [] 2592002, .recordGovernanceParticipation ⟨1⟩ 2592002,
    .slashReputation ⟨1⟩ 50, .revokeOwnIdentity ⟨2⟩, .forceRevokeIdentity (sampleId ⟨3⟩) .misconduct]

/-- The sample run keeps the indexes exact; the run in which an attestation is given does
not, since its two renewals make identities active that are not counted. -/
theorem index_exact_sample :
    (∀ k, Exact ((sampleOps.take k).foldl (apply Crypto.sample) (withConfig ⟨0⟩ .default))) ∧
      RevokedAt (sampleOps.foldl (apply Crypto.sample) (withConfig ⟨0⟩ .default)) (sampleId ⟨2⟩) ∧
      ¬ ((∀ k, Exact ((attestedOps.take k).foldl (apply Crypto.sample) (withConfig ⟨0⟩ .default))) ∧
        ∀ i j, i ≤ j → ∀ id, RevokedAt ((attestedOps.take i).foldl (apply Crypto.sample) (withConfig ⟨0⟩ .default)) id →
          RevokedAt ((attestedOps.take j).foldl (apply Crypto.sample) (withConfig ⟨0⟩ .default)) id) := by
  have h := (index_exact_iff Crypto.sample ⟨0⟩ .default sampleOps (by decide +kernel)).2 (by decide +kernel)
  refine ⟨h.1, ?_, ?_⟩
  · have hstatus : (((sampleOps.take 10).foldl (apply Crypto.sample) (withConfig ⟨0⟩ .default)).identities.find?
        (sampleId ⟨2⟩)).map IdentityCommitment.status = some .revoked := by
      decide +kernel
    exact h.2 10 11 (by decide) _ (Option.map_eq_some_iff.1 hstatus)
  · rw [index_exact_iff Crypto.sample ⟨0⟩ .default attestedOps (by decide +kernel)]
    decide +kernel

/-- An identity that expires and is renewed is active and not counted. -/
def lapsedOps : List IdentityOp :=
  [.updateConfig openConfig, .declareIdentity ⟨1⟩ [7] none 0, .processExpirations 2592001,
    .renewIdentity ⟨1⟩ 2592001]

theorem renewal_not_counted :
    (lapsedOps.foldl (apply Crypto.sample) (new ⟨0⟩)).activeCount = 0 ∧
      (lapsedOps.foldl (apply Crypto.sample) (new ⟨0⟩)).numActive = 1 := by
  decide +kernel

end IdentityRegistry

end Kratos
