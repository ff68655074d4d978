import Kratos.Contracts.IdentityIndex

/-!
# What an active identity has been attested for

Under settings that always ask for an attestation the rules of `ActivationRules` hold in
every run, because no identity is ever active: the first attester has to come from settings
without a minimum (`dormant_foldl`).

For all settings `attestation_rules` collects what is left of them: an attestation that
meets the minimum makes an attested target active, the sweep leaves no active identity that
is expired or has lost all its attestations, and a forced revocation ends all attestations
of the identity for good.
-/

namespace Kratos

namespace IdentityRegistry

/-! ## Attesting -/

/-- A target that is attested or active counts as active with enough valid attestations. -/
theorem Activation.active (r r' : IdentityRegistry) (id : IdentityId) (block : Nat) (i : IdentityCommitment)
    (hi : r.identities.find? id = some i) (h : Activation r id block i r')
    (hstatus : i.status = .attested ∨ i.status = .active)
    (hcount : r.config.minAttestations ≤ r.countValidAttestations id block) :
    ∃ i', r'.identities.find? id = some i' ∧ i'.status = .active := by
  cases h with
  | attested hd =>
    rw [hd] at hstatus
    rcases hstatus with hs | hs <;> cases hs
  | activated => exact ⟨_, r.identities.find?_insert_self id _, rfl⟩
  | unchanged hnot hstay =>
    rcases hstatus with hs | hs
    · exact absurd ⟨Or.inr hs, hcount⟩ hstay
    · exact ⟨i, hi, hs⟩

/-- Looking at the target again leaves its attestations and the settings alone. -/
theorem Activation.frame (r r' : IdentityRegistry) (id : IdentityId) (block : Nat) (i : IdentityCommitment)
    (h : Activation r id block i r') : r'.attestations = r.attestations ∧ r'.config = r.config := by
  cases h <;> exact ⟨rfl, rfl⟩

theorem submitAttestation_active (cr : Crypto) (r : IdentityRegistry) (attester : AccountId) (target : IdentityId)
    (claim : List UInt8) (block : Nat) (j : IdentityCommitment)
    (hok : (r.submitAttestation cr attester target claim block).2 = .ok ())
    (hj : r.identities.find? target = some j) (hstatus : j.status = .attested ∨ j.status = .active)
    (hcount : r.config.minAttestations ≤
      (r.submitAttestation cr attester target claim block).1.countValidAttestations target block) :
    ∃ i, (r.submitAttestation cr attester target claim block).1.identities.find? target = some i ∧
      i.status = .active := by
  rcases submitAttestation_cases cr r attester target claim block with ⟨-, hne⟩ |
    ⟨attesterId, i, j', r', hc, hj', hact, h⟩
  · exact absurd hok hne
  · rw [h] at hcount ⊢
    obtain ⟨-, -, -, hself, -, -⟩ := r.attestationChecked_ok attester target block attesterId i hc
    obtain rfl := Option.some.inj (hj'.symm.trans hj)
    have hframe := hact.frame
    refine hact.active _ _ _ _ _ ?_ hstatus ?_
    · rw [find?_addAttestation_target cr r attester attesterId target i claim block hself, hj]
    · unfold countValidAttestations attestationsOf at hcount ⊢
      rw [hframe.1] at hcount
      exact hcount

/-! ## The sweep -/

/-- After the sweep an active identity has not expired and has a valid attestation. -/
theorem processExpirations_active (r : IdentityRegistry) (block : Nat) (id : IdentityId) (i : IdentityCommitment)
    (hi : (r.processExpirations block).1.identities.find? id = some i) (hactive : i.status = .active) :
    i.isExpired block = false ∧ 1 ≤ (r.processExpirations block).1.countValidAttestations id block := by
  have hfind : (r.identities.map (r.sweep block)).find? id = some i := hi
  rw [SortedMap.find?_map, Option.map_eq_some_iff] at hfind
  obtain ⟨j, hj, rfl⟩ := hfind
  have hcount : (r.processExpirations block).1.countValidAttestations id block = r.countValidAttestations id block :=
    rfl
  rw [hcount]
  simp only [sweep, sweptStatus] at hactive
  split at hactive
  · cases hactive
  · next hexp =>
    split at hactive
    · cases hactive
    · next hvalid =>
      constructor
      · by_contra hne
        apply hexp
        rw [hactive]
        exact ⟨by simpa [sweep, IdentityCommitment.isExpired] using hne, by decide, by decide⟩
      · by_contra hzero
        exact hvalid ⟨hactive, by omega⟩

/-! ## Revocation -/

/-- The calls that touch the attestations are declarations, attestations and forced
revocations. -/
def TouchesAttestations : IdentityOp → Bool
  | .declareIdentity .. | .submitAttestation .. | .forceRevokeIdentity .. => true
  | _ => false

theorem attestations_withIdentity (r r' : IdentityRegistry) (owner : AccountId)
    (f : IdentityCommitment → IdentityCommitment) (h : r.withIdentity owner f = .ok r') :
    r'.attestations = r.attestations := by
  unfold withIdentity at h
  split at h
  · cases h
  · cases h
    rfl

theorem attestations_apply (cr : Crypto) (r : IdentityRegistry) (op : IdentityOp)
    (h : TouchesAttestations op = false) : (r.apply cr op).attestations = r.attestations := by
  have hwith : ∀ owner f, ((r.withIdentity owner f).orKeep r).attestations = r.attestations := fun owner f =>
    Except.orKeep_of (fun r' => r'.attestations = r.attestations) _ r rfl
      fun r' h => attestations_withIdentity r r' owner f h
  cases op with
  | declareIdentity | submitAttestation | forceRevokeIdentity => cases h
  | renewIdentity owner block =>
    refine Except.orKeep_map_of (fun r' => r'.attestations = r.attestations) _ r rfl ?_
    intro r' e hok
    unfold renewIdentity at hok
    split at hok
    · cases hok
    · split at hok
      · cases hok
      · cases hok
        rfl
  | revokeOwnIdentity owner =>
    refine Except.orKeep_map_of (fun r' => r'.attestations = r.attestations) _ r rfl ?_
    intro r' e hok
    unfold revokeOwnIdentity at hok
    split at hok
    · cases hok
    · split at hok
      · cases hok
      · cases hok
        rfl
  | processExpirations block => rfl
  | recordGovernanceParticipation owner block => exact hwith owner _
  | recordArbitrationParticipation owner block => exact hwith owner _
  | slashReputation owner percent => exact hwith owner _
  | applyReputationDecay block =>
    show (r.applyReputationDecay block).attestations = _
    unfold applyReputationDecay
    split <;> rfl
  | updateConfig config => rfl

theorem mem_stored_insert (r r' : IdentityRegistry) (id : IdentityId) (l : List IdentityAttestation)
    (h : r'.attestations = r.attestations.insert id l) (a : IdentityAttestation) (ha : a ∈ r'.stored) :
    a ∈ l ∨ a ∈ r.stored := by
  rw [mem_stored] at ha
  obtain ⟨j, hj⟩ := ha
  unfold attestationsOf at hj
  rw [h] at hj
  by_cases hjid : j = id
  · rw [hjid, SortedMap.find?_insert_self] at hj
    exact Or.inl hj
  · rw [SortedMap.find?_insert_ne _ _ _ _ hjid] at hj
    exact Or.inr ((r.mem_stored a).2 ⟨j, hj⟩)

theorem mem_stored_invalidate (r : IdentityRegistry) (attester : AccountId) (a : IdentityAttestation)
    (ha : a ∈ (r.invalidateAttestationsFrom attester).stored) :
    ∃ a₀ ∈ r.stored, a = if a₀.attester = attester then a₀.revoke else a₀ := by
  rw [mem_stored] at ha
  obtain ⟨id, hid⟩ := ha
  unfold attestationsOf invalidateAttestationsFrom at hid
  rw [SortedMap.find?_map] at hid
  cases hl : r.attestations.find? id with
  | none =>
    rw [hl] at hid
    cases hid
  | some l =>
    rw [hl] at hid
    obtain ⟨a₀, ha₀, rfl⟩ := List.mem_map.1 hid
    refine ⟨a₀, (r.mem_stored a₀).2 ⟨id, ?_⟩, rfl⟩
    rw [attestationsOf, hl]
    exact ha₀

/-- An attestation was stored before, and valid if it is, or comes from an active identity. -/
def Origin (r : IdentityRegistry) (a : IdentityAttestation) : Prop :=
  (∃ a₀ ∈ r.stored, a₀.attesterIdentity = a.attesterIdentity ∧ (a.isValid = true → a₀.isValid = true)) ∨
    ∃ i, r.identities.find? a.attesterIdentity = some i ∧ i.status = .active

theorem Origin.of_stored (r : IdentityRegistry) (a : IdentityAttestation) (h : a ∈ r.stored) : Origin r a :=
  Or.inl ⟨a, h, rfl, id⟩

theorem mem_stored_apply (cr : Crypto) (r : IdentityRegistry) (op : IdentityOp) (a : IdentityAttestation) :
    a ∈ (r.apply cr op).stored → Origin r a := by
  have hsame := Origin.of_stored r a
  by_cases htouch : TouchesAttestations op = false
  · intro ha
    unfold stored at ha
    rw [attestations_apply cr r op htouch] at ha
    exact hsame ha
  cases op with
  | declareIdentity owner data name block =>
    refine Except.orKeep_map_of (fun r' => a ∈ r'.stored → Origin r a) _ r hsame ?_
    intro r' id h ha
    obtain ⟨-, -, rfl⟩ := declareIdentity_ok cr r r' owner data name block id h
    rcases mem_stored_insert r _ id [] rfl a ha with h | h
    · cases h
    · exact hsame h
  | submitAttestation attester target claim block =>
    intro ha
    change a ∈ (r.submitAttestation cr attester target claim block).1.stored at ha
    rcases submitAttestation_cases cr r attester target claim block with ⟨h, -⟩ |
      ⟨attesterId, i, j, r', hc, hj, hact, h⟩
    · rw [h] at ha
      exact hsame ha
    · rw [h] at ha
      obtain ⟨-, hi, hactive, -, -, -⟩ := r.attestationChecked_ok attester target block attesterId i hc
      rcases mem_stored_insert r r' target _ (hact.frame.1) a ha with hnew | hold
      · rw [List.mem_append, List.mem_singleton] at hnew
        rcases hnew with hnew | rfl
        · exact hsame ((r.mem_stored a).2 ⟨target, hnew⟩)
        · refine Or.inr ⟨i, hi, ?_⟩
          simp only [IdentityCommitment.isActive, Bool.and_eq_true, decide_eq_true_eq] at hactive
          exact hactive.1
      · exact hsame hold
  | forceRevokeIdentity id reason =>
    refine Except.orKeep_of (fun r' => a ∈ r'.stored → Origin r a) _ r hsame ?_
    intro r' h ha
    obtain ⟨i, hi, rfl⟩ := forceRevokeIdentity_ok r r' id reason h
    obtain ⟨a₀, ha₀, rfl⟩ := mem_stored_invalidate (r.revoke id i) i.owner a ha
    refine Or.inl ⟨a₀, ha₀, ?_⟩
    split
    · exact ⟨rfl, nofun⟩
    · exact ⟨rfl, fun h => h⟩
  | _ => exact absurd rfl htouch

/-- The identity is revoked and none of its attestations is valid. -/
structure Ended (r : IdentityRegistry) (id : IdentityId) : Prop where
  revoked : RevokedAt r id
  invalid : ∀ a ∈ r.stored, a.attesterIdentity = id → a.isValid = false

section Runs

variable (cr : Crypto) (chain : ChainId) (S : List (List UInt8))
  (hinj : ∀ x ∈ S, ∀ y ∈ S, cr.blake3 x = cr.blake3 y → x = y)

include hinj

theorem ended_apply (r : IdentityRegistry) (op : IdentityOp) (h : Inv cr chain S r)
    (hS : Declares cr chain S r op) (id : IdentityId) (he : Ended r id) : Ended (r.apply cr op) id := by
  refine ⟨revokedAt_apply cr chain S hinj r op h hS id he.revoked, ?_⟩
  intro a ha hid
  rcases mem_stored_apply cr r op a ha with ⟨a₀, ha₀, hsame, hvalid⟩ | ⟨i, hi, hactive⟩
  · by_contra hne
    have := he.invalid a₀ ha₀ (hsame.trans hid)
    rw [hvalid (by simpa using hne)] at this
    cases this
  · -- a revoked identity gives no attestation
    obtain ⟨i', hi', hrev⟩ := he.revoked
    rw [hid, hi'] at hi
    cases hi
    rw [hrev] at hactive
    cases hactive

omit hinj in
/-- The owner index leads from the attester of an attestation to the identity that gave it. -/
theorem ended_forceRevokeIdentity (r r' : IdentityRegistry) (id : IdentityId) (reason : RevocationReason)
    (h : Indexed cr S r) (hok : r.forceRevokeIdentity id reason = .ok r') : Ended r' id := by
  obtain ⟨i, hi, rfl⟩ := forceRevokeIdentity_ok r r' id reason hok
  refine ⟨⟨_, r.identities.find?_insert_self id _, rfl⟩, ?_⟩
  intro a ha hid
  obtain ⟨a₀, ha₀, rfl⟩ := mem_stored_invalidate (r.revoke id i) i.owner a ha
  have hgiver : a₀.attesterIdentity = id := by
    split at hid <;> exact hid
  obtain ⟨j, hj⟩ := (r.mem_stored a₀).1 ha₀
  have hattester := (h.attester j _ (r.mem_given j a₀ hj)).1
  rw [h.owned] at hattester
  obtain ⟨i', hi', howner⟩ := hattester
  simp only [hgiver, hi] at hi'
  cases hi'
  rw [if_pos howner.symm]
  rfl

end Runs

/-! ## Settings that ask for an attestation -/

/-- No identity is active, and none has been attested. -/
structure Dormant (r : IdentityRegistry) : Prop where
  minimum : 1 ≤ r.config.minAttestations
  inactive : ∀ id i, r.identities.find? id = some i → i.status ≠ .active
  unattested : ∀ id, r.attestationsOf id = []

/-- New settings keep a minimum. -/
def KeepsMinimum (_r : IdentityRegistry) : IdentityOp → Prop
  | .updateConfig config => 1 ≤ config.minAttestations
  | _ => True

theorem Dormant.setIdentity (r : IdentityRegistry) (h : Dormant r) (id : IdentityId) (i : IdentityCommitment)
    (hi : i.status ≠ .active) : Dormant (r.setIdentity id i) := by
  refine ⟨h.minimum, ?_, h.unattested⟩
  intro j k hk
  by_cases hj : j = id
  · subst hj
    cases (r.identities.find?_insert_self j i).symm.trans hk
    exact hi
  · exact h.inactive j k ((r.identities.find?_insert_ne id j i hj).symm.trans hk)

theorem Dormant.map (r : IdentityRegistry) (h : Dormant r)
    (f : IdentityId → IdentityCommitment → IdentityCommitment) (count : Nat)
    (hf : ∀ id i, i.status ≠ .active → (f id i).status ≠ .active) :
    Dormant { r with identities := r.identities.map f, activeCount := count } := by
  refine ⟨h.minimum, ?_, h.unattested⟩
  intro id i hi
  have hfind : (r.identities.map f).find? id = some i := hi
  rw [SortedMap.find?_map, Option.map_eq_some_iff] at hfind
  obtain ⟨j, hj, rfl⟩ := hfind
  exact hf id j (h.inactive id j hj)

theorem Dormant.recount (r : IdentityRegistry) (h : Dormant r) (count : Nat) :
    Dormant { r with activeCount := count } := ⟨h.minimum, h.inactive, h.unattested⟩

theorem Dormant.withIdentity (r r' : IdentityRegistry) (h : Dormant r) (owner : AccountId)
    (f : IdentityCommitment → IdentityCommitment) (hf : ∀ i, (f i).status = i.status)
    (hok : r.withIdentity owner f = .ok r') : Dormant r' := by
  unfold IdentityRegistry.withIdentity at hok
  split at hok
  · cases hok
  · next id i hid =>
    cases hok
    refine h.setIdentity r id _ ?_
    rw [hf]
    exact h.inactive id i (r.identityOf_ok owner id i hid).2

theorem Dormant.count (r : IdentityRegistry) (h : Dormant r) (id : IdentityId) (block : Nat) :
    r.countValidAttestations id block = 0 := by
  rw [countValidAttestations, h.unattested id]
  rfl

theorem Dormant.stored (r : IdentityRegistry) (h : Dormant r) : r.stored = [] := by
  refine List.eq_nil_iff_forall_not_mem.2 ?_
  intro a ha
  obtain ⟨id, hid⟩ := (r.mem_stored a).1 ha
  rw [h.unattested id] at hid
  cases hid

theorem Dormant.renewIdentity (r r' : IdentityRegistry) (h : Dormant r) (owner : AccountId) (block expiry : Nat)
    (hok : r.renewIdentity owner block = .ok (r', expiry)) : Dormant r' := by
  unfold IdentityRegistry.renewIdentity at hok
  split at hok
  · cases hok
  · next id i hid =>
    split at hok
    · cases hok
    · cases hok
      refine h.setIdentity r id _ ?_
      show r.renewedStatus id i block ≠ .active
      have hmin := h.minimum
      unfold renewedStatus
      rw [h.count r id block]
      split
      · rw [if_neg (by omega), if_neg (by omega)]
        nofun
      · exact h.inactive id i (r.identityOf_ok owner id i hid).2

theorem Dormant.revoke (r : IdentityRegistry) (h : Dormant r) (id : IdentityId) (i : IdentityCommitment) :
    Dormant (r.revoke id i) := by
  refine Dormant.recount _ (h.setIdentity r id _ ?_) _
  nofun

theorem Dormant.invalidate (r : IdentityRegistry) (h : Dormant r) (attester : AccountId) :
    Dormant (r.invalidateAttestationsFrom attester) := by
  refine ⟨h.minimum, h.inactive, ?_⟩
  intro id
  have hid := h.unattested id
  unfold attestationsOf invalidateAttestationsFrom at *
  rw [SortedMap.find?_map]
  cases hl : r.attestations.find? id with
  | none => rfl
  | some l =>
    rw [hl, Option.getD_some] at hid
    rw [Option.map_some, Option.getD_some, hid]
    rfl

/-- **Step.**  With a minimum no one is there to attest, and a renewal does not activate. -/
theorem Dormant.apply (cr : Crypto) (r : IdentityRegistry) (op : IdentityOp) (h : Dormant r)
    (hop : KeepsMinimum r op) : Dormant (r.apply cr op) := by
  have hwith : ∀ owner f, (∀ i : IdentityCommitment, (f i).status = i.status) →
      Dormant ((r.withIdentity owner f).orKeep r) := fun owner f hf =>
    Except.orKeep_of Dormant _ r h fun r' hok => h.withIdentity r r' owner f hf hok
  cases op with
  | declareIdentity owner data name block =>
    refine Except.orKeep_map_of Dormant _ r h ?_
    intro r' id hok
    obtain ⟨-, -, rfl⟩ := declareIdentity_ok cr r r' owner data name block id hok
    refine ⟨h.minimum, (h.setIdentity r id _ ?_).inactive, ?_⟩
    · nofun
    · intro j
      by_cases hj : j = id
      · subst hj
        show ((r.attestations.insert j []).find? j).getD [] = []
        rw [SortedMap.find?_insert_self]
        rfl
      · show ((r.attestations.insert id []).find? j).getD [] = []
        rw [SortedMap.find?_insert_ne _ _ _ _ hj]
        exact h.unattested j
  | submitAttestation attester target claim block =>
    show Dormant (r.submitAttestation cr attester target claim block).1
    rcases submitAttestation_cases cr r attester target claim block with ⟨hr, -⟩ | ⟨attesterId, i, j, r', hc, -⟩
    · rw [hr]
      exact h
    · obtain ⟨-, hi, hactive, -⟩ := r.attestationChecked_ok attester target block attesterId i hc
      simp only [IdentityCommitment.isActive, Bool.and_eq_true, decide_eq_true_eq] at hactive
      exact absurd hactive.1 (h.inactive attesterId i hi)
  | renewIdentity owner block =>
    exact Except.orKeep_map_of Dormant _ r h fun r' e hok => h.renewIdentity r r' owner block e hok
  | revokeOwnIdentity owner =>
    refine Except.orKeep_map_of Dormant _ r h ?_
    intro r' d hok
    unfold IdentityRegistry.revokeOwnIdentity at hok
    split at hok
    · cases hok
    · split at hok
      · cases hok
      · cases hok
        exact h.revoke r _ _
  | forceRevokeIdentity id reason =>
    refine Except.orKeep_of Dormant _ r h ?_
    intro r' hok
    unfold IdentityRegistry.forceRevokeIdentity at hok
    split at hok
    · cases hok
    · split at hok
      · cases hok
      · cases hok
        exact (h.revoke r _ _).invalidate _ _
  | processExpirations block =>
    refine h.map r _ _ ?_
    intro id i hi hs
    simp only [sweep, sweptStatus] at hs
    split at hs
    · cases hs
    · split at hs
      · cases hs
      · exact hi hs
  | recordGovernanceParticipation owner block => exact hwith owner _ fun _ => rfl
  | recordArbitrationParticipation owner block => exact hwith owner _ fun _ => rfl
  | slashReputation owner percent => exact hwith owner _ fun _ => rfl
  | applyReputationDecay block =>
    show Dormant (r.applyReputationDecay block)
    unfold IdentityRegistry.applyReputationDecay
    split
    · exact h
    · refine h.map r _ r.activeCount ?_
      intro id i hi
      rw [if_neg hi]
      exact hi
  | updateConfig config => exact ⟨hop, h.inactive, h.unattested⟩

theorem dormant_foldl (cr : Crypto) (chain : ChainId) (config : AntiSybilConfig) (ops : List IdentityOp)
    (hconfig : 1 ≤ config.minAttestations) (hops : ∀ c, IdentityOp.updateConfig c ∈ ops → 1 ≤ c.minAttestations) :
    Dormant (ops.foldl (apply cr) (withConfig chain config)) := by
  refine Run.inv_foldl (apply cr) KeepsMinimum Dormant (fun r op => Dormant.apply cr r op) _ _
    ⟨hconfig, nofun, fun _ => rfl⟩ ?_
  rw [Run.meets_iff_split]
  rintro pre op post rfl
  cases op with
  | updateConfig c => exact hops c (by simp)
  | _ => trivial

/-! ## Runs -/

/-- The registry after a run from given settings. -/
def after (cr : Crypto) (chain : ChainId) (config : AntiSybilConfig) (ops : List IdentityOp) : IdentityRegistry :=
  ops.foldl (apply cr) (withConfig chain config)

theorem after_concat (cr : Crypto) (chain : ChainId) (config : AntiSybilConfig) (pre : List IdentityOp)
    (op : IdentityOp) : after cr chain config (pre ++ [op]) = (after cr chain config pre).apply cr op := by
  rw [after, List.foldl_append]
  rfl

/-- Once an identity is revoked by force, its attestations are over in every later state. -/
theorem ended_after (cr : Crypto) (chain : ChainId) (config : AntiSybilConfig) (pre post : List IdentityOp)
    (id : IdentityId) (reason : RevocationReason) (r' : IdentityRegistry)
    (hsep : ∀ x ∈ (pre ++ .forceRevokeIdentity id reason :: post).filterMap (declaredBytes cr chain),
      ∀ y ∈ (pre ++ .forceRevokeIdentity id reason :: post).filterMap (declaredBytes cr chain),
        cr.blake3 x = cr.blake3 y → x = y)
    (hok : (after cr chain config pre).forceRevokeIdentity id reason = .ok r') (k : Nat) :
    Ended (after cr chain config (pre ++ .forceRevokeIdentity id reason :: post.take k)) id := by
  have hmeets := meets_declares cr chain (pre ++ .forceRevokeIdentity id reason :: post) (withConfig chain config)
  have hinv := apply_inv cr chain _ hsep
  rw [Run.meets_append] at hmeets
  obtain ⟨hpre, hop, hpost⟩ := hmeets
  have hbefore := Run.inv_foldl (apply cr) _ _ hinv _ _ (inv_withConfig cr chain config _) hpre
  have hended : Ended ((after cr chain config pre).apply cr (.forceRevokeIdentity id reason)) id := by
    have happly : (after cr chain config pre).apply cr (.forceRevokeIdentity id reason) = r' := by
      show ((after cr chain config pre).forceRevokeIdentity id reason).orKeep _ = r'
      rw [hok]
      rfl
    rw [happly]
    exact ended_forceRevokeIdentity cr _ _ _ id reason hbefore.1 hok
  have hrun := Run.inv_foldl (apply cr) _ (fun r => Inv cr chain _ r ∧ Ended r id)
    (fun r op h hS => ⟨hinv r op h.1 hS, ended_apply cr chain _ hsep r op h.1 hS id h.2⟩) _ (post.take k)
    ⟨hinv _ _ hbefore hop, hended⟩ (Run.meets_take _ _ _ _ hpost k)
  rw [after, List.foldl_append, List.foldl_cons]
  exact hrun.2

/-- The call is accepted and revokes the identity. -/
def Revokes (r : IdentityRegistry) (id : IdentityId) : IdentityOp → Prop
  | .forceRevokeIdentity revoked reason => revoked = id ∧ ∃ r', r.forceRevokeIdentity revoked reason = .ok r'
  | .revokeOwnIdentity owner => r.getIdentityId owner = some id ∧ ∃ r', r.revokeOwnIdentity owner = .ok r'
  | _ => False

/-- An active status is earned and kept by valid attestations: an accepted attestation that
meets the minimum leaves the target active, the sweep leaves no active identity below the
minimum, and a revoked identity has no valid attestation in any later state. -/
structure ActivationRules (cr : Crypto) (chain : ChainId) (config : AntiSybilConfig) (ops : List IdentityOp) : Prop where
  activated : ∀ (pre : List IdentityOp) attester target claim block (post : List IdentityOp),
    ops = pre ++ .submitAttestation attester target claim block :: post →
    ((after cr chain config pre).submitAttestation cr attester target claim block).2 = .ok () →
    (after cr chain config (pre ++ [.submitAttestation attester target claim block])).config.minAttestations ≤
      (after cr chain config (pre ++ [.submitAttestation attester target claim block])).countValidAttestations
        target block →
    ∃ i, (after cr chain config (pre ++ [.submitAttestation attester target claim block])).identities.find? target =
      some i ∧ i.status = .active
  kept : ∀ (pre : List IdentityOp) block (post : List IdentityOp) id i, ops = pre ++ .processExpirations block :: post →
    (after cr chain config (pre ++ [.processExpirations block])).identities.find? id = some i → i.status = .active →
    (after cr chain config (pre ++ [.processExpirations block])).config.minAttestations ≤
      (after cr chain config (pre ++ [.processExpirations block])).countValidAttestations id block
  ended : ∀ (pre : List IdentityOp) op (post : List IdentityOp) id k, ops = pre ++ op :: post → Revokes (after cr chain config pre) id op →
    ∀ a ∈ (after cr chain config (pre ++ op :: post.take k)).stored,
      a.attesterIdentity = id → ∀ block, a.isActive block = false

/-- Without active identities and attestations the rules have nothing to go wrong with. -/
theorem activationRules_of_dormant (cr : Crypto) (chain : ChainId) (config : AntiSybilConfig)
    (ops : List IdentityOp) (h : ∀ pre post, ops = pre ++ post → Dormant (after cr chain config pre)) :
    ActivationRules cr chain config ops := by
  refine ⟨?_, ?_, ?_⟩
  · rintro pre attester target claim block post rfl - hcount
    have hd := h (pre ++ [.submitAttestation attester target claim block]) post (by simp)
    have hmin := hd.minimum
    rw [hd.count] at hcount
    omega
  · rintro pre block post id i rfl hi hactive
    have hd := h (pre ++ [.processExpirations block]) post (by simp)
    exact absurd hactive (hd.inactive id i hi)
  · rintro pre op post id k rfl - a ha
    have hd := h (pre ++ op :: post.take k) (post.drop k) (by simp)
    rw [hd.stored] at ha
    cases ha

/-- In every run: where all settings ask for an attestation the activation rules hold, with
neither an active identity nor an attestation in any state.  Under any settings a target
that was attested or active, and has enough valid attestations after an attestation, is
active; after a sweep an active identity has not expired and has a valid attestation; and
without colliding ids no attestation of an identity is valid again after a forced
revocation. -/
theorem attestation_rules (cr : Crypto) (chain : ChainId) (config : AntiSybilConfig) (ops : List IdentityOp) :
    (1 ≤ config.minAttestations → (∀ c, IdentityOp.updateConfig c ∈ ops → 1 ≤ c.minAttestations) →
      ActivationRules cr chain config ops ∧
        ∀ k, (∀ id i, (after cr chain config (ops.take k)).identities.find? id = some i → i.status ≠ .active) ∧
          (after cr chain config (ops.take k)).stored = []) ∧
    (∀ (pre : List IdentityOp) attester target claim block (post : List IdentityOp) j,
      ops = pre ++ .submitAttestation attester target claim block :: post →
      ((after cr chain config pre).submitAttestation cr attester target claim block).2 = .ok () →
      (after cr chain config pre).identities.find? target = some j → j.status = .attested ∨ j.status = .active →
      (after cr chain config pre).config.minAttestations ≤
        (after cr chain config (pre ++ [.submitAttestation attester target claim block])).countValidAttestations
          target block →
      ∃ i, (after cr chain config (pre ++ [.submitAttestation attester target claim block])).identities.find? target =
        some i ∧ i.status = .active) ∧
    (∀ (pre : List IdentityOp) block (post : List IdentityOp) id i, ops = pre ++ .processExpirations block :: post →
      (after cr chain config (pre ++ [.processExpirations block])).identities.find? id = some i →
      i.status = .active →
      i.isExpired block = false ∧
        1 ≤ (after cr chain config (pre ++ [.processExpirations block])).countValidAttestations id block) ∧
    ((∀ x ∈ ops.filterMap (declaredBytes cr chain), ∀ y ∈ ops.filterMap (declaredBytes cr chain),
        cr.blake3 x = cr.blake3 y → x = y) →
      ∀ (pre : List IdentityOp) id reason (post : List IdentityOp) r' k, ops = pre ++ .forceRevokeIdentity id reason :: post →
        (after cr chain config pre).forceRevokeIdentity id reason = .ok r' →
        ∀ a ∈ (after cr chain config (pre ++ .forceRevokeIdentity id reason :: post.take k)).stored,
          a.attesterIdentity = id → ∀ block, a.isActive block = false) := by
  refine ⟨?_, ?_, ?_, ?_⟩
  · intro hconfig hops
    have hdormant : ∀ pre post, ops = pre ++ post → Dormant (after cr chain config pre) := by
      rintro pre post rfl
      exact dormant_foldl cr chain config pre hconfig (fun c hc => hops c (List.mem_append_left post hc))
    refine ⟨activationRules_of_dormant cr chain config ops hdormant, fun k => ?_⟩
    have hk := hdormant (ops.take k) (ops.drop k) (List.take_append_drop k ops).symm
    exact ⟨hk.inactive, hk.stored⟩
  · intro pre attester target claim block post j _ hok hj hstatus hcount
    rw [after_concat] at hcount ⊢
    exact submitAttestation_active cr _ attester target claim block j hok hj hstatus hcount
  · intro pre block post id i _ hi hactive
    rw [after_concat] at hi ⊢
    exact processExpirations_active _ block id i hi hactive
  · rintro hsep pre id reason post r' k rfl hok a ha hid block
    have hended := ended_after cr chain config pre post id reason r' hsep hok k
    rw [IdentityAttestation.isActive, hended.invalid a ha hid]
    rfl

/-- Two identities under the settings that ask for three attestations: the first lapses, is
renewed, is refused as an attester and is revoked. -/
def dormantOps : List IdentityOp :=
  [.declareIdentity ⟨1⟩ [7] none 0, .processExpirations 2592001, .renewIdentity ⟨1⟩ 2592001,
    .declareIdentity ⟨2⟩ [7] none 2592001, .submitAttestation ⟨1⟩ (sampleId ⟨2⟩) [] 2592001,
    .revokeOwnIdentity ⟨1⟩]

/-- The rules under the usual settings, and one attestation that a revocation ends. -/
theorem attestation_rules_sample :
    ActivationRules Crypto.sample ⟨0⟩ .default dormantOps ∧
      (after Crypto.sample ⟨0⟩ .default
        (attestedOps ++ [.forceRevokeIdentity (sampleId ⟨1⟩) .misconduct])).stored.length = 1 ∧
      ∀ a ∈ (after Crypto.sample ⟨0⟩ .default
          (attestedOps ++ .forceRevokeIdentity (sampleId ⟨1⟩) .misconduct :: [].take 0)).stored,
        a.attesterIdentity = sampleId ⟨1⟩ → ∀ block, a.isActive block = false := by
  refine ⟨((attestation_rules Crypto.sample ⟨0⟩ .default dormantOps).1 (by decide) ?_).1, by decide +kernel, ?_⟩
  · intro c hc
    simp [dormantOps] at hc
  have hok : ((after Crypto.sample ⟨0⟩ .default attestedOps).forceRevokeIdentity (sampleId ⟨1⟩) .misconduct).isOk =
      true := by
    decide +kernel
  obtain ⟨r', hr'⟩ : ∃ r', (after Crypto.sample ⟨0⟩ .default attestedOps).forceRevokeIdentity (sampleId ⟨1⟩)
      .misconduct = .ok r' := by
    generalize (after Crypto.sample ⟨0⟩ .default attestedOps).forceRevokeIdentity (sampleId ⟨1⟩) .misconduct = x at hok
    cases x with
    | error e => cases hok
    | ok r' => exact ⟨r', rfl⟩
  exact (attestation_rules Crypto.sample ⟨0⟩ .default
    (attestedOps ++ [.forceRevokeIdentity (sampleId ⟨1⟩) .misconduct])).2.2.2 (by decide +kernel)
    attestedOps _ _ [] r' 0 rfl hr'

/-- Without a minimum the rules can fail: after settings of 0 and then 3, one attestation
keeps the second identity active through a sweep. -/
example : (after Crypto.sample ⟨0⟩ .default (attestedOps ++ [.processExpirations 2592001])).isActive (sampleId ⟨2⟩)
      2592001 = true ∧
    (after Crypto.sample ⟨0⟩ .default (attestedOps ++ [.processExpirations 2592001])).countValidAttestations
      (sampleId ⟨2⟩) 2592001 = 1 := by
  decide +kernel

end IdentityRegistry

end Kratos
