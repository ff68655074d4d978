import Kratos.Contracts.Sidechains
import Kratos.Types.Fraud

/-!
# Purges for fraud

A verified proof that names a chain raises the chain's count of slashed validators, and a count of a
third of the validators purges the chain.  The count is a number: it grows with a proof that was
counted before, and the only proofs that name a chain accuse the zero account.  `Prosecution` keeps the
accounts accused by verified, unexpired proofs beside the registry.  Its reports of fraud are all
backed by a third of proven validators exactly in the runs whose every step is `Sustained`.

A chain that cannot be purged any more makes `applyFraudProof` fail after it has raised the count
(`Stuck`).
-/

namespace Kratos

/-! ## Proofs -/

/-- The errors of a verification. -/
inductive FraudProofError where
  | invalidMerkleProof
  | invalidSignature
  | blocksNotConflicting
  | noViolationDetected
  | exitViolationNotProven
  | invalidProofStructure (text : String)
deriving DecidableEq, Repr

def FraudProofError.text : FraudProofError → String
  | invalidMerkleProof => "Merkle proof verification failed"
  | invalidSignature => "Signature verification failed"
  | blocksNotConflicting => "Blocks are not conflicting (same hash or different heights)"
  | noViolationDetected => "State transition is valid (no violation detected)"
  | exitViolationNotProven => "Exit violation not proven"
  | invalidProofStructure text => s!"Invalid proof structure: {text}"

/-- 30 days. -/
def fraudProofValidityPeriod : Nat := 432000

structure FraudProofVerification where
  isValid : Bool
  accused : AccountId
  severity : FraudSeverity
  fraudBlock : Nat
deriving DecidableEq, Repr

def FraudSeverity.fromFraudProof : FraudProof → FraudSeverity
  | .doubleFinalization .. => .critical
  | .invalidStateTransition .. => .severe
  | .invalidExit _ _ violation _ _ =>
    match violation with
    | .inflatedBalance .. => .critical
    | .invalidChainState .. => .severe
    | .prematureExit .. => .moderate
    | .expiredWithdrawal .. => .minor

namespace FraudProof

def fraudBlockNumber : FraudProof → Nat
  | invalidStateTransition _ _ _ _ _ blockNumber _ => blockNumber
  | doubleFinalization _ blockA _ _ _ => blockA.number
  | invalidExit _ _ _ _ blockNumber => blockNumber

def affectedChain : FraudProof → Option ChainId
  | invalidExit chainId _ _ _ _ => some chainId
  | _ => none

def isStateTransitionInvalid (before after : AccountInfo) : Bool :=
  decide (after.free > before.free + 1000000000) || decide (after.nonce < before.nonce) ||
    decide (after.nonce > before.nonce + 1)

/-- What the violation itself shows. -/
def violationProven : ExitViolation → Bool
  | .prematureExit actualPurgeStart claimedWithdrawalStart => decide (claimedWithdrawalStart < actualPurgeStart)
  | .expiredWithdrawal windowEnd exitAttemptBlock => decide (exitAttemptBlock > windowEnd)
  | .inflatedBalance actualBalance claimedBalance => decide (claimedBalance > actualBalance)
  | .invalidChainState _ => true

/-- `AccountId::verify`: a key that is no point verifies nothing. -/
def signed (cr : Crypto) (validator : AccountId) (block : BlockHeader) (signature : Signature64) : Bool :=
  cr.ed25519Key validator && cr.ed25519Verify validator (block.hash cr).asBytes signature

def verify (cr : Crypto) : FraudProof → Except FraudProofError Unit
  | invalidStateTransition _ beforeState afterState merkleProofBefore merkleProofAfter _ _ =>
    if merkleProofBefore.verify cr = false then .error .invalidMerkleProof
    else if merkleProofAfter.verify cr = false then .error .invalidMerkleProof
    else if merkleProofAfter.blockNumber ≠ merkleProofBefore.blockNumber + 1 then
      .error (.invalidProofStructure "Merkle proofs must be for consecutive blocks")
    else if isStateTransitionInvalid beforeState afterState = false then .error .noViolationDetected
    else .ok ()
  | doubleFinalization validator blockA blockB signatureA signatureB =>
    if blockA.number ≠ blockB.number then .error .blocksNotConflicting
    else if blockA.hash cr = blockB.hash cr then .error .blocksNotConflicting
    else if signed cr validator blockA signatureA = false then .error .invalidSignature
    else if signed cr validator blockB signatureB = false then .error .invalidSignature
    else .ok ()
  | invalidExit _ _ violation merkleProof _ =>
    if merkleProof.verify cr = false then .error .invalidMerkleProof
    else if violationProven violation = false then .error .exitViolationNotProven
    else .ok ()

/-- Verified, and not too old at the block. -/
def convicts (cr : Crypto) (proof : FraudProof) (currentBlock : Nat) : Bool :=
  match proof.verify cr with
  | .error _ => false
  | .ok () => decide (currentBlock ≤ proof.fraudBlockNumber + fraudProofValidityPeriod)

end FraudProof

/-! ## Calls -/

/-- What a call with a proof fails with. -/
inductive FraudCallError where
  | fraudProofInvalid (text : String)
  | fraudProofExpired
  | chain (e : ChainError)
deriving DecidableEq, Repr

namespace ChainRegistry

/-- A proof that names no chain slashes nobody. -/
def verifyFraudProof (cr : Crypto) (g : ChainRegistry) (proof : FraudProof) (currentBlock : Nat) :
    Except FraudCallError (ChainRegistry × FraudProofVerification) :=
  match proof.verify cr with
  | .error e => .error (.fraudProofInvalid e.text)
  | .ok () =>
    if currentBlock > proof.fraudBlockNumber + fraudProofValidityPeriod then .error .fraudProofExpired
    else
      let verification : FraudProofVerification :=
        { isValid := true, accused := proof.accusedValidator, severity := .fromFraudProof proof
          fraudBlock := proof.fraudBlockNumber }
      match proof.affectedChain with
      | none => .ok (g, verification)
      | some chainId =>
        match g.slashValidator chainId proof.accusedValidator with
        | .error e => .error (.chain e)
        | .ok (g, _) => .ok (g, verification)

/-- The count stays raised when the purge fails. -/
def applyFraudProof (cr : Crypto) (g : ChainRegistry) (proof : FraudProof) (currentBlock : Nat) :
    ChainRegistry × Except FraudCallError Bool :=
  match g.verifyFraudProof cr proof currentBlock with
  | .error e => (g, .error e)
  | .ok (g, _) =>
    match proof.affectedChain with
    | none => (g, .ok false)
    | some chainId =>
      match g.sidechains.find? chainId with
      | none => (g, .error (.chain .chainNotFound))
      | some sc =>
        let totalValidators := sc.validators.card
        if totalValidators = 0 then (g, .ok false)
        else
          let fraudPercent := sc.slashedValidatorsCount * 100 / totalValidators
          if fraudPercent ≥ validatorFraudThresholdPercent then
            match g.triggerPurge chainId .validatorFraud currentBlock with
            | .error e => (g, .error (.chain e))
            | .ok (g, _) => (g, .ok true)
          else (g, .ok false)

/-- With one more slashed validator. -/
def countSlash (sc : SidechainInfo) : SidechainInfo :=
  { sc with slashedValidatorsCount := sc.slashedValidatorsCount + 1 }

theorem slashValidator_of_none (g : ChainRegistry) (c : ChainId) (v : AccountId)
    (h : g.sidechains.find? c = none) : g.slashValidator c v = .error .chainNotFound := by
  unfold slashValidator withSidechain
  rw [h]

theorem slashValidator_of_some (g : ChainRegistry) (c : ChainId) (v : AccountId) (sc : SidechainInfo)
    (h : g.sidechains.find? c = some sc) :
    g.slashValidator c v = .ok ({ g with sidechains := g.sidechains.insert c (countSlash sc) }, ()) := by
  unfold slashValidator withSidechain
  rw [h]
  rfl

/-- What a verification does: it fails, or slashes once if the proof names a chain. -/
theorem verifyFraudProof_cases (cr : Crypto) (g : ChainRegistry) (proof : FraudProof) (b : Nat) :
    (∃ e, g.verifyFraudProof cr proof b = .error e ∧
        (proof.convicts cr b = false ∨ ∃ c, proof.affectedChain = some c ∧ g.sidechains.find? c = none)) ∨
      proof.convicts cr b = true ∧
        (proof.affectedChain = none ∧ (∃ v, g.verifyFraudProof cr proof b = .ok (g, v)) ∨
          ∃ c sc, proof.affectedChain = some c ∧ g.sidechains.find? c = some sc ∧
            ∃ v, g.verifyFraudProof cr proof b =
              .ok ({ g with sidechains := g.sidechains.insert c (countSlash sc) }, v)) := by
  unfold verifyFraudProof FraudProof.convicts
  cases hv : proof.verify cr with
  | error e => exact Or.inl ⟨_, rfl, Or.inl rfl⟩
  | ok u =>
    simp only
    by_cases hb : b > proof.fraudBlockNumber + fraudProofValidityPeriod
    · rw [if_pos hb]
      exact Or.inl ⟨_, rfl, Or.inl (decide_eq_false (not_le.mpr hb))⟩
    · rw [if_neg hb]
      cases hc : proof.affectedChain with
      | none => exact Or.inr ⟨decide_eq_true (not_lt.mp hb), Or.inl ⟨rfl, _, rfl⟩⟩
      | some c =>
        cases hf : g.sidechains.find? c with
        | none =>
          simp only [slashValidator_of_none g c _ hf]
          exact Or.inl ⟨_, rfl, Or.inr ⟨c, rfl, hf⟩⟩
        | some sc =>
          simp only [slashValidator_of_some g c _ sc hf]
          exact Or.inr ⟨decide_eq_true (not_lt.mp hb), Or.inr ⟨c, sc, rfl, hf, _, rfl⟩⟩

/-! ## Counts of the other calls -/

end ChainRegistry

/-- No slash, no fewer governance failures, and the validators stay. -/
structure SidechainInfo.Tame (sc sc' : SidechainInfo) : Prop where
  count : sc'.slashedValidatorsCount = sc.slashedValidatorsCount
  failures : sc.governanceFailures ≤ sc'.governanceFailures
  validators : sc'.validators = sc.validators

theorem SidechainInfo.Tame.refl (sc : SidechainInfo) : sc.Tame sc := ⟨rfl, le_refl _, rfl⟩

theorem SidechainInfo.Tame.trans {a b c : SidechainInfo} (h : a.Tame b) (h' : b.Tame c) : a.Tame c :=
  ⟨h'.count.trans h.count, h.failures.trans h'.failures, h'.validators.trans h.validators⟩

namespace ChainRegistry

/-- Every chain is new, with nothing counted, or its record is a tame successor. -/
def Tame (g t : ChainRegistry) : Prop :=
  ∀ c sc', t.sidechains.find? c = some sc' →
    sc'.slashedValidatorsCount = 0 ∨ ∃ sc, g.sidechains.find? c = some sc ∧ sc.Tame sc'

namespace Tame

theorem of_eq {g t : ChainRegistry} (h : t.sidechains = g.sidechains) : g.Tame t := by
  intro c sc' hf
  rw [h] at hf
  exact Or.inr ⟨sc', hf, .refl sc'⟩

theorem refl (g : ChainRegistry) : g.Tame g := of_eq rfl

theorem trans {r s t : ChainRegistry} (h : r.Tame s) (h' : s.Tame t) : r.Tame t := by
  intro c sc'' hf
  rcases h' c sc'' hf with h0 | ⟨sc', hf', ht'⟩
  · exact Or.inl h0
  · rcases h c sc' hf' with h0 | ⟨sc, hf, ht⟩
    · exact Or.inl (ht'.count.trans h0)
    · exact Or.inr ⟨sc, hf, ht.trans ht'⟩

/-- Writing one record. -/
theorem insert {g t : ChainRegistry} {c : ChainId} {sc' : SidechainInfo}
    (ht : t.sidechains = g.sidechains.insert c sc')
    (hnew : sc'.slashedValidatorsCount = 0 ∨ ∃ sc, g.sidechains.find? c = some sc ∧ sc.Tame sc') : g.Tame t := by
  intro i r hr
  rw [ht, SortedMap.find?_insert] at hr
  by_cases hi : i = c
  · rw [if_pos hi] at hr
    obtain rfl := Option.some.inj hr
    rw [hi]
    exact hnew
  · rw [if_neg hi] at hr
    exact Or.inr ⟨r, hr, .refl r⟩

theorem rewrite {g t : ChainRegistry} {c : ChainId} {sc sc' : SidechainInfo}
    (hf : g.sidechains.find? c = some sc) (ht : t.sidechains = g.sidechains.insert c sc')
    (hm : sc.Tame sc') : g.Tame t := insert ht (Or.inr ⟨sc, hf, hm⟩)

end Tame

/-- A new chain has nothing counted, whatever validators it gets at once. -/
theorem createSidechain_tame (g : ChainRegistry) (owner : AccountId) (name description : Option String)
    (parent : Option ChainId) (m : SecurityMode) (host : Option ChainId) (deposit : Balance) (b : Nat) :
    g.Tame (g.createSidechain owner name description parent m host deposit b).1 := by
  cases hacc : g.accepts parent m host deposit with
  | false =>
    obtain ⟨e, he⟩ := createSidechain_rejected g owner name description parent m host deposit b hacc
    rw [he]
    exact .refl g
  | true =>
    rw [createSidechain_accepted g owner name description parent m host deposit b hacc]
    rcases settle_sidechains (g.storeNew owner name description parent m deposit b) ⟨g.nextChainId⟩ m host with
      h | ⟨sc, v, hf, h⟩
    · exact .insert h (Or.inl rfl)
    · have hnew := (g.sidechains.find?_insert_self ⟨g.nextChainId⟩ _).symm.trans hf
      cases hnew
      exact .insert (h.trans (SortedMap.insert_insert _ _ _ _)) (Or.inl rfl)

theorem purgeSidechain_tame (g t : ChainRegistry) (c : ChainId) (b : Nat) (d : Balance)
    (h : g.purgeSidechain c b = .ok (t, d)) : g.Tame t := by
  obtain ⟨sc, hf, -, -, ht⟩ := purgeSidechain_ok g t c b d h
  exact .rewrite hf ht ⟨rfl, le_refl _, rfl⟩

theorem triggerPurge_tame (g t : ChainRegistry) (c : ChainId) (trigger : PurgeTrigger) (b : Nat) (u : Unit)
    (h : g.triggerPurge c trigger b = .ok (t, u)) : g.Tame t := by
  refine withSidechain_rel Tame .rewrite g t c _ u ?_ h
  intro sc sc' _ hr
  split at hr
  · cases hr
  · cases hr
    exact ⟨rfl, le_refl _, rfl⟩

theorem advance_tame (sc : SidechainInfo) (b : Nat) : sc.Tame (advance sc b) := by
  unfold advance
  cases sc.status with
  | pendingPurge =>
    simp only
    split <;> exact ⟨rfl, le_refl _, rfl⟩
  | withdrawalWindow =>
    simp only
    split <;> exact ⟨rfl, le_refl _, rfl⟩
  | _ => exact ⟨rfl, le_refl _, rfl⟩

theorem withdrawn_tame {g t : ChainRegistry} {c : ChainId} {a : AccountId} {sc : SidechainInfo}
    (hf : g.sidechains.find? c = some sc)
    (ht : t.sidechains = g.sidechains.insert c { sc with withdrawnAccounts := Insert.insert a sc.withdrawnAccounts }) :
    g.Tame t :=
  .rewrite hf ht ⟨rfl, le_refl _, rfl⟩

/-- The calls that slash, reset the governance failures or give a chain other validators. -/
def Judges : RegistryOp → Bool
  | .slashValidator .. | .resetGovernanceFailures .. | .assignValidators .. | .addValidatorToChain ..
  | .removeValidatorFromChain .. | .addValidatorToHostchain .. | .removeValidatorFromHostchain .. => true
  | _ => false

/-- The other calls leave counts and validators alone. -/
theorem apply_tame (cr : Crypto) (g : ChainRegistry) (op : RegistryOp) (hop : Judges op = false) :
    g.Tame (g.apply cr op) := by
  cases op with
  | createSidechain owner name description parent m host deposit b =>
    exact createSidechain_tame g owner name description parent m host deposit b
  | createHostchain creator b => exact .of_eq rfl
  | affiliateSidechain c h =>
    apply Except.orKeep_of g.Tame _ g (.refl g)
    intro t ht
    exact .of_eq (affiliateSidechain_sidechains g t c h ht)
  | leaveHost c => exact .of_eq (leaveHost_sidechains g c)
  | recordActivity c b =>
    apply withSidechain_orKeep_rel Tame .refl .rewrite
    intro sc sc' _ hr
    cases hr
    exact ⟨rfl, le_refl _, rfl⟩
  | recordGovernanceFailure c =>
    apply withSidechain_orKeep_rel Tame .refl .rewrite
    intro sc sc' _ hr
    cases hr
    exact ⟨rfl, Nat.le_succ _, rfl⟩
  | updateVerifiedStateRoot c root =>
    apply withSidechain_orKeep_rel Tame .refl .rewrite
    intro sc sc' _ hr
    cases hr
    exact ⟨rfl, le_refl _, rfl⟩
  | reportStateDivergence c b reporter =>
    apply withSidechain_orKeep_rel Tame .refl .rewrite
    intro sc sc' _ hr
    simp only at hr
    split at hr
    · cases hr
    · cases hr
      exact ⟨rfl, le_refl _, rfl⟩
  | setSnapshotStateRoot c root =>
    apply withSidechain_orKeep_rel Tame .refl .rewrite
    intro sc sc' _ hr
    split at hr
    · cases hr
    · cases hr
      exact ⟨rfl, le_refl _, rfl⟩
  | purgeSidechain c b =>
    apply Except.orKeep_map_of g.Tame _ g (.refl g)
    intro t d ht
    exact purgeSidechain_tame g t c b d ht
  | autoPurgeInactive order b =>
    exact autoPurgeInactive_rel Tame .refl (fun h h' => h.trans h') b (fun _ => .of_eq rfl)
      (fun g t c d => purgeSidechain_tame g t c b d) order g
  | triggerPurge c trigger b =>
    apply Except.orKeep_map_of g.Tame _ g (.refl g)
    intro t u ht
    exact triggerPurge_tame g t c trigger b u ht
  | advancePurgeState c b =>
    apply Except.orKeep_map_of g.Tame _ g (.refl g)
    intro t status ht
    exact advancePurgeState_rel Tame .rewrite g t c b status (advance_tame · b) ht
  | autoPurgeV31 order b =>
    exact autoPurgeV31_rel Tame .refl (fun h h' => h.trans h') b (fun _ => .of_eq rfl)
      (fun g t c trigger u => triggerPurge_tame g t c trigger b u)
      (fun g t c status => advancePurgeState_rel Tame .rewrite g t c b status (advance_tame · b)) order g
  | withdrawFromPurgedChain c a =>
    apply Except.orKeep_map_of g.Tame _ g (.refl g)
    intro t r ht
    obtain ⟨sc, hf, -, -, -, -, -, -, hs⟩ := withdrawFromPurgedChain_ok g t c a r ht
    exact withdrawn_tame hf hs
  | withdrawWithProof c a balance proof =>
    apply Except.orKeep_map_of g.Tame _ g (.refl g)
    intro t r ht
    obtain ⟨sc, root, hf, -, -, -, -, -, -, -, -, hs⟩ := withdrawWithProof_ok cr g t c a balance proof r ht
    exact withdrawn_tame hf hs
  | emergencyExit c a balance proof =>
    apply Except.orKeep_map_of g.Tame _ g (.refl g)
    intro t r ht
    obtain ⟨sc, hf, -, -, -, -, hs⟩ := emergencyExit_ok cr g t c a balance proof r ht
    exact withdrawn_tame hf hs
  | _ => cases hop

/-! ## Reports -/

/-- A third of the validators are proven. -/
def Backed (validators proven : Finset AccountId) : Prop :=
  validatorFraudThresholdPercent * validators.card ≤ 100 * (validators ∩ proven).card

/-- The count is a third of the validators, as `checkPurgeTriggers` compares them. -/
def Reaches (count : Nat) (validators : Finset AccountId) : Prop :=
  validators.card ≠ 0 ∧
    Word.satMul64 count 100 ≥ Word.satMul64 validators.card validatorFraudThresholdPercent

/-- The count is a third of the validators, as `applyFraudProof` compares them. -/
def Overdue (count : Nat) (validators : Finset AccountId) : Prop :=
  validators.card ≠ 0 ∧ count * 100 / validators.card ≥ validatorFraudThresholdPercent

theorem not_reaches_zero (validators : Finset AccountId) : ¬Reaches 0 validators := by
  rintro ⟨hcard, h⟩
  unfold Word.satMul64 Word.u64Max validatorFraudThresholdPercent at h
  omega

theorem Backed.mono {validators proven proven' : Finset AccountId} (h : Backed validators proven)
    (hsub : proven ⊆ proven') : Backed validators proven' := by
  have hle : (validators ∩ proven).card ≤ (validators ∩ proven').card :=
    Finset.card_le_card (Finset.inter_subset_inter_left hsub)
  unfold Backed at h ⊢
  omega

theorem checkPurgeTriggers_fraud (g : ChainRegistry) (c : ChainId) (b : Nat)
    (h : g.checkPurgeTriggers c b = some .validatorFraud) :
    ∃ sc, g.sidechains.find? c = some sc ∧ sc.governanceFailures < governanceFailureThreshold ∧
      Reaches sc.slashedValidatorsCount sc.validators := by
  unfold checkPurgeTriggers at h
  cases hf : g.sidechains.find? c with
  | none => simp [hf] at h
  | some sc =>
    simp only [hf] at h
    split at h
    · cases h
    split at h
    · cases h
    next hgov =>
    split at h
    · next hreach => exact ⟨sc, rfl, not_le.mp hgov, hreach⟩
    split at h
    · cases h
    · cases h

/-- At block 0 no chain is inactive. -/
theorem checkPurgeTriggers_zero (g : ChainRegistry) (c : ChainId) (sc : SidechainInfo)
    (hf : g.sidechains.find? c = some sc) (hgov : sc.governanceFailures < governanceFailureThreshold)
    (hreach : Reaches sc.slashedValidatorsCount sc.validators) :
    g.checkPurgeTriggers c 0 = some .validatorFraud := by
  have hactive : sc.isInactive 0 inactivityThresholdV31 = false := by
    unfold SidechainInfo.isInactive
    rw [decide_eq_false_iff_not]
    omega
  unfold checkPurgeTriggers
  rw [hf]
  simp only
  rw [hactive, if_neg (by decide), if_neg (not_le.mpr hgov)]
  exact if_pos hreach

/-- The purge of a chain whose status lets it start. -/
def purgeable (sc : SidechainInfo) : Prop := sc.status = .active ∨ sc.status = .inactive

/-- What a call with a proof does: nothing; or it counts, and then reports fraud, fails, or stops. -/
theorem applyFraudProof_cases (cr : Crypto) (g : ChainRegistry) (proof : FraudProof) (b : Nat) :
    ((g.applyFraudProof cr proof b).1 = g ∧ (g.applyFraudProof cr proof b).2 ≠ .ok true ∧
      ¬(proof.convicts cr b = true ∧ ∃ c sc, proof.affectedChain = some c ∧ g.sidechains.find? c = some sc)) ∨
    proof.convicts cr b = true ∧ ∃ c sc sc', proof.affectedChain = some c ∧ g.sidechains.find? c = some sc ∧
      (g.applyFraudProof cr proof b).1.sidechains = g.sidechains.insert c sc' ∧
      sc'.slashedValidatorsCount = sc.slashedValidatorsCount + 1 ∧ sc'.validators = sc.validators ∧
      sc'.governanceFailures = sc.governanceFailures ∧
      ((g.applyFraudProof cr proof b).2 = .ok true ↔
        Overdue (sc.slashedValidatorsCount + 1) sc.validators ∧ purgeable sc) ∧
      ((∃ e, (g.applyFraudProof cr proof b).2 = .error e) ↔
        Overdue (sc.slashedValidatorsCount + 1) sc.validators ∧ ¬purgeable sc) := by
  unfold applyFraudProof
  rcases verifyFraudProof_cases cr g proof b with ⟨e, hv, hwhy⟩ | ⟨hconvicts, ⟨hc, v, hv⟩ | ⟨c, sc, hc, hf, v, hv⟩⟩
  · rw [hv]
    refine Or.inl ⟨rfl, by simp, ?_⟩
    rintro ⟨hconvicts, c, sc, hc, hf⟩
    rcases hwhy with hwhy | ⟨c', hc', hf'⟩
    · rw [hwhy] at hconvicts
      cases hconvicts
    · rw [hc] at hc'
      cases hc'
      rw [hf] at hf'
      cases hf'
  · rw [hv, hc]
    refine Or.inl ⟨rfl, by simp, ?_⟩
    rintro ⟨-, c, sc, hc', -⟩
    cases hc'
  · refine Or.inr ⟨hconvicts, c, sc, ?_⟩
    rw [hv, hc]
    simp only [SortedMap.find?_insert_self]
    by_cases hcard : (countSlash sc).validators.card = 0
    · have hnot : ¬Overdue (sc.slashedValidatorsCount + 1) sc.validators := fun h => h.1 hcard
      rw [if_pos hcard]
      exact ⟨countSlash sc, trivial, hf, rfl, rfl, rfl, rfl, by simp [hnot], by simp [hnot]⟩
    rw [if_neg hcard]
    by_cases hpercent : (countSlash sc).slashedValidatorsCount * 100 / (countSlash sc).validators.card ≥
        validatorFraudThresholdPercent
    · have hoverdue : Overdue (sc.slashedValidatorsCount + 1) sc.validators := ⟨hcard, hpercent⟩
      rw [if_pos hpercent]
      unfold triggerPurge withSidechain
      simp only [SortedMap.find?_insert_self]
      by_cases hstatus : (countSlash sc).status ≠ .active ∧ (countSlash sc).status ≠ .inactive
      · have hnot : ¬purgeable sc := fun h => h.elim hstatus.1 hstatus.2
        rw [if_pos hstatus]
        exact ⟨countSlash sc, trivial, hf, rfl, rfl, rfl, rfl, by simp [hnot], by simp [hnot, hoverdue]⟩
      · have hpurgeable : purgeable sc := by
          unfold purgeable
          by_contra h
          exact hstatus (not_or.mp h)
        rw [if_neg hstatus]
        refine ⟨_, trivial, hf, SortedMap.insert_insert _ _ _ _, rfl, rfl, rfl, ?_, ?_⟩
        · simp [hpurgeable, hoverdue]
        · simp [hpurgeable]
    · have hnot : ¬Overdue (sc.slashedValidatorsCount + 1) sc.validators := fun h => hpercent h.2
      rw [if_neg hpercent]
      exact ⟨countSlash sc, trivial, hf, rfl, rfl, rfl, rfl, by simp [hnot], by simp [hnot]⟩

end ChainRegistry

/-! ## Runs -/

/-- A call of the registry, with a fraud proof or without one. -/
inductive FraudOp where
  | registry (op : RegistryOp)
  | verifyFraudProof (proof : FraudProof) (currentBlock : Nat)
  | applyFraudProof (proof : FraudProof) (currentBlock : Nat)

/-- The registry, and the accounts that a verified and unexpired proof has accused. -/
structure Prosecution where
  registry : ChainRegistry
  proven : Finset AccountId

namespace Prosecution

open ChainRegistry

def new : Prosecution := { registry := .new, proven := ∅ }

def convict (cr : Crypto) (s : Prosecution) (proof : FraudProof) (currentBlock : Nat) : Finset AccountId :=
  if proof.convicts cr currentBlock then insert proof.accusedValidator s.proven else s.proven

def apply (cr : Crypto) (s : Prosecution) : FraudOp → Prosecution
  | .registry op => { s with registry := s.registry.apply cr op }
  | .verifyFraudProof proof currentBlock =>
    { registry := ((s.registry.verifyFraudProof cr proof currentBlock).map Prod.fst).orKeep s.registry
      proven := s.convict cr proof currentBlock }
  | .applyFraudProof proof currentBlock =>
    { registry := (s.registry.applyFraudProof cr proof currentBlock).1
      proven := s.convict cr proof currentBlock }

/-- Every chain that the trigger check would report for fraud, at whatever block, is backed. -/
def Fair (s : Prosecution) : Prop :=
  ∀ c b sc, s.registry.checkPurgeTriggers c b = some .validatorFraud →
    s.registry.sidechains.find? c = some sc → Backed sc.validators s.proven

/-- A call with a proof that reports fraud reports a backed chain. -/
def FairPurge (cr : Crypto) (s : Prosecution) : FraudOp → Prop
  | .applyFraudProof proof currentBlock =>
    (s.registry.applyFraudProof cr proof currentBlock).2 = .ok true →
      ∀ c sc, proof.affectedChain = some c →
        (s.registry.applyFraudProof cr proof currentBlock).1.sidechains.find? c = some sc →
          Backed sc.validators (s.convict cr proof currentBlock)
  | _ => True

/-- The check, if it reports this record for fraud, reports a backed chain. -/
def FairAt (sc : SidechainInfo) (proven : Finset AccountId) : Prop :=
  sc.governanceFailures < governanceFailureThreshold → Reaches sc.slashedValidatorsCount sc.validators →
    Backed sc.validators proven

/-- The records of these chains are fair with the validators they are due, which they get in turn, up
to the first chain that is missing or due none. -/
def FairlyAssigned (proven : Finset AccountId) : List ChainId → ChainRegistry → Prop
  | [], _ => True
  | c :: rest, g => ∀ sc v, g.sidechains.find? c = some sc → g.dueValidators c sc = .ok v →
      FairAt { sc with validators := v } proven ∧
        FairlyAssigned proven rest { g with sidechains := g.sidechains.insert c { sc with validators := v } }

/-- The same for the chains of a host whose pool is changed by `f`. -/
def FairPool (proven : Finset AccountId) (order : IterOrder ChainId) (g : ChainRegistry) (h : ChainId)
    (f : HostChainInfo → Except ChainTypeError HostChainInfo) : Prop :=
  ∀ host host', g.hostchains.find? h = some host → f host = .ok host' →
    FairlyAssigned proven (order.iter (g.sidechainToHost.filter fun _ i => decide (i = h)).keys)
      { g with hostchains := g.hostchains.insert h host' }

/-- A call that raises a count, shows one that governance failures have hidden, or gives a chain other
validators: the count is less than a third of the validators, or a third of them are proven. -/
def Sustained (cr : Crypto) (s : Prosecution) : FraudOp → Prop
  | .registry (.slashValidator c _) =>
    ∀ sc, s.registry.sidechains.find? c = some sc → sc.governanceFailures < governanceFailureThreshold →
      Reaches (sc.slashedValidatorsCount + 1) sc.validators → Backed sc.validators s.proven
  | .registry (.resetGovernanceFailures c) =>
    ∀ sc, s.registry.sidechains.find? c = some sc →
      Reaches sc.slashedValidatorsCount sc.validators → Backed sc.validators s.proven
  | .registry (.assignValidators c) => FairlyAssigned s.proven [c] s.registry
  | .registry (.addValidatorToChain c v) =>
    ∀ sc sc', s.registry.sidechains.find? c = some sc → sc.securityMode = .sovereign →
      sc.addValidator v = .ok sc' → FairAt sc' s.proven
  | .registry (.removeValidatorFromChain c v) =>
    ∀ sc sc', s.registry.sidechains.find? c = some sc → sc.securityMode = .sovereign →
      sc.removeValidator v = .ok sc' → FairAt sc' s.proven
  | .registry (.addValidatorToHostchain order h v) =>
    FairPool s.proven order s.registry h fun host => host.addValidator v
  | .registry (.removeValidatorFromHostchain order h v) =>
    FairPool s.proven order s.registry h fun host => host.removeValidator v
  | .registry _ => True
  | .verifyFraudProof proof b =>
    proof.convicts cr b = true → ∀ c sc, proof.affectedChain = some c →
      s.registry.sidechains.find? c = some sc → sc.governanceFailures < governanceFailureThreshold →
        Reaches (sc.slashedValidatorsCount + 1) sc.validators →
          Backed sc.validators (insert proof.accusedValidator s.proven)
  | .applyFraudProof proof b =>
    proof.convicts cr b = true → ∀ c sc, proof.affectedChain = some c →
      s.registry.sidechains.find? c = some sc →
        (sc.governanceFailures < governanceFailureThreshold ∧
            Reaches (sc.slashedValidatorsCount + 1) sc.validators ∨
          purgeable sc ∧ Overdue (sc.slashedValidatorsCount + 1) sc.validators) →
          Backed sc.validators (insert proof.accusedValidator s.proven)

theorem fair_iff (s : Prosecution) :
    s.Fair ↔ ∀ c sc, s.registry.sidechains.find? c = some sc → FairAt sc s.proven := by
  constructor
  · intro h c sc hf hgov hreach
    exact h c 0 sc (checkPurgeTriggers_zero s.registry c sc hf hgov hreach) hf
  · intro h c b sc hreport hf
    obtain ⟨sc', hf', hgov, hreach⟩ := checkPurgeTriggers_fraud s.registry c b hreport
    rw [hf] at hf'
    cases hf'
    exact h c sc hf hgov hreach

theorem FairAt.mono {sc : SidechainInfo} {proven proven' : Finset AccountId} (h : FairAt sc proven)
    (hsub : proven ⊆ proven') : FairAt sc proven' :=
  fun hgov hreach => (h hgov hreach).mono hsub

theorem fair_new : new.Fair := by
  intro c b sc _ hf
  cases hf

/-- No record has changed. -/
theorem Fair.grow {s t : Prosecution} (h : s.Fair) (hs : t.registry.sidechains = s.registry.sidechains)
    (hsub : s.proven ⊆ t.proven) : t.Fair := by
  rw [fair_iff] at h ⊢
  intro c sc hf
  rw [hs] at hf
  exact (h c sc hf).mono hsub

/-- One record was written. -/
theorem Fair.insert_iff {s t : Prosecution} (h : s.Fair) (c : ChainId) (sc' : SidechainInfo)
    (hs : t.registry.sidechains = s.registry.sidechains.insert c sc') (hsub : s.proven ⊆ t.proven) :
    t.Fair ↔ FairAt sc' t.proven := by
  rw [fair_iff] at h ⊢
  constructor
  · intro ht
    exact ht c sc' (by rw [hs, SortedMap.find?_insert_self])
  · intro hc i r hr
    rw [hs, SortedMap.find?_insert] at hr
    by_cases hi : i = c
    · rw [if_pos hi] at hr
      obtain rfl := Option.some.inj hr
      exact hc
    · rw [if_neg hi] at hr
      exact (h i r hr).mono hsub

theorem subset_convict (cr : Crypto) (s : Prosecution) (proof : FraudProof) (b : Nat) :
    s.proven ⊆ s.convict cr proof b := by
  unfold convict
  split
  · exact Finset.subset_insert _ _
  · exact subset_rfl

/-- A call that rewrites one record. -/
theorem rewrite_fair_iff {α : Type} (s t : Prosecution) (h : s.Fair) (c : ChainId)
    (f : SidechainInfo → Except ChainError (SidechainInfo × α))
    (ht : t.registry = ((s.registry.withSidechain c f).map Prod.fst).orKeep s.registry) (hp : t.proven = s.proven) :
    t.Fair ↔ ∀ sc sc' a, s.registry.sidechains.find? c = some sc → f sc = .ok (sc', a) → FairAt sc' s.proven := by
  cases hw : s.registry.withSidechain c f with
  | error e =>
    rw [hw] at ht
    refine iff_of_true (h.grow (congrArg ChainRegistry.sidechains ht) hp.ge) ?_
    intro sc sc' a hf hr
    unfold withSidechain at hw
    simp only [hf, hr] at hw
    cases hw
  | ok r =>
    obtain ⟨sc, sc', hf, hr, hnext⟩ := withSidechain_ok s.registry r.1 c f r.2 hw
    rw [hw] at ht
    have hs : t.registry.sidechains = s.registry.sidechains.insert c sc' := by
      rw [ht]
      exact congrArg ChainRegistry.sidechains hnext
    rw [h.insert_iff c sc' hs hp.ge, hp]
    constructor
    · intro hfair i i' a hi hri
      rw [hf] at hi
      cases hi
      rw [hr] at hri
      cases hri
      exact hfair
    · exact fun hall => hall sc sc' r.2 hf hr

theorem slash_fair_iff (cr : Crypto) (s : Prosecution) (h : s.Fair) (c : ChainId) (v : AccountId) :
    (s.apply cr (.registry (.slashValidator c v))).Fair ↔ s.Sustained cr (.registry (.slashValidator c v)) := by
  refine (rewrite_fair_iff s (s.apply cr _) h c _ rfl rfl).trans ?_
  constructor
  · exact fun hall sc hf => hall sc _ () hf rfl
  · rintro hq sc sc' a hf ⟨⟩
    exact hq sc hf

theorem reset_fair_iff (cr : Crypto) (s : Prosecution) (h : s.Fair) (c : ChainId) :
    (s.apply cr (.registry (.resetGovernanceFailures c))).Fair ↔
      s.Sustained cr (.registry (.resetGovernanceFailures c)) := by
  refine (rewrite_fair_iff s (s.apply cr _) h c _ rfl rfl).trans ?_
  constructor
  · intro hall sc hf hreach
    exact hall sc { sc with governanceFailures := 0 } () hf rfl (show 0 < 3 by decide) hreach
  · rintro hq sc sc' a hf ⟨⟩ - hreach
    exact hq sc hf hreach

/-- A sovereign chain that changes its validators by `change`. -/
theorem change_fair_iff (s t : Prosecution) (h : s.Fair) (c : ChainId)
    (change : SidechainInfo → Except ChainTypeError SidechainInfo)
    (ht : t.registry = ((s.registry.withSidechain c fun sc =>
      if sc.securityMode ≠ .sovereign then .error .invalidSecurityMode
      else
        match change sc with
        | .error e => .error (.chainTypeError e)
        | .ok sc => .ok (sc, ())).map Prod.fst).orKeep s.registry) (hp : t.proven = s.proven) :
    t.Fair ↔ ∀ sc sc', s.registry.sidechains.find? c = some sc → sc.securityMode = .sovereign →
      change sc = .ok sc' → FairAt sc' s.proven := by
  rw [rewrite_fair_iff s t h c _ ht hp]
  constructor
  · intro hall sc sc' hf hmode hchange
    refine hall sc sc' () hf ?_
    rw [if_neg (not_not.mpr hmode), hchange]
  · intro hq sc sc' a hf hr
    split at hr
    · cases hr
    next hmode =>
    split at hr
    · cases hr
    next hchange =>
    cases hr
    exact hq sc sc' hf (not_not.mp hmode) hchange

theorem assign_fair_iff (s t : Prosecution) (h : s.Fair) (c : ChainId)
    (ht : t.registry = ((s.registry.assignValidators c).map Prod.fst).orKeep s.registry) (hp : t.proven = s.proven) :
    t.Fair ↔ ∀ sc v, s.registry.sidechains.find? c = some sc → s.registry.dueValidators c sc = .ok v →
      FairAt { sc with validators := v } s.proven := by
  rw [rewrite_fair_iff s t h c _ ht hp]
  constructor
  · intro hall sc v hf hdue
    refine hall sc _ v hf ?_
    rw [hdue]
  · intro hq sc sc' a hf hr
    split at hr
    · cases hr
    next hdue =>
    cases hr
    exact hq sc _ hf hdue

/-- A chain that is not in the list keeps its record. -/
theorem reassign_find? (c : ChainId) (l : List ChainId) (hc : c ∉ l) (g : ChainRegistry) :
    (reassign l g).1.sidechains.find? c = g.sidechains.find? c := by
  induction l generalizing g with
  | nil => rfl
  | cons i l ih =>
    rw [List.mem_cons, not_or] at hc
    unfold reassign
    split
    · rfl
    · next t v ht =>
      obtain ⟨sc, sc', -, -, rfl⟩ := withSidechain_ok g t i _ v ht
      rw [ih hc.2]
      exact SortedMap.find?_insert_ne _ _ _ _ hc.1

/-- **Loop.**  No chain gets validators twice, so a chain that is unfair when it gets its own stays so. -/
theorem reassign_fair_iff (l : List ChainId) (hl : l.Nodup) (s : Prosecution) (h : s.Fair) :
    Fair { s with registry := (reassign l s.registry).1 } ↔ FairlyAssigned s.proven l s.registry := by
  induction l generalizing s with
  | nil => exact iff_of_true h trivial
  | cons c l ih =>
    rw [List.nodup_cons] at hl
    unfold reassign FairlyAssigned
    cases ha : s.registry.assignValidators c with
    | error e =>
      refine iff_of_true h ?_
      intro sc v hf hdue
      unfold assignValidators withSidechain at ha
      simp only [hf, hdue] at ha
      cases ha
    | ok r =>
      obtain ⟨sc, sc', hf, hr, hnext⟩ := withSidechain_ok s.registry r.1 c _ r.2 ha
      split at hr
      · cases hr
      next v hdue =>
      cases hr
      have hstep : Fair { s with registry := r.1 } ↔ FairAt { sc with validators := r.2 } s.proven :=
        h.insert_iff c _ (congrArg ChainRegistry.sidechains hnext) subset_rfl
      constructor
      · intro hfair i w hi hw
        rw [hf] at hi
        cases hi
        rw [hdue] at hw
        cases hw
        have hkept : (reassign l r.1).1.sidechains.find? c = some { sc with validators := r.2 } := by
          rw [reassign_find? c l hl.1, hnext]
          exact s.registry.sidechains.find?_insert_self c _
        have hat := (fair_iff _).mp hfair c _ hkept
        have hrest := (ih hl.2 { s with registry := r.1 } (hstep.mpr hat)).mp hfair
        rw [hnext] at hrest
        exact ⟨hat, hrest⟩
      · intro hq
        obtain ⟨hat, hrest⟩ := hq sc r.2 hf hdue
        rw [← hnext] at hrest
        exact (ih hl.2 { s with registry := r.1 } (hstep.mpr hat)).mpr hrest

theorem changePool_fair_iff (s t : Prosecution) (h : s.Fair) (order : IterOrder ChainId) (i : ChainId)
    (f : HostChainInfo → Except ChainTypeError HostChainInfo) (ht : t.registry = (changePool order s.registry i f).1)
    (hp : t.proven = s.proven) : t.Fair ↔ FairPool s.proven order s.registry i f := by
  have hsame : t = { s with registry := (changePool order s.registry i f).1 } := by
    cases t
    cases ht
    cases hp
    rfl
  rw [hsame]
  unfold changePool FairPool
  cases hhost : s.registry.hostchains.find? i with
  | none =>
    refine iff_of_true h ?_
    rintro host host' ⟨⟩
  | some host =>
    cases hchange : f host with
    | error e =>
      simp only [hchange]
      refine iff_of_true h ?_
      rintro host host' ⟨⟩ hok
      rw [hchange] at hok
      cases hok
    | ok host' =>
      have hnodup : (order.iter (s.registry.sidechainToHost.filter fun _ j => decide (j = i)).keys).Nodup :=
        (order.perm _).nodup_iff.mpr (SortedMap.keys_nodup _)
      have hloop := reassign_fair_iff _ hnodup
        { s with registry := { s.registry with hostchains := s.registry.hostchains.insert i host' } }
        (h.grow rfl subset_rfl)
      simp only [hchange]
      rw [hloop]
      constructor
      · rintro hq host₂ host₂' ⟨⟩ hok
        rw [hchange] at hok
        cases hok
        exact hq
      · exact fun hq => hq host host' rfl hchange

/-- The calls that judge no chain. -/
theorem Fair.tame {s t : Prosecution} (h : s.Fair) (ht : s.registry.Tame t.registry) (hp : t.proven = s.proven) :
    t.Fair := by
  rw [fair_iff] at h ⊢
  rw [hp]
  intro c sc' hf hgov hreach
  rcases ht c sc' hf with hzero | ⟨sc, hf', htame⟩
  · rw [hzero] at hreach
    exact absurd hreach (not_reaches_zero sc'.validators)
  · rw [htame.validators, htame.count] at hreach
    rw [htame.validators]
    exact h c sc hf' (lt_of_le_of_lt htame.failures hgov) hreach

theorem verify_fair_iff (cr : Crypto) (s : Prosecution) (h : s.Fair) (proof : FraudProof) (b : Nat) :
    (s.apply cr (.verifyFraudProof proof b)).Fair ↔ s.Sustained cr (.verifyFraudProof proof b) := by
  have hsub := s.subset_convict cr proof b
  rcases verifyFraudProof_cases cr s.registry proof b with
    ⟨e, hv, hwhy⟩ | ⟨hconvicts, ⟨hc, v, hv⟩ | ⟨c, sc, hc, hf, v, hv⟩⟩
  · have hsame : (s.apply cr (.verifyFraudProof proof b)).registry = s.registry := by
      simp only [apply, hv]
      rfl
    refine iff_of_true (h.grow (congrArg ChainRegistry.sidechains hsame) hsub) ?_
    intro hconvicts c sc hc hf
    rcases hwhy with hwhy | ⟨c', hc', hf'⟩
    · rw [hwhy] at hconvicts
      cases hconvicts
    · rw [hc] at hc'
      cases hc'
      rw [hf] at hf'
      cases hf'
  · have hsame : (s.apply cr (.verifyFraudProof proof b)).registry = s.registry := by
      simp only [apply, hv]
      rfl
    refine iff_of_true (h.grow (congrArg ChainRegistry.sidechains hsame) hsub) ?_
    intro _ c sc hc'
    rw [hc] at hc'
    cases hc'
  · have hnext : (s.apply cr (.verifyFraudProof proof b)).registry.sidechains =
        s.registry.sidechains.insert c (countSlash sc) := by
      simp only [apply, hv]
      rfl
    have hproven : (s.apply cr (.verifyFraudProof proof b)).proven = insert proof.accusedValidator s.proven := by
      simp only [apply, convict, hconvicts, if_true]
    rw [h.insert_iff c (countSlash sc) hnext hsub, hproven]
    constructor
    · intro hfair _ c' sc' hc' hf'
      rw [hc] at hc'
      cases hc'
      rw [hf] at hf'
      cases hf'
      exact hfair
    · exact fun hq => hq hconvicts c sc hc hf

theorem applyFraudProof_fair_iff (cr : Crypto) (s : Prosecution) (h : s.Fair) (proof : FraudProof) (b : Nat) :
    (s.apply cr (.applyFraudProof proof b)).Fair ∧ s.FairPurge cr (.applyFraudProof proof b) ↔
      s.Sustained cr (.applyFraudProof proof b) := by
  have hsub := s.subset_convict cr proof b
  rcases applyFraudProof_cases cr s.registry proof b with
    ⟨hsame, hno, hwhy⟩ | ⟨hconvicts, c, sc, sc', hc, hf, hnext, hcount, hvalidators, hgov, hreport, -⟩
  · refine iff_of_true ⟨h.grow (congrArg ChainRegistry.sidechains hsame) hsub, fun hok => absurd hok hno⟩ ?_
    exact fun hconvicts c sc hc hf => absurd ⟨hconvicts, c, sc, hc, hf⟩ hwhy
  · have hproven : s.convict cr proof b = insert proof.accusedValidator s.proven := by
      simp only [convict, hconvicts, if_true]
    have hfair : (s.apply cr (.applyFraudProof proof b)).Fair ↔
        (sc.governanceFailures < governanceFailureThreshold →
          Reaches (sc.slashedValidatorsCount + 1) sc.validators →
            Backed sc.validators (insert proof.accusedValidator s.proven)) := by
      rw [h.insert_iff (t := s.apply cr (.applyFraudProof proof b)) c sc' hnext hsub]
      show FairAt sc' (s.convict cr proof b) ↔ _
      unfold FairAt
      rw [hgov, hcount, hvalidators, hproven]
    have hpurge : s.FairPurge cr (.applyFraudProof proof b) ↔
        (purgeable sc → Overdue (sc.slashedValidatorsCount + 1) sc.validators →
          Backed sc.validators (insert proof.accusedValidator s.proven)) := by
      rw [FairPurge, hreport, hproven]
      constructor
      · intro hok hpurgeable hoverdue
        have := hok ⟨hoverdue, hpurgeable⟩ c sc' hc (by rw [hnext, SortedMap.find?_insert_self])
        rwa [hvalidators] at this
      · rintro hq ⟨hoverdue, hpurgeable⟩ c' r hc' hr
        rw [hc] at hc'
        cases hc'
        rw [hnext, SortedMap.find?_insert_self] at hr
        cases hr
        rw [hvalidators]
        exact hq hpurgeable hoverdue
    rw [hfair, hpurge]
    constructor
    · rintro ⟨hcheck, hreported⟩ _ c' r hc' hf' hwhich
      rw [hc] at hc'
      cases hc'
      rw [hf] at hf'
      cases hf'
      rcases hwhich with ⟨hgov, hreach⟩ | ⟨hpurgeable, hoverdue⟩
      · exact hcheck hgov hreach
      · exact hreported hpurgeable hoverdue
    · intro hq
      have := hq hconvicts c sc hc hf
      exact ⟨fun hgov hreach => this (Or.inl ⟨hgov, hreach⟩),
        fun hpurgeable hoverdue => this (Or.inr ⟨hpurgeable, hoverdue⟩)⟩

/-- **Step lemma.**  The calls that keep the reports fair. -/
theorem apply_fair_iff (cr : Crypto) (s : Prosecution) (h : s.Fair) (op : FraudOp) :
    (s.apply cr op).Fair ∧ s.FairPurge cr op ↔ s.Sustained cr op := by
  cases op with
  | registry op =>
    rw [FairPurge, and_true]
    · cases op with
      | slashValidator c v => exact slash_fair_iff cr s h c v
      | resetGovernanceFailures c => exact reset_fair_iff cr s h c
      | assignValidators c =>
        refine (assign_fair_iff s (s.apply cr _) h c rfl rfl).trans ?_
        exact forall₄_congr fun _ _ _ _ => (and_iff_left trivial).symm
      | addValidatorToChain c v => exact change_fair_iff s _ h c (fun sc => sc.addValidator v) rfl rfl
      | removeValidatorFromChain c v => exact change_fair_iff s _ h c (fun sc => sc.removeValidator v) rfl rfl
      | addValidatorToHostchain order i v => exact changePool_fair_iff s _ h order i _ rfl rfl
      | removeValidatorFromHostchain order i v => exact changePool_fair_iff s _ h order i _ rfl rfl
      | _ => exact iff_of_true (h.tame (apply_tame cr s.registry _ rfl) rfl) trivial
    · intro proof b hop
      cases hop
  | verifyFraudProof proof b =>
    rw [FairPurge, and_true]
    · exact verify_fair_iff cr s h proof b
    · intro proof b hop
      cases hop
  | applyFraudProof proof b => exact applyFraudProof_fair_iff cr s h proof b

/-- A counted proof against a chain that can no longer be purged, whose count it brings to a third of
the validators. -/
def Stuck (cr : Crypto) (g : ChainRegistry) (proof : FraudProof) (currentBlock : Nat) : Prop :=
  proof.convicts cr currentBlock = true ∧ ∃ c sc, proof.affectedChain = some c ∧ g.sidechains.find? c = some sc ∧
    Overdue (sc.slashedValidatorsCount + 1) sc.validators ∧ ¬purgeable sc

/-- A failed call with a proof leaves the registry as it was unless it is stuck. -/
theorem applyFraudProof_unchanged_iff (cr : Crypto) (g : ChainRegistry) (proof : FraudProof) (b : Nat) :
    (∀ e, (g.applyFraudProof cr proof b).2 = .error e → (g.applyFraudProof cr proof b).1 = g) ↔
      ¬Stuck cr g proof b := by
  rcases applyFraudProof_cases cr g proof b with
    ⟨hsame, -, hwhy⟩ | ⟨hconvicts, c, sc, sc', hc, hf, hnext, hcount, -, -, -, herror⟩
  · refine iff_of_true (fun _ _ => hsame) ?_
    rintro ⟨hconvicts, c, sc, hc, hf, -⟩
    exact hwhy ⟨hconvicts, c, sc, hc, hf⟩
  · constructor
    · rintro hkeeps ⟨-, c', r, hc', hf', hstuck⟩
      rw [hc] at hc'
      cases hc'
      rw [hf] at hf'
      cases hf'
      obtain ⟨e, he⟩ := herror.mpr hstuck
      have hfind := congrArg (fun u : ChainRegistry => u.sidechains.find? c) (hkeeps e he)
      simp only [hnext, SortedMap.find?_insert_self, hf] at hfind
      rw [Option.some.inj hfind] at hcount
      omega
    · intro hstuck e he
      exact absurd ⟨hconvicts, c, sc, hc, hf, herror.mp ⟨e, he⟩⟩ hstuck

/-- An exit claim for chain 1 that gives more than the actual balance. -/
def sampleExit : FraudProof :=
  let claim := SidechainInfo.new ⟨1⟩ none ⟨9⟩ none none .sovereign 0 0
  let leaf := MerkleProof.mk [] 0 [] (Crypto.sample.blake3 []) 0 ⟨1⟩
  .invalidExit ⟨1⟩ claim (.inflatedBalance 1000 5000) leaf 0

/-- Chain 1 gets three validators. -/
def sampleThree : List FraudOp :=
  [.registry (.createSidechain ⟨9⟩ none none none .sovereign none 10000 0),
    .registry (.addValidatorToChain ⟨1⟩ ⟨5⟩), .registry (.addValidatorToChain ⟨1⟩ ⟨6⟩),
    .registry (.addValidatorToChain ⟨1⟩ ⟨7⟩)]

/-- The chain before and after its proof. -/
def sampleUnpurged : Prosecution := sampleThree.foldl (apply Crypto.sample) new
def samplePurged : Prosecution := sampleUnpurged.apply Crypto.sample (.applyFraudProof sampleExit 10)

end Prosecution

end Kratos
