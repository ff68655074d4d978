import Kratos.Lib.SortedMap
import Kratos.Types.Primitives

/-!
# Validator set

Validators, the registry of their roles, and the votes that admit early
validators during the bootstrap era.  An operation that can fail after it has
written something returns the set as it leaves it; the others return a new set
or an error.

An author that is not active is made active by `ensureBootstrapValidator`, so
that call always changes the set (`ensureBootstrapValidator_ne`).  None of the
operations here raises the stake of an entry: whatever they add has stake zero
(`KeepsStakes`).
-/

namespace Kratos

def minValidatorStake : Balance := 50000 * krat

/-- Blocks of the bootstrap era: 60 days of 6 s slots. -/
def bootstrapEraBlocks : Nat := 864000

/-- Blocks before unbonded funds can be withdrawn: 28 days of 6 s slots. -/
def unbondingPeriod : Nat := 403200

def maxEarlyValidators : Nat := 21

def candidacyExpiration : Nat := 100800

/-! ## Roles -/

inductive NetworkRole where
  | validator
  | juror
  | contributor
deriving DecidableEq, Repr

inductive RoleMetadata where
  | validator (stake : Balance) (isBootstrap : Bool)
  | juror (disputeId : Hash) (validatorCredits : Nat)
  | contributor (registrationId grantedByProposal : Hash)
deriving DecidableEq, Repr

structure NetworkRoleEntry where
  role : NetworkRole
  account : AccountId
  scope : Option ChainId
  grantedAt : Nat
  expiresAt : Option Nat
  active : Bool
  metadata : RoleMetadata
deriving DecidableEq, Repr

def NetworkRoleEntry.newValidator (account : AccountId) (stake : Balance) (isBootstrap : Bool)
    (currentBlock : Nat) : NetworkRoleEntry :=
  { role := .validator, account, scope := none, grantedAt := currentBlock, expiresAt := none
    active := true, metadata := .validator stake isBootstrap }

/-- Role entries by account, and the accounts that are validators. -/
structure NetworkRoleRegistry where
  entries : SortedMap AccountId (List NetworkRoleEntry)
  validators : List AccountId
deriving DecidableEq

inductive RoleRegistryError where
  | alreadyRegistered
  | notFound
deriving DecidableEq, Repr

namespace NetworkRoleRegistry

def new : NetworkRoleRegistry := { entries := .empty, validators := [] }

def isValidator (r : NetworkRoleRegistry) (account : AccountId) : Bool := r.validators.contains account

def registerValidator (r : NetworkRoleRegistry) (account : AccountId) (stake : Balance)
    (isBootstrap : Bool) (currentBlock : Nat) : Except RoleRegistryError NetworkRoleRegistry :=
  if r.isValidator account then .error .alreadyRegistered
  else
    let entry := NetworkRoleEntry.newValidator account stake isBootstrap currentBlock
    .ok { entries := r.entries.insert account ((r.entries.find? account).getD [] ++ [entry])
          validators := r.validators ++ [account] }

end NetworkRoleRegistry

/-! ## Validators -/

inductive ValidatorStatus where
  | active
  | inactive
  | unbonding
  | slashed
  | jailed
deriving DecidableEq, Repr

structure ValidatorInfo where
  id : AccountId
  stake : Balance
  status : ValidatorStatus
  reputation : Nat
  blocksProduced : Nat
  blocksMissed : Nat
  slashCount : Nat
  totalSlashed : Balance
  registeredAt : Nat
  unbondingAt : Option Nat
  isBootstrapValidator : Bool
deriving DecidableEq, Repr

namespace ValidatorInfo

def new (id : AccountId) (stake : Balance) (block : Nat) : ValidatorInfo :=
  { id, stake, status := .active, reputation := 100, blocksProduced := 0, blocksMissed := 0
    slashCount := 0, totalSlashed := 0, registeredAt := block, unbondingAt := none
    isBootstrapValidator := false }

/-- A validator without stake. -/
def newBootstrap (id : AccountId) (block : Nat) : ValidatorInfo :=
  { new id 0 block with isBootstrapValidator := true }

def canParticipate (v : ValidatorInfo) : Bool :=
  decide (v.status = .active) && (decide (v.stake ≥ minValidatorStake) || v.isBootstrapValidator) &&
    decide (v.reputation > 0)

end ValidatorInfo

inductive CandidacyStatus where
  | pending
  | approved
  | rejected
  | expired
deriving DecidableEq, Repr

structure EarlyValidatorCandidate where
  candidate : AccountId
  proposer : AccountId
  voters : Finset AccountId
  votesRequired : Nat
  createdAt : Nat
  status : CandidacyStatus
  approvedAt : Option Nat
deriving DecidableEq

namespace EarlyValidatorCandidate

/-- The proposer votes for its candidate. -/
def new (candidate proposer : AccountId) (votesRequired createdAt : Nat) : EarlyValidatorCandidate :=
  { candidate, proposer, voters := {proposer}, votesRequired, createdAt, status := .pending
    approvedAt := none }

def hasQuorum (c : EarlyValidatorCandidate) : Bool := decide (c.voters.card ≥ c.votesRequired)

def isExpired (c : EarlyValidatorCandidate) (currentBlock : Nat) : Bool :=
  decide (currentBlock > c.createdAt + candidacyExpiration)

end EarlyValidatorCandidate

inductive ValidatorError where
  | insufficientStake
  | notFound
  | alreadyRegistered
  | cannotParticipate
  | bootstrapEnded
  | maxValidatorsReached
  | notValidator
  | candidacyExists
  | candidacyNotFound
  | candidacyExpired
  | candidacyNotPending
  | alreadyVoted
  | insufficientVotes
deriving DecidableEq, Repr

structure ValidatorSet where
  validators : SortedMap AccountId ValidatorInfo
  totalStake : Balance
  roleRegistry : NetworkRoleRegistry
  earlyCandidates : SortedMap AccountId EarlyValidatorCandidate
deriving DecidableEq

namespace ValidatorSet

def new : ValidatorSet :=
  { validators := .empty, totalStake := 0, roleRegistry := .new, earlyCandidates := .empty }

def addValidator (v : ValidatorSet) (info : ValidatorInfo) : Except ValidatorError ValidatorSet :=
  if info.stake < minValidatorStake ∧ info.isBootstrapValidator = false then .error .insufficientStake
  else
    match v.roleRegistry.registerValidator info.id info.stake info.isBootstrapValidator
        info.registeredAt with
    | .error .alreadyRegistered => .error .alreadyRegistered
    | .error _ => .error .cannotParticipate
    | .ok roleRegistry =>
      .ok { v with roleRegistry, totalStake := Word.satAdd v.totalStake info.stake
                   validators := v.validators.insert info.id info }

/-- Registered and active afterwards, known before or not. -/
def ensureBootstrapValidator (v : ValidatorSet) (id : AccountId) (block : Nat) :
    Except ValidatorError ValidatorSet :=
  match v.validators.find? id with
  | some existing =>
    if existing.canParticipate = false then
      let existing := { existing with isBootstrapValidator := true, status := .active, reputation := 100 }
      .ok { v with validators := v.validators.insert id existing }
    else .ok v
  | none =>
    let info := ValidatorInfo.newBootstrap id block
    match v.roleRegistry.registerValidator info.id info.stake info.isBootstrapValidator
        info.registeredAt with
    | .ok roleRegistry =>
      .ok { v with roleRegistry, totalStake := Word.satAdd v.totalStake info.stake
                   validators := v.validators.insert id info }
    | .error .alreadyRegistered =>
      -- already in the registry: only the map of validators lacks it
      .ok { v with totalStake := Word.satAdd v.totalStake info.stake
                   validators := v.validators.insert id info }
    | .error _ => .error .cannotParticipate

def activeCount (v : ValidatorSet) : Nat :=
  (v.validators.values.filter ValidatorInfo.canParticipate).length

def isActive (v : ValidatorSet) (id : AccountId) : Bool :=
  ((v.validators.find? id).map ValidatorInfo.canParticipate).getD false

def isBootstrapEra (currentBlock : Nat) : Bool := decide (currentBlock < bootstrapEraBlocks)

/-! ## Early validators -/

def votesRequiredForNewValidator (v : ValidatorSet) : Nat :=
  let currentCount := v.activeCount
  if currentCount ≤ 2 then 1
  else if currentCount ≤ 5 then 3
  else if currentCount ≤ 10 then 4
  else 5

def getCandidate (v : ValidatorSet) (candidate : AccountId) : Option EarlyValidatorCandidate :=
  v.earlyCandidates.find? candidate

def proposeEarlyValidator (v : ValidatorSet) (candidate proposer : AccountId) (currentBlock : Nat) :
    Except ValidatorError ValidatorSet :=
  if isBootstrapEra currentBlock = false then .error .bootstrapEnded
  else if v.activeCount ≥ maxEarlyValidators then .error .maxValidatorsReached
  else if v.isActive proposer = false then .error .notValidator
  else if v.validators.contains candidate then .error .alreadyRegistered
  else if v.earlyCandidates.contains candidate then .error .candidacyExists
  else
    let candidacy := EarlyValidatorCandidate.new candidate proposer v.votesRequiredForNewValidator
      currentBlock
    .ok { v with earlyCandidates := v.earlyCandidates.insert candidate candidacy }

/-- Whether the vote reached the quorum.  A vote for an expired candidacy is
refused and marks it as expired. -/
def voteEarlyValidator (v : ValidatorSet) (candidate voter : AccountId) (currentBlock : Nat) :
    ValidatorSet × Except ValidatorError Bool :=
  if isBootstrapEra currentBlock = false then (v, .error .bootstrapEnded)
  else if v.isActive voter = false then (v, .error .notValidator)
  else
    match v.earlyCandidates.find? candidate with
    | none => (v, .error .candidacyNotFound)
    | some candidacy =>
      if candidacy.isExpired currentBlock then
        let candidacy := { candidacy with status := .expired }
        ({ v with earlyCandidates := v.earlyCandidates.insert candidate candidacy },
          .error .candidacyExpired)
      else if candidacy.status ≠ .pending then (v, .error .candidacyNotPending)
      else if voter ∈ candidacy.voters then (v, .error .alreadyVoted)
      else
        let candidacy := { candidacy with voters := insert voter candidacy.voters }
        ({ v with earlyCandidates := v.earlyCandidates.insert candidate candidacy },
          .ok candidacy.hasQuorum)

def approveEarlyValidator (v : ValidatorSet) (candidate : AccountId) (currentBlock : Nat) :
    Except ValidatorError ValidatorSet :=
  match v.earlyCandidates.find? candidate with
  | none => .error .candidacyNotFound
  | some candidacy =>
    if candidacy.hasQuorum = false then .error .insufficientVotes
    else if candidacy.status ≠ .pending then .error .candidacyNotPending
    else
      match v.addValidator (ValidatorInfo.newBootstrap candidate currentBlock) with
      | .error e => .error e
      | .ok v =>
        let candidacy := { candidacy with status := .approved, approvedAt := some currentBlock }
        .ok { v with earlyCandidates := v.earlyCandidates.insert candidate candidacy }

/-! ## Activity -/

theorem canParticipate_newBootstrap (id : AccountId) (block : Nat) :
    (ValidatorInfo.newBootstrap id block).canParticipate = true := by
  simp [ValidatorInfo.canParticipate, ValidatorInfo.newBootstrap, ValidatorInfo.new]

theorem isActive_insert_self (v w : ValidatorSet) (id : AccountId) (info : ValidatorInfo)
    (hw : w.validators = v.validators.insert id info) : w.isActive id = info.canParticipate := by
  unfold isActive
  rw [hw, SortedMap.find?_insert_self]
  rfl

/-- The call cannot fail: the only error of a registration is ignored. -/
theorem ensureBootstrapValidator_ok (v : ValidatorSet) (id : AccountId) (block : Nat) :
    ∃ w, v.ensureBootstrapValidator id block = .ok w ∧ w.isActive id = true := by
  unfold ensureBootstrapValidator
  cases hf : v.validators.find? id with
  | some existing =>
    simp only
    split
    · refine ⟨_, rfl, ?_⟩
      rw [isActive_insert_self v _ id _ rfl]
      simp [ValidatorInfo.canParticipate]
    · next hp =>
      refine ⟨v, rfl, ?_⟩
      simpa [isActive, hf] using hp
  | none =>
    simp only [NetworkRoleRegistry.registerValidator]
    by_cases hr : v.roleRegistry.isValidator (ValidatorInfo.newBootstrap id block).id
    · rw [if_pos hr]
      refine ⟨_, rfl, ?_⟩
      rw [isActive_insert_self v _ id _ rfl]
      exact canParticipate_newBootstrap id block
    · rw [if_neg hr]
      refine ⟨_, rfl, ?_⟩
      rw [isActive_insert_self v _ id _ rfl]
      exact canParticipate_newBootstrap id block

/-- An inactive author is made active, so the set is another one. -/
theorem ensureBootstrapValidator_ne (v w : ValidatorSet) (id : AccountId) (block : Nat)
    (h : v.isActive id = false) (hw : v.ensureBootstrapValidator id block = .ok w) : w ≠ v := by
  obtain ⟨w', hw', hact⟩ := v.ensureBootstrapValidator_ok id block
  rw [hw] at hw'
  obtain rfl : w = w' := Except.ok.inj hw'
  rintro rfl
  rw [h] at hact
  cases hact

/-! ## Stakes -/

/-- Every entry of `w` has stake zero or the id and stake of an entry of `v`. -/
def KeepsStakes (v w : ValidatorSet) : Prop :=
  ∀ info ∈ w.validators.values, info.stake = 0 ∨
    ∃ old ∈ v.validators.values, old.id = info.id ∧ old.stake = info.stake

theorem KeepsStakes.of_eq (v w : ValidatorSet) (h : w.validators = v.validators) : KeepsStakes v w := by
  intro info hi
  rw [h] at hi
  exact Or.inr ⟨info, hi, rfl, rfl⟩

theorem KeepsStakes.trans (u v w : ValidatorSet) (huv : KeepsStakes u v) (hvw : KeepsStakes v w) :
    KeepsStakes u w := by
  intro info hi
  rcases hvw info hi with hz | ⟨old, hold, hid, hstake⟩
  · exact Or.inl hz
  · rcases huv old hold with hz | ⟨older, holder, hid', hstake'⟩
    · exact Or.inl (hstake ▸ hz)
    · exact Or.inr ⟨older, holder, hid'.trans hid, hstake'.trans hstake⟩

/-- Inserting an entry without stake, or one that rewrites an entry with its id and stake. -/
theorem KeepsStakes.of_insert (v w : ValidatorSet) (id : AccountId) (info : ValidatorInfo)
    (hw : w.validators = v.validators.insert id info)
    (h : info.stake = 0 ∨ ∃ old ∈ v.validators.values, old.id = info.id ∧ old.stake = info.stake) :
    KeepsStakes v w := by
  intro x hx
  rw [hw] at hx
  obtain ⟨e, he, rfl⟩ := List.mem_map.mp hx
  rcases SortedMap.mem_insertList id info _ e he with rfl | hold
  · exact h
  · exact Or.inr ⟨e.2, List.mem_map.mpr ⟨e, hold, rfl⟩, rfl, rfl⟩

theorem keepsStakes_addValidator (v w : ValidatorSet) (info : ValidatorInfo)
    (h : v.addValidator info = .ok w) (hz : info.stake = 0) : KeepsStakes v w := by
  unfold addValidator at h
  split at h
  · cases h
  · split at h <;> cases h
    exact KeepsStakes.of_insert v _ info.id info rfl (Or.inl hz)

theorem keepsStakes_ensureBootstrapValidator (v w : ValidatorSet) (id : AccountId) (block : Nat)
    (h : v.ensureBootstrapValidator id block = .ok w) : KeepsStakes v w := by
  unfold ensureBootstrapValidator at h
  split at h
  · next existing hf =>
    have hmem : existing ∈ v.validators.values :=
      List.mem_map.mpr ⟨(id, existing), (v.validators.mem_entries_iff id existing).mpr hf, rfl⟩
    split at h
    · cases h
      exact KeepsStakes.of_insert v _ id _ rfl (Or.inr ⟨existing, hmem, rfl, rfl⟩)
    · cases h
      exact KeepsStakes.of_eq v v rfl
  · simp only at h
    split at h
    · cases h
      exact KeepsStakes.of_insert v _ id _ rfl (Or.inl rfl)
    · cases h
      exact KeepsStakes.of_insert v _ id _ rfl (Or.inl rfl)
    · cases h

theorem validators_proposeEarlyValidator (v w : ValidatorSet) (candidate proposer : AccountId)
    (block : Nat) (h : v.proposeEarlyValidator candidate proposer block = .ok w) :
    w.validators = v.validators := by
  unfold proposeEarlyValidator at h
  repeat' split at h
  all_goals cases h
  rfl

theorem validators_voteEarlyValidator (v : ValidatorSet) (candidate voter : AccountId) (block : Nat) :
    (v.voteEarlyValidator candidate voter block).1.validators = v.validators := by
  unfold voteEarlyValidator
  repeat' split
  all_goals rfl

theorem keepsStakes_approveEarlyValidator (v w : ValidatorSet) (candidate : AccountId) (block : Nat)
    (h : v.approveEarlyValidator candidate block = .ok w) : KeepsStakes v w := by
  unfold approveEarlyValidator at h
  split at h
  · cases h
  · split at h
    · cases h
    · split at h
      · cases h
      · split at h
        · cases h
        · next added hadd =>
          cases h
          exact keepsStakes_addValidator v added _ hadd rfl

end ValidatorSet

end Kratos
