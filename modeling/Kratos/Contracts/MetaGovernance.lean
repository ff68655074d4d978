import Kratos.Lib.Run
import Kratos.Lib.SortedMap
import Kratos.Types.Protocol

/-!
# Meta-governance contract

Proposals to change the protocol parameters or the protocol version: signalling
by chains, a weighted vote, a timelock, execution.  An operation returns the
contract as it leaves it with its result, since two of them write before they
fail: `advanceToVoting` rejects the proposal, and `executeProposal` keeps what
the changes wrote before one of them failed.

Only an execution touches the parameters.  Their bounds hold in every reachable
contract; that they validate holds as long as no execution writes a value that
contradicts another parameter (`parameters_constitutional_iff`).
-/

namespace Kratos

def protocolUpgradeThreshold : Nat := 75

/-- 60 days. -/
def protocolUpgradeTimelock : Nat := 864000

def signalingPeriod : Nat := 201600

def chainAdoptionThreshold : Nat := 66

def emergencyTimelock : Nat := 100800

def maxBatchSize : Nat := 10

/-! ## Proposals -/

inductive UpgradeProposalType where
  | parameterChange (changes : List ParameterChange) (rationale : String)
  | versionUpgrade (newVersion : ProtocolVersion) (changelog : String) (breakingChanges : Bool)
  | emergencyChange (changes : List ParameterChange) (justification : String)

namespace UpgradeProposalType

def requiredThreshold : UpgradeProposalType → Nat
  | parameterChange .. => protocolUpgradeThreshold
  | versionUpgrade _ _ breakingChanges => if breakingChanges then 80 else protocolUpgradeThreshold
  | emergencyChange .. => 80

def timelock : UpgradeProposalType → Nat
  | parameterChange .. => protocolUpgradeTimelock
  | versionUpgrade .. => protocolUpgradeTimelock
  | emergencyChange .. => emergencyTimelock

def requiresSignaling : UpgradeProposalType → Bool
  | versionUpgrade .. => true
  | _ => false

end UpgradeProposalType

inductive UpgradeStatus where
  | signaling
  | voting
  | approved
  | executionReady
  | executed
  | rejected
  | cancelled
  | constitutionallyRejected
deriving DecidableEq, Repr

structure ChainSignal where
  chainId : ChainId
  supports : Bool
  signaledAt : Nat
  validatorCount : Fin (2 ^ 32)
deriving DecidableEq, Repr

structure ImpactAnalysis where
  affectedSubsystems : List String
  backwardCompatible : Bool
  riskLevel : Nat
  rollbackDifficulty : Nat
  requiredNodeVersion : Option String
  migrationSteps : List String
  testSummary : String
deriving DecidableEq, Repr

namespace ImpactAnalysis

def minimal (subsystem : String) : ImpactAnalysis :=
  { affectedSubsystems := [subsystem], backwardCompatible := true, riskLevel := 1
    rollbackDifficulty := 1, requiredNodeVersion := none, migrationSteps := []
    testSummary := "Standard parameter change" }

def isComplete (a : ImpactAnalysis) : Bool :=
  !a.affectedSubsystems.isEmpty && decide (a.riskLevel ≥ 1) && decide (a.riskLevel ≤ 5) &&
    decide (a.rollbackDifficulty ≥ 1) && decide (a.rollbackDifficulty ≤ 5) && !a.testSummary.isEmpty

end ImpactAnalysis

structure UpgradeProposal where
  id : Hash
  proposer : AccountId
  proposalType : UpgradeProposalType
  status : UpgradeStatus
  createdAt : Nat
  votingStarted : Option Nat
  votingEnded : Option Nat
  yesVotes : Balance
  noVotes : Balance
  voters : SortedMap AccountId Bool
  chainSignals : SortedMap ChainId ChainSignal
  impactAnalysis : ImpactAnalysis
  deposit : Balance

namespace UpgradeProposal

/-- Proposer, block and deposit are all that goes into an id. -/
def idOf (cr : Crypto) (proposer : AccountId) (deposit : Balance) (currentBlock : Nat) : Hash :=
  cr.blake3 (proposer.asBytes ++ (Bytes.le 8 currentBlock ++ Bytes.le 16 deposit.val))

def new (cr : Crypto) (proposer : AccountId) (proposalType : UpgradeProposalType)
    (impactAnalysis : ImpactAnalysis) (deposit : Balance) (currentBlock : Nat) : UpgradeProposal :=
  { id := idOf cr proposer deposit currentBlock, proposer, proposalType
    status := if proposalType.requiresSignaling then .signaling else .voting
    createdAt := currentBlock
    votingStarted := if proposalType.requiresSignaling then none else some currentBlock
    votingEnded := none, yesVotes := 0, noVotes := 0, voters := .empty, chainSignals := .empty
    impactAnalysis, deposit }

def isVotingOpen (p : UpgradeProposal) (currentBlock votingPeriod : Nat) : Bool :=
  decide (p.status = .voting) &&
    p.votingStarted.any fun started => decide (currentBlock < started + votingPeriod)

/-- Sum and product wrap, and so does the percentage as a `u8`. -/
def approvalPercentage (p : UpgradeProposal) : Nat :=
  let total := p.yesVotes + p.noVotes
  if total = 0 then 0 else (p.yesVotes * 100 / total).val % 256

def passed (p : UpgradeProposal) : Bool :=
  decide (p.approvalPercentage ≥ p.proposalType.requiredThreshold)

def timelockElapsed (p : UpgradeProposal) (currentBlock : Nat) : Bool :=
  p.votingEnded.any fun ended => decide (currentBlock ≥ ended + p.proposalType.timelock)

/-- While the votes do not overflow, the percentage is the exact one. -/
theorem approvalPercentage_of_fits (p : UpgradeProposal)
    (h : (p.yesVotes.val + p.noVotes.val) * 100 < 2 ^ 128) :
    p.approvalPercentage = p.yesVotes.val * 100 / (p.yesVotes.val + p.noVotes.val) := by
  have hsum : (p.yesVotes + p.noVotes).val = p.yesVotes.val + p.noVotes.val := by
    rw [Fin.val_add, Nat.mod_eq_of_lt (by omega)]
  have hmul : (p.yesVotes * 100).val = p.yesVotes.val * 100 := by
    rw [Fin.val_mul]
    exact Nat.mod_eq_of_lt (by show p.yesVotes.val * 100 < 2 ^ 128; omega)
  unfold approvalPercentage
  simp only
  split
  · next hz =>
    rw [hz] at hsum
    have hyes : p.yesVotes.val = 0 := by
      have : (0 : Balance).val = 0 := rfl
      omega
    rw [hyes, Nat.zero_mul, Nat.zero_div]
  · rw [Fin.div_val, hsum, hmul]
    apply Nat.mod_eq_of_lt
    have hle : p.yesVotes.val * 100 / (p.yesVotes.val + p.noVotes.val) ≤ 100 :=
      Nat.div_le_of_le_mul (by omega)
    omega

end UpgradeProposal

/-! ## Contract -/

structure ChainInfo where
  chainId : ChainId
  validatorCount : Fin (2 ^ 32)
  lastSignal : Nat
deriving DecidableEq, Repr

inductive MetaGovernanceError where
  | noVotingPower
  | batchTooLarge
  | constitutionalViolation
  | invalidVersion
  | incompleteImpactAnalysis
  | proposalNotFound
  | notInSignalingPhase
  | chainNotRegistered
  | signalingPeriodNotElapsed
  | insufficientChainAdoption
  | votingNotOpen
  | alreadyVoted
  | notInVotingPhase
  | votingNotStarted
  | votingPeriodNotElapsed
  | notApproved
  | timelockNotElapsed
  | notProposer
  | alreadyExecuted
  | parameterError (e : ParameterError)
deriving DecidableEq, Repr

structure MetaGovernanceContract where
  parameters : ProtocolParameters
  parameterHistory : List (Nat × ProtocolParameters)
  proposals : SortedMap Hash UpgradeProposal
  executedProposals : List Hash
  registeredChains : SortedMap ChainId ChainInfo
  votingPower : SortedMap AccountId Balance
  totalVotingPower : Balance

namespace MetaGovernanceContract

def new : MetaGovernanceContract :=
  { parameters := .genesis, parameterHistory := [], proposals := .empty, executedProposals := []
    registeredChains := .empty, votingPower := .empty, totalVotingPower := 0 }

def powerOf (s : MetaGovernanceContract) (account : AccountId) : Balance :=
  (s.votingPower.find? account).getD 0

def setVotingPower (s : MetaGovernanceContract) (account : AccountId) (power : Balance) :
    MetaGovernanceContract :=
  { s with
    totalVotingPower := s.totalVotingPower - s.powerOf account + power
    votingPower := if power > 0 then s.votingPower.insert account power else s.votingPower.erase account }

def registerChain (s : MetaGovernanceContract) (chainId : ChainId) (validatorCount : Fin (2 ^ 32))
    (currentBlock : Nat) : MetaGovernanceContract :=
  { s with registeredChains := s.registeredChains.insert chainId
             { chainId, validatorCount, lastSignal := currentBlock } }

/-- Store a proposal under its id. -/
def store (s : MetaGovernanceContract) (p : UpgradeProposal) : MetaGovernanceContract :=
  { s with proposals := s.proposals.insert p.id p }

def proposeParameterChange (cr : Crypto) (s : MetaGovernanceContract) (proposer : AccountId)
    (changes : List ParameterChange) (rationale : String) (deposit : Balance) (currentBlock : Nat) :
    MetaGovernanceContract × Except MetaGovernanceError Hash :=
  if s.powerOf proposer = 0 then (s, .error .noVotingPower)
  else if changes.length > maxBatchSize then (s, .error .batchTooLarge)
  else if ParameterChange.allConstitutional s.parameters changes = false then
    (s, .error .constitutionalViolation)
  else
    let p := UpgradeProposal.new cr proposer (.parameterChange changes rationale)
      (.minimal "parameters") deposit currentBlock
    (s.store p, .ok p.id)

def proposeVersionUpgrade (cr : Crypto) (s : MetaGovernanceContract) (proposer : AccountId)
    (newVersion : ProtocolVersion) (changelog : String) (breakingChanges : Bool)
    (impactAnalysis : ImpactAnalysis) (deposit : Balance) (currentBlock : Nat) :
    MetaGovernanceContract × Except MetaGovernanceError Hash :=
  if s.powerOf proposer = 0 then (s, .error .noVotingPower)
  else if newVersion.isNewer s.parameters.version = false then (s, .error .invalidVersion)
  else if impactAnalysis.isComplete = false then (s, .error .incompleteImpactAnalysis)
  else
    let p := UpgradeProposal.new cr proposer (.versionUpgrade newVersion changelog breakingChanges)
      impactAnalysis deposit currentBlock
    (s.store p, .ok p.id)

/-- Write a stored proposal back. -/
def update (s : MetaGovernanceContract) (proposalId : Hash) (p : UpgradeProposal) :
    MetaGovernanceContract :=
  { s with proposals := s.proposals.insert proposalId p }

def submitChainSignal (s : MetaGovernanceContract) (proposalId : Hash) (chainId : ChainId)
    (supports : Bool) (currentBlock : Nat) : MetaGovernanceContract × Except MetaGovernanceError Unit :=
  match s.proposals.find? proposalId with
  | none => (s, .error .proposalNotFound)
  | some p =>
    if p.status ≠ .signaling then (s, .error .notInSignalingPhase)
    else
      match s.registeredChains.find? chainId with
      | none => (s, .error .chainNotRegistered)
      | some chainInfo =>
        let signal := { chainId, supports, signaledAt := currentBlock
                        validatorCount := chainInfo.validatorCount : ChainSignal }
        (s.update proposalId { p with chainSignals := p.chainSignals.insert chainId signal }, .ok ())

/-- A `u32` sum. -/
def sumCounts (l : List (Fin (2 ^ 32))) : Fin (2 ^ 32) := l.foldl (· + ·) 0

/-- Share of the registered validators whose chains support a proposal, as a `u8`. -/
def adoption (s : MetaGovernanceContract) (p : UpgradeProposal) : Nat :=
  let totalValidators := sumCounts (s.registeredChains.values.map ChainInfo.validatorCount)
  let supportingValidators := sumCounts
    ((p.chainSignals.values.filter ChainSignal.supports).map ChainSignal.validatorCount)
  if totalValidators > 0 then (supportingValidators * 100 / totalValidators).val % 256 else 0

def advanceToVoting (s : MetaGovernanceContract) (proposalId : Hash) (currentBlock : Nat) :
    MetaGovernanceContract × Except MetaGovernanceError Unit :=
  match s.proposals.find? proposalId with
  | none => (s, .error .proposalNotFound)
  | some p =>
    if p.status ≠ .signaling then (s, .error .notInSignalingPhase)
    else if currentBlock < p.createdAt + signalingPeriod then (s, .error .signalingPeriodNotElapsed)
    else if s.adoption p < chainAdoptionThreshold then
      (s.update proposalId { p with status := .rejected }, .error .insufficientChainAdoption)
    else (s.update proposalId { p with status := .voting, votingStarted := some currentBlock }, .ok ())

def vote (s : MetaGovernanceContract) (proposalId : Hash) (voter : AccountId) (support : Bool)
    (currentBlock : Nat) : MetaGovernanceContract × Except MetaGovernanceError Unit :=
  let votingPeriod := s.parameters.governance.votingPeriod.value
  let power := s.powerOf voter
  if power = 0 then (s, .error .noVotingPower)
  else
    match s.proposals.find? proposalId with
    | none => (s, .error .proposalNotFound)
    | some p =>
      if p.isVotingOpen currentBlock votingPeriod = false then (s, .error .votingNotOpen)
      else if p.voters.contains voter then (s, .error .alreadyVoted)
      else
        let p := { p with voters := p.voters.insert voter support }
        let p := if support then { p with yesVotes := p.yesVotes + power }
          else { p with noVotes := p.noVotes + power }
        (s.update proposalId p, .ok ())

def finalizeVoting (s : MetaGovernanceContract) (proposalId : Hash) (currentBlock : Nat) :
    MetaGovernanceContract × Except MetaGovernanceError Unit :=
  let votingPeriod := s.parameters.governance.votingPeriod.value
  match s.proposals.find? proposalId with
  | none => (s, .error .proposalNotFound)
  | some p =>
    if p.status ≠ .voting then (s, .error .notInVotingPhase)
    else
      match p.votingStarted with
      | none => (s, .error .votingNotStarted)
      | some votingStarted =>
        if currentBlock < votingStarted + votingPeriod then (s, .error .votingPeriodNotElapsed)
        else
          let p := { p with votingEnded := some currentBlock }
          (s.update proposalId { p with status := if p.passed then .approved else .rejected }, .ok ())

/-- The parameters after the changes of a proposal, and the first error. -/
def enact (parameters : ProtocolParameters) :
    UpgradeProposalType → ProtocolParameters × Except ParameterError Unit
  | .parameterChange changes _ => ParameterChange.applyAll parameters changes
  | .versionUpgrade newVersion _ _ => ({ parameters with version := newVersion }, .ok ())
  | .emergencyChange changes _ => ParameterChange.applyAll parameters changes

/-- An error of a change leaves the parameters it wrote and the proposal approved. -/
def executeProposal (s : MetaGovernanceContract) (proposalId : Hash) (currentBlock : Nat) :
    MetaGovernanceContract × Except MetaGovernanceError Unit :=
  match s.proposals.find? proposalId with
  | none => (s, .error .proposalNotFound)
  | some p =>
    if p.status ≠ .approved then (s, .error .notApproved)
    else if p.timelockElapsed currentBlock = false then (s, .error .timelockNotElapsed)
    else
      let s := { s with parameterHistory := s.parameterHistory ++ [(currentBlock, s.parameters)] }
      match enact s.parameters p.proposalType with
      | (parameters, .error e) => ({ s with parameters }, .error (.parameterError e))
      | (parameters, .ok ()) =>
        ({ s with
           parameters := { parameters with activeSince := currentBlock }
           proposals := s.proposals.insert proposalId { p with status := .executed }
           executedProposals := s.executedProposals ++ [proposalId] }, .ok ())

def cancelProposal (s : MetaGovernanceContract) (proposalId : Hash) (caller : AccountId) :
    MetaGovernanceContract × Except MetaGovernanceError Balance :=
  match s.proposals.find? proposalId with
  | none => (s, .error .proposalNotFound)
  | some p =>
    if p.proposer ≠ caller then (s, .error .notProposer)
    else if p.status = .executed then (s, .error .alreadyExecuted)
    else (s.update proposalId { p with status := .cancelled }, .ok p.deposit)

end MetaGovernanceContract

/-- A call of the contract. -/
inductive MetaOp where
  | setVotingPower (account : AccountId) (power : Balance)
  | registerChain (chainId : ChainId) (validatorCount : Fin (2 ^ 32)) (currentBlock : Nat)
  | proposeParameterChange (proposer : AccountId) (changes : List ParameterChange) (rationale : String)
      (deposit : Balance) (currentBlock : Nat)
  | proposeVersionUpgrade (proposer : AccountId) (newVersion : ProtocolVersion) (changelog : String)
      (breakingChanges : Bool) (impactAnalysis : ImpactAnalysis) (deposit : Balance) (currentBlock : Nat)
  | submitChainSignal (proposalId : Hash) (chainId : ChainId) (supports : Bool) (currentBlock : Nat)
  | advanceToVoting (proposalId : Hash) (currentBlock : Nat)
  | vote (proposalId : Hash) (voter : AccountId) (support : Bool) (currentBlock : Nat)
  | finalizeVoting (proposalId : Hash) (currentBlock : Nat)
  | executeProposal (proposalId : Hash) (currentBlock : Nat)
  | cancelProposal (proposalId : Hash) (caller : AccountId)

namespace MetaGovernanceContract

def apply (cr : Crypto) (s : MetaGovernanceContract) : MetaOp → MetaGovernanceContract
  | .setVotingPower account power => s.setVotingPower account power
  | .registerChain chainId validatorCount currentBlock => s.registerChain chainId validatorCount currentBlock
  | .proposeParameterChange proposer changes rationale deposit currentBlock =>
    (s.proposeParameterChange cr proposer changes rationale deposit currentBlock).1
  | .proposeVersionUpgrade proposer newVersion changelog breakingChanges impactAnalysis deposit currentBlock =>
    (s.proposeVersionUpgrade cr proposer newVersion changelog breakingChanges impactAnalysis deposit
      currentBlock).1
  | .submitChainSignal proposalId chainId supports currentBlock =>
    (s.submitChainSignal proposalId chainId supports currentBlock).1
  | .advanceToVoting proposalId currentBlock => (s.advanceToVoting proposalId currentBlock).1
  | .vote proposalId voter support currentBlock => (s.vote proposalId voter support currentBlock).1
  | .finalizeVoting proposalId currentBlock => (s.finalizeVoting proposalId currentBlock).1
  | .executeProposal proposalId currentBlock => (s.executeProposal proposalId currentBlock).1
  | .cancelProposal proposalId caller => (s.cancelProposal proposalId caller).1

/-- The proposal an execution at this block would run. -/
def executable (s : MetaGovernanceContract) (proposalId : Hash) (currentBlock : Nat) :
    Option UpgradeProposal :=
  (s.proposals.find? proposalId).filter fun p =>
    decide (p.status = .approved) && p.timelockElapsed currentBlock

theorem executable_eq_some (s : MetaGovernanceContract) (proposalId : Hash) (currentBlock : Nat)
    (p : UpgradeProposal) (h : s.executable proposalId currentBlock = some p) :
    s.proposals.find? proposalId = some p ∧ p.status = .approved ∧
      p.timelockElapsed currentBlock = true := by
  unfold executable at h
  rw [Option.filter_eq_some_iff, Bool.and_eq_true, decide_eq_true_iff] at h
  exact ⟨h.1, h.2.1, h.2.2⟩

theorem executeProposal_of_none (s : MetaGovernanceContract) (proposalId : Hash) (currentBlock : Nat)
    (h : s.executable proposalId currentBlock = none) :
    ∃ e, s.executeProposal proposalId currentBlock = (s, .error e) := by
  unfold executable at h
  unfold executeProposal
  cases hf : s.proposals.find? proposalId with
  | none => exact ⟨_, rfl⟩
  | some p =>
    simp only
    by_cases hs : p.status ≠ .approved
    · rw [if_pos hs]
      exact ⟨_, rfl⟩
    · rw [if_neg hs]
      by_cases ht : p.timelockElapsed currentBlock = false
      · rw [if_pos ht]
        exact ⟨_, rfl⟩
      · rw [hf] at h
        simp [not_not.mp hs, ht] at h

theorem executeProposal_of_some (s : MetaGovernanceContract) (proposalId : Hash) (currentBlock : Nat)
    (p : UpgradeProposal) (h : s.executable proposalId currentBlock = some p) :
    (∃ e, (enact s.parameters p.proposalType).2 = .error e ∧
        s.executeProposal proposalId currentBlock =
          ({ s with
             parameterHistory := s.parameterHistory ++ [(currentBlock, s.parameters)]
             parameters := (enact s.parameters p.proposalType).1 }, .error (.parameterError e))) ∨
      (enact s.parameters p.proposalType).2 = .ok () ∧
        s.executeProposal proposalId currentBlock =
          ({ s with
             parameterHistory := s.parameterHistory ++ [(currentBlock, s.parameters)]
             parameters := { (enact s.parameters p.proposalType).1 with activeSince := currentBlock }
             proposals := s.proposals.insert proposalId { p with status := .executed }
             executedProposals := s.executedProposals ++ [proposalId] }, .ok ()) := by
  obtain ⟨hf, hs, ht⟩ := s.executable_eq_some proposalId currentBlock p h
  unfold executeProposal
  rw [hf]
  simp only
  rw [if_neg (not_not.mpr hs), if_neg (by rw [ht]; decide)]
  rcases enact s.parameters p.proposalType with ⟨parameters, r⟩
  cases r with
  | error e => exact Or.inl ⟨e, rfl, rfl⟩
  | ok u => exact Or.inr ⟨rfl, rfl⟩

/-! ## Parameters -/

/-- Only executions change the parameters. -/
theorem parameters_apply (cr : Crypto) (s : MetaGovernanceContract) (op : MetaOp)
    (h : ∀ proposalId currentBlock, op ≠ .executeProposal proposalId currentBlock) :
    (s.apply cr op).parameters = s.parameters := by
  cases op <;> simp only [apply]
  case proposeParameterChange proposer changes rationale deposit currentBlock =>
    unfold proposeParameterChange
    repeat' split
    all_goals rfl
  case proposeVersionUpgrade proposer newVersion changelog breakingChanges impact deposit currentBlock =>
    unfold proposeVersionUpgrade
    repeat' split
    all_goals rfl
  case submitChainSignal proposalId chainId supports currentBlock =>
    unfold submitChainSignal
    repeat' split
    all_goals rfl
  case advanceToVoting proposalId currentBlock =>
    unfold advanceToVoting
    repeat' split
    all_goals rfl
  case vote proposalId voter support currentBlock =>
    unfold vote
    simp only
    repeat' split
    all_goals rfl
  case finalizeVoting proposalId currentBlock =>
    unfold finalizeVoting
    simp only
    repeat' split
    all_goals rfl
  case executeProposal proposalId currentBlock => exact absurd rfl (h proposalId currentBlock)
  case cancelProposal proposalId caller =>
    unfold cancelProposal
    repeat' split
    all_goals rfl
  all_goals rfl

/-- The changes of a proposal contradict no parameter when they are written. -/
def HarmlessOn (parameters : ProtocolParameters) : UpgradeProposalType → Prop
  | .parameterChange changes _ => ParameterChange.Harmless parameters (ParameterChange.allLeaves changes)
  | .versionUpgrade .. => True
  | .emergencyChange changes _ => ParameterChange.Harmless parameters (ParameterChange.allLeaves changes)

theorem enact_valid_iff (parameters : ProtocolParameters) (t : UpgradeProposalType)
    (h : parameters.Valid) : (enact parameters t).1.Valid ↔ HarmlessOn parameters t := by
  cases t with
  | parameterChange changes _ =>
    show (ParameterChange.applyAll parameters changes).1.Valid ↔ _
    rw [ParameterChange.applyAll_eq_applyLeaves parameters changes h]
    exact ParameterChange.valid_applyLeaves_iff parameters _ h
  | versionUpgrade newVersion changelog breakingChanges => exact ⟨fun _ => trivial, fun _ => h⟩
  | emergencyChange changes _ =>
    show (ParameterChange.applyAll parameters changes).1.Valid ↔ _
    rw [ParameterChange.applyAll_eq_applyLeaves parameters changes h]
    exact ParameterChange.valid_applyLeaves_iff parameters _ h

theorem enact_bounded (parameters : ProtocolParameters) (t : UpgradeProposalType)
    (h : parameters.Bounded) : (enact parameters t).1.Bounded := by
  have hchanges := fun changes => ParameterChange.applyAll_keeps ProtocolParameters.Bounded
    (fun p q c hp hw => ParameterChange.write_bounded p q c hp hw) parameters changes h
  cases t with
  | parameterChange changes _ => exact hchanges changes
  | versionUpgrade newVersion changelog breakingChanges => exact { h with }
  | emergencyChange changes _ => exact hchanges changes

/-- A call other than an execution, or one that runs no proposal or a harmless one. -/
def Harmless (s : MetaGovernanceContract) (op : MetaOp) : Prop :=
  ∀ proposalId currentBlock, op = .executeProposal proposalId currentBlock →
    ∀ p, s.executable proposalId currentBlock = some p → HarmlessOn s.parameters p.proposalType

/-- The parameters after an execution, but for the block they are active since. -/
theorem parameters_executeProposal (s : MetaGovernanceContract) (proposalId : Hash) (currentBlock : Nat)
    (p : UpgradeProposal) (h : s.executable proposalId currentBlock = some p) :
    ∃ since, (s.executeProposal proposalId currentBlock).1.parameters =
      { (enact s.parameters p.proposalType).1 with activeSince := since } := by
  rcases s.executeProposal_of_some proposalId currentBlock p h with ⟨e, -, hex⟩ | ⟨-, hex⟩
  · rw [hex]
    exact ⟨_, rfl⟩
  · rw [hex]
    exact ⟨_, rfl⟩

theorem apply_valid_iff (cr : Crypto) (s : MetaGovernanceContract) (op : MetaOp)
    (h : s.parameters.Valid) : (s.apply cr op).parameters.Valid ↔ s.Harmless op := by
  by_cases hop : ∃ proposalId currentBlock, op = .executeProposal proposalId currentBlock
  · obtain ⟨proposalId, currentBlock, rfl⟩ := hop
    have hharm : s.Harmless (.executeProposal proposalId currentBlock) ↔
        ∀ p, s.executable proposalId currentBlock = some p → HarmlessOn s.parameters p.proposalType := by
      constructor
      · intro hh
        exact hh proposalId currentBlock rfl
      · intro hh i b heq
        cases heq
        exact hh
    rw [hharm]
    show (s.executeProposal proposalId currentBlock).1.parameters.Valid ↔ _
    cases hx : s.executable proposalId currentBlock with
    | none =>
      obtain ⟨e, hex⟩ := s.executeProposal_of_none proposalId currentBlock hx
      rw [hex]
      constructor
      · intro _ p hp
        cases hp
      · intro _
        exact h
    | some p =>
      obtain ⟨since, hparams⟩ := s.parameters_executeProposal proposalId currentBlock p hx
      have henact := enact_valid_iff s.parameters p.proposalType h
      rw [hparams]
      constructor
      · intro hv q hq
        cases hq
        exact henact.mp hv
      · intro hall
        exact henact.mpr (hall p rfl)
  · have hne : ∀ i b, op ≠ .executeProposal i b := fun i b heq => hop ⟨i, b, heq⟩
    rw [s.parameters_apply cr op hne]
    exact ⟨fun _ i b heq => absurd heq (hne i b), fun _ => h⟩

theorem apply_bounded (cr : Crypto) (s : MetaGovernanceContract) (op : MetaOp)
    (h : s.parameters.Bounded) : (s.apply cr op).parameters.Bounded := by
  by_cases hop : ∃ proposalId currentBlock, op = .executeProposal proposalId currentBlock
  · obtain ⟨proposalId, currentBlock, rfl⟩ := hop
    show (s.executeProposal proposalId currentBlock).1.parameters.Bounded
    cases hx : s.executable proposalId currentBlock with
    | none =>
      obtain ⟨e, hex⟩ := s.executeProposal_of_none proposalId currentBlock hx
      rw [hex]
      exact h
    | some p =>
      obtain ⟨since, hparams⟩ := s.parameters_executeProposal proposalId currentBlock p hx
      rw [hparams]
      exact { enact_bounded s.parameters p.proposalType h with }
  · rw [s.parameters_apply cr op fun i b heq => hop ⟨i, b, heq⟩]
    exact h

/-- **Parameters over a run.**  They keep their bounds; they validate in every state exactly
if every execution of the run is harmless. -/
theorem parameters_constitutional_iff (cr : Crypto) (ops : List MetaOp) :
    (ops.foldl (apply cr) new).parameters.Within ∧
      ((∀ k, ((ops.take k).foldl (apply cr) new).parameters.validate = .ok ()) ↔
        Run.Meets (apply cr) Harmless new ops) := by
  have htrue : Run.Meets (apply cr) (fun _ _ => True) new ops :=
    Run.meets_of_forall _ _ (fun _ _ => trivial) new ops
  obtain ⟨hvalid, hbounded⟩ := ProtocolParameters.genesis_ok
  constructor
  · exact (Run.inv_foldl (apply cr) _ (fun s => s.parameters.Bounded)
      (fun s op h _ => s.apply_bounded cr op h) new ops hbounded htrue).within
  · simp only [ProtocolParameters.validate_eq_ok_iff]
    exact Run.good_take_iff (apply cr) (fun _ _ => True) Harmless (fun _ => True)
      (fun s => s.parameters.Valid) (fun _ _ _ _ => trivial)
      (fun s op _ _ h => s.apply_valid_iff cr op h) new ops trivial hvalid htrue

/-- One voter proposes a burn rate of 60, votes for it and executes it. -/
def sampleBurnRate : List MetaOp :=
  let id := UpgradeProposal.idOf Crypto.sample ⟨1⟩ 0 0
  [.setVotingPower ⟨1⟩ 100, .proposeParameterChange ⟨1⟩ [.feeBurnRate 60] "" 0 0, .vote id ⟨1⟩ true 1,
    .finalizeVoting id 100800, .executeProposal id (100800 + protocolUpgradeTimelock)]

/-- The execution fails and leaves fee rates of 60 and 50. -/
theorem failed_execution_leaves_invalid :
    (sampleBurnRate.foldl (apply Crypto.sample) new).parameters.validate = .error .feeRatesTooHigh := by
  decide +kernel

end MetaGovernanceContract

end Kratos
