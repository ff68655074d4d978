import Kratos.Lib.Fallible
import Kratos.Lib.Run
import Kratos.Types.Fork

/-!
# The fork contract

A fork is proposed, declared by a third of the validators, by stake or by three
sidechains, prepared, marked ready and executed; it can be cancelled before.  An
executed fork leaves the map of proposals.  Balances and voting power have their
widths, and the counts of supporters and of accounts with power are cut to 32 bits
before they are compared.  Events are left out.
-/

namespace Kratos

def forkProposalDeposit : Balance := 100000

/-- 7 days before the fork. -/
def sidechainAlignmentDeadline : Nat := 7 * 14400

def maxConcurrentForks : Nat := 3

/-- 30 days. -/
def forkCooldown : Nat := 30 * 14400

def forkValidatorThresholdPercent : Nat := 33
def forkStakeThresholdPercent : Nat := 40
def forkSidechainThreshold : Nat := 3
def ossificationApprovalThreshold : Nat := 90

inductive ForkError where
  | forkAlreadyExists (forkId : Hash)
  | forkNotFound (forkId : Hash)
  | tooManyConcurrentForks
  | forkAlreadyDeclared
  | notInPreparation
  | forkNotReady
  | forkInCooldown (endsAt : Nat)
  | alreadyVoted
  | noVotingPower
  | preparationNotMet
  | alignmentDeadlinePassed
  | snapshotAlreadyExists
  | cannotOssifyDuringEmergency
  | ossificationNotEligible
  | alreadyOssified
  | insufficientDeposit (have_ need : Balance)
deriving DecidableEq, Repr

structure ForkContract where
  proposals : SortedMap Hash ForkDeclaration
  executedForks : List ForkDeclaration
  snapshots : SortedMap Hash ForkSnapshot
  continuity : SortedMap Hash ForkContinuity
  alignments : SortedMap (Hash ×ₗ ChainId) SidechainAlignment
  ossification : OssificationState
  votingPower : SortedMap AccountId VotingPower
  totalPower : VotingPower
  totalStake : Balance
  lastForkExecuted : Option Nat

namespace ForkContract

def new : ForkContract :=
  { proposals := .empty, executedForks := [], snapshots := .empty, continuity := .empty, alignments := .empty
    ossification := .new, votingPower := .empty, totalPower := 0, totalStake := 0, lastForkExecuted := none }

/-- Accounts without power are not kept. -/
def setVotingPower (s : ForkContract) (validator : AccountId) (power : VotingPower) : ForkContract :=
  let votingPower := if power > 0 then s.votingPower.insert validator power else s.votingPower.erase validator
  { s with votingPower, totalPower := votingPower.values.sum }

def setTotalStake (s : ForkContract) (stake : Balance) : ForkContract := { s with totalStake := stake }

/-! ## Proposal and declaration -/

def activeForks (s : ForkContract) : List ForkDeclaration := s.proposals.values.filter ForkDeclaration.isActive

/-- The proposer is the first supporter, with or without voting power. -/
def proposeFork (cr : Crypto) (s : ForkContract) (proposer : AccountId) (name : String) (forkType : ForkType)
    (description : String) (deposit : Balance) (currentBlock : Nat) : Except ForkError (ForkContract × Hash) :=
  if deposit < forkProposalDeposit then .error (.insufficientDeposit deposit forkProposalDeposit)
  else if s.activeForks.length ≥ maxConcurrentForks then .error .tooManyConcurrentForks
  else if s.lastForkExecuted.any fun last => decide (currentBlock < last + forkCooldown) then
    .error (.forkInCooldown (s.lastForkExecuted.getD 0 + forkCooldown))
  else
    let declarant : ForkDeclarant :=
      .validators 1 (s.votingPower.size % 2 ^ 32) ((s.votingPower.find? proposer).getD 0)
    let fork := ForkDeclaration.new cr name forkType declarant currentBlock description
    if s.proposals.contains fork.id then .error (.forkAlreadyExists fork.id)
    else
      let fork := { fork with supportingValidators := insert proposer fork.supportingValidators }
      .ok ({ s with proposals := s.proposals.insert fork.id fork }, fork.id)

/-- The share of the validators in percent, multiplied in 32 bits. -/
def meetsValidatorThreshold (validatorCount totalValidators : Nat) : Bool :=
  let validatorPercent :=
    if totalValidators > 0 then min (validatorCount * 100) (2 ^ 32 - 1) / totalValidators else 0
  decide (validatorPercent ≥ forkValidatorThresholdPercent)

/-- In percent, cut to a byte. -/
def stakePercent (supportingStake totalStake : Balance) : Nat :=
  if totalStake > 0 then min (supportingStake.val * 100) (2 ^ 128 - 1) / totalStake.val % 2 ^ 8 else 0

def checkDeclarationThreshold (s : ForkContract) (forkId : Hash) (currentBlock : Nat) :
    Except ForkError ForkContract :=
  match s.proposals.find? forkId with
  | none => .error (.forkNotFound forkId)
  | some fork =>
    if fork.status ≠ .proposed then .ok s
    else
      let validatorCount := fork.supportingValidators.card % 2 ^ 32
      let totalValidators := s.votingPower.size % 2 ^ 32
      let percent := stakePercent fork.supportingStake s.totalStake
      if meetsValidatorThreshold validatorCount totalValidators then
        let power := ∑ v ∈ fork.supportingValidators, (s.votingPower.find? v).getD 0
        .ok { s with
              proposals := s.proposals.insert forkId
                (fork.declare (.validators validatorCount totalValidators power) currentBlock) }
      else if percent ≥ forkStakeThresholdPercent then
        .ok { s with
              proposals := s.proposals.insert forkId
                (fork.declare (.stake fork.supportingStake s.totalStake percent) currentBlock) }
      else .ok s

def supportFork (s : ForkContract) (forkId : Hash) (supporter : AccountId) (stakeAmount : Balance)
    (currentBlock : Nat) : Except ForkError ForkContract :=
  match s.votingPower.find? supporter with
  | none => .error .noVotingPower
  | some _ =>
    match s.proposals.find? forkId with
    | none => .error (.forkNotFound forkId)
    | some fork =>
      if supporter ∈ fork.supportingValidators then .error .alreadyVoted
      else if fork.status ≠ .proposed then .error .forkAlreadyDeclared
      else
        let fork := { fork with
                      supportingValidators := insert supporter fork.supportingValidators
                      supportingStake := fork.supportingStake + stakeAmount }
        checkDeclarationThreshold { s with proposals := s.proposals.insert forkId fork } forkId currentBlock

/-- Sidechains that already support the fork are not added again. -/
def addSidechains (supporting sidechains : List ChainId) : List ChainId :=
  sidechains.foldl (fun acc chain => if chain ∈ acc then acc else acc ++ [chain]) supporting

def declareForkFromSidechains (s : ForkContract) (forkId : Hash) (sidechains : List ChainId)
    (currentBlock : Nat) : Except ForkError ForkContract :=
  match s.proposals.find? forkId with
  | none => .error (.forkNotFound forkId)
  | some fork =>
    if fork.status ≠ .proposed then .error .forkAlreadyDeclared
    else
      let fork := { fork with supportingSidechains := addSidechains fork.supportingSidechains sidechains }
      let fork :=
        if fork.supportingSidechains.length ≥ forkSidechainThreshold then
          fork.declare (.sidechains fork.supportingSidechains) currentBlock
        else fork
      .ok { s with proposals := s.proposals.insert forkId fork }

/-! ## Snapshots -/

def createSnapshot (s : ForkContract) (forkId stateRoot : Hash) (validators : List ValidatorSnapshot)
    (identityRoot reputationRoot sidechainRoot : Hash) (totalSupply : Balance) (currentBlock : Nat) :
    Except ForkError ForkContract :=
  match s.proposals.find? forkId with
  | none => .error (.forkNotFound forkId)
  | some fork =>
    if fork.status ≠ .declared then .error .notInPreparation
    else if s.snapshots.contains forkId then .error .snapshotAlreadyExists
    else
      .ok { s with
            snapshots := s.snapshots.insert forkId
              { blockNumber := currentBlock, stateRoot, validatorSet := validators
                identityMerkleRoot := identityRoot, reputationMerkleRoot := reputationRoot
                sidechainRegistryRoot := sidechainRoot, totalSupply, createdAt := currentBlock, forkId }
            continuity := s.continuity.insert forkId (ForkContinuity.new forkId currentBlock) }

/-- Change the continuity data of a fork. -/
def updateContinuity (s : ForkContract) (forkId : Hash) (f : ForkContinuity → ForkContinuity) :
    Except ForkError ForkContract :=
  match s.continuity.find? forkId with
  | none => .error (.forkNotFound forkId)
  | some continuity => .ok { s with continuity := s.continuity.insert forkId (f continuity) }

def addBalanceToSnapshot (s : ForkContract) (forkId : Hash) (account : AccountId) (balance : Balance) :
    Except ForkError ForkContract :=
  s.updateContinuity forkId fun c => { c with balanceSnapshot := c.balanceSnapshot.insert account balance }

def addIdentityToSnapshot (s : ForkContract) (forkId : Hash) (identity : IdentitySnapshot) :
    Except ForkError ForkContract :=
  s.updateContinuity forkId fun c =>
    { c with identitySnapshots := c.identitySnapshots.insert identity.identityHash identity }

def addReputationToSnapshot (s : ForkContract) (forkId : Hash) (reputation : ReputationSnapshot) :
    Except ForkError ForkContract :=
  s.updateContinuity forkId fun c =>
    { c with
      reputationSnapshots :=
        c.reputationSnapshots.insert (toLex (reputation.chainId, reputation.identityHash)) reputation }

/-! ## Sidechain alignment -/

/-- Note the choice of a sidechain in the continuity data, if there is any. -/
def noteAlignment (s : ForkContract) (forkId : Hash) (chainId : ChainId) (alignment : ForkAlignment) :
    ForkContract :=
  (s.updateContinuity forkId fun c =>
    { c with sidechainAlignments := c.sidechainAlignments.insert chainId alignment }).orKeep s

def setSidechainAlignment (s : ForkContract) (forkId : Hash) (chainId : ChainId) (alignment : ForkAlignment)
    (proposalId : Hash) (currentBlock : Nat) : Except ForkError ForkContract :=
  match s.proposals.find? forkId with
  | none => .error (.forkNotFound forkId)
  | some fork =>
    if currentBlock > fork.forkHeight - sidechainAlignmentDeadline then .error .alignmentDeadlinePassed
    else
      let key := toLex (forkId, chainId)
      let current := (s.alignments.find? key).getD (.undecided chainId forkId)
      let s :=
        { s with alignments := s.alignments.insert key (current.setAlignment alignment currentBlock proposalId) }
      .ok (s.noteAlignment forkId chainId alignment)

/-- A sidechain that did not choose becomes independent. -/
def applyDefaultAlignment (forkId : Hash) (currentBlock : Nat) (s : ForkContract) (chainId : ChainId) :
    ForkContract :=
  let key := toLex (forkId, chainId)
  if s.alignments.contains key then s
  else
    let alignment := { SidechainAlignment.undecided chainId forkId with
                       alignment := .independent, decidedAt := some currentBlock }
    { s with alignments := s.alignments.insert key alignment }.noteAlignment forkId chainId .independent

def applyDefaultAlignments (s : ForkContract) (forkId : Hash) (sidechains : List ChainId) (currentBlock : Nat) :
    ForkContract :=
  sidechains.foldl (applyDefaultAlignment forkId currentBlock) s

/-! ## Execution -/

def markReady (s : ForkContract) (forkId : Hash) (currentBlock : Nat) : Except ForkError ForkContract :=
  match s.proposals.find? forkId with
  | none => .error (.forkNotFound forkId)
  | some fork =>
    if fork.status ≠ .declared then .error .notInPreparation
    else if currentBlock < fork.preparationEnds then .error .preparationNotMet
    else .ok { s with proposals := s.proposals.insert forkId { fork with status := .ready } }

/-- Neither a snapshot nor the cooldown is asked for. -/
def executeFork (s : ForkContract) (forkId : Hash) (newChainId : ChainId) (currentBlock : Nat) :
    Except ForkError ForkContract :=
  match s.proposals.find? forkId with
  | none => .error (.forkNotFound forkId)
  | some fork =>
    if fork.status ≠ .ready then .error .forkNotReady
    else if currentBlock < fork.forkHeight then .error .preparationNotMet
    else
      .ok { s with
            proposals := s.proposals.erase forkId
            lastForkExecuted := some currentBlock
            executedForks := s.executedForks ++ [{ fork with status := .executed, newChainId := some newChainId }] }

def cancelFork (s : ForkContract) (forkId : Hash) (_reason : String) : Except ForkError ForkContract :=
  match s.proposals.find? forkId with
  | none => .error (.forkNotFound forkId)
  | some fork =>
    if fork.status = .executed then .error (.forkNotFound forkId)
    else .ok { s with proposals := s.proposals.insert forkId { fork with status := .cancelled } }

/-! ## Ossification -/

def proposeOssification (s : ForkContract) (_proposer : AccountId) (currentBlock : Nat) (emergencyActive : Bool) :
    Except ForkError ForkContract :=
  if emergencyActive then .error .cannotOssifyDuringEmergency
  else if s.ossification.ossificationActive then .error .alreadyOssified
  else if s.ossification.canTriggerOssification currentBlock = false then .error .ossificationNotEligible
  else
    .ok { s with
          ossification :=
            { s.ossification with ossificationProposed := true, proposedAt := some currentBlock } }

/-- A vote that was cast before is taken back with the present power of the voter. -/
def recordOssificationVote (o : OssificationState) (voter : AccountId) (approve : Bool) (power : VotingPower) :
    OssificationState :=
  let o :=
    match o.ossificationVotes.find? voter with
    | some true => { o with approvalPower := o.approvalPower - power }
    | some false => { o with rejectionPower := o.rejectionPower - power }
    | none => o
  let o := { o with ossificationVotes := o.ossificationVotes.insert voter approve }
  if approve then { o with approvalPower := o.approvalPower + power }
  else { o with rejectionPower := o.rejectionPower + power }

/-- In percent of the total power, cut to a byte. -/
def approvalOfTotal (approvalPower totalPower : VotingPower) : Nat :=
  if totalPower > 0 then min (approvalPower.val * 100) (2 ^ 64 - 1) / totalPower.val % 2 ^ 8 else 0

def voteOssification (s : ForkContract) (voter : AccountId) (approve : Bool) (currentBlock : Nat) :
    Except ForkError ForkContract :=
  if s.ossification.ossificationProposed = false then .error .ossificationNotEligible
  else if s.ossification.ossificationActive then .error .alreadyOssified
  else
    match s.votingPower.find? voter with
    | none => .error .noVotingPower
    | some power =>
      let o := recordOssificationVote s.ossification voter approve power
      let o :=
        if approvalOfTotal o.approvalPower s.totalPower ≥ ossificationApprovalThreshold then
          { o with ossificationActive := true, activatedAt := some currentBlock }
        else o
      .ok { s with ossification := o }

end ForkContract

/-- A call of the contract. -/
inductive ForkOp where
  | setVotingPower (validator : AccountId) (power : VotingPower)
  | setTotalStake (stake : Balance)
  | proposeFork (proposer : AccountId) (name : String) (forkType : ForkType) (description : String)
      (deposit : Balance) (currentBlock : Nat)
  | supportFork (forkId : Hash) (supporter : AccountId) (stakeAmount : Balance) (currentBlock : Nat)
  | declareForkFromSidechains (forkId : Hash) (sidechains : List ChainId) (currentBlock : Nat)
  | createSnapshot (forkId stateRoot : Hash) (validators : List ValidatorSnapshot)
      (identityRoot reputationRoot sidechainRoot : Hash) (totalSupply : Balance) (currentBlock : Nat)
  | addBalanceToSnapshot (forkId : Hash) (account : AccountId) (balance : Balance)
  | addIdentityToSnapshot (forkId : Hash) (identity : IdentitySnapshot)
  | addReputationToSnapshot (forkId : Hash) (reputation : ReputationSnapshot)
  | setSidechainAlignment (forkId : Hash) (chainId : ChainId) (alignment : ForkAlignment) (proposalId : Hash)
      (currentBlock : Nat)
  | applyDefaultAlignments (forkId : Hash) (sidechains : List ChainId) (currentBlock : Nat)
  | markReady (forkId : Hash) (currentBlock : Nat)
  | executeFork (forkId : Hash) (newChainId : ChainId) (currentBlock : Nat)
  | cancelFork (forkId : Hash) (reason : String)
  | proposeOssification (proposer : AccountId) (currentBlock : Nat) (emergencyActive : Bool)
  | voteOssification (voter : AccountId) (approve : Bool) (currentBlock : Nat)
  | recordParameterChange (currentBlock : Nat)

/-- The block of a call, if it is given one. -/
def ForkOp.block : ForkOp → Option Nat
  | proposeFork _ _ _ _ _ b => some b
  | supportFork _ _ _ b => some b
  | declareForkFromSidechains _ _ b => some b
  | createSnapshot _ _ _ _ _ _ _ b => some b
  | setSidechainAlignment _ _ _ _ b => some b
  | applyDefaultAlignments _ _ b => some b
  | markReady _ b => some b
  | executeFork _ _ b => some b
  | proposeOssification _ b _ => some b
  | voteOssification _ _ b => some b
  | recordParameterChange b => some b
  | _ => none

namespace ForkContract

def apply (cr : Crypto) (s : ForkContract) : ForkOp → ForkContract
  | .setVotingPower validator power => s.setVotingPower validator power
  | .setTotalStake stake => s.setTotalStake stake
  | .proposeFork proposer name forkType description deposit currentBlock =>
    ((s.proposeFork cr proposer name forkType description deposit currentBlock).map Prod.fst).orKeep s
  | .supportFork forkId supporter stakeAmount currentBlock =>
    (s.supportFork forkId supporter stakeAmount currentBlock).orKeep s
  | .declareForkFromSidechains forkId sidechains currentBlock =>
    (s.declareForkFromSidechains forkId sidechains currentBlock).orKeep s
  | .createSnapshot forkId stateRoot validators identityRoot reputationRoot sidechainRoot totalSupply
      currentBlock =>
    (s.createSnapshot forkId stateRoot validators identityRoot reputationRoot sidechainRoot totalSupply
      currentBlock).orKeep s
  | .addBalanceToSnapshot forkId account balance => (s.addBalanceToSnapshot forkId account balance).orKeep s
  | .addIdentityToSnapshot forkId identity => (s.addIdentityToSnapshot forkId identity).orKeep s
  | .addReputationToSnapshot forkId reputation => (s.addReputationToSnapshot forkId reputation).orKeep s
  | .setSidechainAlignment forkId chainId alignment proposalId currentBlock =>
    (s.setSidechainAlignment forkId chainId alignment proposalId currentBlock).orKeep s
  | .applyDefaultAlignments forkId sidechains currentBlock =>
    s.applyDefaultAlignments forkId sidechains currentBlock
  | .markReady forkId currentBlock => (s.markReady forkId currentBlock).orKeep s
  | .executeFork forkId newChainId currentBlock => (s.executeFork forkId newChainId currentBlock).orKeep s
  | .cancelFork forkId reason => (s.cancelFork forkId reason).orKeep s
  | .proposeOssification proposer currentBlock emergencyActive =>
    (s.proposeOssification proposer currentBlock emergencyActive).orKeep s
  | .voteOssification voter approve currentBlock => (s.voteOssification voter approve currentBlock).orKeep s
  | .recordParameterChange currentBlock =>
    { s with ossification := s.ossification.recordParameterChange currentBlock }

/-- The contract after a run from a fresh one. -/
def after (cr : Crypto) (ops : List ForkOp) : ForkContract := ops.foldl (apply cr) .new

end ForkContract

end Kratos
