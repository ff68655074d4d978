import Kratos.Lib.Fallible
import Kratos.Lib.Run
import Kratos.Lib.SortedMap
import Kratos.Types.Primitives

/-!
# Governance contract of the sidechains

Proposals of a chain with weighted votes, a quorum, a timelock and a grace
period.  An exit proposal takes the exit slot of its chain until it is rejected,
executed, cancelled or expired.  Ids and block numbers are natural numbers;
iterating over the hash map of proposals is iterating in the order of ids, which
only shows in the order of the ids an expiry returns.

A single call that fails leaves the contract as it was (`apply`); an expiry and a
cleanup go over all proposals.
-/

namespace Kratos

def supermajorityThreshold : Nat := 66
def standardThreshold : Nat := 51
def minQuorumPercent : Nat := 30

/-- 30 days. -/
def exitTimelock : Nat := 432000

/-- 12 days. -/
def standardTimelock : Nat := 172800

def votingPeriod : Nat := 100800

def gracePeriod : Nat := 28800

def proposalDeposit : Balance := 100

inductive ProposalType where
  | parameterChange (parameter oldValue newValue : String)
  | addValidator (validator : AccountId)
  | removeValidator (validator : AccountId)
  | exitDissolve
  | exitMerge (targetChain : ChainId)
  | exitReattachRoot
  | exitJoinHost (hostChain : ChainId)
  | leaveHost
  | requestAffiliation (hostChain : ChainId)
  | treasurySpend (recipient : AccountId) (amount : Balance) (reason : String)
  | custom (title description : String) (data : List UInt8)
deriving DecidableEq, Repr

namespace ProposalType

def isExitProposal : ProposalType → Bool
  | exitDissolve | exitMerge _ | exitReattachRoot | exitJoinHost _ => true
  | _ => false

def requiredThreshold (t : ProposalType) : Nat :=
  if t.isExitProposal then supermajorityThreshold else standardThreshold

def timelockPeriod (t : ProposalType) : Nat := if t.isExitProposal then exitTimelock else standardTimelock

end ProposalType

inductive ProposalStatus where
  | active
  | passed
  | rejected
  | readyToExecute
  | executed
  | cancelled
  | expired
deriving DecidableEq, Repr

/-- Neither refused nor done. -/
def ProposalStatus.inProgress : ProposalStatus → Bool
  | active | passed | readyToExecute => true
  | _ => false

inductive Vote where
  | yes
  | no
  | abstain
deriving DecidableEq, Repr

structure VoteRecord where
  voter : AccountId
  vote : Vote
  weight : Balance
  timestamp : Nat
deriving DecidableEq, Repr

structure Proposal where
  id : Nat
  chainId : ChainId
  proposer : AccountId
  proposalType : ProposalType
  description : Option String
  status : ProposalStatus
  createdAt : Nat
  votingEndsAt : Nat
  timelockEndsAt : Option Nat
  votes : List VoteRecord
  yesVotes : Balance
  noVotes : Balance
  abstainVotes : Balance
  deposit : Balance
  depositReturned : Bool
  executedAt : Option Nat
deriving DecidableEq, Repr

namespace Proposal

def new (id : Nat) (chainId : ChainId) (proposer : AccountId) (proposalType : ProposalType)
    (description : Option String) (deposit : Balance) (createdAt : Nat) : Proposal :=
  { id, chainId, proposer, proposalType, description, status := .active, createdAt
    votingEndsAt := createdAt + votingPeriod, timelockEndsAt := none, votes := [], yesVotes := 0
    noVotes := 0, abstainVotes := 0, deposit, depositReturned := false, executedAt := none }

def isVotingOpen (p : Proposal) (currentBlock : Nat) : Bool :=
  decide (p.status = .active) && decide (currentBlock ≤ p.votingEndsAt)

def hasVoted (p : Proposal) (voter : AccountId) : Bool := p.votes.any fun v => decide (v.voter = voter)

def totalVotes (p : Proposal) : Balance := p.yesVotes + p.noVotes + p.abstainVotes

/-- Yes in percent of yes and no, as a `u8`. -/
def approvalPercentage (p : Proposal) : Nat :=
  let decidingVotes := Word.satAdd p.yesVotes p.noVotes
  if decidingVotes = 0 then 0
  else min (p.yesVotes.val * 100) (2 ^ 128 - 1) / decidingVotes.val % 256

def quorumReached (p : Proposal) (totalEligibleVotes : Balance) : Bool :=
  if totalEligibleVotes = 0 then false
  else decide (min (p.totalVotes.val * 100) (2 ^ 128 - 1) / totalEligibleVotes.val ≥ minQuorumPercent)

def passed (p : Proposal) (totalEligibleVotes : Balance) : Bool :=
  p.quorumReached totalEligibleVotes &&
    decide (p.approvalPercentage ≥ p.proposalType.requiredThreshold)

end Proposal

inductive GovernanceError where
  | proposalNotFound
  | noVotingPower
  | votingClosed
  | alreadyVoted
  | votingStillOpen
  | alreadyFinalized
  | exitAlreadyInProgress
  | activeDisputeExists
  | notReadyToExecute
  | notProposer
deriving DecidableEq, Repr

/-- Chain and account, in lexicographic order. -/
abbrev PowerKey := ChainId ×ₗ AccountId

structure GovernanceContract where
  proposals : SortedMap Nat Proposal
  proposalsByChain : SortedMap ChainId (List Nat)
  nextProposalId : Nat
  votingPower : SortedMap PowerKey Balance
  totalVotingPower : SortedMap ChainId Balance
  activeExitProposals : SortedMap ChainId Nat
  chainsWithDisputes : Finset ChainId

namespace GovernanceContract

def new : GovernanceContract :=
  { proposals := .empty, proposalsByChain := .empty, nextProposalId := 1, votingPower := .empty
    totalVotingPower := .empty, activeExitProposals := .empty, chainsWithDisputes := ∅ }

def getVotingPower (g : GovernanceContract) (chainId : ChainId) (account : AccountId) : Balance :=
  (g.votingPower.find? (toLex (chainId, account))).getD 0

def getTotalVotingPower (g : GovernanceContract) (chainId : ChainId) : Balance :=
  (g.totalVotingPower.find? chainId).getD 0

def setVotingPower (g : GovernanceContract) (chainId : ChainId) (account : AccountId) (power : Balance) :
    GovernanceContract :=
  let key : PowerKey := toLex (chainId, account)
  let oldPower := g.getVotingPower chainId account
  let total := Word.satAdd (Word.satSub (g.getTotalVotingPower chainId) oldPower) power
  { g with
    totalVotingPower := g.totalVotingPower.insert chainId total
    votingPower := if power > 0 then g.votingPower.insert key power else g.votingPower.erase key }

def addDispute (g : GovernanceContract) (chainId : ChainId) : GovernanceContract :=
  { g with chainsWithDisputes := insert chainId g.chainsWithDisputes }

def removeDispute (g : GovernanceContract) (chainId : ChainId) : GovernanceContract :=
  { g with chainsWithDisputes := g.chainsWithDisputes.erase chainId }

def hasDispute (g : GovernanceContract) (chainId : ChainId) : Bool :=
  decide (chainId ∈ g.chainsWithDisputes)

/-- The new contract and the id. -/
def createProposal (g : GovernanceContract) (chainId : ChainId) (proposer : AccountId)
    (proposalType : ProposalType) (description : Option String) (currentBlock : Nat) :
    Except GovernanceError (GovernanceContract × Nat) :=
  if g.getVotingPower chainId proposer = 0 then .error .noVotingPower
  else if proposalType.isExitProposal = true ∧ g.activeExitProposals.contains chainId = true then
    .error .exitAlreadyInProgress
  else if proposalType.isExitProposal = true ∧ g.hasDispute chainId = true then
    .error .activeDisputeExists
  else
    let proposalId := g.nextProposalId
    let proposal := Proposal.new proposalId chainId proposer proposalType description proposalDeposit
      currentBlock
    .ok ({ g with
           nextProposalId := g.nextProposalId + 1
           activeExitProposals :=
             if proposalType.isExitProposal then g.activeExitProposals.insert chainId proposalId
             else g.activeExitProposals
           proposals := g.proposals.insert proposalId proposal
           proposalsByChain := g.proposalsByChain.insert chainId
             ((g.proposalsByChain.find? chainId).getD [] ++ [proposalId]) }, proposalId)

/-- A proposal with one more vote; the totals wrap. -/
def record (p : Proposal) (r : VoteRecord) : Proposal :=
  match r.vote with
  | .yes => { p with yesVotes := p.yesVotes + r.weight, votes := p.votes ++ [r] }
  | .no => { p with noVotes := p.noVotes + r.weight, votes := p.votes ++ [r] }
  | .abstain => { p with abstainVotes := p.abstainVotes + r.weight, votes := p.votes ++ [r] }

def vote (g : GovernanceContract) (proposalId : Nat) (voter : AccountId) (vote : Vote)
    (currentBlock : Nat) : Except GovernanceError GovernanceContract :=
  match g.proposals.find? proposalId with
  | none => .error .proposalNotFound
  | some p =>
    if p.isVotingOpen currentBlock = false then .error .votingClosed
    else if p.hasVoted voter then .error .alreadyVoted
    else
      let weight := g.getVotingPower p.chainId voter
      if weight = 0 then .error .noVotingPower
      else
        let p := record p { voter, vote, weight, timestamp := currentBlock }
        .ok { g with proposals := g.proposals.insert proposalId p }

/-- Free the exit slot of a proposal's chain. -/
def freeExit (g : GovernanceContract) (p : Proposal) : SortedMap ChainId Nat :=
  if p.proposalType.isExitProposal then g.activeExitProposals.erase p.chainId else g.activeExitProposals

def finalizeVoting (g : GovernanceContract) (proposalId : Nat) (currentBlock : Nat) :
    Except GovernanceError (GovernanceContract × ProposalStatus) :=
  match g.proposals.find? proposalId with
  | none => .error .proposalNotFound
  | some p =>
    if currentBlock < p.votingEndsAt then .error .votingStillOpen
    else if p.status ≠ .active then .error .alreadyFinalized
    else if p.passed (g.getTotalVotingPower p.chainId) then
      let timelockEndsAt := some (currentBlock + p.proposalType.timelockPeriod)
      let p := { p with status := .passed, timelockEndsAt }
      .ok ({ g with proposals := g.proposals.insert proposalId p }, .passed)
    else
      .ok ({ g with
             proposals := g.proposals.insert proposalId { p with status := .rejected }
             activeExitProposals := g.freeExit p }, .rejected)

def checkExecutionReady (g : GovernanceContract) (proposalId : Nat) (currentBlock : Nat) :
    Except GovernanceError (GovernanceContract × Bool) :=
  match g.proposals.find? proposalId with
  | none => .error .proposalNotFound
  | some p =>
    if p.status ≠ .passed then .ok (g, false)
    else if p.timelockEndsAt.any fun timelockEnd => decide (currentBlock ≥ timelockEnd) then
      .ok ({ g with proposals := g.proposals.insert proposalId { p with status := .readyToExecute } }, true)
    else .ok (g, false)

def markExecuted (g : GovernanceContract) (proposalId : Nat) (currentBlock : Nat) :
    Except GovernanceError GovernanceContract :=
  match g.proposals.find? proposalId with
  | none => .error .proposalNotFound
  | some p =>
    if p.status ≠ .readyToExecute then .error .notReadyToExecute
    else
      .ok { g with
            proposals := g.proposals.insert proposalId
              { p with status := .executed, executedAt := some currentBlock }
            activeExitProposals := g.freeExit p }

def cancelProposal (g : GovernanceContract) (proposalId : Nat) (caller : AccountId) (currentBlock : Nat) :
    Except GovernanceError GovernanceContract :=
  match g.proposals.find? proposalId with
  | none => .error .proposalNotFound
  | some p =>
    if p.proposer ≠ caller then .error .notProposer
    else if p.isVotingOpen currentBlock = false then .error .votingClosed
    else
      .ok { g with
            proposals := g.proposals.insert proposalId { p with status := .cancelled }
            activeExitProposals := g.freeExit p }

/-- Ready, but the grace period after the timelock is over. -/
def isStale (currentBlock : Nat) (p : Proposal) : Bool :=
  decide (p.status = .readyToExecute) &&
    p.timelockEndsAt.any fun timelockEnd => decide (currentBlock ≥ timelockEnd + gracePeriod)

def expireStaleProposals (g : GovernanceContract) (currentBlock : Nat) : GovernanceContract × List Nat :=
  let expired := (g.proposals.filter fun _ p => isStale currentBlock p).keys
  let g := { g with proposals := g.proposals.map fun _ p =>
               if isStale currentBlock p then { p with status := .expired } else p }
  (expired.foldl
    (fun g id =>
      match g.proposals.find? id with
      | some p => { g with activeExitProposals := g.freeExit p }
      | none => g) g, expired)

/-- In a final state and made before the given block. -/
def isOld (minBlock : Nat) (p : Proposal) : Bool :=
  !p.status.inProgress && decide (p.createdAt < minBlock)

/-- Drop one proposal with its place in the index. -/
def dropProposal (g : GovernanceContract) (id : Nat) : GovernanceContract :=
  match g.proposals.find? id with
  | none => g
  | some p =>
    { g with
      proposals := g.proposals.erase id
      proposalsByChain :=
        match g.proposalsByChain.find? p.chainId with
        | some ids => g.proposalsByChain.insert p.chainId (ids.filter fun i => decide (i ≠ id))
        | none => g.proposalsByChain }

def cleanupOldProposals (g : GovernanceContract) (currentBlock maxAge : Nat) : GovernanceContract :=
  let minBlock := currentBlock - maxAge
  let toRemove := (g.proposals.filter fun _ p => isOld minBlock p).keys
  toRemove.foldl dropProposal g

end GovernanceContract

/-- A call of the contract. -/
inductive GovOp where
  | setVotingPower (chainId : ChainId) (account : AccountId) (power : Balance)
  | addDispute (chainId : ChainId)
  | removeDispute (chainId : ChainId)
  | createProposal (chainId : ChainId) (proposer : AccountId) (proposalType : ProposalType)
      (description : Option String) (currentBlock : Nat)
  | vote (proposalId : Nat) (voter : AccountId) (vote : Vote) (currentBlock : Nat)
  | finalizeVoting (proposalId currentBlock : Nat)
  | checkExecutionReady (proposalId currentBlock : Nat)
  | markExecuted (proposalId currentBlock : Nat)
  | cancelProposal (proposalId : Nat) (caller : AccountId) (currentBlock : Nat)
  | expireStaleProposals (currentBlock : Nat)
  | cleanupOldProposals (currentBlock maxAge : Nat)
deriving DecidableEq, Repr

namespace GovernanceContract

def apply (g : GovernanceContract) : GovOp → GovernanceContract
  | .setVotingPower chainId account power => g.setVotingPower chainId account power
  | .addDispute chainId => g.addDispute chainId
  | .removeDispute chainId => g.removeDispute chainId
  | .createProposal chainId proposer proposalType description currentBlock =>
    ((g.createProposal chainId proposer proposalType description currentBlock).map Prod.fst).orKeep g
  | .vote proposalId voter vote currentBlock => (g.vote proposalId voter vote currentBlock).orKeep g
  | .finalizeVoting proposalId currentBlock =>
    ((g.finalizeVoting proposalId currentBlock).map Prod.fst).orKeep g
  | .checkExecutionReady proposalId currentBlock =>
    ((g.checkExecutionReady proposalId currentBlock).map Prod.fst).orKeep g
  | .markExecuted proposalId currentBlock => (g.markExecuted proposalId currentBlock).orKeep g
  | .cancelProposal proposalId caller currentBlock =>
    (g.cancelProposal proposalId caller currentBlock).orKeep g
  | .expireStaleProposals currentBlock => (g.expireStaleProposals currentBlock).1
  | .cleanupOldProposals currentBlock maxAge => g.cleanupOldProposals currentBlock maxAge

end GovernanceContract

end Kratos
