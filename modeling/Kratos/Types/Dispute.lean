import Kratos.Types.Fraud

/-!
# Disputes

A dispute collects evidence, is deliberated by a jury and ends with a verdict; a
verdict may be appealed.  `isValidTransition` is the table of the status changes.
Block numbers are natural numbers.
-/

namespace Kratos

def minJurySize : Nat := 7
def maxJurySize : Nat := 21
def defaultJurySize : Nat := 13
def maxEvidenceCount : Nat := 50

/-- 7 days. -/
def evidenceSubmissionPeriod : Nat := 100800

/-- 14 days. -/
def deliberationPeriod : Nat := 201600

/-- 58 days. -/
def maxDisputeDuration : Nat := 835200

inductive DisputeType where
  | validatorMisconduct
  | crossChainTreatyViolation
  | fraudulentExit
  | stateRootDispute
deriving DecidableEq, Repr

/-- Where a dispute is resolved: on the sidechain, its host or the root chain. -/
inductive Jurisdiction where
  | localTo (chainId : ChainId)
  | host (chainId : ChainId)
  | root
deriving DecidableEq, Repr

inductive DisputeStatus where
  | opened
  | evidenceComplete
  | deliberating
  | resolved
  | appealed
  | dismissed
  | expired
deriving DecidableEq, Repr

/-- As the source prints it. -/
def DisputeStatus.debug : DisputeStatus → String
  | opened => "Open"
  | evidenceComplete => "EvidenceComplete"
  | deliberating => "Deliberating"
  | resolved => "Resolved"
  | appealed => "Appealed"
  | dismissed => "Dismissed"
  | expired => "Expired"

inductive Evidence where
  | fraudProof (proof : FraudProof)
  | stateProof (proof : MerkleProof) (description : String)
  | blockHeaders (headers : List BlockHeader) (description : String)
  | textEvidence (content : String) (submittedBy : AccountId) (submittedAt : Nat)

inductive Verdict where
  | guilty
  | notGuilty
  | abstain
deriving DecidableEq, Repr

structure JuryVote where
  juror : AccountId
  verdict : Verdict
  justification : Option String
  timestamp : Nat
deriving DecidableEq, Repr

inductive Enforcement where
  | slashValidator (validator : AccountId) (amount : Balance) (severity : FraudSeverity)
  | slashValidatorCredits (validator : AccountId) (amount : Nat)
  | forceExit (chainId : ChainId)
  | invalidateStateRoot (chainId : ChainId) (root : Hash)
  | slashAccuser (accuser : AccountId) (amount : Balance)
  | noAction
deriving DecidableEq, Repr

structure JuryDecision where
  disputeId : Nat
  votes : List JuryVote
  verdict : Verdict
  convictionPercentage : Nat
  decidedAt : Nat
  enforcement : Option Enforcement
deriving DecidableEq, Repr

/-- The votes are counted in a byte. -/
def JuryDecision.tallyVotes (votes : List JuryVote) (decidedAt disputeId : Nat) : JuryDecision :=
  let totalVotes := votes.length % 2 ^ 8
  if totalVotes = 0 then
    { disputeId, votes, verdict := .notGuilty, convictionPercentage := 0, decidedAt, enforcement := none }
  else
    let guiltyVotes := (votes.countP fun v => v.verdict = .guilty) % 2 ^ 8
    let notGuiltyVotes := (votes.countP fun v => v.verdict = .notGuilty) % 2 ^ 8
    { disputeId, votes, verdict := if guiltyVotes > notGuiltyVotes then .guilty else .notGuilty
      convictionPercentage := guiltyVotes * 100 / totalVotes % 2 ^ 8, decidedAt, enforcement := none }

structure Dispute where
  id : Nat
  chainId : ChainId
  disputeType : DisputeType
  raisedBy : AccountId
  raisedAt : Nat
  evidence : List Evidence
  status : DisputeStatus
  jurisdiction : Jurisdiction
  juryMembers : List AccountId
  juryVotes : List JuryVote
  decision : Option JuryDecision
  evidenceDeadline : Nat
  deliberationDeadline : Option Nat

namespace Dispute

def new (id : Nat) (chainId : ChainId) (disputeType : DisputeType) (raisedBy : AccountId) (raisedAt : Nat)
    (jurisdiction : Jurisdiction) : Dispute :=
  { id, chainId, disputeType, raisedBy, raisedAt, evidence := [], status := .opened, jurisdiction
    juryMembers := [], juryVotes := [], decision := none
    evidenceDeadline := raisedAt + evidenceSubmissionPeriod, deliberationDeadline := none }

def canSubmitEvidence (d : Dispute) (currentBlock : Nat) : Bool :=
  decide (currentBlock ≤ d.evidenceDeadline) && decide (d.status = .opened)

def canVote (d : Dispute) (currentBlock : Nat) : Bool :=
  decide (d.status = .deliberating) && d.deliberationDeadline.any fun deadline => decide (currentBlock ≤ deadline)

/-- The validator of the first fraud proof. -/
def accused (d : Dispute) : Option AccountId :=
  d.evidence.findSome? fun
    | .fraudProof proof => some proof.accusedValidator
    | _ => none

/-- An appealed dispute is not among those that no longer expire. -/
def isExpired (d : Dispute) (currentBlock : Nat) : Bool :=
  match d.status with
  | .resolved | .dismissed | .expired => false
  | _ => decide (currentBlock > d.raisedAt + maxDisputeDuration)

def isValidTransition (d : Dispute) (newStatus : DisputeStatus) : Bool :=
  match d.status, newStatus with
  | .opened, .evidenceComplete => true
  | .opened, .deliberating => true
  | .opened, .dismissed => true
  | .opened, .expired => true
  | .evidenceComplete, .deliberating => true
  | .evidenceComplete, .dismissed => true
  | .evidenceComplete, .expired => true
  | .deliberating, .resolved => true
  | .deliberating, .dismissed => true
  | .deliberating, .expired => true
  | .resolved, .appealed => true
  | .appealed, _ => false
  | .dismissed, _ => false
  | .expired, _ => false
  | current, new => decide (current = new)

/-- Too old, without evidence at its deadline, without a jury a week later, or
without a quorum at the end of the deliberation. -/
def isStale (d : Dispute) (currentBlock : Nat) : Bool :=
  d.isExpired currentBlock ||
    match d.status with
    | .opened => decide (currentBlock > d.evidenceDeadline) && d.evidence.isEmpty
    | .evidenceComplete => decide (currentBlock > d.evidenceDeadline + 100800) && d.juryMembers.isEmpty
    | .deliberating =>
      match d.deliberationDeadline with
      | some deadline =>
        decide (currentBlock > deadline) && decide (d.juryVotes.length < d.juryMembers.length / 2 + 1)
      | none => false
    | _ => false

/-- The dispute keeps the chain from exiting. -/
def blocks (d : Dispute) (chainId : ChainId) : Bool :=
  decide (d.chainId = chainId) &&
    match d.status with
    | .opened | .evidenceComplete | .deliberating => true
    | _ => false

end Dispute

end Kratos
