import Kratos.Lib.SortedMap
import Kratos.Types.Protocol
import Kratos.Types.Reputation

/-!
# Forks

Declarations of a fork with their supporters, the snapshots taken for it and the
state of ossification.  Blocks are natural numbers; voting power has 64 bits.
-/

namespace Kratos

inductive ConstitutionalAxiom where
  | exitAlwaysPossible
  | noGlobalAuthority
  | failureIsLocal
  | identityOptional
  | powerAccumulatesSlowly
  | noMandatoryLayer
  | forkingLegitimate
deriving DecidableEq, Repr

inductive ForkType where
  | technical (version : ProtocolVersion) (description : String)
  | constitutional (violatedAxiom : ConstitutionalAxiom) (rationale : String)
  | governance (deadlockReason : String) (failedProposals : Nat)
  | social (communityRationale : String)
  | survival (externalThreat : String)
deriving DecidableEq, Repr

/-- 30, 45 or 60 days. -/
def ForkType.minPreparationPeriod : ForkType → Nat
  | technical .. => 30 * 14400
  | constitutional .. => 60 * 14400
  | governance .. => 45 * 14400
  | social .. => 60 * 14400
  | survival .. => 30 * 14400

abbrev VotingPower := Fin (2 ^ 64)

inductive ForkDeclarant where
  | validators (count totalValidators : Nat) (votingPower : VotingPower)
  | stake (amount totalStake : Balance) (percent : Nat)
  | sidechains (chains : List ChainId)
  | emergencyEscalation (failedRecoveries : Nat)
deriving DecidableEq, Repr

inductive ForkStatus where
  | proposed
  | declared
  | ready
  | executed
  | cancelled
  | expired
deriving DecidableEq, Repr

structure ForkDeclaration where
  id : Hash
  name : String
  forkType : ForkType
  declaredBy : ForkDeclarant
  declaredAt : Nat
  preparationEnds : Nat
  forkHeight : Nat
  supportingValidators : Finset AccountId
  supportingStake : Balance
  supportingSidechains : List ChainId
  status : ForkStatus
  newChainId : Option ChainId
  description : String
deriving DecidableEq

namespace ForkDeclaration

/-- The digest of the name and the block. -/
def forkId (cr : Crypto) (name : String) (declaredAt : Nat) : Hash :=
  cr.blake3 (name.toUTF8.toList ++ Bytes.le 8 declaredAt)

def new (cr : Crypto) (name : String) (forkType : ForkType) (declaredBy : ForkDeclarant) (declaredAt : Nat)
    (description : String) : ForkDeclaration :=
  let preparationEnds := declaredAt + forkType.minPreparationPeriod
  { id := forkId cr name declaredAt, name, forkType, declaredBy, declaredAt, preparationEnds
    forkHeight := preparationEnds + 14400, supportingValidators := ∅, supportingStake := 0
    supportingSidechains := [], status := .proposed, newChainId := none, description }

/-- Proposed, declared or ready. -/
def isActive (f : ForkDeclaration) : Bool :=
  match f.status with
  | .proposed | .declared | .ready => true
  | _ => false

/-- The preparation is counted from the declaration. -/
def declare (f : ForkDeclaration) (declaredBy : ForkDeclarant) (currentBlock : Nat) : ForkDeclaration :=
  let preparationEnds := currentBlock + f.forkType.minPreparationPeriod
  { f with status := .declared, declaredBy, preparationEnds, forkHeight := preparationEnds + 14400 }

end ForkDeclaration

structure ValidatorSnapshot where
  id : AccountId
  stake : Balance
  validatorCredits : Nat
  isActive : Bool
deriving DecidableEq, Repr

structure ForkSnapshot where
  blockNumber : Nat
  stateRoot : Hash
  validatorSet : List ValidatorSnapshot
  identityMerkleRoot : Hash
  reputationMerkleRoot : Hash
  sidechainRegistryRoot : Hash
  totalSupply : Balance
  createdAt : Nat
  forkId : Hash
deriving DecidableEq, Repr

structure IdentitySnapshot where
  identityHash : Hash
  status : IdentityStatus
  attestationCount : Nat
  deposit : Balance
  registeredAt : Nat
deriving DecidableEq, Repr

structure ReputationSnapshot where
  identityHash : Hash
  chainId : ChainId
  domains : ReputationDomain → Option Nat
  postForkDecayMultiplier : Nat

inductive ForkAlignment where
  | followA
  | followB
  | independent
  | undecided
deriving DecidableEq, Repr

structure SidechainAlignment where
  chainId : ChainId
  forkId : Hash
  alignment : ForkAlignment
  decidedAt : Option Nat
  decidedBy : Option Hash
deriving DecidableEq, Repr

namespace SidechainAlignment

/-- Nothing was chosen yet. -/
def undecided (chainId : ChainId) (forkId : Hash) : SidechainAlignment :=
  { chainId, forkId, alignment := .undecided, decidedAt := none, decidedBy := none }

def setAlignment (a : SidechainAlignment) (alignment : ForkAlignment) (currentBlock : Nat) (proposalId : Hash) :
    SidechainAlignment :=
  { a with alignment, decidedAt := some currentBlock, decidedBy := some proposalId }

end SidechainAlignment

structure ForkContinuity where
  forkId : Hash
  forkBlock : Nat
  balanceSnapshot : SortedMap AccountId Balance
  identitySnapshots : SortedMap Hash IdentitySnapshot
  reputationSnapshots : SortedMap (ChainId ×ₗ Hash) ReputationSnapshot
  sidechainAlignments : SortedMap ChainId ForkAlignment

def ForkContinuity.new (forkId : Hash) (forkBlock : Nat) : ForkContinuity :=
  { forkId, forkBlock, balanceSnapshot := .empty, identitySnapshots := .empty, reputationSnapshots := .empty
    sidechainAlignments := .empty }

/-! ## Ossification -/

def blocksPerYear : Nat := 5256000

structure OssificationState where
  lastParameterChange : Nat
  ossificationProposed : Bool
  proposedAt : Option Nat
  ossificationVotes : SortedMap AccountId Bool
  approvalPower : VotingPower
  rejectionPower : VotingPower
  ossificationActive : Bool
  activatedAt : Option Nat

namespace OssificationState

def new : OssificationState :=
  { lastParameterChange := 0, ossificationProposed := false, proposedAt := none, ossificationVotes := .empty
    approvalPower := 0, rejectionPower := 0, ossificationActive := false, activatedAt := none }

/-- Ten years without a change of a parameter. -/
def canTriggerOssification (o : OssificationState) (currentBlock : Nat) : Bool :=
  !o.ossificationActive && decide ((currentBlock - o.lastParameterChange) / blocksPerYear ≥ 10)

/-- A vote that is going on is dropped. -/
def recordParameterChange (o : OssificationState) (currentBlock : Nat) : OssificationState :=
  let o := { o with lastParameterChange := currentBlock }
  if o.ossificationProposed && !o.ossificationActive then
    { o with ossificationProposed := false, proposedAt := none, ossificationVotes := .empty, approvalPower := 0
             rejectionPower := 0 }
  else o

end OssificationState

end Kratos
