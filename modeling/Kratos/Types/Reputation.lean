import Kratos.Types.Identity

/-!
# Reputation

Scores in six domains with their overall score, stakes that boost a reputation, imports
from other chains and endorsements.  A record always has all six domains, so its map is a
function of the domain.  The ids of stakes and endorsements are hashes of who made them,
for whom, and the block (`stakeIdBytes`, `endorsementIdBytes`).

The multiplier of a stake grows with the square root of the amount, in floating point:
`boost` stands for `(ratio.sqrt() * 10.0) as u32`.
-/

namespace Kratos

def maxDomainScore : Nat := 10000
def reputationStakeLock : Nat := 1296000
def minReputationStake : Balance := 100
def maxStakeMultiplier : Nat := 200
def domainDecayRate : Nat := 2
def crossChainDiscount : Nat := 50
def maxEndorsementsPerDomain : Nat := 50
def baseEndorsementPoints : Nat := 10

/-! ## Domains -/

inductive ReputationDomain where
  | governance
  | technical
  | community
  | arbitration
  | economic
  | validation
deriving DecidableEq, Repr

namespace ReputationDomain

def all : List ReputationDomain := [governance, technical, community, arbitration, economic, validation]

def weight : ReputationDomain → Nat
  | governance => 25
  | technical => 20
  | community => 20
  | arbitration => 15
  | economic => 10
  | validation => 10

def decayRate : ReputationDomain → Nat
  | validation => 1
  | _ => domainDecayRate

/-- The variant as a byte. -/
def toU8 : ReputationDomain → UInt8
  | governance => 0
  | technical => 1
  | community => 2
  | arbitration => 3
  | economic => 4
  | validation => 5

theorem toU8_inj (d e : ReputationDomain) (h : d.toU8 = e.toU8) : d = e := by
  cases d <;> cases e <;> first | rfl | cases h

end ReputationDomain

structure DomainReputation where
  score : Nat
  actionCount : Nat
  lastActivity : Nat
  endorsementCount : Nat
  endorsementWeight : Nat
  slashCount : Nat
deriving DecidableEq, Repr

namespace DomainReputation

def new : DomainReputation :=
  { score := 0, actionCount := 0, lastActivity := 0, endorsementCount := 0, endorsementWeight := 0, slashCount := 0 }

def addScore (r : DomainReputation) (points : Nat) : Nat := min (min (r.score + points) (2 ^ 32 - 1)) maxDomainScore

def add (r : DomainReputation) (points currentBlock : Nat) : DomainReputation :=
  { r with score := r.addScore points, actionCount := (r.actionCount + 1) % 2 ^ 32, lastActivity := currentBlock }

/-- The last activity stays as it was. -/
def applyDecay (r : DomainReputation) (currentBlock decayRate : Nat) : DomainReputation :=
  let periods := (currentBlock - r.lastActivity) / reputationDecayInterval
  if periods > 0 then
    let decay := min (min (r.score * periods) Word.u64Max * decayRate) Word.u64Max / 100
    { r with score := r.score - decay % 2 ^ 32 }
  else r

def slash (r : DomainReputation) (penaltyPercent : Nat) : DomainReputation :=
  let penalty := min (r.score * penaltyPercent) Word.u64Max / 100
  { r with score := r.score - penalty % 2 ^ 32, slashCount := (r.slashCount + 1) % 2 ^ 32 }

def addEndorsement (r : DomainReputation) (weight : Nat) : DomainReputation :=
  { r with endorsementCount := r.endorsementCount + 1, endorsementWeight := r.endorsementWeight + weight
           score := r.addScore (weight * baseEndorsementPoints / 10) }

end DomainReputation

/-- From 1 to 10. -/
def endorsementWeight (endorserRep : Nat) : Nat := min (max (endorserRep / 1000) 1) 10

structure MultiDimensionalReputation where
  identityId : IdentityId
  domains : ReputationDomain → DomainReputation
  overallScore : Nat
  createdAt : Nat
  updatedAt : Nat

namespace MultiDimensionalReputation

def new (identityId : IdentityId) (currentBlock : Nat) : MultiDimensionalReputation :=
  { identityId, domains := fun _ => .new, overallScore := 0, createdAt := currentBlock, updatedAt := currentBlock }

def setDomain (r : MultiDimensionalReputation) (domain : ReputationDomain) (d : DomainReputation) :
    MultiDimensionalReputation :=
  { r with domains := Function.update r.domains domain d }

def recalculateOverall (r : MultiDimensionalReputation) : MultiDimensionalReputation :=
  let weightedSum := (ReputationDomain.all.map fun d => (r.domains d).score * d.weight).sum
  let totalWeight := (ReputationDomain.all.map ReputationDomain.weight).sum
  { r with overallScore := weightedSum / totalWeight % 2 ^ 32 }

def addDomainRep (r : MultiDimensionalReputation) (domain : ReputationDomain) (points currentBlock : Nat) :
    MultiDimensionalReputation :=
  { r.setDomain domain ((r.domains domain).add points currentBlock) with updatedAt := currentBlock }.recalculateOverall

def applyDecay (r : MultiDimensionalReputation) (currentBlock : Nat) : MultiDimensionalReputation :=
  { r with domains := fun d => (r.domains d).applyDecay currentBlock d.decayRate }.recalculateOverall

def slashDomain (r : MultiDimensionalReputation) (domain : ReputationDomain) (penaltyPercent : Nat) :
    MultiDimensionalReputation :=
  (r.setDomain domain ((r.domains domain).slash penaltyPercent)).recalculateOverall

/-- Refused in a domain with all the endorsements it may have. -/
def addEndorsement (r : MultiDimensionalReputation) (domain : ReputationDomain) (endorserRep : Nat) :
    MultiDimensionalReputation × Bool :=
  let d := r.domains domain
  if d.endorsementCount ≥ maxEndorsementsPerDomain then (r, false)
  else ((r.setDomain domain (d.addEndorsement (endorsementWeight endorserRep))).recalculateOverall, true)

end MultiDimensionalReputation

/-! ## Stakes -/

structure ReputationStake where
  stakeId : Hash
  staker : AccountId
  identityId : IdentityId
  amount : Balance
  stakedAt : Nat
  lockedUntil : Nat
  domain : Option ReputationDomain
  multiplier : Nat
  slashed : Bool
deriving DecidableEq, Repr

/-- The string a stake id is the hash of. -/
def stakeIdBytes (staker : AccountId) (identity : IdentityId) (block : Nat) : List UInt8 :=
  staker.asBytes ++ (identity.asBytes ++ Bytes.le 8 block)

/-- The data can be read off it. -/
theorem stakeIdBytes_inj (s s' : AccountId) (i i' : IdentityId) (b b' : Nat) (hb : b < 2 ^ 64) (hb' : b' < 2 ^ 64)
    (h : stakeIdBytes s i b = stakeIdBytes s' i' b') : s = s' ∧ i = i' ∧ b = b' := by
  obtain ⟨hs, hrest⟩ := List.append_inj h (by simp)
  obtain ⟨hi, hblock⟩ := List.append_inj hrest (by simp)
  exact ⟨AccountId.asBytes_inj s s' hs, Hash.asBytes_inj i i' hi,
    Bytes.le_inj 8 b b' (by omega) (by omega) hblock⟩

namespace ReputationStake

def computeId (cr : Crypto) (staker : AccountId) (identity : IdentityId) (block : Nat) : Hash :=
  cr.blake3 (stakeIdBytes staker identity block)

/-- The sum wraps for the largest boosts. -/
def calculateMultiplier (boost : Balance → Nat) (amount : Balance) : Nat :=
  min ((100 + boost amount) % 2 ^ 32) maxStakeMultiplier

def new (cr : Crypto) (boost : Balance → Nat) (staker : AccountId) (identityId : IdentityId) (amount : Balance)
    (domain : Option ReputationDomain) (currentBlock : Nat) : Option ReputationStake :=
  if amount < minReputationStake then none
  else
    some
      { stakeId := computeId cr staker identityId currentBlock, staker, identityId, amount
        stakedAt := currentBlock, lockedUntil := currentBlock + reputationStakeLock, domain
        multiplier := calculateMultiplier boost amount, slashed := false }

def isLocked (s : ReputationStake) (currentBlock : Nat) : Bool := currentBlock < s.lockedUntil

def canWithdraw (s : ReputationStake) (currentBlock : Nat) : Bool := !s.isLocked currentBlock && !s.slashed

/-- The penalty on the amount as a `u64`. -/
def penalty (s : ReputationStake) (penaltyPercent : Nat) : Nat :=
  min (s.amount.val % 2 ^ 64 * penaltyPercent) Word.u64Max / 100

/-- A penalty that is too large takes all.  A stake is slashed once. -/
def slash (s : ReputationStake) (penaltyPercent : Nat) : ReputationStake × Nat :=
  if s.slashed then (s, 0)
  else
    let p := s.penalty penaltyPercent
    ({ s with amount := ⟨s.amount.val - p, by omega⟩, slashed := true, multiplier := 100 }, p)

end ReputationStake

/-! ## Imports from other chains -/

structure CrossChainReputation where
  sourceChain : ChainId
  sourceIdentity : IdentityId
  targetChain : ChainId
  importedScore : Nat
  importedAt : Nat
  proofHash : Hash
  verified : Bool
deriving DecidableEq, Repr

namespace CrossChainReputation

def new (sourceChain : ChainId) (sourceIdentity : IdentityId) (targetChain : ChainId) (originalScore : Nat)
    (proofHash : Hash) (currentBlock : Nat) : CrossChainReputation :=
  { sourceChain, sourceIdentity, targetChain
    importedScore := min (originalScore * crossChainDiscount) (2 ^ 32 - 1) / 100
    importedAt := currentBlock, proofHash, verified := false }

def verify (i : CrossChainReputation) : CrossChainReputation := { i with verified := true }

def effectiveScore (i : CrossChainReputation) : Nat := if i.verified then i.importedScore else 0

end CrossChainReputation

/-! ## Endorsements -/

structure Endorsement where
  endorsementId : Hash
  endorser : AccountId
  endorserIdentity : IdentityId
  targetIdentity : IdentityId
  domain : ReputationDomain
  weight : Nat
  endorsedAt : Nat
  context : Option String
  active : Bool
deriving DecidableEq, Repr

/-- The string an endorsement id is the hash of. -/
def endorsementIdBytes (endorser target : IdentityId) (domain : ReputationDomain) (block : Nat) : List UInt8 :=
  endorser.asBytes ++ (target.asBytes ++ domain.toU8 :: Bytes.le 8 block)

/-- The data can be read off it. -/
theorem endorsementIdBytes_inj (e e' t t' : IdentityId) (d d' : ReputationDomain) (b b' : Nat) (hb : b < 2 ^ 64)
    (hb' : b' < 2 ^ 64) (h : endorsementIdBytes e t d b = endorsementIdBytes e' t' d' b') :
    e = e' ∧ t = t' ∧ d = d' ∧ b = b' := by
  obtain ⟨he, hrest⟩ := List.append_inj h (by simp)
  obtain ⟨ht, hrest⟩ := List.append_inj hrest (by simp)
  obtain ⟨hd, hblock⟩ := List.cons.inj hrest
  exact ⟨Hash.asBytes_inj e e' he, Hash.asBytes_inj t t' ht, ReputationDomain.toU8_inj d d' hd,
    Bytes.le_inj 8 b b' (by omega) (by omega) hblock⟩

namespace Endorsement

def computeId (cr : Crypto) (endorser target : IdentityId) (domain : ReputationDomain) (block : Nat) : Hash :=
  cr.blake3 (endorsementIdBytes endorser target domain block)

def new (cr : Crypto) (endorser : AccountId) (endorserIdentity targetIdentity : IdentityId)
    (domain : ReputationDomain) (endorserReputation : Nat) (context : Option String) (currentBlock : Nat) :
    Endorsement :=
  { endorsementId := computeId cr endorserIdentity targetIdentity domain currentBlock
    endorser, endorserIdentity, targetIdentity, domain, weight := endorsementWeight endorserReputation
    endorsedAt := currentBlock, context, active := true }

def revoke (e : Endorsement) : Endorsement := { e with active := false }

end Endorsement

end Kratos
