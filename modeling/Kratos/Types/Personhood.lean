import Kratos.Types.Identity

/-!
# Personhood

Challenges to an identity and the answers to them, commitments to uniqueness, and the
score that sums them up.  The id of a challenge is the hash of its target, its challenger
and the block it was issued at (`challengeIdBytes`).  The counters and scores are `u32`.
-/

namespace Kratos

def challengePeriod : Nat := 100800
def minChallengeInterval : Nat := 432000
def challengeDeposit : Balance := 50
def challengeFailurePenalty : Balance := 100

/-- Maximum simultaneous challenges per identity. -/
def maxChallengesPerIdentity : Nat := 3

/-! ## Challenges -/

inductive ChallengeType where
  | liveness (nonce : Hash)
  | socialVerification (requiredAttestations : Nat)
  | uniquenessChallenge (suspectedDuplicate : IdentityId)
  | stakeChallenge (requiredStake : Balance)
deriving DecidableEq, Repr

inductive ChallengeStatus where
  | pending
  | responseSubmitted
  | passed
  | failed
  | expired
  | cancelled
deriving DecidableEq, Repr

/-- Neither resolved nor cancelled yet. -/
def ChallengeStatus.isOpen : ChallengeStatus → Bool
  | pending | responseSubmitted => true
  | passed | failed | expired | cancelled => false

inductive ChallengeResponseData where
  | livenessProof (signature : Hash)
  | socialProof (attestationIds : List Hash)
  | uniquenessProof (proofHash : Hash) (witnesses : List AccountId)
  | stakeProof (stakeAmount : Balance) (lockUntil : Nat)
deriving DecidableEq, Repr

structure ChallengeResponse where
  submittedAt : Nat
  responseData : ChallengeResponseData
deriving DecidableEq, Repr

structure PersonhoodChallenge where
  challengeId : Hash
  targetIdentity : IdentityId
  challenger : AccountId
  challengeType : ChallengeType
  issuedAt : Nat
  expiresAt : Nat
  deposit : Balance
  status : ChallengeStatus
  response : Option ChallengeResponse
deriving DecidableEq, Repr

/-- The string a challenge id is the hash of. -/
def challengeIdBytes (target : IdentityId) (challenger : AccountId) (block : Nat) : List UInt8 :=
  target.asBytes ++ (challenger.asBytes ++ Bytes.le 8 block)

/-- The target and the block can be read off it. -/
theorem challengeIdBytes_inj (t t' : IdentityId) (c c' : AccountId) (b b' : Nat) (hb : b < 2 ^ 64)
    (hb' : b' < 2 ^ 64) (h : challengeIdBytes t c b = challengeIdBytes t' c' b') : t = t' ∧ b = b' := by
  obtain ⟨ht, hrest⟩ := List.append_inj h (by simp)
  obtain ⟨-, hblock⟩ := List.append_inj hrest (by simp)
  exact ⟨Hash.asBytes_inj t t' ht, Bytes.le_inj 8 b b' (by omega) (by omega) hblock⟩

namespace PersonhoodChallenge

def computeId (cr : Crypto) (target : IdentityId) (challenger : AccountId) (block : Nat) : Hash :=
  cr.blake3 (challengeIdBytes target challenger block)

def new (cr : Crypto) (targetIdentity : IdentityId) (challenger : AccountId) (challengeType : ChallengeType)
    (deposit : Balance) (currentBlock : Nat) : PersonhoodChallenge :=
  { challengeId := computeId cr targetIdentity challenger currentBlock
    targetIdentity, challenger, challengeType, issuedAt := currentBlock
    expiresAt := currentBlock + challengePeriod, deposit, status := .pending, response := none }

def isExpired (c : PersonhoodChallenge) (currentBlock : Nat) : Bool := currentBlock > c.expiresAt

end PersonhoodChallenge

/-! ## Uniqueness -/

structure UniquenessCommitment where
  identityId : IdentityId
  commitment : Hash
  committedAt : Nat
  verified : Bool
  witnesses : List AccountId
deriving DecidableEq, Repr

namespace UniquenessCommitment

def new (cr : Crypto) (identityId : IdentityId) (commitmentData : List UInt8) (currentBlock : Nat) :
    UniquenessCommitment :=
  { identityId, commitment := cr.blake3 commitmentData, committedAt := currentBlock, verified := false
    witnesses := [] }

/-- Three witnesses verify it. -/
def addWitness (u : UniquenessCommitment) (witness : AccountId) : UniquenessCommitment × Bool :=
  if witness ∈ u.witnesses then (u, false)
  else
    let witnesses := u.witnesses ++ [witness]
    ({ u with witnesses, verified := u.verified || decide (witnesses.length ≥ 3) }, true)

end UniquenessCommitment

/-! ## Scores -/

structure PersonhoodScore where
  total : Nat
  socialScore : Nat
  challengeScore : Nat
  uniquenessScore : Nat
  longevityScore : Nat
  activityScore : Nat
  challengesPassed : Nat
  challengesFailed : Nat
  lastVerified : Nat
deriving DecidableEq, Repr

namespace PersonhoodScore

def new : PersonhoodScore :=
  { total := 0, socialScore := 0, challengeScore := 0, uniquenessScore := 0, longevityScore := 0
    activityScore := 0, challengesPassed := 0, challengesFailed := 0, lastVerified := 0 }

def recalculate (s : PersonhoodScore) : PersonhoodScore :=
  { s with total := (s.socialScore + s.challengeScore + s.uniquenessScore + s.longevityScore +
      s.activityScore) % 2 ^ 32 }

def recordChallengePass (s : PersonhoodScore) (currentBlock : Nat) : PersonhoodScore :=
  let passed := (s.challengesPassed + 1) % 2 ^ 32
  { s with challengesPassed := passed, challengeScore := min (passed * 20 % 2 ^ 32) 200
           lastVerified := currentBlock }.recalculate

def recordChallengeFail (s : PersonhoodScore) : PersonhoodScore :=
  { s with challengesFailed := (s.challengesFailed + 1) % 2 ^ 32
           challengeScore := s.challengeScore - 50 }.recalculate

def updateUniqueness (s : PersonhoodScore) (verified : Bool) (witnessCount : Nat) : PersonhoodScore :=
  { s with uniquenessScore := if verified then 100 + min (witnessCount * 20 % 2 ^ 32) 100 else 0 }.recalculate

/-- 200 points after a year. -/
def updateLongevity (s : PersonhoodScore) (identityAgeBlocks : Nat) : PersonhoodScore :=
  { s with longevityScore := min (identityAgeBlocks * 200 % 2 ^ 64 / 5256000 % 2 ^ 32) 200 }.recalculate

def updateActivity (s : PersonhoodScore) (actionsLastMonth : Nat) : PersonhoodScore :=
  { s with activityScore := min (actionsLastMonth * 10 % 2 ^ 32) 200 }.recalculate

/-- The counters of the challenges it went through. -/
def counters (s : PersonhoodScore) : Nat × Nat := (s.challengesPassed, s.challengesFailed)

end PersonhoodScore

end Kratos
