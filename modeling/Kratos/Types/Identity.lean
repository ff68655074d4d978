import Kratos.Types.Primitives

/-!
# Identities

Identity commitments with their life cycle and reputation, the attestations others give
them, and the settings of a chain against fake identities.  Block numbers are natural
numbers.  The id of an identity is the hash of its owner, its chain and its commitment
(`identityIdBytes`).
-/

namespace Kratos

/-- Blake3 hash of the commitment data. -/
abbrev IdentityId : Type := Hash

def defaultIdentityExpiry : Nat := 2592000
def minAttestationsForActive : Nat := 3
def attestationExpiry : Nat := 1296000
def maxAttestations : Nat := 100
def reputationDecayInterval : Nat := 100800
def reputationDecayPercent : Nat := 1
def maxReputation : Nat := 10000

inductive IdentityStatus where
  | declared
  | attested
  | active
  | expired
  | revoked
deriving DecidableEq, Repr

def IdentityStatus.canReceiveAttestations : IdentityStatus → Bool
  | declared | attested | active => true
  | expired | revoked => false

/-! ## Reputation -/

structure ReputationScore where
  score : Nat
  governanceActions : Nat
  arbitrationCount : Nat
  attestationsGiven : Nat
  slashCount : Nat
deriving DecidableEq, Repr

namespace ReputationScore

def new : ReputationScore :=
  { score := 0, governanceActions := 0, arbitrationCount := 0, attestationsGiven := 0, slashCount := 0 }

def add (r : ReputationScore) (points : Nat) : ReputationScore :=
  { r with score := min (min (r.score + points) (2 ^ 32 - 1)) maxReputation }

def subtract (r : ReputationScore) (points : Nat) : ReputationScore := { r with score := r.score - points }

def recordGovernance (r : ReputationScore) (points : Nat) : ReputationScore :=
  { r with governanceActions := r.governanceActions + 1 }.add points

def recordArbitration (r : ReputationScore) (points : Nat) : ReputationScore :=
  { r with arbitrationCount := r.arbitrationCount + 1 }.add points

def recordAttestation (r : ReputationScore) (points : Nat) : ReputationScore :=
  { r with attestationsGiven := r.attestationsGiven + 1 }.add points

def applySlash (r : ReputationScore) (penaltyPercent : Nat) : ReputationScore :=
  { r with slashCount := r.slashCount + 1 }.subtract ((r.score * penaltyPercent / 100) % 2 ^ 32)

end ReputationScore

/-! ## Commitments -/

structure IdentityCommitment where
  identityId : IdentityId
  owner : AccountId
  scope : ChainId
  commitment : Hash
  displayName : Option String
  declaredAt : Nat
  expiresAt : Nat
  status : IdentityStatus
  reputation : ReputationScore
  lastActivity : Nat
deriving DecidableEq, Repr

/-- The string an identity id is the hash of. -/
def identityIdBytes (owner : AccountId) (scope : ChainId) (commitment : Hash) : List UInt8 :=
  owner.asBytes ++ (Bytes.le 4 scope.id.val ++ commitment.asBytes)

/-- The owner can be read off it. -/
theorem owner_eq_of_identityIdBytes_eq (o o' : AccountId) (s s' : ChainId) (c c' : Hash)
    (h : identityIdBytes o s c = identityIdBytes o' s' c') : o = o' :=
  AccountId.asBytes_inj o o' (List.append_inj h (by simp)).1

namespace IdentityCommitment

def computeIdentityId (cr : Crypto) (owner : AccountId) (scope : ChainId) (commitment : Hash) : IdentityId :=
  cr.blake3 (identityIdBytes owner scope commitment)

def new (cr : Crypto) (owner : AccountId) (scope : ChainId) (commitmentData : List UInt8)
    (displayName : Option String) (createdAt : Nat) : IdentityCommitment :=
  let commitment := cr.blake3 commitmentData
  { identityId := computeIdentityId cr owner scope commitment, owner, scope, commitment, displayName
    declaredAt := createdAt, expiresAt := createdAt + defaultIdentityExpiry, status := .declared
    reputation := .new, lastActivity := createdAt }

def isExpired (i : IdentityCommitment) (currentBlock : Nat) : Bool := currentBlock > i.expiresAt

def isActive (i : IdentityCommitment) (currentBlock : Nat) : Bool :=
  i.status = .active && !i.isExpired currentBlock

def renew (i : IdentityCommitment) (currentBlock : Nat) : IdentityCommitment :=
  { i with expiresAt := currentBlock + defaultIdentityExpiry }

def recordActivity (i : IdentityCommitment) (currentBlock : Nat) : IdentityCommitment :=
  { i with lastActivity := currentBlock }

/-- One percent of the score for every period without activity. -/
def applyDecay (i : IdentityCommitment) (currentBlock : Nat) : IdentityCommitment :=
  let periods := (currentBlock - i.lastActivity) / reputationDecayInterval
  if periods > 0 then
    { i with reputation := i.reputation.subtract ((i.reputation.score * periods * reputationDecayPercent / 100) % 2 ^ 32)
             lastActivity := currentBlock }
  else i

end IdentityCommitment

/-! ## Attestations -/

structure IdentityAttestation where
  attester : AccountId
  attesterIdentity : IdentityId
  targetIdentity : IdentityId
  claimHash : Hash
  weight : Nat
  attestedAt : Nat
  expiresAt : Nat
  isValid : Bool
deriving DecidableEq, Repr

namespace IdentityAttestation

def new (cr : Crypto) (attester : AccountId) (attesterIdentity targetIdentity : IdentityId)
    (claimData : List UInt8) (weight currentBlock : Nat) : IdentityAttestation :=
  { attester, attesterIdentity, targetIdentity, claimHash := cr.blake3 claimData, weight
    attestedAt := currentBlock, expiresAt := currentBlock + attestationExpiry, isValid := true }

def isExpired (a : IdentityAttestation) (currentBlock : Nat) : Bool := currentBlock > a.expiresAt

def isActive (a : IdentityAttestation) (currentBlock : Nat) : Bool := a.isValid && !a.isExpired currentBlock

def revoke (a : IdentityAttestation) : IdentityAttestation := { a with isValid := false }

end IdentityAttestation

/-- From 1 to 10. -/
def calculateAttestationWeight (attesterReputation : Nat) : Nat :=
  min ((attesterReputation / 1000) % 256 + 1) 10

inductive RevocationReason where
  | voluntary
  | misconduct
  | fraudulentAttestations
  | governanceAction
deriving DecidableEq, Repr

structure AntiSybilConfig where
  maxVotingPowerPercent : Nat
  minAttestations : Nat
  enableDiminishingReturns : Bool
  enableReputationDecay : Bool
deriving DecidableEq, Repr

def AntiSybilConfig.default : AntiSybilConfig :=
  { maxVotingPowerPercent := 5, minAttestations := minAttestationsForActive
    enableDiminishingReturns := true, enableReputationDecay := true }

end Kratos
