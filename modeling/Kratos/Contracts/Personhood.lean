import Kratos.Contracts.Identity
import Kratos.Types.Personhood

/-!
# Personhood registry

Anyone may challenge an active identity against a deposit.  The owner of the identity
responds, the challenge is resolved, and the deposit goes back to the challenger, with a
penalty on top if the identity failed.  The challenger may cancel before there is a
response.  The registry keeps all challenges by id, their ids by target, the block of the
last challenge to each target, the commitments to uniqueness and the scores.

The identity registry is read only, and each call may be given any.  The social graph and
the events for indexers are left out.
-/

namespace Kratos

structure PersonhoodConfig where
  challengesEnabled : Bool
  challengeCooldownMultiplier : Nat
deriving DecidableEq, Repr

def PersonhoodConfig.default : PersonhoodConfig := { challengesEnabled := true, challengeCooldownMultiplier := 1 }

structure PersonhoodRegistry where
  chainId : ChainId
  challenges : SortedMap Hash PersonhoodChallenge
  challengesByIdentity : SortedMap IdentityId (List Hash)
  lastChallengeTime : SortedMap IdentityId Nat
  uniquenessCommitments : SortedMap IdentityId UniquenessCommitment
  personhoodScores : SortedMap IdentityId PersonhoodScore
  config : PersonhoodConfig

inductive PersonhoodError where
  | challengesDisabled
  | targetNotActive
  | challengeCooldown
  | tooManyChallenges
  | insufficientDeposit
  | challengeNotFound
  | responderHasNoIdentity
  | notChallengeTarget
  | challengeNotPending
  | challengeExpired
  | invalidResponseType
  | challengeNotReady
  | noResponse
  | notChallenger
  | identityNotFound
  | commitmentExists
  | noCommitment
deriving DecidableEq, Repr

namespace PersonhoodRegistry

def withConfig (chainId : ChainId) (config : PersonhoodConfig) : PersonhoodRegistry :=
  { chainId, challenges := .empty, challengesByIdentity := .empty, lastChallengeTime := .empty
    uniquenessCommitments := .empty, personhoodScores := .empty, config }

def setChallenge (r : PersonhoodRegistry) (id : Hash) (c : PersonhoodChallenge) : PersonhoodRegistry :=
  { r with challenges := r.challenges.insert id c }

/-- Change the score of an identity that has one. -/
def withScore (r : PersonhoodRegistry) (id : IdentityId) (f : PersonhoodScore → PersonhoodScore) :
    PersonhoodRegistry :=
  match r.personhoodScores.find? id with
  | none => r
  | some s => { r with personhoodScores := r.personhoodScores.insert id (f s) }

/-! ## Challenges -/

/-- The ids of all challenges to an identity. -/
def challengesOf (r : PersonhoodRegistry) (id : IdentityId) : List Hash :=
  (r.challengesByIdentity.find? id).getD []

def cooledDown (r : PersonhoodRegistry) (target : IdentityId) (currentBlock : Nat) : Bool :=
  match r.lastChallengeTime.find? target with
  | none => true
  | some last => !decide (currentBlock < last + minChallengeInterval * r.config.challengeCooldownMultiplier)

def addChallenge (r : PersonhoodRegistry) (c : PersonhoodChallenge) (currentBlock : Nat) : PersonhoodRegistry :=
  { r with
    challenges := r.challenges.insert c.challengeId c
    challengesByIdentity := r.challengesByIdentity.insert c.targetIdentity
      (r.challengesOf c.targetIdentity ++ [c.challengeId])
    lastChallengeTime := r.lastChallengeTime.insert c.targetIdentity currentBlock }

/-- All challenges ever issued to the target count. -/
def issueChallenge (cr : Crypto) (r : PersonhoodRegistry) (challenger : AccountId) (target : IdentityId)
    (challengeType : ChallengeType) (deposit : Balance) (currentBlock : Nat) (registry : IdentityRegistry) :
    Except PersonhoodError (PersonhoodRegistry × Hash) :=
  if !r.config.challengesEnabled then .error .challengesDisabled
  else if !registry.isActive target currentBlock then .error .targetNotActive
  else if !r.cooledDown target currentBlock then .error .challengeCooldown
  else if (r.challengesOf target).length ≥ maxChallengesPerIdentity then .error .tooManyChallenges
  else if deposit < challengeDeposit then .error .insufficientDeposit
  else
    let challenge := PersonhoodChallenge.new cr target challenger challengeType deposit currentBlock
    .ok (r.addChallenge challenge currentBlock, challenge.challengeId)

def validateResponse : ChallengeType → ChallengeResponseData → Except PersonhoodError Unit
  | .liveness _, .livenessProof _ => .ok ()
  | .socialVerification _, .socialProof _ => .ok ()
  | .uniquenessChallenge _, .uniquenessProof _ _ => .ok ()
  | .stakeChallenge _, .stakeProof _ _ => .ok ()
  | _, _ => .error .invalidResponseType

def respondToChallenge (r : PersonhoodRegistry) (challengeId : Hash) (responder : AccountId)
    (responseData : ChallengeResponseData) (currentBlock : Nat) (registry : IdentityRegistry) :
    Except PersonhoodError PersonhoodRegistry :=
  match r.challenges.find? challengeId with
  | none => .error .challengeNotFound
  | some c =>
    match registry.getIdentityId responder with
    | none => .error .responderHasNoIdentity
    | some responderIdentity =>
      if responderIdentity ≠ c.targetIdentity then .error .notChallengeTarget
      else if c.status ≠ .pending then .error .challengeNotPending
      else if c.isExpired currentBlock then .error .challengeExpired
      else
        match validateResponse c.challengeType responseData with
        | .error e => .error e
        | .ok () =>
          .ok (r.setChallenge challengeId
            { c with response := some { submittedAt := currentBlock, responseData }
                     status := .responseSubmitted })

/-- The signature and the proof are only checked not to be zero. -/
def verifyResponse (r : PersonhoodRegistry) (c : PersonhoodChallenge) : Except PersonhoodError Bool :=
  match c.response with
  | none => .error .noResponse
  | some response =>
    match c.challengeType, response.responseData with
    | .liveness _, .livenessProof signature => .ok (!signature.asBytes.all fun b => b == 0)
    | .socialVerification required, .socialProof attestationIds => .ok (decide (attestationIds.length ≥ required))
    | .uniquenessChallenge suspected, .uniquenessProof proofHash witnesses =>
      let validProof := !proofHash.asBytes.all fun b => b == 0
      let enoughWitnesses := decide (witnesses.length ≥ 3)
      let notDuplicate :=
        match r.uniquenessCommitments.find? suspected with
        | none => true
        | some u => decide (proofHash ≠ u.commitment)
      .ok (validProof && enoughWitnesses && notDuplicate)
    | .stakeChallenge required, .stakeProof amount _ => .ok (decide (amount ≥ required))
    | _, _ => .error .invalidResponseType

/-- Whether the identity passed.  That the challenge is still open is not checked. -/
def resolveOutcome (r : PersonhoodRegistry) (c : PersonhoodChallenge) (currentBlock : Nat) :
    Except PersonhoodError Bool :=
  if c.status = .responseSubmitted then r.verifyResponse c
  else if c.isExpired currentBlock then .ok false
  else .error .challengeNotReady

def resolvedStatus (c : PersonhoodChallenge) (currentBlock : Nat) (passed : Bool) : ChallengeStatus :=
  if passed then .passed
  else if c.isExpired currentBlock ∧ c.status ≠ .responseSubmitted then .expired
  else .failed

def resolveChallenge (r : PersonhoodRegistry) (challengeId : Hash) (currentBlock : Nat) :
    Except PersonhoodError (PersonhoodRegistry × Bool × Balance) :=
  match r.challenges.find? challengeId with
  | none => .error .challengeNotFound
  | some c =>
    match r.resolveOutcome c currentBlock with
    | .error e => .error e
    | .ok passed =>
      let r := r.setChallenge challengeId { c with status := resolvedStatus c currentBlock passed }
      .ok (r.withScore c.targetIdentity fun s =>
          if passed then s.recordChallengePass currentBlock else s.recordChallengeFail,
        passed, if passed then c.deposit else c.deposit + challengeFailurePenalty)

/-- The challenges to an identity that are neither resolved nor cancelled. -/
def getChallenges (r : PersonhoodRegistry) (id : IdentityId) : List PersonhoodChallenge :=
  ((r.challengesOf id).filterMap r.challenges.find?).filter fun c => c.status.isOpen

def cancelChallenge (r : PersonhoodRegistry) (challengeId : Hash) (canceller : AccountId) :
    Except PersonhoodError (PersonhoodRegistry × Balance) :=
  match r.challenges.find? challengeId with
  | none => .error .challengeNotFound
  | some c =>
    if c.challenger ≠ canceller then .error .notChallenger
    else if c.status ≠ .pending then .error .challengeNotPending
    else .ok (r.setChallenge challengeId { c with status := .cancelled }, c.deposit)

/-! ## Uniqueness and scores -/

def submitUniquenessCommitment (cr : Crypto) (r : PersonhoodRegistry) (id : IdentityId)
    (commitmentData : List UInt8) (currentBlock : Nat) (registry : IdentityRegistry) :
    Except PersonhoodError PersonhoodRegistry :=
  if (registry.identities.find? id).isNone then .error .identityNotFound
  else if r.uniquenessCommitments.contains id then .error .commitmentExists
  else
    .ok { r with
      uniquenessCommitments :=
        r.uniquenessCommitments.insert id (UniquenessCommitment.new cr id commitmentData currentBlock) }

def witnessUniqueness (r : PersonhoodRegistry) (id : IdentityId) (witness : AccountId) :
    Except PersonhoodError (PersonhoodRegistry × Bool) :=
  match r.uniquenessCommitments.find? id with
  | none => .error .noCommitment
  | some u =>
    let (u, added) := u.addWitness witness
    let r := { r with uniquenessCommitments := r.uniquenessCommitments.insert id u }
    .ok (if u.verified then r.withScore id fun s => s.updateUniqueness true u.witnesses.length else r, added)

def initializeScore (r : PersonhoodRegistry) (id : IdentityId) : PersonhoodRegistry :=
  if r.personhoodScores.contains id then r
  else { r with personhoodScores := r.personhoodScores.insert id .new }

def recordActivity (r : PersonhoodRegistry) (id : IdentityId) (actions : Nat) : PersonhoodRegistry :=
  r.withScore id fun s => s.updateActivity actions

def updateLongevity (r : PersonhoodRegistry) (id : IdentityId) (identityAge : Nat) : PersonhoodRegistry :=
  r.withScore id fun s => s.updateLongevity identityAge

end PersonhoodRegistry

/-! ## Runs -/

inductive PersonhoodOp where
  | issueChallenge (challenger : AccountId) (target : IdentityId) (challengeType : ChallengeType)
      (deposit : Balance) (currentBlock : Nat) (registry : IdentityRegistry)
  | respondToChallenge (challengeId : Hash) (responder : AccountId) (responseData : ChallengeResponseData)
      (currentBlock : Nat) (registry : IdentityRegistry)
  | resolveChallenge (challengeId : Hash) (currentBlock : Nat)
  | cancelChallenge (challengeId : Hash) (canceller : AccountId)
  | submitUniquenessCommitment (id : IdentityId) (commitmentData : List UInt8) (currentBlock : Nat)
      (registry : IdentityRegistry)
  | witnessUniqueness (id : IdentityId) (witness : AccountId)
  | initializeScore (id : IdentityId)
  | recordActivity (id : IdentityId) (actions : Nat)
  | updateLongevity (id : IdentityId) (identityAge : Nat)

namespace PersonhoodRegistry

/-- The registry after a call; a refused call leaves it as it was. -/
def apply (cr : Crypto) (r : PersonhoodRegistry) : PersonhoodOp → PersonhoodRegistry
  | .issueChallenge challenger target type deposit block registry =>
    ((r.issueChallenge cr challenger target type deposit block registry).map Prod.fst).orKeep r
  | .respondToChallenge id responder data block registry =>
    (r.respondToChallenge id responder data block registry).orKeep r
  | .resolveChallenge id block => ((r.resolveChallenge id block).map Prod.fst).orKeep r
  | .cancelChallenge id canceller => ((r.cancelChallenge id canceller).map Prod.fst).orKeep r
  | .submitUniquenessCommitment id data block registry =>
    (r.submitUniquenessCommitment cr id data block registry).orKeep r
  | .witnessUniqueness id witness => ((r.witnessUniqueness id witness).map Prod.fst).orKeep r
  | .initializeScore id => r.initializeScore id
  | .recordActivity id actions => r.recordActivity id actions
  | .updateLongevity id age => r.updateLongevity id age

/-- The challenge a call settles, with what the challenger is paid. -/
def settlement (r : PersonhoodRegistry) : PersonhoodOp → Option (Hash × Balance)
  | .resolveChallenge id block => (r.resolveChallenge id block).toOption.map fun x => (id, x.2.2)
  | .cancelChallenge id canceller => (r.cancelChallenge id canceller).toOption.map fun x => (id, x.2)
  | _ => none

/-- A call, with the settlements so far. -/
def step (cr : Crypto) (s : PersonhoodRegistry × List (Hash × Balance)) (op : PersonhoodOp) :
    PersonhoodRegistry × List (Hash × Balance) :=
  (s.1.apply cr op, s.2 ++ (s.1.settlement op).toList)

end PersonhoodRegistry

end Kratos
