import Kratos.Contracts.Identity
import Kratos.Types.Reputation

/-!
# Reputation registry

Identities have reputation in several domains.  Stakes boost it for as long as they are
locked, imports bring it from other chains, and identities endorse each other.  The
registry keeps the stakes by id, with lists by staker and by identity and a running total,
and the endorsements by id, with lists by giver and by receiver.

The identity registry is read only, and each call may be given any.  The per-domain scores
of imports, which nothing reads, and the events for indexers are left out.
-/

namespace Kratos

structure ReputationConfig where
  stakingEnabled : Bool
  crossChainEnabled : Bool
  endorsementsEnabled : Bool
  minRepToEndorse : Nat
  maxStakesPerIdentity : Nat
deriving DecidableEq, Repr

def ReputationConfig.default : ReputationConfig :=
  { stakingEnabled := true, crossChainEnabled := true, endorsementsEnabled := true, minRepToEndorse := 100
    maxStakesPerIdentity := 10 }

structure ReputationRegistry where
  chainId : ChainId
  reputations : SortedMap IdentityId MultiDimensionalReputation
  stakes : SortedMap Hash ReputationStake
  stakesByStaker : SortedMap AccountId (List Hash)
  stakesByIdentity : SortedMap IdentityId (List Hash)
  crossChainImports : SortedMap IdentityId (SortedMap ChainId CrossChainReputation)
  endorsements : SortedMap Hash Endorsement
  endorsementsGiven : SortedMap IdentityId (List Hash)
  endorsementsReceived : SortedMap IdentityId (ReputationDomain → List Hash)
  totalStaked : Balance
  config : ReputationConfig

inductive ReputationError where
  | reputationNotFound
  | stakingDisabled
  | tooManyStakes
  | stakeTooSmall
  | stakeNotFound
  | notStaker
  | stakeLocked
  | crossChainDisabled
  | importAlreadyExists
  | importNotFound
  | endorsementsDisabled
  | endorserNotActive
  | cannotSelfEndorse
  | insufficientReputation
  | maxEndorsementsReached
  | endorsementNotFound
  | notEndorser
deriving DecidableEq, Repr

namespace ReputationRegistry

def withConfig (chainId : ChainId) (config : ReputationConfig) : ReputationRegistry :=
  { chainId, reputations := .empty, stakes := .empty, stakesByStaker := .empty, stakesByIdentity := .empty
    crossChainImports := .empty, endorsements := .empty, endorsementsGiven := .empty
    endorsementsReceived := .empty, totalStaked := 0, config }

/-! ## Reputation -/

def initializeReputation (r : ReputationRegistry) (id : IdentityId) (currentBlock : Nat) : ReputationRegistry :=
  if r.reputations.contains id then r
  else { r with reputations := r.reputations.insert id (MultiDimensionalReputation.new id currentBlock) }

/-- Change the record of an identity. -/
def withReputation (r : ReputationRegistry) (id : IdentityId)
    (f : MultiDimensionalReputation → MultiDimensionalReputation) : Except ReputationError ReputationRegistry :=
  match r.reputations.find? id with
  | none => .error .reputationNotFound
  | some rep => .ok { r with reputations := r.reputations.insert id (f rep) }

def addReputation (r : ReputationRegistry) (id : IdentityId) (domain : ReputationDomain) (points currentBlock : Nat) :
    Except ReputationError ReputationRegistry :=
  r.withReputation id fun rep => rep.addDomainRep domain points currentBlock

def slashReputation (r : ReputationRegistry) (id : IdentityId) (domain : ReputationDomain) (penaltyPercent : Nat) :
    Except ReputationError ReputationRegistry :=
  r.withReputation id fun rep => rep.slashDomain domain penaltyPercent

/-- Each record on its own, so that the order of the hash map does not matter. -/
def applyDecay (r : ReputationRegistry) (currentBlock : Nat) : ReputationRegistry :=
  { r with reputations := r.reputations.map fun _ rep => rep.applyDecay currentBlock }

/-! ## Staking -/

/-- The ids of the stakes of a staker. -/
def stakesOf (r : ReputationRegistry) (staker : AccountId) : List Hash := (r.stakesByStaker.find? staker).getD []

/-- The ids of the stakes for an identity. -/
def stakesFor (r : ReputationRegistry) (id : IdentityId) : List Hash := (r.stakesByIdentity.find? id).getD []

/-- A stake with the id of a stored one takes its place. -/
def addStake (r : ReputationRegistry) (s : ReputationStake) : ReputationRegistry :=
  { r with
    stakes := r.stakes.insert s.stakeId s
    stakesByStaker := r.stakesByStaker.insert s.staker (r.stakesOf s.staker ++ [s.stakeId])
    stakesByIdentity := r.stakesByIdentity.insert s.identityId (r.stakesFor s.identityId ++ [s.stakeId])
    totalStaked := r.totalStaked + s.amount }

def createStake (cr : Crypto) (boost : Balance → Nat) (r : ReputationRegistry) (staker : AccountId)
    (id : IdentityId) (amount : Balance) (domain : Option ReputationDomain) (currentBlock : Nat) :
    Except ReputationError (ReputationRegistry × Hash) :=
  if !r.config.stakingEnabled then .error .stakingDisabled
  else if (r.stakesFor id).length ≥ r.config.maxStakesPerIdentity then .error .tooManyStakes
  else
    match ReputationStake.new cr boost staker id amount domain currentBlock with
    | none => .error .stakeTooSmall
    | some stake => .ok (r.addStake stake, stake.stakeId)

/-- Take an id off the list of a key that has one. -/
def unlist {κ : Type} [LinearOrder κ] (m : SortedMap κ (List Hash)) (k : κ) (id : Hash) : SortedMap κ (List Hash) :=
  match m.find? k with
  | none => m
  | some l => m.insert k (l.filter fun j => decide (j ≠ id))

def removeStake (r : ReputationRegistry) (stakeId : Hash) (s : ReputationStake) : ReputationRegistry :=
  { r with
    stakes := r.stakes.erase stakeId
    stakesByStaker := unlist r.stakesByStaker s.staker stakeId
    stakesByIdentity := unlist r.stakesByIdentity s.identityId stakeId
    totalStaked := Word.satSub r.totalStaked s.amount }

/-- A slashed stake is refused as if it were locked. -/
def withdrawStake (r : ReputationRegistry) (stakeId : Hash) (withdrawer : AccountId) (currentBlock : Nat) :
    Except ReputationError (ReputationRegistry × Balance) :=
  match r.stakes.find? stakeId with
  | none => .error .stakeNotFound
  | some s =>
    if s.staker ≠ withdrawer then .error .notStaker
    else if !s.canWithdraw currentBlock then .error .stakeLocked
    else .ok (r.removeStake stakeId s, s.amount)

def slashStake (r : ReputationRegistry) (stakeId : Hash) (penaltyPercent : Nat) :
    Except ReputationError (ReputationRegistry × Nat) :=
  match r.stakes.find? stakeId with
  | none => .error .stakeNotFound
  | some s =>
    let (s, penalty) := s.slash penaltyPercent
    .ok ({ r with stakes := r.stakes.insert stakeId s
                  totalStaked := ⟨r.totalStaked.val - penalty, by omega⟩ }, penalty)

/-- The largest multiplier of the stakes that were not slashed. -/
def getStakeMultiplier (r : ReputationRegistry) (id : IdentityId) : Nat :=
  let stakes := ((r.stakesFor id).filterMap r.stakes.find?).filter fun s => !s.slashed
  match (stakes.map fun s => (s.multiplier + (2 ^ 32 - 100)) % 2 ^ 32).max? with
  | none => 100
  | some extra => (100 + extra) % 2 ^ 32

/-! ## Imports from other chains -/

/-- The imports of an identity, by source chain. -/
def importsOf (r : ReputationRegistry) (id : IdentityId) : SortedMap ChainId CrossChainReputation :=
  (r.crossChainImports.find? id).getD .empty

def importReputation (r : ReputationRegistry) (sourceChain : ChainId) (sourceIdentity targetIdentity : IdentityId)
    (originalScore : Nat) (proofHash : Hash) (currentBlock : Nat) : Except ReputationError ReputationRegistry :=
  if !r.config.crossChainEnabled then .error .crossChainDisabled
  else if (r.importsOf targetIdentity).contains sourceChain then .error .importAlreadyExists
  else
    .ok { r with
      crossChainImports := r.crossChainImports.insert targetIdentity
        ((r.importsOf targetIdentity).insert sourceChain
          (CrossChainReputation.new sourceChain sourceIdentity r.chainId originalScore proofHash currentBlock)) }

def verifyImport (r : ReputationRegistry) (id : IdentityId) (sourceChain : ChainId) :
    Except ReputationError ReputationRegistry :=
  match (r.importsOf id).find? sourceChain with
  | none => .error .importNotFound
  | some i =>
    .ok { r with
      crossChainImports := r.crossChainImports.insert id ((r.importsOf id).insert sourceChain i.verify) }

/-- With the imports, at half their worth, and the stakes. -/
def getEffectiveScore (r : ReputationRegistry) (id : IdentityId) : Nat :=
  let baseScore := ((r.reputations.find? id).map fun rep => rep.overallScore).getD 0
  let crossChainBonus := ((r.importsOf id).values.map CrossChainReputation.effectiveScore).sum % 2 ^ 32
  let combined := (baseScore + crossChainBonus / 2) % 2 ^ 32
  combined * r.getStakeMultiplier id / 100 % 2 ^ 32

/-! ## Endorsements -/

/-- The ids of the endorsements an identity gave. -/
def givenBy (r : ReputationRegistry) (id : IdentityId) : List Hash := (r.endorsementsGiven.find? id).getD []

/-- The ids of the endorsements an identity received in a domain. -/
def receivedBy (r : ReputationRegistry) (id : IdentityId) (domain : ReputationDomain) : List Hash :=
  ((r.endorsementsReceived.find? id).map fun f => f domain).getD []

/-- Both identities have the endorsement on their lists, active or not. -/
def addEndorsement (r : ReputationRegistry) (e : Endorsement) (endorserRep : Nat) : ReputationRegistry :=
  { r with
    endorsements := r.endorsements.insert e.endorsementId e
    endorsementsGiven := r.endorsementsGiven.insert e.endorserIdentity
      (r.givenBy e.endorserIdentity ++ [e.endorsementId])
    endorsementsReceived := r.endorsementsReceived.insert e.targetIdentity
      (Function.update (r.receivedBy e.targetIdentity) e.domain
        (r.receivedBy e.targetIdentity e.domain ++ [e.endorsementId]))
    reputations :=
      match r.reputations.find? e.targetIdentity with
      | none => r.reputations
      | some rep => r.reputations.insert e.targetIdentity (rep.addEndorsement e.domain endorserRep).1 }

/-- The account must own an active identity; whether it is the one named is not checked. -/
def giveEndorsement (cr : Crypto) (r : ReputationRegistry) (endorser : AccountId)
    (endorserIdentity targetIdentity : IdentityId) (domain : ReputationDomain) (context : Option String)
    (currentBlock : Nat) (registry : IdentityRegistry) : Except ReputationError (ReputationRegistry × Hash) :=
  if !r.config.endorsementsEnabled then .error .endorsementsDisabled
  else if !registry.ownerIsActive endorser currentBlock then .error .endorserNotActive
  else if endorserIdentity = targetIdentity then .error .cannotSelfEndorse
  else
    let endorserRep := r.getEffectiveScore endorserIdentity
    if endorserRep < r.config.minRepToEndorse then .error .insufficientReputation
    else if (r.receivedBy targetIdentity domain).length ≥ maxEndorsementsPerDomain then
      .error .maxEndorsementsReached
    else
      let e := Endorsement.new cr endorser endorserIdentity targetIdentity domain endorserRep context currentBlock
      .ok (r.addEndorsement e endorserRep, e.endorsementId)

/-- The endorsement that is given. -/
def endorsement (cr : Crypto) (r : ReputationRegistry) (endorser : AccountId)
    (endorserIdentity targetIdentity : IdentityId) (domain : ReputationDomain) (context : Option String)
    (currentBlock : Nat) : Endorsement :=
  .new cr endorser endorserIdentity targetIdentity domain (r.getEffectiveScore endorserIdentity) context currentBlock

theorem giveEndorsement_ok_iff (cr : Crypto) (r r' : ReputationRegistry) (endorser : AccountId)
    (endorserIdentity targetIdentity : IdentityId) (domain : ReputationDomain) (context : Option String)
    (currentBlock : Nat) (registry : IdentityRegistry) (id : Hash) :
    r.giveEndorsement cr endorser endorserIdentity targetIdentity domain context currentBlock registry = .ok (r', id) ↔
      r.config.endorsementsEnabled = true ∧ registry.ownerIsActive endorser currentBlock = true ∧
        endorserIdentity ≠ targetIdentity ∧ r.config.minRepToEndorse ≤ r.getEffectiveScore endorserIdentity ∧
        (r.receivedBy targetIdentity domain).length < maxEndorsementsPerDomain ∧
        r' = r.addEndorsement
          (r.endorsement cr endorser endorserIdentity targetIdentity domain context currentBlock)
          (r.getEffectiveScore endorserIdentity) ∧
        id = Endorsement.computeId cr endorserIdentity targetIdentity domain currentBlock := by
  unfold giveEndorsement
  dsimp only
  split_ifs with henabled hactive hself hrep hfull
  · simp_all
  · simp_all
  · simp_all
  · simp_all
  · simp_all
  · rw [Except.ok.injEq, Prod.mk.injEq]
    constructor
    · rintro ⟨rfl, rfl⟩
      exact ⟨by simpa using henabled, by simpa using hactive, hself, by omega, by omega, rfl, rfl⟩
    · rintro ⟨-, -, -, -, -, rfl, rfl⟩
      exact ⟨rfl, rfl⟩

/-- The counters of the target stay as they are. -/
def revokeEndorsement (r : ReputationRegistry) (endorsementId : Hash) (revoker : AccountId) :
    Except ReputationError ReputationRegistry :=
  match r.endorsements.find? endorsementId with
  | none => .error .endorsementNotFound
  | some e =>
    if e.endorser ≠ revoker then .error .notEndorser
    else .ok { r with endorsements := r.endorsements.insert endorsementId e.revoke }

/-! ## What accepted calls do -/

variable {cr : Crypto} {boost : Balance → Nat} {r r' : ReputationRegistry}

theorem createStake_ok {staker : AccountId} {id : IdentityId} {amount : Balance} {domain : Option ReputationDomain}
    {block : Nat} {stakeId : Hash} (h : r.createStake cr boost staker id amount domain block = .ok (r', stakeId)) :
    (r.stakesFor id).length < r.config.maxStakesPerIdentity ∧
      ∃ s, ReputationStake.new cr boost staker id amount domain block = some s ∧ r' = r.addStake s := by
  unfold createStake at h
  split_ifs at h with henabled hfull
  split at h
  · cases h
  · rename_i s hs
    obtain ⟨rfl, -⟩ := Prod.mk.inj (Except.ok.inj h)
    exact ⟨by omega, s, hs, rfl⟩

theorem withdrawStake_ok {stakeId : Hash} {withdrawer : AccountId} {block : Nat} {amount : Balance}
    (h : r.withdrawStake stakeId withdrawer block = .ok (r', amount)) :
    ∃ s, r.stakes.find? stakeId = some s ∧ s.staker = withdrawer ∧ s.canWithdraw block = true ∧
      r' = r.removeStake stakeId s ∧ amount = s.amount := by
  unfold withdrawStake at h
  split at h
  · cases h
  · rename_i s hs
    split_ifs at h with hstaker hlocked
    obtain ⟨rfl, rfl⟩ := Prod.mk.inj (Except.ok.inj h)
    exact ⟨s, hs, not_not.1 hstaker, by simpa using hlocked, rfl, rfl⟩

theorem slashStake_ok {stakeId : Hash} {percent penalty : Nat} (h : r.slashStake stakeId percent = .ok (r', penalty)) :
    ∃ s, r.stakes.find? stakeId = some s ∧ penalty = (s.slash percent).2 ∧
      r' = { r with stakes := r.stakes.insert stakeId (s.slash percent).1
                    totalStaked := ⟨r.totalStaked.val - (s.slash percent).2, by omega⟩ } := by
  unfold slashStake at h
  split at h
  · cases h
  · rename_i s hs
    obtain ⟨rfl, rfl⟩ := Prod.mk.inj (Except.ok.inj h)
    exact ⟨s, hs, rfl, rfl⟩

/-- Imports change nothing but the imports. -/
theorem importReputation_ok {chain : ChainId} {source target : IdentityId} {score : Nat} {proof : Hash} {block : Nat}
    (h : r.importReputation chain source target score proof block = .ok r') :
    ∃ imports, r' = { r with crossChainImports := imports } := by
  unfold importReputation at h
  split_ifs at h
  obtain rfl := Except.ok.inj h
  exact ⟨_, rfl⟩

theorem verifyImport_ok {id : IdentityId} {chain : ChainId} (h : r.verifyImport id chain = .ok r') :
    ∃ imports, r' = { r with crossChainImports := imports } := by
  unfold verifyImport at h
  split at h
  · cases h
  · obtain rfl := Except.ok.inj h
    exact ⟨_, rfl⟩

theorem revokeEndorsement_ok_iff {endorsementId : Hash} {revoker : AccountId} :
    r.revokeEndorsement endorsementId revoker = .ok r' ↔
      ∃ e, r.endorsements.find? endorsementId = some e ∧ e.endorser = revoker ∧
        r' = { r with endorsements := r.endorsements.insert endorsementId e.revoke } := by
  unfold revokeEndorsement
  split
  · rename_i hnone
    simp [hnone]
  · rename_i e he
    simp only [he, Option.some.injEq, exists_eq_left']
    split_ifs with hrevoker
    · simp [hrevoker]
    · rw [Except.ok.injEq]
      exact ⟨fun h => ⟨not_not.1 hrevoker, h.symm⟩, fun h => h.2.symm⟩

end ReputationRegistry

/-! ## Runs -/

inductive ReputationOp where
  | initializeReputation (id : IdentityId) (currentBlock : Nat)
  | addReputation (id : IdentityId) (domain : ReputationDomain) (points currentBlock : Nat)
  | slashReputation (id : IdentityId) (domain : ReputationDomain) (penaltyPercent : Nat)
  | applyDecay (currentBlock : Nat)
  | createStake (staker : AccountId) (id : IdentityId) (amount : Balance) (domain : Option ReputationDomain)
      (currentBlock : Nat)
  | withdrawStake (stakeId : Hash) (withdrawer : AccountId) (currentBlock : Nat)
  | slashStake (stakeId : Hash) (penaltyPercent : Nat)
  | importReputation (sourceChain : ChainId) (sourceIdentity targetIdentity : IdentityId) (originalScore : Nat)
      (proofHash : Hash) (currentBlock : Nat)
  | verifyImport (id : IdentityId) (sourceChain : ChainId)
  | giveEndorsement (endorser : AccountId) (endorserIdentity targetIdentity : IdentityId)
      (domain : ReputationDomain) (context : Option String) (currentBlock : Nat) (registry : IdentityRegistry)
  | revokeEndorsement (endorsementId : Hash) (revoker : AccountId)

namespace ReputationRegistry

/-- The registry after a call; a refused call leaves it as it was. -/
def apply (cr : Crypto) (boost : Balance → Nat) (r : ReputationRegistry) : ReputationOp → ReputationRegistry
  | .initializeReputation id block => r.initializeReputation id block
  | .addReputation id domain points block => (r.addReputation id domain points block).orKeep r
  | .slashReputation id domain percent => (r.slashReputation id domain percent).orKeep r
  | .applyDecay block => r.applyDecay block
  | .createStake staker id amount domain block =>
    ((r.createStake cr boost staker id amount domain block).map Prod.fst).orKeep r
  | .withdrawStake id withdrawer block => ((r.withdrawStake id withdrawer block).map Prod.fst).orKeep r
  | .slashStake id percent => ((r.slashStake id percent).map Prod.fst).orKeep r
  | .importReputation chain source target score proof block =>
    (r.importReputation chain source target score proof block).orKeep r
  | .verifyImport id chain => (r.verifyImport id chain).orKeep r
  | .giveEndorsement endorser identity target domain context block registry =>
    ((r.giveEndorsement cr endorser identity target domain context block registry).map Prod.fst).orKeep r
  | .revokeEndorsement id revoker => (r.revokeEndorsement id revoker).orKeep r

end ReputationRegistry

end Kratos
