import Kratos.Lib.Fallible
import Kratos.Lib.Run
import Kratos.Lib.SortedMap
import Kratos.Types.Identity

/-!
# Identity registry

Identities are declared, attested by the holders of active identities, renewed, revoked
and expired.  The registry keeps them by id, with an index by owner, the attestations each
of them received, the pairs of attester and target, and a counter of active identities.
The events for indexers are left out.

A sweep over the hash map of identities changes each of them on its own, so its order does
not matter; it is done in the order of the ids here.
-/

namespace Kratos

def identityDeposit : Balance := 10
def reputationPointsGovernance : Nat := 10
def reputationPointsArbitration : Nat := 50
def reputationPointsAttestation : Nat := 5

structure IdentityRegistry where
  chainId : ChainId
  identities : SortedMap IdentityId IdentityCommitment
  ownerToIdentity : SortedMap AccountId IdentityId
  attestations : SortedMap IdentityId (List IdentityAttestation)
  attestationPairs : Finset (AccountId × IdentityId)
  config : AntiSybilConfig
  activeCount : Nat

inductive IdentityError where
  | identityAlreadyExists
  | identityNotFound
  | attesterHasNoIdentity
  | attesterNotActive
  | cannotSelfAttest
  | cannotReceiveAttestations
  | alreadyAttested
  | maxAttestationsReached
  | identityRevoked
  | alreadyRevoked
deriving DecidableEq, Repr

namespace IdentityRegistry

def withConfig (chainId : ChainId) (config : AntiSybilConfig) : IdentityRegistry :=
  { chainId, identities := .empty, ownerToIdentity := .empty, attestations := .empty, attestationPairs := ∅
    config, activeCount := 0 }

def new (chainId : ChainId) : IdentityRegistry := withConfig chainId .default

def updateConfig (r : IdentityRegistry) (config : AntiSybilConfig) : IdentityRegistry := { r with config }

def setIdentity (r : IdentityRegistry) (id : IdentityId) (i : IdentityCommitment) : IdentityRegistry :=
  { r with identities := r.identities.insert id i }

/-! ## Declaration -/

def declareIdentity (cr : Crypto) (r : IdentityRegistry) (owner : AccountId) (commitmentData : List UInt8)
    (displayName : Option String) (currentBlock : Nat) : Except IdentityError (IdentityRegistry × IdentityId) :=
  if r.ownerToIdentity.contains owner then .error .identityAlreadyExists
  else
    let identity := IdentityCommitment.new cr owner r.chainId commitmentData displayName currentBlock
    .ok ({ r with identities := r.identities.insert identity.identityId identity
                  ownerToIdentity := r.ownerToIdentity.insert owner identity.identityId
                  attestations := r.attestations.insert identity.identityId [] },
      identity.identityId)

/-! ## Attestations -/

/-- The attestations an identity received. -/
def attestationsOf (r : IdentityRegistry) (id : IdentityId) : List IdentityAttestation :=
  (r.attestations.find? id).getD []

def countValidAttestations (r : IdentityRegistry) (id : IdentityId) (currentBlock : Nat) : Nat :=
  (r.attestationsOf id).countP fun a => a.isActive currentBlock

/-- The first case takes every declared identity with a valid attestation. -/
def maybeActivateIdentity (r : IdentityRegistry) (id : IdentityId) (currentBlock : Nat) :
    Except IdentityError IdentityRegistry :=
  let count := r.countValidAttestations id currentBlock
  match r.identities.find? id with
  | none => .error .identityNotFound
  | some i =>
    if i.status = .declared ∧ count > 0 then .ok (r.setIdentity id { i with status := .attested })
    else if (i.status = .declared ∨ i.status = .attested) ∧ count ≥ r.config.minAttestations then
      .ok { r.setIdentity id { i with status := .active } with activeCount := r.activeCount + 1 }
    else .ok r

/-- The checks of `submitAttestation`: the identities of the attester and of the target. -/
def attestationChecked (r : IdentityRegistry) (attester : AccountId) (target : IdentityId) (currentBlock : Nat) :
    Except IdentityError (IdentityId × IdentityCommitment) :=
  match r.ownerToIdentity.find? attester with
  | none => .error .attesterHasNoIdentity
  | some attesterId =>
    match r.identities.find? attesterId with
    | none => .error .identityNotFound
    | some attesterIdentity =>
      if !attesterIdentity.isActive currentBlock then .error .attesterNotActive
      else if attesterId = target then .error .cannotSelfAttest
      else
        match r.identities.find? target with
        | none => .error .identityNotFound
        | some targetIdentity =>
          if !targetIdentity.status.canReceiveAttestations then .error .cannotReceiveAttestations
          else if (attester, target) ∈ r.attestationPairs then .error .alreadyAttested
          else if (r.attestationsOf target).length ≥ maxAttestations then .error .maxAttestationsReached
          else .ok (attesterId, attesterIdentity)

/-- The attestation is stored and the attester rewarded. -/
def addAttestation (cr : Crypto) (r : IdentityRegistry) (attester : AccountId) (attesterId : IdentityId)
    (attesterIdentity : IdentityCommitment) (target : IdentityId) (claimData : List UInt8) (currentBlock : Nat) :
    IdentityRegistry :=
  let attestation := IdentityAttestation.new cr attester attesterId target claimData
    (calculateAttestationWeight attesterIdentity.reputation.score) currentBlock
  { r with
    attestations := r.attestations.insert target (r.attestationsOf target ++ [attestation])
    attestationPairs := insert (attester, target) r.attestationPairs
    identities := r.identities.insert attesterId
      { attesterIdentity with
        reputation := attesterIdentity.reputation.recordAttestation reputationPointsAttestation } }

def submitAttestation (cr : Crypto) (r : IdentityRegistry) (attester : AccountId) (target : IdentityId)
    (claimData : List UInt8) (currentBlock : Nat) : IdentityRegistry × Except IdentityError Unit :=
  match r.attestationChecked attester target currentBlock with
  | .error e => (r, .error e)
  | .ok (attesterId, attesterIdentity) =>
    let r := r.addAttestation cr attester attesterId attesterIdentity target claimData currentBlock
    match r.maybeActivateIdentity target currentBlock with
    | .error e => (r, .error e)
    | .ok r => (r, .ok ())

/-! ## Life cycle -/

def getIdentityId (r : IdentityRegistry) (owner : AccountId) : Option IdentityId := r.ownerToIdentity.find? owner

/-- The identity of an owner, with its id. -/
def identityOf (r : IdentityRegistry) (owner : AccountId) :
    Except IdentityError (IdentityId × IdentityCommitment) :=
  match r.ownerToIdentity.find? owner with
  | none => .error .identityNotFound
  | some id =>
    match r.identities.find? id with
    | none => .error .identityNotFound
    | some i => .ok (id, i)

def isActive (r : IdentityRegistry) (id : IdentityId) (currentBlock : Nat) : Bool :=
  ((r.identities.find? id).map fun i => i.isActive currentBlock).getD false

def ownerIsActive (r : IdentityRegistry) (owner : AccountId) (currentBlock : Nat) : Bool :=
  (((r.ownerToIdentity.find? owner).bind r.identities.find?).map fun i => i.isActive currentBlock).getD false

/-- The status a renewal gives: that of the valid attestations, for an expired identity. -/
def renewedStatus (r : IdentityRegistry) (id : IdentityId) (i : IdentityCommitment) (currentBlock : Nat) :
    IdentityStatus :=
  if i.status = .expired then
    let count := r.countValidAttestations id currentBlock
    if count ≥ r.config.minAttestations then .active
    else if count > 0 then .attested
    else .declared
  else i.status

/-- The counter of active identities is left alone. -/
def renewIdentity (r : IdentityRegistry) (owner : AccountId) (currentBlock : Nat) :
    Except IdentityError (IdentityRegistry × Nat) :=
  match r.identityOf owner with
  | .error e => .error e
  | .ok (id, i) =>
    if i.status = .revoked then .error .identityRevoked
    else
      let i := { i.renew currentBlock with status := r.renewedStatus id i currentBlock }
      .ok (r.setIdentity id i, i.expiresAt)

/-- The identity is revoked and, if it was active, no longer counted. -/
def revoke (r : IdentityRegistry) (id : IdentityId) (i : IdentityCommitment) : IdentityRegistry :=
  { r.setIdentity id { i with status := .revoked } with
    activeCount := if i.status = .active then r.activeCount - 1 else r.activeCount }

/-- The attestations the owner gave stay valid. -/
def revokeOwnIdentity (r : IdentityRegistry) (owner : AccountId) :
    Except IdentityError (IdentityRegistry × Balance) :=
  match r.identityOf owner with
  | .error e => .error e
  | .ok (id, i) =>
    if i.status = .revoked then .error .alreadyRevoked
    else .ok (r.revoke id i, identityDeposit)

def invalidateAttestationsFrom (r : IdentityRegistry) (attester : AccountId) : IdentityRegistry :=
  { r with attestations := r.attestations.map fun _ l =>
      l.map fun a => if a.attester = attester then a.revoke else a }

def forceRevokeIdentity (r : IdentityRegistry) (id : IdentityId) (_reason : RevocationReason) :
    Except IdentityError IdentityRegistry :=
  match r.identities.find? id with
  | none => .error .identityNotFound
  | some i =>
    if i.status = .revoked then .error .alreadyRevoked
    else .ok ((r.revoke id i).invalidateAttestationsFrom i.owner)

/-! ## Expiry -/

/-- An expired identity is marked; an active one without a valid attestation is downgraded. -/
def sweptStatus (i : IdentityCommitment) (validCount currentBlock : Nat) : IdentityStatus :=
  if i.isExpired currentBlock ∧ i.status ≠ .expired ∧ i.status ≠ .revoked then .expired
  else if i.status = .active ∧ validCount = 0 then .attested
  else i.status

def sweep (r : IdentityRegistry) (currentBlock : Nat) (id : IdentityId) (i : IdentityCommitment) :
    IdentityCommitment :=
  { i with status := sweptStatus i (r.countValidAttestations id currentBlock) currentBlock }

/-- The active identities that are swept out. -/
def sweptOut (r : IdentityRegistry) (currentBlock : Nat) : Nat :=
  SortedMap.sumOf (fun id i => if i.status = .active ∧ (r.sweep currentBlock id i).status ≠ .active then 1 else 0)
    r.identities

/-- Each identity swept out takes one off the counter. -/
def processExpirations (r : IdentityRegistry) (currentBlock : Nat) : IdentityRegistry × List IdentityId :=
  ({ r with identities := r.identities.map (r.sweep currentBlock)
            activeCount := r.activeCount - r.sweptOut currentBlock },
    (r.identities.filter fun _ i =>
      i.isExpired currentBlock && i.status != .expired && i.status != .revoked).keys)

/-! ## Reputation -/

/-- Change the record of an owner. -/
def withIdentity (r : IdentityRegistry) (owner : AccountId) (f : IdentityCommitment → IdentityCommitment) :
    Except IdentityError IdentityRegistry :=
  match r.identityOf owner with
  | .error e => .error e
  | .ok (id, i) => .ok (r.setIdentity id (f i))

def recordGovernanceParticipation (r : IdentityRegistry) (owner : AccountId) (currentBlock : Nat) :
    Except IdentityError IdentityRegistry :=
  r.withIdentity owner fun i =>
    { i with reputation := i.reputation.recordGovernance reputationPointsGovernance }.recordActivity currentBlock

def recordArbitrationParticipation (r : IdentityRegistry) (owner : AccountId) (currentBlock : Nat) :
    Except IdentityError IdentityRegistry :=
  r.withIdentity owner fun i =>
    { i with reputation := i.reputation.recordArbitration reputationPointsArbitration }.recordActivity currentBlock

def slashReputation (r : IdentityRegistry) (owner : AccountId) (penaltyPercent : Nat) :
    Except IdentityError IdentityRegistry :=
  r.withIdentity owner fun i => { i with reputation := i.reputation.applySlash penaltyPercent }

def applyReputationDecay (r : IdentityRegistry) (currentBlock : Nat) : IdentityRegistry :=
  if !r.config.enableReputationDecay then r
  else
    { r with identities := r.identities.map fun _ i =>
        if i.status = .active then i.applyDecay currentBlock else i }

end IdentityRegistry

/-! ## Runs -/

inductive IdentityOp where
  | declareIdentity (owner : AccountId) (commitmentData : List UInt8) (displayName : Option String)
      (currentBlock : Nat)
  | submitAttestation (attester : AccountId) (target : IdentityId) (claimData : List UInt8) (currentBlock : Nat)
  | renewIdentity (owner : AccountId) (currentBlock : Nat)
  | revokeOwnIdentity (owner : AccountId)
  | forceRevokeIdentity (id : IdentityId) (reason : RevocationReason)
  | processExpirations (currentBlock : Nat)
  | recordGovernanceParticipation (owner : AccountId) (currentBlock : Nat)
  | recordArbitrationParticipation (owner : AccountId) (currentBlock : Nat)
  | slashReputation (owner : AccountId) (penaltyPercent : Nat)
  | applyReputationDecay (currentBlock : Nat)
  | updateConfig (config : AntiSybilConfig)

namespace IdentityRegistry

/-- The registry after a call; a refused call leaves it as it was. -/
def apply (cr : Crypto) (r : IdentityRegistry) : IdentityOp → IdentityRegistry
  | .declareIdentity owner data name block => ((r.declareIdentity cr owner data name block).map Prod.fst).orKeep r
  | .submitAttestation attester target claim block => (r.submitAttestation cr attester target claim block).1
  | .renewIdentity owner block => ((r.renewIdentity owner block).map Prod.fst).orKeep r
  | .revokeOwnIdentity owner => ((r.revokeOwnIdentity owner).map Prod.fst).orKeep r
  | .forceRevokeIdentity id reason => (r.forceRevokeIdentity id reason).orKeep r
  | .processExpirations block => (r.processExpirations block).1
  | .recordGovernanceParticipation owner block => (r.recordGovernanceParticipation owner block).orKeep r
  | .recordArbitrationParticipation owner block => (r.recordArbitrationParticipation owner block).orKeep r
  | .slashReputation owner percent => (r.slashReputation owner percent).orKeep r
  | .applyReputationDecay block => r.applyReputationDecay block
  | .updateConfig config => r.updateConfig config

/-- A chain that asks for no attestations: its one identity is active since block 2592001. -/
def sample : IdentityRegistry :=
  [IdentityOp.declareIdentity ⟨1⟩ [7] none 0, .processExpirations 2592001, .renewIdentity ⟨1⟩ 2592001].foldl
    (apply Crypto.sample) (withConfig ⟨0⟩ { AntiSybilConfig.default with minAttestations := 0 })

/-- That identity. -/
def sampleIdentity : IdentityId :=
  IdentityCommitment.computeIdentityId Crypto.sample ⟨1⟩ ⟨0⟩ (Crypto.sample.blake3 [7])

end IdentityRegistry

end Kratos
