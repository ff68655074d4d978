import Kratos.Lib.Fallible
import Kratos.Lib.IterOrder
import Kratos.Lib.Run
import Kratos.Lib.SortedMap
import Kratos.Types.Chain
import Kratos.Types.Merkle

/-!
# Chain registry

Sidechains with a deposit, their hostchains, the two ways a chain is purged and the
three ways funds leave it.  A call that can fail after it has written returns the
registry beside the result (`createSidechain`, `leaveHost` and the validator pools
of hosts); the others return a registry only if they succeed.  Loops over a hash map
take its iteration order.

`Later` is what every call keeps of a stored chain, as long as no creation takes the
id of another chain.
-/

namespace Kratos

/-- 90 days. -/
def inactivityThreshold : Nat := 1296000

/-- 6 hours. -/
def purgeCheckInterval : Nat := 3600

inductive ChainError where
  | insufficientDeposit
  | chainNotFound
  | parentNotFound
  | hostNotFound
  | chainNotInactive
  | notAffiliated
  | invalidSecurityMode
  | invalidState
  | unauthorized (action required : String)
  | alreadyWithdrawn
  | requiresMerkleProof
  | noSnapshotStateRoot
  | invalidMerkleProof
  | chainTypeError (e : ChainTypeError)
deriving DecidableEq, Repr

inductive WithdrawalType where
  | ownerDeposit
  | userBalance
  | emergencyOwner
  | emergency
deriving DecidableEq, Repr

structure WithdrawalResult where
  chainId : ChainId
  recipient : AccountId
  amount : Balance
  withdrawalType : WithdrawalType
deriving DecidableEq, Repr

structure ChainRegistry where
  sidechains : SortedMap ChainId SidechainInfo
  hostchains : SortedMap ChainId HostChainInfo
  sidechainToHost : SortedMap ChainId ChainId
  nextChainId : Fin (2 ^ 32)
  lastPurgeCheck : Nat

namespace ChainRegistry

/-- Id 0 is the root chain. -/
def new : ChainRegistry :=
  { sidechains := .empty, hostchains := .empty, sidechainToHost := .empty, nextChainId := 1
    lastPurgeCheck := 0 }

/-- Rewrite one stored chain, or fail and change nothing. -/
def withSidechain {α : Type} (g : ChainRegistry) (chainId : ChainId)
    (f : SidechainInfo → Except ChainError (SidechainInfo × α)) : Except ChainError (ChainRegistry × α) :=
  match g.sidechains.find? chainId with
  | none => .error .chainNotFound
  | some sc =>
    match f sc with
    | .error e => .error e
    | .ok (sc, a) => .ok ({ g with sidechains := g.sidechains.insert chainId sc }, a)

/-! ## Hosts and validators -/

def affiliateSidechain (g : ChainRegistry) (sidechainId hostId : ChainId) :
    Except ChainError ChainRegistry :=
  if g.sidechains.contains sidechainId = false then .error .chainNotFound
  else
    match g.hostchains.find? hostId with
    | none => .error .hostNotFound
    | some host =>
      match host.addMember sidechainId with
      | .error e => .error (.chainTypeError e)
      | .ok host =>
        .ok { g with
              hostchains := g.hostchains.insert hostId host
              sidechainToHost := g.sidechainToHost.insert sidechainId hostId }

def leaveHost (g : ChainRegistry) (sidechainId : ChainId) : ChainRegistry × Except ChainError Unit :=
  match g.sidechainToHost.find? sidechainId with
  | none => (g, .error .notAffiliated)
  | some hostId =>
    let g := { g with sidechainToHost := g.sidechainToHost.erase sidechainId }
    match g.hostchains.find? hostId with
    | none => (g, .error .hostNotFound)
    | some host =>
      match host.removeMember sidechainId with
      | .error e => (g, .error (.chainTypeError e))
      | .ok host => ({ g with hostchains := g.hostchains.insert hostId host }, .ok ())

/-- Take a chain from its host, if it has one. -/
def detach (g : ChainRegistry) (chainId : ChainId) : ChainRegistry :=
  match g.sidechainToHost.find? chainId with
  | none => g
  | some hostId =>
    let g := { g with sidechainToHost := g.sidechainToHost.erase chainId }
    match g.hostchains.find? hostId with
    | none => g
    | some host =>
      { g with hostchains := g.hostchains.insert hostId ((host.removeMember chainId).orKeep host) }

/-- The validators a chain is due by its security mode. -/
def dueValidators (g : ChainRegistry) (chainId : ChainId) (sc : SidechainInfo) :
    Except ChainError (Finset AccountId) :=
  match sc.securityMode with
  | .inherited =>
    match sc.parent.bind g.sidechains.find? with
    | none => .error .parentNotFound
    | some parent => .ok parent.validators
  | .shared =>
    match (g.sidechainToHost.find? chainId).bind g.hostchains.find? with
    | none => .error .hostNotFound
    | some host => .ok host.validatorPool
  | .sovereign => .ok sc.validators

def assignValidators (g : ChainRegistry) (chainId : ChainId) :
    Except ChainError (ChainRegistry × Finset AccountId) :=
  g.withSidechain chainId fun sc =>
    match g.dueValidators chainId sc with
    | .error e => .error e
    | .ok validators => .ok ({ sc with validators }, validators)

def addValidatorToChain (g : ChainRegistry) (chainId : ChainId) (validator : AccountId) :
    Except ChainError (ChainRegistry × Unit) :=
  g.withSidechain chainId fun sc =>
    if sc.securityMode ≠ .sovereign then .error .invalidSecurityMode
    else
      match sc.addValidator validator with
      | .error e => .error (.chainTypeError e)
      | .ok sc => .ok (sc, ())

def removeValidatorFromChain (g : ChainRegistry) (chainId : ChainId) (validator : AccountId) :
    Except ChainError (ChainRegistry × Unit) :=
  g.withSidechain chainId fun sc =>
    if sc.securityMode ≠ .sovereign then .error .invalidSecurityMode
    else
      match sc.removeValidator validator with
      | .error e => .error (.chainTypeError e)
      | .ok sc => .ok (sc, ())

/-- Assign validators to the chains in turn, up to the first failure. -/
def reassign : List ChainId → ChainRegistry → ChainRegistry × Except ChainError Unit
  | [], g => (g, .ok ())
  | chainId :: rest, g =>
    match g.assignValidators chainId with
    | .error e => (g, .error e)
    | .ok (g, _) => reassign rest g

/-- Change a host's pool and assign it again to the chains of the host. -/
def changePool (order : IterOrder ChainId) (g : ChainRegistry) (hostId : ChainId)
    (f : HostChainInfo → Except ChainTypeError HostChainInfo) : ChainRegistry × Except ChainError Unit :=
  match g.hostchains.find? hostId with
  | none => (g, .error .hostNotFound)
  | some host =>
    match f host with
    | .error e => (g, .error (.chainTypeError e))
    | .ok host =>
      let g := { g with hostchains := g.hostchains.insert hostId host }
      reassign (order.iter (g.sidechainToHost.filter fun _ h => decide (h = hostId)).keys) g

def addValidatorToHostchain (order : IterOrder ChainId) (g : ChainRegistry) (hostId : ChainId)
    (validator : AccountId) : ChainRegistry × Except ChainError Unit :=
  changePool order g hostId fun host => host.addValidator validator

def removeValidatorFromHostchain (order : IterOrder ChainId) (g : ChainRegistry) (hostId : ChainId)
    (validator : AccountId) : ChainRegistry × Except ChainError Unit :=
  changePool order g hostId fun host => host.removeValidator validator

/-! ## Creation -/

def requiredDeposit (g : ChainRegistry) (securityMode : SecurityMode) (hostId : Option ChainId) :
    Except ChainError Balance :=
  match securityMode with
  | .inherited => .ok baseDeposit
  | .shared =>
    match hostId.bind g.hostchains.find? with
    | none => .error .hostNotFound
    | some host => .ok (calculateDeposit securityMode host.memberChains.card)
  | .sovereign => .ok sovereignDeposit

/-- The chain is stored before it is affiliated and given validators; it stays if one
of these fails. -/
def createSidechain (g : ChainRegistry) (owner : AccountId) (name description : Option String)
    (parent : Option ChainId) (securityMode : SecurityMode) (hostId : Option ChainId) (deposit : Balance)
    (block : Nat) : ChainRegistry × Except ChainError ChainId :=
  match g.requiredDeposit securityMode hostId with
  | .error e => (g, .error e)
  | .ok required =>
    if deposit < required then (g, .error .insufficientDeposit)
    else if parent.any fun parentId => !g.sidechains.contains parentId then (g, .error .parentNotFound)
    else
      let chainId : ChainId := ⟨g.nextChainId⟩
      let sidechain := SidechainInfo.new chainId parent owner name description securityMode deposit block
      let g := { g with
        nextChainId := g.nextChainId + 1
        sidechains := g.sidechains.insert chainId sidechain }
      let affiliated : Except ChainError ChainRegistry :=
        match securityMode, hostId with
        | .shared, some host => g.affiliateSidechain chainId host
        | _, _ => .ok g
      match affiliated with
      | .error e => (g, .error e)
      | .ok g =>
        if securityMode ≠ .sovereign then
          match g.assignValidators chainId with
          | .error e => (g, .error e)
          | .ok (g, _) => (g, .ok chainId)
        else (g, .ok chainId)

def createHostchain (g : ChainRegistry) (creator : AccountId) (block : Nat) : ChainRegistry × ChainId :=
  let hostId : ChainId := ⟨g.nextChainId⟩
  ({ g with
     nextChainId := g.nextChainId + 1
     hostchains := g.hostchains.insert hostId (HostChainInfo.new hostId creator block) }, hostId)

/-! ## Records of a chain -/

def recordActivity (g : ChainRegistry) (chainId : ChainId) (block : Nat) :
    Except ChainError (ChainRegistry × Unit) :=
  g.withSidechain chainId fun sc => .ok (sc.recordActivity block, ())

def recordGovernanceFailure (g : ChainRegistry) (chainId : ChainId) :
    Except ChainError (ChainRegistry × Unit) :=
  g.withSidechain chainId fun sc => .ok ({ sc with governanceFailures := sc.governanceFailures + 1 }, ())

def resetGovernanceFailures (g : ChainRegistry) (chainId : ChainId) :
    Except ChainError (ChainRegistry × Unit) :=
  g.withSidechain chainId fun sc => .ok ({ sc with governanceFailures := 0 }, ())

/-- The validator is not looked at. -/
def slashValidator (g : ChainRegistry) (chainId : ChainId) (_validator : AccountId) :
    Except ChainError (ChainRegistry × Unit) :=
  g.withSidechain chainId fun sc =>
    .ok ({ sc with slashedValidatorsCount := sc.slashedValidatorsCount + 1 }, ())

def updateVerifiedStateRoot (g : ChainRegistry) (chainId : ChainId) (stateRoot : Hash) :
    Except ChainError (ChainRegistry × Unit) :=
  g.withSidechain chainId fun sc => .ok ({ sc with lastVerifiedStateRoot := some stateRoot }, ())

def reportStateDivergence (g : ChainRegistry) (chainId : ChainId) (blockNumber : Nat) (reporter : AccountId) :
    Except ChainError (ChainRegistry × Unit) :=
  g.withSidechain chainId fun sc =>
    let isParentValidator := (sc.parent.bind g.sidechains.find?).any fun parent =>
      decide (reporter ∈ parent.validators)
    if reporter ∉ sc.validators ∧ isParentValidator = false ∧ sc.owner ≠ reporter then
      .error (.unauthorized "report_state_divergence" "chain validator, parent validator, or chain owner")
    else
      .ok ({ sc with stateDivergenceDetectedAt := some (sc.stateDivergenceDetectedAt.getD blockNumber) }, ())

def setSnapshotStateRoot (g : ChainRegistry) (chainId : ChainId) (stateRootHash : Hash) :
    Except ChainError (ChainRegistry × Unit) :=
  g.withSidechain chainId fun sc =>
    if sc.status ≠ .snapshot then .error .invalidState
    else .ok ({ sc with snapshotStateRoot := some stateRootHash }, ())

/-! ## Purge of inactive chains -/

/-- The registry and the deposit; the status is not looked at. -/
def purgeSidechain (g : ChainRegistry) (chainId : ChainId) (currentBlock : Nat) :
    Except ChainError (ChainRegistry × Balance) :=
  match g.withSidechain chainId fun sc =>
    if sc.isInactive currentBlock inactivityThreshold = false then .error .chainNotInactive
    else .ok ({ sc with status := .purged }, sc.deposit) with
  | .error e => .error e
  | .ok (g, deposit) => .ok (g.detach chainId, deposit)

/-- Purge the chains in turn; with the ids purged so far. -/
def purgeNext (currentBlock : Nat) (s : ChainRegistry × List ChainId) (chainId : ChainId) :
    ChainRegistry × List ChainId :=
  match s.1.purgeSidechain chainId currentBlock with
  | .error _ => s
  | .ok (g, _) => (g, s.2 ++ [chainId])

def isPurgeable (currentBlock : Nat) (sc : SidechainInfo) : Bool :=
  decide (sc.status = .active) && sc.isInactive currentBlock inactivityThreshold

/-- The deposits of the purged chains are dropped. -/
def autoPurgeInactive (order : IterOrder ChainId) (g : ChainRegistry) (currentBlock : Nat) :
    ChainRegistry × List ChainId :=
  if currentBlock < g.lastPurgeCheck + purgeCheckInterval then (g, [])
  else
    let g := { g with lastPurgeCheck := currentBlock }
    let inactiveChains := order.iter (g.sidechains.filter fun _ sc => isPurgeable currentBlock sc).keys
    inactiveChains.foldl (purgeNext currentBlock) (g, [])

/-! ## Purge state machine -/

def checkPurgeTriggers (g : ChainRegistry) (chainId : ChainId) (currentBlock : Nat) : Option PurgeTrigger :=
  match g.sidechains.find? chainId with
  | none => none
  | some sc =>
    if sc.isInactive currentBlock inactivityThresholdV31 then some .inactivity
    else if sc.governanceFailures ≥ governanceFailureThreshold then some .governanceFailure
    else if sc.validators.card ≠ 0 ∧
        Word.satMul64 sc.slashedValidatorsCount 100 ≥
          Word.satMul64 sc.validators.card validatorFraudThresholdPercent then some .validatorFraud
    else if sc.stateDivergenceDetectedAt.isSome then some .stateDivergence
    else none

def triggerPurge (g : ChainRegistry) (chainId : ChainId) (trigger : PurgeTrigger) (currentBlock : Nat) :
    Except ChainError (ChainRegistry × Unit) :=
  g.withSidechain chainId fun sc =>
    if sc.status ≠ .active ∧ sc.status ≠ .inactive then .error .invalidState
    else
      .ok ({ sc with
             status := .pendingPurge
             purgeTriggeredAt := some currentBlock
             purgeTrigger := some trigger }, ())

/-- One transition of a chain's record. -/
def advance (sc : SidechainInfo) (currentBlock : Nat) : SidechainInfo :=
  match sc.status with
  | .pendingPurge =>
    if sc.purgeTriggeredAt.any fun t => decide (currentBlock ≥ t + purgeWarningPeriod) then
      { sc with status := .frozen, frozenAt := some currentBlock }
    else sc
  | .frozen =>
    { sc with
      snapshotStateRoot := sc.snapshotStateRoot.or sc.lastVerifiedStateRoot
      status := .snapshot
      snapshotAt := some currentBlock }
  | .snapshot => { sc with status := .withdrawalWindow, withdrawalWindowStart := some currentBlock }
  | .withdrawalWindow =>
    if sc.withdrawalWindowStart.any fun t => decide (currentBlock ≥ t + withdrawalWindowDuration) then
      { sc with status := .purged }
    else sc
  | _ => sc

/-- A chain whose window ends here leaves its host. -/
def advancePurgeState (g : ChainRegistry) (chainId : ChainId) (currentBlock : Nat) :
    Except ChainError (ChainRegistry × ChainStatus) :=
  match g.sidechains.find? chainId with
  | none => .error .chainNotFound
  | some sc =>
    let next := advance sc currentBlock
    let g := { g with sidechains := g.sidechains.insert chainId next }
    if sc.status = .withdrawalWindow ∧ next.status = .purged then .ok (g.detach chainId, next.status)
    else .ok (g, next.status)

/-- Advance until the status stays, at most the given number of times. -/
def advanceLoop (chainId : ChainId) (currentBlock : Nat) : Nat → ChainRegistry → ChainRegistry
  | 0, g => g
  | maxIterations + 1, g =>
    match g.sidechains.find? chainId with
    | none => g
    | some prev =>
      match g.advancePurgeState chainId currentBlock with
      | .error _ => g
      | .ok (g, newStatus) =>
        if prev.status = newStatus then g else advanceLoop chainId currentBlock maxIterations g

/-- The part of a periodic check that looks for a trigger. -/
def triggerNext (currentBlock : Nat) (s : ChainRegistry × List (ChainId × PurgeTrigger))
    (chainId : ChainId) : ChainRegistry × List (ChainId × PurgeTrigger) :=
  match s.1.sidechains.find? chainId with
  | none => s
  | some sc =>
    if sc.status = .active ∨ sc.status = .inactive then
      match s.1.checkPurgeTriggers chainId currentBlock with
      | none => s
      | some trigger =>
        match s.1.triggerPurge chainId trigger currentBlock with
        | .error _ => s
        | .ok (g, _) => (g, s.2 ++ [(chainId, trigger)])
    else s

def checkNext (currentBlock : Nat) (s : ChainRegistry × List (ChainId × PurgeTrigger))
    (chainId : ChainId) : ChainRegistry × List (ChainId × PurgeTrigger) :=
  let s := triggerNext currentBlock s chainId
  (advanceLoop chainId currentBlock 5 s.1, s.2)

def autoPurgeV31 (order : IterOrder ChainId) (g : ChainRegistry) (currentBlock : Nat) :
    ChainRegistry × List (ChainId × PurgeTrigger) :=
  if currentBlock < g.lastPurgeCheck + purgeCheckInterval then (g, [])
  else
    let g := { g with lastPurgeCheck := currentBlock }
    (order.iter g.sidechains.keys).foldl (checkNext currentBlock) (g, [])

/-! ## Withdrawals -/

def withdrawFromPurgedChain (g : ChainRegistry) (chainId : ChainId) (owner : AccountId) :
    Except ChainError (ChainRegistry × WithdrawalResult) :=
  g.withSidechain chainId fun sc =>
    if sc.status ≠ .withdrawalWindow then .error .invalidState
    else if owner ∈ sc.withdrawnAccounts then .error .alreadyWithdrawn
    else if owner ≠ sc.owner then .error .requiresMerkleProof
    else
      .ok ({ sc with withdrawnAccounts := insert owner sc.withdrawnAccounts },
        { chainId, recipient := owner, amount := sc.deposit, withdrawalType := .ownerDeposit })

/-- The leaf of the proof is not compared with the account and the balance. -/
def withdrawWithProof (cr : Crypto) (g : ChainRegistry) (chainId : ChainId) (account : AccountId)
    (balance : Balance) (merkleProof : MerkleProof) : Except ChainError (ChainRegistry × WithdrawalResult) :=
  g.withSidechain chainId fun sc =>
    if sc.status ≠ .withdrawalWindow then .error .invalidState
    else if account ∈ sc.withdrawnAccounts then .error .alreadyWithdrawn
    else
      match sc.snapshotStateRoot with
      | none => .error .noSnapshotStateRoot
      | some snapshotRoot =>
        if merkleProof.verify cr = false ∨ merkleProof.root ≠ snapshotRoot then .error .invalidMerkleProof
        else
          .ok ({ sc with withdrawnAccounts := insert account sc.withdrawnAccounts },
            { chainId, recipient := account, amount := balance, withdrawalType := .userBalance })

/-- What an account that is not the owner gets: half of it without a valid proof. -/
def emergencyAmount (cr : Crypto) (sc : SidechainInfo) (balance : Balance) :
    Option MerkleProof → Balance
  | none => balance / 2
  | some proof =>
    match sc.snapshotStateRoot with
    | none => balance
    | some snapshotRoot => if proof.verify cr = true ∧ proof.root = snapshotRoot then balance else balance / 2

/-- The status is not looked at. -/
def emergencyExit (cr : Crypto) (g : ChainRegistry) (chainId : ChainId) (account : AccountId)
    (balance : Balance) (merkleProof : Option MerkleProof) :
    Except ChainError (ChainRegistry × WithdrawalResult) :=
  g.withSidechain chainId fun sc =>
    if account ∈ sc.withdrawnAccounts then .error .alreadyWithdrawn
    else
      let withdrawn := { sc with withdrawnAccounts := insert account sc.withdrawnAccounts }
      if account = sc.owner then
        .ok (withdrawn,
          { chainId, recipient := account, amount := sc.deposit, withdrawalType := .emergencyOwner })
      else
        .ok (withdrawn,
          { chainId, recipient := account, amount := emergencyAmount cr sc balance merkleProof
            withdrawalType := .emergency })

end ChainRegistry

/-- A call of the registry. -/
inductive RegistryOp where
  | createSidechain (owner : AccountId) (name description : Option String) (parent : Option ChainId)
      (securityMode : SecurityMode) (hostId : Option ChainId) (deposit : Balance) (block : Nat)
  | createHostchain (creator : AccountId) (block : Nat)
  | affiliateSidechain (sidechainId hostId : ChainId)
  | leaveHost (sidechainId : ChainId)
  | assignValidators (chainId : ChainId)
  | addValidatorToChain (chainId : ChainId) (validator : AccountId)
  | removeValidatorFromChain (chainId : ChainId) (validator : AccountId)
  | addValidatorToHostchain (order : IterOrder ChainId) (hostId : ChainId) (validator : AccountId)
  | removeValidatorFromHostchain (order : IterOrder ChainId) (hostId : ChainId) (validator : AccountId)
  | recordActivity (chainId : ChainId) (block : Nat)
  | recordGovernanceFailure (chainId : ChainId)
  | resetGovernanceFailures (chainId : ChainId)
  | slashValidator (chainId : ChainId) (validator : AccountId)
  | updateVerifiedStateRoot (chainId : ChainId) (stateRoot : Hash)
  | reportStateDivergence (chainId : ChainId) (blockNumber : Nat) (reporter : AccountId)
  | setSnapshotStateRoot (chainId : ChainId) (stateRootHash : Hash)
  | purgeSidechain (chainId : ChainId) (currentBlock : Nat)
  | autoPurgeInactive (order : IterOrder ChainId) (currentBlock : Nat)
  | triggerPurge (chainId : ChainId) (trigger : PurgeTrigger) (currentBlock : Nat)
  | advancePurgeState (chainId : ChainId) (currentBlock : Nat)
  | autoPurgeV31 (order : IterOrder ChainId) (currentBlock : Nat)
  | withdrawFromPurgedChain (chainId : ChainId) (owner : AccountId)
  | withdrawWithProof (chainId : ChainId) (account : AccountId) (balance : Balance) (merkleProof : MerkleProof)
  | emergencyExit (chainId : ChainId) (account : AccountId) (balance : Balance)
      (merkleProof : Option MerkleProof)

namespace ChainRegistry

/-- The registry after a call, also after one that failed. -/
def apply (cr : Crypto) (g : ChainRegistry) : RegistryOp → ChainRegistry
  | .createSidechain owner name description parent securityMode hostId deposit block =>
    (g.createSidechain owner name description parent securityMode hostId deposit block).1
  | .createHostchain creator block => (g.createHostchain creator block).1
  | .affiliateSidechain sidechainId hostId => (g.affiliateSidechain sidechainId hostId).orKeep g
  | .leaveHost sidechainId => (g.leaveHost sidechainId).1
  | .assignValidators chainId => ((g.assignValidators chainId).map Prod.fst).orKeep g
  | .addValidatorToChain chainId validator =>
    ((g.addValidatorToChain chainId validator).map Prod.fst).orKeep g
  | .removeValidatorFromChain chainId validator =>
    ((g.removeValidatorFromChain chainId validator).map Prod.fst).orKeep g
  | .addValidatorToHostchain order hostId validator => (addValidatorToHostchain order g hostId validator).1
  | .removeValidatorFromHostchain order hostId validator =>
    (removeValidatorFromHostchain order g hostId validator).1
  | .recordActivity chainId block => ((g.recordActivity chainId block).map Prod.fst).orKeep g
  | .recordGovernanceFailure chainId => ((g.recordGovernanceFailure chainId).map Prod.fst).orKeep g
  | .resetGovernanceFailures chainId => ((g.resetGovernanceFailures chainId).map Prod.fst).orKeep g
  | .slashValidator chainId validator => ((g.slashValidator chainId validator).map Prod.fst).orKeep g
  | .updateVerifiedStateRoot chainId stateRoot =>
    ((g.updateVerifiedStateRoot chainId stateRoot).map Prod.fst).orKeep g
  | .reportStateDivergence chainId blockNumber reporter =>
    ((g.reportStateDivergence chainId blockNumber reporter).map Prod.fst).orKeep g
  | .setSnapshotStateRoot chainId stateRootHash =>
    ((g.setSnapshotStateRoot chainId stateRootHash).map Prod.fst).orKeep g
  | .purgeSidechain chainId currentBlock => ((g.purgeSidechain chainId currentBlock).map Prod.fst).orKeep g
  | .autoPurgeInactive order currentBlock => (autoPurgeInactive order g currentBlock).1
  | .triggerPurge chainId trigger currentBlock =>
    ((g.triggerPurge chainId trigger currentBlock).map Prod.fst).orKeep g
  | .advancePurgeState chainId currentBlock =>
    ((g.advancePurgeState chainId currentBlock).map Prod.fst).orKeep g
  | .autoPurgeV31 order currentBlock => (autoPurgeV31 order g currentBlock).1
  | .withdrawFromPurgedChain chainId owner =>
    ((g.withdrawFromPurgedChain chainId owner).map Prod.fst).orKeep g
  | .withdrawWithProof chainId account balance merkleProof =>
    ((g.withdrawWithProof cr chainId account balance merkleProof).map Prod.fst).orKeep g
  | .emergencyExit chainId account balance merkleProof =>
    ((g.emergencyExit cr chainId account balance merkleProof).map Prod.fst).orKeep g

/-- The registry after a run from the empty one. -/
def after (cr : Crypto) (ops : List RegistryOp) : ChainRegistry := ops.foldl (apply cr) .new

theorem after_snoc (cr : Crypto) (ops : List RegistryOp) (op : RegistryOp) :
    after cr (ops ++ [op]) = (after cr ops).apply cr op := List.foldl_append

end ChainRegistry

/-! ## Loops

A relation between registries that one purge, one transition or one assignment respects
is respected by the loops over them. -/

namespace ChainRegistry

section Loops

variable (R : ChainRegistry → ChainRegistry → Prop) (hrefl : ∀ g, R g g)
  (htrans : ∀ {r s t}, R r s → R s t → R r t)

include hrefl htrans

theorem reassign_rel (hassign : ∀ g t c v, g.assignValidators c = .ok (t, v) → R g t) (l : List ChainId)
    (g : ChainRegistry) : R g (reassign l g).1 := by
  induction l generalizing g with
  | nil => exact hrefl g
  | cons c l ih =>
    unfold reassign
    cases h : g.assignValidators c with
    | error e => exact hrefl g
    | ok r => exact htrans (hassign g r.1 c r.2 h) (ih r.1)

/-- A loop over chains that keeps a list of what it did. -/
theorem foldl_rel {β : Type} (next : ChainRegistry × List β → ChainId → ChainRegistry × List β)
    (hnext : ∀ s c, R s.1 (next s c).1) (l : List ChainId) (s : ChainRegistry × List β) :
    R s.1 (l.foldl next s).1 :=
  Run.rel_foldl next (fun _ _ => True) (fun _ => True) (fun s t => R s.1 t.1) (fun s => hrefl s.1)
    (fun _ _ _ h h' => htrans h h') (fun _ _ _ _ => trivial) (fun s c _ _ => hnext s c) s l trivial
    (Run.meets_of_forall next _ (fun _ _ => trivial) s l)

theorem autoPurgeInactive_rel (b : Nat) (hcheck : ∀ g, R g { g with lastPurgeCheck := b })
    (hpurge : ∀ g t c d, g.purgeSidechain c b = .ok (t, d) → R g t) (order : IterOrder ChainId)
    (g : ChainRegistry) : R g (autoPurgeInactive order g b).1 := by
  have hnext : ∀ (s : ChainRegistry × List ChainId) (c : ChainId), R s.1 (purgeNext b s c).1 := by
    intro s c
    unfold purgeNext
    split
    · exact hrefl s.1
    · next t d ht => exact hpurge s.1 t c d ht
  unfold autoPurgeInactive
  split
  · exact hrefl g
  · exact htrans (hcheck g) (foldl_rel R hrefl htrans _ hnext _ ({ g with lastPurgeCheck := b }, []))

theorem advanceLoop_rel (b : Nat) (hadvance : ∀ g t c status, g.advancePurgeState c b = .ok (t, status) → R g t)
    (c : ChainId) (n : Nat) (g : ChainRegistry) : R g (advanceLoop c b n g) := by
  induction n generalizing g with
  | zero => exact hrefl g
  | succ n ih =>
    unfold advanceLoop
    split
    · exact hrefl g
    · split
      · exact hrefl g
      · next t status ht =>
        have hstep := hadvance g t c status ht
        split
        · exact hstep
        · exact htrans hstep (ih t)

theorem autoPurgeV31_rel (b : Nat) (hcheck : ∀ g, R g { g with lastPurgeCheck := b })
    (htrigger : ∀ g t c trigger u, g.triggerPurge c trigger b = .ok (t, u) → R g t)
    (hadvance : ∀ g t c status, g.advancePurgeState c b = .ok (t, status) → R g t) (order : IterOrder ChainId)
    (g : ChainRegistry) : R g (autoPurgeV31 order g b).1 := by
  have hnext : ∀ (s : ChainRegistry × List (ChainId × PurgeTrigger)) (c : ChainId),
      R s.1 (triggerNext b s c).1 := by
    intro s c
    unfold triggerNext
    split
    · exact hrefl _
    split
    · split
      · exact hrefl _
      · split
        · exact hrefl _
        · next t u ht => exact htrigger _ t c _ u ht
    · exact hrefl _
  have hstep : ∀ (s : ChainRegistry × List (ChainId × PurgeTrigger)) (c : ChainId), R s.1 (checkNext b s c).1 :=
    fun s c => htrans (hnext s c) (advanceLoop_rel R hrefl htrans b hadvance c 5 _)
  unfold autoPurgeV31
  split
  · exact hrefl g
  · exact htrans (hcheck g) (foldl_rel R hrefl htrans _ hstep _ ({ g with lastPurgeCheck := b }, []))

end Loops

end ChainRegistry

/-! ## What every call keeps -/

/-- The owner and the deposit are fixed, withdrawals are not forgotten and a purged
chain stays purged. -/
structure SidechainInfo.Later (sc sc' : SidechainInfo) : Prop where
  owner : sc'.owner = sc.owner
  deposit : sc'.deposit = sc.deposit
  withdrawn : sc.withdrawnAccounts ⊆ sc'.withdrawnAccounts
  purged : sc.status = .purged → sc'.status = .purged

namespace SidechainInfo.Later

theorem refl (sc : SidechainInfo) : sc.Later sc := ⟨rfl, rfl, subset_rfl, fun hp => hp⟩

theorem trans {a b c : SidechainInfo} (h : a.Later b) (h' : b.Later c) : a.Later c where
  owner := h'.owner.trans h.owner
  deposit := h'.deposit.trans h.deposit
  withdrawn := h.withdrawn.trans h'.withdrawn
  purged hp := h'.purged (h.purged hp)

end SidechainInfo.Later

namespace ChainRegistry

/-- Every stored chain is still stored, with a later record. -/
def Later (g t : ChainRegistry) : Prop :=
  ∀ c sc, g.sidechains.find? c = some sc → ∃ sc', t.sidechains.find? c = some sc' ∧ sc.Later sc'

namespace Later

theorem of_eq {g t : ChainRegistry} (h : t.sidechains = g.sidechains) : g.Later t := by
  intro c sc hf
  exact ⟨sc, h ▸ hf, .refl sc⟩

theorem refl (g : ChainRegistry) : g.Later g := of_eq rfl

theorem trans {a b c : ChainRegistry} (h : a.Later b) (h' : b.Later c) : a.Later c := by
  intro i sc hf
  obtain ⟨sc', hf', hl⟩ := h i sc hf
  obtain ⟨sc'', hf'', hl'⟩ := h' i sc' hf'
  exact ⟨sc'', hf'', hl.trans hl'⟩

/-- Rewriting one chain. -/
theorem insert {g t : ChainRegistry} {c : ChainId} {sc sc' : SidechainInfo}
    (hf : g.sidechains.find? c = some sc) (ht : t.sidechains = g.sidechains.insert c sc')
    (hl : sc.Later sc') : g.Later t := by
  intro i r hr
  rw [ht, SortedMap.find?_insert]
  by_cases hi : i = c
  · subst hi
    rw [hf] at hr
    obtain rfl := Option.some.inj hr
    rw [if_pos rfl]
    exact ⟨sc', rfl, hl⟩
  · rw [if_neg hi]
    exact ⟨r, hr, .refl r⟩

/-- Storing a chain under a new id. -/
theorem insert_new {g t : ChainRegistry} {c : ChainId} {sc : SidechainInfo}
    (hnew : g.sidechains.find? c = none) (ht : t.sidechains = g.sidechains.insert c sc) : g.Later t := by
  intro i r hr
  have hi : i ≠ c := by
    rintro rfl
    rw [hnew] at hr
    cases hr
  rw [ht, SortedMap.find?_insert_ne _ _ _ _ hi]
  exact ⟨r, hr, .refl r⟩

end Later

theorem withSidechain_ok {α : Type} (g t : ChainRegistry) (c : ChainId)
    (f : SidechainInfo → Except ChainError (SidechainInfo × α)) (a : α)
    (h : g.withSidechain c f = .ok (t, a)) :
    ∃ sc sc', g.sidechains.find? c = some sc ∧ f sc = .ok (sc', a) ∧
      t = { g with sidechains := g.sidechains.insert c sc' } := by
  unfold withSidechain at h
  cases hf : g.sidechains.find? c with
  | none => simp [hf] at h
  | some sc =>
    simp only [hf] at h
    cases hr : f sc with
    | error e => simp [hr] at h
    | ok r =>
      rw [hr] at h
      cases h
      exact ⟨sc, r.1, rfl, hr, rfl⟩

theorem detach_sidechains (g : ChainRegistry) (c : ChainId) : (g.detach c).sidechains = g.sidechains := by
  unfold detach
  split
  · rfl
  · simp only
    split <;> rfl

/-- What an advance leaves; the chain leaves its host if its window ended. -/
theorem advancePurgeState_ok (g t : ChainRegistry) (c : ChainId) (b : Nat) (status : ChainStatus)
    (h : g.advancePurgeState c b = .ok (t, status)) :
    ∃ sc, g.sidechains.find? c = some sc ∧
      (t = { g with sidechains := g.sidechains.insert c (advance sc b) } ∨
        t = ChainRegistry.detach { g with sidechains := g.sidechains.insert c (advance sc b) } c) := by
  unfold advancePurgeState at h
  cases hf : g.sidechains.find? c with
  | none => simp [hf] at h
  | some sc =>
    refine ⟨sc, rfl, ?_⟩
    simp only [hf] at h
    split at h
    · cases h
      exact .inr rfl
    · cases h
      exact .inl rfl

section Writes

/-! A reflexive relation between registries that holds when one record is rewritten by `M`: the calls
that rewrite a record respect it. -/

variable (R : ChainRegistry → ChainRegistry → Prop) (hrefl : ∀ g, R g g)
  {M : SidechainInfo → SidechainInfo → Prop}
  (hwrite : ∀ {g t : ChainRegistry} {c : ChainId} {sc sc' : SidechainInfo}, g.sidechains.find? c = some sc →
    t.sidechains = g.sidechains.insert c sc' → M sc sc' → R g t)

include hwrite

theorem withSidechain_rel {α : Type} (g t : ChainRegistry) (c : ChainId)
    (f : SidechainInfo → Except ChainError (SidechainInfo × α)) (a : α)
    (hm : ∀ sc sc' a, f sc = .ok (sc', a) → M sc sc') (h : g.withSidechain c f = .ok (t, a)) : R g t := by
  obtain ⟨sc, sc', hf, hr, rfl⟩ := withSidechain_ok g t c f a h
  exact hwrite hf rfl (hm sc sc' a hr)

theorem advancePurgeState_rel (g t : ChainRegistry) (c : ChainId) (b : Nat) (status : ChainStatus)
    (hm : ∀ sc, M sc (advance sc b)) (h : g.advancePurgeState c b = .ok (t, status)) : R g t := by
  obtain ⟨sc, hf, rfl | rfl⟩ := advancePurgeState_ok g t c b status h
  · exact hwrite hf rfl (hm sc)
  · exact hwrite hf (detach_sidechains _ c) (hm sc)

theorem assignValidators_rel (g t : ChainRegistry) (c : ChainId) (v : Finset AccountId)
    (hm : ∀ sc v, M sc { sc with validators := v }) (h : g.assignValidators c = .ok (t, v)) : R g t := by
  refine withSidechain_rel R hwrite g t c _ v ?_ h
  intro sc sc' v hr
  split at hr
  · cases hr
  · cases hr
    exact hm sc _

include hrefl

/-- A call that rewrites one chain, also if it fails. -/
theorem withSidechain_orKeep_rel {α : Type} (g : ChainRegistry) (c : ChainId)
    (f : SidechainInfo → Except ChainError (SidechainInfo × α))
    (hm : ∀ sc sc' a, f sc = .ok (sc', a) → M sc sc') :
    R g (((g.withSidechain c f).map Prod.fst).orKeep g) := by
  apply Except.orKeep_map_of (R g) _ g (hrefl g)
  intro t a ht
  exact withSidechain_rel R hwrite g t c f a hm ht

theorem changePool_rel (htrans : ∀ {r s t}, R r s → R s t → R r t)
    (hsame : ∀ {g t : ChainRegistry}, t.sidechains = g.sidechains → R g t)
    (hm : ∀ sc v, M sc { sc with validators := v }) (order : IterOrder ChainId) (g : ChainRegistry) (h : ChainId)
    (f : HostChainInfo → Except ChainTypeError HostChainInfo) : R g (changePool order g h f).1 := by
  unfold changePool
  split
  · exact hrefl g
  · split
    · exact hrefl g
    · next host _ =>
      have hhost : R g { g with hostchains := g.hostchains.insert h host } := hsame rfl
      refine htrans hhost (reassign_rel R hrefl htrans ?_ _ _)
      exact fun g t c v => assignValidators_rel R hwrite g t c v hm

end Writes

/-! ### Hosts and validators -/

theorem addValidator_later (sc sc' : SidechainInfo) (v : AccountId) (h : sc.addValidator v = .ok sc') :
    sc.Later sc' := by
  unfold SidechainInfo.addValidator at h
  split at h
  · cases h
  · cases h
    exact ⟨rfl, rfl, subset_rfl, fun hp => hp⟩

theorem removeValidator_later (sc sc' : SidechainInfo) (v : AccountId) (h : sc.removeValidator v = .ok sc') :
    sc.Later sc' := by
  unfold SidechainInfo.removeValidator at h
  split at h
  · cases h
    exact ⟨rfl, rfl, subset_rfl, fun hp => hp⟩
  · cases h

theorem affiliateSidechain_sidechains (g t : ChainRegistry) (c h : ChainId)
    (ht : g.affiliateSidechain c h = .ok t) : t.sidechains = g.sidechains := by
  unfold affiliateSidechain at ht
  split at ht
  · cases ht
  · split at ht
    · cases ht
    · split at ht
      · cases ht
      · cases ht
        rfl

theorem leaveHost_sidechains (g : ChainRegistry) (c : ChainId) :
    (g.leaveHost c).1.sidechains = g.sidechains := by
  unfold leaveHost
  split
  · rfl
  · simp only
    split
    · rfl
    · split <;> rfl

theorem withValidators_later (sc : SidechainInfo) (v : Finset AccountId) : sc.Later { sc with validators := v } :=
  ⟨rfl, rfl, subset_rfl, fun hp => hp⟩

theorem changePool_later (order : IterOrder ChainId) (g : ChainRegistry) (h : ChainId)
    (f : HostChainInfo → Except ChainTypeError HostChainInfo) : g.Later (changePool order g h f).1 :=
  changePool_rel Later .refl .insert (fun h h' => h.trans h') .of_eq withValidators_later order g h f

/-- The checks of a creation. -/
def accepts (g : ChainRegistry) (parent : Option ChainId) (securityMode : SecurityMode)
    (hostId : Option ChainId) (deposit : Balance) : Bool :=
  match g.requiredDeposit securityMode hostId with
  | .error _ => false
  | .ok required => decide (required ≤ deposit) && parent.all fun parentId => g.sidechains.contains parentId

/-- With a new chain stored. -/
def storeNew (g : ChainRegistry) (owner : AccountId) (name description : Option String)
    (parent : Option ChainId) (securityMode : SecurityMode) (deposit : Balance) (block : Nat) :
    ChainRegistry :=
  { g with
    nextChainId := g.nextChainId + 1
    sidechains := g.sidechains.insert ⟨g.nextChainId⟩
      (SidechainInfo.new ⟨g.nextChainId⟩ parent owner name description securityMode deposit block) }

/-- The host a new chain joins at once. -/
def joined (securityMode : SecurityMode) (hostId : Option ChainId) : Option ChainId :=
  match securityMode with
  | .shared => hostId
  | _ => none

/-- The steps of a creation that come after the chain is stored. -/
def settle (g : ChainRegistry) (chainId : ChainId) (securityMode : SecurityMode) (hostId : Option ChainId) :
    ChainRegistry × Except ChainError ChainId :=
  match (joined securityMode hostId).elim (.ok g) fun host => g.affiliateSidechain chainId host with
  | .error e => (g, .error e)
  | .ok g =>
    if securityMode = .sovereign then (g, .ok chainId)
    else
      match g.assignValidators chainId with
      | .error e => (g, .error e)
      | .ok (g, _) => (g, .ok chainId)

theorem createSidechain_rejected (g : ChainRegistry) (owner : AccountId) (name description : Option String)
    (parent : Option ChainId) (m : SecurityMode) (host : Option ChainId) (deposit : Balance) (b : Nat)
    (h : g.accepts parent m host deposit = false) :
    ∃ e, g.createSidechain owner name description parent m host deposit b = (g, .error e) := by
  unfold createSidechain
  unfold accepts at h
  split
  · exact ⟨_, rfl⟩
  · next required hr =>
    rw [hr] at h
    simp only [Bool.and_eq_false_iff, decide_eq_false_iff_not, not_le] at h
    split
    · exact ⟨_, rfl⟩
    · next hd =>
      rcases h with h | h
      · exact absurd h hd
      · rw [if_pos]
        · exact ⟨_, rfl⟩
        · cases parent with
          | none => cases h
          | some p => simpa using h

theorem createSidechain_accepted (g : ChainRegistry) (owner : AccountId) (name description : Option String)
    (parent : Option ChainId) (m : SecurityMode) (host : Option ChainId) (deposit : Balance) (b : Nat)
    (h : g.accepts parent m host deposit = true) :
    g.createSidechain owner name description parent m host deposit b =
      (g.storeNew owner name description parent m deposit b).settle ⟨g.nextChainId⟩ m host := by
  unfold createSidechain settle
  unfold accepts at h
  cases hr : g.requiredDeposit m host with
  | error e => simp [hr] at h
  | ok required =>
    simp only [hr, Bool.and_eq_true, decide_eq_true_eq] at h
    have hparent : (parent.any fun parentId => !g.sidechains.contains parentId) = false := by
      cases parent with
      | none => rfl
      | some p => simpa using h.2
    simp only [not_lt.mpr h.1, hparent, if_false, Bool.false_eq_true, storeNew]
    cases m with
    | inherited => rfl
    | shared => cases host <;> rfl
    | sovereign => rfl

/-- A settled chain keeps all but its validators. -/
theorem settle_sidechains (g : ChainRegistry) (c : ChainId) (m : SecurityMode) (host : Option ChainId) :
    (g.settle c m host).1.sidechains = g.sidechains ∨
      ∃ sc v, g.sidechains.find? c = some sc ∧
        (g.settle c m host).1.sidechains = g.sidechains.insert c { sc with validators := v } := by
  unfold settle
  split
  · exact .inl rfl
  · next t ht =>
    have hsame : t.sidechains = g.sidechains := by
      cases hj : joined m host with
      | none =>
        rw [hj] at ht
        cases ht
        rfl
      | some h =>
        rw [hj] at ht
        exact affiliateSidechain_sidechains g t c h ht
    split
    · exact .inl hsame
    · split
      · exact .inl hsame
      · next u v hu =>
        obtain ⟨sc, sc', hf, hr, rfl⟩ := withSidechain_ok t u c _ v hu
        split at hr
        · cases hr
        · cases hr
          rw [hsame] at hf
          exact .inr ⟨sc, v, hf, by rw [hsame]⟩

/-- A new chain is stored, and then at most the validators of a chain change. -/
theorem createSidechain_rel (R : ChainRegistry → ChainRegistry → Prop) (hrefl : ∀ g, R g g)
    (htrans : ∀ {g t u}, R g t → R t u → R g u) (hsame : ∀ {g t}, t.sidechains = g.sidechains → R g t)
    (hvalidators : ∀ {g t c sc v}, g.sidechains.find? c = some sc →
      t.sidechains = g.sidechains.insert c { sc with validators := v } → R g t)
    (g : ChainRegistry) (owner : AccountId) (name description : Option String) (parent : Option ChainId)
    (m : SecurityMode) (host : Option ChainId) (deposit : Balance) (b : Nat)
    (hstored : g.accepts parent m host deposit = true →
      R g (g.storeNew owner name description parent m deposit b)) :
    R g (g.createSidechain owner name description parent m host deposit b).1 := by
  cases hacc : g.accepts parent m host deposit with
  | false =>
    obtain ⟨e, he⟩ := createSidechain_rejected g owner name description parent m host deposit b hacc
    rw [he]
    exact hrefl g
  | true =>
    rw [createSidechain_accepted g owner name description parent m host deposit b hacc]
    refine htrans (hstored hacc) ?_
    rcases settle_sidechains (g.storeNew owner name description parent m deposit b) ⟨g.nextChainId⟩ m host with
      h | ⟨sc, v, hf, h⟩
    · exact hsame h
    · exact hvalidators hf h

/-- Where the id of the new chain is not in use. -/
theorem createSidechain_later (g : ChainRegistry) (owner : AccountId) (name description : Option String)
    (parent : Option ChainId) (m : SecurityMode) (host : Option ChainId) (deposit : Balance) (b : Nat)
    (hnew : g.sidechains.find? ⟨g.nextChainId⟩ = none) :
    g.Later (g.createSidechain owner name description parent m host deposit b).1 := by
  refine createSidechain_rel Later .refl (fun h h' => h.trans h') .of_eq ?_ g owner name description parent m
    host deposit b fun _ => .insert_new hnew rfl
  exact fun hf h => .insert hf h (withValidators_later _ _)

/-! ### Purges -/

theorem purgeSidechain_ok (g t : ChainRegistry) (c : ChainId) (b : Nat) (d : Balance)
    (h : g.purgeSidechain c b = .ok (t, d)) :
    ∃ sc, g.sidechains.find? c = some sc ∧ sc.isInactive b inactivityThreshold = true ∧ d = sc.deposit ∧
      t.sidechains = g.sidechains.insert c { sc with status := .purged } := by
  unfold purgeSidechain at h
  split at h
  · cases h
  · next u d' hu =>
    cases h
    obtain ⟨sc, sc', hf, hr, rfl⟩ := withSidechain_ok g u c _ d hu
    split at hr
    · cases hr
    · next hi =>
      cases hr
      exact ⟨sc, hf, by simpa using hi, rfl, detach_sidechains _ c⟩

theorem purgeSidechain_later (g t : ChainRegistry) (c : ChainId) (b : Nat) (d : Balance)
    (h : g.purgeSidechain c b = .ok (t, d)) : g.Later t := by
  obtain ⟨sc, hf, -, -, ht⟩ := purgeSidechain_ok g t c b d h
  exact .insert hf ht ⟨rfl, rfl, subset_rfl, fun _ => rfl⟩

/-- The loop purges only given chains, and purges the ones it returns. -/
theorem purgeNext_foldl (b : Nat) (ids : List ChainId) (s : ChainRegistry × List ChainId) :
    s.1.Later (ids.foldl (purgeNext b) s).1 ∧
      ∀ c ∈ (ids.foldl (purgeNext b) s).2, c ∈ s.2 ∨
        c ∈ ids ∧ ∃ sc, (ids.foldl (purgeNext b) s).1.sidechains.find? c = some sc ∧ sc.status = .purged := by
  induction ids generalizing s with
  | nil => exact ⟨.refl _, fun c hc => .inl hc⟩
  | cons i ids ih =>
    rw [List.foldl_cons]
    obtain ⟨hlater, hout⟩ := ih (purgeNext b s i)
    cases h : s.1.purgeSidechain i b with
    | error e =>
      have hsame : purgeNext b s i = s := by
        unfold purgeNext
        rw [h]
      rw [hsame] at hlater hout ⊢
      refine ⟨hlater, ?_⟩
      intro c hc
      rcases hout c hc with hc | ⟨hc, hp⟩
      · exact .inl hc
      · exact .inr ⟨List.mem_cons_of_mem _ hc, hp⟩
    | ok r =>
      have hstep : purgeNext b s i = (r.1, s.2 ++ [i]) := by
        unfold purgeNext
        rw [h]
      rw [hstep] at hlater hout ⊢
      refine ⟨(purgeSidechain_later s.1 r.1 i b r.2 h).trans hlater, ?_⟩
      intro c hc
      rcases hout c hc with hc | ⟨hc, hp⟩
      · rcases List.mem_append.mp hc with hc | hc
        · exact .inl hc
        · -- purged here, and it stays so
          have hci : c = i := by simpa using hc
          obtain ⟨sc, -, -, -, ht⟩ := purgeSidechain_ok s.1 r.1 i b r.2 h
          have hfind : r.1.sidechains.find? c = some { sc with status := .purged } := by
            rw [ht, hci, SortedMap.find?_insert_self]
          obtain ⟨sc', hf', hl⟩ := hlater c _ hfind
          exact .inr ⟨by rw [hci]; exact List.mem_cons_self, sc', hf', hl.purged rfl⟩
      · exact .inr ⟨List.mem_cons_of_mem _ hc, hp⟩

/-- A periodic purge: the chains it returns were active and inactive for long, and are
purged now. -/
theorem autoPurgeInactive_spec (order : IterOrder ChainId) (g : ChainRegistry) (b : Nat) :
    g.Later (autoPurgeInactive order g b).1 ∧
      ∀ c ∈ (autoPurgeInactive order g b).2, ¬ b < g.lastPurgeCheck + purgeCheckInterval ∧
        (∃ sc, g.sidechains.find? c = some sc ∧ isPurgeable b sc = true) ∧
        ∃ sc, (autoPurgeInactive order g b).1.sidechains.find? c = some sc ∧ sc.status = .purged := by
  unfold autoPurgeInactive
  by_cases hb : b < g.lastPurgeCheck + purgeCheckInterval
  · rw [if_pos hb]
    refine ⟨.refl g, ?_⟩
    intro c hc
    cases hc
  · rw [if_neg hb]
    simp only
    obtain ⟨hlater, hout⟩ := purgeNext_foldl b
      (order.iter (g.sidechains.filter fun _ sc => isPurgeable b sc).keys) ({ g with lastPurgeCheck := b }, [])
    refine ⟨Later.trans (.of_eq rfl) hlater, ?_⟩
    intro c hc
    rcases hout c hc with hc | ⟨hc, hp⟩
    · cases hc
    · rw [IterOrder.mem_iter] at hc
      exact ⟨hb, (SortedMap.mem_keys_filter_iff _ _ _).mp hc, hp⟩

theorem triggerPurge_later (g t : ChainRegistry) (c : ChainId) (trigger : PurgeTrigger) (b : Nat) (u : Unit)
    (h : g.triggerPurge c trigger b = .ok (t, u)) : g.Later t := by
  refine withSidechain_rel Later .insert g t c _ u ?_ h
  intro sc sc' _ hr
  split at hr
  · cases hr
  · next hs =>
    cases hr
    refine ⟨rfl, rfl, subset_rfl, ?_⟩
    intro hp
    rw [hp] at hs
    simp at hs

theorem advance_later (sc : SidechainInfo) (b : Nat) : sc.Later (advance sc b) := by
  unfold advance
  cases hs : sc.status with
  | pendingPurge =>
    simp only
    split
    · exact ⟨rfl, rfl, subset_rfl, fun hp => by rw [hs] at hp; cases hp⟩
    · exact .refl sc
  | frozen => exact ⟨rfl, rfl, subset_rfl, fun hp => by rw [hs] at hp; cases hp⟩
  | snapshot => exact ⟨rfl, rfl, subset_rfl, fun hp => by rw [hs] at hp; cases hp⟩
  | withdrawalWindow =>
    simp only
    split
    · exact ⟨rfl, rfl, subset_rfl, fun _ => rfl⟩
    · exact .refl sc
  | active => exact .refl sc
  | inactive => exact .refl sc
  | purged => exact .refl sc

theorem autoPurgeV31_later (order : IterOrder ChainId) (g : ChainRegistry) (b : Nat) :
    g.Later (autoPurgeV31 order g b).1 :=
  autoPurgeV31_rel Later .refl (fun h h' => h.trans h') b (fun _ => .of_eq rfl)
    (fun g t c trigger u => triggerPurge_later g t c trigger b u)
    (fun g t c status => advancePurgeState_rel Later .insert g t c b status (advance_later · b)) order g

/-! ### Withdrawals -/

theorem withdrawFromPurgedChain_ok (g t : ChainRegistry) (c : ChainId) (a : AccountId) (r : WithdrawalResult)
    (h : g.withdrawFromPurgedChain c a = .ok (t, r)) :
    ∃ sc, g.sidechains.find? c = some sc ∧ sc.status = .withdrawalWindow ∧ a ∉ sc.withdrawnAccounts ∧
      r.chainId = c ∧ r.recipient = a ∧ a = sc.owner ∧ r.amount = sc.deposit ∧
      t.sidechains = g.sidechains.insert c { sc with withdrawnAccounts := insert a sc.withdrawnAccounts } := by
  obtain ⟨sc, sc', hf, hr, rfl⟩ := withSidechain_ok g t c _ r h
  by_cases hs : sc.status = .withdrawalWindow
  · by_cases ha : a ∈ sc.withdrawnAccounts
    · simp [hs, ha] at hr
    · by_cases ho : a = sc.owner
      · rw [if_neg (by simp [hs]), if_neg ha, if_neg (by simp [ho])] at hr
        cases hr
        exact ⟨sc, hf, hs, ha, rfl, rfl, ho, rfl, rfl⟩
      · simp [hs, ha, ho] at hr
  · simp [hs] at hr

theorem withdrawWithProof_ok (cr : Crypto) (g t : ChainRegistry) (c : ChainId) (a : AccountId)
    (balance : Balance) (proof : MerkleProof) (r : WithdrawalResult)
    (h : g.withdrawWithProof cr c a balance proof = .ok (t, r)) :
    ∃ sc root, g.sidechains.find? c = some sc ∧ sc.status = .withdrawalWindow ∧ a ∉ sc.withdrawnAccounts ∧
      sc.snapshotStateRoot = some root ∧ proof.verify cr = true ∧ proof.root = root ∧
      r.chainId = c ∧ r.recipient = a ∧ r.amount = balance ∧
      t.sidechains = g.sidechains.insert c { sc with withdrawnAccounts := insert a sc.withdrawnAccounts } := by
  obtain ⟨sc, sc', hf, hr, rfl⟩ := withSidechain_ok g t c _ r h
  by_cases hs : sc.status = .withdrawalWindow
  · by_cases ha : a ∈ sc.withdrawnAccounts
    · simp [hs, ha] at hr
    · rw [if_neg (by simp [hs]), if_neg ha] at hr
      split at hr
      · cases hr
      · next root hroot =>
        split at hr
        · cases hr
        · next hproof =>
          rw [not_or] at hproof
          cases hr
          exact ⟨sc, root, hf, hs, ha, hroot, by simpa using hproof.1, by simpa using hproof.2, rfl, rfl,
            rfl, rfl⟩
  · simp [hs] at hr

theorem emergencyExit_ok (cr : Crypto) (g t : ChainRegistry) (c : ChainId) (a : AccountId) (balance : Balance)
    (proof : Option MerkleProof) (r : WithdrawalResult)
    (h : g.emergencyExit cr c a balance proof = .ok (t, r)) :
    ∃ sc, g.sidechains.find? c = some sc ∧ a ∉ sc.withdrawnAccounts ∧ r.chainId = c ∧ r.recipient = a ∧
      (a = sc.owner → r.amount = sc.deposit) ∧
      t.sidechains = g.sidechains.insert c { sc with withdrawnAccounts := insert a sc.withdrawnAccounts } := by
  obtain ⟨sc, sc', hf, hr, rfl⟩ := withSidechain_ok g t c _ r h
  by_cases ha : a ∈ sc.withdrawnAccounts
  · simp [ha] at hr
  · rw [if_neg ha] at hr
    by_cases ho : a = sc.owner
    · simp only [if_pos ho] at hr
      cases hr
      exact ⟨sc, hf, ha, rfl, rfl, fun _ => rfl, rfl⟩
    · simp only [if_neg ho] at hr
      cases hr
      exact ⟨sc, hf, ha, rfl, rfl, fun h => absurd h ho, rfl⟩

theorem later_withdrawn {g t : ChainRegistry} {c : ChainId} {a : AccountId} {sc : SidechainInfo}
    (hf : g.sidechains.find? c = some sc)
    (ht : t.sidechains = g.sidechains.insert c { sc with withdrawnAccounts := insert a sc.withdrawnAccounts }) :
    g.Later t :=
  .insert hf ht ⟨rfl, rfl, Finset.subset_insert a _, fun hp => hp⟩

/-! ### One call -/

/-- A creation takes an id that no chain has. -/
def freshId (g : ChainRegistry) : RegistryOp → Bool
  | .createSidechain .. => !g.sidechains.contains ⟨g.nextChainId⟩
  | _ => true

/-- **Step lemma.** -/
theorem apply_later (cr : Crypto) (g : ChainRegistry) (op : RegistryOp) (hfresh : g.freshId op = true) :
    g.Later (g.apply cr op) := by
  cases op with
  | createSidechain owner name description parent m host deposit b =>
    apply createSidechain_later
    unfold freshId SortedMap.contains at hfresh
    simpa using hfresh
  | createHostchain creator b => exact .of_eq rfl
  | affiliateSidechain c h =>
    apply Except.orKeep_of g.Later _ g (.refl g)
    intro t ht
    exact .of_eq (affiliateSidechain_sidechains g t c h ht)
  | leaveHost c => exact .of_eq (leaveHost_sidechains g c)
  | assignValidators c =>
    apply Except.orKeep_map_of g.Later _ g (.refl g)
    intro t v ht
    exact assignValidators_rel Later .insert g t c v withValidators_later ht
  | addValidatorToChain c v =>
    apply withSidechain_orKeep_rel Later .refl .insert
    intro sc sc' _ hr
    split at hr
    · cases hr
    · split at hr
      · cases hr
      · next r hadd =>
        cases hr
        exact addValidator_later sc sc' v hadd
  | removeValidatorFromChain c v =>
    apply withSidechain_orKeep_rel Later .refl .insert
    intro sc sc' _ hr
    split at hr
    · cases hr
    · split at hr
      · cases hr
      · next r hremove =>
        cases hr
        exact removeValidator_later sc sc' v hremove
  | addValidatorToHostchain order h v => exact changePool_later order g h _
  | removeValidatorFromHostchain order h v => exact changePool_later order g h _
  | recordActivity c b =>
    apply withSidechain_orKeep_rel Later .refl .insert
    intro sc sc' _ hr
    cases hr
    refine ⟨rfl, rfl, subset_rfl, ?_⟩
    intro hp
    show (if sc.status = .inactive then _ else sc.status) = _
    rw [hp]
    rfl
  | recordGovernanceFailure c =>
    apply withSidechain_orKeep_rel Later .refl .insert
    intro sc sc' _ hr
    cases hr
    exact ⟨rfl, rfl, subset_rfl, fun hp => hp⟩
  | resetGovernanceFailures c =>
    apply withSidechain_orKeep_rel Later .refl .insert
    intro sc sc' _ hr
    cases hr
    exact ⟨rfl, rfl, subset_rfl, fun hp => hp⟩
  | slashValidator c v =>
    apply withSidechain_orKeep_rel Later .refl .insert
    intro sc sc' _ hr
    cases hr
    exact ⟨rfl, rfl, subset_rfl, fun hp => hp⟩
  | updateVerifiedStateRoot c root =>
    apply withSidechain_orKeep_rel Later .refl .insert
    intro sc sc' _ hr
    cases hr
    exact ⟨rfl, rfl, subset_rfl, fun hp => hp⟩
  | reportStateDivergence c b reporter =>
    apply withSidechain_orKeep_rel Later .refl .insert
    intro sc sc' _ hr
    simp only at hr
    split at hr
    · cases hr
    · cases hr
      exact ⟨rfl, rfl, subset_rfl, fun hp => hp⟩
  | setSnapshotStateRoot c root =>
    apply withSidechain_orKeep_rel Later .refl .insert
    intro sc sc' _ hr
    split at hr
    · cases hr
    · cases hr
      exact ⟨rfl, rfl, subset_rfl, fun hp => hp⟩
  | purgeSidechain c b =>
    apply Except.orKeep_map_of g.Later _ g (.refl g)
    intro t d ht
    exact purgeSidechain_later g t c b d ht
  | autoPurgeInactive order b => exact (autoPurgeInactive_spec order g b).1
  | triggerPurge c trigger b =>
    apply Except.orKeep_map_of g.Later _ g (.refl g)
    intro t u ht
    exact triggerPurge_later g t c trigger b u ht
  | advancePurgeState c b =>
    apply Except.orKeep_map_of g.Later _ g (.refl g)
    intro t status ht
    exact advancePurgeState_rel Later .insert g t c b status (advance_later · b) ht
  | autoPurgeV31 order b => exact autoPurgeV31_later order g b
  | withdrawFromPurgedChain c a =>
    apply Except.orKeep_map_of g.Later _ g (.refl g)
    intro t r ht
    obtain ⟨sc, hf, -, -, -, -, -, -, hs⟩ := withdrawFromPurgedChain_ok g t c a r ht
    exact later_withdrawn hf hs
  | withdrawWithProof c a balance proof =>
    apply Except.orKeep_map_of g.Later _ g (.refl g)
    intro t r ht
    obtain ⟨sc, root, hf, -, -, -, -, -, -, -, -, hs⟩ := withdrawWithProof_ok cr g t c a balance proof r ht
    exact later_withdrawn hf hs
  | emergencyExit c a balance proof =>
    apply Except.orKeep_map_of g.Later _ g (.refl g)
    intro t r ht
    obtain ⟨sc, hf, -, -, -, -, hs⟩ := emergencyExit_ok cr g t c a balance proof r ht
    exact later_withdrawn hf hs

end ChainRegistry

end Kratos
