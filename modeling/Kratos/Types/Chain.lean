import Kratos.Types.Primitives

/-!
# Sidechains and hostchains

The records of the chain registry.  Block numbers and counters are natural
numbers.
-/

namespace Kratos

inductive ChainStatus where
  | active
  | inactive
  | pendingPurge
  | frozen
  | snapshot
  | withdrawalWindow
  | purged
deriving DecidableEq, Repr

inductive PurgeTrigger where
  | inactivity
  | governanceFailure
  | validatorFraud
  | securityInsolvency
  | stateDivergence
deriving DecidableEq, Repr

inductive SecurityMode where
  | inherited
  | shared
  | sovereign
deriving DecidableEq, Repr

/-- The errors of a chain record. -/
inductive ChainTypeError where
  | tooManyValidators
  | validatorNotFound
  | tooManyMembers
  | memberNotFound
deriving DecidableEq, Repr

def maxValidatorsPerChain : Nat := 100
def maxMembersPerHost : Nat := 100
def maxValidatorsPerHost : Nat := 200

/-- 90 days. -/
def inactivityThresholdV31 : Nat := 1296000

/-- 30 days. -/
def purgeWarningPeriod : Nat := 432000

/-- 30 days. -/
def withdrawalWindowDuration : Nat := 432000

def governanceFailureThreshold : Nat := 3
def validatorFraudThresholdPercent : Nat := 33
def baseDeposit : Balance := 1000
def sovereignDeposit : Balance := 10000

def calculateDeposit (securityMode : SecurityMode) (hostchainMembers : Nat) : Balance :=
  match securityMode with
  | .inherited => baseDeposit
  | .shared => baseDeposit * Fin.ofNat _ hostchainMembers
  | .sovereign => sovereignDeposit

structure SidechainInfo where
  id : ChainId
  parent : Option ChainId
  owner : AccountId
  name : Option String
  description : Option String
  securityMode : SecurityMode
  validators : Finset AccountId
  status : ChainStatus
  createdAt : Nat
  lastActivity : Nat
  deposit : Balance
  purgeTriggeredAt : Option Nat
  purgeTrigger : Option PurgeTrigger
  frozenAt : Option Nat
  snapshotAt : Option Nat
  withdrawalWindowStart : Option Nat
  governanceFailures : Nat
  slashedValidatorsCount : Nat
  lastVerifiedStateRoot : Option Hash
  stateDivergenceDetectedAt : Option Nat
  snapshotStateRoot : Option Hash
  withdrawnAccounts : Finset AccountId
deriving DecidableEq

namespace SidechainInfo

def new (id : ChainId) (parent : Option ChainId) (owner : AccountId) (name description : Option String)
    (securityMode : SecurityMode) (deposit : Balance) (createdAt : Nat) : SidechainInfo :=
  { id, parent, owner, name, description, securityMode, validators := ∅, status := .active, createdAt
    lastActivity := createdAt, deposit, purgeTriggeredAt := none, purgeTrigger := none, frozenAt := none
    snapshotAt := none, withdrawalWindowStart := none, governanceFailures := 0
    slashedValidatorsCount := 0, lastVerifiedStateRoot := none, stateDivergenceDetectedAt := none
    snapshotStateRoot := none, withdrawnAccounts := ∅ }

def isInactive (sc : SidechainInfo) (currentBlock threshold : Nat) : Bool :=
  decide (currentBlock - sc.lastActivity > threshold)

def recordActivity (sc : SidechainInfo) (block : Nat) : SidechainInfo :=
  { sc with
    lastActivity := block
    status := if sc.status = .inactive then .active else sc.status }

def addValidator (sc : SidechainInfo) (validator : AccountId) : Except ChainTypeError SidechainInfo :=
  if sc.validators.card ≥ maxValidatorsPerChain then .error .tooManyValidators
  else .ok { sc with validators := insert validator sc.validators }

def removeValidator (sc : SidechainInfo) (validator : AccountId) : Except ChainTypeError SidechainInfo :=
  if validator ∈ sc.validators then .ok { sc with validators := sc.validators.erase validator }
  else .error .validatorNotFound

end SidechainInfo

structure HostChainInfo where
  id : ChainId
  creator : AccountId
  memberChains : Finset ChainId
  validatorPool : Finset AccountId
  createdAt : Nat
deriving DecidableEq

namespace HostChainInfo

def new (id : ChainId) (creator : AccountId) (createdAt : Nat) : HostChainInfo :=
  { id, creator, memberChains := ∅, validatorPool := ∅, createdAt }

def addMember (host : HostChainInfo) (chainId : ChainId) : Except ChainTypeError HostChainInfo :=
  if host.memberChains.card ≥ maxMembersPerHost then .error .tooManyMembers
  else .ok { host with memberChains := insert chainId host.memberChains }

def removeMember (host : HostChainInfo) (chainId : ChainId) : Except ChainTypeError HostChainInfo :=
  if chainId ∈ host.memberChains then .ok { host with memberChains := host.memberChains.erase chainId }
  else .error .memberNotFound

def addValidator (host : HostChainInfo) (validator : AccountId) : Except ChainTypeError HostChainInfo :=
  if host.validatorPool.card ≥ maxValidatorsPerHost then .error .tooManyValidators
  else .ok { host with validatorPool := insert validator host.validatorPool }

def removeValidator (host : HostChainInfo) (validator : AccountId) : Except ChainTypeError HostChainInfo :=
  if validator ∈ host.validatorPool then
    .ok { host with validatorPool := host.validatorPool.erase validator }
  else .error .validatorNotFound

end HostChainInfo

end Kratos
