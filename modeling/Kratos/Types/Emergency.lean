import Kratos.Lib.Word
import Kratos.Types.Fraud

/-!
# Emergencies

The state of an emergency, what triggers one and what may be done in it, the signals of
a failure and the breakers they trip, and the steps of a recovery.  `checks` says whether
the build stops at an overflow (`none`) or wraps around.
-/

namespace Kratos

def emergencyApprovalThreshold : Nat := 75

/-- 7 days. -/
def emergencyMaxDuration : Nat := 100800

def minSignalsForEmergency : Nat := 2
def minSeverityForEmergency : Nat := 15

/-- 1 day. -/
def defaultBreakerDuration : Nat := 14400

/-! ## Signals -/

inductive FailureSignal where
  | consensusStall (epochsStalled : Nat)
  | validatorMassOffline (offlineCount totalValidators : Nat)
  | governanceQuorumFailure (consecutiveFailures : Nat) (chainId : ChainId)
  | networkPartition (partitionCount ourPartitionSize : Nat)
  | stateRootDivergence (affectedChains : List ChainId)
  | economicAnomaly (anomalyType : String) (severity : Nat)
  | slashingSpike (eventsCount expectedCount : Nat)
deriving DecidableEq, Repr

/-- How bad a signal is; the product of the share of validators has 32 bits. -/
def FailureSignal.severity (checks : Bool) : FailureSignal → Option Nat
  | consensusStall epochsStalled =>
    some (if epochsStalled > 10 then 10 else if epochsStalled > 5 then 8 else if epochsStalled > 2 then 5 else 3)
  | validatorMassOffline offlineCount totalValidators =>
    (Word.mulW checks 32 offlineCount 100).map fun p =>
      let offlinePercent := p / max totalValidators 1
      if offlinePercent > 50 then 10 else if offlinePercent > 33 then 8 else if offlinePercent > 20 then 5 else 3
  | governanceQuorumFailure consecutiveFailures _ =>
    some (if consecutiveFailures ≥ 5 then 7 else if consecutiveFailures ≥ 3 then 5 else 3)
  | networkPartition partitionCount _ => some (if partitionCount > 2 then 9 else 7)
  | stateRootDivergence affectedChains =>
    some (if affectedChains.length > 3 then 10 else if affectedChains.length > 1 then 8 else 6)
  | economicAnomaly _ severity => some severity
  | slashingSpike eventsCount expectedCount =>
    let ratio := eventsCount / max expectedCount 1
    some (if ratio > 10 then 8 else if ratio > 5 then 6 else 4)

/-! ## Triggers and actions -/

inductive ConsensusFailureType where
  | finalityStall (epochsStalled : Nat)
  | conflictingFinality (blockA blockB : Hash)
  | stateRootDivergence (expected found : Hash)
  | insufficientValidators (online required : Nat)
deriving DecidableEq, Repr

inductive EmergencyTrigger where
  | validatorVote (approvalPercent voterCount : Nat)
  | consensusFailure (failureType : ConsensusFailureType) (evidence : Hash)
  | criticalBug (reportHash : Hash) (component : String)
  | multipleSignals (signals : List FailureSignal)
  | circuitBreakerTriggered (breakerId : String)
deriving DecidableEq, Repr

structure ParameterTightening where
  parameter : String
  original : Nat
  tightened : Nat
deriving DecidableEq, Repr

inductive EmergencyAction where
  | pauseBlockProduction (startedAt maxDuration : Nat)
  | freezeGovernance (chains : List ChainId)
  | tightenParameters (changes : List ParameterTightening)
  | haltSlashing (reason : String)
  | haltSidechainCreation
  | extendTimelocks (multiplier : Nat)
  | increaseQuorum (newQuorum : Nat)
deriving DecidableEq, Repr

/-! ## The state of an emergency -/

structure EmergencyState where
  active : Bool
  declaredAt : Option Nat
  trigger : Option EmergencyTrigger
  expiresAt : Option Nat
  actionsTaken : List EmergencyAction
  declaringValidators : Finset AccountId
  approvalPower : Nat
  totalPower : Nat
deriving DecidableEq

namespace EmergencyState

def new : EmergencyState :=
  { active := false, declaredAt := none, trigger := none, expiresAt := none, actionsTaken := []
    declaringValidators := ∅, approvalPower := 0, totalPower := 0 }

def isExpired (s : EmergencyState) (currentBlock : Nat) : Bool :=
  s.expiresAt.any fun expires => decide (currentBlock ≥ expires)

/-- In percent, cut to a byte. -/
def approvalPercent (checks : Bool) (s : EmergencyState) : Option Nat :=
  if s.totalPower = 0 then some 0
  else (Word.mulW checks 64 s.approvalPower 100).map fun p => p / s.totalPower % 2 ^ 8

end EmergencyState

/-! ## Circuit breakers -/

inductive BreakerCondition where
  | finalityDelay (epochsThreshold : Nat)
  | validatorParticipation (minPercent : Nat)
  | stateRootMismatch
  | networkPartition (minPeers : Nat)
  | slashingSpike (maxEventsPerEpoch : Nat)
  | governanceDeadlock (failedProposals : Nat)
deriving DecidableEq, Repr

inductive BreakerAction where
  | slowBlockTime (factor : Nat)
  | increaseConfirmations (newDepth : Nat)
  | suspendRiskyOperations (operations : List String)
  | extendTimelocks (multiplier : Nat)
  | raiseQuorum (additionalPercent : Nat)
  | triggerEmergency
deriving DecidableEq, Repr

structure CircuitBreaker where
  id : String
  name : String
  condition : BreakerCondition
  action : BreakerAction
  duration : Nat
  isActive : Bool
  triggeredAt : Option Nat
  enabled : Bool
deriving DecidableEq, Repr

namespace CircuitBreaker

def new (id name : String) (condition : BreakerCondition) (action : BreakerAction) (duration : Nat) : CircuitBreaker :=
  { id, name, condition, action, duration, isActive := false, triggeredAt := none, enabled := true }

def isExpired (checks : Bool) (b : CircuitBreaker) (currentBlock : Nat) : Option Bool :=
  match b.triggeredAt with
  | none => some false
  | some triggered => (Word.addW checks 64 triggered b.duration).map fun expires => decide (currentBlock ≥ expires)

def trigger (b : CircuitBreaker) (currentBlock : Nat) : CircuitBreaker :=
  { b with isActive := true, triggeredAt := some currentBlock }

def reset (b : CircuitBreaker) : CircuitBreaker := { b with isActive := false, triggeredAt := none }

end CircuitBreaker

/-- The share of validators online is computed in a byte. -/
def signalMatchesCondition (checks : Bool) : FailureSignal → BreakerCondition → Option Bool
  | .consensusStall epochsStalled, .finalityDelay epochsThreshold => some (decide (epochsStalled ≥ epochsThreshold))
  | .validatorMassOffline offlineCount totalValidators, .validatorParticipation minPercent =>
    (Word.mulW checks 32 offlineCount 100).bind fun p =>
      (Word.subW checks 8 100 (p / max totalValidators 1 % 2 ^ 8)).map fun onlinePercent =>
        decide (onlinePercent < minPercent)
  | .stateRootDivergence _, .stateRootMismatch => some true
  | .slashingSpike eventsCount _, .slashingSpike maxEventsPerEpoch => some (decide (eventsCount > maxEventsPerEpoch))
  | .governanceQuorumFailure consecutiveFailures _, .governanceDeadlock failedProposals =>
    some (decide (consecutiveFailures ≥ failedProposals))
  | _, _ => some false

/-! ## Recovery -/

structure Checkpoint where
  blockNumber : Nat
  stateRoot : Hash
  validatorSetHash : Hash
  createdAt : Nat
  chainId : ChainId
deriving DecidableEq, Repr

inductive RecoveryStep where
  | halt
  | stateAudit
  | validatorReconfirmation
  | forkDecision
  | gradualRestart (phase maxPhases : Nat)
  | complete
deriving DecidableEq, Repr

structure RecoveryProcess where
  currentStep : RecoveryStep
  startedAt : Nat
  targetCheckpoint : Option Checkpoint
  confirmations : Finset AccountId
  requiredConfirmations : Nat
deriving DecidableEq

end Kratos
