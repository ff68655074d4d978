import Kratos.Lib.IterOrder
import Kratos.Lib.Run
import Kratos.Lib.SortedMap
import Kratos.Types.Emergency

/-!
# The emergency contract

Validators with three quarters of the voting power declare an emergency, and so do
failure signals and circuit breakers on their own; it runs for a week or is ended
before.  A recovery goes through its steps one call after the other.

`checks` says whether the build stops at an overflow; an operation that stops has no
result (`none`), one that fails keeps what it has written.  Events are left out.
-/

namespace Kratos

/-- 1 day. -/
def emergencyCooldown : Nat := 14400

def maxActiveBreakers : Nat := 10
def checkpointInterval : Nat := 1000
def maxCheckpoints : Nat := 100

inductive EmergencyOutcome where
  | expired
  | resolved
  | recovery
  | fork
deriving DecidableEq, Repr

structure EmergencyRecord where
  declaredAt : Nat
  endedAt : Nat
  trigger : EmergencyTrigger
  actions : List EmergencyAction
  outcome : EmergencyOutcome
deriving DecidableEq, Repr

inductive EmergencyError where
  | alreadyActive
  | notActive
  | inCooldown (endsAt : Nat)
  | alreadyVoted
  | noVotingPower
  | invalidAction (text : String)
  | breakerNotFound (breakerId : String)
  | tooManyBreakers
  | breakerAlreadyActive (breakerId : String)
  | recoveryInProgress
  | noRecoveryInProgress
  | invalidRecoveryStep
deriving DecidableEq, Repr

structure EmergencyContract where
  state : EmergencyState
  breakers : SortedMap String CircuitBreaker
  signals : List (Nat × FailureSignal)
  recovery : Option RecoveryProcess
  checkpoints : List Checkpoint
  votingPower : SortedMap AccountId Nat
  lastEmergencyEnded : Option Nat
  history : List EmergencyRecord
deriving DecidableEq

namespace EmergencyContract

/-- What a call returns with the state it leaves. -/
abbrev Outcome (α : Type) : Type := Option (EmergencyContract × Except EmergencyError α)

def defaultBreakers : List CircuitBreaker :=
  [CircuitBreaker.new "finality_delay" "Finality Delay Breaker" (.finalityDelay 3) (.slowBlockTime 2)
      defaultBreakerDuration,
    CircuitBreaker.new "validator_participation" "Validator Participation Breaker" (.validatorParticipation 50)
      (.extendTimelocks 2) defaultBreakerDuration,
    CircuitBreaker.new "state_mismatch" "State Root Mismatch Breaker" .stateRootMismatch .triggerEmergency
      (defaultBreakerDuration * 2),
    CircuitBreaker.new "slashing_spike" "Slashing Spike Breaker" (.slashingSpike 10)
      (.suspendRiskyOperations ["unstake"]) defaultBreakerDuration,
    CircuitBreaker.new "governance_deadlock" "Governance Deadlock Breaker" (.governanceDeadlock 3)
      (.raiseQuorum 10) defaultBreakerDuration]

def new : EmergencyContract :=
  { state := .new, breakers := defaultBreakers.foldl (fun m b => m.insert b.id b) .empty, signals := []
    recovery := none, checkpoints := [], votingPower := .empty, lastEmergencyEnded := none, history := [] }

/-! ## Declaration -/

def updateTotalPower (checks : Bool) (s : EmergencyContract) : Option EmergencyContract :=
  (Word.sumW checks 64 s.votingPower.values).map fun totalPower => { s with state := { s.state with totalPower } }

/-- Accounts without power are not kept. -/
def setVotingPower (checks : Bool) (s : EmergencyContract) (validator : AccountId) (power : Nat) :
    Option EmergencyContract :=
  updateTotalPower checks
    { s with
      votingPower := if power > 0 then s.votingPower.insert validator power else s.votingPower.erase validator }

/-- The end of the cooldown if the block lies in it. -/
def cooldown (checks : Bool) (s : EmergencyContract) (currentBlock : Nat) : Option (Option Nat) :=
  match s.lastEmergencyEnded with
  | none => some none
  | some ended =>
    (Word.addW checks 64 ended emergencyCooldown).map fun endsAt =>
      if currentBlock < endsAt then some endsAt else none

def declareEmergency (checks : Bool) (s : EmergencyContract) (trigger : EmergencyTrigger) (currentBlock : Nat) :
    Outcome Unit :=
  if s.state.active then some (s, .error .alreadyActive)
  else
    (Word.addW checks 64 currentBlock emergencyMaxDuration).map fun expiresAt =>
      ({ s with
          state :=
            { s.state with
              active := true, declaredAt := some currentBlock, trigger := some trigger
              expiresAt := some expiresAt } }, .ok ())

/-- The state after an approval: the voter's present power is added. -/
def approve (checks : Bool) (s : EmergencyContract) (voter : AccountId) (power : Nat) : Option EmergencyContract :=
  (Word.addW checks 64 s.state.approvalPower power).map fun approvalPower =>
    { s with
      state :=
        { s.state with declaringValidators := insert voter s.state.declaringValidators, approvalPower } }

def declareIfApproved (checks : Bool) (s : EmergencyContract) (currentBlock : Nat) : Outcome Unit :=
  (s.state.approvalPercent checks).bind fun percent =>
    if percent ≥ emergencyApprovalThreshold then
      s.declareEmergency checks (.validatorVote percent (s.state.declaringValidators.card % 2 ^ 32)) currentBlock
    else some (s, .ok ())

def voteEmergency (checks : Bool) (s : EmergencyContract) (voter : AccountId) (approves : Bool) (currentBlock : Nat) :
    Outcome Unit :=
  (s.cooldown checks currentBlock).bind fun
    | some endsAt => some (s, .error (.inCooldown endsAt))
    | none =>
      if s.state.active then some (s, .error .alreadyActive)
      else
        match s.votingPower.find? voter with
        | none => some (s, .error .noVotingPower)
        | some power =>
          if voter ∈ s.state.declaringValidators then some (s, .error .alreadyVoted)
          else
            (if approves then s.approve checks voter power else some s).bind fun s =>
              s.declareIfApproved checks currentBlock

def declareAutomaticEmergency (checks : Bool) (s : EmergencyContract) (trigger : EmergencyTrigger)
    (currentBlock : Nat) : Outcome Unit :=
  (s.cooldown checks currentBlock).bind fun
    | some endsAt => some (s, .error (.inCooldown endsAt))
    | none => s.declareEmergency checks trigger currentBlock

/-! ## Actions and the end -/

/-- Pauses and quorums are bounded; nothing is asked of the other actions. -/
def validateAction : EmergencyAction → Except EmergencyError Unit
  | .pauseBlockProduction _ maxDuration =>
    if maxDuration > emergencyMaxDuration then .error (.invalidAction "Pause duration exceeds maximum") else .ok ()
  | .increaseQuorum newQuorum =>
    if newQuorum > 80 then .error (.invalidAction "Quorum cannot exceed 80%") else .ok ()
  | _ => .ok ()

/-- The block is only put in the event. -/
def takeAction (s : EmergencyContract) (action : EmergencyAction) (_currentBlock : Nat) :
    EmergencyContract × Except EmergencyError Unit :=
  if !s.state.active then (s, .error .notActive)
  else
    match validateAction action with
    | .error e => (s, .error e)
    | .ok () => ({ s with state := { s.state with actionsTaken := s.state.actionsTaken ++ [action] } }, .ok ())

def endEmergency (checks : Bool) (s : EmergencyContract) (outcome : EmergencyOutcome) (currentBlock : Nat) :
    Outcome Unit :=
  if !s.state.active then some (s, .error .notActive)
  else
    let history :=
      match s.state.declaredAt, s.state.trigger with
      | some declaredAt, some trigger =>
        s.history ++ [{ declaredAt, endedAt := currentBlock, trigger, actions := s.state.actionsTaken, outcome }]
      | _, _ => s.history
    (updateTotalPower checks { s with history, state := .new, lastEmergencyEnded := some currentBlock }).map
      fun s => (s, .ok ())

def checkExpiration (checks : Bool) (s : EmergencyContract) (currentBlock : Nat) : Outcome Bool :=
  if s.state.active && s.state.isExpired currentBlock then
    (s.endEmergency checks .expired currentBlock).map fun r => (r.1, r.2.map fun _ => true)
  else some (s, .ok false)

/-! ## Circuit breakers -/

def registerBreaker (s : EmergencyContract) (breaker : CircuitBreaker) :
    EmergencyContract × Except EmergencyError Unit :=
  if s.breakers.size ≥ maxActiveBreakers then (s, .error .tooManyBreakers)
  else ({ s with breakers := s.breakers.insert breaker.id breaker }, .ok ())

/-- A breaker may declare an emergency; whether it could is not asked. -/
def triggerBreaker (checks : Bool) (s : EmergencyContract) (breakerId : String) (currentBlock : Nat) : Outcome Unit :=
  match s.breakers.find? breakerId with
  | none => some (s, .error (.breakerNotFound breakerId))
  | some breaker =>
    if !breaker.enabled then some (s, .ok ())
    else if breaker.isActive then some (s, .error (.breakerAlreadyActive breakerId))
    else
      let s := { s with breakers := s.breakers.insert breakerId (breaker.trigger currentBlock) }
      if breaker.action = .triggerEmergency then
        (s.declareAutomaticEmergency checks (.circuitBreakerTriggered breakerId) currentBlock).map fun r =>
          (r.1, .ok ())
      else some (s, .ok ())

def resetBreaker (s : EmergencyContract) (breakerId : String) : EmergencyContract × Except EmergencyError Unit :=
  match s.breakers.find? breakerId with
  | none => (s, .error (.breakerNotFound breakerId))
  | some breaker => ({ s with breakers := s.breakers.insert breakerId breaker.reset }, .ok ())

/-- The ids of the entries a fallible test accepts. -/
def idsWhere (p : CircuitBreaker → Option Bool) : List (String × CircuitBreaker) → Option (List String)
  | [] => some []
  | e :: l => (p e.2).bind fun b => (idsWhere p l).map fun ids => if b then e.1 :: ids else ids

def checkBreakerExpirations (checks : Bool) (s : EmergencyContract) (currentBlock : Nat) : Option EmergencyContract :=
  (idsWhere (fun b => if b.isActive then b.isExpired checks currentBlock else some false) s.breakers.entries).map
    fun ids => ids.foldl (fun s id => (s.resetBreaker id).1) s

/-! ## Signals -/

/-- The signals of the last 1000 blocks. -/
def recentSignals (s : EmergencyContract) (currentBlock : Nat) : List FailureSignal :=
  (s.signals.filter fun e => decide (currentBlock - e.1 < 1000)).map Prod.snd

/-- The severities of some signals. -/
def severities (checks : Bool) : List FailureSignal → Option (List Nat)
  | [] => some []
  | signal :: l => (signal.severity checks).bind fun n => (severities checks l).map (n :: ·)

def checkAutomaticEmergency (checks : Bool) (s : EmergencyContract) (currentBlock : Nat) : Outcome Unit :=
  if s.state.active then some (s, .ok ())
  else if (s.recentSignals currentBlock).length ≥ minSignalsForEmergency then
    ((severities checks (s.recentSignals currentBlock)).bind (Word.sumW checks 8)).bind fun totalSeverity =>
      if totalSeverity ≥ minSeverityForEmergency then
        s.declareAutomaticEmergency checks (.multipleSignals (s.recentSignals currentBlock)) currentBlock
      else some (s, .ok ())
  else some (s, .ok ())

/-- Breakers are triggered one after the other until one fails. -/
def triggerAll (checks : Bool) (currentBlock : Nat) : EmergencyContract → List String → Outcome Unit
  | s, [] => some (s, .ok ())
  | s, id :: ids =>
    (s.triggerBreaker checks id currentBlock).bind fun
      | (s, .error e) => some (s, .error e)
      | (s, .ok ()) => triggerAll checks currentBlock s ids

/-- The map of breakers is iterated in some order. -/
def checkBreakerConditions (o : IterOrder (String × CircuitBreaker)) (checks : Bool) (s : EmergencyContract)
    (signal : FailureSignal) (currentBlock : Nat) : Outcome Unit :=
  (idsWhere (fun b =>
      if b.enabled && !b.isActive then signalMatchesCondition checks signal b.condition else some false)
    (o.iter s.breakers.entries)).bind fun ids => triggerAll checks currentBlock s ids

/-- A failed declaration ends the call before the breakers are looked at. -/
def reportSignal (o : IterOrder (String × CircuitBreaker)) (checks : Bool) (s : EmergencyContract)
    (signal : FailureSignal) (currentBlock : Nat) : Outcome Unit :=
  (signal.severity checks).bind fun _ =>
    (checkAutomaticEmergency checks { s with signals := s.signals ++ [(currentBlock, signal)] } currentBlock).bind fun
      | (s, .error e) => some (s, .error e)
      | (s, .ok ()) => checkBreakerConditions o checks s signal currentBlock

def pruneSignals (s : EmergencyContract) (currentBlock : Nat) : EmergencyContract :=
  { s with signals := s.signals.filter fun e => decide (currentBlock - e.1 < 10000) }

/-! ## Recovery -/

def startRecovery (s : EmergencyContract) (targetCheckpoint : Option Nat) (requiredConfirmations currentBlock : Nat) :
    EmergencyContract × Except EmergencyError Unit :=
  if s.recovery.isSome then (s, .error .recoveryInProgress)
  else
    let checkpoint :=
      match targetCheckpoint with
      | some target => s.checkpoints.find? fun c => c.blockNumber = target
      | none => s.checkpoints.getLast?
    ({ s with
        recovery := some
          { currentStep := .halt, startedAt := currentBlock, targetCheckpoint := checkpoint, confirmations := ∅
            requiredConfirmations } }, .ok ())

/-- The step after a step; nothing follows the last one. -/
def nextStep : RecoveryStep → Option RecoveryStep
  | .halt => some .stateAudit
  | .stateAudit => some .validatorReconfirmation
  | .validatorReconfirmation => some .forkDecision
  | .forkDecision => some (.gradualRestart 1 5)
  | .gradualRestart phase maxPhases =>
    some (if phase ≥ maxPhases then .complete else .gradualRestart (phase + 1) maxPhases)
  | .complete => none

/-- The confirmations are not looked at. -/
def advanceRecovery (s : EmergencyContract) (_currentBlock : Nat) :
    EmergencyContract × Except EmergencyError RecoveryStep :=
  match s.recovery with
  | none => (s, .error .noRecoveryInProgress)
  | some recovery =>
    match nextStep recovery.currentStep with
    | none => (s, .error .invalidRecoveryStep)
    | some step =>
      ({ s with recovery := if step = .complete then none else some { recovery with currentStep := step } }, .ok step)

/-- The voting power of the validator is not looked at. -/
def confirmRecovery (s : EmergencyContract) (validator : AccountId) :
    EmergencyContract × Except EmergencyError Bool :=
  match s.recovery with
  | none => (s, .error .noRecoveryInProgress)
  | some recovery =>
    let recovery := { recovery with confirmations := insert validator recovery.confirmations }
    ({ s with recovery := some recovery },
      .ok (decide (recovery.confirmations.card % 2 ^ 32 ≥ recovery.requiredConfirmations)))

/-- The oldest checkpoints are dropped. -/
def createCheckpoint (s : EmergencyContract) (blockNumber : Nat) (stateRoot validatorSetHash : Hash)
    (chainId : ChainId) : EmergencyContract :=
  if blockNumber % checkpointInterval ≠ 0 then s
  else
    let checkpoints :=
      s.checkpoints ++ [{ blockNumber, stateRoot, validatorSetHash, createdAt := blockNumber, chainId }]
    { s with checkpoints := checkpoints.drop (checkpoints.length - maxCheckpoints) }

end EmergencyContract

/-! ## Runs -/

/-- A call of the contract. -/
inductive EmergencyOp where
  | setVotingPower (validator : AccountId) (power : Nat)
  | voteEmergency (voter : AccountId) (approves : Bool) (currentBlock : Nat)
  | declareAutomaticEmergency (trigger : EmergencyTrigger) (currentBlock : Nat)
  | takeAction (action : EmergencyAction) (currentBlock : Nat)
  | endEmergency (outcome : EmergencyOutcome) (currentBlock : Nat)
  | checkExpiration (currentBlock : Nat)
  | registerBreaker (breaker : CircuitBreaker)
  | triggerBreaker (breakerId : String) (currentBlock : Nat)
  | resetBreaker (breakerId : String) (currentBlock : Nat)
  | checkBreakerExpirations (currentBlock : Nat)
  | reportSignal (o : IterOrder (String × CircuitBreaker)) (signal : FailureSignal) (currentBlock : Nat)
  | pruneSignals (currentBlock : Nat)
  | startRecovery (targetCheckpoint : Option Nat) (requiredConfirmations currentBlock : Nat)
  | advanceRecovery (currentBlock : Nat)
  | confirmRecovery (validator : AccountId)
  | createCheckpoint (blockNumber : Nat) (stateRoot validatorSetHash : Hash) (chainId : ChainId)

/-- The block of a call, if it is given one. -/
def EmergencyOp.block : EmergencyOp → Option Nat
  | voteEmergency _ _ b => some b
  | declareAutomaticEmergency _ b => some b
  | takeAction _ b => some b
  | endEmergency _ b => some b
  | checkExpiration b => some b
  | triggerBreaker _ b => some b
  | resetBreaker _ b => some b
  | checkBreakerExpirations b => some b
  | reportSignal _ _ b => some b
  | pruneSignals b => some b
  | startRecovery _ _ b => some b
  | advanceRecovery b => some b
  | createCheckpoint b _ _ _ => some b
  | setVotingPower _ _ => none
  | registerBreaker _ => none
  | confirmRecovery _ => none

namespace EmergencyContract

/-- The state a call leaves, `none` where it stops at an overflow. -/
def apply (checks : Bool) (s : EmergencyContract) : EmergencyOp → Option EmergencyContract
  | .setVotingPower validator power => s.setVotingPower checks validator power
  | .voteEmergency voter approves currentBlock => (s.voteEmergency checks voter approves currentBlock).map Prod.fst
  | .declareAutomaticEmergency trigger currentBlock =>
    (s.declareAutomaticEmergency checks trigger currentBlock).map Prod.fst
  | .takeAction action currentBlock => some (s.takeAction action currentBlock).1
  | .endEmergency outcome currentBlock => (s.endEmergency checks outcome currentBlock).map Prod.fst
  | .checkExpiration currentBlock => (s.checkExpiration checks currentBlock).map Prod.fst
  | .registerBreaker breaker => some (s.registerBreaker breaker).1
  | .triggerBreaker breakerId currentBlock => (s.triggerBreaker checks breakerId currentBlock).map Prod.fst
  | .resetBreaker breakerId _ => some (s.resetBreaker breakerId).1
  | .checkBreakerExpirations currentBlock => s.checkBreakerExpirations checks currentBlock
  | .reportSignal o signal currentBlock => (s.reportSignal o checks signal currentBlock).map Prod.fst
  | .pruneSignals currentBlock => some (s.pruneSignals currentBlock)
  | .startRecovery targetCheckpoint requiredConfirmations currentBlock =>
    some (s.startRecovery targetCheckpoint requiredConfirmations currentBlock).1
  | .advanceRecovery currentBlock => some (s.advanceRecovery currentBlock).1
  | .confirmRecovery validator => some (s.confirmRecovery validator).1
  | .createCheckpoint blockNumber stateRoot validatorSetHash chainId =>
    some (s.createCheckpoint blockNumber stateRoot validatorSetHash chainId)

/-- A call that stopped has changed nothing. -/
def step (checks : Bool) (s : EmergencyContract) (op : EmergencyOp) : EmergencyContract := (s.apply checks op).getD s

/-! ## What a call can do -/

/-- An emergency that begins at a block. -/
def declaredState (st : EmergencyState) (trigger : EmergencyTrigger) (block expiresAt : Nat) : EmergencyState :=
  { st with active := true, declaredAt := some block, trigger := some trigger, expiresAt := some expiresAt }

/-- A declaration is open at the block: no emergency, no cooldown, an end that can be computed. -/
structure CanDeclare (checks : Bool) (s : EmergencyContract) (block expiresAt : Nat) : Prop where
  inactive : s.state.active = false
  noCooldown : s.cooldown checks block = some none
  expires : Word.addW checks 64 block emergencyMaxDuration = some expiresAt

/-- Nothing but the state of the emergency, the breakers and the signals is changed. -/
structure Frame (s t : EmergencyContract) : Prop where
  votingPower_eq : t.votingPower = s.votingPower
  ended_eq : t.lastEmergencyEnded = s.lastEmergencyEnded
  recovery_eq : t.recovery = s.recovery

theorem Frame.refl (s : EmergencyContract) : Frame s s := ⟨rfl, rfl, rfl⟩

theorem Frame.trans {s t u : EmergencyContract} (h : Frame s t) (h' : Frame t u) : Frame s u :=
  ⟨h'.votingPower_eq.trans h.votingPower_eq, h'.ended_eq.trans h.ended_eq, h'.recovery_eq.trans h.recovery_eq⟩

/-- An emergency may be declared with one of some triggers, and nothing else happens to it. -/
structure MayDeclare (P : EmergencyTrigger → Prop) (checks : Bool) (block : Nat) (s t : EmergencyContract) : Prop where
  frame : Frame s t
  state_cases : t.state = s.state ∨ ∃ trigger expiresAt, P trigger ∧ CanDeclare checks s block expiresAt ∧
    t.state = declaredState s.state trigger block expiresAt

theorem MayDeclare.refl (P : EmergencyTrigger → Prop) (checks : Bool) (block : Nat) (s : EmergencyContract) :
    MayDeclare P checks block s s :=
  ⟨.refl s, .inl rfl⟩

/-- A second declaration does not follow a first. -/
theorem MayDeclare.trans {P : EmergencyTrigger → Prop} {checks : Bool} {block : Nat} {s t u : EmergencyContract}
    (h : MayDeclare P checks block s t) (h' : MayDeclare P checks block t u) : MayDeclare P checks block s u := by
  refine ⟨h.frame.trans h'.frame, ?_⟩
  rcases h'.state_cases with hu | ⟨trigger, expiresAt, hP, hcan, hu⟩
  · rw [hu]
    exact h.state_cases
  · rcases h.state_cases with ht | ⟨trigger', expiresAt', -, -, ht⟩
    · refine .inr ⟨trigger, expiresAt, hP, ⟨?_, ?_, hcan.expires⟩, by rw [hu, ht]⟩
      · rw [← ht]
        exact hcan.inactive
      · have hcool := hcan.noCooldown
        rwa [cooldown, h.frame.ended_eq] at hcool
    · have hactive := hcan.inactive
      rw [ht] at hactive
      cases hactive

theorem mayDeclare_declareAutomaticEmergency (P : EmergencyTrigger → Prop) (checks : Bool) (s t : EmergencyContract)
    (trigger : EmergencyTrigger) (block : Nat) (r : Except EmergencyError Unit) (hP : P trigger)
    (h : s.declareAutomaticEmergency checks trigger block = some (t, r)) : MayDeclare P checks block s t := by
  unfold declareAutomaticEmergency at h
  obtain ⟨c, hc, h⟩ := Option.bind_eq_some_iff.mp h
  cases c with
  | some endsAt =>
    cases h
    exact .refl P checks block s
  | none =>
    simp only [declareEmergency] at h
    split at h
    · cases h
      exact .refl P checks block s
    · next hactive =>
      obtain ⟨expiresAt, hexpires, heq⟩ := Option.map_eq_some_iff.mp h
      cases heq
      exact ⟨⟨rfl, rfl, rfl⟩, .inr ⟨trigger, expiresAt, hP, ⟨by simpa using hactive, hc, hexpires⟩, rfl⟩⟩

/-- No vote: the trigger is found by the contract. -/
def Automatic : EmergencyTrigger → Prop
  | .validatorVote _ _ => False
  | _ => True

theorem mayDeclare_triggerBreaker (checks : Bool) (s t : EmergencyContract) (id : String) (block : Nat)
    (r : Except EmergencyError Unit) (h : s.triggerBreaker checks id block = some (t, r)) :
    MayDeclare Automatic checks block s t := by
  unfold triggerBreaker at h
  cases hb : s.breakers.find? id with
  | none =>
    rw [hb] at h
    cases h
    exact .refl _ checks block s
  | some b =>
    rw [hb] at h
    simp only at h
    split_ifs at h
    · cases h
      exact .refl _ checks block s
    · cases h
      exact .refl _ checks block s
    · obtain ⟨⟨u, r'⟩, hd, heq⟩ := Option.map_eq_some_iff.mp h
      cases heq
      have hfirst : MayDeclare Automatic checks block s
          { s with breakers := s.breakers.insert id (b.trigger block) } := ⟨⟨rfl, rfl, rfl⟩, .inl rfl⟩
      exact hfirst.trans (mayDeclare_declareAutomaticEmergency Automatic checks _ u (.circuitBreakerTriggered id) block
        r' trivial hd)
    · cases h
      exact ⟨⟨rfl, rfl, rfl⟩, .inl rfl⟩

theorem mayDeclare_triggerAll (checks : Bool) (block : Nat) (ids : List String) (s t : EmergencyContract)
    (r : Except EmergencyError Unit) (h : triggerAll checks block s ids = some (t, r)) :
    MayDeclare Automatic checks block s t := by
  induction ids generalizing s with
  | nil =>
    cases h
    exact .refl _ checks block t
  | cons id ids ih =>
    unfold triggerAll at h
    obtain ⟨⟨u, r'⟩, hu, h⟩ := Option.bind_eq_some_iff.mp h
    have hfirst := mayDeclare_triggerBreaker checks s u id block r' hu
    cases r' with
    | error e =>
      cases h
      exact hfirst
    | ok a => exact hfirst.trans (ih u h)

theorem mayDeclare_checkAutomaticEmergency (checks : Bool) (s t : EmergencyContract) (block : Nat)
    (r : Except EmergencyError Unit) (h : s.checkAutomaticEmergency checks block = some (t, r)) :
    MayDeclare Automatic checks block s t := by
  unfold checkAutomaticEmergency at h
  split_ifs at h
  · cases h
    exact .refl _ checks block s
  · obtain ⟨total, -, h⟩ := Option.bind_eq_some_iff.mp h
    split_ifs at h
    · exact mayDeclare_declareAutomaticEmergency Automatic checks s t (.multipleSignals (s.recentSignals block)) block r
        trivial h
    · cases h
      exact .refl _ checks block s
  · cases h
    exact .refl _ checks block s

theorem mayDeclare_reportSignal (o : IterOrder (String × CircuitBreaker)) (checks : Bool) (s t : EmergencyContract)
    (signal : FailureSignal) (block : Nat) (r : Except EmergencyError Unit)
    (h : s.reportSignal o checks signal block = some (t, r)) : MayDeclare Automatic checks block s t := by
  unfold reportSignal at h
  obtain ⟨n, -, h⟩ := Option.bind_eq_some_iff.mp h
  obtain ⟨⟨u, r'⟩, hu, h⟩ := Option.bind_eq_some_iff.mp h
  have hpush : MayDeclare Automatic checks block s { s with signals := s.signals ++ [(block, signal)] } :=
    ⟨⟨rfl, rfl, rfl⟩, .inl rfl⟩
  have hfirst := hpush.trans (mayDeclare_checkAutomaticEmergency checks _ u block r' hu)
  cases r' with
  | error e =>
    cases h
    exact hfirst
  | ok a =>
    obtain ⟨ids, -, h⟩ := Option.bind_eq_some_iff.mp h
    exact hfirst.trans (mayDeclare_triggerAll checks block ids u t r h)

/-- The state after a vote that does not declare an emergency. -/
inductive Approval (checks : Bool) (s : EmergencyContract) (voter : AccountId) : EmergencyContract → Prop where
  | rejected : Approval checks s voter s
  | approved (power approvalPower : Nat) (hpower : s.votingPower.find? voter = some power)
      (hnew : voter ∉ s.state.declaringValidators)
      (hadd : Word.addW checks 64 s.state.approvalPower power = some approvalPower) :
      Approval checks s voter
        { s with
          state :=
            { s.state with declaringValidators := insert voter s.state.declaringValidators, approvalPower } }

theorem voteEmergency_cases (checks : Bool) (s t : EmergencyContract) (voter : AccountId) (approves : Bool)
    (block : Nat) (r : Except EmergencyError Unit) (h : s.voteEmergency checks voter approves block = some (t, r)) :
    t = s ∨ s.state.active = false ∧ ∃ u, Approval checks s voter u ∧ (t = u ∨
      ∃ percent count expiresAt, u.state.approvalPercent checks = some percent ∧
        emergencyApprovalThreshold ≤ percent ∧ CanDeclare checks s block expiresAt ∧
        t = { u with state := declaredState u.state (.validatorVote percent count) block expiresAt }) := by
  unfold voteEmergency at h
  obtain ⟨c, hc, h⟩ := Option.bind_eq_some_iff.mp h
  cases c with
  | some endsAt =>
    cases h
    exact .inl rfl
  | none =>
    simp only at h
    split at h
    · cases h
      exact .inl rfl
    · next hactive =>
      have hoff : s.state.active = false := by simpa using hactive
      cases hp : s.votingPower.find? voter with
      | none =>
        rw [hp] at h
        cases h
        exact .inl rfl
      | some power =>
        rw [hp] at h
        simp only at h
        split at h
        · cases h
          exact .inl rfl
        · next hnew =>
          obtain ⟨u, hu, h⟩ := Option.bind_eq_some_iff.mp h
          -- an approval leaves what a declaration looks at
          have happ : Approval checks s voter u ∧ u.state.active = s.state.active := by
            split at hu
            · obtain ⟨n, hn, rfl⟩ := Option.map_eq_some_iff.mp hu
              exact ⟨.approved power n hp hnew hn, rfl⟩
            · cases hu
              exact ⟨.rejected, rfl⟩
          refine .inr ⟨hoff, u, happ.1, ?_⟩
          unfold declareIfApproved at h
          obtain ⟨percent, hpercent, h⟩ := Option.bind_eq_some_iff.mp h
          split at h
          · next hge =>
            rw [declareEmergency, if_neg (by rw [happ.2, hoff]; exact Bool.false_ne_true)] at h
            obtain ⟨expiresAt, hexpires, heq⟩ := Option.map_eq_some_iff.mp h
            cases heq
            exact .inr ⟨percent, _, expiresAt, hpercent, hge, ⟨hoff, hc, hexpires⟩, rfl⟩
          · cases h
            exact .inl rfl

theorem endEmergency_cases (checks : Bool) (s t : EmergencyContract) (outcome : EmergencyOutcome) (block : Nat)
    (r : Except EmergencyError Unit) (h : s.endEmergency checks outcome block = some (t, r)) :
    t = s ∨ s.state.active = true ∧ ∃ totalPower, Word.sumW checks 64 s.votingPower.values = some totalPower ∧
      t.state = { EmergencyState.new with totalPower } ∧ t.votingPower = s.votingPower ∧
      t.lastEmergencyEnded = some block ∧ t.recovery = s.recovery := by
  unfold endEmergency at h
  split at h
  · cases h
    exact .inl rfl
  · next hactive =>
    obtain ⟨u, hu, heq⟩ := Option.map_eq_some_iff.mp h
    cases heq
    obtain ⟨totalPower, hsum, rfl⟩ := Option.map_eq_some_iff.mp hu
    exact .inr ⟨by simpa using hactive, totalPower, hsum, rfl, rfl, rfl, rfl⟩

theorem frame_resetBreaker (s : EmergencyContract) (id : String) :
    (s.resetBreaker id).1.state = s.state ∧ Frame s (s.resetBreaker id).1 := by
  unfold resetBreaker
  split
  · exact ⟨rfl, .refl s⟩
  · exact ⟨rfl, rfl, rfl, rfl⟩

theorem frame_resetBreakers (ids : List String) (s : EmergencyContract) :
    (ids.foldl (fun s id => (s.resetBreaker id).1) s).state = s.state ∧
      Frame s (ids.foldl (fun s id => (s.resetBreaker id).1) s) := by
  induction ids generalizing s with
  | nil => exact ⟨rfl, .refl s⟩
  | cons id ids ih =>
    obtain ⟨hs, hf⟩ := frame_resetBreaker s id
    obtain ⟨hs', hf'⟩ := ih (s.resetBreaker id).1
    exact ⟨hs'.trans hs, hf.trans hf'⟩

/-- What a call does to the emergency, the voting power and the time of the last end. -/
inductive Step (checks : Bool) (s : EmergencyContract) (op : EmergencyOp) (t : EmergencyContract) : Prop where
  | quiet (hstate : t.state = s.state) (hpower : t.votingPower = s.votingPower)
      (hended : t.lastEmergencyEnded = s.lastEmergencyEnded)
  | acted (action : EmergencyAction) (block : Nat) (hop : op = .takeAction action block)
      (hactive : s.state.active = true)
      (ht : t = { s with state := { s.state with actionsTaken := s.state.actionsTaken ++ [action] } })
  | powered (v : AccountId) (power totalPower : Nat) (hop : op = .setVotingPower v power)
      (hpower : t.votingPower = if power > 0 then s.votingPower.insert v power else s.votingPower.erase v)
      (hsum : Word.sumW checks 64 t.votingPower.values = some totalPower)
      (hstate : t.state = { s.state with totalPower }) (hended : t.lastEmergencyEnded = s.lastEmergencyEnded)
  | voted (voter : AccountId) (approves : Bool) (block : Nat) (hop : op = .voteEmergency voter approves block)
      (hoff : s.state.active = false) (happ : Approval checks s voter t)
  | elected (voter : AccountId) (approves : Bool) (block percent count expiresAt : Nat) (u : EmergencyContract)
      (hop : op = .voteEmergency voter approves block) (happ : Approval checks s voter u)
      (hpercent : u.state.approvalPercent checks = some percent) (hge : emergencyApprovalThreshold ≤ percent)
      (hcan : CanDeclare checks s block expiresAt)
      (ht : t = { u with state := declaredState u.state (.validatorVote percent count) block expiresAt })
  | declared (trigger : EmergencyTrigger) (block expiresAt : Nat) (hblock : op.block = some block)
      (htrigger : op = .declareAutomaticEmergency trigger block ∨ Automatic trigger)
      (hcan : CanDeclare checks s block expiresAt) (hstate : t.state = declaredState s.state trigger block expiresAt)
      (hpower : t.votingPower = s.votingPower) (hended : t.lastEmergencyEnded = s.lastEmergencyEnded)
  | ended (block totalPower : Nat) (hblock : op.block = some block) (hactive : s.state.active = true)
      (hop : (∃ outcome, op = .endEmergency outcome block) ∨ op = .checkExpiration block)
      (hsum : Word.sumW checks 64 s.votingPower.values = some totalPower)
      (hstate : t.state = { EmergencyState.new with totalPower }) (hpower : t.votingPower = s.votingPower)
      (hended : t.lastEmergencyEnded = some block)

theorem MayDeclare.toStep {P : EmergencyTrigger → Prop} {checks : Bool} {block : Nat} {s t : EmergencyContract}
    {op : EmergencyOp} (h : MayDeclare P checks block s t) (hblock : op.block = some block)
    (hP : ∀ trigger, P trigger → op = .declareAutomaticEmergency trigger block ∨ Automatic trigger) :
    Step checks s op t := by
  rcases h.state_cases with hs | ⟨trigger, expiresAt, htrigger, hcan, hs⟩
  · exact .quiet hs h.frame.votingPower_eq h.frame.ended_eq
  · exact .declared trigger block expiresAt hblock (hP trigger htrigger) hcan hs h.frame.votingPower_eq
      h.frame.ended_eq

/-- **Inversion.** -/
theorem apply_step (checks : Bool) (s t : EmergencyContract) (op : EmergencyOp) (h : s.apply checks op = some t) :
    Step checks s op t := by
  cases op with
  | setVotingPower v power =>
    obtain ⟨totalPower, hsum, rfl⟩ := Option.map_eq_some_iff.mp h
    exact .powered v power totalPower rfl rfl hsum rfl rfl
  | voteEmergency voter approves block =>
    obtain ⟨⟨u, r⟩, hv, rfl⟩ := Option.map_eq_some_iff.mp h
    rcases voteEmergency_cases checks s u voter approves block r hv with
      rfl | ⟨hoff, w, happ, rfl | ⟨percent, count, expiresAt, hpercent, hge, hcan, rfl⟩⟩
    · exact .quiet rfl rfl rfl
    · exact .voted voter approves block rfl hoff happ
    · exact .elected voter approves block percent count expiresAt w rfl happ hpercent hge hcan rfl
  | declareAutomaticEmergency trigger block =>
    obtain ⟨⟨u, r⟩, hd, rfl⟩ := Option.map_eq_some_iff.mp h
    refine (mayDeclare_declareAutomaticEmergency (· = trigger) checks s u trigger block r rfl hd).toStep rfl ?_
    rintro _ rfl
    exact .inl rfl
  | takeAction action block =>
    cases h
    unfold takeAction
    split
    · exact .quiet rfl rfl rfl
    · next hactive =>
      split
      · exact .quiet rfl rfl rfl
      · exact .acted action block rfl (by simpa using hactive) rfl
  | endEmergency outcome block =>
    obtain ⟨⟨u, r⟩, he, rfl⟩ := Option.map_eq_some_iff.mp h
    rcases endEmergency_cases checks s u outcome block r he with
      rfl | ⟨hactive, totalPower, hsum, hstate, hpower, hended, -⟩
    · exact .quiet rfl rfl rfl
    · exact .ended block totalPower rfl hactive (.inl ⟨outcome, rfl⟩) hsum hstate hpower hended
  | checkExpiration block =>
    obtain ⟨⟨u, r⟩, he, rfl⟩ := Option.map_eq_some_iff.mp h
    unfold checkExpiration at he
    split at he
    · obtain ⟨⟨w, r'⟩, hw, heq⟩ := Option.map_eq_some_iff.mp he
      cases heq
      rcases endEmergency_cases checks s w .expired block r' hw with
        rfl | ⟨hactive, totalPower, hsum, hstate, hpower, hended, -⟩
      · exact .quiet rfl rfl rfl
      · exact .ended block totalPower rfl hactive (.inr rfl) hsum hstate hpower hended
    · cases he
      exact .quiet rfl rfl rfl
  | registerBreaker breaker =>
    cases h
    unfold registerBreaker
    split <;> exact .quiet rfl rfl rfl
  | triggerBreaker id block =>
    obtain ⟨⟨u, r⟩, hb, rfl⟩ := Option.map_eq_some_iff.mp h
    exact (mayDeclare_triggerBreaker checks s u id block r hb).toStep rfl fun _ => .inr
  | resetBreaker id block =>
    cases h
    obtain ⟨hs, hf⟩ := frame_resetBreaker s id
    exact .quiet hs hf.votingPower_eq hf.ended_eq
  | checkBreakerExpirations block =>
    obtain ⟨ids, -, rfl⟩ := Option.map_eq_some_iff.mp h
    obtain ⟨hs, hf⟩ := frame_resetBreakers ids s
    exact .quiet hs hf.votingPower_eq hf.ended_eq
  | reportSignal o signal block =>
    obtain ⟨⟨u, r⟩, hr, rfl⟩ := Option.map_eq_some_iff.mp h
    exact (mayDeclare_reportSignal o checks s u signal block r hr).toStep rfl fun _ => .inr
  | pruneSignals block =>
    cases h
    exact .quiet rfl rfl rfl
  | startRecovery target required block =>
    cases h
    unfold startRecovery
    split <;> exact .quiet rfl rfl rfl
  | advanceRecovery block =>
    cases h
    unfold advanceRecovery
    split
    · exact .quiet rfl rfl rfl
    · split <;> exact .quiet rfl rfl rfl
  | confirmRecovery v =>
    cases h
    unfold confirmRecovery
    split <;> exact .quiet rfl rfl rfl
  | createCheckpoint n root hash chain =>
    cases h
    unfold createCheckpoint
    split <;> exact .quiet rfl rfl rfl

/-- A call keeps what it keeps where it goes through. -/
theorem step_of_apply (checks : Bool) (Inv : EmergencyContract → Prop) (s : EmergencyContract) (op : EmergencyOp)
    (h : Inv s) (happly : ∀ t, s.apply checks op = some t → Inv t) : Inv (s.step checks op) := by
  unfold step
  cases ha : s.apply checks op with
  | none => exact h
  | some t => exact happly t ha

theorem step_step (checks : Bool) (s : EmergencyContract) (op : EmergencyOp) : Step checks s op (s.step checks op) :=
  step_of_apply checks (Step checks s op) s op (.quiet rfl rfl rfl) (apply_step checks s · op)

end EmergencyContract

end Kratos
