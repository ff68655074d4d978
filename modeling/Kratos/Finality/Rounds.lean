import Kratos.Finality.Votes

/-!
# Finality rounds

A round wraps a collector with the node's own part in it: whether it may vote and
whether it already has.  The manager holds at most one active round, the counters
of the current epoch and round, and the last finalized block.  The clock is read
in milliseconds (`now`); the round counter is 32 bits wide.
-/

namespace Kratos

/-- The holder of the validator key. -/
structure FinalitySigner where
  sign : List UInt8 → Signature64
  validatorId : AccountId

/-- Signatures of the precommits that finalized a block. -/
structure FinalityJustification where
  block : Target
  signatures : List (AccountId × Signature64)
  epoch : Nat
deriving DecidableEq, Repr

structure RoundSummary where
  round : Nat
  epoch : Nat
  state : RoundState
  prevoteCount : Nat
  precommitCount : Nat
  targetBlock : Option Target
  totalValidators : Nat
deriving DecidableEq, Repr

def roundTimeoutMs : Nat := 6000

structure FinalityRound where
  collector : VoteCollector
  startedAt : Nat
  timeout : Nat
  ourValidator : Option AccountId
  havePrevoted : Bool
  havePrecommitted : Bool

namespace FinalityRound

def new (now epoch round : Nat) (validators : Finset AccountId) (ourValidator : Option AccountId) :
    FinalityRound :=
  { collector := .new epoch round validators, startedAt := now, timeout := roundTimeoutMs, ourValidator
    havePrevoted := false, havePrecommitted := false }

def epoch (r : FinalityRound) : Nat := r.collector.epoch
def round (r : FinalityRound) : Nat := r.collector.round
def state (r : FinalityRound) : RoundState := r.collector.state

def isTimedOut (r : FinalityRound) (now : Nat) : Bool := now - r.startedAt > r.timeout

def isDone (r : FinalityRound) (now : Nat) : Bool := r.collector.isDone || r.isTimedOut now

def addVote (cr : Crypto) (ord : HashOrder) (r : FinalityRound) (vote : FinalityVote) :
    FinalityRound × Except VoteError Bool :=
  ({ r with collector := (r.collector.addVote cr ord vote).1 }, (r.collector.addVote cr ord vote).2)

/-- A signed vote of our own. -/
def ownVote (signer : FinalitySigner) (r : FinalityRound) (ty : VoteType) (b : Target)
    (ourValidator : AccountId) : FinalityVote :=
  let vote : FinalityVote :=
    { voteType := ty, targetNumber := b.number, targetHash := b.hash, round := r.round, epoch := r.epoch
      voter := ourValidator, signature := Signature64.zero }
  { vote with signature := signer.sign vote.signingMessage }

def createPrevote (signer : FinalitySigner) (r : FinalityRound) (b : Target) :
    FinalityRound × Option FinalityVote :=
  match r.ourValidator with
  | none => (r, none)
  | some ourValidator =>
    if r.havePrevoted then (r, none)
    else if r.state ≠ .prevoting then (r, none)
    else ({ r with havePrevoted := true }, some (r.ownVote signer .prevote b ourValidator))

/-- Our precommit is for the best prevote target. -/
def createPrecommit (signer : FinalitySigner) (r : FinalityRound) : FinalityRound × Option FinalityVote :=
  match r.ourValidator with
  | none => (r, none)
  | some ourValidator =>
    if r.havePrecommitted then (r, none)
    else if r.state ≠ .precommitting then (r, none)
    else
      match r.collector.prevotes.best with
      | none => (r, none)
      | some b => ({ r with havePrecommitted := true }, some (r.ownVote signer .precommit b ourValidator))

def finalizedTarget (r : FinalityRound) : Option Target := r.collector.finalizedTarget

def createJustification (r : FinalityRound) : Option FinalityJustification :=
  if r.state ≠ .completed then none
  else
    r.finalizedTarget.map fun block =>
      { block, epoch := r.epoch
        signatures := r.collector.precommitsForBest.map fun v => (v.voter, v.signature) }

def summary (r : FinalityRound) : RoundSummary :=
  { round := r.round, epoch := r.epoch, state := r.state
    prevoteCount := r.collector.prevotes.voted.size
    precommitCount := r.collector.precommits.voted.size
    targetBlock := r.collector.prevotes.best, totalValidators := r.collector.validatorCount }

def markFailed (r : FinalityRound) : FinalityRound := { r with collector := r.collector.markFailed }

def shouldPrecommit (r : FinalityRound) : Bool :=
  decide (r.state = .precommitting) && !r.havePrecommitted && r.ourValidator.isSome

/-- A round that has timed out is done, also when it is asked a little later. -/
theorem isDone_of_isTimedOut (r : FinalityRound) (now delay : Nat) (h : r.isTimedOut now = true) :
    r.isDone (now + delay) = true := by
  unfold isDone isTimedOut at *
  simp only [decide_eq_true_eq, Bool.or_eq_true] at h ⊢
  right
  omega

/-- No round has timed out without being done. -/
theorem isTimedOut_and_not_isDone (r : FinalityRound) (now delay : Nat) :
    (r.isTimedOut now && !r.isDone (now + delay)) = false := by
  cases h : r.isTimedOut now with
  | false => rfl
  | true =>
    rw [r.isDone_of_isTimedOut now delay h]
    rfl

end FinalityRound

/-! ## The manager -/

structure RoundManager where
  currentEpoch : Nat
  currentRound : Nat
  activeRound : Option FinalityRound
  completedRounds : List RoundSummary
  lastFinalized : Target
  ourValidator : Option AccountId
  validators : Finset AccountId

namespace RoundManager

def new (ourValidator : Option AccountId) (validators : Finset AccountId) (lastFinalized : Target) :
    RoundManager :=
  { currentEpoch := 0, currentRound := 0, activeRound := none, completedRounds := [], lastFinalized
    ourValidator, validators }

def startRound (now : Nat) (m : RoundManager) (epoch round : Nat) : RoundManager :=
  { m with currentEpoch := epoch, currentRound := round
           activeRound := some (.new now epoch round m.validators m.ourValidator) }

/-- Append a summary and keep the last hundred. -/
def keepRecent (l : List RoundSummary) (s : RoundSummary) : List RoundSummary :=
  if (l ++ [s]).length > 100 then (l ++ [s]).tail else l ++ [s]

/-- Drop the active round; a result is recorded only if there was one. -/
def completeRound (m : RoundManager) (finalized : Option Target) : RoundManager :=
  match m.activeRound with
  | none => m
  | some round =>
    { m with activeRound := none, completedRounds := keepRecent m.completedRounds round.summary
             lastFinalized := finalized.getD m.lastFinalized }

/-- The counter wraps at 32 bits. -/
def nextRound (now : Nat) (m : RoundManager) : RoundManager :=
  m.startRound now m.currentEpoch ((m.currentRound + 1) % 2 ^ 32)

def newEpoch (m : RoundManager) (epoch : Nat) : RoundManager :=
  { m with currentEpoch := epoch, currentRound := 0 }

def updateValidators (m : RoundManager) (validators : Finset AccountId) (ourValidatorId : AccountId) :
    RoundManager :=
  { m with validators, ourValidator := if ourValidatorId ∈ validators then some ourValidatorId else none }

end RoundManager

end Kratos
