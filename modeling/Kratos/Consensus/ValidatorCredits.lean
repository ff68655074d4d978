import Kratos.Lib.SortedMap
import Kratos.Types.Primitives

/-!
# Validator credits

Credits a validator earns by taking part, and the manager that hands them out for
arbitrations.  Counters, blocks and epochs are natural numbers.
-/

namespace Kratos

/-- Validator credits, with the counters of the anti-spam windows. -/
structure ValidatorCreditsRecord where
  voteCredits : Nat
  uptimeCredits : Nat
  arbitrationCredits : Nat
  seniorityCredits : Nat
  lastUpdate : Nat
  votesToday : Nat
  votesThisMonth : Nat
  arbitrationsThisYear : Nat
  lastDailyResetEpoch : Nat
  lastMonthlyResetEpoch : Nat
  lastYearlyResetEpoch : Nat
  activeEpochs : Nat
  activationBlock : Nat
  lastSeniorityCreditEpoch : Nat
deriving DecidableEq, Repr

namespace ValidatorCreditsRecord

/-- 365 days of 24 epochs. -/
def epochsPerYear : Nat := 8760

def new (blockNumber currentEpoch : Nat) : ValidatorCreditsRecord :=
  { voteCredits := 0, uptimeCredits := 0, arbitrationCredits := 0, seniorityCredits := 0
    lastUpdate := blockNumber, votesToday := 0, votesThisMonth := 0, arbitrationsThisYear := 0
    lastDailyResetEpoch := currentEpoch, lastMonthlyResetEpoch := currentEpoch
    lastYearlyResetEpoch := currentEpoch, activeEpochs := 0, activationBlock := blockNumber
    lastSeniorityCreditEpoch := currentEpoch }

def totalVc (r : ValidatorCreditsRecord) : Nat :=
  r.voteCredits + r.uptimeCredits + r.arbitrationCredits + r.seniorityCredits

def maybeResetYearly (r : ValidatorCreditsRecord) (currentEpoch : Nat) : ValidatorCreditsRecord :=
  if currentEpoch ≥ r.lastYearlyResetEpoch + epochsPerYear then
    { r with arbitrationsThisYear := 0, lastYearlyResetEpoch := currentEpoch }
  else r

/-- Five credits, at most five times a year; whether they were added. -/
def addArbitrationCredit (r : ValidatorCreditsRecord) (blockNumber currentEpoch : Nat) :
    ValidatorCreditsRecord × Bool :=
  let r := r.maybeResetYearly currentEpoch
  if r.arbitrationsThisYear ≥ 5 then (r, false)
  else
    ({ r with
       arbitrationCredits := r.arbitrationCredits + 5
       arbitrationsThisYear := r.arbitrationsThisYear + 1
       lastUpdate := blockNumber }, true)

end ValidatorCreditsRecord

structure ValidatorCreditsManager where
  records : SortedMap AccountId ValidatorCreditsRecord

inductive VCError where
  | validatorNotFound
deriving DecidableEq, Repr

namespace ValidatorCreditsManager

def new : ValidatorCreditsManager := { records := .empty }

def initializeValidator (m : ValidatorCreditsManager) (validatorId : AccountId)
    (blockNumber currentEpoch : Nat) : ValidatorCreditsManager :=
  { records := m.records.insert validatorId (ValidatorCreditsRecord.new blockNumber currentEpoch) }

def recordArbitration (m : ValidatorCreditsManager) (validatorId : AccountId)
    (blockNumber currentEpoch : Nat) : Except VCError (ValidatorCreditsManager × Bool) :=
  match m.records.find? validatorId with
  | none => .error .validatorNotFound
  | some record =>
    let r := record.addArbitrationCredit blockNumber currentEpoch
    .ok ({ records := m.records.insert validatorId r.1 }, r.2)

end ValidatorCreditsManager

end Kratos
