import Kratos.Types.Block

/-!
# Drift tracker

Cumulative timestamp drift of an epoch, measured between consecutive tracked
blocks.  `validateAndUpdate` returns the tracker as the call leaves it even when
it rejects the block: the caller decides whether to persist it.
-/

namespace Kratos

/-- Limits in seconds. -/
def maxCumulativeDriftPerEpoch : Int := 1200
def maxSingleBlockDrift : Int := 5
def restartGraceDrift : Nat := 3600

def slotDurationSecs : Nat := 6

structure DriftTracker where
  epochDrift : Int
  currentEpoch : Nat
  genesisTimestamp : Nat
  lastBlock : Nat
  lastTimestamp : Nat
  lastSlot : Nat
  restartGraceActive : Bool
deriving DecidableEq, Repr

inductive DriftError where
  | singleBlockDriftExceeded (drift maxAllowed : Int) (blockNumber : Nat)
  | cumulativeDriftExceeded (cumulativeDrift maxAllowed : Int) (epoch : Nat)
  | timestampNotAfterParent (blockTimestamp parentTimestamp : Nat)
deriving DecidableEq, Repr

namespace DriftTracker

def new (genesisTimestamp : Nat) : DriftTracker :=
  { epochDrift := 0, currentEpoch := 0, genesisTimestamp, lastBlock := 0
    lastTimestamp := genesisTimestamp, lastSlot := 0, restartGraceActive := false }

/-- Record a block as the last one seen. -/
def track (t : DriftTracker) (number : Nat) (timestamp : Nat) (slot : Nat) :
    DriftTracker :=
  { t with lastBlock := number, lastTimestamp := timestamp, lastSlot := slot }

/-- Start a new epoch's count when the block is in a later epoch. -/
def enterEpoch (t : DriftTracker) (epoch : Nat) : DriftTracker :=
  if epoch > t.currentEpoch then { t with epochDrift := 0, currentEpoch := epoch } else t

def validateAndUpdate (t : DriftTracker) (number : Nat) (timestamp : Nat)
    (epoch : Nat) (slot : Nat) (slotDuration : Nat) :
    DriftTracker × Except DriftError Int :=
  if number = 0 then
    ({ t.track 0 timestamp slot with currentEpoch := epoch }, .ok 0)
  else if timestamp ≤ t.lastTimestamp then
    (t, .error (.timestampNotAfterParent timestamp t.lastTimestamp))
  else
    let slotsElapsed := slot - t.lastSlot
    let expectedInterval := Word.satMul64 slotsElapsed slotDuration
    let actualInterval := timestamp - t.lastTimestamp
    let incrementalDrift := Word.satSubI64 (Word.asI64 actualInterval) (Word.asI64 expectedInterval)
    if actualInterval > Word.satAdd64 expectedInterval restartGraceDrift then
      -- a large gap: the block is allowed and its drift is not counted
      ((({ t with restartGraceActive := true }).track number timestamp slot).enterEpoch epoch, .ok 0)
    else
      let t := { t with restartGraceActive := false }
      if Word.absI64 incrementalDrift > maxSingleBlockDrift then
        (t, .error (.singleBlockDriftExceeded incrementalDrift maxSingleBlockDrift number))
      else
        let t := t.enterEpoch epoch
        let t := { t with epochDrift := Word.satAddI64 t.epochDrift incrementalDrift }
        if Word.absI64 t.epochDrift > maxCumulativeDriftPerEpoch then
          (t, .error (.cumulativeDriftExceeded t.epochDrift maxCumulativeDriftPerEpoch epoch))
        else (t.track number timestamp slot, .ok incrementalDrift)

@[simp] theorem lastTimestamp_enterEpoch (t : DriftTracker) (e : Nat) :
    (t.enterEpoch e).lastTimestamp = t.lastTimestamp := by
  unfold enterEpoch
  split <;> rfl

/-- Past genesis an accepted block moves the tracked timestamp strictly forward. -/
theorem validateAndUpdate_advances (t : DriftTracker) (number : Nat) (timestamp : Nat)
    (epoch : Nat) (slot : Nat) (slotDuration : Nat) (hn : number ≠ 0) (drift : Int)
    (h : (t.validateAndUpdate number timestamp epoch slot slotDuration).2 = .ok drift) :
    t.lastTimestamp < (t.validateAndUpdate number timestamp epoch slot slotDuration).1.lastTimestamp := by
  unfold validateAndUpdate at h ⊢
  rw [if_neg hn] at h ⊢
  by_cases hts : timestamp ≤ t.lastTimestamp
  · rw [if_pos hts] at h
    cases h
  · rw [if_neg hts] at h ⊢
    simp only at h ⊢
    split
    · simp only [lastTimestamp_enterEpoch, track]
      omega
    · next hgap =>
      rw [if_neg hgap] at h
      split
      · next hs =>
        rw [if_pos hs] at h
        cases h
      · next hs =>
        rw [if_neg hs] at h
        split
        · next hc =>
          rw [if_pos hc] at h
          cases h
        · simp only [track]
          omega

end DriftTracker

end Kratos
