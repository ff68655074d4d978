import Kratos.Lib.Exact
import Kratos.Lib.Sustained

/-!
# Clock health

A node follows the drift of its clock and stops producing blocks while the drift is too large.  Its
status moves on the smoothed drift and on one timer of how long the drift has been good; the
thresholds are wider in an emergency.  The smoothed drift of a record is part of the record here, any
integer.
-/

namespace Kratos

def healthyMaxDriftMs : Int := 1000
def degradedMaxDriftMs : Int := 1500
def recoveryDriftMs : Int := 1300
def healthyDriftMs : Int := 800
def excludedToRecoveringSecs : Nat := 120
def degradedToHealthySecs : Nat := 240
def recoveringToHealthySecs : Nat := 240
/-- The double nearest to 0.30. -/
def emergencyThresholdRatio : ℚ := 5404319552844595 / 18014398509481984
/-- The double nearest to 0.15. -/
def emergencyRecoveryRatio : ℚ := 5404319552844595 / 36028797018963968
def emergencyRecoverySustainSecs : Nat := 600

inductive ClockStatus where
  | healthy
  | degraded
  | excluded
  | recovering
deriving DecidableEq, Repr

/-- Can this status produce blocks? -/
def ClockStatus.canProduceBlocks : ClockStatus → Bool
  | .healthy | .degraded => true
  | .excluded | .recovering => false

structure ClockThresholds where
  healthyMax : Int
  degradedMax : Int
  recoveryMax : Int
  healthyTarget : Int
deriving DecidableEq

/-- Times are seconds since the epoch. -/
structure LocalClockHealth where
  status : ClockStatus
  statusSince : Nat
  improvementSince : Option Nat
  lifetimeExcludedCount : Nat
  lifetimeDegradedSeconds : Nat
  emergencyMode : Bool
  emergencyRecoverySince : Option Nat
deriving DecidableEq, Repr

namespace LocalClockHealth

def new (now : Nat) : LocalClockHealth := ⟨.healthy, now, none, 0, 0, false, none⟩

def getEffectiveThresholds (s : LocalClockHealth) : ClockThresholds :=
  if s.emergencyMode then ⟨1500, 2000, 1800, 1200⟩
  else ⟨healthyMaxDriftMs, degradedMaxDriftMs, recoveryDriftMs, healthyDriftMs⟩

/-- The timer of a good drift: it starts, or goes on until it has lasted and the status is `next`. -/
def hysteresis (s : LocalClockHealth) (now secs : Nat) (next : ClockStatus) : LocalClockHealth × ClockStatus :=
  match s.improvementSince with
  | some since => if now - since ≥ secs then ({ s with improvementSince := none }, next) else (s, s.status)
  | none => ({ s with improvementSince := some now }, s.status)

def computeNewStatus (s : LocalClockHealth) (now : Nat) (drift : Int) (th : ClockThresholds) :
    LocalClockHealth × ClockStatus :=
  match s.status with
  | .healthy =>
    if drift > th.degradedMax then (s, .excluded)
    else if drift > th.healthyMax then (s, .degraded)
    else (s, .healthy)
  | .degraded =>
    if drift > th.degradedMax then (s, .excluded)
    else if drift < th.healthyTarget then s.hysteresis now degradedToHealthySecs .healthy
    else ({ s with improvementSince := none }, .degraded)
  | .excluded =>
    if drift < th.recoveryMax then s.hysteresis now excludedToRecoveringSecs .recovering
    else ({ s with improvementSince := none }, .excluded)
  | .recovering =>
    if drift > th.degradedMax then (s, .excluded)
    else if drift < th.healthyTarget then s.hysteresis now recoveringToHealthySecs .healthy
    -- not good enough for the timer, and too bad to stay
    else if drift > th.healthyMax then ({ s with improvementSince := none }, .degraded)
    else ({ s with improvementSince := none }, .recovering)

/-- The count of exclusions is 32 bits; `checks` says whether an overflow stops the program. -/
def handleStatusChange (checks : Bool) (s : LocalClockHealth) (old new : ClockStatus) (now : Nat) :
    Option LocalClockHealth :=
  let degradedSeconds :=
    if old = .degraded then min (s.lifetimeDegradedSeconds + (now - s.statusSince)) (2 ^ 64 - 1)
    else s.lifetimeDegradedSeconds
  let excludedCount :=
    if new = .excluded ∧ old ≠ .excluded then Word.addW checks 32 s.lifetimeExcludedCount 1
    else some s.lifetimeExcludedCount
  excludedCount.map fun count =>
    { s with
      status := new
      statusSince := now
      improvementSince := none
      lifetimeExcludedCount := count
      lifetimeDegradedSeconds := degradedSeconds }

/-- The new status and whether it changed. -/
def recordDrift (checks : Bool) (s : LocalClockHealth) (now : Nat) (drift : Int) :
    Option (LocalClockHealth × ClockStatus × Bool) :=
  let r := s.computeNewStatus now drift s.getEffectiveThresholds
  if r.2 ≠ s.status then (r.1.handleStatusChange checks s.status r.2 now).map fun t => (t, r.2, true)
  else some (r.1, r.2, false)

/-- The ratio of degraded validators is a number, or none if it is NaN: no comparison holds then. -/
def updateEmergencyMode (s : LocalClockHealth) (now : Nat) (degradedRatio : Option ℚ) : LocalClockHealth :=
  if !s.emergencyMode && degradedRatio.any (fun r => decide (r > emergencyThresholdRatio)) then
    { s with emergencyMode := true, emergencyRecoverySince := none }
  else if s.emergencyMode && degradedRatio.any (fun r => decide (r < emergencyRecoveryRatio)) then
    match s.emergencyRecoverySince with
    | some since =>
      if now - since ≥ emergencyRecoverySustainSecs then
        { s with emergencyMode := false, emergencyRecoverySince := none }
      else s
    | none => { s with emergencyRecoverySince := some now }
  else if s.emergencyMode && degradedRatio.any (fun r => decide (r ≥ emergencyRecoveryRatio)) then
    { s with emergencyRecoverySince := none }
  else s

inductive Event where
  | recordDrift (now : Nat) (drift : Int)
  | updateEmergencyMode (now : Nat) (degradedRatio : Option ℚ)
deriving DecidableEq

def Event.time : Event → Nat
  | .recordDrift now _ => now
  | .updateEmergencyMode now _ => now

def Event.recordedAt : Event → Option Nat
  | .recordDrift now _ => some now
  | .updateEmergencyMode _ _ => none

def apply (checks : Bool) (s : LocalClockHealth) : Event → Option LocalClockHealth
  | .recordDrift now drift => (s.recordDrift checks now drift).map Prod.fst
  | .updateEmergencyMode now ratio => some (s.updateEmergencyMode now ratio)

/-- A call that stops the program leaves the state. -/
def step (checks : Bool) (s : LocalClockHealth) (e : Event) : LocalClockHealth := (s.apply checks e).getD s

/-! ## What a record does -/

/-- The statuses a record leads to, with the timer: why an excluded clock recovers, and why a
recovering one produces again. -/
inductive Recorded (s t : LocalClockHealth) (now : Nat) (drift : Int) : Prop where
  | producing (hs : s.status.canProduceBlocks = true) (ht : t.status.canProduceBlocks = true)
    (hmax : drift ≤ s.getEffectiveThresholds.degradedMax)
  | excluded (hs : s.status ≠ .excluded) (ht : t.status = .excluded)
    (hdrift : s.getEffectiveThresholds.degradedMax < drift) (htimer : t.improvementSince = none)
  | waiting (hs : s.status = .excluded) (ht : t.status = .excluded)
    (htimer : ∀ since, t.improvementSince = some since →
      drift < s.getEffectiveThresholds.recoveryMax ∧ (s.improvementSince = some since ∨ since = now))
  | recovering (hs : s.status = .excluded) (ht : t.status = .recovering) (since : Nat)
    (hdrift : drift < s.getEffectiveThresholds.recoveryMax) (hsince : s.improvementSince = some since)
    (hlasted : since + excludedToRecoveringSecs ≤ now) (htimer : t.improvementSince = none)
  | observing (hs : s.status = .recovering) (ht : t.status = .recovering)
    (hmax : drift ≤ s.getEffectiveThresholds.healthyMax)
    (htimer : ∀ since, t.improvementSince = some since →
      drift < s.getEffectiveThresholds.healthyTarget ∧ (s.improvementSince = some since ∨ since = now))
  | healthy (hs : s.status = .recovering) (ht : t.status = .healthy) (since : Nat)
    (hdrift : drift < s.getEffectiveThresholds.healthyTarget) (hsince : s.improvementSince = some since)
    (hlasted : since + recoveringToHealthySecs ≤ now)
  | degraded (hs : s.status = .recovering) (ht : t.status = .degraded)
    (hmin : s.getEffectiveThresholds.healthyMax < drift) (hmax : drift ≤ s.getEffectiveThresholds.degradedMax)

variable (checks : Bool) (s : LocalClockHealth) (now : Nat) (drift : Int)

/-- The computation sets the timer and nothing else. -/
theorem computeNewStatus_fst (th : ClockThresholds) : (s.computeNewStatus now drift th).1 =
    { s with improvementSince := (s.computeNewStatus now drift th).1.improvementSince } := by
  unfold computeNewStatus hysteresis
  repeat' split
  all_goals rfl

/-- The clock becomes excluded. -/
def Enters (s : LocalClockHealth) (drift : Int) : Prop :=
  s.status ≠ .excluded ∧ s.getEffectiveThresholds.degradedMax < drift

instance : Decidable (s.Enters drift) := inferInstanceAs (Decidable (_ ∧ _))

theorem healthyMax_lt : s.getEffectiveThresholds.healthyMax < s.getEffectiveThresholds.degradedMax := by
  unfold getEffectiveThresholds
  split <;> decide

theorem healthyTarget_lt : s.getEffectiveThresholds.healthyTarget < s.getEffectiveThresholds.healthyMax := by
  unfold getEffectiveThresholds
  split <;> decide

/-- The timer has lasted, or it has gone on or starts. -/
theorem hysteresis_cases (secs : Nat) (next : ClockStatus) :
    ((s.hysteresis now secs next).2 = next ∧ ∃ since, s.improvementSince = some since ∧ secs ≤ now - since) ∨
    ((s.hysteresis now secs next).2 = s.status ∧ ∃ since,
      (s.hysteresis now secs next).1.improvementSince = some since ∧ (s.improvementSince = some since ∨ since = now)) := by
  unfold hysteresis
  split
  · next since hsince =>
    split
    · next hlasted => exact .inl ⟨rfl, since, hsince, hlasted⟩
    · exact .inr ⟨rfl, since, hsince, .inl hsince⟩
  · exact .inr ⟨rfl, now, rfl, .inr rfl⟩

section Computed

variable (t : LocalClockHealth)
  (hstatus : t.status = (s.computeNewStatus now drift s.getEffectiveThresholds).2)
  (htimer : t.improvementSince = if t.status = s.status then
    (s.computeNewStatus now drift s.getEffectiveThresholds).1.improvementSince else none)

include hstatus htimer

theorem recorded_of_healthy (hs : s.status = .healthy) : Recorded s t now drift := by
  unfold computeNewStatus at hstatus htimer
  simp only [hs] at hstatus htimer
  split at hstatus
  · next hd => exact .excluded (by simp [hs]) hstatus hd (by simpa [hstatus] using htimer)
  · next hmax =>
    split at hstatus
    · exact .producing (by rw [hs]; rfl) (by rw [hstatus]; rfl) (Int.not_lt.mp hmax)
    · exact .producing (by rw [hs]; rfl) (by rw [hstatus]; rfl) (Int.not_lt.mp hmax)

theorem recorded_of_degraded (hs : s.status = .degraded) : Recorded s t now drift := by
  unfold computeNewStatus at hstatus htimer
  simp only [hs] at hstatus htimer
  split at hstatus
  · next hd => exact .excluded (by simp [hs]) hstatus hd (by simpa [hstatus] using htimer)
  · next hmax =>
    refine .producing (by rw [hs]; rfl) ?_ (Int.not_lt.mp hmax)
    split at hstatus
    · obtain ⟨hnext, -⟩ | ⟨hstays, -⟩ := s.hysteresis_cases now degradedToHealthySecs .healthy
      · rw [hstatus, hnext]
        rfl
      · rw [hstatus, hstays, hs]
        rfl
    · rw [hstatus]
      rfl

theorem recorded_of_excluded (hs : s.status = .excluded) : Recorded s t now drift := by
  unfold computeNewStatus at hstatus htimer
  simp only [hs] at hstatus htimer
  split at hstatus
  · next hd =>
    rw [if_pos hd] at htimer
    obtain ⟨hnext, since, hsince, hlasted⟩ | ⟨hstays, since, hset, hsince⟩ :=
      s.hysteresis_cases now excludedToRecoveringSecs .recovering
    · rw [hnext] at hstatus
      refine .recovering hs hstatus since hd hsince ?_ (by simpa [hstatus] using htimer)
      unfold excludedToRecoveringSecs at hlasted ⊢
      omega
    · rw [hstays, hs] at hstatus
      rw [if_pos hstatus, hset] at htimer
      exact .waiting hs hstatus fun since' h => ⟨hd, Option.some.inj (htimer.symm.trans h) ▸ hsince⟩
  · next hd =>
    rw [if_neg hd, if_pos hstatus] at htimer
    exact .waiting hs hstatus fun since h => by rw [h] at htimer; cases htimer

theorem recorded_of_recovering (hs : s.status = .recovering) : Recorded s t now drift := by
  have hlt := s.healthyTarget_lt
  unfold computeNewStatus at hstatus htimer
  simp only [hs] at hstatus htimer
  split at hstatus
  · next hd => exact .excluded (by simp [hs]) hstatus hd (by simpa [hstatus] using htimer)
  · next hmax =>
    rw [if_neg hmax] at htimer
    split at hstatus
    · next hd =>
      rw [if_pos hd] at htimer
      obtain ⟨hnext, since, hsince, hlasted⟩ | ⟨hstays, since, hset, hsince⟩ :=
        s.hysteresis_cases now recoveringToHealthySecs .healthy
      · rw [hnext] at hstatus
        refine .healthy hs hstatus since hd hsince ?_
        unfold recoveringToHealthySecs at hlasted ⊢
        omega
      · rw [hstays, hs] at hstatus
        rw [if_pos hstatus, hset] at htimer
        exact .observing hs hstatus (by omega) fun since' h =>
          ⟨hd, Option.some.inj (htimer.symm.trans h) ▸ hsince⟩
    · next hd =>
      rw [if_neg hd] at htimer
      split at hstatus
      · next hmin => exact .degraded hs hstatus hmin (Int.not_lt.mp hmax)
      · next hmin =>
        rw [if_neg hmin, if_pos hstatus] at htimer
        exact .observing hs hstatus (Int.not_lt.mp hmin) fun since h => by rw [h] at htimer; cases htimer

/-- What a record computes. -/
theorem recorded_of_computed : Recorded s t now drift := by
  cases hs : s.status with
  | healthy => exact s.recorded_of_healthy now drift t hstatus htimer hs
  | degraded => exact s.recorded_of_degraded now drift t hstatus htimer hs
  | excluded => exact s.recorded_of_excluded now drift t hstatus htimer hs
  | recovering => exact s.recorded_of_recovering now drift t hstatus htimer hs

end Computed

variable {s now drift} in
theorem Recorded.enters_iff {t : LocalClockHealth} (h : Recorded s t now drift) :
    (t.status = .excluded ∧ s.status ≠ .excluded) ↔ s.Enters drift := by
  have hlt := s.healthyTarget_lt
  have hmaxes := s.healthyMax_lt
  unfold Enters
  rw [and_comm]
  refine and_congr_right fun hs => ?_
  cases h with
  | producing _ ht hmax =>
    refine iff_of_false (fun h => ?_) (by omega)
    rw [h] at ht
    cases ht
  | excluded _ ht hdrift => exact iff_of_true ht hdrift
  | waiting hs' => exact absurd hs' hs
  | recovering hs' => exact absurd hs' hs
  | observing _ ht hmax => exact iff_of_false (by rw [ht]; decide) (by omega)
  | healthy _ ht _ hdrift => exact iff_of_false (by rw [ht]; decide) (by omega)
  | degraded _ ht _ hmax => exact iff_of_false (by rw [ht]; decide) (by omega)

/-- The count after a record. -/
def counted : Option Nat :=
  if s.Enters drift then Word.addW checks 32 s.lifetimeExcludedCount 1 else some s.lifetimeExcludedCount

/-- A record counts an exclusion, which alone can stop the program, and moves the status. -/
theorem recordDrift_eq : ∃ f : Nat → LocalClockHealth,
    s.apply checks (.recordDrift now drift) = (s.counted checks drift).map f ∧
      ∀ n, (f n).lifetimeExcludedCount = n ∧ Recorded s (f n) now drift := by
  have hfst := s.computeNewStatus_fst now drift s.getEffectiveThresholds
  have happly : s.apply checks (.recordDrift now drift) = (s.recordDrift checks now drift).map Prod.fst := rfl
  rw [happly]
  unfold recordDrift counted
  dsimp only
  have hcases := s.recorded_of_computed now drift
  generalize s.computeNewStatus now drift s.getEffectiveThresholds = c at hfst hcases
  by_cases hchanged : c.2 = s.status
  · have hrec : ∀ n, Recorded s { c.1 with lifetimeExcludedCount := n } now drift := by
      intro n
      refine hcases _ ?_ ?_
      · rw [hfst]
        exact hchanged.symm
      · rw [hfst]
        exact (if_pos rfl).symm
    refine ⟨fun n => { c.1 with lifetimeExcludedCount := n }, ?_, fun n => ⟨rfl, hrec n⟩⟩
    have henters : ¬ s.Enters drift := by
      rw [← (hrec 0).enters_iff, hfst]
      exact fun h => h.2 h.1
    rw [if_neg (not_not.mpr hchanged), if_neg henters, hfst]
    rfl
  · have hrec : ∀ n, Recorded s { c.1 with
        status := c.2
        statusSince := now
        improvementSince := none
        lifetimeExcludedCount := n
        lifetimeDegradedSeconds := if s.status = .degraded then
          min (c.1.lifetimeDegradedSeconds + (now - c.1.statusSince)) (2 ^ 64 - 1)
          else c.1.lifetimeDegradedSeconds } now drift := fun n => hcases _ rfl (if_neg hchanged).symm
    refine ⟨_, ?_, fun n => ⟨rfl, hrec n⟩⟩
    have hcount : c.1.lifetimeExcludedCount = s.lifetimeExcludedCount := by rw [hfst]
    unfold handleStatusChange
    rw [if_pos hchanged, if_congr (hrec 0).enters_iff rfl rfl, hcount, Option.map_map, Option.map_map]
    rfl

/-! ## Runs -/

theorem updateEmergencyMode_fields (ratio : Option ℚ) :
    (s.updateEmergencyMode now ratio).status = s.status ∧
      (s.updateEmergencyMode now ratio).improvementSince = s.improvementSince ∧
      (s.updateEmergencyMode now ratio).lifetimeExcludedCount = s.lifetimeExcludedCount := by
  unfold updateEmergencyMode
  repeat' split
  all_goals exact ⟨rfl, rfl, rfl⟩

/-- A record of an excluded clock is below the recovery threshold in force. -/
def BelowRecovery (s : LocalClockHealth) : Event → Prop
  | .recordDrift _ drift => s.status = .excluded ∧ drift < s.getEffectiveThresholds.recoveryMax
  | .updateEmergencyMode _ _ => True

/-- A record of a recovering clock is below the healthy target in force. -/
def BelowTarget (s : LocalClockHealth) : Event → Prop
  | .recordDrift _ drift => s.status = .recovering ∧ drift < s.getEffectiveThresholds.healthyTarget
  | .updateEmergencyMode _ _ => True

/-- How often the clock became excluded. -/
def exclusions (start : LocalClockHealth) (events : List Event) : Nat :=
  Run.tally (step checks)
    (fun s e => if (s.step checks e).status = .excluded ∧ s.status ≠ .excluded then 1 else 0) start events

/-- The clock may produce again: it was below the recovery threshold for long enough, has been
recovering since, and below the healthy target for long enough, as was every record of that time. -/
structure Observed (start : LocalClockHealth) (pre : List Event) (now : Nat) (drift : Int) : Prop where
  recent : ∀ p time d q, pre ++ [.recordDrift now drift] = p ++ .recordDrift time d :: q →
    now < time + recoveringToHealthySecs →
    d < (p.foldl (step checks) start).getEffectiveThresholds.healthyTarget
  stayed : ∃ p q, pre = p ++ q ∧
    Run.Sustained (step checks) BelowRecovery Event.recordedAt excludedToRecoveringSecs start p ∧
    Run.Meets (step checks) (fun s _ => s.status = .recovering) (p.foldl (step checks) start)
      (q ++ [.recordDrift now drift]) ∧
    Run.Sustained (step checks) BelowTarget Event.recordedAt recoveringToHealthySecs
      (p.foldl (step checks) start) (q ++ [.recordDrift now drift])

/-- The call returns, production resumes only as it may, and the exclusions are counted. -/
structure Right (start : LocalClockHealth) (pre : List Event) (e : Event) : Prop where
  returns : ((pre.foldl (step checks) start).apply checks e).isSome
  resumes : (pre.foldl (step checks) start).status.canProduceBlocks = false →
    ((pre ++ [e]).foldl (step checks) start).status.canProduceBlocks = true →
    ∃ now drift, e = .recordDrift now drift ∧ Observed checks start pre now drift
  count : ((pre ++ [e]).foldl (step checks) start).lifetimeExcludedCount = exclusions checks start (pre ++ [e])

/-- A recovering clock does not drift into the range of the degraded ones, and the exclusions fit
their counter. -/
def Holds (s : LocalClockHealth) : Event → Prop
  | .recordDrift _ drift =>
    (s.status = .recovering → drift ≤ s.getEffectiveThresholds.healthyMax ∨
      s.getEffectiveThresholds.degradedMax < drift) ∧
    (s.Enters drift → s.lifetimeExcludedCount + 1 < 2 ^ 32)
  | .updateEmergencyMode _ _ => True

instance (s : LocalClockHealth) (e : Event) : Decidable (s.Holds e) :=
  match e with
  | .recordDrift _ _ => inferInstanceAs (Decidable ((_ = _ → _ ≤ _ ∨ _ < _) ∧ (_ → _ < _)))
  | .updateEmergencyMode _ _ => inferInstanceAs (Decidable True)

/-- What the timer and the counter tell of the events so far. -/
structure Timed (start : LocalClockHealth) (pre : List Event) : Prop where
  count : (pre.foldl (step checks) start).lifetimeExcludedCount = exclusions checks start pre
  excluded : (pre.foldl (step checks) start).status = .excluded → ∀ since,
    (pre.foldl (step checks) start).improvementSince = some since →
    Run.Since (step checks) BelowRecovery Event.recordedAt start pre since
  recovering : (pre.foldl (step checks) start).status = .recovering → ∃ p q, pre = p ++ q ∧
    Run.Sustained (step checks) BelowRecovery Event.recordedAt excludedToRecoveringSecs start p ∧
    Run.Meets (step checks) (fun s _ => s.status = .recovering) (p.foldl (step checks) start) q ∧
    ∀ since, (pre.foldl (step checks) start).improvementSince = some since →
      Run.Since (step checks) BelowTarget Event.recordedAt (p.foldl (step checks) start) q since

theorem exclusions_concat (start : LocalClockHealth) (pre : List Event) (e : Event) :
    exclusions checks start (pre ++ [e]) = exclusions checks start pre +
      if ((pre.foldl (step checks) start).step checks e).status = .excluded ∧
        (pre.foldl (step checks) start).status ≠ .excluded then 1 else 0 :=
  Run.tally_concat _ _ _ _ _

theorem foldl_concat (start : LocalClockHealth) (pre : List Event) (e : Event) :
    (pre ++ [e]).foldl (step checks) start = (pre.foldl (step checks) start).step checks e := List.foldl_append

/-- A record that does not overflow. -/
theorem step_recordDrift (h : s.Enters drift → s.lifetimeExcludedCount + 1 < 2 ^ 32) :
    (s.apply checks (.recordDrift now drift)).isSome ∧ Recorded s (s.step checks (.recordDrift now drift)) now drift ∧
      (s.step checks (.recordDrift now drift)).lifetimeExcludedCount =
        s.lifetimeExcludedCount + if s.Enters drift then 1 else 0 := by
  obtain ⟨f, happly, hf⟩ := s.recordDrift_eq checks now drift
  have hcounted : s.counted checks drift =
      some (s.lifetimeExcludedCount + if s.Enters drift then 1 else 0) := by
    unfold counted
    split
    · next henters => exact Word.addW_of_lt checks 32 _ _ (h henters)
    · rfl
  rw [hcounted] at happly
  unfold step
  rw [happly]
  exact ⟨rfl, (hf _).2, (hf _).1⟩

/-- A record that returns the number of exclusions does not overflow. -/
theorem fits_of_count (hsome : (s.apply checks (.recordDrift now drift)).isSome)
    (hcount : (s.step checks (.recordDrift now drift)).lifetimeExcludedCount = s.lifetimeExcludedCount +
      if (s.step checks (.recordDrift now drift)).status = .excluded ∧ s.status ≠ .excluded then 1 else 0)
    (henters : s.Enters drift) : s.lifetimeExcludedCount + 1 < 2 ^ 32 := by
  obtain ⟨f, happly, hf⟩ := s.recordDrift_eq checks now drift
  rw [happly, Option.isSome_map] at hsome
  obtain ⟨n, hn⟩ := Option.isSome_iff_exists.mp hsome
  have hstep : s.step checks (.recordDrift now drift) = f n := by
    unfold step
    rw [happly, hn]
    rfl
  rw [hstep, if_pos ((hf n).2.enters_iff.mpr henters), (hf n).1] at hcount
  unfold counted at hn
  rw [if_pos henters, hcount] at hn
  exact (Word.addW_exact_iff checks 32 _ _).mp hn

section History

variable {checks} {start : LocalClockHealth} {pre : List Event}

/-- A clock that goes on recovering: the stay below the recovery threshold is behind it. -/
theorem Timed.observing (h : Timed checks start pre) (e : Event)
    (hs : (pre.foldl (step checks) start).status = .recovering)
    (htimer : ∀ since, ((pre.foldl (step checks) start).step checks e).improvementSince = some since →
      (pre.foldl (step checks) start).BelowTarget e ∧
        ((pre.foldl (step checks) start).improvementSince = some since ∨ e.recordedAt = some since)) :
    ∃ p q, pre ++ [e] = p ++ q ∧
      Run.Sustained (step checks) BelowRecovery Event.recordedAt excludedToRecoveringSecs start p ∧
      Run.Meets (step checks) (fun s _ => s.status = .recovering) (p.foldl (step checks) start) q ∧
      ∀ since, ((pre ++ [e]).foldl (step checks) start).improvementSince = some since →
        Run.Since (step checks) BelowTarget Event.recordedAt (p.foldl (step checks) start) q since := by
  obtain ⟨p, q, rfl, hstay, hmeets, hsince⟩ := h.recovering hs
  rw [List.foldl_append] at hs htimer
  refine ⟨p, q ++ [e], List.append_assoc .., hstay, ?_, fun since heq => ?_⟩
  · rw [Run.meets_append]
    exact ⟨hmeets, hs, trivial⟩
  · rw [foldl_concat, List.foldl_append] at heq
    obtain ⟨hbelow, hor⟩ := htimer since heq
    rcases hor with hgoes | hstarts
    · refine (hsince since ?_).concat _ e hbelow
      rw [List.foldl_append]
      exact hgoes
    · exact Run.since_start _ e since hstarts hbelow

theorem Timed.update (h : Timed checks start pre) (now : Nat) (ratio : Option ℚ) :
    Timed checks start (pre ++ [.updateEmergencyMode now ratio]) := by
  have hconcat := foldl_concat checks start pre (.updateEmergencyMode now ratio)
  have hexclusions := exclusions_concat checks start pre (.updateEmergencyMode now ratio)
  generalize hs : pre.foldl (step checks) start = s at hconcat hexclusions
  obtain ⟨hstatus, htimer, hcount⟩ := s.updateEmergencyMode_fields now ratio
  have hstep : s.step checks (.updateEmergencyMode now ratio) = s.updateEmergencyMode now ratio := rfl
  constructor
  · rw [hconcat, hexclusions, hstep, hcount, hstatus, if_neg fun h => h.2 h.1, ← hs]
    exact h.count
  · rw [hconcat, hstep, hstatus, htimer, ← hs]
    intro hex since hsince
    exact (h.excluded hex since hsince).concat _ _ trivial
  · intro hrec
    rw [hconcat, hstep, hstatus, ← hs] at hrec
    refine h.observing _ hrec fun since hsince => ⟨trivial, .inl ?_⟩
    rwa [hs, hstep, htimer, ← hs] at hsince

section Record

variable {now : Nat} {drift : Int} (h : Timed checks start pre)
  (hrec : Recorded (pre.foldl (step checks) start)
    ((pre ++ [Event.recordDrift now drift]).foldl (step checks) start) now drift)

include h hrec

/-- The timer of an excluded clock goes on, or starts with the record. -/
theorem Timed.excluded_record
    (hex : ((pre ++ [Event.recordDrift now drift]).foldl (step checks) start).status = .excluded) (since : Nat)
    (hsince : ((pre ++ [Event.recordDrift now drift]).foldl (step checks) start).improvementSince = some since) :
    Run.Since (step checks) BelowRecovery Event.recordedAt start (pre ++ [.recordDrift now drift]) since := by
  cases hrec with
  | excluded _ _ _ htimer => rw [htimer] at hsince; cases hsince
  | waiting hexcluded _ htimer =>
    obtain ⟨hdrift, hgoes | rfl⟩ := htimer since hsince
    · exact (h.excluded hexcluded since hgoes).concat _ _ ⟨hexcluded, hdrift⟩
    · exact Run.since_start _ _ _ rfl ⟨hexcluded, hdrift⟩
  | producing _ ht => rw [hex] at ht; cases ht
  | recovering _ ht => rw [hex] at ht; cases ht
  | observing _ ht => rw [hex] at ht; cases ht
  | healthy _ ht => rw [hex] at ht; cases ht
  | degraded _ ht => rw [hex] at ht; cases ht

/-- The timer of an excluded clock has run out, or a clock goes on recovering. -/
theorem Timed.recovering_record
    (hre : ((pre ++ [Event.recordDrift now drift]).foldl (step checks) start).status = .recovering) :
    ∃ p q, pre ++ [.recordDrift now drift] = p ++ q ∧
      Run.Sustained (step checks) BelowRecovery Event.recordedAt excludedToRecoveringSecs start p ∧
      Run.Meets (step checks) (fun s _ => s.status = .recovering) (p.foldl (step checks) start) q ∧
      ∀ since, ((pre ++ [Event.recordDrift now drift]).foldl (step checks) start).improvementSince = some since →
        Run.Since (step checks) BelowTarget Event.recordedAt (p.foldl (step checks) start) q since := by
  cases hrec with
  | recovering hexcluded _ since hdrift hsince hlasted htimer =>
    have hstay := (h.excluded hexcluded since hsince).sustained _ (.recordDrift now drift) ⟨hexcluded, hdrift⟩ rfl hlasted
    refine ⟨_, [], (List.append_nil _).symm, hstay, trivial, fun since' h' => ?_⟩
    rw [htimer] at h'
    cases h'
  | observing hrecovering _ _ htimer =>
    refine h.observing (.recordDrift now drift) hrecovering fun since hsince => ?_
    rw [← foldl_concat] at hsince
    obtain ⟨hdrift, hor⟩ := htimer since hsince
    exact ⟨⟨hrecovering, hdrift⟩, hor.imp_right fun h => by rw [h]; rfl⟩
  | producing _ ht => rw [hre] at ht; cases ht
  | excluded _ ht => rw [hre] at ht; cases ht
  | waiting _ ht => rw [hre] at ht; cases ht
  | healthy _ ht => rw [hre] at ht; cases ht
  | degraded _ ht => rw [hre] at ht; cases ht

end Record

theorem Timed.concat (h : Timed checks start pre) (e : Event)
    (hholds : (pre.foldl (step checks) start).Holds e) : Timed checks start (pre ++ [e]) := by
  cases e with
  | updateEmergencyMode now ratio => exact h.update now ratio
  | recordDrift now drift =>
    obtain ⟨-, hrec, hcount⟩ := step_recordDrift checks _ now drift hholds.2
    rw [← foldl_concat] at hrec hcount
    refine ⟨?_, h.excluded_record hrec, h.recovering_record hrec⟩
    rw [hcount, exclusions_concat, ← foldl_concat, if_congr hrec.enters_iff rfl rfl, h.count]

/-- The clock that has been below the healthy target for long enough. -/
theorem Timed.observed (h : Timed checks start pre) (now since : Nat) (drift : Int)
    (hordered : ((pre ++ [Event.recordDrift now drift]).map Event.time).Pairwise (· ≤ ·))
    (hs : (pre.foldl (step checks) start).status = .recovering)
    (hdrift : drift < (pre.foldl (step checks) start).getEffectiveThresholds.healthyTarget)
    (hsince : (pre.foldl (step checks) start).improvementSince = some since)
    (hlasted : since + recoveringToHealthySecs ≤ now) : Observed checks start pre now drift := by
  obtain ⟨p, q, rfl, hstay, hmeets, hbelow⟩ := h.recovering hs
  have htarget : BelowTarget (q.foldl (step checks) (p.foldl (step checks) start)) (.recordDrift now drift) := by
    rw [← List.foldl_append]
    exact ⟨hs, hdrift⟩
  have hsustained := (hbelow since hsince).sustained _ (.recordDrift now drift) htarget rfl hlasted
  refine ⟨?_, p, q, rfl, hstay, ?_, hsustained⟩
  · intro p' time d q' heq hlt
    have hwhole := hsustained.append _ p
    rw [← List.append_assoc] at hwhole
    refine (hwhole.recent _ ?_ p' q' _ heq time now rfl rfl hlt).2
    rw [List.pairwise_map] at hordered
    refine hordered.imp fun {a b} hle t u ha hb => ?_
    cases a <;> cases ha
    cases b <;> cases hb
    exact hle
  · rw [Run.meets_append, ← List.foldl_append]
    exact ⟨hmeets, hs, trivial⟩

/-- A call is right exactly if it meets the condition. -/
theorem right_iff (h : Timed checks start pre) (e : Event)
    (hordered : ((pre ++ [e]).map Event.time).Pairwise (· ≤ ·)) :
    Right checks start pre e ↔ (pre.foldl (step checks) start).Holds e := by
  constructor
  · intro hright
    cases e with
    | updateEmergencyMode => trivial
    | recordDrift now drift =>
      have hcount := hright.count
      rw [exclusions_concat, foldl_concat, ← h.count] at hcount
      have hfits := fits_of_count checks _ now drift hright.returns hcount
      refine ⟨fun hs => ?_, hfits⟩
      by_contra hrange
      rw [not_or, Int.not_le, Int.not_lt] at hrange
      obtain ⟨-, hrec, -⟩ := step_recordDrift checks _ now drift hfits
      have hlt := (pre.foldl (step checks) start).healthyTarget_lt
      cases hrec with
      | degraded _ ht =>
        obtain ⟨now', drift', heq, hobserved⟩ := hright.resumes (by rw [hs]; rfl) (by rw [foldl_concat, ht]; rfl)
        cases heq
        have := hobserved.recent pre now drift [] rfl (Nat.lt_add_of_pos_right (by decide))
        omega
      | producing hproducing => rw [hs] at hproducing; cases hproducing
      | excluded _ _ hdrift => omega
      | waiting hexcluded => rw [hs] at hexcluded; cases hexcluded
      | recovering hexcluded => rw [hs] at hexcluded; cases hexcluded
      | observing _ _ hmax => omega
      | healthy _ _ _ hdrift => omega
  · intro hholds
    have hcount := (h.concat e hholds).count
    cases e with
    | updateEmergencyMode now ratio =>
      refine ⟨rfl, fun hbefore hafter => ?_, hcount⟩
      obtain ⟨hstatus, -⟩ := (pre.foldl (step checks) start).updateEmergencyMode_fields now ratio
      rw [foldl_concat] at hafter
      change ((pre.foldl (step checks) start).updateEmergencyMode now ratio).status.canProduceBlocks = true at hafter
      rw [hstatus, hbefore] at hafter
      cases hafter
    | recordDrift now drift =>
      obtain ⟨hsome, hrec, -⟩ := step_recordDrift checks _ now drift hholds.2
      refine ⟨hsome, fun hbefore hafter => ⟨now, drift, rfl, ?_⟩, hcount⟩
      rw [foldl_concat] at hafter
      cases hrec with
      | healthy hs _ since hdrift hsince hlasted => exact h.observed now since drift hordered hs hdrift hsince hlasted
      | degraded hs _ hmin hmax =>
        have := hholds.1 hs
        omega
      | producing hproducing => rw [hbefore] at hproducing; cases hproducing
      | excluded _ ht => rw [ht] at hafter; cases hafter
      | waiting _ ht => rw [ht] at hafter; cases hafter
      | recovering _ ht => rw [ht] at hafter; cases hafter
      | observing _ ht => rw [ht] at hafter; cases hafter

end History

theorem timed_new (created : Nat) : Timed checks (new created) [] := ⟨rfl, nofun, nofun⟩

/-- Excluded at once, and back after two minutes below the recovery threshold and four below the target. -/
def sampleRun : List Event := [.recordDrift 0 2000, .recordDrift 1 1200, .recordDrift 121 1200,
  .updateEmergencyMode 121 (some 0), .recordDrift 122 700, .recordDrift 362 700]

/-- Recovering, and then in the range of the degraded ones. -/
def driftsBack : List Event := [.recordDrift 0 2000, .recordDrift 1 1200, .recordDrift 121 1200,
  .recordDrift 122 1200]

/-- **An excluded clock** produces again only after its observation period, and its exclusions are
counted, throughout a run exactly if no recovering clock drifts into the range of the degraded ones
and no exclusion overflows the counter. -/
theorem excluded_clock_iff (created : Nat) (events : List Event)
    (hordered : (events.map Event.time).Pairwise (· ≤ ·)) :
    (∀ pre e post, events = pre ++ e :: post → Right checks (new created) pre e) ↔
      Run.Meets (step checks) Holds (new created) events := by
  refine Run.history_meets_iff (step checks) (Right checks (new created)) Holds
    (fun l => (l.map Event.time).Pairwise (· ≤ ·)) (Timed checks (new created)) (new created) ?_ ?_ ?_
    (timed_new checks created) events hordered
  · intro l e h
    rw [List.map_append, List.pairwise_append] at h
    exact h.1
  · intro l e _ h hholds
    exact h.concat e hholds
  · intro l e hl h
    exact right_iff h e hl

theorem excluded_clock_sample :
    Right true (new 0) (sampleRun.take 5) (.recordDrift 362 700) ∧
      (sampleRun.foldl (step true) (new 0)).status = .healthy :=
  ⟨(excluded_clock_iff true 0 sampleRun (by decide +kernel)).mpr (by decide +kernel) _ _ [] rfl, by decide +kernel⟩

/-- It produces again at once, and is not yet healthy. -/
theorem drifts_back_to_production :
    (driftsBack.map Event.time).Pairwise (· ≤ ·) ∧
      ((driftsBack.take 3).foldl (step true) (new 0)).status = .recovering ∧
      (driftsBack.foldl (step true) (new 0)).status = .degraded ∧
      ¬ Right true (new 0) (driftsBack.take 3) (.recordDrift 122 1200) := by
  refine ⟨by decide +kernel, by decide +kernel, by decide +kernel, fun h => ?_⟩
  obtain ⟨now, drift, heq, hobserved⟩ := h.resumes (by decide +kernel) (by decide +kernel)
  cases heq
  have := hobserved.recent (driftsBack.take 3) 122 1200 [] rfl (by decide)
  exact absurd this (by decide +kernel)

end LocalClockHealth

end Kratos
