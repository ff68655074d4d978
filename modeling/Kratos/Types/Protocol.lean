import Kratos.Types.Primitives

/-!
# Protocol parameters

Parameters with constitutional bounds, the changes governance can make to them,
and protocol versions.  A `BoundedValue` carries the proof that it is within its
bounds.  `ParameterChange.apply` writes first and validates afterwards, so an
error can leave parameters behind that do not validate; `apply_eq_applyLeaves`
reduces a nested change to the single writes it makes, and
`validate_applyLeaves_iff` says when these leave valid parameters.
-/

namespace Kratos

/-! ## Constitutional bounds -/

def minInflationRate : Nat := 0
def maxInflationRate : Nat := 5
def minFeeBurnRate : Nat := 0
def maxFeeBurnRate : Nat := 100
def minValidators : Nat := 50
def maxValidators : Nat := 101
def minStandardTimelock : Nat := 14400
def maxStandardTimelock : Nat := 432000
def minExitTimelock : Nat := 100800
def maxExitTimelock : Nat := 1296000
def minQuorumBound : Nat := 10
def maxQuorumBound : Nat := 80
def minSupermajority : Nat := 66
def maxSupermajority : Nat := 90
def minVotingPeriod : Nat := 14400
def maxVotingPeriod : Nat := 432000

/-- A value with its bounds. -/
structure BoundedValue (α : Type) [LinearOrder α] where
  value : α
  min : α
  max : α
  inBounds : min ≤ value ∧ value ≤ max

namespace BoundedValue

variable {α : Type} [LinearOrder α]

/-- Clamped to the bounds. -/
def new (value min max : α) (h : min ≤ max) : BoundedValue α :=
  if hlo : value < min then ⟨min, min, max, le_refl _, h⟩
  else if hhi : value > max then ⟨max, min, max, h, le_refl _⟩
  else ⟨value, min, max, not_lt.mp hlo, not_lt.mp hhi⟩

/-- The value is refused if it is out of bounds. -/
def trySet (b : BoundedValue α) (newValue : α) : Option (BoundedValue α) :=
  if h : b.min ≤ newValue ∧ newValue ≤ b.max then some { b with value := newValue, inBounds := h }
  else none

theorem trySet_eq_some (b c : BoundedValue α) (v : α) (h : b.trySet v = some c) :
    c.value = v ∧ c.min = b.min ∧ c.max = b.max := by
  unfold trySet at h
  split at h
  · cases h
    exact ⟨rfl, rfl, rfl⟩
  · cases h

end BoundedValue

/-! ## Parameters -/

structure ProtocolVersion where
  major : Nat
  minor : Nat
  patch : Nat
deriving DecidableEq, Repr

namespace ProtocolVersion

def default : ProtocolVersion := { major := 1, minor := 0, patch := 0 }

def isNewer (v other : ProtocolVersion) : Bool :=
  if v.major ≠ other.major then decide (v.major > other.major)
  else if v.minor ≠ other.minor then decide (v.minor > other.minor)
  else decide (v.patch > other.patch)

theorem isNewer_iff (v w : ProtocolVersion) :
    v.isNewer w = true ↔ w.major < v.major ∨
      w.major = v.major ∧ (w.minor < v.minor ∨ w.minor = v.minor ∧ w.patch < v.patch) := by
  unfold isNewer
  split
  · rw [decide_eq_true_iff]
    omega
  · split
    · rw [decide_eq_true_iff]
      omega
    · rw [decide_eq_true_iff]
      omega

theorem not_isNewer_self (v : ProtocolVersion) : ¬ v.isNewer v = true := by
  rw [isNewer_iff]
  omega

theorem not_isNewer_trans (u v w : ProtocolVersion) (huv : ¬ u.isNewer v = true)
    (hvw : ¬ v.isNewer w = true) : ¬ u.isNewer w = true := by
  rw [isNewer_iff] at huv hvw ⊢
  omega

end ProtocolVersion

structure EconomicsParameters where
  inflationRate : BoundedValue Nat
  feeBurnRate : BoundedValue Nat
  feeValidatorRate : BoundedValue Nat
  minValidatorStake : Balance
  stakeCap : Balance

structure ConsensusParameters where
  targetValidators : BoundedValue Nat
  blocksPerEpoch : Nat
  slotsPerEpoch : Nat
  vcDecayRate : Nat

structure GovernanceParameters where
  standardTimelock : BoundedValue Nat
  exitTimelock : BoundedValue Nat
  votingPeriod : BoundedValue Nat
  minQuorum : BoundedValue Nat
  supermajorityThreshold : BoundedValue Nat
  standardThreshold : Nat
  gracePeriod : Nat
  proposalDeposit : Balance

structure ProtocolParameters where
  version : ProtocolVersion
  economics : EconomicsParameters
  consensus : ConsensusParameters
  governance : GovernanceParameters
  activeSince : Nat

inductive ParameterError where
  | outOfBounds
  | exitTimelockTooShort
  | feeRatesTooHigh
deriving DecidableEq, Repr

namespace ProtocolParameters

def genesis : ProtocolParameters :=
  { version := .default
    economics :=
      { inflationRate := .new 2 minInflationRate maxInflationRate (by decide)
        feeBurnRate := .new 50 minFeeBurnRate maxFeeBurnRate (by decide)
        feeValidatorRate := .new 50 minFeeBurnRate maxFeeBurnRate (by decide)
        minValidatorStake := 10000, stakeCap := 1000000 }
    consensus :=
      { targetValidators := .new 51 minValidators maxValidators (by decide)
        blocksPerEpoch := 14400, slotsPerEpoch := 14400, vcDecayRate := 10 }
    governance :=
      { standardTimelock := .new 172800 minStandardTimelock maxStandardTimelock (by decide)
        exitTimelock := .new 432000 minExitTimelock maxExitTimelock (by decide)
        votingPeriod := .new 100800 minVotingPeriod maxVotingPeriod (by decide)
        minQuorum := .new 30 minQuorumBound maxQuorumBound (by decide)
        supermajorityThreshold := .new 66 minSupermajority maxSupermajority (by decide)
        standardThreshold := 50, gracePeriod := 28800, proposalDeposit := 100 }
    activeSince := 0 }

def validate (p : ProtocolParameters) : Except ParameterError Unit :=
  if p.governance.exitTimelock.value < p.governance.standardTimelock.value then
    .error .exitTimelockTooShort
  else if p.economics.feeBurnRate.value + p.economics.feeValidatorRate.value > 100 then
    .error .feeRatesTooHigh
  else .ok ()

/-- What `validate` accepts. -/
def Valid (p : ProtocolParameters) : Prop :=
  p.governance.standardTimelock.value ≤ p.governance.exitTimelock.value ∧
    p.economics.feeBurnRate.value + p.economics.feeValidatorRate.value ≤ 100

theorem validate_eq_ok_iff (p : ProtocolParameters) : p.validate = .ok () ↔ p.Valid := by
  unfold validate Valid
  split
  · simp only [reduceCtorEq, false_iff]
    omega
  · split
    · simp only [reduceCtorEq, false_iff]
      omega
    · simp only [true_iff]
      omega

/-- The bounds of every parameter are the constitutional ones; the decay rate has no bounds of its own. -/
structure Bounded (p : ProtocolParameters) : Prop where
  inflationRate : p.economics.inflationRate.min = minInflationRate ∧
    p.economics.inflationRate.max = maxInflationRate
  feeBurnRate : p.economics.feeBurnRate.min = minFeeBurnRate ∧ p.economics.feeBurnRate.max = maxFeeBurnRate
  feeValidatorRate : p.economics.feeValidatorRate.min = minFeeBurnRate ∧
    p.economics.feeValidatorRate.max = maxFeeBurnRate
  targetValidators : p.consensus.targetValidators.min = minValidators ∧
    p.consensus.targetValidators.max = maxValidators
  standardTimelock : p.governance.standardTimelock.min = minStandardTimelock ∧
    p.governance.standardTimelock.max = maxStandardTimelock
  exitTimelock : p.governance.exitTimelock.min = minExitTimelock ∧
    p.governance.exitTimelock.max = maxExitTimelock
  votingPeriod : p.governance.votingPeriod.min = minVotingPeriod ∧
    p.governance.votingPeriod.max = maxVotingPeriod
  minQuorum : p.governance.minQuorum.min = minQuorumBound ∧ p.governance.minQuorum.max = maxQuorumBound
  supermajorityThreshold : p.governance.supermajorityThreshold.min = minSupermajority ∧
    p.governance.supermajorityThreshold.max = maxSupermajority
  vcDecayRate : p.consensus.vcDecayRate ≤ 50

/-- Every bounded parameter lies within its constitutional bounds. -/
structure Within (p : ProtocolParameters) : Prop where
  inflationRate : minInflationRate ≤ p.economics.inflationRate.value ∧
    p.economics.inflationRate.value ≤ maxInflationRate
  feeBurnRate : minFeeBurnRate ≤ p.economics.feeBurnRate.value ∧
    p.economics.feeBurnRate.value ≤ maxFeeBurnRate
  feeValidatorRate : minFeeBurnRate ≤ p.economics.feeValidatorRate.value ∧
    p.economics.feeValidatorRate.value ≤ maxFeeBurnRate
  targetValidators : minValidators ≤ p.consensus.targetValidators.value ∧
    p.consensus.targetValidators.value ≤ maxValidators
  standardTimelock : minStandardTimelock ≤ p.governance.standardTimelock.value ∧
    p.governance.standardTimelock.value ≤ maxStandardTimelock
  exitTimelock : minExitTimelock ≤ p.governance.exitTimelock.value ∧
    p.governance.exitTimelock.value ≤ maxExitTimelock
  votingPeriod : minVotingPeriod ≤ p.governance.votingPeriod.value ∧
    p.governance.votingPeriod.value ≤ maxVotingPeriod
  minQuorum : minQuorumBound ≤ p.governance.minQuorum.value ∧
    p.governance.minQuorum.value ≤ maxQuorumBound
  supermajorityThreshold : minSupermajority ≤ p.governance.supermajorityThreshold.value ∧
    p.governance.supermajorityThreshold.value ≤ maxSupermajority
  vcDecayRate : p.consensus.vcDecayRate ≤ 50

theorem Bounded.within {p : ProtocolParameters} (h : p.Bounded) : p.Within where
  inflationRate := h.inflationRate.1 ▸ h.inflationRate.2 ▸ p.economics.inflationRate.inBounds
  feeBurnRate := h.feeBurnRate.1 ▸ h.feeBurnRate.2 ▸ p.economics.feeBurnRate.inBounds
  feeValidatorRate := h.feeValidatorRate.1 ▸ h.feeValidatorRate.2 ▸ p.economics.feeValidatorRate.inBounds
  targetValidators := h.targetValidators.1 ▸ h.targetValidators.2 ▸ p.consensus.targetValidators.inBounds
  standardTimelock := h.standardTimelock.1 ▸ h.standardTimelock.2 ▸ p.governance.standardTimelock.inBounds
  exitTimelock := h.exitTimelock.1 ▸ h.exitTimelock.2 ▸ p.governance.exitTimelock.inBounds
  votingPeriod := h.votingPeriod.1 ▸ h.votingPeriod.2 ▸ p.governance.votingPeriod.inBounds
  minQuorum := h.minQuorum.1 ▸ h.minQuorum.2 ▸ p.governance.minQuorum.inBounds
  supermajorityThreshold :=
    h.supermajorityThreshold.1 ▸ h.supermajorityThreshold.2 ▸ p.governance.supermajorityThreshold.inBounds
  vcDecayRate := h.vcDecayRate

/-- The genesis parameters pass their own checks. -/
theorem genesis_ok : genesis.Valid ∧ genesis.Bounded := by
  constructor
  · unfold Valid
    decide
  · constructor <;> decide

end ProtocolParameters

/-! ## Changes -/

inductive ParameterChange where
  | inflationRate (v : Nat)
  | feeBurnRate (v : Nat)
  | targetValidators (v : Nat)
  | standardTimelock (v : Nat)
  | exitTimelock (v : Nat)
  | votingPeriod (v : Nat)
  | minQuorum (v : Nat)
  | supermajorityThreshold (v : Nat)
  | proposalDeposit (v : Balance)
  | vcDecayRate (v : Nat)
  | batch (changes : List ParameterChange)

namespace ParameterChange

/-- A value between two bounds. -/
def between (lo hi v : Nat) : Bool := decide (v ≥ lo) && decide (v ≤ hi)

mutual

def isConstitutional (current : ProtocolParameters) : ParameterChange → Bool
  | inflationRate v => between minInflationRate maxInflationRate v
  | feeBurnRate v => between minFeeBurnRate maxFeeBurnRate v
  | targetValidators v => between minValidators maxValidators v
  | standardTimelock v => between minStandardTimelock maxStandardTimelock v
  | exitTimelock v =>
    between minExitTimelock maxExitTimelock v &&
      decide (v ≥ current.governance.standardTimelock.value)
  | votingPeriod v => between minVotingPeriod maxVotingPeriod v
  | minQuorum v => between minQuorumBound maxQuorumBound v
  | supermajorityThreshold v => between minSupermajority maxSupermajority v
  | proposalDeposit _ => true
  | vcDecayRate v => decide (v ≤ 50)
  | batch changes => allConstitutional current changes

def allConstitutional (current : ProtocolParameters) : List ParameterChange → Bool
  | [] => true
  | c :: l => isConstitutional current c && allConstitutional current l

end

/-- The assignment a single change makes, if its value is within the bounds. -/
def write (p : ProtocolParameters) : ParameterChange → Option ProtocolParameters
  | inflationRate v => (p.economics.inflationRate.trySet v).map fun b =>
    { p with economics := { p.economics with inflationRate := b } }
  | feeBurnRate v => (p.economics.feeBurnRate.trySet v).map fun b =>
    { p with economics := { p.economics with feeBurnRate := b } }
  | targetValidators v => (p.consensus.targetValidators.trySet v).map fun b =>
    { p with consensus := { p.consensus with targetValidators := b } }
  | standardTimelock v => (p.governance.standardTimelock.trySet v).map fun b =>
    { p with governance := { p.governance with standardTimelock := b } }
  | exitTimelock v => (p.governance.exitTimelock.trySet v).map fun b =>
    { p with governance := { p.governance with exitTimelock := b } }
  | votingPeriod v => (p.governance.votingPeriod.trySet v).map fun b =>
    { p with governance := { p.governance with votingPeriod := b } }
  | minQuorum v => (p.governance.minQuorum.trySet v).map fun b =>
    { p with governance := { p.governance with minQuorum := b } }
  | supermajorityThreshold v => (p.governance.supermajorityThreshold.trySet v).map fun b =>
    { p with governance := { p.governance with supermajorityThreshold := b } }
  | proposalDeposit v => some { p with governance := { p.governance with proposalDeposit := v } }
  | vcDecayRate v =>
    if v > 50 then none else some { p with consensus := { p.consensus with vcDecayRate := v } }
  | batch _ => some p

/-- A write, then the validation; an error leaves what was written. -/
def writeAndValidate (p : ProtocolParameters) (c : ParameterChange) :
    ProtocolParameters × Except ParameterError Unit :=
  match write p c with
  | none => (p, .error .outOfBounds)
  | some p => (p, p.validate)

mutual

def apply (p : ProtocolParameters) : ParameterChange → ProtocolParameters × Except ParameterError Unit
  | batch changes =>
    match applyAll p changes with
    | (p, .error e) => (p, .error e)
    | (p, .ok ()) => (p, p.validate)
  | c => writeAndValidate p c

/-- One after the other, up to the first error. -/
def applyAll (p : ProtocolParameters) :
    List ParameterChange → ProtocolParameters × Except ParameterError Unit
  | [] => (p, .ok ())
  | c :: l =>
    match apply p c with
    | (p, .error e) => (p, .error e)
    | (p, .ok ()) => applyAll p l

end

/-! ## Nested changes as single writes -/

mutual

def leaves : ParameterChange → List ParameterChange
  | batch changes => allLeaves changes
  | c => [c]

def allLeaves : List ParameterChange → List ParameterChange
  | [] => []
  | c :: l => leaves c ++ allLeaves l

end

def applyLeaves (p : ProtocolParameters) :
    List ParameterChange → ProtocolParameters × Except ParameterError Unit
  | [] => (p, .ok ())
  | c :: l =>
    match writeAndValidate p c with
    | (p, .error e) => (p, .error e)
    | (p, .ok ()) => applyLeaves p l

theorem applyLeaves_singleton (p : ProtocolParameters) (c : ParameterChange) :
    applyLeaves p [c] = writeAndValidate p c := by
  unfold applyLeaves
  rcases writeAndValidate p c with ⟨q, r⟩
  cases r <;> rfl

theorem applyLeaves_append (p : ProtocolParameters) (l m : List ParameterChange) :
    applyLeaves p (l ++ m) =
      match applyLeaves p l with
      | (p, .error e) => (p, .error e)
      | (p, .ok ()) => applyLeaves p m := by
  induction l generalizing p with
  | nil => rfl
  | cons c l ih =>
    simp only [List.cons_append, applyLeaves]
    rcases writeAndValidate p c with ⟨q, r⟩
    cases r with
    | error e => rfl
    | ok u => exact ih q

theorem valid_of_applyLeaves_ok (p q : ProtocolParameters) (l : List ParameterChange) (h : p.Valid)
    (hl : applyLeaves p l = (q, .ok ())) : q.Valid := by
  induction l generalizing p with
  | nil =>
    cases hl
    exact h
  | cons c l ih =>
    simp only [applyLeaves, writeAndValidate] at hl
    cases hw : write p c with
    | none =>
      rw [hw] at hl
      cases hl
    | some p' =>
      rw [hw] at hl
      simp only at hl
      cases hv : p'.validate with
      | error e =>
        rw [hv] at hl
        cases hl
      | ok u =>
        rw [hv] at hl
        exact ih p' ((p'.validate_eq_ok_iff).mp hv) hl

mutual

/-- Applied to valid parameters, a change makes the single writes it is nested from. -/
theorem apply_eq_applyLeaves (p : ProtocolParameters) (c : ParameterChange) (h : p.Valid) :
    apply p c = applyLeaves p (leaves c) := by
  cases c
  case batch changes =>
    rw [apply, leaves, applyAll_eq_applyLeaves p changes h]
    cases hl : applyLeaves p (allLeaves changes) with
    | mk q r =>
      cases r with
      | error e => rfl
      | ok u =>
        -- the parameters were validated after the last write
        have hq := valid_of_applyLeaves_ok p q _ h hl
        simp only
        rw [(q.validate_eq_ok_iff).mpr hq]
  case proposalDeposit v => exact (applyLeaves_singleton p (proposalDeposit v)).symm
  all_goals exact (applyLeaves_singleton p _).symm

theorem applyAll_eq_applyLeaves (p : ProtocolParameters) (l : List ParameterChange) (h : p.Valid) :
    applyAll p l = applyLeaves p (allLeaves l) := by
  cases l with
  | nil => rfl
  | cons c l =>
    rw [applyAll, allLeaves, applyLeaves_append, apply_eq_applyLeaves p c h]
    cases hl : applyLeaves p (leaves c) with
    | mk q r =>
      cases r with
      | error e => rfl
      | ok u => exact applyAll_eq_applyLeaves q l (valid_of_applyLeaves_ok p q _ h hl)

end

/-- What single writes keep, a change keeps, failed or not. -/
theorem writeAndValidate_keeps (P : ProtocolParameters → Prop)
    (hP : ∀ p q c, P p → write p c = some q → P q) (p : ProtocolParameters) (c : ParameterChange)
    (h : P p) : P (writeAndValidate p c).1 := by
  unfold writeAndValidate
  split
  · exact h
  · next q hq => exact hP p q c h hq

mutual

theorem apply_keeps (P : ProtocolParameters → Prop) (hP : ∀ p q c, P p → write p c = some q → P q)
    (p : ProtocolParameters) (c : ParameterChange) (h : P p) : P (apply p c).1 := by
  cases c
  case batch changes =>
    have hall := applyAll_keeps P hP p changes h
    rw [apply]
    rcases hr : applyAll p changes with ⟨q, r⟩
    rw [hr] at hall
    cases r <;> exact hall
  all_goals exact writeAndValidate_keeps P hP p _ h

theorem applyAll_keeps (P : ProtocolParameters → Prop) (hP : ∀ p q c, P p → write p c = some q → P q)
    (p : ProtocolParameters) (l : List ParameterChange) (h : P p) : P (applyAll p l).1 := by
  cases l with
  | nil => exact h
  | cons c l =>
    have hc := apply_keeps P hP p c h
    rw [applyAll]
    rcases hr : apply p c with ⟨q, r⟩
    rw [hr] at hc
    cases r with
    | error e => exact hc
    | ok u => exact applyAll_keeps P hP q l hc

end

/-! ## Validity and bounds -/

theorem write_bounded (p q : ProtocolParameters) (c : ParameterChange) (h : p.Bounded)
    (hw : write p c = some q) : q.Bounded := by
  cases c <;> simp only [write, Option.map_eq_some_iff] at hw
  case inflationRate v =>
    obtain ⟨b, hb, rfl⟩ := hw
    obtain ⟨-, hmin, hmax⟩ := BoundedValue.trySet_eq_some _ _ _ hb
    exact { h with inflationRate := ⟨hmin.trans h.inflationRate.1, hmax.trans h.inflationRate.2⟩ }
  case feeBurnRate v =>
    obtain ⟨b, hb, rfl⟩ := hw
    obtain ⟨-, hmin, hmax⟩ := BoundedValue.trySet_eq_some _ _ _ hb
    exact { h with feeBurnRate := ⟨hmin.trans h.feeBurnRate.1, hmax.trans h.feeBurnRate.2⟩ }
  case targetValidators v =>
    obtain ⟨b, hb, rfl⟩ := hw
    obtain ⟨-, hmin, hmax⟩ := BoundedValue.trySet_eq_some _ _ _ hb
    exact { h with targetValidators := ⟨hmin.trans h.targetValidators.1, hmax.trans h.targetValidators.2⟩ }
  case standardTimelock v =>
    obtain ⟨b, hb, rfl⟩ := hw
    obtain ⟨-, hmin, hmax⟩ := BoundedValue.trySet_eq_some _ _ _ hb
    exact { h with standardTimelock := ⟨hmin.trans h.standardTimelock.1, hmax.trans h.standardTimelock.2⟩ }
  case exitTimelock v =>
    obtain ⟨b, hb, rfl⟩ := hw
    obtain ⟨-, hmin, hmax⟩ := BoundedValue.trySet_eq_some _ _ _ hb
    exact { h with exitTimelock := ⟨hmin.trans h.exitTimelock.1, hmax.trans h.exitTimelock.2⟩ }
  case votingPeriod v =>
    obtain ⟨b, hb, rfl⟩ := hw
    obtain ⟨-, hmin, hmax⟩ := BoundedValue.trySet_eq_some _ _ _ hb
    exact { h with votingPeriod := ⟨hmin.trans h.votingPeriod.1, hmax.trans h.votingPeriod.2⟩ }
  case minQuorum v =>
    obtain ⟨b, hb, rfl⟩ := hw
    obtain ⟨-, hmin, hmax⟩ := BoundedValue.trySet_eq_some _ _ _ hb
    exact { h with minQuorum := ⟨hmin.trans h.minQuorum.1, hmax.trans h.minQuorum.2⟩ }
  case supermajorityThreshold v =>
    obtain ⟨b, hb, rfl⟩ := hw
    obtain ⟨-, hmin, hmax⟩ := BoundedValue.trySet_eq_some _ _ _ hb
    exact { h with
      supermajorityThreshold :=
        ⟨hmin.trans h.supermajorityThreshold.1, hmax.trans h.supermajorityThreshold.2⟩ }
  case proposalDeposit v =>
    cases hw
    exact { h with }
  case vcDecayRate v =>
    split at hw
    · cases hw
    · next hv =>
      cases hw
      exact { h with vcDecayRate := not_lt.mp hv }
  case batch changes =>
    cases hw
    exact h

theorem write_version (p q : ProtocolParameters) (c : ParameterChange) (hw : write p c = some q) :
    q.version = p.version := by
  cases c <;> simp only [write, Option.map_eq_some_iff] at hw
  case proposalDeposit v => cases hw; rfl
  case vcDecayRate v =>
    split at hw
    · cases hw
    · cases hw; rfl
  case batch changes => cases hw; rfl
  all_goals
    obtain ⟨b, -, rfl⟩ := hw
    rfl

/-- A value within its bounds that contradicts another parameter. -/
def Breaks (p : ProtocolParameters) : ParameterChange → Prop
  | feeBurnRate v => v + p.economics.feeValidatorRate.value > 100
  | standardTimelock v => v > p.governance.exitTimelock.value
  | exitTimelock v => v < p.governance.standardTimelock.value
  | _ => False

/-- No write up to the first one out of bounds breaks anything. -/
def Harmless (p : ProtocolParameters) : List ParameterChange → Prop
  | [] => True
  | c :: l =>
    match write p c with
    | none => True
    | some q => ¬ Breaks p c ∧ Harmless q l

theorem write_valid_iff (p q : ProtocolParameters) (c : ParameterChange) (h : p.Valid)
    (hw : write p c = some q) : q.Valid ↔ ¬ Breaks p c := by
  unfold ProtocolParameters.Valid at h ⊢
  cases c <;> simp only [write, Option.map_eq_some_iff] at hw <;> simp only [Breaks]
  case feeBurnRate v =>
    obtain ⟨b, hb, rfl⟩ := hw
    obtain ⟨hv, -⟩ := BoundedValue.trySet_eq_some _ _ _ hb
    simp only [hv]
    omega
  case standardTimelock v =>
    obtain ⟨b, hb, rfl⟩ := hw
    obtain ⟨hv, -⟩ := BoundedValue.trySet_eq_some _ _ _ hb
    simp only [hv]
    omega
  case exitTimelock v =>
    obtain ⟨b, hb, rfl⟩ := hw
    obtain ⟨hv, -⟩ := BoundedValue.trySet_eq_some _ _ _ hb
    simp only [hv]
    omega
  case proposalDeposit v =>
    cases hw
    exact ⟨fun _ => not_false, fun _ => h⟩
  case vcDecayRate v =>
    split at hw
    · cases hw
    · cases hw
      exact ⟨fun _ => not_false, fun _ => h⟩
  case batch changes =>
    cases hw
    exact ⟨fun _ => not_false, fun _ => h⟩
  all_goals
    obtain ⟨b, -, rfl⟩ := hw
    exact ⟨fun _ => not_false, fun _ => h⟩

/-- **Writes leave valid parameters exactly if they are harmless.** -/
theorem valid_applyLeaves_iff (p : ProtocolParameters) (l : List ParameterChange) (h : p.Valid) :
    (applyLeaves p l).1.Valid ↔ Harmless p l := by
  induction l generalizing p with
  | nil => exact ⟨fun _ => trivial, fun _ => h⟩
  | cons c l ih =>
    simp only [applyLeaves, writeAndValidate, Harmless]
    cases hw : write p c with
    | none => exact ⟨fun _ => trivial, fun _ => h⟩
    | some q =>
      have hq := write_valid_iff p q c h hw
      simp only
      rw [← hq]
      cases hv : q.validate with
      | error e =>
        have hnot : ¬ q.Valid := by
          rw [← q.validate_eq_ok_iff, hv]
          simp
        exact ⟨fun hc => absurd hc hnot, fun hc => absurd hc.1 hnot⟩
      | ok u =>
        have hvalid := (q.validate_eq_ok_iff).mp hv
        rw [ih q hvalid]
        exact ⟨fun hc => ⟨hvalid, hc⟩, fun hc => hc.2⟩

end ParameterChange

end Kratos
