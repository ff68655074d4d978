import Kratos.Contracts.MetaGovernance

/-!
# What a failed change leaves behind

A change, however nested, comes down to single writes and validations in a row (`units`): a batch is
its members and a validation at the end.  A single write is rejected because its value is out of
bounds, and then it writes nothing, or because what it has written does not validate, and then it
stays written.  The writes before it stay in either case.

So a rejected change leaves the parameters as they were exactly if those writes left every parameter
with the value it had (`Restores`).  A rejected execution never leaves the contract as it was, since
the history was extended before (`parameters_atomic_iff`).
-/

namespace Kratos

attribute [ext] EconomicsParameters ConsensusParameters GovernanceParameters ProtocolParameters

namespace ProtocolParameters

inductive Kind where
  | inflationRate
  | feeBurnRate
  | targetValidators
  | standardTimelock
  | exitTimelock
  | votingPeriod
  | minQuorum
  | supermajorityThreshold
  | proposalDeposit
  | vcDecayRate
deriving DecidableEq, Repr

def setting (p : ProtocolParameters) : Kind → Nat
  | .inflationRate => p.economics.inflationRate.value
  | .feeBurnRate => p.economics.feeBurnRate.value
  | .targetValidators => p.consensus.targetValidators.value
  | .standardTimelock => p.governance.standardTimelock.value
  | .exitTimelock => p.governance.exitTimelock.value
  | .votingPeriod => p.governance.votingPeriod.value
  | .minQuorum => p.governance.minQuorum.value
  | .supermajorityThreshold => p.governance.supermajorityThreshold.value
  | .proposalDeposit => p.governance.proposalDeposit.val
  | .vcDecayRate => p.consensus.vcDecayRate

/-- Least and largest value; a deposit may be any balance. -/
def limits (p : ProtocolParameters) : Kind → Nat × Nat
  | .inflationRate => (p.economics.inflationRate.min, p.economics.inflationRate.max)
  | .feeBurnRate => (p.economics.feeBurnRate.min, p.economics.feeBurnRate.max)
  | .targetValidators => (p.consensus.targetValidators.min, p.consensus.targetValidators.max)
  | .standardTimelock => (p.governance.standardTimelock.min, p.governance.standardTimelock.max)
  | .exitTimelock => (p.governance.exitTimelock.min, p.governance.exitTimelock.max)
  | .votingPeriod => (p.governance.votingPeriod.min, p.governance.votingPeriod.max)
  | .minQuorum => (p.governance.minQuorum.min, p.governance.minQuorum.max)
  | .supermajorityThreshold =>
    (p.governance.supermajorityThreshold.min, p.governance.supermajorityThreshold.max)
  | .proposalDeposit => (0, 2 ^ 128 - 1)
  | .vcDecayRate => (0, 50)

/-- Parameters that no change writes. -/
structure SameFixed (p q : ProtocolParameters) : Prop where
  version : q.version = p.version
  activeSince : q.activeSince = p.activeSince
  feeValidatorRate : q.economics.feeValidatorRate = p.economics.feeValidatorRate
  minValidatorStake : q.economics.minValidatorStake = p.economics.minValidatorStake
  stakeCap : q.economics.stakeCap = p.economics.stakeCap
  blocksPerEpoch : q.consensus.blocksPerEpoch = p.consensus.blocksPerEpoch
  slotsPerEpoch : q.consensus.slotsPerEpoch = p.consensus.slotsPerEpoch
  standardThreshold : q.governance.standardThreshold = p.governance.standardThreshold
  gracePeriod : q.governance.gracePeriod = p.governance.gracePeriod

/-- The parameters `p` after their settings were changed to `f`. -/
structure Became (p q : ProtocolParameters) (f : Kind → Nat) : Prop where
  fixed : SameFixed p q
  limits : q.limits = p.limits
  setting : q.setting = f

theorem became_self (p : ProtocolParameters) : Became p p p.setting :=
  ⟨⟨rfl, rfl, rfl, rfl, rfl, rfl, rfl, rfl, rfl⟩, rfl, rfl⟩

theorem boundedValue_eq (b c : BoundedValue Nat) (hv : b.value = c.value) (hl : (b.min, b.max) = (c.min, c.max)) :
    b = c := by
  rw [Prod.mk.injEq] at hl
  cases b
  cases c
  simp only at hv hl
  obtain ⟨hmin, hmax⟩ := hl
  subst hv hmin hmax
  rfl

/-- Back at the old settings, the parameters are the old ones. -/
theorem Became.eq_iff {p q : ProtocolParameters} {f : Kind → Nat} (h : Became p q f) : q = p ↔ f = p.setting := by
  constructor
  · rintro rfl
    exact h.setting.symm
  · intro hf
    have hs : ∀ k, q.setting k = p.setting k := fun k => by rw [h.setting, hf]
    have hl : ∀ k, q.limits k = p.limits k := fun k => by rw [h.limits]
    have hx := h.fixed
    have heconomics : q.economics = p.economics :=
      EconomicsParameters.ext (boundedValue_eq _ _ (hs .inflationRate) (hl .inflationRate))
        (boundedValue_eq _ _ (hs .feeBurnRate) (hl .feeBurnRate)) hx.feeValidatorRate hx.minValidatorStake
        hx.stakeCap
    have hconsensus : q.consensus = p.consensus :=
      ConsensusParameters.ext (boundedValue_eq _ _ (hs .targetValidators) (hl .targetValidators)) hx.blocksPerEpoch
        hx.slotsPerEpoch (hs .vcDecayRate)
    have hgovernance : q.governance = p.governance :=
      GovernanceParameters.ext (boundedValue_eq _ _ (hs .standardTimelock) (hl .standardTimelock))
        (boundedValue_eq _ _ (hs .exitTimelock) (hl .exitTimelock))
        (boundedValue_eq _ _ (hs .votingPeriod) (hl .votingPeriod))
        (boundedValue_eq _ _ (hs .minQuorum) (hl .minQuorum))
        (boundedValue_eq _ _ (hs .supermajorityThreshold) (hl .supermajorityThreshold)) hx.standardThreshold
        hx.gracePeriod (Fin.ext (hs .proposalDeposit))
    exact ProtocolParameters.ext hx.version heconomics hconsensus hgovernance hx.activeSince

/-- The rules between parameters, for the settings `f`. -/
def Consistent (p : ProtocolParameters) (f : Kind → Nat) : Prop :=
  f .standardTimelock ≤ f .exitTimelock ∧ f .feeBurnRate + p.economics.feeValidatorRate.value ≤ 100

theorem Became.valid_iff {p q : ProtocolParameters} {f : Kind → Nat} (h : Became p q f) :
    q.Valid ↔ p.Consistent f := by
  unfold Valid Consistent
  rw [← h.setting, ← h.fixed.feeValidatorRate]
  rfl

end ProtocolParameters

namespace ParameterChange

open ProtocolParameters

/-! ## Single writes -/

/-- The parameter a single change writes, and the value. -/
def written : ParameterChange → Option (Kind × Nat)
  | inflationRate v => some (.inflationRate, v)
  | feeBurnRate v => some (.feeBurnRate, v)
  | targetValidators v => some (.targetValidators, v)
  | standardTimelock v => some (.standardTimelock, v)
  | exitTimelock v => some (.exitTimelock, v)
  | votingPeriod v => some (.votingPeriod, v)
  | minQuorum v => some (.minQuorum, v)
  | supermajorityThreshold v => some (.supermajorityThreshold, v)
  | proposalDeposit v => some (.proposalDeposit, v.val)
  | vcDecayRate v => some (.vcDecayRate, v)
  | batch _ => none

def InBounds (p : ProtocolParameters) (u : ParameterChange) : Prop :=
  ∀ k v, written u = some (k, v) → (p.limits k).1 ≤ v ∧ v ≤ (p.limits k).2

def assign (f : Kind → Nat) (u : ParameterChange) : Kind → Nat :=
  match written u with
  | none => f
  | some (k, v) => Function.update f k v

/-- Settings after the writes, whether the code accepts them or not. -/
def after (p : ProtocolParameters) (units : List ParameterChange) : Kind → Nat := units.foldl assign p.setting

theorem after_append (p : ProtocolParameters) (units : List ParameterChange) (u : ParameterChange) :
    after p (units ++ [u]) = assign (after p units) u := by
  rw [after, List.foldl_append]
  rfl

theorem inBounds_iff (p : ProtocolParameters) (u : ParameterChange) (k : Kind) (v : Nat)
    (h : written u = some (k, v)) : InBounds p u ↔ (p.limits k).1 ≤ v ∧ v ≤ (p.limits k).2 := by
  constructor
  · exact fun hb => hb k v h
  · intro hb k' v' h'
    rw [h] at h'
    cases h'
    exact hb

/-- The write of a bounded value. -/
theorem write_trySet (p : ProtocolParameters) (u : ParameterChange) (k : Kind) (v : Nat) (b : BoundedValue Nat)
    (put : BoundedValue Nat → ProtocolParameters) (hwritten : written u = some (k, v))
    (hlimits : p.limits k = (b.min, b.max)) (hwrite : write p u = (b.trySet v).map put)
    (hput : ∀ c : BoundedValue Nat, (c.min, c.max) = (b.min, b.max) →
      Became p (put c) (Function.update p.setting k c.value)) :
    ¬InBounds p u ∧ write p u = none ∨
      InBounds p u ∧ ∃ q, write p u = some q ∧ Became p q (assign p.setting u) := by
  rw [inBounds_iff p u k v hwritten, hlimits, hwrite]
  unfold BoundedValue.trySet assign
  by_cases h : b.min ≤ v ∧ v ≤ b.max
  · rw [dif_pos h, hwritten]
    exact Or.inr ⟨h, _, rfl, hput _ rfl⟩
  · rw [dif_neg h]
    exact Or.inl ⟨h, rfl⟩

/-- What a write does to the parameters, or that its value is out of bounds. -/
theorem write_cases (p : ProtocolParameters) (u : ParameterChange) :
    ¬InBounds p u ∧ write p u = none ∨
      InBounds p u ∧ ∃ q, write p u = some q ∧ Became p q (assign p.setting u) := by
  cases u
  case proposalDeposit v =>
    refine Or.inr ⟨?_, _, rfl, ⟨⟨rfl, rfl, rfl, rfl, rfl, rfl, rfl, rfl, rfl⟩, ?_, ?_⟩⟩
    · rw [inBounds_iff p _ .proposalDeposit v.val rfl]
      exact ⟨Nat.zero_le _, Nat.le_sub_one_of_lt v.isLt⟩
    · funext k
      cases k <;> rfl
    · funext k
      cases k <;> rfl
  case vcDecayRate v =>
    rw [inBounds_iff p _ .vcDecayRate v rfl]
    by_cases hv : v > 50
    · exact Or.inl ⟨fun h => absurd h.2 (not_le.mpr hv), if_pos hv⟩
    · refine Or.inr ⟨⟨Nat.zero_le _, not_lt.mp hv⟩, _, if_neg hv,
        ⟨⟨rfl, rfl, rfl, rfl, rfl, rfl, rfl, rfl, rfl⟩, ?_, ?_⟩⟩
      · funext k
        cases k <;> rfl
      · funext k
        cases k <;> rfl
  case batch changes =>
    refine Or.inr ⟨fun k v h => ?_, p, rfl, became_self p⟩
    cases h
  -- the parameters with a bounded value
  all_goals
    refine write_trySet p _ _ _ _ _ rfl rfl rfl fun c hc => ?_
    refine ⟨⟨rfl, rfl, rfl, rfl, rfl, rfl, rfl, rfl, rfl⟩, ?_, ?_⟩
    · funext k
      cases k <;> first | rfl | exact hc
    · funext k
      cases k <;> rfl

/-! ## Changes in units -/

mutual

/-- Single writes and validations, a validation being an empty batch. -/
def units : ParameterChange → List ParameterChange
  | batch changes => allUnits changes ++ [batch []]
  | c => [c]

def allUnits : List ParameterChange → List ParameterChange
  | [] => []
  | c :: l => units c ++ allUnits l

end

mutual

theorem apply_eq_units (p : ProtocolParameters) (c : ParameterChange) : apply p c = applyLeaves p (units c) := by
  cases c
  case batch changes =>
    rw [apply, units, applyLeaves_append, applyAll_eq_units p changes]
    rcases applyLeaves p (allUnits changes) with ⟨q, r⟩
    cases r with
    | error e => rfl
    | ok u => exact (applyLeaves_singleton q (batch [])).symm
  case proposalDeposit v => exact (applyLeaves_singleton p (proposalDeposit v)).symm
  all_goals exact (applyLeaves_singleton p _).symm

theorem applyAll_eq_units (p : ProtocolParameters) (l : List ParameterChange) :
    applyAll p l = applyLeaves p (allUnits l) := by
  cases l with
  | nil => rfl
  | cons c l =>
    rw [applyAll, allUnits, applyLeaves_append, apply_eq_units p c]
    rcases applyLeaves p (units c) with ⟨q, r⟩
    cases r with
    | error e => rfl
    | ok u => exact applyAll_eq_units q l

end

/-- Every unit is within its bounds and leaves settings that obey the rules. -/
def Accepts (p : ProtocolParameters) (units : List ParameterChange) : Prop :=
  ∀ pre u post, units = pre ++ u :: post → InBounds p u ∧ p.Consistent (after p (pre ++ [u]))

/-- The first rejected unit, if there is one, finds or leaves the settings that were there at first: it
finds them if it is out of bounds, else it leaves them. -/
def Restores (p : ProtocolParameters) (units : List ParameterChange) : Prop :=
  ∀ pre u post, units = pre ++ u :: post → Accepts p pre →
    (¬InBounds p u → after p pre = p.setting) ∧
      (InBounds p u → ¬p.Consistent (after p (pre ++ [u])) → after p (pre ++ [u]) = p.setting)

theorem accepts_append_singleton (p : ProtocolParameters) (units : List ParameterChange) (u : ParameterChange) :
    Accepts p (units ++ [u]) ↔ Accepts p units ∧ InBounds p u ∧ p.Consistent (after p (units ++ [u])) := by
  constructor
  · intro h
    refine ⟨fun pre u' post hsplit => ?_, h units u [] rfl⟩
    exact h pre u' (post ++ [u]) (by rw [hsplit]; simp)
  · rintro ⟨h, hu⟩ pre u' post hsplit
    rcases (Run.concat_eq_split_iff units pre post u' u).mp hsplit with ⟨rfl, rfl, -⟩ | ⟨rest, -, hunits⟩
    · exact hu
    · exact h pre u' rest hunits

/-- A write to parameters that were changed before. -/
theorem writeAndValidate_cases {p q : ProtocolParameters} {f : Kind → Nat} (h : Became p q f) (u : ParameterChange) :
    ¬InBounds p u ∧ writeAndValidate q u = (q, .error .outOfBounds) ∨
      InBounds p u ∧ ∃ q', Became p q' (assign f u) ∧ writeAndValidate q u = (q', q'.validate) := by
  have hbounds : InBounds q u ↔ InBounds p u := by
    unfold InBounds
    rw [h.limits]
  unfold writeAndValidate
  rcases write_cases q u with ⟨hout, hnone⟩ | ⟨hin, q', hsome, hq'⟩
  · exact Or.inl ⟨fun hin => hout (hbounds.mpr hin), by rw [hnone]⟩
  · refine Or.inr ⟨hbounds.mp hin, q', ⟨?_, hq'.limits.trans h.limits, by rw [hq'.setting, h.setting]⟩, by rw [hsome]⟩
    have h₁ := h.fixed
    have h₂ := hq'.fixed
    exact ⟨h₂.version.trans h₁.version, h₂.activeSince.trans h₁.activeSince,
      h₂.feeValidatorRate.trans h₁.feeValidatorRate, h₂.minValidatorStake.trans h₁.minValidatorStake,
      h₂.stakeCap.trans h₁.stakeCap, h₂.blocksPerEpoch.trans h₁.blocksPerEpoch,
      h₂.slotsPerEpoch.trans h₁.slotsPerEpoch, h₂.standardThreshold.trans h₁.standardThreshold,
      h₂.gracePeriod.trans h₁.gracePeriod⟩

/-- **Run.**  Accepted units are all written. -/
theorem applyLeaves_of_accepts (p : ProtocolParameters) (units : List ParameterChange) (h : Accepts p units) :
    ∃ q, applyLeaves p units = (q, .ok ()) ∧ Became p q (after p units) := by
  induction units using List.reverseRecOn with
  | nil => exact ⟨p, rfl, became_self p⟩
  | append_singleton units u ih =>
    obtain ⟨hunits, hin, hconsistent⟩ := (accepts_append_singleton p units u).mp h
    obtain ⟨q, hq, hbecame⟩ := ih hunits
    rcases writeAndValidate_cases hbecame u with ⟨hout, -⟩ | ⟨-, q', hq', hwrite⟩
    · exact absurd hin hout
    · rw [← after_append] at hq'
      refine ⟨q', ?_, hq'⟩
      rw [applyLeaves_append, hq]
      simp only
      rw [applyLeaves_singleton, hwrite, (q'.validate_eq_ok_iff).mpr (hq'.valid_iff.mpr hconsistent)]

/-- The first rejected unit decides the result and the settings left behind. -/
theorem applyLeaves_of_rejected (p : ProtocolParameters) (pre post : List ParameterChange) (u : ParameterChange)
    (h : Accepts p pre) :
    (¬InBounds p u → ∃ q e, applyLeaves p (pre ++ u :: post) = (q, .error e) ∧ Became p q (after p pre)) ∧
      (InBounds p u → ¬p.Consistent (after p (pre ++ [u])) →
        ∃ q e, applyLeaves p (pre ++ u :: post) = (q, .error e) ∧ Became p q (after p (pre ++ [u]))) := by
  obtain ⟨q, hq, hbecame⟩ := applyLeaves_of_accepts p pre h
  rw [applyLeaves_append, hq]
  simp only
  rw [applyLeaves]
  rcases writeAndValidate_cases hbecame u with ⟨hout, hwrite⟩ | ⟨hin, q', hq', hwrite⟩
  · rw [hwrite]
    exact ⟨fun _ => ⟨q, _, rfl, hbecame⟩, fun hin => absurd hin hout⟩
  · rw [← after_append] at hq'
    refine ⟨fun hout => absurd hin hout, fun _ hrules => ?_⟩
    rw [hwrite]
    cases hv : q'.validate with
    | error e => exact ⟨q', e, rfl, hq'⟩
    | ok u => exact absurd (hq'.valid_iff.mp ((q'.validate_eq_ok_iff).mp hv)) hrules

/-- Units are all accepted, or there is a first rejected one. -/
theorem accepts_or_rejected (p : ProtocolParameters) (units : List ParameterChange) :
    Accepts p units ∨ ∃ pre u post, units = pre ++ u :: post ∧ Accepts p pre ∧
      ¬(InBounds p u ∧ p.Consistent (after p (pre ++ [u]))) := by
  induction units using List.reverseRecOn with
  | nil => exact Or.inl fun pre u post h => by simp at h
  | append_singleton units u ih =>
    rcases ih with hunits | ⟨pre, u', post, hsplit, hpre, hrejected⟩
    · by_cases hu : InBounds p u ∧ p.Consistent (after p (units ++ [u]))
      · exact Or.inl ((accepts_append_singleton p units u).mpr ⟨hunits, hu⟩)
      · exact Or.inr ⟨units, u, [], rfl, hunits, hu⟩
    · exact Or.inr ⟨pre, u', post ++ [u], by rw [hsplit]; simp, hpre, hrejected⟩

theorem applyLeaves_unchanged_iff (p : ProtocolParameters) (units : List ParameterChange) :
    (∀ e, (applyLeaves p units).2 = .error e → (applyLeaves p units).1 = p) ↔ Restores p units := by
  constructor
  · rintro h pre u post rfl hpre
    obtain ⟨hbounds, hrules⟩ := applyLeaves_of_rejected p pre post u hpre
    constructor
    · intro hout
      obtain ⟨q, e, heq, hbecame⟩ := hbounds hout
      have hsame := h e (by rw [heq])
      rw [heq] at hsame
      exact hbecame.eq_iff.mp hsame
    · intro hin hbroken
      obtain ⟨q, e, heq, hbecame⟩ := hrules hin hbroken
      have hsame := h e (by rw [heq])
      rw [heq] at hsame
      exact hbecame.eq_iff.mp hsame
  · intro h e he
    rcases accepts_or_rejected p units with haccepts | ⟨pre, u, post, rfl, hpre, hrejected⟩
    · obtain ⟨q, heq, -⟩ := applyLeaves_of_accepts p units haccepts
      rw [heq] at he
      cases he
    · obtain ⟨hbounds, hrules⟩ := applyLeaves_of_rejected p pre post u hpre
      obtain ⟨hfinds, hleaves⟩ := h pre u post rfl hpre
      by_cases hin : InBounds p u
      · have hbroken : ¬p.Consistent (after p (pre ++ [u])) := fun hc => hrejected ⟨hin, hc⟩
        obtain ⟨q, e', heq, hbecame⟩ := hrules hin hbroken
        rw [heq]
        exact hbecame.eq_iff.mpr (hleaves hin hbroken)
      · obtain ⟨q, e', heq, hbecame⟩ := hbounds hin
        rw [heq]
        exact hbecame.eq_iff.mpr (hfinds hin)

/-- Units are accepted exactly if they are written without an error. -/
theorem applyLeaves_ok_iff (p : ProtocolParameters) (units : List ParameterChange) :
    (applyLeaves p units).2 = .ok () ↔ Accepts p units := by
  constructor
  · intro hok
    rcases accepts_or_rejected p units with haccepts | ⟨pre, u, post, rfl, hpre, hrejected⟩
    · exact haccepts
    · obtain ⟨hbounds, hrules⟩ := applyLeaves_of_rejected p pre post u hpre
      by_cases hin : InBounds p u
      · obtain ⟨q, e, heq, -⟩ := hrules hin fun hc => hrejected ⟨hin, hc⟩
        rw [heq] at hok
        cases hok
      · obtain ⟨q, e, heq, -⟩ := hbounds hin
        rw [heq] at hok
        cases hok
  · intro h
    obtain ⟨q, heq, -⟩ := applyLeaves_of_accepts p units h
    rw [heq]

end ParameterChange

namespace MetaGovernanceContract

/-- The units of a proposal's changes. -/
def proposedUnits : UpgradeProposalType → List ParameterChange
  | .parameterChange changes _ => ParameterChange.allUnits changes
  | .versionUpgrade .. => []
  | .emergencyChange changes _ => ParameterChange.allUnits changes

theorem enact_ok_iff (p : ProtocolParameters) (proposalType : UpgradeProposalType) :
    (enact p proposalType).2 = .ok () ↔ ParameterChange.Accepts p (proposedUnits proposalType) := by
  rw [← ParameterChange.applyLeaves_ok_iff]
  cases proposalType with
  | parameterChange changes rationale => rw [enact, ParameterChange.applyAll_eq_units, proposedUnits]
  | versionUpgrade newVersion changelog breaking => exact Iff.rfl
  | emergencyChange changes justification => rw [enact, ParameterChange.applyAll_eq_units, proposedUnits]

/-- **All or nothing.**  A failed change leaves the parameters as they were exactly if the first rejected
unit comes to the settings that were there at first; a failed execution leaves parameters, history and
executed proposals as they were exactly if no change of an executable proposal can fail. -/
theorem parameters_atomic_iff (p : ProtocolParameters) (c : ParameterChange) (s : MetaGovernanceContract)
    (proposalId : Hash) (currentBlock : Nat) :
    ((∀ e, (c.apply p).2 = .error e → (c.apply p).1 = p) ↔ ParameterChange.Restores p c.units) ∧
    ((∀ e, (s.executeProposal proposalId currentBlock).2 = .error e →
        (s.executeProposal proposalId currentBlock).1.parameters = s.parameters ∧
          (s.executeProposal proposalId currentBlock).1.parameterHistory = s.parameterHistory ∧
          (s.executeProposal proposalId currentBlock).1.executedProposals = s.executedProposals) ↔
      ∀ proposal, s.executable proposalId currentBlock = some proposal →
        ParameterChange.Accepts s.parameters (proposedUnits proposal.proposalType)) := by
  constructor
  · rw [ParameterChange.apply_eq_units]
    exact ParameterChange.applyLeaves_unchanged_iff p c.units
  · cases hx : s.executable proposalId currentBlock with
    | none =>
      obtain ⟨e, heq⟩ := s.executeProposal_of_none proposalId currentBlock hx
      rw [heq]
      exact ⟨fun _ proposal h => absurd h (by simp), fun _ _ _ => ⟨rfl, rfl, rfl⟩⟩
    | some proposal =>
      rcases s.executeProposal_of_some proposalId currentBlock proposal hx with ⟨e, herr, heq⟩ | ⟨hok, heq⟩
      · rw [heq]
        constructor
        · intro h
          -- the history is a longer list
          have hlength := congrArg List.length (h _ rfl).2.1
          simp at hlength
        · intro h
          have := (enact_ok_iff s.parameters proposal.proposalType).mpr (h proposal rfl)
          rw [herr] at this
          cases this
      · rw [heq]
        constructor
        · rintro - proposal' hproposal
          cases hproposal
          exact (enact_ok_iff s.parameters proposal.proposalType).mp hok
        · intro _ e he
          cases he

/-- A batch that fails at its second change has written the first; an execution that fails has extended
the history and left a burn rate of 60. -/
theorem failed_changes_written :
    (ParameterChange.apply .genesis (.batch [.inflationRate 3, .feeBurnRate 200])).2 = .error .outOfBounds ∧
      ProtocolParameters.genesis.economics.inflationRate.value = 2 ∧
      (ParameterChange.apply .genesis (.batch [.inflationRate 3, .feeBurnRate 200])).1.economics.inflationRate.value = 3 ∧
      (((sampleBurnRate.take 4).foldl (apply Crypto.sample) new).executeProposal
        (UpgradeProposal.idOf Crypto.sample ⟨1⟩ 0 0) (100800 + protocolUpgradeTimelock)).2 =
          .error (.parameterError .feeRatesTooHigh) ∧
      ((sampleBurnRate.take 4).foldl (apply Crypto.sample) new).parameters.economics.feeBurnRate.value = 50 ∧
      ((sampleBurnRate.take 4).foldl (apply Crypto.sample) new).parameterHistory.length = 0 ∧
      (((sampleBurnRate.take 4).foldl (apply Crypto.sample) new).executeProposal
        (UpgradeProposal.idOf Crypto.sample ⟨1⟩ 0 0) (100800 + protocolUpgradeTimelock)).1.parameters.economics.feeBurnRate.value
          = 60 ∧
      (((sampleBurnRate.take 4).foldl (apply Crypto.sample) new).executeProposal
        (UpgradeProposal.idOf Crypto.sample ⟨1⟩ 0 0) (100800 + protocolUpgradeTimelock)).1.parameterHistory.length = 1 := by
  decide +kernel

end MetaGovernanceContract

end Kratos
