import Kratos.Consensus.Slashing

/-!
# Decay of the critical counts

A count of critical events loses one for every 26 epochs since the last of them, and it does so in
two places: when the next critical event is counted, and when the hook of an epoch boundary runs.
The hook takes from the count and leaves the epoch of the last event, so the same epochs are taken
off again by the next call.

The run with the hook and the run without it are followed side by side (`Hooked`).  For every
validator the first is behind the second or equal to it (`Behind`), and a critical event brings them
together exactly if the hook has left the count alone since the last one, or if all of it has decayed
anyway (`boundary_decay_agrees_iff`).
-/

namespace Kratos

namespace SlashingManager

/-- The `ejected` flag that a slash returns. -/
def ejection (checks : Bool) (p : SlashPercents) (m : SlashingManager) : SlashingOp → Option Bool
  | .slashValidator validatorId event currentEpoch currentBlock vcRecord currentStake =>
    (slashValidator checks p m validatorId event currentEpoch currentBlock vcRecord currentStake).map
      fun out => out.2.2.ejected
  | _ => none

/-- The flags of a run, in the order of the calls. -/
def ejections (checks : Bool) (p : SlashPercents) : SlashingManager → List SlashingOp → List Bool
  | _, [] => []
  | m, op :: ops => (ejection checks p m op).toList ++ ejections checks p (m.apply checks p op) ops

def isBoundary : SlashingOp → Bool
  | .onEpochBoundary _ => true
  | _ => false

/-- The manager of a run and that of the run without the hook. -/
structure Hooked where
  hooked : SlashingManager
  onDemand : SlashingManager

namespace Hooked

def new : Hooked := ⟨.new, .new⟩

def apply (checks : Bool) (p : SlashPercents) (s : Hooked) (op : SlashingOp) : Hooked :=
  { hooked := s.hooked.apply checks p op
    onDemand := if isBoundary op then s.onDemand else s.onDemand.apply checks p op }

/-- A slash returns the same flag in both runs, and a critical one that returns counts the same. -/
def Agrees (checks : Bool) (p : SlashPercents) (s : Hooked) (op : SlashingOp) : Prop :=
  match op with
  | .slashValidator validatorId event .. =>
    ejection checks p s.hooked op = ejection checks p s.onDemand op ∧
      (event.severity = .critical → (ejection checks p s.onDemand op).isSome = true →
        (s.hooked.apply checks p op).criticalCounts.find? validatorId =
          (s.onDemand.apply checks p op).criticalCounts.find? validatorId)
  | _ => True

/-- A critical event finds the count as the last one left it, or as many decay periods after it as it
counts. -/
def Undisturbed (s : Hooked) : SlashingOp → Prop
  | .slashValidator validatorId event currentEpoch _ _ _ =>
    event.severity = .critical → ∀ c, s.onDemand.criticalCounts.find? validatorId = some c →
      s.hooked.criticalCounts.find? validatorId = some c ∨ (c.decayed currentEpoch).count = 0
  | _ => True

end Hooked

/-! ## Counts -/

theorem criticalCounts_determineCooldownEjection (m : SlashingManager) (v : AccountId) (severity : SlashingSeverity)
    (e : Nat) :
    (m.determineCooldownEjection v severity e).1.criticalCounts =
        (if severity = .critical then m.criticalCounts.insert v (m.countCritical v e) else m.criticalCounts) ∧
      (m.determineCooldownEjection v severity e).2.2 =
        (decide (severity = .critical) && decide (3 ≤ (m.countCritical v e).count)) := by
  cases severity with
  | critical =>
    by_cases hcount : 3 ≤ (m.countCritical v e).count
    · simp [determineCooldownEjection, hcount]
    · simp [determineCooldownEjection, hcount, SlashingSeverity.requiresCooldown]
  | high => exact ⟨rfl, rfl⟩
  | medium => exact ⟨rfl, rfl⟩
  | low => exact ⟨rfl, rfl⟩

/-- What a slash does to the counts, and its flag: whether it returns does not depend on the manager. -/
theorem slash_counts (checks : Bool) (p : SlashPercents) (v : AccountId) (event : SlashableEvent) (e b : Nat)
    (r : ValidatorCreditsRecord) (stake : Nat) :
    (∀ m : SlashingManager, m.apply checks p (.slashValidator v event e b r stake) = m ∧
        ejection checks p m (.slashValidator v event e b r stake) = none) ∨
      ∀ m : SlashingManager,
        (m.apply checks p (.slashValidator v event e b r stake)).criticalCounts =
            (if event.severity = .critical then m.criticalCounts.insert v (m.countCritical v e)
              else m.criticalCounts) ∧
          ejection checks p m (.slashValidator v event e b r stake) =
            some (decide (event.severity = .critical) && decide (3 ≤ (m.countCritical v e).count)) := by
  cases hr : r.applyVcSlash checks (calculateVcSlash p r event.severity) b with
  | none =>
    refine .inl fun m => ?_
    simp [apply, ejection, slashValidator, hr]
  | some r' =>
    refine .inr fun m => ?_
    obtain ⟨hcounts, hflag⟩ := m.criticalCounts_determineCooldownEjection v event.severity e
    simp [apply, ejection, slashValidator, hr, hcounts, hflag]

theorem onEpochBoundary_find? (m : SlashingManager) (e : Nat) (v : AccountId) :
    (m.onEpochBoundary e).criticalCounts.find? v =
      ((m.criticalCounts.find? v).map fun c => c.decayed e).filter fun c => decide (c.count > 0) := by
  show ((m.criticalCounts.map fun _ state => state.decayed e).filter fun _ state => decide (state.count > 0)).find? v = _
  rw [SortedMap.find?_filter, SortedMap.find?_map]

/-- What the hook leaves of a count. -/
inductive Behind : Option CriticalCountState → Option CriticalCountState → Prop where
  | none : Behind none none
  | equal (c : CriticalCountState) (hpos : 0 < c.count) : Behind (some c) (some c)
  | dropped (c : CriticalCountState) (hpos : 0 < c.count) : Behind .none (some c)
  | decayed (c : CriticalCountState) (n : Nat) (hpos : 0 < n) (hlt : n < c.count) :
      Behind (some { c with count := n }) (some c)

/-- The count after a critical event, from the entry before it. -/
def counted (o : Option CriticalCountState) (e : Nat) : CriticalCountState :=
  { count := ((o.getD { count := 0, lastCriticalEpoch := e }).decayed e).count + 1, lastCriticalEpoch := e }

/-- A critical event that finds the counts apart brings them together if nothing is left of either. -/
theorem Behind.counted_eq_iff {o o' : Option CriticalCountState} (h : Behind o o') (e : Nat) :
    counted o e = counted o' e ↔ ∀ c, o' = some c → o = some c ∨ (c.decayed e).count = 0 := by
  cases h with
  | none => simp
  | equal c hpos => simp
  | dropped c hpos =>
    simp only [counted, Option.getD_none, Option.getD_some, CriticalCountState.mk.injEq, and_true,
      Option.some.injEq, forall_eq', reduceCtorEq, false_or, CriticalCountState.decayed]
    omega
  | decayed c n hpos hlt =>
    simp only [counted, Option.getD_some, CriticalCountState.mk.injEq, and_true, Option.some.injEq, forall_eq',
      CriticalCountState.decayed]
    constructor
    · intro heq
      right
      omega
    · rintro (heq | hzero)
      · have := congrArg CriticalCountState.count heq
        simp only at this
        omega
      · omega

theorem Behind.counted {o o' : Option CriticalCountState} (h : Behind o o') (e : Nat) :
    Behind (some (counted o e)) (some (SlashingManager.counted o' e)) := by
  have hle : (SlashingManager.counted o e).count ≤ (SlashingManager.counted o' e).count := by
    cases h with
    | none => exact le_refl _
    | equal c hpos => exact le_refl _
    | dropped c hpos => simp [SlashingManager.counted, CriticalCountState.decayed]
    | decayed c n hpos hlt =>
      simp only [SlashingManager.counted, Option.getD_some, CriticalCountState.decayed]
      omega
  by_cases heq : (SlashingManager.counted o e).count = (SlashingManager.counted o' e).count
  · have hsame : SlashingManager.counted o e = SlashingManager.counted o' e := by
      simpa [SlashingManager.counted] using heq
    rw [hsame]
    exact .equal _ (Nat.succ_pos _)
  · exact .decayed (SlashingManager.counted o' e) (SlashingManager.counted o e).count (Nat.succ_pos _) (by omega)

theorem Behind.boundary {o o' : Option CriticalCountState} (h : Behind o o') (e : Nat) :
    Behind ((o.map fun c => c.decayed e).filter fun c => decide (c.count > 0)) o' := by
  -- what is left of a count that was no larger than the one on demand
  have hdecay : ∀ c n, 0 < c.count → n ≤ c.count →
      Behind ((some (CriticalCountState.decayed { c with count := n } e)).filter fun c => decide (c.count > 0))
        (some c) := by
    intro c n hpos hle
    by_cases hzero : (CriticalCountState.decayed { c with count := n } e).count = 0
    · rw [Option.filter_some, if_neg (by simp [hzero])]
      exact .dropped c hpos
    · rw [Option.filter_some, if_pos (by simpa [Nat.pos_iff_ne_zero] using hzero)]
      by_cases hsame : (CriticalCountState.decayed { c with count := n } e).count = c.count
      · have hc : CriticalCountState.decayed { c with count := n } e = c := by
          cases c
          simp_all [CriticalCountState.decayed]
        rw [hc]
        exact .equal c hpos
      · refine .decayed c _ (Nat.pos_of_ne_zero hzero) ?_
        simp only [CriticalCountState.decayed] at hsame ⊢
        omega
  cases h with
  | none => exact .none
  | equal c hpos => exact hdecay c c.count hpos (le_refl _)
  | dropped c hpos => exact .dropped c hpos
  | decayed c n hpos hlt => exact hdecay c n (by omega) (le_of_lt hlt)

/-! ## The two runs -/

namespace Hooked

/-- The counts of the run with the hook are behind the others or equal to them. -/
def Lagging (s : Hooked) : Prop :=
  ∀ v, Behind (s.hooked.criticalCounts.find? v) (s.onDemand.criticalCounts.find? v)

theorem lagging_new : new.Lagging := fun _ => .none

theorem apply_lagging (checks : Bool) (p : SlashPercents) (s : Hooked) (op : SlashingOp) (h : s.Lagging) :
    (s.apply checks p op).Lagging := by
  intro v
  cases op with
  | slashValidator v' event e b r stake =>
    rcases slash_counts checks p v' event e b r stake with hstop | hreturn
    · simp only [apply, isBoundary, Bool.false_eq_true, if_false, (hstop _).1]
      exact h v
    · simp only [apply, isBoundary, Bool.false_eq_true, if_false, (hreturn _).1]
      by_cases hcrit : event.severity = .critical
      · rw [if_pos hcrit, if_pos hcrit, SortedMap.find?_insert, SortedMap.find?_insert]
        by_cases hv : v = v'
        · rw [if_pos hv, if_pos hv]
          exact (h v').counted e
        · rw [if_neg hv, if_neg hv]
          exact h v
      · rw [if_neg hcrit, if_neg hcrit]
        exact h v
  | isInCooldownWithCleanup v' e => exact h v
  | cleanupExpiredCooldowns e => exact h v
  | onEpochBoundary e =>
    show Behind ((s.hooked.onEpochBoundary e).criticalCounts.find? v) _
    rw [onEpochBoundary_find?]
    exact (h v).boundary e

/-- A slash that returns agrees exactly if it is undisturbed. -/
theorem agrees_iff (checks : Bool) (p : SlashPercents) (s : Hooked) (h : s.Lagging) (v : AccountId)
    (event : SlashableEvent) (e b : Nat) (r : ValidatorCreditsRecord) (stake : Nat)
    (hreturn : ∀ m : SlashingManager,
      (m.apply checks p (.slashValidator v event e b r stake)).criticalCounts =
          (if event.severity = .critical then m.criticalCounts.insert v (m.countCritical v e) else m.criticalCounts) ∧
        ejection checks p m (.slashValidator v event e b r stake) =
          some (decide (event.severity = .critical) && decide (3 ≤ (m.countCritical v e).count))) :
    s.Agrees checks p (.slashValidator v event e b r stake) ↔ s.Undisturbed (.slashValidator v event e b r stake) := by
  simp only [Agrees, Undisturbed, (hreturn _).1, (hreturn _).2, Option.isSome_some]
  by_cases hcrit : event.severity = .critical
  · simp only [hcrit, if_true, forall_const, SortedMap.find?_insert_self, Option.some.injEq,
      decide_true, Bool.true_and]
    rw [(h v).counted_eq_iff e |>.symm]
    constructor
    · exact fun hagree => hagree.2
    · exact fun heq => ⟨congrArg (fun c => decide (3 ≤ c.count)) heq, heq⟩
  · simp [hcrit]

theorem agrees_of_undisturbed (checks : Bool) (p : SlashPercents) (s : Hooked) (op : SlashingOp) (h : s.Lagging)
    (hu : s.Undisturbed op) : s.Agrees checks p op := by
  cases op with
  | slashValidator v event e b r stake =>
    rcases slash_counts checks p v event e b r stake with hstop | hreturn
    · simp [Agrees, (hstop _).2]
    · exact (agrees_iff checks p s h v event e b r stake hreturn).mpr hu
  | isInCooldownWithCleanup v' e => trivial
  | cleanupExpiredCooldowns e => trivial
  | onEpochBoundary e => trivial

theorem undisturbed_of_agrees (p : SlashPercents) (s : Hooked) (op : SlashingOp) (h : s.Lagging)
    (ha : s.Agrees false p op) : s.Undisturbed op := by
  cases op with
  | slashValidator v event e b r stake =>
    rcases slash_counts false p v event e b r stake with hstop | hreturn
    · obtain ⟨out, hout⟩ := slashValidator_unchecked p s.onDemand v event e b r stake
      have hnone := (hstop s.onDemand).2
      simp [ejection, hout] at hnone
    · exact (agrees_iff false p s h v event e b r stake hreturn).mp ha
  | isInCooldownWithCleanup v' e => trivial
  | cleanupExpiredCooldowns e => trivial
  | onEpochBoundary e => trivial

/-- If every call agrees, the two runs return the same flags. -/
theorem ejections_of_agrees (checks : Bool) (p : SlashPercents) (s : Hooked) (ops : List SlashingOp)
    (h : Run.Meets (apply checks p) (Agrees checks p) s ops) :
    ejections checks p s.hooked ops = ejections checks p s.onDemand (ops.filter fun op => !isBoundary op) := by
  induction ops generalizing s with
  | nil => rfl
  | cons op ops ih =>
    have hrest := ih (s.apply checks p op) h.2
    cases op with
    | slashValidator v event e b r stake =>
      rw [List.filter_cons_of_pos (by rfl), ejections, ejections, h.1.1]
      exact congrArg _ hrest
    | isInCooldownWithCleanup v e =>
      rw [List.filter_cons_of_pos (by rfl)]
      exact hrest
    | cleanupExpiredCooldowns e =>
      rw [List.filter_cons_of_pos (by rfl)]
      exact hrest
    | onEpochBoundary e =>
      rw [List.filter_cons_of_neg (by simp [isBoundary])]
      exact hrest

end Hooked

/-- In every run, calls of the hook change neither the flags nor the counts of critical events if every
critical event is undisturbed; in a build without overflow checks this is also necessary. -/
theorem boundary_decay_agrees_iff (p : SlashPercents) (ops : List SlashingOp) :
    (∀ checks, Run.Meets (Hooked.apply checks p) Hooked.Undisturbed Hooked.new ops →
      Run.Meets (Hooked.apply checks p) (Hooked.Agrees checks p) Hooked.new ops ∧
      ejections checks p new ops = ejections checks p new (ops.filter fun op => !isBoundary op)) ∧
    (Run.Meets (Hooked.apply false p) (Hooked.Agrees false p) Hooked.new ops ↔
      Run.Meets (Hooked.apply false p) Hooked.Undisturbed Hooked.new ops) := by
  have hagrees : ∀ checks, Run.Meets (Hooked.apply checks p) Hooked.Undisturbed Hooked.new ops →
      Run.Meets (Hooked.apply checks p) (Hooked.Agrees checks p) Hooked.new ops := by
    intro checks hu
    exact Run.meets_of_inv (Hooked.apply checks p) _ _ Hooked.Lagging
      (fun s op h _ => s.apply_lagging checks p op h) (fun s op h hop => s.agrees_of_undisturbed checks p op h hop)
      _ _ Hooked.lagging_new hu
  refine ⟨fun checks hu => ⟨hagrees checks hu, Hooked.ejections_of_agrees checks p _ _ (hagrees checks hu)⟩, ?_, hagrees false⟩
  intro ha
  exact Run.meets_of_inv (Hooked.apply false p) _ _ Hooked.Lagging
    (fun s op h _ => s.apply_lagging false p op h) (fun s op h hop => s.undisturbed_of_agrees p op h hop)
    _ _ Hooked.lagging_new ha

/-- A critical event of the validator with id 1. -/
def sampleCritical (epoch : Nat) : SlashingOp :=
  .slashValidator ⟨1⟩ sampleDoubleSigning epoch 0 (sampleCredits 100 0 0 0) 1000

/-- Events at the epochs 0, 1, 28 and 29, the last of which ejects unless the hook has run twice. -/
theorem hook_spares_ejection :
    ejections true samplePercents new [sampleCritical 0, sampleCritical 1, .onEpochBoundary 27, .onEpochBoundary 28,
        sampleCritical 28, sampleCritical 29] = [false, false, false, false] ∧
    ejections true samplePercents new [sampleCritical 0, sampleCritical 1, sampleCritical 28, sampleCritical 29] =
      [false, false, false, true] := by
  decide

end SlashingManager

end Kratos
