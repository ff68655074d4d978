import Kratos.Consensus.SecurityState

/-!
# What the security state says of the validator counts

Runs of calls of `update` from a new tracker.  `warns_iff`: the state is at least as
severe as the table of validator counts asks for exactly if no call finds the tracker in
normal operation, or takes it there out of the bootstrap, with fewer than
`safeValidators`.  `bookkeeping_iff`: the flags, the subtractions, the reports and the
way back to normal operation are always sound; the recovery mode is entered after enough
calls in a row below `safeValidators` exactly if calls above it do not help to fill the
count of the degraded state.
-/

namespace Kratos

namespace SecurityStateTracker

@[simp] theorem foldl_apply_concat (t : SecurityStateTracker) (us : List SecurityUpdate) (u : SecurityUpdate) :
    (us ++ [u]).foldl apply t = (us.foldl apply t).apply u := by
  rw [List.foldl_append]
  rfl

theorem apply_next (t : SecurityStateTracker) (u : SecurityUpdate) : Next t u t.state (t.apply u).state :=
  (outcome_follows t u).next

/-- What every call keeps, every run keeps. -/
theorem foldl_apply_of (Inv : SecurityStateTracker → Prop) (hstep : ∀ t u, Inv t → Inv (t.apply u))
    (t : SecurityStateTracker) (us : List SecurityUpdate) (h : Inv t) : Inv (us.foldl apply t) :=
  Run.inv_foldl apply (fun _ _ => True) Inv (fun s u hs _ => hstep s u hs) t us h
    (Run.meets_of_forall _ _ (fun _ _ => trivial) _ _)

/-- What no call changes. -/
def SameSettings (t s : SecurityStateTracker) : Prop :=
  s.config = t.config ∧ s.minValidators = t.minValidators ∧
    s.absoluteMinValidators = t.absoluteMinValidators

theorem sameSettings_foldl (t : SecurityStateTracker) (us : List SecurityUpdate) :
    SameSettings t (us.foldl apply t) := by
  refine foldl_apply_of (SameSettings t) ?_ t us ⟨rfl, rfl, rfl⟩
  rintro s u ⟨h₁, h₂, h₃⟩
  have hf := outcome_follows s u
  exact ⟨hf.config.trans h₁, hf.minValidators.trans h₂, hf.absolute.trans h₃⟩

theorem flags_foldl (completed : Bool) (minValidators : Nat) (config : DegradedSecurityConfig)
    (us : List SecurityUpdate) : Flags (us.foldl apply (start completed minValidators config)) := by
  refine foldl_apply_of Flags (fun t u => (outcome_follows t u).flags) _ us ?_
  cases completed <;> simp [flags_iff, start, new, postBootstrap, NetworkSecurityState.kind]

theorem booted_foldl (completed : Bool) (minValidators : Nat) (config : DegradedSecurityConfig)
    (us : List SecurityUpdate) : Booted (us.foldl apply (start completed minValidators config)) := by
  refine foldl_apply_of Booted (fun t u => (outcome_follows t u).booted) _ us ?_
  cases completed <;> simp [Booted, start, new, postBootstrap, NetworkSecurityState.kind]

/-! ## Severity -/

end SecurityStateTracker

/-- Normal operation, then the degraded states, then the restricted and the emergency state. -/
def StateKind.severity : StateKind → Nat
  | bootstrap => 0
  | normal => 0
  | degraded => 1
  | recovery => 1
  | restricted => 2
  | emergency => 3

/-- The table of validator counts. -/
def requiredSeverity (validators : Nat) : Nat :=
  if validators < emergencyValidators then 3
  else if validators < postBootstrapMinValidators then 2
  else if validators < safeValidators then 1
  else 0

theorem requiredSeverity_le_zero (v : Nat) : requiredSeverity v ≤ 0 ↔ safeValidators ≤ v := by
  unfold requiredSeverity emergencyValidators postBootstrapMinValidators safeValidators
  split_ifs <;> omega

theorem requiredSeverity_le_one (v : Nat) : requiredSeverity v ≤ 1 ↔ postBootstrapMinValidators ≤ v := by
  unfold requiredSeverity emergencyValidators postBootstrapMinValidators safeValidators
  split_ifs <;> omega

theorem requiredSeverity_le_two (v : Nat) : requiredSeverity v ≤ 2 ↔ emergencyValidators ≤ v := by
  unfold requiredSeverity emergencyValidators postBootstrapMinValidators safeValidators
  split_ifs <;> omega

theorem requiredSeverity_le_three (v : Nat) : requiredSeverity v ≤ 3 := by
  unfold requiredSeverity
  split_ifs <;> omega

namespace SecurityStateTracker

/-- After the bootstrap, every call leaves a state that is severe enough for its validators. -/
def Warns (t : SecurityStateTracker) (us : List SecurityUpdate) : Prop :=
  ∀ pre u post, us = pre ++ u :: post → ((pre.foldl apply t).apply u).bootstrapCompleted = true →
    requiredSeverity u.validators ≤ ((pre.foldl apply t).apply u).state.kind.severity

/-- A call in normal operation, or one that ends the bootstrap, has enough validators. -/
def Safe (t : SecurityStateTracker) (u : SecurityUpdate) : Prop :=
  match t.state with
  | .normal => safeValidators ≤ u.validators
  | .bootstrap =>
    u.bootstrapConfig.endEpoch ≤ u.epoch → t.minValidators ≤ u.validators → safeValidators ≤ u.validators
  | _ => True

/-- One call, with the thresholds of the default configuration. -/
theorem severity_next_iff (t : SecurityStateTracker) (u : SecurityUpdate) (s : NetworkSecurityState)
    (hn : Next t u t.state s) (hmin : t.minValidators = 50) (habs : t.absoluteMinValidators = 25)
    (hgrace : t.config.floorGraceEpochs = 1) :
    (s.kind ≠ .bootstrap → requiredSeverity u.validators ≤ s.kind.severity) ↔ Safe t u := by
  unfold Safe
  generalize t.state = r at hn
  cases hn with
  | exit hepoch hv =>
    show (StateKind.normal ≠ .bootstrap → _ ≤ 0) ↔ _
    rw [requiredSeverity_le_zero]
    simp [hepoch, hv]
  | wait h =>
    show (StateKind.bootstrap ≠ .bootstrap → _) ↔ _
    constructor
    · intro _ hepoch hv
      exact absurd ⟨hepoch, hv⟩ h
    · intro _ hne
      exact absurd rfl hne
  | halt hlow hvery =>
    show (StateKind.restricted ≠ .bootstrap → _ ≤ 2) ↔ _
    rw [requiredSeverity_le_two]
    simp only [ne_eq, reduceCtorEq, not_false_eq_true, forall_const, emergencyValidators, safeValidators]
    omega
  | degrade hlow hvery =>
    show (StateKind.degraded ≠ .bootstrap → _ ≤ 1) ↔ _
    rw [requiredSeverity_le_one]
    simp only [ne_eq, reduceCtorEq, not_false_eq_true, forall_const, postBootstrapMinValidators, safeValidators]
    omega
  | grace hlow hwait => omega
  | enough hv =>
    show (StateKind.normal ≠ .bootstrap → _ ≤ 0) ↔ _
    rw [requiredSeverity_le_zero]
    simp
  -- The other branches ask for the thresholds of the table.
  | degradedEmergency | haltEmergency | emergencyRemain | recoveryEmergency =>
    exact iff_of_true (fun _ => requiredSeverity_le_three _) trivial
  | degradedRestrict _ _ _ _ _ hlow | recoveryRestrict _ _ _ _ hlow | haltRemain _ _ _ _ hlow
  | leaveEmergency _ _ _ _ hlow =>
    exact iff_of_true (fun _ => (requiredSeverity_le_two _).mpr hlow) trivial
  | collapse _ _ _ _ _ hlow | persist _ _ _ _ _ hlow | release _ _ _ _ hlow | recoveryRemain _ _ _ _ hlow =>
    exact iff_of_true (fun _ => (requiredSeverity_le_one _).mpr hlow) trivial
  | recovering _ _ _ _ _ hv | releaseSafe _ _ _ _ hv | recovered _ _ _ _ hv =>
    have hlow : postBootstrapMinValidators ≤ u.validators := Nat.le_trans (by decide) hv
    exact iff_of_true (fun _ => (requiredSeverity_le_one _).mpr hlow) trivial
  | recover _ _ _ _ _ hv =>
    exact iff_of_true (fun _ => (requiredSeverity_le_zero _).mpr hv) trivial

/-- **The state is severe enough along a run exactly if every call in normal operation or out of
the bootstrap has enough validators.** -/
theorem warns_iff (completed : Bool) (us : List SecurityUpdate) :
    Warns (start completed postBootstrapMinValidators .default) us ↔
      Run.Meets apply Safe (start completed postBootstrapMinValidators .default) us := by
  rw [Run.meets_iff_split]
  refine forall_congr' fun pre => forall_congr' fun u => forall_congr' fun post => imp_congr_right fun _ => ?_
  have hbooted : Booted _ := booted_foldl completed postBootstrapMinValidators .default (pre ++ [u])
  obtain ⟨hconfig, hmin, habs⟩ := sameSettings_foldl (start completed postBootstrapMinValidators .default) pre
  rw [Booted, foldl_apply_concat] at hbooted
  rw [hbooted]
  refine severity_next_iff _ u _ (apply_next _ u) (hmin.trans ?_) (habs.trans ?_) ?_
  · cases completed <;> rfl
  · cases completed <;> rfl
  · rw [hconfig]
    cases completed <;> rfl

/-- From normal operation the emergency is reported as a restriction only. -/
theorem emergency_reported_as_restricted :
    ¬ Warns (start true postBootstrapMinValidators .default)
      [SecurityUpdate.mk 1500 10 BootstrapConfig.mainnetConfig 0] := by
  intro h
  have := h [] _ [] rfl (by decide)
  exact absurd this (by decide)

/-! ## Counters and subtractions -/

def atSafe (u : SecurityUpdate) : Bool := decide (safeValidators ≤ u.validators)

def belowSafe (u : SecurityUpdate) : Bool := decide (u.validators < safeValidators)

theorem streak_atSafe_concat (us : List SecurityUpdate) (u : SecurityUpdate)
    (hv : safeValidators ≤ u.validators) : Run.streak atSafe (us ++ [u]) = Run.streak atSafe us + 1 := by
  rw [Run.streak_concat, if_pos (show atSafe u = true from decide_eq_true hv)]

/-- The counters of the degraded state and the calls so far. -/
def Counted (us : List SecurityUpdate) : NetworkSecurityState → Prop
  | .degradedSecurityMode _ inDsm _ _ consecutive => inDsm < us.length ∧ consecutive ≤ Run.streak atSafe us
  | _ => True

theorem counted_next (t : SecurityStateTracker) (u : SecurityUpdate) (us : List SecurityUpdate)
    (r s : NetworkSecurityState) (hn : Next t u r s) (h : Counted us r) : Counted (us ++ [u]) s := by
  have hlen : (us ++ [u]).length = us.length + 1 := by simp
  cases hn with
  | degrade | release =>
    refine ⟨?_, Nat.zero_le _⟩
    omega
  | persist _ inDsm =>
    have hin : inDsm < us.length := h.1
    refine ⟨?_, Nat.zero_le _⟩
    omega
  | recovering _ _ _ _ _ hv =>
    refine ⟨?_, ?_⟩
    · rw [hlen]
      exact Nat.succ_lt_succ h.1
    · rw [streak_atSafe_concat us u hv]
      exact Nat.succ_le_succ h.2
  | releaseSafe _ _ _ _ hv | recovered _ _ _ _ hv =>
    refine ⟨by omega, ?_⟩
    rw [streak_atSafe_concat us u hv]
    exact Nat.succ_le_succ (Nat.zero_le _)
  | _ => trivial

theorem counted_foldl (completed : Bool) (minValidators : Nat) (config : DegradedSecurityConfig)
    (us : List SecurityUpdate) :
    Counted us (us.foldl apply (start completed minValidators config)).state := by
  induction us using List.reverseRecOn with
  | nil => cases completed <;> exact trivial
  | append_singleton us u ih =>
    rw [foldl_apply_concat]
    exact counted_next _ u us _ _ (apply_next _ u) ih

/-- The validators needed are what is missing to the minimum of the tracker or to
`safeValidators`. -/
def Exact (t : SecurityStateTracker) : Prop :=
  match t.state with
  | .degradedSecurityMode _ _ current needed _ =>
    current + needed = t.minValidators ∨ current + needed = safeValidators ∨
      safeValidators ≤ current ∧ needed = 0
  | .bootstrapRecoveryMode _ _ current needed => current + needed = safeValidators
  | _ => True

theorem exact_apply (t : SecurityStateTracker) (u : SecurityUpdate) : Exact (t.apply u) := by
  have hn := apply_next t u
  unfold Exact
  rw [show (t.apply u).minValidators = t.minValidators from (outcome_follows t u).minValidators]
  generalize (t.apply u).state = s at hn
  generalize t.state = r at hn
  cases hn with
  | degrade hmin => exact .inl (add_subU32 _ _ (Nat.le_of_lt hmin))
  | persist _ _ _ _ _ _ hv | release _ _ _ _ _ hv => exact .inr (.inl (add_subU32 _ _ (Nat.le_of_lt hv)))
  | recovering _ _ _ _ _ hv | releaseSafe _ _ _ _ hv | recovered _ _ _ _ hv => exact .inr (.inr ⟨hv, rfl⟩)
  | collapse _ _ _ _ _ _ hv | recoveryRemain _ _ _ _ _ hv => exact add_subU32 _ _ (Nat.le_of_lt hv)
  | _ => trivial

theorem exact_foldl (completed : Bool) (minValidators : Nat) (config : DegradedSecurityConfig)
    (us : List SecurityUpdate) : Exact (us.foldl apply (start completed minValidators config)) := by
  refine foldl_apply_of Exact (fun t u _ => exact_apply t u) _ us ?_
  cases completed <;> exact trivial

/-! ## Bookkeeping -/

/-- The books of a tracker along a run. -/
structure Bookkeeping (t : SecurityStateTracker) (us : List SecurityUpdate) : Prop where
  flags : ∀ k, Flags ((us.take k).foldl apply t)
  left : ∀ i j, i ≤ j → ((us.take i).foldl apply t).bootstrapCompleted = true →
    ((us.take j).foldl apply t).state ≠ .bootstrap
  exact : ∀ k, Exact ((us.take k).foldl apply t)
  recovered : ∀ pre u post, us = pre ++ u :: post → (pre.foldl apply t).state.kind = .degraded →
    ((pre.foldl apply t).apply u).state.kind = .normal →
    t.config.normalRecoveryEpochs ≤ Run.streak atSafe (pre ++ [u])
  collapsed : ∀ pre u post, us = pre ++ u :: post → (pre.foldl apply t).state.kind ≠ .recovery →
    ((pre.foldl apply t).apply u).state.kind = .recovery →
    t.config.collapseDetectionEpochs ≤ Run.streak belowSafe (pre ++ [u])
  reported : ∀ pre u post, us = pre ++ u :: post → ((pre.foldl apply t).outcome u).2 =
    if ((pre.foldl apply t).apply u).state.kind = (pre.foldl apply t).state.kind then none
    else some ((pre.foldl apply t).apply u).state

/-- The degraded state has lasted long enough for a call to enter the recovery mode. -/
def Collapses (t : SecurityStateTracker) (u : SecurityUpdate) : Prop :=
  match t.state with
  | .degradedSecurityMode _ inDsm _ _ _ =>
    t.config.collapseDetectionEpochs ≤ inDsm ∧ postBootstrapMinValidators ≤ u.validators ∧
      u.validators < safeValidators
  | _ => False

/-- No such call comes less than `collapseDetectionEpochs` calls after one with enough validators. -/
def Undisturbed (t : SecurityStateTracker) (us : List SecurityUpdate) : Prop :=
  ∀ pre w mid u post, us = pre ++ w :: (mid ++ u :: post) → safeValidators ≤ w.validators →
    mid.length + 1 < t.config.collapseDetectionEpochs → ¬ Collapses ((pre ++ w :: mid).foldl apply t) u

/-- The recovery mode is entered by such calls only. -/
theorem enters_recovery_iff (t : SecurityStateTracker) (u : SecurityUpdate) (hr : t.state.kind ≠ .recovery) :
    (t.apply u).state.kind = .recovery ↔ Collapses t u := by
  have hn := apply_next t u
  unfold Collapses
  generalize (t.apply u).state = s at hn
  generalize t.state = r at hn hr
  cases hn with
  | collapse _ _ _ _ _ hlow hv hlong => exact iff_of_true rfl ⟨hlong, hlow, hv⟩
  | degradedEmergency _ _ _ _ _ hv =>
    have hmin : u.validators < postBootstrapMinValidators := Nat.lt_trans hv (by decide)
    exact iff_of_false nofun fun h => Nat.not_le.mpr hmin h.2.1
  | degradedRestrict _ _ _ _ _ _ hv => exact iff_of_false nofun fun h => Nat.not_le.mpr hv h.2.1
  | recover _ _ _ _ _ hv | recovering _ _ _ _ _ hv =>
    exact iff_of_false nofun fun h => Nat.not_le.mpr h.2.2 hv
  | persist _ _ _ _ _ _ _ hshort => exact iff_of_false nofun fun h => Nat.not_le.mpr hshort h.1
  | recoveryEmergency | recoveryRestrict | recovered | recoveryRemain => exact absurd rfl hr
  | _ => exact iff_of_false nofun id

/-- Back to normal operation only after enough calls in a row with enough validators. -/
theorem recovered_streak (t : SecurityStateTracker) (u : SecurityUpdate) (us : List SecurityUpdate)
    (hc : Counted us t.state) (hd : t.state.kind = .degraded) (hs : (t.apply u).state.kind = .normal) :
    t.config.normalRecoveryEpochs ≤ Run.streak atSafe (us ++ [u]) := by
  have hn := apply_next t u
  generalize (t.apply u).state = s at hn hs
  generalize t.state = r at hn hd hc
  cases hn with
  | recover _ _ _ _ _ hv hlong =>
    rw [streak_atSafe_concat us u hv]
    exact Nat.le_trans hlong (Nat.succ_le_succ hc.2)
  | grace | enough | exit => cases hd
  | _ => cases hs

/-- No call leads back to the bootstrap. -/
theorem kind_apply_ne_bootstrap (t : SecurityStateTracker) (u : SecurityUpdate)
    (h : t.state.kind ≠ .bootstrap) : (t.apply u).state.kind ≠ .bootstrap := by
  have hn := apply_next t u
  generalize (t.apply u).state = s at hn
  generalize t.state = r at hn h
  cases hn with
  | wait => exact absurd rfl h
  | _ => nofun

theorem kind_take_ne_bootstrap (t : SecurityStateTracker) (us : List SecurityUpdate) (i j : Nat) (hij : i ≤ j) :
    ((us.take i).foldl apply t).state.kind ≠ .bootstrap → ((us.take j).foldl apply t).state.kind ≠ .bootstrap :=
  Run.rel_take apply (fun _ _ => True) (fun _ => True)
    (fun s r => s.state.kind ≠ .bootstrap → r.state.kind ≠ .bootstrap) (fun _ h => h)
    (fun _ _ _ h₁ h₂ h => h₂ (h₁ h)) (fun _ _ _ _ => trivial)
    (fun s u _ _ => kind_apply_ne_bootstrap s u) t us trivial
    (Run.meets_of_forall _ _ (fun _ _ => trivial) _ _) i j hij

theorem Collapses.degraded (t : SecurityStateTracker) (u : SecurityUpdate) (h : Collapses t u) :
    t.state.kind = .degraded := by
  unfold Collapses at h
  generalize t.state = r at h
  cases r with
  | degradedSecurityMode => rfl
  | _ => exact h.elim

/-- A call that enters the recovery mode has had enough calls before it. -/
theorem Collapses.long (t : SecurityStateTracker) (u : SecurityUpdate) (us : List SecurityUpdate)
    (hc : Counted us t.state) (h : Collapses t u) : t.config.collapseDetectionEpochs < us.length := by
  unfold Collapses at h
  generalize t.state = r at h hc
  cases r with
  | degradedSecurityMode _ inDsm _ _ _ => exact Nat.lt_of_le_of_lt h.1 hc.1
  | _ => exact h.elim

theorem Collapses.below (t : SecurityStateTracker) (u : SecurityUpdate) (h : Collapses t u) :
    belowSafe u = true := by
  unfold Collapses at h
  generalize t.state = r at h
  cases r with
  | degradedSecurityMode => exact decide_eq_true h.2.2
  | _ => exact h.elim

/-- The calls up to it are below `safeValidators` for long enough exactly if none of the last ones
before it is above. -/
theorem collapsed_streak_iff (n : Nat) (pre : List SecurityUpdate) (u : SecurityUpdate)
    (hn : n < pre.length) (hu : belowSafe u = true) :
    n ≤ Run.streak belowSafe (pre ++ [u]) ↔
      ∀ a w mid, pre = a ++ w :: mid → safeValidators ≤ w.validators → ¬ mid.length + 1 < n := by
  rw [Run.le_streak_iff belowSafe _ n (by rw [List.length_append]; omega)]
  constructor
  · rintro h a w mid rfl hw hshort
    have hbelow := h a w (mid ++ [u]) (by simp) (by simpa using hshort)
    exact Nat.not_le.mpr (of_decide_eq_true hbelow) hw
  · intro h a w post heq hpost
    rcases (Run.concat_eq_split_iff pre a post w u).mp heq with ⟨-, rfl, -⟩ | ⟨mid, rfl, hpre⟩
    · exact hu
    · rw [List.length_append] at hpost
      by_contra hw
      exact h a w mid hpre (Nat.le_of_not_lt fun hlt => hw (decide_eq_true hlt)) hpost

/-- **The books are kept exactly if no call enters the recovery mode too soon after one with enough
validators.** -/
theorem bookkeeping_iff (completed : Bool) (minValidators : Nat) (config : DegradedSecurityConfig)
    (us : List SecurityUpdate) :
    Bookkeeping (start completed minValidators config) us ↔
      Undisturbed (start completed minValidators config) us := by
  have hcounted := counted_foldl completed minValidators config
  have hflags := flags_foldl completed minValidators config
  have hbooted := booted_foldl completed minValidators config
  have hexact := exact_foldl completed minValidators config
  generalize start completed minValidators config = t at *
  have hconfig : ∀ pre : List SecurityUpdate, (pre.foldl apply t).config = t.config :=
    fun pre => (sameSettings_foldl t pre).1
  constructor
  · intro h pre w mid u post heq hw hshort hcol
    have hsplit : us = (pre ++ w :: mid) ++ u :: post := by simpa using heq
    have hkind := hcol.degraded
    have hne : ((pre ++ w :: mid).foldl apply t).state.kind ≠ .recovery := by
      rw [hkind]
      nofun
    have hlong := hcol.long _ _ _ (hcounted (pre ++ w :: mid))
    rw [hconfig] at hlong
    have hstreak := h.collapsed _ u post hsplit hne ((enters_recovery_iff _ u hne).mpr hcol)
    exact (collapsed_streak_iff _ _ u hlong (hcol.below)).mp hstreak pre w mid rfl hw hshort
  · intro h
    refine ⟨fun k => hflags _, ?_, fun k => hexact _, ?_, ?_, ?_⟩
    · intro i j hij hi hj
      have hj' := kind_take_ne_bootstrap t us i j hij ((hbooted _).mp hi)
      rw [hj] at hj'
      exact hj' rfl
    · intro pre u post _ hd hs
      rw [← hconfig pre]
      exact recovered_streak _ u pre (hcounted pre) hd hs
    · intro pre u post heq hne hs
      have hcol := (enters_recovery_iff _ u hne).mp hs
      have hlong := hcol.long _ _ _ (hcounted pre)
      rw [hconfig] at hlong
      refine (collapsed_streak_iff _ pre u hlong hcol.below).mpr ?_
      rintro a w mid rfl hw hshort
      exact h a w mid u post (by simpa using heq) hw hshort hcol
    · intro pre u post _
      exact (outcome_follows _ u).reported

/-- One call below the minimum, ten with enough validators, and one below again: the last call is
taken for a collapse. -/
theorem recovery_after_ten_safe_epochs :
    ¬ Bookkeeping (start true postBootstrapMinValidators .default)
      (SecurityUpdate.mk 1500 40 BootstrapConfig.mainnetConfig 0 ::
        (List.range 10).map (fun i => SecurityUpdate.mk (1501 + i) 80 BootstrapConfig.mainnetConfig 0) ++
        [SecurityUpdate.mk 1511 60 BootstrapConfig.mainnetConfig 0]) := by
  intro h
  have hstreak := h.collapsed _ _ [] rfl (by decide) (by decide)
  exact absurd hstreak (by decide)

end SecurityStateTracker

end Kratos
