import Kratos.Consensus.SecurityHistory

/-!
# Leaving the bootstrap

Three rules speak of the end of the bootstrap: `isBootstrap` looks at the epoch alone and
picks the minimum stake and the credit multipliers, `shouldExitBootstrap` and
`getBootstrapStatus` come down to the number of validators, and the tracker asks for both
the epoch and the validators.

`bootstrap_exit_rules` puts them side by side: the tracker leaves exactly where the first
two allow it, and a tracker that has left is never met by bootstrap economics.
-/

namespace Kratos

inductive BootstrapStatus where
  | active (epochsRemaining validatorsNeeded : Nat)
  | extended (epochsOverdue validatorsNeeded : Nat)
  | completed
deriving DecidableEq, Repr

namespace BootstrapConfig

section Rules

variable (c : BootstrapConfig) (currentEpoch activeValidators : Nat) (totalStake : Balance)

/-- By the epoch only. -/
def isBootstrap : Bool := currentEpoch < c.endEpoch

/-- Any of the three conditions, and never with too few validators. -/
def shouldExitBootstrap : Bool :=
  if activeValidators < c.minValidatorsExit then false
  else
    currentEpoch ≥ c.endEpoch || activeValidators ≥ c.minValidatorsExit || totalStake ≥ c.minStakeTotalExit

def isExtendedBootstrap : Bool := currentEpoch ≥ c.endEpoch && activeValidators < c.minValidatorsExit

def getBootstrapStatus : BootstrapStatus :=
  if c.shouldExitBootstrap currentEpoch activeValidators totalStake then .completed
  else if c.isExtendedBootstrap currentEpoch activeValidators then
    .extended (currentEpoch - c.endEpoch) (c.minValidatorsExit - activeValidators)
  else .active (c.endEpoch - currentEpoch) (c.minValidatorsExit - activeValidators)

def getMinStake : Balance :=
  if c.isBootstrap currentEpoch then c.minStakeBootstrap else c.minStakePostBootstrap

/-- A credit multiplier counts in the bootstrap only. -/
def multiplierAt (multiplier : Nat) : Nat := if c.isBootstrap currentEpoch then multiplier else 1

def getVoteMultiplier : Nat := c.multiplierAt currentEpoch c.vcVoteMultiplier
def getUptimeMultiplier : Nat := c.multiplierAt currentEpoch c.vcUptimeMultiplier
def getArbitrationMultiplier : Nat := c.multiplierAt currentEpoch c.vcArbitrationMultiplier

end Rules

/-- The stake and the credits of an epoch are those after the bootstrap. -/
structure PostBootstrap (c : BootstrapConfig) (epoch : Nat) : Prop where
  era : c.isBootstrap epoch = false
  minStake : c.getMinStake epoch = c.minStakePostBootstrap
  vote : c.getVoteMultiplier epoch = 1
  uptime : c.getUptimeMultiplier epoch = 1
  arbitration : c.getArbitrationMultiplier epoch = 1

variable (c : BootstrapConfig) (epoch validators : Nat) (stake : Balance)

theorem isBootstrap_eq_false_iff : c.isBootstrap epoch = false ↔ c.endEpoch ≤ epoch := by
  simp [isBootstrap]

/-- The other two conditions are never decisive. -/
theorem shouldExitBootstrap_iff :
    c.shouldExitBootstrap epoch validators stake = true ↔ c.minValidatorsExit ≤ validators := by
  unfold shouldExitBootstrap
  split
  · next h =>
    have hlow : ¬ c.minValidatorsExit ≤ validators := by omega
    simp [hlow]
  · next h =>
    have hmet : c.minValidatorsExit ≤ validators := by omega
    simp [hmet]

theorem getBootstrapStatus_completed_iff :
    c.getBootstrapStatus epoch validators stake = .completed ↔
      c.shouldExitBootstrap epoch validators stake = true := by
  unfold getBootstrapStatus
  split
  · next h => simp [h]
  · next h =>
    split <;> simp [h]

theorem postBootstrap_of_le (h : c.endEpoch ≤ epoch) : c.PostBootstrap epoch := by
  have hera : c.isBootstrap epoch = false := (c.isBootstrap_eq_false_iff epoch).2 h
  have hmul : ∀ m, c.multiplierAt epoch m = 1 := by
    intro m
    simp [multiplierAt, hera]
  exact ⟨hera, by simp [getMinStake, hera], hmul _, hmul _, hmul _⟩

end BootstrapConfig

namespace SecurityStateTracker

/-- The tracker waits for the epoch and for the validators. -/
theorem update_bootstrap_iff (t : SecurityStateTracker) (c : BootstrapConfig) (epoch validators : Nat)
    (stake : Balance) (ht : t.state = .bootstrap) :
    (t.update epoch validators c stake).1.state ≠ .bootstrap ↔
      c.endEpoch ≤ epoch ∧ t.minValidators ≤ validators := by
  unfold update updateBootstrap
  rw [ht]
  show (if c.endEpoch ≤ epoch ∧ t.minValidators ≤ validators then _ else _ : Outcome).1.state ≠ _ ↔ _
  split
  · next h => exact ⟨fun _ => h, fun _ => nofun⟩
  · next h => exact ⟨fun hs => absurd ht hs, fun hc => absurd hc h⟩

/-- The epoch at which the bootstrap ends is among those of the calls. -/
theorem endEpoch_le_of_left (c : BootstrapConfig) (minValidators : Nat) (config : DegradedSecurityConfig)
    (us : List SecurityUpdate) (hc : ∀ u ∈ us, u.bootstrapConfig = c)
    (hleft : (us.foldl apply (new minValidators config)).state ≠ .bootstrap) :
    ∃ u ∈ us, c.endEpoch ≤ u.epoch := by
  induction us using List.reverseRecOn with
  | nil => exact absurd rfl hleft
  | append_singleton us u ih =>
    rw [foldl_apply_concat] at hleft
    by_cases hs : (us.foldl apply (new minValidators config)).state = .bootstrap
    · -- the last call takes it out
      have hexit := ((update_bootstrap_iff _ u.bootstrapConfig u.epoch u.validators u.totalStake hs).1 hleft).1
      have hu : u ∈ us ++ [u] := by simp
      exact ⟨u, hu, by rwa [hc u hu] at hexit⟩
    · obtain ⟨u', hu', he⟩ := ih (fun u' hu' => hc u' (List.mem_append_left _ hu')) hs
      exact ⟨u', List.mem_append_left _ hu', he⟩

/-- Where the rules on the end of the bootstrap agree: a tracker in the bootstrap leaves
it exactly if `shouldExitBootstrap` allows it and `isBootstrap` is over; the status is
completed exactly if `shouldExitBootstrap` allows it, which the validators decide.  With
the epoch and the validators both there, all of them are out, and in every run the
economics are those after the bootstrap once the tracker has left. -/
theorem bootstrap_exit_rules (c : BootstrapConfig) :
    (∀ (t : SecurityStateTracker) (epoch validators : Nat) (stake : Balance),
      c.minValidatorsExit = t.minValidators → t.state = .bootstrap →
      ((t.update epoch validators c stake).1.state ≠ .bootstrap ↔
        c.shouldExitBootstrap epoch validators stake = true ∧ c.isBootstrap epoch = false) ∧
      (c.getBootstrapStatus epoch validators stake = .completed ↔
        c.shouldExitBootstrap epoch validators stake = true) ∧
      (c.shouldExitBootstrap epoch validators stake = true ↔ t.minValidators ≤ validators) ∧
      (c.endEpoch ≤ epoch → t.minValidators ≤ validators →
        (t.update epoch validators c stake).1.state ≠ .bootstrap ∧
        c.shouldExitBootstrap epoch validators stake = true ∧
        c.getBootstrapStatus epoch validators stake = .completed ∧ c.isBootstrap epoch = false)) ∧
    (∀ (config : DegradedSecurityConfig) (us : List SecurityUpdate) (epoch : Nat),
      (∀ u ∈ us, u.bootstrapConfig = c ∧ u.epoch ≤ epoch) →
      (us.foldl apply (new c.minValidatorsExit config)).state ≠ .bootstrap → c.PostBootstrap epoch) := by
  constructor
  · intro t epoch validators stake hmin ht
    have hleave := t.update_bootstrap_iff c epoch validators stake ht
    have hexit := c.shouldExitBootstrap_iff epoch validators stake
    have hstatus := c.getBootstrapStatus_completed_iff epoch validators stake
    have hera := c.isBootstrap_eq_false_iff epoch
    rw [hmin] at hexit
    refine ⟨?_, hstatus, hexit, ?_⟩
    · rw [hleave, hexit, hera, and_comm]
    · intro he hv
      exact ⟨hleave.2 ⟨he, hv⟩, hexit.2 hv, hstatus.2 (hexit.2 hv), hera.2 he⟩
  · intro config us epoch hus hleft
    obtain ⟨u, hu, he⟩ :=
      endEpoch_le_of_left c c.minValidatorsExit config us (fun u hu => (hus u hu).1) hleft
    exact c.postBootstrap_of_le epoch (le_trans he (hus u hu).2)

/-- The mainnet configuration with 50 validators at epoch 1440. -/
theorem bootstrap_exit_rules_mainnet :
    ((new 50 .default).update 1440 50 .mainnetConfig 0).1.state ≠ .bootstrap ∧
      BootstrapConfig.mainnetConfig.PostBootstrap 1440 := by
  have h := bootstrap_exit_rules .mainnetConfig
  refine ⟨(h.1 (new 50 .default) 1440 50 0 rfl rfl).1.2 (by decide), ?_⟩
  refine h.2 .default [⟨1440, 50, .mainnetConfig, 0⟩] 1440 (by simp) ?_
  decide

/-- With 50 validators at epoch 100 the configuration takes the bootstrap for completed,
and the tracker and the economics stay in it. -/
theorem completed_before_the_tracker :
    BootstrapConfig.mainnetConfig.minValidatorsExit = (new 50 .default).minValidators ∧
    BootstrapConfig.mainnetConfig.shouldExitBootstrap 100 50 0 = true ∧
    BootstrapConfig.mainnetConfig.getBootstrapStatus 100 50 0 = .completed ∧
    ((new 50 .default).update 100 50 .mainnetConfig 0).1.state = .bootstrap ∧
    BootstrapConfig.mainnetConfig.isBootstrap 100 = true := by
  decide

end SecurityStateTracker

end Kratos
