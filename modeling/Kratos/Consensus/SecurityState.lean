import Kratos.Lib.Run
import Kratos.Types.Primitives

/-!
# The security state of the network

A tracker follows the number of active validators from epoch to epoch: out of the
bootstrap into normal operation, and through degraded, restricted (`safetyHaltMode`)
and emergency (`terminalMode`) states.  Epochs and validator counts are natural
numbers; the subtractions of counts wrap at 32 bits.  The record of past transitions
is left out.

`Next` is the transition relation of the state, and `outcome_follows` says that `update`
follows it, reports the changes and keeps the flags.
-/

namespace Kratos

def postBootstrapMinValidators : Nat := 50
def safeValidators : Nat := 75
def emergencyValidators : Nat := 25
def vMinAbsolute : Nat := emergencyValidators
def normalRecoveryEpochs : Nat := 100
def collapseDetectionEpochs : Nat := 10

/-- Subtraction of `u32`. -/
def subU32 (a b : Nat) : Nat := if b ≤ a then a - b else a + 2 ^ 32 - b

theorem add_subU32 (a b : Nat) (h : b ≤ a) : b + subU32 a b = a := by
  unfold subU32
  rw [if_pos h]
  omega

structure BootstrapConfig where
  genesisEpoch : Nat
  endEpoch : Nat
  minValidatorsExit : Nat
  minStakeTotalExit : Balance
  minStakeBootstrap : Balance
  minStakePostBootstrap : Balance
  vcVoteMultiplier : Nat
  vcUptimeMultiplier : Nat
  vcArbitrationMultiplier : Nat
deriving DecidableEq, Repr

def BootstrapConfig.mainnetConfig : BootstrapConfig :=
  { genesisEpoch := 0, endEpoch := 1440, minValidatorsExit := 50, minStakeTotalExit := 25000000 * krat
    minStakeBootstrap := 50000 * krat, minStakePostBootstrap := 25000 * krat, vcVoteMultiplier := 2
    vcUptimeMultiplier := 2, vcArbitrationMultiplier := 1 }

/-- The durations the tracker reads. -/
structure DegradedSecurityConfig where
  normalRecoveryEpochs : Nat
  collapseDetectionEpochs : Nat
  shmRecoveryEpochs : Nat
  floorGraceEpochs : Nat
deriving DecidableEq, Repr

def DegradedSecurityConfig.default : DegradedSecurityConfig :=
  { normalRecoveryEpochs := Kratos.normalRecoveryEpochs
    collapseDetectionEpochs := Kratos.collapseDetectionEpochs
    shmRecoveryEpochs := 1, floorGraceEpochs := 1 }

inductive NetworkSecurityState where
  | bootstrap
  | normal
  | degradedSecurityMode (enteredAt epochsInDsm currentValidators validatorsNeeded
      consecutiveEpochsAboveSafe : Nat)
  | safetyHaltMode (enteredAt epochsInShm currentValidators epochsWithoutFinality : Nat)
  | terminalMode (enteredAt epochsInTerminal currentValidators : Nat) (terminalStateRoot : Option Hash)
  | bootstrapRecoveryMode (enteredAt epochsInRecovery currentValidators validatorsNeeded : Nat)
deriving DecidableEq, Repr

/-- The states without their data. -/
inductive StateKind where
  | bootstrap
  | normal
  | degraded
  | restricted
  | emergency
  | recovery
deriving DecidableEq, Repr

def NetworkSecurityState.kind : NetworkSecurityState → StateKind
  | bootstrap => .bootstrap
  | normal => .normal
  | degradedSecurityMode .. => .degraded
  | safetyHaltMode .. => .restricted
  | terminalMode .. => .emergency
  | bootstrapRecoveryMode .. => .recovery

structure SecurityStateTracker where
  state : NetworkSecurityState
  config : DegradedSecurityConfig
  epochsBelowMinimum : Nat
  epochsAboveMinimumInDsm : Nat
  bootstrapCompleted : Bool
  minValidators : Nat
  absoluteMinValidators : Nat
  shmActive : Bool
  terminalActive : Bool
  bootstrapRecoveryActive : Bool
deriving DecidableEq, Repr

namespace SecurityStateTracker

def new (minValidators : Nat) (config : DegradedSecurityConfig) : SecurityStateTracker :=
  { state := .bootstrap, config, epochsBelowMinimum := 0, epochsAboveMinimumInDsm := 0
    bootstrapCompleted := false, minValidators, absoluteMinValidators := vMinAbsolute, shmActive := false
    terminalActive := false, bootstrapRecoveryActive := false }

def postBootstrap (minValidators : Nat) (config : DegradedSecurityConfig) : SecurityStateTracker :=
  { state := .normal, config, epochsBelowMinimum := 0, epochsAboveMinimumInDsm := 0
    bootstrapCompleted := true, minValidators, absoluteMinValidators := vMinAbsolute, shmActive := false
    terminalActive := false, bootstrapRecoveryActive := false }

/-! ## Update -/

/-- The tracker after a call and what it returns. -/
abbrev Outcome : Type := SecurityStateTracker × Option NetworkSecurityState

/-- A transition is reported. -/
def enter (t : SecurityStateTracker) : Outcome := (t, some t.state)

def stay (t : SecurityStateTracker) : Outcome := (t, none)

section Branches

variable (t : SecurityStateTracker) (currentEpoch activeValidators : Nat)

def updateBootstrap (bootstrapConfig : BootstrapConfig) : Outcome :=
  if currentEpoch ≥ bootstrapConfig.endEpoch ∧ activeValidators ≥ t.minValidators then
    enter { t with bootstrapCompleted := true, state := .normal }
  else stay t

/-- Only the two thresholds of the tracker are asked for. -/
def updateNormal : Outcome :=
  if activeValidators < t.minValidators then
    if t.epochsBelowMinimum + 1 ≥ t.config.floorGraceEpochs then
      if activeValidators < t.absoluteMinValidators then
        enter { t with state := .safetyHaltMode currentEpoch 0 activeValidators 0, shmActive := true
                       epochsBelowMinimum := 0 }
      else
        enter { t with
                state := .degradedSecurityMode currentEpoch 0 activeValidators
                  (subU32 t.minValidators activeValidators) 0
                epochsBelowMinimum := 0 }
    else stay { t with epochsBelowMinimum := t.epochsBelowMinimum + 1 }
  else stay { t with epochsBelowMinimum := 0 }

/-- Epochs with enough validators are counted among those in the degraded state. -/
def updateDegraded (entered inDsm consecutive : Nat) : Outcome :=
  if activeValidators < emergencyValidators then
    enter { t with state := .terminalMode currentEpoch 0 activeValidators none, terminalActive := true
                   shmActive := false, epochsAboveMinimumInDsm := 0 }
  else if activeValidators < postBootstrapMinValidators then
    enter { t with state := .safetyHaltMode currentEpoch 0 activeValidators 0, shmActive := true
                   epochsAboveMinimumInDsm := 0 }
  else if inDsm ≥ t.config.collapseDetectionEpochs ∧ activeValidators < safeValidators then
    enter { t with
            state := .bootstrapRecoveryMode currentEpoch 0 activeValidators
              (subU32 safeValidators activeValidators)
            bootstrapRecoveryActive := true, epochsAboveMinimumInDsm := 0 }
  else if activeValidators ≥ safeValidators then
    if consecutive + 1 ≥ t.config.normalRecoveryEpochs then
      enter { t with state := .normal, epochsAboveMinimumInDsm := 0 }
    else
      stay { t with
             state := .degradedSecurityMode entered (inDsm + 1) activeValidators 0 (consecutive + 1)
             epochsAboveMinimumInDsm := consecutive + 1 }
  else
    stay { t with
           state := .degradedSecurityMode entered (inDsm + 1) activeValidators
             (subU32 safeValidators activeValidators) 0
           epochsAboveMinimumInDsm := 0 }

def updateSafetyHalt (entered inShm noFinality : Nat) : Outcome :=
  if activeValidators < emergencyValidators then
    enter { t with state := .terminalMode currentEpoch 0 activeValidators none, terminalActive := true
                   shmActive := false }
  else if activeValidators ≥ postBootstrapMinValidators ∧ inShm ≥ t.config.shmRecoveryEpochs then
    if activeValidators ≥ safeValidators then
      enter { t with state := .degradedSecurityMode currentEpoch 0 activeValidators 0 1
                     epochsAboveMinimumInDsm := 1, shmActive := false }
    else
      enter { t with
              state := .degradedSecurityMode currentEpoch 0 activeValidators
                (subU32 safeValidators activeValidators) 0
              epochsAboveMinimumInDsm := 0, shmActive := false }
  else stay { t with state := .safetyHaltMode entered (inShm + 1) activeValidators (noFinality + 1) }

def updateTerminal (entered inTerminal : Nat) (stateRoot : Option Hash) : Outcome :=
  if activeValidators ≥ emergencyValidators then
    enter { t with state := .safetyHaltMode currentEpoch 0 activeValidators 0, shmActive := true
                   terminalActive := false }
  else stay { t with state := .terminalMode entered (inTerminal + 1) activeValidators stateRoot }

def updateBootstrapRecovery (entered inRecovery : Nat) : Outcome :=
  if activeValidators < emergencyValidators then
    enter { t with state := .terminalMode currentEpoch 0 activeValidators none, terminalActive := true
                   bootstrapRecoveryActive := false }
  else if activeValidators < postBootstrapMinValidators then
    enter { t with state := .safetyHaltMode currentEpoch 0 activeValidators 0, shmActive := true
                   bootstrapRecoveryActive := false }
  else if activeValidators ≥ safeValidators then
    enter { t with state := .degradedSecurityMode currentEpoch 0 activeValidators 0 1
                   epochsAboveMinimumInDsm := 1, bootstrapRecoveryActive := false }
  else
    stay { t with
           state := .bootstrapRecoveryMode entered (inRecovery + 1) activeValidators
             (subU32 safeValidators activeValidators) }

/-- The total stake is not asked for. -/
def update (bootstrapConfig : BootstrapConfig) (_totalStake : Balance) : Outcome :=
  match t.state with
  | .bootstrap => t.updateBootstrap currentEpoch activeValidators bootstrapConfig
  | .normal => t.updateNormal currentEpoch activeValidators
  | .degradedSecurityMode entered inDsm _ _ consecutive =>
    t.updateDegraded currentEpoch activeValidators entered inDsm consecutive
  | .safetyHaltMode entered inShm _ noFinality =>
    t.updateSafetyHalt currentEpoch activeValidators entered inShm noFinality
  | .terminalMode entered inTerminal _ stateRoot =>
    t.updateTerminal currentEpoch activeValidators entered inTerminal stateRoot
  | .bootstrapRecoveryMode entered inRecovery _ _ =>
    t.updateBootstrapRecovery currentEpoch activeValidators entered inRecovery

end Branches

end SecurityStateTracker

/-- The arguments of a call of `update`. -/
structure SecurityUpdate where
  epoch : Nat
  validators : Nat
  bootstrapConfig : BootstrapConfig
  totalStake : Balance

namespace SecurityStateTracker

def outcome (t : SecurityStateTracker) (u : SecurityUpdate) : Outcome :=
  t.update u.epoch u.validators u.bootstrapConfig u.totalStake

def apply (t : SecurityStateTracker) (u : SecurityUpdate) : SecurityStateTracker := (t.outcome u).1

/-- One of the two ways to make a tracker. -/
def start (completed : Bool) (minValidators : Nat) (config : DegradedSecurityConfig) : SecurityStateTracker :=
  if completed then postBootstrap minValidators config else new minValidators config

/-! ## What a call does -/

/-- The transitions of the state, one rule for each way through `update`. -/
inductive Next (t : SecurityStateTracker) (u : SecurityUpdate) :
    NetworkSecurityState → NetworkSecurityState → Prop
  | exit (hepoch : u.bootstrapConfig.endEpoch ≤ u.epoch) (hmin : t.minValidators ≤ u.validators) :
      Next t u .bootstrap .normal
  | wait (h : ¬ (u.bootstrapConfig.endEpoch ≤ u.epoch ∧ t.minValidators ≤ u.validators)) :
      Next t u .bootstrap .bootstrap
  | halt (hmin : u.validators < t.minValidators) (habs : u.validators < t.absoluteMinValidators) :
      Next t u .normal (.safetyHaltMode u.epoch 0 u.validators 0)
  | degrade (hmin : u.validators < t.minValidators) (habs : t.absoluteMinValidators ≤ u.validators) :
      Next t u .normal
        (.degradedSecurityMode u.epoch 0 u.validators (subU32 t.minValidators u.validators) 0)
  | grace (hmin : u.validators < t.minValidators)
      (hgrace : t.epochsBelowMinimum + 1 < t.config.floorGraceEpochs) : Next t u .normal .normal
  | enough (hmin : t.minValidators ≤ u.validators) : Next t u .normal .normal
  | degradedEmergency (entered inDsm current needed consecutive : Nat) (hv : u.validators < emergencyValidators) :
      Next t u (.degradedSecurityMode entered inDsm current needed consecutive)
        (.terminalMode u.epoch 0 u.validators none)
  | degradedRestrict (entered inDsm current needed consecutive : Nat)
      (hlow : emergencyValidators ≤ u.validators) (hv : u.validators < postBootstrapMinValidators) :
      Next t u (.degradedSecurityMode entered inDsm current needed consecutive)
        (.safetyHaltMode u.epoch 0 u.validators 0)
  | collapse (entered inDsm current needed consecutive : Nat)
      (hlow : postBootstrapMinValidators ≤ u.validators) (hv : u.validators < safeValidators)
      (hlong : t.config.collapseDetectionEpochs ≤ inDsm) :
      Next t u (.degradedSecurityMode entered inDsm current needed consecutive)
        (.bootstrapRecoveryMode u.epoch 0 u.validators (subU32 safeValidators u.validators))
  | recover (entered inDsm current needed consecutive : Nat) (hv : safeValidators ≤ u.validators)
      (hlong : t.config.normalRecoveryEpochs ≤ consecutive + 1) :
      Next t u (.degradedSecurityMode entered inDsm current needed consecutive) .normal
  | recovering (entered inDsm current needed consecutive : Nat) (hv : safeValidators ≤ u.validators) :
      Next t u (.degradedSecurityMode entered inDsm current needed consecutive)
        (.degradedSecurityMode entered (inDsm + 1) u.validators 0 (consecutive + 1))
  | persist (entered inDsm current needed consecutive : Nat)
      (hlow : postBootstrapMinValidators ≤ u.validators) (hv : u.validators < safeValidators)
      (hshort : inDsm < t.config.collapseDetectionEpochs) :
      Next t u (.degradedSecurityMode entered inDsm current needed consecutive)
        (.degradedSecurityMode entered (inDsm + 1) u.validators (subU32 safeValidators u.validators) 0)
  | haltEmergency (entered inShm current noFinality : Nat) (hv : u.validators < emergencyValidators) :
      Next t u (.safetyHaltMode entered inShm current noFinality) (.terminalMode u.epoch 0 u.validators none)
  | releaseSafe (entered inShm current noFinality : Nat) (hv : safeValidators ≤ u.validators) :
      Next t u (.safetyHaltMode entered inShm current noFinality)
        (.degradedSecurityMode u.epoch 0 u.validators 0 1)
  | release (entered inShm current noFinality : Nat)
      (hlow : postBootstrapMinValidators ≤ u.validators) (hv : u.validators < safeValidators) :
      Next t u (.safetyHaltMode entered inShm current noFinality)
        (.degradedSecurityMode u.epoch 0 u.validators (subU32 safeValidators u.validators) 0)
  | haltRemain (entered inShm current noFinality : Nat) (hv : emergencyValidators ≤ u.validators) :
      Next t u (.safetyHaltMode entered inShm current noFinality)
        (.safetyHaltMode entered (inShm + 1) u.validators (noFinality + 1))
  | leaveEmergency (entered inTerminal current : Nat) (stateRoot : Option Hash)
      (hv : emergencyValidators ≤ u.validators) :
      Next t u (.terminalMode entered inTerminal current stateRoot) (.safetyHaltMode u.epoch 0 u.validators 0)
  | emergencyRemain (entered inTerminal current : Nat) (stateRoot : Option Hash)
      (hv : u.validators < emergencyValidators) :
      Next t u (.terminalMode entered inTerminal current stateRoot)
        (.terminalMode entered (inTerminal + 1) u.validators stateRoot)
  | recoveryEmergency (entered inRecovery current needed : Nat) (hv : u.validators < emergencyValidators) :
      Next t u (.bootstrapRecoveryMode entered inRecovery current needed)
        (.terminalMode u.epoch 0 u.validators none)
  | recoveryRestrict (entered inRecovery current needed : Nat)
      (hlow : emergencyValidators ≤ u.validators) (hv : u.validators < postBootstrapMinValidators) :
      Next t u (.bootstrapRecoveryMode entered inRecovery current needed)
        (.safetyHaltMode u.epoch 0 u.validators 0)
  | recovered (entered inRecovery current needed : Nat) (hv : safeValidators ≤ u.validators) :
      Next t u (.bootstrapRecoveryMode entered inRecovery current needed)
        (.degradedSecurityMode u.epoch 0 u.validators 0 1)
  | recoveryRemain (entered inRecovery current needed : Nat)
      (hlow : postBootstrapMinValidators ≤ u.validators) (hv : u.validators < safeValidators) :
      Next t u (.bootstrapRecoveryMode entered inRecovery current needed)
        (.bootstrapRecoveryMode entered (inRecovery + 1) u.validators (subU32 safeValidators u.validators))

/-- Each flag is up exactly in its state. -/
@[mk_iff]
structure Flags (t : SecurityStateTracker) : Prop where
  shm : t.shmActive = true ↔ t.state.kind = .restricted
  terminal : t.terminalActive = true ↔ t.state.kind = .emergency
  recovery : t.bootstrapRecoveryActive = true ↔ t.state.kind = .recovery

/-- Bootstrap is completed exactly out of the bootstrap state. -/
def Booted (t : SecurityStateTracker) : Prop := t.bootstrapCompleted = true ↔ t.state.kind ≠ .bootstrap

/-- What a call that ends with `o` does. -/
structure Follows (t : SecurityStateTracker) (u : SecurityUpdate) (o : Outcome) : Prop where
  next : Next t u t.state o.1.state
  flags : Flags t → Flags o.1
  booted : Booted t → Booted o.1
  reported : o.2 = if o.1.state.kind = t.state.kind then none else some o.1.state
  config : o.1.config = t.config
  minValidators : o.1.minValidators = t.minValidators
  absolute : o.1.absoluteMinValidators = t.absoluteMinValidators

section Follows

variable (t : SecurityStateTracker) (u : SecurityUpdate)

variable {r st : NetworkSecurityState} {below above : Nat} {completed shm terminal recovery : Bool}

/-- A transition: the kind changes, and the flags follow it. -/
theorem follows_enter (hs : t.state = r) (hnext : Next t u r st) (hkind : st.kind ≠ r.kind)
    (hflags : Flags t → (shm = true ↔ st.kind = .restricted) ∧ (terminal = true ↔ st.kind = .emergency) ∧
      (recovery = true ↔ st.kind = .recovery))
    (hbooted : Booted t → (completed = true ↔ st.kind ≠ .bootstrap)) :
    Follows t u (enter { t with
      state := st, epochsBelowMinimum := below, epochsAboveMinimumInDsm := above
      bootstrapCompleted := completed, shmActive := shm, terminalActive := terminal
      bootstrapRecoveryActive := recovery }) := by
  subst hs
  refine ⟨hnext, ?_, hbooted, by rw [enter, if_neg hkind], rfl, rfl, rfl⟩
  intro hf
  obtain ⟨h₁, h₂, h₃⟩ := hflags hf
  exact ⟨h₁, h₂, h₃⟩

/-- No transition: the kind and the flags stay. -/
theorem follows_stay (hs : t.state = r) (hnext : Next t u r st) (hkind : st.kind = r.kind) :
    Follows t u (stay { t with
      state := st, epochsBelowMinimum := below, epochsAboveMinimumInDsm := above }) := by
  subst hs
  refine ⟨hnext, ?_, ?_, by rw [stay, if_pos hkind], rfl, rfl, rfl⟩
  · rintro ⟨h₁, h₂, h₃⟩
    rw [← hkind] at h₁ h₂ h₃
    exact ⟨h₁, h₂, h₃⟩
  · intro h
    rwa [Booted, ← hkind] at h

theorem updateBootstrap_follows (hs : t.state = .bootstrap) :
    Follows t u (t.updateBootstrap u.epoch u.validators u.bootstrapConfig) := by
  unfold updateBootstrap
  split_ifs with h
  · refine follows_enter t u hs (.exit h.1 h.2) ?_ ?_ ?_ <;>
      simp +contextual [hs, flags_iff, NetworkSecurityState.kind]
  · have hstay : Next t u .bootstrap t.state := by
      rw [hs]
      exact .wait h
    exact follows_stay t u hs hstay (by rw [hs])

theorem updateNormal_follows (hs : t.state = .normal) :
    Follows t u (t.updateNormal u.epoch u.validators) := by
  unfold updateNormal
  split_ifs with hmin hgrace habs
  · refine follows_enter t u hs (.halt hmin habs) ?_ ?_ ?_ <;>
      simp +contextual [hs, flags_iff, Booted, NetworkSecurityState.kind]
  · refine follows_enter t u hs (.degrade hmin (Nat.le_of_not_lt habs)) ?_ ?_ ?_ <;>
      simp +contextual [hs, flags_iff, Booted, NetworkSecurityState.kind]
  · have hstay : Next t u .normal t.state := by
      rw [hs]
      exact .grace hmin (Nat.lt_of_not_le hgrace)
    exact follows_stay t u hs hstay (by rw [hs])
  · have hstay : Next t u .normal t.state := by
      rw [hs]
      exact .enough (Nat.le_of_not_lt hmin)
    exact follows_stay t u hs hstay (by rw [hs])

theorem updateDegraded_follows (entered inDsm current needed consecutive : Nat)
    (hs : t.state = .degradedSecurityMode entered inDsm current needed consecutive) :
    Follows t u (t.updateDegraded u.epoch u.validators entered inDsm consecutive) := by
  unfold updateDegraded
  split_ifs with hemergency hrestrict hcollapse hsafe hlong
  · refine follows_enter t u hs (.degradedEmergency _ _ _ _ _ hemergency) ?_ ?_ ?_ <;>
      simp +contextual [hs, flags_iff, Booted, NetworkSecurityState.kind]
  · refine follows_enter t u hs (.degradedRestrict _ _ _ _ _ (Nat.le_of_not_lt hemergency) hrestrict) ?_ ?_ ?_ <;>
      simp +contextual [hs, flags_iff, Booted, NetworkSecurityState.kind]
  · have hlow : postBootstrapMinValidators ≤ u.validators := Nat.le_of_not_lt hrestrict
    refine follows_enter t u hs (.collapse _ _ _ _ _ hlow hcollapse.2 hcollapse.1) ?_ ?_ ?_ <;>
      simp +contextual [hs, flags_iff, Booted, NetworkSecurityState.kind]
  · refine follows_enter t u hs (.recover _ _ _ _ _ hsafe hlong) ?_ ?_ ?_ <;>
      simp +contextual [hs, flags_iff, Booted, NetworkSecurityState.kind]
  · exact follows_stay t u hs (.recovering _ _ _ _ _ hsafe) rfl
  · have hshort : inDsm < t.config.collapseDetectionEpochs := by omega
    exact follows_stay t u hs
      (.persist _ _ _ _ _ (Nat.le_of_not_lt hrestrict) (Nat.lt_of_not_le hsafe) hshort) rfl

theorem updateSafetyHalt_follows (entered inShm current noFinality : Nat)
    (hs : t.state = .safetyHaltMode entered inShm current noFinality) :
    Follows t u (t.updateSafetyHalt u.epoch u.validators entered inShm noFinality) := by
  unfold updateSafetyHalt
  split_ifs with hemergency hrelease hsafe
  · refine follows_enter t u hs (.haltEmergency _ _ _ _ hemergency) ?_ ?_ ?_ <;>
      simp +contextual [hs, flags_iff, Booted, NetworkSecurityState.kind]
  · refine follows_enter t u hs (.releaseSafe _ _ _ _ hsafe) ?_ ?_ ?_ <;>
      simp +contextual [hs, flags_iff, Booted, NetworkSecurityState.kind]
  · refine follows_enter t u hs (.release _ _ _ _ hrelease.1 (Nat.lt_of_not_le hsafe)) ?_ ?_ ?_ <;>
      simp +contextual [hs, flags_iff, Booted, NetworkSecurityState.kind]
  · exact follows_stay t u hs (.haltRemain _ _ _ _ (Nat.le_of_not_lt hemergency)) rfl

theorem updateTerminal_follows (entered inTerminal current : Nat) (stateRoot : Option Hash)
    (hs : t.state = .terminalMode entered inTerminal current stateRoot) :
    Follows t u (t.updateTerminal u.epoch u.validators entered inTerminal stateRoot) := by
  unfold updateTerminal
  split_ifs with h
  · refine follows_enter t u hs (.leaveEmergency _ _ _ _ h) ?_ ?_ ?_ <;>
      simp +contextual [hs, flags_iff, Booted, NetworkSecurityState.kind]
  · exact follows_stay t u hs (.emergencyRemain _ _ _ _ (Nat.lt_of_not_le h)) rfl

theorem updateBootstrapRecovery_follows (entered inRecovery current needed : Nat)
    (hs : t.state = .bootstrapRecoveryMode entered inRecovery current needed) :
    Follows t u (t.updateBootstrapRecovery u.epoch u.validators entered inRecovery) := by
  unfold updateBootstrapRecovery
  split_ifs with hemergency hrestrict hsafe
  · refine follows_enter t u hs (.recoveryEmergency _ _ _ _ hemergency) ?_ ?_ ?_ <;>
      simp +contextual [hs, flags_iff, Booted, NetworkSecurityState.kind]
  · refine follows_enter t u hs (.recoveryRestrict _ _ _ _ (Nat.le_of_not_lt hemergency) hrestrict) ?_ ?_ ?_ <;>
      simp +contextual [hs, flags_iff, Booted, NetworkSecurityState.kind]
  · refine follows_enter t u hs (.recovered _ _ _ _ hsafe) ?_ ?_ ?_ <;>
      simp +contextual [hs, flags_iff, Booted, NetworkSecurityState.kind]
  · exact follows_stay t u hs
      (.recoveryRemain _ _ _ _ (Nat.le_of_not_lt hrestrict) (Nat.lt_of_not_le hsafe)) rfl

/-- **Every call follows the transition relation, keeps the flags and reports what changed.** -/
theorem outcome_follows : Follows t u (t.outcome u) := by
  unfold outcome update
  split
  next hs => exact updateBootstrap_follows t u hs
  next hs => exact updateNormal_follows t u hs
  next hs => exact updateDegraded_follows t u _ _ _ _ _ hs
  next hs => exact updateSafetyHalt_follows t u _ _ _ _ hs
  next hs => exact updateTerminal_follows t u _ _ _ _ hs
  next hs => exact updateBootstrapRecovery_follows t u _ _ _ _ hs

end Follows

end SecurityStateTracker

end Kratos
