import Kratos.Consensus.ValidatorCredits
import Kratos.Lib.FirstMax
import Kratos.Lib.Run
import Kratos.Lib.Shares
import Kratos.Lib.Word

/-!
# Slashing

A slash takes credits from the four categories of a validator's record, takes stake, and sets a
cooldown or ejects.  The two percentages are taken in `f64` and are parameters
(`SlashPercents`).  The credits are `u32` and the products of the shares `u64`; `checks` says
whether the build stops at an overflow.

Shares of a slash are rounded down and what is missing is added to the last of the largest
categories, which may not have it: `vc_slash_exact_iff` says when exactly the amount is taken.
A cooldown replaces the one before it: `cooldowns_kept_iff` says in which runs no call ends a
cooldown early.
-/

namespace Kratos

inductive SlashingSeverity where
  | critical
  | high
  | medium
  | low
deriving DecidableEq, Repr

namespace SlashingSeverity

def requiresCooldown : SlashingSeverity → Bool
  | critical | high => true
  | medium | low => false

def cooldownEpochs : SlashingSeverity → Nat
  | critical => 52
  | high => 12
  | _ => 0

end SlashingSeverity

inductive SlashableEvent where
  | doubleSigning (slot epoch : Nat) (blockHash1 blockHash2 : Bytes32)
  | equivocation (epoch : Nat) (evidence : List UInt8)
  | arbitrationMisconduct (arbitrationId : Nat) (reason : String)
  | invalidGovernanceExecution (proposalId : Nat) (reason : String)
  | extendedDowntime (epochsOffline : Nat)
  | repeatedLowParticipation (epochs : List Nat) (avgParticipation : ℚ)
deriving DecidableEq, Repr

def SlashableEvent.severity : SlashableEvent → SlashingSeverity
  | doubleSigning .. => .critical
  | equivocation .. => .critical
  | arbitrationMisconduct .. => .high
  | invalidGovernanceExecution .. => .high
  | extendedDowntime epochsOffline => if epochsOffline ≥ 12 then .medium else .low
  | repeatedLowParticipation _ avgParticipation => if avgParticipation < 1 / 2 then .medium else .low

structure SlashingRecord where
  validatorId : AccountId
  event : SlashableEvent
  slashEpoch : Nat
  slashBlock : Nat
  vcSlashed : Nat
  stakeSlashed : Nat
  cooldownUntilEpoch : Option Nat
  ejected : Bool
deriving DecidableEq, Repr

structure CooldownState where
  reason : SlashingSeverity
  startEpoch : Nat
  endEpoch : Nat
  criticalEventCount : Nat
deriving DecidableEq, Repr

structure CriticalCountState where
  count : Nat
  lastCriticalEpoch : Nat
deriving DecidableEq, Repr

def maxSlashingRecords : Nat := 10000

def slashingRecordRetentionEpochs : Nat := 104

def criticalCountDecayEpochs : Nat := 26

/-- One less for every decay period since the last critical event. -/
def CriticalCountState.decayed (c : CriticalCountState) (currentEpoch : Nat) : CriticalCountState :=
  { c with count := c.count - (currentEpoch - c.lastCriticalEpoch) / criticalCountDecayEpochs % 2 ^ 32 }

structure SlashingManager where
  slashingRecords : List SlashingRecord
  cooldownStates : SortedMap AccountId CooldownState
  criticalCounts : SortedMap AccountId CriticalCountState

/-- The rounded `f64` product of a total and the percentage of a severity. -/
structure SlashPercents where
  vc : SlashingSeverity → Nat → Nat
  stake : SlashingSeverity → Nat → Nat

/-! ## Credits -/

namespace ValidatorCreditsRecord

/-- `((credits as u64 * amount) / total) as u32`. -/
def share (checks : Bool) (credits amount total : Nat) : Option Nat :=
  (Word.mulW checks 64 credits amount).map fun p => p / total % 2 ^ 32

/-- The last of the categories with the most credits. -/
def maxCategory (r : ValidatorCreditsRecord) : Nat :=
  let categories := [(r.voteCredits, 0), (r.uptimeCredits, 1), (r.arbitrationCredits, 2), (r.seniorityCredits, 3)]
  ((firstMax Prod.fst categories.reverse).map Prod.snd).getD 0

/-- The slashes with the rounding residual added to one of them. -/
def addResidual (checks : Bool) (category residual : Nat) :
    Nat × Nat × Nat × Nat → Option (Nat × Nat × Nat × Nat)
  | (vote, uptime, arbitration, seniority) =>
    match category with
    | 0 => (Word.addW checks 32 vote residual).map fun x => (x, uptime, arbitration, seniority)
    | 1 => (Word.addW checks 32 uptime residual).map fun x => (vote, x, arbitration, seniority)
    | 2 => (Word.addW checks 32 arbitration residual).map fun x => (vote, uptime, x, seniority)
    | _ => (Word.addW checks 32 seniority residual).map fun x => (vote, uptime, arbitration, x)

def applyVcSlash (checks : Bool) (r : ValidatorCreditsRecord) (slashAmount currentBlock : Nat) :
    Option ValidatorCreditsRecord :=
  if slashAmount = 0 then some r
  else
    let totalVc := r.totalVc
    if totalVc = 0 then some r
    else do
      let voteSlash ← share checks r.voteCredits slashAmount totalVc
      let uptimeSlash ← share checks r.uptimeCredits slashAmount totalVc
      let arbitrationSlash ← share checks r.arbitrationCredits slashAmount totalVc
      let senioritySlash ← share checks r.seniorityCredits slashAmount totalVc
      let proportionalSum := voteSlash + uptimeSlash + arbitrationSlash + senioritySlash
      let residual := if slashAmount > proportionalSum then (slashAmount - proportionalSum) % 2 ^ 32 else 0
      let (voteSlash, uptimeSlash, arbitrationSlash, senioritySlash) ←
        addResidual checks r.maxCategory residual (voteSlash, uptimeSlash, arbitrationSlash, senioritySlash)
      some { r with
        voteCredits := r.voteCredits - voteSlash
        uptimeCredits := r.uptimeCredits - uptimeSlash
        arbitrationCredits := r.arbitrationCredits - arbitrationSlash
        seniorityCredits := r.seniorityCredits - senioritySlash
        lastUpdate := currentBlock }

/-! ## What a slash takes -/

/-- The credits of the four categories. -/
def categories (r : ValidatorCreditsRecord) : List Nat :=
  [r.voteCredits, r.uptimeCredits, r.arbitrationCredits, r.seniorityCredits]

def largest (r : ValidatorCreditsRecord) : Nat := r.categories.foldr max 0

/-- Every counter is a `u32`. -/
def Fits (r : ValidatorCreditsRecord) : Prop := ∀ c ∈ r.categories, c < 2 ^ 32

/-- No product of credits and slash reaches 2⁶⁴, and what is to be left has room for what the
categories other than the largest keep of it, each rounded up. -/
def SlashFits (r : ValidatorCreditsRecord) (slashAmount : Nat) : Prop :=
  let rest := r.totalVc - slashAmount
  (∀ c ∈ r.categories, c * slashAmount < 2 ^ 64) ∧
    (r.categories.map fun c => Shares.ceil c rest r.totalVc).sum ≤ rest + Shares.ceil r.largest rest r.totalVc

/-- No category has more credits than before. -/
def NoIncrease (r r' : ValidatorCreditsRecord) : Prop :=
  r'.voteCredits ≤ r.voteCredits ∧ r'.uptimeCredits ≤ r.uptimeCredits ∧
    r'.arbitrationCredits ≤ r.arbitrationCredits ∧ r'.seniorityCredits ≤ r.seniorityCredits

theorem sum_categories (r : ValidatorCreditsRecord) : r.categories.sum = r.totalVc := by
  simp only [categories, totalVc, List.sum_cons, List.sum_nil]
  omega

theorem share_checked_eq_some_iff (c s t x : Nat) (hc : c < 2 ^ 32) (hs : s ≤ t) :
    share true c s t = some x ↔ c * s < 2 ^ 64 ∧ x = Shares.floor c s t := by
  unfold share
  by_cases h : c * s < 2 ^ 64
  · have hle := Shares.floor_le c s t hs
    rw [Word.mulW_of_lt true 64 c s h, Option.map_some, Option.some.injEq]
    unfold Shares.floor at *
    rw [Nat.mod_eq_of_lt (by omega)]
    exact ⟨fun hx => ⟨h, hx.symm⟩, fun hx => hx.2.symm⟩
  · rw [Word.mulW_checked_of_le 64 c s (by omega), Option.map_none]
    constructor
    · intro hx
      cases hx
    · exact fun hx => absurd hx.1 h

/-- The selected category is one of the largest. -/
theorem maxCategory_spec (r : ValidatorCreditsRecord) :
    (r.maxCategory = 0 ∧ r.largest = r.voteCredits) ∨ (r.maxCategory = 1 ∧ r.largest = r.uptimeCredits) ∨
      (r.maxCategory = 2 ∧ r.largest = r.arbitrationCredits) ∨
      (r.maxCategory = 3 ∧ r.largest = r.seniorityCredits) := by
  obtain ⟨e, he⟩ := firstMax_isSome Prod.fst
    [(r.voteCredits, 0), (r.uptimeCredits, 1), (r.arbitrationCredits, 2), (r.seniorityCredits, 3)].reverse (by simp)
  have hfirst := isFirstMax_firstMax _ _ _ he
  have hv := hfirst.le (r.voteCredits, 0) (by simp)
  have hu := hfirst.le (r.uptimeCredits, 1) (by simp)
  have ha := hfirst.le (r.arbitrationCredits, 2) (by simp)
  have hs := hfirst.le (r.seniorityCredits, 3) (by simp)
  have hmem := hfirst.mem
  have hcat : r.maxCategory = e.2 := by
    simp only [maxCategory]
    rw [he]
    rfl
  have hlarge : r.largest = max r.voteCredits (max r.uptimeCredits (max r.arbitrationCredits (max r.seniorityCredits 0))) :=
    rfl
  rw [hcat, hlarge]
  simp only [List.mem_reverse, List.mem_cons, List.not_mem_nil, or_false] at hmem
  rcases hmem with rfl | rfl | rfl | rfl
  · exact .inl ⟨rfl, by simp only at hv hu ha hs ⊢; omega⟩
  · exact .inr (.inl ⟨rfl, by simp only at hv hu ha hs ⊢; omega⟩)
  · exact .inr (.inr (.inl ⟨rfl, by simp only at hv hu ha hs ⊢; omega⟩))
  · exact .inr (.inr (.inr ⟨rfl, by simp only at hv hu ha hs ⊢; omega⟩))

/-- A slash that does not stop at an overflow takes the shares and the residual. -/
theorem applyVcSlash_eq_some_iff (r : ValidatorCreditsRecord) (s block : Nat) (r' : ValidatorCreditsRecord)
    (hfits : r.Fits) (hs : s ≤ r.totalVc) (hpos : s ≠ 0) :
    applyVcSlash true r s block = some r' ↔
      (∀ c ∈ r.categories, c * s < 2 ^ 64) ∧
      ∃ v u a e, addResidual true r.maxCategory (s - (r.categories.map fun c => Shares.floor c s r.totalVc).sum)
          (Shares.floor r.voteCredits s r.totalVc, Shares.floor r.uptimeCredits s r.totalVc,
            Shares.floor r.arbitrationCredits s r.totalVc, Shares.floor r.seniorityCredits s r.totalVc) =
          some (v, u, a, e) ∧
        r' = { r with
          voteCredits := r.voteCredits - v, uptimeCredits := r.uptimeCredits - u
          arbitrationCredits := r.arbitrationCredits - a, seniorityCredits := r.seniorityCredits - e
          lastUpdate := block } := by
  have ht : r.totalVc ≠ 0 := by omega
  have hlt := Shares.lt_sum_floor r.categories s r.totalVc (by omega) r.sum_categories
  simp only [Fits, categories, List.forall_mem_cons, List.not_mem_nil, IsEmpty.forall_iff, implies_true,
    and_true] at hfits
  obtain ⟨hv, hu, ha, he⟩ := hfits
  have hres : ∀ sum : Nat, s < sum + 4 → (if s > sum then (s - sum) % 2 ^ 32 else 0) = s - sum := by
    intro sum hsum
    split
    · exact Nat.mod_eq_of_lt (by omega)
    · omega
  unfold applyVcSlash
  simp only [hpos, ht, if_false, Option.bind_eq_bind, Option.bind_eq_some_iff, share_checked_eq_some_iff _ _ _ _ hv hs,
    share_checked_eq_some_iff _ _ _ _ hu hs, share_checked_eq_some_iff _ _ _ _ ha hs,
    share_checked_eq_some_iff _ _ _ _ he hs]
  simp only [categories, List.map_cons, List.map_nil, List.sum_cons, List.sum_nil, List.length_cons, List.length_nil,
    List.forall_mem_cons, List.not_mem_nil, IsEmpty.forall_iff, implies_true, and_true, ← Nat.add_assoc,
    Nat.add_zero] at hlt ⊢
  constructor
  · rintro ⟨_, ⟨hv', rfl⟩, _, ⟨hu', rfl⟩, _, ⟨ha', rfl⟩, _, ⟨he', rfl⟩, ⟨v, u, a, e⟩, hadd, hr⟩
    rw [hres _ (by omega)] at hadd
    exact ⟨⟨hv', hu', ha', he'⟩, v, u, a, e, hadd, (Option.some.inj hr).symm⟩
  · rintro ⟨⟨hv', hu', ha', he'⟩, v, u, a, e, hadd, rfl⟩
    refine ⟨_, ⟨hv', rfl⟩, _, ⟨hu', rfl⟩, _, ⟨ha', rfl⟩, _, ⟨he', rfl⟩, (v, u, a, e), ?_, rfl⟩
    rw [hres _ (by omega)]
    exact hadd

/-- With the residual, the slashes take as much as they say exactly if the largest category has
as much to give. -/
theorem addResidual_exact_iff (r : ValidatorCreditsRecord) (hfits : r.Fits) (f : Nat → Nat) (hf : ∀ c, f c ≤ c)
    (residual : Nat) :
    (∃ v u a e, addResidual true r.maxCategory residual
        (f r.voteCredits, f r.uptimeCredits, f r.arbitrationCredits, f r.seniorityCredits) = some (v, u, a, e) ∧
      (r.voteCredits - v) + (r.uptimeCredits - u) + (r.arbitrationCredits - a) + (r.seniorityCredits - e) +
        ((r.categories.map f).sum + residual) = r.totalVc) ↔
      f r.largest + residual ≤ r.largest := by
  have hv := hf r.voteCredits
  have hu := hf r.uptimeCredits
  have ha := hf r.arbitrationCredits
  have he := hf r.seniorityCredits
  have htotal : r.totalVc = r.voteCredits + r.uptimeCredits + r.arbitrationCredits + r.seniorityCredits := rfl
  simp only [Fits, categories, List.map_cons, List.map_nil, List.sum_cons, List.sum_nil, List.forall_mem_cons,
    List.not_mem_nil, IsEmpty.forall_iff, implies_true, and_true] at hfits ⊢
  have hadd : ∀ x, x + residual < 2 ^ 32 → Word.addW true 32 x residual = some (x + residual) := fun x hx => if_pos hx
  constructor
  · rintro ⟨v, u, a, e, hadd, hexact⟩
    rcases r.maxCategory_spec with hmax | hmax | hmax | hmax
    all_goals
      obtain ⟨hcat, hlarge⟩ := hmax
      rw [hcat] at hadd
      simp only [addResidual, Word.addW] at hadd
      rw [hlarge]
      split at hadd
      · simp only [Option.map_some, Option.some.injEq, Prod.mk.injEq] at hadd
        omega
      · cases hadd
  · intro hroom
    rcases r.maxCategory_spec with hmax | hmax | hmax | hmax
    all_goals
      obtain ⟨hcat, hlarge⟩ := hmax
      rw [hlarge] at hroom
      rw [hcat]
    · exact ⟨f r.voteCredits + residual, f r.uptimeCredits, f r.arbitrationCredits, f r.seniorityCredits,
        by rw [addResidual, hadd _ (by omega)]; rfl, by omega⟩
    · exact ⟨f r.voteCredits, f r.uptimeCredits + residual, f r.arbitrationCredits, f r.seniorityCredits,
        by rw [addResidual, hadd _ (by omega)]; rfl, by omega⟩
    · exact ⟨f r.voteCredits, f r.uptimeCredits, f r.arbitrationCredits + residual, f r.seniorityCredits,
        by rw [addResidual, hadd _ (by omega)]; rfl, by omega⟩
    · exact ⟨f r.voteCredits, f r.uptimeCredits, f r.arbitrationCredits, f r.seniorityCredits + residual,
        by simp only [addResidual]; rw [hadd _ (by omega)]; rfl, by omega⟩

/-- The room for the residual, seen from what is left. -/
theorem residual_fits_iff (r : ValidatorCreditsRecord) (s : Nat) (hs : s ≤ r.totalVc) (hpos : s ≠ 0) :
    Shares.floor r.largest s r.totalVc + (s - (r.categories.map fun c => Shares.floor c s r.totalVc).sum) ≤ r.largest ↔
      (r.categories.map fun c => Shares.ceil c (r.totalVc - s) r.totalVc).sum ≤
        (r.totalVc - s) + Shares.ceil r.largest (r.totalVc - s) r.totalVc := by
  have hsplit : ∀ c, Shares.floor c s r.totalVc + Shares.ceil c (r.totalVc - s) r.totalVc = c := fun c =>
    Shares.floor_add_ceil c s (r.totalVc - s) r.totalVc (by omega) (by omega)
  have hv := hsplit r.voteCredits
  have hu := hsplit r.uptimeCredits
  have ha := hsplit r.arbitrationCredits
  have he := hsplit r.seniorityCredits
  have hl := hsplit r.largest
  have hsum := Shares.sum_floor_le r.categories s r.totalVc (by omega) r.sum_categories
  have htotal : r.totalVc = r.voteCredits + r.uptimeCredits + r.arbitrationCredits + r.seniorityCredits := rfl
  simp only [categories, List.map_cons, List.map_nil, List.sum_cons, List.sum_nil] at hsum ⊢
  omega

/-- A slash takes exactly its amount if it is nothing or fits, and only then. -/
theorem applyVcSlash_exact_iff (r : ValidatorCreditsRecord) (s block : Nat) (hfits : r.Fits) (hs : s ≤ r.totalVc) :
    (∃ r', applyVcSlash true r s block = some r' ∧ r'.totalVc + s = r.totalVc ∧ NoIncrease r r') ↔
      s = 0 ∨ r.SlashFits s := by
  by_cases hpos : s = 0
  · subst hpos
    simp [applyVcSlash, NoIncrease]
  · simp only [hpos, false_or, applyVcSlash_eq_some_iff r s block _ hfits hs hpos]
    have hsum := Shares.sum_floor_le r.categories s r.totalVc (by omega) r.sum_categories
    have hexact := r.addResidual_exact_iff hfits (fun c => Shares.floor c s r.totalVc)
      (fun c => Shares.floor_le c s r.totalVc hs) (s - (r.categories.map fun c => Shares.floor c s r.totalVc).sum)
    rw [Nat.add_sub_cancel' hsum, r.residual_fits_iff s hs hpos] at hexact
    unfold SlashFits
    constructor
    · rintro ⟨r', ⟨hprod, v, u, a, e, hadd, rfl⟩, htotal, -⟩
      exact ⟨hprod, hexact.mp ⟨v, u, a, e, hadd, htotal⟩⟩
    · rintro ⟨hprod, hroom⟩
      obtain ⟨v, u, a, e, hadd, htotal⟩ := hexact.mpr hroom
      refine ⟨_, ⟨hprod, v, u, a, e, hadd, rfl⟩, htotal, ?_⟩
      exact ⟨Nat.sub_le _ _, Nat.sub_le _ _, Nat.sub_le _ _, Nat.sub_le _ _⟩

theorem addResidual_unchecked (category residual : Nat) (s : Nat × Nat × Nat × Nat) :
    ∃ x, addResidual false category residual s = some x := by
  obtain ⟨v, u, a, e⟩ := s
  simp only [addResidual, Word.addW_unchecked, Option.map_some]
  split <;> exact ⟨_, rfl⟩

/-- A build without overflow checks returns from every slash. -/
theorem applyVcSlash_unchecked (r : ValidatorCreditsRecord) (s block : Nat) :
    ∃ r', applyVcSlash false r s block = some r' := by
  unfold applyVcSlash
  simp only [share, Word.mulW_unchecked, Option.map_some, Option.bind_eq_bind, Option.bind_some]
  split
  · exact ⟨_, rfl⟩
  split
  · exact ⟨_, rfl⟩
  · obtain ⟨x, hx⟩ := addResidual_unchecked r.maxCategory _ (_, _, _, _)
    exact ⟨_, by rw [hx]; rfl⟩

end ValidatorCreditsRecord

/-! ## The manager -/

namespace SlashingManager

def new : SlashingManager :=
  { slashingRecords := [], cooldownStates := .empty, criticalCounts := .empty }

def calculateVcSlash (p : SlashPercents) (vcRecord : ValidatorCreditsRecord) (severity : SlashingSeverity) : Nat :=
  min (p.vc severity vcRecord.totalVc) vcRecord.totalVc

def calculateStakeSlash (p : SlashPercents) (currentStake : Nat) (severity : SlashingSeverity) : Nat :=
  min (p.stake severity currentStake) currentStake

/-- The count of critical events with the current one. -/
def countCritical (m : SlashingManager) (validatorId : AccountId) (currentEpoch : Nat) : CriticalCountState :=
  let state := (m.criticalCounts.find? validatorId).getD { count := 0, lastCriticalEpoch := currentEpoch }
  { count := (state.decayed currentEpoch).count + 1, lastCriticalEpoch := currentEpoch }

/-- The end of the cooldown, and whether the validator is ejected. -/
def determineCooldownEjection (m : SlashingManager) (validatorId : AccountId) (severity : SlashingSeverity)
    (currentEpoch : Nat) : SlashingManager × Option Nat × Bool :=
  let m :=
    if severity = .critical then
      { m with criticalCounts := m.criticalCounts.insert validatorId (m.countCritical validatorId currentEpoch) }
    else m
  let criticalCount := ((m.criticalCounts.find? validatorId).map CriticalCountState.count).getD 0
  if severity = .critical ∧ criticalCount ≥ 3 then (m, none, true)
  else if severity.requiresCooldown then
    let endEpoch := currentEpoch + severity.cooldownEpochs
    ({ m with cooldownStates := m.cooldownStates.insert validatorId
                { reason := severity, startEpoch := currentEpoch, endEpoch, criticalEventCount := criticalCount } },
      some endEpoch, false)
  else (m, none, false)

/-- The manager, the validator's credits and the record of the slash; `none` where the build stops
at an overflow. -/
def slashValidator (checks : Bool) (p : SlashPercents) (m : SlashingManager) (validatorId : AccountId)
    (event : SlashableEvent) (currentEpoch currentBlock : Nat) (vcRecord : ValidatorCreditsRecord)
    (currentStake : Nat) : Option (SlashingManager × ValidatorCreditsRecord × SlashingRecord) := do
  let severity := event.severity
  let vcBefore := vcRecord.totalVc
  let vcRecord ← vcRecord.applyVcSlash checks (calculateVcSlash p vcRecord severity) currentBlock
  let vcAfter := vcRecord.totalVc
  let stakeSlashed :=
    if vcAfter = 0 ∨ severity = .critical then calculateStakeSlash p currentStake severity else 0
  let (m, cooldownUntilEpoch, ejected) := m.determineCooldownEjection validatorId severity currentEpoch
  let record : SlashingRecord :=
    { validatorId, event, slashEpoch := currentEpoch, slashBlock := currentBlock
      vcSlashed := vcBefore - vcAfter, stakeSlashed, cooldownUntilEpoch, ejected }
  some ({ m with slashingRecords := m.slashingRecords ++ [record] }, vcRecord, record)

def isInCooldown (m : SlashingManager) (validatorId : AccountId) (currentEpoch : Nat) : Bool :=
  match m.cooldownStates.find? validatorId with
  | some cooldown => decide (currentEpoch ≤ cooldown.endEpoch)
  | none => false

def cleanupExpiredCooldowns (m : SlashingManager) (currentEpoch : Nat) : SlashingManager :=
  { m with cooldownStates := m.cooldownStates.filter fun _ state => decide (currentEpoch ≤ state.endEpoch) }

def isInCooldownWithCleanup (m : SlashingManager) (validatorId : AccountId) (currentEpoch : Nat) :
    SlashingManager × Bool :=
  let m := m.cleanupExpiredCooldowns currentEpoch
  (m, m.isInCooldown validatorId currentEpoch)

/-- Counts that have decayed to zero are dropped. -/
def decayCriticalCounts (m : SlashingManager) (currentEpoch : Nat) : SlashingManager :=
  { m with
    criticalCounts := (m.criticalCounts.map fun _ state => state.decayed currentEpoch).filter
      fun _ state => decide (state.count > 0) }

/-- The records of the retention period, and of those the latest if there are too many. -/
def pruneOldRecords (m : SlashingManager) (currentEpoch : Nat) : SlashingManager :=
  let minEpoch := currentEpoch - slashingRecordRetentionEpochs
  let records := m.slashingRecords.filter fun r => decide (r.slashEpoch ≥ minEpoch)
  { m with
    slashingRecords :=
      if records.length > maxSlashingRecords then
        (records.insertionSort fun a b => b.slashEpoch ≤ a.slashEpoch).take maxSlashingRecords
      else records }

def onEpochBoundary (m : SlashingManager) (currentEpoch : Nat) : SlashingManager :=
  ((m.cleanupExpiredCooldowns currentEpoch).decayCriticalCounts currentEpoch).pruneOldRecords currentEpoch

/-! ## The credits a slash records -/

theorem noIncrease_applyVcSlash (r r' : ValidatorCreditsRecord) (s block : Nat) (hfits : r.Fits) (hs : s ≤ r.totalVc)
    (h : r.applyVcSlash true s block = some r') : r.NoIncrease r' := by
  by_cases hpos : s = 0
  · subst hpos
    cases h
    simp [ValidatorCreditsRecord.NoIncrease]
  · obtain ⟨-, v, u, a, e, -, rfl⟩ := (r.applyVcSlash_eq_some_iff s block r' hfits hs hpos).mp h
    simp [ValidatorCreditsRecord.NoIncrease]

/-- What a call that returns has done to credits and record. -/
theorem slashValidator_eq_some (checks : Bool) (p : SlashPercents) (m : SlashingManager) (validatorId : AccountId)
    (event : SlashableEvent) (epoch block : Nat) (r : ValidatorCreditsRecord) (stake : Nat)
    (out : SlashingManager × ValidatorCreditsRecord × SlashingRecord)
    (h : slashValidator checks p m validatorId event epoch block r stake = some out) :
    r.applyVcSlash checks (calculateVcSlash p r event.severity) block = some out.2.1 ∧
      out.2.2.vcSlashed = r.totalVc - out.2.1.totalVc ∧
      out.1.cooldownStates = (m.determineCooldownEjection validatorId event.severity epoch).1.cooldownStates := by
  unfold slashValidator at h
  simp only [Option.bind_eq_bind, Option.bind_eq_some_iff] at h
  obtain ⟨r', hr', h⟩ := h
  cases h
  exact ⟨hr', rfl, rfl⟩

/-- A slash of at most all credits takes exactly that many, without overflow and from every
category at most what it has, exactly when it is nothing or fits; and a slash that returns has
recorded the calculated credits exactly in that case. -/
theorem vc_slash_exact_iff (p : SlashPercents) (m : SlashingManager) (validatorId : AccountId)
    (event : SlashableEvent) (epoch block stake : Nat) (r : ValidatorCreditsRecord) (hfits : r.Fits) :
    (∀ s, s ≤ r.totalVc →
      ((∃ r', r.applyVcSlash true s block = some r' ∧ r'.totalVc + s = r.totalVc ∧ r.NoIncrease r') ↔
        s = 0 ∨ r.SlashFits s)) ∧
    ∀ out, slashValidator true p m validatorId event epoch block r stake = some out →
      (out.2.2.vcSlashed = calculateVcSlash p r event.severity ↔
        calculateVcSlash p r event.severity = 0 ∨ r.SlashFits (calculateVcSlash p r event.severity)) := by
  refine ⟨fun s hs => r.applyVcSlash_exact_iff s block hfits hs, fun out hout => ?_⟩
  have hle : calculateVcSlash p r event.severity ≤ r.totalVc := Nat.min_le_right _ _
  obtain ⟨hr, hvc, -⟩ := slashValidator_eq_some true p m validatorId event epoch block r stake out hout
  have hno := noIncrease_applyVcSlash r _ _ block hfits hle hr
  rw [← r.applyVcSlash_exact_iff _ block hfits hle, hvc]
  have htotal : out.2.1.totalVc ≤ r.totalVc := by
    obtain ⟨hv, hu, ha, he⟩ := hno
    simp only [ValidatorCreditsRecord.totalVc]
    omega
  constructor
  · exact fun h => ⟨_, hr, by omega, hno⟩
  · rintro ⟨r', hr', hexact, -⟩
    obtain rfl := Option.some.inj (hr.symm.trans hr')
    omega

/-- Percentages rounded to the nearest whole number. -/
def samplePercents : SlashPercents :=
  { vc := fun severity total =>
      (total * (match severity with | .critical => 50 | .high => 25 | .medium => 10 | .low => 5) + 50) / 100
    stake := fun severity total =>
      (total * (match severity with | .critical => 20 | .high => 5 | .medium => 1 | .low => 0) + 50) / 100 }

/-- A record with given credits. -/
def sampleCredits (vote uptime arbitration seniority : Nat) : ValidatorCreditsRecord :=
  { ValidatorCreditsRecord.new 0 0 with
    voteCredits := vote, uptimeCredits := uptime, arbitrationCredits := arbitration, seniorityCredits := seniority }

def sampleDoubleSigning : SlashableEvent := .doubleSigning 1 0 1 2

theorem vc_slash_exact_iff_sample :
    (∀ s, s ≤ 100 →
      ((∃ r', (sampleCredits 50 30 10 10).applyVcSlash true s 7 = some r' ∧ r'.totalVc + s = 100 ∧
          (sampleCredits 50 30 10 10).NoIncrease r') ↔ s = 0 ∨ (sampleCredits 50 30 10 10).SlashFits s)) ∧
    ∀ out, slashValidator true samplePercents new ⟨1⟩ sampleDoubleSigning 0 7 (sampleCredits 50 30 10 10) 1000 =
        some out →
      (out.2.2.vcSlashed = 50 ↔ 50 = 0 ∨ (sampleCredits 50 30 10 10).SlashFits 50) :=
  vc_slash_exact_iff samplePercents new ⟨1⟩ sampleDoubleSigning 0 7 1000 (sampleCredits 50 30 10 10)
    (by
      unfold ValidatorCreditsRecord.Fits
      decide)

/-- Half of four single credits is two, but the last category has only one of them to give; and
with all counters full the first product overflows. -/
theorem single_credits_slashed_inexactly :
    ((sampleCredits 1 1 1 1).applyVcSlash true 2 7).map ValidatorCreditsRecord.totalVc = some 3 ∧
    calculateVcSlash samplePercents (sampleCredits 1 1 1 1) .critical = 2 ∧
    (slashValidator true samplePercents new ⟨1⟩ sampleDoubleSigning 0 7 (sampleCredits 1 1 1 1) 1000).map
      (fun out => out.2.2.vcSlashed) = some 1 ∧
    (sampleCredits (2 ^ 32 - 1) (2 ^ 32 - 1) (2 ^ 32 - 1) (2 ^ 32 - 1)).applyVcSlash true (2 ^ 33) 7 = none := by
  decide

/-! ## Runs -/

/-- A call of the manager. -/
inductive SlashingOp where
  | slashValidator (validatorId : AccountId) (event : SlashableEvent) (currentEpoch currentBlock : Nat)
      (vcRecord : ValidatorCreditsRecord) (currentStake : Nat)
  | isInCooldownWithCleanup (validatorId : AccountId) (currentEpoch : Nat)
  | cleanupExpiredCooldowns (currentEpoch : Nat)
  | onEpochBoundary (currentEpoch : Nat)

/-- A call that stops leaves nothing to go on with; the manager is kept as it was. -/
def apply (checks : Bool) (p : SlashPercents) (m : SlashingManager) : SlashingOp → SlashingManager
  | .slashValidator validatorId event currentEpoch currentBlock vcRecord currentStake =>
    ((slashValidator checks p m validatorId event currentEpoch currentBlock vcRecord currentStake).map Prod.fst).getD m
  | .isInCooldownWithCleanup validatorId currentEpoch => (m.isInCooldownWithCleanup validatorId currentEpoch).1
  | .cleanupExpiredCooldowns currentEpoch => m.cleanupExpiredCooldowns currentEpoch
  | .onEpochBoundary currentEpoch => m.onEpochBoundary currentEpoch

/-- The call neither ejects nor is too mild for a cooldown. -/
def SetsCooldown (m : SlashingManager) (validatorId : AccountId) (severity : SlashingSeverity) (currentEpoch : Nat) : Prop :=
  severity.requiresCooldown = true ∧ ¬(severity = .critical ∧ 3 ≤ (m.countCritical validatorId currentEpoch).count)

/-- A slash that sets a cooldown finds none that is still active and ends later. -/
def KeepsEnd (m : SlashingManager) : SlashingOp → Prop
  | .slashValidator validatorId event currentEpoch _ _ _ =>
    m.SetsCooldown validatorId event.severity currentEpoch →
      ∀ cooldown, m.cooldownStates.find? validatorId = some cooldown → currentEpoch ≤ cooldown.endEpoch →
        cooldown.endEpoch ≤ currentEpoch + event.severity.cooldownEpochs
  | _ => True

/-- After a slash every validator is in cooldown at every epoch from then on at which it was before. -/
def CooldownsKept (m m' : SlashingManager) : SlashingOp → Prop
  | .slashValidator _ _ currentEpoch _ _ _ =>
    ∀ v epoch, currentEpoch ≤ epoch → m.isInCooldown v epoch = true → m'.isInCooldown v epoch = true
  | _ => True

/-- What a slash does to the cooldowns. -/
theorem cooldownStates_determineCooldownEjection (m : SlashingManager) (validatorId : AccountId)
    (severity : SlashingSeverity) (epoch : Nat) :
    (m.SetsCooldown validatorId severity epoch ∧ ∃ cooldown, cooldown.endEpoch = epoch + severity.cooldownEpochs ∧
      (m.determineCooldownEjection validatorId severity epoch).1.cooldownStates =
        m.cooldownStates.insert validatorId cooldown) ∨
    (¬m.SetsCooldown validatorId severity epoch ∧
      (m.determineCooldownEjection validatorId severity epoch).1.cooldownStates = m.cooldownStates) := by
  cases severity with
  | critical =>
    by_cases hcount : 3 ≤ (m.countCritical validatorId epoch).count
    · exact .inr ⟨by simp [SetsCooldown, hcount], by simp [determineCooldownEjection, hcount]⟩
    · refine .inl ⟨by simpa [SetsCooldown, SlashingSeverity.requiresCooldown] using hcount, ?_⟩
      simp only [determineCooldownEjection, if_true, SortedMap.find?_insert_self, Option.map_some, Option.getD_some,
        true_and, if_neg hcount, SlashingSeverity.requiresCooldown]
      exact ⟨_, rfl, rfl⟩
  | high =>
    refine .inl ⟨by simp [SetsCooldown, SlashingSeverity.requiresCooldown], ?_⟩
    simp only [determineCooldownEjection, reduceCtorEq, if_false, false_and, SlashingSeverity.requiresCooldown, if_true]
    exact ⟨_, rfl, rfl⟩
  | medium => exact .inr ⟨by simp [SetsCooldown, SlashingSeverity.requiresCooldown], rfl⟩
  | low => exact .inr ⟨by simp [SetsCooldown, SlashingSeverity.requiresCooldown], rfl⟩

theorem isInCooldown_iff (m : SlashingManager) (v : AccountId) (epoch : Nat) :
    m.isInCooldown v epoch = true ↔ ∃ cooldown, m.cooldownStates.find? v = some cooldown ∧ epoch ≤ cooldown.endEpoch := by
  unfold isInCooldown
  cases m.cooldownStates.find? v <;> simp

/-- A slash that returns keeps the cooldowns exactly when it finds none that ends later. -/
theorem cooldownsKept_slash_iff (checks : Bool) (p : SlashPercents) (m : SlashingManager) (validatorId : AccountId)
    (event : SlashableEvent) (epoch block : Nat) (r : ValidatorCreditsRecord) (stake : Nat)
    (out : SlashingManager × ValidatorCreditsRecord × SlashingRecord)
    (h : slashValidator checks p m validatorId event epoch block r stake = some out) :
    CooldownsKept m out.1 (.slashValidator validatorId event epoch block r stake) ↔
      m.KeepsEnd (.slashValidator validatorId event epoch block r stake) := by
  obtain ⟨-, -, hstates⟩ := slashValidator_eq_some checks p m validatorId event epoch block r stake out h
  simp only [CooldownsKept, KeepsEnd, isInCooldown_iff, hstates]
  rcases m.cooldownStates_determineCooldownEjection validatorId event.severity epoch with
    ⟨hsets, new, hnew, hinsert⟩ | ⟨hnot, hsame⟩
  · rw [hinsert]
    constructor
    · intro hkept _ cooldown hold hactive
      obtain ⟨c, hc, hle⟩ := hkept validatorId cooldown.endEpoch hactive ⟨cooldown, hold, Nat.le_refl _⟩
      rw [SortedMap.find?_insert_self, Option.some.injEq] at hc
      rw [← hnew, hc]
      exact hle
    · rintro hend v e' he ⟨cooldown, hold, hle⟩
      by_cases hv : v = validatorId
      · subst hv
        have := hend hsets cooldown hold (by omega)
        exact ⟨new, SortedMap.find?_insert_self _ _ _, by omega⟩
      · exact ⟨cooldown, by rw [SortedMap.find?_insert_ne _ _ _ _ hv]; exact hold, hle⟩
  · rw [hsame]
    exact ⟨fun _ hsets => absurd hsets hnot, fun _ v e' _ hc => hc⟩

/-- A build without overflow checks always returns. -/
theorem slashValidator_unchecked (p : SlashPercents) (m : SlashingManager) (validatorId : AccountId)
    (event : SlashableEvent) (epoch block : Nat) (r : ValidatorCreditsRecord) (stake : Nat) :
    ∃ out, slashValidator false p m validatorId event epoch block r stake = some out := by
  obtain ⟨r', hr'⟩ := r.applyVcSlash_unchecked (calculateVcSlash p r event.severity) block
  unfold slashValidator
  simp only [hr', Option.bind_eq_bind, Option.bind_some]
  exact ⟨_, rfl⟩

theorem cooldownsKept_of_keepsEnd (checks : Bool) (p : SlashPercents) (m : SlashingManager) (op : SlashingOp)
    (h : m.KeepsEnd op) : CooldownsKept m (m.apply checks p op) op := by
  cases op with
  | slashValidator validatorId event epoch block r stake =>
    cases hout : slashValidator checks p m validatorId event epoch block r stake with
    | none =>
      rw [apply, hout]
      exact fun v e' _ hc => hc
    | some out =>
      rw [apply, hout]
      exact (cooldownsKept_slash_iff checks p m validatorId event epoch block r stake out hout).mpr h
  | isInCooldownWithCleanup validatorId epoch => trivial
  | cleanupExpiredCooldowns epoch => trivial
  | onEpochBoundary epoch => trivial

theorem keepsEnd_of_cooldownsKept (p : SlashPercents) (m : SlashingManager) (op : SlashingOp)
    (h : CooldownsKept m (m.apply false p op) op) : m.KeepsEnd op := by
  cases op with
  | slashValidator validatorId event epoch block r stake =>
    obtain ⟨out, hout⟩ := slashValidator_unchecked p m validatorId event epoch block r stake
    rw [apply, hout] at h
    exact (cooldownsKept_slash_iff false p m validatorId event epoch block r stake out hout).mp h
  | isInCooldownWithCleanup validatorId epoch => trivial
  | cleanupExpiredCooldowns epoch => trivial
  | onEpochBoundary epoch => trivial

end SlashingManager

end Kratos
