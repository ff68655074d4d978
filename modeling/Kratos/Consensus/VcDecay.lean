import Kratos.Consensus.Slashing

/-!
# Decay of validator credits

A validator that was inactive for a quarter loses a part of its credits: the truncated `f64`
product of its total and the decay rate, at least one credit, taken from the four categories
in truncated shares.  The product is a parameter of the configuration.

Truncation can leave every category as it is, and the threshold is compared with the total
before the decay only.  `decay_iff` says when a decay makes the total smaller and leaves the
threshold.
-/

namespace Kratos

structure DecayConfig where
  /-- `(total_vc as f64 * decay_rate) as u64`. -/
  decayProduct : Nat → Nat
  epochsPerQuarter : Nat
  minVcThreshold : Nat

structure ActivityTracker where
  validatorId : AccountId
  lastActivityEpoch : Nat
  hasGovernanceVote : Bool
  hasUptimeCredit : Bool
  hasArbitration : Bool
  lastDecayQuarter : Nat
  quarterStartEpoch : Nat
deriving DecidableEq, Repr

namespace ActivityTracker

def new (validatorId : AccountId) (currentEpoch : Nat) : ActivityTracker :=
  { validatorId, lastActivityEpoch := currentEpoch, hasGovernanceVote := false, hasUptimeCredit := false
    hasArbitration := false, lastDecayQuarter := 0, quarterStartEpoch := currentEpoch }

def isInactive (t : ActivityTracker) : Bool := !t.hasGovernanceVote && !t.hasUptimeCredit && !t.hasArbitration

def recordGovernanceVote (t : ActivityTracker) (epoch : Nat) : ActivityTracker :=
  { t with hasGovernanceVote := true, lastActivityEpoch := epoch }

def recordUptimeCredit (t : ActivityTracker) (epoch : Nat) : ActivityTracker :=
  { t with hasUptimeCredit := true, lastActivityEpoch := epoch }

def recordArbitration (t : ActivityTracker) (epoch : Nat) : ActivityTracker :=
  { t with hasArbitration := true, lastActivityEpoch := epoch }

def resetQuarter (t : ActivityTracker) (newQuarterStart : Nat) : ActivityTracker :=
  { t with hasGovernanceVote := false, hasUptimeCredit := false, hasArbitration := false
           quarterStartEpoch := newQuarterStart }

end ActivityTracker

structure VCDecayManager where
  config : DecayConfig
  activityTrackers : SortedMap AccountId ActivityTracker

inductive DecayError where
  | validatorNotFound
deriving DecidableEq, Repr

/-- Truncated shares of a decay, taken from every category. -/
def ValidatorCreditsRecord.applyProportionalDecay (checks : Bool) (r : ValidatorCreditsRecord)
    (decayAmount currentBlock : Nat) : Option ValidatorCreditsRecord :=
  let totalVc := r.totalVc
  if totalVc = 0 then some r
  else do
    let voteDecay ← share checks r.voteCredits decayAmount totalVc
    let uptimeDecay ← share checks r.uptimeCredits decayAmount totalVc
    let arbitrationDecay ← share checks r.arbitrationCredits decayAmount totalVc
    let seniorityDecay ← share checks r.seniorityCredits decayAmount totalVc
    some { r with
      voteCredits := r.voteCredits - voteDecay
      uptimeCredits := r.uptimeCredits - uptimeDecay
      arbitrationCredits := r.arbitrationCredits - arbitrationDecay
      seniorityCredits := r.seniorityCredits - seniorityDecay
      lastUpdate := currentBlock }

namespace VCDecayManager

def withConfig (config : DecayConfig) : VCDecayManager := { config, activityTrackers := .empty }

def initializeValidator (m : VCDecayManager) (validatorId : AccountId) (currentEpoch : Nat) : VCDecayManager :=
  { m with activityTrackers := m.activityTrackers.insert validatorId (ActivityTracker.new validatorId currentEpoch) }

/-- One kind of activity of a tracked validator. -/
def recordActivity (record : ActivityTracker → Nat → ActivityTracker) (m : VCDecayManager) (validatorId : AccountId)
    (epoch : Nat) : Except DecayError VCDecayManager :=
  match m.activityTrackers.find? validatorId with
  | none => .error .validatorNotFound
  | some tracker => .ok { m with activityTrackers := m.activityTrackers.insert validatorId (record tracker epoch) }

def recordGovernanceActivity := recordActivity ActivityTracker.recordGovernanceVote

def recordUptimeActivity := recordActivity ActivityTracker.recordUptimeCredit

def recordArbitrationActivity := recordActivity ActivityTracker.recordArbitration

/-- The manager, the credits and whether they decayed.  `none` stands for the two ways to stop: a
division by zero epochs per quarter, and an overflow in a build that checks for it. -/
def applyDecayIfNeeded (checks : Bool) (m : VCDecayManager) (validatorId : AccountId) (currentEpoch currentBlock : Nat)
    (vcRecord : ValidatorCreditsRecord) :
    Option (VCDecayManager × ValidatorCreditsRecord × Except DecayError Bool) :=
  if m.config.epochsPerQuarter = 0 then none
  else
    let currentQuarter := currentEpoch / m.config.epochsPerQuarter
    match m.activityTrackers.find? validatorId with
    | none => some (m, vcRecord, .error .validatorNotFound)
    | some tracker =>
      if currentQuarter ≤ tracker.lastDecayQuarter then some (m, vcRecord, .ok false)
      else
        let tracker' := { tracker with lastDecayQuarter := currentQuarter }
        let m' :=
          { m with activityTrackers := m.activityTrackers.insert validatorId (tracker'.resetQuarter currentEpoch) }
        if tracker.isInactive then
          let totalVc := vcRecord.totalVc
          if totalVc ≤ m.config.minVcThreshold then some (m', vcRecord, .ok false)
          else
            let decayAmount := max (m.config.decayProduct totalVc) 1
            (vcRecord.applyProportionalDecay checks decayAmount currentBlock).map fun vcRecord =>
              (m', vcRecord, .ok true)
        else some (m', vcRecord, .ok false)

/-! ## What a decay takes -/

/-- A new quarter has begun, nothing was recorded in the last one, and there is more than the
threshold. -/
def Due (m : VCDecayManager) (validatorId : AccountId) (currentEpoch : Nat) (vcRecord : ValidatorCreditsRecord) : Prop :=
  m.config.epochsPerQuarter ≠ 0 ∧ m.config.minVcThreshold < vcRecord.totalVc ∧
    ∃ tracker, m.activityTrackers.find? validatorId = some tracker ∧ tracker.isInactive = true ∧
      tracker.lastDecayQuarter < currentEpoch / m.config.epochsPerQuarter

theorem not_due_of_recordActivity (record : ActivityTracker → Nat → ActivityTracker) (epoch : Nat)
    (hrecord : ∀ t, (record t epoch).isInactive = false) (m m' : VCDecayManager) (validatorId : AccountId)
    (hok : recordActivity record m validatorId epoch = .ok m') (currentEpoch : Nat) (r : ValidatorCreditsRecord) :
    ¬ m'.Due validatorId currentEpoch r := by
  rintro ⟨-, -, tracker, hfind, hinactive, -⟩
  unfold recordActivity at hok
  split at hok
  · cases hok
  · cases hok
    rw [SortedMap.find?_insert_self] at hfind
    cases hfind
    rw [hrecord] at hinactive
    cases hinactive

/-- Any recorded activity holds off the next decay. -/
theorem not_due_of_active (m m' : VCDecayManager) (validatorId : AccountId) (epoch : Nat)
    (hok : m.recordGovernanceActivity validatorId epoch = .ok m' ∨ m.recordUptimeActivity validatorId epoch = .ok m' ∨
      m.recordArbitrationActivity validatorId epoch = .ok m') (currentEpoch : Nat) (r : ValidatorCreditsRecord) :
    ¬ m'.Due validatorId currentEpoch r := by
  rcases hok with hok | hok | hok
  · exact not_due_of_recordActivity _ epoch (fun t => by simp [ActivityTracker.isInactive, ActivityTracker.recordGovernanceVote])
      m m' validatorId hok currentEpoch r
  · exact not_due_of_recordActivity _ epoch (fun t => by simp [ActivityTracker.isInactive, ActivityTracker.recordUptimeCredit])
      m m' validatorId hok currentEpoch r
  · exact not_due_of_recordActivity _ epoch (fun t => by simp [ActivityTracker.isInactive, ActivityTracker.recordArbitration])
      m m' validatorId hok currentEpoch r

end VCDecayManager

namespace ValidatorCreditsRecord

/-- Some category times the decay reaches the total, and what stays of the categories is at least
the threshold; products are taken modulo 2⁶⁴. -/
def DecayFits (r : ValidatorCreditsRecord) (decayAmount minVcThreshold : Nat) : Prop :=
  (∃ c ∈ r.categories, r.totalVc ≤ c * decayAmount % 2 ^ 64) ∧
    minVcThreshold ≤ (r.categories.map fun c => c - c * decayAmount % 2 ^ 64 / r.totalVc).sum

theorem le_largest (r : ValidatorCreditsRecord) (c : Nat) (hc : c ∈ r.categories) : c ≤ r.largest := by
  simp only [categories, List.mem_cons, List.not_mem_nil, or_false] at hc
  simp only [largest, categories, List.foldr_cons, List.foldr_nil]
  omega

theorem largest_mem (r : ValidatorCreditsRecord) : r.largest ∈ r.categories := by
  rcases r.maxCategory_spec with ⟨-, h⟩ | ⟨-, h⟩ | ⟨-, h⟩ | ⟨-, h⟩
  all_goals
    rw [h]
    simp [categories]

/-- Without overflow: the largest category times the decay reaches the total, and the categories'
shares in the rest, rounded up, are at least the threshold. -/
theorem decayFits_iff_of_lt (r : ValidatorCreditsRecord) (d threshold : Nat) (hd : d ≤ r.totalVc)
    (hpos : 0 < r.totalVc) (hlt : ∀ c ∈ r.categories, c * d < 2 ^ 64) :
    r.DecayFits d threshold ↔
      r.totalVc ≤ r.largest * d ∧
        threshold ≤ (r.categories.map fun c => Shares.ceil c (r.totalVc - d) r.totalVc).sum := by
  have hrest : d + (r.totalVc - d) = r.totalVc := by omega
  have hshares : (r.categories.map fun c => c - c * d % 2 ^ 64 / r.totalVc) =
      r.categories.map fun c => Shares.ceil c (r.totalVc - d) r.totalVc := by
    refine List.map_congr_left fun c hc => ?_
    have := Shares.floor_add_ceil c d (r.totalVc - d) r.totalVc hpos hrest
    unfold Shares.floor at this
    rw [Nat.mod_eq_of_lt (hlt c hc)]
    omega
  have hreach : (∃ c ∈ r.categories, r.totalVc ≤ c * d % 2 ^ 64) ↔ r.totalVc ≤ r.largest * d := by
    constructor
    · rintro ⟨c, hc, h⟩
      rw [Nat.mod_eq_of_lt (hlt c hc)] at h
      exact h.trans (Nat.mul_le_mul_right d (r.le_largest c hc))
    · intro h
      exact ⟨r.largest, r.largest_mem, by rw [Nat.mod_eq_of_lt (hlt _ r.largest_mem)]; exact h⟩
  rw [DecayFits, hshares, hreach]

/-- The share that a call takes, when it does not stop. -/
theorem share_eq_some_iff (checks : Bool) (c d t x : Nat) (hc : c < 2 ^ 32) (hd : d ≤ t) :
    share checks c d t = some x ↔ ¬(checks = true ∧ 2 ^ 64 ≤ c * d) ∧ x = c * d % 2 ^ 64 / t := by
  have hle : c * d % 2 ^ 64 / t ≤ c :=
    (Nat.div_le_div_right (Nat.mod_le _ _)).trans (Shares.floor_le c d t hd)
  cases checks with
  | false =>
    rw [share, Word.mulW_unchecked, Option.map_some, Nat.mod_eq_of_lt (by omega), Option.some.injEq]
    simp [eq_comm]
  | true =>
    rw [share_checked_eq_some_iff c d t x hc hd, Shares.floor]
    constructor
    · rintro ⟨hlt, rfl⟩
      exact ⟨fun h => by omega, by rw [Nat.mod_eq_of_lt hlt]⟩
    · rintro ⟨hnot, rfl⟩
      have hlt : c * d < 2 ^ 64 := by
        by_contra hge
        exact hnot ⟨rfl, by omega⟩
      exact ⟨hlt, by rw [Nat.mod_eq_of_lt hlt]⟩

/-- What a decay leaves of a category. -/
def decayed (r : ValidatorCreditsRecord) (d c : Nat) : Nat := c - c * d % 2 ^ 64 / r.totalVc

theorem applyProportionalDecay_eq_some_iff (checks : Bool) (r : ValidatorCreditsRecord) (d block : Nat)
    (r' : ValidatorCreditsRecord) (hfits : r.Fits) (hd : d ≤ r.totalVc) (hpos : r.totalVc ≠ 0) :
    applyProportionalDecay checks r d block = some r' ↔
      ¬(checks = true ∧ ∃ c ∈ r.categories, 2 ^ 64 ≤ c * d) ∧
      r' = { r with
        voteCredits := r.decayed d r.voteCredits, uptimeCredits := r.decayed d r.uptimeCredits
        arbitrationCredits := r.decayed d r.arbitrationCredits, seniorityCredits := r.decayed d r.seniorityCredits
        lastUpdate := block } := by
  simp only [Fits, categories, List.forall_mem_cons, List.not_mem_nil, IsEmpty.forall_iff, implies_true,
    and_true] at hfits
  obtain ⟨hv, hu, ha, he⟩ := hfits
  unfold applyProportionalDecay
  simp only [hpos, if_false, Option.bind_eq_bind, Option.bind_eq_some_iff, share_eq_some_iff checks _ _ _ _ hv hd,
    share_eq_some_iff checks _ _ _ _ hu hd, share_eq_some_iff checks _ _ _ _ ha hd,
    share_eq_some_iff checks _ _ _ _ he hd, categories, List.mem_cons, List.not_mem_nil, or_false,
    exists_eq_or_imp, exists_eq_left]
  constructor
  · rintro ⟨_, ⟨hv', rfl⟩, _, ⟨hu', rfl⟩, _, ⟨ha', rfl⟩, _, ⟨he', rfl⟩, hr⟩
    exact ⟨by tauto, (Option.some.inj hr).symm⟩
  · rintro ⟨hnot, rfl⟩
    exact ⟨_, ⟨by tauto, rfl⟩, _, ⟨by tauto, rfl⟩, _, ⟨by tauto, rfl⟩, _, ⟨by tauto, rfl⟩, rfl⟩

/-- The total after a decay is smaller and leaves the threshold exactly when the decay fits. -/
theorem decayFits_iff (r : ValidatorCreditsRecord) (d threshold block : Nat) (hd : d ≤ r.totalVc)
    (hpos : 0 < r.totalVc) :
    let r' : ValidatorCreditsRecord := { r with
        voteCredits := r.decayed d r.voteCredits, uptimeCredits := r.decayed d r.uptimeCredits
        arbitrationCredits := r.decayed d r.arbitrationCredits, seniorityCredits := r.decayed d r.seniorityCredits
        lastUpdate := block }
    (r'.totalVc < r.totalVc ∧ threshold ≤ r'.totalVc) ↔ r.DecayFits d threshold := by
  have hle : ∀ c, c * d % 2 ^ 64 / r.totalVc ≤ c := fun c =>
    (Nat.div_le_div_right (Nat.mod_le _ _)).trans (Shares.floor_le c d r.totalVc hd)
  have hreach : ∀ c, r.totalVc ≤ c * d % 2 ^ 64 ↔ 0 < c * d % 2 ^ 64 / r.totalVc := fun c =>
    (Nat.div_pos_iff.trans (and_iff_right hpos)).symm
  have hv := hle r.voteCredits
  have hu := hle r.uptimeCredits
  have ha := hle r.arbitrationCredits
  have he := hle r.seniorityCredits
  have htotal : r.totalVc = r.voteCredits + r.uptimeCredits + r.arbitrationCredits + r.seniorityCredits := rfl
  simp only [DecayFits, categories, List.mem_cons, List.not_mem_nil, or_false, exists_eq_or_imp, exists_eq_left,
    hreach, List.map_cons, List.map_nil, List.sum_cons, List.sum_nil]
  simp only [decayed]
  generalize r.voteCredits * d % 2 ^ 64 / r.totalVc = wv at *
  generalize r.uptimeCredits * d % 2 ^ 64 / r.totalVc = wu at *
  generalize r.arbitrationCredits * d % 2 ^ 64 / r.totalVc = wa at *
  generalize r.seniorityCredits * d % 2 ^ 64 / r.totalVc = we at *
  simp only [totalVc]
  omega

end ValidatorCreditsRecord

namespace VCDecayManager

/-- A call that is not due leaves the credits and reports no decay. -/
theorem applyDecayIfNeeded_of_not_due (checks : Bool) (m : VCDecayManager) (validatorId : AccountId)
    (epoch block : Nat) (r : ValidatorCreditsRecord) (h : ¬m.Due validatorId epoch r)
    (m' : VCDecayManager) (r' : ValidatorCreditsRecord) (decayed : Bool)
    (hcall : m.applyDecayIfNeeded checks validatorId epoch block r = some (m', r', .ok decayed)) :
    decayed = false ∧ r' = r := by
  unfold applyDecayIfNeeded at hcall
  split at hcall
  · cases hcall
  next hepochs =>
  simp only at hcall
  split at hcall
  · cases hcall
  next tracker htracker =>
  split at hcall
  · cases hcall
    exact ⟨rfl, rfl⟩
  next hquarter =>
  split at hcall
  · next hinactive =>
    split at hcall
    · cases hcall
      exact ⟨rfl, rfl⟩
    · next hmin => exact absurd ⟨hepochs, by omega, tracker, htracker, hinactive, by omega⟩ h
  · cases hcall
    exact ⟨rfl, rfl⟩

/-- A call that is due takes the decay. -/
theorem applyDecayIfNeeded_of_due (checks : Bool) (m : VCDecayManager) (validatorId : AccountId)
    (epoch block : Nat) (r : ValidatorCreditsRecord) (h : m.Due validatorId epoch r) :
    ∃ m', m.applyDecayIfNeeded checks validatorId epoch block r =
      (r.applyProportionalDecay checks (max (m.config.decayProduct r.totalVc) 1) block).map
        fun r' => (m', r', .ok true) := by
  obtain ⟨hepochs, hmin, tracker, htracker, hinactive, hquarter⟩ := h
  unfold applyDecayIfNeeded
  simp only [hepochs, if_false, htracker, hinactive, if_true, if_neg (Nat.not_le_of_lt hquarter),
    if_neg (Nat.not_le_of_lt hmin)]
  exact ⟨_, rfl⟩

/-- A reported decay makes the total smaller and leaves the threshold, and without one the credits
stay, exactly when a due call either stops at an overflow or its decay fits. -/
theorem decay_iff (checks : Bool) (m : VCDecayManager) (validatorId : AccountId) (epoch block : Nat)
    (r : ValidatorCreditsRecord) (hfits : r.Fits) (hdecay : m.config.decayProduct r.totalVc ≤ r.totalVc) :
    (∀ m' r' decayed, m.applyDecayIfNeeded checks validatorId epoch block r = some (m', r', .ok decayed) →
        (decayed = true → r'.totalVc < r.totalVc ∧ m.config.minVcThreshold ≤ r'.totalVc) ∧
        (decayed = false → r' = r)) ↔
      (m.Due validatorId epoch r →
        (checks = true ∧ ∃ c ∈ r.categories, 2 ^ 64 ≤ c * max (m.config.decayProduct r.totalVc) 1) ∨
        r.DecayFits (max (m.config.decayProduct r.totalVc) 1) m.config.minVcThreshold) := by
  by_cases hdue : m.Due validatorId epoch r
  · obtain ⟨m', hcall⟩ := m.applyDecayIfNeeded_of_due checks validatorId epoch block r hdue
    have hpos : 0 < r.totalVc := by
      have := hdue.2.1
      omega
    have hd : max (m.config.decayProduct r.totalVc) 1 ≤ r.totalVc := by omega
    have hsome := fun r' => r.applyProportionalDecay_eq_some_iff checks _ block r' hfits hd (by omega)
    have hiff := r.decayFits_iff _ m.config.minVcThreshold block hd hpos
    rw [hcall]
    constructor
    · intro h _
      by_contra hnot
      obtain ⟨hover, hfit⟩ := not_or.mp hnot
      have hr := (hsome _).mpr ⟨hover, rfl⟩
      exact hfit (hiff.mp ((h m' _ true (by rw [hr]; rfl)).1 rfl))
    · intro h m'' r' decayed hr
      obtain ⟨x, hx, hxeq⟩ := Option.map_eq_some_iff.mp hr
      cases hxeq
      obtain ⟨hover, rfl⟩ := (hsome _).mp hx
      exact ⟨fun _ => hiff.mpr ((h hdue).resolve_left hover), fun hfalse => by cases hfalse⟩
  · constructor
    · exact fun _ h => absurd h hdue
    · intro _ m' r' decayed hr
      obtain ⟨rfl, rfl⟩ := m.applyDecayIfNeeded_of_not_due checks validatorId epoch block r hdue m' r' decayed hr
      exact ⟨fun h => (by cases h), fun _ => rfl⟩

/-- Half of the credits, at most down to a threshold of five. -/
def sampleManager : VCDecayManager :=
  (withConfig { decayProduct := fun total => total / 2, epochsPerQuarter := 13, minVcThreshold := 5 }).initializeValidator
    ⟨1⟩ 0

/-- A tenth, down to one. -/
def defaultManager : VCDecayManager :=
  (withConfig { decayProduct := fun total => total / 10, epochsPerQuarter := 13, minVcThreshold := 1 }).initializeValidator
    ⟨1⟩ 0

theorem decay_iff_sample :
    (∀ m' r' decayed, sampleManager.applyDecayIfNeeded true ⟨1⟩ 13 1000 (SlashingManager.sampleCredits 10 0 0 0) =
          some (m', r', .ok decayed) →
        (decayed = true → r'.totalVc < 10 ∧ 5 ≤ r'.totalVc) ∧
        (decayed = false → r' = SlashingManager.sampleCredits 10 0 0 0)) ↔
      (sampleManager.Due ⟨1⟩ 13 (SlashingManager.sampleCredits 10 0 0 0) →
        (true = true ∧ ∃ c ∈ (SlashingManager.sampleCredits 10 0 0 0).categories, 2 ^ 64 ≤ c * 5) ∨
        (SlashingManager.sampleCredits 10 0 0 0).DecayFits 5 5) :=
  decay_iff true sampleManager ⟨1⟩ 13 1000 (SlashingManager.sampleCredits 10 0 0 0)
    (by
      unfold ValidatorCreditsRecord.Fits
      decide)
    (by decide)

/-- Four single credits decay by nothing, and six in one category decay below the threshold of five. -/
theorem reported_decay_fails :
    (defaultManager.applyDecayIfNeeded true ⟨1⟩ 13 1000 (SlashingManager.sampleCredits 1 1 1 1)).map
      (fun out => (out.2.1.totalVc, out.2.2.toOption)) = some (4, some true) ∧
    (sampleManager.applyDecayIfNeeded true ⟨1⟩ 13 1000 (SlashingManager.sampleCredits 6 0 0 0)).map
      (fun out => (out.2.1.totalVc, out.2.2.toOption)) = some (3, some true) := by
  decide

end VCDecayManager

end Kratos
