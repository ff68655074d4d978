import Kratos.Lib.Exact
import Kratos.Types.Personhood

/-!
# Score updates and overflow

The updates of a personhood score with the overflow checks of a build: `none` is a stop.  Without
checks they are the updates of `PersonhoodScore` (`updateActivityW_unchecked` and the like).
-/

namespace Kratos

namespace PersonhoodScore

variable (checks : Bool) (s : PersonhoodScore)

def recalculateW : Option PersonhoodScore :=
  (Word.sumW checks 32 [s.socialScore, s.challengeScore, s.uniquenessScore, s.longevityScore, s.activityScore]).map
    fun total => { s with total }

def updateSocialW (connectivity : Nat) : Option PersonhoodScore :=
  recalculateW checks { s with socialScore := min (connectivity / 5) 200 }

def recordChallengePassW (currentBlock : Nat) : Option PersonhoodScore := do
  let challengesPassed ← Word.addW checks 32 s.challengesPassed 1
  let points ← Word.mulW checks 32 challengesPassed 20
  recalculateW checks { s with challengesPassed, challengeScore := min points 200, lastVerified := currentBlock }

def recordChallengeFailW : Option PersonhoodScore := do
  let challengesFailed ← Word.addW checks 32 s.challengesFailed 1
  recalculateW checks { s with challengesFailed, challengeScore := s.challengeScore - 50 }

/-- A hundred points, and more for each witness. -/
def uniquenessPoints (witnessCount : Nat) : Option Nat := do
  let points ← Word.mulW checks 32 (witnessCount % 2 ^ 32) 20
  Word.addW checks 32 100 (min points 100)

def updateUniquenessW (verified : Bool) (witnessCount : Nat) : Option PersonhoodScore := do
  let uniquenessScore ← if verified then uniquenessPoints checks witnessCount else some 0
  recalculateW checks { s with uniquenessScore }

def updateLongevityW (identityAgeBlocks : Nat) : Option PersonhoodScore := do
  let product ← Word.mulW checks 64 identityAgeBlocks 200
  recalculateW checks { s with longevityScore := min (product / 5256000 % 2 ^ 32) 200 }

def updateActivityW (actionsLastMonth : Nat) : Option PersonhoodScore := do
  let points ← Word.mulW checks 32 actionsLastMonth 10
  recalculateW checks { s with activityScore := min points 200 }

/-! ## Without checks -/

theorem recalculateW_unchecked : s.recalculateW false = some s.recalculate := by
  unfold recalculateW recalculate
  rw [Word.sumW_eq, Word.addW_unchecked]
  simp [Nat.add_assoc]

theorem recordChallengePassW_unchecked (block : Nat) :
    s.recordChallengePassW false block = some (s.recordChallengePass block) := by
  simp only [recordChallengePassW, Word.addW_unchecked, Word.mulW_unchecked, Option.bind_eq_bind, Option.bind_some,
    recalculateW_unchecked, recordChallengePass]

theorem recordChallengeFailW_unchecked : s.recordChallengeFailW false = some s.recordChallengeFail := by
  simp only [recordChallengeFailW, Word.addW_unchecked, Option.bind_eq_bind, Option.bind_some,
    recalculateW_unchecked, recordChallengeFail]

theorem updateUniquenessW_unchecked (verified : Bool) (witnessCount : Nat) :
    s.updateUniquenessW false verified witnessCount = some (s.updateUniqueness verified witnessCount) := by
  have hmod : witnessCount % 2 ^ 32 * 20 % 2 ^ 32 = witnessCount * 20 % 2 ^ 32 := by omega
  have hsum : (100 + min (witnessCount * 20 % 2 ^ 32) 100) % 2 ^ 32 = 100 + min (witnessCount * 20 % 2 ^ 32) 100 := by
    omega
  unfold updateUniquenessW updateUniqueness uniquenessPoints
  cases verified <;>
    simp only [if_true, Bool.false_eq_true, if_false, Word.addW_unchecked, Word.mulW_unchecked,
      Option.bind_eq_bind, Option.bind_some, recalculateW_unchecked, hmod, hsum]

theorem updateLongevityW_unchecked (age : Nat) :
    s.updateLongevityW false age = some (s.updateLongevity age) := by
  simp only [updateLongevityW, Word.mulW_unchecked, Option.bind_eq_bind, Option.bind_some,
    recalculateW_unchecked, updateLongevity]

theorem updateActivityW_unchecked (actions : Nat) :
    s.updateActivityW false actions = some (s.updateActivity actions) := by
  simp only [updateActivityW, Word.mulW_unchecked, Option.bind_eq_bind, Option.bind_some,
    recalculateW_unchecked, updateActivity]

/-! ## Ranges -/

/-- Each component is at most 200. -/
structure Capped (s : PersonhoodScore) : Prop where
  social : s.socialScore ≤ 200
  challenge : s.challengeScore ≤ 200
  uniqueness : s.uniquenessScore ≤ 200
  longevity : s.longevityScore ≤ 200
  activity : s.activityScore ≤ 200

/-- Each component is at most 200, and the total is their sum. -/
structure InRange (s : PersonhoodScore) : Prop extends s.Capped where
  total : s.total = s.socialScore + s.challengeScore + s.uniquenessScore + s.longevityScore + s.activityScore

theorem InRange.total_le {s : PersonhoodScore} (h : s.InRange) : s.total ≤ 1000 := by
  have := h.social
  have := h.challenge
  have := h.uniqueness
  have := h.longevity
  have := h.activity
  rw [h.total]
  omega

theorem inRange_new : new.InRange := by
  refine ⟨⟨?_, ?_, ?_, ?_, ?_⟩, rfl⟩ <;> decide

/-- The sum of the components does not overflow. -/
theorem Capped.recalculate {s : PersonhoodScore} (h : s.Capped) :
    s.recalculateW checks = some s.recalculate ∧ s.recalculate.InRange := by
  have := h.social
  have := h.challenge
  have := h.uniqueness
  have := h.longevity
  have := h.activity
  have hsum : [s.socialScore, s.challengeScore, s.uniquenessScore, s.longevityScore, s.activityScore].sum =
      s.socialScore + s.challengeScore + s.uniquenessScore + s.longevityScore + s.activityScore := by
    simp [Nat.add_assoc]
  have hmod : (s.socialScore + s.challengeScore + s.uniquenessScore + s.longevityScore + s.activityScore) % 2 ^ 32 =
      s.socialScore + s.challengeScore + s.uniquenessScore + s.longevityScore + s.activityScore := by
    omega
  refine ⟨?_, ⟨h.social, h.challenge, h.uniqueness, h.longevity, h.activity⟩, hmod⟩
  unfold recalculateW PersonhoodScore.recalculate
  rw [Word.sumW_of_lt _ _ _ (by omega), hsum, hmod]
  rfl

variable {s} (h : s.Capped)

include h

theorem Capped.updateSocialW (connectivity : Nat) :
    ∃ t, s.updateSocialW checks connectivity = some t ∧ t.InRange := by
  have hcapped : Capped { s with socialScore := min (connectivity / 5) 200 } := { h with social := min_le_right _ _ }
  exact ⟨_, (hcapped.recalculate checks).1, (hcapped.recalculate checks).2⟩

theorem Capped.recordChallengePass (block : Nat) : (s.recordChallengePass block).InRange ∧
    ((s.recordChallengePassW true block).isSome ↔ (s.challengesPassed + 1) * 20 < 2 ^ 32) := by
  have hcapped : ∀ passed points, Capped { s with
      challengesPassed := passed, challengeScore := min points 200, lastVerified := block } := fun _ _ =>
    { h with challenge := min_le_right _ _ }
  refine ⟨((hcapped _ _).recalculate true).2, ?_⟩
  unfold recordChallengePassW
  simp only [Option.bind_eq_bind, Word.addW_bind_isSome_iff, Word.mulW_bind_isSome_iff,
    ((hcapped _ _).recalculate true).1, Option.isSome_some, and_true]
  omega

theorem Capped.recordChallengeFail : s.recordChallengeFail.InRange ∧
    ((s.recordChallengeFailW true).isSome ↔ s.challengesFailed + 1 < 2 ^ 32) := by
  have hcapped : ∀ failed, Capped { s with challengesFailed := failed, challengeScore := s.challengeScore - 50 } :=
    fun _ => { h with challenge := (Nat.sub_le _ _).trans h.challenge }
  refine ⟨((hcapped _).recalculate true).2, ?_⟩
  unfold recordChallengeFailW
  simp only [Option.bind_eq_bind, Word.addW_bind_isSome_iff, ((hcapped _).recalculate true).1, Option.isSome_some,
    and_true]

theorem Capped.updateUniqueness (witnessCount : Nat) : (s.updateUniqueness true witnessCount).InRange ∧
    ((s.updateUniquenessW true true witnessCount).isSome ↔ witnessCount % 2 ^ 32 * 20 < 2 ^ 32) := by
  have hcapped : ∀ points, Capped { s with uniquenessScore := 100 + min points 100 } := fun points =>
    { h with uniqueness := by dsimp only; omega }
  refine ⟨((hcapped _).recalculate true).2, ?_⟩
  unfold updateUniquenessW uniquenessPoints
  rw [if_pos rfl]
  simp only [Option.bind_eq_bind, Option.bind_assoc, Word.addW_bind_isSome_iff, Word.mulW_bind_isSome_iff,
    ((hcapped _).recalculate true).1, Option.isSome_some, and_true]
  omega

theorem Capped.updateLongevity (age : Nat) : (s.updateLongevity age).InRange ∧
    ((s.updateLongevityW true age).isSome ↔ age * 200 < 2 ^ 64) := by
  have hcapped : ∀ points, Capped { s with longevityScore := min points 200 } := fun _ =>
    { h with longevity := min_le_right _ _ }
  refine ⟨((hcapped _).recalculate true).2, ?_⟩
  unfold updateLongevityW
  simp only [Option.bind_eq_bind, Word.mulW_bind_isSome_iff, ((hcapped _).recalculate true).1, Option.isSome_some,
    and_true]

theorem Capped.updateActivity (actions : Nat) : (s.updateActivity actions).InRange ∧
    ((s.updateActivityW true actions).isSome ↔ actions * 10 < 2 ^ 32) := by
  have hcapped : ∀ points, Capped { s with activityScore := min points 200 } := fun _ =>
    { h with activity := min_le_right _ _ }
  refine ⟨((hcapped _).recalculate true).2, ?_⟩
  unfold updateActivityW
  simp only [Option.bind_eq_bind, Word.mulW_bind_isSome_iff, ((hcapped _).recalculate true).1, Option.isSome_some,
    and_true]

end PersonhoodScore

end Kratos
