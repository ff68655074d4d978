import Kratos.Finality.Justification

/-!
# The supermajority rules

A count reaches the threshold, two thirds rounded up, exactly if it is at least two thirds of the
total.  The two functions that decide a supermajority ask for 66 percent, so they disagree with it on
the counts from 66 percent up to two thirds (`one_rule_iff`): 33 of 50 is the first.
-/

namespace Kratos

namespace Finality

/-- `ceil(total * 2/3)` -/
def supermajorityThreshold (total : Nat) : Nat := (total * 2 + 2) / 3

theorem supermajorityThreshold_le_iff (count total : Nat) :
    supermajorityThreshold total ≤ count ↔ 2 * total ≤ 3 * count := by
  unfold supermajorityThreshold
  omega

theorem hasSupermajority_iff_percent (count total : Nat) (hpos : 0 < total) :
    hasSupermajority count total = true ↔ 66 * total ≤ 100 * count := by
  unfold hasSupermajority supermajorityThresholdPercent
  rw [if_neg hpos.ne', decide_eq_true_iff]
  omega

/-- A decision on a count is that of the threshold, and of two thirds. -/
def OneRule (decision : Bool) (count total : Nat) : Prop :=
  (decision = true ↔ supermajorityThreshold total ≤ count) ∧ (decision = true ↔ 2 * total ≤ 3 * count)

/-- At least 66 percent, and less than two thirds. -/
def InGap (count total : Nat) : Prop := 66 * total ≤ 100 * count ∧ 3 * count < 2 * total

instance (count total : Nat) : Decidable (InGap count total) := inferInstanceAs (Decidable (_ ∧ _))

theorem oneRule_percent_iff (decision : Bool) (count total : Nat)
    (h : decision = true ↔ 66 * total ≤ 100 * count) : OneRule decision count total ↔ ¬ InGap count total := by
  unfold OneRule InGap
  rw [supermajorityThreshold_le_iff, and_self, h]
  omega

/-- No count is in the gap of a total exactly if the last one below the threshold is below 66 percent. -/
theorem forall_not_inGap_iff (total : Nat) (hpos : 0 < total) :
    (∀ count ≤ total, ¬ InGap count total) ↔ 100 * (supermajorityThreshold total - 1) < 66 * total := by
  have hthreshold : 3 * (supermajorityThreshold total - 1) < 2 * total ∧ 2 * total ≤ 3 * supermajorityThreshold total := by
    unfold supermajorityThreshold
    omega
  constructor
  · intro h
    have hlast := h (supermajorityThreshold total - 1) (by omega)
    unfold InGap at hlast
    omega
  · rintro h count - ⟨hge, hlt⟩
    have hle : count ≤ supermajorityThreshold total - 1 := by omega
    omega

/-- **The supermajority rule.**  Both functions decide as the threshold does exactly outside the gap; for
a total they do so on all counts exactly if its gap is empty. -/
theorem one_rule_iff (cr : Crypto) (j : FinalityJustification) (count total : Nat) (hpos : 0 < total) :
    (OneRule (hasSupermajority count total) count total ↔ ¬ InGap count total) ∧
    (OneRule (j.hasSupermajority cr total) (j.verifySignatures cr).1 total ↔
      ¬ InGap (j.verifySignatures cr).1 total) ∧
    ((∀ n ≤ total, OneRule (hasSupermajority n total) n total) ↔
      100 * (supermajorityThreshold total - 1) < 66 * total) := by
  have hrule : ∀ n, OneRule (hasSupermajority n total) n total ↔ ¬ InGap n total := fun n =>
    oneRule_percent_iff _ n total (hasSupermajority_iff_percent n total hpos)
  refine ⟨hrule count, oneRule_percent_iff _ _ total ?_, ?_⟩
  · unfold FinalityJustification.hasSupermajority
    rw [decide_eq_true_iff]
    omega
  · rw [← forall_not_inGap_iff total hpos]
    exact forall_congr' fun n => imp_congr_right fun _ => hrule n

/-- A justification with the signatures of the first validators. -/
def signedBy (n : Nat) : FinalityJustification :=
  { block := ⟨7, ⟨7⟩⟩, signatures := (List.range n).map fun i => (⟨Fin.ofNat _ i⟩, .zero), epoch := 0 }

theorem one_rule_thirty_four :
    OneRule (hasSupermajority 34 50) 34 50 ∧ OneRule ((signedBy 34).hasSupermajority .sample 50) 34 50 := by
  obtain ⟨hcount, hsigned, -⟩ := one_rule_iff .sample (signedBy 34) 34 50 (by decide)
  have hvalid : ((signedBy 34).verifySignatures .sample).1 = 34 := by decide
  rw [hvalid] at hsigned
  exact ⟨hcount.mpr (by decide), hsigned.mpr (by decide)⟩

/-- 33 of 50 is a supermajority for both functions and below the threshold. -/
theorem no_rule_thirty_three :
    hasSupermajority 33 50 = true ∧ (signedBy 33).hasSupermajority .sample 50 = true ∧
      supermajorityThreshold 50 = 34 ∧
      ¬ OneRule (hasSupermajority 33 50) 33 50 ∧
      ¬ OneRule ((signedBy 33).hasSupermajority .sample 50) ((signedBy 33).verifySignatures .sample).1 50 := by
  have hvalid : ((signedBy 33).verifySignatures .sample).1 = 33 := by decide
  have hjustified : (signedBy 33).hasSupermajority .sample 50 = true := by decide
  refine ⟨by decide, hjustified, by decide, fun h => ?_, fun h => ?_⟩
  · exact absurd (h.1.mp (by decide)) (by decide)
  · rw [hvalid] at h
    exact absurd (h.1.mp hjustified) (by decide)

end Finality

end Kratos
