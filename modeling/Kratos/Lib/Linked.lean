import Mathlib

/-!
# A relation kept in both directions

Each of many belongs to at most one group: a map says to which, and every group
has the set of its members.  `Linked` says that the two agree.
-/

namespace Kratos

section

variable {κ η : Type}

/-- The group of each member, and the members of each group. -/
def Linked (groupOf : κ → Option η) (members : η → Finset κ) : Prop :=
  ∀ k g, groupOf k = some g ↔ k ∈ members g

namespace Linked

variable [DecidableEq κ] [DecidableEq η] {groupOf : κ → Option η} {members : η → Finset κ}

/-- Taking a member from its group. -/
theorem unlink (h : Linked groupOf members) {k : κ} {g : η} (hk : groupOf k = some g) :
    Linked (Function.update groupOf k none) (Function.update members g ((members g).erase k)) := by
  intro j i
  by_cases hj : j = k
  · subst hj
    rw [Function.update_self]
    by_cases hi : i = g
    · simp [hi]
    · rw [Function.update_of_ne hi, ← h j i, hk]
      simp [Ne.symm hi]
  · rw [Function.update_of_ne hj, h j i]
    by_cases hi : i = g
    · subst hi
      simp [hj]
    · rw [Function.update_of_ne hi]

/-- Putting a member into a group is right exactly if it has no other. -/
theorem link_iff (h : Linked groupOf members) (k : κ) (g : η) :
    Linked (Function.update groupOf k (some g)) (Function.update members g (insert k (members g))) ↔
      ∀ i, groupOf k = some i → i = g := by
  constructor
  · intro hl i hk
    by_contra hi
    -- the old group still has it
    have hmem : k ∈ Function.update members g (insert k (members g)) i := by
      rw [Function.update_of_ne hi]
      exact (h k i).mp hk
    have hgroup := (hl k i).mpr hmem
    rw [Function.update_self] at hgroup
    exact hi (Option.some.inj hgroup).symm
  · intro honly j i
    by_cases hj : j = k
    · subst hj
      rw [Function.update_self]
      by_cases hi : i = g
      · simp [hi]
      · rw [Function.update_of_ne hi, ← h j i]
        constructor
        · intro hsame
          exact absurd (Option.some.inj hsame).symm hi
        · intro hother
          exact absurd (honly i hother) hi
    · rw [Function.update_of_ne hj, h j i]
      by_cases hi : i = g
      · subst hi
        simp [hj]
      · rw [Function.update_of_ne hi]

omit [DecidableEq κ] in
/-- Emptying a group is right exactly if it was empty. -/
theorem clear_iff (h : Linked groupOf members) (g : η) :
    Linked groupOf (Function.update members g ∅) ↔ members g = ∅ := by
  constructor
  · intro hl
    rw [Finset.eq_empty_iff_forall_notMem]
    intro k hk
    have hempty := (hl k g).mp ((h k g).mpr hk)
    simp at hempty
  · intro hg
    rw [← hg, Function.update_eq_self]
    exact h

end Linked

end

end Kratos
