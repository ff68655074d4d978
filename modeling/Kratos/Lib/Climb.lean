import Mathlib

/-!
# Climbing a list of numbers

Walk through a list with a number in mind and go one up at each element that equals it.
The number reached is as high as it can be: `n`, `n + 1`, ... up to a bound stand in the list
in this order, possibly with others between them, exactly if the walk from `n` gets there
(`sublist_iff`).
-/

namespace Kratos

namespace Climb

/-- The number reached from `n`. -/
def climb : Nat → List Nat → Nat
  | n, [] => n
  | n, x :: l => climb (if x = n then n + 1 else n) l

theorem climb_append (n : Nat) (l m : List Nat) : climb n (l ++ m) = climb (climb n l) m := by
  induction l generalizing n with
  | nil => rfl
  | cons x l ih => exact ih _

theorem le_climb (n : Nat) (l : List Nat) : n ≤ climb n l := by
  induction l generalizing n with
  | nil => exact Nat.le_refl n
  | cons x l ih =>
    unfold climb
    split
    · exact le_trans (Nat.le_succ n) (ih (n + 1))
    · exact ih n

theorem sublist_iff (n k : Nat) (l : List Nat) : (List.range' n k).Sublist l ↔ n + k ≤ climb n l := by
  induction l generalizing n k with
  | nil =>
    unfold climb
    cases k with
    | zero => simp
    | succ k => simp
  | cons x l ih =>
    cases k with
    | zero => simpa using le_climb n (x :: l)
    | succ k =>
      unfold climb
      rw [List.range'_succ]
      by_cases hx : x = n
      · rw [if_pos hx, hx, List.cons_sublist_cons, ih]
        omega
      · -- the head is of no use
        have hskip : (n :: List.range' (n + 1) k).Sublist (x :: l) ↔ (List.range' n (k + 1)).Sublist l := by
          rw [List.range'_succ, List.sublist_cons_iff]
          constructor
          · rintro (h | ⟨r, hr, -⟩)
            · exact h
            · exact absurd (List.cons.inj hr).1 (Ne.symm hx)
          · exact Or.inl
        rw [if_neg hx, hskip, ih]

/-- What was climbed over stands in the list. -/
theorem mem_of_lt_climb (n m : Nat) (l : List Nat) (hn : n ≤ m) (hm : m < climb n l) : m ∈ l := by
  have hsub := (sublist_iff n (climb n l - n) l).2 (by omega)
  apply hsub.subset
  rw [List.mem_range'_1]
  omega

end Climb

end Kratos
