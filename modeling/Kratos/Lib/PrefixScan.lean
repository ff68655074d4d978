import Mathlib

/-!
# Scans of prefix sums

A point falls on the first element of a list at which the sum of the weights so far exceeds it.
Below the total weight every point falls on an element, and on each element fall as many points as
its weight (`card_points`).
-/

namespace Kratos

namespace PrefixScan

variable {α κ : Type}

/-- The element a point falls on when the weights before the list add up to `sum`. -/
def pick (w : α → Nat) (point : Nat) : List α → Nat → Option α
  | [], _ => none
  | a :: l, sum => if sum + w a > point then some a else pick w point l (sum + w a)

theorem mem_of_pick (w : α → Nat) (point : Nat) (l : List α) (sum : Nat) (a : α) (h : pick w point l sum = some a) :
    a ∈ l := by
  induction l generalizing sum with
  | nil => cases h
  | cons b l ih =>
    unfold pick at h
    split at h
    · cases h
      exact List.mem_cons_self
    · exact List.mem_cons_of_mem b (ih _ h)

theorem exists_pick (w : α → Nat) (point : Nat) (l : List α) (sum : Nat) (hle : sum ≤ point)
    (hlt : point < sum + (l.map w).sum) : ∃ a, pick w point l sum = some a := by
  induction l generalizing sum with
  | nil =>
    simp only [List.map_nil, List.sum_nil] at hlt
    omega
  | cons b l ih =>
    rw [List.map_cons, List.sum_cons] at hlt
    unfold pick
    split
    · exact ⟨b, rfl⟩
    · exact ih (sum + w b) (by omega) (by omega)

/-- **Counting rule.**  On an element fall as many points as its weight. -/
theorem card_points [DecidableEq κ] (w : α → Nat) (key : α → κ) (l : List α) (sum : Nat) (hkeys : (l.map key).Nodup)
    (a : α) (ha : a ∈ l) :
    ((Finset.Ico sum (sum + (l.map w).sum)).filter fun r => (pick w r l sum).map key = some (key a)).card = w a := by
  induction l generalizing sum with
  | nil => cases ha
  | cons b l ih =>
    rw [List.map_cons, List.nodup_cons] at hkeys
    rw [List.map_cons, List.sum_cons, Finset.card_filter,
      ← Finset.sum_Ico_consecutive _ (Nat.le_add_right sum (w b)) (by omega)]
    -- the points of the head, and those after them
    have hhead : ∀ r ∈ Finset.Ico sum (sum + w b), (pick w r (b :: l) sum).map key = some (key b) := by
      intro r hr
      rw [Finset.mem_Ico] at hr
      rw [pick, if_pos (by omega), Option.map_some]
    have htail : ∀ r ∈ Finset.Ico (sum + w b) (sum + (w b + (l.map w).sum)),
        pick w r (b :: l) sum = pick w r l (sum + w b) := by
      intro r hr
      rw [Finset.mem_Ico] at hr
      rw [pick, if_neg (by omega)]
    rcases List.mem_cons.mp ha with rfl | hl
    · have hfirst : ∑ r ∈ Finset.Ico sum (sum + w a),
          (if (pick w r (a :: l) sum).map key = some (key a) then 1 else 0) = w a := by
        rw [Finset.sum_congr rfl fun r hr => if_pos (hhead r hr)]
        simp
      have hrest : ∑ r ∈ Finset.Ico (sum + w a) (sum + (w a + (l.map w).sum)),
          (if (pick w r (a :: l) sum).map key = some (key a) then 1 else 0) = 0 := by
        refine Finset.sum_eq_zero fun r hr => if_neg fun hp => ?_
        rw [htail r hr] at hp
        obtain ⟨c, hc, hkey⟩ := Option.map_eq_some_iff.mp hp
        exact hkeys.1 (hkey ▸ List.mem_map_of_mem (mem_of_pick w r l _ c hc))
      rw [hfirst, hrest]
      rfl
    · have hfirst : ∑ r ∈ Finset.Ico sum (sum + w b),
          (if (pick w r (b :: l) sum).map key = some (key a) then 1 else 0) = 0 := by
        refine Finset.sum_eq_zero fun r hr => if_neg fun hp => ?_
        rw [hhead r hr, Option.some_inj] at hp
        exact hkeys.1 (hp ▸ List.mem_map_of_mem hl)
      have hrest := ih (sum + w b) hkeys.2 hl
      rw [Finset.card_filter, Nat.add_assoc] at hrest
      rw [hfirst, Nat.zero_add, Finset.sum_congr rfl fun r hr => by rw [htail r hr]]
      exact hrest

end PrefixScan

end Kratos
