import Mathlib

/-!
# Proportional shares

The share of a part `c` in an amount `s` of a total `t` is `c * s / t`, rounded down.  What it
leaves of the part is the part's share in the rest `t - s`, rounded up (`floor_add_ceil`).
Shares of all parts together miss the amount by less than their number (`lt_sum_floor`) and
never exceed it (`sum_floor_le`).
-/

namespace Kratos

namespace Shares

/-- The share of a part in an amount, rounded down. -/
def floor (c s t : Nat) : Nat := c * s / t

/-- The share of a part in an amount, rounded up. -/
def ceil (c r t : Nat) : Nat := (c * r + t - 1) / t

theorem floor_add_ceil (c s r t : Nat) (ht : 0 < t) (h : s + r = t) : floor c s t + ceil c r t = c := by
  have hdiv := Nat.div_add_mod (c * s) t
  have hmod := Nat.mod_lt (c * s) ht
  have hle : c * s / t ≤ c := by
    apply Nat.div_le_of_le_mul
    rw [Nat.mul_comm t c]
    exact Nat.mul_le_mul_left c (by omega)
  have hsum : c * s + c * r = c * t := by rw [← Nat.mul_add, h]
  have hceil : ceil c r t = c - c * s / t := by
    unfold ceil
    have hq : (c - c * s / t) * t + t * (c * s / t) = c * t := by
      rw [Nat.mul_comm t, ← Nat.add_mul, Nat.sub_add_cancel hle]
    apply Nat.div_eq_of_lt_le
    · omega
    · rw [Nat.add_mul, Nat.one_mul]
      omega
  rw [hceil]
  unfold floor
  omega

theorem floor_le (c s t : Nat) (h : s ≤ t) : floor c s t ≤ c := by
  apply Nat.div_le_of_le_mul
  rw [Nat.mul_comm t c]
  exact Nat.mul_le_mul_left c h

/-- The shares of all parts are at most the amount. -/
theorem sum_floor_le (l : List Nat) (s t : Nat) (ht : 0 < t) (h : l.sum = t) :
    (l.map fun c => floor c s t).sum ≤ s := by
  have hmul : ∀ l : List Nat, (l.map fun c => floor c s t).sum * t ≤ l.sum * s := by
    intro l
    induction l with
    | nil => simp
    | cons c l ih =>
      have := Nat.div_mul_le_self (c * s) t
      simp only [List.map_cons, List.sum_cons, Nat.add_mul, floor] at ih ⊢
      omega
  have := hmul l
  rw [h, Nat.mul_comm t s] at this
  exact Nat.le_of_mul_le_mul_right this ht

/-- Rounding down loses less than one for each part. -/
theorem lt_sum_floor (l : List Nat) (s t : Nat) (ht : 0 < t) (h : l.sum = t) :
    s < (l.map fun c => floor c s t).sum + l.length := by
  have hmul : ∀ l : List Nat, l.sum * s + l.length ≤ ((l.map fun c => floor c s t).sum + l.length) * t := by
    intro l
    induction l with
    | nil => simp
    | cons c l ih =>
      have hdiv := Nat.div_add_mod (c * s) t
      have hmod := Nat.mod_lt (c * s) ht
      rw [Nat.mul_comm t] at hdiv
      simp only [List.map_cons, List.sum_cons, List.length_cons, Nat.add_mul, Nat.one_mul, floor] at ih ⊢
      omega
  have hne : 0 < l.length := by
    cases l with
    | nil => simp at h; omega
    | cons c l => simp
  have := hmul l
  rw [h, Nat.mul_comm t s] at this
  exact Nat.lt_of_mul_lt_mul_right (a := t) (by omega)

end Shares

end Kratos
