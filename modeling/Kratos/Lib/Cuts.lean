import Mathlib

/-!
# Proportional cuts

A cut takes `q` parts of `d` of an amount, rounded down.  Two cuts take no more than one of both
together (`cut_cut`), and less if there is something to take twice (`lt_mul_sub`).
-/

namespace Kratos

namespace Cuts

variable (d : Nat)

/-- What `q` parts of `d` leave. -/
def cut (q s : Nat) : Nat := s - s * q / d

theorem cut_le (q s : Nat) : cut d q s ≤ s := Nat.sub_le s _

@[simp] theorem cut_zero (s : Nat) : cut d 0 s = s := by
  rw [cut, Nat.mul_zero, Nat.zero_div, Nat.sub_zero]

theorem cut_all (s : Nat) (hd : 0 < d) : cut d d s = 0 := by
  rw [cut, Nat.mul_div_cancel s hd, Nat.sub_self]

variable {d}

theorem share_le {q : Nat} (s : Nat) (hq : q ≤ d) : s * q / d ≤ s :=
  Nat.div_le_of_le_mul ((Nat.mul_le_mul_left s hq).trans_eq (Nat.mul_comm s d))

/-- A larger cut leaves less. -/
theorem cut_anti {p q : Nat} (s : Nat) (h : p ≤ q) : cut d q s ≤ cut d p s :=
  Nat.sub_le_sub_left (Nat.div_le_div_right (Nat.mul_le_mul_left s h)) s

/-- Of more a cut leaves more. -/
theorem cut_mono {q s t : Nat} (hq : q ≤ d) (h : s ≤ t) : cut d q s ≤ cut d q t := by
  obtain ⟨k, rfl⟩ := Nat.exists_eq_add_of_le h
  have hk : k * q ≤ k * d := Nat.mul_le_mul_left k hq
  have hshare : (s + k) * q / d ≤ s * q / d + k := by
    rcases Nat.eq_zero_or_pos d with hd | hd
    · simp [hd]
    · calc (s + k) * q / d ≤ (s * q + k * d) / d := Nat.div_le_div_right (by rw [Nat.add_mul]; omega)
        _ = s * q / d + k := Nat.add_mul_div_right _ _ hd
  have := share_le s hq
  unfold cut
  omega

/-- The rounding is in favour of what is left. -/
theorem mul_sub_le_cut {q : Nat} (s : Nat) (hq : q ≤ d) : s * (d - q) ≤ d * cut d q s := by
  have hdown := Nat.div_mul_le_self (s * q) d
  have hle := Nat.mul_le_mul_left s hq
  unfold cut
  rw [Nat.mul_sub, Nat.mul_sub, Nat.mul_comm d s, Nat.mul_comm d (s * q / d)]
  omega

/-- Two cuts one after the other leave at least what one of both leaves. -/
theorem cut_cut {p q : Nat} (s : Nat) (hd : 0 < d) (h : p + q ≤ d) : s * (d - (p + q)) ≤ cut d p s * (d - q) := by
  have hp := mul_sub_le_cut s (Nat.le_of_add_right_le h)
  have hprod : d * (d - (p + q)) ≤ (d - p) * (d - q) := by
    obtain ⟨r, hr⟩ := Nat.exists_eq_add_of_le h
    have h1 : d - (p + q) = r := by omega
    have h2 : d - p = q + r := by omega
    have h3 : d - q = p + r := by omega
    rw [h1, h2, h3, hr]
    nlinarith [Nat.zero_le (q * p)]
  refine Nat.le_of_mul_le_mul_left ?_ hd
  calc d * (s * (d - (p + q))) = s * (d * (d - (p + q))) := Nat.mul_left_comm d s _
    _ ≤ s * ((d - p) * (d - q)) := Nat.mul_le_mul_left s hprod
    _ = s * (d - p) * (d - q) := (Nat.mul_assoc s _ _).symm
    _ ≤ d * cut d p s * (d - q) := Nat.mul_le_mul_right _ hp
    _ = d * (cut d p s * (d - q)) := Nat.mul_assoc d _ _

/-- Two cuts that take something take less than one of more than the first. -/
theorem lt_mul_sub {p q m : Nat} (hp : 0 < p) (hpm : p < m) (hsum : p + q ≤ m) (hm : m ≤ d) :
    d * (d - m) < (d - p) * (d - q) := by
  obtain ⟨r, rfl⟩ := Nat.exists_eq_add_of_le (hsum.trans hm)
  have hprod : (p + q + r - p) * (p + q + r - q) = q * p + (p + q + r) * r := by
    rw [show p + q + r - p = q + r by omega, show p + q + r - q = p + r by omega]
    ring
  rw [hprod]
  rcases Nat.eq_zero_or_pos q with rfl | hq
  · have hlt : p + 0 + r - m < r := by omega
    have := Nat.mul_lt_mul_of_pos_left hlt (show 0 < p + 0 + r by omega)
    omega
  · have hle : p + q + r - m ≤ r := by omega
    have := Nat.mul_le_mul_left (p + q + r) hle
    have := Nat.mul_pos hq hp
    omega

end Cuts

end Kratos
