import Mathlib

/-!
# Machine integers

An unsigned integer of `w` bits is a `Fin (2 ^ w)`; `+` on it wraps.  The
saturating operations are given with their values, so that goals about them go
to `omega`.  Signed 64-bit values are `Int`s kept in range by the operations.
-/

namespace Kratos

namespace Word

variable {w : Nat}

/-- Largest value of `w` bits. -/
def maxVal (w : Nat) : Fin (2 ^ w) := ⟨2 ^ w - 1, by have := Nat.two_pow_pos w; omega⟩

def satAdd (a b : Fin (2 ^ w)) : Fin (2 ^ w) :=
  ⟨min (a.val + b.val) (2 ^ w - 1), by have := Nat.two_pow_pos w; omega⟩

def satSub (a b : Fin (2 ^ w)) : Fin (2 ^ w) := ⟨a.val - b.val, by omega⟩

@[simp] theorem val_satAdd (a b : Fin (2 ^ w)) :
    (satAdd a b).val = min (a.val + b.val) (2 ^ w - 1) := rfl

@[simp] theorem val_satSub (a b : Fin (2 ^ w)) : (satSub a b).val = a.val - b.val := rfl

theorem val_satAdd_of_lt (a b : Fin (2 ^ w)) (h : a.val + b.val < 2 ^ w) :
    (satAdd a b).val = a.val + b.val := by
  rw [val_satAdd]
  omega

/-- Saturating addition of a list, from the left. -/
def satSum (l : List (Fin (2 ^ w))) (start : Fin (2 ^ w)) : Fin (2 ^ w) := l.foldl satAdd start

/-- Below the limit a saturating sum is the sum. -/
theorem val_satSum (l : List (Fin (2 ^ w))) (start : Fin (2 ^ w))
    (h : start.val + (l.map Fin.val).sum < 2 ^ w) :
    (satSum l start).val = start.val + (l.map Fin.val).sum := by
  induction l generalizing start with
  | nil => simp [satSum]
  | cons a l ih =>
    simp only [List.map_cons, List.sum_cons] at h ⊢
    have hs := val_satAdd_of_lt start a (by omega)
    have := ih (satAdd start a) (by omega)
    simp only [satSum, List.foldl_cons] at this ⊢
    omega

theorem val_satSum_le (l : List (Fin (2 ^ w))) (start : Fin (2 ^ w)) :
    (satSum l start).val ≤ start.val + (l.map Fin.val).sum := by
  induction l generalizing start with
  | nil => simp [satSum]
  | cons a l ih =>
    have h := ih (satAdd start a)
    rw [val_satAdd] at h
    simp only [satSum, List.foldl_cons, List.map_cons, List.sum_cons] at h ⊢
    omega

theorem satAdd_of_val_zero (a b : Fin (2 ^ w)) (h : b.val = 0) : satAdd a b = a := by
  apply Fin.ext
  rw [val_satAdd, h]
  have := a.isLt
  omega

theorem le_satSum_start (l : List (Fin (2 ^ w))) (start : Fin (2 ^ w)) :
    start.val ≤ (satSum l start).val := by
  induction l generalizing start with
  | nil => exact le_refl _
  | cons a l ih =>
    have h := ih (satAdd start a)
    have := start.isLt
    rw [val_satAdd] at h
    exact le_trans (by omega) h

/-- A saturating sum is at least each of its terms. -/
theorem le_satSum_of_mem (l : List (Fin (2 ^ w))) (start a : Fin (2 ^ w)) (h : a ∈ l) :
    a.val ≤ (satSum l start).val := by
  induction l generalizing start with
  | nil => cases h
  | cons b l ih =>
    rcases List.mem_cons.mp h with rfl | h
    · have hs := le_satSum_start l (satAdd start a)
      have := a.isLt
      rw [val_satAdd] at hs
      exact le_trans (by omega) hs
    · exact ih _ h

/-- A saturating sum vanishes only if every term does. -/
theorem satSum_eq_zero_iff (l : List (Fin (2 ^ w))) (start : Fin (2 ^ w)) (h : start.val = 0) :
    (satSum l start).val = 0 ↔ ∀ a ∈ l, a.val = 0 := by
  constructor
  · intro hz a ha
    have := le_satSum_of_mem l start a ha
    omega
  · intro hall
    have hsum : (l.map Fin.val).sum = 0 := by
      apply List.sum_eq_zero
      intro x hx
      obtain ⟨a, ha, rfl⟩ := List.mem_map.mp hx
      exact hall a ha
    have := Nat.two_pow_pos w
    rw [val_satSum l start (by omega)]
    omega

/-- Terms that are zero do not count. -/
theorem satSum_filter {α : Type} (f : α → Fin (2 ^ w)) (p : α → Bool) (l : List α)
    (start : Fin (2 ^ w)) (h : ∀ x ∈ l, p x = false → (f x).val = 0) :
    satSum ((l.filter p).map f) start = satSum (l.map f) start := by
  induction l generalizing start with
  | nil => rfl
  | cons x l ih =>
    have hrec := fun start => ih start fun y hy => h y (List.mem_cons_of_mem _ hy)
    cases hp : p x with
    | false =>
      rw [List.filter_cons_of_neg (by simp [hp]), hrec]
      simp only [satSum, List.map_cons, List.foldl_cons]
      rw [satAdd_of_val_zero _ _ (h x List.mem_cons_self hp)]
    | true =>
      rw [List.filter_cons_of_pos hp]
      simp only [List.map_cons]
      exact hrec _

/-! ## 64-bit values kept as `Nat` and `Int` -/

def u64Max : Nat := 2 ^ 64 - 1

def satAdd64 (a b : Nat) : Nat := min (a + b) u64Max

def satMul64 (a b : Nat) : Nat := min (a * b) u64Max

/-- `x as i64` for a 64-bit `x`: the upper half wraps to the negatives. -/
def asI64 (x : Nat) : Int := if x < 2 ^ 63 then x else (x : Int) - 2 ^ 64

def clampI64 (x : Int) : Int := max (-2 ^ 63) (min x (2 ^ 63 - 1))

def satAddI64 (a b : Int) : Int := clampI64 (a + b)

def satSubI64 (a b : Int) : Int := clampI64 (a - b)

/-- `i64::abs` without overflow checks: the least value has no positive. -/
def absI64 (x : Int) : Int := if x = -2 ^ 63 then x else x.natAbs

/-! ## Overflow -/

/-- A product on `w` bits.  At an overflow a build with overflow checks stops (`none`), one without
wraps around. -/
def mulW (checks : Bool) (w a b : Nat) : Option Nat :=
  if a * b < 2 ^ w then some (a * b) else if checks then none else some (a * b % 2 ^ w)

/-- A sum on `w` bits. -/
def addW (checks : Bool) (w a b : Nat) : Option Nat :=
  if a + b < 2 ^ w then some (a + b) else if checks then none else some ((a + b) % 2 ^ w)

/-- A difference on `w` bits. -/
def subW (checks : Bool) (w a b : Nat) : Option Nat :=
  if b ≤ a then some (a - b) else if checks then none else some ((a + 2 ^ w - b) % 2 ^ w)

/-- The sum of a list on `w` bits, from the left. -/
def sumW (checks : Bool) (w : Nat) (l : List Nat) : Option Nat := l.foldlM (addW checks w) 0

theorem mulW_of_lt (checks : Bool) (w a b : Nat) (h : a * b < 2 ^ w) : mulW checks w a b = some (a * b) :=
  if_pos h

theorem mulW_checked_of_le (w a b : Nat) (h : 2 ^ w ≤ a * b) : mulW true w a b = none := by
  rw [mulW, if_neg (by omega), if_pos rfl]

theorem mulW_unchecked (w a b : Nat) : mulW false w a b = some (a * b % 2 ^ w) := by
  unfold mulW
  split
  · next h => rw [Nat.mod_eq_of_lt h]
  · rfl

theorem addW_unchecked (w a b : Nat) : addW false w a b = some ((a + b) % 2 ^ w) := by
  unfold addW
  split
  · next h => rw [Nat.mod_eq_of_lt h]
  · rfl

theorem addW_of_lt (checks : Bool) (w a b : Nat) (h : a + b < 2 ^ w) : addW checks w a b = some (a + b) := if_pos h

/-- A build with overflow checks goes on exactly if the sum fits. -/
theorem addW_checked_eq_some_iff (w a b n : Nat) : addW true w a b = some n ↔ a + b < 2 ^ w ∧ n = a + b := by
  unfold addW
  split
  · next h => simp [h, eq_comm]
  · next h => simp [h]

theorem mulW_checked_eq_some_iff (w a b n : Nat) : mulW true w a b = some n ↔ a * b < 2 ^ w ∧ n = a * b := by
  unfold mulW
  split
  · next h => simp [h, eq_comm]
  · next h => simp [h]

theorem subW_checked_eq_some_iff (w a b n : Nat) : subW true w a b = some n ↔ b ≤ a ∧ n = a - b := by
  unfold subW
  split
  · next h => simp [h, eq_comm]
  · next h => simp [h]

/-- Whatever the build, what comes out is not more than the sum. -/
theorem le_of_addW (checks : Bool) (w a b n : Nat) (h : addW checks w a b = some n) : n ≤ a + b := by
  unfold addW at h
  split at h
  · cases h
    exact Nat.le_refl _
  · split at h
    · cases h
    · cases h
      exact Nat.mod_le _ _

theorem le_of_mulW (checks : Bool) (w a b n : Nat) (h : mulW checks w a b = some n) : n ≤ a * b := by
  unfold mulW at h
  split at h
  · cases h
    exact Nat.le_refl _
  · split at h
    · cases h
    · cases h
      exact Nat.mod_le _ _

/-- Adding up as many numbers is adding their sum. -/
theorem foldlM_addW (checks : Bool) (w : Nat) (l : List Nat) (start : Nat) (h : start < 2 ^ w) :
    l.foldlM (addW checks w) start = addW checks w start l.sum := by
  induction l generalizing start with
  | nil =>
    rw [List.sum_nil, addW_of_lt checks w start 0 h]
    rfl
  | cons a l ih =>
    rw [List.foldlM_cons, List.sum_cons]
    by_cases hfit : start + a < 2 ^ w
    · rw [addW_of_lt checks w start a hfit]
      show l.foldlM (addW checks w) (start + a) = _
      rw [ih (start + a) hfit, addW, addW, Nat.add_assoc]
    · have hover : ¬ start + (a + l.sum) < 2 ^ w := by omega
      cases checks with
      | true =>
        rw [addW, addW, if_neg hfit, if_neg hover]
        rfl
      | false =>
        rw [addW_unchecked, addW_unchecked]
        show l.foldlM (addW false w) ((start + a) % 2 ^ w) = _
        rw [ih _ (Nat.mod_lt _ (Nat.two_pow_pos w)), addW_unchecked, Nat.mod_add_mod, Nat.add_assoc]

theorem sumW_eq (checks : Bool) (w : Nat) (l : List Nat) : sumW checks w l = addW checks w 0 l.sum :=
  foldlM_addW checks w l 0 (Nat.two_pow_pos w)

theorem sumW_of_lt (checks : Bool) (w : Nat) (l : List Nat) (h : l.sum < 2 ^ w) : sumW checks w l = some l.sum := by
  rw [sumW_eq, addW_of_lt checks w 0 l.sum (by omega), Nat.zero_add]

theorem sumW_checked_eq_some_iff (w : Nat) (l : List Nat) (n : Nat) :
    sumW true w l = some n ↔ l.sum < 2 ^ w ∧ n = l.sum := by
  rw [sumW_eq, addW_checked_eq_some_iff, Nat.zero_add]

end Word

end Kratos
