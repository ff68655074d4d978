import Mathlib

/-!
# Byte strings

Fixed-width little- and big-endian encodings of naturals, injective on the
values that fit, and their readers.
-/

namespace Kratos

namespace Bytes

/-- The `n` low bytes of `x`, least significant first. -/
def le : Nat → Nat → List UInt8
  | 0, _ => []
  | n + 1, x => UInt8.ofNat (x % 256) :: le n (x / 256)

/-- The `n` low bytes of `x`, most significant first. -/
def be (n x : Nat) : List UInt8 := (le n x).reverse

/-- The number a little-endian byte string spells. -/
def ofLe : List UInt8 → Nat
  | [] => 0
  | b :: l => b.toNat + 256 * ofLe l

/-- The number a big-endian byte string spells. -/
def ofBe (l : List UInt8) : Nat := ofLe l.reverse

/-- The code points of an ASCII string. -/
def ascii (s : String) : List UInt8 := s.toList.map fun c => UInt8.ofNat c.toNat

@[simp] theorem length_le (n x : Nat) : (le n x).length = n := by
  induction n generalizing x with
  | zero => rfl
  | succ n ih => simp [le, ih]

@[simp] theorem length_be (n x : Nat) : (be n x).length = n := by
  simp [be]

/-- Two values of `n` bytes with the same encoding are equal. -/
theorem le_inj (n x y : Nat) (hx : x < 256 ^ n) (hy : y < 256 ^ n) (h : le n x = le n y) : x = y := by
  induction n generalizing x y with
  | zero =>
    rw [Nat.pow_zero] at hx hy
    omega
  | succ n ih =>
    simp only [le, List.cons.injEq] at h
    obtain ⟨hlow, hrest⟩ := h
    have hmod : x % 256 = y % 256 := by
      have := congrArg UInt8.toNat hlow
      simpa using this
    have hdiv : x / 256 = y / 256 := by
      rw [Nat.pow_succ] at hx hy
      exact ih (x / 256) (y / 256) (by omega) (by omega) hrest
    omega

theorem be_inj (n x y : Nat) (hx : x < 256 ^ n) (hy : y < 256 ^ n) (h : be n x = be n y) : x = y :=
  le_inj n x y hx hy (List.reverse_injective h)

/-- Reading an encoding gives the value back. -/
theorem ofLe_le (n x : Nat) (hx : x < 256 ^ n) : ofLe (le n x) = x := by
  induction n generalizing x with
  | zero =>
    rw [Nat.pow_zero] at hx
    simp only [le, ofLe]
    omega
  | succ n ih =>
    rw [Nat.pow_succ] at hx
    have hbyte : (UInt8.ofNat (x % 256)).toNat = x % 256 := by simp
    simp only [le, ofLe, ih (x / 256) (by omega), hbyte]
    omega

theorem ofBe_be (n x : Nat) (hx : x < 256 ^ n) : ofBe (be n x) = x := by
  rw [ofBe, be, List.reverse_reverse, ofLe_le n x hx]

end Bytes

end Kratos
