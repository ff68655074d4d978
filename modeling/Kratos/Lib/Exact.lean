import Kratos.Lib.Word

/-!
# Exact machine arithmetic

With or without overflow checks an operation gives the number it stands for exactly if that number
fits: otherwise the program stops, or goes on with another one.
-/

namespace Kratos

namespace Word

variable (checks : Bool) (w a b : Nat)

theorem addW_exact_iff : addW checks w a b = some (a + b) ↔ a + b < 2 ^ w := by
  refine ⟨fun h => ?_, addW_of_lt checks w a b⟩
  by_contra hlt
  rw [addW, if_neg hlt] at h
  cases checks with
  | true => cases h
  | false =>
    have hmod := Nat.mod_lt (a + b) (Nat.two_pow_pos w)
    have heq : (a + b) % 2 ^ w = a + b := Option.some.inj h
    omega

/-! ## With checks, a step of a computation -/

variable {α : Type} (f : Nat → Option α)

theorem addW_bind_isSome_iff : ((addW true w a b).bind f).isSome ↔ a + b < 2 ^ w ∧ (f (a + b)).isSome := by
  unfold addW
  split <;> simp_all

theorem subW_bind_isSome_iff : ((subW true w a b).bind f).isSome ↔ b ≤ a ∧ (f (a - b)).isSome := by
  unfold subW
  split <;> simp_all

theorem mulW_bind_isSome_iff : ((mulW true w a b).bind f).isSome ↔ a * b < 2 ^ w ∧ (f (a * b)).isSome := by
  unfold mulW
  split <;> simp_all

end Word

end Kratos
