import Mathlib

/-!
# Hash-linked chains

In a chain every block names the key of the one before it.  Where blocks of equal keys
have equal contents, and the content of a block fixes the key it names, the last key of a
chain determines the contents of the whole chain (`Chained.content_eq`).
-/

namespace Kratos

namespace HashChain

variable {β κ γ : Type} {key prev : β → κ} {l m : List β}

/-- Every block names the key of the one before it. -/
def Chained (key prev : β → κ) (l : List β) : Prop := l.IsChain fun a b => prev b = key a

theorem chained_append_one (l : List β) (b : β) :
    Chained key prev (l ++ [b]) ↔ Chained key prev l ∧ ∀ a ∈ l.getLast?, prev b = key a := by
  unfold Chained
  rw [List.isChain_append]
  simp

/-- **Commitment.**  Chains of one length and with one last key have the same contents. -/
theorem Chained.content_eq (content : β → γ) (hl : Chained key prev l) (hm : Chained key prev m)
    (hkey : ∀ a ∈ l, ∀ b ∈ m, key a = key b → content a = content b)
    (hprev : ∀ a ∈ l, ∀ b ∈ m, content a = content b → prev a = prev b)
    (hlength : l.length = m.length) (hlast : l.getLast?.map key = m.getLast?.map key) :
    l.map content = m.map content := by
  induction l using List.reverseRecOn generalizing m with
  | nil => rw [List.eq_nil_of_length_eq_zero hlength.symm]
  | append_singleton l a ih =>
    rcases List.eq_nil_or_concat m with rfl | ⟨m, b, rfl⟩
    · simp at hlength
    · rw [List.concat_eq_append] at *
      rw [chained_append_one] at hl hm
      have hmem : a ∈ l ++ [a] ∧ b ∈ m ++ [b] := ⟨by simp, by simp⟩
      have hab : key a = key b := by simpa using hlast
      have hcontent := hkey a hmem.1 b hmem.2 hab
      have hlen : l.length = m.length := by simpa using hlength
      have hlast' : l.getLast?.map key = m.getLast?.map key := by
        -- the last blocks name the same key, so the blocks before them have it
        have hnamed := hprev a hmem.1 b hmem.2 hcontent
        cases hx : l.getLast? with
        | none =>
          rw [List.getLast?_eq_none_iff] at hx
          rw [hx] at hlen
          rw [List.eq_nil_of_length_eq_zero hlen.symm]
          rfl
        | some x =>
          cases hy : m.getLast? with
          | none =>
            rw [List.getLast?_eq_none_iff] at hy
            rw [hy, List.length_nil, List.length_eq_zero_iff] at hlen
            rw [hlen] at hx
            cases hx
          | some y =>
            rw [Option.map_some, Option.map_some, ← hl.2 x hx, ← hm.2 y hy, hnamed]
      rw [List.map_append, List.map_append,
        ih hl.1 hm.1 (fun a ha b hb => hkey a (List.mem_append_left _ ha) b (List.mem_append_left _ hb))
          (fun a ha b hb => hprev a (List.mem_append_left _ ha) b (List.mem_append_left _ hb)) hlen hlast',
        List.map_singleton, List.map_singleton, hcontent]

end HashChain

end Kratos
