import Kratos.Lib.FirstMax

/-!
# Drawing the largest, round by round

`drawMax` takes the first of the largest elements out of a list, once for each of a list of keys, until
nobody is left.  It draws different elements of the list, as many as there are rounds or elements.  The
draw is the same for every order of the list exactly if in every round one element has a key above all
others (`drawMax_perm_iff`).
-/

namespace Kratos

variable {α σ : Type} [DecidableEq α] [LinearOrder σ]

/-- One element a round, without replacement. -/
def drawMax : List (α → σ) → List α → List α
  | [], _ => []
  | key :: keys, l =>
    match firstMax key l with
    | none => []
    | some a => a :: drawMax keys (l.filter fun b => b ≠ a)

theorem drawMax_nil (keys : List (α → σ)) : drawMax keys ([] : List α) = [] := by
  cases keys <;> rfl

theorem drawMax_cons (key : α → σ) (keys : List (α → σ)) (l : List α) (a : α) (h : firstMax key l = some a) :
    drawMax (key :: keys) l = a :: drawMax keys (l.filter fun b => b ≠ a) := by
  rw [drawMax, h]

theorem mem_of_mem_drawMax (keys : List (α → σ)) (l : List α) (a : α) (h : a ∈ drawMax keys l) : a ∈ l := by
  induction keys generalizing l with
  | nil => cases h
  | cons key keys ih =>
    cases hf : firstMax key l with
    | none =>
      rw [drawMax, hf] at h
      cases h
    | some b =>
      rw [drawMax_cons key keys l b hf] at h
      rcases List.mem_cons.mp h with rfl | h
      · exact (isFirstMax_firstMax key l a hf).mem
      · exact (List.mem_filter.mp (ih _ h)).1

theorem drawMax_nodup (keys : List (α → σ)) (l : List α) : (drawMax keys l).Nodup := by
  induction keys generalizing l with
  | nil => exact List.nodup_nil
  | cons key keys ih =>
    cases hf : firstMax key l with
    | none =>
      rw [drawMax, hf]
      exact List.nodup_nil
    | some b =>
      rw [drawMax_cons key keys l b hf, List.nodup_cons]
      refine ⟨?_, ih _⟩
      intro hb
      have := (List.mem_filter.mp (mem_of_mem_drawMax keys _ b hb)).2
      simp at this

theorem erase_eq_filter_ne (l : List α) (hl : l.Nodup) (a : α) : l.erase a = l.filter fun b => b ≠ a := by
  rw [List.Nodup.erase_eq_filter hl a]
  apply List.filter_congr
  intro b _
  by_cases hb : b = a <;> simp [hb]

/-- Without the drawn element the list is shorter by one. -/
theorem length_filter_ne (l : List α) (hl : l.Nodup) (a : α) (ha : a ∈ l) :
    (l.filter fun b => b ≠ a).length + 1 = l.length := by
  rw [← erase_eq_filter_ne l hl a, List.length_erase_of_mem ha]
  have := List.length_pos_of_mem ha
  omega

theorem drawMax_length (keys : List (α → σ)) (l : List α) (hl : l.Nodup) :
    (drawMax keys l).length = min keys.length l.length := by
  induction keys generalizing l with
  | nil => simp [drawMax]
  | cons key keys ih =>
    by_cases hne : l = []
    · rw [hne, drawMax_nil]
      simp
    · obtain ⟨a, ha⟩ := firstMax_isSome key l hne
      have hlength := length_filter_ne l hl a (isFirstMax_firstMax key l a ha).mem
      rw [drawMax_cons key keys l a ha, List.length_cons, ih _ (hl.filter _), List.length_cons]
      omega

/-- In every round one element with the property has a key above all others. -/
def Unrivalled (P : α → Prop) : List (α → σ) → List α → Prop
  | [], _ => True
  | key :: keys, l =>
    l = [] ∨ ∃ a ∈ l, (∀ b ∈ l, b ≠ a → key b < key a) ∧ P a ∧ Unrivalled P keys (l.filter fun b => b ≠ a)

/-- Moved to the front, an element leaves the others in any order. -/
theorem cons_perm_of_filter_ne (l l' : List α) (hl : l.Nodup) (a : α) (ha : a ∈ l)
    (h : l'.Perm (l.filter fun b => b ≠ a)) : (a :: l').Perm l := by
  rw [← erase_eq_filter_ne l hl a] at h
  exact (h.cons a).trans (List.perm_cons_erase ha).symm

theorem filter_ne_cons (l' l : List α) (a : α) (h : l'.Perm (l.filter fun b => b ≠ a)) :
    ((a :: l').filter fun b => b ≠ a) = l' := by
  rw [List.filter_cons_of_neg (by simp), List.filter_eq_self]
  intro b hb
  exact (List.mem_filter.mp (h.mem_iff.mp hb)).2

/-- The draw is the same for every order, and all drawn elements have the property, exactly if nobody
with a rival or without the property comes first in a round. -/
theorem drawMax_perm_iff (P : α → Prop) (keys : List (α → σ)) (l : List α) (hl : l.Nodup) :
    (∀ l' : List α, l'.Perm l → drawMax keys l' = drawMax keys l ∧ ∀ a ∈ drawMax keys l', P a) ↔
      Unrivalled P keys l := by
  induction keys generalizing l with
  | nil =>
    refine iff_of_true ?_ trivial
    intro l' _
    exact ⟨rfl, fun a ha => absurd ha List.not_mem_nil⟩
  | cons key keys ih =>
    constructor
    · intro h
      by_cases hne : l = []
      · exact .inl hne
      · obtain ⟨a, ha⟩ := firstMax_isSome key l hne
        have hl₀ := drawMax_cons key keys l a ha
        -- the first of the draw is the first of the largest
        have hall : ∀ l' : List α, l'.Perm l → firstMax key l' = some a := by
          intro l' hl'
          have hne' : l' ≠ [] := fun hnil => hne (List.nil_perm.mp (hnil ▸ hl'))
          obtain ⟨b, hb⟩ := firstMax_isSome key l' hne'
          have hsame := (h l' hl').1
          rw [drawMax_cons key keys l' b hb, hl₀] at hsame
          rw [hb, (List.cons.inj hsame).1]
        obtain ⟨hmem, hlt⟩ := (firstMax_perm_iff key l hl a).mp hall
        refine .inr ⟨a, hmem, hlt, ?_, ?_⟩
        · apply (h l (.refl l)).2
          rw [hl₀]
          exact List.mem_cons_self
        · apply (ih _ (hl.filter _)).mp
          intro rest hrest
          have hperm := cons_perm_of_filter_ne l rest hl a hmem hrest
          obtain ⟨hsame, hP⟩ := h _ hperm
          rw [drawMax_cons key keys _ a (hall _ hperm), filter_ne_cons rest l a hrest] at hsame hP
          rw [hl₀] at hsame
          refine ⟨(List.cons.inj hsame).2, ?_⟩
          intro b hb
          exact hP b (List.mem_cons_of_mem a hb)
    · rintro (rfl | ⟨a, hmem, hlt, hPa, hrest⟩) l' hl'
      · rw [hl'.eq_nil, drawMax_nil]
        exact ⟨rfl, fun a ha => absurd ha List.not_mem_nil⟩
      · have hall := (firstMax_perm_iff key l hl a).mpr ⟨hmem, hlt⟩
        have hsame := (ih _ (hl.filter _)).mpr hrest _ (hl'.filter fun b => b ≠ a)
        rw [drawMax_cons key keys l' a (hall l' hl'), drawMax_cons key keys l a (hall l (.refl l)), hsame.1]
        refine ⟨rfl, ?_⟩
        intro b hb
        rcases List.mem_cons.mp hb with rfl | hb
        · exact hPa
        · exact hsame.2 b (hsame.1 ▸ hb)

end Kratos
