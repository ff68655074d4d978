import Mathlib

/-!
# The first of the largest elements

The head of a list after a stable sort in descending order of a key is the first of the
elements with the largest key (`firstMax_eq_some_iff`).  It stays the same when elements are
left out around it (`firstMax_filter`), and it is the same for every order of the list exactly
when no other element has its key (`firstMax_perm_iff`).
-/

namespace Kratos

variable {α β σ : Type} [LinearOrder σ]

/-- The head after a stable sort, largest keys first. -/
def firstMax (key : α → σ) (l : List α) : Option α :=
  (l.insertionSort fun a b => key b ≤ key a).head?

theorem firstMax_nil (key : α → σ) : firstMax key [] = none := rfl

theorem firstMax_cons (key : α → σ) (a : α) (l : List α) :
    firstMax key (a :: l) =
      some (match firstMax key l with
        | none => a
        | some b => if key b ≤ key a then a else b) := by
  unfold firstMax
  rw [List.insertionSort_cons]
  cases l.insertionSort fun a b => key b ≤ key a with
  | nil => rfl
  | cons b rest =>
    rw [List.orderedInsert_cons]
    by_cases hab : key b ≤ key a <;> simp [hab]

/-- The element stands after strictly smaller ones and before ones that are not larger. -/
def IsFirstMax (key : α → σ) (l : List α) (a : α) : Prop :=
  ∃ before after, l = before ++ a :: after ∧ (∀ b ∈ before, key b < key a) ∧ ∀ b ∈ after, key b ≤ key a

theorem isFirstMax_firstMax (key : α → σ) (l : List α) (a : α) (h : firstMax key l = some a) :
    IsFirstMax key l a := by
  induction l generalizing a with
  | nil => cases h
  | cons x l ih =>
    rw [firstMax_cons, Option.some.injEq] at h
    cases hl : firstMax key l with
    | none =>
      rw [hl] at h
      obtain rfl : x = a := h
      have hnil : l = [] := by
        cases l with
        | nil => rfl
        | cons y l => rw [firstMax_cons] at hl; cases hl
      exact ⟨[], l, rfl, by simp, by simp [hnil]⟩
    | some b =>
      rw [hl] at h
      obtain ⟨before, after, rfl, hb, ha⟩ := ih b hl
      simp only at h
      split at h
      · rename_i hle
        subst h
        refine ⟨[], _, rfl, by simp, fun c hc => ?_⟩
        rcases List.mem_append.mp hc with hc | hc
        · exact (hb c hc).le.trans hle
        · rcases List.mem_cons.mp hc with rfl | hc
          · exact hle
          · exact (ha c hc).trans hle
      · rename_i hlt
        subst h
        refine ⟨x :: before, after, rfl, fun c hc => ?_, ha⟩
        rcases List.mem_cons.mp hc with rfl | hc
        · exact lt_of_not_ge hlt
        · exact hb c hc

theorem isFirstMax_unique (key : α → σ) (l : List α) (a b : α) (ha : IsFirstMax key l a)
    (hb : IsFirstMax key l b) : a = b := by
  obtain ⟨l₁, l₂, rfl, h₁, h₂⟩ := ha
  obtain ⟨m₁, m₂, he, k₁, k₂⟩ := hb
  -- whichever stands first would be strictly smaller than the other
  rcases List.append_eq_append_iff.mp he with ⟨d, rfl, hd⟩ | ⟨d, rfl, hd⟩
  · cases d with
    | nil =>
      rw [List.nil_append] at hd
      exact (List.cons.inj hd).1
    | cons c d =>
      obtain ⟨rfl, rfl⟩ := List.cons.inj hd
      have hab := k₁ a (by simp)
      have hba := h₂ b (by simp)
      exact absurd hab (not_lt_of_ge hba)
  · cases d with
    | nil =>
      rw [List.nil_append] at hd
      exact (List.cons.inj hd).1.symm
    | cons c d =>
      obtain ⟨rfl, rfl⟩ := List.cons.inj hd
      have hba := h₁ b (by simp)
      have hab := k₂ a (by simp)
      exact absurd hba (not_lt_of_ge hab)

theorem firstMax_isSome (key : α → σ) (l : List α) (h : l ≠ []) : ∃ a, firstMax key l = some a := by
  cases l with
  | nil => exact absurd rfl h
  | cons x l => exact ⟨_, firstMax_cons key x l⟩

theorem firstMax_eq_some_iff (key : α → σ) (l : List α) (a : α) :
    firstMax key l = some a ↔ IsFirstMax key l a := by
  constructor
  · exact isFirstMax_firstMax key l a
  · intro h
    obtain ⟨b, hb⟩ := firstMax_isSome key l (by obtain ⟨l₁, l₂, rfl, -⟩ := h; simp)
    rw [hb, isFirstMax_unique key l a b h (isFirstMax_firstMax key l b hb)]

theorem IsFirstMax.mem {key : α → σ} {l : List α} {a : α} (h : IsFirstMax key l a) : a ∈ l := by
  obtain ⟨l₁, l₂, rfl, -⟩ := h
  simp

theorem IsFirstMax.le {key : α → σ} {l : List α} {a : α} (h : IsFirstMax key l a) (b : α) (hb : b ∈ l) :
    key b ≤ key a := by
  obtain ⟨l₁, l₂, rfl, h₁, h₂⟩ := h
  rcases List.mem_append.mp hb with hb | hb
  · exact (h₁ b hb).le
  · rcases List.mem_cons.mp hb with rfl | hb
    · exact le_rfl
    · exact h₂ b hb

theorem firstMax_map (key : β → σ) (f : α → β) (l : List α) :
    firstMax key (l.map f) = (firstMax (fun a => key (f a)) l).map f := by
  induction l with
  | nil => rfl
  | cons x l ih =>
    rw [List.map_cons, firstMax_cons, firstMax_cons, ih]
    cases firstMax (fun a => key (f a)) l with
    | none => rfl
    | some b =>
      by_cases hle : key (f b) ≤ key (f x) <;> simp [hle]

theorem firstMax_congr (key key' : α → σ) (l : List α) (h : ∀ a ∈ l, key a = key' a) :
    firstMax key l = firstMax key' l := by
  induction l with
  | nil => rfl
  | cons x l ih =>
    rw [firstMax_cons, firstMax_cons, ← ih fun a ha => h a (List.mem_cons_of_mem _ ha)]
    cases hl : firstMax key l with
    | none => rfl
    | some b =>
      have hb := (isFirstMax_firstMax key l b hl).mem
      simp only [h x List.mem_cons_self, h b (List.mem_cons_of_mem _ hb)]

/-- Leaving out other elements leaves the first of the largest in place. -/
theorem firstMax_filter (key : α → σ) (p : α → Bool) (l : List α) (a : α) (h : firstMax key l = some a)
    (ha : p a = true) : firstMax key (l.filter p) = some a := by
  obtain ⟨l₁, l₂, rfl, h₁, h₂⟩ := isFirstMax_firstMax key l a h
  rw [firstMax_eq_some_iff]
  refine ⟨l₁.filter p, l₂.filter p, by simp [ha], ?_, ?_⟩
  · exact fun b hb => h₁ b (List.mem_filter.mp hb).1
  · exact fun b hb => h₂ b (List.mem_filter.mp hb).1

/-- An element that no other one reaches is the first of the largest. -/
theorem firstMax_of_forall_lt (key : α → σ) (l : List α) (hnodup : l.Nodup) (a : α) (ha : a ∈ l)
    (h : ∀ b ∈ l, b ≠ a → key b < key a) : firstMax key l = some a := by
  obtain ⟨l₁, l₂, rfl⟩ := List.append_of_mem ha
  obtain ⟨-, hcons, hdisj⟩ := List.nodup_append.mp hnodup
  rw [firstMax_eq_some_iff]
  refine ⟨l₁, l₂, rfl, fun b hb => h b (by simp [hb]) ?_, fun b hb => (h b (by simp [hb]) ?_).le⟩
  · rintro rfl
    exact hdisj b hb b (by simp) rfl
  · rintro rfl
    exact (List.nodup_cons.mp hcons).1 hb

/-- The first of the largest is the same for every order of a list exactly when no other element
has its key. -/
theorem firstMax_perm_iff (key : α → σ) (l : List α) (hnodup : l.Nodup) (a : α) :
    (∀ l' : List α, l'.Perm l → firstMax key l' = some a) ↔ a ∈ l ∧ ∀ b ∈ l, b ≠ a → key b < key a := by
  constructor
  · intro h
    have ha := isFirstMax_firstMax key l a (h l (.refl _))
    refine ⟨ha.mem, fun b hb hne => lt_of_le_of_ne (ha.le b hb) fun heq => ?_⟩
    -- moved to the front, an element with the same key is selected
    obtain ⟨l₁, l₂, rfl⟩ := List.append_of_mem hb
    have hfront := h (b :: (l₁ ++ l₂)) List.perm_middle.symm
    have hmax : firstMax key (b :: (l₁ ++ l₂)) = some b := by
      rw [firstMax_eq_some_iff]
      exact ⟨[], _, rfl, by simp, fun c hc => heq ▸ ha.le c (by
        rcases List.mem_append.mp hc with hc | hc <;> simp [hc])⟩
    rw [hmax] at hfront
    exact hne (Option.some.inj hfront)
  · rintro ⟨ha, h⟩ l' hl'
    exact firstMax_of_forall_lt key l' (hl'.nodup_iff.mpr hnodup) a (hl'.mem_iff.mpr ha)
      fun b hb hne => h b (hl'.mem_iff.mp hb) hne

end Kratos
