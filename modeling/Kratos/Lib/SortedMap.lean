import Mathlib

/-!
# Sorted maps

A finite map kept as an association list with strictly increasing keys.  The
order is a field, so a `SortedMap` is determined by its lookups (`ext_find`)
and iterating over it is iterating in key order, as over a `BTreeMap`.

`sumOf f m` adds `f k v` over the entries; an insertion changes it by the new
entry minus the replaced one (`sumOf_insert`), an erasure by the removed one
(`sumOf_erase`).
-/

namespace Kratos

/-- Entries in strictly increasing key order. -/
structure SortedMap (κ ν : Type) [LinearOrder κ] where
  entries : List (κ × ν)
  sorted : entries.Pairwise fun a b => a.1 < b.1

namespace SortedMap

variable {κ ν : Type} [LinearOrder κ]

/-! ## Lists of entries -/

def lookup (k : κ) : List (κ × ν) → Option ν
  | [] => none
  | e :: l => if k = e.1 then some e.2 else lookup k l

def insertList (k : κ) (v : ν) : List (κ × ν) → List (κ × ν)
  | [] => [(k, v)]
  | e :: l =>
    if k < e.1 then (k, v) :: e :: l
    else if k = e.1 then (k, v) :: l
    else e :: insertList k v l

def eraseList (k : κ) : List (κ × ν) → List (κ × ν)
  | [] => []
  | e :: l => if k = e.1 then l else e :: eraseList k l

theorem mem_insertList (k : κ) (v : ν) (l : List (κ × ν)) (e : κ × ν) (h : e ∈ insertList k v l) :
    e = (k, v) ∨ e ∈ l := by
  induction l with
  | nil => simpa [insertList] using h
  | cons d l ih =>
    unfold insertList at h
    split at h
    · simpa using h
    · split at h
      · rcases List.mem_cons.mp h with h | h
        · exact Or.inl h
        · exact Or.inr (List.mem_cons_of_mem _ h)
      · rcases List.mem_cons.mp h with h | h
        · exact Or.inr (by simp [h])
        · rcases ih h with h | h
          · exact Or.inl h
          · exact Or.inr (List.mem_cons_of_mem _ h)

theorem mem_eraseList (k : κ) (l : List (κ × ν)) (e : κ × ν) (h : e ∈ eraseList k l) : e ∈ l := by
  induction l with
  | nil => exact h
  | cons d l ih =>
    unfold eraseList at h
    split at h
    · exact List.mem_cons_of_mem _ h
    · rcases List.mem_cons.mp h with h | h
      · simp [h]
      · exact List.mem_cons_of_mem _ (ih h)

theorem insertList_sorted (k : κ) (v : ν) (l : List (κ × ν))
    (h : l.Pairwise fun a b => a.1 < b.1) : (insertList k v l).Pairwise fun a b => a.1 < b.1 := by
  induction l with
  | nil => simp [insertList]
  | cons d l ih =>
    rw [List.pairwise_cons] at h
    unfold insertList
    split
    · next hlt =>
      rw [List.pairwise_cons, List.pairwise_cons]
      refine ⟨fun e he => ?_, h⟩
      rcases List.mem_cons.mp he with rfl | he
      · exact hlt
      · exact lt_trans hlt (h.1 e he)
    · next hlt =>
      split
      · next heq =>
        rw [List.pairwise_cons]
        exact ⟨fun e he => heq ▸ h.1 e he, h.2⟩
      · next hne =>
        rw [List.pairwise_cons]
        refine ⟨fun e he => ?_, ih h.2⟩
        rcases mem_insertList k v l e he with rfl | he
        · exact lt_of_le_of_ne (not_lt.mp hlt) (Ne.symm hne)
        · exact h.1 e he

theorem eraseList_sorted (k : κ) (l : List (κ × ν))
    (h : l.Pairwise fun a b => a.1 < b.1) : (eraseList k l).Pairwise fun a b => a.1 < b.1 := by
  induction l with
  | nil => exact h
  | cons d l ih =>
    rw [List.pairwise_cons] at h
    unfold eraseList
    split
    · exact h.2
    · rw [List.pairwise_cons]
      exact ⟨fun e he => h.1 e (mem_eraseList k l e he), ih h.2⟩

theorem lookup_eq_none_of_lt (k : κ) (l : List (κ × ν)) (h : ∀ e ∈ l, k < e.1) :
    lookup k l = none := by
  induction l with
  | nil => rfl
  | cons d l ih =>
    unfold lookup
    rw [if_neg (ne_of_lt (h d List.mem_cons_self)),
      ih fun e he => h e (List.mem_cons_of_mem _ he)]

theorem mem_of_lookup (k : κ) (v : ν) (l : List (κ × ν)) (h : lookup k l = some v) :
    (k, v) ∈ l := by
  induction l with
  | nil => cases h
  | cons d l ih =>
    unfold lookup at h
    split at h
    · next heq =>
      cases h
      rw [heq]
      exact List.mem_cons_self
    · exact List.mem_cons_of_mem _ (ih h)

theorem lookup_of_mem (k : κ) (v : ν) (l : List (κ × ν)) (h : l.Pairwise fun a b => a.1 < b.1)
    (hm : (k, v) ∈ l) : lookup k l = some v := by
  induction l with
  | nil => cases hm
  | cons d l ih =>
    rw [List.pairwise_cons] at h
    unfold lookup
    rcases List.mem_cons.mp hm with rfl | hm
    · simp
    · rw [if_neg (ne_of_gt (h.1 _ hm)), ih h.2 hm]

theorem lookup_insertList (k j : κ) (v : ν) (l : List (κ × ν)) :
    lookup j (insertList k v l) = if j = k then some v else lookup j l := by
  induction l with
  | nil => simp [insertList, lookup]
  | cons d l ih =>
    unfold insertList
    split
    · simp [lookup]
    · split
      · next heq =>
        simp only [lookup, heq]
        split <;> rfl
      · next hne =>
        simp only [lookup, ih]
        by_cases hj : j = d.1
        · rw [if_pos hj, if_neg (fun hk : j = k => hne (hk ▸ hj)), if_pos hj]
        · rw [if_neg hj, if_neg hj]

theorem lookup_eraseList (k j : κ) (l : List (κ × ν)) (h : l.Pairwise fun a b => a.1 < b.1) :
    lookup j (eraseList k l) = if j = k then none else lookup j l := by
  induction l with
  | nil => simp [eraseList, lookup]
  | cons d l ih =>
    rw [List.pairwise_cons] at h
    unfold eraseList
    split
    · next heq =>
      by_cases hj : j = k
      · rw [if_pos hj, hj, heq]
        exact lookup_eq_none_of_lt _ _ h.1
      · rw [if_neg hj]
        simp only [lookup]
        rw [if_neg (heq ▸ hj)]
    · next hne =>
      simp only [lookup, ih h.2]
      by_cases hj : j = d.1
      · rw [if_pos hj, if_neg (fun hk : j = k => hne (hk ▸ hj)), if_pos hj]
      · rw [if_neg hj, if_neg hj]

theorem eq_of_lookup_eq (l₁ l₂ : List (κ × ν)) (h₁ : l₁.Pairwise fun a b => a.1 < b.1)
    (h₂ : l₂.Pairwise fun a b => a.1 < b.1) (h : ∀ k, lookup k l₁ = lookup k l₂) : l₁ = l₂ := by
  induction l₁ generalizing l₂ with
  | nil =>
    cases l₂ with
    | nil => rfl
    | cons d l => simpa [lookup] using h d.1
  | cons c l ih =>
    cases l₂ with
    | nil => simpa [lookup] using h c.1
    | cons d m =>
      rw [List.pairwise_cons] at h₁ h₂
      -- the two least keys are equal: each is looked up in the other list
      have hkey : c.1 = d.1 := by
        rcases lt_trichotomy c.1 d.1 with hlt | heq | hlt
        · have hn : lookup c.1 (d :: m) = none := lookup_eq_none_of_lt _ _ (by
            intro e he
            rcases List.mem_cons.mp he with rfl | he
            · exact hlt
            · exact lt_trans hlt (h₂.1 e he))
          rw [← h c.1] at hn
          simp [lookup] at hn
        · exact heq
        · have hn : lookup d.1 (c :: l) = none := lookup_eq_none_of_lt _ _ (by
            intro e he
            rcases List.mem_cons.mp he with rfl | he
            · exact hlt
            · exact lt_trans hlt (h₁.1 e he))
          rw [h d.1] at hn
          simp [lookup] at hn
      have hval : c.2 = d.2 := by
        have := h c.1
        simpa [lookup, hkey] using this
      have htail : l = m := by
        refine ih m h₁.2 h₂.2 fun k => ?_
        by_cases hk : k = c.1
        · rw [hk, lookup_eq_none_of_lt _ _ h₁.1, hkey, lookup_eq_none_of_lt _ _ h₂.1]
        · have := h k
          simp only [lookup] at this
          rwa [if_neg hk, if_neg (hkey ▸ hk)] at this
      rw [Prod.ext hkey hval, htail]

/-! ## Maps -/

def empty : SortedMap κ ν := ⟨[], List.Pairwise.nil⟩

def find? (m : SortedMap κ ν) (k : κ) : Option ν := lookup k m.entries

def contains (m : SortedMap κ ν) (k : κ) : Bool := (m.find? k).isSome

def insert (m : SortedMap κ ν) (k : κ) (v : ν) : SortedMap κ ν :=
  ⟨insertList k v m.entries, insertList_sorted k v m.entries m.sorted⟩

def erase (m : SortedMap κ ν) (k : κ) : SortedMap κ ν :=
  ⟨eraseList k m.entries, eraseList_sorted k m.entries m.sorted⟩

def size (m : SortedMap κ ν) : Nat := m.entries.length

def keys (m : SortedMap κ ν) : List κ := m.entries.map Prod.fst

def values (m : SortedMap κ ν) : List ν := m.entries.map Prod.snd

/-- The entries a predicate accepts. -/
def filter (m : SortedMap κ ν) (p : κ → ν → Bool) : SortedMap κ ν :=
  ⟨m.entries.filter fun e => p e.1 e.2, m.sorted.filter _⟩

/-- Every value replaced by a function of its entry. -/
def map {μ : Type} (m : SortedMap κ ν) (f : κ → ν → μ) : SortedMap κ μ :=
  ⟨m.entries.map fun e => (e.1, f e.1 e.2), List.pairwise_map.mpr m.sorted⟩

/-- Total of `f` over the entries. -/
def sumOf (f : κ → ν → Nat) (m : SortedMap κ ν) : Nat := (m.entries.map fun e => f e.1 e.2).sum

instance [DecidableEq ν] : DecidableEq (SortedMap κ ν) := fun a b =>
  decidable_of_iff (a.entries = b.entries)
    ⟨fun h => by cases a; cases b; cases h; rfl, fun h => h ▸ rfl⟩

theorem ext_entries (a b : SortedMap κ ν) (h : a.entries = b.entries) : a = b := by
  cases a; cases b; cases h; rfl

/-- **Extensionality.**  A sorted map is its lookups. -/
theorem ext_find (a b : SortedMap κ ν) (h : ∀ k, a.find? k = b.find? k) : a = b :=
  ext_entries a b (eq_of_lookup_eq a.entries b.entries a.sorted b.sorted h)

theorem mem_entries_iff (m : SortedMap κ ν) (k : κ) (v : ν) :
    (k, v) ∈ m.entries ↔ m.find? k = some v :=
  ⟨lookup_of_mem k v m.entries m.sorted, mem_of_lookup k v m.entries⟩

theorem mem_keys_filter_iff (m : SortedMap κ ν) (p : κ → ν → Bool) (k : κ) :
    k ∈ (m.filter p).keys ↔ ∃ v, m.find? k = some v ∧ p k v = true := by
  unfold keys filter
  constructor
  · intro h
    obtain ⟨e, he, rfl⟩ := List.mem_map.mp h
    obtain ⟨hmem, hp⟩ := List.mem_filter.mp he
    exact ⟨e.2, (m.mem_entries_iff e.1 e.2).mp hmem, hp⟩
  · rintro ⟨v, hv, hp⟩
    apply List.mem_map.mpr
    exact ⟨(k, v), List.mem_filter.mpr ⟨(m.mem_entries_iff k v).mpr hv, hp⟩, rfl⟩

theorem keys_filter_isEmpty_iff (m : SortedMap κ ν) (p : κ → ν → Bool) :
    (m.filter p).keys.isEmpty = true ↔ ∀ k v, m.find? k = some v → p k v = false := by
  rw [List.isEmpty_iff, List.eq_nil_iff_forall_not_mem]
  constructor
  · intro h k v hf
    by_contra hp
    exact h k ((mem_keys_filter_iff m p k).mpr ⟨v, hf, by simpa using hp⟩)
  · intro h k hk
    obtain ⟨v, hf, hp⟩ := (mem_keys_filter_iff m p k).mp hk
    rw [h k v hf] at hp
    cases hp

theorem mem_keys_iff (m : SortedMap κ ν) (k : κ) : k ∈ m.keys ↔ ∃ v, m.find? k = some v := by
  unfold keys
  rw [List.mem_map]
  constructor
  · rintro ⟨e, he, rfl⟩
    exact ⟨e.2, (m.mem_entries_iff e.1 e.2).mp he⟩
  · rintro ⟨v, hv⟩
    exact ⟨(k, v), (m.mem_entries_iff k v).mpr hv, rfl⟩

theorem mem_values_iff (m : SortedMap κ ν) (v : ν) : v ∈ m.values ↔ ∃ k, m.find? k = some v := by
  unfold values
  rw [List.mem_map]
  constructor
  · rintro ⟨e, he, rfl⟩
    exact ⟨e.1, (m.mem_entries_iff e.1 e.2).mp he⟩
  · rintro ⟨k, hk⟩
    exact ⟨(k, v), (m.mem_entries_iff k v).mpr hk, rfl⟩

theorem keys_nodup (m : SortedMap κ ν) : m.keys.Nodup := by
  unfold keys List.Nodup
  rw [List.pairwise_map]
  exact m.sorted.imp fun h => ne_of_lt h

theorem find?_insert (m : SortedMap κ ν) (k j : κ) (v : ν) :
    (m.insert k v).find? j = if j = k then some v else m.find? j :=
  lookup_insertList k j v m.entries

@[simp] theorem find?_insert_self (m : SortedMap κ ν) (k : κ) (v : ν) :
    (m.insert k v).find? k = some v := by
  rw [find?_insert, if_pos rfl]

theorem find?_insert_ne (m : SortedMap κ ν) (k j : κ) (v : ν) (h : j ≠ k) :
    (m.insert k v).find? j = m.find? j := by
  rw [find?_insert, if_neg h]

theorem find?_erase (m : SortedMap κ ν) (k j : κ) :
    (m.erase k).find? j = if j = k then none else m.find? j :=
  lookup_eraseList k j m.entries m.sorted

theorem find?_map {μ : Type} (m : SortedMap κ ν) (f : κ → ν → μ) (k : κ) :
    (m.map f).find? k = (m.find? k).map (f k) := by
  unfold find? map
  simp only
  induction m.entries with
  | nil => rfl
  | cons e l ih =>
    simp only [List.map_cons, lookup]
    split
    · next hk => rw [hk]; rfl
    · exact ih

theorem find?_filter (m : SortedMap κ ν) (p : κ → ν → Bool) (k : κ) :
    (m.filter p).find? k = (m.find? k).filter (p k) := by
  apply Option.ext
  intro v
  rw [← mem_entries_iff, Option.filter_eq_some_iff, ← mem_entries_iff]
  exact List.mem_filter

theorem map_insert {μ : Type} (m : SortedMap κ ν) (f : κ → ν → μ) (k : κ) (v : ν) :
    (m.insert k v).map f = (m.map f).insert k (f k v) := by
  apply ext_find
  intro j
  rw [find?_map, find?_insert, find?_insert, find?_map]
  split
  · next hj => rw [hj, Option.map_some]
  · rfl

/-- A key above all others is entered at the end. -/
theorem entries_insert_of_lt (m : SortedMap κ ν) (k : κ) (v : ν) (h : ∀ j ∈ m.keys, j < k) :
    (m.insert k v).entries = m.entries ++ [(k, v)] := by
  have hlist : ∀ l : List (κ × ν), (∀ e ∈ l, e.1 < k) → insertList k v l = l ++ [(k, v)] := by
    intro l
    induction l with
    | nil => exact fun _ => rfl
    | cons e l ih =>
      intro hl
      have he := hl e List.mem_cons_self
      rw [insertList, if_neg (not_lt_of_gt he), if_neg (ne_of_gt he), ih fun d hd => hl d (List.mem_cons_of_mem e hd)]
      rfl
  exact hlist m.entries fun e he => h e.1 (List.mem_map_of_mem he)

/-- Only writing back what is stored changes nothing. -/
theorem insert_eq_self_iff (m : SortedMap κ ν) (k : κ) (v : ν) :
    m.insert k v = m ↔ m.find? k = some v := by
  constructor
  · intro h
    rw [← h, find?_insert_self]
  · intro h
    apply ext_find
    intro j
    rw [find?_insert]
    split
    · next hj => rw [hj, h]
    · rfl

theorem erase_eq_self_iff (m : SortedMap κ ν) (k : κ) : m.erase k = m ↔ m.find? k = none := by
  constructor
  · intro h
    rw [← h, find?_erase, if_pos rfl]
  · intro h
    apply ext_find
    intro j
    rw [find?_erase]
    split
    · next hj => rw [hj, h]
    · rfl

/-- A second write to the same key hides the first. -/
@[simp] theorem insert_insert (m : SortedMap κ ν) (k : κ) (v w : ν) :
    (m.insert k v).insert k w = m.insert k w := by
  apply ext_find
  intro j
  simp only [find?_insert]
  split <;> rfl

/-- Two keys can be written in either order. -/
theorem insert_comm (m : SortedMap κ ν) (k j : κ) (v w : ν) (h : k ≠ j) :
    (m.insert k v).insert j w = (m.insert j w).insert k v := by
  apply ext_find
  intro i
  simp only [find?_insert]
  by_cases hj : i = j
  · rw [if_pos hj, if_neg (fun hk => h (hk.symm.trans hj)), if_pos hj]
  · rw [if_neg hj, if_neg hj]

/-! ## Sums -/

theorem sum_insertList (f : κ → ν → Nat) (k : κ) (v : ν) (l : List (κ × ν))
    (h : l.Pairwise fun a b => a.1 < b.1) :
    ((insertList k v l).map fun e => f e.1 e.2).sum + (lookup k l).elim 0 (f k) =
      (l.map fun e => f e.1 e.2).sum + f k v := by
  induction l with
  | nil => simp [insertList, lookup]
  | cons d l ih =>
    rw [List.pairwise_cons] at h
    unfold insertList
    split
    · next hlt =>
      rw [lookup_eq_none_of_lt k (d :: l) (by
        intro e he
        rcases List.mem_cons.mp he with rfl | he
        · exact hlt
        · exact lt_trans hlt (h.1 e he))]
      simp only [List.map_cons, List.sum_cons, Option.elim_none]
      omega
    · split
      · next heq =>
        simp only [lookup, if_pos heq, List.map_cons, List.sum_cons, Option.elim_some]
        rw [heq]
        omega
      · next hne =>
        have := ih h.2
        simp only [lookup, if_neg hne, List.map_cons, List.sum_cons]
        omega

theorem sum_eraseList (f : κ → ν → Nat) (k : κ) (l : List (κ × ν)) :
    ((eraseList k l).map fun e => f e.1 e.2).sum + (lookup k l).elim 0 (f k) =
      (l.map fun e => f e.1 e.2).sum := by
  induction l with
  | nil => simp [eraseList, lookup]
  | cons d l ih =>
    unfold eraseList
    split
    · next heq =>
      simp only [lookup, if_pos heq, List.map_cons, List.sum_cons, Option.elim_some]
      rw [heq]
      omega
    · next hne =>
      simp only [lookup, if_neg hne, List.map_cons, List.sum_cons]
      omega

/-- An insertion adds the new entry and drops the one it replaces. -/
theorem sumOf_insert (f : κ → ν → Nat) (m : SortedMap κ ν) (k : κ) (v : ν) :
    sumOf f (m.insert k v) + (m.find? k).elim 0 (f k) = sumOf f m + f k v :=
  sum_insertList f k v m.entries m.sorted

theorem sumOf_erase (f : κ → ν → Nat) (m : SortedMap κ ν) (k : κ) :
    sumOf f (m.erase k) + (m.find? k).elim 0 (f k) = sumOf f m :=
  sum_eraseList f k m.entries

/-- One entry is at most the total. -/
theorem le_sumOf (f : κ → ν → Nat) (m : SortedMap κ ν) (k : κ) :
    (m.find? k).elim 0 (f k) ≤ sumOf f m := by
  have := sumOf_erase f m k
  omega

/-- Two different entries together are at most the total. -/
theorem add_le_sumOf (f : κ → ν → Nat) (m : SortedMap κ ν) (k j : κ) (h : k ≠ j) :
    (m.find? k).elim 0 (f k) + (m.find? j).elim 0 (f j) ≤ sumOf f m := by
  have he := sumOf_erase f m k
  have hj := le_sumOf f (m.erase k) j
  rw [find?_erase, if_neg (Ne.symm h)] at hj
  omega

theorem sumOf_congr (f g : κ → ν → Nat) (m : SortedMap κ ν)
    (h : ∀ k v, m.find? k = some v → f k v = g k v) : sumOf f m = sumOf g m := by
  unfold sumOf
  congr 1
  apply List.map_congr_left
  intro e he
  exact h e.1 e.2 ((m.mem_entries_iff e.1 e.2).mp he)

/-- Two weights that differ at one key differ by what they give it. -/
theorem sumOf_eq_at (f g : κ → ν → Nat) (m : SortedMap κ ν) (k : κ) (h : ∀ j v, j ≠ k → f j v = g j v) :
    sumOf f m + (m.find? k).elim 0 (g k) = sumOf g m + (m.find? k).elim 0 (f k) := by
  have hf := sumOf_erase f m k
  have hg := sumOf_erase g m k
  have hcongr : sumOf f (m.erase k) = sumOf g (m.erase k) := by
    apply sumOf_congr
    intro j v hj
    apply h
    rintro rfl
    rw [find?_erase, if_pos rfl] at hj
    cases hj
  omega

theorem sumOf_map {μ : Type} (f : κ → μ → Nat) (g : κ → ν → μ) (m : SortedMap κ ν) :
    sumOf f (m.map g) = sumOf (fun k v => f k (g k v)) m := by
  unfold sumOf map
  rw [List.map_map]
  rfl

theorem sumOf_add (f g : κ → ν → Nat) (m : SortedMap κ ν) :
    sumOf (fun k v => f k v + g k v) m = sumOf f m + sumOf g m := by
  unfold sumOf
  exact List.sum_map_add

theorem sumOf_mono (f g : κ → ν → Nat) (m : SortedMap κ ν) (h : ∀ k v, f k v ≤ g k v) : sumOf f m ≤ sumOf g m := by
  unfold sumOf
  apply List.sum_le_sum
  intro e _
  exact h e.1 e.2

/-- How many entries a predicate accepts. -/
theorem size_filter (m : SortedMap κ ν) (p : κ → ν → Bool) :
    (m.filter p).size = sumOf (fun k v => if p k v then 1 else 0) m := by
  show (m.entries.filter fun e => p e.1 e.2).length = _
  unfold sumOf
  induction m.entries with
  | nil => rfl
  | cons e l ih =>
    by_cases he : p e.1 e.2 = true
    · rw [List.filter_cons_of_pos (by simpa using he)]
      simp only [List.length_cons, List.map_cons, List.sum_cons, if_pos he, ih]
      omega
    · rw [List.filter_cons_of_neg (by simpa using he)]
      simp only [List.map_cons, List.sum_cons, if_neg he, ih]
      omega

theorem sumOf_one (m : SortedMap κ ν) : sumOf (fun _ _ => 1) m = m.size := by
  simp [sumOf, size]

theorem sumOf_le (f : κ → ν → Nat) (m : SortedMap κ ν) (b : Nat) (h : ∀ k v, f k v ≤ b) :
    sumOf f m ≤ m.size * b := by
  unfold sumOf size
  induction m.entries with
  | nil => simp
  | cons e l ih =>
    have he := h e.1 e.2
    simp only [List.map_cons, List.sum_cons, List.length_cons, Nat.succ_mul]
    omega

/-! ## Sizes -/

theorem size_insert_of_none (m : SortedMap κ ν) (k : κ) (v : ν) (h : m.find? k = none) :
    (m.insert k v).size = m.size + 1 := by
  have := sumOf_insert (fun _ _ => 1) m k v
  rw [h, Option.elim_none, sumOf_one, sumOf_one] at this
  exact this

theorem size_erase_of_some (m : SortedMap κ ν) (k : κ) (v : ν) (h : m.find? k = some v) :
    (m.erase k).size + 1 = m.size := by
  have := sumOf_erase (fun _ _ => 1) m k
  rw [h, Option.elim_some, sumOf_one, sumOf_one] at this
  exact this

theorem size_erase_le (m : SortedMap κ ν) (k : κ) : (m.erase k).size ≤ m.size := by
  have := sumOf_erase (fun _ _ => 1) m k
  rw [sumOf_one, sumOf_one] at this
  omega

theorem length_keys (m : SortedMap κ ν) : m.keys.length = m.size := List.length_map _

/-- Keys that are all in a list are at most as many as it has elements. -/
theorem size_le_of_keys (m : SortedMap κ ν) (l : List κ) (h : ∀ k ∈ m.keys, k ∈ l) : m.size ≤ l.length := by
  rw [← m.length_keys]
  exact (m.keys_nodup.subperm h).length_le

/-- Keys that are all in a list are as many as it has elements exactly if all of them are there. -/
theorem size_eq_length_iff (m : SortedMap κ ν) (l : List κ) (hl : l.Nodup) (h : ∀ k ∈ m.keys, k ∈ l) :
    m.size = l.length ↔ ∀ k ∈ l, ∃ v, m.find? k = some v := by
  have hsub : m.keys.Subperm l := m.keys_nodup.subperm h
  constructor
  · intro hsize k hk
    have hperm : m.keys.Perm l := hsub.perm_of_length_le (by rw [m.length_keys, hsize])
    exact (m.mem_keys_iff k).mp (hperm.mem_iff.mpr hk)
  · intro hall
    refine le_antisymm (m.size_le_of_keys l h) ?_
    rw [← m.length_keys]
    exact (hl.subperm fun k hk => (m.mem_keys_iff k).mpr (hall k hk)).length_le

/-- Keys of a finite type are at most as many as its values. -/
theorem size_le_card [Fintype κ] (m : SortedMap κ ν) : m.size ≤ Fintype.card κ := by
  rw [← m.length_keys]
  exact m.keys_nodup.length_le_card

end SortedMap

end Kratos
