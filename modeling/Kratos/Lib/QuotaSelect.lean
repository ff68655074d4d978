import Mathlib

/-!
# Selection with quotas

The best elements of a list that is sorted by merit are selected in two passes.  The first takes at
most `quota` elements of each key, the second fills up with the elements that are left; both stop
at `n`.  The selection has `n` elements or all there are (`length_select`), within a key it leaves
out no element before one it takes (`before_select`), and if a quota is at least one it reaches
every key, or enough keys for the quotas to add up to `n` (`keys_select`).
-/

namespace Kratos

namespace QuotaSelect

variable {α κ : Type} [DecidableEq κ] (key : α → κ) (quota n : Nat)

def quotaPass : List α → List α → List α
  | [], acc => acc
  | a :: l, acc =>
    if (acc.map key).count (key a) < quota then
      if (acc ++ [a]).length ≥ n then acc ++ [a] else quotaPass l (acc ++ [a])
    else quotaPass l acc

def fillPass [DecidableEq α] : List α → List α → List α
  | [], acc => acc
  | a :: l, acc =>
    if a ∈ acc then fillPass l acc
    else if (acc ++ [a]).length ≥ n then acc ++ [a]
    else fillPass l (acc ++ [a])

def select [DecidableEq α] (l : List α) : List α :=
  if (quotaPass key quota n l []).length < n then fillPass n l (quotaPass key quota n l [])
  else quotaPass key quota n l []

/-! ## The first pass -/

theorem quotaPass_eq (l acc : List α) :
    ∃ s, quotaPass key quota n l acc = acc ++ s ∧ s.Sublist l := by
  induction l generalizing acc with
  | nil => exact ⟨[], by rw [quotaPass, List.append_nil], .slnil⟩
  | cons a l ih =>
    unfold quotaPass
    split
    · split
      · exact ⟨[a], rfl, List.singleton_sublist.mpr List.mem_cons_self⟩
      · obtain ⟨s, hs, hl⟩ := ih (acc ++ [a])
        exact ⟨a :: s, by rw [hs, List.append_assoc]; rfl, hl.cons_cons a⟩
    · obtain ⟨s, hs, hl⟩ := ih acc
      exact ⟨s, hs, hl.cons a⟩

theorem length_quotaPass_le (l acc : List α) (h : acc.length < n) :
    (quotaPass key quota n l acc).length ≤ n := by
  induction l generalizing acc with
  | nil => exact h.le
  | cons a l ih =>
    unfold quotaPass
    split
    · split
      · rw [List.length_append, List.length_singleton]
        exact h
      · next hlt => exact ih (acc ++ [a]) (Nat.lt_of_not_le hlt)
    · exact ih acc h

theorem count_quotaPass_le (l acc : List α) (k : κ) (h : (acc.map key).count k ≤ quota) :
    ((quotaPass key quota n l acc).map key).count k ≤ quota := by
  induction l generalizing acc with
  | nil => exact h
  | cons a l ih =>
    unfold quotaPass
    have hnext : (acc.map key).count (key a) < quota → ((acc ++ [a]).map key).count k ≤ quota := by
      intro hlt
      rw [List.map_append, List.count_append, List.map_singleton, List.count_singleton]
      split
      · next hk =>
        rw [beq_iff_eq] at hk
        rw [← hk]
        exact hlt
      · exact h
    split
    · next hlt =>
      split
      · exact hnext hlt
      · exact ih (acc ++ [a]) (hnext hlt)
    · exact ih acc h

/-- A pass that is not full has met the quota of every key it has left an element of. -/
theorem full_or_met (l acc : List α) :
    n ≤ (quotaPass key quota n l acc).length ∨
      ∀ a ∈ l, a ∈ quotaPass key quota n l acc ∨
        quota ≤ ((quotaPass key quota n l acc).map key).count (key a) := by
  induction l generalizing acc with
  | nil => exact .inr fun a ha => by cases ha
  | cons b l ih =>
    unfold quotaPass
    split
    · split
      · next hfull => exact .inl hfull
      · refine (ih (acc ++ [b])).imp_right fun h a ha => ?_
        rcases List.mem_cons.mp ha with rfl | ha
        · obtain ⟨s, hs, -⟩ := quotaPass_eq key quota n l (acc ++ [a])
          rw [hs]
          exact .inl (List.mem_append_left s (List.mem_append_right acc (List.mem_singleton_self a)))
        · exact h a ha
    · next hmet =>
      refine (ih acc).imp_right fun h a ha => ?_
      rcases List.mem_cons.mp ha with rfl | ha
      · obtain ⟨s, hs, -⟩ := quotaPass_eq key quota n l acc
        rw [hs, List.map_append, List.count_append]
        omega
      · exact h a ha

/-- Of a key whose quota is met nothing more is taken. -/
theorem mem_of_met (l acc : List α) (a : α) (hmet : quota ≤ (acc.map key).count (key a))
    (ha : a ∈ quotaPass key quota n l acc) : a ∈ acc := by
  induction l generalizing acc with
  | nil => exact ha
  | cons b l ih =>
    unfold quotaPass at ha
    split at ha
    · next hlt =>
      have hne : a ≠ b := by
        rintro rfl
        omega
      have hmem : a ∈ acc ++ [b] := by
        split at ha
        · exact ha
        · refine ih (acc ++ [b]) ?_ ha
          rw [List.map_append, List.count_append]
          omega
      rcases List.mem_append.mp hmem with hacc | hb
      · exact hacc
      · exact absurd (List.mem_singleton.mp hb) hne
    · exact ih acc hmet ha

/-- Within a key the first pass leaves out no element before one it takes. -/
theorem before_quotaPass (l acc : List α) (hl : l.Nodup) (hnew : ∀ x ∈ l, x ∉ acc) (a b : α)
    (hbefore : [b, a].Sublist l) (hkey : key a = key b) (ha : a ∈ quotaPass key quota n l acc) :
    b ∈ quotaPass key quota n l acc := by
  induction l generalizing acc with
  | nil => cases hbefore
  | cons c l ih =>
    rw [List.nodup_cons] at hl
    have hrest : ∀ x ∈ l, x ∉ acc ++ [c] := by
      intro x hx hmem
      rcases List.mem_append.mp hmem with hacc | hc
      · exact hnew x (List.mem_cons_of_mem c hx) hacc
      · exact hl.1 (List.mem_singleton.mp hc ▸ hx)
    have hrest' : ∀ x ∈ l, x ∉ acc := fun x hx => hnew x (List.mem_cons_of_mem c hx)
    obtain ⟨s, hs, -⟩ := quotaPass_eq key quota n (c :: l) acc
    have hal : a ∈ l := by
      rcases List.sublist_cons_iff.mp hbefore with h | ⟨r, hr, h⟩
      · exact h.subset (by simp)
      · cases hr
        exact h.subset (by simp)
    unfold quotaPass at ha ⊢
    split at ha
    · next hlt =>
      rw [if_pos hlt]
      split at ha
      · exact absurd ha (hrest a hal)
      · next hroom =>
        rw [if_neg hroom]
        rcases List.sublist_cons_iff.mp hbefore with h | ⟨r, hr, -⟩
        · exact ih (acc ++ [c]) hl.2 hrest h ha
        · cases hr
          obtain ⟨s, hs, -⟩ := quotaPass_eq key quota n l (acc ++ [b])
          rw [hs]
          exact List.mem_append_left s (List.mem_append_right acc (List.mem_singleton_self b))
    · next hmet =>
      rw [if_neg hmet]
      rcases List.sublist_cons_iff.mp hbefore with h | ⟨r, hr, -⟩
      · exact ih acc hl.2 hrest' h ha
      · cases hr
        rw [← hkey] at hmet
        exact absurd (mem_of_met key quota n l acc a (Nat.le_of_not_lt hmet) ha) (hrest' a hal)

/-- A quota of zero takes nothing. -/
theorem quotaPass_zero (l acc : List α) : quotaPass key 0 n l acc = acc := by
  induction l generalizing acc with
  | nil => rfl
  | cons a l ih => rw [quotaPass, if_neg (Nat.not_lt_zero _), ih]

/-- The quotas of `m` keys fit into `n`: so many keys are reached, or all. -/
theorem keys_quotaPass (l : List α) (m : Nat) (hquota : 0 < quota) (hfit : m * quota ≤ n) :
    min m (l.map key).toFinset.card ≤ ((quotaPass key quota n l []).map key).toFinset.card := by
  rcases full_or_met key quota n l [] with hfull | hmet
  · refine (Nat.min_le_left m _).trans (Nat.le_of_mul_le_mul_right ?_ hquota)
    calc m * quota ≤ (quotaPass key quota n l []).length := hfit.trans hfull
      _ = ((quotaPass key quota n l []).map key).length := (List.length_map _).symm
      _ = ∑ k ∈ ((quotaPass key quota n l []).map key).toFinset,
            ((quotaPass key quota n l []).map key).count k := by
          rw [List.sum_toFinset_count_eq_length]
      _ ≤ ((quotaPass key quota n l []).map key).toFinset.card * quota := by
          rw [← smul_eq_mul]
          exact Finset.sum_le_card_nsmul _ _ _ fun k _ =>
            count_quotaPass_le key quota n l [] k (Nat.zero_le _)
  · refine (Nat.min_le_right m _).trans (Finset.card_le_card fun k hk => ?_)
    rw [List.mem_toFinset, List.mem_map] at hk ⊢
    obtain ⟨a, ha, rfl⟩ := hk
    rcases hmet a ha with htaken | hcount
    · exact ⟨a, htaken, rfl⟩
    · exact List.mem_map.mp (List.count_pos_iff.mp (hquota.trans_le hcount))

/-! ## Before and after -/

/-- Of two elements one is before the other. -/
theorem before_or (l : List α) (a b : α) (ha : a ∈ l) (hb : b ∈ l) (hne : a ≠ b) :
    [a, b].Sublist l ∨ [b, a].Sublist l := by
  obtain ⟨l₁, l₂, rfl⟩ := List.append_of_mem ha
  rcases List.mem_append.mp hb with hb | hb
  · exact .inr ((List.singleton_sublist.mpr hb).append
      (List.singleton_sublist.mpr List.mem_cons_self))
  · have hb' : b ∈ l₂ := (List.mem_cons.mp hb).resolve_left hne.symm
    exact .inl (((List.singleton_sublist.mpr hb').cons_cons a).trans
      (List.sublist_append_right l₁ (a :: l₂)))

theorem mem_take_of_before (l : List α) (k : Nat) (a b : α) (hl : l.Nodup)
    (hbefore : [b, a].Sublist l) (ha : a ∈ l.take k) : b ∈ l.take k := by
  rw [← List.take_append_drop k l] at hbefore hl
  obtain ⟨l₁, l₂, heq, h₁, h₂⟩ := List.sublist_append_iff.mp hbefore
  cases l₁ with
  | nil =>
    rw [List.nil_append] at heq
    have hdrop : a ∈ l.drop k := h₂.subset (heq ▸ by simp)
    exact absurd hdrop ((List.nodup_append'.mp hl).2.2 ha)
  | cons c l₁ =>
    have hc : b = c := (List.cons.inj heq).1
    exact h₁.subset (hc ▸ List.mem_cons_self)

/-! ## The second pass -/

variable [DecidableEq α]

theorem fillPass_eq (l acc : List α) (hl : l.Nodup) (h : acc.length < n) :
    fillPass n l acc = acc ++ (l.filter fun a => a ∉ acc).take (n - acc.length) := by
  induction l generalizing acc with
  | nil => simp [fillPass]
  | cons a l ih =>
    rw [List.nodup_cons] at hl
    unfold fillPass
    by_cases ha : a ∈ acc
    · rw [if_pos ha, ih acc hl.2 h, List.filter_cons_of_neg (by simpa using ha)]
    · have hsame : (l.filter fun x => x ∉ acc ++ [a]) = l.filter fun x => x ∉ acc := by
        refine List.filter_congr fun x hx => ?_
        have hne : x ≠ a := fun heq => hl.1 (heq ▸ hx)
        simp [hne]
      have hroom : n - acc.length = n - (acc ++ [a]).length + 1 := by
        rw [List.length_append, List.length_singleton]
        omega
      rw [if_neg ha, List.filter_cons_of_pos (by simpa using ha), hroom, List.take_succ_cons]
      split
      · next hfull => rw [Nat.sub_eq_zero_of_le hfull, List.take_zero]
      · next hlt =>
        rw [ih (acc ++ [a]) hl.2 (Nat.lt_of_not_le hlt), hsame, List.append_assoc]
        rfl

/-! ## The selection -/

/-- What the two passes leave: the first, and the elements it has left out as long as there is
room. -/
theorem select_eq (l : List α) (hl : l.Nodup) : ∃ s, s.Sublist l ∧ quotaPass key quota n l [] = s ∧
    select key quota n l = s ++ (l.filter fun a => a ∉ s).take (n - s.length) := by
  obtain ⟨s, hs, hsub⟩ := quotaPass_eq key quota n l []
  rw [List.nil_append] at hs
  refine ⟨s, hsub, hs, ?_⟩
  unfold select
  rw [hs]
  split
  · next hlt => exact fillPass_eq n l s hl hlt
  · next hfull =>
    rw [Nat.sub_eq_zero_of_le (Nat.le_of_not_lt hfull), List.take_zero, List.append_nil]

theorem mem_of_mem_select (l : List α) (hl : l.Nodup) (a : α) (ha : a ∈ select key quota n l) : a ∈ l := by
  obtain ⟨s, hsub, -, hsel⟩ := select_eq key quota n l hl
  rw [hsel] at ha
  rcases List.mem_append.mp ha with hs | hrest
  · exact hsub.subset hs
  · exact (List.mem_filter.mp (List.mem_of_mem_take hrest)).1

theorem nodup_select (l : List α) (hl : l.Nodup) : (select key quota n l).Nodup := by
  obtain ⟨s, hsub, -, hsel⟩ := select_eq key quota n l hl
  rw [hsel, List.nodup_append']
  refine ⟨hl.sublist hsub, (hl.filter _).sublist (List.take_sublist _ _), ?_⟩
  intro a ha hrest
  simpa [ha] using (List.mem_filter.mp (List.mem_of_mem_take hrest)).2

theorem length_select (l : List α) (hl : l.Nodup) (hquota : quota ≤ n) :
    (select key quota n l).length = min n l.length := by
  obtain ⟨s, hsub, hs, hsel⟩ := select_eq key quota n l hl
  have hle : s.length ≤ n := by
    rcases Nat.eq_zero_or_pos n with h | h
    · have hz : quota = 0 := Nat.le_zero.mp (h ▸ hquota)
      rw [hz, quotaPass_zero] at hs
      rw [← hs]
      exact Nat.zero_le n
    · rw [← hs]
      exact length_quotaPass_le key quota n l [] h
  have htaken : (l.filter fun a => a ∈ s).length = s.length := by
    refine ((List.perm_ext_iff_of_nodup (hl.filter _) (hl.sublist hsub)).mpr fun a => ?_).length_eq
    rw [List.mem_filter, decide_eq_true_eq]
    exact ⟨And.right, fun h => ⟨hsub.subset h, h⟩⟩
  have hsplit := List.length_eq_length_filter_add (l := l) fun a => decide (a ∈ s)
  have hleft : (l.filter fun a => !decide (a ∈ s)) = l.filter fun a => a ∉ s :=
    List.filter_congr fun a _ => (decide_not).symm
  rw [hsel, List.length_append, List.length_take]
  rw [hleft, htaken] at hsplit
  omega

/-- Within a key no element is left out before one that is taken. -/
theorem before_select (l : List α) (hl : l.Nodup) (a b : α) (hbefore : [b, a].Sublist l)
    (hkey : key a = key b) (ha : a ∈ select key quota n l) : b ∈ select key quota n l := by
  obtain ⟨s, -, hs, hsel⟩ := select_eq key quota n l hl
  rw [hsel] at ha ⊢
  rw [List.mem_append] at ha ⊢
  by_cases hb : b ∈ s
  · exact .inl hb
  · rcases ha with ha | ha
    · rw [← hs] at ha hb
      exact absurd (before_quotaPass key quota n l [] hl (fun x _ => List.not_mem_nil) a b
        hbefore hkey ha) hb
    · have hout : a ∉ s := by simpa using (List.mem_filter.mp (List.mem_of_mem_take ha)).2
      have hkept : [b, a].Sublist (l.filter fun x => x ∉ s) := by
        simpa [hb, hout] using hbefore.filter fun x => decide (x ∉ s)
      exact .inr (mem_take_of_before _ _ a b (hl.filter _) hkept ha)

/-- A quota of zero leaves the first `n` elements, whatever their keys. -/
theorem select_zero (l : List α) (hl : l.Nodup) : select key 0 n l = l.take n := by
  obtain ⟨s, -, hs, hsel⟩ := select_eq key 0 n l hl
  rw [quotaPass_zero] at hs
  rw [hsel, ← hs, List.nil_append, List.length_nil, Nat.sub_zero]
  congr 1
  exact List.filter_eq_self.mpr fun a _ => decide_eq_true List.not_mem_nil

theorem keys_select (l : List α) (hl : l.Nodup) (m : Nat) (hquota : 0 < quota) (hfit : m * quota ≤ n) :
    min m (l.map key).toFinset.card ≤ ((select key quota n l).map key).toFinset.card := by
  obtain ⟨s, -, hs, hsel⟩ := select_eq key quota n l hl
  refine (keys_quotaPass key quota n l m hquota hfit).trans (Finset.card_le_card ?_)
  rw [hs, hsel, List.map_append, List.toFinset_append]
  exact Finset.subset_union_left

end QuotaSelect

end Kratos
