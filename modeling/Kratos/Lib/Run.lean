import Mathlib

/-!
# Runs of a step function

A run folds a step function over a list of inputs.  `Meets P` says that every
step of a run meets a condition on the input and the state it is given to.  An
invariant that such steps keep holds at the end of the run (`inv_foldl`), and a
transitive relation that such steps respect holds between any two states of it
(`rel_take`).  `tally` adds up what the steps contribute (`conserve`).  `Dwells` is
about the time between the step that enters a phase and the step that leaves it, and
`streak` counts the inputs since a condition on them last failed.
-/

namespace Kratos

namespace Run

variable {σ α : Type} (step : σ → α → σ)

/-- Every input meets the condition in the state it is given to. -/
def Meets (P : σ → α → Prop) : σ → List α → Prop
  | _, [] => True
  | s, a :: l => P s a ∧ Meets P (step s a) l

instance decidableMeets (P : σ → α → Prop) [∀ s a, Decidable (P s a)] :
    (s : σ) → (l : List α) → Decidable (Meets step P s l)
  | _, [] => isTrue trivial
  | s, a :: l =>
    have := decidableMeets P (step s a) l
    inferInstanceAs (Decidable (P s a ∧ Meets step P (step s a) l))

/-- A condition that always holds is met by every run. -/
theorem meets_of_forall (P : σ → α → Prop) (h : ∀ s a, P s a) (s : σ) (l : List α) :
    Meets step P s l := by
  induction l generalizing s with
  | nil => trivial
  | cons a l ih => exact ⟨h s a, ih _⟩

/-- A condition on the inputs alone. -/
theorem meets_of_mem (p : α → Prop) (s : σ) (l : List α) (h : ∀ a ∈ l, p a) :
    Meets step (fun _ a => p a) s l := by
  induction l generalizing s with
  | nil => trivial
  | cons a l ih => exact ⟨h a List.mem_cons_self, ih _ fun b hb => h b (List.mem_cons_of_mem a hb)⟩

theorem meets_append (P : σ → α → Prop) (s : σ) (l m : List α) :
    Meets step P s (l ++ m) ↔ Meets step P s l ∧ Meets step P (l.foldl step s) m := by
  induction l generalizing s with
  | nil => simp [Meets]
  | cons a l ih => simp [Meets, ih, and_assoc]

/-- The same, step by step. -/
theorem meets_iff_split (P : σ → α → Prop) (s : σ) (l : List α) :
    Meets step P s l ↔ ∀ pre a post, l = pre ++ a :: post → P (pre.foldl step s) a := by
  constructor
  · rintro h pre a post rfl
    rw [meets_append] at h
    exact h.2.1
  · intro h
    induction l generalizing s with
    | nil => trivial
    | cons a l ih =>
      refine ⟨h [] a l rfl, ih _ ?_⟩
      rintro pre b post rfl
      exact h (a :: pre) b post rfl

theorem meets_take (P : σ → α → Prop) (s : σ) (l : List α) (h : Meets step P s l) (k : Nat) :
    Meets step P s (l.take k) := by
  rw [← List.take_append_drop k l, meets_append] at h
  exact h.1

/-- A relation that the steps keep and that carries the condition over carries it along a run. -/
theorem meets_of_rel (P : σ → α → Prop) (R : σ → σ → Prop)
    (hstep : ∀ s t a, R s t → R (step s a) (step t a)) (hP : ∀ s t a, R s t → P s a → P t a)
    (s t : σ) (l : List α) (h : R s t) (hm : Meets step P s l) : Meets step P t l := by
  induction l generalizing s t with
  | nil => trivial
  | cons a l ih => exact ⟨hP s t a h hm.1, ih _ _ (hstep s t a h) hm.2⟩

/-- **Invariant rule.** -/
theorem inv_foldl (P : σ → α → Prop) (Inv : σ → Prop)
    (hstep : ∀ s a, Inv s → P s a → Inv (step s a)) (s : σ) (l : List α) (h : Inv s)
    (hm : Meets step P s l) : Inv (l.foldl step s) := by
  induction l generalizing s with
  | nil => exact h
  | cons a l ih => exact ih _ (hstep s a h hm.1) hm.2

/-- What holds of every step from a state with the invariant holds of every step of the run. -/
theorem meets_of_inv (P Q : σ → α → Prop) (Inv : σ → Prop)
    (hinv : ∀ s a, Inv s → P s a → Inv (step s a)) (hQ : ∀ s a, Inv s → P s a → Q s a)
    (s : σ) (l : List α) (h : Inv s) (hm : Meets step P s l) : Meets step Q s l := by
  induction l generalizing s with
  | nil => trivial
  | cons a l ih => exact ⟨hQ s a h hm.1, ih _ (hinv s a h hm.1) hm.2⟩

/-- **Relation rule.**  A reflexive and transitive relation between each state and
the next relates the first state to the last. -/
theorem rel_foldl (P : σ → α → Prop) (Inv : σ → Prop) (R : σ → σ → Prop) (hrefl : ∀ s, R s s)
    (htrans : ∀ s t u, R s t → R t u → R s u)
    (hinv : ∀ s a, Inv s → P s a → Inv (step s a)) (hrel : ∀ s a, Inv s → P s a → R s (step s a))
    (s : σ) (l : List α) (h : Inv s) (hm : Meets step P s l) : R s (l.foldl step s) := by
  induction l generalizing s with
  | nil => exact hrefl s
  | cons a l ih => exact htrans _ _ _ (hrel s a h hm.1) (ih _ (hinv s a h hm.1) hm.2)

/-- The same between any two states of a run. -/
theorem rel_take (P : σ → α → Prop) (Inv : σ → Prop) (R : σ → σ → Prop) (hrefl : ∀ s, R s s)
    (htrans : ∀ s t u, R s t → R t u → R s u)
    (hinv : ∀ s a, Inv s → P s a → Inv (step s a)) (hrel : ∀ s a, Inv s → P s a → R s (step s a))
    (s : σ) (l : List α) (h : Inv s) (hm : Meets step P s l) (i j : Nat) (hij : i ≤ j) :
    R ((l.take i).foldl step s) ((l.take j).foldl step s) := by
  have hsplit : l.take j = l.take i ++ (l.take j).drop i := by
    have := List.take_append_drop i (l.take j)
    rwa [List.take_take, Nat.min_eq_left hij, eq_comm] at this
  have hj := meets_take step P s l hm j
  rw [hsplit, meets_append] at hj
  rw [hsplit, List.foldl_append]
  exact rel_foldl step P Inv R hrefl htrans hinv hrel _ _
    (inv_foldl step P Inv hinv s _ h hj.1) hj.2

/-- **Exactness rule.**  If from a good state the steps that keep it good and have `S` are
exactly those with `Q`, a run from a good state sees only good states and steps with `S`
exactly if all its steps have `Q`. -/
theorem good_meets_iff (P Q S : σ → α → Prop) (Inv Good : σ → Prop)
    (hinv : ∀ s a, Inv s → P s a → Inv (step s a))
    (hgood : ∀ s a, Inv s → P s a → Good s → (Good (step s a) ∧ S s a ↔ Q s a))
    (s : σ) (l : List α) (h : Inv s) (hg : Good s) (hm : Meets step P s l) :
    (∀ k, Good ((l.take k).foldl step s)) ∧ Meets step S s l ↔ Meets step Q s l := by
  induction l generalizing s with
  | nil => simp [Meets, hg]
  | cons a l ih =>
    have hstep := hgood s a h hm.1 hg
    constructor
    · rintro ⟨hall, hs⟩
      have hnext : Good (step s a) := hall 1
      refine ⟨hstep.mp ⟨hnext, hs.1⟩, (ih _ (hinv s a h hm.1) hnext hm.2).mp ⟨?_, hs.2⟩⟩
      intro k
      exact hall (k + 1)
    · rintro ⟨hq, hrest⟩
      obtain ⟨hnext, hs⟩ := hstep.mpr hq
      obtain ⟨hall, hmeets⟩ := (ih _ (hinv s a h hm.1) hnext hm.2).mpr hrest
      refine ⟨?_, hs, hmeets⟩
      intro k
      cases k with
      | zero => exact hg
      | succ k => exact hall k

/-- The same about the states alone. -/
theorem good_take_iff (P Q : σ → α → Prop) (Inv Good : σ → Prop)
    (hinv : ∀ s a, Inv s → P s a → Inv (step s a))
    (hgood : ∀ s a, Inv s → P s a → Good s → (Good (step s a) ↔ Q s a))
    (s : σ) (l : List α) (h : Inv s) (hg : Good s) (hm : Meets step P s l) :
    (∀ k, Good ((l.take k).foldl step s)) ↔ Meets step Q s l := by
  rw [← good_meets_iff step P Q (fun _ _ => True) Inv Good hinv _ s l h hg hm,
    and_iff_left (meets_of_forall step _ (fun _ _ => trivial) s l)]
  intro s a hs hp hgs
  rw [and_iff_left trivial]
  exact hgood s a hs hp hgs

/-! ## Steps that can stop -/

/-- **Invariant rule** for runs whose steps can stop. -/
theorem inv_foldlM (pstep : σ → α → Option σ) (P : α → Prop) (Inv : σ → Prop)
    (hstep : ∀ s t a, Inv s → P a → pstep s a = some t → Inv t) (s t : σ) (l : List α) (hs : Inv s)
    (hl : ∀ a ∈ l, P a) (h : l.foldlM pstep s = some t) : Inv t := by
  induction l generalizing s with
  | nil =>
    cases h
    exact hs
  | cons a l ih =>
    rw [List.foldlM_cons] at h
    obtain ⟨u, hu, hrest⟩ := Option.bind_eq_some_iff.mp h
    exact ih u (hstep s u a hs (hl a List.mem_cons_self) hu) (fun b hb => hl b (List.mem_cons_of_mem a hb)) hrest

/-! ## Time spent in a phase -/

/-- A run that enters the phase with one step and leaves it with a later one stays in it
for at least `d`. -/
def Dwells (Q : σ → Prop) (time : α → Option Nat) (d : Nat) (s : σ) (l : List α) : Prop :=
  ∀ pre a mid b post, l = pre ++ a :: (mid ++ b :: post) → ¬ Q (pre.foldl step s) →
    (∀ k, Q ((pre ++ a :: mid.take k).foldl step s)) → ¬ Q ((pre ++ a :: (mid ++ [b])).foldl step s) →
    ∃ t u, time a = some t ∧ time b = some u ∧ t + d ≤ u

/-- A phase the run is in was entered. -/
theorem entered (Q : σ → Prop) (s : σ) (l : List α) (hout : ¬ Q s) (hq : Q (l.foldl step s)) :
    ∃ pre a mid, l = pre ++ a :: mid ∧ ¬ Q (pre.foldl step s) ∧
      ∀ k, Q ((pre ++ a :: mid.take k).foldl step s) := by
  induction l using List.reverseRecOn with
  | nil => exact absurd hq hout
  | append_singleton l b ih =>
    by_cases hbefore : Q (l.foldl step s)
    · obtain ⟨pre, a, mid, rfl, hpre, hin⟩ := ih hbefore
      refine ⟨pre, a, mid ++ [b], by simp, hpre, ?_⟩
      intro k
      by_cases hk : k ≤ mid.length
      · rw [List.take_append_of_le_length hk]
        exact hin k
      · rw [List.take_of_length_le (by simp; omega)]
        simpa using hq
    · refine ⟨l, b, [], by simp, hbefore, ?_⟩
      intro k
      simpa using hq

section Phase

variable (P : σ → α → Prop) (Q : σ → Prop) (stamp : σ → Option Nat) (time : α → Option Nat)
  (henter : ∀ s a, P s a → ¬ Q s → Q (step s a) → ∃ t, time a = some t ∧ stamp (step s a) = some t)
  (hstay : ∀ s a, P s a → Q s → Q (step s a) → stamp (step s a) = stamp s)

include henter hstay

/-- Within the phase the stamp is the time at which it was entered. -/
theorem stamp_of_entered (s : σ) (pre : List α) (a : α) (mid : List α)
    (hm : Meets step P s (pre ++ a :: mid)) (hout : ¬ Q (pre.foldl step s))
    (hin : ∀ k, Q ((pre ++ a :: mid.take k).foldl step s)) :
    ∃ t, time a = some t ∧ stamp ((pre ++ a :: mid).foldl step s) = some t := by
  induction mid using List.reverseRecOn with
  | nil =>
    have ha := ((meets_append step P s pre [a]).mp hm).2.1
    have hq := hin 0
    rw [List.foldl_append] at hq ⊢
    exact henter _ a ha hout hq
  | append_singleton mid b ih =>
    have hsplit : pre ++ a :: (mid ++ [b]) = (pre ++ a :: mid) ++ [b] := by simp
    rw [hsplit, meets_append] at hm
    have hbefore : ∀ k, Q ((pre ++ a :: mid.take k).foldl step s) := by
      intro k
      have := hin (min k mid.length)
      rwa [List.take_append_of_le_length (Nat.min_le_right _ _), ← List.take_eq_take_min] at this
    obtain ⟨t, ht, hs⟩ := ih hm.1 hbefore
    have hq := hbefore mid.length
    have hq' := hin (mid.length + 1)
    rw [List.take_length] at hq
    rw [List.take_of_length_le (by simp), hsplit, List.foldl_append] at hq'
    rw [hsplit, List.foldl_append]
    exact ⟨t, ht, by rw [← hs]; exact hstay _ b hm.2.1 hq hq'⟩

/-- **Dwell rule.**  Entering stamps the state, staying keeps the stamp and leaving waits
for `d` after it. -/
theorem dwells_of_stamp (d : Nat)
    (hleave : ∀ s a, P s a → Q s → ¬ Q (step s a) →
      ∃ t u, stamp s = some t ∧ time a = some u ∧ t + d ≤ u)
    (s : σ) (l : List α) (hm : Meets step P s l) : Dwells step Q time d s l := by
  rintro pre a mid b post rfl hout hin hleft
  have hsplit : pre ++ a :: (mid ++ b :: post) = (pre ++ a :: mid) ++ b :: post := by simp
  rw [hsplit, meets_append] at hm
  obtain ⟨t, ht, hs⟩ := stamp_of_entered step P Q stamp time henter hstay s pre a mid hm.1 hout hin
  have hq := hin mid.length
  rw [List.take_length] at hq
  have hend : pre ++ a :: (mid ++ [b]) = (pre ++ a :: mid) ++ [b] := by simp
  rw [hend, List.foldl_append] at hleft
  obtain ⟨t', u, ht', hu, hle⟩ := hleave _ b hm.2.1 hq hleft
  rw [hs] at ht'
  obtain rfl := Option.some.inj ht'
  exact ⟨t, u, ht, hu, hle⟩

/-- The same with the time at which the phase was entered. -/
theorem entered_stamp (s : σ) (l : List α) (hm : Meets step P s l) (hout : ¬ Q s) (hq : Q (l.foldl step s)) :
    ∃ pre a mid, l = pre ++ a :: mid ∧ ¬ Q (pre.foldl step s) ∧
      (∀ k, Q ((pre ++ a :: mid.take k).foldl step s)) ∧
      ∃ t, time a = some t ∧ stamp (l.foldl step s) = some t := by
  obtain ⟨pre, a, mid, rfl, hpre, hin⟩ := entered step Q s l hout hq
  exact ⟨pre, a, mid, rfl, hpre, hin,
    stamp_of_entered step P Q stamp time henter hstay s pre a mid hm hpre hin⟩

end Phase

/-! ## Totals along a run -/

/-- The sum of what each step contributes. -/
def tally (f : σ → α → Nat) : σ → List α → Nat
  | _, [] => 0
  | s, a :: l => f s a + tally f (step s a) l

theorem tally_add (f g : σ → α → Nat) (s : σ) (l : List α) :
    tally step (fun s a => f s a + g s a) s l = tally step f s l + tally step g s l := by
  induction l generalizing s with
  | nil => rfl
  | cons a l ih =>
    simp only [tally, ih]
    omega

theorem tally_eq_zero_iff (f : σ → α → Nat) (s : σ) (l : List α) :
    tally step f s l = 0 ↔ Meets step (fun s a => f s a = 0) s l := by
  induction l generalizing s with
  | nil => simp [tally, Meets]
  | cons a l ih =>
    simp only [tally, Meets, ← ih]
    omega

/-- The same steps seen through a projection. -/
theorem tally_proj {τ : Type} (step' : τ → α → τ) (π : τ → σ) (hπ : ∀ t a, π (step' t a) = step (π t) a)
    (f : σ → α → Nat) (t : τ) (l : List α) :
    tally step' (fun t a => f (π t) a) t l = tally step f (π t) l := by
  induction l generalizing t with
  | nil => rfl
  | cons a l ih => simp only [tally, ih, hπ]

/-- **At most once.**  An event that leads to a state in which it cannot happen again
contributes no more than it does once. -/
theorem tally_le (b : Nat) (P : σ → α → Prop) (Inv Done : σ → Prop) (f : σ → α → Nat)
    (hinv : ∀ s a, Inv s → P s a → Inv (step s a))
    (hdone : ∀ s a, Inv s → P s a → Done s → f s a = 0 ∧ Done (step s a))
    (hfire : ∀ s a, Inv s → P s a → f s a = 0 ∨ f s a ≤ b ∧ Done (step s a))
    (s : σ) (l : List α) (h : Inv s) (hm : Meets step P s l) : tally step f s l ≤ b := by
  have hzero : ∀ l s, Inv s → Meets step P s l → Done s → tally step f s l = 0 := by
    intro l
    induction l with
    | nil =>
      intro s _ _ _
      rfl
    | cons a l ih =>
      intro s hs hm hd
      obtain ⟨hf, hd'⟩ := hdone s a hs hm.1 hd
      have := ih _ (hinv s a hs hm.1) hm.2 hd'
      simp only [tally]
      omega
  induction l generalizing s with
  | nil => exact Nat.zero_le _
  | cons a l ih =>
    have hnext := hinv s a h hm.1
    simp only [tally]
    rcases hfire s a h hm.1 with hf | ⟨hf, hd⟩
    · have := ih _ hnext hm.2
      omega
    · have := hzero l _ hnext hm.2 hd
      omega

theorem tally_le_one (P : σ → α → Prop) (Inv Done : σ → Prop) (f : σ → α → Nat)
    (hinv : ∀ s a, Inv s → P s a → Inv (step s a))
    (hdone : ∀ s a, Inv s → P s a → Done s → f s a = 0 ∧ Done (step s a))
    (hfire : ∀ s a, Inv s → P s a → f s a = 0 ∨ f s a = 1 ∧ Done (step s a))
    (s : σ) (l : List α) (h : Inv s) (hm : Meets step P s l) : tally step f s l ≤ 1 := by
  apply tally_le step 1 P Inv Done f hinv hdone _ s l h hm
  intro s a hs hp
  rcases hfire s a hs hp with hf | ⟨hf, hd⟩
  · exact .inl hf
  · exact .inr ⟨Nat.le_of_eq hf, hd⟩

/-- **Conservation rule.**  What every step balances is balanced over the run. -/
theorem conserve (P : σ → α → Prop) (Inv : σ → Prop) (held : σ → Nat) (inn out : σ → α → Nat)
    (hinv : ∀ s a, Inv s → P s a → Inv (step s a))
    (hstep : ∀ s a, Inv s → P s a → held (step s a) + out s a = held s + inn s a)
    (s : σ) (l : List α) (h : Inv s) (hm : Meets step P s l) :
    held (l.foldl step s) + tally step out s l = held s + tally step inn s l := by
  induction l generalizing s with
  | nil => rfl
  | cons a l ih =>
    have h₁ := hstep s a h hm.1
    have h₂ := ih _ (hinv s a h hm.1) hm.2
    simp only [tally, List.foldl_cons]
    omega

/-- What no step makes more of is not more after the run. -/
theorem conserve_le (held : σ → Nat) (inn out : σ → α → Nat)
    (hstep : ∀ s a, held (step s a) + out s a ≤ held s + inn s a) (s : σ) (l : List α) :
    held (l.foldl step s) + tally step out s l ≤ held s + tally step inn s l := by
  induction l generalizing s with
  | nil => exact Nat.le_refl _
  | cons a l ih =>
    have h₁ := hstep s a
    have h₂ := ih (step s a)
    simp only [tally, List.foldl_cons]
    omega

/-! ## Streaks of inputs -/

/-- An input of a run that ends with `b` is `b`, or an input of the run before. -/
theorem concat_eq_split_iff (l pre post : List α) (a b : α) :
    l ++ [b] = pre ++ a :: post ↔
      (pre = l ∧ a = b ∧ post = []) ∨ ∃ rest, post = rest ++ [b] ∧ l = pre ++ a :: rest := by
  constructor
  · intro h
    rcases List.eq_nil_or_concat' post with rfl | ⟨rest, c, rfl⟩
    · obtain ⟨rfl, hab⟩ := List.append_inj' h rfl
      exact .inl ⟨rfl, (List.singleton_inj.mp hab).symm, rfl⟩
    · rw [← List.cons_append, ← List.append_assoc] at h
      obtain ⟨rfl, hbc⟩ := List.append_inj' h rfl
      exact .inr ⟨rest, by rw [List.singleton_inj.mp hbc], rfl⟩
  · rintro (⟨rfl, rfl, rfl⟩ | ⟨rest, rfl, rfl⟩)
    · rfl
    · rw [List.append_assoc, List.cons_append]

/-- How many inputs at the end of the list have `p` without a break. -/
def streak (p : α → Bool) (l : List α) : Nat := (l.rtakeWhile p).length

theorem streak_concat (p : α → Bool) (l : List α) (a : α) :
    streak p (l ++ [a]) = if p a then streak p l + 1 else 0 := by
  unfold streak
  by_cases h : p a
  · rw [List.rtakeWhile_concat_pos p l a h, if_pos h, List.length_append]
    rfl
  · rw [List.rtakeWhile_concat_neg p l a h, if_neg h]
    rfl

/-- **Streak rule.**  A streak is as long as `n` if no input among the last `n` breaks it. -/
theorem le_streak_iff (p : α → Bool) (l : List α) (n : Nat) (hn : n ≤ l.length) :
    n ≤ streak p l ↔ ∀ pre a post, l = pre ++ a :: post → post.length < n → p a = true := by
  induction l using List.reverseRecOn generalizing n with
  | nil =>
    have hzero : n = 0 := by simpa using hn
    simp [hzero]
  | append_singleton l b ih =>
    rw [streak_concat]
    cases n with
    | zero => simp
    | succ n =>
      have hlen : n ≤ l.length := by simpa using hn
      constructor
      · intro h pre a post heq hpost
        split_ifs at h with hb
        · rcases (concat_eq_split_iff l pre post a b).mp heq with ⟨-, rfl, -⟩ | ⟨rest, rfl, hl⟩
          · exact hb
          · rw [List.length_append] at hpost
            exact (ih n hlen).mp (Nat.le_of_succ_le_succ h) pre a rest hl (Nat.lt_of_succ_lt_succ hpost)
        · omega
      · intro h
        rw [if_pos (h l b [] rfl (Nat.succ_pos n))]
        refine Nat.succ_le_succ ((ih n hlen).mpr ?_)
        rintro pre a post rfl hpost
        exact h pre a (post ++ [b]) (by simp) (by simpa using hpost)

end Run

end Kratos
