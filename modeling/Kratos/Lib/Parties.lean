import Kratos.Lib.Run

/-!
# Systems of parties

Each party has a state of its own, and an event is a step of one of them.  A run of the
system is a run of each party on its own events (`foldl_act`).  Parties rely on what the
others have made known: an invariant of each party that speaks of what is known, and that
more knowledge keeps, holds of all of them along a run if each step keeps it for the party
that takes it (`inv_of_known`).
-/

namespace Kratos

namespace Parties

variable {ι σ α : Type} [DecidableEq ι] (step : σ → α → σ)

/-- The party of the event takes its step. -/
def act (s : ι → σ) (e : ι × α) : ι → σ := Function.update s e.1 (step (s e.1) e.2)

theorem act_self (s : ι → σ) (e : ι × α) : act step s e e.1 = step (s e.1) e.2 := by
  unfold act
  rw [Function.update_self]

theorem act_ne (s : ι → σ) (e : ι × α) (i : ι) (h : i ≠ e.1) : act step s e i = s i := by
  unfold act
  rw [Function.update_of_ne h]

/-- What holds of a party's state before and after its own step holds of every party's. -/
theorem rel_act (R : σ → σ → Prop) (hrefl : ∀ x, R x x) (s : ι → σ) (e : ι × α)
    (h : R (s e.1) (step (s e.1) e.2)) (i : ι) : R (s i) (act step s e i) := by
  by_cases hi : i = e.1
  · rw [hi, act_self]
    exact h
  · rw [act_ne step s e i hi]
    exact hrefl (s i)

/-- The events of one party. -/
def eventsOf (i : ι) (l : List (ι × α)) : List α := (l.filter fun e => decide (e.1 = i)).map Prod.snd

/-- **Projection.**  A party sees its own events. -/
theorem foldl_act (s : ι → σ) (l : List (ι × α)) (i : ι) :
    l.foldl (act step) s i = (eventsOf i l).foldl step (s i) := by
  induction l generalizing s with
  | nil => rfl
  | cons e l ih =>
    rw [List.foldl_cons, ih]
    unfold eventsOf
    by_cases hi : e.1 = i
    · rw [List.filter_cons_of_pos (by simpa using hi), List.map_cons, List.foldl_cons, ← hi, act_self]
    · rw [List.filter_cons_of_neg (by simpa using hi), act_ne step s e i (Ne.symm hi)]

/-- **Growing knowledge.** -/
theorem inv_of_known {κ : Type} [Preorder κ] (known : (ι → σ) → κ) (P : (ι → σ) → ι × α → Prop)
    (Inv : κ → ι → σ → Prop) (mono : ∀ k k' i x, k ≤ k' → Inv k i x → Inv k' i x)
    (grows : ∀ s e, P s e → known s ≤ known (act step s e))
    (keeps : ∀ s e, P s e → (∀ i, Inv (known s) i (s i)) → Inv (known (act step s e)) e.1 (step (s e.1) e.2))
    (s : ι → σ) (l : List (ι × α)) (hs : ∀ i, Inv (known s) i (s i)) (hm : Run.Meets (act step) P s l) :
    ∀ i, Inv (known (l.foldl (act step) s)) i (l.foldl (act step) s i) := by
  refine Run.inv_foldl (act step) P (fun s => ∀ i, Inv (known s) i (s i)) ?_ s l hs hm
  intro s e hs he i
  by_cases hi : i = e.1
  · have hkeeps := keeps s e he hs
    rw [← act_self step s e] at hkeeps
    rw [hi]
    exact hkeeps
  · have hknown := mono _ _ i _ (grows s e he) (hs i)
    rwa [← act_ne step s e i hi] at hknown

end Parties

end Kratos
