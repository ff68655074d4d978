import Mathlib

/-!
# Iteration order

A hash map or a binary heap is iterated in an order its user cannot rely on:
some permutation of what it holds.  Code whose result can depend on it takes the
order as an argument.  A heap that is emptied by `pop` gives its elements in the
order of their priority, and those of one priority in some order.
-/

namespace Kratos

/-- The order in which a collection is iterated. -/
structure IterOrder (α : Type) where
  iter : List α → List α
  perm : ∀ l, (iter l).Perm l

namespace IterOrder

variable {α : Type}

/-- The order in which the model keeps the collection. -/
def stored : IterOrder α := ⟨id, fun _ => List.Perm.refl _⟩

/-- Any permutation of one collection is the order in which some map is iterated. -/
theorem exists_iter (l l' : List α) (h : l'.Perm l) : ∃ o : IterOrder α, o.iter l = l' := by
  classical
  refine ⟨⟨fun m => if m = l then l' else m, ?_⟩, if_pos rfl⟩
  intro m
  by_cases hm : m = l
  · rw [if_pos hm, hm]
    exact h
  · rw [if_neg hm]

/-- The same for what a filter leaves of it. -/
theorem exists_iter_filter (p : α → Bool) (l l' : List α) (h : l'.Perm (l.filter p)) :
    ∃ o : IterOrder α, (o.iter l).filter p = l' := by
  obtain ⟨o, ho⟩ := exists_iter l (l' ++ l.filter fun a => !p a)
    ((h.append_right _).trans (List.filter_append_perm p l))
  refine ⟨o, ?_⟩
  have hin : l'.filter p = l' := by
    rw [List.filter_eq_self]
    intro a ha
    exact (List.mem_filter.mp (h.mem_iff.mp ha)).2
  have hout : (l.filter fun a => !p a).filter p = [] := by
    rw [List.filter_eq_nil_iff]
    intro a ha
    simpa using (List.mem_filter.mp ha).2
  rw [ho, List.filter_append, hin, hout, List.append_nil]

theorem mem_iter (o : IterOrder α) (l : List α) (a : α) : a ∈ o.iter l ↔ a ∈ l := (o.perm l).mem_iff

end IterOrder

/-- The order in which a heap is emptied: no element comes before one of higher priority. -/
structure PopOrder {α : Type} (cmp : α → α → Ordering) extends IterOrder α where
  sorted : ∀ l, (iter l).Pairwise fun a b => cmp a b ≠ .lt

/-- A heap that gives equal elements in the order of a sort. -/
def PopOrder.bySort {α : Type} (cmp : α → α → Ordering) (htotal : ∀ a b, cmp a b ≠ .lt ∨ cmp b a ≠ .lt)
    (htrans : ∀ a b c, cmp a b ≠ .lt → cmp b c ≠ .lt → cmp a c ≠ .lt) : PopOrder cmp where
  iter l := l.insertionSort fun a b => cmp a b ≠ .lt
  perm l := List.perm_insertionSort _ l
  sorted l := by
    have : Std.Total fun a b : α => cmp a b ≠ .lt := ⟨htotal⟩
    have : IsTrans α fun a b => cmp a b ≠ .lt := ⟨htrans⟩
    exact List.pairwise_insertionSort _ l

end Kratos
