import Kratos.Lib.IterOrder

/-!
# Iteration over sets

A hash set is iterated in some order of its elements.  The order is applied to the elements sorted by
insertion, which the kernel can run.
-/

namespace Kratos

namespace IterOrder

variable {α : Type} [LinearOrder α]

/-- The elements in ascending order. -/
def ascending (s : Finset α) : List α :=
  Quot.liftOn s.val (fun l => l.insertionSort (· ≤ ·)) fun l m h =>
    List.Perm.eq_of_pairwise' (List.pairwise_insertionSort _ l) (List.pairwise_insertionSort _ m)
      ((List.perm_insertionSort _ l).trans (h.trans (List.perm_insertionSort _ m).symm))

def iterSet (o : IterOrder α) (s : Finset α) : List α := o.iter (ascending s)

theorem ascending_perm (s : Finset α) : (ascending s).Perm s.toList := by
  obtain ⟨⟨l⟩, hl⟩ := s
  refine (List.perm_insertionSort _ l).trans ?_
  rw [← Multiset.coe_eq_coe, Finset.coe_toList]
  rfl

theorem iterSet_perm (o : IterOrder α) (s : Finset α) : (o.iterSet s).Perm s.toList :=
  (o.perm _).trans (ascending_perm s)

theorem mem_iterSet (o : IterOrder α) (s : Finset α) (a : α) : a ∈ o.iterSet s ↔ a ∈ s := by
  rw [(o.iterSet_perm s).mem_iff, Finset.mem_toList]

end IterOrder

end Kratos
