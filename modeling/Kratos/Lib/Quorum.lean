import Mathlib

/-!
# Quorums

Two quorums of a set share a member outside a small set as soon as their sizes
leave room for it (`exists_mem_inter_not_mem`), and where the sizes leave none
there are two quorums that meet only in a set of that size
(`exists_quorums_inter_le`).  A ballot is certified when a quorum has cast it, as far
as its honest members tell (`Certified`): two certified ballots have an honest caster in
common (`Certified.common`).
-/

namespace Kratos

namespace Quorum

variable {α : Type} [DecidableEq α]

/-- **Quorum intersection.** -/
theorem exists_mem_inter_not_mem (v a b byz : Finset α) (ha : a ⊆ v) (hb : b ⊆ v)
    (h : v.card + byz.card < a.card + b.card) : ∃ x ∈ a ∩ b, x ∉ byz := by
  have hunion : (a ∪ b).card ≤ v.card := Finset.card_le_card (Finset.union_subset ha hb)
  have hinter := Finset.card_union_add_card_inter a b
  have hlt : byz.card < (a ∩ b).card := by omega
  obtain ⟨x, hx, hnot⟩ := Finset.exists_mem_notMem_of_card_lt_card hlt
  exact ⟨x, hx, hnot⟩

/-- Two sets of `q` members that share at most `f`. -/
theorem exists_quorums_inter_le (v : Finset α) (q f : Nat) (hq : q ≤ v.card) (h : 2 * q ≤ v.card + f) :
    ∃ a b, a ⊆ v ∧ b ⊆ v ∧ a.card = q ∧ b.card = q ∧ (a ∩ b).card ≤ f := by
  obtain ⟨a, ha, hac⟩ := Finset.exists_subset_card_eq hq
  have hrest : (v \ a).card = v.card - q := by rw [Finset.card_sdiff_of_subset ha, hac]
  by_cases hfit : q ≤ (v \ a).card
  · -- the rest of the set is large enough for a disjoint quorum
    obtain ⟨b, hb, hbc⟩ := Finset.exists_subset_card_eq hfit
    have hdisj : a ∩ b = ∅ := by
      ext x
      simp only [Finset.mem_inter, Finset.notMem_empty, iff_false, not_and]
      intro hxa hxb
      exact (Finset.mem_sdiff.mp (hb hxb)).2 hxa
    refine ⟨a, b, ha, hb.trans Finset.sdiff_subset, hac, hbc, ?_⟩
    rw [hdisj]
    exact Nat.zero_le f
  · -- take all of the rest and fill up from the first quorum
    obtain ⟨b, hrb, hbv, hbc⟩ := Finset.exists_subsuperset_card_eq
      (Finset.sdiff_subset : v \ a ⊆ v) (by omega) hq
    refine ⟨a, b, ha, hbv, hac, hbc, ?_⟩
    have hunion : a ∪ b = v := by
      apply Finset.Subset.antisymm (Finset.union_subset ha hbv)
      intro x hx
      by_cases hxa : x ∈ a
      · exact Finset.mem_union_left _ hxa
      · exact Finset.mem_union_right _ (hrb (Finset.mem_sdiff.mpr ⟨hx, hxa⟩))
    have hcard := Finset.card_union_add_card_inter a b
    rw [hunion] at hcard
    omega

/-! ## Certified ballots -/

/-- The members of a quorum outside `byz` have cast the ballot. -/
def Certified {β : Type} (v byz : Finset α) (q : Nat) (cast : α → β → Prop) (b : β) : Prop :=
  ∃ s ⊆ v, q ≤ s.card ∧ ∀ x ∈ s, x ∉ byz → cast x b

variable {β : Type} {v byz : Finset α} {q : Nat} {cast cast' : α → β → Prop} {b b' : β}

omit [DecidableEq α] in
/-- Casting more keeps a certificate. -/
theorem Certified.mono (h : Certified v byz q cast b) (hcast : ∀ x, x ∉ byz → cast x b → cast' x b) :
    Certified v byz q cast' b := by
  obtain ⟨s, hs, hq, hall⟩ := h
  exact ⟨s, hs, hq, fun x hx hnot => hcast x hnot (hall x hx hnot)⟩

/-- Two certified ballots were both cast by some honest member. -/
theorem Certified.common (h : Certified v byz q cast b) (h' : Certified v byz q cast b')
    (hlarge : v.card + byz.card < 2 * q) : ∃ x ∈ v, x ∉ byz ∧ cast x b ∧ cast x b' := by
  obtain ⟨s, hs, hq, hall⟩ := h
  obtain ⟨s', hs', hq', hall'⟩ := h'
  obtain ⟨x, hx, hnot⟩ := exists_mem_inter_not_mem v s s' byz hs hs' (by omega)
  obtain ⟨hxs, hxs'⟩ := Finset.mem_inter.mp hx
  exact ⟨x, hs hxs, hnot, hall x hxs hnot, hall' x hxs' hnot⟩

/-- A certified ballot was cast by some honest member. -/
theorem Certified.honest (h : Certified v byz q cast b) (hlarge : v.card + byz.card < 2 * q) :
    ∃ x ∈ v, x ∉ byz ∧ cast x b := by
  obtain ⟨x, hx, hnot, hcast, -⟩ := h.common h hlarge
  exact ⟨x, hx, hnot, hcast⟩

/-- Where honest members cast one ballot in a slot, one ballot of a slot is certified. -/
theorem Certified.unique {κ : Type} (slot : β → κ) (h : Certified v byz q cast b) (h' : Certified v byz q cast b')
    (hlarge : v.card + byz.card < 2 * q) (hslot : slot b = slot b')
    (honce : ∀ x, x ∉ byz → cast x b → cast x b' → slot b = slot b' → b = b') : b = b' := by
  obtain ⟨x, -, hnot, hcast, hcast'⟩ := h.common h' hlarge
  exact honce x hnot hcast hcast' hslot

end Quorum

end Kratos
