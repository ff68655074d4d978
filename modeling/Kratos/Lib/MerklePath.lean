import Kratos.Lib.Merkle

/-!
# Membership paths of a padded Merkle tree

Here a lone last node of a level is paired with itself.  The path of a leaf lists the
siblings from the leaf to the root, and `climb` recomputes the root from a leaf and a
path, going left or right by the bits of the index.

`climb_proofOf`: the path of every leaf leads to the root, and it has `Nat.clog 2 n`
steps for `n` leaves (`length_proofOf`).  `climb_eq_root`: an arbitrary leaf and path of
that length that lead to the root are those of the tree, as soon as the combining
function does not collide on the pairs met on the two sides.  `climb_ne_hashOf`: such a
climb never ends at the root of a hash tree over strings of other lengths.
-/

namespace Kratos

namespace MerklePath

variable {β : Type}

/-- The pairs of a level, the last node twice if it is alone. -/
def pairs : List β → List (β × β)
  | [] => []
  | [a] => [(a, a)]
  | a :: b :: l => (a, b) :: pairs l

def up (f : β → β → β) (e : β × β) : β := f e.1 e.2

/-- One level up. -/
def levelUp (f : β → β → β) (l : List β) : List β := (pairs l).map (up f)

/-- The root over a list of leaf nodes; `none` for no leaves. -/
def rootOf (f : β → β → β) : Nat → List β → Option β
  | _, [] => none
  | _, [a] => some a
  | 0, _ => none
  | n + 1, l => rootOf f n (levelUp f l)

/-- All pairs combined on the way to the root. -/
def combined (f : β → β → β) : Nat → List β → List (β × β)
  | _, [] => []
  | _, [_] => []
  | 0, _ => []
  | n + 1, l => pairs l ++ combined f n (levelUp f l)

/-- The node next to the one at an index, or itself at the end of an odd level. -/
def sibling [Inhabited β] (l : List β) (i : Nat) : β :=
  let s := if i % 2 = 0 then i + 1 else i - 1
  if s < l.length then l.getD s default else l.getD i default

/-- The siblings from a leaf to the root. -/
def proofOf [Inhabited β] (f : β → β → β) : Nat → List β → Nat → List β
  | _, [], _ => []
  | _, [_], _ => []
  | 0, _, _ => []
  | n + 1, l, i => sibling l i :: proofOf f n (levelUp f l) (i / 2)

/-- A node at an index and its sibling, from left to right. -/
def side (i : Nat) (h s : β) : β × β := if i % 2 = 0 then (h, s) else (s, h)

/-- The root that a leaf and its siblings lead to. -/
def climb (f : β → β → β) : Nat → β → List β → β
  | _, h, [] => h
  | i, h, s :: p => climb f (i / 2) (up f (side i h s)) p

/-- The pairs combined by a climb. -/
def climbed (f : β → β → β) : Nat → β → List β → List (β × β)
  | _, _, [] => []
  | i, h, s :: p => side i h s :: climbed f (i / 2) (up f (side i h s)) p

theorem side_inj (i : Nat) (h s h' s' : β) (he : side i h s = side i h' s') : h = h' ∧ s = s' := by
  unfold side at he
  split at he
  · exact Prod.mk.inj he
  · exact (Prod.mk.inj he).symm

/-! ## Levels -/

theorem length_pairs (l : List β) : (pairs l).length = (l.length + 1) / 2 := by
  induction l using pairs.induct with
  | case1 => simp [pairs]
  | case2 a => simp [pairs]
  | case3 a b l ih =>
    simp only [pairs, List.length_cons, ih]
    omega

theorem length_levelUp (f : β → β → β) (l : List β) : (levelUp f l).length = (l.length + 1) / 2 := by
  rw [levelUp, List.length_map, length_pairs]

theorem pairs_getElem? (l : List β) (j : Nat) (a : β) (h : l[2 * j]? = some a) :
    (pairs l)[j]? = some (a, (l[2 * j + 1]?).getD a) := by
  induction l using pairs.induct generalizing j with
  | case1 => cases h
  | case2 b =>
    cases j with
    | zero =>
      cases h
      rfl
    | succ j => cases h
  | case3 b c l ih =>
    cases j with
    | zero =>
      cases h
      rfl
    | succ j => exact ih j h

/-- A node and its sibling are a pair of their level. -/
theorem pairs_side [Inhabited β] (l : List β) (i : Nat) (a : β) (h : l[i]? = some a) :
    (pairs l)[i / 2]? = some (side i a (sibling l i)) := by
  obtain ⟨hi, -⟩ := List.getElem?_eq_some_iff.1 h
  have hself : l.getD i default = a := by simp [h]
  by_cases hpar : i % 2 = 0
  · have hleft : 2 * (i / 2) = i := by omega
    rw [pairs_getElem? l (i / 2) a (by rw [hleft, h]), hleft]
    simp only [side, sibling, if_pos hpar, hself]
    split
    · next hs => simp [hs]
    · next hs => simp [List.getElem?_eq_none (Nat.le_of_not_lt hs)]
  · have hleft : 2 * (i / 2) = i - 1 := by omega
    have hright : i - 1 + 1 = i := by omega
    have hs : i - 1 < l.length := by omega
    have hget : l[i - 1]? = some (l.getD (i - 1) default) := by simp [hs]
    rw [pairs_getElem? l (i / 2) _ (by rw [hleft, hget]), hleft, hright, h]
    simp only [side, sibling, if_neg hpar, if_pos hs]
    rfl

theorem levelUp_getElem? [Inhabited β] (f : β → β → β) (l : List β) (i : Nat) (a : β) (h : l[i]? = some a) :
    (levelUp f l)[i / 2]? = some (up f (side i a (sibling l i))) := by
  rw [levelUp, List.getElem?_map, pairs_side l i a h]
  rfl

/-- **Induction over the levels**, with fuel for all of them. -/
theorem levels_induction (f : β → β → β) (P : Nat → List β → Prop) (hone : ∀ n a, P n [a])
    (hup : ∀ n a b l, P n (levelUp f (a :: b :: l)) → P (n + 1) (a :: b :: l)) (n : Nat) (l : List β)
    (hl : l ≠ []) (hn : l.length ≤ n + 1) : P n l := by
  induction n generalizing l with
  | zero =>
    match l, hl, hn with
    | [a], _, _ => exact hone 0 a
  | succ n ih =>
    match l, hl with
    | [a], _ => exact hone _ a
    | a :: b :: l, _ =>
      refine hup n a b l (ih _ ?_ ?_)
      · simp [levelUp, pairs]
      · rw [length_levelUp]
        simp only [List.length_cons] at hn ⊢
        omega

theorem clog_levelUp (f : β → β → β) (a b : β) (l : List β) :
    Nat.clog 2 (a :: b :: l).length = Nat.clog 2 (levelUp f (a :: b :: l)).length + 1 := by
  rw [length_levelUp, Nat.clog_of_two_le one_lt_two (by simp)]
  rfl

theorem eq_zero_of_getElem? (a b : β) (i : Nat) (h : [a][i]? = some b) : i = 0 := by
  have := (List.getElem?_eq_some_iff.1 h).1
  simpa using this

/-! ## Paths lead to the root -/

section Paths

variable [Inhabited β] (f : β → β → β)

theorem climb_proofOf (n : Nat) (l : List β) (i : Nat) (a : β) (hn : l.length ≤ n + 1) (h : l[i]? = some a) :
    rootOf f n l = some (climb f i a (proofOf f n l i)) := by
  have hl : l ≠ [] := by
    rintro rfl
    cases h
  refine levels_induction f
    (fun n l => ∀ i a, l[i]? = some a → rootOf f n l = some (climb f i a (proofOf f n l i)))
    ?_ ?_ n l hl hn i a h
  · intro n b i a h
    obtain rfl := eq_zero_of_getElem? b a i h
    cases h
    cases n <;> rfl
  · intro n b c l ih i a h
    exact ih _ _ (levelUp_getElem? f _ i a h)

theorem length_proofOf (n : Nat) (l : List β) (i : Nat) (hl : l ≠ []) (hn : l.length ≤ n + 1) :
    (proofOf f n l i).length = Nat.clog 2 l.length := by
  refine levels_induction f (fun n l => ∀ i, (proofOf f n l i).length = Nat.clog 2 l.length) ?_ ?_ n l hl hn i
  · intro n a i
    cases n <;> simp [proofOf]
  · intro n a b l ih i
    rw [clog_levelUp f]
    exact congrArg (· + 1) (ih (i / 2))

/-- **Soundness.**  A leaf and a path of the right length that lead to the root are those
of the tree. -/
theorem climb_eq_root (n : Nat) (l : List β) (i : Nat) (h : β) (p : List β) (hn : l.length ≤ n + 1)
    (hi : i < l.length) (hp : p.length = Nat.clog 2 l.length)
    (hinj : ∀ x ∈ combined f n l, ∀ y ∈ climbed f i h p, up f x = up f y → x = y)
    (hroot : rootOf f n l = some (climb f i h p)) : l[i]? = some h ∧ p = proofOf f n l i := by
  have hl : l ≠ [] := List.ne_nil_of_length_pos (Nat.zero_lt_of_lt hi)
  refine levels_induction f
    (fun n l => ∀ i h p, i < l.length → p.length = Nat.clog 2 l.length →
      (∀ x ∈ combined f n l, ∀ y ∈ climbed f i h p, up f x = up f y → x = y) →
      rootOf f n l = some (climb f i h p) → l[i]? = some h ∧ p = proofOf f n l i)
    ?_ ?_ n l hl hn i h p hi hp hinj hroot
  · intro n a i h p hi hp hinj hroot
    have hi' : i = 0 := by simpa using hi
    have hp' : p = [] := List.eq_nil_of_length_eq_zero (by simpa using hp)
    subst hi' hp'
    have hroot' : rootOf f n [a] = some a := by cases n <;> rfl
    rw [hroot'] at hroot
    exact ⟨hroot, by cases n <;> rfl⟩
  · intro n b c l ih i h p hi hp hinj hroot
    rw [clog_levelUp f] at hp
    match p, hp with
    | s :: p, hp =>
      have hhalf : i / 2 < (levelUp f (b :: c :: l)).length := by
        rw [length_levelUp]
        omega
      -- the levels above the first are those of the tree
      obtain ⟨hup, hpath⟩ := ih (i / 2) _ p hhalf (Nat.succ.inj hp)
        (fun x hx y hy => hinj x (List.mem_append_right _ hx) y (List.mem_cons_of_mem _ hy)) hroot
      -- so the first pair combines to a node of the tree, and is its pair
      obtain ⟨a, ha⟩ : ∃ a, (b :: c :: l)[i]? = some a := ⟨_, List.getElem?_eq_getElem hi⟩
      rw [levelUp_getElem? f _ i a ha] at hup
      have hmem : side i a (sibling (b :: c :: l) i) ∈ pairs (b :: c :: l) :=
        List.mem_of_getElem? (pairs_side _ i a ha)
      have hpair := hinj _ (List.mem_append_left _ hmem) (side i h s) List.mem_cons_self
        (Option.some.inj hup)
      obtain ⟨rfl, rfl⟩ := side_inj i _ _ _ _ hpair
      exact ⟨ha, congrArg _ hpath⟩

end Paths

/-! ## Paths and hash trees -/

section Hashed

variable {α η : Type} (h : List UInt8 → η) (digest : η → List UInt8)

/-- The string of a pair of digests. -/
def pairBytes (e : η × η) : List UInt8 := digest e.1 ++ digest e.2

/-- The last step of a climb. -/
theorem climb_concat (f : η → η → η) (i : Nat) (x : η) (p : List η) (s : η) :
    climb f i x (p ++ [s]) = up f (side (i / 2 ^ p.length) (climb f i x p) s) := by
  induction p generalizing i x with
  | nil => simp [climb]
  | cons r p ih =>
    show climb f (i / 2) _ (p ++ [s]) = _
    rw [ih, List.length_cons, pow_succ', Nat.div_div_eq_div_mul]
    rfl

theorem climbed_concat (f : η → η → η) (i : Nat) (x : η) (p : List η) (s : η) :
    climbed f i x (p ++ [s]) = climbed f i x p ++ [side (i / 2 ^ p.length) (climb f i x p) s] := by
  induction p generalizing i x with
  | nil => simp [climbed, climb]
  | cons r p ih =>
    show side i x r :: climbed f (i / 2) _ (p ++ [s]) = _
    rw [ih, List.length_cons, pow_succ', Nat.div_div_eq_div_mul]
    rfl

/-- A climb from the hash of a string does not end at the root of a hash tree whose leaf
strings have other lengths, without a collision on the strings hashed on the two sides. -/
theorem climb_ne_hashOf (enc : α → List UInt8) (n : Nat) (hdig : ∀ x, (digest x).length = n)
    (hdinj : ∀ x y, digest x = digest y → x = y) (hlen : ∀ a, (enc a).length ≠ 2 * n) (i : Nat)
    (data : List UInt8) (hdata : data.length ≠ 2 * n) (henc : ∀ a, (enc a).length ≠ data.length) (p : List η)
    (t : Merkle.Tree α)
    (hcol : ∀ x ∈ data :: (climbed (fun l r => h (digest l ++ digest r)) i (h data) p).map (pairBytes digest),
      ∀ y ∈ Merkle.preimages h digest enc t, h x = h y → x = y) :
    climb (fun l r => h (digest l ++ digest r)) i (h data) p ≠ Merkle.hashOf h digest enc t := by
  -- from the root down, along the bits of the index
  induction p using List.reverseRecOn generalizing t with
  | nil =>
    intro he
    cases t with
    | leaf a =>
      have := hcol data List.mem_cons_self (enc a) (by simp [Merkle.preimages]) he
      exact henc a (congrArg List.length this.symm)
    | node l r =>
      have := hcol data List.mem_cons_self _ List.mem_cons_self he
      apply hdata
      rw [this, List.length_append, hdig, hdig]
      omega
  | append_singleton p s ih =>
    intro he
    rw [climb_concat] at he
    rw [climbed_concat, List.map_append] at hcol
    generalize i / 2 ^ p.length = j at he hcol
    generalize hx : climb (fun l r => h (digest l ++ digest r)) i (h data) p = x at he hcol ih
    have hside : pairBytes digest (side j x s) ∈
        data :: ((climbed (fun l r => h (digest l ++ digest r)) i (h data) p).map (pairBytes digest) ++
          [pairBytes digest (side j x s)]) := by
      simp
    have hlenside : (pairBytes digest (side j x s)).length = 2 * n := by
      rw [pairBytes, List.length_append, hdig, hdig]
      omega
    cases t with
    | leaf a =>
      have := hcol _ hside (enc a) (by simp [Merkle.preimages]) he
      exact hlen a (by rw [← this, hlenside])
    | node l r =>
      have hp := hcol _ hside _ List.mem_cons_self he
      obtain ⟨hl, hr⟩ := List.append_inj hp (by rw [hdig, hdig])
      have hbelow : ∀ t, (∀ y ∈ Merkle.preimages h digest enc t, y ∈ Merkle.preimages h digest enc (.node l r)) →
          x ≠ Merkle.hashOf h digest enc t := by
        intro t ht
        refine ih t fun y hy z hz => hcol y ?_ z (ht z hz)
        simp only [List.mem_cons, List.mem_append] at hy ⊢
        tauto
      unfold side at hl hr
      split at hl
      · next hj =>
        rw [if_pos hj] at hr
        exact hbelow l (fun y hy => by simp [Merkle.preimages, hy]) (hdinj _ _ hl)
      · next hj =>
        rw [if_neg hj] at hr
        exact hbelow r (fun y hy => by simp [Merkle.preimages, hy]) (hdinj _ _ hr)

end Hashed

end MerklePath

end Kratos
