import Mathlib

/-!
# Merkle trees built level by level

A level is paired from left to right and a lone last node moves up unchanged;
`root` repeats this until one node is left.  The same construction run on the
free binary trees (`tree`) shows what a root commits to: folding that tree gives
the root (`root_map_eq_fold`) and its leaves are the original list
(`leaves_of_tree`).

For a hash `h` applied to leaf encodings and to pairs of `n`-byte digests, two
trees with the same root are equal as soon as `h` has no collision among the
strings hashed for them and no leaf encoding has `2 n` bytes (`eq_of_hashOf_eq`).
-/

namespace Kratos

namespace Merkle

variable {α β γ : Type}

/-- One level up. -/
def pairUp (f : β → β → β) : List β → List β
  | [] => []
  | [a] => [a]
  | a :: b :: l => f a b :: pairUp f l

def levels (f : β → β → β) : Nat → List β → Option β
  | _, [] => none
  | _, [a] => some a
  | 0, _ => none
  | n + 1, l => levels f n (pairUp f l)

/-- The root over a list of leaf nodes; `none` for no leaves. -/
def root (f : β → β → β) (l : List β) : Option β := levels f l.length l

/-- Binary trees with data at the leaves. -/
inductive Tree (α : Type) where
  | leaf (a : α)
  | node (l r : Tree α)

namespace Tree

def leaves : Tree α → List α
  | leaf a => [a]
  | node l r => l.leaves ++ r.leaves

def fold (lf : α → β) (nd : β → β → β) : Tree α → β
  | leaf a => lf a
  | node l r => nd (l.fold lf nd) (r.fold lf nd)

end Tree

/-- The tree whose fold is the root. -/
def tree (l : List α) : Option (Tree α) := root Tree.node (l.map Tree.leaf)

/-! ## The root exists and is the fold of `tree` -/

theorem length_pairUp (f : β → β → β) (l : List β) : (pairUp f l).length = (l.length + 1) / 2 := by
  induction l using pairUp.induct with
  | case1 => simp [pairUp]
  | case2 a => simp [pairUp]
  | case3 a b l ih =>
    simp only [pairUp, List.length_cons, ih]
    omega

theorem levels_isSome (f : β → β → β) (n : Nat) (l : List β) (hl : l ≠ []) (hn : l.length ≤ n + 1) :
    (levels f n l).isSome := by
  induction n generalizing l with
  | zero =>
    match l, hl, hn with
    | [a], _, _ => rfl
  | succ n ih =>
    match l, hl with
    | [a], _ => rfl
    | a :: b :: l, _ =>
      simp only [levels]
      apply ih
      · simp [pairUp]
      · rw [length_pairUp]
        simp only [List.length_cons] at hn ⊢
        omega

/-- Every non-empty list of leaves has a root. -/
theorem root_isSome (f : β → β → β) (l : List β) (hl : l ≠ []) : (root f l).isSome :=
  levels_isSome f l.length l hl (Nat.le_succ _)

theorem pairUp_map (g : γ → β) (f : β → β → β) (e : γ → γ → γ) (hg : ∀ a b, g (e a b) = f (g a) (g b))
    (l : List γ) : pairUp f (l.map g) = (pairUp e l).map g := by
  induction l using pairUp.induct with
  | case1 => rfl
  | case2 a => rfl
  | case3 a b l ih => simp [pairUp, ih, hg]

theorem levels_map (g : γ → β) (f : β → β → β) (e : γ → γ → γ) (hg : ∀ a b, g (e a b) = f (g a) (g b))
    (n : Nat) (l : List γ) : levels f n (l.map g) = (levels e n l).map g := by
  induction n generalizing l with
  | zero =>
    match l with
    | [] => rfl
    | [a] => rfl
    | a :: b :: l => rfl
  | succ n ih =>
    match l with
    | [] => rfl
    | [a] => rfl
    | a :: b :: l =>
      have hp := pairUp_map g f e hg (a :: b :: l)
      simp only [List.map_cons] at hp
      simp only [List.map_cons, levels, hp, ih]

/-- The root over mapped leaves is the fold of the tree over the leaves. -/
theorem root_map_eq_fold (lf : α → β) (nd : β → β → β) (l : List α) :
    root nd (l.map lf) = (tree l).map (Tree.fold lf nd) := by
  have h := levels_map (Tree.fold lf nd) nd Tree.node (fun _ _ => rfl) l.length (l.map Tree.leaf)
  have hm : (l.map Tree.leaf).map (Tree.fold lf nd) = l.map lf := by
    rw [List.map_map]
    rfl
  rw [hm] at h
  simp only [root, tree, List.length_map]
  exact h

theorem flatMap_pairUp (l : List (Tree α)) :
    (pairUp Tree.node l).flatMap Tree.leaves = l.flatMap Tree.leaves := by
  induction l using pairUp.induct with
  | case1 => rfl
  | case2 a => rfl
  | case3 a b l ih => simp [pairUp, Tree.leaves, ih]

theorem leaves_of_levels (n : Nat) (l : List (Tree α)) (t : Tree α)
    (h : levels Tree.node n l = some t) : t.leaves = l.flatMap Tree.leaves := by
  induction n generalizing l with
  | zero =>
    match l, h with
    | [a], h =>
      cases h
      simp
  | succ n ih =>
    match l, h with
    | [a], h =>
      cases h
      simp
    | a :: b :: l, h => rw [ih _ h, flatMap_pairUp]

/-- The tree carries exactly the list it was built from. -/
theorem leaves_of_tree (l : List α) (t : Tree α) (h : tree l = some t) : t.leaves = l := by
  rw [leaves_of_levels _ _ _ h, List.flatMap_map]
  simp [Tree.leaves]

/-! ## Hash trees -/

section Hashed

variable {η : Type} (h : List UInt8 → η) (digest : η → List UInt8) (enc : α → List UInt8)

/-- Digest of a tree: leaves hash their encoding, nodes the two digests below. -/
def hashOf (t : Tree α) : η := t.fold (fun a => h (enc a)) fun x y => h (digest x ++ digest y)

/-- The strings hashed on the way to the root. -/
def preimages : Tree α → List (List UInt8)
  | .leaf a => [enc a]
  | .node l r =>
    (digest (hashOf h digest enc l) ++ digest (hashOf h digest enc r)) :: (preimages l ++ preimages r)

/-- The root is the hash of one of the hashed strings. -/
theorem hashOf_mem (t : Tree α) : ∃ x ∈ preimages h digest enc t, hashOf h digest enc t = h x := by
  cases t with
  | leaf a => exact ⟨enc a, List.mem_cons_self, rfl⟩
  | node l r => exact ⟨_, List.mem_cons_self, rfl⟩

/-- Without collisions among the hashed strings, the root determines the tree. -/
theorem eq_of_hashOf_eq (n : Nat) (hdig : ∀ x, (digest x).length = n)
    (hdinj : ∀ x y, digest x = digest y → x = y) (henc : ∀ a b, enc a = enc b → a = b)
    (hlen : ∀ a, (enc a).length ≠ 2 * n) (s t : Tree α)
    (hcol : ∀ x ∈ preimages h digest enc s, ∀ y ∈ preimages h digest enc t, h x = h y → x = y)
    (he : hashOf h digest enc s = hashOf h digest enc t) : s = t := by
  induction s generalizing t with
  | leaf a =>
    cases t with
    | leaf b =>
      have := hcol (enc a) (by simp [preimages]) (enc b) (by simp [preimages]) he
      rw [henc a b this]
    | node l r =>
      have := hcol (enc a) (by simp [preimages]) _ (List.mem_cons_self) he
      exfalso
      apply hlen a
      rw [this, List.length_append, hdig, hdig]
      omega
  | node l r ihl ihr =>
    cases t with
    | leaf b =>
      have := hcol _ (List.mem_cons_self) (enc b) (by simp [preimages]) he
      exfalso
      apply hlen b
      rw [← this, List.length_append, hdig, hdig]
      omega
    | node l' r' =>
      have hp := hcol _ List.mem_cons_self _ List.mem_cons_self he
      obtain ⟨hl, hr⟩ := List.append_inj hp (by rw [hdig, hdig])
      have hcl : ∀ x ∈ preimages h digest enc l, ∀ y ∈ preimages h digest enc l', h x = h y → x = y :=
        fun x hx y hy => hcol x (by simp [preimages, hx]) y (by simp [preimages, hy])
      have hcr : ∀ x ∈ preimages h digest enc r, ∀ y ∈ preimages h digest enc r', h x = h y → x = y :=
        fun x hx y hy => hcol x (by simp [preimages, hx]) y (by simp [preimages, hy])
      rw [ihl l' hcl (hdinj _ _ hl), ihr r' hcr (hdinj _ _ hr)]

end Hashed

end Merkle

end Kratos
