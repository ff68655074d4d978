import Kratos.Lib.Merkle
import Kratos.Lib.MerklePath

/-!
# Branches of a Merkle tree with promoted nodes

In the trees of `Merkle.root` a lone last node moves up unchanged, so its level adds no
sibling to a branch.  A branch read back with the true sides leads to the root
(`ascend_branch`).  Read back with the bits of the leaf index, one bit a sibling, it does so
exactly when the two nodes of every misread step are equal (`climb_branch_iff`), and no step is
misread exactly when no node on the way up is promoted (`sidesAgree_branch_iff`).

From the root down, `spells_reach` says which strings a climb with a given index and number of
siblings can start from: the string of the node where the bits of the index lead, or whatever
the bytes of a leaf met on the way happen to spell.
-/

namespace Kratos

namespace MerkleBranch

open Merkle MerklePath

variable {α β : Type}

/-! ## Branches -/

/-- A node and its sibling combined, `right` if the node is the right one. -/
def join (f : β → β → β) (right : Bool) (h s : β) : β := if right then f s h else f h s

/-- The sibling of an index with the side of the index, nothing for a lone last node. -/
def step (l : List β) (i : Nat) : List (Bool × β) :=
  if i % 2 = 1 then (l[i - 1]?).toList.map (Prod.mk true) else (l[i + 1]?).toList.map (Prod.mk false)

/-- The siblings that exist, from the leaf to the root. -/
def branch (f : β → β → β) : Nat → List β → Nat → List (Bool × β)
  | _, [], _ => []
  | _, [_], _ => []
  | 0, _, _ => []
  | n + 1, l, i => step l i ++ branch f n (pairUp f l) (i / 2)

/-- The root that a node leads to with the true sides. -/
def ascend (f : β → β → β) : β → List (Bool × β) → β
  | h, [] => h
  | h, (right, s) :: p => ascend f (join f right h s) p

/-- Number of nodes `k` levels above `n` leaves. -/
def levelSize : Nat → Nat → Nat
  | n, 0 => n
  | n, k + 1 => levelSize ((n + 1) / 2) k

/-- Some node on the way from leaf `i` of `n` to the root is the lone last one of its level. -/
def Promoted (n i : Nat) : Prop :=
  ∃ k, 1 < levelSize n k ∧ i / 2 ^ k + 1 = levelSize n k ∧ i / 2 ^ k % 2 = 0

/-- The bits of an index, lowest first, are the sides of the steps. -/
def SidesAgree : Nat → List Bool → Prop
  | _, [] => True
  | i, right :: rest => decide (i % 2 = 1) = right ∧ SidesAgree (i / 2) rest

/-- Where a bit of the index is not the side of its step, the two nodes are equal. -/
def Harmless (f : β → β → β) : Nat → β → List (Bool × β) → Prop
  | _, _, [] => True
  | i, h, (right, s) :: p => (decide (i % 2 = 1) = right ∨ h = s) ∧ Harmless f (i / 2) (join f right h s) p

theorem up_side (f : β → β → β) (i : Nat) (h s : β) :
    up f (side i h s) = join f (decide (i % 2 = 1)) h s := by
  unfold up side join
  by_cases hi : i % 2 = 1
  · simp [hi]
  · simp [show i % 2 = 0 by omega]

theorem getElem?_pairUp (f : β → β → β) (l : List β) (i : Nat) (h : β) (hh : l[i]? = some h) :
    (pairUp f l)[i / 2]? = some (ascend f h (step l i)) := by
  induction l using pairUp.induct generalizing i with
  | case1 => simp at hh
  | case2 a =>
    obtain rfl : i = 0 := by
      have := (List.getElem?_eq_some_iff.mp hh).1
      simp only [List.length_singleton] at this
      omega
    simpa [pairUp, step, ascend] using hh
  | case3 a b l ih =>
    rcases i with _ | _ | i
    · have ha : a = h := by simpa using hh
      simp [pairUp, step, ascend, join, ha]
    · have hb : b = h := by simpa using hh
      simp [pairUp, step, ascend, join, hb]
    · have hi := ih i (by simpa using hh)
      have hs : step (a :: b :: l) (i + 2) = step l i := by
        unfold step
        rw [show (i + 2) % 2 = i % 2 by omega]
        split
        · have : i + 2 - 1 = i - 1 + 2 := by omega
          rw [this]
          simp
        · rw [show i + 2 + 1 = i + 1 + 2 by omega]
          simp
      rw [hs, pairUp, show (i + 2) / 2 = i / 2 + 1 by omega]
      simpa using hi

theorem ascend_append (f : β → β → β) (h : β) (p q : List (Bool × β)) :
    ascend f h (p ++ q) = ascend f (ascend f h p) q := by
  induction p generalizing h with
  | nil => rfl
  | cons e p ih => simp [ascend, ih]

theorem branch_succ (f : β → β → β) (n : Nat) (l : List β) (i : Nat) (hl : 1 < l.length) :
    branch f (n + 1) l i = step l i ++ branch f n (pairUp f l) (i / 2) := by
  match l, hl with
  | a :: b :: l, _ => rfl

/-- Read with the true sides, the branch of a leaf leads to the root. -/
theorem ascend_branch (f : β → β → β) (n : Nat) (l : List β) (i : Nat) (h r : β)
    (hh : l[i]? = some h) (hr : levels f n l = some r) : ascend f h (branch f n l i) = r := by
  induction n generalizing l i h with
  | zero =>
    match l, hr with
    | [a], hr =>
      have hi := (List.getElem?_eq_some_iff.mp hh).1
      simp only [List.length_singleton, Nat.lt_one_iff] at hi
      subst hi
      cases hr
      simpa [branch, ascend] using hh.symm
  | succ n ih =>
    match l, hr with
    | [a], hr =>
      have hi := (List.getElem?_eq_some_iff.mp hh).1
      simp only [List.length_singleton, Nat.lt_one_iff] at hi
      subst hi
      cases hr
      simpa [branch, ascend] using hh.symm
    | a :: b :: l, hr =>
      rw [branch_succ f n _ i (by simp), ascend_append]
      exact ih _ _ _ (getElem?_pairUp f _ i h hh) hr

/-! ## Reading a branch with the bits of the index -/

theorem climb_eq_ascend (f : β → β → β) (i : Nat) (h : β) (p : List (Bool × β))
    (hp : Harmless f i h p) : climb f i h (p.map Prod.snd) = ascend f h p := by
  induction p generalizing i h with
  | nil => rfl
  | cons e p ih =>
    obtain ⟨right, s⟩ := e
    obtain ⟨hs, hp⟩ := hp
    have hj : up f (side i h s) = join f right h s := by
      rw [up_side]
      rcases hs with hs | rfl
      · rw [hs]
      · simp [join]
    simp only [List.map_cons, climb, ascend, hj]
    exact ih _ _ hp

/-- The pairs combined on the way up, from left to right. -/
def pairsOf (f : β → β → β) : β → List (Bool × β) → List (β × β)
  | _, [] => []
  | h, (right, s) :: p => (if right then (s, h) else (h, s)) :: pairsOf f (join f right h s) p

/-- If no other pair has the value of a pair of the branch, a climb along the same siblings that
ends at the same root started from the same node and misread no step of two different nodes. -/
theorem harmless_of_climb_eq (f : β → β → β) (i : Nat) (h h' : β) (p : List (Bool × β))
    (hf : ∀ e ∈ pairsOf f h p, ∀ c d, f e.1 e.2 = f c d → e = (c, d))
    (he : climb f i h' (p.map Prod.snd) = ascend f h p) : h' = h ∧ Harmless f i h p := by
  induction p generalizing i h h' with
  | nil => exact ⟨he, trivial⟩
  | cons e p ih =>
    obtain ⟨right, s⟩ := e
    obtain ⟨hj, hp⟩ := ih (i / 2) (join f right h s) _ (fun e he' => hf e (List.mem_cons_of_mem _ he')) he
    have htop := hf _ List.mem_cons_self
    rw [up_side] at hj
    -- two steps up to one value combine the same pair
    cases right with
    | false =>
      by_cases hi : i % 2 = 1
      · have hpair := htop s h' (by simpa [join, hi] using hj.symm)
        obtain ⟨rfl, rfl⟩ := Prod.mk.inj hpair
        exact ⟨rfl, ⟨.inr rfl, hp⟩⟩
      · have hpair := htop h' s (by simpa [join, hi] using hj.symm)
        obtain ⟨rfl, -⟩ := Prod.mk.inj hpair
        exact ⟨rfl, ⟨.inl (by simpa using hi), hp⟩⟩
    | true =>
      by_cases hi : i % 2 = 1
      · have hpair := htop s h' (by simpa [join, hi] using hj.symm)
        obtain ⟨-, rfl⟩ := Prod.mk.inj hpair
        exact ⟨rfl, ⟨.inl (by simpa using hi), hp⟩⟩
      · have hpair := htop h' s (by simpa [join, hi] using hj.symm)
        obtain ⟨rfl, rfl⟩ := Prod.mk.inj hpair
        exact ⟨rfl, ⟨.inr rfl, hp⟩⟩

theorem harmless_of_sidesAgree (f : β → β → β) (i : Nat) (h : β) (p : List (Bool × β))
    (hp : SidesAgree i (p.map Prod.fst)) : Harmless f i h p := by
  induction p generalizing i h with
  | nil => trivial
  | cons e p ih => exact ⟨.inl hp.1, ih _ _ hp.2⟩

/-! ## Which leaves are read with the true sides -/

theorem promoted_iff (n i : Nat) :
    Promoted n i ↔ (1 < n ∧ i + 1 = n ∧ i % 2 = 0) ∨ Promoted ((n + 1) / 2) (i / 2) := by
  have hdiv : ∀ k, i / 2 ^ (k + 1) = i / 2 / 2 ^ k := by
    intro k
    rw [Nat.div_div_eq_div_mul, pow_succ, Nat.mul_comm]
  constructor
  · rintro ⟨k, hk⟩
    cases k with
    | zero => exact .inl (by simpa [levelSize] using hk)
    | succ k =>
      rw [hdiv] at hk
      exact .inr ⟨k, hk⟩
  · rintro (h | ⟨k, hk⟩)
    · exact ⟨0, by simpa [levelSize] using h⟩
    · refine ⟨k + 1, ?_⟩
      rw [hdiv]
      exact hk

theorem not_promoted_of_le_one (n i : Nat) (hn : n ≤ 1) : ¬Promoted n i := by
  have hsize : ∀ k n, n ≤ 1 → levelSize n k ≤ 1 := by
    intro k
    induction k with
    | zero => exact fun n hn => hn
    | succ k ih => exact fun n hn => ih _ (by omega)
  rintro ⟨k, hk, -⟩
  have := hsize k n hn
  omega

theorem step_eq (l : List β) (i : Nat) (hi : i < l.length) (hl : ¬(i + 1 = l.length ∧ i % 2 = 0)) :
    ∃ s, step l i = [(decide (i % 2 = 1), s)] := by
  unfold step
  split
  · rename_i h
    have : i - 1 < l.length := by omega
    exact ⟨l[i - 1], by simp [this, h]⟩
  · rename_i h
    have : i + 1 < l.length := by omega
    exact ⟨l[i + 1], by simp [this, h]⟩

theorem step_lone (l : List β) (i : Nat) (hl : i + 1 = l.length) (hi : i % 2 = 0) : step l i = [] := by
  unfold step
  rw [if_neg (by omega)]
  simp [hl]

/-- The first sibling of the last leaf of a level stands on its left. -/
theorem branch_last (f : β → β → β) (n : Nat) (l : List β) (i : Nat) (hl : 1 < l.length)
    (hn : l.length ≤ n + 1) (hi : i + 1 = l.length) : ∃ s p, branch f n l i = (true, s) :: p := by
  induction n generalizing l i with
  | zero => omega
  | succ n ih =>
    rw [branch_succ f n l i hl]
    by_cases hodd : i % 2 = 1
    · obtain ⟨s, hs⟩ := step_eq l i (by omega) (by omega)
      exact ⟨s, _, by rw [hs]; simp [hodd]; rfl⟩
    · have hlen := length_pairUp f l
      rw [step_lone l i hi (by omega)]
      exact ih _ _ (by omega) (by omega) (by omega)

/-- The bits of a leaf index are the sides of its branch exactly when nothing on the way up is
promoted. -/
theorem sidesAgree_branch_iff (f : β → β → β) (n : Nat) (l : List β) (i : Nat) (hi : i < l.length)
    (hn : l.length ≤ n + 1) : SidesAgree i ((branch f n l i).map Prod.fst) ↔ ¬Promoted l.length i := by
  induction n generalizing l i with
  | zero =>
    match l, hn, hi with
    | [a], _, _ => simp [branch, SidesAgree, not_promoted_of_le_one]
  | succ n ih =>
    by_cases hl : 1 < l.length
    · have hlen := length_pairUp f l
      rw [branch_succ f n l i hl, promoted_iff]
      by_cases hlone : i + 1 = l.length ∧ i % 2 = 0
      · obtain ⟨s, p, hp⟩ := branch_last f n (pairUp f l) (i / 2) (by omega) (by omega) (by omega)
        rw [step_lone l i hlone.1 hlone.2, hp]
        simp [SidesAgree, hlone, hl]
      · obtain ⟨s, hs⟩ := step_eq l i hi hlone
        have := ih (pairUp f l) (i / 2) (by omega) (by omega)
        rw [hlen] at this
        rw [hs]
        simp only [List.cons_append, List.nil_append, List.map_cons, SidesAgree, true_and, this]
        tauto
    · have hb : branch f (n + 1) l i = [] := by
        match l, hl with
        | [], _ => rfl
        | [a], _ => rfl
        | a :: b :: l, hl => simp at hl
      rw [hb]
      simp [SidesAgree, not_promoted_of_le_one l.length i (by omega)]

/-! ## Branches of mapped leaves -/

section Mapped

variable {γ : Type} (g : γ → β) (f : β → β → β) (e : γ → γ → γ)

theorem step_map (l : List γ) (i : Nat) : step (l.map g) i = (step l i).map (Prod.map id g) := by
  unfold step
  split
  · cases h : l[i - 1]? <;> simp [h]
  · cases h : l[i + 1]? <;> simp [h]

theorem join_map (hg : ∀ a b, g (e a b) = f (g a) (g b)) (right : Bool) (a b : γ) :
    join f right (g a) (g b) = g (join e right a b) := by
  cases right <;> simp [join, hg]

theorem branch_map (hg : ∀ a b, g (e a b) = f (g a) (g b)) (n : Nat) (l : List γ) (i : Nat) :
    branch f n (l.map g) i = (branch e n l i).map (Prod.map id g) := by
  induction n generalizing l i with
  | zero =>
    match l with
    | [] => rfl
    | [a] => rfl
    | a :: b :: l => rfl
  | succ n ih =>
    match l with
    | [] => rfl
    | [a] => rfl
    | a :: b :: l =>
      rw [branch_succ f n _ i (by simp), branch_succ e n _ i (by simp), step_map,
        Merkle.pairUp_map g f e hg, ih, List.map_append]

theorem pairsOf_map (hg : ∀ a b, g (e a b) = f (g a) (g b)) (a : γ) (p : List (Bool × γ)) :
    pairsOf f (g a) (p.map (Prod.map id g)) = (pairsOf e a p).map (Prod.map g g) := by
  induction p generalizing a with
  | nil => rfl
  | cons q p ih =>
    obtain ⟨right, b⟩ := q
    simp only [List.map_cons, pairsOf, Prod.map_apply, id_eq, join_map g f e hg, ih]
    cases right <;> rfl

end Mapped

/-! ## Climbs seen from the root -/

/-- The bits of an index that choose the way down, `d` levels from the top. -/
def turns : Nat → Nat → List Bool
  | 0, _ => []
  | d + 1, i => i.testBit d :: turns d i

/-- The subtree where the turns lead, with the turns left when a leaf ends the way. -/
def reach : Merkle.Tree α → List Bool → Merkle.Tree α × List Bool
  | t, [] => (t, [])
  | .leaf a, right :: rest => (.leaf a, right :: rest)
  | .node l r, right :: rest => if right then reach r rest else reach l rest

theorem climb_append (f : β → β → β) (i : Nat) (h s : β) (p : List β) :
    climb f i h (p ++ [s]) = join f (i.testBit p.length) (climb f i h p) s := by
  induction p generalizing i h with
  | nil => simp [climb, up_side, Nat.testBit_zero]
  | cons a p ih => simp [climb, ih, Nat.testBit_succ]

section Hashed

variable {η : Type} (h : List UInt8 → η) (digest : η → List UInt8) (enc : α → List UInt8)

/-- Digest of two digests. -/
def pair (x y : η) : η := h (digest x ++ digest y)

/-- The string a node is the digest of. -/
def text : Merkle.Tree α → List UInt8
  | .leaf a => enc a
  | .node l r => digest (hashOf h digest enc l) ++ digest (hashOf h digest enc r)

/-- A digest is that of a string, or of two digests one of which is the next one down. -/
def Spells : η → List Bool → List UInt8 → Prop
  | d, [], x => d = h x
  | d, right :: rest, x =>
    ∃ l r, d = pair h digest l r ∧ Spells (if right then r else l) rest x

theorem hashOf_eq (t : Merkle.Tree α) : hashOf h digest enc t = h (text h digest enc t) := by
  cases t <;> rfl

theorem text_mem (t : Merkle.Tree α) : text h digest enc t ∈ preimages h digest enc t := by
  cases t <;> simp [text, preimages]

/-- The strings that a climb of `n` siblings with index `i` can reach a digest from. -/
theorem exists_climb_iff (i n : Nat) (d : η) (x : List UInt8) :
    (∃ p : List η, p.length = n ∧ climb (pair h digest) i (h x) p = d) ↔ Spells h digest d (turns n i) x := by
  induction n generalizing d with
  | zero =>
    constructor
    · rintro ⟨p, hp, rfl⟩
      rw [List.length_eq_zero_iff.mp hp]
      rfl
    · intro hd
      exact ⟨[], rfl, hd.symm⟩
  | succ n ih =>
    constructor
    · rintro ⟨p, hp, rfl⟩
      obtain ⟨q, s, rfl⟩ : ∃ q s, p = q ++ [s] :=
        ⟨p.dropLast, p.getLast (by intro h0; simp [h0] at hp), (List.dropLast_append_getLast _).symm⟩
      obtain rfl : q.length = n := by simpa using hp
      rw [climb_append]
      have hq := (ih (climb (pair h digest) i (h x) q)).mp ⟨q, rfl, rfl⟩
      cases hb : i.testBit q.length with
      | false => exact ⟨climb (pair h digest) i (h x) q, s, by simp [join], by simpa [hb] using hq⟩
      | true => exact ⟨s, climb (pair h digest) i (h x) q, by simp [join], by simpa [hb] using hq⟩
    · rintro ⟨l, r, rfl, hs⟩
      obtain ⟨q, rfl, hq⟩ := (ih _).mpr hs
      refine ⟨q ++ [if i.testBit q.length then l else r], by simp, ?_⟩
      rw [climb_append, hq]
      cases i.testBit q.length <;> simp [join]

variable (hdig : ∀ x y x' y', digest x ++ digest y = digest x' ++ digest y' → x = x' ∧ y = y')

include hdig in
/-- Where the turns lead in a tree without second preimages, and what is left to spell there. -/
theorem spells_reach (t : Merkle.Tree α) (turns : List Bool) (x : List UInt8)
    (hsec : ∀ y ∈ preimages h digest enc t, ∀ z, h y = h z → y = z) :
    Spells h digest (hashOf h digest enc t) turns x ↔
      Spells h digest (hashOf h digest enc (reach t turns).1) (reach t turns).2 x := by
  induction turns generalizing t with
  | nil =>
    cases t <;> rfl
  | cons right rest ih =>
    cases t with
    | leaf a => rfl
    | node l r =>
      have hl := ih l fun y hy => hsec y (by simp [preimages, hy])
      have hr := ih r fun y hy => hsec y (by simp [preimages, hy])
      have hdown : Spells h digest (hashOf h digest enc (.node l r)) (right :: rest) x ↔
          Spells h digest (if right then hashOf h digest enc r else hashOf h digest enc l) rest x := by
        constructor
        · rintro ⟨a, b, he, hs⟩
          obtain ⟨rfl, rfl⟩ := hdig _ _ _ _ (hsec _ List.mem_cons_self _ he)
          exact hs
        · exact fun hs => ⟨_, _, rfl, hs⟩
      rw [hdown]
      cases right with
      | false => exact hl
      | true => exact hr

theorem preimages_reach (t : Merkle.Tree α) (turns : List Bool) (x : List UInt8)
    (hx : x ∈ preimages h digest enc (reach t turns).1) : x ∈ preimages h digest enc t := by
  induction turns generalizing t with
  | nil => cases t <;> exact hx
  | cons right rest ih =>
    cases t with
    | leaf a => exact hx
    | node l r =>
      cases right with
      | false => simp [preimages, ih l hx]
      | true => simp [preimages, ih r hx]

/-- Every string hashed below a node is hashed below the nodes above it. -/
theorem preimages_ascend (t : Merkle.Tree α) (p : List (Bool × Merkle.Tree α)) (x : List UInt8)
    (hx : x ∈ preimages h digest enc t) : x ∈ preimages h digest enc (ascend Merkle.Tree.node t p) := by
  induction p generalizing t with
  | nil => exact hx
  | cons e p ih =>
    obtain ⟨right, s⟩ := e
    apply ih
    cases right <;> simp [join, preimages, hx]

/-- The strings hashed on the way up from a node. -/
theorem mem_preimages_ascend (t : Merkle.Tree α) (p : List (Bool × Merkle.Tree α)) (e : Merkle.Tree α × Merkle.Tree α)
    (he : e ∈ pairsOf Merkle.Tree.node t p) :
    digest (hashOf h digest enc e.1) ++ digest (hashOf h digest enc e.2) ∈
      preimages h digest enc (ascend Merkle.Tree.node t p) := by
  induction p generalizing t with
  | nil => cases he
  | cons q p ih =>
    obtain ⟨right, s⟩ := q
    rcases List.mem_cons.mp he with rfl | he
    · refine preimages_ascend h digest enc _ p _ ?_
      cases right <;> exact List.mem_cons_self
    · exact ih _ he

include hdig in
/-- Without second preimages of the strings hashed for the tree, reading the branch of a leaf with
the bits of its index leads to the root exactly when no two different nodes are swapped. -/
theorem climb_branch_iff (l : List α) (t : Merkle.Tree α) (i : Nat) (a : α) (ht : tree l = some t) (ha : l[i]? = some a)
    (hsec : ∀ y ∈ preimages h digest enc t, ∀ z, h y = h z → y = z) :
    climb (pair h digest) i (h (enc a))
        ((branch (pair h digest) l.length (l.map fun a => h (enc a)) i).map Prod.snd) =
      hashOf h digest enc t ↔
    Harmless (pair h digest) i (h (enc a)) (branch (pair h digest) l.length (l.map fun a => h (enc a)) i) := by
  have hmap : (l.map fun a => h (enc a)) = (l.map Merkle.Tree.leaf).map (hashOf h digest enc) := by
    rw [List.map_map]
    rfl
  have hg : ∀ a b : Merkle.Tree α, hashOf h digest enc (.node a b) =
      pair h digest (hashOf h digest enc a) (hashOf h digest enc b) := fun _ _ => rfl
  have hbr := branch_map (hashOf h digest enc) (pair h digest) Merkle.Tree.node hg l.length (l.map Merkle.Tree.leaf) i
  have htree : ascend Merkle.Tree.node (.leaf a) (branch Merkle.Tree.node l.length (l.map Merkle.Tree.leaf) i) = t := by
    apply ascend_branch
    · simp [ha]
    · simpa [tree, root] using ht
  have hroot : ascend (pair h digest) (h (enc a))
      (branch (pair h digest) l.length (l.map fun a => h (enc a)) i) = hashOf h digest enc t := by
    apply ascend_branch
    · simp [ha]
    · have hr := root_map_eq_fold (fun a => h (enc a)) (pair h digest) l
      rw [ht, root, List.length_map] at hr
      exact hr
  constructor
  · intro hc
    refine (harmless_of_climb_eq _ _ _ _ _ ?_ (hc.trans hroot.symm)).2
    rw [hmap, hbr]
    change ∀ e ∈ pairsOf _ (hashOf h digest enc (.leaf a)) _, _
    rw [pairsOf_map (hashOf h digest enc) (pair h digest) Merkle.Tree.node hg]
    intro e' he' c d hcd
    obtain ⟨e, he, rfl⟩ := List.mem_map.mp he'
    have hmem := mem_preimages_ascend h digest enc _ _ _ he
    rw [htree] at hmem
    obtain ⟨h1, h2⟩ := hdig _ _ _ _ (hsec _ hmem _ hcd)
    exact Prod.ext h1 h2
  · intro hh
    rw [climb_eq_ascend _ _ _ _ hh, hroot]

end Hashed

end MerkleBranch

end Kratos
