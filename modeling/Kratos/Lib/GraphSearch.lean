import Mathlib

/-!
# Worklist search

`search` takes vertices from a list, skips those visited before and puts the neighbours of the
others on the list; a vertex can be on it several times.  `sweep` starts a search at each of the
given vertices that no search has visited yet.  On a symmetric graph a search finds the vertices
that can be reached from its start, whatever the order of the neighbours, and the searches of a
sweep find the connected classes of their starts, each once.
-/

namespace Kratos

namespace GraphSearch

variable {α : Type} [DecidableEq α] (next : α → List α)

/-- The vertices visited after the search, and those it found. -/
def search : Nat → Finset α → Finset α → List α → Option (Finset α × Finset α)
  | _, visited, found, [] => some (visited, found)
  | 0, _, _, _ :: _ => none
  | fuel + 1, visited, found, a :: queue =>
    if a ∈ visited then search fuel visited found queue
    else search fuel (insert a visited) (insert a found)
      (((next a).filter fun b => b ∉ insert a visited).reverse ++ queue)

def sweep (fuel : Nat) : Finset α → List α → Option (List (Finset α))
  | _, [] => some []
  | visited, r :: roots =>
    if r ∈ visited then sweep fuel visited roots
    else (search next fuel visited ∅ [r]).bind fun s => (sweep fuel s.1 roots).map (s.2 :: ·)

/-- Steps that are enough to search among `U`. -/
def enough (U : Finset α) : Nat := 1 + ∑ a ∈ U, (next a).length

/-! ## The search ends -/

/-- Every step takes a vertex from the list or visits one more. -/
theorem search_isSome (U : Finset α) (hU : ∀ a ∈ U, ∀ b ∈ next a, b ∈ U) (fuel : Nat) (visited found : Finset α)
    (queue : List α) (hqueue : ∀ a ∈ queue, a ∈ U)
    (hfuel : queue.length + ∑ a ∈ U \ visited, (next a).length ≤ fuel) :
    (search next fuel visited found queue).isSome := by
  induction fuel generalizing visited found queue with
  | zero =>
    cases queue with
    | nil => rfl
    | cons a queue =>
      rw [List.length_cons] at hfuel
      omega
  | succ fuel ih =>
    cases queue with
    | nil => rfl
    | cons a queue =>
      have ha := hqueue a List.mem_cons_self
      have htail : ∀ b ∈ queue, b ∈ U := fun b hb => hqueue b (List.mem_cons_of_mem a hb)
      rw [List.length_cons] at hfuel
      unfold search
      split
      · exact ih visited found queue htail (by omega)
      · next hnew =>
        refine ih _ _ _ ?_ ?_
        · intro b hb
          rcases List.mem_append.mp hb with hb | hb
          · exact hU a ha b (List.mem_of_mem_filter (List.mem_reverse.mp hb))
          · exact htail b hb
        · have hsum := Finset.sum_erase_add (U \ visited) (fun b => (next b).length)
            (Finset.mem_sdiff.mpr ⟨ha, hnew⟩)
          have hpushed := List.length_filter_le (fun b => decide (b ∉ insert a visited)) (next a)
          rw [Finset.sdiff_insert, List.length_append, List.length_reverse]
          omega

/-! ## What it finds -/

/-- `b` can be reached from `a`. -/
def Reach (a b : α) : Prop := Relation.ReflTransGen (fun x y => y ∈ next x) a b

/-- A set that no step leaves. -/
def Closed (s : Finset α) : Prop := ∀ a ∈ s, ∀ b ∈ next a, b ∈ s

/-- The class of a vertex. -/
def IsClass (s : Finset α) (r : α) : Prop := ∀ a, a ∈ s ↔ Reach next r a

/-- What a search that was started at `r` keeps. -/
structure Searching (before : Finset α) (r : α) (visited found : Finset α) (queue : List α) : Prop where
  visited_eq : visited = before ∪ found
  fresh : ∀ a ∈ found, a ∉ before
  reach : ∀ a ∈ found, Reach next r a
  queued : ∀ a ∈ queue, Reach next r a
  start : r ∈ found ∨ r ∈ queue
  edges : ∀ a ∈ found, ∀ b ∈ next a, b ∈ visited ∨ b ∈ queue

variable {next}

theorem Searching.skip {before visited found : Finset α} {r a : α} {queue : List α}
    (h : Searching next before r visited found (a :: queue)) (hr : r ∉ before) (ha : a ∈ visited) :
    Searching next before r visited found queue := by
  have hstays : ∀ b, b ∈ a :: queue → b ∈ visited ∨ b ∈ queue := by
    intro b hb
    rcases List.mem_cons.mp hb with rfl | hb
    · exact .inl ha
    · exact .inr hb
  refine ⟨h.visited_eq, h.fresh, h.reach, fun b hb => h.queued b (List.mem_cons_of_mem a hb), ?_, ?_⟩
  · refine h.start.elim .inl fun hq => (hstays r hq).imp_left fun hv => ?_
    rw [h.visited_eq, Finset.mem_union] at hv
    exact hv.resolve_left hr
  · intro b hb c hc
    exact (h.edges b hb c hc).elim .inl (hstays c)

theorem Searching.visit {before visited found : Finset α} {r a : α} {queue : List α}
    (h : Searching next before r visited found (a :: queue)) (ha : a ∉ visited) :
    Searching next before r (insert a visited) (insert a found)
      (((next a).filter fun b => b ∉ insert a visited).reverse ++ queue) := by
  have hreach := h.queued a List.mem_cons_self
  constructor
  · rw [h.visited_eq, Finset.union_insert]
  · intro b hb
    rcases Finset.mem_insert.mp hb with rfl | hb
    · intro hbefore
      rw [h.visited_eq] at ha
      exact ha (Finset.mem_union_left found hbefore)
    · exact h.fresh b hb
  · intro b hb
    rcases Finset.mem_insert.mp hb with rfl | hb
    · exact hreach
    · exact h.reach b hb
  · intro b hb
    rcases List.mem_append.mp hb with hb | hb
    · exact hreach.tail (List.mem_of_mem_filter (List.mem_reverse.mp hb))
    · exact h.queued b (List.mem_cons_of_mem a hb)
  · rcases h.start with hr | hr
    · exact .inl (Finset.mem_insert_of_mem hr)
    · rcases List.mem_cons.mp hr with rfl | hr
      · exact .inl (Finset.mem_insert_self _ _)
      · exact .inr (List.mem_append_right _ hr)
  · intro b hb c hc
    by_cases hc' : c ∈ insert a visited
    · exact .inl hc'
    · right
      rcases Finset.mem_insert.mp hb with rfl | hb
      · exact List.mem_append_left _ (List.mem_reverse.mpr (List.mem_filter.mpr ⟨hc, by simpa using hc'⟩))
      · rcases h.edges b hb c hc with hv | hq
        · exact absurd (Finset.mem_insert_of_mem hv) hc'
        · rcases List.mem_cons.mp hq with rfl | hq
          · exact absurd (Finset.mem_insert_self _ _) hc'
          · exact List.mem_append_right _ hq

theorem Searching.run {before : Finset α} {r : α} (hr : r ∉ before) (fuel : Nat) (visited found : Finset α)
    (queue : List α) (h : Searching next before r visited found queue) (v f : Finset α)
    (hsearch : search next fuel visited found queue = some (v, f)) : Searching next before r v f [] := by
  induction fuel generalizing visited found queue with
  | zero =>
    cases queue with
    | nil =>
      cases hsearch
      exact h
    | cons a queue => cases hsearch
  | succ fuel ih =>
    cases queue with
    | nil =>
      cases hsearch
      exact h
    | cons a queue =>
      unfold search at hsearch
      split at hsearch
      · next ha => exact ih _ _ _ (h.skip hr ha) hsearch
      · next ha => exact ih _ _ _ (h.visit ha) hsearch

/-- **Search rule.**  Started at a vertex outside a closed set that was visited before, on a symmetric
graph, a search finds the class of the vertex, and what is visited then is closed. -/
theorem search_spec (hsymm : ∀ a b, b ∈ next a → a ∈ next b) (fuel : Nat) (before : Finset α)
    (hbefore : Closed next before) (r : α) (hr : r ∉ before) (v f : Finset α)
    (hsearch : search next fuel before ∅ [r] = some (v, f)) :
    v = before ∪ f ∧ (∀ a ∈ f, a ∉ before) ∧ IsClass next f r ∧ Closed next v := by
  have hstart : Searching next before r before ∅ [r] := by
    refine ⟨(Finset.union_empty _).symm, by simp, by simp, ?_, .inr List.mem_cons_self, by simp⟩
    intro a ha
    rw [List.mem_singleton.mp ha]
    exact .refl
  have h := hstart.run hr fuel _ _ _ v f hsearch
  -- an edge back into what was visited before would have been followed before
  have hfound : Closed next f := by
    intro a ha b hb
    rcases h.edges a ha b hb with hv | hq
    · rw [h.visited_eq, Finset.mem_union] at hv
      exact hv.resolve_left fun hb' => h.fresh a ha (hbefore b hb' a (hsymm a b hb))
    · cases hq
  refine ⟨h.visited_eq, h.fresh, fun a => ⟨h.reach a, fun hreach => ?_⟩, fun a ha b hb => ?_⟩
  · induction hreach with
    | refl => exact h.start.resolve_right (List.not_mem_nil)
    | tail _ hstep ih => exact hfound _ ih _ hstep
  · rw [h.visited_eq, Finset.mem_union] at ha ⊢
    exact ha.imp (fun ha => hbefore a ha b hb) fun ha => hfound a ha b hb

/-! ## A sweep -/

omit [DecidableEq α] in
theorem Reach.symm (hsymm : ∀ a b, b ∈ next a → a ∈ next b) {a b : α} (h : Reach next a b) : Reach next b a := by
  have : Std.Symm fun x y : α => y ∈ next x := ⟨fun x y => hsymm x y⟩
  exact Relation.ReflTransGen.stdSymm.symm a b h

/-- **Sweep rule.**  On a symmetric graph a sweep finds the classes of the vertices it is given, each
once, and no vertex in two of them. -/
theorem sweep_spec (hsymm : ∀ a b, b ∈ next a → a ∈ next b) (U : Finset α) (hU : Closed next U)
    (visited : Finset α) (hclosed : Closed next visited) (roots : List α) (hroots : ∀ r ∈ roots, r ∈ U) :
    ∃ found, sweep next (enough next U) visited roots = some found ∧
      found.Pairwise Disjoint ∧ (∀ s ∈ found, Disjoint visited s) ∧
      (∀ s ∈ found, ∃ r ∈ roots, r ∉ visited ∧ IsClass next s r) ∧
      ∀ r ∈ roots, r ∉ visited → ∃ s ∈ found, IsClass next s r := by
  induction roots generalizing visited with
  | nil => exact ⟨[], rfl, List.Pairwise.nil, by simp, by simp, by simp⟩
  | cons r roots ih =>
    have htail : ∀ s ∈ roots, s ∈ U := fun s hs => hroots s (List.mem_cons_of_mem r hs)
    by_cases hr : r ∈ visited
    · obtain ⟨found, hsweep, hdisj, hfresh, hsound, hall⟩ := ih visited hclosed htail
      refine ⟨found, ?_, hdisj, hfresh, fun s hs => ?_, fun x hx hnew => ?_⟩
      · rw [sweep, if_pos hr]
        exact hsweep
      · obtain ⟨x, hx, hrest⟩ := hsound s hs
        exact ⟨x, List.mem_cons_of_mem r hx, hrest⟩
      · rcases List.mem_cons.mp hx with rfl | hx
        · exact absurd hr hnew
        · exact hall x hx hnew
    · have hsome : (search next (enough next U) visited ∅ [r]).isSome := by
        refine search_isSome next U hU _ _ _ _ ?_ ?_
        · intro a ha
          rw [List.mem_singleton.mp ha]
          exact hroots r List.mem_cons_self
        · have hle : ∑ a ∈ U \ visited, (next a).length ≤ ∑ a ∈ U, (next a).length :=
            Finset.sum_le_sum_of_subset Finset.sdiff_subset
          rw [List.length_singleton]
          unfold enough
          omega
      obtain ⟨⟨v, f⟩, hsearch⟩ := Option.isSome_iff_exists.mp hsome
      obtain ⟨hv, hnew, hclass, hclosed'⟩ := search_spec hsymm _ visited hclosed r hr v f hsearch
      obtain ⟨found, hsweep, hdisj, hfresh, hsound, hall⟩ := ih v hclosed' htail
      refine ⟨f :: found, ?_, List.pairwise_cons.mpr ⟨fun s hs => ?_, hdisj⟩, fun s hs => ?_, fun s hs => ?_,
        fun x hx hnot => ?_⟩
      · rw [sweep, if_neg hr, hsearch, Option.bind_some, hsweep]
        rfl
      · exact Finset.disjoint_of_subset_left (hv ▸ Finset.subset_union_right) (hfresh s hs)
      · rcases List.mem_cons.mp hs with rfl | hs
        · exact Finset.disjoint_right.mpr hnew
        · exact Finset.disjoint_of_subset_left (hv ▸ Finset.subset_union_left) (hfresh s hs)
      · rcases List.mem_cons.mp hs with rfl | hs
        · exact ⟨r, List.mem_cons_self, hr, hclass⟩
        · obtain ⟨x, hx, hxv, hrest⟩ := hsound s hs
          rw [hv, Finset.mem_union, not_or] at hxv
          exact ⟨x, List.mem_cons_of_mem r hx, hxv.1, hrest⟩
      · by_cases hxf : x ∈ f
        · -- the class of `r` is that of `x`
          have hrx := (hclass x).mp hxf
          refine ⟨f, List.mem_cons_self, fun a => (hclass a).trans ⟨fun h => ?_, fun h => hrx.trans h⟩⟩
          exact (hrx.symm hsymm).trans h
        · rcases List.mem_cons.mp hx with rfl | hx
          · exact absurd ((hclass x).mpr .refl) hxf
          · have hxv : x ∉ v := by
              rw [hv, Finset.mem_union, not_or]
              exact ⟨hnot, hxf⟩
            obtain ⟨s, hs, hrest⟩ := hall x hx hxv
            exact ⟨s, List.mem_cons_of_mem f hs, hrest⟩

theorem length_sweep_le (fuel : Nat) (visited : Finset α) (roots : List α) (found : List (Finset α))
    (h : sweep next fuel visited roots = some found) : found.length ≤ roots.length := by
  induction roots generalizing visited found with
  | nil =>
    cases h
    exact le_rfl
  | cons r roots ih =>
    unfold sweep at h
    split at h
    · exact (ih _ _ h).trans (Nat.le_succ _)
    · obtain ⟨s, -, hs⟩ := Option.bind_eq_some_iff.mp h
      obtain ⟨rest, hrest, rfl⟩ := Option.map_eq_some_iff.mp hs
      exact Nat.succ_le_succ (ih _ _ hrest)

omit [DecidableEq α] in
theorem Closed.reach {U : Finset α} (hU : Closed next U) {a b : α} (ha : a ∈ U) (h : Reach next a b) : b ∈ U := by
  induction h with
  | refl => exact ha
  | tail _ hstep ih => exact hU _ ih _ hstep

omit [DecidableEq α] in
/-- A class of several vertices is that of a vertex with neighbours. -/
theorem IsClass.exists_next {s : Finset α} {r : α} (h : IsClass next s r) (hcard : 1 < s.card) : ∃ b, b ∈ next r := by
  obtain ⟨a, ha, hne⟩ := Finset.exists_mem_ne hcard r
  rcases Relation.ReflTransGen.cases_head ((h a).mp ha) with heq | ⟨b, hb, -⟩
  · exact absurd heq.symm hne
  · exact ⟨b, hb⟩

/-! ## Connected components -/

/-- Loops do not matter for what can be reached. -/
theorem reach_iff_reachable (G : SimpleGraph α) (hG : ∀ a b, a ≠ b → (b ∈ next a ↔ G.Adj a b)) (a b : α) :
    Reach next a b ↔ G.Reachable a b := by
  rw [SimpleGraph.reachable_iff_reflTransGen]
  constructor
  · intro h
    induction h with
    | refl => exact .refl
    | @tail x y _ hstep ih =>
      by_cases hxy : x = y
      · rwa [← hxy]
      · exact ih.tail ((hG x y hxy).mp hstep)
  · intro h
    induction h with
    | refl => exact .refl
    | @tail x y _ hstep ih => exact ih.tail ((hG x y hstep.ne).mpr hstep)

/-- The classes are the vertex sets of the connected components. -/
theorem isClass_iff_supp (G : SimpleGraph α) (hG : ∀ a b, a ≠ b → (b ∈ next a ↔ G.Adj a b)) (s : Finset α) (r : α) :
    IsClass next s r ↔ (G.connectedComponentMk r).supp = s := by
  rw [Set.ext_iff]
  refine forall_congr' fun a => ?_
  rw [SimpleGraph.ConnectedComponent.mem_supp_iff, SimpleGraph.ConnectedComponent.eq, Finset.mem_coe,
    reach_iff_reachable G hG, SimpleGraph.reachable_comm]
  exact Iff.comm

end GraphSearch

end Kratos
