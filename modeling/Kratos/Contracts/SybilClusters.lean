import Kratos.Contracts.SocialGraph

/-!
# Clusters and connected components

Attestations connect both ways, so what a search finds is a connected component of the graph of the
attestations.  The clusters of a recalculation are the components of three or more identities, in
whatever order the maps and sets are iterated (`sybil_clusters`).
-/

namespace Kratos

namespace SocialRegistry

variable (checks : Bool) (density : DensityRisk) (setOrder : IterOrder IdentityId)

/-! ## Rescoring -/

theorem calculateConnectivity_some (n n' : SocialGraphNode) (total : Nat)
    (h : n.calculateConnectivity checks total = some n') :
    n' = { n with connectivityScore := n'.connectivityScore } := by
  unfold SocialGraphNode.calculateConnectivity at h
  simp only [Option.bind_eq_bind, Option.bind_eq_some_iff, Option.pure_def, Option.some.injEq] at h
  obtain ⟨_, _, _, _, _, _, _, _, _, _, _, _, score, _, rfl⟩ := h
  rfl

theorem node_rescoreNodes (s t : SocialRegistry) (h : s.rescoreNodes checks = some t.socialGraph) (x : IdentityId) :
    ∃ score, t.node x = { s.node x with connectivityScore := score } := by
  unfold rescoreNodes at h
  split at h
  · unfold node
    rw [← Option.some.inj h, SortedMap.find?_map]
    cases s.socialGraph.find? x with
    | none => exact ⟨0, rfl⟩
    | some n =>
      rw [Option.map_some, Option.getD_some, Option.getD_some]
      cases hn : n.calculateConnectivity checks s.socialGraph.size with
      | none => exact ⟨n.connectivityScore, rfl⟩
      | some n' => exact ⟨n'.connectivityScore, calculateConnectivity_some checks n n' _ hn⟩
  · cases h

/-- Rescoring keeps the graph. -/
theorem rescore_some (nodeOrder : IterOrder (IdentityId × SocialGraphNode)) (s t : SocialRegistry)
    (h : s.rescore checks nodeOrder = some t) :
    (∀ x, ∃ score, t.node x = { s.node x with connectivityScore := score }) ∧
      t.socialGraph.keys = s.socialGraph.keys ∧ t.nextClusterId = s.nextClusterId ∧
      t.socialAnalysisEnabled = s.socialAnalysisEnabled := by
  unfold rescore at h
  simp only [Option.bind_eq_bind, Option.bind_eq_some_iff, Option.pure_def, Option.some.injEq] at h
  obtain ⟨g, hg, scores, -, rfl⟩ := h
  refine ⟨node_rescoreNodes checks s _ hg, ?_, rfl, rfl⟩
  unfold rescoreNodes at hg
  split at hg
  · cases hg
    unfold SortedMap.keys SortedMap.map
    rw [List.map_map]
    rfl
  · cases hg

theorem rescore_connections (nodeOrder : IterOrder (IdentityId × SocialGraphNode)) (s t : SocialRegistry)
    (h : s.rescore checks nodeOrder = some t) (x : IdentityId) :
    (t.node x).connections = (s.node x).connections := by
  obtain ⟨score, hx⟩ := (rescore_some checks nodeOrder s t h).1 x
  rw [hx]

theorem updateScores_unchecked_isSome (scores : SortedMap IdentityId PersonhoodScore)
    (nodes : List (IdentityId × SocialGraphNode)) : (updateScores false scores nodes).isSome := by
  induction nodes generalizing scores with
  | nil => rfl
  | cons e nodes ih =>
    unfold updateScores at ih ⊢
    rw [List.foldlM_cons]
    cases scores.find? e.1 with
    | none => exact ih scores
    | some score =>
      dsimp only
      rw [PersonhoodScore.updateSocialW, PersonhoodScore.recalculateW_unchecked]
      exact ih _

/-- Without overflow checks rescoring goes through. -/
theorem rescore_unchecked_isSome (nodeOrder : IterOrder (IdentityId × SocialGraphNode)) (s : SocialRegistry) :
    (s.rescore false nodeOrder).isSome := by
  have hall : ∀ e ∈ s.socialGraph.entries, (e.2.calculateConnectivity false s.socialGraph.size).isSome :=
    fun e _ => e.2.calculateConnectivity_unchecked_isSome _
  unfold rescore rescoreNodes
  rw [if_pos hall, Option.bind_eq_bind, Option.bind_some]
  obtain ⟨scores, h⟩ := Option.isSome_iff_exists.mp (updateScores_unchecked_isSome s.registry.personhoodScores
    (nodeOrder.iter (s.socialGraph.map fun _ n => (n.calculateConnectivity false s.socialGraph.size).getD n).entries))
  rw [h]
  rfl

/-! ## Counting the connections of a cluster -/

/-- The sum does not depend on the order. -/
theorem connectionsOf_eq (s : SocialRegistry) (members : Finset IdentityId) (p : IdentityId → Bool) :
    s.connectionsOf checks setOrder members p = Word.addW checks 32 0
      (∑ a ∈ members, ((s.node a).connections.filter fun c => p c).card % 2 ^ 32) := by
  have hlist : ∀ l : List IdentityId, ((l.filterMap s.socialGraph.find?).map
      fun n => (n.connections.filter fun c => p c).card % 2 ^ 32).sum =
        (l.map fun a => ((s.node a).connections.filter fun c => p c).card % 2 ^ 32).sum := by
    intro l
    induction l with
    | nil => rfl
    | cons a l ih =>
      rw [List.filterMap_cons, List.map_cons, List.sum_cons, ← ih]
      unfold node
      cases s.socialGraph.find? a with
      | none =>
        rw [Option.getD_none]
        simp [SocialGraphNode.new]
      | some n => rfl
  unfold connectionsOf
  rw [Word.sumW_eq, hlist, ((setOrder.iterSet_perm members).map _).sum_eq, Finset.sum_map_toList]

/-! ## The clusters of a search -/

/-- The risk of a dense cluster fits its type. -/
theorem calculateRisk_spec (c : SybilCluster) (hcard : ¬ c.members.card < 3)
    (hdense : 2 * c.internalDensity.1 ≤ 3 * c.internalDensity.2) :
    ∃ d, c.calculateRisk checks density = some d ∧ d.clusterId = c.clusterId ∧ d.members = c.members ∧
      d.externalConnections = c.externalConnections := by
  have hrisk := density.risk_le _ _ hdense
  unfold SybilCluster.calculateRisk
  rw [if_neg hcard]
  dsimp only
  rw [Word.sumW_of_lt]
  · exact ⟨_, rfl, rfl, rfl, rfl⟩
  · simp only [List.sum_cons, List.sum_nil]
    split <;> split <;> omega

/-- What is found by a search that no connection leaves is a cluster without external connections. -/
theorem assess_spec (s : SocialRegistry) (id : Nat) (members : Finset IdentityId) (hmin : 3 ≤ members.card)
    (hmax : members.card < 2 ^ 16) (hclosed : ∀ a ∈ members, (s.node a).connections ⊆ members) :
    ∃ c, s.assess checks density setOrder id members = some c ∧ c.clusterId = id ∧ c.members = members ∧
      c.externalConnections = 0 := by
  have hcount : members.card % 2 ^ 32 = members.card := Nat.mod_eq_of_lt (by omega)
  have hothers : Word.subW checks 32 members.card 1 = some (members.card - 1) := if_pos (by omega)
  have hsquare : members.card * (members.card - 1) < 2 ^ 32 := by
    have : members.card * (members.card - 1) ≤ 2 ^ 16 * 2 ^ 16 := Nat.mul_le_mul (by omega) (by omega)
    have : members.card * (members.card - 1) < 2 ^ 16 * 2 ^ 16 :=
      Nat.mul_lt_mul_of_lt_of_le hmax (by omega) (by decide)
    omega
  have hinternal : ∑ a ∈ members, ((s.node a).connections.filter fun c => decide (c ∈ members)).card % 2 ^ 32 ≤
      members.card * members.card := by
    rw [← smul_eq_mul]
    refine Finset.sum_le_card_nsmul _ _ _ fun a _ => (Nat.mod_le _ _).trans (Finset.card_le_card ?_)
    intro c hc
    exact of_decide_eq_true (Finset.mem_filter.mp hc).2
  have hexternal : ∑ a ∈ members, ((s.node a).connections.filter fun c => decide (c ∉ members)).card % 2 ^ 32 = 0 := by
    refine Finset.sum_eq_zero fun a ha => ?_
    rw [Finset.filter_false_of_mem]
    · rfl
    · intro c hc
      simpa using hclosed a ha hc
  have hedges : members.card * members.card < 2 ^ 32 := by
    have : members.card * members.card < 2 ^ 16 * 2 ^ 16 := Nat.mul_lt_mul_of_lt_of_le hmax hmax.le (by decide)
    omega
  have hdense : 2 * (members.card * members.card) ≤ 3 * (members.card * (members.card - 1)) := by
    obtain ⟨k, hk⟩ := Nat.exists_eq_add_of_le hmin
    rw [hk]
    have : 3 + k - 1 = k + 2 := by omega
    rw [this]
    ring_nf
    omega
  unfold assess
  dsimp only
  rw [connectionsOf_eq, connectionsOf_eq, hcount, hexternal, hothers, Word.addW_of_lt _ _ _ _ (by omega),
    Word.addW_of_lt _ _ _ _ (by decide)]
  simp only [Option.bind_eq_bind, Option.bind_some]
  rw [Word.mulW_of_lt _ _ _ _ hsquare, Option.bind_some]
  refine calculateRisk_spec checks density _ (by simpa using hmin) ?_
  dsimp only
  rw [if_pos (Nat.mul_pos (by omega) (by omega))]
  dsimp only
  omega

/-- The clusters of what the searches found, numbered from an id on. -/
def assessAll (s : SocialRegistry) : Nat → List (Finset IdentityId) → Option (List SybilCluster × Nat)
  | nextId, [] => some ([], nextId)
  | nextId, members :: found =>
    (s.assess checks density setOrder nextId members).bind fun cluster =>
      (Word.addW checks 32 nextId 1).bind fun nextId =>
        (assessAll s nextId found).map fun t => (cluster :: t.1, t.2)

/-- The loop over the identities is a sweep of the graph; the clusters are the large finds. -/
theorem findClusters_eq (s : SocialRegistry) (fuel : Nat) (visited : Finset IdentityId) (nextId : Nat)
    (ids : List IdentityId) (found : List (Finset IdentityId))
    (h : GraphSearch.sweep (s.neighbours setOrder) fuel visited ids = some found) :
    s.findClusters checks density setOrder fuel visited nextId ids =
      s.assessAll checks density setOrder nextId (found.filter fun m => decide (m.card ≥ 3)) := by
  induction ids generalizing visited nextId found with
  | nil =>
    cases h
    rfl
  | cons id ids ih =>
    unfold GraphSearch.sweep at h
    unfold findClusters
    by_cases hv : id ∈ visited
    · rw [if_pos hv] at h ⊢
      exact ih visited nextId found h
    · rw [if_neg hv] at h ⊢
      cases hsearch : GraphSearch.search (s.neighbours setOrder) fuel visited ∅ [id] with
      | none =>
        rw [hsearch] at h
        cases h
      | some r =>
        rw [hsearch, Option.bind_some] at h
        obtain ⟨rest, hrest, rfl⟩ := Option.map_eq_some_iff.mp h
        rw [Option.bind_some]
        by_cases hcard : r.2.card ≥ 3
        · rw [if_pos hcard, List.filter_cons_of_pos (by simpa using hcard), assessAll]
          congr 1
          funext cluster
          congr 1
          funext nextId'
          rw [ih r.1 nextId' rest hrest]
        · rw [if_neg hcard, List.filter_cons_of_neg (by simpa using hcard)]
          exact ih r.1 nextId rest hrest

theorem assessAll_spec (s : SocialRegistry) (nextId : Nat) (found : List (Finset IdentityId))
    (hfound : ∀ m ∈ found, 3 ≤ m.card ∧ m.card < 2 ^ 16 ∧ ∀ a ∈ m, (s.node a).connections ⊆ m)
    (hids : nextId + found.length < 2 ^ 32) :
    ∃ clusters, s.assessAll checks density setOrder nextId found = some (clusters, nextId + found.length) ∧
      clusters.map SybilCluster.members = found ∧
      clusters.map SybilCluster.clusterId = List.range' nextId found.length ∧
      ∀ c ∈ clusters, c.externalConnections = 0 := by
  induction found generalizing nextId with
  | nil => exact ⟨[], rfl, rfl, rfl, by simp⟩
  | cons m found ih =>
    rw [List.length_cons] at hids
    obtain ⟨hmin, hmax, hclosed⟩ := hfound m List.mem_cons_self
    obtain ⟨c, hassess, hid, hmembers, hexternal⟩ := assess_spec checks density setOrder s nextId m hmin hmax hclosed
    obtain ⟨clusters, hrest, hsets, hclusterIds, hexternals⟩ :=
      ih (nextId + 1) (fun m' hm' => hfound m' (List.mem_cons_of_mem m hm')) (by omega)
    refine ⟨c :: clusters, ?_, ?_, ?_, ?_⟩
    · rw [assessAll, hassess, Option.bind_some, Word.addW_of_lt _ _ _ _ (by omega), Option.bind_some, hrest,
        List.length_cons, Nat.add_right_comm nextId 1, Nat.add_assoc nextId]
      rfl
    · rw [List.map_cons, hmembers, hsets]
    · rw [List.map_cons, hid, hclusterIds]
      rfl
    · intro d hd
      rcases List.mem_cons.mp hd with rfl | hd
      · exact hexternal
      · exact hexternals d hd

/-! ## The sweep of a linked graph -/

theorem Linked.neighbours_symm {s : SocialRegistry} (h : s.Linked) (a b : IdentityId)
    (hb : b ∈ s.neighbours setOrder a) : a ∈ s.neighbours setOrder b := by
  rw [mem_neighbours] at hb ⊢
  exact h a b hb

theorem Linked.closed_keys {s : SocialRegistry} (h : s.Linked) :
    GraphSearch.Closed (s.neighbours setOrder) s.socialGraph.keys.toFinset := by
  intro a _ b hb
  rw [mem_neighbours] at hb
  exact List.mem_toFinset.mpr (h.mem_keys a b hb)

/-- The searches find the classes of the identities. -/
theorem Linked.sweep {s : SocialRegistry} (h : s.Linked) (nodeOrder : IterOrder (IdentityId × SocialGraphNode)) :
    ∃ found, GraphSearch.sweep (s.neighbours setOrder)
        (GraphSearch.enough (s.neighbours setOrder) s.socialGraph.keys.toFinset) ∅
        ((nodeOrder.iter s.socialGraph.entries).map Prod.fst) = some found ∧
      found.Pairwise Disjoint ∧ found.length ≤ s.socialGraph.size ∧
      (∀ m ∈ found, ∃ r ∈ s.socialGraph.keys, GraphSearch.IsClass (s.neighbours setOrder) m r) ∧
      ∀ r ∈ s.socialGraph.keys, ∃ m ∈ found, GraphSearch.IsClass (s.neighbours setOrder) m r := by
  have hkeys : ∀ r, r ∈ (nodeOrder.iter s.socialGraph.entries).map Prod.fst ↔ r ∈ s.socialGraph.keys := fun r =>
    ((nodeOrder.perm s.socialGraph.entries).map Prod.fst).mem_iff
  obtain ⟨found, hsweep, hdisjoint, -, hsound, hall⟩ := GraphSearch.sweep_spec (h.neighbours_symm setOrder)
    s.socialGraph.keys.toFinset (h.closed_keys setOrder) ∅ (fun a ha => by cases ha)
    ((nodeOrder.iter s.socialGraph.entries).map Prod.fst) (fun r hr => List.mem_toFinset.mpr ((hkeys r).mp hr))
  refine ⟨found, hsweep, hdisjoint, ?_, fun m hm => ?_, fun r hr => hall r ((hkeys r).mpr hr) (by simp)⟩
  · have hle := GraphSearch.length_sweep_le _ _ _ _ hsweep
    rwa [List.length_map, (nodeOrder.perm _).length_eq] at hle
  · obtain ⟨r, hr, -, hclass⟩ := hsound m hm
    exact ⟨r, (hkeys r).mp hr, hclass⟩

/-- **The clusters of a linked graph** are its classes of three or more. -/
theorem detectSybilClusters_spec (nodeOrder : IterOrder (IdentityId × SocialGraphNode)) (s : SocialRegistry)
    (hlinked : s.Linked) (hsize : s.socialGraph.size < 2 ^ 16)
    (hids : s.nextClusterId + s.socialGraph.size < 2 ^ 32) :
    ∃ t, s.detectSybilClusters checks density nodeOrder setOrder = some t ∧
      (t.sybilClusters.map SybilCluster.clusterId).Nodup ∧
      t.sybilClusters.Pairwise (fun a b => Disjoint a.members b.members) ∧
      (∀ c ∈ t.sybilClusters, c.externalConnections = 0) ∧
      ∀ S, (∃ c ∈ t.sybilClusters, c.members = S) ↔
        3 ≤ S.card ∧ ∃ r, GraphSearch.IsClass (s.neighbours setOrder) S r := by
  obtain ⟨found, hsweep, hdisjoint, hlength, hsound, hall⟩ := hlinked.sweep setOrder nodeOrder
  have hlarge : ∀ m ∈ found.filter fun m => decide (m.card ≥ 3),
      3 ≤ m.card ∧ m.card < 2 ^ 16 ∧ ∀ a ∈ m, (s.node a).connections ⊆ m := by
    intro m hm
    obtain ⟨hmem, hcard⟩ := List.mem_filter.mp hm
    obtain ⟨r, hr, hclass⟩ := hsound m hmem
    refine ⟨of_decide_eq_true hcard, ?_, fun a ha b hb => ?_⟩
    · have hsub : m ⊆ s.socialGraph.keys.toFinset := fun a ha =>
        (hlinked.closed_keys setOrder).reach (List.mem_toFinset.mpr hr) ((hclass a).mp ha)
      have := Finset.card_le_card hsub
      rw [List.toFinset_card_of_nodup s.socialGraph.keys_nodup, SortedMap.length_keys] at this
      omega
    · exact (hclass b).mpr (((hclass a).mp ha).tail ((mem_neighbours setOrder s a b).mpr hb))
  have hfilter := List.length_filter_le (fun m : Finset IdentityId => decide (m.card ≥ 3)) found
  obtain ⟨clusters, hassess, hmembers, hclusterIds, hexternal⟩ :=
    assessAll_spec checks density setOrder s s.nextClusterId _ hlarge (by omega)
  refine ⟨{ s with
    sybilClusters := clusters
    nextClusterId := s.nextClusterId + (found.filter fun m => decide (m.card ≥ 3)).length }, ?_, ?_, ?_, hexternal,
    fun S => ?_⟩
  · unfold detectSybilClusters
    rw [findClusters_eq checks density setOrder s _ _ _ _ _ hsweep, hassess]
    rfl
  · dsimp only
    rw [hclusterIds]
    exact List.nodup_range'
  · have hpairs : (clusters.map SybilCluster.members).Pairwise Disjoint := by
      rw [hmembers]
      exact hdisjoint.filter _
    exact List.pairwise_map.mp hpairs
  · have hset : (∃ c ∈ clusters, c.members = S) ↔ S ∈ found.filter fun m => decide (m.card ≥ 3) := by
      rw [← hmembers, List.mem_map]
    rw [hset, List.mem_filter, decide_eq_true_iff, and_comm]
    refine and_congr_right fun hcard => ⟨fun hmem => ?_, ?_⟩
    · obtain ⟨r, -, hclass⟩ := hsound S hmem
      exact ⟨r, hclass⟩
    · rintro ⟨r, hclass⟩
      obtain ⟨b, hb⟩ := hclass.exists_next (by omega)
      have hr := s.mem_keys_of_connections r b ((mem_neighbours setOrder s r b).mp hb)
      obtain ⟨m, hmem, hm⟩ := hall r hr
      rwa [show S = m from Finset.ext fun a => (hclass a).trans (hm a).symm]

/-! ## Without overflow checks -/

theorem calculateRisk_unchecked_isSome (c : SybilCluster) : (c.calculateRisk false density).isSome := by
  unfold SybilCluster.calculateRisk
  split
  · rfl
  · dsimp only
    rw [Word.sumW_eq, Word.addW_unchecked]
    rfl

theorem assessAll_unchecked_isSome (s : SocialRegistry) (nextId : Nat) (found : List (Finset IdentityId)) :
    (s.assessAll false density setOrder nextId found).isSome := by
  have hassess : ∀ id m, ∃ c, s.assess false density setOrder id m = some c := by
    intro id m
    have hsub : ∃ others, Word.subW false 32 (m.card % 2 ^ 32) 1 = some others := by
      unfold Word.subW
      split <;> exact ⟨_, rfl⟩
    obtain ⟨others, hothers⟩ := hsub
    unfold assess
    dsimp only
    rw [connectionsOf_eq, connectionsOf_eq, hothers]
    simp only [Option.bind_eq_bind, Option.bind_some, Word.mulW_unchecked, Word.addW_unchecked]
    exact Option.isSome_iff_exists.mp (calculateRisk_unchecked_isSome density _)
  induction found generalizing nextId with
  | nil => rfl
  | cons m found ih =>
    obtain ⟨c, hc⟩ := hassess nextId m
    rw [assessAll, hc, Option.bind_some, Word.addW_unchecked, Option.bind_some, Option.isSome_map]
    exact ih _

/-- The search of a linked graph ends, so a recalculation returns. -/
theorem Linked.recalculate_unchecked_isSome {s : SocialRegistry} (h : s.Linked)
    (nodeOrder : IterOrder (IdentityId × SocialGraphNode)) :
    (s.recalculateSocialGraph false density nodeOrder setOrder).isSome := by
  obtain ⟨t, ht⟩ := Option.isSome_iff_exists.mp (rescore_unchecked_isSome nodeOrder s)
  have hlinked : t.Linked := by
    intro a b hb
    rw [rescore_connections false nodeOrder s t ht] at hb ⊢
    exact h a b hb
  unfold recalculateSocialGraph
  rw [ht, Option.bind_some]
  split
  · obtain ⟨found, hsweep, -⟩ := hlinked.sweep setOrder nodeOrder
    unfold detectSybilClusters
    rw [findClusters_eq false density setOrder t _ _ _ _ _ hsweep, Option.isSome_map]
    exact assessAll_unchecked_isSome density setOrder t _ _
  · rfl

/-! ## Attestations -/

/-- The registry after a list of attestations. -/
def attested (chainId : ChainId) (config : PersonhoodConfig) (calls : List (IdentityId × IdentityId)) : SocialRegistry :=
  calls.foldl (fun s c => s.recordAttestation c.1 c.2) (withConfig chainId config true)

/-- Who attested whom, in either direction. -/
def attestationGraph (calls : List (IdentityId × IdentityId)) : SimpleGraph IdentityId :=
  SimpleGraph.fromRel fun a b => (a, b) ∈ calls

/-- The clusters are the components of three or more, each once, and nothing connects them. -/
structure ClustersOf (calls : List (IdentityId × IdentityId)) (clusters : List SybilCluster) : Prop where
  ids : (clusters.map SybilCluster.clusterId).Nodup
  disjoint : clusters.Pairwise fun a b => Disjoint a.members b.members
  external : ∀ c ∈ clusters, c.externalConnections = 0
  components : ∀ S : Finset IdentityId, (∃ c ∈ clusters, c.members = S) ↔
    3 ≤ S.card ∧ ∃ C : (attestationGraph calls).ConnectedComponent, C.supp = S

theorem attested_spec (chainId : ChainId) (config : PersonhoodConfig) (calls : List (IdentityId × IdentityId)) :
    (attested chainId config calls).Linked ∧ (attested chainId config calls).nextClusterId = 1 ∧
      (attested chainId config calls).socialAnalysisEnabled = true ∧
      ∀ a b, b ∈ ((attested chainId config calls).node a).connections ↔ (a, b) ∈ calls ∨ (b, a) ∈ calls := by
  induction calls using List.reverseRecOn with
  | nil =>
    refine ⟨linked_withConfig chainId config true, rfl, rfl, fun a b => ?_⟩
    simp [attested, withConfig, node, SocialGraphNode.new, SortedMap.find?, SortedMap.empty, SortedMap.lookup]
  | append_singleton calls c ih =>
    obtain ⟨hlinked, hid, henabled, hconn⟩ := ih
    have hnext : attested chainId config (calls ++ [c]) =
        (attested chainId config calls).recordAttestation c.1 c.2 := List.foldl_append
    rw [hnext]
    refine ⟨hlinked.recordAttestation c.1 c.2, hid, henabled, fun a b => ?_⟩
    rw [connections_recordAttestation, hconn]
    simp only [List.mem_append, List.mem_singleton, Prod.ext_iff]
    tauto

theorem isClass_attested_iff (chainId : ChainId) (config : PersonhoodConfig) (calls : List (IdentityId × IdentityId))
    (t : SocialRegistry) (ht : ∀ x, (t.node x).connections = ((attested chainId config calls).node x).connections)
    (S : Finset IdentityId) : (∃ r, GraphSearch.IsClass (t.neighbours setOrder) S r) ↔
      ∃ C : (attestationGraph calls).ConnectedComponent, C.supp = S := by
  have hadj : ∀ a b, a ≠ b → (b ∈ t.neighbours setOrder a ↔ (attestationGraph calls).Adj a b) := by
    intro a b hab
    rw [mem_neighbours, ht, (attested_spec chainId config calls).2.2.2, attestationGraph, SimpleGraph.fromRel_adj,
      and_iff_right hab]
  simp only [GraphSearch.isClass_iff_supp (attestationGraph calls) hadj]
  constructor
  · rintro ⟨r, h⟩
    exact ⟨_, h⟩
  · rintro ⟨C, h⟩
    obtain ⟨r, rfl⟩ := C.exists_rep
    exact ⟨r, h⟩

/-- The search on the graph of some attestations. -/
theorem detect_attested (nodeOrder : IterOrder (IdentityId × SocialGraphNode)) (chainId : ChainId)
    (config : PersonhoodConfig) (calls : List (IdentityId × IdentityId))
    (hfew : (attested chainId config calls).socialGraph.size < 2 ^ 16) (t : SocialRegistry)
    (hconn : ∀ x, (t.node x).connections = ((attested chainId config calls).node x).connections)
    (hkeys : t.socialGraph.keys = (attested chainId config calls).socialGraph.keys)
    (hnext : t.nextClusterId = (attested chainId config calls).nextClusterId) :
    ∃ u, t.detectSybilClusters checks density nodeOrder setOrder = some u ∧ ClustersOf calls u.sybilClusters := by
  obtain ⟨hlinked, hid, -, -⟩ := attested_spec chainId config calls
  have hsize : t.socialGraph.size = (attested chainId config calls).socialGraph.size := by
    rw [← SortedMap.length_keys, hkeys, SortedMap.length_keys]
  have hlinked' : t.Linked := by
    intro a b hb
    rw [hconn] at hb ⊢
    exact hlinked a b hb
  obtain ⟨u, hu, hids, hdisjoint, hexternal, hclasses⟩ :=
    detectSybilClusters_spec checks density setOrder nodeOrder t hlinked' (by omega) (by rw [hnext, hid]; omega)
  refine ⟨u, hu, hids, hdisjoint, hexternal, fun S => ?_⟩
  rw [hclasses, isClass_attested_iff setOrder chainId config calls t hconn]

/-- A recalculation that gets to the search. -/
theorem recalculate_attested (nodeOrder : IterOrder (IdentityId × SocialGraphNode)) (chainId : ChainId)
    (config : PersonhoodConfig) (calls : List (IdentityId × IdentityId))
    (hfew : (attested chainId config calls).socialGraph.size < 2 ^ 16) (t : SocialRegistry)
    (ht : (attested chainId config calls).rescore checks nodeOrder = some t) :
    ∃ u, (attested chainId config calls).recalculateSocialGraph checks density nodeOrder setOrder = some u ∧
      ClustersOf calls u.sybilClusters := by
  obtain ⟨-, hkeys, hnext, hanalysis⟩ := rescore_some checks nodeOrder _ t ht
  rw [recalculateSocialGraph, ht, Option.bind_some, hanalysis, (attested_spec chainId config calls).2.2.1, if_pos rfl]
  exact detect_attested checks density setOrder nodeOrder chainId config calls hfew t
    (rescore_connections checks nodeOrder _ t ht) hkeys hnext

/-- Three who attest each other, two others, and one who attests itself. -/
def sampleCalls : List (IdentityId × IdentityId) :=
  [(⟨1⟩, ⟨2⟩), (⟨2⟩, ⟨3⟩), (⟨3⟩, ⟨1⟩), (⟨7⟩, ⟨8⟩), (⟨9⟩, ⟨9⟩)]

/-- The quotient without rounding. -/
def exactRisk : DensityRisk where
  risk e m := e * 50 / m
  risk_le := by
    intro e m h
    rcases Nat.eq_zero_or_pos m with rfl | hm
    · simp
    · exact Nat.div_le_of_le_mul (by omega)

/-- **Sybil clusters.**  For every list of attestations among fewer than 2^16 identities the search ends,
in whatever order the maps and sets are iterated, and leaves the components of three or more identities
as the clusters.  So does the recalculation, which with overflow checks may stop before the search. -/
theorem sybil_clusters (chainId : ChainId) (config : PersonhoodConfig) (calls : List (IdentityId × IdentityId))
    (hfew : (attested chainId config calls).socialGraph.size < 2 ^ 16)
    (nodeOrder : IterOrder (IdentityId × SocialGraphNode)) :
    (∃ u, (attested chainId config calls).detectSybilClusters checks density nodeOrder setOrder = some u ∧
      ClustersOf calls u.sybilClusters) ∧
    (∃ u, (attested chainId config calls).recalculateSocialGraph false density nodeOrder setOrder = some u ∧
      ClustersOf calls u.sybilClusters) ∧
    ∀ t, (attested chainId config calls).rescore true nodeOrder = some t →
      ∃ u, (attested chainId config calls).recalculateSocialGraph true density nodeOrder setOrder = some u ∧
        ClustersOf calls u.sybilClusters := by
  refine ⟨?_, ?_, fun t ht => recalculate_attested true density setOrder nodeOrder chainId config calls hfew t ht⟩
  · exact detect_attested checks density setOrder nodeOrder chainId config calls hfew _ (fun _ => rfl) rfl rfl
  · obtain ⟨t, ht⟩ := Option.isSome_iff_exists.mp (rescore_unchecked_isSome nodeOrder (attested chainId config calls))
    exact recalculate_attested false density setOrder nodeOrder chainId config calls hfew t ht

theorem sybil_clusters_sample : ∃ u,
    (attested ⟨0⟩ .default sampleCalls).recalculateSocialGraph false exactRisk .stored .stored = some u ∧
      ClustersOf sampleCalls u.sybilClusters :=
  (sybil_clusters false exactRisk .stored ⟨0⟩ .default sampleCalls (by decide +kernel) .stored).2.1

end SocialRegistry

end Kratos
