import Kratos.Contracts.Challenges
import Kratos.Contracts.SybilClusters
import Kratos.Lib.Run

/-!
# Ranges of the personhood scores

The components of a score are capped after they are computed, so they stay in range whatever the
arithmetic does.  The connectivity of a node is not capped: the penalty is subtracted from points that
may not pay for it.  The scores and connectivities stay in range and nothing overflows on the way to
them exactly in the runs whose calls meet a condition on their numbers (`personhood_scores_iff`).
-/

namespace Kratos

namespace PersonhoodRegistry

variable (checks : Bool) (cr : Crypto) (r : PersonhoodRegistry)

/-- Change the score of an identity that has one; the change may overflow. -/
def withScoreW (id : IdentityId) (f : PersonhoodScore → Option PersonhoodScore) : Option PersonhoodRegistry :=
  match r.personhoodScores.find? id with
  | none => some r
  | some s => (f s).map fun t => { r with personhoodScores := r.personhoodScores.insert id t }

def resolveChallengeW (challengeId : Hash) (block : Nat) : Option PersonhoodRegistry :=
  match r.challenges.find? challengeId with
  | none => some r
  | some c =>
    match r.resolveOutcome c block with
    | .error _ => some r
    | .ok passed =>
      (r.setChallenge challengeId { c with status := resolvedStatus c block passed }).withScoreW c.targetIdentity
        fun s => if passed then s.recordChallengePassW checks block else s.recordChallengeFailW checks

def witnessUniquenessW (id : IdentityId) (witness : AccountId) : Option PersonhoodRegistry :=
  match r.uniquenessCommitments.find? id with
  | none => some r
  | some u =>
    let u := (u.addWitness witness).1
    let r := { r with uniquenessCommitments := r.uniquenessCommitments.insert id u }
    if u.verified then r.withScoreW id fun s => s.updateUniquenessW checks true u.witnesses.length else some r

/-- The registry after a call, with the overflow checks of a build on the arithmetic of the scores. -/
def applyW : PersonhoodOp → Option PersonhoodRegistry
  | .resolveChallenge challengeId block => r.resolveChallengeW checks challengeId block
  | .witnessUniqueness id witness => r.witnessUniquenessW checks id witness
  | .recordActivity id actions => r.withScoreW id fun s => s.updateActivityW checks actions
  | .updateLongevity id age => r.withScoreW id fun s => s.updateLongevityW checks age
  | op => some (r.apply cr op)

theorem withScoreW_eq (id : IdentityId) (f : PersonhoodScore → Option PersonhoodScore) (g : PersonhoodScore → PersonhoodScore)
    (h : ∀ s, f s = some (g s)) : r.withScoreW id f = some (r.withScore id g) := by
  unfold withScoreW withScore
  cases r.personhoodScores.find? id with
  | none => rfl
  | some s =>
    dsimp only
    rw [h, Option.map_some]

theorem resolveChallengeW_unchecked (id : Hash) (block : Nat) :
    r.resolveChallengeW false id block = some (((r.resolveChallenge id block).map Prod.fst).orKeep r) := by
  unfold resolveChallengeW resolveChallenge
  cases r.challenges.find? id with
  | none => rfl
  | some c =>
    dsimp only
    cases r.resolveOutcome c block with
    | error e => rfl
    | ok passed =>
      refine withScoreW_eq _ _ _ _ fun s => ?_
      cases passed with
      | false => exact s.recordChallengeFailW_unchecked
      | true => exact s.recordChallengePassW_unchecked block

theorem witnessUniquenessW_unchecked (id : IdentityId) (witness : AccountId) :
    r.witnessUniquenessW false id witness = some (((r.witnessUniqueness id witness).map Prod.fst).orKeep r) := by
  unfold witnessUniquenessW witnessUniqueness
  cases r.uniquenessCommitments.find? id with
  | none => rfl
  | some u =>
    dsimp only
    split
    · exact withScoreW_eq _ _ _ _ fun s => s.updateUniquenessW_unchecked true _
    · rfl

/-- Without checks these are the calls of the registry. -/
theorem applyW_unchecked (op : PersonhoodOp) : r.applyW false cr op = some (r.apply cr op) := by
  cases op with
  | resolveChallenge id block => exact r.resolveChallengeW_unchecked id block
  | witnessUniqueness id witness => exact r.witnessUniquenessW_unchecked id witness
  | recordActivity id actions => exact withScoreW_eq _ _ _ _ fun s => s.updateActivityW_unchecked actions
  | updateLongevity id age => exact withScoreW_eq _ _ _ _ fun s => s.updateLongevityW_unchecked age
  | issueChallenge => rfl
  | respondToChallenge => rfl
  | cancelChallenge => rfl
  | submitUniquenessCommitment => rfl
  | initializeScore => rfl

/-! ## Scores in range -/

/-- All scores of the registry are in range. -/
def Scored (r : PersonhoodRegistry) : Prop := ∀ id s, r.personhoodScores.find? id = some s → s.InRange

variable {r}

theorem Scored.insert (h : r.Scored) (id : IdentityId) (t : PersonhoodScore) (ht : t.InRange) :
    Scored { r with personhoodScores := r.personhoodScores.insert id t } := by
  intro j s hj
  dsimp only at hj
  rw [SortedMap.find?_insert] at hj
  split at hj
  · rw [← Option.some.inj hj]
    exact ht
  · exact h j s hj

theorem Scored.withScore (h : r.Scored) (id : IdentityId) (f : PersonhoodScore → PersonhoodScore)
    (hf : ∀ s, s.InRange → (f s).InRange) : (r.withScore id f).Scored := by
  unfold PersonhoodRegistry.withScore
  cases hs : r.personhoodScores.find? id with
  | none => exact h
  | some s => exact h.insert id _ (hf s (h id s hs))

theorem Scored.resolveChallenge (h : r.Scored) (id : Hash) (block : Nat) :
    (((r.resolveChallenge id block).map Prod.fst).orKeep r).Scored := by
  unfold PersonhoodRegistry.resolveChallenge
  cases r.challenges.find? id with
  | none => exact h
  | some c =>
    dsimp only
    cases r.resolveOutcome c block with
    | error e => exact h
    | ok passed =>
      refine Scored.withScore (r := r.setChallenge id _) h _ _ fun s hs => ?_
      cases passed with
      | false => exact hs.toCapped.recordChallengeFail.1
      | true => exact (hs.toCapped.recordChallengePass block).1

theorem Scored.witnessUniqueness (h : r.Scored) (id : IdentityId) (witness : AccountId) :
    (((r.witnessUniqueness id witness).map Prod.fst).orKeep r).Scored := by
  unfold PersonhoodRegistry.witnessUniqueness
  cases r.uniquenessCommitments.find? id with
  | none => exact h
  | some u =>
    dsimp only
    generalize u.addWitness witness = v
    have hv : Scored { r with uniquenessCommitments := r.uniquenessCommitments.insert id v.1 } := h
    change (if v.1.verified = true then _ else _ : PersonhoodRegistry).Scored
    split
    · exact hv.withScore id _ fun s hs => (hs.toCapped.updateUniqueness _).1
    · exact hv

theorem Scored.apply (h : r.Scored) (op : PersonhoodOp) : (r.apply cr op).Scored := by
  cases op with
  | issueChallenge challenger target type deposit block registry =>
    refine Except.orKeep_map_of Scored _ r h fun t id heq => ?_
    obtain ⟨-, -, rfl⟩ := issueChallenge_ok cr r t challenger target type deposit block registry id heq
    exact h
  | respondToChallenge id responder data block registry =>
    refine Except.orKeep_of Scored _ r h fun t heq => ?_
    obtain ⟨c, -, -, rfl⟩ := respondToChallenge_ok r t id responder data block registry heq
    exact h
  | cancelChallenge id canceller =>
    refine Except.orKeep_map_of Scored _ r h fun t payout heq => ?_
    obtain ⟨c, -, -, rfl, -⟩ := cancelChallenge_ok r t id canceller payout heq
    exact h
  | submitUniquenessCommitment id data block registry =>
    refine Except.orKeep_of Scored _ r h fun t heq => ?_
    unfold submitUniquenessCommitment at heq
    split_ifs at heq
    cases heq
    exact h
  | resolveChallenge id block => exact h.resolveChallenge id block
  | witnessUniqueness id witness => exact h.witnessUniqueness id witness
  | initializeScore id =>
    change (r.initializeScore id).Scored
    unfold initializeScore
    split
    · exact h
    · exact h.insert id _ PersonhoodScore.inRange_new
  | recordActivity id actions => exact h.withScore id _ fun s hs => (hs.toCapped.updateActivity actions).1
  | updateLongevity id age => exact h.withScore id _ fun s hs => (hs.toCapped.updateLongevity age).1

/-! ## What does not overflow -/

/-- The points of a resolution fit, if there is a score they go to. -/
def resolveFits (r : PersonhoodRegistry) (challengeId : Hash) (block : Nat) : Bool :=
  match r.challenges.find? challengeId with
  | none => true
  | some c =>
    match r.resolveOutcome c block with
    | .error _ => true
    | .ok passed => (r.personhoodScores.find? c.targetIdentity).all fun s =>
        if passed then decide ((s.challengesPassed + 1) * 20 < 2 ^ 32) else decide (s.challengesFailed + 1 < 2 ^ 32)

def witnessFits (r : PersonhoodRegistry) (id : IdentityId) (witness : AccountId) : Bool :=
  match r.uniquenessCommitments.find? id with
  | none => true
  | some u => (r.personhoodScores.find? id).all fun _ =>
      !(u.addWitness witness).1.verified || decide ((u.addWitness witness).1.witnesses.length % 2 ^ 32 * 20 < 2 ^ 32)

/-- The products a call makes of its numbers fit. -/
def fits (r : PersonhoodRegistry) : PersonhoodOp → Bool
  | .resolveChallenge challengeId block => r.resolveFits challengeId block
  | .witnessUniqueness id witness => r.witnessFits id witness
  | .recordActivity id actions => (r.personhoodScores.find? id).all fun _ => decide (actions * 10 < 2 ^ 32)
  | .updateLongevity id age => (r.personhoodScores.find? id).all fun _ => decide (age * 200 < 2 ^ 64)
  | _ => true

theorem withScoreW_isSome (h : r.Scored) (id : IdentityId) (f : PersonhoodScore → Option PersonhoodScore)
    (p : PersonhoodScore → Bool) (hf : ∀ s, s.Capped → ((f s).isSome ↔ p s = true)) :
    (r.withScoreW id f).isSome = (r.personhoodScores.find? id).all p := by
  unfold withScoreW
  cases hs : r.personhoodScores.find? id with
  | none => rfl
  | some s =>
    rw [Bool.eq_iff_iff, Option.isSome_map, Option.all_some]
    exact hf s (h id s hs).toCapped

theorem Scored.resolveChallengeW_isSome (h : r.Scored) (id : Hash) (block : Nat) :
    (r.resolveChallengeW true id block).isSome = r.resolveFits id block := by
  unfold resolveChallengeW resolveFits
  cases r.challenges.find? id with
  | none => rfl
  | some c =>
    dsimp only
    cases r.resolveOutcome c block with
    | error e => rfl
    | ok passed =>
      refine withScoreW_isSome (r := r.setChallenge id _) h _ _ _ fun s hs => ?_
      cases passed with
      | false => exact hs.recordChallengeFail.2.trans decide_eq_true_iff.symm
      | true => exact (hs.recordChallengePass block).2.trans decide_eq_true_iff.symm

theorem Scored.witnessUniquenessW_isSome (h : r.Scored) (id : IdentityId) (witness : AccountId) :
    (r.witnessUniquenessW true id witness).isSome = r.witnessFits id witness := by
  unfold witnessUniquenessW witnessFits
  cases r.uniquenessCommitments.find? id with
  | none => rfl
  | some u =>
    dsimp only
    generalize (u.addWitness witness).1 = v
    have hv : Scored { r with uniquenessCommitments := r.uniquenessCommitments.insert id v } := h
    cases v.verified with
    | false => cases r.personhoodScores.find? id <;> rfl
    | true =>
      rw [if_pos rfl]
      exact withScoreW_isSome hv id _ _ fun s hs => (hs.updateUniqueness _).2.trans decide_eq_true_iff.symm

/-- With checks a call goes through exactly if its products fit. -/
theorem Scored.applyW_isSome (h : r.Scored) (op : PersonhoodOp) : (r.applyW true cr op).isSome = r.fits op := by
  cases op with
  | resolveChallenge id block => exact h.resolveChallengeW_isSome id block
  | witnessUniqueness id witness => exact h.witnessUniquenessW_isSome id witness
  | recordActivity id actions =>
    exact withScoreW_isSome h id _ _ fun s hs => (hs.updateActivity actions).2.trans decide_eq_true_iff.symm
  | updateLongevity id age =>
    exact withScoreW_isSome h id _ _ fun s hs => (hs.updateLongevity age).2.trans decide_eq_true_iff.symm
  | issueChallenge => rfl
  | respondToChallenge => rfl
  | cancelChallenge => rfl
  | submitUniquenessCommitment => rfl
  | initializeScore => rfl

end PersonhoodRegistry

/-! ## Runs -/

inductive SocialOp where
  | call (op : PersonhoodOp)
  | recordAttestation (attesterIdentity targetIdentity : IdentityId)
  | recalculateSocialGraph (nodeOrder : IterOrder (IdentityId × SocialGraphNode)) (setOrder : IterOrder IdentityId)

namespace SocialRegistry

/-- The scores and connectivities after an operation, with the overflow checks of a build. -/
def scored (checks : Bool) (cr : Crypto) (s : SocialRegistry) : SocialOp → Option SocialRegistry
  | .call op => (s.registry.applyW checks cr op).map fun registry => { s with registry }
  | .recordAttestation attester target => some (s.recordAttestation attester target)
  | .recalculateSocialGraph nodeOrder _ => s.rescore checks nodeOrder

/-- An operation without overflow checks. -/
def apply (cr : Crypto) (density : DensityRisk) (s : SocialRegistry) : SocialOp → SocialRegistry
  | .call op => { s with registry := s.registry.apply cr op }
  | .recordAttestation attester target => s.recordAttestation attester target
  | .recalculateSocialGraph nodeOrder setOrder =>
    (s.recalculateSocialGraph false density nodeOrder setOrder).getD s

/-- The numbers of an operation fit: for a recalculation, the points of every node, which pay for
the penalty. -/
def Holds (s : SocialRegistry) : SocialOp → Prop
  | .call op => s.registry.fits op = true
  | .recordAttestation _ _ => True
  | .recalculateSocialGraph _ _ => ∀ e ∈ s.socialGraph.entries, e.2.Fits s.socialGraph.size

instance (s : SocialRegistry) (op : SocialOp) : Decidable (s.Holds op) :=
  match op with
  | .call _ => inferInstanceAs (Decidable (_ = _))
  | .recordAttestation _ _ => inferInstanceAs (Decidable True)
  | .recalculateSocialGraph _ _ => inferInstanceAs (Decidable (∀ e ∈ s.socialGraph.entries, _))

/-- Every connectivity is at most ten for each connection, with the two bonuses. -/
def Bounded (s : SocialRegistry) : Prop :=
  ∀ id n, s.socialGraph.find? id = some n → n.connectivityScore ≤ 10 * n.connections.card + 50 + 100

/-- What every operation keeps, whatever overflows. -/
structure Sound (s : SocialRegistry) : Prop where
  scores : s.registry.Scored
  linked : s.Linked
  depth : ∀ id, (s.node id).trustDepth = 255

variable {s : SocialRegistry}

theorem node_of_find {id : IdentityId} {n : SocialGraphNode} (h : s.socialGraph.find? id = some n) : s.node id = n := by
  unfold node
  rw [h, Option.getD_some]

theorem Sound.depth_of_mem (h : s.Sound) (e : IdentityId × SocialGraphNode) (he : e ∈ s.socialGraph.entries) :
    e.2.trustDepth = 255 := by
  rw [← node_of_find ((s.socialGraph.mem_entries_iff e.1 e.2).mp he)]
  exact h.depth e.1

/-! ### Rescoring -/

theorem updateScores_spec (checks : Bool) (nodes : List (IdentityId × SocialGraphNode))
    (r : PersonhoodRegistry) (h : r.Scored) : ∃ scores, updateScores checks r.personhoodScores nodes = some scores ∧
      PersonhoodRegistry.Scored { r with personhoodScores := scores } := by
  induction nodes generalizing r with
  | nil => exact ⟨_, rfl, h⟩
  | cons e nodes ih =>
    unfold updateScores
    rw [List.foldlM_cons]
    cases hs : r.personhoodScores.find? e.1 with
    | none => exact ih r h
    | some score =>
      obtain ⟨t, ht, hrange⟩ := (h e.1 score hs).toCapped.updateSocialW checks e.2.connectivityScore
      dsimp only
      rw [ht, Option.map_some]
      exact ih _ (h.insert e.1 t hrange)

/-- With checks rescoring goes through exactly if the points of every node fit. -/
theorem Sound.rescore_isSome_iff (h : s.Sound) (nodeOrder : IterOrder (IdentityId × SocialGraphNode)) :
    (s.rescore true nodeOrder).isSome ↔ ∀ e ∈ s.socialGraph.entries, e.2.Fits s.socialGraph.size := by
  have hfits : (∀ e ∈ s.socialGraph.entries, (e.2.calculateConnectivity true s.socialGraph.size).isSome) ↔
      ∀ e ∈ s.socialGraph.entries, e.2.Fits s.socialGraph.size :=
    forall₂_congr fun e he => e.2.calculateConnectivity_isSome_iff _ (h.depth_of_mem e he)
  rw [← hfits]
  unfold rescore rescoreNodes
  split
  · next hall =>
    refine iff_of_true ?_ hall
    obtain ⟨scores, hscores, -⟩ := updateScores_spec true
      (nodeOrder.iter (s.socialGraph.map fun _ n => (n.calculateConnectivity true s.socialGraph.size).getD n).entries)
      s.registry h.scores
    simp only [Option.bind_eq_bind, Option.bind_some, hscores]
    rfl
  · next hall => exact iff_of_false (by simp) hall

theorem Sound.rescore (h : s.Sound) (checks : Bool) (nodeOrder : IterOrder (IdentityId × SocialGraphNode))
    (t : SocialRegistry) (ht : s.rescore checks nodeOrder = some t) : t.Sound := by
  have hnode := (rescore_some checks nodeOrder s t ht).1
  have hconn := rescore_connections checks nodeOrder s t ht
  refine ⟨?_, fun a b hb => ?_, fun id => ?_⟩
  · unfold SocialRegistry.rescore at ht
    simp only [Option.bind_eq_bind, Option.bind_eq_some_iff, Option.pure_def, Option.some.injEq] at ht
    obtain ⟨g, -, scores, hscores, rfl⟩ := ht
    obtain ⟨scores', heq, hscored⟩ := updateScores_spec checks (nodeOrder.iter g.entries) s.registry h.scores
    rw [hscores] at heq
    rw [Option.some.inj heq]
    exact hscored
  · rw [hconn] at hb ⊢
    exact h.linked a b hb
  · obtain ⟨score, hid⟩ := hnode id
    rw [hid]
    exact h.depth id

/-- An identity has no more connections than there are identities. -/
theorem Linked.card_le (h : s.Linked) (id : IdentityId) : (s.node id).connections.card ≤ s.socialGraph.size := by
  have hsub : (s.node id).connections ⊆ s.socialGraph.keys.toFinset := fun b hb =>
    List.mem_toFinset.mpr (h.mem_keys id b hb)
  have := Finset.card_le_card hsub
  rwa [List.toFinset_card_of_nodup s.socialGraph.keys_nodup, SortedMap.length_keys] at this

/-- Points that fit give connectivities in range. -/
theorem Sound.bounded_rescore (h : s.Sound) (checks : Bool) (nodeOrder : IterOrder (IdentityId × SocialGraphNode))
    (hfits : ∀ e ∈ s.socialGraph.entries, e.2.Fits s.socialGraph.size) (t : SocialRegistry)
    (ht : s.rescore checks nodeOrder = some t) : t.Bounded := by
  unfold SocialRegistry.rescore rescoreNodes at ht
  simp only [Option.bind_eq_bind, Option.bind_eq_some_iff, Option.pure_def, Option.some.injEq] at ht
  obtain ⟨g, hg, scores, -, rfl⟩ := ht
  split at hg
  · intro id n' hn'
    rw [← Option.some.inj hg] at hn'
    dsimp only at hn'
    rw [SortedMap.find?_map, Option.map_eq_some_iff] at hn'
    obtain ⟨n, hn, rfl⟩ := hn'
    have he := (s.socialGraph.mem_entries_iff id n).mpr hn
    have hle := n.points_le s.socialGraph.size (by
      rw [← node_of_find hn]
      exact h.linked.card_le id)
    rw [n.calculateConnectivity_of_fits checks _ (h.depth_of_mem _ he) (hfits _ he), Option.getD_some]
    exact (Nat.sub_le _ _).trans hle
  · cases hg

/-! ### Steps -/

theorem Sound.withConfig (chainId : ChainId) (config : PersonhoodConfig) (enabled : Bool) :
    (withConfig chainId config enabled).Sound :=
  ⟨(fun _ _ h => by cases h), linked_withConfig chainId config enabled, fun _ => rfl⟩

theorem trustDepth_recordAttestation (s : SocialRegistry) (a b x : IdentityId) :
    ((s.recordAttestation a b).node x).trustDepth = (s.node x).trustDepth := by
  unfold recordAttestation
  simp only [node_setNode]
  split_ifs with hb hba ha
  · rw [hb, hba]
    rfl
  · rw [hb]
    rfl
  · rw [ha]
    rfl
  · rfl

/-- A recalculation leaves the graph and the scores as they were rescored. -/
theorem recalculateSocialGraph_some (checks : Bool) (density : DensityRisk)
    (nodeOrder : IterOrder (IdentityId × SocialGraphNode)) (setOrder : IterOrder IdentityId) (s u : SocialRegistry)
    (h : s.recalculateSocialGraph checks density nodeOrder setOrder = some u) :
    ∃ t, s.rescore checks nodeOrder = some t ∧ u.socialGraph = t.socialGraph ∧ u.registry = t.registry := by
  unfold recalculateSocialGraph at h
  obtain ⟨t, ht, h⟩ := Option.bind_eq_some_iff.mp h
  refine ⟨t, ht, ?_⟩
  split at h
  · unfold detectSybilClusters at h
    obtain ⟨r, -, rfl⟩ := Option.map_eq_some_iff.mp h
    exact ⟨rfl, rfl⟩
  · cases h
    exact ⟨rfl, rfl⟩

/-- Without checks an operation leaves what it scored, and a recalculation its clusters besides. -/
theorem Sound.apply_scored (h : s.Sound) (cr : Crypto) (density : DensityRisk) (op : SocialOp) :
    ∃ t, s.scored false cr op = some t ∧ (s.apply cr density op).socialGraph = t.socialGraph ∧
      (s.apply cr density op).registry = t.registry := by
  cases op with
  | call op =>
    refine ⟨{ s with registry := s.registry.apply cr op }, ?_, rfl, rfl⟩
    exact congrArg (Option.map fun registry => { s with registry }) (s.registry.applyW_unchecked cr op)
  | recordAttestation a b => exact ⟨_, rfl, rfl, rfl⟩
  | recalculateSocialGraph nodeOrder setOrder =>
    obtain ⟨u, hu⟩ := Option.isSome_iff_exists.mp (h.linked.recalculate_unchecked_isSome density setOrder nodeOrder)
    have happly : s.apply cr density (.recalculateSocialGraph nodeOrder setOrder) = u := by
      change (s.recalculateSocialGraph false density nodeOrder setOrder).getD s = u
      rw [hu, Option.getD_some]
    rw [happly]
    exact recalculateSocialGraph_some false density nodeOrder setOrder s u hu

theorem Sound.congr {t : SocialRegistry} (h : s.Sound) (hgraph : t.socialGraph = s.socialGraph)
    (hregistry : t.registry = s.registry) : t.Sound := by
  have hnode : ∀ x, t.node x = s.node x := fun x => by
    unfold node
    rw [hgraph]
  refine ⟨hregistry ▸ h.scores, fun a b hb => ?_, fun id => ?_⟩
  · rw [hnode] at hb ⊢
    exact h.linked a b hb
  · rw [hnode]
    exact h.depth id

theorem Sound.apply (h : s.Sound) (cr : Crypto) (density : DensityRisk) (op : SocialOp) :
    (s.apply cr density op).Sound := by
  cases op with
  | call op => exact ⟨h.scores.apply cr op, h.linked, h.depth⟩
  | recordAttestation a b =>
    refine ⟨h.scores, h.linked.recordAttestation a b, fun id => ?_⟩
    exact (trustDepth_recordAttestation s a b id).trans (h.depth id)
  | recalculateSocialGraph nodeOrder setOrder =>
    obtain ⟨t, ht, hgraph, hregistry⟩ := h.apply_scored cr density (.recalculateSocialGraph nodeOrder setOrder)
    exact (h.rescore false nodeOrder t ht).congr hgraph hregistry

/-- An attestation makes connections and keeps the connectivities. -/
theorem Bounded.recordAttestation (h : s.Bounded) (a b : IdentityId) : (s.recordAttestation a b).Bounded := by
  have hset : ∀ (t : SocialRegistry) (id other : IdentityId) (isIncoming : Bool), t.Bounded →
      (t.setNode id ((t.node id).addConnection other isIncoming)).Bounded := by
    intro t id other isIncoming ht x n hn
    unfold setNode at hn
    dsimp only at hn
    rw [SortedMap.find?_insert] at hn
    split at hn
    · have hscore : ((t.node id).addConnection other isIncoming).connectivityScore = (t.node id).connectivityScore := by
        cases isIncoming <;> rfl
      have hbound : (t.node id).connectivityScore ≤ 10 * (t.node id).connections.card + 50 + 100 := by
        unfold node
        cases hid : t.socialGraph.find? id with
        | none => exact Nat.zero_le _
        | some n => exact ht id n hid
      have hcard := Finset.card_le_card (Finset.subset_insert other (t.node id).connections)
      rw [← Option.some.inj hn, hscore, connections_addConnection]
      omega
    · exact ht x n hn
  exact hset _ b a true (hset s a b false h)

/-- An operation is exact, and leaves connectivities in range, exactly if its numbers fit. -/
theorem Sound.bounded_iff (h : s.Sound) (cr : Crypto) (density : DensityRisk) (op : SocialOp) (hb : s.Bounded) :
    (s.apply cr density op).Bounded ∧ (s.scored true cr op).isSome ↔ s.Holds op := by
  cases op with
  | call op =>
    have hsome : (s.scored true cr (.call op)).isSome ↔ s.Holds (.call op) := by
      unfold scored Holds
      rw [Option.isSome_map, h.scores.applyW_isSome cr op]
    rw [← hsome]
    exact and_iff_right hb
  | recordAttestation a b => exact iff_of_true ⟨hb.recordAttestation a b, rfl⟩ trivial
  | recalculateSocialGraph nodeOrder setOrder =>
    refine Iff.trans ?_ (h.rescore_isSome_iff nodeOrder)
    refine and_iff_right_of_imp fun hsome id n hn => ?_
    obtain ⟨t, ht, hgraph, -⟩ := h.apply_scored cr density (.recalculateSocialGraph nodeOrder setOrder)
    rw [hgraph] at hn
    exact h.bounded_rescore false nodeOrder ((h.rescore_isSome_iff nodeOrder).mp hsome) t ht id n hn

/-- One that attests two others. -/
def sparseRun : List SocialOp :=
  [.call (.initializeScore ⟨2⟩), .recordAttestation ⟨1⟩ ⟨2⟩, .recordAttestation ⟨1⟩ ⟨3⟩,
    .recalculateSocialGraph .stored .stored]

/-- **Personhood scores.**  In every run the components of every score are at most 200 and the total is
their sum, at most 1000.  Every connectivity is in range and nothing overflows on the way, throughout a run, exactly
if the numbers of every operation fit. -/
theorem personhood_scores_iff (cr : Crypto) (density : DensityRisk) (chainId : ChainId) (config : PersonhoodConfig)
    (enabled : Bool) (ops : List SocialOp) :
    (∀ k id p, ((ops.take k).foldl (apply cr density)
      (withConfig chainId config enabled)).registry.personhoodScores.find? id = some p → p.InRange ∧ p.total ≤ 1000) ∧
    ((∀ k, ((ops.take k).foldl (apply cr density) (withConfig chainId config enabled)).Bounded) ∧
      Run.Meets (apply cr density) (fun s op => (s.scored true cr op).isSome = true)
        (withConfig chainId config enabled) ops ↔
      Run.Meets (apply cr density) Holds (withConfig chainId config enabled) ops) := by
  have hsound : ∀ (s : SocialRegistry) (op : SocialOp), s.Sound → True → (s.apply cr density op).Sound :=
    fun s op h _ => h.apply cr density op
  have hstart := Sound.withConfig chainId config enabled
  have hmeets := Run.meets_of_forall (apply cr density) (fun _ _ => True) (fun _ _ => trivial)
    (withConfig chainId config enabled)
  refine ⟨fun k id p hp => ?_, ?_⟩
  · have hk := Run.inv_foldl (apply cr density) (fun _ _ => True) Sound hsound _ _ hstart (hmeets (ops.take k))
    exact ⟨hk.scores id p hp, (hk.scores id p hp).total_le⟩
  · exact Run.good_meets_iff (apply cr density) (fun _ _ => True) Holds
      (fun s op => (s.scored true cr op).isSome = true) Sound Bounded hsound
      (fun s op h _ hb => h.bounded_iff cr density op hb) _ ops hstart (fun _ _ h => by cases h) (hmeets ops)

/-- One connection among three identities does not pay for the penalty. -/
theorem sparse_connectivity_wraps :
    ((sparseRun.foldl (apply .sample exactRisk) (withConfig ⟨0⟩ .default true)).node ⟨2⟩).connectivityScore =
        4294967289 ∧
      ((sparseRun.foldl (apply .sample exactRisk) (withConfig ⟨0⟩ .default true)).registry.personhoodScores.find?
        ⟨2⟩).map PersonhoodScore.socialScore = some 200 ∧
      ¬ (sparseRun.foldl (apply .sample exactRisk) (withConfig ⟨0⟩ .default true)).Bounded ∧
      (((sparseRun.take 3).foldl (apply .sample exactRisk) (withConfig ⟨0⟩ .default true)).scored true .sample
        (.recalculateSocialGraph .stored .stored)).isSome = false := by
  refine ⟨by decide +kernel, by decide +kernel, fun h => ?_, by decide +kernel⟩
  cases hf : (sparseRun.foldl (apply .sample exactRisk) (withConfig ⟨0⟩ .default true)).socialGraph.find? ⟨2⟩ with
  | none =>
    have hsome : ((sparseRun.foldl (apply .sample exactRisk)
      (withConfig ⟨0⟩ .default true)).socialGraph.find? ⟨2⟩).isSome = true := by decide +kernel
    rw [hf] at hsome
    cases hsome
  | some n =>
    have hle := h ⟨2⟩ n hf
    rw [← node_of_find hf] at hle
    exact absurd hle (by decide +kernel)

/-- Two identities that attest each other stay in range. -/
example : Run.Meets (apply .sample exactRisk) Holds (withConfig ⟨0⟩ .default true)
    [.call (.initializeScore ⟨1⟩), .recordAttestation ⟨1⟩ ⟨2⟩, .recordAttestation ⟨2⟩ ⟨1⟩,
      .recalculateSocialGraph .stored .stored, .call (.recordActivity ⟨1⟩ 20)] := by decide +kernel

end SocialRegistry

end Kratos
