import Kratos.Contracts.Personhood
import Kratos.Lib.GraphSearch
import Kratos.Lib.SetOrder
import Kratos.Types.SocialGraph

/-!
# Social graph of a registry

An attestation connects two identities.  A recalculation scores how well each identity is connected,
carries that over into the personhood scores and, if the analysis is enabled, looks for clusters: it
searches the graph from every identity that no search has visited yet, and keeps what a search finds
if that are three or more.

The maps and sets of the graph are iterated in any order.  The events are left out.
-/

namespace Kratos

/-- A personhood registry with its social graph. -/
structure SocialRegistry where
  registry : PersonhoodRegistry
  socialAnalysisEnabled : Bool
  socialGraph : SortedMap IdentityId SocialGraphNode
  sybilClusters : List SybilCluster
  nextClusterId : Nat

namespace SocialRegistry

def withConfig (chainId : ChainId) (config : PersonhoodConfig) (socialAnalysisEnabled : Bool) : SocialRegistry :=
  { registry := .withConfig chainId config, socialAnalysisEnabled, socialGraph := .empty, sybilClusters := []
    nextClusterId := 1 }

/-- The node of an identity, a new one if there is none. -/
def node (s : SocialRegistry) (id : IdentityId) : SocialGraphNode := (s.socialGraph.find? id).getD (.new id)

def setNode (s : SocialRegistry) (id : IdentityId) (n : SocialGraphNode) : SocialRegistry :=
  { s with socialGraph := s.socialGraph.insert id n }

def recordAttestation (s : SocialRegistry) (attesterIdentity targetIdentity : IdentityId) : SocialRegistry :=
  let s := s.setNode attesterIdentity ((s.node attesterIdentity).addConnection targetIdentity false)
  s.setNode targetIdentity ((s.node targetIdentity).addConnection attesterIdentity true)

/-! ## Recalculation -/

/-- The scores of the nodes do not depend on each other; the first that overflows stops the program. -/
def rescoreNodes (checks : Bool) (s : SocialRegistry) : Option (SortedMap IdentityId SocialGraphNode) :=
  if ∀ e ∈ s.socialGraph.entries, (e.2.calculateConnectivity checks s.socialGraph.size).isSome then
    some (s.socialGraph.map fun _ n => (n.calculateConnectivity checks s.socialGraph.size).getD n)
  else none

/-- Carry the connectivity of the nodes over into the scores that there are. -/
def updateScores (checks : Bool) (scores : SortedMap IdentityId PersonhoodScore)
    (nodes : List (IdentityId × SocialGraphNode)) : Option (SortedMap IdentityId PersonhoodScore) :=
  nodes.foldlM (fun scores e =>
    match scores.find? e.1 with
    | none => some scores
    | some score => (score.updateSocialW checks e.2.connectivityScore).map (scores.insert e.1)) scores

def rescore (checks : Bool) (nodeOrder : IterOrder (IdentityId × SocialGraphNode)) (s : SocialRegistry) :
    Option SocialRegistry := do
  let socialGraph ← s.rescoreNodes checks
  let personhoodScores ← updateScores checks s.registry.personhoodScores (nodeOrder.iter socialGraph.entries)
  return { s with socialGraph, registry := { s.registry with personhoodScores } }

/-- The connections of an identity, in the order in which the set is iterated. -/
def neighbours (setOrder : IterOrder IdentityId) (s : SocialRegistry) (id : IdentityId) : List IdentityId :=
  match s.socialGraph.find? id with
  | none => []
  | some n => setOrder.iterSet n.connections

/-- The sum over the members of how many of their connections have `p`. -/
def connectionsOf (checks : Bool) (setOrder : IterOrder IdentityId) (s : SocialRegistry)
    (members : Finset IdentityId) (p : IdentityId → Bool) : Option Nat :=
  Word.sumW checks 32 (((setOrder.iterSet members).filterMap s.socialGraph.find?).map
    fun n => (n.connections.filter fun c => p c).card % 2 ^ 32)

/-- The cluster of what a search found. -/
def assess (checks : Bool) (density : DensityRisk) (setOrder : IterOrder IdentityId) (s : SocialRegistry)
    (clusterId : Nat) (members : Finset IdentityId) : Option SybilCluster := do
  let memberCount := members.card % 2 ^ 32
  let others ← Word.subW checks 32 memberCount 1
  let maxEdges ← Word.mulW checks 32 memberCount others
  let internalEdges ← s.connectionsOf checks setOrder members fun c => decide (c ∈ members)
  let externalConnections ← s.connectionsOf checks setOrder members fun c => decide (c ∉ members)
  SybilCluster.calculateRisk checks density
    { SybilCluster.new clusterId with
      members
      internalDensity := if maxEdges > 0 then (internalEdges, maxEdges) else (0, 1)
      externalConnections }

/-- The clusters found from the identities of a list, with the next id. -/
def findClusters (checks : Bool) (density : DensityRisk) (setOrder : IterOrder IdentityId) (s : SocialRegistry)
    (fuel : Nat) : Finset IdentityId → Nat → List IdentityId → Option (List SybilCluster × Nat)
  | _, nextId, [] => some ([], nextId)
  | visited, nextId, id :: ids =>
    if id ∈ visited then findClusters checks density setOrder s fuel visited nextId ids
    else
      (GraphSearch.search (s.neighbours setOrder) fuel visited ∅ [id]).bind fun r =>
        if r.2.card ≥ 3 then
          (s.assess checks density setOrder nextId r.2).bind fun cluster =>
            (Word.addW checks 32 nextId 1).bind fun nextId =>
              (findClusters checks density setOrder s fuel r.1 nextId ids).map fun t => (cluster :: t.1, t.2)
        else findClusters checks density setOrder s fuel r.1 nextId ids

/-- The search is given as many steps as it can need. -/
def detectSybilClusters (checks : Bool) (density : DensityRisk)
    (nodeOrder : IterOrder (IdentityId × SocialGraphNode)) (setOrder : IterOrder IdentityId) (s : SocialRegistry) :
    Option SocialRegistry :=
  (s.findClusters checks density setOrder (GraphSearch.enough (s.neighbours setOrder) s.socialGraph.keys.toFinset)
    ∅ s.nextClusterId ((nodeOrder.iter s.socialGraph.entries).map Prod.fst)).map
      fun r => { s with sybilClusters := r.1, nextClusterId := r.2 }

def recalculateSocialGraph (checks : Bool) (density : DensityRisk)
    (nodeOrder : IterOrder (IdentityId × SocialGraphNode)) (setOrder : IterOrder IdentityId) (s : SocialRegistry) :
    Option SocialRegistry :=
  (s.rescore checks nodeOrder).bind fun t =>
    if t.socialAnalysisEnabled then t.detectSybilClusters checks density nodeOrder setOrder else some t

/-! ## The graph -/

theorem node_setNode (s : SocialRegistry) (id : IdentityId) (n : SocialGraphNode) (x : IdentityId) :
    (s.setNode id n).node x = if x = id then n else s.node x := by
  unfold setNode node
  rw [SortedMap.find?_insert]
  split <;> rfl

@[simp] theorem connections_addConnection (n : SocialGraphNode) (other : IdentityId) (isIncoming : Bool) :
    (n.addConnection other isIncoming).connections = insert other n.connections := by
  cases isIncoming <;> rfl

/-- An attestation connects both ways. -/
theorem connections_recordAttestation (s : SocialRegistry) (a b x y : IdentityId) :
    y ∈ ((s.recordAttestation a b).node x).connections ↔
      y ∈ (s.node x).connections ∨ (x = a ∧ y = b) ∨ (x = b ∧ y = a) := by
  unfold recordAttestation
  simp only [node_setNode]
  split_ifs with hb hba ha
  · subst hb
    subst hba
    simp only [connections_addConnection, Finset.mem_insert]
    tauto
  · subst hb
    simp only [connections_addConnection, Finset.mem_insert]
    tauto
  · subst ha
    simp only [connections_addConnection, Finset.mem_insert]
    tauto
  · simp [ha, hb]

theorem mem_neighbours (setOrder : IterOrder IdentityId) (s : SocialRegistry) (a b : IdentityId) :
    b ∈ s.neighbours setOrder a ↔ b ∈ (s.node a).connections := by
  unfold neighbours node
  cases s.socialGraph.find? a with
  | none => simp [SocialGraphNode.new]
  | some n => rw [IterOrder.mem_iterSet, Option.getD_some]

/-- Connections go both ways. -/
def Linked (s : SocialRegistry) : Prop := ∀ a b, b ∈ (s.node a).connections → a ∈ (s.node b).connections

theorem linked_withConfig (chainId : ChainId) (config : PersonhoodConfig) (enabled : Bool) :
    (withConfig chainId config enabled).Linked := fun _ _ h => by cases h

theorem Linked.recordAttestation {s : SocialRegistry} (h : s.Linked) (a b : IdentityId) :
    (s.recordAttestation a b).Linked := by
  intro x y hxy
  rw [connections_recordAttestation] at hxy ⊢
  rcases hxy with hxy | ⟨hx, hy⟩ | ⟨hx, hy⟩
  · exact .inl (h x y hxy)
  · exact .inr (.inr ⟨hy, hx⟩)
  · exact .inr (.inl ⟨hy, hx⟩)

/-- Who is connected has a node. -/
theorem mem_keys_of_connections (s : SocialRegistry) (a b : IdentityId) (h : b ∈ (s.node a).connections) :
    a ∈ s.socialGraph.keys := by
  rw [SortedMap.mem_keys_iff]
  unfold node at h
  cases hf : s.socialGraph.find? a with
  | none =>
    rw [hf] at h
    cases h
  | some n => exact ⟨n, rfl⟩

theorem Linked.mem_keys {s : SocialRegistry} (h : s.Linked) (a b : IdentityId) (hb : b ∈ (s.node a).connections) :
    b ∈ s.socialGraph.keys := s.mem_keys_of_connections b a (h a b hb)

end SocialRegistry

end Kratos
