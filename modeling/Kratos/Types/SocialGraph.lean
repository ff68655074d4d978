import Kratos.Types.ScoreUpdates

/-!
# Social graph

A node of the graph keeps whom an identity attests and who attests it, and a score of how well it is
connected.  A cluster is a group of identities that may be one person.  Its density is a quotient in
`f32`; the model keeps the operands, and what the risk makes of them is a parameter (`DensityRisk`).
-/

namespace Kratos

structure SocialGraphNode where
  identityId : IdentityId
  connections : Finset IdentityId
  incoming : Finset IdentityId
  outgoing : Finset IdentityId
  connectivityScore : Nat
  clusterId : Option Nat
  trustDepth : Nat
deriving DecidableEq

namespace SocialGraphNode

def new (identityId : IdentityId) : SocialGraphNode :=
  { identityId, connections := ∅, incoming := ∅, outgoing := ∅, connectivityScore := 0, clusterId := none
    trustDepth := 255 }

def addConnection (n : SocialGraphNode) (other : IdentityId) (isIncoming : Bool) : SocialGraphNode :=
  if isIncoming then
    { n with connections := insert other n.connections, incoming := insert other n.incoming }
  else
    { n with connections := insert other n.connections, outgoing := insert other n.outgoing }

/-- How balanced the attestations to and from the identity are, in percent. -/
def balanceRatio (checks : Bool) (incomingCount outgoingCount : Nat) : Option Nat :=
  if incomingCount = 0 ∨ outgoingCount = 0 then some 0
  else
    (Word.mulW checks 32 (min incomingCount outgoingCount) 100).map fun product =>
      min (product / max incomingCount outgoingCount) 100

/-- More connections relative to the network are a higher score. -/
def networkShare (checks : Bool) (connectionCount totalIdentities : Nat) : Option Nat :=
  if totalIdentities > 0 then
    (Word.mulW checks 64 connectionCount 100).map fun product => product / totalIdentities % 2 ^ 32
  else some 0

def calculateConnectivity (checks : Bool) (n : SocialGraphNode) (totalIdentities : Nat) : Option SocialGraphNode := do
  let connectionCount := n.connections.card % 2 ^ 32
  let base ← Word.mulW checks 32 connectionCount 10
  let balance ← balanceRatio checks (n.incoming.card % 2 ^ 32) (n.outgoing.card % 2 ^ 32)
  let penalty ← Word.mulW checks 32 n.trustDepth 5
  let share ← networkShare checks connectionCount totalIdentities
  let score ← Word.addW checks 32 base (balance / 2)
  let score ← Word.addW checks 32 score share
  let connectivityScore ← Word.subW checks 32 score (min penalty 50)
  return { n with connectivityScore }

/-- Without checks there is always a score. -/
theorem calculateConnectivity_unchecked_isSome (n : SocialGraphNode) (total : Nat) :
    (n.calculateConnectivity false total).isSome := by
  have hbalance : ∀ i o, (balanceRatio false i o).isSome := by
    intro i o
    unfold balanceRatio
    rw [Word.mulW_unchecked]
    split <;> rfl
  have hshare : ∀ count, (networkShare false count total).isSome := by
    intro count
    unfold networkShare
    rw [Word.mulW_unchecked]
    split <;> rfl
  obtain ⟨balance, hb⟩ := Option.isSome_iff_exists.mp (hbalance (n.incoming.card % 2 ^ 32) (n.outgoing.card % 2 ^ 32))
  obtain ⟨share, hs⟩ := Option.isSome_iff_exists.mp (hshare (n.connections.card % 2 ^ 32))
  unfold calculateConnectivity
  simp only [hb, hs, Word.mulW_unchecked, Word.addW_unchecked, Option.bind_eq_bind, Option.bind_some]
  unfold Word.subW
  split <;> rfl

/-! ## When the score of a node is exact -/

/-- The ratio of the attestations without overflow. -/
def balance (incomingCount outgoingCount : Nat) : Nat :=
  if incomingCount = 0 ∨ outgoingCount = 0 then 0
  else min (min incomingCount outgoingCount * 100 / max incomingCount outgoingCount) 100

def share (connectionCount totalIdentities : Nat) : Nat :=
  if totalIdentities > 0 then connectionCount * 100 / totalIdentities % 2 ^ 32 else 0

/-- What the node has before the penalty. -/
def points (n : SocialGraphNode) (totalIdentities : Nat) : Nat :=
  n.connections.card % 2 ^ 32 * 10 + balance (n.incoming.card % 2 ^ 32) (n.outgoing.card % 2 ^ 32) / 2 +
    share (n.connections.card % 2 ^ 32) totalIdentities

/-- The points fit, and pay for the penalty of a node without a trust depth. -/
structure Fits (n : SocialGraphNode) (totalIdentities : Nat) : Prop where
  base : n.connections.card % 2 ^ 32 * 10 < 2 ^ 32
  balance : n.incoming.card % 2 ^ 32 ≠ 0 → n.outgoing.card % 2 ^ 32 ≠ 0 →
    min (n.incoming.card % 2 ^ 32) (n.outgoing.card % 2 ^ 32) * 100 < 2 ^ 32
  points_lt : n.points totalIdentities < 2 ^ 32
  le_points : 50 ≤ n.points totalIdentities

instance (n : SocialGraphNode) (total : Nat) : Decidable (n.Fits total) :=
  decidable_of_iff (n.connections.card % 2 ^ 32 * 10 < 2 ^ 32 ∧
      (n.incoming.card % 2 ^ 32 ≠ 0 → n.outgoing.card % 2 ^ 32 ≠ 0 →
        min (n.incoming.card % 2 ^ 32) (n.outgoing.card % 2 ^ 32) * 100 < 2 ^ 32) ∧
      n.points total < 2 ^ 32 ∧ 50 ≤ n.points total)
    ⟨fun ⟨a, b, c, d⟩ => ⟨a, b, c, d⟩, fun ⟨a, b, c, d⟩ => ⟨a, b, c, d⟩⟩

theorem balanceRatio_eq (checks : Bool) (i o : Nat) (h : i ≠ 0 → o ≠ 0 → min i o * 100 < 2 ^ 32) :
    balanceRatio checks i o = some (balance i o) := by
  unfold balanceRatio balance
  split
  · rfl
  · next hne =>
    rw [not_or] at hne
    rw [Word.mulW_of_lt _ _ _ _ (h hne.1 hne.2), Option.map_some]

theorem balanceRatio_bind_isSome_iff {α : Type} (i o : Nat) (f : Nat → Option α) :
    ((balanceRatio true i o).bind f).isSome ↔
      (i ≠ 0 → o ≠ 0 → min i o * 100 < 2 ^ 32) ∧ (f (balance i o)).isSome := by
  by_cases h : i ≠ 0 → o ≠ 0 → min i o * 100 < 2 ^ 32
  · rw [balanceRatio_eq true i o h, Option.bind_some, and_iff_right h]
  · have hne : ¬ (i = 0 ∨ o = 0) := by tauto
    refine iff_of_false (fun hsome => h fun _ _ => ?_) fun hboth => h hboth.1
    unfold balanceRatio at hsome
    rw [if_neg hne, Option.bind_map, Word.mulW_bind_isSome_iff] at hsome
    exact hsome.1

theorem networkShare_eq (checks : Bool) (count total : Nat) (h : count < 2 ^ 32) :
    networkShare checks count total = some (share count total) := by
  unfold networkShare share
  split
  · rw [Word.mulW_of_lt _ _ _ _ (by omega), Option.map_some]
  · rfl

theorem calculateConnectivity_of_fits (checks : Bool) (n : SocialGraphNode) (total : Nat) (hdepth : n.trustDepth = 255)
    (h : n.Fits total) :
    n.calculateConnectivity checks total = some { n with connectivityScore := n.points total - 50 } := by
  have hlt := h.points_lt
  have hle := h.le_points
  have hpenalty : min (255 * 5) 50 = 50 := rfl
  unfold points at hlt hle ⊢
  unfold calculateConnectivity
  dsimp only
  rw [balanceRatio_eq checks _ _ h.balance, networkShare_eq checks _ _ (Nat.mod_lt _ (by decide)), hdepth,
    Word.mulW_of_lt _ _ _ _ h.base, Word.mulW_of_lt checks 32 255 5 (by decide)]
  simp only [Option.bind_eq_bind, Option.bind_some]
  rw [Word.addW_of_lt _ _ _ _ (by omega), Option.bind_some, Word.addW_of_lt _ _ _ _ hlt, Option.bind_some, Word.subW,
    hpenalty, if_pos hle]
  rfl

/-- With checks the score of a node is computed exactly if the points fit. -/
theorem calculateConnectivity_isSome_iff (n : SocialGraphNode) (total : Nat) (hdepth : n.trustDepth = 255) :
    (n.calculateConnectivity true total).isSome ↔ n.Fits total := by
  refine ⟨fun h => ?_, fun h => by rw [calculateConnectivity_of_fits true n total hdepth h]; rfl⟩
  unfold calculateConnectivity at h
  dsimp only at h
  rw [networkShare_eq true _ _ (Nat.mod_lt _ (by decide)), hdepth, Word.mulW_of_lt true 32 255 5 (by decide)] at h
  simp only [Option.bind_eq_bind, Option.bind_some, Word.mulW_bind_isSome_iff, balanceRatio_bind_isSome_iff,
    Word.addW_bind_isSome_iff, Word.subW_bind_isSome_iff] at h
  obtain ⟨hbase, hbalance, -, hlt, hle, -⟩ := h
  exact ⟨hbase, hbalance, hlt, hle⟩

/-- The score of a node that is connected to identities of the network only. -/
theorem points_le (n : SocialGraphNode) (total : Nat) (h : n.connections.card ≤ total) :
    n.points total ≤ 10 * n.connections.card + 50 + 100 := by
  have hbalance : balance (n.incoming.card % 2 ^ 32) (n.outgoing.card % 2 ^ 32) ≤ 100 := by
    unfold balance
    split
    · exact Nat.zero_le _
    · exact min_le_right _ _
  have hmod := Nat.mod_le n.connections.card (2 ^ 32)
  have hshare : share (n.connections.card % 2 ^ 32) total ≤ 100 := by
    unfold share
    split
    · exact (Nat.mod_le _ _).trans (Nat.div_le_of_le_mul (by omega))
    · exact Nat.zero_le _
  unfold points
  omega

end SocialGraphNode

structure SybilCluster where
  clusterId : Nat
  members : Finset IdentityId
  /-- The operands of the quotient. -/
  internalDensity : Nat × Nat
  externalConnections : Nat
  riskScore : Nat
  flagged : Bool
deriving DecidableEq

/-- `(density * 50.0) as u8` of a density of `e as f32 / m as f32`. -/
structure DensityRisk where
  risk : Nat → Nat → Nat
  risk_le : ∀ e m, 2 * e ≤ 3 * m → risk e m ≤ 100

namespace SybilCluster

def new (clusterId : Nat) : SybilCluster :=
  { clusterId, members := ∅, internalDensity := (0, 1), externalConnections := 0, riskScore := 0, flagged := false }

/-- High internal density and low external connections are a high risk.  The sum is a `u8`. -/
def calculateRisk (checks : Bool) (density : DensityRisk) (c : SybilCluster) : Option SybilCluster :=
  if c.members.card < 3 then some { c with riskScore := 0 }
  else
    let isolationRisk := if c.externalConnections < c.members.card % 2 ^ 32 then 30 else 0
    let sizeRisk := if c.members.card > 10 then 20 else 0
    (Word.sumW checks 8 [density.risk c.internalDensity.1 c.internalDensity.2, isolationRisk, sizeRisk]).map
      fun total => { c with riskScore := min total 100, flagged := decide (min total 100 > 70) }

end SybilCluster

end Kratos
