import Kratos.Lib.MerkleBranch
import Kratos.Types.Merkle
import Kratos.Types.Block

/-!
# The tree behind inclusion proofs

`StateMerkleTree` builds a promoting Merkle tree over byte strings, hands out inclusion proofs
and checks them against its root.

A proof of an existing leaf verifies exactly when nothing on its way is promoted, or the nodes
that trade places are equal (`generateProof_verifies_iff`): the verifier spends one bit of the
leaf index on each sibling, and a promoted level has none.  Every accepted proof that names a
given index with a given number of siblings is one of the leaf at that index exactly when the
bits of the index lead down to it (`accepted_sound_iff`): neither the number of siblings nor
the kind of the node reached is compared with anything.

The root of a block body is that of the tree of its transaction hashes.  The flat hash of the
same hashes is another root (`computeTransactionsRoot_eq_iff`).
-/

namespace Kratos

open MerkleBranch

structure StateMerkleTree where
  /-- The leaf digests that the underlying tree was built from. -/
  tree : List Hash
  leaves : List (List UInt8)
deriving DecidableEq, Repr

namespace StateMerkleTree

/-- Digest of an inner node. -/
abbrev nodeHash (cr : Crypto) : Hash → Hash → Hash := pair cr.blake3 Hash.asBytes

def new (cr : Crypto) (leaves : List (List UInt8)) : StateMerkleTree :=
  { tree := leaves.map cr.blake3, leaves }

def root (cr : Crypto) (t : StateMerkleTree) : Hash := (Merkle.root (nodeHash cr) t.tree).getD Hash.zero

def generateProof (cr : Crypto) (t : StateMerkleTree) (leafIndex blockNumber : Nat) (chainId : ChainId) :
    Option MerkleProof :=
  t.leaves[leafIndex]?.map fun leaf =>
    { leaf, leafIndex, proof := (branch (nodeHash cr) t.tree.length t.tree leafIndex).map Prod.snd
      root := t.root cr, blockNumber, chainId }

def verifyProof (cr : Crypto) (t : StateMerkleTree) (proof : MerkleProof) : Bool :=
  proof.verify cr && decide (proof.root = t.root cr)

/-! ## What a root commits to -/

/-- The strings hashed for a tree. -/
def hashed (cr : Crypto) (leaves : List (List UInt8)) : List (List UInt8) :=
  (Merkle.tree leaves).elim [] (Merkle.preimages cr.blake3 Hash.asBytes id)

/-- Nothing else has the digest of a string hashed for the tree. -/
def NoSecondPreimage (cr : Crypto) (leaves : List (List UInt8)) : Prop :=
  ∀ x ∈ hashed cr leaves, ∀ y, cr.blake3 x = cr.blake3 y → x = y

theorem asBytes_append_inj (x y x' y' : Hash) (h : x.asBytes ++ y.asBytes = x'.asBytes ++ y'.asBytes) :
    x = x' ∧ y = y' := by
  obtain ⟨hx, hy⟩ := List.append_inj h (by rw [Hash.length_asBytes, Hash.length_asBytes])
  exact ⟨Hash.asBytes_inj _ _ hx, Hash.asBytes_inj _ _ hy⟩

theorem computeRootFromProof_eq_climb (cr : Crypto) (i : Nat) (h : Hash) (p : List Hash) :
    MerkleProof.computeRootFromProof cr i h p = MerklePath.climb (nodeHash cr) i h p := by
  induction p generalizing i h with
  | nil => rfl
  | cons s p ih =>
    have hc : MerkleProof.combine cr i h s = MerklePath.up (nodeHash cr) (MerklePath.side i h s) := by
      unfold MerkleProof.combine MerklePath.up MerklePath.side
      split <;> rfl
    rw [MerkleProof.computeRootFromProof, MerklePath.climb, ih, hc]

theorem verify_iff (cr : Crypto) (p : MerkleProof) :
    p.verify cr = true ↔ MerklePath.climb (nodeHash cr) p.leafIndex (cr.blake3 p.leaf) p.proof = p.root := by
  rw [MerkleProof.verify, decide_eq_true_iff, computeRootFromProof_eq_climb]

theorem verifyProof_iff (cr : Crypto) (t : StateMerkleTree) (p : MerkleProof) :
    t.verifyProof cr p = true ↔ p.verify cr = true ∧ p.root = t.root cr := by
  rw [verifyProof, Bool.and_eq_true, decide_eq_true_iff]

theorem root_new_nil (cr : Crypto) : (new cr []).root cr = Hash.zero := rfl

theorem root_new (cr : Crypto) (leaves : List (List UInt8)) (t : Merkle.Tree (List UInt8))
    (ht : Merkle.tree leaves = some t) :
    (new cr leaves).root cr = Merkle.hashOf cr.blake3 Hash.asBytes id t := by
  have h := Merkle.root_map_eq_fold cr.blake3 (nodeHash cr) leaves
  rw [ht] at h
  simp only [root, new, h]
  rfl

theorem exists_tree (leaves : List (List UInt8)) (h : leaves ≠ []) : ∃ t, Merkle.tree leaves = some t :=
  Option.isSome_iff_exists.mp (Merkle.root_isSome _ _ (by simpa using h))

/-! ## Completeness -/

/-- Wherever the verifier takes the wrong side on the branch of a leaf, both nodes are equal. -/
def SwapsEqual (cr : Crypto) (leaves : List (List UInt8)) (i : Nat) (leaf : List UInt8) : Prop :=
  Harmless (nodeHash cr) i (cr.blake3 leaf) (branch (nodeHash cr) leaves.length (leaves.map cr.blake3) i)

theorem swapsEqual_of_not_promoted (cr : Crypto) (leaves : List (List UInt8)) (i : Nat) (leaf : List UInt8)
    (hi : i < leaves.length) (h : ¬Promoted leaves.length i) : SwapsEqual cr leaves i leaf := by
  apply harmless_of_sidesAgree
  have := sidesAgree_branch_iff (nodeHash cr) leaves.length (leaves.map cr.blake3) i (by simpa using hi)
    (by simp)
  rw [List.length_map] at this
  exact this.mpr h

/-- The proof of a leaf verifies exactly when no node on its way is promoted, or only equal nodes
trade places. -/
theorem generateProof_verifies_iff (cr : Crypto) (leaves : List (List UInt8)) (i blockNumber : Nat)
    (chainId : ChainId) (hi : i < leaves.length) (hsec : NoSecondPreimage cr leaves) :
    ∃ p, (new cr leaves).generateProof cr i blockNumber chainId = some p ∧
      ((p.verify cr = true ∧ (new cr leaves).verifyProof cr p = true) ↔
        ¬Promoted leaves.length i ∨ SwapsEqual cr leaves i leaves[i]) := by
  have ha : leaves[i]? = some leaves[i] := List.getElem?_eq_getElem hi
  obtain ⟨t, ht⟩ := exists_tree leaves (by rintro rfl; simp at hi)
  have hbr := climb_branch_iff cr.blake3 Hash.asBytes id asBytes_append_inj leaves t i leaves[i] ht ha
    (by simpa [NoSecondPreimage, hashed, ht] using hsec)
  refine ⟨_, by rw [generateProof, new, ha]; rfl, ?_⟩
  rw [verifyProof_iff, verify_iff]
  have hswap : (¬Promoted leaves.length i ∨ SwapsEqual cr leaves i leaves[i]) ↔
      SwapsEqual cr leaves i leaves[i] :=
    ⟨fun h => h.elim (swapsEqual_of_not_promoted cr leaves i _ hi) id, .inr⟩
  rw [hswap, SwapsEqual]
  have hroot := root_new cr leaves t ht
  simp only [new, List.length_map] at hroot ⊢
  simp only [hroot, and_true, and_self]
  exact hbr

/-- A hash that gives each of the listed strings a digest of its own. -/
def telling (xs : List (List UInt8)) : Crypto :=
  { Crypto.sample with blake3 := fun x => ⟨Fin.ofNat _ (xs.idxOf x + 1)⟩ }

theorem telling_inj (xs : List (List UInt8)) (hlen : xs.length < 2 ^ 255) (x y : List UInt8) (hx : x ∈ xs)
    (h : (telling xs).blake3 x = (telling xs).blake3 y) : x = y := by
  have hix : xs.idxOf x < xs.length := List.idxOf_lt_length_iff.mpr hx
  have hiy : xs.idxOf y ≤ xs.length := List.idxOf_le_length
  have hval : (xs.idxOf x + 1) % 2 ^ 256 = (xs.idxOf y + 1) % 2 ^ 256 :=
    congrArg (fun d : Hash => d.bytes.val) h
  rw [Nat.mod_eq_of_lt (by omega), Nat.mod_eq_of_lt (by omega)] at hval
  exact List.idxOf_inj hx |>.mp (by omega)

def sampleLeaves : List (List UInt8) := [[1], [2], [3]]

/-- The strings hashed for the three leaves, each with a digest of its own. -/
def sampleHashed : List (List UInt8) :=
  [[1], [2], [3], Bytes.be 32 1 ++ Bytes.be 32 2, Bytes.be 32 4 ++ Bytes.be 32 3]

theorem sample_noSecondPreimage : NoSecondPreimage (telling sampleHashed) sampleLeaves := by
  have hmem : ∀ x ∈ hashed (telling sampleHashed) sampleLeaves, x ∈ sampleHashed := by decide +kernel
  exact fun x hx y h => telling_inj sampleHashed (by decide) x y (hmem x hx) h

theorem generateProof_verifies_iff_sample :
    ∃ p, (new (telling sampleHashed) sampleLeaves).generateProof (telling sampleHashed) 2 100 ⟨1⟩ = some p ∧
      ((p.verify (telling sampleHashed) = true ∧
          (new (telling sampleHashed) sampleLeaves).verifyProof (telling sampleHashed) p = true) ↔
        ¬Promoted 3 2 ∨ SwapsEqual (telling sampleHashed) sampleLeaves 2 [3]) :=
  generateProof_verifies_iff (telling sampleHashed) sampleLeaves 2 100 ⟨1⟩ (by decide) sample_noSecondPreimage

def twoAccounts : List (List UInt8) := [Bytes.ascii "account1", Bytes.ascii "account2"]

def threeAccounts : List (List UInt8) := twoAccounts ++ [Bytes.ascii "account3"]

/-- The third of three leaves is promoted; its proof has one sibling, on the left, and index 2
reads it as one on the right. -/
theorem third_of_three_rejected :
    ((new Crypto.sample threeAccounts).generateProof Crypto.sample 2 100 ⟨1⟩).map (MerkleProof.verify Crypto.sample) = some false := by
  decide +kernel

/-! ## Soundness -/

/-- Where the bits of an index lead from the root in `n` steps, the only string is that of leaf
`i`: the node reached is hashed from those bytes, or the leaf or empty root that ends the way
earlier spells no others. -/
def Located (cr : Crypto) (leaves : List (List UInt8)) (i n : Nat) : Prop :=
  match Merkle.tree leaves with
  | none => ∀ x, ¬Spells cr.blake3 Hash.asBytes Hash.zero (turns n i) x
  | some t =>
    match reach t (turns n i) with
    | (s, []) => leaves[i]? = some (text cr.blake3 Hash.asBytes id s)
    | (s, turn :: rest) =>
      ∀ x, Spells cr.blake3 Hash.asBytes (Merkle.hashOf cr.blake3 Hash.asBytes id s) (turn :: rest) x →
        leaves[i]? = some x

/-- Some accepted proof with a given index and number of siblings is one of a given string. -/
theorem accepted_iff (cr : Crypto) (leaves : List (List UInt8)) (i n : Nat) (x : List UInt8) :
    (∃ p : MerkleProof, p.leaf = x ∧ p.leafIndex = i ∧ p.proof.length = n ∧
        (new cr leaves).verifyProof cr p = true) ↔
      Spells cr.blake3 Hash.asBytes ((new cr leaves).root cr) (turns n i) x := by
  rw [← exists_climb_iff]
  constructor
  · rintro ⟨p, rfl, rfl, hn, hv⟩
    obtain ⟨hp, hroot⟩ := (verifyProof_iff cr _ p).mp hv
    exact ⟨p.proof, hn, ((verify_iff cr p).mp hp).trans hroot⟩
  · rintro ⟨p, hn, hp⟩
    refine ⟨{ leaf := x, leafIndex := i, proof := p, root := (new cr leaves).root cr, blockNumber := 0, chainId := ⟨0⟩ },
      rfl, rfl, hn, ?_⟩
    rw [verifyProof_iff, verify_iff]
    exact ⟨hp, rfl⟩

/-- Every accepted proof with a given index and number of siblings is one of the leaf at that
index exactly when the bits of the index lead to that leaf. -/
theorem accepted_sound_iff (cr : Crypto) (leaves : List (List UInt8)) (i n : Nat)
    (hsec : NoSecondPreimage cr leaves) :
    (∀ p : MerkleProof, p.leafIndex = i → p.proof.length = n → (new cr leaves).verifyProof cr p = true →
        p.leafIndex < leaves.length ∧ leaves[p.leafIndex]? = some p.leaf) ↔ Located cr leaves i n := by
  have hspells : (∀ p : MerkleProof, p.leafIndex = i → p.proof.length = n →
        (new cr leaves).verifyProof cr p = true →
        p.leafIndex < leaves.length ∧ leaves[p.leafIndex]? = some p.leaf) ↔
      ∀ x, Spells cr.blake3 Hash.asBytes ((new cr leaves).root cr) (turns n i) x → leaves[i]? = some x := by
    constructor
    · intro h x hx
      obtain ⟨p, rfl, rfl, hn, hv⟩ := (accepted_iff cr leaves i n x).mpr hx
      exact (h p rfl hn hv).2
    · rintro h p rfl hn hv
      have := h p.leaf ((accepted_iff cr leaves p.leafIndex n p.leaf).mp ⟨p, rfl, rfl, hn, hv⟩)
      exact ⟨(List.getElem?_eq_some_iff.mp this).1, this⟩
  rw [hspells, Located]
  cases ht : Merkle.tree leaves with
  | none =>
    obtain rfl : leaves = [] := by
      by_contra hne
      obtain ⟨t, ht'⟩ := exists_tree leaves hne
      rw [ht] at ht'
      cases ht'
    simp [root_new_nil]
  | some t =>
    have hsec' : ∀ x ∈ Merkle.preimages cr.blake3 Hash.asBytes id t, ∀ y, cr.blake3 x = cr.blake3 y → x = y := by
      simpa [NoSecondPreimage, hashed, ht] using hsec
    simp only [root_new cr leaves t ht, spells_reach cr.blake3 Hash.asBytes id asBytes_append_inj t _ _ hsec']
    have hsub := preimages_reach cr.blake3 Hash.asBytes id t (turns n i)
    generalize reach t (turns n i) = e at hsub ⊢
    obtain ⟨s, rest⟩ := e
    cases rest with
    | cons turn rest => rfl
    | nil =>
      simp only [Spells, hashOf_eq]
      constructor
      · exact fun h => h _ rfl
      · intro h x hx
        rw [← hsec' _ (hsub _ (text_mem cr.blake3 Hash.asBytes id s)) x hx]
        exact h

theorem accepted_sound_iff_sample :
    (∀ p : MerkleProof, p.leafIndex = 0 → p.proof.length = 2 →
        (new (telling sampleHashed) sampleLeaves).verifyProof (telling sampleHashed) p = true →
        p.leafIndex < sampleLeaves.length ∧ sampleLeaves[p.leafIndex]? = some p.leaf) ↔
      Located (telling sampleHashed) sampleLeaves 0 2 :=
  accepted_sound_iff (telling sampleHashed) sampleLeaves 0 2 sample_noSecondPreimage

/-- A proof against the root of the three leaves. -/
def sampleProof (leaf : List UInt8) (leafIndex : Nat) (proof : List Hash) : MerkleProof :=
  { leaf, leafIndex, proof, root := (new (telling sampleHashed) sampleLeaves).root (telling sampleHashed)
    blockNumber := 100, chainId := ⟨1⟩ }

/-- The two digests under the root pass as leaf 0, an index past the end passes, and the promoted
third leaf passes as the second one. -/
theorem forged_proofs_accepted :
    NoSecondPreimage (telling sampleHashed) sampleLeaves ∧
    ((new (telling sampleHashed) sampleLeaves).verifyProof (telling sampleHashed)
        (sampleProof (Bytes.be 32 4 ++ Bytes.be 32 3) 0 []) = true ∧
      sampleLeaves[0]? ≠ some (Bytes.be 32 4 ++ Bytes.be 32 3)) ∧
    ((new (telling sampleHashed) sampleLeaves).verifyProof (telling sampleHashed)
        (sampleProof [1] 4 [⟨2⟩, ⟨3⟩]) = true ∧ ¬4 < sampleLeaves.length) ∧
    (new (telling sampleHashed) sampleLeaves).verifyProof (telling sampleHashed) (sampleProof [3] 1 [⟨4⟩]) = true ∧
      sampleLeaves[1]? ≠ some [3] :=
  ⟨sample_noSecondPreimage, by decide +kernel⟩

end StateMerkleTree

/-! ## The root of a block body -/

/-- The leaves of the transaction tree: the transaction hashes. -/
def BlockBody.txData (cr : Crypto) (b : BlockBody) : List (List UInt8) :=
  b.transactions.map fun tx => (tx.hash cr).asBytes

def BlockBody.transactionsRoot (cr : Crypto) (b : BlockBody) : Hash :=
  if b.transactions.isEmpty then Hash.zero else (StateMerkleTree.new cr (b.txData cr)).root cr

def Block.verifyBodyRoot (cr : Crypto) (b : Block) : Bool :=
  decide (b.header.transactionsRoot = b.body.transactionsRoot cr)

theorem length_flatMap_asBytes (cr : Crypto) (txs : List SignedTransaction) :
    (txs.flatMap fun tx => (tx.hash cr).asBytes).length = 32 * txs.length := by
  induction txs with
  | nil => rfl
  | cons tx txs ih =>
    rw [List.flatMap_cons, List.length_append, Hash.length_asBytes, ih, List.length_cons]
    omega

/-- Two ids are the digests of themselves. -/
theorem two_ids_iff (a b x y : Hash) :
    a.asBytes ++ b.asBytes = x.asBytes ++ y.asBytes ↔ x = a ∧ y = b := by
  constructor
  · intro h
    obtain ⟨rfl, rfl⟩ := StateMerkleTree.asBytes_append_inj _ _ _ _ h
    exact ⟨rfl, rfl⟩
  · rintro ⟨rfl, rfl⟩
    rfl

/-- One hash over all transaction hashes is the root of their tree for at most one transaction, or
for two that are the hashes of their own hashes. -/
theorem computeTransactionsRoot_eq_iff (cr : Crypto) (b : BlockBody)
    (hsec : StateMerkleTree.NoSecondPreimage cr (b.txData cr)) :
    computeTransactionsRoot cr b.transactions = b.transactionsRoot cr ↔
      b.transactions.length ≤ 1 ∨
        (b.transactions.length = 2 ∧ ∀ tx ∈ b.transactions, cr.blake3 (tx.hash cr).asBytes = tx.hash cr) := by
  obtain ⟨txs⟩ := b
  match txs with
  | [] => simp [computeTransactionsRoot, BlockBody.transactionsRoot]
  | [tx] =>
    have hroot : (StateMerkleTree.new cr [(tx.hash cr).asBytes]).root cr = cr.blake3 (tx.hash cr).asBytes := rfl
    simp [computeTransactionsRoot, BlockBody.transactionsRoot, BlockBody.txData, hroot]
  | tx :: tx' :: rest =>
    obtain ⟨t, ht⟩ := StateMerkleTree.exists_tree (BlockBody.txData cr ⟨tx :: tx' :: rest⟩) (by simp [BlockBody.txData])
    have hleaves := Merkle.leaves_of_tree _ _ ht
    have htext : computeTransactionsRoot cr (tx :: tx' :: rest) =
          BlockBody.transactionsRoot cr ⟨tx :: tx' :: rest⟩ ↔
        ((tx :: tx' :: rest).flatMap fun tx => (tx.hash cr).asBytes) = text cr.blake3 Hash.asBytes id t := by
      have hmem : text cr.blake3 Hash.asBytes id t ∈ StateMerkleTree.hashed cr (BlockBody.txData cr ⟨tx :: tx' :: rest⟩) := by
        simpa [StateMerkleTree.hashed, ht] using text_mem cr.blake3 Hash.asBytes id t
      simp only [computeTransactionsRoot, BlockBody.transactionsRoot, List.isEmpty_cons, Bool.false_eq_true,
        if_false, StateMerkleTree.root_new cr _ t ht, hashOf_eq]
      exact ⟨fun h => (hsec _ hmem _ h.symm).symm, fun h => congrArg cr.blake3 h⟩
    rw [htext]
    cases rest with
    | nil =>
      obtain rfl : t = .node (.leaf (tx.hash cr).asBytes) (.leaf (tx'.hash cr).asBytes) :=
        (Option.some.inj ht).symm
      simp only [List.flatMap_cons, List.flatMap_nil, List.append_nil, text]
      rw [two_ids_iff]
      simp [Merkle.hashOf, Merkle.Tree.fold]
    | cons tx'' rest =>
      cases t with
      | leaf a =>
        have := congrArg List.length hleaves
        simp [Merkle.Tree.leaves, BlockBody.txData] at this
      | node l r =>
        have hlen : ((tx :: tx' :: tx'' :: rest).flatMap fun tx => (tx.hash cr).asBytes) ≠
            text cr.blake3 Hash.asBytes id (.node l r) := by
          intro h
          have := congrArg List.length h
          rw [length_flatMap_asBytes, text, List.length_append, Hash.length_asBytes, Hash.length_asBytes] at this
          simp only [List.length_cons] at this
          omega
        simp only [List.length_cons]
        exact ⟨fun h => absurd h hlen, fun h => by omega⟩

end Kratos
