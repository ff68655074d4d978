import Kratos.Lib.HashChain
import Kratos.Network.BlockProvider
import Kratos.Node.Import

/-!
# The chain of a node

A `Ledger` is what a node's chain is meant to be: genesis and the blocks after it, each with
the next number and the hash of the one before.  `BlockStore.Holds` says that the database
has this ledger and nothing else under its keys, `Node.Holds` that the node stands at its end.

An import leaves the ledger as it is or extends it by the imported block
(`importBlock_holds`), whatever else a failed import has left behind.
-/

namespace Kratos

/-- Genesis and the blocks after it. -/
structure Ledger (cr : Crypto) where
  blocks : List Block
  nonempty : blocks ≠ []
  numbered : ∀ (n : Nat) (b : Block), blocks[n]? = some b → b.header.number = n
  linked : HashChain.Chained (Block.hash cr) (fun b : Block => b.header.parentHash) blocks

@[simp] theorem Block.header_stored (b : Block) : b.stored.header = b.header := rfl

@[simp] theorem Block.hash_stored (cr : Crypto) (b : Block) : b.stored.hash cr = b.hash cr := rfl

namespace Ledger

variable {cr : Crypto}

def height (L : Ledger cr) : Nat := L.blocks.length - 1

theorem length_blocks (L : Ledger cr) : L.blocks.length = L.height + 1 := by
  have := List.length_pos_of_ne_nil L.nonempty
  unfold height
  omega

def single (genesis : Block) (h : genesis.header.number = 0) : Ledger cr :=
  { blocks := [genesis]
    nonempty := by simp
    numbered := by
      intro n b hb
      obtain ⟨hn, rfl⟩ := List.getElem?_eq_some_iff.mp hb
      have hzero : n = 0 := by simpa using hn
      subst hzero
      exact h
    linked := List.isChain_singleton genesis }

/-- One more block. -/
def extend (L : Ledger cr) (b parent : Block) (htip : L.blocks.getLast? = some parent)
    (hnumber : b.header.number = L.height + 1) (hparent : b.header.parentHash = parent.hash cr) : Ledger cr :=
  { blocks := L.blocks ++ [b]
    nonempty := by simp
    numbered := by
      intro n c hc
      rcases lt_or_ge n L.blocks.length with hlt | hge
      · rw [List.getElem?_append_left hlt] at hc
        exact L.numbered n c hc
      · rw [List.getElem?_append_right hge] at hc
        obtain ⟨hn, rfl⟩ := List.getElem?_eq_some_iff.mp hc
        have hzero : n - L.blocks.length = 0 := by simpa using hn
        have := L.length_blocks
        simp only [hzero, List.getElem_singleton, hnumber]
        omega
    linked := by
      rw [HashChain.chained_append_one]
      refine ⟨L.linked, ?_⟩
      intro a ha
      rw [htip, Option.mem_some_iff] at ha
      rw [hparent, ha] }

theorem getElem?_height (L : Ledger cr) : L.blocks[L.height]? = L.blocks.getLast? := by
  rw [List.getLast?_eq_getElem?]
  rfl

/-- The last block stands at the height. -/
theorem number_tip (L : Ledger cr) (b : Block) (h : L.blocks.getLast? = some b) : b.header.number = L.height :=
  L.numbered L.height b (by rw [L.getElem?_height]; exact h)

end Ledger

/-! ## The database and the ledger -/

/-- The database has the ledger, and no other block under a number or a hash. -/
structure BlockStore.Holds {cr : Crypto} (d : BlockStore) (L : Ledger cr) : Prop where
  byNumber : ∀ n, d.byNumber.find? n = L.blocks[n]?
  byHash : ∀ hash b, d.byHash.find? hash = some b → b ∈ L.blocks ∧ b.hash cr = hash
  reachable : ∀ b ∈ L.blocks, ∃ b', d.byHash.find? (b.hash cr) = some b'
  hashes : ∀ n, d.hashes.find? n = L.blocks[n]?.map (Block.hash cr)
  roots : ∀ n b, 0 < n → L.blocks[n]? = some b → ∃ r, d.roots.find? n = some r ∧ r.root = b.header.stateRoot
  best : d.best.getD 0 = L.height

/-- The database with a block, its state root, and its number as the best one. -/
def BlockStore.push (cr : Crypto) (d : BlockStore) (b : Block) (root : StateRoot) : BlockStore :=
  { byHash := d.byHash.insert (b.hash cr) b.stored
    byNumber := d.byNumber.insert b.header.number b.stored
    hashes := d.hashes.insert b.header.number (b.hash cr)
    roots := d.roots.insert b.header.number root
    best := some b.header.number }

/-- **A pushed block extends the ledger.** -/
theorem BlockStore.Holds.push {cr : Crypto} {d : BlockStore} {L : Ledger cr} (h : d.Holds L) (b parent : Block)
    (root : StateRoot) (htip : L.blocks.getLast? = some parent) (hnumber : b.header.number = L.height + 1)
    (hparent : b.header.parentHash = parent.hash cr) (hroot : root.root = b.header.stateRoot) :
    (d.push cr b root).Holds (L.extend b.stored parent htip hnumber hparent) := by
  have hlength := L.length_blocks
  have hget : ∀ n, (L.blocks ++ [b.stored])[n]? = if n = b.header.number then some b.stored else L.blocks[n]? := by
    intro n
    split
    · next hn =>
      rw [hn, hnumber, ← hlength]
      exact List.getElem?_concat_length
    · next hn =>
      rcases lt_or_ge n L.blocks.length with hlt | hge
      · exact List.getElem?_append_left hlt
      · rw [List.getElem?_eq_none hge]
        refine List.getElem?_eq_none ?_
        rw [List.length_append, List.length_singleton]
        omega
  refine
    { byNumber := fun n => ?_
      byHash := fun hash c hc => ?_
      reachable := fun c hc => ?_
      hashes := fun n => ?_
      roots := fun n c hn hc => ?_
      best := ?_ }
  · change (d.byNumber.insert _ _).find? n = _
    rw [SortedMap.find?_insert, h.byNumber]
    exact (hget n).symm
  · change (d.byHash.insert _ _).find? hash = _ at hc
    change c ∈ L.blocks ++ [b.stored] ∧ _
    rw [SortedMap.find?_insert] at hc
    split at hc
    · next heq =>
      cases hc
      exact ⟨by simp, heq.symm⟩
    · obtain ⟨hmem, heq⟩ := h.byHash hash c hc
      exact ⟨List.mem_append_left _ hmem, heq⟩
  · change ∃ b', (d.byHash.insert _ _).find? (c.hash cr) = _
    change c ∈ L.blocks ++ [b.stored] at hc
    rw [SortedMap.find?_insert]
    split
    · exact ⟨b.stored, rfl⟩
    · next hne =>
      rcases List.mem_append.mp hc with hold | hnew
      · exact h.reachable c hold
      · rw [List.mem_singleton] at hnew
        rw [hnew] at hne
        exact absurd rfl hne
  · change (d.hashes.insert _ _).find? n = ((L.blocks ++ [b.stored])[n]?).map _
    rw [SortedMap.find?_insert, h.hashes, hget]
    split
    · rfl
    · rfl
  · change ∃ r, (d.roots.insert _ _).find? n = _ ∧ _
    change (L.blocks ++ [b.stored])[n]? = some c at hc
    rw [hget] at hc
    rw [SortedMap.find?_insert]
    split at hc
    · next hn =>
      cases hc
      rw [if_pos hn]
      exact ⟨root, rfl, hroot⟩
    · next hne =>
      rw [if_neg hne]
      exact h.roots n c hn hc
  · change (some b.header.number).getD 0 = (L.blocks ++ [b.stored]).length - 1
    rw [Option.getD_some, hnumber, List.length_append, List.length_singleton]
    omega

/-! ## The node and the ledger -/

/-- The node stands at the end of the ledger. -/
structure Node.Holds {cr : Crypto} (n : Node) (L : Ledger cr) : Prop where
  store : n.storage.blockStore.Holds L
  height : n.chainHeight = L.height
  current : ∃ b, n.currentBlock = some b ∧ L.blocks.getLast? = some b.stored

namespace Node

variable {cr : Crypto} {L : Ledger cr}

theorem Holds.congr {n n' : Node} (h : n.Holds L) (hstore : n'.storage.blockStore = n.storage.blockStore)
    (hheight : n'.chainHeight = n.chainHeight) (hcurrent : n'.currentBlock = n.currentBlock) : n'.Holds L :=
  ⟨by rw [hstore]; exact h.store, by rw [hheight]; exact h.height, by rw [hcurrent]; exact h.current⟩

/-- No block is stored above the height, so the one that comes next is new. -/
theorem Holds.not_stored {n : Node} (h : n.Holds L) (b : Block) (hnumber : b.header.number = n.chainHeight + 1) :
    n.isStored cr b = false := by
  have hnone : n.storage.getBlockByNumber b.header.number = none := by
    have := h.store.byNumber b.header.number
    rw [hnumber, h.height, ← L.length_blocks, List.getElem?_eq_none (le_refl _)] at this
    rw [hnumber, h.height, ← L.length_blocks]
    exact this
  unfold isStored
  rw [hnone]
  rfl

end Node

/-! ## Frames -/

namespace StateBackend

theorem blockStore_of_sameButFunds (s s' : StateBackend) (h : TransactionExecutor.SameButFunds s s') :
    s'.blockStore = s.blockStore := (congrArg blockStore h :)

theorem blockStore_of_onlyCredits (s s' : StateBackend) (h : OnlyCredits s s') : s'.blockStore = s.blockStore :=
  (congrArg blockStore h.rest :)

end StateBackend

namespace Node

/-- What votes and rewards leave of the chain: all of it. -/
structure SameChain (n n' : Node) : Prop where
  store : n'.storage.blockStore = n.storage.blockStore
  height : n'.chainHeight = n.chainHeight
  current : n'.currentBlock = n.currentBlock

theorem SameChain.refl (n : Node) : SameChain n n := ⟨rfl, rfl, rfl⟩

theorem SameChain.trans {n m k : Node} (h : SameChain n m) (h' : SameChain m k) : SameChain n k :=
  ⟨h'.store.trans h.store, h'.height.trans h.height, h'.current.trans h.current⟩

theorem sameChain_approveCandidate (n : Node) (candidate : AccountId) (block : Nat) :
    SameChain n (n.approveCandidate candidate block) := by
  unfold approveCandidate
  split
  · exact .refl n
  · exact ⟨rfl, rfl, rfl⟩

theorem sameChain_processVote (block : Nat) (n : Node) (tx : SignedTransaction) :
    SameChain n (processVote block n tx) := by
  unfold processVote
  split
  · split
    · exact .refl n
    · next validators _ =>
      split
      · exact SameChain.trans (m := { n with validators }) ⟨rfl, rfl, rfl⟩ (sameChain_approveCandidate _ _ _)
      · exact ⟨rfl, rfl, rfl⟩
  · split
    · next validators _ =>
      exact SameChain.trans (m := { n with validators }) ⟨rfl, rfl, rfl⟩ (sameChain_approveCandidate _ _ _)
    · exact ⟨rfl, rfl, rfl⟩
  · exact .refl n

theorem sameChain_processVotes (block : Nat) (n : Node) (txs : List SignedTransaction) :
    SameChain n (txs.foldl (processVote block) n) := by
  induction txs generalizing n with
  | nil => exact .refl n
  | cons tx txs ih => exact (sameChain_processVote block n tx).trans (ih _)

theorem sameChain_settleBlock (f : RewardFormulas) (n : Node) (b : Block) (totalFees : Balance) :
    SameChain n (settleBlock f n b totalFees) := by
  have hvotes := sameChain_processVotes b.header.number n b.body.transactions
  have hpaid := applyBlockRewardsWithFinality_onlyCredits f
    (b.body.transactions.foldl (processVote b.header.number) n).storage b.header.author b.header.epoch totalFees []
  exact hvotes.trans ⟨StateBackend.blockStore_of_onlyCredits _ _ hpaid, rfl, rfl⟩

theorem sameChain_admitAuthor (n : Node) (b : Block) : SameChain n (n.admitAuthor b) := by
  obtain ⟨hstorage, hheight, hcurrent⟩ := n.storage_admitAuthor b
  exact ⟨by rw [hstorage], hheight, hcurrent⟩

/-! ## Imports -/

/-- **What an import does to the chain**: nothing, or it pushes the block after the current one. -/
theorem importBlock_chain (cr : Crypto) (f : RewardFormulas) (now : Nat) (n : Node) (b : Block) :
    SameChain n (importBlock cr f now n b).1 ∧
        ((importBlock cr f now n b).2 = .ok () → b.header.number = n.chainHeight + 1 ∧ n.isStored cr b = true) ∨
      (importBlock cr f now n b).2 = .ok () ∧ ∃ parent, Linked cr n b parent ∧
        BlockValidator.WellFormed cr now b parent (n.admitAuthor b).validators ∧
        ∃ root : StateRoot, root.root = b.header.stateRoot ∧
          (importBlock cr f now n b).1.storage.blockStore = n.storage.blockStore.push cr b root ∧
          (importBlock cr f now n b).1.chainHeight = b.header.number ∧
          (importBlock cr f now n b).1.currentBlock = some b := by
  by_cases hlink : ∃ parent, Linked cr n b parent
  · obtain ⟨parent, hlink⟩ := hlink
    have hadmission := n.sameChain_admitAuthor b
    rw [importBlock_linked cr f now n b parent hlink]
    cases hvalid : BlockValidator.validate cr now b parent (n.admitAuthor b).validators with
    | error err => exact Or.inl ⟨hadmission, by simp⟩
    | ok _ =>
      have hnumber : b.header.number = (n.admitAuthor b).chainHeight + 1 := by
        rw [hadmission.height]
        exact hlink.number
      simp only
      rcases applyBlock_cases cr f (n.admitAuthor b) b hnumber with
        ⟨err, -, heq⟩ | ⟨t, t', s₁, s₂, r, -, rfl, -, -, hexec, hrest⟩
      · left
        rw [heq]
        exact ⟨hadmission, by simp⟩
      · -- the body has moved funds, votes and rewards move credits
        have hfunds := sameButFunds_executeBody cr b.header.number
          { (n.admitAuthor b).storage with driftTracker := some t' } b.body.transactions 0 0
        rw [hexec] at hfunds
        have hstore : s₂.blockStore = n.storage.blockStore :=
          (StateBackend.blockStore_of_sameButFunds _ _ hfunds).trans hadmission.store
        rcases hrest with ⟨err, -, heq⟩ | ⟨totalFees, -, heq⟩
        · left
          rw [heq]
          exact ⟨⟨hstore, hadmission.height, hadmission.current⟩, by simp⟩
        · have hsettled := sameChain_settleBlock f { n.admitAuthor b with storage := s₂ } b totalFees
          generalize settleBlock f { n.admitAuthor b with storage := s₂ } b totalFees = m at heq hsettled
          have hm : SameChain n m :=
            ⟨hsettled.store.trans hstore, hsettled.height.trans hadmission.height, hsettled.current.trans hadmission.current⟩
          rw [heq]
          unfold commitBlock
          simp only
          split
          · exact Or.inl ⟨hm, by simp⟩
          · next hroot =>
            refine Or.inr ⟨rfl, parent, hlink, (BlockValidator.validate_ok_iff _ _ _ _ _).mp hvalid,
              m.storage.computeStateRoot cr b.header.number ⟨0⟩, not_not.mp hroot, ?_, rfl, rfl⟩
            rw [← hm.store]
            rfl
  · left
    rw [importBlock_unlinked cr f now n b (fun parent h => hlink ⟨parent, h⟩)]
    refine ⟨.refl n, fun hok => ?_⟩
    unfold importBlock at hok
    split at hok
    · cases hok
    · next hnumber =>
      split at hok
      · next hstored => exact ⟨not_not.mp hnumber, hstored⟩
      · next hnew =>
        split at hok
        · cases hok
        · next parent hparent =>
          split at hok
          · cases hok
          · next hhash =>
            exact absurd ⟨parent, not_not.mp hnumber, by simpa using hnew, hparent, not_not.mp hhash⟩ hlink

/-- **An import leaves the ledger or extends it by the block.** -/
theorem importBlock_holds {cr : Crypto} {L : Ledger cr} (f : RewardFormulas) (now : Nat) (n : Node) (b : Block)
    (h : n.Holds L) :
    SameChain n (importBlock cr f now n b).1 ∧ (importBlock cr f now n b).2 ≠ .ok () ∨
      (importBlock cr f now n b).2 = .ok () ∧ (importBlock cr f now n b).1.chainHeight = b.header.number ∧
        ∃ L' : Ledger cr, L'.blocks = L.blocks ++ [b.stored] ∧ (importBlock cr f now n b).1.Holds L' := by
  rcases importBlock_chain cr f now n b with ⟨hsame, hok⟩ | ⟨hok, parent, hlink, -, root, hroot, hstore, hheight, hcurrent⟩
  · left
    refine ⟨hsame, fun hr => ?_⟩
    obtain ⟨hnumber, hstored⟩ := hok hr
    rw [h.not_stored b hnumber] at hstored
    cases hstored
  · right
    obtain ⟨c, hc, htip⟩ := h.current
    rw [hlink.current, Option.some.injEq] at hc
    have hnumber : b.header.number = L.height + 1 := by rw [← h.height]; exact hlink.number
    have hparent : b.header.parentHash = c.stored.hash cr := by rw [← hc]; exact hlink.parentHash
    refine ⟨hok, hheight, L.extend b.stored c.stored htip hnumber hparent, rfl, ?_, ?_, b, hcurrent, ?_⟩
    · rw [hstore]
      exact h.store.push b c.stored root htip hnumber hparent hroot
    · rw [hheight, hnumber]
      have := L.length_blocks
      unfold Ledger.height Ledger.extend
      rw [List.length_append, List.length_singleton]
      omega
    · exact List.getLast?_concat

end Node

end Kratos
