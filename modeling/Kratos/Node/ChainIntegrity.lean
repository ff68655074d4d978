import Kratos.Node.Ledger
import Kratos.Node.ServiceMoves

/-!
# The chain over whole runs

A node is intact when it stands at the end of a ledger that its database holds, and its network
service announces that end.  Every move keeps this: the ledger stays, or it grows by a block that was
heard, or by one of the node itself.  So a node that has started without blocks has one chain from
genesis on whatever it hears and whatever fails on the way (`chain_intact`), it never takes a block
back (`chain_grows`), and what it answers to other nodes is a segment of that chain
(`answers_segment`).  The hash it announces stands for all of the chain (`tip_binds_history`).
-/

namespace Kratos

/-- What the hash of a header covers. -/
def BlockHeader.unsigned (h : BlockHeader) : BlockHeader := { h with signature := Signature64.zero }

/-! ## Own blocks -/

namespace BlockProducer

open TransactionExecutor

theorem sameButFunds_executeSelected (cr : Crypto) (block : Nat) (s : StateBackend) (txs : List SignedTransaction) :
    SameButFunds s (executeSelected cr block s txs).1 := by
  induction txs generalizing s with
  | nil => rfl
  | cons tx txs ih => exact SameButFunds.trans _ _ _ (sameButFunds_execute cr s tx block) (ih _)

theorem blockStore_distributeProduced (f : RewardFormulas) (s : StateBackend) (id : AccountId) (epoch : Nat)
    (totalFees : Balance) : (distributeProduced f s id epoch totalFees).blockStore = s.blockStore := by
  unfold distributeProduced
  simp only
  split_ifs
  · rfl
  · rfl
  · rfl

/-- What production leaves of the chain: all of it, and the root of the new state. -/
theorem blockStore_produceBlock (cr : Crypto) (f : RewardFormulas) (s : StateBackend) (selected : List SignedTransaction)
    (id : AccountId) (epoch block : Nat) :
    (Kratos.produceBlock cr f s selected id epoch block).state.blockStore =
      { s.blockStore with
        roots := s.blockStore.roots.insert block (Kratos.produceBlock cr f s selected id epoch block).stateRoot } := by
  have hrun := StateBackend.blockStore_of_sameButFunds _ _ (sameButFunds_executeSelected cr block s selected)
  have hpaid := blockStore_distributeProduced f (executeSelected cr block s selected).1 id epoch
    (sumFees (executeSelected cr block s selected).2.2)
  rw [← hrun, ← hpaid]
  rfl

/-- A block of a producer. -/
structure Builds (cr : Crypto) (n p : ProducingNode) (parent block : Block) (id : AccountId) (epoch slot : Nat) :
    Prop where
  number : block.header.number = parent.header.number + 1
  parentHash : block.header.parentHash = parent.hash cr
  author : block.header.author = id
  epoch_eq : block.header.epoch = epoch
  slot_eq : block.header.slot = slot
  produced : ∃ (f : RewardFormulas) (order : PopOrder PrioritizedTx.cmp) (now : Nat),
    produceBlock cr f order now n parent id epoch slot = (p, .ok block)
  unsigned : n.producer.hasSignedSlot epoch slot = false
  signed : p.producer.signedSlots = n.producer.signedSlots.insert (toLex (epoch, slot)) (block.hash cr)
  store : ∃ root : StateRoot, root.root = block.header.stateRoot ∧
    p.state.blockStore = { n.state.blockStore with roots := n.state.blockStore.roots.insert block.header.number root }

theorem builds_produceBlock (cr : Crypto) (f : RewardFormulas) (order : PopOrder PrioritizedTx.cmp) (now : Nat)
    (n p : ProducingNode) (parent block : Block) (id : AccountId) (epoch slot : Nat)
    (h : produceBlock cr f order now n parent id epoch slot = (p, .ok block)) :
    Builds cr n p parent block id epoch slot := by
  have hproduced := h
  unfold produceBlock at h
  split at h
  · cases h
  · next hunsigned =>
    split at h
    · cases h
    · cases h
      exact ⟨rfl, rfl, rfl, rfl, rfl, ⟨f, order, now, hproduced⟩, by simpa using hunsigned, rfl, _, rfl,
        blockStore_produceBlock cr f _ _ _ _ _⟩

end BlockProducer

namespace KratOsNode

variable {σ : Type} {e : Setup σ} {w : Surroundings} {P : Block → Prop}

/-- The node stands at the end of the ledger, and its network service says so. -/
structure Intact {cr : Crypto} (L : Ledger cr) (s : KratOsNode) : Prop where
  node : s.node.Holds L
  localHeight : s.network.localHeight = s.node.chainHeight
  localHash : ∀ b, L.blocks.getLast? = some b → s.network.localHash = b.hash cr
  syncHeight : s.network.syncManager.localHeight = s.node.chainHeight

/-- Where a block comes from: it was heard, or the node has made it. -/
def Origin (e : Setup σ) (P : Block → Prop) (b : Block) : Prop :=
  (∃ c, P c ∧ b = c.stored) ∨ ∃ key, e.validatorKey = some key ∧ b.header.author = key.id

/-- A ledger that continues another with blocks of known origin. -/
def Continues (e : Setup σ) (P : Block → Prop) (L L' : Ledger e.cr) : Prop :=
  ∃ bs, L'.blocks = L.blocks ++ bs ∧ ∀ b ∈ bs, Origin e P b

theorem Continues.refl (L : Ledger e.cr) : Continues e P L L := ⟨[], by simp, by simp⟩

theorem Continues.trans {L M N : Ledger e.cr} (h : Continues e P L M) (h' : Continues e P M N) :
    Continues e P L N := by
  obtain ⟨bs, hbs, horigin⟩ := h
  obtain ⟨cs, hcs, horigin'⟩ := h'
  refine ⟨bs ++ cs, by rw [hcs, hbs, List.append_assoc], fun b hb => ?_⟩
  rcases List.mem_append.mp hb with hold | hnew
  · exact horigin b hold
  · exact horigin' b hnew

theorem Continues.one {L L' : Ledger e.cr} (b : Block) (h : L'.blocks = L.blocks ++ [b]) (hb : Origin e P b) :
    Continues e P L L' := by
  refine ⟨[b], h, fun c hc => ?_⟩
  rw [List.mem_singleton] at hc
  rw [hc]
  exact hb

/-! ## Moves -/

/-- A block that does not follow leaves the node alone. -/
theorem node_importBlock_of_unlinked (s : KratOsNode) (b : Block)
    (h : ∀ parent, ¬ Node.Linked e.cr s.node b parent) : (s.importBlock e w b).1.node = s.node := by
  have hnode := Node.importBlock_unlinked e.cr e.rewards w.now s.node b h
  unfold importBlock
  split
  · next heq =>
    rw [heq] at hnode
    exact hnode
  · next heq =>
    rw [heq] at hnode
    split
    · rfl
    · exact hnode

theorem Intact.network {L : Ledger e.cr} {s : KratOsNode} (h : s.Intact L) (n : NetworkService)
    (hn : NetworkService.Moves e.cr P s.node.chainHeight s.network n) :
    ({ s with network := n } : KratOsNode).Intact L := by
  refine ⟨h.node, hn.localHeight.trans h.localHeight, fun b hb => hn.localHash.trans (h.localHash b hb), ?_⟩
  rcases hn.syncHeight with hsame | hset
  · exact hsame.trans h.syncHeight
  · exact hset

theorem intact_importBlock {L : Ledger e.cr} (s : KratOsNode) (b : Block) (h : s.Intact L) :
    ∃ L' : Ledger e.cr, (s.importBlock e w b).1.Intact L' ∧ (L' = L ∨ L'.blocks = L.blocks ++ [b.stored]) := by
  rcases Node.importBlock_holds e.rewards w.now s.node b h.node with
    ⟨hsame, herr⟩ | ⟨hok, hheight, L', hblocks, hholds⟩
  · refine ⟨L, ?_, Or.inl rfl⟩
    unfold importBlock
    split
    · next node err himport =>
      rw [himport] at hsame
      exact ⟨h.node.congr hsame.store hsame.height hsame.current, h.localHeight.trans hsame.height.symm, h.localHash,
        h.syncHeight.trans hsame.height.symm⟩
    · next node himport =>
      rw [himport] at herr
      exact absurd rfl herr
  · refine ⟨L', ?_, Or.inr hblocks⟩
    -- the ledger has grown by one block, so the block is the one after the current one
    have hnumber : b.header.number = s.node.chainHeight + 1 := by
      rw [← hheight, hholds.height, h.node.height]
      have hlength := congrArg List.length hblocks
      rw [List.length_append, List.length_singleton, L.length_blocks, L'.length_blocks] at hlength
      omega
    have hnew := h.node.not_stored b hnumber
    unfold importBlock
    split
    · next node err himport =>
      rw [himport] at hok
      cases hok
    · next node himport =>
      rw [himport] at hheight hholds
      rw [hnew]
      refine ⟨hholds, hheight.symm, fun c hc => ?_, hheight.symm⟩
      rw [hblocks, List.getLast?_concat, Option.some.injEq] at hc
      rw [← hc]
      rfl

theorem blockStore_committed (cr : Crypto) (t : StateBackend) (d : BlockStore) (b : Block) (root : StateRoot)
    (h : t.blockStore = { d with roots := d.roots.insert b.header.number root }) :
    ((t.storeBlock cr b).setBestBlock b.header.number).blockStore = d.push cr b root := by
  have hpush : ((t.storeBlock cr b).setBestBlock b.header.number).blockStore =
      { byHash := t.blockStore.byHash.insert (b.hash cr) b.stored
        byNumber := t.blockStore.byNumber.insert b.header.number b.stored
        hashes := t.blockStore.hashes.insert b.header.number (b.hash cr)
        roots := t.blockStore.roots, best := some b.header.number } := rfl
  rw [hpush, h]
  rfl

theorem intact_storeProducedBlock {L : Ledger e.cr} (s t : KratOsNode) (parent b : Block) (root : StateRoot)
    (h : s.Intact L) (hparent : s.node.currentBlock = some parent) (hnumber : b.header.number = parent.header.number + 1)
    (hhash : b.header.parentHash = parent.hash e.cr) (hroot : root.root = b.header.stateRoot)
    (hstore : t.node.storage.blockStore =
      { s.node.storage.blockStore with roots := s.node.storage.blockStore.roots.insert b.header.number root }) :
    ∃ L' : Ledger e.cr, (t.storeProducedBlock e b).Intact L' ∧ L'.blocks = L.blocks ++ [b.stored] := by
  obtain ⟨c, hc, htip⟩ := h.node.current
  rw [hparent, Option.some.injEq] at hc
  have hheight : parent.header.number = L.height := by
    rw [hc]
    exact L.number_tip c.stored htip
  rw [hheight] at hnumber
  rw [hc] at hhash
  refine ⟨L.extend b.stored c.stored htip hnumber hhash, ?_, rfl⟩
  have hvotes := Node.sameChain_processVotes b.header.number
    { t.node with storage := (t.node.storage.storeBlock e.cr b).setBestBlock b.header.number } b.body.transactions
  have hcommitted := blockStore_committed e.cr t.node.storage s.node.storage.blockStore b root hstore
  refine ⟨⟨?_, ?_, b, rfl, List.getLast?_concat⟩, rfl, fun d hd => ?_, rfl⟩
  · change (List.foldl (Node.processVote b.header.number) _ b.body.transactions).storage.blockStore.Holds _
    rw [hvotes.store, hcommitted]
    exact h.node.store.push b c.stored root htip hnumber hhash hroot
  · change b.header.number = (L.blocks ++ [b.stored]).length - 1
    rw [hnumber, List.length_append, List.length_singleton, L.length_blocks]
    omega
  · change (L.blocks ++ [b.stored]).getLast? = some d at hd
    rw [List.getLast?_concat, Option.some.injEq] at hd
    rw [← hd]
    rfl

variable [LinearOrder σ]

/-- Production stores nothing, or the block after the current one. -/
theorem tryProduceBlock_cases (s : KratOsNode) (key : ValidatorKey) (canProduce : Bool) (epoch slot : Nat) :
    s.tryProduceBlock e w key canProduce epoch slot = (s, none) ∨
      ∃ p parent block, s.node.currentBlock = some parent ∧
        BlockProducer.Builds e.cr (s.producing key) p parent block key.id epoch slot ∧
        s.tryProduceBlock e w key canProduce epoch slot =
          (({ s with node := { s.node with storage := p.state }, mempool := p.mempool
                     signedSlots := p.producer.signedSlots } : KratOsNode).storeProducedBlock e block, some block) := by
  unfold tryProduceBlock
  split_ifs
  · exact Or.inl rfl
  · exact Or.inl rfl
  · split
    · exact Or.inl rfl
    · next parent hparent =>
      split_ifs
      · exact Or.inl rfl
      · split
        · split
          · next p block hproduced =>
            exact Or.inr ⟨p, parent, block, hparent,
              BlockProducer.builds_produceBlock _ _ _ _ _ _ _ _ _ _ _ hproduced, rfl⟩
          · exact Or.inl rfl
        · exact Or.inl rfl

/-- A tick of the slot timer does nothing, or the block after the current one is stored and announced. -/
theorem slotTick_cases (s : KratOsNode) (canProduce : Bool) :
    s.slotTick e w canProduce = s ∨
      ∃ key p parent block, e.validatorKey = some key ∧ s.node.currentBlock = some parent ∧
        BlockProducer.Builds e.cr (s.producing key) p parent block key.id (s.node.chainHeight / slotsPerEpoch)
          ((w.now - e.genesisTimestamp) / slotDurationSecs) ∧
        ∃ t : KratOsNode, t = ({ s with node := { s.node with storage := p.state }, mempool := p.mempool
                                        signedSlots := p.producer.signedSlots } : KratOsNode).storeProducedBlock e block ∧
          s.slotTick e w canProduce = { t with network := t.network.broadcastBlock block } := by
  unfold slotTick
  split
  · exact Or.inl rfl
  · next key hkey =>
    simp only
    split_ifs
    · exact Or.inl rfl
    · exact Or.inl rfl
    · rcases s.tryProduceBlock_cases (e := e) (w := w) key canProduce (s.node.chainHeight / slotsPerEpoch)
        ((w.now - e.genesisTimestamp) / slotDurationSecs) with heq | ⟨p, parent, block, hparent, hbuilds, heq⟩
      · rw [heq]
        exact Or.inl rfl
      · rw [heq]
        exact Or.inr ⟨key, p, parent, block, hkey, hparent, hbuilds, _, rfl, rfl⟩

/-- **Move.** -/
theorem intact_move {L : Ledger e.cr} {s s' : KratOsNode} (hmove : Move e w P s s') (h : s.Intact L) :
    ∃ L' : Ledger e.cr, s'.Intact L' ∧ Continues e P L L' := by
  cases hmove with
  | network n hn => exact ⟨L, h.network n hn, .refl L⟩
  | pool mempool => exact ⟨L, ⟨h.node, h.localHeight, h.localHash, h.syncHeight⟩, .refl L⟩
  | imports b hb =>
    obtain ⟨L', hL', heq | hgrown⟩ := s.intact_importBlock (w := w) b h
    · rw [heq] at hL'
      exact ⟨L, hL', .refl L⟩
    · exact ⟨L', hL', .one b.stored hgrown (Or.inl ⟨b, hb, rfl⟩)⟩
  | ticks canProduce =>
    rcases s.slotTick_cases (e := e) (w := w) canProduce with
      heq | ⟨key, p, parent, block, hkey, hparent, hbuilds, t, ht, heq⟩
    · rw [heq]
      exact ⟨L, h, .refl L⟩
    · obtain ⟨root, hroot, hstore⟩ := hbuilds.store
      obtain ⟨L', hL', hgrown⟩ := intact_storeProducedBlock s
        { s with node := { s.node with storage := p.state }, mempool := p.mempool
                 signedSlots := p.producer.signedSlots }
        parent block root h hparent hbuilds.number hbuilds.parentHash hroot hstore
      rw [← ht] at hL'
      rw [heq]
      exact ⟨L', ⟨hL'.node, hL'.localHeight, hL'.localHash, hL'.syncHeight⟩,
        .one block.stored hgrown (Or.inr ⟨key, hkey, hbuilds.author⟩)⟩

theorem intact_moves {L : Ledger e.cr} {s s' : KratOsNode} (hmoves : Moves e w P s s') (h : s.Intact L) :
    ∃ L' : Ledger e.cr, s'.Intact L' ∧ Continues e P L L' := by
  induction hmoves with
  | refl => exact ⟨L, h, .refl L⟩
  | tail _ hmove ih =>
    obtain ⟨M, hM, hcontinues⟩ := ih
    obtain ⟨N, hN, hmore⟩ := intact_move hmove hM
    exact ⟨N, hN, hcontinues.trans hmore⟩

/-! ## Runs -/

/-- An input of a node that stays up and hears blocks of `P`. -/
def Admits (P : Block → Prop) (i : Surroundings × NodeInput) : Prop :=
  (∀ validators, i.2 ≠ .restart validators) ∧ ∀ b ∈ i.2.blocks, P b

/-- The invariant rule for runs of a node. -/
theorem run_inv (A : Surroundings × NodeInput → Prop) (Inv : KratOsNode → Prop)
    (hstep : ∀ w i s s', Inv s → A (w, i) → s.step e w i = some s' → Inv s') (s s' : KratOsNode)
    (l : List (Surroundings × NodeInput)) (hs : Inv s) (hl : ∀ i ∈ l, A i) (hrun : s.run e l = some s') : Inv s' :=
  Run.inv_foldlM (fun (s : KratOsNode) (i : Surroundings × NodeInput) => s.step e i.1 i.2) A Inv
    (fun s s' i hs hi h => hstep i.1 i.2 s s' hs hi h) s s' l hs hl hrun

/-- **Run.** -/
theorem intact_run {L : Ledger e.cr} (s s' : KratOsNode) (l : List (Surroundings × NodeInput)) (h : s.Intact L)
    (hears : s.Hears e.cr P) (hl : ∀ i ∈ l, Admits P i) (hrun : s.run e l = some s') :
    s'.Hears e.cr P ∧ ∃ L' : Ledger e.cr, s'.Intact L' ∧ Continues e P L L' := by
  refine run_inv (Admits P) (fun s' => s'.Hears e.cr P ∧ ∃ L' : Ledger e.cr, s'.Intact L' ∧ Continues e P L L') ?_ s s' l
    ⟨hears, L, h, .refl L⟩ hl hrun
  rintro w i t t' ⟨ht, M, hM, hcontinues⟩ ⟨hstays, hblocks⟩ hstep
  have hmoves := moves_step t t' i ht hblocks hstays hstep
  obtain ⟨N, hN, hmore⟩ := intact_moves hmoves hM
  exact ⟨ht.moves hmoves, N, hN, hcontinues.trans hmore⟩

/-! ## From the start -/

/-- The database of a node that starts for the first time knows of no block. -/
structure Blank (storage : StateBackend) : Prop where
  byHash : storage.blocksByHash = .empty
  byNumber : storage.blocksByNumber = .empty
  hashes : storage.blockHashes = .empty
  best : storage.bestBlock = none

theorem intact_start (cr : Crypto) (millis : Nat) (signedSlots : SortedMap (Nat ×ₗ Nat) Hash) (storage : StateBackend)
    (validators : ValidatorSet) (genesis : Block) (hblank : Blank storage) (hzero : genesis.header.number = 0) :
    (start cr millis signedSlots storage validators genesis).Intact (Ledger.single genesis.stored hzero : Ledger cr) := by
  have hnone : storage.getBlockByNumber 0 = none := by
    unfold StateBackend.getBlockByNumber
    rw [hblank.byNumber]
    rfl
  have hstart : start cr millis signedSlots storage validators genesis =
      { node := { storage := storage.storeBlock cr genesis, validators, chainHeight := 0, currentBlock := some genesis }
        mempool := .withConfig .default
        network := (NetworkService.new millis (genesis.hash cr)).updateLocalState 0 (genesis.hash cr)
        signedSlots } := by
    unfold start
    rw [if_pos hnone]
  have hget : ∀ n, [genesis.stored][n]? = if n = 0 then some genesis.stored else none := by
    intro n
    cases n with
    | zero => rfl
    | succ n => rfl
  rw [hstart]
  refine ⟨⟨?_, rfl, genesis, rfl, rfl⟩, rfl, fun b hb => ?_, rfl⟩
  · refine
      { byNumber := fun n => ?_
        byHash := fun hash b hb => ?_
        reachable := fun b hb => ?_
        hashes := fun n => ?_
        roots := fun n b hn hb => ?_
        best := ?_ }
    · change (storage.blocksByNumber.insert genesis.header.number genesis.stored).find? n = [genesis.stored][n]?
      rw [hblank.byNumber, SortedMap.find?_insert, hzero, hget]
      rfl
    · change (storage.blocksByHash.insert (genesis.hash cr) genesis.stored).find? hash = some b at hb
      rw [hblank.byHash, SortedMap.find?_insert] at hb
      split at hb
      · next heq =>
        cases hb
        exact ⟨List.mem_cons_self, heq.symm⟩
      · cases hb
    · have hb' : b = genesis.stored := List.mem_singleton.mp hb
      refine ⟨genesis.stored, ?_⟩
      change (storage.blocksByHash.insert (genesis.hash cr) genesis.stored).find? (b.hash cr) = _
      rw [hb', SortedMap.find?_insert]
      exact if_pos rfl
    · change (storage.blockHashes.insert genesis.header.number (genesis.hash cr)).find? n =
        [genesis.stored][n]?.map (Block.hash cr)
      rw [hblank.hashes, SortedMap.find?_insert, hzero, hget]
      split
      · rfl
      · rfl
    · change [genesis.stored][n]? = some b at hb
      rw [hget, if_neg (by omega)] at hb
      cases hb
    · change storage.bestBlock.getD 0 = 0
      rw [hblank.best]
      rfl
  · cases hb
    rfl

theorem hears_start (cr : Crypto) (millis : Nat) (signedSlots : SortedMap (Nat ×ₗ Nat) Hash) (storage : StateBackend)
    (validators : ValidatorSet) (genesis : Block) :
    (start cr millis signedSlots storage validators genesis).Hears cr P := by
  refine ⟨fun ev hev => ?_, fun k b hb => ?_⟩
  · cases hev
  · cases hb

variable (millis : Nat) (signedSlots : SortedMap (Nat ×ₗ Nat) Hash) (storage : StateBackend)
  (validators : ValidatorSet) (genesis : Block) (l : List (Surroundings × NodeInput))

/-- The ledger that a run from the start ends with, over primitives that are known by another name. -/
theorem ledger_of_run (cr : Crypto) (hcr : e.cr = cr) (s : KratOsNode) (hblank : Blank storage)
    (hzero : genesis.header.number = 0) (hl : ∀ i ∈ l, Admits P i)
    (hrun : (start e.cr millis signedSlots storage validators genesis).run e l = some s) :
    s.Hears cr P ∧ ∃ L : Ledger cr, s.Intact L ∧
      ∃ bs, L.blocks = genesis.stored :: bs ∧ ∀ b ∈ bs, Origin e P b := by
  subst hcr
  obtain ⟨hears, L, hL, bs, hbs, horigin⟩ := intact_run _ s l
    (intact_start e.cr millis signedSlots storage validators genesis hblank hzero)
    (hears_start e.cr millis signedSlots storage validators genesis) hl hrun
  exact ⟨hears, L, hL, bs, hbs, horigin⟩

/-- **One chain.**  In every run from the start, whatever blocks arrive in whatever order and however many
imports fail, the database holds one chain from genesis on and nothing else under its keys; the node
stands at its end and announces it, and every block after genesis was heard or is its own. -/
theorem chain_intact (e : Setup σ) (P : Block → Prop) (s : KratOsNode) (hblank : Blank storage)
    (hzero : genesis.header.number = 0) (hl : ∀ i ∈ l, Admits P i)
    (hrun : (start e.cr millis signedSlots storage validators genesis).run e l = some s) :
    ∃ L : Ledger e.cr, s.Intact L ∧ ∃ bs, L.blocks = genesis.stored :: bs ∧ ∀ b ∈ bs, Origin e P b :=
  (ledger_of_run millis signedSlots storage validators genesis l e.cr rfl s hblank hzero hl hrun).2

/-! ### A validator on its own -/

/-- One validator that leads every slot. -/
def sampleSetup : Setup Nat :=
  { cr := Crypto.sample, rewards := RewardFormulas.sample, checks := false, heapOrder := TransactionPool.sampleOrder
    mapOrder := .stored, scoring := sampleScoring, validatorKey := some ⟨⟨1⟩, fun _ => Signature64.zero⟩
    genesisTimestamp := 0 }

def sampleStorage : StateBackend := (StateBackend.new.initDriftTracker 0).initializeBootstrapVc ⟨1⟩ 0 0

theorem blank_sampleStorage : Blank sampleStorage := ⟨rfl, rfl, rfl, rfl⟩

def sampleStart : KratOsNode := start Crypto.sample 0 .empty sampleStorage BlockProducer.sampleValidators Node.sampleGenesis

/-- The first slot. -/
def sampleTick : Surroundings × NodeInput := (⟨6, 0, false⟩, .slotTick true)

/-- It has stored and announced its first block. -/
def sampleOne : KratOsNode := sampleStart.slotTick sampleSetup ⟨6, 0, false⟩ true

def sampleFirst : Block := sampleOne.node.currentBlock.getD Node.sampleGenesis

theorem admits_sampleTick (P : Block → Prop) : ∀ i ∈ [sampleTick], Admits P i := by
  intro i hi
  rw [List.mem_singleton] at hi
  rw [hi]
  refine ⟨fun v hv => ?_, fun b hb => ?_⟩
  · cases hv
  · cases hb

theorem chain_intact_own :
    ∃ L : Ledger Crypto.sample, sampleOne.Intact L ∧
      ∃ bs, L.blocks = Node.sampleGenesis.stored :: bs ∧ ∀ b ∈ bs, Origin sampleSetup (fun _ => False) b :=
  chain_intact 0 .empty sampleStorage BlockProducer.sampleValidators Node.sampleGenesis [sampleTick] sampleSetup
    (fun _ => False) sampleOne blank_sampleStorage rfl (admits_sampleTick _) rfl

/-- A node that does not produce. -/
def sampleObserver : Setup Nat := { sampleSetup with validatorKey := none }

/-- The first block of the validator arrives, and is imported. -/
def sampleHeard : List (Surroundings × NodeInput) :=
  [(⟨6, 0, false⟩, .newBlock sampleFirst), (⟨6, 0, false⟩, .nextEvent)]

theorem admits_sampleHeard (P : Block → Prop) (h : P sampleFirst.stored) : ∀ i ∈ sampleHeard, Admits P i := by
  intro i hi
  simp only [sampleHeard, List.mem_cons, List.not_mem_nil, or_false] at hi
  rcases hi with rfl | rfl
  · refine ⟨fun v hv => ?_, fun b hb => ?_⟩
    · cases hv
    · rw [List.mem_singleton.mp hb]
      exact h
  · refine ⟨fun v hv => ?_, fun b hb => ?_⟩
    · cases hv
    · cases hb

theorem eq_some_getD {α : Type} (o : Option α) (d : α) (h : o.isSome = true) : o = some (o.getD d) := by
  obtain ⟨a, rfl⟩ := Option.isSome_iff_exists.mp h
  rfl

/-! ## Answers -/

/-- What an intact node answers to a request for blocks. -/
theorem serveSync_of_intact (checks : Bool) {cr : Crypto} {L : Ledger cr} (s : KratOsNode) (h : s.Intact L)
    (hheight : s.node.chainHeight + 1 < 2 ^ 64) (fromBlock maxBlocks : Nat)
    (hfits : fromBlock + min maxBlocks maxSyncBlocks < 2 ^ 64) :
    NetworkService.serveSync checks s.node.storage s.network fromBlock maxBlocks =
      some { blocks := (L.blocks.drop fromBlock).take (min maxBlocks maxSyncBlocks)
             hasMore := decide (((L.blocks.drop fromBlock).take (min maxBlocks maxSyncBlocks)).length =
               min maxBlocks maxSyncBlocks)
             bestHeight := s.node.chainHeight } := by
  have hbest : s.node.storage.getBestBlock.getD 0 + 1 = L.blocks.length := by
    rw [L.length_blocks, ← h.node.store.best]
    rfl
  have hlength : L.blocks.length < 2 ^ 64 := by
    rw [L.length_blocks, ← h.node.height]
    exact hheight
  have hrange := s.node.storage.getBlocksRange_of_holds checks L.blocks h.node.store.byNumber hbest hlength fromBlock
    (min maxBlocks maxSyncBlocks) hfits
  unfold NetworkService.serveSync
  simp only [hrange, Option.map_some, h.localHeight]

/-- **Nothing is taken back.**  From any moment of a run to a later one the height does not fall, a block that
was served under a number is served under it, and a range is answered with what was answered before, and
perhaps more. -/
theorem chain_grows (e : Setup σ) (s s' : KratOsNode) (l' : List (Surroundings × NodeInput)) (hblank : Blank storage)
    (hzero : genesis.header.number = 0) (hl : ∀ i ∈ l ++ l', ∀ validators, i.2 ≠ .restart validators)
    (hrun : (start e.cr millis signedSlots storage validators genesis).run e l = some s) (hrun' : s.run e l' = some s')
    (hheight : s'.node.chainHeight + 1 < 2 ^ 64) :
    s.node.chainHeight ≤ s'.node.chainHeight ∧
    (∀ n b, NetworkService.serveBlock s.node.storage (.byNumber n) = .block b →
      NetworkService.serveBlock s'.node.storage (.byNumber n) = .block b) ∧
    ∀ fromBlock maxBlocks r, fromBlock + min maxBlocks maxSyncBlocks < 2 ^ 64 →
      NetworkService.serveSync e.checks s.node.storage s.network fromBlock maxBlocks = some r →
      ∃ r', NetworkService.serveSync e.checks s'.node.storage s'.network fromBlock maxBlocks = some r' ∧
        r.blocks <+: r'.blocks ∧ r.bestHeight ≤ r'.bestHeight := by
  have hadmits : ∀ i ∈ l ++ l', Admits (fun _ => True) i := fun i hi => ⟨hl i hi, fun _ _ => trivial⟩
  obtain ⟨hears, L, hL, -⟩ := ledger_of_run millis signedSlots storage validators genesis l e.cr rfl s hblank hzero
    (fun i hi => hadmits i (List.mem_append_left l' hi)) hrun
  obtain ⟨-, L', hL', bs, hbs, -⟩ := intact_run s s' l' hL hears
    (fun i hi => hadmits i (List.mem_append_right l hi)) hrun'
  have hgrown : L.blocks <+: L'.blocks := by
    rw [hbs]
    exact List.prefix_append _ _
  have hle : s.node.chainHeight ≤ s'.node.chainHeight := by
    rw [hL.node.height, hL'.node.height]
    have := hgrown.length_le
    rw [L.length_blocks, L'.length_blocks] at this
    omega
  refine ⟨hle, fun n b hb => ?_, fun fromBlock maxBlocks r hfits hr => ?_⟩
  · have hstore : s.node.storage.getBlockByNumber n = L.blocks[n]? := hL.node.store.byNumber n
    have hstore' : s'.node.storage.getBlockByNumber n = L'.blocks[n]? := hL'.node.store.byNumber n
    unfold NetworkService.serveBlock at hb ⊢
    simp only [hstore] at hb
    cases hget : L.blocks[n]? with
    | none =>
      rw [hget] at hb
      cases hb
    | some c =>
      rw [hget] at hb
      cases hb
      have hkept : L'.blocks[n]? = some b := by
        rw [hbs, List.getElem?_append_left (List.getElem?_eq_some_iff.mp hget).1]
        exact hget
      simp only [hstore', hkept]
      rfl
  · rw [serveSync_of_intact e.checks s hL (by omega) fromBlock maxBlocks hfits, Option.some.injEq] at hr
    refine ⟨_, serveSync_of_intact e.checks s' hL' hheight fromBlock maxBlocks hfits, ?_, ?_⟩
    · rw [← hr]
      exact (hgrown.drop fromBlock).take _
    · rw [← hr]
      exact hle

/-- One block higher than genesis. -/
theorem height_sampleOne : sampleOne.node.chainHeight + 1 < 2 ^ 64 := by
  decide +kernel

/-- The validator takes nothing back when it stores its first block. -/
theorem chain_grows_own :
    sampleStart.node.chainHeight ≤ sampleOne.node.chainHeight ∧
    (∀ n b, NetworkService.serveBlock sampleStart.node.storage (.byNumber n) = .block b →
      NetworkService.serveBlock sampleOne.node.storage (.byNumber n) = .block b) ∧
    ∀ fromBlock maxBlocks r, fromBlock + min maxBlocks maxSyncBlocks < 2 ^ 64 →
      NetworkService.serveSync false sampleStart.node.storage sampleStart.network fromBlock maxBlocks = some r →
      ∃ r', NetworkService.serveSync false sampleOne.node.storage sampleOne.network fromBlock maxBlocks = some r' ∧
        r.blocks <+: r'.blocks ∧ r.bestHeight ≤ r'.bestHeight :=
  chain_grows 0 .empty sampleStorage BlockProducer.sampleValidators Node.sampleGenesis [] sampleSetup sampleStart sampleOne
    [sampleTick] blank_sampleStorage rfl (fun i hi => (admits_sampleTick (fun _ => True) i hi).1) rfl rfl
    height_sampleOne

/-- A request whose range does not fit stops a checking build; the other one answers it with nothing. -/
theorem serveSync_of_overflow (storage : StateBackend) (n : NetworkService) (fromBlock maxBlocks : Nat)
    (hfrom : fromBlock < 2 ^ 64) (hlong : 2 ^ 64 ≤ fromBlock + min maxBlocks maxSyncBlocks) :
    NetworkService.serveSync true storage n fromBlock maxBlocks = none ∧
      NetworkService.serveSync false storage n fromBlock maxBlocks =
        some { blocks := [], hasMore := false, bestHeight := n.localHeight } := by
  have hmax : min maxBlocks maxSyncBlocks < 2 ^ 64 := lt_of_le_of_lt (min_le_right _ _) (by decide)
  have hsome : ¬ 0 = min maxBlocks maxSyncBlocks := by omega
  obtain ⟨hstops, hempty⟩ := storage.getBlocksRange_of_overflow fromBlock (min maxBlocks maxSyncBlocks) hfrom hmax hlong
  unfold NetworkService.serveSync
  simp only [hstops, hempty, Option.map_none, Option.map_some, List.length_nil, hsome, decide_false, and_self]

/-- **Answers.**  In every run a request for blocks, if the end of its range fits, is answered with the blocks from
the one asked for on, a hundred at most and as many as there are, each naming the one before; the claim that there
is more is made exactly for a full answer.  If the end does not fit, a checking build stops, and the other one
answers with no block. -/
theorem answers_segment (e : Setup σ) (s : KratOsNode) (hblank : Blank storage) (hzero : genesis.header.number = 0)
    (hl : ∀ i ∈ l, ∀ validators, i.2 ≠ .restart validators)
    (hrun : (start e.cr millis signedSlots storage validators genesis).run e l = some s)
    (hheight : s.node.chainHeight + 1 < 2 ^ 64) (fromBlock maxBlocks : Nat) (hfrom : fromBlock < 2 ^ 64) :
    (fromBlock + min maxBlocks maxSyncBlocks < 2 ^ 64 →
      ∃ r, NetworkService.serveSync e.checks s.node.storage s.network fromBlock maxBlocks = some r ∧
        r.bestHeight = s.node.chainHeight ∧
        r.blocks.length = min (min maxBlocks maxSyncBlocks) (s.node.chainHeight + 1 - fromBlock) ∧
        (r.hasMore = true ↔ r.blocks.length = min maxBlocks maxSyncBlocks) ∧
        (∀ i b, r.blocks[i]? = some b → b.header.number = fromBlock + i) ∧
        HashChain.Chained (Block.hash e.cr) (fun b => b.header.parentHash) r.blocks) ∧
    (2 ^ 64 ≤ fromBlock + min maxBlocks maxSyncBlocks →
      NetworkService.serveSync e.checks s.node.storage s.network fromBlock maxBlocks =
        if e.checks then none else some { blocks := [], hasMore := false, bestHeight := s.node.chainHeight }) := by
  obtain ⟨-, L, hL, -⟩ := ledger_of_run (P := fun _ => True) millis signedSlots storage validators genesis l e.cr rfl s
    hblank hzero (fun i hi => ⟨hl i hi, fun _ _ => trivial⟩) hrun
  refine ⟨fun hfits => ⟨_, serveSync_of_intact e.checks s hL hheight fromBlock maxBlocks hfits, rfl, ?_,
    decide_eq_true_iff, ?_, ?_⟩, fun hlong => ?_⟩
  · rw [List.length_take, List.length_drop, L.length_blocks, hL.node.height]
  · intro i b hb
    rw [List.getElem?_take] at hb
    split at hb
    · rw [List.getElem?_drop] at hb
      exact L.numbered _ b hb
    · cases hb
  · exact (List.IsChain.drop L.linked fromBlock).take _
  · obtain ⟨hstops, hempty⟩ := serveSync_of_overflow s.node.storage s.network fromBlock maxBlocks hfrom hlong
    cases e.checks with
    | true => exact hstops
    | false =>
      rw [hempty, hL.localHeight]
      rfl

/-- The validator answers a request for its chain, and one for blocks at the end of the numbers. -/
theorem answers_segment_own :
    (∃ r, NetworkService.serveSync false sampleOne.node.storage sampleOne.network 0 50 = some r ∧
      r.bestHeight = sampleOne.node.chainHeight ∧
      r.blocks.length = min (min 50 maxSyncBlocks) (sampleOne.node.chainHeight + 1 - 0) ∧
      (r.hasMore = true ↔ r.blocks.length = min 50 maxSyncBlocks) ∧
      (∀ i b, r.blocks[i]? = some b → b.header.number = 0 + i) ∧
      HashChain.Chained (Block.hash Crypto.sample) (fun b => b.header.parentHash) r.blocks) ∧
    NetworkService.serveSync false sampleOne.node.storage sampleOne.network (2 ^ 64 - 1) 50 =
      some { blocks := [], hasMore := false, bestHeight := sampleOne.node.chainHeight } :=
  have hanswers := fun fromBlock maxBlocks hfrom => answers_segment 0 .empty sampleStorage BlockProducer.sampleValidators
    Node.sampleGenesis [sampleTick] sampleSetup sampleOne blank_sampleStorage rfl
    (fun i hi => (admits_sampleTick (fun _ => True) i hi).1) rfl height_sampleOne fromBlock maxBlocks hfrom
  ⟨(hanswers 0 50 (by decide)).1 (by decide), (hanswers (2 ^ 64 - 1) 50 (by decide)).2 (by decide)⟩

/-! ## The tip -/

theorem getBlockByNumber_of_served (storage : StateBackend) (n : Nat) (b : Block) :
    NetworkService.serveBlock storage (.byNumber n) = .block b ↔ storage.getBlockByNumber n = some b := by
  show (storage.getBlockByNumber n).elim BlockResponse.notFound BlockResponse.block = .block b ↔ _
  cases storage.getBlockByNumber n with
  | none => simp
  | some c => simp

/-- **The tip stands for the chain.**  Two nodes that have run from their starts and announce the same best hash
are at the same height and serve the same headers, up to signatures, under all numbers, if no two different headers
that they serve have one hash. -/
theorem tip_binds_history (e e' : Setup σ) (hcr : e'.cr = e.cr) (P : Block → Prop)
    (millis' : Nat) (signedSlots' : SortedMap (Nat ×ₗ Nat) Hash) (storage' : StateBackend) (validators' : ValidatorSet)
    (genesis' : Block) (l' : List (Surroundings × NodeInput)) (s s' : KratOsNode)
    (hblank : Blank storage) (hzero : genesis.header.number = 0) (hl : ∀ i ∈ l, Admits P i)
    (hrun : (start e.cr millis signedSlots storage validators genesis).run e l = some s)
    (hblank' : Blank storage') (hzero' : genesis'.header.number = 0) (hl' : ∀ i ∈ l', Admits P i)
    (hrun' : (start e'.cr millis' signedSlots' storage' validators' genesis').run e' l' = some s')
    (hcollide : ∀ n n' b b', NetworkService.serveBlock s.node.storage (.byNumber n) = .block b →
      NetworkService.serveBlock s'.node.storage (.byNumber n') = .block b' → b.hash e.cr = b'.hash e.cr →
      b.header.unsigned = b'.header.unsigned)
    (hsame : s.network.ownStatus.bestHash = s'.network.ownStatus.bestHash) :
    s.node.chainHeight = s'.node.chainHeight ∧ ∀ n b, NetworkService.serveBlock s.node.storage (.byNumber n) = .block b →
      ∃ b', NetworkService.serveBlock s'.node.storage (.byNumber n) = .block b' ∧
        b'.header.unsigned = b.header.unsigned := by
  obtain ⟨-, L, hL, -⟩ := ledger_of_run millis signedSlots storage validators genesis l e.cr rfl s hblank hzero hl hrun
  obtain ⟨-, L', hL', -⟩ := ledger_of_run millis' signedSlots' storage' validators' genesis' l' e.cr hcr s' hblank'
    hzero' hl' hrun'
  have hserved : ∀ n b, NetworkService.serveBlock s.node.storage (.byNumber n) = .block b ↔ L.blocks[n]? = some b :=
    fun n b => (getBlockByNumber_of_served _ n b).trans (by rw [← hL.node.store.byNumber n]; rfl)
  have hserved' : ∀ n b, NetworkService.serveBlock s'.node.storage (.byNumber n) = .block b ↔ L'.blocks[n]? = some b :=
    fun n b => (getBlockByNumber_of_served _ n b).trans (by rw [← hL'.node.store.byNumber n]; rfl)
  have hkey : ∀ a ∈ L.blocks, ∀ b ∈ L'.blocks, a.hash e.cr = b.hash e.cr → a.header.unsigned = b.header.unsigned := by
    intro a ha b hb hab
    obtain ⟨n, hn⟩ := List.mem_iff_getElem?.mp ha
    obtain ⟨m, hm⟩ := List.mem_iff_getElem?.mp hb
    exact hcollide n m a b ((hserved n a).mpr hn) ((hserved' m b).mpr hm) hab
  -- the tips have one hash, so they have one number
  obtain ⟨a, -, ha⟩ := hL.node.current
  obtain ⟨a', -, ha'⟩ := hL'.node.current
  have htips : a.stored.hash e.cr = a'.stored.hash e.cr := by
    rw [← hL.localHash _ ha, ← hL'.localHash _ ha']
    exact hsame
  have hunsigned := hkey _ (List.mem_of_getLast? ha) _ (List.mem_of_getLast? ha') htips
  have hheight : L.height = L'.height := by
    rw [← L.number_tip a.stored ha, ← L'.number_tip a'.stored ha']
    exact (congrArg BlockHeader.number hunsigned :)
  have hcontent := L.linked.content_eq (fun b : Block => b.header.unsigned) L'.linked hkey
    (fun b _ c _ hbc => (congrArg BlockHeader.parentHash hbc :)) (by rw [L.length_blocks, L'.length_blocks, hheight])
    (by rw [ha, ha', Option.map_some, Option.map_some, htips])
  refine ⟨by rw [hL.node.height, hL'.node.height, hheight], fun n b hb => ?_⟩
  have hget := congrArg (fun m => m[n]?) hcontent
  simp only [List.getElem?_map, (hserved n b).mp hb, Option.map_some] at hget
  obtain ⟨b', hb', heq⟩ := Option.map_eq_some_iff.mp hget.symm
  exact ⟨b', (hserved' n b').mpr hb', heq⟩

theorem mem_blocks_of_served (storage : StateBackend) (n : Nat) (b : Block)
    (h : NetworkService.serveBlock storage (.byNumber n) = .block b) : b ∈ storage.blocksByNumber.values :=
  (SortedMap.mem_values_iff _ b).mpr ⟨n, (getBlockByNumber_of_served storage n b).mp h⟩

/-- The validator that made the first block, and an observer that started later and has imported it. -/
theorem tip_binds_history_imported :
    let s := ((start Crypto.sample 9 .empty sampleStorage BlockProducer.sampleValidators Node.sampleGenesis).run
      sampleObserver sampleHeard).getD sampleStart
    sampleOne.node.chainHeight = 1 ∧ s.node.chainHeight = 1 ∧
      ∀ n b, NetworkService.serveBlock sampleOne.node.storage (.byNumber n) = .block b →
      ∃ b', NetworkService.serveBlock s.node.storage (.byNumber n) = .block b' ∧
        b'.header.unsigned = b.header.unsigned := by
  intro s
  have hheight : sampleOne.node.chainHeight = 1 := by decide +kernel
  have hdistinct : ∀ b ∈ sampleOne.node.storage.blocksByNumber.values, ∀ b' ∈ s.node.storage.blocksByNumber.values,
      b.hash Crypto.sample = b'.hash Crypto.sample → b.header.unsigned = b'.header.unsigned := by
    decide +kernel
  obtain ⟨hsame, hheaders⟩ := tip_binds_history 0 .empty sampleStorage BlockProducer.sampleValidators Node.sampleGenesis
    [sampleTick] sampleSetup sampleObserver rfl (fun _ => True) 9 .empty sampleStorage BlockProducer.sampleValidators
    Node.sampleGenesis sampleHeard sampleOne s blank_sampleStorage rfl (admits_sampleTick _) rfl blank_sampleStorage rfl
    (admits_sampleHeard _ trivial) (eq_some_getD _ _ (by decide +kernel))
    (fun n n' b b' hb hb' => hdistinct b (mem_blocks_of_served _ n b hb) b' (mem_blocks_of_served _ n' b' hb'))
    (by decide +kernel)
  exact ⟨hheight, hsame.symm.trans hheight, hheaders⟩

end KratOsNode

end Kratos
