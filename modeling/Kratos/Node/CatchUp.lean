import Kratos.Node.Replication

/-!
# Catching up

A node that does not produce asks for the block after its own, and a node that holds the chain answers with the fifty
blocks from there on.  They follow each other, so all of them are imported (`importBatch_chain`): every round brings the
node fifty blocks further, and after enough rounds it has the whole chain and the state that goes with it
(`catches_up`).  In a build without overflow checks nothing stops on the way (`exists_drain`).
-/

namespace Kratos

/-! ## Later -/

/-- What is valid stays valid. -/
theorem BlockValidator.validate_later (cr : Crypto) (now now' : Nat) (hle : now ≤ now') (block parent : Block)
    (v : ValidatorSet) (h : validate cr now block parent v = .ok ()) : validate cr now' block parent v = .ok () := by
  rw [validate_ok_iff] at h ⊢
  obtain ⟨hafter, hfuture, hdrift⟩ := (validateTimestamp_ok_iff now block parent).mp h.timestamp
  have hlater : Word.satAdd64 now maxFutureDriftSecs ≤ Word.satAdd64 now' maxFutureDriftSecs :=
    min_le_min_right _ (Nat.add_le_add_right hle _)
  exact { h with
    timestamp := (validateTimestamp_ok_iff now' block parent).mpr ⟨hafter, hfuture.trans hlater, hdrift⟩ }

theorem Node.importBlock_later {cr : Crypto} {f : RewardFormulas} {now : Nat} (n m k : Node) (b parent : Block)
    (now' : Nat) (hle : now ≤ now') (hlink : Linked cr n b parent)
    (hok : importBlock cr f now n b = (m, .ok ())) (hk : k = n ∨ k = n.admitAuthor b) :
    importBlock cr f now' k b = (m, .ok ()) := by
  rw [importBlock_linked cr f now n b parent hlink] at hok
  rw [importBlock_met n k b parent now' hlink hk, importBlock_linked cr f now' n b parent hlink]
  cases hvalid : BlockValidator.validate cr now b parent (n.admitAuthor b).validators with
  | error err =>
    rw [hvalid] at hok
    cases hok
  | ok _ =>
    rw [hvalid] at hok
    rw [BlockValidator.validate_later cr now now' hle b parent _ hvalid]
    exact hok

/-! ## Nothing stops -/

namespace SyncManager

theorem exists_addDownloadedBlock (cr : Crypto) (s : SyncManager) (b : Block) :
    ∃ r, s.addDownloadedBlock false cr b = some r := by
  unfold addDownloadedBlock
  simp only [Word.addW_unchecked, Option.map_some]
  split
  · exact ⟨_, rfl⟩
  · split
    · exact ⟨_, rfl⟩
    · exact ⟨_, rfl⟩

theorem exists_addDownloadedBlocks (cr : Crypto) (blocks : List Block) (s : SyncManager) (n : Nat) :
    ∃ r, addDownloadedBlocks false cr s n blocks = some r := by
  induction blocks generalizing s n with
  | nil => exact ⟨_, rfl⟩
  | cons b blocks ih =>
    obtain ⟨r, hr⟩ := s.exists_addDownloadedBlock cr b
    rw [addDownloadedBlocks, hr]
    exact ih r.1 _

end SyncManager

/-- The buffer hands out a block or none, and the queue stays. -/
theorem NetworkService.exists_nextBufferedBlock (n : NetworkService) :
    ∃ r, n.nextBufferedBlock false = some r ∧ r.1.events = n.events := by
  unfold nextBufferedBlock SyncManager.nextBlockToImport
  rw [Word.addW_unchecked]
  exact ⟨_, rfl, rfl⟩

/-- A response is buffered and put at the end of the queue. -/
theorem NetworkService.exists_handleSyncResponse (cr : Crypto) (w : Surroundings) (n : NetworkService) (r : SyncResponse) :
    ∃ m, n.handleSyncResponse false cr w r = some m ∧ m.events = n.events ++ [.syncBlocksReceived r.blocks r.hasMore] := by
  unfold handleSyncResponse SyncManager.handleSyncResponse
  simp only
  obtain ⟨buffered, hbuffered⟩ := SyncManager.exists_addDownloadedBlocks cr r.blocks
    ({ n with pendingSyncRequests := n.pendingSyncRequests - 1 }.peerHeightUpdate r.bestHeight).syncManager 0
  rw [hbuffered, Option.map_some]
  refine ⟨_, rfl, ?_⟩
  split
  · unfold maybeStartSync
    split_ifs <;> rfl
  · rfl

namespace KratOsNode

variable {σ : Type} {e : Setup σ} {w : Surroundings}

theorem exists_drain (hchecks : e.checks = false) (fuel : Nat) (s : KratOsNode) :
    ∃ s', drain e w fuel s = some s' ∧ s'.network.events = s.network.events := by
  induction fuel generalizing s with
  | zero => exact ⟨s, rfl, rfl⟩
  | succ fuel ih =>
    obtain ⟨⟨n, next⟩, hn, hevents⟩ := (s.network.updateSyncLocalHeight s.node.chainHeight).exists_nextBufferedBlock
    have hkept : n.events = s.network.events := hevents
    rw [drain, hchecks, hn, Option.bind_some]
    cases next with
    | none => exact ⟨_, rfl, hkept⟩
    | some b =>
      simp only
      split
      · have himported := (waiting_importBlock (e := e) (w := w) { s with network := n } b).1
        split
        · next t himport =>
          rw [himport] at himported
          obtain ⟨s', hs', hsame⟩ := ih t
          exact ⟨s', hs', hsame.trans (himported.trans hkept)⟩
        · next t err himport =>
          rw [himport] at himported
          exact ⟨t, rfl, himported.trans hkept⟩
      · exact ⟨_, rfl, hkept⟩

/-! ## One response -/

section Rounds

variable {now : Nat} {n last : Node} {chain : List Block}

/-- The next block of the chain is imported. -/
theorem imports_next (hvalid : n.replay e.cr e.rewards now chain = some last) (s : KratOsNode) (i : Nat) (m : Node)
    (b : Block) (hb : chain[i]? = some b) (hm : n.replay e.cr e.rewards now (chain.take i) = some m)
    (hat : s.node = m ∨ ∃ d, chain[i]? = some d ∧ s.node = m.admitAuthor d) (hnow : now ≤ w.now) :
    b.header.number = s.node.chainHeight + 1 ∧ ∃ s', s.importBlock e w b = (s', .ok ()) ∧
      s'.network.events = s.network.events ∧ n.replay e.cr e.rewards now (chain.take (i + 1)) = some s'.node := by
  obtain ⟨u, parent, hu, hlink, hok⟩ := Node.replay_next n last m chain hvalid i b hb hm
  have hat' := met_next hb hat
  have hlinks := (Node.linked_met m s.node b b parent hat').mpr hlink
  have himport := Node.importBlock_later m u s.node b parent w.now hnow hlink hok hat'
  refine ⟨hlinks.number, (s.importBlock e w b).1, ?_, (s.waiting_importBlock b).1, ?_⟩
  · unfold importBlock
    rw [himport, hlinks.fresh]
    rfl
  · rw [hu]
    unfold importBlock
    rw [himport, hlinks.fresh]
    rfl

/-- **Batch.**  Blocks that continue the chain are all imported. -/
theorem importBatch_chain (hvalid : n.replay e.cr e.rewards now chain = some last) (hnow : now ≤ w.now)
    (currentHeight : Nat) (blocks : List Block) (s : KratOsNode) (i : Nat) (m : Node) (imported : Nat)
    (hblocks : ∀ j b, blocks[j]? = some b → chain[i + j]? = some b) (hi : i ≤ chain.length)
    (hm : n.replay e.cr e.rewards now (chain.take i) = some m)
    (hat : s.node = m ∨ ∃ d, chain[i]? = some d ∧ s.node = m.admitAuthor d)
    (hheight : currentHeight ≤ s.node.chainHeight) :
    ∃ s', importBatch e w currentHeight s imported blocks = some (s', imported + blocks.length) ∧
      s'.network.events = s.network.events ∧ AtReplay e.cr e.rewards now n chain (i + blocks.length) s'.node := by
  induction blocks generalizing s i m imported with
  | nil => exact ⟨s, rfl, rfl, i, m, le_refl _, hi, hm, hat⟩
  | cons b blocks ih =>
    have hb : chain[i]? = some b := hblocks 0 b rfl
    obtain ⟨hnumber, t, himport, hevents, ht⟩ := imports_next hvalid s i m b hb hm hat hnow
    have hlt := (List.getElem?_eq_some_iff.mp hb).1
    have hgrown : currentHeight ≤ t.node.chainHeight := by
      have hbnumber := Node.number_replay n last chain hvalid i b hb
      rw [Node.height_replay n t.node _ ht, List.length_take]
      omega
    obtain ⟨s', hs', hkept, hreplay⟩ := ih t (i + 1) t.node (imported + 1)
      (fun j c hc => by
        have := hblocks (j + 1) c hc
        rwa [Nat.add_assoc, Nat.add_comm 1 j])
      hlt ht (Or.inl rfl) hgrown
    refine ⟨s', ?_, hkept.trans hevents, ?_⟩
    · rw [importBatch, if_neg (by omega), if_pos hnumber, himport]
      simp only [hs', List.length_cons]
      congr 2
      omega
    · rw [List.length_cons]
      rwa [Nat.add_assoc, Nat.add_comm 1] at hreplay

end Rounds

variable [LinearOrder σ]

theorem exists_handleSyncBlocksReceived {P : Block → Prop} (hchecks : e.checks = false) (s t : KratOsNode)
    (imported : Nat) (blocks : List Block) (hasMore : Bool) (hears : t.Hears e.cr P)
    (hbatch : importBatch e w s.node.chainHeight s 0 blocks = some (t, imported)) :
    ∃ s', s.handleSyncBlocksReceived e w blocks hasMore = some s' ∧ s'.network.events = t.network.events ∧
      Moves e w P t s' := by
  have hdrained : ∃ u, (if imported > 0 then t.tryImportBufferedBlocks e w else some t) = some u ∧
      u.network.events = t.network.events ∧ Moves e w P t u := by
    split
    · obtain ⟨u, hu, hevents⟩ := exists_drain (w := w) hchecks (t.network.syncManager.pendingBlocks.size + 1) t
      exact ⟨u, hu, hevents, moves_drain _ t u hears hu⟩
    · exact ⟨t, rfl, rfl, .refl⟩
  obtain ⟨u, hu, hevents, hmoves⟩ := hdrained
  unfold handleSyncBlocksReceived
  rw [hbatch, Option.bind_some]
  simp only [hu, Option.map_some]
  split
  · refine ⟨_, rfl, ?_, hmoves.trans (moves_network u _ (NetworkService.moves_maybeStartSync w u.network))⟩
    refine Eq.trans ?_ hevents
    unfold NetworkService.maybeStartSync
    split_ifs <;> rfl
  · exact ⟨u, rfl, hevents, hmoves⟩

/-! ## Rounds -/

/-- A node asks for the block after its own, gets a response and handles it, some number of times. -/
def catchUp (e : Setup σ) (serve : Nat → SyncResponse) (clock : Nat → Surroundings × Surroundings) (s : KratOsNode) :
    Nat → Option KratOsNode
  | 0 => some s
  | k + 1 =>
    (catchUp e serve clock s k).bind fun t =>
      t.run e [((clock k).1, .syncResponse (serve (t.network.localHeight + 1))), ((clock k).2, .nextEvent)]

/-- What the rounds keep. -/
structure CatchesUp (e : Setup σ) (now : Nat) (n : Node) (chain : List Block) (low : Nat) (s : KratOsNode) : Prop where
  hears : s.Hears e.cr (OnChain e.cr e.rewards now n chain)
  intact : ∃ L : Ledger e.cr, s.Intact L
  idle : s.network.events = []
  reached : AtReplay e.cr e.rewards now n chain low s.node

/-- **Round.** -/
theorem catchesUp_round (hkey : e.validatorKey = none) (hchecks : e.checks = false) (now low : Nat) (n last : Node)
    (chain : List Block) (hvalid : n.replay e.cr e.rewards now chain = some last) (s : KratOsNode)
    (h : CatchesUp e now n chain low s) (r : SyncResponse) (w w' : Surroundings) (hnow : now ≤ w'.now)
    (hr : r.blocks.map Block.stored = (chain.drop (s.node.chainHeight - n.chainHeight)).take 50) :
    ∃ s', s.run e [(w, .syncResponse r), (w', .nextEvent)] = some s' ∧
      CatchesUp e now n chain (min (low + 50) chain.length) s' := by
  obtain ⟨i, m, hlow, hi, hm, hat⟩ := h.reached
  rw [height_met hi hm hat, Nat.add_sub_cancel_left] at hr
  have hadmits : ∀ x ∈ [(w, NodeInput.syncResponse r), (w', NodeInput.nextEvent)],
      Admits (OnChain e.cr e.rewards now n chain) x := by
    intro x hx
    simp only [List.mem_cons, List.not_mem_nil, or_false] at hx
    rcases hx with rfl | rfl
    · refine ⟨fun v hv => ?_, fun b hb => Or.inl ?_⟩
      · cases hv
      · change b ∈ r.blocks.map Block.stored at hb
        rw [hr] at hb
        exact List.mem_of_mem_drop (List.mem_of_mem_take hb)
    · refine ⟨fun v hv => ?_, fun b hb => ?_⟩
      · cases hv
      · cases hb
  -- the response is the only event of the queue
  obtain ⟨net, hnet, hevents⟩ := s.network.exists_handleSyncResponse e.cr w r.received
  rw [h.idle, List.nil_append] at hevents
  rw [← hchecks] at hnet
  have hnetwork : NetworkService.Moves e.cr (OnChain e.cr e.rewards now n chain) s.node.chainHeight s.network net :=
    NetworkService.moves_handleSyncResponse w s.network net r.received (hadmits _ List.mem_cons_self).2 hnet
  have hears : ({ s with network := { net with events := [] } } : KratOsNode).Hears e.cr
      (OnChain e.cr e.rewards now n chain) :=
    ⟨fun ev hev => absurd hev List.not_mem_nil, (h.hears.network hnetwork).buffered⟩
  -- all of its blocks are imported
  obtain ⟨t, hbatch, hkept, hreached⟩ := importBatch_chain (w := w') hvalid hnow s.node.chainHeight
    (r.blocks.map Block.stored) { s with network := { net with events := [] } } i m 0 (fun j b hj => by
      rw [hr, List.getElem?_take] at hj
      split at hj
      · rwa [List.getElem?_drop] at hj
      · cases hj) hi hm hat (le_refl _)
  have hmoved := moves_importBatch _ _ _ t 0 _ hears (hadmits _ List.mem_cons_self).2 hbatch
  obtain ⟨s', hs', hqueue, hmoves⟩ := exists_handleSyncBlocksReceived hchecks
    { s with network := { net with events := [] } } t _ _ r.hasMore (hears.moves hmoved) hbatch
  have hrun : s.run e [(w, .syncResponse r), (w', .nextEvent)] = some s' := by
    change ((s.step e w (.syncResponse r)).bind fun t => (t.step e w' .nextEvent).bind fun u => some u) = some s'
    have hfirst : s.step e w (.syncResponse r) = some { s with network := net } := by
      show (s.network.handleSyncResponse e.checks e.cr w r.received).map _ = _
      rw [hnet, Option.map_some]
    rw [hfirst, Option.bind_some]
    show (({ s with network := net } : KratOsNode).processNetworkEvent e w').bind _ = _
    unfold processNetworkEvent
    simp only [hevents]
    show (KratOsNode.handleSyncBlocksReceived e w' _ (r.blocks.map Block.stored) r.hasMore).bind _ = _
    rw [hs', Option.bind_some]
  obtain ⟨L, hL⟩ := h.intact
  obtain ⟨hhears, L', hL', -⟩ := intact_run s s' _ hL h.hears hadmits hrun
  refine ⟨s', hrun, hhears, ⟨L', hL'⟩, hqueue.trans hkept, ?_⟩
  obtain ⟨j, u, hj, hrest⟩ := atReplay_moves now n last chain t s' hkey hvalid _ hmoves hreached
  refine ⟨j, u, ?_, hrest⟩
  rw [hr, List.length_take, List.length_drop] at hj
  omega

/-- **Catching up.**  A node that does not produce starts from genesis and asks, again and again, for the block after its
own; a server answers with the next fifty blocks of a chain that is valid from its genesis state on.  After `k` rounds it
has imported fifty times `k` blocks, or all there are: then it stands at the end of the chain, in the state that
the chain in order leads to. -/
theorem catches_up (e : Setup σ) (hkey : e.validatorKey = none) (hchecks : e.checks = false) (millis : Nat)
    (signedSlots : SortedMap (Nat ×ₗ Nat) Hash) (storage : StateBackend) (validators : ValidatorSet) (genesis : Block)
    (hblank : Blank storage) (hzero : genesis.header.number = 0) (now : Nat) (chain : List Block) (last : Node)
    (hvalid : (start e.cr millis signedSlots storage validators genesis).node.replay e.cr e.rewards now chain = some last)
    (serve : Nat → SyncResponse)
    (hserve : ∀ fromBlock, 1 ≤ fromBlock →
      (serve fromBlock).blocks.map Block.stored = (chain.drop (fromBlock - 1)).take 50)
    (clock : Nat → Surroundings × Surroundings) (hclock : ∀ k, now ≤ (clock k).2.now) (k : Nat) :
    ∃ s, catchUp e serve clock (start e.cr millis signedSlots storage validators genesis) k = some s ∧
      min (50 * k) chain.length ≤ s.node.chainHeight ∧
      (chain.length ≤ 50 * k → s.node.chainHeight = chain.length ∧ s.node.storage = last.storage ∧
        s.node.currentBlock = last.currentBlock) := by
  have hrounds : ∃ s, catchUp e serve clock (start e.cr millis signedSlots storage validators genesis) k = some s ∧
      CatchesUp e now (start e.cr millis signedSlots storage validators genesis).node chain
        (min (50 * k) chain.length) s := by
    induction k with
    | zero =>
      refine ⟨_, rfl, hears_start e.cr millis signedSlots storage validators genesis,
        ⟨_, intact_start e.cr millis signedSlots storage validators genesis hblank hzero⟩, rfl,
        0, _, by omega, Nat.zero_le _, rfl, Or.inl rfl⟩
    | succ k ih =>
      obtain ⟨s, hs, hkeeps⟩ := ih
      obtain ⟨L, hL⟩ := hkeeps.intact
      have hserved := hserve (s.network.localHeight + 1) (Nat.le_add_left 1 _)
      rw [Nat.add_sub_cancel] at hserved
      have hfrom : s.node.chainHeight - (start e.cr millis signedSlots storage validators genesis).node.chainHeight =
          s.network.localHeight := by
        rw [hL.localHeight]
        exact Nat.sub_zero _
      obtain ⟨t, ht, hnext⟩ := catchesUp_round hkey hchecks now _ _ last chain hvalid s hkeeps
        (serve (s.network.localHeight + 1)) (clock k).1 (clock k).2 (hclock k) (by rw [hfrom]; exact hserved)
      refine ⟨t, ?_, hnext.hears, hnext.intact, hnext.idle, ?_⟩
      · rw [catchUp, hs, Option.bind_some]
        exact ht
      · obtain ⟨j, u, hj, hrest⟩ := hnext.reached
        exact ⟨j, u, by omega, hrest⟩
  obtain ⟨s, hs, hkeeps⟩ := hrounds
  obtain ⟨i, m, hlow, hi, hm, hheight, hstorage, hcurrent⟩ := hkeeps.reached.state
  have hstart : (start e.cr millis signedSlots storage validators genesis).node.chainHeight = 0 := rfl
  refine ⟨s, hs, by omega, fun hall => ?_⟩
  have hend : i = chain.length := by omega
  rw [hend, List.take_length, hvalid, Option.some.injEq] at hm
  rw [hstorage, hcurrent, hm]
  exact ⟨by omega, rfl, rfl⟩

/-- The observer asks once for the first block of the sample validator. -/
theorem catches_up_one :
    ∃ s, catchUp sampleObserver (fun fromBlock => ⟨([sampleFirst].drop (fromBlock - 1)).take 50, false, 1⟩)
        (fun _ => (⟨6, 0, false⟩, ⟨6, 0, false⟩)) sampleStart 1 = some s ∧
      min (50 * 1) 1 ≤ s.node.chainHeight ∧
      (1 ≤ 50 * 1 → s.node.chainHeight = 1 ∧
        s.node.storage = ((sampleStart.node.replay Crypto.sample RewardFormulas.sample 6 [sampleFirst]).getD
          sampleStart.node).storage ∧
        s.node.currentBlock = ((sampleStart.node.replay Crypto.sample RewardFormulas.sample 6 [sampleFirst]).getD
          sampleStart.node).currentBlock) :=
  catches_up sampleObserver rfl rfl 0 .empty sampleStorage BlockProducer.sampleValidators Node.sampleGenesis
    blank_sampleStorage rfl 6 [sampleFirst] _ (eq_some_getD _ sampleStart.node (by decide +kernel)) _
    (fun fromBlock _ => by
      have hstored : [sampleFirst].map Block.stored = [sampleFirst] := by decide +kernel
      rw [List.map_take, List.map_drop, hstored])
    _ (fun _ => le_refl 6) 1

end KratOsNode

end Kratos
