import Kratos.Node.ServiceRun

/-!
# What a step of a node can do

A step is a sequence of moves (`step_moves`): the network service does something that leaves
its idea of the chain alone, the pool changes, a block is imported, or the slot timer ticks.
Where all blocks that arrive come from some set, so do the blocks that wait in the queue and in
the sync buffer (`Hears`), and only such blocks are imported.

Invariants of runs follow from what the moves keep.
-/

namespace Kratos

/-- The blocks an event brings. -/
def NetworkEvent.blocks : NetworkEvent → List Block
  | .blockReceived b => [b]
  | .syncBlocksReceived bs _ => bs
  | .transactionReceived _ => []
  | .syncNeeded => []

/-! ## The sync buffer -/

namespace SyncManager

variable {checks : Bool} {cr : Crypto}

/-- What is buffered was there, or is valid by itself and under its own number. -/
def Buffers (cr : Crypto) (P : Block → Prop) (s s' : SyncManager) : Prop :=
  s'.localHeight = s.localHeight ∧ ∀ k b, s'.pendingBlocks.find? k = some b → s.pendingBlocks.find? k = some b ∨
    P b ∧ b.header.number = k ∧ BlockValidator.validateStandalone cr b = .ok ()

theorem Buffers.refl (P : Block → Prop) (s : SyncManager) : Buffers cr P s s := ⟨rfl, fun _ _ h => Or.inl h⟩

theorem Buffers.trans {P : Block → Prop} {s t u : SyncManager} (h : Buffers cr P s t) (h' : Buffers cr P t u) :
    Buffers cr P s u := by
  refine ⟨h'.1.trans h.1, fun k b hb => ?_⟩
  rcases h'.2 k b hb with hmid | hnew
  · exact h.2 k b hmid
  · exact Or.inr hnew

theorem buffers_addDownloadedBlock (P : Block → Prop) (s s' : SyncManager) (block : Block) (accepted : Bool)
    (hP : P block) (h : s.addDownloadedBlock checks cr block = some (s', accepted)) : Buffers cr P s s' := by
  unfold addDownloadedBlock at h
  simp only at h
  split at h
  · cases h
    exact .refl P s
  · next hvalid =>
    split at h
    · cases h
      exact .refl P s
    · obtain ⟨limit, -, heq⟩ := Option.map_eq_some_iff.mp h
      split at heq
      · cases heq
        exact .refl P s
      · cases heq
        refine ⟨rfl, fun k b hb => ?_⟩
        change (s.pendingBlocks.insert block.header.number block).find? k = some b at hb
        rw [SortedMap.find?_insert] at hb
        split at hb
        · next hk =>
          cases hb
          exact Or.inr ⟨hP, hk.symm, hvalid⟩
        · exact Or.inl hb

theorem buffers_addDownloadedBlocks (P : Block → Prop) (blocks : List Block) (s s' : SyncManager) (n m : Nat)
    (hP : ∀ b ∈ blocks, P b) (h : addDownloadedBlocks checks cr s n blocks = some (s', m)) : Buffers cr P s s' := by
  induction blocks generalizing s n with
  | nil =>
    cases h
    exact .refl P s'
  | cons block blocks ih =>
    obtain ⟨r, hr, hrest⟩ := Option.bind_eq_some_iff.mp h
    have hfirst := buffers_addDownloadedBlock P s r.1 block r.2 (hP block List.mem_cons_self) hr
    exact hfirst.trans (ih r.1 _ (fun b hb => hP b (List.mem_cons_of_mem block hb)) hrest)

/-- The next block leaves the buffer. -/
theorem nextBlockToImport_some (s s' : SyncManager) (next : Option Block)
    (h : SyncManager.nextBlockToImport checks s = some (s', next)) :
    ∃ k, Word.addW checks 64 s.localHeight 1 = some k ∧ next = s.pendingBlocks.find? k ∧
      s' = { s with pendingBlocks := s.pendingBlocks.erase k } := by
  obtain ⟨k, hk, heq⟩ := Option.map_eq_some_iff.mp h
  cases heq
  exact ⟨k, hk, rfl, rfl⟩

theorem buffers_nextBlockToImport (P : Block → Prop) (s s' : SyncManager) (next : Option Block)
    (h : SyncManager.nextBlockToImport checks s = some (s', next)) : Buffers cr P s s' := by
  obtain ⟨k, -, -, rfl⟩ := nextBlockToImport_some s s' next h
  refine ⟨rfl, fun j b hb => Or.inl ?_⟩
  change (s.pendingBlocks.erase k).find? j = some b at hb
  rw [SortedMap.find?_erase] at hb
  split at hb
  · cases hb
  · exact hb

theorem localHeight_peerHeightUpdate (s : SyncManager) (height : Nat) :
    (s.peerHeightUpdate height).localHeight = s.localHeight ∧
      (s.peerHeightUpdate height).pendingBlocks = s.pendingBlocks := by
  rw [peerHeightUpdate_eq]
  exact ⟨rfl, rfl⟩

end SyncManager

/-! ## The network service -/

namespace NetworkService

/-- What the service may do while the chain has some height: follow that height, forget blocks, and
take such blocks in as `P` lets in.  It announces no block. -/
structure Moves (cr : Crypto) (P : Block → Prop) (height : Nat) (n n' : NetworkService) : Prop where
  localHeight : n'.localHeight = n.localHeight
  localHash : n'.localHash = n.localHash
  syncHeight : n'.syncManager.localHeight = n.syncManager.localHeight ∨ n'.syncManager.localHeight = height
  buffered : ∀ k b, n'.syncManager.pendingBlocks.find? k = some b →
    n.syncManager.pendingBlocks.find? k = some b ∨
      P b ∧ b.header.number = k ∧ BlockValidator.validateStandalone cr b = .ok ()
  heard : ∀ ev ∈ n'.events, ev ∈ n.events ∨ ∀ b ∈ ev.blocks, P b
  announced : ∀ b, .newBlock b ∈ n'.sent → .newBlock b ∈ n.sent

variable {checks : Bool} {cr : Crypto} {P : Block → Prop} {height : Nat} {n n' : NetworkService}

theorem Moves.refl (n : NetworkService) : Moves cr P height n n :=
  ⟨rfl, rfl, Or.inl rfl, fun _ _ h => Or.inl h, fun _ h => Or.inl h, fun _ h => h⟩

theorem Moves.trans {m : NetworkService} (h : Moves cr P height n m) (h' : Moves cr P height m n') :
    Moves cr P height n n' := by
  refine ⟨h'.localHeight.trans h.localHeight, h'.localHash.trans h.localHash, ?_, ?_, ?_,
    fun b hb => h.announced b (h'.announced b hb)⟩
  · rcases h'.syncHeight with heq | heq
    · rw [heq]
      exact h.syncHeight
    · exact Or.inr heq
  · intro k b hb
    rcases h'.buffered k b hb with hmid | hnew
    · exact h.buffered k b hmid
    · exact Or.inr hnew
  · intro ev hev
    rcases h'.heard ev hev with hmid | hnew
    · exact h.heard ev hmid
    · exact Or.inr hnew

theorem moves_of_buffers (m : SyncManager) (h : SyncManager.Buffers cr P n.syncManager m) :
    Moves cr P height n { n with syncManager := m } :=
  ⟨rfl, rfl, Or.inl h.1, h.2, fun _ h => Or.inl h, fun _ h => h⟩

theorem moves_updateSyncLocalHeight (n : NetworkService) : Moves cr P height n (n.updateSyncLocalHeight height) :=
  ⟨rfl, rfl, Or.inr rfl, fun _ _ h => Or.inl h, fun _ h => Or.inl h, fun _ h => h⟩

theorem moves_peerHeightUpdate (n : NetworkService) (best : Nat) : Moves cr P height n (n.peerHeightUpdate best) := by
  obtain ⟨hlocal, hpending⟩ := n.syncManager.localHeight_peerHeightUpdate best
  refine ⟨rfl, rfl, Or.inl hlocal, fun k b hb => Or.inl ?_, fun _ h => Or.inl h, fun _ h => h⟩
  change (n.syncManager.peerHeightUpdate best).pendingBlocks.find? k = some b at hb
  rwa [hpending] at hb

theorem moves_notify (n : NetworkService) (ev : NetworkEvent) (h : ∀ b ∈ ev.blocks, P b) :
    Moves cr P height n (n.notify ev) := by
  refine ⟨rfl, rfl, Or.inl rfl, fun _ _ h => Or.inl h, fun ev' hev => ?_, fun _ h => h⟩
  rcases List.mem_append.mp hev with hold | hnew
  · exact Or.inl hold
  · rw [List.mem_singleton] at hnew
    rw [hnew]
    exact Or.inr h

theorem moves_maybeStartSync (w : Surroundings) (n : NetworkService) : Moves cr P height n (n.maybeStartSync w) := by
  unfold maybeStartSync
  split_ifs
  · exact .refl n
  · exact .refl n
  · exact .refl n
  · exact .refl n
  · refine ⟨rfl, rfl, Or.inl rfl, fun _ _ h => Or.inl h, fun _ h => Or.inl h, fun b hb => ?_⟩
    simpa using hb

theorem moves_pending (n : NetworkService) (pendingSyncRequests : Nat) :
    Moves cr P height n { n with pendingSyncRequests } :=
  ⟨rfl, rfl, Or.inl rfl, fun _ _ h => Or.inl h, fun _ h => Or.inl h, fun _ h => h⟩

theorem moves_events (n : NetworkService) (ev : NetworkEvent) (events : List NetworkEvent) (h : n.events = ev :: events) :
    Moves cr P height n { n with events } := by
  refine ⟨rfl, rfl, Or.inl rfl, fun _ _ h => Or.inl h, fun ev' hev => Or.inl ?_, fun _ h => h⟩
  rw [h]
  exact List.mem_cons_of_mem ev hev

theorem moves_bufferBlock (n n' : NetworkService) (b : Block) (hP : P b) (h : n.bufferBlock checks cr b = some n') :
    Moves cr P height n n' := by
  obtain ⟨r, hr, rfl⟩ := Option.map_eq_some_iff.mp h
  exact moves_of_buffers r.1 (SyncManager.buffers_addDownloadedBlock P _ r.1 b r.2 hP hr)

theorem moves_nextBufferedBlock (n n' : NetworkService) (next : Option Block)
    (h : n.nextBufferedBlock checks = some (n', next)) : Moves cr P height n n' := by
  obtain ⟨r, hr, heq⟩ := Option.map_eq_some_iff.mp h
  cases heq
  exact moves_of_buffers r.1 (SyncManager.buffers_nextBlockToImport P _ r.1 r.2 hr)

theorem moves_handleNewBlock (w : Surroundings) (n : NetworkService) (b : Block) (hP : P b) :
    Moves cr P height n (n.handleNewBlock w b) := by
  unfold handleNewBlock
  simp only
  split
  · exact (moves_peerHeightUpdate n _).trans (moves_maybeStartSync w _)
  · exact (moves_peerHeightUpdate n _).trans (moves_notify _ _ (by simpa [NetworkEvent.blocks] using hP))

theorem moves_handleBlockResponse (n n' : NetworkService) (r : BlockResponse) (hP : ∀ b, r = .block b → P b)
    (h : n.handleBlockResponse checks cr r = some n') : Moves cr P height n n' := by
  cases r with
  | notFound =>
    cases h
    exact .refl n
  | block b =>
    obtain ⟨m, hm, rfl⟩ := Option.map_eq_some_iff.mp h
    exact (moves_bufferBlock n m b (hP b rfl) hm).trans
      (moves_notify m _ (by simpa [NetworkEvent.blocks] using hP b rfl))

theorem moves_handleSyncResponse (w : Surroundings) (n n' : NetworkService) (r : SyncResponse)
    (hP : ∀ b ∈ r.blocks, P b) (h : n.handleSyncResponse checks cr w r = some n') : Moves cr P height n n' := by
  obtain ⟨buffered, hbuffered, rfl⟩ := Option.map_eq_some_iff.mp h
  have hbuffers := SyncManager.buffers_addDownloadedBlocks P r.blocks _ buffered.1 0 buffered.2 hP hbuffered
  have hnotify : Moves cr P height n _ :=
    (((moves_pending n (n.pendingSyncRequests - 1)).trans (moves_peerHeightUpdate _ r.bestHeight)).trans
      (moves_of_buffers buffered.1 hbuffers)).trans (moves_notify _ (.syncBlocksReceived r.blocks r.hasMore) hP)
  split
  · exact hnotify.trans (moves_maybeStartSync w _)
  · exact hnotify

theorem moves_handleStatusRequest (n : NetworkService) (status : NodeStatus) :
    Moves cr P height n (n.handleStatusRequest status) := by
  unfold handleStatusRequest
  split
  · exact .refl n
  · exact moves_peerHeightUpdate n _

theorem moves_handleStatusResponse (w : Surroundings) (n : NetworkService) (status : NodeStatus) :
    Moves cr P height n (n.handleStatusResponse w status) := by
  unfold handleStatusResponse
  split
  · exact .refl n
  · have hpeer : Moves cr P height n _ := moves_peerHeightUpdate n status.bestBlock
    simp only
    generalize (if (n.peerHeightUpdate status.bestBlock).localHeight = 0 then 0 else 10) = threshold
    split
    · exact (hpeer.trans (moves_notify _ .syncNeeded (by simp [NetworkEvent.blocks]))).trans (moves_maybeStartSync w _)
    · exact hpeer

end NetworkService

/-! ## The node -/

/-- The blocks that an input brings. -/
def NodeInput.blocks : NodeInput → List Block
  | .newBlock b => [b.stored]
  | .blockResponse (.block b) => [b.stored]
  | .syncResponse r => r.blocks.map Block.stored
  | _ => []

namespace KratOsNode

variable {σ : Type} {e : Setup σ} {w : Surroundings} {P : Block → Prop}

/-- The blocks that wait in the queue and in the buffer. -/
structure Hears (cr : Crypto) (P : Block → Prop) (s : KratOsNode) : Prop where
  queued : ∀ ev ∈ s.network.events, ∀ b ∈ ev.blocks, P b
  buffered : ∀ k b, s.network.syncManager.pendingBlocks.find? k = some b →
    P b ∧ b.header.number = k ∧ BlockValidator.validateStandalone cr b = .ok ()

/-! ### What waits -/

theorem Hears.congr {s s' : KratOsNode} {cr : Crypto} (h : s.Hears cr P) (hevents : s'.network.events = s.network.events)
    (hpending : s'.network.syncManager.pendingBlocks = s.network.syncManager.pendingBlocks) : s'.Hears cr P :=
  ⟨by rw [hevents]; exact h.queued, by rw [hpending]; exact h.buffered⟩

theorem Hears.network {s : KratOsNode} (h : s.Hears e.cr P) {height : Nat} {n : NetworkService}
    (hn : NetworkService.Moves e.cr P height s.network n) : ({ s with network := n } : KratOsNode).Hears e.cr P := by
  refine ⟨fun ev hev => ?_, fun k b hb => ?_⟩
  · rcases hn.heard ev hev with hold | hnew
    · exact h.queued ev hold
    · exact hnew
  · rcases hn.buffered k b hb with hold | hnew
    · exact h.buffered k b hold
    · exact hnew

theorem waiting_importBlock (s : KratOsNode) (b : Block) :
    (s.importBlock e w b).1.network.events = s.network.events ∧
      (s.importBlock e w b).1.network.syncManager.pendingBlocks = s.network.syncManager.pendingBlocks := by
  unfold importBlock
  split
  · exact ⟨rfl, rfl⟩
  · split
    · exact ⟨rfl, rfl⟩
    · exact ⟨rfl, rfl⟩

/-- A block that is handed out was in the buffer. -/
theorem buffered_nextBufferedBlock (s : KratOsNode) (n : NetworkService) (b : Block) (height : Nat) (h : s.Hears e.cr P)
    (hn : (s.network.updateSyncLocalHeight height).nextBufferedBlock e.checks = some (n, some b)) : P b := by
  obtain ⟨r, hr, heq⟩ := Option.map_eq_some_iff.mp hn
  obtain ⟨k, -, hnext, -⟩ := SyncManager.nextBlockToImport_some _ r.1 r.2 hr
  rw [Prod.mk.injEq] at heq
  exact (h.buffered k b (hnext.symm.trans heq.2)).1

variable [LinearOrder σ]

theorem waiting_tryProduceBlock (s : KratOsNode) (key : ValidatorKey) (canProduce : Bool) (epoch slot : Nat) :
    (s.tryProduceBlock e w key canProduce epoch slot).1.network.events = s.network.events ∧
      (s.tryProduceBlock e w key canProduce epoch slot).1.network.syncManager.pendingBlocks =
        s.network.syncManager.pendingBlocks := by
  unfold tryProduceBlock
  split_ifs
  · exact ⟨rfl, rfl⟩
  · exact ⟨rfl, rfl⟩
  · split
    · exact ⟨rfl, rfl⟩
    · split_ifs
      · exact ⟨rfl, rfl⟩
      · split
        · split
          · exact ⟨rfl, rfl⟩
          · exact ⟨rfl, rfl⟩
        · exact ⟨rfl, rfl⟩

theorem waiting_slotTick (s : KratOsNode) (canProduce : Bool) :
    (s.slotTick e w canProduce).network.events = s.network.events ∧
      (s.slotTick e w canProduce).network.syncManager.pendingBlocks = s.network.syncManager.pendingBlocks := by
  unfold slotTick
  split
  · exact ⟨rfl, rfl⟩
  · next key _ =>
    simp only
    split_ifs
    · exact ⟨rfl, rfl⟩
    · exact ⟨rfl, rfl⟩
    · have h := s.waiting_tryProduceBlock (e := e) (w := w) key canProduce (s.node.chainHeight / slotsPerEpoch)
        ((w.now - e.genesisTimestamp) / slotDurationSecs)
      split
      · next hproduced =>
        rw [hproduced] at h
        exact h
      · next hproduced =>
        rw [hproduced] at h
        exact h

/-- What a step is made of. -/
inductive Move (e : Setup σ) (w : Surroundings) (P : Block → Prop) (s : KratOsNode) : KratOsNode → Prop
  | network (n : NetworkService) (h : NetworkService.Moves e.cr P s.node.chainHeight s.network n) :
    Move e w P s { s with network := n }
  | pool (mempool : TransactionPool) : Move e w P s { s with mempool }
  | imports (b : Block) (h : P b) : Move e w P s (s.importBlock e w b).1
  | ticks (canProduce : Bool) : Move e w P s (s.slotTick e w canProduce)

def Moves (e : Setup σ) (w : Surroundings) (P : Block → Prop) : KratOsNode → KratOsNode → Prop :=
  Relation.ReflTransGen (Move e w P)

theorem Hears.move {s s' : KratOsNode} (h : s.Hears e.cr P) (hmove : Move e w P s s') : s'.Hears e.cr P := by
  cases hmove with
  | network n hn => exact h.network hn
  | pool mempool => exact h.congr rfl rfl
  | imports b hb => exact h.congr (s.waiting_importBlock b).1 (s.waiting_importBlock b).2
  | ticks canProduce => exact h.congr (s.waiting_slotTick canProduce).1 (s.waiting_slotTick canProduce).2

theorem Hears.moves {s s' : KratOsNode} (h : s.Hears e.cr P) (hmoves : Moves e w P s s') : s'.Hears e.cr P := by
  induction hmoves with
  | refl => exact h
  | tail _ hmove ih => exact ih.move hmove

/-- What imports keep, a node that does not produce keeps. -/
theorem observer_moves (hkey : e.validatorKey = none) (Inv : Node → Prop)
    (himport : ∀ (t : KratOsNode) (b : Block), P b → Inv t.node → Inv (t.importBlock e w b).1.node)
    {s s' : KratOsNode} (hmoves : Moves e w P s s') (h : Inv s.node) : Inv s'.node := by
  induction hmoves with
  | refl => exact h
  | tail _ hmove ih =>
    cases hmove with
    | network n hn => exact ih
    | pool mempool => exact ih
    | imports b hb => exact himport _ b hb ih
    | ticks canProduce =>
      next u _ =>
      have hidle : u.slotTick e w canProduce = u := by
        unfold slotTick
        rw [hkey]
      rw [hidle]
      exact ih

/-! ### Steps are made of moves -/

theorem moves_network (s : KratOsNode) (n : NetworkService)
    (h : NetworkService.Moves e.cr P s.node.chainHeight s.network n) : Moves e w P s { s with network := n } :=
  .single (.network n h)

theorem moves_bufferBlock (s s' : KratOsNode) (b : Block) (hP : P b) (h : s.bufferBlock e b = some s') :
    Moves e w P s s' := by
  obtain ⟨n, hn, rfl⟩ := Option.map_eq_some_iff.mp h
  exact moves_network s n (NetworkService.moves_bufferBlock s.network n b hP hn)

theorem moves_importBlock (s s' : KratOsNode) (b : Block) (hP : P b) (r : Except ImportError Unit)
    (h : s.importBlock e w b = (s', r)) : Moves e w P s s' := by
  have hmove : Move e w P s (s.importBlock e w b).1 := .imports b hP
  rw [h] at hmove
  exact .single hmove

theorem moves_drain (fuel : Nat) (s s' : KratOsNode) (h : s.Hears e.cr P) (hd : drain e w fuel s = some s') :
    Moves e w P s s' := by
  induction fuel generalizing s with
  | zero =>
    cases hd
    exact .refl
  | succ fuel ih =>
    obtain ⟨⟨n, next⟩, hn, hrest⟩ := Option.bind_eq_some_iff.mp hd
    have hnet : NetworkService.Moves e.cr P s.node.chainHeight s.network n :=
      (NetworkService.moves_updateSyncLocalHeight s.network).trans (NetworkService.moves_nextBufferedBlock _ n next hn)
    have hmoved := moves_network (w := w) s n hnet
    cases next with
    | none =>
      cases hrest
      exact hmoved
    | some b =>
      have hP := s.buffered_nextBufferedBlock n b _ h hn
      simp only at hrest
      split at hrest
      · split at hrest
        · next himport =>
          have himported := moves_importBlock _ _ b hP _ himport
          have hmoves := hmoved.trans himported
          exact hmoves.trans (ih _ (h.moves hmoves) hrest)
        · next himport =>
          cases hrest
          exact hmoved.trans (moves_importBlock _ _ b hP _ himport)
      · cases hrest
        exact hmoved

theorem moves_handleBlockReceived (s s' : KratOsNode) (b : Block) (h : s.Hears e.cr P) (hP : P b)
    (hr : s.handleBlockReceived e w b = some s') : Moves e w P s s' := by
  unfold handleBlockReceived at hr
  split_ifs at hr
  · cases hr
    exact .refl
  · exact moves_bufferBlock s s' b hP hr
  · split at hr
    · next himport =>
      have himported := moves_importBlock s _ b hP _ himport
      exact himported.trans (moves_drain _ _ s' (h.moves himported) hr)
    · next himport =>
      cases hr
      exact moves_importBlock s _ b hP _ himport

theorem moves_importBatch (currentHeight : Nat) (blocks : List Block) (s s' : KratOsNode) (imported n : Nat)
    (h : s.Hears e.cr P) (hP : ∀ b ∈ blocks, P b) (hr : importBatch e w currentHeight s imported blocks = some (s', n)) :
    Moves e w P s s' := by
  induction blocks generalizing s imported with
  | nil =>
    cases hr
    exact .refl
  | cons b blocks ih =>
    have hb : P b := hP b List.mem_cons_self
    have hblocks : ∀ c ∈ blocks, P c := fun c hc => hP c (List.mem_cons_of_mem b hc)
    unfold importBatch at hr
    split_ifs at hr
    · exact ih s imported h hblocks hr
    · split at hr
      · next himport =>
        have himported := moves_importBlock s _ b hb _ himport
        exact himported.trans (ih _ _ (h.moves himported) hblocks hr)
      · next himport =>
        have himported := moves_importBlock s _ b hb _ himport
        exact himported.trans (ih _ _ (h.moves himported) hblocks hr)
    · obtain ⟨t, ht, hrest⟩ := Option.bind_eq_some_iff.mp hr
      have hbuffered : Moves e w P s t := moves_bufferBlock s t b hb ht
      exact hbuffered.trans (ih t imported (h.moves hbuffered) hblocks hrest)

theorem moves_handleSyncBlocksReceived (s s' : KratOsNode) (blocks : List Block) (hasMore : Bool) (h : s.Hears e.cr P)
    (hP : ∀ b ∈ blocks, P b) (hr : s.handleSyncBlocksReceived e w blocks hasMore = some s') : Moves e w P s s' := by
  obtain ⟨⟨t, n⟩, ht, hrest⟩ := Option.bind_eq_some_iff.mp hr
  obtain ⟨u, hu, rfl⟩ := Option.map_eq_some_iff.mp hrest
  have hbatch := moves_importBatch s.node.chainHeight blocks s t 0 n h hP ht
  have hdrained : Moves e w P t u := by
    simp only at hu
    split at hu
    · exact moves_drain _ t u (h.moves hbatch) hu
    · cases hu
      exact .refl
  refine (hbatch.trans hdrained).trans ?_
  split
  · exact moves_network u _ (NetworkService.moves_maybeStartSync w u.network)
  · exact .refl

theorem moves_processNetworkEvent (s s' : KratOsNode) (h : s.Hears e.cr P)
    (hr : s.processNetworkEvent e w = some s') : Moves e w P s s' := by
  unfold processNetworkEvent at hr
  split at hr
  · cases hr
    exact .refl
  · next ev events hevents =>
    have hevent : NetworkService.Moves e.cr P s.node.chainHeight s.network { s.network with events } :=
      NetworkService.moves_events s.network ev events hevents
    have htaken := moves_network (w := w) s _ hevent
    have hP := h.queued ev (by rw [hevents]; exact List.mem_cons_self)
    have hears := h.moves htaken
    refine htaken.trans ?_
    cases ev with
    | blockReceived b => exact moves_handleBlockReceived _ s' b hears (hP b List.mem_cons_self) hr
    | transactionReceived tx =>
      cases hr
      exact .single (.pool _)
    | syncBlocksReceived blocks hasMore => exact moves_handleSyncBlocksReceived _ s' blocks hasMore hears hP hr
    | syncNeeded =>
      cases hr
      exact moves_network _ _ (NetworkService.moves_maybeStartSync w _)

/-- **Steps.**  A step of a node that is not a restart is made of moves. -/
theorem moves_step (s s' : KratOsNode) (i : NodeInput) (h : s.Hears e.cr P) (hP : ∀ b ∈ i.blocks, P b)
    (hi : ∀ validators, i ≠ .restart validators) (hstep : s.step e w i = some s') : Moves e w P s s' := by
  cases i with
  | newBlock b =>
    cases hstep
    exact moves_network s _ (NetworkService.moves_handleNewBlock w s.network b.stored (hP _ List.mem_cons_self))
  | newTransaction tx =>
    cases hstep
    exact moves_network s _ (NetworkService.moves_notify s.network _ (by simp [NetworkEvent.blocks]))
  | blockResponse r =>
    obtain ⟨n, hn, rfl⟩ := Option.map_eq_some_iff.mp hstep
    refine moves_network s n (NetworkService.moves_handleBlockResponse s.network n r.received ?_ hn)
    intro b hb
    cases r with
    | notFound => cases hb
    | block c =>
      cases hb
      exact hP _ List.mem_cons_self
  | syncResponse r =>
    obtain ⟨n, hn, rfl⟩ := Option.map_eq_some_iff.mp hstep
    exact moves_network s n (NetworkService.moves_handleSyncResponse w s.network n r.received hP hn)
  | statusRequest status =>
    cases hstep
    exact moves_network s _ (NetworkService.moves_handleStatusRequest s.network status)
  | statusResponse status =>
    cases hstep
    exact moves_network s _ (NetworkService.moves_handleStatusResponse w s.network status)
  | syncFailure =>
    cases hstep
    exact moves_network s _ (NetworkService.moves_pending s.network _)
  | maintenance =>
    cases hstep
    exact moves_network s _ (NetworkService.moves_maybeStartSync w s.network)
  | nextEvent => exact moves_processNetworkEvent s s' h hstep
  | slotTick canProduce =>
    cases hstep
    exact .single (.ticks canProduce)
  | submitTransaction tx =>
    cases hstep
    unfold submitTransaction
    simp only
    split
    · exact .single (.pool _)
    · exact .single (.pool _)
  | restart validators => exact absurd rfl (hi validators)

end KratOsNode

end Kratos
