import Kratos.Node.BlockValidator
import Kratos.Lib.Run

/-!
# Block sync

The node keeps its own height and the best height a peer has named, asks for the
blocks in between and buffers what it receives until it can be imported.  The
download queue is filled and emptied by one call, so it is empty between calls.

Heights are `u64`; `checks` says whether the build stops at an overflow (`none`)
or wraps around.
-/

namespace Kratos

inductive SyncState where
  | synced
  | downloading
  | farBehind
  | idle
deriving DecidableEq, Repr

/-- `NetworkMessage::SyncRequest`. -/
structure SyncRequest where
  fromBlock : Nat
  maxBlocks : Nat
deriving DecidableEq, Repr

structure SyncManager where
  state : SyncState
  localHeight : Nat
  bestKnownHeight : Nat
  pendingBlocks : SortedMap Nat Block
  downloadQueue : List Nat
  batchSize : Nat
  syncThreshold : Nat
deriving DecidableEq

namespace SyncManager

def new (localHeight : Nat) : SyncManager :=
  { state := .idle, localHeight, bestKnownHeight := localHeight, pendingBlocks := .empty
    downloadQueue := [], batchSize := 50, syncThreshold := 10 }

/-- A node without any block syncs over every gap. -/
def effectiveThreshold (s : SyncManager) : Nat := if s.localHeight = 0 then 0 else s.syncThreshold

def updateState (s : SyncManager) : SyncManager :=
  let gap := s.bestKnownHeight - s.localHeight
  { s with state :=
      if gap = 0 then .synced
      else if gap > 1000 then .farBehind
      else if gap > s.effectiveThreshold then .downloading
      else .synced }

def updateLocalHeight (s : SyncManager) (height : Nat) : SyncManager :=
  { s with localHeight := height }.updateState

def peerHeightUpdate (s : SyncManager) (peerHeight : Nat) : SyncManager :=
  (if peerHeight > s.bestKnownHeight then { s with bestKnownHeight := peerHeight } else s).updateState

def shouldSync (s : SyncManager) : Bool :=
  match s.state with
  | .downloading | .farBehind => true
  | .synced | .idle => false

/-- Gap to the network. -/
def syncGap (s : SyncManager) : Nat := s.bestKnownHeight - s.localHeight

/-- The download queue after it has been filled if it was empty. -/
def refill (checks : Bool) (s : SyncManager) : Option (List Nat) :=
  if s.downloadQueue.isEmpty then do
    let start ← Word.addW checks 64 s.localHeight 1
    let afterBatch ← Word.addW checks 64 start s.batchSize
    let afterBest ← Word.addW checks 64 s.bestKnownHeight 1
    return (List.range' start (min afterBatch afterBest - start)).filter fun n => !s.pendingBlocks.contains n
  else some s.downloadQueue

def prepareDownload (checks : Bool) (s : SyncManager) : Option (SyncManager × Option (List Nat)) :=
  if !s.shouldSync then some (s, none)
  else
    (s.refill checks).map fun queue =>
      if queue.isEmpty then ({ s with downloadQueue := queue }, none)
      else ({ s with downloadQueue := queue.drop s.batchSize }, some (queue.take s.batchSize))

def createSyncRequest (checks : Bool) (s : SyncManager) : Option (SyncManager × Option SyncRequest) :=
  (s.prepareDownload checks).map fun r =>
    (r.1, r.2.bind fun blocks => blocks.head?.map fun fromBlock => { fromBlock, maxBlocks := s.batchSize })

def addDownloadedBlock (checks : Bool) (cr : Crypto) (s : SyncManager) (block : Block) :
    Option (SyncManager × Bool) :=
  let blockNum := block.header.number
  match BlockValidator.validateStandalone cr block with
  | .error _ => some (s, false)
  | .ok () =>
    if blockNum ≤ s.localHeight then some (s, false)
    else
      (Word.addW checks 64 s.bestKnownHeight 100).map fun limit =>
        if blockNum > limit then (s, false)
        else ({ s with pendingBlocks := s.pendingBlocks.insert blockNum block }, true)

/-- The blocks of a response one after the other, with the number accepted so far. -/
def addDownloadedBlocks (checks : Bool) (cr : Crypto) :
    SyncManager → Nat → List Block → Option (SyncManager × Nat)
  | s, accepted, [] => some (s, accepted)
  | s, accepted, block :: blocks =>
    (s.addDownloadedBlock checks cr block).bind fun r =>
      addDownloadedBlocks checks cr r.1 (if r.2 then accepted + 1 else accepted) blocks

/-- Whether the peer has more blocks is only logged. -/
def handleSyncResponse (checks : Bool) (cr : Crypto) (s : SyncManager) (blocks : List Block) (_hasMore : Bool) :
    Option (SyncManager × Nat) :=
  addDownloadedBlocks checks cr s 0 blocks

def nextBlockToImport (checks : Bool) (s : SyncManager) : Option (SyncManager × Option Block) :=
  (Word.addW checks 64 s.localHeight 1).map fun nextHeight =>
    ({ s with pendingBlocks := s.pendingBlocks.erase nextHeight }, s.pendingBlocks.find? nextHeight)

end SyncManager

/-! ## Runs -/

inductive SyncOp where
  | updateLocalHeight (height : Fin (2 ^ 64))
  | peerHeightUpdate (peerHeight : Fin (2 ^ 64))
  | prepareDownload
  | createSyncRequest
  | addDownloadedBlock (block : Block)
  | handleSyncResponse (blocks : List Block) (hasMore : Bool)
  | nextBlockToImport

namespace SyncManager

/-- The state an operation leaves, `none` where it stops at an overflow. -/
def apply (checks : Bool) (cr : Crypto) (s : SyncManager) : SyncOp → Option SyncManager
  | .updateLocalHeight height => some (s.updateLocalHeight height)
  | .peerHeightUpdate peerHeight => some (s.peerHeightUpdate peerHeight)
  | .prepareDownload => (s.prepareDownload checks).map Prod.fst
  | .createSyncRequest => (s.createSyncRequest checks).map Prod.fst
  | .addDownloadedBlock block => (s.addDownloadedBlock checks cr block).map Prod.fst
  | .handleSyncResponse blocks hasMore => (s.handleSyncResponse checks cr blocks hasMore).map Prod.fst
  | .nextBlockToImport => (s.nextBlockToImport checks).map Prod.fst

/-- An operation that stopped has changed nothing. -/
def step (checks : Bool) (cr : Crypto) (s : SyncManager) (op : SyncOp) : SyncManager :=
  (s.apply checks cr op).getD s

/-- What every run keeps. -/
structure Valid (s : SyncManager) : Prop where
  localHeight_lt : s.localHeight < 2 ^ 64
  bestKnownHeight_lt : s.bestKnownHeight < 2 ^ 64
  downloadQueue_eq : s.downloadQueue = []
  batchSize_eq : s.batchSize = 50
  syncThreshold_eq : s.syncThreshold = 10
  shouldSync_iff : s.shouldSync = true ↔ s.effectiveThreshold < s.bestKnownHeight - s.localHeight

/-! ## What each operation does -/

theorem shouldSync_updateState (s : SyncManager) (h : s.syncThreshold = 10) :
    s.updateState.shouldSync = true ↔ s.effectiveThreshold < s.bestKnownHeight - s.localHeight := by
  have hthr : s.effectiveThreshold ≤ 10 := by
    unfold effectiveThreshold
    split <;> omega
  unfold shouldSync updateState
  simp only
  split_ifs with h₁ h₂ h₃
  · simp only [false_iff]
    omega
  · simp only [true_iff]
    omega
  · simpa using h₃
  · simpa using h₃

theorem peerHeightUpdate_eq (s : SyncManager) (peerHeight : Nat) :
    s.peerHeightUpdate peerHeight =
      { s with bestKnownHeight := max s.bestKnownHeight peerHeight }.updateState := by
  unfold peerHeightUpdate
  split
  · next h => rw [max_eq_right (le_of_lt h)]
  · next h => rw [max_eq_left (not_lt.mp h)]

theorem Valid.updateState (s : SyncManager) (h : s.Valid) (localHeight bestKnownHeight : Nat)
    (hlocal : localHeight < 2 ^ 64) (hbest : bestKnownHeight < 2 ^ 64) :
    ({ s with localHeight, bestKnownHeight } : SyncManager).updateState.Valid where
  localHeight_lt := hlocal
  bestKnownHeight_lt := hbest
  downloadQueue_eq := h.downloadQueue_eq
  batchSize_eq := h.batchSize_eq
  syncThreshold_eq := h.syncThreshold_eq
  shouldSync_iff := shouldSync_updateState _ h.syncThreshold_eq

theorem Valid.withPending (s : SyncManager) (h : s.Valid) (pendingBlocks : SortedMap Nat Block) :
    { s with pendingBlocks }.Valid :=
  ⟨h.localHeight_lt, h.bestKnownHeight_lt, h.downloadQueue_eq, h.batchSize_eq, h.syncThreshold_eq,
    h.shouldSync_iff⟩

/-- A node that syncs is behind. -/
theorem Valid.lt_of_shouldSync (s : SyncManager) (h : s.Valid) (hs : s.shouldSync = true) :
    s.localHeight < s.bestKnownHeight := by
  have := h.shouldSync_iff.mp hs
  omega

/-- The numbers of the next batch that are not buffered. -/
def missing (s : SyncManager) : List Nat :=
  (List.range' (s.localHeight + 1) (min (s.localHeight + s.batchSize) s.bestKnownHeight - s.localHeight)).filter
    fun n => !s.pendingBlocks.contains n

/-- The end of the range that is asked for can be computed. -/
def RequestFits (s : SyncManager) : Prop :=
  s.localHeight + 1 + s.batchSize < 2 ^ 64 ∧ s.bestKnownHeight + 1 < 2 ^ 64

instance (s : SyncManager) : Decidable s.RequestFits := inferInstanceAs (Decidable (_ ∧ _))

theorem mem_missing (s : SyncManager) (n : Nat) :
    n ∈ s.missing ↔ s.localHeight < n ∧ n ≤ min (s.localHeight + s.batchSize) s.bestKnownHeight ∧
      s.pendingBlocks.find? n = none := by
  unfold missing SortedMap.contains
  rw [List.mem_filter, List.mem_range'_1, Bool.not_eq_true', Option.isSome_eq_false_iff, Option.isNone_iff_eq_none]
  constructor
  · rintro ⟨⟨h₁, h₂⟩, h⟩
    exact ⟨by omega, by omega, h⟩
  · rintro ⟨h₁, h₂, h⟩
    exact ⟨⟨by omega, by omega⟩, h⟩

theorem missing_sorted (s : SyncManager) : s.missing.Pairwise (· < ·) :=
  (List.pairwise_lt_range' (s := s.localHeight + 1)).filter _

theorem length_missing_le (s : SyncManager) : s.missing.length ≤ s.batchSize := by
  unfold missing
  refine le_trans (List.length_filter_le _ _) ?_
  rw [List.length_range']
  omega

/-- What is asked for first is the next block. -/
theorem head?_missing (s : SyncManager) (hbatch : 0 < s.batchSize) (h : s.localHeight < s.bestKnownHeight)
    (hp : s.pendingBlocks.find? (s.localHeight + 1) = none) : s.missing.head? = some (s.localHeight + 1) := by
  unfold missing
  obtain ⟨k, hk⟩ : ∃ k, min (s.localHeight + s.batchSize) s.bestKnownHeight - s.localHeight = k + 1 :=
    ⟨min (s.localHeight + s.batchSize) s.bestKnownHeight - s.localHeight - 1, by omega⟩
  rw [hk, List.range'_succ, List.filter_cons_of_pos (by simp [SortedMap.contains, hp])]
  rfl

theorem refill_of_fits (checks : Bool) (s : SyncManager) (h : s.Valid) (hf : s.RequestFits) :
    s.refill checks = some s.missing := by
  have h₁ : Word.addW checks 64 s.localHeight 1 = some (s.localHeight + 1) := if_pos (by have := hf.1; omega)
  have h₂ : Word.addW checks 64 (s.localHeight + 1) s.batchSize = some (s.localHeight + 1 + s.batchSize) := if_pos hf.1
  have h₃ : Word.addW checks 64 s.bestKnownHeight 1 = some (s.bestKnownHeight + 1) := if_pos hf.2
  have hlen : min (s.localHeight + 1 + s.batchSize) (s.bestKnownHeight + 1) - (s.localHeight + 1) =
      min (s.localHeight + s.batchSize) s.bestKnownHeight - s.localHeight := by
    omega
  unfold refill missing
  rw [if_pos (by rw [h.downloadQueue_eq]; rfl), h₁]
  simp only [Option.bind_eq_bind, Option.bind_some, h₂, h₃, hlen]
  rfl

/-- A range whose end overflows is never filled again. -/
theorem refill_of_not_fits (s : SyncManager) (h : s.Valid) (hlt : s.localHeight < s.bestKnownHeight)
    (hf : ¬ s.RequestFits) : s.refill true = none ∧ s.refill false = some [] := by
  have hbest := h.bestKnownHeight_lt
  have hbatch := h.batchSize_eq
  have h₁ : ∀ checks, Word.addW checks 64 s.localHeight 1 = some (s.localHeight + 1) := fun _ => if_pos (by omega)
  have hempty : s.downloadQueue.isEmpty = true := by rw [h.downloadQueue_eq]; rfl
  unfold RequestFits at hf
  unfold refill
  rw [if_pos hempty, if_pos hempty, h₁, h₁]
  simp only [Option.bind_eq_bind, Option.bind_some]
  constructor
  · by_cases h₂ : s.localHeight + 1 + s.batchSize < 2 ^ 64
    · rw [Word.addW, if_pos h₂, Option.bind_some, Word.addW, if_neg (by tauto)]
      rfl
    · rw [Word.addW, if_neg h₂]
      rfl
  · have hstop : min ((s.localHeight + 1 + s.batchSize) % 2 ^ 64) ((s.bestKnownHeight + 1) % 2 ^ 64) -
        (s.localHeight + 1) = 0 := by
      omega
    rw [Word.addW_unchecked, Word.addW_unchecked, Option.bind_some, Option.bind_some, hstop]
    rfl

/-- What a node that syncs is given to download. -/
theorem prepareDownload_of_fits (checks : Bool) (s : SyncManager) (h : s.Valid) (hs : s.shouldSync = true)
    (hf : s.RequestFits) :
    s.prepareDownload checks = some (s, if s.missing.isEmpty then none else some s.missing) := by
  unfold prepareDownload
  rw [hs, Bool.not_true, if_neg (by simp), refill_of_fits checks s h hf, Option.map_some]
  split
  · next hm =>
    rw [List.isEmpty_iff.mp hm, ← h.downloadQueue_eq]
  · rw [List.drop_of_length_le s.length_missing_le, List.take_of_length_le s.length_missing_le,
      ← h.downloadQueue_eq]

theorem prepareDownload_of_not_fits (s : SyncManager) (h : s.Valid) (hs : s.shouldSync = true)
    (hf : ¬ s.RequestFits) :
    s.prepareDownload true = none ∧ s.prepareDownload false = some (s, none) := by
  obtain ⟨htrue, hfalse⟩ := refill_of_not_fits s h (h.lt_of_shouldSync s hs) hf
  unfold prepareDownload
  rw [hs, Bool.not_true, if_neg (by simp), if_neg (by simp), htrue, hfalse]
  refine ⟨rfl, ?_⟩
  rw [Option.map_some, if_pos (by rfl), ← h.downloadQueue_eq]

theorem prepareDownload_of_synced (checks : Bool) (s : SyncManager) (hs : s.shouldSync = false) :
    s.prepareDownload checks = some (s, none) := by
  unfold prepareDownload
  rw [hs]
  rfl

/-- Preparing a download leaves the state as it is. -/
theorem prepareDownload_state (checks : Bool) (s s' : SyncManager) (h : s.Valid) (batch : Option (List Nat))
    (hp : s.prepareDownload checks = some (s', batch)) : s' = s := by
  cases hs : s.shouldSync with
  | false =>
    rw [prepareDownload_of_synced checks s hs] at hp
    cases hp
    rfl
  | true =>
    by_cases hf : s.RequestFits
    · rw [prepareDownload_of_fits checks s h hs hf] at hp
      cases hp
      rfl
    · obtain ⟨htrue, hfalse⟩ := prepareDownload_of_not_fits s h hs hf
      cases checks with
      | true => rw [htrue] at hp; cases hp
      | false => rw [hfalse] at hp; cases hp; rfl

/-- What a downloaded block can change. -/
theorem addDownloadedBlock_cases (checks : Bool) (cr : Crypto) (s s' : SyncManager) (block : Block) (accepted : Bool)
    (h : s.addDownloadedBlock checks cr block = some (s', accepted)) :
    s' = s ∨ s.localHeight < block.header.number ∧ block.header.number ≤ s.bestKnownHeight + 100 ∧
      s' = { s with pendingBlocks := s.pendingBlocks.insert block.header.number block } := by
  unfold addDownloadedBlock at h
  simp only at h
  split at h
  · cases h
    exact .inl rfl
  · split at h
    · cases h
      exact .inl rfl
    · next hlt =>
      obtain ⟨limit, hlimit, heq⟩ := Option.map_eq_some_iff.mp h
      have hle : limit ≤ s.bestKnownHeight + 100 := by
        unfold Word.addW at hlimit
        split at hlimit
        · cases hlimit
          exact Nat.le_refl _
        · split at hlimit
          · cases hlimit
          · cases hlimit
            exact Nat.mod_le _ _
      split at heq
      · cases heq
        exact .inl rfl
      · next hnum =>
        cases heq
        exact .inr ⟨not_le.mp hlt, le_trans (not_lt.mp hnum) hle, rfl⟩

/-- What each downloaded block keeps, a response keeps. -/
theorem addDownloadedBlocks_inv (checks : Bool) (cr : Crypto) (Inv : SyncManager → Prop)
    (hstep : ∀ s s' block accepted, Inv s → s.addDownloadedBlock checks cr block = some (s', accepted) → Inv s')
    (blocks : List Block) (s s' : SyncManager) (n m : Nat) (hs : Inv s)
    (h : addDownloadedBlocks checks cr s n blocks = some (s', m)) : Inv s' := by
  induction blocks generalizing s n with
  | nil =>
    cases h
    exact hs
  | cons block blocks ih =>
    obtain ⟨r, hr, hrest⟩ := Option.bind_eq_some_iff.mp h
    exact ih r.1 _ (hstep s r.1 block r.2 hs hr) hrest

/-! ## What every run keeps -/

theorem valid_new (start : Fin (2 ^ 64)) : (new start).Valid where
  localHeight_lt := start.isLt
  bestKnownHeight_lt := start.isLt
  downloadQueue_eq := rfl
  batchSize_eq := rfl
  syncThreshold_eq := rfl
  shouldSync_iff := by
    show false = true ↔ _ < start.val - start.val
    simp

/-- Apart from the two heights an operation changes the buffer at most. -/
theorem apply_cases (checks : Bool) (cr : Crypto) (s s' : SyncManager) (op : SyncOp) (h : s.Valid)
    (ha : s.apply checks cr op = some s') :
    (∃ height, op = .updateLocalHeight height ∧ s' = s.updateLocalHeight height) ∨
    (∃ peerHeight, op = .peerHeightUpdate peerHeight ∧ s' = s.peerHeightUpdate peerHeight) ∨
    ∃ pendingBlocks, s' = { s with pendingBlocks } := by
  cases op with
  | updateLocalHeight height =>
    cases ha
    exact .inl ⟨height, rfl, rfl⟩
  | peerHeightUpdate peerHeight =>
    cases ha
    exact .inr (.inl ⟨peerHeight, rfl, rfl⟩)
  | prepareDownload =>
    obtain ⟨⟨t, batch⟩, hp, rfl⟩ := Option.map_eq_some_iff.mp ha
    exact .inr (.inr ⟨s.pendingBlocks, prepareDownload_state checks s t h batch hp⟩)
  | createSyncRequest =>
    obtain ⟨r, hr, rfl⟩ := Option.map_eq_some_iff.mp ha
    obtain ⟨⟨t, batch⟩, hp, rfl⟩ := Option.map_eq_some_iff.mp hr
    exact .inr (.inr ⟨s.pendingBlocks, prepareDownload_state checks s t h batch hp⟩)
  | addDownloadedBlock block =>
    obtain ⟨⟨t, accepted⟩, hr, rfl⟩ := Option.map_eq_some_iff.mp ha
    rcases addDownloadedBlock_cases checks cr s t block accepted hr with rfl | ⟨-, -, rfl⟩
    · exact .inr (.inr ⟨t.pendingBlocks, rfl⟩)
    · exact .inr (.inr ⟨_, rfl⟩)
  | handleSyncResponse blocks hasMore =>
    obtain ⟨⟨t, n⟩, hr, rfl⟩ := Option.map_eq_some_iff.mp ha
    refine .inr (.inr (addDownloadedBlocks_inv checks cr (fun t => ∃ pendingBlocks, t = { s with pendingBlocks })
      ?_ blocks s t 0 n ⟨s.pendingBlocks, rfl⟩ hr))
    rintro _ s' block accepted ⟨p, rfl⟩ hb
    rcases addDownloadedBlock_cases checks cr _ s' block accepted hb with rfl | ⟨-, -, rfl⟩
    · exact ⟨p, rfl⟩
    · exact ⟨_, rfl⟩
  | nextBlockToImport =>
    obtain ⟨r, hr, rfl⟩ := Option.map_eq_some_iff.mp ha
    obtain ⟨next, -, rfl⟩ := Option.map_eq_some_iff.mp hr
    exact .inr (.inr ⟨_, rfl⟩)

theorem apply_valid (checks : Bool) (cr : Crypto) (s s' : SyncManager) (op : SyncOp) (h : s.Valid)
    (ha : s.apply checks cr op = some s') : s'.Valid := by
  rcases apply_cases checks cr s s' op h ha with ⟨height, -, rfl⟩ | ⟨peerHeight, -, rfl⟩ | ⟨p, rfl⟩
  · exact h.updateState s height s.bestKnownHeight height.isLt h.bestKnownHeight_lt
  · rw [peerHeightUpdate_eq]
    exact h.updateState s s.localHeight _ h.localHeight_lt (max_lt h.bestKnownHeight_lt peerHeight.isLt)
  · exact h.withPending s p

/-- An operation keeps what it keeps where it goes through. -/
theorem step_of_apply (checks : Bool) (cr : Crypto) (Inv : SyncManager → Prop) (s : SyncManager) (op : SyncOp)
    (h : Inv s) (happly : ∀ s', s.apply checks cr op = some s' → Inv s') : Inv (s.step checks cr op) := by
  unfold step
  cases ha : s.apply checks cr op with
  | none => exact h
  | some s' => exact happly s' ha

theorem step_valid (checks : Bool) (cr : Crypto) (s : SyncManager) (op : SyncOp) (h : s.Valid) :
    (s.step checks cr op).Valid := by
  refine step_of_apply checks cr Valid s op h ?_
  exact fun s' => apply_valid checks cr s s' op h

end SyncManager

end Kratos
