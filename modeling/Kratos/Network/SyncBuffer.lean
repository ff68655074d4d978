import Kratos.Network.Sync

/-!
# The sync buffer

A block is buffered only above the local height and at most a hundred above the best
known one, under its own number.  The best height never falls and a block handed out
leaves the buffer; but `update_local_height` does not look at the buffer, and what it
passes over stays there.
-/

namespace Kratos

namespace SyncManager

/-- The buffer holds blocks that can still be imported, so it is bounded by the heights. -/
structure Importable (s : SyncManager) : Prop where
  inRange : ∀ n block, s.pendingBlocks.find? n = some block →
    s.localHeight < n ∧ n ≤ s.bestKnownHeight + 100 ∧ block.header.number = n
  size_le : s.pendingBlocks.size ≤ s.bestKnownHeight + 100 - s.localHeight

/-- The chain does not advance over a buffered block. -/
def PassesNone (s : SyncManager) : SyncOp → Prop
  | .updateLocalHeight height => ∀ n block, s.pendingBlocks.find? n = some block → height.val < n
  | _ => True

/-- The bound on the size follows from the range of the numbers. -/
theorem importable_iff (s : SyncManager) :
    s.Importable ↔ ∀ n block, s.pendingBlocks.find? n = some block →
      s.localHeight < n ∧ n ≤ s.bestKnownHeight + 100 ∧ block.header.number = n := by
  refine ⟨Importable.inRange, fun h => ⟨h, ?_⟩⟩
  have hkeys : ∀ n ∈ s.pendingBlocks.keys,
      n ∈ List.range' (s.localHeight + 1) (s.bestKnownHeight + 100 - s.localHeight) := by
    intro n hn
    obtain ⟨block, hb⟩ := (SortedMap.mem_keys_iff s.pendingBlocks n).mp hn
    obtain ⟨hlt, hle, -⟩ := h n block hb
    rw [List.mem_range'_1]
    omega
  have hsize := s.pendingBlocks.size_le_of_keys _ hkeys
  rwa [List.length_range'] at hsize

theorem Importable.addDownloadedBlock (checks : Bool) (cr : Crypto) (s s' : SyncManager) (block : Block)
    (accepted : Bool) (h : s.Importable) (ha : s.addDownloadedBlock checks cr block = some (s', accepted)) :
    s'.Importable := by
  rcases addDownloadedBlock_cases checks cr s s' block accepted ha with rfl | ⟨hlt, hle, rfl⟩
  · exact h
  · rw [importable_iff]
    intro n b hb
    change (s.pendingBlocks.insert block.header.number block).find? n = some b at hb
    rw [SortedMap.find?_insert] at hb
    split at hb
    · next hn =>
      cases hb
      rw [hn]
      exact ⟨hlt, hle, rfl⟩
    · exact h.inRange n b hb

theorem step_importable_iff (checks : Bool) (cr : Crypto) (s : SyncManager) (op : SyncOp) (hv : s.Valid)
    (h : s.Importable) : (s.step checks cr op).Importable ↔ s.PassesNone op := by
  cases op with
  | updateLocalHeight height =>
    rw [importable_iff]
    constructor
    · intro hall n block hb
      exact (hall n block hb).1
    · intro hpass n block hb
      obtain ⟨-, hle, hnum⟩ := h.inRange n block hb
      exact ⟨hpass n block hb, hle, hnum⟩
  | peerHeightUpdate peerHeight =>
    refine iff_of_true ?_ trivial
    show (s.peerHeightUpdate peerHeight).Importable
    rw [peerHeightUpdate_eq, importable_iff]
    intro n block hb
    obtain ⟨hlt, hle, hnum⟩ := h.inRange n block hb
    exact ⟨hlt, le_trans hle (Nat.add_le_add_right (le_max_left _ _) 100), hnum⟩
  | prepareDownload =>
    refine iff_of_true (step_of_apply checks cr Importable s _ h ?_) trivial
    intro s' ha
    obtain ⟨⟨t, batch⟩, hp, rfl⟩ := Option.map_eq_some_iff.mp ha
    obtain rfl := prepareDownload_state checks s t hv batch hp
    exact h
  | createSyncRequest =>
    refine iff_of_true (step_of_apply checks cr Importable s _ h ?_) trivial
    intro s' ha
    obtain ⟨r, hr, rfl⟩ := Option.map_eq_some_iff.mp ha
    obtain ⟨⟨t, batch⟩, hp, rfl⟩ := Option.map_eq_some_iff.mp hr
    obtain rfl := prepareDownload_state checks s t hv batch hp
    exact h
  | addDownloadedBlock block =>
    refine iff_of_true (step_of_apply checks cr Importable s _ h ?_) trivial
    intro s' ha
    obtain ⟨⟨t, accepted⟩, hr, rfl⟩ := Option.map_eq_some_iff.mp ha
    exact h.addDownloadedBlock checks cr s t block accepted hr
  | handleSyncResponse blocks hasMore =>
    refine iff_of_true (step_of_apply checks cr Importable s _ h ?_) trivial
    intro s' ha
    obtain ⟨⟨t, n⟩, hr, rfl⟩ := Option.map_eq_some_iff.mp ha
    refine addDownloadedBlocks_inv checks cr Importable ?_ blocks s t 0 n h hr
    exact fun s s' block accepted hs hb => hs.addDownloadedBlock checks cr s s' block accepted hb
  | nextBlockToImport =>
    refine iff_of_true (step_of_apply checks cr Importable s _ h ?_) trivial
    intro s' ha
    obtain ⟨r, hr, rfl⟩ := Option.map_eq_some_iff.mp ha
    obtain ⟨next, -, rfl⟩ := Option.map_eq_some_iff.mp hr
    rw [importable_iff]
    intro n block hb
    change (s.pendingBlocks.erase next).find? n = some block at hb
    rw [SortedMap.find?_erase] at hb
    split at hb
    · cases hb
    · exact h.inRange n block hb

/-- **The buffer is bounded exactly while nothing is passed over.**  Along a run the buffer holds
only blocks that can still be imported if and only if no update of the local height passes a
buffered block. -/
theorem buffer_importable_iff (checks : Bool) (cr : Crypto) (start : Fin (2 ^ 64)) (ops : List SyncOp) :
    (∀ k, ((ops.take k).foldl (step checks cr) (new start)).Importable) ↔
      Run.Meets (step checks cr) PassesNone (new start) ops := by
  have hnew : (new start).Importable := by
    rw [importable_iff]
    intro n block hb
    cases hb
  exact Run.good_take_iff (step checks cr) (fun _ _ => True) PassesNone Valid Importable
    (fun s op h _ => step_valid checks cr s op h) (fun s op h _ hg => step_importable_iff checks cr s op h hg)
    (new start) ops (valid_new start) hnew (Run.meets_of_forall _ _ (fun _ _ => trivial) _ _)

/-- A block without transactions. -/
def emptyBlock (number : Nat) : Block :=
  { header :=
      { number, parentHash := Hash.zero, transactionsRoot := Hash.zero, stateRoot := Hash.zero, timestamp := 0
        epoch := 0, slot := 0, author := ⟨1⟩, signature := Signature64.zero }
    body := { transactions := [] } }

/-- Block 5 is downloaded, the chain reaches height 10 by other blocks, and block 5 stays. -/
theorem passed_block_stays :
    (([.addDownloadedBlock (emptyBlock 5), .updateLocalHeight 10].foldl (step false Crypto.sample)
      (new 0)).pendingBlocks.find? 5 = some (emptyBlock 5)) ∧
    ¬ ([.addDownloadedBlock (emptyBlock 5), .updateLocalHeight 10].foldl (step false Crypto.sample)
      (new 0)).Importable := by
  have hstay : ([.addDownloadedBlock (emptyBlock 5), .updateLocalHeight 10].foldl (step false Crypto.sample)
      (new 0)).pendingBlocks.find? 5 = some (emptyBlock 5) := by
    decide +kernel
  refine ⟨hstay, fun h => ?_⟩
  have hlt := (h.inRange 5 (emptyBlock 5) hstay).1
  revert hlt
  decide +kernel

end SyncManager

end Kratos
