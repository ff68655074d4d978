import Kratos.Network.Sync

/-!
# Sync progress

A node that syncs either has its next block in the buffer or asks for it first, as
long as the end of the range it asks for is a `u64` (`progresses_iff`).  Peers name
heights up to `u64::MAX`: `best_known_height + 1` is then zero, the range is empty for
good, and nothing brings the height down again.
-/

namespace Kratos

namespace SyncManager

/-- The next block is buffered and handed out, or it is the first one asked for. -/
def Progresses (checks : Bool) (s : SyncManager) : Prop :=
  s.shouldSync = true →
    (∃ s' block, s.pendingBlocks.find? (s.localHeight + 1) = some block ∧
      s.nextBlockToImport checks = some (s', some block)) ∨
    ∃ s', s.createSyncRequest checks = some (s', some { fromBlock := s.localHeight + 1, maxBlocks := s.batchSize })

/-- A batch is the next numbers that are not buffered, in order. -/
def BatchesExact (checks : Bool) (s : SyncManager) : Prop :=
  ∀ s' batch, s.prepareDownload checks = some (s', some batch) →
    batch.Pairwise (· < ·) ∧ batch.length ≤ s.batchSize ∧
    ∀ n, n ∈ batch ↔ s.localHeight < n ∧ n ≤ min (s.localHeight + s.batchSize) s.bestKnownHeight ∧
      s.pendingBlocks.find? n = none

/-- No addition of the operation overflows: a build with overflow checks does not stop. -/
def NoOverflow (cr : Crypto) (s : SyncManager) (op : SyncOp) : Prop := (s.apply true cr op).isSome = true

instance (cr : Crypto) (s : SyncManager) (op : SyncOp) : Decidable (s.NoOverflow cr op) :=
  inferInstanceAs (Decidable (_ = true))

/-- A node that is behind has the next block, or room for the range it asks for. -/
def Clear (s : SyncManager) : Prop :=
  s.effectiveThreshold < s.bestKnownHeight - s.localHeight →
    s.pendingBlocks.contains (s.localHeight + 1) = true ∨ s.RequestFits

instance (s : SyncManager) : Decidable s.Clear := inferInstanceAs (Decidable (_ → _))

/-- The highest number a block may have is computed for a valid block ahead of the chain. -/
def BlockFits (cr : Crypto) (s : SyncManager) (block : Block) : Prop :=
  BlockValidator.validateStandalone cr block = .ok () → s.localHeight < block.header.number →
    s.bestKnownHeight + 100 < 2 ^ 64

/-- What keeps the sync going, of the heights and the buffer an operation finds. -/
def HasRoom (cr : Crypto) (s : SyncManager) : SyncOp → Prop
  | .updateLocalHeight height => Clear { s with localHeight := height }
  | .peerHeightUpdate peerHeight => Clear { s with bestKnownHeight := max s.bestKnownHeight peerHeight }
  | .prepareDownload | .createSyncRequest => s.shouldSync = true → s.RequestFits
  | .addDownloadedBlock block => s.BlockFits cr block
  | .handleSyncResponse blocks _ => ∀ block ∈ blocks, s.BlockFits cr block
  | .nextBlockToImport =>
    s.localHeight + 1 < 2 ^ 64 ∧ Clear { s with pendingBlocks := s.pendingBlocks.erase (s.localHeight + 1) }

/-! ## One state -/

theorem createSyncRequest_of_missing (checks : Bool) (s : SyncManager) (h : s.Valid) (hs : s.shouldSync = true)
    (hf : s.RequestFits) (hp : s.pendingBlocks.find? (s.localHeight + 1) = none) :
    s.createSyncRequest checks = some (s, some { fromBlock := s.localHeight + 1, maxBlocks := s.batchSize }) := by
  have hhead := s.head?_missing (by rw [h.batchSize_eq]; omega) (h.lt_of_shouldSync s hs) hp
  have hne : s.missing.isEmpty = false := by
    cases hm : s.missing with
    | nil => rw [hm] at hhead; cases hhead
    | cons n l => rfl
  unfold createSyncRequest
  rw [prepareDownload_of_fits checks s h hs hf, hne, Option.map_some, if_neg (by simp), Option.bind_some, hhead]
  rfl

/-- Without room no request is made, in either build. -/
theorem createSyncRequest_of_not_fits (checks : Bool) (s s' : SyncManager) (r : SyncRequest) (h : s.Valid)
    (hs : s.shouldSync = true) (hf : ¬ s.RequestFits) : s.createSyncRequest checks ≠ some (s', some r) := by
  obtain ⟨htrue, hfalse⟩ := prepareDownload_of_not_fits s h hs hf
  unfold createSyncRequest
  cases checks with
  | true => rw [htrue]; simp
  | false => rw [hfalse]; simp

theorem progresses_iff (checks : Bool) (s : SyncManager) (h : s.Valid) : s.Progresses checks ↔ s.Clear := by
  unfold Progresses Clear
  rw [← h.shouldSync_iff, SortedMap.contains]
  constructor
  · intro hp hs
    rcases hp hs with ⟨s', block, hfind, -⟩ | ⟨s', hreq⟩
    · exact .inl (by rw [hfind]; rfl)
    · by_contra hnot
      rw [not_or] at hnot
      exact createSyncRequest_of_not_fits checks s s' _ h hs hnot.2 hreq
  · intro hc hs
    have hlt := h.lt_of_shouldSync s hs
    cases hfind : s.pendingBlocks.find? (s.localHeight + 1) with
    | some block =>
      have hadd : Word.addW checks 64 s.localHeight 1 = some (s.localHeight + 1) :=
        if_pos (by have := h.bestKnownHeight_lt; omega)
      refine .inl ⟨{ s with pendingBlocks := s.pendingBlocks.erase (s.localHeight + 1) }, block, rfl, ?_⟩
      rw [nextBlockToImport, hadd, Option.map_some, hfind]
    | none =>
      rw [hfind] at hc
      have hf := (hc hs).resolve_left (by simp)
      exact .inr ⟨s, createSyncRequest_of_missing checks s h hs hf hfind⟩

theorem batchesExact (checks : Bool) (s : SyncManager) (h : s.Valid) : s.BatchesExact checks := by
  intro s' batch hp
  have hmissing : batch = s.missing := by
    cases hs : s.shouldSync with
    | false =>
      rw [prepareDownload_of_synced checks s hs] at hp
      cases hp
    | true =>
      by_cases hf : s.RequestFits
      · rw [prepareDownload_of_fits checks s h hs hf] at hp
        split at hp
        · cases hp
        · cases hp
          rfl
      · obtain ⟨htrue, hfalse⟩ := prepareDownload_of_not_fits s h hs hf
        cases checks with
        | true => rw [htrue] at hp; cases hp
        | false => rw [hfalse] at hp; cases hp
  subst hmissing
  exact ⟨s.missing_sorted, s.length_missing_le, s.mem_missing⟩

/-! ## One step -/

theorem prepareDownload_isSome_iff (s : SyncManager) (h : s.Valid) :
    (s.prepareDownload true).isSome = true ↔ (s.shouldSync = true → s.RequestFits) := by
  cases hs : s.shouldSync with
  | false => simp [prepareDownload_of_synced true s hs]
  | true =>
    by_cases hf : s.RequestFits
    · simp [prepareDownload_of_fits true s h hs hf, hf]
    · simp [(prepareDownload_of_not_fits s h hs hf).1, hf]

theorem addDownloadedBlock_isSome_iff (cr : Crypto) (s : SyncManager) (block : Block) :
    (s.addDownloadedBlock true cr block).isSome = true ↔ s.BlockFits cr block := by
  unfold addDownloadedBlock BlockFits
  simp only
  split
  · next e he => simp [he]
  · next u hok =>
    rw [hok]
    split
    · next hle =>
      simp only [Option.isSome_some, true_iff]
      omega
    · next hlt =>
      rw [Option.isSome_map, Word.addW]
      split
      · next hfit =>
        simp only [Option.isSome_some, true_iff]
        exact fun _ _ => hfit
      · next hfit =>
        simp only [↓reduceIte, Option.isSome_none, Bool.false_eq_true, false_iff]
        intro hall
        exact hfit (hall trivial (not_le.mp hlt))

/-- A block that goes through leaves the heights, so the next one has the same room. -/
theorem addDownloadedBlocks_isSome_iff (cr : Crypto) (blocks : List Block) (s : SyncManager) (n : Nat) :
    (addDownloadedBlocks true cr s n blocks).isSome = true ↔ ∀ block ∈ blocks, s.BlockFits cr block := by
  induction blocks generalizing s n with
  | nil => simp [addDownloadedBlocks]
  | cons block blocks ih =>
    rw [List.forall_mem_cons, ← addDownloadedBlock_isSome_iff, addDownloadedBlocks]
    cases hr : s.addDownloadedBlock true cr block with
    | none => simp
    | some r =>
      rw [Option.bind_some, ih, Option.isSome_some]
      have hsame : ∀ b, r.1.BlockFits cr b ↔ s.BlockFits cr b := by
        intro b
        rcases addDownloadedBlock_cases true cr s r.1 block r.2 hr with hs | ⟨-, -, hs⟩
        · rw [hs]
        · rw [hs]
          exact Iff.rfl
      simp only [hsame, true_and]

/-- A buffered block stays buffered when others come in. -/
theorem Clear.addDownloadedBlock (checks : Bool) (cr : Crypto) (s s' : SyncManager) (block : Block) (accepted : Bool)
    (h : s.Clear) (ha : s.addDownloadedBlock checks cr block = some (s', accepted)) : s'.Clear := by
  rcases addDownloadedBlock_cases checks cr s s' block accepted ha with rfl | ⟨-, -, rfl⟩
  · exact h
  · intro hlt
    refine (h hlt).imp_left ?_
    intro hc
    unfold SortedMap.contains at hc ⊢
    rw [SortedMap.find?_insert]
    split
    · rfl
    · exact hc

theorem step_eq_of_map_fst {β : Type} (checks : Bool) (cr : Crypto) (s : SyncManager) (op : SyncOp)
    (r : Option (SyncManager × β)) (ha : s.apply checks cr op = r.map Prod.fst)
    (hr : ∀ s' b, r = some (s', b) → s' = s) : s.step checks cr op = s := by
  unfold step
  rw [ha]
  cases hc : r with
  | none => rfl
  | some p => exact hr p.1 p.2 hc

/-- Exactly an operation that finds room goes through and leaves the node able to go on. -/
theorem step_clear_iff (checks : Bool) (cr : Crypto) (s : SyncManager) (op : SyncOp) (h : s.Valid) (hc : s.Clear) :
    (s.step checks cr op).Clear ∧ s.NoOverflow cr op ↔ s.HasRoom cr op := by
  cases op with
  | updateLocalHeight height => exact and_iff_left rfl
  | peerHeightUpdate peerHeight =>
    show (s.peerHeightUpdate peerHeight).Clear ∧ _ ↔ _
    rw [peerHeightUpdate_eq]
    exact and_iff_left rfl
  | prepareDownload =>
    have hstep : s.step checks cr .prepareDownload = s :=
      step_eq_of_map_fst checks cr s _ _ rfl fun s' b hp => prepareDownload_state checks s s' h b hp
    rw [hstep, and_iff_right hc, NoOverflow, apply, Option.isSome_map]
    exact prepareDownload_isSome_iff s h
  | createSyncRequest =>
    have hstep : s.step checks cr .createSyncRequest = s := by
      apply step_eq_of_map_fst checks cr s _ (s.createSyncRequest checks) rfl
      intro s' b hr
      obtain ⟨⟨t, batch⟩, hp, heq⟩ := Option.map_eq_some_iff.mp hr
      cases heq
      exact prepareDownload_state checks s _ h batch hp
    rw [hstep, and_iff_right hc, NoOverflow, apply, Option.isSome_map, createSyncRequest, Option.isSome_map]
    exact prepareDownload_isSome_iff s h
  | addDownloadedBlock block =>
    have hclear : (s.step checks cr (.addDownloadedBlock block)).Clear := by
      refine step_of_apply checks cr Clear s _ hc ?_
      intro s' ha
      obtain ⟨⟨t, accepted⟩, hr, rfl⟩ := Option.map_eq_some_iff.mp ha
      exact hc.addDownloadedBlock checks cr s t block accepted hr
    rw [and_iff_right hclear, NoOverflow, apply, Option.isSome_map]
    exact addDownloadedBlock_isSome_iff cr s block
  | handleSyncResponse blocks hasMore =>
    have hclear : (s.step checks cr (.handleSyncResponse blocks hasMore)).Clear := by
      refine step_of_apply checks cr Clear s _ hc ?_
      intro s' ha
      obtain ⟨⟨t, n⟩, hr, rfl⟩ := Option.map_eq_some_iff.mp ha
      refine addDownloadedBlocks_inv checks cr Clear ?_ blocks s t 0 n hc hr
      exact fun s s' block accepted hs hb => hs.addDownloadedBlock checks cr s s' block accepted hb
    rw [and_iff_right hclear, NoOverflow, apply, Option.isSome_map]
    exact addDownloadedBlocks_isSome_iff cr blocks s 0
  | nextBlockToImport =>
    rw [NoOverflow, apply, Option.isSome_map, nextBlockToImport, Option.isSome_map]
    by_cases hlt : s.localHeight + 1 < 2 ^ 64
    · have hadd : ∀ checks, Word.addW checks 64 s.localHeight 1 = some (s.localHeight + 1) := fun _ => if_pos hlt
      have hstep : s.step checks cr .nextBlockToImport =
          { s with pendingBlocks := s.pendingBlocks.erase (s.localHeight + 1) } := by
        rw [step, apply, nextBlockToImport, hadd]
        rfl
      rw [hstep, hadd, Option.isSome_some, and_iff_left rfl]
      exact (and_iff_right hlt).symm
    · rw [Word.addW, if_neg hlt]
      exact iff_of_false (fun hno => Bool.false_ne_true hno.2) (fun hroom => hlt hroom.1)

/-! ## Runs -/

/-- **Sync goes on exactly while there is room.**  Along a run, in either build, every state in
which the node syncs has its next block at hand or asks for it, every batch is exact and no addition
overflows, if and only if every operation finds room. -/
theorem sync_progresses_iff (checks : Bool) (cr : Crypto) (start : Fin (2 ^ 64)) (ops : List SyncOp) :
    (∀ k, ((ops.take k).foldl (step checks cr) (new start)).Progresses checks ∧
      ((ops.take k).foldl (step checks cr) (new start)).BatchesExact checks) ∧
    Run.Meets (step checks cr) (NoOverflow cr) (new start) ops ↔
    Run.Meets (step checks cr) (HasRoom cr) (new start) ops := by
  have hnew : (new start).Progresses checks ∧ (new start).BatchesExact checks :=
    ⟨fun hs => (Bool.false_ne_true hs).elim, batchesExact checks _ (valid_new start)⟩
  refine Run.good_meets_iff (step checks cr) (fun _ _ => True) (HasRoom cr) (NoOverflow cr) Valid
    (fun s => s.Progresses checks ∧ s.BatchesExact checks) (fun s op h _ => step_valid checks cr s op h) ?_
    (new start) ops (valid_new start) hnew (Run.meets_of_forall _ _ (fun _ _ => trivial) _ _)
  intro s op h _ hg
  have hnext := step_valid checks cr s op h
  rw [progresses_iff checks s h] at hg
  rw [progresses_iff checks _ hnext, and_iff_left (batchesExact checks _ hnext)]
  exact step_clear_iff checks cr s op h hg.1

/-- A peer that names the highest `u64` stops the sync of a new node for good. -/
theorem sync_wedged :
    ¬ (step false Crypto.sample (new 0) (.peerHeightUpdate (Word.maxVal 64))).Progresses false ∧
    ¬ (step true Crypto.sample (new 0) (.peerHeightUpdate (Word.maxVal 64))).Progresses true ∧
    ¬ (step false Crypto.sample (new 0) (.peerHeightUpdate (Word.maxVal 64))).NoOverflow Crypto.sample
      .prepareDownload := by
  have hvalid := step_valid false Crypto.sample (new 0) (.peerHeightUpdate (Word.maxVal 64)) (valid_new 0)
  have hvalid' := step_valid true Crypto.sample (new 0) (.peerHeightUpdate (Word.maxVal 64)) (valid_new 0)
  rw [progresses_iff false _ hvalid, progresses_iff true _ hvalid']
  decide +kernel

/-! ## Heights below the limit -/

/-- The height an operation names leaves a hundred numbers above it. -/
def Low : SyncOp → Prop
  | .updateLocalHeight height | .peerHeightUpdate height => height.val + 100 < 2 ^ 64
  | _ => True

theorem hasRoom_of_low (cr : Crypto) (s : SyncManager) (op : SyncOp) (h : s.Valid) (hop : Low op)
    (hlocal : s.localHeight + 100 < 2 ^ 64) (hbest : s.bestKnownHeight + 100 < 2 ^ 64) : s.HasRoom cr op := by
  have hbatch := h.batchSize_eq
  have hfits : ∀ t : SyncManager, t.batchSize = 50 → t.localHeight + 100 < 2 ^ 64 →
      t.bestKnownHeight + 100 < 2 ^ 64 → t.RequestFits := by
    intro t ht hl hb
    exact ⟨by omega, by omega⟩
  cases op with
  | updateLocalHeight height => exact fun _ => .inr (hfits _ hbatch hop hbest)
  | peerHeightUpdate peerHeight =>
    refine fun _ => .inr (hfits _ hbatch hlocal ?_)
    change peerHeight.val + 100 < 2 ^ 64 at hop
    show max s.bestKnownHeight peerHeight + 100 < 2 ^ 64
    omega
  | prepareDownload => exact fun _ => hfits s hbatch hlocal hbest
  | createSyncRequest => exact fun _ => hfits s hbatch hlocal hbest
  | addDownloadedBlock block => exact fun _ _ => hbest
  | handleSyncResponse blocks hasMore => exact fun _ _ _ _ => hbest
  | nextBlockToImport => exact ⟨by omega, fun _ => .inr (hfits _ hbatch hlocal hbest)⟩

theorem step_low (checks : Bool) (cr : Crypto) (s : SyncManager) (op : SyncOp) (h : s.Valid) (hop : Low op)
    (hlow : s.localHeight + 100 < 2 ^ 64 ∧ s.bestKnownHeight + 100 < 2 ^ 64) :
    (s.step checks cr op).localHeight + 100 < 2 ^ 64 ∧ (s.step checks cr op).bestKnownHeight + 100 < 2 ^ 64 := by
  refine step_of_apply checks cr (fun t => t.localHeight + 100 < 2 ^ 64 ∧ t.bestKnownHeight + 100 < 2 ^ 64)
    s op hlow ?_
  intro s' ha
  rcases apply_cases checks cr s s' op h ha with ⟨height, rfl, rfl⟩ | ⟨peerHeight, rfl, rfl⟩ | ⟨p, rfl⟩
  · exact ⟨hop, hlow.2⟩
  · rw [peerHeightUpdate_eq]
    refine ⟨hlow.1, ?_⟩
    change peerHeight.val + 100 < 2 ^ 64 at hop
    show max s.bestKnownHeight peerHeight + 100 < 2 ^ 64
    omega
  · exact hlow

/-- If no one ever names one of the last hundred heights, every operation finds room. -/
theorem meets_hasRoom_of_low (checks : Bool) (cr : Crypto) (start : Fin (2 ^ 64)) (ops : List SyncOp)
    (hstart : start.val + 100 < 2 ^ 64) (hops : ∀ op ∈ ops, Low op) :
    Run.Meets (step checks cr) (HasRoom cr) (new start) ops := by
  refine Run.meets_of_inv (step checks cr) (fun _ op => Low op) (HasRoom cr)
    (fun s => s.Valid ∧ s.localHeight + 100 < 2 ^ 64 ∧ s.bestKnownHeight + 100 < 2 ^ 64) ?_ ?_ (new start) ops
    ⟨valid_new start, hstart, hstart⟩ (Run.meets_of_mem _ _ _ ops hops)
  · rintro s op ⟨h, hlow⟩ hop
    exact ⟨step_valid checks cr s op h, step_low checks cr s op h hop hlow⟩
  · rintro s op ⟨h, hlocal, hbest⟩ hop
    exact hasRoom_of_low cr s op h hop hlocal hbest

end SyncManager

end Kratos
