import Kratos.Lib.Run
import Kratos.Node.Producer

/-!
# Finality by confirmations

A tracked block is finalized once a block as many numbers ahead as confirmations are required is
tracked.  Blocks come in any order, and a block replaces the one tracked under its number.  The
finalized number only grows, it is `confirmations` behind a block that was added, and the finalized
hash is the one that was added last under the number when it was finalized (`finality_by_confirmations`).
-/

namespace Kratos.FinalityTracker

/-! ## One call -/

/-- What finalizing some blocks does to a tracker. -/
theorem foldl_finalize (l : List (Nat × Hash)) (t : FinalityTracker) :
    (l.foldl finalize t).pendingFinality = t.pendingFinality ∧
      (l.foldl finalize t).confirmationsRequired = t.confirmationsRequired ∧
      (((l.foldl finalize t).finalizedBlock = t.finalizedBlock ∧
          (l.foldl finalize t).finalizedHash = t.finalizedHash) ∨
        ∃ e ∈ l, t.finalizedBlock < e.1 ∧ (l.foldl finalize t).finalizedBlock = e.1 ∧
          (l.foldl finalize t).finalizedHash = e.2) := by
  induction l generalizing t with
  | nil => exact ⟨rfl, rfl, .inl ⟨rfl, rfl⟩⟩
  | cons e l ih =>
    rw [List.foldl_cons]
    obtain ⟨hpending, hconf, hfin⟩ := ih (t.finalize e)
    have hsame : (t.finalize e).pendingFinality = t.pendingFinality ∧
        (t.finalize e).confirmationsRequired = t.confirmationsRequired := by
      unfold finalize
      split <;> exact ⟨rfl, rfl⟩
    refine ⟨hpending.trans hsame.1, hconf.trans hsame.2, ?_⟩
    by_cases hgt : e.1 > t.finalizedBlock
    · rw [finalize, if_pos hgt] at hfin ⊢
      rcases hfin with ⟨hb, hh⟩ | ⟨e', he', hlt, hb, hh⟩
      · exact .inr ⟨e, List.mem_cons_self, hgt, hb, hh⟩
      · exact .inr ⟨e', List.mem_cons_of_mem e he', lt_trans hgt hlt, hb, hh⟩
    · rw [finalize, if_neg hgt] at hfin ⊢
      rcases hfin with hold | ⟨e', he', hrest⟩
      · exact .inl hold
      · exact .inr ⟨e', List.mem_cons_of_mem e he', hrest⟩

theorem find?_foldl_erase (l : List (Nat × Hash)) (m : SortedMap Nat Hash) (n : Nat) :
    (l.foldl (fun pending e => pending.erase e.1) m).find? n = if n ∈ l.map Prod.fst then none else m.find? n := by
  induction l generalizing m with
  | nil => rfl
  | cons e l ih =>
    rw [List.foldl_cons, ih, SortedMap.find?_erase, List.map_cons]
    by_cases hl : n ∈ l.map Prod.fst
    · rw [if_pos hl, if_pos (List.mem_cons_of_mem _ hl)]
    · rw [if_neg hl]
      by_cases he : n = e.1
      · rw [if_pos he, if_pos (he ▸ List.mem_cons_self)]
      · rw [if_neg he, if_neg (List.not_mem_cons_of_ne_of_not_mem he hl)]

/-- What a call does, where `pending` is tracked with the new block and `latest` is its last number. -/
structure Finalizes (t : FinalityTracker) (pending : SortedMap Nat Hash) (latest : Nat) (t' : FinalityTracker) :
    Prop where
  latest_mem : ∃ h, pending.find? latest = some h
  le_latest : ∀ n h, pending.find? n = some h → n ≤ latest
  confirmations : t'.confirmationsRequired = t.confirmationsRequired
  kept : ∀ n h, t'.pendingFinality.find? n = some h ↔
    pending.find? n = some h ∧ latest - t.confirmationsRequired < n
  finalized : (t'.finalizedBlock = t.finalizedBlock ∧ t'.finalizedHash = t.finalizedHash) ∨
    (t.finalizedBlock < t'.finalizedBlock ∧ t'.finalizedBlock ≤ latest - t.confirmationsRequired ∧
      pending.find? t'.finalizedBlock = some t'.finalizedHash)

theorem addBlock_finalizes (t : FinalityTracker) (b : Nat × Hash) :
    ∃ latest, Finalizes t (t.pendingFinality.insert b.1 b.2) latest (t.addBlock b.1 b.2) := by
  have hmem : b.1 ∈ (t.pendingFinality.insert b.1 b.2).keys :=
    (SortedMap.mem_keys_iff _ _).mpr ⟨b.2, SortedMap.find?_insert_self _ _ _⟩
  unfold addBlock updateFinality
  generalize t.pendingFinality.insert b.1 b.2 = pending at hmem ⊢
  obtain ⟨latest, hlast⟩ := Option.isSome_iff_exists.mp (List.getLast?_isSome.mpr (List.ne_nil_of_mem hmem))
  simp only [hlast]
  obtain ⟨hpending, hconf, hfin⟩ := foldl_finalize
    (pending.entries.filter fun e => e.1 ≤ latest - t.confirmationsRequired) { t with pendingFinality := pending }
  refine ⟨latest, ?_, ?_, hconf, ?_, ?_⟩
  · exact (SortedMap.mem_keys_iff _ _).mp (List.mem_of_getLast? hlast)
  · intro n h hn
    obtain ⟨l, hl⟩ := List.getLast?_eq_some_iff.mp hlast
    have hsorted : pending.keys.Pairwise (· < ·) := List.pairwise_map.mpr pending.sorted
    have hk := (SortedMap.mem_keys_iff _ _).mpr ⟨h, hn⟩
    rw [hl] at hsorted hk
    rcases List.mem_append.mp hk with hin | hend
    · exact le_of_lt ((List.pairwise_append.mp hsorted).2.2 n hin latest (List.mem_singleton_self latest))
    · exact le_of_eq (List.mem_singleton.mp hend)
  · intro n h
    rw [hpending, find?_foldl_erase]
    constructor
    · intro hn
      split at hn
      · cases hn
      · next hnot =>
        refine ⟨hn, Nat.lt_of_not_le fun hle => hnot ?_⟩
        exact List.mem_map.mpr ⟨(n, h), List.mem_filter.mpr ⟨(pending.mem_entries_iff n h).mpr hn, by simpa using hle⟩, rfl⟩
    · rintro ⟨hn, hlt⟩
      rw [if_neg, hn]
      intro hmap
      obtain ⟨e, he, rfl⟩ := List.mem_map.mp hmap
      have := of_decide_eq_true (List.mem_filter.mp he).2
      omega
  · rcases hfin with hold | ⟨e, he, hlt, hb, hh⟩
    · exact .inl hold
    · obtain ⟨hentry, hle⟩ := List.mem_filter.mp he
      refine .inr ⟨?_, ?_, ?_⟩
      · simp only [hb]
        exact hlt
      · simp only [hb]
        exact of_decide_eq_true hle
      · simp only [hb, hh]
        exact (pending.mem_entries_iff e.1 e.2).mp hentry

theorem Finalizes.mono {t t' : FinalityTracker} {pending : SortedMap Nat Hash} {latest : Nat}
    (h : Finalizes t pending latest t') : t.finalizedBlock ≤ t'.finalizedBlock := by
  rcases h.finalized with ⟨hb, -⟩ | ⟨hlt, -⟩
  · exact hb.ge
  · exact hlt.le

/-! ## Runs -/

/-- The tracker after some calls. -/
def after (genesisHash : Hash) (confirmations : Nat) (blocks : List (Nat × Hash)) : FinalityTracker :=
  blocks.foldl (fun t b => t.addBlock b.1 b.2) (new genesisHash confirmations)

/-- The hashes added last under each number. -/
def lastAdded (blocks : List (Nat × Hash)) : SortedMap Nat Hash :=
  blocks.foldl (fun added b => added.insert b.1 b.2) .empty

theorem after_concat (g : Hash) (c : Nat) (blocks : List (Nat × Hash)) (b : Nat × Hash) :
    after g c (blocks ++ [b]) = (after g c blocks).addBlock b.1 b.2 := List.foldl_append

theorem lastAdded_concat (blocks : List (Nat × Hash)) (b : Nat × Hash) :
    lastAdded (blocks ++ [b]) = (lastAdded blocks).insert b.1 b.2 := List.foldl_append

theorem mem_of_lastAdded (blocks : List (Nat × Hash)) (n : Nat) (h : Hash) (hn : (lastAdded blocks).find? n = some h) :
    (n, h) ∈ blocks := by
  induction blocks using List.reverseRecOn with
  | nil => cases hn
  | append_singleton blocks b ih =>
    rw [lastAdded_concat, SortedMap.find?_insert] at hn
    split at hn
    · next heq =>
      cases hn
      rw [heq]
      exact List.mem_append_right _ (List.mem_singleton_self b)
    · exact List.mem_append_left _ (ih hn)

/-- The block a call of the run finalized last: it was added last under its number up to that call, and
a block that many confirmations ahead was added. -/
def FinalizedBy (g : Hash) (c : Nat) (blocks : List (Nat × Hash)) (number : Nat) (hash : Hash) : Prop :=
  ∃ pre b post, blocks = pre ++ b :: post ∧ (after g c pre).finalizedBlock < number ∧
    (after g c (pre ++ [b])).finalizedBlock = number ∧ (lastAdded (pre ++ [b])).find? number = some hash ∧
    ∃ e ∈ pre ++ [b], number + c ≤ e.1

/-- What a run of calls keeps. -/
structure Tracked (g : Hash) (c : Nat) (blocks : List (Nat × Hash)) (t : FinalityTracker) : Prop where
  confirmations : t.confirmationsRequired = c
  pending_added : ∀ n h, t.pendingFinality.find? n = some h → (lastAdded blocks).find? n = some h
  pending_gt : ∀ n h, t.pendingFinality.find? n = some h → t.finalizedBlock < n
  /-- The block that the finalized one is behind is still pending. -/
  ahead : c = 0 ∨ t.finalizedBlock = 0 ∨ ∃ n h, t.pendingFinality.find? n = some h ∧ t.finalizedBlock + c ≤ n
  origin : (t.finalizedBlock = 0 ∧ t.finalizedHash = g) ∨ FinalizedBy g c blocks t.finalizedBlock t.finalizedHash

theorem tracked_new (g : Hash) (c : Nat) : Tracked g c [] (new g c) where
  confirmations := rfl
  pending_added := fun n h hn => by cases hn
  pending_gt := fun n h hn => by cases hn
  ahead := .inr (.inl rfl)
  origin := .inl ⟨rfl, rfl⟩

theorem Tracked.pending_insert {g : Hash} {c : Nat} {blocks : List (Nat × Hash)} {t : FinalityTracker}
    (ht : Tracked g c blocks t) (b : Nat × Hash) (n : Nat) (h : Hash)
    (hn : (t.pendingFinality.insert b.1 b.2).find? n = some h) : (lastAdded (blocks ++ [b])).find? n = some h := by
  rw [lastAdded_concat, SortedMap.find?_insert]
  rw [SortedMap.find?_insert] at hn
  split at hn
  · next heq => rw [if_pos heq, hn]
  · next hne => rw [if_neg hne, ht.pending_added n h hn]

theorem tracked_after (g : Hash) (c : Nat) (blocks : List (Nat × Hash)) :
    Tracked g c blocks (after g c blocks) := by
  induction blocks using List.reverseRecOn with
  | nil => exact tracked_new g c
  | append_singleton blocks b ih =>
    obtain ⟨latest, hf⟩ := addBlock_finalizes (after g c blocks) b
    have hold := ih.confirmations
    have hadded := ih.pending_insert b
    obtain ⟨hl, hlatest⟩ := hf.latest_mem
    have hlargest := mem_of_lastAdded _ _ _ (hadded latest hl hlatest)
    -- the finalized number was behind a block that is still not after the latest
    have hbehind : c = 0 ∨ (after g c blocks).finalizedBlock = 0 ∨ (after g c blocks).finalizedBlock + c ≤ latest := by
      rcases ih.ahead with hc | hz | ⟨n, h, hn, hle⟩
      · exact .inl hc
      · exact .inr (.inl hz)
      · refine .inr (.inr (hle.trans ?_))
        by_cases heq : n = b.1
        · exact hf.le_latest n b.2 (by rw [heq, SortedMap.find?_insert_self])
        · exact hf.le_latest n h (by rw [SortedMap.find?_insert_ne _ _ _ _ heq, hn])
    have hle_threshold : (after g c (blocks ++ [b])).finalizedBlock = 0 ∨ c = 0 ∨
        (after g c (blocks ++ [b])).finalizedBlock + c ≤ latest := by
      rw [after_concat]
      rcases hf.finalized with ⟨hb, -⟩ | ⟨hlt, hle, -⟩
      · rw [hb]
        omega
      · rw [hold] at hle
        omega
    rw [after_concat] at hle_threshold ⊢
    refine ⟨hf.confirmations.trans hold, fun n h hn => hadded n h ((hf.kept n h).mp hn).1, ?_, ?_, ?_⟩
    · intro n h hn
      obtain ⟨hpending, hgt⟩ := (hf.kept n h).mp hn
      have hle := hf.le_latest n h hpending
      rw [hold] at hgt
      omega
    · rcases hle_threshold with hz | hc | hle
      · exact .inr (.inl hz)
      · exact .inl hc
      · by_cases hc : c = 0
        · exact .inl hc
        · by_cases hz : ((after g c blocks).addBlock b.1 b.2).finalizedBlock = 0
          · exact .inr (.inl hz)
          · refine .inr (.inr ⟨latest, hl, (hf.kept latest hl).mpr ⟨hlatest, ?_⟩, hle⟩)
            rw [hold]
            omega
    · rcases hf.finalized with ⟨hb, hh⟩ | ⟨hlt, hle, hfind⟩
      · rw [hb, hh]
        refine ih.origin.imp (fun h => h) ?_
        rintro ⟨pre, d, post, rfl, hrest⟩
        exact ⟨pre, d, post ++ [b], by simp, hrest⟩
      · refine .inr ⟨blocks, b, [], rfl, hlt, by rw [after_concat], hadded _ _ hfind, _, hlargest, ?_⟩
        rw [hold] at hle
        show _ ≤ latest
        omega

theorem after_mono (g : Hash) (c : Nat) (pre post : List (Nat × Hash)) :
    (after g c pre).finalizedBlock ≤ (after g c (pre ++ post)).finalizedBlock := by
  induction post using List.reverseRecOn with
  | nil => rw [List.append_nil]
  | append_singleton post b ih =>
    rw [← List.append_assoc, after_concat]
    obtain ⟨latest, hf⟩ := addBlock_finalizes (after g c (pre ++ post)) b
    exact ih.trans hf.mono

/-- **Finality by confirmations.**  In every run the finalized number only grows; it is zero, with the
genesis hash, or was finalized by a call, when a block `c` numbers ahead had been added, with the hash
added last under it; and what is pending is beyond it. -/
theorem finality_by_confirmations (g : Hash) (c : Nat) (blocks : List (Nat × Hash)) :
    (∀ pre post, blocks = pre ++ post → (after g c pre).finalizedBlock ≤ (after g c blocks).finalizedBlock) ∧
    ((after g c blocks).finalizedBlock = 0 ∨ ∃ e ∈ blocks, (after g c blocks).finalizedBlock + c ≤ e.1) ∧
    (((after g c blocks).finalizedBlock = 0 ∧ (after g c blocks).finalizedHash = g) ∨
      FinalizedBy g c blocks (after g c blocks).finalizedBlock (after g c blocks).finalizedHash) ∧
    ∀ n ∈ (after g c blocks).pendingFinality.keys, (after g c blocks).finalizedBlock < n := by
  have h := tracked_after g c blocks
  refine ⟨?_, ?_, h.origin, ?_⟩
  · rintro pre post rfl
    exact after_mono g c pre post
  · rcases h.origin with ⟨hz, -⟩ | ⟨pre, b, post, heq, -, -, -, e, he, hle⟩
    · exact .inl hz
    · refine .inr ⟨e, ?_, hle⟩
      rw [heq, List.append_cons]
      exact List.mem_append_left _ he
  · intro n hn
    obtain ⟨hash, hfind⟩ := (SortedMap.mem_keys_iff _ _).mp hn
    exact h.pending_gt n hash hfind

/-- Blocks out of order, and two of one number: the later one is finalized. -/
example : (after .zero 2 [(3, ⟨3⟩), (1, ⟨1⟩), (2, ⟨2⟩), (2, ⟨5⟩), (4, ⟨4⟩)]).finalizedHash = ⟨5⟩ := by decide

end Kratos.FinalityTracker
