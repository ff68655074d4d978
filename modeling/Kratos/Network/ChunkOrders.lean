import Kratos.Network.Snapshots
import Kratos.Lib.Run

/-!
# Chunks in any order

However the chunks of a snapshot arrive, with repetitions and among chunks that are
rejected, the manager holds the ones it was given and knows which are missing
(`holds_foldl`).  `verify_state` takes the header before it looks at the chunks, so a
call that comes too early ends the download (`download_completes_iff`).
-/

namespace Kratos

inductive WarpCall where
  | stateChunk (chunk : StateChunk)
  | verifyState
deriving DecidableEq

namespace WarpSyncManager

def call (cr : Crypto) (m : WarpSyncManager) : WarpCall → WarpSyncManager
  | .stateChunk chunk => (m.handleStateChunk cr chunk).1
  | .verifyState => (m.verifyState cr).1

/-- A chunk is one of the snapshot or is rejected. -/
def HonestOrRejected (cr : Crypto) (s : StateSnapshot) (m : WarpSyncManager) (c : WarpCall) : Prop :=
  ∀ chunk, c = .stateChunk chunk → chunk ∈ s.chunks ∨ (m.handleStateChunk cr chunk).2 ≠ .ok ()

/-- The calls have brought every chunk. -/
def AllPresent (s : StateSnapshot) (calls : List WarpCall) : Prop :=
  ∀ chunk ∈ s.chunks, .stateChunk chunk ∈ calls

instance (s : StateSnapshot) (calls : List WarpCall) : Decidable (AllPresent s calls) :=
  inferInstanceAs (Decidable (∀ chunk ∈ s.chunks, _))

/-- No call so far was a verification of a complete download. -/
def Unverified (s : StateSnapshot) (calls : List WarpCall) : Prop :=
  ∀ k, calls[k]? = some .verifyState → ¬ AllPresent s (calls.take k)

/-- What the manager answers after some calls. -/
structure AnswersAfter (cr : Crypto) (s : StateSnapshot) (calls : List WarpCall) (m : WarpSyncManager) : Prop where
  verifying_iff : m.state = .verifyingState ↔ AllPresent s calls
  needed_iff : ∀ i, i ∈ m.chunksNeeded ↔ ∃ chunk ∈ s.chunks, chunk.index = i ∧ .stateChunk chunk ∉ calls
  verified : AllPresent s calls → (m.verifyState cr).2 = .ok s

/-- A verification that comes too early fails and leaves what was received. -/
def SurvivesVerify (cr : Crypto) (s : StateSnapshot) (m : WarpSyncManager) : Prop :=
  (∃ e, (m.verifyState cr).2 = .error e) ∧ (m.verifyState cr).1.snapshotHeader = some s.header ∧
    (m.verifyState cr).1.receivedChunks = m.receivedChunks

/-- Up to the verification of the complete download the manager answers right and a
verification before that does no harm. -/
def Completes (cr : Crypto) (s : StateSnapshot) (m : WarpSyncManager) (calls : List WarpCall) : Prop :=
  ∀ k, Unverified s (calls.take k) →
    AnswersAfter cr s (calls.take k) ((calls.take k).foldl (call cr) m) ∧
    (calls[k]? = some .verifyState → ¬ AllPresent s (calls.take k) →
      SurvivesVerify cr s ((calls.take k).foldl (call cr) m))

/-! ## Taking the chunks out -/

theorem takeChunks_range' (cs : List StateChunk) (start : Nat) (received : SortedMap Nat StateChunk)
    (h : ∀ k c, cs[k]? = some c → received.find? (start + k) = some c) :
    (takeChunks received (List.range' start cs.length)).2 = some cs := by
  induction cs generalizing start received with
  | nil => rfl
  | cons c cs ih =>
    have hfirst : received.find? start = some c := h 0 c rfl
    have hrest : ∀ k d, cs[k]? = some d → (received.erase start).find? (start + 1 + k) = some d := by
      intro k d hd
      rw [SortedMap.find?_erase, if_neg (by omega), show start + 1 + k = start + (k + 1) by omega]
      exact h (k + 1) d hd
    rw [List.length_cons, List.range'_succ, takeChunks, hfirst]
    simp only
    rw [ih (start + 1) _ hrest]
    rfl

/-- A verification takes the header, whatever comes out. -/
theorem verifyState_header (cr : Crypto) (m : WarpSyncManager) : (m.verifyState cr).1.snapshotHeader = none := by
  unfold verifyState
  split
  · next h => exact h
  · simp only
    split
    · rfl
    · split <;> rfl

/-! ## What the manager holds -/

section Holds

/-- The manager holds the chunks that were brought, each under its index. -/
structure Holds (s : StateSnapshot) (calls : List WarpCall) (m : WarpSyncManager) : Prop where
  header_eq : m.snapshotHeader = some s.header
  find?_eq : ∀ i, m.receivedChunks.find? i = (s.chunks[i]?).filter fun c => decide (WarpCall.stateChunk c ∈ calls)
  state_eq : m.state =
    if m.receivedChunks.size = s.chunks.length then .verifyingState
    else .downloadingState s.chunks.length m.receivedChunks.size

variable (cr : Crypto) (s : StateSnapshot) (hverify : s.verify cr = true) (hlt : s.chunks.length < 2 ^ 32)

theorem mem_range_of_find (s : StateSnapshot) (received : SortedMap Nat StateChunk) (p : StateChunk → Bool)
    (h : ∀ i, received.find? i = (s.chunks[i]?).filter p) : ∀ i ∈ received.keys, i ∈ List.range s.chunks.length := by
  intro i hi
  obtain ⟨c, hc⟩ := (received.mem_keys_iff i).mp hi
  rw [h i, Option.filter_eq_some_iff] at hc
  exact List.mem_range.mpr (List.getElem?_eq_some_iff.mp hc.1).1

/-- The number of chunks says whether all are there. -/
theorem Holds.size_eq_iff (s : StateSnapshot) (calls : List WarpCall) (m : WarpSyncManager) (h : Holds s calls m) :
    m.receivedChunks.size = s.chunks.length ↔ AllPresent s calls := by
  have hsize := m.receivedChunks.size_eq_length_iff (List.range s.chunks.length) List.nodup_range
    (mem_range_of_find s m.receivedChunks _ h.find?_eq)
  rw [List.length_range] at hsize
  rw [hsize]
  constructor
  · intro hall c hc
    obtain ⟨i, hi⟩ := List.mem_iff_getElem?.mp hc
    obtain ⟨d, hd⟩ := hall i (List.mem_range.mpr (List.getElem?_eq_some_iff.mp hi).1)
    rw [h.find?_eq i, hi, Option.filter_eq_some_iff] at hd
    obtain ⟨heq, hmem⟩ := hd
    cases heq
    exact of_decide_eq_true hmem
  · intro hall i hi
    have hbound := List.mem_range.mp hi
    refine ⟨s.chunks[i], ?_⟩
    rw [h.find?_eq i, Option.filter_eq_some_iff]
    exact ⟨List.getElem?_eq_getElem hbound, decide_eq_true (hall _ (List.getElem_mem hbound))⟩

include hverify hlt

theorem totalChunks_eq : s.header.totalChunks = s.chunks.length := by
  have h := ((s.verify_iff cr).mp hverify).1
  rw [← h, Nat.mod_eq_of_lt hlt]

theorem index_eq (i : Nat) (c : StateChunk) (h : s.chunks[i]? = some c) : c.index = i := by
  rw [((s.verify_iff cr).mp hverify).2.1 i c h]
  have := (List.getElem?_eq_some_iff.mp h).1
  exact Nat.mod_eq_of_lt (by omega)

/-- A chunk of the snapshot is entered under its index. -/
theorem handleStateChunk_honest (m : WarpSyncManager) (hm : m.snapshotHeader = some s.header) (c : StateChunk)
    (hc : c ∈ s.chunks) :
    m.handleStateChunk cr c =
      ({ m with
          receivedChunks := m.receivedChunks.insert c.index c
          state :=
            if (m.receivedChunks.insert c.index c).size % 2 ^ 32 = s.chunks.length then .verifyingState
            else .downloadingState s.chunks.length ((m.receivedChunks.insert c.index c).size % 2 ^ 32) }, .ok ()) := by
  obtain ⟨i, hi⟩ := List.mem_iff_getElem?.mp hc
  have hindex := index_eq cr s hverify hlt i c hi
  have hbound := (List.getElem?_eq_some_iff.mp hi).1
  have hproof := ((s.verify_iff cr).mp hverify).2.2 c hc
  have htotal := totalChunks_eq cr s hverify hlt
  unfold handleStateChunk
  rw [hm]
  simp only
  rw [if_neg (by omega), hproof, Bool.not_true, if_neg (by simp), htotal]

/-- The header opens the download. -/
theorem holds_handleSnapshotHeader (m : WarpSyncManager) (hpos : 0 < s.chunks.length)
    (h : (m.handleSnapshotHeader s.header).2 = .ok ()) : Holds s [] (m.handleSnapshotHeader s.header).1 := by
  have htotal := totalChunks_eq cr s hverify hlt
  unfold handleSnapshotHeader at h ⊢
  split at h
  · cases h
  · next hage =>
    rw [if_neg hage]
    refine ⟨rfl, ?_, ?_⟩
    · intro i
      simp only [List.not_mem_nil, decide_false]
      cases s.chunks[i]? <;> rfl
    · show WarpSyncState.downloadingState s.header.totalChunks 0 = _
      rw [htotal, if_neg]
      · rfl
      · show ¬ 0 = s.chunks.length
        omega

/-- A chunk, honest or rejected, leaves the manager with the chunks that were brought. -/
theorem holds_stateChunk (calls : List WarpCall) (m : WarpSyncManager) (c : StateChunk) (h : Holds s calls m)
    (hc : HonestOrRejected cr s m (.stateChunk c)) :
    Holds s (calls ++ [.stateChunk c]) (m.call cr (.stateChunk c)) := by
  by_cases hmem : c ∈ s.chunks
  · have hcall : m.call cr (.stateChunk c) = _ :=
      congrArg Prod.fst (handleStateChunk_honest cr s hverify hlt m h.header_eq c hmem)
    obtain ⟨i, hi⟩ := List.mem_iff_getElem?.mp hmem
    have hindex := index_eq cr s hverify hlt i c hi
    have hfind : ∀ j, (m.receivedChunks.insert c.index c).find? j =
        (s.chunks[j]?).filter fun d => decide (WarpCall.stateChunk d ∈ calls ++ [.stateChunk c]) := by
      intro j
      rw [SortedMap.find?_insert, hindex]
      split
      · next hj =>
        rw [hj, hi]
        exact (Option.filter_eq_some_iff.mpr ⟨rfl, by simp⟩).symm
      · next hj =>
        rw [h.find?_eq j]
        cases hd : s.chunks[j]? with
        | none => rfl
        | some d =>
          -- a chunk with another index is another chunk
          have hne : d ≠ c := by
            rintro rfl
            exact hj ((index_eq cr s hverify hlt j d hd).symm.trans hindex)
          simp [Option.filter, hne]
    have hsize := (m.receivedChunks.insert c.index c).size_le_of_keys _ (mem_range_of_find s _ _ hfind)
    rw [List.length_range] at hsize
    rw [hcall, Nat.mod_eq_of_lt (by omega)]
    exact ⟨h.header_eq, hfind, rfl⟩
  · -- a rejected chunk changes nothing and is not one of the snapshot
    have hsame : m.call cr (.stateChunk c) = m := by
      have herr := (hc c rfl).resolve_left hmem
      show (m.handleStateChunk cr c).1 = m
      unfold handleStateChunk at herr ⊢
      rw [h.header_eq] at herr ⊢
      simp only at herr ⊢
      split
      · rfl
      · next hindex =>
        rw [if_neg hindex] at herr
        split
        · rfl
        · next hproof =>
          rw [if_neg hproof] at herr
          exact absurd rfl herr
    rw [hsame]
    refine ⟨h.header_eq, ?_, h.state_eq⟩
    intro i
    rw [h.find?_eq i]
    cases hd : s.chunks[i]? with
    | none => rfl
    | some d =>
      have hne : d ≠ c := by
        rintro rfl
        exact hmem (List.mem_of_getElem? hd)
      simp [Option.filter, hne]

/-- **Any order.**  What is held after calls with chunks alone is what they brought. -/
theorem holds_foldl (m : WarpSyncManager) (h : Holds s [] m) (calls : List WarpCall)
    (hchunks : .verifyState ∉ calls) (hm : Run.Meets (call cr) (HonestOrRejected cr s) m calls) :
    Holds s calls (calls.foldl (call cr) m) := by
  induction calls using List.reverseRecOn with
  | nil => exact h
  | append_singleton calls c ih =>
    rw [Run.meets_append] at hm
    rw [List.mem_append, not_or] at hchunks
    rw [List.foldl_append]
    cases c with
    | verifyState => exact absurd List.mem_cons_self hchunks.2
    | stateChunk chunk => exact holds_stateChunk cr s hverify hlt calls _ chunk (ih hchunks.1 hm.1) hm.2.1

/-- What is held gives the answers. -/
theorem Holds.answersAfter (calls : List WarpCall) (m : WarpSyncManager) (h : Holds s calls m) :
    AnswersAfter cr s calls m where
  verifying_iff := by
    rw [h.state_eq, ← h.size_eq_iff s calls m]
    split
    · next hs => simp [hs]
    · next hs => simp [hs]
  needed_iff := by
    intro i
    unfold chunksNeeded
    rw [h.header_eq]
    simp only
    rw [totalChunks_eq cr s hverify hlt, List.mem_filter, List.mem_range, SortedMap.contains, h.find?_eq i]
    constructor
    · rintro ⟨hi, hmissing⟩
      have hd : s.chunks[i]? = some s.chunks[i] := List.getElem?_eq_getElem hi
      refine ⟨s.chunks[i], List.getElem_mem hi, index_eq cr s hverify hlt i _ hd, ?_⟩
      intro hin
      rw [hd, Option.filter_some_pos (by simpa using hin)] at hmissing
      cases hmissing
    · rintro ⟨c, hc, hindex, hnot⟩
      obtain ⟨j, hj⟩ := List.mem_iff_getElem?.mp hc
      obtain rfl : j = i := (index_eq cr s hverify hlt j c hj).symm.trans hindex
      refine ⟨(List.getElem?_eq_some_iff.mp hj).1, ?_⟩
      rw [hj, Option.filter_some_neg (by simpa using hnot)]
      rfl
  verified := by
    intro hall
    have hfind : ∀ k c, s.chunks[k]? = some c → m.receivedChunks.find? (0 + k) = some c := by
      intro k c hk
      rw [Nat.zero_add, h.find?_eq k, Option.filter_eq_some_iff]
      exact ⟨hk, decide_eq_true (hall c (List.mem_of_getElem? hk))⟩
    have htake := takeChunks_range' s.chunks 0 m.receivedChunks hfind
    rw [← List.range_eq_range', ← totalChunks_eq cr s hverify hlt] at htake
    unfold verifyState
    rw [h.header_eq]
    simp only
    rw [htake]
    simp only
    rw [show ({ header := s.header, chunks := s.chunks } : StateSnapshot) = s from rfl, hverify, Bool.not_true,
      if_neg (by simp)]

end Holds

/-! ## Runs -/

section Runs

variable (cr : Crypto) (s : StateSnapshot)

/-- Without chunks there is no call that ends the download. -/
theorem not_completes_of_empty (m : WarpSyncManager) (calls : List WarpCall) (hempty : s.chunks = [])
    (h : (m.handleSnapshotHeader s.header).2 = .ok ()) :
    ¬ Completes cr s (m.handleSnapshotHeader s.header).1 calls := by
  intro hc
  have hall : AllPresent s (calls.take 0) := by
    intro c hmem
    rw [hempty] at hmem
    cases hmem
  have hverifying := ((hc 0 fun k hk => by simp at hk).1.verifying_iff).mpr hall
  unfold handleSnapshotHeader at h hverifying
  split at h
  · cases h
  · next hage =>
    rw [List.take_zero, List.foldl_nil, if_neg hage] at hverifying
    cases hverifying

/-- An early verification leaves no header. -/
theorem allPresent_of_completes (m : WarpSyncManager) (calls : List WarpCall) (h : Completes cr s m calls) (k : Nat)
    (hk : calls[k]? = some .verifyState) : AllPresent s (calls.take k) := by
  by_contra hnot
  have hun : Unverified s (calls.take k) := by
    intro j hj hall
    apply hnot
    intro c hc
    have hin := hall c hc
    rw [List.take_take] at hin
    exact List.take_subset_take_left calls (Nat.min_le_right _ _) hin
  have hsurvives := (h k hun).2 hk hnot
  have hheader := hsurvives.2.1
  rw [verifyState_header] at hheader
  cases hheader

theorem completes_of_holds (hverify : s.verify cr = true) (hlt : s.chunks.length < 2 ^ 32) (m : WarpSyncManager)
    (h : Holds s [] m) (calls : List WarpCall) (hm : Run.Meets (call cr) (HonestOrRejected cr s) m calls)
    (hlate : ∀ k, calls[k]? = some .verifyState → AllPresent s (calls.take k)) : Completes cr s m calls := by
  intro k hun
  have hchunks : .verifyState ∉ calls.take k := by
    intro hmem
    obtain ⟨j, hj⟩ := List.mem_iff_getElem?.mp hmem
    have hjk := (List.getElem?_eq_some_iff.mp hj).1
    rw [List.length_take] at hjk
    have hall := hun j hj
    rw [List.take_take, Nat.min_eq_left (by omega)] at hall
    rw [List.getElem?_take_of_lt (by omega)] at hj
    exact hall (hlate j hj)
  have hholds := holds_foldl cr s hverify hlt m h (calls.take k) hchunks (Run.meets_take _ _ m calls hm k)
  exact ⟨hholds.answersAfter cr s hverify hlt _ _, fun hv hnot => absurd (hlate k hv) hnot⟩

end Runs

/-- From 2³² chunks on, the last index is missing but not asked for. -/
theorem not_completes_of_le (cr : Crypto) (blockNumber : Nat) (blockHash : Hash) (stateRoot : StateRoot)
    (accounts : List (AccountId × AccountInfo)) (chunkSize createdAt : Nat) (m : WarpSyncManager)
    (calls : List WarpCall)
    (hle : 2 ^ 32 ≤ (StateSnapshot.new cr blockNumber blockHash stateRoot accounts chunkSize createdAt).chunks.length)
    (h : (m.handleSnapshotHeader
      (StateSnapshot.new cr blockNumber blockHash stateRoot accounts chunkSize createdAt).header).2 = .ok ()) :
    ¬ Completes cr (StateSnapshot.new cr blockNumber blockHash stateRoot accounts chunkSize createdAt)
      (m.handleSnapshotHeader
        (StateSnapshot.new cr blockNumber blockHash stateRoot accounts chunkSize createdAt).header).1 calls := by
  intro hc
  have hneeded := (hc 0 fun k hk => by simp at hk).1.needed_iff (2 ^ 32 - 1)
  rw [StateSnapshot.new_length] at hle
  obtain ⟨l, hl⟩ : ∃ l, (chunks chunkSize accounts)[2 ^ 32 - 1]? = some l :=
    ⟨_, List.getElem?_eq_getElem (by omega)⟩
  have hlast := StateSnapshot.new_chunks_getElem? cr blockNumber blockHash stateRoot accounts chunkSize createdAt
    (2 ^ 32 - 1)
  rw [hl, Option.map_some] at hlast
  have hin := hneeded.mpr ⟨_, List.mem_of_getElem? hlast, rfl, by simp⟩
  unfold handleSnapshotHeader at h hin
  split at h
  · cases h
  · next hage =>
    rw [List.take_zero, List.foldl_nil, if_neg hage] at hin
    have hlt := List.mem_range.mp (List.mem_filter.mp hin).1
    rw [StateSnapshot.new_totalChunks] at hlt
    have := Nat.mod_lt (chunks chunkSize accounts).length (Nat.two_pow_pos 32)
    omega

/-- **A download completes exactly if nothing is verified too early.**  A manager that accepted the
header of a built snapshot, and is then given its chunks in any order among chunks it rejects,
answers right throughout if and only if the snapshot has a chunk, their number is a `u32` and
no verification comes before the last of them. -/
theorem download_completes_iff (cr : Crypto) (blockNumber : Nat) (blockHash : Hash) (stateRoot : StateRoot)
    (accounts : List (AccountId × AccountInfo)) (chunkSize createdAt : Nat) (m : WarpSyncManager)
    (calls : List WarpCall)
    (haccepted : (m.handleSnapshotHeader
      (StateSnapshot.new cr blockNumber blockHash stateRoot accounts chunkSize createdAt).header).2 = .ok ())
    (hcalls : Run.Meets (call cr)
      (HonestOrRejected cr (StateSnapshot.new cr blockNumber blockHash stateRoot accounts chunkSize createdAt))
      (m.handleSnapshotHeader
        (StateSnapshot.new cr blockNumber blockHash stateRoot accounts chunkSize createdAt).header).1 calls) :
    Completes cr (StateSnapshot.new cr blockNumber blockHash stateRoot accounts chunkSize createdAt)
      (m.handleSnapshotHeader
        (StateSnapshot.new cr blockNumber blockHash stateRoot accounts chunkSize createdAt).header).1 calls ↔
      0 < (StateSnapshot.new cr blockNumber blockHash stateRoot accounts chunkSize createdAt).chunks.length ∧
      (StateSnapshot.new cr blockNumber blockHash stateRoot accounts chunkSize createdAt).chunks.length < 2 ^ 32 ∧
      ∀ k, calls[k]? = some .verifyState →
        AllPresent (StateSnapshot.new cr blockNumber blockHash stateRoot accounts chunkSize createdAt)
          (calls.take k) := by
  constructor
  · intro hc
    refine ⟨?_, ?_, fun k hk => allPresent_of_completes cr _ _ calls hc k hk⟩
    · by_contra hzero
      exact not_completes_of_empty cr _ m calls (List.eq_nil_of_length_eq_zero (by omega)) haccepted hc
    · by_contra hge
      exact not_completes_of_le cr blockNumber blockHash stateRoot accounts chunkSize createdAt m calls (by omega)
        haccepted hc
  · rintro ⟨hpos, hlt, hlate⟩
    have hverify := StateSnapshot.verify_new_of_lt cr blockNumber blockHash stateRoot accounts chunkSize createdAt
      (by rwa [StateSnapshot.new_length] at hlt)
    exact completes_of_holds cr _ hverify hlt _ (holds_handleSnapshotHeader cr _ hverify hlt m hpos haccepted) calls
      hcalls hlate

/-- The two chunks of the sample, the second one first and twice, then the verification. -/
def backwardCalls : List WarpCall :=
  (StateSnapshot.sampleSnapshot.chunks.reverse ++ StateSnapshot.sampleSnapshot.chunks.reverse).map .stateChunk ++
    [.verifyState]

theorem meets_of_mem_chunks (cr : Crypto) (s : StateSnapshot) (m : WarpSyncManager) (calls : List WarpCall)
    (h : ∀ c, WarpCall.stateChunk c ∈ calls → c ∈ s.chunks) :
    Run.Meets (call cr) (HonestOrRejected cr s) m calls := by
  rw [Run.meets_iff_split]
  rintro pre c post rfl chunk rfl
  exact .inl (h chunk (by simp))

theorem download_completes_sample :
    ((new 0).handleSnapshotHeader StateSnapshot.sampleSnapshot.header).2 = .ok () ∧
    Completes Crypto.sample StateSnapshot.sampleSnapshot
      ((new 0).handleSnapshotHeader StateSnapshot.sampleSnapshot.header).1 backwardCalls := by
  refine ⟨rfl, (download_completes_iff Crypto.sample 1500 Hash.zero (StateRoot.zero ⟨0⟩)
    StateSnapshot.sampleAccounts 2 0 (new 0) backwardCalls rfl (meets_of_mem_chunks _ _ _ _ ?_)).mpr ⟨?_, ?_, ?_⟩⟩
  · intro c hc
    rw [backwardCalls, List.mem_append, List.mem_map] at hc
    rcases hc with ⟨d, hd, heq⟩ | hc
    · cases heq
      exact (List.mem_append.mp hd).elim List.mem_reverse.mp List.mem_reverse.mp
    · simp at hc
  · decide +kernel
  · decide +kernel
  · intro k hk
    have hk4 : k = 4 := by
      have hlt := (List.getElem?_eq_some_iff.mp hk).1
      have hlen : backwardCalls.length = 5 := by decide +kernel
      by_contra hne
      have hnot : ∀ k, k < 4 → backwardCalls[k]? ≠ some .verifyState := by decide +kernel
      exact hnot k (by omega) hk
    subst hk4
    show AllPresent StateSnapshot.sampleSnapshot _
    decide +kernel

/-- The first chunk of the sample, a verification, and then both chunks. -/
def earlyCalls : List WarpCall :=
  (StateSnapshot.sampleSnapshot.chunks.take 1).map .stateChunk ++
    .verifyState :: StateSnapshot.sampleSnapshot.chunks.map .stateChunk

/-- After a verification that came too early all chunks together do not complete the download. -/
theorem early_verification_ends_download :
    (earlyCalls.foldl (call Crypto.sample) StateSnapshot.sampleManager).state = .downloadingState 2 1 ∧
    ¬ Completes Crypto.sample StateSnapshot.sampleSnapshot StateSnapshot.sampleManager earlyCalls := by
  refine ⟨by decide +kernel, fun h => ?_⟩
  have hall := allPresent_of_completes Crypto.sample StateSnapshot.sampleSnapshot StateSnapshot.sampleManager
    earlyCalls h 1 (by decide +kernel)
  revert hall
  decide +kernel

end WarpSyncManager

end Kratos
