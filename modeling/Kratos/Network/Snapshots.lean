import Kratos.Network.WarpSync

/-!
# What the checks of warp sync establish

`snapshots_verify_iff`: a snapshot verifies, and no chunk but its own is accepted against
its header, exactly if it has less than 2³² chunks.  `snapshots_bound_iff`: the root in
the header is the root of the chunks, so it is never the state root of the accounts,
with the exception of a snapshot without accounts.

The hash function is asked to separate the strings that are hashed on the two sides of a
comparison, and no others.
-/

namespace Kratos

namespace StateChunk

/-- The strings hashed to check a chunk. -/
def hashed (cr : Crypto) (c : StateChunk) : List (List UInt8) :=
  chunkData c.accounts ::
    (MerklePath.climbed (combineHashes cr) c.index c.chunkHash c.proof).map (MerklePath.pairBytes Hash.asBytes)

/-- The path of a single chunk is empty, so it needs no case of its own. -/
theorem verifyMerkleProof_iff (cr : Crypto) (c : StateChunk) (root : Hash) (total : Nat) :
    c.verifyMerkleProof cr root total = true ↔
      c.chunkHash = cr.blake3 (chunkData c.accounts) ∧ (c.proof = [] → total = 1) ∧
        c.proof.length = Nat.clog 2 total ∧
        MerklePath.climb (combineHashes cr) c.index c.chunkHash c.proof = root := by
  unfold verifyMerkleProof
  have hhash : (!c.verifyHash cr) = true ↔ ¬ c.chunkHash = cr.blake3 (chunkData c.accounts) := by
    rw [Bool.not_eq_true', verifyHash, decide_eq_false_iff_not]
    rfl
  split
  · next h =>
    rw [hhash] at h
    simp [h]
  · next h =>
    rw [hhash, not_not] at h
    split
    · next hempty =>
      rw [List.isEmpty_iff] at hempty
      rw [hempty]
      split
      · next hone => simp [h, hone, MerklePath.climb]
      · next hone => simp [hone]
    · next hempty =>
      rw [List.isEmpty_iff] at hempty
      split
      · next hlen => simp [hlen]
      · next hlen =>
        rw [ne_eq, not_not] at hlen
        simp [h, hempty, hlen]

end StateChunk

namespace StateSnapshot

theorem verify_iff (cr : Crypto) (s : StateSnapshot) :
    s.verify cr = true ↔
      s.chunks.length % 2 ^ 32 = s.header.totalChunks ∧
      (∀ i c, s.chunks[i]? = some c → c.index = i % 2 ^ 32) ∧
      ∀ c ∈ s.chunks, c.verifyMerkleProof cr s.header.stateRoot.root s.header.totalChunks = true := by
  have hany : (s.chunks.zipIdx.any fun e => e.1.index ≠ e.2 % 2 ^ 32) = true ↔
      ¬ ∀ i c, s.chunks[i]? = some c → c.index = i % 2 ^ 32 := by
    rw [List.any_eq_true]
    constructor
    · rintro ⟨⟨c, i⟩, hmem, hne⟩ hall
      exact (of_decide_eq_true hne) (hall i c (List.mem_zipIdx_iff_getElem?.1 hmem))
    · intro hall
      simp only [not_forall] at hall
      obtain ⟨i, c, hc, hne⟩ := hall
      exact ⟨(c, i), List.mem_zipIdx_iff_getElem?.2 hc, decide_eq_true hne⟩
  unfold verify
  split
  · next hlen => exact ⟨nofun, fun h => absurd h.1 hlen⟩
  · next hlen =>
    rw [ne_eq, not_not] at hlen
    split
    · next h =>
      rw [hany] at h
      exact ⟨nofun, fun hall => absurd hall.2.1 h⟩
    · next h =>
      rw [hany, not_not] at h
      rw [List.all_eq_true]
      exact ⟨fun hall => ⟨hlen, h, hall⟩, fun hall => hall.2.2⟩

/-! ## The snapshot that is built -/

/-- The leaves of the tree. -/
def chunkHashes (cr : Crypto) (cs : List (List (AccountId × AccountInfo))) : List Hash :=
  cs.map fun c => cr.blake3 (chunkData c)

/-- The chunk at an index. -/
def chunkAt (cr : Crypto) (cs : List (List (AccountId × AccountInfo))) (i : Nat)
    (c : List (AccountId × AccountInfo)) : StateChunk :=
  { index := i % 2 ^ 32, accounts := c, proof := generateMerkleProof cr (chunkHashes cr cs) (i % 2 ^ 32)
    chunkHash := cr.blake3 (chunkData c) }

/-- The strings hashed to build the tree. -/
def treeStrings (cr : Crypto) (cs : List (List (AccountId × AccountInfo))) : List (List UInt8) :=
  cs.map chunkData ++
    (MerklePath.combined (combineHashes cr) (chunkHashes cr cs).length (chunkHashes cr cs)).map
      (MerklePath.pairBytes Hash.asBytes)

section New

variable (cr : Crypto) (blockNumber : Nat) (blockHash : Hash) (stateRoot : StateRoot)
  (accounts : List (AccountId × AccountInfo)) (chunkSize createdAt : Nat)

theorem new_hashes (cs : List (List (AccountId × AccountInfo))) :
    ((cs.zipIdx.map fun e => (e.2 % 2 ^ 32, e.1, cr.blake3 (chunkData e.1))).map fun d => d.2.2) =
      chunkHashes cr cs := by
  rw [List.map_map, chunkHashes]
  nth_rewrite 2 [← List.zipIdx_map_fst 0 cs]
  rw [List.map_map]
  rfl

theorem new_chunks_getElem? (i : Nat) :
    (new cr blockNumber blockHash stateRoot accounts chunkSize createdAt).chunks[i]? =
      ((Kratos.chunks chunkSize accounts)[i]?).map (chunkAt cr (Kratos.chunks chunkSize accounts) i) := by
  unfold new
  simp only [new_hashes, List.getElem?_map, List.getElem?_zipIdx, Option.map_map]
  cases (Kratos.chunks chunkSize accounts)[i]? with
  | none => rfl
  | some c =>
    simp only [Option.map_some, Function.comp_apply, chunkAt, Nat.zero_add]

theorem new_length :
    (new cr blockNumber blockHash stateRoot accounts chunkSize createdAt).chunks.length =
      (Kratos.chunks chunkSize accounts).length := by
  simp [new]

theorem new_totalChunks :
    (new cr blockNumber blockHash stateRoot accounts chunkSize createdAt).header.totalChunks =
      (Kratos.chunks chunkSize accounts).length % 2 ^ 32 := by
  simp [new]

theorem new_root :
    (new cr blockNumber blockHash stateRoot accounts chunkSize createdAt).header.stateRoot.root =
      computeMerkleRoot cr (chunkHashes cr (Kratos.chunks chunkSize accounts)) := by
  unfold new
  simp only [new_hashes]

end New

/-! ## Completeness -/

section Complete

variable (cr : Crypto) (cs : List (List (AccountId × AccountInfo)))

theorem chunkHashes_getElem? (i : Nat) (c : List (AccountId × AccountInfo)) (h : cs[i]? = some c) :
    (chunkHashes cr cs)[i]? = some (cr.blake3 (chunkData c)) := by
  rw [chunkHashes, List.getElem?_map, h]
  rfl

theorem rootOf_eq (h : cs ≠ []) :
    MerklePath.rootOf (combineHashes cr) (chunkHashes cr cs).length (chunkHashes cr cs) =
      some (computeMerkleRoot cr (chunkHashes cr cs)) := by
  obtain ⟨c, cs, rfl⟩ := List.exists_cons_of_ne_nil h
  have := MerklePath.climb_proofOf (combineHashes cr) (chunkHashes cr (c :: cs)).length (chunkHashes cr (c :: cs)) 0
    _ (Nat.le_succ _) (chunkHashes_getElem? cr (c :: cs) 0 c rfl)
  rw [computeMerkleRoot, this]
  rfl

/-- The path of a leaf leads to the root. -/
theorem climb_generated (i : Nat) (c : List (AccountId × AccountInfo)) (h : cs[i]? = some c) :
    MerklePath.climb (combineHashes cr) i (cr.blake3 (chunkData c))
      (generateMerkleProof cr (chunkHashes cr cs) i) = computeMerkleRoot cr (chunkHashes cr cs) := by
  have hne : cs ≠ [] := by
    rintro rfl
    cases h
  have := MerklePath.climb_proofOf (combineHashes cr) (chunkHashes cr cs).length (chunkHashes cr cs) i _
    (Nat.le_succ _) (chunkHashes_getElem? cr cs i c h)
  rw [rootOf_eq cr cs hne] at this
  exact (Option.some.inj this).symm

theorem length_generated (i : Nat) (h : cs ≠ []) :
    (generateMerkleProof cr (chunkHashes cr cs) i).length = Nat.clog 2 cs.length := by
  have hlen : (chunkHashes cr cs).length = cs.length := by simp [chunkHashes]
  rw [generateMerkleProof, MerklePath.length_proofOf _ _ _ _ (by simpa [chunkHashes] using h) (Nat.le_succ _), hlen]

/-- Below 2³² chunks, every chunk of a snapshot verifies. -/
theorem chunkAt_verifies (hlt : cs.length < 2 ^ 32) (i : Nat) (c : List (AccountId × AccountInfo))
    (h : cs[i]? = some c) :
    (chunkAt cr cs i c).verifyMerkleProof cr (computeMerkleRoot cr (chunkHashes cr cs)) (cs.length % 2 ^ 32) =
      true := by
  have hi := (List.getElem?_eq_some_iff.1 h).1
  have hne : cs ≠ [] := List.ne_nil_of_length_pos (by omega)
  have hmod : i % 2 ^ 32 = i := Nat.mod_eq_of_lt (by omega)
  rw [Nat.mod_eq_of_lt hlt, StateChunk.verifyMerkleProof_iff]
  unfold chunkAt
  rw [hmod]
  refine ⟨rfl, ?_, length_generated cr cs i hne, climb_generated cr cs i c h⟩
  intro hnil
  have hlen := length_generated cr cs i hne
  rw [show generateMerkleProof cr (chunkHashes cr cs) i = [] from hnil, List.length_nil] at hlen
  have hone := (Nat.clog_le_iff_le_pow one_lt_two).1 hlen.symm.le
  omega

/-- From 2³² chunks on, the paths are longer than the count in the header allows. -/
theorem chunkAt_fails (hge : 2 ^ 32 ≤ cs.length) (i : Nat) (c : List (AccountId × AccountInfo)) :
    (chunkAt cr cs i c).verifyMerkleProof cr (computeMerkleRoot cr (chunkHashes cr cs)) (cs.length % 2 ^ 32) =
      false := by
  have hne : cs ≠ [] := List.ne_nil_of_length_pos (by omega)
  rw [Bool.eq_false_iff, ne_eq, StateChunk.verifyMerkleProof_iff]
  rintro ⟨-, -, hlen, -⟩
  rw [show (chunkAt cr cs i c).proof = generateMerkleProof cr (chunkHashes cr cs) (i % 2 ^ 32) from rfl,
    length_generated cr cs _ hne] at hlen
  have hmod : cs.length % 2 ^ 32 < 2 ^ 32 := Nat.mod_lt _ (by decide)
  rcases Nat.eq_or_lt_of_le hge with heq | hgt
  · -- a count of zero for a path of 32 steps
    rw [← heq, Nat.mod_self, Nat.clog_pow 2 32 one_lt_two, Nat.clog_zero_right] at hlen
    cases hlen
  · have hlong := (Nat.lt_clog_iff_pow_lt one_lt_two).2 hgt
    have hshort := (Nat.clog_le_iff_le_pow one_lt_two).2 hmod.le
    omega

end Complete

/-! ## Soundness -/

/-- Blake3 separates the strings of the tree from those of a chunk to check. -/
def Separates (cr : Crypto) (xs ys : List (List UInt8)) : Prop :=
  ∀ x ∈ xs, ∀ y ∈ ys, cr.blake3 x = cr.blake3 y → x = y

instance (cr : Crypto) (xs ys : List (List UInt8)) : Decidable (Separates cr xs ys) :=
  inferInstanceAs (Decidable (∀ x ∈ xs, ∀ y ∈ ys, cr.blake3 x = cr.blake3 y → x = y))

theorem pairBytes_inj (e e' : Hash × Hash)
    (h : MerklePath.pairBytes Hash.asBytes e = MerklePath.pairBytes Hash.asBytes e') : e = e' := by
  obtain ⟨hl, hr⟩ := List.append_inj h (by simp)
  exact Prod.ext (Hash.asBytes_inj _ _ hl) (Hash.asBytes_inj _ _ hr)

/-- A chunk that verifies against the root of a tree is the chunk of the tree. -/
theorem eq_chunkAt_of_verifies (cr : Crypto) (cs : List (List (AccountId × AccountInfo)))
    (hlt : cs.length < 2 ^ 32) (c : StateChunk) (hi : c.index < cs.length)
    (hsep : Separates cr (treeStrings cr cs) (c.hashed cr))
    (h : c.verifyMerkleProof cr (computeMerkleRoot cr (chunkHashes cr cs)) cs.length = true) :
    ∃ l, cs[c.index]? = some l ∧ chunkAt cr cs c.index l = c := by
  rw [StateChunk.verifyMerkleProof_iff] at h
  obtain ⟨hhash, -, hlen, hclimb⟩ := h
  have hne : cs ≠ [] := List.ne_nil_of_length_pos (by omega)
  have hlenh : (chunkHashes cr cs).length = cs.length := by simp [chunkHashes]
  -- no pair of the path collides with a pair of the tree
  have hinj : ∀ x ∈ MerklePath.combined (combineHashes cr) (chunkHashes cr cs).length (chunkHashes cr cs),
      ∀ y ∈ MerklePath.climbed (combineHashes cr) c.index c.chunkHash c.proof,
        MerklePath.up (combineHashes cr) x = MerklePath.up (combineHashes cr) y → x = y := by
    intro x hx y hy he
    exact pairBytes_inj x y (hsep _ (List.mem_append_right _ (List.mem_map_of_mem hx)) _
      (List.mem_cons_of_mem _ (List.mem_map_of_mem hy)) he)
  obtain ⟨hleaf, hproof⟩ := MerklePath.climb_eq_root (combineHashes cr) (chunkHashes cr cs).length
    (chunkHashes cr cs) c.index c.chunkHash c.proof (Nat.le_succ _) (by rwa [hlenh]) (by rwa [hlenh]) hinj
    (by rw [rootOf_eq cr cs hne, hclimb])
  -- and the leaf is the hash of the same accounts
  obtain ⟨l, hl⟩ : ∃ l, cs[c.index]? = some l := ⟨_, List.getElem?_eq_getElem hi⟩
  rw [chunkHashes_getElem? cr cs c.index l hl, Option.some_inj] at hleaf
  have hmem : chunkData l ∈ treeStrings cr cs :=
    List.mem_append_left _ (List.mem_map_of_mem (List.mem_of_getElem? hl))
  have hdata := hsep _ hmem _ List.mem_cons_self (hleaf.trans hhash)
  have haccounts := chunkData_inj l c.accounts hdata
  refine ⟨l, hl, ?_⟩
  have hmod : c.index % 2 ^ 32 = c.index := Nat.mod_eq_of_lt (by omega)
  unfold chunkAt
  rw [hmod, hleaf, haccounts, generateMerkleProof, ← hproof]

end StateSnapshot

/-- What a node that holds a header needs to accept a chunk. -/
theorem WarpSyncManager.handleStateChunk_ok (cr : Crypto) (m : WarpSyncManager) (header : StateSnapshotHeader)
    (c : StateChunk) (hm : m.snapshotHeader = some header) (h : (m.handleStateChunk cr c).2 = .ok ()) :
    c.index < header.totalChunks ∧
      c.verifyMerkleProof cr header.stateRoot.root header.totalChunks = true := by
  unfold handleStateChunk at h
  rw [hm] at h
  simp only at h
  split at h
  · cases h
  · next hi =>
    split at h
    · cases h
    · next hv => exact ⟨by omega, by simpa using hv⟩

namespace StateSnapshot

section Verify

variable (cr : Crypto) (blockNumber : Nat) (blockHash : Hash) (stateRoot : StateRoot)
  (accounts : List (AccountId × AccountInfo)) (chunkSize createdAt : Nat)

theorem mem_new_chunks (c : StateChunk)
    (h : c ∈ (new cr blockNumber blockHash stateRoot accounts chunkSize createdAt).chunks) :
    ∃ i l, (Kratos.chunks chunkSize accounts)[i]? = some l ∧
      chunkAt cr (Kratos.chunks chunkSize accounts) i l = c := by
  obtain ⟨i, hi⟩ := List.mem_iff_getElem?.1 h
  rw [new_chunks_getElem?, Option.map_eq_some_iff] at hi
  obtain ⟨l, hl, hc⟩ := hi
  exact ⟨i, l, hl, hc⟩

theorem verify_new_of_lt (hlt : (Kratos.chunks chunkSize accounts).length < 2 ^ 32) :
    (new cr blockNumber blockHash stateRoot accounts chunkSize createdAt).verify cr = true := by
  rw [verify_iff]
  refine ⟨?_, ?_, ?_⟩
  · rw [new_length, new_totalChunks]
  · intro i c hc
    rw [new_chunks_getElem?, Option.map_eq_some_iff] at hc
    obtain ⟨l, -, rfl⟩ := hc
    rfl
  · intro c hc
    obtain ⟨i, l, hl, rfl⟩ := mem_new_chunks cr blockNumber blockHash stateRoot accounts chunkSize createdAt c hc
    rw [new_root, new_totalChunks]
    exact chunkAt_verifies cr _ hlt i l hl

theorem verify_new_of_le (hge : 2 ^ 32 ≤ (Kratos.chunks chunkSize accounts).length) :
    (new cr blockNumber blockHash stateRoot accounts chunkSize createdAt).verify cr = false := by
  rw [Bool.eq_false_iff, ne_eq, verify_iff]
  rintro ⟨-, -, hall⟩
  have hpos : 0 < (Kratos.chunks chunkSize accounts).length := by omega
  have hfirst : chunkAt cr (Kratos.chunks chunkSize accounts) 0 (Kratos.chunks chunkSize accounts)[0] ∈
      (new cr blockNumber blockHash stateRoot accounts chunkSize createdAt).chunks := by
    apply List.mem_of_getElem?
    rw [new_chunks_getElem?, List.getElem?_eq_getElem hpos]
    rfl
  have := hall _ hfirst
  rw [new_root, new_totalChunks, chunkAt_fails cr _ hge] at this
  cases this

/-- Snapshots verify, and a node with the header of one accepts no chunk but those of the
snapshot, exactly if the number of chunks fits 32 bits. -/
theorem snapshots_verify_iff (hsize : 0 < chunkSize) :
    ((new cr blockNumber blockHash stateRoot accounts chunkSize createdAt).verify cr = true ∧
      ∀ (m : WarpSyncManager) (c : StateChunk),
        m.snapshotHeader = some (new cr blockNumber blockHash stateRoot accounts chunkSize createdAt).header →
        Separates cr (treeStrings cr (Kratos.chunks chunkSize accounts)) (c.hashed cr) →
        (m.handleStateChunk cr c).2 = .ok () →
        (new cr blockNumber blockHash stateRoot accounts chunkSize createdAt).chunks[c.index]? = some c) ↔
      accounts.length ≤ (2 ^ 32 - 1) * chunkSize := by
  rw [← length_chunks_lt_iff chunkSize hsize]
  constructor
  · rintro ⟨hverify, -⟩
    by_contra hge
    rw [verify_new_of_le cr blockNumber blockHash stateRoot accounts chunkSize createdAt (by omega)] at hverify
    cases hverify
  · intro hlt
    refine ⟨verify_new_of_lt cr blockNumber blockHash stateRoot accounts chunkSize createdAt hlt, ?_⟩
    intro m c hm hsep hok
    obtain ⟨hi, hv⟩ := m.handleStateChunk_ok cr _ c hm hok
    rw [new_totalChunks, Nat.mod_eq_of_lt hlt] at hi
    rw [new_root, new_totalChunks, Nat.mod_eq_of_lt hlt] at hv
    obtain ⟨l, hl, hc⟩ := eq_chunkAt_of_verifies cr _ hlt c hi hsep hv
    rw [new_chunks_getElem?, hl]
    exact congrArg some hc

end Verify

def sampleAccounts : List (AccountId × AccountInfo) :=
  [(⟨1⟩, AccountInfo.new), (⟨2⟩, { AccountInfo.new with free := 7 }), (⟨3⟩, AccountInfo.new)]

/-- Three accounts in two chunks. -/
def sampleSnapshot : StateSnapshot :=
  new Crypto.sample 1500 Hash.zero (StateRoot.zero ⟨0⟩) sampleAccounts 2 0

/-- A node that was sent the header. -/
def sampleManager : WarpSyncManager := ((WarpSyncManager.new 0).handleSnapshotHeader sampleSnapshot.header).1

theorem snapshots_verify_sample :
    sampleSnapshot.verify Crypto.sample = true ∧
      ∀ c : StateChunk, Separates Crypto.sample (treeStrings Crypto.sample (Kratos.chunks 2 sampleAccounts))
        (c.hashed Crypto.sample) → (sampleManager.handleStateChunk Crypto.sample c).2 = .ok () →
        sampleSnapshot.chunks[c.index]? = some c := by
  have h := (snapshots_verify_iff Crypto.sample 1500 Hash.zero (StateRoot.zero ⟨0⟩) sampleAccounts 2 0
    (by decide)).2 (by decide)
  exact ⟨h.1, fun c => h.2 sampleManager c rfl⟩

/-- The second chunk, in a list of chunks that is accepted and separated. -/
example : ∀ c ∈ sampleSnapshot.chunks,
    Separates Crypto.sample (treeStrings Crypto.sample (Kratos.chunks 2 sampleAccounts)) (c.hashed Crypto.sample) ∧
      (sampleManager.handleStateChunk Crypto.sample c).2.toBool = true := by
  decide +kernel

/-- As many accounts as a `u32` cannot count. -/
def manyAccounts : List (AccountId × AccountInfo) :=
  (List.range (2 ^ 32)).map fun i => (⟨Fin.ofNat _ i⟩, AccountInfo.new)

/-- With one account to a chunk their snapshot does not verify. -/
theorem long_snapshot_fails :
    (new Crypto.sample 1500 Hash.zero (StateRoot.zero ⟨0⟩) manyAccounts 1 0).verify Crypto.sample = false := by
  apply verify_new_of_le
  rw [length_chunks 1 one_pos, manyAccounts, List.length_map, List.length_range]
  omega

end StateSnapshot

/-! ## The state root -/

/-- The backend with the accounts of a list. -/
def stateOf (accounts : List (AccountId × AccountInfo)) : StateBackend :=
  accounts.foldl (fun s e => s.setAccount e.1 e.2) .new

theorem stateOf_entries_ne_nil (accounts : List (AccountId × AccountInfo)) (h : accounts ≠ []) :
    (stateOf accounts).accounts.entries ≠ [] := by
  -- the last account written is there
  obtain ⟨l, e, rfl⟩ := (List.eq_nil_or_concat' accounts).resolve_left h
  intro hnil
  have hfind : (stateOf (l ++ [e])).accounts.find? e.1 = some e.2 := by
    rw [stateOf, List.foldl_append]
    exact SortedMap.find?_insert_self _ e.1 e.2
  have := ((stateOf (l ++ [e])).accounts.mem_entries_iff e.1 e.2).2 hfind
  rw [hnil] at this
  cases this

/-- The strings hashed to check all chunks. -/
def StateSnapshot.hashed (cr : Crypto) (s : StateSnapshot) : List (List UInt8) :=
  s.chunks.flatMap (StateChunk.hashed cr)

/-- A root that a chunk leads to is not that of a state. -/
theorem StateChunk.root_ne_stateRoot (cr : Crypto) (c : StateChunk) (s : StateBackend) (block : Nat)
    (chain : ChainId) (hs : s.accounts.entries ≠ [])
    (hsep : StateSnapshot.Separates cr (c.hashed cr) (s.hashed cr))
    (hhash : c.chunkHash = cr.blake3 (chunkData c.accounts)) :
    MerklePath.climb (combineHashes cr) c.index c.chunkHash c.proof ≠
      (s.computeStateRoot cr block chain).root := by
  obtain ⟨t, ht, hroot⟩ := s.computeStateRoot_eq cr block chain hs
  unfold StateChunk.hashed StateBackend.hashed at hsep
  rw [hhash, ht] at hsep
  rw [hroot, hhash]
  -- 104 bytes an account, 72 bytes a record, 64 bytes a node
  refine MerklePath.climb_ne_hashOf cr.blake3 Hash.asBytes AccountInfo.encode 32 (fun h => h.length_asBytes)
    Hash.asBytes_inj ?_ c.index (chunkData c.accounts) ?_ ?_ c.proof t hsep
  · intro a
    rw [AccountInfo.length_encode]
    decide
  · rw [length_chunkData]
    omega
  · intro a
    rw [AccountInfo.length_encode, length_chunkData]
    omega

/-- The path of the first chunk leads to the root of the header. -/
theorem new_root_ne_stateRoot (cr : Crypto) (s : StateBackend) (accounts : List (AccountId × AccountInfo))
    (n : Nat) (hash : Hash) (root : StateRoot) (chain : ChainId) (chunkSize createdAt : Nat)
    (hsize : 0 < chunkSize) (hne : accounts ≠ []) (hs : s.accounts.entries ≠ [])
    (hsep : StateSnapshot.Separates cr
      ((StateSnapshot.new cr n hash root accounts chunkSize createdAt).hashed cr) (s.hashed cr)) :
    (StateSnapshot.new cr n hash root accounts chunkSize createdAt).header.stateRoot.root ≠
      (s.computeStateRoot cr n chain).root := by
  have hchunks : chunks chunkSize accounts ≠ [] := by
    intro hnil
    have := flatten_chunks chunkSize hsize accounts
    rw [hnil] at this
    exact hne this.symm
  obtain ⟨l, cs, hcs⟩ := List.exists_cons_of_ne_nil hchunks
  have hfirst : (chunks chunkSize accounts)[0]? = some l := by rw [hcs]; rfl
  rw [StateSnapshot.new_root, ← StateSnapshot.climb_generated cr _ 0 l hfirst]
  refine StateChunk.root_ne_stateRoot cr (StateSnapshot.chunkAt cr (chunks chunkSize accounts) 0 l) s n chain hs ?_
    rfl
  intro x hx
  refine hsep x (List.mem_flatMap.2 ⟨_, ?_, hx⟩)
  apply List.mem_of_getElem?
  rw [StateSnapshot.new_chunks_getElem?, hfirst]
  rfl

namespace WarpSyncManager

theorem takeChunks_some (received : SortedMap Nat StateChunk) (is : List Nat) (cs : List StateChunk)
    (hnodup : is.Nodup) (h : (takeChunks received is).2 = some cs) : is.map received.find? = cs.map some := by
  induction is generalizing received cs with
  | nil =>
    cases h
    rfl
  | cons i is ih =>
    rw [List.nodup_cons] at hnodup
    unfold takeChunks at h
    cases hi : received.find? i with
    | none =>
      rw [hi] at h
      cases h
    | some c =>
      rw [hi] at h
      obtain ⟨cs', hcs', rfl⟩ := Option.map_eq_some_iff.1 h
      have hrest := ih (received.erase i) cs' hnodup.2 hcs'
      have hsame : is.map (received.erase i).find? = is.map received.find? := by
        apply List.map_congr_left
        intro j hj
        rw [SortedMap.find?_erase, if_neg]
        rintro rfl
        exact hnodup.1 hj
      rw [List.map_cons, List.map_cons, hi, ← hrest, hsame]

/-- What is returned was received under the header, and verifies. -/
theorem verifyState_ok (cr : Crypto) (m : WarpSyncManager) (snapshot : StateSnapshot)
    (h : (m.verifyState cr).2 = .ok snapshot) :
    m.snapshotHeader = some snapshot.header ∧ snapshot.verify cr = true ∧
      ∀ c, c ∈ snapshot.chunks ↔ ∃ i, i < snapshot.header.totalChunks ∧ m.receivedChunks.find? i = some c := by
  unfold verifyState at h
  cases hm : m.snapshotHeader with
  | none =>
    rw [hm] at h
    cases h
  | some header =>
    rw [hm] at h
    simp only at h
    cases ht : (takeChunks m.receivedChunks (List.range header.totalChunks)).2 with
    | none =>
      rw [ht] at h
      cases h
    | some cs =>
      rw [ht] at h
      simp only at h
      split at h
      · cases h
      · next hv =>
        cases h
        have hcs := takeChunks_some _ _ _ List.nodup_range ht
        refine ⟨rfl, by simpa using hv, ?_⟩
        intro c
        have hmem : c ∈ cs ↔ some c ∈ cs.map some := by simp
        rw [hmem, ← hcs, List.mem_map]
        simp only [List.mem_range]

/-- The header has the zero root and no chunk under it has an account. -/
def CarriesNothing (m : WarpSyncManager) : Prop :=
  ∀ header, m.snapshotHeader = some header → header.stateRoot.root = Hash.zero ∧
    ∀ i c, i < header.totalChunks → m.receivedChunks.find? i = some c → c.accounts = []

end WarpSyncManager

/-- The root a snapshot is built or accepted with is the state root of its accounts only
if there are none, and the root is zero. -/
theorem snapshots_bound_iff (cr : Crypto) :
    (∀ (s : StateBackend) (accounts : List (AccountId × AccountInfo)) (n : Nat) (hash : Hash) (chain : ChainId)
        (chunkSize createdAt : Nat), accounts.Perm s.accounts.entries → 0 < chunkSize →
      StateSnapshot.Separates cr
        ((StateSnapshot.new cr n hash (s.computeStateRoot cr n chain) accounts chunkSize createdAt).hashed cr)
        (s.hashed cr) →
      ((StateSnapshot.new cr n hash (s.computeStateRoot cr n chain) accounts chunkSize
          createdAt).header.stateRoot.root = (s.computeStateRoot cr n chain).root ↔ s.accounts.entries = [])) ∧
    (∀ (m : WarpSyncManager) (snapshot : StateSnapshot) (n : Nat) (chain : ChainId),
      (m.verifyState cr).2 = .ok snapshot →
      StateSnapshot.Separates cr (snapshot.hashed cr) ((stateOf snapshot.accounts).hashed cr) →
      (((stateOf snapshot.accounts).computeStateRoot cr n chain).root = snapshot.header.stateRoot.root ↔
        m.CarriesNothing)) := by
  constructor
  · intro s accounts n hash chain chunkSize createdAt hperm hsize hsep
    constructor
    · intro hroot
      by_contra hs
      have hne : accounts ≠ [] := by
        rintro rfl
        exact hs (List.nil_perm.1 hperm)
      exact new_root_ne_stateRoot cr s accounts n hash _ chain chunkSize createdAt hsize hne hs hsep hroot
    · intro hs
      rw [hs] at hperm
      rw [List.perm_nil.1 hperm]
      have hzero : (s.computeStateRoot cr n chain).root = Hash.zero := by
        simp [StateBackend.computeStateRoot, hs, StateRoot.zero]
      rw [hzero]
      rfl
  · intro m snapshot n chain hok hsep
    obtain ⟨hm, hverify, hmem⟩ := m.verifyState_ok cr snapshot hok
    rw [StateSnapshot.verify_iff] at hverify
    constructor
    · intro hroot header hheader
      obtain rfl := Option.some.inj (hheader.symm.trans hm)
      -- a chunk with an account would lead to a state root
      have hempty : snapshot.accounts = [] := by
        by_contra hne
        obtain ⟨c, hc, -⟩ : ∃ c ∈ snapshot.chunks, c.accounts ≠ [] := by
          simpa [StateSnapshot.accounts, List.flatMap_eq_nil_iff] using hne
        have hv := (c.verifyMerkleProof_iff cr _ _).1 (hverify.2.2 c hc)
        refine c.root_ne_stateRoot cr _ n chain (stateOf_entries_ne_nil _ hne)
          (fun x hx => hsep x (List.mem_flatMap.2 ⟨c, hc, hx⟩)) hv.1 ?_
        rw [hv.2.2.2, hroot]
      refine ⟨?_, ?_⟩
      · rw [← hroot, hempty]
        rfl
      · intro i c hi hc
        exact List.flatMap_eq_nil_iff.1 hempty c ((hmem c).2 ⟨i, hi, hc⟩)
    · intro hnothing
      obtain ⟨hzero, hall⟩ := hnothing _ hm
      have hempty : snapshot.accounts = [] := by
        rw [StateSnapshot.accounts, List.flatMap_eq_nil_iff]
        intro c hc
        obtain ⟨i, hi, hfind⟩ := (hmem c).1 hc
        exact hall i c hi hfind
      rw [hempty, hzero]
      rfl

/-- A node that was sent a header and all chunks. -/
def syncedManager (cr : Crypto) (snapshot : StateSnapshot) : WarpSyncManager :=
  snapshot.chunks.foldl (fun m c => (m.handleStateChunk cr c).1)
    ((WarpSyncManager.new 0).handleSnapshotHeader snapshot.header).1

theorem synced_sample :
    ((syncedManager Crypto.sample StateSnapshot.sampleSnapshot).verifyState Crypto.sample).2 =
      .ok StateSnapshot.sampleSnapshot := by
  have h : ((syncedManager Crypto.sample StateSnapshot.sampleSnapshot).verifyState Crypto.sample).2.toOption =
      some StateSnapshot.sampleSnapshot := by
    decide +kernel
  generalize ((syncedManager Crypto.sample StateSnapshot.sampleSnapshot).verifyState Crypto.sample).2 = r at h
  cases r with
  | error e => cases h
  | ok s =>
    cases h
    rfl

theorem snapshots_bound_sample :
    StateSnapshot.sampleSnapshot.header.stateRoot.root ≠
      ((stateOf StateSnapshot.sampleSnapshot.accounts).computeStateRoot Crypto.sample 1500 ⟨0⟩).root := by
  intro h
  have hnothing := ((snapshots_bound_iff Crypto.sample).2 (syncedManager Crypto.sample StateSnapshot.sampleSnapshot)
    _ 1500 ⟨0⟩ synced_sample (by decide +kernel)).1 h.symm
  have hroot := (hnothing StateSnapshot.sampleSnapshot.header (by decide +kernel)).1
  exact absurd hroot (by decide +kernel)

/-- The three accounts again: the header of their snapshot does not have their state root,
and a node that is sent the snapshot accepts it. -/
theorem snapshot_without_state_root :
    (stateOf StateSnapshot.sampleAccounts).accounts.entries = StateSnapshot.sampleAccounts ∧
    (StateSnapshot.new Crypto.sample 1500 Hash.zero
      ((stateOf StateSnapshot.sampleAccounts).computeStateRoot Crypto.sample 1500 ⟨0⟩)
      StateSnapshot.sampleAccounts 2 0).header.stateRoot.root ≠
        ((stateOf StateSnapshot.sampleAccounts).computeStateRoot Crypto.sample 1500 ⟨0⟩).root ∧
    ((syncedManager Crypto.sample StateSnapshot.sampleSnapshot).verifyState Crypto.sample).2 =
      .ok StateSnapshot.sampleSnapshot ∧
    ((stateOf StateSnapshot.sampleSnapshot.accounts).computeStateRoot Crypto.sample 1500 ⟨0⟩).root ≠
      StateSnapshot.sampleSnapshot.header.stateRoot.root := by
  refine ⟨by decide +kernel, by decide +kernel, synced_sample, by decide +kernel⟩

end Kratos
