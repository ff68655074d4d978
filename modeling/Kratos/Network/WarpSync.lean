import Kratos.Lib.MerklePath
import Kratos.Storage.StateRoot

/-!
# Warp sync

A snapshot of the state is cut into chunks of accounts; a padded Merkle tree over the
chunk hashes gives the root in the header and a path for every chunk.  A syncing node
takes a header, checks every chunk against its root as it arrives, and assembles the
snapshot when all chunks are there.

Chunk numbers and counts are cast to `u32` where the source does; the ceiling of the
binary logarithm is exact.  The size in bytes of the header and the download progress
are left out.
-/

namespace Kratos

/-! ## Chunks -/

/-- Slices of a given size, with fuel. -/
def chunksLoop {α : Type} (size : Nat) : Nat → List α → List (List α)
  | 0, _ => []
  | _, [] => []
  | n + 1, a :: l => (a :: l).take size :: chunksLoop size n ((a :: l).drop size)

/-- `slice::chunks`; the last slice may be shorter. -/
def chunks {α : Type} (size : Nat) (l : List α) : List (List α) := chunksLoop size l.length l

inductive WarpSyncError where
  | noPeers
  | invalidStateRoot
  | snapshotTooOld
  | timeout
  | invalidChunk
  | invalidMerkleProof
deriving DecidableEq, Repr

inductive WarpSyncState where
  | inactive
  | requestingSnapshot
  | downloadingState (totalChunks received : Nat)
  | verifyingState
  | downloadingHeaders (fromBlock toBlock : Nat)
  | complete
  | failed (e : WarpSyncError)
deriving DecidableEq, Repr

structure StateSnapshotHeader where
  blockNumber : Nat
  blockHash : Hash
  stateRoot : StateRoot
  totalChunks : Nat
  createdAt : Nat
deriving DecidableEq, Repr

structure StateChunk where
  index : Nat
  accounts : List (AccountId × AccountInfo)
  proof : List Hash
  chunkHash : Hash
deriving DecidableEq, Repr

/-- One account of a chunk: 104 bytes. -/
def accountBytes (e : AccountId × AccountInfo) : List UInt8 :=
  e.1.asBytes ++ (Bytes.le 8 e.2.nonce.val ++ (Bytes.le 16 e.2.free.val ++
    (Bytes.le 16 e.2.reserved.val ++ e.2.lastModified.asBytes)))

def chunkData (accounts : List (AccountId × AccountInfo)) : List UInt8 := accounts.flatMap accountBytes

/-- A node of the tree over the chunk hashes. -/
def combineHashes (cr : Crypto) (l r : Hash) : Hash := cr.blake3 (l.asBytes ++ r.asBytes)

namespace StateChunk

def computeHash (cr : Crypto) (c : StateChunk) : Hash := cr.blake3 (chunkData c.accounts)

def verifyHash (cr : Crypto) (c : StateChunk) : Bool := c.chunkHash = c.computeHash cr

def verifyMerkleProof (cr : Crypto) (c : StateChunk) (expectedRoot : Hash) (totalChunks : Nat) : Bool :=
  if !c.verifyHash cr then false
  else if c.proof.isEmpty then
    -- a single chunk is its own root
    if totalChunks = 1 then c.chunkHash = expectedRoot else false
  else if c.proof.length ≠ Nat.clog 2 totalChunks then false
  else MerklePath.climb (combineHashes cr) c.index c.chunkHash c.proof = expectedRoot

end StateChunk

/-! ## Snapshots -/

structure StateSnapshot where
  header : StateSnapshotHeader
  chunks : List StateChunk
deriving DecidableEq, Repr

namespace StateSnapshot

def computeMerkleRoot (cr : Crypto) (leaves : List Hash) : Hash :=
  (MerklePath.rootOf (combineHashes cr) leaves.length leaves).getD Hash.zero

def generateMerkleProof (cr : Crypto) (leaves : List Hash) (leafIndex : Nat) : List Hash :=
  MerklePath.proofOf (combineHashes cr) leaves.length leaves leafIndex

/-- The root of the chunks takes the place of the given state root. -/
def new (cr : Crypto) (blockNumber : Nat) (blockHash : Hash) (stateRoot : StateRoot)
    (accounts : List (AccountId × AccountInfo)) (chunkSize createdAt : Nat) : StateSnapshot :=
  let data := (Kratos.chunks chunkSize accounts).zipIdx.map fun e =>
    (e.2 % 2 ^ 32, e.1, cr.blake3 (chunkData e.1))
  let chunkHashes := data.map fun d => d.2.2
  { header :=
      { blockNumber, blockHash
        stateRoot := { root := computeMerkleRoot cr chunkHashes, blockNumber, chainId := stateRoot.chainId }
        totalChunks := data.length % 2 ^ 32, createdAt }
    chunks := data.map fun d =>
      { index := d.1, accounts := d.2.1, proof := generateMerkleProof cr chunkHashes d.1, chunkHash := d.2.2 } }

def verify (cr : Crypto) (s : StateSnapshot) : Bool :=
  if s.chunks.length % 2 ^ 32 ≠ s.header.totalChunks then false
  else if s.chunks.zipIdx.any fun e => e.1.index ≠ e.2 % 2 ^ 32 then false
  else s.chunks.all fun c => c.verifyMerkleProof cr s.header.stateRoot.root s.header.totalChunks

def accounts (s : StateSnapshot) : List (AccountId × AccountInfo) := s.chunks.flatMap StateChunk.accounts

end StateSnapshot

/-! ## The syncing node -/

structure WarpSyncManager where
  state : WarpSyncState
  localHeight : Nat
  networkHeight : Nat
  warpThreshold : Nat
  snapshotHeader : Option StateSnapshotHeader
  receivedChunks : SortedMap Nat StateChunk
  maxSnapshotAge : Nat

namespace WarpSyncManager

def new (localHeight : Nat) : WarpSyncManager :=
  { state := .inactive, localHeight, networkHeight := localHeight, warpThreshold := 1000
    snapshotHeader := none, receivedChunks := .empty, maxSnapshotAge := 10000 }

def handleSnapshotHeader (m : WarpSyncManager) (header : StateSnapshotHeader) :
    WarpSyncManager × Except WarpSyncError Unit :=
  if m.networkHeight - header.blockNumber > m.maxSnapshotAge then (m, .error .snapshotTooOld)
  else
    ({ m with snapshotHeader := some header, receivedChunks := .empty
              state := .downloadingState header.totalChunks 0 }, .ok ())

def handleStateChunk (cr : Crypto) (m : WarpSyncManager) (chunk : StateChunk) :
    WarpSyncManager × Except WarpSyncError Unit :=
  match m.snapshotHeader with
  | none => (m, .error .invalidChunk)
  | some header =>
    if chunk.index ≥ header.totalChunks then (m, .error .invalidChunk)
    else if !chunk.verifyMerkleProof cr header.stateRoot.root header.totalChunks then
      (m, .error .invalidMerkleProof)
    else
      let receivedChunks := m.receivedChunks.insert chunk.index chunk
      let received := receivedChunks.size % 2 ^ 32
      let state :=
        if received = header.totalChunks then .verifyingState
        else .downloadingState header.totalChunks received
      ({ m with receivedChunks, state }, .ok ())

/-- Chunks are taken out in order until one is missing. -/
def takeChunks : SortedMap Nat StateChunk → List Nat → SortedMap Nat StateChunk × Option (List StateChunk)
  | received, [] => (received, some [])
  | received, i :: l =>
    match received.find? i with
    | none => (received, none)
    | some chunk =>
      let r := takeChunks (received.erase i) l
      (r.1, r.2.map (chunk :: ·))

/-- The header and the chunks are given up, whatever comes out. -/
def verifyState (cr : Crypto) (m : WarpSyncManager) :
    WarpSyncManager × Except WarpSyncError StateSnapshot :=
  match m.snapshotHeader with
  | none => (m, .error .invalidStateRoot)
  | some header =>
    let taken := takeChunks m.receivedChunks (List.range header.totalChunks)
    let m := { m with snapshotHeader := none, receivedChunks := taken.1 }
    match taken.2 with
    | none => (m, .error .invalidChunk)
    | some chunks =>
      let snapshot : StateSnapshot := { header, chunks }
      if !snapshot.verify cr then ({ m with state := .failed .invalidStateRoot }, .error .invalidStateRoot)
      else
        ({ m with state := .downloadingHeaders snapshot.header.blockNumber m.networkHeight }, .ok snapshot)

def chunksNeeded (m : WarpSyncManager) : List Nat :=
  match m.snapshotHeader with
  | none => []
  | some header => (List.range header.totalChunks).filter fun i => !m.receivedChunks.contains i

end WarpSyncManager

/-! ## Slices -/

theorem length_chunksLoop {α : Type} (size : Nat) (hsize : 0 < size) (n : Nat) (l : List α) (hn : l.length ≤ n) :
    (chunksLoop size n l).length = (l.length + size - 1) / size := by
  induction n generalizing l with
  | zero =>
    have hl : l = [] := List.eq_nil_of_length_eq_zero (by omega)
    subst hl
    show 0 = (0 + size - 1) / size
    rw [Nat.div_eq_of_lt (by omega)]
  | succ n ih =>
    match l with
    | [] =>
      show 0 = (0 + size - 1) / size
      rw [Nat.div_eq_of_lt (by omega)]
    | a :: l =>
      have hdrop : ((a :: l).drop size).length ≤ n := by
        simp only [List.length_drop, List.length_cons] at hn ⊢
        omega
      rw [chunksLoop, List.length_cons, ih _ hdrop, List.length_drop]
      by_cases hlt : size ≤ (a :: l).length
      · rw [show (a :: l).length + size - 1 = (a :: l).length - size + size - 1 + size by omega,
          Nat.add_div_right _ hsize]
      · have hzero : (a :: l).length - size = 0 := by omega
        have hpos : 0 < (a :: l).length := by simp
        rw [hzero, Nat.div_eq_of_lt (by omega)]
        symm
        apply Nat.div_eq_of_lt_le <;> omega

theorem length_chunks {α : Type} (size : Nat) (hsize : 0 < size) (l : List α) :
    (chunks size l).length = (l.length + size - 1) / size :=
  length_chunksLoop size hsize l.length l le_rfl

/-- The number of slices fits 32 bits. -/
theorem length_chunks_lt_iff {α : Type} (size : Nat) (hsize : 0 < size) (l : List α) :
    (chunks size l).length < 2 ^ 32 ↔ l.length ≤ (2 ^ 32 - 1) * size := by
  rw [length_chunks size hsize, Nat.div_lt_iff_lt_mul hsize]
  omega

theorem flatten_chunksLoop {α : Type} (size : Nat) (hsize : 0 < size) (n : Nat) (l : List α) (hn : l.length ≤ n) :
    (chunksLoop size n l).flatten = l := by
  induction n generalizing l with
  | zero => exact (List.eq_nil_of_length_eq_zero (by omega)).symm
  | succ n ih =>
    match l with
    | [] => rfl
    | a :: l =>
      have hdrop : ((a :: l).drop size).length ≤ n := by
        simp only [List.length_drop, List.length_cons] at hn ⊢
        omega
      rw [chunksLoop, List.flatten_cons, ih _ hdrop, List.take_append_drop]

/-- Put together, the slices are the list. -/
theorem flatten_chunks {α : Type} (size : Nat) (hsize : 0 < size) (l : List α) : (chunks size l).flatten = l :=
  flatten_chunksLoop size hsize l.length l le_rfl

/-! ## The strings that are hashed -/

theorem accountBytes_eq (e : AccountId × AccountInfo) : accountBytes e = e.1.asBytes ++ e.2.encode := rfl

theorem length_accountBytes (e : AccountId × AccountInfo) : (accountBytes e).length = 104 := by
  rw [accountBytes_eq, List.length_append, AccountInfo.length_encode]
  simp

theorem length_chunkData (l : List (AccountId × AccountInfo)) : (chunkData l).length = 104 * l.length := by
  unfold chunkData
  induction l with
  | nil => rfl
  | cons e l ih =>
    rw [List.flatMap_cons, List.length_append, length_accountBytes, ih, List.length_cons]
    omega

theorem accountBytes_inj (e e' : AccountId × AccountInfo) (h : accountBytes e = accountBytes e') : e = e' := by
  rw [accountBytes_eq, accountBytes_eq] at h
  obtain ⟨hid, hinfo⟩ := List.append_inj h (by simp)
  exact Prod.ext (AccountId.asBytes_inj _ _ hid) (AccountInfo.encode_inj _ _ hinfo)

/-- The accounts of a chunk can be read back from the string that is hashed. -/
theorem chunkData_inj (l l' : List (AccountId × AccountInfo)) (h : chunkData l = chunkData l') : l = l' := by
  have hlen : l.length = l'.length := by
    have := congrArg List.length h
    rw [length_chunkData, length_chunkData] at this
    omega
  induction l generalizing l' with
  | nil => exact (List.eq_nil_of_length_eq_zero hlen.symm).symm
  | cons e l ih =>
    match l', hlen with
    | e' :: l', hlen =>
      obtain ⟨he, hl⟩ := List.append_inj h (by rw [length_accountBytes, length_accountBytes])
      rw [accountBytes_inj e e' he, ih l' hl (by simpa using hlen)]

end Kratos
