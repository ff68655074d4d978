import Kratos.Network.BlockProvider
import Kratos.Network.Sync

/-!
# The network service

What the network service does with blocks, heights and sync requests: it tells the sync
manager what peers announce, hands received blocks to the node as events, asks for blocks
while the sync manager wants them, and serves the blocks of the database.  A block that
arrives was serialized, so the hashes its transactions cached are gone.

Peers are left out but for one question of `maybe_start_sync`: whether a connected one
claims any blocks.  So are bans, and the messages that concern neither blocks nor
transactions.
-/

namespace Kratos

/-! ## Messages -/

inductive BlockRequest where
  | byHash (hash : Hash)
  | byNumber (number : Nat)
  | headerByNumber (number : Nat)

inductive BlockResponse where
  | block (block : Block)
  | notFound

structure SyncResponse where
  blocks : List Block
  hasMore : Bool
  bestHeight : Nat

/-- What a node says of its chain, asked or unasked. -/
structure NodeStatus where
  bestBlock : Nat
  bestHash : Hash
  genesisHash : Hash

/-- What the node is told of. -/
inductive NetworkEvent where
  | blockReceived (block : Block)
  | transactionReceived (transaction : SignedTransaction)
  | syncBlocksReceived (blocks : List Block) (hasMore : Bool)
  | syncNeeded

/-- What goes out to peers. -/
inductive Outgoing where
  | syncRequest (fromBlock maxBlocks : Nat)
  | newBlock (block : Block)
deriving DecidableEq

/-- What a step finds outside the node: the time in seconds, a clock of milliseconds that runs
steadily, and whether a connected peer claims blocks. -/
structure Surroundings where
  now : Nat
  millis : Nat
  syncPeer : Bool

def maxSyncBlocks : Nat := 100
def minSyncIntervalMs : Nat := 500
def maxPendingSyncRequests : Nat := 3

structure NetworkService where
  syncManager : SyncManager
  genesisHash : Hash
  localHeight : Nat
  localHash : Hash
  lastSyncRequest : Nat
  pendingSyncRequests : Nat
  events : List NetworkEvent
  sent : List Outgoing

namespace NetworkService

def new (millis : Nat) (genesisHash : Hash) : NetworkService :=
  { syncManager := .new 0, genesisHash, localHeight := 0, localHash := Hash.zero, lastSyncRequest := millis
    pendingSyncRequests := 0, events := [], sent := [] }

/-! ## What the node tells the service -/

def updateLocalState (n : NetworkService) (height : Nat) (hash : Hash) : NetworkService :=
  { n with localHeight := height, localHash := hash, syncManager := n.syncManager.updateLocalHeight height }

def updateSyncLocalHeight (n : NetworkService) (height : Nat) : NetworkService :=
  { n with syncManager := n.syncManager.updateLocalHeight height }

def bufferBlock (checks : Bool) (cr : Crypto) (n : NetworkService) (block : Block) : Option NetworkService :=
  (n.syncManager.addDownloadedBlock checks cr block).map fun r => { n with syncManager := r.1 }

/-- The expected height the source passes in is not used. -/
def nextBufferedBlock (checks : Bool) (n : NetworkService) : Option (NetworkService × Option Block) :=
  (n.syncManager.nextBlockToImport checks).map fun r => ({ n with syncManager := r.1 }, r.2)

def broadcastBlock (n : NetworkService) (block : Block) : NetworkService :=
  { n with sent := n.sent ++ [.newBlock block] }

/-- Ask for the next fifty blocks: not too often, and with few requests waiting. -/
def maybeStartSync (w : Surroundings) (n : NetworkService) : NetworkService :=
  if !n.syncManager.shouldSync then n
  else if w.millis - n.lastSyncRequest < minSyncIntervalMs then n
  else if n.pendingSyncRequests ≥ maxPendingSyncRequests then n
  else if !w.syncPeer then n
  else { n with sent := n.sent ++ [.syncRequest (n.localHeight + 1) 50], lastSyncRequest := w.millis
                pendingSyncRequests := n.pendingSyncRequests + 1 }

/-! ## What peers tell the service -/

def notify (n : NetworkService) (event : NetworkEvent) : NetworkService := { n with events := n.events ++ [event] }

def peerHeightUpdate (n : NetworkService) (height : Nat) : NetworkService :=
  { n with syncManager := n.syncManager.peerHeightUpdate height }

/-- A node that syncs does not take blocks that come too early. -/
def handleNewBlock (w : Surroundings) (n : NetworkService) (block : Block) : NetworkService :=
  let n := n.peerHeightUpdate block.header.number
  if n.syncManager.shouldSync ∧ block.header.number > n.localHeight + 1 then n.maybeStartSync w
  else n.notify (.blockReceived block)

def handleBlockResponse (checks : Bool) (cr : Crypto) (n : NetworkService) : BlockResponse → Option NetworkService
  | .block block => (n.bufferBlock checks cr block).map fun n => n.notify (.syncBlocksReceived [block] false)
  | .notFound => some n

/-- The blocks are buffered and handed to the node as well. -/
def handleSyncResponse (checks : Bool) (cr : Crypto) (w : Surroundings) (n : NetworkService) (r : SyncResponse) :
    Option NetworkService :=
  let n := { n with pendingSyncRequests := n.pendingSyncRequests - 1 }.peerHeightUpdate r.bestHeight
  (n.syncManager.handleSyncResponse checks cr r.blocks r.hasMore).map fun buffered =>
    let n := { n with syncManager := buffered.1 }.notify (.syncBlocksReceived r.blocks r.hasMore)
    if r.hasMore then n.maybeStartSync w else n

/-- A peer without a genesis is still joining. -/
def handleStatusRequest (n : NetworkService) (status : NodeStatus) : NetworkService :=
  if status.genesisHash ≠ n.genesisHash ∧ n.genesisHash ≠ Hash.zero ∧ status.genesisHash ≠ Hash.zero then n
  else n.peerHeightUpdate status.bestBlock

def handleStatusResponse (w : Surroundings) (n : NetworkService) (status : NodeStatus) : NetworkService :=
  if status.genesisHash ≠ n.genesisHash ∧ n.genesisHash ≠ Hash.zero then n
  else
    let n := n.peerHeightUpdate status.bestBlock
    let syncThreshold := if n.localHeight = 0 then 0 else 10
    if status.bestBlock > n.localHeight + syncThreshold then (n.notify .syncNeeded).maybeStartSync w else n

/-- A sync request that came to nothing. -/
def handleSyncFailure (n : NetworkService) : NetworkService :=
  { n with pendingSyncRequests := n.pendingSyncRequests - 1 }

/-! ## What the service answers -/

def ownStatus (n : NetworkService) : NodeStatus :=
  { bestBlock := n.localHeight, bestHash := n.localHash, genesisHash := n.genesisHash }

def serveBlock (s : StateBackend) : BlockRequest → BlockResponse
  | .byHash hash => (s.getBlockByHash hash).elim .notFound .block
  | .byNumber number | .headerByNumber number => (s.getBlockByNumber number).elim .notFound .block

/-- A full answer claims that there is more. -/
def serveSync (checks : Bool) (s : StateBackend) (n : NetworkService) (fromBlock maxBlocks : Nat) :
    Option SyncResponse :=
  let safeMaxBlocks := min maxBlocks maxSyncBlocks
  (s.getBlocksRange checks fromBlock safeMaxBlocks).map fun blocks =>
    { blocks, hasMore := decide (blocks.length = safeMaxBlocks), bestHeight := n.localHeight }

end NetworkService

end Kratos
