import Kratos.Consensus.VrfSelection
import Kratos.Network.Service
import Kratos.Node.Import
import Kratos.Node.Selection

/-!
# The node service

The node as one machine: the chain and its state, the pool, the network service with its
queue of events, and the slots the validator key has signed, which are kept on disk.  Here it
starts, imports blocks and handles the events of the network.  What can stop is an `Option`:
`none` where a sum of heights stops a build that checks for overflow.

Finality is left out here, and so are bans.
-/

namespace Kratos

/-- The key of a validator: its account and the function that signs with it. -/
structure ValidatorKey where
  id : AccountId
  sign : List UInt8 → Signature64

/-- What does not change while a node runs: primitives, formulas, the orders of hash maps and heaps,
the validator key and the time the slots are counted from. -/
structure Setup (σ : Type) where
  cr : Crypto
  rewards : RewardFormulas
  checks : Bool
  heapOrder : PopOrder PrioritizedTx.cmp
  mapOrder : IterOrder (Hash × Balance)
  scoring : VrfScoring σ
  validatorKey : Option ValidatorKey
  genesisTimestamp : Nat

structure KratOsNode where
  node : Node
  mempool : TransactionPool
  network : NetworkService
  signedSlots : SortedMap (Nat ×ₗ Nat) Hash

namespace KratOsNode

variable {σ : Type} (e : Setup σ) (w : Surroundings)

/-! ## Start -/

/-- The end of `new`: the network learns of genesis, which is stored if it is not yet. -/
def start (cr : Crypto) (millis : Nat) (signedSlots : SortedMap (Nat ×ₗ Nat) Hash) (storage : StateBackend)
    (validators : ValidatorSet) (genesisBlock : Block) : KratOsNode :=
  let storage := if storage.getBlockByNumber 0 = none then storage.storeBlock cr genesisBlock else storage
  { node := { storage, validators, chainHeight := 0, currentBlock := some genesisBlock }
    mempool := .withConfig .default
    network := (NetworkService.new millis (genesisBlock.hash cr)).updateLocalState 0 (genesisBlock.hash cr)
    signedSlots }

/-- A node that joins again finds its genesis in the database, or does not start. -/
def restart (cr : Crypto) (millis : Nat) (s : KratOsNode) (validators : ValidatorSet) : KratOsNode :=
  match s.node.storage.getBlockByNumber 0 with
  | none => s
  | some genesisBlock => start cr millis s.signedSlots s.node.storage validators genesisBlock

/-! ## Import -/

/-- A block that was stored already is reported as imported and nothing is done. -/
def importBlock (s : KratOsNode) (block : Block) : KratOsNode × Except ImportError Unit :=
  match Node.importBlock e.cr e.rewards w.now s.node block with
  | (node, .error err) => ({ s with node }, .error err)
  | (node, .ok ()) =>
    if s.node.isStored e.cr block then (s, .ok ())
    else
      ({ s with node
                mempool := s.mempool.removeIncluded block.body.transactions
                network := s.network.updateLocalState block.header.number (block.hash e.cr) }, .ok ())

/-- Import what is buffered, as long as it follows; every turn takes a block out of the buffer. -/
def drain : Nat → KratOsNode → Option KratOsNode
  | 0, s => some s
  | fuel + 1, s =>
    let network := s.network.updateSyncLocalHeight s.node.chainHeight
    (network.nextBufferedBlock e.checks).bind fun r =>
      let s := { s with network := r.1 }
      match r.2 with
      | none => some s
      | some block =>
        if block.header.number = s.node.chainHeight + 1 then
          match s.importBlock e w block with
          | (s, .ok ()) => drain fuel s
          | (s, .error _) => some s
        else some s

/-- The loop ends when the buffer has no next block. -/
def tryImportBufferedBlocks (s : KratOsNode) : Option KratOsNode :=
  drain e w (s.network.syncManager.pendingBlocks.size + 1) s

def bufferBlock (s : KratOsNode) (block : Block) : Option KratOsNode :=
  (s.network.bufferBlock e.checks e.cr block).map fun network => { s with network }

/-! ## Events -/

def handleBlockReceived (s : KratOsNode) (block : Block) : Option KratOsNode :=
  if block.header.number ≤ s.node.chainHeight then some s
  else if block.header.number > s.node.chainHeight + 1 then s.bufferBlock e block
  else
    match s.importBlock e w block with
    | (s, .ok ()) => s.tryImportBufferedBlocks e w
    | (s, .error _) => some s

/-- Import the blocks of a response in their order and count the imported ones.  What was imported
before the response came is skipped, what does not follow is buffered. -/
def importBatch (currentHeight : Nat) : KratOsNode → Nat → List Block → Option (KratOsNode × Nat)
  | s, imported, [] => some (s, imported)
  | s, imported, block :: blocks =>
    if block.header.number ≤ currentHeight then importBatch currentHeight s imported blocks
    else if block.header.number = s.node.chainHeight + 1 then
      match s.importBlock e w block with
      | (s, .ok ()) => importBatch currentHeight s (imported + 1) blocks
      | (s, .error _) => importBatch currentHeight s imported blocks
    else (s.bufferBlock e block).bind fun s => importBatch currentHeight s imported blocks

def handleSyncBlocksReceived (s : KratOsNode) (blocks : List Block) (hasMore : Bool) : Option KratOsNode :=
  (importBatch e w s.node.chainHeight s 0 blocks).bind fun r =>
    (if r.2 > 0 then r.1.tryImportBufferedBlocks e w else some r.1).map fun s =>
      if hasMore then { s with network := s.network.maybeStartSync w } else s

def handleNetworkEvent (s : KratOsNode) : NetworkEvent → Option KratOsNode
  | .blockReceived block => s.handleBlockReceived e w block
  | .transactionReceived transaction =>
    some { s with mempool := (s.mempool.addWithValidation e.cr e.mapOrder w.millis transaction none).1 }
  | .syncBlocksReceived blocks hasMore => s.handleSyncBlocksReceived e w blocks hasMore
  | .syncNeeded => some { s with network := s.network.maybeStartSync w }

/-- The oldest event of the queue. -/
def processNetworkEvent (s : KratOsNode) : Option KratOsNode :=
  match s.network.events with
  | [] => some s
  | event :: events => { s with network := { s.network with events } }.handleNetworkEvent e w event

end KratOsNode

end Kratos
