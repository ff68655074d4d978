import Kratos.Node.Producer
import Kratos.Node.Service
import Kratos.Node.SlotLeader

/-!
# Runs of a node

A node produces blocks on its slot timer and takes transactions of clients.  A step is something
that arrives from a peer, the next event of the queue, a tick of the slot timer, a transaction
of a client, or a restart.  The clock's health is left out but for its verdict on whether to
produce.
-/

namespace Kratos

namespace KratOsNode

variable {σ : Type} [LinearOrder σ] (e : Setup σ) (w : Surroundings)

/-! ## Production -/

/-- The state is that of the production already; early validators are voted on now. -/
def storeProducedBlock (s : KratOsNode) (block : Block) : KratOsNode :=
  let storage := (s.node.storage.storeBlock e.cr block).setBestBlock block.header.number
  let node := block.body.transactions.foldl (Node.processVote block.header.number) { s.node with storage }
  { s with node := { node with currentBlock := some block, chainHeight := block.header.number }
           mempool := s.mempool.removeIncluded block.body.transactions
           network := (s.network.updateLocalState block.header.number (block.hash e.cr)).broadcastBlock block }

/-- The producer works on the pool and the state of the node, with the slots signed so far. -/
def producing (s : KratOsNode) (key : ValidatorKey) : ProducingNode :=
  { producer := { validatorKey := some key.sign, signedSlots := s.signedSlots, finality := .default }
    mempool := s.mempool, state := s.node.storage }

def tryProduceBlock (s : KratOsNode) (key : ValidatorKey) (canProduce : Bool) (epoch slot : Nat) :
    KratOsNode × Option Block :=
  if canProduce = false then (s, none)
  else if s.node.validators.isActive key.id = false then (s, none)
  else
    match s.node.currentBlock with
    | none => (s, none)
    | some parent =>
      if slot ≤ parent.header.slot ∧ epoch ≤ parent.header.epoch then (s, none)
      else
        match BlockProducer.isSlotLeader e.scoring slot epoch s.node.validators key.id s.node.storage with
        | .ok true =>
          match BlockProducer.produceBlock e.cr e.rewards e.heapOrder w.now (s.producing key) parent key.id epoch slot with
          | (p, .ok block) =>
            (({ s with node := { s.node with storage := p.state }, mempool := p.mempool
                       signedSlots := p.producer.signedSlots } : KratOsNode).storeProducedBlock e block, some block)
          | (_, .error _) => (s, none)
        | _ => (s, none)

def isSynced (s : KratOsNode) : Bool :=
  if s.node.chainHeight < 10 then decide (s.network.syncManager.syncGap = 0)
  else decide (s.network.syncManager.syncGap ≤ 1)

/-- The slot is counted in time, the epoch in blocks. -/
def slotTick (s : KratOsNode) (canProduce : Bool) : KratOsNode :=
  match e.validatorKey with
  | none => s
  | some key =>
    let currentSlot := (w.now - e.genesisTimestamp) / slotDurationSecs
    let currentEpoch := s.node.chainHeight / slotsPerEpoch
    if s.isSynced = false then s
    else if s.network.syncManager.syncGap > 0 then s
    else
      match s.tryProduceBlock e w key canProduce currentEpoch currentSlot with
      | (s, some block) => { s with network := s.network.broadcastBlock block }
      | (s, none) => s

/-- A transaction of a client gets its hash before it enters the pool. -/
def submitTransaction (s : KratOsNode) (tx : SignedTransaction) : KratOsNode × Except PoolError Hash :=
  let hash := tx.hash e.cr
  let tx := { tx with hash? := some hash }
  match s.mempool.addWithValidation e.cr e.mapOrder w.millis tx none with
  | (mempool, .ok ()) => ({ s with mempool }, .ok hash)
  | (mempool, .error err) => ({ s with mempool }, .error err)

end KratOsNode

/-! ## Steps -/

inductive NodeInput where
  | newBlock (block : Block)
  | newTransaction (tx : SignedTransaction)
  | blockResponse (response : BlockResponse)
  | syncResponse (response : SyncResponse)
  | statusRequest (status : NodeStatus)
  | statusResponse (status : NodeStatus)
  | syncFailure
  | maintenance
  | nextEvent
  | slotTick (canProduce : Bool)
  | submitTransaction (tx : SignedTransaction)
  | restart (validators : ValidatorSet)

/-- What is read back of a response: the hashes that transactions cached are not sent. -/
def BlockResponse.received : BlockResponse → BlockResponse
  | .block b => .block b.stored
  | .notFound => .notFound

def SyncResponse.received (r : SyncResponse) : SyncResponse := { r with blocks := r.blocks.map Block.stored }

namespace KratOsNode

variable {σ : Type} [LinearOrder σ] (e : Setup σ)

def step (w : Surroundings) (s : KratOsNode) : NodeInput → Option KratOsNode
  | .newBlock block => some { s with network := s.network.handleNewBlock w block.stored }
  | .newTransaction tx => some { s with network := s.network.notify (.transactionReceived tx.uncached) }
  | .blockResponse r => (s.network.handleBlockResponse e.checks e.cr r.received).map fun network => { s with network }
  | .syncResponse r => (s.network.handleSyncResponse e.checks e.cr w r.received).map fun network => { s with network }
  | .statusRequest status => some { s with network := s.network.handleStatusRequest status }
  | .statusResponse status => some { s with network := s.network.handleStatusResponse w status }
  | .syncFailure => some { s with network := s.network.handleSyncFailure }
  | .maintenance => some { s with network := s.network.maybeStartSync w }
  | .nextEvent => s.processNetworkEvent e w
  | .slotTick canProduce => some (s.slotTick e w canProduce)
  | .submitTransaction tx => some (s.submitTransaction e w tx.uncached).1
  | .restart validators => some (s.restart e.cr w.millis validators)

def run (s : KratOsNode) (l : List (Surroundings × NodeInput)) : Option KratOsNode :=
  l.foldlM (fun s i => s.step e i.1 i.2) s

end KratOsNode

end Kratos
