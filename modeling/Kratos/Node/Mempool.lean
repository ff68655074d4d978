import Kratos.Lib.IterOrder
import Kratos.Storage.State

/-!
# Transaction pool

Pooled transactions are indexed five times: by hash (with their fees), in a heap
by priority, and per sender by nonce with the sum of the fees.  A removal leaves
the heap alone; its stale entries are dropped by `prune`.  The heap is kept as
the list of its entries: no operation here depends on their order, and the one
search that depends on the order of a hash map (`evictLowestFee`) takes that
order as an argument.  `now` is the monotonic clock during the call.
-/

namespace Kratos

/-- Nonces above this one are refused outright. -/
def maxAbsoluteNonce : Nat := 500000000

structure MempoolConfig where
  maxSize : Nat
  maxPerAccount : Nat
  minFee : Balance
  rbfMinIncreasePct : Nat
  txExpiration : Nat
  rateLimitPerAccount : Nat
  rateLimitWindow : Nat
  maxNonceGap : Nat
  maxTotalPending : Nat
deriving DecidableEq, Repr

/-- Durations are in milliseconds. -/
def MempoolConfig.default : MempoolConfig :=
  { maxSize := 10000, maxPerAccount := 100, minFee := 1000, rbfMinIncreasePct := 10
    txExpiration := 3600000, rateLimitPerAccount := 50, rateLimitWindow := 60000, maxNonceGap := 2
    maxTotalPending := 500 }

/-- A heap entry: a transaction with its priority. -/
structure PrioritizedTx where
  hash : Hash
  fee : Balance
  addedAt : Nat
  sender : AccountId
  nonce : Nonce
deriving DecidableEq, Repr

/-- Submissions of an account in the current window, and when the window started. -/
structure AccountRateLimiter where
  submissions : SortedMap AccountId (Nat × Nat)

namespace AccountRateLimiter

def check (r : AccountRateLimiter) (account : AccountId) (limit window now : Nat) :
    AccountRateLimiter × Bool :=
  match r.submissions.find? account with
  | some (count, windowStart) =>
    if now - windowStart > window then ({ submissions := r.submissions.insert account (1, now) }, true)
    else if count ≥ limit then (r, false)
    else ({ submissions := r.submissions.insert account (count + 1, windowStart) }, true)
  | none => ({ submissions := r.submissions.insert account (1, now) }, true)

def cleanup (r : AccountRateLimiter) (window now : Nat) : AccountRateLimiter :=
  { submissions := r.submissions.filter fun _ e => decide (now - e.2 ≤ window) }

end AccountRateLimiter

/-- The transactions of one sender. -/
structure AccountQueue where
  byNonce : SortedMap Nonce Hash
  totalFees : Balance
  lastSubmission : Option Nat

namespace AccountQueue

def empty : AccountQueue := { byNonce := .empty, totalFees := 0, lastSubmission := none }

def add (q : AccountQueue) (nonce : Nonce) (hash : Hash) (fee : Balance) (now : Nat) : AccountQueue :=
  { byNonce := q.byNonce.insert nonce hash, totalFees := Word.satAdd q.totalFees fee
    lastSubmission := some now }

def remove (q : AccountQueue) (nonce : Nonce) (fee : Balance) : AccountQueue :=
  match q.byNonce.find? nonce with
  | none => q
  | some _ => { q with byNonce := q.byNonce.erase nonce, totalFees := Word.satSub q.totalFees fee }

def len (q : AccountQueue) : Nat := q.byNonce.size

def isEmpty (q : AccountQueue) : Bool := q.byNonce.entries.isEmpty

/-- The queue starts above the expected nonce. -/
def hasGap (q : AccountQueue) (expectedNonce : Nat) : Bool :=
  q.byNonce.keys.head?.any fun firstNonce => decide (firstNonce.val > expectedNonce)

/-- The number of nonces from the first gap on. -/
def afterGap : Option Nat → Bool → List Nat → Nat
  | _, _, [] => 0
  | prev, foundGap, nonce :: l =>
    let foundGap := foundGap || prev.any fun p => decide (nonce > p + 1)
    (if foundGap then 1 else 0) + afterGap (some nonce) foundGap l

def pendingCount (q : AccountQueue) : Nat := afterGap none false (q.byNonce.keys.map Fin.val)

end AccountQueue

structure PoolStats where
  totalAdded : Nat
  totalRemoved : Nat
  totalEvicted : Nat
  totalRejected : Nat
  totalReplaced : Nat
deriving DecidableEq, Repr

inductive PoolError where
  | noHash
  | alreadyExists
  | poolFull
  | feeTooLow (fee minimum : Balance)
  | invalidSignature
  | invalidNonce (expected got : Nat)
  | nonceTooOld (got current : Nat)
  | insufficientBalance (need held : Balance)
  | tooManyPerAccount (count max : Nat)
  | rateLimitExceeded
  | tooManyPendingGlobal (count max : Nat)
  | nonceTooHigh (nonce max : Nat)
  | rbfFeeInsufficient (needPct : Nat)
deriving DecidableEq, Repr

structure TransactionPool where
  config : MempoolConfig
  transactions : SortedMap Hash SignedTransaction
  fees : SortedMap Hash Balance
  priorityQueue : List PrioritizedTx
  accountQueues : SortedMap AccountId AccountQueue
  rateLimiter : AccountRateLimiter
  pending : Finset Hash
  stats : PoolStats

namespace TransactionPool

def withConfig (config : MempoolConfig) : TransactionPool :=
  { config, transactions := .empty, fees := .empty, priorityQueue := [], accountQueues := .empty
    rateLimiter := { submissions := .empty }, pending := ∅
    stats := { totalAdded := 0, totalRemoved := 0, totalEvicted := 0, totalRejected := 0
               totalReplaced := 0 } }

def countRejected (p : TransactionPool) : TransactionPool :=
  { p with stats := { p.stats with totalRejected := p.stats.totalRejected + 1 } }

def countEvicted (p : TransactionPool) : TransactionPool :=
  { p with stats := { p.stats with totalEvicted := p.stats.totalEvicted + 1 } }

/-! ## Insertion and removal -/

/-- Insert into all indexes. -/
def insertTransaction (cr : Crypto) (now : Nat) (p : TransactionPool) (tx : SignedTransaction)
    (fee : Balance) : TransactionPool :=
  let hash := tx.hash cr
  let sender := tx.transaction.sender
  let nonce := tx.transaction.nonce
  { p with
    transactions := p.transactions.insert hash tx
    fees := p.fees.insert hash fee
    priorityQueue := { hash, fee, addedAt := now, sender, nonce } :: p.priorityQueue
    accountQueues := p.accountQueues.insert sender
      (((p.accountQueues.find? sender).getD .empty).add nonce hash fee now) }

/-- The queues without one transaction; a queue that becomes empty is dropped. -/
def dropFromQueue (queues : SortedMap AccountId AccountQueue) (sender : AccountId) (nonce : Nonce)
    (fee : Balance) : SortedMap AccountId AccountQueue :=
  match queues.find? sender with
  | none => queues
  | some queue =>
    let queue := queue.remove nonce fee
    if queue.isEmpty then queues.erase sender else queues.insert sender queue

def removeInternal (p : TransactionPool) (hash : Hash) : TransactionPool × Option SignedTransaction :=
  match p.transactions.find? hash with
  | none => (p, none)
  | some tx =>
    let fee := (p.fees.find? hash).getD 0
    -- the heap keeps its entry
    ({ p with
       transactions := p.transactions.erase hash
       fees := p.fees.erase hash
       accountQueues := dropFromQueue p.accountQueues tx.transaction.sender tx.transaction.nonce fee
       pending := p.pending.erase hash }, some tx)

def remove (p : TransactionPool) (hash : Hash) : TransactionPool × Option SignedTransaction :=
  match p.removeInternal hash with
  | (p, none) => (p, none)
  | (p, some tx) =>
    ({ p with stats := { p.stats with totalRemoved := p.stats.totalRemoved + 1 } }, some tx)

/-- One turn of the search for the lowest fee. -/
def lower (best : Option Hash × Balance) (e : Hash × Balance) : Option Hash × Balance :=
  if e.2 < best.2 then (some e.1, e.2) else best

def evictLowestFee (order : IterOrder (Hash × Balance)) (p : TransactionPool) (newFee : Balance) :
    TransactionPool × Bool :=
  match ((order.iter p.fees.entries).foldl lower (none, newFee)).1 with
  | some hash => ((p.removeInternal hash).1.countEvicted, true)
  | none => (p, false)

/-! ## Submission -/

/-- Replace by fee. -/
def tryReplace (cr : Crypto) (now : Nat) (p : TransactionPool) (newTx : SignedTransaction)
    (existingHash : Hash) : TransactionPool × Except PoolError Unit :=
  let existingFee := (p.fees.find? existingHash).getD 0
  let newFee := newTx.transaction.call.baseFee
  let minIncrease := min (existingFee.val * p.config.rbfMinIncreasePct) (2 ^ 128 - 1) / 100
  let requiredFee := min (existingFee.val + minIncrease) (2 ^ 128 - 1)
  if newFee.val < requiredFee then
    (p.countRejected, .error (.rbfFeeInsufficient p.config.rbfMinIncreasePct))
  else
    let p := (p.removeInternal existingHash).1.insertTransaction cr now newTx newFee
    ({ p with stats := { p.stats with totalReplaced := p.stats.totalReplaced + 1 } }, .ok ())

/-- The value a transaction moves out of its sender's free balance, as the pool counts it. -/
def valueOf : TransactionCall → Balance
  | .transfer _ amount => amount
  | .stake amount => amount
  | .createSidechain _ deposit => deposit
  | .registerValidator stake => stake
  | _ => 0

def validateAgainstState (p : TransactionPool) (tx : SignedTransaction) (state : StateBackend) :
    Except PoolError Unit :=
  let sender := tx.transaction.sender
  let nonce := tx.transaction.nonce.val
  let account := (state.getAccount sender).getD AccountInfo.new
  let expectedNonce := account.nonce.val
  let poolNonce := ((p.accountQueues.find? sender).bind fun q => (q.byNonce.keys.map Fin.val).max?).elim
    expectedNonce fun n => n + 1
  let effectiveExpected := max poolNonce expectedNonce
  if nonce < expectedNonce then .error (.nonceTooOld nonce expectedNonce)
  else if nonce > (effectiveExpected + p.config.maxNonceGap) % 2 ^ 64 then
    .error (.invalidNonce effectiveExpected nonce)
  else
    let totalPending := (p.accountQueues.values.map AccountQueue.pendingCount).sum
    if totalPending ≥ p.config.maxTotalPending ∧ nonce > effectiveExpected then
      .error (.tooManyPendingGlobal totalPending p.config.maxTotalPending)
    else
      let totalCost := Word.satAdd tx.transaction.call.baseFee (valueOf tx.transaction.call)
      if account.free < totalCost then .error (.insufficientBalance totalCost account.free) else .ok ()

/-- The queue of an account, created if it is missing. -/
def touchQueue (p : TransactionPool) (sender : AccountId) : TransactionPool :=
  match p.accountQueues.find? sender with
  | some _ => p
  | none => { p with accountQueues := p.accountQueues.insert sender .empty }

/-- The hash queued for a sender and nonce. -/
def queued (p : TransactionPool) (sender : AccountId) (nonce : Nonce) : Option Hash :=
  (p.accountQueues.find? sender).bind fun q => q.byNonce.find? nonce

def queueLen (p : TransactionPool) (sender : AccountId) : Nat :=
  (p.accountQueues.find? sender).elim 0 AccountQueue.len

/-- The last steps: replacement, eviction, insertion. -/
def place (cr : Crypto) (order : IterOrder (Hash × Balance)) (now : Nat) (p : TransactionPool)
    (tx : SignedTransaction) : TransactionPool × Except PoolError Unit :=
  let fee := tx.transaction.call.baseFee
  match p.queued tx.transaction.sender tx.transaction.nonce with
  | some existingHash => p.tryReplace cr now tx existingHash
  | none =>
    let r := if p.transactions.size ≥ p.config.maxSize then p.evictLowestFee order fee else (p, true)
    if r.2 = false then (r.1.countRejected, .error .poolFull)
    else
      let p := r.1.insertTransaction cr now tx fee
      ({ p with stats := { p.stats with totalAdded := p.stats.totalAdded + 1 } }, .ok ())

/-- The steps past the rate limit, on the sender's queue. -/
def enqueue (cr : Crypto) (order : IterOrder (Hash × Balance)) (now : Nat) (p : TransactionPool)
    (tx : SignedTransaction) (state : Option StateBackend) : TransactionPool × Except PoolError Unit :=
  let sender := tx.transaction.sender
  let p := p.touchQueue sender
  if p.queueLen sender ≥ p.config.maxPerAccount then
    match p.queued sender tx.transaction.nonce with
    | some existingHash => p.tryReplace cr now tx existingHash
    | none =>
      (p.countRejected, .error (.tooManyPerAccount (p.queueLen sender) p.config.maxPerAccount))
  else
    match state with
    | none => p.place cr order now tx
    | some state =>
      match p.validateAgainstState tx state with
      | .error e => (p, .error e)
      | .ok () => p.place cr order now tx

def addWithValidation (cr : Crypto) (order : IterOrder (Hash × Balance)) (now : Nat)
    (p : TransactionPool) (tx : SignedTransaction) (state : Option StateBackend) :
    TransactionPool × Except PoolError Unit :=
  match tx.hash? with
  | none => (p, .error .noHash)
  | some hash =>
    if p.transactions.contains hash then (p, .error .alreadyExists)
    else
      let nonce := tx.transaction.nonce.val
      let fee := tx.transaction.call.baseFee
      if nonce > maxAbsoluteNonce then (p.countRejected, .error (.nonceTooHigh nonce maxAbsoluteNonce))
      else if fee < p.config.minFee then (p.countRejected, .error (.feeTooLow fee p.config.minFee))
      else
        let r := p.rateLimiter.check tx.transaction.sender p.config.rateLimitPerAccount
          p.config.rateLimitWindow now
        let p := { p with rateLimiter := r.1 }
        if r.2 = false then (p.countRejected, .error .rateLimitExceeded)
        else if tx.verify cr = false then (p.countRejected, .error .invalidSignature)
        else p.enqueue cr order now tx state

/-! ## Removal -/

def removeIncluded (p : TransactionPool) (blockTxs : List SignedTransaction) : TransactionPool :=
  blockTxs.foldl (fun p tx => tx.hash?.elim p fun hash => (p.remove hash).1) p

/-- Evict one transaction if it is there. -/
def evict (p : TransactionPool) (hash : Hash) : TransactionPool :=
  match p.removeInternal hash with
  | (p, none) => p
  | (p, some _) => p.countEvicted

/-- Counts an eviction for every stale hash. -/
def removeStale (p : TransactionPool) (account : AccountId) (currentNonce : Nat) : TransactionPool :=
  let staleHashes := ((p.accountQueues.find? account).map fun q =>
    (q.byNonce.filter fun nonce _ => decide (nonce.val < currentNonce)).values).getD []
  staleHashes.foldl (fun p hash => (p.removeInternal hash).1.countEvicted) p

def cleanupExpired (now : Nat) (p : TransactionPool) : TransactionPool :=
  let expired := (p.priorityQueue.filter fun e => decide (now - e.addedAt > p.config.txExpiration)).map
    PrioritizedTx.hash
  let p := expired.foldl evict p
  { p with rateLimiter := p.rateLimiter.cleanup p.config.rateLimitWindow now }

/-- Expire, and drop the heap entries of transactions that are gone. -/
def prune (now : Nat) (p : TransactionPool) : TransactionPool :=
  let p := p.cleanupExpired now
  { p with priorityQueue := p.priorityQueue.filter fun e => p.transactions.contains e.hash }

def removeAccountTransactions (p : TransactionPool) (account : AccountId) :
    TransactionPool × List SignedTransaction :=
  let hashes := ((p.accountQueues.find? account).map fun q => q.byNonce.values).getD []
  hashes.foldl (fun r hash => ((r.1.remove hash).1, r.2 ++ (r.1.remove hash).2.toList)) (p, [])

end TransactionPool

end Kratos
