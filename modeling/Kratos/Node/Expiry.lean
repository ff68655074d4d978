import Kratos.Node.Submission

/-!
# Expiry of pooled transactions

The age of a transaction is read from the heap.  A removal leaves the heap entry behind, so a
transaction that was removed and came back has an entry from before.  `Timed` records, beside
the pool, when each hash was inserted last.  As long as the clock does not go back, the newest
entry of a pooled transaction is from that time (`Timely`).  So nothing old stays in the pool,
but a young transaction is removed with its old entry: `expiry_iff` says when that cannot
happen.
-/

namespace Kratos

/-- The clock during a call that reads it. -/
def PoolOp.clock? : PoolOp → Option Nat
  | .addWithValidation _ now _ _ => some now
  | .cleanupExpired now => some now
  | .prune now => some now
  | .remove _ | .removeIncluded _ | .removeStale _ _ | .removeAccountTransactions _ => none

namespace TransactionPool

/-- A pool, and when each hash was inserted last. -/
structure Timed where
  pool : TransactionPool
  inserted : SortedMap Hash Nat

namespace Timed

def new (config : MempoolConfig) : Timed := { pool := withConfig config, inserted := .empty }

/-- An accepted submission is an insertion. -/
def apply (cr : Crypto) (s : Timed) (op : PoolOp) : Timed :=
  { pool := s.pool.apply cr op
    inserted :=
      match op with
      | .addWithValidation order now tx state =>
        match (s.pool.addWithValidation cr order now tx state).2 with
        | .ok () => s.inserted.insert (tx.hash cr) now
        | .error _ => s.inserted
      | _ => s.inserted }

end Timed

/-! ## The heap keeps the entries of what is pooled -/

theorem priorityQueue_removeInternal (p : TransactionPool) (hash : Hash) :
    (p.removeInternal hash).1.priorityQueue = p.priorityQueue := by
  unfold removeInternal
  split <;> rfl

theorem priorityQueue_remove (p : TransactionPool) (hash : Hash) :
    (p.remove hash).1.priorityQueue = p.priorityQueue := by
  rw [← p.priorityQueue_removeInternal hash]
  unfold remove
  split
  · next heq => rw [heq]
  · next heq => rw [heq]

theorem priorityQueue_evict (p : TransactionPool) (hash : Hash) :
    (p.evict hash).priorityQueue = p.priorityQueue := by
  rw [← p.priorityQueue_removeInternal hash]
  unfold evict
  split
  · next heq => rw [heq]
  · next heq =>
    rw [heq]
    rfl

theorem priorityQueue_foldl {α : Type} (step : TransactionPool → α → TransactionPool)
    (hstep : ∀ p a, (step p a).priorityQueue = p.priorityQueue) (p : TransactionPool) (l : List α) :
    (l.foldl step p).priorityQueue = p.priorityQueue := by
  induction l generalizing p with
  | nil => rfl
  | cons a l ih => exact (ih (step p a)).trans (hstep p a)

theorem priorityQueue_removeAccountTransactions (p : TransactionPool) (account : AccountId) :
    (p.removeAccountTransactions account).1.priorityQueue = p.priorityQueue := by
  unfold removeAccountTransactions
  simp only
  generalize ((p.accountQueues.find? account).map fun q => q.byNonce.values).getD [] = l
  suffices ∀ r : TransactionPool × List SignedTransaction,
      (l.foldl (fun r hash => ((r.1.remove hash).1, r.2 ++ (r.1.remove hash).2.toList)) r).1.priorityQueue =
        r.1.priorityQueue from this (p, [])
  induction l with
  | nil => exact fun _ => rfl
  | cons hash l ih => exact fun r => (ih _).trans (priorityQueue_remove r.1 hash)

/-- Only `prune` drops entries, and none of a pooled transaction. -/
theorem kept_apply (cr : Crypto) (p : TransactionPool) (op : PoolOp)
    (hop : ∀ order now tx state, op ≠ .addWithValidation order now tx state) (e : PrioritizedTx)
    (he : e ∈ p.priorityQueue) (hpooled : (p.apply cr op).transactions.contains e.hash = true) :
    e ∈ (p.apply cr op).priorityQueue := by
  have hcleanup : ∀ now, (p.cleanupExpired now).priorityQueue = p.priorityQueue := fun now =>
    priorityQueue_foldl evict priorityQueue_evict p _
  cases op with
  | addWithValidation order now tx state => exact absurd rfl (hop order now tx state)
  | remove hash => rwa [← p.priorityQueue_remove hash] at he
  | removeIncluded blockTxs =>
    have hsame := priorityQueue_foldl (fun (p : TransactionPool) (tx : SignedTransaction) =>
      tx.hash?.elim p fun hash => (p.remove hash).1) (fun p tx => by
        cases tx.hash? with
        | none => rfl
        | some hash => exact p.priorityQueue_remove hash) p blockTxs
    rwa [← hsame] at he
  | removeStale account currentNonce =>
    have hsame := priorityQueue_foldl (fun (p : TransactionPool) (hash : Hash) =>
      (p.removeInternal hash).1.countEvicted) priorityQueue_removeInternal p
    rwa [← hsame] at he
  | cleanupExpired now => rwa [← hcleanup now] at he
  | prune now =>
    rw [← hcleanup now] at he
    exact List.mem_filter.2 ⟨he, hpooled⟩
  | removeAccountTransactions account => rwa [← p.priorityQueue_removeAccountTransactions account] at he

theorem priorityQueue_makeRoom (order : IterOrder (Hash × Balance)) (p : TransactionPool)
    (tx : SignedTransaction) : (p.makeRoom order tx).priorityQueue = p.priorityQueue := by
  unfold makeRoom evictLowestFee
  split
  · exact p.priorityQueue_removeInternal _
  · split
    · split
      · exact p.priorityQueue_removeInternal _
      · rfl
    · rfl

theorem Shrinks.makeRoom (order : IterOrder (Hash × Balance)) (p : TransactionPool) (tx : SignedTransaction) :
    Shrinks p (p.makeRoom order tx) := by
  unfold TransactionPool.makeRoom
  split
  · exact Shrinks.removeInternal p _
  · split
    · exact Shrinks.evictLowestFee order p _
    · exact Shrinks.of_eq _ _ rfl rfl

/-- An accepted transaction gets an entry of the time, and nothing else is new. -/
theorem accepted_heap (cr : Crypto) (order : IterOrder (Hash × Balance)) (now : Nat) (p : TransactionPool)
    (tx : SignedTransaction) (state : Option StateBackend)
    (hok : (p.addWithValidation cr order now tx state).2 = .ok ()) :
    (∃ e, e.hash = tx.hash cr ∧ e.addedAt = now ∧
      (p.addWithValidation cr order now tx state).1.priorityQueue = e :: p.priorityQueue) ∧
    ∀ hash, (p.addWithValidation cr order now tx state).1.transactions.contains hash = true →
      hash = tx.hash cr ∨ p.transactions.contains hash = true := by
  have hsame := p.addWithValidation_ok cr order now tx state hok
  constructor
  · have hheap : ((p.touchQueue tx.transaction.sender).makeRoom order tx).priorityQueue = p.priorityQueue := by
      rw [priorityQueue_makeRoom]
      unfold touchQueue
      split <;> rfl
    refine ⟨{ hash := tx.hash cr, fee := tx.transaction.call.baseFee, addedAt := now,
              sender := tx.transaction.sender, nonce := tx.transaction.nonce }, rfl, rfl, ?_⟩
    rw [hsame.priorityQueue, ← hheap]
    rfl
  · intro hash hcontains
    rw [hsame.transactions] at hcontains
    change (SortedMap.insert _ (tx.hash cr) tx).contains hash = true at hcontains
    unfold SortedMap.contains at hcontains ⊢
    rw [SortedMap.find?_insert] at hcontains
    split at hcontains
    · next heq => exact Or.inl heq
    · obtain ⟨old, hold⟩ := Option.isSome_iff_exists.1 hcontains
      have hshrinks := (Shrinks.touchQueue p tx.transaction.sender).trans _ _ _
        (Shrinks.makeRoom order (p.touchQueue tx.transaction.sender) tx)
      right
      rw [hshrinks.pooled hash old hold]
      rfl

/-! ## The newest entry -/

/-- The newest entry of a pooled transaction is from its last insertion. -/
structure Timely (clocks : List Nat) (s : Timed) : Prop where
  heapClock : ∀ e ∈ s.pool.priorityQueue, e.addedAt ∈ clocks
  latest : ∀ hash, s.pool.transactions.contains hash = true → ∃ time, s.inserted.find? hash = some time ∧
    (∃ e ∈ s.pool.priorityQueue, e.hash = hash ∧ e.addedAt = time) ∧
      ∀ e ∈ s.pool.priorityQueue, e.hash = hash → e.addedAt ≤ time

theorem Timely.shrinks {clocks : List Nat} {s : Timed} (h : Timely clocks s) (p' : TransactionPool)
    (hs : Shrinks s.pool p') (hkept : ∀ e ∈ s.pool.priorityQueue, p'.transactions.contains e.hash = true →
      e ∈ p'.priorityQueue) : Timely clocks { pool := p', inserted := s.inserted } where
  heapClock e he := h.heapClock e (hs.heap e he)
  latest hash hcontains := by
    obtain ⟨tx, hx⟩ := Option.isSome_iff_exists.1 hcontains
    have hbefore : s.pool.transactions.contains hash = true := by
      unfold SortedMap.contains
      rw [hs.pooled hash tx hx]
      rfl
    obtain ⟨time, htime, ⟨e, he, rfl, hadded⟩, hmax⟩ := h.latest hash hbefore
    exact ⟨time, htime, ⟨e, hkept e he hcontains, rfl, hadded⟩, fun e' he' => hmax e' (hs.heap e' he')⟩

/-- An accepted submission adds the newest entry, since the clock did not go back. -/
theorem Timely.accept {clocks : List Nat} {s : Timed} (h : Timely clocks s) (cr : Crypto)
    (order : IterOrder (Hash × Balance)) (now : Nat) (tx : SignedTransaction) (state : Option StateBackend)
    (hclock : ∀ c ∈ clocks, c ≤ now) (hr : (s.pool.addWithValidation cr order now tx state).2 = .ok ()) :
    Timely (clocks ++ [now])
      { pool := (s.pool.addWithValidation cr order now tx state).1
        inserted := s.inserted.insert (tx.hash cr) now } := by
  obtain ⟨⟨e, hhash, hadded, hheap⟩, hpooled⟩ := accepted_heap cr order now s.pool tx state hr
  constructor
  · intro e' he'
    simp only [hheap, List.mem_cons] at he'
    rcases he' with rfl | he'
    · rw [hadded]
      exact List.mem_append_right _ (List.mem_singleton_self now)
    · exact List.mem_append_left _ (h.heapClock e' he')
  · intro hash hcontains
    simp only [hheap]
    by_cases heq : hash = tx.hash cr
    · refine ⟨now, by rw [heq, SortedMap.find?_insert_self],
        ⟨e, List.mem_cons_self, hhash.trans heq.symm, hadded⟩, ?_⟩
      intro e' he' _
      rcases List.mem_cons.1 he' with rfl | he'
      · exact le_of_eq hadded
      · exact hclock _ (h.heapClock e' he')
    · have hbefore := (hpooled hash hcontains).resolve_left heq
      obtain ⟨time, htime, ⟨e₀, he₀, hhash₀, hadded₀⟩, hmax⟩ := h.latest hash hbefore
      refine ⟨time, by rw [SortedMap.find?_insert_ne _ _ _ _ heq, htime],
        ⟨e₀, List.mem_cons_of_mem _ he₀, hhash₀, hadded₀⟩, ?_⟩
      intro e' he' hhash'
      rcases List.mem_cons.1 he' with rfl | he'
      · exact absurd (hhash'.symm.trans hhash) heq
      · exact hmax e' he' hhash'

/-- **Step.** -/
theorem Timely.apply {clocks : List Nat} {s : Timed} (h : Timely clocks s) (cr : Crypto) (op : PoolOp)
    (hclock : ∀ now, op.clock? = some now → ∀ c ∈ clocks, c ≤ now) :
    Timely (clocks ++ op.clock?.toList) (s.apply cr op) := by
  by_cases hadd : ∃ order now tx state, op = .addWithValidation order now tx state
  · obtain ⟨order, now, tx, state, rfl⟩ := hadd
    cases hr : (s.pool.addWithValidation cr order now tx state).2 with
    | error e =>
      obtain ⟨hheap, htransactions⟩ := refused_heap cr order now s.pool tx state e hr
      have happly : s.apply cr (.addWithValidation order now tx state) =
          { pool := (s.pool.addWithValidation cr order now tx state).1, inserted := s.inserted } := by
        unfold Timed.apply
        simp only [hr]
        rfl
      rw [happly]
      have hsame := h.shrinks _ (Shrinks.of_eq _ _ htransactions hheap) fun e he _ => by rwa [hheap]
      exact ⟨fun e he => List.mem_append_left _ (hsame.heapClock e he), hsame.latest⟩
    | ok u =>
      have happly : s.apply cr (.addWithValidation order now tx state) =
          { pool := (s.pool.addWithValidation cr order now tx state).1
            inserted := s.inserted.insert (tx.hash cr) now } := by
        unfold Timed.apply
        simp only [hr]
        rfl
      rw [happly]
      exact h.accept cr order now tx state (hclock now rfl) hr
  · have hop : ∀ order now tx state, op ≠ .addWithValidation order now tx state :=
      fun order now tx state heq => hadd ⟨order, now, tx, state, heq⟩
    have happly : s.apply cr op = { pool := s.pool.apply cr op, inserted := s.inserted } := by
      unfold Timed.apply
      cases op with
      | addWithValidation order now tx state => exact absurd rfl (hop order now tx state)
      | _ => rfl
    rw [happly]
    have hkept := h.shrinks _ (Shrinks.apply cr s.pool op hop) (s.pool.kept_apply cr op hop)
    exact ⟨fun e he => List.mem_append_left _ (hkept.heapClock e he), hkept.latest⟩

/-- **Run.**  The clock does not go back. -/
theorem run_timely (cr : Crypto) (config : MempoolConfig) (ops : List PoolOp)
    (hclock : (ops.filterMap PoolOp.clock?).Pairwise (· ≤ ·)) :
    Timely (ops.filterMap PoolOp.clock?) (ops.foldl (Timed.apply cr) (Timed.new config)) := by
  induction ops using List.reverseRecOn with
  | nil => exact ⟨fun e he => (nomatch he), fun hash h => (nomatch h)⟩
  | append_singleton ops op ih =>
    have hlast : [op].filterMap PoolOp.clock? = op.clock?.toList := by
      cases h : op.clock? with
      | none => simp [h]
      | some now => simp [h]
    rw [List.filterMap_append, hlast] at hclock ⊢
    rw [List.foldl_append]
    obtain ⟨hbefore, -, hle⟩ := List.pairwise_append.1 hclock
    refine (ih hbefore).apply cr op fun now hnow c hc => ?_
    exact hle c hc now (by rw [hnow]; exact List.mem_singleton_self now)

/-! ## What is removed -/

/-- The entry is older than a transaction may get. -/
def isExpired (p : TransactionPool) (now : Nat) (e : PrioritizedTx) : Prop := now - e.addedAt > p.config.txExpiration

theorem contains_cleanupExpired (p : TransactionPool) (now : Nat) (hash : Hash) :
    (p.cleanupExpired now).transactions.contains hash = true ↔
      p.transactions.contains hash = true ∧ ∀ e ∈ p.priorityQueue, e.hash = hash → ¬ p.isExpired now e := by
  have hfind := find?_foldl_drop evict find?_evict p ((p.priorityQueue.filter fun e =>
    decide (now - e.addedAt > p.config.txExpiration)).map PrioritizedTx.hash) hash
  have hmem : hash ∈ (p.priorityQueue.filter fun e => decide (now - e.addedAt > p.config.txExpiration)).map
      PrioritizedTx.hash ↔ ∃ e ∈ p.priorityQueue, e.hash = hash ∧ p.isExpired now e := by
    unfold isExpired
    simp only [List.mem_map, List.mem_filter, decide_eq_true_eq]
    exact ⟨fun ⟨e, ⟨he, hold⟩, hhash⟩ => ⟨e, he, hhash, hold⟩, fun ⟨e, he, hhash, hold⟩ => ⟨e, ⟨he, hold⟩, hhash⟩⟩
  change ((List.foldl evict p _).transactions.find? hash).isSome = true ↔ _
  rw [hfind]
  unfold SortedMap.contains
  split
  · next hexpired =>
    obtain ⟨e, he, hhash, hold⟩ := hmem.1 hexpired
    exact ⟨fun h => (nomatch h), fun h => absurd hold (h.2 e he hhash)⟩
  · next hexpired =>
    refine ⟨fun h => ⟨h, fun e he hhash hold => hexpired (hmem.2 ⟨e, he, hhash, hold⟩)⟩, And.left⟩

/-- What the cleanup is for: it removes a pooled transaction only if its last insertion is too
long ago. -/
def RemovesOnlyExpired (s : Timed) (now : Nat) : Prop :=
  ∀ hash, s.pool.transactions.contains hash = true →
    (s.pool.cleanupExpired now).transactions.contains hash = false →
      ∃ time, s.inserted.find? hash = some time ∧ now - time > s.pool.config.txExpiration

/-- The entries of a pooled transaction are all expired or none of them is. -/
def EntriesAgree (p : TransactionPool) (now : Nat) : Prop :=
  ∀ hash, p.transactions.contains hash = true → ∀ e ∈ p.priorityQueue, ∀ e' ∈ p.priorityQueue,
    e.hash = hash → e'.hash = hash → p.isExpired now e → p.isExpired now e'

theorem removesOnlyExpired_iff {clocks : List Nat} {s : Timed} (h : Timely clocks s) (now : Nat) :
    RemovesOnlyExpired s now ↔ s.pool.EntriesAgree now := by
  constructor
  · intro honly hash hpooled e he e' he' hhash hhash' hold
    have hremoved : (s.pool.cleanupExpired now).transactions.contains hash = false := by
      by_contra hstays
      exact ((contains_cleanupExpired _ now hash).1 (Bool.eq_true_of_not_eq_false hstays)).2 e he hhash hold
    obtain ⟨time, htime, hlate⟩ := honly hash hpooled hremoved
    obtain ⟨time', htime', -, hmax⟩ := h.latest hash hpooled
    rw [htime] at htime'
    cases htime'
    have hle := hmax e' he' hhash'
    unfold isExpired
    omega
  · intro hagree hash hpooled hremoved
    obtain ⟨time, htime, ⟨e, he, hhash, hadded⟩, -⟩ := h.latest hash hpooled
    refine ⟨time, htime, ?_⟩
    by_contra hyoung
    -- no entry is expired, so the transaction stays
    have hstays : (s.pool.cleanupExpired now).transactions.contains hash = true := by
      refine (contains_cleanupExpired _ now hash).2 ⟨hpooled, fun e' he' hhash' hold => hyoung ?_⟩
      rw [← hadded]
      exact hagree hash hpooled e' he' e he hhash' hhash hold
    rw [hstays] at hremoved
    cases hremoved

/-- **Completeness.** -/
theorem cleanupExpired_young {clocks : List Nat} {s : Timed} (h : Timely clocks s) (now : Nat) (hash : Hash)
    (hstays : (s.pool.cleanupExpired now).transactions.contains hash = true) :
    ∃ time, s.inserted.find? hash = some time ∧ now - time ≤ s.pool.config.txExpiration := by
  obtain ⟨hpooled, hyoung⟩ := (contains_cleanupExpired _ now hash).1 hstays
  obtain ⟨time, htime, ⟨e, he, hhash, hadded⟩, -⟩ := h.latest hash hpooled
  refine ⟨time, htime, ?_⟩
  rw [← hadded]
  exact not_lt.1 (hyoung e he hhash)

/-! ## Coming back -/

/-- A transaction is accepted only when the heap has no entry of it. -/
def NotAgain (cr : Crypto) (s : Timed) (op : PoolOp) : Prop :=
  ∀ order now tx state, op = .addWithValidation order now tx state →
    s.pool.screens cr now tx = true → s.pool.Enters tx state → ∀ e ∈ s.pool.priorityQueue, e.hash ≠ tx.hash cr

/-- All entries of one hash are from one time. -/
def OneTime (s : Timed) : Prop :=
  ∀ e ∈ s.pool.priorityQueue, ∀ e' ∈ s.pool.priorityQueue, e.hash = e'.hash → e.addedAt = e'.addedAt

theorem oneTime_apply (cr : Crypto) (s : Timed) (op : PoolOp) (h : OneTime s) (hop : NotAgain cr s op) :
    OneTime (s.apply cr op) := by
  have hsubset : ∀ p' : TransactionPool, (∀ e ∈ p'.priorityQueue, e ∈ s.pool.priorityQueue) →
      ∀ e ∈ p'.priorityQueue, ∀ e' ∈ p'.priorityQueue, e.hash = e'.hash → e.addedAt = e'.addedAt :=
    fun p' hp e he e' he' => h e (hp e he) e' (hp e' he')
  by_cases hadd : ∃ order now tx state, op = .addWithValidation order now tx state
  · obtain ⟨order, now, tx, state, rfl⟩ := hadd
    cases hr : (s.pool.addWithValidation cr order now tx state).2 with
    | error e =>
      obtain ⟨hheap, -⟩ := refused_heap cr order now s.pool tx state e hr
      exact hsubset (s.pool.addWithValidation cr order now tx state).1 fun e he => by rwa [hheap] at he
    | ok u =>
      obtain ⟨⟨e₀, hhash, -, hheap⟩, -⟩ := accepted_heap cr order now s.pool tx state hr
      obtain ⟨hscreen, henters⟩ := enters_of_ok cr order now s.pool tx state hr
      have hnew := hop order now tx state rfl hscreen henters
      intro e he e' he' heq
      change e ∈ (s.pool.addWithValidation cr order now tx state).1.priorityQueue at he
      change e' ∈ (s.pool.addWithValidation cr order now tx state).1.priorityQueue at he'
      rw [hheap, List.mem_cons] at he he'
      rcases he with rfl | he <;> rcases he' with rfl | he'
      · rfl
      · exact absurd (heq.symm.trans hhash) (hnew e' he')
      · exact absurd (heq.trans hhash) (hnew e he)
      · exact h e he e' he' heq
  · exact hsubset _ (Shrinks.apply cr s.pool op fun order now tx state heq => hadd ⟨order, now, tx, state, heq⟩).heap

theorem entriesAgree_of_notAgain (cr : Crypto) (config : MempoolConfig) (ops : List PoolOp) (now : Nat)
    (h : Run.Meets (Timed.apply cr) (NotAgain cr) (Timed.new config) ops) :
    (ops.foldl (Timed.apply cr) (Timed.new config)).pool.EntriesAgree now := by
  have hone := Run.inv_foldl (Timed.apply cr) (NotAgain cr) OneTime (oneTime_apply cr) (Timed.new config) ops
    (fun e he => nomatch he) h
  intro hash _ e he e' he' hhash hhash' hold
  unfold isExpired
  rw [← hone e he e' he' (hhash.trans hhash'.symm)]
  exact hold

/-- **Expiry.**  After a cleanup no pooled transaction is too old.  The cleanup removes only
such transactions if and only if the heap entries of each pooled transaction are all expired
or all not; that is so in every run in which no transaction comes back while the heap still
has an entry of it. -/
theorem expiry_iff (cr : Crypto) (config : MempoolConfig) (ops : List PoolOp) (now : Nat)
    (hclock : (ops.filterMap PoolOp.clock? ++ [now]).Pairwise (· ≤ ·)) :
    (RemovesOnlyExpired (ops.foldl (Timed.apply cr) (Timed.new config)) now ↔
      (ops.foldl (Timed.apply cr) (Timed.new config)).pool.EntriesAgree now) ∧
    (∀ hash, ((ops.foldl (Timed.apply cr) (Timed.new config)).pool.cleanupExpired now).transactions.contains hash =
        true →
      ∃ time, (ops.foldl (Timed.apply cr) (Timed.new config)).inserted.find? hash = some time ∧
        now - time ≤ (ops.foldl (Timed.apply cr) (Timed.new config)).pool.config.txExpiration) ∧
    (Run.Meets (Timed.apply cr) (NotAgain cr) (Timed.new config) ops →
      RemovesOnlyExpired (ops.foldl (Timed.apply cr) (Timed.new config)) now) := by
  have htimely := run_timely cr config ops (List.pairwise_append.1 hclock).1
  have hiff := removesOnlyExpired_iff htimely now
  exact ⟨hiff, cleanupExpired_young htimely now,
    fun hmeets => hiff.2 (entriesAgree_of_notAgain cr config ops now hmeets)⟩

/-- A transfer, and two hours later a cleanup. -/
theorem expiry_once :
    ((Timed.new .default).apply Crypto.sample
        (.addWithValidation .stored 0 (sampleTx 0 (.transfer ⟨2⟩ 5)) none)).pool.transactions.size = 1 ∧
      RemovesOnlyExpired ((Timed.new .default).apply Crypto.sample
        (.addWithValidation .stored 0 (sampleTx 0 (.transfer ⟨2⟩ 5)) none)) 7200000 := by
  have h := expiry_iff Crypto.sample .default [.addWithValidation .stored 0 (sampleTx 0 (.transfer ⟨2⟩ 5)) none]
    7200000 (by decide)
  refine ⟨by decide, h.2.2 ⟨?_, trivial⟩⟩
  intro _ _ _ _ _ _ _ e he
  cases he

/-- A transfer is removed after fifty minutes and comes back at once; ten minutes later it is
expired as if it had stayed. -/
def resubmitted : List PoolOp :=
  [.addWithValidation .stored 0 (sampleTx 0 (.transfer ⟨2⟩ 5)) none,
    .remove ((sampleTx 0 (.transfer ⟨2⟩ 5)).hash Crypto.sample),
    .addWithValidation .stored 3000000 (sampleTx 0 (.transfer ⟨2⟩ 5)) none]

theorem expiry_too_early :
    ¬ ∀ (cr : Crypto) (config : MempoolConfig) (ops : List PoolOp) (now : Nat),
      (ops.filterMap PoolOp.clock? ++ [now]).Pairwise (· ≤ ·) →
        RemovesOnlyExpired (ops.foldl (Timed.apply cr) (Timed.new config)) now := by
  intro h
  obtain ⟨time, htime, hlate⟩ := h Crypto.sample .default resubmitted 3600001 (by decide)
    ((sampleTx 0 (.transfer ⟨2⟩ 5)).hash Crypto.sample) (by decide +kernel) (by decide +kernel)
  have hinserted : (resubmitted.foldl (Timed.apply Crypto.sample) (Timed.new .default)).inserted.find?
      ((sampleTx 0 (.transfer ⟨2⟩ 5)).hash Crypto.sample) = some 3000000 := by decide +kernel
  rw [hinserted] at htime
  cases htime
  exact absurd hlate (by decide +kernel)

end TransactionPool

end Kratos
