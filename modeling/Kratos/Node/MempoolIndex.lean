import Kratos.Lib.Run
import Kratos.Node.Mempool

/-!
# The indexes of the transaction pool agree

`Indexed` says what the indexes of a pool have to do with each other.  Every
removal goes through `removeInternal`, which keeps it for any hash, pooled or
not.  An insertion keeps it if the hash is new, the sender's nonce is free and
there is room in the pool and in the queue; replacement and eviction make that
room first.  So it holds after any sequence of operations (`run_indexed`).
-/

namespace Kratos

namespace TransactionPool

/-- The fee recorded for a hash. -/
def feeOf (fees : SortedMap Hash Balance) (hash : Hash) : Nat := ((fees.find? hash).getD 0).val

/-- A pooled transaction of this sender and nonce. -/
def Pooled (p : TransactionPool) (hash : Hash) (sender : AccountId) (nonce : Nonce) : Prop :=
  ∃ tx, p.transactions.find? hash = some tx ∧ tx.transaction.sender = sender ∧
    tx.transaction.nonce = nonce

structure Indexed (p : TransactionPool) (config : MempoolConfig) : Prop where
  config_eq : p.config = config
  fee : ∀ hash, p.fees.find? hash =
    (p.transactions.find? hash).map fun tx => tx.transaction.call.baseFee
  queue : ∀ sender nonce hash, p.queued sender nonce = some hash ↔ p.Pooled hash sender nonce
  total : ∀ sender q, p.accountQueues.find? sender = some q →
    q.totalFees.val = q.byNonce.sumOf fun _ hash => feeOf p.fees hash
  heap : ∀ hash tx, p.transactions.find? hash = some tx → ∃ e ∈ p.priorityQueue, e.hash = hash
  room : p.transactions.size ≤ config.maxSize
  perAccount : ∀ sender q, p.accountQueues.find? sender = some q → q.len ≤ config.maxPerAccount

variable {config : MempoolConfig}

theorem withConfig_indexed (config : MempoolConfig) : (withConfig config).Indexed config where
  config_eq := rfl
  fee _ := rfl
  queue _ _ _ := ⟨fun h => (Option.some_ne_none _ h.symm).elim, fun ⟨_, h, _⟩ => by cases h⟩
  total _ _ h := by cases h
  heap _ _ h := by cases h
  room := Nat.zero_le _
  perAccount _ _ h := by cases h

/-- Only the indexes and the limits matter. -/
theorem Indexed.congr {p p' : TransactionPool} (h : p.Indexed config) (hc : p'.config = p.config)
    (ht : p'.transactions = p.transactions) (hf : p'.fees = p.fees)
    (hq : p'.accountQueues = p.accountQueues)
    (hp : ∀ hash tx, p.transactions.find? hash = some tx →
      (∃ e ∈ p.priorityQueue, e.hash = hash) → ∃ e ∈ p'.priorityQueue, e.hash = hash) :
    p'.Indexed config where
  config_eq := hc.trans h.config_eq
  fee := by rw [hf, ht]; exact h.fee
  queue := by unfold queued Pooled; rw [hq, ht]; exact h.queue
  total := by rw [hq, hf]; exact h.total
  heap hash tx hx := by
    rw [ht] at hx
    exact hp hash tx hx (h.heap hash tx hx)
  room := by rw [ht]; exact h.room
  perAccount := by rw [hq]; exact h.perAccount

theorem Indexed.countEvicted {p : TransactionPool} (h : p.Indexed config) : p.countEvicted.Indexed config :=
  h.congr rfl rfl rfl rfl fun _ _ _ he => he

theorem Indexed.countRejected {p : TransactionPool} (h : p.Indexed config) : p.countRejected.Indexed config :=
  h.congr rfl rfl rfl rfl fun _ _ _ he => he

theorem Indexed.feeOf_of_find? {p : TransactionPool} (h : p.Indexed config) (hash : Hash)
    (tx : SignedTransaction) (hx : p.transactions.find? hash = some tx) :
    feeOf p.fees hash = tx.transaction.call.baseFee.val := by
  unfold feeOf
  rw [h.fee, hx]
  rfl

theorem Indexed.feeOf_le {p : TransactionPool} (h : p.Indexed config) (hash : Hash) :
    feeOf p.fees hash ≤ 10000000 := by
  cases hx : p.transactions.find? hash with
  | none =>
    unfold feeOf
    rw [h.fee, hx]
    exact Nat.zero_le _
  | some tx =>
    rw [h.feeOf_of_find? hash tx hx]
    exact (TransactionCall.baseFee_bounds _).2

/-! ## Queues -/

theorem find?_byNonce (p : TransactionPool) (sender : AccountId) (q : AccountQueue)
    (h : p.accountQueues.find? sender = some q) (nonce : Nonce) :
    q.byNonce.find? nonce = p.queued sender nonce := by
  unfold queued
  rw [h]
  rfl

theorem feeOf_insert_ne (fees : SortedMap Hash Balance) (hash k : Hash) (fee : Balance) (h : k ≠ hash) :
    feeOf (fees.insert hash fee) k = feeOf fees k := by
  unfold feeOf
  rw [SortedMap.find?_insert_ne _ _ _ _ h]

theorem feeOf_erase_ne (fees : SortedMap Hash Balance) (hash k : Hash) (h : k ≠ hash) :
    feeOf (fees.erase hash) k = feeOf fees k := by
  unfold feeOf
  rw [SortedMap.find?_erase, if_neg h]

/-- Sums over hashes other than the one whose fee is stored or dropped stay. -/
theorem sumOf_feeOf_insert (fees : SortedMap Hash Balance) (hash : Hash) (fee : Balance) (m : SortedMap Nonce Hash)
    (hm : ∀ n k, m.find? n = some k → k ≠ hash) :
    (m.sumOf fun _ k => feeOf (fees.insert hash fee) k) = m.sumOf fun _ k => feeOf fees k := by
  apply SortedMap.sumOf_congr
  intro n k hk
  exact feeOf_insert_ne _ _ _ _ (hm n k hk)

theorem sumOf_feeOf_erase (fees : SortedMap Hash Balance) (hash : Hash) (m : SortedMap Nonce Hash)
    (hm : ∀ n k, m.find? n = some k → k ≠ hash) :
    (m.sumOf fun _ k => feeOf (fees.erase hash) k) = m.sumOf fun _ k => feeOf fees k := by
  apply SortedMap.sumOf_congr
  intro n k hk
  exact feeOf_erase_ne _ _ _ (hm n k hk)

theorem find?_remove (q : AccountQueue) (nonce n : Nonce) (fee : Balance) :
    (q.remove nonce fee).byNonce.find? n = if n = nonce then none else q.byNonce.find? n := by
  unfold AccountQueue.remove
  cases hq : q.byNonce.find? nonce with
  | none =>
    by_cases hn : n = nonce
    · rw [if_pos hn, hn]
      exact hq
    · rw [if_neg hn]
  | some h => exact SortedMap.find?_erase _ _ _

theorem len_remove_le (q : AccountQueue) (nonce : Nonce) (fee : Balance) :
    (q.remove nonce fee).len ≤ q.len := by
  unfold AccountQueue.remove
  split
  · exact le_refl _
  · exact SortedMap.size_erase_le _ _

theorem len_remove (q : AccountQueue) (nonce : Nonce) (fee : Balance) (hash : Hash)
    (h : q.byNonce.find? nonce = some hash) : (q.remove nonce fee).len + 1 = q.len := by
  unfold AccountQueue.remove
  rw [h]
  exact SortedMap.size_erase_of_some _ _ _ h

theorem find?_of_isEmpty (q : AccountQueue) (h : q.isEmpty = true) (nonce : Nonce) :
    q.byNonce.find? nonce = none := by
  unfold SortedMap.find?
  rw [List.isEmpty_iff.mp h]
  rfl

theorem len_of_isEmpty (q : AccountQueue) (h : q.isEmpty = true) : q.len = 0 := by
  unfold AccountQueue.len SortedMap.size
  rw [List.isEmpty_iff.mp h]
  rfl

variable (queues : SortedMap AccountId AccountQueue) (sender : AccountId) (nonce : Nonce) (fee : Balance)

/-- A queue that is left is the old one, less the transaction if it is the sender's. -/
theorem find?_dropFromQueue (a : AccountId) (q : AccountQueue)
    (h : (dropFromQueue queues sender nonce fee).find? a = some q) :
    a ≠ sender ∧ queues.find? a = some q ∨
      a = sender ∧ ∃ q₀, queues.find? sender = some q₀ ∧ q = q₀.remove nonce fee := by
  unfold dropFromQueue at h
  cases hs : queues.find? sender with
  | none =>
    rw [hs] at h
    left
    refine ⟨?_, h⟩
    rintro rfl
    rw [hs] at h
    cases h
  | some q₀ =>
    rw [hs] at h
    by_cases ha : a = sender
    · right
      refine ⟨ha, q₀, rfl, ?_⟩
      simp only at h
      split at h
      · rw [SortedMap.find?_erase, if_pos ha] at h
        cases h
      · rw [SortedMap.find?_insert, if_pos ha] at h
        exact (Option.some.inj h).symm
    · left
      refine ⟨ha, ?_⟩
      simp only at h
      split at h
      · rwa [SortedMap.find?_erase, if_neg ha] at h
      · rwa [SortedMap.find?_insert, if_neg ha] at h

theorem queueAt_dropFromQueue (a : AccountId) (n : Nonce) :
    ((dropFromQueue queues sender nonce fee).find? a).bind (fun q => q.byNonce.find? n) =
      if a = sender ∧ n = nonce then none
      else (queues.find? a).bind fun q => q.byNonce.find? n := by
  unfold dropFromQueue
  cases hs : queues.find? sender with
  | none =>
    by_cases ha : a = sender
    · simp [ha, hs]
    · simp [ha]
  | some q₀ =>
    have hrem := find?_remove q₀ nonce n fee
    by_cases ha : a = sender
    · -- the sender's queue: dropped if nothing is left
      simp only [ha, true_and, hs, Option.bind_some]
      rw [← hrem]
      split
      · next he =>
        rw [SortedMap.find?_erase, if_pos rfl, find?_of_isEmpty _ he]
        rfl
      · rw [SortedMap.find?_insert_self, Option.bind_some]
    · simp only [ha, false_and, if_false]
      split
      · rw [SortedMap.find?_erase, if_neg ha]
      · rw [SortedMap.find?_insert_ne _ _ _ _ ha]

theorem len_dropFromQueue_le (a : AccountId) :
    ((dropFromQueue queues sender nonce fee).find? a).elim 0 AccountQueue.len ≤
      (queues.find? a).elim 0 AccountQueue.len := by
  cases hq : (dropFromQueue queues sender nonce fee).find? a with
  | none => exact Nat.zero_le _
  | some q =>
    rcases find?_dropFromQueue queues sender nonce fee a q hq with ⟨-, h⟩ | ⟨rfl, q₀, h, rfl⟩
    · rw [h]
    · rw [h]
      exact len_remove_le q₀ nonce fee

theorem len_dropFromQueue (q₀ : AccountQueue) (hash : Hash) (h : queues.find? sender = some q₀)
    (hn : q₀.byNonce.find? nonce = some hash) :
    ((dropFromQueue queues sender nonce fee).find? sender).elim 0 AccountQueue.len + 1 = q₀.len := by
  have hlen := len_remove q₀ nonce fee hash hn
  unfold dropFromQueue
  simp only [h]
  split
  · next he =>
    rw [len_of_isEmpty _ he] at hlen
    rw [SortedMap.find?_erase, if_pos rfl]
    exact hlen
  · rw [SortedMap.find?_insert_self]
    exact hlen

/-! ## Removal -/

theorem find?_removeInternal (p : TransactionPool) (hash k : Hash) :
    (p.removeInternal hash).1.transactions.find? k =
      if k = hash then none else p.transactions.find? k := by
  unfold removeInternal
  cases h : p.transactions.find? hash with
  | none =>
    by_cases hk : k = hash
    · rw [if_pos hk, hk]
      exact h
    · rw [if_neg hk]
  | some tx =>
    show (p.transactions.erase hash).find? k = _
    rw [SortedMap.find?_erase]
    split <;> rfl

theorem queued_removeInternal_eq_none (p : TransactionPool) (hash : Hash) (a : AccountId) (n : Nonce)
    (h : p.queued a n = none) : (p.removeInternal hash).1.queued a n = none := by
  unfold removeInternal
  split
  · exact h
  · unfold queued at h ⊢
    rw [queueAt_dropFromQueue]
    split
    · rfl
    · exact h

theorem queueLen_removeInternal_le (p : TransactionPool) (hash : Hash) (a : AccountId) :
    (p.removeInternal hash).1.queueLen a ≤ p.queueLen a := by
  unfold removeInternal
  split
  · exact le_refl _
  · exact len_dropFromQueue_le _ _ _ _ _

theorem size_removeInternal (p : TransactionPool) (hash : Hash) (tx : SignedTransaction)
    (h : p.transactions.find? hash = some tx) :
    (p.removeInternal hash).1.transactions.size + 1 = p.transactions.size := by
  unfold removeInternal
  rw [h]
  exact SortedMap.size_erase_of_some _ _ _ h

theorem queued_removeInternal (p : TransactionPool) (hash : Hash) (tx : SignedTransaction)
    (hx : p.transactions.find? hash = some tx) (a : AccountId) (n : Nonce) :
    (p.removeInternal hash).1.queued a n =
      if a = tx.transaction.sender ∧ n = tx.transaction.nonce then none else p.queued a n := by
  unfold removeInternal queued
  rw [hx]
  exact queueAt_dropFromQueue _ _ _ _ _ _

/-- A hash is queued for its transaction's place only. -/
theorem Indexed.slot_eq {p : TransactionPool} (h : p.Indexed config) {hash : Hash} {tx : SignedTransaction}
    (hx : p.transactions.find? hash = some tx) {a : AccountId} {n : Nonce} (hq : p.queued a n = some hash) :
    a = tx.transaction.sender ∧ n = tx.transaction.nonce := by
  obtain ⟨tx', hx', ha, hn⟩ := (h.queue a n hash).mp hq
  rw [hx] at hx'
  cases hx'
  exact ⟨ha.symm, hn.symm⟩

theorem Indexed.queue_removeInternal {p : TransactionPool} (h : p.Indexed config) {hash : Hash}
    {tx : SignedTransaction} (hx : p.transactions.find? hash = some tx) (a : AccountId) (n : Nonce) (k : Hash) :
    (p.removeInternal hash).1.queued a n = some k ↔ (p.removeInternal hash).1.Pooled k a n := by
  have hslot := (h.queue tx.transaction.sender tx.transaction.nonce hash).mpr ⟨tx, hx, rfl, rfl⟩
  unfold Pooled
  rw [queued_removeInternal p hash tx hx, find?_removeInternal]
  by_cases hk : k = hash
  · -- the removed hash was queued in one place only, which is now free
    rw [if_pos hk]
    constructor
    · intro hq
      split at hq
      · cases hq
      · next hne =>
        rw [hk] at hq
        exact absurd (h.slot_eq hx hq) hne
    · rintro ⟨tx', hx', -⟩
      cases hx'
  · rw [if_neg hk]
    split
    · next heq =>
      constructor
      · intro hq
        cases hq
      · intro hp
        have hq := (h.queue a n k).mpr hp
        rw [heq.1, heq.2, hslot] at hq
        exact absurd (Option.some.inj hq).symm hk
    · exact h.queue a n k

/-- The sender's queue loses the fee of the transaction, the others none. -/
theorem Indexed.total_removeInternal {p : TransactionPool} (h : p.Indexed config) {hash : Hash}
    {tx : SignedTransaction} (hx : p.transactions.find? hash = some tx) (a : AccountId) (q : AccountQueue)
    (hq : (dropFromQueue p.accountQueues tx.transaction.sender tx.transaction.nonce
      ((p.fees.find? hash).getD 0)).find? a = some q) :
    q.totalFees.val = q.byNonce.sumOf fun _ k => feeOf (p.fees.erase hash) k := by
  rcases find?_dropFromQueue _ _ _ _ _ _ hq with ⟨ha, hq₀⟩ | ⟨rfl, q₀, hq₀, rfl⟩
  · rw [sumOf_feeOf_erase]
    · exact h.total a q hq₀
    · rintro n k hk rfl
      rw [find?_byNonce _ _ _ hq₀] at hk
      exact ha (h.slot_eq hx hk).1
  · have hn : q₀.byNonce.find? tx.transaction.nonce = some hash := by
      rw [find?_byNonce _ _ _ hq₀]
      exact (h.queue _ _ hash).mpr ⟨tx, hx, rfl, rfl⟩
    have hsum := SortedMap.sumOf_erase (fun _ k => feeOf p.fees k) q₀.byNonce tx.transaction.nonce
    rw [hn, Option.elim_some] at hsum
    rw [sumOf_feeOf_erase]
    · have ht := h.total _ _ hq₀
      unfold AccountQueue.remove
      rw [hn]
      show q₀.totalFees.val - feeOf p.fees hash = _
      simp only
      omega
    · rintro n k hk rfl
      rw [find?_remove] at hk
      split at hk
      · cases hk
      · next hne =>
        rw [find?_byNonce _ _ _ hq₀] at hk
        exact hne (h.slot_eq hx hk).2

/-- **Removing a transaction keeps the indexes together.** -/
theorem Indexed.removeInternal {p : TransactionPool} (h : p.Indexed config) (hash : Hash) :
    (p.removeInternal hash).1.Indexed config := by
  cases hx : p.transactions.find? hash with
  | none =>
    unfold TransactionPool.removeInternal
    rw [hx]
    exact h
  | some tx =>
    have hfind := find?_removeInternal p hash
    have hqueue := h.queue_removeInternal hx
    unfold TransactionPool.removeInternal at hfind hqueue ⊢
    rw [hx] at hfind hqueue ⊢
    simp only at hfind hqueue ⊢
    constructor
    case config_eq => exact h.config_eq
    case fee =>
      intro k
      simp only [SortedMap.find?_erase]
      split
      · rfl
      · exact h.fee k
    case queue => exact hqueue
    case total => exact h.total_removeInternal hx
    case heap =>
      intro k tx' hk
      rw [hfind] at hk
      split at hk
      · cases hk
      · exact h.heap k tx' hk
    case room =>
      exact le_trans (SortedMap.size_erase_le _ _) h.room
    case perAccount =>
      intro a q hq
      rcases find?_dropFromQueue _ _ _ _ _ _ hq with ⟨-, hq₀⟩ | ⟨rfl, q₀, hq₀, rfl⟩
      · exact h.perAccount a q hq₀
      · exact le_trans (len_remove_le _ _ _) (h.perAccount _ _ hq₀)

/-! ## Insertion -/

/-- The sender's queue, empty if there is none. -/
def queueOf (p : TransactionPool) (sender : AccountId) : AccountQueue :=
  (p.accountQueues.find? sender).getD .empty

theorem find?_queueOf (p : TransactionPool) (sender : AccountId) (nonce : Nonce) :
    (p.queueOf sender).byNonce.find? nonce = p.queued sender nonce := by
  unfold queueOf queued
  cases p.accountQueues.find? sender <;> rfl

theorem len_queueOf (p : TransactionPool) (sender : AccountId) :
    (p.queueOf sender).len = p.queueLen sender := by
  unfold queueOf queueLen
  cases p.accountQueues.find? sender <;> rfl

theorem Indexed.total_queueOf {p : TransactionPool} (h : p.Indexed config) (sender : AccountId) :
    (p.queueOf sender).totalFees.val =
      (p.queueOf sender).byNonce.sumOf fun _ hash => feeOf p.fees hash := by
  unfold queueOf
  cases hq : p.accountQueues.find? sender with
  | none => rfl
  | some q => exact h.total _ _ hq

/-- At most 2⁶⁴ nonces, each with a fee of at most 10⁷: the sum of a queue never saturates. -/
theorem Indexed.sumOf_fees_le {p : TransactionPool} (h : p.Indexed config) (m : SortedMap Nonce Hash) :
    (m.sumOf fun _ hash => feeOf p.fees hash) ≤ 2 ^ 64 * 10000000 := by
  have hle := SortedMap.sumOf_le (fun _ hash => feeOf p.fees hash) m 10000000 fun _ k => h.feeOf_le k
  have hcard : m.size ≤ 2 ^ 64 := by
    have := SortedMap.size_le_card m
    rwa [Fintype.card_fin] at this
  exact le_trans hle (Nat.mul_le_mul_right _ hcard)

theorem find?_insertTransaction_queue (cr : Crypto) (now : Nat) (p : TransactionPool)
    (tx : SignedTransaction) (fee : Balance) (a : AccountId) (n : Nonce) :
    (p.insertTransaction cr now tx fee).queued a n =
      if a = tx.transaction.sender ∧ n = tx.transaction.nonce then some (tx.hash cr)
      else p.queued a n := by
  unfold insertTransaction queued
  simp only [SortedMap.find?_insert]
  by_cases ha : a = tx.transaction.sender
  · rw [if_pos ha, Option.bind_some]
    unfold AccountQueue.add
    simp only [SortedMap.find?_insert, ha, true_and]
    split
    · rfl
    · cases p.accountQueues.find? tx.transaction.sender with
      | none => rfl
      | some q => rfl
  · rw [if_neg ha, if_neg fun h => ha h.1]

theorem find?_insertTransaction (cr : Crypto) (now : Nat) (p : TransactionPool) (tx : SignedTransaction)
    (fee : Balance) (k : Hash) : (p.insertTransaction cr now tx fee).transactions.find? k =
      if k = tx.hash cr then some tx else p.transactions.find? k := by
  show (p.transactions.insert (tx.hash cr) tx).find? k = _
  rw [SortedMap.find?_insert]
  split <;> rfl

/-- A hash that is not pooled is not queued. -/
theorem Indexed.ne_of_queued {p : TransactionPool} (h : p.Indexed config) {hash : Hash}
    (hnew : p.transactions.find? hash = none) {a : AccountId} {n : Nonce} {k : Hash}
    (hk : p.queued a n = some k) : k ≠ hash := by
  rintro rfl
  obtain ⟨tx, hx, -⟩ := (h.queue a n k).mp hk
  rw [hnew] at hx
  cases hx

theorem Indexed.queue_insertTransaction {p : TransactionPool} (h : p.Indexed config) (cr : Crypto) (now : Nat)
    (tx : SignedTransaction) (fee : Balance) (hnew : p.transactions.find? (tx.hash cr) = none)
    (hfree : p.queued tx.transaction.sender tx.transaction.nonce = none) (a : AccountId) (n : Nonce) (k : Hash) :
    (p.insertTransaction cr now tx fee).queued a n = some k ↔
      (p.insertTransaction cr now tx fee).Pooled k a n := by
  rw [find?_insertTransaction_queue]
  unfold Pooled
  rw [find?_insertTransaction]
  by_cases hk : k = tx.hash cr
  · rw [if_pos hk]
    constructor
    · intro hq
      split at hq
      · next heq => exact ⟨tx, rfl, heq.1.symm, heq.2.symm⟩
      · exact absurd hk (h.ne_of_queued hnew hq)
    · rintro ⟨tx', hx', ha, hn⟩
      cases hx'
      rw [if_pos ⟨ha.symm, hn.symm⟩, hk]
  · rw [if_neg hk]
    split
    · next heq =>
      rw [heq.1, heq.2]
      constructor
      · intro hq
        exact absurd (Option.some.inj hq).symm hk
      · intro hp
        have hq := (h.queue _ _ k).mpr hp
        rw [hfree] at hq
        cases hq
    · exact h.queue a n k

/-- The sender's queue gains the fee of the transaction, without saturating. -/
theorem Indexed.total_insertTransaction {p : TransactionPool} (h : p.Indexed config) (cr : Crypto) (now : Nat)
    (tx : SignedTransaction) (hnew : p.transactions.find? (tx.hash cr) = none)
    (hfree : p.queued tx.transaction.sender tx.transaction.nonce = none) (a : AccountId) (q : AccountQueue)
    (hq : (p.insertTransaction cr now tx tx.transaction.call.baseFee).accountQueues.find? a = some q) :
    q.totalFees.val = q.byNonce.sumOf fun _ k =>
      feeOf (p.fees.insert (tx.hash cr) tx.transaction.call.baseFee) k := by
  have hnonce : (p.queueOf tx.transaction.sender).byNonce.find? tx.transaction.nonce = none := by
    rw [find?_queueOf, hfree]
  unfold TransactionPool.insertTransaction at hq
  simp only [SortedMap.find?_insert] at hq
  split at hq
  · cases hq
    have hins := SortedMap.sumOf_insert
      (fun _ k => feeOf (p.fees.insert (tx.hash cr) tx.transaction.call.baseFee) k)
      (p.queueOf tx.transaction.sender).byNonce tx.transaction.nonce (tx.hash cr)
    rw [hnonce, Option.elim_none,
      sumOf_feeOf_insert _ _ _ (p.queueOf tx.transaction.sender).byNonce fun n k hk =>
        h.ne_of_queued hnew (by rw [← find?_queueOf]; exact hk)] at hins
    have hself : feeOf (p.fees.insert (tx.hash cr) tx.transaction.call.baseFee) (tx.hash cr) =
        tx.transaction.call.baseFee.val := by
      unfold feeOf
      rw [SortedMap.find?_insert_self]
      rfl
    have htotal := h.total_queueOf tx.transaction.sender
    have hle := h.sumOf_fees_le (p.queueOf tx.transaction.sender).byNonce
    have hbase := (TransactionCall.baseFee_bounds tx.transaction.call).2
    show (Word.satAdd (p.queueOf tx.transaction.sender).totalFees tx.transaction.call.baseFee).val =
      SortedMap.sumOf _ ((p.queueOf tx.transaction.sender).byNonce.insert _ _)
    rw [Word.val_satAdd_of_lt _ _ (by omega)]
    omega
  · rw [sumOf_feeOf_insert]
    · exact h.total a q hq
    · intro n k hk
      rw [find?_byNonce _ _ _ hq] at hk
      exact h.ne_of_queued hnew hk

/-- **A new transaction in a free slot with room left keeps the indexes together.** -/
theorem Indexed.insertTransaction {p : TransactionPool} (h : p.Indexed config) (cr : Crypto) (now : Nat)
    (tx : SignedTransaction) (hnew : p.transactions.find? (tx.hash cr) = none)
    (hfree : p.queued tx.transaction.sender tx.transaction.nonce = none)
    (hroom : p.transactions.size < config.maxSize)
    (hlen : p.queueLen tx.transaction.sender < config.maxPerAccount) :
    (p.insertTransaction cr now tx tx.transaction.call.baseFee).Indexed config := by
  have hfind := find?_insertTransaction cr now p tx tx.transaction.call.baseFee
  constructor
  case config_eq => exact h.config_eq
  case fee =>
    intro k
    rw [hfind]
    unfold TransactionPool.insertTransaction
    simp only [SortedMap.find?_insert]
    split
    · rfl
    · exact h.fee k
  case queue => exact h.queue_insertTransaction cr now tx _ hnew hfree
  case total => exact h.total_insertTransaction cr now tx hnew hfree
  case heap =>
    intro k tx' hk
    rw [hfind] at hk
    unfold TransactionPool.insertTransaction
    split at hk
    · next heq => exact ⟨_, List.mem_cons_self, heq.symm⟩
    · obtain ⟨e, he, hek⟩ := h.heap k tx' hk
      exact ⟨e, List.mem_cons_of_mem _ he, hek⟩
  case room =>
    have hsize := SortedMap.size_insert_of_none p.transactions (tx.hash cr) tx hnew
    show (p.transactions.insert (tx.hash cr) tx).size ≤ config.maxSize
    omega
  case perAccount =>
    intro a q hq
    unfold TransactionPool.insertTransaction at hq
    simp only [SortedMap.find?_insert] at hq
    split at hq
    · cases hq
      have hnonce : (p.queueOf tx.transaction.sender).byNonce.find? tx.transaction.nonce = none := by
        rw [find?_queueOf, hfree]
      have hadd := SortedMap.size_insert_of_none _ _ (tx.hash cr) hnonce
      have hbefore := len_queueOf p tx.transaction.sender
      unfold AccountQueue.len at hbefore
      show ((p.queueOf tx.transaction.sender).byNonce.insert tx.transaction.nonce (tx.hash cr)).size ≤ _
      omega
    · exact h.perAccount a q hq

/-! ## Replacement and eviction -/

theorem Indexed.tryReplace {p : TransactionPool} (h : p.Indexed config) (cr : Crypto) (now : Nat)
    (tx : SignedTransaction) (existingHash : Hash)
    (hnew : p.transactions.find? (tx.hash cr) = none)
    (hslot : p.queued tx.transaction.sender tx.transaction.nonce = some existingHash) :
    (p.tryReplace cr now tx existingHash).1.Indexed config := by
  unfold TransactionPool.tryReplace
  simp only
  split
  · exact h.countRejected
  · -- the removal frees the slot and makes room
    obtain ⟨old, hold, hsender, hnonce⟩ := (h.queue _ _ _).mp hslot
    have hr := h.removeInternal existingHash
    have hsize := size_removeInternal p existingHash old hold
    have hroom := h.room
    have hfree : (p.removeInternal existingHash).1.queued tx.transaction.sender tx.transaction.nonce =
        none := by
      rw [queued_removeInternal p existingHash old hold, if_pos ⟨hsender.symm, hnonce.symm⟩]
    have hlen : (p.removeInternal existingHash).1.queueLen tx.transaction.sender + 1 =
        p.queueLen tx.transaction.sender := by
      unfold queued at hslot
      obtain ⟨q, hq, hqn⟩ := Option.bind_eq_some_iff.mp hslot
      unfold TransactionPool.removeInternal queueLen
      rw [hold]
      simp only [hsender, hnonce, hq, Option.elim_some]
      exact len_dropFromQueue _ _ _ _ q existingHash hq hqn
    have hper : p.queueLen tx.transaction.sender ≤ config.maxPerAccount := by
      unfold queueLen
      cases hq : p.accountQueues.find? tx.transaction.sender with
      | none => exact Nat.zero_le _
      | some q => exact h.perAccount _ _ hq
    have hins := hr.insertTransaction cr now tx
      (by
        rw [find?_removeInternal]
        split
        · rfl
        · exact hnew)
      hfree (by omega) (by omega)
    exact hins.congr rfl rfl rfl rfl fun _ _ _ he => he

theorem foldl_lower_mem (l : List (Hash × Balance)) (best : Option Hash × Balance) (hash : Hash)
    (h : (l.foldl lower best).1 = some hash) : best.1 = some hash ∨ ∃ fee, (hash, fee) ∈ l := by
  induction l generalizing best with
  | nil => exact Or.inl h
  | cons e l ih =>
    rcases ih _ h with hb | ⟨fee, hm⟩
    · unfold lower at hb
      split at hb
      · cases hb
        exact Or.inr ⟨e.2, List.mem_cons_self⟩
      · exact Or.inl hb
    · exact Or.inr ⟨fee, List.mem_cons_of_mem _ hm⟩

/-- What is evicted is pooled. -/
theorem Indexed.evictLowestFee_cases {p : TransactionPool} (h : p.Indexed config)
    (order : IterOrder (Hash × Balance)) (newFee : Balance) :
    p.evictLowestFee order newFee = (p, false) ∨
      ∃ hash tx, p.transactions.find? hash = some tx ∧
        p.evictLowestFee order newFee = ((p.removeInternal hash).1.countEvicted, true) := by
  unfold evictLowestFee
  cases hl : ((order.iter p.fees.entries).foldl lower (none, newFee)).1 with
  | none => exact Or.inl rfl
  | some hash =>
    right
    rcases foldl_lower_mem _ _ _ hl with hb | ⟨fee, hm⟩
    · cases hb
    · rw [order.mem_iter, SortedMap.mem_entries_iff, h.fee] at hm
      obtain ⟨tx, hx, -⟩ := Option.map_eq_some_iff.mp hm
      exact ⟨hash, tx, hx, rfl⟩

/-! ## Submission -/

theorem Indexed.place {p : TransactionPool} (h : p.Indexed config) (cr : Crypto)
    (order : IterOrder (Hash × Balance)) (now : Nat) (tx : SignedTransaction)
    (hnew : p.transactions.find? (tx.hash cr) = none)
    (hlen : p.queueLen tx.transaction.sender < config.maxPerAccount) :
    (p.place cr order now tx).1.Indexed config := by
  unfold TransactionPool.place
  cases hslot : p.queued tx.transaction.sender tx.transaction.nonce with
  | some existingHash => exact h.tryReplace cr now tx existingHash hnew hslot
  | none =>
    simp only
    rw [h.config_eq]
    by_cases hfull : p.transactions.size ≥ config.maxSize
    · rw [if_pos hfull]
      rcases h.evictLowestFee_cases order tx.transaction.call.baseFee with hev | ⟨hash, old, hx, hev⟩
      · rw [hev, if_pos rfl]
        exact h.countRejected
      · rw [hev, if_neg (by simp)]
        have hr := h.removeInternal hash
        have hsize := size_removeInternal p hash old hx
        have hroom := h.room
        have hle := queueLen_removeInternal_le p hash tx.transaction.sender
        have hins := hr.countEvicted.insertTransaction cr now tx
          (by
            show (p.removeInternal hash).1.transactions.find? (tx.hash cr) = none
            rw [find?_removeInternal]
            split
            · rfl
            · exact hnew)
          (queued_removeInternal_eq_none p hash _ _ hslot)
          (by
            show (p.removeInternal hash).1.transactions.size < config.maxSize
            omega)
          (lt_of_le_of_lt hle hlen)
        exact hins.congr rfl rfl rfl rfl fun _ _ _ he => he
    · rw [if_neg hfull, if_neg (by simp)]
      have hins := h.insertTransaction cr now tx hnew hslot (by omega) hlen
      exact hins.congr rfl rfl rfl rfl fun _ _ _ he => he

theorem Indexed.touchQueue {p : TransactionPool} (h : p.Indexed config) (sender : AccountId) :
    (p.touchQueue sender).Indexed config := by
  unfold TransactionPool.touchQueue
  cases hs : p.accountQueues.find? sender with
  | some q => exact h
  | none =>
    constructor
    case config_eq => exact h.config_eq
    case fee => exact h.fee
    case queue =>
      intro a n k
      show _ ↔ p.Pooled k a n
      rw [← h.queue]
      unfold queued
      simp only [SortedMap.find?_insert]
      split
      · next ha => rw [ha, hs]; rfl
      · rfl
    case total =>
      intro a q hq
      rw [SortedMap.find?_insert] at hq
      split at hq
      · cases hq
        rfl
      · exact h.total a q hq
    case heap => exact h.heap
    case room => exact h.room
    case perAccount =>
      intro a q hq
      rw [SortedMap.find?_insert] at hq
      split at hq
      · cases hq
        exact Nat.zero_le _
      · exact h.perAccount a q hq

theorem touchQueue_transactions (p : TransactionPool) (sender : AccountId) :
    (p.touchQueue sender).transactions = p.transactions := by
  unfold touchQueue
  split <;> rfl

theorem Indexed.enqueue {p : TransactionPool} (h : p.Indexed config) (cr : Crypto)
    (order : IterOrder (Hash × Balance)) (now : Nat) (tx : SignedTransaction)
    (state : Option StateBackend) (hnew : p.transactions.find? (tx.hash cr) = none) :
    (p.enqueue cr order now tx state).1.Indexed config := by
  have ht := h.touchQueue tx.transaction.sender
  have hnew' : (p.touchQueue tx.transaction.sender).transactions.find? (tx.hash cr) = none := by
    rw [touchQueue_transactions]
    exact hnew
  unfold TransactionPool.enqueue
  simp only
  split
  · split
    · next existingHash hslot => exact ht.tryReplace cr now tx existingHash hnew' hslot
    · exact ht.countRejected
  · next hlen =>
    rw [ht.config_eq] at hlen
    have hplace := ht.place cr order now tx hnew' (by omega)
    split
    · exact hplace
    · split
      · exact ht
      · exact hplace

theorem Indexed.addWithValidation {p : TransactionPool} (h : p.Indexed config) (cr : Crypto)
    (order : IterOrder (Hash × Balance)) (now : Nat) (tx : SignedTransaction)
    (state : Option StateBackend) : (p.addWithValidation cr order now tx state).1.Indexed config := by
  unfold TransactionPool.addWithValidation
  cases hhash : tx.hash? with
  | none => exact h
  | some hash =>
    have hcr : tx.hash cr = hash := by
      unfold SignedTransaction.hash
      rw [hhash]
      rfl
    simp only
    split
    · exact h
    next hcontains =>
    split
    · exact h.countRejected
    split
    · exact h.countRejected
    -- the rate limiter is not an index
    have hrate : ∀ r, ({ p with rateLimiter := r } : TransactionPool).Indexed config :=
      fun _ => h.congr rfl rfl rfl rfl fun _ _ _ he => he
    split
    · exact (hrate _).countRejected
    split
    · exact (hrate _).countRejected
    · apply (hrate _).enqueue
      rw [hcr]
      exact Option.not_isSome_iff_eq_none.mp hcontains

/-! ## Runs -/

theorem Indexed.remove {p : TransactionPool} (h : p.Indexed config) (hash : Hash) :
    (p.remove hash).1.Indexed config := by
  have hr := h.removeInternal hash
  unfold TransactionPool.remove
  split
  · next heq => rwa [heq] at hr
  · next heq =>
    rw [heq] at hr
    exact hr.congr rfl rfl rfl rfl fun _ _ _ he => he

theorem Indexed.evict {p : TransactionPool} (h : p.Indexed config) (hash : Hash) : (p.evict hash).Indexed config := by
  have hr := h.removeInternal hash
  unfold TransactionPool.evict
  split
  · next heq => rwa [heq] at hr
  · next heq =>
    rw [heq] at hr
    exact hr.countEvicted

/-- Steps that keep the indexes together keep them so in a loop. -/
theorem Indexed.foldl {α : Type} (step : TransactionPool → α → TransactionPool)
    (hstep : ∀ p a, p.Indexed config → (step p a).Indexed config) {p : TransactionPool} (h : p.Indexed config)
    (l : List α) : (l.foldl step p).Indexed config :=
  Run.inv_foldl step (fun _ _ => True) (fun p => p.Indexed config) (fun p a hp _ => hstep p a hp) p l h
    (Run.meets_of_forall step _ (fun _ _ => trivial) p l)

theorem Indexed.removeIncluded {p : TransactionPool} (h : p.Indexed config) (txs : List SignedTransaction) :
    (p.removeIncluded txs).Indexed config := by
  refine h.foldl _ (fun p tx hp => ?_) txs
  cases tx.hash? with
  | none => exact hp
  | some hash => exact hp.remove hash

theorem Indexed.removeStale {p : TransactionPool} (h : p.Indexed config) (account : AccountId)
    (currentNonce : Nat) : (p.removeStale account currentNonce).Indexed config :=
  h.foldl _ (fun _ hash hp => (hp.removeInternal hash).countEvicted) _

theorem Indexed.cleanupExpired {p : TransactionPool} (h : p.Indexed config) (now : Nat) :
    (p.cleanupExpired now).Indexed config := by
  have hf := h.foldl TransactionPool.evict (fun _ hash hp => hp.evict hash)
    ((p.priorityQueue.filter fun e => decide (now - e.addedAt > p.config.txExpiration)).map
      PrioritizedTx.hash)
  exact hf.congr rfl rfl rfl rfl fun _ _ _ he => he

/-- The heap loses only entries of transactions that are gone. -/
theorem Indexed.prune {p : TransactionPool} (h : p.Indexed config) (now : Nat) : (p.prune now).Indexed config := by
  refine (h.cleanupExpired now).congr rfl rfl rfl rfl ?_
  rintro hash tx hx ⟨e, he, rfl⟩
  refine ⟨e, List.mem_filter.mpr ⟨he, ?_⟩, rfl⟩
  unfold SortedMap.contains
  rw [hx]
  rfl

theorem Indexed.removeAccountTransactions {p : TransactionPool} (h : p.Indexed config) (account : AccountId) :
    (p.removeAccountTransactions account).1.Indexed config := by
  unfold TransactionPool.removeAccountTransactions
  simp only
  suffices ∀ (l : List Hash) (r : TransactionPool × List SignedTransaction), r.1.Indexed config →
      (l.foldl (fun r hash => ((r.1.remove hash).1, r.2 ++ (r.1.remove hash).2.toList)) r).1.Indexed config from
    this _ _ h
  intro l
  induction l with
  | nil => intro r hr; exact hr
  | cons hash l ih => intro r hr; exact ih _ (hr.remove hash)

end TransactionPool

/-- A call of the pool, with the clock and the iteration order it meets. -/
inductive PoolOp where
  | addWithValidation (order : IterOrder (Hash × Balance)) (now : Nat) (tx : SignedTransaction)
      (state : Option StateBackend)
  | remove (hash : Hash)
  | removeIncluded (blockTxs : List SignedTransaction)
  | removeStale (account : AccountId) (currentNonce : Nat)
  | cleanupExpired (now : Nat)
  | prune (now : Nat)
  | removeAccountTransactions (account : AccountId)

namespace TransactionPool

def apply (cr : Crypto) (p : TransactionPool) : PoolOp → TransactionPool
  | .addWithValidation order now tx state => (p.addWithValidation cr order now tx state).1
  | .remove hash => (p.remove hash).1
  | .removeIncluded blockTxs => p.removeIncluded blockTxs
  | .removeStale account currentNonce => p.removeStale account currentNonce
  | .cleanupExpired now => p.cleanupExpired now
  | .prune now => p.prune now
  | .removeAccountTransactions account => (p.removeAccountTransactions account).1

theorem Indexed.apply {config : MempoolConfig} {p : TransactionPool} (h : p.Indexed config) (cr : Crypto) (op : PoolOp) :
    (p.apply cr op).Indexed config := by
  cases op with
  | addWithValidation order now tx state => exact h.addWithValidation cr order now tx state
  | remove hash => exact h.remove hash
  | removeIncluded blockTxs => exact h.removeIncluded blockTxs
  | removeStale account currentNonce => exact h.removeStale account currentNonce
  | cleanupExpired now => exact h.cleanupExpired now
  | prune now => exact h.prune now
  | removeAccountTransactions account => exact h.removeAccountTransactions account

theorem run_indexed (cr : Crypto) (config : MempoolConfig) (ops : List PoolOp) :
    (ops.foldl (apply cr) (withConfig config)).Indexed config :=
  (withConfig_indexed config).foldl (apply cr) (fun _ op hp => hp.apply cr op) ops

/-- **The indexes agree in every reachable pool, within the limits of its configuration.** -/
theorem reachable_indexes_agree (cr : Crypto) (config : MempoolConfig) (ops : List PoolOp) :
    let p := ops.foldl (apply cr) (withConfig config)
    (∀ hash, p.fees.contains hash = p.transactions.contains hash) ∧
      (∀ hash, p.fees.find? hash =
        (p.transactions.find? hash).map fun tx => tx.transaction.call.baseFee) ∧
      (∀ sender nonce hash, p.queued sender nonce = some hash ↔ p.Pooled hash sender nonce) ∧
      (∀ sender q, p.accountQueues.find? sender = some q →
        q.totalFees.val = q.byNonce.sumOf fun _ hash => feeOf p.fees hash) ∧
      (∀ hash, p.transactions.contains hash = true → ∃ e ∈ p.priorityQueue, e.hash = hash) ∧
      p.transactions.size ≤ config.maxSize ∧
      ∀ sender q, p.accountQueues.find? sender = some q → q.len ≤ config.maxPerAccount := by
  intro p
  have h : p.Indexed config := run_indexed cr config ops
  refine ⟨fun hash => ?_, h.fee, h.queue, h.total, fun hash hc => ?_, h.room, h.perAccount⟩
  · unfold SortedMap.contains
    rw [h.fee, Option.isSome_map]
  · obtain ⟨tx, hx⟩ := Option.isSome_iff_exists.mp hc
    exact h.heap hash tx hx

end TransactionPool

end Kratos
