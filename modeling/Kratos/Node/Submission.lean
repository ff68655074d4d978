import Kratos.Node.Selection

/-!
# What a submission does to the pool

Six checks come before the pool looks up the sender's queue; a transaction that fails one
changes no index (`addWithValidation_unscreened`).  The lookup creates the queue if it is
missing, and a refusal after it leaves the empty queue behind: `refusal_keeps_iff` says when
a refused submission changes nothing.  A replacement is validated against the state unless
the queue is full: `admission_validated_iff` says when an accepted transaction has passed the
validation.  `included_leave_iff` is about the transactions of a block, which are removed by
the hash they carry.
-/

namespace Kratos

namespace TransactionPool

/-! ## The checks before the queue -/

/-- The checks on the hash, the nonce, the fee, the rate and the signature. -/
def screens (cr : Crypto) (now : Nat) (p : TransactionPool) (tx : SignedTransaction) : Bool :=
  (tx.hash?.any fun hash => !p.transactions.contains hash) &&
    decide (tx.transaction.nonce.val ≤ maxAbsoluteNonce) &&
    decide (p.config.minFee ≤ tx.transaction.call.baseFee) &&
    (p.rateLimiter.check tx.transaction.sender p.config.rateLimitPerAccount p.config.rateLimitWindow now).2 &&
    tx.verify cr

/-- The pool with the submission counted by the rate limiter. -/
def counted (now : Nat) (p : TransactionPool) (sender : AccountId) : TransactionPool :=
  { p with rateLimiter :=
      (p.rateLimiter.check sender p.config.rateLimitPerAccount p.config.rateLimitWindow now).1 }

/-- The indexes are the same; the statistics and the rate limiter may differ. -/
structure SameIndexes (p p' : TransactionPool) : Prop where
  transactions : p'.transactions = p.transactions
  fees : p'.fees = p.fees
  priorityQueue : p'.priorityQueue = p.priorityQueue
  pending : p'.pending = p.pending
  accountQueues : p'.accountQueues = p.accountQueues

theorem SameIndexes.refl (p : TransactionPool) : p.SameIndexes p := ⟨rfl, rfl, rfl, rfl, rfl⟩

theorem SameIndexes.trans {p q r : TransactionPool} (h : p.SameIndexes q) (h' : q.SameIndexes r) : p.SameIndexes r :=
  ⟨h'.transactions.trans h.transactions, h'.fees.trans h.fees, h'.priorityQueue.trans h.priorityQueue,
    h'.pending.trans h.pending, h'.accountQueues.trans h.accountQueues⟩

namespace SameIndexes

variable {p p' : TransactionPool}

theorem insertTransaction (h : p.SameIndexes p') (cr : Crypto) (now : Nat) (tx : SignedTransaction)
    (fee : Balance) : (p.insertTransaction cr now tx fee).SameIndexes (p'.insertTransaction cr now tx fee) := by
  unfold TransactionPool.insertTransaction
  rw [h.transactions, h.fees, h.priorityQueue, h.accountQueues]
  exact ⟨rfl, rfl, rfl, h.pending, rfl⟩

theorem removeInternal (h : p.SameIndexes p') (hash : Hash) :
    (p.removeInternal hash).1.SameIndexes (p'.removeInternal hash).1 := by
  unfold TransactionPool.removeInternal
  rw [h.transactions, h.fees, h.accountQueues, h.pending]
  split
  · exact h
  · exact ⟨rfl, rfl, h.priorityQueue, rfl, rfl⟩

theorem touchQueue (h : p.SameIndexes p') (sender : AccountId) :
    (p.touchQueue sender).SameIndexes (p'.touchQueue sender) := by
  unfold TransactionPool.touchQueue
  rw [h.accountQueues]
  split
  · exact h
  · exact ⟨h.transactions, h.fees, h.priorityQueue, h.pending, rfl⟩

theorem evictLowestFee (h : p.SameIndexes p') (order : IterOrder (Hash × Balance)) (newFee : Balance) :
    (p.evictLowestFee order newFee).1.SameIndexes (p'.evictLowestFee order newFee).1 := by
  unfold TransactionPool.evictLowestFee
  rw [h.fees]
  split
  · next hash _ =>
    have hr := h.removeInternal hash
    exact ⟨hr.transactions, hr.fees, hr.priorityQueue, hr.pending, hr.accountQueues⟩
  · exact h

end SameIndexes

section Outcome

variable (cr : Crypto) (order : IterOrder (Hash × Balance)) (now : Nat) (p : TransactionPool)
  (tx : SignedTransaction) (state : Option StateBackend)

theorem addWithValidation_screened (h : p.screens cr now tx = true) :
    p.addWithValidation cr order now tx state =
      (p.counted now tx.transaction.sender).enqueue cr order now tx state := by
  unfold screens at h
  unfold addWithValidation
  cases hhash : tx.hash? with
  | none =>
    rw [hhash] at h
    cases h
  | some hash =>
    rw [hhash] at h
    simp only [Option.any_some, Bool.and_eq_true, Bool.not_eq_true', decide_eq_true_eq] at h
    obtain ⟨⟨⟨⟨hnew, hnonce⟩, hfee⟩, hrate⟩, hverify⟩ := h
    simp only [hnew, not_lt.2 hnonce, not_lt.2 hfee, hrate, hverify, if_false, Bool.false_eq_true,
      Bool.true_eq_false]
    rfl

theorem addWithValidation_unscreened (h : p.screens cr now tx = false) :
    (∃ e, (p.addWithValidation cr order now tx state).2 = .error e) ∧
      p.SameIndexes (p.addWithValidation cr order now tx state).1 := by
  unfold addWithValidation
  cases hhash : tx.hash? with
  | none => exact ⟨⟨_, rfl⟩, SameIndexes.refl p⟩
  | some hash =>
    simp only
    split
    · exact ⟨⟨_, rfl⟩, SameIndexes.refl p⟩
    next hnew =>
    split
    · exact ⟨⟨_, rfl⟩, ⟨rfl, rfl, rfl, rfl, rfl⟩⟩
    next hnonce =>
    split
    · exact ⟨⟨_, rfl⟩, ⟨rfl, rfl, rfl, rfl, rfl⟩⟩
    next hfee =>
    split
    · exact ⟨⟨_, rfl⟩, ⟨rfl, rfl, rfl, rfl, rfl⟩⟩
    next hrate =>
    split
    · exact ⟨⟨_, rfl⟩, ⟨rfl, rfl, rfl, rfl, rfl⟩⟩
    next hverify =>
    -- all checks were passed
    exfalso
    unfold screens at h
    rw [hhash, Option.any_some, Bool.eq_false_of_not_eq_true hnew, decide_eq_true (not_lt.1 hnonce),
      decide_eq_true (not_lt.1 hfee), Bool.eq_true_of_not_eq_false hrate,
      Bool.eq_true_of_not_eq_false hverify] at h
    cases h

/-! ## The queue of the sender -/

variable (sender : AccountId)

theorem touchQueue_of_contains (h : p.accountQueues.contains sender = true) : p.touchQueue sender = p := by
  obtain ⟨q, hq⟩ := Option.isSome_iff_exists.1 h
  unfold touchQueue
  rw [hq]

theorem touchQueue_config : (p.touchQueue sender).config = p.config := by
  unfold touchQueue
  split <;> rfl

theorem touchQueue_fees : (p.touchQueue sender).fees = p.fees := by
  unfold touchQueue
  split <;> rfl

theorem queued_touchQueue (a : AccountId) (nonce : Nonce) :
    (p.touchQueue sender).queued a nonce = p.queued a nonce := by
  unfold touchQueue
  cases hs : p.accountQueues.find? sender with
  | some q => rfl
  | none =>
    unfold queued
    simp only [SortedMap.find?_insert]
    split
    · next ha =>
      rw [ha, hs]
      rfl
    · rfl

theorem queueLen_touchQueue (a : AccountId) : (p.touchQueue sender).queueLen a = p.queueLen a := by
  unfold touchQueue
  cases hs : p.accountQueues.find? sender with
  | some q => rfl
  | none =>
    unfold queueLen
    simp only [SortedMap.find?_insert]
    split
    · next ha =>
      rw [ha, hs]
      rfl
    · rfl

theorem sum_pendingCount (queues : SortedMap AccountId AccountQueue) :
    (queues.values.map AccountQueue.pendingCount).sum = queues.sumOf fun _ q => q.pendingCount := by
  unfold SortedMap.values SortedMap.sumOf
  rw [List.map_map]
  rfl

/-- An empty queue has no nonces and counts nothing. -/
theorem validateAgainstState_touchQueue (s : StateBackend) :
    (p.touchQueue sender).validateAgainstState tx s = p.validateAgainstState tx s := by
  unfold touchQueue
  cases hs : p.accountQueues.find? sender with
  | some q => rfl
  | none =>
    have hpending : ((p.accountQueues.insert sender .empty).values.map AccountQueue.pendingCount).sum =
        (p.accountQueues.values.map AccountQueue.pendingCount).sum := by
      have h := SortedMap.sumOf_insert (fun _ q => q.pendingCount) p.accountQueues sender .empty
      rw [hs] at h
      rw [sum_pendingCount, sum_pendingCount]
      exact h
    have hnonce : ((p.accountQueues.insert sender .empty).find? tx.transaction.sender).bind
          (fun q => (q.byNonce.keys.map Fin.val).max?) =
        (p.accountQueues.find? tx.transaction.sender).bind fun q => (q.byNonce.keys.map Fin.val).max? := by
      rw [SortedMap.find?_insert]
      split
      · next heq =>
        rw [heq, hs]
        rfl
      · rfl
    unfold validateAgainstState
    simp only [hpending, hnonce]

/-! ## Acceptance -/

/-- The fee is high enough to replace the transaction. -/
def raisesFee (existingHash : Hash) : Bool :=
  let existingFee := (p.fees.find? existingHash).getD 0
  let minIncrease := min (existingFee.val * p.config.rbfMinIncreasePct) (2 ^ 128 - 1) / 100
  decide (min (existingFee.val + minIncrease) (2 ^ 128 - 1) ≤ tx.transaction.call.baseFee.val)

/-- There is room, or a transaction with a lower fee to make room. -/
def Fits : Prop :=
  p.transactions.size < p.config.maxSize ∨ ∃ fee ∈ p.fees.values, fee < tx.transaction.call.baseFee

/-- The sender has no transaction of this nonce and there is room, or it is replaced. -/
def Placeable : Prop :=
  match p.queued tx.transaction.sender tx.transaction.nonce with
  | some existingHash => p.raisesFee tx existingHash = true
  | none => p.Fits tx

/-- The sender's queue takes the transaction. -/
def Enters : Prop :=
  if p.queueLen tx.transaction.sender ≥ p.config.maxPerAccount then
    ∃ existingHash, p.queued tx.transaction.sender tx.transaction.nonce = some existingHash ∧
      p.raisesFee tx existingHash = true
  else (∀ s, state = some s → p.validateAgainstState tx s = .ok ()) ∧ p.Placeable tx

/-- A call that returns an error has left the indexes alone. -/
def Refuses (r : TransactionPool × Except PoolError Unit) : Prop :=
  (∃ e, r.2 = .error e) ∧ p.SameIndexes r.1

theorem tryReplace_cases (existingHash : Hash) :
    p.raisesFee tx existingHash = true ∧ (p.tryReplace cr now tx existingHash).2 = .ok () ∨
      p.raisesFee tx existingHash = false ∧ p.Refuses (p.tryReplace cr now tx existingHash) := by
  unfold tryReplace raisesFee
  simp only
  split
  · next hlow => exact Or.inr ⟨decide_eq_false (not_le.2 hlow), ⟨_, rfl⟩, ⟨rfl, rfl, rfl, rfl, rfl⟩⟩
  · next hhigh => exact Or.inl ⟨decide_eq_true (not_lt.1 hhigh), rfl⟩

/-- The search finds something if and only if some fee is lower. -/
theorem foldl_lower_none (l : List (Hash × Balance)) (newFee : Balance) :
    (l.foldl lower (none, newFee)).1 = none ↔ ∀ e ∈ l, newFee ≤ e.2 := by
  have hsome : ∀ (l : List (Hash × Balance)) (hash : Hash) (fee : Balance),
      (l.foldl lower (some hash, fee)).1 ≠ none := by
    intro l
    induction l with
    | nil => exact fun hash fee => Option.some_ne_none hash
    | cons e l ih =>
      intro hash fee
      simp only [List.foldl_cons, lower]
      split
      · exact ih e.1 e.2
      · exact ih hash fee
  induction l with
  | nil => simp
  | cons e l ih =>
    simp only [List.foldl_cons, lower, List.forall_mem_cons]
    split
    · next hlow => exact ⟨fun h => absurd h (hsome l _ _), fun h => absurd h.1 (not_le.2 hlow)⟩
    · next hhigh => exact ih.trans (Iff.symm (and_iff_right (not_lt.1 hhigh)))

theorem evictLowestFee_false (newFee : Balance) :
    (p.evictLowestFee order newFee).2 = false ↔ ∀ fee ∈ p.fees.values, newFee ≤ fee := by
  have hsearch := foldl_lower_none (order.iter p.fees.entries) newFee
  have hvalues : (∀ fee ∈ p.fees.values, newFee ≤ fee) ↔ ∀ e ∈ order.iter p.fees.entries, newFee ≤ e.2 := by
    unfold SortedMap.values
    simp only [List.forall_mem_map, order.mem_iter]
  rw [hvalues, ← hsearch]
  unfold evictLowestFee
  cases ((order.iter p.fees.entries).foldl lower (none, newFee)).1 with
  | none => simp
  | some hash => simp

theorem evictLowestFee_eq_of_false (newFee : Balance) (h : (p.evictLowestFee order newFee).2 = false) :
    p.evictLowestFee order newFee = (p, false) := by
  unfold evictLowestFee at h ⊢
  split
  · next heq =>
    rw [heq] at h
    cases h
  · rfl

theorem place_cases :
    p.Placeable tx ∧ (p.place cr order now tx).2 = .ok () ∨
      ¬ p.Placeable tx ∧ p.Refuses (p.place cr order now tx) := by
  unfold Placeable place
  cases p.queued tx.transaction.sender tx.transaction.nonce with
  | some existingHash =>
    rcases p.tryReplace_cases cr now tx existingHash with h | ⟨hlow, h⟩
    · exact Or.inl h
    · exact Or.inr ⟨by simp [hlow], h⟩
  | none =>
    simp only
    by_cases hfull : p.transactions.size ≥ p.config.maxSize
    · rw [if_pos hfull]
      by_cases hevict : (p.evictLowestFee order tx.transaction.call.baseFee).2 = false
      · right
        rw [evictLowestFee_eq_of_false order p _ hevict]
        refine ⟨?_, ⟨_, rfl⟩, ⟨rfl, rfl, rfl, rfl, rfl⟩⟩
        rintro (hroom | ⟨fee, hmem, hlow⟩)
        · omega
        · exact absurd hlow (not_lt.2 ((evictLowestFee_false order p _).1 hevict fee hmem))
      · left
        rw [if_neg hevict]
        rw [evictLowestFee_false] at hevict
        push Not at hevict
        exact ⟨Or.inr hevict, rfl⟩
    · left
      rw [if_neg hfull]
      exact ⟨Or.inl (not_le.1 hfull), rfl⟩

theorem enqueue_cases :
    p.Enters tx state ∧ (p.enqueue cr order now tx state).2 = .ok () ∨
      ¬ p.Enters tx state ∧ (p.touchQueue tx.transaction.sender).Refuses (p.enqueue cr order now tx state) := by
  have hqueued := p.queued_touchQueue tx.transaction.sender tx.transaction.sender tx.transaction.nonce
  have hconfig := p.touchQueue_config tx.transaction.sender
  have hfees := p.touchQueue_fees tx.transaction.sender
  have hraises : (p.touchQueue tx.transaction.sender).raisesFee tx = p.raisesFee tx := by
    unfold raisesFee
    rw [hconfig, hfees]
  have hplaceable : (p.touchQueue tx.transaction.sender).Placeable tx ↔ p.Placeable tx := by
    unfold Placeable Fits
    rw [hqueued, hraises, hconfig, hfees, touchQueue_transactions]
  unfold Enters enqueue
  simp only [queueLen_touchQueue, hconfig, hqueued, validateAgainstState_touchQueue]
  split
  · cases hslot : p.queued tx.transaction.sender tx.transaction.nonce with
    | none => exact Or.inr ⟨by simp, ⟨_, rfl⟩, ⟨rfl, rfl, rfl, rfl, rfl⟩⟩
    | some existingHash =>
      have hcases := (p.touchQueue tx.transaction.sender).tryReplace_cases cr now tx existingHash
      rw [hraises] at hcases
      rcases hcases with ⟨hhigh, hok⟩ | ⟨hlow, hrefused⟩
      · exact Or.inl ⟨⟨existingHash, rfl, hhigh⟩, hok⟩
      · refine Or.inr ⟨?_, hrefused⟩
        rintro ⟨hash, heq, hhigh⟩
        cases heq
        rw [hlow] at hhigh
        cases hhigh
  · have hcases := (p.touchQueue tx.transaction.sender).place_cases cr order now tx
    rw [hplaceable] at hcases
    cases state with
    | none =>
      rcases hcases with ⟨hplace, hok⟩ | ⟨hplace, hrefused⟩
      · exact Or.inl ⟨⟨by simp, hplace⟩, hok⟩
      · exact Or.inr ⟨fun h => hplace h.2, hrefused⟩
    | some s =>
      have hall : (∀ s', some s = some s' → p.validateAgainstState tx s' = .ok ()) ↔
          p.validateAgainstState tx s = .ok () := by simp
      simp only [hall]
      cases hvalid : p.validateAgainstState tx s with
      | error e => exact Or.inr ⟨fun h => (nomatch h.1), ⟨e, rfl⟩, SameIndexes.refl _⟩
      | ok u =>
        rcases hcases with ⟨hplace, hok⟩ | ⟨hplace, hrefused⟩
        · exact Or.inl ⟨⟨rfl, hplace⟩, hok⟩
        · exact Or.inr ⟨fun h => hplace h.2, hrefused⟩

/-- **Outcome.**  A submission is accepted, refused before the queue was looked up, or refused
after it. -/
theorem addWithValidation_cases :
    p.screens cr now tx = true ∧ p.Enters tx state ∧ (p.addWithValidation cr order now tx state).2 = .ok () ∨
      p.screens cr now tx = false ∧ p.Refuses (p.addWithValidation cr order now tx state) ∨
      p.screens cr now tx = true ∧ ¬ p.Enters tx state ∧
        (p.touchQueue tx.transaction.sender).Refuses (p.addWithValidation cr order now tx state) := by
  cases hscreen : p.screens cr now tx with
  | false => exact Or.inr (Or.inl ⟨rfl, p.addWithValidation_unscreened cr order now tx state hscreen⟩)
  | true =>
    rw [addWithValidation_screened cr order now p tx state hscreen]
    -- the queue and the state are not what the rate limiter changes
    have hsame : (p.counted now tx.transaction.sender).Enters tx state ↔ p.Enters tx state := Iff.rfl
    rcases (p.counted now tx.transaction.sender).enqueue_cases cr order now tx state with
      ⟨henters, hok⟩ | ⟨henters, herror, hindexes⟩
    · exact Or.inl ⟨rfl, hsame.1 henters, hok⟩
    · refine Or.inr (Or.inr ⟨rfl, fun h => henters (hsame.2 h), herror, ?_⟩)
      have htouched : (p.touchQueue tx.transaction.sender).SameIndexes
          ((p.counted now tx.transaction.sender).touchQueue tx.transaction.sender) := by
        unfold touchQueue counted
        simp only
        split <;> exact ⟨rfl, rfl, rfl, rfl, rfl⟩
      exact htouched.trans hindexes

/-- What was accepted passed the checks and entered. -/
theorem enters_of_ok (hok : (p.addWithValidation cr order now tx state).2 = .ok ()) :
    p.screens cr now tx = true ∧ p.Enters tx state := by
  rcases addWithValidation_cases cr order now p tx state with
    ⟨hscreen, henters, -⟩ | ⟨-, ⟨e, herror⟩, -⟩ | ⟨-, -, ⟨e, herror⟩, -⟩
  · exact ⟨hscreen, henters⟩
  · rw [herror] at hok
    cases hok
  · rw [herror] at hok
    cases hok

/-- The pool with the transaction's place free: the one it replaces, or the one it evicts, is
gone. -/
def makeRoom : TransactionPool :=
  match p.queued tx.transaction.sender tx.transaction.nonce with
  | some existingHash => (p.removeInternal existingHash).1
  | none =>
    if p.transactions.size ≥ p.config.maxSize then (p.evictLowestFee order tx.transaction.call.baseFee).1 else p

theorem SameIndexes.makeRoom {p p' : TransactionPool} (h : p.SameIndexes p') (hconfig : p'.config = p.config) :
    (p.makeRoom order tx).SameIndexes (p'.makeRoom order tx) := by
  unfold TransactionPool.makeRoom queued
  rw [h.accountQueues, h.transactions, hconfig]
  split
  · exact h.removeInternal _
  · split
    · exact h.evictLowestFee order _
    · exact h

theorem tryReplace_ok (existingHash : Hash) (hok : (p.tryReplace cr now tx existingHash).2 = .ok ()) :
    ((p.removeInternal existingHash).1.insertTransaction cr now tx tx.transaction.call.baseFee).SameIndexes
      (p.tryReplace cr now tx existingHash).1 := by
  unfold tryReplace at hok ⊢
  simp only at hok ⊢
  split at hok
  · cases hok
  · next hhigh =>
    rw [if_neg hhigh]
    exact ⟨rfl, rfl, rfl, rfl, rfl⟩

theorem place_ok (hok : (p.place cr order now tx).2 = .ok ()) :
    ((p.makeRoom order tx).insertTransaction cr now tx tx.transaction.call.baseFee).SameIndexes
      (p.place cr order now tx).1 := by
  unfold place at hok ⊢
  unfold makeRoom
  cases hslot : p.queued tx.transaction.sender tx.transaction.nonce with
  | some existingHash =>
    rw [hslot] at hok
    exact p.tryReplace_ok cr now tx existingHash hok
  | none =>
    rw [hslot] at hok
    simp only at hok ⊢
    by_cases hfull : p.transactions.size ≥ p.config.maxSize
    · rw [if_pos hfull] at hok ⊢
      rw [if_pos hfull]
      by_cases hevict : (p.evictLowestFee order tx.transaction.call.baseFee).2 = false
      · rw [if_pos hevict] at hok
        cases hok
      · rw [if_neg hevict]
        exact ⟨rfl, rfl, rfl, rfl, rfl⟩
    · rw [if_neg hfull, if_neg hfull]
      exact ⟨rfl, rfl, rfl, rfl, rfl⟩

theorem enqueue_ok (hok : (p.enqueue cr order now tx state).2 = .ok ()) :
    (((p.touchQueue tx.transaction.sender).makeRoom order tx).insertTransaction cr now tx
        tx.transaction.call.baseFee).SameIndexes (p.enqueue cr order now tx state).1 := by
  have hplace := (p.touchQueue tx.transaction.sender).place_ok cr order now tx
  unfold enqueue at hok ⊢
  simp only at hok ⊢
  split at hok
  · next hfull =>
    rw [if_pos hfull]
    cases hslot : (p.touchQueue tx.transaction.sender).queued tx.transaction.sender tx.transaction.nonce with
    | none =>
      rw [hslot] at hok
      cases hok
    | some existingHash =>
      rw [hslot] at hok
      unfold makeRoom
      rw [hslot]
      exact (p.touchQueue tx.transaction.sender).tryReplace_ok cr now tx existingHash hok
  · next hroom =>
    rw [if_neg hroom]
    cases state with
    | none => exact hplace hok
    | some s =>
      simp only at hok ⊢
      cases hvalid : (p.touchQueue tx.transaction.sender).validateAgainstState tx s with
      | error e =>
        rw [hvalid] at hok
        cases hok
      | ok u =>
        rw [hvalid] at hok
        exact hplace hok

/-- **Accepted.**  An accepted transaction is inserted where room was made for it. -/
theorem addWithValidation_ok (hok : (p.addWithValidation cr order now tx state).2 = .ok ()) :
    (((p.touchQueue tx.transaction.sender).makeRoom order tx).insertTransaction cr now tx
        tx.transaction.call.baseFee).SameIndexes (p.addWithValidation cr order now tx state).1 := by
  cases hscreen : p.screens cr now tx with
  | false =>
    obtain ⟨⟨e, herror⟩, -⟩ := p.addWithValidation_unscreened cr order now tx state hscreen
    rw [herror] at hok
    cases hok
  | true =>
    rw [addWithValidation_screened cr order now p tx state hscreen] at hok ⊢
    have henqueue := (p.counted now tx.transaction.sender).enqueue_ok cr order now tx state hok
    have hcounted : p.SameIndexes (p.counted now tx.transaction.sender) := ⟨rfl, rfl, rfl, rfl, rfl⟩
    exact (((hcounted.touchQueue _).makeRoom order tx (by simp only [touchQueue_config, counted])).insertTransaction
      cr now tx _).trans henqueue

/-! ## Refused submissions -/

/-- What is left to check for a sender without a queue. -/
def TakesFirst : Prop :=
  0 < p.config.maxPerAccount ∧ (∀ s, state = some s → p.validateAgainstState tx s = .ok ()) ∧ p.Fits tx

theorem enters_iff_takesFirst (h : p.accountQueues.find? tx.transaction.sender = none) :
    p.Enters tx state ↔ p.TakesFirst tx state := by
  have hlen : p.queueLen tx.transaction.sender = 0 := by
    unfold queueLen
    rw [h]
    rfl
  have hslot : p.queued tx.transaction.sender tx.transaction.nonce = none := by
    unfold queued
    rw [h]
    rfl
  unfold Enters TakesFirst Placeable
  rw [hlen, hslot]
  by_cases hzero : p.config.maxPerAccount = 0
  · rw [hzero]
    simp
  · rw [if_neg (by omega)]
    have hpos : 0 < p.config.maxPerAccount := by omega
    simp only [hpos, true_and]

/-- The lookup shows if there was no queue. -/
theorem sameIndexes_touchQueue_iff (p' : TransactionPool) (h : (p.touchQueue sender).SameIndexes p') :
    p.SameIndexes p' ↔ p.accountQueues.contains sender = true := by
  constructor
  · intro hsame
    have hqueues : (p.touchQueue sender).accountQueues = p.accountQueues :=
      h.accountQueues.symm.trans hsame.accountQueues
    rw [← hqueues]
    unfold touchQueue SortedMap.contains
    cases hs : p.accountQueues.find? sender with
    | some q =>
      simp only [hs]
      rfl
    | none =>
      simp only [SortedMap.find?_insert_self]
      rfl
  · intro hcontains
    rwa [touchQueue_of_contains p sender hcontains] at h

end Outcome

/-- A refused submission changes neither the heap nor what is pooled. -/
theorem refused_heap (cr : Crypto) (order : IterOrder (Hash × Balance)) (now : Nat) (p : TransactionPool)
    (tx : SignedTransaction) (state : Option StateBackend) (e : PoolError)
    (herror : (p.addWithValidation cr order now tx state).2 = .error e) :
    (p.addWithValidation cr order now tx state).1.priorityQueue = p.priorityQueue ∧
      (p.addWithValidation cr order now tx state).1.transactions = p.transactions := by
  rcases addWithValidation_cases cr order now p tx state with ⟨-, -, hok⟩ | ⟨-, -, hsame⟩ | ⟨-, -, -, hsame⟩
  · rw [hok] at herror
    cases herror
  · exact ⟨hsame.priorityQueue, hsame.transactions⟩
  · refine ⟨hsame.priorityQueue.trans ?_, hsame.transactions.trans (touchQueue_transactions p _)⟩
    unfold touchQueue
    split <;> rfl

/-- **Refusal.**  A refused submission changes no index if and only if the sender had a queue,
the transaction failed a check before the queue was looked up, or nothing was left to refuse
it. -/
theorem refusal_keeps_iff (cr : Crypto) (order : IterOrder (Hash × Balance)) (now : Nat) (p : TransactionPool)
    (tx : SignedTransaction) (state : Option StateBackend) :
    ((∃ e, (p.addWithValidation cr order now tx state).2 = .error e) →
      p.SameIndexes (p.addWithValidation cr order now tx state).1) ↔
      p.accountQueues.contains tx.transaction.sender = true ∨ p.screens cr now tx = false ∨
        p.TakesFirst tx state := by
  rcases addWithValidation_cases cr order now p tx state with
    ⟨hscreen, henters, hok⟩ | ⟨hscreen, -, hsame⟩ | ⟨hscreen, henters, herror, htouched⟩
  · -- accepted: there is nothing to show, and a sender without a queue was taken
    rw [hok]
    refine ⟨fun _ => ?_, fun _ h => nomatch h.choose_spec⟩
    cases hqueue : p.accountQueues.contains tx.transaction.sender with
    | true => exact Or.inl rfl
    | false =>
      have hnone := Option.not_isSome_iff_eq_none.1 (Bool.not_eq_true _ ▸ hqueue)
      exact Or.inr (Or.inr ((p.enters_iff_takesFirst tx state hnone).1 henters))
  · exact ⟨fun _ => Or.inr (Or.inl hscreen), fun _ _ => hsame⟩
  · rw [sameIndexes_touchQueue_iff p tx.transaction.sender _ htouched]
    refine ⟨fun h => Or.inl (h herror), ?_⟩
    rintro (hqueue | hunscreened | htakes) -
    · exact hqueue
    · rw [hscreen] at hunscreened
      cases hunscreened
    · by_contra hqueue
      have hnone := Option.not_isSome_iff_eq_none.1 hqueue
      exact henters ((p.enters_iff_takesFirst tx state hnone).2 htakes)

/-- A transfer from an account without funds is refused, and the account has a queue after it. -/
theorem refusal_leaves_queue :
    ¬ ∀ (cr : Crypto) (config : MempoolConfig) (ops : List PoolOp) (order : IterOrder (Hash × Balance)) (now : Nat)
        (tx : SignedTransaction) (state : Option StateBackend),
      (∃ e, ((ops.foldl (apply cr) (withConfig config)).addWithValidation cr order now tx state).2 = .error e) →
        (ops.foldl (apply cr) (withConfig config)).SameIndexes
          ((ops.foldl (apply cr) (withConfig config)).addWithValidation cr order now tx state).1 := by
  intro h
  have hsame := h Crypto.sample .default [] .stored 0 (sampleTx 0 (.transfer ⟨2⟩ 5)) (some StateBackend.new)
    ⟨.insufficientBalance 1005 0, by decide⟩
  have hkeys := congrArg (fun queues => queues.contains ⟨1⟩) hsame.accountQueues
  exact absurd hkeys (by decide)

/-! ## Validated submissions -/

/-- The nonce after the sender's last queued one, or the account's nonce if that is higher. -/
def effectiveExpected (p : TransactionPool) (state : StateBackend) (sender : AccountId) : Nat :=
  let expectedNonce := (state.accountOrNew sender).nonce.val
  max (((p.accountQueues.find? sender).bind fun q => (q.byNonce.keys.map Fin.val).max?).elim expectedNonce
    fun n => n + 1) expectedNonce

/-- The transaction passes the validation, and what that says: the nonce is not old and not too
far ahead, and the free balance covers the fee and the value. -/
structure Validated (p : TransactionPool) (tx : SignedTransaction) (state : StateBackend) : Prop where
  passes : p.validateAgainstState tx state = .ok ()
  nonceNotOld : (state.accountOrNew tx.transaction.sender).nonce.val ≤ tx.transaction.nonce.val
  nonceInGap : tx.transaction.nonce.val ≤
    p.effectiveExpected state tx.transaction.sender + p.config.maxNonceGap
  covers : min (tx.transaction.call.baseFee.val + (valueOf tx.transaction.call).val) (2 ^ 128 - 1) ≤
    (state.accountOrNew tx.transaction.sender).free.val

theorem validated_iff (p : TransactionPool) (tx : SignedTransaction) (state : StateBackend) :
    p.Validated tx state ↔ p.validateAgainstState tx state = .ok () := by
  refine ⟨Validated.passes, fun hok => ?_⟩
  have h := hok
  unfold validateAgainstState at h
  simp only at h
  split at h
  · cases h
  next hold =>
  split at h
  · cases h
  next hgap =>
  split at h
  · cases h
  split at h
  · cases h
  next hfree =>
  refine ⟨hok, not_lt.1 hold, ?_, ?_⟩
  · -- the sum is taken modulo 2⁶⁴
    exact le_trans (not_lt.1 hgap) (Nat.mod_le _ _)
  · exact Fin.le_def.1 (not_lt.1 hfree)

/-- A validated transaction that leaves a gap after the sender's last one finds the counter
below the cap. -/
theorem pending_of_validated (p : TransactionPool) (tx : SignedTransaction) (state : StateBackend)
    (h : p.validateAgainstState tx state = .ok ())
    (hgap : p.effectiveExpected state tx.transaction.sender < tx.transaction.nonce.val) :
    (p.accountQueues.values.map AccountQueue.pendingCount).sum < p.config.maxTotalPending := by
  unfold validateAgainstState at h
  simp only at h
  split at h
  · cases h
  split at h
  · cases h
  split at h
  · cases h
  · next hroom =>
    by_contra hfull
    exact hroom ⟨not_lt.1 hfull, hgap⟩

/-- **Admission.**  An accepted transaction has passed the validation if and only if it did not
replace another one in a full queue, or passes the validation that is left out there. -/
theorem admission_validated_iff (cr : Crypto) (order : IterOrder (Hash × Balance)) (now : Nat)
    (p : TransactionPool) (tx : SignedTransaction) (state : StateBackend) :
    ((p.addWithValidation cr order now tx (some state)).2 = .ok () → p.Validated tx state) ↔
      p.screens cr now tx = false ∨ p.queueLen tx.transaction.sender < p.config.maxPerAccount ∨
        (∀ existingHash, p.queued tx.transaction.sender tx.transaction.nonce = some existingHash →
          p.raisesFee tx existingHash = false) ∨
        p.validateAgainstState tx state = .ok () := by
  rw [validated_iff]
  rcases addWithValidation_cases cr order now p tx (some state) with
    ⟨hscreen, henters, hok⟩ | ⟨hscreen, ⟨e, herror⟩, -⟩ | ⟨hscreen, henters, ⟨e, herror⟩, -⟩
  · constructor
    · exact fun h => Or.inr (Or.inr (Or.inr (h hok)))
    · rintro (hunscreened | hroom | hfee | hvalid) -
      · rw [hscreen] at hunscreened
        cases hunscreened
      · unfold Enters at henters
        rw [if_neg (not_le.2 hroom)] at henters
        exact henters.1 state rfl
      · unfold Enters at henters
        split at henters
        · obtain ⟨existingHash, hslot, hraises⟩ := henters
          rw [hfee existingHash hslot] at hraises
          cases hraises
        · exact henters.1 state rfl
      · exact hvalid
  · refine ⟨fun _ => Or.inl hscreen, fun _ h => ?_⟩
    rw [herror] at h
    cases h
  · refine ⟨fun _ => ?_, fun _ h => ?_⟩
    · by_cases hfull : p.queueLen tx.transaction.sender < p.config.maxPerAccount
      · exact Or.inr (Or.inl hfull)
      · refine Or.inr (Or.inr (Or.inl fun existingHash hslot => ?_))
        unfold Enters at henters
        rw [if_pos (not_lt.1 hfull)] at henters
        by_contra hraises
        exact henters ⟨existingHash, hslot, Bool.eq_true_of_not_eq_false hraises⟩
    · rw [herror] at h
      cases h

/-- A full queue of one transfer: it is replaced by a stake from an account without funds. -/
theorem admission_skips_validation :
    ¬ ∀ (cr : Crypto) (config : MempoolConfig) (ops : List PoolOp) (order : IterOrder (Hash × Balance)) (now : Nat)
        (tx : SignedTransaction) (state : StateBackend),
      ((ops.foldl (apply cr) (withConfig config)).addWithValidation cr order now tx (some state)).2 = .ok () →
        (ops.foldl (apply cr) (withConfig config)).Validated tx state := by
  intro h
  have hvalid := h Crypto.sample { MempoolConfig.default with maxPerAccount := 1 }
    [.addWithValidation .stored 0 (sampleTx 0 (.transfer ⟨2⟩ 5)) none] .stored 1 (sampleTx 0 (.stake 5))
    StateBackend.new (by decide +kernel)
  exact absurd hvalid.passes (by decide)

/-! ## The transactions of a block -/

theorem find?_remove_transactions (p : TransactionPool) (hash k : Hash) :
    (p.remove hash).1.transactions.find? k = if k = hash then none else p.transactions.find? k := by
  rw [← find?_removeInternal]
  unfold remove
  split
  · next heq => rw [heq]
  · next heq => rw [heq]

theorem find?_evict (p : TransactionPool) (hash k : Hash) :
    (p.evict hash).transactions.find? k = if k = hash then none else p.transactions.find? k := by
  rw [← find?_removeInternal]
  unfold evict
  split
  · next heq => rw [heq]
  · next heq =>
    rw [heq]
    rfl

/-- A loop over hashes that drops each of them. -/
theorem find?_foldl_drop (step : TransactionPool → Hash → TransactionPool)
    (hstep : ∀ p hash k, (step p hash).transactions.find? k = if k = hash then none else p.transactions.find? k)
    (p : TransactionPool) (hashes : List Hash) (k : Hash) :
    (hashes.foldl step p).transactions.find? k = if k ∈ hashes then none else p.transactions.find? k := by
  induction hashes generalizing p with
  | nil => rfl
  | cons hash hashes ih =>
    rw [List.foldl_cons, ih, hstep]
    by_cases hlater : k ∈ hashes
    · simp [hlater]
    · simp [hlater]

/-- What is removed are the hashes the block's transactions carry. -/
theorem find?_removeIncluded (p : TransactionPool) (blockTxs : List SignedTransaction) (k : Hash) :
    (p.removeIncluded blockTxs).transactions.find? k =
      if k ∈ blockTxs.filterMap SignedTransaction.hash? then none else p.transactions.find? k := by
  rw [← find?_foldl_drop (fun p hash => (p.remove hash).1) find?_remove_transactions]
  unfold removeIncluded
  rw [List.foldl_filterMap]
  congr 3
  funext p tx
  cases tx.hash? <;> rfl

/-- The transaction is one of the block, by its hash. -/
def IsIncluded (cr : Crypto) (blockTxs : List SignedTransaction) (tx : SignedTransaction) : Prop :=
  ∃ b ∈ blockTxs, b.transaction.hash cr = tx.transaction.hash cr

/-- What the removal is for: the block's transactions leave the pool and the others stay. -/
structure IncludedLeave (cr : Crypto) (p : TransactionPool) (blockTxs : List SignedTransaction) : Prop where
  leave : ∀ hash tx, (p.removeIncluded blockTxs).transactions.find? hash = some tx → ¬ IsIncluded cr blockTxs tx
  stay : ∀ hash tx, p.transactions.find? hash = some tx → ¬ IsIncluded cr blockTxs tx →
    (p.removeIncluded blockTxs).transactions.find? hash = some tx

/-- The hashes the block's transactions carry are those under which the block's transactions
are pooled. -/
def CarriesHashes (cr : Crypto) (p : TransactionPool) (blockTxs : List SignedTransaction) : Prop :=
  ∀ hash tx, p.transactions.find? hash = some tx →
    (IsIncluded cr blockTxs tx ↔ ∃ b ∈ blockTxs, b.hash? = some hash)

theorem includedLeave_iff (cr : Crypto) (p : TransactionPool) (blockTxs : List SignedTransaction) :
    p.IncludedLeave cr blockTxs ↔ p.CarriesHashes cr blockTxs := by
  have hcarries : ∀ hash, hash ∈ blockTxs.filterMap SignedTransaction.hash? ↔ ∃ b ∈ blockTxs, b.hash? = some hash :=
    fun hash => List.mem_filterMap
  constructor
  · intro h hash tx hx
    have hfind := find?_removeIncluded p blockTxs hash
    rw [← hcarries]
    constructor
    · intro hincluded
      by_contra hcarried
      rw [if_neg hcarried, hx] at hfind
      exact h.leave hash tx hfind hincluded
    · intro hcarried
      by_contra hother
      rw [if_pos hcarried, h.stay hash tx hx hother] at hfind
      cases hfind
  · intro h
    constructor
    · intro hash tx hx hincluded
      rw [find?_removeIncluded] at hx
      split at hx
      · cases hx
      · next hcarried => exact hcarried ((hcarries hash).2 ((h hash tx hx).1 hincluded))
    · intro hash tx hx hother
      rw [find?_removeIncluded, if_neg fun hcarried => hother ((h hash tx hx).2 ((hcarries hash).1 hcarried))]
      exact hx

/-- **Inclusion.**  The transactions of a block leave the pool, and no others, if and only if
the block's transactions carry the hashes under which they are pooled.  Where every cached
hash is the transaction's own, that is so if and only if for each of them that is pooled the
block has one that carries its hash; a block that was read from bytes carries none. -/
theorem included_leave_iff (cr : Crypto) (config : MempoolConfig) (ops : List PoolOp)
    (blockTxs : List SignedTransaction) :
    ((ops.foldl (apply cr) (withConfig config)).IncludedLeave cr blockTxs ↔
      (ops.foldl (apply cr) (withConfig config)).CarriesHashes cr blockTxs) ∧
    ((∀ tx, Adds ops tx → HashHonest cr tx) → (∀ b ∈ blockTxs, HashHonest cr b) →
      ((ops.foldl (apply cr) (withConfig config)).IncludedLeave cr blockTxs ↔
        ∀ b ∈ blockTxs,
          (ops.foldl (apply cr) (withConfig config)).transactions.contains (b.transaction.hash cr) = true →
            ∃ b' ∈ blockTxs, b'.hash? = some (b.transaction.hash cr))) := by
  generalize hp : ops.foldl (apply cr) (withConfig config) = p
  refine ⟨includedLeave_iff cr p blockTxs, fun hadds hblock => ?_⟩
  have hkey : ∀ hash tx, p.transactions.find? hash = some tx → tx.transaction.hash cr = hash := by
    intro hash tx hx
    rw [← hp] at hx
    obtain ⟨hadded, hhash⟩ := (run_recorded cr config ops).pooled hash tx hx
    exact (hadds tx hadded).symm.trans hhash
  rw [includedLeave_iff]
  constructor
  · intro h b hb hcontains
    obtain ⟨tx, hx⟩ := Option.isSome_iff_exists.1 hcontains
    exact (h _ tx hx).1 ⟨b, hb, (hkey _ tx hx).symm⟩
  · intro h hash tx hx
    have hhash := hkey hash tx hx
    constructor
    · rintro ⟨b, hb, hsame⟩
      rw [hhash] at hsame
      have hcontains : p.transactions.contains (b.transaction.hash cr) = true := by
        unfold SortedMap.contains
        rw [hsame, hx]
        rfl
      rw [← hsame]
      exact h b hb hcontains
    · rintro ⟨b, hb, hcarried⟩
      have hown : b.hash cr = hash := by
        unfold SignedTransaction.hash
        rw [hcarried]
        rfl
      exact ⟨b, hb, (hblock b hb).symm.trans (hown.trans hhash.symm)⟩

/-- The pooled transfer comes back in a block that was read from bytes and stays pooled. -/
theorem included_stays :
    ¬ ∀ (cr : Crypto) (config : MempoolConfig) (ops : List PoolOp) (blockTxs : List SignedTransaction),
      (ops.foldl (apply cr) (withConfig config)).IncludedLeave cr blockTxs := by
  intro h
  have hleave := (h Crypto.sample .default [.addWithValidation .stored 0 (sampleTx 0 (.transfer ⟨2⟩ 5)) none]
    [(sampleTx 0 (.transfer ⟨2⟩ 5)).uncached]).leave
  have hpooled := hleave ((sampleTx 0 (.transfer ⟨2⟩ 5)).hash Crypto.sample) (sampleTx 0 (.transfer ⟨2⟩ 5))
    (by decide +kernel)
  exact hpooled ⟨_, List.mem_singleton_self _, rfl⟩

end TransactionPool

end Kratos
