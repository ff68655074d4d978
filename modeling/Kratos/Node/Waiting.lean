import Kratos.Node.Submission

/-!
# Waiting transactions

A pooled transaction waits if its sender's queue lacks a nonce between the account's nonce
and its own.  The pool limits the number of waiting transactions by a counter of its own:
the queued nonces from the first gap of each queue on.  The counter does not know the
account's nonce, a submission below the last queued nonce is not checked against it, and a
removal can leave ready transactions behind a new gap.

`waiting_le_of_anchored` says where the counter is enough: no queue starts above its
account's nonce.  `waiting_capped` says for which runs the cap holds.
-/

namespace Kratos

namespace TransactionPool

/-- The hash queued for a sender and a nonce, which may be beyond a word. -/
def queuedAt (p : TransactionPool) (sender : AccountId) (n : Nat) : Option Hash :=
  if h : n < 2 ^ 64 then p.queued sender ⟨n, h⟩ else none

/-- The sender's queue lacks a nonce between the account's nonce and the transaction's. -/
def Waits (p : TransactionPool) (state : StateBackend) (tx : SignedTransaction) : Prop :=
  ∃ n < tx.transaction.nonce.val, (state.accountOrNew tx.transaction.sender).nonce.val ≤ n ∧
    p.queuedAt tx.transaction.sender n = none

instance (p : TransactionPool) (state : StateBackend) (tx : SignedTransaction) : Decidable (p.Waits state tx) :=
  inferInstanceAs (Decidable (∃ n < tx.transaction.nonce.val, _ ∧ _))

/-- The number of pooled transactions that wait. -/
def waiting (p : TransactionPool) (state : StateBackend) : Nat :=
  (p.transactions.filter fun _ tx => decide (p.Waits state tx)).size

/-- The transaction waits once these hashes are gone. -/
def WaitsWithout (p : TransactionPool) (state : StateBackend) (gone : List Hash) (tx : SignedTransaction) : Prop :=
  ∃ n < tx.transaction.nonce.val, (state.accountOrNew tx.transaction.sender).nonce.val ≤ n ∧
    (p.queuedAt tx.transaction.sender n).all (fun hash => decide (hash ∈ gone)) = true

instance (p : TransactionPool) (state : StateBackend) (gone : List Hash) (tx : SignedTransaction) :
    Decidable (p.WaitsWithout state gone tx) :=
  inferInstanceAs (Decidable (∃ n < tx.transaction.nonce.val, _ ∧ _))

/-- The number of pooled transactions that are ready and left behind a gap once these hashes
are gone. -/
def stranded (p : TransactionPool) (state : StateBackend) (gone : List Hash) : Nat :=
  (p.transactions.filter fun hash tx =>
    decide (hash ∉ gone ∧ ¬ p.Waits state tx ∧ p.WaitsWithout state gone tx)).size

/-! ## Counting -/

theorem mem_waiting (p : TransactionPool) (state : StateBackend) (hash : Hash) :
    hash ∈ (p.transactions.filter fun _ tx => decide (p.Waits state tx)).keys ↔
      ∃ tx, p.transactions.find? hash = some tx ∧ p.Waits state tx := by
  simp only [SortedMap.mem_keys_filter_iff, decide_eq_true_eq]

theorem mem_stranded (p : TransactionPool) (state : StateBackend) (gone : List Hash) (hash : Hash) :
    hash ∈ (p.transactions.filter fun hash tx =>
        decide (hash ∉ gone ∧ ¬ p.Waits state tx ∧ p.WaitsWithout state gone tx)).keys ↔
      ∃ tx, p.transactions.find? hash = some tx ∧ hash ∉ gone ∧ ¬ p.Waits state tx ∧
        p.WaitsWithout state gone tx := by
  simp only [SortedMap.mem_keys_filter_iff, decide_eq_true_eq]

theorem queuedAt_val (p : TransactionPool) (sender : AccountId) (nonce : Nonce) :
    p.queuedAt sender nonce.val = p.queued sender nonce := by
  unfold queuedAt
  rw [dif_pos nonce.isLt]

variable {config : MempoolConfig}

theorem Indexed.queuedAt_iff {p : TransactionPool} (h : p.Indexed config) (sender : AccountId) (n : Nat)
    (hash : Hash) : p.queuedAt sender n = some hash ↔
      ∃ tx, p.transactions.find? hash = some tx ∧ tx.transaction.sender = sender ∧ tx.transaction.nonce.val = n := by
  unfold queuedAt
  split
  · next hn =>
    rw [h.queue]
    unfold Pooled
    simp only [Fin.ext_iff]
  · next hn =>
    simp only [reduceCtorEq, false_iff, not_exists, not_and]
    rintro tx - - rfl
    exact hn tx.transaction.nonce.isLt

/-! ## What is left waiting -/

/-- Everything but these hashes stays. -/
def Keeps (p p' : TransactionPool) (gone : List Hash) : Prop :=
  ∀ hash tx, p.transactions.find? hash = some tx → hash ∉ gone → p'.transactions.find? hash = some tx

/-- A nonce that is missing was missing before or was taken away. -/
theorem queuedAt_of_keeps {p p' : TransactionPool} (h : p.Indexed config) (h' : p'.Indexed config)
    {gone : List Hash} (hkeeps : p.Keeps p' gone) (sender : AccountId) (n : Nat)
    (hnone : p'.queuedAt sender n = none) :
    (p.queuedAt sender n).all (fun hash => decide (hash ∈ gone)) = true := by
  cases hq : p.queuedAt sender n with
  | none => rfl
  | some hash =>
    rw [Option.all_some, decide_eq_true_eq]
    by_contra hstays
    obtain ⟨tx, hx, hsender, hn⟩ := (h.queuedAt_iff sender n hash).1 hq
    have hq' := (h'.queuedAt_iff sender n hash).2 ⟨tx, hkeeps hash tx hx hstays, hsender, hn⟩
    rw [hnone] at hq'
    cases hq'

/-- What waits afterwards waited before, is stranded, or is new. -/
theorem waits_of_keeps {p p' : TransactionPool} (h : p.Indexed config) (h' : p'.Indexed config)
    {gone : List Hash} (hkeeps : p.Keeps p' gone) (state : StateBackend) (tx : SignedTransaction)
    (hwaits : p'.Waits state tx) : p.WaitsWithout state gone tx := by
  obtain ⟨n, hn, hle, hnone⟩ := hwaits
  exact ⟨n, hn, hle, queuedAt_of_keeps h h' hkeeps _ n hnone⟩

/-- **Removal.**  The cap has room for what is stranded. -/
theorem waiting_le_of_keeps {p p' : TransactionPool} (h : p.Indexed config) (h' : p'.Indexed config)
    (gone fresh : List Hash) (hkeeps : p.Keeps p' gone) (state : StateBackend)
    (hpooled : ∀ hash tx, p'.transactions.find? hash = some tx → p'.Waits state tx →
      p.transactions.find? hash = some tx ∧ hash ∉ gone ∨ hash ∈ fresh) :
    p'.waiting state ≤ p.waiting state + p.stranded state gone + fresh.length := by
  have hsubset : ∀ hash ∈ (p'.transactions.filter fun _ tx => decide (p'.Waits state tx)).keys,
      hash ∈ (p.transactions.filter fun _ tx => decide (p.Waits state tx)).keys ++
        (p.transactions.filter fun hash tx =>
          decide (hash ∉ gone ∧ ¬ p.Waits state tx ∧ p.WaitsWithout state gone tx)).keys ++ fresh := by
    intro hash hmem
    obtain ⟨tx, hx, hwaits⟩ := (mem_waiting p' state hash).1 hmem
    rw [List.mem_append, List.mem_append, mem_waiting, mem_stranded]
    rcases hpooled hash tx hx hwaits with ⟨hold, hstays⟩ | hfresh
    · left
      by_cases hbefore : p.Waits state tx
      · exact Or.inl ⟨tx, hold, hbefore⟩
      · exact Or.inr ⟨tx, hold, hstays, hbefore, waits_of_keeps h h' hkeeps state tx hwaits⟩
    · exact Or.inr hfresh
  have hle := SortedMap.size_le_of_keys _ _ hsubset
  rw [List.length_append, List.length_append, SortedMap.length_keys, SortedMap.length_keys] at hle
  exact hle

/-- **Replacement.**  The new transaction has the place of the old one. -/
theorem waiting_le_of_replaced {p p' : TransactionPool} (h : p.Indexed config) (h' : p'.Indexed config)
    (state : StateBackend) (old new : Hash) (oldTx newTx : SignedTransaction)
    (hold : p.transactions.find? old = some oldTx) (hnew : p'.transactions.find? new = some newTx)
    (hsender : oldTx.transaction.sender = newTx.transaction.sender)
    (hnonce : oldTx.transaction.nonce = newTx.transaction.nonce) (hkeeps : p.Keeps p' [old])
    (hpooled : ∀ hash tx, p'.transactions.find? hash = some tx →
      p.transactions.find? hash = some tx ∧ hash ≠ old ∨ hash = new ∧ tx = newTx) :
    p'.waiting state ≤ p.waiting state := by
  -- the queues have the same nonces
  have hsame : ∀ tx, p'.Waits state tx → p.Waits state tx := by
    rintro tx ⟨n, hn, hle, hnone⟩
    refine ⟨n, hn, hle, ?_⟩
    have hall := queuedAt_of_keeps h h' hkeeps _ n hnone
    cases hq : p.queuedAt tx.transaction.sender n with
    | none => rfl
    | some hash =>
      rw [hq, Option.all_some, decide_eq_true_eq, List.mem_singleton] at hall
      subst hall
      obtain ⟨tx₀, hx₀, hs, hn₀⟩ := (h.queuedAt_iff _ n hash).1 hq
      rw [hold] at hx₀
      cases hx₀
      have hq' := (h'.queuedAt_iff tx.transaction.sender n new).2
        ⟨newTx, hnew, hsender.symm.trans hs, by rw [← hnonce]; exact hn₀⟩
      rw [hnone] at hq'
      cases hq'
  have holdWaits : p.Waits state newTx → p.Waits state oldTx := by
    rintro ⟨n, hn, hle, hnone⟩
    exact ⟨n, by rw [hnonce]; exact hn, by rw [hsender]; exact hle, by rw [hsender]; exact hnone⟩
  by_cases hwaits : p'.Waits state newTx
  · have hmem : old ∈ (p.transactions.filter fun _ tx => decide (p.Waits state tx)).keys :=
      (mem_waiting p state old).2 ⟨oldTx, hold, holdWaits (hsame newTx hwaits)⟩
    have hsubset : ∀ hash ∈ (p'.transactions.filter fun _ tx => decide (p'.Waits state tx)).keys,
        hash ∈ new :: (p.transactions.filter fun _ tx => decide (p.Waits state tx)).keys.erase old := by
      intro hash hin
      obtain ⟨tx, hx, hw⟩ := (mem_waiting p' state hash).1 hin
      rcases hpooled hash tx hx with ⟨hbefore, hne⟩ | ⟨rfl, -⟩
      · refine List.mem_cons_of_mem _ ((List.mem_erase_of_ne hne).2 ?_)
        exact (mem_waiting p state hash).2 ⟨tx, hbefore, hsame tx hw⟩
      · exact List.mem_cons_self
    have hle := SortedMap.size_le_of_keys _ _ hsubset
    have hpos := List.length_pos_of_mem hmem
    rw [List.length_cons, List.length_erase_of_mem hmem] at hle
    rw [SortedMap.length_keys] at hle hpos
    unfold waiting
    omega
  · have hsubset : ∀ hash ∈ (p'.transactions.filter fun _ tx => decide (p'.Waits state tx)).keys,
        hash ∈ (p.transactions.filter fun _ tx => decide (p.Waits state tx)).keys := by
      intro hash hin
      obtain ⟨tx, hx, hw⟩ := (mem_waiting p' state hash).1 hin
      rcases hpooled hash tx hx with ⟨hbefore, -⟩ | ⟨-, rfl⟩
      · exact (mem_waiting p state hash).2 ⟨tx, hbefore, hsame tx hw⟩
      · exact absurd hw hwaits
    have hle := SortedMap.size_le_of_keys _ _ hsubset
    rwa [SortedMap.length_keys] at hle

/-! ## The counter -/

theorem afterGap_true (prev : Option Nat) (l : List Nat) : AccountQueue.afterGap prev true l = l.length := by
  induction l generalizing prev with
  | nil => rfl
  | cons nonce l ih =>
    simp only [AccountQueue.afterGap, Bool.true_or, if_true, ih, List.length_cons]
    omega

/-- Past a run of nonces that ends with `prev`, the nonces behind a missing one are counted. -/
theorem afterGap_some (prev : Nat) (l : List Nat) (hsorted : l.Pairwise (· < ·)) (hlt : ∀ x ∈ l, prev < x) :
    AccountQueue.afterGap (some prev) false l = l.countP fun y => decide (∃ m < y, prev < m ∧ m ∉ l) := by
  induction l generalizing prev with
  | nil => rfl
  | cons x l ih =>
    obtain ⟨hx, hl⟩ := List.pairwise_cons.1 hsorted
    have hprev := hlt x List.mem_cons_self
    by_cases hgap : x > prev + 1
    · -- everything from here on is behind `prev + 1`
      have hcount : (x :: l).countP (fun y => decide (∃ m < y, prev < m ∧ m ∉ x :: l)) = (x :: l).length := by
        rw [List.countP_eq_length]
        intro y hy
        have hxy : x ≤ y := by
          rcases List.mem_cons.1 hy with rfl | hy
          · exact le_refl _
          · exact le_of_lt (hx y hy)
        refine decide_eq_true ⟨prev + 1, by omega, by omega, fun hmem => ?_⟩
        rcases List.mem_cons.1 hmem with heq | hmem
        · omega
        · have := hx _ hmem
          omega
      rw [hcount]
      simp only [AccountQueue.afterGap, Option.any_some, decide_eq_true hgap, Bool.or_true, if_true, afterGap_true,
        List.length_cons]
      omega
    · have hnext : x = prev + 1 := by omega
      have hstep : AccountQueue.afterGap (some prev) false (x :: l) = AccountQueue.afterGap (some x) false l := by
        simp only [AccountQueue.afterGap, Option.any_some, decide_eq_false hgap, Bool.or_false, Bool.false_eq_true,
          if_false]
        omega
      rw [hstep, ih x hl hx, List.countP_cons_of_neg]
      · apply List.countP_congr
        intro y hy
        rw [decide_eq_true_iff, decide_eq_true_iff]
        constructor
        · rintro ⟨m, hm, hxm, hmem⟩
          refine ⟨m, hm, by omega, fun h => ?_⟩
          rcases List.mem_cons.1 h with rfl | h
          · omega
          · exact hmem h
        · rintro ⟨m, hm, hpm, hmem⟩
          rw [List.mem_cons, not_or] at hmem
          exact ⟨m, hm, by omega, hmem.2⟩
      · rw [decide_eq_true_iff]
        rintro ⟨m, hm, hpm, -⟩
        omega

/-- In a queue that starts at or below the account's nonce, what waits is counted. -/
theorem countP_le_afterGap (l : List Nat) (hsorted : l.Pairwise (· < ·)) (expected : Nat)
    (hfirst : l.head?.any (fun first => decide (first > expected)) = false) :
    (l.countP fun y => decide (∃ n < y, expected ≤ n ∧ n ∉ l)) ≤ AccountQueue.afterGap none false l := by
  cases l with
  | nil => exact Nat.zero_le _
  | cons x l =>
    obtain ⟨hx, hl⟩ := List.pairwise_cons.1 hsorted
    have hle : x ≤ expected := by simpa using hfirst
    have hstep : AccountQueue.afterGap none false (x :: l) = AccountQueue.afterGap (some x) false l := by
      simp [AccountQueue.afterGap]
    rw [hstep, afterGap_some x l hl hx, List.countP_cons_of_neg]
    · apply List.countP_mono_left
      intro y _ h
      rw [decide_eq_true_iff] at h ⊢
      obtain ⟨n, hn, hexp, hmem⟩ := h
      rw [List.mem_cons, not_or] at hmem
      exact ⟨n, hn, by omega, hmem.2⟩
    · rw [decide_eq_true_iff]
      rintro ⟨n, hn, hexp, -⟩
      omega

/-- No queue starts above its account's nonce. -/
def Anchored (p : TransactionPool) (state : StateBackend) : Prop :=
  ∀ e ∈ p.accountQueues.entries, e.2.hasGap (state.accountOrNew e.1).nonce.val = false

/-- The hashes that wait in a queue. -/
def waitingIn (state : StateBackend) (e : AccountId × AccountQueue) : List Hash :=
  (e.2.byNonce.entries.filter fun x => decide (∃ n < x.1.val, (state.accountOrNew e.1).nonce.val ≤ n ∧
    n ∉ e.2.byNonce.keys.map Fin.val)).map Prod.snd

theorem length_waitingIn_le (state : StateBackend) (e : AccountId × AccountQueue)
    (h : e.2.hasGap (state.accountOrNew e.1).nonce.val = false) :
    (waitingIn state e).length ≤ e.2.pendingCount := by
  have hsorted : (e.2.byNonce.keys.map Fin.val).Pairwise (· < ·) := by
    unfold SortedMap.keys
    rw [List.map_map, List.pairwise_map]
    exact e.2.byNonce.sorted
  have hle := countP_le_afterGap (e.2.byNonce.keys.map Fin.val) hsorted _ (by
    unfold AccountQueue.hasGap at h
    rw [List.head?_map, Option.any_map]
    exact h)
  have hcount : ∀ P : Nat → Bool, (e.2.byNonce.keys.map Fin.val).countP P =
      e.2.byNonce.entries.countP fun x => P x.1.val := by
    intro P
    unfold SortedMap.keys
    rw [List.map_map, List.countP_map]
    rfl
  rw [hcount] at hle
  unfold waitingIn
  rwa [List.length_map, ← List.countP_eq_length_filter]

/-- **Counter.**  Where no queue starts above its account's nonce, the counter is at least the
number of waiting transactions. -/
theorem waiting_le_of_anchored {p : TransactionPool} (h : p.Indexed config) (state : StateBackend)
    (hanchored : p.Anchored state) :
    p.waiting state ≤ (p.accountQueues.values.map AccountQueue.pendingCount).sum := by
  have hsubset : ∀ hash ∈ (p.transactions.filter fun _ tx => decide (p.Waits state tx)).keys,
      hash ∈ p.accountQueues.entries.flatMap (waitingIn state) := by
    intro hash hmem
    obtain ⟨tx, hx, n, hn, hle, hnone⟩ := (mem_waiting p state hash).1 hmem
    have hslot := (h.queue tx.transaction.sender tx.transaction.nonce hash).2 ⟨tx, hx, rfl, rfl⟩
    obtain ⟨q, hq, hqn⟩ := Option.bind_eq_some_iff.1 hslot
    refine List.mem_flatMap.2 ⟨(tx.transaction.sender, q), (SortedMap.mem_entries_iff _ _ _).2 hq, ?_⟩
    refine List.mem_map.2 ⟨(tx.transaction.nonce, hash), List.mem_filter.2 ⟨(SortedMap.mem_entries_iff _ _ _).2 hqn, ?_⟩,
      rfl⟩
    refine decide_eq_true ⟨n, hn, hle, fun hqueued => ?_⟩
    obtain ⟨nonce, hkey, rfl⟩ := List.mem_map.1 hqueued
    obtain ⟨⟨nonce, other⟩, hentry, rfl⟩ := List.mem_map.1 hkey
    rw [queuedAt_val, ← find?_byNonce p _ q hq, (SortedMap.mem_entries_iff _ _ _).1 hentry] at hnone
    cases hnone
  have hle := SortedMap.size_le_of_keys _ _ hsubset
  rw [List.length_flatMap] at hle
  refine le_trans hle ?_
  unfold SortedMap.values
  rw [List.map_map]
  exact List.sum_le_sum fun e he => length_waitingIn_le state e (hanchored e he)

/-! ## Steps -/

/-- The transaction that makes room for another one in a full pool. -/
def evicted (order : IterOrder (Hash × Balance)) (p : TransactionPool) (tx : SignedTransaction) : List Hash :=
  if p.transactions.size ≥ p.config.maxSize then
    ((order.iter p.fees.entries).foldl lower (none, tx.transaction.call.baseFee)).1.toList
  else []

/-- The hashes that a call other than a submission removes. -/
def removedBy (p : TransactionPool) : PoolOp → List Hash
  | .addWithValidation _ _ _ _ => []
  | .remove hash => [hash]
  | .removeIncluded blockTxs => blockTxs.filterMap SignedTransaction.hash?
  | .removeStale account currentNonce => ((p.accountQueues.find? account).map fun q =>
      (q.byNonce.filter fun nonce _ => decide (nonce.val < currentNonce)).values).getD []
  | .cleanupExpired now | .prune now =>
    (p.priorityQueue.filter fun e => decide (now - e.addedAt > p.config.txExpiration)).map PrioritizedTx.hash
  | .removeAccountTransactions account => ((p.accountQueues.find? account).map fun q => q.byNonce.values).getD []

theorem find?_apply (cr : Crypto) (p : TransactionPool) (op : PoolOp)
    (hop : ∀ order now tx state, op ≠ .addWithValidation order now tx state) (k : Hash) :
    (p.apply cr op).transactions.find? k =
      if k ∈ p.removedBy op then none else p.transactions.find? k := by
  have hevict := find?_foldl_drop evict find?_evict p
  cases op with
  | addWithValidation order now tx state => exact absurd rfl (hop order now tx state)
  | remove hash =>
    show (p.remove hash).1.transactions.find? k = if k ∈ [hash] then _ else _
    rw [find?_remove_transactions]
    simp only [List.mem_singleton]
  | removeIncluded blockTxs => exact find?_removeIncluded p blockTxs k
  | removeStale account currentNonce =>
    exact find?_foldl_drop (fun p hash => (p.removeInternal hash).1.countEvicted) find?_removeInternal p _ k
  | cleanupExpired now => exact hevict _ k
  | prune now => exact hevict _ k
  | removeAccountTransactions account =>
    have hloop : ∀ (l : List Hash) (r : TransactionPool × List SignedTransaction),
        (l.foldl (fun r hash => ((r.1.remove hash).1, r.2 ++ (r.1.remove hash).2.toList)) r).1 =
          l.foldl (fun p hash => (p.remove hash).1) r.1 := by
      intro l
      induction l with
      | nil => exact fun _ => rfl
      | cons hash l ih => exact fun r => ih _
    show (p.removeAccountTransactions account).1.transactions.find? k = _
    unfold removeAccountTransactions
    simp only [hloop]
    exact find?_foldl_drop (fun p hash => (p.remove hash).1) find?_remove_transactions p _ k

theorem find?_makeRoom (order : IterOrder (Hash × Balance)) (p : TransactionPool) (tx : SignedTransaction)
    (k : Hash) : (p.makeRoom order tx).transactions.find? k =
      if k ∈ (p.queued tx.transaction.sender tx.transaction.nonce).elim (p.evicted order tx) (fun hash => [hash])
      then none else p.transactions.find? k := by
  unfold makeRoom evicted
  cases p.queued tx.transaction.sender tx.transaction.nonce with
  | some existingHash =>
    simp only [Option.elim_some, List.mem_singleton]
    exact find?_removeInternal p existingHash k
  | none =>
    simp only [Option.elim_none]
    split
    · unfold evictLowestFee
      cases ((order.iter p.fees.entries).foldl lower (none, tx.transaction.call.baseFee)).1 with
      | none => simp
      | some hash =>
        simp only [Option.toList_some, List.mem_singleton]
        exact find?_removeInternal p hash k
    · simp

theorem new_of_accepted (cr : Crypto) (order : IterOrder (Hash × Balance)) (now : Nat) (p : TransactionPool)
    (tx : SignedTransaction) (state : Option StateBackend)
    (hok : (p.addWithValidation cr order now tx state).2 = .ok ()) : p.transactions.find? (tx.hash cr) = none := by
  obtain ⟨hscreen, -⟩ := enters_of_ok cr order now p tx state hok
  unfold screens at hscreen
  unfold SignedTransaction.hash
  cases hhash : tx.hash? with
  | none =>
    rw [hhash] at hscreen
    cases hscreen
  | some hash =>
    rw [hhash] at hscreen
    simp only [Option.any_some, Bool.and_eq_true, Bool.not_eq_true'] at hscreen
    exact Option.not_isSome_iff_eq_none.1 (by simpa [SortedMap.contains] using hscreen.1.1.1.1)

/-- A submission that replaces nothing was validated. -/
theorem validated_of_accepted (cr : Crypto) (order : IterOrder (Hash × Balance)) (now : Nat) (p : TransactionPool)
    (tx : SignedTransaction) (state : StateBackend)
    (hslot : p.queued tx.transaction.sender tx.transaction.nonce = none)
    (hok : (p.addWithValidation cr order now tx (some state)).2 = .ok ()) :
    p.validateAgainstState tx state = .ok () := by
  obtain ⟨-, henters⟩ := enters_of_ok cr order now p tx (some state) hok
  unfold Enters at henters
  split at henters
  · obtain ⟨existingHash, hqueued, -⟩ := henters
    rw [hslot] at hqueued
    cases hqueued
  · exact henters.1 state rfl

/-- What is pooled after an accepted submission. -/
theorem find?_accepted (cr : Crypto) (order : IterOrder (Hash × Balance)) (now : Nat) (p : TransactionPool)
    (tx : SignedTransaction) (state : Option StateBackend)
    (hok : (p.addWithValidation cr order now tx state).2 = .ok ()) (k : Hash) :
    (p.addWithValidation cr order now tx state).1.transactions.find? k =
      if k = tx.hash cr then some tx
      else if k ∈ (p.queued tx.transaction.sender tx.transaction.nonce).elim (p.evicted order tx) (fun hash => [hash])
      then none else p.transactions.find? k := by
  have hevicted : (p.touchQueue tx.transaction.sender).evicted order tx = p.evicted order tx := by
    unfold evicted
    rw [touchQueue_transactions, touchQueue_config, touchQueue_fees]
  rw [(p.addWithValidation_ok cr order now tx state hok).transactions]
  show (SortedMap.insert _ (tx.hash cr) tx).find? k = _
  rw [SortedMap.find?_insert]
  split
  · rfl
  · rw [find?_makeRoom, queued_touchQueue, hevicted, touchQueue_transactions]

/-- The cap has room for what the call makes wait.  A submission that replaces another one
makes nothing wait.  One that leaves a gap after the sender's last nonce is checked by the
pool, which is enough if no queue starts above its account's nonce. -/
def WithinCap (cr : Crypto) (state : StateBackend) (p : TransactionPool) : PoolOp → Prop
  | .addWithValidation order now tx st =>
    p.screens cr now tx = true → p.Enters tx st →
      p.queued tx.transaction.sender tx.transaction.nonce = none →
        p.waiting state + p.stranded state (p.evicted order tx) +
            (if p.WaitsWithout state (p.evicted order tx) tx then 1 else 0) ≤ p.config.maxTotalPending ∨
          p.evicted order tx = [] ∧ p.Anchored state ∧
            p.effectiveExpected state tx.transaction.sender < tx.transaction.nonce.val
  | op => p.waiting state + p.stranded state (p.removedBy op) ≤ p.config.maxTotalPending

theorem stranded_nil (p : TransactionPool) (state : StateBackend) : p.stranded state [] = 0 := by
  have hsubset : ∀ hash ∈ (p.transactions.filter fun hash tx =>
      decide (hash ∉ [] ∧ ¬ p.Waits state tx ∧ p.WaitsWithout state [] tx)).keys, hash ∈ ([] : List Hash) := by
    intro hash hmem
    obtain ⟨tx, -, -, hready, n, hn, hle, hall⟩ := (mem_stranded p state [] hash).1 hmem
    refine absurd ⟨n, hn, hle, ?_⟩ hready
    cases hq : p.queuedAt tx.transaction.sender n with
    | none => rfl
    | some other =>
      rw [hq] at hall
      cases hall
  exact Nat.le_zero.1 (SortedMap.size_le_of_keys _ _ hsubset)

/-- A new transaction in a place that was free. -/
theorem waiting_le_of_inserted {p p' : TransactionPool} (h : p.Indexed config) (h' : p'.Indexed config)
    {gone : List Hash} (state : StateBackend) (new : Hash) (tx : SignedTransaction)
    (hnew : p.transactions.find? new = none)
    (hfind : ∀ k, p'.transactions.find? k =
      if k = new then some tx else if k ∈ gone then none else p.transactions.find? k) :
    p'.waiting state ≤ p.waiting state + p.stranded state gone +
      (if p.WaitsWithout state gone tx then 1 else 0) := by
  have hkeeps : p.Keeps p' gone := by
    intro k tx' hx hstays
    rw [hfind, if_neg (fun heq => by rw [heq, hnew] at hx; cases hx), if_neg hstays]
    exact hx
  have hle := waiting_le_of_keeps h h' gone (if p.WaitsWithout state gone tx then [new] else []) hkeeps state (by
    intro k tx' hx hwaits
    rw [hfind] at hx
    split at hx
    · next heq =>
      cases hx
      right
      rw [if_pos (waits_of_keeps h h' hkeeps state tx hwaits), heq]
      exact List.mem_singleton_self new
    · split at hx
      · cases hx
      · next hstays => exact Or.inl ⟨hx, hstays⟩)
  refine le_trans hle (Nat.add_le_add_left (le_of_eq ?_) _)
  split <;> rfl

/-- A refused submission changes nothing. -/
theorem waiting_refused {p : TransactionPool} (h : p.Indexed config) (cr : Crypto)
    (order : IterOrder (Hash × Balance)) (now : Nat) (tx : SignedTransaction) (state : StateBackend) (e : PoolError)
    (hr : (p.addWithValidation cr order now tx (some state)).2 = .error e) :
    (p.addWithValidation cr order now tx (some state)).1.waiting state ≤ p.waiting state := by
  obtain ⟨-, hsame⟩ := refused_heap cr order now p tx (some state) e hr
  have h' := h.apply cr (.addWithValidation order now tx (some state))
  have hle := waiting_le_of_keeps h h' [] []
    (fun hash tx' hx _ => by
      show (p.addWithValidation cr order now tx (some state)).1.transactions.find? hash = some tx'
      rwa [hsame])
    state (fun hash tx' hx _ => Or.inl ⟨by
      change (p.addWithValidation cr order now tx (some state)).1.transactions.find? hash = some tx' at hx
      rwa [hsame] at hx, List.not_mem_nil⟩)
  rwa [stranded_nil] at hle

/-- An accepted submission for a nonce that is queued takes the place there. -/
theorem waiting_replaced {p : TransactionPool} (h : p.Indexed config) (cr : Crypto)
    (order : IterOrder (Hash × Balance)) (now : Nat) (tx : SignedTransaction) (state : StateBackend)
    (hr : (p.addWithValidation cr order now tx (some state)).2 = .ok ()) (existingHash : Hash)
    (hslot : p.queued tx.transaction.sender tx.transaction.nonce = some existingHash) :
    (p.addWithValidation cr order now tx (some state)).1.waiting state ≤ p.waiting state := by
  have hfind := find?_accepted cr order now p tx (some state) hr
  have hnew := new_of_accepted cr order now p tx (some state) hr
  have h' := h.apply cr (.addWithValidation order now tx (some state))
  rw [hslot] at hfind
  obtain ⟨old, hold, hsender, hnonce⟩ := (h.queue _ _ _).1 hslot
  have hself := hfind (tx.hash cr)
  rw [if_pos rfl] at hself
  refine waiting_le_of_replaced h h' state existingHash (tx.hash cr) old tx hold hself hsender hnonce ?_ ?_
  · intro hash tx' hx hstays
    refine (hfind hash).trans ?_
    rw [if_neg (fun heq => by rw [heq, hnew] at hx; cases hx), Option.elim_some, if_neg hstays]
    exact hx
  · intro hash tx' hx
    have hx' := (hfind hash).symm.trans hx
    split at hx'
    · next heq => exact Or.inr ⟨heq, (Option.some.inj hx').symm⟩
    · split at hx'
      · cases hx'
      · next hstays => exact Or.inl ⟨hx', fun heq => hstays (List.mem_singleton.2 heq)⟩

/-- An accepted submission for a free nonce finds room, or the pool's own check has found it. -/
theorem waiting_entered {p : TransactionPool} (h : p.Indexed config) (cr : Crypto)
    (order : IterOrder (Hash × Balance)) (now : Nat) (tx : SignedTransaction) (state : StateBackend)
    (hr : (p.addWithValidation cr order now tx (some state)).2 = .ok ())
    (hslot : p.queued tx.transaction.sender tx.transaction.nonce = none)
    (hop : p.WithinCap cr state (.addWithValidation order now tx (some state))) :
    (p.addWithValidation cr order now tx (some state)).1.waiting state ≤ p.config.maxTotalPending := by
  have hfind := find?_accepted cr order now p tx (some state) hr
  have hnew := new_of_accepted cr order now p tx (some state) hr
  rw [hslot] at hfind
  have hle : (p.addWithValidation cr order now tx (some state)).1.waiting state ≤ _ :=
    waiting_le_of_inserted h (h.apply cr (.addWithValidation order now tx (some state))) state (tx.hash cr) tx hnew
      hfind
  obtain ⟨hscreen, henters⟩ := enters_of_ok cr order now p tx (some state) hr
  rcases hop hscreen henters hslot with hroom | ⟨hevicted, hanchored, hgap⟩
  · exact le_trans hle hroom
  · have hvalid := validated_of_accepted cr order now p tx state hslot hr
    have hpending := p.pending_of_validated tx state hvalid hgap
    have hcount := waiting_le_of_anchored h state hanchored
    rw [Option.elim_none, hevicted, stranded_nil] at hle
    have hone : (if p.WaitsWithout state [] tx then 1 else 0) ≤ 1 := by split <;> omega
    omega

/-- Any other call only removes. -/
theorem waiting_removed {p : TransactionPool} (h : p.Indexed config) (cr : Crypto) (state : StateBackend)
    (op : PoolOp) (hne : ∀ order now tx st, op ≠ .addWithValidation order now tx st) :
    (p.apply cr op).waiting state ≤ p.waiting state + p.stranded state (p.removedBy op) := by
  have hfind := p.find?_apply cr op hne
  refine waiting_le_of_keeps h (h.apply cr op) (p.removedBy op) [] ?_ state ?_
  · intro hash tx hx hstays
    rw [hfind, if_neg hstays]
    exact hx
  · intro hash tx hx _
    rw [hfind] at hx
    split at hx
    · cases hx
    · next hstays => exact Or.inl ⟨hx, hstays⟩

/-- **Step.** -/
theorem waiting_apply {p : TransactionPool} (h : p.Indexed config) (cr : Crypto) (state : StateBackend) (op : PoolOp)
    (hstate : ∀ order now tx st, op = .addWithValidation order now tx st → st = some state)
    (hcap : p.waiting state ≤ config.maxTotalPending) (hop : p.WithinCap cr state op) :
    (p.apply cr op).waiting state ≤ config.maxTotalPending := by
  rw [← h.config_eq] at hcap ⊢
  by_cases hadd : ∃ order now tx st, op = .addWithValidation order now tx st
  · obtain ⟨order, now, tx, st, rfl⟩ := hadd
    obtain rfl := hstate order now tx st rfl
    show (p.addWithValidation cr order now tx (some state)).1.waiting state ≤ _
    cases hr : (p.addWithValidation cr order now tx (some state)).2 with
    | error e => exact le_trans (waiting_refused h cr order now tx state e hr) hcap
    | ok u =>
      cases hslot : p.queued tx.transaction.sender tx.transaction.nonce with
      | some existingHash => exact le_trans (waiting_replaced h cr order now tx state hr existingHash hslot) hcap
      | none => exact waiting_entered h cr order now tx state hr hslot hop
  · have hne : ∀ order now tx st, op ≠ .addWithValidation order now tx st :=
      fun order now tx st heq => hadd ⟨order, now, tx, st, heq⟩
    have hroom : p.waiting state + p.stranded state (p.removedBy op) ≤ p.config.maxTotalPending := by
      cases op with
      | addWithValidation order now tx st => exact absurd rfl (hne order now tx st)
      | _ => exact hop
    exact le_trans (waiting_removed h cr state op hne) hroom

/-- **Cap.**  In every run whose calls find room under the cap for what they make wait, the
number of waiting transactions never exceeds it. -/
theorem waiting_capped (cr : Crypto) (config : MempoolConfig) (state : StateBackend) (ops : List PoolOp)
    (hstate : ∀ order now tx st, PoolOp.addWithValidation order now tx st ∈ ops → st = some state)
    (hcap : Run.Meets (apply cr) (WithinCap cr state) (withConfig config) ops) (k : Nat) :
    ((ops.take k).foldl (apply cr) (withConfig config)).waiting state ≤ config.maxTotalPending := by
  have hmeets : Run.Meets (apply cr) (fun p op => op ∈ ops ∧ p.WithinCap cr state op) (withConfig config)
      (ops.take k) := by
    have htake := Run.meets_take (apply cr) _ _ ops hcap k
    rw [Run.meets_iff_split] at htake ⊢
    intro pre op post hsplit
    have hmem : op ∈ ops.take k := by
      rw [hsplit]
      exact List.mem_append_right _ List.mem_cons_self
    exact ⟨List.mem_of_mem_take hmem, htake pre op post hsplit⟩
  have hinv := Run.inv_foldl (apply cr) (fun p op => op ∈ ops ∧ p.WithinCap cr state op)
    (fun p => p.Indexed config ∧ p.waiting state ≤ config.maxTotalPending)
    (fun p op hp hop => ⟨hp.1.apply cr op, waiting_apply hp.1 cr state op
      (fun order now tx st heq => hstate order now tx st (heq ▸ hop.1)) hp.2 hop.2⟩)
    (withConfig config) (ops.take k) ⟨withConfig_indexed config, Nat.zero_le _⟩ hmeets
  exact hinv.2

/-- Accounts 1 and 2 have funds, and none of them has sent anything. -/
def fundedState : StateBackend :=
  (StateBackend.new.setAccount ⟨1⟩ { AccountInfo.new with free := 10000 }).setAccount ⟨2⟩
    { AccountInfo.new with free := 10000 }

/-- A transfer with the second nonce of its sender. -/
def secondTx (sender : AccountId) : SignedTransaction :=
  let transaction := { sender, nonce := 1, call := .transfer ⟨3⟩ 5, timestamp := 0 }
  { transaction, signature := Signature64.zero, hash? := some (transaction.hash Crypto.sample) }

/-- One transaction may wait. -/
def oneWaits : MempoolConfig := { MempoolConfig.default with maxTotalPending := 1 }

/-- It does. -/
theorem waiting_capped_one :
    (withConfig oneWaits |>.apply Crypto.sample
        (.addWithValidation .stored 0 (secondTx ⟨1⟩) (some fundedState))).waiting fundedState = 1 ∧
      (withConfig oneWaits |>.apply Crypto.sample
        (.addWithValidation .stored 0 (secondTx ⟨1⟩) (some fundedState))).waiting fundedState ≤
        oneWaits.maxTotalPending := by
  refine ⟨by decide, waiting_capped Crypto.sample oneWaits fundedState
    [.addWithValidation .stored 0 (secondTx ⟨1⟩) (some fundedState)] ?_ ⟨fun _ _ _ => Or.inl ?_, trivial⟩ 1⟩
  · intro order now tx st hmem
    obtain ⟨-, -, -, rfl⟩ := PoolOp.addWithValidation.inj (List.mem_singleton.1 hmem)
    rfl
  · decide

/-- Two senders without a first transaction: neither queue has a gap that the pool counts, and
two transactions wait. -/
theorem waiting_over_cap :
    ¬ ∀ (cr : Crypto) (config : MempoolConfig) (state : StateBackend) (ops : List PoolOp),
      (∀ order now tx st, PoolOp.addWithValidation order now tx st ∈ ops → st = some state) →
        (ops.foldl (apply cr) (withConfig config)).waiting state ≤ config.maxTotalPending := by
  intro h
  have hle := h Crypto.sample oneWaits fundedState
    [.addWithValidation .stored 0 (secondTx ⟨1⟩) (some fundedState),
      .addWithValidation .stored 1 (secondTx ⟨2⟩) (some fundedState)] (by
    intro order now tx st hmem
    rcases List.mem_cons.1 hmem with heq | hmem
    · exact (PoolOp.addWithValidation.inj heq).2.2.2
    · exact (PoolOp.addWithValidation.inj (List.mem_singleton.1 hmem)).2.2.2)
  exact absurd hle (by decide +kernel)

end TransactionPool

end Kratos
