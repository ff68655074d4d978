import Kratos.Lib.Climb
import Kratos.Node.MempoolIndex
import Kratos.Node.Production
import Kratos.Types.Bincode

/-!
# Selection of transactions for a block

`selectTransactionsWithState` empties a copy of the heap and takes an entry whose transaction
is pooled, was not taken before, and has the nonce expected of its sender.  The heap also
holds entries of transactions that are gone, were replaced or came back.  Such an entry does
no harm as long as a hash belongs to one transaction (`Recorded`).

What is selected is sound: for each sender the nonces from the account's nonce on, without a
gap (`selection_sound`).  It need not be maximal: an entry that is popped before the one it
has to wait for is passed over for good.  `selection_maximal_iff` says for which pools and
states nothing executable is left out.
-/

namespace Kratos

/-- Higher fees first, then earlier entries. -/
def PrioritizedTx.cmp (a b : PrioritizedTx) : Ordering :=
  match compare a.fee.val b.fee.val with
  | .eq => compare b.addedAt a.addedAt
  | o => o

theorem PrioritizedTx.cmp_ne_lt_iff (a b : PrioritizedTx) :
    a.cmp b ≠ .lt ↔ b.fee.val < a.fee.val ∨ (a.fee.val = b.fee.val ∧ a.addedAt ≤ b.addedAt) := by
  unfold cmp
  rcases lt_trichotomy a.fee.val b.fee.val with h | h | h
  · rw [Nat.compare_eq_lt.2 h]
    simp only [ne_eq, not_true_eq_false, false_iff]
    omega
  · rw [Nat.compare_eq_eq.2 h]
    simp only [ne_eq, Nat.compare_eq_lt]
    omega
  · rw [Nat.compare_eq_gt.2 h]
    simp only [ne_eq, reduceCtorEq, not_false_eq_true, true_iff]
    exact Or.inl h

namespace TransactionPool

/-! ## The loop -/

structure Selection where
  selected : List SignedTransaction
  accountNonces : SortedMap AccountId Nonce
  seenHashes : Finset Hash

namespace Selection

def empty : Selection := { selected := [], accountNonces := .empty, seenHashes := ∅ }

/-- The nonce expected of a sender, from the loop's map or else from the state. -/
def expectedNonce (acc : Selection) (state : StateBackend) (sender : AccountId) : Nonce :=
  (acc.accountNonces.find? sender).getD (state.accountOrNew sender).nonce

/-- One popped entry. -/
def step (p : TransactionPool) (state : StateBackend) (acc : Selection) (entry : PrioritizedTx) : Selection :=
  if entry.hash ∈ acc.seenHashes ∨ p.transactions.contains entry.hash = false then acc
  else
    match p.transactions.find? entry.hash with
    | none => acc
    | some tx =>
      let expectedNonce := acc.expectedNonce state entry.sender
      -- a nonce that came from the map is written back as it was
      let accountNonces := acc.accountNonces.insert entry.sender expectedNonce
      if entry.nonce ≠ expectedNonce then { acc with accountNonces }
      else
        { selected := acc.selected ++ [tx]
          accountNonces := accountNonces.insert entry.sender (entry.nonce + 1)
          seenHashes := insert entry.hash acc.seenHashes }

/-- Pop until the block is full. -/
def loop (p : TransactionPool) (state : StateBackend) (maxCount : Nat) : List PrioritizedTx → Selection → Selection
  | [], acc => acc
  | entry :: heap, acc =>
    if acc.selected.length < maxCount then loop p state maxCount heap (step p state acc entry) else acc

end Selection

def selectTransactionsWithState (p : TransactionPool) (order : PopOrder PrioritizedTx.cmp) (maxCount : Nat)
    (state : StateBackend) : List SignedTransaction :=
  (Selection.loop p state maxCount (order.iter p.priorityQueue) .empty).selected

/-- The same without a limit. -/
def selectAll (p : TransactionPool) (order : PopOrder PrioritizedTx.cmp) (state : StateBackend) : Selection :=
  (order.iter p.priorityQueue).foldl (Selection.step p state) .empty

namespace Selection

theorem selected_step (p : TransactionPool) (state : StateBackend) (acc : Selection) (entry : PrioritizedTx) :
    ∃ l, (step p state acc entry).selected = acc.selected ++ l ∧ l.length ≤ 1 := by
  unfold step
  split
  · exact ⟨[], by simp, by simp⟩
  · split
    · exact ⟨[], by simp, by simp⟩
    · next tx _ =>
      simp only
      split
      · exact ⟨[], by simp, by simp⟩
      · exact ⟨[tx], rfl, by simp⟩

theorem prefix_foldl (p : TransactionPool) (state : StateBackend) (heap : List PrioritizedTx) (acc : Selection) :
    acc.selected <+: (heap.foldl (step p state) acc).selected := by
  induction heap generalizing acc with
  | nil => exact List.prefix_refl _
  | cons entry heap ih =>
    obtain ⟨l, hl, -⟩ := selected_step p state acc entry
    have hrest := ih (step p state acc entry)
    rw [hl] at hrest
    exact (List.prefix_append _ l).trans hrest

/-- The limit cuts the selection off. -/
theorem loop_eq_take (p : TransactionPool) (state : StateBackend) (maxCount : Nat) (heap : List PrioritizedTx)
    (acc : Selection) (h : acc.selected.length ≤ maxCount) :
    (loop p state maxCount heap acc).selected = (heap.foldl (step p state) acc).selected.take maxCount := by
  induction heap generalizing acc with
  | nil => exact (List.take_of_length_le h).symm
  | cons entry heap ih =>
    unfold loop
    split
    · next hlt =>
      obtain ⟨l, hl, hone⟩ := selected_step p state acc entry
      apply ih
      rw [hl, List.length_append]
      omega
    · next hfull =>
      obtain ⟨rest, hrest⟩ := prefix_foldl p state (entry :: heap) acc
      rw [← hrest, List.take_append_of_le_length (by omega), List.take_of_length_le (by omega)]

end Selection

theorem selectTransactionsWithState_eq (p : TransactionPool) (order : PopOrder PrioritizedTx.cmp)
    (maxCount : Nat) (state : StateBackend) :
    p.selectTransactionsWithState order maxCount state = (p.selectAll order state).selected.take maxCount :=
  Selection.loop_eq_take p state maxCount _ _ (Nat.zero_le _)

/-! ## Where the entries come from -/

section Recorded

variable (cr : Crypto) (added : SignedTransaction → Prop)

/-- Everything in the pool and in the heap, stale or not, goes back to a transaction that was
added. -/
structure Recorded (p : TransactionPool) : Prop where
  pooled : ∀ hash tx, p.transactions.find? hash = some tx → added tx ∧ tx.hash cr = hash
  heap : ∀ e ∈ p.priorityQueue, e.nonce.val ≤ maxAbsoluteNonce ∧
    ∃ tx, added tx ∧ tx.hash cr = e.hash ∧ tx.transaction.sender = e.sender ∧ tx.transaction.nonce = e.nonce

/-- The pool lost transactions and entries and got none. -/
structure Shrinks (p p' : TransactionPool) : Prop where
  pooled : ∀ hash tx, p'.transactions.find? hash = some tx → p.transactions.find? hash = some tx
  heap : ∀ e ∈ p'.priorityQueue, e ∈ p.priorityQueue

namespace Shrinks

theorem of_eq (p p' : TransactionPool) (ht : p'.transactions = p.transactions)
    (hh : p'.priorityQueue = p.priorityQueue) : Shrinks p p' :=
  ⟨fun hash tx h => by rwa [ht] at h, fun e h => by rwa [hh] at h⟩

theorem trans (p q r : TransactionPool) (hpq : Shrinks p q) (hqr : Shrinks q r) : Shrinks p r :=
  ⟨fun hash tx h => hpq.pooled hash tx (hqr.pooled hash tx h), fun e h => hpq.heap e (hqr.heap e h)⟩

theorem removeInternal (p : TransactionPool) (hash : Hash) : Shrinks p (p.removeInternal hash).1 := by
  constructor
  · intro k tx h
    rw [find?_removeInternal] at h
    split at h
    · cases h
    · exact h
  · intro e h
    unfold TransactionPool.removeInternal at h
    split at h <;> exact h

theorem remove (p : TransactionPool) (hash : Hash) : Shrinks p (p.remove hash).1 := by
  have hr := removeInternal p hash
  unfold TransactionPool.remove
  split
  · next heq => rwa [heq] at hr
  · next heq =>
    rw [heq] at hr
    exact trans _ _ _ hr (of_eq _ _ rfl rfl)

theorem evict (p : TransactionPool) (hash : Hash) : Shrinks p (p.evict hash) := by
  have hr := removeInternal p hash
  unfold TransactionPool.evict
  split
  · next heq => rwa [heq] at hr
  · next heq =>
    rw [heq] at hr
    exact trans _ _ _ hr (of_eq _ _ rfl rfl)

theorem foldl {α : Type} (step : TransactionPool → α → TransactionPool) (hstep : ∀ p a, Shrinks p (step p a))
    (p : TransactionPool) (l : List α) : Shrinks p (l.foldl step p) := by
  induction l generalizing p with
  | nil => exact of_eq _ _ rfl rfl
  | cons a l ih => exact trans _ _ _ (hstep p a) (ih _)

theorem cleanupExpired (p : TransactionPool) (now : Nat) : Shrinks p (p.cleanupExpired now) :=
  trans _ _ _ (foldl TransactionPool.evict evict p _) (of_eq _ _ rfl rfl)

theorem prune (p : TransactionPool) (now : Nat) : Shrinks p (p.prune now) :=
  trans _ _ _ (cleanupExpired p now) ⟨fun _ _ h => h, fun _ h => List.mem_of_mem_filter h⟩

theorem evictLowestFee (order : IterOrder (Hash × Balance)) (p : TransactionPool) (newFee : Balance) :
    Shrinks p (p.evictLowestFee order newFee).1 := by
  unfold TransactionPool.evictLowestFee
  split
  · exact trans _ _ _ (removeInternal p _) (of_eq _ _ rfl rfl)
  · exact of_eq _ _ rfl rfl

theorem touchQueue (p : TransactionPool) (sender : AccountId) : Shrinks p (p.touchQueue sender) := by
  unfold TransactionPool.touchQueue
  split <;> exact of_eq _ _ rfl rfl

theorem removeAccountTransactions (p : TransactionPool) (account : AccountId) :
    Shrinks p (p.removeAccountTransactions account).1 := by
  unfold TransactionPool.removeAccountTransactions
  simp only
  generalize ((p.accountQueues.find? account).map fun q => q.byNonce.values).getD [] = l
  suffices ∀ r : TransactionPool × List SignedTransaction, Shrinks r.1
      (l.foldl (fun r hash => ((r.1.remove hash).1, r.2 ++ (r.1.remove hash).2.toList)) r).1 from this (p, [])
  induction l with
  | nil => exact fun r => of_eq _ _ rfl rfl
  | cons hash l ih =>
    intro r
    exact trans _ _ _ (remove r.1 hash) (ih ((r.1.remove hash).1, r.2 ++ (r.1.remove hash).2.toList))

/-- Every call but a submission. -/
theorem apply (p : TransactionPool) (op : PoolOp)
    (hop : ∀ order now tx state, op ≠ .addWithValidation order now tx state) : Shrinks p (p.apply cr op) := by
  cases op with
  | addWithValidation order now tx state => exact absurd rfl (hop order now tx state)
  | remove hash => exact remove p hash
  | removeIncluded blockTxs =>
    refine foldl _ (fun p tx => ?_) p blockTxs
    cases tx.hash? with
    | none => exact of_eq _ _ rfl rfl
    | some hash => exact remove p hash
  | removeStale account currentNonce =>
    refine foldl (fun p hash => (p.removeInternal hash).1.countEvicted) (fun p hash => ?_) p _
    exact trans _ _ _ (removeInternal p hash) (of_eq _ _ rfl rfl)
  | cleanupExpired now => exact cleanupExpired p now
  | prune now => exact prune p now
  | removeAccountTransactions account => exact removeAccountTransactions p account

end Shrinks

namespace Recorded

variable {cr added}

theorem shrinks {p p' : TransactionPool} (h : p.Recorded cr added) (hs : Shrinks p p') : p'.Recorded cr added :=
  ⟨fun hash tx hx => h.pooled hash tx (hs.pooled hash tx hx), fun e he => h.heap e (hs.heap e he)⟩

theorem insertTransaction {p : TransactionPool} (h : p.Recorded cr added) (now : Nat) (tx : SignedTransaction)
    (fee : Balance) (hadded : added tx) (hnonce : tx.transaction.nonce.val ≤ maxAbsoluteNonce) :
    (p.insertTransaction cr now tx fee).Recorded cr added := by
  constructor
  · intro hash tx' hx
    change (p.transactions.insert (tx.hash cr) tx).find? hash = some tx' at hx
    rw [SortedMap.find?_insert] at hx
    split at hx
    · next heq =>
      cases hx
      exact ⟨hadded, heq.symm⟩
    · exact h.pooled hash tx' hx
  · intro e he
    rcases List.mem_cons.1 he with rfl | he
    · exact ⟨hnonce, tx, hadded, rfl, rfl, rfl⟩
    · exact h.heap e he

section Add

variable {p : TransactionPool} (now : Nat) (tx : SignedTransaction) (hadded : added tx)
  (hnonce : tx.transaction.nonce.val ≤ maxAbsoluteNonce)

include hadded hnonce

theorem tryReplace (h : p.Recorded cr added) (existingHash : Hash) :
    (p.tryReplace cr now tx existingHash).1.Recorded cr added := by
  unfold TransactionPool.tryReplace
  simp only
  split
  · exact h.shrinks (Shrinks.of_eq _ _ rfl rfl)
  · have hremoved := h.shrinks (Shrinks.removeInternal p existingHash)
    exact (hremoved.insertTransaction now tx _ hadded hnonce).shrinks (Shrinks.of_eq _ _ rfl rfl)

theorem place (h : p.Recorded cr added) (order : IterOrder (Hash × Balance)) :
    (p.place cr order now tx).1.Recorded cr added := by
  unfold TransactionPool.place
  simp only
  split
  · exact h.tryReplace now tx hadded hnonce _
  · have hroom : (if p.transactions.size ≥ p.config.maxSize then
        p.evictLowestFee order tx.transaction.call.baseFee else (p, true)).1.Recorded cr added := by
      split
      · exact h.shrinks (Shrinks.evictLowestFee order p _)
      · exact h
    generalize (if p.transactions.size ≥ p.config.maxSize then
      p.evictLowestFee order tx.transaction.call.baseFee else (p, true)) = r at hroom ⊢
    split
    · exact hroom.shrinks (Shrinks.of_eq _ _ rfl rfl)
    · exact (hroom.insertTransaction now tx _ hadded hnonce).shrinks (Shrinks.of_eq _ _ rfl rfl)

theorem enqueue (h : p.Recorded cr added) (order : IterOrder (Hash × Balance)) (state : Option StateBackend) :
    (p.enqueue cr order now tx state).1.Recorded cr added := by
  have htouched := h.shrinks (Shrinks.touchQueue p tx.transaction.sender)
  unfold TransactionPool.enqueue
  simp only
  split
  · split
    · exact htouched.tryReplace now tx hadded hnonce _
    · exact htouched.shrinks (Shrinks.of_eq _ _ rfl rfl)
  · split
    · exact htouched.place now tx hadded hnonce order
    · split
      · exact htouched
      · exact htouched.place now tx hadded hnonce order

end Add

theorem addWithValidation {p : TransactionPool} (h : p.Recorded cr added) (order : IterOrder (Hash × Balance))
    (now : Nat) (tx : SignedTransaction) (state : Option StateBackend) (hadded : added tx) :
    (p.addWithValidation cr order now tx state).1.Recorded cr added := by
  unfold TransactionPool.addWithValidation
  split
  · exact h
  · split
    · exact h
    · simp only
      split
      · exact h.shrinks (Shrinks.of_eq _ _ rfl rfl)
      · next hnonce =>
        split
        · exact h.shrinks (Shrinks.of_eq _ _ rfl rfl)
        · split
          · exact h.shrinks (Shrinks.of_eq _ _ rfl rfl)
          · split
            · exact h.shrinks (Shrinks.of_eq _ _ rfl rfl)
            · refine enqueue now tx hadded (by omega) ?_ order state
              exact h.shrinks (Shrinks.of_eq _ _ rfl rfl)

theorem apply {p : TransactionPool} (h : p.Recorded cr added) (op : PoolOp)
    (hop : ∀ order now tx state, op = .addWithValidation order now tx state → added tx) :
    (p.apply cr op).Recorded cr added := by
  by_cases hadd : ∃ order now tx state, op = .addWithValidation order now tx state
  · obtain ⟨order, now, tx, state, rfl⟩ := hadd
    exact h.addWithValidation order now tx state (hop order now tx state rfl)
  · exact h.shrinks (Shrinks.apply cr p op fun order now tx state heq => hadd ⟨order, now, tx, state, heq⟩)

end Recorded

end Recorded

/-- The calls add the transaction. -/
def Adds (ops : List PoolOp) (tx : SignedTransaction) : Prop :=
  ∃ order now state, PoolOp.addWithValidation order now tx state ∈ ops

theorem run_recorded (cr : Crypto) (config : MempoolConfig) (ops : List PoolOp) :
    (ops.foldl (apply cr) (withConfig config)).Recorded cr (Adds ops) := by
  apply Run.inv_foldl (apply cr) (fun _ op => op ∈ ops) (fun p => p.Recorded cr (Adds ops)) ?_ _ ops ?_
    (Run.meets_of_mem (apply cr) (fun op => op ∈ ops) _ ops fun _ h => h)
  · rintro p op hp hmem
    apply hp.apply op
    rintro order now tx state rfl
    exact ⟨order, now, state, hmem⟩
  · refine ⟨fun hash tx h => ?_, fun e h => ?_⟩
    · cases h
    · cases h

/-- The cached hashes are the hashes, and the hash function does not collide on what it was
given. -/
structure HashesOk (cr : Crypto) (added : SignedTransaction → Prop) : Prop where
  honest : ∀ tx, added tx → HashHonest cr tx
  noCollision : ∀ tx tx', added tx → added tx' → cr.blake3 tx.transaction.encode = cr.blake3 tx'.transaction.encode →
    tx.transaction.encode = tx'.transaction.encode

theorem sender_nonce_of_encode (a b : Transaction) (h : a.encode = b.encode) :
    a.sender = b.sender ∧ a.nonce = b.nonce := by
  obtain ⟨hsender, h⟩ := Bincode.prefixFree_accountId _ _ _ _ trivial trivial h
  exact ⟨hsender, (Bincode.prefixFree_nonce _ _ _ _ trivial trivial h).1⟩

/-- An entry of a pooled transaction is about that transaction. -/
def Consistent (p : TransactionPool) (e : PrioritizedTx) : Prop :=
  e.nonce.val ≤ maxAbsoluteNonce ∧ ∀ tx, p.transactions.find? e.hash = some tx →
    tx.transaction.sender = e.sender ∧ tx.transaction.nonce = e.nonce

theorem Recorded.consistent {cr : Crypto} {added : SignedTransaction → Prop} {p : TransactionPool}
    (h : p.Recorded cr added) (hhash : HashesOk cr added) (e : PrioritizedTx) (he : e ∈ p.priorityQueue) :
    p.Consistent e := by
  obtain ⟨hnonce, old, hold, hoh, hos, hon⟩ := h.heap e he
  refine ⟨hnonce, fun tx hx => ?_⟩
  obtain ⟨hadded, htx⟩ := h.pooled e.hash tx hx
  have hsame : tx.transaction.encode = old.transaction.encode := by
    apply hhash.noCollision tx old hadded hold
    have htx' := hhash.honest tx hadded
    have hold' := hhash.honest old hold
    unfold HashHonest Transaction.hash at htx' hold'
    rw [← htx', ← hold', htx, hoh]
  obtain ⟨hs, hn⟩ := sender_nonce_of_encode _ _ hsame
  exact ⟨hs.trans hos, hn.trans hon⟩

/-! ## What the loop does for one sender -/

/-- The entry is of this sender and its transaction is pooled. -/
def isLiveFor (p : TransactionPool) (sender : AccountId) (e : PrioritizedTx) : Bool :=
  decide (e.sender = sender) && p.transactions.contains e.hash

/-- The nonces of a sender's live entries, in order. -/
def liveNonces (p : TransactionPool) (sender : AccountId) (l : List PrioritizedTx) : List Nat :=
  (l.filter (p.isLiveFor sender)).map fun e => e.nonce.val

/-- The selected nonces of a sender, in order. -/
def selectedNonces (selected : List SignedTransaction) (sender : AccountId) : List Nat :=
  (selected.filter fun tx => decide (tx.transaction.sender = sender)).map fun tx => tx.transaction.nonce.val

theorem liveNonces_concat (p : TransactionPool) (sender : AccountId) (l : List PrioritizedTx) (e : PrioritizedTx) :
    p.liveNonces sender (l ++ [e]) =
      if p.isLiveFor sender e then p.liveNonces sender l ++ [e.nonce.val] else p.liveNonces sender l := by
  unfold liveNonces
  rw [List.filter_append, List.map_append, List.filter_cons]
  split
  · rfl
  · simp

theorem selectedNonces_concat (selected : List SignedTransaction) (sender : AccountId) (tx : SignedTransaction) :
    selectedNonces (selected ++ [tx]) sender =
      if tx.transaction.sender = sender then selectedNonces selected sender ++ [tx.transaction.nonce.val]
      else selectedNonces selected sender := by
  unfold selectedNonces
  rw [List.filter_append, List.map_append, List.filter_cons]
  by_cases h : tx.transaction.sender = sender
  · simp [h]
  · simp [h]

namespace Selection

theorem expectedNonce_insert (acc : Selection) (state : StateBackend) (a b : AccountId) (n : Nonce)
    (selected : List SignedTransaction) (seenHashes : Finset Hash) (nonces : SortedMap AccountId Nonce)
    (h : nonces = acc.accountNonces.insert b n) :
    expectedNonce { selected, accountNonces := nonces, seenHashes } state a =
      if a = b then n else acc.expectedNonce state a := by
  unfold expectedNonce
  rw [h]
  simp only [SortedMap.find?_insert]
  split <;> rfl

/-- After some entries were popped: the nonce expected of a sender is the one its live entries
climb to, the sender's selected transactions are those below it, and what was taken is
pooled. -/
structure Inv (p : TransactionPool) (state : StateBackend) (popped : List PrioritizedTx) (acc : Selection) :
    Prop where
  expected : ∀ a, (acc.expectedNonce state a).val =
    Climb.climb (state.accountOrNew a).nonce.val (p.liveNonces a popped)
  nonces : ∀ a, selectedNonces acc.selected a =
    List.range' (state.accountOrNew a).nonce.val
      ((acc.expectedNonce state a).val - (state.accountOrNew a).nonce.val)
  pooled : ∀ tx ∈ acc.selected, ∃ hash, p.transactions.find? hash = some tx
  seen : ∀ hash ∈ acc.seenHashes, ∃ tx, p.transactions.find? hash = some tx ∧
    tx.transaction.nonce.val < (acc.expectedNonce state tx.transaction.sender).val

theorem Inv.empty (p : TransactionPool) (state : StateBackend) : Inv p state [] .empty where
  expected _ := rfl
  nonces a := by
    have h : (Selection.empty.expectedNonce state a) = (state.accountOrNew a).nonce := rfl
    rw [h, Nat.sub_self]
    rfl
  pooled _ h := by cases h
  seen _ h := by cases h

/-- An entry that takes no one further. -/
theorem Inv.skip {p : TransactionPool} {state : StateBackend} {popped : List PrioritizedTx}
    {acc acc' : Selection} (h : Inv p state popped acc) (e : PrioritizedTx)
    (hselected : acc'.selected = acc.selected) (hseen : acc'.seenHashes = acc.seenHashes)
    (hexpected : ∀ a, acc'.expectedNonce state a = acc.expectedNonce state a)
    (hstays : p.isLiveFor e.sender e = true → e.nonce ≠ acc.expectedNonce state e.sender) :
    Inv p state (popped ++ [e]) acc' where
  expected a := by
    rw [hexpected, h.expected, liveNonces_concat]
    split
    · next hlive =>
      have ha : e.sender = a := by
        simp only [isLiveFor, Bool.and_eq_true, decide_eq_true_eq] at hlive
        exact hlive.1
      subst ha
      have hne := hstays hlive
      have hne' : e.nonce.val ≠ Climb.climb (state.accountOrNew e.sender).nonce.val (p.liveNonces e.sender popped) := by
        rw [← h.expected]
        exact fun heq => hne (Fin.ext heq)
      rw [Climb.climb_append]
      simp only [Climb.climb, if_neg hne']
    · rfl
  nonces a := by
    rw [hselected, hexpected]
    exact h.nonces a
  pooled tx htx := by
    rw [hselected] at htx
    exact h.pooled tx htx
  seen hash hh := by
    rw [hseen] at hh
    obtain ⟨tx, hx, hlt⟩ := h.seen hash hh
    exact ⟨tx, hx, by rw [hexpected]; exact hlt⟩

/-- An entry with the nonce expected of its sender. -/
theorem Inv.take {p : TransactionPool} {state : StateBackend} {popped : List PrioritizedTx} {acc acc' : Selection}
    (h : Inv p state popped acc) (e : PrioritizedTx) (tx : SignedTransaction) (hgood : p.Consistent e)
    (hx : p.transactions.find? e.hash = some tx) (hnonce : e.nonce = acc.expectedNonce state e.sender)
    (hselected : acc'.selected = acc.selected ++ [tx]) (hseen : acc'.seenHashes = insert e.hash acc.seenHashes)
    (hexpected : ∀ a, acc'.expectedNonce state a =
      if a = e.sender then e.nonce + 1 else acc.expectedNonce state a) :
    Inv p state (popped ++ [e]) acc' := by
  obtain ⟨hbound, hown⟩ := hgood
  obtain ⟨hsender, htxnonce⟩ := hown tx hx
  have hsucc : (e.nonce + 1).val = e.nonce.val + 1 := by
    unfold maxAbsoluteNonce at hbound
    rw [Fin.val_add_one_of_lt']
    omega
  have hgrows : ∀ a, (acc.expectedNonce state a).val ≤ (acc'.expectedNonce state a).val := by
    intro a
    rw [hexpected]
    split
    · next ha =>
      rw [ha, ← hnonce, hsucc]
      exact Nat.le_succ _
    · exact Nat.le_refl _
  have hlive : p.transactions.contains e.hash = true := by
    unfold SortedMap.contains
    rw [hx]
    rfl
  constructor
  · intro a
    rw [hexpected, liveNonces_concat]
    by_cases ha : a = e.sender
    · have hl : p.isLiveFor a e = true := by simp [isLiveFor, ha, hlive]
      have hat : e.nonce.val = Climb.climb (state.accountOrNew a).nonce.val (p.liveNonces a popped) := by
        rw [hnonce, ← ha, h.expected]
      rw [if_pos ha, hl, if_pos rfl, Climb.climb_append, hsucc, ← hat]
      simp only [Climb.climb, if_true]
    · have hl : p.isLiveFor a e = false := by simp [isLiveFor, Ne.symm ha]
      rw [if_neg ha, hl, h.expected]
      rfl
  · intro a
    rw [hselected, hexpected, selectedNonces_concat, hsender, h.nonces]
    by_cases ha : a = e.sender
    · -- one more above the ones there are
      have hle := Climb.le_climb (state.accountOrNew a).nonce.val (p.liveNonces a popped)
      rw [← h.expected, ha, ← hnonce] at hle
      rw [if_pos ha.symm, if_pos ha, htxnonce, hsucc, ha, ← hnonce, Nat.succ_sub hle, List.range'_1_concat,
        Nat.add_sub_cancel' hle]
    · rw [if_neg (Ne.symm ha), if_neg ha]
  · intro tx' htx'
    rw [hselected] at htx'
    rcases List.mem_append.1 htx' with hold | hnew
    · exact h.pooled tx' hold
    · exact ⟨e.hash, by rw [List.mem_singleton.1 hnew]; exact hx⟩
  · intro hash hh
    rw [hseen] at hh
    rcases Finset.mem_insert.1 hh with rfl | hold
    · refine ⟨tx, hx, ?_⟩
      rw [hexpected, if_pos hsender, htxnonce, hsucc]
      exact Nat.lt_succ_self _
    · obtain ⟨tx', hx', hlt⟩ := h.seen hash hold
      exact ⟨tx', hx', lt_of_lt_of_le hlt (hgrows _)⟩

/-- **Step.** -/
theorem Inv.step {p : TransactionPool} {state : StateBackend} {popped : List PrioritizedTx} {acc : Selection}
    (h : Inv p state popped acc) (e : PrioritizedTx) (hgood : p.Consistent e) :
    Inv p state (popped ++ [e]) (step p state acc e) := by
  unfold Selection.step
  split
  · next hskip =>
    apply h.skip e rfl rfl (fun _ => rfl)
    intro hlive
    rcases hskip with hseen | hgone
    · -- taken already: the sender's nonce is past it
      obtain ⟨tx, hx, hlt⟩ := h.seen e.hash hseen
      obtain ⟨hsender, hnonce⟩ := hgood.2 tx hx
      rw [hsender, hnonce] at hlt
      exact fun heq => absurd (congrArg Fin.val heq) (Nat.ne_of_lt hlt)
    · simp [isLiveFor, hgone] at hlive
  · next hnew =>
    split
    · next hgone =>
      apply h.skip e rfl rfl (fun _ => rfl)
      intro hlive
      simp [isLiveFor, SortedMap.contains, hgone] at hlive
    · next tx hx =>
      simp only
      split
      · next hne =>
        refine h.skip e rfl rfl (fun a => ?_) fun _ => hne
        rw [expectedNonce_insert acc state a e.sender _ _ _ _ rfl]
        split
        · next ha => rw [ha]
        · rfl
      · next heq =>
        refine h.take e tx hgood hx (not_not.1 heq) rfl rfl fun a => ?_
        rw [SortedMap.insert_insert, expectedNonce_insert acc state a e.sender _ _ _ _ rfl]

/-- **Run.** -/
theorem Inv.foldl {p : TransactionPool} {state : StateBackend} (l popped : List PrioritizedTx) {acc : Selection}
    (h : Inv p state popped acc) (hgood : ∀ e ∈ l, p.Consistent e) :
    Inv p state (popped ++ l) (l.foldl (Selection.step p state) acc) := by
  induction l generalizing popped acc with
  | nil => simpa using h
  | cons e l ih =>
    have hnext := ih (popped ++ [e]) (h.step e (hgood e List.mem_cons_self))
      fun e' he' => hgood e' (List.mem_cons_of_mem e he')
    simpa using hnext

end Selection

/-! ## Soundness -/

theorem selectAll_inv (cr : Crypto) (config : MempoolConfig) (ops : List PoolOp)
    (hhash : HashesOk cr (Adds ops)) (order : PopOrder PrioritizedTx.cmp) (state : StateBackend) :
    Selection.Inv (ops.foldl (apply cr) (withConfig config)) state
      (order.iter (ops.foldl (apply cr) (withConfig config)).priorityQueue)
      ((ops.foldl (apply cr) (withConfig config)).selectAll order state) := by
  have hrecorded := run_recorded cr config ops
  apply (Selection.Inv.empty _ state).foldl _ []
  intro e he
  exact hrecorded.consistent hhash e ((order.mem_iter _ e).1 he)

/-- Consecutive numbers, cut off. -/
theorem eq_range'_of_prefix (l : List Nat) (n k : Nat) (h : l <+: List.range' n k) :
    l = List.range' n l.length := by
  have hlen : l.length ≤ k := by simpa using h.length_le
  rw [List.prefix_iff_eq_take.1 h, List.take_range'_of_length_ge hlen, List.length_range']

/-- Whose senders' nonces do not repeat has no element twice. -/
theorem nodup_of_selectedNonces (l : List SignedTransaction) (h : ∀ sender, (selectedNonces l sender).Nodup) :
    l.Nodup := by
  rw [List.nodup_iff_sublist]
  intro tx hsub
  have hmine := (hsub.filter fun t => decide (t.transaction.sender = tx.transaction.sender)).map
    fun t => t.transaction.nonce.val
  have htwice := (h tx.transaction.sender).sublist hmine
  simp at htwice

/-- **Soundness.**  In every reachable pool and for every state what is selected is within the
limit and pooled, has nothing twice, and has for each sender the nonces from the account's
nonce on, one after the other. -/
theorem selection_sound (cr : Crypto) (config : MempoolConfig) (ops : List PoolOp)
    (hhash : HashesOk cr (Adds ops)) (order : PopOrder PrioritizedTx.cmp) (state : StateBackend) (maxCount : Nat) :
    let p := ops.foldl (apply cr) (withConfig config)
    let selected := p.selectTransactionsWithState order maxCount state
    selected.length ≤ maxCount ∧
      (∀ tx ∈ selected, p.transactions.find? (tx.hash cr) = some tx) ∧ selected.Nodup ∧
      ∀ sender, ∃ k, selectedNonces selected sender = List.range' (state.accountOrNew sender).nonce.val k := by
  intro p selected
  have hinv := selectAll_inv cr config ops hhash order state
  have htake : selected = (p.selectAll order state).selected.take maxCount :=
    p.selectTransactionsWithState_eq order maxCount state
  have hconsecutive : ∀ sender, ∃ k,
      selectedNonces selected sender = List.range' (state.accountOrNew sender).nonce.val k := by
    intro sender
    have hprefix : selectedNonces selected sender <+:
        selectedNonces (p.selectAll order state).selected sender := by
      rw [htake]
      exact ((List.take_prefix _ _).filter _).map _
    rw [hinv.nonces sender] at hprefix
    exact ⟨_, eq_range'_of_prefix _ _ _ hprefix⟩
  refine ⟨by rw [htake]; exact List.length_take_le _ _, ?_, ?_, hconsecutive⟩
  · intro tx htx
    rw [htake] at htx
    obtain ⟨hash, hx⟩ := hinv.pooled tx (List.mem_of_mem_take htx)
    rwa [((run_recorded cr config ops).pooled hash tx hx).2]
  · apply nodup_of_selectedNonces
    intro sender
    obtain ⟨k, hk⟩ := hconsecutive sender
    rw [hk]
    exact List.nodup_range'

/-! ## Maximality -/

/-- The nonce after the last one selected of a sender, or the account's nonce. -/
def nextNonce (state : StateBackend) (selected : List SignedTransaction) (sender : AccountId) : Nat :=
  ((selectedNonces selected sender).getLast?.map (· + 1)).getD (state.accountOrNew sender).nonce.val

/-- No pooled transaction has the nonce that comes next for its sender. -/
def Maximal (p : TransactionPool) (state : StateBackend) (selected : List SignedTransaction) : Prop :=
  ∀ hash tx, p.transactions.find? hash = some tx →
    tx.transaction.nonce.val ≠ nextNonce state selected tx.transaction.sender

/-- Of the transactions of a sender that could be executed one after the other, the entries are
popped in the order of their nonces. -/
def PoppedInOrder (p : TransactionPool) (order : PopOrder PrioritizedTx.cmp) (state : StateBackend) : Prop :=
  ∀ sender k,
    (∀ i ≤ k, ∃ hash tx, p.transactions.find? hash = some tx ∧ tx.transaction.sender = sender ∧
      tx.transaction.nonce.val = (state.accountOrNew sender).nonce.val + i) →
    (List.range' (state.accountOrNew sender).nonce.val (k + 1)).Sublist
      (p.liveNonces sender (order.iter p.priorityQueue))

theorem nextNonce_of_range' (state : StateBackend) (selected : List SignedTransaction) (sender : AccountId)
    (k : Nat) (h : selectedNonces selected sender = List.range' (state.accountOrNew sender).nonce.val k) :
    nextNonce state selected sender = (state.accountOrNew sender).nonce.val + k := by
  unfold nextNonce
  rw [h, List.getLast?_range']
  split
  · next hk =>
    rw [hk]
    rfl
  · simp only [Option.map_some, Option.getD_some]
    omega

/-- A live entry is of a pooled transaction. -/
theorem pooled_of_mem_liveNonces (p : TransactionPool) (sender : AccountId) (l : List PrioritizedTx) (n : Nat)
    (hgood : ∀ e ∈ l, p.Consistent e) (h : n ∈ p.liveNonces sender l) :
    ∃ hash tx, p.transactions.find? hash = some tx ∧ tx.transaction.sender = sender ∧
      tx.transaction.nonce.val = n := by
  obtain ⟨e, he, rfl⟩ := List.mem_map.1 h
  obtain ⟨hmem, hlive⟩ := List.mem_filter.1 he
  simp only [isLiveFor, Bool.and_eq_true, decide_eq_true_eq] at hlive
  obtain ⟨tx, hx⟩ := Option.isSome_iff_exists.1 hlive.2
  obtain ⟨hsender, hnonce⟩ := (hgood e hmem).2 tx hx
  exact ⟨e.hash, tx, hx, hsender.trans hlive.1, by rw [hnonce]⟩

/-- The selection without a limit is maximal exactly if the entries are popped in order. -/
theorem selectAll_maximal_iff (cr : Crypto) (config : MempoolConfig) (ops : List PoolOp)
    (hhash : HashesOk cr (Adds ops)) (order : PopOrder PrioritizedTx.cmp) (state : StateBackend) :
    let p := ops.foldl (apply cr) (withConfig config)
    Maximal p state (p.selectAll order state).selected ↔ p.PoppedInOrder order state := by
  intro p
  have hinv := selectAll_inv cr config ops hhash order state
  have hgood : ∀ e ∈ order.iter p.priorityQueue, p.Consistent e := fun e he =>
    (run_recorded cr config ops).consistent hhash e ((order.mem_iter _ e).1 he)
  have hnext : ∀ sender, nextNonce state (p.selectAll order state).selected sender =
      Climb.climb (state.accountOrNew sender).nonce.val (p.liveNonces sender (order.iter p.priorityQueue)) := by
    intro sender
    have hle := Climb.le_climb (state.accountOrNew sender).nonce.val
      (p.liveNonces sender (order.iter p.priorityQueue))
    rw [nextNonce_of_range' state _ sender _ (hinv.nonces sender), hinv.expected sender]
    exact Nat.add_sub_cancel' hle
  constructor
  · intro hmax sender k hrun
    rw [Climb.sublist_iff]
    by_contra hshort
    -- the number climbed to is one of the run, so it is pooled
    have hle := Climb.le_climb (state.accountOrNew sender).nonce.val
      (p.liveNonces sender (order.iter p.priorityQueue))
    obtain ⟨hash, tx, hx, hsender, hnonce⟩ := hrun
      (Climb.climb (state.accountOrNew sender).nonce.val (p.liveNonces sender (order.iter p.priorityQueue)) -
        (state.accountOrNew sender).nonce.val) (by omega)
    apply hmax hash tx hx
    rw [hsender, hnext, hnonce]
    omega
  · intro hpopped hash tx hx hnonce
    rw [hnext] at hnonce
    have hle := Climb.le_climb (state.accountOrNew tx.transaction.sender).nonce.val
      (p.liveNonces tx.transaction.sender (order.iter p.priorityQueue))
    -- all nonces up to the one that comes next are pooled
    have hsub := hpopped tx.transaction.sender
      (Climb.climb (state.accountOrNew tx.transaction.sender).nonce.val
        (p.liveNonces tx.transaction.sender (order.iter p.priorityQueue)) -
        (state.accountOrNew tx.transaction.sender).nonce.val) (by
      intro i hi
      by_cases hlast : (state.accountOrNew tx.transaction.sender).nonce.val + i = tx.transaction.nonce.val
      · exact ⟨hash, tx, hx, rfl, hlast.symm⟩
      · apply pooled_of_mem_liveNonces p _ _ _ hgood
        exact Climb.mem_of_lt_climb _ _ _ (Nat.le_add_right _ _) (by omega))
    rw [Climb.sublist_iff] at hsub
    omega

/-- **Maximality.**  A selection that leaves room in the block leaves nothing executable out,
whatever the limit, if and only if for each sender the entries of the transactions that could
follow each other are popped in the order of their nonces. -/
theorem selection_maximal_iff (cr : Crypto) (config : MempoolConfig) (ops : List PoolOp)
    (hhash : HashesOk cr (Adds ops)) (order : PopOrder PrioritizedTx.cmp) (state : StateBackend) :
    let p := ops.foldl (apply cr) (withConfig config)
    (∀ maxCount, (p.selectTransactionsWithState order maxCount state).length < maxCount →
      Maximal p state (p.selectTransactionsWithState order maxCount state)) ↔
      p.PoppedInOrder order state := by
  intro p
  refine Iff.trans ?_ (selectAll_maximal_iff cr config ops hhash order state)
  constructor
  · intro h
    have hall := p.selectTransactionsWithState_eq order ((p.selectAll order state).selected.length + 1) state
    rw [List.take_of_length_le (Nat.le_succ _)] at hall
    have hmax := h ((p.selectAll order state).selected.length + 1) (by rw [hall]; exact Nat.lt_succ_self _)
    rwa [hall] at hmax
  · intro hmax maxCount hlt
    have htake := p.selectTransactionsWithState_eq order maxCount state
    rw [htake, List.length_take] at hlt
    rw [htake, List.take_of_length_le (by omega)]
    exact hmax

/-! ## Two transactions of one sender -/

/-- A heap that gives equal entries in some fixed order. -/
def sampleOrder : PopOrder PrioritizedTx.cmp :=
  PopOrder.bySort _
    (fun a b => by simp only [PrioritizedTx.cmp_ne_lt_iff]; omega)
    (fun a b c => by simp only [PrioritizedTx.cmp_ne_lt_iff]; omega)

def sampleTx (nonce : Nonce) (call : TransactionCall) : SignedTransaction :=
  let transaction := { sender := ⟨1⟩, nonce, call, timestamp := 0 }
  { transaction, signature := Signature64.zero, hash? := some (transaction.hash Crypto.sample) }

/-- Account 1 submits two transactions. -/
def sampleOps (first second : TransactionCall) : List PoolOp :=
  [.addWithValidation .stored 0 (sampleTx 0 first) none, .addWithValidation .stored 1 (sampleTx 1 second) none]

def samplePool (first second : TransactionCall) : TransactionPool :=
  (sampleOps first second).foldl (apply Crypto.sample) (withConfig .default)

theorem sampleOps_hashesOk (first second : TransactionCall)
    (h : Crypto.sample.blake3 (sampleTx 0 first).transaction.encode ≠
      Crypto.sample.blake3 (sampleTx 1 second).transaction.encode) :
    HashesOk Crypto.sample (Adds (sampleOps first second)) := by
  have hcases : ∀ tx, Adds (sampleOps first second) tx → tx = sampleTx 0 first ∨ tx = sampleTx 1 second := by
    rintro tx ⟨order, now, state, hmem⟩
    simp only [sampleOps, List.mem_cons, PoolOp.addWithValidation.injEq, List.not_mem_nil, or_false] at hmem
    exact hmem.imp (fun h => h.2.2.1) (fun h => h.2.2.1)
  constructor
  · intro tx htx
    rcases hcases tx htx with rfl | rfl <;> rfl
  · intro tx tx' htx htx' heq
    rcases hcases tx htx with rfl | rfl <;> rcases hcases tx' htx' with rfl | rfl
    · rfl
    · exact absurd heq h
    · exact absurd heq.symm h
    · rfl

/-- A stake before a transfer: both are selected. -/
theorem selection_sound_stake_first :
    (samplePool (.stake 5) (.transfer ⟨2⟩ 5)).selectTransactionsWithState sampleOrder 10 StateBackend.new =
        [sampleTx 0 (.stake 5), sampleTx 1 (.transfer ⟨2⟩ 5)] ∧
      ((samplePool (.stake 5) (.transfer ⟨2⟩ 5)).selectTransactionsWithState sampleOrder 10
          StateBackend.new).Nodup := by
  have h := selection_sound Crypto.sample .default (sampleOps (.stake 5) (.transfer ⟨2⟩ 5))
    (sampleOps_hashesOk _ _ (by decide +kernel)) sampleOrder StateBackend.new 10
  exact ⟨by decide +kernel, h.2.2.1⟩

/-- What is pooled after a stake and a transfer. -/
theorem pooled_stake_first (hash : Hash) (tx : SignedTransaction)
    (h : (samplePool (.stake 5) (.transfer ⟨2⟩ 5)).transactions.find? hash = some tx) :
    tx.transaction.sender = ⟨1⟩ ∧ tx.transaction.nonce.val ≤ 1 := by
  have hall : ∀ e ∈ (samplePool (.stake 5) (.transfer ⟨2⟩ 5)).transactions.entries,
      e.2.transaction.sender = ⟨1⟩ ∧ e.2.transaction.nonce.val ≤ 1 := by decide +kernel
  exact hall (hash, tx) ((SortedMap.mem_entries_iff _ _ _).2 h)

/-- The stake pays the higher fee and is popped first: nothing is left out. -/
theorem selection_maximal_stake_first :
    ((samplePool (.stake 5) (.transfer ⟨2⟩ 5)).selectTransactionsWithState sampleOrder 10
        StateBackend.new).length < 10 ∧
      Maximal (samplePool (.stake 5) (.transfer ⟨2⟩ 5)) StateBackend.new
        ((samplePool (.stake 5) (.transfer ⟨2⟩ 5)).selectTransactionsWithState sampleOrder 10
          StateBackend.new) := by
  have hroom : ((samplePool (.stake 5) (.transfer ⟨2⟩ 5)).selectTransactionsWithState sampleOrder 10
      StateBackend.new).length < 10 := by decide +kernel
  refine ⟨hroom, (selection_maximal_iff Crypto.sample .default (sampleOps (.stake 5) (.transfer ⟨2⟩ 5))
    (sampleOps_hashesOk _ _ (by decide +kernel)) sampleOrder StateBackend.new).2 ?_ 10 hroom⟩
  intro sender k hrun
  obtain ⟨hash, tx, hx, hsender, hnonce⟩ := hrun k (Nat.le_refl k)
  obtain ⟨hone, hle⟩ := pooled_stake_first hash tx hx
  obtain rfl : sender = ⟨1⟩ := hsender.symm.trans hone
  have hzero : (StateBackend.new.accountOrNew ⟨1⟩).nonce.val = 0 := rfl
  have hk : k = 0 ∨ k = 1 := by omega
  rcases hk with rfl | rfl
  · decide +kernel
  · decide +kernel

/-- A transfer before a stake: the stake is popped first, while the transfer is expected, and
is left out of a block with room for it. -/
theorem selection_leaves_out :
    (samplePool (.transfer ⟨2⟩ 5) (.stake 5)).selectTransactionsWithState sampleOrder 10 StateBackend.new =
        [sampleTx 0 (.transfer ⟨2⟩ 5)] ∧
      ¬ Maximal (samplePool (.transfer ⟨2⟩ 5) (.stake 5)) StateBackend.new
        ((samplePool (.transfer ⟨2⟩ 5) (.stake 5)).selectTransactionsWithState sampleOrder 10 StateBackend.new) := by
  refine ⟨by decide +kernel, fun hmax => ?_⟩
  have hpooled : (samplePool (.transfer ⟨2⟩ 5) (.stake 5)).transactions.find?
      ((sampleTx 1 (.stake 5)).hash Crypto.sample) = some (sampleTx 1 (.stake 5)) := by decide +kernel
  exact hmax _ _ hpooled (by decide +kernel)

end TransactionPool

end Kratos
