import Kratos.Node.Rewards

/-!
# Nonces

Sender, recipient and reward accounts are read and written back as whole
records.  `nonceOf_execute` says what an execution does to the nonces: a success
moves its sender's from the transaction's to the next, and nothing else moves
one.  Rewards move none (`applyBlockRewardsWithFinality_onlyCredits`).  By induction over a run that interleaves the
two, every pair of sender and nonce succeeds at most once and each sender's
successes are numbered without gaps (`replay_protection`).
-/

namespace Kratos

/-- The nonce of an account; an absent account has the one it would start with. -/
def StateBackend.nonceOf (s : StateBackend) (id : AccountId) : Nat := (s.accountOrNew id).nonce.val

/-- Writing a record with the nonce the account has changes no nonce. -/
theorem StateBackend.nonceOf_setAccount_same (s : StateBackend) (id j : AccountId) (a : AccountInfo)
    (h : a.nonce = (s.accountOrNew id).nonce) : (s.setAccount id a).nonceOf j = s.nonceOf j := by
  unfold nonceOf
  rw [accountOrNew_setAccount]
  split
  · next hj => rw [hj, h]
  · rfl

namespace TransactionExecutor

/-- A call leaves every nonce, those of the state and the one of the sender's copy. -/
theorem nonceOf_callOk (s s' : StateBackend) (sender : AccountId) (call : TransactionCall)
    (a a' : AccountInfo) (block : Nat) (h : CallOk s sender block a call s' a') (j : AccountId) :
    s'.nonceOf j = s.nonceOf j ∧ a'.nonce = a.nonce := by
  cases h with
  | transfer toId amount hle =>
    exact ⟨s.nonceOf_setAccount_same toId j _ rfl, rfl⟩
  | reserve _ hres hle => exact ⟨rfl, rfl⟩
  | unstake amount hle => exact ⟨rfl, rfl⟩
  | withdraw hne =>
    refine ⟨?_, rfl⟩
    unfold StateBackend.nonceOf
    rw [s.accountOrNew_withdrawMaturedUnbonding]
  | feeOnly _ hfo => exact ⟨rfl, rfl⟩

/-- **What one execution does to the nonces.** -/
theorem nonceOf_execute (cr : Crypto) (s : StateBackend) (tx : SignedTransaction) (block : Nat) :
    ((execute cr s tx block).2.success = false ∧
      ∀ j, (execute cr s tx block).1.nonceOf j = s.nonceOf j) ∨
    ((execute cr s tx block).2.success = true ∧
      tx.transaction.nonce.val = s.nonceOf tx.transaction.sender ∧
      ∀ j, (execute cr s tx block).1.nonceOf j =
        if j = tx.transaction.sender then (s.nonceOf j + 1) % 2 ^ 64 else s.nonceOf j) := by
  rcases execute_cases cr s tx block with ⟨a, s', a', hadm, hcall, hex⟩ | ⟨s', e, hex, hfail⟩
  · right
    rw [hex]
    have ha : s.nonceOf tx.transaction.sender = a.nonce.val := by
      unfold StateBackend.nonceOf
      rw [s.accountOrNew_of_found _ _ hadm.found]
    refine ⟨rfl, by rw [ha, hadm.nonce], fun j => ?_⟩
    obtain ⟨hj, hcopy⟩ := nonceOf_callOk _ _ _ _ _ _ _ hcall j
    by_cases hjs : j = tx.transaction.sender
    · rw [if_pos hjs, hjs, ha]
      simp only [StateBackend.nonceOf, StateBackend.accountOrNew_setAccount, if_true, settle, hcopy,
        Fin.val_add]
      rfl
    · rw [if_neg hjs, ← hj]
      simp only [StateBackend.nonceOf, StateBackend.accountOrNew_setAccount, if_neg hjs]
  · left
    rw [hex]
    refine ⟨rfl, fun j => ?_⟩
    rcases hfail with rfl | ⟨-, -, -, rfl⟩
    · rfl
    · unfold StateBackend.nonceOf
      rw [s.accountOrNew_withdrawMaturedUnbonding]

/-! ## Runs -/

/-- The operations of a run. -/
inductive ChainOp where
  | execute (tx : SignedTransaction) (block : Nat)
  | rewards (author : AccountId) (epoch : Nat) (totalFees : Balance) (finalityVoters : List AccountId)

def ChainOp.apply (cr : Crypto) (f : RewardFormulas) (s : StateBackend) : ChainOp → StateBackend
  | .execute tx block => (TransactionExecutor.execute cr s tx block).1
  | .rewards author epoch totalFees voters =>
    (applyBlockRewardsWithFinality f s author epoch totalFees voters).1

/-- The sender and nonce of the operation if it is a transaction that succeeds. -/
def ChainOp.succeeded (cr : Crypto) (s : StateBackend) : ChainOp → Option (AccountId × Nonce)
  | .execute tx block =>
    if (TransactionExecutor.execute cr s tx block).2.success then
      some (tx.transaction.sender, tx.transaction.nonce)
    else none
  | .rewards .. => none

/-- State after the operations. -/
def runOps (cr : Crypto) (f : RewardFormulas) (s : StateBackend) (ops : List ChainOp) : StateBackend :=
  ops.foldl (ChainOp.apply cr f) s

/-- The successes of a run, in order of execution. -/
def successes (cr : Crypto) (f : RewardFormulas) : StateBackend → List ChainOp →
    List (AccountId × Nonce)
  | _, [] => []
  | s, op :: ops => (op.succeeded cr s).toList ++ successes cr f (op.apply cr f s) ops

/-- The nonces of one sender's successes, in order. -/
def noncesOf (sender : AccountId) (log : List (AccountId × Nonce)) : List Nat :=
  (log.filter fun e => decide (e.1 = sender)).map fun e => e.2.val

theorem ChainOp.succeeded_nonce (cr : Crypto) (s : StateBackend) (op : ChainOp) (id : AccountId)
    (n : Nonce) (h : op.succeeded cr s = some (id, n)) : n.val = s.nonceOf id := by
  cases op with
  | rewards author epoch totalFees voters => cases h
  | execute tx block =>
    unfold succeeded at h
    rcases nonceOf_execute cr s tx block with ⟨hs, -⟩ | ⟨hs, hn, -⟩
    · simp [hs] at h
    · simp only [hs, if_true, Option.some.injEq, Prod.mk.injEq] at h
      rw [← h.1, ← h.2, hn]

/-- **Step.**  An operation moves the nonce of the sender it succeeded for, and no other. -/
theorem ChainOp.nonceOf_apply (cr : Crypto) (f : RewardFormulas) (s : StateBackend) (op : ChainOp)
    (j : AccountId) :
    (op.apply cr f s).nonceOf j =
      if (op.succeeded cr s).any (fun e => decide (e.1 = j)) then (s.nonceOf j + 1) % 2 ^ 64
      else s.nonceOf j := by
  cases op with
  | rewards author epoch totalFees voters =>
    have h := (applyBlockRewardsWithFinality_onlyCredits f s author epoch totalFees voters).nonce j
    simp only [apply, succeeded, StateBackend.nonceOf, h, Option.any_none, Bool.false_eq_true, if_false]
  | execute tx block =>
    unfold apply succeeded
    rcases nonceOf_execute cr s tx block with ⟨hs, hj⟩ | ⟨hs, -, hj⟩
    · simp [hs, hj]
    · simp [hs, hj, eq_comm]

/-- Below the wrap the nonce of the successful sender grows by one. -/
theorem ChainOp.nonceOf_apply_le (cr : Crypto) (f : RewardFormulas) (s : StateBackend) (op : ChainOp)
    (n : Nat) (h : ∀ id, s.nonceOf id + (n + 1) < 2 ^ 64) (id : AccountId) :
    (op.apply cr f s).nonceOf id + n < 2 ^ 64 := by
  have hid := h id
  rw [op.nonceOf_apply cr f s id]
  split
  · rw [Nat.mod_eq_of_lt (by omega)]
    omega
  · omega

/-- **Run.**  The successes of one sender are numbered from its nonce on. -/
theorem noncesOf_successes (cr : Crypto) (f : RewardFormulas) (s : StateBackend) (ops : List ChainOp)
    (h : ∀ id, s.nonceOf id + ops.length < 2 ^ 64) (sender : AccountId) :
    noncesOf sender (successes cr f s ops) =
      List.range' (s.nonceOf sender) (noncesOf sender (successes cr f s ops)).length := by
  induction ops generalizing s with
  | nil => rfl
  | cons op ops ih =>
    have hrec := ih (op.apply cr f s) (op.nonceOf_apply_le cr f s _ h)
    have hstep := op.nonceOf_apply cr f s sender
    have hlt := h sender
    rw [List.length_cons] at hlt
    unfold successes
    cases ho : op.succeeded cr s with
    | none =>
      rw [ho] at hstep
      simp only [Option.any_none, Bool.false_eq_true, if_false] at hstep
      rw [hstep] at hrec
      simpa using hrec
    | some e =>
      obtain ⟨id, n⟩ := e
      rw [ho] at hstep
      by_cases hid : id = sender
      · subst hid
        have hn := op.succeeded_nonce cr s _ _ ho
        simp only [Option.any_some, decide_true, if_true] at hstep
        rw [Nat.mod_eq_of_lt (by omega)] at hstep
        rw [hstep] at hrec
        simp only [noncesOf, Option.toList_some, List.singleton_append, List.filter_cons, decide_true,
          if_true, List.map_cons, List.length_cons, List.range'_succ] at hrec ⊢
        rw [hn, ← hrec]
      · simp only [Option.any_some, hid, decide_false, Bool.false_eq_true, if_false] at hstep
        rw [hstep] at hrec
        simpa [noncesOf, hid] using hrec

/-- A success later in a run carries at least the nonce the sender starts with. -/
theorem nonceOf_le_of_mem_successes (cr : Crypto) (f : RewardFormulas) (s : StateBackend)
    (ops : List ChainOp) (h : ∀ id, s.nonceOf id + ops.length < 2 ^ 64) (id : AccountId) (n : Nonce)
    (hm : (id, n) ∈ successes cr f s ops) : s.nonceOf id ≤ n.val := by
  have hmem : n.val ∈ noncesOf id (successes cr f s ops) := by
    unfold noncesOf
    exact List.mem_map.mpr ⟨(id, n), List.mem_filter.mpr ⟨hm, by simp⟩, rfl⟩
  rw [noncesOf_successes cr f s ops h id, List.mem_range'_1] at hmem
  exact hmem.1

theorem successes_nodup (cr : Crypto) (f : RewardFormulas) (s : StateBackend) (ops : List ChainOp)
    (h : ∀ id, s.nonceOf id + ops.length < 2 ^ 64) : (successes cr f s ops).Nodup := by
  induction ops generalizing s with
  | nil => exact List.nodup_nil
  | cons op ops ih =>
    have hlt := op.nonceOf_apply_le cr f s _ h
    unfold successes
    cases ho : op.succeeded cr s with
    | none => exact ih _ hlt
    | some e =>
      obtain ⟨id, n⟩ := e
      rw [Option.toList_some, List.singleton_append, List.nodup_cons]
      refine ⟨fun hm => ?_, ih _ hlt⟩
      -- the sender's nonce is already past this one
      have hge := nonceOf_le_of_mem_successes cr f _ ops hlt id n hm
      have hn := op.succeeded_nonce cr s _ _ ho
      have hid := h id
      rw [List.length_cons] at hid
      have hmod : (s.nonceOf id + 1) % 2 ^ 64 = s.nonceOf id + 1 := Nat.mod_eq_of_lt (by omega)
      rw [op.nonceOf_apply cr f s id, ho, Option.any_some, decide_eq_true rfl, if_pos rfl, hmod] at hge
      omega

/-- **Replay protection.**  Over every run of executions and reward payments,
no pair of sender and nonce succeeds twice, the successes of a sender carry
consecutive nonces from its initial one, and an operation that does not succeed
for an account leaves that account's nonce. -/
theorem replay_protection (cr : Crypto) (f : RewardFormulas) (s : StateBackend) (ops : List ChainOp)
    (hs : ∀ id a, s.getAccount id = some a → a.nonce.val < 2 ^ 63) (hl : ops.length < 2 ^ 63) :
    (successes cr f s ops).Nodup ∧
    (∀ sender, noncesOf sender (successes cr f s ops) =
      List.range' (s.nonceOf sender) (noncesOf sender (successes cr f s ops)).length) ∧
    (∀ k op, ops[k]? = some op → ∀ id,
      (∀ n, op.succeeded cr (runOps cr f s (ops.take k)) ≠ some (id, n)) →
        (op.apply cr f (runOps cr f s (ops.take k))).nonceOf id =
          (runOps cr f s (ops.take k)).nonceOf id) := by
  have hlt : ∀ id, s.nonceOf id + ops.length < 2 ^ 64 := by
    intro id
    have hid : s.nonceOf id < 2 ^ 63 := by
      unfold StateBackend.nonceOf StateBackend.accountOrNew
      cases hg : s.getAccount id with
      | none => simp [AccountInfo.new]
      | some a => exact hs id a hg
    omega
  refine ⟨successes_nodup cr f s ops hlt, noncesOf_successes cr f s ops hlt, ?_⟩
  intro k op _ id hno
  rw [op.nonceOf_apply cr f]
  cases ho : op.succeeded cr (runOps cr f s (ops.take k)) with
  | none => rfl
  | some e =>
    have hne : e.1 ≠ id := fun he => hno e.2 (by rw [ho, ← he])
    simp [hne]

/-- A transfer of one unit with a given nonce, between accounts 1 and 2. -/
def sampleReplay (nonce : Nonce) : ChainOp :=
  .execute { transaction := { sender := ⟨1⟩, nonce, call := .transfer ⟨2⟩ 1, timestamp := 0 }
             signature := Signature64.zero, hash? := none } 1

/-- The second copy of a transfer is refused, the next nonce is accepted, with a
reward to the sender in between. -/
theorem replay_protection_resent :
    let s := StateBackend.new.setAccount ⟨1⟩ { AccountInfo.new with free := 10000 }
    let ops := [sampleReplay 0, sampleReplay 0, .rewards ⟨1⟩ 0 1000 [⟨2⟩], sampleReplay 1]
    successes Crypto.sample RewardFormulas.sample s ops = [(⟨1⟩, 0), (⟨1⟩, 1)] ∧
      (successes Crypto.sample RewardFormulas.sample s ops).Nodup := by
  intro s ops
  refine ⟨by decide, (replay_protection Crypto.sample RewardFormulas.sample s ops ?_ (by decide)).1⟩
  intro id a h
  have hid : id = ⟨1⟩ ∨ s.getAccount id = none := by
    by_cases hid : id = ⟨1⟩
    · exact Or.inl hid
    · exact Or.inr (StateBackend.getAccount_setAccount_ne _ _ _ _ hid)
  rcases hid with rfl | hnone
  · rw [StateBackend.getAccount_setAccount_self] at h
    cases h
    decide
  · rw [hnone] at h
    cases h

end TransactionExecutor

end Kratos
