import Kratos.Node.Executor

/-!
# Supply of a run of transactions

`supply` is everything the state owes: free and reserved balances and the
amounts waiting to be unbonded.  One execution takes the fee out of it, except
for two shortfalls that saturating arithmetic hides: a transfer to the sender
loses its amount, because the sender's copy overwrites the credit, and a call
whose balance check is weaker than its fee pays only what is left
(`supply_execute`).  `supply_run_iff` says that a run conserves the supply, at
every step, exactly when no transaction of it meets one of the two.
-/

namespace Kratos

/-- Free, reserved and unbonding amounts of all accounts. -/
def StateBackend.supply (s : StateBackend) : Nat :=
  s.accounts.sumOf (fun _ a => a.total) + s.unbonding.sumOf (fun _ u => u.total)

namespace StateBackend

theorem supply_setAccount (s : StateBackend) (id : AccountId) (a : AccountInfo) :
    (s.setAccount id a).supply + (s.getAccount id).elim 0 AccountInfo.total = s.supply + a.total := by
  have h := s.accounts.sumOf_insert (fun _ a => a.total) id a
  unfold supply setAccount getAccount
  simp only at h ⊢
  have he : (s.accounts.find? id).elim 0 (fun a => a.total) =
      (s.accounts.find? id).elim 0 AccountInfo.total := rfl
  omega

/-- Replacing a known account. -/
theorem supply_setAccount_of_found (s : StateBackend) (id : AccountId) (a b : AccountInfo)
    (h : s.getAccount id = some a) : (s.setAccount id b).supply + a.total = s.supply + b.total := by
  have := supply_setAccount s id b
  rw [h] at this
  exact this

theorem total_le_supply (s : StateBackend) (id : AccountId) :
    (s.getAccount id).elim 0 AccountInfo.total ≤ s.supply := by
  have h := s.accounts.le_sumOf (fun _ a => a.total) id
  have he : (s.accounts.find? id).elim 0 (fun a => a.total) =
      (s.getAccount id).elim 0 AccountInfo.total := rfl
  unfold supply
  omega

/-- Two accounts together hold at most the supply. -/
theorem add_total_le_supply (s : StateBackend) (id j : AccountId) (h : id ≠ j) :
    (s.getAccount id).elim 0 AccountInfo.total + (s.getAccount j).elim 0 AccountInfo.total ≤
      s.supply := by
  have h := s.accounts.add_le_sumOf (fun _ a => a.total) id j h
  have hi : (s.accounts.find? id).elim 0 (fun a => a.total) =
      (s.getAccount id).elim 0 AccountInfo.total := rfl
  have hj : (s.accounts.find? j).elim 0 (fun a => a.total) =
      (s.getAccount j).elim 0 AccountInfo.total := rfl
  unfold supply
  omega

theorem supply_addUnbondingRequest (s : StateBackend) (id : AccountId) (amount : Balance)
    (block period : Nat) :
    (s.addUnbondingRequest id amount block period).supply = s.supply + amount.val := by
  let info := (s.unbonding.find? id).getD { requests := [] }
  let request : UnbondingRequest :=
    { amount, unbondingStarted := block, releaseBlock := Word.satAdd64 block period }
  have hins := s.unbonding.sumOf_insert (fun _ u => u.total) id { requests := info.requests ++ [request] }
  have hnew : UnbondingInfo.total { requests := info.requests ++ [request] } = info.total + amount.val := by
    simp [UnbondingInfo.total, request]
  have hold : (s.unbonding.find? id).elim 0 (fun u => u.total) = info.total := by
    cases hf : s.unbonding.find? id <;> simp [info, hf, UnbondingInfo.total]
  have hdef : (s.addUnbondingRequest id amount block period).supply =
      s.accounts.sumOf (fun _ a => a.total) + (s.unbonding.insert id
        { requests := info.requests ++ [request] }).sumOf (fun _ u => u.total) := rfl
  rw [hdef]
  unfold supply
  omega

/-- Amounts of the requests with and without a property. -/
theorem sum_filter_amounts (p : UnbondingRequest → Bool) (l : List UnbondingRequest) :
    ((l.filter p).map fun r => r.amount.val).sum + ((l.filter fun r => !p r).map fun r => r.amount.val).sum =
      (l.map fun r => r.amount.val).sum := by
  induction l with
  | nil => rfl
  | cons r l ih =>
    simp only [List.filter_cons]
    cases p r with
    | true =>
      simp only [if_true, Bool.not_true, Bool.false_eq_true, if_false, List.map_cons, List.sum_cons]
      omega
    | false =>
      simp only [Bool.false_eq_true, if_false, Bool.not_false, if_true, List.map_cons, List.sum_cons]
      omega

theorem sum_splitMatured (block : Nat) (l : List UnbondingRequest) :
    ((splitMatured block l).1.map fun r => r.amount.val).sum +
      ((splitMatured block l).2.map fun r => r.amount.val).sum = (l.map fun r => r.amount.val).sum := by
  unfold splitMatured
  rw [List.partition_eq_filter_filter]
  exact sum_filter_amounts _ l

/-- What a withdrawal pays out is what it removes from the records. -/
theorem supply_withdrawMaturedUnbonding (s : StateBackend) (id : AccountId) (block : Nat)
    (h : s.supply < 2 ^ 128) :
    (s.withdrawMaturedUnbonding id block).1.supply + (s.withdrawMaturedUnbonding id block).2.val =
      s.supply := by
  unfold withdrawMaturedUnbonding
  cases hf : s.unbonding.find? id with
  | none => rfl
  | some info =>
    simp only
    have hsplit : ((splitMatured block info.requests).1.map fun r => r.amount.val).sum +
        UnbondingInfo.total { requests := (splitMatured block info.requests).2 } = info.total :=
      sum_splitMatured block info.requests
    have hle : info.total ≤ s.unbonding.sumOf (fun _ u => u.total) := by
      have := s.unbonding.le_sumOf (fun _ u => u.total) id
      rwa [hf] at this
    have hpaid : (Word.satSum ((splitMatured block info.requests).1.map fun r => r.amount) 0).val =
        ((splitMatured block info.requests).1.map fun r => r.amount.val).sum := by
      have hmap : ((splitMatured block info.requests).1.map fun r => r.amount).map Fin.val =
          (splitMatured block info.requests).1.map fun r => r.amount.val := by
        rw [List.map_map]
        rfl
      rw [Word.val_satSum, hmap]
      · simp
      · rw [hmap, Fin.val_zero]
        unfold supply at h
        omega
    split
    · next hempty =>
      have he := s.unbonding.sumOf_erase (fun _ u => u.total) id
      have hzero : UnbondingInfo.total { requests := (splitMatured block info.requests).2 } = 0 := by
        rw [List.isEmpty_iff.mp hempty]
        rfl
      rw [hf, Option.elim_some] at he
      unfold supply
      simp only
      omega
    · have hi := s.unbonding.sumOf_insert (fun _ u => u.total) id
        { requests := (splitMatured block info.requests).2 }
      rw [hf, Option.elim_some] at hi
      unfold supply
      simp only
      omega

end StateBackend

namespace TransactionExecutor

/-! ## One execution -/

/-- The amount of a transfer to its own sender. -/
def selfAmount (sender : AccountId) : TransactionCall → Nat
  | .transfer toId amount => if toId = sender then amount.val else 0
  | _ => 0

/-- The part of amount and fee together that a free balance does not cover. -/
def shortfall (call : TransactionCall) (a : AccountInfo) : Nat :=
  (outlay call).val + call.baseFee.val - a.free.val

/-- If the transaction is admitted and the call's own check lets it pass, its
amount and fee are covered by the sender's free balance, and it is not a
transfer of a positive amount to its own sender. -/
def ChargedExactly (cr : Crypto) (s : StateBackend) (tx : SignedTransaction) : Prop :=
  ∀ a, Admitted cr s tx a →
    (Word.satAdd (outlay tx.transaction.call) (checkedFee tx.transaction.call)).val ≤ a.free.val →
      shortfall tx.transaction.call a = 0 ∧ selfAmount tx.transaction.sender tx.transaction.call = 0

/-- A call whose own check passed could pay its amount out of the free balance. -/
theorem outlay_le_of_check (call : TransactionCall) (a : AccountInfo)
    (h : (Word.satAdd (outlay call) (checkedFee call)).val ≤ a.free.val) :
    (outlay call).val ≤ a.free.val := by
  rw [Word.val_satAdd] at h
  have := (outlay call).isLt
  omega

theorem selfAmount_of_isReserve (sender : AccountId) (call : TransactionCall) (h : isReserve call = true) :
    selfAmount sender call = 0 := by
  cases call <;> first | rfl | cases h

theorem outlay_of_isFeeOnly (call : TransactionCall) (h : isFeeOnly call = true) :
    (outlay call).val = 0 ∧ checkedFee call = call.baseFee := by
  cases call <;> first | exact ⟨rfl, rfl⟩ | cases h

theorem selfAmount_of_isFeeOnly (sender : AccountId) (call : TransactionCall) (h : isFeeOnly call = true) :
    selfAmount sender call = 0 := by
  cases call <;> first | rfl | cases h

/-- The sender's total after fee deduction. -/
theorem total_settle (a : AccountInfo) (fee : Balance) (h : Hash) :
    (settle a fee h).total + min fee.val a.free.val = a.total := by
  simp only [settle, AccountInfo.total, Word.val_satSub]
  omega

/-- The credit of a transfer does not saturate: the amount and the recipient's
balance are both part of the supply. -/
theorem total_credited (s : StateBackend) (sender toId : AccountId) (amount : Balance) (a : AccountInfo)
    (hs : s.supply < 2 ^ 128) (hne : toId ≠ sender) (ha : s.getAccount sender = some a)
    (hle : amount.val ≤ a.free.val) :
    (credited s toId amount).total = (s.getAccount toId).elim 0 AccountInfo.total + amount.val := by
  have hadd := s.add_total_le_supply sender toId (Ne.symm hne)
  rw [ha, Option.elim_some] at hadd
  unfold credited
  cases hg : s.getAccount toId with
  | none =>
    have := amount.isLt
    simp only [Option.getD_none, AccountInfo.total, AccountInfo.new, Word.val_satAdd,
      Option.elim_none, Fin.val_zero]
    omega
  | some r =>
    rw [hg] at hadd
    simp only [Option.getD_some, AccountInfo.total, Word.val_satAdd, Option.elim_some] at hadd ⊢
    omega

/-- Writing an account `b` for the sender after a successful call: the supply
changes by the difference to the copy the call ended with, and the amount of a
self-transfer is gone. -/
theorem supply_callOk (s s' : StateBackend) (sender : AccountId) (call : TransactionCall)
    (a a' b : AccountInfo) (block : Nat) (hs : s.supply < 2 ^ 128) (ha : s.getAccount sender = some a)
    (h : CallOk s sender block a call s' a') :
    (s'.setAccount sender b).supply + a'.total + selfAmount sender call = s.supply + b.total := by
  have hat := s.total_le_supply sender
  rw [ha, Option.elim_some] at hat
  have hw := s.supply_setAccount_of_found sender a b ha
  cases h with
  | transfer toId amount hle =>
    have hout : amount.val ≤ a.free.val := outlay_le_of_check (.transfer toId amount) a hle
    by_cases hself : toId = sender
    · have hov : (s.setAccount toId (credited s toId amount)).setAccount sender b =
          s.setAccount sender b := by
        simp only [hself, StateBackend.setAccount, SortedMap.insert_insert]
      rw [hov]
      simp only [selfAmount, if_pos hself, AccountInfo.total, Word.val_satSub] at hw ⊢
      omega
    · have hc := s.supply_setAccount toId (credited s toId amount)
      have hcred := total_credited s sender toId amount a hs hself ha hout
      have hfound : (s.setAccount toId (credited s toId amount)).getAccount sender = some a := by
        rw [s.getAccount_setAccount_ne _ _ _ (Ne.symm hself), ha]
      have hw' := (s.setAccount toId (credited s toId amount)).supply_setAccount_of_found sender a b hfound
      have hcopy : AccountInfo.total { a with free := Word.satSub a.free amount } + amount.val =
          a.total := by
        simp only [AccountInfo.total, Word.val_satSub]
        omega
      simp only [selfAmount, if_neg hself]
      omega
  | reserve _ hres hle =>
    have hout := outlay_le_of_check call a hle
    rw [selfAmount_of_isReserve sender call hres]
    simp only [AccountInfo.total, Word.val_satSub, Word.val_satAdd] at hw hat ⊢
    omega
  | unstake amount hle =>
    have hu := s.supply_addUnbondingRequest sender amount block unbondingPeriod
    have hw' := (s.addUnbondingRequest sender amount block unbondingPeriod).supply_setAccount_of_found
      sender a b ha
    simp only [selfAmount, AccountInfo.total, Word.val_satSub] at hw' ⊢
    omega
  | withdraw hne =>
    have hp := s.supply_withdrawMaturedUnbonding sender block hs
    have hw' := (s.withdrawMaturedUnbonding sender block).1.supply_setAccount_of_found sender a b
      (by rw [StateBackend.getAccount_withdrawMaturedUnbonding, ha])
    have hat' := (s.withdrawMaturedUnbonding sender block).1.total_le_supply sender
    rw [StateBackend.getAccount_withdrawMaturedUnbonding, ha, Option.elim_some] at hat'
    simp only [selfAmount, AccountInfo.total, Word.val_satAdd] at hw' hat' ⊢
    omega
  | feeOnly _ hfo =>
    rw [selfAmount_of_isFeeOnly sender call hfo]
    omega

/-- After a successful call the sender's copy covers the fee up to the shortfall. -/
theorem fee_callOk (s s' : StateBackend) (sender : AccountId) (call : TransactionCall)
    (a a' : AccountInfo) (block : Nat) (hfee : call.baseFee.val ≤ a.free.val)
    (h : CallOk s sender block a call s' a') :
    (Word.satAdd (outlay call) (checkedFee call)).val ≤ a.free.val ∧
      min call.baseFee.val a'.free.val + shortfall call a = call.baseFee.val := by
  have hlt := a.free.isLt
  cases h with
  | transfer toId amount hle =>
    have hout : amount.val ≤ a.free.val := outlay_le_of_check (.transfer toId amount) a hle
    refine ⟨hle, ?_⟩
    simp only [shortfall, outlay, Word.val_satSub]
    omega
  | reserve _ hres hle =>
    have hout := outlay_le_of_check call a hle
    refine ⟨hle, ?_⟩
    simp only [shortfall, Word.val_satSub]
    omega
  | unstake amount hle =>
    simp only [shortfall, outlay, checkedFee, Word.val_satAdd, Fin.val_zero]
    omega
  | withdraw hne =>
    simp only [shortfall, outlay, checkedFee, Word.val_satAdd, Fin.val_zero]
    omega
  | feeOnly _ hfo =>
    obtain ⟨hout, hck⟩ := outlay_of_isFeeOnly call hfo
    simp only [shortfall, hck, Word.val_satAdd]
    omega

/-- **What one execution does to the supply.**  A failure leaves it.  A success
takes the fee and the amount of a self-transfer, less what the sender could not pay. -/
theorem supply_execute (cr : Crypto) (s : StateBackend) (tx : SignedTransaction) (block : Nat)
    (hs : s.supply < 2 ^ 128) :
    ((execute cr s tx block).2.success = false ∧ (execute cr s tx block).2.feePaid = 0 ∧
      (execute cr s tx block).1.supply = s.supply) ∨
    (∃ a, Admitted cr s tx a ∧
      (Word.satAdd (outlay tx.transaction.call) (checkedFee tx.transaction.call)).val ≤ a.free.val ∧
      (execute cr s tx block).2.feePaid = tx.transaction.call.baseFee ∧
      (execute cr s tx block).1.supply + tx.transaction.call.baseFee.val +
          selfAmount tx.transaction.sender tx.transaction.call =
        s.supply + shortfall tx.transaction.call a) := by
  rcases execute_cases cr s tx block with ⟨a, s', a', hadm, hcall, hex⟩ | ⟨s', e, hex, hfail⟩
  · right
    obtain ⟨hck, hpaid⟩ := fee_callOk _ _ _ _ _ _ _ hadm.fee hcall
    have hsup := supply_callOk _ _ _ _ _ _ (settle a' tx.transaction.call.baseFee (tx.hash cr)) _ hs
      hadm.found hcall
    have hset := total_settle a' tx.transaction.call.baseFee (tx.hash cr)
    rw [hex]
    refine ⟨a, hadm, hck, rfl, ?_⟩
    simp only
    omega
  · left
    rw [hex]
    refine ⟨rfl, rfl, ?_⟩
    rcases hfail with rfl | ⟨-, -, hz, rfl⟩
    · rfl
    · have := s.supply_withdrawMaturedUnbonding tx.transaction.sender block hs
      rw [hz] at this
      exact this

/-- An admitted call that takes something and passes its own check succeeds. -/
theorem execute_success_of_check (cr : Crypto) (s : StateBackend) (tx : SignedTransaction) (block : Nat)
    (a : AccountInfo) (hadm : Admitted cr s tx a)
    (hck : (Word.satAdd (outlay tx.transaction.call) (checkedFee tx.transaction.call)).val ≤ a.free.val)
    (hout : (outlay tx.transaction.call).val ≠ 0) : (execute cr s tx block).2.success = true := by
  apply execute_success_of_dispatch cr s tx block a hadm
  generalize tx.transaction.call = call at hck hout
  have hck' : ¬ a.free < Word.satAdd (outlay call) (checkedFee call) := not_lt.mpr hck
  cases call with
  | transfer toId amount =>
    simp only [dispatch, executeTransfer]
    split
    · next hlt => exact absurd hlt hck'
    · rfl
  | stake amount =>
    simp only [dispatch, executeStake, moveToReserved]
    split
    · next hlt => exact absurd hlt hck'
    · rfl
  | registerValidator amount =>
    simp only [dispatch, executeStake, moveToReserved]
    split
    · next hlt => exact absurd hlt hck'
    · rfl
  | createSidechain metadata deposit =>
    simp only [dispatch, executeReserve, moveToReserved]
    split
    · next hlt => exact absurd hlt hck'
    · rfl
  | _ => exact absurd rfl hout

theorem selfAmount_eq (sender : AccountId) (call : TransactionCall) :
    selfAmount sender call = 0 ∨
      (selfAmount sender call = (outlay call).val ∧ checkedFee call = call.baseFee) := by
  cases call with
  | transfer toId amount =>
    simp only [selfAmount, outlay]
    split
    · exact Or.inr ⟨rfl, rfl⟩
    · exact Or.inl rfl
  | _ => exact Or.inl rfl

/-- One execution takes exactly its fee out of the supply if and only if it is charged exactly. -/
theorem supply_execute_iff (cr : Crypto) (s : StateBackend) (tx : SignedTransaction) (block : Nat)
    (hs : s.supply < 2 ^ 128) :
    (execute cr s tx block).1.supply + (execute cr s tx block).2.feePaid.val = s.supply ↔
      ChargedExactly cr s tx := by
  have hself := selfAmount_eq tx.transaction.sender tx.transaction.call
  rcases supply_execute cr s tx block hs with ⟨hsucc, hfee, hsup⟩ | ⟨a, hadm, hck, hfee, hsup⟩
  · rw [hfee, hsup]
    refine ⟨fun _ a hadm hck => ?_, fun _ => rfl⟩
    by_cases hout : (outlay tx.transaction.call).val = 0
    · have := hadm.fee
      unfold shortfall
      omega
    · rw [execute_success_of_check cr s tx block a hadm hck hout] at hsucc
      cases hsucc
  · rw [hfee]
    constructor
    · intro heq a' hadm' hck'
      obtain rfl : a' = a := Option.some.inj (hadm'.found.symm.trans hadm.found)
      have hle := outlay_le_of_check _ _ hck
      have hlt := a'.free.isLt
      have hb := tx.transaction.call.baseFee_bounds
      rw [Word.val_satAdd] at hck
      unfold shortfall at hsup ⊢
      rcases hself with hself | ⟨hself, hcf⟩
      · omega
      · rw [hcf] at hck
        omega
    · intro hexact
      obtain ⟨hshort, hself⟩ := hexact a hadm hck
      omega

/-- The supply never grows. -/
theorem supply_execute_le (cr : Crypto) (s : StateBackend) (tx : SignedTransaction) (block : Nat)
    (hs : s.supply < 2 ^ 128) : (execute cr s tx block).1.supply ≤ s.supply := by
  rcases supply_execute cr s tx block hs with ⟨-, -, hsup⟩ | ⟨a, hadm, hck, -, hsup⟩
  · exact le_of_eq hsup
  · have := outlay_le_of_check _ _ hck
    unfold shortfall at hsup
    omega

/-! ## Runs -/

/-- Execute transactions in order, each at its block number. -/
def executeAll (cr : Crypto) : StateBackend → List (SignedTransaction × Nat) →
    StateBackend × List ExecutionResult
  | s, [] => (s, [])
  | s, e :: l =>
    let r := execute cr s e.1 e.2
    let rest := executeAll cr r.1 l
    (rest.1, r.2 :: rest.2)

def feesPaid (rs : List ExecutionResult) : Nat := (rs.map fun r => r.feePaid.val).sum

/-- **Supply of a run.**  The supply and the fees paid so far add up to the
initial supply at every step if and only if every transaction is charged
exactly in the state it meets. -/
theorem supply_run_iff (cr : Crypto) (s : StateBackend) (l : List (SignedTransaction × Nat))
    (hs : s.supply < 2 ^ 128) :
    (∀ k, (executeAll cr s (l.take k)).1.supply + feesPaid (executeAll cr s (l.take k)).2 = s.supply) ↔
      ∀ k e, l[k]? = some e → ChargedExactly cr (executeAll cr s (l.take k)).1 e.1 := by
  induction l generalizing s with
  | nil => simp [executeAll, feesPaid]
  | cons e l ih =>
    have hstep := supply_execute_iff cr s e.1 e.2 hs
    have hle := supply_execute_le cr s e.1 e.2 hs
    have hrec := ih (execute cr s e.1 e.2).1 (by omega)
    constructor
    · intro h k d hd
      have h1 : (execute cr s e.1 e.2).1.supply + (execute cr s e.1 e.2).2.feePaid.val = s.supply := by
        have := h 1
        simpa [executeAll, feesPaid] using this
      cases k with
      | zero =>
        simp only [List.getElem?_cons_zero, Option.some.injEq] at hd
        subst hd
        exact hstep.mp h1
      | succ k =>
        refine hrec.mp (fun j => ?_) k d (by simpa using hd)
        have := h (j + 1)
        simp only [List.take_succ_cons, executeAll, feesPaid, List.map_cons, List.sum_cons] at this ⊢
        omega
    · intro h k
      have h1 := hstep.mpr (h 0 e rfl)
      cases k with
      | zero => simp [executeAll, feesPaid]
      | succ k =>
        have := hrec.mpr (fun j d hd => h (j + 1) d (by simpa using hd)) k
        simp only [List.take_succ_cons, executeAll, feesPaid, List.map_cons, List.sum_cons] at this ⊢
        omega

/-- Two funded accounts. -/
def sampleState : StateBackend :=
  (StateBackend.new.setAccount ⟨1⟩ { AccountInfo.new with free := 10000 }).setAccount ⟨2⟩ AccountInfo.new

/-- A transfer of 100 units from account 1. -/
def sampleTransfer (toId : AccountId) : SignedTransaction :=
  { transaction := { sender := ⟨1⟩, nonce := 0, call := .transfer toId 100, timestamp := 0 }
    signature := Signature64.zero, hash? := none }

theorem sampleTransfer_charged : ChargedExactly Crypto.sample sampleState (sampleTransfer ⟨2⟩) := by
  intro a hadm _
  have hfound : sampleState.getAccount ⟨1⟩ = some { AccountInfo.new with free := 10000 } := by
    decide
  obtain rfl : a = { AccountInfo.new with free := 10000 } :=
    Option.some.inj (hadm.found.symm.trans hfound)
  exact ⟨by decide, by decide⟩

/-- A transfer to another account conserves the supply. -/
theorem supply_run_transfer_other : sampleState.supply < 2 ^ 128 ∧
    ∀ k, (executeAll Crypto.sample sampleState (List.take k [(sampleTransfer ⟨2⟩, 1)])).1.supply +
      feesPaid (executeAll Crypto.sample sampleState (List.take k [(sampleTransfer ⟨2⟩, 1)])).2 =
        sampleState.supply := by
  have hs : sampleState.supply < 2 ^ 128 := by decide
  refine ⟨hs, (supply_run_iff Crypto.sample sampleState [(sampleTransfer ⟨2⟩, 1)] hs).mpr ?_⟩
  intro k e he
  cases k with
  | zero =>
    cases he
    exact sampleTransfer_charged
  | succ k => cases he

/-- Sending 100 units to oneself destroys them. -/
theorem supply_self_transfer :
    ¬ ∀ (cr : Crypto) (s : StateBackend) (l : List (SignedTransaction × Nat)), s.supply < 2 ^ 128 →
      (executeAll cr s l).1.supply + feesPaid (executeAll cr s l).2 = s.supply := by
  intro h
  have := h Crypto.sample sampleState [(sampleTransfer ⟨1⟩, 1)] (by decide)
  exact absurd this (by decide)

end TransactionExecutor

end Kratos
