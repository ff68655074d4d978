import Kratos.Consensus.Validator
import Kratos.Storage.State

/-!
# Transaction executor

`execute` checks the signature, the nonce and the fee, runs the call on the
state and on a copy of the sender's account, and writes that copy back with the
fee deducted and the nonce advanced.  A call returns the state as it leaves it
even when it fails.

`execute_cases` says everything one execution can do: it is rejected with the
accounts unchanged, or it is `Admitted` and its call has one of the forms of
`CallOk`.  The theorems about runs of transactions start from there.
-/

namespace Kratos

inductive ExecError where
  | invalidSignature
  | senderNotFound
  | invalidNonce (expected got : Nonce)
  | insufficientForFee (need held : Balance)
  | insufficientBalance (need held : Balance)
  | insufficientForStake (need held : Balance)
  | insufficientStaked (need held : Balance)
  | noMaturedUnbonding
  | insufficientForDeposit (need held : Balance)
deriving DecidableEq, Repr

structure ExecutionResult where
  txHash : Hash
  success : Bool
  feePaid : Balance
  error : Option ExecError
deriving DecidableEq, Repr

namespace TransactionExecutor

/-! ## The calls -/

def executeTransfer (s : StateBackend) (toId : AccountId) (amount : Balance)
    (senderAccount : AccountInfo) : StateBackend × Except ExecError AccountInfo :=
  let fee := (TransactionCall.transfer toId amount).baseFee
  let totalNeeded := Word.satAdd amount fee
  if senderAccount.free < totalNeeded then
    (s, .error (.insufficientBalance totalNeeded senderAccount.free))
  else
    let senderAccount := { senderAccount with free := Word.satSub senderAccount.free amount }
    -- the recipient is read from the state, also when it is the sender
    let recipient := (s.getAccount toId).getD AccountInfo.new
    let recipient := { recipient with free := Word.satAdd recipient.free amount }
    (s.setAccount toId recipient, .ok senderAccount)

/-- Move `amount` from free to reserved if free covers it and `fee`. -/
def moveToReserved (s : StateBackend) (amount fee : Balance) (error : Balance → Balance → ExecError)
    (senderAccount : AccountInfo) : StateBackend × Except ExecError AccountInfo :=
  let totalNeeded := Word.satAdd amount fee
  if senderAccount.free < totalNeeded then (s, .error (error totalNeeded senderAccount.free))
  else
    (s, .ok { senderAccount with free := Word.satSub senderAccount.free amount
                                 reserved := Word.satAdd senderAccount.reserved amount })

def executeStake (s : StateBackend) (amount : Balance) (senderAccount : AccountInfo) :
    StateBackend × Except ExecError AccountInfo :=
  moveToReserved s amount (TransactionCall.stake amount).baseFee .insufficientForStake senderAccount

def executeReserve (s : StateBackend) (amount : Balance) (senderAccount : AccountInfo) :
    StateBackend × Except ExecError AccountInfo :=
  moveToReserved s amount
    (TransactionCall.createSidechain { name := none, description := none, parentChain := none } amount).baseFee
    .insufficientForDeposit senderAccount

def executeUnstake (s : StateBackend) (sender : AccountId) (amount : Balance)
    (senderAccount : AccountInfo) (currentBlock : Nat) : StateBackend × Except ExecError AccountInfo :=
  if senderAccount.reserved < amount then
    (s, .error (.insufficientStaked amount senderAccount.reserved))
  else
    (s.addUnbondingRequest sender amount currentBlock unbondingPeriod,
      .ok { senderAccount with reserved := Word.satSub senderAccount.reserved amount })

def executeWithdrawUnbonded (s : StateBackend) (sender : AccountId) (senderAccount : AccountInfo)
    (currentBlock : Nat) : StateBackend × Except ExecError AccountInfo :=
  let r := s.withdrawMaturedUnbonding sender currentBlock
  if r.2 = 0 then (r.1, .error .noMaturedUnbonding)
  else (r.1, .ok { senderAccount with free := Word.satAdd senderAccount.free r.2 })

/-- The calls that are not listed only pay their fee. -/
def dispatch (s : StateBackend) (sender : AccountId) (call : TransactionCall)
    (senderAccount : AccountInfo) (currentBlock : Nat) : StateBackend × Except ExecError AccountInfo :=
  match call with
  | .transfer toId amount => executeTransfer s toId amount senderAccount
  | .stake amount => executeStake s amount senderAccount
  | .unstake amount => executeUnstake s sender amount senderAccount currentBlock
  | .withdrawUnbonded => executeWithdrawUnbonded s sender senderAccount currentBlock
  | .registerValidator amount => executeStake s amount senderAccount
  | .createSidechain _ deposit => executeReserve s deposit senderAccount
  | .unregisterValidator => (s, .ok senderAccount)
  | .exitSidechain _ => (s, .ok senderAccount)
  | .signalFork .. => (s, .ok senderAccount)
  | .proposeEarlyValidator _ => (s, .ok senderAccount)
  | .voteEarlyValidator _ => (s, .ok senderAccount)

def failed (txHash : Hash) (e : ExecError) : ExecutionResult :=
  { txHash, success := false, feePaid := 0, error := some e }

/-- The sender's account after a successful call: fee deducted, nonce advanced. -/
def settle (a : AccountInfo) (fee : Balance) (txHash : Hash) : AccountInfo :=
  { a with free := Word.satSub a.free fee, nonce := a.nonce + 1, lastModified := txHash }

/-- Execute a single transaction against the state. -/
def execute (cr : Crypto) (s : StateBackend) (tx : SignedTransaction) (currentBlock : Nat) :
    StateBackend × ExecutionResult :=
  let txHash := tx.hash cr
  let fee := tx.transaction.call.baseFee
  let sender := tx.transaction.sender
  if tx.verify cr = false then (s, failed txHash .invalidSignature)
  else
    match s.getAccount sender with
    | none => (s, failed txHash .senderNotFound)
    | some senderAccount =>
      if tx.transaction.nonce ≠ senderAccount.nonce then
        (s, failed txHash (.invalidNonce senderAccount.nonce tx.transaction.nonce))
      else if senderAccount.free < fee then
        (s, failed txHash (.insufficientForFee fee senderAccount.free))
      else
        let r := dispatch s sender tx.transaction.call senderAccount currentBlock
        match r.2 with
        | .ok senderAccount =>
          (r.1.setAccount sender (settle senderAccount fee txHash),
            { txHash, success := true, feePaid := fee, error := none })
        | .error e => (r.1, failed txHash e)

/-! ## What one execution can do -/

/-- The checks made before the call. -/
structure Admitted (cr : Crypto) (s : StateBackend) (tx : SignedTransaction) (a : AccountInfo) : Prop where
  verified : tx.verify cr = true
  found : s.getAccount tx.transaction.sender = some a
  nonce : tx.transaction.nonce = a.nonce
  fee : tx.transaction.call.baseFee.val ≤ a.free.val

/-- The amount a call takes out of the sender's free balance. -/
def outlay : TransactionCall → Balance
  | .transfer _ amount => amount
  | .stake amount => amount
  | .registerValidator amount => amount
  | .createSidechain _ deposit => deposit
  | _ => 0

/-- The fee a call adds to its outlay when it checks the free balance itself.
For a validator registration it is the fee of a plain stake. -/
def checkedFee : TransactionCall → Balance
  | .registerValidator amount => (TransactionCall.stake amount).baseFee
  | call => call.baseFee

def isReserve : TransactionCall → Bool
  | .stake _ => true
  | .registerValidator _ => true
  | .createSidechain .. => true
  | _ => false

def isFeeOnly : TransactionCall → Bool
  | .unregisterValidator => true
  | .exitSidechain _ => true
  | .signalFork .. => true
  | .proposeEarlyValidator _ => true
  | .voteEarlyValidator _ => true
  | _ => false

/-- Account credited by a transfer. -/
def credited (s : StateBackend) (toId : AccountId) (amount : Balance) : AccountInfo :=
  let recipient := (s.getAccount toId).getD AccountInfo.new
  { recipient with free := Word.satAdd recipient.free amount }

/-- The successful calls: the state and the sender's copy they end with. -/
inductive CallOk (s : StateBackend) (sender : AccountId) (block : Nat) (a : AccountInfo) :
    TransactionCall → StateBackend → AccountInfo → Prop
  | transfer (toId : AccountId) (amount : Balance)
      (h : (Word.satAdd amount (checkedFee (.transfer toId amount))).val ≤ a.free.val) :
      CallOk s sender block a (.transfer toId amount) (s.setAccount toId (credited s toId amount))
        { a with free := Word.satSub a.free amount }
  | reserve (call : TransactionCall) (hc : isReserve call = true)
      (h : (Word.satAdd (outlay call) (checkedFee call)).val ≤ a.free.val) :
      CallOk s sender block a call s
        { a with free := Word.satSub a.free (outlay call)
                 reserved := Word.satAdd a.reserved (outlay call) }
  | unstake (amount : Balance) (h : amount.val ≤ a.reserved.val) :
      CallOk s sender block a (.unstake amount)
        (s.addUnbondingRequest sender amount block unbondingPeriod)
        { a with reserved := Word.satSub a.reserved amount }
  | withdraw (h : (s.withdrawMaturedUnbonding sender block).2 ≠ 0) :
      CallOk s sender block a .withdrawUnbonded (s.withdrawMaturedUnbonding sender block).1
        { a with free := Word.satAdd a.free (s.withdrawMaturedUnbonding sender block).2 }
  | feeOnly (call : TransactionCall) (hc : isFeeOnly call = true) : CallOk s sender block a call s a

theorem moveToReserved_ok (s s' : StateBackend) (amount fee : Balance)
    (err : Balance → Balance → ExecError) (a a' : AccountInfo)
    (h : moveToReserved s amount fee err a = (s', .ok a')) :
    (Word.satAdd amount fee).val ≤ a.free.val ∧ s' = s ∧
      a' = { a with free := Word.satSub a.free amount, reserved := Word.satAdd a.reserved amount } := by
  unfold moveToReserved at h
  simp only at h
  split at h
  · cases h
  · next hlt =>
    cases h
    exact ⟨not_lt.mp hlt, rfl, rfl⟩

/-- A successful call has one of the forms of `CallOk`. -/
theorem dispatch_ok (s s' : StateBackend) (sender : AccountId) (call : TransactionCall)
    (a a' : AccountInfo) (block : Nat) (h : dispatch s sender call a block = (s', .ok a')) :
    CallOk s sender block a call s' a' := by
  cases call with
  | transfer toId amount =>
    simp only [dispatch, executeTransfer] at h
    split at h
    · cases h
    · next hlt =>
      cases h
      exact .transfer toId amount (not_lt.mp hlt)
  | stake amount =>
    simp only [dispatch, executeStake] at h
    obtain ⟨hle, rfl, rfl⟩ := moveToReserved_ok _ _ _ _ _ _ _ h
    exact .reserve (.stake amount) rfl hle
  | unstake amount =>
    simp only [dispatch, executeUnstake] at h
    split at h
    · cases h
    · next hlt =>
      cases h
      exact .unstake amount (not_lt.mp hlt)
  | withdrawUnbonded =>
    simp only [dispatch, executeWithdrawUnbonded] at h
    split at h
    · cases h
    · next hne =>
      cases h
      exact .withdraw hne
  | registerValidator amount =>
    simp only [dispatch, executeStake] at h
    obtain ⟨hle, rfl, rfl⟩ := moveToReserved_ok _ _ _ _ _ _ _ h
    exact .reserve (.registerValidator amount) rfl hle
  | unregisterValidator =>
    cases h
    exact .feeOnly _ rfl
  | createSidechain metadata deposit =>
    simp only [dispatch, executeReserve] at h
    obtain ⟨hle, rfl, rfl⟩ := moveToReserved_ok _ _ _ _ _ _ _ h
    exact .reserve (.createSidechain metadata deposit) rfl hle
  | exitSidechain chainId =>
    cases h
    exact .feeOnly _ rfl
  | signalFork name description =>
    cases h
    exact .feeOnly _ rfl
  | proposeEarlyValidator candidate =>
    cases h
    exact .feeOnly _ rfl
  | voteEarlyValidator candidate =>
    cases h
    exact .feeOnly _ rfl

theorem moveToReserved_error (s s' : StateBackend) (amount fee : Balance)
    (err : Balance → Balance → ExecError) (a : AccountInfo) (e : ExecError)
    (h : moveToReserved s amount fee err a = (s', .error e)) : s' = s := by
  unfold moveToReserved at h
  simp only at h
  split at h <;> cases h
  rfl

/-- A failed call left the state alone, or is a withdrawal that found nothing to pay out. -/
theorem dispatch_error (s s' : StateBackend) (sender : AccountId) (call : TransactionCall)
    (a : AccountInfo) (block : Nat) (e : ExecError)
    (h : dispatch s sender call a block = (s', .error e)) :
    s' = s ∨ (call = .withdrawUnbonded ∧ (s.withdrawMaturedUnbonding sender block).2 = 0 ∧
      s' = (s.withdrawMaturedUnbonding sender block).1) := by
  cases call with
  | transfer toId amount =>
    simp only [dispatch, executeTransfer] at h
    split at h <;> cases h
    exact Or.inl rfl
  | stake amount =>
    simp only [dispatch, executeStake] at h
    exact Or.inl (moveToReserved_error _ _ _ _ _ _ _ h)
  | unstake amount =>
    simp only [dispatch, executeUnstake] at h
    split at h <;> cases h
    exact Or.inl rfl
  | withdrawUnbonded =>
    simp only [dispatch, executeWithdrawUnbonded] at h
    split at h
    · next hz =>
      cases h
      exact Or.inr ⟨rfl, hz, rfl⟩
    · cases h
  | registerValidator amount =>
    simp only [dispatch, executeStake] at h
    exact Or.inl (moveToReserved_error _ _ _ _ _ _ _ h)
  | createSidechain metadata deposit =>
    simp only [dispatch, executeReserve] at h
    exact Or.inl (moveToReserved_error _ _ _ _ _ _ _ h)
  | unregisterValidator => cases h
  | exitSidechain chainId => cases h
  | signalFork name description => cases h
  | proposeEarlyValidator candidate => cases h
  | voteEarlyValidator candidate => cases h

/-- Past the checks the result is the one of the call. -/
theorem execute_of_admitted (cr : Crypto) (s : StateBackend) (tx : SignedTransaction) (block : Nat)
    (a : AccountInfo) (h : Admitted cr s tx a) :
    execute cr s tx block =
      match dispatch s tx.transaction.sender tx.transaction.call a block with
      | (s', .ok a') =>
        (s'.setAccount tx.transaction.sender (settle a' tx.transaction.call.baseFee (tx.hash cr)),
          { txHash := tx.hash cr, success := true, feePaid := tx.transaction.call.baseFee
            error := none })
      | (s', .error e) => (s', failed (tx.hash cr) e) := by
  have hfee : ¬ a.free < tx.transaction.call.baseFee := not_lt.mpr h.fee
  simp only [execute, h.verified, Bool.true_eq_false, if_false, h.found, h.nonce, ne_eq,
    not_true_eq_false, hfee]
  cases dispatch s tx.transaction.sender tx.transaction.call a block with
  | mk s' r => cases r <;> rfl

/-- An admitted transaction succeeds if its call does. -/
theorem execute_success_of_dispatch (cr : Crypto) (s : StateBackend) (tx : SignedTransaction)
    (block : Nat) (a : AccountInfo) (h : Admitted cr s tx a)
    (hok : (dispatch s tx.transaction.sender tx.transaction.call a block).2.isOk = true) :
    (execute cr s tx block).2.success = true := by
  rw [execute_of_admitted cr s tx block a h]
  cases hd : dispatch s tx.transaction.sender tx.transaction.call a block with
  | mk s' r =>
    cases r with
    | ok a' => rfl
    | error e =>
      rw [hd] at hok
      cases hok

/-- **What one execution can do.**  Either the checks pass and the call succeeds,
or the result is a failure; the state then is the old one, or the one a
withdrawal without matured funds leaves. -/
theorem execute_cases (cr : Crypto) (s : StateBackend) (tx : SignedTransaction) (block : Nat) :
    (∃ a s' a', Admitted cr s tx a ∧
      CallOk s tx.transaction.sender block a tx.transaction.call s' a' ∧
      execute cr s tx block =
        (s'.setAccount tx.transaction.sender (settle a' tx.transaction.call.baseFee (tx.hash cr)),
          { txHash := tx.hash cr, success := true, feePaid := tx.transaction.call.baseFee
            error := none })) ∨
    (∃ s' e, execute cr s tx block = (s', failed (tx.hash cr) e) ∧
      (s' = s ∨ ((∃ a, Admitted cr s tx a) ∧ tx.transaction.call = .withdrawUnbonded ∧
        (s.withdrawMaturedUnbonding tx.transaction.sender block).2 = 0 ∧
        s' = (s.withdrawMaturedUnbonding tx.transaction.sender block).1))) := by
  by_cases hv : tx.verify cr = false
  · right
    refine ⟨s, .invalidSignature, ?_, Or.inl rfl⟩
    simp only [execute, if_pos hv]
  · cases hg : s.getAccount tx.transaction.sender with
    | none =>
      right
      refine ⟨s, .senderNotFound, ?_, Or.inl rfl⟩
      simp only [execute, if_neg hv, hg]
    | some a =>
      by_cases hn : tx.transaction.nonce ≠ a.nonce
      · right
        refine ⟨s, .invalidNonce a.nonce tx.transaction.nonce, ?_, Or.inl rfl⟩
        simp only [execute, if_neg hv, hg, if_pos hn]
      · by_cases hf : a.free < tx.transaction.call.baseFee
        · right
          refine ⟨s, .insufficientForFee tx.transaction.call.baseFee a.free, ?_, Or.inl rfl⟩
          simp only [execute, if_neg hv, hg, if_neg hn, if_pos hf]
        · have hadm : Admitted cr s tx a :=
            ⟨by simpa using hv, hg, not_not.mp hn, not_lt.mp hf⟩
          rw [execute_of_admitted cr s tx block a hadm]
          cases hd : dispatch s tx.transaction.sender tx.transaction.call a block with
          | mk s' r =>
            cases r with
            | ok a' =>
              left
              exact ⟨a, s', a', hadm, dispatch_ok _ _ _ _ _ _ _ hd, rfl⟩
            | error e =>
              right
              refine ⟨s', e, ?_, ?_⟩
              · rfl
              · rcases dispatch_error _ _ _ _ _ _ _ hd with h | ⟨hc, hz, hs⟩
                · exact Or.inl h
                · exact Or.inr ⟨⟨a, hadm⟩, hc, hz, hs⟩

/-- Nothing but accounts and unbonding records differs. -/
def SameButFunds (s s' : StateBackend) : Prop :=
  { s' with accounts := s.accounts, unbonding := s.unbonding } = s

theorem sameButFunds_withdraw (s : StateBackend) (id : AccountId) (block : Nat) :
    SameButFunds s (s.withdrawMaturedUnbonding id block).1 := by
  have h := s.withdrawMaturedUnbonding_frame id block
  exact (congrArg (fun t : StateBackend => { t with accounts := s.accounts }) h :)

theorem SameButFunds.trans (s t u : StateBackend) (h : SameButFunds s t) (h' : SameButFunds t u) :
    SameButFunds s u := by
  have hu : { u with accounts := s.accounts, unbonding := s.unbonding } =
      { t with accounts := s.accounts, unbonding := s.unbonding } := by
    rw [← show _ = t from h']
  exact hu.trans h

theorem sameButFunds_callOk (s s' : StateBackend) (sender : AccountId) (call : TransactionCall)
    (a a' : AccountInfo) (block : Nat) (h : CallOk s sender block a call s' a') : SameButFunds s s' := by
  cases h with
  | transfer toId amount hle => rfl
  | reserve _ hres hle => rfl
  | unstake amount hle => rfl
  | withdraw hne => exact sameButFunds_withdraw s sender block
  | feeOnly _ hfo => rfl

/-- An execution writes accounts and unbonding records only. -/
theorem sameButFunds_execute (cr : Crypto) (s : StateBackend) (tx : SignedTransaction) (block : Nat) :
    SameButFunds s (execute cr s tx block).1 := by
  rcases execute_cases cr s tx block with ⟨a, s', a', -, hcall, hex⟩ | ⟨s', e, hex, hfail⟩
  · have hs := sameButFunds_callOk _ _ _ _ _ _ _ hcall
    rw [hex]
    exact hs
  · rw [hex]
    rcases hfail with rfl | ⟨-, -, -, rfl⟩
    · rfl
    · exact sameButFunds_withdraw s _ block

end TransactionExecutor

end Kratos
