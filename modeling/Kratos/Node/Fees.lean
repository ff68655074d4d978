import Kratos.Node.Supply

/-!
# Fees that are charged

`execute` reports the base fee of a call as paid and takes it with a saturating subtraction
from what the call left of the free balance.  The balance is checked before that, by the
helper of the call, against a fee that the helper computes for itself.  Two checks are too
weak (`Underchecked`): a validator registration is checked against the fee of a plain stake,
and at the largest balance the checked sum saturates.  Everywhere else a reported fee is
charged in full (`fee_charged_iff`).
-/

namespace Kratos

namespace TransactionExecutor

/-- If the transaction succeeds, the free balance covered what the call moved out of it and
the base fee, the subtraction of the fee did not saturate, and the sender paid the reported
fee.  `copy` is the sender's account as the call leaves it. -/
def FeeCharged (cr : Crypto) (s : StateBackend) (tx : SignedTransaction) (block : Nat) : Prop :=
  (execute cr s tx block).2.success = true →
    ∃ a copy, s.getAccount tx.transaction.sender = some a ∧
      (dispatch s tx.transaction.sender tx.transaction.call a block).2 = .ok copy ∧
      (a.free.val - copy.free.val) + tx.transaction.call.baseFee.val ≤ a.free.val ∧
      tx.transaction.call.baseFee.val ≤ copy.free.val ∧
      ((execute cr s tx block).1.accountOrNew tx.transaction.sender).free.val +
        (execute cr s tx block).2.feePaid.val = copy.free.val

/-- The check of the call lets it pass and the balance does not cover its amount and fee. -/
def Underchecked (call : TransactionCall) (free : Balance) : Prop :=
  (∃ stake, call = .registerValidator stake ∧ stake.val + 5000 ≤ free.val ∧ free.val < stake.val + 100000) ∨
    (free.val = 2 ^ 128 - 1 ∧ 2 ^ 128 ≤ (outlay call).val + call.baseFee.val)

theorem checkedFee_cases (call : TransactionCall) :
    (∃ stake, call = .registerValidator stake) ∨ checkedFee call = call.baseFee := by
  cases call with
  | registerValidator stake => exact Or.inl ⟨stake, rfl⟩
  | _ => exact Or.inr rfl

/-- **Weak checks.**  A check passes below amount and fee in the two cases, and in no other. -/
theorem underchecked_iff (call : TransactionCall) (free : Balance) :
    Underchecked call free ↔
      (Word.satAdd (outlay call) (checkedFee call)).val ≤ free.val ∧
        free.val < (outlay call).val + call.baseFee.val := by
  have hlt := free.isLt
  rw [Word.val_satAdd]
  rcases checkedFee_cases call with ⟨stake, rfl⟩ | hfee
  · have hout : (outlay (.registerValidator stake)).val = stake.val := rfl
    have hbase : (TransactionCall.registerValidator stake).baseFee.val = 100000 := rfl
    have hchecked : (checkedFee (.registerValidator stake)).val = 5000 := rfl
    rw [hchecked, hout, hbase]
    constructor
    · rintro (⟨stake', heq, hle, hshort⟩ | ⟨hmax, hshort⟩)
      · obtain rfl := TransactionCall.registerValidator.inj heq
        exact ⟨by omega, hshort⟩
      · rw [hout, hbase] at hshort
        exact ⟨by omega, by omega⟩
    · rintro ⟨hle, hshort⟩
      by_cases hfits : stake.val + 5000 < 2 ^ 128
      · exact Or.inl ⟨stake, rfl, by omega, hshort⟩
      · refine Or.inr ⟨by omega, ?_⟩
        rw [hout, hbase]
        omega
  · rw [hfee]
    constructor
    · rintro (⟨stake, rfl, -, -⟩ | ⟨hmax, hshort⟩)
      · exact absurd (congrArg Fin.val hfee) (by decide : ¬ (5000 : Nat) = 100000)
      · exact ⟨by omega, by omega⟩
    · rintro ⟨hle, hshort⟩
      exact Or.inr ⟨by omega, by omega⟩

/-- What a successful call moved out of the free balance. -/
theorem moved_of_callOk (s s' : StateBackend) (sender : AccountId) (call : TransactionCall)
    (a a' : AccountInfo) (block : Nat) (h : CallOk s sender block a call s' a') :
    a.free.val - a'.free.val = (outlay call).val := by
  have hlt := a.free.isLt
  cases h with
  | transfer toId amount hle =>
    have hout : amount.val ≤ a.free.val := outlay_le_of_check (.transfer toId amount) a hle
    simp only [outlay, Word.val_satSub]
    omega
  | reserve _ hres hle =>
    have hout := outlay_le_of_check call a hle
    simp only [Word.val_satSub]
    omega
  | unstake amount hle => simp only [outlay, Fin.val_zero, Nat.sub_self]
  | withdraw hne =>
    simp only [outlay, Word.val_satAdd, Fin.val_zero]
    omega
  | feeOnly _ hfo =>
    have hout := (outlay_of_isFeeOnly call hfo).1
    omega

/-- A success is an admitted transaction whose call succeeded. -/
theorem execute_success (cr : Crypto) (s : StateBackend) (tx : SignedTransaction) (block : Nat)
    (h : (execute cr s tx block).2.success = true) :
    ∃ a s' copy, Admitted cr s tx a ∧
      dispatch s tx.transaction.sender tx.transaction.call a block = (s', .ok copy) ∧
      execute cr s tx block =
        (s'.setAccount tx.transaction.sender (settle copy tx.transaction.call.baseFee (tx.hash cr)),
          { txHash := tx.hash cr, success := true, feePaid := tx.transaction.call.baseFee, error := none }) := by
  rcases execute_cases cr s tx block with ⟨a, -, -, hadm, -, -⟩ | ⟨s', e, hex, -⟩
  · have heq := execute_of_admitted cr s tx block a hadm
    cases hd : dispatch s tx.transaction.sender tx.transaction.call a block with
    | mk s' r =>
      rw [hd] at heq
      cases r with
      | ok copy => exact ⟨a, s', copy, hadm, hd, heq⟩
      | error e =>
        rw [heq] at h
        cases h
  · rw [hex] at h
    cases h

/-- **Fees.**  A reported fee is charged in full if and only if the transaction is not let
pass by one of the two weak checks. -/
theorem fee_charged_iff (cr : Crypto) (s : StateBackend) (tx : SignedTransaction) (block : Nat) :
    FeeCharged cr s tx block ↔ ∀ a, Admitted cr s tx a → ¬ Underchecked tx.transaction.call a.free := by
  constructor
  · intro hcharged a hadm hweak
    obtain ⟨hck, hshort⟩ := (underchecked_iff _ _).1 hweak
    have hout : (outlay tx.transaction.call).val ≠ 0 := by
      have := hadm.fee
      omega
    obtain ⟨a', copy, hfound, hcopy, hcovered, -, -⟩ :=
      hcharged (execute_success_of_check cr s tx block a hadm hck hout)
    obtain rfl : a' = a := Option.some.inj (hfound.symm.trans hadm.found)
    have hmoved := moved_of_callOk _ _ _ _ _ _ _ (dispatch_ok s _ _ _ _ copy block (Prod.ext rfl hcopy))
    omega
  · intro hchecked hsuccess
    obtain ⟨a, s', copy, hadm, hd, hex⟩ := execute_success cr s tx block hsuccess
    have hcall := dispatch_ok _ _ _ _ _ _ _ hd
    have hmoved := moved_of_callOk _ _ _ _ _ _ _ hcall
    have hck := (fee_callOk _ _ _ _ _ _ _ hadm.fee hcall).1
    have hcovered : (outlay tx.transaction.call).val + tx.transaction.call.baseFee.val ≤ a.free.val := by
      by_contra hshort
      exact hchecked a hadm ((underchecked_iff _ _).2 ⟨hck, not_le.1 hshort⟩)
    refine ⟨a, copy, hadm.found, by rw [hd], by omega, by omega, ?_⟩
    rw [hex, StateBackend.accountOrNew_setAccount, if_pos rfl]
    simp only [settle, Word.val_satSub]
    omega

/-- Account 1 registers as a validator with a stake of 50 units. -/
def sampleRegistration : SignedTransaction :=
  { transaction := { sender := ⟨1⟩, nonce := 0, call := .registerValidator 50, timestamp := 0 }
    signature := Signature64.zero, hash? := none }

/-- Account 1 with a free balance. -/
def funded (free : Balance) : StateBackend := StateBackend.new.setAccount ⟨1⟩ { AccountInfo.new with free }

theorem fee_charged_funded : FeeCharged Crypto.sample (funded 100050) sampleRegistration 1 := by
  apply (fee_charged_iff Crypto.sample (funded 100050) sampleRegistration 1).2
  intro a hadm
  have hfound : (funded 100050).getAccount ⟨1⟩ = some { AccountInfo.new with free := 100050 } := by
    decide
  obtain rfl : a = { AccountInfo.new with free := 100050 } := Option.some.inj (hadm.found.symm.trans hfound)
  rw [underchecked_iff]
  decide

/-- With a fee's worth of balance the registration reports a fee of 100000 and pays 99950. -/
theorem fee_undercharged :
    (execute Crypto.sample (funded 100000) sampleRegistration 1).2.success = true ∧
      (execute Crypto.sample (funded 100000) sampleRegistration 1).2.feePaid = 100000 ∧
      ((execute Crypto.sample (funded 100000) sampleRegistration 1).1.accountOrNew ⟨1⟩).free = 0 ∧
      ¬ FeeCharged Crypto.sample (funded 100000) sampleRegistration 1 := by
  refine ⟨by decide, by decide, by decide, ?_⟩
  intro hcharged
  obtain ⟨a, copy, hfound, hcopy, -, hcovers, -⟩ := hcharged (by decide)
  have hfound' : (funded 100000).getAccount ⟨1⟩ = some { AccountInfo.new with free := 100000 } := by
    decide
  obtain rfl : a = { AccountInfo.new with free := 100000 } := Option.some.inj (hfound.symm.trans hfound')
  have hcopy' : (dispatch (funded 100000) ⟨1⟩ (.registerValidator 50) { AccountInfo.new with free := 100000 } 1).2 =
      .ok { AccountInfo.new with free := 99950, reserved := 50 } := by
    decide
  obtain rfl : copy = { AccountInfo.new with free := 99950, reserved := 50 } :=
    Except.ok.inj (hcopy.symm.trans hcopy')
  exact absurd hcovers (by decide)

end TransactionExecutor

end Kratos
