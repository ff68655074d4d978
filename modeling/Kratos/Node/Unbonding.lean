import Kratos.Lib.Run
import Kratos.Node.Supply

/-!
# Unbonding

An unstake puts its amount on record, to be released after `unbondingPeriod` blocks, and a
withdrawal pays out what is due by then and keeps the rest.  For one account and one step
`unbonding_step` says what becomes of its record, of its balance, and of the two amounts that
are counted: what the step unstakes, and what it moves into the free balance.

Over a run what is pending and what was withdrawn add up to what was unstaked, and what was
withdrawn up to a height is at most what was unstaked a period before it.  The release of a
request saturates, so that at the last height there is this is not so.
-/

namespace Kratos

open StateBackend TransactionExecutor

/-- The amounts of some requests. -/
def amountsOf (l : List UnbondingRequest) : Nat := (l.map fun r => r.amount.val).sum

/-- What an account has on record. -/
def pending (id : AccountId) (s : StateBackend) : Nat := amountsOf (s.requestsOf id)

/-- What of it is released by a height. -/
def due (id : AccountId) (h : Nat) (s : StateBackend) : Nat :=
  amountsOf ((s.requestsOf id).filter fun r => decide (r.releaseBlock ≤ h))

theorem amountsOf_append (l m : List UnbondingRequest) : amountsOf (l ++ m) = amountsOf l + amountsOf m := by
  simp [amountsOf]

theorem splitMatured_eq (block : Nat) (l : List UnbondingRequest) :
    splitMatured block l =
      (l.filter fun r => decide (r.releaseBlock ≤ block), l.filter fun r => !decide (r.releaseBlock ≤ block)) :=
  List.partition_eq_filter_filter

theorem amountsOf_splitMatured (block : Nat) (l : List UnbondingRequest) :
    amountsOf (splitMatured block l).1 + amountsOf (splitMatured block l).2 = amountsOf l :=
  sum_splitMatured block l

/-- A withdrawal at a height takes from what is due by then. -/
theorem due_splitMatured (block h : Nat) (l : List UnbondingRequest) :
    amountsOf ((splitMatured block l).2.filter fun r => decide (r.releaseBlock ≤ h)) +
        (if block ≤ h then amountsOf (splitMatured block l).1 else 0) ≤
      amountsOf (l.filter fun r => decide (r.releaseBlock ≤ h)) := by
  have hsplit : amountsOf ((l.filter fun r => decide (r.releaseBlock ≤ h)).filter
        fun r => decide (r.releaseBlock ≤ block)) +
      amountsOf ((l.filter fun r => decide (r.releaseBlock ≤ h)).filter
        fun r => !decide (r.releaseBlock ≤ block)) =
      amountsOf (l.filter fun r => decide (r.releaseBlock ≤ h)) :=
    sum_filter_amounts _ _
  have hkept : (splitMatured block l).2.filter (fun r => decide (r.releaseBlock ≤ h)) =
      (l.filter fun r => decide (r.releaseBlock ≤ h)).filter fun r => !decide (r.releaseBlock ≤ block) := by
    rw [splitMatured_eq, List.filter_filter, List.filter_filter]
    simp only [Bool.and_comm]
  rw [hkept]
  split
  · next hle =>
    have hpaid : (l.filter fun r => decide (r.releaseBlock ≤ h)).filter (fun r => decide (r.releaseBlock ≤ block)) =
        (splitMatured block l).1 := by
      rw [splitMatured_eq, List.filter_filter]
      apply List.filter_congr
      intro r _
      by_cases hr : r.releaseBlock ≤ block
      · simp [hr, le_trans hr hle]
      · simp [hr]
    rw [hpaid] at hsplit
    omega
  · omega

/-! ## What is counted -/

/-- A transaction at the height at which it is executed. -/
abbrev Executed : Type := SignedTransaction × Nat

def executeAt (cr : Crypto) (s : StateBackend) (x : Executed) : StateBackend := (execute cr s x.1 x.2).1

/-- The transaction succeeds, is of the account and makes a call of this kind. -/
def Succeeds (cr : Crypto) (id : AccountId) (s : StateBackend) (x : Executed) : Bool :=
  (execute cr s x.1 x.2).2.success && decide (x.1.transaction.sender = id)

/-- What a step unstakes. -/
def unstaked (cr : Crypto) (id : AccountId) (s : StateBackend) (x : Executed) : Nat :=
  match x.1.transaction.call with
  | .unstake amount => if Succeeds cr id s x then amount.val else 0
  | _ => 0

/-- What a step moves into the free balance by a withdrawal: the balance after it, with the fee
that was paid, against the balance before. -/
def movedIn (cr : Crypto) (id : AccountId) (s : StateBackend) (x : Executed) : Nat :=
  match x.1.transaction.call with
  | .withdrawUnbonded =>
    if Succeeds cr id s x then
      ((executeAt cr s x).accountOrNew id).free.val + (execute cr s x.1 x.2).2.feePaid.val -
        (s.accountOrNew id).free.val
    else 0
  | _ => 0

theorem counted_of_fails (cr : Crypto) (id : AccountId) (s : StateBackend) (x : Executed)
    (h : Succeeds cr id s x = false) : unstaked cr id s x = 0 ∧ movedIn cr id s x = 0 := by
  unfold unstaked movedIn
  rw [h]
  constructor
  · split <;> rfl
  · split <;> rfl

/-! ## One step -/

/-- The record of the sender after a call. -/
def recordAfter (block : Nat) (call : TransactionCall) (l : List UnbondingRequest) : List UnbondingRequest :=
  match call with
  | .unstake amount =>
    l ++ [{ amount, unbondingStarted := block, releaseBlock := Word.satAdd64 block unbondingPeriod }]
  | .withdrawUnbonded => (splitMatured block l).2
  | _ => l

theorem amountsOf_unstake (block : Nat) (amount : Balance) (l : List UnbondingRequest) :
    amountsOf (recordAfter block (.unstake amount) l) = amountsOf l + amount.val := by
  have hrecord : recordAfter block (.unstake amount) l =
    l ++ [{ amount, unbondingStarted := block, releaseBlock := Word.satAdd64 block unbondingPeriod }] := rfl
  rw [hrecord, amountsOf_append]
  rfl

theorem requestsOf_callOk (s s' : StateBackend) (sender id : AccountId) (call : TransactionCall)
    (a a' : AccountInfo) (block : Nat) (h : CallOk s sender block a call s' a') :
    s'.requestsOf id = if id = sender then recordAfter block call (s.requestsOf id) else s.requestsOf id := by
  cases h with
  | transfer toId amount _ => exact (ite_self _).symm
  | reserve _ hres _ => cases call <;> first | exact (ite_self _).symm | cases hres
  | unstake amount _ =>
    rw [requestsOf_addUnbondingRequest]
    by_cases hid : id = sender
    · rw [if_pos hid, if_pos hid, hid]
      rfl
    · rw [if_neg hid, if_neg hid]
  | withdraw _ =>
    rw [requestsOf_withdrawMaturedUnbonding]
    by_cases hid : id = sender
    · rw [if_pos hid, if_pos hid, hid]
      rfl
    · rw [if_neg hid, if_neg hid]
  | feeOnly _ hfee => cases call <;> first | exact (ite_self _).symm | cases hfee

/-- What a withdrawal pays is at most what it takes from the record, and exactly that where the
sum does not saturate. -/
theorem paid_le_matured (s : StateBackend) (id : AccountId) (block : Nat) :
    (s.withdrawMaturedUnbonding id block).2.val ≤ amountsOf (splitMatured block (s.requestsOf id)).1 ∧
      (amountsOf (splitMatured block (s.requestsOf id)).1 < 2 ^ 128 →
        (s.withdrawMaturedUnbonding id block).2.val = amountsOf (splitMatured block (s.requestsOf id)).1) := by
  have hmap : ((splitMatured block (s.requestsOf id)).1.map fun r => r.amount).map Fin.val =
      (splitMatured block (s.requestsOf id)).1.map fun r => r.amount.val := by
    rw [List.map_map]
    rfl
  rw [withdrawMaturedUnbonding_paid]
  unfold amountsOf
  constructor
  · have hle := Word.val_satSum_le ((splitMatured block (s.requestsOf id)).1.map fun r => r.amount) 0
    rw [hmap, Fin.val_zero] at hle
    omega
  · intro hlt
    rw [Word.val_satSum, hmap, Fin.val_zero, Nat.zero_add]
    rw [hmap, Fin.val_zero, Nat.zero_add]
    exact hlt

/-- What one step does to the record of an account, and what is counted of it: nothing, an
unstake of the account, or one of its withdrawals. -/
inductive UnbondingStep (s : StateBackend) (id : AccountId) (block : Nat) :
    List UnbondingRequest → Nat → Nat → Prop
  | kept : UnbondingStep s id block (s.requestsOf id) 0 0
  | unstake (amount : Balance) :
      UnbondingStep s id block (recordAfter block (.unstake amount) (s.requestsOf id)) amount.val 0
  | withdraw (moved : Nat) (hle : moved ≤ amountsOf (splitMatured block (s.requestsOf id)).1)
      (heq : (s.accountOrNew id).free.val + pending id s < 2 ^ 128 →
        moved = amountsOf (splitMatured block (s.requestsOf id)).1) :
      UnbondingStep s id block (splitMatured block (s.requestsOf id)).2 0 moved

theorem unbonding_step (cr : Crypto) (id : AccountId) (s : StateBackend) (x : Executed) :
    UnbondingStep s id x.2 ((executeAt cr s x).requestsOf id) (unstaked cr id s x) (movedIn cr id s x) := by
  by_cases hid : id = x.1.transaction.sender
  · rcases execute_cases cr s x.1 x.2 with ⟨a, s', a', hadm, hcall, hex⟩ | ⟨s', e, hex, hfail⟩
    · have hrecord : (executeAt cr s x).requestsOf id = recordAfter x.2 x.1.transaction.call (s.requestsOf id) := by
        unfold executeAt
        rw [hex]
        exact (requestsOf_callOk s s' _ id _ a a' x.2 hcall).trans (if_pos hid)
      have hok : Succeeds cr id s x = true := by
        unfold Succeeds
        rw [hex]
        simp [hid]
      have hbefore : s.accountOrNew id = a := by
        rw [hid]
        exact s.accountOrNew_of_found _ a hadm.found
      rw [hrecord]
      unfold unstaked movedIn
      rw [hok]
      generalize hc : x.1.transaction.call = call at hcall hex ⊢
      cases hcall with
      | transfer toId amount _ => exact .kept
      | reserve _ hres _ => cases call <;> first | exact .kept | cases hres
      | unstake amount _ => exact .unstake amount
      | feeOnly _ hfee => cases call <;> first | exact .kept | cases hfee
      | withdraw hne =>
        have hfee := hadm.fee
        obtain ⟨hpaid, hexact⟩ := paid_le_matured s id x.2
        have hmatured := amountsOf_splitMatured x.2 (s.requestsOf id)
        rw [← hid] at hex
        rw [hc] at hfee
        have hafter : ((executeAt cr s x).accountOrNew id).free.val + (execute cr s x.1 x.2).2.feePaid.val =
            (Word.satAdd a.free (s.withdrawMaturedUnbonding id x.2).2).val := by
          unfold executeAt
          rw [hex, accountOrNew_setAccount, if_pos rfl]
          simp only [settle, Word.val_satSub, Word.val_satAdd]
          have := a.free.isLt
          omega
        have hbound := (s.withdrawMaturedUnbonding id x.2).2.isLt
        simp only [if_true]
        rw [hafter, hbefore, Word.val_satAdd]
        refine .withdraw _ (by omega) fun hfits => ?_
        unfold pending at hfits
        rw [hbefore] at hfits
        have := hexact (by omega)
        omega
    · have hfails : Succeeds cr id s x = false := by
        unfold Succeeds
        rw [hex]
        rfl
      obtain ⟨hin, hout⟩ := counted_of_fails cr id s x hfails
      rw [hin, hout]
      unfold executeAt
      rw [hex]
      rcases hfail with rfl | ⟨-, -, hzero, rfl⟩
      · exact .kept
      · -- nothing was paid: the requests that left the record are of zero
        rw [← hid] at hzero ⊢
        rw [requestsOf_withdrawMaturedUnbonding, if_pos rfl]
        refine .withdraw 0 (Nat.zero_le _) fun hfits => ?_
        have hmatured := amountsOf_splitMatured x.2 (s.requestsOf id)
        unfold pending at hfits
        have hexact := (paid_le_matured s id x.2).2 (by omega)
        rw [hzero] at hexact
        exact hexact
  · -- transactions of other accounts
    have hfails : Succeeds cr id s x = false := by
      unfold Succeeds
      simp [Ne.symm hid]
    obtain ⟨hin, hout⟩ := counted_of_fails cr id s x hfails
    have hrecord : (executeAt cr s x).requestsOf id = s.requestsOf id := by
      unfold executeAt
      rcases execute_cases cr s x.1 x.2 with ⟨a, s', a', -, hcall, hex⟩ | ⟨s', e, hex, hfail⟩
      · rw [hex]
        exact (requestsOf_callOk s s' _ id _ a a' x.2 hcall).trans (if_neg hid)
      · rw [hex]
        rcases hfail with rfl | ⟨-, -, -, rfl⟩
        · rfl
        · rw [requestsOf_withdrawMaturedUnbonding, if_neg hid]
    rw [hin, hout, hrecord]
    exact .kept

/-! ## Runs -/

def isUnbonding : TransactionCall → Bool
  | .unstake _ => true
  | .withdrawUnbonded => true
  | _ => false

theorem isUnbonding_of_isReserve (call : TransactionCall) (h : isReserve call = true) :
    isUnbonding call = false := by
  cases call <;> first | rfl | cases h

theorem isUnbonding_of_isFeeOnly (call : TransactionCall) (h : isFeeOnly call = true) :
    isUnbonding call = false := by
  cases call <;> first | rfl | cases h

/-- What an account has free, reserved and on record. -/
def funds (id : AccountId) (s : StateBackend) : Nat :=
  (s.accountOrNew id).free.val + (s.accountOrNew id).reserved.val + pending id s

/-- Unstakes and withdrawals do not make an account richer. -/
theorem funds_executeAt_le (cr : Crypto) (id : AccountId) (s : StateBackend) (x : Executed)
    (h : isUnbonding x.1.transaction.call = true) : funds id (executeAt cr s x) ≤ funds id s := by
  unfold executeAt funds pending
  rcases execute_cases cr s x.1 x.2 with ⟨a, s', a', hadm, hcall, hex⟩ | ⟨s', e, hex, hfail⟩
  · have hrecord := requestsOf_callOk s s' _ id _ a a' x.2 hcall
    have hfound := s.accountOrNew_of_found _ a hadm.found
    rw [hex]
    generalize x.1.transaction.sender = sender at *
    generalize x.1.transaction.call = call at *
    rw [accountOrNew_setAccount]
    have hsame : ∀ a, ((s'.setAccount sender a).requestsOf id) = s'.requestsOf id := fun _ => rfl
    rw [hsame, hrecord]
    cases hcall with
    | transfer toId amount _ => cases h
    | reserve _ hres _ =>
      rw [isUnbonding_of_isReserve call hres] at h
      cases h
    | feeOnly _ hfee =>
      rw [isUnbonding_of_isFeeOnly call hfee] at h
      cases h
    | unstake amount hle =>
      by_cases hid : id = sender
      · rw [if_pos hid, if_pos hid, hid, hfound]
        simp only [settle, Word.val_satSub, amountsOf_unstake]
        omega
      · rw [if_neg hid, if_neg hid]
        exact Nat.le_refl _
    | withdraw hne =>
      by_cases hid : id = sender
      · have hpaid := (paid_le_matured s sender x.2).1
        have hmatured := amountsOf_splitMatured x.2 (s.requestsOf sender)
        rw [if_pos hid, if_pos hid, hid, hfound]
        simp only [settle, Word.val_satSub, Word.val_satAdd]
        have hrecord' : recordAfter x.2 .withdrawUnbonded (s.requestsOf sender) =
          (splitMatured x.2 (s.requestsOf sender)).2 := rfl
        rw [hrecord']
        omega
      · rw [if_neg hid, if_neg hid, accountOrNew_withdrawMaturedUnbonding]
  · rw [hex]
    rcases hfail with rfl | ⟨-, -, -, rfl⟩
    · exact Nat.le_refl _
    · rw [accountOrNew_withdrawMaturedUnbonding, requestsOf_withdrawMaturedUnbonding]
      split
      · next hid =>
        have hmatured := amountsOf_splitMatured x.2 (s.requestsOf id)
        rw [← hid]
        omega
      · exact Nat.le_refl _

theorem pending_step (cr : Crypto) (id : AccountId) (s : StateBackend) (x : Executed)
    (hfunds : funds id s < 2 ^ 128) :
    pending id (executeAt cr s x) + movedIn cr id s x = pending id s + unstaked cr id s x := by
  have hstep := unbonding_step cr id s x
  unfold pending
  generalize (executeAt cr s x).requestsOf id = l at hstep ⊢
  generalize unstaked cr id s x = inn at hstep ⊢
  generalize movedIn cr id s x = out at hstep ⊢
  cases hstep with
  | kept => rfl
  | unstake amount =>
    rw [amountsOf_unstake, Nat.add_zero]
  | withdraw moved hle heq =>
    have hmatured := amountsOf_splitMatured x.2 (s.requestsOf id)
    have hexact := heq (by unfold funds at hfunds; omega)
    omega

/-- The release of a request that does not saturate. -/
theorem release_le_iff (block h : Nat) (hh : h < Word.u64Max) :
    Word.satAdd64 block unbondingPeriod ≤ h ↔ block + unbondingPeriod ≤ h := by
  unfold Word.satAdd64
  omega

theorem due_step (cr : Crypto) (id : AccountId) (h : Nat) (hh : h < Word.u64Max) (s : StateBackend) (x : Executed) :
    due id h (executeAt cr s x) + (if x.2 ≤ h then movedIn cr id s x else 0) ≤
      due id h s + if x.2 + unbondingPeriod ≤ h then unstaked cr id s x else 0 := by
  have hstep := unbonding_step cr id s x
  unfold due
  generalize (executeAt cr s x).requestsOf id = l at hstep ⊢
  generalize unstaked cr id s x = inn at hstep ⊢
  generalize movedIn cr id s x = out at hstep ⊢
  cases hstep with
  | kept => simp only [ite_self, Nat.add_zero, Nat.le_refl]
  | unstake amount =>
    have hrecord : recordAfter x.2 (.unstake amount) (s.requestsOf id) =
      s.requestsOf id ++ [{ amount, unbondingStarted := x.2
                            releaseBlock := Word.satAdd64 x.2 unbondingPeriod }] := rfl
    rw [hrecord, List.filter_append, amountsOf_append, ite_self, Nat.add_zero]
    by_cases hx : x.2 + unbondingPeriod ≤ h
    · rw [if_pos hx, List.filter_cons_of_pos (by simpa using (release_le_iff x.2 h hh).2 hx)]
      exact Nat.le_refl _
    · rw [if_neg hx, List.filter_cons_of_neg (by simpa [release_le_iff x.2 h hh] using hx)]
      exact Nat.le_refl _
  | withdraw moved hle heq =>
    have htaken := due_splitMatured x.2 h (s.requestsOf id)
    rw [ite_self, Nat.add_zero]
    split
    · next hx =>
      rw [if_pos hx] at htaken
      omega
    · next hx =>
      rw [if_neg hx] at htaken
      exact htaken

/-- **Unbonding.**  In every run of unstakes and withdrawals, of any accounts and at any
heights, what an account has on record and what it withdrew add up to what was on record and
what it unstaked; and what it withdrew up to a height below the largest is at most what was
on record and due by then and what it unstaked a period before. -/
theorem unbonding_lock (cr : Crypto) (id : AccountId) (s : StateBackend) (l : List Executed)
    (hcalls : ∀ x ∈ l, isUnbonding x.1.transaction.call = true) (hfunds : funds id s < 2 ^ 128) :
    pending id (l.foldl (executeAt cr) s) + Run.tally (executeAt cr) (movedIn cr id) s l =
        pending id s + Run.tally (executeAt cr) (unstaked cr id) s l ∧
      ∀ h, h < Word.u64Max →
        Run.tally (executeAt cr) (fun s x => if x.2 ≤ h then movedIn cr id s x else 0) s l ≤
          due id h s +
            Run.tally (executeAt cr) (fun s x => if x.2 + unbondingPeriod ≤ h then unstaked cr id s x else 0) s l := by
  constructor
  · apply Run.conserve (executeAt cr) (fun _ x => isUnbonding x.1.transaction.call = true)
      (fun s => funds id s < 2 ^ 128) (pending id) _ _ ?_ ?_ s l hfunds
      (Run.meets_of_mem (executeAt cr) (fun x : Executed => isUnbonding x.1.transaction.call = true) s l hcalls)
    · intro s x hs hx
      exact lt_of_le_of_lt (funds_executeAt_le cr id s x hx) hs
    · intro s x hs _
      exact pending_step cr id s x hs
  · intro h hh
    have hrun := Run.conserve_le (executeAt cr) (due id h) _ _ (due_step cr id h hh) s l
    omega

/-- Account 1 unstakes an amount and withdraws at a later height. -/
def sampleUnbonding (amount : Balance) (block later : Nat) : List Executed :=
  [({ transaction := { sender := ⟨1⟩, nonce := 0, call := .unstake amount, timestamp := 0 }
      signature := Signature64.zero, hash? := none }, block),
   ({ transaction := { sender := ⟨1⟩, nonce := 1, call := .withdrawUnbonded, timestamp := 0 }
      signature := Signature64.zero, hash? := none }, later)]

def sampleStaker (free reserved : Balance) : StateBackend :=
  StateBackend.new.setAccount ⟨1⟩ { AccountInfo.new with free, reserved }

/-- 50 units, withdrawn after the period and not before. -/
theorem unbonding_lock_period :
    Run.tally (executeAt Crypto.sample) (movedIn Crypto.sample ⟨1⟩) (sampleStaker 10000 50)
        (sampleUnbonding 50 0 403200) = 50 ∧
      (pending ⟨1⟩ ((sampleUnbonding 50 0 403200).foldl (executeAt Crypto.sample) (sampleStaker 10000 50)) +
          Run.tally (executeAt Crypto.sample) (movedIn Crypto.sample ⟨1⟩) (sampleStaker 10000 50)
            (sampleUnbonding 50 0 403200) =
        pending ⟨1⟩ (sampleStaker 10000 50) +
          Run.tally (executeAt Crypto.sample) (unstaked Crypto.sample ⟨1⟩) (sampleStaker 10000 50)
            (sampleUnbonding 50 0 403200) ∧
      ∀ h, h < Word.u64Max →
        Run.tally (executeAt Crypto.sample) (fun s x => if x.2 ≤ h then movedIn Crypto.sample ⟨1⟩ s x else 0)
            (sampleStaker 10000 50) (sampleUnbonding 50 0 403200) ≤
          due ⟨1⟩ h (sampleStaker 10000 50) +
            Run.tally (executeAt Crypto.sample)
              (fun s x => if x.2 + unbondingPeriod ≤ h then unstaked Crypto.sample ⟨1⟩ s x else 0)
              (sampleStaker 10000 50) (sampleUnbonding 50 0 403200)) :=
  ⟨by decide +kernel, unbonding_lock Crypto.sample ⟨1⟩ (sampleStaker 10000 50) (sampleUnbonding 50 0 403200)
    (by decide +kernel) (by decide +kernel)⟩

/-- One block before the last height an unstake is released at that height, and 50 units are
withdrawn of which none was unstaked a period before; and a balance at its limit takes 5000 of
the 1000000 units it is due. -/
theorem unbonding_saturates :
    (pending ⟨1⟩ (sampleStaker 10000 50) = 0 ∧
      ¬ Run.tally (executeAt Crypto.sample)
          (fun s x => if x.2 ≤ Word.u64Max then movedIn Crypto.sample ⟨1⟩ s x else 0)
          (sampleStaker 10000 50) (sampleUnbonding 50 (Word.u64Max - 1) Word.u64Max) ≤
        Run.tally (executeAt Crypto.sample)
          (fun s x => if x.2 + unbondingPeriod ≤ Word.u64Max then unstaked Crypto.sample ⟨1⟩ s x else 0)
          (sampleStaker 10000 50) (sampleUnbonding 50 (Word.u64Max - 1) Word.u64Max)) ∧
    (pending ⟨1⟩ (sampleStaker (Word.maxVal 128) 1000000) = 0 ∧
      ¬ pending ⟨1⟩ ((sampleUnbonding 1000000 0 403200).foldl (executeAt Crypto.sample)
            (sampleStaker (Word.maxVal 128) 1000000)) +
          Run.tally (executeAt Crypto.sample) (movedIn Crypto.sample ⟨1⟩)
            (sampleStaker (Word.maxVal 128) 1000000) (sampleUnbonding 1000000 0 403200) =
        Run.tally (executeAt Crypto.sample) (unstaked Crypto.sample ⟨1⟩)
          (sampleStaker (Word.maxVal 128) 1000000) (sampleUnbonding 1000000 0 403200)) := by
  decide +kernel

end Kratos
