import Kratos.Node.Rewards

/-!
# Production and import of a block

The producer runs every selected transaction, keeps those that succeed and pays
its rewards; an importing node runs only the kept ones and stops at the first
failure.  A failed transaction has one effect: a withdrawal that finds nothing
to pay still removes the matured requests of amount zero.  `SameButDust` relates
states that differ by such requests only; executions keep it and have the same
results (`execute_sameButDust`), so both sides end with the same accounts and
the same state root (`production_import_agree`).
-/

namespace Kratos

open TransactionExecutor

/-! ## The two loops -/

/-- What the execution-and-reward phase of block production leaves. -/
structure Produced where
  state : StateBackend
  transactions : List SignedTransaction
  results : List ExecutionResult
  stateRoot : StateRoot

/-- Run the selected transactions: the state, those that succeeded, all results. -/
def executeSelected (cr : Crypto) (block : Nat) : StateBackend → List SignedTransaction →
    StateBackend × List SignedTransaction × List ExecutionResult
  | s, [] => (s, [], [])
  | s, tx :: txs =>
    let r := execute cr s tx block
    let rest := executeSelected cr block r.1 txs
    (rest.1, if r.2.success then tx :: rest.2.1 else rest.2.1, r.2 :: rest.2.2)

/-- `iter().sum()` over 128-bit values. -/
def sumFees (rs : List ExecutionResult) : Balance :=
  rs.foldl (fun total r => total + r.feePaid) 0

/-- The producer's own payment of rewards. -/
def distributeProduced (f : RewardFormulas) (s : StateBackend) (validatorId : AccountId) (epoch : Nat)
    (totalFees : Balance) : StateBackend :=
  let feeResult := f.distribute totalFees
  let totalProducerReward := f.totalProducerReward s validatorId epoch totalFees
  let treasuryAmount := Word.satAdd feeResult.treasury feeResult.finalityVoters
  if totalProducerReward > 0 ∨ treasuryAmount > 0 then
    let s := s.credit validatorId totalProducerReward
    if treasuryAmount > 0 then s.credit treasuryAccount treasuryAmount else s
  else s

/-- Execution and rewards of `produce_block` with the default configuration. -/
def produceBlock (cr : Crypto) (f : RewardFormulas) (s : StateBackend) (selected : List SignedTransaction)
    (validatorId : AccountId) (epoch block : Nat) : Produced :=
  let run := executeSelected cr block s selected
  let s := distributeProduced f run.1 validatorId epoch (sumFees run.2.2)
  let stateRoot := s.computeStateRoot cr block ⟨0⟩
  { state := s.storeStateRoot block stateRoot, transactions := run.2.1, results := run.2.2, stateRoot }

/-- The execution loop of `import_block`: the fees so far, or index and error of
the first transaction that fails.  The state is kept either way. -/
def executeBody (cr : Crypto) (block : Nat) : StateBackend → List SignedTransaction → Nat → Balance →
    StateBackend × Except (Nat × Option ExecError) Balance
  | s, [], _, totalFees => (s, .ok totalFees)
  | s, tx :: txs, idx, totalFees =>
    let r := execute cr s tx block
    if r.2.success then executeBody cr block r.1 txs (idx + 1) (Word.satAdd totalFees r.2.feePaid)
    else (r.1, .error (idx, r.2.error))

/-! ## States that differ by matured requests of amount zero -/

/-- Not a request that matured with nothing to pay out. -/
def isLive (block : Nat) (r : UnbondingRequest) : Bool :=
  !(decide (block ≥ r.releaseBlock) && decide (r.amount = 0))

structure SameButDust (block : Nat) (s t : StateBackend) : Prop where
  accounts : s.accounts = t.accounts
  vcRecords : s.vcRecords = t.vcRecords
  live : ∀ id, (s.requestsOf id).filter (isLive block) = (t.requestsOf id).filter (isLive block)

namespace SameButDust

variable {block : Nat} {s t : StateBackend}

theorem refl (block : Nat) (s : StateBackend) : SameButDust block s s := ⟨rfl, rfl, fun _ => rfl⟩

theorem getAccount (h : SameButDust block s t) (id : AccountId) : s.getAccount id = t.getAccount id := by
  unfold StateBackend.getAccount
  rw [h.accounts]

theorem setAccount (h : SameButDust block s t) (id : AccountId) (a : AccountInfo) :
    SameButDust block (s.setAccount id a) (t.setAccount id a) := by
  refine ⟨?_, h.vcRecords, h.live⟩
  unfold StateBackend.setAccount
  rw [h.accounts]

theorem addUnbondingRequest (h : SameButDust block s t) (id : AccountId) (amount : Balance)
    (start period : Nat) :
    SameButDust block (s.addUnbondingRequest id amount start period)
      (t.addUnbondingRequest id amount start period) := by
  refine ⟨h.accounts, h.vcRecords, fun j => ?_⟩
  rw [StateBackend.requestsOf_addUnbondingRequest, StateBackend.requestsOf_addUnbondingRequest]
  split
  · rw [List.filter_append, List.filter_append, h.live id]
  · exact h.live j

end SameButDust

/-- The payable part of the matured requests is that of the live ones. -/
theorem satSum_splitMatured (block : Nat) (l : List UnbondingRequest) :
    Word.satSum ((StateBackend.splitMatured block l).1.map fun r => r.amount) 0 =
      Word.satSum ((StateBackend.splitMatured block (l.filter (isLive block))).1.map
        fun r => r.amount) 0 := by
  simp only [StateBackend.splitMatured, List.partition_eq_filter_filter, List.filter_filter]
  have hcomm : (fun r : UnbondingRequest => decide (block ≥ r.releaseBlock) && isLive block r) =
      fun r => isLive block r && decide (block ≥ r.releaseBlock) := by
    funext r
    exact Bool.and_comm _ _
  rw [hcomm, ← List.filter_filter]
  refine (Word.satSum_filter _ _ _ _ ?_).symm
  intro r hr hlive
  rw [List.mem_filter] at hr
  simp only [isLive, hr.2, Bool.true_and, Bool.not_eq_eq_eq_not, Bool.not_false,
    decide_eq_true_eq] at hlive
  rw [hlive]
  rfl

theorem filter_isLive_splitMatured (block : Nat) (l : List UnbondingRequest) :
    (StateBackend.splitMatured block l).2.filter (isLive block) =
      (StateBackend.splitMatured block (l.filter (isLive block))).2 := by
  simp only [StateBackend.splitMatured, List.partition_eq_filter_filter, List.filter_filter]
  apply List.filter_congr
  intro r _
  exact Bool.and_comm _ _

theorem SameButDust.withdraw {block : Nat} {s t : StateBackend} (h : SameButDust block s t)
    (id : AccountId) :
    SameButDust block (s.withdrawMaturedUnbonding id block).1 (t.withdrawMaturedUnbonding id block).1 ∧
      (s.withdrawMaturedUnbonding id block).2 = (t.withdrawMaturedUnbonding id block).2 := by
  refine ⟨⟨?_, ?_, fun j => ?_⟩, ?_⟩
  · rw [StateBackend.accounts_withdrawMaturedUnbonding, StateBackend.accounts_withdrawMaturedUnbonding,
      h.accounts]
  · rw [StateBackend.vcRecords_withdrawMaturedUnbonding, StateBackend.vcRecords_withdrawMaturedUnbonding,
      h.vcRecords]
  · rw [StateBackend.requestsOf_withdrawMaturedUnbonding,
      StateBackend.requestsOf_withdrawMaturedUnbonding]
    split
    · rw [filter_isLive_splitMatured, filter_isLive_splitMatured, h.live id]
    · exact h.live j
  · rw [StateBackend.withdrawMaturedUnbonding_paid, StateBackend.withdrawMaturedUnbonding_paid,
      satSum_splitMatured, satSum_splitMatured block (t.requestsOf id), h.live id]

/-- A withdrawal that pays nothing only removes dust. -/
theorem SameButDust.of_withdraw_zero (block : Nat) (s : StateBackend) (id : AccountId)
    (hz : (s.withdrawMaturedUnbonding id block).2 = 0) :
    SameButDust block (s.withdrawMaturedUnbonding id block).1 s := by
  refine ⟨s.accounts_withdrawMaturedUnbonding id block, s.vcRecords_withdrawMaturedUnbonding id block,
    fun j => ?_⟩
  rw [StateBackend.requestsOf_withdrawMaturedUnbonding]
  split
  · next hj =>
    subst hj
    rw [StateBackend.withdrawMaturedUnbonding_paid] at hz
    simp only [StateBackend.splitMatured, List.partition_eq_filter_filter, List.filter_filter] at hz ⊢
    apply List.filter_congr
    intro r hr
    by_cases hm : block ≥ r.releaseBlock
    · -- a matured request has amount zero, so it is not live
      have hle := Word.le_satSum_of_mem ((List.filter (fun r => decide (block ≥ r.releaseBlock))
        (s.requestsOf j)).map fun r => r.amount) 0 r.amount
        (List.mem_map.mpr ⟨r, List.mem_filter.mpr ⟨hr, by simpa using hm⟩, rfl⟩)
      rw [hz] at hle
      have hzero : r.amount = 0 := Fin.ext (Nat.le_zero.mp hle)
      simp [isLive, hm, hzero]
    · simp [hm]
  · rfl

/-! ## Simulation -/

/-- A call does the same on both sides. -/
theorem dispatch_sameButDust (block : Nat) (s t : StateBackend) (h : SameButDust block s t)
    (sender : AccountId) (call : TransactionCall) (a : AccountInfo) :
    SameButDust block (dispatch s sender call a block).1 (dispatch t sender call a block).1 ∧
      (dispatch s sender call a block).2 = (dispatch t sender call a block).2 := by
  have hmove : ∀ (amount fee : Balance) (err : Balance → Balance → ExecError),
      SameButDust block (moveToReserved s amount fee err a).1 (moveToReserved t amount fee err a).1 ∧
        (moveToReserved s amount fee err a).2 = (moveToReserved t amount fee err a).2 := by
    intro amount fee err
    simp only [moveToReserved]
    split <;> exact ⟨h, rfl⟩
  cases call with
  | transfer toId amount =>
    simp only [dispatch, executeTransfer, h.getAccount toId]
    split
    · exact ⟨h, rfl⟩
    · exact ⟨h.setAccount toId _, rfl⟩
  | stake amount =>
    simp only [dispatch, executeStake]
    exact hmove _ _ _
  | unstake amount =>
    simp only [dispatch, executeUnstake]
    split
    · exact ⟨h, rfl⟩
    · exact ⟨h.addUnbondingRequest sender amount block unbondingPeriod, rfl⟩
  | withdrawUnbonded =>
    obtain ⟨hw, hpaid⟩ := h.withdraw sender
    simp only [dispatch, executeWithdrawUnbonded, hpaid]
    split
    · exact ⟨hw, rfl⟩
    · exact ⟨hw, rfl⟩
  | registerValidator amount =>
    simp only [dispatch, executeStake]
    exact hmove _ _ _
  | createSidechain metadata deposit =>
    simp only [dispatch, executeReserve]
    exact hmove _ _ _
  | unregisterValidator => exact ⟨h, rfl⟩
  | exitSidechain chainId => exact ⟨h, rfl⟩
  | signalFork name description => exact ⟨h, rfl⟩
  | proposeEarlyValidator candidate => exact ⟨h, rfl⟩
  | voteEarlyValidator candidate => exact ⟨h, rfl⟩

/-- **Step.**  An execution has the same result on both sides and keeps the relation. -/
theorem execute_sameButDust (cr : Crypto) (block : Nat) (s t : StateBackend) (h : SameButDust block s t)
    (tx : SignedTransaction) :
    SameButDust block (execute cr s tx block).1 (execute cr t tx block).1 ∧
      (execute cr s tx block).2 = (execute cr t tx block).2 := by
  simp only [execute, ← h.getAccount]
  split
  · exact ⟨h, rfl⟩
  · cases s.getAccount tx.transaction.sender with
    | none => exact ⟨h, rfl⟩
    | some a =>
      obtain ⟨hd, hr⟩ := dispatch_sameButDust block s t h tx.transaction.sender tx.transaction.call a
      simp only [← hr]
      split
      · exact ⟨h, rfl⟩
      · split
        · exact ⟨h, rfl⟩
        · cases (dispatch s tx.transaction.sender tx.transaction.call a block).2 with
          | ok a' => exact ⟨hd.setAccount _ _, rfl⟩
          | error e => exact ⟨hd, rfl⟩

/-- A failed execution leaves a related state and pays no fee; a successful one pays at most 10⁷. -/
theorem execute_failed_sameButDust (cr : Crypto) (s : StateBackend) (tx : SignedTransaction) (block : Nat)
    (h : (execute cr s tx block).2.success = false) :
    SameButDust block (execute cr s tx block).1 s ∧ (execute cr s tx block).2.feePaid.val = 0 := by
  rcases execute_cases cr s tx block with ⟨a, s', a', -, -, hex⟩ | ⟨s', e, hex, hfail⟩
  · rw [hex] at h
    cases h
  · rw [hex]
    refine ⟨?_, rfl⟩
    rcases hfail with rfl | ⟨-, -, hz, rfl⟩
    · exact SameButDust.refl block _
    · exact SameButDust.of_withdraw_zero block s _ hz

theorem feePaid_le (cr : Crypto) (s : StateBackend) (tx : SignedTransaction) (block : Nat) :
    (execute cr s tx block).2.feePaid.val ≤ 10000000 := by
  rcases execute_cases cr s tx block with ⟨a, s', a', -, -, hex⟩ | ⟨s', e, hex, -⟩
  · rw [hex]
    exact tx.transaction.call.baseFee_bounds.2
  · rw [hex]
    exact Nat.zero_le _

/-- **Run.**  Importing the kept transactions from a related state succeeds, with
the fees of the whole production run, and ends in a related state. -/
theorem executeBody_kept (cr : Crypto) (block : Nat) (s t : StateBackend) (h : SameButDust block s t)
    (txs : List SignedTransaction) (idx : Nat) (totalFees : Balance)
    (hl : totalFees.val + 10000000 * txs.length < 2 ^ 128) :
    ∃ t' fees, executeBody cr block t (executeSelected cr block s txs).2.1 idx totalFees = (t', .ok fees) ∧
      SameButDust block (executeSelected cr block s txs).1 t' ∧
      fees.val = totalFees.val +
        ((executeSelected cr block s txs).2.2.map fun r => r.feePaid.val).sum := by
  induction txs generalizing s t idx totalFees with
  | nil => exact ⟨t, totalFees, rfl, h, by simp [executeSelected]⟩
  | cons tx txs ih =>
    rw [List.length_cons] at hl
    have hfee := feePaid_le cr s tx block
    simp only [executeSelected, List.map_cons, List.sum_cons]
    cases hs : (execute cr s tx block).2.success with
    | false =>
      obtain ⟨hrel, hzero⟩ := execute_failed_sameButDust cr s tx block hs
      have hst : SameButDust block (execute cr s tx block).1 t :=
        ⟨hrel.accounts.trans h.accounts, hrel.vcRecords.trans h.vcRecords,
          fun id => (hrel.live id).trans (h.live id)⟩
      obtain ⟨t', fees, hbody, hend, hsum⟩ := ih _ _ hst idx totalFees (by omega)
      exact ⟨t', fees, by simpa using hbody, hend, by omega⟩
    | true =>
      obtain ⟨hrel, hres⟩ := execute_sameButDust cr block s t h tx
      have hadd := Word.val_satAdd_of_lt totalFees (execute cr s tx block).2.feePaid (by omega)
      obtain ⟨t', fees, hbody, hend, hsum⟩ := ih _ _ hrel (idx + 1)
        (Word.satAdd totalFees (execute cr s tx block).2.feePaid) (by omega)
      refine ⟨t', fees, ?_, hend, by omega⟩
      simp only [if_true, executeBody, ← hres, hs]
      exact hbody

/-! ## Agreement -/

/-- The cached hash of a transaction, if there is one, is its hash. -/
def HashHonest (cr : Crypto) (tx : SignedTransaction) : Prop := tx.hash cr = tx.transaction.hash cr

theorem execute_uncached (cr : Crypto) (s : StateBackend) (tx : SignedTransaction) (block : Nat)
    (h : HashHonest cr tx) : execute cr s tx.uncached block = execute cr s tx block := by
  have hh : tx.uncached.hash cr = tx.hash cr := h.symm
  unfold execute
  rw [hh]
  rfl

theorem executeBody_uncached (cr : Crypto) (block : Nat) (s : StateBackend) (txs : List SignedTransaction)
    (idx : Nat) (totalFees : Balance) (h : ∀ tx ∈ txs, HashHonest cr tx) :
    executeBody cr block s (txs.map SignedTransaction.uncached) idx totalFees =
      executeBody cr block s txs idx totalFees := by
  induction txs generalizing s idx totalFees with
  | nil => rfl
  | cons tx txs ih =>
    simp only [List.map_cons, executeBody, execute_uncached cr s tx block (h tx List.mem_cons_self)]
    split
    · exact ih _ _ _ fun tx htx => h tx (List.mem_cons_of_mem _ htx)
    · rfl

theorem mem_of_mem_kept (cr : Crypto) (block : Nat) (s : StateBackend) (txs : List SignedTransaction)
    (tx : SignedTransaction) (h : tx ∈ (executeSelected cr block s txs).2.1) : tx ∈ txs := by
  induction txs generalizing s with
  | nil => cases h
  | cons tx' txs ih =>
    simp only [executeSelected] at h
    split at h
    · rcases List.mem_cons.mp h with rfl | h
      · exact List.mem_cons_self
      · exact List.mem_cons_of_mem _ (ih _ h)
    · exact List.mem_cons_of_mem _ (ih _ h)

theorem val_sumFees (rs : List ExecutionResult) (h : (rs.map fun r => r.feePaid.val).sum < 2 ^ 128) :
    (sumFees rs).val = (rs.map fun r => r.feePaid.val).sum := by
  have hgen : ∀ (l : List ExecutionResult) (start : Balance),
      start.val + (l.map fun r => r.feePaid.val).sum < 2 ^ 128 →
        (l.foldl (fun total r => total + r.feePaid) start).val =
          start.val + (l.map fun r => r.feePaid.val).sum := by
    intro l
    induction l with
    | nil => intro start _; simp
    | cons r l ih =>
      intro start hlt
      simp only [List.map_cons, List.sum_cons, List.foldl_cons] at hlt ⊢
      have hadd : (start + r.feePaid).val = start.val + r.feePaid.val :=
        Fin.val_add_eq_of_add_lt (by omega)
      rw [ih _ (by omega)]
      omega
  have := hgen rs 0 (by simpa using h)
  simpa [sumFees] using this

theorem sum_feePaid_le (cr : Crypto) (block : Nat) (s : StateBackend) (txs : List SignedTransaction) :
    ((executeSelected cr block s txs).2.2.map fun r => r.feePaid.val).sum ≤ 10000000 * txs.length := by
  induction txs generalizing s with
  | nil => simp [executeSelected]
  | cons tx txs ih =>
    have hfee := feePaid_le cr s tx block
    have hrec := ih (execute cr s tx block).1
    simp only [executeSelected, List.map_cons, List.sum_cons, List.length_cons]
    omega

/-- Import pays the same rewards as production, from states with equal accounts and credits. -/
theorem accounts_distributeProduced (f : RewardFormulas) (s t : StateBackend) (author : AccountId)
    (epoch : Nat) (totalFees : Balance) (ha : s.accounts = t.accounts) (hv : s.vcRecords = t.vcRecords) :
    (applyBlockRewardsForImport f t author epoch totalFees).1.accounts =
      (distributeProduced f s author epoch totalFees).accounts := by
  have hcredit : ∀ (s t : StateBackend) (id : AccountId) (amount : Balance), s.accounts = t.accounts →
      (s.credit id amount).accounts = (t.credit id amount).accounts := by
    intro s t id amount h
    simp only [StateBackend.credit, StateBackend.setAccount, StateBackend.getAccount, h]
  have hreward : f.totalProducerReward t author epoch totalFees =
      f.totalProducerReward s author epoch totalFees := by
    simp only [RewardFormulas.totalProducerReward, StateBackend.getTotalVc, hv]
  have hpos := f.totalProducerReward_pos s author epoch totalFees
  rw [applyBlockRewardsForImport_eq, hreward]
  simp only [distributeProduced, gt_iff_lt, hpos, true_or, if_true]
  split
  · exact (hcredit _ _ _ _ (hcredit _ _ _ _ ha)).symm
  · exact (hcredit _ _ _ _ ha).symm

/-- **Production and import agree.**  Take what `produceBlock` keeps, with or
without the cached hashes, as a block's body.  Importing it from the same state
succeeds and, after rewards, leaves the producer's accounts and state root. -/
theorem production_import_agree (cr : Crypto) (f : RewardFormulas) (s : StateBackend)
    (selected body : List SignedTransaction) (validatorId : AccountId) (epoch block : Nat)
    (hl : selected.length < 2 ^ 64) (hs : ∀ tx ∈ selected, HashHonest cr tx)
    (hb : ∀ tx ∈ body, HashHonest cr tx)
    (hbody : body.map SignedTransaction.uncached =
      (produceBlock cr f s selected validatorId epoch block).transactions.map SignedTransaction.uncached) :
    ∃ t fees, executeBody cr block s body 0 0 = (t, .ok fees) ∧
      (applyBlockRewardsForImport f t validatorId epoch fees).1.accounts =
        (produceBlock cr f s selected validatorId epoch block).state.accounts ∧
      (applyBlockRewardsForImport f t validatorId epoch fees).1.computeStateRoot cr block ⟨0⟩ =
        (produceBlock cr f s selected validatorId epoch block).stateRoot := by
  have hsum := sum_feePaid_le cr block s selected
  obtain ⟨t, fees, hrun, hrel, hfees⟩ := executeBody_kept cr block s s (SameButDust.refl block s) selected
    0 0 (by simp only [Fin.val_zero]; omega)
  have hkept : ∀ tx ∈ (executeSelected cr block s selected).2.1, HashHonest cr tx := fun tx htx =>
    hs tx (mem_of_mem_kept cr block s selected tx htx)
  have hexec : executeBody cr block s body 0 0 = (t, .ok fees) := by
    rw [← executeBody_uncached cr block s body 0 0 hb, hbody]
    exact (executeBody_uncached cr block s _ 0 0 hkept).trans hrun
  have heq : fees = sumFees (executeSelected cr block s selected).2.2 := by
    apply Fin.ext
    rw [val_sumFees _ (by omega), hfees]
    simp
  have hacc := accounts_distributeProduced f _ _ validatorId epoch fees hrel.accounts hrel.vcRecords
  refine ⟨t, fees, hexec, ?_, ?_⟩
  · rw [hacc, heq]
    rfl
  · simp only [StateBackend.computeStateRoot, hacc]
    rw [heq]
    rfl

/-- A transfer selected twice: the second copy fails and is left out, and importing
the one kept transaction agrees. -/
theorem production_import_agree_resent :
    let s := StateBackend.new.setAccount ⟨1⟩ { AccountInfo.new with free := 10000 }
    let tx : SignedTransaction :=
      { transaction := { sender := ⟨1⟩, nonce := 0, call := .transfer ⟨2⟩ 1, timestamp := 0 }
        signature := Signature64.zero, hash? := none }
    let p := produceBlock Crypto.sample RewardFormulas.sample s [tx, tx] ⟨3⟩ 0 1
    p.transactions = [tx] ∧
      ∃ t fees, executeBody Crypto.sample 1 s [tx] 0 0 = (t, .ok fees) ∧
        (applyBlockRewardsForImport RewardFormulas.sample t ⟨3⟩ 0 fees).1.accounts = p.state.accounts ∧
        (applyBlockRewardsForImport RewardFormulas.sample t ⟨3⟩ 0 fees).1.computeStateRoot
          Crypto.sample 1 ⟨0⟩ = p.stateRoot := by
  intro s tx p
  have hkept : p.transactions = [tx] := by decide +kernel
  refine ⟨hkept, production_import_agree Crypto.sample RewardFormulas.sample s [tx, tx] [tx] ⟨3⟩ 0 1
    (by decide) ?_ ?_ ?_⟩
  · intro x hx
    obtain rfl : x = tx := by simpa using hx
    rfl
  · intro x hx
    obtain rfl : x = tx := by simpa using hx
    rfl
  · exact (congrArg _ hkept).symm

end Kratos
