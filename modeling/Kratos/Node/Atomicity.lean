import Kratos.Node.Import

/-!
# When a refused block leaves no trace

`importBlock` writes as it goes and never rolls back.  A refusal before the
author is admitted changes nothing, and so does one by the validator or the
drift check if the author was known.  Past the drift check something has
changed: the tracker moves with every accepted block, a transaction that
succeeds moves its sender's nonce, and the reward credits the author.  The only
way to be refused there without a trace is to repeat, at height zero, the block
the tracker already stands at, with nothing in it that writes (`Repeated`).
`atomic_iff` is the exact condition.

The same question for one transaction comes first: a failed transaction writes
only where a withdrawal pays nothing and rewrites its sender's record
(`failed_changes_nothing_iff`).
-/

namespace Kratos

open TransactionExecutor

/-! ## Writes that change nothing -/

/-- No request of the account can be withdrawn, and there is no empty record to clear. -/
def StateBackend.NothingMatured (s : StateBackend) (id : AccountId) (block : Nat) : Prop :=
  ∀ info, s.unbonding.find? id = some info →
    info.requests ≠ [] ∧ ∀ r ∈ info.requests, block < r.releaseBlock

theorem StateBackend.unbonding_withdraw_eq_iff (s : StateBackend) (id : AccountId) (block : Nat) :
    (s.withdrawMaturedUnbonding id block).1.unbonding = s.unbonding ↔ s.NothingMatured id block := by
  unfold withdrawMaturedUnbonding NothingMatured
  cases hf : s.unbonding.find? id with
  | none => simp
  | some info =>
    have hpending : (splitMatured block info.requests).2 = info.requests ↔
        ∀ r ∈ info.requests, block < r.releaseBlock := by
      simp [splitMatured, List.partition_eq_filter_filter, List.filter_eq_self]
    simp only [Option.some.injEq, forall_eq']
    split
    · next hempty =>
      rw [List.isEmpty_iff] at hempty
      simp only [SortedMap.erase_eq_self_iff, hf, reduceCtorEq, false_iff]
      rintro ⟨hne, hall⟩
      rw [hempty] at hpending
      exact hne (hpending.mpr hall).symm
    · next hempty =>
      rw [List.isEmpty_iff] at hempty
      simp only [SortedMap.insert_eq_self_iff, hf, Option.some.injEq]
      constructor
      · intro heq
        have hreq : (splitMatured block info.requests).2 = info.requests := by
          nth_rewrite 2 [heq]
          rfl
        exact ⟨hreq ▸ hempty, hpending.mp hreq⟩
      · rintro ⟨-, hall⟩
        rw [hpending.mpr hall]

/-- Withdrawing would pay nothing: every matured request is worth nothing. -/
theorem StateBackend.withdraw_paid_eq_zero_iff (s : StateBackend) (id : AccountId) (block : Nat) :
    (s.withdrawMaturedUnbonding id block).2 = 0 ↔
      ∀ r ∈ s.requestsOf id, r.releaseBlock ≤ block → r.amount = 0 := by
  rw [s.withdrawMaturedUnbonding_paid id block, Fin.ext_iff, Fin.val_zero,
    Word.satSum_eq_zero_iff _ _ rfl]
  simp only [splitMatured, List.partition_eq_filter_filter]
  constructor
  · intro h r hr hm
    have hmem : r ∈ (s.requestsOf id).filter fun r => decide (block ≥ r.releaseBlock) :=
      List.mem_filter.mpr ⟨hr, decide_eq_true hm⟩
    exact Fin.ext (h r.amount (List.mem_map.mpr ⟨r, hmem, rfl⟩))
  · intro h a ha
    obtain ⟨r, hr, rfl⟩ := List.mem_map.mp ha
    rw [List.mem_filter, decide_eq_true_eq] at hr
    rw [h r hr.1 hr.2]
    rfl

/-- The account has a record that a withdrawal rewrites although it pays nothing:
its matured requests are worth nothing, and there is one or the record is empty. -/
def StateBackend.ClearsForNothing (s : StateBackend) (id : AccountId) (block : Nat) : Prop :=
  ∃ info, s.unbonding.find? id = some info ∧
    (∀ r ∈ info.requests, r.releaseBlock ≤ block → r.amount = 0) ∧
    (info.requests = [] ∨ ∃ r ∈ info.requests, r.releaseBlock ≤ block)

theorem StateBackend.clearsForNothing_iff (s : StateBackend) (id : AccountId) (block : Nat) :
    s.ClearsForNothing id block ↔
      (s.withdrawMaturedUnbonding id block).2 = 0 ∧ ¬ s.NothingMatured id block := by
  rw [s.withdraw_paid_eq_zero_iff]
  unfold ClearsForNothing NothingMatured requestsOf
  cases s.unbonding.find? id with
  | none => simp
  | some info =>
    simp only [Option.some.injEq, exists_eq_left', Option.elim_some, forall_eq']
    refine and_congr_right fun _ => ?_
    by_cases hnil : info.requests = []
    · simp [hnil]
    · simp [hnil]

/-- A positive credit is lost only on an account at the maximum. -/
theorem StateBackend.accounts_credit_eq_iff (s : StateBackend) (id : AccountId) (amount : Balance)
    (h : 0 < amount) :
    (s.credit id amount).accounts = s.accounts ↔
      ∃ a, s.getAccount id = some a ∧ a.free = Word.maxVal 128 := by
  have hsat : ∀ free : Balance, Word.satAdd free amount = free ↔ free = Word.maxVal 128 := by
    intro free
    have hlt := free.isLt
    rw [Fin.lt_def] at h
    rw [Fin.ext_iff, Fin.ext_iff, Word.val_satAdd]
    simp only [Word.maxVal, Fin.val_zero] at h ⊢
    omega
  unfold credit setAccount
  simp only [SortedMap.insert_eq_self_iff]
  change s.getAccount id = _ ↔ _
  cases hg : s.getAccount id with
  | none => simp
  | some a =>
    simp only [Option.getD_some, Option.some.injEq, exists_eq_left']
    rw [← hsat a.free]
    constructor
    · intro heq
      exact (congrArg AccountInfo.free heq).symm
    · intro heq
      rw [heq]

/-! ## The first transaction -/

namespace TransactionExecutor

/-- A refused withdrawal has cleared the account's matured requests. -/
theorem execute_withdraw_refused (cr : Crypto) (s : StateBackend) (tx : SignedTransaction)
    (a : AccountInfo) (block : Nat) (hadm : Admitted cr s tx a)
    (hc : tx.transaction.call = .withdrawUnbonded)
    (hs : (execute cr s tx block).2.success = false) :
    (execute cr s tx block).1 = (s.withdrawMaturedUnbonding tx.transaction.sender block).1 := by
  rw [execute_of_admitted cr s tx block a hadm, hc] at hs ⊢
  simp only [dispatch, executeWithdrawUnbonded] at hs ⊢
  by_cases hz : (s.withdrawMaturedUnbonding tx.transaction.sender block).2 = 0
  · rw [if_pos hz]
  · rw [if_neg hz] at hs
    cases hs

/-- The transaction is refused and clears no unbonding record. -/
def RefusedAtOnce (cr : Crypto) (s : StateBackend) (tx : SignedTransaction) (block : Nat) : Prop :=
  (execute cr s tx block).2.success = false ∧
    (tx.transaction.call = .withdrawUnbonded → (∃ a, Admitted cr s tx a) →
      s.NothingMatured tx.transaction.sender block)

/-- A refused transaction leaves the accounts, and the unbonding records if there is nothing to clear. -/
theorem refused_unchanged_iff (cr : Crypto) (s : StateBackend) (tx : SignedTransaction) (block : Nat)
    (hs : (execute cr s tx block).2.success = false) :
    (execute cr s tx block).1.accounts = s.accounts ∧
      ((execute cr s tx block).1.unbonding = s.unbonding ↔ RefusedAtOnce cr s tx block) := by
  rcases execute_cases cr s tx block with ⟨a, s', a', -, -, hex⟩ | ⟨s', e, hex, hfail⟩
  · rw [hex] at hs
    cases hs
  · have hacc : (execute cr s tx block).1.accounts = s.accounts := by
      rw [hex]
      rcases hfail with rfl | ⟨-, -, -, rfl⟩
      · rfl
      · exact s.accounts_withdrawMaturedUnbonding _ _
    refine ⟨hacc, ?_, ?_⟩
    · intro hunb
      refine ⟨hs, ?_⟩
      rintro hc ⟨a, hadm⟩
      rw [execute_withdraw_refused cr s tx a block hadm hc hs] at hunb
      exact (s.unbonding_withdraw_eq_iff _ _).mp hunb
    · rintro ⟨-, hclear⟩
      rw [hex]
      rcases hfail with rfl | ⟨hadm, hc, -, rfl⟩
      · rfl
      · exact (s.unbonding_withdraw_eq_iff _ _).mpr (hclear hc hadm)

/-- **Failed transactions.**  Whatever a failed transaction has changed, it is an
unbonding record: the property holds unless the call is an admitted withdrawal
that pays nothing and rewrites its sender's record. -/
theorem failed_changes_nothing_iff (cr : Crypto) (s : StateBackend) (tx : SignedTransaction)
    (block : Nat) :
    ((execute cr s tx block).2.success = false →
      (execute cr s tx block).2.feePaid = 0 ∧ (execute cr s tx block).1.accounts = s.accounts ∧
        (execute cr s tx block).1.unbonding = s.unbonding) ↔
    ¬ (tx.transaction.call = .withdrawUnbonded ∧ (∃ a, Admitted cr s tx a) ∧
      s.ClearsForNothing tx.transaction.sender block) := by
  rw [s.clearsForNothing_iff]
  constructor
  · rintro h ⟨hc, ⟨a, hadm⟩, hz, hclear⟩
    have hs : (execute cr s tx block).2.success = false := by
      rw [execute_of_admitted cr s tx block a hadm, hc]
      simp only [dispatch, executeWithdrawUnbonded, if_pos hz]
      rfl
    have hat := (refused_unchanged_iff cr s tx block hs).2.mp (h hs).2.2
    exact hclear (hat.2 hc ⟨a, hadm⟩)
  · intro h hs
    obtain ⟨hacc, hunb⟩ := refused_unchanged_iff cr s tx block hs
    have hfee : (execute cr s tx block).2.feePaid = 0 := by
      rcases execute_cases cr s tx block with ⟨a, s', a', -, -, hex⟩ | ⟨s', e, hex, -⟩
      · rw [hex] at hs
        cases hs
      · rw [hex]
        rfl
    refine ⟨hfee, hacc, hunb.mpr ⟨hs, ?_⟩⟩
    rintro hc ⟨a, hadm⟩
    by_contra hclear
    refine h ⟨hc, ⟨a, hadm⟩, ?_, hclear⟩
    rw [execute_of_admitted cr s tx block a hadm, hc] at hs
    simp only [dispatch, executeWithdrawUnbonded] at hs
    by_contra hz
    rw [if_neg hz] at hs
    cases hs

/-- A withdrawal by account 1. -/
def sampleWithdrawal (nonce : Nonce) : SignedTransaction :=
  { transaction := { sender := ⟨1⟩, nonce, call := .withdrawUnbonded, timestamp := 0 }
    signature := Signature64.zero, hash? := none }

/-- An unstaking of nothing leaves a request of zero; the withdrawal that matures
it fails and deletes the record. -/
theorem failed_withdrawal_deletes_record :
    let s := StateBackend.new.setAccount ⟨1⟩ { AccountInfo.new with free := 10000 }
    let unstake : SignedTransaction :=
      { transaction := { sender := ⟨1⟩, nonce := 0, call := .unstake 0, timestamp := 0 }
        signature := Signature64.zero, hash? := none }
    let s₁ := (execute Crypto.sample s unstake 1).1
    let r := execute Crypto.sample s₁ (sampleWithdrawal 1) (1 + unbondingPeriod)
    r.2.success = false ∧ r.1.unbonding ≠ s₁.unbonding := by
  decide +kernel

/-- Execution of a body adds to a nonce at most as often as it has transactions. -/
theorem nonceOf_executeBody (cr : Crypto) (block : Nat) (s : StateBackend) (txs : List SignedTransaction)
    (idx : Nat) (totalFees : Balance) (j : AccountId) :
    ∃ k ≤ txs.length,
      (executeBody cr block s txs idx totalFees).1.nonceOf j = (s.nonceOf j + k) % 2 ^ 64 := by
  have hlt : ∀ t : StateBackend, t.nonceOf j % 2 ^ 64 = t.nonceOf j := fun t =>
    Nat.mod_eq_of_lt (t.accountOrNew j).nonce.isLt
  induction txs generalizing s idx totalFees with
  | nil => exact ⟨0, le_rfl, (hlt s).symm⟩
  | cons tx txs ih =>
    simp only [executeBody, List.length_cons]
    rcases nonceOf_execute cr s tx block with ⟨hs, hj⟩ | ⟨hs, -, hj⟩
    · simp only [hs, Bool.false_eq_true, if_false]
      exact ⟨0, by omega, (hj j).trans (hlt s).symm⟩
    · rw [hs, if_pos rfl]
      obtain ⟨k, hk, hrest⟩ := ih (execute cr s tx block).1 (idx + 1)
        (Word.satAdd totalFees (execute cr s tx block).2.feePaid)
      rw [hrest, hj j]
      by_cases hjs : j = tx.transaction.sender
      · rw [if_pos hjs]
        exact ⟨k + 1, by omega, by omega⟩
      · rw [if_neg hjs]
        exact ⟨k, by omega, rfl⟩

/-- **A body whose first transaction succeeds moves a nonce for good.** -/
theorem nonceOf_executeBody_ne (cr : Crypto) (block : Nat) (s : StateBackend) (tx : SignedTransaction)
    (txs : List SignedTransaction) (idx : Nat) (totalFees : Balance)
    (hl : (tx :: txs).length < 2 ^ 64) (hs : (execute cr s tx block).2.success = true) :
    (executeBody cr block s (tx :: txs) idx totalFees).1.nonceOf tx.transaction.sender ≠
      s.nonceOf tx.transaction.sender := by
  have hlt : s.nonceOf tx.transaction.sender < 2 ^ 64 :=
    (s.accountOrNew tx.transaction.sender).nonce.isLt
  obtain ⟨k, hk, hrest⟩ := nonceOf_executeBody cr block (execute cr s tx block).1 txs (idx + 1)
    (Word.satAdd totalFees (execute cr s tx block).2.feePaid) tx.transaction.sender
  simp only [executeBody, hs, if_true, hrest]
  rw [List.length_cons] at hl
  rcases nonceOf_execute cr s tx block with ⟨hf, -⟩ | ⟨-, -, hj⟩
  · rw [hs] at hf
    cases hf
  · rw [hj, if_pos rfl]
    omega

end TransactionExecutor

namespace Node

/-! ## The condition -/

/-- What a refused block must not touch. -/
structure Unchanged (n n' : Node) : Prop where
  accounts : n'.storage.accounts = n.storage.accounts
  unbonding : n'.storage.unbonding = n.storage.unbonding
  vcRecords : n'.storage.vcRecords = n.storage.vcRecords
  driftTracker : n'.storage.driftTracker = n.storage.driftTracker
  validators : n'.validators = n.validators
  chainHeight : n'.chainHeight = n.chainHeight
  currentBlock : n'.currentBlock = n.currentBlock

/-- If the import fails, the node is what it was. -/
def Atomic (cr : Crypto) (f : RewardFormulas) (now : Nat) (n : Node) (b : Block) : Prop :=
  ∀ e, (importBlock cr f now n b).2 = .error e → Unchanged n (importBlock cr f now n b).1

/-- The author is not admitted on the way. -/
def AuthorKnown (n : Node) (b : Block) : Prop :=
  n.validators.isActive b.header.author = true ∨ syncThreshold < b.header.number

/-- A first transaction that is refused at once, or an empty body and an author
whose balance is at the maximum. -/
def Inert (cr : Crypto) (s : StateBackend) (b : Block) : Prop :=
  match b.body.transactions with
  | [] => ∃ a, s.getAccount b.header.author = some a ∧ a.free = Word.maxVal 128
  | tx :: _ => RefusedAtOnce cr s tx b.header.number

/-- No block was imported yet, the drift tracker stands at this one, and it writes nothing. -/
structure Repeated (cr : Crypto) (n : Node) (b : Block) : Prop where
  first : n.chainHeight = 0
  tracked : ∃ t, n.storage.driftTracker = some t ∧ StateBackend.syncTracker t b = t
  inert : Inert cr n.storage b

/-- The block passes every check. -/
def Accepted (cr : Crypto) (f : RewardFormulas) (now : Nat) (n : Node) (b parent : Block) : Prop :=
  BlockValidator.validate cr now b parent (n.admitAuthor b).validators = .ok () ∧
    ∃ s₁ s₂ totalFees, trackDrift n.storage n.chainHeight b = (s₁, .ok ()) ∧
      executeBody cr b.header.number s₁ b.body.transactions 0 0 = (s₂, .ok totalFees) ∧
      ((settleBlock f { n.admitAuthor b with storage := s₂ } b totalFees).storage.computeStateRoot cr
        b.header.number ⟨0⟩).root = b.header.stateRoot

/-- A linked block passes every check, or its author is known and it is refused by
the validator or the drift check, or it is repeated without effect. -/
def AtomicWhen (cr : Crypto) (f : RewardFormulas) (now : Nat) (n : Node) (b : Block) : Prop :=
  ∀ parent, Linked cr n b parent →
    Accepted cr f now n b parent ∨
    (AuthorKnown n b ∧
      ((∃ e, BlockValidator.validate cr now b parent (n.admitAuthor b).validators = .error e) ∨
        (∃ e, (trackDrift n.storage n.chainHeight b).2 = .error e) ∨ Repeated cr n b))

theorem atomicWhen_of_linked (cr : Crypto) (f : RewardFormulas) (now : Nat) (n : Node) (b parent : Block)
    (h : Linked cr n b parent) :
    AtomicWhen cr f now n b ↔ Accepted cr f now n b parent ∨
      (AuthorKnown n b ∧
        ((∃ e, BlockValidator.validate cr now b parent (n.admitAuthor b).validators = .error e) ∨
          (∃ e, (trackDrift n.storage n.chainHeight b).2 = .error e) ∨ Repeated cr n b)) := by
  constructor
  · intro hw
    exact hw parent h
  · intro hw parent' h'
    obtain rfl : parent = parent' := Option.some.inj (h.current.symm.trans h'.current)
    exact hw

/-! ## Refusals, stage by stage -/

theorem validators_admitAuthor_iff (n : Node) (b : Block) :
    (n.admitAuthor b).validators = n.validators ↔ AuthorKnown n b := by
  rcases n.admitAuthor_cases b with ⟨hknown, heq⟩ | ⟨hact, hle, validators, hens, heq⟩
  · rw [heq]
    exact ⟨fun _ => hknown, fun _ => rfl⟩
  · rw [heq]
    have hne := n.validators.ensureBootstrapValidator_ne validators b.header.author 0 hact hens
    refine ⟨fun h => absurd h hne, ?_⟩
    rintro (h | h)
    · rw [hact] at h
      cases h
    · exact absurd hle (not_le.mpr h)

/-- The node after the author was admitted and some storage was written. -/
theorem unchanged_admitted_iff (n : Node) (b : Block) (s : StateBackend) :
    Unchanged n { n.admitAuthor b with storage := s } ↔
      AuthorKnown n b ∧ s.accounts = n.storage.accounts ∧ s.unbonding = n.storage.unbonding ∧
        s.vcRecords = n.storage.vcRecords ∧ s.driftTracker = n.storage.driftTracker := by
  obtain ⟨-, hheight, hcurrent⟩ := n.storage_admitAuthor b
  rw [← validators_admitAuthor_iff]
  constructor
  · intro h
    exact ⟨h.validators, h.accounts, h.unbonding, h.vcRecords, h.driftTracker⟩
  · rintro ⟨hv, ha, hu, hvc, hd⟩
    exact ⟨ha, hu, hvc, hd, hv, hheight, hcurrent⟩

theorem unchanged_admitAuthor_iff (n : Node) (b : Block) :
    Unchanged n (n.admitAuthor b) ↔ AuthorKnown n b := by
  have hs := (n.storage_admitAuthor b).1
  constructor
  · intro h
    exact ((unchanged_admitted_iff n b (n.admitAuthor b).storage).mp h).1
  · intro h
    apply (unchanged_admitted_iff n b (n.admitAuthor b).storage).mpr
    rw [hs]
    exact ⟨h, rfl, rfl, rfl, rfl⟩

theorem nonceOf_congr (s t : StateBackend) (h : s.accounts = t.accounts) (j : AccountId) :
    s.nonceOf j = t.nonceOf j := by
  unfold StateBackend.nonceOf
  rw [s.accountOrNew_congr t h j]

/-- A refused body left nothing behind just if it was refused at its first transaction. -/
theorem refused_inert_iff (cr : Crypto) (s s' : StateBackend) (b : Block)
    (hl : b.body.transactions.length < 2 ^ 64) (e : Nat × Option ExecError)
    (h : executeBody cr b.header.number s b.body.transactions 0 0 = (s', .error e)) :
    s'.accounts = s.accounts ∧ s'.unbonding = s.unbonding ↔ Inert cr s b := by
  unfold Inert
  cases htx : b.body.transactions with
  | nil =>
    rw [htx] at h
    cases h
  | cons tx txs =>
    rw [htx] at h hl
    simp only
    cases hs : (execute cr s tx b.header.number).2.success with
    | false =>
      simp only [executeBody, hs, Bool.false_eq_true, if_false, Prod.mk.injEq] at h
      obtain ⟨hacc, hiff⟩ := refused_unchanged_iff cr s tx b.header.number hs
      rw [← h.1, hiff]
      exact and_iff_right hacc
    | true =>
      have hne := nonceOf_executeBody_ne cr b.header.number s tx txs 0 0 hl hs
      rw [h] at hne
      constructor
      · intro hsame
        exact absurd (nonceOf_congr s' s hsame.1 _) hne
      · intro href
        rw [href.1] at hs
        cases hs

/-- An empty block pays its author and nobody else. -/
theorem settleBlock_empty (f : RewardFormulas) (n : Node) (b : Block) (h : b.body.transactions = []) :
    settleBlock f n b 0 =
      let reward := f.totalProducerReward n.storage b.header.author b.header.epoch 0
      { n with storage := n.storage.credit b.header.author reward } := by
  have htreasury : Word.satAdd (f.distribute 0).treasury (f.distribute 0).finalityVoters = 0 := by
    simp only [RewardFormulas.distribute, f.finalityVotersShare_zero]
    rw [Word.satAdd_of_val_zero _ _ rfl]
    apply Fin.ext
    simp
  unfold settleBlock
  rw [h]
  simp only [List.foldl_nil, applyBlockRewardsForImport_eq, htreasury, gt_iff_lt, lt_irrefl, if_false]

section PastDrift

variable (cr : Crypto) (f : RewardFormulas) (n : Node) (b : Block) (t t' : DriftTracker)
  (s₁ s₂ : StateBackend) (hl : b.body.transactions.length < 2 ^ 64)
  (ht : n.storage.driftTracker = some t) (hs₁ : s₁ = { n.storage with driftTracker := some t' })
  (hstay : t' = t ↔ n.chainHeight = 0 ∧ StateBackend.syncTracker t b = t)

include ht hs₁ hstay in
/-- The tracker is where it was just if it stood at the block before. -/
theorem tracker_stays_iff :
    s₁ = n.storage ↔ n.chainHeight = 0 ∧ ∃ t, n.storage.driftTracker = some t ∧
      StateBackend.syncTracker t b = t := by
  have hsame : s₁ = n.storage ↔ t' = t := by
    constructor
    · intro h
      have hd : s₁.driftTracker = n.storage.driftTracker := by rw [h]
      rw [hs₁, ht] at hd
      exact Option.some.inj hd
    · intro h
      rw [hs₁, h, ← ht]
  rw [hsame, hstay]
  simp [ht]

include hl ht hs₁ hstay in
/-- Refused by a transaction. -/
theorem unchanged_refused_iff (e : Nat × Option ExecError)
    (h : executeBody cr b.header.number s₁ b.body.transactions 0 0 = (s₂, .error e)) :
    Unchanged n { n.admitAuthor b with storage := s₂ } ↔ AuthorKnown n b ∧ Repeated cr n b := by
  have hframe := sameButFunds_executeBody cr b.header.number s₁ b.body.transactions 0 0
  rw [h] at hframe
  have hvc : s₂.vcRecords = s₁.vcRecords := (congrArg StateBackend.vcRecords hframe :)
  have hdt : s₂.driftTracker = s₁.driftTracker := (congrArg StateBackend.driftTracker hframe :)
  have hstays := tracker_stays_iff n b t t' s₁ ht hs₁ hstay
  rw [unchanged_admitted_iff, hdt, hvc]
  constructor
  · rintro ⟨hknown, ha, hu, -, hd⟩
    have hsame : s₁ = n.storage := by
      rw [hs₁] at hd ⊢
      rw [show some t' = n.storage.driftTracker from hd]
    obtain ⟨hfirst, htracked⟩ := hstays.mp hsame
    rw [hsame] at h
    exact ⟨hknown, hfirst, htracked, (refused_inert_iff cr n.storage s₂ b hl e h).mp ⟨ha, hu⟩⟩
  · rintro ⟨hknown, hrep⟩
    have hsame := hstays.mpr ⟨hrep.first, hrep.tracked⟩
    rw [hsame] at h
    obtain ⟨ha, hu⟩ := (refused_inert_iff cr n.storage s₂ b hl e h).mpr hrep.inert
    rw [hsame]
    exact ⟨hknown, ha, hu, rfl, rfl⟩

include ht hs₁ hstay in
/-- An empty block refused by its state root. -/
theorem unchanged_empty_iff (htx : b.body.transactions = []) :
    Unchanged n (settleBlock f { n.admitAuthor b with storage := s₁ } b 0) ↔
      AuthorKnown n b ∧ Repeated cr n b := by
  have hacc := StateBackend.accounts_credit_eq_iff s₁ b.header.author _
    (f.totalProducerReward_pos s₁ b.header.author b.header.epoch 0)
  have hstays := tracker_stays_iff n b t t' s₁ ht hs₁ hstay
  have hinert : Inert cr n.storage b ↔
      ∃ a, s₁.getAccount b.header.author = some a ∧ a.free = Word.maxVal 128 := by
    unfold Inert
    rw [htx, hs₁]
    rfl
  rw [settleBlock_empty f _ b htx, unchanged_admitted_iff]
  constructor
  · rintro ⟨hknown, ha, -, -, hd⟩
    have hsame : s₁ = n.storage := by
      rw [hs₁] at hd ⊢
      rw [show some t' = n.storage.driftTracker from hd]
    obtain ⟨hfirst, htracked⟩ := hstays.mp hsame
    refine ⟨hknown, hfirst, htracked, hinert.mpr (hacc.mp ?_)⟩
    rw [hsame] at ha ⊢
    exact ha
  · rintro ⟨hknown, hrep⟩
    have hsame := hstays.mpr ⟨hrep.first, hrep.tracked⟩
    have hcredit := hacc.mpr (hinert.mp hrep.inert)
    rw [hsame] at hcredit ⊢
    exact ⟨hknown, hcredit, rfl, rfl, rfl⟩

include hl ht hs₁ hstay in
/-- Refused by its state root. -/
theorem unchanged_mismatch_iff (totalFees : Balance)
    (h : executeBody cr b.header.number s₁ b.body.transactions 0 0 = (s₂, .ok totalFees)) :
    Unchanged n (settleBlock f { n.admitAuthor b with storage := s₂ } b totalFees) ↔
      AuthorKnown n b ∧ Repeated cr n b := by
  cases htx : b.body.transactions with
  | nil =>
    rw [htx] at h
    simp only [executeBody, Prod.mk.injEq, Except.ok.injEq] at h
    obtain ⟨rfl, rfl⟩ := h
    exact unchanged_empty_iff cr f n b t t' s₁ ht hs₁ hstay htx
  | cons tx txs =>
    -- an executed body moved a nonce, and rewards do not move it back
    have hset := settleBlock_settled f { n.admitAuthor b with storage := s₂ } b totalFees
    rw [htx] at h hl
    have hs : (execute cr s₁ tx b.header.number).2.success = true := by
      by_contra hf
      simp [executeBody, hf] at h
    have hne := nonceOf_executeBody_ne cr b.header.number s₁ tx txs 0 0 hl hs
    rw [h] at hne
    constructor
    · intro hun
      have hafter := congrArg Fin.val (hset.nonce tx.transaction.sender)
      have hbefore := nonceOf_congr _ _ hun.accounts tx.transaction.sender
      have hstart : s₁.nonceOf tx.transaction.sender = n.storage.nonceOf tx.transaction.sender := by
        rw [hs₁]
        rfl
      exact absurd (hafter.symm.trans (hbefore.trans hstart.symm)) hne
    · rintro ⟨-, hrep⟩
      have hsame := (tracker_stays_iff n b t t' s₁ ht hs₁ hstay).mpr ⟨hrep.first, hrep.tracked⟩
      have hinert := hrep.inert
      unfold Inert at hinert
      rw [htx] at hinert
      rw [hsame, hinert.1] at hs
      cases hs

end PastDrift

/-- **Past validation.**  What `applyBlock` leaves of a refused block. -/
theorem applyBlock_atomic_iff (cr : Crypto) (f : RewardFormulas) (now : Nat) (n : Node) (b parent : Block)
    (hl : b.body.transactions.length < 2 ^ 64) (hnum : b.header.number = n.chainHeight + 1)
    (hv : BlockValidator.validate cr now b parent (n.admitAuthor b).validators = .ok ()) :
    (∀ e, (applyBlock cr f (n.admitAuthor b) b).2 = .error e →
      Unchanged n (applyBlock cr f (n.admitAuthor b) b).1) ↔
    Accepted cr f now n b parent ∨
      (AuthorKnown n b ∧
        ((∃ e, (trackDrift n.storage n.chainHeight b).2 = .error e) ∨ Repeated cr n b)) := by
  obtain ⟨hstorage, hheight, -⟩ := n.storage_admitAuthor b
  rcases applyBlock_cases cr f (n.admitAuthor b) b (by rw [hheight]; exact hnum) with
    ⟨e, hdrift, happ⟩ | ⟨t, t', s₁, s₂, r, ht, hs₁, hstay, hdrift, hx, hrest⟩
  · rw [hstorage, hheight] at hdrift
    rw [happ]
    simp [Accepted, hdrift, unchanged_admitAuthor_iff]
  · rw [hstorage] at ht hs₁
    rw [hheight] at hstay
    rw [hstorage, hheight] at hdrift
    rcases hrest with ⟨e, rfl, happ⟩ | ⟨totalFees, rfl, happ⟩
    · have hiff := unchanged_refused_iff cr n b t t' s₁ s₂ hl ht hs₁ hstay e hx
      rw [happ]
      simp [Accepted, hdrift, hx, hiff]
    · have hiff := unchanged_mismatch_iff cr f n b t t' s₁ s₂ hl ht hs₁ hstay totalFees hx
      rw [happ]
      rcases commitBlock_cases cr (settleBlock f { n.admitAuthor b with storage := s₂ } b totalFees) b with
        ⟨hroot, e, hcommit⟩ | ⟨hroot, storage, hcommit, -⟩
      · rw [hcommit]
        simp [Accepted, hdrift, hx, hroot, hiff]
      · rw [hcommit]
        simp [Accepted, hdrift, hx, hroot, hv]

/-- **Atomicity of import.**  A failed import leaves accounts, unbonding and VC
records, drift tracker, validator set, height and current block as they were
just if the block is not linked, passes every check, or is refused before
anything was written for it. -/
theorem atomic_iff (cr : Crypto) (f : RewardFormulas) (now : Nat) (n : Node) (b : Block)
    (hl : b.body.transactions.length < 2 ^ 64) : Atomic cr f now n b ↔ AtomicWhen cr f now n b := by
  by_cases hlink : ∃ parent, Linked cr n b parent
  · obtain ⟨parent, hlink⟩ := hlink
    rw [atomicWhen_of_linked cr f now n b parent hlink]
    unfold Atomic
    rw [importBlock_linked cr f now n b parent hlink]
    cases hv : BlockValidator.validate cr now b parent (n.admitAuthor b).validators with
    | error e =>
      simp [unchanged_admitAuthor_iff, Accepted, hv]
    | ok u =>
      have hiff := applyBlock_atomic_iff cr f now n b parent hl hlink.number hv
      simpa using hiff
  · have hnone : ∀ parent, ¬ Linked cr n b parent := fun parent h => hlink ⟨parent, h⟩
    constructor
    · intro _ parent h
      exact absurd h (hnone parent)
    · intro _ e _
      rw [importBlock_unlinked cr f now n b hnone]
      exact ⟨rfl, rfl, rfl, rfl, rfl, rfl, rfl⟩

/-! ## Two refused blocks -/

/-- A node at genesis with one bootstrap validator. -/
def sampleNode : Node :=
  { storage := StateBackend.new.initDriftTracker 0
    validators := (ValidatorSet.new.addValidator (.newBootstrap ⟨1⟩ 0)).toOption.getD .new
    chainHeight := 0
    currentBlock := some sampleGenesis }

/-- An empty block of that validator. -/
def sampleBlock (timestamp slot : Nat) (stateRoot : Hash) : Block :=
  { header := { sampleHeader with number := 1, parentHash := sampleGenesis.hash Crypto.sample
                                  timestamp, slot, stateRoot }
    body := { transactions := [] } }

/-- Refused by the validator for its timestamp: nothing changes. -/
theorem atomic_old_timestamp :
    (sampleBlock 0 0 ⟨7⟩).body.transactions.length < 2 ^ 64 ∧
    (importBlock Crypto.sample RewardFormulas.sample 6 sampleNode (sampleBlock 0 0 ⟨7⟩)).2 =
      .error (.blockValidationFailed (.timestampNotAfterParent 0 0)) ∧
    Atomic Crypto.sample RewardFormulas.sample 6 sampleNode (sampleBlock 0 0 ⟨7⟩) := by
  refine ⟨by decide, by decide +kernel, ?_⟩
  apply (atomic_iff Crypto.sample RewardFormulas.sample 6 sampleNode (sampleBlock 0 0 ⟨7⟩) (by decide)).mpr
  intro parent h
  obtain rfl : sampleGenesis = parent := Option.some.inj h.current
  exact Or.inr ⟨Or.inl (by decide +kernel), Or.inl ⟨.timestampNotAfterParent 0 0, by decide +kernel⟩⟩

/-- Refused for its state root, after the author was credited and the tracker moved. -/
theorem not_atomic_wrong_root :
    (importBlock Crypto.sample RewardFormulas.sample 6 sampleNode (sampleBlock 6 1 ⟨7⟩)).2.isOk = false ∧
    ¬ Atomic Crypto.sample RewardFormulas.sample 6 sampleNode (sampleBlock 6 1 ⟨7⟩) := by
  have herr : (importBlock Crypto.sample RewardFormulas.sample 6 sampleNode
      (sampleBlock 6 1 ⟨7⟩)).2.isOk = false := by decide +kernel
  have hacc : (importBlock Crypto.sample RewardFormulas.sample 6 sampleNode
      (sampleBlock 6 1 ⟨7⟩)).1.storage.accounts ≠ sampleNode.storage.accounts := by decide +kernel
  refine ⟨herr, ?_⟩
  intro hatomic
  cases hr : (importBlock Crypto.sample RewardFormulas.sample 6 sampleNode (sampleBlock 6 1 ⟨7⟩)).2 with
  | ok u =>
    rw [hr] at herr
    cases herr
  | error e => exact hacc (hatomic e hr).accounts

end Node

end Kratos
