import Kratos.Lib.Run
import Kratos.Node.Genesis
import Kratos.Node.Import

/-!
# Validator stake and reserved balances

A validator's stake is recorded in the validator set, its funds in the reserved
balance of its account.  Import never raises a stake and lowers a reserved
balance in one place only: a successful `Unstake` takes its amount from the
sender and does not look at the validator set.  One execution therefore keeps
the stakes backed just if it is not an unstake that reaches into the sender's
stake (`backed_execute_iff`), and a run of imports keeps them backed if none of
its transactions is (`stakes_backed_run`).
-/

namespace Kratos

open TransactionExecutor Node

/-! ## Reserved balances -/

namespace TransactionExecutor

/-- A call leaves the reserved balances of the state, and lowers the sender's only if it unstakes. -/
theorem reserved_callOk (s s' : StateBackend) (sender : AccountId) (call : TransactionCall)
    (a a' : AccountInfo) (block : Nat) (h : CallOk s sender block a call s' a') :
    (∀ j, (s'.accountOrNew j).reserved = (s.accountOrNew j).reserved) ∧
    ((∃ amount, call = .unstake amount ∧ amount.val ≤ a.reserved.val ∧
        a'.reserved.val = a.reserved.val - amount.val) ∨
      ((∀ amount, call ≠ .unstake amount) ∧ a.reserved.val ≤ a'.reserved.val)) := by
  cases h with
  | transfer toId amount hle =>
    refine ⟨fun j => ?_, Or.inr ⟨nofun, le_rfl⟩⟩
    rw [StateBackend.accountOrNew_setAccount]
    split
    · next hj =>
      rw [hj]
      rfl
    · rfl
  | reserve _ hres hle =>
    refine ⟨fun j => rfl, Or.inr ⟨?_, ?_⟩⟩
    · rintro amount rfl
      cases hres
    · have ha := a.reserved.isLt
      simp only [Word.val_satAdd]
      omega
  | unstake amount hle => exact ⟨fun j => rfl, Or.inl ⟨amount, rfl, hle, rfl⟩⟩
  | withdraw hne =>
    refine ⟨fun j => ?_, Or.inr ⟨nofun, le_rfl⟩⟩
    rw [s.accountOrNew_withdrawMaturedUnbonding]
  | feeOnly _ hfo =>
    refine ⟨fun j => rfl, Or.inr ⟨?_, le_rfl⟩⟩
    rintro amount rfl
    cases hfo

/-- **What one execution does to the reserved balances.**  Nothing if it fails;
if it succeeds, the sender's falls by the amount of an unstake and does not fall
otherwise. -/
theorem reserved_execute (cr : Crypto) (s : StateBackend) (tx : SignedTransaction) (block : Nat) :
    ((execute cr s tx block).2.success = false ∧
      ∀ j, ((execute cr s tx block).1.accountOrNew j).reserved = (s.accountOrNew j).reserved) ∨
    ((∃ a, Admitted cr s tx a) ∧
      (∀ j, j ≠ tx.transaction.sender →
        ((execute cr s tx block).1.accountOrNew j).reserved = (s.accountOrNew j).reserved) ∧
      ((∃ amount, tx.transaction.call = .unstake amount ∧
          amount.val ≤ (s.accountOrNew tx.transaction.sender).reserved.val ∧
          ((execute cr s tx block).1.accountOrNew tx.transaction.sender).reserved.val =
            (s.accountOrNew tx.transaction.sender).reserved.val - amount.val) ∨
        ((∀ amount, tx.transaction.call ≠ .unstake amount) ∧
          (s.accountOrNew tx.transaction.sender).reserved.val ≤
            ((execute cr s tx block).1.accountOrNew tx.transaction.sender).reserved.val))) := by
  rcases execute_cases cr s tx block with ⟨a, s', a', hadm, hcall, hex⟩ | ⟨s', e, hex, hfail⟩
  · right
    obtain ⟨hj, hsender⟩ := reserved_callOk _ _ _ _ _ _ _ hcall
    rw [hex]
    refine ⟨⟨a, hadm⟩, fun j hne => ?_, ?_⟩
    · simp only [StateBackend.accountOrNew_setAccount, if_neg hne]
      exact hj j
    · simp only [StateBackend.accountOrNew_setAccount, if_true, settle,
        s.accountOrNew_of_found _ _ hadm.found]
      exact hsender
  · left
    rw [hex]
    refine ⟨rfl, fun j => ?_⟩
    rcases hfail with rfl | ⟨-, -, -, rfl⟩
    · rfl
    · rw [s.accountOrNew_withdrawMaturedUnbonding]

end TransactionExecutor

/-! ## Transactions -/

/-- An unstake that is admitted and covered by the sender's reserved balance leaves the
stake of every entry of the sender. -/
def SparesStake (cr : Crypto) (validators : ValidatorSet) (s : StateBackend) (tx : SignedTransaction) :
    Prop :=
  ∀ a amount, Admitted cr s tx a → tx.transaction.call = .unstake amount →
    amount.val ≤ a.reserved.val → ∀ info ∈ validators.validators.values,
      info.id = tx.transaction.sender → amount.val + info.stake.val ≤ a.reserved.val

theorem sparesStake_of_reserved (cr : Crypto) (validators : ValidatorSet) (s : StateBackend)
    (tx : SignedTransaction)
    (h : ∀ amount, tx.transaction.call = .unstake amount → ∀ info ∈ validators.validators.values,
      info.id = tx.transaction.sender →
        amount.val + info.stake.val ≤ (s.accountOrNew tx.transaction.sender).reserved.val) :
    SparesStake cr validators s tx := by
  intro a amount hadm hcall _ info hi hid
  rw [← s.accountOrNew_of_found _ _ hadm.found]
  exact h amount hcall info hi hid

theorem execute_unstake_success (cr : Crypto) (s : StateBackend) (tx : SignedTransaction) (block : Nat)
    (a : AccountInfo) (amount : Balance) (hadm : Admitted cr s tx a)
    (hcall : tx.transaction.call = .unstake amount) (hle : amount.val ≤ a.reserved.val) :
    (execute cr s tx block).2.success = true := by
  have hres : ¬ a.reserved < amount := not_lt.mpr hle
  apply execute_success_of_dispatch cr s tx block a hadm
  simp only [hcall, dispatch, executeUnstake, hres, if_false]
  rfl

/-- **Step.**  Backed stakes stay backed just if the transaction spares them. -/
theorem backed_execute_iff (cr : Crypto) (validators : ValidatorSet) (s : StateBackend)
    (tx : SignedTransaction) (block : Nat) (h : validators.Backed s) :
    validators.Backed (execute cr s tx block).1 ↔ SparesStake cr validators s tx := by
  rcases reserved_execute cr s tx block with ⟨hs, hsame⟩ | ⟨⟨a, hadm⟩, hother, hsender⟩
  · constructor
    · intro _ a amount hadm hcall hle
      have hs' := execute_unstake_success cr s tx block a amount hadm hcall hle
      rw [hs] at hs'
      cases hs'
    · intro _ info hi
      rw [hsame]
      exact h info hi
  · rw [s.accountOrNew_of_found _ _ hadm.found] at hsender
    constructor
    · intro hback b amount hadm' hcall hle info hi hid
      obtain rfl : a = b := Option.some.inj (hadm.found.symm.trans hadm'.found)
      rcases hsender with ⟨amount', hcall', -, hres⟩ | ⟨hno, -⟩
      · obtain rfl : amount = amount' := by
          rw [hcall] at hcall'
          exact TransactionCall.unstake.inj hcall'
        have hstake := hback info hi
        rw [hid, hres] at hstake
        omega
      · exact absurd hcall (hno amount)
    · intro hspare info hi
      by_cases hid : info.id = tx.transaction.sender
      · rcases hsender with ⟨amount, hcall, hle, hres⟩ | ⟨-, hle⟩
        · have hstake := hspare a amount hadm hcall hle info hi hid
          rw [hid, hres]
          omega
        · have hstake := h info hi
          rw [hid, s.accountOrNew_of_found _ _ hadm.found] at hstake
          rw [hid]
          exact le_trans hstake hle
      · rw [hother info.id hid]
        exact h info hi

/-- Every transaction of the block spares the stakes, in the state it is executed in. -/
def BlockSparesStake (cr : Crypto) (n : Node) (b : Block) : Prop :=
  Run.Meets (fun s tx => (execute cr s tx b.header.number).1)
    (SparesStake cr n.validators) n.storage b.body.transactions

theorem backed_executeBody (cr : Crypto) (validators : ValidatorSet) (block : Nat) (s : StateBackend)
    (txs : List SignedTransaction) (idx : Nat) (totalFees : Balance) (h : validators.Backed s)
    (hm : Run.Meets (fun s tx => (execute cr s tx block).1) (SparesStake cr validators) s txs) :
    validators.Backed (executeBody cr block s txs idx totalFees).1 := by
  induction txs generalizing s idx totalFees with
  | nil => exact h
  | cons tx txs ih =>
    have hstep := (backed_execute_iff cr validators s tx block h).mpr hm.1
    simp only [executeBody]
    split
    · exact ih _ _ _ hstep hm.2
    · exact hstep

/-- The condition does not depend on the drift tracker, which moves before the body is executed. -/
theorem meets_driftTracker (cr : Crypto) (validators : ValidatorSet) (block : Nat) (s : StateBackend)
    (d : Option DriftTracker) (txs : List SignedTransaction)
    (hm : Run.Meets (fun s tx => (execute cr s tx block).1) (SparesStake cr validators) s txs) :
    Run.Meets (fun s tx => (execute cr s tx block).1) (SparesStake cr validators)
      { s with driftTracker := d } txs := by
  refine Run.meets_of_rel _ _ (SameButDust block) ?_ ?_ s _ txs ⟨rfl, rfl, fun _ => rfl⟩ hm
  · intro s t tx h
    exact (execute_sameButDust cr block s t h tx).1
  · intro s t tx h hspare a amount hadm
    have hfound : s.getAccount tx.transaction.sender = some a := by
      rw [h.getAccount]
      exact hadm.found
    exact hspare a amount ⟨hadm.verified, hfound, hadm.nonce, hadm.fee⟩

/-! ## Blocks and runs -/

/-- The stakes of the validator set are backed by the accounts. -/
def Node.StakesBacked (n : Node) : Prop := n.validators.Backed n.storage

theorem keepsStakes_admitAuthor (n : Node) (b : Block) :
    ValidatorSet.KeepsStakes n.validators (n.admitAuthor b).validators := by
  rcases n.admitAuthor_cases b with ⟨-, heq⟩ | ⟨-, -, validators, hens, heq⟩
  · rw [heq]
    exact ValidatorSet.KeepsStakes.of_eq _ _ rfl
  · rw [heq]
    exact ValidatorSet.keepsStakes_ensureBootstrapValidator _ _ _ _ hens

/-- Votes, rewards and storing the block keep backed stakes backed. -/
theorem stakesBacked_commit (cr : Crypto) (f : RewardFormulas) (n : Node) (b : Block) (totalFees : Balance)
    (h : n.StakesBacked) : (commitBlock cr (settleBlock f n b totalFees) b).1.StakesBacked := by
  have hset := settleBlock_settled f n b totalFees
  have hsettled : (settleBlock f n b totalFees).StakesBacked :=
    ValidatorSet.Backed.mono _ n.storage _ (ValidatorSet.Backed.of_keepsStakes _ _ _ h hset.stakes)
      fun j => by rw [hset.reserved j]
  rcases commitBlock_cases cr (settleBlock f n b totalFees) b with
    ⟨-, e, hcommit⟩ | ⟨-, storage, hcommit, hacc⟩
  · rw [hcommit]
    exact hsettled
  · rw [hcommit]
    refine ValidatorSet.Backed.mono _ _ _ hsettled fun j => ?_
    simp only [StateBackend.accountOrNew, StateBackend.getAccount, hacc, le_refl]

/-- **Block.**  Importing a block that spares the stakes keeps them backed, whether
the block is accepted or refused. -/
theorem stakesBacked_importBlock (cr : Crypto) (f : RewardFormulas) (now : Nat) (n : Node) (b : Block)
    (h : n.StakesBacked) (hspare : BlockSparesStake cr n b) :
    (importBlock cr f now n b).1.StakesBacked := by
  by_cases hlink : ∃ parent, Node.Linked cr n b parent
  · obtain ⟨parent, hlink⟩ := hlink
    obtain ⟨hstorage, hheight, -⟩ := n.storage_admitAuthor b
    have hauthor : ∀ s, n.validators.Backed s → (n.admitAuthor b).validators.Backed s := fun s hs =>
      ValidatorSet.Backed.of_keepsStakes _ _ s hs (keepsStakes_admitAuthor n b)
    rw [importBlock_linked cr f now n b parent hlink]
    split
    · unfold Node.StakesBacked
      rw [hstorage]
      exact hauthor _ h
    · rcases applyBlock_cases cr f (n.admitAuthor b) b (by rw [hheight]; exact hlink.number) with
        ⟨e, -, happ⟩ | ⟨t, t', s₁, s₂, r, -, hs₁, -, -, hx, hrest⟩
      · rw [happ]
        unfold Node.StakesBacked
        rw [hstorage]
        exact hauthor _ h
      · rw [hstorage] at hs₁
        have hbody : n.validators.Backed s₂ := by
          have hmeets := meets_driftTracker cr n.validators b.header.number n.storage (some t')
            b.body.transactions hspare
          rw [← hs₁] at hmeets
          have hstart : n.validators.Backed s₁ := by
            rw [hs₁]
            exact h
          have hend := backed_executeBody cr n.validators b.header.number s₁ b.body.transactions 0 0
            hstart hmeets
          rwa [hx] at hend
        rcases hrest with ⟨e, -, happ⟩ | ⟨totalFees, -, happ⟩
        · rw [happ]
          exact hauthor _ hbody
        · rw [happ]
          exact stakesBacked_commit cr f { n.admitAuthor b with storage := s₂ } b totalFees (hauthor _ hbody)
  · rw [importBlock_unlinked cr f now n b fun parent hp => hlink ⟨parent, hp⟩]
    exact h

/-- **Stake stays backed.**  Start from a genesis whose validators' stakes are
reserved and import any blocks none of whose unstakes reaches into its sender's
stake: in every state on the way each entry's stake is reserved on its account. -/
theorem stakes_backed_run (cr : Crypto) (f : RewardFormulas) (n : Node) (inputs : List (Nat × Block))
    (h : n.StakesBacked)
    (hm : Run.Meets (importStep cr f) (fun n input => BlockSparesStake cr n input.2) n inputs) (k : Nat) :
    ((inputs.take k).foldl (importStep cr f) n).StakesBacked :=
  Run.inv_foldl (importStep cr f) (fun n input => BlockSparesStake cr n input.2) Node.StakesBacked
    (fun n input hn hspare => stakesBacked_importBlock cr f input.1 n input.2 hn hspare) n _ h
    (Run.meets_take _ _ n inputs hm k)

/-! ## A validator that unstakes -/

/-- Genesis with one validator: 60 000 KRAT, of which the minimum stake is reserved. -/
def sampleReceived : StateBackend × Except GenesisError ValidatorSet :=
  applyReceivedGenesisState Crypto.sample (StateBackend.new.initDriftTracker 0)
    [{ account := ⟨1⟩, stake := minValidatorStake, isBootstrapValidator := false }]
    [(⟨1⟩, 60000 * krat)]
    (StateBackend.computeStateRoot Crypto.sample
      (StateBackend.new.setAccount ⟨1⟩ { AccountInfo.new with
        free := 10000 * krat, reserved := minValidatorStake }) 0 ⟨0⟩).root

def sampleStakedNode : Node :=
  { storage := sampleReceived.1, validators := sampleReceived.2.toOption.getD .new
    chainHeight := 0, currentBlock := some sampleGenesis }

theorem sampleStakedNode_backed : sampleStakedNode.StakesBacked := by
  have hok : sampleReceived.2.isOk = true := by decide +kernel
  cases hv : sampleReceived.2 with
  | error e =>
    rw [hv] at hok
    cases hok
  | ok v =>
    have hback : v.Backed sampleReceived.1 := backed_applyReceivedGenesisState _ _ _ _ _ v hv
    simp only [Node.StakesBacked, sampleStakedNode, hv]
    exact hback

def sampleCall (nonce : Nonce) (call : TransactionCall) : SignedTransaction :=
  { transaction := { sender := ⟨1⟩, nonce, call, timestamp := 0 }
    signature := Signature64.zero, hash? := none }

/-- The next block of the validator, with calls of its own; the fees are 5000 each. -/
def sampleOwnBlock (txs : List SignedTransaction) (totalFees : Balance) : Block :=
  let executed := (executeBody Crypto.sample 1 sampleStakedNode.storage txs 0 0).1
  let rewarded := (applyBlockRewardsForImport RewardFormulas.sample executed ⟨1⟩ 0 totalFees).1
  { header := { sampleHeader with number := 1, parentHash := sampleGenesis.hash Crypto.sample
                                  timestamp := 6, slot := 1
                                  transactionsRoot := computeTransactionsRoot Crypto.sample txs
                                  stateRoot := (rewarded.computeStateRoot Crypto.sample 1 ⟨0⟩).root }
    body := { transactions := txs } }

/-- Five KRAT more are staked and three of them unstaked. -/
def sampleSpares : Block :=
  sampleOwnBlock [sampleCall 0 (.stake (5 * krat)), sampleCall 1 (.unstake (3 * krat))] 10000

/-- One unit of the stake itself is unstaked. -/
def sampleUnstakes : Block := sampleOwnBlock [sampleCall 0 (.unstake 1)] 5000

theorem sampleSpares_spares : BlockSparesStake Crypto.sample sampleStakedNode sampleSpares := by
  refine ⟨?_, ?_, trivial⟩
  · intro a amount _ hcall
    cases hcall
  · apply sparesStake_of_reserved
    intro amount hcall
    cases hcall
    decide +kernel

/-- The block is imported, and the stakes are backed before and after. -/
theorem stakes_backed_spared :
    sampleStakedNode.StakesBacked ∧ BlockSparesStake Crypto.sample sampleStakedNode sampleSpares ∧
    (importBlock Crypto.sample RewardFormulas.sample 6 sampleStakedNode sampleSpares).2 = .ok () ∧
    (importStep Crypto.sample RewardFormulas.sample sampleStakedNode (6, sampleSpares)).StakesBacked :=
  ⟨sampleStakedNode_backed, sampleSpares_spares, by decide +kernel,
    stakes_backed_run Crypto.sample RewardFormulas.sample sampleStakedNode [(6, sampleSpares)]
      sampleStakedNode_backed ⟨sampleSpares_spares, trivial⟩ 1⟩

/-- **An unstake reaches into the stake.**  The genesis is backed and the block is
valid, but afterwards the validator's entry has more stake than its account
reserves. -/
theorem stakes_not_backed_unstaked :
    sampleStakedNode.StakesBacked ∧
    (importBlock Crypto.sample RewardFormulas.sample 6 sampleStakedNode sampleUnstakes).2 = .ok () ∧
    ¬ (importStep Crypto.sample RewardFormulas.sample sampleStakedNode (6, sampleUnstakes)).StakesBacked := by
  refine ⟨sampleStakedNode_backed, by decide +kernel, ?_⟩
  intro h
  have hmem : ValidatorInfo.new ⟨1⟩ minValidatorStake 0 ∈ (importStep Crypto.sample RewardFormulas.sample
      sampleStakedNode (6, sampleUnstakes)).validators.validators.values := by decide +kernel
  have hlt : ¬ (ValidatorInfo.new ⟨1⟩ minValidatorStake 0).stake.val ≤ ((importStep Crypto.sample
      RewardFormulas.sample sampleStakedNode (6, sampleUnstakes)).storage.accountOrNew
        (ValidatorInfo.new ⟨1⟩ minValidatorStake 0).id).reserved.val := by decide +kernel
  exact hlt (h _ hmem)

end Kratos
