import Kratos.Node.Atomicity
import Kratos.Node.RewardSupply
import Kratos.Node.Selection
import Kratos.Node.Supply
import Kratos.Storage.StateRoot
import Mathlib.Data.Prod.Lex

/-!
# The block producer

`BlockProducer.produceBlock` selects, executes, pays the rewards, signs;
`BlockProducer.validateAndImport` is the same type's import of a block from the network.
The import validates the block and executes its body, and it pays no rewards.  So the state
root it computes is the one from before the producer's payments.

Execution never refuses a produced block.  `own_block_accepted_iff` says when the state root
does: whenever the payments changed an account.
-/

namespace Kratos

open TransactionExecutor

/-! ## Confirmations -/

/-- Blocks are final a number of confirmations below the highest one. -/
structure FinalityTracker where
  finalizedBlock : Nat
  finalizedHash : Hash
  pendingFinality : SortedMap Nat Hash
  confirmationsRequired : Nat
deriving DecidableEq

namespace FinalityTracker

def new (genesisHash : Hash) (confirmations : Nat) : FinalityTracker :=
  { finalizedBlock := 0, finalizedHash := genesisHash, pendingFinality := .empty
    confirmationsRequired := confirmations }

def default : FinalityTracker := new Hash.zero 6

/-- One block that can be finalized. -/
def finalize (t : FinalityTracker) (e : Nat × Hash) : FinalityTracker :=
  if e.1 > t.finalizedBlock then { t with finalizedBlock := e.1, finalizedHash := e.2 } else t

def updateFinality (t : FinalityTracker) : FinalityTracker :=
  match t.pendingFinality.keys.getLast? with
  | none => t
  | some latest =>
    let finalityThreshold := latest - t.confirmationsRequired
    let toFinalize := t.pendingFinality.entries.filter fun e => decide (e.1 ≤ finalityThreshold)
    let t := toFinalize.foldl finalize t
    { t with pendingFinality := toFinalize.foldl (fun m e => m.erase e.1) t.pendingFinality }

def addBlock (t : FinalityTracker) (number : Nat) (hash : Hash) : FinalityTracker :=
  updateFinality { t with pendingFinality := t.pendingFinality.insert number hash }

end FinalityTracker

/-! ## The producer -/

/-- What the two functions can fail with on a working database. -/
inductive ProductionError where
  | noValidatorKey
  | alreadySignedThisSlot
  | executionError (txHash : Hash) (error : Option ExecError)
  | validationError (e : ValidationError)
  | stateRootMismatch (expected computed : Hash)
deriving DecidableEq, Repr

/-- The default configuration's limit. -/
def maxTransactionsPerBlock : Nat := 1000

/-- A signing key is the function that signs with it. -/
structure BlockProducer where
  validatorKey : Option (List UInt8 → Signature64)
  signedSlots : SortedMap (Nat ×ₗ Nat) Hash
  finality : FinalityTracker

/-- A producer with the pool and the state it works on. -/
structure ProducingNode where
  producer : BlockProducer
  mempool : TransactionPool
  state : StateBackend

namespace BlockProducer

def new (validatorKey : Option (List UInt8 → Signature64)) : BlockProducer :=
  { validatorKey, signedSlots := .empty, finality := .default }

def hasSignedSlot (bp : BlockProducer) (epoch slot : Nat) : Bool := bp.signedSlots.contains (toLex (epoch, slot))

def markSlotAsSigned (bp : BlockProducer) (epoch slot : Nat) (blockHash : Hash) : BlockProducer :=
  { bp with signedSlots := bp.signedSlots.insert (toLex (epoch, slot)) blockHash }

/-- The time of a slot, counted from genesis; without a tracker, from the local clock. -/
def slotTimestamp (now : Nat) (state : StateBackend) (slot : Nat) : Nat :=
  Word.satAdd64 ((state.driftTracker.map DriftTracker.genesisTimestamp).getD now)
    (Word.satMul64 slot slotDurationSecs)

/-- The header without its signature. -/
def unsignedHeader (cr : Crypto) (now : Nat) (parent : Block) (p : Produced) (author : AccountId)
    (epoch slot : Nat) : BlockHeader :=
  { number := parent.header.number + 1
    parentHash := parent.hash cr
    transactionsRoot := computeTransactionsRoot cr p.transactions
    stateRoot := p.stateRoot.root
    timestamp := slotTimestamp now p.state slot
    epoch, slot, author
    signature := Signature64.zero }

def signHeader (cr : Crypto) (sign : List UInt8 → Signature64) (header : BlockHeader) : BlockHeader :=
  { header with signature := sign (domainSeparate domainBlockHeader (header.hash cr).asBytes) }

def produceBlock (cr : Crypto) (f : RewardFormulas) (order : PopOrder PrioritizedTx.cmp) (now : Nat)
    (n : ProducingNode) (parent : Block) (validatorId : AccountId) (epoch slot : Nat) :
    ProducingNode × Except ProductionError Block :=
  let blockNumber := parent.header.number + 1
  if n.producer.hasSignedSlot epoch slot then (n, .error .alreadySignedThisSlot)
  else
    match n.producer.validatorKey with
    | none => (n, .error .noValidatorKey)
    | some sign =>
      let transactions := n.mempool.selectTransactionsWithState order maxTransactionsPerBlock n.state
      let p := Kratos.produceBlock cr f n.state transactions validatorId epoch blockNumber
      let header := signHeader cr sign (unsignedHeader cr now parent p validatorId epoch slot)
      let block : Block := { header, body := { transactions := p.transactions } }
      let producer := n.producer.markSlotAsSigned epoch slot (block.hash cr)
      let producer := { producer with finality := producer.finality.addBlock blockNumber (block.hash cr) }
      ({ producer, mempool := n.mempool.removeIncluded block.body.transactions, state := p.state }, .ok block)

/-- The execution loop of the import: hash and error of the first transaction that fails. -/
def executeTransactions (cr : Crypto) (blockNumber : Nat) : StateBackend → List SignedTransaction →
    StateBackend × Except (Hash × Option ExecError) Unit
  | s, [] => (s, .ok ())
  | s, tx :: txs =>
    let r := execute cr s tx blockNumber
    if r.2.success then executeTransactions cr blockNumber r.1 txs
    else (r.1, .error (tx.hash cr, r.2.error))

def validateAndImport (cr : Crypto) (now : Nat) (n : ProducingNode) (block parent : Block)
    (validatorSet : ValidatorSet) : ProducingNode × Except ProductionError Unit :=
  match BlockValidator.validate cr now block parent validatorSet with
  | .error e => (n, .error (.validationError e))
  | .ok () =>
    match executeTransactions cr block.header.number n.state block.body.transactions with
    | (s, .error (txHash, error)) => ({ n with state := s }, .error (.executionError txHash error))
    | (s, .ok ()) =>
      let root := s.computeStateRoot cr block.header.number ⟨0⟩
      let n := { n with state := s.storeStateRoot block.header.number root }
      if root.root ≠ block.header.stateRoot then
        (n, .error (.stateRootMismatch block.header.stateRoot root.root))
      else
        let finality := n.producer.finality.addBlock block.header.number (block.hash cr)
        ({ n with producer := { n.producer with finality }
                  mempool := n.mempool.removeIncluded block.body.transactions }, .ok ())

/-! ## What execution leaves for the import -/

/-- The import's loop does what the loop of `import_block` does, without counting fees. -/
theorem executeTransactions_of_body (cr : Crypto) (block : Nat) (s t : StateBackend)
    (txs : List SignedTransaction) (idx : Nat) (totalFees fees : Balance)
    (h : executeBody cr block s txs idx totalFees = (t, .ok fees)) :
    executeTransactions cr block s txs = (t, .ok ()) := by
  induction txs generalizing s idx totalFees with
  | nil =>
    simp only [executeBody, Prod.mk.injEq] at h
    rw [← h.1]
    rfl
  | cons tx txs ih =>
    unfold executeBody at h
    unfold executeTransactions
    simp only at h ⊢
    split at h
    · next hs =>
      rw [if_pos hs]
      exact ih _ _ _ h
    · cases h

/-- Only transactions that verify are kept. -/
theorem verify_of_mem_kept (cr : Crypto) (block : Nat) (s : StateBackend) (txs : List SignedTransaction)
    (tx : SignedTransaction) (h : tx ∈ (executeSelected cr block s txs).2.1) : tx.verify cr = true := by
  induction txs generalizing s with
  | nil => cases h
  | cons tx' txs ih =>
    simp only [executeSelected] at h
    split at h
    · next hs =>
      rcases List.mem_cons.mp h with rfl | h
      · rcases execute_cases cr s tx block with ⟨a, s', a', hadm, -, -⟩ | ⟨s', e, hex, -⟩
        · exact hadm.verified
        · rw [hex] at hs
          cases hs
      · exact ih _ h
    · exact ih _ h

theorem driftTracker_executeSelected (cr : Crypto) (block : Nat) (s : StateBackend)
    (txs : List SignedTransaction) :
    (executeSelected cr block s txs).1.driftTracker = s.driftTracker := by
  induction txs generalizing s with
  | nil => rfl
  | cons tx txs ih =>
    simp only [executeSelected]
    rw [ih]
    exact (congrArg StateBackend.driftTracker (sameButFunds_execute cr s tx block) :)

/-- A run never creates anything. -/
theorem supply_executeSelected_le (cr : Crypto) (block : Nat) (s : StateBackend)
    (txs : List SignedTransaction) (hs : s.supply < 2 ^ 128) :
    (executeSelected cr block s txs).1.supply ≤ s.supply := by
  induction txs generalizing s with
  | nil => exact Nat.le_refl _
  | cons tx txs ih =>
    have hle := supply_execute_le cr s tx block hs
    have hrec := ih (execute cr s tx block).1 (by omega)
    simp only [executeSelected]
    omega

/-! ## What the rewards change -/

/-- The treasury's part of the fees, with the voters' share that nobody claims. -/
def treasuryAmount (f : RewardFormulas) (totalFees : Balance) : Balance :=
  Word.satAdd (f.distribute totalFees).treasury (f.distribute totalFees).finalityVoters

/-- Nobody has room for its payment: the rewards are lost. -/
def RewardsLost (f : RewardFormulas) (s : StateBackend) (validatorId : AccountId) (totalFees : Balance) : Prop :=
  (s.accountOrNew validatorId).free = Word.maxVal 128 ∧
    (treasuryAmount f totalFees = 0 ∨ (s.accountOrNew treasuryAccount).free = Word.maxVal 128)

instance (f : RewardFormulas) (s : StateBackend) (validatorId : AccountId) (totalFees : Balance) :
    Decidable (RewardsLost f s validatorId totalFees) :=
  inferInstanceAs (Decidable (_ ∧ _))

theorem distributeProduced_eq (f : RewardFormulas) (s : StateBackend) (validatorId : AccountId) (epoch : Nat)
    (totalFees : Balance) :
    distributeProduced f s validatorId epoch totalFees =
      if treasuryAmount f totalFees > 0 then
        (s.credit validatorId (f.totalProducerReward s validatorId epoch totalFees)).credit treasuryAccount
          (treasuryAmount f totalFees)
      else s.credit validatorId (f.totalProducerReward s validatorId epoch totalFees) := by
  have hpos := f.totalProducerReward_pos s validatorId epoch totalFees
  simp only [distributeProduced, gt_iff_lt, hpos, true_or, if_true]
  rfl

theorem sumFree_of_values (s t : StateBackend) (h : s.accounts.values = t.accounts.values) :
    s.sumFree = t.sumFree := by
  have hsum : ∀ m : SortedMap AccountId AccountInfo,
      m.sumOf (fun _ a => a.free.val) = (m.values.map fun a => a.free.val).sum := by
    intro m
    simp only [SortedMap.sumOf, SortedMap.values, List.map_map]
    rfl
  unfold StateBackend.sumFree
  rw [hsum, hsum, h]

/-- An account at the maximum gains nothing. -/
theorem accounts_credit_full (s : StateBackend) (id : AccountId) (amount : Balance) (h : 0 < amount)
    (hfull : (s.accountOrNew id).free = Word.maxVal 128) : (s.credit id amount).accounts = s.accounts := by
  apply (s.accounts_credit_eq_iff id amount h).2
  cases hg : s.getAccount id with
  | none =>
    unfold StateBackend.accountOrNew at hfull
    rw [hg] at hfull
    exact absurd hfull (by decide)
  | some a => exact ⟨a, rfl, by rw [← hfull, s.accountOrNew_of_found id a hg]⟩

/-- **The rewards leave the records alone** only if they are lost. -/
theorem values_distributeProduced_iff (f : RewardFormulas) (s : StateBackend) (validatorId : AccountId)
    (epoch : Nat) (totalFees : Balance) :
    (distributeProduced f s validatorId epoch totalFees).accounts.values = s.accounts.values ↔
      RewardsLost f s validatorId totalFees := by
  have hpos := f.totalProducerReward_pos s validatorId epoch totalFees
  rw [distributeProduced_eq]
  set paid := s.credit validatorId (f.totalProducerReward s validatorId epoch totalFees) with hpaid
  obtain ⟨hgrow, hfull⟩ := s.sumFree_le_credit validatorId (f.totalProducerReward s validatorId epoch totalFees)
  rw [← hpaid] at hgrow hfull
  by_cases hz : treasuryAmount f totalFees = 0
  · have hnone : ¬ treasuryAmount f totalFees > 0 := by
      rw [hz]
      decide
    rw [if_neg hnone]
    constructor
    · intro h
      exact ⟨hfull hpos (le_of_eq (sumFree_of_values _ _ h)), Or.inl hz⟩
    · intro h
      rw [hpaid, accounts_credit_full s validatorId _ hpos h.1]
  · have hsome : treasuryAmount f totalFees > 0 := Fin.pos_iff_ne_zero.2 hz
    obtain ⟨hgrow', hfull'⟩ := paid.sumFree_le_credit treasuryAccount (treasuryAmount f totalFees)
    rw [if_pos hsome]
    constructor
    · intro h
      have hsum := sumFree_of_values _ _ h
      have hproducer := hfull hpos (by omega)
      have hsame : paid.accounts = s.accounts := accounts_credit_full s validatorId _ hpos hproducer
      refine ⟨hproducer, Or.inr ?_⟩
      rw [← StateBackend.accountOrNew_congr paid s hsame]
      exact hfull' hsome (by omega)
    · rintro ⟨hproducer, hnone | htreasury⟩
      · exact absurd hnone hz
      · have hsame : paid.accounts = s.accounts := accounts_credit_full s validatorId _ hpos hproducer
        rw [← StateBackend.accountOrNew_congr paid s hsame] at htreasury
        rw [accounts_credit_full paid treasuryAccount _ hsome htreasury, hsame]

/-- The rewards are lost only where an account holds all that 128 bits can count. -/
theorem not_rewardsLost (f : RewardFormulas) (s : StateBackend) (validatorId : AccountId) (totalFees : Balance)
    (hs : s.supply < 2 ^ 128 - 1) : ¬ RewardsLost f s validatorId totalFees := by
  intro h
  have hle := s.total_le_supply validatorId
  have hfree : (s.accountOrNew validatorId).free.val = 2 ^ 128 - 1 := congrArg Fin.val h.1
  unfold StateBackend.accountOrNew at hfree
  cases hg : s.getAccount validatorId with
  | none =>
    rw [hg] at hfree
    exact absurd hfree (by decide)
  | some a =>
    rw [hg] at hle hfree
    simp only [Option.elim_some, AccountInfo.total, Option.getD_some] at hle hfree
    omega

/-! ## A produced block on another node -/

/-- What the other node gets: the block itself, or what is read back from its bytes, which do
not hold the cached hashes. -/
inductive Delivered (cr : Crypto) (block : Block) : Block → Prop
  | same : Delivered cr block block
  | read (h : ∀ tx ∈ block.body.transactions, HashHonest cr tx) : Delivered cr block block.stored

namespace Delivered

variable {cr : Crypto} {block received : Block}

theorem header (h : Delivered cr block received) : received.header = block.header := by
  cases h <;> rfl

theorem executeBody (h : Delivered cr block received) (number : Nat) (s : StateBackend) :
    Kratos.executeBody cr number s received.body.transactions 0 0 =
      Kratos.executeBody cr number s block.body.transactions 0 0 := by
  cases h with
  | same => rfl
  | read h => exact executeBody_uncached cr number s _ 0 0 h

theorem transactionsRoot (h : Delivered cr block received) :
    computeTransactionsRoot cr received.body.transactions =
      computeTransactionsRoot cr block.body.transactions := by
  cases h with
  | same => rfl
  | read h =>
    have hbytes : (block.body.transactions.map SignedTransaction.uncached).flatMap
          (fun tx => (tx.hash cr).asBytes) =
        block.body.transactions.flatMap fun tx => (tx.hash cr).asBytes := by
      rw [List.flatMap_map]
      apply List.flatMap_congr
      intro tx htx
      exact congrArg Hash.asBytes (h tx htx).symm
    unfold computeTransactionsRoot Block.stored
    simp only [List.isEmpty_map, hbytes]

theorem verified (h : Delivered cr block received) (hv : ∀ tx ∈ block.body.transactions, tx.verify cr = true) :
    ∀ tx ∈ received.body.transactions, tx.verify cr = true := by
  cases h with
  | same => exact hv
  | read h =>
    intro tx htx
    obtain ⟨tx', hmem, rfl⟩ := List.mem_map.1 htx
    exact hv tx' hmem

end Delivered

/-- The slot and its time come after the parent's, as validation wants them. -/
structure SlotFollows (parent : Block) (epoch slot timestamp : Nat) : Prop where
  epoch_le : parent.header.epoch ≤ epoch
  slot_lt : epoch = parent.header.epoch → parent.header.slot < slot
  interval : parent.header.timestamp + minBlockIntervalSecs ≤ timestamp
  drift : Word.absI64 (Word.satSubI64 (Word.asI64 (timestamp - parent.header.timestamp))
    (Word.asI64 (Word.satMul64 (slot - parent.header.slot) slotDurationSecs))) ≤ Word.asI64 slotDurationSecs

section OwnBlock

variable (cr : Crypto) (f : RewardFormulas) (order : PopOrder PrioritizedTx.cmp) (now : Nat)
  (n : ProducingNode) (parent : Block) (validatorId : AccountId) (epoch slot : Nat)

/-- The producer's run over what it selects. -/
def executed : StateBackend × List SignedTransaction × List ExecutionResult :=
  executeSelected cr (parent.header.number + 1) n.state
    (n.mempool.selectTransactionsWithState order maxTransactionsPerBlock n.state)

/-- The state after the rewards. -/
def rewarded : StateBackend :=
  distributeProduced f (executed cr order n parent).1 validatorId epoch (sumFees (executed cr order n parent).2.2)

/-- The fields of a produced block, and the accounts it leaves. -/
structure IsProduced (block : Block) : Prop where
  number : block.header.number = parent.header.number + 1
  parentHash : block.header.parentHash = parent.hash cr
  transactionsRoot : block.header.transactionsRoot = computeTransactionsRoot cr block.body.transactions
  stateRoot : block.header.stateRoot =
    ((rewarded cr f order n parent validatorId epoch).computeStateRoot cr (parent.header.number + 1) ⟨0⟩).root
  timestamp : block.header.timestamp = slotTimestamp now n.state slot
  epoch_eq : block.header.epoch = epoch
  slot_eq : block.header.slot = slot
  author : block.header.author = validatorId
  signature : ∃ sign, n.producer.validatorKey = some sign ∧
    block.header.signature = sign (domainSeparate domainBlockHeader (block.header.hash cr).asBytes)
  transactions : block.body.transactions = (executed cr order n parent).2.1
  accounts : (produceBlock cr f order now n parent validatorId epoch slot).1.state.accounts =
    (rewarded cr f order n parent validatorId epoch).accounts

theorem driftTracker_rewarded :
    (rewarded cr f order n parent validatorId epoch).driftTracker = n.state.driftTracker := by
  have hexec := driftTracker_executeSelected cr (parent.header.number + 1) n.state
    (n.mempool.selectTransactionsWithState order maxTransactionsPerBlock n.state)
  unfold rewarded
  rw [distributeProduced_eq]
  split
  · exact hexec
  · exact hexec

theorem produceBlock_ok (block : Block)
    (h : (produceBlock cr f order now n parent validatorId epoch slot).2 = .ok block) :
    IsProduced cr f order now n parent validatorId epoch slot block := by
  unfold produceBlock at h
  simp only at h
  split at h
  · cases h
  · next hfresh =>
    split at h
    · cases h
    · next sign hsign =>
      simp only [Except.ok.injEq] at h
      subst h
      have htime : slotTimestamp now (rewarded cr f order n parent validatorId epoch) slot =
          slotTimestamp now n.state slot := by
        unfold slotTimestamp
        rw [driftTracker_rewarded]
      refine
        { number := rfl
          parentHash := rfl
          transactionsRoot := rfl
          stateRoot := rfl
          timestamp := htime
          epoch_eq := rfl
          slot_eq := rfl
          author := rfl
          signature := ⟨sign, hsign, rfl⟩
          transactions := rfl
          accounts := ?_ }
      unfold produceBlock
      simp only [hfresh, hsign]
      rfl

variable {cr f order now n parent validatorId epoch slot} {block received : Block}

/-- **Validation of a produced block** asks only for its slot. -/
theorem validate_produced_iff (h : IsProduced cr f order now n parent validatorId epoch slot block)
    (hreceived : Delivered cr block received) (hkey : cr.ed25519Key validatorId = true)
    (hsign : ∀ sign, n.producer.validatorKey = some sign →
      ∀ message, cr.ed25519Verify validatorId message (sign message) = true)
    (now' : Nat) (validatorSet : ValidatorSet) (hactive : validatorSet.isActive validatorId = true)
    (htime : block.header.timestamp ≤ now') :
    BlockValidator.validate cr now' received parent validatorSet = .ok () ↔
      SlotFollows parent epoch slot (slotTimestamp now n.state slot) := by
  have hheader := hreceived.header
  have hfuture : block.header.timestamp ≤ Word.satAdd64 now' maxFutureDriftSecs := by
    have hword : block.header.timestamp ≤ Word.u64Max := by
      rw [h.timestamp]
      exact Nat.min_le_right _ _
    unfold Word.satAdd64
    omega
  rw [BlockValidator.validate_ok_iff]
  constructor
  · intro hw
    have hts := (BlockValidator.validateTimestamp_ok_iff _ _ _).1 hw.timestamp
    have hepoch := hw.epoch
    have hslot := hw.slot
    rw [hheader, h.timestamp, h.slot_eq] at hts
    rw [hheader, h.epoch_eq] at hepoch
    rw [hheader, h.epoch_eq, h.slot_eq] at hslot
    exact ⟨hepoch, hslot, hts.1, hts.2.2⟩
  · intro hf
    obtain ⟨sign, hkeyed, hsigned⟩ := h.signature
    refine
      { number := by rw [hheader, h.number]
        parentHash := by rw [hheader, h.parentHash]
        timestamp := ?_
        epoch := by rw [hheader, h.epoch_eq]; exact hf.epoch_le
        slot := by rw [hheader, h.epoch_eq, h.slot_eq]; exact hf.slot_lt
        author := by rw [hheader, h.author]; exact hactive
        signature := ?_
        transactionsRoot := by rw [hheader, h.transactionsRoot, hreceived.transactionsRoot]
        transactions := hreceived.verified ?_ }
    · rw [BlockValidator.validateTimestamp_ok_iff, hheader]
      refine ⟨?_, hfuture, ?_⟩
      · rw [h.timestamp]
        exact hf.interval
      · rw [h.timestamp, h.slot_eq]
        exact hf.drift
    · unfold BlockValidator.verifySignature
      rw [hheader, h.author, if_neg (by simp [hkey]), hsigned]
      simp only [hsign sign hkeyed]
      rfl
    · intro tx htx
      rw [h.transactions] at htx
      exact verify_of_mem_kept cr _ _ _ tx htx

/-- **Execution of a produced block** succeeds and leaves the producer's accounts from before
the rewards. -/
theorem executeTransactions_produced (h : IsProduced cr f order now n parent validatorId epoch slot block)
    (hreceived : Delivered cr block received) :
    ∃ t, executeTransactions cr received.header.number n.state received.body.transactions = (t, .ok ()) ∧
      t.accounts = (executed cr order n parent).1.accounts := by
  have hlen : (n.mempool.selectTransactionsWithState order maxTransactionsPerBlock n.state).length ≤
      maxTransactionsPerBlock := by
    rw [TransactionPool.selectTransactionsWithState_eq]
    exact List.length_take_le _ _
  have hmax : maxTransactionsPerBlock = 1000 := rfl
  obtain ⟨t, fees, hbody, hrel, -⟩ := executeBody_kept cr (parent.header.number + 1) n.state n.state
    (SameButDust.refl _ _) (n.mempool.selectTransactionsWithState order maxTransactionsPerBlock n.state) 0 0
    (by simp only [Fin.val_zero]; omega)
  refine ⟨t, ?_, hrel.accounts.symm⟩
  rw [hreceived.header, h.number]
  refine executeTransactions_of_body cr _ _ _ _ 0 0 fees ?_
  rw [hreceived.executeBody, h.transactions]
  exact hbody

theorem rewarded_nonempty : (rewarded cr f order n parent validatorId epoch).accounts.entries ≠ [] := by
  have hfound : ∀ (s : StateBackend) (id : AccountId) (amount : Balance),
      (s.credit id amount).accounts.entries ≠ [] := by
    intro s id amount hnil
    have hmem := (SortedMap.mem_entries_iff (s.credit id amount).accounts id _).2
      (s.getAccount_setAccount_self id _)
    rw [hnil] at hmem
    cases hmem
  unfold rewarded
  rw [distributeProduced_eq]
  split
  · exact hfound _ _ _
  · exact hfound _ _ _

variable (cr f order n parent validatorId epoch) in
/-- **Two roots.**  From accounts as execution leaves them the producer's root is computed
only if the rewards are lost. -/
theorem root_unrewarded_iff (s t : StateBackend)
    (hs : s.accounts = (rewarded cr f order n parent validatorId epoch).accounts)
    (ht : t.accounts = (executed cr order n parent).1.accounts) (hcol : StateBackend.NoCollision cr s t)
    (hzero : ∀ x ∈ s.hashed cr, cr.blake3 x ≠ Hash.zero) (number number' : Nat) :
    (t.computeStateRoot cr number ⟨0⟩).root =
        ((rewarded cr f order n parent validatorId epoch).computeStateRoot cr number' ⟨0⟩).root ↔
      RewardsLost f (executed cr order n parent).1 validatorId (sumFees (executed cr order n parent).2.2) := by
  have hsame := StateBackend.root_eq_of_values_eq cr s (rewarded cr f order n parent validatorId epoch)
    number' number' ⟨0⟩ ⟨0⟩ (by rw [hs])
  have hne : s.accounts.entries ≠ [] := by
    rw [hs]
    exact rewarded_nonempty
  rw [← hsame, eq_comm, StateBackend.root_eq_iff cr s t number' number ⟨0⟩ ⟨0⟩ hne hcol hzero, hs, ht]
  exact values_distributeProduced_iff f _ validatorId epoch _

end OwnBlock

/-- **A producer's own block.**  The node that imports it starts from the producer's state, the
author is active and signs with its key, and the block is not from the future.  No transaction
fails.  The block is accepted if and only if its slot follows the parent's and the rewards are
lost; a block whose slot follows is refused for its state root unless they are.  With fewer
than 2¹²⁸ − 1 units in existence they are not. -/
theorem own_block_accepted_iff (cr : Crypto) (f : RewardFormulas) (order : PopOrder PrioritizedTx.cmp)
    (now : Nat) (n : ProducingNode) (parent : Block) (validatorId : AccountId) (epoch slot : Nat) (block : Block)
    (hblock : (produceBlock cr f order now n parent validatorId epoch slot).2 = .ok block)
    (hkey : cr.ed25519Key validatorId = true)
    (hsign : ∀ sign, n.producer.validatorKey = some sign →
      ∀ message, cr.ed25519Verify validatorId message (sign message) = true)
    (now' : Nat) (m : ProducingNode) (received : Block) (validatorSet : ValidatorSet)
    (hreceived : Delivered cr block received) (hstate : m.state = n.state)
    (hactive : validatorSet.isActive validatorId = true) (htime : block.header.timestamp ≤ now')
    (hcol : StateBackend.NoCollision cr (produceBlock cr f order now n parent validatorId epoch slot).1.state
      (validateAndImport cr now' m received parent validatorSet).1.state)
    (hzero : ∀ x ∈ (produceBlock cr f order now n parent validatorId epoch slot).1.state.hashed cr,
      cr.blake3 x ≠ Hash.zero) :
    let result := (validateAndImport cr now' m received parent validatorSet).2
    let run := executed cr order n parent
    let follows := SlotFollows parent epoch slot (slotTimestamp now n.state slot)
    let lost := RewardsLost f run.1 validatorId (sumFees run.2.2)
    (∀ txHash e, result ≠ .error (.executionError txHash e)) ∧
      (result = .ok () ↔ follows ∧ lost) ∧
      ((∀ expected computed, result ≠ .error (.stateRootMismatch expected computed)) ↔ ¬ follows ∨ lost) ∧
      (n.state.supply < 2 ^ 128 - 1 → ¬ lost) := by
  intro result run follows lost
  have hp := produceBlock_ok cr f order now n parent validatorId epoch slot block hblock
  have hsupply : n.state.supply < 2 ^ 128 - 1 → ¬ lost := by
    intro hs
    have hle : run.1.supply ≤ n.state.supply := supply_executeSelected_le cr _ _ _ (by omega)
    exact not_rewardsLost f run.1 validatorId _ (by omega)
  by_cases hf : follows
  · obtain ⟨t, hexec, haccounts⟩ := executeTransactions_produced hp hreceived
    have hvalid := (validate_produced_iff hp hreceived hkey hsign now' validatorSet hactive htime).2 hf
    have himport : (validateAndImport cr now' m received parent validatorSet).1.state.accounts = t.accounts ∧
        result = if (t.computeStateRoot cr received.header.number ⟨0⟩).root ≠ received.header.stateRoot then
            .error (.stateRootMismatch received.header.stateRoot
              (t.computeStateRoot cr received.header.number ⟨0⟩).root)
          else .ok () := by
      simp only [result, validateAndImport, hvalid, hstate, hexec]
      split
      · exact ⟨rfl, rfl⟩
      · exact ⟨rfl, rfl⟩
    have hroot : (t.computeStateRoot cr received.header.number ⟨0⟩).root = received.header.stateRoot ↔ lost := by
      rw [hreceived.header, hp.stateRoot]
      exact root_unrewarded_iff cr f order n parent validatorId epoch _ t hp.accounts haccounts
        (hcol.of_accounts rfl himport.1.symm) hzero _ _
    by_cases hlost : lost
    · have hok : result = .ok () := by rw [himport.2, if_neg (not_not.2 (hroot.2 hlost))]
      rw [hok]
      exact ⟨by simp, by simp [hf, hlost], by simp [hlost], hsupply⟩
    · have herr : result = .error (.stateRootMismatch received.header.stateRoot
          (t.computeStateRoot cr received.header.number ⟨0⟩).root) := by
        rw [himport.2, if_pos fun h => hlost (hroot.1 h)]
      rw [herr]
      exact ⟨by simp, by simp [hlost], by simp [hf, hlost], hsupply⟩
  · -- the block is refused before it is executed
    have hinvalid := mt (validate_produced_iff hp hreceived hkey hsign now' validatorSet hactive htime).1 hf
    have herr : ∃ e, result = .error (.validationError e) := by
      simp only [result, validateAndImport]
      split
      · next e _ => exact ⟨e, rfl⟩
      · next hv => exact absurd hv hinvalid
    obtain ⟨e, he⟩ := herr
    rw [he]
    exact ⟨by simp, by simp [hf], by simp [hf], hsupply⟩

/-- A producer with an empty pool and the accounts of a state. -/
def sampleProducer (state : StateBackend) : ProducingNode :=
  { producer := .new (some fun _ => Signature64.zero), mempool := .withConfig .default, state }

def sampleValidators : ValidatorSet := (ValidatorSet.new.addValidator (.newBootstrap ⟨1⟩ 0)).toOption.getD .new

/-- A state with one account, holding some amount. -/
def sampleFunds (free : Balance) : StateBackend := StateBackend.new.setAccount ⟨1⟩ { AccountInfo.new with free }

/-- The first block of account 1. -/
def sampleProduced (free : Balance) : ProducingNode × Except ProductionError Block :=
  produceBlock Crypto.sample RewardFormulas.sample TransactionPool.sampleOrder 0 (sampleProducer (sampleFunds free))
    Node.sampleGenesis ⟨1⟩ 0 1

def ownBlock (free : Balance) : Block := (sampleProduced free).2.toOption.getD Node.sampleGenesis

/-- A copy of the producer's node imports it six seconds later. -/
def sampleImported (free : Balance) : ProducingNode × Except ProductionError Unit :=
  validateAndImport Crypto.sample 6 (sampleProducer (sampleFunds free)) (ownBlock free) Node.sampleGenesis
    sampleValidators

/-- The reward of a producer that holds the most an account can hold is lost, and its block is
accepted. -/
theorem own_block_accepted_full :
    (sampleProduced (Word.maxVal 128)).2 = .ok (ownBlock (Word.maxVal 128)) ∧
      (sampleImported (Word.maxVal 128)).2 = .ok () := by
  have hok : (sampleProduced (Word.maxVal 128)).2 = .ok (ownBlock (Word.maxVal 128)) := by decide +kernel
  refine ⟨hok, ?_⟩
  have h := own_block_accepted_iff Crypto.sample RewardFormulas.sample TransactionPool.sampleOrder 0
    (sampleProducer (sampleFunds (Word.maxVal 128))) Node.sampleGenesis ⟨1⟩ 0 1 (ownBlock (Word.maxVal 128)) hok rfl
    (fun _ _ _ => rfl) 6 (sampleProducer (sampleFunds (Word.maxVal 128))) (ownBlock (Word.maxVal 128))
    sampleValidators .same rfl (by decide +kernel) (by decide +kernel) (by decide +kernel) (by decide +kernel)
  exact h.2.1.2 ⟨⟨by decide, by decide, by decide +kernel, by decide +kernel⟩, by decide +kernel⟩

/-- A block with no transactions is refused by a copy of the node that produced it. -/
theorem own_block_refused :
    (sampleProduced 0).2 = .ok (ownBlock 0) ∧ sampleValidators.isActive ⟨1⟩ = true ∧
      (ownBlock 0).header.timestamp ≤ 6 ∧
      ¬ ((∀ txHash e, (sampleImported 0).2 ≠ .error (.executionError txHash e)) ∧
        ∀ expected computed, (sampleImported 0).2 ≠ .error (.stateRootMismatch expected computed)) := by
  have hroot : (sampleImported 0).2 = .error (.stateRootMismatch (ownBlock 0).header.stateRoot
      ((sampleFunds 0).computeStateRoot Crypto.sample 1 ⟨0⟩).root) := by decide +kernel
  exact ⟨by decide +kernel, by decide +kernel, by decide +kernel, fun h => h.2 _ _ hroot⟩

end BlockProducer

end Kratos
