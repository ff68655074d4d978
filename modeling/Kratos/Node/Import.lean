import Kratos.Node.BlockValidator
import Kratos.Node.Production
import Kratos.Node.Replay

/-!
# Block import

`importBlock` in the order of the source: link the block to the current one,
admit its author during the first hundred blocks, validate it, move the drift
tracker, execute the body, process the votes on early validators, pay the
rewards, compare the state root, store the block.  Each stage keeps what the
ones before it wrote, so a refused block leaves the node as that stage found
it.  Network, mempool and finality notifications are left out.

`atomic_iff` says for which blocks a refusal leaves the node as it was.
-/

namespace Kratos

open TransactionExecutor

structure Node where
  storage : StateBackend
  validators : ValidatorSet
  chainHeight : Nat
  currentBlock : Option Block

/-- The consensus errors of an import. -/
inductive ImportError where
  | blockNumberMismatch (expected got : Nat)
  | noParentBlock
  | parentHashMismatch (expected got : Hash)
  | blockValidationFailed (e : ValidationError)
  | driftTrackerUpdateFailed (e : StateError)
  | driftValidationFailed (e : StateError)
  | transactionExecutionFailed (idx : Nat) (e : Option ExecError)
  | stateRootMismatch (expected computed : Hash)
deriving DecidableEq, Repr

/-- Blocks up to this number are taken as initial sync. -/
def syncThreshold : Nat := 100

namespace Node

/-! ## Stages -/

/-- An unknown author of an early block becomes a bootstrap validator. -/
def admitAuthor (n : Node) (b : Block) : Node :=
  if n.validators.isActive b.header.author = false ∧ b.header.number ≤ syncThreshold then
    match n.validators.ensureBootstrapValidator b.header.author 0 with
    | .ok validators => { n with validators }
    | .error _ => n
  else n

/-- Historical blocks move the tracker unchecked, the others are validated. -/
def trackDrift (s : StateBackend) (currentHeight : Nat) (b : Block) :
    StateBackend × Except ImportError Unit :=
  if b.header.number ≤ syncThreshold ∧ currentHeight = 0 then
    match s.updateDriftTrackerForSync b with
    | (s, .ok ()) => (s, .ok ())
    | (s, .error e) => (s, .error (.driftTrackerUpdateFailed e))
  else
    match s.validateBlockDrift b slotDurationSecs with
    | (s, .ok _) => (s, .ok ())
    | (s, .error e) => (s, .error (.driftValidationFailed e))

/-- Add a candidate that has its quorum; a failure is only logged. -/
def approveCandidate (n : Node) (candidate : AccountId) (blockNumber : Nat) : Node :=
  match n.validators.approveEarlyValidator candidate blockNumber with
  | .error _ => n
  | .ok validators =>
    { n with validators
             storage := n.storage.initializeBootstrapVc candidate blockNumber (blockNumber / slotsPerEpoch) }

/-- The effect of a proposal or a vote on the validator set. -/
def processVote (blockNumber : Nat) (n : Node) (tx : SignedTransaction) : Node :=
  match tx.transaction.call with
  | .proposeEarlyValidator candidate =>
    match n.validators.proposeEarlyValidator candidate tx.transaction.sender blockNumber with
    | .error _ => n
    | .ok validators =>
      -- one vote is enough while there are at most two validators
      if (validators.getCandidate candidate).any EarlyValidatorCandidate.hasQuorum then
        approveCandidate { n with validators } candidate blockNumber
      else { n with validators }
  | .voteEarlyValidator candidate =>
    match n.validators.voteEarlyValidator candidate tx.transaction.sender blockNumber with
    | (validators, .ok true) => approveCandidate { n with validators } candidate blockNumber
    | (validators, _) => { n with validators }
  | _ => n

/-- Votes and rewards of an executed body. -/
def settleBlock (f : RewardFormulas) (n : Node) (b : Block) (totalFees : Balance) : Node :=
  let n := b.body.transactions.foldl (processVote b.header.number) n
  { n with storage := (applyBlockRewardsForImport f n.storage b.header.author b.header.epoch totalFees).1 }

/-- Compare the state root and store the block. -/
def commitBlock (cr : Crypto) (n : Node) (b : Block) : Node × Except ImportError Unit :=
  let computed := n.storage.computeStateRoot cr b.header.number ⟨0⟩
  if computed.root ≠ b.header.stateRoot then
    (n, .error (.stateRootMismatch b.header.stateRoot computed.root))
  else
    let storage := ((n.storage.storeStateRoot b.header.number computed).storeBlock cr b).setBestBlock
      b.header.number
    ({ n with storage, currentBlock := some b, chainHeight := b.header.number }, .ok ())

/-- Everything after the validation of the block. -/
def applyBlock (cr : Crypto) (f : RewardFormulas) (n : Node) (b : Block) :
    Node × Except ImportError Unit :=
  match trackDrift n.storage n.chainHeight b with
  | (storage, .error e) => ({ n with storage }, .error e)
  | (storage, .ok ()) =>
    match executeBody cr b.header.number storage b.body.transactions 0 0 with
    | (storage, .error (idx, e)) => ({ n with storage }, .error (.transactionExecutionFailed idx e))
    | (storage, .ok totalFees) => commitBlock cr (settleBlock f { n with storage } b totalFees) b

/-- The block is stored already under its number. -/
def isStored (cr : Crypto) (n : Node) (b : Block) : Bool :=
  (n.storage.getBlockByNumber b.header.number).any fun existing => decide (existing.hash cr = b.hash cr)

def importBlock (cr : Crypto) (f : RewardFormulas) (now : Nat) (n : Node) (b : Block) :
    Node × Except ImportError Unit :=
  if b.header.number ≠ n.chainHeight + 1 then
    (n, .error (.blockNumberMismatch (n.chainHeight + 1) b.header.number))
  else if n.isStored cr b then (n, .ok ())
  else
    match n.currentBlock with
    | none => (n, .error .noParentBlock)
    | some parent =>
      if b.header.parentHash ≠ parent.hash cr then
        (n, .error (.parentHashMismatch (parent.hash cr) b.header.parentHash))
      else
        let n := n.admitAuthor b
        match BlockValidator.validate cr now b parent n.validators with
        | .error e => (n, .error (.blockValidationFailed e))
        | .ok () => applyBlock cr f n b

/-- A genesis header and block to run the model with. -/
def sampleHeader : BlockHeader :=
  { number := 0, parentHash := Hash.zero, transactionsRoot := Hash.zero, stateRoot := Hash.zero
    timestamp := 0, epoch := 0, slot := 0, author := ⟨1⟩, signature := Signature64.zero }

def sampleGenesis : Block := { header := sampleHeader, body := { transactions := [] } }

/-! ## What each stage leaves -/

/-- The block is new, has the next number and names the current block as its parent. -/
structure Linked (cr : Crypto) (n : Node) (b parent : Block) : Prop where
  number : b.header.number = n.chainHeight + 1
  fresh : n.isStored cr b = false
  current : n.currentBlock = some parent
  parentHash : b.header.parentHash = parent.hash cr

theorem importBlock_linked (cr : Crypto) (f : RewardFormulas) (now : Nat) (n : Node) (b parent : Block)
    (h : Linked cr n b parent) :
    importBlock cr f now n b =
      match BlockValidator.validate cr now b parent (n.admitAuthor b).validators with
      | .error e => (n.admitAuthor b, .error (.blockValidationFailed e))
      | .ok () => applyBlock cr f (n.admitAuthor b) b := by
  unfold importBlock
  simp only [h.number, ne_eq, not_true_eq_false, if_false, h.fresh, Bool.false_eq_true, h.current,
    h.parentHash]

/-- A block that is not linked leaves the node alone. -/
theorem importBlock_unlinked (cr : Crypto) (f : RewardFormulas) (now : Nat) (n : Node) (b : Block)
    (h : ∀ parent, ¬ Linked cr n b parent) : (importBlock cr f now n b).1 = n := by
  unfold importBlock
  split
  · rfl
  · next hnum =>
    split
    · rfl
    · next hfresh =>
      split
      · rfl
      · next parent hparent =>
        split
        · rfl
        · next hhash =>
          exact absurd ⟨not_not.mp hnum, by simpa using hfresh, hparent, not_not.mp hhash⟩ (h parent)

/-- Admission only concerns the validator set. -/
theorem admitAuthor_cases (n : Node) (b : Block) :
    ((n.validators.isActive b.header.author = true ∨ syncThreshold < b.header.number) ∧
      n.admitAuthor b = n) ∨
    (n.validators.isActive b.header.author = false ∧ b.header.number ≤ syncThreshold ∧
      ∃ validators, n.validators.ensureBootstrapValidator b.header.author 0 = .ok validators ∧
        n.admitAuthor b = { n with validators }) := by
  unfold admitAuthor
  split
  · next h =>
    obtain ⟨w, hw, -⟩ := n.validators.ensureBootstrapValidator_ok b.header.author 0
    right
    refine ⟨h.1, h.2, w, hw, ?_⟩
    rw [hw]
  · next h =>
    left
    refine ⟨?_, rfl⟩
    by_cases ha : n.validators.isActive b.header.author = true
    · exact Or.inl ha
    · right
      simp only [Bool.not_eq_true] at ha
      exact not_le.mp fun hle => h ⟨ha, hle⟩

theorem storage_admitAuthor (n : Node) (b : Block) :
    (n.admitAuthor b).storage = n.storage ∧ (n.admitAuthor b).chainHeight = n.chainHeight ∧
      (n.admitAuthor b).currentBlock = n.currentBlock := by
  rcases n.admitAuthor_cases b with ⟨-, heq⟩ | ⟨-, -, validators, -, heq⟩
  · rw [heq]
    exact ⟨rfl, rfl, rfl⟩
  · rw [heq]
    exact ⟨rfl, rfl, rfl⟩

/-- What the drift check leaves: nothing when it refuses the block, the moved
tracker when it accepts it.  The tracker stays where it is only if it stands at
this block already and no block was imported yet. -/
theorem trackDrift_cases (s : StateBackend) (height : Nat) (b : Block)
    (hn : b.header.number = height + 1) :
    (∃ e, trackDrift s height b = (s, .error e)) ∨
    (∃ t t', s.driftTracker = some t ∧
      trackDrift s height b = ({ s with driftTracker := some t' }, .ok ()) ∧
      (t' = t ↔ height = 0 ∧ StateBackend.syncTracker t b = t)) := by
  unfold trackDrift
  by_cases hz : height = 0
  · have hsync : b.header.number ≤ syncThreshold ∧ height = 0 := ⟨by rw [hn, hz]; decide, hz⟩
    rw [if_pos hsync]
    unfold StateBackend.updateDriftTrackerForSync
    cases hd : s.driftTracker with
    | none => exact Or.inl ⟨_, rfl⟩
    | some t => exact Or.inr ⟨t, _, rfl, rfl, by simp [hz]⟩
  · have hsync : ¬ (b.header.number ≤ syncThreshold ∧ height = 0) := fun h => hz h.2
    rw [if_neg hsync]
    rcases s.validateBlockDrift_cases b slotDurationSecs with ⟨e, he⟩ | ⟨t, drift, ht, hok, hval⟩
    · left
      exact ⟨_, by rw [he]⟩
    · right
      refine ⟨t, _, ht, by rw [hval], ?_⟩
      have hadv := t.validateAndUpdate_advances _ _ _ _ _ (by omega) drift hok
      constructor
      · intro heq
        rw [heq] at hadv
        exact absurd hadv (lt_irrefl _)
      · intro h
        exact absurd h.1 hz

theorem sameButFunds_executeBody (cr : Crypto) (block : Nat) (s : StateBackend)
    (txs : List SignedTransaction) (idx : Nat) (totalFees : Balance) :
    SameButFunds s (executeBody cr block s txs idx totalFees).1 := by
  induction txs generalizing s idx totalFees with
  | nil => rfl
  | cons tx txs ih =>
    have hstep := sameButFunds_execute cr s tx block
    simp only [executeBody]
    split
    · exact SameButFunds.trans _ _ _ hstep (ih _ _ _)
    · exact hstep

/-- **What applying a block can do.**  It is refused by the drift check, with
nothing written, or the tracker moves and the body is executed; then it is
refused by a transaction or goes on to its state root. -/
theorem applyBlock_cases (cr : Crypto) (f : RewardFormulas) (n : Node) (b : Block)
    (hn : b.header.number = n.chainHeight + 1) :
    (∃ e, trackDrift n.storage n.chainHeight b = (n.storage, .error e) ∧
      applyBlock cr f n b = (n, .error e)) ∨
    (∃ t t' s₁ s₂ r, n.storage.driftTracker = some t ∧ s₁ = { n.storage with driftTracker := some t' } ∧
      (t' = t ↔ n.chainHeight = 0 ∧ StateBackend.syncTracker t b = t) ∧
      trackDrift n.storage n.chainHeight b = (s₁, .ok ()) ∧
      executeBody cr b.header.number s₁ b.body.transactions 0 0 = (s₂, r) ∧
      ((∃ e, r = .error e ∧ applyBlock cr f n b =
          ({ n with storage := s₂ }, .error (.transactionExecutionFailed e.1 e.2))) ∨
        (∃ totalFees, r = .ok totalFees ∧ applyBlock cr f n b =
          commitBlock cr (settleBlock f { n with storage := s₂ } b totalFees) b))) := by
  unfold applyBlock
  rcases trackDrift_cases n.storage n.chainHeight b hn with ⟨e, he⟩ | ⟨t, t', ht, hok, hstay⟩
  · left
    exact ⟨e, he, by rw [he]⟩
  · right
    cases hx : executeBody cr b.header.number { n.storage with driftTracker := some t' }
        b.body.transactions 0 0 with
    | mk s₂ r =>
      refine ⟨t, t', _, s₂, r, ht, rfl, hstay, hok, hx, ?_⟩
      rw [hok]
      simp only [hx]
      cases r with
      | error e => exact Or.inl ⟨e, rfl, rfl⟩
      | ok totalFees => exact Or.inr ⟨totalFees, rfl, rfl⟩

theorem commitBlock_cases (cr : Crypto) (n : Node) (b : Block) :
    ((n.storage.computeStateRoot cr b.header.number ⟨0⟩).root ≠ b.header.stateRoot ∧
      ∃ e, commitBlock cr n b = (n, .error e)) ∨
    ((n.storage.computeStateRoot cr b.header.number ⟨0⟩).root = b.header.stateRoot ∧
      ∃ storage, commitBlock cr n b =
          ({ n with storage, currentBlock := some b, chainHeight := b.header.number }, .ok ()) ∧
        storage.accounts = n.storage.accounts) := by
  unfold commitBlock
  by_cases hroot : (n.storage.computeStateRoot cr b.header.number ⟨0⟩).root = b.header.stateRoot
  · right
    simp only [hroot, ne_eq, not_true_eq_false, if_false, true_and]
    exact ⟨_, rfl, rfl⟩
  · left
    simp only [hroot, ne_eq, not_false_eq_true, if_true, true_and]
    exact ⟨_, rfl⟩

/-- What votes and rewards leave alone. -/
structure Settled (n n' : Node) : Prop where
  nonce : ∀ j, (n'.storage.accountOrNew j).nonce = (n.storage.accountOrNew j).nonce
  reserved : ∀ j, (n'.storage.accountOrNew j).reserved = (n.storage.accountOrNew j).reserved
  unbonding : n'.storage.unbonding = n.storage.unbonding
  driftTracker : n'.storage.driftTracker = n.storage.driftTracker
  stakes : ValidatorSet.KeepsStakes n.validators n'.validators
  chainHeight : n'.chainHeight = n.chainHeight
  currentBlock : n'.currentBlock = n.currentBlock

namespace Settled

/-- Another validator set without more stake, and other validator credits. -/
theorem of_validators (n : Node) (validators : ValidatorSet)
    (vcRecords : SortedMap AccountId ValidatorCreditsRecord)
    (h : ValidatorSet.KeepsStakes n.validators validators) :
    Settled n { n with validators, storage := { n.storage with vcRecords } } :=
  ⟨fun _ => rfl, fun _ => rfl, rfl, rfl, h, rfl, rfl⟩

theorem refl (n : Node) : Settled n n := of_validators n _ _ (ValidatorSet.KeepsStakes.of_eq _ _ rfl)

theorem trans (n m k : Node) (h : Settled n m) (h' : Settled m k) : Settled n k :=
  ⟨fun j => (h'.nonce j).trans (h.nonce j), fun j => (h'.reserved j).trans (h.reserved j),
    h'.unbonding.trans h.unbonding, h'.driftTracker.trans h.driftTracker,
    ValidatorSet.KeepsStakes.trans _ _ _ h.stakes h'.stakes, h'.chainHeight.trans h.chainHeight,
    h'.currentBlock.trans h.currentBlock⟩

theorem approveCandidate (n : Node) (candidate : AccountId) (block : Nat) :
    Settled n (n.approveCandidate candidate block) := by
  unfold Node.approveCandidate
  split
  · exact refl n
  · next validators h =>
    exact of_validators n _ _ (ValidatorSet.keepsStakes_approveEarlyValidator _ _ _ _ h)

theorem processVote (block : Nat) (n : Node) (tx : SignedTransaction) :
    Settled n (processVote block n tx) := by
  unfold Node.processVote
  split
  · next candidate _ =>
    split
    · exact refl n
    · next validators h =>
      have hset : Settled n { n with validators } := of_validators n _ _
        (ValidatorSet.KeepsStakes.of_eq _ _ (ValidatorSet.validators_proposeEarlyValidator _ _ _ _ _ h))
      split
      · exact trans _ _ _ hset (approveCandidate _ candidate block)
      · exact hset
  · next candidate _ =>
    have hset : Settled n { n with
        validators := (n.validators.voteEarlyValidator candidate tx.transaction.sender block).1 } :=
      of_validators n _ _ (ValidatorSet.KeepsStakes.of_eq _ _
        (ValidatorSet.validators_voteEarlyValidator _ _ _ _))
    split
    · next validators h =>
      rw [h] at hset
      exact trans _ _ _ hset (approveCandidate _ candidate block)
    · next validators _ _ h =>
      rw [h] at hset
      exact hset
  · exact refl n

theorem processVotes (block : Nat) (n : Node) (txs : List SignedTransaction) :
    Settled n (txs.foldl (Node.processVote block) n) := by
  induction txs generalizing n with
  | nil => exact refl n
  | cons tx txs ih => exact trans _ _ _ (processVote block n tx) (ih _)

theorem of_onlyCredits (n : Node) (s : StateBackend) (h : OnlyCredits n.storage s) :
    Settled n { n with storage := s } :=
  ⟨h.nonce, h.reserved, (congrArg StateBackend.unbonding h.rest :),
    (congrArg StateBackend.driftTracker h.rest :),
    ValidatorSet.KeepsStakes.of_eq _ _ rfl, rfl, rfl⟩

end Settled

/-- **Votes and rewards** move no nonce, no reserved balance, no unbonding record
and not the drift tracker, and add no stake to the validator set. -/
theorem settleBlock_settled (f : RewardFormulas) (n : Node) (b : Block) (totalFees : Balance) :
    Settled n (settleBlock f n b totalFees) :=
  Settled.trans _ _ _ (Settled.processVotes b.header.number n b.body.transactions)
    (Settled.of_onlyCredits _ _ (applyBlockRewardsWithFinality_onlyCredits f _ _ _ _ _))

/-! ## Accepted blocks -/

/-- A block that was applied is the current one. -/
theorem applyBlock_ok (cr : Crypto) (f : RewardFormulas) (n : Node) (b : Block)
    (hn : b.header.number = n.chainHeight + 1) (h : (applyBlock cr f n b).2 = .ok ()) :
    (applyBlock cr f n b).1.chainHeight = b.header.number ∧ (applyBlock cr f n b).1.currentBlock = some b := by
  rcases applyBlock_cases cr f n b hn with
    ⟨e, -, heq⟩ | ⟨t, t', s₁, s₂, r, -, -, -, -, -, ⟨e, -, heq⟩ | ⟨totalFees, -, heq⟩⟩
  · rw [heq] at h
    cases h
  · rw [heq] at h
    cases h
  · rw [heq] at h ⊢
    rcases commitBlock_cases cr (settleBlock f { n with storage := s₂ } b totalFees) b with
      ⟨-, e, herr⟩ | ⟨-, storage, hok, -⟩
    · rw [herr] at h
      cases h
    · rw [hok]
      exact ⟨rfl, rfl⟩

/-- **Accepted blocks.**  An import that succeeds makes the block the current one if and only
if the block is not stored already under the number that comes next: such a block is reported
as imported and the height stays. -/
theorem import_advances_iff (cr : Crypto) (f : RewardFormulas) (now : Nat) (n : Node) (b : Block) :
    ((importBlock cr f now n b).2 = .ok () →
      (importBlock cr f now n b).1.chainHeight = b.header.number ∧
        (importBlock cr f now n b).1.currentBlock = some b) ↔
      ¬ (b.header.number = n.chainHeight + 1 ∧ n.isStored cr b = true) := by
  constructor
  · rintro h ⟨hnum, hstored⟩
    have hskip : importBlock cr f now n b = (n, .ok ()) := by
      unfold importBlock
      rw [if_neg (not_not.2 hnum), if_pos hstored]
    rw [hskip] at h
    have hheight := (h rfl).1
    simp only at hheight
    omega
  · intro hfresh hok
    by_cases hlink : ∃ parent, Linked cr n b parent
    · obtain ⟨parent, hlink⟩ := hlink
      rw [importBlock_linked cr f now n b parent hlink] at hok ⊢
      have hnum : b.header.number = (n.admitAuthor b).chainHeight + 1 := by
        rw [(n.storage_admitAuthor b).2.1]
        exact hlink.number
      split at hok
      · cases hok
      · exact applyBlock_ok cr f _ b hnum hok
    · -- a block that is not linked is refused, unless it is stored already
      unfold importBlock at hok
      split at hok
      · cases hok
      · next hnum =>
        split at hok
        · next hstored => exact absurd ⟨not_not.1 hnum, hstored⟩ hfresh
        · next hnew =>
          split at hok
          · cases hok
          · next parent hparent =>
            split at hok
            · cases hok
            · next hhash =>
              exact absurd ⟨parent, not_not.1 hnum, by simpa using hnew, hparent, not_not.1 hhash⟩ hlink

/-- The first block of a chain, and a node that was started again on a storage with it. -/
def firstBlock : Block :=
  { sampleGenesis with
    header := { sampleHeader with number := 1, parentHash := sampleGenesis.hash Crypto.sample
                                  timestamp := 6, slot := 1 } }

def restartedNode : Node :=
  { storage := StateBackend.new.storeBlock Crypto.sample firstBlock
    validators := .new, chainHeight := 0, currentBlock := some sampleGenesis }

/-- The first block is imported again and the node stays at genesis. -/
theorem import_stays_at_genesis :
    ¬ ((importBlock Crypto.sample RewardFormulas.sample 6 restartedNode firstBlock).2 = .ok () →
        (importBlock Crypto.sample RewardFormulas.sample 6 restartedNode firstBlock).1.chainHeight =
          firstBlock.header.number ∧
        (importBlock Crypto.sample RewardFormulas.sample 6 restartedNode firstBlock).1.currentBlock =
          some firstBlock) := by
  intro h
  have hheight := (h (by decide +kernel)).1
  exact absurd hheight (by decide +kernel)

end Node

/-- The node after one import, at some local time. -/
def importStep (cr : Crypto) (f : RewardFormulas) (n : Node) (input : Nat × Block) : Node :=
  (Node.importBlock cr f input.1 n input.2).1

end Kratos
