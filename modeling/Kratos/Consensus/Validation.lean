import Kratos.Consensus.Validator
import Kratos.Lib.HashChain
import Kratos.Consensus.VrfSelection
import Kratos.Types.StateMerkleTree

/-!
# The consensus validator of blocks

A second validator beside the node's own one.  It checks numbering, parent hash, epoch and
slot, the signature, the author and its slot, the timestamp, the transactions root and every
transaction, in this order.  `now` is the local clock in seconds.

The slot is checked by running the selection over the active validators, with the blocks a
validator has produced in place of its credits.  The root is that of the tree of transaction
hashes; produced headers carry the flat hash of `computeTransactionsRoot`.  The two are equal
for at most one transaction and else only for two ids that hash to themselves
(`produced_root_accepted_iff`), so it accepts no produced block with more transactions
(`Accepts.of_producer`).  A chain of accepted blocks is numbered, linked and strictly
increasing in time (`accepted_chain`).
-/

namespace Kratos

/-- Validators that can participate, in the order of their ids. -/
def ValidatorSet.activeValidators (v : ValidatorSet) : List ValidatorInfo :=
  v.validators.values.filter ValidatorInfo.canParticipate

/-- The signature covers the header hash under the header domain. -/
def BlockHeader.verifySignature (cr : Crypto) (h : BlockHeader) : Bool :=
  cr.ed25519Key h.author &&
    cr.ed25519Verify h.author (domainSeparate domainBlockHeader (h.hash cr).asBytes) h.signature

namespace Validation

structure ValidationConfig where
  timestampTolerance : Nat
  verifySignatures : Bool
  verifyMerkleRoots : Bool
  verifySlotAssignment : Bool
deriving DecidableEq, Repr

def ValidationConfig.default : ValidationConfig :=
  { timestampTolerance := 60, verifySignatures := true, verifyMerkleRoots := true
    verifySlotAssignment := true }

inductive ValidationError where
  | invalidBlockNumber (expected got : Nat)
  | invalidParentHash (expected got : Hash)
  | invalidSignature (author : AccountId) (blockNumber : Nat)
  | unauthorizedAuthor (author : AccountId) (blockNumber : Nat)
  | wrongSlotAuthor (blockNumber slot : Nat) (expectedAuthor actualAuthor : AccountId)
  | timestampTooOld (parentTimestamp blockTimestamp : Nat)
  | timestampTooFarInFuture (blockTimestamp currentTime tolerance : Nat)
  | invalidEpoch (parentEpoch blockEpoch : Nat)
  | invalidSlot (parentSlot blockSlot : Nat)
  | invalidTransactionsRoot (blockNumber : Nat)
  | invalidTransactionSignature (blockNumber txIndex : Nat)
  | transactionMissingHash (blockNumber txIndex : Nat)
  | invalidGenesisBlock
deriving DecidableEq, Repr

def validateBasicStructure (cr : Crypto) (block parent : Block) : Except ValidationError Unit :=
  if block.header.number ≠ parent.header.number + 1 then
    .error (.invalidBlockNumber (parent.header.number + 1) block.header.number)
  else if block.header.parentHash ≠ parent.hash cr then
    .error (.invalidParentHash (parent.hash cr) block.header.parentHash)
  else if block.header.epoch < parent.header.epoch then
    .error (.invalidEpoch parent.header.epoch block.header.epoch)
  else if block.header.epoch = parent.header.epoch ∧ block.header.slot ≤ parent.header.slot then
    .error (.invalidSlot parent.header.slot block.header.slot)
  else .ok ()

def validateSignature (cr : Crypto) (block : Block) : Except ValidationError Unit :=
  if block.header.verifySignature cr = false then
    .error (.invalidSignature block.header.author block.header.number)
  else .ok ()

section Slot

variable {σ : Type} [LinearOrder σ] (sc : VrfScoring σ)

/-- The candidates of the validator: produced blocks stand in for credits. -/
def slotCandidates (validators : ValidatorSet) : List Candidate :=
  validators.activeValidators.map fun info => { id := info.id, stake := info.stake, vc := info.blocksProduced }

def validateSlotAssignment (block : Block) (validators : ValidatorSet) : Except ValidationError Unit :=
  let candidates := slotCandidates validators
  if candidates.isEmpty then .ok ()
  else
    match selectValidator sc block.header.slot block.header.epoch candidates with
    | .error _ => .ok ()
    | .ok selected =>
      if selected ≠ block.header.author then
        .error (.wrongSlotAuthor block.header.number block.header.slot selected block.header.author)
      else .ok ()

def validateAuthorAuthorization (config : ValidationConfig) (block : Block) (validators : ValidatorSet) :
    Except ValidationError Unit :=
  if validators.isActive block.header.author = false then
    .error (.unauthorizedAuthor block.header.author block.header.number)
  else if config.verifySlotAssignment then validateSlotAssignment sc block validators
  else .ok ()

end Slot

def validateTimestamp (config : ValidationConfig) (now : Nat) (block parent : Block) :
    Except ValidationError Unit :=
  if block.header.timestamp ≤ parent.header.timestamp then
    .error (.timestampTooOld parent.header.timestamp block.header.timestamp)
  else if block.header.timestamp > now + config.timestampTolerance then
    .error (.timestampTooFarInFuture block.header.timestamp now config.timestampTolerance)
  else .ok ()

def validateMerkleRoots (cr : Crypto) (block : Block) : Except ValidationError Unit :=
  if block.verifyBodyRoot cr = false then .error (.invalidTransactionsRoot block.header.number)
  else .ok ()

/-- Every transaction is signed and carries its hash. -/
def validateTransactions (cr : Crypto) (blockNumber : Nat) : List SignedTransaction → Nat → Except ValidationError Unit
  | [], _ => .ok ()
  | tx :: txs, index =>
    if tx.verify cr = false then .error (.invalidTransactionSignature blockNumber index)
    else if tx.hash?.isNone then .error (.transactionMissingHash blockNumber index)
    else validateTransactions cr blockNumber txs (index + 1)

def validateBlock {σ : Type} [LinearOrder σ] (sc : VrfScoring σ) (cr : Crypto) (config : ValidationConfig) (now : Nat)
    (block parent : Block) (validators : ValidatorSet) : Except ValidationError Unit := do
  validateBasicStructure cr block parent
  if config.verifySignatures then validateSignature cr block
  validateAuthorAuthorization sc config block validators
  validateTimestamp config now block parent
  if config.verifyMerkleRoots then validateMerkleRoots cr block
  validateTransactions cr block.header.number block.body.transactions 0

def validateGenesis (block : Block) : Except ValidationError Unit :=
  if block.header.number ≠ 0 then .error .invalidGenesisBlock
  else if block.header.parentHash ≠ Hash.zero then .error .invalidGenesisBlock
  else .ok ()

/-! ## What is accepted -/

/-- The checks that are switched on, as conditions on the block. -/
structure Accepts {σ : Type} [LinearOrder σ] (sc : VrfScoring σ) (cr : Crypto) (config : ValidationConfig) (now : Nat)
    (block parent : Block) (validators : ValidatorSet) : Prop where
  number : block.header.number = parent.header.number + 1
  parentHash : block.header.parentHash = parent.hash cr
  later : parent.header.epoch < block.header.epoch ∨
    block.header.epoch = parent.header.epoch ∧ parent.header.slot < block.header.slot
  signed : config.verifySignatures = true → block.header.verifySignature cr = true
  authorized : validators.isActive block.header.author = true
  selected : config.verifySlotAssignment = true → ∀ id,
    selectValidator sc block.header.slot block.header.epoch (slotCandidates validators) = .ok id →
      id = block.header.author
  timestamp : parent.header.timestamp < block.header.timestamp
  notAhead : block.header.timestamp ≤ now + config.timestampTolerance
  root : config.verifyMerkleRoots = true → block.header.transactionsRoot = block.body.transactionsRoot cr
  transactions : ∀ tx ∈ block.body.transactions, tx.verify cr = true ∧ tx.hash?.isSome = true

theorem seq_ok_iff (x y : Except ValidationError Unit) : (x >>= fun _ => y) = .ok () ↔ x = .ok () ∧ y = .ok () := by
  cases x with
  | error e => exact iff_of_false nofun (fun h => nomatch h.1)
  | ok u => exact (and_iff_right rfl).symm

theorem validateBasicStructure_ok_iff (cr : Crypto) (block parent : Block) :
    validateBasicStructure cr block parent = .ok () ↔
      block.header.number = parent.header.number + 1 ∧ block.header.parentHash = parent.hash cr ∧
        (parent.header.epoch < block.header.epoch ∨
          block.header.epoch = parent.header.epoch ∧ parent.header.slot < block.header.slot) := by
  unfold validateBasicStructure
  split
  · next h => exact iff_of_false nofun (fun hall => h hall.1)
  split
  · next h => exact iff_of_false nofun (fun hall => h hall.2.1)
  next hnumber hparent =>
  rw [not_not] at hnumber hparent
  rw [and_iff_right hnumber, and_iff_right hparent]
  split
  · exact iff_of_false nofun (by omega)
  split
  · exact iff_of_false nofun (by omega)
  · exact iff_of_true rfl (by omega)

theorem validateSlotAssignment_ok_iff {σ : Type} [LinearOrder σ] (sc : VrfScoring σ) (block : Block)
    (validators : ValidatorSet) :
    validateSlotAssignment sc block validators = .ok () ↔ ∀ id,
      selectValidator sc block.header.slot block.header.epoch (slotCandidates validators) = .ok id →
        id = block.header.author := by
  unfold validateSlotAssignment
  simp only
  split
  · next hempty =>
    refine iff_of_true rfl fun id hid => ?_
    unfold selectValidator at hid
    rw [if_pos hempty] at hid
    cases hid
  · cases selectValidator sc block.header.slot block.header.epoch (slotCandidates validators) with
    | error e => exact iff_of_true rfl nofun
    | ok id =>
      by_cases h : id = block.header.author <;> simp [h]

theorem validateTransactions_ok_iff (cr : Crypto) (blockNumber : Nat) (txs : List SignedTransaction) (index : Nat) :
    validateTransactions cr blockNumber txs index = .ok () ↔
      ∀ tx ∈ txs, tx.verify cr = true ∧ tx.hash?.isSome = true := by
  induction txs generalizing index with
  | nil => exact iff_of_true rfl (by simp)
  | cons tx txs ih =>
    unfold validateTransactions
    rw [List.forall_mem_cons]
    split
    · next h => exact iff_of_false nofun (fun hall => by simp [hall.1.1] at h)
    split
    · next h => exact iff_of_false nofun (fun hall => by simp [Option.isSome_iff_ne_none.mp hall.1.2] at h)
    · next hverify hhash =>
      rw [ih, and_iff_right]
      exact ⟨by simpa using hverify, by simpa [Option.isSome_iff_ne_none] using hhash⟩

theorem validateMerkleRoots_ok_iff (cr : Crypto) (block : Block) :
    validateMerkleRoots cr block = .ok () ↔
      block.header.transactionsRoot = block.body.transactionsRoot cr := by
  unfold validateMerkleRoots Block.verifyBodyRoot
  by_cases h : block.header.transactionsRoot = block.body.transactionsRoot cr <;> simp [h]

/-- **Acceptance.**  The validator accepts a block exactly if all checks that are switched on hold. -/
theorem validateBlock_ok_iff {σ : Type} [LinearOrder σ] (sc : VrfScoring σ) (cr : Crypto) (config : ValidationConfig)
    (now : Nat) (block parent : Block) (validators : ValidatorSet) :
    validateBlock sc cr config now block parent validators = .ok () ↔
      Accepts sc cr config now block parent validators := by
  have hsignature : validateSignature cr block = .ok () ↔ block.header.verifySignature cr = true := by
    unfold validateSignature
    cases block.header.verifySignature cr <;> simp
  have hauthor : validateAuthorAuthorization sc config block validators = .ok () ↔
      validators.isActive block.header.author = true ∧ (config.verifySlotAssignment = true →
        validateSlotAssignment sc block validators = .ok ()) := by
    unfold validateAuthorAuthorization
    cases validators.isActive block.header.author <;> cases config.verifySlotAssignment <;> simp
  have htimestamp : validateTimestamp config now block parent = .ok () ↔
      parent.header.timestamp < block.header.timestamp ∧
        block.header.timestamp ≤ now + config.timestampTolerance := by
    unfold validateTimestamp
    split
    · exact iff_of_false nofun (by omega)
    split
    · exact iff_of_false nofun (by omega)
    · exact iff_of_true rfl (by omega)
  have hparts : validateBlock sc cr config now block parent validators = .ok () ↔
      validateBasicStructure cr block parent = .ok () ∧
        (config.verifySignatures = true → validateSignature cr block = .ok ()) ∧
        validateAuthorAuthorization sc config block validators = .ok () ∧
        validateTimestamp config now block parent = .ok () ∧
        (config.verifyMerkleRoots = true → validateMerkleRoots cr block = .ok ()) ∧
        validateTransactions cr block.header.number block.body.transactions 0 = .ok () := by
    unfold validateBlock
    cases config.verifySignatures <;> cases config.verifyMerkleRoots <;> simp [seq_ok_iff]
  rw [hparts, validateBasicStructure_ok_iff, hsignature, hauthor, validateSlotAssignment_ok_iff, htimestamp,
    validateMerkleRoots_ok_iff, validateTransactions_ok_iff]
  constructor
  · rintro ⟨⟨hnumber, hparent, hlater⟩, hsigned, ⟨hactive, hselected⟩, ⟨htime, hahead⟩, hroot, htxs⟩
    exact ⟨hnumber, hparent, hlater, hsigned, hactive, hselected, htime, hahead, hroot, htxs⟩
  · intro h
    exact ⟨⟨h.number, h.parentHash, h.later⟩, h.signed, ⟨h.authorized, h.selected⟩, ⟨h.timestamp, h.notAhead⟩, h.root,
      h.transactions⟩

/-- In a list of blocks that count up, the numbers do. -/
theorem number_of_counting (g : Block) (l : List Block)
    (h : (g :: l).IsChain fun parent block => block.header.number = parent.header.number + 1) (i : Nat) (b : Block)
    (hb : (g :: l)[i]? = some b) : b.header.number = g.header.number + i := by
  induction i generalizing g l with
  | zero =>
    cases hb
    rfl
  | succ i ih =>
    cases l with
    | nil => cases hb
    | cons a l =>
      rw [List.isChain_cons_cons] at h
      have := ih a l h.2 hb
      have := h.1
      omega

/-- **Chains of accepted blocks.**  From a genesis block on, whatever the clock and the validators are at
each block, the blocks are numbered from 0, each names the one before it, and slots and timestamps
strictly increase. -/
theorem accepted_chain {σ : Type} [LinearOrder σ] (sc : VrfScoring σ) (cr : Crypto) (config : ValidationConfig)
    (g : Block) (l : List Block) (hgenesis : validateGenesis g = .ok ())
    (haccepted : (g :: l).IsChain fun parent block =>
      ∃ now validators, validateBlock sc cr config now block parent validators = .ok ()) :
    (∀ i (b : Block), (g :: l)[i]? = some b → b.header.number = i) ∧
      HashChain.Chained (Block.hash cr) (fun b : Block => b.header.parentHash) (g :: l) ∧
      (g :: l).Pairwise fun a b =>
        toLex (a.header.epoch, a.header.slot) < toLex (b.header.epoch, b.header.slot) ∧
          a.header.timestamp < b.header.timestamp := by
  have haccepts : (g :: l).IsChain fun parent block =>
      ∃ now validators, Accepts sc cr config now block parent validators := by
    refine haccepted.imp fun parent block hblock => ?_
    obtain ⟨now, validators, h⟩ := hblock
    exact ⟨now, validators, (validateBlock_ok_iff sc cr config now block parent validators).mp h⟩
  have hzero : g.header.number = 0 := by
    unfold validateGenesis at hgenesis
    by_contra hne
    rw [if_pos hne] at hgenesis
    cases hgenesis
  refine ⟨fun i b hb => ?_, haccepts.imp fun _ _ ⟨_, _, h⟩ => h.parentHash, ?_⟩
  · have := number_of_counting g l (haccepts.imp fun _ _ ⟨_, _, h⟩ => h.number) i b hb
    omega
  · have : IsTrans Block fun a b =>
        toLex (a.header.epoch, a.header.slot) < toLex (b.header.epoch, b.header.slot) ∧
          a.header.timestamp < b.header.timestamp :=
      ⟨fun _ _ _ h h' => ⟨h.1.trans h'.1, h.2.trans h'.2⟩⟩
    refine List.isChain_iff_pairwise.mp (haccepts.imp fun parent block hblock => ?_)
    obtain ⟨now, validators, h⟩ := hblock
    refine ⟨?_, h.timestamp⟩
    rw [Prod.Lex.toLex_lt_toLex]
    exact h.later.imp_right fun hslot => ⟨hslot.1.symm, hslot.2⟩

/-- An empty block of the only validator, which has the slot, half a minute ahead of the clock. -/
example :
    let header : BlockHeader :=
      { number := 0, parentHash := .zero, transactionsRoot := .zero, stateRoot := .zero, timestamp := 1000
        epoch := 0, slot := 0, author := ⟨1⟩, signature := .zero }
    let genesis : Block := { header, body := ⟨[]⟩ }
    let block : Block :=
      { genesis with
        header :=
          { header with number := 1, parentHash := genesis.hash Crypto.sample, timestamp := 1030, slot := 1 } }
    let validators : ValidatorSet :=
      { ValidatorSet.new with validators := SortedMap.empty.insert ⟨1⟩ (ValidatorInfo.newBootstrap ⟨1⟩ 0) }
    validateGenesis genesis = .ok () ∧
      validateBlock sampleScoring Crypto.sample .default 1000 block genesis validators = .ok () := by
  decide +kernel

/-! ## The transactions root -/

/-- **Produced blocks.**  An accepted block whose root was computed as producers do has at most one
transaction, or two that are the hashes of their own hashes. -/
theorem Accepts.of_producer {σ : Type} [LinearOrder σ] {sc : VrfScoring σ} {cr : Crypto} {config : ValidationConfig}
    {now : Nat} {block parent : Block} {validators : ValidatorSet}
    (h : Accepts sc cr config now block parent validators) (hroots : config.verifyMerkleRoots = true)
    (hproduced : block.header.transactionsRoot = computeTransactionsRoot cr block.body.transactions)
    (hsec : StateMerkleTree.NoSecondPreimage cr (block.body.txData cr)) :
    block.body.transactions.length ≤ 1 ∨
      (block.body.transactions.length = 2 ∧
        ∀ tx ∈ block.body.transactions, cr.blake3 (tx.hash cr).asBytes = tx.hash cr) :=
  (computeTransactionsRoot_eq_iff cr block.body hsec).mp (hproduced.symm.trans (h.root hroots))

/-- A block with the producer's root passes the check of the tree's root exactly when it has at most
one transaction, or two that are the hashes of their own hashes. -/
theorem produced_root_accepted_iff (cr : Crypto) (block : Block)
    (hproduced : block.header.transactionsRoot = computeTransactionsRoot cr block.body.transactions)
    (hsec : StateMerkleTree.NoSecondPreimage cr (block.body.txData cr)) :
    (computeTransactionsRoot cr block.body.transactions = block.body.transactionsRoot cr ∧
        validateMerkleRoots cr block = .ok ()) ↔
      block.body.transactions.length ≤ 1 ∨
        (block.body.transactions.length = 2 ∧
          ∀ tx ∈ block.body.transactions, cr.blake3 (tx.hash cr).asBytes = tx.hash cr) := by
  rw [validateMerkleRoots_ok_iff, hproduced, and_self, computeTransactionsRoot_eq_iff cr block.body hsec]

/-- A transfer of one account to another. -/
def sampleTransfer (nonce : Nonce) : SignedTransaction :=
  { transaction := { sender := ⟨1⟩, nonce, call := .transfer ⟨2⟩ 5, timestamp := 1000 }
    signature := .zero, hash? := none }

/-- A block with the root that producers compute. -/
def sampleBlock (cr : Crypto) (transactions : List SignedTransaction) : Block :=
  { header :=
      { number := 1, parentHash := .zero, transactionsRoot := computeTransactionsRoot cr transactions
        stateRoot := .zero, timestamp := 1000, epoch := 0, slot := 1, author := ⟨1⟩, signature := .zero }
    body := { transactions } }

/-- Digests of the transactions, and of the strings hashed for a tree over their hashes. -/
def twoLeafCrypto : Crypto :=
  StateMerkleTree.telling [(sampleTransfer 0).transaction.encode, (sampleTransfer 1).transaction.encode, Bytes.be 32 1,
    Bytes.be 32 2, Bytes.be 32 3 ++ Bytes.be 32 4]

/-- One transfer passes, and with a second one the block does not. -/
theorem produced_root_accepted_iff_sample :
    (computeTransactionsRoot twoLeafCrypto [sampleTransfer 0] =
          (BlockBody.mk [sampleTransfer 0]).transactionsRoot twoLeafCrypto ∧
        validateMerkleRoots twoLeafCrypto (sampleBlock twoLeafCrypto [sampleTransfer 0]) = .ok ()) ∧
      ¬(computeTransactionsRoot twoLeafCrypto [sampleTransfer 0, sampleTransfer 1] =
            (BlockBody.mk [sampleTransfer 0, sampleTransfer 1]).transactionsRoot twoLeafCrypto ∧
          validateMerkleRoots twoLeafCrypto (sampleBlock twoLeafCrypto [sampleTransfer 0, sampleTransfer 1]) =
            .ok ()) := by
  have hsec : ∀ txs : List SignedTransaction,
      (∀ x ∈ StateMerkleTree.hashed twoLeafCrypto ((BlockBody.mk txs).txData twoLeafCrypto),
        x ∈ [(sampleTransfer 0).transaction.encode, (sampleTransfer 1).transaction.encode, Bytes.be 32 1,
          Bytes.be 32 2, Bytes.be 32 3 ++ Bytes.be 32 4]) →
      StateMerkleTree.NoSecondPreimage twoLeafCrypto ((BlockBody.mk txs).txData twoLeafCrypto) :=
    fun txs hmem x hx y h => StateMerkleTree.telling_inj _ (by decide) x y (hmem x hx) h
  constructor
  · exact (produced_root_accepted_iff twoLeafCrypto (sampleBlock twoLeafCrypto [sampleTransfer 0]) rfl
      (hsec _ (by decide +kernel))).mpr (Or.inl (by decide))
  · intro h
    have hwhich := (produced_root_accepted_iff twoLeafCrypto
      (sampleBlock twoLeafCrypto [sampleTransfer 0, sampleTransfer 1]) rfl (hsec _ (by decide +kernel))).mp h
    exact absurd hwhich (by decide +kernel)

/-- A produced block with two transfers does not pass the other validator's root check. -/
theorem two_transfers_rejected :
    computeTransactionsRoot Crypto.sample [sampleTransfer 0, sampleTransfer 1] ≠
      (BlockBody.mk [sampleTransfer 0, sampleTransfer 1]).transactionsRoot Crypto.sample ∧
    validateMerkleRoots Crypto.sample (sampleBlock Crypto.sample [sampleTransfer 0, sampleTransfer 1]) =
      .error (.invalidTransactionsRoot 1) := by
  decide +kernel

end Validation

end Kratos
