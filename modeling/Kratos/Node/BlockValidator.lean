import Kratos.Consensus.Validator
import Kratos.Storage.Drift

/-!
# Block validation

What is checked of a block against its parent and the validator set before any
of it is executed: numbering, parent hash, timestamp, epoch and slot, author,
signature, transactions root, and the signature of every transaction, in this
order.  `now` is the local clock in seconds.  `validate_ok_iff` collects what an
accepted block satisfies.
-/

namespace Kratos

def maxFutureDriftSecs : Nat := 10

/-- One second below the slot duration. -/
def minBlockIntervalSecs : Nat := slotDurationSecs - 1

inductive ValidationError where
  | invalidBlockNumber (expected got : Nat)
  | invalidParentHash
  | timestampNotAfterParent (blockTs parentTs : Nat)
  | timestampTooFarInFuture (blockTs currentTs maxDrift : Nat)
  | timestampTooCloseToParent (interval minRequired : Nat)
  | timestampSlotMismatch (expectedTs actualTs slot : Nat)
  | invalidEpoch
  | invalidSlot
  | invalidAuthor
  | invalidAuthorKey
  | invalidBlockSignature
  | invalidTransactionsRoot
  | invalidTransactionSignature (index : Nat)
deriving DecidableEq, Repr

namespace BlockValidator

def validateTimestamp (now : Nat) (block parent : Block) : Except ValidationError Unit :=
  let blockTs := block.header.timestamp
  let parentTs := parent.header.timestamp
  if blockTs ≤ parentTs then .error (.timestampNotAfterParent blockTs parentTs)
  else if blockTs > Word.satAdd64 now maxFutureDriftSecs then
    .error (.timestampTooFarInFuture blockTs now maxFutureDriftSecs)
  else
    let interval := blockTs - parentTs
    if interval < minBlockIntervalSecs then
      .error (.timestampTooCloseToParent interval minBlockIntervalSecs)
    else
      let slotsElapsed := block.header.slot - parent.header.slot
      let expectedInterval := Word.satMul64 slotsElapsed slotDurationSecs
      let drift := Word.satSubI64 (Word.asI64 interval) (Word.asI64 expectedInterval)
      if Word.absI64 drift > Word.asI64 slotDurationSecs then
        .error (.timestampSlotMismatch (Word.satAdd64 parentTs expectedInterval) blockTs block.header.slot)
      else .ok ()

def verifySignature (cr : Crypto) (block : Block) : Except ValidationError Unit :=
  if cr.ed25519Key block.header.author = false then .error .invalidAuthorKey
  else
    let message := domainSeparate domainBlockHeader (block.header.hash cr).asBytes
    if cr.ed25519Verify block.header.author message block.header.signature = false then
      .error .invalidBlockSignature
    else .ok ()

/-- The first transaction whose signature does not verify, by its index. -/
def verifyTransactions (cr : Crypto) : List SignedTransaction → Nat → Except ValidationError Unit
  | [], _ => .ok ()
  | tx :: txs, i =>
    if tx.verify cr = false then .error (.invalidTransactionSignature i)
    else verifyTransactions cr txs (i + 1)

/-- What can be checked of a block without its parent. -/
def validateStandalone (cr : Crypto) (block : Block) : Except ValidationError Unit :=
  match verifySignature cr block with
  | .error e => .error e
  | .ok () =>
    if block.header.transactionsRoot ≠ computeTransactionsRoot cr block.body.transactions then
      .error .invalidTransactionsRoot
    else .ok ()

def validate (cr : Crypto) (now : Nat) (block parent : Block) (validatorSet : ValidatorSet) :
    Except ValidationError Unit :=
  if block.header.number ≠ parent.header.number + 1 then
    .error (.invalidBlockNumber (parent.header.number + 1) block.header.number)
  else if block.header.parentHash ≠ parent.hash cr then .error .invalidParentHash
  else
    match validateTimestamp now block parent with
    | .error e => .error e
    | .ok () =>
      if block.header.epoch < parent.header.epoch then .error .invalidEpoch
      else if block.header.epoch = parent.header.epoch ∧ block.header.slot ≤ parent.header.slot then
        .error .invalidSlot
      else if validatorSet.isActive block.header.author = false then .error .invalidAuthor
      else
        match verifySignature cr block with
        | .error e => .error e
        | .ok () =>
          if block.header.transactionsRoot ≠ computeTransactionsRoot cr block.body.transactions then
            .error .invalidTransactionsRoot
          else verifyTransactions cr block.body.transactions 0

/-! ## What an accepted block satisfies -/

theorem validateTimestamp_ok_iff (now : Nat) (block parent : Block) :
    validateTimestamp now block parent = .ok () ↔
      parent.header.timestamp + minBlockIntervalSecs ≤ block.header.timestamp ∧
      block.header.timestamp ≤ Word.satAdd64 now maxFutureDriftSecs ∧
      Word.absI64 (Word.satSubI64 (Word.asI64 (block.header.timestamp - parent.header.timestamp))
        (Word.asI64 (Word.satMul64 (block.header.slot - parent.header.slot) slotDurationSecs))) ≤
          Word.asI64 slotDurationSecs := by
  have hmin : 0 < minBlockIntervalSecs := by decide
  unfold validateTimestamp
  simp only
  split
  · next hparent =>
    simp only [reduceCtorEq, false_iff]
    omega
  · next hparent =>
    split
    · next hfuture =>
      simp only [reduceCtorEq, false_iff]
      omega
    · next hfuture =>
      split
      · next hclose =>
        simp only [reduceCtorEq, false_iff]
        omega
      · next hclose =>
        split
        · next hslot =>
          simp only [reduceCtorEq, false_iff]
          omega
        · next hslot =>
          simp only [true_iff]
          omega

theorem verifyTransactions_ok_iff (cr : Crypto) (txs : List SignedTransaction) (i : Nat) :
    verifyTransactions cr txs i = .ok () ↔ ∀ tx ∈ txs, tx.verify cr = true := by
  induction txs generalizing i with
  | nil => simp [verifyTransactions]
  | cons tx txs ih =>
    unfold verifyTransactions
    cases hv : tx.verify cr with
    | false => simp [hv]
    | true => simp [hv, ih]

/-- The block is well formed against its parent and the validator set. -/
structure WellFormed (cr : Crypto) (now : Nat) (block parent : Block) (validatorSet : ValidatorSet) :
    Prop where
  number : block.header.number = parent.header.number + 1
  parentHash : block.header.parentHash = parent.hash cr
  timestamp : validateTimestamp now block parent = .ok ()
  epoch : parent.header.epoch ≤ block.header.epoch
  slot : block.header.epoch = parent.header.epoch → parent.header.slot < block.header.slot
  author : validatorSet.isActive block.header.author = true
  signature : verifySignature cr block = .ok ()
  transactionsRoot : block.header.transactionsRoot = computeTransactionsRoot cr block.body.transactions
  transactions : ∀ tx ∈ block.body.transactions, tx.verify cr = true

/-- **Validation** accepts the well-formed blocks and no others. -/
theorem validate_ok_iff (cr : Crypto) (now : Nat) (block parent : Block) (validatorSet : ValidatorSet) :
    validate cr now block parent validatorSet = .ok () ↔
      WellFormed cr now block parent validatorSet := by
  constructor
  · intro h
    unfold validate at h
    split at h
    · cases h
    · next hnumber =>
      split at h
      · cases h
      · next hparent =>
        split at h
        · cases h
        · next htime =>
          split at h
          · cases h
          · next hepoch =>
            split at h
            · cases h
            · next hslot =>
              split at h
              · cases h
              · next hauthor =>
                split at h
                · cases h
                · next hsig =>
                  split at h
                  · cases h
                  · next hroot =>
                    exact
                      { number := not_not.mp hnumber
                        parentHash := not_not.mp hparent
                        timestamp := htime
                        epoch := not_lt.mp hepoch
                        slot := fun he => not_le.mp fun hle => hslot ⟨he, hle⟩
                        author := by simpa using hauthor
                        signature := hsig
                        transactionsRoot := not_not.mp hroot
                        transactions := (verifyTransactions_ok_iff cr _ 0).mp h }
  · intro h
    have hslot : ¬ (block.header.epoch = parent.header.epoch ∧ block.header.slot ≤ parent.header.slot) :=
      fun hs => absurd (h.slot hs.1) (not_lt.mpr hs.2)
    have hactive : ¬ validatorSet.isActive block.header.author = false := by simp [h.author]
    unfold validate
    rw [if_neg (not_not.mpr h.number), if_neg (not_not.mpr h.parentHash), h.timestamp]
    simp only
    rw [if_neg (not_lt.mpr h.epoch), if_neg hslot, if_neg hactive, h.signature]
    simp only
    rw [if_neg (not_not.mpr h.transactionsRoot)]
    exact (verifyTransactions_ok_iff cr _ 0).mpr h.transactions

end BlockValidator

end Kratos
