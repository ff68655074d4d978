import Kratos.Node.Executor

/-!
# Block rewards and fee distribution

The reward arithmetic in `f64` is a parameter (`RewardFormulas`); what the code
does with its results is written out: the minimum reward, the treasury's
remainder, the shares of the finality voters, and the order in which the
accounts are credited.
-/

namespace Kratos

def slotsPerEpoch : Nat := 600

def epochsPerYear : Nat := 8760

/-- Epochs of the bootstrap era. -/
def bootstrapEndEpoch : Nat := 1440

def treasuryAccount : AccountId := ⟨⟨0xFEEDC0DE * 2 ^ 224 + 0x54524541, by decide⟩⟩

/-- The formulas computed in floating point, at the default configurations and
metrics.  A multiplier of at least one keeps a positive reward positive, and a
share of nothing is nothing. -/
structure RewardFormulas where
  /-- `total_supply * target_inflation` -/
  bootstrapEmission : Balance
  /-- the inflation calculator's annual emission -/
  adaptiveEmission : Balance
  /-- `base * (1 + ln (1 + vc) / 10)` -/
  vcBonus : Balance → Nat → Balance
  /-- the producer's, the voters' and the burned share of a fee -/
  producerShare : Balance → Balance
  finalityVotersShare : Balance → Balance
  burnShare : Balance → Balance
  vcBonus_pos : ∀ (base : Balance) (vc : Nat), 0 < base → 0 < vcBonus base vc
  finalityVotersShare_zero : finalityVotersShare 0 = 0

/-- Integer stand-ins to run the model with: the emissions of 6.5 % and 0.5 %,
the shares 50/10/30/10, and no bonus. -/
def RewardFormulas.sample : RewardFormulas :=
  { bootstrapEmission := 65000000000000000000
    adaptiveEmission := 5000000000000000000
    vcBonus := fun base _ => base
    producerShare := fun fee => ⟨fee.val / 2, lt_of_le_of_lt (Nat.div_le_self _ _) fee.isLt⟩
    finalityVotersShare := fun fee => ⟨fee.val / 10, lt_of_le_of_lt (Nat.div_le_self _ _) fee.isLt⟩
    burnShare := fun fee => ⟨fee.val * 3 / 10, by have := fee.isLt; omega⟩
    vcBonus_pos := fun _ _ h => h
    finalityVotersShare_zero := by decide }

structure FeeDistributionResult where
  producer : Balance
  finalityVoters : Balance
  burn : Balance
  treasury : Balance
deriving DecidableEq, Repr

namespace FeeDistributionResult

def perVoterShare (r : FeeDistributionResult) (numVoters : Nat) : Balance :=
  if numVoters = 0 then 0
  else ⟨r.finalityVoters.val / numVoters, lt_of_le_of_lt (Nat.div_le_self _ _) r.finalityVoters.isLt⟩

def voterRemainder (r : FeeDistributionResult) (numVoters : Nat) : Balance :=
  if numVoters = 0 then r.finalityVoters
  else ⟨r.finalityVoters.val % numVoters, lt_of_le_of_lt (Nat.mod_le _ _) r.finalityVoters.isLt⟩

end FeeDistributionResult

namespace RewardFormulas

/-- The treasury gets what the rounded shares leave. -/
def distribute (f : RewardFormulas) (totalFee : Balance) : FeeDistributionResult :=
  let producer := f.producerShare totalFee
  let finalityVoters := f.finalityVotersShare totalFee
  let burn := f.burnShare totalFee
  { producer, finalityVoters, burn
    treasury := Word.satSub (Word.satSub (Word.satSub totalFee producer) finalityVoters) burn }

def annualEmission (f : RewardFormulas) (epoch : Nat) : Balance :=
  if epoch < bootstrapEndEpoch then f.bootstrapEmission else f.adaptiveEmission

/-- Reward of one block, at least one KRAT. -/
def calculateBlockReward (f : RewardFormulas) (epoch : Nat) : Balance :=
  let blocksPerYear := epochsPerYear * slotsPerEpoch
  let blockReward : Balance := ⟨(f.annualEmission epoch).val / blocksPerYear,
    lt_of_le_of_lt (Nat.div_le_self _ _) (f.annualEmission epoch).isLt⟩
  max blockReward krat

def applyVcBonus (f : RewardFormulas) (baseReward : Balance) (validatorVc : Nat) : Balance :=
  if validatorVc > 0 then f.vcBonus baseReward validatorVc else baseReward

theorem calculateBlockReward_pos (f : RewardFormulas) (epoch : Nat) :
    0 < f.calculateBlockReward epoch :=
  lt_of_lt_of_le (by decide) (le_max_right _ krat)

theorem applyVcBonus_pos (f : RewardFormulas) (base : Balance) (vc : Nat) (h : 0 < base) :
    0 < f.applyVcBonus base vc := by
  unfold applyVcBonus
  split
  · exact f.vcBonus_pos base vc h
  · exact h

/-- Block reward with bonus and the producer's part of the fees. -/
def totalProducerReward (f : RewardFormulas) (s : StateBackend) (author : AccountId) (epoch : Nat)
    (totalFees : Balance) : Balance :=
  Word.satAdd (f.applyVcBonus (f.calculateBlockReward epoch) (s.getTotalVc author))
    (f.distribute totalFees).producer

theorem totalProducerReward_pos (f : RewardFormulas) (s : StateBackend) (author : AccountId)
    (epoch : Nat) (totalFees : Balance) : 0 < f.totalProducerReward s author epoch totalFees := by
  have h := f.applyVcBonus_pos _ (s.getTotalVc author) (f.calculateBlockReward_pos epoch)
  rw [Fin.lt_def] at h ⊢
  unfold totalProducerReward
  rw [Word.val_satAdd]
  simp only [Fin.val_zero] at h ⊢
  omega

end RewardFormulas

/-! ## Crediting -/

/-- Add to the free balance of an account, created if it is absent. -/
def StateBackend.credit (s : StateBackend) (id : AccountId) (amount : Balance) : StateBackend :=
  let account := (s.getAccount id).getD AccountInfo.new
  s.setAccount id { account with free := Word.satAdd account.free amount }

/-- Credit every voter other than the producer. -/
def creditVoters (author : AccountId) (share : Balance) : StateBackend → List AccountId → StateBackend
  | s, [] => s
  | s, voter :: voters =>
    if voter = author then creditVoters author share s voters
    else creditVoters author share (s.credit voter share) voters

/-- Rewards of a block and its finality voters; the result is the producer's reward.
The treasury is paid with the remainder and once more at the end. -/
def applyBlockRewardsWithFinality (f : RewardFormulas) (s : StateBackend) (author : AccountId)
    (epoch : Nat) (totalFees : Balance) (finalityVoters : List AccountId) : StateBackend × Balance :=
  let feeResult := f.distribute totalFees
  let totalProducerReward := f.totalProducerReward s author epoch totalFees
  let s := if totalProducerReward > 0 then s.credit author totalProducerReward else s
  let numVoters := finalityVoters.length
  let s :=
    if numVoters > 0 ∧ feeResult.finalityVoters > 0 then
      let perVoterShare := feeResult.perVoterShare numVoters
      let remainder := feeResult.voterRemainder numVoters
      let s := creditVoters author perVoterShare s finalityVoters
      if remainder > 0 then
        let account := (s.getAccount treasuryAccount).getD AccountInfo.new
        s.setAccount treasuryAccount
          { account with free := Word.satAdd (Word.satAdd account.free feeResult.treasury) remainder }
      else s
    else
      let treasuryAmount := Word.satAdd feeResult.treasury feeResult.finalityVoters
      if treasuryAmount > 0 then s.credit treasuryAccount treasuryAmount else s
  let s :=
    if numVoters > 0 ∧ feeResult.treasury > 0 then s.credit treasuryAccount feeResult.treasury else s
  (s, totalProducerReward)

/-- Rewards of an imported block: no finality voters. -/
def applyBlockRewardsForImport (f : RewardFormulas) (s : StateBackend) (author : AccountId)
    (epoch : Nat) (totalFees : Balance) : StateBackend × Balance :=
  applyBlockRewardsWithFinality f s author epoch totalFees []

/-- Import pays the producer, then fee remainder and voters' share to the treasury. -/
theorem applyBlockRewardsForImport_eq (f : RewardFormulas) (s : StateBackend) (author : AccountId)
    (epoch : Nat) (totalFees : Balance) :
    (applyBlockRewardsForImport f s author epoch totalFees).1 =
      let paid := s.credit author (f.totalProducerReward s author epoch totalFees)
      let treasuryAmount := Word.satAdd (f.distribute totalFees).treasury
        (f.distribute totalFees).finalityVoters
      if treasuryAmount > 0 then paid.credit treasuryAccount treasuryAmount else paid := by
  have hpos := f.totalProducerReward_pos s author epoch totalFees
  unfold applyBlockRewardsForImport applyBlockRewardsWithFinality
  simp only [List.length_nil, gt_iff_lt, lt_irrefl, false_and, if_false, hpos, if_true]

/-! ## What rewards leave alone -/

/-- Same state but for free balances and records that were absent. -/
structure OnlyCredits (s s' : StateBackend) : Prop where
  nonce : ∀ j, (s'.accountOrNew j).nonce = (s.accountOrNew j).nonce
  reserved : ∀ j, (s'.accountOrNew j).reserved = (s.accountOrNew j).reserved
  rest : { s' with accounts := s.accounts } = s

namespace OnlyCredits

theorem refl (s : StateBackend) : OnlyCredits s s := ⟨fun _ => rfl, fun _ => rfl, rfl⟩

theorem trans (s t u : StateBackend) (h : OnlyCredits s t) (h' : OnlyCredits t u) :
    OnlyCredits s u := by
  refine ⟨fun j => (h'.nonce j).trans (h.nonce j), fun j => (h'.reserved j).trans (h.reserved j), ?_⟩
  have ht : { u with accounts := s.accounts } = { t with accounts := s.accounts } := by
    rw [← h'.rest]
  rw [ht, h.rest]

/-- Writing an account back with another free balance. -/
theorem setAccount (s : StateBackend) (id : AccountId) (free : Balance) :
    OnlyCredits s (s.setAccount id { s.accountOrNew id with free := free }) := by
  refine ⟨fun j => ?_, fun j => ?_, rfl⟩
  · rw [StateBackend.accountOrNew_setAccount]
    split
    · next h => rw [h]
    · rfl
  · rw [StateBackend.accountOrNew_setAccount]
    split
    · next h => rw [h]
    · rfl

theorem credit (s : StateBackend) (id : AccountId) (amount : Balance) :
    OnlyCredits s (s.credit id amount) :=
  setAccount s id _

theorem ite (c : Prop) [Decidable c] (s t u : StateBackend) (ht : OnlyCredits s t)
    (hu : OnlyCredits s u) : OnlyCredits s (if c then t else u) := by
  split
  · exact ht
  · exact hu

theorem creditVoters (author : AccountId) (share : Balance) (s : StateBackend)
    (voters : List AccountId) : OnlyCredits s (creditVoters author share s voters) := by
  induction voters generalizing s with
  | nil => exact refl s
  | cons voter voters ih =>
    unfold Kratos.creditVoters
    split
    · exact ih s
    · exact trans _ _ _ (credit s voter share) (ih _)

end OnlyCredits

/-- **Rewards only credit.**  No nonce, no reserved balance and nothing outside
the account map moves. -/
theorem applyBlockRewardsWithFinality_onlyCredits (f : RewardFormulas) (s : StateBackend)
    (author : AccountId) (epoch : Nat) (totalFees : Balance) (voters : List AccountId) :
    OnlyCredits s (applyBlockRewardsWithFinality f s author epoch totalFees voters).1 := by
  unfold applyBlockRewardsWithFinality
  simp only
  -- from the last payment backwards, each one starts from the state before it
  refine OnlyCredits.trans _ ?mid _ ?shares ?last
  case last =>
    apply OnlyCredits.ite
    · exact OnlyCredits.credit _ _ _
    · exact OnlyCredits.refl _
  case shares =>
    refine OnlyCredits.trans _ ?start _ ?paid ?split
    case split =>
      apply OnlyCredits.ite
      · refine OnlyCredits.trans _ _ _ (OnlyCredits.creditVoters author
          ((f.distribute totalFees).perVoterShare voters.length) _ voters) ?_
        apply OnlyCredits.ite
        · exact OnlyCredits.setAccount _ _ _
        · exact OnlyCredits.refl _
      · apply OnlyCredits.ite
        · exact OnlyCredits.credit _ _ _
        · exact OnlyCredits.refl _
    case paid =>
      apply OnlyCredits.ite
      · exact OnlyCredits.credit _ _ _
      · exact OnlyCredits.refl _

end Kratos
