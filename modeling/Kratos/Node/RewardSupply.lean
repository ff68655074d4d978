import Kratos.Node.Rewards

/-!
# What rewards create and destroy

A block's rewards are a list of payments (`payments`), each a credit of one account, so the
free balances grow by the sum of the list (`sumFree_pay`).  The producer is to get the block
reward and its share of the fees, the voters theirs, the treasury the rest, and the burned
share goes to nobody.

With finality voters this is not what is paid.  The treasury is paid its share once more
where the voters' share leaves a remainder or is zero, and a producer among the voters gets
nothing, and nobody else does.  `rewards_exact_iff` says when these cancel.
-/

namespace Kratos

namespace StateBackend

theorem accountOrNew_credit (s : StateBackend) (id j : AccountId) (amount : Balance) :
    ((s.credit id amount).accountOrNew j).free =
      if j = id then Word.satAdd (s.accountOrNew id).free amount else (s.accountOrNew j).free := by
  unfold credit
  rw [accountOrNew_setAccount]
  split <;> rfl

theorem sumFree_credit (s : StateBackend) (id : AccountId) (amount : Balance)
    (h : (s.accountOrNew id).free.val + amount.val < 2 ^ 128) :
    (s.credit id amount).sumFree = s.sumFree + amount.val := by
  have hset : (s.credit id amount).sumFree + (s.accountOrNew id).free.val =
      s.sumFree + (Word.satAdd (s.accountOrNew id).free amount).val := s.sumFree_setAccount id _
  have hadd := Word.val_satAdd_of_lt (s.accountOrNew id).free amount h
  omega

/-- A credit never lowers the free balances, and is lost only on an account at the maximum. -/
theorem sumFree_le_credit (s : StateBackend) (id : AccountId) (amount : Balance) :
    s.sumFree ≤ (s.credit id amount).sumFree ∧
      (0 < amount.val → (s.credit id amount).sumFree ≤ s.sumFree →
        (s.accountOrNew id).free = Word.maxVal 128) := by
  have hset : (s.credit id amount).sumFree + (s.accountOrNew id).free.val =
      s.sumFree + (Word.satAdd (s.accountOrNew id).free amount).val := s.sumFree_setAccount id _
  have hlt := (s.accountOrNew id).free.isLt
  rw [Word.val_satAdd] at hset
  refine ⟨by omega, fun hpos hle => Fin.ext ?_⟩
  simp only [Word.maxVal]
  omega

/-- Two credits of one account. -/
theorem credit_credit (s : StateBackend) (id : AccountId) (a b : Balance) :
    (s.credit id a).credit id b =
      s.setAccount id
        { s.accountOrNew id with free := Word.satAdd (Word.satAdd (s.accountOrNew id).free a) b } := by
  have hread : (s.credit id a).getAccount id =
      some { s.accountOrNew id with free := Word.satAdd (s.accountOrNew id).free a } :=
    s.getAccount_setAccount_self id _
  have hdef : (s.credit id a).credit id b =
      (s.credit id a).setAccount id
        { ((s.credit id a).getAccount id).getD AccountInfo.new with
          free := Word.satAdd (((s.credit id a).getAccount id).getD AccountInfo.new).free b } := rfl
  rw [hdef, hread]
  simp only [Option.getD_some, credit, setAccount, SortedMap.insert_insert]

/-! ## Lists of payments -/

def pay (s : StateBackend) (l : List (AccountId × Balance)) : StateBackend :=
  l.foldl (fun s p => s.credit p.1 p.2) s

end StateBackend

/-- The amounts of a list of payments. -/
def paidSum (l : List (AccountId × Balance)) : Nat := (l.map fun p => p.2.val).sum

/-- What an account is paid. -/
def paidTo (id : AccountId) (l : List (AccountId × Balance)) : Nat := paidSum (l.filter fun p => decide (p.1 = id))

namespace StateBackend

/-- **Payments.**  Where no account overflows, the free balances grow by what is paid. -/
theorem sumFree_pay (s : StateBackend) (l : List (AccountId × Balance))
    (h : ∀ id, (s.accountOrNew id).free.val + paidTo id l < 2 ^ 128) :
    (s.pay l).sumFree = s.sumFree + paidSum l := by
  induction l generalizing s with
  | nil => simp [pay, paidSum]
  | cons p l ih =>
    have hfirst : (s.accountOrNew p.1).free.val + p.2.val < 2 ^ 128 := by
      have := h p.1
      simp only [paidTo, paidSum, List.filter_cons, decide_true, if_true, List.map_cons, List.sum_cons] at this
      omega
    have hrest : ∀ id, ((s.credit p.1 p.2).accountOrNew id).free.val + paidTo id l < 2 ^ 128 := by
      intro id
      have hid := h id
      rw [accountOrNew_credit]
      by_cases heq : id = p.1
      · rw [if_pos heq, Word.val_satAdd_of_lt _ _ hfirst]
        subst heq
        simp only [paidTo, paidSum, List.filter_cons, decide_true, if_true, List.map_cons, List.sum_cons] at hid ⊢
        omega
      · rw [if_neg heq]
        simp only [paidTo, paidSum, List.filter_cons, decide_eq_true_eq, if_neg (Ne.symm heq)] at hid ⊢
        exact hid
    have hpay := ih (s.credit p.1 p.2) hrest
    have hcredit := s.sumFree_credit p.1 p.2 hfirst
    simp only [pay, List.foldl_cons, paidSum, List.map_cons, List.sum_cons] at hpay ⊢
    omega

end StateBackend

/-! ## The payments of a block -/

/-- The block reward with the bonus for validator credits. -/
def RewardFormulas.blockRewardWithBonus (f : RewardFormulas) (s : StateBackend) (author : AccountId)
    (epoch : Nat) : Balance :=
  f.applyVcBonus (f.calculateBlockReward epoch) (s.getTotalVc author)

/-- What the voters get, and the treasury with the remainder. -/
def voterPayments (author : AccountId) (r : FeeDistributionResult) (voters : List AccountId) :
    List (AccountId × Balance) :=
  (voters.filter fun voter => decide (voter ≠ author)).map (fun voter => (voter, r.perVoterShare voters.length)) ++
    if r.voterRemainder voters.length > 0 then
      [(treasuryAccount, r.treasury), (treasuryAccount, r.voterRemainder voters.length)]
    else []

/-- All payments of a block, in order. -/
def payments (f : RewardFormulas) (s : StateBackend) (author : AccountId) (epoch : Nat) (totalFees : Balance)
    (voters : List AccountId) : List (AccountId × Balance) :=
  let r := f.distribute totalFees
  (author, f.totalProducerReward s author epoch totalFees) ::
    ((if voters.length > 0 ∧ r.finalityVoters > 0 then voterPayments author r voters
      else if Word.satAdd r.treasury r.finalityVoters > 0 then
        [(treasuryAccount, Word.satAdd r.treasury r.finalityVoters)]
      else []) ++
      if voters.length > 0 ∧ r.treasury > 0 then [(treasuryAccount, r.treasury)] else [])

theorem pay_append (s : StateBackend) (l m : List (AccountId × Balance)) : s.pay (l ++ m) = (s.pay l).pay m :=
  List.foldl_append

theorem creditVoters_eq_pay (author : AccountId) (share : Balance) (s : StateBackend) (voters : List AccountId) :
    creditVoters author share s voters =
      s.pay ((voters.filter fun voter => decide (voter ≠ author)).map fun voter => (voter, share)) := by
  induction voters generalizing s with
  | nil => rfl
  | cons voter voters ih =>
    unfold creditVoters
    by_cases h : voter = author
    · rw [if_pos h, ih, List.filter_cons_of_neg (by simpa using h)]
    · rw [if_neg h, ih, List.filter_cons_of_pos (by simpa using h)]
      rfl

/-- The rewards of a block are its payments. -/
theorem applyBlockRewardsWithFinality_eq_pay (f : RewardFormulas) (s : StateBackend) (author : AccountId)
    (epoch : Nat) (totalFees : Balance) (voters : List AccountId) :
    (applyBlockRewardsWithFinality f s author epoch totalFees voters).1 =
      s.pay (payments f s author epoch totalFees voters) := by
  have hpos := f.totalProducerReward_pos s author epoch totalFees
  unfold applyBlockRewardsWithFinality payments
  simp only [gt_iff_lt, hpos, if_true]
  have hcons : ∀ (p : AccountId × Balance) l, s.pay (p :: l) = (s.credit p.1 p.2).pay l := fun _ _ => rfl
  rw [hcons, pay_append]
  generalize s.credit author (f.totalProducerReward s author epoch totalFees) = t
  generalize f.distribute totalFees = r
  have hlast : ∀ u : StateBackend,
      (if 0 < voters.length ∧ 0 < r.treasury then u.credit treasuryAccount r.treasury else u) =
        u.pay (if 0 < voters.length ∧ 0 < r.treasury then [(treasuryAccount, r.treasury)] else []) := by
    intro u
    split <;> rfl
  rw [hlast]
  apply congrArg fun u : StateBackend => u.pay _
  split
  · unfold voterPayments
    rw [pay_append, ← creditVoters_eq_pay]
    simp only [gt_iff_lt]
    split
    · exact (StateBackend.credit_credit _ _ _ _).symm
    · rfl
  · split <;> rfl

/-! ## Sums -/

theorem paidTo_le_paidSum (id : AccountId) (l : List (AccountId × Balance)) : paidTo id l ≤ paidSum l := by
  induction l with
  | nil => exact Nat.le_refl 0
  | cons p l ih =>
    unfold paidTo paidSum at ih ⊢
    rw [List.filter_cons]
    split
    · simp only [List.map_cons, List.sum_cons]
      omega
    · simp only [List.map_cons, List.sum_cons]
      omega

theorem paidSum_append (l m : List (AccountId × Balance)) : paidSum (l ++ m) = paidSum l + paidSum m := by
  simp [paidSum]

/-- Everyone but the producer gets a share. -/
theorem paidSum_shares (author : AccountId) (share : Balance) (voters : List AccountId) :
    paidSum ((voters.filter fun voter => decide (voter ≠ author)).map fun voter => (voter, share)) +
      voters.count author * share.val = voters.length * share.val := by
  induction voters with
  | nil => simp [paidSum]
  | cons voter voters ih =>
    by_cases h : voter = author
    · rw [List.filter_cons_of_neg (by simpa using h), h, List.count_cons_self, List.length_cons, Nat.add_mul,
        Nat.add_mul]
      omega
    · rw [List.filter_cons_of_pos (by simpa using h), List.count_cons_of_ne h, List.length_cons, Nat.add_mul]
      simp only [List.map_cons, paidSum, List.sum_cons] at ih ⊢
      omega

/-- The shares of the others, and the treasury's share beside a remainder. -/
theorem paidSum_voterPayments (author : AccountId) (r : FeeDistributionResult) (voters : List AccountId)
    (hn : 0 < voters.length) :
    paidSum (voterPayments author r voters) + voters.count author * (r.finalityVoters.val / voters.length) =
      r.finalityVoters.val + if r.finalityVoters.val % voters.length ≠ 0 then r.treasury.val else 0 := by
  have hshare : (r.perVoterShare voters.length).val = r.finalityVoters.val / voters.length := by
    unfold FeeDistributionResult.perVoterShare
    rw [if_neg (by omega)]
  have hrem : (r.voterRemainder voters.length).val = r.finalityVoters.val % voters.length := by
    unfold FeeDistributionResult.voterRemainder
    rw [if_neg (by omega)]
  have hshares := paidSum_shares author (r.perVoterShare voters.length) voters
  have hdiv := Nat.div_add_mod r.finalityVoters.val voters.length
  have hpos : r.voterRemainder voters.length > 0 ↔ r.finalityVoters.val % voters.length ≠ 0 := by
    rw [gt_iff_lt, Fin.lt_def, hrem]
    exact Nat.pos_iff_ne_zero
  rw [hshare] at hshares
  unfold voterPayments
  rw [paidSum_append]
  simp only [hpos]
  split
  · simp only [paidSum, List.map_cons, List.map_nil, List.sum_cons, List.sum_nil, hrem] at hshares ⊢
    omega
  · simp only [paidSum, List.map_nil, List.sum_nil] at hshares ⊢
    omega

/-- The shares of the producer, the voters and the burn are parts of the fees: no saturating
subtraction of `distribute` saturates. -/
def RewardFormulas.SharesFit (f : RewardFormulas) (fee : Balance) : Prop :=
  (f.producerShare fee).val + (f.finalityVotersShare fee).val + (f.burnShare fee).val ≤ fee.val

instance (f : RewardFormulas) (fee : Balance) : Decidable (f.SharesFit fee) :=
  inferInstanceAs (Decidable (_ ≤ _))

theorem sum_distribute (f : RewardFormulas) (fee : Balance) (h : f.SharesFit fee) :
    (f.distribute fee).producer.val + (f.distribute fee).finalityVoters.val + (f.distribute fee).burn.val +
      (f.distribute fee).treasury.val = fee.val := by
  unfold RewardFormulas.SharesFit at h
  simp only [RewardFormulas.distribute, Word.val_satSub]
  omega

/-- No saturating addition of the rewards saturates. -/
structure NoSaturation (f : RewardFormulas) (s : StateBackend) (author : AccountId) (epoch : Nat)
    (totalFees : Balance) (voters : List AccountId) : Prop where
  reward : (f.blockRewardWithBonus s author epoch).val + (f.distribute totalFees).producer.val < 2 ^ 128
  account : ∀ id, (s.accountOrNew id).free.val + paidTo id (payments f s author epoch totalFees voters) < 2 ^ 128

/-- The treasury's second payment, where it gets one, is what the producer does not get as a
voter. -/
def Cancels (r : FeeDistributionResult) (author : AccountId) (voters : List AccountId) : Prop :=
  voters = [] ∨
    voters.count author * (r.finalityVoters.val / voters.length) =
      if r.finalityVoters.val = 0 ∨ r.finalityVoters.val % voters.length ≠ 0 then r.treasury.val else 0

/-- What is paid, against block reward and fees without the burned share. -/
theorem paidSum_payments (f : RewardFormulas) (s : StateBackend) (author : AccountId) (epoch : Nat)
    (totalFees : Balance) (voters : List AccountId) (hshares : f.SharesFit totalFees)
    (hreward : (f.blockRewardWithBonus s author epoch).val + (f.distribute totalFees).producer.val < 2 ^ 128) :
    paidSum (payments f s author epoch totalFees voters) + (f.distribute totalFees).burn.val =
        (f.blockRewardWithBonus s author epoch).val + totalFees.val ↔
      Cancels (f.distribute totalFees) author voters := by
  have hsum := sum_distribute f totalFees hshares
  have hlt := totalFees.isLt
  have hproducer : (f.totalProducerReward s author epoch totalFees).val =
      (f.blockRewardWithBonus s author epoch).val + (f.distribute totalFees).producer.val :=
    Word.val_satAdd_of_lt _ _ hreward
  have hlast : paidSum (if (f.distribute totalFees).treasury > 0 then
      [(treasuryAccount, (f.distribute totalFees).treasury)] else []) = (f.distribute totalFees).treasury.val := by
    split
    · simp [paidSum]
    · next h => simpa [paidSum] using (Fin.val_eq_zero_iff.2 (not_lt.1 h |>.antisymm (Fin.zero_le _))).symm
  unfold payments Cancels
  generalize f.distribute totalFees = r at hsum hreward hproducer hlast ⊢
  simp only
  have hcons : ∀ (p : AccountId × Balance) l, paidSum (p :: l) = p.2.val + paidSum l := fun p l => by
    simp [paidSum]
  rw [hcons, paidSum_append, hproducer]
  have htreasury : paidSum (if Word.satAdd r.treasury r.finalityVoters > 0 then
      [(treasuryAccount, Word.satAdd r.treasury r.finalityVoters)] else []) =
        r.treasury.val + r.finalityVoters.val := by
    have hadd := Word.val_satAdd_of_lt r.treasury r.finalityVoters (by omega)
    split
    · simp only [paidSum, List.map_cons, List.map_nil, List.sum_cons, List.sum_nil]
      omega
    · next h =>
      have hzero : (Word.satAdd r.treasury r.finalityVoters).val = 0 :=
        Fin.val_eq_zero_iff.2 (not_lt.1 h |>.antisymm (Fin.zero_le _))
      simp only [paidSum, List.map_nil, List.sum_nil]
      omega
  by_cases hn : 0 < voters.length
  · have hne : voters ≠ [] := List.ne_nil_of_length_pos hn
    simp only [gt_iff_lt, hn, true_and, hne, false_or] at hlast ⊢
    by_cases hpot : 0 < r.finalityVoters
    · -- the voters are paid; the treasury gets its share, and once more beside a remainder
      have hpot' : r.finalityVoters.val ≠ 0 := Nat.pos_iff_ne_zero.1 (Fin.lt_def.1 hpot)
      have hpaid := paidSum_voterPayments author r voters hn
      simp only [if_pos hpot, hpot', false_or]
      omega
    · -- no share for the voters; the treasury is paid twice
      have hpot' : r.finalityVoters.val = 0 := Fin.val_eq_zero_iff.2 (not_lt.1 hpot |>.antisymm (Fin.zero_le _))
      simp only [if_neg hpot, hpot', true_or, if_true, Nat.zero_div, Nat.mul_zero]
      simp only [gt_iff_lt] at htreasury
      omega
  · -- no voters: one payment holds the treasury's and the voters' share
    have hnil : voters = [] := List.eq_nil_of_length_eq_zero (by omega)
    have hempty : paidSum [] = 0 := rfl
    simp only [gt_iff_lt] at htreasury
    simp only [gt_iff_lt, hnil, List.length_nil, lt_irrefl, false_and, if_false, true_or, iff_true, hempty]
    omega

/-- The free balances grow by block reward and fees less the burned share, and nothing else
of an account changes. -/
structure RewardsExact (f : RewardFormulas) (s : StateBackend) (author : AccountId) (epoch : Nat)
    (totalFees : Balance) (voters : List AccountId) : Prop where
  free : (applyBlockRewardsWithFinality f s author epoch totalFees voters).1.sumFree +
      (f.distribute totalFees).burn.val =
    s.sumFree + (f.blockRewardWithBonus s author epoch).val + totalFees.val
  reserved : ∀ id, ((applyBlockRewardsWithFinality f s author epoch totalFees voters).1.accountOrNew id).reserved =
    (s.accountOrNew id).reserved
  nonce : ∀ id, ((applyBlockRewardsWithFinality f s author epoch totalFees voters).1.accountOrNew id).nonce =
    (s.accountOrNew id).nonce

/-- **Rewards.**  Without saturation, exactly the block reward is created and exactly the
burned share destroyed if and only if there are no finality voters, or the treasury's second
payment is what the producer does not get as a voter. -/
theorem rewards_exact_iff (f : RewardFormulas) (s : StateBackend) (author : AccountId) (epoch : Nat)
    (totalFees : Balance) (voters : List AccountId) (hshares : f.SharesFit totalFees)
    (hsat : NoSaturation f s author epoch totalFees voters) :
    RewardsExact f s author epoch totalFees voters ↔ Cancels (f.distribute totalFees) author voters := by
  have hfree := s.sumFree_pay _ hsat.account
  rw [← applyBlockRewardsWithFinality_eq_pay] at hfree
  have hcredits := applyBlockRewardsWithFinality_onlyCredits f s author epoch totalFees voters
  rw [← paidSum_payments f s author epoch totalFees voters hshares hsat.reward]
  constructor
  · intro h
    have := h.free
    omega
  · intro h
    exact ⟨by omega, hcredits.reserved, hcredits.nonce⟩

/-- Rewards paid out of nothing saturate only where they are 2^128 together. -/
theorem noSaturation_new (f : RewardFormulas) (author : AccountId) (epoch : Nat) (totalFees : Balance)
    (voters : List AccountId)
    (hreward : (f.blockRewardWithBonus .new author epoch).val + (f.distribute totalFees).producer.val < 2 ^ 128)
    (hpaid : paidSum (payments f .new author epoch totalFees voters) < 2 ^ 128) :
    NoSaturation f .new author epoch totalFees voters := by
  refine ⟨hreward, fun id => ?_⟩
  have hzero : (StateBackend.new.accountOrNew id).free.val = 0 := rfl
  have hle := paidTo_le_paidSum id (payments f .new author epoch totalFees voters)
  omega

/-- Fees of 1000 and two voters that share 100 evenly. -/
theorem rewards_exact_even :
    RewardsExact .sample .new ⟨1⟩ 0 1000 [⟨2⟩, ⟨3⟩] :=
  (rewards_exact_iff _ _ _ _ _ _ (by decide) (noSaturation_new _ _ _ _ _ (by decide) (by decide))).2
    (Or.inr (by decide))

/-- Fees of 1000 and three voters: the share of 100 leaves a remainder of one, and the
treasury gets its 100 twice. -/
theorem rewards_treasury_twice :
    RewardFormulas.SharesFit .sample 1000 ∧
      NoSaturation .sample .new ⟨1⟩ 0 1000 [⟨2⟩, ⟨3⟩, ⟨4⟩] ∧
      ¬ RewardsExact .sample .new ⟨1⟩ 0 1000 [⟨2⟩, ⟨3⟩, ⟨4⟩] := by
  refine ⟨by decide, noSaturation_new _ _ _ _ _ (by decide) (by decide), fun h => ?_⟩
  exact absurd h.free (by decide)

end Kratos
