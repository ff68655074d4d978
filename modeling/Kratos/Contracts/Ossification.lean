import Kratos.Contracts.Fork

/-!
# The tallies of ossification

A vote adds the power its voter has when it is cast; a second vote of the same account
first takes away the power the voter has then.  The tallies are the sums of the present
powers exactly while no recorded voter's power changes and no sum leaves its 64 bits
(`tallies_exact_iff`).
-/

namespace Kratos

/-- The calls that touch voting power or ossification. -/
inductive OssificationOp where
  | setVotingPower (validator : AccountId) (power : VotingPower)
  | proposeOssification (proposer : AccountId) (currentBlock : Nat) (emergencyActive : Bool)
  | voteOssification (voter : AccountId) (approve : Bool) (currentBlock : Nat)
  | recordParameterChange (currentBlock : Nat)

def OssificationOp.toForkOp : OssificationOp → ForkOp
  | setVotingPower validator power => .setVotingPower validator power
  | proposeOssification proposer currentBlock emergencyActive =>
    .proposeOssification proposer currentBlock emergencyActive
  | voteOssification voter approve currentBlock => .voteOssification voter approve currentBlock
  | recordParameterChange currentBlock => .recordParameterChange currentBlock

/-- The tally of the votes for or against. -/
def OssificationState.tally (o : OssificationState) (approve : Bool) : VotingPower :=
  if approve then o.approvalPower else o.rejectionPower

namespace ForkContract

def ossify (cr : Crypto) (s : ForkContract) (op : OssificationOp) : ForkContract := s.apply cr op.toForkOp

/-- The present power of an account. -/
def powerOf (s : ForkContract) (v : AccountId) : Nat := ((s.votingPower.find? v).getD 0).val

/-- The present power of the accounts whose recorded vote is the given one. -/
def votersPower (s : ForkContract) (approve : Bool) : Nat :=
  s.ossification.ossificationVotes.sumOf fun v vote => if vote = approve then s.powerOf v else 0

/-- The tallies are the sums of the present powers. -/
def TalliesExact (s : ForkContract) : Prop := ∀ approve, (s.ossification.tally approve).val = s.votersPower approve

/-- The vote is counted. -/
def Counts (s : ForkContract) (voter : AccountId) (power : VotingPower) : Prop :=
  s.ossification.ossificationProposed = true ∧ s.ossification.ossificationActive = false ∧
    s.votingPower.find? voter = some power

/-- What a vote takes back is in the tally. -/
def NoUnderflow (s : ForkContract) : OssificationOp → Prop
  | .voteOssification voter _ _ => ∀ power previous, s.Counts voter power →
    s.ossification.ossificationVotes.find? voter = some previous → power ≤ s.ossification.tally previous
  | _ => True

/-- Ossification starts only with nine tenths of the total power behind it. -/
def ActivationBacked (cr : Crypto) (s : ForkContract) (op : OssificationOp) : Prop :=
  s.ossification.ossificationActive = false → (s.ossify cr op).ossification.ossificationActive = true →
    90 * (s.ossify cr op).totalPower.val ≤ 100 * (s.ossify cr op).votersPower true

/-- A recorded voter keeps its power, and a vote fits the tally it is added to. -/
def KeepsTallies (s : ForkContract) : OssificationOp → Prop
  | .setVotingPower validator power =>
    s.ossification.ossificationVotes.contains validator = true → power.val = s.powerOf validator
  | .voteOssification voter approve _ => ∀ power, s.Counts voter power →
    s.ossification.ossificationVotes.find? voter ≠ some approve →
      (s.ossification.tally approve).val + power.val < 2 ^ 64
  | _ => True

/-! ## Votes -/

theorem powerOf_setVotingPower (s : ForkContract) (v w : AccountId) (power : VotingPower) :
    (s.setVotingPower v power).powerOf w = if w = v then power.val else s.powerOf w := by
  unfold powerOf setVotingPower
  simp only
  split
  · rw [SortedMap.find?_insert]
    split <;> rfl
  · next hzero =>
    rw [SortedMap.find?_erase]
    split
    · rw [Fin.not_lt] at hzero
      exact (congrArg Fin.val (nonpos_iff_eq_zero.mp hzero)).symm
    · rfl

/-- How a vote moves the two tallies. -/
theorem tally_recordOssificationVote (o : OssificationState) (voter : AccountId) (approve b : Bool)
    (power : VotingPower) :
    (recordOssificationVote o voter approve power).tally b =
      o.tally b - (if o.ossificationVotes.find? voter = some b then power else 0) +
        (if approve = b then power else 0) := by
  unfold recordOssificationVote OssificationState.tally
  cases o.ossificationVotes.find? voter with
  | none => cases approve <;> cases b <;> simp
  | some previous => cases previous <;> cases approve <;> cases b <;> simp

theorem votes_recordOssificationVote (o : OssificationState) (voter : AccountId) (approve : Bool)
    (power : VotingPower) :
    (recordOssificationVote o voter approve power).ossificationVotes = o.ossificationVotes.insert voter approve := by
  unfold recordOssificationVote
  cases o.ossificationVotes.find? voter with
  | none => cases approve <;> rfl
  | some previous => cases previous <;> cases approve <;> rfl

theorem active_recordOssificationVote (o : OssificationState) (voter : AccountId) (approve : Bool)
    (power : VotingPower) :
    (recordOssificationVote o voter approve power).ossificationActive = o.ossificationActive := by
  unfold recordOssificationVote
  cases o.ossificationVotes.find? voter with
  | none => cases approve <;> rfl
  | some previous => cases previous <;> cases approve <;> rfl

/-- What an accepted vote leaves. -/
theorem voteOssification_cases (s : ForkContract) (voter : AccountId) (approve : Bool) (block : Nat) :
    ((s.voteOssification voter approve block).orKeep s = s ∧ ∀ power, ¬ s.Counts voter power) ∨
    ∃ power t, s.Counts voter power ∧ (s.voteOssification voter approve block).orKeep s = t ∧
      t.votingPower = s.votingPower ∧ t.totalPower = s.totalPower ∧
      t.ossification.ossificationVotes = s.ossification.ossificationVotes.insert voter approve ∧
      (∀ b, t.ossification.tally b = (recordOssificationVote s.ossification voter approve power).tally b) ∧
      (t.ossification.ossificationActive = true →
        approvalOfTotal t.ossification.approvalPower s.totalPower ≥ ossificationApprovalThreshold) := by
  unfold voteOssification Counts
  by_cases hproposed : s.ossification.ossificationProposed = false
  · rw [if_pos hproposed]
    exact .inl ⟨rfl, by simp [hproposed]⟩
  by_cases hactive : s.ossification.ossificationActive = true
  · rw [if_neg hproposed, if_pos hactive]
    exact .inl ⟨rfl, by simp [hactive]⟩
  rw [if_neg hproposed, if_neg hactive]
  cases hpower : s.votingPower.find? voter with
  | none => exact .inl ⟨rfl, by simp⟩
  | some power =>
    by_cases hge : approvalOfTotal (recordOssificationVote s.ossification voter approve power).approvalPower
        s.totalPower ≥ ossificationApprovalThreshold
    · simp only [if_pos hge]
      refine .inr ⟨power, _, ⟨by simpa using hproposed, by simpa using hactive, rfl⟩, rfl, rfl, rfl, ?_, ?_, ?_⟩
      · exact votes_recordOssificationVote _ _ _ _
      · exact fun _ => rfl
      · exact fun _ => hge
    · simp only [if_neg hge]
      refine .inr ⟨power, _, ⟨by simpa using hproposed, by simpa using hactive, rfl⟩, rfl, rfl, rfl, ?_, ?_, ?_⟩
      · exact votes_recordOssificationVote _ _ _ _
      · exact fun _ => rfl
      · intro h
        change (recordOssificationVote s.ossification voter approve power).ossificationActive = true at h
        rw [active_recordOssificationVote] at h
        exact absurd h hactive

/-- The sum of the powers after a vote. -/
theorem votersPower_vote (s t : ForkContract) (voter : AccountId) (approve b : Bool) (power : VotingPower)
    (hpower : s.votingPower.find? voter = some power) (ht : t.votingPower = s.votingPower)
    (hvotes : t.ossification.ossificationVotes = s.ossification.ossificationVotes.insert voter approve) :
    t.votersPower b + (if s.ossification.ossificationVotes.find? voter = some b then power.val else 0) =
      s.votersPower b + (if approve = b then power.val else 0) := by
  have hown : s.powerOf voter = power.val := by rw [powerOf, hpower]; rfl
  have hsum := SortedMap.sumOf_insert (fun v vote => if vote = b then s.powerOf v else 0)
    s.ossification.ossificationVotes voter approve
  have hsame : t.powerOf = s.powerOf := by
    funext v
    unfold powerOf
    rw [ht]
  unfold votersPower
  rw [hvotes, hsame]
  cases hprevious : s.ossification.ossificationVotes.find? voter with
  | none =>
    rw [hprevious] at hsum
    simpa [hown] using hsum
  | some previous =>
    rw [hprevious] at hsum
    simpa [hown] using hsum

/-- A recorded voter's power is in the sum of its side. -/
theorem power_le_votersPower (s : ForkContract) (voter : AccountId) (b : Bool) (power : VotingPower)
    (hpower : s.votingPower.find? voter = some power)
    (hprevious : s.ossification.ossificationVotes.find? voter = some b) : power.val ≤ s.votersPower b := by
  have hle := SortedMap.le_sumOf (fun v vote => if vote = b then s.powerOf v else 0)
    s.ossification.ossificationVotes voter
  rw [hprevious] at hle
  unfold votersPower
  simpa [powerOf, hpower] using hle

/-- A vote keeps the tallies exact if what it adds fits. -/
theorem talliesExact_vote_iff (s t : ForkContract) (voter : AccountId) (approve : Bool) (power : VotingPower)
    (h : s.TalliesExact) (hpower : s.votingPower.find? voter = some power) (ht : t.votingPower = s.votingPower)
    (hvotes : t.ossification.ossificationVotes = s.ossification.ossificationVotes.insert voter approve)
    (htally : ∀ b, t.ossification.tally b = (recordOssificationVote s.ossification voter approve power).tally b) :
    t.TalliesExact ↔ (s.ossification.ossificationVotes.find? voter ≠ some approve →
      (s.ossification.tally approve).val + power.val < 2 ^ 64) := by
  have hsum := fun b => votersPower_vote s t voter approve b power hpower ht hvotes
  -- the side that is not voted for only loses what it had
  have hother : ∀ b, approve ≠ b → (t.ossification.tally b).val = t.votersPower b := by
    intro b hb
    have hs := hsum b
    rw [htally, tally_recordOssificationVote, if_neg hb, add_zero]
    rw [if_neg hb, Nat.add_zero] at hs
    split at hs
    · next hp =>
      have hle := power_le_votersPower s voter b power hpower hp
      rw [← h b] at hle
      rw [if_pos hp, Fin.sub_val_of_le hle, h b]
      omega
    · next hp =>
      rw [if_neg hp, sub_zero, h b]
      omega
  have hs := hsum approve
  rw [if_pos rfl] at hs
  have hgoal : (t.ossification.tally approve).val = t.votersPower approve ↔
      (s.ossification.ossificationVotes.find? voter ≠ some approve →
        (s.ossification.tally approve).val + power.val < 2 ^ 64) := by
    rw [htally, tally_recordOssificationVote, if_pos rfl]
    by_cases hp : s.ossification.ossificationVotes.find? voter = some approve
    · rw [if_pos hp] at hs ⊢
      rw [sub_add_cancel, h approve]
      exact iff_of_true (by omega) (fun hne => absurd hp hne)
    · rw [if_neg hp] at hs ⊢
      rw [sub_zero, Fin.val_add, h approve]
      have hpos := (s.ossification.tally approve).isLt
      rw [h approve] at hpos
      constructor
      · intro heq _
        have := Nat.mod_lt (s.votersPower approve + power.val) (Nat.two_pow_pos 64)
        omega
      · intro hfit
        rw [Nat.mod_eq_of_lt (hfit hp)]
        omega
  rw [← hgoal]
  refine ⟨fun hall => hall approve, fun happrove b => ?_⟩
  by_cases hb : approve = b
  · rw [← hb]
    exact happrove
  · exact hother b hb

/-! ## One call -/

theorem talliesExact_setVotingPower_iff (s : ForkContract) (v : AccountId) (power : VotingPower)
    (h : s.TalliesExact) : (s.setVotingPower v power).TalliesExact ↔
      (s.ossification.ossificationVotes.contains v = true → power.val = s.powerOf v) := by
  -- only the side of the account's own vote can change
  have hsum : ∀ b, (s.setVotingPower v power).votersPower b +
      ((s.ossification.ossificationVotes.find? v).elim 0 fun vote => if vote = b then s.powerOf v else 0) =
        s.votersPower b +
      ((s.ossification.ossificationVotes.find? v).elim 0 fun vote => if vote = b then power.val else 0) := by
    intro b
    have hat := SortedMap.sumOf_eq_at (fun w vote => if vote = b then (s.setVotingPower v power).powerOf w else 0)
      (fun w vote => if vote = b then s.powerOf w else 0) s.ossification.ossificationVotes v (by
        intro w vote hw
        rw [powerOf_setVotingPower, if_neg hw])
    rw [powerOf_setVotingPower, if_pos rfl] at hat
    exact hat
  have htally : ∀ b, ((s.setVotingPower v power).ossification.tally b).val = s.votersPower b := h
  unfold TalliesExact SortedMap.contains
  cases hvote : s.ossification.ossificationVotes.find? v with
  | none =>
    rw [hvote] at hsum
    refine iff_of_true (fun b => ?_) (by simp)
    rw [htally]
    exact (hsum b).symm
  | some vote =>
    rw [hvote] at hsum
    simp only [Option.isSome_some, true_imp_iff]
    simp only [Option.elim_some] at hsum
    constructor
    · intro hall
      have hs := hsum vote
      rw [← hall vote, htally, if_pos rfl, if_pos rfl] at hs
      omega
    · intro hp b
      have hs := hsum b
      rw [hp] at hs
      rw [htally]
      omega

/-- Nine tenths in percent are nine tenths. -/
theorem le_of_approvalOfTotal (approvalPower totalPower : VotingPower)
    (h : approvalOfTotal approvalPower totalPower ≥ ossificationApprovalThreshold) :
    90 * totalPower.val ≤ 100 * approvalPower.val := by
  unfold approvalOfTotal ossificationApprovalThreshold at h
  split at h
  · next hpos =>
    have hle : 90 ≤ min (approvalPower.val * 100) (2 ^ 64 - 1) / totalPower.val := le_trans h (Nat.mod_le _ _)
    have hmul := (Nat.le_div_iff_mul_le hpos).mp hle
    omega
  · omega

theorem talliesExact_of_same (s t : ForkContract) (h : s.TalliesExact) (hpower : t.votingPower = s.votingPower)
    (hvotes : t.ossification.ossificationVotes = s.ossification.ossificationVotes)
    (htally : ∀ b, t.ossification.tally b = s.ossification.tally b) : t.TalliesExact := by
  intro b
  rw [htally, h b]
  unfold votersPower powerOf
  rw [hvotes, hpower]

/-- A call that activates nothing needs nothing behind it. -/
theorem activationBacked_of_same (cr : Crypto) (s : ForkContract) (op : OssificationOp)
    (h : s.ossification.ossificationActive = false → (s.ossify cr op).ossification.ossificationActive = false) :
    s.ActivationBacked cr op := by
  intro hoff hon
  exact absurd ((h hoff).symm.trans hon) Bool.false_ne_true

theorem talliesExact_proposeOssification (s t : ForkContract) (proposer : AccountId) (block : Nat)
    (emergency : Bool) (h : s.TalliesExact) (ht : s.proposeOssification proposer block emergency = .ok t) :
    t.TalliesExact := by
  unfold proposeOssification at ht
  split_ifs at ht
  cases ht
  exact talliesExact_of_same s _ h rfl rfl fun _ => rfl

theorem talliesExact_recordParameterChange (s : ForkContract) (block : Nat) (h : s.TalliesExact) :
    ({ s with ossification := s.ossification.recordParameterChange block } : ForkContract).TalliesExact := by
  unfold OssificationState.recordParameterChange
  simp only
  split
  · intro b
    cases b <;> rfl
  · exact talliesExact_of_same s _ h rfl rfl fun _ => rfl

/-- What a voter takes back from an exact tally is in it. -/
theorem noUnderflow_of_exact (s : ForkContract) (op : OssificationOp) (h : s.TalliesExact) : s.NoUnderflow op := by
  cases op with
  | voteOssification voter approve block =>
    intro power previous hc hp
    have hle := power_le_votersPower s voter previous power hc.2.2 hp
    rwa [← h previous] at hle
  | _ => trivial

/-- Exactly the calls that keep the tallies leave them exact; none of them underflows, and an
activation has its nine tenths. -/
theorem ossify_exact_iff (cr : Crypto) (s : ForkContract) (op : OssificationOp) (h : s.TalliesExact) :
    (s.ossify cr op).TalliesExact ∧ s.NoUnderflow op ∧ s.ActivationBacked cr op ↔ s.KeepsTallies op := by
  cases op with
  | setVotingPower v power =>
    rw [and_iff_left ⟨trivial, activationBacked_of_same cr s _ fun hoff => hoff⟩]
    exact talliesExact_setVotingPower_iff s v power h
  | proposeOssification proposer block emergency =>
    refine iff_of_true ⟨?_, trivial, activationBacked_of_same cr s _ ?_⟩ trivial
    · exact Except.orKeep_of TalliesExact _ s h
        fun t => talliesExact_proposeOssification s t proposer block emergency h
    · intro hoff
      show ((s.proposeOssification proposer block emergency).orKeep s).ossification.ossificationActive = false
      unfold proposeOssification
      split_ifs <;> exact hoff
  | voteOssification voter approve block =>
    have hunderflow := noUnderflow_of_exact s (.voteOssification voter approve block) h
    rcases voteOssification_cases s voter approve block with
      ⟨hsame, hno⟩ | ⟨power, t, hc, ht, hpower, htotal, hvotes, htally, hactive⟩
    · have hstep : s.ossify cr (.voteOssification voter approve block) = s := hsame
      refine iff_of_true ⟨?_, hunderflow, activationBacked_of_same cr s _ ?_⟩ fun power hc => absurd hc (hno power)
      · rw [hstep]
        exact h
      · rw [hstep]
        exact fun hoff => hoff
    · have hstep : s.ossify cr (.voteOssification voter approve block) = t := ht
      have hown := hc.2.2
      have hexact := talliesExact_vote_iff s t voter approve power h hown hpower hvotes htally
      have hbacked : t.TalliesExact → s.ActivationBacked cr (.voteOssification voter approve block) := by
        intro hexact _ hon
        rw [hstep] at hon ⊢
        rw [htotal, ← hexact true]
        exact le_of_approvalOfTotal t.ossification.approvalPower s.totalPower (hactive hon)
      rw [hstep]
      constructor
      · rintro ⟨he, -, -⟩ power' hc'
        obtain rfl : power' = power := Option.some.inj (hc'.2.2.symm.trans hown)
        exact hexact.mp he
      · intro hkeep
        have he := hexact.mpr (hkeep power hc)
        exact ⟨he, hunderflow, hbacked he⟩
  | recordParameterChange block =>
    refine iff_of_true ⟨?_, trivial, activationBacked_of_same cr s _ ?_⟩ trivial
    · exact talliesExact_recordParameterChange s block h
    · intro hoff
      show (s.ossification.recordParameterChange block).ossificationActive = false
      unfold OssificationState.recordParameterChange
      simp only
      split <;> exact hoff

/-! ## Runs -/

/-- **The tallies are exact as long as no vote goes stale.**  Along a run the tallies are the sums
of the present powers, no subtraction underflows and every activation has its nine tenths, if and
only if no call changes the power of a recorded voter and every vote fits its tally. -/
theorem tallies_exact_iff (cr : Crypto) (ops : List OssificationOp) :
    (∀ k, ((ops.take k).foldl (ossify cr) new).TalliesExact) ∧
    Run.Meets (ossify cr) (fun s op => s.NoUnderflow op ∧ s.ActivationBacked cr op) new ops ↔
      Run.Meets (ossify cr) KeepsTallies new ops := by
  have hnew : new.TalliesExact := by
    intro b
    cases b <;> rfl
  refine Run.good_meets_iff (ossify cr) (fun _ _ => True) KeepsTallies _ (fun _ => True) TalliesExact
    (fun _ _ _ _ => trivial) ?_ new ops trivial hnew (Run.meets_of_forall _ _ (fun _ _ => trivial) _ _)
  exact fun s op _ _ h => ossify_exact_iff cr s op h

/-- The block from which ossification can be proposed. -/
def tenYears : Nat := 10 * blocksPerYear

/-- Account 1 approves with power 60, keeps 20 of it, and account 3 joins with 45: ossification
starts with 65 of 105 behind it. -/
def staleApproval : List OssificationOp :=
  [.setVotingPower ⟨1⟩ 60, .setVotingPower ⟨2⟩ 40, .proposeOssification ⟨1⟩ tenYears false,
    .voteOssification ⟨1⟩ true tenYears, .setVotingPower ⟨1⟩ 20, .setVotingPower ⟨3⟩ 45,
    .voteOssification ⟨3⟩ true tenYears]

theorem stale_approval_ossifies :
    (staleApproval.foldl (ossify Crypto.sample) new).ossification.ossificationActive = true ∧
    (staleApproval.foldl (ossify Crypto.sample) new).votersPower true = 65 ∧
    (staleApproval.foldl (ossify Crypto.sample) new).totalPower = 105 ∧
    ¬ (staleApproval.foldl (ossify Crypto.sample) new).TalliesExact := by
  refine ⟨by decide +kernel, by decide +kernel, by decide +kernel, fun h => ?_⟩
  have htrue := h true
  revert htrue
  decide +kernel

end ForkContract

end Kratos
