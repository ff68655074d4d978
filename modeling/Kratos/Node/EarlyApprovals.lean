import Kratos.Consensus.Roster
import Kratos.Node.Membership

/-!
# Approvals of early validators

A proposal checks the cap and fixes the number of votes, a vote checks the expiry, and an
approval checks neither: it looks at the votes a candidacy holds and at the number fixed when
it was opened.  Nobody stops being active by these calls, but the set grows between a proposal
and its approval.  So the cap holds and every approval is supported by the current set exactly
if each approval finds room, a candidacy that has not expired, and enough voters left for what
the grown set asks (`approvals_respect_iff`).

An import approves in the call after the vote.  There the candidacy cannot have expired and
its voters are active, so what remains of the condition is the growth
(`meets_stillFits_importedCalls_iff`).
-/

namespace Kratos

/-- A call of the votes on early validators. -/
inductive EarlyCall where
  | propose (candidate proposer : AccountId) (block : Nat)
  | vote (candidate voter : AccountId) (block : Nat)
  | approve (candidate : AccountId) (block : Nat)
deriving DecidableEq

namespace EarlyCall

def op : EarlyCall → SetOp
  | propose candidate proposer block => .proposeEarlyValidator candidate proposer block
  | vote candidate voter block => .voteEarlyValidator candidate voter block
  | approve candidate block => .approveEarlyValidator candidate block

def block : EarlyCall → Nat
  | propose _ _ block => block
  | vote _ _ block => block
  | approve _ block => block

end EarlyCall

namespace ValidatorSet

def call (v : ValidatorSet) (c : EarlyCall) : ValidatorSet := v.apply c.op

/-! ## Active validators -/

theorem activeCount_eq_sumOf (v : ValidatorSet) :
    v.activeCount = SortedMap.sumOf (fun _ info => if info.canParticipate then 1 else 0) v.validators := by
  unfold activeCount SortedMap.values SortedMap.sumOf
  induction v.validators.entries with
  | nil => rfl
  | cons e l ih =>
    simp only [List.map_cons, List.sum_cons, List.filter_cons]
    split
    · rw [List.length_cons, ih, Nat.add_comm]
    · rw [ih, Nat.zero_add]

/-- An active entry counts once more if the account was not active before. -/
theorem activeCount_insert (v w : ValidatorSet) (id : AccountId) (info : ValidatorInfo)
    (hw : w.validators = v.validators.insert id info) (hinfo : info.canParticipate = true) :
    w.activeCount = v.activeCount + if v.isActive id then 0 else 1 := by
  have hsum := SortedMap.sumOf_insert (fun _ info => if info.canParticipate then 1 else 0) v.validators id info
  rw [← hw, ← activeCount_eq_sumOf, ← activeCount_eq_sumOf, if_pos hinfo] at hsum
  unfold isActive
  cases hf : v.validators.find? id with
  | none =>
    rw [hf] at hsum
    exact hsum
  | some old =>
    rw [hf, Option.elim_some] at hsum
    cases hold : old.canParticipate with
    | true =>
      rw [hold, if_pos rfl] at hsum
      simp only [Option.map_some, Option.getD_some, hold, if_pos]
      omega
    | false =>
      rw [hold, if_neg Bool.false_ne_true] at hsum
      simp only [Option.map_some, Option.getD_some, hold]
      exact hsum

theorem isActive_congr (v w : ValidatorSet) (id : AccountId) (h : w.validators = v.validators) :
    w.isActive id = v.isActive id := by
  unfold isActive
  rw [h]

theorem activeCount_congr (v w : ValidatorSet) (h : w.validators = v.validators) :
    w.activeCount = v.activeCount := by
  unfold activeCount
  rw [h]

/-! ## What a call does to the set -/

/-- What an approval takes: a pending candidacy with its votes, of an account without the role. -/
structure Takes (v : ValidatorSet) (candidate : AccountId) (c : EarlyValidatorCandidate) : Prop where
  candidacy : v.getCandidate candidate = some c
  quorum : c.hasQuorum = true
  pending : c.status = .pending
  newcomer : v.roleRegistry.isValidator candidate = false

theorem approveEarlyValidator_isOk_iff (v : ValidatorSet) (candidate : AccountId) (block : Nat) :
    (∃ w, v.approveEarlyValidator candidate block = .ok w) ↔ ∃ c, v.Takes candidate c := by
  constructor
  · rintro ⟨w, hw⟩
    obtain ⟨c, hget, hquorum, hpending, -, -⟩ := approveEarlyValidator_ok v w candidate block hw
    refine ⟨c, hget, hquorum, hpending, ?_⟩
    cases hr : v.roleRegistry.isValidator candidate with
    | false => rfl
    | true =>
      -- a registered account is refused by `addValidator`
      unfold getCandidate at hget
      simp [approveEarlyValidator, hget, hquorum, hpending, addValidator, ValidatorInfo.newBootstrap,
        ValidatorInfo.new, NetworkRoleRegistry.registerValidator, hr] at hw
  · rintro ⟨c, hget, hquorum, hpending, hnew⟩
    unfold getCandidate at hget
    simp [approveEarlyValidator, hget, hquorum, hpending, addValidator, ValidatorInfo.newBootstrap,
      ValidatorInfo.new, NetworkRoleRegistry.registerValidator, hnew]

theorem call_propose (v : ValidatorSet) (candidate proposer : AccountId) (block : Nat) :
    v.call (.propose candidate proposer block) = (v.proposeEarlyValidator candidate proposer block).orKeep v := rfl

theorem call_approve_of_ok (v w : ValidatorSet) (candidate : AccountId) (block : Nat)
    (hw : v.approveEarlyValidator candidate block = .ok w) : v.call (.approve candidate block) = w := by
  simp [call, EarlyCall.op, apply, hw, Except.orKeep]

theorem call_approve_of_error (v : ValidatorSet) (candidate : AccountId) (block : Nat) (e : ValidatorError)
    (hw : v.approveEarlyValidator candidate block = .error e) : v.call (.approve candidate block) = v := by
  simp [call, EarlyCall.op, apply, hw, Except.orKeep]

/-- Only an approval changes the validators. -/
theorem call_cases (v : ValidatorSet) (c : EarlyCall) :
    (v.call c).validators = v.validators ∨
      ∃ candidate block, c = .approve candidate block ∧
        v.approveEarlyValidator candidate block = .ok (v.call c) ∧
        (v.call c).validators = v.validators.insert candidate (.newBootstrap candidate block) := by
  cases c with
  | propose candidate proposer block =>
    left
    exact Except.orKeep_of (fun w => w.validators = v.validators) _ _ rfl fun w hw =>
      validators_proposeEarlyValidator v w candidate proposer block hw
  | vote candidate voter block => exact Or.inl (validators_voteEarlyValidator v candidate voter block)
  | approve candidate block =>
    cases hw : v.approveEarlyValidator candidate block with
    | error e =>
      exact Or.inl (by rw [call_approve_of_error v candidate block e hw])
    | ok w =>
      obtain ⟨-, -, -, -, hvalidators, -⟩ := approveEarlyValidator_ok v w candidate block hw
      have hcall := call_approve_of_ok v w candidate block hw
      exact Or.inr ⟨candidate, block, rfl, by rw [hcall, hw], by rw [hcall, hvalidators]⟩

/-- **Nobody stops being active.** -/
theorem isActive_call (v : ValidatorSet) (c : EarlyCall) (id : AccountId) (h : v.isActive id = true) :
    (v.call c).isActive id = true := by
  rcases call_cases v c with hsame | ⟨candidate, block, -, -, hinsert⟩
  · rw [isActive_congr v _ id hsame, h]
  · by_cases hid : id = candidate
    · rw [hid, isActive_insert_self v _ candidate _ hinsert]
      exact canParticipate_newBootstrap candidate block
    · unfold isActive at h ⊢
      rwa [hinsert, SortedMap.find?_insert_ne _ _ _ _ hid]

/-! ## Supported approvals -/

/-- The candidacy has not expired, and enough of its voters are active for what the set now
asks of a new validator. -/
def Supported (v : ValidatorSet) (c : EarlyValidatorCandidate) (block : Nat) : Prop :=
  c.isExpired block = false ∧
    v.votesRequiredForNewValidator ≤ (c.voters.filter fun a => v.isActive a = true).card

/-- An approval is of a candidacy that is supported. -/
def ApprovesSupported (v : ValidatorSet) : EarlyCall → Prop
  | .approve candidate block => ∀ w, v.approveEarlyValidator candidate block = .ok w →
      ∃ c, v.getCandidate candidate = some c ∧ v.Supported c block
  | _ => True

/-- There is a seat for the account, or it holds one. -/
def Seat (v : ValidatorSet) (candidate : AccountId) : Prop :=
  v.activeCount < maxEarlyValidators ∨ v.isActive candidate = true

/-- What an approval would take has a seat, is approved in time, and its votes make up for the
voters that left and for the growth of the set. -/
def StillFits (v : ValidatorSet) : EarlyCall → Prop
  | .approve candidate block => ∀ c, v.Takes candidate c → v.Seat candidate ∧
      block ≤ c.createdAt + candidacyExpiration ∧
      (c.voters.filter fun a => v.isActive a = false).card + v.votesRequiredForNewValidator ≤ c.voters.card
  | _ => True

theorem supported_iff (v : ValidatorSet) (c : EarlyValidatorCandidate) (block : Nat) :
    v.Supported c block ↔ block ≤ c.createdAt + candidacyExpiration ∧
      (c.voters.filter fun a => v.isActive a = false).card + v.votesRequiredForNewValidator ≤ c.voters.card := by
  have hsplit := c.voters.card_filter_add_card_filter_not (fun a => v.isActive a = true)
  simp only [Bool.not_eq_true] at hsplit
  unfold Supported EarlyValidatorCandidate.isExpired
  rw [decide_eq_false_iff_not, Nat.not_lt]
  refine and_congr_right fun _ => ?_
  omega

/-- An approval keeps the cap if the candidate has a seat. -/
theorem activeCount_approve_iff (v w : ValidatorSet) (candidate : AccountId) (block : Nat)
    (hw : v.approveEarlyValidator candidate block = .ok w) (hcap : v.activeCount ≤ maxEarlyValidators) :
    w.activeCount ≤ maxEarlyValidators ↔ v.Seat candidate := by
  obtain ⟨-, -, -, -, hvalidators, -⟩ := approveEarlyValidator_ok v w candidate block hw
  rw [activeCount_insert v w candidate _ hvalidators (canParticipate_newBootstrap candidate block)]
  unfold Seat
  split
  · next hactive => simp [hactive, hcap]
  · next hactive =>
    simp only [hactive, or_false, Bool.false_eq_true]
    omega

/-- One call from a set within the cap. -/
theorem call_respects_iff (v : ValidatorSet) (c : EarlyCall) (hcap : v.activeCount ≤ maxEarlyValidators) :
    (v.call c).activeCount ≤ maxEarlyValidators ∧ v.ApprovesSupported c ↔ v.StillFits c := by
  cases c with
  | propose candidate proposer block =>
    rcases call_cases v (.propose candidate proposer block) with hsame | ⟨_, _, hc, -, -⟩
    · simpa [ApprovesSupported, StillFits, activeCount_congr v _ hsame] using hcap
    · cases hc
  | vote candidate voter block =>
    rcases call_cases v (.vote candidate voter block) with hsame | ⟨_, _, hc, -, -⟩
    · simpa [ApprovesSupported, StillFits, activeCount_congr v _ hsame] using hcap
    · cases hc
  | approve candidate block =>
    have hiff := approveEarlyValidator_isOk_iff v candidate block
    cases hw : v.approveEarlyValidator candidate block with
    | error e =>
      -- nothing is taken and the set stays
      have hcall := call_approve_of_error v candidate block e hw
      have hnone : ∀ c, ¬ v.Takes candidate c := by
        intro c hc
        obtain ⟨w, hw'⟩ := hiff.mpr ⟨c, hc⟩
        rw [hw] at hw'
        cases hw'
      refine iff_of_true ⟨by rw [hcall]; exact hcap, ?_⟩ fun c hc => absurd hc (hnone c)
      intro w hw'
      rw [hw] at hw'
      cases hw'
    | ok w =>
      obtain ⟨c, hc⟩ := hiff.mp ⟨w, hw⟩
      have honly : ∀ d, v.getCandidate candidate = some d → d = c := by
        intro d hd
        exact Option.some.inj (hd.symm.trans hc.candidacy)
      rw [call_approve_of_ok v w candidate block hw, activeCount_approve_iff v w candidate block hw hcap]
      constructor
      · rintro ⟨hseat, hsupported⟩ d hd
        obtain ⟨e, he, hback⟩ := hsupported w hw
        rw [honly d hd.candidacy, ← honly e he]
        exact ⟨hseat, (supported_iff v e block).mp hback⟩
      · intro hfits
        obtain ⟨hseat, hback⟩ := hfits c hc
        exact ⟨hseat, fun _ _ => ⟨c, hc.candidacy, (supported_iff v c block).mpr hback⟩⟩

/-- **Early validators.**  From a set within the cap, a run of proposals, votes and approvals
stays within it and approves supported candidacies only, exactly if each approval finds a seat, a
candidacy in time and enough voters left. -/
theorem approvals_respect_iff (v : ValidatorSet) (calls : List EarlyCall)
    (hcap : v.activeCount ≤ maxEarlyValidators) :
    (∀ k, ((calls.take k).foldl call v).activeCount ≤ maxEarlyValidators) ∧
        Run.Meets call ApprovesSupported v calls ↔
      Run.Meets call StillFits v calls :=
  Run.good_meets_iff call (fun _ _ => True) StillFits ApprovesSupported (fun _ => True)
    (fun v => v.activeCount ≤ maxEarlyValidators) (fun _ _ _ _ => trivial)
    (fun v c _ _ hv => call_respects_iff v c hv) v calls trivial hcap
    (Run.meets_of_forall call _ (fun _ _ => trivial) v calls)

/-- Bootstrap validators and nothing else. -/
def founders (n : Nat) : ValidatorSet :=
  ((List.range n).map fun i => SetOp.addValidator (.newBootstrap ⟨Fin.ofNat _ (i + 1)⟩ 0)).foldl apply new

/-- The votes for a candidate at a block, and the approval that follows the last of them. -/
def admission (candidate : AccountId) (voters : List AccountId) (block : Nat) : List EarlyCall :=
  voters.map (EarlyCall.vote candidate · block) ++ [.approve candidate block]

/-- Two candidacies for the last seat. -/
def lastSeatTwice : List EarlyCall :=
  [.propose ⟨31⟩ ⟨1⟩ 100, .propose ⟨32⟩ ⟨1⟩ 100] ++ admission ⟨31⟩ [⟨2⟩, ⟨3⟩, ⟨4⟩, ⟨5⟩] 101 ++
    admission ⟨32⟩ [⟨2⟩, ⟨3⟩, ⟨4⟩, ⟨5⟩] 102

/-- Four candidacies opened by three validators. -/
def fourOfThree : List EarlyCall :=
  [.propose ⟨31⟩ ⟨1⟩ 100, .propose ⟨32⟩ ⟨1⟩ 100, .propose ⟨33⟩ ⟨1⟩ 100, .propose ⟨34⟩ ⟨1⟩ 100] ++
    admission ⟨31⟩ [⟨2⟩, ⟨3⟩] 101 ++ admission ⟨32⟩ [⟨2⟩, ⟨3⟩] 102 ++ admission ⟨33⟩ [⟨2⟩, ⟨3⟩] 103 ++
    admission ⟨34⟩ [⟨2⟩, ⟨3⟩] 104

theorem approvals_respect_iff_sample :
    (∀ k, ((lastSeatTwice.take k).foldl call (founders 19)).activeCount ≤ maxEarlyValidators) ∧
        Run.Meets call ApprovesSupported (founders 19) lastSeatTwice ↔
      Run.Meets call StillFits (founders 19) lastSeatTwice :=
  approvals_respect_iff (founders 19) lastSeatTwice (by decide +kernel)

/-- With twenty active validators two candidacies are approved, and the fourth of four
candidacies that need three votes each is approved by a set of six that asks for four. -/
theorem late_approvals_unsupported :
    (∀ calls ∈ [lastSeatTwice, fourOfThree],
      (∀ c ∈ calls, isBootstrapEra c.block = true) ∧ (calls.map EarlyCall.block).Pairwise (· ≤ ·)) ∧
    (founders 20).activeCount ≤ maxEarlyValidators ∧
    maxEarlyValidators < (lastSeatTwice.foldl call (founders 20)).activeCount ∧
    (founders 3).activeCount ≤ maxEarlyValidators ∧
    ¬ Run.Meets call ApprovesSupported (founders 3) fourOfThree := by
  refine ⟨by decide, by decide +kernel, by decide +kernel, by decide, ?_⟩
  intro h
  have hlast := (Run.meets_iff_split call ApprovesSupported _ _).mp h fourOfThree.dropLast (.approve ⟨34⟩ 104) []
    (by decide)
  have htaken : (((fourOfThree.dropLast.foldl call (founders 3)).approveEarlyValidator ⟨34⟩ 104).toOption).isSome =
      true := by decide +kernel
  have hshort : ((fourOfThree.dropLast.foldl call (founders 3)).getCandidate ⟨34⟩).all (fun c =>
      decide ((c.voters.filter fun a => (fourOfThree.dropLast.foldl call (founders 3)).isActive a = true).card <
        (fourOfThree.dropLast.foldl call (founders 3)).votesRequiredForNewValidator)) = true := by decide +kernel
  generalize fourOfThree.dropLast.foldl call (founders 3) = v at hlast htaken hshort
  cases hw : v.approveEarlyValidator ⟨34⟩ 104 with
  | error e =>
    rw [hw] at htaken
    cases htaken
  | ok w =>
    obtain ⟨c, hc, -, hvotes⟩ := hlast w hw
    rw [hc, Option.all_some, decide_eq_true_iff] at hshort
    exact absurd hvotes (Nat.not_le_of_lt hshort)

/-! ## The calls of an import -/

/-- Every vote a candidacy holds is that of an active validator. -/
def VotersActive (v : ValidatorSet) : Prop :=
  ∀ id c, v.getCandidate id = some c → ∀ a ∈ c.voters, v.isActive a = true

theorem isActive_proposer (v w : ValidatorSet) (candidate proposer : AccountId) (block : Nat)
    (h : v.proposeEarlyValidator candidate proposer block = .ok w) : v.isActive proposer = true := by
  unfold proposeEarlyValidator at h
  split at h
  · cases h
  split at h
  · cases h
  split at h
  · cases h
  · next hactive => simpa using hactive

/-- A vote call leaves the candidacies alone, marks one as expired or adds an active voter to it. -/
theorem voteEarlyValidator_voters (v : ValidatorSet) (candidate voter : AccountId) (block : Nat) :
    (v.voteEarlyValidator candidate voter block).1.earlyCandidates = v.earlyCandidates ∨
      ∃ c c', v.getCandidate candidate = some c ∧
        (v.voteEarlyValidator candidate voter block).1.earlyCandidates = v.earlyCandidates.insert candidate c' ∧
        ∀ a ∈ c'.voters, v.isActive a = true ∨ a ∈ c.voters := by
  unfold voteEarlyValidator
  split
  · exact Or.inl rfl
  · split
    · exact Or.inl rfl
    · next hactive =>
      split
      · exact Or.inl rfl
      · next c hc =>
        split
        · exact Or.inr ⟨c, _, hc, rfl, fun a ha => Or.inr ha⟩
        · split
          · exact Or.inl rfl
          · split
            · exact Or.inl rfl
            · refine Or.inr ⟨c, _, hc, rfl, fun a ha => ?_⟩
              rcases Finset.mem_insert.mp ha with rfl | hold
              · exact Or.inl (by simpa using hactive)
              · exact Or.inr hold

/-- A vote is an earlier one or that of an active validator. -/
theorem voter_of_call (v : ValidatorSet) (c : EarlyCall) (id : AccountId) (d : EarlyValidatorCandidate)
    (hd : (v.call c).getCandidate id = some d) (a : AccountId) (ha : a ∈ d.voters) :
    v.isActive a = true ∨ ∃ old, v.getCandidate id = some old ∧ a ∈ old.voters := by
  cases c with
  | propose candidate proposer block =>
    cases hw : v.proposeEarlyValidator candidate proposer block with
    | error e =>
      rw [call_propose, hw] at hd
      exact Or.inr ⟨d, hd, ha⟩
    | ok w =>
      obtain ⟨-, -, hcandidates⟩ := proposeEarlyValidator_ok v w candidate proposer block hw
      rw [call_propose, hw, Except.orKeep, getCandidate_of_insert v w candidate id _ hcandidates] at hd
      split at hd
      · left
        cases hd
        rw [Finset.mem_singleton.mp ha]
        exact isActive_proposer v w candidate proposer block hw
      · exact Or.inr ⟨d, hd, ha⟩
  | vote candidate voter block =>
    have hcall : v.call (.vote candidate voter block) = (v.voteEarlyValidator candidate voter block).1 := rfl
    rw [hcall] at hd
    rcases voteEarlyValidator_voters v candidate voter block with hsame | ⟨c, c', hget, hcandidates, hvoters⟩
    · rw [getCandidate, hsame] at hd
      exact Or.inr ⟨d, hd, ha⟩
    · rw [getCandidate_of_insert v _ candidate id c' hcandidates] at hd
      split at hd
      · next hid =>
        cases hd
        exact (hvoters a ha).imp_right fun hold => ⟨c, hid ▸ hget, hold⟩
      · exact Or.inr ⟨d, hd, ha⟩
  | approve candidate block =>
    cases hw : v.approveEarlyValidator candidate block with
    | error e =>
      rw [call_approve_of_error v candidate block e hw] at hd
      exact Or.inr ⟨d, hd, ha⟩
    | ok w =>
      rw [call_approve_of_ok v w candidate block hw] at hd
      obtain ⟨c, hget, -, -, -, hcandidates⟩ := approveEarlyValidator_ok v w candidate block hw
      rw [getCandidate_of_insert v w candidate id _ hcandidates] at hd
      right
      split at hd
      · next hid =>
        cases hd
        exact ⟨c, hid ▸ hget, ha⟩
      · exact ⟨d, hd, ha⟩

theorem votersActive_call (v : ValidatorSet) (c : EarlyCall) (h : v.VotersActive) : (v.call c).VotersActive := by
  intro id d hd a ha
  rcases voter_of_call v c id d hd a ha with hactive | ⟨old, hold, hmem⟩
  · exact isActive_call v c a hactive
  · exact isActive_call v c a (h id old hold a hmem)

/-- The calls for one transaction of a block. -/
def importCalls (block : Nat) (v : ValidatorSet) (tx : SignedTransaction) : List EarlyCall :=
  match tx.transaction.call with
  | .proposeEarlyValidator candidate =>
    let propose := EarlyCall.propose candidate tx.transaction.sender block
    match v.proposeEarlyValidator candidate tx.transaction.sender block with
    | .error _ => [propose]
    | .ok w =>
      if (w.getCandidate candidate).any EarlyValidatorCandidate.hasQuorum then
        [propose, .approve candidate block]
      else [propose]
  | .voteEarlyValidator candidate =>
    let vote := EarlyCall.vote candidate tx.transaction.sender block
    match (v.voteEarlyValidator candidate tx.transaction.sender block).2 with
    | .ok true => [vote, .approve candidate block]
    | _ => [vote]
  | _ => []

theorem approveCandidate_validators (n : Node) (candidate : AccountId) (block : Nat) :
    (n.approveCandidate candidate block).validators = n.validators.call (.approve candidate block) := by
  unfold Node.approveCandidate
  cases hw : n.validators.approveEarlyValidator candidate block with
  | error e => exact (call_approve_of_error n.validators candidate block e hw).symm
  | ok w => exact (call_approve_of_ok n.validators w candidate block hw).symm

/-- The set an import leaves is the one these calls leave. -/
theorem processVote_validators (block : Nat) (n : Node) (tx : SignedTransaction) :
    (Node.processVote block n tx).validators = (importCalls block n.validators tx).foldl call n.validators := by
  unfold Node.processVote importCalls
  cases hcall : tx.transaction.call with
  | proposeEarlyValidator candidate =>
    simp only
    cases hw : n.validators.proposeEarlyValidator candidate tx.transaction.sender block with
    | error e => simp [call_propose, hw, Except.orKeep]
    | ok w =>
      simp only
      split
      · rw [approveCandidate_validators]
        simp [call_propose, hw, Except.orKeep]
      · simp [call_propose, hw, Except.orKeep]
  | voteEarlyValidator candidate =>
    simp only
    have hvote : n.validators.call (.vote candidate tx.transaction.sender block) =
        (n.validators.voteEarlyValidator candidate tx.transaction.sender block).1 := rfl
    split
    · next w hw =>
      rw [approveCandidate_validators]
      simp [hvote, hw]
    · next w r hr hw =>
      rw [hw]
      split
      · next hr' => exact (hr hr').elim
      · simp [hvote, hw]
  | _ => rfl

/-- The same for the transactions of a chain of blocks, each with its block number. -/
def importedCalls (v : ValidatorSet) : List (Nat × SignedTransaction) → List EarlyCall
  | [] => []
  | (block, tx) :: l =>
    importCalls block v tx ++ importedCalls ((importCalls block v tx).foldl call v) l

theorem processVotes_validators (n : Node) (l : List (Nat × SignedTransaction)) :
    (l.foldl (fun n e => Node.processVote e.1 n e.2) n).validators =
      (importedCalls n.validators l).foldl call n.validators := by
  induction l generalizing n with
  | nil => rfl
  | cons e l ih =>
    rw [List.foldl_cons, ih, processVote_validators, importedCalls, List.foldl_append]

/-- A candidacy that an approval would take has not expired. -/
def InTime (v : ValidatorSet) : EarlyCall → Prop
  | .approve candidate block => ∀ c, v.getCandidate candidate = some c → block ≤ c.createdAt + candidacyExpiration
  | _ => True

theorem meets_inTime_importCalls (block : Nat) (v : ValidatorSet) (tx : SignedTransaction) :
    Run.Meets call InTime v (importCalls block v tx) := by
  unfold importCalls
  split
  · next candidate _ =>
    simp only
    split
    · exact ⟨trivial, trivial⟩
    · next w hw =>
      split
      · refine ⟨trivial, ?_, trivial⟩
        -- opened at this block
        obtain ⟨-, -, hcandidates⟩ := proposeEarlyValidator_ok v w candidate tx.transaction.sender block hw
        intro c hc
        rw [call_propose, hw, Except.orKeep, getCandidate_of_insert v w candidate candidate _ hcandidates,
          if_pos rfl] at hc
        cases hc
        exact Nat.le_add_right _ _
      · exact ⟨trivial, trivial⟩
  · next candidate _ =>
    simp only
    split
    · next hvote =>
      refine ⟨trivial, ?_, trivial⟩
      intro c hc
      rcases voteEarlyValidator_cases v candidate tx.transaction.sender block with
        ⟨-, herr⟩ | ⟨old, new, -, hw, ⟨-, herr⟩ | ⟨-, hfresh, -⟩⟩
      · exact absurd hvote (herr true)
      · exact absurd hvote (herr true)
      · have hcall : v.call (.vote candidate tx.transaction.sender block) =
            { v with earlyCandidates := v.earlyCandidates.insert candidate new } := hw
        rw [hcall, getCandidate_of_insert v _ candidate candidate new rfl, if_pos rfl] at hc
        cases hc
        simpa [EarlyValidatorCandidate.isExpired] using hfresh
    · exact ⟨trivial, trivial⟩
  · trivial

theorem meets_inTime_importedCalls (v : ValidatorSet) (l : List (Nat × SignedTransaction)) :
    Run.Meets call InTime v (importedCalls v l) := by
  induction l generalizing v with
  | nil => trivial
  | cons e l ih =>
    rw [importedCalls, Run.meets_append]
    exact ⟨meets_inTime_importCalls e.1 v e.2, ih _⟩

/-- What an approval would take has a seat and as many votes as the set now asks for. -/
def KeepsUp (v : ValidatorSet) : EarlyCall → Prop
  | .approve candidate _ => ∀ c, v.Takes candidate c →
      v.Seat candidate ∧ v.votesRequiredForNewValidator ≤ c.voters.card
  | _ => True

theorem stillFits_iff (v : ValidatorSet) (c : EarlyCall) (hvoters : v.VotersActive) (htime : v.InTime c) :
    v.StillFits c ↔ v.KeepsUp c := by
  cases c with
  | propose => exact Iff.rfl
  | vote => exact Iff.rfl
  | approve candidate block =>
    refine forall₂_congr fun c hc => ?_
    have hgone : (c.voters.filter fun a => v.isActive a = false) = ∅ := by
      rw [Finset.filter_eq_empty_iff]
      intro a ha
      rw [hvoters candidate c hc.candidacy a ha]
      decide
    have hin := htime c hc.candidacy
    rw [hgone, Finset.card_empty, Nat.zero_add, and_iff_right hin]

/-- In the calls of imports only the growth of the set is left to fail. -/
theorem meets_stillFits_importedCalls_iff (v : ValidatorSet) (l : List (Nat × SignedTransaction))
    (h : v.VotersActive) :
    Run.Meets call StillFits v (importedCalls v l) ↔ Run.Meets call KeepsUp v (importedCalls v l) := by
  have htime := (Run.meets_iff_split call InTime v _).mp (meets_inTime_importedCalls v l)
  rw [Run.meets_iff_split, Run.meets_iff_split]
  refine forall_congr' fun pre => forall₃_congr fun c post hsplit => ?_
  have hvoters : VotersActive (pre.foldl call v) :=
    Run.inv_foldl call (fun _ _ => True) VotersActive (fun v c hv _ => votersActive_call v c hv) v pre h
      (Run.meets_of_forall call _ (fun _ _ => trivial) v pre)
  exact stillFits_iff _ c hvoters (htime pre c post hsplit)

end ValidatorSet

end Kratos
