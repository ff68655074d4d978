import Kratos.Contracts.Governance

/-!
# The books of the governance contract

Totals of voting power, totals of votes, exit slots and the index by chain.  All
calls on a single proposal have one shape (`Moved`): an open proposal is
rewritten, and the exit slot of its chain is freed if it is closed.  Each part of
`Books` is kept by creating, moving, expiring and dropping proposals.
-/

namespace Kratos

namespace Proposal

def votesFor (p : Proposal) : Vote → Balance
  | .yes => p.yesVotes
  | .no => p.noVotes
  | .abstain => p.abstainVotes

/-- The weights of the recorded votes of one kind. -/
def weightOf (p : Proposal) (v : Vote) : Nat :=
  ((p.votes.filter fun r => decide (r.vote = v)).map fun r => r.weight.val).sum

/-- The totals are those of the records, and nobody voted twice. -/
structure Tallied (p : Proposal) : Prop where
  totals : ∀ v, (p.votesFor v).val = p.weightOf v
  voters : (p.votes.map VoteRecord.voter).Nodup

/-- An exit proposal of the chain that is in progress. -/
def HoldsExit (p : Proposal) (chainId : ChainId) : Prop :=
  p.chainId = chainId ∧ p.proposalType.isExitProposal = true ∧ p.status.inProgress = true

theorem tallied_new (id : Nat) (chainId : ChainId) (proposer : AccountId) (t : ProposalType)
    (description : Option String) (deposit : Balance) (createdAt : Nat) :
    (new id chainId proposer t description deposit createdAt).Tallied where
  totals v := by cases v <;> rfl
  voters := List.nodup_nil

/-- The other fields do not matter. -/
theorem tallied_congr (p q : Proposal) (hv : q.votes = p.votes) (hyes : q.yesVotes = p.yesVotes)
    (hno : q.noVotes = p.noVotes) (habstain : q.abstainVotes = p.abstainVotes) (h : p.Tallied) :
    q.Tallied where
  totals v := by
    have hold := h.totals v
    unfold weightOf at hold ⊢
    rw [hv, ← hold]
    cases v with
    | yes => exact congrArg Fin.val hyes
    | no => exact congrArg Fin.val hno
    | abstain => exact congrArg Fin.val habstain
  voters := by
    rw [hv]
    exact h.voters

theorem votes_record (p : Proposal) (r : VoteRecord) :
    (GovernanceContract.record p r).votes = p.votes ++ [r] := by
  unfold GovernanceContract.record
  split <;> rfl

theorem votesFor_record (p : Proposal) (r : VoteRecord) (v : Vote) :
    (GovernanceContract.record p r).votesFor v =
      if v = r.vote then p.votesFor v + r.weight else p.votesFor v := by
  unfold GovernanceContract.record
  cases v <;> split <;> next h => simp [h, votesFor]

theorem tallied_record (p : Proposal) (r : VoteRecord) (h : p.Tallied)
    (hnew : p.hasVoted r.voter = false) (hfits : (p.votesFor r.vote).val + r.weight.val < 2 ^ 128) :
    (GovernanceContract.record p r).Tallied := by
  constructor
  · intro v
    unfold weightOf
    rw [votes_record, votesFor_record, List.filter_append, List.map_append, List.sum_append]
    have hold := h.totals v
    unfold weightOf at hold
    by_cases hv : v = r.vote
    · rw [if_pos hv, Fin.val_add, hv, Nat.mod_eq_of_lt hfits]
      rw [hv] at hold
      simp [hold]
    · rw [if_neg hv, hold]
      simp [Ne.symm hv]
  · rw [votes_record, List.map_append]
    apply List.Nodup.append h.voters
    · exact List.nodup_singleton _
    · intro a ha hr
      obtain ⟨x, hx, rfl⟩ := List.mem_map.mp ha
      have heq : x.voter = r.voter := by simpa using hr
      unfold hasVoted at hnew
      rw [List.any_eq_false] at hnew
      exact hnew x hx (by simp [heq])

end Proposal

namespace GovernanceContract

/-! ## Books -/

/-- The sum of the powers of a chain's accounts. -/
def powerSum (g : GovernanceContract) (chainId : ChainId) : Nat :=
  g.votingPower.sumOf fun key power => if (ofLex key).1 = chainId then power.val else 0

/-- The ids listed for a chain. -/
def listed (g : GovernanceContract) (chainId : ChainId) : List Nat :=
  (g.proposalsByChain.find? chainId).getD []

structure Books (g : GovernanceContract) : Prop where
  powers : ∀ c, (g.getTotalVotingPower c).val = g.powerSum c
  tallied : ∀ id p, g.proposals.find? id = some p → p.Tallied
  exits : ∀ c id, g.activeExitProposals.find? c = some id ↔
    ∃ p, g.proposals.find? id = some p ∧ p.HoldsExit c
  index : ∀ c id, id ∈ g.listed c ↔ ∃ p, g.proposals.find? id = some p ∧ p.chainId = c
  once : ∀ c, (g.listed c).Nodup
  fresh : ∀ id p, g.proposals.find? id = some p → id < g.nextProposalId

theorem new_books : new.Books where
  powers _ := rfl
  tallied _ _ h := by cases h
  exits c id := by
    constructor
    · intro h
      cases h
    · rintro ⟨p, h, -⟩
      cases h
  index c id := by
    constructor
    · intro h
      cases h
    · rintro ⟨p, h, -⟩
      cases h
  once _ := List.nodup_nil
  fresh _ _ h := by cases h

/-- At most one exit is in progress. -/
theorem Books.exit_unique {g : GovernanceContract} (h : g.Books) (c : ChainId) (i j : Nat) (p q : Proposal)
    (hp : g.proposals.find? i = some p) (hq : g.proposals.find? j = some q) (hpc : p.HoldsExit c)
    (hqc : q.HoldsExit c) : i = j := by
  have hi := (h.exits c i).mpr ⟨p, hp, hpc⟩
  have hj := (h.exits c j).mpr ⟨q, hq, hqc⟩
  rw [hi] at hj
  exact Option.some.inj hj

/-- Storing a proposal: what has to hold of its own slot and place in the index, with
those of the others as they were. -/
theorem Books.insert {g t : GovernanceContract} (h : g.Books) (id : Nat) (q : Proposal)
    (hprops : t.proposals = g.proposals.insert id q) (hpowers : t.votingPower = g.votingPower)
    (htotals : t.totalVotingPower = g.totalVotingPower) (hq : q.Tallied)
    (hslot : ∀ c, t.activeExitProposals.find? c = some id ↔ q.HoldsExit c)
    (hslots : ∀ c i, i ≠ id →
      (t.activeExitProposals.find? c = some i ↔ g.activeExitProposals.find? c = some i))
    (hlist : ∀ c, id ∈ t.listed c ↔ q.chainId = c)
    (hlists : ∀ c i, i ≠ id → (i ∈ t.listed c ↔ i ∈ g.listed c)) (honce : ∀ c, (t.listed c).Nodup)
    (hid : id < t.nextProposalId) (hnext : g.nextProposalId ≤ t.nextProposalId) : t.Books := by
  have hother : ∀ i, i ≠ id → t.proposals.find? i = g.proposals.find? i := by
    intro i hi
    rw [hprops, SortedMap.find?_insert_ne _ _ _ _ hi]
  have hown : ∀ P : Proposal → Prop, (∃ r, t.proposals.find? id = some r ∧ P r) ↔ P q := by
    intro P
    rw [hprops, SortedMap.find?_insert_self]
    simp
  constructor
  · intro c
    unfold getTotalVotingPower powerSum
    rw [htotals, hpowers]
    exact h.powers c
  · intro i r hr
    by_cases hi : i = id
    · rw [hi, hprops, SortedMap.find?_insert_self] at hr
      obtain rfl := Option.some.inj hr
      exact hq
    · rw [hother i hi] at hr
      exact h.tallied i r hr
  · intro c i
    by_cases hi : i = id
    · rw [hi, hslot c, hown]
    · rw [hslots c i hi, hother i hi]
      exact h.exits c i
  · intro c i
    by_cases hi : i = id
    · rw [hi, hlist c, hown]
    · rw [hlists c i hi, hother i hi]
      exact h.index c i
  · exact honce
  · intro i r hr
    by_cases hi : i = id
    · omega
    · rw [hother i hi] at hr
      have := h.fresh i r hr
      omega

/-! ## Powers -/

/-- What an account has on record for a chain, absent or not. -/
theorem elim_votingPower (g : GovernanceContract) (c c' : ChainId) (a : AccountId) :
    (g.votingPower.find? (toLex (c, a))).elim 0 (fun power => if c = c' then power.val else 0) =
      if c = c' then (g.getVotingPower c a).val else 0 := by
  unfold getVotingPower
  cases g.votingPower.find? (toLex (c, a)) with
  | none => simp
  | some old => rfl

theorem powerSum_insert (g : GovernanceContract) (c c' : ChainId) (a : AccountId) (power : Balance) :
    (g.votingPower.insert (toLex (c, a)) power).sumOf
        (fun key power => if (ofLex key).1 = c' then power.val else 0) +
      (if c = c' then (g.getVotingPower c a).val else 0) =
      g.powerSum c' + (if c = c' then power.val else 0) := by
  rw [← g.elim_votingPower c c' a]
  exact SortedMap.sumOf_insert (fun (key : PowerKey) (power : Balance) =>
    if (ofLex key).1 = c' then power.val else 0) g.votingPower (toLex (c, a)) power

theorem powerSum_erase (g : GovernanceContract) (c c' : ChainId) (a : AccountId) :
    (g.votingPower.erase (toLex (c, a))).sumOf
        (fun key power => if (ofLex key).1 = c' then power.val else 0) +
      (if c = c' then (g.getVotingPower c a).val else 0) = g.powerSum c' := by
  rw [← g.elim_votingPower c c' a]
  exact SortedMap.sumOf_erase (fun (key : PowerKey) (power : Balance) =>
    if (ofLex key).1 = c' then power.val else 0) g.votingPower (toLex (c, a))

theorem powerSum_setVotingPower (g : GovernanceContract) (c c' : ChainId) (a : AccountId) (power : Balance) :
    (g.setVotingPower c a power).powerSum c' + (if c = c' then (g.getVotingPower c a).val else 0) =
      g.powerSum c' + (if c = c' then power.val else 0) := by
  show (if power > 0 then g.votingPower.insert (toLex (c, a)) power
    else g.votingPower.erase (toLex (c, a))).sumOf _ + _ = _
  by_cases hp : power > 0
  · rw [if_pos hp]
    exact powerSum_insert g c c' a power
  · have hz : power.val = 0 := by
      have : ¬ 0 < power.val := fun h => hp h
      omega
    rw [if_neg hp, powerSum_erase, hz]
    simp

theorem Books.setVotingPower {g : GovernanceContract} (h : g.Books) (c : ChainId) (a : AccountId)
    (power : Balance)
    (hfits : (g.getTotalVotingPower c).val - (g.getVotingPower c a).val + power.val < 2 ^ 128) :
    (g.setVotingPower c a power).Books where
  tallied := h.tallied
  exits := h.exits
  index := h.index
  once := h.once
  fresh := h.fresh
  powers c' := by
    have hsum := powerSum_setVotingPower g c c' a power
    have hpow := h.powers c'
    by_cases hc : c = c'
    · subst hc
      rw [if_pos rfl, if_pos rfl] at hsum
      show ((g.totalVotingPower.insert c _).find? c |>.getD 0).val = _
      rw [SortedMap.find?_insert_self, Option.getD_some, Word.val_satAdd_of_lt, Word.val_satSub]
      · -- the account's own power is part of the sum
        have herase := powerSum_erase g c c a
        rw [if_pos rfl] at herase
        omega
      · rw [Word.val_satSub]
        omega
    · rw [if_neg hc, if_neg hc] at hsum
      have htotal : (g.setVotingPower c a power).getTotalVotingPower c' = g.getTotalVotingPower c' := by
        unfold getTotalVotingPower
        show ((g.totalVotingPower.insert c _).find? c').getD 0 = _
        rw [SortedMap.find?_insert_ne _ _ _ _ (Ne.symm hc)]
      rw [htotal]
      omega

/-! ## Calls on one proposal -/

/-- An open proposal is rewritten; if that closes it, the exit slot of its chain is freed. -/
structure Moved (g t : GovernanceContract) (id : Nat) (p q : Proposal) : Prop where
  found : g.proposals.find? id = some p
  started : p.status.inProgress = true
  chain : q.chainId = p.chainId
  kind : q.proposalType = p.proposalType
  result : t = { g with
    proposals := g.proposals.insert id q
    activeExitProposals := if q.status.inProgress then g.activeExitProposals else g.freeExit p }

theorem inProgress_of_open (p : Proposal) (b : Nat) (h : p.isVotingOpen b = true) : p.status = .active := by
  unfold Proposal.isVotingOpen at h
  simp only [Bool.and_eq_true, decide_eq_true_eq] at h
  exact h.1

theorem record_frame (p : Proposal) (r : VoteRecord) :
    (record p r).chainId = p.chainId ∧ (record p r).proposalType = p.proposalType ∧
      (record p r).status = p.status ∧ (record p r).votingEndsAt = p.votingEndsAt ∧
      (record p r).timelockEndsAt = p.timelockEndsAt := by
  unfold record
  split <;> exact ⟨rfl, rfl, rfl, rfl, rfl⟩

theorem vote_moved (g t : GovernanceContract) (id : Nat) (voter : AccountId) (v : Vote) (b : Nat)
    (h : g.vote id voter v b = .ok t) :
    ∃ p, p.isVotingOpen b = true ∧ p.hasVoted voter = false ∧
      Moved g t id p (record p ⟨voter, v, g.getVotingPower p.chainId voter, b⟩) := by
  unfold vote at h
  cases hf : g.proposals.find? id with
  | none => simp [hf] at h
  | some p =>
    simp only [hf] at h
    by_cases hopen : p.isVotingOpen b = false
    · simp [hopen] at h
    by_cases hvoted : p.hasVoted voter = true
    · simp [hopen, hvoted] at h
    by_cases hw : g.getVotingPower p.chainId voter = 0
    · simp [hopen, hvoted, hw] at h
    rw [if_neg hopen, if_neg hvoted, if_neg hw] at h
    have hopen : p.isVotingOpen b = true := by simpa using hopen
    have hactive := inProgress_of_open p b hopen
    obtain ⟨hc, hk, hs, -, -⟩ := record_frame p ⟨voter, v, g.getVotingPower p.chainId voter, b⟩
    refine ⟨p, hopen, by simpa using hvoted, hf, ?_, hc, hk, ?_⟩
    · rw [hactive]
      rfl
    · rw [hs, hactive]
      exact (Except.ok.inj h).symm

theorem finalizeVoting_moved (g t : GovernanceContract) (id b : Nat) (status : ProposalStatus)
    (h : g.finalizeVoting id b = .ok (t, status)) :
    ∃ p, p.status = .active ∧ p.votingEndsAt ≤ b ∧
      ((p.passed (g.getTotalVotingPower p.chainId) = true ∧ Moved g t id p
          { p with status := .passed, timelockEndsAt := some (b + p.proposalType.timelockPeriod) }) ∨
        Moved g t id p { p with status := .rejected }) := by
  unfold finalizeVoting at h
  cases hf : g.proposals.find? id with
  | none => simp [hf] at h
  | some p =>
    simp only [hf] at h
    by_cases hb : b < p.votingEndsAt
    · simp [hb] at h
    by_cases hs : p.status ≠ .active
    · simp [hb, hs] at h
    rw [if_neg hb, if_neg hs] at h
    have hactive : p.status = .active := by simpa using hs
    have hstarted : p.status.inProgress = true := by rw [hactive]; rfl
    refine ⟨p, hactive, Nat.le_of_not_lt hb, ?_⟩
    by_cases hp : p.passed (g.getTotalVotingPower p.chainId) = true
    · rw [if_pos hp] at h
      exact .inl ⟨hp, hf, hstarted, rfl, rfl, (congrArg Prod.fst (Except.ok.inj h)).symm⟩
    · rw [if_neg hp] at h
      exact .inr ⟨hf, hstarted, rfl, rfl, (congrArg Prod.fst (Except.ok.inj h)).symm⟩

theorem checkExecutionReady_moved (g t : GovernanceContract) (id b : Nat) (ready : Bool)
    (h : g.checkExecutionReady id b = .ok (t, ready)) :
    t = g ∨ ∃ p, ∃ e, p.status = .passed ∧ p.timelockEndsAt = some e ∧ e ≤ b ∧
      Moved g t id p { p with status := .readyToExecute } := by
  unfold checkExecutionReady at h
  cases hf : g.proposals.find? id with
  | none => simp [hf] at h
  | some p =>
    simp only [hf] at h
    by_cases hs : p.status ≠ .passed
    · rw [if_pos hs] at h
      exact .inl (congrArg Prod.fst (Except.ok.inj h)).symm
    rw [if_neg hs] at h
    have hpassed : p.status = .passed := by simpa using hs
    by_cases hb : p.timelockEndsAt.any (fun e => decide (b ≥ e)) = true
    · rw [if_pos hb] at h
      obtain ⟨e, he, hle⟩ := (Option.any_eq_true _ _).mp hb
      have hstarted : p.status.inProgress = true := by rw [hpassed]; rfl
      exact .inr ⟨p, e, hpassed, he, by simpa using hle, hf, hstarted, rfl, rfl,
        (congrArg Prod.fst (Except.ok.inj h)).symm⟩
    · rw [if_neg hb] at h
      exact .inl (congrArg Prod.fst (Except.ok.inj h)).symm

theorem markExecuted_moved (g t : GovernanceContract) (id b : Nat) (h : g.markExecuted id b = .ok t) :
    ∃ p, p.status = .readyToExecute ∧
      Moved g t id p { p with status := .executed, executedAt := some b } := by
  unfold markExecuted at h
  cases hf : g.proposals.find? id with
  | none => simp [hf] at h
  | some p =>
    simp only [hf] at h
    by_cases hs : p.status ≠ .readyToExecute
    · simp [hs] at h
    rw [if_neg hs] at h
    have hready : p.status = .readyToExecute := by simpa using hs
    exact ⟨p, hready, hf, by rw [hready]; rfl, rfl, rfl, (Except.ok.inj h).symm⟩

theorem cancelProposal_moved (g t : GovernanceContract) (id : Nat) (caller : AccountId) (b : Nat)
    (h : g.cancelProposal id caller b = .ok t) :
    ∃ p, p.status = .active ∧ Moved g t id p { p with status := .cancelled } := by
  unfold cancelProposal at h
  cases hf : g.proposals.find? id with
  | none => simp [hf] at h
  | some p =>
    simp only [hf] at h
    by_cases hcaller : p.proposer ≠ caller
    · simp [hcaller] at h
    by_cases hopen : p.isVotingOpen b = false
    · simp [hcaller, hopen] at h
    rw [if_neg hcaller, if_neg hopen] at h
    have hactive := inProgress_of_open p b (by simpa using hopen)
    exact ⟨p, hactive, hf, by rw [hactive]; rfl, rfl, rfl, (Except.ok.inj h).symm⟩

/-! ## Exit slots -/

/-- Freeing the slot of an open proposal takes that proposal out of the slots and no other. -/
theorem Books.find?_freeExit {g : GovernanceContract} (h : g.Books) (s : GovernanceContract) (id : Nat)
    (p q : Proposal) (hs : ∀ c i, s.activeExitProposals.find? c = some i →
      g.activeExitProposals.find? c = some i)
    (hf : g.proposals.find? id = some p) (hstarted : p.status.inProgress = true)
    (hchain : q.chainId = p.chainId) (hkind : q.proposalType = p.proposalType) (c : ChainId) (i : Nat) :
    (s.freeExit q).find? c = some i ↔ s.activeExitProposals.find? c = some i ∧ i ≠ id := by
  -- whatever slot the proposal holds is that of its chain
  have hown : ∀ c, g.activeExitProposals.find? c = some id → p.HoldsExit c := by
    intro c hc
    obtain ⟨p', hp', hold⟩ := (h.exits c id).mp hc
    rw [hf] at hp'
    exact Option.some.inj hp' ▸ hold
  unfold freeExit
  rw [hkind, hchain]
  by_cases he : p.proposalType.isExitProposal = true
  · rw [if_pos he, SortedMap.find?_erase]
    have hheld := (h.exits p.chainId id).mpr ⟨p, hf, rfl, he, hstarted⟩
    by_cases hc : c = p.chainId
    · rw [if_pos hc]
      constructor
      · intro hno
        cases hno
      · rintro ⟨hi, hne⟩
        have hslot := hs c i hi
        rw [hc, hheld] at hslot
        exact absurd (Option.some.inj hslot).symm hne
    · rw [if_neg hc]
      constructor
      · intro hi
        refine ⟨hi, ?_⟩
        rintro rfl
        exact hc (hown c (hs c i hi)).1.symm
      · exact And.left
  · rw [if_neg he]
    constructor
    · intro hi
      refine ⟨hi, ?_⟩
      rintro rfl
      exact he (hown c (hs c i hi)).2.1
    · exact And.left

theorem Books.moved {g t : GovernanceContract} {id : Nat} {p q : Proposal} (h : g.Books)
    (hm : Moved g t id p q) (hq : p.Tallied → q.Tallied) : t.Books := by
  obtain ⟨hf, hstarted, hchain, hkind, rfl⟩ := hm
  have hheld : ∀ c, g.activeExitProposals.find? c = some id ↔ p.HoldsExit c := by
    intro c
    rw [h.exits c id, hf]
    simp
  have hindexed : ∀ c, id ∈ g.listed c ↔ p.chainId = c := by
    intro c
    rw [h.index c id, hf]
    simp
  have hfree := h.find?_freeExit g id p p (fun _ _ hc => hc) hf hstarted rfl rfl
  refine h.insert id q rfl rfl rfl (hq (h.tallied id p hf)) ?_ ?_ ?_ (fun _ _ _ => Iff.rfl) h.once
    (h.fresh id p hf) (Nat.le_refl _)
  · intro c
    show (if q.status.inProgress then g.activeExitProposals else g.freeExit p).find? c = some id ↔ _
    by_cases hprog : q.status.inProgress = true
    · rw [if_pos hprog, hheld c]
      unfold Proposal.HoldsExit
      rw [hchain, hkind, hstarted, hprog]
    · rw [if_neg hprog, hfree c id]
      constructor
      · rintro ⟨-, hne⟩
        exact absurd rfl hne
      · intro hold
        exact absurd hold.2.2 hprog
  · intro c i hi
    show (if q.status.inProgress then g.activeExitProposals else g.freeExit p).find? c = some i ↔ _
    by_cases hprog : q.status.inProgress = true
    · rw [if_pos hprog]
    · rw [if_neg hprog, hfree c i]
      exact and_iff_left hi
  · intro c
    rw [hchain]
    exact hindexed c

/-! ## Creating -/

theorem createProposal_ok (g t : GovernanceContract) (c : ChainId) (proposer : AccountId) (k : ProposalType)
    (description : Option String) (b id : Nat)
    (h : g.createProposal c proposer k description b = .ok (t, id)) :
    (k.isExitProposal = true → g.activeExitProposals.find? c = none) ∧
      t = { g with
        nextProposalId := g.nextProposalId + 1
        activeExitProposals :=
          if k.isExitProposal then g.activeExitProposals.insert c g.nextProposalId else g.activeExitProposals
        proposals := g.proposals.insert g.nextProposalId
          (Proposal.new g.nextProposalId c proposer k description proposalDeposit b)
        proposalsByChain := g.proposalsByChain.insert c (g.listed c ++ [g.nextProposalId]) } := by
  unfold createProposal at h
  by_cases hpow : g.getVotingPower c proposer = 0
  · simp [hpow] at h
  by_cases hslot : k.isExitProposal = true ∧ g.activeExitProposals.contains c = true
  · simp [hpow, hslot] at h
  by_cases hdispute : k.isExitProposal = true ∧ g.hasDispute c = true
  · rw [if_neg hpow, if_neg hslot, if_pos hdispute] at h
    cases h
  rw [if_neg hpow, if_neg hslot, if_neg hdispute] at h
  refine ⟨?_, (congrArg Prod.fst (Except.ok.inj h)).symm⟩
  intro hk
  unfold SortedMap.contains at hslot
  simpa [hk] using hslot

theorem Books.createProposal {g t : GovernanceContract} (hg : g.Books) (c : ChainId) (proposer : AccountId)
    (k : ProposalType) (description : Option String) (b id : Nat)
    (h : g.createProposal c proposer k description b = .ok (t, id)) : t.Books := by
  obtain ⟨hfree, rfl⟩ := createProposal_ok g t c proposer k description b id h
  -- the new id is in no slot and in no list
  have hnoSlot : ∀ c', g.activeExitProposals.find? c' ≠ some g.nextProposalId := by
    intro c' hc
    obtain ⟨r, hr, -⟩ := (hg.exits c' _).mp hc
    exact absurd (hg.fresh _ r hr) (Nat.lt_irrefl _)
  have hnoList : ∀ c', g.nextProposalId ∉ g.listed c' := by
    intro c' hc
    obtain ⟨r, hr, -⟩ := (hg.index c' _).mp hc
    exact absurd (hg.fresh _ r hr) (Nat.lt_irrefl _)
  have hlisted : ∀ c', ((g.proposalsByChain.insert c (g.listed c ++ [g.nextProposalId])).find? c').getD [] =
      if c' = c then g.listed c ++ [g.nextProposalId] else g.listed c' := by
    intro c'
    rw [SortedMap.find?_insert]
    split <;> rfl
  refine hg.insert g.nextProposalId _ rfl rfl rfl (Proposal.tallied_new _ _ _ _ _ _ _) ?_ ?_ ?_ ?_ ?_
    (Nat.lt_succ_self _) (Nat.le_succ _)
  · intro c'
    show (if k.isExitProposal then g.activeExitProposals.insert c g.nextProposalId
      else g.activeExitProposals).find? c' = some g.nextProposalId ↔ _
    by_cases hk : k.isExitProposal = true
    · rw [if_pos hk, SortedMap.find?_insert]
      by_cases hc : c' = c
      · rw [if_pos hc]
        exact ⟨fun _ => ⟨hc.symm, hk, rfl⟩, fun _ => rfl⟩
      · rw [if_neg hc]
        exact ⟨fun hs => absurd hs (hnoSlot c'), fun hold => absurd hold.1.symm hc⟩
    · rw [if_neg hk]
      exact ⟨fun hs => absurd hs (hnoSlot c'), fun hold => absurd hold.2.1 hk⟩
  · intro c' i hi
    show (if k.isExitProposal then g.activeExitProposals.insert c g.nextProposalId
      else g.activeExitProposals).find? c' = some i ↔ _
    by_cases hk : k.isExitProposal = true
    · rw [if_pos hk, SortedMap.find?_insert]
      by_cases hc : c' = c
      · rw [if_pos hc, hc, hfree hk]
        simp [Ne.symm hi]
      · rw [if_neg hc]
    · rw [if_neg hk]
  · intro c'
    show g.nextProposalId ∈ ((g.proposalsByChain.insert c _).find? c').getD [] ↔ c = c'
    rw [hlisted c']
    by_cases hc : c' = c
    · simp [hc]
    · simp [hc, hnoList c', Ne.symm hc]
  · intro c' i hi
    show i ∈ ((g.proposalsByChain.insert c _).find? c').getD [] ↔ _
    rw [hlisted c']
    by_cases hc : c' = c
    · simp [hc, hi]
    · simp [hc]
  · intro c'
    show (((g.proposalsByChain.insert c _).find? c').getD []).Nodup
    rw [hlisted c']
    split
    · apply List.Nodup.append (hg.once c) (List.nodup_singleton _)
      intro i hi hlast
      obtain rfl : i = g.nextProposalId := by simpa using hlast
      exact hnoList c hi
    · exact hg.once c'

/-! ## Expiring -/

/-- What an expiry does to one proposal. -/
def expire (b : Nat) (p : Proposal) : Proposal :=
  if isStale b p then { p with status := .expired } else p

theorem expire_frame (b : Nat) (p : Proposal) :
    (expire b p).chainId = p.chainId ∧ (expire b p).proposalType = p.proposalType := by
  unfold expire
  split <;> exact ⟨rfl, rfl⟩

theorem tallied_expire (b : Nat) (p : Proposal) (h : p.Tallied) : (expire b p).Tallied := by
  unfold expire
  split
  · exact Proposal.tallied_congr p _ rfl rfl rfl rfl h
  · exact h

theorem started_of_stale (b : Nat) (p : Proposal) (h : isStale b p = true) : p.status.inProgress = true := by
  unfold isStale at h
  simp only [Bool.and_eq_true, decide_eq_true_eq] at h
  rw [h.1]
  rfl

theorem inProgress_expire (b : Nat) (p : Proposal) :
    (expire b p).status.inProgress = true ↔ p.status.inProgress = true ∧ isStale b p = false := by
  unfold expire
  split
  · next h => simp [h, ProposalStatus.inProgress]
  · next h => simp [h]

/-- One round of the second loop of an expiry. -/
def freeExpired (g : GovernanceContract) (id : Nat) : GovernanceContract :=
  match g.proposals.find? id with
  | some p => { g with activeExitProposals := g.freeExit p }
  | none => g

theorem expireStaleProposals_eq (g : GovernanceContract) (b : Nat) :
    (g.expireStaleProposals b).1 =
      ((g.proposals.filter fun _ p => isStale b p).keys).foldl freeExpired
        { g with proposals := g.proposals.map fun _ p => expire b p } :=
  rfl

/-- The second loop takes the given proposals out of the slots and changes nothing else. -/
theorem Books.freeExpired_foldl {g : GovernanceContract} (h : g.Books) (b : Nat) (ids : List Nat)
    (s : GovernanceContract) (hprops : s.proposals = g.proposals.map fun _ p => expire b p)
    (hslots : ∀ c i, s.activeExitProposals.find? c = some i → g.activeExitProposals.find? c = some i)
    (hids : ∀ id ∈ ids, ∃ p, g.proposals.find? id = some p ∧ p.status.inProgress = true) :
    ∃ slots, ids.foldl freeExpired s = { s with activeExitProposals := slots } ∧
      ∀ c i, slots.find? c = some i ↔ s.activeExitProposals.find? c = some i ∧ i ∉ ids := by
  induction ids generalizing s with
  | nil => exact ⟨s.activeExitProposals, rfl, by simp⟩
  | cons id ids ih =>
    obtain ⟨p, hf, hstarted⟩ := hids id List.mem_cons_self
    obtain ⟨hchain, hkind⟩ := expire_frame b p
    have hfree := h.find?_freeExit s id p (expire b p) hslots hf hstarted hchain hkind
    have hstep : freeExpired s id = { s with activeExitProposals := s.freeExit (expire b p) } := by
      unfold freeExpired
      rw [hprops, SortedMap.find?_map, hf]
      rfl
    obtain ⟨slots, heq, hslots'⟩ := ih { s with activeExitProposals := s.freeExit (expire b p) } hprops
      (fun c i hc => hslots c i ((hfree c i).mp hc).1) (fun i hi => hids i (List.mem_cons_of_mem _ hi))
    refine ⟨slots, ?_, ?_⟩
    · rw [List.foldl_cons, hstep, heq]
    · intro c i
      rw [hslots' c i, hfree c i, List.mem_cons, not_or, and_assoc]

theorem Books.expireStaleProposals {g : GovernanceContract} (h : g.Books) (b : Nat) :
    (g.expireStaleProposals b).1.Books := by
  rw [expireStaleProposals_eq]
  have hids : ∀ id ∈ (g.proposals.filter fun _ p => isStale b p).keys,
      ∃ p, g.proposals.find? id = some p ∧ p.status.inProgress = true := by
    intro id hid
    obtain ⟨p, hp, hstale⟩ := (SortedMap.mem_keys_filter_iff _ _ _).mp hid
    exact ⟨p, hp, started_of_stale b p hstale⟩
  obtain ⟨slots, heq, hslots⟩ := h.freeExpired_foldl b _
    { g with proposals := g.proposals.map fun _ p => expire b p } rfl (fun _ _ hc => hc) hids
  rw [heq]
  have hfind : ∀ i r, (g.proposals.map fun _ p => expire b p).find? i = some r →
      ∃ p, g.proposals.find? i = some p ∧ expire b p = r := by
    intro i r hr
    rw [SortedMap.find?_map] at hr
    exact Option.map_eq_some_iff.mp hr
  constructor
  · exact h.powers
  · intro i r hr
    obtain ⟨p, hp, rfl⟩ := hfind i r hr
    exact tallied_expire b p (h.tallied i p hp)
  · intro c i
    show slots.find? c = some i ↔ ∃ r, (g.proposals.map fun _ p => expire b p).find? i = some r ∧ r.HoldsExit c
    rw [hslots c i]
    constructor
    · rintro ⟨hslot, hnot⟩
      obtain ⟨p, hp, hc, hk, hs⟩ := (h.exits c i).mp hslot
      have hfresh : isStale b p = false := by
        by_contra hstale
        exact hnot ((SortedMap.mem_keys_filter_iff _ _ _).mpr ⟨p, hp, by simpa using hstale⟩)
      obtain ⟨hchain, hkind⟩ := expire_frame b p
      refine ⟨expire b p, ?_, hchain.trans hc, hkind ▸ hk, (inProgress_expire b p).mpr ⟨hs, hfresh⟩⟩
      rw [SortedMap.find?_map, hp]
      rfl
    · rintro ⟨r, hr, hc, hk, hs⟩
      obtain ⟨p, hp, rfl⟩ := hfind i r hr
      obtain ⟨hchain, hkind⟩ := expire_frame b p
      obtain ⟨hstarted, hfresh⟩ := (inProgress_expire b p).mp hs
      refine ⟨(h.exits c i).mpr ⟨p, hp, hchain ▸ hc, hkind ▸ hk, hstarted⟩, ?_⟩
      intro hmem
      obtain ⟨p', hp', hstale⟩ := (SortedMap.mem_keys_filter_iff _ _ _).mp hmem
      rw [hp] at hp'
      obtain rfl := Option.some.inj hp'
      rw [hfresh] at hstale
      cases hstale
  · intro c i
    show i ∈ g.listed c ↔ ∃ r, (g.proposals.map fun _ p => expire b p).find? i = some r ∧ r.chainId = c
    rw [h.index c i]
    constructor
    · rintro ⟨p, hp, hc⟩
      refine ⟨expire b p, ?_, (expire_frame b p).1.trans hc⟩
      rw [SortedMap.find?_map, hp]
      rfl
    · rintro ⟨r, hr, hc⟩
      obtain ⟨p, hp, rfl⟩ := hfind i r hr
      exact ⟨p, hp, (expire_frame b p).1.symm.trans hc⟩
  · exact h.once
  · intro i r hr
    obtain ⟨p, hp, -⟩ := hfind i r hr
    exact h.fresh i p hp

/-! ## Dropping -/

theorem find?_dropProposal (g : GovernanceContract) (id i : Nat) (p : Proposal)
    (h : (g.dropProposal id).proposals.find? i = some p) : i ≠ id ∧ g.proposals.find? i = some p := by
  unfold dropProposal at h
  cases hf : g.proposals.find? id with
  | none =>
    simp only [hf] at h
    refine ⟨?_, h⟩
    rintro rfl
    rw [h] at hf
    cases hf
  | some q =>
    simp only [hf] at h
    rw [SortedMap.find?_erase] at h
    by_cases hi : i = id
    · rw [if_pos hi] at h
      cases h
    · rw [if_neg hi] at h
      exact ⟨hi, h⟩

theorem listed_dropProposal (g : GovernanceContract) (id : Nat) (p : Proposal) (c : ChainId)
    (hf : g.proposals.find? id = some p) :
    (g.dropProposal id).listed c =
      if c = p.chainId then (g.listed c).filter fun i => decide (i ≠ id) else g.listed c := by
  unfold dropProposal listed
  simp only [hf]
  by_cases hc : c = p.chainId
  · rw [if_pos hc, hc]
    cases hl : g.proposalsByChain.find? p.chainId with
    | none => simp [hl]
    | some ids => simp
  · rw [if_neg hc]
    cases hl : g.proposalsByChain.find? p.chainId with
    | none => rfl
    | some ids => simp only [SortedMap.find?_insert_ne _ _ _ _ hc]

/-- Dropping a closed proposal. -/
theorem Books.dropProposal {g : GovernanceContract} (h : g.Books) (id : Nat)
    (hclosed : ∀ p, g.proposals.find? id = some p → p.status.inProgress = false) :
    (g.dropProposal id).Books := by
  cases hf : g.proposals.find? id with
  | none =>
    have hsame : g.dropProposal id = g := by
      unfold GovernanceContract.dropProposal
      rw [hf]
    rw [hsame]
    exact h
  | some p =>
    have hprops : (g.dropProposal id).proposals = g.proposals.erase id := by
      unfold GovernanceContract.dropProposal
      rw [hf]
    have hrest : (g.dropProposal id).activeExitProposals = g.activeExitProposals ∧
        (g.dropProposal id).votingPower = g.votingPower ∧
        (g.dropProposal id).totalVotingPower = g.totalVotingPower ∧
        (g.dropProposal id).nextProposalId = g.nextProposalId := by
      unfold GovernanceContract.dropProposal
      rw [hf]
      exact ⟨rfl, rfl, rfl, rfl⟩
    obtain ⟨hslots, hpow, htotal, hnext⟩ := hrest
    constructor
    · intro c
      unfold getTotalVotingPower powerSum
      rw [htotal, hpow]
      exact h.powers c
    · intro i r hr
      exact h.tallied i r (find?_dropProposal g id i r hr).2
    · intro c i
      rw [hslots, hprops, SortedMap.find?_erase, h.exits c i]
      by_cases hi : i = id
      · rw [if_pos hi, hi]
        constructor
        · rintro ⟨r, hr, hold⟩
          have hprog := hold.2.2
          rw [hclosed r hr] at hprog
          cases hprog
        · rintro ⟨r, hr, -⟩
          cases hr
      · rw [if_neg hi]
    · intro c i
      rw [listed_dropProposal g id p c hf, hprops, SortedMap.find?_erase]
      by_cases hi : i = id
      · rw [if_pos hi, hi]
        constructor
        · intro hmem
          split at hmem
          · simp at hmem
          · next hc =>
            obtain ⟨r, hr, hchain⟩ := (h.index c id).mp hmem
            rw [hf] at hr
            obtain rfl := Option.some.inj hr
            exact absurd hchain.symm hc
        · rintro ⟨r, hr, -⟩
          cases hr
      · rw [if_neg hi, ← h.index c i]
        split <;> simp [hi]
    · intro c
      rw [listed_dropProposal g id p c hf]
      split
      · exact (h.once c).filter _
      · exact h.once c
    · intro i r hr
      rw [hnext]
      exact h.fresh i r (find?_dropProposal g id i r hr).2

theorem Books.dropProposal_foldl {g : GovernanceContract} (h : g.Books) (ids : List Nat)
    (hclosed : ∀ id ∈ ids, ∀ p, g.proposals.find? id = some p → p.status.inProgress = false) :
    (ids.foldl GovernanceContract.dropProposal g).Books := by
  induction ids generalizing g with
  | nil => exact h
  | cons id ids ih =>
    apply ih (h.dropProposal id (hclosed id List.mem_cons_self))
    intro i hi p hp
    exact hclosed i (List.mem_cons_of_mem _ hi) p (find?_dropProposal g id i p hp).2

theorem Books.cleanupOldProposals {g : GovernanceContract} (h : g.Books) (b maxAge : Nat) :
    (g.cleanupOldProposals b maxAge).Books := by
  apply h.dropProposal_foldl
  intro id hid p hp
  obtain ⟨p', hp', hold⟩ := (SortedMap.mem_keys_filter_iff _ _ _).mp hid
  rw [hp] at hp'
  obtain rfl := Option.some.inj hp'
  unfold isOld at hold
  simp only [Bool.and_eq_true, Bool.not_eq_true'] at hold
  exact hold.1

/-! ## Runs -/

/-- The call's own sum stays below the largest balance. -/
def fits (g : GovernanceContract) : GovOp → Bool
  | .setVotingPower chainId account power =>
    decide ((g.getTotalVotingPower chainId).val - (g.getVotingPower chainId account).val + power.val < 2 ^ 128)
  | .vote proposalId voter vote currentBlock =>
    (g.proposals.find? proposalId).all fun p =>
      !p.isVotingOpen currentBlock || p.hasVoted voter ||
        decide ((p.votesFor vote).val + (g.getVotingPower p.chainId voter).val < 2 ^ 128)
  | _ => true

theorem Books.vote {g t : GovernanceContract} (h : g.Books) (id : Nat) (voter : AccountId) (v : Vote) (b : Nat)
    (hfits : g.fits (.vote id voter v b) = true) (hok : g.vote id voter v b = .ok t) : t.Books := by
  obtain ⟨p, hopen, hnew, hm⟩ := vote_moved g t id voter v b hok
  apply h.moved hm
  intro hp
  apply Proposal.tallied_record p _ hp hnew
  simpa [fits, hm.found, hopen, hnew] using hfits

theorem apply_books (g : GovernanceContract) (op : GovOp) (h : g.Books) (hfits : g.fits op = true) :
    (g.apply op).Books := by
  cases op with
  | setVotingPower c a power => exact h.setVotingPower c a power (by simpa [fits] using hfits)
  | addDispute c => exact ⟨h.powers, h.tallied, h.exits, h.index, h.once, h.fresh⟩
  | removeDispute c => exact ⟨h.powers, h.tallied, h.exits, h.index, h.once, h.fresh⟩
  | createProposal c proposer k description b =>
    apply Except.orKeep_map_of Books _ g h
    intro t id ht
    exact h.createProposal c proposer k description b id ht
  | vote id voter v b =>
    apply Except.orKeep_of Books _ g h
    intro t ht
    exact h.vote id voter v b hfits ht
  | finalizeVoting id b =>
    apply Except.orKeep_map_of Books _ g h
    intro t status ht
    obtain ⟨p, -, -, ⟨-, hm⟩ | hm⟩ := finalizeVoting_moved g t id b status ht
    · exact h.moved hm (Proposal.tallied_congr p _ rfl rfl rfl rfl)
    · exact h.moved hm (Proposal.tallied_congr p _ rfl rfl rfl rfl)
  | checkExecutionReady id b =>
    apply Except.orKeep_map_of Books _ g h
    intro t ready ht
    obtain rfl | ⟨p, e, -, -, -, hm⟩ := checkExecutionReady_moved g t id b ready ht
    · exact h
    · exact h.moved hm (Proposal.tallied_congr p _ rfl rfl rfl rfl)
  | markExecuted id b =>
    apply Except.orKeep_of Books _ g h
    intro t ht
    obtain ⟨p, -, hm⟩ := markExecuted_moved g t id b ht
    exact h.moved hm (Proposal.tallied_congr p _ rfl rfl rfl rfl)
  | cancelProposal id caller b =>
    apply Except.orKeep_of Books _ g h
    intro t ht
    obtain ⟨p, -, hm⟩ := cancelProposal_moved g t id caller b ht
    exact h.moved hm (Proposal.tallied_congr p _ rfl rfl rfl rfl)
  | expireStaleProposals b => exact h.expireStaleProposals b
  | cleanupOldProposals b maxAge => exact h.cleanupOldProposals b maxAge

theorem run_books (ops : List GovOp) (h : Run.Meets apply (fun g op => g.fits op = true) new ops) :
    (ops.foldl apply new).Books :=
  Run.inv_foldl apply _ Books apply_books new ops new_books h

/-- Without overflow, in every reachable contract: the total power of a chain is the
sum of its accounts' powers; the totals of a proposal are those of its records, with
no voter twice; a chain's exit slot names the one exit proposal in progress; and the
index lists the stored proposals of each chain once each. -/
theorem reachable_bookkeeping (ops : List GovOp)
    (h : Run.Meets apply (fun g op => g.fits op = true) new ops) :
    let g := ops.foldl apply new
    (∀ c, (g.getTotalVotingPower c).val = g.powerSum c) ∧
    (∀ id p, g.proposals.find? id = some p →
      p.yesVotes.val = p.weightOf .yes ∧ p.noVotes.val = p.weightOf .no ∧
        p.abstainVotes.val = p.weightOf .abstain ∧ (p.votes.map VoteRecord.voter).Nodup) ∧
    (∀ c id, g.activeExitProposals.find? c = some id ↔
      ∃ p, g.proposals.find? id = some p ∧ p.chainId = c ∧ p.proposalType.isExitProposal = true ∧
        p.status ∈ [.active, .passed, .readyToExecute]) ∧
    (∀ c i j p q, g.proposals.find? i = some p → g.proposals.find? j = some q →
      p.HoldsExit c → q.HoldsExit c → i = j) ∧
    ∀ c, (g.listed c).Nodup ∧
      ∀ id, id ∈ g.listed c ↔ ∃ p, g.proposals.find? id = some p ∧ p.chainId = c := by
  intro g
  have hb : g.Books := run_books ops h
  refine ⟨hb.powers, ?_, ?_, hb.exit_unique, fun c => ⟨hb.once c, hb.index c⟩⟩
  · intro id p hp
    have ht := hb.tallied id p hp
    exact ⟨ht.totals .yes, ht.totals .no, ht.totals .abstain, ht.voters⟩
  · intro c id
    have hstatus : ∀ s : ProposalStatus, s.inProgress = true ↔ s ∈ [.active, .passed, .readyToExecute] := by
      intro s
      cases s <;> decide
    rw [hb.exits c id]
    simp only [Proposal.HoldsExit, hstatus]

/-- A power, an exit, a vote and the count. -/
def sampleExit : List GovOp :=
  [.setVotingPower ⟨7⟩ ⟨1⟩ 10, .createProposal ⟨7⟩ ⟨1⟩ .exitDissolve none 5, .vote 1 ⟨1⟩ .yes 6,
    .finalizeVoting 1 (6 + votingPeriod)]

theorem reachable_bookkeeping_exit :
    Run.Meets apply (fun g op => g.fits op = true) new sampleExit ∧
      (sampleExit.foldl apply new).activeExitProposals.find? ⟨7⟩ = some 1 ∧
      ((sampleExit.foldl apply new).getTotalVotingPower ⟨7⟩).val =
        (sampleExit.foldl apply new).powerSum ⟨7⟩ := by
  have hm : Run.Meets apply (fun g op => g.fits op = true) new sampleExit := by decide
  exact ⟨hm, by decide, (reachable_bookkeeping sampleExit hm).1 ⟨7⟩⟩

end GovernanceContract

end Kratos
