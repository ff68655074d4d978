import Kratos.Contracts.GovernanceBooks

/-!
# Executed decisions

The law of an executed proposal spans its whole life: the count is made when it is
finalized, the timelock when it is declared ready, the dispute when it is created.
`Change` lists what one call can do to one proposal; by induction over the run a
proposal that is ready was finalized by an earlier call with the votes it still has
(`decided_of_passed`) and its timelock was seen to be over (`timelock_over`).

Three things are never checked when a proposal is executed: the end of the grace
period, a dispute marked after the creation, and whether the votes were counted at
the last block of the vote, at which one more vote was still accepted.
`legitimate_iff` says that these are all.
-/

namespace Kratos

namespace Proposal

/-- A passed proposal, without rounding and overflow. -/
theorem counts_of_passed (p : Proposal) (total : Balance) (h : p.passed total = true) :
    minQuorumPercent * total.val ≤ 100 * (p.yesVotes.val + p.noVotes.val + p.abstainVotes.val) ∧
      p.proposalType.requiredThreshold * (p.yesVotes.val + p.noVotes.val) ≤ 100 * p.yesVotes.val := by
  unfold passed at h
  simp only [Bool.and_eq_true, decide_eq_true_eq] at h
  obtain ⟨hq, ha⟩ := h
  constructor
  · unfold quorumReached at hq
    by_cases hz : total = 0
    · rw [hz]
      show _ * 0 ≤ _
      omega
    · rw [if_neg hz] at hq
      have hle := of_decide_eq_true hq
      have hpos : 0 < total.val := by
        have : total.val ≠ 0 := fun h0 => hz (Fin.ext h0)
        omega
      have hmul := (Nat.le_div_iff_mul_le hpos).mp hle
      -- the sum of the totals can only have wrapped downwards
      have hwrap : p.totalVotes.val ≤ p.yesVotes.val + p.noVotes.val + p.abstainVotes.val := by
        unfold totalVotes
        rw [Fin.val_add, Fin.val_add]
        have h1 := Nat.mod_le ((p.yesVotes.val + p.noVotes.val) % 2 ^ 128 + p.abstainVotes.val) (2 ^ 128)
        have h2 := Nat.mod_le (p.yesVotes.val + p.noVotes.val) (2 ^ 128)
        omega
      omega
  · unfold approvalPercentage at ha
    have hreq : 51 ≤ p.proposalType.requiredThreshold := by
      unfold ProposalType.requiredThreshold
      split <;> decide
    by_cases hz : Word.satAdd p.yesVotes p.noVotes = 0
    · simp only [hz, if_true] at ha
      omega
    · simp only [hz, if_false] at ha
      have hval : (Word.satAdd p.yesVotes p.noVotes).val =
          min (p.yesVotes.val + p.noVotes.val) (2 ^ 128 - 1) := rfl
      have hpos : 0 < (Word.satAdd p.yesVotes p.noVotes).val := by
        have : (Word.satAdd p.yesVotes p.noVotes).val ≠ 0 := fun h0 => hz (Fin.ext h0)
        omega
      have hmul := (Nat.le_div_iff_mul_le hpos).mp (Nat.le_trans ha (Nat.mod_le _ _))
      rw [hval] at hmul
      have hy := p.yesVotes.isLt
      -- a saturated sum would need more than all of it
      by_cases hsat : p.yesVotes.val + p.noVotes.val ≤ 2 ^ 128 - 1
      · rw [Nat.min_eq_left hsat] at hmul
        omega
      · rw [Nat.min_eq_right (by omega)] at hmul
        have h51 : 51 * (2 ^ 128 - 1) ≤ p.proposalType.requiredThreshold * (2 ^ 128 - 1) :=
          Nat.mul_le_mul_right _ hreq
        omega

end Proposal

/-- The block a call is made at. -/
def GovOp.block : GovOp → Option Nat
  | .setVotingPower .. | .addDispute _ | .removeDispute _ => none
  | .createProposal _ _ _ _ currentBlock | .vote _ _ _ currentBlock | .finalizeVoting _ currentBlock
  | .checkExecutionReady _ currentBlock | .markExecuted _ currentBlock | .cancelProposal _ _ currentBlock
  | .expireStaleProposals currentBlock | .cleanupOldProposals currentBlock _ => some currentBlock

namespace GovernanceContract

/-! ## What a call can do to a proposal -/

/-- The stored proposal `q` after a call, from what was stored before. -/
inductive Change (g : GovernanceContract) (id : Nat) : GovOp → Proposal → Prop
  | kept {op : GovOp} {q : Proposal} : g.proposals.find? id = some q → Change g id op q
  | opened {op : GovOp} {q : Proposal} : q.status = .active → Change g id op q
  | passed {b : Nat} {p : Proposal} : g.proposals.find? id = some p → p.status = .active →
      p.votingEndsAt ≤ b → p.passed (g.getTotalVotingPower p.chainId) = true →
      Change g id (.finalizeVoting id b)
        { p with status := .passed, timelockEndsAt := some (b + p.proposalType.timelockPeriod) }
  | readied {b e : Nat} {p : Proposal} : g.proposals.find? id = some p → p.status = .passed →
      p.timelockEndsAt = some e → e ≤ b →
      Change g id (.checkExecutionReady id b) { p with status := .readyToExecute }
  | executed {b : Nat} {p : Proposal} : g.proposals.find? id = some p → p.status = .readyToExecute →
      Change g id (.markExecuted id b) { p with status := .executed, executedAt := some b }
  | ended {op : GovOp} {q : Proposal} : q.status = .rejected ∨ q.status = .cancelled ∨ q.status = .expired →
      Change g id op q

theorem Moved.change {g t : GovernanceContract} {i id : Nat} {p q r : Proposal} {op : GovOp}
    (hm : Moved g t i p q) (hr : t.proposals.find? id = some r) (hself : i = id → Change g id op q) :
    Change g id op r := by
  obtain ⟨-, -, -, -, rfl⟩ := hm
  have hr : (g.proposals.insert i q).find? id = some r := hr
  rw [SortedMap.find?_insert] at hr
  by_cases hi : id = i
  · rw [if_pos hi] at hr
    obtain rfl := Option.some.inj hr
    exact hself hi.symm
  · rw [if_neg hi] at hr
    exact .kept hr

theorem proposals_freeExpired (ids : List Nat) (s : GovernanceContract) :
    (ids.foldl freeExpired s).proposals = s.proposals := by
  induction ids generalizing s with
  | nil => rfl
  | cons id ids ih =>
    rw [List.foldl_cons, ih]
    unfold freeExpired
    split <;> rfl

theorem find?_dropProposal_foldl (ids : List Nat) (g : GovernanceContract) (id : Nat) (p : Proposal)
    (h : (ids.foldl dropProposal g).proposals.find? id = some p) : g.proposals.find? id = some p := by
  induction ids generalizing g with
  | nil => exact h
  | cons i ids ih => exact (find?_dropProposal g i id p (ih _ h)).2

/-- **Step lemma.** -/
theorem apply_change (g : GovernanceContract) (op : GovOp) (id : Nat) (q : Proposal)
    (h : (g.apply op).proposals.find? id = some q) : Change g id op q := by
  revert h
  cases op with
  | setVotingPower c a power => exact fun h => .kept h
  | addDispute c => exact fun h => .kept h
  | removeDispute c => exact fun h => .kept h
  | createProposal c proposer k description b =>
    apply Except.orKeep_map_of (fun t => t.proposals.find? id = some q → Change g id _ q) _ g .kept
    intro t i ht h
    obtain ⟨-, rfl⟩ := createProposal_ok g t c proposer k description b i ht
    rw [SortedMap.find?_insert] at h
    split at h
    · obtain rfl := Option.some.inj h
      exact .opened rfl
    · exact .kept h
  | vote i voter v b =>
    apply Except.orKeep_of (fun t => t.proposals.find? id = some q → Change g id _ q) _ g .kept
    intro t ht h
    obtain ⟨p, hopen, -, hm⟩ := vote_moved g t i voter v b ht
    apply hm.change h
    intro _
    apply Change.opened
    rw [(record_frame p _).2.2.1]
    exact inProgress_of_open p b hopen
  | finalizeVoting i b =>
    apply Except.orKeep_map_of (fun t => t.proposals.find? id = some q → Change g id _ q) _ g .kept
    intro t status ht h
    obtain ⟨p, hactive, hend, ⟨hpassed, hm⟩ | hm⟩ := finalizeVoting_moved g t i b status ht
    · apply hm.change h
      rintro rfl
      exact .passed hm.found hactive hend hpassed
    · apply hm.change h
      intro _
      exact .ended (.inl rfl)
  | checkExecutionReady i b =>
    apply Except.orKeep_map_of (fun t => t.proposals.find? id = some q → Change g id _ q) _ g .kept
    intro t ready ht h
    obtain rfl | ⟨p, e, hpassed, he, hle, hm⟩ := checkExecutionReady_moved g t i b ready ht
    · exact .kept h
    · apply hm.change h
      rintro rfl
      exact .readied hm.found hpassed he hle
  | markExecuted i b =>
    apply Except.orKeep_of (fun t => t.proposals.find? id = some q → Change g id _ q) _ g .kept
    intro t ht h
    obtain ⟨p, hready, hm⟩ := markExecuted_moved g t i b ht
    apply hm.change h
    rintro rfl
    exact .executed hm.found hready
  | cancelProposal i caller b =>
    apply Except.orKeep_of (fun t => t.proposals.find? id = some q → Change g id _ q) _ g .kept
    intro t ht h
    obtain ⟨p, -, hm⟩ := cancelProposal_moved g t i caller b ht
    apply hm.change h
    intro _
    exact .ended (.inr (.inl rfl))
  | expireStaleProposals b =>
    intro h
    have h : (g.expireStaleProposals b).1.proposals.find? id = some q := h
    rw [expireStaleProposals_eq, proposals_freeExpired, SortedMap.find?_map] at h
    obtain ⟨p, hp, rfl⟩ := Option.map_eq_some_iff.mp h
    unfold expire
    split
    · exact .ended (.inr (.inr rfl))
    · exact .kept hp
  | cleanupOldProposals b maxAge =>
    intro h
    exact .kept (find?_dropProposal_foldl _ g id q h)

/-! ## History of a proposal -/

/-- The contract after a run of calls. -/
def after (ops : List GovOp) : GovernanceContract := ops.foldl apply new

theorem after_snoc (ops : List GovOp) (op : GovOp) : after (ops ++ [op]) = (after ops).apply op := by
  unfold after
  rw [List.foldl_append]
  rfl

/-- `q` is the proposal `p` that a call of the run finalized with success, at block
`f` in the contract after `hist`. -/
structure Decided (ops hist : List GovOp) (id f : Nat) (p q : Proposal) : Prop where
  made : ∃ rest, ops = hist ++ .finalizeVoting id f :: rest
  found : (after hist).proposals.find? id = some p
  active : p.status = .active
  ended : p.votingEndsAt ≤ f
  passed : p.passed ((after hist).getTotalVotingPower p.chainId) = true
  result : q = { p with
    status := q.status, timelockEndsAt := some (f + p.proposalType.timelockPeriod) }

theorem Decided.snoc {ops hist : List GovOp} {id f : Nat} {p q : Proposal} (h : Decided ops hist id f p q)
    (op : GovOp) : Decided (ops ++ [op]) hist id f p q where
  made := by
    obtain ⟨rest, hrest⟩ := h.made
    exact ⟨rest ++ [op], by rw [hrest, List.append_assoc, List.cons_append]⟩
  found := h.found
  active := h.active
  ended := h.ended
  passed := h.passed
  result := h.result

theorem decided_of_passed (ops : List GovOp) (id : Nat) (q : Proposal)
    (hq : (after ops).proposals.find? id = some q) (hs : q.status = .passed ∨ q.status = .readyToExecute) :
    ∃ hist f p, Decided ops hist id f p q := by
  induction ops using List.reverseRecOn generalizing q with
  | nil => cases hq
  | append_singleton ops op ih =>
    rw [after_snoc] at hq
    cases apply_change (after ops) op id q hq with
    | kept hf =>
      obtain ⟨hist, f, p, hd⟩ := ih q hf hs
      exact ⟨hist, f, p, hd.snoc op⟩
    | opened ho => rw [ho] at hs; simp at hs
    | passed hf hactive hend hpassed => exact ⟨ops, _, _, ⟨[], rfl⟩, hf, hactive, hend, hpassed, rfl⟩
    | @readied b e p hf hpassed he hle =>
      -- only the status is new
      obtain ⟨hist, f, p₁, hd⟩ := ih _ hf (.inl hpassed)
      have hd := hd.snoc (.checkExecutionReady id b)
      refine ⟨hist, f, p₁, hd.made, hd.found, hd.active, hd.ended, hd.passed, ?_⟩
      rw [hd.result]
    | executed hf hready => simp at hs
    | ended he => rcases he with he | he | he <;> rw [he] at hs <;> simp at hs

theorem timelock_over (ops : List GovOp) (id : Nat) (q : Proposal)
    (hq : (after ops).proposals.find? id = some q) (hs : q.status = .readyToExecute) :
    ∃ e, q.timelockEndsAt = some e ∧ ∃ b ∈ ops.filterMap GovOp.block, e ≤ b := by
  induction ops using List.reverseRecOn generalizing q with
  | nil => cases hq
  | append_singleton ops op ih =>
    rw [after_snoc] at hq
    rw [List.filterMap_append]
    cases apply_change (after ops) op id q hq with
    | kept hf =>
      obtain ⟨e, he, b, hb, hle⟩ := ih q hf hs
      exact ⟨e, he, b, List.mem_append_left _ hb, hle⟩
    | opened ho => rw [ho] at hs; cases hs
    | passed hf hactive hend hpassed => cases hs
    | @readied b e p hf hpassed he hle =>
      exact ⟨e, he, b, List.mem_append_right _ (by simp [GovOp.block]), hle⟩
    | executed hf hready => cases hs
    | ended he => rcases he with he | he | he <;> rw [he] at hs <;> cases hs

/-! ## Legitimate executions -/

/-- The call makes the proposal an executed one. -/
def Executes (g : GovernanceContract) (op : GovOp) (id : Nat) : Prop :=
  (g.proposals.find? id).map Proposal.status ≠ some .executed ∧
    ((g.apply op).proposals.find? id).map Proposal.status = some .executed

/-- The law of a proposal that is executed at block `b` after the calls `ops`: `p` is
what was stored when it was finalized at block `f`, after `hist`; `q` is what is stored
now, with its timelock over at `e`. -/
structure Legitimate (ops hist : List GovOp) (id f b e : Nat) (p q : Proposal) : Prop where
  finalized : ∃ rest, ops = hist ++ .finalizeVoting id f :: rest
  storedThen : (after hist).proposals.find? id = some p
  storedNow : (after ops).proposals.find? id = some q
  same : p.status = .active ∧ q = { p with
    status := .readyToExecute, timelockEndsAt := some (f + p.proposalType.timelockPeriod) }
  participation : minQuorumPercent * ((after hist).getTotalVotingPower p.chainId).val ≤
    100 * (p.yesVotes.val + p.noVotes.val + p.abstainVotes.val)
  approval : p.proposalType.requiredThreshold * (p.yesVotes.val + p.noVotes.val) ≤ 100 * p.yesVotes.val
  closed : p.isVotingOpen f = false
  timelock : q.timelockEndsAt = some e ∧ e ≤ b ∧ b < e + gracePeriod
  undisputed : q.proposalType.isExitProposal = true → (after ops).hasDispute q.chainId = false

/-- Every proposal that a run executes. -/
def AllLegitimate (ops : List GovOp) : Prop :=
  ∀ pre op post id, ops = pre ++ op :: post → Executes (after pre) op id →
    ∃ hist f b e p q, op.block = some b ∧ Legitimate pre hist id f b e p q

/-- What the execution of a ready proposal leaves unchecked: it was not finalized at the
last block of the vote, the grace period is not over, and an exit is not disputed. -/
def proper (g : GovernanceContract) : GovOp → Bool
  | .markExecuted proposalId currentBlock =>
    (g.proposals.find? proposalId).all fun p =>
      decide (p.status ≠ .readyToExecute) ||
        (decide (p.timelockEndsAt ≠ some (p.votingEndsAt + p.proposalType.timelockPeriod)) &&
          p.timelockEndsAt.all (fun timelockEnd => decide (currentBlock < timelockEnd + gracePeriod)) &&
          (!p.proposalType.isExitProposal || !g.hasDispute p.chainId))
  | _ => true

theorem executes_ready (g : GovernanceContract) (op : GovOp) (id : Nat) (h : Executes g op id) :
    ∃ b p, op = .markExecuted id b ∧ g.proposals.find? id = some p ∧ p.status = .readyToExecute := by
  obtain ⟨hbefore, hafter⟩ := h
  obtain ⟨q, hq, hs⟩ := Option.map_eq_some_iff.mp hafter
  cases apply_change g op id q hq with
  | kept hf =>
    rw [hf, Option.map_some, hs] at hbefore
    exact absurd rfl hbefore
  | opened ho => rw [ho] at hs; cases hs
  | passed hf hactive hend hpassed => cases hs
  | readied hf hpassed he hle => cases hs
  | @executed b p hf hready => exact ⟨b, p, rfl, hf, hready⟩
  | ended he => rcases he with he | he | he <;> rw [he] at hs <;> cases hs

theorem ready_executes (g : GovernanceContract) (id b : Nat) (p : Proposal)
    (hf : g.proposals.find? id = some p) (hs : p.status = .readyToExecute) :
    Executes g (.markExecuted id b) id := by
  constructor
  · rw [hf, Option.map_some, hs]
    simp
  · have hok : (g.apply (.markExecuted id b)).proposals = g.proposals.insert id
        { p with status := .executed, executedAt := some b } := by
      simp only [apply, markExecuted, hf, hs, ne_eq, not_true, if_false]
      rfl
    rw [hok, SortedMap.find?_insert_self]
    rfl

theorem proper_markExecuted (g : GovernanceContract) (id b : Nat) (p : Proposal)
    (hf : g.proposals.find? id = some p) (hs : p.status = .readyToExecute) :
    g.proper (.markExecuted id b) = true ↔
      p.timelockEndsAt ≠ some (p.votingEndsAt + p.proposalType.timelockPeriod) ∧
        (∀ e, p.timelockEndsAt = some e → b < e + gracePeriod) ∧
        (p.proposalType.isExitProposal = true → g.hasDispute p.chainId = false) := by
  have hgrace : p.timelockEndsAt.all (fun e => decide (b < e + gracePeriod)) = true ↔
      ∀ e, p.timelockEndsAt = some e → b < e + gracePeriod := by
    rw [Option.all_eq_true]
    simp only [decide_eq_true_eq]
  have hexit : (!p.proposalType.isExitProposal || !g.hasDispute p.chainId) = true ↔
      (p.proposalType.isExitProposal = true → g.hasDispute p.chainId = false) := by
    cases p.proposalType.isExitProposal <;> simp
  rw [← hgrace, ← hexit]
  simp [proper, hf, hs, and_assoc]

/-- A legitimate execution is a proper one. -/
theorem Legitimate.proper {ops hist : List GovOp} {id f b e : Nat} {p q : Proposal}
    (h : Legitimate ops hist id f b e p q) : (after ops).proper (.markExecuted id b) = true := by
  have hq := h.same.2
  have hready : q.status = .readyToExecute := by rw [hq]
  obtain ⟨he, -, hgrace⟩ := h.timelock
  rw [proper_markExecuted (after ops) id b q h.storedNow hready]
  refine ⟨?_, ?_, h.undisputed⟩
  · -- the vote was closed, so the count was later than its last block
    have hclosed := h.closed
    unfold Proposal.isVotingOpen at hclosed
    simp only [h.same.1, decide_true, Bool.true_and, decide_eq_false_iff_not] at hclosed
    rw [hq]
    intro heq
    have := Option.some.inj heq
    simp only at this
    omega
  · intro e' he'
    rw [he] at he'
    obtain rfl := Option.some.inj he'
    exact hgrace

/-- A proper execution, at a block not before the earlier ones, is legitimate. -/
theorem legitimate_of_proper (ops : List GovOp) (id b : Nat) (q : Proposal)
    (hq : (after ops).proposals.find? id = some q) (hs : q.status = .readyToExecute)
    (hblocks : ∀ a ∈ ops.filterMap GovOp.block, a ≤ b)
    (hp : (after ops).proper (.markExecuted id b) = true) :
    ∃ hist f e p, Legitimate ops hist id f b e p q := by
  obtain ⟨hist, f, p, hd⟩ := decided_of_passed ops id q hq (.inr hs)
  obtain ⟨e, he, a, ha, hea⟩ := timelock_over ops id q hq hs
  have hab := hblocks a ha
  rw [proper_markExecuted (after ops) id b q hq hs] at hp
  obtain ⟨hlate, hgrace, hdispute⟩ := hp
  obtain ⟨hpart, happ⟩ := p.counts_of_passed _ hd.passed
  have hresult := hd.result
  rw [hs] at hresult
  have hclosed : p.isVotingOpen f = false := by
    unfold Proposal.isVotingOpen
    simp only [hd.active, decide_true, Bool.true_and, decide_eq_false_iff_not]
    intro hle
    -- the count was made at the last block of the vote
    have hf : f = p.votingEndsAt := by
      have := hd.ended
      omega
    apply hlate
    rw [hresult, hf]
  exact ⟨hist, f, e, p, hd.made, hd.found, hq, ⟨hd.active, hresult⟩, hpart, happ, hclosed,
    ⟨he, by omega, hgrace e he⟩, hdispute⟩

/-- In a run at blocks that do not decrease, every executed proposal had the required
participation and approval when it was finalized, no vote was accepted any more at
that block, it is executed within the grace period after its timelock and, if it is an
exit, without a dispute of its chain: exactly if every execution of a ready proposal is
`proper`. -/
theorem legitimate_iff (ops : List GovOp) (hblocks : (ops.filterMap GovOp.block).Pairwise (· ≤ ·)) :
    AllLegitimate ops ↔ Run.Meets apply (fun g op => g.proper op = true) new ops := by
  rw [Run.meets_iff_split]
  constructor
  · intro hall pre op post hsplit
    show (after pre).proper op = true
    cases op with
    | markExecuted id b =>
      cases hf : (after pre).proposals.find? id with
      | none => simp [GovernanceContract.proper, hf]
      | some p =>
        by_cases hs : p.status = .readyToExecute
        · obtain ⟨hist, f, b', e, p₁, q, hb, hlegit⟩ :=
            hall pre _ post id hsplit (ready_executes (after pre) id b p hf hs)
          obtain rfl := Option.some.inj hb
          exact hlegit.proper
        · simp [GovernanceContract.proper, hf, hs]
    | _ => rfl
  · intro hmeets pre op post id hsplit hexec
    obtain ⟨b, q, rfl, hq, hs⟩ := executes_ready (after pre) op id hexec
    have hle : ∀ a ∈ pre.filterMap GovOp.block, a ≤ b := by
      rw [hsplit, List.filterMap_append, List.pairwise_append] at hblocks
      intro a ha
      exact hblocks.2.2 a ha b (by simp [GovOp.block])
    obtain ⟨hist, f, e, p, hlegit⟩ := legitimate_of_proper pre id b q hq hs hle (hmeets pre _ post hsplit)
    exact ⟨hist, f, b, e, p, q, rfl, hlegit⟩

theorem not_legitimate (ops : List GovOp) (id b : Nat)
    (hs : ((after ops).proposals.find? id).map Proposal.status = some .readyToExecute)
    (hp : (after ops).proper (GovOp.markExecuted id b) = false) :
    ¬ AllLegitimate (ops ++ [GovOp.markExecuted id b]) := by
  intro hall
  obtain ⟨q, hq, hready⟩ := Option.map_eq_some_iff.mp hs
  obtain ⟨hist, f, b', e, p, q', hb, hlegit⟩ :=
    hall ops _ [] id rfl (ready_executes (after ops) id b q hq hready)
  obtain rfl := Option.some.inj hb
  rw [hlegit.proper] at hp
  cases hp

/-- The block at which the sample exit is ready. -/
def sampleReady : Nat := 6 + votingPeriod + exitTimelock

def sampleExecuted : List GovOp :=
  sampleExit ++ [GovOp.checkExecutionReady 1 sampleReady, GovOp.markExecuted 1 sampleReady]

theorem legitimate_sample :
    (sampleExecuted.filterMap GovOp.block).Pairwise (· ≤ ·) ∧ AllLegitimate sampleExecuted :=
  ⟨by decide, (legitimate_iff sampleExecuted (by decide)).mpr (by decide +kernel)⟩

/-- Executed when the grace period is over. -/
def sampleLate : List GovOp :=
  sampleExit ++ [GovOp.checkExecutionReady 1 sampleReady] ++
    [GovOp.markExecuted 1 (sampleReady + gracePeriod)]

/-- Executed while the chain is in dispute. -/
def sampleDisputed : List GovOp :=
  sampleExit ++ [GovOp.addDispute ⟨7⟩, GovOp.checkExecutionReady 1 sampleReady] ++
    [GovOp.markExecuted 1 sampleReady]

/-- Counted at the last block of the vote. -/
def sampleTie : List GovOp :=
  [GovOp.setVotingPower ⟨7⟩ ⟨1⟩ 10, GovOp.createProposal ⟨7⟩ ⟨1⟩ .exitDissolve none 5,
    GovOp.vote 1 ⟨1⟩ .yes 6, GovOp.finalizeVoting 1 (5 + votingPeriod),
    GovOp.checkExecutionReady 1 (5 + votingPeriod + exitTimelock)] ++
    [GovOp.markExecuted 1 (5 + votingPeriod + exitTimelock)]

theorem executed_out_of_order :
    ((sampleLate.filterMap GovOp.block).Pairwise (· ≤ ·) ∧ ¬ AllLegitimate sampleLate) ∧
      ((sampleDisputed.filterMap GovOp.block).Pairwise (· ≤ ·) ∧ ¬ AllLegitimate sampleDisputed) ∧
      (sampleTie.filterMap GovOp.block).Pairwise (· ≤ ·) ∧ ¬ AllLegitimate sampleTie := by
  refine ⟨⟨by decide, ?_⟩, ⟨by decide, ?_⟩, by decide, ?_⟩
  · exact not_legitimate _ _ _ (by decide +kernel) (by decide +kernel)
  · exact not_legitimate _ _ _ (by decide +kernel) (by decide +kernel)
  · exact not_legitimate _ _ _ (by decide +kernel) (by decide +kernel)

end GovernanceContract

end Kratos
