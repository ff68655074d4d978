import Kratos.Contracts.MetaGovernance

/-!
# The life of an upgrade proposal

`Next` says how one call can change a stored proposal.  Three things the contract
does not check make a run go wrong: a proposal with the proposer, block and
deposit of a stored one replaces it, an upgrade approved before a newer one can
be executed after it, and a cancelled proposal can be cancelled again.  A run in
which none of them happens (`Orderly`) is in order (`upgrades_in_order`).
-/

namespace Kratos

/-- A call that makes a proposal. -/
def MetaOp.proposes : MetaOp → Bool
  | proposeParameterChange .. => true
  | proposeVersionUpgrade .. => true
  | _ => false

namespace MetaGovernanceContract

/-- One call and a stored proposal. -/
inductive Next (id : Hash) (op : MetaOp) (p : UpgradeProposal) : UpgradeProposal → Prop where
  | same : Next id op p p
  | stay (q : UpgradeProposal) (hop : op.proposes = false)
      (hp : p.status = .signaling ∨ p.status = .voting)
      (hq : q.status = .signaling ∨ q.status = .voting ∨ q.status = .rejected) : Next id op p q
  | close (q : UpgradeProposal) (hop : op.proposes = false) (hp : p.status = .voting)
      (hq : q.status = .rejected ∨ q.status = .approved ∧ q.passed = true ∧ q.votingEnded.isSome = true) :
      Next id op p q
  | execute (currentBlock : Nat) (hop : op = .executeProposal id currentBlock)
      (hp : p.status = .approved) : Next id op p { p with status := .executed }
  | cancel (caller : AccountId) (hop : op = .cancelProposal id caller) (hcaller : p.proposer = caller)
      (hp : p.status ≠ .executed) : Next id op p { p with status := .cancelled }

/-- A version upgrade to an older version. -/
def downgrades (parameters : ProtocolParameters) : UpgradeProposalType → Bool
  | .versionUpgrade newVersion _ _ => parameters.version.isNewer newVersion
  | _ => false

/-- The three things that go wrong do not happen in this call. -/
def Orderly (cr : Crypto) (s : MetaGovernanceContract) : MetaOp → Prop
  | .proposeParameterChange proposer changes _ deposit currentBlock =>
    s.powerOf proposer ≠ 0 → changes.length ≤ maxBatchSize →
      ParameterChange.allConstitutional s.parameters changes = true →
        s.proposals.contains (UpgradeProposal.idOf cr proposer deposit currentBlock) = false
  | .proposeVersionUpgrade proposer newVersion _ _ impactAnalysis deposit currentBlock =>
    s.powerOf proposer ≠ 0 → newVersion.isNewer s.parameters.version = true →
      impactAnalysis.isComplete = true →
        s.proposals.contains (UpgradeProposal.idOf cr proposer deposit currentBlock) = false
  | .executeProposal proposalId currentBlock =>
    (s.executable proposalId currentBlock).all (fun p => !downgrades s.parameters p.proposalType) = true
  | .cancelProposal proposalId caller =>
    (s.proposals.find? proposalId).all
      (fun p => decide (p.proposer = caller → p.status ≠ .cancelled)) = true
  | _ => True

instance (cr : Crypto) (s : MetaGovernanceContract) : (op : MetaOp) → Decidable (s.Orderly cr op)
  | .setVotingPower .. => isTrue trivial
  | .registerChain .. => isTrue trivial
  | .proposeParameterChange .. => inferInstanceAs (Decidable (_ → _ → _ → _))
  | .proposeVersionUpgrade .. => inferInstanceAs (Decidable (_ → _ → _ → _))
  | .submitChainSignal .. => isTrue trivial
  | .advanceToVoting .. => isTrue trivial
  | .vote .. => isTrue trivial
  | .finalizeVoting .. => isTrue trivial
  | .executeProposal .. => inferInstanceAs (Decidable (_ = _))
  | .cancelProposal .. => inferInstanceAs (Decidable (_ = _))

/-! ## Stored proposals -/

/-- Stored proposals move as `Next` allows; the others were just made. -/
structure Moves (op : MetaOp) (s t : MetaGovernanceContract) : Prop where
  old : ∀ id p, s.proposals.find? id = some p → ∃ q, t.proposals.find? id = some q ∧ Next id op p q
  fresh : ∀ id q, s.proposals.find? id = none → t.proposals.find? id = some q →
    q.status = .signaling ∨ q.status = .voting

theorem Moves.of_eq (op : MetaOp) (s t : MetaGovernanceContract) (h : t.proposals = s.proposals) :
    Moves op s t where
  old id p hp := ⟨p, by rw [h]; exact hp, .same⟩
  fresh id q hn hq := by
    rw [h, hn] at hq
    cases hq

/-- A new proposal under a free id. -/
theorem Moves.of_store (op : MetaOp) (s : MetaGovernanceContract) (q : UpgradeProposal)
    (h : s.proposals.contains q.id = false) (hs : q.status = .signaling ∨ q.status = .voting) :
    Moves op s (s.store q) := by
  have hfind : ∀ id, (s.store q).proposals.find? id = if id = q.id then some q else s.proposals.find? id := by
    intro id
    show (s.proposals.insert q.id q).find? id = _
    rw [SortedMap.find?_insert]
    split <;> rfl
  constructor
  · intro id p hp
    have hne : id ≠ q.id := by
      rintro rfl
      unfold SortedMap.contains at h
      rw [hp] at h
      cases h
    exact ⟨p, by rw [hfind, if_neg hne]; exact hp, .same⟩
  · intro id r hn hr
    rw [hfind] at hr
    split at hr
    · cases hr
      exact hs
    · rw [hn] at hr
      cases hr

theorem Moves.of_insert (op : MetaOp) (s t : MetaGovernanceContract) (proposalId : Hash)
    (p q : UpgradeProposal) (hp : s.proposals.find? proposalId = some p) (hq : Next proposalId op p q)
    (ht : t.proposals = s.proposals.insert proposalId q) : Moves op s t := by
  constructor
  · intro id r hr
    by_cases hid : id = proposalId
    · rw [hid, hp] at hr
      cases hr
      refine ⟨q, ?_, hid ▸ hq⟩
      rw [ht, hid, SortedMap.find?_insert_self]
    · refine ⟨r, ?_, .same⟩
      rw [ht, SortedMap.find?_insert_ne _ _ _ _ hid]
      exact hr
  · intro id r hn hr
    have hid : id ≠ proposalId := by
      rintro rfl
      rw [hp] at hn
      cases hn
    rw [ht, SortedMap.find?_insert_ne _ _ _ _ hid, hn] at hr
    cases hr

theorem status_new (cr : Crypto) (proposer : AccountId) (t : UpgradeProposalType)
    (impactAnalysis : ImpactAnalysis) (deposit : Balance) (currentBlock : Nat) :
    (UpgradeProposal.new cr proposer t impactAnalysis deposit currentBlock).status = .signaling ∨
      (UpgradeProposal.new cr proposer t impactAnalysis deposit currentBlock).status = .voting := by
  unfold UpgradeProposal.new
  simp only
  split
  · exact Or.inl rfl
  · exact Or.inr rfl

theorem moves_executeProposal (s : MetaGovernanceContract) (proposalId : Hash) (currentBlock : Nat) :
    Moves (.executeProposal proposalId currentBlock) s (s.executeProposal proposalId currentBlock).1 := by
  cases hx : s.executable proposalId currentBlock with
  | none =>
    obtain ⟨e, he⟩ := s.executeProposal_of_none proposalId currentBlock hx
    rw [he]
    exact .of_eq _ _ _ rfl
  | some p =>
    obtain ⟨hf, hs, -⟩ := s.executable_eq_some proposalId currentBlock p hx
    rcases s.executeProposal_of_some proposalId currentBlock p hx with ⟨e, -, he⟩ | ⟨-, he⟩
    · rw [he]
      exact .of_eq _ _ _ rfl
    · rw [he]
      exact .of_insert _ _ _ proposalId p _ hf (.execute currentBlock rfl hs) rfl

/-- **One call moves the stored proposals**, if it does not replace one. -/
theorem moves_apply (cr : Crypto) (s : MetaGovernanceContract) (op : MetaOp) (h : s.Orderly cr op) :
    Moves op s (s.apply cr op) := by
  cases op with
  | setVotingPower account power => exact .of_eq _ _ _ rfl
  | registerChain chainId validatorCount currentBlock => exact .of_eq _ _ _ rfl
  | proposeParameterChange proposer changes rationale deposit currentBlock =>
    simp only [apply]
    unfold proposeParameterChange
    split
    · exact .of_eq _ _ _ rfl
    next hpower =>
    split
    · exact .of_eq _ _ _ rfl
    next hlen =>
    split
    · exact .of_eq _ _ _ rfl
    next hconst =>
    exact .of_store _ _ _ (h hpower (not_lt.mp hlen) (Bool.not_eq_false _ ▸ hconst))
      (status_new cr _ _ _ _ _)
  | proposeVersionUpgrade proposer newVersion changelog breakingChanges impact deposit currentBlock =>
    simp only [apply]
    unfold proposeVersionUpgrade
    split
    · exact .of_eq _ _ _ rfl
    next hpower =>
    split
    · exact .of_eq _ _ _ rfl
    next hnewer =>
    split
    · exact .of_eq _ _ _ rfl
    next hcomplete =>
    exact .of_store _ _ _
      (h hpower (Bool.not_eq_false _ ▸ hnewer) (Bool.not_eq_false _ ▸ hcomplete))
      (status_new cr _ _ _ _ _)
  | submitChainSignal proposalId chainId supports currentBlock =>
    simp only [apply]
    unfold submitChainSignal
    split
    · exact .of_eq _ _ _ rfl
    next p hp =>
    split
    · exact .of_eq _ _ _ rfl
    next hs =>
    have hs' := not_not.mp hs
    split
    · exact .of_eq _ _ _ rfl
    · refine .of_insert _ _ _ proposalId p _ hp (.stay _ rfl (Or.inl hs') ?_) rfl
      exact Or.inl hs'
  | advanceToVoting proposalId currentBlock =>
    simp only [apply]
    unfold advanceToVoting
    split
    · exact .of_eq _ _ _ rfl
    next p hp =>
    split
    · exact .of_eq _ _ _ rfl
    next hs =>
    have hs' := not_not.mp hs
    split
    · exact .of_eq _ _ _ rfl
    split
    · exact .of_insert _ _ _ proposalId p _ hp (.stay _ rfl (Or.inl hs') (Or.inr (Or.inr rfl))) rfl
    · exact .of_insert _ _ _ proposalId p _ hp (.stay _ rfl (Or.inl hs') (Or.inr (Or.inl rfl))) rfl
  | vote proposalId voter support currentBlock =>
    simp only [apply]
    unfold vote
    simp only
    split
    · exact .of_eq _ _ _ rfl
    split
    · exact .of_eq _ _ _ rfl
    next p hp =>
    split
    · exact .of_eq _ _ _ rfl
    next hopen =>
    split
    · exact .of_eq _ _ _ rfl
    · have hs : p.status = .voting := by
        unfold UpgradeProposal.isVotingOpen at hopen
        simp at hopen
        exact hopen.1
      refine .of_insert _ _ _ proposalId p _ hp (.stay _ rfl (Or.inr hs) (Or.inr (Or.inl ?_))) rfl
      split <;> exact hs
  | finalizeVoting proposalId currentBlock =>
    simp only [apply]
    unfold finalizeVoting
    simp only
    split
    · exact .of_eq _ _ _ rfl
    next p hp =>
    split
    · exact .of_eq _ _ _ rfl
    next hs =>
    split
    · exact .of_eq _ _ _ rfl
    split
    · exact .of_eq _ _ _ rfl
    · refine .of_insert _ _ _ proposalId p _ hp (.close _ rfl (not_not.mp hs) ?_) rfl
      -- the end of the vote does not count as a vote
      by_cases hpass : p.passed = true
      · right
        refine ⟨?_, hpass, rfl⟩
        show (if p.passed = true then UpgradeStatus.approved else .rejected) = _
        rw [if_pos hpass]
      · left
        show (if p.passed = true then UpgradeStatus.approved else .rejected) = _
        rw [if_neg hpass]
  | executeProposal proposalId currentBlock => exact moves_executeProposal s proposalId currentBlock
  | cancelProposal proposalId caller =>
    simp only [apply]
    unfold cancelProposal
    split
    · exact .of_eq _ _ _ rfl
    next p hp =>
    split
    · exact .of_eq _ _ _ rfl
    next hcaller =>
    split
    · exact .of_eq _ _ _ rfl
    next hs =>
    exact .of_insert _ _ _ proposalId p _ hp (.cancel caller rfl (not_not.mp hcaller) hs) rfl

/-- An approved proposal has passed and its voting has ended. -/
def ApprovedPassed (s : MetaGovernanceContract) : Prop :=
  ∀ id p, s.proposals.find? id = some p → p.status = .approved →
    p.passed = true ∧ p.votingEnded.isSome = true

theorem apply_approvedPassed (cr : Crypto) (s : MetaGovernanceContract) (op : MetaOp)
    (h : s.ApprovedPassed) (hop : s.Orderly cr op) : (s.apply cr op).ApprovedPassed := by
  intro id q hq hs
  have hmoves := s.moves_apply cr op hop
  cases hf : s.proposals.find? id with
  | none =>
    rcases hmoves.fresh id q hf hq with hn | hn
    · rw [hn] at hs
      cases hs
    · rw [hn] at hs
      cases hs
  | some p =>
    obtain ⟨q', hq', hnext⟩ := hmoves.old id p hf
    rw [hq] at hq'
    cases hq'
    cases hnext with
    | same => exact h id q hf hs
    | stay _ _ hp hst =>
      rw [hs] at hst
      rcases hst with hst | hst | hst <;> cases hst
    | close _ _ hp hst =>
      rcases hst with hst | ⟨-, hpass, hended⟩
      · rw [hs] at hst
        cases hst
      · exact ⟨hpass, hended⟩
    | execute currentBlock hop hp => cases hs
    | cancel caller hop hcaller hp => cases hs

/-- The stored proposal has this status. -/
def HasStatus (id : Hash) (status : UpgradeStatus) (s : MetaGovernanceContract) : Prop :=
  ∃ p, s.proposals.find? id = some p ∧ p.status = status

/-- An executed or cancelled proposal stays so. -/
theorem apply_final (cr : Crypto) (s : MetaGovernanceContract) (op : MetaOp) (id : Hash) (status : UpgradeStatus)
    (hfinal : status = .executed ∨ status = .cancelled) (hop : s.Orderly cr op) (h : HasStatus id status s) :
    HasStatus id status (s.apply cr op) := by
  obtain ⟨p, hp, hs⟩ := h
  obtain ⟨q, hq, hnext⟩ := (s.moves_apply cr op hop).old id p hp
  refine ⟨q, hq, ?_⟩
  cases hnext with
  | same => exact hs
  | stay _ _ hst _ =>
    rw [hs] at hst
    rcases hfinal with rfl | rfl <;> rcases hst with hst | hst <;> cases hst
  | close _ _ hst _ =>
    rw [hs] at hst
    rcases hfinal with rfl | rfl <;> cases hst
  | execute currentBlock hop hst =>
    rw [hs] at hst
    rcases hfinal with rfl | rfl
    · rfl
    · cases hst
  | cancel caller hop hcaller hne =>
    rcases hfinal with rfl | rfl
    · exact absurd hs hne
    · rfl

/-! ## Runs -/

/-- A successful execution of a proposal. -/
def executes (id : Hash) (s : MetaGovernanceContract) : MetaOp → Nat
  | .executeProposal proposalId currentBlock =>
    if proposalId = id ∧ (s.executeProposal proposalId currentBlock).2.isOk = true then 1 else 0
  | _ => 0

/-- A returned deposit. -/
def cancels (id : Hash) (s : MetaGovernanceContract) : MetaOp → Nat
  | .cancelProposal proposalId caller =>
    if proposalId = id ∧ (s.cancelProposal proposalId caller).2.isOk = true then 1 else 0
  | _ => 0

/-- A proposing call leaves the proposals that are there. -/
def KeepsProposals (cr : Crypto) (s : MetaGovernanceContract) (op : MetaOp) : Prop :=
  op.proposes = true → ∀ id p, s.proposals.find? id = some p →
    (s.apply cr op).proposals.find? id = some p

/-- A successful execution is of a proposal that passed, a timelock after its voting ended. -/
def ExecutesPassed (s : MetaGovernanceContract) (op : MetaOp) : Prop :=
  ∀ id currentBlock, op = .executeProposal id currentBlock →
    (s.executeProposal id currentBlock).2 = .ok () →
      ∃ p ended, s.proposals.find? id = some p ∧ p.passed = true ∧ p.votingEnded = some ended ∧
        ended + p.proposalType.timelock ≤ currentBlock ∧
        ((p.yesVotes.val + p.noVotes.val) * 100 < 2 ^ 128 →
          p.proposalType.requiredThreshold ≤ p.yesVotes.val * 100 / (p.yesVotes.val + p.noVotes.val))

theorem keepsProposals_of_orderly (cr : Crypto) (s : MetaGovernanceContract) (op : MetaOp)
    (h : s.Orderly cr op) : s.KeepsProposals cr op := by
  intro hprop id p hp
  obtain ⟨q, hq, hnext⟩ := (s.moves_apply cr op h).old id p hp
  cases hnext with
  | same => exact hq
  | stay _ hop _ _ =>
    rw [hprop] at hop
    cases hop
  | close _ hop _ _ =>
    rw [hprop] at hop
    cases hop
  | execute currentBlock hop _ =>
    rw [hop] at hprop
    cases hprop
  | cancel caller hop _ _ =>
    rw [hop] at hprop
    cases hprop

theorem executable_of_isOk (s : MetaGovernanceContract) (id : Hash) (currentBlock : Nat)
    (h : (s.executeProposal id currentBlock).2.isOk = true) :
    ∃ p, s.executable id currentBlock = some p ∧
      (s.executeProposal id currentBlock).1.proposals =
        s.proposals.insert id { p with status := .executed } := by
  cases hx : s.executable id currentBlock with
  | none =>
    obtain ⟨e, he⟩ := s.executeProposal_of_none id currentBlock hx
    rw [he] at h
    cases h
  | some p =>
    refine ⟨p, rfl, ?_⟩
    rcases s.executeProposal_of_some id currentBlock p hx with ⟨e, -, he⟩ | ⟨-, he⟩
    · rw [he] at h
      cases h
    · rw [he]

theorem executesPassed_of_approved (s : MetaGovernanceContract) (op : MetaOp) (h : s.ApprovedPassed) :
    s.ExecutesPassed op := by
  intro id currentBlock _ hok
  obtain ⟨p, hx, -⟩ := s.executable_of_isOk id currentBlock (by rw [hok]; rfl)
  obtain ⟨hf, hs, ht⟩ := s.executable_eq_some id currentBlock p hx
  obtain ⟨hpass, hended⟩ := h id p hf hs
  obtain ⟨ended, he⟩ := Option.isSome_iff_exists.mp hended
  refine ⟨p, ended, hf, hpass, he, ?_, fun hfits => ?_⟩
  · unfold UpgradeProposal.timelockElapsed at ht
    rw [he] at ht
    exact of_decide_eq_true ht
  · rw [← p.approvalPercentage_of_fits hfits]
    exact of_decide_eq_true hpass

theorem executes_cases (cr : Crypto) (s : MetaGovernanceContract) (op : MetaOp) (id : Hash) :
    s.executes id op = 0 ∨ s.executes id op = 1 ∧ HasStatus id .approved s ∧
      HasStatus id .executed (s.apply cr op) := by
  unfold executes
  split
  · next proposalId currentBlock =>
    by_cases h : proposalId = id ∧ (s.executeProposal proposalId currentBlock).2.isOk = true
    · rw [if_pos h]
      obtain ⟨rfl, hok⟩ := h
      obtain ⟨p, hx, hins⟩ := s.executable_of_isOk proposalId currentBlock hok
      obtain ⟨hf, hs, -⟩ := s.executable_eq_some proposalId currentBlock p hx
      refine Or.inr ⟨rfl, ⟨p, hf, hs⟩, { p with status := .executed }, ?_, rfl⟩
      show (s.executeProposal proposalId currentBlock).1.proposals.find? proposalId = _
      rw [hins, SortedMap.find?_insert_self]
    · rw [if_neg h]
      exact Or.inl rfl
  · exact Or.inl rfl

theorem cancels_cases (cr : Crypto) (s : MetaGovernanceContract) (op : MetaOp) (id : Hash)
    (hop : s.Orderly cr op) :
    s.cancels id op = 0 ∨ s.cancels id op = 1 ∧ ¬ HasStatus id .cancelled s ∧
      HasStatus id .cancelled (s.apply cr op) := by
  unfold cancels
  split
  · next proposalId caller =>
    by_cases h : proposalId = id ∧ (s.cancelProposal proposalId caller).2.isOk = true
    · rw [if_pos h]
      obtain ⟨rfl, hok⟩ := h
      right
      refine ⟨rfl, ?_, ?_⟩
      · rintro ⟨p, hp, hs⟩
        unfold cancelProposal at hok
        rw [hp] at hok
        simp only at hok
        split at hok
        · cases hok
        next hcaller =>
        have hc : (s.proposals.find? proposalId).all
            (fun p => decide (p.proposer = caller → p.status ≠ .cancelled)) = true := hop
        rw [hp] at hc
        exact of_decide_eq_true hc (not_not.mp hcaller) hs
      · show HasStatus proposalId .cancelled (s.cancelProposal proposalId caller).1
        unfold cancelProposal at hok ⊢
        cases hf : s.proposals.find? proposalId with
        | none =>
          rw [hf] at hok
          cases hok
        | some p =>
          rw [hf] at hok
          simp only at hok ⊢
          split at hok
          · cases hok
          split at hok
          · cases hok
          next hcaller hs =>
          rw [if_neg hcaller, if_neg hs]
          exact ⟨{ p with status := .cancelled }, SortedMap.find?_insert_self _ _ _, rfl⟩
    · rw [if_neg h]
      exact Or.inl rfl
  · exact Or.inl rfl

theorem executed_at_most_once (cr : Crypto) (ops : List MetaOp) (id : Hash)
    (h : Run.Meets (apply cr) (Orderly cr) new ops) : Run.tally (apply cr) (executes id) new ops ≤ 1 := by
  refine Run.tally_le_one (apply cr) (Orderly cr) (fun _ => True) (HasStatus id .executed) _
    (fun _ _ _ _ => trivial) ?_ ?_ new ops trivial h
  · intro s op _ hop hdone
    refine ⟨?_, s.apply_final cr op id .executed (Or.inl rfl) hop hdone⟩
    rcases s.executes_cases cr op id with hz | ⟨-, ⟨p, hp, hs⟩, -⟩
    · exact hz
    · obtain ⟨q, hq, hq'⟩ := hdone
      rw [hp] at hq
      cases hq
      rw [hs] at hq'
      cases hq'
  · intro s op _ _
    rcases s.executes_cases cr op id with hz | ⟨hone, -, hdone⟩
    · exact Or.inl hz
    · exact Or.inr ⟨hone, hdone⟩

theorem cancelled_at_most_once (cr : Crypto) (ops : List MetaOp) (id : Hash)
    (h : Run.Meets (apply cr) (Orderly cr) new ops) : Run.tally (apply cr) (cancels id) new ops ≤ 1 := by
  refine Run.tally_le_one (apply cr) (Orderly cr) (fun _ => True) (HasStatus id .cancelled) _
    (fun _ _ _ _ => trivial) ?_ ?_ new ops trivial h
  · intro s op _ hop hdone
    refine ⟨?_, s.apply_final cr op id .cancelled (Or.inr rfl) hop hdone⟩
    rcases s.cancels_cases cr op id hop with hz | ⟨-, hnot, -⟩
    · exact hz
    · exact absurd hdone hnot
  · intro s op _ hop
    rcases s.cancels_cases cr op id hop with hz | ⟨hone, -, hdone⟩
    · exact Or.inl hz
    · exact Or.inr ⟨hone, hdone⟩

/-! ## Versions -/

theorem enact_version (parameters : ProtocolParameters) (t : UpgradeProposalType) :
    (enact parameters t).1.version =
      match t with
      | .versionUpgrade newVersion _ _ => newVersion
      | _ => parameters.version := by
  have hchanges := fun changes => ParameterChange.applyAll_keeps
    (fun p => p.version = parameters.version)
    (fun p q c hp hw => (ParameterChange.write_version p q c hw).trans hp) parameters changes rfl
  cases t with
  | parameterChange changes _ => exact hchanges changes
  | versionUpgrade newVersion changelog breakingChanges => rfl
  | emergencyChange changes _ => exact hchanges changes

theorem version_apply (cr : Crypto) (s : MetaGovernanceContract) (op : MetaOp) (h : s.Orderly cr op) :
    ¬ s.parameters.version.isNewer (s.apply cr op).parameters.version = true := by
  by_cases hop : ∃ proposalId currentBlock, op = .executeProposal proposalId currentBlock
  · obtain ⟨proposalId, currentBlock, rfl⟩ := hop
    show ¬ s.parameters.version.isNewer (s.executeProposal proposalId currentBlock).1.parameters.version = true
    cases hx : s.executable proposalId currentBlock with
    | none =>
      obtain ⟨e, he⟩ := s.executeProposal_of_none proposalId currentBlock hx
      rw [he]
      exact ProtocolVersion.not_isNewer_self _
    | some p =>
      obtain ⟨since, hparams⟩ := s.parameters_executeProposal proposalId currentBlock p hx
      rw [hparams]
      show ¬ s.parameters.version.isNewer (enact s.parameters p.proposalType).1.version = true
      have hc : (s.executable proposalId currentBlock).all
          (fun p => !downgrades s.parameters p.proposalType) = true := h
      rw [hx, Option.all_some, Bool.not_eq_true'] at hc
      rw [enact_version]
      cases ht : p.proposalType with
      | versionUpgrade newVersion changelog breakingChanges =>
        rw [ht] at hc
        exact Bool.eq_false_iff.mp hc
      | parameterChange changes _ => exact ProtocolVersion.not_isNewer_self _
      | emergencyChange changes _ => exact ProtocolVersion.not_isNewer_self _
  · rw [s.parameters_apply cr op fun i b heq => hop ⟨i, b, heq⟩]
    exact ProtocolVersion.not_isNewer_self _

def sampleId (deposit : Balance) : Hash := UpgradeProposal.idOf Crypto.sample ⟨1⟩ deposit 0

/-- One voter, two proposals in one block: one is voted for and executed, the other cancelled. -/
def sampleOrderly : List MetaOp :=
  [.setVotingPower ⟨1⟩ 100, .proposeParameterChange ⟨1⟩ [.inflationRate 3] "" 0 0,
    .proposeParameterChange ⟨1⟩ [.minQuorum 20] "" 1 0, .vote (sampleId 0) ⟨1⟩ true 1,
    .cancelProposal (sampleId 1) ⟨1⟩, .finalizeVoting (sampleId 0) 100800,
    .executeProposal (sampleId 0) (100800 + protocolUpgradeTimelock)]

/-- A proposal with a vote, and a call that proposes the same again. -/
def sampleOverwrite : List MetaOp :=
  [.setVotingPower ⟨1⟩ 100, .proposeParameterChange ⟨1⟩ [.inflationRate 3] "" 0 0,
    .vote (sampleId 0) ⟨1⟩ true 0]

/-- Two upgrades, to 2.0.0 and to 1.1.0, are approved and executed in that order. -/
def sampleDowngrade : List MetaOp :=
  let ids := [sampleId 0, sampleId 1]
  [MetaOp.setVotingPower ⟨1⟩ 100, MetaOp.registerChain ⟨7⟩ 1 0,
    MetaOp.proposeVersionUpgrade ⟨1⟩ ⟨2, 0, 0⟩ "" false (.minimal "core") 0 0,
    MetaOp.proposeVersionUpgrade ⟨1⟩ ⟨1, 1, 0⟩ "" false (.minimal "core") 1 0] ++
  ids.map (fun id => MetaOp.submitChainSignal id ⟨7⟩ true 1) ++
  ids.map (fun id => MetaOp.advanceToVoting id signalingPeriod) ++
  ids.map (fun id => MetaOp.vote id ⟨1⟩ true signalingPeriod) ++
  ids.map (fun id => MetaOp.finalizeVoting id (signalingPeriod + 100800)) ++
  ids.map (fun id => MetaOp.executeProposal id (signalingPeriod + 100800 + protocolUpgradeTimelock))

end MetaGovernanceContract

end Kratos
