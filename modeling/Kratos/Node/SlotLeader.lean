import Kratos.Consensus.Roster
import Kratos.Consensus.Validation
import Kratos.Storage.State

/-!
# Slot leadership

A producer selects the leader of a slot among all validators, weighted by the credits in its
state.  The consensus validator selects among the active ones, weighted by the blocks they
have produced.

Whatever the weights and the hash, an active leader's block is accepted if at most one
validator is active, or if each active one has as many credits as produced blocks.  In every
other case some weights and some hash make an active leader whose block is refused
(`leaders_accepted_iff`).
-/

namespace Kratos

namespace BlockProducer

/-- The candidates of a producer: every validator with the credits of the state. -/
def leaderCandidates (validatorSet : ValidatorSet) (state : StateBackend) : List Candidate :=
  validatorSet.validators.values.map fun validator =>
    { id := validator.id, stake := validator.stake, vc := state.getTotalVc validator.id }

/-- An error of the selection other than no candidates is passed on. -/
def isSlotLeader {σ : Type} [LinearOrder σ] (sc : VrfScoring σ) (slot epoch : Nat) (validatorSet : ValidatorSet)
    (validatorId : AccountId) (state : StateBackend) : Except VRFError Bool :=
  if validatorSet.validators.size = 0 then .ok false
  else
    match selectValidator sc slot epoch (leaderCandidates validatorSet state) with
    | .ok selectedId => .ok (decide (selectedId = validatorId))
    | .error .noCandidates => .ok false
    | .error e => .error e

end BlockProducer

namespace ValidatorSet

/-- What a producer and the validator select by, as scores of validators. -/
def producerScore {σ : Type} (sc : VrfScoring σ) (state : StateBackend) (slot epoch : Nat) (info : ValidatorInfo) : σ :=
  sc.score slot epoch { id := info.id, stake := info.stake, vc := state.getTotalVc info.id }

def validatorScore {σ : Type} (sc : VrfScoring σ) (slot epoch : Nat) (info : ValidatorInfo) : σ :=
  sc.score slot epoch { id := info.id, stake := info.stake, vc := info.blocksProduced }

/-- The blocks of active leaders pass the check of their slot. -/
def LeadersAccepted {σ : Type} [LinearOrder σ] (sc : VrfScoring σ) (v : ValidatorSet) (state : StateBackend) : Prop :=
  ∀ slot epoch id, v.isActive id = true → BlockProducer.isSlotLeader sc slot epoch v id state = .ok true →
    ∀ block : Block, block.header.author = id → block.header.slot = slot → block.header.epoch = epoch →
      Validation.validateSlotAssignment sc block v = .ok ()

section Leaders

variable {σ : Type} [LinearOrder σ] (sc : VrfScoring σ) (v : ValidatorSet) (state : StateBackend)

theorem isSlotLeader_iff (slot epoch : Nat) (id : AccountId) :
    BlockProducer.isSlotLeader sc slot epoch v id state = .ok true ↔
      ∃ info, firstMax (producerScore sc state slot epoch) v.validators.values = some info ∧ info.id = id := by
  have hmap := firstMax_map (sc.score slot epoch)
    (fun info : ValidatorInfo => ({ id := info.id, stake := info.stake, vc := state.getTotalVc info.id } : Candidate))
    v.validators.values
  unfold BlockProducer.isSlotLeader
  rw [selectValidator_eq, BlockProducer.leaderCandidates, hmap]
  change _ ↔ ∃ info, firstMax (fun info : ValidatorInfo => sc.score slot epoch
    { id := info.id, stake := info.stake, vc := state.getTotalVc info.id }) v.validators.values = some info ∧ _
  split
  · next hsize =>
    have hnil : v.validators.values = [] := by
      rw [← List.length_eq_zero_iff, SortedMap.values, List.length_map]
      exact hsize
    simp [hnil, firstMax_nil]
  · cases firstMax (fun info : ValidatorInfo => sc.score slot epoch
      { id := info.id, stake := info.stake, vc := state.getTotalVc info.id }) v.validators.values <;> simp

theorem validateSlotAssignment_iff (block : Block) :
    Validation.validateSlotAssignment sc block v = .ok () ↔
      ∀ info, firstMax (validatorScore sc block.header.slot block.header.epoch) v.activeValidators = some info →
        info.id = block.header.author := by
  have hmap := firstMax_map (sc.score block.header.slot block.header.epoch)
    (fun info : ValidatorInfo => ({ id := info.id, stake := info.stake, vc := info.blocksProduced } : Candidate))
    v.activeValidators
  unfold Validation.validateSlotAssignment
  simp only [selectValidator_eq, Validation.slotCandidates, hmap]
  change _ ↔ ∀ info, firstMax (fun info : ValidatorInfo => sc.score block.header.slot block.header.epoch
    { id := info.id, stake := info.stake, vc := info.blocksProduced }) v.activeValidators = some info → _
  cases hl : v.activeValidators with
  | nil => simp [firstMax_nil]
  | cons x l =>
    obtain ⟨info, hinfo⟩ := firstMax_isSome (fun info : ValidatorInfo => sc.score block.header.slot block.header.epoch
      { id := info.id, stake := info.stake, vc := info.blocksProduced }) (x :: l) (by simp)
    simp [hinfo]

theorem mem_activeValidators_iff (info : ValidatorInfo) :
    info ∈ v.activeValidators ↔ info ∈ v.validators.values ∧ info.canParticipate = true := List.mem_filter

theorem Keyed.find?_id {v : ValidatorSet} (h : v.Keyed) (info : ValidatorInfo) (hi : info ∈ v.validators.values) :
    v.validators.find? info.id = some info := by
  obtain ⟨k, hk⟩ := (SortedMap.mem_values_iff v.validators info).mp hi
  rwa [h k info hk]

/-- An id tells the validators of a set apart. -/
theorem Keyed.eq_of_id {v : ValidatorSet} (h : v.Keyed) (a b : ValidatorInfo) (ha : a ∈ v.validators.values)
    (hb : b ∈ v.validators.values) (hid : a.id = b.id) : a = b := by
  have := h.find?_id a ha
  rw [hid, h.find?_id b hb] at this
  exact (Option.some.inj this).symm

theorem Keyed.values_nodup {v : ValidatorSet} (h : v.Keyed) : v.validators.values.Nodup := by
  refine List.Nodup.of_map ValidatorInfo.id ?_
  have hkeys : v.validators.values.map ValidatorInfo.id = v.validators.keys := by
    rw [SortedMap.values, SortedMap.keys, List.map_map]
    exact List.map_congr_left fun e he => h e.1 e.2 ((SortedMap.mem_entries_iff v.validators e.1 e.2).mp he)
  rw [hkeys]
  exact SortedMap.keys_nodup v.validators

theorem Keyed.isActive_iff {v : ValidatorSet} (h : v.Keyed) (info : ValidatorInfo)
    (hi : info ∈ v.validators.values) : v.isActive info.id = true ↔ info.canParticipate = true := by
  rw [ValidatorSet.isActive, h.find?_id info hi]
  rfl

/-- With at most one active validator, or with credits that agree, an active leader is the one the
validator selects. -/
theorem leadersAccepted_of_agree (hkeyed : v.Keyed)
    (h : v.activeCount ≤ 1 ∨ ∀ info ∈ v.activeValidators, state.getTotalVc info.id = info.blocksProduced) :
    LeadersAccepted sc v state := by
  rintro slot epoch id hactive hleader block rfl rfl rfl
  obtain ⟨info, hinfo, hid⟩ := (isSlotLeader_iff sc v state _ _ _).mp hleader
  have hmem := (isFirstMax_firstMax _ _ _ hinfo).mem
  have hpart : info.canParticipate = true := (hkeyed.isActive_iff info hmem).mp (hid ▸ hactive)
  have hin : info ∈ v.activeValidators := (v.mem_activeValidators_iff info).mpr ⟨hmem, hpart⟩
  refine (validateSlotAssignment_iff sc v block).mpr fun other hother => ?_
  rw [← hid]
  rcases h with hone | hcredits
  · -- the only active validator is selected by both
    have hlen : v.activeValidators.length = 1 :=
      Nat.le_antisymm hone (List.length_pos_of_mem hin)
    obtain ⟨x, hx⟩ := List.length_eq_one_iff.mp hlen
    have ho := (isFirstMax_firstMax _ _ _ hother).mem
    rw [hx, List.mem_singleton] at hin ho
    rw [hin, ho]
  · have hfilter := firstMax_filter (producerScore sc state block.header.slot block.header.epoch)
      ValidatorInfo.canParticipate v.validators.values info hinfo hpart
    have hsame := firstMax_congr (producerScore sc state block.header.slot block.header.epoch)
      (validatorScore sc block.header.slot block.header.epoch) v.activeValidators fun a ha => by
        rw [producerScore, validatorScore, hcredits a ha]
    have := hsame.symm.trans hfilter
    rw [hother] at this
    rw [Option.some.inj this]

/-- A leader by a strict margin whom the validator does not select is refused. -/
theorem not_leadersAccepted (hkeyed : v.Keyed) (slot epoch : Nat) (info : ValidatorInfo)
    (hin : info ∈ v.activeValidators)
    (hlead : ∀ other ∈ v.validators.values, other ≠ info →
      producerScore sc state slot epoch other < producerScore sc state slot epoch info)
    (hnot : ¬IsFirstMax (validatorScore sc slot epoch) v.activeValidators info) :
    ¬LeadersAccepted sc v state := by
  intro h
  obtain ⟨hmem, hpart⟩ := (v.mem_activeValidators_iff info).mp hin
  have hleader : BlockProducer.isSlotLeader sc slot epoch v info.id state = .ok true :=
    (isSlotLeader_iff sc v state slot epoch info.id).mpr
      ⟨info, firstMax_of_forall_lt _ _ hkeyed.values_nodup info hmem hlead, rfl⟩
  let block : Block :=
    { header :=
        { number := 1, parentHash := .zero, transactionsRoot := .zero, stateRoot := .zero, timestamp := 0
          epoch := epoch, slot := slot, author := info.id, signature := .zero }
      body := { transactions := [] } }
  have hok := h slot epoch info.id ((hkeyed.isActive_iff info hmem).mpr hpart) hleader block rfl rfl rfl
  obtain ⟨other, hother⟩ := firstMax_isSome (validatorScore sc slot epoch) v.activeValidators
    (List.ne_nil_of_mem hin)
  have hid := (validateSlotAssignment_iff sc v block).mp hok other hother
  have hfirst := isFirstMax_firstMax _ _ _ hother
  obtain rfl := hkeyed.eq_of_id other info ((v.mem_activeValidators_iff other).mp hfirst.mem).1 hmem hid
  exact hnot hfirst

end Leaders

/-! ## Weights under which a leader is refused -/

section Refused

/-- Whole numbers as weights and as random values. -/
def wholeScoring (weight : Balance → Nat → Nat) (random : AccountId → Nat → Nat → Nat) : VrfScoring Nat :=
  { weight, random, mul := fun w r => w * r }

variable (v : ValidatorSet) (state : StateBackend)

theorem producerScore_whole (weight : Balance → Nat → Nat) (random : AccountId → Nat → Nat → Nat) (info : ValidatorInfo) :
    producerScore (wholeScoring weight random) state 0 0 info =
      weight info.stake (state.getTotalVc info.id) * random info.id 0 0 := rfl

theorem validatorScore_whole (weight : Balance → Nat → Nat) (random : AccountId → Nat → Nat → Nat) (info : ValidatorInfo) :
    validatorScore (wholeScoring weight random) 0 0 info = weight info.stake info.blocksProduced * random info.id 0 0 := rfl

/-- The validator with other credits is not the first active one: only its credits weigh anything. -/
theorem exists_refused_later (hkeyed : v.Keyed) (first info : ValidatorInfo) (rest : List ValidatorInfo)
    (hactive : v.activeValidators = first :: rest) (hin : info ∈ rest) (hfirst : info ≠ first)
    (hne : state.getTotalVc info.id ≠ info.blocksProduced) :
    ∃ weight random, ¬LeadersAccepted (wholeScoring weight random) v state := by
  have hmem : info ∈ v.activeValidators := hactive ▸ List.mem_cons_of_mem _ hin
  refine ⟨fun stake vc => if stake = info.stake ∧ vc = state.getTotalVc info.id then 1 else 0,
    fun id _ _ => if id = info.id then 2 else 1, not_leadersAccepted _ v state hkeyed 0 0 info hmem ?_ ?_⟩
  · intro other ho hother
    have hid : other.id ≠ info.id :=
      fun hid => hother (hkeyed.eq_of_id other info ho ((v.mem_activeValidators_iff info).mp hmem).1 hid)
    rw [producerScore_whole, producerScore_whole]
    simp only [hid, and_self, if_true, if_false]
    split <;> omega
  · rw [hactive]
    rintro ⟨before, after, hsplit, hb, -⟩
    cases before with
    | nil => exact hfirst (List.cons.inj hsplit).1.symm
    | cons b before =>
      -- the first active validator would have to score below nothing
      have hlt := hb b List.mem_cons_self
      rw [validatorScore_whole, validatorScore_whole] at hlt
      simp [hne.symm] at hlt

/-- The validator with other credits is the first active one, another one has as many credits as blocks. -/
theorem exists_refused_first (hkeyed : v.Keyed) (info u : ValidatorInfo) (hin : info ∈ v.activeValidators)
    (hu : u ∈ v.activeValidators) (hui : u ≠ info) (hne : state.getTotalVc info.id ≠ info.blocksProduced)
    (hueq : state.getTotalVc u.id = u.blocksProduced) :
    ∃ weight random, ¬LeadersAccepted (wholeScoring weight random) v state := by
  have hids : ∀ a ∈ v.validators.values, ∀ b ∈ v.activeValidators, a ≠ b → a.id ≠ b.id := fun a ha b hb hab hid =>
    hab (hkeyed.eq_of_id a b ha ((v.mem_activeValidators_iff b).mp hb).1 hid)
  have huid := hids u ((v.mem_activeValidators_iff u).mp hu).1 info hin hui
  by_cases hsame : u.stake = info.stake ∧ u.blocksProduced = info.blocksProduced
  · -- the credits of `info` weigh nothing, so `u` leads; by blocks produced both weigh the same
    refine ⟨fun stake vc => if stake = info.stake ∧ vc = state.getTotalVc info.id then 0 else 1,
      fun id _ _ => if id = info.id then 3 else if id = u.id then 2 else 1,
      not_leadersAccepted _ v state hkeyed 0 0 u hu ?_ ?_⟩
    · intro other ho hother
      rw [producerScore_whole, producerScore_whole]
      have hvc : state.getTotalVc u.id ≠ state.getTotalVc info.id := by
        rw [hueq, hsame.2]
        exact hne.symm
      have hid := hids other ho u hu hother
      by_cases hinfo : other = info
      · subst hinfo
        simp [hvc, huid]
      · have hid' := hids other ho info hin hinfo
        simp only [hvc, huid, hid, hid', and_false, if_false, if_true]
        split <;> omega
    · intro hmax
      have hle := hmax.le info hin
      rw [validatorScore_whole, validatorScore_whole] at hle
      simp [hsame.2, huid, hne.symm] at hle
  · refine ⟨fun stake vc => if stake = info.stake ∧ vc = info.blocksProduced then 0 else 1,
      fun id _ _ => if id = info.id then 2 else 1, not_leadersAccepted _ v state hkeyed 0 0 info hin ?_ ?_⟩
    · intro other ho hother
      rw [producerScore_whole, producerScore_whole]
      have hid := hids other ho info hin hother
      simp only [hne, hid, and_false, if_false, if_true]
      split <;> omega
    · intro hmax
      have hle := hmax.le u hu
      rw [validatorScore_whole, validatorScore_whole] at hle
      simp [hsame, huid] at hle

/-- With two active validators, one of them with other credits than blocks, some weights and some
hash have an active leader refused. -/
theorem exists_refused (hkeyed : v.Keyed) (hmany : 1 < v.activeCount) (info : ValidatorInfo)
    (hin : info ∈ v.activeValidators) (hne : state.getTotalVc info.id ≠ info.blocksProduced) :
    ∃ weight random, ¬LeadersAccepted (wholeScoring weight random) v state := by
  have hnodup : v.activeValidators.Nodup := hkeyed.values_nodup.filter _
  have hlen : 1 < v.activeValidators.length := hmany
  match hactive : v.activeValidators, hlen with
  | first :: u :: rest, _ =>
    rw [hactive] at hnodup hin
    have hufirst : u ≠ first := fun h => (List.nodup_cons.mp hnodup).1 (by simp [h])
    by_cases hinfo : info = first
    · subst hinfo
      by_cases hu : state.getTotalVc u.id = u.blocksProduced
      · exact exists_refused_first v state hkeyed info u (by simp [hactive]) (by simp [hactive]) hufirst hne hu
      · exact exists_refused_later v state hkeyed info u (u :: rest) hactive List.mem_cons_self hufirst hu
    · have hrest : info ∈ u :: rest := (List.mem_cons.mp hin).resolve_left hinfo
      exact exists_refused_later v state hkeyed first info (u :: rest) hactive hrest hinfo hne

end Refused

/-- Whatever the weights and the hash, the blocks of active leaders are accepted exactly when at
most one validator is active or each active one has as many credits as produced blocks.  Products
of whole numbers already tell. -/
theorem leaders_accepted_iff (v : ValidatorSet) (state : StateBackend) (hkeyed : v.Keyed) :
    ((∀ (σ : Type) [LinearOrder σ] (sc : VrfScoring σ), LeadersAccepted sc v state) ↔
      v.activeCount ≤ 1 ∨ ∀ info ∈ v.activeValidators, state.getTotalVc info.id = info.blocksProduced) ∧
    ((∀ weight random, LeadersAccepted (wholeScoring weight random) v state) ↔
      v.activeCount ≤ 1 ∨ ∀ info ∈ v.activeValidators, state.getTotalVc info.id = info.blocksProduced) := by
  have hwhole : (∀ weight random, LeadersAccepted (wholeScoring weight random) v state) →
      v.activeCount ≤ 1 ∨ ∀ info ∈ v.activeValidators, state.getTotalVc info.id = info.blocksProduced := by
    intro h
    by_contra hnot
    obtain ⟨hmany, hne⟩ := not_or.mp hnot
    simp only [not_forall] at hne
    obtain ⟨info, hin, hne⟩ := hne
    obtain ⟨weight, random, hrefused⟩ := exists_refused v state hkeyed (by omega) info hin hne
    exact hrefused (h weight random)
  refine ⟨⟨fun h => hwhole fun weight random => h Nat _, fun h σ _ sc => ?_⟩, ⟨hwhole, fun h weight random => ?_⟩⟩
  · exact leadersAccepted_of_agree sc v state hkeyed h
  · exact leadersAccepted_of_agree _ v state hkeyed h

/-- Two validators without stake, both active. -/
def bootstrapPair : ValidatorSet :=
  [SetOp.ensureBootstrapValidator ⟨1⟩ 0, SetOp.ensureBootstrapValidator ⟨2⟩ 0].foldl apply new

/-- The credits they start with. -/
def bootstrapPairState : StateBackend :=
  (StateBackend.new.initializeBootstrapVc ⟨1⟩ 0 0).initializeBootstrapVc ⟨2⟩ 0 0

/-- A block of the second one in slot 5. -/
def secondsBlock : Block :=
  { header :=
      { number := 1, parentHash := .zero, transactionsRoot := .zero, stateRoot := .zero, timestamp := 30
        epoch := 0, slot := 5, author := ⟨2⟩, signature := .zero }
    body := { transactions := [] } }

theorem leaders_accepted_iff_sample :
    ((∀ (σ : Type) [LinearOrder σ] (sc : VrfScoring σ), LeadersAccepted sc bootstrapPair bootstrapPairState) ↔
      bootstrapPair.activeCount ≤ 1 ∨ ∀ info ∈ bootstrapPair.activeValidators,
        bootstrapPairState.getTotalVc info.id = info.blocksProduced) ∧
    ((∀ weight random, LeadersAccepted (wholeScoring weight random) bootstrapPair bootstrapPairState) ↔
      bootstrapPair.activeCount ≤ 1 ∨ ∀ info ∈ bootstrapPair.activeValidators,
        bootstrapPairState.getTotalVc info.id = info.blocksProduced) :=
  leaders_accepted_iff bootstrapPair bootstrapPairState (run_keyed _)

/-- The second one leads slot 5 by the credits of the state.  It has produced no block yet, so the
validator expects the first one. -/
theorem second_leader_refused :
    bootstrapPair.isActive ⟨2⟩ = true ∧
    BlockProducer.isSlotLeader sampleScoring 5 0 bootstrapPair ⟨2⟩ bootstrapPairState = .ok true ∧
    Validation.validateSlotAssignment sampleScoring secondsBlock bootstrapPair =
      .error (.wrongSlotAuthor 1 5 ⟨1⟩ ⟨2⟩) := by
  decide

end ValidatorSet

end Kratos
