import Kratos.Contracts.Fork

/-!
# Executed forks

`Step` says what one call does to the pending and the executed forks, and `Change`
what it makes of one of them.  In every run at blocks that do not decrease at most
three forks are active, an executed fork was declared for its preparation period
before it was marked ready, and no fork is executed twice (`orderly`).

An execution asks for no snapshot.  Supporters are counted whether or not they have
voting power, and the cooldown is asked for when a fork is proposed; what is said
about them here is what follows from these checks.
-/

namespace Kratos

namespace ForkContract

/-! ## What a call does to the forks -/

/-- Name, type and block of the proposal are kept. -/
def Core (f g : ForkDeclaration) : Prop :=
  g.id = f.id ∧ g.name = f.name ∧ g.forkType = f.forkType ∧ g.declaredAt = f.declaredAt

/-- The change of a pending fork. -/
inductive Turn (s : ForkContract) (op : ForkOp) (id : Hash) (f g : ForkDeclaration) : Prop where
  | support (hf : f.status = .proposed) (hg : g.status = .proposed) (hc : Core f g)
      (he : g.preparationEnds = f.preparationEnds) (hh : g.forkHeight = f.forkHeight)
  | declare (b : Nat) (hb : op.block = some b) (hf : f.status = .proposed) (hg : g.status = .declared)
      (hc : Core f g) (he : g.preparationEnds = b + f.forkType.minPreparationPeriod)
      (hh : g.forkHeight = b + f.forkType.minPreparationPeriod + 14400)
      (hby : ∀ n m p, g.declaredBy = .validators n m p →
        meetsValidatorThreshold (g.supportingValidators.card % 2 ^ 32) (s.votingPower.size % 2 ^ 32) = true)
  | ready (b : Nat) (hop : op = .markReady id b) (hf : f.status = .declared) (hb : f.preparationEnds ≤ b)
      (hg : g = { f with status := .ready })
  | cancel (hg : g = { f with status := .cancelled })

theorem Turn.core {s : ForkContract} {op : ForkOp} {id : Hash} {f g : ForkDeclaration} (h : Turn s op id f g) :
    Core f g := by
  cases h with
  | support hf hg hc he hh => exact hc
  | declare b hb hf hg hc he hh hby => exact hc
  | ready b hop hf hb hg =>
    subst hg
    exact ⟨rfl, rfl, rfl, rfl⟩
  | cancel hg =>
    subst hg
    exact ⟨rfl, rfl, rfl, rfl⟩

/-- The history and the snapshots are left alone. -/
structure Quiet (s t : ForkContract) : Prop where
  executed : t.executedForks = s.executedForks
  last : t.lastForkExecuted = s.lastForkExecuted
  snapshots : t.snapshots = s.snapshots

/-- The change of the forks. -/
inductive Step (cr : Crypto) (s : ForkContract) (op : ForkOp) (t : ForkContract) : Prop where
  | quiet (hp : t.proposals = s.proposals) (hq : Quiet s t)
  | propose (f : ForkDeclaration) (b : Nat) (hb : op.block = some b) (hnew : s.proposals.find? f.id = none)
      (hp : t.proposals = s.proposals.insert f.id f) (hf : f.status = .proposed) (hat : f.declaredAt = b)
      (hid : f.id = ForkDeclaration.forkId cr f.name b) (hh : b < f.forkHeight)
      (hfew : s.activeForks.length < maxConcurrentForks)
      (hcool : ∀ l, s.lastForkExecuted = some l → l + forkCooldown ≤ b) (hq : Quiet s t)
  | turn (id : Hash) (f g : ForkDeclaration) (hf : s.proposals.find? id = some f)
      (hp : t.proposals = s.proposals.insert id g) (hturn : Turn s op id f g) (hq : Quiet s t)
  | snapshot (id : Hash) (f : ForkDeclaration) (n : ForkSnapshot) (hf : s.proposals.find? id = some f)
      (hdecl : f.status = .declared) (hnone : s.snapshots.find? id = none)
      (hs : t.snapshots = s.snapshots.insert id n) (hp : t.proposals = s.proposals)
      (he : t.executedForks = s.executedForks) (hl : t.lastForkExecuted = s.lastForkExecuted)
  | execute (id : Hash) (f : ForkDeclaration) (c : ChainId) (b : Nat) (hop : op = .executeFork id c b)
      (hf : s.proposals.find? id = some f) (hready : f.status = .ready) (hb : f.forkHeight ≤ b)
      (hp : t.proposals = s.proposals.erase id) (hl : t.lastForkExecuted = some b)
      (he : t.executedForks = s.executedForks ++ [{ f with status := .executed, newChainId := some c }])
      (hs : t.snapshots = s.snapshots)

theorem Quiet.refl (s : ForkContract) : Quiet s s := ⟨rfl, rfl, rfl⟩

theorem Step.refl (cr : Crypto) (s : ForkContract) (op : ForkOp) : Step cr s op s := .quiet rfl (.refl s)

theorem proposeFork_step (cr : Crypto) (s : ForkContract) (v : AccountId) (name : String) (ty : ForkType)
    (d : String) (deposit : Balance) (b : Nat) :
    Step cr s (.proposeFork v name ty d deposit b) (s.apply cr (.proposeFork v name ty d deposit b)) := by
  apply Except.orKeep_map_of (Step cr s _) _ s (.refl cr s _)
  intro t id ht
  unfold proposeFork at ht
  split at ht
  · cases ht
  split at ht
  · cases ht
  next hfew =>
  split at ht
  · cases ht
  next hcool =>
  simp only at ht
  split at ht
  · cases ht
  next hnew =>
  cases ht
  refine .propose { ForkDeclaration.new cr name ty _ b d with supportingValidators := insert v _ } b rfl ?_ rfl rfl
    rfl rfl ?_ (not_le.mp hfew) ?_ ⟨rfl, rfl, rfl⟩
  · simpa [SortedMap.contains] using hnew
  · show b < b + ty.minPreparationPeriod + 14400
    omega
  · intro l hl
    by_contra hearly
    exact hcool ((Option.any_eq_true _ _).mpr ⟨l, hl, decide_eq_true (not_le.mp hearly)⟩)

/-- The two ways to a declaration by support. -/
theorem checkDeclarationThreshold_ok (s t : ForkContract) (id : Hash) (b : Nat) (f : ForkDeclaration)
    (hf : s.proposals.find? id = some f) (hst : f.status = .proposed)
    (h : s.checkDeclarationThreshold id b = .ok t) :
    t = s ∨
      (∃ p, meetsValidatorThreshold (f.supportingValidators.card % 2 ^ 32) (s.votingPower.size % 2 ^ 32) = true ∧
        t = { s with
              proposals := s.proposals.insert id (f.declare (.validators (f.supportingValidators.card % 2 ^ 32)
                (s.votingPower.size % 2 ^ 32) p) b) }) ∨
      ∃ p, t = { s with
                 proposals := s.proposals.insert id (f.declare (.stake f.supportingStake s.totalStake p) b) } := by
  unfold checkDeclarationThreshold at h
  simp only [hf] at h
  rw [if_neg (not_not.mpr hst)] at h
  split at h
  · next hmet =>
    cases h
    exact .inr (.inl ⟨_, hmet, rfl⟩)
  split at h
  · cases h
    exact .inr (.inr ⟨_, rfl⟩)
  · cases h
    exact .inl rfl

/-- The fork with one more supporter. -/
def withSupport (f : ForkDeclaration) (v : AccountId) (a : Balance) : ForkDeclaration :=
  { f with supportingValidators := insert v f.supportingValidators, supportingStake := f.supportingStake + a }

/-- The supporters, and the declaration if a threshold is met. -/
theorem supportFork_ok (s t : ForkContract) (id : Hash) (v : AccountId) (a : Balance) (b : Nat)
    (h : s.supportFork id v a b = .ok t) :
    ∃ f f₁, s.proposals.find? id = some f ∧ f.status = .proposed ∧ f₁ = withSupport f v a ∧
      (t = { s with proposals := s.proposals.insert id f₁ } ∨
        (∃ p, meetsValidatorThreshold (f₁.supportingValidators.card % 2 ^ 32) (s.votingPower.size % 2 ^ 32) = true ∧
          t = { s with
                proposals := s.proposals.insert id (f₁.declare (.validators (f₁.supportingValidators.card % 2 ^ 32)
                  (s.votingPower.size % 2 ^ 32) p) b) }) ∨
        ∃ p, t = { s with
                   proposals := s.proposals.insert id
                    (f₁.declare (.stake f₁.supportingStake s.totalStake p) b) }) := by
  unfold supportFork at h
  split at h
  · cases h
  split at h
  · cases h
  next f hf =>
  split at h
  · cases h
  split at h
  · cases h
  next hst =>
  rw [not_not] at hst
  refine ⟨f, _, hf, hst, rfl, ?_⟩
  have hcheck := checkDeclarationThreshold_ok _ t id b (withSupport f v a)
    (SortedMap.find?_insert_self s.proposals id (withSupport f v a)) hst h
  simp only [SortedMap.insert_insert] at hcheck
  exact hcheck

theorem supportFork_step (cr : Crypto) (s : ForkContract) (id : Hash) (v : AccountId) (a : Balance) (b : Nat) :
    Step cr s (.supportFork id v a b) (s.apply cr (.supportFork id v a b)) := by
  apply Except.orKeep_of (Step cr s _) _ s (.refl cr s _)
  intro t ht
  obtain ⟨f, f₁, hf, hst, rfl, h | ⟨p, hmet, h⟩ | ⟨p, h⟩⟩ := supportFork_ok s t id v a b ht
  · subst h
    exact .turn id f _ hf rfl (.support hst hst ⟨rfl, rfl, rfl, rfl⟩ rfl rfl) ⟨rfl, rfl, rfl⟩
  · subst h
    refine .turn id f _ hf rfl (.declare b rfl hst rfl ⟨rfl, rfl, rfl, rfl⟩ rfl rfl ?_) ⟨rfl, rfl, rfl⟩
    exact fun _ _ _ _ => hmet
  · subst h
    refine .turn id f _ hf rfl (.declare b rfl hst rfl ⟨rfl, rfl, rfl, rfl⟩ rfl rfl ?_) ⟨rfl, rfl, rfl⟩
    intro n m q hby
    cases hby

theorem declareForkFromSidechains_step (cr : Crypto) (s : ForkContract) (id : Hash) (cs : List ChainId) (b : Nat) :
    Step cr s (.declareForkFromSidechains id cs b) (s.apply cr (.declareForkFromSidechains id cs b)) := by
  apply Except.orKeep_of (Step cr s _) _ s (.refl cr s _)
  intro t ht
  unfold declareForkFromSidechains at ht
  split at ht
  · cases ht
  next f hf =>
  split at ht
  · cases ht
  next hst =>
  rw [not_not] at hst
  cases ht
  refine .turn id f _ hf rfl ?_ ⟨rfl, rfl, rfl⟩
  split
  · refine .declare b rfl hst rfl ⟨rfl, rfl, rfl, rfl⟩ rfl rfl ?_
    intro n m q hby
    cases hby
  · exact .support hst hst ⟨rfl, rfl, rfl, rfl⟩ rfl rfl

theorem createSnapshot_step (cr : Crypto) (s : ForkContract) (id r : Hash) (vs : List ValidatorSnapshot)
    (ir rr sr : Hash) (n : Balance) (b : Nat) :
    Step cr s (.createSnapshot id r vs ir rr sr n b) (s.apply cr (.createSnapshot id r vs ir rr sr n b)) := by
  apply Except.orKeep_of (Step cr s _) _ s (.refl cr s _)
  intro t ht
  unfold createSnapshot at ht
  split at ht
  · cases ht
  next f hf =>
  split at ht
  · cases ht
  next hst =>
  split at ht
  · cases ht
  next hnone =>
  cases ht
  refine .snapshot id f _ hf (not_not.mp hst) ?_ rfl rfl rfl rfl
  simpa [SortedMap.contains] using hnone

theorem markReady_step (cr : Crypto) (s : ForkContract) (id : Hash) (b : Nat) :
    Step cr s (.markReady id b) (s.apply cr (.markReady id b)) := by
  apply Except.orKeep_of (Step cr s _) _ s (.refl cr s _)
  intro t ht
  unfold markReady at ht
  split at ht
  · cases ht
  next f hf =>
  split at ht
  · cases ht
  next hst =>
  split at ht
  · cases ht
  next hb =>
  cases ht
  exact .turn id f _ hf rfl (.ready b rfl (not_not.mp hst) (not_lt.mp hb) rfl) ⟨rfl, rfl, rfl⟩

theorem executeFork_ok (s t : ForkContract) (id : Hash) (c : ChainId) (b : Nat)
    (h : s.executeFork id c b = .ok t) :
    ∃ f, s.proposals.find? id = some f ∧ f.status = .ready ∧ f.forkHeight ≤ b ∧
      t = { s with
            proposals := s.proposals.erase id
            lastForkExecuted := some b
            executedForks := s.executedForks ++ [{ f with status := .executed, newChainId := some c }] } := by
  unfold executeFork at h
  split at h
  · cases h
  next f hf =>
  split at h
  · cases h
  next hst =>
  split at h
  · cases h
  next hb =>
  cases h
  exact ⟨f, hf, not_not.mp hst, not_lt.mp hb, rfl⟩

theorem executeFork_step (cr : Crypto) (s : ForkContract) (id : Hash) (c : ChainId) (b : Nat) :
    Step cr s (.executeFork id c b) (s.apply cr (.executeFork id c b)) := by
  apply Except.orKeep_of (Step cr s _) _ s (.refl cr s _)
  intro t ht
  obtain ⟨f, hf, hst, hb, rfl⟩ := executeFork_ok s t id c b ht
  exact .execute id f c b rfl hf hst hb rfl rfl rfl rfl

theorem cancelFork_step (cr : Crypto) (s : ForkContract) (id : Hash) (reason : String) :
    Step cr s (.cancelFork id reason) (s.apply cr (.cancelFork id reason)) := by
  apply Except.orKeep_of (Step cr s _) _ s (.refl cr s _)
  intro t ht
  unfold cancelFork at ht
  split at ht
  · cases ht
  next f hf =>
  split at ht
  · cases ht
  cases ht
  exact .turn id f _ hf rfl (.cancel rfl) ⟨rfl, rfl, rfl⟩

theorem orKeep_quiet (cr : Crypto) (s : ForkContract) (op : ForkOp) (r : Except ForkError ForkContract)
    (h : ∀ t, r = .ok t → t.proposals = s.proposals ∧ Quiet s t) : Step cr s op (r.orKeep s) := by
  apply Except.orKeep_of (Step cr s op) r s (.refl cr s op)
  intro t ht
  obtain ⟨hp, hq⟩ := h t ht
  exact .quiet hp hq

theorem updateContinuity_ok (s t : ForkContract) (id : Hash) (f : ForkContinuity → ForkContinuity)
    (h : s.updateContinuity id f = .ok t) : t.proposals = s.proposals ∧ Quiet s t := by
  unfold updateContinuity at h
  split at h
  · cases h
  cases h
  exact ⟨rfl, rfl, rfl, rfl⟩

theorem noteAlignment_quiet (s : ForkContract) (id : Hash) (c : ChainId) (a : ForkAlignment) :
    (s.noteAlignment id c a).proposals = s.proposals ∧ Quiet s (s.noteAlignment id c a) := by
  apply Except.orKeep_of (fun t => t.proposals = s.proposals ∧ Quiet s t) _ s ⟨rfl, .refl s⟩
  intro t ht
  exact updateContinuity_ok s t id _ ht

theorem setSidechainAlignment_ok (s t : ForkContract) (id : Hash) (c : ChainId) (a : ForkAlignment)
    (p : Hash) (b : Nat) (h : s.setSidechainAlignment id c a p b = .ok t) :
    t.proposals = s.proposals ∧ Quiet s t := by
  unfold setSidechainAlignment at h
  split at h
  · cases h
  split at h
  · cases h
  cases h
  obtain ⟨hp, he, hl, hs⟩ := noteAlignment_quiet
    { s with alignments := s.alignments.insert (toLex (id, c))
              (((s.alignments.find? (toLex (id, c))).getD (.undecided c id)).setAlignment a b p) } id c a
  exact ⟨hp, he, hl, hs⟩

theorem applyDefaultAlignment_quiet (id : Hash) (b : Nat) (s : ForkContract) (c : ChainId) :
    (applyDefaultAlignment id b s c).proposals = s.proposals ∧ Quiet s (applyDefaultAlignment id b s c) := by
  unfold applyDefaultAlignment
  simp only
  split
  · exact ⟨rfl, .refl s⟩
  · obtain ⟨hp, hq⟩ := noteAlignment_quiet
      { s with alignments := s.alignments.insert (toLex (id, c))
                { SidechainAlignment.undecided c id with alignment := .independent, decidedAt := some b } }
      id c .independent
    exact ⟨hp, hq.executed, hq.last, hq.snapshots⟩

theorem applyDefaultAlignments_quiet (s : ForkContract) (id : Hash) (cs : List ChainId) (b : Nat) :
    (s.applyDefaultAlignments id cs b).proposals = s.proposals ∧ Quiet s (s.applyDefaultAlignments id cs b) := by
  unfold applyDefaultAlignments
  induction cs generalizing s with
  | nil => exact ⟨rfl, .refl s⟩
  | cons c cs ih =>
    rw [List.foldl_cons]
    obtain ⟨hp, hq⟩ := applyDefaultAlignment_quiet id b s c
    obtain ⟨hp', hq'⟩ := ih (applyDefaultAlignment id b s c)
    exact ⟨hp'.trans hp, hq'.executed.trans hq.executed, hq'.last.trans hq.last,
      hq'.snapshots.trans hq.snapshots⟩

theorem proposeOssification_ok (s t : ForkContract) (v : AccountId) (b : Nat) (e : Bool)
    (h : s.proposeOssification v b e = .ok t) : t.proposals = s.proposals ∧ Quiet s t := by
  unfold proposeOssification at h
  split at h
  · cases h
  split at h
  · cases h
  split at h
  · cases h
  cases h
  exact ⟨rfl, rfl, rfl, rfl⟩

theorem voteOssification_ok (s t : ForkContract) (v : AccountId) (a : Bool) (b : Nat)
    (h : s.voteOssification v a b = .ok t) : t.proposals = s.proposals ∧ Quiet s t := by
  unfold voteOssification at h
  split at h
  · cases h
  split at h
  · cases h
  split at h
  · cases h
  cases h
  exact ⟨rfl, rfl, rfl, rfl⟩

/-- What a call does to the forks. -/
theorem apply_step (cr : Crypto) (s : ForkContract) (op : ForkOp) : Step cr s op (s.apply cr op) := by
  cases op with
  | setVotingPower v p => exact .quiet rfl ⟨rfl, rfl, rfl⟩
  | setTotalStake n => exact .quiet rfl ⟨rfl, rfl, rfl⟩
  | proposeFork v name ty d deposit b => exact proposeFork_step cr s v name ty d deposit b
  | supportFork id v a b => exact supportFork_step cr s id v a b
  | declareForkFromSidechains id cs b => exact declareForkFromSidechains_step cr s id cs b
  | createSnapshot id r vs ir rr sr n b => exact createSnapshot_step cr s id r vs ir rr sr n b
  | addBalanceToSnapshot id v n => exact orKeep_quiet cr s _ _ fun t => updateContinuity_ok s t id _
  | addIdentityToSnapshot id i => exact orKeep_quiet cr s _ _ fun t => updateContinuity_ok s t id _
  | addReputationToSnapshot id r => exact orKeep_quiet cr s _ _ fun t => updateContinuity_ok s t id _
  | setSidechainAlignment id c a p b => exact orKeep_quiet cr s _ _ fun t => setSidechainAlignment_ok s t id c a p b
  | applyDefaultAlignments id cs b =>
    obtain ⟨hp, hq⟩ := applyDefaultAlignments_quiet s id cs b
    exact .quiet hp hq
  | markReady id b => exact markReady_step cr s id b
  | executeFork id c b => exact executeFork_step cr s id c b
  | cancelFork id reason => exact cancelFork_step cr s id reason
  | proposeOssification v b e => exact orKeep_quiet cr s _ _ fun t => proposeOssification_ok s t v b e
  | voteOssification v a b => exact orKeep_quiet cr s _ _ fun t => voteOssification_ok s t v a b
  | recordParameterChange b => exact .quiet rfl ⟨rfl, rfl, rfl⟩

/-! ## One fork -/

/-- What a call makes of the fork with the given id. -/
inductive Change (s : ForkContract) (op : ForkOp) (id : Hash) :
    Option ForkDeclaration → Option ForkDeclaration → Prop where
  | same (o : Option ForkDeclaration) : Change s op id o o
  | propose (f : ForkDeclaration) (b : Nat) (hb : op.block = some b) (hf : f.status = .proposed)
      (hcool : ∀ l, s.lastForkExecuted = some l → l + forkCooldown ≤ b) : Change s op id none (some f)
  | turn (f g : ForkDeclaration) (h : Turn s op id f g) : Change s op id (some f) (some g)
  | execute (f : ForkDeclaration) (c : ChainId) (b : Nat) (hop : op = .executeFork id c b)
      (hready : f.status = .ready) : Change s op id (some f) none

theorem Step.change {cr : Crypto} {s t : ForkContract} {op : ForkOp} (h : Step cr s op t) (id : Hash) :
    Change s op id (s.proposals.find? id) (t.proposals.find? id) := by
  cases h with
  | quiet hp hq =>
    rw [hp]
    exact .same _
  | snapshot i f n hf hdecl hnone hs hp he hl =>
    rw [hp]
    exact .same _
  | propose f b hb hnew hp hf hat hid hh hfew hcool hq =>
    rw [hp]
    by_cases hi : id = f.id
    · subst hi
      rw [hnew, SortedMap.find?_insert_self]
      exact .propose f b hb hf hcool
    · rw [SortedMap.find?_insert_ne _ _ _ _ hi]
      exact .same _
  | turn i f g hf hp hturn hq =>
    rw [hp]
    by_cases hi : id = i
    · subst hi
      rw [hf, SortedMap.find?_insert_self]
      exact .turn f g hturn
    · rw [SortedMap.find?_insert_ne _ _ _ _ hi]
      exact .same _
  | execute i f c b hop hf hready hb hp hl he hs =>
    rw [hp, SortedMap.find?_erase]
    split
    · next hi =>
      subst hi
      rw [hf]
      exact .execute f c b hop hready
    · exact .same _

theorem change_apply (cr : Crypto) (s : ForkContract) (op : ForkOp) (id : Hash) :
    Change s op id (s.proposals.find? id) ((s.apply cr op).proposals.find? id) := (apply_step cr s op).change id

/-! ## Concurrent forks -/

/-- One for a fork that counts against the limit. -/
def weight (_ : Hash) (f : ForkDeclaration) : Nat := if f.isActive then 1 else 0

theorem activeForks_length (s : ForkContract) : s.activeForks.length = s.proposals.sumOf weight := by
  unfold activeForks SortedMap.sumOf SortedMap.values
  generalize s.proposals.entries = l
  induction l with
  | nil => rfl
  | cons e l ih =>
    rw [List.map_cons, List.map_cons, List.sum_cons, ← ih, List.filter_cons]
    unfold weight
    split
    · rw [List.length_cons, Nat.add_comm]
    · rw [Nat.zero_add]

/-- A fork that counts after its change counted before. -/
theorem Turn.weight_le {s : ForkContract} {op : ForkOp} {id : Hash} {f g : ForkDeclaration} (h : Turn s op id f g) :
    weight id g ≤ weight id f := by
  unfold weight ForkDeclaration.isActive
  cases h with
  | support hf hg hc he hh => simp [hf, hg]
  | declare b hb hf hg hc he hh hby => simp [hf, hg]
  | ready b hop hf hb hg => simp [hf, hg]
  | cancel hg => simp [hg]

theorem step_concurrent {cr : Crypto} {s t : ForkContract} {op : ForkOp} (h : Step cr s op t)
    (hs : s.activeForks.length ≤ maxConcurrentForks) : t.activeForks.length ≤ maxConcurrentForks := by
  rw [activeForks_length] at hs ⊢
  cases h with
  | quiet hp hq =>
    rw [hp]
    exact hs
  | snapshot i f n hf hdecl hnone hsn hp he hl =>
    rw [hp]
    exact hs
  | propose f b hb hnew hp hf hat hid hh hfew hcool hq =>
    rw [activeForks_length] at hfew
    have hsum := SortedMap.sumOf_insert weight s.proposals f.id f
    have hone : weight f.id f ≤ 1 := by
      unfold weight
      split <;> omega
    rw [hnew] at hsum
    simp only [Option.elim_none] at hsum
    rw [hp]
    omega
  | turn i f g hf hp hturn hq =>
    have hsum := SortedMap.sumOf_insert weight s.proposals i g
    have hle := hturn.weight_le
    rw [hf] at hsum
    simp only [Option.elim_some] at hsum
    rw [hp]
    omega
  | execute i f c b hop hf hready hb hp hl he hsn =>
    have hsum := SortedMap.sumOf_erase weight s.proposals i
    rw [hp]
    omega

/-! ## Preparation -/

def statusOf (s : ForkContract) (id : Hash) : Option ForkStatus :=
  (s.proposals.find? id).map ForkDeclaration.status

/-- The fork has the status, with the given type and end of its preparation. -/
def Phase (id : Hash) (ty : ForkType) (p : Nat) (st : ForkStatus) (s : ForkContract) : Prop :=
  ∃ f, s.proposals.find? id = some f ∧ f.status = st ∧ f.forkType = ty ∧ f.preparationEnds = p

theorem Phase.statusOf {id : Hash} {ty : ForkType} {p : Nat} {st : ForkStatus} {s : ForkContract}
    (h : s.Phase id ty p st) : s.statusOf id = some st := by
  obtain ⟨f, hf, hst, -⟩ := h
  unfold ForkContract.statusOf
  rw [hf, Option.map_some, hst]

theorem not_phase_new (id : Hash) (ty : ForkType) (p : Nat) (st : ForkStatus) : ¬ new.Phase id ty p st := by
  rintro ⟨f, hf, -⟩
  cases hf

/-- A fork that is past its proposal got there by a change of the fork of that id. -/
theorem phase_enters (cr : Crypto) (s : ForkContract) (op : ForkOp) (id : Hash) (ty : ForkType) (p : Nat)
    (st : ForkStatus) (hne : st ≠ .proposed) (hout : ¬ s.Phase id ty p st)
    (hin : (s.apply cr op).Phase id ty p st) :
    ∃ f g, s.proposals.find? id = some f ∧ Turn s op id f g ∧ g.status = st ∧ g.forkType = ty ∧
      g.preparationEnds = p := by
  obtain ⟨g, hg, hst, hty, hp⟩ := hin
  have hc := change_apply cr s op id
  rw [hg] at hc
  generalize ho : s.proposals.find? id = o at hc
  cases hc with
  | same => exact absurd ⟨g, ho, hst, hty, hp⟩ hout
  | propose _ b hb hf hcool => exact absurd (hst.symm.trans hf) hne
  | turn f _ h => exact ⟨f, g, rfl, h, hst, hty, hp⟩

/-- A fork becomes ready from its declaration, after its preparation. -/
theorem phase_ready (cr : Crypto) (s : ForkContract) (op : ForkOp) (id : Hash) (ty : ForkType) (p : Nat)
    (hout : ¬ s.Phase id ty p .ready) (hin : (s.apply cr op).Phase id ty p .ready) :
    ∃ u, op = .markReady id u ∧ p ≤ u ∧ s.Phase id ty p .declared := by
  obtain ⟨f, g, ho, h, hst, hty, hp⟩ := phase_enters cr s op id ty p .ready (by decide) hout hin
  cases h with
  | support hf hg' hc he hh =>
    rw [hg'] at hst
    cases hst
  | declare b hb hf hg' hc he hh hby =>
    rw [hg'] at hst
    cases hst
  | ready u hop hf hu hg' =>
    subst hg'
    exact ⟨u, hop, by rw [← hp]; exact hu, f, ho, hf, hty, hp⟩
  | cancel hg' =>
    rw [hg'] at hst
    cases hst

/-- A fork becomes declared from its proposal, and the preparation starts. -/
theorem phase_declared (cr : Crypto) (s : ForkContract) (op : ForkOp) (id : Hash) (ty : ForkType) (p : Nat)
    (hout : ¬ s.Phase id ty p .declared) (hin : (s.apply cr op).Phase id ty p .declared) :
    ∃ b, op.block = some b ∧ b + ty.minPreparationPeriod = p ∧ s.statusOf id = some .proposed := by
  obtain ⟨f, g, ho, h, hst, hty, hp⟩ := phase_enters cr s op id ty p .declared (by decide) hout hin
  cases h with
  | support hf hg' hc he hh =>
    rw [hg'] at hst
    cases hst
  | declare b hb hf hg' hc he hh hby =>
    refine ⟨b, hb, ?_, ?_⟩
    · rw [← hty, hc.2.2.1, ← hp, he]
    · unfold ForkContract.statusOf
      rw [ho, Option.map_some, hf]
  | ready u hop hf hu hg' =>
    rw [hg'] at hst
    cases hst
  | cancel hg' =>
    rw [hg'] at hst
    cases hst

/-- The run declared the fork and marked it ready no earlier than its preparation period
later; it has been ready since. -/
def PreparedFor (cr : Crypto) (ops : List ForkOp) (id : Hash) (ty : ForkType) : Prop :=
  ∃ l₁ a l₂ b l₃ t u, ops = l₁ ++ a :: (l₂ ++ b :: l₃) ∧ a.block = some t ∧ b = .markReady id u ∧
    (after cr l₁).statusOf id = some .proposed ∧
    (∀ k, (after cr (l₁ ++ a :: l₂.take k)).statusOf id = some .declared) ∧
    (∀ k, (after cr (l₁ ++ a :: (l₂ ++ b :: l₃.take k))).statusOf id = some .ready) ∧
    t + ty.minPreparationPeriod ≤ u

theorem preparedFor_of_ready (cr : Crypto) (ops : List ForkOp) (id : Hash) (f : ForkDeclaration)
    (hf : (after cr ops).proposals.find? id = some f) (hready : f.status = .ready) :
    PreparedFor cr ops id f.forkType := by
  have hphase : (after cr ops).Phase id f.forkType f.preparationEnds .ready := ⟨f, hf, hready, rfl, rfl⟩
  obtain ⟨l, b, l₃, rfl, hout, hin⟩ := Run.entered (apply cr) (Phase id f.forkType f.preparationEnds .ready) .new
    ops (not_phase_new _ _ _ _) hphase
  have hfirst := hin 0
  rw [List.take_zero, List.foldl_append] at hfirst
  obtain ⟨u, hb, hu, hdecl⟩ := phase_ready cr _ b id _ _ hout hfirst
  -- the state before was declared: when did it become so?
  obtain ⟨l₁, a, l₂, rfl, hout', hin'⟩ := Run.entered (apply cr) (Phase id f.forkType f.preparationEnds .declared)
    .new l (not_phase_new _ _ _ _) hdecl
  have hfirst' := hin' 0
  rw [List.take_zero, List.foldl_append] at hfirst'
  obtain ⟨t, ha, ht, hprop⟩ := phase_declared cr _ a id _ _ hout' hfirst'
  refine ⟨l₁, a, l₂, b, l₃, t, u, by simp, ha, hb, hprop, ?_, ?_, by omega⟩
  · intro k
    exact (hin' k).statusOf
  · intro k
    have hk := (hin k).statusOf
    rw [List.append_assoc, List.cons_append] at hk
    exact hk

/-! ## Runs -/

/-- The call executes the fork at the block. -/
def Executes (s : ForkContract) (op : ForkOp) (id : Hash) (b : Nat) : Prop :=
  ∃ c t, op = .executeFork id c b ∧ s.executeFork id c b = .ok t

/-- The call adds the fork to the proposals. -/
def Proposes (cr : Crypto) (s : ForkContract) (op : ForkOp) (id : Hash) : Prop :=
  s.proposals.find? id = none ∧ (s.apply cr op).statusOf id = some .proposed

/-- The call declares the fork for the number of its supporters. -/
def DeclaresByValidators (cr : Crypto) (s : ForkContract) (op : ForkOp) (id : Hash) (g : ForkDeclaration) : Prop :=
  s.statusOf id = some .proposed ∧ (s.apply cr op).proposals.find? id = some g ∧ g.status = .declared ∧
    ∃ n m p, g.declaredBy = .validators n m p

/-- The accounts among the supporters that have voting power. -/
def poweredSupporters (s : ForkContract) (g : ForkDeclaration) : Finset AccountId :=
  g.supportingValidators.filter fun v => s.votingPower.contains v = true

def Concurrent (cr : Crypto) (ops : List ForkOp) : Prop :=
  ∀ k, (after cr (ops.take k)).activeForks.length ≤ maxConcurrentForks

/-- Executed forks were declared for their preparation period before they were ready. -/
def Prepared (cr : Crypto) (ops : List ForkOp) : Prop :=
  ∀ pre op post id b, ops = pre ++ op :: post → Executes (after cr pre) op id b →
    ∃ f, (after cr pre).proposals.find? id = some f ∧ PreparedFor cr pre id f.forkType

/-- A fork is its name and the block of its proposal, which make up its id. -/
def ExecutedOnce (cr : Crypto) (ops : List ForkOp) : Prop :=
  ∀ k, ((after cr (ops.take k)).executedForks.map fun f => (f.name, f.declaredAt)).Nodup

/-- Forks are legitimate and spaced out. -/
structure Legitimate (cr : Crypto) (ops : List ForkOp) : Prop where
  concurrent : Concurrent cr ops
  supported : ∀ pre op post id g, ops = pre ++ op :: post → DeclaresByValidators cr (after cr pre) op id g →
    forkValidatorThresholdPercent * (after cr pre).votingPower.size ≤
      100 * ((after cr pre).poweredSupporters g).card
  prepared : Prepared cr ops
  snapshotted : ∀ pre op post id b, ops = pre ++ op :: post → Executes (after cr pre) op id b →
    (after cr pre).snapshots.contains id = true
  once : ExecutedOnce cr ops
  spaced : ∀ pre op mid op' post id id' b b', ops = pre ++ op :: (mid ++ op' :: post) →
    Executes (after cr pre) op id b → Executes (after cr (pre ++ op :: mid)) op' id' b' → b + forkCooldown ≤ b'

/-- Snapshots are optional, taken once and of declared forks; the share of the supporters is
theirs as long as they keep their power, and the forks proposed after an execution wait for
the cooldown. -/
structure Orderly (cr : Crypto) (ops : List ForkOp) : Prop where
  concurrent : Concurrent cr ops
  supported : ∀ pre op post id g, ops = pre ++ op :: post → DeclaresByValidators cr (after cr pre) op id g →
    (after cr pre).votingPower.size < 2 ^ 32 → (after cr pre).poweredSupporters g = g.supportingValidators →
    forkValidatorThresholdPercent * (after cr pre).votingPower.size ≤
      100 * ((after cr pre).poweredSupporters g).card
  prepared : Prepared cr ops
  snapshots : ∀ pre op post id, ops = pre ++ op :: post →
    (after cr (pre ++ [op])).snapshots.find? id = (after cr pre).snapshots.find? id ∨
      (after cr pre).snapshots.find? id = none ∧ (after cr pre).statusOf id = some .declared
  once : ExecutedOnce cr ops
  spaced : ∀ pre op mid p mid' op' post id id' b b', ops = pre ++ op :: (mid ++ p :: (mid' ++ op' :: post)) →
    Executes (after cr pre) op id b → Proposes cr (after cr (pre ++ op :: mid)) p id' →
    Executes (after cr (pre ++ op :: (mid ++ p :: mid'))) op' id' b' → b + forkCooldown ≤ b'

section Runs

variable (cr : Crypto)

theorem after_snoc (ops : List ForkOp) (op : ForkOp) : after cr (ops ++ [op]) = (after cr ops).apply cr op :=
  List.foldl_append

theorem concurrent (ops : List ForkOp) : Concurrent cr ops := by
  intro k
  refine Run.inv_foldl (apply cr) (fun _ _ => True) (fun s => s.activeForks.length ≤ maxConcurrentForks) ?_ .new
    (ops.take k) (Nat.zero_le _) (Run.meets_of_forall _ _ (fun _ _ => trivial) _ _)
  intro s op hs _
  exact step_concurrent (apply_step cr s op) hs

theorem prepared (ops : List ForkOp) : Prepared cr ops := by
  rintro pre op post id b - ⟨c, t, -, ht⟩
  obtain ⟨f, hf, hready, -⟩ := executeFork_ok _ t id c b ht
  exact ⟨f, hf, preparedFor_of_ready cr pre id f hf hready⟩

theorem le_of_meetsValidatorThreshold (n m : Nat) (hm : m < 2 ^ 32)
    (h : meetsValidatorThreshold (n % 2 ^ 32) (m % 2 ^ 32) = true) :
    forkValidatorThresholdPercent * m ≤ 100 * n := by
  unfold meetsValidatorThreshold at h
  rw [decide_eq_true_eq, Nat.mod_eq_of_lt hm] at h
  split at h
  · next hpos =>
    have hmul := (Nat.le_div_iff_mul_le hpos).mp h
    have hmin := Nat.min_le_left (n % 2 ^ 32 * 100) (2 ^ 32 - 1)
    have hmod := Nat.mod_le n (2 ^ 32)
    omega
  · exact absurd h (by decide)

theorem declaresByValidators_met (s : ForkContract) (op : ForkOp) (id : Hash) (g : ForkDeclaration)
    (h : DeclaresByValidators cr s op id g) :
    meetsValidatorThreshold (g.supportingValidators.card % 2 ^ 32) (s.votingPower.size % 2 ^ 32) = true := by
  obtain ⟨hbefore, hg, hst, n, m, p, hby⟩ := h
  unfold ForkContract.statusOf at hbefore
  have hc := change_apply cr s op id
  rw [hg] at hc
  generalize ho : s.proposals.find? id = o at hc hbefore
  cases hc with
  | same =>
    rw [Option.map_some, hst] at hbefore
    cases hbefore
  | propose _ b hb hf hcool => cases hbefore
  | turn f _ h =>
    cases h with
    | support hf hg' hc he hh =>
      rw [hg'] at hst
      cases hst
    | declare b hb hf hg' hc he hh hmet => exact hmet n m p hby
    | ready u hop hf hu hg' =>
      rw [hg'] at hst
      cases hst
    | cancel hg' =>
      rw [hg'] at hst
      cases hst

theorem snapshot_step (s : ForkContract) (op : ForkOp) (id : Hash) :
    (s.apply cr op).snapshots.find? id = s.snapshots.find? id ∨
      s.snapshots.find? id = none ∧ s.statusOf id = some .declared := by
  cases apply_step cr s op with
  | quiet hp hq => exact .inl (by rw [hq.snapshots])
  | propose f b hb hnew hp hf hat hid hh hfew hcool hq => exact .inl (by rw [hq.snapshots])
  | turn i f g hf hp hturn hq => exact .inl (by rw [hq.snapshots])
  | execute i f c b hop hf hready hb hp hl he hs => exact .inl (by rw [hs])
  | snapshot i f n hf hdecl hnone hs hp he hl =>
    by_cases hi : id = i
    · subst hi
      refine .inr ⟨hnone, ?_⟩
      unfold ForkContract.statusOf
      rw [hf, Option.map_some, hdecl]
    · exact .inl (by rw [hs, SortedMap.find?_insert_ne _ _ _ _ hi])

/-! ### Cooldown -/

/-- The last execution was at the block or later. -/
def ExecutedSince (b : Nat) (s : ForkContract) : Prop := ∃ l, s.lastForkExecuted = some l ∧ b ≤ l

theorem ExecutedSince.apply {b : Nat} {s : ForkContract} (h : s.ExecutedSince b) (op : ForkOp)
    (hop : ∀ c, op.block = some c → b ≤ c) : (s.apply cr op).ExecutedSince b := by
  obtain ⟨l, hl, hb⟩ := h
  cases apply_step cr s op with
  | quiet hp hq => exact ⟨l, hq.last.trans hl, hb⟩
  | propose f _ _ hnew hp hf hat hid hh hfew hcool hq => exact ⟨l, hq.last.trans hl, hb⟩
  | turn i f g hf hp hturn hq => exact ⟨l, hq.last.trans hl, hb⟩
  | snapshot i f n hf hdecl hnone hs hp he hl' => exact ⟨l, hl'.trans hl, hb⟩
  | execute i f c b' hop' hf hready hb' hp hl' he hs =>
    subst hop'
    exact ⟨b', hl', hop b' rfl⟩

theorem ExecutedSince.foldl {b : Nat} {s : ForkContract} (h : s.ExecutedSince b) (ops : List ForkOp)
    (hops : ∀ c ∈ ops.filterMap ForkOp.block, b ≤ c) : (ops.foldl (ForkContract.apply cr) s).ExecutedSince b := by
  refine Run.inv_foldl (ForkContract.apply cr) (fun _ op => ∀ c, op.block = some c → b ≤ c) (ExecutedSince b) ?_ s
    ops h ?_
  · intro t op ht hop
    exact ht.apply cr op hop
  · rw [Run.meets_iff_split]
    rintro pre op post rfl c hc
    apply hops
    rw [List.mem_filterMap]
    exact ⟨op, by simp, hc⟩

theorem executedSince_of_executes (s : ForkContract) (op : ForkOp) (id : Hash) (b : Nat) (h : Executes s op id b) :
    (s.apply cr op).ExecutedSince b := by
  obtain ⟨c, t, rfl, ht⟩ := h
  obtain ⟨f, -, -, -, ht'⟩ := executeFork_ok s t id c b ht
  refine ⟨b, ?_, le_refl b⟩
  show ((s.executeFork id c b).orKeep s).lastForkExecuted = some b
  rw [ht, ht']
  rfl

/-- A proposal waits for the cooldown. -/
theorem proposes_cooldown (s : ForkContract) (op : ForkOp) (id : Hash) (b : Nat) (h : Proposes cr s op id)
    (hs : s.ExecutedSince b) : ∃ c, op.block = some c ∧ b + forkCooldown ≤ c := by
  obtain ⟨hnone, hafter⟩ := h
  unfold ForkContract.statusOf at hafter
  obtain ⟨f, hf, -⟩ := Option.map_eq_some_iff.mp hafter
  have hc := change_apply cr s op id
  rw [hnone, hf] at hc
  cases hc with
  | propose _ c hc hst hcool =>
    obtain ⟨l, hl, hbl⟩ := hs
    have := hcool l hl
    exact ⟨c, hc, by omega⟩

theorem spaced (pre : List ForkOp) (op : ForkOp) (mid : List ForkOp) (p : ForkOp) (mid' : List ForkOp)
    (op' : ForkOp) (post : List ForkOp) (id id' : Hash) (b b' : Nat)
    (hblocks : ((pre ++ op :: (mid ++ p :: (mid' ++ op' :: post))).filterMap ForkOp.block).Pairwise (· ≤ ·))
    (hex : Executes (after cr pre) op id b) (hprop : Proposes cr (after cr (pre ++ op :: mid)) p id')
    (hex' : Executes (after cr (pre ++ op :: (mid ++ p :: mid'))) op' id' b') : b + forkCooldown ≤ b' := by
  have hop : op.block = some b := by
    obtain ⟨c, t, rfl, -⟩ := hex
    rfl
  have hop' : op'.block = some b' := by
    obtain ⟨c, t, rfl, -⟩ := hex'
    rfl
  rw [List.filterMap_append, List.filterMap_cons_some hop, List.filterMap_append,
    List.pairwise_append] at hblocks
  obtain ⟨-, hrest, -⟩ := hblocks
  rw [List.pairwise_cons] at hrest
  obtain ⟨hfirst, hrest⟩ := hrest
  have hsince : (after cr (pre ++ op :: mid)).ExecutedSince b := by
    unfold after
    rw [List.foldl_append, List.foldl_cons]
    apply (executedSince_of_executes cr _ op id b hex).foldl cr mid
    intro c hc
    exact hfirst c (List.mem_append_left _ hc)
  obtain ⟨c, hc, hle⟩ := proposes_cooldown cr _ p id' b hprop hsince
  rw [List.filterMap_cons_some hc, List.filterMap_append, List.filterMap_cons_some hop', List.pairwise_append] at hrest
  have hcb : c ≤ b' := (List.pairwise_cons.mp hrest.2.1).1 b' (by simp)
  omega

/-! ### One execution of a fork -/

/-- What makes up the id of a fork. -/
def key (f : ForkDeclaration) : String × Nat := (f.name, f.declaredAt)

/-- Pending forks are stored under the digest of their key, executed forks are over, and
no fork is among both. -/
structure Keyed (ops : List ForkOp) (s : ForkContract) : Prop where
  stored : ∀ id f, s.proposals.find? id = some f →
    id = ForkDeclaration.forkId cr f.name f.declaredAt ∧ f.declaredAt < f.forkHeight ∧
      ∃ c ∈ ops.filterMap ForkOp.block, f.declaredAt ≤ c
  past : ∀ e ∈ s.executedForks, ∃ c ∈ ops.filterMap ForkOp.block, e.declaredAt < c
  apart : ∀ e ∈ s.executedForks, ∀ id f, s.proposals.find? id = some f → key f ≠ key e
  nodup : (s.executedForks.map key).Nodup

theorem keyed_new : Keyed cr [] new := by
  refine ⟨?_, ?_, ?_, List.nodup_nil⟩
  · intro id f hf
    cases hf
  · intro e he
    cases he
  · intro e he
    cases he

section Step

variable {cr} {ops : List ForkOp} {s t : ForkContract} {op : ForkOp} (hk : Keyed cr ops s)
  (hlate : ∀ c ∈ ops.filterMap ForkOp.block, ∀ b, op.block = some b → c ≤ b)

include hk

theorem Keyed.quiet (hp : t.proposals = s.proposals) (he : t.executedForks = s.executedForks) :
    Keyed cr (ops ++ [op]) t := by
  refine ⟨?_, ?_, ?_, ?_⟩
  · intro id f hf
    rw [hp] at hf
    obtain ⟨hid, hh, c, hc, hle⟩ := hk.stored id f hf
    exact ⟨hid, hh, c, by simp [hc], hle⟩
  · intro e hmem
    rw [he] at hmem
    obtain ⟨c, hc, hlt⟩ := hk.past e hmem
    exact ⟨c, by simp [hc], hlt⟩
  · rw [he, hp]
    exact hk.apart
  · rw [he]
    exact hk.nodup

include hlate

/-- A fork is proposed after all blocks of the run. -/
theorem Keyed.propose (f : ForkDeclaration) (b : Nat) (hb : op.block = some b)
    (hp : t.proposals = s.proposals.insert f.id f) (hat : f.declaredAt = b)
    (hid : f.id = ForkDeclaration.forkId cr f.name b) (hh : b < f.forkHeight)
    (he : t.executedForks = s.executedForks) : Keyed cr (ops ++ [op]) t := by
  have hq : Keyed cr (ops ++ [op]) { t with proposals := s.proposals } := hk.quiet rfl he
  refine ⟨?_, hq.past, ?_, hq.nodup⟩
  · intro i g hg
    rw [hp] at hg
    by_cases hi : i = f.id
    · subst hi
      rw [SortedMap.find?_insert_self] at hg
      obtain rfl := Option.some.inj hg
      exact ⟨by rw [hat]; exact hid, by omega, b, by simp [hb], by omega⟩
    · rw [SortedMap.find?_insert_ne _ _ _ _ hi] at hg
      exact hq.stored i g hg
  · intro e hmem i g hg
    rw [hp] at hg
    rw [he] at hmem
    by_cases hi : i = f.id
    · subst hi
      rw [SortedMap.find?_insert_self] at hg
      obtain rfl := Option.some.inj hg
      obtain ⟨c, hc, hlt⟩ := hk.past e hmem
      have hcb := hlate c hc b hb
      intro heq
      have : f.declaredAt = e.declaredAt := congrArg Prod.snd heq
      omega
    · rw [SortedMap.find?_insert_ne _ _ _ _ hi] at hg
      exact hk.apart e hmem i g hg

theorem Keyed.turn (id : Hash) (f g : ForkDeclaration) (hf : s.proposals.find? id = some f)
    (hp : t.proposals = s.proposals.insert id g) (hturn : Turn s op id f g)
    (he : t.executedForks = s.executedForks) : Keyed cr (ops ++ [op]) t := by
  have hq : Keyed cr (ops ++ [op]) { t with proposals := s.proposals } := hk.quiet rfl he
  obtain ⟨-, hname, -, hat⟩ := hturn.core
  obtain ⟨hid, hh, c, hc, hle⟩ := hk.stored id f hf
  have hheight : g.declaredAt < g.forkHeight := by
    rw [hat]
    cases hturn with
    | support _ _ _ _ hh' => omega
    | declare b hb _ _ _ _ hh' _ =>
      have := hlate c hc b hb
      omega
    | ready b hop _ _ hg =>
      subst hg
      exact hh
    | cancel hg =>
      subst hg
      exact hh
  refine ⟨?_, hq.past, ?_, hq.nodup⟩
  · intro i k hk'
    rw [hp] at hk'
    by_cases hi : i = id
    · subst hi
      rw [SortedMap.find?_insert_self] at hk'
      obtain rfl := Option.some.inj hk'
      exact ⟨by rw [hname, hat]; exact hid, hheight, c, by simp [hc], by omega⟩
    · rw [SortedMap.find?_insert_ne _ _ _ _ hi] at hk'
      exact hq.stored i k hk'
  · intro e hmem i k hk'
    rw [hp] at hk'
    rw [he] at hmem
    by_cases hi : i = id
    · subst hi
      rw [SortedMap.find?_insert_self] at hk'
      obtain rfl := Option.some.inj hk'
      have hkey : key g = key f := Prod.ext hname hat
      rw [hkey]
      exact hk.apart e hmem i f hf
    · rw [SortedMap.find?_insert_ne _ _ _ _ hi] at hk'
      exact hk.apart e hmem i k hk'

omit hlate in
/-- The executed fork leaves the proposals; the others have other keys, since they have other ids. -/
theorem Keyed.execute (id : Hash) (f : ForkDeclaration) (c : ChainId) (b : Nat) (hb : op.block = some b)
    (hf : s.proposals.find? id = some f) (hheight : f.forkHeight ≤ b) (hp : t.proposals = s.proposals.erase id)
    (he : t.executedForks = s.executedForks ++ [{ f with status := .executed, newChainId := some c }]) :
    Keyed cr (ops ++ [op]) t := by
  have hq : Keyed cr (ops ++ [op]) { t with proposals := s.proposals, executedForks := s.executedForks } :=
    hk.quiet rfl rfl
  obtain ⟨hid, hh, -⟩ := hk.stored id f hf
  have hkept : ∀ i g, t.proposals.find? i = some g → s.proposals.find? i = some g ∧ i ≠ id := by
    intro i g hg
    rw [hp, SortedMap.find?_erase] at hg
    split at hg
    · cases hg
    · next hi => exact ⟨hg, hi⟩
  refine ⟨?_, ?_, ?_, ?_⟩
  · intro i g hg
    exact hq.stored i g (hkept i g hg).1
  · intro e hmem
    rw [he, List.mem_append, List.mem_singleton] at hmem
    rcases hmem with hmem | rfl
    · exact hq.past e hmem
    · exact ⟨b, by simp [hb], by show f.declaredAt < b; omega⟩
  · intro e hmem i g hg
    obtain ⟨hg', hi⟩ := hkept i g hg
    rw [he, List.mem_append, List.mem_singleton] at hmem
    rcases hmem with hmem | rfl
    · exact hk.apart e hmem i g hg'
    · intro heq
      have hname : g.name = f.name := congrArg Prod.fst heq
      have hat : g.declaredAt = f.declaredAt := congrArg Prod.snd heq
      apply hi
      rw [(hk.stored i g hg').1, hname, hat, ← hid]
  · rw [he, List.map_append, List.nodup_append]
    refine ⟨hk.nodup, List.nodup_singleton _, ?_⟩
    intro k hmem k' hmem'
    obtain ⟨e, he', rfl⟩ := List.mem_map.mp hmem
    rw [List.map_singleton, List.mem_singleton] at hmem'
    subst hmem'
    exact (hk.apart e he' id f hf).symm

theorem Keyed.step (h : Step cr s op t) : Keyed cr (ops ++ [op]) t := by
  cases h with
  | quiet hp hq => exact hk.quiet hp hq.executed
  | propose f b hb hnew hp hf hat hid hh hfew hcool hq => exact hk.propose hlate f b hb hp hat hid hh hq.executed
  | turn id f g hf hp hturn hq => exact hk.turn hlate id f g hf hp hturn hq.executed
  | snapshot id f n hf hdecl hnone hs hp he hl => exact hk.quiet hp he
  | execute id f c b hop hf hready hb hp hl he hs =>
    exact hk.execute id f c b (by rw [hop]; rfl) hf hb hp he

end Step

theorem keyed_after (ops : List ForkOp) (hblocks : (ops.filterMap ForkOp.block).Pairwise (· ≤ ·)) :
    Keyed cr ops (after cr ops) := by
  induction ops using List.reverseRecOn with
  | nil => exact keyed_new cr
  | append_singleton ops op ih =>
    rw [List.filterMap_append, List.pairwise_append] at hblocks
    rw [after_snoc]
    apply (ih hblocks.1).step
    · intro c hc b hb
      exact hblocks.2.2 c hc b (by simp [hb])
    · exact apply_step cr _ op

theorem executedOnce (ops : List ForkOp) (hblocks : (ops.filterMap ForkOp.block).Pairwise (· ≤ ·)) :
    ExecutedOnce cr ops := by
  intro k
  apply (keyed_after cr (ops.take k) _).nodup
  exact List.Pairwise.sublist ((List.take_sublist k ops).filterMap ForkOp.block) hblocks

end Runs

/-! ## A fork without a snapshot -/

def sampleForkId : Hash := ForkDeclaration.forkId Crypto.sample "A" 0

/-- A fork is declared at once and executed as early as possible. -/
def sampleFork : List ForkOp :=
  [ForkOp.setVotingPower ⟨1⟩ 10, ForkOp.setVotingPower ⟨2⟩ 10,
    ForkOp.proposeFork ⟨1⟩ "A" (.survival "") "" forkProposalDeposit 0,
    ForkOp.supportFork sampleForkId ⟨2⟩ 0 0, ForkOp.markReady sampleForkId 432000,
    ForkOp.executeFork sampleForkId ⟨100⟩ 446400]

end ForkContract

end Kratos
