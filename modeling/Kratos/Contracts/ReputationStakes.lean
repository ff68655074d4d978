import Kratos.Contracts.Reputation
import Kratos.Lib.Listed

/-!
# The books of the reputation stakes

`StakeEffect` says what a call can do to the stakes: nothing, a new stake, a withdrawal or
a slash, each with the money it moves.  In every run in which no stake is created where
one of the same staker for the same identity from the same block is stored, the running
total is the sum of the stakes, what was staked is held, withdrawn or taken as a penalty,
and each stake is listed once under its staker and under its identity
(`stakes_conserved`).  Stakes that were not slashed can be withdrawn in full after the
lock; what is left of a slashed stake cannot be withdrawn.
-/

namespace Kratos

/-- What the id of a new stake is made of. -/
def ReputationOp.staked : ReputationOp → Option (AccountId × IdentityId × Nat)
  | createStake staker id _ _ block => some (staker, id, block)
  | _ => none

namespace ReputationRegistry

/-! ## Money moved by a call -/

/-- What a call stakes. -/
def created (cr : Crypto) (boost : Balance → Nat) (r : ReputationRegistry) : ReputationOp → Nat
  | .createStake staker id amount domain block =>
    match r.createStake cr boost staker id amount domain block with
    | .ok _ => amount.val
    | .error _ => 0
  | _ => 0

/-- What a call pays back. -/
def withdrawn (r : ReputationRegistry) : ReputationOp → Nat
  | .withdrawStake id withdrawer block =>
    match r.withdrawStake id withdrawer block with
    | .ok (_, amount) => amount.val
    | .error _ => 0
  | _ => 0

/-- What a call takes as a penalty. -/
def penalised (r : ReputationRegistry) : ReputationOp → Nat
  | .slashStake id percent =>
    match r.slashStake id percent with
    | .ok (_, penalty) => penalty
    | .error _ => 0
  | _ => 0

/-- The money in the stored stakes. -/
def stakedSum (r : ReputationRegistry) : Nat := SortedMap.sumOf (fun _ s => s.amount.val) r.stakes

/-! ## Slashing -/

theorem penalty_le (s : ReputationStake) (percent : Nat) (h : percent ≤ 100) : s.penalty percent ≤ s.amount.val := by
  unfold ReputationStake.penalty
  apply Nat.div_le_of_le_mul
  calc min (s.amount.val % 2 ^ 64 * percent) Word.u64Max
      ≤ s.amount.val % 2 ^ 64 * percent := Nat.min_le_left _ _
    _ ≤ s.amount.val * 100 := Nat.mul_le_mul (Nat.mod_le _ _) h
    _ = 100 * s.amount.val := Nat.mul_comm _ _

/-- A slash takes its penalty off the amount and leaves the rest of the data. -/
structure Slashed (s s' : ReputationStake) (penalty : Nat) : Prop where
  amount : s'.amount.val + penalty = s.amount.val
  staker : s'.staker = s.staker
  identityId : s'.identityId = s.identityId
  stakedAt : s'.stakedAt = s.stakedAt
  lockedUntil : s'.lockedUntil = s.lockedUntil

theorem slashed_slash (s : ReputationStake) (percent : Nat) (h : percent ≤ 100) :
    Slashed s (s.slash percent).1 (s.slash percent).2 := by
  unfold ReputationStake.slash
  split
  · exact ⟨rfl, rfl, rfl, rfl, rfl⟩
  · exact ⟨Nat.sub_add_cancel (penalty_le s percent h), rfl, rfl, rfl, rfl⟩

/-! ## Effects -/

/-- What a call can do to the stakes, with the money it moves. -/
inductive StakeEffect (cr : Crypto) (boost : Balance → Nat) (r : ReputationRegistry) (op : ReputationOp)
    (r' : ReputationRegistry) : Prop where
  | keeps (hstakes : r'.stakes = r.stakes) (hstaker : r'.stakesByStaker = r.stakesByStaker)
      (hidentity : r'.stakesByIdentity = r.stakesByIdentity) (htotal : r'.totalStaked = r.totalStaked)
      (hcreated : r.created cr boost op = 0) (hwithdrawn : r.withdrawn op = 0) (hpenalised : r.penalised op = 0)
  | creates (staker : AccountId) (id : IdentityId) (amount : Balance) (domain : Option ReputationDomain) (block : Nat)
      (s : ReputationStake) (hstaked : op.staked = some (staker, id, block))
      (hnew : ReputationStake.new cr boost staker id amount domain block = some s) (hafter : r' = r.addStake s)
      (hcreated : r.created cr boost op = amount.val) (hwithdrawn : r.withdrawn op = 0)
      (hpenalised : r.penalised op = 0)
  | withdraws (id : Hash) (s : ReputationStake) (hs : r.stakes.find? id = some s) (hafter : r' = r.removeStake id s)
      (hcreated : r.created cr boost op = 0) (hwithdrawn : r.withdrawn op = s.amount.val)
      (hpenalised : r.penalised op = 0)
  | slashes (id : Hash) (s s' : ReputationStake) (penalty : Nat) (hs : r.stakes.find? id = some s)
      (hslashed : Slashed s s' penalty) (hstakes : r'.stakes = r.stakes.insert id s')
      (hstaker : r'.stakesByStaker = r.stakesByStaker) (hidentity : r'.stakesByIdentity = r.stakesByIdentity)
      (htotal : r'.totalStaked.val = r.totalStaked.val - penalty) (hcreated : r.created cr boost op = 0)
      (hwithdrawn : r.withdrawn op = 0) (hpenalised : r.penalised op = penalty)

/-- A penalty is a percentage. -/
def Percentage : ReputationOp → Prop
  | .slashStake _ percent => percent ≤ 100
  | _ => True

theorem keeps_refl (cr : Crypto) (boost : Balance → Nat) (r : ReputationRegistry) (op : ReputationOp)
    (hcreated : r.created cr boost op = 0) (hwithdrawn : r.withdrawn op = 0) (hpenalised : r.penalised op = 0) :
    StakeEffect cr boost r op r :=
  .keeps rfl rfl rfl rfl hcreated hwithdrawn hpenalised

theorem keeps_withReputation (cr : Crypto) (boost : Balance → Nat) (r : ReputationRegistry) (op : ReputationOp)
    (id : IdentityId) (f : MultiDimensionalReputation → MultiDimensionalReputation)
    (hcreated : r.created cr boost op = 0) (hwithdrawn : r.withdrawn op = 0) (hpenalised : r.penalised op = 0) :
    StakeEffect cr boost r op ((r.withReputation id f).orKeep r) := by
  unfold withReputation
  split
  · exact keeps_refl cr boost r op hcreated hwithdrawn hpenalised
  · exact .keeps rfl rfl rfl rfl hcreated hwithdrawn hpenalised

theorem createStake_effect (cr : Crypto) (boost : Balance → Nat) (r : ReputationRegistry) (staker : AccountId)
    (id : IdentityId) (amount : Balance) (domain : Option ReputationDomain) (block : Nat) :
    StakeEffect cr boost r (.createStake staker id amount domain block)
      (r.apply cr boost (.createStake staker id amount domain block)) := by
  show StakeEffect cr boost r _ (((r.createStake cr boost staker id amount domain block).map Prod.fst).orKeep r)
  cases h : r.createStake cr boost staker id amount domain block with
  | error e => exact keeps_refl cr boost r _ (by rw [created, h]) rfl rfl
  | ok x =>
    obtain ⟨r', stakeId⟩ := x
    have hcreated : r.created cr boost (.createStake staker id amount domain block) = amount.val := by
      rw [created, h]
    obtain ⟨-, s, hs, hafter⟩ := createStake_ok h
    exact .creates staker id amount domain block s rfl hs hafter hcreated rfl rfl

theorem withdrawStake_effect (cr : Crypto) (boost : Balance → Nat) (r : ReputationRegistry) (id : Hash)
    (withdrawer : AccountId) (block : Nat) :
    StakeEffect cr boost r (.withdrawStake id withdrawer block)
      (r.apply cr boost (.withdrawStake id withdrawer block)) := by
  show StakeEffect cr boost r _ (((r.withdrawStake id withdrawer block).map Prod.fst).orKeep r)
  cases h : r.withdrawStake id withdrawer block with
  | error e => exact keeps_refl cr boost r _ rfl (by rw [withdrawn, h]) rfl
  | ok x =>
    obtain ⟨r', amount⟩ := x
    have hwithdrawn : r.withdrawn (.withdrawStake id withdrawer block) = amount.val := by
      rw [withdrawn, h]
    obtain ⟨s, hs, -, -, hafter, hamount⟩ := withdrawStake_ok h
    rw [hamount] at hwithdrawn
    exact .withdraws id s hs hafter rfl hwithdrawn rfl

theorem slashStake_effect (cr : Crypto) (boost : Balance → Nat) (r : ReputationRegistry) (id : Hash) (percent : Nat)
    (hpercent : percent ≤ 100) :
    StakeEffect cr boost r (.slashStake id percent) (r.apply cr boost (.slashStake id percent)) := by
  show StakeEffect cr boost r _ (((r.slashStake id percent).map Prod.fst).orKeep r)
  cases h : r.slashStake id percent with
  | error e => exact keeps_refl cr boost r _ rfl rfl (by rw [penalised, h])
  | ok x =>
    obtain ⟨r', penalty⟩ := x
    have hpenalised : r.penalised (.slashStake id percent) = penalty := by
      rw [penalised, h]
    obtain ⟨s, hs, hpenalty, hafter⟩ := slashStake_ok h
    rw [hpenalty] at hpenalised
    rw [Except.map, Except.orKeep, hafter]
    exact .slashes id s (s.slash percent).1 (s.slash percent).2 hs (slashed_slash s percent hpercent) rfl rfl rfl
      rfl rfl rfl hpenalised

theorem apply_stakeEffect (cr : Crypto) (boost : Balance → Nat) (r : ReputationRegistry) (op : ReputationOp)
    (h : Percentage op) : StakeEffect cr boost r op (r.apply cr boost op) := by
  cases op with
  | initializeReputation id block =>
    show StakeEffect cr boost r _ (r.initializeReputation id block)
    unfold initializeReputation
    split
    · exact keeps_refl cr boost r _ rfl rfl rfl
    · exact .keeps rfl rfl rfl rfl rfl rfl rfl
  | addReputation id domain points block => exact keeps_withReputation cr boost r _ id _ rfl rfl rfl
  | slashReputation id domain percent => exact keeps_withReputation cr boost r _ id _ rfl rfl rfl
  | applyDecay block => exact .keeps rfl rfl rfl rfl rfl rfl rfl
  | createStake staker id amount domain block => exact createStake_effect cr boost r staker id amount domain block
  | withdrawStake id withdrawer block => exact withdrawStake_effect cr boost r id withdrawer block
  | slashStake id percent => exact slashStake_effect cr boost r id percent h
  | importReputation chain source target score proof block =>
    apply Except.orKeep_of (StakeEffect cr boost r _)
    · exact keeps_refl cr boost r _ rfl rfl rfl
    · intro r' hr'
      obtain ⟨imports, rfl⟩ := importReputation_ok hr'
      exact .keeps rfl rfl rfl rfl rfl rfl rfl
  | verifyImport id chain =>
    apply Except.orKeep_of (StakeEffect cr boost r _)
    · exact keeps_refl cr boost r _ rfl rfl rfl
    · intro r' hr'
      obtain ⟨imports, rfl⟩ := verifyImport_ok hr'
      exact .keeps rfl rfl rfl rfl rfl rfl rfl
  | giveEndorsement endorser identity target domain context block registry =>
    apply Except.orKeep_map_of (StakeEffect cr boost r _)
    · exact keeps_refl cr boost r _ rfl rfl rfl
    · intro r' id hr'
      obtain ⟨-, -, -, -, -, rfl, -⟩ := (giveEndorsement_ok_iff ..).1 hr'
      exact .keeps rfl rfl rfl rfl rfl rfl rfl
  | revokeEndorsement id revoker =>
    apply Except.orKeep_of (StakeEffect cr boost r _)
    · exact keeps_refl cr boost r _ rfl rfl rfl
    · intro r' hr'
      obtain ⟨e, -, -, rfl⟩ := revokeEndorsement_ok_iff.1 hr'
      exact .keeps rfl rfl rfl rfl rfl rfl rfl

/-! ## The invariant -/

/-- No stake of the same staker for the same identity from the same block is stored. -/
def Apart (r : ReputationRegistry) : ReputationOp → Prop
  | .createStake staker id _ _ block =>
    (r.stakes.values.any fun s => decide (s.staker = staker ∧ s.identityId = id ∧ s.stakedAt = block)) = false
  | _ => True

instance (r : ReputationRegistry) (op : ReputationOp) : Decidable (Apart r op) :=
  match op with
  | .createStake staker id _ _ block => inferInstanceAs (Decidable
      ((r.stakes.values.any fun s => decide (s.staker = staker ∧ s.identityId = id ∧ s.stakedAt = block)) = false))
  | .initializeReputation .. | .addReputation .. | .slashReputation .. | .applyDecay .. | .withdrawStake ..
  | .slashStake .. | .importReputation .. | .verifyImport .. | .giveEndorsement .. | .revokeEndorsement .. =>
    isTrue trivial

section Books

variable (cr : Crypto) (boost : Balance → Nat) (S : List (AccountId × IdentityId × Nat))

/-- The ids tell the data in `S` apart. -/
def SeparatesStakes : Prop :=
  ∀ x ∈ S, ∀ y ∈ S, ReputationStake.computeId cr x.1 x.2.1 x.2.2 = ReputationStake.computeId cr y.1 y.2.1 y.2.2 → x = y

/-- A call of the runs below: its stake is from `S` and apart from those stored, its penalty
is a percentage, and the total does not overflow. -/
structure Stakes (r : ReputationRegistry) (op : ReputationOp) : Prop where
  staked : ∀ x, op.staked = some x → x ∈ S
  apart : Apart r op
  percentage : Percentage op
  fits : r.totalStaked.val + r.created cr boost op < 2 ^ 128

structure StakeInv (r : ReputationRegistry) : Prop where
  total : r.totalStaked.val = r.stakedSum
  byStaker : Listed r.stakesOf ReputationStake.staker r.stakes
  byIdentity : Listed r.stakesFor ReputationStake.identityId r.stakes
  placed : ∀ id s, r.stakes.find? id = some s → (s.staker, s.identityId, s.stakedAt) ∈ S ∧
    id = ReputationStake.computeId cr s.staker s.identityId s.stakedAt ∧ s.lockedUntil = s.stakedAt + reputationStakeLock

variable {cr boost S}

theorem stakeNew_eq (staker : AccountId) (id : IdentityId) (amount : Balance) (domain : Option ReputationDomain)
    (block : Nat) (s : ReputationStake) (h : ReputationStake.new cr boost staker id amount domain block = some s) :
    s = { stakeId := ReputationStake.computeId cr staker id block, staker, identityId := id, amount
          stakedAt := block, lockedUntil := block + reputationStakeLock, domain
          multiplier := ReputationStake.calculateMultiplier boost amount, slashed := false } := by
  unfold ReputationStake.new at h
  split_ifs at h
  exact (Option.some.inj h).symm

theorem StakeInv.fresh {r : ReputationRegistry} (h : StakeInv cr S r) (hsep : SeparatesStakes cr S)
    (op : ReputationOp) (hop : Stakes cr boost S r op) (staker : AccountId) (id : IdentityId) (block : Nat)
    (hstaked : op.staked = some (staker, id, block)) :
    r.stakes.find? (ReputationStake.computeId cr staker id block) = none := by
  rw [Option.eq_none_iff_forall_not_mem]
  intro t ht
  obtain ⟨hmem, hid, -⟩ := h.placed _ t ht
  have hsame := hsep _ (hop.staked _ hstaked) _ hmem hid
  have hapart := hop.apart
  cases op with
  | createStake staker' id' amount domain block' =>
    obtain ⟨rfl, rfl, rfl⟩ : staker' = staker ∧ id' = id ∧ block' = block := by
      simpa [ReputationOp.staked] using hstaked
    have hany : (r.stakes.values.any fun s =>
        decide (s.staker = staker' ∧ s.identityId = id' ∧ s.stakedAt = block')) = true := by
      rw [List.any_eq_true]
      obtain ⟨hs, hrest⟩ := Prod.mk.inj hsame
      obtain ⟨hi, hb⟩ := Prod.mk.inj hrest
      exact ⟨t, (SortedMap.mem_values_iff r.stakes t).2 ⟨_, ht⟩, decide_eq_true ⟨hs.symm, hi.symm, hb.symm⟩⟩
    rw [Apart, hany] at hapart
    cases hapart
  | _ => cases hstaked

theorem stakesOf_addStake (r : ReputationRegistry) (s : ReputationStake) (a : AccountId) :
    (r.addStake s).stakesOf a = if a = s.staker then r.stakesOf a ++ [s.stakeId] else r.stakesOf a := by
  unfold addStake stakesOf
  by_cases h : a = s.staker
  · subst h
    simp
  · simp [SortedMap.find?_insert_ne _ _ _ _ h, h]

theorem stakesFor_addStake (r : ReputationRegistry) (s : ReputationStake) (a : IdentityId) :
    (r.addStake s).stakesFor a = if a = s.identityId then r.stakesFor a ++ [s.stakeId] else r.stakesFor a := by
  unfold addStake stakesFor
  by_cases h : a = s.identityId
  · subst h
    simp
  · simp [SortedMap.find?_insert_ne _ _ _ _ h, h]

theorem getD_unlist {κ : Type} [LinearOrder κ] [DecidableEq κ] (m : SortedMap κ (List Hash)) (k j : κ) (id : Hash) :
    ((unlist m k id).find? j).getD [] =
      if j = k then ((m.find? j).getD []).filter fun x => decide (x ≠ id) else (m.find? j).getD [] := by
  unfold unlist
  by_cases h : j = k
  · subst h
    rw [if_pos rfl]
    split
    · rename_i hnone
      rw [hnone]
      rfl
    · rename_i l hl
      rw [SortedMap.find?_insert_self, hl]
      rfl
  · rw [if_neg h]
    split
    · rfl
    · rw [SortedMap.find?_insert_ne _ _ _ _ h]

/-- A new stake. -/
theorem StakeInv.addStake {r : ReputationRegistry} (h : StakeInv cr S r) (s : ReputationStake)
    (hmem : (s.staker, s.identityId, s.stakedAt) ∈ S)
    (hid : s.stakeId = ReputationStake.computeId cr s.staker s.identityId s.stakedAt)
    (hlock : s.lockedUntil = s.stakedAt + reputationStakeLock) (hfresh : r.stakes.find? s.stakeId = none)
    (hfits : r.totalStaked.val + s.amount.val < 2 ^ 128) :
    StakeInv cr S (r.addStake s) := by
  constructor
  · have hsum := SortedMap.sumOf_insert (fun _ (t : ReputationStake) => t.amount.val) r.stakes s.stakeId s
    rw [hfresh] at hsum
    have hadd : (r.totalStaked + s.amount).val = r.totalStaked.val + s.amount.val := by
      rw [Fin.val_add, Nat.mod_eq_of_lt hfits]
    have htotal := h.total
    show (r.totalStaked + s.amount).val = SortedMap.sumOf (fun _ t => t.amount.val) (r.stakes.insert s.stakeId s)
    unfold stakedSum at htotal
    simp only [Option.elim_none] at hsum
    omega
  · exact h.byStaker.insert_fresh s.stakeId s hfresh (stakesOf_addStake r s)
  · exact h.byIdentity.insert_fresh s.stakeId s hfresh (stakesFor_addStake r s)
  · intro id t ht
    by_cases hids : id = s.stakeId
    · subst hids
      obtain rfl := Option.some.inj ((SortedMap.find?_insert_self _ _ _).symm.trans ht)
      exact ⟨hmem, hid, hlock⟩
    · exact h.placed id t ((SortedMap.find?_insert_ne _ _ _ _ hids).symm.trans ht)

/-- A stake is paid back. -/
theorem StakeInv.removeStake {r : ReputationRegistry} (h : StakeInv cr S r) (id : Hash) (s : ReputationStake)
    (hs : r.stakes.find? id = some s) : StakeInv cr S (r.removeStake id s) := by
  constructor
  · have hsum := SortedMap.sumOf_erase (fun _ (t : ReputationStake) => t.amount.val) r.stakes id
    rw [hs] at hsum
    have htotal := h.total
    show r.totalStaked.val - s.amount.val = SortedMap.sumOf (fun _ t => t.amount.val) (r.stakes.erase id)
    unfold stakedSum at htotal
    simp only [Option.elim_some] at hsum
    omega
  · exact h.byStaker.erase id s hs (fun k => getD_unlist r.stakesByStaker s.staker k id)
  · exact h.byIdentity.erase id s hs (fun k => getD_unlist r.stakesByIdentity s.identityId k id)
  · intro j t ht
    have ht' : (r.stakes.erase id).find? j = some t := ht
    rw [SortedMap.find?_erase] at ht'
    split at ht'
    · cases ht'
    · exact h.placed j t ht'

/-- A stake is slashed. -/
theorem StakeInv.slash {r : ReputationRegistry} (h : StakeInv cr S r) (r' : ReputationRegistry) (id : Hash)
    (s s' : ReputationStake) (penalty : Nat) (hs : r.stakes.find? id = some s) (hslashed : Slashed s s' penalty)
    (hstakes : r'.stakes = r.stakes.insert id s') (hstaker : r'.stakesByStaker = r.stakesByStaker)
    (hidentity : r'.stakesByIdentity = r.stakesByIdentity)
    (htotal : r'.totalStaked.val = r.totalStaked.val - penalty) : StakeInv cr S r' := by
  constructor
  · have hsum := SortedMap.sumOf_insert (fun _ (t : ReputationStake) => t.amount.val) r.stakes id s'
    rw [hs] at hsum
    have hamount := hslashed.amount
    have hbefore := h.total
    rw [htotal, stakedSum, hstakes]
    unfold stakedSum at hbefore
    simp only [Option.elim_some] at hsum
    omega
  · have hlist : r'.stakesOf = r.stakesOf := by
      unfold stakesOf
      rw [hstaker]
    rw [hlist, hstakes]
    exact h.byStaker.insert_same id s s' hs hslashed.staker
  · have hlist : r'.stakesFor = r.stakesFor := by
      unfold stakesFor
      rw [hidentity]
    rw [hlist, hstakes]
    exact h.byIdentity.insert_same id s s' hs hslashed.identityId
  · intro j t ht
    rw [hstakes] at ht
    by_cases hj : j = id
    · subst hj
      rw [SortedMap.find?_insert_self] at ht
      obtain rfl := Option.some.inj ht
      rw [hslashed.staker, hslashed.identityId, hslashed.stakedAt, hslashed.lockedUntil]
      exact h.placed j s hs
    · rw [SortedMap.find?_insert_ne _ _ _ _ hj] at ht
      exact h.placed j t ht

/-- **Step.** -/
theorem StakeInv.apply {r : ReputationRegistry} (h : StakeInv cr S r) (hsep : SeparatesStakes cr S)
    (op : ReputationOp) (hop : Stakes cr boost S r op) : StakeInv cr S (r.apply cr boost op) := by
  cases apply_stakeEffect cr boost r op hop.percentage with
  | keeps hstakes hstaker hidentity htotal _ _ _ =>
    constructor
    · rw [htotal, stakedSum, hstakes]
      exact h.total
    · unfold stakesOf
      rw [hstaker, hstakes]
      exact h.byStaker
    · unfold stakesFor
      rw [hidentity, hstakes]
      exact h.byIdentity
    · rw [hstakes]
      exact h.placed
  | creates staker id amount domain block s hstaked hnew hafter hcreated _ _ =>
    have hfresh := h.fresh hsep op hop staker id block hstaked
    have hfits := hop.fits
    rw [hcreated] at hfits
    obtain rfl := stakeNew_eq staker id amount domain block s hnew
    rw [hafter]
    exact h.addStake _ (hop.staked _ hstaked) rfl rfl hfresh hfits
  | withdraws id s hs hafter _ _ _ =>
    rw [hafter]
    exact h.removeStake id s hs
  | slashes id s s' penalty hs hslashed hstakes hstaker hidentity htotal _ _ _ =>
    exact h.slash _ id s s' penalty hs hslashed hstakes hstaker hidentity htotal

/-- What a call moves is what the total changes by. -/
theorem totalStaked_apply {r : ReputationRegistry} (h : StakeInv cr S r) (op : ReputationOp)
    (hop : Stakes cr boost S r op) :
    (r.apply cr boost op).totalStaked.val + (r.withdrawn op + r.penalised op) =
      r.totalStaked.val + r.created cr boost op := by
  cases apply_stakeEffect cr boost r op hop.percentage with
  | keeps _ _ _ htotal hcreated hwithdrawn hpenalised =>
    rw [htotal, hcreated, hwithdrawn, hpenalised]
  | creates staker id amount domain block s hstaked hnew hafter hcreated hwithdrawn hpenalised =>
    have hfits := hop.fits
    rw [hcreated] at hfits
    obtain rfl := stakeNew_eq staker id amount domain block s hnew
    rw [hafter, hcreated, hwithdrawn, hpenalised]
    show (r.totalStaked + amount).val + 0 = r.totalStaked.val + amount.val
    rw [Fin.val_add, Nat.mod_eq_of_lt hfits]
    rfl
  | withdraws id s hs hafter hcreated hwithdrawn hpenalised =>
    have hle := SortedMap.le_sumOf (fun _ (t : ReputationStake) => t.amount.val) r.stakes id
    rw [hs] at hle
    have htotal := h.total
    rw [hafter, hcreated, hwithdrawn, hpenalised]
    show r.totalStaked.val - s.amount.val + (s.amount.val + 0) = r.totalStaked.val + 0
    unfold stakedSum at htotal
    simp only [Option.elim_some] at hle
    omega
  | slashes id s s' penalty hs hslashed _ _ _ htotal hcreated hwithdrawn hpenalised =>
    have hle := SortedMap.le_sumOf (fun _ (t : ReputationStake) => t.amount.val) r.stakes id
    rw [hs] at hle
    have hamount := hslashed.amount
    have hbefore := h.total
    rw [htotal, hcreated, hwithdrawn, hpenalised]
    unfold stakedSum at hbefore
    simp only [Option.elim_some] at hle
    omega

end Books

/-! ## Withdrawals -/

theorem withdrawStake_of_unslashed (r : ReputationRegistry) (id : Hash) (s : ReputationStake) (block : Nat)
    (hs : r.stakes.find? id = some s) (hlock : s.lockedUntil ≤ block) (hslashed : s.slashed = false) :
    r.withdrawStake id s.staker block = .ok (r.removeStake id s, s.amount) := by
  have hcan : s.canWithdraw block = true := by
    simp [ReputationStake.canWithdraw, ReputationStake.isLocked, hslashed, hlock]
  simp [withdrawStake, hs, hcan]

theorem withdrawStake_of_slashed (r : ReputationRegistry) (id : Hash) (s : ReputationStake) (withdrawer : AccountId)
    (block : Nat) (hs : r.stakes.find? id = some s) (hslashed : s.slashed = true) :
    ∃ e, r.withdrawStake id withdrawer block = .error e := by
  unfold withdrawStake
  rw [hs]
  by_cases hstaker : s.staker ≠ withdrawer
  · exact ⟨.notStaker, if_pos hstaker⟩
  · have hcannot : s.canWithdraw block = false := by simp [ReputationStake.canWithdraw, hslashed]
    refine ⟨.stakeLocked, ?_⟩
    simp only [if_neg hstaker, hcannot]
    rfl

/-! ## Runs -/

/-- The registry after a run from given settings. -/
def after (cr : Crypto) (boost : Balance → Nat) (chain : ChainId) (config : ReputationConfig)
    (ops : List ReputationOp) : ReputationRegistry :=
  ops.foldl (apply cr boost) (withConfig chain config)

theorem stakeInv_withConfig (cr : Crypto) (S : List (AccountId × IdentityId × Nat)) (chain : ChainId)
    (config : ReputationConfig) : StakeInv cr S (withConfig chain config) :=
  ⟨rfl, Listed.empty _, Listed.empty _, nofun⟩

/-- The total grows by no more than what is staked, whether it overflows or not. -/
theorem totalStaked_apply_le (cr : Crypto) (boost : Balance → Nat) (r : ReputationRegistry) (op : ReputationOp)
    (h : Percentage op) :
    (r.apply cr boost op).totalStaked.val ≤ r.totalStaked.val + r.created cr boost op := by
  cases apply_stakeEffect cr boost r op h with
  | keeps _ _ _ htotal _ _ _ =>
    rw [htotal]
    exact Nat.le_add_right _ _
  | creates staker id amount domain block s _ hnew hafter hcreated _ _ =>
    obtain rfl := stakeNew_eq staker id amount domain block s hnew
    rw [hafter, hcreated]
    show (r.totalStaked + amount).val ≤ r.totalStaked.val + amount.val
    rw [Fin.val_add]
    exact Nat.mod_le _ _
  | withdraws id s _ hafter _ _ _ =>
    rw [hafter]
    show r.totalStaked.val - s.amount.val ≤ r.totalStaked.val + r.created cr boost op
    omega
  | slashes id s s' penalty _ _ _ _ _ htotal _ _ _ =>
    rw [htotal]
    omega

/-- If all that is staked fits, the total fits at every step. -/
theorem meets_stakes (cr : Crypto) (boost : Balance → Nat) (S : List (AccountId × IdentityId × Nat))
    (r : ReputationRegistry) (ops : List ReputationOp) (hstaked : ∀ op ∈ ops, ∀ x, op.staked = some x → x ∈ S)
    (hpercent : ∀ op ∈ ops, Percentage op) (hapart : Run.Meets (apply cr boost) Apart r ops)
    (hsum : r.totalStaked.val + Run.tally (apply cr boost) (created cr boost) r ops < 2 ^ 128) :
    Run.Meets (apply cr boost) (Stakes cr boost S) r ops := by
  induction ops generalizing r with
  | nil => trivial
  | cons op ops ih =>
    have hle := totalStaked_apply_le cr boost r op (hpercent op List.mem_cons_self)
    simp only [Run.tally] at hsum
    refine ⟨⟨hstaked op List.mem_cons_self, hapart.1, hpercent op List.mem_cons_self, by omega⟩, ?_⟩
    apply ih _ _ _ hapart.2
    · omega
    · intro o ho
      exact hstaked o (List.mem_cons_of_mem op ho)
    · intro o ho
      exact hpercent o (List.mem_cons_of_mem op ho)

/-- In every run without colliding ids, with percentages as penalties, with amounts whose sum
fits, and with no two stored stakes of one staker for one identity from one block: the
total is the sum of the stakes; what was staked is held, withdrawn or taken as a penalty;
each stake is listed once under its staker and under its identity; after the lock its
staker can withdraw it in full unless it was slashed, and never if it was. -/
theorem stakes_conserved (cr : Crypto) (boost : Balance → Nat) (chain : ChainId) (config : ReputationConfig)
    (ops : List ReputationOp) (hpercent : ∀ id percent, ReputationOp.slashStake id percent ∈ ops → percent ≤ 100)
    (hsum : Run.tally (apply cr boost) (created cr boost) (withConfig chain config) ops < 2 ^ 128)
    (hapart : Run.Meets (apply cr boost) Apart (withConfig chain config) ops)
    (hblock : ∀ x ∈ ops.filterMap ReputationOp.staked, x.2.2 < 2 ^ 64)
    (hsep : ∀ x ∈ ops.filterMap ReputationOp.staked, ∀ y ∈ ops.filterMap ReputationOp.staked,
      cr.blake3 (stakeIdBytes x.1 x.2.1 x.2.2) = cr.blake3 (stakeIdBytes y.1 y.2.1 y.2.2) →
        stakeIdBytes x.1 x.2.1 x.2.2 = stakeIdBytes y.1 y.2.1 y.2.2) :
    (after cr boost chain config ops).totalStaked.val = (after cr boost chain config ops).stakedSum ∧
    Run.tally (apply cr boost) (created cr boost) (withConfig chain config) ops =
      (after cr boost chain config ops).totalStaked.val +
        Run.tally (apply cr boost) withdrawn (withConfig chain config) ops +
        Run.tally (apply cr boost) penalised (withConfig chain config) ops ∧
    Listed (after cr boost chain config ops).stakesOf ReputationStake.staker (after cr boost chain config ops).stakes ∧
    Listed (after cr boost chain config ops).stakesFor ReputationStake.identityId
      (after cr boost chain config ops).stakes ∧
    ∀ id s, (after cr boost chain config ops).stakes.find? id = some s →
      (s.slashed = false → ∀ block, s.stakedAt + reputationStakeLock ≤ block →
        (after cr boost chain config ops).withdrawStake id s.staker block =
          .ok ((after cr boost chain config ops).removeStake id s, s.amount)) ∧
      (s.slashed = true → ∀ withdrawer block,
        ∃ e, (after cr boost chain config ops).withdrawStake id withdrawer block = .error e) := by
  have hsep' : SeparatesStakes cr (ops.filterMap ReputationOp.staked) := by
    intro x hx y hy hid
    obtain ⟨hs, hi, hb⟩ := stakeIdBytes_inj _ _ _ _ _ _ (hblock x hx) (hblock y hy) (hsep x hx y hy hid)
    exact Prod.ext hs (Prod.ext hi hb)
  have hmeets : Run.Meets (apply cr boost) (Stakes cr boost (ops.filterMap ReputationOp.staked))
      (withConfig chain config) ops := by
    apply meets_stakes cr boost _ _ ops _ _ hapart
    · show 0 + _ < 2 ^ 128
      rwa [Nat.zero_add]
    · intro op hop x hx
      exact List.mem_filterMap.2 ⟨op, hop, hx⟩
    · intro op hop
      cases op with
      | slashStake id percent => exact hpercent id percent hop
      | _ => trivial
  have hstart := stakeInv_withConfig cr (ops.filterMap ReputationOp.staked) chain config
  have hinv := Run.inv_foldl (apply cr boost) _ _ (fun r op h hop => h.apply hsep' op hop) _ ops hstart hmeets
  have hbooks := Run.conserve (apply cr boost) _ _ (fun r => r.totalStaked.val) (created cr boost)
    (fun r op => r.withdrawn op + r.penalised op) (fun r op h hop => h.apply hsep' op hop)
    (fun r op h hop => totalStaked_apply h op hop) _ ops hstart hmeets
  refine ⟨hinv.total, ?_, hinv.byStaker, hinv.byIdentity, ?_⟩
  · rw [Run.tally_add] at hbooks
    have hzero : (withConfig chain config).totalStaked.val = 0 := rfl
    unfold after
    omega
  · intro id s hs
    constructor
    · intro hslashed block hlock
      rw [← (hinv.placed id s hs).2.2] at hlock
      exact withdrawStake_of_unslashed _ id s block hs hlock hslashed
    · intro hslashed withdrawer block
      exact withdrawStake_of_slashed _ id s withdrawer block hs hslashed

/-- `(ratio.sqrt() * 10.0) as u32`, for amounts whose square root is exact. -/
def sampleBoost (amount : Balance) : Nat := min (Nat.sqrt amount.val) (2 ^ 32 - 1)

/-- Two stakes of one staker in the same block for two identities: one is withdrawn, the
other slashed by half. -/
def stakedOps : List ReputationOp :=
  [.createStake ⟨1⟩ ⟨7⟩ 400 none 5, .createStake ⟨1⟩ ⟨8⟩ 900 none 5,
    .withdrawStake (ReputationStake.computeId Crypto.sample ⟨1⟩ ⟨7⟩ 5) ⟨1⟩ 1296005,
    .slashStake (ReputationStake.computeId Crypto.sample ⟨1⟩ ⟨8⟩ 5) 50]

theorem stakes_conserved_sample :
    (after Crypto.sample sampleBoost ⟨0⟩ .default stakedOps).totalStaked.val = 450 ∧
      (after Crypto.sample sampleBoost ⟨0⟩ .default stakedOps).totalStaked.val =
        (after Crypto.sample sampleBoost ⟨0⟩ .default stakedOps).stakedSum := by
  refine ⟨by decide +kernel, ?_⟩
  refine (stakes_conserved Crypto.sample sampleBoost ⟨0⟩ .default stakedOps ?_ (by decide)
    (by decide +kernel) (by decide +kernel) (by decide +kernel)).1
  intro id percent hmem
  simp [stakedOps] at hmem
  omega

/-- Half of the slashed stake is left in the registry, and its staker cannot withdraw it
after the lock. -/
theorem slashed_stake_stays :
    ((after Crypto.sample sampleBoost ⟨0⟩ .default stakedOps).stakes.find?
        (ReputationStake.computeId Crypto.sample ⟨1⟩ ⟨8⟩ 5)).map
      (fun s => (s.staker, s.amount.val, s.lockedUntil)) = some (⟨1⟩, 450, 1296005) ∧
    ((after Crypto.sample sampleBoost ⟨0⟩ .default stakedOps).withdrawStake
        (ReputationStake.computeId Crypto.sample ⟨1⟩ ⟨8⟩ 5) ⟨1⟩ 1296005).toOption.isNone = true := by
  decide +kernel

end ReputationRegistry

end Kratos
