import Kratos.Consensus.Roster

/-!
# Staking contract

Stake enters by registration and by `addStake`, waits in a single unbonding
request per account, and leaves by withdrawal or by a slash.  Three operations
write a validator's stake through a mutable reference and do not tell the role
registry (`Bypass`): they keep ids and total, and the recorded stake goes out of
date exactly when they change something (`agrees_run_iff`).  Unregistering a
validator drops its stake: `conserve_stake` has a term for it, and the books
balance exactly when that term is zero (`balanced_iff`).
-/

namespace Kratos

inductive SlashReason where
  | doubleSign
  | extendedDowntime
  | invalidAttestation
  | maliciousBehavior
  | failedEmergencyResponse
deriving DecidableEq, Repr

structure StakingRegistry.UnbondingRequest where
  account : AccountId
  amount : Balance
  requestedAt : Nat
  readyAt : Nat
deriving DecidableEq, Repr

structure SlashRecord where
  validator : AccountId
  amount : Balance
  reason : SlashReason
  block : Nat
deriving DecidableEq, Repr

inductive StakingError where
  | insufficientStake
  | validatorNotFound
  | noUnbondingRequest
  | unbondingNotReady
  | unbondingAlreadyActive
  | validatorSetError (e : ValidatorError)
deriving DecidableEq, Repr

structure StakingRegistry where
  validators : ValidatorSet
  unbondingRequests : SortedMap AccountId StakingRegistry.UnbondingRequest
  slashHistory : List SlashRecord
deriving DecidableEq

namespace StakingRegistry

def new : StakingRegistry :=
  { validators := .new, unbondingRequests := .empty, slashHistory := [] }

def registerValidator (s : StakingRegistry) (id : AccountId) (stake : Balance) (block : Nat) :
    Except StakingError StakingRegistry :=
  if stake < minValidatorStake then .error .insufficientStake
  else
    match s.validators.addValidator (ValidatorInfo.new id stake block) with
    | .ok validators => .ok { s with validators }
    | .error e => .error (.validatorSetError e)

/-- The removed validator's stake goes nowhere. -/
def unregisterValidator (s : StakingRegistry) (id : AccountId) : Except StakingError StakingRegistry :=
  match s.validators.removeValidator id with
  | .ok (validators, _) => .ok { s with validators }
  | .error e => .error (.validatorSetError e)

def addStake (s : StakingRegistry) (id : AccountId) (amount : Balance) :
    Except StakingError StakingRegistry :=
  match s.validators.validators.find? id with
  | none => .error .validatorNotFound
  | some validator =>
    let validator := { validator with stake := Word.satAdd validator.stake amount }
    .ok { s with validators := { s.validators with
            validators := s.validators.validators.insert id validator
            totalStake := Word.satAdd s.validators.totalStake amount } }

def startUnbonding (s : StakingRegistry) (id : AccountId) (amount : Balance) (currentBlock : Nat) :
    Except StakingError StakingRegistry :=
  if s.unbondingRequests.contains id then .error .unbondingAlreadyActive
  else
    match s.validators.validators.find? id with
    | none => .error .validatorNotFound
    | some validator =>
      if validator.stake < amount then .error .insufficientStake
      else
        let validator := { validator with stake := Word.satSub validator.stake amount }
        let request := { account := id, amount, requestedAt := currentBlock
                         readyAt := currentBlock + unbondingPeriod : UnbondingRequest }
        .ok { s with
              validators := { s.validators with
                validators := s.validators.validators.insert id validator
                totalStake := Word.satSub s.validators.totalStake amount }
              unbondingRequests := s.unbondingRequests.insert id request }

def withdrawUnbonded (s : StakingRegistry) (id : AccountId) (currentBlock : Nat) :
    Except StakingError (StakingRegistry × Balance) :=
  match s.unbondingRequests.find? id with
  | none => .error .noUnbondingRequest
  | some request =>
    if currentBlock < request.readyAt then .error .unbondingNotReady
    else .ok ({ s with unbondingRequests := s.unbondingRequests.erase id }, request.amount)

/-- Append to the history, which keeps the last 1000 slashes. -/
def recordSlash (history : List SlashRecord) (record : SlashRecord) : List SlashRecord :=
  let history := history ++ [record]
  if history.length > 1000 then history.tail else history

def slashValidator (s : StakingRegistry) (id : AccountId) (amount : Balance) (reason : SlashReason)
    (block : Nat) : Except StakingError (StakingRegistry × Balance) :=
  match s.validators.validators.find? id with
  | none => .error .validatorNotFound
  | some validator =>
    let (validator, slashed) := validator.slash amount
    .ok ({ s with
           validators := { s.validators with
             validators := s.validators.validators.insert id validator
             totalStake := Word.satSub s.validators.totalStake slashed }
           slashHistory := recordSlash s.slashHistory { validator := id, amount := slashed, reason, block } },
      slashed)

end StakingRegistry

/-- A call of the staking contract. -/
inductive StakingOp where
  | registerValidator (id : AccountId) (stake : Balance) (block : Nat)
  | unregisterValidator (id : AccountId)
  | addStake (id : AccountId) (amount : Balance)
  | startUnbonding (id : AccountId) (amount : Balance) (currentBlock : Nat)
  | withdrawUnbonded (id : AccountId) (currentBlock : Nat)
  | slashValidator (id : AccountId) (amount : Balance) (reason : SlashReason) (block : Nat)
deriving DecidableEq, Repr

/-- The stake a call brings in. -/
def StakingOp.adds : StakingOp → Balance
  | registerValidator _ stake _ => stake
  | addStake _ amount => amount
  | _ => 0

namespace StakingRegistry

def apply (s : StakingRegistry) : StakingOp → StakingRegistry
  | .registerValidator id stake block => (s.registerValidator id stake block).orKeep s
  | .unregisterValidator id => (s.unregisterValidator id).orKeep s
  | .addStake id amount => (s.addStake id amount).orKeep s
  | .startUnbonding id amount currentBlock => (s.startUnbonding id amount currentBlock).orKeep s
  | .withdrawUnbonded id currentBlock => ((s.withdrawUnbonded id currentBlock).map Prod.fst).orKeep s
  | .slashValidator id amount reason block =>
    ((s.slashValidator id amount reason block).map Prod.fst).orKeep s

def stakeOf (s : StakingRegistry) (id : AccountId) : Nat :=
  (s.validators.validators.find? id).elim 0 fun info => info.stake.val

def pendingOf (s : StakingRegistry) (id : AccountId) : Nat :=
  (s.unbondingRequests.find? id).elim 0 fun request => request.amount.val

/-- The sum of the stakes stays below 2¹²⁸. -/
def Fits (s : StakingRegistry) (op : StakingOp) : Prop := s.validators.stakeSum + op.adds.val < 2 ^ 128

instance (s : StakingRegistry) (op : StakingOp) : Decidable (s.Fits op) :=
  inferInstanceAs (Decidable (s.validators.stakeSum + op.adds.val < 2 ^ 128))

/-! ## The role registry -/

/-- The stake a call moves without the role registry. -/
def moves (s : StakingRegistry) : StakingOp → Balance
  | .addStake id amount => if s.validators.validators.contains id then amount else 0
  | .startUnbonding id amount _ =>
    if s.unbondingRequests.contains id then 0
    else
      match s.validators.validators.find? id with
      | none => 0
      | some validator => if validator.stake < amount then 0 else amount
  | .slashValidator id amount _ _ =>
    match s.validators.validators.find? id with
    | none => 0
    | some validator => min amount validator.stake
  | _ => 0

/-- A stake of the map and the total changed by `d`, the registry not. -/
inductive Bypass (v w : ValidatorSet) (d : Balance) : Prop where
  | raise (id : AccountId) (old info : ValidatorInfo) (hold : v.validators.find? id = some old)
      (hfits : v.stakeSum + d.val < 2 ^ 128) (hstake : info.stake = Word.satAdd old.stake d)
      (hv : w.validators = v.validators.insert id info)
      (ht : w.totalStake = Word.satAdd v.totalStake d) (hr : w.roleRegistry = v.roleRegistry)
  | lower (id : AccountId) (old info : ValidatorInfo) (hold : v.validators.find? id = some old)
      (hle : d ≤ old.stake) (hstake : info.stake = Word.satSub old.stake d)
      (hv : w.validators = v.validators.insert id info)
      (ht : w.totalStake = Word.satSub v.totalStake d) (hr : w.roleRegistry = v.roleRegistry)

theorem Bypass.roles {v w : ValidatorSet} {d : Balance} (h : Bypass v w d) (hv : v.Roles) : w.Roles := by
  cases h with
  | raise id old info hold hfits hstake hins ht hr =>
    exact hv.amend id old info hold hins (fun j => by rw [hr]) fun j => by rw [hr]
  | lower id old info hold hle hstake hins ht hr =>
    exact hv.amend id old info hold hins (fun j => by rw [hr]) fun j => by rw [hr]

theorem Bypass.totalOk {v w : ValidatorSet} {d : Balance} (h : Bypass v w d) (hv : v.TotalOk) :
    w.TotalOk := by
  unfold ValidatorSet.TotalOk at hv ⊢
  cases h with
  | raise id old info hold hfits hstake hins ht hr =>
    have hsum := ValidatorSet.stakeSum_insert v w id info hins
    have hle := ValidatorSet.stake_le_stakeSum v id old hold
    rw [hold, Option.elim_some, hstake, Word.val_satAdd_of_lt _ _ (by omega)] at hsum
    rw [ht, Word.val_satAdd_of_lt _ _ (by omega)]
    omega
  | lower id old info hold hd hstake hins ht hr =>
    have hsum := ValidatorSet.stakeSum_insert v w id info hins
    have hle := ValidatorSet.stake_le_stakeSum v id old hold
    have hd' : d.val ≤ old.stake.val := hd
    rw [hold, Option.elim_some, hstake, Word.val_satSub] at hsum
    rw [ht, Word.val_satSub]
    omega

/-- The recorded stakes survive only a change by nothing. -/
theorem Bypass.recorded_iff {v w : ValidatorSet} {d : Balance} (h : Bypass v w d) (hv : v.Roles)
    (hrec : v.Recorded) : w.Recorded ↔ d.val = 0 := by
  -- both kinds of change rewrite one entry of the map
  obtain ⟨id, old, info, hold, hins, hr, hchange⟩ : ∃ id old info,
      v.validators.find? id = some old ∧ w.validators = v.validators.insert id info ∧
        w.roleRegistry = v.roleRegistry ∧ (info.stake = old.stake ↔ d.val = 0) := by
    cases h with
    | raise id old info hold hfits hstake hins ht hr =>
      have hle := ValidatorSet.stake_le_stakeSum v id old hold
      refine ⟨id, old, info, hold, hins, hr, ?_⟩
      rw [Fin.ext_iff, hstake, Word.val_satAdd_of_lt _ _ (by omega)]
      omega
    | lower id old info hold hd hstake hins ht hr =>
      have hd' : d.val ≤ old.stake.val := hd
      refine ⟨id, old, info, hold, hins, hr, ?_⟩
      rw [Fin.ext_iff, hstake, Word.val_satSub]
      omega
  obtain ⟨e, he⟩ := hv.singleton id old hold
  have hmem : e ∈ v.roleRegistry.activeEntries id := he ▸ List.mem_singleton_self e
  rw [← hchange]
  constructor
  · intro hw
    have hnew := hw id info (by rw [hins, SortedMap.find?_insert_self]) e (by rw [hr]; exact hmem)
    rw [hrec id old hold e hmem] at hnew
    exact (Option.some.inj hnew).symm
  · intro hsame j x hx y hy
    rw [hr] at hy
    rw [hins, SortedMap.find?_insert] at hx
    split at hx
    · next hj =>
      cases hx
      rw [hsame]
      exact hrec j old (by rw [hj]; exact hold) y hy
    · exact hrec j x hx y hy

/-- A change of the set that the role registry takes part in, without overflow. -/
def Tracked (v w : ValidatorSet) : Prop := ∃ d, ValidatorSet.Effect v w d ∧ v.stakeSum + d.val < 2 ^ 128

theorem Tracked.refl (v : ValidatorSet) (h : v.TotalOk) : Tracked v v :=
  ⟨0, .same rfl rfl rfl, h.stakeSum_lt⟩

variable (s : StakingRegistry) (h : s.validators.Rostered)
include h

theorem tracked_registerValidator (id : AccountId) (stake : Balance) (block : Nat)
    (hfits : s.Fits (.registerValidator id stake block)) :
    Tracked s.validators (s.apply (.registerValidator id stake block)).validators := by
  refine Except.orKeep_of (fun t : StakingRegistry => Tracked s.validators t.validators) _ _ (.refl _ h.total) ?_
  intro t ht
  unfold registerValidator at ht
  split at ht
  · cases ht
  split at ht
  · next w hw =>
    cases ht
    exact ⟨stake, ValidatorSet.effect_addValidator _ w h.roles _ hw, hfits⟩
  · cases ht

theorem tracked_unregisterValidator (id : AccountId) :
    Tracked s.validators (s.apply (.unregisterValidator id)).validators := by
  refine Except.orKeep_of (fun t : StakingRegistry => Tracked s.validators t.validators) _ _ (.refl _ h.total) ?_
  intro t ht
  unfold unregisterValidator at ht
  split at ht
  · next w info hw =>
    cases ht
    exact ⟨0, ValidatorSet.effect_removeValidator _ w id info hw, h.total.stakeSum_lt⟩
  · cases ht

theorem tracked_withdrawUnbonded (id : AccountId) (currentBlock : Nat) :
    Tracked s.validators (s.apply (.withdrawUnbonded id currentBlock)).validators := by
  refine Except.orKeep_map_of (fun t : StakingRegistry => Tracked s.validators t.validators) _ _ (.refl _ h.total) ?_
  intro t amount ht
  unfold withdrawUnbonded at ht
  split at ht
  · cases ht
  split at ht
  · cases ht
  · cases ht
    exact .refl _ h.total

/-- **What a call does to the validator set.** -/
theorem apply_cases (op : StakingOp) (hfits : s.Fits op) :
    Tracked s.validators (s.apply op).validators ∧ s.moves op = 0 ∨
      Bypass s.validators (s.apply op).validators (s.moves op) := by
  have hkeep := Tracked.refl s.validators h.total
  cases op with
  | registerValidator id stake block => exact Or.inl ⟨tracked_registerValidator s h id stake block hfits, rfl⟩
  | unregisterValidator id => exact Or.inl ⟨tracked_unregisterValidator s h id, rfl⟩
  | withdrawUnbonded id currentBlock => exact Or.inl ⟨tracked_withdrawUnbonded s h id currentBlock, rfl⟩
  | addStake id amount =>
    simp only [apply, moves]
    unfold addStake SortedMap.contains
    cases hf : s.validators.validators.find? id with
    | none => exact Or.inl ⟨hkeep, rfl⟩
    | some old => exact Or.inr (.raise id old _ hf hfits rfl rfl rfl rfl)
  | startUnbonding id amount currentBlock =>
    simp only [apply, moves]
    unfold startUnbonding
    by_cases hreq : s.unbondingRequests.contains id = true
    · rw [if_pos hreq, if_pos hreq]
      exact Or.inl ⟨hkeep, rfl⟩
    · rw [if_neg hreq, if_neg hreq]
      cases hf : s.validators.validators.find? id with
      | none => exact Or.inl ⟨hkeep, rfl⟩
      | some old =>
        simp only
        by_cases hlt : old.stake < amount
        · rw [if_pos hlt, if_pos hlt]
          exact Or.inl ⟨hkeep, rfl⟩
        · rw [if_neg hlt, if_neg hlt]
          exact Or.inr (.lower id old { old with stake := Word.satSub old.stake amount } hf
            (not_lt.mp hlt) rfl rfl rfl rfl)
  | slashValidator id amount reason block =>
    simp only [apply, moves]
    unfold slashValidator
    cases hf : s.validators.validators.find? id with
    | none => exact Or.inl ⟨hkeep, rfl⟩
    | some old =>
      exact Or.inr (.lower id old (old.slash amount).1 hf (min_le_right _ _) rfl rfl rfl rfl)

theorem apply_rostered (op : StakingOp) (hfits : s.Fits op) : (s.apply op).validators.Rostered := by
  rcases apply_cases s h op hfits with ⟨⟨d, he, hd⟩, -⟩ | hb
  · exact ⟨h.roles.effect he, h.total.effect he hd⟩
  · exact ⟨hb.roles h.roles, hb.totalOk h.total⟩

/-- **One call keeps the agreement exactly if it moves no stake behind the registry.** -/
theorem agrees_apply_iff (op : StakingOp) (hfits : s.Fits op) (ha : s.validators.Agrees) :
    (s.apply op).validators.Agrees ↔ (s.moves op).val = 0 := by
  have hrec := (ValidatorSet.agrees_iff _ h.roles h.total).mp ha
  have hafter := apply_rostered s h op hfits
  rw [ValidatorSet.agrees_iff _ hafter.roles hafter.total]
  rcases apply_cases s h op hfits with ⟨⟨d, he, -⟩, hmoves⟩ | hb
  · rw [hmoves]
    exact ⟨fun _ => rfl, fun _ => hrec.effect h.roles he⟩
  · exact hb.recorded_iff h.roles hrec

omit h

/-- **Agreement over runs.**  A set built by its own operations agrees with its role registry.
From there a run of the contract stays in agreement exactly if none of its calls moves stake
without the registry. -/
theorem agrees_run_iff (setOps : List SetOp)
    (hset : Run.Meets ValidatorSet.apply ValidatorSet.Fits .new setOps)
    (hs : s.validators = setOps.foldl ValidatorSet.apply .new) (ops : List StakingOp)
    (hops : Run.Meets apply Fits s ops) :
    s.validators.Agrees ∧
      ((∀ k, ((ops.take k).foldl apply s).validators.Agrees) ↔
        Run.Meets apply (fun s op => (s.moves op).val = 0) s ops) := by
  have hsync : s.validators.Synced := hs ▸ ValidatorSet.run_synced setOps hset
  refine ⟨hsync.agrees, ?_⟩
  exact Run.good_take_iff apply Fits _ (fun s => s.validators.Rostered) (fun s => s.validators.Agrees)
    (fun s op h hf => apply_rostered s h op hf) (fun s op h hf ha => agrees_apply_iff s h op hf ha)
    s ops hsync.toRostered hsync.agrees hops

/-- A validator with the least stake. -/
def sampleRegistered : StakingRegistry := new.apply (.registerValidator ⟨1⟩ minValidatorStake 0)

/-- An unbonding of nothing, a second validator, and the first one leaves. -/
def sampleQuiet : List StakingOp :=
  [.startUnbonding ⟨1⟩ 0 5, .registerValidator ⟨2⟩ minValidatorStake 6, .unregisterValidator ⟨1⟩]

theorem agrees_run_sample : ((sampleQuiet.take 3).foldl apply sampleRegistered).validators.Agrees :=
  (agrees_run_iff sampleRegistered [.addValidator (ValidatorInfo.new ⟨1⟩ minValidatorStake 0)]
    (by decide +kernel) (by decide +kernel) sampleQuiet (by decide +kernel)).2.mpr (by decide +kernel) 3

/-- Stake added to it is not recorded. -/
theorem addStake_not_recorded : ¬ (sampleRegistered.apply (.addStake ⟨1⟩ 1)).validators.Agrees := by
  intro h
  obtain ⟨info, hinfo⟩ : ∃ info,
      (sampleRegistered.apply (.addStake ⟨1⟩ 1)).validators.validators.find? ⟨1⟩ = some info ∧
        info.stake = minValidatorStake + 1 := ⟨_, rfl, by decide +kernel⟩
  obtain ⟨e, he, hrec⟩ := h.entry ⟨1⟩ info hinfo.1
  have hentry : (sampleRegistered.apply (.addStake ⟨1⟩ 1)).validators.roleRegistry.activeEntries ⟨1⟩ =
      [NetworkRoleEntry.newValidator ⟨1⟩ minValidatorStake false 0] := by decide +kernel
  rw [hentry] at he
  cases he
  rw [hinfo.2] at hrec
  revert hrec
  decide +kernel

/-! ## Conservation of stake -/

/-- What a call brings in for an account. -/
def deposited (a : AccountId) (s : StakingRegistry) : StakingOp → Nat
  | .registerValidator id stake block =>
    if id = a ∧ (s.registerValidator id stake block).isOk = true then stake.val else 0
  | .addStake id amount => if id = a ∧ (s.addStake id amount).isOk = true then amount.val else 0
  | _ => 0

/-- What a call pays out to an account. -/
def withdrawn (a : AccountId) (s : StakingRegistry) : StakingOp → Nat
  | .withdrawUnbonded id currentBlock =>
    if id = a then (s.withdrawUnbonded id currentBlock).toOption.elim 0 fun r => r.2.val else 0
  | _ => 0

def slashed (a : AccountId) (s : StakingRegistry) : StakingOp → Nat
  | .slashValidator id amount reason block =>
    if id = a then (s.slashValidator id amount reason block).toOption.elim 0 fun r => r.2.val else 0
  | _ => 0

/-- The stake that is gone after a call. -/
def dropped (a : AccountId) (s : StakingRegistry) : StakingOp → Nat
  | .unregisterValidator id => if id = a then s.stakeOf a else 0
  | _ => 0

def held (a : AccountId) (s : StakingRegistry) : Nat := s.stakeOf a + s.pendingOf a

theorem stakeOf_insert (t : StakingRegistry) (id a : AccountId) (info : ValidatorInfo)
    (hv : t.validators.validators = s.validators.validators.insert id info) :
    t.stakeOf a = if id = a then info.stake.val else s.stakeOf a := by
  unfold stakeOf
  rw [hv]
  by_cases ha : id = a
  · rw [if_pos ha, ha, SortedMap.find?_insert_self]
    rfl
  · rw [if_neg ha, SortedMap.find?_insert_ne _ _ _ _ (Ne.symm ha)]

theorem stakeOf_of_find? (a : AccountId) (info : ValidatorInfo)
    (hf : s.validators.validators.find? a = some info) : s.stakeOf a = info.stake.val := by
  unfold stakeOf
  rw [hf]
  rfl

theorem stakeOf_of_none (a : AccountId) (hf : s.validators.validators.find? a = none) :
    s.stakeOf a = 0 := by
  unfold stakeOf
  rw [hf]
  rfl

variable (h : s.validators.Rostered)
include h

theorem held_registerValidator (a id : AccountId) (stake : Balance) (block : Nat) :
    (s.apply (.registerValidator id stake block)).held a =
      s.held a + s.deposited a (.registerValidator id stake block) := by
  simp only [apply, deposited]
  cases hr : s.registerValidator id stake block with
  | error e => simp [Except.orKeep, Except.isOk, Except.toBool]
  | ok t =>
    unfold registerValidator at hr
    split at hr
    · cases hr
    split at hr
    · next w hw =>
      cases hr
      obtain ⟨hnew, hv, -⟩ := ValidatorSet.addValidator_ok _ w h.roles _ hw
      have hins := stakeOf_insert s { s with validators := w } id a _ hv
      show StakingRegistry.held a { s with validators := w } = _
      by_cases ha : id = a
      · have hzero : s.stakeOf a = 0 := stakeOf_of_none s a (ha ▸ hnew)
        rw [if_pos ha] at hins
        rw [if_pos ⟨ha, rfl⟩]
        unfold held
        rw [hins, hzero]
        show stake.val + s.pendingOf a = _
        omega
      · rw [if_neg ha] at hins
        rw [if_neg fun hc => ha hc.1]
        unfold held
        rw [hins]
        rfl
    · cases hr

omit h

theorem held_unregisterValidator (a id : AccountId) :
    (s.apply (.unregisterValidator id)).held a + s.dropped a (.unregisterValidator id) = s.held a := by
  simp only [apply, dropped]
  unfold unregisterValidator ValidatorSet.removeValidator
  cases hf : s.validators.validators.find? id with
  | none =>
    simp only [Except.orKeep]
    split
    · next ha =>
      have hzero := stakeOf_of_none s a (ha ▸ hf)
      omega
    · rfl
  | some info =>
    simp only [Except.orKeep]
    unfold held stakeOf pendingOf
    simp only [SortedMap.find?_erase]
    by_cases ha : id = a
    · rw [if_pos ha, if_pos ha.symm, Option.elim_none]
      omega
    · rw [if_neg ha, if_neg (Ne.symm ha)]
      omega

theorem held_addStake (a id : AccountId) (amount : Balance) (hfits : s.Fits (.addStake id amount)) :
    (s.apply (.addStake id amount)).held a = s.held a + s.deposited a (.addStake id amount) := by
  simp only [apply, deposited]
  unfold addStake
  cases hf : s.validators.validators.find? id with
  | none => simp [Except.orKeep, Except.isOk, Except.toBool]
  | some old =>
    have hle := ValidatorSet.stake_le_stakeSum _ id old hf
    have hfits' : s.validators.stakeSum + amount.val < 2 ^ 128 := hfits
    simp only [Except.orKeep, Except.isOk, Except.toBool]
    unfold held
    rw [stakeOf_insert s _ id a _ rfl]
    by_cases ha : id = a
    · have hstake := stakeOf_of_find? s a old (ha ▸ hf)
      rw [if_pos ha, if_pos ⟨ha, trivial⟩, hstake]
      show (Word.satAdd old.stake amount).val + s.pendingOf a = _
      rw [Word.val_satAdd_of_lt _ _ (by omega)]
      omega
    · rw [if_neg ha, if_neg fun hc => ha hc.1]
      rfl

theorem held_startUnbonding (a id : AccountId) (amount : Balance) (currentBlock : Nat) :
    (s.apply (.startUnbonding id amount currentBlock)).held a = s.held a := by
  simp only [apply]
  unfold startUnbonding
  split
  · rfl
  next hreq =>
  cases hf : s.validators.validators.find? id with
  | none => rfl
  | some old =>
    simp only
    split
    · rfl
    · next hlt =>
      have hle : amount.val ≤ old.stake.val := not_lt.mp hlt
      simp only [Except.orKeep]
      unfold held
      rw [stakeOf_insert s _ id a _ rfl]
      by_cases ha : id = a
      · have hstake := stakeOf_of_find? s a old (ha ▸ hf)
        have hpending : s.pendingOf a = 0 := by
          unfold pendingOf
          rw [← ha, Option.not_isSome_iff_eq_none.mp hreq]
          rfl
        rw [if_pos ha, hstake, hpending]
        unfold pendingOf
        rw [← ha, SortedMap.find?_insert_self]
        show old.stake.val - amount.val + amount.val = _
        omega
      · rw [if_neg ha]
        unfold pendingOf
        rw [SortedMap.find?_insert_ne _ _ _ _ (Ne.symm ha)]

theorem held_withdrawUnbonded (a id : AccountId) (currentBlock : Nat) :
    (s.apply (.withdrawUnbonded id currentBlock)).held a +
      s.withdrawn a (.withdrawUnbonded id currentBlock) = s.held a := by
  simp only [apply, withdrawn]
  unfold withdrawUnbonded
  cases hf : s.unbondingRequests.find? id with
  | none => simp [Except.orKeep, Except.map, Except.toOption]
  | some request =>
    simp only
    split
    · simp [Except.orKeep, Except.map, Except.toOption]
    · simp only [Except.orKeep, Except.map, Except.toOption, Option.elim_some]
      unfold held
      by_cases ha : id = a
      · have hpending : s.pendingOf a = request.amount.val := by
          unfold pendingOf
          rw [← ha, hf]
          rfl
        rw [if_pos ha, hpending]
        unfold pendingOf
        rw [SortedMap.find?_erase, if_pos ha.symm]
        rfl
      · rw [if_neg ha]
        unfold pendingOf
        rw [SortedMap.find?_erase, if_neg (Ne.symm ha)]
        rfl

theorem held_slashValidator (a id : AccountId) (amount : Balance) (reason : SlashReason) (block : Nat) :
    (s.apply (.slashValidator id amount reason block)).held a +
      s.slashed a (.slashValidator id amount reason block) = s.held a := by
  simp only [apply, slashed]
  unfold slashValidator
  cases hf : s.validators.validators.find? id with
  | none => simp [Except.orKeep, Except.map, Except.toOption]
  | some old =>
    simp only [Except.orKeep, Except.map, Except.toOption, Option.elim_some]
    unfold held
    rw [stakeOf_insert s _ id a _ rfl]
    by_cases ha : id = a
    · have hstake := stakeOf_of_find? s a old (ha ▸ hf)
      have hle : (min amount old.stake).val ≤ old.stake.val := min_le_right amount old.stake
      rw [if_pos ha, if_pos ha, hstake]
      show old.stake.val - (min amount old.stake).val + s.pendingOf a + (min amount old.stake).val = _
      omega
    · rw [if_neg ha, if_neg ha]
      rfl

/-- **One call balances**, with what an unregistration drops as a term of its own. -/
theorem held_apply (a : AccountId) (op : StakingOp) (h : s.validators.Rostered) (hfits : s.Fits op) :
    (s.apply op).held a + (s.withdrawn a op + s.slashed a op + s.dropped a op) =
      s.held a + s.deposited a op := by
  cases op with
  | registerValidator id stake block => exact held_registerValidator s h a id stake block
  | unregisterValidator id =>
    have := held_unregisterValidator s a id
    simp only [withdrawn, slashed, deposited]
    omega
  | addStake id amount => exact held_addStake s a id amount hfits
  | startUnbonding id amount currentBlock => exact held_startUnbonding s a id amount currentBlock
  | withdrawUnbonded id currentBlock =>
    have := held_withdrawUnbonded s a id currentBlock
    simp only [slashed, dropped, deposited]
    omega
  | slashValidator id amount reason block =>
    have := held_slashValidator s a id amount reason block
    simp only [withdrawn, dropped, deposited]
    omega

omit s

/-- **Stake over a run.** -/
theorem conserve_stake (ops : List StakingOp) (a : AccountId) (h : Run.Meets apply Fits new ops) :
    (ops.foldl apply new).held a + (Run.tally apply (withdrawn a) new ops +
        Run.tally apply (slashed a) new ops + Run.tally apply (dropped a) new ops) =
      Run.tally apply (deposited a) new ops := by
  have hrun := Run.conserve apply Fits (fun s => s.validators.Rostered) (held a) (deposited a)
    (fun s op => s.withdrawn a op + s.slashed a op + s.dropped a op)
    (fun s op hs hf => apply_rostered s hs op hf) (fun s op hs hf => held_apply s a op hs hf) new ops
    ValidatorSet.new_synced.toRostered h
  rw [Run.tally_add, Run.tally_add] at hrun
  have hzero : held a new = 0 := rfl
  omega

/-- **The books of an account balance exactly if it is never unregistered with stake left.** -/
theorem balanced_iff (ops : List StakingOp) (a : AccountId) (h : Run.Meets apply Fits new ops) :
    Run.tally apply (deposited a) new ops =
        (ops.foldl apply new).stakeOf a + (ops.foldl apply new).pendingOf a +
          Run.tally apply (withdrawn a) new ops + Run.tally apply (slashed a) new ops ↔
      Run.Meets apply (fun s op => op = .unregisterValidator a → s.stakeOf a = 0) new ops := by
  have hcons := conserve_stake ops a h
  unfold held at hcons
  have hdropped : ∀ (s : StakingRegistry) (op : StakingOp),
      s.dropped a op = 0 ↔ (op = .unregisterValidator a → s.stakeOf a = 0) := by
    intro s op
    unfold dropped
    split
    · next id =>
      by_cases ha : id = a
      · simp [ha]
      · simp [ha]
    · next hne =>
      constructor
      · rintro - rfl
        exact absurd rfl (hne a)
      · intro _
        rfl
  have hzero := Run.tally_eq_zero_iff apply (dropped a) new ops
  simp only [hdropped] at hzero
  rw [← hzero]
  omega

/-- Registration, more stake, a slash, unbonding and its withdrawal. -/
def sampleOps : List StakingOp :=
  [.registerValidator ⟨1⟩ minValidatorStake 0, .addStake ⟨1⟩ 5, .startUnbonding ⟨1⟩ 7 10,
    .slashValidator ⟨1⟩ 2 .doubleSign 11, .withdrawUnbonded ⟨1⟩ (10 + unbondingPeriod)]

theorem balanced_sample :
    Run.tally apply (deposited ⟨1⟩) new sampleOps =
      (sampleOps.foldl apply new).stakeOf ⟨1⟩ + (sampleOps.foldl apply new).pendingOf ⟨1⟩ +
        Run.tally apply (withdrawn ⟨1⟩) new sampleOps + Run.tally apply (slashed ⟨1⟩) new sampleOps :=
  (balanced_iff sampleOps ⟨1⟩ (by decide +kernel)).mpr (by decide +kernel)

/-- The stake of a validator that is registered and unregistered is gone. -/
theorem unregisterValidator_loses_stake :
    let ops := [.registerValidator ⟨1⟩ minValidatorStake 0, .unregisterValidator ⟨1⟩]
    Run.tally apply (deposited ⟨1⟩) new ops ≠
      (ops.foldl apply new).stakeOf ⟨1⟩ + (ops.foldl apply new).pendingOf ⟨1⟩ +
        Run.tally apply (withdrawn ⟨1⟩) new ops + Run.tally apply (slashed ⟨1⟩) new ops := by
  decide +kernel

end StakingRegistry

end Kratos
