import Kratos.Lib.Fallible
import Kratos.Lib.Run
import Kratos.Consensus.Validator

/-!
# Removal and stakes of validators

A validator is recorded four times: in the map of the set, in the total, in the
list of the role registry, and as an entry there that is switched off on removal
and never deleted.  `Effect` says what an operation of the set can do to these;
each of the three parts of `Agrees` is kept by every effect, the total as long
as it does not overflow (`run_synced`).
-/

namespace Kratos

/-- Blocks after the bootstrap era in which a bootstrap validator may still stake. -/
def bootstrapGracePeriod : Nat := 100800

/-! ## Role entries -/

namespace NetworkRoleEntry

def isActiveValidator (e : NetworkRoleEntry) : Bool := decide (e.role = .validator) && e.active

def updateValidatorStake (e : NetworkRoleEntry) (newStake : Balance) : NetworkRoleEntry :=
  match e.metadata with
  | .validator _ isBootstrap => { e with metadata := .validator newStake isBootstrap }
  | _ => e

def deactivate (e : NetworkRoleEntry) : NetworkRoleEntry := { e with active := false }

/-- The stake an entry records, if it is a validator's. -/
def recordedStake (e : NetworkRoleEntry) : Option Balance :=
  match e.metadata with
  | .validator stake _ => some stake
  | _ => none

end NetworkRoleEntry

namespace NetworkRoleRegistry

/-- Change the first active validator entry, if there is one. -/
def updateFirst (f : NetworkRoleEntry → NetworkRoleEntry) :
    List NetworkRoleEntry → Option (List NetworkRoleEntry)
  | [] => none
  | e :: l => if e.isActiveValidator then some (f e :: l) else (updateFirst f l).map (e :: ·)

def unregisterValidator (r : NetworkRoleRegistry) (account : AccountId) :
    Except RoleRegistryError NetworkRoleRegistry :=
  match (r.entries.find? account).bind (updateFirst .deactivate) with
  | some l =>
    .ok { entries := r.entries.insert account l
          validators := r.validators.filter fun a => decide (a ≠ account) }
  | none => .error .notFound

def updateValidatorStake (r : NetworkRoleRegistry) (account : AccountId) (newStake : Balance) :
    Except RoleRegistryError NetworkRoleRegistry :=
  match (r.entries.find? account).bind (updateFirst fun e => e.updateValidatorStake newStake) with
  | some l => .ok { r with entries := r.entries.insert account l }
  | none => .error .notFound

/-- The active validator entries of an account. -/
def activeEntries (r : NetworkRoleRegistry) (account : AccountId) : List NetworkRoleEntry :=
  ((r.entries.find? account).getD []).filter NetworkRoleEntry.isActiveValidator

end NetworkRoleRegistry

/-! ## Operations -/

namespace ValidatorInfo

def exceededGracePeriod (v : ValidatorInfo) (currentBlock : Nat) : Bool :=
  v.isBootstrapValidator && decide (v.stake < minValidatorStake) &&
    decide (currentBlock ≥ bootstrapEraBlocks + bootstrapGracePeriod)

def transitionFromBootstrap (v : ValidatorInfo) : ValidatorInfo :=
  if v.isBootstrapValidator = true ∧ v.stake ≥ minValidatorStake then
    { v with isBootstrapValidator := false }
  else v

def addStake (v : ValidatorInfo) (amount : Balance) : ValidatorInfo :=
  let v := { v with stake := Word.satAdd v.stake amount }
  if v.isBootstrapValidator = true ∧ v.stake ≥ minValidatorStake then v.transitionFromBootstrap else v

/-- The validator after a slash, and what it lost. -/
def slash (v : ValidatorInfo) (amount : Balance) : ValidatorInfo × Balance :=
  let slashed := min amount v.stake
  let stake := Word.satSub v.stake slashed
  ({ v with
     stake, totalSlashed := Word.satAdd v.totalSlashed slashed, slashCount := v.slashCount + 1
     reputation := v.reputation - 20
     status := if stake < minValidatorStake then .slashed else v.status }, slashed)

end ValidatorInfo

namespace ValidatorSet

/-- An error of the role registry is ignored. -/
def removeValidator (v : ValidatorSet) (id : AccountId) :
    Except ValidatorError (ValidatorSet × ValidatorInfo) :=
  match v.validators.find? id with
  | none => .error .notFound
  | some info =>
    .ok ({ v with
           validators := v.validators.erase id
           roleRegistry := (v.roleRegistry.unregisterValidator id).toOption.getD v.roleRegistry
           totalStake := Word.satSub v.totalStake info.stake }, info)

def updateValidatorStake (v : ValidatorSet) (id : AccountId) (amount : Balance) :
    Except ValidatorError ValidatorSet :=
  match v.validators.find? id with
  | none => .error .notFound
  | some old =>
    let info := old.addStake amount
    .ok { v with
          validators := v.validators.insert id info
          totalStake := Word.satAdd (Word.satSub v.totalStake old.stake) info.stake
          roleRegistry :=
            (v.roleRegistry.updateValidatorStake id info.stake).toOption.getD v.roleRegistry }

/-- Remove the bootstrap validators that did not stake in time. -/
def processBootstrapTransitions (v : ValidatorSet) (currentBlock : Nat) : ValidatorSet × List AccountId :=
  let toRemove := (v.validators.filter fun _ info => info.exceededGracePeriod currentBlock).keys
  toRemove.foldl
    (fun r id =>
      match r.1.removeValidator id with
      | .ok (v, _) => (v, r.2 ++ [id])
      | .error _ => r)
    (v, [])

end ValidatorSet

/-! ## The role registry -/

namespace NetworkRoleRegistry

variable (r r' : NetworkRoleRegistry) (account j : AccountId)

theorem filter_updateFirst (f : NetworkRoleEntry → NetworkRoleEntry) (l rest : List NetworkRoleEntry)
    (e : NetworkRoleEntry) (h : l.filter NetworkRoleEntry.isActiveValidator = e :: rest) :
    ∃ l', updateFirst f l = some l' ∧ l'.filter NetworkRoleEntry.isActiveValidator =
      [f e].filter NetworkRoleEntry.isActiveValidator ++ rest := by
  induction l with
  | nil => cases h
  | cons d l ih =>
    unfold updateFirst
    by_cases hd : d.isActiveValidator = true
    · rw [List.filter_cons_of_pos hd] at h
      cases h
      refine ⟨f e :: l, if_pos hd, ?_⟩
      rw [← List.filter_append]
      rfl
    · rw [List.filter_cons_of_neg hd] at h
      obtain ⟨l', hl', hf⟩ := ih h
      refine ⟨d :: l', ?_, ?_⟩
      · rw [if_neg hd, hl']
        rfl
      · rw [List.filter_cons_of_neg hd, hf]

/-- The list of entries behind a nonempty list of active ones. -/
theorem find?_of_activeEntries (e : NetworkRoleEntry) (rest : List NetworkRoleEntry)
    (h : r.activeEntries account = e :: rest) :
    ∃ l, r.entries.find? account = some l ∧ l.filter NetworkRoleEntry.isActiveValidator = e :: rest := by
  unfold activeEntries at h
  cases hf : r.entries.find? account with
  | none =>
    rw [hf] at h
    cases h
  | some l =>
    rw [hf] at h
    exact ⟨l, rfl, h⟩

theorem activeEntries_insert (l : List NetworkRoleEntry) (hr : r'.entries = r.entries.insert account l) :
    r'.activeEntries j = if j = account then l.filter NetworkRoleEntry.isActiveValidator
      else r.activeEntries j := by
  unfold activeEntries
  rw [hr]
  by_cases hj : j = account
  · rw [if_pos hj, hj, SortedMap.find?_insert_self]
    rfl
  · rw [if_neg hj, SortedMap.find?_insert_ne _ _ _ _ hj]

theorem registerValidator_spec (stake : Balance) (isBootstrap : Bool) (block : Nat)
    (h : r.registerValidator account stake isBootstrap block = .ok r') :
    (r'.isValidator j = if j = account then true else r.isValidator j) ∧
      r'.activeEntries j = if j = account then
        r.activeEntries account ++ [NetworkRoleEntry.newValidator account stake isBootstrap block]
      else r.activeEntries j := by
  unfold registerValidator at h
  split at h
  · cases h
  · cases h
    constructor
    · by_cases hj : j = account
      · simp [isValidator, hj]
      · simp [isValidator, hj]
    · rw [activeEntries_insert r _ account j _ rfl, List.filter_append]
      rfl

theorem unregisterValidator_spec (e : NetworkRoleEntry) (h : r.activeEntries account = [e]) :
    ∃ r', r.unregisterValidator account = .ok r' ∧
      (∀ j, r'.isValidator j = if j = account then false else r.isValidator j) ∧
      ∀ j, r'.activeEntries j = if j = account then [] else r.activeEntries j := by
  obtain ⟨l, hl, hf⟩ := r.find?_of_activeEntries account e [] h
  obtain ⟨l', hl', hf'⟩ := filter_updateFirst .deactivate l [] e hf
  unfold unregisterValidator
  rw [hl, Option.bind_some, hl']
  refine ⟨_, rfl, fun j => ?_, fun j => ?_⟩
  · by_cases hj : j = account
    · simp [isValidator, hj]
    · simp [isValidator, hj]
  · rw [activeEntries_insert r _ account j l' rfl, hf']
    simp [NetworkRoleEntry.isActiveValidator, NetworkRoleEntry.deactivate]

theorem updateValidatorStake_spec (e : NetworkRoleEntry) (stake : Balance)
    (h : r.activeEntries account = [e]) :
    ∃ r', r.updateValidatorStake account stake = .ok r' ∧ (∀ j, r'.isValidator j = r.isValidator j) ∧
      ∀ j, r'.activeEntries j =
        if j = account then [e.updateValidatorStake stake] else r.activeEntries j := by
  obtain ⟨l, hl, hf⟩ := r.find?_of_activeEntries account e [] h
  obtain ⟨l', hl', hf'⟩ := filter_updateFirst (fun e => e.updateValidatorStake stake) l [] e hf
  have hactive : (e.updateValidatorStake stake).isActiveValidator = true := by
    have he : e.isActiveValidator = true :=
      (List.mem_filter.mp (hf ▸ List.mem_singleton_self e)).2
    unfold NetworkRoleEntry.updateValidatorStake
    split <;> exact he
  unfold updateValidatorStake
  rw [hl, Option.bind_some, hl']
  refine ⟨_, rfl, fun j => rfl, fun j => ?_⟩
  rw [activeEntries_insert r _ account j l' rfl, hf', List.filter_cons_of_pos hactive]
  rfl

end NetworkRoleRegistry

/-! ## Agreement -/

namespace ValidatorSet

/-- The sum of the stakes. -/
def stakeSum (v : ValidatorSet) : Nat := v.validators.sumOf fun _ info => info.stake.val

structure Agrees (v : ValidatorSet) : Prop where
  total : v.totalStake.val = v.stakeSum
  role : ∀ id, v.validators.contains id = v.roleRegistry.isValidator id
  entry : ∀ id info, v.validators.find? id = some info →
    ∃ e, v.roleRegistry.activeEntries id = [e] ∧ e.recordedStake = some info.stake

/-- The ids agree, and who is not a validator has no active entry. -/
structure Roles (v : ValidatorSet) : Prop where
  role : ∀ id, v.roleRegistry.isValidator id = (v.validators.find? id).isSome
  entry : ∀ id, (v.roleRegistry.activeEntries id).length = if (v.validators.find? id).isSome then 1 else 0

def TotalOk (v : ValidatorSet) : Prop := v.totalStake.val = v.stakeSum

/-- Active entries record the stake of the set. -/
def Recorded (v : ValidatorSet) : Prop :=
  ∀ id info, v.validators.find? id = some info →
    ∀ e ∈ v.roleRegistry.activeEntries id, e.recordedStake = some info.stake

theorem Roles.singleton {v : ValidatorSet} (h : v.Roles) (id : AccountId) (info : ValidatorInfo)
    (hf : v.validators.find? id = some info) : ∃ e, v.roleRegistry.activeEntries id = [e] := by
  have := h.entry id
  rw [hf] at this
  exact List.length_eq_one_iff.mp this

theorem Roles.nil {v : ValidatorSet} (h : v.Roles) (id : AccountId)
    (hf : v.validators.find? id = none) : v.roleRegistry.activeEntries id = [] := by
  have := h.entry id
  rw [hf] at this
  exact List.length_eq_zero_iff.mp this

theorem agrees_iff (v : ValidatorSet) (h : v.Roles) (ht : v.TotalOk) : v.Agrees ↔ v.Recorded := by
  constructor
  · intro ha id info hf e he
    obtain ⟨d, hd, hrec⟩ := ha.entry id info hf
    rw [hd, List.mem_singleton] at he
    rwa [he]
  · intro hrec
    refine ⟨ht, fun id => (h.role id).symm, fun id info hf => ?_⟩
    obtain ⟨e, he⟩ := h.singleton id info hf
    exact ⟨e, he, hrec id info hf e (he ▸ List.mem_singleton_self e)⟩

/-! ## What an operation does -/

/-- What an operation that adds `d` to the stakes does to map, total and registry. -/
inductive Effect (v w : ValidatorSet) : Balance → Prop where
  | same (hv : w.validators = v.validators) (ht : w.totalStake = v.totalStake)
      (hr : w.roleRegistry = v.roleRegistry) : Effect v w 0
  | enter (id : AccountId) (info : ValidatorInfo) (isBootstrap : Bool) (block : Nat)
      (hnew : v.validators.find? id = none) (hv : w.validators = v.validators.insert id info)
      (ht : w.totalStake = Word.satAdd v.totalStake info.stake)
      (hr : v.roleRegistry.registerValidator id info.stake isBootstrap block = .ok w.roleRegistry) :
      Effect v w info.stake
  | leave (id : AccountId) (info : ValidatorInfo) (hold : v.validators.find? id = some info)
      (hv : w.validators = v.validators.erase id) (ht : w.totalStake = Word.satSub v.totalStake info.stake)
      (hr : w.roleRegistry = (v.roleRegistry.unregisterValidator id).toOption.getD v.roleRegistry) :
      Effect v w 0
  | touch (id : AccountId) (old info : ValidatorInfo) (hold : v.validators.find? id = some old)
      (hstake : info.stake = old.stake) (hv : w.validators = v.validators.insert id info)
      (ht : w.totalStake = v.totalStake) (hr : w.roleRegistry = v.roleRegistry) : Effect v w 0
  | restake (id : AccountId) (old info : ValidatorInfo) (d : Balance)
      (hold : v.validators.find? id = some old) (hstake : info.stake = Word.satAdd old.stake d)
      (hv : w.validators = v.validators.insert id info)
      (ht : w.totalStake = Word.satAdd (Word.satSub v.totalStake old.stake) info.stake)
      (hr : w.roleRegistry =
        (v.roleRegistry.updateValidatorStake id info.stake).toOption.getD v.roleRegistry) : Effect v w d

/-- The early candidates are not part of it. -/
theorem Effect.congr {v w w' : ValidatorSet} {d : Balance} (h : Effect v w d)
    (hv' : w'.validators = w.validators) (ht' : w'.totalStake = w.totalStake)
    (hr' : w'.roleRegistry = w.roleRegistry) : Effect v w' d := by
  cases h with
  | same hv ht hr => exact .same (hv'.trans hv) (ht'.trans ht) (hr'.trans hr)
  | enter id info isBootstrap block hnew hv ht hr =>
    exact .enter id info isBootstrap block hnew (hv'.trans hv) (ht'.trans ht) (hr' ▸ hr)
  | leave id info hold hv ht hr =>
    exact .leave id info hold (hv'.trans hv) (ht'.trans ht) (hr'.trans hr)
  | touch id old info hold hstake hv ht hr =>
    exact .touch id old info hold hstake (hv'.trans hv) (ht'.trans ht) (hr'.trans hr)
  | restake id old info d hold hstake hv ht hr =>
    exact .restake id old info d hold hstake (hv'.trans hv) (ht'.trans ht) (hr'.trans hr)

/-- Rewriting an entry of the map leaves the roles alone. -/
theorem Roles.amend {v w : ValidatorSet} (h : v.Roles) (id : AccountId) (old info : ValidatorInfo)
    (hold : v.validators.find? id = some old) (hv : w.validators = v.validators.insert id info)
    (hrole : ∀ j, w.roleRegistry.isValidator j = v.roleRegistry.isValidator j)
    (hentry : ∀ j, (w.roleRegistry.activeEntries j).length = (v.roleRegistry.activeEntries j).length) :
    w.Roles := by
  have hsome : ∀ j, (w.validators.find? j).isSome = (v.validators.find? j).isSome := by
    intro j
    rw [hv, SortedMap.find?_insert]
    split
    · next hj => rw [hj, hold]; rfl
    · rfl
  constructor
  · intro j
    rw [hsome, hrole, h.role]
  · intro j
    rw [hsome, hentry, h.entry]

theorem Roles.effect {v w : ValidatorSet} {d : Balance} (h : v.Roles) (he : Effect v w d) :
    w.Roles := by
  cases he with
  | same hv ht hr => exact ⟨by rw [hr, hv]; exact h.role, by rw [hr, hv]; exact h.entry⟩
  | enter id info isBootstrap block hnew hv ht hr =>
    have hspec := fun j => NetworkRoleRegistry.registerValidator_spec _ _ id j _ _ _ hr
    constructor
    · intro j
      rw [(hspec j).1, hv, SortedMap.find?_insert]
      by_cases hj : j = id
      · simp [hj]
      · simp [hj, h.role]
    · intro j
      rw [(hspec j).2, hv, SortedMap.find?_insert]
      by_cases hj : j = id
      · simp [hj, h.nil id hnew]
      · simp [hj, h.entry]
  | leave id info hold hv ht hr =>
    obtain ⟨e, he⟩ := h.singleton id info hold
    obtain ⟨r', hr', hrole, hentry⟩ := v.roleRegistry.unregisterValidator_spec id e he
    rw [hr'] at hr
    obtain rfl : w.roleRegistry = r' := hr
    constructor
    · intro j
      rw [hrole, hv, SortedMap.find?_erase]
      by_cases hj : j = id
      · simp [hj]
      · simp [hj, h.role]
    · intro j
      rw [hentry, hv, SortedMap.find?_erase]
      by_cases hj : j = id
      · simp [hj]
      · simp [hj, h.entry]
  | touch id old info hold hstake hv ht hr =>
    exact h.amend id old info hold hv (fun j => by rw [hr]) (fun j => by rw [hr])
  | restake id old info d hold hstake hv ht hr =>
    obtain ⟨e, he⟩ := h.singleton id old hold
    obtain ⟨r', hr', hrole, hentry⟩ := v.roleRegistry.updateValidatorStake_spec id e info.stake he
    rw [hr'] at hr
    obtain rfl : w.roleRegistry = r' := hr
    refine h.amend id old info hold hv hrole fun j => ?_
    rw [hentry]
    split
    · next hj => rw [hj, he]; rfl
    · rfl

theorem stakeSum_insert (v w : ValidatorSet) (id : AccountId) (info : ValidatorInfo)
    (hv : w.validators = v.validators.insert id info) :
    w.stakeSum + (v.validators.find? id).elim 0 (fun old => old.stake.val) =
      v.stakeSum + info.stake.val := by
  unfold stakeSum
  rw [hv]
  exact SortedMap.sumOf_insert _ _ _ _

theorem stake_le_stakeSum (v : ValidatorSet) (id : AccountId) (info : ValidatorInfo)
    (h : v.validators.find? id = some info) : info.stake.val ≤ v.stakeSum := by
  have := SortedMap.le_sumOf (fun _ info => info.stake.val) v.validators id
  rwa [h] at this

/-- The total follows the stakes unless it overflows. -/
theorem TotalOk.effect {v w : ValidatorSet} {d : Balance} (h : v.TotalOk) (he : Effect v w d)
    (hd : v.stakeSum + d.val < 2 ^ 128) : w.TotalOk := by
  unfold TotalOk at h ⊢
  cases he with
  | same hv ht hr =>
    unfold stakeSum at h ⊢
    rw [ht, hv]
    exact h
  | enter id info isBootstrap block hnew hv ht hr =>
    have hsum := stakeSum_insert v w id info hv
    rw [hnew, Option.elim_none] at hsum
    rw [ht, Word.val_satAdd_of_lt _ _ (by omega)]
    omega
  | leave id info hold hv ht hr =>
    have hsum := SortedMap.sumOf_erase (fun _ info => info.stake.val) v.validators id
    rw [hold, Option.elim_some] at hsum
    unfold stakeSum at h ⊢
    rw [ht, hv, Word.val_satSub]
    omega
  | touch id old info hold hstake hv ht hr =>
    have hsum := stakeSum_insert v w id info hv
    rw [hold, Option.elim_some, hstake] at hsum
    rw [ht]
    omega
  | restake id old info d hold hstake hv ht hr =>
    have hsum := stakeSum_insert v w id info hv
    have hle := stake_le_stakeSum v id old hold
    have hinfo : info.stake.val = old.stake.val + d.val := by
      rw [hstake, Word.val_satAdd_of_lt _ _ (by omega)]
    rw [hold, Option.elim_some] at hsum
    rw [ht, Word.val_satAdd_of_lt _ _ (by rw [Word.val_satSub]; omega), Word.val_satSub]
    omega

theorem recordedStake_updateValidatorStake (e : NetworkRoleEntry) (stake new : Balance)
    (h : e.recordedStake = some stake) : (e.updateValidatorStake new).recordedStake = some new := by
  unfold NetworkRoleEntry.updateValidatorStake
  unfold NetworkRoleEntry.recordedStake at h ⊢
  split at h
  · rfl
  · cases h

theorem Recorded.effect {v w : ValidatorSet} {d : Balance} (hrec : v.Recorded) (h : v.Roles)
    (he : Effect v w d) : w.Recorded := by
  intro j x hx y hy
  cases he with
  | same hv ht hr =>
    rw [hv] at hx
    rw [hr] at hy
    exact hrec j x hx y hy
  | enter id info isBootstrap block hnew hv ht hr =>
    rw [(NetworkRoleRegistry.registerValidator_spec _ _ id j _ _ _ hr).2] at hy
    rw [hv, SortedMap.find?_insert] at hx
    by_cases hj : j = id
    · rw [if_pos hj, h.nil id hnew, List.nil_append, List.mem_singleton] at hy
      rw [if_pos hj] at hx
      cases hx
      rw [hy]
      rfl
    · rw [if_neg hj] at hx hy
      exact hrec j x hx y hy
  | leave id info hold hv ht hr =>
    obtain ⟨e, he⟩ := h.singleton id info hold
    obtain ⟨r', hr', -, hentry⟩ := v.roleRegistry.unregisterValidator_spec id e he
    rw [hr'] at hr
    obtain rfl : w.roleRegistry = r' := hr
    rw [hentry] at hy
    rw [hv, SortedMap.find?_erase] at hx
    by_cases hj : j = id
    · rw [if_pos hj] at hx
      cases hx
    · rw [if_neg hj] at hx hy
      exact hrec j x hx y hy
  | touch id old info hold hstake hv ht hr =>
    rw [hr] at hy
    rw [hv, SortedMap.find?_insert] at hx
    by_cases hj : j = id
    · rw [if_pos hj] at hx
      cases hx
      rw [hstake]
      exact hrec j old (by rw [hj]; exact hold) y hy
    · rw [if_neg hj] at hx
      exact hrec j x hx y hy
  | restake id old info d hold hstake hv ht hr =>
    obtain ⟨e, he⟩ := h.singleton id old hold
    obtain ⟨r', hr', -, hentry⟩ := v.roleRegistry.updateValidatorStake_spec id e info.stake he
    rw [hr'] at hr
    obtain rfl : w.roleRegistry = r' := hr
    rw [hentry] at hy
    rw [hv, SortedMap.find?_insert] at hx
    by_cases hj : j = id
    · rw [if_pos hj, List.mem_singleton] at hy
      rw [if_pos hj] at hx
      cases hx
      rw [hy]
      exact recordedStake_updateValidatorStake e old.stake _
        (hrec id old hold e (he ▸ List.mem_singleton_self e))
    · rw [if_neg hj] at hx hy
      exact hrec j x hx y hy

/-! ## The operations -/

/-- An added validator is new. -/
theorem addValidator_ok (v w : ValidatorSet) (h : v.Roles) (info : ValidatorInfo)
    (hw : v.addValidator info = .ok w) :
    v.validators.find? info.id = none ∧ w.validators = v.validators.insert info.id info ∧
      w.totalStake = Word.satAdd v.totalStake info.stake ∧
      v.roleRegistry.registerValidator info.id info.stake info.isBootstrapValidator info.registeredAt =
        .ok w.roleRegistry := by
  unfold addValidator at hw
  split at hw
  · cases hw
  split at hw
  · cases hw
  · cases hw
  · next r hr =>
    cases hw
    refine ⟨?_, rfl, rfl, hr⟩
    have hnot : ¬ v.roleRegistry.isValidator info.id = true := by
      unfold NetworkRoleRegistry.registerValidator at hr
      split at hr
      · cases hr
      · assumption
    rw [h.role] at hnot
    exact Option.not_isSome_iff_eq_none.mp hnot

theorem effect_addValidator (v w : ValidatorSet) (h : v.Roles) (info : ValidatorInfo)
    (hw : v.addValidator info = .ok w) : Effect v w info.stake := by
  obtain ⟨hnew, hv, ht, hr⟩ := addValidator_ok v w h info hw
  exact .enter info.id info info.isBootstrapValidator info.registeredAt hnew hv ht hr

theorem effect_removeValidator (v w : ValidatorSet) (id : AccountId) (info : ValidatorInfo)
    (hw : v.removeValidator id = .ok (w, info)) : Effect v w 0 := by
  unfold removeValidator at hw
  cases hf : v.validators.find? id with
  | none =>
    rw [hf] at hw
    cases hw
  | some old =>
    rw [hf] at hw
    cases hw
    exact .leave id info hf rfl rfl rfl

theorem effect_ensureBootstrapValidator (v w : ValidatorSet) (h : v.Roles) (id : AccountId) (block : Nat)
    (hw : v.ensureBootstrapValidator id block = .ok w) : Effect v w 0 := by
  unfold ensureBootstrapValidator at hw
  cases hf : v.validators.find? id with
  | some existing =>
    rw [hf] at hw
    simp only at hw
    split at hw
    · cases hw
      exact .touch id existing
        { existing with isBootstrapValidator := true, status := .active, reputation := 100 } hf rfl rfl rfl rfl
    · cases hw
      exact .same rfl rfl rfl
  | none =>
    rw [hf] at hw
    simp only at hw
    split at hw
    · next r hr =>
      cases hw
      exact .enter id (ValidatorInfo.newBootstrap id block) _ _ hf rfl rfl hr
    · next hr =>
      -- in the registry but not in the map: the roles exclude it
      have hnot := h.role id
      rw [hf] at hnot
      unfold NetworkRoleRegistry.registerValidator at hr
      rw [if_neg (by
        show ¬ v.roleRegistry.isValidator id = true
        rw [hnot]
        decide)] at hr
      cases hr
    · cases hw

theorem stake_addStake (info : ValidatorInfo) (amount : Balance) :
    (info.addStake amount).stake = Word.satAdd info.stake amount := by
  unfold ValidatorInfo.addStake ValidatorInfo.transitionFromBootstrap
  simp only
  split <;> rfl

theorem effect_updateValidatorStake (v w : ValidatorSet) (id : AccountId) (amount : Balance)
    (hw : v.updateValidatorStake id amount = .ok w) : Effect v w amount := by
  unfold updateValidatorStake at hw
  cases hf : v.validators.find? id with
  | none =>
    rw [hf] at hw
    cases hw
  | some old =>
    rw [hf] at hw
    cases hw
    exact .restake id old _ amount hf (stake_addStake old amount) rfl rfl rfl

theorem effect_approveEarlyValidator (v w : ValidatorSet) (h : v.Roles) (candidate : AccountId)
    (block : Nat) (hw : v.approveEarlyValidator candidate block = .ok w) : Effect v w 0 := by
  unfold approveEarlyValidator at hw
  split at hw
  · cases hw
  split at hw
  · cases hw
  split at hw
  · cases hw
  split at hw
  · cases hw
  · next added hadd =>
    cases hw
    -- the candidacy is not part of the agreement
    exact (effect_addValidator v added h _ hadd).congr rfl rfl rfl

/-! ## Runs -/

/-- Everything but the recorded stakes. -/
structure Rostered (v : ValidatorSet) : Prop where
  roles : v.Roles
  total : v.TotalOk

/-- What holds of a set in every state of a run without overflow. -/
structure Synced (v : ValidatorSet) : Prop extends Rostered v where
  recorded : v.Recorded

theorem Synced.effect {v w : ValidatorSet} {d : Balance} (h : v.Synced) (he : Effect v w d)
    (hd : v.stakeSum + d.val < 2 ^ 128) : w.Synced :=
  ⟨⟨h.roles.effect he, h.total.effect he hd⟩, h.recorded.effect h.roles he⟩

theorem Synced.agrees {v : ValidatorSet} (h : v.Synced) : v.Agrees :=
  (agrees_iff v h.roles h.total).mpr h.recorded

theorem new_synced : new.Synced where
  roles := ⟨fun _ => rfl, fun _ => rfl⟩
  total := rfl
  recorded _ _ h := by cases h

theorem TotalOk.stakeSum_lt {v : ValidatorSet} (h : v.TotalOk) : v.stakeSum < 2 ^ 128 :=
  h ▸ v.totalStake.isLt

/-- What removals keep holds after the removals of a transition. -/
theorem processBootstrapTransitions_inv (P : ValidatorSet → Prop)
    (hstep : ∀ v w id info, P v → v.removeValidator id = .ok (w, info) → P w) (v : ValidatorSet)
    (currentBlock : Nat) (h : P v) : P (v.processBootstrapTransitions currentBlock).1 := by
  unfold processBootstrapTransitions
  simp only
  suffices ∀ (l : List AccountId) (r : ValidatorSet × List AccountId), P r.1 →
      P (l.foldl (fun r id =>
        match r.1.removeValidator id with
        | .ok (v, _) => (v, r.2 ++ [id])
        | .error _ => r) r).1 from this _ _ h
  intro l
  induction l with
  | nil =>
    intro r hr
    exact hr
  | cons id l ih =>
    intro r hr
    apply ih
    simp only
    split
    · next w info hw => exact hstep _ w id info hr hw
    · exact hr

theorem Synced.processBootstrapTransitions {v : ValidatorSet} (h : v.Synced) (currentBlock : Nat) :
    (v.processBootstrapTransitions currentBlock).1.Synced :=
  processBootstrapTransitions_inv Synced
    (fun u w id info hu hw => hu.effect (effect_removeValidator u w id info hw) hu.total.stakeSum_lt) v currentBlock h

end ValidatorSet

/-- A call of the validator set. -/
inductive SetOp where
  | addValidator (info : ValidatorInfo)
  | removeValidator (id : AccountId)
  | ensureBootstrapValidator (id : AccountId) (block : Nat)
  | updateValidatorStake (id : AccountId) (amount : Balance)
  | proposeEarlyValidator (candidate proposer : AccountId) (block : Nat)
  | voteEarlyValidator (candidate voter : AccountId) (block : Nat)
  | approveEarlyValidator (candidate : AccountId) (block : Nat)
  | processBootstrapTransitions (block : Nat)
deriving DecidableEq

/-- The stake a call adds. -/
def SetOp.adds : SetOp → Balance
  | addValidator info => info.stake
  | updateValidatorStake _ amount => amount
  | _ => 0

namespace ValidatorSet

def apply (v : ValidatorSet) : SetOp → ValidatorSet
  | .addValidator info => (v.addValidator info).orKeep v
  | .removeValidator id => ((v.removeValidator id).map Prod.fst).orKeep v
  | .ensureBootstrapValidator id block => (v.ensureBootstrapValidator id block).orKeep v
  | .updateValidatorStake id amount => (v.updateValidatorStake id amount).orKeep v
  | .proposeEarlyValidator candidate proposer block =>
    (v.proposeEarlyValidator candidate proposer block).orKeep v
  | .voteEarlyValidator candidate voter block => (v.voteEarlyValidator candidate voter block).1
  | .approveEarlyValidator candidate block => (v.approveEarlyValidator candidate block).orKeep v
  | .processBootstrapTransitions block => (v.processBootstrapTransitions block).1

/-- The sum of the stakes stays below 2¹²⁸. -/
def Fits (v : ValidatorSet) (op : SetOp) : Prop := v.stakeSum + op.adds.val < 2 ^ 128

instance (v : ValidatorSet) (op : SetOp) : Decidable (v.Fits op) :=
  inferInstanceAs (Decidable (v.stakeSum + op.adds.val < 2 ^ 128))

theorem effect_proposeEarlyValidator (v w : ValidatorSet) (candidate proposer : AccountId) (block : Nat)
    (hw : v.proposeEarlyValidator candidate proposer block = .ok w) : Effect v w 0 := by
  unfold proposeEarlyValidator at hw
  repeat' split at hw
  all_goals cases hw
  exact .same rfl rfl rfl

theorem effect_voteEarlyValidator (v : ValidatorSet) (candidate voter : AccountId) (block : Nat) :
    Effect v (v.voteEarlyValidator candidate voter block).1 0 := by
  unfold voteEarlyValidator
  repeat' split
  all_goals exact .same rfl rfl rfl

theorem Synced.apply {v : ValidatorSet} (h : v.Synced) (op : SetOp) (hfits : v.Fits op) :
    (v.apply op).Synced := by
  have hlt := h.total.stakeSum_lt
  cases op with
  | addValidator info =>
    exact Except.orKeep_of _ _ _ h fun w hw => h.effect (effect_addValidator v w h.roles info hw) hfits
  | removeValidator id =>
    exact Except.orKeep_map_of _ _ _ h fun w info hw => h.effect (effect_removeValidator v w id info hw) hlt
  | ensureBootstrapValidator id block =>
    exact Except.orKeep_of _ _ _ h fun w hw =>
      h.effect (effect_ensureBootstrapValidator v w h.roles id block hw) hlt
  | updateValidatorStake id amount =>
    exact Except.orKeep_of _ _ _ h fun w hw =>
      h.effect (effect_updateValidatorStake v w id amount hw) hfits
  | proposeEarlyValidator candidate proposer block =>
    exact Except.orKeep_of _ _ _ h fun w hw =>
      h.effect (effect_proposeEarlyValidator v w candidate proposer block hw) hlt
  | voteEarlyValidator candidate voter block =>
    exact h.effect (effect_voteEarlyValidator v candidate voter block) hlt
  | approveEarlyValidator candidate block =>
    exact Except.orKeep_of _ _ _ h fun w hw =>
      h.effect (effect_approveEarlyValidator v w h.roles candidate block hw) hlt
  | processBootstrapTransitions block => exact h.processBootstrapTransitions block

/-- **Every set reachable from the empty one without overflow agrees with its registry.** -/
theorem run_synced (ops : List SetOp) (h : Run.Meets apply Fits new ops) :
    (ops.foldl apply new).Synced :=
  Run.inv_foldl apply Fits Synced (fun _ op hv hf => hv.apply op hf) new ops new_synced h

/-! ## Ids -/

/-- Validators are stored under their own id. -/
def Keyed (v : ValidatorSet) : Prop := ∀ id info, v.validators.find? id = some info → info.id = id

theorem Keyed.of_insert {v w : ValidatorSet} (h : v.Keyed) (id : AccountId) (info : ValidatorInfo)
    (hid : info.id = id) (hw : w.validators = v.validators.insert id info) : w.Keyed := by
  intro j i hj
  rw [hw, SortedMap.find?_insert] at hj
  split at hj
  · next he =>
    rw [← Option.some.inj hj, hid, he]
  · exact h j i hj

theorem Keyed.addValidator {v w : ValidatorSet} (h : v.Keyed) (info : ValidatorInfo)
    (hw : v.addValidator info = .ok w) : w.Keyed := by
  unfold ValidatorSet.addValidator at hw
  split at hw
  · cases hw
  split at hw
  · cases hw
  · cases hw
  · cases hw
    exact h.of_insert info.id info rfl rfl

theorem Keyed.ensureBootstrapValidator {v w : ValidatorSet} (h : v.Keyed) (id : AccountId) (block : Nat)
    (hw : v.ensureBootstrapValidator id block = .ok w) : w.Keyed := by
  unfold ValidatorSet.ensureBootstrapValidator at hw
  cases hf : v.validators.find? id with
  | some existing =>
    rw [hf] at hw
    simp only at hw
    split at hw
    · cases hw
      exact h.of_insert id { existing with isBootstrapValidator := true, status := .active, reputation := 100 }
        (h id existing hf) rfl
    · cases hw
      exact h
  | none =>
    rw [hf] at hw
    simp only at hw
    split at hw
    · cases hw
      exact h.of_insert id (ValidatorInfo.newBootstrap id block) rfl rfl
    · cases hw
      exact h.of_insert id (ValidatorInfo.newBootstrap id block) rfl rfl
    · cases hw

theorem id_addStake (info : ValidatorInfo) (amount : Balance) : (info.addStake amount).id = info.id := by
  unfold ValidatorInfo.addStake ValidatorInfo.transitionFromBootstrap
  simp only
  split <;> rfl

theorem Keyed.updateValidatorStake {v w : ValidatorSet} (h : v.Keyed) (id : AccountId) (amount : Balance)
    (hw : v.updateValidatorStake id amount = .ok w) : w.Keyed := by
  unfold ValidatorSet.updateValidatorStake at hw
  cases hf : v.validators.find? id with
  | none =>
    rw [hf] at hw
    cases hw
  | some old =>
    rw [hf] at hw
    cases hw
    exact h.of_insert id (old.addStake amount) ((id_addStake old amount).trans (h id old hf)) rfl

theorem Keyed.removeValidator {v w : ValidatorSet} (h : v.Keyed) (id : AccountId) (info : ValidatorInfo)
    (hw : v.removeValidator id = .ok (w, info)) : w.Keyed := by
  unfold ValidatorSet.removeValidator at hw
  cases hf : v.validators.find? id with
  | none =>
    rw [hf] at hw
    cases hw
  | some old =>
    rw [hf] at hw
    cases hw
    intro j i hj
    simp only [SortedMap.find?_erase] at hj
    split at hj
    · cases hj
    · exact h j i hj

theorem Keyed.processBootstrapTransitions {v : ValidatorSet} (h : v.Keyed) (currentBlock : Nat) :
    (v.processBootstrapTransitions currentBlock).1.Keyed :=
  processBootstrapTransitions_inv Keyed (fun _ _ id info hv hw => hv.removeValidator id info hw) v currentBlock h

theorem Keyed.approveEarlyValidator {v w : ValidatorSet} (h : v.Keyed) (candidate : AccountId) (block : Nat)
    (hw : v.approveEarlyValidator candidate block = .ok w) : w.Keyed := by
  unfold ValidatorSet.approveEarlyValidator at hw
  split at hw
  · cases hw
  split at hw
  · cases hw
  split at hw
  · cases hw
  split at hw
  · cases hw
  · next added hadd =>
    cases hw
    -- the candidacies are not part of it
    exact fun id info => h.addValidator _ hadd id info

theorem Keyed.apply {v : ValidatorSet} (h : v.Keyed) (op : SetOp) : (v.apply op).Keyed := by
  cases op with
  | addValidator info => exact Except.orKeep_of _ _ _ h fun w hw => h.addValidator info hw
  | removeValidator id => exact Except.orKeep_map_of _ _ _ h fun w info hw => h.removeValidator id info hw
  | ensureBootstrapValidator id block =>
    exact Except.orKeep_of _ _ _ h fun w hw => h.ensureBootstrapValidator id block hw
  | updateValidatorStake id amount =>
    exact Except.orKeep_of _ _ _ h fun w hw => h.updateValidatorStake id amount hw
  | proposeEarlyValidator candidate proposer block =>
    refine Except.orKeep_of _ _ _ h fun w hw => ?_
    rw [Keyed, validators_proposeEarlyValidator v w candidate proposer block hw]
    exact h
  | voteEarlyValidator candidate voter block =>
    rw [Keyed, ValidatorSet.apply, validators_voteEarlyValidator]
    exact h
  | approveEarlyValidator candidate block =>
    exact Except.orKeep_of _ _ _ h fun w hw => h.approveEarlyValidator candidate block hw
  | processBootstrapTransitions block => exact h.processBootstrapTransitions block

/-- Every set built by the operations is keyed by the ids of its validators. -/
theorem run_keyed (ops : List SetOp) : (ops.foldl apply new).Keyed := by
  suffices ∀ v : ValidatorSet, v.Keyed → (ops.foldl apply v).Keyed from this new fun _ _ h => by cases h
  induction ops with
  | nil => exact fun v hv => hv
  | cons op ops ih => exact fun v hv => ih _ (hv.apply op)

end ValidatorSet

end Kratos
