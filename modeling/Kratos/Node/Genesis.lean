import Kratos.Consensus.Validator
import Kratos.Storage.State

/-!
# Genesis received from the network

A joining node writes the balances it was sent, reserves the stake of every
regular validator from its balance, and compares the state root.  The stakes of
the validator set this returns are backed by reserved balances
(`backed_applyReceivedGenesisState`).
-/

namespace Kratos

structure GenesisValidatorInfo where
  account : AccountId
  stake : Balance
  isBootstrapValidator : Bool
deriving DecidableEq, Repr

inductive GenesisError where
  | validatorAccountNotFound (account : AccountId)
  | cannotReserveStake (e : AccountError)
  | addingValidator (e : ValidatorError)
  | stateRootMismatch (expected computed : Hash)
deriving DecidableEq, Repr

/-- Every entry's stake is reserved on its account. -/
def ValidatorSet.Backed (v : ValidatorSet) (s : StateBackend) : Prop :=
  ∀ info ∈ v.validators.values, info.stake.val ≤ (s.accountOrNew info.id).reserved.val

def setGenesisBalances (s : StateBackend) (balances : List (AccountId × Balance)) : StateBackend :=
  balances.foldl (fun s e => s.setAccount e.1 { AccountInfo.new with free := e.2 }) s

/-- One validator: its account first, then its entry. -/
def addGenesisValidator (s : StateBackend) (v : ValidatorSet) (validator : GenesisValidatorInfo) :
    StateBackend × Except GenesisError ValidatorSet :=
  if validator.isBootstrapValidator then
    let s := s.setAccount validator.account (s.accountOrNew validator.account)
    let s := s.initializeBootstrapVc validator.account 0 0
    (s, (v.addValidator (.newBootstrap validator.account 0)).mapError .addingValidator)
  else
    match s.getAccount validator.account with
    | none => (s, .error (.validatorAccountNotFound validator.account))
    | some accountInfo =>
      match accountInfo.reserve validator.stake with
      | .error e => (s, .error (.cannotReserveStake e))
      | .ok accountInfo =>
        (s.setAccount validator.account accountInfo,
          (v.addValidator (.new validator.account validator.stake 0)).mapError .addingValidator)

def addGenesisValidators : StateBackend → ValidatorSet → List GenesisValidatorInfo →
    StateBackend × Except GenesisError ValidatorSet
  | s, v, [] => (s, .ok v)
  | s, v, validator :: validators =>
    match addGenesisValidator s v validator with
    | (s, .error e) => (s, .error e)
    | (s, .ok v) => addGenesisValidators s v validators

def applyReceivedGenesisState (cr : Crypto) (s : StateBackend) (validators : List GenesisValidatorInfo)
    (balances : List (AccountId × Balance)) (expectedStateRoot : Hash) :
    StateBackend × Except GenesisError ValidatorSet :=
  match addGenesisValidators (setGenesisBalances s balances) .new validators with
  | (s, .error e) => (s, .error e)
  | (s, .ok validatorSet) =>
    let stateRoot := s.computeStateRoot cr 0 ⟨0⟩
    if stateRoot.root ≠ expectedStateRoot then
      (s, .error (.stateRootMismatch expectedStateRoot stateRoot.root))
    else (s.storeStateRoot 0 stateRoot, .ok validatorSet)

/-! ## Stakes are backed -/

namespace ValidatorSet

/-- Reserved balances that do not fall keep the stakes backed. -/
theorem Backed.mono (v : ValidatorSet) (s t : StateBackend) (h : Backed v s)
    (hle : ∀ j, (s.accountOrNew j).reserved.val ≤ (t.accountOrNew j).reserved.val) : Backed v t :=
  fun info hi => le_trans (h info hi) (hle info.id)

theorem Backed.of_keepsStakes (v w : ValidatorSet) (s : StateBackend) (h : Backed v s)
    (hk : KeepsStakes v w) : Backed w s := by
  intro info hi
  rcases hk info hi with hz | ⟨old, hold, hid, hstake⟩
  · rw [hz]
    exact Nat.zero_le _
  · rw [← hid, ← hstake]
    exact h old hold

theorem Backed.addValidator (v w : ValidatorSet) (s : StateBackend) (info : ValidatorInfo)
    (h : Backed v s) (hinfo : info.stake.val ≤ (s.accountOrNew info.id).reserved.val)
    (hw : v.addValidator info = .ok w) : Backed w s := by
  unfold ValidatorSet.addValidator at hw
  split at hw
  · cases hw
  · split at hw <;> cases hw
    intro x hx
    obtain ⟨e, he, rfl⟩ := List.mem_map.mp hx
    rcases SortedMap.mem_insertList info.id info _ e he with rfl | hold
    · exact hinfo
    · exact h e.2 (List.mem_map.mpr ⟨e, hold, rfl⟩)

end ValidatorSet

/-- Reserving moves the whole stake into the reserved balance. -/
theorem AccountInfo.reserved_reserve (a a' : AccountInfo) (amount : Balance)
    (h : a.reserve amount = .ok a') :
    a.reserved.val ≤ a'.reserved.val ∧ amount.val ≤ a'.reserved.val := by
  unfold AccountInfo.reserve at h
  split at h
  · cases h
  · cases h
    have hr := a.reserved.isLt
    have ha := amount.isLt
    simp only [Word.val_satAdd]
    omega

/-- Writing a record with at least the reserved balance of the old one. -/
theorem StateBackend.le_reserved_setAccount (s : StateBackend) (id j : AccountId) (a : AccountInfo)
    (h : (s.accountOrNew id).reserved.val ≤ a.reserved.val) :
    (s.accountOrNew j).reserved.val ≤ ((s.setAccount id a).accountOrNew j).reserved.val := by
  rw [accountOrNew_setAccount]
  split
  · next hj =>
    rw [hj]
    exact h
  · exact le_rfl

theorem mapError_eq_ok {ε ε' α : Type} (g : ε → ε') (x : Except ε α) (a : α)
    (h : x.mapError g = .ok a) : x = .ok a := by
  cases x with
  | error e => cases h
  | ok b =>
    cases h
    rfl

/-- **Step.**  A validator's stake is reserved before its entry is added. -/
theorem backed_addGenesisValidator (s s' : StateBackend) (v w : ValidatorSet)
    (validator : GenesisValidatorInfo) (h : v.Backed s)
    (hadd : addGenesisValidator s v validator = (s', .ok w)) : w.Backed s' := by
  unfold addGenesisValidator at hadd
  split at hadd
  · simp only [Prod.mk.injEq] at hadd
    obtain ⟨rfl, hw⟩ := hadd
    refine ValidatorSet.Backed.addValidator v w _ _ ?_ (Nat.zero_le _) (mapError_eq_ok _ _ _ hw)
    exact ValidatorSet.Backed.mono v s _ h fun j => s.le_reserved_setAccount _ j _ le_rfl
  · split at hadd
    · cases hadd
    · next a hg =>
      split at hadd
      · cases hadd
      · next a' hres =>
        simp only [Prod.mk.injEq] at hadd
        obtain ⟨rfl, hw⟩ := hadd
        obtain ⟨hle, hstake⟩ := a.reserved_reserve a' _ hres
        refine ValidatorSet.Backed.addValidator v w _ _ ?_ ?_ (mapError_eq_ok _ _ _ hw)
        · refine ValidatorSet.Backed.mono v s _ h fun j => s.le_reserved_setAccount _ j _ ?_
          rw [s.accountOrNew_of_found _ _ hg]
          exact hle
        · change _ ≤ ((s.setAccount validator.account a').accountOrNew validator.account).reserved.val
          rw [StateBackend.accountOrNew_setAccount, if_pos rfl]
          exact hstake

theorem backed_addGenesisValidators (s s' : StateBackend) (v w : ValidatorSet)
    (validators : List GenesisValidatorInfo) (h : v.Backed s)
    (hadd : addGenesisValidators s v validators = (s', .ok w)) : w.Backed s' := by
  induction validators generalizing s v with
  | nil =>
    cases hadd
    exact h
  | cons validator validators ih =>
    unfold addGenesisValidators at hadd
    split at hadd
    · cases hadd
    · next s₁ v₁ hone => exact ih s₁ v₁ (backed_addGenesisValidator _ _ _ _ _ h hone) hadd

/-- **Genesis.**  Whatever balances and validators were received, the stakes of
the validator set are backed. -/
theorem backed_applyReceivedGenesisState (cr : Crypto) (s : StateBackend)
    (validators : List GenesisValidatorInfo) (balances : List (AccountId × Balance)) (root : Hash)
    (v : ValidatorSet) (h : (applyReceivedGenesisState cr s validators balances root).2 = .ok v) :
    v.Backed (applyReceivedGenesisState cr s validators balances root).1 := by
  have hnew : ValidatorSet.new.Backed (setGenesisBalances s balances) := by
    intro info hi
    cases hi
  unfold applyReceivedGenesisState at h ⊢
  cases hadd : addGenesisValidators (setGenesisBalances s balances) .new validators with
  | mk s₁ r =>
    cases r with
    | error e =>
      rw [hadd] at h
      cases h
    | ok v₁ =>
      have hbacked := backed_addGenesisValidators _ _ _ _ _ hnew hadd
      rw [hadd] at h
      simp only at h ⊢
      split at h
      · cases h
      · next hroot =>
        cases h
        rw [if_neg hroot]
        exact ValidatorSet.Backed.mono _ _ _ hbacked fun j => le_rfl

end Kratos
