import Kratos.Lib.IterOrder
import Kratos.Node.Genesis

/-!
# Ways into a chain

The node that starts a chain builds its genesis from a specification (`build`), a joining
node applies what it received from the network (`joinGenesis`, over
`applyReceivedGenesisState`), and `applyToState` writes the balances and the validators of
a specification and nothing else.  Balances are a hash map, iterated in some order.  A
validator with an account of its own in the balances is no special case.

`genesis_entries_agree`: they lead to the same accounts, credits and validators, whatever
the order; the joining node ends with the very backend of the first one.
-/

namespace Kratos

structure GenesisValidator where
  account : AccountId
  stake : Balance
  isBootstrapValidator : Bool
deriving DecidableEq, Repr

/-- The tokenomics of the specification are not read. -/
structure GenesisSpec where
  timestamp : Nat
  balances : SortedMap AccountId Balance
  validators : List GenesisValidator

def GenesisValidator.info (g : GenesisValidator) : GenesisValidatorInfo :=
  { account := g.account, stake := g.stake, isBootstrapValidator := g.isBootstrapValidator }

namespace GenesisSpec

def genesisTimestamp : Nat := 1735689600

/-- The validators as they are sent to joining nodes. -/
def networkValidators (spec : GenesisSpec) : List GenesisValidatorInfo :=
  spec.validators.map GenesisValidator.info

section Entries

variable (spec : GenesisSpec) (o : IterOrder (AccountId × Balance)) (s : StateBackend)

/-- Neither a block nor a state root nor a drift tracker. -/
def applyToState : StateBackend × Except GenesisError ValidatorSet :=
  addGenesisValidators (setGenesisBalances s (o.iter spec.balances.entries)) .new spec.networkValidators

def genesisBlock (stateRoot : Hash) : Block :=
  { header := { number := 0, parentHash := Hash.zero, transactionsRoot := Hash.zero, stateRoot
                timestamp := spec.timestamp, epoch := 0, slot := 0, author := ⟨0⟩, signature := ⟨0⟩ }
    body := { transactions := [] } }

/-- The genesis builder. -/
def build (cr : Crypto) : StateBackend × Except GenesisError (Block × ValidatorSet) :=
  match addGenesisValidators (setGenesisBalances s (o.iter spec.balances.entries)) .new
      spec.networkValidators with
  | (s, .error e) => (s, .error e)
  | (s, .ok validatorSet) =>
    let stateRoot := s.computeStateRoot cr 0 ⟨0⟩
    let s := s.storeStateRoot 0 stateRoot
    let s := s.initDriftTracker spec.timestamp
    (s, .ok (spec.genesisBlock stateRoot.root, validatorSet))

end Entries

end GenesisSpec

/-- What the service does with a genesis from the network before it applies its state. -/
def joinGenesis (cr : Crypto) (s : StateBackend) (block : Block) (validators : List GenesisValidatorInfo)
    (balances : List (AccountId × Balance)) : StateBackend × Except GenesisError ValidatorSet :=
  let s := s.storeBlock cr block
  let s := s.initDriftTracker block.header.timestamp
  applyReceivedGenesisState cr s validators balances block.header.stateRoot

/-! ## The order of the balances -/

theorem setGenesisBalances_perm (s : StateBackend) (m : SortedMap AccountId Balance)
    (l l' : List (AccountId × Balance)) (hl : l.Perm m.entries) (hl' : l'.Perm m.entries) :
    setGenesisBalances s l = setGenesisBalances s l' := by
  refine (hl.trans hl'.symm).foldl_eq' ?_ s
  rintro ⟨k, b⟩ hx ⟨j, c⟩ hy t
  by_cases hkj : k = j
  · -- a key has one balance
    subst hkj
    have hb := (m.mem_entries_iff k b).1 (hl.mem_iff.1 hx)
    have hc := (m.mem_entries_iff k c).1 (hl.mem_iff.1 hy)
    rw [hb] at hc
    cases hc
    rfl
  · unfold StateBackend.setAccount
    simp only [SortedMap.insert_comm _ _ _ _ _ hkj]

/-! ## What stands aside -/

/-- The accounts and the credits of one backend, everything else of another. -/
def StateBackend.withAside (s a : StateBackend) : StateBackend :=
  { a with accounts := s.accounts, vcRecords := s.vcRecords }

theorem setGenesisBalances_withAside (s a : StateBackend) (l : List (AccountId × Balance)) :
    setGenesisBalances (s.withAside a) l = (setGenesisBalances s l).withAside a := by
  unfold setGenesisBalances
  induction l generalizing s with
  | nil => rfl
  | cons e l ih => exact ih (s.setAccount e.1 { AccountInfo.new with free := e.2 })

/-- **Step.** -/
theorem addGenesisValidator_withAside (s a : StateBackend) (v : ValidatorSet) (g : GenesisValidatorInfo) :
    addGenesisValidator (s.withAside a) v g =
      ((addGenesisValidator s v g).1.withAside a, (addGenesisValidator s v g).2) := by
  unfold addGenesisValidator
  split
  · rfl
  · have hread : (s.withAside a).getAccount g.account = s.getAccount g.account := rfl
    rw [hread]
    cases s.getAccount g.account with
    | none => rfl
    | some info =>
      simp only
      cases info.reserve g.stake <;> rfl

theorem addGenesisValidators_withAside (s a : StateBackend) (v : ValidatorSet) (gs : List GenesisValidatorInfo) :
    addGenesisValidators (s.withAside a) v gs =
      ((addGenesisValidators s v gs).1.withAside a, (addGenesisValidators s v gs).2) := by
  induction gs generalizing s v with
  | nil => rfl
  | cons g gs ih =>
    unfold addGenesisValidators
    rw [addGenesisValidator_withAside]
    rcases addGenesisValidator s v g with ⟨s₁, _ | w⟩
    · rfl
    · exact ih s₁ w

/-! ## The entries agree -/

namespace GenesisSpec

/-- The backend and the validators all entries share. -/
def base (spec : GenesisSpec) (balances : List (AccountId × Balance)) :
    StateBackend × Except GenesisError ValidatorSet :=
  addGenesisValidators (setGenesisBalances .new balances) .new spec.networkValidators

theorem base_perm (spec : GenesisSpec) (l l' : List (AccountId × Balance)) (hl : l.Perm spec.balances.entries)
    (hl' : l'.Perm spec.balances.entries) : spec.base l = spec.base l' := by
  unfold base
  rw [setGenesisBalances_perm _ spec.balances l l' hl hl']

/-- A specification that can be built gives a validator set and the first state root. -/
theorem build_ok (cr : Crypto) (spec : GenesisSpec) (o : IterOrder (AccountId × Balance)) (block : Block)
    (v : ValidatorSet) (h : (spec.build o .new cr).2 = .ok (block, v)) :
    ∃ s, spec.base (o.iter spec.balances.entries) = (s, .ok v) ∧
      block = spec.genesisBlock (s.computeStateRoot cr 0 ⟨0⟩).root ∧
      (spec.build o .new cr).1 =
        (s.storeStateRoot 0 (s.computeStateRoot cr 0 ⟨0⟩)).initDriftTracker spec.timestamp := by
  unfold build at h ⊢
  unfold base
  generalize addGenesisValidators (setGenesisBalances .new (o.iter spec.balances.entries)) .new
    spec.networkValidators = r at h ⊢
  rcases r with ⟨s, _ | w⟩
  · cases h
  · cases h
    exact ⟨s, rfl, rfl, rfl⟩

/-- Started with anything else in the backend, it is still there at the end. -/
theorem base_withAside (spec : GenesisSpec) (l : List (AccountId × Balance)) (a : StateBackend) :
    addGenesisValidators (setGenesisBalances (StateBackend.new.withAside a) l) .new spec.networkValidators =
      ((spec.base l).1.withAside a, (spec.base l).2) := by
  rw [setGenesisBalances_withAside, addGenesisValidators_withAside]
  rfl

/-- The root of the header is the one the receiving node computes. -/
theorem applyReceived_withAside (cr : Crypto) (spec : GenesisSpec) (l : List (AccountId × Balance))
    (a s : StateBackend) (v : ValidatorSet) (h : spec.base l = (s, .ok v)) :
    applyReceivedGenesisState cr (StateBackend.new.withAside a) spec.networkValidators l
        (s.computeStateRoot cr 0 ⟨0⟩).root =
      ((s.withAside a).storeStateRoot 0 (s.computeStateRoot cr 0 ⟨0⟩), .ok v) := by
  unfold applyReceivedGenesisState
  rw [base_withAside, h]
  exact if_neg fun hne => hne rfl

/-- With a specification that can be built on an empty backend, whatever the order of its
balances: `applyToState` leaves the accounts, the credits and the validators of `build`, and
nothing else; a node that applies what it received from the network has the state root of
block 0 too, and with the tracker its service sets it ends with the same backend. -/
theorem genesis_entries_agree (cr : Crypto) (spec : GenesisSpec) (o : IterOrder (AccountId × Balance))
    (block : Block) (v : ValidatorSet) (h : (spec.build o .new cr).2 = .ok (block, v)) :
    (∀ o', spec.build o' .new cr = spec.build o .new cr) ∧
    (spec.build o .new cr).1.driftTracker = some (DriftTracker.new spec.timestamp) ∧
    (∀ o', spec.applyToState o' .new =
      ({ (spec.build o .new cr).1 with stateRoots := .empty, driftTracker := none }, .ok v)) ∧
    (∀ balances, balances.Perm spec.balances.entries →
      applyReceivedGenesisState cr .new spec.networkValidators balances block.header.stateRoot =
        ({ (spec.build o .new cr).1 with driftTracker := none }, .ok v) ∧
      applyReceivedGenesisState cr (StateBackend.new.initDriftTracker block.header.timestamp)
        spec.networkValidators balances block.header.stateRoot = ((spec.build o .new cr).1, .ok v) ∧
      joinGenesis cr .new block spec.networkValidators balances =
        ((spec.build o .new cr).1.storeBlock cr block, .ok v)) := by
  obtain ⟨s, hbase, rfl, hs⟩ := build_ok cr spec o block v h
  have hperm : ∀ l, l.Perm spec.balances.entries → spec.base l = (s, .ok v) := by
    intro l hl
    rw [← hbase]
    exact spec.base_perm l _ hl (o.perm _)
  -- nothing but accounts and credits is written by the loops
  have haside : s.withAside .new = s := by
    have := spec.base_withAside (o.iter spec.balances.entries) .new
    rw [hbase] at this
    exact (Prod.mk.inj (this.symm.trans hbase)).1
  rw [hs]
  refine ⟨?_, rfl, ?_, ?_⟩
  · intro o'
    unfold build
    rw [setGenesisBalances_perm .new spec.balances _ _ (o'.perm _) (o.perm _)]
  · intro o'
    refine (hperm _ (o'.perm _)).trans ?_
    rw [← haside]
    rfl
  · intro l hl
    have hreceived := fun a => applyReceived_withAside cr spec l a s v (hperm l hl)
    refine ⟨(hreceived .new).trans ?_, (hreceived (.initDriftTracker .new spec.timestamp)).trans ?_,
      (hreceived (.initDriftTracker (.storeBlock cr .new (spec.genesisBlock _)) spec.timestamp)).trans ?_⟩
    all_goals
      rw [← haside]
      rfl

/-- Two validators, one of them with a stake out of its balance. -/
def sample : GenesisSpec :=
  { timestamp := genesisTimestamp, balances := SortedMap.empty.insert ⟨2⟩ (100000 * krat)
    validators := [⟨⟨1⟩, 0, true⟩, ⟨⟨2⟩, 50000 * krat, false⟩] }

theorem sample_isOk (cr : Crypto) : ∃ block v, (sample.build .stored .new cr).2 = .ok (block, v) := by
  refine ⟨_, _, rfl⟩

theorem genesis_entries_agree_sample :
    ∃ block v, (sample.build .stored .new Crypto.sample).2 = .ok (block, v) ∧
      joinGenesis Crypto.sample .new block sample.networkValidators [(⟨2⟩, 100000 * krat)] =
        ((sample.build .stored .new Crypto.sample).1.storeBlock Crypto.sample block, .ok v) := by
  obtain ⟨block, v, h⟩ := sample_isOk Crypto.sample
  refine ⟨block, v, h, ?_⟩
  exact ((genesis_entries_agree _ sample .stored block v h).2.2.2 _ (List.Perm.refl _)).2.2

/-- The specification alone leaves no state root and no drift tracker behind. -/
theorem applyToState_without_root :
    (∃ block v, (sample.build .stored .new Crypto.sample).2 = .ok (block, v) ∧
      (sample.applyToState .stored .new).2 = .ok v) ∧
    (sample.build .stored .new Crypto.sample).1.stateRoots.find? 0 ≠
      (sample.applyToState .stored .new).1.stateRoots.find? 0 ∧
    (sample.build .stored .new Crypto.sample).1.driftTracker ≠
      (sample.applyToState .stored .new).1.driftTracker := by
  refine ⟨⟨_, _, rfl, rfl⟩, ?_, ?_⟩
  · show some _ ≠ none
    nofun
  · show some _ ≠ none
    nofun

end GenesisSpec

end Kratos
