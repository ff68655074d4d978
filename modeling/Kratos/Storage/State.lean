import Kratos.Consensus.ValidatorCredits
import Kratos.Lib.Merkle
import Kratos.Lib.SortedMap
import Kratos.Storage.Drift

/-!
# State backend

The records the node keeps, one map per key prefix: accounts, unbonding
requests, validator credits, the drift tracker, blocks and state roots.  The
database is taken as working (no read or write fails) and every record as
decodable, so the operations return plain values.
-/

namespace Kratos

structure UnbondingRequest where
  amount : Balance
  unbondingStarted : Nat
  releaseBlock : Nat
deriving DecidableEq, Repr

/-- The pending requests of one account. -/
structure UnbondingInfo where
  requests : List UnbondingRequest
deriving DecidableEq, Repr

def UnbondingInfo.total (u : UnbondingInfo) : Nat := (u.requests.map fun r => r.amount.val).sum

structure StateBackend where
  accounts : SortedMap AccountId AccountInfo
  unbonding : SortedMap AccountId UnbondingInfo
  vcRecords : SortedMap AccountId ValidatorCreditsRecord
  driftTracker : Option DriftTracker
  blocksByHash : SortedMap Hash Block
  blocksByNumber : SortedMap Nat Block
  blockHashes : SortedMap Nat Hash
  stateRoots : SortedMap Nat StateRoot
  bestBlock : Option Nat

inductive DatabaseError where
  | readFailed
  | writeFailed
deriving DecidableEq, Repr

/-- Serialization of the records cannot fail and has no error here. -/
inductive StateError where
  | accountNotFound (id : AccountId)
  | insufficientBalance (account : AccountId) (available required : Balance)
  | databaseError (e : DatabaseError)
  | deserializationFailed
  | driftTrackerNotInitialized
  | driftValidationFailed (e : DriftError)
deriving DecidableEq, Repr

namespace StateBackend

def new : StateBackend :=
  { accounts := .empty, unbonding := .empty, vcRecords := .empty, driftTracker := none
    blocksByHash := .empty, blocksByNumber := .empty, blockHashes := .empty, stateRoots := .empty
    bestBlock := none }

/-! ## Accounts -/

def getAccount (s : StateBackend) (id : AccountId) : Option AccountInfo := s.accounts.find? id

def setAccount (s : StateBackend) (id : AccountId) (info : AccountInfo) : StateBackend :=
  { s with accounts := s.accounts.insert id info }

@[simp] theorem getAccount_setAccount_self (s : StateBackend) (id : AccountId) (a : AccountInfo) :
    (s.setAccount id a).getAccount id = some a :=
  s.accounts.find?_insert_self id a

theorem getAccount_setAccount_ne (s : StateBackend) (id j : AccountId) (a : AccountInfo)
    (h : j ≠ id) : (s.setAccount id a).getAccount j = s.getAccount j :=
  s.accounts.find?_insert_ne id j a h

/-- The account, or a new one if it is absent. -/
def accountOrNew (s : StateBackend) (id : AccountId) : AccountInfo :=
  (s.getAccount id).getD AccountInfo.new

theorem accountOrNew_of_found (s : StateBackend) (id : AccountId) (a : AccountInfo)
    (h : s.getAccount id = some a) : s.accountOrNew id = a := by
  unfold accountOrNew
  rw [h]
  rfl

theorem accountOrNew_congr (s t : StateBackend) (h : s.accounts = t.accounts) (id : AccountId) :
    s.accountOrNew id = t.accountOrNew id := by
  unfold accountOrNew getAccount
  rw [h]

theorem accountOrNew_setAccount (s : StateBackend) (id j : AccountId) (a : AccountInfo) :
    (s.setAccount id a).accountOrNew j = if j = id then a else s.accountOrNew j := by
  unfold accountOrNew
  by_cases h : j = id
  · rw [if_pos h, h, s.getAccount_setAccount_self id a]
    rfl
  · rw [if_neg h, s.getAccount_setAccount_ne id j a h]

/-- The free balances of all accounts together. -/
def sumFree (s : StateBackend) : Nat := s.accounts.sumOf fun _ a => a.free.val

theorem sumFree_setAccount (s : StateBackend) (id : AccountId) (a : AccountInfo) :
    (s.setAccount id a).sumFree + (s.accountOrNew id).free.val = s.sumFree + a.free.val := by
  have h := s.accounts.sumOf_insert (fun _ a => a.free.val) id a
  have hold : (s.accounts.find? id).elim 0 (fun a => a.free.val) = (s.accountOrNew id).free.val := by
    unfold accountOrNew getAccount
    cases s.accounts.find? id <;> rfl
  unfold sumFree setAccount
  simp only at h ⊢
  omega

/-! ## Unbonding -/

def addUnbondingRequest (s : StateBackend) (id : AccountId) (amount : Balance) (currentBlock : Nat)
    (unbondingPeriod : Nat) : StateBackend :=
  let info := (s.unbonding.find? id).getD { requests := [] }
  let request := { amount, unbondingStarted := currentBlock
                   releaseBlock := Word.satAdd64 currentBlock unbondingPeriod }
  { s with unbonding := s.unbonding.insert id { requests := info.requests ++ [request] } }

/-- The requests that can be withdrawn at a block, and the others, in order. -/
def splitMatured (currentBlock : Nat) (l : List UnbondingRequest) :
    List UnbondingRequest × List UnbondingRequest :=
  l.partition fun r => decide (currentBlock ≥ r.releaseBlock)

def withdrawMaturedUnbonding (s : StateBackend) (id : AccountId) (currentBlock : Nat) :
    StateBackend × Balance :=
  match s.unbonding.find? id with
  | none => (s, 0)
  | some info =>
    let parts := splitMatured currentBlock info.requests
    let withdrawn := Word.satSum (parts.1.map fun r => r.amount) 0
    if parts.2.isEmpty then
      -- the record is deleted when nothing is pending any more
      ({ s with unbonding := s.unbonding.erase id }, withdrawn)
    else
      ({ s with unbonding := s.unbonding.insert id { requests := parts.2 } }, withdrawn)

/-- The requests on record for an account. -/
def requestsOf (s : StateBackend) (id : AccountId) : List UnbondingRequest :=
  (s.unbonding.find? id).elim [] UnbondingInfo.requests

theorem requestsOf_addUnbondingRequest (s : StateBackend) (id j : AccountId) (amount : Balance)
    (block period : Nat) :
    (s.addUnbondingRequest id amount block period).requestsOf j =
      if j = id then
        s.requestsOf id ++ [{ amount, unbondingStarted := block
                              releaseBlock := Word.satAdd64 block period }]
      else s.requestsOf j := by
  unfold requestsOf addUnbondingRequest
  simp only [SortedMap.find?_insert]
  split
  · cases s.unbonding.find? id <;> rfl
  · rfl

theorem withdrawMaturedUnbonding_paid (s : StateBackend) (id : AccountId) (block : Nat) :
    (s.withdrawMaturedUnbonding id block).2 =
      Word.satSum ((splitMatured block (s.requestsOf id)).1.map fun r => r.amount) 0 := by
  unfold withdrawMaturedUnbonding requestsOf
  cases s.unbonding.find? id with
  | none => rfl
  | some info =>
    simp only [Option.elim_some]
    split <;> rfl

theorem requestsOf_withdrawMaturedUnbonding (s : StateBackend) (id j : AccountId) (block : Nat) :
    (s.withdrawMaturedUnbonding id block).1.requestsOf j =
      if j = id then (splitMatured block (s.requestsOf id)).2 else s.requestsOf j := by
  unfold withdrawMaturedUnbonding requestsOf
  cases hf : s.unbonding.find? id with
  | none =>
    simp only
    split
    · next hj =>
      rw [hj, hf]
      rfl
    · rfl
  | some info =>
    simp only [Option.elim_some]
    split
    · next hempty =>
      simp only [SortedMap.find?_erase]
      split
      · exact (List.isEmpty_iff.mp hempty).symm
      · rfl
    · simp only [SortedMap.find?_insert]
      split <;> rfl

/-- A withdrawal writes unbonding records only. -/
theorem withdrawMaturedUnbonding_frame (s : StateBackend) (id : AccountId) (block : Nat) :
    { (s.withdrawMaturedUnbonding id block).1 with unbonding := s.unbonding } = s := by
  unfold withdrawMaturedUnbonding
  split
  · rfl
  · simp only
    split <;> rfl

@[simp] theorem accounts_withdrawMaturedUnbonding (s : StateBackend) (id : AccountId) (block : Nat) :
    (s.withdrawMaturedUnbonding id block).1.accounts = s.accounts :=
  (congrArg StateBackend.accounts (s.withdrawMaturedUnbonding_frame id block) :)

@[simp] theorem vcRecords_withdrawMaturedUnbonding (s : StateBackend) (id : AccountId) (block : Nat) :
    (s.withdrawMaturedUnbonding id block).1.vcRecords = s.vcRecords :=
  (congrArg StateBackend.vcRecords (s.withdrawMaturedUnbonding_frame id block) :)

@[simp] theorem getAccount_withdrawMaturedUnbonding (s : StateBackend) (id j : AccountId) (block : Nat) :
    (s.withdrawMaturedUnbonding id block).1.getAccount j = s.getAccount j := by
  unfold getAccount
  rw [accounts_withdrawMaturedUnbonding]

@[simp] theorem accountOrNew_withdrawMaturedUnbonding (s : StateBackend) (id j : AccountId)
    (block : Nat) : (s.withdrawMaturedUnbonding id block).1.accountOrNew j = s.accountOrNew j := by
  unfold accountOrNew
  rw [getAccount_withdrawMaturedUnbonding]

/-! ## Validator credits -/

def getTotalVc (s : StateBackend) (id : AccountId) : Nat :=
  ((s.vcRecords.find? id).map ValidatorCreditsRecord.totalVc).getD 0

def initializeBootstrapVc (s : StateBackend) (id : AccountId) (blockNumber currentEpoch : Nat) :
    StateBackend :=
  { s with vcRecords := s.vcRecords.insert id
            { ValidatorCreditsRecord.new blockNumber currentEpoch with uptimeCredits := 100 } }

/-! ## Drift tracker -/

/-- Validate a block's timestamp; the tracker is persisted only when it is accepted. -/
def validateBlockDrift (s : StateBackend) (b : Block) (slotDuration : Nat) :
    StateBackend × Except StateError Int :=
  match s.driftTracker with
  | none => (s, .error .driftTrackerNotInitialized)
  | some t =>
    let r := t.validateAndUpdate b.header.number b.header.timestamp b.header.epoch b.header.slot
      slotDuration
    match r.2 with
    | .error e => (s, .error (.driftValidationFailed e))
    | .ok drift => ({ s with driftTracker := some r.1 }, .ok drift)

/-- The tracker after a historical block: no validation. -/
def syncTracker (t : DriftTracker) (b : Block) : DriftTracker :=
  { t with lastBlock := b.header.number, lastTimestamp := b.header.timestamp
           lastSlot := b.header.slot, currentEpoch := b.header.epoch }

def updateDriftTrackerForSync (s : StateBackend) (b : Block) : StateBackend × Except StateError Unit :=
  match s.driftTracker with
  | none => (s, .error .driftTrackerNotInitialized)
  | some t => ({ s with driftTracker := some (syncTracker t b) }, .ok ())

/-- The state is left as it was, or holds the updated tracker of an accepted block. -/
theorem validateBlockDrift_cases (s : StateBackend) (b : Block) (slotDuration : Nat) :
    (∃ e, s.validateBlockDrift b slotDuration = (s, .error e)) ∨
    (∃ t drift, s.driftTracker = some t ∧
      (t.validateAndUpdate b.header.number b.header.timestamp b.header.epoch b.header.slot
        slotDuration).2 = .ok drift ∧
      s.validateBlockDrift b slotDuration =
        ({ s with driftTracker := some (t.validateAndUpdate b.header.number b.header.timestamp
            b.header.epoch b.header.slot slotDuration).1 }, .ok drift)) := by
  unfold validateBlockDrift
  cases hd : s.driftTracker with
  | none => exact Or.inl ⟨_, rfl⟩
  | some t =>
    simp only
    cases hr : (t.validateAndUpdate b.header.number b.header.timestamp b.header.epoch b.header.slot
        slotDuration).2 with
    | error e => exact Or.inl ⟨_, rfl⟩
    | ok drift => exact Or.inr ⟨t, drift, rfl, hr, rfl⟩

def initDriftTracker (s : StateBackend) (genesisTimestamp : Nat) : StateBackend :=
  { s with driftTracker := some (DriftTracker.new genesisTimestamp) }

/-! ## Blocks and state roots -/

def getBlockByNumber (s : StateBackend) (number : Nat) : Option Block := s.blocksByNumber.find? number

def storeBlock (cr : Crypto) (s : StateBackend) (b : Block) : StateBackend :=
  { s with blocksByHash := s.blocksByHash.insert (b.hash cr) b.stored
           blocksByNumber := s.blocksByNumber.insert b.header.number b.stored
           blockHashes := s.blockHashes.insert b.header.number (b.hash cr) }

def setBestBlock (s : StateBackend) (number : Nat) : StateBackend := { s with bestBlock := some number }

def storeStateRoot (s : StateBackend) (number : Nat) (root : StateRoot) : StateBackend :=
  { s with stateRoots := s.stateRoots.insert number root }

/-- Root of the Blake3 tree over some leaves (zero for no leaves). -/
def stateMerkleTreeRoot (cr : Crypto) (leaves : List (List UInt8)) : Hash :=
  (Merkle.root (fun l r => cr.blake3 (l.asBytes ++ r.asBytes)) (leaves.map cr.blake3)).getD Hash.zero

/-- Merkle root of the account records, in the order of their keys. -/
def computeStateRoot (cr : Crypto) (s : StateBackend) (blockNumber : Nat) (chainId : ChainId) : StateRoot :=
  if s.accounts.entries.isEmpty then StateRoot.zero chainId
  else
    { root := stateMerkleTreeRoot cr (s.accounts.values.map AccountInfo.encode), blockNumber, chainId }

end StateBackend

end Kratos
