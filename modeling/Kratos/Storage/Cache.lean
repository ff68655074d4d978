import Kratos.Lib.Fallible
import Kratos.Storage.State

/-!
# The account cache over the database

`StateBackend` of the node holds a database of byte strings and a cache of
decoded accounts in front of it.  Here both are modelled, with calls of the
database that can fail: the `n`-th call fails if `faults n` says so, and a
failed write has no effect.  Records other than accounts are kept under other
keys and never cached.

A closure given to `execute_atomic` is a `Script`: it issues operations one at a
time and goes on with their replies.  `Script.run` records every operation
with the state it met.  `get_account_reads_database` says that every account it
was ever given is the one stored in the database at that time.
-/

namespace Kratos

/-! ## Database -/

inductive WriteOp where
  | put (key value : List UInt8)
  | delete (key : List UInt8)
deriving DecidableEq, Repr

/-- The stored values, and which of the calls to come fail. -/
structure Database where
  data : List UInt8 → Option (List UInt8)
  faults : Nat → Bool
  calls : Nat

namespace Database

def writeOp (data : List UInt8 → Option (List UInt8)) : WriteOp → List UInt8 → Option (List UInt8)
  | .put key value => fun k => if k = key then some value else data k
  | .delete key => fun k => if k = key then none else data k

def get (db : Database) (key : List UInt8) : Except StateError (Option (List UInt8)) × Database :=
  let db' := { db with calls := db.calls + 1 }
  if db.faults db.calls then (.error (.databaseError .readFailed), db') else (.ok (db.data key), db')

/-- All writes of a batch happen, or none. -/
def batchWrite (db : Database) (ops : List WriteOp) : Except StateError Unit × Database :=
  let db' := { db with calls := db.calls + 1 }
  if db.faults db.calls then (.error (.databaseError .writeFailed), db')
  else (.ok (), { db' with data := ops.foldl writeOp db.data })

def put (db : Database) (key value : List UInt8) : Except StateError Unit × Database :=
  db.batchWrite [.put key value]

def delete (db : Database) (key : List UInt8) : Except StateError Unit × Database :=
  db.batchWrite [.delete key]

/-- An empty database without failures. -/
def sample : Database := { data := fun _ => none, faults := fun _ => false, calls := 0 }

end Database

/-! ## Keys -/

def accountKey (id : AccountId) : List UInt8 := Bytes.ascii "account:" ++ id.asBytes

/-- The records that are not accounts. -/
inductive RecordKey where
  | vc (id : AccountId)
  | unbonding (id : AccountId)
  | clockRecord (id : AccountId)
  | blockHash (number : Nat)
  | blockByHash (hash : Hash)
  | blockByNumber (number : Nat)
  | stateRoot (number : Nat)
  | bestBlock
  | genesisHash
  | driftTracker
deriving DecidableEq, Repr

def RecordKey.bytes : RecordKey → List UInt8
  | vc id => Bytes.ascii "vc:" ++ id.asBytes
  | unbonding id => Bytes.ascii "unbonding:" ++ id.asBytes
  | clockRecord id => Bytes.ascii "clock_rec:" ++ id.asBytes
  | blockHash number => Bytes.ascii "block_hash:" ++ Bytes.le 8 number
  | blockByHash hash => Bytes.ascii "block_by_hash:" ++ hash.asBytes
  | blockByNumber number => Bytes.ascii "block_by_num:" ++ Bytes.le 8 number
  | stateRoot number => Bytes.ascii "state_root:" ++ Bytes.le 8 number
  | bestBlock => Bytes.ascii "best_block"
  | genesisHash => Bytes.ascii "genesis_hash"
  | driftTracker => Bytes.ascii "drift_tracker"

/-- Account keys start with the letter a (97), and no other key does. -/
theorem accountKey_ne_record (id : AccountId) (key : RecordKey) : accountKey id ≠ key.bytes := by
  intro heq
  have ha : (accountKey id).head? = some 97 := rfl
  have hk : key.bytes.head? ≠ some 97 := by
    cases key with
    | vc id => exact fun h => absurd (Option.some.inj h) (by decide : (118 : UInt8) ≠ 97)
    | unbonding id => exact fun h => absurd (Option.some.inj h) (by decide : (117 : UInt8) ≠ 97)
    | clockRecord id => exact fun h => absurd (Option.some.inj h) (by decide : (99 : UInt8) ≠ 97)
    | blockHash number => exact fun h => absurd (Option.some.inj h) (by decide : (98 : UInt8) ≠ 97)
    | blockByHash hash => exact fun h => absurd (Option.some.inj h) (by decide : (98 : UInt8) ≠ 97)
    | blockByNumber number => exact fun h => absurd (Option.some.inj h) (by decide : (98 : UInt8) ≠ 97)
    | stateRoot number => exact fun h => absurd (Option.some.inj h) (by decide : (115 : UInt8) ≠ 97)
    | bestBlock => decide
    | genesisHash => decide
    | driftTracker => decide
  rw [heq] at ha
  exact hk ha

theorem accountKey_inj (a b : AccountId) (h : accountKey a = accountKey b) : a = b := by
  have hb : a.asBytes = b.asBytes := List.append_cancel_left h
  have hv : a.bytes.val = b.bytes.val :=
    Bytes.be_inj 32 _ _ (by have := a.bytes.isLt; omega) (by have := b.bytes.isLt; omega) hb
  cases a; cases b
  rw [AccountId.mk.injEq]
  exact Fin.ext hv

/-! ## Backend -/

structure ValidatorClockRecord where
  clockSyncFailures : Nat
  lastExclusionEpoch : Option Nat
  totalExcludedSlots : Nat
deriving DecidableEq, Repr

namespace ValidatorClockRecord

def new : ValidatorClockRecord :=
  { clockSyncFailures := 0, lastExclusionEpoch := none, totalExcludedSlots := 0 }

def recordFailure (r : ValidatorClockRecord) (epoch : Nat) : ValidatorClockRecord :=
  { r with clockSyncFailures := r.clockSyncFailures + 1, lastExclusionEpoch := some epoch }

def recordMissedSlot (r : ValidatorClockRecord) : ValidatorClockRecord :=
  { r with totalExcludedSlots := r.totalExcludedSlots + 1 }

end ValidatorClockRecord

/-- Bincode of one kind of record. -/
structure Codec (α : Type) where
  serialize : α → List UInt8
  deserialize : List UInt8 → Option α

/-- Bincode of the records other than accounts, and the hash function. -/
structure Codecs where
  crypto : Crypto
  block : Codec Block
  stateRoot : Codec StateRoot
  vc : Codec ValidatorCreditsRecord
  unbonding : Codec UnbondingInfo
  drift : Codec DriftTracker
  clock : Codec ValidatorClockRecord

/-- A codec for runs that touch no record but accounts. -/
def Codec.unused (α : Type) : Codec α := { serialize := fun _ => [], deserialize := fun _ => none }

def Codecs.sample : Codecs :=
  { crypto := Crypto.sample, block := .unused _, stateRoot := .unused _, vc := .unused _
    unbonding := .unused _, drift := .unused _, clock := .unused _ }

structure CachedBackend where
  db : Database
  accountCache : SortedMap AccountId AccountInfo
  cacheGeneration : Fin (2 ^ 64)

namespace CachedBackend

/-- Methods of the backend. -/
abbrev Method (α : Type) : Type := Fallible CachedBackend StateError α

def new (db : Database) : CachedBackend := { db, accountCache := .empty, cacheGeneration := 0 }

/-- A call of the database. -/
def call {α : Type} (f : Database → Except StateError α × Database) : Method α :=
  Fallible.mk fun s => ((f s.db).1, { s with db := (f s.db).2 })

/-- A change of the cache. -/
def updateCache (f : SortedMap AccountId AccountInfo → SortedMap AccountId AccountInfo) : Method Unit :=
  Fallible.mk fun s => (.ok (), { s with accountCache := f s.accountCache })

def lookupCache (id : AccountId) : Method (Option AccountInfo) :=
  Fallible.mk fun s => (.ok (s.accountCache.find? id), s)

def decoded {α : Type} (r : Option α) : Method α :=
  match r with
  | some a => pure a
  | none => throw .deserializationFailed

/-! ## Accounts -/

def invalidateCache : Method Unit :=
  Fallible.mk fun s =>
    (.ok (), { s with accountCache := .empty, cacheGeneration := s.cacheGeneration + 1 })

def getAccount (id : AccountId) : Method (Option AccountInfo) := do
  match ← lookupCache id with
  | some info => pure (some info)
  | none =>
    match ← call fun db => db.get (accountKey id) with
    | some data =>
      let info ← decoded (AccountInfo.decode data)
      updateCache fun cache => cache.insert id info
      pure (some info)
    | none => pure none

/-- The database first, then the cache. -/
def setAccount (id : AccountId) (info : AccountInfo) : Method Unit := do
  call fun db => db.put (accountKey id) info.encode
  updateCache fun cache => cache.insert id info

def deleteAccount (id : AccountId) : Method Unit := do
  call fun db => db.delete (accountKey id)
  updateCache fun cache => cache.erase id

def commitBatch (ops : List WriteOp) : Method Unit := do
  call fun db => db.batchWrite ops
  invalidateCache

/-! ## Other records -/

def getRecord {α : Type} (codec : Codec α) (key : RecordKey) : Method (Option α) := do
  match ← call fun db => db.get key.bytes with
  | some data => do
    let r ← decoded (codec.deserialize data)
    pure (some r)
  | none => pure none

def putRecord (key : RecordKey) (value : List UInt8) : Method Unit := call fun db => db.put key.bytes value

def deleteRecord (key : RecordKey) : Method Unit := call fun db => db.delete key.bytes

section Records

variable (c : Codecs)

def setBlockHash (number : Nat) (hash : Hash) : Method Unit := putRecord (.blockHash number) hash.asBytes

def setBestBlock (number : Nat) : Method Unit := putRecord .bestBlock (Bincode.u64 number)

def setGenesisHash (hash : Hash) : Method Unit := putRecord .genesisHash hash.asBytes

def storeBlock (b : Block) : Method Unit := do
  let data := c.block.serialize b
  putRecord (.blockByHash (b.hash c.crypto)) data
  putRecord (.blockByNumber b.header.number) data
  setBlockHash b.header.number (b.hash c.crypto)

def storeStateRoot (number : Nat) (root : StateRoot) : Method Unit :=
  putRecord (.stateRoot number) (c.stateRoot.serialize root)

def setDriftTracker (t : DriftTracker) : Method Unit := putRecord .driftTracker (c.drift.serialize t)

def getDriftTracker : Method DriftTracker := do
  match ← getRecord c.drift .driftTracker with
  | some t => pure t
  | none => throw .driftTrackerNotInitialized

def initDriftTracker (genesisTimestamp : Nat) : Method Unit :=
  setDriftTracker c (DriftTracker.new genesisTimestamp)

def validateBlockDrift (b : Block) (slotDuration : Nat) : Method Int := do
  let t ← getDriftTracker c
  let r := t.validateAndUpdate b.header.number b.header.timestamp b.header.epoch b.header.slot slotDuration
  match r.2 with
  | .error e => throw (.driftValidationFailed e)
  | .ok drift => do
    setDriftTracker c r.1
    pure drift

def updateDriftTrackerForSync (b : Block) : Method Unit := do
  let t ← getDriftTracker c
  setDriftTracker c (StateBackend.syncTracker t b)

def setVcRecord (id : AccountId) (record : ValidatorCreditsRecord) : Method Unit :=
  putRecord (.vc id) (c.vc.serialize record)

def deleteVcRecord (id : AccountId) : Method Unit := deleteRecord (.vc id)

def initializeBootstrapVc (id : AccountId) (blockNumber currentEpoch : Nat) : Method Unit :=
  setVcRecord c id { ValidatorCreditsRecord.new blockNumber currentEpoch with uptimeCredits := 100 }

def setUnbondingInfo (id : AccountId) (info : UnbondingInfo) : Method Unit :=
  putRecord (.unbonding id) (c.unbonding.serialize info)

def addUnbondingRequest (id : AccountId) (amount : Balance) (currentBlock unbondingPeriod : Nat) :
    Method Unit := do
  let info ← getRecord c.unbonding (.unbonding id)
  let request := { amount, unbondingStarted := currentBlock
                   releaseBlock := Word.satAdd64 currentBlock unbondingPeriod }
  setUnbondingInfo c id { requests := (info.getD { requests := [] }).requests ++ [request] }

def withdrawMaturedUnbonding (id : AccountId) (currentBlock : Nat) : Method Balance := do
  match ← getRecord c.unbonding (.unbonding id) with
  | none => pure 0
  | some info => do
    let parts := StateBackend.splitMatured currentBlock info.requests
    let withdrawn := Word.satSum (parts.1.map fun r => r.amount) 0
    if parts.2.isEmpty then deleteRecord (.unbonding id)
    else setUnbondingInfo c id { requests := parts.2 }
    pure withdrawn

def setClockRecord (id : AccountId) (record : ValidatorClockRecord) : Method Unit :=
  putRecord (.clockRecord id) (c.clock.serialize record)

def recordClockFailure (id : AccountId) (epoch : Nat) : Method Unit := do
  let record ← getRecord c.clock (.clockRecord id)
  setClockRecord c id ((record.getD .new).recordFailure epoch)

def recordClockMissedSlot (id : AccountId) : Method Unit := do
  let record ← getRecord c.clock (.clockRecord id)
  setClockRecord c id (record.getD .new).recordMissedSlot

end Records

/-! ## Operations and scripts -/

/-- The operations that can write; the other methods only read records. -/
inductive Op where
  | getAccount (id : AccountId)
  | setAccount (id : AccountId) (info : AccountInfo)
  | deleteAccount (id : AccountId)
  | invalidateCache
  | commitBatch (ops : List WriteOp)
  | setBlockHash (number : Nat) (hash : Hash)
  | setBestBlock (number : Nat)
  | setGenesisHash (hash : Hash)
  | storeBlock (b : Block)
  | storeStateRoot (number : Nat) (root : StateRoot)
  | setDriftTracker (t : DriftTracker)
  | initDriftTracker (genesisTimestamp : Nat)
  | validateBlockDrift (b : Block) (slotDuration : Nat)
  | updateDriftTrackerForSync (b : Block)
  | setVcRecord (id : AccountId) (record : ValidatorCreditsRecord)
  | deleteVcRecord (id : AccountId)
  | initializeBootstrapVc (id : AccountId) (blockNumber currentEpoch : Nat)
  | setUnbondingInfo (id : AccountId) (info : UnbondingInfo)
  | addUnbondingRequest (id : AccountId) (amount : Balance) (currentBlock unbondingPeriod : Nat)
  | withdrawMaturedUnbonding (id : AccountId) (currentBlock : Nat)
  | setClockRecord (id : AccountId) (record : ValidatorClockRecord)
  | recordClockFailure (id : AccountId) (epoch : Nat)
  | recordClockMissedSlot (id : AccountId)

namespace Op

@[reducible] def Reply : Op → Type
  | .getAccount _ => Option AccountInfo
  | .validateBlockDrift .. => Int
  | .withdrawMaturedUnbonding .. => Balance
  | _ => Unit

def method (c : Codecs) : (op : Op) → Method op.Reply
  | .getAccount id => CachedBackend.getAccount id
  | .setAccount id info => CachedBackend.setAccount id info
  | .deleteAccount id => CachedBackend.deleteAccount id
  | .invalidateCache => CachedBackend.invalidateCache
  | .commitBatch ops => CachedBackend.commitBatch ops
  | .setBlockHash number hash => CachedBackend.setBlockHash number hash
  | .setBestBlock number => CachedBackend.setBestBlock number
  | .setGenesisHash hash => CachedBackend.setGenesisHash hash
  | .storeBlock b => CachedBackend.storeBlock c b
  | .storeStateRoot number root => CachedBackend.storeStateRoot c number root
  | .setDriftTracker t => CachedBackend.setDriftTracker c t
  | .initDriftTracker genesisTimestamp => CachedBackend.initDriftTracker c genesisTimestamp
  | .validateBlockDrift b slotDuration => CachedBackend.validateBlockDrift c b slotDuration
  | .updateDriftTrackerForSync b => CachedBackend.updateDriftTrackerForSync c b
  | .setVcRecord id record => CachedBackend.setVcRecord c id record
  | .deleteVcRecord id => CachedBackend.deleteVcRecord id
  | .initializeBootstrapVc id blockNumber currentEpoch =>
    CachedBackend.initializeBootstrapVc c id blockNumber currentEpoch
  | .setUnbondingInfo id info => CachedBackend.setUnbondingInfo c id info
  | .addUnbondingRequest id amount currentBlock unbondingPeriod =>
    CachedBackend.addUnbondingRequest c id amount currentBlock unbondingPeriod
  | .withdrawMaturedUnbonding id currentBlock => CachedBackend.withdrawMaturedUnbonding c id currentBlock
  | .setClockRecord id record => CachedBackend.setClockRecord c id record
  | .recordClockFailure id epoch => CachedBackend.recordClockFailure c id epoch
  | .recordClockMissedSlot id => CachedBackend.recordClockMissedSlot c id

end Op

/-- A client of the backend: it calls operations, and closures through
`execute_atomic`, and goes on with what they return. -/
inductive Script : Type → Type 1
  | done {α : Type} (r : Except StateError α) : Script α
  | call {α : Type} (op : Op) (next : Except StateError op.Reply → Script α) : Script α
  | atomic {α β : Type} (body : Script β) (next : Except StateError β → Script α) : Script α

/-- An operation that was called, with the state it met and what it returned. -/
structure Event where
  before : CachedBackend
  op : Op
  reply : Except StateError op.Reply

/-- The operations a script calls, in order, its result, and the state it ends in. -/
def Script.run (c : Codecs) {α : Type} : Script α → CachedBackend →
    List Event × Except StateError α × CachedBackend
  | .done r, s => ([], r, s)
  | .call op next, s =>
    let r := (op.method c).exec s
    let rest := (next r.1).run c r.2
    (⟨s, op, r.1⟩ :: rest.1, rest.2)
  | .atomic body next, s =>
    let r := body.run c s
    -- whatever the closure returned, the cache is invalidated after it
    let rest := (next r.2.1).run c (invalidateCache.exec r.2.2).2
    (r.1 ++ rest.1, rest.2)

/-- The closure of `transfer`. -/
def transferBody (sender recipient : AccountId) (amount : Balance) : Script Unit :=
  .call (.getAccount sender) fun
    | .error e => .done (.error e)
    | .ok none => .done (.error (.accountNotFound sender))
    | .ok (some fromAccount) =>
      .call (.getAccount recipient) fun
        | .error e => .done (.error e)
        | .ok toInfo =>
          let toAccount := Option.getD toInfo AccountInfo.new
          if fromAccount.free < amount then
            .done (.error (.insufficientBalance sender fromAccount.free amount))
          else
            .call (.setAccount sender { fromAccount with free := Word.satSub fromAccount.free amount }) fun
              | .error e => .done (.error e)
              | .ok _ =>
                .call (.setAccount recipient { toAccount with free := Word.satAdd toAccount.free amount })
                  fun r => .done r

def transfer (sender recipient : AccountId) (amount : Balance) : Script Unit :=
  .atomic (transferBody sender recipient amount) .done

/-! ## Coherence -/

/-- Every cached account is the one stored. -/
def Coherent (s : CachedBackend) : Prop :=
  ∀ id info, s.accountCache.find? id = some info →
    (s.db.data (accountKey id)).bind AccountInfo.decode = some info

open Fallible

/-- A backend with the same cache whose database agrees on account keys. -/
theorem Coherent.of_db (s : CachedBackend) (db : Database) (h : s.Coherent)
    (hdb : ∀ id, db.data (accountKey id) = s.db.data (accountKey id)) : Coherent { s with db } := by
  intro id info hc
  simp only [hdb id]
  exact h id info hc

theorem coherent_of_empty (s : CachedBackend) (h : s.accountCache = .empty) : s.Coherent := by
  intro id info hc
  rw [h] at hc
  cases hc

theorem keeps_read (key : List UInt8) : Keeps Coherent (call fun db => db.get key) := by
  intro s hs
  apply hs.of_db
  intro id
  simp only [Database.get]
  split <;> rfl

/-- A write to keys that are no account keys. -/
theorem keeps_batchWrite (ops : List WriteOp)
    (h : ∀ data id, (ops.foldl Database.writeOp data) (accountKey id) = data (accountKey id)) :
    Keeps Coherent (call fun db => db.batchWrite ops) := by
  intro s hs
  apply hs.of_db
  intro id
  simp only [Database.batchWrite]
  split
  · rfl
  · exact h _ id

theorem keeps_putRecord (key : RecordKey) (value : List UInt8) : Keeps Coherent (putRecord key value) := by
  apply keeps_batchWrite
  intro data id
  simp [Database.writeOp, accountKey_ne_record]

theorem keeps_deleteRecord (key : RecordKey) : Keeps Coherent (deleteRecord key) := by
  apply keeps_batchWrite
  intro data id
  simp [Database.writeOp, accountKey_ne_record]

theorem keeps_decoded {α : Type} (r : Option α) : Keeps Coherent (decoded r) := by
  cases r with
  | none => exact Keeps.throw _
  | some a => exact Keeps.pure a

theorem keeps_getRecord {α : Type} (codec : Codec α) (key : RecordKey) :
    Keeps Coherent (getRecord codec key) := by
  refine Keeps.bind _ _ (keeps_read _) fun data => ?_
  cases data with
  | none => exact Keeps.pure _
  | some data => exact Keeps.bind _ _ (keeps_decoded _) fun r => Keeps.pure _

theorem keeps_getDriftTracker (c : Codecs) : Keeps Coherent (getDriftTracker c) := by
  refine Keeps.bind _ _ (keeps_getRecord _ _) fun t => ?_
  cases t with
  | none => exact Keeps.throw _
  | some t => exact Keeps.pure t

theorem keeps_invalidateCache : Keeps Coherent invalidateCache := fun _ _ =>
  coherent_of_empty _ rfl

/-- What `get_account` may return: nothing if nothing is stored, else the stored account. -/
def Reads (s : CachedBackend) (id : AccountId) (info : Option AccountInfo) : Prop :=
  (info = none ↔ s.db.data (accountKey id) = none) ∧
    ∀ data, s.db.data (accountKey id) = some data → AccountInfo.decode data = info

theorem reads_of_stored (s : CachedBackend) (id : AccountId) (info : AccountInfo)
    (h : (s.db.data (accountKey id)).bind AccountInfo.decode = some info) : s.Reads id (some info) := by
  obtain ⟨data, hd, hdec⟩ := Option.bind_eq_some_iff.mp h
  refine ⟨by simp [hd], fun data' hd' => ?_⟩
  rw [hd] at hd'
  rw [← Option.some.inj hd', hdec]

/-- **What one `get_account` does.**  It fails, or returns what is stored; the
database is unchanged, and at most the stored account enters the cache. -/
theorem getAccount_cases (s : CachedBackend) (id : AccountId) (hs : s.Coherent) :
    (∃ e db, (getAccount id).exec s = (.error e, { s with db }) ∧ db.data = s.db.data) ∨
    (∃ info, (getAccount id).exec s = (.ok info, s) ∧ s.Reads id info) ∨
    (∃ db, (getAccount id).exec s = (.ok none, { s with db }) ∧ db.data = s.db.data ∧
      s.Reads id none) ∨
    (∃ info db, (getAccount id).exec s =
        (.ok (some info), { s with db, accountCache := s.accountCache.insert id info }) ∧
      db.data = s.db.data ∧ (s.db.data (accountKey id)).bind AccountInfo.decode = some info) := by
  unfold getAccount
  rw [exec_bind, lookupCache, exec_mk]
  cases hc : s.accountCache.find? id with
  | some info => exact Or.inr (Or.inl ⟨some info, rfl, s.reads_of_stored id info (hs id info hc)⟩)
  | none =>
    simp only [exec_bind, call, exec_mk, Database.get]
    by_cases hf : s.db.faults s.db.calls = true
    · rw [if_pos hf]
      exact Or.inl ⟨_, _, rfl, rfl⟩
    · rw [if_neg hf]
      cases hd : s.db.data (accountKey id) with
      | none =>
        refine Or.inr (Or.inr (Or.inl ⟨_, rfl, rfl, ?_⟩))
        exact ⟨by simp [hd], fun data h => by rw [hd] at h; cases h⟩
      | some data =>
        cases hdec : AccountInfo.decode data with
        | none =>
          refine Or.inl ⟨.deserializationFailed, { s.db with calls := s.db.calls + 1 }, ?_, rfl⟩
          simp only [exec_bind, hdec, decoded, exec_throw]
        | some info =>
          refine Or.inr (Or.inr (Or.inr ⟨info, { s.db with calls := s.db.calls + 1 }, ?_, rfl, ?_⟩))
          · simp only [exec_bind, hdec, decoded, exec_pure, updateCache, exec_mk]
          · simp [hdec]

theorem keeps_getAccount (id : AccountId) : Keeps Coherent (getAccount id) := by
  intro s hs
  rcases getAccount_cases s id hs with ⟨e, db, h, hdb⟩ | ⟨info, h, -⟩ | ⟨db, h, hdb, -⟩ |
    ⟨info, db, h, hdb, hstored⟩
  · rw [h]
    exact hs.of_db s db fun j => by rw [hdb]
  · rw [h]
    exact hs
  · rw [h]
    exact hs.of_db s db fun j => by rw [hdb]
  · rw [h]
    intro j a hj
    simp only [SortedMap.find?_insert] at hj
    simp only [hdb]
    split at hj
    · next heq =>
      cases hj
      rw [heq]
      exact hstored
    · exact hs j a hj

/-- The database and then the cache are written at one account. -/
theorem keeps_setAccount (id : AccountId) (info : AccountInfo) : Keeps Coherent (setAccount id info) := by
  intro s hs
  unfold setAccount
  simp only [exec_bind, call, exec_mk, Database.put, Database.batchWrite]
  by_cases hf : s.db.faults s.db.calls = true
  · rw [if_pos hf]
    exact hs.of_db s _ fun j => rfl
  · rw [if_neg hf]
    intro j a hj
    simp only [updateCache, exec_mk, SortedMap.find?_insert] at hj
    simp only [updateCache, exec_mk, List.foldl_cons, List.foldl_nil, Database.writeOp]
    by_cases heq : j = id
    · rw [if_pos heq] at hj
      cases hj
      rw [heq, if_pos rfl, Option.bind_some, AccountInfo.decode_encode]
    · rw [if_neg heq] at hj
      rw [if_neg fun hk => heq (accountKey_inj j id hk)]
      exact hs j a hj

theorem keeps_deleteAccount (id : AccountId) : Keeps Coherent (deleteAccount id) := by
  intro s hs
  unfold deleteAccount
  simp only [exec_bind, call, exec_mk, Database.delete, Database.batchWrite]
  by_cases hf : s.db.faults s.db.calls = true
  · rw [if_pos hf]
    exact hs.of_db s _ fun j => rfl
  · rw [if_neg hf]
    intro j a hj
    simp only [updateCache, exec_mk, SortedMap.find?_erase] at hj
    simp only [updateCache, exec_mk, List.foldl_cons, List.foldl_nil, Database.writeOp]
    by_cases heq : j = id
    · rw [if_pos heq] at hj
      cases hj
    · rw [if_neg heq] at hj
      rw [if_neg fun hk => heq (accountKey_inj j id hk)]
      exact hs j a hj

/-- A batch with raw keys: the cache is emptied if it was written. -/
theorem keeps_commitBatch (ops : List WriteOp) : Keeps Coherent (commitBatch ops) := by
  intro s hs
  unfold commitBatch
  simp only [exec_bind, call, exec_mk, Database.batchWrite]
  by_cases hf : s.db.faults s.db.calls = true
  · rw [if_pos hf]
    exact hs.of_db s _ fun j => rfl
  · rw [if_neg hf]
    exact coherent_of_empty _ rfl

/-- **Step.**  Every operation keeps the cache coherent, also when it fails. -/
theorem keeps_method (c : Codecs) (op : Op) : Keeps Coherent (op.method c) := by
  cases op with
  | getAccount id => exact keeps_getAccount id
  | setAccount id info => exact keeps_setAccount id info
  | deleteAccount id => exact keeps_deleteAccount id
  | invalidateCache => exact keeps_invalidateCache
  | commitBatch ops => exact keeps_commitBatch ops
  | setBlockHash number hash => exact keeps_putRecord _ _
  | setBestBlock number => exact keeps_putRecord _ _
  | setGenesisHash hash => exact keeps_putRecord _ _
  | storeBlock b =>
    refine Keeps.bind _ _ (keeps_putRecord _ _) fun _ => ?_
    exact Keeps.bind _ _ (keeps_putRecord _ _) fun _ => keeps_putRecord _ _
  | storeStateRoot number root => exact keeps_putRecord _ _
  | setDriftTracker t => exact keeps_putRecord _ _
  | initDriftTracker genesisTimestamp => exact keeps_putRecord _ _
  | validateBlockDrift b slotDuration =>
    refine Keeps.bind _ _ (keeps_getDriftTracker c) fun t => ?_
    simp only
    split
    · exact Keeps.throw _
    · exact Keeps.bind _ _ (keeps_putRecord _ _) fun _ => Keeps.pure _
  | updateDriftTrackerForSync b =>
    exact Keeps.bind _ _ (keeps_getDriftTracker c) fun t => keeps_putRecord _ _
  | setVcRecord id record => exact keeps_putRecord _ _
  | deleteVcRecord id => exact keeps_deleteRecord _
  | initializeBootstrapVc id blockNumber currentEpoch => exact keeps_putRecord _ _
  | setUnbondingInfo id info => exact keeps_putRecord _ _
  | addUnbondingRequest id amount currentBlock unbondingPeriod =>
    exact Keeps.bind _ _ (keeps_getRecord _ _) fun info => keeps_putRecord _ _
  | withdrawMaturedUnbonding id currentBlock =>
    refine Keeps.bind _ _ (keeps_getRecord _ _) fun info => ?_
    cases info with
    | none => exact Keeps.pure _
    | some info =>
      simp only
      split
      · exact Keeps.bind _ _ (keeps_deleteRecord _) fun _ => Keeps.pure _
      · exact Keeps.bind _ _ (keeps_putRecord _ _) fun _ => Keeps.pure _
  | setClockRecord id record => exact keeps_putRecord _ _
  | recordClockFailure id epoch =>
    exact Keeps.bind _ _ (keeps_getRecord _ _) fun record => keeps_putRecord _ _
  | recordClockMissedSlot id =>
    exact Keeps.bind _ _ (keeps_getRecord _ _) fun record => keeps_putRecord _ _

/-- **Run.**  Every operation of a script meets a coherent cache, and the script
ends with one. -/
theorem Script.run_coherent (c : Codecs) {α : Type} (p : Script α) (s : CachedBackend) (hs : s.Coherent) :
    (∀ e ∈ (p.run c s).1, e.before.Coherent ∧ e.reply = ((e.op.method c).exec e.before).1) ∧
      (p.run c s).2.2.Coherent := by
  induction p generalizing s with
  | done r => exact ⟨fun e he => absurd he List.not_mem_nil, hs⟩
  | call op next ih =>
    obtain ⟨hev, hend⟩ := ih _ _ (keeps_method c op s hs)
    refine ⟨fun e he => ?_, hend⟩
    rcases List.mem_cons.mp he with rfl | he
    · exact ⟨hs, rfl⟩
    · exact hev e he
  | atomic body next ihb ihn =>
    obtain ⟨hbev, hbend⟩ := ihb s hs
    obtain ⟨hev, hend⟩ := ihn _ _ (keeps_invalidateCache _ hbend)
    refine ⟨fun e he => ?_, hend⟩
    rcases List.mem_append.mp he with he | he
    · exact hbev e he
    · exact hev e he

/-- **Cache coherence.**  Whatever a client does with a backend, and whichever
calls of its database fail, an account returned by `get_account` is the one
stored at that time, and none is returned only if none is stored. -/
theorem getAccount_reads_database (c : Codecs) (db : Database) {α : Type} (p : Script α)
    (s : CachedBackend) (id : AccountId) (info : Option AccountInfo)
    (h : ⟨s, .getAccount id, .ok info⟩ ∈ (p.run c (new db)).1) : s.Reads id info := by
  obtain ⟨hs, hreply⟩ := (p.run_coherent c (new db) (coherent_of_empty _ rfl)).1 _ h
  simp only at hs
  have hok : ((getAccount id).exec s).1 = .ok info := hreply.symm
  rcases getAccount_cases s id hs with ⟨e, db', h', -⟩ | ⟨info', h', hr⟩ | ⟨db', h', -, hr⟩ |
    ⟨info', db', h', -, hstored⟩
  · rw [h'] at hok
    cases hok
  · rw [h'] at hok
    cases hok
    exact hr
  · rw [h'] at hok
    cases hok
    exact hr
  · rw [h'] at hok
    cases hok
    exact s.reads_of_stored id info' hstored

/-- A cached account rewritten by a batch with its raw key is read from the database. -/
theorem getAccount_after_batch :
    let a : AccountInfo := { AccountInfo.new with free := 7 }
    let ops := [WriteOp.put (accountKey ⟨1⟩) a.encode]
    let p : Script Unit := .call (.setAccount ⟨1⟩ AccountInfo.new) fun _ =>
      .call (.commitBatch ops) fun _ => .call (.getAccount ⟨1⟩) fun _ => .done (.ok ())
    let s := ((commitBatch ops).exec ((setAccount ⟨1⟩ AccountInfo.new).exec (new Database.sample)).2).2
    ⟨s, .getAccount ⟨1⟩, .ok (some a)⟩ ∈ (p.run Codecs.sample (new Database.sample)).1 ∧
      s.Reads ⟨1⟩ (some a) := by
  intro a ops p s
  have hreply : ((getAccount ⟨1⟩).exec s).1 = .ok (some a) := by decide
  have hmem : ⟨s, .getAccount ⟨1⟩, .ok (some a)⟩ ∈ (p.run Codecs.sample (new Database.sample)).1 := by
    have hev : (⟨s, .getAccount ⟨1⟩, .ok (some a)⟩ : Event) = ⟨s, .getAccount ⟨1⟩, _⟩ :=
      congrArg (Event.mk s (.getAccount ⟨1⟩)) hreply.symm
    rw [hev]
    exact List.mem_cons_of_mem _ (List.mem_cons_of_mem _ List.mem_cons_self)
  exact ⟨hmem, getAccount_reads_database Codecs.sample Database.sample p s ⟨1⟩ (some a) hmem⟩

/-! ## Accounts in the database -/

/-- The database stores the accounts of the state; its calls may fail. -/
structure Stores (s : CachedBackend) (t : StateBackend) : Prop where
  coherent : s.Coherent
  accounts : ∀ id, s.db.data (accountKey id) = (t.getAccount id).map AccountInfo.encode

/-- Two states in one database have the same accounts. -/
theorem Stores.accounts_eq (s : CachedBackend) (t u : StateBackend) (ht : s.Stores t) (hu : s.Stores u) :
    u.accounts = t.accounts := by
  apply SortedMap.ext_find
  intro id
  have henc : (u.getAccount id).map AccountInfo.encode = (t.getAccount id).map AccountInfo.encode :=
    (hu.accounts id).symm.trans (ht.accounts id)
  exact Option.map_injective AccountInfo.encode_inj henc

/-- Other calls to come, another cache. -/
theorem Stores.of_data (s s' : CachedBackend) (t : StateBackend) (h : s.Stores t) (hc : s'.Coherent)
    (hdata : s'.db.data = s.db.data) : s'.Stores t :=
  ⟨hc, fun id => by rw [hdata]; exact h.accounts id⟩

theorem Stores.invalidateCache (s : CachedBackend) (t : StateBackend) (h : s.Stores t) :
    (CachedBackend.invalidateCache.exec s).2.Stores t :=
  h.of_data s _ t (keeps_invalidateCache s h.coherent) rfl

/-- A read of an account asks the database only if the account is not cached. -/
def Asked (s : CachedBackend) (id : AccountId) : Nat := if (s.accountCache.find? id).isSome then 0 else 1

/-- **Reading.**  The call of the database fails, or the stored account is returned and
cached. -/
theorem Stores.getAccount (s : CachedBackend) (t : StateBackend) (h : s.Stores t) (id : AccountId) :
    ((CachedBackend.getAccount id).exec s).2.Stores t ∧
      ((CachedBackend.getAccount id).exec s).2.db.faults = s.db.faults ∧
      ((s.Asked id = 1 ∧ s.db.faults s.db.calls = true ∧
          ((CachedBackend.getAccount id).exec s).1 = .error (.databaseError .readFailed)) ∨
        ((s.Asked id = 1 → s.db.faults s.db.calls = false) ∧
          ((CachedBackend.getAccount id).exec s).1 = .ok (t.getAccount id) ∧
          ((CachedBackend.getAccount id).exec s).2.db.calls = s.db.calls + s.Asked id ∧
          ∀ a, t.getAccount id = some a →
            ((CachedBackend.getAccount id).exec s).2.accountCache.find? id = some a)) := by
  have hkeeps := keeps_getAccount id s h.coherent
  unfold CachedBackend.getAccount Asked at *
  rw [exec_bind, lookupCache, exec_mk] at *
  cases hc : s.accountCache.find? id with
  | some info =>
    have hstored : t.getAccount id = some info := by
      have hcoh := h.coherent id info hc
      rw [h.accounts id] at hcoh
      cases ht : t.getAccount id with
      | none =>
        rw [ht] at hcoh
        cases hcoh
      | some a =>
        rw [ht, Option.map_some, Option.bind_some, AccountInfo.decode_encode] at hcoh
        exact hcoh
    refine ⟨h, rfl, Or.inr ⟨by simp, congrArg Except.ok hstored.symm, rfl, ?_⟩⟩
    intro a ha
    rw [hstored] at ha
    rw [← ha]
    exact hc
  | none =>
    rw [hc] at hkeeps
    simp only [exec_bind, call, exec_mk, Database.get] at hkeeps ⊢
    by_cases hf : s.db.faults s.db.calls = true
    · rw [if_pos hf] at hkeeps ⊢
      exact ⟨h.of_data s _ t hkeeps rfl, rfl, Or.inl ⟨rfl, hf, rfl⟩⟩
    · rw [if_neg hf] at hkeeps ⊢
      have hf' : s.db.faults s.db.calls = false := by simpa using hf
      cases ht : t.getAccount id with
      | none =>
        have hd : s.db.data (accountKey id) = none := by rw [h.accounts id, ht]; rfl
        rw [hd] at hkeeps ⊢
        exact ⟨h.of_data s _ t hkeeps rfl, rfl, Or.inr ⟨fun _ => hf', rfl, rfl, nofun⟩⟩
      | some info =>
        have hd : s.db.data (accountKey id) = some info.encode := by rw [h.accounts id, ht]; rfl
        simp only [hd, exec_bind, AccountInfo.decode_encode, decoded, exec_pure, updateCache, exec_mk]
          at hkeeps ⊢
        refine ⟨h.of_data s _ t hkeeps rfl, trivial, Or.inr ⟨fun _ => hf', trivial, rfl, ?_⟩⟩
        intro a ha
        cases ha
        exact SortedMap.find?_insert_self _ _ _

/-- **Writing.**  The call of the database fails, or the account is written. -/
theorem Stores.setAccount (s : CachedBackend) (t : StateBackend) (h : s.Stores t) (id : AccountId)
    (info : AccountInfo) :
    ((CachedBackend.setAccount id info).exec s).2.db.faults = s.db.faults ∧
    ((s.db.faults s.db.calls = true ∧
        ((CachedBackend.setAccount id info).exec s).1 = .error (.databaseError .writeFailed)) ∨
      (s.db.faults s.db.calls = false ∧
        ((CachedBackend.setAccount id info).exec s).1 = .ok () ∧
        ((CachedBackend.setAccount id info).exec s).2.db.calls = s.db.calls + 1 ∧
        ((CachedBackend.setAccount id info).exec s).2.Stores (t.setAccount id info))) := by
  have hkeeps := keeps_setAccount id info s h.coherent
  unfold CachedBackend.setAccount at hkeeps ⊢
  simp only [exec_bind, call, exec_mk, Database.put, Database.batchWrite] at hkeeps ⊢
  by_cases hf : s.db.faults s.db.calls = true
  · rw [if_pos hf]
    exact ⟨rfl, Or.inl ⟨hf, rfl⟩⟩
  · rw [if_neg hf] at hkeeps ⊢
    simp only [updateCache, exec_mk] at hkeeps ⊢
    refine ⟨trivial, Or.inr ⟨by simpa using hf, trivial, trivial, hkeeps, fun j => ?_⟩⟩
    simp only [List.foldl_cons, List.foldl_nil, Database.writeOp]
    by_cases hj : j = id
    · rw [hj, if_pos rfl, StateBackend.getAccount_setAccount_self]
      rfl
    · rw [if_neg fun hk => hj (accountKey_inj j id hk), StateBackend.getAccount_setAccount_ne _ _ _ _ hj]
      exact h.accounts j

/-! ## The backend without a cache

`StateBackend` keeps accounts in a map; the two agree as long as no call of the
database fails. -/

end CachedBackend

end Kratos
