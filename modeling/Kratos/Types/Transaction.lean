import Kratos.Types.Primitives

/-!
# Transactions

The eleven calls of the root chain with their base fees, signed transactions,
and what is hashed and signed.  `bincode::serialize` cannot fail on these types,
so the fallback branches of `verify` and `hash` are absent.
-/

namespace Kratos

structure SidechainMetadata where
  name : Option String
  description : Option String
  parentChain : Option ChainId
deriving DecidableEq, Repr

inductive TransactionCall where
  | transfer (toId : AccountId) (amount : Balance)
  | stake (amount : Balance)
  | unstake (amount : Balance)
  | withdrawUnbonded
  | registerValidator (stake : Balance)
  | unregisterValidator
  | createSidechain (metadata : SidechainMetadata) (deposit : Balance)
  | exitSidechain (chainId : ChainId)
  | signalFork (name description : String)
  | proposeEarlyValidator (candidate : AccountId)
  | voteEarlyValidator (candidate : AccountId)
deriving DecidableEq, Repr

namespace TransactionCall

def baseFee : TransactionCall → Balance
  | transfer .. => 1000
  | stake .. => 5000
  | unstake .. => 5000
  | withdrawUnbonded => 2000
  | registerValidator .. => 100000
  | unregisterValidator => 50000
  | createSidechain .. => 1000000
  | exitSidechain .. => 500000
  | signalFork .. => 10000000
  | proposeEarlyValidator .. => 50000
  | voteEarlyValidator .. => 10000

/-- No call costs more than 10⁷ units, and every call costs something. -/
theorem baseFee_bounds (c : TransactionCall) : 1000 ≤ c.baseFee.val ∧ c.baseFee.val ≤ 10000000 := by
  cases c <;> simp only [baseFee] <;> decide

def encode : TransactionCall → List UInt8
  | transfer toId amount => Bincode.u32 0 ++ (Bincode.accountId toId ++ Bincode.u128 amount.val)
  | stake amount => Bincode.u32 1 ++ Bincode.u128 amount.val
  | unstake amount => Bincode.u32 2 ++ Bincode.u128 amount.val
  | withdrawUnbonded => Bincode.u32 3
  | registerValidator amount => Bincode.u32 4 ++ Bincode.u128 amount.val
  | unregisterValidator => Bincode.u32 5
  | createSidechain metadata deposit =>
    Bincode.u32 6 ++ (Bincode.option Bincode.string metadata.name ++
      (Bincode.option Bincode.string metadata.description ++
        (Bincode.option (fun c => Bincode.u32 c.id.val) metadata.parentChain ++
          Bincode.u128 deposit.val)))
  | exitSidechain chainId => Bincode.u32 7 ++ Bincode.u32 chainId.id.val
  | signalFork name description => Bincode.u32 8 ++ (Bincode.string name ++ Bincode.string description)
  | proposeEarlyValidator candidate => Bincode.u32 9 ++ Bincode.accountId candidate
  | voteEarlyValidator candidate => Bincode.u32 10 ++ Bincode.accountId candidate

end TransactionCall

structure Transaction where
  sender : AccountId
  nonce : Nonce
  call : TransactionCall
  timestamp : Nat
deriving DecidableEq, Repr

def Transaction.encode (tx : Transaction) : List UInt8 :=
  Bincode.accountId tx.sender ++ (Bincode.u64 tx.nonce.val ++ (tx.call.encode ++ Bincode.u64 tx.timestamp))

def Transaction.hash (cr : Crypto) (tx : Transaction) : Hash := cr.blake3 tx.encode

structure SignedTransaction where
  transaction : Transaction
  signature : Signature64
  /-- cached hash; absent after deserialization -/
  hash? : Option Hash
deriving DecidableEq, Repr

def SignedTransaction.hash (cr : Crypto) (tx : SignedTransaction) : Hash :=
  tx.hash?.getD (tx.transaction.hash cr)

/-- The transaction as it is read back after serialization, which skips the cached hash. -/
def SignedTransaction.uncached (tx : SignedTransaction) : SignedTransaction := { tx with hash? := none }

def SignedTransaction.signingMessage (tx : Transaction) : Option (List UInt8) :=
  some (domainSeparate domainTransaction tx.encode)

def SignedTransaction.verify (cr : Crypto) (tx : SignedTransaction) : Bool :=
  cr.ed25519Verify tx.transaction.sender (domainSeparate domainTransaction tx.transaction.encode)
    tx.signature

end Kratos
