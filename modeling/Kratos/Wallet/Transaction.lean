import Kratos.Types.Primitives

/-!
# Transactions of the wallet

The wallet has its own definitions of the transaction types, meant to encode as those of
the node do.  Ids of accounts and of chains are both 32 bytes, encoded as byte strings.
-/

namespace Kratos.Wallet

structure AccountId32 where
  bytes : Bytes32
deriving DecidableEq, Repr

/-- The same as for accounts. -/
abbrev ChainId32 := AccountId32

def AccountId32.asBytes (a : AccountId32) : List UInt8 := Bytes.be 32 a.bytes.val

def AccountId32.encode (a : AccountId32) : List UInt8 := Bincode.bytes a.asBytes

structure SidechainMetadata where
  name : Option String
  description : Option String
  parentChain : Option ChainId32
deriving DecidableEq, Repr

inductive TransactionCall where
  | transfer (toId : AccountId32) (amount : Balance)
  | stake (amount : Balance)
  | unstake (amount : Balance)
  | withdrawUnbonded
  | registerValidator (stake : Balance)
  | unregisterValidator
  | createSidechain (metadata : SidechainMetadata) (deposit : Balance)
  | exitSidechain (chainId : ChainId32)
  | signalFork (name description : String)
  | proposeEarlyValidator (candidate : AccountId32)
  | voteEarlyValidator (candidate : AccountId32)
deriving DecidableEq, Repr

def TransactionCall.encode : TransactionCall → List UInt8
  | transfer toId amount => Bincode.u32 0 ++ (toId.encode ++ Bincode.u128 amount.val)
  | stake amount => Bincode.u32 1 ++ Bincode.u128 amount.val
  | unstake amount => Bincode.u32 2 ++ Bincode.u128 amount.val
  | withdrawUnbonded => Bincode.u32 3
  | registerValidator amount => Bincode.u32 4 ++ Bincode.u128 amount.val
  | unregisterValidator => Bincode.u32 5
  | createSidechain metadata deposit =>
    Bincode.u32 6 ++ (Bincode.option Bincode.string metadata.name ++
      (Bincode.option Bincode.string metadata.description ++
        (Bincode.option AccountId32.encode metadata.parentChain ++ Bincode.u128 deposit.val)))
  | exitSidechain chainId => Bincode.u32 7 ++ chainId.encode
  | signalFork name description => Bincode.u32 8 ++ (Bincode.string name ++ Bincode.string description)
  | proposeEarlyValidator candidate => Bincode.u32 9 ++ candidate.encode
  | voteEarlyValidator candidate => Bincode.u32 10 ++ candidate.encode

structure Transaction where
  sender : AccountId32
  nonce : Nonce
  call : TransactionCall
  timestamp : Nat
deriving DecidableEq, Repr

def Transaction.encode (tx : Transaction) : List UInt8 :=
  tx.sender.encode ++ (Bincode.u64 tx.nonce.val ++ (tx.call.encode ++ Bincode.u64 tx.timestamp))

/-- The wallet's own copy. -/
def domainTransaction : List UInt8 := Bytes.ascii "KRATOS_TRANSACTION_V1:"

def domainSeparate (domain message : List UInt8) : List UInt8 := domain ++ message

/-- What the wallet signs for every transaction it creates. -/
def Transaction.message (tx : Transaction) : List UInt8 := domainSeparate domainTransaction tx.encode

end Kratos.Wallet
