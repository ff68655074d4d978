import Kratos.Types.Transaction

/-!
# Blocks

Header, body and the header hash (the signature is left out of it).
`transactionsRoot` is the root that production and validation compute: one hash
over the concatenated transaction hashes.
-/

namespace Kratos

structure BlockHeader where
  number : Nat
  parentHash : Hash
  transactionsRoot : Hash
  stateRoot : Hash
  timestamp : Nat
  epoch : Nat
  slot : Nat
  author : AccountId
  signature : Signature64
deriving DecidableEq, Repr

def BlockHeader.encode (h : BlockHeader) : List UInt8 :=
  Bincode.u64 h.number ++ (Bincode.hash h.parentHash ++ (Bincode.hash h.transactionsRoot ++
    (Bincode.hash h.stateRoot ++ (Bincode.u64 h.timestamp ++ (Bincode.u64 h.epoch ++
      (Bincode.u64 h.slot ++ Bincode.accountId h.author))))))

def BlockHeader.hash (cr : Crypto) (h : BlockHeader) : Hash := cr.blake3 h.encode

structure BlockBody where
  transactions : List SignedTransaction
deriving DecidableEq, Repr

structure Block where
  header : BlockHeader
  body : BlockBody
deriving DecidableEq, Repr

def Block.hash (cr : Crypto) (b : Block) : Hash := b.header.hash cr

/-- What is read back after the block was serialized: cached transaction hashes are skipped. -/
def Block.stored (b : Block) : Block :=
  { b with body := { transactions := b.body.transactions.map SignedTransaction.uncached } }

def computeTransactionsRoot (cr : Crypto) (txs : List SignedTransaction) : Hash :=
  if txs.isEmpty then Hash.zero
  else cr.blake3 (txs.flatMap fun tx => (tx.hash cr).asBytes)

/-- Merkle root of the state at a block. -/
structure StateRoot where
  root : Hash
  blockNumber : Nat
  chainId : ChainId
deriving DecidableEq, Repr

def StateRoot.zero (chainId : ChainId) : StateRoot :=
  { root := Hash.zero, blockNumber := 0, chainId }

end Kratos
