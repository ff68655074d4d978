import Kratos.Types.Primitives

/-!
# Inclusion proofs

A proof is a leaf with its index and the sibling digests from the bottom up; it
verifies if the digest rebuilt from them is the root it names.  Neither the block
number nor the chain takes part.
-/

namespace Kratos

structure MerkleProof where
  leaf : List UInt8
  leafIndex : Nat
  proof : List Hash
  root : Hash
  blockNumber : Nat
  chainId : ChainId
deriving DecidableEq, Repr

namespace MerkleProof

/-- One level up: an even index is a left child. -/
def combine (cr : Crypto) (index : Nat) (current sibling : Hash) : Hash :=
  if index % 2 = 0 then cr.blake3 (current.asBytes ++ sibling.asBytes)
  else cr.blake3 (sibling.asBytes ++ current.asBytes)

def computeRootFromProof (cr : Crypto) : Nat → Hash → List Hash → Hash
  | _, current, [] => current
  | index, current, sibling :: rest =>
    computeRootFromProof cr (index / 2) (combine cr index current sibling) rest

def verify (cr : Crypto) (p : MerkleProof) : Bool :=
  decide (computeRootFromProof cr p.leafIndex (cr.blake3 p.leaf) p.proof = p.root)

end MerkleProof

end Kratos
