import Kratos.Types.Block
import Kratos.Types.Chain
import Kratos.Types.Merkle

/-!
# Fraud proofs

The evidence against a validator and whom it accuses.
-/

namespace Kratos

/-- Violations of an exit. -/
inductive ExitViolation where
  | prematureExit (actualPurgeStart claimedWithdrawalStart : Nat)
  | expiredWithdrawal (windowEnd exitAttemptBlock : Nat)
  | inflatedBalance (actualBalance claimedBalance : Balance)
  | invalidChainState (actualState : String)
deriving DecidableEq, Repr

inductive FraudProof where
  | invalidStateTransition (account : AccountId) (beforeState afterState : AccountInfo)
      (merkleProofBefore merkleProofAfter : MerkleProof) (blockNumber : Nat) (validator : AccountId)
  | doubleFinalization (validator : AccountId) (blockA blockB : BlockHeader)
      (signatureA signatureB : Signature64)
  | invalidExit (chainId : ChainId) (exitClaim : SidechainInfo) (violation : ExitViolation)
      (merkleProof : MerkleProof) (blockNumber : Nat)

inductive FraudSeverity where
  | minor
  | moderate
  | severe
  | critical
deriving DecidableEq, Repr

/-- An exit claim accuses nobody; the zero account stands for that. -/
def FraudProof.accusedValidator : FraudProof → AccountId
  | .invalidStateTransition _ _ _ _ _ _ validator => validator
  | .doubleFinalization validator _ _ _ _ => validator
  | .invalidExit .. => ⟨0⟩

end Kratos
