import Kratos.Consensus.ValidatorCredits
import Kratos.Lib.Fallible
import Kratos.Lib.IterOrder
import Kratos.Lib.Run
import Kratos.Types.Dispute

/-!
# Arbitration

Disputes are raised, decided by a drawn jury, enforced, appealed, dismissed or
expired.  The disputes are kept in memory and written to the database one by one;
the `n`-th write fails if `faults n` says so, and a method that fails after it
changed the memory leaves the change.  The draw of one juror weighs stake and
credits in floating point and is a parameter.

No operation asks `isValidTransition` before it writes a status.
-/

namespace Kratos

/-- A draw of one account for a slot and an epoch, among accounts with stake and credits. -/
abbrev SelectValidator : Type := Nat → Nat → List (AccountId × Balance × Nat) → Except String AccountId

inductive ArbitrationError where
  | disputeNotFound (disputeId : Nat)
  | evidenceWindowClosed
  | deliberationClosed
  | notJuryMember
  | alreadyVoted
  | insufficientJury (members : Nat)
  | invalidState (expected actual : String)
  | vrfSelectionFailed (message : String)
  | alreadyResolved
  | invalidJurisdiction
  | evidenceLimitReached
  | databaseError
  | deliberationNotComplete
  | duplicateDispute (disputeId : Nat)
  | unauthorized (action required : String)
  | maxDisputesReached
deriving DecidableEq, Repr

/-- The disputes written under their keys, and which of the writes to come fail. -/
structure DisputeDatabase where
  stored : SortedMap Nat Dispute
  faults : Nat → Bool
  writes : Nat

namespace DisputeDatabase

def put (db : DisputeDatabase) (dispute : Dispute) : Except ArbitrationError Unit × DisputeDatabase :=
  let db' := { db with writes := db.writes + 1 }
  if db.faults db.writes then (.error .databaseError, db')
  else (.ok (), { db' with stored := db.stored.insert dispute.id dispute })

/-- An empty database without failures. -/
def sample : DisputeDatabase := { stored := .empty, faults := fun _ => false, writes := 0 }

end DisputeDatabase

/-- A validator that may be drawn. -/
structure JuryCandidate where
  account : AccountId
  stake : Balance
  vc : Nat
deriving DecidableEq, Repr

structure ArbitrationContract where
  db : DisputeDatabase
  disputes : SortedMap Nat Dispute
  validators : SortedMap AccountId JuryCandidate
  validatorCredits : ValidatorCreditsManager
  nextDisputeId : Nat
  currentBlock : Nat

namespace ArbitrationContract

/-- Methods of the contract. -/
abbrev Method (α : Type) : Type := Fallible ArbitrationContract ArbitrationError α

def new (db : DisputeDatabase) (validatorCredits : ValidatorCreditsManager) : ArbitrationContract :=
  { db, disputes := .empty, validators := .empty, validatorCredits, nextDisputeId := 1, currentBlock := 0 }

def registerValidator (s : ArbitrationContract) (account : AccountId) (stake : Balance) (vc : Nat) :
    ArbitrationContract :=
  { s with validators := s.validators.insert account { account, stake, vc } }

def setCurrentBlock (s : ArbitrationContract) (blockNumber : Nat) : ArbitrationContract :=
  { s with currentBlock := blockNumber }

def getDispute (disputeId : Nat) : Method Dispute :=
  Fallible.mk fun s =>
    (match s.disputes.find? disputeId with
      | some dispute => .ok dispute
      | none => .error (.disputeNotFound disputeId), s)

def persistDispute (dispute : Dispute) : Method Unit :=
  Fallible.mk fun s => ((s.db.put dispute).1, { s with db := (s.db.put dispute).2 })

/-- Change a dispute in memory, then write it. -/
def updateDispute (disputeId : Nat) (f : Dispute → Dispute) : Method Unit := do
  let dispute ← getDispute disputeId
  Fallible.modifies fun s => { s with disputes := s.disputes.insert disputeId (f dispute) }
  persistDispute (f dispute)

def isValidator (account : AccountId) : Method Bool := Fallible.reads fun s => s.validators.contains account

/-! ## Disputes -/

/-- A sidechain handles its own disputes only. -/
def validateJurisdiction (jurisdiction : Jurisdiction) (chainId : ChainId) : Bool :=
  match jurisdiction with
  | .localTo jurChainId => decide (jurChainId = chainId)
  | .host _ | .root => true

def isHigherJurisdiction (new current : Jurisdiction) : Bool :=
  match current, new with
  | .localTo _, .host _ => true
  | .localTo _, .root => true
  | .host _, .root => true
  | _, _ => false

def raiseDispute (chainId : ChainId) (disputeType : DisputeType) (raisedBy : AccountId)
    (jurisdiction : Jurisdiction) (initialEvidence : Option Evidence) : Method Nat := do
  Fallible.ensure (validateJurisdiction jurisdiction chainId = true) .invalidJurisdiction
  let disputeId ← Fallible.reads fun s => s.nextDisputeId
  Fallible.ensure (disputeId ≠ 2 ^ 64 - 1) .maxDisputesReached
  let known ← Fallible.reads fun s => s.disputes.contains disputeId
  Fallible.ensure (known = false) (.duplicateDispute disputeId)
  let currentBlock ← Fallible.reads fun s => s.currentBlock
  let dispute := { Dispute.new disputeId chainId disputeType raisedBy currentBlock jurisdiction with
                   evidence := initialEvidence.toList }
  Fallible.modifies fun s =>
    { s with nextDisputeId := disputeId + 1, disputes := s.disputes.insert disputeId dispute }
  persistDispute dispute
  pure disputeId

def submitEvidence (disputeId : Nat) (evidence : Evidence) (submitter : AccountId) : Method Unit := do
  let currentBlock ← Fallible.reads fun s => s.currentBlock
  let validator ← isValidator submitter
  let dispute ← getDispute disputeId
  Fallible.ensure (dispute.canSubmitEvidence currentBlock = true) .evidenceWindowClosed
  Fallible.ensure (submitter = dispute.raisedBy ∨ dispute.accused = some submitter ∨ validator = true)
    (.unauthorized "submit_evidence" "dispute party or validator")
  Fallible.ensure (dispute.evidence.length < maxEvidenceCount) .evidenceLimitReached
  updateDispute disputeId fun d => { d with evidence := d.evidence ++ [evidence] }

/-! ## Juries -/

/-- The accused and the raiser are left out. -/
def candidates (order : IterOrder JuryCandidate) (s : ArbitrationContract) (dispute : Dispute) :
    List (AccountId × Balance × Nat) :=
  ((order.iter s.validators.values).filter fun v =>
    decide (dispute.accused ≠ some v.account) && decide (v.account ≠ dispute.raisedBy)).map
      fun v => (v.account, v.stake, v.vc)

/-- One juror a round, until nobody is left. -/
def drawJury (selectValidator : SelectValidator) (disputeId : Nat) (candidates : List (AccountId × Balance × Nat)) :
    List Nat → List AccountId → Except ArbitrationError (List AccountId)
  | [], juryMembers => .ok juryMembers
  | round :: rounds, juryMembers =>
    let available := candidates.filter fun c => decide (c.1 ∉ juryMembers)
    if available.isEmpty then .ok juryMembers
    else
      match selectValidator round (disputeId + round) available with
      | .error e => .error (.vrfSelectionFailed e)
      | .ok selected => drawJury selectValidator disputeId candidates rounds (juryMembers ++ [selected])

def selectJury (selectValidator : SelectValidator) (order : IterOrder JuryCandidate) (disputeId : Nat)
    (jurySize : Option Nat) : Method (List AccountId) := do
  let currentBlock ← Fallible.reads fun s => s.currentBlock
  let dispute ← getDispute disputeId
  Fallible.ensure (dispute.status = .opened) (.invalidState "Open" dispute.status.debug)
  Fallible.ensure (dispute.evidence.isEmpty = false)
    (.invalidState "At least one evidence" "No evidence submitted")
  let candidates ← Fallible.reads fun s => candidates order s dispute
  Fallible.ensure (candidates.isEmpty = false) (.insufficientJury 0)
  let juryMembers ← Fallible.lift
    (drawJury selectValidator disputeId candidates (List.range (jurySize.getD defaultJurySize)) [])
  Fallible.ensure (minJurySize ≤ juryMembers.length) (.insufficientJury juryMembers.length)
  updateDispute disputeId fun d =>
    { d with status := .deliberating, juryMembers, deliberationDeadline := some (currentBlock + deliberationPeriod) }
  pure juryMembers

def submitJuryVote (disputeId : Nat) (juror : AccountId) (verdict : Verdict) (justification : Option String) :
    Method Unit := do
  let currentBlock ← Fallible.reads fun s => s.currentBlock
  let dispute ← getDispute disputeId
  Fallible.ensure (dispute.canVote currentBlock = true) .deliberationClosed
  Fallible.ensure (juror ∈ dispute.juryMembers) .notJuryMember
  Fallible.ensure (juror ∉ dispute.juryVotes.map JuryVote.juror) .alreadyVoted
  updateDispute disputeId fun d =>
    { d with juryVotes := d.juryVotes ++ [{ juror, verdict, justification, timestamp := currentBlock }] }

/-! ## Verdicts -/

def recordArbitration (juror : AccountId) : Method Unit :=
  Fallible.mk fun s =>
    match s.validatorCredits.recordArbitration juror s.currentBlock (s.currentBlock / 600) with
    | .ok r => (.ok (), { s with validatorCredits := r.1 })
    | .error .validatorNotFound => (.error (.vrfSelectionFailed "Validator not found"), s)

/-- The first juror without a record ends the loop. -/
def rewardJuryMembers : List AccountId → Method Unit
  | [] => pure ()
  | juror :: rest => do
    recordArbitration juror
    rewardJuryMembers rest

def tallyVotes (disputeId : Nat) : Method JuryDecision := do
  let currentBlock ← Fallible.reads fun s => s.currentBlock
  let dispute ← getDispute disputeId
  Fallible.ensure (dispute.status = .deliberating) (.invalidState "Deliberating" dispute.status.debug)
  Fallible.ensure
    (dispute.juryVotes.length ≥ dispute.juryMembers.length ∨
      dispute.deliberationDeadline.any (fun deadline => decide (currentBlock ≥ deadline)) = true)
    .deliberationNotComplete
  Fallible.ensure (dispute.juryVotes.isEmpty = false) (.invalidState "At least one vote" "No votes submitted")
  let decision := JuryDecision.tallyVotes dispute.juryVotes currentBlock disputeId
  updateDispute disputeId fun d => { d with decision := some decision, status := .resolved }
  rewardJuryMembers dispute.juryMembers
  pure decision

def enforceVerdict (disputeId : Nat) (enforcement : Enforcement) (caller : AccountId) : Method Unit := do
  let validator ← isValidator caller
  Fallible.ensure (validator = true) (.unauthorized "enforce_verdict" "registered validator")
  let dispute ← getDispute disputeId
  Fallible.ensure (dispute.status = .resolved) (.invalidState "Resolved" dispute.status.debug)
  Fallible.ensure (dispute.decision.bind JuryDecision.enforcement = none) .alreadyResolved
  updateDispute disputeId fun d =>
    { d with decision := d.decision.map fun decision => { decision with enforcement := some enforcement } }

/-- A new dispute with the evidence of the old one, which then counts as appealed. -/
def appealDecision (disputeId : Nat) (appealedBy : AccountId) (newJurisdiction : Jurisdiction) :
    Method Nat := do
  let original ← getDispute disputeId
  Fallible.ensure (original.status = .resolved) (.invalidState "Resolved" original.status.debug)
  Fallible.ensure (isHigherJurisdiction newJurisdiction original.jurisdiction = true) .invalidJurisdiction
  let newDisputeId ← raiseDispute original.chainId original.disputeType appealedBy newJurisdiction none
  updateDispute newDisputeId fun d => { d with evidence := original.evidence }
  updateDispute disputeId fun d => { d with status := .appealed }
  pure newDisputeId

/-! ## Ends without a verdict -/

/-- A write that fails is ignored here. -/
def expireDispute (s : ArbitrationContract) (disputeId : Nat) : ArbitrationContract :=
  match s.disputes.find? disputeId with
  | some dispute =>
    let dispute := { dispute with status := .expired }
    { s with disputes := s.disputes.insert disputeId dispute, db := (s.db.put dispute).2 }
  | none => s

def expireStaleDisputes (order : IterOrder Nat) (s : ArbitrationContract) : ArbitrationContract × List Nat :=
  let expiredIds := order.iter
    (s.disputes.filter fun _ d => d.isStale s.currentBlock || d.isExpired s.currentBlock).keys
  (expiredIds.foldl expireDispute s, expiredIds)

/-- The reason is not kept. -/
def dismissDispute (disputeId : Nat) (_reason : String) (caller : AccountId) : Method Unit := do
  let validator ← isValidator caller
  Fallible.ensure (validator = true) (.unauthorized "dismiss_dispute" "registered validator")
  let dispute ← getDispute disputeId
  Fallible.ensure (dispute.status = .opened ∨ dispute.status = .evidenceComplete)
    (.invalidState "Open or EvidenceComplete" dispute.status.debug)
  updateDispute disputeId fun d => { d with status := .dismissed }

def hasBlockingDisputes (s : ArbitrationContract) (chainId : ChainId) : Bool :=
  s.disputes.values.any fun d => d.blocks chainId

end ArbitrationContract

/-- A call of the contract. -/
inductive ArbitrationOp where
  | registerValidator (account : AccountId) (stake : Balance) (vc : Nat)
  | setCurrentBlock (blockNumber : Nat)
  | raiseDispute (chainId : ChainId) (disputeType : DisputeType) (raisedBy : AccountId)
      (jurisdiction : Jurisdiction) (initialEvidence : Option Evidence)
  | submitEvidence (disputeId : Nat) (evidence : Evidence) (submitter : AccountId)
  | selectJury (order : IterOrder JuryCandidate) (disputeId : Nat) (jurySize : Option Nat)
  | submitJuryVote (disputeId : Nat) (juror : AccountId) (verdict : Verdict) (justification : Option String)
  | tallyVotes (disputeId : Nat)
  | enforceVerdict (disputeId : Nat) (enforcement : Enforcement) (caller : AccountId)
  | appealDecision (disputeId : Nat) (appealedBy : AccountId) (newJurisdiction : Jurisdiction)
  | dismissDispute (disputeId : Nat) (reason : String) (caller : AccountId)
  | expireStaleDisputes (order : IterOrder Nat)

namespace ArbitrationContract

/-- The state a call leaves, whether it succeeds or fails. -/
def apply (selectValidator : SelectValidator) (s : ArbitrationContract) : ArbitrationOp → ArbitrationContract
  | .registerValidator account stake vc => s.registerValidator account stake vc
  | .setCurrentBlock blockNumber => s.setCurrentBlock blockNumber
  | .raiseDispute chainId disputeType raisedBy jurisdiction initialEvidence =>
    ((raiseDispute chainId disputeType raisedBy jurisdiction initialEvidence).exec s).2
  | .submitEvidence disputeId evidence submitter => ((submitEvidence disputeId evidence submitter).exec s).2
  | .selectJury order disputeId jurySize => ((selectJury selectValidator order disputeId jurySize).exec s).2
  | .submitJuryVote disputeId juror verdict justification =>
    ((submitJuryVote disputeId juror verdict justification).exec s).2
  | .tallyVotes disputeId => ((tallyVotes disputeId).exec s).2
  | .enforceVerdict disputeId enforcement caller => ((enforceVerdict disputeId enforcement caller).exec s).2
  | .appealDecision disputeId appealedBy newJurisdiction =>
    ((appealDecision disputeId appealedBy newJurisdiction).exec s).2
  | .dismissDispute disputeId reason caller => ((dismissDispute disputeId reason caller).exec s).2
  | .expireStaleDisputes order => (expireStaleDisputes order s).1

/-- The contract after a run from a fresh one. -/
def after (selectValidator : SelectValidator) (db : DisputeDatabase) (vc : ValidatorCreditsManager)
    (ops : List ArbitrationOp) : ArbitrationContract :=
  ops.foldl (apply selectValidator) (new db vc)

end ArbitrationContract

end Kratos
