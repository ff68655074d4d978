import Kratos.Finality.Collector
import Kratos.Finality.Rounds
import Kratos.Types.Bincode

/-!
# Justifications

A justification lists the signatures of the precommits for the finalized block and is checked
against a message of its own: the block and the epoch, without the vote type and the round that
a precommit signs.  The two messages differ in length (`signingMessage_ne`), so none of the
signatures verifies (`justification_invalid`).
-/

namespace Kratos

namespace FinalityJustification

/-- `DOMAIN_FINALITY || block_number || block_hash || epoch`. -/
def signingMessage (j : FinalityJustification) : List UInt8 :=
  domainSeparate domainFinality
    (Bincode.u64 j.block.number ++ (Bincode.hash j.block.hash ++ Bincode.u64 j.epoch))

/-- The number of valid signatures, and of all of them. -/
def verifySignatures (cr : Crypto) (j : FinalityJustification) : Nat × Nat :=
  ((j.signatures.filter fun s => cr.ed25519Verify s.1 j.signingMessage s.2).length, j.signatures.length)

def hasSupermajority (cr : Crypto) (j : FinalityJustification) (totalValidators : Nat) : Bool :=
  decide ((j.verifySignatures cr).1 * 100 ≥ totalValidators * 66)

/-- No validator comes a second time. -/
def distinctValidators : List (AccountId × Signature64) → Finset AccountId → Bool
  | [], _ => true
  | s :: l, seen => if s.1 ∈ seen then false else distinctValidators l (insert s.1 seen)

def isValid (cr : Crypto) (j : FinalityJustification) (totalValidators : Nat) : Bool :=
  if distinctValidators j.signatures ∅ = false then false else j.hasSupermajority cr totalValidators

theorem distinctValidators_iff (l : List (AccountId × Signature64)) (seen : Finset AccountId) :
    distinctValidators l seen = true ↔ (l.map Prod.fst).Nodup ∧ ∀ s ∈ l, s.1 ∉ seen := by
  induction l generalizing seen with
  | nil => simp [distinctValidators]
  | cons s l ih =>
    unfold distinctValidators
    split
    · next hseen => simp [hseen]
    · next hseen =>
      rw [ih, List.map_cons, List.nodup_cons, List.forall_mem_cons]
      constructor
      · rintro ⟨hnodup, hrest⟩
        refine ⟨⟨fun hmem => ?_, hnodup⟩, hseen, fun t ht hts => ?_⟩
        · obtain ⟨t, ht, heq⟩ := List.mem_map.1 hmem
          exact hrest t ht (Finset.mem_insert.2 (.inl heq))
        · exact hrest t ht (Finset.mem_insert_of_mem hts)
      · rintro ⟨⟨hnew, hnodup⟩, -, hrest⟩
        refine ⟨hnodup, fun t ht hts => ?_⟩
        rcases Finset.mem_insert.1 hts with heq | hts
        · exact hnew (List.mem_map.2 ⟨t, ht, heq⟩)
        · exact hrest t ht hts

/-- With distinct validators only the count decides. -/
theorem isValid_of_nodup (cr : Crypto) (j : FinalityJustification) (n : Nat)
    (h : (j.signatures.map Prod.fst).Nodup) : j.isValid cr n = j.hasSupermajority cr n := by
  have hdistinct : distinctValidators j.signatures ∅ = true :=
    (distinctValidators_iff j.signatures ∅).2 ⟨h, fun s _ => Finset.notMem_empty s.1⟩
  unfold isValid
  rw [if_neg (by rw [hdistinct]; decide)]

end FinalityJustification

/-- A signature verifies on the bytes that were signed and on no others. -/
def SignsExactly (cr : Crypto) : Prop :=
  ∀ a m m' s, cr.ed25519Verify a m s = true → cr.ed25519Verify a m' s = true → m = m'

/-- No vote signs what a justification is checked against. -/
theorem signingMessage_ne (v : FinalityVote) (j : FinalityJustification) :
    v.signingMessage ≠ j.signingMessage := by
  intro h
  have hlength := congrArg List.length h
  simp [FinalityVote.signingMessage, FinalityJustification.signingMessage, domainSeparate, Bincode.u8,
    Bincode.hash] at hlength

namespace FinalityRound

/-- A completed round's justification is made of the precommits for its block. -/
theorem createJustification_of_completed {cr : Crypto} {epoch round : Nat} {validators : Finset AccountId}
    (r : FinalityRound) (h : VoteCollector.RunInv cr epoch round validators r.collector)
    (hs : r.state = .completed) :
    ∃ b, r.createJustification = some
        { block := b, epoch
          signatures := (r.collector.precommits.votesFor b).map fun v => (v.voter, v.signature) } ∧
      VoteCollector.Supported cr r.collector b := by
  obtain ⟨b, hb, hsup⟩ := VoteCollector.supported_of_completed cr r.collector h.inv hs
  refine ⟨b, ?_, hsup⟩
  have hbest : r.collector.precommits.best = some b := by
    unfold VoteCollector.finalizedTarget at hb
    rwa [if_pos (show r.collector.state = _ from hs)] at hb
  have hprecommits : r.collector.precommitsForBest = r.collector.precommits.votesFor b := by
    unfold VoteCollector.precommitsForBest
    rw [hbest, Option.map_some, Option.getD_some]
  unfold createJustification
  rw [if_neg (not_not.2 hs), finalizedTarget, hb, hprecommits, ← h.epoch_eq]
  rfl

/-- **Justification.**  A completed round has a justification with enough signatures of distinct
validators, and none of them verifies. -/
theorem justification_invalid (cr : Crypto) (hcr : SignsExactly cr) (epoch round : Nat)
    (validators : Finset AccountId) (ops : List CollectorOp) (r : FinalityRound)
    (hr : r.collector = ops.foldl (VoteCollector.apply cr) (.new epoch round validators))
    (hs : r.state = .completed) :
    ∃ j, r.createJustification = some j ∧ (j.signatures.map Prod.fst).Nodup ∧
      Kratos.hasSupermajority j.signatures.length validators.card = true ∧
      j.verifySignatures cr = (0, j.signatures.length) ∧ j.isValid cr validators.card = false := by
  have h : VoteCollector.RunInv cr epoch round validators r.collector := by
    rw [hr]
    exact (VoteCollector.runInv_new cr epoch round validators).foldl ops
  obtain ⟨b, hj, hsup⟩ := createJustification_of_completed r h hs
  refine ⟨_, hj, ?_⟩
  generalize hsigs : (r.collector.precommits.votesFor b).map (fun v => (v.voter, v.signature)) = sigs
  have hnodup : (sigs.map Prod.fst).Nodup := by
    rw [← hsigs, List.map_map]
    exact hsup.distinct
  have henough : Kratos.hasSupermajority sigs.length validators.card = true := by
    have hcount := hsup.supermajority
    unfold VoteCollector.validatorCount at hcount
    rwa [h.validators_eq, ← List.length_map (fun v : FinalityVote => (v.voter, v.signature)), hsigs] at hcount
  -- each signature verifies its precommit, so it verifies nothing else
  have hnone : sigs.filter (fun s => cr.ed25519Verify s.1
      (FinalityJustification.signingMessage { block := b, epoch, signatures := sigs }) s.2) = [] := by
    rw [List.filter_eq_nil_iff, ← hsigs]
    intro s hmem hverify
    obtain ⟨v, hv, rfl⟩ := List.mem_map.1 hmem
    exact signingMessage_ne v _ (hcr v.voter _ _ v.signature (hsup.accepted v hv).verified hverify)
  have hcount : FinalityJustification.verifySignatures cr { block := b, epoch, signatures := sigs } =
      (0, sigs.length) := by
    unfold FinalityJustification.verifySignatures
    rw [hnone, List.length_nil]
  refine ⟨hnodup, henough, hcount, ?_⟩
  obtain ⟨hpos, -⟩ := (hasSupermajority_iff _ _).1 henough
  rw [FinalityJustification.isValid_of_nodup cr _ _ hnodup, FinalityJustification.hasSupermajority, hcount,
    decide_eq_false_iff_not]
  omega

/-- A vote for the first block with the signature that stands for its type. -/
def signedVote (ty : VoteType) (a : AccountId) : FinalityVote :=
  match ty with
  | .prevote => voteOf .prevote 0 0 ⟨1, ⟨1⟩⟩ a
  | .precommit => { voteOf .precommit 0 0 ⟨1, ⟨1⟩⟩ a with signature := ⟨1⟩ }

/-- The signatures of `signedVote` verify on what they sign. -/
def votesCrypto : Crypto :=
  { Crypto.sample with
    ed25519Verify := fun _ m s =>
      decide (m = (signedVote .prevote ⟨1⟩).signingMessage ∧ s = Signature64.zero) ||
        decide (m = (signedVote .precommit ⟨1⟩).signingMessage ∧ s = ⟨1⟩) }

def signedOps : List CollectorOp :=
  [.addVote .sorted (signedVote .prevote ⟨1⟩), .addVote .sorted (signedVote .prevote ⟨2⟩),
    .addVote .sorted (signedVote .precommit ⟨1⟩), .addVote .sorted (signedVote .precommit ⟨2⟩)]

def signedRound : FinalityRound :=
  { new 0 0 0 VoteCollector.threeValidators none with
    collector := signedOps.foldl (VoteCollector.apply votesCrypto) (.new 0 0 VoteCollector.threeValidators) }

theorem votesCrypto_signsExactly : SignsExactly votesCrypto := by
  intro a m m' s h h'
  have hne : Signature64.zero ≠ ⟨1⟩ := by decide +kernel
  simp only [votesCrypto, Bool.or_eq_true, decide_eq_true_eq] at h h'
  rcases h with ⟨hm, hs⟩ | ⟨hm, hs⟩ <;> rcases h' with ⟨hm', hs'⟩ | ⟨hm', hs'⟩
  · exact hm.trans hm'.symm
  · exact absurd (hs.symm.trans hs') hne
  · exact absurd (hs'.symm.trans hs) hne
  · exact hm.trans hm'.symm

theorem collector_signedRound : signedRound.collector =
    signedOps.foldl (VoteCollector.apply votesCrypto) (.new 0 0 VoteCollector.threeValidators) := by
  simp only [signedRound]

theorem signedRound_completed : signedRound.state = .completed := by decide +kernel

/-- Two of three validators vote. -/
theorem justification_invalid_signed :
    ∃ j, signedRound.createJustification = some j ∧ (j.signatures.map Prod.fst).Nodup ∧
      Kratos.hasSupermajority j.signatures.length VoteCollector.threeValidators.card = true ∧
      j.verifySignatures votesCrypto = (0, j.signatures.length) ∧
      j.isValid votesCrypto VoteCollector.threeValidators.card = false :=
  justification_invalid votesCrypto votesCrypto_signsExactly 0 0 VoteCollector.threeValidators signedOps
    signedRound collector_signedRound signedRound_completed

/-- Their justification is not valid. -/
theorem justification_of_signed :
    ¬ ∀ (cr : Crypto), SignsExactly cr → ∀ (epoch round : Nat) (validators : Finset AccountId)
      (ops : List CollectorOp) (r : FinalityRound),
      r.collector = ops.foldl (VoteCollector.apply cr) (.new epoch round validators) → r.state = .completed →
        ∃ j, r.createJustification = some j ∧ j.isValid cr validators.card = true := by
  intro h
  obtain ⟨j, hj, hvalid⟩ := h votesCrypto votesCrypto_signsExactly 0 0 VoteCollector.threeValidators signedOps
    signedRound collector_signedRound signedRound_completed
  have heval : (signedRound.createJustification.map fun j =>
      j.isValid votesCrypto VoteCollector.threeValidators.card) = some false := by decide +kernel
  rw [hj, Option.map_some, hvalid] at heval
  cases heval

end FinalityRound

end Kratos
