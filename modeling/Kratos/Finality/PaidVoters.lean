import Kratos.Finality.Integration
import Kratos.Finality.Justification

/-!
# The voters that are paid

The integration keeps the voters of the last vote that finalized a block, for the rewards: the
signers of the first justification kept for a block of that number.  While the validators stay, a
justification has a quorum of distinct validators, each with a signature of a precommit for its
block in one round (`justifies_run`), so nobody else is paid, and nobody twice
(`voters_paid_signed`).
-/

namespace Kratos

/-- A signature of a precommit. -/
def precommitOf (b : Target) (epoch round : Nat) (s : AccountId × Signature64) : FinalityVote :=
  { voteType := .precommit, targetNumber := b.number, targetHash := b.hash, round, epoch, voter := s.1
    signature := s.2 }

/-- Distinct validators, a quorum of them, have signed precommits for the block in one round. -/
structure Justifies (cr : Crypto) (validators : Finset AccountId) (j : FinalityJustification) : Prop where
  distinct : (j.signatures.map Prod.fst).Nodup
  enough : quorum validators.card ≤ j.signatures.length
  signed : ∃ round, ∀ s ∈ j.signatures, s.1 ∈ validators ∧ (precommitOf j.block j.epoch round s).verify cr = true

variable {cr : Crypto} {validators : Finset AccountId}

theorem justifies_of_completed (r : FinalityRound)
    (h : VoteCollector.RunInv cr r.epoch r.round validators r.collector) (hs : r.state = .completed)
    (j : FinalityJustification) (hj : r.createJustification = some j) : Justifies cr validators j := by
  obtain ⟨b, hcreate, hsup⟩ := r.createJustification_of_completed h hs
  rw [hj] at hcreate
  cases hcreate
  refine ⟨?_, ?_, r.round, ?_⟩
  · rw [List.map_map]
    exact hsup.distinct
  · rw [List.length_map, ← h.validators_eq]
    exact ((hasSupermajority_iff _ _).mp hsup.supermajority).2
  · intro s hmem
    obtain ⟨v, hv, rfl⟩ := List.mem_map.mp hmem
    have haccepted := hsup.accepted v hv
    have htarget := hsup.forTarget v hv
    refine ⟨h.validators_eq ▸ haccepted.voter, ?_⟩
    have hvote : precommitOf b r.epoch r.round (v.voter, v.signature) = v := by
      cases v
      cases htarget
      cases haccepted.voteType
      cases haccepted.epoch
      cases haccepted.round
      rfl
    rw [hvote]
    exact haccepted.verified

namespace FinalityGadget

/-- The justifications a gadget keeps are of the validators, as is its active round. -/
structure JustifiedInv (cr : Crypto) (validators : Finset AccountId) (g : FinalityGadget) : Prop where
  set : g.rounds.validators = validators
  active : ∀ r, g.rounds.activeRound = some r → VoteCollector.RunInv cr r.epoch r.round validators r.collector
  kept : ∀ j ∈ g.justifications, Justifies cr validators j

/-- **Transition.** -/
theorem justifiedInv_transition {call : Call} {g g' : FinalityGadget}
    (hcall : ∀ w ∈ call.validators?, w = validators) (htrans : Transition cr call g g')
    (h : g.JustifiedInv cr validators) : g'.JustifiedInv cr validators := by
  have hdropped : ∀ b, (g.dropped b).JustifiedInv cr validators := by
    intro b
    refine ⟨?_, ?_, h.kept⟩
    · unfold dropped RoundManager.completeRound
      cases g.rounds.activeRound <;> exact h.set
    · intro r hr
      rw [activeRound_dropped] at hr
      cases hr
  cases htrans with
  | start now round =>
    refine ⟨h.set, ?_, h.kept⟩
    rintro r ⟨⟩
    show VoteCollector.RunInv cr g.rounds.currentEpoch round validators (.new _ round g.rounds.validators)
    rw [h.set]
    exact VoteCollector.runInv_new cr g.rounds.currentEpoch round validators
  | cast r ty b a hr ha hv hfor =>
    refine ⟨h.set, ?_, h.kept⟩
    rintro r' ⟨⟩
    cases ty <;> exact h.active r hr
  | give ord v r hv hr =>
    refine ⟨h.set, ?_, h.kept⟩
    rintro r' ⟨⟩
    obtain ⟨hepoch, hround, -⟩ := VoteCollector.addVote_frame cr ord r.collector v
    show VoteCollector.RunInv cr (r.collector.addVote cr ord v).1.epoch (r.collector.addVote cr ord v).1.round
      validators (r.collector.addVote cr ord v).1
    rw [hepoch, hround]
    exact (h.active r hr).addVote ord v
  | announce r b hr hs hb =>
    refine ⟨h.set, h.active, ?_⟩
    intro j hj
    rcases List.mem_append.mp hj with hold | hnew
    · exact h.kept j hold
    · exact justifies_of_completed r (h.active r hr) hs j (Option.mem_toList.mp hnew)
  | conclude r b => exact hdropped b
  | obey b => exact hdropped b
  | validators w hw => exact ⟨hcall w hw, h.active, h.kept⟩
  | _ => exact ⟨h.set, h.active, h.kept⟩

theorem justifications_transition {call : Call} {g g' : FinalityGadget} (htrans : Transition cr call g g') :
    g.justifications <+: g'.justifications := by
  cases htrans with
  | announce r b => exact List.prefix_append _ _
  | _ => exact List.prefix_refl _

end FinalityGadget

namespace FinalityIntegration

/-- The voters kept are the signers of a justification for a block of the number kept. -/
def PaysSigners (i : FinalityIntegration) : Prop :=
  i.lastFinalityVoters = [] ∨ ∃ j ∈ i.gadget.justifications, j.block.number = i.lastFinalized ∧
    i.lastFinalityVoters = j.signatures.map Prod.fst

/-- More justifications keep the voters' one. -/
theorem PaysSigners.mono {i i' : FinalityIntegration} (h : i.PaysSigners)
    (hvoters : i'.lastFinalityVoters = i.lastFinalityVoters) (hnumber : i'.lastFinalized = i.lastFinalized)
    (hkept : i.gadget.justifications <+: i'.gadget.justifications) : i'.PaysSigners := by
  rcases h with hnone | ⟨j, hj, hblock, hsigners⟩
  · exact Or.inl (hvoters.trans hnone)
  · exact Or.inr ⟨j, hkept.mem hj, hblock.trans hnumber.symm, hvoters.trans hsigners⟩

theorem voters_onBlockImported (now : Nat) (i : FinalityIntegration) (b : Target) :
    (i.onBlockImported now b).lastFinalityVoters = i.lastFinalityVoters ∧
      (i.onBlockImported now b).lastFinalized = i.lastFinalized := by
  unfold onBlockImported
  split <;> exact ⟨rfl, rfl⟩

theorem voters_tick (now delay : Nat) (i : FinalityIntegration) :
    (i.tick now delay).1.lastFinalityVoters = i.lastFinalityVoters ∧
      (i.tick now delay).1.lastFinalized = i.lastFinalized := by
  unfold tick
  split <;> exact ⟨rfl, rfl⟩

theorem paysSigners_onFinalityVote (ord : HashOrder) (now : Nat) (i : FinalityIntegration) (v : FinalityVote)
    (hkept : i.gadget.justifications <+: (i.gadget.onMessage cr ord now (.vote v)).1.justifications)
    (h : i.PaysSigners) : (i.onFinalityVote cr ord now v).1.PaysSigners := by
  unfold onFinalityVote
  split
  · exact h
  · simp only
    split
    · next block hblock =>
      split
      · next j hj =>
        unfold FinalityGadget.getJustification at hj
        exact Or.inr ⟨j, List.mem_of_find?_eq_some hj, by simpa using List.find?_some hj, rfl⟩
      · exact h.mono rfl rfl hkept
    · exact h.mono rfl rfl hkept

end FinalityIntegration

namespace FinalityNode

theorem justifications_step (cr : Crypto) (n : FinalityNode) (e : Event) :
    n.gadget.justifications <+: (n.step cr e).gadget.justifications := by
  have hacts := n.gadget_step cr e
  generalize (n.step cr e).gadget = g' at hacts
  cases hacts with
  | idle => exact List.prefix_refl _
  | calls call he hchain =>
    exact FinalityGadget.step_keeps (fun g' => n.gadget.justifications <+: g'.justifications)
      (fun _ _ htrans hg => hg.trans (FinalityGadget.justifications_transition htrans)) n.gadget (List.prefix_refl _)
  | sends => exact List.prefix_refl _

theorem justifiedInv_step (n : FinalityNode) (e : Event) (he : ∀ w ∈ e.validators?, w = validators)
    (h : n.gadget.JustifiedInv cr validators) : (n.step cr e).gadget.JustifiedInv cr validators := by
  have hacts := n.gadget_step cr e
  generalize (n.step cr e).gadget = g' at hacts
  cases hacts with
  | idle => exact h
  | calls call hcall hchain =>
    unfold Event.validators? at he
    rw [hcall] at he
    exact FinalityGadget.step_keeps (fun g => g.JustifiedInv cr validators)
      (fun _ _ htrans hg => FinalityGadget.justifiedInv_transition he htrans hg) n.gadget h
  | sends => exact ⟨h.set, h.active, h.kept⟩

theorem paysSigners_step (n : FinalityNode) (e : Event) (h : n.integration.PaysSigners) :
    (n.step cr e).integration.PaysSigners := by
  have hkept := n.justifications_step cr e
  have hvote : ∀ ord now v, (n.integration.onFinalityVote cr ord now v).1.PaysSigners := by
    intro ord now v
    refine FinalityIntegration.paysSigners_onFinalityVote ord now n.integration v ?_ h
    have hcall : n.gadget.justifications <+: (n.gadget.step cr (.onMessage ord now (.vote v))).justifications :=
      FinalityGadget.step_keeps (fun g' => n.gadget.justifications <+: g'.justifications)
        (fun _ _ htrans hg => hg.trans (FinalityGadget.justifications_transition htrans)) n.gadget (List.prefix_refl _)
    exact hcall
  cases e with
  | imported now b =>
    have hstep : n.step cr (.imported now b) = if b.number ≠ n.chain.length + 1 then n
        else { chain := n.chain ++ [b], integration := n.integration.onBlockImported now b } := rfl
    rw [hstep] at hkept ⊢
    split at hkept
    · next hb =>
      rw [if_pos hb]
      exact h
    · next hb =>
      rw [if_neg hb]
      obtain ⟨hvoters, hnumber⟩ := n.integration.voters_onBlockImported now b
      exact h.mono hvoters hnumber hkept
  | vote ord now v => exact hvote ord now v
  | message ord now m =>
    cases m with
    | vote v => exact hvote ord now v
    | _ => exact h.mono rfl rfl hkept
  | tick now delay =>
    obtain ⟨hvoters, hnumber⟩ := n.integration.voters_tick now delay
    exact h.mono hvoters hnumber hkept
  | updateValidators w => exact h.mono rfl rfl hkept
  | newEpoch epoch => exact h.mono rfl rfl hkept
  | broadcast => exact h.mono rfl rfl hkept

/-- **Run.** -/
theorem justifies_run (cr : Crypto) (signer : FinalitySigner) (genesisHash : Hash) (l : List Event)
    (hl : ∀ e ∈ l, ∀ w ∈ e.validators?, w = validators) :
    (l.foldl (step cr) (new signer validators genesisHash)).gadget.JustifiedInv cr validators ∧
      (l.foldl (step cr) (new signer validators genesisHash)).integration.PaysSigners := by
  refine Run.inv_foldl (step cr) (fun _ e => ∀ w ∈ e.validators?, w = validators)
    (fun n => n.gadget.JustifiedInv cr validators ∧ n.integration.PaysSigners)
    (fun n e h he => ⟨n.justifiedInv_step e he h.1, n.paysSigners_step e h.2⟩) _ l ⟨⟨rfl, ?_, ?_⟩, Or.inl rfl⟩
    (Run.meets_of_mem _ _ _ l hl)
  · intro r hr
    cases hr
  · intro j hj
    cases hj

/-- **Paid voters.**  In every state of a run in which the validators stay, the voters kept for the
rewards are none, or distinct validators, a quorum of them, each of which has signed a precommit of
one round for one block of the number kept. -/
theorem voters_paid_signed (cr : Crypto) (signer : FinalitySigner) (validators : Finset AccountId)
    (genesisHash : Hash) (l : List Event) (hl : ∀ e ∈ l, ∀ w ∈ e.validators?, w = validators) :
    let i := (l.foldl (step cr) (new signer validators genesisHash)).integration
    i.lastFinalityVoters = [] ∨ (i.lastFinalityVoters.Nodup ∧ quorum validators.card ≤ i.lastFinalityVoters.length ∧
      ∃ b epoch round, b.number = i.lastFinalized ∧ ∀ a ∈ i.lastFinalityVoters, a ∈ validators ∧
        ∃ s, (precommitOf b epoch round (a, s)).verify cr = true) := by
  intro i
  obtain ⟨hinv, hpays⟩ := justifies_run cr signer genesisHash l hl
  rcases hpays with hnone | ⟨j, hj, hblock, hsigners⟩
  · exact Or.inl hnone
  · obtain ⟨hdistinct, henough, round, hsigned⟩ := hinv.kept j hj
    refine Or.inr ⟨hsigners ▸ hdistinct, ?_, j.block, j.epoch, round, hblock, ?_⟩
    · rw [hsigners, List.length_map]
      exact henough
    · intro a ha
      rw [hsigners] at ha
      obtain ⟨s, hs, rfl⟩ := List.mem_map.mp ha
      exact ⟨(hsigned s hs).1, s.2, (hsigned s hs).2⟩

/-- Two of three validators vote for block 1. -/
def samplePaid : List Event :=
  .imported 0 ⟨1, ⟨1⟩⟩ :: [VoteType.prevote, .precommit].flatMap fun ty =>
    [(⟨1⟩ : AccountId), ⟨2⟩].map fun a => .vote .sorted 0 (voteOf ty 0 0 ⟨1, ⟨1⟩⟩ a)

theorem voters_paid_two :
    (samplePaid.foldl (step .sample) (new (FinalityGadget.sampleSigner ⟨3⟩) VoteCollector.threeValidators
      ⟨0⟩)).integration.lastFinalityVoters = [⟨1⟩, ⟨2⟩] ∧
    (samplePaid.foldl (step .sample) (new (FinalityGadget.sampleSigner ⟨3⟩) VoteCollector.threeValidators
      ⟨0⟩)).integration.lastFinalityVoters.Nodup := by
  have hvoters : (samplePaid.foldl (step .sample) (new (FinalityGadget.sampleSigner ⟨3⟩)
      VoteCollector.threeValidators ⟨0⟩)).integration.lastFinalityVoters = [⟨1⟩, ⟨2⟩] := by decide +kernel
  refine ⟨hvoters, ?_⟩
  rcases voters_paid_signed .sample (FinalityGadget.sampleSigner ⟨3⟩) VoteCollector.threeValidators ⟨0⟩ samplePaid
    (by decide) with hnone | ⟨hnodup, -⟩
  · rw [hvoters] at hnone
    cases hnone
  · exact hnodup

end FinalityNode

end Kratos
