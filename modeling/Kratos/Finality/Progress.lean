import Kratos.Finality.Network
import Kratos.Finality.OwnVotes

/-!
# Reaching finality

The votes of the network are given to a round in some order, some of them more than once.  While
all of them are for one block, the collector records exactly the voters that were heard
(`Heard`), so the phases end with a quorum of voters.  Validators whose chain starts with one block
finalize it when the votes of enough of them arrive, in any order, the precommits after the
prevotes (`finality_reached`): a validator need not hear itself, so more than a quorum of them has to
take part.
-/

namespace Kratos

/-! ## The voters heard -/

/-- The collector of the first round records the voters of a block. -/
structure Heard (cr : Crypto) (validators : Finset AccountId) (b : Target) (voters : VoteType → Finset AccountId)
    (c : VoteCollector) : Prop where
  run : VoteCollector.RunInv cr 0 0 validators c
  backed : c.PrevoteBacked
  voted : ∀ ty a m, (c.tally ty).voted.find? a = some m ↔ a ∈ voters ty ∧ m = b

namespace Heard

variable {cr : Crypto} {validators : Finset AccountId} {b : Target} {voters : VoteType → Finset AccountId}
  {c : VoteCollector}

theorem new (cr : Crypto) (validators : Finset AccountId) (b : Target) :
    Heard cr validators b (fun _ => ∅) (.new 0 0 validators) := by
  refine ⟨VoteCollector.runInv_new cr 0 0 validators, nofun, ?_⟩
  intro ty a m
  constructor
  · intro h
    cases ty <;> cases h
  · rintro ⟨h, -⟩
    exact absurd h (Finset.notMem_empty a)

/-- A vote for the block is recorded, unless it came before its phase. -/
theorem addVote (h : Heard cr validators b voters c) (ord : HashOrder) (v : FinalityVote)
    (haccepted : VoteCollector.Accepted cr 0 0 validators v.voteType v) (htarget : v.target = b)
    (hphase : v.voteType = .precommit → c.state ≠ .prevoting) :
    Heard cr validators b (Function.update voters v.voteType (insert v.voter (voters v.voteType)))
      (c.addVote cr ord v).1 := by
  refine ⟨h.run.addVote ord v, VoteCollector.prevoteBacked_addVote cr ord c v h.backed, ?_⟩
  intro ty a m
  rw [VoteCollector.voted_addVote_iff, h.voted]
  by_cases hty : ty = v.voteType
  · rw [hty, Function.update_self, Finset.mem_insert]
    constructor
    · rintro (⟨ha, hm⟩ | ⟨-, -, ha, hm⟩)
      · exact ⟨Or.inr ha, hm⟩
      · exact ⟨Or.inl ha.symm, hm.symm.trans htarget⟩
    · rintro ⟨ha | ha, hm⟩
      · by_cases hold : a ∈ voters v.voteType
        · exact Or.inl ⟨hold, hm⟩
        · have hfirst : (c.tally v.voteType).voted.find? v.voter = none := by
            rw [Option.eq_none_iff_forall_ne_some]
            intro m' hm'
            rw [h.voted, ← ha] at hm'
            exact hold hm'.1
          have haccepted' : VoteCollector.Accepted cr c.epoch c.round c.validators v.voteType v := by
            rw [h.run.epoch_eq, h.run.round_eq, h.run.validators_eq]
            exact haccepted
          exact Or.inr ⟨⟨haccepted', hphase, hfirst⟩, rfl, ha.symm, htarget.trans hm.symm⟩
      · exact Or.inl ⟨ha, hm⟩
  · rw [Function.update_of_ne hty]
    refine ⟨fun hor => hor.elim id fun ⟨_, hty', _⟩ => absurd hty'.symm hty, Or.inl⟩

/-- The votes for a target are those of the voters heard. -/
theorem count_eq (h : Heard cr validators b voters c) (ty : VoteType) (m : Target) :
    (c.tally ty).count m = if m = b then (voters ty).card else 0 := by
  have hwell := h.run.wellFormed
  have hinv : (c.tally ty).Inv (VoteCollector.Accepted cr c.epoch c.round c.validators ty) := by
    cases ty with
    | prevote => exact h.run.inv.prevotes
    | precommit => exact h.run.inv.precommits
  have hmem : ∀ a, a ∈ (c.tally ty).voters m ↔ a ∈ voters ty ∧ m = b := by
    intro a
    rw [Tally.mem_voters, hwell.located, h.voted]
  rw [← Tally.card_voters hinv m]
  split
  · next hm =>
    congr 1
    ext a
    rw [hmem]
    exact and_iff_left hm
  · next hm =>
    rw [Finset.card_eq_zero]
    ext a
    rw [hmem]
    simp [hm]

/-- The precommit phase is entered with the block in the lead. -/
theorem best (h : Heard cr validators b voters c) (hs : c.state = .precommitting) :
    c.prevotes.best = some b := by
  obtain ⟨m, hm⟩ := h.backed hs
  have hle := h.run.inv.prevotes.best m
  have hmax := VoteCollector.hasSupermajority_mono _ _ _ hle hm
  cases hbest : c.prevotes.best with
  | none =>
    rw [hbest, Option.elim_none, VoteCollector.hasSupermajority_zero] at hmax
    cases hmax
  | some m' =>
    rw [hbest, Option.elim_some] at hmax
    by_cases hm' : m' = b
    · rw [hm']
    · have hcount := h.count_eq .prevote m'
      rw [if_neg hm'] at hcount
      rw [show c.prevotes.count m' = 0 from hcount, VoteCollector.hasSupermajority_zero] at hmax
      cases hmax

/-- A completed round has finalized the block. -/
theorem finalized (h : Heard cr validators b voters c) (hs : c.state = .completed) : c.finalizedTarget = some b := by
  obtain ⟨m, hm, hsup⟩ := VoteCollector.supported_of_completed cr c h.run.inv hs
  have hcount := h.count_eq .precommit m
  split at hcount
  · next hmb => rw [hm, hmb]
  · next hmb =>
    have hzero := hsup.supermajority
    rw [show (c.precommits.votesFor m).length = 0 from hcount, VoteCollector.hasSupermajority_zero] at hzero
    cases hzero

end Heard

namespace VoteCollector

/-- No target has a supermajority in the prevote phase. -/
def PrevoteOpen (c : VoteCollector) : Prop :=
  c.state = .prevoting → ∀ b, hasSupermajority (c.prevotes.count b) c.validatorCount = false

theorem prevoteOpen_new (epoch round : Nat) (validators : Finset AccountId) :
    (new epoch round validators).PrevoteOpen := fun _ _ => hasSupermajority_zero _

theorem prevoteOpen_addVote {cr : Crypto} {c : VoteCollector} (ord : HashOrder) (vote : FinalityVote) (hinv : c.Inv cr)
    (h : c.PrevoteOpen) : (c.addVote cr ord vote).1.PrevoteOpen := by
  have hprevotes := (addVote_inv cr ord c vote hinv).prevotes.best
  intro hs b
  rcases addVote_cases cr ord c vote with ⟨es, r, hadd, -⟩ | ⟨t, hadd, -, -⟩ | ⟨t, hadd, -, hstate, -⟩
  · rw [hadd] at hs ⊢
    exact h hs b
  · rw [hadd] at hs hprevotes ⊢
    by_contra hsup
    rw [Bool.not_eq_false] at hsup
    obtain ⟨s, heq⟩ := checkPrevoteThreshold_with { c with prevotes := t }
    have hcounts : (checkPrevoteThreshold { c with prevotes := t }).prevotes = t := by rw [heq]
    have hcount : (checkPrevoteThreshold { c with prevotes := t }).validatorCount = c.validatorCount := by rw [heq]; rfl
    rw [hcounts, hcount] at hsup
    rw [hcounts] at hprevotes
    have hold : c.state = .prevoting := by
      rcases checkPrevoteThreshold_eq { c with prevotes := t } with heq' | ⟨-, heq'⟩
      · rw [heq'] at hs
        exact hs
      · rw [heq'] at hs
        cases hs
    have hmoved := checkPrevoteThreshold_state { c with prevotes := t } b hprevotes (Or.inl hold) hsup
    rw [hmoved] at hs
    cases hs
  · have hnot : (c.addVote cr ord vote).1.state ≠ .prevoting := by
      rw [hadd]
      rcases checkPrecommitThreshold_eq { c with precommits := t } with ⟨heq, -⟩ | ⟨-, heq, -⟩
      · rw [heq]
        exact hstate
      · rw [heq]
        nofun
    exact absurd hs hnot

end VoteCollector

/-- A vote leaves the state or moves it to the next phase. -/
theorem VoteCollector.state_addVote (cr : Crypto) (ord : HashOrder) (c : VoteCollector) (v : FinalityVote) :
    (c.addVote cr ord v).1.state = c.state ∨
      ((c.addVote cr ord v).2 = .ok true ∧
        ((c.state = .prevoting ∧ (c.addVote cr ord v).1.state = .precommitting) ∨
          (c.state = .precommitting ∧ (c.addVote cr ord v).1.state = .completed))) := by
  rcases addVote_cases cr ord c v with ⟨es, r, hadd, -⟩ | ⟨t, hadd, -, -⟩ | ⟨t, hadd, -, -, -⟩
  · rw [hadd]
    exact Or.inl rfl
  · rw [hadd]
    rcases checkPrevoteThreshold_eq { c with prevotes := t } with heq | ⟨hs, heq⟩
    · exact Or.inl (by rw [heq])
    · exact Or.inr ⟨rfl, Or.inl ⟨hs, by rw [heq]⟩⟩
  · rw [hadd]
    rcases checkPrecommitThreshold_eq { c with precommits := t } with ⟨heq, -⟩ | ⟨hs, heq, -⟩
    · exact Or.inl (by rw [heq])
    · exact Or.inr ⟨rfl, Or.inr ⟨hs, by rw [heq]⟩⟩

theorem FinalityRound.createPrecommit_of_due (signer : FinalitySigner) (r : FinalityRound) (a : AccountId) (b : Target)
    (ha : r.ourValidator = some a) (hv : r.havePrecommitted = false) (hs : r.state = .precommitting)
    (hb : r.collector.prevotes.best = some b) :
    r.createPrecommit signer = (r.markVoted .precommit, some (r.ownVote signer .precommit b a)) := by
  unfold createPrecommit
  split
  · next hnone =>
    rw [ha] at hnone
    cases hnone
  · next a' ha' =>
    rw [ha] at ha'
    cases ha'
    rw [if_neg (by rw [hv]; decide), if_neg (not_not.mpr hs)]
    split
    · next hnone =>
      rw [hb] at hnone
      cases hnone
    · next b' hb' =>
      rw [hb] at hb'
      cases hb'
      rfl

namespace FinalityGadget

/-! ## What a vote does to the gadget -/

theorem precommit_of_due (g : FinalityGadget) (r : FinalityRound) (a : AccountId) (b : Target)
    (hr : g.rounds.activeRound = some r) (ha : r.ourValidator = some a) (hv : r.havePrecommitted = false)
    (hs : r.state = .precommitting) (hb : r.collector.prevotes.best = some b) :
    g.createAndBroadcastPrecommit = g.cast r .precommit b a := by
  unfold createAndBroadcastPrecommit
  rw [hr]
  simp only [r.createPrecommit_of_due g.signer a b ha hv hs hb]
  rfl

section onVote

variable (cr : Crypto) (ord : HashOrder) (now : Nat) (g : FinalityGadget) (v : FinalityVote) (r : FinalityRound)

theorem onVote_stays (hr : g.rounds.activeRound = some r) (hround : ¬ (v.epoch ≠ r.epoch ∨ v.round ≠ r.round))
    (hs : (r.addVote cr ord v).1.state = r.state) :
    (g.onVote cr ord now v).1 = g.setActive (r.addVote cr ord v).1 := by
  unfold onVote
  rw [hr]
  simp only
  rw [if_neg hround]
  cases (r.addVote cr ord v).2 with
  | error e => rfl
  | ok accepted =>
    cases accepted with
    | false => rfl
    | true =>
      simp only
      rw [if_neg (not_not.mpr hs)]

/-- The vote that ends the prevotes makes a validator precommit. -/
theorem onVote_opens (hr : g.rounds.activeRound = some r) (hround : ¬ (v.epoch ≠ r.epoch ∨ v.round ≠ r.round))
    (hold : r.state = .prevoting) (hs : (r.addVote cr ord v).1.state = .precommitting)
    (hvalidator : g.isValidator = true) :
    (g.onVote cr ord now v).1 = (g.setActive (r.addVote cr ord v).1).createAndBroadcastPrecommit := by
  have hne : (r.addVote cr ord v).1.state ≠ r.state := by
    rw [hs, hold]
    decide
  have hadd : (r.addVote cr ord v).2 = .ok true := by
    rcases VoteCollector.state_addVote cr ord r.collector v with hsame | ⟨hadd, -⟩
    · exact absurd hsame hne
    · exact hadd
  unfold onVote
  rw [hr]
  simp only
  rw [if_neg hround, hadd]
  simp only
  rw [if_pos hne, hs]
  simp only [setActive, hvalidator, if_true]

theorem onVote_finalizes (hr : g.rounds.activeRound = some r) (hround : ¬ (v.epoch ≠ r.epoch ∨ v.round ≠ r.round))
    (hold : r.state = .precommitting) (hs : (r.addVote cr ord v).1.state = .completed) (b : Target)
    (hb : (r.addVote cr ord v).1.finalizedTarget = some b) :
    (g.onVote cr ord now v).1 =
      ((g.setActive (r.addVote cr ord v).1).announce (r.addVote cr ord v).1 b).completeCurrentRound now (some b) := by
  have hne : (r.addVote cr ord v).1.state ≠ r.state := by
    rw [hs, hold]
    decide
  have hadd : (r.addVote cr ord v).2 = .ok true := by
    rcases VoteCollector.state_addVote cr ord r.collector v with hsame | ⟨hadd, -⟩
    · exact absurd hsame hne
    · exact hadd
  exact onVote_of_completes ord now g v r hr hround hadd hne hs b hb

end onVote

end FinalityGadget

/-! ## A validator's first round -/

/-- The signed vote of an account in the first round. -/
def firstVote (sign : AccountId → List UInt8 → Signature64) (ty : VoteType) (b : Target) (a : AccountId) : FinalityVote :=
  { voteOf ty 0 0 b a with signature := sign a (voteOf ty 0 0 b a).signingMessage }

/-- The validator is in its first round, for the one block it knows, and has heard the voters. -/
structure InRound (cr : Crypto) (sign : AccountId → List UInt8 → Signature64) (validators : Finset AccountId)
    (a : AccountId) (b : Target) (voters : VoteType → Finset AccountId) (g : FinalityGadget) (r : FinalityRound) :
    Prop where
  active : g.rounds.activeRound = some r
  signer : g.signer = ⟨sign a, a⟩
  isValidator : g.isValidator = true
  pending : g.pendingBlocks = [b]
  ours : r.ourValidator = some a
  heard : Heard cr validators b voters r.collector
  prevoteOpen : r.collector.PrevoteOpen
  phase : (r.state = .prevoting ∧ r.havePrecommitted = false) ∨
    (r.state = .precommitting ∧ firstVote sign .precommit b a ∈ g.sentVotes)

/-- The validator is done with its first round: the block is final and announced. -/
structure Done (b : Target) (g : FinalityGadget) : Prop where
  active : g.rounds.activeRound = none
  lastFinalized : g.lastFinalized = b
  announced : b ∈ g.announcedBlocks

namespace InRound

open FinalityGadget

variable {cr : Crypto} {sign : AccountId → List UInt8 → Signature64} {validators : Finset AccountId} {a : AccountId}
  {b : Target} {voters : VoteType → Finset AccountId} {g : FinalityGadget} {r : FinalityRound}

theorem accepted (hsign : ∀ x m, cr.ed25519Verify x m (sign x m) = true) (ty : VoteType) (x : AccountId)
    (hx : x ∈ validators) : VoteCollector.Accepted cr 0 0 validators ty (firstVote sign ty b x) :=
  ⟨hsign x _, rfl, rfl, rfl, hx⟩

theorem round_eq (h : InRound cr sign validators a b voters g r) (ty : VoteType) (x : AccountId) :
    ¬ ((firstVote sign ty b x).epoch ≠ r.epoch ∨ (firstVote sign ty b x).round ≠ r.round) := by
  rintro (hne | hne)
  · exact hne h.heard.run.epoch_eq.symm
  · exact hne h.heard.run.round_eq.symm

/-- A prevote is heard; when the prevotes suffice, the validator precommits for the block. -/
theorem prevote (h : InRound cr sign validators a b voters g r)
    (hsign : ∀ x m, cr.ed25519Verify x m (sign x m) = true) (ord : HashOrder) (now : Nat) (x : AccountId)
    (hx : x ∈ validators) :
    ∃ r', InRound cr sign validators a b (Function.update voters .prevote (insert x (voters .prevote)))
      (g.onVote cr ord now (firstVote sign .prevote b x)).1 r' := by
  have hheard := h.heard.addVote ord (firstVote sign .prevote b x) (accepted hsign .prevote x hx) rfl nofun
  have hopen := VoteCollector.prevoteOpen_addVote ord (firstVote sign .prevote b x) h.heard.run.inv h.prevoteOpen
  have hround := h.round_eq .prevote x
  generalize hv : firstVote sign .prevote b x = v at hheard hopen hround ⊢
  have hstays : (r.addVote cr ord v).1.state = r.state →
      InRound cr sign validators a b (Function.update voters .prevote (insert x (voters .prevote)))
        (g.onVote cr ord now v).1 (r.addVote cr ord v).1 := by
    intro hs
    rw [onVote_stays cr ord now g v r h.active hround hs]
    subst hv
    refine ⟨rfl, h.signer, h.isValidator, h.pending, h.ours, hheard, hopen, ?_⟩
    rw [hs]
    exact h.phase
  rcases VoteCollector.state_addVote cr ord r.collector v with hs | ⟨-, ⟨hold, hs⟩ | ⟨hold, hs⟩⟩
  · exact ⟨_, hstays hs⟩
  · have hnot : r.havePrecommitted = false := by
      rcases h.phase with ⟨-, hnot⟩ | ⟨hstate, -⟩
      · exact hnot
      · rw [show r.state = .prevoting from hold] at hstate
        cases hstate
    have hbest : (r.addVote cr ord v).1.collector.prevotes.best = some b := by
      subst hv
      exact hheard.best hs
    have hcast := precommit_of_due (g.setActive (r.addVote cr ord v).1) (r.addVote cr ord v).1 a b rfl h.ours hnot hs hbest
    rw [onVote_opens cr ord now g v r h.active hround hold hs h.isValidator, hcast]
    refine ⟨(r.addVote cr ord v).1.markVoted .precommit, rfl, h.signer, h.isValidator, h.pending, h.ours, ?_, hopen,
      Or.inr ⟨hs, ?_⟩⟩
    · subst hv
      exact hheard
    · have hsent : ((g.setActive (r.addVote cr ord v).1).cast (r.addVote cr ord v).1 .precommit b a).sentVotes =
          g.sentVotes ++ [(r.addVote cr ord v).1.ownVote g.signer .precommit b a] :=
        sentVotes_append _ (.vote _) g.broadcasted rfl
      have hvote : (r.addVote cr ord v).1.ownVote g.signer .precommit b a = firstVote sign .precommit b a := by
        unfold FinalityRound.ownVote firstVote
        subst hv
        rw [h.signer, show (r.addVote cr ord _).1.epoch = 0 from hheard.run.epoch_eq,
          show (r.addVote cr ord _).1.round = 0 from hheard.run.round_eq]
        rfl
      rw [hsent, hvote]
      exact List.mem_append_right _ (List.mem_singleton_self _)
  · -- a prevote does not complete a round
    have hcompletes := VoteCollector.addVote_completes cr ord r.collector v h.heard.run.inv
      (by rw [hold]; decide) hs
    rw [← hv] at hcompletes
    cases hcompletes.1.voteType

/-- A precommit is heard, and finalizes the block when the precommits suffice. -/
theorem precommit (h : InRound cr sign validators a b voters g r) (hs : r.state = .precommitting)
    (hsign : ∀ x m, cr.ed25519Verify x m (sign x m) = true) (ord : HashOrder) (now : Nat) (x : AccountId)
    (hx : x ∈ validators) :
    (∃ r', InRound cr sign validators a b (Function.update voters .precommit (insert x (voters .precommit)))
      (g.onVote cr ord now (firstVote sign .precommit b x)).1 r' ∧ r'.state = .precommitting) ∨
    Done b (g.onVote cr ord now (firstVote sign .precommit b x)).1 := by
  have hheard := h.heard.addVote ord (firstVote sign .precommit b x) (accepted hsign .precommit x hx) rfl
    (fun _ => by rw [show r.collector.state = .precommitting from hs]; decide)
  have hopen := VoteCollector.prevoteOpen_addVote ord (firstVote sign .precommit b x) h.heard.run.inv h.prevoteOpen
  have hround := h.round_eq .precommit x
  rcases VoteCollector.state_addVote cr ord r.collector (firstVote sign .precommit b x) with
    hsame | ⟨-, ⟨hold, -⟩ | ⟨hold, hdone⟩⟩
  · left
    rw [onVote_stays cr ord now g _ r h.active hround hsame]
    refine ⟨_, ⟨rfl, h.signer, h.isValidator, h.pending, h.ours, hheard, hopen, ?_⟩, hsame.trans hs⟩
    rw [show (r.addVote cr ord (firstVote sign .precommit b x)).1.state = r.state from hsame]
    exact h.phase
  · rw [show r.collector.state = .precommitting from hs] at hold
    cases hold
  · right
    have hfinal := hheard.finalized hdone
    rw [onVote_finalizes cr ord now g _ r h.active hround hs hdone b hfinal]
    -- nothing is pending above the block, so the round is dropped and no other starts
    generalize hg : (g.setActive (r.addVote cr ord (firstVote sign .precommit b x)).1).announce
      (r.addVote cr ord (firstVote sign .precommit b x)).1 b = g'
    have hactive : g'.rounds.activeRound = some (r.addVote cr ord (firstVote sign .precommit b x)).1 := by
      rw [← hg]
      rfl
    have hpending : pendingAbove g'.pendingBlocks b = [] := by
      have hsame : g'.pendingBlocks = [b] := by
        rw [← hg]
        exact h.pending
      rw [hsame]
      unfold pendingAbove
      rw [List.filter_singleton]
      simp
    have hannounced : b ∈ g'.announcedBlocks := by
      rw [← hg, mem_announcedBlocks]
      exact ⟨_, _, List.mem_append_right _ (List.mem_singleton_self _)⟩
    rcases completeCurrentRound_cases now g' b with ⟨-, heq⟩ | ⟨hne, -⟩
    · rw [heq]
      refine ⟨activeRound_dropped g' b, ?_, hannounced⟩
      have hlast := lastFinalized_completeCurrentRound now g' b
      rw [heq, hactive] at hlast
      exact hlast
    · exact absurd hpending hne

end InRound

/-- Votes find no round to count in. -/
theorem Done.onVote {b : Target} {g : FinalityGadget} (h : Done b g) (cr : Crypto) (ord : HashOrder) (now : Nat)
    (v : FinalityVote) : Done b (g.onVote cr ord now v).1 := by
  rw [FinalityGadget.onVote_elsewhere cr ord now g v fun r hr => by rw [h.active] at hr; cases hr]
  exact h

/-- A validator that imports its first block prevotes for it in its first round. -/
theorem inRound_of_imported (cr : Crypto) (sign : AccountId → List UInt8 → Signature64) (validators : Finset AccountId)
    (genesisHash : Hash) (a : AccountId) (ha : a ∈ validators) (now : Nat) (b : Target) :
    let g := (FinalityGadget.new ⟨sign a, a⟩ validators genesisHash).onBlockImported now b
    ∃ r, InRound cr sign validators a b (fun _ => ∅) g r ∧ firstVote sign .prevote b a ∈ g.sentVotes := by
  intro g
  let r := FinalityRound.new now 0 0 validators (some a)
  have hg : g = ((FinalityGadget.new ⟨sign a, a⟩ validators genesisHash).onBlockImported now b) := rfl
  have hround : g.rounds.activeRound = some (r.markVoted .prevote) ∧ g.signer = ⟨sign a, a⟩ ∧ g.isValidator = true ∧
      g.pendingBlocks = [b] ∧ g.broadcasted = [.vote (r.ownVote ⟨sign a, a⟩ .prevote b a)] := by
    simp [hg, r, FinalityGadget.onBlockImported, FinalityGadget.new, RoundManager.new,
      FinalityGadget.startFinalityRound, FinalityGadget.highest, ha, RoundManager.startRound,
      FinalityGadget.createAndBroadcastPrevote, FinalityRound.createPrevote, FinalityRound.new, FinalityRound.state,
      VoteCollector.new, FinalityGadget.sendVote, FinalityGadget.setActive, FinalityRound.markVoted]
  obtain ⟨hactive, hsigner, hvalidator, hpending, hsent⟩ := hround
  refine ⟨r.markVoted .prevote, ⟨hactive, hsigner, hvalidator, hpending, rfl, Heard.new cr validators b,
    VoteCollector.prevoteOpen_new 0 0 validators, Or.inl ⟨rfl, rfl⟩⟩, ?_⟩
  unfold FinalityGadget.sentVotes
  rw [hsent]
  exact List.mem_singleton_self _

/-! ## A validator node -/

namespace FinalityNode

variable {cr : Crypto} {sign : AccountId → List UInt8 → Signature64} {validators taking : Finset AccountId}
  {a : AccountId} {b : Target} {voters : VoteType → Finset AccountId} {n : FinalityNode}

/-- Finality is active, and the gadget is in its first round. -/
structure Voting (cr : Crypto) (sign : AccountId → List UInt8 → Signature64) (validators : Finset AccountId)
    (a : AccountId) (b : Target) (voters : VoteType → Finset AccountId) (n : FinalityNode) : Prop where
  isActive : n.integration.isActive = true
  chain : n.chain = [b]
  round : ∃ r, InRound cr sign validators a b voters n.gadget r

theorem isActive_onFinalityVote (cr : Crypto) (ord : HashOrder) (now : Nat) (i : FinalityIntegration)
    (v : FinalityVote) : (i.onFinalityVote cr ord now v).1.isActive = i.isActive := by
  unfold FinalityIntegration.onFinalityVote
  split
  · rfl
  · simp only
    split
    · split <;> rfl
    · rfl

/-- An active node gives a vote to its gadget. -/
theorem gadget_vote (cr : Crypto) (n : FinalityNode) (hactive : n.integration.isActive = true) (ord : HashOrder)
    (now : Nat) (v : FinalityVote) :
    (n.step cr (.vote ord now v)).gadget = (n.gadget.onVote cr ord now v).1 := by
  show (n.integration.onFinalityVote cr ord now v).1.gadget = _
  unfold FinalityIntegration.onFinalityVote
  rw [if_neg (by rw [hactive]; decide)]
  simp only
  split
  · split <;> rfl
  · rfl

theorem voting_imported (cr : Crypto) (sign : AccountId → List UInt8 → Signature64) (hthree : 3 ≤ validators.card)
    (ha : a ∈ validators) (hb : b.number = 1) (genesisHash : Hash) (l : List Event) (hne : l ≠ []) (hl : ∀ e ∈ l, ∃ now, e = .imported now b) :
    Voting cr sign validators a b (fun _ => ∅) (l.foldl (step cr) (new ⟨sign a, a⟩ validators genesisHash)) ∧
      firstVote sign .prevote b a ∈
        (l.foldl (step cr) (new ⟨sign a, a⟩ validators genesisHash)).gadget.sentVotes := by
  have hmore : ∀ (l : List Event) (n : FinalityNode), n.chain = [b] → (∀ e ∈ l, ∃ now, e = .imported now b) →
      l.foldl (step cr) n = n := by
    intro l
    induction l with
    | nil => exact fun n _ _ => rfl
    | cons e l ih =>
      intro n hchain hl
      obtain ⟨now, rfl⟩ := hl e List.mem_cons_self
      have hstay : n.step cr (.imported now b) = n := by
        show (if b.number ≠ n.chain.length + 1 then n else _) = n
        rw [if_pos (by rw [hchain, hb, List.length_singleton]; omega)]
      rw [List.foldl_cons, hstay]
      exact ih n hchain fun e he => hl e (List.mem_cons_of_mem _ he)
  cases l with
  | nil => exact absurd rfl hne
  | cons e l =>
    obtain ⟨now, rfl⟩ := hl e List.mem_cons_self
    have hactive : (FinalityIntegration.new ⟨sign a, a⟩ validators genesisHash).isActive = true := decide_eq_true hthree
    have hfirst : (new ⟨sign a, a⟩ validators genesisHash).step cr (.imported now b) =
        { chain := [b], integration :=
          { (FinalityIntegration.new ⟨sign a, a⟩ validators genesisHash) with
            gadget := (FinalityGadget.new ⟨sign a, a⟩ validators genesisHash).onBlockImported now b } } := by
      show (if b.number ≠ 0 + 1 then _ else _) = _
      rw [if_neg (by rw [hb]; decide)]
      show FinalityNode.mk [b] (FinalityIntegration.onBlockImported now (.new ⟨sign a, a⟩ validators genesisHash) b) = _
      unfold FinalityIntegration.onBlockImported
      rw [if_neg (by rw [hactive]; decide)]
      rfl
    rw [List.foldl_cons, hfirst, hmore l _ rfl fun e he => hl e (List.mem_cons_of_mem _ he)]
    obtain ⟨r, hround, hsent⟩ := inRound_of_imported cr sign validators genesisHash a ha now b
    exact ⟨⟨hactive, rfl, r, hround⟩, hsent⟩

/-- The prevotes given to a node are heard. -/
theorem voting_prevotes (hsign : ∀ x m, cr.ed25519Verify x m (sign x m) = true) (hsub : taking ⊆ validators)
    (l : List Event) (hl : ∀ e ∈ l, ∃ ord now x, x ∈ taking ∧ e = .vote ord now (firstVote sign .prevote b x))
    (h : n.Voting cr sign validators a b voters) :
    ∃ voters', (l.foldl (step cr) n).Voting cr sign validators a b voters' ∧ voters .prevote ⊆ voters' .prevote ∧
      ∀ x, (∃ ord now, Event.vote ord now (firstVote sign .prevote b x) ∈ l) → x ∈ voters' .prevote := by
  induction l generalizing n voters with
  | nil => exact ⟨voters, h, Finset.Subset.refl _, fun x ⟨_, _, hx⟩ => nomatch hx⟩
  | cons e l ih =>
    obtain ⟨ord, now, x, hx, rfl⟩ := hl e List.mem_cons_self
    obtain ⟨r, hround⟩ := h.round
    obtain ⟨r', hround'⟩ := hround.prevote hsign ord now x (hsub hx)
    have hstep : (n.step cr (.vote ord now (firstVote sign .prevote b x))).Voting cr sign validators a b
        (Function.update voters .prevote (insert x (voters .prevote))) := by
      refine ⟨(isActive_onFinalityVote cr ord now n.integration _).trans h.isActive, h.chain, r', ?_⟩
      rw [gadget_vote cr n h.isActive]
      exact hround'
    obtain ⟨voters', hvoting, hgrows, hheard⟩ := ih (fun e he => hl e (List.mem_cons_of_mem _ he)) hstep
    rw [Function.update_self] at hgrows
    refine ⟨voters', hvoting, (Finset.subset_insert x _).trans hgrows, ?_⟩
    rintro y ⟨ord', now', hy⟩
    rcases List.mem_cons.mp hy with heq | hmem
    · have hvoter : y = x := congrArg FinalityVote.voter (Event.vote.inj heq).2.2
      rw [hvoter]
      exact hgrows (Finset.mem_insert_self x _)
    · exact hheard y ⟨ord', now', hmem⟩

/-- The precommits given to a node are heard, until the block is final. -/
theorem voting_precommits (hsign : ∀ x m, cr.ed25519Verify x m (sign x m) = true) (hsub : taking ⊆ validators)
    (l : List Event) (hl : ∀ e ∈ l, ∃ ord now x, x ∈ taking ∧ e = .vote ord now (firstVote sign .precommit b x))
    (h : n.integration.isActive = true)
    (hround : (∃ r, InRound cr sign validators a b voters n.gadget r ∧ r.state = .precommitting) ∨ Done b n.gadget) :
    (∃ voters' r, InRound cr sign validators a b voters' (l.foldl (step cr) n).gadget r ∧ r.state = .precommitting ∧
      voters .precommit ⊆ voters' .precommit ∧
      ∀ x, (∃ ord now, Event.vote ord now (firstVote sign .precommit b x) ∈ l) → x ∈ voters' .precommit) ∨
    Done b (l.foldl (step cr) n).gadget := by
  induction l generalizing n voters with
  | nil =>
    refine hround.imp_left fun ⟨r, hr, hs⟩ => ⟨voters, r, hr, hs, Finset.Subset.refl _, fun x ⟨_, _, hx⟩ => nomatch hx⟩
  | cons e l ih =>
    obtain ⟨ord, now, x, hx, rfl⟩ := hl e List.mem_cons_self
    have hactive := (isActive_onFinalityVote cr ord now n.integration (firstVote sign .precommit b x)).trans h
    have hgadget := gadget_vote cr n h ord now (firstVote sign .precommit b x)
    have hnext : (∃ r, InRound cr sign validators a b (Function.update voters .precommit (insert x (voters .precommit)))
        (n.step cr (.vote ord now (firstVote sign .precommit b x))).gadget r ∧ r.state = .precommitting) ∨
        Done b (n.step cr (.vote ord now (firstVote sign .precommit b x))).gadget := by
      rw [hgadget]
      rcases hround with ⟨r, hr, hs⟩ | hdone
      · exact hr.precommit hs hsign ord now x (hsub hx)
      · exact Or.inr (hdone.onVote cr ord now _)
    refine (ih (fun e he => hl e (List.mem_cons_of_mem _ he)) hactive hnext).imp_left ?_
    rintro ⟨voters', r, hr, hs, hgrows, hheard⟩
    rw [Function.update_self] at hgrows
    refine ⟨voters', r, hr, hs, (Finset.subset_insert x _).trans hgrows, ?_⟩
    rintro y ⟨ord', now', hy⟩
    rcases List.mem_cons.mp hy with heq | hmem
    · have hvoter : y = x := congrArg FinalityVote.voter (Event.vote.inj heq).2.2
      rw [hvoter]
      exact hgrows (Finset.mem_insert_self x _)
    · exact hheard y ⟨ord', now', hmem⟩

end FinalityNode

/-! ## The network -/

/-- All who take part but one are a supermajority of the validators. -/
theorem supermajority_of_others (validators taking heard : Finset AccountId) (a : AccountId) (hthree : 3 ≤ validators.card)
    (henough : quorum validators.card < taking.card) (hheard : ∀ x ∈ taking, x ≠ a → x ∈ heard) :
    hasSupermajority heard.card validators.card = true := by
  rw [hasSupermajority_iff]
  refine ⟨by omega, ?_⟩
  have hsub : taking.erase a ⊆ heard := fun x hx =>
    hheard x (Finset.mem_of_mem_erase hx) (Finset.ne_of_mem_erase hx)
  have hcard := Finset.card_le_card hsub
  have herase := Finset.pred_card_le_card_erase (s := taking) (a := a)
  omega

namespace FinalityNetwork

open FinalityNode (Event)

/-- Every account that takes part imports the block, and nothing else happens. -/
def Imports (taking : Finset AccountId) (b : Target) (l : List (AccountId × Event)) : Prop :=
  (∀ e ∈ l, ∃ now, e.2 = .imported now b) ∧ ∀ a ∈ taking, ∃ now, (a, Event.imported now b) ∈ l

/-- Every account that takes part gets the votes of the others, in any order and any number of times, and
nothing else happens. -/
def Delivers (sign : AccountId → List UInt8 → Signature64) (taking : Finset AccountId) (b : Target) (ty : VoteType)
    (l : List (AccountId × Event)) : Prop :=
  (∀ e ∈ l, ∃ ord now x, x ∈ taking ∧ e.2 = .vote ord now (firstVote sign ty b x)) ∧
    ∀ a ∈ taking, ∀ x ∈ taking, x ≠ a → ∃ ord now, (a, Event.vote ord now (firstVote sign ty b x)) ∈ l

theorem mem_eventsOf (a : AccountId) (l : List (AccountId × Event)) (e : Event) :
    e ∈ Parties.eventsOf a l ↔ (a, e) ∈ l := by
  unfold Parties.eventsOf
  rw [List.mem_map]
  constructor
  · rintro ⟨⟨x, e'⟩, he, rfl⟩
    obtain ⟨hmem, ha⟩ := List.mem_filter.mp he
    have hxa : x = a := by simpa using ha
    rwa [← hxa]
  · intro he
    exact ⟨(a, e), List.mem_filter.mpr ⟨he, by simp⟩, rfl⟩

theorem eventsOf_append (a : AccountId) (l l' : List (AccountId × Event)) :
    Parties.eventsOf a (l ++ l') = Parties.eventsOf a l ++ Parties.eventsOf a l' := by
  unfold Parties.eventsOf
  rw [List.filter_append, List.map_append]

/-- Each of some accounts gets the votes of all of them. -/
def exchange (sign : AccountId → List UInt8 → Signature64) (l : List AccountId) (b : Target) (ty : VoteType) :
    List (AccountId × Event) :=
  l.flatMap fun a => l.map fun x => (a, .vote .sorted 0 (firstVote sign ty b x))

theorem delivers_exchange (sign : AccountId → List UInt8 → Signature64) (l : List AccountId) (b : Target)
    (ty : VoteType) : Delivers sign l.toFinset b ty (exchange sign l b ty) := by
  refine ⟨?_, ?_⟩
  · intro e he
    obtain ⟨a, -, ha⟩ := List.mem_flatMap.mp he
    obtain ⟨x, hx, rfl⟩ := List.mem_map.mp ha
    exact ⟨.sorted, 0, x, List.mem_toFinset.mpr hx, rfl⟩
  · intro a ha x hx _
    exact ⟨.sorted, 0, List.mem_flatMap.mpr ⟨a, List.mem_toFinset.mp ha, List.mem_map.mpr ⟨x, List.mem_toFinset.mp hx, rfl⟩⟩⟩

theorem imports_map (l : List AccountId) (b : Target) :
    Imports l.toFinset b (l.map fun a => (a, .imported 0 b)) := by
  refine ⟨?_, ?_⟩
  · intro e he
    obtain ⟨a, -, rfl⟩ := List.mem_map.mp he
    exact ⟨0, rfl⟩
  · intro a ha
    exact ⟨0, List.mem_map.mpr ⟨a, List.mem_toFinset.mp ha, rfl⟩⟩

end FinalityNetwork

end Kratos
