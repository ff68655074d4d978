import Kratos.Finality.Safety

/-!
# The transitions of a gadget

Every call to a gadget is a chain of small transitions (`step_transitions`): a block is
queued, a round is started, a vote of ours is cast, a vote of the network is given to the
active round, a result is announced, a round is dropped, a request is answered.  Each of
them names the part of the call it comes from, so a property of gadgets is kept by a call if
the transitions of the call keep it (`step_keeps`).
-/

namespace Kratos

/-- The votes a message carries. -/
def FinalityMessage.votes : FinalityMessage → List FinalityVote
  | .vote v => [v]
  | .catchUpResponse votes _ => votes
  | _ => []

/-- The block a message announces as final. -/
def FinalityMessage.announced? : FinalityMessage → Option Target
  | .finalized block _ _ => some block
  | _ => none

namespace FinalityGadget

namespace Call

def votes : Call → List FinalityVote
  | .onMessage _ _ m => m.votes
  | _ => []

def announced? : Call → Option Target
  | .onMessage _ _ m => m.announced?
  | _ => none

def imported? : Call → Option Target
  | .onBlockImported _ b => some b
  | _ => none

def validators? : Call → Option (Finset AccountId)
  | .updateValidators validators => some validators
  | _ => none

def epoch? : Call → Option Nat
  | .newEpoch epoch => some epoch
  | _ => none

end Call

/-- Cast a vote in the round. -/
def cast (g : FinalityGadget) (r : FinalityRound) (ty : VoteType) (b : Target) (a : AccountId) : FinalityGadget :=
  (g.setActive (r.markVoted ty)).sendVote (r.ownVote g.signer ty b a)

/-- Announce a round's result and keep its justification. -/
def announce (g : FinalityGadget) (r : FinalityRound) (b : Target) : FinalityGadget :=
  { g with justifications := g.justifications ++ r.createJustification.toList
           broadcasted := g.broadcasted ++ [.finalized b r.epoch r.round] }

/-- Forget the blocks a finalized one leaves behind. -/
def forget (g : FinalityGadget) (block : Target) : FinalityGadget :=
  { g with pendingBlocks := pendingAbove g.pendingBlocks block }

/-- What a prevote or a precommit of ours is for. -/
inductive VotesFor (g : FinalityGadget) (r : FinalityRound) : VoteType → Target → Prop
  | pending (b : Target) (hs : r.state = .prevoting) (hb : b ∈ g.pendingBlocks) : VotesFor g r .prevote b
  | best (b : Target) (hs : r.state = .precommitting) (hb : r.collector.prevotes.best = some b) :
    VotesFor g r .precommit b

/-- One transition of a call. -/
inductive Transition (cr : Crypto) (call : Call) (g : FinalityGadget) : FinalityGadget → Prop
  | queue (b : Target) (hb : call.imported? = some b) :
    Transition cr call g { g with lastBlock := b, pendingBlocks := g.pendingBlocks ++ [b] }
  | start (now round : Nat) : Transition cr call g (g.started now g.rounds.currentEpoch round)
  | cast (r : FinalityRound) (ty : VoteType) (b : Target) (a : AccountId)
      (hr : g.rounds.activeRound = some r) (ha : r.ourValidator = some a) (hv : r.voted ty = false)
      (hfor : VotesFor g r ty b) : Transition cr call g (g.cast r ty b a)
  | give (ord : HashOrder) (v : FinalityVote) (r : FinalityRound) (hv : v ∈ call.votes)
      (hr : g.rounds.activeRound = some r) : Transition cr call g (g.setActive (r.addVote cr ord v).1)
  | announce (r : FinalityRound) (b : Target) (hr : g.rounds.activeRound = some r) (hs : r.state = .completed)
      (hb : r.finalizedTarget = some b) : Transition cr call g (g.announce r b)
  | conclude (r : FinalityRound) (b : Target) (hr : g.rounds.activeRound = some r) (hs : r.state = .completed)
      (hb : r.finalizedTarget = some b) : Transition cr call g (g.dropped b)
  | obey (b : Target) (hb : call.announced? = some b) : Transition cr call g (g.dropped b)
  | forget (b : Target) (hb : call.announced? = some b) : Transition cr call g (g.forget b)
  | answer (r : FinalityRound) (ord : HashOrder) (epoch : Nat) (hr : g.rounds.activeRound = some r) :
    Transition cr call g
      { g with broadcasted := g.broadcasted ++ [.catchUpResponse (r.collector.allVotes ord) epoch] }
  | validators (validators : Finset AccountId) (hv : call.validators? = some validators) :
    Transition cr call g (g.updateValidators validators)
  | epoch (epoch : Nat) (he : call.epoch? = some epoch) : Transition cr call g (g.newEpoch epoch)

/-- A chain of transitions of a call. -/
abbrev Transitions (cr : Crypto) (call : Call) : FinalityGadget → FinalityGadget → Prop :=
  Relation.ReflTransGen (Transition cr call)

variable {cr : Crypto} {call : Call}

/-! ## Our votes -/

/-- A search that keeps its best or takes the next one ends with one of the list. -/
theorem mem_of_foldl (f : Option Target → Target → Option Target) (hf : ∀ best c, f best c = some c ∨ f best c = best)
    (l : List Target) (best : Option Target) (b : Target) (h : l.foldl f best = some b) : best = some b ∨ b ∈ l := by
  induction l generalizing best with
  | nil => exact Or.inl h
  | cons c l ih =>
    rcases ih _ h with hc | hmem
    · rcases hf best c with htaken | hkept
      · rw [htaken] at hc
        cases hc
        exact Or.inr List.mem_cons_self
      · rw [hkept] at hc
        exact Or.inl hc
    · exact Or.inr (List.mem_cons_of_mem c hmem)

theorem mem_highest (l : List Target) (b : Target) (h : highest l = some b) : b ∈ l := by
  unfold highest at h
  refine (mem_of_foldl _ ?_ l none b h).resolve_left (by simp)
  intro best c
  cases best with
  | none => exact Or.inl rfl
  | some m =>
    simp only
    split
    · exact Or.inl rfl
    · exact Or.inr rfl

/-- A vote is created in the state of its phase, a precommit for the best prevote target. -/
theorem createPrevote_votes (signer : FinalitySigner) (r : FinalityRound) (b : Target) :
    (r.createPrevote signer b).2 = none ∨
      ∃ a, r.ourValidator = some a ∧ r.voted .prevote = false ∧ r.state = .prevoting ∧
        r.createPrevote signer b = (r.markVoted .prevote, some (r.ownVote signer .prevote b a)) := by
  unfold FinalityRound.createPrevote
  split
  · exact Or.inl rfl
  · next a ha =>
    split
    · exact Or.inl rfl
    · next hv =>
      split
      · exact Or.inl rfl
      · next hs => exact Or.inr ⟨a, ha, Bool.eq_false_iff.mpr hv, not_not.mp hs, rfl⟩

theorem createPrecommit_votes (signer : FinalitySigner) (r : FinalityRound) :
    (r.createPrecommit signer).2 = none ∨
      ∃ a b, r.ourValidator = some a ∧ r.voted .precommit = false ∧ r.state = .precommitting ∧
        r.collector.prevotes.best = some b ∧
        r.createPrecommit signer = (r.markVoted .precommit, some (r.ownVote signer .precommit b a)) := by
  unfold FinalityRound.createPrecommit
  split
  · exact Or.inl rfl
  · next a ha =>
    split
    · exact Or.inl rfl
    · next hv =>
      split
      · exact Or.inl rfl
      · next hs =>
        split
        · exact Or.inl rfl
        · next b hb => exact Or.inr ⟨a, b, ha, Bool.eq_false_iff.mpr hv, not_not.mp hs, hb, rfl⟩

theorem prevote_transitions (g : FinalityGadget) (b : Target) (hb : b ∈ g.pendingBlocks) :
    Transitions cr call g (g.createAndBroadcastPrevote b) := by
  unfold createAndBroadcastPrevote
  cases hr : g.rounds.activeRound with
  | none => exact .refl
  | some r =>
    rcases createPrevote_votes g.signer r b with hnone | ⟨a, ha, hv, hs, heq⟩
    · simp only
      split
      · exact .refl
      · next heq =>
        rw [heq] at hnone
        cases hnone
    · simp only [heq]
      exact .single (.cast r .prevote b a hr ha hv (.pending b hs hb))

theorem precommit_transitions (g : FinalityGadget) : Transitions cr call g g.createAndBroadcastPrecommit := by
  unfold createAndBroadcastPrecommit
  cases hr : g.rounds.activeRound with
  | none => exact .refl
  | some r =>
    rcases createPrecommit_votes g.signer r with hnone | ⟨a, b, ha, hv, hs, hb, heq⟩
    · simp only
      split
      · exact .refl
      · next heq =>
        rw [heq] at hnone
        cases hnone
    · simp only [heq]
      exact .single (.cast r .precommit b a hr ha hv (.best b hs hb))

/-! ## Rounds -/

theorem startFinalityRound_transitions (now : Nat) (g : FinalityGadget) :
    Transitions cr call g (g.startFinalityRound now) := by
  unfold startFinalityRound
  cases hb : highest g.pendingBlocks with
  | none => exact .refl
  | some b =>
    simp only
    refine .head (.start now g.rounds.currentRound) ?_
    split
    · exact prevote_transitions _ b (mem_highest g.pendingBlocks b hb)
    · exact .refl

/-- Whatever drops the round, the next one may follow. -/
theorem completeCurrentRound_transitions (now : Nat) (g : FinalityGadget) (block : Target)
    (hdrop : Transition cr call g (g.dropped block)) :
    Transitions cr call g (g.completeCurrentRound now (some block)) := by
  have hdef : g.completeCurrentRound now (some block) =
      if (pendingAbove g.pendingBlocks block).isEmpty then g.dropped block
      else ((g.dropped block).started now (g.dropped block).rounds.currentEpoch
        (((g.dropped block).rounds.currentRound + 1) % 2 ^ 32)).startFinalityRound now := rfl
  rw [hdef]
  split
  · exact .single hdrop
  · exact .head hdrop (.head (.start now _) (startFinalityRound_transitions now _))

/-! ## Votes of the network -/

/-- The vote that completes the active round finalizes its own target. -/
theorem onVote_of_completes (ord : HashOrder) (now : Nat) (g : FinalityGadget) (v : FinalityVote)
    (r : FinalityRound) (hr : g.rounds.activeRound = some r) (hround : ¬ (v.epoch ≠ r.epoch ∨ v.round ≠ r.round))
    (hadd : (r.addVote cr ord v).2 = .ok true) (hne : (r.addVote cr ord v).1.state ≠ r.state)
    (hs : (r.addVote cr ord v).1.state = .completed) (b : Target)
    (hb : (r.addVote cr ord v).1.finalizedTarget = some b) :
    (g.onVote cr ord now v).1 =
      ((g.setActive (r.addVote cr ord v).1).announce (r.addVote cr ord v).1 b).completeCurrentRound now (some b) := by
  unfold onVote
  rw [hr]
  simp only
  rw [if_neg hround, hadd]
  simp only
  rw [if_pos hne]
  simp only [hs, hb]
  rfl

theorem onVote_transitions (ord : HashOrder) (now : Nat) (g : FinalityGadget) (v : FinalityVote)
    (hv : v ∈ call.votes) : Transitions cr call g (g.onVote cr ord now v).1 := by
  by_cases hround : ∀ r, g.rounds.activeRound = some r → v.epoch ≠ r.epoch ∨ v.round ≠ r.round
  · rw [onVote_elsewhere cr ord now g v hround]
  · push Not at hround
    obtain ⟨r, hr, hepoch, hnumber⟩ := hround
    have hhere : ¬ (v.epoch ≠ r.epoch ∨ v.round ≠ r.round) := by simp [hepoch, hnumber]
    have hgive : Transition cr call g (g.setActive (r.addVote cr ord v).1) := .give ord v r hv hr
    by_cases hcompletes : (r.addVote cr ord v).2 = .ok true ∧ (r.addVote cr ord v).1.state ≠ r.state ∧
        (r.addVote cr ord v).1.state = .completed
    · obtain ⟨hadd, hne, hs⟩ := hcompletes
      cases hb : (r.addVote cr ord v).1.finalizedTarget with
      | none =>
        have hstays : (g.onVote cr ord now v).1 = g.setActive (r.addVote cr ord v).1 := by
          unfold onVote
          rw [hr]
          simp only
          rw [if_neg hhere, hadd]
          simp only
          rw [if_pos hne]
          simp only [hs, hb]
        rw [hstays]
        exact .single hgive
      | some b =>
        rw [onVote_of_completes ord now g v r hr hhere hadd hne hs b hb]
        refine .head hgive (.head (.announce _ b rfl hs hb) ?_)
        exact completeCurrentRound_transitions now _ b (.conclude _ b rfl hs hb)
    · -- the round stays open: at most our own precommit follows
      unfold onVote
      rw [hr]
      simp only
      rw [if_neg hhere]
      cases hadd : (r.addVote cr ord v).2 with
      | error e => exact .single hgive
      | ok accepted =>
        cases accepted with
        | false => exact .single hgive
        | true =>
          simp only
          split
          · next hne =>
            cases hs : (r.addVote cr ord v).1.state with
            | prevoting => exact .single hgive
            | failed => exact .single hgive
            | completed => exact absurd ⟨hadd, hne, hs⟩ hcompletes
            | precommitting =>
              simp only
              split
              · exact .head hgive (precommit_transitions _)
              · exact .single hgive
          · exact .single hgive

theorem catchUp_transitions (ord : HashOrder) (now : Nat) (g : FinalityGadget) (votes : List FinalityVote)
    (hv : ∀ v ∈ votes, v ∈ call.votes) : Transitions cr call g (g.handleCatchupResponse cr ord now votes) := by
  unfold handleCatchupResponse
  induction votes generalizing g with
  | nil => exact .refl
  | cons v votes ih =>
    exact (onVote_transitions ord now g v (hv v List.mem_cons_self)).trans
      (ih _ fun w hw => hv w (List.mem_cons_of_mem v hw))

theorem sendAllVotes_transitions (ord : HashOrder) (g : FinalityGadget) (r : FinalityRound) (epoch : Nat)
    (hr : g.rounds.activeRound = some r) : Transitions cr call g (g.sendAllVotes ord r epoch) := by
  unfold sendAllVotes
  simp only
  split
  · exact .refl
  · exact .single (.answer r ord epoch hr)

/-! ## Calls -/

/-- **Inversion.**  A call is a chain of transitions. -/
theorem step_transitions (cr : Crypto) (g : FinalityGadget) (call : Call) :
    Transitions cr call g (g.step cr call) := by
  cases call with
  | onBlockImported now b =>
    unfold step onBlockImported
    simp only
    refine .head (.queue b rfl) ?_
    split
    · exact startFinalityRound_transitions now _
    · exact .refl
  | onMessage ord now m =>
    cases m with
    | vote v => exact onVote_transitions ord now g v (List.mem_singleton_self v)
    | requestVotes epoch round =>
      simp only [step, onMessage, handleVoteRequest]
      cases hr : g.rounds.activeRound with
      | none => exact .refl
      | some r =>
        simp only
        split
        · exact sendAllVotes_transitions ord g r epoch hr
        · exact .refl
    | finalized block epoch round =>
      simp only [step, onMessage, handleFinalizedAnnouncement]
      split
      · exact (completeCurrentRound_transitions now g block (.obey block rfl)).tail (.forget block rfl)
      · exact .refl
    | catchUpRequest fromRound toRound epoch =>
      simp only [step, onMessage, handleCatchupRequest]
      cases hr : g.rounds.activeRound with
      | none => exact .refl
      | some r =>
        simp only
        split
        · exact sendAllVotes_transitions ord g r epoch hr
        · exact .refl
    | catchUpResponse votes epoch => exact catchUp_transitions ord now g votes fun v hv => hv
  | tick now delay =>
    unfold step tick
    cases hr : g.rounds.activeRound with
    | none => exact .refl
    | some r =>
      simp only [r.isTimedOut_and_not_isDone now delay, Bool.false_eq_true, if_false]
      split
      · exact precommit_transitions g
      · exact .refl
  | updateValidators validators => exact .single (.validators validators rfl)
  | newEpoch epoch => exact .single (.epoch epoch rfl)

/-- What the transitions of a call keep, the call keeps. -/
theorem step_keeps (P : FinalityGadget → Prop) (hkeeps : ∀ g g', Transition cr call g g' → P g → P g')
    (g : FinalityGadget) (h : P g) : P (g.step cr call) := by
  have hchain := step_transitions cr g call
  generalize g.step cr call = g' at hchain
  induction hchain with
  | refl => exact h
  | tail _ htrans ih => exact hkeeps _ _ htrans ih

end FinalityGadget

end Kratos
