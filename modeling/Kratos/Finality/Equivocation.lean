import Kratos.Finality.Safety

/-!
# Our own votes

The flags that keep a validator from voting twice live in the round, and a new
round starts with both unset.  So the gadget does not equivocate as long as no
round is started at an epoch and round number in which it has voted before
(`honest_no_equivocation`).  The counter does not guarantee that: it advances
only when a round completes with blocks pending, so a round that completes
without any is followed by one with the same number.
-/

namespace Kratos

/-- The vote of a message that carries a single one. -/
def FinalityMessage.ownVote? : FinalityMessage → Option FinalityVote
  | .vote v => some v
  | _ => none

namespace FinalityGadget

/-- The votes passed to the broadcaster, oldest first. -/
def sentVotes (g : FinalityGadget) : List FinalityVote := g.broadcasted.filterMap FinalityMessage.ownVote?

theorem sentVotes_append (g : FinalityGadget) (m : FinalityMessage) (l : List FinalityMessage)
    (h : g.broadcasted = l ++ [m]) : g.sentVotes = l.filterMap FinalityMessage.ownVote? ++ m.ownVote?.toList := by
  unfold sentVotes
  rw [h, List.filterMap_append]
  cases hm : m.ownVote? <;> simp [hm]

/-- No two sent votes of one type and round have different targets. -/
def SentOnce (g : FinalityGadget) : Prop :=
  ∀ v ∈ g.sentVotes, ∀ w ∈ g.sentVotes, v.voteType = w.voteType → v.epoch = w.epoch →
    v.round = w.round → v.target = w.target

/-- No vote was sent in a round that we could vote in. -/
def FreshRound (g : FinalityGadget) (epoch round : Nat) : Prop :=
  g.rounds.ourValidator.isSome = true → ∀ v ∈ g.sentVotes, v.epoch = epoch → v.round ≠ round

instance (g : FinalityGadget) (epoch round : Nat) : Decidable (FreshRound g epoch round) :=
  inferInstanceAs (Decidable (g.rounds.ourValidator.isSome = true →
    ∀ v ∈ g.sentVotes, v.epoch = epoch → v.round ≠ round))

/-- The votes sent so far are consistent, and the flags of the active round record
which of them belong to it. -/
structure VotesInv (g : FinalityGadget) : Prop where
  once : g.SentOnce
  unset : ∀ r ty, g.rounds.activeRound = some r → r.ourValidator.isSome = true → r.voted ty = false →
    ∀ v ∈ g.sentVotes, v.voteType = ty → v.epoch = r.epoch → v.round ≠ r.round

/-! ## Steps -/

theorem votesInv_of_active_none (g : FinalityGadget) (h : g.SentOnce)
    (ha : g.rounds.activeRound = none) : g.VotesInv := by
  refine ⟨h, fun r ty hr => ?_⟩
  rw [ha] at hr
  cases hr

/-- Other fields than rounds and messages do not matter. -/
theorem votesInv_congr (g g' : FinalityGadget) (hv : g'.sentVotes = g.sentVotes)
    (ha : g'.rounds.activeRound = g.rounds.activeRound) (h : g.VotesInv) : g'.VotesInv := by
  refine ⟨?_, ?_⟩
  · unfold SentOnce
    rw [hv]
    exact h.once
  · rw [hv, ha]
    exact h.unset

theorem voted_markVoted (r : FinalityRound) (ty ty' : VoteType) :
    (r.markVoted ty).voted ty' = (decide (ty' = ty) || r.voted ty') := by
  cases ty <;> cases ty' <;> rfl

theorem markVoted_frame (r : FinalityRound) (ty : VoteType) :
    (r.markVoted ty).ourValidator = r.ourValidator ∧ (r.markVoted ty).epoch = r.epoch ∧
      (r.markVoted ty).round = r.round := by
  cases ty <;> exact ⟨rfl, rfl, rfl⟩

/-- Casting a vote of a type not cast in the round keeps the votes consistent. -/
theorem votesInv_casts (g g' : FinalityGadget) (h : CastsVote g g') (hg : g.VotesInv) : g'.VotesInv := by
  cases h with
  | none => exact hg
  | cast r ty b a hr ha hv =>
    let vote := r.ownVote g.signer ty b a
    have hsent : ((g.setActive (r.markVoted ty)).sendVote vote).sentVotes = g.sentVotes ++ [vote] :=
      sentVotes_append _ (.vote vote) g.broadcasted rfl
    -- no vote of this type was sent in this round before
    have hnew : ∀ w ∈ g.sentVotes, w.voteType = ty → w.epoch = r.epoch → w.round ≠ r.round :=
      hg.unset r ty hr (by rw [ha]; rfl) hv
    obtain ⟨hour, hepoch, hround⟩ := markVoted_frame r ty
    refine ⟨?_, ?_⟩
    · intro v hv w hw hty he hn
      rw [hsent, List.mem_append, List.mem_singleton] at hv hw
      rcases hv with hv | rfl <;> rcases hw with hw | rfl
      · exact hg.once v hv w hw hty he hn
      · exact absurd hn (hnew v hv hty he)
      · exact absurd hn.symm (hnew w hw hty.symm he.symm)
      · rfl
    · intro r' ty' hr' hr'v hvoted v hv hty
      cases hr'
      rw [voted_markVoted, Bool.or_eq_false_iff, decide_eq_false_iff_not] at hvoted
      rw [hepoch, hround]
      rw [hsent, List.mem_append, List.mem_singleton] at hv
      rcases hv with hv | rfl
      · exact hg.unset r ty' hr (by rw [← hour]; exact hr'v) hvoted.2 v hv hty
      · exact absurd hty.symm hvoted.1

theorem votesInv_started (now : Nat) (g : FinalityGadget) (epoch round : Nat) (hg : g.SentOnce)
    (h : g.FreshRound epoch round) : (g.started now epoch round).VotesInv := by
  refine ⟨hg, fun r ty hr hour _ v hv _ he => ?_⟩
  cases hr
  exact h hour v hv he

theorem votesInv_startFinalityRound (now : Nat) (g : FinalityGadget) (hg : g.VotesInv)
    (h : g.FreshRound g.rounds.currentEpoch g.rounds.currentRound) :
    (g.startFinalityRound now).VotesInv := by
  rcases startFinalityRound_cases now g with heq | hcast
  · rw [heq]
    exact hg
  · exact votesInv_casts _ _ hcast (votesInv_started now g _ _ hg.once h)

/-- The next round, if there are blocks for it, is one we have not voted in. -/
def NextRoundFresh (g : FinalityGadget) (block : Target) : Prop :=
  pendingAbove g.pendingBlocks block ≠ [] →
    g.FreshRound g.rounds.currentEpoch ((g.rounds.currentRound + 1) % 2 ^ 32)

instance (g : FinalityGadget) (block : Target) : Decidable (NextRoundFresh g block) :=
  inferInstanceAs (Decidable (pendingAbove g.pendingBlocks block ≠ [] →
    g.FreshRound g.rounds.currentEpoch ((g.rounds.currentRound + 1) % 2 ^ 32)))

theorem dropped_frame (g : FinalityGadget) (block : Target) :
    (g.dropped block).rounds.currentEpoch = g.rounds.currentEpoch ∧
      (g.dropped block).rounds.currentRound = g.rounds.currentRound ∧
      (g.dropped block).rounds.ourValidator = g.rounds.ourValidator := by
  unfold dropped RoundManager.completeRound
  cases g.rounds.activeRound <;> exact ⟨rfl, rfl, rfl⟩

theorem votesInv_completeCurrentRound (now : Nat) (g : FinalityGadget) (block : Target) (hg : g.SentOnce)
    (h : g.NextRoundFresh block) : (g.completeCurrentRound now (some block)).VotesInv := by
  obtain ⟨hepoch, hround, hour⟩ := dropped_frame g block
  rcases completeCurrentRound_cases now g block with ⟨-, heq⟩ | ⟨hp, g', hg', hnext⟩
  · rw [heq]
    exact votesInv_of_active_none _ hg (activeRound_dropped g block)
  · have hfresh : (g.dropped block).FreshRound (g.dropped block).rounds.currentEpoch
        (((g.dropped block).rounds.currentRound + 1) % 2 ^ 32) := by
      rw [hepoch, hround]
      intro hsome
      rw [hour] at hsome
      exact h hp hsome
    have hinv : g'.VotesInv := hg' ▸ votesInv_started now (g.dropped block) _ _ hg hfresh
    rcases hnext with heq | hcast
    · rw [heq]
      exact hinv
    · refine votesInv_casts _ _ hcast (votesInv_started now g' _ _ hinv.once ?_)
      rw [hg']
      exact hfresh

/-- If the vote completes the active round, the next round is fresh. -/
def CompletesFresh (cr : Crypto) (ord : HashOrder) (g : FinalityGadget) (v : FinalityVote) : Prop :=
  ∀ r ∈ g.rounds.activeRound, r.state ≠ .completed → (r.addVote cr ord v).1.state = .completed →
    g.NextRoundFresh v.target

instance (cr : Crypto) (ord : HashOrder) (g : FinalityGadget) (v : FinalityVote) :
    Decidable (CompletesFresh cr ord g v) :=
  inferInstanceAs (Decidable (∀ r ∈ g.rounds.activeRound, r.state ≠ .completed →
    (r.addVote cr ord v).1.state = .completed → g.NextRoundFresh v.target))

theorem votesInv_onVote (cr : Crypto) (ord : HashOrder) (now : Nat) (g : FinalityGadget)
    (vote : FinalityVote) (ha : g.ActiveInv cr) (hg : g.VotesInv) (h : CompletesFresh cr ord g vote) :
    (g.onVote cr ord now vote).1.VotesInv := by
  rcases onVote_cases cr ord now g vote with heq | ⟨r, hr, hcast⟩ | ⟨r, b, js, pair, hr, hne, hs, hb, heq⟩
  · rw [heq]
    exact hg
  · refine votesInv_casts _ _ hcast ⟨hg.once, fun r' ty hr' hour hv v hvm hty he => ?_⟩
    -- the vote changed the collector, not the flags
    cases hr'
    obtain ⟨hepoch, hround, -⟩ := VoteCollector.addVote_frame cr ord r.collector vote
    have he' : v.epoch = r.epoch := he.trans hepoch
    have hn := hg.unset r ty hr hour (by cases ty <;> exact hv) v hvm hty he'
    exact fun hn' => hn (hn'.trans hround)
  · rw [heq]
    have hbv : b = vote.target := Option.some.inj (hb.symm.trans
      (finalizedTarget_of_completes cr ord r.collector vote (ha r hr) hne hs))
    have hsent : sentVotes { g.setActive (r.addVote cr ord vote).1 with
        justifications := js
        broadcasted := g.broadcasted ++ [FinalityMessage.finalized b pair.1 pair.2] } = g.sentVotes := by
      rw [sentVotes_append _ _ g.broadcasted rfl]
      exact List.append_nil _
    refine votesInv_completeCurrentRound now _ b ?_ ?_
    · unfold SentOnce
      rw [hsent]
      exact hg.once
    · intro hp hour v hv
      rw [hsent] at hv
      rw [hbv] at hp
      exact h r hr hne hs hp hour v hv

theorem votesInv_votes (cr : Crypto) (ord : HashOrder) (now : Nat) (g : FinalityGadget)
    (votes : List FinalityVote) (ha : g.ActiveInv cr) (hg : g.VotesInv)
    (h : ∀ d ∈ deliveries cr ord now g votes, CompletesFresh cr ord d.1 d.2) :
    (g.handleCatchupResponse cr ord now votes).VotesInv := by
  induction votes generalizing g with
  | nil => exact hg
  | cons v votes ih =>
    exact ih _ (activeInv_onVote cr ord now g v ha)
      (votesInv_onVote cr ord now g v ha hg (h (g, v) List.mem_cons_self))
      fun d hd => h d (List.mem_cons_of_mem _ hd)

/-- Answers to requests carry no vote of our own. -/
theorem sentVotes_sendAllVotes (ord : HashOrder) (g : FinalityGadget) (r : FinalityRound) (epoch : Nat) :
    (g.sendAllVotes ord r epoch).sentVotes = g.sentVotes := by
  unfold sendAllVotes
  simp only
  split
  · rfl
  · rw [sentVotes_append _ _ g.broadcasted rfl]
    exact List.append_nil _

theorem sentVotes_handleVoteRequest (ord : HashOrder) (g : FinalityGadget) (epoch round : Nat) :
    (g.handleVoteRequest ord epoch round).sentVotes = g.sentVotes := by
  unfold handleVoteRequest
  split
  · rfl
  · split
    · exact sentVotes_sendAllVotes ord g _ epoch
    · rfl

theorem sentVotes_handleCatchupRequest (ord : HashOrder) (g : FinalityGadget)
    (fromRound toRound epoch : Nat) :
    (g.handleCatchupRequest ord fromRound toRound epoch).sentVotes = g.sentVotes := by
  unfold handleCatchupRequest
  split
  · rfl
  · split
    · exact sentVotes_sendAllVotes ord g _ epoch
    · rfl

/-! ## Runs -/

/-- Every round the call starts is one we have not voted in, or cannot vote in. -/
def StartsFresh (cr : Crypto) (g : FinalityGadget) : Call → Prop
  | .onBlockImported _ _ =>
    g.rounds.activeRound.isNone = true → g.FreshRound g.rounds.currentEpoch g.rounds.currentRound
  | .onMessage _ _ (.finalized block _ _) =>
    block.number > g.lastFinalized.number → g.NextRoundFresh block
  | .onMessage ord now m => ∀ d ∈ votesIn cr ord now g m, CompletesFresh cr ord d.1 d.2
  | _ => True

instance (cr : Crypto) (g : FinalityGadget) (call : Call) : Decidable (StartsFresh cr g call) :=
  match call with
  | .onBlockImported _ _ => inferInstanceAs (Decidable (g.rounds.activeRound.isNone = true →
      g.FreshRound g.rounds.currentEpoch g.rounds.currentRound))
  | .onMessage _ _ (.finalized block _ _) =>
    inferInstanceAs (Decidable (block.number > g.lastFinalized.number → g.NextRoundFresh block))
  | .onMessage ord now (.vote v) =>
    inferInstanceAs (Decidable (∀ d ∈ votesIn cr ord now g (.vote v), CompletesFresh cr ord d.1 d.2))
  | .onMessage ord now (.catchUpResponse votes epoch) => inferInstanceAs (Decidable
      (∀ d ∈ votesIn cr ord now g (.catchUpResponse votes epoch), CompletesFresh cr ord d.1 d.2))
  | .onMessage ord now (.requestVotes epoch round) => inferInstanceAs (Decidable
      (∀ d ∈ votesIn cr ord now g (.requestVotes epoch round), CompletesFresh cr ord d.1 d.2))
  | .onMessage ord now (.catchUpRequest fromRound toRound epoch) => inferInstanceAs (Decidable
      (∀ d ∈ votesIn cr ord now g (.catchUpRequest fromRound toRound epoch), CompletesFresh cr ord d.1 d.2))
  | .tick .. => isTrue trivial
  | .updateValidators .. => isTrue trivial
  | .newEpoch .. => isTrue trivial

/-- **Step.** -/
theorem votesInv_step (cr : Crypto) (g : FinalityGadget) (call : Call)
    (hg : g.ActiveInv cr ∧ g.VotesInv) (h : StartsFresh cr g call) :
    (g.step cr call).ActiveInv cr ∧ (g.step cr call).VotesInv := by
  refine ⟨activeInv_step cr g call hg.1, ?_⟩
  cases call with
  | onBlockImported now b =>
    unfold step onBlockImported
    simp only
    split
    · next hc =>
      refine votesInv_startFinalityRound now _ (votesInv_congr g _ rfl rfl hg.2) ?_
      exact h hc.1
    · exact votesInv_congr g _ rfl rfl hg.2
  | onMessage ord now m =>
    cases m with
    | vote v => exact votesInv_votes cr ord now g [v] hg.1 hg.2 h
    | requestVotes epoch round =>
      refine votesInv_congr g _ (sentVotes_handleVoteRequest ord g epoch round) ?_ hg.2
      exact congrArg RoundManager.activeRound (rounds_handleVoteRequest ord g epoch round)
    | finalized block epoch round =>
      simp only [step, onMessage, handleFinalizedAnnouncement]
      split
      · next hn =>
        exact votesInv_congr (g.completeCurrentRound now (some block)) _ rfl rfl
          (votesInv_completeCurrentRound now g block hg.2.once (h hn))
      · exact hg.2
    | catchUpRequest fromRound toRound epoch =>
      refine votesInv_congr g _ (sentVotes_handleCatchupRequest ord g fromRound toRound epoch) ?_ hg.2
      exact congrArg RoundManager.activeRound
        (rounds_handleCatchupRequest ord g fromRound toRound epoch)
    | catchUpResponse votes epoch => exact votesInv_votes cr ord now g votes hg.1 hg.2 h
  | tick now delay => exact votesInv_casts g _ (tick_casts now delay g) hg.2
  | updateValidators validators => exact votesInv_congr g _ rfl rfl hg.2
  | newEpoch epoch => exact votesInv_congr g _ rfl rfl hg.2

/-- **No equivocation.**  In a run that starts no round where we have voted before, the
votes passed to the broadcaster never contain two of one type, epoch and round with
different targets. -/
theorem honest_no_equivocation (cr : Crypto) (signer : FinalitySigner) (validators : Finset AccountId)
    (genesisHash : Hash) (calls : List Call)
    (h : Run.Meets (step cr) (StartsFresh cr) (new signer validators genesisHash) calls) :
    ((new signer validators genesisHash).run cr calls).SentOnce := by
  have hnew : (new signer validators genesisHash).VotesInv := by
    refine votesInv_of_active_none _ ?_ rfl
    intro v hv
    cases hv
  have hend := Run.inv_foldl (step cr) (StartsFresh cr) (fun g => g.ActiveInv cr ∧ g.VotesInv)
    (fun g call hg hc => votesInv_step cr g call hg hc) _ calls
    ⟨activeInv_run cr signer validators genesisHash [], hnew⟩ h
  exact hend.2.once

/-- Blocks 1 and 2 are imported, then a round is voted for block 1. -/
def sampleVotedRound : List Call :=
  Call.onBlockImported 0 ⟨1, ⟨1⟩⟩ :: .onBlockImported 0 ⟨2, ⟨2⟩⟩ :: sampleRound ⟨1, ⟨1⟩⟩

theorem sampleVotedRound_fresh : Run.Meets (step Crypto.sample) (StartsFresh Crypto.sample)
    (new (sampleSigner ⟨1⟩) sampleValidators ⟨0⟩) sampleVotedRound := by
  decide +kernel

/-- With block 2 pending the counter advances: three votes, in two rounds. -/
theorem honest_two_rounds :
    (((new (sampleSigner ⟨1⟩) sampleValidators ⟨0⟩).run Crypto.sample sampleVotedRound).sentVotes.map
      fun v => (v.voteType, v.epoch, v.round, v.targetNumber)) =
        [(.prevote, 0, 0, 1), (.precommit, 0, 0, 1), (.prevote, 0, 1, 2)] ∧
    ((new (sampleSigner ⟨1⟩) sampleValidators ⟨0⟩).run Crypto.sample sampleVotedRound).SentOnce :=
  ⟨by decide +kernel, honest_no_equivocation Crypto.sample (sampleSigner ⟨1⟩) sampleValidators ⟨0⟩
    sampleVotedRound sampleVotedRound_fresh⟩

/-- Block 1 is announced as final while nothing else is pending, then block 2 is imported. -/
def sampleReusedRound : List Call :=
  [.onBlockImported 0 ⟨1, ⟨1⟩⟩, .onMessage .sorted 0 (.finalized ⟨1, ⟨1⟩⟩ 0 0),
    .onBlockImported 0 ⟨2, ⟨2⟩⟩]

/-- The epochs a run enters, in order. -/
def epochsOf (calls : List Call) : List Nat :=
  calls.filterMap fun call => match call with
    | .newEpoch epoch => some epoch
    | _ => none

/-- The round number is used again, without any change of epoch: two prevotes of
round 0 with different targets. -/
theorem honest_equivocates :
    ¬ ∀ (cr : Crypto) (signer : FinalitySigner) (validators : Finset AccountId) (genesisHash : Hash)
      (calls : List Call), (epochsOf calls).Pairwise (· ≤ ·) →
        ((new signer validators genesisHash).run cr calls).SentOnce := by
  intro h
  have hsent : ((new (sampleSigner ⟨1⟩) sampleValidators ⟨0⟩).run Crypto.sample sampleReusedRound).sentVotes =
      [sampleVote .prevote ⟨1⟩ ⟨1, ⟨1⟩⟩, sampleVote .prevote ⟨1⟩ ⟨2, ⟨2⟩⟩] := by
    decide +kernel
  have hone := h Crypto.sample (sampleSigner ⟨1⟩) sampleValidators ⟨0⟩ sampleReusedRound (by decide)
  unfold SentOnce at hone
  rw [hsent] at hone
  have heq := hone _ List.mem_cons_self _ (List.mem_cons_of_mem _ List.mem_cons_self) rfl rfl rfl
  exact absurd heq (by decide)

end FinalityGadget

end Kratos
