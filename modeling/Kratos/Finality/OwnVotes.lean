import Kratos.Finality.Agreement
import Kratos.Finality.Equivocation

/-!
# Votes that come back

A vote of our own sets a flag of the round and is passed to the broadcaster; the collector of
the round is not told.  What the collector holds is what was delivered to the round
(`Tracks.collector`), and a vote that is delivered after it was counted changes nothing.  So
our own votes count exactly if the network hands them back while the round is active
(`own_votes_count_iff`).
-/

namespace Kratos

/-! ## Whose votes a collector records -/

namespace VoteCollector

/-- The vote passes the checks and is the first one of its type by its voter. -/
structure Counts (cr : Crypto) (c : VoteCollector) (v : FinalityVote) : Prop where
  accepted : Accepted cr c.epoch c.round c.validators v.voteType v
  phase : v.voteType = .precommit → c.state ≠ .prevoting
  first : (c.tally v.voteType).voted.find? v.voter = none

theorem tally_checkPrevoteThreshold (c : VoteCollector) (ty : VoteType) :
    (checkPrevoteThreshold c).tally ty = c.tally ty := by
  obtain ⟨s, h⟩ := checkPrevoteThreshold_with c
  rw [h]
  cases ty <;> rfl

theorem tally_checkPrecommitThreshold (c : VoteCollector) (ty : VoteType) :
    (checkPrecommitThreshold c).tally ty = c.tally ty := by
  obtain ⟨s, h⟩ := checkPrecommitThreshold_with c
  rw [h]
  cases ty <;> rfl

/-- A recorded target stays when another vote is added. -/
theorem voted_add_of_voted (ord : HashOrder) (t t' : Tally) (v : FinalityVote) (h : t.add ord v = .added t')
    (a : AccountId) (b : Target) (hold : t.voted.find? a = some b) : t'.voted.find? a = some b := by
  obtain ⟨hnone, -, hvoted, -⟩ := Tally.add_added ord t t' v h
  rw [hvoted, if_neg, hold]
  rintro rfl
  rw [hnone] at hold
  cases hold

theorem voted_of_add (ord : HashOrder) (t t' : Tally) (v : FinalityVote) (h : t.add ord v = .added t')
    (a : AccountId) (b : Target) (hnew : t'.voted.find? a = some b) :
    t.voted.find? a = some b ∨ (t.voted.find? v.voter = none ∧ v.voter = a ∧ v.target = b) := by
  obtain ⟨hnone, -, hvoted, -⟩ := Tally.add_added ord t t' v h
  rw [hvoted] at hnew
  split at hnew
  · next ha => exact Or.inr ⟨hnone, ha.symm, Option.some.inj hnew⟩
  · exact Or.inl hnew

/-- A vote that counts is recorded with its target. -/
theorem voted_of_counts (cr : Crypto) (ord : HashOrder) (c : VoteCollector) (v : FinalityVote)
    (h : c.Counts cr v) :
    ((c.addVote cr ord v).1.tally v.voteType).voted.find? v.voter = some v.target := by
  obtain ⟨t, ht⟩ := add_of_fresh ord (c.tally v.voteType) v h.first
  have hvoted := (Tally.add_added ord _ t v ht).2.2.1 v.voter
  rw [if_pos rfl] at hvoted
  unfold addVote
  rw [if_neg (by simp [h.accepted.epoch, h.accepted.round]), if_neg (not_not.2 h.accepted.voter),
    if_neg (fun hp => h.phase hp.1 hp.2), if_neg (by simp [h.accepted.verified])]
  cases hty : v.voteType with
  | prevote =>
    rw [hty] at ht
    change c.prevotes.add ord v = .added t at ht
    simp only [addPrevote, ht, tally_checkPrevoteThreshold]
    exact hvoted
  | precommit =>
    rw [hty] at ht
    change c.precommits.add ord v = .added t at ht
    simp only [addPrecommit, ht, tally_checkPrecommitThreshold]
    exact hvoted

/-- Who is recorded after a vote was recorded before or cast it. -/
theorem voted_addVote_iff (cr : Crypto) (ord : HashOrder) (c : VoteCollector) (v : FinalityVote)
    (ty : VoteType) (a : AccountId) (b : Target) :
    ((c.addVote cr ord v).1.tally ty).voted.find? a = some b ↔
      (c.tally ty).voted.find? a = some b ∨
        (c.Counts cr v ∧ v.voteType = ty ∧ v.voter = a ∧ v.target = b) := by
  -- what was recorded stays, and what is new was added by an accepted vote
  have hkeeps : (c.tally ty).voted.find? a = some b → ((c.addVote cr ord v).1.tally ty).voted.find? a = some b := by
    intro hold
    rcases addVote_cases cr ord c v with ⟨es, r, h, -⟩ | ⟨t, h, -, ht⟩ | ⟨t, h, -, -, ht⟩
    · rw [h]
      cases ty <;> exact hold
    · rw [h, tally_checkPrevoteThreshold]
      cases ty with
      | prevote => exact voted_add_of_voted ord c.prevotes t v ht a b hold
      | precommit => exact hold
    · rw [h, tally_checkPrecommitThreshold]
      cases ty with
      | prevote => exact hold
      | precommit => exact voted_add_of_voted ord c.precommits t v ht a b hold
  constructor
  · intro hnew
    rcases addVote_cases cr ord c v with ⟨es, r, h, -⟩ | ⟨t, h, hacc, ht⟩ | ⟨t, h, hacc, hs, ht⟩
    · rw [h] at hnew
      cases ty <;> exact Or.inl hnew
    · rw [h, tally_checkPrevoteThreshold] at hnew
      cases ty with
      | prevote =>
        refine (voted_of_add ord c.prevotes t v ht a b hnew).imp_right fun ⟨hnone, ha, hb⟩ => ?_
        have hfirst : (c.tally v.voteType).voted.find? v.voter = none := by
          rw [hacc.voteType]
          exact hnone
        refine ⟨⟨by rw [hacc.voteType]; exact hacc, fun hp => ?_, hfirst⟩, hacc.voteType, ha, hb⟩
        rw [hacc.voteType] at hp
        cases hp
      | precommit => exact Or.inl hnew
    · rw [h, tally_checkPrecommitThreshold] at hnew
      cases ty with
      | prevote => exact Or.inl hnew
      | precommit =>
        refine (voted_of_add ord c.precommits t v ht a b hnew).imp_right fun ⟨hnone, ha, hb⟩ => ?_
        have hfirst : (c.tally v.voteType).voted.find? v.voter = none := by
          rw [hacc.voteType]
          exact hnone
        exact ⟨⟨by rw [hacc.voteType]; exact hacc, fun _ => hs, hfirst⟩, hacc.voteType, ha, hb⟩
  · rintro (hold | ⟨hcounts, rfl, rfl, rfl⟩)
    · exact hkeeps hold
    · exact voted_of_counts cr ord c v hcounts

/-- A vote that is recorded already changes nothing. -/
theorem addVote_of_voted (cr : Crypto) (ord : HashOrder) (c : VoteCollector) (v : FinalityVote)
    (h : (c.tally v.voteType).voted.find? v.voter = some v.target) : (c.addVote cr ord v).1 = c := by
  have hadd : (c.tally v.voteType).add ord v = .duplicate := by
    unfold Tally.add
    rw [h]
    simp
  unfold addVote
  split
  · rfl
  split
  · rfl
  split
  · rfl
  split
  · rfl
  cases hty : v.voteType with
  | prevote =>
    rw [hty] at hadd
    change c.prevotes.add ord v = .duplicate at hadd
    simp only [addPrevote, hadd]
  | precommit =>
    rw [hty] at hadd
    change c.precommits.add ord v = .duplicate at hadd
    simp only [addPrecommit, hadd]

theorem run_of_voted (cr : Crypto) (c : VoteCollector) (l : Deliveries)
    (h : ∀ d ∈ l, (c.tally d.2.voteType).voted.find? d.2.voter = some d.2.target) : c.run cr l = c := by
  induction l with
  | nil => rfl
  | cons d l ih =>
    have hrun : c.run cr (d :: l) = (c.addVote cr d.1 d.2).1.run cr l := rfl
    rw [hrun, addVote_of_voted cr d.1 c d.2 (h d List.mem_cons_self)]
    exact ih fun e he => h e (List.mem_cons_of_mem d he)

/-- Among the deliveries is a vote of the account for the target that counts. -/
def Delivers (cr : Crypto) (c : VoteCollector) (l : Deliveries) (ty : VoteType) (a : AccountId) (b : Target) :
    Prop :=
  ∃ pre d post, l = pre ++ d :: post ∧ (c.run cr pre).Counts cr d.2 ∧ d.2.voteType = ty ∧
    d.2.voter = a ∧ d.2.target = b

/-- The collector records what was delivered to it. -/
theorem voted_run_iff (cr : Crypto) (c : VoteCollector) (l : Deliveries) (ty : VoteType) (a : AccountId)
    (b : Target) :
    ((c.run cr l).tally ty).voted.find? a = some b ↔
      (c.tally ty).voted.find? a = some b ∨ Delivers cr c l ty a b := by
  induction l using List.reverseRecOn with
  | nil =>
    refine ⟨Or.inl, fun h => h.elim id ?_⟩
    rintro ⟨pre, d, post, hsplit, -⟩
    exact absurd hsplit (by simp)
  | append_singleton l e ih =>
    have hrun : c.run cr (l ++ [e]) = ((c.run cr l).addVote cr e.1 e.2).1 := by simp [run, List.foldl_append]
    rw [hrun, voted_addVote_iff, ih, or_assoc]
    refine or_congr_right ⟨?_, ?_⟩
    · rintro (⟨pre, d, post, rfl, hd⟩ | ⟨hcounts, he⟩)
      · exact ⟨pre, d, post ++ [e], by simp, hd⟩
      · exact ⟨l, e, [], rfl, hcounts, he⟩
    · rintro ⟨pre, d, post, hsplit, hd⟩
      rcases (Run.concat_eq_split_iff l pre post d e).mp hsplit with ⟨rfl, rfl, -⟩ | ⟨rest, -, rfl⟩
      · exact Or.inr hd
      · exact Or.inl ⟨pre, d, rest, rfl, hd⟩

end VoteCollector

/-! ## What the active round was given -/

namespace FinalityGadget

/-- The votes given to the active round since it was started, after one more vote. -/
def heardVote (cr : Crypto) (ord : HashOrder) (g : FinalityGadget) (heard : Deliveries) (v : FinalityVote) :
    Deliveries :=
  match g.rounds.activeRound with
  | none => heard
  | some r =>
    if v.epoch ≠ r.epoch ∨ v.round ≠ r.round then heard
    -- the vote completes the round
    else if r.state ≠ .completed ∧ (r.addVote cr ord v).1.finalizedTarget.isSome then []
    else heard ++ [(ord, v)]

/-- A gadget and what its active round was given. -/
structure Listener where
  gadget : FinalityGadget
  heard : Deliveries

namespace Listener

def onVote (cr : Crypto) (ord : HashOrder) (now : Nat) (s : Listener) (v : FinalityVote) : Listener :=
  { gadget := (s.gadget.onVote cr ord now v).1, heard := s.gadget.heardVote cr ord s.heard v }

def step (cr : Crypto) (s : Listener) (call : Call) : Listener :=
  match call with
  | .onMessage ord now (.vote v) => s.onVote cr ord now v
  | .onMessage ord now (.catchUpResponse votes _) => votes.foldl (onVote cr ord now) s
  | .onMessage _ _ (.finalized block _ _) =>
    { gadget := s.gadget.step cr call
      heard := if block.number > s.gadget.lastFinalized.number then [] else s.heard }
  | .onBlockImported _ _ =>
    { gadget := s.gadget.step cr call, heard := if s.gadget.rounds.activeRound.isNone then [] else s.heard }
  | _ => { gadget := s.gadget.step cr call, heard := s.heard }

theorem gadget_foldl_onVote (cr : Crypto) (ord : HashOrder) (now : Nat) (s : Listener) (votes : List FinalityVote) :
    (votes.foldl (onVote cr ord now) s).gadget = s.gadget.handleCatchupResponse cr ord now votes := by
  induction votes generalizing s with
  | nil => rfl
  | cons v votes ih => exact ih (s.onVote cr ord now v)

/-- Listening does not change the run. -/
theorem gadget_step (cr : Crypto) (s : Listener) (call : Call) : (s.step cr call).gadget = s.gadget.step cr call := by
  cases call with
  | onMessage ord now m =>
    cases m with
    | catchUpResponse votes epoch => exact gadget_foldl_onVote cr ord now s votes
    | _ => rfl
  | _ => rfl

theorem gadget_foldl (cr : Crypto) (s : Listener) (calls : List Call) :
    (calls.foldl (step cr) s).gadget = s.gadget.run cr calls := by
  induction calls generalizing s with
  | nil => rfl
  | cons call calls ih =>
    rw [List.foldl_cons, ih, gadget_step]
    rfl

end Listener

/-- The votes given to the active round in the course of a run. -/
def heard (cr : Crypto) (g : FinalityGadget) (calls : List Call) : Deliveries :=
  (calls.foldl (Listener.step cr) ⟨g, []⟩).heard

/-! ## Our votes in the active round -/

/-- The last vote of the type that was passed to the broadcaster. -/
def lastOwn (g : FinalityGadget) (ty : VoteType) : Option FinalityVote :=
  (g.sentVotes.filter fun v => decide (v.voteType = ty)).getLast?

/-- The collector of a round when it starts. -/
def fresh (r : FinalityRound) : VoteCollector := .new r.epoch r.round r.collector.validators

/-- The active round holds what it was given, and the votes its flags speak of are the last
that were sent. -/
structure Tracks (cr : Crypto) (g : FinalityGadget) (heard : Deliveries) : Prop where
  collector : ∀ r, g.rounds.activeRound = some r → r.collector = (fresh r).run cr heard
  ours : ∀ r a, g.rounds.activeRound = some r → r.ourValidator = some a → a = g.signer.validatorId
  own : ∀ r ty, g.rounds.activeRound = some r → r.voted ty = true → ∃ v, g.lastOwn ty = some v ∧
    v.voter = g.signer.validatorId ∧ v.epoch = r.epoch ∧ v.round = r.round

/-- The account the rounds vote with is the signer's. -/
def SignsFor (g : FinalityGadget) : Prop := ∀ a, g.rounds.ourValidator = some a → a = g.signer.validatorId

/-- Signer and account stay. -/
def SameVoter (g g' : FinalityGadget) : Prop :=
  g'.signer = g.signer ∧ g'.rounds.ourValidator = g.rounds.ourValidator

theorem SameVoter.trans {g g' g'' : FinalityGadget} (h : SameVoter g g') (h' : SameVoter g' g'') :
    SameVoter g g'' :=
  ⟨h'.1.trans h.1, h'.2.trans h.2⟩

theorem SameVoter.signsFor {g g' : FinalityGadget} (h : SameVoter g g') (hg : g.SignsFor) : g'.SignsFor := by
  intro a ha
  rw [h.2] at ha
  rw [h.1]
  exact hg a ha

theorem sameVoter_casts (g g' : FinalityGadget) (h : CastsVote g g') : SameVoter g g' := by
  cases h <;> exact ⟨rfl, rfl⟩

theorem sameVoter_startFinalityRound (now : Nat) (g : FinalityGadget) : SameVoter g (g.startFinalityRound now) := by
  rcases startFinalityRound_cases now g with heq | hcast
  · rw [heq]
    exact ⟨rfl, rfl⟩
  · have hcasts := sameVoter_casts _ _ hcast
    exact ⟨hcasts.1, hcasts.2⟩

theorem sameVoter_completeCurrentRound (now : Nat) (g : FinalityGadget) (block : Target) :
    SameVoter g (g.completeCurrentRound now (some block)) := by
  have hdropped : SameVoter g (g.dropped block) := ⟨rfl, (dropped_frame g block).2.2⟩
  rcases completeCurrentRound_cases now g block with ⟨-, heq⟩ | ⟨-, g', hg', heq | hcast⟩
  · rw [heq]
    exact hdropped
  · rw [heq, hg']
    exact hdropped
  · refine SameVoter.trans ?_ (sameVoter_casts _ _ hcast)
    rw [hg']
    exact hdropped

theorem sameVoter_onVote (cr : Crypto) (ord : HashOrder) (now : Nat) (g : FinalityGadget) (v : FinalityVote) :
    SameVoter g (g.onVote cr ord now v).1 := by
  rcases onVote_cases cr ord now g v with heq | ⟨r, -, hcast⟩ | ⟨r, b, js, pair, -, -, -, -, heq⟩
  · rw [heq]
    exact ⟨rfl, rfl⟩
  · have hcasts := sameVoter_casts _ _ hcast
    exact ⟨hcasts.1, hcasts.2⟩
  · rw [heq]
    exact sameVoter_completeCurrentRound now _ b

theorem signer_sendAllVotes (ord : HashOrder) (g : FinalityGadget) (r : FinalityRound) (epoch : Nat) :
    (g.sendAllVotes ord r epoch).signer = g.signer := by
  unfold sendAllVotes
  simp only
  split <;> rfl

theorem signer_handleVoteRequest (ord : HashOrder) (g : FinalityGadget) (epoch round : Nat) :
    (g.handleVoteRequest ord epoch round).signer = g.signer := by
  unfold handleVoteRequest
  split
  · rfl
  · split
    · exact signer_sendAllVotes ord g _ epoch
    · rfl

theorem signer_handleCatchupRequest (ord : HashOrder) (g : FinalityGadget) (fromRound toRound epoch : Nat) :
    (g.handleCatchupRequest ord fromRound toRound epoch).signer = g.signer := by
  unfold handleCatchupRequest
  split
  · rfl
  · split
    · exact signer_sendAllVotes ord g _ epoch
    · rfl

theorem lastOwn_type (g : FinalityGadget) (ty : VoteType) (v : FinalityVote) (h : g.lastOwn ty = some v) :
    v.voteType = ty := by
  have hmem := List.mem_of_getLast? h
  simpa using (List.mem_filter.mp hmem).2

theorem lastOwn_congr (g g' : FinalityGadget) (h : g'.sentVotes = g.sentVotes) (ty : VoteType) :
    g'.lastOwn ty = g.lastOwn ty := by
  unfold lastOwn
  rw [h]

theorem lastOwn_sendVote (g : FinalityGadget) (v : FinalityVote) (ty : VoteType) :
    (g.sendVote v).lastOwn ty = if v.voteType = ty then some v else g.lastOwn ty := by
  have hsent : (g.sendVote v).sentVotes = g.sentVotes ++ [v] := sentVotes_append _ (.vote v) g.broadcasted rfl
  unfold lastOwn
  rw [hsent, List.filter_append]
  split
  · next hty => simp [hty]
  · next hty => simp [hty]

/-- Other fields than rounds, signer and sent votes do not matter. -/
theorem Tracks.congr (cr : Crypto) (g g' : FinalityGadget) (heard : Deliveries)
    (hr : g'.rounds.activeRound = g.rounds.activeRound) (hs : g'.signer = g.signer)
    (hv : g'.sentVotes = g.sentVotes) (h : g.Tracks cr heard) : g'.Tracks cr heard := by
  refine ⟨?_, ?_, ?_⟩
  · rw [hr]
    exact h.collector
  · rw [hr, hs]
    exact h.ours
  · intro r ty
    rw [hr, hs, lastOwn_congr g g' hv]
    exact h.own r ty

theorem Tracks.of_inactive (cr : Crypto) (g : FinalityGadget) (heard : Deliveries) (h : g.rounds.activeRound = none) :
    g.Tracks cr heard := by
  have hno : ∀ r, g.rounds.activeRound ≠ some r := by
    intro r hr
    rw [h] at hr
    cases hr
  exact ⟨fun r hr => absurd hr (hno r), fun r _ hr => absurd hr (hno r), fun r _ hr => absurd hr (hno r)⟩

theorem Tracks.casts (cr : Crypto) (g g' : FinalityGadget) (heard : Deliveries) (hc : CastsVote g g')
    (h : g.Tracks cr heard) : g'.Tracks cr heard := by
  cases hc with
  | none => exact h
  | cast r ty b a hr ha hv =>
    obtain ⟨hour, hepoch, hround⟩ := markVoted_frame r ty
    refine ⟨?_, ?_, ?_⟩
    · rintro r' hr'
      cases hr'
      rw [fresh, hepoch, hround, collector_markVoted]
      exact h.collector r hr
    · rintro r' a' hr' ha'
      cases hr'
      rw [hour] at ha'
      exact h.ours r a' hr ha'
    · rintro r' ty' hr' hvoted
      cases hr'
      rw [voted_markVoted, Bool.or_eq_true, decide_eq_true_iff] at hvoted
      rw [lastOwn_sendVote, hepoch, hround]
      split
      · exact ⟨_, rfl, h.ours r a hr ha, rfl, rfl⟩
      · next hty =>
        have hold : r.voted ty' = true := hvoted.resolve_left fun heq => hty heq.symm
        exact h.own r ty' hr hold

theorem Tracks.started (cr : Crypto) (now : Nat) (g : FinalityGadget) (epoch round : Nat) (h : g.SignsFor) :
    (g.started now epoch round).Tracks cr [] := by
  refine ⟨?_, ?_, ?_⟩
  · rintro r hr
    cases hr
    rfl
  · rintro r a hr ha
    cases hr
    exact h a ha
  · rintro r ty hr hvoted
    cases hr
    cases ty <;> cases hvoted

theorem Tracks.startFinalityRound (cr : Crypto) (now : Nat) (g : FinalityGadget) (h : g.SignsFor)
    (hnone : g.rounds.activeRound = none) : (g.startFinalityRound now).Tracks cr [] := by
  rcases startFinalityRound_cases now g with heq | hcast
  · rw [heq]
    exact Tracks.of_inactive cr g [] hnone
  · exact Tracks.casts cr _ _ [] hcast (Tracks.started cr now g _ _ h)

/-- Whatever round is active after a completion has just been started. -/
theorem Tracks.completeCurrentRound (cr : Crypto) (now : Nat) (g : FinalityGadget) (block : Target)
    (h : g.SignsFor) : (g.completeCurrentRound now (some block)).Tracks cr [] := by
  have hdropped : (g.dropped block).SignsFor := by
    intro a ha
    rw [(dropped_frame g block).2.2] at ha
    exact h a ha
  rcases completeCurrentRound_cases now g block with ⟨-, heq⟩ | ⟨-, g', hg', heq | hcast⟩
  · rw [heq]
    exact Tracks.of_inactive cr _ [] (activeRound_dropped g block)
  · rw [heq, hg']
    exact Tracks.started cr now _ _ _ hdropped
  · refine Tracks.casts cr _ _ [] hcast (Tracks.started cr now g' _ _ ?_)
    rw [hg']
    exact hdropped

/-- A vote for the active round is heard and given to its collector. -/
theorem Tracks.addVote (cr : Crypto) (ord : HashOrder) (g : FinalityGadget) (heard : Deliveries) (v : FinalityVote)
    (r : FinalityRound) (hr : g.rounds.activeRound = some r) (h : g.Tracks cr heard) :
    (g.setActive (r.addVote cr ord v).1).Tracks cr (heard ++ [(ord, v)]) := by
  obtain ⟨hepoch, hround, hvalidators⟩ := VoteCollector.addVote_frame cr ord r.collector v
  refine ⟨?_, ?_, ?_⟩
  · intro r' hr'
    cases hr'
    have hfresh : fresh (r.addVote cr ord v).1 = fresh r := by
      show VoteCollector.new _ _ _ = VoteCollector.new _ _ _
      congr 1
    rw [hfresh, VoteCollector.run, List.foldl_append]
    show (r.collector.addVote cr ord v).1 = _
    conv_lhs => rw [h.collector r hr]
    rfl
  · intro r' a hr' ha
    cases hr'
    exact h.ours r a hr ha
  · intro r' ty hr' hvoted
    cases hr'
    obtain ⟨w, hw, hvoter, he, hn⟩ := h.own r ty hr (by cases ty <;> exact hvoted)
    exact ⟨w, hw, hvoter, he.trans hepoch.symm, hn.trans hround.symm⟩

theorem Tracks.onVote (cr : Crypto) (ord : HashOrder) (now : Nat) (g : FinalityGadget) (heard : Deliveries)
    (v : FinalityVote) (hs : g.SignsFor) (h : g.Tracks cr heard) :
    (g.onVote cr ord now v).1.Tracks cr (g.heardVote cr ord heard v) := by
  unfold heardVote
  cases hr : g.rounds.activeRound with
  | none =>
    simp only
    rw [onVote_elsewhere cr ord now g v fun r hr' => by rw [hr] at hr'; cases hr']
    exact h
  | some r =>
    simp only
    split
    · next hround =>
      rw [onVote_elsewhere cr ord now g v fun r' hr' => by rw [hr] at hr'; cases hr'; exact hround]
      exact h
    · next hround =>
      rcases onVote_given cr ord now g v r hr hround with ⟨hopen, hcast⟩ | ⟨b, js, pair, hne, -, hb, heq⟩
      · rw [if_neg hopen]
        exact Tracks.casts cr _ _ _ hcast (Tracks.addVote cr ord g heard v r hr h)
      · rw [if_pos ⟨hne, by rw [hb]; rfl⟩, heq]
        exact Tracks.completeCurrentRound cr now _ b hs

/-- The invariant of a listener. -/
structure Listener.Inv (cr : Crypto) (s : Listener) : Prop where
  signs : s.gadget.SignsFor
  tracks : s.gadget.Tracks cr s.heard

theorem Listener.inv_onVote (cr : Crypto) (ord : HashOrder) (now : Nat) (s : Listener) (v : FinalityVote)
    (h : s.Inv cr) : (s.onVote cr ord now v).Inv cr :=
  ⟨(sameVoter_onVote cr ord now s.gadget v).signsFor h.signs, Tracks.onVote cr ord now _ _ v h.signs h.tracks⟩

/-- An answer to a request is not heard. -/
theorem Listener.inv_answer (cr : Crypto) (s : Listener) (g : FinalityGadget) (hr : g.rounds = s.gadget.rounds)
    (hs : g.signer = s.gadget.signer) (hv : g.sentVotes = s.gadget.sentVotes) (h : s.Inv cr) :
    Listener.Inv cr ⟨g, s.heard⟩ :=
  ⟨SameVoter.signsFor ⟨hs, by rw [hr]⟩ h.signs, Tracks.congr cr s.gadget g s.heard (by rw [hr]) hs hv h.tracks⟩

/-- **Step.** -/
theorem Listener.inv_step (cr : Crypto) (s : Listener) (call : Call) (h : s.Inv cr) : (s.step cr call).Inv cr := by
  cases call with
  | onBlockImported now b =>
    unfold Listener.step FinalityGadget.step onBlockImported
    simp only
    split
    · next hc =>
      have hnone : s.gadget.rounds.activeRound = none := Option.isNone_iff_eq_none.mp hc.1
      rw [if_pos hc.1]
      exact ⟨(sameVoter_startFinalityRound now _).signsFor h.signs, Tracks.startFinalityRound cr now _ h.signs hnone⟩
    · next hc =>
      have hsome : ¬ s.gadget.rounds.activeRound.isNone = true := fun hn => hc ⟨hn, by simp⟩
      rw [if_neg hsome]
      exact ⟨h.signs, Tracks.congr cr s.gadget _ _ rfl rfl rfl h.tracks⟩
  | onMessage ord now m =>
    cases m with
    | vote v => exact Listener.inv_onVote cr ord now s v h
    | requestVotes epoch round =>
      exact Listener.inv_answer cr s _ (rounds_handleVoteRequest ord s.gadget epoch round)
        (signer_handleVoteRequest ord s.gadget epoch round) (sentVotes_handleVoteRequest ord s.gadget epoch round) h
    | finalized block epoch round =>
      simp only [Listener.step, FinalityGadget.step, onMessage, handleFinalizedAnnouncement]
      split
      · exact ⟨(sameVoter_completeCurrentRound now s.gadget block).signsFor h.signs,
          Tracks.congr cr (s.gadget.completeCurrentRound now (some block)) _ _ rfl rfl rfl
            (Tracks.completeCurrentRound cr now s.gadget block h.signs)⟩
      · exact h
    | catchUpRequest fromRound toRound epoch =>
      exact Listener.inv_answer cr s _ (rounds_handleCatchupRequest ord s.gadget fromRound toRound epoch)
        (signer_handleCatchupRequest ord s.gadget fromRound toRound epoch)
        (sentVotes_handleCatchupRequest ord s.gadget fromRound toRound epoch) h
    | catchUpResponse votes epoch =>
      unfold Listener.step
      simp only
      induction votes generalizing s with
      | nil => exact h
      | cons v votes ih => exact ih (s.onVote cr ord now v) (Listener.inv_onVote cr ord now s v h)
  | tick now delay =>
    have hcasts := tick_casts now delay s.gadget
    exact ⟨(sameVoter_casts _ _ hcasts).signsFor h.signs, Tracks.casts cr _ _ _ hcasts h.tracks⟩
  | updateValidators validators =>
    refine ⟨?_, Tracks.congr cr s.gadget _ _ rfl rfl rfl h.tracks⟩
    intro a ha
    simp only [Listener.step, FinalityGadget.step, updateValidators, RoundManager.updateValidators] at ha ⊢
    split at ha
    · exact (Option.some.inj ha).symm
    · cases ha
  | newEpoch epoch => exact ⟨h.signs, Tracks.congr cr s.gadget _ _ rfl rfl rfl h.tracks⟩

/-- **Run.** -/
theorem tracks_run (cr : Crypto) (signer : FinalitySigner) (validators : Finset AccountId) (genesisHash : Hash)
    (calls : List Call) :
    ((new signer validators genesisHash).run cr calls).Tracks cr (heard cr (new signer validators genesisHash) calls) := by
  have hnew : Listener.Inv cr ⟨new signer validators genesisHash, []⟩ := by
    refine ⟨?_, Tracks.of_inactive cr _ _ rfl⟩
    intro a ha
    simp only [new, RoundManager.new] at ha ⊢
    split at ha
    · exact (Option.some.inj ha).symm
    · cases ha
  have hend := Run.inv_foldl (Listener.step cr) (fun _ _ => True) (Listener.Inv cr)
    (fun s call hs _ => Listener.inv_step cr s call hs) _ calls hnew (Run.meets_of_forall _ _ (fun _ _ => trivial) _ _)
  have htracks := hend.tracks
  rw [Listener.gadget_foldl] at htracks
  exact htracks

/-! ## Own votes that count -/

/-- The votes of our own that were cast in the active round. -/
def ownVotes (g : FinalityGadget) (r : FinalityRound) : List FinalityVote :=
  [VoteType.prevote, .precommit].filterMap fun ty => if r.voted ty then g.lastOwn ty else none

/-- The votes we cast in the active round are recorded in its collector with their targets, and
whoever receives them after the votes the round was given holds what it holds. -/
def OwnVotesCount (cr : Crypto) (g : FinalityGadget) (heard : Deliveries) : Prop :=
  ∀ r, g.rounds.activeRound = some r →
    (∀ ty, r.voted ty = true → ∃ v, g.lastOwn ty = some v ∧ v.epoch = r.epoch ∧ v.round = r.round ∧
      (r.collector.tally ty).voted.find? g.signer.validatorId = some v.target) ∧
    ∀ ord, (fresh r).run cr (heard ++ (g.ownVotes r).map fun v => (ord, v)) = r.collector

/-- The votes we cast in the active round were delivered to it: of each type one of ours that
counts, with the target of the one we cast. -/
def ComeBack (cr : Crypto) (g : FinalityGadget) (heard : Deliveries) : Prop :=
  ∀ r, g.rounds.activeRound = some r → ∀ ty, r.voted ty = true → ∃ v, g.lastOwn ty = some v ∧
    VoteCollector.Delivers cr (fresh r) heard ty g.signer.validatorId v.target

theorem mem_ownVotes (g : FinalityGadget) (r : FinalityRound) (v : FinalityVote) (h : v ∈ g.ownVotes r) :
    r.voted v.voteType = true ∧ g.lastOwn v.voteType = some v := by
  obtain ⟨ty, -, hty⟩ := List.mem_filterMap.mp h
  split at hty
  · next hvoted =>
    rw [lastOwn_type g ty v hty]
    exact ⟨hvoted, hty⟩
  · cases hty

/-- A round records the votes it was given. -/
theorem Tracks.voted_iff {cr : Crypto} {g : FinalityGadget} {heard : Deliveries} (h : g.Tracks cr heard)
    (r : FinalityRound) (hr : g.rounds.activeRound = some r) (ty : VoteType) (a : AccountId) (b : Target) :
    (r.collector.tally ty).voted.find? a = some b ↔ VoteCollector.Delivers cr (fresh r) heard ty a b := by
  have hempty : ((fresh r).tally ty).voted.find? a = none := by cases ty <;> rfl
  conv_lhs => rw [h.collector r hr]
  rw [VoteCollector.voted_run_iff, hempty]
  simp

/-- Where no vote of ours is handed back, none of ours is recorded, whatever we have cast. -/
theorem unrecorded_of_silent (cr : Crypto) (signer : FinalitySigner) (validators : Finset AccountId)
    (genesisHash : Hash) (calls : List Call) (r : FinalityRound)
    (hr : ((new signer validators genesisHash).run cr calls).rounds.activeRound = some r)
    (hsilent : ∀ d ∈ heard cr (new signer validators genesisHash) calls,
      d.2.voter ≠ ((new signer validators genesisHash).run cr calls).signer.validatorId) (ty : VoteType) :
    (r.collector.tally ty).voted.find? ((new signer validators genesisHash).run cr calls).signer.validatorId =
      none := by
  have h := tracks_run cr signer validators genesisHash calls
  rw [Option.eq_none_iff_forall_ne_some]
  intro b hb
  obtain ⟨pre, d, post, hsplit, -, -, hvoter, -⟩ := (h.voted_iff r hr ty _ b).mp hb
  exact hsilent d (by rw [hsplit]; simp) hvoter

/-- **Own votes.**  In every state of a run, the votes the gadget cast in the active round count
there exactly if the network has handed them back. -/
theorem own_votes_count_iff (cr : Crypto) (signer : FinalitySigner) (validators : Finset AccountId)
    (genesisHash : Hash) (calls : List Call) :
    OwnVotesCount cr ((new signer validators genesisHash).run cr calls)
        (heard cr (new signer validators genesisHash) calls) ↔
      ComeBack cr ((new signer validators genesisHash).run cr calls)
        (heard cr (new signer validators genesisHash) calls) := by
  have h := tracks_run cr signer validators genesisHash calls
  generalize (new signer validators genesisHash).run cr calls = g at h ⊢
  generalize heard cr (new signer validators genesisHash) calls = l at h ⊢
  constructor
  · intro hcount r hr ty hvoted
    obtain ⟨v, hv, -, -, hrec⟩ := (hcount r hr).1 ty hvoted
    exact ⟨v, hv, (h.voted_iff r hr ty _ _).mp hrec⟩
  · intro hback r hr
    have hrec : ∀ ty v, r.voted ty = true → g.lastOwn ty = some v →
        (r.collector.tally ty).voted.find? g.signer.validatorId = some v.target := by
      intro ty v hvoted hv
      obtain ⟨w, hw, hdelivers⟩ := hback r hr ty hvoted
      rw [hv] at hw
      cases hw
      exact (h.voted_iff r hr ty _ _).mpr hdelivers
    refine ⟨?_, ?_⟩
    · intro ty hvoted
      obtain ⟨v, hv, -, hepoch, hround⟩ := h.own r ty hr hvoted
      exact ⟨v, hv, hepoch, hround, hrec ty v hvoted hv⟩
    · intro ord
      rw [VoteCollector.run, List.foldl_append]
      show ((fresh r).run cr l).run cr _ = _
      rw [← h.collector r hr]
      refine VoteCollector.run_of_voted cr r.collector _ fun d hd => ?_
      obtain ⟨v, hv, rfl⟩ := List.mem_map.mp hd
      obtain ⟨hvoted, hlast⟩ := mem_ownVotes g r v hv
      obtain ⟨w, hw, hvoter, -, -⟩ := h.own r v.voteType hr hvoted
      rw [hlast] at hw
      cases hw
      rw [hvoter]
      exact hrec v.voteType v hvoted hlast

/-- A validator imports block 1: it has prevoted, and its round records no vote of it. -/
theorem own_vote_uncounted :
    ¬ ∀ (cr : Crypto) (signer : FinalitySigner) (validators : Finset AccountId) (genesisHash : Hash)
      (calls : List Call), ((new signer validators genesisHash).run cr calls).isValidator = true →
        OwnVotesCount cr ((new signer validators genesisHash).run cr calls)
          (heard cr (new signer validators genesisHash) calls) := by
  intro h
  have hcount := h Crypto.sample (sampleSigner ⟨1⟩) sampleValidators ⟨0⟩ [.onBlockImported 0 ⟨1, ⟨1⟩⟩] (by decide)
  have hround : (((new (sampleSigner ⟨1⟩) sampleValidators ⟨0⟩).run Crypto.sample
      [.onBlockImported 0 ⟨1, ⟨1⟩⟩]).rounds.activeRound.map fun r =>
        (r.voted .prevote, (r.collector.tally .prevote).voted.find? ⟨1⟩)) = some (true, none) := by decide
  generalize heard Crypto.sample (new (sampleSigner ⟨1⟩) sampleValidators ⟨0⟩) [.onBlockImported 0 ⟨1, ⟨1⟩⟩] = l
    at hcount
  cases hr : ((new (sampleSigner ⟨1⟩) sampleValidators ⟨0⟩).run Crypto.sample
      [.onBlockImported 0 ⟨1, ⟨1⟩⟩]).rounds.activeRound with
  | none =>
    rw [hr] at hround
    cases hround
  | some r =>
    rw [hr, Option.map_some, Option.some_inj, Prod.mk.injEq] at hround
    obtain ⟨v, -, -, -, hrec⟩ := (hcount r hr).1 .prevote hround.1
    have hid : ((new (sampleSigner ⟨1⟩) sampleValidators ⟨0⟩).run Crypto.sample
        [.onBlockImported 0 ⟨1, ⟨1⟩⟩]).signer.validatorId = ⟨1⟩ := by decide
    rw [hid, hround.2] at hrec
    cases hrec

end FinalityGadget

end Kratos
