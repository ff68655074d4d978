import Kratos.Finality.Collector
import Kratos.Finality.Equivocation
import Kratos.Finality.Integration
import Kratos.Lib.Quorum

/-!
# What an honest gadget rests on

An honest node acts on what is known of the other nodes: the ballots they have cast and the
blocks of their chains (`Known`).  The collector of its round holds only votes that honest voters
have cast (`CollectorInv`), so a supermajority in it is a certificate.  A prevote of its own is
for a block of its chain, a precommit for a block that a quorum has prevoted, and an announcement
for one that a quorum has precommitted (`GadgetInv`).  Every transition keeps this
(`GadgetInv.transition`), and more knowledge does (`GadgetInv.mono`).
-/

namespace Kratos

/-- What a vote says, apart from who says it. -/
structure FinalityBallot where
  voteType : VoteType
  epoch : Nat
  round : Nat
  target : Target
deriving DecidableEq, Repr

/-- One vote of a kind is due in a round. -/
def FinalityBallot.slot (b : FinalityBallot) : VoteType × Nat × Nat := (b.voteType, b.epoch, b.round)

def FinalityVote.ballot (v : FinalityVote) : FinalityBallot := ⟨v.voteType, v.epoch, v.round, v.target⟩

/-! ## Collectors -/

namespace VoteCollector

/-- A vote in a collector was there before, or is the one just added and verified. -/
theorem mem_votesFor_addVote (cr : Crypto) (ord : HashOrder) (c : VoteCollector) (vote v : FinalityVote)
    (ty : VoteType) (b : Target) (h : v ∈ ((c.addVote cr ord vote).1.tally ty).votesFor b) :
    v ∈ (c.tally ty).votesFor b ∨ (v = vote ∧ vote.verify cr = true) := by
  have hadded : ∀ t t' : Tally, t.add ord vote = .added t' → v ∈ t'.votesFor b → v ∈ t.votesFor b ∨ v = vote := by
    intro t t' hadd hv
    rw [(Tally.add_added ord t t' vote hadd).2.1 b] at hv
    split at hv
    · rcases List.mem_append.mp hv with hold | hnew
      · exact Or.inl hold
      · exact Or.inr (List.mem_singleton.mp hnew)
    · exact Or.inl hv
  have heffect := addVote_effect cr ord c vote
  generalize c.addVote cr ord vote = r at h heffect
  cases heffect with
  | ignored => exact Or.inl h
  | reported => exact Or.inl (by cases ty <;> exact h)
  | prevote t haccepted hadd =>
    obtain ⟨s, heq⟩ := checkPrevoteThreshold_with { c with prevotes := t }
    rw [heq] at h
    cases ty with
    | prevote => exact (hadded _ t hadd h).imp_right fun hv => ⟨hv, haccepted.verified⟩
    | precommit => exact Or.inl h
  | precommit t haccepted hstate hadd =>
    obtain ⟨s, heq⟩ := checkPrecommitThreshold_with { c with precommits := t }
    rw [heq] at h
    cases ty with
    | prevote => exact Or.inl h
    | precommit => exact (hadded _ t hadd h).imp_right fun hv => ⟨hv, haccepted.verified⟩

/-- A new proof is of a vote that was counted and of the verified vote just added. -/
theorem mem_equivocations_addVote (cr : Crypto) (ord : HashOrder) (c : VoteCollector) (vote : FinalityVote)
    (h : c.Inv cr) (e : EquivocationProof) (he : e ∈ (c.addVote cr ord vote).1.equivocations) :
    e ∈ c.equivocations ∨ ∃ b, ∃ w ∈ (c.tally vote.voteType).votesFor b, (e.validator = vote.voter ∧
      w.voter = vote.voter) ∧ vote.verify cr = true ∧ w.ballot.slot = vote.ballot.slot ∧ w.ballot ≠ vote.ballot := by
  have heffect := addVote_effect cr ord c vote
  generalize c.addVote cr ord vote = r at he heffect
  cases heffect with
  | ignored => exact Or.inl he
  | reported existing b haccepted hvoted hne hexisting hvoter =>
    rcases List.mem_append.mp he with hold | hnew
    · exact Or.inl hold
    · obtain rfl := List.mem_singleton.mp hnew
      have hinv : (c.tally vote.voteType).Inv (Accepted cr c.epoch c.round c.validators vote.voteType) := by
        cases vote.voteType with
        | prevote => exact h.prevotes
        | precommit => exact h.precommits
      obtain ⟨hcounted, htarget, -⟩ := hinv.counted b existing hexisting
      refine Or.inr ⟨b, existing, hexisting, ⟨rfl, hvoter⟩, haccepted.verified, ?_, ?_⟩
      · unfold FinalityBallot.slot FinalityVote.ballot
        rw [hcounted.voteType, hcounted.epoch, hcounted.round, haccepted.epoch, haccepted.round]
      · intro heq
        exact hne (htarget.symm.trans (congrArg FinalityBallot.target heq))
  | prevote t haccepted hadd =>
    obtain ⟨s, heq⟩ := checkPrevoteThreshold_with { c with prevotes := t }
    rw [heq] at he
    exact Or.inl he
  | precommit t haccepted hstate hadd =>
    obtain ⟨s, heq⟩ := checkPrecommitThreshold_with { c with precommits := t }
    rw [heq] at he
    exact Or.inl he

/-- The precommit phase has a block with a supermajority of prevotes. -/
def PrevoteBacked (c : VoteCollector) : Prop :=
  c.state = .precommitting → ∃ b, hasSupermajority (c.prevotes.count b) c.validatorCount = true

theorem checkPrevoteThreshold_supermajority (c : VoteCollector) (hold : c.state ≠ .precommitting)
    (hs : (checkPrevoteThreshold c).state = .precommitting) :
    ∃ b, hasSupermajority (c.prevotes.count b) c.validatorCount = true := by
  unfold checkPrevoteThreshold at hs
  split at hs
  · exact absurd hs hold
  · split at hs
    · exact absurd hs hold
    · next b hb =>
      split at hs
      · next hsup => exact ⟨b, hsup⟩
      · exact absurd hs hold

theorem prevoteBacked_addVote (cr : Crypto) (ord : HashOrder) (c : VoteCollector) (vote : FinalityVote)
    (h : c.PrevoteBacked) : (c.addVote cr ord vote).1.PrevoteBacked := by
  have hcount : (c.addVote cr ord vote).1.validatorCount = c.validatorCount := by
    unfold validatorCount
    rw [(addVote_frame cr ord c vote).2.2]
  intro hs
  rw [hcount]
  by_cases hold : c.state = .precommitting
  · obtain ⟨b, hb⟩ := h hold
    exact ⟨b, hasSupermajority_mono _ _ _ (count_le_apply cr c (.addVote ord vote) .prevote b) hb⟩
  · -- the vote moved the state, so it is a prevote that reached the threshold
    rcases addVote_cases cr ord c vote with ⟨es, r, hadd, -⟩ | ⟨t, hadd, -, -⟩ | ⟨t, hadd, -, -, -⟩
    · rw [hadd] at hs
      exact absurd hs hold
    · rw [hadd] at hs
      obtain ⟨b, hb⟩ := checkPrevoteThreshold_supermajority { c with prevotes := t } hold hs
      refine ⟨b, ?_⟩
      rw [hadd]
      rcases checkPrevoteThreshold_eq { c with prevotes := t } with heq | ⟨-, heq⟩ <;>
        · rw [heq]
          exact hb
    · rw [hadd] at hs
      rcases checkPrecommitThreshold_eq { c with precommits := t } with ⟨heq, -⟩ | ⟨-, heq, -⟩
      · rw [heq] at hs
        exact absurd hs hold
      · rw [heq] at hs
        cases hs

/-- The best prevote target of the precommit phase has a supermajority. -/
theorem PrevoteBacked.best {cr : Crypto} {c : VoteCollector} (h : c.PrevoteBacked) (hinv : c.Inv cr)
    (hs : c.state = .precommitting) (b : Target) (hb : c.prevotes.best = some b) :
    hasSupermajority (c.prevotes.count b) c.validatorCount = true := by
  obtain ⟨m, hm⟩ := h hs
  have hle := hinv.prevotes.best m
  rw [hb] at hle
  exact hasSupermajority_mono _ _ _ hle hm

/-- **Certificate.**  A supermajority of counted votes, each cast if its voter is honest. -/
theorem certified_of_supermajority {cr : Crypto} {c : VoteCollector} (h : c.Inv cr) (byz : Finset AccountId)
    (cast : AccountId → FinalityBallot → Prop) (ty : VoteType) (b : Target)
    (hheld : ∀ v ∈ (c.tally ty).votesFor b, v.voter ∉ byz → cast v.voter v.ballot)
    (hsup : hasSupermajority ((c.tally ty).count b) c.validatorCount = true) :
    Quorum.Certified c.validators byz (quorum c.validators.card) cast ⟨ty, c.epoch, c.round, b⟩ := by
  have hinv : (c.tally ty).Inv (Accepted cr c.epoch c.round c.validators ty) := by
    cases ty with
    | prevote => exact h.prevotes
    | precommit => exact h.precommits
  refine ⟨(c.tally ty).voters b, ?_, ?_, ?_⟩
  · intro a ha
    obtain ⟨v, hv, rfl⟩ := (Tally.mem_voters _ b a).mp ha
    exact (hinv.counted b v hv).1.voter
  · rw [Tally.card_voters hinv]
    exact ((hasSupermajority_iff _ _).mp hsup).2
  · intro a ha hnot
    obtain ⟨v, hv, rfl⟩ := (Tally.mem_voters _ b a).mp ha
    obtain ⟨haccepted, htarget, -⟩ := hinv.counted b v hv
    have hcast := hheld v hv hnot
    unfold FinalityVote.ballot at hcast
    rwa [haccepted.voteType, haccepted.epoch, haccepted.round, htarget] at hcast

end VoteCollector

/-! ## What is known of the nodes -/

/-- The ballots each account has cast, and the blocks of its chain. -/
structure Known where
  cast : AccountId → FinalityBallot → Prop
  chain : AccountId → Target → Prop

instance : Preorder Known where
  le k k' := (∀ a b, k.cast a b → k'.cast a b) ∧ ∀ a b, k.chain a b → k'.chain a b
  le_refl k := ⟨fun _ _ h => h, fun _ _ h => h⟩
  le_trans k k' k'' h h' := ⟨fun a b hb => h'.1 a b (h.1 a b hb), fun a b hb => h'.2 a b (h.2 a b hb)⟩

/-- The prevote for the same target in the same round. -/
def FinalityBallot.prevote (b : FinalityBallot) : FinalityBallot := { b with voteType := .prevote }

/-- A quorum of the validators has cast the ballot. -/
abbrev HasQuorum (validators byz : Finset AccountId) (k : Known) (b : FinalityBallot) : Prop :=
  Quorum.Certified validators byz (quorum validators.card) k.cast b

variable {cr : Crypto} {validators byz : Finset AccountId} {k k' : Known}

theorem HasQuorum.mono {b : FinalityBallot} (h : HasQuorum validators byz k b) (hk : k ≤ k') :
    HasQuorum validators byz k' b :=
  Quorum.Certified.mono h fun a _ hcast => hk.1 a b hcast

/-- The collector of a round holds only votes that honest voters have cast. -/
structure CollectorInv (cr : Crypto) (validators byz : Finset AccountId) (k : Known) (c : VoteCollector) : Prop where
  set : c.validators = validators
  inv : c.Inv cr
  backed : c.PrevoteBacked
  held : ∀ ty b, ∀ v ∈ (c.tally ty).votesFor b, v.voter ∉ byz → k.cast v.voter v.ballot
  accused : ∀ e ∈ c.equivocations, e.validator ∉ byz → ∃ b b', k.cast e.validator b ∧ k.cast e.validator b' ∧
    b.slot = b'.slot ∧ b ≠ b'

namespace CollectorInv

theorem new (cr : Crypto) (validators byz : Finset AccountId) (k : Known) (epoch round : Nat) :
    CollectorInv cr validators byz k (.new epoch round validators) := by
  refine ⟨rfl, VoteCollector.inv_new cr epoch round validators, nofun, ?_, ?_⟩
  · intro ty b v hv
    cases ty <;> cases hv
  · intro e he
    cases he

theorem mono {c : VoteCollector} (h : CollectorInv cr validators byz k c) (hk : k ≤ k') :
    CollectorInv cr validators byz k' c :=
  ⟨h.set, h.inv, h.backed, fun ty b v hv hnot => hk.1 _ _ (h.held ty b v hv hnot), fun e he hnot =>
    let ⟨b, b', hb, hb', hslot, hne⟩ := h.accused e he hnot
    ⟨b, b', hk.1 _ _ hb, hk.1 _ _ hb', hslot, hne⟩⟩

theorem addVote {c : VoteCollector} (h : CollectorInv cr validators byz k c) (ord : HashOrder) (v : FinalityVote)
    (hv : v.verify cr = true → v.voter ∉ byz → k.cast v.voter v.ballot) :
    CollectorInv cr validators byz k (c.addVote cr ord v).1 := by
  refine ⟨(VoteCollector.addVote_frame cr ord c v).2.2.trans h.set,
    VoteCollector.addVote_inv cr ord c v h.inv, VoteCollector.prevoteBacked_addVote cr ord c v h.backed, ?_, ?_⟩
  · intro ty b w hw hnot
    rcases VoteCollector.mem_votesFor_addVote cr ord c v w ty b hw with hold | ⟨rfl, hverify⟩
    · exact h.held ty b w hold hnot
    · exact hv hverify hnot
  · intro e he hnot
    rcases VoteCollector.mem_equivocations_addVote cr ord c v h.inv e he with hold | ⟨b, w, hw, hvoter, hverify, hslot, hne⟩
    · exact h.accused e hold hnot
    · rw [hvoter.1] at hnot ⊢
      have hcast := h.held v.voteType b w hw (hvoter.2 ▸ hnot)
      rw [hvoter.2] at hcast
      exact ⟨w.ballot, v.ballot, hcast, hv hverify hnot, hslot, hne⟩

theorem hasQuorum {c : VoteCollector} (h : CollectorInv cr validators byz k c) (ty : VoteType) (b : Target)
    (hsup : hasSupermajority ((c.tally ty).count b) c.validatorCount = true) :
    HasQuorum validators byz k ⟨ty, c.epoch, c.round, b⟩ := by
  have hcertified := VoteCollector.certified_of_supermajority h.inv byz k.cast ty b (h.held ty b) hsup
  rwa [h.set] at hcertified

/-- A completed round has a quorum of precommits for its result. -/
theorem finalized {c : VoteCollector} (h : CollectorInv cr validators byz k c) (hs : c.state = .completed)
    (b : Target) (hb : c.finalizedTarget = some b) : HasQuorum validators byz k ⟨.precommit, c.epoch, c.round, b⟩ := by
  obtain ⟨b', hb', hsup⟩ := VoteCollector.supported_of_completed cr c h.inv hs
  obtain rfl : b' = b := Option.some.inj (hb'.symm.trans hb)
  exact h.hasQuorum .precommit b' hsup.supermajority

end CollectorInv

/-! ## The gadget of an honest node -/

/-- What an honest node's gadget has said, and what it may say next, rests on what is known. -/
structure GadgetInv (cr : Crypto) (validators byz : Finset AccountId) (k : Known) (a : AccountId)
    (g : FinalityGadget) : Prop where
  set : g.rounds.validators = validators
  active : ∀ r, g.rounds.activeRound = some r → CollectorInv cr validators byz k r.collector
  pending : ∀ b ∈ g.pendingBlocks, k.chain a b
  prevoted : ∀ v ∈ g.sentVotes, v.voteType = .prevote → k.chain a v.target
  precommitted : ∀ v ∈ g.sentVotes, v.voteType = .precommit → HasQuorum validators byz k v.ballot.prevote
  announced : ∀ b epoch round, FinalityMessage.finalized b epoch round ∈ g.broadcasted →
    HasQuorum validators byz k ⟨.precommit, epoch, round, b⟩

/-- What a call may bring to an honest node. -/
structure SoundCall (cr : Crypto) (validators byz : Finset AccountId) (k : Known) (a : AccountId)
    (call : FinalityGadget.Call) : Prop where
  votes : ∀ v ∈ call.votes, v.verify cr = true → v.voter ∉ byz → k.cast v.voter v.ballot
  imported : ∀ b, call.imported? = some b → k.chain a b
  validators : ∀ w, call.validators? = some w → w = validators

namespace GadgetInv

open FinalityGadget

variable {a : AccountId} {g g' : FinalityGadget}

theorem new (cr : Crypto) (byz : Finset AccountId) (k : Known) (a : AccountId) (signer : FinalitySigner)
    (validators : Finset AccountId) (genesisHash : Hash) :
    GadgetInv cr validators byz k a (.new signer validators genesisHash) := by
  refine ⟨rfl, ?_, ?_, ?_, ?_, ?_⟩
  · intro r hr
    cases hr
  · intro b hb
    cases hb
  · intro v hv
    cases hv
  · intro v hv
    cases hv
  · intro b epoch round hb
    cases hb

theorem mono (h : GadgetInv cr validators byz k a g) (hk : k ≤ k') : GadgetInv cr validators byz k' a g :=
  ⟨h.set, fun r hr => (h.active r hr).mono hk, fun b hb => hk.2 a b (h.pending b hb),
    fun v hv hty => hk.2 a _ (h.prevoted v hv hty), fun v hv hty => (h.precommitted v hv hty).mono hk,
    fun b epoch round hb => (h.announced b epoch round hb).mono hk⟩

/-- A gadget with the same votes and announcements, and no more pending blocks. -/
theorem congr (h : GadgetInv cr validators byz k a g) (hrounds : g'.rounds.validators = validators)
    (hactive : ∀ r, g'.rounds.activeRound = some r → CollectorInv cr validators byz k r.collector)
    (hpending : ∀ b ∈ g'.pendingBlocks, k.chain a b) (hsent : g'.sentVotes = g.sentVotes)
    (hannounced : ∀ b epoch round, FinalityMessage.finalized b epoch round ∈ g'.broadcasted →
      FinalityMessage.finalized b epoch round ∈ g.broadcasted) : GadgetInv cr validators byz k a g' :=
  ⟨hrounds, hactive, hpending, hsent ▸ h.prevoted, hsent ▸ h.precommitted,
    fun b epoch round hb => h.announced b epoch round (hannounced b epoch round hb)⟩

/-- A vote of ours is for a block of our chain, or for one that a quorum has prevoted. -/
theorem cast (h : GadgetInv cr validators byz k a g) (r : FinalityRound) (ty : VoteType) (b : Target) (id : AccountId)
    (hr : g.rounds.activeRound = some r) (hfor : VotesFor g r ty b) :
    GadgetInv cr validators byz k a (g.cast r ty b id) := by
  have hsent : (g.cast r ty b id).sentVotes = g.sentVotes ++ [r.ownVote g.signer ty b id] :=
    sentVotes_append _ (.vote _) g.broadcasted rfl
  have hactive := h.active r hr
  refine ⟨h.set, ?_, h.pending, ?_, ?_, ?_⟩
  · rintro r' ⟨⟩
    rw [collector_markVoted]
    exact hactive
  · intro v hv hty
    rw [hsent, List.mem_append, List.mem_singleton] at hv
    rcases hv with hv | rfl
    · exact h.prevoted v hv hty
    · cases hfor with
      | pending _ hs hb => exact h.pending b hb
      | best _ hs hb => cases hty
  · intro v hv hty
    rw [hsent, List.mem_append, List.mem_singleton] at hv
    rcases hv with hv | rfl
    · exact h.precommitted v hv hty
    · cases hfor with
      | pending _ hs hb => cases hty
      | best _ hs hb => exact hactive.hasQuorum .prevote b (hactive.backed.best hactive.inv hs b hb)
  · intro b' epoch round hb'
    rcases List.mem_append.mp hb' with hold | hnew
    · exact h.announced b' epoch round hold
    · cases List.mem_singleton.mp hnew

theorem announce (h : GadgetInv cr validators byz k a g) (r : FinalityRound) (b : Target)
    (hr : g.rounds.activeRound = some r) (hs : r.state = .completed) (hb : r.finalizedTarget = some b) :
    GadgetInv cr validators byz k a (g.announce r b) := by
  have hsent : (g.announce r b).sentVotes = g.sentVotes := by
    rw [sentVotes_append _ (.finalized b r.epoch r.round) g.broadcasted rfl]
    exact List.append_nil _
  refine ⟨h.set, h.active, h.pending, hsent ▸ h.prevoted, hsent ▸ h.precommitted, ?_⟩
  intro b' epoch round hb'
  rcases List.mem_append.mp hb' with hold | hnew
  · exact h.announced b' epoch round hold
  · cases List.mem_singleton.mp hnew
    exact (h.active r hr).finalized hs b hb

theorem dropped (h : GadgetInv cr validators byz k a g) (b : Target) :
    GadgetInv cr validators byz k a (g.dropped b) := by
  refine h.congr ?_ ?_ (fun c hc => h.pending c (List.mem_filter.mp hc).1) rfl fun _ _ _ hb => hb
  · unfold FinalityGadget.dropped RoundManager.completeRound
    cases g.rounds.activeRound <;> exact h.set
  · intro r hr
    rw [activeRound_dropped] at hr
    cases hr

/-- **Transition.** -/
theorem transition {call : Call} (hcall : SoundCall cr validators byz k a call)
    (htrans : Transition cr call g g') (h : GadgetInv cr validators byz k a g) :
    GadgetInv cr validators byz k a g' := by
  cases htrans with
  | queue b hb =>
    refine h.congr h.set h.active ?_ rfl fun _ _ _ hb => hb
    intro c hc
    rcases List.mem_append.mp hc with hold | hnew
    · exact h.pending c hold
    · rw [List.mem_singleton.mp hnew]
      exact hcall.imported b hb
  | start now round =>
    refine h.congr h.set ?_ h.pending rfl fun _ _ _ hb => hb
    rintro r ⟨⟩
    show CollectorInv cr validators byz k (.new g.rounds.currentEpoch round g.rounds.validators)
    rw [h.set]
    exact .new cr validators byz k g.rounds.currentEpoch round
  | cast r ty b id hr ha hv hfor => exact h.cast r ty b id hr hfor
  | give ord v r hv hr =>
    refine h.congr h.set ?_ h.pending rfl fun _ _ _ hb => hb
    rintro r' ⟨⟩
    exact (h.active r hr).addVote ord v (hcall.votes v hv)
  | announce r b hr hs hb => exact h.announce r b hr hs hb
  | conclude r b hr hs hb => exact h.dropped b
  | obey b hb => exact h.dropped b
  | forget b hb =>
    exact h.congr h.set h.active (fun c hc => h.pending c (List.mem_filter.mp hc).1) rfl fun _ _ _ hb => hb
  | answer r ord epoch hr =>
    refine h.congr h.set h.active h.pending ?_ ?_
    · rw [sentVotes_append _ (.catchUpResponse _ epoch) g.broadcasted rfl]
      exact List.append_nil _
    · intro b e n hb
      rcases List.mem_append.mp hb with hold | hnew
      · exact hold
      · cases List.mem_singleton.mp hnew
  | validators w hw => exact h.congr (hcall.validators w hw) h.active h.pending rfl fun _ _ _ hb => hb
  | epoch epoch he => exact h.congr h.set h.active h.pending rfl fun _ _ _ hb => hb

theorem acts {e : FinalityNode.Event} {chain : List Target} (hacts : FinalityNode.Acts cr e chain g g')
    (hcall : ∀ call, e.call? = some call → (∀ b, call.imported? = some b → b ∈ chain) →
      SoundCall cr validators byz k a call)
    (h : GadgetInv cr validators byz k a g) : GadgetInv cr validators byz k a g' := by
  cases hacts with
  | idle => exact h
  | calls call he hchain =>
    exact step_keeps (fun g => GadgetInv cr validators byz k a g)
      (fun _ _ htrans hg => transition (hcall call he hchain) htrans hg) g h
  | sends => exact h.congr h.set h.active h.pending rfl fun _ _ _ hb => hb

end GadgetInv

end Kratos
