import Kratos.Finality.Gadget
import Kratos.Lib.Run

/-!
# What moves the finalized block

The active round's collector satisfies its invariant in every reachable state
(`activeInv_run`).  So a vote that moves the last finalized block completes a
round whose verified precommits for that block are a supermajority
(`deliveries_supported`), and the block is the vote's own target
(`finalizedTarget_of_completes`).  An announcement moves it without any vote.
-/

namespace Kratos

namespace FinalityGadget

/-! ## The active round -/

def ActiveInv (cr : Crypto) (g : FinalityGadget) : Prop :=
  ∀ r, g.rounds.activeRound = some r → r.collector.Inv cr

theorem collector_markVoted (r : FinalityRound) (ty : VoteType) : (r.markVoted ty).collector = r.collector := by
  cases ty <;> rfl

theorem activeInv_setActive (cr : Crypto) (g : FinalityGadget) (r : FinalityRound)
    (h : r.collector.Inv cr) : (g.setActive r).ActiveInv cr := by
  intro r' hr'
  cases hr'
  exact h

theorem activeInv_casts (cr : Crypto) (g g' : FinalityGadget) (h : CastsVote g g')
    (hg : g.ActiveInv cr) : g'.ActiveInv cr := by
  cases h with
  | none => exact hg
  | cast r ty b a hr ha hv =>
    refine activeInv_setActive cr g (r.markVoted ty) ?_
    rw [collector_markVoted]
    exact hg r hr

theorem activeInv_started (cr : Crypto) (now : Nat) (g : FinalityGadget) (epoch round : Nat) :
    (g.started now epoch round).ActiveInv cr := by
  intro r hr
  cases hr
  exact VoteCollector.inv_new cr epoch round g.rounds.validators

theorem activeRound_dropped (g : FinalityGadget) (block : Target) :
    (g.dropped block).rounds.activeRound = none := by
  unfold dropped RoundManager.completeRound
  simp only
  split
  · next h => exact h
  · rfl

/-- Whatever round is active after a completion has just been started. -/
theorem activeInv_completeCurrentRound (cr : Crypto) (now : Nat) (g : FinalityGadget) (block : Target) :
    (g.completeCurrentRound now (some block)).ActiveInv cr := by
  rcases completeCurrentRound_cases now g block with ⟨-, heq⟩ | ⟨-, g', hg', heq | hcast⟩
  · rw [heq]
    intro r hr
    rw [activeRound_dropped] at hr
    cases hr
  · rw [heq, hg']
    exact activeInv_started cr now _ _ _
  · exact activeInv_casts cr _ _ hcast (activeInv_started cr now _ _ _)

theorem activeInv_onVote (cr : Crypto) (ord : HashOrder) (now : Nat) (g : FinalityGadget)
    (vote : FinalityVote) (hg : g.ActiveInv cr) : (g.onVote cr ord now vote).1.ActiveInv cr := by
  rcases onVote_cases cr ord now g vote with heq | ⟨r, hr, hcast⟩ | ⟨r, b, js, pair, hr, -, -, -, heq⟩
  · rw [heq]
    exact hg
  · refine activeInv_casts cr _ _ hcast (activeInv_setActive cr g _ ?_)
    exact VoteCollector.addVote_inv cr ord r.collector vote (hg r hr)
  · rw [heq]
    exact activeInv_completeCurrentRound cr now _ b

theorem activeInv_votes (cr : Crypto) (ord : HashOrder) (now : Nat) (g : FinalityGadget)
    (votes : List FinalityVote) (hg : g.ActiveInv cr) :
    (g.handleCatchupResponse cr ord now votes).ActiveInv cr := by
  unfold handleCatchupResponse
  induction votes generalizing g with
  | nil => exact hg
  | cons v votes ih => exact ih _ (activeInv_onVote cr ord now g v hg)

theorem rounds_sendAllVotes (ord : HashOrder) (g : FinalityGadget) (r : FinalityRound) (epoch : Nat) :
    (g.sendAllVotes ord r epoch).rounds = g.rounds := by
  unfold sendAllVotes
  simp only
  split <;> rfl

/-- Requests are answered without a change to the rounds. -/
theorem rounds_handleVoteRequest (ord : HashOrder) (g : FinalityGadget) (epoch round : Nat) :
    (g.handleVoteRequest ord epoch round).rounds = g.rounds := by
  unfold handleVoteRequest
  split
  · rfl
  · split
    · exact rounds_sendAllVotes ord g _ epoch
    · rfl

theorem rounds_handleCatchupRequest (ord : HashOrder) (g : FinalityGadget) (fromRound toRound epoch : Nat) :
    (g.handleCatchupRequest ord fromRound toRound epoch).rounds = g.rounds := by
  unfold handleCatchupRequest
  split
  · rfl
  · split
    · exact rounds_sendAllVotes ord g _ epoch
    · rfl

theorem activeInv_of_rounds (cr : Crypto) (g g' : FinalityGadget) (h : g'.rounds = g.rounds)
    (hg : g.ActiveInv cr) : g'.ActiveInv cr := by
  unfold ActiveInv
  rw [h]
  exact hg

theorem activeInv_startFinalityRound (cr : Crypto) (now : Nat) (g : FinalityGadget) (hg : g.ActiveInv cr) :
    (g.startFinalityRound now).ActiveInv cr := by
  rcases startFinalityRound_cases now g with heq | hcast
  · rw [heq]
    exact hg
  · exact activeInv_casts cr _ _ hcast (activeInv_started cr now _ _ _)

/-- **Step.**  Every call keeps the active round's invariant. -/
theorem activeInv_step (cr : Crypto) (g : FinalityGadget) (call : Call) (hg : g.ActiveInv cr) :
    (g.step cr call).ActiveInv cr := by
  cases call with
  | onBlockImported now b =>
    unfold step onBlockImported
    simp only
    split
    · exact activeInv_startFinalityRound cr now _ hg
    · exact hg
  | onMessage ord now m =>
    cases m with
    | vote v => exact activeInv_onVote cr ord now g v hg
    | requestVotes epoch round =>
      exact activeInv_of_rounds cr g _ (rounds_handleVoteRequest ord g epoch round) hg
    | finalized block epoch round =>
      simp only [step, onMessage, handleFinalizedAnnouncement]
      split
      · exact activeInv_completeCurrentRound cr now g block
      · exact hg
    | catchUpRequest fromRound toRound epoch =>
      exact activeInv_of_rounds cr g _ (rounds_handleCatchupRequest ord g fromRound toRound epoch) hg
    | catchUpResponse votes epoch => exact activeInv_votes cr ord now g votes hg
  | tick now delay => exact activeInv_casts cr g _ (tick_casts now delay g) hg
  | updateValidators validators => exact hg
  | newEpoch epoch => exact hg

/-- **Run.** -/
theorem activeInv_run (cr : Crypto) (signer : FinalitySigner) (validators : Finset AccountId)
    (genesisHash : Hash) (calls : List Call) : ((new signer validators genesisHash).run cr calls).ActiveInv cr := by
  have hnew : (new signer validators genesisHash).ActiveInv cr := by
    intro r hr
    cases hr
  generalize new signer validators genesisHash = g at *
  unfold run
  induction calls generalizing g with
  | nil => exact hnew
  | cons call calls ih => exact ih _ (activeInv_step cr g call hnew)

/-! ## Moving the finalized block -/

theorem lastFinalized_casts (g g' : FinalityGadget) (h : CastsVote g g') :
    g'.lastFinalized = g.lastFinalized := by
  cases h <;> rfl

theorem lastFinalized_startFinalityRound (now : Nat) (g : FinalityGadget) :
    (g.startFinalityRound now).lastFinalized = g.lastFinalized := by
  rcases startFinalityRound_cases now g with heq | hcast
  · rw [heq]
  · rw [lastFinalized_casts _ _ hcast]
    rfl

theorem lastFinalized_completeCurrentRound (now : Nat) (g : FinalityGadget) (block : Target) :
    (g.completeCurrentRound now (some block)).lastFinalized =
      if g.rounds.activeRound.isSome then block else g.lastFinalized := by
  have hdrop : (g.dropped block).lastFinalized =
      if g.rounds.activeRound.isSome then block else g.lastFinalized := by
    unfold dropped lastFinalized RoundManager.completeRound
    cases g.rounds.activeRound <;> rfl
  rw [← hdrop]
  rcases completeCurrentRound_cases now g block with ⟨-, heq⟩ | ⟨-, g', hg', heq | hcast⟩
  · rw [heq]
  · rw [heq, hg']
    rfl
  · rw [lastFinalized_casts _ _ hcast, hg']
    rfl

/-- A vote that completes a round does so with its own target. -/
theorem finalizedTarget_of_completes (cr : Crypto) (ord : HashOrder) (c : VoteCollector) (v : FinalityVote)
    (h : c.Inv cr) (hne : c.state ≠ .completed) (hs : (c.addVote cr ord v).1.state = .completed) :
    (c.addVote cr ord v).1.finalizedTarget = some v.target := by
  obtain ⟨-, -, -, -, htarget⟩ := VoteCollector.addVote_completes cr ord c v h hne hs
  exact htarget

/-- What one vote does to the finalized block. -/
theorem lastFinalized_onVote (cr : Crypto) (ord : HashOrder) (now : Nat) (g : FinalityGadget)
    (vote : FinalityVote) (hg : g.ActiveInv cr) :
    (g.onVote cr ord now vote).1.lastFinalized = g.lastFinalized ∨
    (∃ r, g.rounds.activeRound = some r ∧ r.state ≠ .completed ∧
      (r.addVote cr ord vote).1.state = .completed ∧
      (r.addVote cr ord vote).1.collector.Supported cr vote.target ∧
      (g.onVote cr ord now vote).1.lastFinalized = vote.target) := by
  rcases onVote_cases cr ord now g vote with heq | ⟨r, hr, hcast⟩ | ⟨r, b, js, pair, hr, hne, hs, hb, heq⟩
  · left
    rw [heq]
  · left
    rw [lastFinalized_casts _ _ hcast]
    rfl
  · right
    have hinv := VoteCollector.addVote_inv cr ord r.collector vote (hg r hr)
    have htarget := finalizedTarget_of_completes cr ord r.collector vote (hg r hr) hne hs
    obtain ⟨b', hb', hsup⟩ := VoteCollector.supported_of_completed cr _ hinv hs
    have hbb : b' = vote.target := Option.some.inj (hb'.symm.trans htarget)
    have hbv : b = vote.target := Option.some.inj (hb.symm.trans htarget)
    refine ⟨r, hr, hne, hs, hbb ▸ hsup, ?_⟩
    rw [heq, lastFinalized_completeCurrentRound, hbv]
    rfl

/-! ## Votes behind the finalized block -/

/-- The votes of a list with the states they are given to. -/
def deliveries (cr : Crypto) (ord : HashOrder) (now : Nat) : FinalityGadget → List FinalityVote →
    List (FinalityGadget × FinalityVote)
  | _, [] => []
  | g, v :: votes => (g, v) :: deliveries cr ord now (g.onVote cr ord now v).1 votes

/-- The votes a message delivers, with the states they are given to. -/
def votesIn (cr : Crypto) (ord : HashOrder) (now : Nat) (g : FinalityGadget) :
    FinalityMessage → List (FinalityGadget × FinalityVote)
  | .vote v => deliveries cr ord now g [v]
  | .catchUpResponse votes _ => deliveries cr ord now g votes
  | _ => []

/-- While the message is processed, the round active at one of its votes comes to
hold verified precommits for the block from a supermajority of its validators. -/
def Backed (cr : Crypto) (ord : HashOrder) (now : Nat) (g : FinalityGadget) (m : FinalityMessage)
    (b : Target) : Prop :=
  ∃ d ∈ votesIn cr ord now g m, ∃ r, d.1.rounds.activeRound = some r ∧
    (r.addVote cr ord d.2).1.collector.Supported cr b

theorem deliveries_supported (cr : Crypto) (ord : HashOrder) (now : Nat) (g : FinalityGadget)
    (votes : List FinalityVote) (hg : g.ActiveInv cr)
    (h : (g.handleCatchupResponse cr ord now votes).lastFinalized ≠ g.lastFinalized) :
    ∃ d ∈ deliveries cr ord now g votes, ∃ r, d.1.rounds.activeRound = some r ∧
      (r.addVote cr ord d.2).1.collector.Supported cr
        (g.handleCatchupResponse cr ord now votes).lastFinalized := by
  induction votes generalizing g with
  | nil => exact absurd rfl h
  | cons v votes ih =>
    have hrun : g.handleCatchupResponse cr ord now (v :: votes) =
        (g.onVote cr ord now v).1.handleCatchupResponse cr ord now votes := rfl
    rw [hrun] at h ⊢
    by_cases hlast : ((g.onVote cr ord now v).1.handleCatchupResponse cr ord now votes).lastFinalized =
        (g.onVote cr ord now v).1.lastFinalized
    · -- the first vote made the change that lasts
      rw [hlast] at h ⊢
      rcases lastFinalized_onVote cr ord now g v hg with heq | ⟨r, hr, -, -, hsup, heq⟩
      · exact absurd heq h
      · rw [heq]
        exact ⟨(g, v), List.mem_cons_self, r, hr, hsup⟩
    · obtain ⟨d, hd, r, hr, hsup⟩ := ih _ (activeInv_onVote cr ord now g v hg) hlast
      exact ⟨d, List.mem_cons_of_mem _ hd, r, hr, hsup⟩

/-- **Finality is backed by votes**, in every reachable state, by exactly the messages
that are not an announcement of a higher block while a round is active. -/
theorem finality_backed_iff (cr : Crypto) (signer : FinalitySigner) (validators : Finset AccountId)
    (genesisHash : Hash) (calls : List Call) (ord : HashOrder) (now : Nat) (m : FinalityMessage) :
    let g := (new signer validators genesisHash).run cr calls
    ((g.onMessage cr ord now m).1.lastFinalized ≠ g.lastFinalized →
      Backed cr ord now g m (g.onMessage cr ord now m).1.lastFinalized) ↔
    ¬ ∃ block epoch round, m = .finalized block epoch round ∧ block.number > g.lastFinalized.number ∧
      g.rounds.activeRound.isSome = true := by
  intro g
  have hg : g.ActiveInv cr := activeInv_run cr signer validators genesisHash calls
  cases m with
  | vote v =>
    constructor
    · rintro - ⟨_, _, _, h, -⟩
      cases h
    · intro _ hne
      exact deliveries_supported cr ord now g [v] hg hne
  | catchUpResponse votes epoch =>
    constructor
    · rintro - ⟨_, _, _, h, -⟩
      cases h
    · intro _ hne
      exact deliveries_supported cr ord now g votes hg hne
  | requestVotes epoch round =>
    constructor
    · rintro - ⟨_, _, _, h, -⟩
      cases h
    · intro _ hne
      exact absurd (congrArg RoundManager.lastFinalized (rounds_handleVoteRequest ord g epoch round)) hne
  | catchUpRequest fromRound toRound epoch =>
    constructor
    · rintro - ⟨_, _, _, h, -⟩
      cases h
    · intro _ hne
      exact absurd (congrArg RoundManager.lastFinalized
        (rounds_handleCatchupRequest ord g fromRound toRound epoch)) hne
  | finalized block epoch round =>
    have hlast : (g.onMessage cr ord now (.finalized block epoch round)).1.lastFinalized =
        if block.number > g.lastFinalized.number ∧ g.rounds.activeRound.isSome = true then block
        else g.lastFinalized := by
      simp only [onMessage, handleFinalizedAnnouncement]
      by_cases hn : block.number > g.lastFinalized.number
      · have hc := lastFinalized_completeCurrentRound now g block
        simp only [hn, if_true, true_and]
        exact hc
      · simp only [hn, if_false, false_and]
    constructor
    · rintro h ⟨b, e, n, heq, hn, hact⟩
      cases heq
      rw [hlast, if_pos ⟨hn, hact⟩] at h
      obtain ⟨d, hd, -⟩ := h (by
        intro hbl
        rw [hbl] at hn
        exact lt_irrefl _ hn)
      cases hd
    · intro hno hne
      rw [hlast, if_neg fun h => hno ⟨block, epoch, round, rfl, h.1, h.2⟩] at hne
      exact absurd rfl hne

/-- A signer that never signs anything meaningful. -/
def sampleSigner (id : AccountId) : FinalitySigner := { sign := fun _ => Signature64.zero, validatorId := id }

def sampleValidators : Finset AccountId := {⟨1⟩, ⟨2⟩, ⟨3⟩}

/-- One announcement, from anybody and without a vote, moves the finalized block. -/
theorem finality_announced :
    ¬ ∀ (cr : Crypto) (signer : FinalitySigner) (validators : Finset AccountId) (genesisHash : Hash)
      (calls : List Call) (ord : HashOrder) (now : Nat) (m : FinalityMessage),
      (((new signer validators genesisHash).run cr calls).onMessage cr ord now m).1.lastFinalized ≠
        ((new signer validators genesisHash).run cr calls).lastFinalized →
      Backed cr ord now ((new signer validators genesisHash).run cr calls) m
        (((new signer validators genesisHash).run cr calls).onMessage cr ord now m).1.lastFinalized := by
  intro h
  obtain ⟨d, hd, -⟩ := h Crypto.sample (sampleSigner ⟨1⟩) sampleValidators ⟨0⟩
    [.onBlockImported 0 ⟨1, ⟨1⟩⟩] .sorted 0 (.finalized ⟨5, ⟨5⟩⟩ 0 0) (by decide)
  cases hd

/-! ## The finalized height -/

/-- If the vote completes the active round, its target is above the finalized block or is it. -/
def CompletesForward (cr : Crypto) (ord : HashOrder) (g : FinalityGadget) (v : FinalityVote) : Prop :=
  ∀ r ∈ g.rounds.activeRound, r.state ≠ .completed → (r.addVote cr ord v).1.state = .completed →
    g.lastFinalized.number < v.targetNumber ∨ v.target = g.lastFinalized

instance (cr : Crypto) (ord : HashOrder) (g : FinalityGadget) (v : FinalityVote) :
    Decidable (CompletesForward cr ord g v) :=
  inferInstanceAs (Decidable (∀ r ∈ g.rounds.activeRound, r.state ≠ .completed →
    (r.addVote cr ord v).1.state = .completed →
      g.lastFinalized.number < v.targetNumber ∨ v.target = g.lastFinalized))

/-- Every vote of the call that completes a round does so upwards. -/
def FinalizesForward (cr : Crypto) (g : FinalityGadget) : Call → Prop
  | .onMessage ord now m => ∀ d ∈ votesIn cr ord now g m, CompletesForward cr ord d.1 d.2
  | _ => True

instance (cr : Crypto) (g : FinalityGadget) (call : Call) : Decidable (FinalizesForward cr g call) :=
  match call with
  | .onMessage ord now m =>
    inferInstanceAs (Decidable (∀ d ∈ votesIn cr ord now g m, CompletesForward cr ord d.1 d.2))
  | .onBlockImported .. => isTrue trivial
  | .tick .. => isTrue trivial
  | .updateValidators .. => isTrue trivial
  | .newEpoch .. => isTrue trivial

/-- A higher block, or the same one. -/
def Forward (a b : Target) : Prop := a.number < b.number ∨ b = a

theorem Forward.refl (a : Target) : Forward a a := Or.inr rfl

theorem Forward.trans (a b c : Target) (h : Forward a b) (h' : Forward b c) : Forward a c := by
  rcases h with h | rfl
  · rcases h' with h' | rfl
    · exact Or.inl (lt_trans h h')
    · exact Or.inl h
  · exact h'

theorem forward_votes (cr : Crypto) (ord : HashOrder) (now : Nat) (g : FinalityGadget)
    (votes : List FinalityVote) (hg : g.ActiveInv cr)
    (h : ∀ d ∈ deliveries cr ord now g votes, CompletesForward cr ord d.1 d.2) :
    Forward g.lastFinalized (g.handleCatchupResponse cr ord now votes).lastFinalized := by
  induction votes generalizing g with
  | nil => exact Forward.refl _
  | cons v votes ih =>
    have hfirst : Forward g.lastFinalized (g.onVote cr ord now v).1.lastFinalized := by
      rcases lastFinalized_onVote cr ord now g v hg with heq | ⟨r, hr, hne, hs, -, heq⟩
      · exact Or.inr heq
      · rw [heq]
        exact h (g, v) List.mem_cons_self r hr hne hs
    exact Forward.trans _ _ _ hfirst (ih _ (activeInv_onVote cr ord now g v hg)
      fun d hd => h d (List.mem_cons_of_mem _ hd))

/-- **Step.** -/
theorem forward_step (cr : Crypto) (g : FinalityGadget) (call : Call) (hg : g.ActiveInv cr)
    (h : FinalizesForward cr g call) : Forward g.lastFinalized (g.step cr call).lastFinalized := by
  cases call with
  | onBlockImported now b =>
    right
    unfold step onBlockImported
    simp only
    split
    · exact lastFinalized_startFinalityRound now _
    · rfl
  | onMessage ord now m =>
    cases m with
    | vote v => exact forward_votes cr ord now g [v] hg h
    | requestVotes epoch round =>
      exact Or.inr (congrArg RoundManager.lastFinalized (rounds_handleVoteRequest ord g epoch round))
    | finalized block epoch round =>
      simp only [step, onMessage, handleFinalizedAnnouncement]
      split
      · next hn =>
        have hc := lastFinalized_completeCurrentRound now g block
        split at hc
        · left
          have hl : FinalityGadget.lastFinalized { g.completeCurrentRound now (some block) with
            pendingBlocks := (g.completeCurrentRound now (some block)).pendingBlocks.filter
              fun b => decide (b.number > block.number) } = block := hc
          rw [hl]
          exact hn
        · exact Or.inr hc
      · exact Forward.refl _
    | catchUpRequest fromRound toRound epoch =>
      exact Or.inr (congrArg RoundManager.lastFinalized
        (rounds_handleCatchupRequest ord g fromRound toRound epoch))
    | catchUpResponse votes epoch => exact forward_votes cr ord now g votes hg h
  | tick now delay => exact Or.inr (lastFinalized_casts g _ (tick_casts now delay g))
  | updateValidators validators => exact Forward.refl _
  | newEpoch epoch => exact Forward.refl _

/-- **The finalized height of a run.**  If every completing vote is for a block above
the finalized one, or for it, the height never goes back and no height is finalized
with two hashes. -/
theorem finalized_height_monotone (cr : Crypto) (signer : FinalitySigner) (validators : Finset AccountId)
    (genesisHash : Hash) (calls : List Call)
    (h : Run.Meets (step cr) (FinalizesForward cr) (new signer validators genesisHash) calls)
    (i j : Nat) (hij : i ≤ j) :
    let a := ((new signer validators genesisHash).run cr (calls.take i)).lastFinalized
    let b := ((new signer validators genesisHash).run cr (calls.take j)).lastFinalized
    a.number ≤ b.number ∧ (a.number = b.number → a.hash = b.hash) := by
  intro a b
  have hnew : (new signer validators genesisHash).ActiveInv cr := activeInv_run cr signer validators genesisHash []
  have hfor : Forward a b := Run.rel_take (step cr) (FinalizesForward cr) (ActiveInv cr)
    (fun g g' => Forward g.lastFinalized g'.lastFinalized) (fun g => Forward.refl _)
    (fun _ _ _ h h' => Forward.trans _ _ _ h h') (fun g call hg _ => activeInv_step cr g call hg)
    (fun g call hg hc => forward_step cr g call hg hc) _ calls hnew h i j hij
  rcases hfor with hlt | heq
  · exact ⟨le_of_lt hlt, fun he => absurd he (ne_of_lt hlt)⟩
  · rw [heq]
    exact ⟨le_refl _, fun _ => rfl⟩

/-- A vote in the first round. -/
def sampleVote (ty : VoteType) (voter : AccountId) (b : Target) : FinalityVote :=
  { voteType := ty, targetNumber := b.number, targetHash := b.hash, round := 0, epoch := 0, voter
    signature := Signature64.zero }

/-- Two of three validators prevote and precommit for a block. -/
def sampleRound (b : Target) : List Call :=
  [.onMessage .sorted 0 (.vote (sampleVote .prevote ⟨1⟩ b)),
    .onMessage .sorted 0 (.vote (sampleVote .prevote ⟨2⟩ b)),
    .onMessage .sorted 0 (.vote (sampleVote .precommit ⟨1⟩ b)),
    .onMessage .sorted 0 (.vote (sampleVote .precommit ⟨2⟩ b))]

/-- Block 1 is imported and voted for. -/
def sampleCalls : List Call := Call.onBlockImported 0 ⟨1, ⟨1⟩⟩ :: sampleRound ⟨1, ⟨1⟩⟩

theorem sampleCalls_forward : Run.Meets (step Crypto.sample) (FinalizesForward Crypto.sample)
    (new (sampleSigner ⟨9⟩) sampleValidators ⟨0⟩) sampleCalls := by
  decide

/-- The first round of a gadget finalizes block 1, and the height has grown. -/
theorem finalized_height_first_round :
    ((new (sampleSigner ⟨9⟩) sampleValidators ⟨0⟩).run Crypto.sample (sampleCalls.take 5)).lastFinalized =
      ⟨1, ⟨1⟩⟩ ∧
    ((new (sampleSigner ⟨9⟩) sampleValidators ⟨0⟩).run Crypto.sample (sampleCalls.take 0)).lastFinalized.number ≤
      ((new (sampleSigner ⟨9⟩) sampleValidators ⟨0⟩).run Crypto.sample
        (sampleCalls.take 5)).lastFinalized.number := by
  refine ⟨by decide, ?_⟩
  have h := finalized_height_monotone Crypto.sample (sampleSigner ⟨9⟩) sampleValidators ⟨0⟩ sampleCalls
    sampleCalls_forward 0 5 (by decide)
  simp only at h
  exact h.1

/-- After an announcement of block 5, votes for block 2 bring the finalized height back. -/
theorem finalized_height_goes_back :
    ¬ ∀ (cr : Crypto) (signer : FinalitySigner) (validators : Finset AccountId) (genesisHash : Hash)
      (calls : List Call) (i j : Nat), i ≤ j →
      ((new signer validators genesisHash).run cr (calls.take i)).lastFinalized.number ≤
        ((new signer validators genesisHash).run cr (calls.take j)).lastFinalized.number ∧
      (((new signer validators genesisHash).run cr (calls.take i)).lastFinalized.number =
        ((new signer validators genesisHash).run cr (calls.take j)).lastFinalized.number →
      ((new signer validators genesisHash).run cr (calls.take i)).lastFinalized.hash =
        ((new signer validators genesisHash).run cr (calls.take j)).lastFinalized.hash) := by
  intro h
  have := (h Crypto.sample (sampleSigner ⟨9⟩) sampleValidators ⟨0⟩
    (Call.onBlockImported 0 ⟨1, ⟨1⟩⟩ :: .onMessage .sorted 0 (.finalized ⟨5, ⟨5⟩⟩ 0 0) ::
      .onBlockImported 0 ⟨6, ⟨6⟩⟩ :: sampleRound ⟨2, ⟨2⟩⟩) 2 7 (by decide)).1
  exact absurd this (by decide)

end FinalityGadget

end Kratos
