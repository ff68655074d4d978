import Kratos.Finality.Rounds

/-!
# The finality gadget

The coordinator of the rounds: it starts one for the highest pending block, votes
in it, feeds it the votes of the network and completes it.  `broadcasted` is what
was handed to the broadcaster, oldest first.  Each entry point takes the clock and
the iteration order it meets; a run is a list of calls.

`onVote_cases` says what a vote can do to the gadget.  The timeout branch of
`tick` is never taken: the round counts as done as soon as it has timed out
(`tick_casts`).
-/

namespace Kratos

inductive FinalityMessage where
  | vote (v : FinalityVote)
  | requestVotes (epoch round : Nat)
  | finalized (block : Target) (epoch round : Nat)
  | catchUpRequest (fromRound toRound epoch : Nat)
  | catchUpResponse (votes : List FinalityVote) (epoch : Nat)
deriving DecidableEq, Repr

inductive VoteResult where
  | accepted
  | stateChanged (state : RoundState)
  | finalized (block : Target)
  | rejected (e : VoteError)
deriving DecidableEq, Repr

structure FinalityGadget where
  rounds : RoundManager
  signer : FinalitySigner
  broadcasted : List FinalityMessage
  outboundQueue : List FinalityMessage
  justifications : List FinalityJustification
  isValidator : Bool
  lastBlock : Target
  pendingBlocks : List Target

namespace FinalityGadget

def new (signer : FinalitySigner) (validators : Finset AccountId) (genesisHash : Hash) : FinalityGadget :=
  let isValidator := decide (signer.validatorId ∈ validators)
  { rounds := .new (if isValidator then some signer.validatorId else none) validators ⟨0, genesisHash⟩
    signer, broadcasted := [], outboundQueue := [], justifications := [], isValidator
    lastBlock := ⟨0, genesisHash⟩, pendingBlocks := [] }

def lastFinalized (g : FinalityGadget) : Target := g.rounds.lastFinalized

/-! ## Starting rounds and voting -/

def setActive (g : FinalityGadget) (r : FinalityRound) : FinalityGadget :=
  { g with rounds := { g.rounds with activeRound := some r } }

/-- Hand a vote of our own to the broadcaster and queue it. -/
def sendVote (g : FinalityGadget) (v : FinalityVote) : FinalityGadget :=
  { g with broadcasted := g.broadcasted ++ [.vote v], outboundQueue := g.outboundQueue ++ [.vote v] }

def createAndBroadcastPrevote (g : FinalityGadget) (b : Target) : FinalityGadget :=
  match g.rounds.activeRound with
  | none => g
  | some round =>
    match round.createPrevote g.signer b with
    | (_, none) => g
    | (r, some vote) => (g.setActive r).sendVote vote

def createAndBroadcastPrecommit (g : FinalityGadget) : FinalityGadget :=
  match g.rounds.activeRound with
  | none => g
  | some round =>
    match round.createPrecommit g.signer with
    | (_, none) => g
    | (r, some vote) => (g.setActive r).sendVote vote

/-- The pending block with the greatest number, the last one of several. -/
def highest (l : List Target) : Option Target :=
  l.foldl (fun best b => match best with
    | none => some b
    | some m => if m.number ≤ b.number then some b else some m) none

/-- Start the round of the current counters for the highest pending block. -/
def startFinalityRound (now : Nat) (g : FinalityGadget) : FinalityGadget :=
  match highest g.pendingBlocks with
  | none => g
  | some target =>
    let g := { g with rounds := g.rounds.startRound now g.rounds.currentEpoch g.rounds.currentRound }
    if g.isValidator then g.createAndBroadcastPrevote target else g

def completeCurrentRound (now : Nat) (g : FinalityGadget) (finalized : Option Target) : FinalityGadget :=
  let g := { g with rounds := g.rounds.completeRound finalized }
  let g := match finalized with
    | some block => { g with pendingBlocks := g.pendingBlocks.filter fun b => decide (b.number > block.number) }
    | none => g
  if g.pendingBlocks.isEmpty then g
  else startFinalityRound now { g with rounds := g.rounds.nextRound now }

/-! ## Entry points -/

def onBlockImported (now : Nat) (g : FinalityGadget) (b : Target) : FinalityGadget :=
  let g := { g with lastBlock := b, pendingBlocks := g.pendingBlocks ++ [b] }
  if g.rounds.activeRound.isNone ∧ g.pendingBlocks.length ≥ 1 then g.startFinalityRound now else g

def onVote (cr : Crypto) (ord : HashOrder) (now : Nat) (g : FinalityGadget) (vote : FinalityVote) :
    FinalityGadget × Option VoteResult :=
  match g.rounds.activeRound with
  | none => (g, none)
  | some round =>
    if vote.epoch ≠ round.epoch ∨ vote.round ≠ round.round then (g, none)
    else
      let r := (round.addVote cr ord vote).1
      let g := g.setActive r
      match (round.addVote cr ord vote).2 with
      | .ok true =>
        if r.state ≠ round.state then
          match r.state with
          | .precommitting =>
            (if g.isValidator then g.createAndBroadcastPrecommit else g, some (.stateChanged r.state))
          | .completed =>
            match r.finalizedTarget with
            | some block =>
              let g := { g with justifications := g.justifications ++ r.createJustification.toList
                                broadcasted := g.broadcasted ++
                                  [FinalityMessage.finalized block r.epoch r.round] }
              (g.completeCurrentRound now (some block), some (.finalized block))
            | none => (g, some .accepted)
          | _ => (g, some .accepted)
        else (g, some .accepted)
      | .ok false => (g, some .accepted)
      | .error e => (g, some (.rejected e))

/-- Answer with all votes of the active round, if it has any. -/
def sendAllVotes (ord : HashOrder) (g : FinalityGadget) (round : FinalityRound) (epoch : Nat) :
    FinalityGadget :=
  let votes := round.collector.allVotes ord
  if votes.isEmpty then g else { g with broadcasted := g.broadcasted ++ [.catchUpResponse votes epoch] }

def handleVoteRequest (ord : HashOrder) (g : FinalityGadget) (epoch round : Nat) : FinalityGadget :=
  match g.rounds.activeRound with
  | none => g
  | some active =>
    if active.epoch = epoch ∧ active.round = round then g.sendAllVotes ord active epoch else g

/-- An announcement newer than what is known completes the round with its block. -/
def handleFinalizedAnnouncement (now : Nat) (g : FinalityGadget) (block : Target) : FinalityGadget :=
  if block.number > g.lastFinalized.number then
    let g := g.completeCurrentRound now (some block)
    { g with pendingBlocks := g.pendingBlocks.filter fun b => decide (b.number > block.number) }
  else g

def handleCatchupRequest (ord : HashOrder) (g : FinalityGadget) (fromRound toRound epoch : Nat) :
    FinalityGadget :=
  match g.rounds.activeRound with
  | none => g
  | some active =>
    if active.epoch = epoch ∧ active.round ≥ fromRound ∧ active.round ≤ toRound then
      g.sendAllVotes ord active epoch
    else g

/-- The votes of a response, one after the other. -/
def handleCatchupResponse (cr : Crypto) (ord : HashOrder) (now : Nat) (g : FinalityGadget)
    (votes : List FinalityVote) : FinalityGadget :=
  votes.foldl (fun g v => (g.onVote cr ord now v).1) g

def onMessage (cr : Crypto) (ord : HashOrder) (now : Nat) (g : FinalityGadget) :
    FinalityMessage → FinalityGadget × Option VoteResult
  | .vote v => g.onVote cr ord now v
  | .requestVotes epoch round => (g.handleVoteRequest ord epoch round, none)
  | .finalized block _ _ => (g.handleFinalizedAnnouncement now block, none)
  | .catchUpRequest fromRound toRound epoch => (g.handleCatchupRequest ord fromRound toRound epoch, none)
  | .catchUpResponse votes _ => (g.handleCatchupResponse cr ord now votes, none)

/-- `delay` passes between the two readings of the clock. -/
def tick (now delay : Nat) (g : FinalityGadget) : FinalityGadget × Bool :=
  match g.rounds.activeRound with
  | none => (g, false)
  | some round =>
    let isTimedOut := round.isTimedOut now
    let isDone := round.isDone (now + delay)
    let shouldPrecommit := round.shouldPrecommit
    if isTimedOut && !isDone then ((g.setActive round.markFailed).completeCurrentRound now none, true)
    else if shouldPrecommit && g.isValidator then (g.createAndBroadcastPrecommit, false)
    else (g, false)

def updateValidators (g : FinalityGadget) (validators : Finset AccountId) : FinalityGadget :=
  { g with isValidator := decide (g.signer.validatorId ∈ validators)
           rounds := g.rounds.updateValidators validators g.signer.validatorId }

def newEpoch (g : FinalityGadget) (epoch : Nat) : FinalityGadget :=
  { g with rounds := g.rounds.newEpoch epoch }

/-! ## Runs -/

inductive Call where
  | onBlockImported (now : Nat) (b : Target)
  | onMessage (ord : HashOrder) (now : Nat) (m : FinalityMessage)
  | tick (now delay : Nat)
  | updateValidators (validators : Finset AccountId)
  | newEpoch (epoch : Nat)

def step (cr : Crypto) (g : FinalityGadget) : Call → FinalityGadget
  | .onBlockImported now b => g.onBlockImported now b
  | .onMessage ord now m => (g.onMessage cr ord now m).1
  | .tick now delay => (g.tick now delay).1
  | .updateValidators validators => g.updateValidators validators
  | .newEpoch epoch => g.newEpoch epoch

def run (cr : Crypto) (g : FinalityGadget) (calls : List Call) : FinalityGadget :=
  calls.foldl (step cr) g

/-! ## What the operations can do -/

end FinalityGadget

/-- Whether we have cast a vote of the type in this round. -/
def FinalityRound.voted (r : FinalityRound) : VoteType → Bool
  | .prevote => r.havePrevoted
  | .precommit => r.havePrecommitted

def FinalityRound.markVoted (r : FinalityRound) : VoteType → FinalityRound
  | .prevote => { r with havePrevoted := true }
  | .precommit => { r with havePrecommitted := true }

theorem FinalityRound.createPrevote_cases (signer : FinalitySigner) (r : FinalityRound) (b : Target) :
    (r.createPrevote signer b).2 = none ∨
      ∃ a, r.ourValidator = some a ∧ r.voted .prevote = false ∧
        r.createPrevote signer b = (r.markVoted .prevote, some (r.ownVote signer .prevote b a)) := by
  unfold createPrevote
  split
  · exact Or.inl rfl
  · next a ha =>
    split
    · exact Or.inl rfl
    · next hv =>
      split
      · exact Or.inl rfl
      · exact Or.inr ⟨a, ha, Bool.eq_false_iff.mpr hv, rfl⟩

theorem FinalityRound.createPrecommit_cases (signer : FinalitySigner) (r : FinalityRound) :
    (r.createPrecommit signer).2 = none ∨
      ∃ a b, r.ourValidator = some a ∧ r.voted .precommit = false ∧
        r.createPrecommit signer = (r.markVoted .precommit, some (r.ownVote signer .precommit b a)) := by
  unfold createPrecommit
  split
  · exact Or.inl rfl
  · next a ha =>
    split
    · exact Or.inl rfl
    · next hv =>
      split
      · exact Or.inl rfl
      · split
        · exact Or.inl rfl
        · next b hb => exact Or.inr ⟨a, b, ha, Bool.eq_false_iff.mpr hv, rfl⟩

namespace FinalityGadget

/-- At most one vote of our own is cast, in the active round, of a type not cast there yet. -/
inductive CastsVote (g : FinalityGadget) : FinalityGadget → Prop
  | none : CastsVote g g
  | cast (r : FinalityRound) (ty : VoteType) (b : Target) (a : AccountId)
      (hr : g.rounds.activeRound = some r) (ha : r.ourValidator = some a) (hv : r.voted ty = false) :
      CastsVote g ((g.setActive (r.markVoted ty)).sendVote (r.ownVote g.signer ty b a))

theorem createAndBroadcastPrevote_casts (g : FinalityGadget) (b : Target) :
    CastsVote g (g.createAndBroadcastPrevote b) := by
  unfold createAndBroadcastPrevote
  cases hr : g.rounds.activeRound with
  | none => exact .none
  | some r =>
    rcases r.createPrevote_cases g.signer b with h | ⟨a, ha, hv, h⟩
    · simp only
      split
      · exact .none
      · next heq =>
        rw [heq] at h
        cases h
    · simp only [h]
      exact .cast r .prevote b a hr ha hv

theorem createAndBroadcastPrecommit_casts (g : FinalityGadget) :
    CastsVote g g.createAndBroadcastPrecommit := by
  unfold createAndBroadcastPrecommit
  cases hr : g.rounds.activeRound with
  | none => exact .none
  | some r =>
    rcases r.createPrecommit_cases g.signer with h | ⟨a, b, ha, hv, h⟩
    · simp only
      split
      · exact .none
      · next heq =>
        rw [heq] at h
        cases h
    · simp only [h]
      exact .cast r .precommit b a hr ha hv

/-- The state in which a new round has just been started. -/
def started (now : Nat) (g : FinalityGadget) (epoch round : Nat) : FinalityGadget :=
  { g with rounds := g.rounds.startRound now epoch round }

theorem startFinalityRound_cases (now : Nat) (g : FinalityGadget) :
    g.startFinalityRound now = g ∨
      CastsVote (g.started now g.rounds.currentEpoch g.rounds.currentRound) (g.startFinalityRound now) := by
  unfold startFinalityRound
  cases highest g.pendingBlocks with
  | none => exact Or.inl rfl
  | some target =>
    right
    simp only
    split
    · exact createAndBroadcastPrevote_casts _ target
    · exact .none

/-- The blocks still pending once a block is finalized. -/
def pendingAbove (l : List Target) (block : Target) : List Target :=
  l.filter fun b => decide (b.number > block.number)

/-- The state once the active round is dropped with a result. -/
def dropped (g : FinalityGadget) (block : Target) : FinalityGadget :=
  { g with rounds := g.rounds.completeRound (some block), pendingBlocks := pendingAbove g.pendingBlocks block }

/-- Completing a round drops it and, with blocks pending above, starts the next one. -/
theorem completeCurrentRound_cases (now : Nat) (g : FinalityGadget) (block : Target) :
    (pendingAbove g.pendingBlocks block = [] ∧
      g.completeCurrentRound now (some block) = g.dropped block) ∨
    (pendingAbove g.pendingBlocks block ≠ [] ∧ ∃ g', g' = (g.dropped block).started now
        (g.dropped block).rounds.currentEpoch (((g.dropped block).rounds.currentRound + 1) % 2 ^ 32) ∧
      (g.completeCurrentRound now (some block) = g' ∨
        CastsVote (g'.started now g'.rounds.currentEpoch g'.rounds.currentRound)
          (g.completeCurrentRound now (some block)))) := by
  have hdef : g.completeCurrentRound now (some block) =
      if (pendingAbove g.pendingBlocks block).isEmpty then g.dropped block
      else startFinalityRound now { g.dropped block with
        rounds := (g.dropped block).rounds.nextRound now } := rfl
  rw [hdef]
  by_cases hp : pendingAbove g.pendingBlocks block = []
  · left
    refine ⟨hp, ?_⟩
    rw [if_pos (by simp [hp])]
  · right
    refine ⟨hp, _, rfl, ?_⟩
    rw [if_neg (by simpa using hp)]
    exact startFinalityRound_cases now _

/-- A vote for another round than the active one is ignored. -/
theorem onVote_elsewhere (cr : Crypto) (ord : HashOrder) (now : Nat) (g : FinalityGadget) (vote : FinalityVote)
    (h : ∀ r, g.rounds.activeRound = some r → vote.epoch ≠ r.epoch ∨ vote.round ≠ r.round) :
    (g.onVote cr ord now vote).1 = g := by
  unfold onVote
  cases hr : g.rounds.activeRound with
  | none => rfl
  | some r =>
    simp only
    rw [if_pos (h r hr)]

/-- A vote for the active round is given to it; then we may precommit, or it completes the
round with a block. -/
theorem onVote_given (cr : Crypto) (ord : HashOrder) (now : Nat) (g : FinalityGadget) (vote : FinalityVote)
    (r : FinalityRound) (hr : g.rounds.activeRound = some r)
    (hround : ¬ (vote.epoch ≠ r.epoch ∨ vote.round ≠ r.round)) :
    (¬ (r.state ≠ .completed ∧ (r.addVote cr ord vote).1.finalizedTarget.isSome = true) ∧
      CastsVote (g.setActive (r.addVote cr ord vote).1) (g.onVote cr ord now vote).1) ∨
    (∃ b js, ∃ pair : Nat × Nat, r.state ≠ .completed ∧
      (r.addVote cr ord vote).1.state = .completed ∧
      (r.addVote cr ord vote).1.finalizedTarget = some b ∧
      (g.onVote cr ord now vote).1 = completeCurrentRound now
        { g.setActive (r.addVote cr ord vote).1 with
          justifications := js
          broadcasted := g.broadcasted ++ [FinalityMessage.finalized b pair.1 pair.2] } (some b)) := by
  -- a round that stays in its state, or moves to another one than the last, has no new result
  have hopen : (r.addVote cr ord vote).1.state = r.state ∨ (r.addVote cr ord vote).1.state ≠ .completed →
      ¬ (r.state ≠ .completed ∧ (r.addVote cr ord vote).1.finalizedTarget.isSome = true) := by
    rintro h ⟨hne, hsome⟩
    have hnot : ¬ (r.addVote cr ord vote).1.collector.state = .completed :=
      h.elim (fun h => fun h' => hne (h.symm.trans h')) id
    rw [FinalityRound.finalizedTarget, VoteCollector.finalizedTarget, if_neg hnot] at hsome
    cases hsome
  have hstays : (r.addVote cr ord vote).2 ≠ .ok true → (r.addVote cr ord vote).1.state = r.state := by
    intro hne
    have hadd : r.addVote cr ord vote = ({ r with collector := (r.collector.addVote cr ord vote).1 },
      (r.collector.addVote cr ord vote).2) := rfl
    rcases VoteCollector.addVote_cases cr ord r.collector vote with ⟨es, e, h, -⟩ | ⟨t, h, -⟩ | ⟨t, h, -⟩
    · rw [hadd, h]
      rfl
    · exact absurd (by rw [hadd, h]) hne
    · exact absurd (by rw [hadd, h]) hne
  unfold onVote
  rw [hr]
  simp only
  rw [if_neg hround]
  cases hres : (r.addVote cr ord vote).2 with
  | error e => exact Or.inl ⟨hopen (Or.inl (hstays (by rw [hres]; simp))), .none⟩
  | ok accepted =>
    cases accepted with
    | false => exact Or.inl ⟨hopen (Or.inl (hstays (by rw [hres]; simp))), .none⟩
    | true =>
      simp only
      split
      · next hne =>
        cases hst : (r.addVote cr ord vote).1.state with
        | prevoting => exact Or.inl ⟨hopen (Or.inr (by rw [hst]; decide)), .none⟩
        | failed => exact Or.inl ⟨hopen (Or.inr (by rw [hst]; decide)), .none⟩
        | precommitting =>
          refine Or.inl ⟨hopen (Or.inr (by rw [hst]; decide)), ?_⟩
          simp only
          split
          · exact createAndBroadcastPrecommit_casts _
          · exact .none
        | completed =>
          simp only
          cases hb : (r.addVote cr ord vote).1.finalizedTarget with
          | none => exact Or.inl ⟨by simp, .none⟩
          | some b =>
            refine Or.inr ⟨b, _, (_, _), ?_, trivial, rfl, rfl⟩
            rw [hst] at hne
            exact Ne.symm hne
      · next heq => exact Or.inl ⟨hopen (Or.inl (not_not.mp heq)), .none⟩

/-- **What a vote can do.**  Nothing; it is given to the active round, and we may
precommit; or it completes the round with a block. -/
theorem onVote_cases (cr : Crypto) (ord : HashOrder) (now : Nat) (g : FinalityGadget) (vote : FinalityVote) :
    (g.onVote cr ord now vote).1 = g ∨
    (∃ r, g.rounds.activeRound = some r ∧
      CastsVote (g.setActive (r.addVote cr ord vote).1) (g.onVote cr ord now vote).1) ∨
    (∃ r b js, ∃ pair : Nat × Nat, g.rounds.activeRound = some r ∧ r.state ≠ .completed ∧
      (r.addVote cr ord vote).1.state = .completed ∧
      (r.addVote cr ord vote).1.finalizedTarget = some b ∧
      (g.onVote cr ord now vote).1 = completeCurrentRound now
        { g.setActive (r.addVote cr ord vote).1 with
          justifications := js
          broadcasted := g.broadcasted ++ [FinalityMessage.finalized b pair.1 pair.2] } (some b)) := by
  by_cases h : ∀ r, g.rounds.activeRound = some r → vote.epoch ≠ r.epoch ∨ vote.round ≠ r.round
  · exact Or.inl (onVote_elsewhere cr ord now g vote h)
  · push Not at h
    obtain ⟨r, hr, hepoch, hround⟩ := h
    rcases onVote_given cr ord now g vote r hr (by simp [hepoch, hround]) with
      ⟨-, hcast⟩ | ⟨b, js, pair, hne, hs, hb, heq⟩
    · exact Or.inr (Or.inl ⟨r, hr, hcast⟩)
    · exact Or.inr (Or.inr ⟨r, b, js, pair, hr, hne, hs, hb, heq⟩)

/-- A tick does not advance a round: it precommits or does nothing. -/
theorem tick_casts (now delay : Nat) (g : FinalityGadget) : CastsVote g (g.tick now delay).1 := by
  unfold tick
  cases hr : g.rounds.activeRound with
  | none => exact .none
  | some r =>
    simp only [r.isTimedOut_and_not_isDone now delay, Bool.false_eq_true, if_false]
    split
    · exact createAndBroadcastPrecommit_casts g
    · exact .none

end FinalityGadget

end Kratos
