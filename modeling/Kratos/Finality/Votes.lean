import Kratos.Lib.SortedMap
import Kratos.Types.Primitives

/-!
# Votes and the vote collector

A collector gathers the prevotes and precommits of one round.  Both are tallied
the same way (`Tally`): votes by target, the target each validator voted for, and
the best target.  The best target is searched in the iteration order of a hash
map, which can be any permutation of the entries; it is an argument (`HashOrder`)
of every call that iterates.

`addVote_effect` says what adding a vote can do, and `addVote_inv` that it keeps
the invariant `VoteCollector.Inv`: all counted votes are verified votes of
distinct validators of the round, the best target has most votes, and a completed
round has a supermajority of precommits for it.
-/

namespace Kratos

/-! ## Types -/

inductive VoteType where
  | prevote
  | precommit
deriving DecidableEq, Repr

/-- A block as a vote's target. -/
structure Target where
  number : Nat
  hash : Hash
deriving DecidableEq, Inhabited, Repr

instance : LinearOrder Target :=
  LinearOrder.lift' (fun t => toLex (t.number, t.hash)) fun a b h => by
    cases a; cases b; cases h; rfl

structure FinalityVote where
  voteType : VoteType
  targetNumber : Nat
  targetHash : Hash
  round : Nat
  epoch : Nat
  voter : AccountId
  signature : Signature64
deriving DecidableEq, Repr

namespace FinalityVote

def target (v : FinalityVote) : Target := ⟨v.targetNumber, v.targetHash⟩

def signingMessage (v : FinalityVote) : List UInt8 :=
  let voteTypeByte := match v.voteType with
    | .prevote => 0
    | .precommit => 1
  domainSeparate domainFinality (Bincode.u8 voteTypeByte ++ (Bincode.u64 v.targetNumber ++
    (Bincode.hash v.targetHash ++ (Bincode.u32 v.round ++ Bincode.u64 v.epoch))))

def verify (cr : Crypto) (v : FinalityVote) : Bool :=
  cr.ed25519Verify v.voter v.signingMessage v.signature

end FinalityVote

inductive RoundState where
  | prevoting
  | precommitting
  | completed
  | failed
deriving DecidableEq, Repr

structure EquivocationProof where
  validator : AccountId
  vote1 : FinalityVote
  vote2 : FinalityVote
  round : Nat
  epoch : Nat
deriving DecidableEq, Repr

inductive VoteError where
  | wrongRound (expectedEpoch expectedRound gotEpoch gotRound : Nat)
  | notValidator (voter : AccountId)
  | invalidSignature (voter : AccountId)
  | equivocation (voter : AccountId)
  | notInPrecommitPhase
deriving DecidableEq, Repr

def supermajorityThresholdPercent : Nat := 66

/-- Whether a count reaches the supermajority of a total. -/
def hasSupermajority (count total : Nat) : Bool :=
  if total = 0 then false else decide (count * 100 ≥ total * supermajorityThresholdPercent)

/-! ## Tallies -/

/-- The order in which a hash map of votes is iterated: some permutation. -/
structure HashOrder where
  iter : List (Target × List FinalityVote) → List (Target × List FinalityVote)
  perm : ∀ l, (iter l).Perm l

/-- The order of the keys. -/
def HashOrder.sorted : HashOrder := ⟨id, fun _ => List.Perm.refl _⟩

/-- Votes of one type: by target, by validator, and the best target. -/
structure Tally where
  votes : SortedMap Target (List FinalityVote)
  voted : SortedMap AccountId Target
  best : Option Target

namespace Tally

def empty : Tally := { votes := .empty, voted := .empty, best := none }

def votesFor (t : Tally) (b : Target) : List FinalityVote := (t.votes.find? b).getD []

def count (t : Tally) (b : Target) : Nat := (t.votesFor b).length

/-- One turn of the search: more votes win, and a tie goes to the higher block. -/
def better (best : Option (Target × Nat)) (e : Target × List FinalityVote) : Option (Target × Nat) :=
  match best with
  | none => some (e.1, e.2.length)
  | some (bestTarget, bestCount) =>
    if e.2.length > bestCount then some (e.1, e.2.length)
    else if e.2.length = bestCount then
      if e.1.number > bestTarget.number then some (e.1, e.2.length) else best
    else best

def updateBest (ord : HashOrder) (t : Tally) : Tally :=
  { t with best := ((ord.iter t.votes.entries).foldl better none).map Prod.fst }

inductive Outcome where
  | added (t : Tally)
  | duplicate
  | equivocation (existing : FinalityVote)

/-- Count a vote unless its validator has voted before. -/
def add (ord : HashOrder) (t : Tally) (vote : FinalityVote) : Outcome :=
  match t.voted.find? vote.voter with
  | some existingTarget =>
    if existingTarget ≠ vote.target then
      match (t.votesFor existingTarget).find? fun v => decide (v.voter = vote.voter) with
      | some existing => .equivocation existing
      | none => .duplicate
    else .duplicate
  | none =>
    .added (updateBest ord
      { t with voted := t.voted.insert vote.voter vote.target
               votes := t.votes.insert vote.target (t.votesFor vote.target ++ [vote]) })

/-- All votes, target by target. -/
def all (ord : HashOrder) (t : Tally) : List FinalityVote :=
  (ord.iter t.votes.entries).flatMap Prod.snd

end Tally

/-! ## The collector -/

structure VoteCollector where
  epoch : Nat
  round : Nat
  validators : Finset AccountId
  prevotes : Tally
  precommits : Tally
  equivocations : List EquivocationProof
  state : RoundState

namespace VoteCollector

def new (epoch round : Nat) (validators : Finset AccountId) : VoteCollector :=
  { epoch, round, validators, prevotes := .empty, precommits := .empty, equivocations := []
    state := .prevoting }

def validatorCount (c : VoteCollector) : Nat := c.validators.card

/-- Leave the prevoting phase when the best target has a supermajority. -/
def checkPrevoteThreshold (c : VoteCollector) : VoteCollector :=
  if c.state ≠ .prevoting then c
  else
    match c.prevotes.best with
    | none => c
    | some target =>
      if hasSupermajority (c.prevotes.count target) c.validatorCount then
        { c with state := .precommitting }
      else c

def checkPrecommitThreshold (c : VoteCollector) : VoteCollector :=
  if c.state ≠ .precommitting then c
  else
    match c.precommits.best with
    | none => c
    | some target =>
      if hasSupermajority (c.precommits.count target) c.validatorCount then
        { c with state := .completed }
      else c

/-- Keep the proof of a double vote. -/
def reportEquivocation (c : VoteCollector) (existing vote : FinalityVote) : VoteCollector :=
  { c with equivocations := c.equivocations ++
      [{ validator := vote.voter, vote1 := existing, vote2 := vote, round := c.round, epoch := c.epoch }] }

def addPrevote (ord : HashOrder) (c : VoteCollector) (vote : FinalityVote) :
    VoteCollector × Except VoteError Bool :=
  match c.prevotes.add ord vote with
  | .equivocation existing => (c.reportEquivocation existing vote, .error (.equivocation vote.voter))
  | .duplicate => (c, .ok false)
  | .added t => (checkPrevoteThreshold { c with prevotes := t }, .ok true)

def addPrecommit (ord : HashOrder) (c : VoteCollector) (vote : FinalityVote) :
    VoteCollector × Except VoteError Bool :=
  match c.precommits.add ord vote with
  | .equivocation existing => (c.reportEquivocation existing vote, .error (.equivocation vote.voter))
  | .duplicate => (c, .ok false)
  | .added t => (checkPrecommitThreshold { c with precommits := t }, .ok true)

def addVote (cr : Crypto) (ord : HashOrder) (c : VoteCollector) (vote : FinalityVote) :
    VoteCollector × Except VoteError Bool :=
  if vote.epoch ≠ c.epoch ∨ vote.round ≠ c.round then
    (c, .error (.wrongRound c.epoch c.round vote.epoch vote.round))
  else if vote.voter ∉ c.validators then (c, .error (.notValidator vote.voter))
  else if vote.voteType = .precommit ∧ c.state = .prevoting then (c, .error .notInPrecommitPhase)
  else if vote.verify cr = false then (c, .error (.invalidSignature vote.voter))
  else
    match vote.voteType with
    | .prevote => c.addPrevote ord vote
    | .precommit => c.addPrecommit ord vote

def finalizedTarget (c : VoteCollector) : Option Target :=
  if c.state = .completed then c.precommits.best else none

def allVotes (ord : HashOrder) (c : VoteCollector) : List FinalityVote :=
  c.prevotes.all ord ++ c.precommits.all ord

/-- Precommits for the best target. -/
def precommitsForBest (c : VoteCollector) : List FinalityVote :=
  (c.precommits.best.map c.precommits.votesFor).getD []

def markFailed (c : VoteCollector) : VoteCollector :=
  if c.state ≠ .completed then { c with state := .failed } else c

def isDone (c : VoteCollector) : Bool := c.state = .completed ∨ c.state = .failed

end VoteCollector

/-! ## What a tally counts -/

namespace Tally

/-- The search keeps an entry with most votes among those it has seen. -/
theorem foldl_better (l : List (Target × List FinalityVote)) (best : Option (Target × Nat)) :
    (∀ e ∈ l, ∃ b n, l.foldl better best = some (b, n) ∧ e.2.length ≤ n) ∧
    (∀ b n, best = some (b, n) → ∃ b' n', l.foldl better best = some (b', n') ∧ n ≤ n') ∧
    (∀ b n, l.foldl better best = some (b, n) →
      best = some (b, n) ∨ ∃ vs, (b, vs) ∈ l ∧ vs.length = n) := by
  induction l generalizing best with
  | nil => exact ⟨by simp, fun b n h => ⟨b, n, h, le_refl n⟩, fun b n h => Or.inl h⟩
  | cons e l ih =>
    obtain ⟨hall, hgrow, hmem⟩ := ih (better best e)
    -- after one turn the best has at least the votes of the entry and of the old best
    have hstep : ∃ b n, better best e = some (b, n) ∧ e.2.length ≤ n ∧
        (∀ b' n', best = some (b', n') → n' ≤ n) ∧
        (best = some (b, n) ∨ (b = e.1 ∧ n = e.2.length)) := by
      cases best with
      | none => exact ⟨e.1, e.2.length, rfl, le_refl _, by simp, Or.inr ⟨rfl, rfl⟩⟩
      | some p =>
        obtain ⟨b, n⟩ := p
        simp only [better]
        by_cases hgt : e.2.length > n
        · refine ⟨e.1, e.2.length, by rw [if_pos hgt], le_refl _, ?_, Or.inr ⟨rfl, rfl⟩⟩
          rintro b' n' h
          cases h
          omega
        · rw [if_neg hgt]
          by_cases heq : e.2.length = n
          · rw [if_pos heq]
            split
            · exact ⟨e.1, e.2.length, rfl, le_refl _, by rintro b' n' h; cases h; omega,
                Or.inr ⟨rfl, rfl⟩⟩
            · exact ⟨b, n, rfl, by omega, by rintro b' n' h; cases h; omega, Or.inl rfl⟩
          · rw [if_neg heq]
            exact ⟨b, n, rfl, by omega, by rintro b' n' h; cases h; omega, Or.inl rfl⟩
    obtain ⟨b, n, hb, hen, hold, hfrom⟩ := hstep
    obtain ⟨b', n', hb', hn'⟩ := hgrow b n hb
    simp only [List.foldl_cons]
    refine ⟨?_, ?_, ?_⟩
    · intro d hd
      rcases List.mem_cons.mp hd with rfl | hd
      · exact ⟨b', n', hb', by omega⟩
      · exact hall d hd
    · intro c m hc
      have := hold c m hc
      exact ⟨b', n', hb', by omega⟩
    · intro c m hc
      rcases hmem c m hc with h | ⟨vs, hvs, hlen⟩
      · rw [hb] at h
        cases h
        rcases hfrom with h | ⟨rfl, rfl⟩
        · exact Or.inl h
        · exact Or.inr ⟨e.2, List.mem_cons_self, rfl⟩
      · exact Or.inr ⟨vs, List.mem_cons_of_mem _ hvs, hlen⟩

/-- After the search no target has more votes than the best one. -/
theorem count_le_best (ord : HashOrder) (t : Tally) (b : Target) :
    (updateBest ord t).count b ≤ (updateBest ord t).best.elim 0 (updateBest ord t).count := by
  have hcount : ∀ b, (updateBest ord t).count b = ((t.votes.find? b).getD []).length := fun _ => rfl
  obtain ⟨hall, -, hmem⟩ := foldl_better (ord.iter t.votes.entries) none
  have hentry : ∀ e : Target × List FinalityVote, e ∈ ord.iter t.votes.entries ↔ t.votes.find? e.1 = some e.2 := by
    intro e
    rw [(ord.perm _).mem_iff]
    exact t.votes.mem_entries_iff e.1 e.2
  cases hf : t.votes.find? b with
  | none =>
    rw [hcount, hf]
    exact Nat.zero_le _
  | some vs =>
    obtain ⟨m, n, hbest, hle⟩ := hall (b, vs) ((hentry _).mpr hf)
    have hb : (updateBest ord t).best = some m := by
      simp only [updateBest, hbest, Option.map_some]
    rcases hmem m n hbest with h | ⟨ws, hws, hlen⟩
    · cases h
    · rw [hb, hcount, hf, Option.elim_some, hcount, (hentry _).mp hws]
      simp only [Option.getD_some]
      simp only at hle
      omega

/-- Counted votes satisfy `P`, are for their target, one per validator, and the best
target has most of them. -/
structure Inv (P : FinalityVote → Prop) (t : Tally) : Prop where
  counted : ∀ b, ∀ v ∈ t.votesFor b, P v ∧ v.target = b ∧ t.voted.find? v.voter = some b
  nodup : ∀ b, ((t.votesFor b).map FinalityVote.voter).Nodup
  best : ∀ b, t.count b ≤ t.best.elim 0 t.count

theorem inv_empty (P : FinalityVote → Prop) : empty.Inv P := by
  refine ⟨?_, ?_, ?_⟩
  · intro b v hv
    cases hv
  · intro b
    exact List.nodup_nil
  · intro b
    exact Nat.zero_le _

/-- A vote is added when its validator has not voted; it goes to the end of its target's list. -/
theorem add_added (ord : HashOrder) (t t' : Tally) (vote : FinalityVote)
    (h : t.add ord vote = .added t') :
    t.voted.find? vote.voter = none ∧
    (∀ b, t'.votesFor b = if b = vote.target then t.votesFor b ++ [vote] else t.votesFor b) ∧
    (∀ a, t'.voted.find? a = if a = vote.voter then some vote.target else t.voted.find? a) ∧
    (∀ b, t'.count b ≤ t'.best.elim 0 t'.count) := by
  unfold add at h
  split at h
  · split at h
    · split at h <;> cases h
    · cases h
  · next hnone =>
    cases h
    refine ⟨hnone, ?_, ?_, count_le_best ord _⟩
    · intro b
      simp only [votesFor, updateBest, SortedMap.find?_insert]
      split
      · next hb => rw [hb, Option.getD_some]
      · rfl
    · intro a
      simp only [updateBest, SortedMap.find?_insert]
      split <;> rfl

/-- An equivocation is with a vote for another target, where it is recorded. -/
theorem add_equivocation (ord : HashOrder) (t : Tally) (vote existing : FinalityVote)
    (h : t.add ord vote = .equivocation existing) :
    ∃ b, t.voted.find? vote.voter = some b ∧ b ≠ vote.target ∧ existing ∈ t.votesFor b ∧
      existing.voter = vote.voter := by
  unfold add at h
  split at h
  · next b hb =>
    split at h
    · next hne =>
      split at h
      · next found hfound =>
        cases h
        exact ⟨b, hb, hne, List.mem_of_find?_eq_some hfound, by simpa using List.find?_some hfound⟩
      · cases h
    · cases h
  · cases h

theorem count_add (ord : HashOrder) (t t' : Tally) (vote : FinalityVote) (h : t.add ord vote = .added t')
    (b : Target) : t'.count b = if b = vote.target then t.count b + 1 else t.count b := by
  unfold count
  rw [(add_added ord t t' vote h).2.1 b]
  split
  · rw [List.length_append, List.length_singleton]
  · rfl

theorem add_inv (P : FinalityVote → Prop) (ord : HashOrder) (t t' : Tally) (vote : FinalityVote)
    (ht : t.Inv P) (hP : P vote) (h : t.add ord vote = .added t') : t'.Inv P := by
  obtain ⟨hnone, hvotes, hvoted, hbest⟩ := add_added ord t t' vote h
  -- the validator has no vote in any list yet
  have hfresh : ∀ b, ∀ v ∈ t.votesFor b, v.voter ≠ vote.voter := by
    intro b v hv heq
    have := (ht.counted b v hv).2.2
    rw [heq, hnone] at this
    cases this
  refine ⟨?_, ?_, hbest⟩
  · intro b v hv
    have hold : ∀ b, ∀ v ∈ t.votesFor b, P v ∧ v.target = b ∧ t'.voted.find? v.voter = some b := by
      intro b v hv
      refine ⟨(ht.counted b v hv).1, (ht.counted b v hv).2.1, ?_⟩
      rw [hvoted, if_neg (hfresh b v hv)]
      exact (ht.counted b v hv).2.2
    rw [hvotes b] at hv
    split at hv
    · next hb =>
      rcases List.mem_append.mp hv with hv | hv
      · exact hold b v hv
      · obtain rfl : v = vote := by simpa using hv
        refine ⟨hP, hb.symm, ?_⟩
        rw [hvoted, if_pos rfl, hb]
    · exact hold b v hv
  · intro b
    rw [hvotes b]
    split
    · rw [List.map_append, List.map_singleton, List.nodup_append]
      refine ⟨ht.nodup b, List.nodup_singleton _, ?_⟩
      intro x hx y hy
      obtain ⟨v, hv, rfl⟩ := List.mem_map.mp hx
      obtain rfl : y = vote.voter := by simpa using hy
      exact hfresh b v hv
    · exact ht.nodup b

end Tally

/-! ## The collector's invariant -/

namespace VoteCollector

/-- A verified vote of the given type, by a validator, for the given round. -/
structure Accepted (cr : Crypto) (epoch round : Nat) (validators : Finset AccountId) (ty : VoteType)
    (v : FinalityVote) : Prop where
  verified : v.verify cr = true
  voteType : v.voteType = ty
  epoch : v.epoch = epoch
  round : v.round = round
  voter : v.voter ∈ validators

structure Inv (cr : Crypto) (c : VoteCollector) : Prop where
  prevotes : c.prevotes.Inv (Accepted cr c.epoch c.round c.validators .prevote)
  precommits : c.precommits.Inv (Accepted cr c.epoch c.round c.validators .precommit)
  prevoting : c.state = .prevoting → ∀ b, c.precommits.count b = 0
  precommitting : c.state = .precommitting →
    ∀ b, hasSupermajority (c.precommits.count b) c.validatorCount = false
  completed : c.state = .completed → ∃ b, c.precommits.best = some b ∧
    hasSupermajority (c.precommits.count b) c.validatorCount = true

theorem inv_new (cr : Crypto) (epoch round : Nat) (validators : Finset AccountId) :
    (new epoch round validators).Inv cr := by
  refine ⟨Tally.inv_empty _, Tally.inv_empty _, fun _ _ => rfl, ?_, ?_⟩
  · intro h
    cases h
  · intro h
    cases h

/-- The votes of one phase. -/
def tally (c : VoteCollector) : VoteType → Tally
  | .prevote => c.prevotes
  | .precommit => c.precommits

/-- **Effect.**  What adding a vote can do, and what it returns. -/
inductive Effect (cr : Crypto) (ord : HashOrder) (c : VoteCollector) (vote : FinalityVote) :
    VoteCollector × Except VoteError Bool → Prop
  | ignored (r : Except VoteError Bool) (hr : r ≠ .ok true) : Effect cr ord c vote (c, r)
  | reported (existing : FinalityVote) (b : Target)
      (haccepted : Accepted cr c.epoch c.round c.validators vote.voteType vote)
      (hvoted : (c.tally vote.voteType).voted.find? vote.voter = some b) (hne : b ≠ vote.target)
      (hexisting : existing ∈ (c.tally vote.voteType).votesFor b) (hvoter : existing.voter = vote.voter) :
      Effect cr ord c vote (c.reportEquivocation existing vote, .error (.equivocation vote.voter))
  | prevote (t : Tally) (haccepted : Accepted cr c.epoch c.round c.validators .prevote vote)
      (hadd : c.prevotes.add ord vote = .added t) :
      Effect cr ord c vote (checkPrevoteThreshold { c with prevotes := t }, .ok true)
  | precommit (t : Tally) (haccepted : Accepted cr c.epoch c.round c.validators .precommit vote)
      (hstate : c.state ≠ .prevoting) (hadd : c.precommits.add ord vote = .added t) :
      Effect cr ord c vote (checkPrecommitThreshold { c with precommits := t }, .ok true)

theorem addVote_effect (cr : Crypto) (ord : HashOrder) (c : VoteCollector) (vote : FinalityVote) :
    Effect cr ord c vote (c.addVote cr ord vote) := by
  unfold addVote
  split
  · exact .ignored _ (by simp)
  next hround =>
  split
  · exact .ignored _ (by simp)
  next hval =>
  split
  · exact .ignored _ (by simp)
  next hphase =>
  split
  · exact .ignored _ (by simp)
  next hverify =>
  push Not at hround hval hphase
  have hacc : Accepted cr c.epoch c.round c.validators vote.voteType vote :=
    ⟨by simpa using hverify, rfl, hround.1, hround.2, hval⟩
  cases hty : vote.voteType with
  | prevote =>
    rw [hty] at hacc
    simp only [addPrevote]
    cases hadd : c.prevotes.add ord vote with
    | equivocation existing =>
      obtain ⟨b, hvoted, hne, hmem, hvoter⟩ := Tally.add_equivocation ord _ vote existing hadd
      exact .reported existing b (by rwa [hty]) (by rwa [hty]) hne (by rwa [hty]) hvoter
    | duplicate => exact .ignored _ (by simp)
    | added t => exact .prevote t hacc hadd
  | precommit =>
    rw [hty] at hacc
    simp only [addPrecommit]
    cases hadd : c.precommits.add ord vote with
    | equivocation existing =>
      obtain ⟨b, hvoted, hne, hmem, hvoter⟩ := Tally.add_equivocation ord _ vote existing hadd
      exact .reported existing b (by rwa [hty]) (by rwa [hty]) hne (by rwa [hty]) hvoter
    | duplicate => exact .ignored _ (by simp)
    | added t => exact .precommit t hacc (hphase hty) hadd

/-- The vote is not counted and at most an equivocation is noted, or it is an accepted prevote
or precommit and is counted. -/
theorem addVote_cases (cr : Crypto) (ord : HashOrder) (c : VoteCollector) (vote : FinalityVote) :
    (∃ es r, c.addVote cr ord vote = ({ c with equivocations := es }, r) ∧ r ≠ .ok true) ∨
    (∃ t, c.addVote cr ord vote = (checkPrevoteThreshold { c with prevotes := t }, .ok true) ∧
      Accepted cr c.epoch c.round c.validators .prevote vote ∧
      c.prevotes.add ord vote = .added t) ∨
    (∃ t, c.addVote cr ord vote = (checkPrecommitThreshold { c with precommits := t }, .ok true) ∧
      Accepted cr c.epoch c.round c.validators .precommit vote ∧ c.state ≠ .prevoting ∧
      c.precommits.add ord vote = .added t) := by
  have heffect := addVote_effect cr ord c vote
  generalize c.addVote cr ord vote = r at heffect ⊢
  cases heffect with
  | ignored r hr => exact Or.inl ⟨c.equivocations, r, rfl, hr⟩
  | reported existing b => exact Or.inl ⟨_, _, rfl, by simp⟩
  | prevote t haccepted hadd => exact Or.inr (Or.inl ⟨t, rfl, haccepted, hadd⟩)
  | precommit t haccepted hstate hadd => exact Or.inr (Or.inr ⟨t, rfl, haccepted, hstate, hadd⟩)

/-- The thresholds only move the state. -/
theorem checkPrevoteThreshold_eq (c : VoteCollector) :
    checkPrevoteThreshold c = c ∨
      (c.state = .prevoting ∧ checkPrevoteThreshold c = { c with state := .precommitting }) := by
  unfold checkPrevoteThreshold
  split
  · exact Or.inl rfl
  · next hs =>
    split
    · exact Or.inl rfl
    · split
      · exact Or.inr ⟨not_not.mp hs, rfl⟩
      · exact Or.inl rfl

theorem checkPrecommitThreshold_eq (c : VoteCollector) :
    (checkPrecommitThreshold c = c ∧ (c.state = .precommitting → ∀ b, c.precommits.best = some b →
      hasSupermajority (c.precommits.count b) c.validatorCount = false)) ∨
    (c.state = .precommitting ∧ checkPrecommitThreshold c = { c with state := .completed } ∧
      ∃ b, c.precommits.best = some b ∧
        hasSupermajority (c.precommits.count b) c.validatorCount = true) := by
  unfold checkPrecommitThreshold
  split
  · next hs => exact Or.inl ⟨rfl, fun h => absurd h hs⟩
  · next hs =>
    split
    · next hb =>
      refine Or.inl ⟨rfl, fun _ b h => ?_⟩
      rw [hb] at h
      cases h
    · next b hb =>
      split
      · next hsup => exact Or.inr ⟨not_not.mp hs, rfl, b, hb, hsup⟩
      · next hsup =>
        refine Or.inl ⟨rfl, fun _ b' h => ?_⟩
        rw [hb] at h
        cases h
        simpa using hsup

/-- Nothing but the state moves. -/
theorem checkPrevoteThreshold_with (c : VoteCollector) : ∃ s, checkPrevoteThreshold c = { c with state := s } := by
  rcases checkPrevoteThreshold_eq c with heq | ⟨-, heq⟩
  · exact ⟨c.state, heq⟩
  · exact ⟨.precommitting, heq⟩

theorem checkPrecommitThreshold_with (c : VoteCollector) :
    ∃ s, checkPrecommitThreshold c = { c with state := s } := by
  rcases checkPrecommitThreshold_eq c with ⟨heq, -⟩ | ⟨-, heq, -⟩
  · exact ⟨c.state, heq⟩
  · exact ⟨.completed, heq⟩

/-- A larger count keeps a supermajority. -/
theorem hasSupermajority_mono (m n total : Nat) (h : m ≤ n) (hm : hasSupermajority m total = true) :
    hasSupermajority n total = true := by
  unfold hasSupermajority at hm ⊢
  split
  · next h0 => simp [h0] at hm
  · next h0 =>
    simp only [if_neg h0, decide_eq_true_eq] at hm ⊢
    omega

theorem hasSupermajority_zero (total : Nat) : hasSupermajority 0 total = false := by
  unfold hasSupermajority supermajorityThresholdPercent
  split
  · rfl
  · simp only [decide_eq_false_iff_not]
    omega

/-- **Step.**  Adding a vote keeps the invariant. -/
theorem addVote_inv (cr : Crypto) (ord : HashOrder) (c : VoteCollector) (vote : FinalityVote)
    (h : c.Inv cr) : (c.addVote cr ord vote).1.Inv cr := by
  rcases addVote_cases cr ord c vote with ⟨es, r, hadd, -⟩ | ⟨t, hadd, hacc, ht⟩ | ⟨t, hadd, hacc, hs, ht⟩
  · rw [hadd]
    exact ⟨h.prevotes, h.precommits, h.prevoting, h.precommitting, h.completed⟩
  · rw [hadd]
    have hinv := Tally.add_inv _ ord _ _ _ h.prevotes hacc ht
    rcases checkPrevoteThreshold_eq { c with prevotes := t } with heq | ⟨hs, heq⟩
    · simp only [heq]
      exact ⟨hinv, h.precommits, h.prevoting, h.precommitting, h.completed⟩
    · -- entering the precommit phase with no precommit counted
      simp only [heq]
      refine ⟨hinv, h.precommits, by rintro ⟨⟩, ?_, by rintro ⟨⟩⟩
      intro _ b
      have hz := h.prevoting hs b
      simp only [validatorCount]
      rw [hz]
      exact hasSupermajority_zero _
  · rw [hadd]
    have hinv := Tally.add_inv _ ord _ _ _ h.precommits hacc ht
    have hcount := Tally.count_add ord _ _ _ ht
    rcases checkPrecommitThreshold_eq { c with precommits := t } with ⟨heq, hno⟩ | ⟨hs', heq, b, hb, hsup⟩
    · simp only [heq]
      refine ⟨h.prevotes, hinv, fun hp => absurd hp hs, ?_, ?_⟩
      · intro hpc b
        -- the best target has no supermajority, so no target has one
        cases hbest : t.best with
        | none =>
          have hle := hinv.best b
          rw [hbest, Option.elim_none] at hle
          rw [Nat.le_zero.mp hle]
          exact hasSupermajority_zero _
        | some m =>
          have hle := hinv.best b
          rw [hbest, Option.elim_some] at hle
          by_contra hne
          have := hasSupermajority_mono _ _ _ hle (by simpa using hne)
          rw [hno hpc m hbest] at this
          cases this
      · intro hc
        obtain ⟨b, hb, hsup⟩ := h.completed hc
        have hle := hinv.best b
        have hmono : c.precommits.count b ≤ t.count b := by
          rw [hcount b]
          split <;> omega
        have hpos := hasSupermajority_mono _ _ _ (le_trans hmono hle) hsup
        cases hbest : t.best with
        | none =>
          rw [hbest, Option.elim_none, hasSupermajority_zero] at hpos
          cases hpos
        | some m =>
          rw [hbest] at hpos
          exact ⟨m, rfl, hpos⟩
    · simp only [heq]
      exact ⟨h.prevotes, hinv, by rintro ⟨⟩, by rintro ⟨⟩, fun _ => ⟨b, hb, hsup⟩⟩

/-- Adding a vote leaves the round and its validators. -/
theorem addVote_frame (cr : Crypto) (ord : HashOrder) (c : VoteCollector) (vote : FinalityVote) :
    (c.addVote cr ord vote).1.epoch = c.epoch ∧ (c.addVote cr ord vote).1.round = c.round ∧
      (c.addVote cr ord vote).1.validators = c.validators := by
  rcases addVote_cases cr ord c vote with ⟨es, r, hadd, -⟩ | ⟨t, hadd, -, -⟩ | ⟨t, hadd, -, -, -⟩
  · rw [hadd]
    exact ⟨rfl, rfl, rfl⟩
  · obtain ⟨s, heq⟩ := checkPrevoteThreshold_with { c with prevotes := t }
    rw [hadd, heq]
    exact ⟨rfl, rfl, rfl⟩
  · obtain ⟨s, heq⟩ := checkPrecommitThreshold_with { c with precommits := t }
    rw [hadd, heq]
    exact ⟨rfl, rfl, rfl⟩

/-- **Completion.**  The vote that completes a round is a precommit, the first one of its
validator, that brings its own target to a supermajority. -/
theorem addVote_completes (cr : Crypto) (ord : HashOrder) (c : VoteCollector) (vote : FinalityVote)
    (h : c.Inv cr) (hne : c.state ≠ .completed) (hs : (c.addVote cr ord vote).1.state = .completed) :
    Accepted cr c.epoch c.round c.validators .precommit vote ∧ c.state = .precommitting ∧
      c.precommits.voted.find? vote.voter = none ∧
      hasSupermajority (c.precommits.count vote.target + 1) c.validatorCount = true ∧
      (c.addVote cr ord vote).1.finalizedTarget = some vote.target := by
  rcases addVote_cases cr ord c vote with ⟨es, r, hadd, -⟩ | ⟨t, hadd, -, -⟩ | ⟨t, hadd, hacc, -, ht⟩
  · rw [hadd] at hs
    exact absurd hs hne
  · rw [hadd] at hs
    rcases checkPrevoteThreshold_eq { c with prevotes := t } with heq | ⟨-, heq⟩
    · rw [heq] at hs
      exact absurd hs hne
    · rw [heq] at hs
      cases hs
  · rw [hadd] at hs ⊢
    rcases checkPrecommitThreshold_eq { c with precommits := t } with ⟨heq, -⟩ | ⟨hpc, heq, b, hb, hsup⟩
    · rw [heq] at hs
      exact absurd hs hne
    · change c.state = .precommitting at hpc
      change hasSupermajority (t.count b) c.validatorCount = true at hsup
      rw [Tally.count_add ord _ t vote ht] at hsup
      -- no target had a supermajority before, so it is the vote's own that has one now
      split at hsup
      · next hbv =>
        rw [hbv] at hsup hb
        refine ⟨hacc, hpc, (Tally.add_added ord _ t vote ht).1, hsup, ?_⟩
        unfold finalizedTarget
        rw [heq, if_pos rfl, ← hb]
      · rw [h.precommitting hpc b] at hsup
        cases hsup

/-- A counted precommit was counted before or is the vote just added. -/
theorem mem_precommits_addVote (cr : Crypto) (ord : HashOrder) (c : VoteCollector) (vote v : FinalityVote)
    (b : Target) (h : v ∈ (c.addVote cr ord vote).1.precommits.votesFor b) :
    v ∈ c.precommits.votesFor b ∨ v = vote := by
  rcases addVote_cases cr ord c vote with ⟨es, r, hadd, -⟩ | ⟨t, hadd, -, -⟩ | ⟨t, hadd, -, -, ht⟩
  · rw [hadd] at h
    exact Or.inl h
  · obtain ⟨s, heq⟩ := checkPrevoteThreshold_with { c with prevotes := t }
    rw [hadd, heq] at h
    exact Or.inl h
  · obtain ⟨s, heq⟩ := checkPrecommitThreshold_with { c with precommits := t }
    rw [hadd, heq] at h
    have hmem : v ∈ t.votesFor b := h
    rw [(Tally.add_added ord _ _ _ ht).2.1 b] at hmem
    split at hmem
    · rcases List.mem_append.mp hmem with hmem | hmem
      · exact Or.inl hmem
      · exact Or.inr (by simpa using hmem)
    · exact Or.inl hmem

/-- The precommits counted for a block are verified votes for it by distinct validators
of the round, a supermajority of them. -/
structure Supported (cr : Crypto) (c : VoteCollector) (b : Target) : Prop where
  accepted : ∀ v ∈ c.precommits.votesFor b, Accepted cr c.epoch c.round c.validators .precommit v
  forTarget : ∀ v ∈ c.precommits.votesFor b, v.target = b
  distinct : ((c.precommits.votesFor b).map FinalityVote.voter).Nodup
  supermajority : hasSupermajority (c.precommits.votesFor b).length c.validatorCount = true

/-- A completed round has a finalized target, and it is supported. -/
theorem supported_of_completed (cr : Crypto) (c : VoteCollector) (h : c.Inv cr)
    (hs : c.state = .completed) : ∃ b, c.finalizedTarget = some b ∧ c.Supported cr b := by
  obtain ⟨b, hb, hsup⟩ := h.completed hs
  refine ⟨b, ?_, ?_⟩
  · unfold finalizedTarget
    rw [if_pos hs, hb]
  · exact ⟨fun v hv => (h.precommits.counted b v hv).1, fun v hv => (h.precommits.counted b v hv).2.1,
      h.precommits.nodup b, hsup⟩

end VoteCollector

end Kratos
