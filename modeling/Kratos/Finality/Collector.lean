import Kratos.Finality.Agreement
import Kratos.Lib.Run

/-!
# Runs of a vote collector

A run adds votes and may mark the round as failed.  Along it every validator is in the list
of the target that is recorded for it (`Recorded`), the best target has most votes, and two
targets cannot both have a supermajority, so the finalized target stays
(`collector_invariant`, `finalizedTarget_stable`).

Nothing ties the two phases together: a precommit is counted for any block, also the one that
completes the round (`both_phases`).  The detector of equivocations compares targets, and the
check of a proof compares hashes (`evidence_valid_iff`).
-/

namespace Kratos

namespace Tally

/-- The validator's vote is in the list of the target recorded for it. -/
def Recorded (t : Tally) : Prop :=
  ∀ a b, t.voted.find? a = some b → ∃ v ∈ t.votesFor b, v.voter = a

theorem recorded_empty : empty.Recorded := fun _ _ h => nomatch h

theorem recorded_add (ord : HashOrder) (t t' : Tally) (vote : FinalityVote) (h : t.Recorded)
    (hadd : t.add ord vote = .added t') : t'.Recorded := by
  obtain ⟨-, hvotes, hvoted, -⟩ := add_added ord t t' vote hadd
  intro a b hab
  rw [hvoted] at hab
  rw [hvotes]
  split at hab
  · next ha =>
    cases hab
    rw [if_pos rfl]
    exact ⟨vote, List.mem_append_right _ (List.mem_singleton_self vote), ha.symm⟩
  · obtain ⟨v, hv, hva⟩ := h a b hab
    refine ⟨v, ?_, hva⟩
    split
    · exact List.mem_append_left _ hv
    · exact hv

/-- The validators that voted for a target. -/
def voters (t : Tally) (b : Target) : Finset AccountId := ((t.votesFor b).map FinalityVote.voter).toFinset

theorem card_voters {P : FinalityVote → Prop} {t : Tally} (h : t.Inv P) (b : Target) :
    (t.voters b).card = t.count b := by
  unfold voters count
  rw [List.toFinset_card_of_nodup (h.nodup b), List.length_map]

theorem mem_voters (t : Tally) (b : Target) (a : AccountId) :
    a ∈ t.voters b ↔ ∃ v ∈ t.votesFor b, v.voter = a := by
  unfold voters
  rw [List.mem_toFinset, List.mem_map]

theorem voted_of_mem_voters {P : FinalityVote → Prop} {t : Tally} (h : t.Inv P) {a : AccountId} {b : Target}
    (ha : a ∈ t.voters b) : t.voted.find? a = some b := by
  obtain ⟨v, hv, rfl⟩ := (mem_voters t b a).1 ha
  exact (h.counted b v hv).2.2

/-- **One supermajority.**  Two targets with a supermajority of the same validators share a
validator, so they are the same. -/
theorem supermajority_unique {P : FinalityVote → Prop} {t : Tally} (h : t.Inv P) (validators : Finset AccountId)
    (hsub : ∀ b, ∀ v ∈ t.votesFor b, v.voter ∈ validators) (b b' : Target)
    (hb : hasSupermajority (t.count b) validators.card = true)
    (hb' : hasSupermajority (t.count b') validators.card = true) : b = b' := by
  have hsubset : ∀ b, t.voters b ⊆ validators := by
    intro b a ha
    obtain ⟨v, hv, rfl⟩ := (mem_voters t b a).1 ha
    exact hsub b v hv
  have hlarge : validators.card + (∅ : Finset AccountId).card < (t.voters b).card + (t.voters b').card := by
    obtain ⟨hpos, hq⟩ := (hasSupermajority_iff _ _).1 hb
    obtain ⟨-, hq'⟩ := (hasSupermajority_iff _ _).1 hb'
    rw [card_voters h, card_voters h, Finset.card_empty]
    unfold quorum supermajorityThresholdPercent at hq hq'
    omega
  obtain ⟨a, ha, -⟩ := Quorum.exists_mem_inter_not_mem validators _ _ ∅ (hsubset b) (hsubset b') hlarge
  obtain ⟨hab, hab'⟩ := Finset.mem_inter.1 ha
  exact Option.some.inj ((voted_of_mem_voters h hab).symm.trans (voted_of_mem_voters h hab'))

end Tally

/-! ## What a call can do -/

/-- The validator voted for two blocks in one phase of one round. -/
def EquivocationProof.isValid (cr : Crypto) (e : EquivocationProof) : Bool :=
  if e.vote1.voter ≠ e.vote2.voter then false
  else if e.vote1.round ≠ e.vote2.round ∨ e.vote1.epoch ≠ e.vote2.epoch then false
  else if e.vote1.voteType ≠ e.vote2.voteType then false
  else if e.vote1.targetHash = e.vote2.targetHash then false
  else e.vote1.verify cr && e.vote2.verify cr

inductive CollectorOp where
  | addVote (ord : HashOrder) (vote : FinalityVote)
  | markFailed

namespace VoteCollector

def apply (cr : Crypto) (c : VoteCollector) : CollectorOp → VoteCollector
  | .addVote ord vote => (c.addVote cr ord vote).1
  | .markFailed => c.markFailed

/-! ## The invariant of a run -/

/-- How the state may change in one call. -/
inductive Moves : RoundState → RoundState → Prop
  | stays (s : RoundState) : Moves s s
  | precommits : Moves .prevoting .precommitting
  | completes : Moves .precommitting .completed
  | fails (s : RoundState) (h : s ≠ .completed) : Moves s .failed

theorem moves_addVote (cr : Crypto) (ord : HashOrder) (c : VoteCollector) (vote : FinalityVote) :
    Moves c.state (c.addVote cr ord vote).1.state := by
  have heffect := addVote_effect cr ord c vote
  generalize c.addVote cr ord vote = r at heffect ⊢
  cases heffect with
  | ignored => exact .stays _
  | reported => exact .stays _
  | prevote t haccepted hadd =>
    rcases checkPrevoteThreshold_eq { c with prevotes := t } with heq | ⟨hs, heq⟩
    · rw [heq]
      exact .stays _
    · have hs' : c.state = .prevoting := hs
      rw [heq, hs']
      exact .precommits
  | precommit t haccepted hstate hadd =>
    rcases checkPrecommitThreshold_eq { c with precommits := t } with ⟨heq, -⟩ | ⟨hs, heq, -⟩
    · rw [heq]
      exact .stays _
    · have hs' : c.state = .precommitting := hs
      rw [heq, hs']
      exact .completes

theorem moves_apply (cr : Crypto) (c : VoteCollector) (op : CollectorOp) :
    Moves c.state (c.apply cr op).state := by
  cases op with
  | addVote ord vote => exact moves_addVote cr ord c vote
  | markFailed =>
    show Moves c.state c.markFailed.state
    unfold markFailed
    split
    · next hs => exact .fails _ hs
    · exact .stays _

/-- The invariant of a collector, of one round and its validators, with both phases recorded. -/
structure RunInv (cr : Crypto) (epoch round : Nat) (validators : Finset AccountId) (c : VoteCollector) :
    Prop where
  epoch_eq : c.epoch = epoch
  round_eq : c.round = round
  validators_eq : c.validators = validators
  inv : c.Inv cr
  prevoteRecorded : c.prevotes.Recorded
  precommitRecorded : c.precommits.Recorded

variable {cr : Crypto} {epoch round : Nat} {validators : Finset AccountId}

theorem runInv_new (cr : Crypto) (epoch round : Nat) (validators : Finset AccountId) :
    RunInv cr epoch round validators (new epoch round validators) :=
  ⟨rfl, rfl, rfl, inv_new cr epoch round validators, Tally.recorded_empty, Tally.recorded_empty⟩

theorem RunInv.addVote {c : VoteCollector} (h : RunInv cr epoch round validators c) (ord : HashOrder)
    (vote : FinalityVote) : RunInv cr epoch round validators (c.addVote cr ord vote).1 := by
  obtain ⟨hepoch, hround, hvalidators⟩ := addVote_frame cr ord c vote
  have hinv := addVote_inv cr ord c vote h.inv
  have heffect := addVote_effect cr ord c vote
  generalize c.addVote cr ord vote = r at hepoch hround hvalidators hinv heffect ⊢
  refine ⟨hepoch.trans h.epoch_eq, hround.trans h.round_eq, hvalidators.trans h.validators_eq, hinv, ?_, ?_⟩
  · cases heffect with
    | ignored => exact h.prevoteRecorded
    | reported => exact h.prevoteRecorded
    | prevote t haccepted hadd =>
      have ht := Tally.recorded_add ord _ t vote h.prevoteRecorded hadd
      obtain ⟨s, heq⟩ := checkPrevoteThreshold_with { c with prevotes := t }
      rw [heq]
      exact ht
    | precommit t haccepted hstate hadd =>
      obtain ⟨s, heq⟩ := checkPrecommitThreshold_with { c with precommits := t }
      rw [heq]
      exact h.prevoteRecorded
  · cases heffect with
    | ignored => exact h.precommitRecorded
    | reported => exact h.precommitRecorded
    | prevote t haccepted hadd =>
      obtain ⟨s, heq⟩ := checkPrevoteThreshold_with { c with prevotes := t }
      rw [heq]
      exact h.precommitRecorded
    | precommit t haccepted hstate hadd =>
      have ht := Tally.recorded_add ord _ t vote h.precommitRecorded hadd
      obtain ⟨s, heq⟩ := checkPrecommitThreshold_with { c with precommits := t }
      rw [heq]
      exact ht

theorem RunInv.markFailed {c : VoteCollector} (h : RunInv cr epoch round validators c) :
    RunInv cr epoch round validators c.markFailed := by
  unfold VoteCollector.markFailed
  split
  · exact ⟨h.epoch_eq, h.round_eq, h.validators_eq,
      ⟨h.inv.prevotes, h.inv.precommits, nofun, nofun, nofun⟩, h.prevoteRecorded, h.precommitRecorded⟩
  · exact h

/-- **Step.** -/
theorem RunInv.apply {c : VoteCollector} (h : RunInv cr epoch round validators c) (op : CollectorOp) :
    RunInv cr epoch round validators (c.apply cr op) := by
  cases op with
  | addVote ord vote => exact h.addVote ord vote
  | markFailed => exact h.markFailed

/-- **Run.** -/
theorem RunInv.foldl {c : VoteCollector} (h : RunInv cr epoch round validators c) (ops : List CollectorOp) :
    RunInv cr epoch round validators (ops.foldl (VoteCollector.apply cr) c) :=
  Run.inv_foldl (VoteCollector.apply cr) (fun _ _ => True) (RunInv cr epoch round validators)
    (fun _ op hc _ => hc.apply op) c ops h (Run.meets_of_forall _ _ (fun _ _ => trivial) c ops)

/-! ## The finalized target stays -/

/-- Counts do not go down. -/
theorem count_le_apply (cr : Crypto) (c : VoteCollector) (op : CollectorOp) (ty : VoteType) (b : Target) :
    (c.tally ty).count b ≤ ((c.apply cr op).tally ty).count b := by
  have hadd : ∀ (ord : HashOrder) (t t' : Tally) (vote : FinalityVote), t.add ord vote = .added t' →
      t.count b ≤ t'.count b := by
    intro ord t t' vote h
    rw [Tally.count_add ord t t' vote h]
    split <;> omega
  cases op with
  | markFailed =>
    show _ ≤ (c.markFailed.tally ty).count b
    unfold markFailed
    split <;> cases ty <;> exact le_refl _
  | addVote ord vote =>
    show _ ≤ ((c.addVote cr ord vote).1.tally ty).count b
    have heffect := addVote_effect cr ord c vote
    generalize c.addVote cr ord vote = r at heffect ⊢
    cases heffect with
    | ignored => exact le_refl _
    | reported => cases ty <;> exact le_refl _
    | prevote t haccepted h =>
      have hle := hadd ord _ t vote h
      obtain ⟨s, heq⟩ := checkPrevoteThreshold_with { c with prevotes := t }
      rw [heq]
      cases ty
      · exact hle
      · exact le_refl _
    | precommit t haccepted hstate h =>
      have hle := hadd ord _ t vote h
      obtain ⟨s, heq⟩ := checkPrecommitThreshold_with { c with precommits := t }
      rw [heq]
      cases ty
      · exact le_refl _
      · exact hle

/-- A completed round has finalized the one target with a supermajority of precommits. -/
theorem RunInv.finalizedTarget_iff {c : VoteCollector} (h : RunInv cr epoch round validators c)
    (hs : c.state = .completed) (b : Target) :
    c.finalizedTarget = some b ↔ hasSupermajority (c.precommits.count b) validators.card = true := by
  obtain ⟨m, hm, hsup⟩ := h.inv.completed hs
  have hfinal : c.finalizedTarget = some m := by
    unfold finalizedTarget
    rw [if_pos hs, hm]
  unfold validatorCount at hsup
  rw [h.validators_eq] at hsup
  rw [hfinal]
  constructor
  · rintro ⟨⟩
    exact hsup
  · intro hb
    have hvoters : ∀ b, ∀ v ∈ c.precommits.votesFor b, v.voter ∈ validators := by
      intro b v hv
      have hvoter := (h.inv.precommits.counted b v hv).1.voter
      rwa [h.validators_eq] at hvoter
    rw [Tally.supermajority_unique h.inv.precommits validators hvoters m b hsup hb]

theorem completed_apply (cr : Crypto) (c : VoteCollector) (op : CollectorOp) (hs : c.state = .completed) :
    (c.apply cr op).state = .completed := by
  have hmoves := moves_apply cr c op
  rw [hs] at hmoves
  generalize (c.apply cr op).state = s' at hmoves
  cases hmoves with
  | stays => rfl
  | fails _ h => exact absurd rfl h

/-- **Stability.**  Whatever comes later, a completed round stays completed with its target. -/
theorem finalizedTarget_stable {c : VoteCollector} (h : RunInv cr epoch round validators c)
    (hs : c.state = .completed) (ops : List CollectorOp) :
    (ops.foldl (apply cr) c).state = .completed ∧
      (ops.foldl (apply cr) c).finalizedTarget = c.finalizedTarget := by
  induction ops generalizing c with
  | nil => exact ⟨hs, rfl⟩
  | cons op ops ih =>
    have hs' := completed_apply cr c op hs
    obtain ⟨hstate, htarget⟩ := ih (h.apply op) hs'
    refine ⟨hstate, htarget.trans ?_⟩
    obtain ⟨m, hm, -⟩ := supported_of_completed cr c h.inv hs
    rw [hm]
    have hsup := (h.finalizedTarget_iff hs m).1 hm
    exact ((h.apply op).finalizedTarget_iff hs' m).2
      (hasSupermajority_mono _ _ _ (count_le_apply cr c op .precommit m) hsup)

/-- A state of a run: votes stand where they are recorded, are accepted votes of the round, and
the best target has most of them. -/
structure WellFormed (cr : Crypto) (epoch round : Nat) (validators : Finset AccountId) (c : VoteCollector) :
    Prop where
  located : ∀ ty a b, (∃ v ∈ (c.tally ty).votesFor b, v.voter = a) ↔ (c.tally ty).voted.find? a = some b
  once : ∀ ty b, (((c.tally ty).votesFor b).map FinalityVote.voter).Nodup
  accepted : ∀ ty b, ∀ v ∈ (c.tally ty).votesFor b, Accepted cr epoch round validators ty v ∧ v.target = b
  best : ∀ ty b, (c.tally ty).count b ≤ (c.tally ty).best.elim 0 (c.tally ty).count
  finalized : c.state = .completed →
    ∃ b, c.finalizedTarget = some b ∧ hasSupermajority (c.precommits.count b) validators.card = true

theorem RunInv.wellFormed {c : VoteCollector} (h : RunInv cr epoch round validators c) :
    WellFormed cr epoch round validators c := by
  have hepoch := h.epoch_eq
  have hround := h.round_eq
  have hvalidators := h.validators_eq
  subst hepoch hround hvalidators
  have hinv : ∀ ty, (c.tally ty).Inv (Accepted cr c.epoch c.round c.validators ty) := by
    intro ty
    cases ty with
    | prevote => exact h.inv.prevotes
    | precommit => exact h.inv.precommits
  have hrecorded : ∀ ty, (c.tally ty).Recorded := by
    intro ty
    cases ty with
    | prevote => exact h.prevoteRecorded
    | precommit => exact h.precommitRecorded
  constructor
  case located =>
    intro ty a b
    constructor
    · rintro ⟨v, hv, rfl⟩
      exact ((hinv ty).counted b v hv).2.2
    · exact hrecorded ty a b
  case once => exact fun ty => (hinv ty).nodup
  case accepted => exact fun ty b v hv => ⟨((hinv ty).counted b v hv).1, ((hinv ty).counted b v hv).2.1⟩
  case best => exact fun ty => (hinv ty).best
  case finalized =>
    intro hs
    obtain ⟨b, hb, hsup⟩ := supported_of_completed cr c h.inv hs
    exact ⟨b, hb, hsup.supermajority⟩

/-- **Collector invariant.**  Every state of a run is well-formed, the state only moves
forward, and a completed round keeps its target in every later state. -/
theorem collector_invariant (cr : Crypto) (epoch round : Nat) (validators : Finset AccountId)
    (ops : List CollectorOp) :
    WellFormed cr epoch round validators (ops.foldl (apply cr) (new epoch round validators)) ∧
    (∀ op, Moves (ops.foldl (apply cr) (new epoch round validators)).state
      ((ops.foldl (apply cr) (new epoch round validators)).apply cr op).state) ∧
    ((ops.foldl (apply cr) (new epoch round validators)).state = .completed →
      ∀ later : List CollectorOp, ((ops ++ later).foldl (apply cr) (new epoch round validators)).finalizedTarget =
        (ops.foldl (apply cr) (new epoch round validators)).finalizedTarget) := by
  have h := (runInv_new cr epoch round validators).foldl ops
  refine ⟨h.wellFormed, moves_apply cr _, fun hs later => ?_⟩
  rw [List.foldl_append]
  exact (finalizedTarget_stable h hs later).2

/-! ## Both phases -/

/-- The vote is the precommit that completes the round. -/
structure Completes (cr : Crypto) (c : VoteCollector) (vote : FinalityVote) : Prop where
  accepted : Accepted cr c.epoch c.round c.validators .precommit vote
  state : c.state = .precommitting
  fresh : c.precommits.voted.find? vote.voter = none
  reaches : hasSupermajority (c.precommits.count vote.target + 1) c.validatorCount = true

/-- It does, with its own target, and the prevotes are as before. -/
theorem addVote_of_completes {c : VoteCollector} (h : RunInv cr epoch round validators c) (ord : HashOrder)
    (vote : FinalityVote) (hc : Completes cr c vote) :
    (c.addVote cr ord vote).1.finalizedTarget = some vote.target ∧
      (c.addVote cr ord vote).1.prevotes = c.prevotes := by
  obtain ⟨-, -, hvalidators⟩ := addVote_frame cr ord c vote
  have hcounted := addVote_fresh_precommit cr ord c vote hc.accepted hc.fresh (.inl hc.state)
  have hsup : hasSupermajority ((c.addVote cr ord vote).1.precommits.count vote.target) validators.card = true := by
    rw [hcounted.count, ← h.validators_eq]
    exact hc.reaches
  have hs : (c.addVote cr ord vote).1.state = .completed := by
    apply hcounted.ends
    unfold validatorCount
    rwa [hvalidators, h.validators_eq]
  exact ⟨((h.addVote ord vote).finalizedTarget_iff hs vote.target).2 hsup, hcounted.frame⟩

/-- No other vote does. -/
theorem completes_of_addVote {c : VoteCollector} (h : c.Inv cr) (ord : HashOrder) (vote : FinalityVote)
    (hne : c.state ≠ .completed) (hs : (c.addVote cr ord vote).1.state = .completed) :
    Completes cr c vote := by
  obtain ⟨haccepted, hstate, hfresh, hreaches, -⟩ := addVote_completes cr ord c vote h hne hs
  exact ⟨haccepted, hstate, hfresh, hreaches⟩

/-- A precommit that completes the round is for a block with a supermajority of prevotes. -/
def PrecommitsBacked (cr : Crypto) (c : VoteCollector) (op : CollectorOp) : Prop :=
  ∀ ord vote, op = .addVote ord vote → Completes cr c vote →
    hasSupermajority (c.prevotes.count vote.target) c.validatorCount = true

/-- A finalized block has a supermajority of prevotes. -/
def FinalizedBacked (c : VoteCollector) : Prop :=
  ∀ b, c.finalizedTarget = some b → hasSupermajority (c.prevotes.count b) c.validatorCount = true

theorem finalizedBacked_of_open (c : VoteCollector) (hs : c.state ≠ .completed) : c.FinalizedBacked := by
  intro b hb
  unfold finalizedTarget at hb
  rw [if_neg hs] at hb
  cases hb

/-- After completion prevotes are only added. -/
theorem finalizedBacked_completed {c : VoteCollector} (h : RunInv cr epoch round validators c)
    (hs : c.state = .completed) (op : CollectorOp) (hc : c.FinalizedBacked) : (c.apply cr op).FinalizedBacked := by
  intro b hb
  have hsame : (c.apply cr op).finalizedTarget = c.finalizedTarget := (finalizedTarget_stable h hs [op]).2
  have hcount : (c.apply cr op).validatorCount = c.validatorCount := by
    unfold validatorCount
    rw [(h.apply op).validators_eq, h.validators_eq]
  rw [hcount]
  exact hasSupermajority_mono _ _ _ (count_le_apply cr c op .prevote b) (hc b (hsame ▸ hb))

/-- **Step.** -/
theorem finalizedBacked_apply_iff {c : VoteCollector} (h : RunInv cr epoch round validators c) (op : CollectorOp)
    (hc : c.FinalizedBacked) : (c.apply cr op).FinalizedBacked ↔ PrecommitsBacked cr c op := by
  by_cases hs : c.state = .completed
  · refine iff_of_true (finalizedBacked_completed h hs op hc) fun ord vote _ hcompletes => ?_
    have hopen := hcompletes.state
    rw [hs] at hopen
    cases hopen
  · cases op with
    | markFailed =>
      refine iff_of_true (finalizedBacked_of_open _ ?_) fun ord vote heq => ?_
      · show c.markFailed.state ≠ _
        unfold markFailed
        rw [if_pos hs]
        rintro ⟨⟩
      · cases heq
    | addVote ord vote =>
      by_cases hcompletes : Completes cr c vote
      · obtain ⟨htarget, hprevotes⟩ := addVote_of_completes h ord vote hcompletes
        have hcount : (c.addVote cr ord vote).1.validatorCount = c.validatorCount := by
          unfold validatorCount
          rw [(addVote_frame cr ord c vote).2.2]
        show (c.addVote cr ord vote).1.FinalizedBacked ↔ _
        unfold FinalizedBacked
        rw [htarget, hprevotes, hcount]
        constructor
        · intro hbacked ord' vote' heq _
          obtain ⟨-, rfl⟩ := CollectorOp.addVote.inj heq
          exact hbacked vote.target rfl
        · rintro hop b ⟨⟩
          exact hop ord vote rfl hcompletes
      · refine iff_of_true (finalizedBacked_of_open _ fun hs' => ?_) fun ord' vote' heq hcompletes' => ?_
        · exact hcompletes (completes_of_addVote h.inv ord vote hs hs')
        · obtain ⟨-, rfl⟩ := CollectorOp.addVote.inj heq
          exact absurd hcompletes' hcompletes

/-- **Both phases.**  The finalized block has a supermajority of prevotes in every state of a
run if and only if the precommit that completes the round is for such a block. -/
theorem both_phases (cr : Crypto) (epoch round : Nat) (validators : Finset AccountId)
    (ops : List CollectorOp) :
    (∀ k, ((ops.take k).foldl (apply cr) (new epoch round validators)).FinalizedBacked) ↔
      Run.Meets (apply cr) (PrecommitsBacked cr) (new epoch round validators) ops := by
  refine Run.good_take_iff (apply cr) (fun _ _ => True) (PrecommitsBacked cr) (RunInv cr epoch round validators)
    FinalizedBacked (fun c op h _ => h.apply op) (fun c op h _ hc => finalizedBacked_apply_iff h op hc)
    (new epoch round validators) ops (runInv_new cr epoch round validators) ?_ ?_
  · exact finalizedBacked_of_open _ (by rintro ⟨⟩)
  · exact Run.meets_of_forall _ _ (fun _ _ => trivial) _ ops

def threeValidators : Finset AccountId := {⟨1⟩, ⟨2⟩, ⟨3⟩}

/-- Two of them prevote for one block and precommit for another. -/
def splitPhases (prevoted precommitted : Target) : List CollectorOp :=
  [.addVote .sorted (voteOf .prevote 0 0 prevoted ⟨1⟩), .addVote .sorted (voteOf .prevote 0 0 prevoted ⟨2⟩),
    .addVote .sorted (voteOf .precommit 0 0 precommitted ⟨1⟩),
    .addVote .sorted (voteOf .precommit 0 0 precommitted ⟨2⟩)]

/-- The precommits are for a block that nobody prevoted for. -/
theorem both_phases_split :
    ¬ ∀ (cr : Crypto) (epoch round : Nat) (validators : Finset AccountId) (ops : List CollectorOp) (b : Target),
      (ops.foldl (apply cr) (new epoch round validators)).finalizedTarget = some b →
        hasSupermajority ((ops.foldl (apply cr) (new epoch round validators)).prevotes.count b) validators.card =
          true := by
  intro h
  have hsup := h Crypto.sample 0 0 threeValidators (splitPhases ⟨1, ⟨1⟩⟩ ⟨1, ⟨2⟩⟩) ⟨1, ⟨2⟩⟩ (by decide)
  exact absurd hsup (by decide)

/-! ## Evidence -/

/-- A verified second vote of a validator is for another hash, or for the same target. -/
def DistinctHashes (cr : Crypto) (c : VoteCollector) (op : CollectorOp) : Prop :=
  ∀ ord vote, op = .addVote ord vote → Accepted cr c.epoch c.round c.validators vote.voteType vote →
    ∀ b, (c.tally vote.voteType).voted.find? vote.voter = some b → b ≠ vote.target → b.hash ≠ vote.targetHash

/-- The proof that is kept for two accepted votes of one validator in one phase. -/
theorem isValid_of_accepted (cr : Crypto) (epoch round : Nat) (validators : Finset AccountId) (ty : VoteType)
    (existing vote : FinalityVote) (h : Accepted cr epoch round validators ty existing)
    (h' : Accepted cr epoch round validators ty vote) (hvoter : existing.voter = vote.voter) :
    EquivocationProof.isValid cr { validator := vote.voter, vote1 := existing, vote2 := vote, round, epoch } = true ↔
      existing.targetHash ≠ vote.targetHash := by
  unfold EquivocationProof.isValid
  rw [if_neg (not_not.2 hvoter), if_neg (by rw [h.round, h'.round, h.epoch, h'.epoch]; simp),
    if_neg (by rw [h.voteType, h'.voteType]; simp), h.verified, h'.verified]
  show (if existing.targetHash = vote.targetHash then false else (true && true)) = true ↔ _
  split
  · next heq => simp [heq]
  · next hne => simp [hne]

/-- A vote is found where it is recorded. -/
theorem RunInv.find_first {c : VoteCollector} (h : RunInv cr epoch round validators c) (ty : VoteType)
    (a : AccountId) (b : Target) (hvoted : (c.tally ty).voted.find? a = some b) :
    ∃ existing, ((c.tally ty).votesFor b).find? (fun v => decide (v.voter = a)) = some existing ∧
      Accepted cr epoch round validators ty existing ∧ existing.target = b ∧ existing.voter = a := by
  have hwell := h.wellFormed
  obtain ⟨v, hv, hvoter⟩ := (hwell.located ty a b).2 hvoted
  have hfound : ((c.tally ty).votesFor b).find? (fun v => decide (v.voter = a)) ≠ none := by
    intro hnone
    exact List.find?_eq_none.1 hnone v hv (decide_eq_true hvoter)
  obtain ⟨existing, hexisting⟩ := Option.ne_none_iff_exists'.1 hfound
  obtain ⟨haccepted, htarget⟩ := hwell.accepted ty b existing (List.mem_of_find?_eq_some hexisting)
  exact ⟨existing, hexisting, haccepted, htarget, by simpa using List.find?_some hexisting⟩

/-- Nobody has precommitted in the prevote phase. -/
theorem RunInv.precommit_none {c : VoteCollector} (h : RunInv cr epoch round validators c)
    (hs : c.state = .prevoting) (a : AccountId) : c.precommits.voted.find? a = none := by
  by_contra hne
  obtain ⟨b, hb⟩ := Option.ne_none_iff_exists'.1 hne
  obtain ⟨v, hv, -⟩ := h.precommitRecorded a b hb
  have hzero := h.inv.prevoting hs b
  rw [Tally.count, List.length_eq_zero_iff] at hzero
  rw [hzero] at hv
  cases hv

/-- A conflict in the tally of the vote's phase is reported. -/
theorem addVote_of_conflict (cr : Crypto) (ord : HashOrder) (c : VoteCollector) (vote existing : FinalityVote)
    (hacc : Accepted cr c.epoch c.round c.validators vote.voteType vote)
    (hphase : ¬ (vote.voteType = .precommit ∧ c.state = .prevoting))
    (hadd : (c.tally vote.voteType).add ord vote = .equivocation existing) :
    (c.addVote cr ord vote).1 = c.reportEquivocation existing vote := by
  unfold addVote
  rw [if_neg (by simp [hacc.epoch, hacc.round]), if_neg (not_not.2 hacc.voter), if_neg hphase,
    if_neg (by simp [hacc.verified])]
  cases hty : vote.voteType with
  | prevote =>
    rw [hty] at hadd
    simp only [addPrevote, show c.prevotes.add ord vote = _ from hadd]
  | precommit =>
    rw [hty] at hadd
    simp only [addPrecommit, show c.precommits.add ord vote = _ from hadd]

/-- **Report.**  A verified second vote for another target is reported, with a valid proof if
and only if the hashes differ. -/
theorem reported_of_second {c : VoteCollector} (h : RunInv cr epoch round validators c) (ord : HashOrder)
    (vote : FinalityVote) (hacc : Accepted cr c.epoch c.round c.validators vote.voteType vote) (b : Target)
    (hvoted : (c.tally vote.voteType).voted.find? vote.voter = some b) (hne : b ≠ vote.target) :
    ∃ e, (c.addVote cr ord vote).1.equivocations = c.equivocations ++ [e] ∧ e.vote2 = vote ∧
      (e.isValid cr = true ↔ b.hash ≠ vote.targetHash) := by
  obtain ⟨existing, hexisting, haccepted, htarget, hvoter⟩ := h.find_first vote.voteType vote.voter b hvoted
  have hphase : ¬ (vote.voteType = .precommit ∧ c.state = .prevoting) := by
    rintro ⟨hty, hs⟩
    rw [hty] at hvoted
    change c.precommits.voted.find? vote.voter = some b at hvoted
    rw [h.precommit_none hs vote.voter] at hvoted
    cases hvoted
  have hadd : (c.tally vote.voteType).add ord vote = .equivocation existing := by
    unfold Tally.add
    rw [hvoted]
    simp only [hne, hexisting, ne_eq, not_false_eq_true, if_true]
  have hresult := addVote_of_conflict cr ord c vote existing hacc hphase hadd
  have hvalid := isValid_of_accepted cr epoch round validators vote.voteType existing vote haccepted
    (by rwa [h.epoch_eq, h.round_eq, h.validators_eq] at hacc) hvoter
  refine ⟨_, by rw [hresult]; rfl, rfl, ?_⟩
  rw [h.epoch_eq, h.round_eq, hvalid, ← htarget]
  rfl

/-- Without a verified second vote for another target nothing is reported. -/
theorem equivocations_addVote (cr : Crypto) (ord : HashOrder) (c : VoteCollector) (vote : FinalityVote)
    (h : Accepted cr c.epoch c.round c.validators vote.voteType vote →
      ∀ b, (c.tally vote.voteType).voted.find? vote.voter = some b → b = vote.target) :
    (c.addVote cr ord vote).1.equivocations = c.equivocations := by
  have heffect := addVote_effect cr ord c vote
  generalize c.addVote cr ord vote = r at heffect ⊢
  cases heffect with
  | ignored => rfl
  | reported existing b haccepted hvoted hne => exact absurd (h haccepted b hvoted) hne
  | prevote t haccepted hadd =>
    obtain ⟨s, heq⟩ := checkPrevoteThreshold_with { c with prevotes := t }
    rw [heq]
  | precommit t haccepted hstate hadd =>
    obtain ⟨s, heq⟩ := checkPrecommitThreshold_with { c with precommits := t }
    rw [heq]

/-- **Step.** -/
theorem valid_apply_iff {c : VoteCollector} (h : RunInv cr epoch round validators c) (op : CollectorOp) :
    (∀ e ∈ (c.apply cr op).equivocations, e.isValid cr = true) ↔
      (∀ e ∈ c.equivocations, e.isValid cr = true) ∧ DistinctHashes cr c op := by
  cases op with
  | markFailed =>
    have hsame : (c.apply cr .markFailed).equivocations = c.equivocations := by
      show c.markFailed.equivocations = _
      unfold markFailed
      split <;> rfl
    rw [hsame]
    refine ⟨fun hvalid => ⟨hvalid, fun ord vote heq => ?_⟩, And.left⟩
    cases heq
  | addVote ord vote =>
    show (∀ e ∈ (c.addVote cr ord vote).1.equivocations, _) ↔ _
    by_cases hsecond : Accepted cr c.epoch c.round c.validators vote.voteType vote ∧
        ∃ b, (c.tally vote.voteType).voted.find? vote.voter = some b ∧ b ≠ vote.target
    · obtain ⟨hacc, b, hvoted, hne⟩ := hsecond
      obtain ⟨e, hequivocations, -, hvalid⟩ := reported_of_second h ord vote hacc b hvoted hne
      rw [hequivocations, List.forall_mem_append, List.forall_mem_singleton, hvalid]
      refine and_congr_right fun _ => ⟨fun hhash ord' vote' heq _ b' hvoted' _ => ?_, fun hall =>
        hall ord vote rfl hacc b hvoted hne⟩
      obtain ⟨-, rfl⟩ := CollectorOp.addVote.inj heq
      rw [hvoted] at hvoted'
      cases hvoted'
      exact hhash
    · have hnone : Accepted cr c.epoch c.round c.validators vote.voteType vote →
          ∀ b, (c.tally vote.voteType).voted.find? vote.voter = some b → b = vote.target :=
        fun hacc b hvoted => by_contra fun hne => hsecond ⟨hacc, b, hvoted, hne⟩
      rw [equivocations_addVote cr ord c vote hnone]
      refine ⟨fun hvalid => ⟨hvalid, fun ord' vote' heq hacc b hvoted hne => ?_⟩, And.left⟩
      obtain ⟨-, rfl⟩ := CollectorOp.addVote.inj heq
      exact absurd (hnone hacc b hvoted) hne

theorem valid_foldl_iff {c : VoteCollector} (h : RunInv cr epoch round validators c) (ops : List CollectorOp) :
    (∀ e ∈ (ops.foldl (apply cr) c).equivocations, e.isValid cr = true) ↔
      (∀ e ∈ c.equivocations, e.isValid cr = true) ∧ Run.Meets (apply cr) (DistinctHashes cr) c ops := by
  induction ops generalizing c with
  | nil => exact ⟨fun hvalid => ⟨hvalid, trivial⟩, And.left⟩
  | cons op ops ih =>
    rw [List.foldl_cons, ih (h.apply op), valid_apply_iff h op, and_assoc]
    rfl

/-- **Evidence.**  All proofs a run has kept are valid if and only if no verified second vote
had the hash of the first one with another number.  Every verified second vote for another
target adds a proof, which is valid if and only if the hashes differ. -/
theorem evidence_valid_iff (cr : Crypto) (epoch round : Nat) (validators : Finset AccountId)
    (ops : List CollectorOp) :
    ((∀ e ∈ (ops.foldl (apply cr) (new epoch round validators)).equivocations, e.isValid cr = true) ↔
      Run.Meets (apply cr) (DistinctHashes cr) (new epoch round validators) ops) ∧
    ∀ ord vote b, Accepted cr epoch round validators vote.voteType vote →
      ((ops.foldl (apply cr) (new epoch round validators)).tally vote.voteType).voted.find? vote.voter = some b →
      b ≠ vote.target →
        ∃ e, ((ops.foldl (apply cr) (new epoch round validators)).addVote cr ord vote).1.equivocations =
            (ops.foldl (apply cr) (new epoch round validators)).equivocations ++ [e] ∧
          e.vote2 = vote ∧ (e.isValid cr = true ↔ b.hash ≠ vote.targetHash) := by
  have hnew := runInv_new cr epoch round validators
  have h := hnew.foldl ops
  refine ⟨(valid_foldl_iff hnew ops).trans (and_iff_right fun e he => by cases he), ?_⟩
  intro ord vote b hacc
  refine reported_of_second h ord vote ?_ b
  rwa [h.epoch_eq, h.round_eq, h.validators_eq]

/-- One hash under two block numbers: the proof is kept and is not valid. -/
theorem evidence_same_hash :
    ¬ ∀ (cr : Crypto) (epoch round : Nat) (validators : Finset AccountId) (ops : List CollectorOp),
      ∀ e ∈ (ops.foldl (apply cr) (new epoch round validators)).equivocations, e.isValid cr = true := by
  intro h
  have hvalid := h Crypto.sample 0 0 threeValidators
    [.addVote .sorted (voteOf .prevote 0 0 ⟨1, ⟨1⟩⟩ ⟨1⟩), .addVote .sorted (voteOf .prevote 0 0 ⟨2, ⟨1⟩⟩ ⟨1⟩)]
    { validator := ⟨1⟩, vote1 := voteOf .prevote 0 0 ⟨1, ⟨1⟩⟩ ⟨1⟩, vote2 := voteOf .prevote 0 0 ⟨2, ⟨1⟩⟩ ⟨1⟩
      round := 0, epoch := 0 } (.head _)
  exact absurd hvalid (by decide)

end VoteCollector

end Kratos
