import Kratos.Finality.Votes
import Kratos.Lib.Quorum

/-!
# Agreement of two collectors

`quorum n` is the least number of votes the supermajority rule accepts of `n`
validators, 66 % rounded up.  Two rounds that complete have a quorum of
precommits each; they agree if the two quorums must share an honest validator,
that is if `n + f < 2 * quorum n`, and two collectors can be driven apart if not
(`agreement_iff`).  The rule 66 % is not two thirds: from 50 validators on there
are sets with `3 f < n` where agreement fails.
-/

namespace Kratos

/-- Least count that reaches the supermajority. -/
def quorum (n : Nat) : Nat := (n * supermajorityThresholdPercent + 99) / 100

theorem hasSupermajority_iff (count n : Nat) :
    hasSupermajority count n = true ↔ 0 < n ∧ quorum n ≤ count := by
  unfold hasSupermajority quorum supermajorityThresholdPercent
  split
  · next h => simp [h]
  · next h =>
    simp only [decide_eq_true_eq]
    omega

theorem quorum_le (n : Nat) : quorum n ≤ n := by
  unfold quorum supermajorityThresholdPercent
  omega

/-- Votes delivered to a collector, each with the iteration order it meets. -/
abbrev Deliveries := List (HashOrder × FinalityVote)

namespace VoteCollector

/-- The collector after the deliveries. -/
def run (cr : Crypto) (c : VoteCollector) (l : Deliveries) : VoteCollector :=
  l.foldl (fun c d => (c.addVote cr d.1 d.2).1) c

theorem run_inv (cr : Crypto) (c : VoteCollector) (l : Deliveries) (h : c.Inv cr) :
    (c.run cr l).Inv cr := by
  induction l generalizing c with
  | nil => exact h
  | cons d l ih => exact ih _ (addVote_inv cr d.1 c d.2 h)

theorem run_frame (cr : Crypto) (c : VoteCollector) (l : Deliveries) :
    (c.run cr l).epoch = c.epoch ∧ (c.run cr l).round = c.round ∧
      (c.run cr l).validators = c.validators := by
  induction l generalizing c with
  | nil => exact ⟨rfl, rfl, rfl⟩
  | cons d l ih =>
    obtain ⟨he, hr, hv⟩ := addVote_frame cr d.1 c d.2
    obtain ⟨he', hr', hv'⟩ := ih (c.addVote cr d.1 d.2).1
    exact ⟨he'.trans he, hr'.trans hr, hv'.trans hv⟩

theorem mem_precommits_run (cr : Crypto) (c : VoteCollector) (l : Deliveries) (v : FinalityVote)
    (b : Target) (h : v ∈ (c.run cr l).precommits.votesFor b) :
    v ∈ c.precommits.votesFor b ∨ v ∈ l.map Prod.snd := by
  induction l generalizing c with
  | nil => exact Or.inl h
  | cons d l ih =>
    rcases ih _ h with h | h
    · rcases mem_precommits_addVote cr d.1 c d.2 v b h with h | rfl
      · exact Or.inl h
      · exact Or.inr (by simp)
    · exact Or.inr (List.mem_cons_of_mem _ h)

/-- A completed run finalizes a block that a quorum of its validators precommitted to. -/
theorem run_completed (cr : Crypto) (epoch round : Nat) (validators : Finset AccountId) (l : Deliveries)
    (h : ((new epoch round validators).run cr l).state = .completed) :
    ∃ b s, ((new epoch round validators).run cr l).finalizedTarget = some b ∧ s ⊆ validators ∧
      quorum validators.card ≤ s.card ∧
      ∀ a ∈ s, ∃ v ∈ l.map Prod.snd, v.voter = a ∧ v.target = b ∧
        Accepted cr epoch round validators .precommit v := by
  obtain ⟨he, hr, hv⟩ := run_frame cr (new epoch round validators) l
  obtain ⟨b, hb, hsup⟩ := supported_of_completed cr _ (run_inv cr _ l (inv_new cr epoch round validators)) h
  generalize hc : (new epoch round validators).run cr l = c at *
  have hacc := hsup.accepted
  rw [he, hr, hv] at hacc
  have hcard : ((c.precommits.votesFor b).map FinalityVote.voter).toFinset.card =
      (c.precommits.votesFor b).length := by
    rw [List.toFinset_card_of_nodup hsup.distinct, List.length_map]
  have hq := ((hasSupermajority_iff _ _).mp hsup.supermajority).2
  refine ⟨b, ((c.precommits.votesFor b).map FinalityVote.voter).toFinset, hb, ?_, ?_, ?_⟩
  · intro a ha
    obtain ⟨v, hvm, rfl⟩ := List.mem_map.mp (List.mem_toFinset.mp ha)
    exact (hacc v hvm).voter
  · rw [hcard]
    unfold validatorCount at hq
    rw [hv] at hq
    exact hq
  · intro a ha
    obtain ⟨v, hvm, rfl⟩ := List.mem_map.mp (List.mem_toFinset.mp ha)
    refine ⟨v, ?_, rfl, hsup.forTarget v hvm, hacc v hvm⟩
    rcases mem_precommits_run cr (new epoch round validators) l v b (hc ▸ hvm) with h | h
    · cases h
    · exact h

end VoteCollector

/-- Outside `byz` no validator signs two targets of one type in one round. -/
def HonestOnce (cr : Crypto) (validators byz : Finset AccountId) (l : List FinalityVote) : Prop :=
  ∀ v ∈ l, ∀ w ∈ l, v.voter = w.voter → v.voter ∈ validators → v.voter ∉ byz → v.verify cr = true →
    w.verify cr = true → v.voteType = w.voteType → v.epoch = w.epoch → v.round = w.round →
      v.target = w.target

/-- Any two collectors of one round that complete finalize the same block, whatever
at most `f` validators sign. -/
def Agreement (validators : Finset AccountId) (f : Nat) : Prop :=
  ∀ (cr : Crypto) (epoch round : Nat) (byz : Finset AccountId) (l₁ l₂ : Deliveries), byz.card ≤ f →
    HonestOnce cr validators byz (l₁.map Prod.snd ++ l₂.map Prod.snd) →
    ((VoteCollector.new epoch round validators).run cr l₁).state = .completed →
    ((VoteCollector.new epoch round validators).run cr l₂).state = .completed →
      ((VoteCollector.new epoch round validators).run cr l₁).finalizedTarget =
        ((VoteCollector.new epoch round validators).run cr l₂).finalizedTarget

/-- **Safety.**  Quorums that must share an honest validator agree. -/
theorem agreement_of_quorum (validators : Finset AccountId) (f : Nat)
    (h : validators.card + f < 2 * quorum validators.card) : Agreement validators f := by
  intro cr epoch round byz l₁ l₂ hbyz honest h₁ h₂
  obtain ⟨b₁, s₁, hb₁, hs₁, hq₁, hv₁⟩ := VoteCollector.run_completed cr epoch round validators l₁ h₁
  obtain ⟨b₂, s₂, hb₂, hs₂, hq₂, hv₂⟩ := VoteCollector.run_completed cr epoch round validators l₂ h₂
  obtain ⟨a, ha, hnot⟩ := Quorum.exists_mem_inter_not_mem validators s₁ s₂ byz hs₁ hs₂ (by omega)
  rw [Finset.mem_inter] at ha
  obtain ⟨v, hv, hva, hvt, hvacc⟩ := hv₁ a ha.1
  obtain ⟨w, hw, hwa, hwt, hwacc⟩ := hv₂ a ha.2
  have hsame : v.target = w.target := by
    refine honest v (List.mem_append_left _ hv) w (List.mem_append_right _ hw) (hva.trans hwa.symm)
      hvacc.voter (hva ▸ hnot) hvacc.verified hwacc.verified ?_ ?_ ?_
    · rw [hvacc.voteType, hwacc.voteType]
    · rw [hvacc.epoch, hwacc.epoch]
    · rw [hvacc.round, hwacc.round]
  rw [hb₁, hb₂, ← hvt, ← hwt, hsame]

/-! ## Driving a collector to completion -/

namespace VoteCollector

theorem add_of_fresh (ord : HashOrder) (t : Tally) (v : FinalityVote)
    (h : t.voted.find? v.voter = none) : ∃ t', t.add ord v = .added t' := by
  unfold Tally.add
  rw [h]
  exact ⟨_, rfl⟩

/-- If some target has a supermajority, the best one has. -/
theorem best_supermajority (t : Tally) (n : Nat) (b : Target) (hbest : ∀ b, t.count b ≤ t.best.elim 0 t.count)
    (hsup : hasSupermajority (t.count b) n = true) :
    ∃ m, t.best = some m ∧ hasSupermajority (t.count m) n = true := by
  have hmax := hasSupermajority_mono _ _ _ (hbest b) hsup
  cases hb : t.best with
  | none =>
    rw [hb, Option.elim_none, hasSupermajority_zero] at hmax
    cases hmax
  | some m =>
    rw [hb, Option.elim_some] at hmax
    exact ⟨m, rfl, hmax⟩

/-- The threshold checks move on as soon as some target has a supermajority. -/
theorem checkPrevoteThreshold_state (c : VoteCollector) (b : Target)
    (hbest : ∀ b, c.prevotes.count b ≤ c.prevotes.best.elim 0 c.prevotes.count)
    (hs : c.state = .prevoting ∨ c.state = .precommitting)
    (hsup : hasSupermajority (c.prevotes.count b) c.validatorCount = true) :
    (checkPrevoteThreshold c).state = .precommitting := by
  obtain ⟨m, hm, hmax⟩ := best_supermajority c.prevotes c.validatorCount b hbest hsup
  rcases hs with hs | hs <;> simp [checkPrevoteThreshold, hs, hm, hmax]

theorem checkPrecommitThreshold_state (c : VoteCollector) (b : Target)
    (hbest : ∀ b, c.precommits.count b ≤ c.precommits.best.elim 0 c.precommits.count)
    (hs : c.state = .precommitting ∨ c.state = .completed)
    (hsup : hasSupermajority (c.precommits.count b) c.validatorCount = true) :
    (checkPrecommitThreshold c).state = .completed := by
  obtain ⟨m, hm, hmax⟩ := best_supermajority c.precommits c.validatorCount b hbest hsup
  rcases hs with hs | hs <;> simp [checkPrecommitThreshold, hs, hm, hmax]

/-- What the first vote of a validator does in a phase that runs in `working` and ends in
`ended`: `tally` counts it, `other` is untouched, and a supermajority ends the phase. -/
structure Counted (tally other : VoteCollector → Tally) (working ended : RoundState)
    (c c' : VoteCollector) (v : FinalityVote) : Prop where
  count : (tally c').count v.target = (tally c).count v.target + 1
  voted : ∀ a, a ≠ v.voter → (tally c').voted.find? a = (tally c).voted.find? a
  frame : other c' = other c
  state : c'.state = working ∨ c'.state = ended
  ends : hasSupermajority ((tally c').count v.target) c'.validatorCount = true → c'.state = ended

/-- The first prevote of a validator is counted, and the phase ends with a supermajority. -/
theorem addVote_fresh_prevote (cr : Crypto) (ord : HashOrder) (c : VoteCollector) (v : FinalityVote)
    (hacc : Accepted cr c.epoch c.round c.validators .prevote v)
    (hfresh : c.prevotes.voted.find? v.voter = none)
    (hs : c.state = .prevoting ∨ c.state = .precommitting) :
    Counted prevotes precommits .prevoting .precommitting c (c.addVote cr ord v).1 v := by
  obtain ⟨t, ht⟩ := add_of_fresh ord c.prevotes v hfresh
  have hadd : (c.addVote cr ord v).1 = checkPrevoteThreshold { c with prevotes := t } := by
    simp only [addVote, hacc.epoch, hacc.round, hacc.voter, hacc.voteType, hacc.verified, addPrevote, ht]
    simp
  obtain ⟨-, -, hvoted, hbest⟩ := Tally.add_added ord _ _ _ ht
  have hcount : t.count v.target = c.prevotes.count v.target + 1 := by
    rw [Tally.count_add ord _ _ _ ht, if_pos rfl]
  have hother : ∀ a, a ≠ v.voter → t.voted.find? a = c.prevotes.voted.find? a := fun a ha => by
    rw [hvoted, if_neg ha]
  have hstate := checkPrevoteThreshold_state { c with prevotes := t } v.target hbest hs
  rw [hadd]
  rcases checkPrevoteThreshold_eq { c with prevotes := t } with heq | ⟨-, heq⟩
  · rw [heq] at hstate ⊢
    exact ⟨hcount, hother, rfl, hs, hstate⟩
  · rw [heq]
    exact ⟨hcount, hother, rfl, Or.inr rfl, fun _ => rfl⟩

/-- The first precommit of a validator is counted, and a supermajority completes the round. -/
theorem addVote_fresh_precommit (cr : Crypto) (ord : HashOrder) (c : VoteCollector) (v : FinalityVote)
    (hacc : Accepted cr c.epoch c.round c.validators .precommit v)
    (hfresh : c.precommits.voted.find? v.voter = none)
    (hs : c.state = .precommitting ∨ c.state = .completed) :
    Counted precommits prevotes .precommitting .completed c (c.addVote cr ord v).1 v := by
  obtain ⟨t, ht⟩ := add_of_fresh ord c.precommits v hfresh
  have hne : c.state ≠ .prevoting := by
    rcases hs with hs | hs <;>
      · rw [hs]
        decide
  have hadd : (c.addVote cr ord v).1 = checkPrecommitThreshold { c with precommits := t } := by
    simp only [addVote, hacc.epoch, hacc.round, hacc.voter, hacc.voteType, hacc.verified, addPrecommit, ht]
    simp [hne]
  obtain ⟨-, -, hvoted, hbest⟩ := Tally.add_added ord _ _ _ ht
  have hcount : t.count v.target = c.precommits.count v.target + 1 := by
    rw [Tally.count_add ord _ _ _ ht, if_pos rfl]
  have hother : ∀ a, a ≠ v.voter → t.voted.find? a = c.precommits.voted.find? a := fun a ha => by
    rw [hvoted, if_neg ha]
  have hstate := checkPrecommitThreshold_state { c with precommits := t } v.target hbest hs
  rw [hadd]
  rcases checkPrecommitThreshold_eq { c with precommits := t } with ⟨heq, -⟩ | ⟨-, heq, -⟩
  · rw [heq] at hstate ⊢
    exact ⟨hcount, hother, rfl, hs, hstate⟩
  · rw [heq]
    exact ⟨hcount, hother, rfl, Or.inr rfl, fun _ => rfl⟩

end VoteCollector

/-- A vote for a target, with an empty signature. -/
def voteOf (ty : VoteType) (epoch round : Nat) (b : Target) (a : AccountId) : FinalityVote :=
  { voteType := ty, targetNumber := b.number, targetHash := b.hash, round, epoch, voter := a
    signature := Signature64.zero }

/-- One vote per account of a list, delivered in order. -/
def votesOf (ty : VoteType) (epoch round : Nat) (b : Target) (s : List AccountId) : Deliveries :=
  s.map fun a => (HashOrder.sorted, voteOf ty epoch round b a)

namespace VoteCollector

/-- A phase in which new validators vote for `b`: every vote is counted, and their
supermajority ends the phase. -/
theorem run_phase (cr : Crypto) (hcr : ∀ v : FinalityVote, v.verify cr = true) (b : Target)
    {ty : VoteType} {tally other : VoteCollector → Tally} {working ended : RoundState}
    (hstep : ∀ c v, Accepted cr c.epoch c.round c.validators ty v →
      (tally c).voted.find? v.voter = none → (c.state = working ∨ c.state = ended) →
        Counted tally other working ended c (c.addVote cr HashOrder.sorted v).1 v)
    (s : List AccountId) (c : VoteCollector) (hn : s.Nodup)
    (hs : ∀ a ∈ s, a ∈ c.validators ∧ (tally c).voted.find? a = none)
    (hst : c.state = working ∨ c.state = ended)
    (hready : hasSupermajority ((tally c).count b) c.validatorCount = true → c.state = ended) :
    let c' := c.run cr (votesOf ty c.epoch c.round b s)
    (tally c').count b = (tally c).count b + s.length ∧ other c' = other c ∧
      (hasSupermajority ((tally c').count b) c'.validatorCount = true → c'.state = ended) := by
  induction s generalizing c with
  | nil => exact ⟨rfl, rfl, hready⟩
  | cons a s ih =>
    rw [List.nodup_cons] at hn
    let v := voteOf ty c.epoch c.round b a
    have hacc : Accepted cr c.epoch c.round c.validators ty v :=
      ⟨hcr v, rfl, rfl, rfl, (hs a List.mem_cons_self).1⟩
    have hcounted := hstep c v hacc (hs a List.mem_cons_self).2 hst
    obtain ⟨he, hr, hv⟩ := addVote_frame cr HashOrder.sorted c v
    have hrec := ih (c.addVote cr HashOrder.sorted v).1 hn.2 ?_ hcounted.state hcounted.ends
    · have hrun : c.run cr (votesOf ty c.epoch c.round b (a :: s)) =
          (c.addVote cr HashOrder.sorted v).1.run cr (votesOf ty c.epoch c.round b s) := rfl
      rw [he, hr] at hrec
      simp only [hrun]
      obtain ⟨hcount, hframe, hends⟩ := hrec
      refine ⟨?_, hframe.trans hcounted.frame, hends⟩
      have hcb : (tally (c.addVote cr HashOrder.sorted v).1).count b = (tally c).count b + 1 :=
        hcounted.count
      rw [hcount, hcb, List.length_cons]
      omega
    · intro a' ha'
      have hne : a' ≠ v.voter := fun h => hn.1 (by rw [← show a' = a from h]; exact ha')
      rw [hv, hcounted.voted a' hne]
      exact hs a' (List.mem_cons_of_mem _ ha')

end VoteCollector

/-- Prevotes, then precommits, of the accounts of a list. -/
def fullRound (epoch round : Nat) (b : Target) (s : List AccountId) : Deliveries :=
  votesOf .prevote epoch round b s ++ votesOf .precommit epoch round b s

theorem mem_fullRound (epoch round : Nat) (b : Target) (s : List AccountId) (v : FinalityVote)
    (h : v ∈ (fullRound epoch round b s).map Prod.snd) : v.target = b ∧ v.voter ∈ s := by
  unfold fullRound votesOf at h
  rw [List.map_append, List.map_map, List.map_map, List.mem_append] at h
  rcases h with h | h <;>
    · obtain ⟨a, ha, rfl⟩ := List.mem_map.mp h
      exact ⟨rfl, ha⟩

theorem quorum_pos (n : Nat) (h : 0 < n) : 0 < quorum n := by
  unfold quorum supermajorityThresholdPercent
  omega

/-- **Completion.**  A quorum that prevotes and precommits for a block finalizes it. -/
theorem fullRound_finalizes (cr : Crypto) (hcr : ∀ v : FinalityVote, v.verify cr = true)
    (epoch round : Nat) (validators : Finset AccountId) (b : Target) (s : Finset AccountId)
    (hs : s ⊆ validators) (hq : quorum validators.card ≤ s.card) (hpos : 0 < validators.card) :
    ((VoteCollector.new epoch round validators).run cr (fullRound epoch round b s.toList)).state = .completed ∧
      ((VoteCollector.new epoch round validators).run cr
        (fullRound epoch round b s.toList)).finalizedTarget = some b := by
  let c₀ := VoteCollector.new epoch round validators
  let c₁ := c₀.run cr (votesOf .prevote epoch round b s.toList)
  have hmem : ∀ a ∈ s.toList, a ∈ validators := fun a ha => hs (Finset.mem_toList.mp ha)
  have hsup : ∀ n, n = s.toList.length → hasSupermajority n validators.card = true := by
    intro n hn
    rw [Finset.length_toList] at hn
    exact (hasSupermajority_iff _ _).mpr ⟨hpos, by omega⟩
  obtain ⟨hcount₁, hpc₁, hstate₁⟩ := VoteCollector.run_phase cr hcr b
    (VoteCollector.addVote_fresh_prevote cr HashOrder.sorted) s.toList c₀ s.nodup_toList
    (fun a ha => ⟨hmem a ha, rfl⟩) (Or.inl rfl) (by
      intro h
      have hz : hasSupermajority (c₀.prevotes.count b) c₀.validatorCount = false :=
        VoteCollector.hasSupermajority_zero _
      rw [hz] at h
      cases h)
  obtain ⟨he, hr, hv⟩ := VoteCollector.run_frame cr c₀ (votesOf .prevote epoch round b s.toList)
  have hvc₁ : c₁.validatorCount = validators.card := congrArg Finset.card hv
  have hphase : c₁.state = .precommitting := hstate₁ (by
    rw [hcount₁]
    exact hvc₁ ▸ hsup _ (Nat.zero_add _))
  have hzero : c₁.precommits = Tally.empty := hpc₁
  obtain ⟨hcount₂, -, hstate₂⟩ := VoteCollector.run_phase cr hcr b
    (VoteCollector.addVote_fresh_precommit cr HashOrder.sorted) s.toList c₁ s.nodup_toList
    (fun a ha => ⟨hv ▸ hmem a ha, by rw [hzero]; rfl⟩) (Or.inl hphase) (by
      intro h
      rw [hzero] at h
      have hz : hasSupermajority (Tally.empty.count b) c₁.validatorCount = false :=
        VoteCollector.hasSupermajority_zero _
      rw [hz] at h
      cases h)
  have hrun : c₀.run cr (fullRound epoch round b s.toList) =
      c₁.run cr (votesOf .precommit c₁.epoch c₁.round b s.toList) := by
    have he' : c₁.epoch = epoch := he
    have hr' : c₁.round = round := hr
    rw [he', hr']
    exact List.foldl_append
  have hdone : (c₀.run cr (fullRound epoch round b s.toList)).state = .completed := by
    rw [hrun]
    refine hstate₂ ?_
    obtain ⟨-, -, hv₂⟩ := VoteCollector.run_frame cr c₁ (votesOf .precommit c₁.epoch c₁.round b s.toList)
    have hvc₂ : (c₁.run cr (votesOf .precommit c₁.epoch c₁.round b s.toList)).validatorCount =
        validators.card := congrArg Finset.card (hv₂.trans hv)
    rw [hcount₂, hvc₂, hzero]
    exact hsup _ (Nat.zero_add _)
  refine ⟨hdone, ?_⟩
  -- some delivered precommit is for the finalized block, and all deliveries are for `b`
  obtain ⟨b', s', hb', -, hq', hvote⟩ := VoteCollector.run_completed cr epoch round validators _ hdone
  have hcard : 0 < s'.card := lt_of_lt_of_le (quorum_pos _ hpos) hq'
  obtain ⟨a, ha⟩ := Finset.card_pos.mp hcard
  obtain ⟨v, hv, -, hvt, -⟩ := hvote a ha
  rw [hb', ← hvt, (mem_fullRound epoch round b s.toList v hv).1]

/-! ## The exact condition -/

/-- Where two quorums can meet in `f` validators, those can finalize two blocks. -/
theorem not_agreement_of_le (validators : Finset AccountId) (f : Nat) (hpos : 0 < validators.card)
    (h : 2 * quorum validators.card ≤ validators.card + f) : ¬ Agreement validators f := by
  intro hagree
  obtain ⟨s₁, s₂, hs₁, hs₂, hc₁, hc₂, hinter⟩ := Quorum.exists_quorums_inter_le validators
    (quorum validators.card) f (quorum_le _) h
  let b₁ : Target := ⟨1, ⟨1⟩⟩
  let b₂ : Target := ⟨1, ⟨2⟩⟩
  have hcr : ∀ v : FinalityVote, v.verify Crypto.sample = true := fun _ => rfl
  obtain ⟨hd₁, hf₁⟩ := fullRound_finalizes Crypto.sample hcr 0 0 validators b₁ s₁ hs₁ (le_of_eq hc₁.symm) hpos
  obtain ⟨hd₂, hf₂⟩ := fullRound_finalizes Crypto.sample hcr 0 0 validators b₂ s₂ hs₂ (le_of_eq hc₂.symm) hpos
  have hone : HonestOnce Crypto.sample validators (s₁ ∩ s₂)
      ((fullRound 0 0 b₁ s₁.toList).map Prod.snd ++ (fullRound 0 0 b₂ s₂.toList).map Prod.snd) := by
    -- only a validator of both quorums votes for both blocks
    intro v hv w hw hvw _ hbyz _ _ _ _ _
    have hside : ∀ v ∈ (fullRound 0 0 b₁ s₁.toList).map Prod.snd ++
        (fullRound 0 0 b₂ s₂.toList).map Prod.snd,
        (v.target = b₁ ∧ v.voter ∈ s₁) ∨ (v.target = b₂ ∧ v.voter ∈ s₂) := by
      intro v hv
      rcases List.mem_append.mp hv with hv | hv
      · obtain ⟨ht, hm⟩ := mem_fullRound _ _ _ _ _ hv
        exact Or.inl ⟨ht, Finset.mem_toList.mp hm⟩
      · obtain ⟨ht, hm⟩ := mem_fullRound _ _ _ _ _ hv
        exact Or.inr ⟨ht, Finset.mem_toList.mp hm⟩
    rcases hside v hv with ⟨hvt, hvm⟩ | ⟨hvt, hvm⟩ <;> rcases hside w hw with ⟨hwt, hwm⟩ | ⟨hwt, hwm⟩
    · rw [hvt, hwt]
    · exact absurd (Finset.mem_inter.mpr ⟨hvm, hvw ▸ hwm⟩) hbyz
    · exact absurd (Finset.mem_inter.mpr ⟨hvw ▸ hwm, hvm⟩) hbyz
    · rw [hvt, hwt]
  have heq := hagree Crypto.sample 0 0 (s₁ ∩ s₂) _ _ hinter hone hd₁ hd₂
  rw [hf₁, hf₂] at heq
  exact absurd (Option.some.inj heq) (by decide)

/-- **Agreement.**  With fewer than a third of the validators faulty, two collectors
of a round agree if and only if two quorums have more members than all validators
and the faulty ones together. -/
theorem agreement_iff (validators : Finset AccountId) (f : Nat) (h : 3 * f < validators.card) :
    Agreement validators f ↔ validators.card + f < 2 * quorum validators.card := by
  constructor
  · intro hagree
    by_contra hle
    exact not_agreement_of_le validators f (by omega) (not_lt.mp hle) hagree
  · exact agreement_of_quorum validators f

/-- Validators with ids below `n`. -/
def firstValidators (n : Nat) : Finset AccountId := (List.range n).toFinset.image fun i => ⟨Fin.ofNat _ i⟩

theorem card_firstValidators_four : (firstValidators 4).card = 4 := by decide

/-- One fault among four validators is tolerated: the quorum is three. -/
theorem agreement_four : Agreement (firstValidators 4) 1 := by
  refine (agreement_iff (firstValidators 4) 1 ?_).mpr ?_
  · rw [card_firstValidators_four]
    decide
  · rw [card_firstValidators_four]
    decide

theorem card_firstValidators_fifty : (firstValidators 50).card = 50 := by decide

/-- Sixteen faults among fifty are fewer than a third and break agreement: two
quorums of 33 can share just the sixteen. -/
theorem no_agreement_fifty :
    ¬ ∀ (validators : Finset AccountId) (f : Nat), 3 * f < validators.card → Agreement validators f := by
  intro h
  refine not_agreement_of_le (firstValidators 50) 16 ?_ ?_ (h (firstValidators 50) 16 ?_)
  · rw [card_firstValidators_fifty]
    decide
  · rw [card_firstValidators_fifty]
    decide
  · rw [card_firstValidators_fifty]
    decide

end Kratos
