import Kratos.Contracts.DisputeTable

/-!
# Convictions

A tally resolves a dispute once all jurors have voted or the deadline has passed.  It finds the accused
guilty if there are more guilty votes than others for not guilty, whether or not a quorum has voted and
however many have abstained, and it counts in bytes.  In reachable contracts the voters of a dispute are
different members of its jury (`Ballot`); the convictions of a run are sound exactly if every tally that
convicts is `Warranted`.
-/

namespace Kratos

/-- No votes before the jury is drawn; then only those of its members, each once. -/
structure Ballot (d : Dispute) : Prop where
  opened : d.status = .opened → d.juryVotes = []
  voters : (d.juryVotes.map JuryVote.juror).Nodup
  members : ∀ v ∈ d.juryVotes, v.juror ∈ d.juryMembers

namespace Dispute

def guiltyVotes (d : Dispute) : Nat := d.juryVotes.countP fun v => v.verdict = .guilty
def notGuiltyVotes (d : Dispute) : Nat := d.juryVotes.countP fun v => v.verdict = .notGuilty
def abstentions (d : Dispute) : Nat := d.juryVotes.countP fun v => v.verdict = .abstain

/-- What `isStale` asks of the votes. -/
def quorum (d : Dispute) : Nat := d.juryMembers.length / 2 + 1

/-- The tally goes through. -/
def canTally (d : Dispute) (currentBlock : Nat) : Prop :=
  d.status = .deliberating ∧
    (d.juryVotes.length ≥ d.juryMembers.length ∨
      d.deliberationDeadline.any (fun deadline => decide (currentBlock ≥ deadline)) = true) ∧
    d.juryVotes.isEmpty = false

/-- More votes for guilty than for not guilty, in bytes. -/
def convicts (d : Dispute) : Prop :=
  d.juryVotes.length % 2 ^ 8 ≠ 0 ∧ d.notGuiltyVotes % 2 ^ 8 < d.guiltyVotes % 2 ^ 8

instance (d : Dispute) (currentBlock : Nat) : Decidable (d.canTally currentBlock) :=
  inferInstanceAs (Decidable (_ ∧ _ ∧ _))

instance (d : Dispute) : Decidable d.convicts := inferInstanceAs (Decidable (_ ∧ _))

theorem votes_length (d : Dispute) : d.juryVotes.length = d.guiltyVotes + d.notGuiltyVotes + d.abstentions := by
  unfold guiltyVotes notGuiltyVotes abstentions
  induction d.juryVotes with
  | nil => rfl
  | cons v votes ih =>
    rw [List.length_cons, ih, List.countP_cons, List.countP_cons, List.countP_cons]
    cases v.verdict
    all_goals
      simp
      omega

end Dispute

namespace JuryDecision

theorem tallyVotes_votes (votes : List JuryVote) (b id : Nat) : (tallyVotes votes b id).votes = votes := by
  unfold tallyVotes
  simp only
  split <;> rfl

/-- The counts that convict. -/
theorem tallyVotes_guilty_iff (votes : List JuryVote) (b id : Nat) :
    (tallyVotes votes b id).verdict = .guilty ↔ votes.length % 2 ^ 8 ≠ 0 ∧
      (votes.countP fun v => v.verdict = .notGuilty) % 2 ^ 8 < (votes.countP fun v => v.verdict = .guilty) % 2 ^ 8 := by
  unfold tallyVotes
  simp only
  split
  · next hzero =>
    refine iff_of_false ?_ fun h => h.1 hzero
    intro h
    cases h
  · next hne =>
    simp only
    split
    · next hmore => exact iff_of_true rfl ⟨hne, hmore⟩
    · next hmore =>
      refine iff_of_false ?_ fun h => hmore h.2
      intro h
      cases h

/-- Up to 255 votes the percentage is that of the guilty votes. -/
theorem percentage_of_lt (votes : List JuryVote) (b id : Nat) (h : votes.length < 256) :
    (tallyVotes votes b id).convictionPercentage = 100 * (votes.countP fun v => v.verdict = .guilty) / votes.length := by
  have hle : (votes.countP fun v => v.verdict = .guilty) ≤ votes.length := List.countP_le_length
  have hlength : votes.length % 2 ^ 8 = votes.length := Nat.mod_eq_of_lt (by omega)
  have hguilty : (votes.countP fun v => v.verdict = .guilty) % 2 ^ 8 = votes.countP fun v => v.verdict = .guilty :=
    Nat.mod_eq_of_lt (by omega)
  unfold tallyVotes
  simp only
  rw [hlength, hguilty]
  split
  · next hzero => rw [hzero, Nat.div_zero]
  · next hne =>
    have hpercent : (votes.countP fun v => v.verdict = .guilty) * 100 / votes.length ≤ 100 := by
      apply Nat.div_le_of_le_mul
      exact Nat.mul_le_mul_right 100 hle
    simp only
    rw [Nat.mod_eq_of_lt (by omega), Nat.mul_comm]

/-- The first votes are guilty. -/
def sampleVotes (guilty other : Nat) : List JuryVote :=
  List.replicate guilty { juror := ⟨1⟩, verdict := .guilty, justification := none, timestamp := 0 } ++
    List.replicate other { juror := ⟨1⟩, verdict := .notGuilty, justification := none, timestamp := 0 }

theorem sampleVotes_counts (guilty other : Nat) : (sampleVotes guilty other).length = guilty + other ∧
    ((sampleVotes guilty other).countP fun v => v.verdict = .guilty) = guilty := by
  unfold sampleVotes
  constructor
  · rw [List.length_append, List.length_replicate, List.length_replicate]
  · rw [List.countP_append, List.countP_replicate, List.countP_replicate]
    simp

/-- From 256 votes on, as many multiples of 256 guilty votes as there are count as none. -/
theorem percentage_sampleVotes (t : Nat) (h : 256 ≤ t) :
    (tallyVotes (sampleVotes (256 * (t / 256)) (t % 256)) 0 0).convictionPercentage = 0 ∧
      0 < 100 * (256 * (t / 256)) / t := by
  obtain ⟨hlength, hguilty⟩ := sampleVotes_counts (256 * (t / 256)) (t % 256)
  constructor
  · unfold tallyVotes
    simp only
    rw [hguilty, show 256 * (t / 256) % 2 ^ 8 = 0 from Nat.mul_mod_right 256 _]
    split <;> simp
  · apply Nat.div_pos _ (by omega)
    omega

/-- The percentage is right for all votes of a length exactly if it is below 256. -/
theorem percentage_iff (t : Nat) :
    (∀ (votes : List JuryVote) (b id : Nat), votes.length = t →
      (tallyVotes votes b id).convictionPercentage =
        100 * (votes.countP fun v => v.verdict = .guilty) / votes.length) ↔ t < 256 := by
  constructor
  · intro h
    by_contra ht
    obtain ⟨hlength, hguilty⟩ := sampleVotes_counts (256 * (t / 256)) (t % 256)
    have hlength : (sampleVotes (256 * (t / 256)) (t % 256)).length = t := by omega
    obtain ⟨hzero, hpos⟩ := percentage_sampleVotes t (not_lt.mp ht)
    have := h _ 0 0 hlength
    rw [hzero, hguilty, hlength] at this
    omega
  · rintro ht votes b id rfl
    exact percentage_of_lt votes b id ht

end JuryDecision

namespace ArbitrationContract

/-! ## Ballots -/

def Balloted (s : ArbitrationContract) : Prop := ∀ id d, s.disputes.find? id = some d → Ballot d

theorem Balloted.insert {s t : ArbitrationContract} (h : s.Balloted) {id : Nat} {d : Dispute}
    (ht : t.disputes = s.disputes.insert id d) (hd : Ballot d) : t.Balloted := by
  intro k e he
  rw [ht, SortedMap.find?_insert] at he
  by_cases hk : k = id
  · rw [if_pos hk] at he
    obtain rfl := Option.some.inj he
    exact hd
  · rw [if_neg hk] at he
    exact h k e he

theorem Balloted.of_disputes_eq {s t : ArbitrationContract} (h : s.Balloted) (ht : t.disputes = s.disputes) :
    t.Balloted := by
  unfold Balloted
  rw [ht]
  exact h

/-- What a change of a dispute writes. -/
theorem updateDispute_disputes (s : ArbitrationContract) (id : Nat) (f : Dispute → Dispute) (d : Dispute)
    (hd : s.disputes.find? id = some d) :
    ((updateDispute id f).exec s).2.disputes = s.disputes.insert id (f d) := by
  unfold updateDispute
  rw [Fallible.exec_bind]
  simp only [getDispute, Fallible.exec_mk, hd, Fallible.exec_bind, Fallible.exec_modifies]
  exact persistDispute_disputes (f d) _

theorem updateDispute_none (s : ArbitrationContract) (id : Nat) (f : Dispute → Dispute)
    (hd : s.disputes.find? id = none) : ((updateDispute id f).exec s).2 = s := by
  unfold updateDispute
  rw [Fallible.exec_bind]
  simp only [getDispute, Fallible.exec_mk, hd]

/-- A change of one dispute that keeps its ballot. -/
theorem updateDispute_balloted (s : ArbitrationContract) (h : s.Balloted) (id : Nat) (f : Dispute → Dispute)
    (hf : ∀ d, s.disputes.find? id = some d → Ballot (f d)) : ((updateDispute id f).exec s).2.Balloted := by
  cases hd : s.disputes.find? id with
  | none =>
    rw [updateDispute_none s id f hd]
    exact h
  | some d => exact h.insert (updateDispute_disputes s id f d hd) (hf d hd)

/-- A change outside of status, jury and votes. -/
theorem keeps_updateDispute_ballot (id : Nat) (f : Dispute → Dispute)
    (hf : ∀ d, (f d).juryVotes = d.juryVotes ∧ (f d).juryMembers = d.juryMembers ∧
      ((f d).status = .opened → d.status = .opened)) : Fallible.Keeps Balloted (updateDispute id f) := by
  intro s h
  apply updateDispute_balloted s h
  intro d hd
  obtain ⟨hvotes, hmembers, hstatus⟩ := hf d
  have hballot := h id d hd
  exact
    { opened := fun ho => hvotes.trans (hballot.opened (hstatus ho))
      voters := by rw [hvotes]; exact hballot.voters
      members := by rw [hvotes, hmembers]; exact hballot.members }

theorem keeps_raiseDispute_ballot (c : ChainId) (ty : DisputeType) (raisedBy : AccountId) (j : Jurisdiction)
    (e : Option Evidence) : Fallible.Keeps Balloted (raiseDispute c ty raisedBy j e) := by
  intro s h
  unfold raiseDispute
  apply (Fallible.readOnly_ensure _ _).bind_of _ _ s h
  intro _ _
  apply (Fallible.readOnly_reads _).bind_of _ _ s h
  intro id _
  apply (Fallible.readOnly_ensure _ _).bind_of _ _ s h
  intro _ _
  apply (Fallible.readOnly_reads _).bind_of _ _ s h
  intro known _
  apply (Fallible.readOnly_ensure _ _).bind_of _ _ s h
  intro _ _
  apply (Fallible.readOnly_reads _).bind_of _ _ s h
  intro b _
  rw [Fallible.exec_bind, Fallible.exec_modifies]
  refine Fallible.Keeps.bind _ _ (fun t ht => ht.of_disputes_eq rfl) (fun _ => .pure _) _ ?_
  exact h.insert rfl ⟨fun _ => rfl, List.nodup_nil, fun v hv => absurd hv List.not_mem_nil⟩

theorem recordArbitration_disputes (juror : AccountId) (s : ArbitrationContract) :
    ((recordArbitration juror).exec s).2.disputes = s.disputes := by
  unfold recordArbitration
  rw [Fallible.exec_mk]
  split <;> rfl

theorem rewardJuryMembers_disputes (members : List AccountId) (s : ArbitrationContract) :
    ((rewardJuryMembers members).exec s).2.disputes = s.disputes := by
  have hkeeps : Fallible.Keeps (fun t => t.disputes = s.disputes) (rewardJuryMembers members) := by
    induction members with
    | nil => exact .pure _
    | cons juror rest ih =>
      exact .bind _ _ (fun t ht => (recordArbitration_disputes juror t).trans ht) fun _ => ih
  exact hkeeps s rfl

/-- A tally that does not go through leaves the contract as it is. -/
theorem tallyVotes_of_not_canTally (s : ArbitrationContract) (id : Nat) (d : Dispute)
    (hd : s.disputes.find? id = some d) (h : ¬d.canTally s.currentBlock) : ((tallyVotes id).exec s).2 = s := by
  unfold tallyVotes
  apply (Fallible.readOnly_reads _).bind_of (fun t => t = s) _ s rfl
  intro b hb
  obtain rfl := Except.ok.inj hb
  apply (readOnly_getDispute _).bind_of (fun t => t = s) _ s rfl
  intro d' hd'
  have hfound := getDispute_ok id s d' hd'
  rw [hd] at hfound
  obtain rfl := Option.some.inj hfound
  apply (Fallible.readOnly_ensure _ _).bind_of (fun t => t = s) _ s rfl
  intro _ hstatus
  apply (Fallible.readOnly_ensure _ _).bind_of (fun t => t = s) _ s rfl
  intro _ htime
  apply (Fallible.readOnly_ensure _ _).bind_of (fun t => t = s) _ s rfl
  intro _ hvotes
  exact absurd ⟨Fallible.ensure_ok _ _ s _ hstatus, Fallible.ensure_ok _ _ s _ htime,
    Fallible.ensure_ok _ _ s _ hvotes⟩ h

/-- What a tally writes. -/
theorem tallyVotes_disputes (s : ArbitrationContract) (id : Nat) :
    ((∀ d, s.disputes.find? id = some d → ¬d.canTally s.currentBlock) ∧
        ((tallyVotes id).exec s).2.disputes = s.disputes) ∨
      ∃ d, s.disputes.find? id = some d ∧ d.canTally s.currentBlock ∧
        ((tallyVotes id).exec s).2.disputes = s.disputes.insert id
          { d with decision := some (JuryDecision.tallyVotes d.juryVotes s.currentBlock id), status := .resolved } := by
  cases hd : s.disputes.find? id with
  | none =>
    refine Or.inl ⟨?_, ?_⟩
    · intro d h
      cases h
    · unfold tallyVotes
      simp only [Fallible.exec_bind, Fallible.exec_reads, getDispute, Fallible.exec_mk, hd]
  | some d =>
    by_cases htally : d.canTally s.currentBlock
    · refine Or.inr ⟨d, rfl, htally, ?_⟩
      obtain ⟨hstatus, htime, hvotes⟩ := htally
      have hupdate := updateDispute_disputes s id
        (fun d' => { d' with decision := some (JuryDecision.tallyVotes d.juryVotes s.currentBlock id), status := .resolved })
        d hd
      rw [← hupdate]
      unfold tallyVotes
      simp only [Fallible.exec_bind, Fallible.exec_reads, getDispute, Fallible.exec_mk, hd, Fallible.ensure,
        Fallible.exec_lift, if_pos hstatus, if_pos htime, if_pos hvotes]
      rcases (updateDispute id fun d' => { d' with
          decision := some (JuryDecision.tallyVotes d.juryVotes s.currentBlock id), status := .resolved }).exec s with ⟨r, t⟩
      cases r with
      | error e => rfl
      | ok u =>
        have hreward := rewardJuryMembers_disputes d.juryMembers t
        simp only
        rcases hexec : (rewardJuryMembers d.juryMembers).exec t with ⟨r', t'⟩
        rw [hexec] at hreward
        cases r' <;> exact hreward
    · refine Or.inl ⟨?_, ?_⟩
      · intro d' h
        obtain rfl := Option.some.inj h
        exact htally
      · rw [tallyVotes_of_not_canTally s id d hd htally]

/-- What follows a change keeps the ballots too. -/
theorem updateDispute_bind_balloted {α : Type} (s : ArbitrationContract) (h : s.Balloted) (id : Nat)
    (f : Dispute → Dispute) (hf : ∀ d, s.disputes.find? id = some d → Ballot (f d)) (k : Unit → Method α)
    (hk : ∀ u, Fallible.Keeps Balloted (k u)) : ((updateDispute id f >>= k).exec s).2.Balloted :=
  Fallible.Keeps.bind_of _ _ s (updateDispute_balloted s h id f hf) hk

section Step

variable (selectValidator : SelectValidator) (s : ArbitrationContract)

theorem submitEvidence_balloted (h : s.Balloted) (id : Nat) (e : Evidence) (submitter : AccountId) :
    (s.apply selectValidator (.submitEvidence id e submitter)).Balloted := by
  show Balloted ((submitEvidence id e submitter).exec s).2
  unfold submitEvidence
  apply (Fallible.readOnly_reads _).bind_of _ _ s h
  intro b _
  apply (readOnly_isValidator _).bind_of _ _ s h
  intro validator _
  apply (readOnly_getDispute _).bind_of _ _ s h
  intro d _
  apply (Fallible.readOnly_ensure _ _).bind_of _ _ s h
  intro _ _
  apply (Fallible.readOnly_ensure _ _).bind_of _ _ s h
  intro _ _
  apply (Fallible.readOnly_ensure _ _).bind_of _ _ s h
  intro _ _
  refine keeps_updateDispute_ballot id _ ?_ s h
  exact fun _ => ⟨rfl, rfl, fun ho => ho⟩

/-- The jury is drawn before anybody has voted. -/
theorem selectJury_balloted (h : s.Balloted) (order : IterOrder JuryCandidate) (id : Nat) (size : Option Nat) :
    (s.apply selectValidator (.selectJury order id size)).Balloted := by
  show Balloted ((selectJury selectValidator order id size).exec s).2
  unfold selectJury
  apply (Fallible.readOnly_reads _).bind_of _ _ s h
  intro b _
  apply (readOnly_getDispute _).bind_of _ _ s h
  intro d hd
  apply (Fallible.readOnly_ensure _ _).bind_of _ _ s h
  intro _ hopen
  apply (Fallible.readOnly_ensure _ _).bind_of _ _ s h
  intro _ _
  apply (Fallible.readOnly_reads _).bind_of _ _ s h
  intro cs _
  apply (Fallible.readOnly_ensure _ _).bind_of _ _ s h
  intro _ _
  apply (Fallible.readOnly_lift _).bind_of _ _ s h
  intro members _
  apply (Fallible.readOnly_ensure _ _).bind_of _ _ s h
  intro _ _
  have hfound := getDispute_ok id s d hd
  have hnone : d.juryVotes = [] := (h id d hfound).opened (Fallible.ensure_ok _ _ s _ hopen)
  apply updateDispute_bind_balloted s h id _ _ _ fun _ => .pure _
  intro d' hd'
  rw [hfound] at hd'
  obtain rfl := Option.some.inj hd'
  exact
    { opened := fun _ => hnone
      voters := by
        show (d.juryVotes.map JuryVote.juror).Nodup
        rw [hnone]
        exact List.nodup_nil
      members := by
        show ∀ v ∈ d.juryVotes, v.juror ∈ members
        rw [hnone]
        exact fun v hv => absurd hv List.not_mem_nil }

/-- One vote of a member that has not voted. -/
theorem submitJuryVote_balloted (h : s.Balloted) (id : Nat) (juror : AccountId) (v : Verdict) (j : Option String) :
    (s.apply selectValidator (.submitJuryVote id juror v j)).Balloted := by
  show Balloted ((submitJuryVote id juror v j).exec s).2
  unfold submitJuryVote
  apply (Fallible.readOnly_reads _).bind_of _ _ s h
  intro b _
  apply (readOnly_getDispute _).bind_of _ _ s h
  intro d hd
  apply (Fallible.readOnly_ensure _ _).bind_of _ _ s h
  intro _ hvote
  apply (Fallible.readOnly_ensure _ _).bind_of _ _ s h
  intro _ hmember
  apply (Fallible.readOnly_ensure _ _).bind_of _ _ s h
  intro _ hfresh
  have hvote := Fallible.ensure_ok _ _ s _ hvote
  have hmember := Fallible.ensure_ok _ _ s _ hmember
  have hfresh := Fallible.ensure_ok _ _ s _ hfresh
  have hfound := getDispute_ok id s d hd
  have hballot := h id d hfound
  apply updateDispute_balloted s h
  intro d' hd'
  rw [hfound] at hd'
  obtain rfl := Option.some.inj hd'
  refine ⟨?_, ?_, ?_⟩
  · intro hopen
    unfold Dispute.canVote at hvote
    rw [Bool.and_eq_true, decide_eq_true_eq, show d.status = .opened from hopen] at hvote
    cases hvote.1
  · show ((d.juryVotes ++ [_]).map JuryVote.juror).Nodup
    rw [List.map_append, List.nodup_append]
    refine ⟨hballot.voters, List.nodup_singleton _, ?_⟩
    rintro a ha b hb rfl
    obtain rfl := List.mem_singleton.mp hb
    exact hfresh ha
  · intro w hw
    rcases List.mem_append.mp hw with hw | hw
    · exact hballot.members w hw
    · obtain rfl := List.mem_singleton.mp hw
      exact hmember

theorem tallyVotes_balloted (h : s.Balloted) (id : Nat) : (s.apply selectValidator (.tallyVotes id)).Balloted := by
  rcases tallyVotes_disputes s id with ⟨-, hsame⟩ | ⟨d, hd, -, hinsert⟩
  · exact h.of_disputes_eq hsame
  · have hballot := h id d hd
    refine h.insert hinsert ⟨?_, hballot.voters, hballot.members⟩
    intro hopen
    cases hopen

theorem enforceVerdict_balloted (h : s.Balloted) (id : Nat) (e : Enforcement) (caller : AccountId) :
    (s.apply selectValidator (.enforceVerdict id e caller)).Balloted := by
  show Balloted ((enforceVerdict id e caller).exec s).2
  unfold enforceVerdict
  apply (readOnly_isValidator _).bind_of _ _ s h
  intro validator _
  apply (Fallible.readOnly_ensure _ _).bind_of _ _ s h
  intro _ _
  apply (readOnly_getDispute _).bind_of _ _ s h
  intro d _
  apply (Fallible.readOnly_ensure _ _).bind_of _ _ s h
  intro _ _
  apply (Fallible.readOnly_ensure _ _).bind_of _ _ s h
  intro _ _
  refine keeps_updateDispute_ballot id _ ?_ s h
  exact fun _ => ⟨rfl, rfl, fun ho => ho⟩

theorem appealDecision_balloted (h : s.Balloted) (id : Nat) (by' : AccountId) (j : Jurisdiction) :
    (s.apply selectValidator (.appealDecision id by' j)).Balloted := by
  show Balloted ((appealDecision id by' j).exec s).2
  unfold appealDecision
  apply (readOnly_getDispute _).bind_of _ _ s h
  intro d _
  apply (Fallible.readOnly_ensure _ _).bind_of _ _ s h
  intro _ _
  apply (Fallible.readOnly_ensure _ _).bind_of _ _ s h
  intro _ _
  refine Fallible.Keeps.bind _ _ (keeps_raiseDispute_ballot _ _ _ _ _) ?_ s h
  intro newId
  refine .bind _ _ (keeps_updateDispute_ballot newId _ ?_) ?_
  · exact fun _ => ⟨rfl, rfl, fun ho => ho⟩
  intro _
  refine .bind _ _ (keeps_updateDispute_ballot id _ ?_) fun _ => .pure _
  intro d
  refine ⟨rfl, rfl, ?_⟩
  intro hopen
  cases hopen

theorem dismissDispute_balloted (h : s.Balloted) (id : Nat) (reason : String) (caller : AccountId) :
    (s.apply selectValidator (.dismissDispute id reason caller)).Balloted := by
  show Balloted ((dismissDispute id reason caller).exec s).2
  unfold dismissDispute
  apply (readOnly_isValidator _).bind_of _ _ s h
  intro validator _
  apply (Fallible.readOnly_ensure _ _).bind_of _ _ s h
  intro _ _
  apply (readOnly_getDispute _).bind_of _ _ s h
  intro d _
  apply (Fallible.readOnly_ensure _ _).bind_of _ _ s h
  intro _ _
  refine keeps_updateDispute_ballot id _ ?_ s h
  intro d
  refine ⟨rfl, rfl, ?_⟩
  intro hopen
  cases hopen

theorem expireStaleDisputes_balloted (h : s.Balloted) (order : IterOrder Nat) :
    (s.apply selectValidator (.expireStaleDisputes order)).Balloted := by
  intro id d hd
  change (expireStaleDisputes order s).1.disputes.find? id = some d at hd
  rw [expireStaleDisputes_find?, Option.map_eq_some_iff] at hd
  obtain ⟨e, he, rfl⟩ := hd
  have hballot := h id e he
  by_cases hs : e.isStale s.currentBlock = true
  · rw [if_pos hs]
    refine ⟨?_, hballot.voters, hballot.members⟩
    intro hopen
    cases hopen
  · rw [if_neg hs]
    exact hballot

/-- Every call keeps the ballots. -/
theorem apply_balloted (h : s.Balloted) (op : ArbitrationOp) : (s.apply selectValidator op).Balloted := by
  cases op with
  | registerValidator account stake vc => exact h.of_disputes_eq rfl
  | setCurrentBlock b => exact h.of_disputes_eq rfl
  | raiseDispute c ty by' j e => exact keeps_raiseDispute_ballot c ty by' j e s h
  | submitEvidence id e submitter => exact submitEvidence_balloted selectValidator s h id e submitter
  | selectJury order id size => exact selectJury_balloted selectValidator s h order id size
  | submitJuryVote id juror v j => exact submitJuryVote_balloted selectValidator s h id juror v j
  | tallyVotes id => exact tallyVotes_balloted selectValidator s h id
  | enforceVerdict id e caller => exact enforceVerdict_balloted selectValidator s h id e caller
  | appealDecision id by' j => exact appealDecision_balloted selectValidator s h id by' j
  | dismissDispute id reason caller => exact dismissDispute_balloted selectValidator s h id reason caller
  | expireStaleDisputes order => exact expireStaleDisputes_balloted selectValidator s h order

end Step

/-- In every reachable contract. -/
theorem after_balloted (selectValidator : SelectValidator) (db : DisputeDatabase) (vc : ValidatorCreditsManager)
    (ops : List ArbitrationOp) : (after selectValidator db vc ops).Balloted := by
  have hnew : (new db vc).Balloted := by
    intro id d hd
    cases hd
  apply Run.inv_foldl (apply selectValidator) (fun _ _ => True) Balloted _ _ _ hnew
  · exact Run.meets_of_forall _ _ (fun _ _ => trivial) _ _
  · intro s op hs _
    exact apply_balloted selectValidator s hs op

/-! ## Convictions -/

/-- The call resolves the dispute with this decision. -/
def Records (selectValidator : SelectValidator) (s : ArbitrationContract) (id : Nat) (d : Dispute)
    (decision : JuryDecision) : Prop :=
  s.disputes.find? id = some d ∧ d.status ≠ .resolved ∧
    ∃ d', (s.apply selectValidator (.tallyVotes id)).disputes.find? id = some d' ∧
      d'.status = .resolved ∧ d'.decision = some decision

/-- A quorum of jurors, each counted once, and more than half of them for guilty. -/
structure Conviction (d : Dispute) (decision : JuryDecision) : Prop where
  quorum : d.quorum ≤ decision.votes.length
  once : (decision.votes.map JuryVote.juror).Nodup
  jurors : ∀ v ∈ decision.votes, v.juror ∈ d.juryMembers
  majority : decision.votes.length < 2 * decision.votes.countP fun v => v.verdict = .guilty

/-- If the call records a verdict of guilty, it is a conviction. -/
def SoundTally (selectValidator : SelectValidator) (s : ArbitrationContract) (op : ArbitrationOp) : Prop :=
  ∀ id d decision, op = .tallyVotes id → Records selectValidator s id d decision → decision.verdict = .guilty →
    Conviction d decision

/-- If the counts convict, a quorum has voted and the lead for guilty is larger than the abstentions. -/
def WarrantedTally (s : ArbitrationContract) (op : ArbitrationOp) : Prop :=
  ∀ id d, op = .tallyVotes id → s.disputes.find? id = some d → d.canTally s.currentBlock → d.convicts →
    d.quorum ≤ d.juryVotes.length ∧ d.notGuiltyVotes + d.abstentions < d.guiltyVotes

section Tally

variable (selectValidator : SelectValidator)

theorem records_iff (s : ArbitrationContract) (id : Nat) (d : Dispute) (decision : JuryDecision) :
    Records selectValidator s id d decision ↔ s.disputes.find? id = some d ∧ d.canTally s.currentBlock ∧
      decision = JuryDecision.tallyVotes d.juryVotes s.currentBlock id := by
  unfold Records
  show s.disputes.find? id = some d ∧ d.status ≠ .resolved ∧
      (∃ d', ((tallyVotes id).exec s).2.disputes.find? id = some d' ∧ _) ↔ _
  rcases tallyVotes_disputes s id with ⟨hnot, hsame⟩ | ⟨e, he, htally, hinsert⟩
  · rw [hsame]
    constructor
    · rintro ⟨hd, hstatus, d', hd', hresolved, -⟩
      rw [hd] at hd'
      obtain rfl := Option.some.inj hd'
      exact absurd hresolved hstatus
    · rintro ⟨hd, hcan, -⟩
      exact absurd hcan (hnot d hd)
  · rw [hinsert, SortedMap.find?_insert, if_pos rfl]
    constructor
    · rintro ⟨hd, -, d', hd', -, hdecision⟩
      rw [he] at hd
      obtain rfl := Option.some.inj hd
      obtain rfl := Option.some.inj hd'
      exact ⟨he, htally, (Option.some.inj hdecision).symm⟩
    · rintro ⟨hd, hcan, rfl⟩
      rw [he] at hd
      obtain rfl := Option.some.inj hd
      refine ⟨he, ?_, _, rfl, rfl, rfl⟩
      rw [hcan.1]
      intro h
      cases h

/-- Of one call. -/
theorem soundTally_iff (s : ArbitrationContract) (h : s.Balloted) (op : ArbitrationOp) :
    SoundTally selectValidator s op ↔ WarrantedTally s op := by
  constructor
  · intro hsound id d hop hd hcan hconvicts
    have hrecords := (records_iff selectValidator s id d _).mpr ⟨hd, hcan, rfl⟩
    have hguilty := (JuryDecision.tallyVotes_guilty_iff d.juryVotes s.currentBlock id).mpr hconvicts
    have hconviction := hsound id d _ hop hrecords hguilty
    have hquorum := hconviction.quorum
    have hmajority := hconviction.majority
    rw [JuryDecision.tallyVotes_votes] at hquorum hmajority
    have hlength := d.votes_length
    refine ⟨hquorum, ?_⟩
    change d.juryVotes.length < 2 * d.guiltyVotes at hmajority
    omega
  · intro hwarranted id d decision hop hrecords hguilty
    obtain ⟨hd, hcan, rfl⟩ := (records_iff selectValidator s id d decision).mp hrecords
    have hconvicts := (JuryDecision.tallyVotes_guilty_iff d.juryVotes s.currentBlock id).mp hguilty
    obtain ⟨hquorum, hlead⟩ := hwarranted id d hop hd hcan hconvicts
    have hlength := d.votes_length
    have hballot := h id d hd
    have hvotes := JuryDecision.tallyVotes_votes d.juryVotes s.currentBlock id
    refine ⟨?_, ?_, ?_, ?_⟩
    · rw [hvotes]
      exact hquorum
    · rw [hvotes]
      exact hballot.voters
    · rw [hvotes]
      exact hballot.members
    · rw [hvotes]
      show d.juryVotes.length < 2 * d.guiltyVotes
      omega

end Tally

/-- The tallies of a run convict soundly exactly if they are all warranted, and the percentage is
right for the votes of a length exactly if it is below 256. -/
theorem convictions_sound_iff (selectValidator : SelectValidator) (db : DisputeDatabase) (vc : ValidatorCreditsManager)
    (ops : List ArbitrationOp) (t : Nat) :
    (Run.Meets (apply selectValidator) (SoundTally selectValidator) (new db vc) ops ↔
      Run.Meets (apply selectValidator) WarrantedTally (new db vc) ops) ∧
    ((∀ (votes : List JuryVote) (b id : Nat), votes.length = t →
      (JuryDecision.tallyVotes votes b id).convictionPercentage =
        100 * (votes.countP fun v => v.verdict = .guilty) / votes.length) ↔ t < 256) := by
  refine ⟨?_, JuryDecision.percentage_iff t⟩
  rw [Run.meets_iff_split, Run.meets_iff_split]
  apply forall_congr'
  intro pre
  have hballoted := after_balloted selectValidator db vc pre
  constructor
  · intro hsound op post hops
    exact (soundTally_iff selectValidator _ hballoted op).mp (hsound op post hops)
  · intro hwarranted op post hops
    exact (soundTally_iff selectValidator _ hballoted op).mpr (hwarranted op post hops)

/-- One of seven jurors convicts, and 256 of 256 votes are 0 percent. -/
theorem minority_convicts :
    ¬ Run.Meets (apply firstCandidate) (SoundTally firstCandidate) (new .sample sampleCredits) (sampleAppeal.take 12) ∧
      (JuryDecision.tallyVotes (JuryDecision.sampleVotes 256 0) 0 0).convictionPercentage = 0 := by
  constructor
  · intro hmeets
    have hballoted := after_balloted firstCandidate .sample sampleCredits (sampleAppeal.take 11)
    have hsound := (Run.meets_iff_split _ _ _ _).mp hmeets (sampleAppeal.take 11) (.tallyVotes 1) [] rfl
    have hwarranted := (soundTally_iff firstCandidate _ hballoted _).mp hsound
    have hsample : ((after firstCandidate .sample sampleCredits (sampleAppeal.take 11)).disputes.find? 1).map
        (fun d => decide (d.canTally deliberationPeriod ∧ d.convicts ∧ d.juryVotes.length < d.quorum)) = some true := by
      decide +kernel
    have hblock : (after firstCandidate .sample sampleCredits (sampleAppeal.take 11)).currentBlock =
        deliberationPeriod := by
      decide +kernel
    obtain ⟨d, hd, hfacts⟩ := Option.map_eq_some_iff.mp hsample
    obtain ⟨hcan, hconvicts, hfew⟩ := of_decide_eq_true hfacts
    rw [← hblock] at hcan
    have hquorum := (hwarranted 1 d rfl hd hcan hconvicts).1
    omega
  · exact (JuryDecision.percentage_sampleVotes 256 (Nat.le_refl _)).1

end ArbitrationContract

end Kratos
