import Kratos.Consensus.VrfSelection
import Kratos.Contracts.DisputeTable
import Kratos.Lib.MaxDraw

/-!
# Juries

A jury is drawn round by round: the validator with the largest score of those not drawn yet.  The raiser
and the validator that the first fraud proof accuses are left out.  The jury has as many members as asked
for, if there are so many; the largest jury size is not looked at, the validators accused by other fraud
proofs may be drawn, and of equal scores the first in the order of the map wins.  A jury is impartial and
the same for every order exactly if none of these happens (`FairDraw`).
-/

namespace Kratos

/-- As the source prints it. -/
def VRFError.debug : VRFError → String
  | noKeypair => "NoKeypair"
  | invalidProof => "InvalidProof"
  | invalidOutput => "InvalidOutput"
  | verificationFailed => "VerificationFailed"
  | noCandidates => "NoCandidates"

/-- Account, stake and credits. -/
abbrev JuryTuple : Type := AccountId × Balance × Nat

def JuryTuple.candidate (c : JuryTuple) : Candidate := { id := c.1, stake := c.2.1, vc := c.2.2 }

section Draw

variable {σ : Type} [LinearOrder σ] (sc : VrfScoring σ)

/-- The draw of a juror by the scores. -/
def VrfScoring.drawJuror : SelectValidator := fun slot epoch candidates =>
  (selectValidator sc slot epoch (candidates.map JuryTuple.candidate)).mapError VRFError.debug

/-- The score in a round. -/
def VrfScoring.jurorKey (disputeId round : Nat) (c : JuryTuple) : σ :=
  sc.score round (disputeId + round) (JuryTuple.candidate c)

def VrfScoring.juryKeys (disputeId size : Nat) : List (JuryTuple → σ) :=
  (List.range size).map (sc.jurorKey disputeId)

theorem drawJuror_eq_ok (disputeId round : Nat) (cs : List JuryTuple) (c : JuryTuple)
    (h : firstMax (sc.jurorKey disputeId round) cs = some c) :
    sc.drawJuror round (disputeId + round) cs = .ok c.1 := by
  have hmax : firstMax (sc.score round (disputeId + round)) (cs.map JuryTuple.candidate) =
      some (JuryTuple.candidate c) := by
    rw [firstMax_map]
    exact congrArg _ h
  have hselect := (selectValidator_eq_ok_iff sc round (disputeId + round) _ c.1).mpr ⟨_, hmax, rfl⟩
  unfold VrfScoring.drawJuror
  rw [hselect]
  rfl

end Draw

namespace ArbitrationContract

/-! ## The registry of validators -/

/-- The validators are kept under their accounts. -/
def Registered (s : ArbitrationContract) : Prop := ∀ a v, s.validators.find? a = some v → v.account = a

section Frame

variable (w : SortedMap AccountId JuryCandidate)

/-- The call leaves the validators as they are. -/
def KeepsValidators {α : Type} (m : Method α) : Prop := Fallible.Keeps (fun t => t.validators = w) m

variable {w}

theorem keepsValidators_guard {α β : Type} (m : Method α) (k : α → Method β) (hm : m.ReadOnly)
    (hk : ∀ a, KeepsValidators w (k a)) : KeepsValidators w (m >>= k) :=
  .bind _ _ (hm.keeps _) hk

theorem keepsValidators_updateDispute (id : Nat) (f : Dispute → Dispute) :
    KeepsValidators w (updateDispute id f) := by
  apply keepsValidators_guard _ _ (readOnly_getDispute id)
  intro d
  exact .bind _ _ (fun t ht => ht) fun _ => fun t ht => ht

theorem keepsValidators_raiseDispute (c : ChainId) (ty : DisputeType) (raisedBy : AccountId) (j : Jurisdiction)
    (e : Option Evidence) : KeepsValidators w (raiseDispute c ty raisedBy j e) := by
  apply keepsValidators_guard _ _ (Fallible.readOnly_ensure _ _)
  intro _
  apply keepsValidators_guard _ _ (Fallible.readOnly_reads _)
  intro id
  apply keepsValidators_guard _ _ (Fallible.readOnly_ensure _ _)
  intro _
  apply keepsValidators_guard _ _ (Fallible.readOnly_reads _)
  intro known
  apply keepsValidators_guard _ _ (Fallible.readOnly_ensure _ _)
  intro _
  apply keepsValidators_guard _ _ (Fallible.readOnly_reads _)
  intro b
  refine .bind _ _ (fun t ht => ht) fun _ => .bind _ _ (fun t ht => ht) fun _ => .pure _

theorem keepsValidators_submitEvidence (id : Nat) (e : Evidence) (submitter : AccountId) :
    KeepsValidators w (submitEvidence id e submitter) := by
  apply keepsValidators_guard _ _ (Fallible.readOnly_reads _)
  intro b
  apply keepsValidators_guard _ _ (readOnly_isValidator _)
  intro validator
  apply keepsValidators_guard _ _ (readOnly_getDispute _)
  intro d
  apply keepsValidators_guard _ _ (Fallible.readOnly_ensure _ _)
  intro _
  apply keepsValidators_guard _ _ (Fallible.readOnly_ensure _ _)
  intro _
  apply keepsValidators_guard _ _ (Fallible.readOnly_ensure _ _)
  intro _
  exact keepsValidators_updateDispute id _

theorem keepsValidators_selectJury (sv : SelectValidator) (order : IterOrder JuryCandidate) (id : Nat)
    (size : Option Nat) : KeepsValidators w (selectJury sv order id size) := by
  apply keepsValidators_guard _ _ (Fallible.readOnly_reads _)
  intro b
  apply keepsValidators_guard _ _ (readOnly_getDispute _)
  intro d
  apply keepsValidators_guard _ _ (Fallible.readOnly_ensure _ _)
  intro _
  apply keepsValidators_guard _ _ (Fallible.readOnly_ensure _ _)
  intro _
  apply keepsValidators_guard _ _ (Fallible.readOnly_reads _)
  intro cs
  apply keepsValidators_guard _ _ (Fallible.readOnly_ensure _ _)
  intro _
  apply keepsValidators_guard _ _ (Fallible.readOnly_lift _)
  intro members
  apply keepsValidators_guard _ _ (Fallible.readOnly_ensure _ _)
  intro _
  exact .bind _ _ (keepsValidators_updateDispute id _) fun _ => .pure _

theorem keepsValidators_submitJuryVote (id : Nat) (juror : AccountId) (v : Verdict) (j : Option String) :
    KeepsValidators w (submitJuryVote id juror v j) := by
  apply keepsValidators_guard _ _ (Fallible.readOnly_reads _)
  intro b
  apply keepsValidators_guard _ _ (readOnly_getDispute _)
  intro d
  apply keepsValidators_guard _ _ (Fallible.readOnly_ensure _ _)
  intro _
  apply keepsValidators_guard _ _ (Fallible.readOnly_ensure _ _)
  intro _
  apply keepsValidators_guard _ _ (Fallible.readOnly_ensure _ _)
  intro _
  exact keepsValidators_updateDispute id _

theorem keepsValidators_rewardJuryMembers (members : List AccountId) :
    KeepsValidators w (rewardJuryMembers members) := by
  induction members with
  | nil => exact .pure _
  | cons juror rest ih =>
    refine .bind _ _ ?_ fun _ => ih
    intro t ht
    unfold recordArbitration
    rw [Fallible.exec_mk]
    split <;> exact ht

theorem keepsValidators_tallyVotes (id : Nat) : KeepsValidators w (tallyVotes id) := by
  apply keepsValidators_guard _ _ (Fallible.readOnly_reads _)
  intro b
  apply keepsValidators_guard _ _ (readOnly_getDispute _)
  intro d
  apply keepsValidators_guard _ _ (Fallible.readOnly_ensure _ _)
  intro _
  apply keepsValidators_guard _ _ (Fallible.readOnly_ensure _ _)
  intro _
  apply keepsValidators_guard _ _ (Fallible.readOnly_ensure _ _)
  intro _
  refine .bind _ _ (keepsValidators_updateDispute id _) fun _ => ?_
  exact .bind _ _ (keepsValidators_rewardJuryMembers _) fun _ => .pure _

theorem keepsValidators_enforceVerdict (id : Nat) (e : Enforcement) (caller : AccountId) :
    KeepsValidators w (enforceVerdict id e caller) := by
  apply keepsValidators_guard _ _ (readOnly_isValidator _)
  intro validator
  apply keepsValidators_guard _ _ (Fallible.readOnly_ensure _ _)
  intro _
  apply keepsValidators_guard _ _ (readOnly_getDispute _)
  intro d
  apply keepsValidators_guard _ _ (Fallible.readOnly_ensure _ _)
  intro _
  apply keepsValidators_guard _ _ (Fallible.readOnly_ensure _ _)
  intro _
  exact keepsValidators_updateDispute id _

theorem keepsValidators_appealDecision (id : Nat) (by' : AccountId) (j : Jurisdiction) :
    KeepsValidators w (appealDecision id by' j) := by
  apply keepsValidators_guard _ _ (readOnly_getDispute _)
  intro d
  apply keepsValidators_guard _ _ (Fallible.readOnly_ensure _ _)
  intro _
  apply keepsValidators_guard _ _ (Fallible.readOnly_ensure _ _)
  intro _
  refine .bind _ _ (keepsValidators_raiseDispute _ _ _ _ _) fun newId => ?_
  refine .bind _ _ (keepsValidators_updateDispute newId _) fun _ => ?_
  exact .bind _ _ (keepsValidators_updateDispute id _) fun _ => .pure _

theorem keepsValidators_dismissDispute (id : Nat) (reason : String) (caller : AccountId) :
    KeepsValidators w (dismissDispute id reason caller) := by
  apply keepsValidators_guard _ _ (readOnly_isValidator _)
  intro validator
  apply keepsValidators_guard _ _ (Fallible.readOnly_ensure _ _)
  intro _
  apply keepsValidators_guard _ _ (readOnly_getDispute _)
  intro d
  apply keepsValidators_guard _ _ (Fallible.readOnly_ensure _ _)
  intro _
  exact keepsValidators_updateDispute id _

theorem expireStaleDisputes_validators (order : IterOrder Nat) (s : ArbitrationContract) :
    (expireStaleDisputes order s).1.validators = s.validators := by
  show ((expireStaleDisputes order s).2.foldl expireDispute s).validators = s.validators
  generalize (expireStaleDisputes order s).2 = ids
  induction ids generalizing s with
  | nil => rfl
  | cons id ids ih =>
    rw [List.foldl_cons, ih]
    unfold expireDispute
    split <;> rfl

end Frame

theorem Registered.of_validators_eq {s t : ArbitrationContract} (h : s.Registered)
    (ht : t.validators = s.validators) : t.Registered := by
  unfold Registered
  rw [ht]
  exact h

/-- Every call keeps the validators under their accounts. -/
theorem apply_registered (sv : SelectValidator) (s : ArbitrationContract) (h : s.Registered) (op : ArbitrationOp) :
    (s.apply sv op).Registered := by
  cases op with
  | registerValidator account stake vc =>
    intro a v hv
    change (s.validators.insert account _).find? a = some v at hv
    rw [SortedMap.find?_insert] at hv
    by_cases ha : a = account
    · rw [if_pos ha] at hv
      obtain rfl := Option.some.inj hv
      exact ha.symm
    · rw [if_neg ha] at hv
      exact h a v hv
  | setCurrentBlock b => exact h
  | raiseDispute c ty by' j e => exact h.of_validators_eq (keepsValidators_raiseDispute c ty by' j e s rfl)
  | submitEvidence id e submitter => exact h.of_validators_eq (keepsValidators_submitEvidence id e submitter s rfl)
  | selectJury order id size => exact h.of_validators_eq (keepsValidators_selectJury sv order id size s rfl)
  | submitJuryVote id juror v j => exact h.of_validators_eq (keepsValidators_submitJuryVote id juror v j s rfl)
  | tallyVotes id => exact h.of_validators_eq (keepsValidators_tallyVotes id s rfl)
  | enforceVerdict id e caller => exact h.of_validators_eq (keepsValidators_enforceVerdict id e caller s rfl)
  | appealDecision id by' j => exact h.of_validators_eq (keepsValidators_appealDecision id by' j s rfl)
  | dismissDispute id reason caller => exact h.of_validators_eq (keepsValidators_dismissDispute id reason caller s rfl)
  | expireStaleDisputes order => exact h.of_validators_eq (expireStaleDisputes_validators order s)

theorem after_registered (sv : SelectValidator) (db : DisputeDatabase) (vc : ValidatorCreditsManager)
    (ops : List ArbitrationOp) : (after sv db vc ops).Registered := by
  have hnew : (new db vc).Registered := by
    intro a v hv
    cases hv
  apply Run.inv_foldl (apply sv) (fun _ _ => True) Registered _ _ _ hnew
  · exact Run.meets_of_forall _ _ (fun _ _ => trivial) _ _
  · intro s op hs _
    exact apply_registered sv s hs op

/-! ## Candidates -/

section Candidates

variable (s : ArbitrationContract) (d : Dispute)

/-- Neither the accused nor the raiser. -/
def admitted (v : JuryCandidate) : Bool := decide (d.accused ≠ some v.account) && decide (v.account ≠ d.raisedBy)

theorem candidates_eq (order : IterOrder JuryCandidate) :
    candidates order s d =
      ((order.iter s.validators.values).filter (admitted d)).map fun v => (v.account, v.stake, v.vc) := rfl

theorem candidates_perm (order order' : IterOrder JuryCandidate) :
    (candidates order s d).Perm (candidates order' s d) := by
  rw [candidates_eq, candidates_eq]
  exact (((order.perm _).trans (order'.perm _).symm).filter _).map _

theorem mem_candidates (order : IterOrder JuryCandidate) (c : JuryTuple) (h : c ∈ candidates order s d) :
    ∃ v ∈ s.validators.values, v.account = c.1 ∧ c.1 ≠ d.raisedBy := by
  rw [candidates_eq, List.mem_map] at h
  obtain ⟨v, hv, rfl⟩ := h
  rw [List.mem_filter, order.mem_iter] at hv
  refine ⟨v, hv.1, rfl, ?_⟩
  have hadmitted := hv.2
  unfold admitted at hadmitted
  rw [Bool.and_eq_true, decide_eq_true_eq, decide_eq_true_eq] at hadmitted
  exact hadmitted.2

theorem candidates_nodup (h : s.Registered) (order : IterOrder JuryCandidate) :
    ((candidates order s d).map Prod.fst).Nodup := by
  have hvalues : (s.validators.values.map JuryCandidate.account).Nodup := by
    have hkeys : s.validators.values.map JuryCandidate.account = s.validators.keys := by
      unfold SortedMap.values SortedMap.keys
      rw [List.map_map]
      apply List.map_congr_left
      intro e he
      exact h e.1 e.2 ((SortedMap.mem_entries_iff _ _ _).mp he)
    rw [hkeys]
    exact SortedMap.keys_nodup _
  rw [candidates_eq, List.map_map]
  have hsub := ((List.filter_sublist (p := admitted d) (l := order.iter s.validators.values)).map
    JuryCandidate.account)
  exact hsub.nodup (((order.perm _).map _).nodup_iff.mpr hvalues)

/-- Every permutation of the candidates is met with in some order of the map. -/
theorem exists_candidates (order : IterOrder JuryCandidate) (cs : List JuryTuple)
    (h : cs.Perm (candidates order s d)) : ∃ order', candidates order' s d = cs := by
  have hstored := h.trans (candidates_perm s d order .stored)
  rw [candidates_eq] at hstored
  -- from the tuples back to the validators
  have hback := hstored.map fun c : JuryTuple => ({ account := c.1, stake := c.2.1, vc := c.2.2 } : JuryCandidate)
  rw [List.map_map] at hback
  rw [show ((fun c : JuryTuple => ({ account := c.1, stake := c.2.1, vc := c.2.2 } : JuryCandidate)) ∘
    fun v : JuryCandidate => (v.account, v.stake, v.vc)) = id from rfl, List.map_id] at hback
  obtain ⟨order', horder⟩ := IterOrder.exists_iter_filter (admitted d) s.validators.values _ hback
  refine ⟨order', ?_⟩
  rw [candidates_eq, horder, List.map_map]
  exact List.map_id cs

end Candidates

/-! ## The draw -/

section Draw

variable {σ : Type} [LinearOrder σ] (sc : VrfScoring σ)

/-- The rounds draw the largest, one by one. -/
theorem drawJury_eq (id : Nat) (cs : List JuryTuple) (hcs : (cs.map Prod.fst).Nodup) (rounds : List Nat)
    (chosen : List AccountId) :
    drawJury sc.drawJuror id cs rounds chosen =
      .ok (chosen ++ (drawMax (rounds.map (sc.jurorKey id)) (cs.filter fun c => c.1 ∉ chosen)).map Prod.fst) := by
  induction rounds generalizing chosen with
  | nil => simp [drawJury, drawMax]
  | cons round rounds ih =>
    rw [drawJury]
    by_cases hnone : cs.filter (fun c => decide (c.1 ∉ chosen)) = []
    · rw [hnone, drawMax_nil, List.map_nil, List.append_nil]
      rfl
    · obtain ⟨c, hc⟩ := firstMax_isSome (sc.jurorKey id round) _ hnone
      have hmem := (List.mem_filter.mp (isFirstMax_firstMax _ _ _ hc).mem).1
      have hrest : cs.filter (fun e => decide (e.1 ∉ chosen ++ [c.1])) =
          (cs.filter fun e => decide (e.1 ∉ chosen)).filter fun e => decide (e ≠ c) := by
        rw [List.filter_filter]
        apply List.filter_congr
        intro e he
        have hsame : e.1 = c.1 ↔ e = c :=
          ⟨fun h => List.inj_on_of_nodup_map hcs he hmem h, fun h => congrArg Prod.fst h⟩
        simp [hsame, Bool.and_comm]
      rw [if_neg (by simpa using hnone), drawJuror_eq_ok sc id round _ c hc, List.map_cons,
        drawMax_cons _ _ _ c hc]
      simp only
      rw [ih, hrest, List.map_cons, List.append_assoc]
      rfl

theorem updateDispute_ok_iff (s : ArbitrationContract) (id : Nat) (f : Dispute → Dispute) (d : Dispute)
    (hd : s.disputes.find? id = some d) :
    (∃ u, ((updateDispute id f).exec s).1 = .ok u) ↔ s.db.faults s.db.writes = false := by
  unfold updateDispute
  simp only [Fallible.exec_bind, getDispute, Fallible.exec_mk, hd, Fallible.exec_modifies, persistDispute,
    DisputeDatabase.put]
  cases s.db.faults s.db.writes with
  | true =>
    refine iff_of_false ?_ (by simp)
    rintro ⟨u, hu⟩
    cases hu
  | false => exact iff_of_true ⟨(), rfl⟩ rfl

theorem updateDispute_bind_ok_iff {α : Type} (s : ArbitrationContract) (id : Nat) (f : Dispute → Dispute) (d : Dispute)
    (hd : s.disputes.find? id = some d) (a b : α) :
    ((updateDispute id f >>= fun _ => pure a).exec s).1 = .ok b ↔ a = b ∧ s.db.faults s.db.writes = false := by
  rw [← updateDispute_ok_iff s id f d hd, Fallible.exec_bind]
  rcases (updateDispute id f).exec s with ⟨r, t⟩
  cases r with
  | ok u =>
    constructor
    · intro h
      exact ⟨Except.ok.inj h, u, rfl⟩
    · rintro ⟨rfl, -⟩
      rfl
  | error e =>
    refine iff_of_false ?_ ?_
    · intro h
      cases h
    · rintro ⟨-, u, hu⟩
      cases hu

theorem getDispute_ok_iff (id : Nat) (s : ArbitrationContract) (d : Dispute) :
    ((getDispute id).exec s).1 = .ok d ↔ s.disputes.find? id = some d := by
  constructor
  · exact getDispute_ok id s d
  · intro hd
    simp only [getDispute, Fallible.exec_mk, hd]

/-- When the call succeeds, and with which jury. -/
theorem selectJury_ok_iff (sv : SelectValidator) (order : IterOrder JuryCandidate) (id : Nat) (size : Option Nat)
    (s : ArbitrationContract) (members : List AccountId) :
    ((selectJury sv order id size).exec s).1 = .ok members ↔
      ∃ d, s.disputes.find? id = some d ∧ d.status = .opened ∧ d.evidence.isEmpty = false ∧
        (candidates order s d).isEmpty = false ∧
        drawJury sv id (candidates order s d) (List.range (size.getD defaultJurySize)) [] = .ok members ∧
        minJurySize ≤ members.length ∧ s.db.faults s.db.writes = false := by
  unfold selectJury
  rw [Fallible.exec_reads_bind, (readOnly_getDispute id).bind_ok_iff]
  apply exists_congr
  intro d
  rw [getDispute_ok_iff]
  apply and_congr_right
  intro hd
  rw [Fallible.ensure_bind_ok_iff, Fallible.ensure_bind_ok_iff, Fallible.exec_reads_bind,
    Fallible.ensure_bind_ok_iff, (Fallible.readOnly_lift _).bind_ok_iff]
  apply and_congr_right
  intro _
  apply and_congr_right
  intro _
  apply and_congr_right
  intro _
  constructor
  · rintro ⟨ms, hdraw, hrest⟩
    rw [Fallible.ensure_bind_ok_iff, updateDispute_bind_ok_iff s id _ d hd] at hrest
    obtain ⟨hsize, rfl, hfault⟩ := hrest
    exact ⟨hdraw, hsize, hfault⟩
  · rintro ⟨hdraw, hsize, hfault⟩
    refine ⟨members, hdraw, ?_⟩
    rw [Fallible.ensure_bind_ok_iff, updateDispute_bind_ok_iff s id _ d hd]
    exact ⟨hsize, rfl, hfault⟩

/-- A jury can be drawn. -/
structure Drawable (s : ArbitrationContract) (d : Dispute) (size : Option Nat) : Prop where
  opened : d.status = .opened
  evidence : d.evidence.isEmpty = false
  enough : minJurySize ≤ min (size.getD defaultJurySize) (candidates .stored s d).length
  written : s.db.faults s.db.writes = false

theorem length_drawMax_candidates (s : ArbitrationContract) (h : s.Registered) (d : Dispute) (size : Nat) (id : Nat)
    (order : IterOrder JuryCandidate) :
    (drawMax (sc.juryKeys id size) (candidates order s d)).length = min size (candidates .stored s d).length := by
  rw [drawMax_length _ _ (List.Nodup.of_map _ (candidates_nodup s d h order)), VrfScoring.juryKeys, List.length_map,
    List.length_range, (candidates_perm s d order .stored).length_eq]

/-- The jury of a call that succeeds. -/
theorem selectJury_drawn_iff (s : ArbitrationContract) (h : s.Registered) (order : IterOrder JuryCandidate) (id : Nat)
    (size : Option Nat) (members : List AccountId) :
    ((selectJury sc.drawJuror order id size).exec s).1 = .ok members ↔
      ∃ d, s.disputes.find? id = some d ∧ Drawable s d size ∧
        members = (drawMax (sc.juryKeys id (size.getD defaultJurySize)) (candidates order s d)).map Prod.fst := by
  rw [selectJury_ok_iff]
  apply exists_congr
  intro d
  apply and_congr_right
  intro _
  have hall : (candidates order s d).filter (fun c => decide (c.1 ∉ ([] : List AccountId))) = candidates order s d := by
    rw [List.filter_eq_self]
    intro c _
    exact decide_eq_true List.not_mem_nil
  have hlength := length_drawMax_candidates sc s h d (size.getD defaultJurySize) id order
  rw [drawJury_eq sc id _ (candidates_nodup s d h order), hall, List.nil_append]
  change _ ∧ _ ∧ _ ∧
    Except.ok ((drawMax (sc.juryKeys id (size.getD defaultJurySize)) (candidates order s d)).map Prod.fst) = _ ∧ _ ↔ _
  constructor
  · rintro ⟨hopen, hevidence, -, hdraw, hsize, hwritten⟩
    obtain rfl := Except.ok.inj hdraw
    rw [List.length_map, hlength] at hsize
    exact ⟨⟨hopen, hevidence, hsize, hwritten⟩, rfl⟩
  · rintro ⟨⟨hopen, hevidence, hsize, hwritten⟩, rfl⟩
    refine ⟨hopen, hevidence, ?_, rfl, ?_, hwritten⟩
    · have hperm := (candidates_perm s d order .stored).length_eq
      cases hc : candidates order s d with
      | nil =>
        rw [hc, List.length_nil] at hperm
        rw [← hperm, Nat.min_zero] at hsize
        cases hsize
      | cons c cs => rfl
    · rw [List.length_map, hlength]
      exact hsize

/-! ## Impartial juries -/

/-- Of the allowed size, of different registered validators that have no part in the dispute. -/
structure ImpartialJury (s : ArbitrationContract) (d : Dispute) (members : List AccountId) : Prop where
  least : minJurySize ≤ members.length
  most : members.length ≤ maxJurySize
  distinct : members.Nodup
  registered : ∀ a ∈ members, s.validators.contains a = true
  raiser : d.raisedBy ∉ members
  accused : ∀ proof, .fraudProof proof ∈ d.evidence → proof.accusedValidator ∉ members

/-- A call that succeeds draws an impartial jury, and the same one for every order of the validators. -/
def ImpartialDraw (sv : SelectValidator) (s : ArbitrationContract) (id : Nat) (size : Option Nat) : Prop :=
  ∀ (order : IterOrder JuryCandidate) (members : List AccountId),
    ((selectJury sv order id size).exec s).1 = .ok members →
      (∃ d, s.disputes.find? id = some d ∧ ImpartialJury s d members) ∧
        ∀ order' : IterOrder JuryCandidate, ((selectJury sv order' id size).exec s).1 = .ok members

/-- No fraud proof of the evidence accuses the candidate. -/
def unaccused (d : Dispute) (c : JuryTuple) : Prop :=
  ∀ proof, .fraudProof proof ∈ d.evidence → proof.accusedValidator ≠ c.1

/-- If a jury can be drawn, it is not above the largest size, and in every round a candidate whom nobody
accuses scores above all others. -/
def FairDraw (s : ArbitrationContract) (id : Nat) (size : Option Nat) : Prop :=
  ∀ d, s.disputes.find? id = some d → Drawable s d size →
    min (size.getD defaultJurySize) (candidates .stored s d).length ≤ maxJurySize ∧
      Unrivalled (unaccused d) (sc.juryKeys id (size.getD defaultJurySize)) (candidates .stored s d)

/-- Lists are equal if their images are, where the function is one to one. -/
theorem eq_of_map_eq {α β : Type} (f : α → β) (l m : List α) (hinj : ∀ a ∈ l, ∀ b ∈ m, f a = f b → a = b)
    (h : l.map f = m.map f) : l = m := by
  induction l generalizing m with
  | nil => exact (List.map_eq_nil_iff.mp h.symm).symm
  | cons a l ih =>
    cases m with
    | nil => cases h
    | cons b m =>
      obtain ⟨hab, hrest⟩ := List.cons.inj h
      rw [hinj a List.mem_cons_self b List.mem_cons_self hab,
        ih m (fun c hc e he => hinj c (List.mem_cons_of_mem a hc) e (List.mem_cons_of_mem b he)) hrest]

/-- Whatever the order, the members are different, registered and not the raiser. -/
theorem drawn_jury (s : ArbitrationContract) (h : s.Registered) (d : Dispute) (id : Nat) (size : Nat)
    (order : IterOrder JuryCandidate) :
    ((drawMax (sc.juryKeys id size) (candidates order s d)).map Prod.fst).Nodup ∧
      (∀ a ∈ (drawMax (sc.juryKeys id size) (candidates order s d)).map Prod.fst, s.validators.contains a = true) ∧
      d.raisedBy ∉ (drawMax (sc.juryKeys id size) (candidates order s d)).map Prod.fst := by
  refine ⟨?_, ?_, ?_⟩
  · apply List.Nodup.map_on _ (drawMax_nodup _ _)
    intro c hc e he hsame
    exact List.inj_on_of_nodup_map (candidates_nodup s d h order) (mem_of_mem_drawMax _ _ c hc)
      (mem_of_mem_drawMax _ _ e he) hsame
  · intro a ha
    obtain ⟨c, hc, rfl⟩ := List.mem_map.mp ha
    obtain ⟨v, hv, hac, -⟩ := mem_candidates s d order c (mem_of_mem_drawMax _ _ c hc)
    obtain ⟨k, hk⟩ := (SortedMap.mem_values_iff _ _).mp hv
    unfold SortedMap.contains
    rw [← hac, h k v hk, hk]
    rfl
  · intro hraiser
    obtain ⟨c, hc, hsame⟩ := List.mem_map.mp hraiser
    obtain ⟨v, -, -, hne⟩ := mem_candidates s d order c (mem_of_mem_drawMax _ _ c hc)
    exact hne hsame

/-- In one state. -/
theorem impartialDraw_iff (s : ArbitrationContract) (h : s.Registered) (id : Nat) (size : Option Nat) :
    ImpartialDraw sc.drawJuror s id size ↔ FairDraw sc s id size := by
  constructor
  · intro hdraw d hd hable
    have hdrawn : ∀ order, ((selectJury sc.drawJuror order id size).exec s).1 =
        .ok ((drawMax (sc.juryKeys id (size.getD defaultJurySize)) (candidates order s d)).map Prod.fst) :=
      fun order => (selectJury_drawn_iff sc s h order id size _).mpr ⟨d, hd, hable, rfl⟩
    obtain ⟨⟨d', hd', himpartial⟩, hsame⟩ := hdraw .stored _ (hdrawn .stored)
    rw [hd] at hd'
    obtain rfl := Option.some.inj hd'
    have hkeyed := candidates_nodup s d h .stored
    refine ⟨?_, ?_⟩
    · have hmost := himpartial.most
      rwa [List.length_map, length_drawMax_candidates sc s h] at hmost
    · apply (drawMax_perm_iff _ _ _ (List.Nodup.of_map _ hkeyed)).mp
      intro cs hcs
      obtain ⟨order, rfl⟩ := exists_candidates s d .stored cs hcs
      have heq : drawMax (sc.juryKeys id (size.getD defaultJurySize)) (candidates order s d) =
          drawMax (sc.juryKeys id (size.getD defaultJurySize)) (candidates .stored s d) := by
        apply eq_of_map_eq Prod.fst
        · intro c hc e he hce
          exact List.inj_on_of_nodup_map hkeyed (hcs.mem_iff.mp (mem_of_mem_drawMax _ _ c hc))
            (mem_of_mem_drawMax _ _ e he) hce
        · exact Except.ok.inj ((hdrawn order).symm.trans (hsame order))
      refine ⟨heq, ?_⟩
      intro c hc proof hproof haccused
      rw [heq] at hc
      exact himpartial.accused proof hproof (haccused ▸ List.mem_map_of_mem hc)
  · intro hfair order members hmembers
    obtain ⟨d, hd, hable, rfl⟩ := (selectJury_drawn_iff sc s h order id size members).mp hmembers
    obtain ⟨hmost, hunrivalled⟩ := hfair d hd hable
    have hlength := length_drawMax_candidates sc s h d (size.getD defaultJurySize) id order
    have hall := (drawMax_perm_iff (unaccused d) _ _
      (List.Nodup.of_map _ (candidates_nodup s d h .stored))).mpr hunrivalled
    obtain ⟨hdistinct, hregistered, hraiser⟩ := drawn_jury sc s h d id (size.getD defaultJurySize) order
    constructor
    · refine ⟨d, hd, ?_, ?_, hdistinct, hregistered, hraiser, ?_⟩
      · rw [List.length_map, hlength]
        exact hable.enough
      · rw [List.length_map, hlength]
        exact hmost
      · intro proof hproof haccused
        obtain ⟨c, hc, hsame⟩ := List.mem_map.mp haccused
        exact (hall _ (candidates_perm s d order .stored)).2 c hc proof hproof hsame.symm
    · intro order'
      refine (selectJury_drawn_iff sc s h order' id size _).mpr ⟨d, hd, hable, ?_⟩
      rw [(hall _ (candidates_perm s d order .stored)).1, (hall _ (candidates_perm s d order' .stored)).1]

/-- In every state of every run, for every dispute and size. -/
theorem juries_impartial_iff (db : DisputeDatabase) (vc : ValidatorCreditsManager) (ops : List ArbitrationOp)
    (id : Nat) (size : Option Nat) :
    ImpartialDraw sc.drawJuror (after sc.drawJuror db vc ops) id size ↔
      FairDraw sc (after sc.drawJuror db vc ops) id size :=
  impartialDraw_iff sc _ (after_registered _ db vc ops) id size

end Draw

/-! ## A partial jury -/

def accusing (validator : AccountId) : Evidence :=
  let header : BlockHeader :=
    { number := 1, parentHash := ⟨0⟩, transactionsRoot := ⟨0⟩, stateRoot := ⟨0⟩, timestamp := 0, epoch := 0, slot := 1
      author := validator, signature := ⟨0⟩ }
  .fraudProof (.doubleFinalization validator header { header with stateRoot := ⟨1⟩ } ⟨0⟩ ⟨0⟩)

/-- Without stake and credits nobody scores above another. -/
def sampleNewcomers : List ArbitrationOp :=
  (List.finRange 22).map (fun i => ArbitrationOp.registerValidator ⟨i.castLE (by decide)⟩ 0 0) ++
    [ArbitrationOp.raiseDispute ⟨1⟩ .validatorMisconduct ⟨100⟩ (.localTo ⟨1⟩) (some (accusing ⟨101⟩)),
      ArbitrationOp.submitEvidence 1 (accusing ⟨2⟩) ⟨100⟩]

/-- The other way round. -/
def reversed : IterOrder JuryCandidate := ⟨List.reverse, fun l => List.reverse_perm l⟩

/-- The jury drawn from all newcomers for dispute 1. -/
def sampleDraw (order : IterOrder JuryCandidate) (size : Nat) : Option (List AccountId) :=
  ((selectJury sampleScoring.drawJuror order 1 (some size)).exec
    (after sampleScoring.drawJuror .sample .new sampleNewcomers)).1.toOption

/-- A jury of 22, the second accused among them, and others if the map is reversed. -/
theorem newcomers_drawn :
    (sampleDraw .stored 22).map List.length = some 22 ∧
      (sampleDraw .stored 7).map (fun members => decide (⟨2⟩ ∈ members)) = some true ∧
      sampleDraw reversed 7 ≠ sampleDraw .stored 7 ∧
      ¬ ImpartialDraw sampleScoring.drawJuror (after sampleScoring.drawJuror .sample .new sampleNewcomers) 1 (some 22) := by
  have hsize : (sampleDraw .stored 22).map List.length = some 22 := by decide +kernel
  refine ⟨hsize, by decide +kernel, by decide +kernel, ?_⟩
  intro h
  obtain ⟨members, hmembers, hlength⟩ := Option.map_eq_some_iff.mp hsize
  unfold sampleDraw at hmembers
  cases hr : ((selectJury sampleScoring.drawJuror .stored 1 (some 22)).exec
      (after sampleScoring.drawJuror .sample .new sampleNewcomers)).1 with
  | error e =>
    rw [hr] at hmembers
    cases hmembers
  | ok jury =>
    rw [hr] at hmembers
    obtain rfl := Option.some.inj hmembers
    obtain ⟨⟨d, -, himpartial⟩, -⟩ := h .stored jury hr
    have hmost := himpartial.most
    rw [hlength] at hmost
    exact absurd hmost (by decide)

end ArbitrationContract

end Kratos
