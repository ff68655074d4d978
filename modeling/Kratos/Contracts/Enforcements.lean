import Kratos.Contracts.Convictions

/-!
# Enforcements

An enforcement is recorded on the decision of a resolved dispute that has none, whatever
the verdict is, and an appeal does not ask whether there is one.  A tally resolves the
dispute before it rewards the jury and fails at the first juror without a record.
`verdicts_upheld_iff` says of every run when its verdicts are enforced once and only
against the convicted, and its failed tallies change nothing.
-/

namespace Kratos

/-- It is directed against somebody other than the accuser. -/
def Enforcement.punishes : Enforcement → Bool
  | .noAction | .slashAccuser _ _ => false
  | _ => true

theorem JuryDecision.tallyVotes_enforcement (votes : List JuryVote) (b id : Nat) :
    (tallyVotes votes b id).enforcement = none := by
  unfold tallyVotes
  simp only
  split <;> rfl

namespace ArbitrationContract

/-! ## Decisions -/

def decisionOf (s : ArbitrationContract) (id : Nat) : Option JuryDecision :=
  (s.disputes.find? id).bind Dispute.decision

def enforcementOf (s : ArbitrationContract) (id : Nat) : Option Enforcement :=
  (s.decisionOf id).bind JuryDecision.enforcement

/-- An enforcement that the caller asks for is recorded on this decision. -/
def MayEnforce (s : ArbitrationContract) (id : Nat) (caller : AccountId) (decision : JuryDecision) : Prop :=
  s.validators.contains caller = true ∧ (s.disputes.find? id).map Dispute.status = some .resolved ∧
    s.decisionOf id = some decision ∧ decision.enforcement = none

theorem decisionOf_insert (s t : ArbitrationContract) (id : Nat) (d : Dispute)
    (h : t.disputes = s.disputes.insert id d) (k : Nat) :
    t.decisionOf k = if k = id then d.decision else s.decisionOf k := by
  unfold decisionOf
  rw [h, SortedMap.find?_insert]
  split <;> rfl

theorem decisionOf_of_find? (s : ArbitrationContract) (id : Nat) (d : Dispute) (h : s.disputes.find? id = some d) :
    s.decisionOf id = d.decision := by
  unfold decisionOf
  rw [h]
  rfl

/-- The decisions there are. -/
def Decides (D : Nat → Option JuryDecision) (s : ArbitrationContract) : Prop := ∀ id, s.decisionOf id = D id

section Keeps

variable (D : Nat → Option JuryDecision)

theorem keeps_updateDispute_decides (id : Nat) (f : Dispute → Dispute) (hf : ∀ d, (f d).decision = d.decision) :
    Fallible.Keeps (Decides D) (updateDispute id f) := by
  intro s h
  cases hd : s.disputes.find? id with
  | none =>
    rw [updateDispute_none s id f hd]
    exact h
  | some d =>
    intro k
    rw [decisionOf_insert s _ id (f d) (updateDispute_disputes s id f d hd), hf, ← h k]
    split
    · next hk => rw [hk, decisionOf_of_find? s id d hd]
    · rfl

theorem keeps_raiseDispute_decides (c : ChainId) (ty : DisputeType) (raisedBy : AccountId) (j : Jurisdiction)
    (e : Option Evidence) : Fallible.Keeps (Decides D) (raiseDispute c ty raisedBy j e) := by
  intro s h
  by_cases hcan : s.CanRaise c j
  · obtain ⟨d, -, -, hnone, hexec⟩ := raiseDispute_raised s c ty raisedBy j e hcan
    rw [hexec]
    intro k
    rw [decisionOf_insert s _ s.nextDisputeId d rfl, ← h k, hnone]
    split
    · next hk =>
      unfold decisionOf
      rw [hk, hcan.2.2]
      rfl
    · rfl
  · obtain ⟨err, hexec⟩ := raiseDispute_refused s c ty raisedBy j e hcan
    rw [hexec]
    exact h

theorem keeps_appealDecision_decides (id : Nat) (by' : AccountId) (j : Jurisdiction) :
    Fallible.Keeps (Decides D) (appealDecision id by' j) := by
  unfold appealDecision
  refine .bind _ _ ((readOnly_getDispute _).keeps _) fun d => ?_
  refine .bind _ _ ((Fallible.readOnly_ensure _ _).keeps _) fun _ => ?_
  refine .bind _ _ ((Fallible.readOnly_ensure _ _).keeps _) fun _ => ?_
  refine .bind _ _ (keeps_raiseDispute_decides D _ _ _ _ _) fun newId => ?_
  refine .bind _ _ (keeps_updateDispute_decides D newId _ fun _ => rfl) fun _ => ?_
  exact .bind _ _ (keeps_updateDispute_decides D id _ fun _ => rfl) fun _ => .pure _

end Keeps

theorem expireStaleDisputes_decisionOf (order : IterOrder Nat) (s : ArbitrationContract) (id : Nat) :
    (expireStaleDisputes order s).1.decisionOf id = s.decisionOf id := by
  unfold decisionOf
  rw [expireStaleDisputes_find?]
  cases s.disputes.find? id with
  | none => rfl
  | some d =>
    rw [Option.map_some, Option.bind_some, Option.bind_some]
    split <;> rfl

theorem enforceVerdict_written (s : ArbitrationContract) (id : Nat) (e : Enforcement) (caller : AccountId)
    (d : Dispute) (hd : s.disputes.find? id = some d) (hcaller : s.validators.contains caller = true)
    (hresolved : d.status = .resolved) (hfree : d.decision.bind JuryDecision.enforcement = none) :
    ((enforceVerdict id e caller).exec s).2.disputes = s.disputes.insert id
      { d with decision := d.decision.map fun decision => { decision with enforcement := some e } } := by
  rw [← updateDispute_disputes s id
    (fun d => { d with decision := d.decision.map fun decision => { decision with enforcement := some e } }) d hd]
  unfold enforceVerdict
  simp only [Fallible.exec_bind, isValidator, Fallible.exec_reads, getDispute, Fallible.exec_mk, hd,
    Fallible.ensure, Fallible.exec_lift, if_pos hcaller, if_pos hresolved, if_pos hfree]

theorem enforceVerdict_refused (s : ArbitrationContract) (id : Nat) (e : Enforcement) (caller : AccountId)
    (h : ∀ d, s.disputes.find? id = some d → ¬ (s.validators.contains caller = true ∧ d.status = .resolved ∧
      d.decision.bind JuryDecision.enforcement = none)) :
    ((enforceVerdict id e caller).exec s).2.disputes = s.disputes := by
  unfold enforceVerdict
  apply (readOnly_isValidator _).bind_of (fun t => t.disputes = s.disputes) _ s rfl
  intro validator hvalidator
  obtain rfl := Except.ok.inj hvalidator
  apply (Fallible.readOnly_ensure _ _).bind_of (fun t => t.disputes = s.disputes) _ s rfl
  intro _ hcaller
  apply (readOnly_getDispute _).bind_of (fun t => t.disputes = s.disputes) _ s rfl
  intro d hfound
  apply (Fallible.readOnly_ensure _ _).bind_of (fun t => t.disputes = s.disputes) _ s rfl
  intro _ hresolved
  apply (Fallible.readOnly_ensure _ _).bind_of (fun t => t.disputes = s.disputes) _ s rfl
  intro _ hfree
  exact absurd ⟨Fallible.ensure_ok _ _ s _ hcaller, Fallible.ensure_ok _ _ s _ hresolved,
    Fallible.ensure_ok _ _ s _ hfree⟩ (h d (getDispute_ok id s d hfound))

/-- An enforcement is recorded, or nothing is written. -/
theorem enforceVerdict_disputes (s : ArbitrationContract) (id : Nat) (e : Enforcement) (caller : AccountId) :
    ((∀ decision, ¬ s.MayEnforce id caller decision) ∧
        ((enforceVerdict id e caller).exec s).2.disputes = s.disputes) ∨
      ∃ d decision, s.disputes.find? id = some d ∧ s.MayEnforce id caller decision ∧
        ((enforceVerdict id e caller).exec s).2.disputes =
          s.disputes.insert id { d with decision := some { decision with enforcement := some e } } := by
  by_cases hguard : ∃ d, s.disputes.find? id = some d ∧ s.validators.contains caller = true ∧
      d.status = .resolved ∧ d.decision.bind JuryDecision.enforcement = none
  · obtain ⟨d, hd, hcaller, hresolved, hfree⟩ := hguard
    have hdecision := decisionOf_of_find? s id d hd
    have hwrite := enforceVerdict_written s id e caller d hd hcaller hresolved hfree
    cases hdec : d.decision with
    | none =>
      refine .inl ⟨fun decision hmay => ?_, ?_⟩
      · have := hmay.2.2.1
        rw [hdecision, hdec] at this
        cases this
      · rw [hwrite, hdec, Option.map_none, SortedMap.insert_eq_self_iff, hd, ← hdec]
    | some decision =>
      rw [hdec] at hwrite hfree hdecision
      exact .inr ⟨d, decision, hd, ⟨hcaller, by rw [hd, Option.map_some, hresolved], hdecision, hfree⟩, hwrite⟩
  · refine .inl ⟨fun decision hmay => hguard ?_, ?_⟩
    · obtain ⟨hcaller, hstatus, hdec, hfree⟩ := hmay
      obtain ⟨d, hd, hresolved⟩ := Option.map_eq_some_iff.mp hstatus
      refine ⟨d, hd, hcaller, hresolved, ?_⟩
      rw [← decisionOf_of_find? s id d hd, hdec]
      exact hfree
    · exact enforceVerdict_refused s id e caller fun d hd hg => hguard ⟨d, hd, hg⟩

/-! ## One call -/

section Step

variable (selectValidator : SelectValidator) (s : ArbitrationContract)

/-- Decisions are written by tallies and enforcements. -/
theorem apply_decisionOf (op : ArbitrationOp) (id : Nat) :
    (s.apply selectValidator op).decisionOf id = s.decisionOf id ∨
    (∃ d, op = .tallyVotes id ∧ s.disputes.find? id = some d ∧ d.canTally s.currentBlock ∧
      (s.apply selectValidator op).decisionOf id = some (JuryDecision.tallyVotes d.juryVotes s.currentBlock id)) ∨
    ∃ e caller decision, op = .enforceVerdict id e caller ∧ s.MayEnforce id caller decision ∧
      (s.apply selectValidator op).decisionOf id = some { decision with enforcement := some e } := by
  have hchange : ∀ k f, (∀ d, (f d).id = d.id ∧ (f d).decision = d.decision) →
      Fallible.Keeps (Decides s.decisionOf) (updateDispute k f) :=
    fun k f hf => keeps_updateDispute_decides s.decisionOf k f fun d => (hf d).2
  have hs : Decides s.decisionOf s := fun _ => rfl
  cases op with
  | registerValidator account stake vc => exact .inl rfl
  | setCurrentBlock b => exact .inl rfl
  | raiseDispute c ty by' j e => exact .inl (keeps_raiseDispute_decides s.decisionOf c ty by' j e s hs id)
  | submitEvidence k e submitter => exact .inl (keeps_submitEvidence _ hchange k e submitter s hs id)
  | selectJury order k size => exact .inl (keeps_selectJury _ hchange selectValidator order k size s hs id)
  | submitJuryVote k juror v j => exact .inl (keeps_submitJuryVote _ hchange k juror v j s hs id)
  | appealDecision k by' j => exact .inl (keeps_appealDecision_decides s.decisionOf k by' j s hs id)
  | dismissDispute k reason caller => exact .inl (keeps_dismissDispute _ hchange k reason caller s hs id)
  | expireStaleDisputes order => exact .inl (expireStaleDisputes_decisionOf order s id)
  | tallyVotes k =>
    rcases tallyVotes_disputes s k with ⟨-, hsame⟩ | ⟨d, hd, htally, hinsert⟩
    · refine .inl ?_
      unfold decisionOf
      exact congrArg (fun m => (SortedMap.find? m id).bind Dispute.decision) hsame
    · by_cases hk : id = k
      · subst hk
        exact .inr (.inl ⟨d, rfl, hd, htally, (decisionOf_insert s _ id _ hinsert id).trans (if_pos rfl)⟩)
      · exact .inl ((decisionOf_insert s _ k _ hinsert id).trans (if_neg hk))
  | enforceVerdict k e caller =>
    rcases enforceVerdict_disputes s k e caller with ⟨-, hsame⟩ | ⟨d, decision, -, hmay, hinsert⟩
    · refine .inl ?_
      unfold decisionOf
      exact congrArg (fun m => (SortedMap.find? m id).bind Dispute.decision) hsame
    · by_cases hk : id = k
      · subst hk
        exact .inr (.inr ⟨e, caller, decision, rfl, hmay, (decisionOf_insert s _ id _ hinsert id).trans (if_pos rfl)⟩)
      · exact .inl ((decisionOf_insert s _ k _ hinsert id).trans (if_neg hk))

theorem enforceVerdict_decisionOf (id : Nat) (e : Enforcement) (caller : AccountId) (decision : JuryDecision)
    (h : s.MayEnforce id caller decision) :
    (s.apply selectValidator (.enforceVerdict id e caller)).decisionOf id =
      some { decision with enforcement := some e } := by
  rcases enforceVerdict_disputes s id e caller with ⟨hnot, -⟩ | ⟨d, decision', -, hmay, hinsert⟩
  · exact absurd h (hnot decision)
  · obtain rfl : decision' = decision := Option.some.inj (hmay.2.2.1.symm.trans h.2.2.1)
    exact (decisionOf_insert s _ id _ hinsert id).trans (if_pos rfl)

end Step

/-- Only disputes that are resolved or closed have a decision. -/
def Settled (s : ArbitrationContract) : Prop :=
  ∀ id d, s.disputes.find? id = some d → s.decisionOf id ≠ none → d.status = .resolved ∨ Closed d.status

section Settled

variable (selectValidator : SelectValidator) (s : ArbitrationContract)

theorem MayEnforce.resolved {s : ArbitrationContract} {id : Nat} {caller : AccountId} {decision : JuryDecision}
    (h : s.MayEnforce id caller decision) : ∃ d, s.disputes.find? id = some d ∧ d.status = .resolved :=
  Option.map_eq_some_iff.mp h.2.1

theorem apply_settled (h : s.Settled) (op : ArbitrationOp) : (s.apply selectValidator op).Settled := by
  intro id d' hd' hdecision
  rcases apply_decisionOf selectValidator s op id with hsame | ⟨d, rfl, hd, htally, -⟩ |
    ⟨e, caller, decision, rfl, hmay, -⟩
  · -- the decision was there before, so the dispute was resolved or closed
    rw [hsame] at hdecision
    cases hd : s.disputes.find? id with
    | none =>
      refine absurd ?_ hdecision
      unfold decisionOf
      rw [hd]
      rfl
    | some d =>
      have hbefore := h id d hd hdecision
      obtain ⟨d'', hd'', -, -, hmove⟩ := apply_moved selectValidator s op id d hd
      obtain rfl := Option.some.inj (hd''.symm.trans hd')
      generalize d''.status = st at hmove ⊢
      unfold Closed at hbefore ⊢
      cases hmove with
      | same => exact hbefore
      | jury order size hop hs => simp [hs] at hbefore
      | verdict hop hs => exact .inl rfl
      | appeal by' j hop hs => exact .inr (.inl rfl)
      | dismiss reason caller hop hs => exact .inr (.inr (.inl rfl))
      | expire order hop hs => exact .inr (.inr (.inr rfl))
  · rcases tallyVotes_disputes s id with ⟨hnot, -⟩ | ⟨d₁, hd₁, -, hinsert⟩
    · exact absurd htally (hnot d hd)
    · have hfind : (s.apply selectValidator (.tallyVotes id)).disputes.find? id = _ :=
        (congrArg (fun m => SortedMap.find? m id) hinsert).trans (SortedMap.find?_insert_self _ _ _)
      cases hd'.symm.trans hfind
      exact .inl rfl
  · obtain ⟨d, hd, hresolved⟩ := hmay.resolved
    obtain ⟨d'', hd'', -, -, hmove⟩ := apply_moved selectValidator s _ id d hd
    obtain rfl := Option.some.inj (hd''.symm.trans hd')
    generalize d''.status = st at hmove ⊢
    cases hmove with
    | same => exact .inl hresolved
    | jury order size hop hs => cases hop
    | verdict hop hs => cases hop
    | appeal by' j hop hs => cases hop
    | dismiss reason caller hop hs => cases hop
    | expire order hop hs => cases hop

/-- Enforcements are recorded by the calls that may. -/
theorem apply_enforcementOf (h : s.Settled) (op : ArbitrationOp) (id : Nat) :
    (s.apply selectValidator op).enforcementOf id = s.enforcementOf id ∨
    ∃ e caller decision, op = .enforceVerdict id e caller ∧ s.MayEnforce id caller decision ∧
      (s.apply selectValidator op).enforcementOf id = some e := by
  unfold enforcementOf
  rcases apply_decisionOf selectValidator s op id with hsame | ⟨d, -, hd, htally, hnew⟩ |
    ⟨e, caller, decision, hop, hmay, hnew⟩
  · rw [hsame]
    exact .inl rfl
  · -- a dispute that is deliberated has no decision
    have hnone : s.decisionOf id = none := by
      by_contra hdecision
      have := h id d hd hdecision
      unfold Closed at this
      rw [htally.1] at this
      simp at this
    rw [hnew, hnone, Option.bind_some, JuryDecision.tallyVotes_enforcement]
    exact .inl rfl
  · rw [hnew]
    exact .inr ⟨e, caller, decision, hop, hmay, rfl⟩

theorem MayEnforce.enforcementOf {s : ArbitrationContract} {id : Nat} {caller : AccountId} {decision : JuryDecision}
    (h : s.MayEnforce id caller decision) : s.enforcementOf id = none := by
  unfold ArbitrationContract.enforcementOf
  rw [h.2.2.1]
  exact h.2.2.2

theorem apply_enforcementOf_ne_none (h : s.Settled) (op : ArbitrationOp) (id : Nat) (he : s.enforcementOf id ≠ none) :
    (s.apply selectValidator op).enforcementOf id ≠ none := by
  rcases apply_enforcementOf selectValidator s h op id with hsame | ⟨e, caller, decision, -, hmay, -⟩
  · rw [hsame]
    exact he
  · exact absurd hmay.enforcementOf he

end Settled

/-! ## Appeals -/

/-- An appeal that succeeds closes a resolved dispute and raises a new one. -/
theorem appealDecision_ok (s : ArbitrationContract) (id newId : Nat) (by' : AccountId) (j : Jurisdiction)
    (h : ((appealDecision id by' j).exec s).1 = .ok newId) :
    s.disputes.find? newId = none ∧
      (((appealDecision id by' j).exec s).2.disputes.find? id).map Dispute.status = some .appealed := by
  unfold appealDecision at h ⊢
  obtain ⟨d, hd, heq⟩ := Fallible.exec_bind_of_ok _ _ s newId h
  rw [heq, readOnly_getDispute id s] at h ⊢
  have hfound := getDispute_ok id s d hd
  obtain ⟨-, -, heq⟩ := Fallible.exec_bind_of_ok _ _ s newId h
  rw [heq, Fallible.readOnly_ensure _ _ s] at h ⊢
  obtain ⟨-, -, heq⟩ := Fallible.exec_bind_of_ok _ _ s newId h
  rw [heq, Fallible.readOnly_ensure _ _ s] at h ⊢
  obtain ⟨k, hk, heq⟩ := Fallible.exec_bind_of_ok _ _ s newId h
  rw [heq] at h ⊢
  -- the new dispute has an id that was not taken
  have hraised : k = s.nextDisputeId ∧ s.disputes.find? s.nextDisputeId = none := by
    by_cases hcan : s.CanRaise d.chainId j
    · obtain ⟨d', -, -, -, hexec⟩ := raiseDispute_raised s d.chainId d.disputeType by' j none hcan
      rw [hexec] at hk
      refine ⟨?_, hcan.2.2⟩
      cases hput : (s.db.put d').1 with
      | ok u =>
        rw [hput] at hk
        cases hk
        rfl
      | error e =>
        rw [hput] at hk
        cases hk
    · obtain ⟨err, hexec⟩ := raiseDispute_refused s d.chainId d.disputeType by' j none hcan
      rw [hexec] at hk
      cases hk
  generalize ((raiseDispute d.chainId d.disputeType by' j none).exec s).2 = t at h ⊢
  obtain ⟨-, -, heq⟩ := Fallible.exec_bind_of_ok _ _ t newId h
  rw [heq] at h ⊢
  generalize ((updateDispute k fun d' => { d' with evidence := d.evidence }).exec t).2 = u at h ⊢
  obtain ⟨u', hu, heq⟩ := Fallible.exec_bind_of_ok _ _ u newId h
  rw [heq] at h ⊢
  obtain rfl := Except.ok.inj h
  refine ⟨hraised.1 ▸ hraised.2, ?_⟩
  cases hold : u.disputes.find? id with
  | none =>
    unfold updateDispute at hu
    obtain ⟨d', hd', -⟩ := Fallible.exec_bind_of_ok _ _ u u' hu
    rw [getDispute_ok id u d' hd'] at hold
    cases hold
  | some d' =>
    show (((updateDispute id fun d => { d with status := .appealed }).exec u).2.disputes.find? id).map _ = _
    rw [updateDispute_disputes u id _ d' hold, SortedMap.find?_insert_self]
    rfl

/-- The second dispute was raised by an appeal against the decision of the first. -/
def Appealed (selectValidator : SelectValidator) (db : DisputeDatabase) (vc : ValidatorCreditsManager)
    (ops : List ArbitrationOp) (a b : Nat) : Prop :=
  ∃ pre by' j post, ops = pre ++ .appealDecision a by' j :: post ∧
    ((appealDecision a by' j).exec (after selectValidator db vc pre)).1 = .ok b

/-- One dispute comes from the other by a chain of appeals. -/
def Chain (selectValidator : SelectValidator) (db : DisputeDatabase) (vc : ValidatorCreditsManager)
    (ops : List ArbitrationOp) : Nat → Nat → Prop :=
  Relation.TransGen (Appealed selectValidator db vc ops)

/-- Its decision carries an enforcement at some time of the run. -/
def EverEnforced (selectValidator : SelectValidator) (db : DisputeDatabase) (vc : ValidatorCreditsManager)
    (ops : List ArbitrationOp) (id : Nat) : Prop :=
  ∃ k, (after selectValidator db vc (ops.take k)).enforcementOf id ≠ none

/-- No enforcement is recorded on a dispute that comes from an enforced one. -/
def EnforcesOnce (selectValidator : SelectValidator) (db : DisputeDatabase) (vc : ValidatorCreditsManager)
    (ops : List ArbitrationOp) : Prop :=
  ∀ pre id e caller post decision, ops = pre ++ .enforceVerdict id e caller :: post →
    (after selectValidator db vc pre).MayEnforce id caller decision →
    ∀ a, Chain selectValidator db vc pre a id → (after selectValidator db vc pre).enforcementOf a = none

/-- New edges into a vertex without edges out of it make no chain that ends elsewhere. -/
theorem transGen_of_fresh {R R' : Nat → Nat → Prop} {v : Nat} (hR : ∀ a b, R' a b → R a b ∨ b = v)
    (hv : ∀ b, ¬ R' v b) {a b : Nat} (h : Relation.TransGen R' a b) : Relation.TransGen R a b ∨ b = v := by
  induction h with
  | single hab => exact (hR _ _ hab).imp_left .single
  | tail _ hbc ih =>
    rcases hR _ _ hbc with hold | hnew
    · rcases ih with ih | rfl
      · exact .inl (.tail ih hold)
      · exact absurd hbc (hv _)
    · exact .inr hnew

section Runs

variable (selectValidator : SelectValidator) (db : DisputeDatabase) (vc : ValidatorCreditsManager)

theorem after_settled (ops : List ArbitrationOp) : (after selectValidator db vc ops).Settled := by
  have hnew : (new db vc).Settled := by
    intro id d hd
    cases hd
  exact Run.inv_foldl (apply selectValidator) (fun _ _ => True) Settled
    (fun s op h _ => apply_settled selectValidator s h op) _ ops hnew (Run.meets_of_forall _ _ (fun _ _ => trivial) _ _)

theorem appealed_snoc (ops : List ArbitrationOp) (op : ArbitrationOp) (a b : Nat) :
    Appealed selectValidator db vc (ops ++ [op]) a b ↔ Appealed selectValidator db vc ops a b ∨
      ∃ by' j, op = .appealDecision a by' j ∧
        ((appealDecision a by' j).exec (after selectValidator db vc ops)).1 = .ok b := by
  constructor
  · rintro ⟨pre, by', j, post, heq, hok⟩
    rcases (Run.concat_eq_split_iff ops pre post _ op).mp heq with ⟨rfl, rfl, -⟩ | ⟨rest, -, rfl⟩
    · exact .inr ⟨by', j, rfl, hok⟩
    · exact .inl ⟨pre, by', j, rest, rfl, hok⟩
  · rintro (⟨pre, by', j, post, rfl, hok⟩ | ⟨by', j, rfl, hok⟩)
    · exact ⟨pre, by', j, post ++ [op], by simp, hok⟩
    · exact ⟨ops, by', j, [], rfl, hok⟩

/-- An appealed dispute is never resolved again. -/
theorem appealed_status (ops : List ArbitrationOp) (a b : Nat) (h : Appealed selectValidator db vc ops a b) :
    ∃ d, (after selectValidator db vc ops).disputes.find? a = some d ∧ (d.status = .appealed ∨ d.status = .expired) := by
  induction ops using List.reverseRecOn with
  | nil =>
    obtain ⟨pre, by', j, post, heq, -⟩ := h
    simp at heq
  | append_singleton ops op ih =>
    rw [after_snoc]
    rcases (appealed_snoc selectValidator db vc ops op a b).mp h with hold | ⟨by', j, rfl, hok⟩
    · obtain ⟨d, hd, hstatus⟩ := ih hold
      obtain ⟨d', hd', -, -, hmove⟩ := apply_moved selectValidator _ op a d hd
      refine ⟨d', hd', ?_⟩
      generalize d'.status = st at hmove ⊢
      cases hmove with
      | same => exact hstatus
      | jury order size hop hs => simp [hs] at hstatus
      | verdict hop hs => simp [hs] at hstatus
      | appeal by' j hop hs => simp [hs] at hstatus
      | dismiss reason caller hop hs => rcases hs with hs | hs <;> simp [hs] at hstatus
      | expire order hop hs => exact .inr rfl
    · obtain ⟨d, hd, hstatus⟩ := Option.map_eq_some_iff.mp (appealDecision_ok _ a b by' j hok).2
      exact ⟨d, hd, .inl hstatus⟩

theorem not_mayEnforce_of_appealed (ops : List ArbitrationOp) (a b : Nat)
    (h : Chain selectValidator db vc ops a b) (caller : AccountId) (decision : JuryDecision) :
    ¬ (after selectValidator db vc ops).MayEnforce a caller decision := by
  intro hmay
  obtain ⟨c, hac, -⟩ := Relation.TransGen.head'_iff.mp h
  obtain ⟨d, hd, hstatus⟩ := appealed_status selectValidator db vc ops a c hac
  obtain ⟨d', hd', hresolved⟩ := hmay.resolved
  obtain rfl := Option.some.inj (hd.symm.trans hd')
  simp [hresolved] at hstatus

/-- A call adds at most one dispute to the chains, and at the end of one. -/
theorem chain_snoc (ops : List ArbitrationOp) (op : ArbitrationOp) (a b : Nat)
    (h : Chain selectValidator db vc (ops ++ [op]) a b) :
    Chain selectValidator db vc ops a b ∨
      (after selectValidator db vc ops).disputes.find? b = none ∧ ∃ c by' j, op = .appealDecision c by' j := by
  by_cases happeal : ∃ c by' j v, op = .appealDecision c by' j ∧
      ((appealDecision c by' j).exec (after selectValidator db vc ops)).1 = .ok v
  · obtain ⟨c, by', j, v, rfl, hok⟩ := happeal
    obtain ⟨hfree, hclosed⟩ := appealDecision_ok _ c v by' j hok
    have hedge : ∀ x y, Appealed selectValidator db vc (ops ++ [.appealDecision c by' j]) x y →
        Appealed selectValidator db vc ops x y ∨ x = c ∧ y = v := by
      intro x y hxy
      rcases (appealed_snoc selectValidator db vc ops _ x y).mp hxy with hold | ⟨by'', j', hop, hok'⟩
      · exact .inl hold
      · cases hop
        rw [hok] at hok'
        cases hok'
        exact .inr ⟨rfl, rfl⟩
    have hsource : ∀ y, ¬ Appealed selectValidator db vc (ops ++ [.appealDecision c by' j]) v y := by
      intro y hvy
      rcases hedge v y hvy with hold | ⟨rfl, -⟩
      · obtain ⟨d, hd, -⟩ := appealed_status selectValidator db vc ops v y hold
        rw [hfree] at hd
        cases hd
      · -- the appealed dispute was there before
        unfold appealDecision at hok
        obtain ⟨d, hd, -⟩ := Fallible.exec_bind_of_ok _ _ _ _ hok
        rw [getDispute_ok v _ d hd] at hfree
        cases hfree
    rcases transGen_of_fresh (fun x y hxy => (hedge x y hxy).imp_right And.right) hsource h with hold | rfl
    · exact .inl hold
    · exact .inr ⟨hfree, c, by', j, rfl⟩
  · refine .inl (Relation.TransGen.mono (fun x y hxy => ?_) a b h)
    rcases (appealed_snoc selectValidator db vc ops op x y).mp hxy with hold | ⟨by', j, hop, hok⟩
    · exact hold
    · exact absurd ⟨x, by', j, y, hop, hok⟩ happeal

theorem everEnforced_iff (ops : List ArbitrationOp) (id : Nat) :
    EverEnforced selectValidator db vc ops id ↔ (after selectValidator db vc ops).enforcementOf id ≠ none := by
  constructor
  · rintro ⟨k, hk⟩
    have hkeep := Run.inv_foldl (apply selectValidator) (fun _ _ => True)
      (fun s => s.Settled ∧ s.enforcementOf id ≠ none)
      (fun s op h _ => ⟨apply_settled selectValidator s h.1 op, apply_enforcementOf_ne_none selectValidator s h.1 op id h.2⟩)
      _ (ops.drop k) ⟨after_settled selectValidator db vc (ops.take k), hk⟩
      (Run.meets_of_forall _ _ (fun _ _ => trivial) _ _)
    rw [after, ← List.foldl_append, List.take_append_drop] at hkeep
    exact hkeep.2
  · intro h
    exact ⟨ops.length, by rwa [List.take_length]⟩

/-- Along a chain at most one decision carries an enforcement. -/
def Once (ops : List ArbitrationOp) : Prop :=
  ∀ a b, Chain selectValidator db vc ops a b → (after selectValidator db vc ops).enforcementOf a ≠ none →
    (after selectValidator db vc ops).enforcementOf b = none

theorem once_snoc (ops : List ArbitrationOp) (op : ArbitrationOp) :
    Once selectValidator db vc (ops ++ [op]) ↔ Once selectValidator db vc ops ∧
      ∀ id e caller decision, op = .enforceVerdict id e caller →
        (after selectValidator db vc ops).MayEnforce id caller decision →
        ∀ a, Chain selectValidator db vc ops a id → (after selectValidator db vc ops).enforcementOf a = none := by
  have hsettled := after_settled selectValidator db vc ops
  have hgrow : ∀ a b, Chain selectValidator db vc ops a b → Chain selectValidator db vc (ops ++ [op]) a b :=
    Relation.TransGen.mono fun x y hxy => (appealed_snoc selectValidator db vc ops op x y).mpr (.inl hxy)
  have hkeep := apply_enforcementOf_ne_none selectValidator _ hsettled op
  unfold Once
  rw [after_snoc]
  constructor
  · intro h
    constructor
    · intro a b hab ha
      by_contra hb
      exact hkeep b hb (h a b (hgrow a b hab) (hkeep a ha))
    · rintro id e caller decision rfl hmay a hab
      by_contra ha
      have hnone := h a id (hgrow a id hab) (hkeep a ha)
      unfold enforcementOf at hnone
      rw [enforceVerdict_decisionOf selectValidator _ id e caller decision hmay] at hnone
      cases hnone
  · rintro ⟨honce, hlast⟩ a b hab ha
    rcases apply_enforcementOf selectValidator _ hsettled op b with hb | ⟨e, caller, decision, rfl, hmay, -⟩
    · rw [hb]
      rcases chain_snoc selectValidator db vc ops op a b hab with hab | ⟨hfree, -⟩
      · rcases apply_enforcementOf selectValidator _ hsettled op a with ha' | ⟨e, caller, decision, -, hmay, -⟩
        · exact honce a b hab (ha' ▸ ha)
        · exact absurd hmay (not_mayEnforce_of_appealed selectValidator db vc ops a b hab caller decision)
      · unfold enforcementOf decisionOf
        rw [hfree]
        rfl
    · -- the dispute at the end is enforced now, so the one at the start was not
      rcases chain_snoc selectValidator db vc ops _ a b hab with hab | ⟨-, c, by', j, hop⟩
      · have hnone := hlast b e caller decision rfl hmay a hab
        rcases apply_enforcementOf selectValidator _ hsettled (.enforceVerdict b e caller) a with
          ha' | ⟨e', caller', decision', -, hmay', -⟩
        · exact absurd (ha'.trans hnone) ha
        · exact absurd hmay' (not_mayEnforce_of_appealed selectValidator db vc ops a b hab caller' decision')
      · cases hop

theorem once_iff (ops : List ArbitrationOp) :
    Once selectValidator db vc ops ↔ EnforcesOnce selectValidator db vc ops := by
  induction ops using List.reverseRecOn with
  | nil =>
    refine iff_of_true ?_ ?_
    · intro a b _ _
      rfl
    · intro pre id e caller post decision heq
      simp at heq
  | append_singleton ops op ih =>
    rw [once_snoc, ih]
    constructor
    · rintro ⟨hbefore, hlast⟩ pre id e caller post decision heq hmay
      rcases (Run.concat_eq_split_iff ops pre post _ op).mp heq with ⟨rfl, rfl, -⟩ | ⟨rest, -, rfl⟩
      · exact hlast id e caller decision rfl hmay
      · exact hbefore pre id e caller rest decision rfl hmay
    · intro h
      constructor
      · rintro pre id e caller post decision rfl hmay
        exact h pre id e caller (post ++ [op]) decision (by simp) hmay
      · rintro id e caller decision rfl hmay
        exact h ops id e caller [] decision rfl hmay

end Runs

/-! ## Verdicts -/

/-- An enforcement that punishes is recorded on a decision for guilty. -/
def Justified (s : ArbitrationContract) : Prop :=
  ∀ id decision e, s.decisionOf id = some decision → decision.enforcement = some e → e.punishes = true →
    decision.verdict = .guilty

/-- The call asks for a punishment only where the verdict is guilty. -/
def EnforcesGuilty (s : ArbitrationContract) : ArbitrationOp → Prop
  | .enforceVerdict id e caller => ∀ decision, s.MayEnforce id caller decision → e.punishes = true →
    decision.verdict = .guilty
  | _ => True

theorem apply_justified_iff (selectValidator : SelectValidator) (s : ArbitrationContract) (h : s.Justified)
    (op : ArbitrationOp) : (s.apply selectValidator op).Justified ↔ s.EnforcesGuilty op := by
  constructor
  · intro hnext
    cases op with
    | enforceVerdict id e caller =>
      intro decision hmay hpunishes
      exact hnext id { decision with enforcement := some e } e (enforceVerdict_decisionOf selectValidator s id e caller decision hmay) rfl hpunishes
    | _ => trivial
  · intro hguilty id decision e hdecision he hpunishes
    rcases apply_decisionOf selectValidator s op id with hsame | ⟨d, -, -, -, hnew⟩ | ⟨e', caller, decision', rfl, hmay, hnew⟩
    · exact h id decision e (hsame.symm.trans hdecision) he hpunishes
    · cases hdecision.symm.trans hnew
      rw [JuryDecision.tallyVotes_enforcement] at he
      cases he
    · cases hdecision.symm.trans hnew
      cases he
      exact hguilty decision' hmay hpunishes

/-! ## Failed tallies -/

/-- A tally that fails leaves the dispute and the credits of its jurors. -/
def TallyAtomic (s : ArbitrationContract) : ArbitrationOp → Prop
  | .tallyVotes id => ∀ err, ((tallyVotes id).exec s).1 = .error err →
    ((tallyVotes id).exec s).2.disputes.find? id = s.disputes.find? id ∧
      ∀ d, s.disputes.find? id = some d → ∀ juror ∈ d.juryMembers,
        ((tallyVotes id).exec s).2.validatorCredits.records.find? juror = s.validatorCredits.records.find? juror
  | _ => True

/-- Where a dispute is resolved, it can be written and all its jurors have a record. -/
def CanReward (s : ArbitrationContract) : ArbitrationOp → Prop
  | .tallyVotes id => ∀ d, s.disputes.find? id = some d → d.canTally s.currentBlock →
    s.db.faults s.db.writes = false ∧ ∀ juror ∈ d.juryMembers, (s.validatorCredits.records.find? juror).isSome = true
  | _ => True

theorem recordArbitration_exec (juror : AccountId) (s : ArbitrationContract) :
    (((recordArbitration juror).exec s).1 = .ok () ↔ (s.validatorCredits.records.find? juror).isSome = true) ∧
      ∀ other, (((recordArbitration juror).exec s).2.validatorCredits.records.find? other).isSome =
        (s.validatorCredits.records.find? other).isSome := by
  unfold recordArbitration ValidatorCreditsManager.recordArbitration
  rw [Fallible.exec_mk]
  cases hrecord : s.validatorCredits.records.find? juror with
  | none =>
    exact ⟨iff_of_false (by simp) (by simp), fun _ => rfl⟩
  | some record =>
    simp only
    refine ⟨by simp, fun other => ?_⟩
    rw [SortedMap.find?_insert]
    split
    · next h => simp [h, hrecord]
    · rfl

theorem rewardJuryMembers_ok_iff (members : List AccountId) (s : ArbitrationContract) :
    ((rewardJuryMembers members).exec s).1 = .ok () ↔
      ∀ juror ∈ members, (s.validatorCredits.records.find? juror).isSome = true := by
  induction members generalizing s with
  | nil => exact iff_of_true rfl (by simp)
  | cons juror rest ih =>
    obtain ⟨hok, hsame⟩ := recordArbitration_exec juror s
    have hrest : (∀ other ∈ rest, (((recordArbitration juror).exec s).2.validatorCredits.records.find? other).isSome =
        true) ↔ ∀ other ∈ rest, (s.validatorCredits.records.find? other).isSome = true := by
      simp only [hsame]
    rw [List.forall_mem_cons, ← hrest, ← ih, ← hok]
    show ((recordArbitration juror >>= fun _ => rewardJuryMembers rest).exec s).1 = .ok () ↔ _
    rw [Fallible.exec_bind]
    rcases (recordArbitration juror).exec s with ⟨r, t⟩
    cases r with
    | ok u => simp
    | error e => simp

/-- A tally that may go through succeeds if the dispute is written and the jury rewarded. -/
theorem tallyVotes_ok_iff (s : ArbitrationContract) (id : Nat) (d : Dispute) (hd : s.disputes.find? id = some d)
    (h : d.canTally s.currentBlock) :
    (∃ decision, ((tallyVotes id).exec s).1 = .ok decision) ↔ s.db.faults s.db.writes = false ∧
      ∀ juror ∈ d.juryMembers, (s.validatorCredits.records.find? juror).isSome = true := by
  obtain ⟨hstatus, htime, hvotes⟩ := h
  have hreward : ∀ (t : ArbitrationContract) (decision : JuryDecision), t.validatorCredits = s.validatorCredits →
      ((∃ decision', ((rewardJuryMembers d.juryMembers >>= fun _ => (pure decision : Method JuryDecision)).exec t).1 =
        .ok decision') ↔ ∀ juror ∈ d.juryMembers, (s.validatorCredits.records.find? juror).isSome = true) := by
    intro t decision ht
    rw [Fallible.exec_bind, ← ht, ← rewardJuryMembers_ok_iff]
    rcases (rewardJuryMembers d.juryMembers).exec t with ⟨r, u⟩
    cases r with
    | ok a => simp
    | error e => simp
  unfold tallyVotes
  simp only [Fallible.exec_bind, Fallible.exec_reads, getDispute, Fallible.exec_mk, hd, Fallible.ensure,
    Fallible.exec_lift, if_pos hstatus, if_pos htime, if_pos hvotes, updateDispute, Fallible.exec_modifies,
    persistDispute, DisputeDatabase.put]
  cases hfault : s.db.faults s.db.writes with
  | true => simp
  | false =>
    simp only [Bool.false_eq_true, if_false, true_and]
    simp only [Fallible.exec_bind] at hreward
    refine hreward _ _ ?_
    rfl

theorem tallyAtomic_iff (s : ArbitrationContract) (op : ArbitrationOp) : s.TallyAtomic op ↔ s.CanReward op := by
  cases op with
  | tallyVotes id =>
    unfold TallyAtomic CanReward
    constructor
    · intro hatomic d hd htally
      rw [← tallyVotes_ok_iff s id d hd htally]
      cases hr : ((tallyVotes id).exec s).1 with
      | ok decision => exact ⟨decision, rfl⟩
      | error err =>
        -- the dispute is resolved already
        obtain ⟨hsame, -⟩ := hatomic err hr
        rcases tallyVotes_disputes s id with ⟨hnot, -⟩ | ⟨d', hd', -, hinsert⟩
        · exact absurd htally (hnot d hd)
        · rw [hinsert, SortedMap.find?_insert_self, hd] at hsame
          have hstatus := congrArg Dispute.status (Option.some.inj hsame)
          rw [htally.1] at hstatus
          cases hstatus
    · intro hreward err herr
      cases hd : s.disputes.find? id with
      | none =>
        refine ⟨?_, fun d hd' => by cases hd'⟩
        rcases tallyVotes_disputes s id with ⟨-, hsame⟩ | ⟨d', hd', -, -⟩
        · rw [hsame, hd]
        · rw [hd] at hd'
          cases hd'
      | some d =>
        by_cases htally : d.canTally s.currentBlock
        · obtain ⟨decision, hok⟩ := (tallyVotes_ok_iff s id d hd htally).mpr (hreward d hd htally)
          rw [herr] at hok
          cases hok
        · rw [tallyVotes_of_not_canTally s id d hd htally]
          exact ⟨hd, fun _ _ _ _ => rfl⟩
  | _ => exact Iff.rfl

/-! ## The run -/

/-- Enforcements are recorded once along a chain of appeals and punish the guilty only, and
tallies that fail change nothing. -/
structure Upheld (selectValidator : SelectValidator) (db : DisputeDatabase) (vc : ValidatorCreditsManager)
    (ops : List ArbitrationOp) : Prop where
  once : ∀ a b, Chain selectValidator db vc ops a b → EverEnforced selectValidator db vc ops a →
    ¬ EverEnforced selectValidator db vc ops b
  justified : ∀ k, (after selectValidator db vc (ops.take k)).Justified
  atomic : Run.Meets (apply selectValidator) TallyAtomic (new db vc) ops

/-- **Verdicts.**  They are upheld in a run if and only if nobody enforces a decision that comes from
an enforced one, nobody asks for a punishment without a conviction, and no dispute is resolved
whose write fails or whose jurors cannot all be rewarded. -/
theorem verdicts_upheld_iff (selectValidator : SelectValidator) (db : DisputeDatabase) (vc : ValidatorCreditsManager)
    (ops : List ArbitrationOp) :
    Upheld selectValidator db vc ops ↔ EnforcesOnce selectValidator db vc ops ∧
      Run.Meets (apply selectValidator) EnforcesGuilty (new db vc) ops ∧
      Run.Meets (apply selectValidator) CanReward (new db vc) ops := by
  have honce : (∀ a b, Chain selectValidator db vc ops a b → EverEnforced selectValidator db vc ops a →
      ¬ EverEnforced selectValidator db vc ops b) ↔ EnforcesOnce selectValidator db vc ops := by
    rw [← once_iff]
    simp only [everEnforced_iff, not_not, Once]
  have hjustified : (∀ k, (after selectValidator db vc (ops.take k)).Justified) ↔
      Run.Meets (apply selectValidator) EnforcesGuilty (new db vc) ops := by
    have hnew : (new db vc).Justified := by
      intro id decision e hdecision
      cases hdecision
    exact Run.good_take_iff (apply selectValidator) (fun _ _ => True) EnforcesGuilty (fun _ => True) Justified
      (fun _ _ _ _ => trivial) (fun s op _ _ hg => apply_justified_iff selectValidator s hg op) (new db vc) ops trivial
      hnew (Run.meets_of_forall _ _ (fun _ _ => trivial) _ _)
  have hatomic : Run.Meets (apply selectValidator) TallyAtomic (new db vc) ops ↔
      Run.Meets (apply selectValidator) CanReward (new db vc) ops := by
    rw [Run.meets_iff_split, Run.meets_iff_split]
    simp only [tallyAtomic_iff]
  rw [← honce, ← hjustified, ← hatomic]
  exact ⟨fun h => ⟨h.once, h.justified, h.atomic⟩, fun h => ⟨h.1, h.2.1, h.2.2⟩⟩

/-- An acquittal is enforced with a punishment and appealed, and the second decision is enforced too. -/
def enforcedTwice : List ArbitrationOp :=
  sampleJurors.map (fun juror => ArbitrationOp.registerValidator juror 1000 0) ++
    [ArbitrationOp.raiseDispute ⟨1⟩ .validatorMisconduct ⟨100⟩ (.localTo ⟨1⟩) (some (.textEvidence "" ⟨100⟩ 0)),
      ArbitrationOp.selectJury .stored 1 (some 7),
      ArbitrationOp.submitJuryVote 1 ⟨1⟩ .notGuilty none,
      ArbitrationOp.setCurrentBlock deliberationPeriod,
      ArbitrationOp.tallyVotes 1,
      ArbitrationOp.enforceVerdict 1 (.slashValidatorCredits ⟨9⟩ 5) ⟨1⟩,
      ArbitrationOp.appealDecision 1 ⟨100⟩ .root,
      ArbitrationOp.selectJury .stored 2 (some 7),
      ArbitrationOp.submitJuryVote 2 ⟨1⟩ .guilty none,
      ArbitrationOp.setCurrentBlock (2 * deliberationPeriod),
      ArbitrationOp.tallyVotes 2,
      ArbitrationOp.enforceVerdict 2 (.slashValidatorCredits ⟨9⟩ 5) ⟨1⟩]

/-- Both decisions of the chain are enforced, the first although it acquits; and without credit
records the first tally fails with the dispute resolved. -/
theorem enforced_twice :
    ¬ Once firstCandidate .sample sampleCredits enforcedTwice ∧
    ¬ (after firstCandidate .sample sampleCredits (enforcedTwice.take 13)).Justified ∧
    ¬ (after firstCandidate .sample .new (enforcedTwice.take 11)).TallyAtomic (.tallyVotes 1) ∧
    ¬ Upheld firstCandidate .sample sampleCredits enforcedTwice := by
  have honce : ¬ Once firstCandidate .sample sampleCredits enforcedTwice := by
    intro h
    have hlink : Appealed firstCandidate .sample sampleCredits enforcedTwice 1 2 :=
      ⟨enforcedTwice.take 13, ⟨100⟩, .root, enforcedTwice.drop 14, rfl, by decide +kernel⟩
    have hfirst : (after firstCandidate .sample sampleCredits enforcedTwice).enforcementOf 1 =
        some (.slashValidatorCredits ⟨9⟩ 5) := by decide +kernel
    have hsecond : (after firstCandidate .sample sampleCredits enforcedTwice).enforcementOf 2 =
        some (.slashValidatorCredits ⟨9⟩ 5) := by decide +kernel
    have hnone := h 1 2 (.single hlink) (by rw [hfirst]; simp)
    rw [hsecond] at hnone
    cases hnone
  refine ⟨honce, fun h => ?_, fun h => ?_, fun h => honce ?_⟩
  · have hverdict : ((after firstCandidate .sample sampleCredits (enforcedTwice.take 13)).decisionOf 1).map
        (fun d => (d.verdict, d.enforcement)) = some (.notGuilty, some (.slashValidatorCredits ⟨9⟩ 5)) := by
      decide +kernel
    obtain ⟨decision, hdecision, hfields⟩ := Option.map_eq_some_iff.mp hverdict
    have hguilty := h 1 decision _ hdecision (congrArg Prod.snd hfields) rfl
    rw [show decision.verdict = .notGuilty from congrArg Prod.fst hfields] at hguilty
    cases hguilty
  · rw [tallyAtomic_iff] at h
    have hblock : (after firstCandidate .sample .new (enforcedTwice.take 11)).currentBlock = deliberationPeriod := by
      decide +kernel
    have hsample : ((after firstCandidate .sample .new (enforcedTwice.take 11)).disputes.find? 1).map
        (fun d => decide (d.canTally deliberationPeriod ∧ ⟨1⟩ ∈ d.juryMembers)) = some true := by
      decide +kernel
    have hrecord : (after firstCandidate .sample .new (enforcedTwice.take 11)).validatorCredits.records.find? ⟨1⟩ =
        none := by
      decide +kernel
    obtain ⟨d, hd, hfacts⟩ := Option.map_eq_some_iff.mp hsample
    obtain ⟨htally, hmember⟩ := of_decide_eq_true hfacts
    rw [← hblock] at htally
    have hrewarded := (h d hd htally).2 ⟨1⟩ hmember
    rw [hrecord] at hrewarded
    cases hrewarded
  · intro a b hab ha
    by_contra hb
    rw [← everEnforced_iff] at ha
    exact h.once a b hab ha ((everEnforced_iff _ _ _ _ b).mpr hb)

end ArbitrationContract

end Kratos
