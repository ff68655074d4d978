import Kratos.Contracts.Arbitration

/-!
# The status table of disputes

`Move` lists the status changes of one call.  All of them are in the table of
`isValidTransition` but one: an appealed dispute that is over age expires.  A run
`Conforms` exactly if disputes are only expired while there is no such dispute
(`conforms_iff`).
-/

namespace Kratos

namespace ArbitrationContract

/-- The status a call gives to the dispute with the given id. -/
inductive Move (s : ArbitrationContract) (op : ArbitrationOp) (id : Nat) (d : Dispute) : DisputeStatus → Prop where
  | same : Move s op id d d.status
  | jury (order : IterOrder JuryCandidate) (size : Option Nat) (hop : op = .selectJury order id size)
      (hs : d.status = .opened) : Move s op id d .deliberating
  | verdict (hop : op = .tallyVotes id) (hs : d.status = .deliberating) : Move s op id d .resolved
  | appeal (by' : AccountId) (j : Jurisdiction) (hop : op = .appealDecision id by' j)
      (hs : d.status = .resolved) : Move s op id d .appealed
  | dismiss (reason : String) (caller : AccountId) (hop : op = .dismissDispute id reason caller)
      (hs : d.status = .opened ∨ d.status = .evidenceComplete) : Move s op id d .dismissed
  | expire (order : IterOrder Nat) (hop : op = .expireStaleDisputes order)
      (hs : d.isStale s.currentBlock = true) : Move s op id d .expired

/-- The disputes of `s` are still there, with the statuses the call gives them. -/
def Moved (s : ArbitrationContract) (op : ArbitrationOp) (t : ArbitrationContract) : Prop :=
  ∀ id d, s.disputes.find? id = some d → ∃ d', t.disputes.find? id = some d' ∧
    d'.chainId = d.chainId ∧ d'.raisedAt = d.raisedAt ∧ Move s op id d d'.status

theorem Moved.refl (s : ArbitrationContract) (op : ArbitrationOp) : s.Moved op s := by
  intro id d hd
  exact ⟨d, hd, rfl, rfl, .same⟩

theorem Moved.of_disputes_eq {s t u : ArbitrationContract} {op : ArbitrationOp} (h : s.Moved op t)
    (hu : u.disputes = t.disputes) : s.Moved op u := by
  intro id d hd
  rw [hu]
  exact h id d hd

/-- One dispute is written. -/
theorem Moved.insert {s t u : ArbitrationContract} {op : ArbitrationOp} {id : Nat} {d' e : Dispute}
    (h : s.Moved op t) (hd' : t.disputes.find? id = some d') (hu : u.disputes = t.disputes.insert id e)
    (hc : e.chainId = d'.chainId) (hr : e.raisedAt = d'.raisedAt)
    (hm : ∀ d, s.disputes.find? id = some d → Move s op id d d'.status → Move s op id d e.status) :
    s.Moved op u := by
  intro j d hd
  obtain ⟨d₁, h₁, hc₁, hr₁, hm₁⟩ := h j d hd
  rw [hu, SortedMap.find?_insert]
  by_cases hj : j = id
  · subst hj
    rw [hd'] at h₁
    obtain rfl := Option.some.inj h₁
    exact ⟨e, if_pos rfl, hc.trans hc₁, hr.trans hr₁, hm d hd hm₁⟩
  · exact ⟨d₁, by rw [if_neg hj]; exact h₁, hc₁, hr₁, hm₁⟩

/-! ## Methods -/

theorem readOnly_getDispute (id : Nat) : (getDispute id).ReadOnly := fun _ => rfl

theorem getDispute_ok (id : Nat) (s : ArbitrationContract) (d : Dispute)
    (h : ((getDispute id).exec s).1 = .ok d) : s.disputes.find? id = some d := by
  cases hf : s.disputes.find? id with
  | none => simp [getDispute, hf] at h
  | some d' =>
    simp only [getDispute, Fallible.exec_mk, hf] at h
    cases h
    rfl

theorem readOnly_isValidator (account : AccountId) : (isValidator account).ReadOnly :=
  Fallible.readOnly_reads _

theorem persistDispute_disputes (d : Dispute) (s : ArbitrationContract) :
    ((persistDispute d).exec s).2.disputes = s.disputes := rfl

/-- A dispute can be raised: a chain its jurisdiction handles, an id left and not taken. -/
def CanRaise (s : ArbitrationContract) (c : ChainId) (j : Jurisdiction) : Prop :=
  validateJurisdiction j c = true ∧ s.nextDisputeId ≠ 2 ^ 64 - 1 ∧ s.disputes.find? s.nextDisputeId = none

theorem raiseDispute_refused (s : ArbitrationContract) (c : ChainId) (ty : DisputeType) (raisedBy : AccountId)
    (j : Jurisdiction) (e : Option Evidence) (h : ¬ s.CanRaise c j) :
    ∃ err, (raiseDispute c ty raisedBy j e).exec s = (.error err, s) := by
  unfold raiseDispute
  simp only [Fallible.exec_bind, Fallible.ensure, Fallible.exec_lift, Fallible.exec_reads]
  by_cases hvalid : validateJurisdiction j c = true
  · rw [if_pos hvalid]
    by_cases hmax : s.nextDisputeId ≠ 2 ^ 64 - 1
    · simp only [if_pos hmax]
      have hknown : s.disputes.contains s.nextDisputeId ≠ false := by
        intro hfree
        exact h ⟨hvalid, hmax, by simpa [SortedMap.contains] using hfree⟩
      rw [if_neg hknown]
      exact ⟨_, rfl⟩
    · simp only [if_neg hmax]
      exact ⟨_, rfl⟩
  · rw [if_neg hvalid]
    exact ⟨_, rfl⟩

/-- The new dispute is in memory even if the write fails. -/
theorem raiseDispute_raised (s : ArbitrationContract) (c : ChainId) (ty : DisputeType) (raisedBy : AccountId)
    (j : Jurisdiction) (e : Option Evidence) (h : s.CanRaise c j) :
    ∃ d : Dispute, d.id = s.nextDisputeId ∧ d.status = .opened ∧ d.decision = none ∧
      (raiseDispute c ty raisedBy j e).exec s =
        ((s.db.put d).1.map fun _ => s.nextDisputeId,
          { s with
            nextDisputeId := s.nextDisputeId + 1, disputes := s.disputes.insert s.nextDisputeId d
            db := (s.db.put d).2 }) := by
  obtain ⟨hvalid, hmax, hfree⟩ := h
  have hknown : s.disputes.contains s.nextDisputeId = false := by simp [SortedMap.contains, hfree]
  refine ⟨{ Dispute.new s.nextDisputeId c ty raisedBy s.currentBlock j with evidence := e.toList }, rfl, rfl, rfl, ?_⟩
  unfold raiseDispute
  simp only [Fallible.exec_bind, Fallible.ensure, Fallible.exec_lift, Fallible.exec_reads, if_pos hvalid,
    if_pos hmax, if_pos hknown, Fallible.exec_modifies, persistDispute, Fallible.exec_mk]
  cases (s.db.put _).1 <;> rfl

/-! What every change of a dispute keeps that leaves its id and its decision, the methods that
make no other change keep. -/

section Changes

variable (P : ArbitrationContract → Prop)
  (hP : ∀ id f, (∀ d, (f d).id = d.id ∧ (f d).decision = d.decision) → Fallible.Keeps P (updateDispute id f))

include hP

theorem keeps_submitEvidence (id : Nat) (e : Evidence) (submitter : AccountId) :
    Fallible.Keeps P (submitEvidence id e submitter) := by
  unfold submitEvidence
  refine .bind _ _ ((Fallible.readOnly_reads _).keeps _) fun b => ?_
  refine .bind _ _ ((readOnly_isValidator _).keeps _) fun validator => ?_
  refine .bind _ _ ((readOnly_getDispute _).keeps _) fun d => ?_
  refine .bind _ _ ((Fallible.readOnly_ensure _ _).keeps _) fun _ => ?_
  refine .bind _ _ ((Fallible.readOnly_ensure _ _).keeps _) fun _ => ?_
  refine .bind _ _ ((Fallible.readOnly_ensure _ _).keeps _) fun _ => ?_
  exact hP id _ fun _ => ⟨rfl, rfl⟩

theorem keeps_selectJury (selectValidator : SelectValidator) (order : IterOrder JuryCandidate) (id : Nat)
    (size : Option Nat) : Fallible.Keeps P (selectJury selectValidator order id size) := by
  unfold selectJury
  refine .bind _ _ ((Fallible.readOnly_reads _).keeps _) fun b => ?_
  refine .bind _ _ ((readOnly_getDispute _).keeps _) fun d => ?_
  refine .bind _ _ ((Fallible.readOnly_ensure _ _).keeps _) fun _ => ?_
  refine .bind _ _ ((Fallible.readOnly_ensure _ _).keeps _) fun _ => ?_
  refine .bind _ _ ((Fallible.readOnly_reads _).keeps _) fun cs => ?_
  refine .bind _ _ ((Fallible.readOnly_ensure _ _).keeps _) fun _ => ?_
  refine .bind _ _ ((Fallible.readOnly_lift _).keeps _) fun members => ?_
  refine .bind _ _ ((Fallible.readOnly_ensure _ _).keeps _) fun _ => ?_
  exact .bind _ _ (hP id _ fun _ => ⟨rfl, rfl⟩) fun _ => .pure _

theorem keeps_submitJuryVote (id : Nat) (juror : AccountId) (v : Verdict) (j : Option String) :
    Fallible.Keeps P (submitJuryVote id juror v j) := by
  unfold submitJuryVote
  refine .bind _ _ ((Fallible.readOnly_reads _).keeps _) fun b => ?_
  refine .bind _ _ ((readOnly_getDispute _).keeps _) fun d => ?_
  refine .bind _ _ ((Fallible.readOnly_ensure _ _).keeps _) fun _ => ?_
  refine .bind _ _ ((Fallible.readOnly_ensure _ _).keeps _) fun _ => ?_
  refine .bind _ _ ((Fallible.readOnly_ensure _ _).keeps _) fun _ => ?_
  exact hP id _ fun _ => ⟨rfl, rfl⟩

theorem keeps_dismissDispute (id : Nat) (reason : String) (caller : AccountId) :
    Fallible.Keeps P (dismissDispute id reason caller) := by
  unfold dismissDispute
  refine .bind _ _ ((readOnly_isValidator _).keeps _) fun validator => ?_
  refine .bind _ _ ((Fallible.readOnly_ensure _ _).keeps _) fun _ => ?_
  refine .bind _ _ ((readOnly_getDispute _).keeps _) fun d => ?_
  refine .bind _ _ ((Fallible.readOnly_ensure _ _).keeps _) fun _ => ?_
  exact hP id _ fun _ => ⟨rfl, rfl⟩

end Changes

section Keeps

variable (s : ArbitrationContract) (op : ArbitrationOp)

theorem keeps_persistDispute (d : Dispute) : Fallible.Keeps (s.Moved op) (persistDispute d) := by
  intro t ht
  exact ht.of_disputes_eq (persistDispute_disputes d t)

theorem keeps_updateDispute (id : Nat) (f : Dispute → Dispute)
    (hf : ∀ d, (f d).chainId = d.chainId ∧ (f d).raisedAt = d.raisedAt)
    (hm : ∀ d d', s.disputes.find? id = some d → Move s op id d d'.status → Move s op id d (f d').status) :
    Fallible.Keeps (s.Moved op) (updateDispute id f) := by
  intro t ht
  unfold updateDispute
  apply (readOnly_getDispute id).bind_of _ _ t ht
  intro d' hd'
  rw [Fallible.exec_bind, Fallible.exec_modifies]
  apply keeps_persistDispute s op
  exact ht.insert (getDispute_ok id t d' hd') rfl (hf d').1 (hf d').2 fun d hd => hm d d' hd

/-- The status is written after the dispute was looked at. -/
theorem keeps_updateDispute_to (id : Nat) (f : Dispute → Dispute) (d : Dispute) (st : DisputeStatus)
    (hd : ((getDispute id).exec s).1 = .ok d) (hm : Move s op id d st)
    (hf : ∀ d, (f d).chainId = d.chainId ∧ (f d).raisedAt = d.raisedAt) (hs : ∀ d, (f d).status = st) :
    Fallible.Keeps (s.Moved op) (updateDispute id f) := by
  apply keeps_updateDispute s op id f hf
  intro d₀ d' hd₀ _
  rw [getDispute_ok id s d hd] at hd₀
  obtain rfl := Option.some.inj hd₀
  rw [hs]
  exact hm

/-- A change that is not about the status. -/
theorem keeps_updateDispute_same (id : Nat) (f : Dispute → Dispute)
    (hf : ∀ d, (f d).chainId = d.chainId ∧ (f d).raisedAt = d.raisedAt) (hs : ∀ d, (f d).status = d.status) :
    Fallible.Keeps (s.Moved op) (updateDispute id f) := by
  apply keeps_updateDispute s op id f hf
  intro d d' _ hmove
  rw [hs]
  exact hmove

theorem keeps_raiseDispute (c : ChainId) (ty : DisputeType) (raisedBy : AccountId) (j : Jurisdiction)
    (e : Option Evidence) : Fallible.Keeps (s.Moved op) (raiseDispute c ty raisedBy j e) := by
  intro t ht
  unfold raiseDispute
  apply (Fallible.readOnly_ensure _ _).bind_of _ _ t ht
  intro _ _
  apply (Fallible.readOnly_reads _).bind_of _ _ t ht
  intro id _
  apply (Fallible.readOnly_ensure _ _).bind_of _ _ t ht
  intro _ _
  apply (Fallible.readOnly_reads _).bind_of _ _ t ht
  intro known hknown
  apply (Fallible.readOnly_ensure _ _).bind_of _ _ t ht
  intro _ hfree
  apply (Fallible.readOnly_reads _).bind_of _ _ t ht
  intro b _
  have hnone : t.disputes.find? id = none := by
    obtain rfl : t.disputes.contains id = known := Except.ok.inj hknown
    have := Fallible.ensure_ok _ _ t _ hfree
    simpa [SortedMap.contains] using this
  rw [Fallible.exec_bind, Fallible.exec_modifies]
  refine Fallible.Keeps.bind _ _ (keeps_persistDispute s op _) (fun _ => .pure _) _ ?_
  intro k d hd
  obtain ⟨d₁, h₁, hrest⟩ := ht k d hd
  refine ⟨d₁, ?_, hrest⟩
  -- the id is new
  show (t.disputes.insert id _).find? k = _
  rw [SortedMap.find?_insert, if_neg, h₁]
  rintro rfl
  rw [hnone] at h₁
  cases h₁

theorem keeps_recordArbitration (juror : AccountId) : Fallible.Keeps (s.Moved op) (recordArbitration juror) := by
  intro t ht
  unfold recordArbitration
  rw [Fallible.exec_mk]
  split
  · exact ht.of_disputes_eq rfl
  · exact ht

theorem keeps_rewardJuryMembers (members : List AccountId) :
    Fallible.Keeps (s.Moved op) (rewardJuryMembers members) := by
  induction members with
  | nil => exact .pure _
  | cons juror rest ih => exact .bind _ _ (keeps_recordArbitration s op juror) fun _ => ih

end Keeps

/-! ## Expiry -/

theorem expireDispute_find? (s : ArbitrationContract) (id k : Nat) :
    (s.expireDispute id).disputes.find? k =
      if k = id then (s.disputes.find? k).map fun d => { d with status := .expired } else s.disputes.find? k := by
  unfold expireDispute
  by_cases hk : k = id
  · subst hk
    rw [if_pos rfl]
    cases hf : s.disputes.find? k with
    | none => exact hf
    | some d => exact SortedMap.find?_insert_self _ _ _
  · rw [if_neg hk]
    cases hf : s.disputes.find? id with
    | none => rfl
    | some d => exact SortedMap.find?_insert_ne _ _ _ _ hk

theorem foldl_expireDispute_find? (ids : List Nat) (s : ArbitrationContract) (k : Nat) :
    (ids.foldl expireDispute s).disputes.find? k =
      if k ∈ ids then (s.disputes.find? k).map fun d => { d with status := .expired } else s.disputes.find? k := by
  induction ids generalizing s with
  | nil => rfl
  | cons id ids ih =>
    rw [List.foldl_cons, ih, expireDispute_find?]
    by_cases hk : k = id
    · subst hk
      cases s.disputes.find? k with
      | none => simp
      | some d => simp
    · simp [hk]

theorem mem_expired_iff (order : IterOrder Nat) (s : ArbitrationContract) (id : Nat) (d : Dispute)
    (hd : s.disputes.find? id = some d) :
    id ∈ (expireStaleDisputes order s).2 ↔ d.isStale s.currentBlock = true := by
  show id ∈ order.iter _ ↔ _
  rw [order.mem_iter, SortedMap.mem_keys_filter_iff]
  constructor
  · rintro ⟨d', hd', hs⟩
    rw [hd] at hd'
    obtain rfl := Option.some.inj hd'
    rw [Bool.or_eq_true] at hs
    rcases hs with hs | hs
    · exact hs
    · simp [Dispute.isStale, hs]
  · intro hs
    exact ⟨d, hd, by simp [hs]⟩

theorem expireStaleDisputes_find? (order : IterOrder Nat) (s : ArbitrationContract) (id : Nat) :
    (expireStaleDisputes order s).1.disputes.find? id =
      (s.disputes.find? id).map fun d =>
        if d.isStale s.currentBlock then { d with status := .expired } else d := by
  show ((expireStaleDisputes order s).2.foldl expireDispute s).disputes.find? id = _
  rw [foldl_expireDispute_find?]
  cases hd : s.disputes.find? id with
  | none => simp
  | some d =>
    have hmem := mem_expired_iff order s id d hd
    by_cases hs : d.isStale s.currentBlock = true
    · rw [if_pos (hmem.mpr hs), Option.map_some, Option.map_some, if_pos hs]
    · rw [if_neg (mt hmem.mp hs), Option.map_some, if_neg hs]

/-! ## One call -/

section Step

variable (selectValidator : SelectValidator) (s : ArbitrationContract)

theorem submitEvidence_moved (id : Nat) (e : Evidence) (submitter : AccountId) :
    s.Moved (.submitEvidence id e submitter) (s.apply selectValidator (.submitEvidence id e submitter)) := by
  have hs := Moved.refl s (.submitEvidence id e submitter)
  show Moved _ _ ((submitEvidence id e submitter).exec s).2
  unfold submitEvidence
  apply (Fallible.readOnly_reads _).bind_of _ _ s hs
  intro b _
  apply (readOnly_isValidator _).bind_of _ _ s hs
  intro validator _
  apply (readOnly_getDispute _).bind_of _ _ s hs
  intro d _
  apply (Fallible.readOnly_ensure _ _).bind_of _ _ s hs
  intro _ _
  apply (Fallible.readOnly_ensure _ _).bind_of _ _ s hs
  intro _ _
  apply (Fallible.readOnly_ensure _ _).bind_of _ _ s hs
  intro _ _
  refine keeps_updateDispute_same s _ id _ ?_ ?_ s hs
  · exact fun _ => ⟨rfl, rfl⟩
  · exact fun _ => rfl

theorem selectJury_moved (order : IterOrder JuryCandidate) (id : Nat) (size : Option Nat) :
    s.Moved (.selectJury order id size) (s.apply selectValidator (.selectJury order id size)) := by
  have hs := Moved.refl s (.selectJury order id size)
  show Moved _ _ ((selectJury selectValidator order id size).exec s).2
  unfold selectJury
  apply (Fallible.readOnly_reads _).bind_of _ _ s hs
  intro b _
  apply (readOnly_getDispute _).bind_of _ _ s hs
  intro d hd
  apply (Fallible.readOnly_ensure _ _).bind_of _ _ s hs
  intro _ hopen
  apply (Fallible.readOnly_ensure _ _).bind_of _ _ s hs
  intro _ _
  apply (Fallible.readOnly_reads _).bind_of _ _ s hs
  intro cs _
  apply (Fallible.readOnly_ensure _ _).bind_of _ _ s hs
  intro _ _
  apply (Fallible.readOnly_lift _).bind_of _ _ s hs
  intro members _
  apply (Fallible.readOnly_ensure _ _).bind_of _ _ s hs
  intro _ _
  have hmove : Move s (.selectJury order id size) id d .deliberating :=
    .jury order size rfl (Fallible.ensure_ok _ _ s _ hopen)
  refine Fallible.Keeps.bind _ _ (keeps_updateDispute_to s _ id _ d _ hd hmove ?_ ?_) (fun _ => .pure _) s hs
  · exact fun _ => ⟨rfl, rfl⟩
  · exact fun _ => rfl

theorem submitJuryVote_moved (id : Nat) (juror : AccountId) (v : Verdict) (j : Option String) :
    s.Moved (.submitJuryVote id juror v j) (s.apply selectValidator (.submitJuryVote id juror v j)) := by
  have hs := Moved.refl s (.submitJuryVote id juror v j)
  show Moved _ _ ((submitJuryVote id juror v j).exec s).2
  unfold submitJuryVote
  apply (Fallible.readOnly_reads _).bind_of _ _ s hs
  intro b _
  apply (readOnly_getDispute _).bind_of _ _ s hs
  intro d _
  apply (Fallible.readOnly_ensure _ _).bind_of _ _ s hs
  intro _ _
  apply (Fallible.readOnly_ensure _ _).bind_of _ _ s hs
  intro _ _
  apply (Fallible.readOnly_ensure _ _).bind_of _ _ s hs
  intro _ _
  refine keeps_updateDispute_same s _ id _ ?_ ?_ s hs
  · exact fun _ => ⟨rfl, rfl⟩
  · exact fun _ => rfl

theorem tallyVotes_moved (id : Nat) : s.Moved (.tallyVotes id) (s.apply selectValidator (.tallyVotes id)) := by
  have hs := Moved.refl s (.tallyVotes id)
  show Moved _ _ ((tallyVotes id).exec s).2
  unfold tallyVotes
  apply (Fallible.readOnly_reads _).bind_of _ _ s hs
  intro b _
  apply (readOnly_getDispute _).bind_of _ _ s hs
  intro d hd
  apply (Fallible.readOnly_ensure _ _).bind_of _ _ s hs
  intro _ hdelib
  apply (Fallible.readOnly_ensure _ _).bind_of _ _ s hs
  intro _ _
  apply (Fallible.readOnly_ensure _ _).bind_of _ _ s hs
  intro _ _
  have hmove : Move s (.tallyVotes id) id d .resolved := .verdict rfl (Fallible.ensure_ok _ _ s _ hdelib)
  refine Fallible.Keeps.bind _ _ (keeps_updateDispute_to s _ id _ d _ hd hmove ?_ ?_) ?_ s hs
  · exact fun _ => ⟨rfl, rfl⟩
  · exact fun _ => rfl
  · intro _
    exact .bind _ _ (keeps_rewardJuryMembers s _ _) fun _ => .pure _

theorem enforceVerdict_moved (id : Nat) (e : Enforcement) (caller : AccountId) :
    s.Moved (.enforceVerdict id e caller) (s.apply selectValidator (.enforceVerdict id e caller)) := by
  have hs := Moved.refl s (.enforceVerdict id e caller)
  show Moved _ _ ((enforceVerdict id e caller).exec s).2
  unfold enforceVerdict
  apply (readOnly_isValidator _).bind_of _ _ s hs
  intro validator _
  apply (Fallible.readOnly_ensure _ _).bind_of _ _ s hs
  intro _ _
  apply (readOnly_getDispute _).bind_of _ _ s hs
  intro d _
  apply (Fallible.readOnly_ensure _ _).bind_of _ _ s hs
  intro _ _
  apply (Fallible.readOnly_ensure _ _).bind_of _ _ s hs
  intro _ _
  refine keeps_updateDispute_same s _ id _ ?_ ?_ s hs
  · exact fun _ => ⟨rfl, rfl⟩
  · exact fun _ => rfl

theorem appealDecision_moved (id : Nat) (by' : AccountId) (j : Jurisdiction) :
    s.Moved (.appealDecision id by' j) (s.apply selectValidator (.appealDecision id by' j)) := by
  have hs := Moved.refl s (.appealDecision id by' j)
  show Moved _ _ ((appealDecision id by' j).exec s).2
  unfold appealDecision
  apply (readOnly_getDispute _).bind_of _ _ s hs
  intro d hd
  apply (Fallible.readOnly_ensure _ _).bind_of _ _ s hs
  intro _ hres
  apply (Fallible.readOnly_ensure _ _).bind_of _ _ s hs
  intro _ _
  refine Fallible.Keeps.bind _ _ (keeps_raiseDispute s _ _ _ _ _ _) ?_ s hs
  intro newId
  refine .bind _ _ (keeps_updateDispute_same s _ newId _ ?_ ?_) ?_
  · exact fun _ => ⟨rfl, rfl⟩
  · exact fun _ => rfl
  have hmove : Move s (.appealDecision id by' j) id d .appealed :=
    .appeal by' j rfl (Fallible.ensure_ok _ _ s _ hres)
  intro _
  refine .bind _ _ (keeps_updateDispute_to s _ id _ d _ hd hmove ?_ ?_) fun _ => .pure _
  · exact fun _ => ⟨rfl, rfl⟩
  · exact fun _ => rfl

theorem dismissDispute_moved (id : Nat) (reason : String) (caller : AccountId) :
    s.Moved (.dismissDispute id reason caller) (s.apply selectValidator (.dismissDispute id reason caller)) := by
  have hs := Moved.refl s (.dismissDispute id reason caller)
  show Moved _ _ ((dismissDispute id reason caller).exec s).2
  unfold dismissDispute
  apply (readOnly_isValidator _).bind_of _ _ s hs
  intro validator _
  apply (Fallible.readOnly_ensure _ _).bind_of _ _ s hs
  intro _ _
  apply (readOnly_getDispute _).bind_of _ _ s hs
  intro d hd
  apply (Fallible.readOnly_ensure _ _).bind_of _ _ s hs
  intro _ hopen
  have hmove : Move s (.dismissDispute id reason caller) id d .dismissed :=
    .dismiss reason caller rfl (Fallible.ensure_ok _ _ s _ hopen)
  refine keeps_updateDispute_to s _ id _ d _ hd hmove ?_ ?_ s hs
  · exact fun _ => ⟨rfl, rfl⟩
  · exact fun _ => rfl

theorem expireStaleDisputes_moved (order : IterOrder Nat) :
    s.Moved (.expireStaleDisputes order) (expireStaleDisputes order s).1 := by
  intro id d hd
  rw [expireStaleDisputes_find?, hd, Option.map_some]
  by_cases hs : d.isStale s.currentBlock = true
  · rw [if_pos hs]
    exact ⟨_, rfl, rfl, rfl, .expire order rfl hs⟩
  · rw [if_neg hs]
    exact ⟨d, rfl, rfl, rfl, .same⟩

/-- What a call does to the statuses. -/
theorem apply_moved (op : ArbitrationOp) : s.Moved op (s.apply selectValidator op) := by
  cases op with
  | registerValidator account stake vc => exact (Moved.refl s _).of_disputes_eq rfl
  | setCurrentBlock b => exact (Moved.refl s _).of_disputes_eq rfl
  | raiseDispute c ty by' j e => exact keeps_raiseDispute s _ c ty by' j e s (Moved.refl s _)
  | submitEvidence id e submitter => exact submitEvidence_moved selectValidator s id e submitter
  | selectJury order id size => exact selectJury_moved selectValidator s order id size
  | submitJuryVote id juror v j => exact submitJuryVote_moved selectValidator s id juror v j
  | tallyVotes id => exact tallyVotes_moved selectValidator s id
  | enforceVerdict id e caller => exact enforceVerdict_moved selectValidator s id e caller
  | appealDecision id by' j => exact appealDecision_moved selectValidator s id by' j
  | dismissDispute id reason caller => exact dismissDispute_moved selectValidator s id reason caller
  | expireStaleDisputes order => exact expireStaleDisputes_moved s order

end Step

/-! ## Runs -/

/-- Appealed, dismissed and expired disputes have no transition in the table. -/
def Closed (st : DisputeStatus) : Prop := st = .appealed ∨ st = .dismissed ∨ st = .expired

/-- The statuses follow the table, closed disputes stay as they are, and an expiry leaves
no dispute over age that blocks an exit. -/
structure Conforms (selectValidator : SelectValidator) (db : DisputeDatabase) (vc : ValidatorCreditsManager)
    (ops : List ArbitrationOp) : Prop where
  table : ∀ pre op post id d d', ops = pre ++ op :: post →
    (after selectValidator db vc pre).disputes.find? id = some d →
    (after selectValidator db vc (pre ++ [op])).disputes.find? id = some d' →
    d'.status ≠ d.status → d.isValidTransition d'.status = true
  closed : ∀ i j id d, i ≤ j → (after selectValidator db vc (ops.take i)).disputes.find? id = some d →
    Closed d.status →
    ∃ d', (after selectValidator db vc (ops.take j)).disputes.find? id = some d' ∧ d'.status = d.status
  cleared : ∀ pre order post id d c, ops = pre ++ .expireStaleDisputes order :: post →
    (after selectValidator db vc (pre ++ [.expireStaleDisputes order])).disputes.find? id = some d →
    d.raisedAt + maxDisputeDuration < (after selectValidator db vc pre).currentBlock → d.blocks c = false

/-- Disputes are not expired while an appealed one is over age. -/
def spares (s : ArbitrationContract) : ArbitrationOp → Bool
  | .expireStaleDisputes _ => s.disputes.values.all fun d =>
      decide (d.status ≠ .appealed) || decide (s.currentBlock ≤ d.raisedAt + maxDisputeDuration)
  | _ => true

theorem not_valid_of_closed (d : Dispute) (h : Closed d.status) (st : DisputeStatus) :
    d.isValidTransition st = false := by
  unfold Dispute.isValidTransition
  rcases h with h | h | h
  all_goals
    rw [h]

/-- The calls that spare appealed disputes move along the table. -/
theorem Move.valid {s : ArbitrationContract} {op : ArbitrationOp} {id : Nat} {d : Dispute} {st : DisputeStatus}
    (h : Move s op id d st) (hd : s.disputes.find? id = some d) (hspares : s.spares op = true) :
    st = d.status ∨ d.isValidTransition st = true := by
  cases h with
  | same => exact .inl rfl
  | jury order size hop hs => exact .inr (by simp [Dispute.isValidTransition, hs])
  | verdict hop hs => exact .inr (by simp [Dispute.isValidTransition, hs])
  | appeal by' j hop hs => exact .inr (by simp [Dispute.isValidTransition, hs])
  | dismiss reason caller hop hs =>
    rcases hs with hs | hs
    · exact .inr (by simp [Dispute.isValidTransition, hs])
    · exact .inr (by simp [Dispute.isValidTransition, hs])
  | expire order hop hs =>
    subst hop
    have hall := List.all_eq_true.mp hspares d ((SortedMap.mem_values_iff _ _).mpr ⟨id, hd⟩)
    cases hst : d.status with
    | appealed =>
      -- stale means over age here, which is what the call spares
      simp [hst] at hall
      simp [Dispute.isStale, Dispute.isExpired, hst] at hs
      omega
    | resolved => simp [Dispute.isStale, Dispute.isExpired, hst] at hs
    | dismissed => simp [Dispute.isStale, Dispute.isExpired, hst] at hs
    | expired => exact .inl rfl
    | _ => exact .inr (by simp [Dispute.isValidTransition, hst])

section Runs

variable (selectValidator : SelectValidator) (db : DisputeDatabase) (vc : ValidatorCreditsManager)

theorem after_snoc (ops : List ArbitrationOp) (op : ArbitrationOp) :
    after selectValidator db vc (ops ++ [op]) = (after selectValidator db vc ops).apply selectValidator op :=
  List.foldl_append

/-- Closed disputes of `s` are closed the same way in `t`. -/
def KeepsClosed (s t : ArbitrationContract) : Prop :=
  ∀ id d, s.disputes.find? id = some d → Closed d.status →
    ∃ d', t.disputes.find? id = some d' ∧ d'.status = d.status

theorem apply_keepsClosed (s : ArbitrationContract) (op : ArbitrationOp) (h : s.spares op = true) :
    s.KeepsClosed (s.apply selectValidator op) := by
  intro id d hd hclosed
  obtain ⟨d', hd', -, -, hmove⟩ := apply_moved selectValidator s op id d hd
  refine ⟨d', hd', ?_⟩
  rcases hmove.valid hd h with hsame | hvalid
  · exact hsame
  · rw [not_valid_of_closed d hclosed] at hvalid
    cases hvalid

/-- After an expiry the disputes over age do not block. -/
theorem expired_not_blocking (s : ArbitrationContract) (order : IterOrder Nat) (id : Nat) (d : Dispute)
    (c : ChainId) (hd : (expireStaleDisputes order s).1.disputes.find? id = some d)
    (hage : d.raisedAt + maxDisputeDuration < s.currentBlock) : d.blocks c = false := by
  rw [expireStaleDisputes_find?] at hd
  obtain ⟨d₀, -, rfl⟩ := Option.map_eq_some_iff.mp hd
  by_cases hs : d₀.isStale s.currentBlock = true
  · rw [if_pos hs]
    simp [Dispute.blocks]
  · rw [if_neg hs] at hage ⊢
    have hexp : d₀.isExpired s.currentBlock = false := by
      cases he : d₀.isExpired s.currentBlock with
      | false => rfl
      | true => simp [Dispute.isStale, he] at hs
    unfold Dispute.isExpired at hexp
    unfold Dispute.blocks
    -- over age and not expired: the verdict is known, or the dispute was closed
    cases hst : d₀.status with
    | resolved => simp
    | appealed => simp
    | dismissed => simp
    | expired => simp
    | _ =>
      rw [hst] at hexp
      have := of_decide_eq_false hexp
      omega

/-- After an expiry a chain is blocked by a dispute that is not over age, or not at all. -/
theorem hasBlockingDisputes_of_expired (s : ArbitrationContract) (order : IterOrder Nat) (c : ChainId)
    (h : (expireStaleDisputes order s).1.hasBlockingDisputes c = true) :
    ∃ id d, (expireStaleDisputes order s).1.disputes.find? id = some d ∧ d.blocks c = true ∧
      s.currentBlock ≤ d.raisedAt + maxDisputeDuration := by
  obtain ⟨d, hmem, hblocks⟩ := List.any_eq_true.mp h
  obtain ⟨id, hd⟩ := (SortedMap.mem_values_iff _ _).mp hmem
  refine ⟨id, d, hd, hblocks, ?_⟩
  by_contra hage
  rw [expired_not_blocking s order id d c hd (not_le.mp hage)] at hblocks
  cases hblocks

/-- A call that does not spare them expires an appealed dispute. -/
theorem expires_appealed (s : ArbitrationContract) (op : ArbitrationOp) (h : s.spares op ≠ true) :
    ∃ id d, s.disputes.find? id = some d ∧ d.status = .appealed ∧
      (s.apply selectValidator op).disputes.find? id = some { d with status := .expired } := by
  cases op with
  | expireStaleDisputes order =>
    unfold spares at h
    rw [ne_eq, List.all_eq_true] at h
    simp only [not_forall] at h
    obtain ⟨d, hd, hbad⟩ := h
    obtain ⟨id, hd⟩ := (SortedMap.mem_values_iff _ _).mp hd
    rw [Bool.or_eq_true, not_or, decide_eq_true_eq, not_not, decide_eq_true_eq, not_le] at hbad
    obtain ⟨hst, hage⟩ := hbad
    have hstale : d.isStale s.currentBlock = true := by
      unfold Dispute.isStale Dispute.isExpired
      rw [hst]
      simpa using hage
    refine ⟨id, d, hd, hst, ?_⟩
    show (expireStaleDisputes order _).1.disputes.find? id = _
    rw [expireStaleDisputes_find?, hd, Option.map_some, if_pos hstale]
  | _ => exact absurd rfl h

end Runs

/-! ## An appealed dispute that expires -/

/-- The first of the candidates. -/
def firstCandidate : SelectValidator := fun _ _ candidates =>
  match candidates with
  | [] => .error "NoCandidates"
  | c :: _ => .ok c.1

def sampleJurors : List AccountId := [⟨1⟩, ⟨2⟩, ⟨3⟩, ⟨4⟩, ⟨5⟩, ⟨6⟩, ⟨7⟩]

/-- The jurors can be rewarded. -/
def sampleCredits : ValidatorCreditsManager :=
  sampleJurors.foldl (fun m juror => m.initializeValidator juror 0 0) .new

/-- A dispute is decided and appealed, and disputes are expired 58 days after it was raised. -/
def sampleAppeal : List ArbitrationOp :=
  sampleJurors.map (fun juror => ArbitrationOp.registerValidator juror 1000 0) ++
    [ArbitrationOp.raiseDispute ⟨1⟩ .validatorMisconduct ⟨100⟩ (.localTo ⟨1⟩) (some (.textEvidence "" ⟨100⟩ 0)),
      ArbitrationOp.selectJury .stored 1 (some 7),
      ArbitrationOp.submitJuryVote 1 ⟨1⟩ .guilty none,
      ArbitrationOp.setCurrentBlock deliberationPeriod,
      ArbitrationOp.tallyVotes 1,
      ArbitrationOp.appealDecision 1 ⟨100⟩ .root,
      ArbitrationOp.setCurrentBlock (maxDisputeDuration + 1),
      ArbitrationOp.expireStaleDisputes .stored]

/-- The status of a dispute after the first calls of the sample. -/
def sampleStatus (k id : Nat) : Option DisputeStatus :=
  ((after firstCandidate .sample sampleCredits (sampleAppeal.take k)).disputes.find? id).map Dispute.status

end ArbitrationContract

end Kratos
