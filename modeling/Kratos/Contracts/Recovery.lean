import Kratos.Contracts.EmergencyPowers

/-!
# Recovery

The confirmations that a recovery records are the accounts that confirmed it since it
started, whether they have voting power or not, and `advance_recovery` does not look at
them.  Where only validators with voting power confirm, a recovery has its confirmations
exactly if it is not advanced before they are recorded (`reconfirmed_iff`).
-/

namespace Kratos

namespace EmergencyContract

/-! ## What a call does to the recovery -/

/-- The recovery before and after a call. -/
inductive RecoveryChange (s : EmergencyContract) (op : EmergencyOp) (t : EmergencyContract) : Prop where
  | kept (hrecovery : t.recovery = s.recovery)
      (hstart : ∀ target required block, op = .startRecovery target required block → s.recovery ≠ none)
      (hconfirm : ∀ v, op = .confirmRecovery v → s.recovery = none)
  | started (target : Option Nat) (required block : Nat) (r : RecoveryProcess)
      (hop : op = .startRecovery target required block) (hbefore : s.recovery = none) (hafter : t.recovery = some r)
      (hempty : r.confirmations = ∅)
  | advanced (block : Nat) (r : RecoveryProcess) (next : RecoveryStep) (hop : op = .advanceRecovery block)
      (hbefore : s.recovery = some r)
      (hafter : t.recovery = if next = .complete then none else some { r with currentStep := next })
  | confirmed (v : AccountId) (r : RecoveryProcess) (hop : op = .confirmRecovery v) (hbefore : s.recovery = some r)
      (hafter : t.recovery = some { r with confirmations := insert v r.confirmations })

theorem recovery_voteEmergency (checks : Bool) (s t : EmergencyContract) (voter : AccountId) (approves : Bool)
    (block : Nat) (r : Except EmergencyError Unit) (h : s.voteEmergency checks voter approves block = some (t, r)) :
    t.recovery = s.recovery := by
  have happroval : ∀ u, Approval checks s voter u → u.recovery = s.recovery := by
    rintro u (_ | ⟨power, approvalPower, hpower, hnew, hadd⟩) <;> rfl
  rcases voteEmergency_cases checks s t voter approves block r h with
    rfl | ⟨-, u, happ, rfl | ⟨percent, count, expiresAt, -, -, -, rfl⟩⟩
  · rfl
  · exact happroval _ happ
  · exact happroval u happ

theorem recovery_endEmergency (checks : Bool) (s t : EmergencyContract) (outcome : EmergencyOutcome) (block : Nat)
    (r : Except EmergencyError Unit) (h : s.endEmergency checks outcome block = some (t, r)) :
    t.recovery = s.recovery := by
  rcases endEmergency_cases checks s t outcome block r h with rfl | ⟨-, totalPower, -, -, -, -, hrecovery⟩
  · rfl
  · exact hrecovery

/-- **Inversion.** -/
theorem apply_recovery (checks : Bool) (s t : EmergencyContract) (op : EmergencyOp) (h : s.apply checks op = some t) :
    RecoveryChange s op t := by
  -- a call that is none of the three leaves the recovery
  have hkept : ∀ (_ : ∀ target required block, op ≠ .startRecovery target required block)
      (_ : ∀ v, op ≠ .confirmRecovery v), t.recovery = s.recovery → RecoveryChange s op t :=
    fun hstart hconfirm hrec =>
      .kept hrec (fun _ _ _ hop => absurd hop (hstart _ _ _)) (fun _ hop => absurd hop (hconfirm _))
  cases op with
  | setVotingPower v power =>
    obtain ⟨totalPower, -, rfl⟩ := Option.map_eq_some_iff.mp h
    exact hkept (by simp) (by simp) rfl
  | voteEmergency voter approves block =>
    obtain ⟨⟨u, r⟩, hv, rfl⟩ := Option.map_eq_some_iff.mp h
    exact hkept (by simp) (by simp) (recovery_voteEmergency checks s u voter approves block r hv)
  | declareAutomaticEmergency trigger block =>
    obtain ⟨⟨u, r⟩, hd, rfl⟩ := Option.map_eq_some_iff.mp h
    exact hkept (by simp) (by simp)
      (mayDeclare_declareAutomaticEmergency (· = trigger) checks s u trigger block r rfl hd).frame.recovery_eq
  | takeAction action block =>
    cases h
    refine hkept (by simp) (by simp) ?_
    unfold takeAction
    split
    · rfl
    · split <;> rfl
  | endEmergency outcome block =>
    obtain ⟨⟨u, r⟩, he, rfl⟩ := Option.map_eq_some_iff.mp h
    exact hkept (by simp) (by simp) (recovery_endEmergency checks s u outcome block r he)
  | checkExpiration block =>
    obtain ⟨⟨u, r⟩, he, rfl⟩ := Option.map_eq_some_iff.mp h
    refine hkept (by simp) (by simp) ?_
    unfold checkExpiration at he
    split at he
    · obtain ⟨⟨w, r'⟩, hw, heq⟩ := Option.map_eq_some_iff.mp he
      cases heq
      exact recovery_endEmergency checks s w .expired block r' hw
    · cases he
      rfl
  | registerBreaker breaker =>
    cases h
    refine hkept (by simp) (by simp) ?_
    unfold registerBreaker
    split <;> rfl
  | triggerBreaker id block =>
    obtain ⟨⟨u, r⟩, hb, rfl⟩ := Option.map_eq_some_iff.mp h
    exact hkept (by simp) (by simp) (mayDeclare_triggerBreaker checks s u id block r hb).frame.recovery_eq
  | resetBreaker id block =>
    cases h
    exact hkept (by simp) (by simp) (frame_resetBreaker s id).2.recovery_eq
  | checkBreakerExpirations block =>
    obtain ⟨ids, -, rfl⟩ := Option.map_eq_some_iff.mp h
    exact hkept (by simp) (by simp) (frame_resetBreakers ids s).2.recovery_eq
  | reportSignal o signal block =>
    obtain ⟨⟨u, r⟩, hr, rfl⟩ := Option.map_eq_some_iff.mp h
    exact hkept (by simp) (by simp) (mayDeclare_reportSignal o checks s u signal block r hr).frame.recovery_eq
  | pruneSignals block =>
    cases h
    exact hkept (by simp) (by simp) rfl
  | createCheckpoint n root hash chain =>
    cases h
    refine hkept (by simp) (by simp) ?_
    unfold createCheckpoint
    split <;> rfl
  | startRecovery target required block =>
    cases h
    unfold startRecovery
    split
    · next hsome => exact .kept rfl (fun _ _ _ _ hnone => by rw [hnone] at hsome; cases hsome) (by simp)
    · next hnone => exact .started target required block _ rfl (by simpa using hnone) rfl rfl
  | advanceRecovery block =>
    cases h
    unfold advanceRecovery
    split
    · exact .kept rfl (by simp) (by simp)
    · next r hr =>
      split
      · exact .kept rfl (by simp) (by simp)
      · next next hnext => exact .advanced block r next rfl hr rfl
  | confirmRecovery v =>
    cases h
    unfold confirmRecovery
    split
    · next hnone => exact .kept rfl (by simp) (fun _ _ => hnone)
    · next r hr => exact .confirmed v r rfl hr rfl

theorem step_recovery (checks : Bool) (s : EmergencyContract) (op : EmergencyOp) :
    RecoveryChange s op (s.step checks op) := by
  unfold step
  cases ha : s.apply checks op with
  | none =>
    refine .kept rfl (fun target required block hop => ?_) (fun v hop => ?_)
    · subst hop
      cases ha
    · subst hop
      cases ha
  | some t => exact apply_recovery checks s t op ha

/-! ## Confirmations -/

/-- In the run the account confirmed the recovery that goes on after it, with voting power. -/
def ConfirmedBy (checks : Bool) (ops : List EmergencyOp) (v : AccountId) : Prop :=
  ∃ pre mid, ops = pre ++ .confirmRecovery v :: mid ∧ (pre.foldl (step checks) new).recovery ≠ none ∧
    0 < (pre.foldl (step checks) new).powerOf v ∧
    ∀ mid' target required block rest, mid = mid' ++ .startRecovery target required block :: rest →
      ((pre ++ .confirmRecovery v :: mid').foldl (step checks) new).recovery ≠ none

/-- Whenever the recovery leaves the reconfirmation, enough validators have confirmed it. -/
def Reconfirmed (checks : Bool) (ops : List EmergencyOp) : Prop :=
  ∀ pre block post r, ops = pre ++ .advanceRecovery block :: post →
    (pre.foldl (step checks) new).recovery = some r → r.currentStep = .validatorReconfirmation →
    ∃ l : Finset AccountId, r.requiredConfirmations ≤ l.card ∧ ∀ v ∈ l, ConfirmedBy checks pre v

/-- Who confirms a recovery has voting power, or has confirmed it before. -/
def ConfirmsWithPower (s : EmergencyContract) : EmergencyOp → Prop
  | .confirmRecovery v => ∀ r ∈ s.recovery, v ∈ r.confirmations ∨ 0 < s.powerOf v
  | _ => True

/-- The reconfirmation is left when the recorded confirmations are enough. -/
def AdvancesConfirmed (s : EmergencyContract) : EmergencyOp → Prop
  | .advanceRecovery _ => ∀ r ∈ s.recovery, r.currentStep = .validatorReconfirmation →
    r.requiredConfirmations ≤ r.confirmations.card
  | _ => True

instance (s : EmergencyContract) (op : EmergencyOp) : Decidable (s.ConfirmsWithPower op) :=
  match op with
  | .confirmRecovery v => inferInstanceAs (Decidable (∀ r ∈ s.recovery, v ∈ r.confirmations ∨ 0 < s.powerOf v))
  | .setVotingPower .. | .voteEmergency .. | .declareAutomaticEmergency .. | .takeAction .. | .endEmergency ..
  | .checkExpiration .. | .registerBreaker .. | .triggerBreaker .. | .resetBreaker .. | .checkBreakerExpirations ..
  | .reportSignal .. | .pruneSignals .. | .startRecovery .. | .advanceRecovery .. | .createCheckpoint .. =>
    .isTrue trivial

instance (s : EmergencyContract) (op : EmergencyOp) : Decidable (s.AdvancesConfirmed op) :=
  match op with
  | .advanceRecovery _ => inferInstanceAs (Decidable (∀ r ∈ s.recovery, r.currentStep = .validatorReconfirmation →
    r.requiredConfirmations ≤ r.confirmations.card))
  | .setVotingPower .. | .voteEmergency .. | .declareAutomaticEmergency .. | .takeAction .. | .endEmergency ..
  | .checkExpiration .. | .registerBreaker .. | .triggerBreaker .. | .resetBreaker .. | .checkBreakerExpirations ..
  | .reportSignal .. | .pruneSignals .. | .startRecovery .. | .confirmRecovery .. | .createCheckpoint .. =>
    .isTrue trivial

/-- A confirmation stays one as long as no recovery starts. -/
theorem confirmedBy_concat_iff (checks : Bool) (ops : List EmergencyOp) (op : EmergencyOp) (v : AccountId) :
    ConfirmedBy checks (ops ++ [op]) v ↔
      (op = .confirmRecovery v ∧ (ops.foldl (step checks) new).recovery ≠ none ∧
        0 < (ops.foldl (step checks) new).powerOf v) ∨
      (ConfirmedBy checks ops v ∧ ∀ target required block, op = .startRecovery target required block →
        (ops.foldl (step checks) new).recovery ≠ none) := by
  constructor
  · rintro ⟨pre, mid, heq, hrec, hpower, hlater⟩
    rcases (Run.concat_eq_split_iff ops pre mid _ op).mp heq with ⟨rfl, rfl, -⟩ | ⟨mid, rfl, rfl⟩
    · exact .inl ⟨rfl, hrec, hpower⟩
    · refine .inr ⟨⟨pre, mid, rfl, hrec, hpower, ?_⟩, ?_⟩
      · rintro mid' target required block rest rfl
        exact hlater mid' target required block (rest ++ [op]) (by simp)
      · rintro target required block rfl
        exact hlater mid target required block [] rfl
  · rintro (⟨rfl, hrec, hpower⟩ | ⟨⟨pre, mid, rfl, hrec, hpower, hlater⟩, hstart⟩)
    · refine ⟨ops, [], rfl, hrec, hpower, ?_⟩
      intro mid' target required block rest heq
      simp at heq
    · refine ⟨pre, mid ++ [op], by simp, hrec, hpower, ?_⟩
      intro mid' target required block rest heq
      rcases (Run.concat_eq_split_iff mid mid' rest _ op).mp heq with ⟨rfl, rfl, -⟩ | ⟨rest, -, rfl⟩
      · exact hstart target required block rfl
      · exact hlater mid' target required block rest rfl

/-- The recorded confirmations hold those of validators with power. -/
theorem mem_confirmations (checks : Bool) (ops : List EmergencyOp) (r : RecoveryProcess) (v : AccountId)
    (hr : (ops.foldl (step checks) new).recovery = some r) (hv : ConfirmedBy checks ops v) :
    v ∈ r.confirmations := by
  induction ops using List.reverseRecOn generalizing r with
  | nil =>
    obtain ⟨pre, mid, heq, -⟩ := hv
    simp at heq
  | append_singleton ops op ih =>
    rw [List.foldl_append] at hr
    rcases (confirmedBy_concat_iff checks ops op v).mp hv with ⟨rfl, hrec, -⟩ | ⟨hv, hstart⟩
    · cases step_recovery checks (ops.foldl (step checks) new) (.confirmRecovery v) with
      | kept _ _ hconfirm => exact absurd (hconfirm v rfl) hrec
      | started target required block r' hop => cases hop
      | advanced block r' next hop => cases hop
      | confirmed w r' hop hbefore hafter =>
        cases hop
        cases hr.symm.trans hafter
        exact Finset.mem_insert_self v _
    · cases step_recovery checks (ops.foldl (step checks) new) op with
      | kept hrecovery => exact ih r (hrecovery.symm.trans hr) hv
      | started target required block r' hop hbefore => exact absurd hbefore (hstart target required block hop)
      | advanced block r' next hop hbefore hafter =>
        have hold := ih r' hbefore hv
        have heq := hr.symm.trans hafter
        split at heq
        · cases heq
        · cases heq
          exact hold
      | confirmed w r' hop hbefore hafter =>
        cases hr.symm.trans hafter
        exact Finset.mem_insert_of_mem (ih r' hbefore hv)

/-- Where only validators with power confirm, the recorded confirmations are theirs. -/
theorem confirmedBy_of_mem (checks : Bool) (ops : List EmergencyOp)
    (hpower : Run.Meets (step checks) ConfirmsWithPower new ops) (r : RecoveryProcess) (v : AccountId)
    (hr : (ops.foldl (step checks) new).recovery = some r) (hv : v ∈ r.confirmations) :
    ConfirmedBy checks ops v := by
  induction ops using List.reverseRecOn generalizing r with
  | nil => cases hr
  | append_singleton ops op ih =>
    rw [List.foldl_append] at hr
    obtain ⟨hbefore, hlast, -⟩ := (Run.meets_append (step checks) ConfirmsWithPower new ops [op]).mp hpower
    rw [confirmedBy_concat_iff]
    cases step_recovery checks (ops.foldl (step checks) new) op with
    | kept hrecovery hstart =>
      exact .inr ⟨ih hbefore r (hrecovery.symm.trans hr) hv, hstart⟩
    | started target required block r' hop hnone hafter hempty =>
      cases hr.symm.trans hafter
      rw [hempty] at hv
      cases hv
    | advanced block r' next hop hrec hafter =>
      have heq := hr.symm.trans hafter
      split at heq
      · cases heq
      · cases heq
        refine .inr ⟨ih hbefore r' hrec hv, ?_⟩
        rintro target required block' rfl
        cases hop
    | confirmed w r' hop hrec hafter =>
      cases hr.symm.trans hafter
      have hstart : ∀ target required block, op = .startRecovery target required block →
          (ops.foldl (step checks) new).recovery ≠ none := by
        rintro target required block rfl
        cases hop
      rcases Finset.mem_insert.mp hv with rfl | hv
      · subst hop
        rcases hlast r' hrec with hold | hpower
        · exact .inr ⟨ih hbefore r' hrec hold, hstart⟩
        · exact .inl ⟨rfl, by rw [hrec]; simp, hpower⟩
      · exact .inr ⟨ih hbefore r' hrec hv, hstart⟩

/-- **Reconfirmation.**  In a run in which only validators with voting power confirm, every recovery
that goes past the reconfirmation has its confirmations if and only if none is advanced before
they are recorded. -/
theorem reconfirmed_iff (checks : Bool) (ops : List EmergencyOp)
    (hpower : Run.Meets (step checks) ConfirmsWithPower new ops) :
    Reconfirmed checks ops ↔ Run.Meets (step checks) AdvancesConfirmed new ops := by
  rw [Run.meets_iff_split]
  constructor
  · rintro h pre op post rfl
    cases op with
    | advanceRecovery block =>
      intro r hr hstep
      obtain ⟨l, hcard, hl⟩ := h pre block post r rfl hr hstep
      exact hcard.trans (Finset.card_le_card fun v hv => mem_confirmations checks pre r v hr (hl v hv))
    | _ => trivial
  · rintro h pre block post r rfl hr hstep
    obtain ⟨hbefore, -⟩ := (Run.meets_append (step checks) ConfirmsWithPower new pre _).mp hpower
    exact ⟨r.confirmations, h pre _ post rfl r hr hstep,
      fun v hv => confirmedBy_of_mem checks pre hbefore r v hr hv⟩

/-- Two validators confirm a recovery that needs them. -/
def confirmedRecovery : List EmergencyOp :=
  [.setVotingPower ⟨1⟩ 60, .setVotingPower ⟨2⟩ 40, .startRecovery none 2 5, .confirmRecovery ⟨1⟩,
    .advanceRecovery 6, .advanceRecovery 7, .confirmRecovery ⟨2⟩, .advanceRecovery 8]

theorem reconfirmed_sample :
    Run.Meets (step true) ConfirmsWithPower new confirmedRecovery ∧ Reconfirmed true confirmedRecovery :=
  ⟨by decide +kernel, (reconfirmed_iff true confirmedRecovery (by decide +kernel)).mpr (by decide +kernel)⟩

/-- Nobody confirms a recovery that needs two confirmations. -/
def unconfirmedRecovery : List EmergencyOp :=
  [.startRecovery none 2 5, .advanceRecovery 6, .advanceRecovery 7, .advanceRecovery 8]

/-- An account without voting power confirms a recovery that needs one confirmation. -/
def powerlessRecovery : List EmergencyOp :=
  [.startRecovery none 1 5, .confirmRecovery ⟨9⟩, .advanceRecovery 6, .advanceRecovery 7, .advanceRecovery 8]

/-- Both recoveries go on to the fork decision. -/
theorem unconfirmed_advances :
    (unconfirmedRecovery.foldl (step true) new).recovery.map RecoveryProcess.currentStep = some .forkDecision ∧
    ¬ Reconfirmed true unconfirmedRecovery ∧
    (powerlessRecovery.foldl (step true) new).recovery.map RecoveryProcess.currentStep = some .forkDecision ∧
    ¬ Reconfirmed true powerlessRecovery := by
  refine ⟨by decide +kernel, fun h => ?_, by decide +kernel, fun h => ?_⟩
  · obtain ⟨l, hcard, hl⟩ := h (unconfirmedRecovery.take 3) 8 [] ⟨.validatorReconfirmation, 5, none, ∅, 2⟩ rfl
      (by decide +kernel) rfl
    have hsub : l ⊆ ∅ := fun v hv =>
      mem_confirmations true _ ⟨.validatorReconfirmation, 5, none, ∅, 2⟩ v (by decide +kernel) (hl v hv)
    rw [Finset.subset_empty.mp hsub] at hcard
    revert hcard
    decide
  · obtain ⟨l, hcard, hl⟩ := h (powerlessRecovery.take 4) 8 [] ⟨.validatorReconfirmation, 5, none, {⟨9⟩}, 1⟩ rfl
      (by decide +kernel) rfl
    obtain ⟨v, hv⟩ := Finset.card_pos.mp hcard
    -- nobody has voting power at any time
    obtain ⟨pre, mid, heq, -, hpower, -⟩ := hl v hv
    have hnone : ∀ k < 5, ((powerlessRecovery.take k).foldl (step true) new).votingPower = .empty := by decide +kernel
    have hlen : pre.length < 4 := by
      have := congrArg List.length heq
      simp [powerlessRecovery] at this
      omega
    have hpre := congrArg (List.take pre.length) heq
    rw [List.take_left, List.take_take, Nat.min_eq_left (by omega)] at hpre
    rw [powerOf, ← hpre, hnone pre.length (by omega)] at hpower
    cases hpower

end EmergencyContract

end Kratos
