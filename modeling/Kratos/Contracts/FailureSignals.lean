import Kratos.Contracts.Emergency

/-!
# Failure signals

What a reported signal ought to do is said here with integers: its severity, whether a
breaker's condition matches it, and whether the recent signals add up to an emergency.
`report_signal` computes in `u8` and `u32` and returns early when a cooldown forbids the
emergency; `signalTaken_iff` says of every state when it does what it ought to.
-/

namespace Kratos

/-! ## The meaning of a signal -/

/-- The severity, computed without overflow. -/
def FailureSignal.trueSeverity : FailureSignal → Nat
  | .validatorMassOffline offlineCount totalValidators =>
    let offlinePercent := offlineCount * 100 / max totalValidators 1
    if offlinePercent > 50 then 10 else if offlinePercent > 33 then 8 else if offlinePercent > 20 then 5 else 3
  | signal => (signal.severity false).getD 0

/-- The product in the severity has 32 bits. -/
def FailureSignal.Fits : FailureSignal → Prop
  | .validatorMassOffline offlineCount _ => offlineCount * 100 < 2 ^ 32
  | _ => True

/-- The condition of a breaker, with the share of validators online as an integer. -/
def SignalMatches : FailureSignal → BreakerCondition → Prop
  | .validatorMassOffline offlineCount totalValidators, .validatorParticipation minPercent =>
    (100 : Int) - (offlineCount * 100 / max totalValidators 1 : Nat) < minPercent
  | signal, condition => signalMatchesCondition false signal condition = some true

/-- The share of validators online is computed without overflow, and what it loses in a byte does
not hide that the condition is met. -/
def ConditionExact : FailureSignal → BreakerCondition → Prop
  | .validatorMassOffline offlineCount totalValidators, .validatorParticipation minPercent =>
    offlineCount * 100 < 2 ^ 32 ∧ offlineCount * 100 / max totalValidators 1 % 2 ^ 8 ≤ 100 ∧
      (100 < offlineCount * 100 / max totalValidators 1 →
        100 - offlineCount * 100 / max totalValidators 1 % 2 ^ 8 < minPercent)
  | _, _ => True

theorem severity_checked_eq_some_iff (signal : FailureSignal) (n : Nat) :
    signal.severity true = some n ↔ signal.Fits ∧ n = signal.trueSeverity := by
  cases signal with
  | validatorMassOffline offline total =>
    unfold FailureSignal.severity FailureSignal.Fits FailureSignal.trueSeverity
    rw [Option.map_eq_some_iff]
    constructor
    · rintro ⟨p, hp, rfl⟩
      obtain ⟨hlt, rfl⟩ := (Word.mulW_checked_eq_some_iff 32 offline 100 p).mp hp
      exact ⟨hlt, rfl⟩
    · rintro ⟨hlt, rfl⟩
      exact ⟨offline * 100, (Word.mulW_checked_eq_some_iff 32 offline 100 _).mpr ⟨hlt, rfl⟩, rfl⟩
  | _ =>
    unfold FailureSignal.Fits FailureSignal.trueSeverity
    rw [true_and]
    exact Option.some_inj.trans eq_comm

/-- The share of validators online, as it is computed and as it is. -/
theorem massOffline_matches (offline total minPercent : Nat) :
    ConditionExact (.validatorMassOffline offline total) (.validatorParticipation minPercent) ↔
      ∃ b, signalMatchesCondition true (.validatorMassOffline offline total) (.validatorParticipation minPercent) =
          some b ∧
        (SignalMatches (.validatorMassOffline offline total) (.validatorParticipation minPercent) ↔ b = true) := by
  generalize hq : offline * 100 / max total 1 = q
  have hmod := Nat.mod_le q (2 ^ 8)
  have hexact : ConditionExact (.validatorMassOffline offline total) (.validatorParticipation minPercent) ↔
      offline * 100 < 2 ^ 32 ∧ q % 2 ^ 8 ≤ 100 ∧ (100 < q → 100 - q % 2 ^ 8 < minPercent) := by
    rw [← hq]
    exact Iff.rfl
  have hmatches : SignalMatches (.validatorMassOffline offline total) (.validatorParticipation minPercent) ↔
      (100 : Int) - q < minPercent := by
    rw [← hq]
    exact Iff.rfl
  have hcode : signalMatchesCondition true (.validatorMassOffline offline total) (.validatorParticipation minPercent) =
      (Word.mulW true 32 offline 100).bind fun p =>
        (Word.subW true 8 100 (p / max total 1 % 2 ^ 8)).map fun online => decide (online < minPercent) := rfl
  rw [hexact, hmatches, hcode]
  constructor
  · rintro ⟨hlt, hle, hover⟩
    refine ⟨decide (100 - q % 2 ^ 8 < minPercent), ?_, ?_⟩
    · rw [Word.mulW_of_lt true 32 offline 100 hlt, Option.bind_some, hq, Word.subW, if_pos hle]
      rfl
    · rw [decide_eq_true_iff]
      by_cases hq100 : q ≤ 100
      · rw [Nat.mod_eq_of_lt (by omega)]
        omega
      · have := hover (by omega)
        omega
  · rintro ⟨b, hb, hiff⟩
    obtain ⟨p, hp, hb⟩ := Option.bind_eq_some_iff.mp hb
    obtain ⟨hlt, rfl⟩ := (Word.mulW_checked_eq_some_iff 32 offline 100 p).mp hp
    obtain ⟨online, hsub, rfl⟩ := Option.map_eq_some_iff.mp hb
    rw [hq] at hsub
    obtain ⟨hle, rfl⟩ := (Word.subW_checked_eq_some_iff 8 100 _ online).mp hsub
    rw [decide_eq_true_iff] at hiff
    exact ⟨hlt, hle, fun hover => hiff.mp (by omega)⟩

/-- Every other condition is compared as it is. -/
theorem conditionExact_iff (signal : FailureSignal) (condition : BreakerCondition) :
    ConditionExact signal condition ↔
      ∃ b, signalMatchesCondition true signal condition = some b ∧ (SignalMatches signal condition ↔ b = true) := by
  have hsame : ∀ b, signalMatchesCondition true signal condition = some b →
      signalMatchesCondition false signal condition = some b →
      (SignalMatches signal condition ↔ signalMatchesCondition false signal condition = some true) →
      ConditionExact signal condition →
      (ConditionExact signal condition ↔
        ∃ b, signalMatchesCondition true signal condition = some b ∧ (SignalMatches signal condition ↔ b = true)) := by
    intro b htrue hfalse hmatches hexact
    refine iff_of_true hexact ⟨b, htrue, ?_⟩
    rw [hmatches, hfalse, Option.some_inj]
  cases signal with
  | validatorMassOffline offline total =>
    cases condition with
    | validatorParticipation minPercent => exact massOffline_matches offline total minPercent
    | _ => exact hsame _ rfl rfl Iff.rfl trivial
  | _ => cases condition <;> exact hsame _ rfl rfl Iff.rfl trivial

/-- A byte loses nothing where the code finds a match. -/
theorem signalMatches_of_code (signal : FailureSignal) (condition : BreakerCondition)
    (h : signalMatchesCondition true signal condition = some true) : SignalMatches signal condition := by
  cases signal with
  | validatorMassOffline offline total =>
    cases condition with
    | validatorParticipation minPercent =>
      obtain ⟨p, hp, h⟩ := Option.bind_eq_some_iff.mp h
      obtain ⟨online, hsub, h⟩ := Option.map_eq_some_iff.mp h
      obtain ⟨-, rfl⟩ := (Word.mulW_checked_eq_some_iff 32 offline 100 p).mp hp
      obtain ⟨hle, rfl⟩ := (Word.subW_checked_eq_some_iff 8 100 _ online).mp hsub
      have hmod := Nat.mod_le (offline * 100 / max total 1) (2 ^ 8)
      have hlt := of_decide_eq_true h
      unfold SignalMatches
      omega
    | _ => exact h
  | _ => cases condition <;> exact h

/-! ## The breakers a test accepts -/

theorem EmergencyContract.idsWhere_eq_some_iff (p : CircuitBreaker → Option Bool) (l : List (String × CircuitBreaker))
    (ids : List String) :
    EmergencyContract.idsWhere p l = some ids ↔
      (∀ e ∈ l, (p e.2).isSome = true) ∧ ids = (l.filter fun e => p e.2 = some true).map Prod.fst := by
  induction l generalizing ids with
  | nil =>
    constructor
    · intro h
      cases h
      exact ⟨List.forall_mem_nil _, rfl⟩
    · rintro ⟨-, rfl⟩
      rfl
  | cons e l ih =>
    unfold EmergencyContract.idsWhere
    rw [Option.bind_eq_some_iff, List.forall_mem_cons]
    constructor
    · rintro ⟨b, hb, h⟩
      obtain ⟨ids', hids', rfl⟩ := Option.map_eq_some_iff.mp h
      obtain ⟨hall, rfl⟩ := (ih ids').mp hids'
      refine ⟨⟨by rw [hb]; rfl, hall⟩, ?_⟩
      cases b with
      | true => rw [if_pos rfl, List.filter_cons_of_pos (by rw [hb]; rfl), List.map_cons]
      | false => rw [if_neg Bool.false_ne_true, List.filter_cons_of_neg (by rw [hb]; simp)]
    · rintro ⟨⟨hsome, hall⟩, rfl⟩
      obtain ⟨b, hb⟩ := Option.isSome_iff_exists.mp hsome
      refine ⟨b, hb, Option.map_eq_some_iff.mpr ⟨_, (ih _).mpr ⟨hall, rfl⟩, ?_⟩⟩
      cases b with
      | true => rw [if_pos rfl, List.filter_cons_of_pos (by rw [hb]; rfl), List.map_cons]
      | false => rw [if_neg Bool.false_ne_true, List.filter_cons_of_neg (by rw [hb]; simp)]

namespace EmergencyContract

theorem severities_checked_eq_some_iff (l : List FailureSignal) (ns : List Nat) :
    severities true l = some ns ↔ (∀ signal ∈ l, signal.Fits) ∧ ns = l.map FailureSignal.trueSeverity := by
  induction l generalizing ns with
  | nil =>
    constructor
    · intro h
      cases h
      exact ⟨List.forall_mem_nil _, rfl⟩
    · rintro ⟨-, rfl⟩
      rfl
  | cons signal l ih =>
    unfold severities
    rw [Option.bind_eq_some_iff, List.forall_mem_cons, List.map_cons]
    constructor
    · rintro ⟨n, hn, h⟩
      obtain ⟨ns', hns', rfl⟩ := Option.map_eq_some_iff.mp h
      obtain ⟨hfits, rfl⟩ := (severity_checked_eq_some_iff signal n).mp hn
      obtain ⟨hall, rfl⟩ := (ih ns').mp hns'
      exact ⟨⟨hfits, hall⟩, rfl⟩
    · rintro ⟨⟨hfits, hall⟩, rfl⟩
      exact ⟨_, (severity_checked_eq_some_iff signal _).mpr ⟨hfits, rfl⟩,
        Option.map_eq_some_iff.mpr ⟨_, (ih _).mpr ⟨hall, rfl⟩, rfl⟩⟩

/-! ## Declarations -/

/-- The block lies within the cooldown of the last emergency. -/
def InCooldown (s : EmergencyContract) (block : Nat) : Prop :=
  ∃ ended, s.lastEmergencyEnded = some ended ∧ block < ended + emergencyCooldown

/-- The end of the cooldown, and of the emergency if one would be declared, are 64-bit blocks. -/
def DeclarationFits (s : EmergencyContract) (block : Nat) : Prop :=
  (∀ ended, s.lastEmergencyEnded = some ended → ended + emergencyCooldown < 2 ^ 64) ∧
    (s.state.active = false → ¬ s.InCooldown block → block + emergencyMaxDuration < 2 ^ 64)

theorem declarationFits_congr (s t : EmergencyContract) (block : Nat)
    (hended : t.lastEmergencyEnded = s.lastEmergencyEnded) (hactive : t.state.active = s.state.active) :
    t.DeclarationFits block ↔ s.DeclarationFits block := by
  unfold DeclarationFits InCooldown
  rw [hended, hactive]

theorem cooldown_checked (s : EmergencyContract) (block : Nat) (c : Option Nat)
    (h : s.cooldown true block = some c) :
    (∀ ended, s.lastEmergencyEnded = some ended → ended + emergencyCooldown < 2 ^ 64) ∧
      (c.isSome = true ↔ s.InCooldown block) := by
  unfold cooldown at h
  unfold InCooldown
  cases hended : s.lastEmergencyEnded with
  | none =>
    rw [hended] at h
    cases h
    simp
  | some ended =>
    rw [hended] at h
    obtain ⟨endsAt, hadd, rfl⟩ := Option.map_eq_some_iff.mp h
    obtain ⟨hlt, rfl⟩ := (Word.addW_checked_eq_some_iff 64 _ _ _).mp hadd
    refine ⟨?_, ?_⟩
    · rintro _ ⟨⟩
      exact hlt
    · split
      · next hin => simp [hin]
      · next hout =>
        simp only [Option.isSome_none, Bool.false_eq_true, false_iff]
        rintro ⟨_, ⟨⟩, hin⟩
        exact hout hin

theorem exists_cooldown (s : EmergencyContract) (block : Nat)
    (h : ∀ ended, s.lastEmergencyEnded = some ended → ended + emergencyCooldown < 2 ^ 64) :
    ∃ c, s.cooldown true block = some c := by
  unfold cooldown
  cases hended : s.lastEmergencyEnded with
  | none => exact ⟨none, rfl⟩
  | some ended =>
    simp only
    rw [Word.addW_of_lt true 64 _ _ (h ended hended)]
    exact ⟨_, rfl⟩

/-- What an automatic declaration does where it does not overflow. -/
theorem declareAutomaticEmergency_checked (s t : EmergencyContract) (trigger : EmergencyTrigger) (block : Nat)
    (r : Except EmergencyError Unit) (h : s.declareAutomaticEmergency true trigger block = some (t, r)) :
    s.DeclarationFits block ∧ t.breakers = s.breakers ∧ t.lastEmergencyEnded = s.lastEmergencyEnded ∧
      (s.state.active = true → t.state.active = true) ∧ (s.InCooldown block → t = s ∧ ∃ e, r = .error e) ∧
      (¬ s.InCooldown block → t.state.active = true ∧ (s.state.active = false → r = .ok ())) := by
  unfold declareAutomaticEmergency at h
  obtain ⟨c, hc, h⟩ := Option.bind_eq_some_iff.mp h
  obtain ⟨hcool, hiff⟩ := cooldown_checked s block c hc
  cases c with
  | some endsAt =>
    have hin := hiff.mp rfl
    cases h
    exact ⟨⟨hcool, fun _ hnot => absurd hin hnot⟩, rfl, rfl, id, fun _ => ⟨rfl, _, rfl⟩,
      fun hnot => absurd hin hnot⟩
  | none =>
    have hnot : ¬ s.InCooldown block := fun hin => Bool.false_ne_true (hiff.mpr hin)
    simp only [declareEmergency] at h
    split at h
    · next hactive =>
      cases h
      refine ⟨⟨hcool, fun hoff => ?_⟩, rfl, rfl, id, fun hin => absurd hin hnot, fun _ => ⟨hactive, fun hoff => ?_⟩⟩
      · rw [hactive] at hoff
        cases hoff
      · rw [hactive] at hoff
        cases hoff
    · obtain ⟨expiresAt, hexpires, heq⟩ := Option.map_eq_some_iff.mp h
      have hlt := ((Word.addW_checked_eq_some_iff 64 _ _ _).mp hexpires).1
      cases heq
      exact ⟨⟨hcool, fun _ _ => hlt⟩, rfl, rfl, fun _ => rfl, fun hin => absurd hin hnot, fun _ => ⟨rfl, fun _ => rfl⟩⟩

theorem exists_declareAutomaticEmergency (s : EmergencyContract) (trigger : EmergencyTrigger) (block : Nat)
    (h : s.DeclarationFits block) : ∃ t r, s.declareAutomaticEmergency true trigger block = some (t, r) := by
  obtain ⟨c, hc⟩ := exists_cooldown s block h.1
  unfold declareAutomaticEmergency
  rw [hc, Option.bind_some]
  cases c with
  | some endsAt => exact ⟨_, _, rfl⟩
  | none =>
    have hnot : ¬ s.InCooldown block := fun hin => Bool.false_ne_true ((cooldown_checked s block none hc).2.mpr hin)
    simp only [declareEmergency]
    split
    · exact ⟨_, _, rfl⟩
    · next hactive =>
      rw [Word.addW_of_lt true 64 _ _ (h.2 (by simpa using hactive) hnot)]
      exact ⟨_, _, rfl⟩

/-! ## Triggering -/

/-- A breaker that is ready to be triggered. -/
def Ready (s : EmergencyContract) (id : String) (b : CircuitBreaker) : Prop :=
  s.breakers.find? id = some b ∧ b.enabled = true ∧ b.isActive = false

theorem triggerBreaker_checked (s t : EmergencyContract) (id : String) (b : CircuitBreaker) (block : Nat)
    (r : Except EmergencyError Unit) (hr : s.Ready id b) (h : s.triggerBreaker true id block = some (t, r)) :
    (b.action = .triggerEmergency → s.DeclarationFits block) ∧ r = .ok () ∧
      t.breakers = s.breakers.insert id (b.trigger block) ∧ t.lastEmergencyEnded = s.lastEmergencyEnded ∧
      (s.state.active = true → t.state.active = true) ∧ (b.action ≠ .triggerEmergency → t.state = s.state) := by
  obtain ⟨hfind, henabled, hinactive⟩ := hr
  unfold triggerBreaker at h
  rw [hfind] at h
  simp only [henabled, hinactive, Bool.not_true, Bool.false_eq_true, if_false] at h
  split at h
  · next haction =>
    obtain ⟨⟨u, r'⟩, hu, heq⟩ := Option.map_eq_some_iff.mp h
    cases heq
    obtain ⟨hfits, hbreakers, hended, hactive, -, -⟩ := declareAutomaticEmergency_checked _ u _ block r' hu
    exact ⟨fun _ => hfits, rfl, hbreakers, hended, hactive, fun hne => absurd haction hne⟩
  · next haction =>
    cases h
    exact ⟨fun hb => absurd hb haction, rfl, rfl, rfl, fun h => h, fun _ => rfl⟩

theorem exists_triggerBreaker (s : EmergencyContract) (id : String) (b : CircuitBreaker) (block : Nat)
    (hr : s.Ready id b) (h : b.action = .triggerEmergency → s.DeclarationFits block) :
    ∃ t r, s.triggerBreaker true id block = some (t, r) := by
  obtain ⟨hfind, henabled, hinactive⟩ := hr
  unfold triggerBreaker
  rw [hfind]
  simp only [henabled, hinactive, Bool.not_true, Bool.false_eq_true, if_false]
  split
  · next haction =>
    obtain ⟨t, r, ht⟩ := exists_declareAutomaticEmergency
      { s with breakers := s.breakers.insert id (b.trigger block) } (.circuitBreakerTriggered id) block (h haction)
    rw [ht]
    exact ⟨_, _, rfl⟩
  · exact ⟨_, _, rfl⟩

/-- The breakers that are still to come are untouched. -/
theorem later_untouched (s t : EmergencyContract) (i : String) (b : CircuitBreaker) (ids : List String)
    (hi : i ∉ ids) (hbreakers : t.breakers = s.breakers.insert i b) (hready : ∀ j ∈ i :: ids, ∃ b, s.Ready j b) :
    (∀ j ∈ ids, t.breakers.find? j = s.breakers.find? j) ∧ ∀ j ∈ ids, ∃ b, t.Ready j b := by
  have hfind : ∀ j ∈ ids, t.breakers.find? j = s.breakers.find? j := by
    intro j hj
    rw [hbreakers, SortedMap.find?_insert_ne]
    rintro rfl
    exact hi hj
  refine ⟨hfind, fun j hj => ?_⟩
  obtain ⟨c, hc, hrest⟩ := hready j (List.mem_cons_of_mem i hj)
  exact ⟨c, (hfind j hj).trans hc, hrest⟩

/-- What triggering some breakers does: they are active and the others are as before. -/
theorem triggerAll_checked (block : Nat) (ids : List String) (s t : EmergencyContract)
    (r : Except EmergencyError Unit) (hnodup : ids.Nodup) (hready : ∀ id ∈ ids, ∃ b, s.Ready id b)
    (h : triggerAll true block s ids = some (t, r)) :
    (∀ id ∈ ids, ∀ b, s.breakers.find? id = some b → b.action = .triggerEmergency → s.DeclarationFits block) ∧
      (∀ id, t.breakers.find? id =
        if id ∈ ids then (s.breakers.find? id).map fun b => b.trigger block else s.breakers.find? id) := by
  induction ids generalizing s with
  | nil =>
    cases h
    exact ⟨by simp, by simp⟩
  | cons i ids ih =>
    unfold triggerAll at h
    obtain ⟨⟨u, r'⟩, hu, h⟩ := Option.bind_eq_some_iff.mp h
    rw [List.nodup_cons] at hnodup
    obtain ⟨b, hb⟩ := hready i List.mem_cons_self
    obtain ⟨hfits, rfl, hbreakers, hended, -, hquiet⟩ := triggerBreaker_checked s u i b block r' hb hu
    obtain ⟨hfind, hready'⟩ := later_untouched s u i _ ids hnodup.1 hbreakers hready
    obtain ⟨hrestFits, hrest⟩ := ih u hnodup.2 hready' h
    refine ⟨?_, ?_⟩
    · intro j hj c hc haction
      by_cases hfirst : b.action = .triggerEmergency
      · exact hfits hfirst
      · rcases List.mem_cons.mp hj with rfl | hj
        · rw [hb.1] at hc
          cases hc
          exact absurd haction hfirst
        · rw [← declarationFits_congr s u block hended (by rw [hquiet hfirst])]
          exact hrestFits j hj c ((hfind j hj).trans hc) haction
    · intro j
      rw [hrest j]
      by_cases hj : j ∈ ids
      · rw [if_pos hj, if_pos (List.mem_cons_of_mem i hj), hfind j hj]
      · rw [if_neg hj, hbreakers, SortedMap.find?_insert]
        by_cases hji : j = i
        · rw [if_pos hji, hji, if_pos List.mem_cons_self, hb.1]
          rfl
        · rw [if_neg hji, if_neg (by simp [hji, hj])]

theorem exists_triggerAll (block : Nat) (ids : List String) (s : EmergencyContract) (hnodup : ids.Nodup)
    (hready : ∀ id ∈ ids, ∃ b, s.Ready id b)
    (h : ∀ id ∈ ids, ∀ b, s.breakers.find? id = some b → b.action = .triggerEmergency → s.DeclarationFits block) :
    ∃ t r, triggerAll true block s ids = some (t, r) := by
  induction ids generalizing s with
  | nil => exact ⟨s, .ok (), rfl⟩
  | cons i ids ih =>
    rw [List.nodup_cons] at hnodup
    obtain ⟨b, hb⟩ := hready i List.mem_cons_self
    obtain ⟨u, r, hu⟩ := exists_triggerBreaker s i b block hb (h i List.mem_cons_self b hb.1)
    obtain ⟨-, rfl, hbreakers, hended, hactive, -⟩ := triggerBreaker_checked s u i b block r hb hu
    obtain ⟨hfind, hready'⟩ := later_untouched s u i _ ids hnodup.1 hbreakers hready
    -- an emergency that has begun needs no more room than one that has not
    have hfits : ∀ j ∈ ids, ∀ c, u.breakers.find? j = some c → c.action = .triggerEmergency →
        u.DeclarationFits block := by
      intro j hj c hc haction
      obtain ⟨hcool, hroom⟩ := h j (List.mem_cons_of_mem i hj) c ((hfind j hj).symm.trans hc) haction
      unfold DeclarationFits InCooldown
      rw [hended]
      refine ⟨hcool, fun hoff hnot => hroom ?_ hnot⟩
      by_contra hon
      rw [hactive (by simpa using hon)] at hoff
      cases hoff
    obtain ⟨t, r', ht⟩ := ih u hnodup.2 hready' hfits
    refine ⟨t, r', ?_⟩
    unfold triggerAll
    rw [hu]
    exact ht

/-! ## The automatic emergency -/

def recentSeverity (s : EmergencyContract) (block : Nat) : Nat :=
  ((s.recentSignals block).map FailureSignal.trueSeverity).sum

/-- The recent signals are enough for an emergency. -/
def Alarming (s : EmergencyContract) (block : Nat) : Prop :=
  minSignalsForEmergency ≤ (s.recentSignals block).length ∧ minSeverityForEmergency ≤ s.recentSeverity block

/-- An emergency would be declared but for the cooldown. -/
def Blocked (s : EmergencyContract) (block : Nat) : Prop :=
  s.state.active = false ∧ s.Alarming block ∧ s.InCooldown block

/-- Where the severities are added up, they and their sum fit, and so does the declaration. -/
def SeverityFits (s : EmergencyContract) (block : Nat) : Prop :=
  s.state.active = false → minSignalsForEmergency ≤ (s.recentSignals block).length →
    (∀ signal ∈ s.recentSignals block, signal.Fits) ∧ s.recentSeverity block < 2 ^ 8 ∧
      (minSeverityForEmergency ≤ s.recentSeverity block → s.DeclarationFits block)

theorem totalSeverity_checked_eq_some_iff (s : EmergencyContract) (block n : Nat) :
    (severities true (s.recentSignals block)).bind (Word.sumW true 8) = some n ↔
      (∀ signal ∈ s.recentSignals block, signal.Fits) ∧ s.recentSeverity block < 2 ^ 8 ∧
        n = s.recentSeverity block := by
  rw [Option.bind_eq_some_iff]
  constructor
  · rintro ⟨ns, hns, hsum⟩
    obtain ⟨hfits, rfl⟩ := (severities_checked_eq_some_iff _ ns).mp hns
    obtain ⟨hlt, rfl⟩ := (Word.sumW_checked_eq_some_iff 8 _ n).mp hsum
    exact ⟨hfits, hlt, rfl⟩
  · rintro ⟨hfits, hlt, rfl⟩
    exact ⟨_, (severities_checked_eq_some_iff _ _).mpr ⟨hfits, rfl⟩,
      (Word.sumW_checked_eq_some_iff 8 _ _).mpr ⟨hlt, rfl⟩⟩

/-- What the check for an emergency does where it does not overflow. -/
theorem checkAutomaticEmergency_checked (s t : EmergencyContract) (block : Nat) (r : Except EmergencyError Unit)
    (h : s.checkAutomaticEmergency true block = some (t, r)) :
    s.SeverityFits block ∧ t.breakers = s.breakers ∧ (t.DeclarationFits block ↔ s.DeclarationFits block) ∧
      (s.Blocked block → t = s ∧ ∃ e, r = .error e) ∧
      (¬ s.Blocked block →
        r = .ok () ∧ (s.state.active = true ∨ s.Alarming block ∧ ¬ s.InCooldown block → t.state.active = true)) := by
  unfold checkAutomaticEmergency at h
  split at h
  · next hon =>
    cases h
    have hoff : s.state.active ≠ false := by simp [hon]
    exact ⟨fun h => absurd h hoff, rfl, Iff.rfl, fun hb => absurd hb.1 hoff, fun _ => ⟨rfl, fun _ => hon⟩⟩
  · next hoff =>
    split at h
    · next hmany =>
      obtain ⟨n, hn, h⟩ := Option.bind_eq_some_iff.mp h
      obtain ⟨hfits, hlt, rfl⟩ := (totalSeverity_checked_eq_some_iff s block n).mp hn
      split at h
      · next hsevere =>
        have halarm : s.Alarming block := ⟨hmany, hsevere⟩
        obtain ⟨hdecl, hbreakers, hended, -, hin, hout⟩ := declareAutomaticEmergency_checked s t _ block r h
        refine ⟨fun _ _ => ⟨hfits, hlt, fun _ => hdecl⟩, hbreakers, ?_, fun hb => hin hb.2.2, fun hnot => ?_⟩
        · refine iff_of_true ⟨?_, fun hactive hcool => ?_⟩ hdecl
          · rw [hended]
            exact hdecl.1
          · unfold InCooldown at hcool
            rw [hended] at hcool
            rw [(hout hcool).1] at hactive
            cases hactive
        · have hcool : ¬ s.InCooldown block := fun hcool => hnot ⟨by simpa using hoff, halarm, hcool⟩
          exact ⟨(hout hcool).2 (by simpa using hoff), fun _ => (hout hcool).1⟩
      · next hmild =>
        cases h
        refine ⟨fun _ _ => ⟨hfits, hlt, fun hle => absurd hle hmild⟩, rfl, Iff.rfl,
          fun hb => absurd hb.2.1.2 hmild, fun _ => ⟨rfl, ?_⟩⟩
        rintro (hon | ⟨halarm, -⟩)
        · exact hon
        · exact absurd halarm.2 hmild
    · next hfew =>
      cases h
      refine ⟨fun _ hmany => absurd hmany hfew, rfl, Iff.rfl, fun hb => absurd hb.2.1.1 hfew, fun _ => ⟨rfl, ?_⟩⟩
      rintro (hon | ⟨halarm, -⟩)
      · exact hon
      · exact absurd halarm.1 hfew

theorem exists_checkAutomaticEmergency (s : EmergencyContract) (block : Nat) (h : s.SeverityFits block) :
    ∃ t r, s.checkAutomaticEmergency true block = some (t, r) := by
  unfold checkAutomaticEmergency
  split
  · exact ⟨_, _, rfl⟩
  · next hoff =>
    split
    · next hmany =>
      obtain ⟨hfits, hlt, hdecl⟩ := h (by simpa using hoff) hmany
      rw [(totalSeverity_checked_eq_some_iff s block _).mpr ⟨hfits, hlt, rfl⟩, Option.bind_some]
      split
      · next hsevere => exact exists_declareAutomaticEmergency s _ block (hdecl hsevere)
      · exact ⟨_, _, rfl⟩
    · exact ⟨_, _, rfl⟩

/-! ## The breakers of a signal -/

/-- Every enabled breaker that the signal matches is active. -/
def BreakersActive (s : EmergencyContract) (signal : FailureSignal) : Prop :=
  ∀ id b, s.breakers.find? id = some b → b.enabled = true → SignalMatches signal b.condition → b.isActive = true

/-- The conditions are compared exactly, and a breaker that declares an emergency has the room for it. -/
def BreakersFit (s : EmergencyContract) (signal : FailureSignal) (block : Nat) : Prop :=
  ∀ id b, s.Ready id b → ConditionExact signal b.condition ∧
    (SignalMatches signal b.condition → b.action = .triggerEmergency → s.DeclarationFits block)

/-- A breaker of which the code says that the signal matches. -/
def Matched (s : EmergencyContract) (signal : FailureSignal) (id : String) : Prop :=
  ∃ b, s.Ready id b ∧ signalMatchesCondition true signal b.condition = some true

/-- What the search for breakers finds, whatever the order. -/
theorem idsWhere_ready (o : IterOrder (String × CircuitBreaker)) (s : EmergencyContract) (signal : FailureSignal)
    (ids : List String) (h : idsWhere (fun b =>
      if b.enabled && !b.isActive then signalMatchesCondition true signal b.condition else some false)
      (o.iter s.breakers.entries) = some ids) :
    (∀ id b, s.Ready id b → (signalMatchesCondition true signal b.condition).isSome = true) ∧ ids.Nodup ∧
      ∀ id, id ∈ ids ↔ s.Matched signal id := by
  obtain ⟨hsome, rfl⟩ := (idsWhere_eq_some_iff _ _ ids).mp h
  have hready : ∀ id b, s.Ready id b → (id, b) ∈ o.iter s.breakers.entries ∧ (b.enabled && !b.isActive) = true := by
    rintro id b ⟨hfind, henabled, hinactive⟩
    refine ⟨(o.mem_iter _ _).mpr ((s.breakers.mem_entries_iff id b).mpr hfind), ?_⟩
    rw [henabled, hinactive]
    rfl
  refine ⟨fun id b hr => ?_, ?_, fun id => ?_⟩
  · obtain ⟨hmem, hcond⟩ := hready id b hr
    have := hsome (id, b) hmem
    simpa only [hcond, if_true] using this
  · have hsub := (List.filter_sublist (p := fun e : String × CircuitBreaker =>
      (if e.2.enabled && !e.2.isActive then signalMatchesCondition true signal e.2.condition else some false) =
        some true) (l := o.iter s.breakers.entries)).map Prod.fst
    exact hsub.nodup (((o.perm s.breakers.entries).map Prod.fst).nodup_iff.mpr s.breakers.keys_nodup)
  · rw [List.mem_map]
    constructor
    · rintro ⟨⟨id, b⟩, he, rfl⟩
      obtain ⟨hmem, hp⟩ := List.mem_filter.mp he
      simp only [decide_eq_true_eq] at hp
      split at hp
      · next hcond =>
        rw [Bool.and_eq_true, Bool.not_eq_true'] at hcond
        exact ⟨b, ⟨(s.breakers.mem_entries_iff id b).mp ((o.mem_iter _ _).mp hmem), hcond.1, hcond.2⟩, hp⟩
      · cases hp
    · rintro ⟨b, hr, hmatch⟩
      obtain ⟨hmem, hcond⟩ := hready id b hr
      refine ⟨(id, b), List.mem_filter.mpr ⟨hmem, ?_⟩, rfl⟩
      simp only [hcond, if_true, hmatch, decide_true]

theorem BreakersFit.idsWhere {s : EmergencyContract} {signal : FailureSignal} {block : Nat}
    (h : s.BreakersFit signal block) (o : IterOrder (String × CircuitBreaker)) :
    ∃ ids, idsWhere (fun b =>
      if b.enabled && !b.isActive then signalMatchesCondition true signal b.condition else some false)
      (o.iter s.breakers.entries) = some ids := by
  refine ⟨_, (idsWhere_eq_some_iff _ _ _).mpr ⟨?_, rfl⟩⟩
  rintro ⟨id, b⟩ he
  split
  · next hcond =>
    rw [Bool.and_eq_true, Bool.not_eq_true'] at hcond
    obtain ⟨c, hc, -⟩ := (conditionExact_iff signal b.condition).mp
      (h id b ⟨(s.breakers.mem_entries_iff id b).mp ((o.mem_iter _ _).mp he), hcond.1, hcond.2⟩).1
    rw [hc]
    rfl
  · rfl

/-- What the code says of a breaker that is checked is so. -/
theorem BreakersFit.matches_iff {s : EmergencyContract} {signal : FailureSignal} {block : Nat}
    (h : s.BreakersFit signal block) {id : String} {b : CircuitBreaker} (hr : s.Ready id b) :
    SignalMatches signal b.condition ↔ signalMatchesCondition true signal b.condition = some true := by
  obtain ⟨c, hc, hiff⟩ := (conditionExact_iff signal b.condition).mp (h id b hr).1
  rw [hiff, hc, Option.some_inj]

/-- A check that leaves the breakers of the signal active was exact. -/
theorem breakersFit_of_active (o : IterOrder (String × CircuitBreaker)) (s t : EmergencyContract)
    (signal : FailureSignal) (block : Nat) (r : Except EmergencyError Unit)
    (h : s.checkBreakerConditions o true signal block = some (t, r)) (hactive : t.BreakersActive signal) :
    s.BreakersFit signal block := by
  intro id b hr
  obtain ⟨ids, hids, h⟩ := Option.bind_eq_some_iff.mp h
  obtain ⟨hsome, hnodup, hmem⟩ := idsWhere_ready o s signal ids hids
  obtain ⟨hfits, hfind⟩ := triggerAll_checked block ids s t r hnodup
    (fun j hj => ((hmem j).mp hj).imp fun c hc => hc.1) h
  obtain ⟨c, hc⟩ := Option.isSome_iff_exists.mp (hsome id b hr)
  have hid : id ∈ ids ↔ c = true := by
    rw [hmem]
    constructor
    · rintro ⟨b', hr', hmatch⟩
      obtain rfl := Option.some.inj (hr.1.symm.trans hr'.1)
      rw [hc] at hmatch
      exact Option.some.inj hmatch
    · rintro rfl
      exact ⟨b, hr, hc⟩
  -- a breaker that matches and was not found would have stayed inactive
  have himp : SignalMatches signal b.condition → c = true := by
    intro hmatch
    by_contra hne
    have hstays := hfind id
    rw [if_neg (mt hid.mp hne), hr.1] at hstays
    have := hactive id b hstays hr.2.1 hmatch
    rw [hr.2.2] at this
    cases this
  refine ⟨(conditionExact_iff signal b.condition).mpr ⟨c, hc, himp, ?_⟩, fun hmatch => ?_⟩
  · rintro rfl
    exact signalMatches_of_code signal b.condition hc
  · exact hfits id (hid.mpr (himp hmatch)) b hr.1

/-- **Breakers.**  The breakers of a signal are active after the check exactly if the check is exact. -/
theorem checkBreakerConditions_iff (o : IterOrder (String × CircuitBreaker)) (s : EmergencyContract)
    (signal : FailureSignal) (block : Nat) :
    (∃ t r, s.checkBreakerConditions o true signal block = some (t, r) ∧ t.BreakersActive signal) ↔
      s.BreakersFit signal block := by
  constructor
  · rintro ⟨t, r, h, hactive⟩
    exact breakersFit_of_active o s t signal block r h hactive
  · intro hfit
    obtain ⟨ids, hids⟩ := hfit.idsWhere o
    obtain ⟨-, hnodup, hmem⟩ := idsWhere_ready o s signal ids hids
    have hready := fun j hj => ((hmem j).mp hj).imp fun c hc => hc.1
    obtain ⟨t, r, ht⟩ := exists_triggerAll block ids s hnodup hready (by
      intro j hj b hb haction
      obtain ⟨b', hr, hcode⟩ := (hmem j).mp hj
      obtain rfl := Option.some.inj (hb.symm.trans hr.1)
      exact (hfit j b hr).2 ((hfit.matches_iff hr).mpr hcode) haction)
    obtain ⟨-, hfind⟩ := triggerAll_checked block ids s t r hnodup hready ht
    refine ⟨t, r, by rw [checkBreakerConditions, hids, Option.bind_some, ht], fun id b hb henabled hmatch => ?_⟩
    rw [hfind id] at hb
    split at hb
    · obtain ⟨b', -, rfl⟩ := Option.map_eq_some_iff.mp hb
      rfl
    · next hnot =>
      by_contra hinactive
      have hr : s.Ready id b := ⟨hb, henabled, by simpa using hinactive⟩
      exact hnot ((hmem id).mpr ⟨b, hr, (hfit.matches_iff hr).mp hmatch⟩)

theorem checkBreakerConditions_active (o : IterOrder (String × CircuitBreaker)) (s t : EmergencyContract)
    (signal : FailureSignal) (block : Nat) (r : Except EmergencyError Unit) (hon : s.state.active = true)
    (h : s.checkBreakerConditions o true signal block = some (t, r)) : t.state.active = true := by
  obtain ⟨ids, -, h⟩ := Option.bind_eq_some_iff.mp h
  rcases (mayDeclare_triggerAll true block ids s t r h).state_cases with hs | ⟨trigger, expiresAt, -, -, hs⟩
  · rw [hs]
    exact hon
  · rw [hs]
    rfl

/-! ## Reports -/

def withSignal (s : EmergencyContract) (signal : FailureSignal) (block : Nat) : EmergencyContract :=
  { s with signals := s.signals ++ [(block, signal)] }

/-- Nothing overflows, the breakers of the signal are active after the report, and so is an emergency
that was or that the signals call for outside a cooldown. -/
def SignalTaken (o : IterOrder (String × CircuitBreaker)) (s : EmergencyContract) (signal : FailureSignal)
    (block : Nat) : Prop :=
  ∃ t r, s.reportSignal o true signal block = some (t, r) ∧ t.BreakersActive signal ∧
    (s.state.active = true ∨ (s.withSignal signal block).Alarming block ∧ ¬ s.InCooldown block →
      t.state.active = true)

/-- The severities fit; in a cooldown that blocks the emergency no breaker is left to be triggered, and
otherwise the breakers fit. -/
structure SignalFits (s : EmergencyContract) (signal : FailureSignal) (block : Nat) : Prop where
  severity : signal.Fits
  severities : (s.withSignal signal block).SeverityFits block
  blocked : (s.withSignal signal block).Blocked block → s.BreakersActive signal
  breakers : ¬ (s.withSignal signal block).Blocked block → s.BreakersFit signal block

theorem breakersFit_congr (s t : EmergencyContract) (signal : FailureSignal) (block : Nat)
    (hbreakers : t.breakers = s.breakers) (hfits : t.DeclarationFits block ↔ s.DeclarationFits block) :
    t.BreakersFit signal block ↔ s.BreakersFit signal block := by
  unfold BreakersFit Ready
  rw [hbreakers, hfits]

theorem signalTaken_iff (o : IterOrder (String × CircuitBreaker)) (s : EmergencyContract) (signal : FailureSignal)
    (block : Nat) : SignalTaken o s signal block ↔ s.SignalFits signal block := by
  unfold SignalTaken reportSignal
  constructor
  · rintro ⟨t, r, h, hactive, hon⟩
    obtain ⟨n, hn, h⟩ := Option.bind_eq_some_iff.mp h
    obtain ⟨⟨u, r'⟩, hu, h⟩ := Option.bind_eq_some_iff.mp h
    have hsev := ((severity_checked_eq_some_iff signal n).mp hn).1
    obtain ⟨hsum, hbreakers, hdecl, hin, hout⟩ :=
      checkAutomaticEmergency_checked (s.withSignal signal block) u block r' hu
    by_cases hblocked : (s.withSignal signal block).Blocked block
    · obtain ⟨rfl, e, rfl⟩ := hin hblocked
      cases h
      exact ⟨hsev, hsum, fun _ => hactive, fun hnot => absurd hblocked hnot⟩
    · obtain ⟨rfl, huon⟩ := hout hblocked
      refine ⟨hsev, hsum, fun hb => absurd hb hblocked, fun _ => ?_⟩
      refine (breakersFit_congr s u signal block hbreakers hdecl).mp ?_
      exact (checkBreakerConditions_iff o u signal block).mp ⟨t, r, h, hactive⟩
  · rintro ⟨hsev, hsum, hblocked, hfree⟩
    obtain ⟨u, r, hu⟩ := exists_checkAutomaticEmergency (s.withSignal signal block) block hsum
    obtain ⟨-, hbreakers, hdecl, hin, hout⟩ :=
      checkAutomaticEmergency_checked (s.withSignal signal block) u block r hu
    rw [(severity_checked_eq_some_iff signal _).mpr ⟨hsev, rfl⟩, Option.bind_some]
    by_cases hb : (s.withSignal signal block).Blocked block
    · obtain ⟨rfl, e, rfl⟩ := hin hb
      refine ⟨_, .error e, Option.bind_eq_some_iff.mpr ⟨_, hu, rfl⟩, hblocked hb, ?_⟩
      rintro (hon | ⟨-, hcool⟩)
      · exact hon
      · exact absurd hb.2.2 hcool
    · obtain ⟨rfl, huon⟩ := hout hb
      obtain ⟨t, r, ht, hactive⟩ := (checkBreakerConditions_iff o u signal block).mpr
        ((breakersFit_congr s u signal block hbreakers hdecl).mpr (hfree hb))
      exact ⟨t, r, Option.bind_eq_some_iff.mpr ⟨_, hu, ht⟩, hactive,
        fun h => checkBreakerConditions_active o u t signal block r (huon h) ht⟩

/-- **Failure signals.**  In whatever state a run has reached, in either build, a report does what it
ought to exactly if the signal fits there. -/
theorem signals_taken_iff (o : IterOrder (String × CircuitBreaker)) (checks : Bool) (ops : List EmergencyOp)
    (signal : FailureSignal) (block : Nat) :
    SignalTaken o (ops.foldl (step checks) new) signal block ↔
      (ops.foldl (step checks) new).SignalFits signal block :=
  signalTaken_iff o _ signal block

/-- An emergency that ended at block 10, and a signal in the cooldown after it. -/
def signalInCooldown : List EmergencyOp :=
  [.declareAutomaticEmergency (.criticalBug ⟨0⟩ "x") 0, .endEmergency .resolved 10,
    .reportSignal .stored (.economicAnomaly "x" 10) 20]

/-- A second signal calls for an emergency, which the cooldown forbids; so the breaker that it matches
is never asked. -/
theorem cooldown_drops_signal :
    ¬ SignalTaken .stored (signalInCooldown.foldl (step true) new) (.consensusStall 11) 21 := by
  rintro ⟨t, r, h, hactive, -⟩
  have hbreaker : ((signalInCooldown.foldl (step true) new).reportSignal .stored true (.consensusStall 11) 21).map
      (fun p => p.1.breakers.find? "finality_delay") =
        some (some (CircuitBreaker.new "finality_delay" "Finality Delay Breaker" (.finalityDelay 3)
          (.slowBlockTime 2) defaultBreakerDuration)) := by
    decide +kernel
  rw [h] at hbreaker
  have hmatch : signalMatchesCondition false (.consensusStall 11) (.finalityDelay 3) = some true := by decide
  have := hactive _ _ (Option.some.inj hbreaker) rfl hmatch
  cases this

end EmergencyContract

end Kratos
