import Kratos.Contracts.Emergency

/-!
# Emergency powers

An approval counts with the power its validator has when it is given.  It is no more
than what the validator has later, as long as no power of a validator that approved is
lowered; then an emergency declared by a vote has three quarters of the power behind it
when it begins (`emergency_sound`).  An action is taken while an emergency is active,
and it is active until someone asks whether it has expired.
-/

namespace Kratos

namespace EmergencyContract

/-- All the voting power there is. -/
def totalOf (s : EmergencyContract) : Nat := s.votingPower.values.sum

def powerOf (s : EmergencyContract) (v : AccountId) : Nat := (s.votingPower.find? v).getD 0

/-- The present power of the validators that approved. -/
def declaringPower (s : EmergencyContract) : Nat := ∑ v ∈ s.state.declaringValidators, s.powerOf v

def Declares (checks : Bool) (s : EmergencyContract) (op : EmergencyOp) : Prop :=
  s.state.active = false ∧ (s.step checks op).state.active = true

def Ends (checks : Bool) (s : EmergencyContract) (op : EmergencyOp) : Prop :=
  s.state.active = true ∧ (s.step checks op).state.active = false

/-- An emergency that a vote declares has three quarters of the present power behind it. -/
def Consented (checks : Bool) (s : EmergencyContract) (op : EmergencyOp) : Prop :=
  Declares checks s op → (∃ percent count, (s.step checks op).state.trigger = some (.validatorVote percent count)) →
    75 * (s.step checks op).totalOf ≤ 100 * (s.step checks op).declaringPower

/-- An action is taken before the emergency expires. -/
def Timely (s : EmergencyContract) (op : EmergencyOp) : Prop :=
  ∀ action block, op = .takeAction action block → (s.takeAction action block).2 = .ok () →
    ∃ expiresAt, s.state.expiresAt = some expiresAt ∧ block < expiresAt

/-- A declaration after the end of another emergency waits for the cooldown. -/
def Cooled (checks : Bool) (ops : List EmergencyOp) : Prop :=
  ∀ pre a mid b post, ops = pre ++ a :: (mid ++ b :: post) → Ends checks (pre.foldl (step checks) new) a →
    Declares checks ((pre ++ a :: mid).foldl (step checks) new) b →
    ∃ ended declared, a.block = some ended ∧ b.block = some declared ∧ ended + emergencyCooldown ≤ declared

/-- The power of a validator that has approved is not lowered, the power fits 64 bits, the votes
are cast by `vote_emergency`, the ends leave room for the cooldown and actions are asked for in time. -/
def InBounds (s : EmergencyContract) : EmergencyOp → Prop
  | .setVotingPower v power =>
    (s.state.active = false → v ∈ s.state.declaringValidators → s.powerOf v ≤ power) ∧
      s.totalOf + power < 2 ^ 64 + s.powerOf v
  | .declareAutomaticEmergency trigger _ => Automatic trigger
  | .takeAction _ block => s.state.active = true → ∀ expiresAt ∈ s.state.expiresAt, block < expiresAt
  | .endEmergency _ block | .checkExpiration block => s.state.active = true → block + emergencyCooldown < 2 ^ 64
  | _ => True

instance (trigger : EmergencyTrigger) : Decidable (Automatic trigger) := by
  cases trigger <;> unfold Automatic <;> infer_instance

instance (s : EmergencyContract) (op : EmergencyOp) : Decidable (s.InBounds op) := by
  cases op <;> unfold InBounds <;> infer_instance

/-- What runs in bounds keep. -/
structure Counted (s : EmergencyContract) : Prop where
  approval_le : s.state.active = false → s.state.approvalPower ≤ s.declaringPower
  totalPower_eq : s.state.totalPower = s.totalOf
  total_lt : s.totalOf < 2 ^ 64
  expires : s.state.active = true → ∃ expiresAt, s.state.expiresAt = some expiresAt
  ended_lt : ∀ ended, s.lastEmergencyEnded = some ended → ended + emergencyCooldown < 2 ^ 64

/-! ## Power -/

theorem totalOf_eq_sumOf (s : EmergencyContract) : s.totalOf = s.votingPower.sumOf fun _ power => power := by
  unfold totalOf SortedMap.sumOf SortedMap.values
  rfl

/-- What a validator had is replaced by what it is given. -/
theorem totalOf_powered (s t : EmergencyContract) (v : AccountId) (power : Nat)
    (h : t.votingPower = if power > 0 then s.votingPower.insert v power else s.votingPower.erase v) :
    t.totalOf + s.powerOf v = s.totalOf + power := by
  rw [totalOf_eq_sumOf, totalOf_eq_sumOf, h]
  have hold : (s.votingPower.find? v).elim 0 (fun power => power) = s.powerOf v := by
    unfold powerOf
    cases s.votingPower.find? v <;> rfl
  split
  · have := SortedMap.sumOf_insert (fun _ power => power) s.votingPower v power
    omega
  · next hzero =>
    have := SortedMap.sumOf_erase (fun _ power => power) s.votingPower v
    omega

theorem powerOf_powered (s t : EmergencyContract) (v w : AccountId) (power : Nat)
    (h : t.votingPower = if power > 0 then s.votingPower.insert v power else s.votingPower.erase v) :
    t.powerOf w = if w = v then power else s.powerOf w := by
  unfold powerOf
  rw [h]
  split
  · rw [SortedMap.find?_insert]
    split <;> rfl
  · next hzero =>
    rw [SortedMap.find?_erase]
    split
    · exact (Nat.eq_zero_of_not_pos hzero).symm
    · rfl

theorem declaringPower_congr (s t : EmergencyContract) (hpower : t.votingPower = s.votingPower)
    (hvalidators : t.state.declaringValidators = s.state.declaringValidators) :
    t.declaringPower = s.declaringPower := by
  unfold declaringPower powerOf
  rw [hpower, hvalidators]

theorem totalOf_congr (s t : EmergencyContract) (h : t.votingPower = s.votingPower) : t.totalOf = s.totalOf := by
  unfold totalOf
  rw [h]

theorem Approval.frame {checks : Bool} {s t : EmergencyContract} {voter : AccountId} (h : Approval checks s voter t) :
    t.votingPower = s.votingPower ∧ t.lastEmergencyEnded = s.lastEmergencyEnded ∧
      t.state.active = s.state.active ∧ t.state.totalPower = s.state.totalPower ∧
      t.state.expiresAt = s.state.expiresAt := by
  cases h with
  | rejected => exact ⟨rfl, rfl, rfl, rfl, rfl⟩
  | approved power approvalPower hpower hnew hadd => exact ⟨rfl, rfl, rfl, rfl, rfl⟩

/-- An approval adds to the tally at most what it adds to the power behind it. -/
theorem Approval.approval_le {checks : Bool} {s t : EmergencyContract} {voter : AccountId}
    (h : Approval checks s voter t) (hs : s.state.approvalPower ≤ s.declaringPower) :
    t.state.approvalPower ≤ t.declaringPower := by
  cases h with
  | rejected => exact hs
  | approved power approvalPower hpower hnew hadd =>
    have hle := Word.le_of_addW checks 64 _ _ _ hadd
    have hown : s.powerOf voter = power := by rw [powerOf, hpower]; rfl
    show approvalPower ≤ ∑ v ∈ insert voter s.state.declaringValidators, s.powerOf v
    rw [Finset.sum_insert hnew, hown]
    unfold declaringPower at hs
    omega

/-- Three quarters in percent are three quarters of the total. -/
theorem le_of_approvalPercent (checks : Bool) (st : EmergencyState) (percent : Nat)
    (h : st.approvalPercent checks = some percent) (hge : emergencyApprovalThreshold ≤ percent) :
    75 * st.totalPower ≤ 100 * st.approvalPower := by
  unfold EmergencyState.approvalPercent at h
  unfold emergencyApprovalThreshold at hge
  split at h
  · cases h
    omega
  · next hzero =>
    obtain ⟨p, hp, rfl⟩ := Option.map_eq_some_iff.mp h
    have hle := Word.le_of_mulW checks 64 _ _ _ hp
    have hdiv : 75 ≤ p / st.totalPower := le_trans hge (Nat.mod_le _ _)
    have hmul := (Nat.le_div_iff_mul_le (Nat.pos_of_ne_zero hzero)).mp hdiv
    omega

/-! ## One call -/

theorem counted_new : new.Counted where
  approval_le := fun _ => Nat.le_refl 0
  totalPower_eq := rfl
  total_lt := by
    show 0 < 2 ^ 64
    omega
  expires := fun h => absurd h Bool.false_ne_true
  ended_lt := fun ended h => by cases h

/-- The total that is written is the total there is. -/
theorem sumW_eq_totalOf (checks : Bool) (s : EmergencyContract) (n : Nat) (hlt : s.totalOf < 2 ^ 64)
    (h : Word.sumW checks 64 s.votingPower.values = some n) : n = s.totalOf := by
  rw [Word.sumW_of_lt checks 64 _ hlt] at h
  exact (Option.some.inj h).symm

/-- A change that leaves the power and the last end alone. -/
theorem Counted.of_same {s t : EmergencyContract} (h : s.Counted) (hpower : t.votingPower = s.votingPower)
    (htotalPower : t.state.totalPower = s.state.totalPower) (hended : t.lastEmergencyEnded = s.lastEmergencyEnded)
    (happroval : t.state.active = false → t.state.approvalPower ≤ t.declaringPower)
    (hexpires : t.state.active = true → ∃ expiresAt, t.state.expiresAt = some expiresAt) : t.Counted where
  approval_le := happroval
  totalPower_eq := by rw [htotalPower, totalOf_congr s t hpower, h.totalPower_eq]
  total_lt := by rw [totalOf_congr s t hpower]; exact h.total_lt
  expires := hexpires
  ended_lt := by rw [hended]; exact h.ended_lt

/-- No power of a validator that approved is lowered. -/
theorem declaringPower_le_powered (s t : EmergencyContract) (v : AccountId) (power : Nat)
    (hpower : t.votingPower = if power > 0 then s.votingPower.insert v power else s.votingPower.erase v)
    (hvalidators : t.state.declaringValidators = s.state.declaringValidators)
    (hlower : v ∈ s.state.declaringValidators → s.powerOf v ≤ power) : s.declaringPower ≤ t.declaringPower := by
  unfold declaringPower
  rw [hvalidators]
  apply Finset.sum_le_sum
  intro w hw
  rw [powerOf_powered s t v w power hpower]
  split
  · next hwv =>
    rw [hwv] at hw ⊢
    exact hlower hw
  · exact Nat.le_refl _

theorem step_counted (checks : Bool) (s : EmergencyContract) (op : EmergencyOp) (h : s.Counted)
    (hb : s.InBounds op) : (s.step checks op).Counted := by
  cases step_step checks s op with
  | quiet hstate hpower hended =>
    refine h.of_same hpower (by rw [hstate]) hended ?_ ?_
    · rw [hstate, declaringPower_congr s _ hpower (by rw [hstate])]
      exact h.approval_le
    · rw [hstate]
      exact h.expires
  | acted action block hop hactive ht =>
    rw [ht]
    exact h.of_same rfl rfl rfl h.approval_le h.expires
  | powered v power totalPower hop hpower hsum hstate hended =>
    subst hop
    obtain ⟨hlower, hfits⟩ := hb
    have htotal := totalOf_powered s _ v power hpower
    have hlt : (s.step checks (.setVotingPower v power)).totalOf < 2 ^ 64 := by omega
    refine ⟨?_, ?_, hlt, ?_, ?_⟩
    · intro hoff
      rw [hstate] at hoff ⊢
      exact le_trans (h.approval_le hoff)
        (declaringPower_le_powered s _ v power hpower (by rw [hstate]) (hlower hoff))
    · rw [hstate]
      exact sumW_eq_totalOf checks _ totalPower hlt hsum
    · rw [hstate]
      exact h.expires
    · rw [hended]
      exact h.ended_lt
  | voted voter approves block hop hoff happ =>
    obtain ⟨hpower, hended, hactive, htotalPower, hexpires⟩ := happ.frame
    refine h.of_same hpower htotalPower hended (fun _ => happ.approval_le (h.approval_le hoff)) ?_
    rw [hactive, hexpires]
    exact h.expires
  | elected voter approves block percent count expiresAt u hop happ hpercent hge hcan ht =>
    obtain ⟨hpower, hended, -, htotalPower, -⟩ := happ.frame
    rw [ht]
    exact h.of_same hpower htotalPower hended (fun hoff => absurd hoff.symm Bool.false_ne_true)
      (fun _ => ⟨expiresAt, rfl⟩)
  | declared trigger block expiresAt hblock htrigger hcan hstate hpower hended =>
    refine h.of_same hpower (by rw [hstate]; rfl) hended ?_ ?_
    · rw [hstate]
      exact fun hoff => absurd hoff.symm Bool.false_ne_true
    · rw [hstate]
      exact fun _ => ⟨expiresAt, rfl⟩
  | ended block totalPower hblock hactive hop hsum hstate hpower hended =>
    have hroom : block + emergencyCooldown < 2 ^ 64 := by
      rcases hop with ⟨outcome, rfl⟩ | rfl
      · exact hb hactive
      · exact hb hactive
    have htotal := totalOf_congr s _ hpower
    refine ⟨?_, ?_, ?_, ?_, ?_⟩
    · intro _
      rw [hstate]
      exact Nat.zero_le _
    · rw [hstate, htotal]
      exact sumW_eq_totalOf checks s totalPower h.total_lt hsum
    · rw [htotal]
      exact h.total_lt
    · rw [hstate]
      exact fun hon => absurd hon Bool.false_ne_true
    · rw [hended]
      rintro _ ⟨⟩
      exact hroom

theorem step_consented (checks : Bool) (s : EmergencyContract) (op : EmergencyOp) (h : s.Counted)
    (hb : s.InBounds op) : Consented checks s op := by
  rintro ⟨hoff, hon⟩ ⟨p, n, hvote⟩
  cases step_step checks s op with
  | quiet hstate hpower hended =>
    rw [hstate, hoff] at hon
    cases hon
  | acted action block hop hactive ht =>
    rw [hoff] at hactive
    cases hactive
  | powered v power totalPower hop hpower hsum hstate hended =>
    rw [hstate] at hon
    exact absurd (hoff.symm.trans hon) Bool.false_ne_true
  | voted voter approves block hop hoff' happ =>
    rw [happ.frame.2.2.1, hoff] at hon
    cases hon
  | elected voter approves block percent count expiresAt u hop happ hpercent hge hcan ht =>
    obtain ⟨hpower, -, -, htotalPower, -⟩ := happ.frame
    have hle := le_of_approvalPercent checks u.state percent hpercent hge
    have hbehind := happ.approval_le (h.approval_le hoff)
    have htotal := totalOf_congr s u hpower
    rw [ht]
    show 75 * u.totalOf ≤ 100 * u.declaringPower
    rw [htotalPower, h.totalPower_eq] at hle
    omega
  | declared trigger block expiresAt hblock htrigger hcan hstate hpower hended =>
    -- no automatic declaration is a vote
    have hauto : Automatic trigger := by
      rcases htrigger with rfl | hauto
      · exact hb
      · exact hauto
    rw [hstate] at hvote
    cases hvote
    exact hauto.elim
  | ended block totalPower hblock hactive hop hsum hstate hpower hended =>
    rw [hoff] at hactive
    cases hactive

theorem step_timely (s : EmergencyContract) (op : EmergencyOp) (h : s.Counted) (hb : s.InBounds op) :
    s.Timely op := by
  rintro action block rfl hok
  have hactive : s.state.active = true := by
    by_contra hoff
    rw [takeAction, if_pos (by simpa using hoff)] at hok
    cases hok
  obtain ⟨expiresAt, he⟩ := h.expires hactive
  exact ⟨expiresAt, he, hb hactive expiresAt he⟩

/-! ## The cooldown -/

/-- The last emergency ended at the block or later, with room for the cooldown. -/
def EndedSince (block : Nat) (s : EmergencyContract) : Prop :=
  ∃ ended, s.lastEmergencyEnded = some ended ∧ block ≤ ended ∧ ended + emergencyCooldown < 2 ^ 64

theorem step_endedSince (checks : Bool) (block : Nat) (s : EmergencyContract) (op : EmergencyOp)
    (h : s.EndedSince block) (hb : s.InBounds op) (hlater : ∀ b, op.block = some b → block ≤ b) :
    (s.step checks op).EndedSince block := by
  obtain ⟨ended, hended, hle, hlt⟩ := h
  cases step_step checks s op with
  | quiet hstate hpower he => exact ⟨ended, he.trans hended, hle, hlt⟩
  | acted action b hop hactive ht => exact ⟨ended, by rw [ht]; exact hended, hle, hlt⟩
  | powered v power totalPower hop hpower hsum hstate he => exact ⟨ended, he.trans hended, hle, hlt⟩
  | voted voter approves b hop hoff happ => exact ⟨ended, happ.frame.2.1.trans hended, hle, hlt⟩
  | elected voter approves b percent count expiresAt u hop happ hpercent hge hcan ht =>
    exact ⟨ended, by rw [ht]; exact happ.frame.2.1.trans hended, hle, hlt⟩
  | declared trigger b expiresAt hblock htrigger hcan hstate hpower he => exact ⟨ended, he.trans hended, hle, hlt⟩
  | ended b totalPower hblock hactive hop hsum hstate hpower he =>
    refine ⟨b, he, hlater b hblock, ?_⟩
    rcases hop with ⟨outcome, rfl⟩ | rfl
    · exact hb hactive
    · exact hb hactive

/-- A declaration has waited for the cooldown. -/
theorem declares_waits (checks : Bool) (block : Nat) (s : EmergencyContract) (op : EmergencyOp)
    (h : s.EndedSince block) (hd : Declares checks s op) :
    ∃ declared, op.block = some declared ∧ block + emergencyCooldown ≤ declared := by
  obtain ⟨ended, hended, hle, hlt⟩ := h
  obtain ⟨hoff, hon⟩ := hd
  have hwait : ∀ b expiresAt, CanDeclare checks s b expiresAt → block + emergencyCooldown ≤ b := by
    intro b expiresAt hcan
    have hcool := hcan.noCooldown
    rw [cooldown, hended] at hcool
    simp only at hcool
    rw [Word.addW_of_lt checks 64 _ _ hlt, Option.map_some, Option.some_inj] at hcool
    split at hcool
    · cases hcool
    · omega
  cases step_step checks s op with
  | quiet hstate hpower he =>
    rw [hstate, hoff] at hon
    cases hon
  | acted action b hop hactive ht =>
    rw [hoff] at hactive
    cases hactive
  | powered v power totalPower hop hpower hsum hstate he =>
    rw [hstate] at hon
    exact absurd (hoff.symm.trans hon) Bool.false_ne_true
  | voted voter approves b hop hoff' happ =>
    rw [happ.frame.2.2.1, hoff] at hon
    cases hon
  | elected voter approves b percent count expiresAt u hop happ hpercent hge hcan ht =>
    exact ⟨b, by rw [hop]; rfl, hwait b expiresAt hcan⟩
  | declared trigger b expiresAt hblock htrigger hcan hstate hpower he => exact ⟨b, hblock, hwait b expiresAt hcan⟩
  | ended b totalPower hblock hactive hop hsum hstate hpower he =>
    rw [hoff] at hactive
    cases hactive

theorem ends_endedSince (checks : Bool) (s : EmergencyContract) (op : EmergencyOp) (hb : s.InBounds op)
    (h : Ends checks s op) : ∃ block, op.block = some block ∧ (s.step checks op).EndedSince block := by
  obtain ⟨hon, hoff⟩ := h
  cases step_step checks s op with
  | quiet hstate hpower he =>
    rw [hstate, hon] at hoff
    cases hoff
  | acted action b hop hactive ht =>
    rw [ht] at hoff
    exact absurd (hoff.symm.trans hon) Bool.false_ne_true
  | powered v power totalPower hop hpower hsum hstate he =>
    rw [hstate] at hoff
    exact absurd (hoff.symm.trans hon) Bool.false_ne_true
  | voted voter approves b hop hoff' happ => exact absurd (hoff'.symm.trans hon) Bool.false_ne_true
  | elected voter approves b percent count expiresAt u hop happ hpercent hge hcan ht =>
    exact absurd (hcan.inactive.symm.trans hon) Bool.false_ne_true
  | declared trigger b expiresAt hblock htrigger hcan hstate hpower he =>
    exact absurd (hcan.inactive.symm.trans hon) Bool.false_ne_true
  | ended b totalPower hblock hactive hop hsum hstate hpower he =>
    refine ⟨b, hblock, b, he, Nat.le_refl b, ?_⟩
    rcases hop with ⟨outcome, rfl⟩ | rfl
    · exact hb hactive
    · exact hb hactive

/-! ## Runs -/

theorem cooled_of_inBounds (checks : Bool) (ops : List EmergencyOp)
    (hblocks : (ops.filterMap EmergencyOp.block).Pairwise (· ≤ ·))
    (hb : Run.Meets (step checks) InBounds new ops) : Cooled checks ops := by
  rintro pre a mid b post rfl hends hdeclares
  rw [Run.meets_append] at hb
  obtain ⟨-, ha, hmid⟩ := hb
  rw [Run.meets_append] at hmid
  obtain ⟨block, hblock, hsince⟩ := ends_endedSince checks _ a ha hends
  -- the blocks after the end are not before it
  rw [List.filterMap_append, List.filterMap_cons_some hblock, List.pairwise_append, List.pairwise_cons] at hblocks
  have hlater : ∀ op ∈ mid, ∀ c, op.block = some c → block ≤ c := by
    intro op hop c hc
    apply hblocks.2.1.1
    rw [List.filterMap_append]
    exact List.mem_append_left _ (List.mem_filterMap.mpr ⟨op, hop, hc⟩)
  have hstill : (mid.foldl (step checks) ((pre.foldl (step checks) new).step checks a)).EndedSince block := by
    refine Run.inv_foldl (step checks) (fun s op => s.InBounds op ∧ ∀ c, op.block = some c → block ≤ c)
      (EndedSince block) (fun s op h hp => step_endedSince checks block s op h hp.1 hp.2) _ mid hsince ?_
    rw [Run.meets_iff_split]
    rintro before op after rfl
    exact ⟨(Run.meets_iff_split _ _ _ _).mp hmid.1 before op after rfl, hlater op (by simp)⟩
  rw [List.foldl_append, List.foldl_cons] at hdeclares
  obtain ⟨declared, hdeclared, hle⟩ := declares_waits checks block _ b hstill hdeclares
  exact ⟨block, declared, hblock, hdeclared, hle⟩

/-- **Emergency powers in bounds.**  In a run at non-decreasing blocks whose calls stay in bounds,
every emergency declared by a vote has three quarters of the present power behind it, every action
is taken in time, and declarations wait for the cooldown. -/
theorem emergency_sound (checks : Bool) (ops : List EmergencyOp)
    (hblocks : (ops.filterMap EmergencyOp.block).Pairwise (· ≤ ·))
    (hb : Run.Meets (step checks) InBounds new ops) :
    Run.Meets (step checks) (fun s op => Consented checks s op ∧ s.Timely op) new ops ∧ Cooled checks ops := by
  refine ⟨?_, cooled_of_inBounds checks ops hblocks hb⟩
  refine Run.meets_of_inv (step checks) InBounds _ Counted (fun s op h hop => step_counted checks s op h hop) ?_
    new ops counted_new hb
  exact fun s op h hop => ⟨step_consented checks s op h hop, step_timely s op h hop⟩

/-- A vote of all, an action, an end, and the same again after the cooldown. -/
def sampleEmergency : List EmergencyOp :=
  [.setVotingPower ⟨1⟩ 60, .setVotingPower ⟨2⟩ 40, .voteEmergency ⟨1⟩ true 10, .voteEmergency ⟨2⟩ true 11,
    .takeAction .haltSidechainCreation 20, .endEmergency .resolved 30, .voteEmergency ⟨1⟩ true (30 + 14400),
    .voteEmergency ⟨2⟩ true (30 + 14400)]

theorem emergency_sound_sample :
    (sampleEmergency.filterMap EmergencyOp.block).Pairwise (· ≤ ·) ∧
    Run.Meets (step false) InBounds new sampleEmergency ∧
    Run.Meets (step false) (fun s op => Consented false s op ∧ s.Timely op) new sampleEmergency ∧
    Cooled false sampleEmergency :=
  ⟨by decide, by decide +kernel, emergency_sound false sampleEmergency (by decide) (by decide +kernel)⟩

/-- The approval of account 1 is counted with the power it no longer has. -/
def staleConsent : List EmergencyOp :=
  [.setVotingPower ⟨1⟩ 60, .setVotingPower ⟨2⟩ 40, .voteEmergency ⟨1⟩ true 10, .setVotingPower ⟨1⟩ 1]

/-- A vote against the emergency declares it with 1 of 41 behind it, and an action is taken a block
after it should have expired. -/
theorem stale_consent_declares :
    ¬ Consented false (staleConsent.foldl (step false) new) (.voteEmergency ⟨2⟩ false 11) ∧
    ¬ Timely ((staleConsent ++ [EmergencyOp.voteEmergency ⟨2⟩ false 11]).foldl (step false) new)
      (.takeAction .haltSidechainCreation (11 + 100800)) := by
  constructor
  · intro h
    have hle := h ⟨by decide +kernel, by decide +kernel⟩ ⟨146, 1, by decide +kernel⟩
    revert hle
    decide +kernel
  · intro h
    obtain ⟨expiresAt, he, hlt⟩ := h .haltSidechainCreation (11 + 100800) rfl rfl
    have hexpires : ((staleConsent ++ [EmergencyOp.voteEmergency ⟨2⟩ false 11]).foldl (step false) new).state.expiresAt =
        some (11 + 100800) := by
      decide +kernel
    rw [hexpires] at he
    cases he
    exact Nat.lt_irrefl _ hlt

end EmergencyContract

end Kratos
