import Kratos.Contracts.Sidechains

/-!
# Phases of a purge

A chain on its way out is warned, frozen, photographed, open for withdrawals and
purged, in this order.  `SidechainInfo.Moves` is what one call may do to the record of
a chain: the status goes forward, a warning or a window that is left has lasted long
enough, and only an open chain becomes purged.  The state machine of the purge keeps to
it; the older `purgeSidechain`, which looks only at the last activity, does not.

A run is `Phased` exactly if all its calls are `orderly` (`phased_iff`).
-/

namespace Kratos

namespace ChainStatus

/-- The place of a status on the way to the purge. -/
def rank : ChainStatus → Nat
  | .active => 0
  | .inactive => 0
  | .pendingPurge => 1
  | .frozen => 2
  | .snapshot => 3
  | .withdrawalWindow => 4
  | .purged => 5

/-- The second status is the first one, a later one, or the chain woke up. -/
def Forward (s s' : ChainStatus) : Prop :=
  s' = s ∨ s.rank < s'.rank ∨ s = .inactive ∧ s' = .active

instance (s s' : ChainStatus) : Decidable (s.Forward s') :=
  inferInstanceAs (Decidable (_ ∨ _ ∨ _ ∧ _))

theorem Forward.rank_le {s s' : ChainStatus} (h : s.Forward s') : s.rank ≤ s'.rank := by
  rcases h with rfl | h | ⟨rfl, rfl⟩
  · exact Nat.le_refl _
  · omega
  · exact Nat.le_refl _

theorem Forward.trans {a b c : ChainStatus} (h : a.Forward b) (h' : b.Forward c) : a.Forward c := by
  have hab := h.rank_le
  have hbc := h'.rank_le
  rcases h with rfl | h | ⟨rfl, rfl⟩
  · exact h'
  · exact .inr (.inl (by omega))
  · rcases h' with rfl | h' | ⟨h', -⟩
    · exact .inr (.inr ⟨rfl, rfl⟩)
    · exact .inr (.inl h')
    · cases h'

end ChainStatus

/-- The block a call is made at, if it takes one. -/
def RegistryOp.block : RegistryOp → Option Nat
  | .createSidechain _ _ _ _ _ _ _ block => some block
  | .createHostchain _ block => some block
  | .recordActivity _ block => some block
  | .reportStateDivergence _ blockNumber _ => some blockNumber
  | .purgeSidechain _ currentBlock => some currentBlock
  | .autoPurgeInactive _ currentBlock => some currentBlock
  | .triggerPurge _ _ currentBlock => some currentBlock
  | .advancePurgeState _ currentBlock => some currentBlock
  | .autoPurgeV31 _ currentBlock => some currentBlock
  | _ => none

/-! ## Records -/

namespace SidechainInfo

/-- A phase that is stamped with the block at which it begins and lasts at least `d`. -/
structure Timed (phase : ChainStatus) (stamp : SidechainInfo → Option Nat) (d : Nat) (b : Option Nat)
    (sc sc' : SidechainInfo) : Prop where
  enter : sc.status ≠ phase → sc'.status = phase → ∃ t, b = some t ∧ stamp sc' = some t
  stay : sc.status = phase → sc'.status = phase → stamp sc' = stamp sc
  leave : sc.status = phase → sc'.status ≠ phase → ∃ t u, stamp sc = some t ∧ b = some u ∧ t + d ≤ u

/-- What a call at block `b` may do to the record of a chain. -/
structure Moves (b : Option Nat) (sc sc' : SidechainInfo) : Prop where
  forward : sc.status.Forward sc'.status
  warning : Timed .pendingPurge purgeTriggeredAt purgeWarningPeriod b sc sc'
  window : Timed .withdrawalWindow withdrawalWindowStart withdrawalWindowDuration b sc sc'
  purged : sc'.status = .purged → sc.status = .withdrawalWindow ∨ sc.status = .purged

variable {b : Option Nat}

/-- Two calls at the same block: a phase that the first enters is not left by the second,
and one that it leaves is not entered again. -/
theorem Timed.trans {phase : ChainStatus} {stamp : SidechainInfo → Option Nat} {d : Nat}
    {r s t : SidechainInfo} (h : Timed phase stamp d b r s) (h' : Timed phase stamp d b s t)
    (hrs : r.status.Forward s.status) (hst : s.status.Forward t.status) (hphase : 0 < phase.rank) :
    Timed phase stamp d b r t := by
  by_cases hs : s.status = phase
  · constructor
    · intro hr ht
      rw [h'.stay hs ht]
      exact h.enter hr hs
    · intro hr ht
      rw [h'.stay hs ht, h.stay hr hs]
    · intro hr ht
      rw [← h.stay hr hs]
      exact h'.leave hs ht
  · constructor
    · intro _ ht
      exact h'.enter hs ht
    · intro hr ht
      -- out and back in would be backward
      exfalso
      have h₁ := hrs.rank_le
      have h₂ := hst.rank_le
      rcases hrs with hrs | hrs | ⟨hrs, -⟩
      · exact hs (hrs.trans hr)
      · rw [ht] at h₂
        rw [hr] at hrs
        omega
      · rw [← hr, hrs] at hphase
        exact absurd hphase (by decide)
    · intro hr _
      exact h.leave hr hs

namespace Moves

/-- A call that looks neither at the status nor at the stamps. -/
theorem of_same {sc sc' : SidechainInfo} (hs : sc'.status = sc.status)
    (hp : sc'.purgeTriggeredAt = sc.purgeTriggeredAt)
    (hw : sc'.withdrawalWindowStart = sc.withdrawalWindowStart) : Moves b sc sc' where
  forward := .inl hs
  warning := ⟨fun h h' => absurd (hs ▸ h') h, fun _ _ => hp, fun h h' => absurd (hs.trans h) h'⟩
  window := ⟨fun h h' => absurd (hs ▸ h') h, fun _ _ => hw, fun h h' => absurd (hs.trans h) h'⟩
  purged h := .inr (hs ▸ h)

theorem refl (sc : SidechainInfo) : Moves b sc sc := of_same rfl rfl rfl

theorem trans {r s t : SidechainInfo} (h : Moves b r s) (h' : Moves b s t) : Moves b r t where
  forward := h.forward.trans h'.forward
  warning := h.warning.trans h'.warning h.forward h'.forward (by decide)
  window := h.window.trans h'.window h.forward h'.forward (by decide)
  purged ht := by
    rcases h'.purged ht with hs | hs
    · by_cases hr : r.status = .withdrawalWindow
      · exact .inl hr
      · -- a window opened at this block does not end at it
        obtain ⟨u, hb, hstart⟩ := h.window.enter hr hs
        obtain ⟨v, w, hv, hw, hle⟩ := h'.window.leave hs (by simp [ht])
        rw [hstart] at hv
        rw [hb] at hw
        cases hv
        cases hw
        unfold withdrawalWindowDuration at hle
        omega
    · exact h.purged hs

/-- Between statuses that are neither timed phases nor the end. -/
theorem of_untimed {sc sc' : SidechainInfo} (hf : sc.status.Forward sc'.status)
    (h : sc.status ≠ .pendingPurge ∧ sc.status ≠ .withdrawalWindow)
    (h' : sc'.status ≠ .pendingPurge ∧ sc'.status ≠ .withdrawalWindow ∧ sc'.status ≠ .purged) :
    Moves b sc sc' where
  forward := hf
  warning := ⟨fun _ hp => absurd hp h'.1, fun hp _ => absurd hp h.1, fun hp _ => absurd hp h.1⟩
  window := ⟨fun _ hw => absurd hw h'.2.1, fun hw _ => absurd hw h.2, fun hw _ => absurd hw h.2⟩
  purged hp := absurd hp h'.2.2

variable {n t : Nat} {sc sc' : SidechainInfo}

theorem warn (hs : sc.status.rank = 0) (hs' : sc'.status = .pendingPurge)
    (hn : sc'.purgeTriggeredAt = some n) : Moves (some n) sc sc' where
  forward := .inr (.inl (by rw [hs, hs']; decide))
  warning := ⟨fun _ _ => ⟨n, rfl, hn⟩, fun h => by simp [h, ChainStatus.rank] at hs, fun _ h => absurd hs' h⟩
  window := ⟨by simp [hs'], by simp [hs'], fun h => by simp [h, ChainStatus.rank] at hs⟩
  purged := by simp [hs']

theorem freeze (hs : sc.status = .pendingPurge) (hs' : sc'.status = .frozen)
    (ht : sc.purgeTriggeredAt = some t) (hle : t + purgeWarningPeriod ≤ n) : Moves (some n) sc sc' where
  forward := .inr (.inl (by rw [hs, hs']; decide))
  warning := ⟨fun h => absurd hs h, by simp [hs'], fun _ _ => ⟨t, n, ht, rfl, hle⟩⟩
  window := ⟨by simp [hs'], by simp [hs'], by simp [hs]⟩
  purged := by simp [hs']

theorem photograph (hs : sc.status = .frozen) (hs' : sc'.status = .snapshot) : Moves (some n) sc sc' := by
  apply of_untimed
  · rw [hs, hs']
    decide
  · simp [hs]
  · simp [hs']

theorem openWindow (hs : sc.status = .snapshot) (hs' : sc'.status = .withdrawalWindow)
    (hn : sc'.withdrawalWindowStart = some n) : Moves (some n) sc sc' where
  forward := .inr (.inl (by rw [hs, hs']; decide))
  warning := ⟨by simp [hs'], by simp [hs'], by simp [hs]⟩
  window := ⟨fun _ _ => ⟨n, rfl, hn⟩, by simp [hs], by simp [hs]⟩
  purged := by simp [hs']

theorem close (hs : sc.status = .withdrawalWindow) (hs' : sc'.status = .purged)
    (ht : sc.withdrawalWindowStart = some t) (hle : t + withdrawalWindowDuration ≤ n) :
    Moves (some n) sc sc' where
  forward := .inr (.inl (by rw [hs, hs']; decide))
  warning := ⟨by simp [hs'], by simp [hs'], by simp [hs]⟩
  window := ⟨fun h => absurd hs h, by simp [hs'], fun _ _ => ⟨t, n, ht, rfl, hle⟩⟩
  purged _ := .inl hs

end Moves

end SidechainInfo

/-- The record of one id before and after a call. -/
inductive MovesAt (b : Option Nat) : Option SidechainInfo → Option SidechainInfo → Prop where
  | absent : MovesAt b none none
  | created {sc sc' : SidechainInfo} (hs : sc.status = .active) (hm : sc.Moves b sc') : MovesAt b none (some sc')
  | kept {sc sc' : SidechainInfo} (hm : sc.Moves b sc') : MovesAt b (some sc) (some sc')

namespace MovesAt

variable {b : Option Nat}

theorem refl (o : Option SidechainInfo) : MovesAt b o o := by
  cases o with
  | none => exact .absent
  | some sc => exact .kept (.refl sc)

theorem of_some {sc : SidechainInfo} {o : Option SidechainInfo} (h : MovesAt b (some sc) o) :
    ∃ sc', o = some sc' ∧ sc.Moves b sc' := by
  cases h with
  | kept hm => exact ⟨_, rfl, hm⟩

theorem trans {o p q : Option SidechainInfo} (h : MovesAt b o p) (h' : MovesAt b p q) : MovesAt b o q := by
  cases h with
  | absent => exact h'
  | created hs hm =>
    cases h' with
    | kept hm' => exact .created hs (hm.trans hm')
  | kept hm =>
    cases h' with
    | kept hm' => exact .kept (hm.trans hm')

end MovesAt

namespace ChainRegistry

/-! ## Calls -/

/-- Every chain moves as a call at block `b` may move it, and new chains are active. -/
def Moves (b : Option Nat) (g t : ChainRegistry) : Prop :=
  ∀ c, MovesAt b (g.sidechains.find? c) (t.sidechains.find? c)

namespace Moves

variable {b : Option Nat}

theorem of_eq {g t : ChainRegistry} (h : t.sidechains = g.sidechains) : g.Moves b t := by
  intro c
  rw [h]
  exact .refl _

theorem refl (g : ChainRegistry) : g.Moves b g := of_eq rfl

theorem trans {r s t : ChainRegistry} (h : r.Moves b s) (h' : s.Moves b t) : r.Moves b t :=
  fun c => (h c).trans (h' c)

/-- Writing one record. -/
theorem insert {g t : ChainRegistry} {c : ChainId} {sc : SidechainInfo}
    (ht : t.sidechains = g.sidechains.insert c sc) (hm : MovesAt b (g.sidechains.find? c) (some sc)) :
    g.Moves b t := by
  intro i
  rw [ht]
  by_cases hi : i = c
  · rw [hi, SortedMap.find?_insert_self]
    exact hm
  · rw [SortedMap.find?_insert_ne _ _ _ _ hi]
    exact .refl _

theorem rewrite {g t : ChainRegistry} {c : ChainId} {sc sc' : SidechainInfo}
    (hf : g.sidechains.find? c = some sc) (ht : t.sidechains = g.sidechains.insert c sc')
    (hm : sc.Moves b sc') : g.Moves b t :=
  insert ht (by rw [hf]; exact .kept hm)

end Moves

theorem withValidators_moves {b : Option Nat} (sc : SidechainInfo) (v : Finset AccountId) :
    sc.Moves b { sc with validators := v } := .of_same rfl rfl rfl

theorem changePool_moves {b : Option Nat} (order : IterOrder ChainId) (g : ChainRegistry) (h : ChainId)
    (f : HostChainInfo → Except ChainTypeError HostChainInfo) : g.Moves b (changePool order g h f).1 :=
  changePool_rel (Moves b) .refl .rewrite (fun h h' => h.trans h') .of_eq withValidators_moves order g h f

/-! ### The state machine -/

theorem triggerPurge_moves (g t : ChainRegistry) (c : ChainId) (trigger : PurgeTrigger) (b : Nat) (u : Unit)
    (h : g.triggerPurge c trigger b = .ok (t, u)) : g.Moves (some b) t := by
  refine withSidechain_rel (Moves (some b)) .rewrite g t c _ u ?_ h
  intro sc sc' _ hr
  split at hr
  · cases hr
  · next hs =>
    cases hr
    refine .warn ?_ rfl rfl
    cases hstatus : sc.status with
    | active => rfl
    | inactive => rfl
    | _ => simp [hstatus] at hs

theorem advance_moves (sc : SidechainInfo) (b : Nat) : sc.Moves (some b) (advance sc b) := by
  unfold advance
  cases hs : sc.status with
  | active => exact .refl sc
  | inactive => exact .refl sc
  | pendingPurge =>
    simp only
    split
    · next hb =>
      obtain ⟨t, ht, hle⟩ := (Option.any_eq_true _ _).mp hb
      exact .freeze hs rfl ht (of_decide_eq_true hle)
    · exact .refl sc
  | frozen => exact .photograph hs rfl
  | snapshot => exact .openWindow hs rfl rfl
  | withdrawalWindow =>
    simp only
    split
    · next hb =>
      obtain ⟨t, ht, hle⟩ := (Option.any_eq_true _ _).mp hb
      exact .close hs rfl ht (of_decide_eq_true hle)
    · exact .refl sc
  | purged => exact .refl sc

theorem autoPurgeV31_moves (order : IterOrder ChainId) (g : ChainRegistry) (b : Nat) :
    g.Moves (some b) (autoPurgeV31 order g b).1 :=
  autoPurgeV31_rel (Moves (some b)) .refl (fun h h' => h.trans h') b (fun _ => .of_eq rfl)
    (fun g t c trigger u => triggerPurge_moves g t c trigger b u)
    (fun g t c status => advancePurgeState_rel (Moves (some b)) .rewrite g t c b status (advance_moves · b)) order g

/-! ### One call -/

/-- What the calls leave unchecked.  A direct purge finds the chain active enough, purged
already or with its window at an end; a periodic one finds nothing to purge; and a
creation does not take the id of a chain on its way to the purge. -/
def orderly (g : ChainRegistry) : RegistryOp → Bool
  | .purgeSidechain chainId currentBlock =>
    (g.sidechains.find? chainId).all fun sc =>
      !sc.isInactive currentBlock inactivityThreshold || decide (sc.status = .purged) ||
        decide (sc.status = .withdrawalWindow) &&
          sc.withdrawalWindowStart.any fun t => decide (t + withdrawalWindowDuration ≤ currentBlock)
  | .autoPurgeInactive _ currentBlock =>
    decide (currentBlock < g.lastPurgeCheck + purgeCheckInterval) ||
      g.sidechains.values.all fun sc => !isPurgeable currentBlock sc
  | .createSidechain _ _ _ parent securityMode hostId deposit _ =>
    !g.accepts parent securityMode hostId deposit ||
      (g.sidechains.find? ⟨g.nextChainId⟩).all fun sc => decide (sc.status.rank = 0)
  | _ => true

theorem storeNew_moves (g : ChainRegistry) (owner : AccountId) (name description : Option String)
    (parent : Option ChainId) (m : SecurityMode) (deposit : Balance) (b : Nat)
    (hidle : ∀ sc, g.sidechains.find? ⟨g.nextChainId⟩ = some sc → sc.status.rank = 0) :
    g.Moves (some b) (g.storeNew owner name description parent m deposit b) := by
  refine .insert rfl ?_
  cases hf : g.sidechains.find? ⟨g.nextChainId⟩ with
  | none => exact .created rfl (.refl _)
  | some sc =>
    have hrank := hidle sc hf
    refine .kept (.of_untimed ?_ ?_ ?_)
    · show sc.status.Forward .active
      cases hs : sc.status with
      | active => decide
      | inactive => decide
      | _ => simp [hs, ChainStatus.rank] at hrank
    · constructor
      all_goals
        intro hs
        simp [hs, ChainStatus.rank] at hrank
    · simp [SidechainInfo.new]

theorem createSidechain_moves (g : ChainRegistry) (owner : AccountId) (name description : Option String)
    (parent : Option ChainId) (m : SecurityMode) (host : Option ChainId) (deposit : Balance) (b : Nat)
    (h : g.orderly (.createSidechain owner name description parent m host deposit b) = true) :
    g.Moves (some b) (g.createSidechain owner name description parent m host deposit b).1 := by
  refine createSidechain_rel (fun g t => g.Moves (some b) t) .refl (fun h h' => h.trans h') .of_eq ?_ g owner name
    description parent m host deposit b ?_
  · exact fun hf h => .rewrite hf h (withValidators_moves _ _)
  · intro hacc
    refine storeNew_moves g owner name description parent m deposit b fun sc hf => ?_
    simpa [orderly, hacc, hf] using h

theorem purgeSidechain_moves (g t : ChainRegistry) (c : ChainId) (b : Nat) (d : Balance)
    (hok : g.orderly (.purgeSidechain c b) = true) (h : g.purgeSidechain c b = .ok (t, d)) :
    g.Moves (some b) t := by
  obtain ⟨sc, hf, hi, -, ht⟩ := purgeSidechain_ok g t c b d h
  refine .rewrite hf ht ?_
  have hend : sc.status = .purged ∨ sc.status = .withdrawalWindow ∧
      ∃ n, sc.withdrawalWindowStart = some n ∧ n + withdrawalWindowDuration ≤ b := by
    simpa [orderly, hf, hi, Option.any_eq_true] using hok
  rcases hend with hs | ⟨hs, n, hn, hle⟩
  · exact .of_same hs.symm rfl rfl
  · exact .close hs rfl hn hle

theorem autoPurgeInactive_moves (order : IterOrder ChainId) (g : ChainRegistry) (b : Nat)
    (hok : g.orderly (.autoPurgeInactive order b) = true) :
    g.Moves (some b) (autoPurgeInactive order g b).1 := by
  unfold autoPurgeInactive
  split
  · exact .refl g
  · next hb =>
    -- nothing is found, so the loop has nothing to do
    simp only [orderly, hb, decide_false, Bool.false_or, List.all_eq_true] at hok
    have hnil : order.iter (g.sidechains.filter fun _ sc => isPurgeable b sc).keys = [] := by
      rw [List.eq_nil_iff_forall_not_mem]
      intro c hc
      rw [IterOrder.mem_iter, SortedMap.mem_keys_filter_iff] at hc
      obtain ⟨sc, hf, hp⟩ := hc
      have := hok sc ((SortedMap.mem_values_iff _ _).mpr ⟨c, hf⟩)
      simp [hp] at this
    simp only [hnil]
    exact .of_eq rfl

/-- **Step lemma.** -/
theorem apply_moves (cr : Crypto) (g : ChainRegistry) (op : RegistryOp) (h : g.orderly op = true) :
    g.Moves op.block (g.apply cr op) := by
  cases op with
  | createSidechain owner name description parent m host deposit b =>
    exact createSidechain_moves g owner name description parent m host deposit b h
  | createHostchain creator b => exact .of_eq rfl
  | affiliateSidechain c i =>
    apply Except.orKeep_of (g.Moves _) _ g (.refl g)
    intro t ht
    exact .of_eq (affiliateSidechain_sidechains g t c i ht)
  | leaveHost c => exact .of_eq (leaveHost_sidechains g c)
  | assignValidators c =>
    apply Except.orKeep_map_of (g.Moves _) _ g (.refl g)
    intro t v ht
    exact assignValidators_rel (Moves _) .rewrite g t c v withValidators_moves ht
  | addValidatorToChain c v =>
    apply withSidechain_orKeep_rel (Moves _) .refl .rewrite
    intro sc sc' _ hr
    split at hr
    · cases hr
    · split at hr
      · cases hr
      · next r hadd =>
        cases hr
        unfold SidechainInfo.addValidator at hadd
        split at hadd
        · cases hadd
        · cases hadd
          exact .of_same rfl rfl rfl
  | removeValidatorFromChain c v =>
    apply withSidechain_orKeep_rel (Moves _) .refl .rewrite
    intro sc sc' _ hr
    split at hr
    · cases hr
    · split at hr
      · cases hr
      · next r hremove =>
        cases hr
        unfold SidechainInfo.removeValidator at hremove
        split at hremove
        · cases hremove
          exact .of_same rfl rfl rfl
        · cases hremove
  | addValidatorToHostchain order i v => exact changePool_moves order g i _
  | removeValidatorFromHostchain order i v => exact changePool_moves order g i _
  | recordActivity c b =>
    apply withSidechain_orKeep_rel (Moves _) .refl .rewrite
    intro sc sc' _ hr
    cases hr
    by_cases hs : sc.status = .inactive
    · apply SidechainInfo.Moves.of_untimed
      · simp [SidechainInfo.recordActivity, hs, ChainStatus.Forward]
      · simp [hs]
      · simp [SidechainInfo.recordActivity, hs]
    · exact .of_same (by simp [SidechainInfo.recordActivity, hs]) rfl rfl
  | reportStateDivergence c b reporter =>
    apply withSidechain_orKeep_rel (Moves _) .refl .rewrite
    intro sc sc' _ hr
    simp only at hr
    split at hr
    · cases hr
    · cases hr
      exact .of_same rfl rfl rfl
  | setSnapshotStateRoot c root =>
    apply withSidechain_orKeep_rel (Moves _) .refl .rewrite
    intro sc sc' _ hr
    split at hr
    · cases hr
    · cases hr
      exact .of_same rfl rfl rfl
  | purgeSidechain c b =>
    apply Except.orKeep_map_of (g.Moves _) _ g (.refl g)
    intro t d ht
    exact purgeSidechain_moves g t c b d h ht
  | autoPurgeInactive order b => exact autoPurgeInactive_moves order g b h
  | triggerPurge c trigger b =>
    apply Except.orKeep_map_of (g.Moves _) _ g (.refl g)
    intro t u ht
    exact triggerPurge_moves g t c trigger b u ht
  | advancePurgeState c b =>
    apply Except.orKeep_map_of (g.Moves _) _ g (.refl g)
    intro t status ht
    exact advancePurgeState_rel (Moves _) .rewrite g t c b status (advance_moves · b) ht
  | autoPurgeV31 order b => exact autoPurgeV31_moves order g b
  | withdrawFromPurgedChain c a =>
    apply Except.orKeep_map_of (g.Moves _) _ g (.refl g)
    intro t r ht
    obtain ⟨sc, hf, -, -, -, -, -, -, hs⟩ := withdrawFromPurgedChain_ok g t c a r ht
    exact .rewrite hf hs (.of_same rfl rfl rfl)
  | withdrawWithProof c a balance proof =>
    apply Except.orKeep_map_of (g.Moves _) _ g (.refl g)
    intro t r ht
    obtain ⟨sc, root, hf, -, -, -, -, -, -, -, -, hs⟩ := withdrawWithProof_ok cr g t c a balance proof r ht
    exact .rewrite hf hs (.of_same rfl rfl rfl)
  | emergencyExit c a balance proof =>
    apply Except.orKeep_map_of (g.Moves _) _ g (.refl g)
    intro t r ht
    obtain ⟨sc, hf, -, -, -, -, hs⟩ := emergencyExit_ok cr g t c a balance proof r ht
    exact .rewrite hf hs (.of_same rfl rfl rfl)
  | _ =>
    apply withSidechain_orKeep_rel (Moves _) .refl .rewrite
    intro sc sc' _ hr
    cases hr
    exact .of_same rfl rfl rfl

/-! ## Runs -/

def statusAt (g : ChainRegistry) (c : ChainId) : Option ChainStatus :=
  (g.sidechains.find? c).map SidechainInfo.status

/-- The chains go through the phases of a purge in order, and stay as long as they should
in the warning and in the window. -/
structure Phased (cr : Crypto) (ops : List RegistryOp) : Prop where
  forward : Run.Meets (apply cr) (fun g op => ∀ c s s', g.statusAt c = some s →
    (g.apply cr op).statusAt c = some s' → s.Forward s') .new ops
  warning : ∀ c, Run.Dwells (apply cr) (fun g => g.statusAt c = some .pendingPurge) RegistryOp.block
    purgeWarningPeriod .new ops
  window : ∀ c, Run.Dwells (apply cr) (fun g => g.statusAt c = some .withdrawalWindow) RegistryOp.block
    withdrawalWindowDuration .new ops
  opened : ∀ k c, (after cr (ops.take k)).statusAt c = some .purged →
    ∃ j ≤ k, (after cr (ops.take j)).statusAt c = some .withdrawalWindow

namespace Moves

variable {b : Option Nat} {g t : ChainRegistry} {c : ChainId}

theorem statusAt_forward (h : g.Moves b t) {s : ChainStatus} (hs : g.statusAt c = some s) :
    ∃ s', t.statusAt c = some s' ∧ s.Forward s' := by
  have hc := h c
  unfold statusAt at hs ⊢
  cases ho : g.sidechains.find? c with
  | none => simp [ho] at hs
  | some sc =>
    rw [ho] at hc hs
    obtain ⟨sc', ho', hm⟩ := hc.of_some
    obtain rfl := Option.some.inj hs
    rw [ho']
    exact ⟨sc'.status, rfl, hm.forward⟩

theorem statusAt_purged (h : g.Moves b t) (ht : t.statusAt c = some .purged) :
    g.statusAt c = some .withdrawalWindow ∨ g.statusAt c = some .purged := by
  have hc := h c
  unfold statusAt at ht ⊢
  cases ho : t.sidechains.find? c with
  | none => simp [ho] at ht
  | some sc =>
    rw [ho] at hc ht
    have hpurged : sc.status = .purged := Option.some.inj ht
    cases hg : g.sidechains.find? c with
    | none =>
      rw [hg] at hc
      cases hc with
      | created hs hm =>
        rcases hm.purged hpurged with h | h
        all_goals
          rw [hs] at h
          cases h
    | some sc' =>
      rw [hg] at hc
      cases hc with
      | kept hm => simpa using hm.purged hpurged

section Phase

variable {phase : ChainStatus} {stamp : SidechainInfo → Option Nat} {d : Nat}
  (htimed : ∀ {b sc sc'}, SidechainInfo.Moves b sc sc' → SidechainInfo.Timed phase stamp d b sc sc')
  (hphase : phase ≠ .active)

include htimed hphase

theorem phase_enter (h : g.Moves b t) (hout : g.statusAt c ≠ some phase) (hin : t.statusAt c = some phase) :
    ∃ n, b = some n ∧ (t.sidechains.find? c).bind stamp = some n := by
  have hc := h c
  unfold statusAt at hout hin
  cases ho : t.sidechains.find? c with
  | none => simp [ho] at hin
  | some sc' =>
    rw [ho] at hc hin
    have hs' : sc'.status = phase := Option.some.inj hin
    cases hg : g.sidechains.find? c with
    | none =>
      rw [hg] at hc
      cases hc with
      | created hs hm => exact (htimed hm).enter (by rw [hs]; exact hphase.symm) hs'
    | some sc =>
      rw [hg] at hc hout
      cases hc with
      | kept hm => exact (htimed hm).enter (fun hs => hout (congrArg some hs)) hs'

omit hphase in
theorem phase_stay (h : g.Moves b t) (hin : g.statusAt c = some phase) (hin' : t.statusAt c = some phase) :
    (t.sidechains.find? c).bind stamp = (g.sidechains.find? c).bind stamp := by
  have hc := h c
  unfold statusAt at hin hin'
  cases hg : g.sidechains.find? c with
  | none => simp [hg] at hin
  | some sc =>
    rw [hg] at hc hin
    obtain ⟨sc', ho, hm⟩ := hc.of_some
    rw [ho] at hin' ⊢
    exact (htimed hm).stay (Option.some.inj hin) (Option.some.inj hin')

omit hphase in
theorem phase_leave (h : g.Moves b t) (hin : g.statusAt c = some phase) (hout : t.statusAt c ≠ some phase) :
    ∃ n u, (g.sidechains.find? c).bind stamp = some n ∧ b = some u ∧ n + d ≤ u := by
  have hc := h c
  unfold statusAt at hin hout
  cases hg : g.sidechains.find? c with
  | none => simp [hg] at hin
  | some sc =>
    rw [hg] at hc hin
    obtain ⟨sc', ho, hm⟩ := hc.of_some
    rw [ho] at hout
    exact (htimed hm).leave (Option.some.inj hin) fun hs => hout (congrArg some hs)

/-- A timed phase lasts as long as it should in every run of orderly calls. -/
theorem phase_dwells (cr : Crypto) (ops : List RegistryOp)
    (h : Run.Meets (apply cr) (fun g op => g.orderly op = true) .new ops) :
    Run.Dwells (apply cr) (fun g => g.statusAt c = some phase) RegistryOp.block d .new ops := by
  refine Run.dwells_of_stamp (apply cr) _ _ (fun g => (g.sidechains.find? c).bind stamp) _ ?_ ?_ d ?_ .new ops h
  · intro g op hop hout hin
    exact phase_enter htimed hphase (apply_moves cr g op hop) hout hin
  · intro g op hop hin hin'
    exact phase_stay htimed (apply_moves cr g op hop) hin hin'
  · intro g op hop hin hout
    exact phase_leave htimed (apply_moves cr g op hop) hin hout

end Phase

end Moves

/-- Along a run of orderly calls the status goes forward. -/
theorem statusAt_run (cr : Crypto) (g : ChainRegistry) (ops : List RegistryOp) (c : ChainId) (s : ChainStatus)
    (h : Run.Meets (apply cr) (fun g op => g.orderly op = true) g ops) (hs : g.statusAt c = some s) :
    ∃ s', (ops.foldl (apply cr) g).statusAt c = some s' ∧ s.Forward s' := by
  induction ops generalizing g s with
  | nil => exact ⟨s, hs, .inl rfl⟩
  | cons op ops ih =>
    obtain ⟨s', hs', hf⟩ := (apply_moves cr g op h.1).statusAt_forward hs
    obtain ⟨s'', hs'', hf'⟩ := ih _ s' h.2 hs'
    exact ⟨s'', hs'', hf.trans hf'⟩

/-- A purged chain was open for withdrawals. -/
theorem opened_of_purged (cr : Crypto) (ops : List RegistryOp) (c : ChainId)
    (h : Run.Meets (apply cr) (fun g op => g.orderly op = true) .new ops)
    (hs : (after cr ops).statusAt c = some .purged) :
    ∃ j, (after cr (ops.take j)).statusAt c = some .withdrawalWindow := by
  induction ops using List.reverseRecOn with
  | nil => cases hs
  | append_singleton ops op ih =>
    rw [Run.meets_append] at h
    rw [after_snoc] at hs
    rcases (apply_moves cr _ op h.2.1).statusAt_purged hs with hw | hp
    · refine ⟨ops.length, ?_⟩
      rw [List.take_left]
      exact hw
    · obtain ⟨j, hj⟩ := ih h.1 hp
      refine ⟨min j ops.length, ?_⟩
      rw [List.take_append_of_le_length (Nat.min_le_right _ _), ← List.take_eq_take_min]
      exact hj

theorem phased_of_orderly (cr : Crypto) (ops : List RegistryOp)
    (h : Run.Meets (apply cr) (fun g op => g.orderly op = true) .new ops) : Phased cr ops where
  forward := by
    rw [Run.meets_iff_split] at h ⊢
    intro pre op post hops c s s' hs hs'
    obtain ⟨s'', hs'', hf⟩ := (apply_moves cr _ op (h pre op post hops)).statusAt_forward hs
    rw [hs'] at hs''
    obtain rfl := Option.some.inj hs''
    exact hf
  warning c := Moves.phase_dwells (fun hm => hm.warning) (by decide) cr ops h
  window c := Moves.phase_dwells (fun hm => hm.window) (by decide) cr ops h
  opened k c hs := by
    obtain ⟨j, hj⟩ := opened_of_purged cr (ops.take k) c (Run.meets_take _ _ _ ops h k) hs
    rw [List.take_take] at hj
    exact ⟨min j k, Nat.min_le_right _ _, hj⟩

/-! ### Runs with a call that is not orderly -/

theorem purgeSidechain_of_inactive (g : ChainRegistry) (c : ChainId) (b : Nat) (sc : SidechainInfo)
    (hf : g.sidechains.find? c = some sc) (hi : sc.isInactive b inactivityThreshold = true) :
    ∃ t d, g.purgeSidechain c b = .ok (t, d) ∧ t.statusAt c = some .purged := by
  cases hr : g.purgeSidechain c b with
  | error e => simp [purgeSidechain, withSidechain, hf, hi] at hr
  | ok r =>
    obtain ⟨sc', -, -, -, ht⟩ := purgeSidechain_ok g r.1 c b r.2 hr
    refine ⟨r.1, r.2, rfl, ?_⟩
    unfold statusAt
    rw [ht, SortedMap.find?_insert_self]
    rfl

theorem purgeNext_purges (b : Nat) (ids : List ChainId) (s : ChainRegistry × List ChainId) (c : ChainId)
    (sc : SidechainInfo) (hc : c ∈ ids) (hf : s.1.sidechains.find? c = some sc)
    (hi : sc.isInactive b inactivityThreshold = true) :
    (ids.foldl (purgeNext b) s).1.statusAt c = some .purged := by
  induction ids generalizing s with
  | nil => cases hc
  | cons i ids ih =>
    rw [List.foldl_cons]
    by_cases hic : i = c
    · subst hic
      obtain ⟨t, d, ht, hs⟩ := purgeSidechain_of_inactive s.1 i b sc hf hi
      have hnext : purgeNext b s i = (t, s.2 ++ [i]) := by
        unfold purgeNext
        rw [ht]
      -- the rest of the loop keeps it purged
      have hlater := (purgeNext_foldl b ids (purgeNext b s i)).1
      rw [hnext] at hlater ⊢
      obtain ⟨sc', hf', hp⟩ := Option.map_eq_some_iff.mp hs
      obtain ⟨sc'', hf'', hl⟩ := hlater i sc' hf'
      unfold statusAt
      rw [hf'']
      exact congrArg some (hl.purged hp)
    · refine ih (purgeNext b s i) ((List.mem_cons.mp hc).resolve_left fun h => hic h.symm) ?_
      unfold purgeNext
      split
      · exact hf
      · next t d ht =>
        obtain ⟨sc', -, -, -, hs⟩ := purgeSidechain_ok s.1 t i b d ht
        rw [hs, SortedMap.find?_insert_ne _ _ _ _ fun h => hic h.symm]
        exact hf

theorem autoPurgeInactive_purges (order : IterOrder ChainId) (g : ChainRegistry) (b : Nat) (c : ChainId)
    (sc : SidechainInfo) (hb : ¬ b < g.lastPurgeCheck + purgeCheckInterval)
    (hf : g.sidechains.find? c = some sc) (hp : isPurgeable b sc = true) :
    (autoPurgeInactive order g b).1.statusAt c = some .purged := by
  unfold autoPurgeInactive
  rw [if_neg hb]
  apply purgeNext_purges b _ _ c sc _ hf
  · unfold isPurgeable at hp
    rw [Bool.and_eq_true] at hp
    exact hp.2
  · rw [IterOrder.mem_iter, SortedMap.mem_keys_filter_iff]
    exact ⟨sc, hf, hp⟩

theorem createSidechain_statusAt (g : ChainRegistry) (owner : AccountId) (name description : Option String)
    (parent : Option ChainId) (m : SecurityMode) (host : Option ChainId) (deposit : Balance) (b : Nat)
    (h : g.accepts parent m host deposit = true) :
    (g.createSidechain owner name description parent m host deposit b).1.statusAt ⟨g.nextChainId⟩ =
      some .active := by
  rw [createSidechain_accepted g owner name description parent m host deposit b h]
  have hnew : (g.storeNew owner name description parent m deposit b).sidechains.find? ⟨g.nextChainId⟩ =
      some (SidechainInfo.new ⟨g.nextChainId⟩ parent owner name description m deposit b) :=
    SortedMap.find?_insert_self _ _ _
  unfold statusAt
  rcases settle_sidechains (g.storeNew owner name description parent m deposit b) ⟨g.nextChainId⟩ m host with
    h | ⟨sc, v, hf, h⟩
  · rw [h, hnew]
    rfl
  · rw [hnew] at hf
    obtain rfl := Option.some.inj hf
    rw [h, SortedMap.find?_insert_self]
    rfl

theorem Phased.of_append {cr : Crypto} {ops : List RegistryOp} {op : RegistryOp} (h : Phased cr (ops ++ [op])) :
    Phased cr ops where
  forward := ((Run.meets_append _ _ _ _ _).mp h.forward).1
  warning c := by
    rintro pre a mid b post rfl
    exact h.warning c pre a mid b (post ++ [op]) (by simp)
  window c := by
    rintro pre a mid b post rfl
    exact h.window c pre a mid b (post ++ [op]) (by simp)
  opened k c hs := by
    have htake : ∀ n, ops.take n = (ops ++ [op]).take (min n ops.length) := by
      intro n
      rw [List.take_append_of_le_length (Nat.min_le_right _ _), ← List.take_eq_take_min]
    rw [htake] at hs
    obtain ⟨j, hj, hw⟩ := h.opened _ c hs
    refine ⟨j, by omega, ?_⟩
    rw [htake, Nat.min_eq_left (by omega)]
    exact hw

/-- In a phased run only an open chain becomes purged. -/
theorem Phased.open_before {cr : Crypto} {ops : List RegistryOp} {op : RegistryOp}
    (h : Phased cr (ops ++ [op])) (hm : Run.Meets (apply cr) (fun g op => g.orderly op = true) .new ops)
    {c : ChainId} {s : ChainStatus} (hs : (after cr ops).statusAt c = some s)
    (hp : ((after cr ops).apply cr op).statusAt c = some .purged) :
    s = .withdrawalWindow ∨ s = .purged := by
  obtain ⟨j, hj, hw⟩ := h.opened (ops.length + 1) c (by
    rw [List.take_of_length_le (by simp), after_snoc]
    exact hp)
  have hlen : j ≤ ops.length := by
    by_contra hgt
    have hall : (ops ++ [op]).take j = ops ++ [op] := List.take_of_length_le (by simp; omega)
    rw [hall, after_snoc, hp] at hw
    cases hw
  rw [List.take_append_of_le_length hlen] at hw
  -- from the window to here the status went forward
  have hrest : Run.Meets (apply cr) (fun g op => g.orderly op = true) (after cr (ops.take j)) (ops.drop j) := by
    have := hm
    rw [← List.take_append_drop j ops, Run.meets_append] at this
    exact this.2
  obtain ⟨s', hs', hf⟩ := statusAt_run cr _ _ c _ hrest hw
  have hend : (ops.drop j).foldl (apply cr) (after cr (ops.take j)) = after cr ops := by
    unfold after
    rw [← List.foldl_append, List.take_append_drop]
  rw [hend, hs] at hs'
  obtain rfl := Option.some.inj hs'
  have hrank := hf.rank_le
  cases s with
  | withdrawalWindow => exact .inl rfl
  | purged => exact .inr rfl
  | _ => simp [ChainStatus.rank] at hrank

/-- A window that a phased run closes has lasted long enough. -/
theorem Phased.window_ended {cr : Crypto} {ops : List RegistryOp} {op : RegistryOp}
    (h : Phased cr (ops ++ [op])) (hm : Run.Meets (apply cr) (fun g op => g.orderly op = true) .new ops)
    {c : ChainId} {sc : SidechainInfo} (hf : (after cr ops).sidechains.find? c = some sc)
    (hs : sc.status = .withdrawalWindow)
    (hp : ((after cr ops).apply cr op).statusAt c ≠ some .withdrawalWindow) :
    ∃ t u, sc.withdrawalWindowStart = some t ∧ op.block = some u ∧ t + withdrawalWindowDuration ≤ u := by
  have hin : (after cr ops).statusAt c = some .withdrawalWindow := by
    unfold statusAt
    rw [hf, ← hs]
    rfl
  obtain ⟨pre, a, mid, hops, hout, hall, t, ht, hstamp⟩ := Run.entered_stamp (apply cr) _
    (fun g => g.statusAt c = some .withdrawalWindow)
    (fun g => (g.sidechains.find? c).bind SidechainInfo.withdrawalWindowStart) RegistryOp.block
    (fun g op hop => Moves.phase_enter (fun hm => hm.window) (by decide) (apply_moves cr g op hop))
    (fun g op hop => Moves.phase_stay (fun hm => hm.window) (apply_moves cr g op hop))
    .new ops hm (by simp [statusAt, new, SortedMap.find?, SortedMap.empty, SortedMap.lookup]) hin
  have hsplit : ops ++ [op] = pre ++ a :: (mid ++ [op]) := by
    rw [hops]
    simp
  obtain ⟨t', u, ht', hu, hle⟩ := h.window c pre a mid op [] hsplit hout hall (by
    rw [← hsplit]
    rw [← after_snoc] at hp
    exact hp)
  rw [ht] at ht'
  obtain rfl := Option.some.inj ht'
  have hfold : ops.foldl (apply cr) .new = after cr ops := rfl
  rw [hfold, hf] at hstamp
  exact ⟨t, u, hstamp, hu, hle⟩

theorem statusAt_of_find {g : ChainRegistry} {c : ChainId} {sc : SidechainInfo}
    (hf : g.sidechains.find? c = some sc) : g.statusAt c = some sc.status := by
  unfold statusAt
  rw [hf]
  rfl

theorem orderly_purgeSidechain (cr : Crypto) (ops : List RegistryOp) (c : ChainId) (b : Nat)
    (h : Phased cr (ops ++ [.purgeSidechain c b]))
    (hm : Run.Meets (apply cr) (fun g op => g.orderly op = true) .new ops) :
    (after cr ops).orderly (.purgeSidechain c b) = true := by
  cases hf : (after cr ops).sidechains.find? c with
  | none => simp [orderly, hf]
  | some sc =>
    by_cases hi : sc.isInactive b inactivityThreshold = true
    · obtain ⟨t, d, ht, hp⟩ := purgeSidechain_of_inactive _ c b sc hf hi
      have happly : (after cr ops).apply cr (.purgeSidechain c b) = t := by
        simp only [apply, ht]
        rfl
      rcases h.open_before hm (statusAt_of_find hf) (by rw [happly]; exact hp) with hw | hp'
      · obtain ⟨n, u, hn, hu, hle⟩ := h.window_ended hm hf hw (by rw [happly, hp]; simp)
        obtain rfl : b = u := Option.some.inj hu
        have hended : (sc.withdrawalWindowStart.any fun t => decide (t + withdrawalWindowDuration ≤ b)) = true :=
          (Option.any_eq_true _ _).mpr ⟨n, hn, decide_eq_true hle⟩
        simp [orderly, hf, hw, hended]
      · simp [orderly, hf, hp']
    · simp [orderly, hf, hi]

theorem orderly_autoPurgeInactive (cr : Crypto) (ops : List RegistryOp) (order : IterOrder ChainId) (b : Nat)
    (h : Phased cr (ops ++ [.autoPurgeInactive order b]))
    (hm : Run.Meets (apply cr) (fun g op => g.orderly op = true) .new ops) :
    (after cr ops).orderly (.autoPurgeInactive order b) = true := by
  by_cases hb : b < (after cr ops).lastPurgeCheck + purgeCheckInterval
  · simp [orderly, hb]
  · simp only [orderly, hb, decide_false, Bool.false_or, List.all_eq_true]
    intro sc hsc
    obtain ⟨c, hf⟩ := (SortedMap.mem_values_iff _ _).mp hsc
    by_contra hpurgeable
    have hpurge : isPurgeable b sc = true := by simpa using hpurgeable
    have hs : sc.status = .active := by
      unfold isPurgeable at hpurge
      simp only [Bool.and_eq_true, decide_eq_true_eq] at hpurge
      exact hpurge.1
    have hp := autoPurgeInactive_purges order _ b c sc hb hf hpurge
    rcases h.open_before hm (statusAt_of_find hf) hp with hw | hw
    all_goals
      rw [hs] at hw
      cases hw

theorem orderly_createSidechain (cr : Crypto) (ops : List RegistryOp) (owner : AccountId)
    (name description : Option String) (parent : Option ChainId) (m : SecurityMode) (host : Option ChainId)
    (deposit : Balance) (b : Nat)
    (h : Phased cr (ops ++ [.createSidechain owner name description parent m host deposit b])) :
    (after cr ops).orderly (.createSidechain owner name description parent m host deposit b) = true := by
  cases hacc : (after cr ops).accepts parent m host deposit with
  | false => simp [orderly, hacc]
  | true =>
    cases hf : (after cr ops).sidechains.find? ⟨(after cr ops).nextChainId⟩ with
    | none => simp [orderly, hf]
    | some sc =>
      have hnew := createSidechain_statusAt _ owner name description parent m host deposit b hacc
      have hforward := ((Run.meets_append _ _ _ _ _).mp h.forward).2.1 _ _ _ (statusAt_of_find hf) hnew
      have hzero : sc.status.rank = 0 := Nat.le_zero.mp hforward.rank_le
      simp [orderly, hf, hzero]

/-- An active chain, quiet for long enough, is purged at once. -/
def sampleAbrupt : List RegistryOp :=
  [RegistryOp.createSidechain ⟨1⟩ none none none .sovereign none 10000 0,
    RegistryOp.purgeSidechain ⟨1⟩ (inactivityThreshold + 1)]

end ChainRegistry

end Kratos
