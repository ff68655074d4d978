import Kratos.Node.Producer
import Kratos.Storage.DriftBound

/-!
# Canonical timestamps

A produced block is stamped with the time of its slot.  Such blocks are judged twice: against their
parent (`BlockValidator.validateTimestamp`) and against the last tracked block
(`DriftTracker.validateAndUpdate`), which is an older one when blocks in between were not tracked.
Both intervals are then whole slots: a tracker that was on time stays so (`OnTime`), and neither
check finds any drift.
-/

namespace Kratos

/-- Stamped with the time of its slot, which fits a signed 64-bit value. -/
structure Canonical (g : Nat) (b : Block) : Prop where
  timestamp : b.header.timestamp = g + slotDurationSecs * b.header.slot
  fits : g + slotDurationSecs * b.header.slot < 2 ^ 63

/-- The time that `produceBlock` stamps. -/
theorem slotTimestamp_eq (now : Nat) (state : StateBackend) (t : DriftTracker) (slot : Nat)
    (ht : state.driftTracker = some t) (hfits : t.genesisTimestamp + slotDurationSecs * slot < 2 ^ 63) :
    BlockProducer.slotTimestamp now state slot = t.genesisTimestamp + slotDurationSecs * slot := by
  unfold BlockProducer.slotTimestamp Word.satAdd64 Word.satMul64 Word.u64Max
  rw [ht, Option.map_some, Option.getD_some]
  unfold slotDurationSecs at *
  omega

/-- A whole number of slots has no drift. -/
theorem wholeSlots_drift (slots : Nat) (hfits : slotDurationSecs * slots < 2 ^ 63) :
    Word.satMul64 slots slotDurationSecs = slotDurationSecs * slots ∧
      Word.satSubI64 (Word.asI64 (slotDurationSecs * slots)) (Word.asI64 (slotDurationSecs * slots)) = 0 := by
  constructor
  · unfold Word.satMul64 Word.u64Max
    rw [Nat.mul_comm]
    omega
  · unfold Word.satSubI64
    rw [Int.sub_self]
    rfl

theorem Canonical.interval {g : Nat} {parent b : Block} (hp : Canonical g parent) (hb : Canonical g b)
    (hslot : parent.header.slot < b.header.slot) :
    b.header.timestamp - parent.header.timestamp = slotDurationSecs * (b.header.slot - parent.header.slot) := by
  have h₁ := hp.timestamp
  have h₂ := hb.timestamp
  unfold slotDurationSecs at *
  omega

/-- Against a parent in an earlier slot, once the clock permits. -/
theorem Canonical.validateTimestamp {g : Nat} {parent b : Block} (hp : Canonical g parent) (hb : Canonical g b)
    (hslot : parent.header.slot < b.header.slot) (now : Nat)
    (hclock : b.header.timestamp ≤ Word.satAdd64 now maxFutureDriftSecs) :
    BlockValidator.validateTimestamp now b parent = .ok () := by
  have hinterval := hp.interval hb hslot
  have hfits := hb.fits
  obtain ⟨hmul, hdrift⟩ := wholeSlots_drift (b.header.slot - parent.header.slot)
    (by unfold slotDurationSecs at *; omega)
  unfold BlockValidator.validateTimestamp
  simp only
  rw [hinterval, hmul, hdrift, if_neg, if_neg (by omega), if_neg, if_neg (by decide)]
  · unfold minBlockIntervalSecs slotDurationSecs
    omega
  · unfold slotDurationSecs at hinterval
    omega

namespace DriftTracker

/-- No drift counted, and the last tracked block stamped with the time of its slot. -/
structure OnTime (g : Nat) (t : DriftTracker) : Prop where
  drift : t.epochDrift = 0
  last : t.lastTimestamp = g + slotDurationSecs * t.lastSlot

theorem onTime_new (g : Nat) : OnTime g (new g) := ⟨rfl, rfl⟩

theorem OnTime.enterEpoch {g : Nat} {t : DriftTracker} (h : t.OnTime g) (epoch : Nat) :
    (t.enterEpoch epoch).OnTime g ∧ (t.enterEpoch epoch).lastSlot = t.lastSlot := by
  unfold DriftTracker.enterEpoch
  split
  · exact ⟨⟨rfl, h.last⟩, rfl⟩
  · exact ⟨h, rfl⟩

/-- **Step.**  A canonical block in a later slot than the tracked one, or with number 0, is accepted
without drift. -/
theorem OnTime.offer {g : Nat} {t : DriftTracker} (h : t.OnTime g) (b : Block) (hb : Canonical g b)
    (hslot : b.header.number = 0 ∨ t.lastSlot < b.header.slot) :
    (t.offer b).2 = .ok 0 ∧ (t.offer b).1.OnTime g ∧ (t.offer b).1.lastSlot = b.header.slot := by
  have hlast := h.last
  have htime := hb.timestamp
  have hfits := hb.fits
  unfold DriftTracker.offer validateAndUpdate
  by_cases hn : b.header.number = 0
  · rw [if_pos hn]
    exact ⟨rfl, ⟨h.drift, htime⟩, rfl⟩
  have hslot := hslot.resolve_left hn
  have hinterval : b.header.timestamp - t.lastTimestamp = slotDurationSecs * (b.header.slot - t.lastSlot) := by
    unfold slotDurationSecs at *
    omega
  obtain ⟨hmul, hdrift⟩ := wholeSlots_drift (b.header.slot - t.lastSlot) (by unfold slotDurationSecs at *; omega)
  have hgap : ¬slotDurationSecs * (b.header.slot - t.lastSlot) >
      Word.satAdd64 (slotDurationSecs * (b.header.slot - t.lastSlot)) restartGraceDrift := by
    unfold Word.satAdd64 Word.u64Max slotDurationSecs at *
    omega
  rw [if_neg hn, if_neg (by unfold slotDurationSecs at *; omega)]
  simp only
  rw [hinterval, hmul, hdrift, if_neg hgap, if_neg (by decide)]
  have hcalm : OnTime g { t with restartGraceActive := false } := ⟨h.drift, hlast⟩
  obtain ⟨hentered, -⟩ := hcalm.enterEpoch b.header.epoch
  have hsum : Word.satAddI64 (DriftTracker.enterEpoch { t with restartGraceActive := false } b.header.epoch).epochDrift 0
      = 0 := by
    rw [hentered.drift]
    rfl
  rw [hsum, if_neg (by decide)]
  exact ⟨rfl, ⟨rfl, htime⟩, rfl⟩

/-- **Run.**  Canonical blocks in increasing slots, from a tracker on time. -/
theorem OnTime.run {g : Nat} (t : DriftTracker) (tracked : List Block) (h : t.OnTime g)
    (hcanonical : ∀ b ∈ tracked, Canonical g b)
    (hlater : ∀ b ∈ tracked, b.header.number = 0 ∨ t.lastSlot < b.header.slot)
    (hsorted : tracked.Pairwise fun a b => a.header.slot < b.header.slot) :
    Run.Meets (fun t b => (t.offer b).1) (fun t b => (t.offer b).2 = .ok 0) t tracked := by
  induction tracked generalizing t with
  | nil => trivial
  | cons b tracked ih =>
    obtain ⟨hok, hnext, hslot⟩ := h.offer b (hcanonical b List.mem_cons_self) (hlater b List.mem_cons_self)
    rw [List.pairwise_cons] at hsorted
    refine ⟨hok, ih _ hnext (fun c hc => hcanonical c (List.mem_cons_of_mem b hc)) (fun c hc => Or.inr ?_) hsorted.2⟩
    rw [hslot]
    exact hsorted.1 c hc

end DriftTracker

/-- Blocks stamped with the time of their slots, in increasing slots from genesis on, pass the check
against their parent and, whichever of them are tracked, the check against the last tracked block. -/
theorem canonical_accepted (genesis : Block) (blocks : List Block)
    (hnumber : genesis.header.number = 0) (hgenesis : genesis.header.slot = 0)
    (hcanonical : ∀ b ∈ genesis :: blocks, Canonical genesis.header.timestamp b)
    (hsorted : (genesis :: blocks).Pairwise fun a b => a.header.slot < b.header.slot) :
    (∀ (pre post : List Block) (parent b : Block) (now : Nat), genesis :: blocks = pre ++ parent :: b :: post →
      b.header.timestamp ≤ Word.satAdd64 now maxFutureDriftSecs →
        BlockValidator.validateTimestamp now b parent = .ok ()) ∧
    (∀ tracked : List Block, tracked.Sublist (genesis :: blocks) →
      Run.Meets (fun t b => (t.offer b).1) (fun t b => (t.offer b).2 = .ok 0)
        (DriftTracker.new genesis.header.timestamp) tracked) ∧
    ∀ (now : Nat) (state : StateBackend) (t : DriftTracker) (slot : Nat), state.driftTracker = some t →
      t.genesisTimestamp + slotDurationSecs * slot < 2 ^ 63 →
        BlockProducer.slotTimestamp now state slot = t.genesisTimestamp + slotDurationSecs * slot := by
  refine ⟨fun pre post parent b now hsplit hclock => ?_, fun tracked hsub => ?_, slotTimestamp_eq⟩
  · have hparent : Canonical genesis.header.timestamp parent := hcanonical parent (by rw [hsplit]; simp)
    have hb : Canonical genesis.header.timestamp b := hcanonical b (by rw [hsplit]; simp)
    rw [hsplit, List.pairwise_append, List.pairwise_cons] at hsorted
    exact hparent.validateTimestamp hb (hsorted.2.1.1 b List.mem_cons_self) now hclock
  · refine DriftTracker.OnTime.run _ tracked (DriftTracker.onTime_new _) (fun b hb => hcanonical b (hsub.subset hb)) ?_
      (hsorted.sublist hsub)
    intro b hb
    rcases List.mem_cons.mp (hsub.subset hb) with rfl | hb
    · exact Or.inl hnumber
    · rw [List.pairwise_cons] at hsorted
      have := hsorted.1 b hb
      exact Or.inr (by rw [hgenesis] at this; exact this)

/-- Slots 2 to 4 are skipped and the block of slot 1 is not tracked. -/
theorem canonical_accepted_sample :
    BlockValidator.validateTimestamp 1025 (StateBackend.sampleTimed 2 1030 5) (StateBackend.sampleTimed 1 1006 1) =
        .ok () ∧
      ((DriftTracker.new 1000).offer (StateBackend.sampleTimed 2 1030 5)).2 = .ok 0 := by
  have h := canonical_accepted (StateBackend.sampleTimed 0 1000 0)
    [StateBackend.sampleTimed 1 1006 1, StateBackend.sampleTimed 2 1030 5] rfl rfl
    (by
      intro b hb
      simp only [List.mem_cons, List.not_mem_nil, or_false] at hb
      rcases hb with rfl | rfl | rfl <;> exact ⟨by decide, by decide⟩)
    (by decide)
  refine ⟨h.1 [StateBackend.sampleTimed 0 1000 0] [] _ _ 1025 rfl (by decide), ?_⟩
  exact (h.2.1 [StateBackend.sampleTimed 2 1030 5] ((List.sublist_append_right [_, _] _))).1

end Kratos
