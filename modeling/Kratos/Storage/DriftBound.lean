import Kratos.Lib.Run
import Kratos.Storage.State

/-!
# The drift of an epoch

A block that is accepted adds the difference of its interval to the slots it took, unless it comes
more than an hour late: such a gap is let through and not counted.  The stored tracker is replaced
by accepted blocks only, so its count is the sum over the counted blocks of the current epoch
(`Balanced`), and no epoch sums to more than 1200 seconds either way (`drift_bounded`).

The intervals are taken in integers.  The 64-bit arithmetic of the tracker agrees with them as long
as the seconds of the slots that a block took, and the hour, fit a signed 64-bit value (`counted_eq`).
-/

namespace Kratos

namespace DriftTracker

/-- Actual interval minus expected interval. -/
def drift (t : DriftTracker) (b : Block) : Int :=
  (b.header.timestamp : Int) - t.lastTimestamp - slotDurationSecs * ((b.header.slot : Int) - t.lastSlot)

/-- More than an hour over the expected interval. -/
def isGap (t : DriftTracker) (b : Block) : Bool :=
  decide (b.header.timestamp - t.lastTimestamp >
    Word.satAdd64 (Word.satMul64 (b.header.slot - t.lastSlot) slotDurationSecs) restartGraceDrift)

def offer (t : DriftTracker) (b : Block) : DriftTracker × Except DriftError Int :=
  t.validateAndUpdate b.header.number b.header.timestamp b.header.epoch b.header.slot slotDurationSecs

/-- A block after genesis, in a later slot and no earlier epoch than the tracked one.  The largest interval
that is no gap fits a signed 64-bit value. -/
structure Follows (t : DriftTracker) (b : Block) : Prop where
  number : b.header.number ≠ 0
  epoch : t.currentEpoch ≤ b.header.epoch
  slot : t.lastSlot < b.header.slot
  fits : slotDurationSecs * (b.header.slot - t.lastSlot) + restartGraceDrift < 2 ^ 63

/-- What the tracker counts is the drift. -/
theorem counted_eq (t : DriftTracker) (b : Block) (h : t.Follows b) (hlater : t.lastTimestamp < b.header.timestamp)
    (hgap : t.isGap b = false)
    (hsingle : ¬Word.absI64 (Word.satSubI64 (Word.asI64 (b.header.timestamp - t.lastTimestamp))
      (Word.asI64 (Word.satMul64 (b.header.slot - t.lastSlot) slotDurationSecs))) > maxSingleBlockDrift) :
    Word.satSubI64 (Word.asI64 (b.header.timestamp - t.lastTimestamp))
        (Word.asI64 (Word.satMul64 (b.header.slot - t.lastSlot) slotDurationSecs)) = t.drift b ∧
      |t.drift b| ≤ 5 := by
  have hslot := h.slot
  have hfits := h.fits
  unfold isGap at hgap
  rw [decide_eq_false_iff_not] at hgap
  unfold drift
  unfold slotDurationSecs restartGraceDrift maxSingleBlockDrift at *
  generalize hinterval : b.header.timestamp - t.lastTimestamp = actual at *
  generalize hslots : b.header.slot - t.lastSlot = slots at *
  have htime : (b.header.timestamp : Int) - t.lastTimestamp = actual := by omega
  have hdiff : (b.header.slot : Int) - t.lastSlot = slots := by omega
  rw [htime, hdiff]
  have hmul : Word.satMul64 slots 6 = 6 * slots := by
    unfold Word.satMul64 Word.u64Max
    omega
  rw [hmul] at hgap hsingle ⊢
  have hactual : actual ≤ 6 * slots + 3600 := by
    unfold Word.satAdd64 Word.u64Max at hgap
    omega
  have hsub : Word.satSubI64 (Word.asI64 actual) (Word.asI64 (6 * slots)) = (actual : Int) - 6 * slots := by
    unfold Word.satSubI64 Word.clampI64 Word.asI64
    rw [if_pos (by omega), if_pos (by omega)]
    push_cast
    omega
  rw [hsub] at hsingle ⊢
  refine ⟨rfl, ?_⟩
  unfold Word.absI64 at hsingle
  rw [if_neg (by omega)] at hsingle
  rw [abs_le]
  omega

/-! ## Sums over an epoch -/

/-- Total of an epoch in a log of epochs and drifts. -/
def epochSum (epoch : Nat) (log : List (Nat × Int)) : Int :=
  ((log.filter fun e => decide (e.1 = epoch)).map Prod.snd).sum

theorem epochSum_append (epoch : Nat) (log log' : List (Nat × Int)) :
    epochSum epoch (log ++ log') = epochSum epoch log + epochSum epoch log' := by
  simp [epochSum]

theorem epochSum_singleton (epoch e : Nat) (d : Int) : epochSum epoch [(e, d)] = if e = epoch then d else 0 := by
  by_cases h : e = epoch <;> simp [epochSum, h]

theorem epochSum_of_lt (epoch : Nat) (log : List (Nat × Int)) (h : ∀ e ∈ log, e.1 < epoch) : epochSum epoch log = 0 := by
  have hnil : (log.filter fun e => decide (e.1 = epoch)) = [] := by
    rw [List.filter_eq_nil_iff]
    intro e he heq
    have := h e he
    rw [decide_eq_true_iff] at heq
    omega
  rw [epochSum, hnil]
  rfl

/-- The tracker counts the logged drifts of its epoch, which is the last one logged. -/
structure Balanced (t : DriftTracker) (log : List (Nat × Int)) : Prop where
  current : t.epochDrift = epochSum t.currentEpoch log
  bounded : ∀ epoch, |epochSum epoch log| ≤ maxCumulativeDriftPerEpoch
  past : ∀ e ∈ log, e.1 ≤ t.currentEpoch

theorem balanced_new (g : Nat) : (new g).Balanced [] where
  current := rfl
  bounded := fun _ => by simp [epochSum, maxCumulativeDriftPerEpoch]
  past := fun e he => absurd he List.not_mem_nil

theorem Balanced.track {t : DriftTracker} {log : List (Nat × Int)} (h : t.Balanced log) (n ts slot : Nat) :
    (t.track n ts slot).Balanced log := ⟨h.current, h.bounded, h.past⟩

theorem Balanced.enterEpoch {t : DriftTracker} {log : List (Nat × Int)} (h : t.Balanced log) (e : Nat) :
    (t.enterEpoch e).Balanced log := by
  unfold DriftTracker.enterEpoch
  split
  · next hlater =>
    exact
      { current := (epochSum_of_lt e log fun x hx => lt_of_le_of_lt (h.past x hx) hlater).symm
        bounded := h.bounded
        past := fun x hx => (h.past x hx).trans (le_of_lt hlater) }
  · exact h

theorem currentEpoch_enterEpoch (t : DriftTracker) (e : Nat) (h : t.currentEpoch ≤ e) :
    (t.enterEpoch e).currentEpoch = e := by
  unfold enterEpoch
  split
  · rfl
  · omega

/-- A drift within the limit of the epoch is logged. -/
theorem Balanced.add {t : DriftTracker} {log : List (Nat × Int)} (h : t.Balanced log) (d : Int)
    (hsingle : |d| ≤ 5) (hlimit : ¬Word.absI64 (Word.satAddI64 t.epochDrift d) > maxCumulativeDriftPerEpoch) :
    Balanced { t with epochDrift := Word.satAddI64 t.epochDrift d } (log ++ [(t.currentEpoch, d)]) := by
  have hold : |t.epochDrift| ≤ maxCumulativeDriftPerEpoch := by
    rw [h.current]
    exact h.bounded t.currentEpoch
  unfold maxCumulativeDriftPerEpoch at hold hlimit
  rw [abs_le] at hold hsingle
  have hsum : Word.satAddI64 t.epochDrift d = t.epochDrift + d := by
    unfold Word.satAddI64 Word.clampI64
    omega
  rw [hsum] at hlimit ⊢
  have hnew : |t.epochDrift + d| ≤ 1200 := by
    unfold Word.absI64 at hlimit
    rw [abs_le]
    split_ifs at hlimit <;> omega
  refine ⟨?_, fun epoch => ?_, fun x hx => ?_⟩
  · rw [epochSum_append, epochSum_singleton, if_pos rfl, ← h.current]
  · rw [epochSum_append, epochSum_singleton]
    by_cases he : t.currentEpoch = epoch
    · rw [if_pos he, ← he, ← h.current]
      exact hnew
    · rw [if_neg he, Int.add_zero]
      exact h.bounded epoch
  · rcases List.mem_append.mp hx with hx | hx
    · exact h.past x hx
    · rw [List.mem_singleton.mp hx]

/-- What an accepted block adds to the log. -/
def entry (t : DriftTracker) (b : Block) : List (Nat × Int) :=
  if t.isGap b then [] else [(b.header.epoch, t.drift b)]

/-- **Step.**  An accepted block keeps the count balanced. -/
theorem Balanced.offer {t : DriftTracker} {log : List (Nat × Int)} (hb : t.Balanced log) (b : Block)
    (h : t.Follows b) (d : Int) (hok : (t.offer b).2 = .ok d) : (t.offer b).1.Balanced (log ++ t.entry b) := by
  unfold DriftTracker.offer validateAndUpdate at hok ⊢
  rw [if_neg h.number] at hok ⊢
  by_cases hlater : b.header.timestamp ≤ t.lastTimestamp
  · rw [if_pos hlater] at hok
    cases hok
  · rw [if_neg hlater] at hok ⊢
    simp only at hok ⊢
    cases hgap : t.isGap b with
    | true =>
      unfold isGap at hgap
      rw [decide_eq_true_iff] at hgap
      rw [if_pos hgap]
      simp only [entry, isGap, hgap, decide_true, if_true, List.append_nil]
      have hgrace : Balanced { t with restartGraceActive := true } log := ⟨hb.current, hb.bounded, hb.past⟩
      exact (hgrace.track b.header.number b.header.timestamp b.header.slot).enterEpoch b.header.epoch
    | false =>
      have hentry : t.entry b = [(b.header.epoch, t.drift b)] := by rw [entry, hgap]; rfl
      have hcounted := t.counted_eq b h (not_le.mp hlater) hgap
      unfold isGap at hgap
      rw [decide_eq_false_iff_not] at hgap
      rw [if_neg hgap] at hok ⊢
      by_cases hsingle : Word.absI64 (Word.satSubI64 (Word.asI64 (b.header.timestamp - t.lastTimestamp))
          (Word.asI64 (Word.satMul64 (b.header.slot - t.lastSlot) slotDurationSecs))) > maxSingleBlockDrift
      · rw [if_pos hsingle] at hok
        cases hok
      · obtain ⟨heq, hle⟩ := hcounted hsingle
        rw [if_neg hsingle] at hok ⊢
        rw [heq] at hok ⊢
        have hcalm : Balanced { t with restartGraceActive := false } log := ⟨hb.current, hb.bounded, hb.past⟩
        have hentered := hcalm.enterEpoch b.header.epoch
        have hepoch := currentEpoch_enterEpoch { t with restartGraceActive := false } b.header.epoch h.epoch
        generalize DriftTracker.enterEpoch { t with restartGraceActive := false } b.header.epoch = u at *
        split at hok
        · cases hok
        · next hlimit =>
          rw [if_neg hlimit, hentry, ← hepoch]
          exact (hentered.add (t.drift b) hle hlimit).track _ _ _

/-- A rejected block is not tracked. -/
theorem offer_error (t : DriftTracker) (b : Block) (e : DriftError) (he : (t.offer b).2 = .error e) :
    (t.offer b).1.lastBlock = t.lastBlock ∧ (t.offer b).1.lastTimestamp = t.lastTimestamp ∧
      (t.offer b).1.lastSlot = t.lastSlot := by
  have hentered : ∀ (u : DriftTracker) (epoch : Nat), (u.enterEpoch epoch).lastBlock = u.lastBlock ∧
      (u.enterEpoch epoch).lastTimestamp = u.lastTimestamp ∧ (u.enterEpoch epoch).lastSlot = u.lastSlot := by
    intro u epoch
    unfold enterEpoch
    split <;> exact ⟨rfl, rfl, rfl⟩
  unfold DriftTracker.offer validateAndUpdate at he ⊢
  by_cases hn : b.header.number = 0
  · rw [if_pos hn] at he
    cases he
  rw [if_neg hn] at he ⊢
  by_cases hlater : b.header.timestamp ≤ t.lastTimestamp
  · rw [if_pos hlater]
    exact ⟨rfl, rfl, rfl⟩
  rw [if_neg hlater] at he ⊢
  simp only at he ⊢
  split at he
  · cases he
  · next hgap =>
    rw [if_neg hgap]
    split
    · exact ⟨rfl, rfl, rfl⟩
    · next hsingle =>
      rw [if_neg hsingle] at he
      split at he
      · next hlimit =>
        rw [if_pos hlimit]
        exact hentered _ b.header.epoch
      · cases he

end DriftTracker

/-! ## Runs -/

namespace StateBackend

def offer (s : StateBackend) (b : Block) : StateBackend := (s.validateBlockDrift b slotDurationSecs).1

/-- An accepted block comes after the tracked one. -/
def InOrder (s : StateBackend) (b : Block) : Prop :=
  ∀ t d, s.driftTracker = some t → (t.offer b).2 = .ok d → t.Follows b

/-- The epochs and drifts of the accepted blocks but for the gaps. -/
def drifts : StateBackend → List Block → List (Nat × Int)
  | _, [] => []
  | s, b :: bs =>
    (match s.driftTracker with
      | some t => if (t.offer b).2.isOk then t.entry b else []
      | none => []) ++ drifts (s.offer b) bs

theorem drifts_balanced (s : StateBackend) (t : DriftTracker) (log : List (Nat × Int)) (bs : List Block)
    (ht : s.driftTracker = some t) (hb : t.Balanced log) (h : Run.Meets offer InOrder s bs) :
    ∃ t', (bs.foldl offer s).driftTracker = some t' ∧ t'.Balanced (log ++ drifts s bs) := by
  induction bs generalizing s t log with
  | nil => exact ⟨t, ht, by simpa [drifts] using hb⟩
  | cons b bs ih =>
    simp only [drifts, ht, List.foldl_cons]
    cases hok : (t.offer b).2 with
    | error e =>
      have hsame : s.offer b = s := by
        unfold DriftTracker.offer at hok
        simp [offer, validateBlockDrift, ht, hok]
      rw [hsame]
      have hrest := h.2
      rw [hsame] at hrest
      simpa [Except.isOk, Except.toBool] using ih s t log ht hb hrest
    | ok d =>
      have hnext : (s.offer b).driftTracker = some (t.offer b).1 := by
        unfold DriftTracker.offer at hok ⊢
        simp [offer, validateBlockDrift, ht, hok]
      have hstep := hb.offer b (h.1 t d ht hok) d hok
      have := ih (s.offer b) (t.offer b).1 (log ++ t.entry b) hnext hstep h.2
      simpa [Except.isOk, Except.toBool] using this

/-- From a fresh tracker, the accepted blocks of an epoch other than gaps drift by no more than the
limit together.  A rejected block is not tracked and leaves the stored state as it was. -/
theorem drift_bounded (s : StateBackend) (g : Nat) (bs : List Block)
    (h : Run.Meets offer InOrder (s.initDriftTracker g) bs) :
    (∀ epoch, |DriftTracker.epochSum epoch (drifts (s.initDriftTracker g) bs)| ≤ maxCumulativeDriftPerEpoch) ∧
    (∀ (t : DriftTracker) (b : Block) (e : DriftError), (t.offer b).2 = .error e →
      (t.offer b).1.lastBlock = t.lastBlock ∧ (t.offer b).1.lastTimestamp = t.lastTimestamp ∧
        (t.offer b).1.lastSlot = t.lastSlot) ∧
    ∀ (u : StateBackend) (b : Block) (e : StateError),
      (u.validateBlockDrift b slotDurationSecs).2 = .error e → (u.validateBlockDrift b slotDurationSecs).1 = u := by
  refine ⟨?_, DriftTracker.offer_error, ?_⟩
  · obtain ⟨t, -, hb⟩ := drifts_balanced (s.initDriftTracker g) (.new g) [] bs rfl (DriftTracker.balanced_new g) h
    exact hb.bounded
  · intro u b e he
    rcases u.validateBlockDrift_cases b slotDurationSecs with ⟨e', hc⟩ | ⟨t, d, -, -, hc⟩
    · rw [hc]
    · rw [hc] at he
      cases he

def sampleTimed (number timestamp slot : Nat) : Block :=
  { header :=
      { number, parentHash := .zero, transactionsRoot := .zero, stateRoot := .zero, timestamp, epoch := 0, slot
        author := ⟨1⟩, signature := .zero }
    body := { transactions := [] } }

theorem drift_bounded_sample :
    DriftTracker.epochSum 0
        (drifts (new.initDriftTracker 0) [sampleTimed 1 7 1, sampleTimed 2 5000 2, sampleTimed 3 5008 3]) = 3 ∧
      |DriftTracker.epochSum 0
        (drifts (new.initDriftTracker 0) [sampleTimed 1 7 1, sampleTimed 2 5000 2, sampleTimed 3 5008 3])| ≤
          maxCumulativeDriftPerEpoch := by
  have hrun : Run.Meets offer InOrder (new.initDriftTracker 0)
      [sampleTimed 1 7 1, sampleTimed 2 5000 2, sampleTimed 3 5008 3] := by
    refine ⟨?_, ?_, ?_, trivial⟩
    all_goals
      intro t d ht _
      cases Option.some.inj ht
      exact ⟨by decide, by decide, by decide, by decide⟩
  exact ⟨by decide, (drift_bounded new 0 _ hrun).1 0⟩

/-- A gap of 4994 seconds is accepted, and the block rejected after it has ended the grace. -/
theorem gap_exceeds_limit :
    ((DriftTracker.new 0).offer (sampleTimed 1 5000 1)).2 = .ok 0 ∧
      (DriftTracker.new 0).drift (sampleTimed 1 5000 1) = 4994 ∧ maxCumulativeDriftPerEpoch < 4994 ∧
      (((DriftTracker.new 0).offer (sampleTimed 1 5000 1)).1.offer (sampleTimed 2 5100 2)).2 =
        .error (.singleBlockDriftExceeded 94 5 2) ∧
      (((DriftTracker.new 0).offer (sampleTimed 1 5000 1)).1.offer (sampleTimed 2 5100 2)).1 ≠
        ((DriftTracker.new 0).offer (sampleTimed 1 5000 1)).1 := by
  decide

end StateBackend

end Kratos
