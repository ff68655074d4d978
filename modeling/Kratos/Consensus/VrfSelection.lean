import Kratos.Lib.FirstMax
import Kratos.Types.Primitives

/-!
# Weighted selection of the slot leader

Every candidate gets the product of a weight (from its stake and credits) and a pseudo-random
fraction (from a hash of its id, the slot and the epoch); the list is sorted by these scores,
largest first, and its head is selected.  The floating-point operations are parameters
(`FloatOps`).  The weight and the fraction enter the selection as two functions
(`VrfScoring`), of which those of the source are one instance (`FloatOps.scoring`).

The sort is stable, so equal scores are decided by the position in the list.  The selection is
the same for every order, and eligible, exactly when one candidate has a score above all
others, a lone one being eligible (`selectValidator_orderless_iff`).
-/

namespace Kratos

def stakeCap : Nat := 1000000

/-- Credits that a candidate is weighted with at least. -/
def minEffectiveVc : Nat := 1

def bootstrapMinVcRequirement : Nat := 100

/-! ## Weights and fractions -/

/-- The operations on `f64` in use here. -/
structure FloatOps (σ : Type) where
  zero : σ
  mul : σ → σ → σ
  /-- `BOOTSTRAP_STAKE_COMPONENT`. -/
  bootstrapStakeComponent : σ
  sqrt : Nat → σ
  /-- `ln (1 + n)`. -/
  lnSucc : Nat → σ
  /-- A `u64` divided by 2⁶⁴. -/
  fraction : Nat → σ

/-- How candidates are scored: a weight from stake and credits, a random value from id, slot and epoch. -/
structure VrfScoring (σ : Type) where
  weight : Balance → Nat → σ
  random : AccountId → Nat → Nat → σ
  mul : σ → σ → σ

def isBootstrapEligible (stake : Balance) (validatorCredits : Nat) : Bool :=
  if stake = 0 then decide (validatorCredits ≥ bootstrapMinVcRequirement) else true

section FloatOps

variable {σ : Type} [LinearOrder σ] (f : FloatOps σ)

def FloatOps.computeVrfWeight (stake : Balance) (validatorCredits : Nat) : σ :=
  if stake = 0 ∧ validatorCredits < bootstrapMinVcRequirement then f.zero
  else
    let stakeComponent :=
      if stake = 0 then f.bootstrapStakeComponent else min (f.sqrt stake.val) (f.sqrt stakeCap)
    let effectiveVc := max validatorCredits minEffectiveVc
    f.mul stakeComponent (f.lnSucc effectiveVc)

/-- The first eight bytes of the hash as a fraction. -/
def FloatOps.randomVal (cr : Crypto) (validatorId : AccountId) (slot epoch : Nat) : σ :=
  let hash := cr.blake3 (validatorId.asBytes ++ (Bytes.le 8 slot ++ Bytes.le 8 epoch))
  f.fraction (Bytes.ofLe (hash.asBytes.take 8))

def FloatOps.scoring (cr : Crypto) : VrfScoring σ :=
  { weight := f.computeVrfWeight, random := f.randomVal cr, mul := f.mul }

theorem FloatOps.computeVrfWeight_of_not_eligible (stake : Balance) (vc : Nat)
    (h : isBootstrapEligible stake vc = false) : f.computeVrfWeight stake vc = f.zero := by
  unfold isBootstrapEligible at h
  split at h
  · rename_i hstake
    have hvc : vc < bootstrapMinVcRequirement := by simpa using h
    rw [computeVrfWeight, if_pos ⟨hstake, hvc⟩]
  · cases h

end FloatOps

/-! ## Selection -/

inductive VRFError where
  | noKeypair
  | invalidProof
  | invalidOutput
  | verificationFailed
  | noCandidates
deriving DecidableEq, Repr

structure Candidate where
  id : AccountId
  stake : Balance
  vc : Nat
deriving DecidableEq, Repr

variable {σ : Type} [LinearOrder σ] (sc : VrfScoring σ)

/-- Weight times random value. -/
def VrfScoring.score (slot epoch : Nat) (c : Candidate) : σ :=
  sc.mul (sc.weight c.stake c.vc) (sc.random c.id slot epoch)

def selectValidator (slot epoch : Nat) (candidates : List Candidate) : Except VRFError AccountId :=
  if candidates.isEmpty then .error .noCandidates
  else
    let weightedScores := candidates.map fun c => (c.id, sc.score slot epoch c)
    match weightedScores.insertionSort fun a b => b.2 ≤ a.2 with
    | [] => .error .noCandidates
    | (id, _) :: _ => .ok id

/-- Candidates without credits for their missing stake score as little as anybody can. -/
structure ZeroWeight (zero : σ) : Prop where
  weight : ∀ stake vc, isBootstrapEligible stake vc = false → sc.weight stake vc = zero
  mul : ∀ r, sc.mul zero r = zero
  least : ∀ w r, zero ≤ sc.mul w r

/-- The scoring of the source, where a product with zero is zero and no product is less. -/
theorem FloatOps.scoring_zeroWeight (f : FloatOps σ) (cr : Crypto) (hmul : ∀ r, f.mul f.zero r = f.zero)
    (hleast : ∀ w r, f.zero ≤ f.mul w r) : ZeroWeight (f.scoring cr) f.zero where
  weight := f.computeVrfWeight_of_not_eligible
  mul := hmul
  least := hleast

theorem selectValidator_eq (slot epoch : Nat) (candidates : List Candidate) :
    selectValidator sc slot epoch candidates =
      match firstMax (sc.score slot epoch) candidates with
      | none => .error .noCandidates
      | some c => .ok c.id := by
  cases candidates with
  | nil => rfl
  | cons x l =>
    have h := firstMax_map (fun p : AccountId × σ => p.2) (fun c : Candidate => (c.id, sc.score slot epoch c)) (x :: l)
    obtain ⟨c, hc⟩ := firstMax_isSome (sc.score slot epoch) (x :: l) (by simp)
    change _ = (firstMax (sc.score slot epoch) (x :: l)).map _ at h
    rw [hc, Option.map_some, firstMax] at h
    rw [hc, selectValidator]
    simp only [List.isEmpty_cons, Bool.false_eq_true, if_false]
    cases hs : ((x :: l).map fun c => (c.id, sc.score slot epoch c)).insertionSort fun a b => b.2 ≤ a.2 with
    | nil =>
      rw [hs] at h
      cases h
    | cons p rest =>
      rw [hs] at h
      obtain rfl := Option.some.inj h
      rfl

theorem selectValidator_eq_ok_iff (slot epoch : Nat) (candidates : List Candidate) (id : AccountId) :
    selectValidator sc slot epoch candidates = .ok id ↔
      ∃ c, firstMax (sc.score slot epoch) candidates = some c ∧ c.id = id := by
  rw [selectValidator_eq]
  cases firstMax (sc.score slot epoch) candidates with
  | none => simp
  | some c => simp

/-- A candidate that scores above another one is eligible. -/
theorem eligible_of_score_lt (zero : σ) (hz : ZeroWeight sc zero) (slot epoch : Nat) (c d : Candidate)
    (h : sc.score slot epoch d < sc.score slot epoch c) : isBootstrapEligible c.stake c.vc = true := by
  by_contra hc
  have hzero : sc.score slot epoch c = zero := by
    rw [VrfScoring.score, hz.weight c.stake c.vc (by simpa using hc), hz.mul]
  rw [hzero] at h
  exact absurd (hz.least _ _) (not_le_of_gt h)

/-- The selection does not depend on the order of the candidates and is eligible exactly when one
candidate scores above all others, and is eligible if there are no others. -/
theorem selectValidator_orderless_iff (zero : σ) (hz : ZeroWeight sc zero) (slot epoch : Nat)
    (candidates : List Candidate) (hids : (candidates.map Candidate.id).Nodup) :
    ((∀ l : List Candidate, l.Perm candidates →
        selectValidator sc slot epoch l = selectValidator sc slot epoch candidates) ∧
      ∀ id, selectValidator sc slot epoch candidates = .ok id →
        ∀ c ∈ candidates, c.id = id → isBootstrapEligible c.stake c.vc = true) ↔
    candidates = [] ∨ ∃ c ∈ candidates, (candidates = [c] → isBootstrapEligible c.stake c.vc = true) ∧
      ∀ d ∈ candidates, d ≠ c → sc.score slot epoch d < sc.score slot epoch c := by
  have hinj : ∀ c ∈ candidates, ∀ d ∈ candidates, c.id = d.id → c = d :=
    fun c hc d hd h => List.inj_on_of_nodup_map hids hc hd h
  have hnodup : candidates.Nodup := List.Nodup.of_map Candidate.id hids
  constructor
  · rintro ⟨hperm, helig⟩
    by_cases hne : candidates = []
    · exact .inl hne
    · obtain ⟨c, hc⟩ := firstMax_isSome (sc.score slot epoch) candidates hne
      have hmem := (isFirstMax_firstMax _ _ _ hc).mem
      have hsel : selectValidator sc slot epoch candidates = .ok c.id :=
        (selectValidator_eq_ok_iff sc slot epoch candidates c.id).mpr ⟨c, hc, rfl⟩
      have hall : ∀ l : List Candidate, l.Perm candidates → firstMax (sc.score slot epoch) l = some c := by
        intro l hl
        obtain ⟨d, hd, hid⟩ :=
          (selectValidator_eq_ok_iff sc slot epoch l c.id).mp ((hperm l hl).trans hsel)
        have hdmem := hl.mem_iff.mp (isFirstMax_firstMax _ _ _ hd).mem
        rw [hd, hinj d hdmem c hmem hid]
      have hlt := ((firstMax_perm_iff (sc.score slot epoch) candidates hnodup c).mp hall).2
      exact .inr ⟨c, hmem, fun _ => helig c.id hsel c hmem rfl, hlt⟩
  · rintro (rfl | ⟨c, hmem, hlone, hlt⟩)
    · refine ⟨fun l hl => by rw [hl.eq_nil], fun id h => ?_⟩
      cases h
    · have hall := (firstMax_perm_iff (sc.score slot epoch) candidates hnodup c).mpr ⟨hmem, hlt⟩
      have helig : isBootstrapEligible c.stake c.vc = true := by
        by_cases hother : ∃ d ∈ candidates, d ≠ c
        · obtain ⟨d, hd, hne⟩ := hother
          exact eligible_of_score_lt sc zero hz slot epoch c d (hlt d hd hne)
        · have hall : ∀ d ∈ candidates, d = c := fun d hd => by
            by_contra hne
            exact hother ⟨d, hd, hne⟩
          exact hlone (List.perm_singleton.mp ((List.perm_ext_iff_of_nodup hnodup (List.nodup_singleton c)).mpr
            fun d => by simpa using ⟨hall d, fun h => h ▸ hmem⟩))
      refine ⟨fun l hl => ?_, fun id h d hd hid => ?_⟩
      · rw [selectValidator_eq, selectValidator_eq, hall l hl, hall candidates (.refl _)]
      · obtain ⟨e, he, heid⟩ := (selectValidator_eq_ok_iff sc slot epoch candidates id).mp h
        obtain rfl := Option.some.inj ((hall candidates (.refl _)).symm.trans he)
        rwa [hinj d hd c hmem (hid.trans heid.symm)]

/-- Scores in whole numbers: credits times id. -/
def sampleScoring : VrfScoring Nat :=
  { weight := fun stake vc => if isBootstrapEligible stake vc then vc + 1 else 0
    random := fun id slot epoch => id.bytes.val + slot + epoch
    mul := fun w r => w * r }

theorem sampleScoring_zeroWeight : ZeroWeight sampleScoring 0 where
  weight := fun stake vc h => by simp [sampleScoring, h]
  mul := fun r => Nat.zero_mul r
  least := fun w r => Nat.zero_le _

def twoNewcomers : List Candidate := [⟨⟨1⟩, 0, 0⟩, ⟨⟨2⟩, 0, 99⟩]

def twoStakers : List Candidate := [⟨⟨1⟩, 1, 0⟩, ⟨⟨2⟩, 1, 0⟩]

theorem selectValidator_orderless_iff_sample :
    ((∀ l : List Candidate, l.Perm twoStakers →
        selectValidator sampleScoring 0 0 l = selectValidator sampleScoring 0 0 twoStakers) ∧
      ∀ id, selectValidator sampleScoring 0 0 twoStakers = .ok id →
        ∀ c ∈ twoStakers, c.id = id → isBootstrapEligible c.stake c.vc = true) ↔
    twoStakers = [] ∨ ∃ c ∈ twoStakers, (twoStakers = [c] → isBootstrapEligible c.stake c.vc = true) ∧
      ∀ d ∈ twoStakers, d ≠ c → sampleScoring.score 0 0 d < sampleScoring.score 0 0 c :=
  selectValidator_orderless_iff sampleScoring 0 sampleScoring_zeroWeight 0 0 twoStakers (by decide)

/-- Of two candidates without stake and credits, the first of the list is selected. -/
theorem newcomers_selected_by_position :
    ZeroWeight sampleScoring 0 ∧ twoNewcomers.reverse.Perm twoNewcomers ∧
    selectValidator sampleScoring 7 1 twoNewcomers = .ok ⟨1⟩ ∧
    selectValidator sampleScoring 7 1 twoNewcomers.reverse = .ok ⟨2⟩ ∧
    ∀ c ∈ twoNewcomers, isBootstrapEligible c.stake c.vc = false :=
  ⟨sampleScoring_zeroWeight, List.reverse_perm _, by decide, by decide, by decide⟩

end Kratos
