import Kratos.Consensus.Validator
import Kratos.Lib.PrefixScan

/-!
# Selection by stake

The first sixteen bytes of a seed, modulo the total stake, are a point below it, and the validator
at which the stakes added up so far exceed the point is selected.  Each validator is selected by as
many points as its stake (`selection_proportional`); one without stake by none.

With `checks` an overflow stops the program (`none`); without, it wraps.
-/

namespace Kratos

inductive ValidatorSelectionError where
  | noValidatorsRegistered
  | zeroTotalStake
deriving DecidableEq, Repr

namespace ValidatorSelector

/-- The first validator at which the cumulative stake exceeds the point. -/
def cumulativeScan (checks : Bool) (randomPoint : Nat) : List ValidatorInfo → Nat → Option (Option AccountId)
  | [], _ => some none
  | validator :: validators, cumulative =>
    (Word.addW checks 128 cumulative validator.stake.val).bind fun cumulative =>
      if cumulative > randomPoint then some (some validator.id) else cumulativeScan checks randomPoint validators cumulative

/-- `u128::from_le_bytes` of the first sixteen bytes. -/
def seedNumber (seed : Hash) : Nat := Bytes.ofLe (seed.asBytes.take 16)

def weightedSelection (checks : Bool) (validators : List ValidatorInfo) (seed : Hash) : Option (Option AccountId) :=
  if validators.isEmpty then some none
  else
    (Word.sumW checks 128 (validators.map fun v => v.stake.val)).bind fun totalStake =>
      if totalStake = 0 then some none
      else
        (cumulativeScan checks (seedNumber seed % totalStake) validators 0).map fun selected =>
          -- the fallback after the loop
          selected.or (validators.getLast?.map ValidatorInfo.id)

def mixRandomness (cr : Crypto) (randomness : Hash) (slot : Nat) : Hash :=
  cr.blake3 (randomness.asBytes ++ Bytes.le 8 slot)

def activeValidators (v : ValidatorSet) : List ValidatorInfo :=
  v.validators.values.filter fun info => info.canParticipate

def selectValidatorForSlot (checks : Bool) (cr : Crypto) (v : ValidatorSet) (slot : Nat) (randomness : Hash) :
    Option (Except ValidatorSelectionError AccountId) :=
  if (activeValidators v).isEmpty then some (.error .noValidatorsRegistered)
  else
    (weightedSelection checks (activeValidators v) (mixRandomness cr randomness slot)).map fun selected =>
      match selected with
      | none => .error .zeroTotalStake
      | some id => .ok id

def totalStake (validators : List ValidatorInfo) : Nat := (validators.map fun v => v.stake.val).sum

variable (checks : Bool)

/-- Where the stakes fit, the scan is one of prefix sums. -/
theorem cumulativeScan_eq_pick (randomPoint : Nat) (validators : List ValidatorInfo) (cumulative : Nat)
    (hlt : cumulative + totalStake validators < 2 ^ 128) :
    cumulativeScan checks randomPoint validators cumulative =
      some ((PrefixScan.pick (fun v => v.stake.val) randomPoint validators cumulative).map ValidatorInfo.id) := by
  induction validators generalizing cumulative with
  | nil => rfl
  | cons v validators ih =>
    rw [totalStake, List.map_cons, List.sum_cons] at hlt
    rw [cumulativeScan, Word.addW_of_lt checks 128 _ _ (by omega), Option.bind_some, PrefixScan.pick]
    split
    · rfl
    · exact ih _ (by rw [totalStake]; omega)

/-- Every point below the total stake falls on a validator. -/
theorem exists_cumulativeScan (validators : List ValidatorInfo) (hlt : totalStake validators < 2 ^ 128) (r : Nat)
    (hr : r < totalStake validators) :
    ∃ v ∈ validators, cumulativeScan checks r validators 0 = some (some v.id) := by
  obtain ⟨v, hv⟩ := PrefixScan.exists_pick (fun v : ValidatorInfo => v.stake.val) r validators 0 (Nat.zero_le r)
    (by rw [Nat.zero_add]; exact hr)
  refine ⟨v, PrefixScan.mem_of_pick _ r validators 0 v hv, ?_⟩
  rw [cumulativeScan_eq_pick checks r validators 0 (by rwa [Nat.zero_add]), hv]
  rfl

theorem weightedSelection_eq_scan (validators : List ValidatorInfo) (seed : Hash) (hpos : 0 < totalStake validators)
    (hlt : totalStake validators < 2 ^ 128) :
    weightedSelection checks validators seed =
      cumulativeScan checks (seedNumber seed % totalStake validators) validators 0 := by
  have hne : validators.isEmpty = false := by
    cases validators with
    | nil => exact absurd hpos (Nat.lt_irrefl 0)
    | cons v l => rfl
  obtain ⟨v, -, hv⟩ := exists_cumulativeScan checks validators hlt _ (Nat.mod_lt (seedNumber seed) hpos)
  unfold weightedSelection
  rw [hne, if_neg Bool.false_ne_true, Word.sumW_of_lt checks 128 _ hlt, Option.bind_some]
  change (if totalStake validators = 0 then some none else _) = _
  rw [if_neg hpos.ne']
  change Option.map _ (cumulativeScan checks (seedNumber seed % totalStake validators) validators 0) = _
  rw [hv]
  rfl

/-- Who is selected for a slot is active. -/
theorem selectValidatorForSlot_active (cr : Crypto) (v : ValidatorSet) (slot : Nat) (randomness : Hash) (id : AccountId)
    (hpos : 0 < totalStake (activeValidators v)) (hlt : totalStake (activeValidators v) < 2 ^ 128)
    (h : selectValidatorForSlot checks cr v slot randomness = some (.ok id)) :
    ∃ info ∈ activeValidators v, info.id = id := by
  unfold selectValidatorForSlot at h
  split at h
  · cases h
  · rw [weightedSelection_eq_scan checks _ _ hpos hlt] at h
    obtain ⟨info, hinfo, hscan⟩ := exists_cumulativeScan checks _ hlt _ (Nat.mod_lt _ hpos)
    rw [hscan] at h
    exact ⟨info, hinfo, Except.ok.inj (Option.some.inj h)⟩

/-- **Selection is proportional to stake.**  Of the points below the total stake each validator is
selected by as many as its stake, every point selects one, and the selection is that of the point the
seed gives. -/
theorem selection_proportional (validators : List ValidatorInfo) (hids : (validators.map ValidatorInfo.id).Nodup)
    (hpos : 0 < totalStake validators) (hlt : totalStake validators < 2 ^ 128) :
    (∀ v ∈ validators,
      ((Finset.range (totalStake validators)).filter fun r =>
        cumulativeScan checks r validators 0 = some (some v.id)).card = v.stake.val) ∧
    (∀ r < totalStake validators, cumulativeScan checks r validators 0 ≠ some none) ∧
    ∀ seed, weightedSelection checks validators seed =
      cumulativeScan checks (seedNumber seed % totalStake validators) validators 0 := by
  refine ⟨fun v hv => ?_, fun r hr h => ?_, fun seed => weightedSelection_eq_scan checks validators seed hpos hlt⟩
  · have hcount := PrefixScan.card_points (fun v : ValidatorInfo => v.stake.val) ValidatorInfo.id validators 0 hids v hv
    rw [Nat.zero_add, ← Finset.range_eq_Ico] at hcount
    rw [← hcount]
    congr 1
    refine Finset.filter_congr fun r _ => ?_
    rw [cumulativeScan_eq_pick checks r validators 0 (by rwa [Nat.zero_add]), Option.some_inj]
  · obtain ⟨v, -, hv⟩ := exists_cumulativeScan checks validators hlt r hr
    rw [hv] at h
    cases h

def sampleValidators : List ValidatorInfo :=
  [.new ⟨1⟩ 3 0, .new ⟨2⟩ 0 0, .new ⟨3⟩ 2 0]

/-- The second validator has no stake. -/
theorem selection_proportional_sample :
    ((Finset.range 5).filter fun r => cumulativeScan true r sampleValidators 0 = some (some ⟨1⟩)).card = 3 ∧
    ((Finset.range 5).filter fun r => cumulativeScan true r sampleValidators 0 = some (some ⟨2⟩)).card = 0 ∧
    ((Finset.range 5).filter fun r => cumulativeScan true r sampleValidators 0 = some (some ⟨3⟩)).card = 2 := by
  obtain ⟨h, -, -⟩ := selection_proportional true sampleValidators (by decide) (by decide) (by decide)
  exact ⟨h (.new ⟨1⟩ 3 0) (by decide), h (.new ⟨2⟩ 0 0) (by decide), h (.new ⟨3⟩ 2 0) (by decide)⟩

end ValidatorSelector

end Kratos
