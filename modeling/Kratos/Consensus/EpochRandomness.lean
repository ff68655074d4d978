import Kratos.Lib.SortedMap
import Kratos.Types.Primitives

/-!
# Randomness of an epoch

The provider keeps the hashes of the last thousand blocks and takes the randomness of an epoch from
the first block of the epoch before it, or zero if that hash is not there.  After block `n` of a
chain it has the hashes of the blocks above `n - 1000` (`recorded_find?`), and the block looked up
in epoch `e` lies between 600 and 1199 blocks back, so it is there for the first 400 blocks of the
epoch and no longer (`getEpochRandomness_recorded`).
-/

namespace Kratos

/-- One hour of blocks. -/
def epochDurationBlocks : Nat := 600

namespace EpochConfig

def fromBlockNumber (block : Nat) : Nat := block / epochDurationBlocks

def slotFromBlock (block : Nat) : Nat := block % epochDurationBlocks

end EpochConfig

structure RandomnessProvider where
  blockHashes : SortedMap Nat Hash

namespace RandomnessProvider

def new : RandomnessProvider := { blockHashes := .empty }

/-- Only the last 1000 blocks are kept. -/
def recordBlockHash (r : RandomnessProvider) (blockNumber : Nat) (blockHash : Hash) : RandomnessProvider :=
  let blockHashes := r.blockHashes.insert blockNumber blockHash
  if blockHashes.size > 1000 then
    if blockNumber ≥ 1000 then { blockHashes := blockHashes.erase (blockNumber - 1000) } else { blockHashes }
  else { blockHashes }

/-- The hash of the first block of the epoch before. -/
def getEpochRandomness (r : RandomnessProvider) (epoch : Nat) : Hash :=
  if epoch = 0 then Hash.zero
  else
    let prevEpochStart := (epoch - 1) * epochDurationBlocks
    (r.blockHashes.find? prevEpochStart).getD Hash.zero

/-- The provider after the blocks `0` to `n` of a chain. -/
def recorded (hashes : Nat → Hash) : Nat → RandomnessProvider
  | 0 => new.recordBlockHash 0 (hashes 0)
  | n + 1 => (recorded hashes n).recordBlockHash (n + 1) (hashes (n + 1))

/-- A block after a thousand others replaces the oldest of them. -/
theorem recordBlockHash_blockHashes (r : RandomnessProvider) (n : Nat) (hash : Hash)
    (hnew : r.blockHashes.find? n = none) :
    (r.recordBlockHash n hash).blockHashes =
      if r.blockHashes.size ≥ 1000 ∧ n ≥ 1000 then (r.blockHashes.insert n hash).erase (n - 1000)
      else r.blockHashes.insert n hash := by
  have hsize := SortedMap.size_insert_of_none r.blockHashes n hash hnew
  unfold recordBlockHash
  simp only [hsize]
  by_cases hfull : r.blockHashes.size ≥ 1000
  · rw [if_pos (by omega)]
    by_cases hn : n ≥ 1000
    · rw [if_pos hn, if_pos ⟨hfull, hn⟩]
    · rw [if_neg hn, if_neg fun h => hn h.2]
  · rw [if_neg (by omega), if_neg fun h => hfull h.1]

/-- The hashes of the last thousand blocks, and no others. -/
theorem recorded_spec (hashes : Nat → Hash) (n : Nat) :
    (recorded hashes n).blockHashes.size = min (n + 1) 1000 ∧
      ∀ k, (recorded hashes n).blockHashes.find? k = if k ≤ n ∧ n < k + 1000 then some (hashes k) else none := by
  induction n with
  | zero =>
    refine ⟨rfl, fun k => ?_⟩
    cases k with
    | zero => rfl
    | succ k => rfl
  | succ n ih =>
    obtain ⟨hsize, hfind⟩ := ih
    have hnew : (recorded hashes n).blockHashes.find? (n + 1) = none := by
      rw [hfind, if_neg (by omega)]
    have hstep := recordBlockHash_blockHashes _ (n + 1) (hashes (n + 1)) hnew
    rw [hsize] at hstep
    simp only [recorded]
    rw [hstep]
    by_cases hfull : 1000 ≤ n + 1
    · rw [if_pos (by omega)]
      have hold : ((recorded hashes n).blockHashes.insert (n + 1) (hashes (n + 1))).find? (n + 1 - 1000) =
          some (hashes (n + 1 - 1000)) := by
        rw [SortedMap.find?_insert_ne _ _ _ _ (by omega), hfind, if_pos (by omega)]
      have herase := SortedMap.size_erase_of_some _ _ _ hold
      have hinsert := SortedMap.size_insert_of_none _ (n + 1) (hashes (n + 1)) hnew
      refine ⟨by omega, fun k => ?_⟩
      rw [SortedMap.find?_erase, SortedMap.find?_insert, hfind]
      by_cases hdropped : k = n + 1 - 1000
      · rw [if_pos hdropped, if_neg (by omega)]
      · rw [if_neg hdropped]
        by_cases hlast : k = n + 1
        · rw [if_pos hlast, if_pos (by omega), hlast]
        · have hkept : k ≤ n ∧ n < k + 1000 ↔ k ≤ n + 1 ∧ n + 1 < k + 1000 := by omega
          rw [if_neg hlast]
          simp only [hkept]
    · rw [if_neg (by omega)]
      have hinsert := SortedMap.size_insert_of_none _ (n + 1) (hashes (n + 1)) hnew
      refine ⟨by omega, fun k => ?_⟩
      rw [SortedMap.find?_insert, hfind]
      by_cases hlast : k = n + 1
      · rw [if_pos hlast, if_pos (by omega), hlast]
      · have hkept : k ≤ n ∧ n < k + 1000 ↔ k ≤ n + 1 ∧ n + 1 < k + 1000 := by omega
        rw [if_neg hlast]
        simp only [hkept]

/-- In the first 400 blocks of an epoch its randomness is the hash it should be, then zero. -/
theorem getEpochRandomness_recorded (hashes : Nat → Hash) (e n : Nat) (he : 1 ≤ e)
    (hn : EpochConfig.fromBlockNumber n = e) :
    (recorded hashes n).getEpochRandomness e =
      if EpochConfig.slotFromBlock n < 400 then hashes ((e - 1) * epochDurationBlocks) else Hash.zero := by
  obtain ⟨-, hfind⟩ := recorded_spec hashes n
  unfold EpochConfig.fromBlockNumber epochDurationBlocks at hn
  unfold getEpochRandomness EpochConfig.slotFromBlock epochDurationBlocks
  rw [if_neg (by omega)]
  simp only [hfind]
  by_cases hslot : n % 600 < 400
  · rw [if_pos hslot, if_pos (by omega)]
    rfl
  · rw [if_neg hslot, if_neg (by omega)]
    rfl

/-- Two blocks of an epoch see the same randomness, the hash of the first block of the epoch before,
exactly if both are among the first 400 of the epoch or that hash is zero. -/
theorem epoch_randomness_constant_iff (hashes : Nat → Hash) (e n m : Nat) (he : 1 ≤ e)
    (hn : EpochConfig.fromBlockNumber n = e) (hm : EpochConfig.fromBlockNumber m = e) :
    ((recorded hashes n).getEpochRandomness e = (recorded hashes m).getEpochRandomness e ∧
      (recorded hashes n).getEpochRandomness e = hashes ((e - 1) * epochDurationBlocks)) ↔
    (EpochConfig.slotFromBlock n < 400 ∧ EpochConfig.slotFromBlock m < 400) ∨
      hashes ((e - 1) * epochDurationBlocks) = Hash.zero := by
  rw [getEpochRandomness_recorded hashes e n he hn, getEpochRandomness_recorded hashes e m he hm]
  by_cases hzero : hashes ((e - 1) * epochDurationBlocks) = Hash.zero
  · simp [hzero]
  · have hzero' : Hash.zero ≠ hashes ((e - 1) * epochDurationBlocks) := fun h => hzero h.symm
    by_cases hin : EpochConfig.slotFromBlock n < 400
    · by_cases him : EpochConfig.slotFromBlock m < 400
      · simp [hin, him]
      · simp [hin, him, hzero]
    · simp [hin, hzero, hzero']

/-- Every block has its number plus one for a hash. -/
def sampleHashes (n : Nat) : Hash := ⟨Fin.ofNat _ (n + 1)⟩

theorem epoch_randomness_constant_iff_sample :
    ((recorded sampleHashes 700).getEpochRandomness 1 = (recorded sampleHashes 999).getEpochRandomness 1 ∧
      (recorded sampleHashes 700).getEpochRandomness 1 = sampleHashes ((1 - 1) * epochDurationBlocks)) ↔
    (EpochConfig.slotFromBlock 700 < 400 ∧ EpochConfig.slotFromBlock 999 < 400) ∨
      sampleHashes ((1 - 1) * epochDurationBlocks) = Hash.zero :=
  epoch_randomness_constant_iff sampleHashes 1 700 999 (by decide) (by decide) (by decide)

/-- In the first epoch with randomness it is the hash of block 0 after block 999 and zero after block 1000. -/
theorem randomness_lost_within_epoch :
    EpochConfig.fromBlockNumber 999 = 1 ∧ EpochConfig.fromBlockNumber 1000 = 1 ∧
    (recorded sampleHashes 999).getEpochRandomness 1 = sampleHashes 0 ∧
    (recorded sampleHashes 1000).getEpochRandomness 1 = Hash.zero ∧ sampleHashes 0 ≠ Hash.zero := by
  refine ⟨by decide, by decide, ?_, ?_, by decide⟩
  · rw [getEpochRandomness_recorded sampleHashes 1 999 (by decide) (by decide)]
    rfl
  · rw [getEpochRandomness_recorded sampleHashes 1 1000 (by decide) (by decide)]
    rfl

end RandomnessProvider

end Kratos
