import Kratos.Lib.Word
import Kratos.Storage.State

/-!
# The blocks of the database

The database has a block under its hash and under its number, the hash of each number, and
the number of the best block.  The network service serves them through a provider that reads
the database.  A range is read number by number, up to the best block or to the first gap.  Where the numbers hold a list of blocks from genesis on, a range is a segment
of that list (`getBlocksRange_of_holds`), unless its end does not fit in 64 bits.
-/

namespace Kratos

/-- What the database has about blocks. -/
structure BlockStore where
  byHash : SortedMap Hash Block
  byNumber : SortedMap Nat Block
  hashes : SortedMap Nat Hash
  roots : SortedMap Nat StateRoot
  best : Option Nat

namespace StateBackend

def blockStore (s : StateBackend) : BlockStore :=
  { byHash := s.blocksByHash, byNumber := s.blocksByNumber, hashes := s.blockHashes, roots := s.stateRoots
    best := s.bestBlock }

/-! ## Reading -/

def getBlockByHash (s : StateBackend) (hash : Hash) : Option Block := s.blocksByHash.find? hash

def getBestBlock (s : StateBackend) : Option Nat := s.bestBlock

/-- The blocks of some numbers, up to the first that is missing. -/
def readBlocks (s : StateBackend) : List Nat → List Block
  | [] => []
  | number :: numbers =>
    match s.getBlockByNumber number with
    | some block => block :: readBlocks s numbers
    | none => []

/-- `none` where the build checks for overflow and the end of the range does not fit. -/
def getBlocksRange (checks : Bool) (s : StateBackend) (fromBlock maxCount : Nat) : Option (List Block) := do
  let best := s.getBestBlock.getD 0
  let afterMax ← Word.addW checks 64 fromBlock maxCount
  let afterBest ← Word.addW checks 64 best 1
  return s.readBlocks (List.range' fromBlock (min afterMax afterBest - fromBlock))

theorem readBlocks_of_holds (s : StateBackend) (l : List Block) (h : ∀ n, s.getBlockByNumber n = l[n]?)
    (start count : Nat) : s.readBlocks (List.range' start count) = (l.drop start).take count := by
  induction count generalizing start with
  | zero => simp [readBlocks]
  | succ count ih =>
    rw [List.range'_succ, readBlocks, h start]
    cases hb : l[start]? with
    | none =>
      rw [List.getElem?_eq_none_iff] at hb
      rw [List.drop_eq_nil_of_le hb, List.take_nil]
    | some b =>
      obtain ⟨hlt, rfl⟩ := List.getElem?_eq_some_iff.mp hb
      rw [List.drop_eq_getElem_cons hlt, List.take_succ_cons, ← ih (start + 1)]

/-- **Ranges.**  A range whose end fits is a segment of the stored list. -/
theorem getBlocksRange_of_holds (checks : Bool) (s : StateBackend) (l : List Block)
    (h : ∀ n, s.getBlockByNumber n = l[n]?) (hbest : s.getBestBlock.getD 0 + 1 = l.length) (hlength : l.length < 2 ^ 64)
    (fromBlock maxCount : Nat) (hfits : fromBlock + maxCount < 2 ^ 64) :
    s.getBlocksRange checks fromBlock maxCount = some ((l.drop fromBlock).take maxCount) := by
  have hmax : Word.addW checks 64 fromBlock maxCount = some (fromBlock + maxCount) := if_pos hfits
  have hafter : Word.addW checks 64 (s.getBestBlock.getD 0) 1 = some l.length := by
    rw [← hbest]
    exact if_pos (by omega)
  unfold getBlocksRange
  simp only [hmax, hafter, Option.bind_eq_bind, Option.bind_some, Option.pure_def, readBlocks_of_holds s l h]
  -- what the range has beyond the list is not read
  congr 1
  by_cases hle : fromBlock + maxCount ≤ l.length
  · rw [min_eq_left hle, Nat.add_sub_cancel_left]
  · rw [min_eq_right (by omega), List.take_of_length_le (by rw [List.length_drop]),
      List.take_of_length_le (by rw [List.length_drop]; omega)]

/-- A range whose end does not fit stops a checking build and is empty in the other. -/
theorem getBlocksRange_of_overflow (s : StateBackend) (fromBlock maxCount : Nat) (hfrom : fromBlock < 2 ^ 64)
    (hmax : maxCount < 2 ^ 64) (h : 2 ^ 64 ≤ fromBlock + maxCount) :
    s.getBlocksRange true fromBlock maxCount = none ∧ s.getBlocksRange false fromBlock maxCount = some [] := by
  unfold getBlocksRange
  constructor
  · rw [Word.addW, if_neg (by omega)]
    rfl
  · simp only [Word.addW_unchecked, Option.bind_eq_bind, Option.bind_some, Option.pure_def]
    have hzero : min ((fromBlock + maxCount) % 2 ^ 64) ((s.getBestBlock.getD 0 + 1) % 2 ^ 64) - fromBlock = 0 := by
      omega
    rw [hzero]
    rfl

end StateBackend

end Kratos
