import Kratos.Lib.SortedMap

/-!
# Lists of the entries of a map

An index keeps, beside a map, a list of ids for each owner.  `Listed` says that every entry
is on the list of its owner exactly once and that nothing else is listed.  The rules follow
the updates: an id is appended as its entry is added, filtered out as it is erased, and
left alone as it changes under the same owner.
-/

namespace Kratos

variable {ι κ ν : Type} [LinearOrder ι] [DecidableEq ι] [DecidableEq κ]

/-- Each entry is listed once, under its owner. -/
def Listed (lists : κ → List ι) (owner : ν → κ) (m : SortedMap ι ν) : Prop :=
  ∀ k id, (lists k).count id = if (m.find? id).map owner = some k then 1 else 0

namespace Listed

theorem empty (owner : ν → κ) : Listed (fun _ => []) owner (SortedMap.empty : SortedMap ι ν) := by
  intro k id
  rfl

theorem count_owner {lists : κ → List ι} {owner : ν → κ} {m : SortedMap ι ν} (h : Listed lists owner m) (id : ι)
    (v : ν) (hv : m.find? id = some v) : (lists (owner v)).count id = 1 := by
  rw [h, hv, Option.map_some, if_pos rfl]

/-- What is listed is stored. -/
theorem find?_of_mem {lists : κ → List ι} {owner : ν → κ} {m : SortedMap ι ν} (h : Listed lists owner m) (k : κ)
    (id : ι) (hid : id ∈ lists k) : ∃ v, m.find? id = some v ∧ owner v = k := by
  have hpos := List.count_pos_iff.2 hid
  rw [h k id] at hpos
  split at hpos
  · rename_i hk
    obtain ⟨v, hv, hkv⟩ := Option.map_eq_some_iff.1 hk
    exact ⟨v, hv, hkv⟩
  · omega

/-- A list is as long as its owner has entries. -/
theorem length_eq {lists : κ → List ι} {owner : ν → κ} {m : SortedMap ι ν} (h : Listed lists owner m) (k : κ) :
    (lists k).length = (m.filter fun _ v => decide (owner v = k)).size := by
  have hnodup : (lists k).Nodup := by
    rw [List.nodup_iff_count_le_one]
    intro id
    rw [h k id]
    split <;> omega
  have hmem : ∀ id, id ∈ lists k ↔ id ∈ (m.filter fun _ v => decide (owner v = k)).keys := by
    intro id
    rw [SortedMap.mem_keys_filter_iff]
    constructor
    · intro hid
      obtain ⟨v, hv, hk⟩ := h.find?_of_mem k id hid
      exact ⟨v, hv, decide_eq_true hk⟩
    · rintro ⟨v, hv, hk⟩
      have hone := h.count_owner id v hv
      rw [of_decide_eq_true hk] at hone
      exact List.count_pos_iff.1 (by omega)
  have hperm := (List.perm_ext_iff_of_nodup hnodup (SortedMap.keys_nodup _)).2 hmem
  rw [hperm.length_eq]
  unfold SortedMap.keys SortedMap.size
  rw [List.length_map]

/-- A new entry, appended to the list of its owner. -/
theorem insert_fresh {lists lists' : κ → List ι} {owner : ν → κ} {m : SortedMap ι ν} (h : Listed lists owner m)
    (id : ι) (v : ν) (hfresh : m.find? id = none)
    (hlists : ∀ k, lists' k = if k = owner v then lists k ++ [id] else lists k) :
    Listed lists' owner (m.insert id v) := by
  intro k j
  rw [hlists]
  by_cases hj : j = id
  · subst hj
    have hzero : (lists k).count j = 0 := by
      rw [h, hfresh]
      rfl
    rw [SortedMap.find?_insert_self, Option.map_some]
    by_cases hk : k = owner v
    · rw [if_pos hk, if_pos (by rw [hk]), List.count_append, hzero, List.count_singleton_self]
    · rw [if_neg hk, if_neg (fun hv => hk (Option.some.inj hv).symm), hzero]
  · rw [SortedMap.find?_insert_ne _ _ _ _ hj, ← h k j]
    split
    · rw [List.count_append, List.count_singleton, beq_eq_false_iff_ne.2 (Ne.symm hj)]
      rfl
    · rfl

/-- A later entry of the same owner. -/
theorem insert_same {lists : κ → List ι} {owner : ν → κ} {m : SortedMap ι ν} (h : Listed lists owner m) (id : ι)
    (v v' : ν) (hv : m.find? id = some v) (howner : owner v' = owner v) : Listed lists owner (m.insert id v') := by
  intro k j
  by_cases hj : j = id
  · subst hj
    rw [SortedMap.find?_insert_self, h, hv, Option.map_some, Option.map_some, howner]
  · rw [SortedMap.find?_insert_ne _ _ _ _ hj, h]

/-- An entry is erased and filtered out of the list of its owner. -/
theorem erase {lists lists' : κ → List ι} {owner : ν → κ} {m : SortedMap ι ν} (h : Listed lists owner m) (id : ι)
    (v : ν) (hv : m.find? id = some v)
    (hlists : ∀ k, lists' k = if k = owner v then (lists k).filter fun j => decide (j ≠ id) else lists k) :
    Listed lists' owner (m.erase id) := by
  intro k j
  rw [hlists, SortedMap.find?_erase]
  by_cases hj : j = id
  · subst hj
    rw [if_pos rfl, Option.map_none, if_neg (Option.some_ne_none k).symm]
    by_cases hk : k = owner v
    · rw [if_pos hk, List.count_eq_zero]
      intro hmem
      exact of_decide_eq_true (List.mem_filter.1 hmem).2 rfl
    · rw [if_neg hk, h, hv, Option.map_some, if_neg (fun hkv => hk (Option.some.inj hkv).symm)]
  · rw [if_neg hj, ← h k j]
    split
    · rw [List.count_filter (by simpa using hj)]
    · rfl

end Listed

end Kratos
