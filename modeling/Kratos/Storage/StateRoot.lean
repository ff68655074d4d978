import Kratos.Storage.State

/-!
# What the state root binds

The leaves of the state tree are the encoded account records in key order; the
keys themselves are not hashed.  Without collisions among the strings hashed for
two databases, equal roots mean equal lists of records (`values_eq_of_root_eq`).
So the root binds the account map exactly for the databases that do not hold one
list of records under two sets of ids (`computeStateRoot_binds_iff`).
-/

namespace Kratos

namespace StateBackend

/-- The strings hashed for the state root. -/
def hashed (cr : Crypto) (s : StateBackend) : List (List UInt8) :=
  (Merkle.tree s.accounts.values).elim [] (Merkle.preimages cr.blake3 Hash.asBytes AccountInfo.encode)

/-- Blake3 separates the strings hashed for the two roots. -/
def NoCollision (cr : Crypto) (s t : StateBackend) : Prop :=
  ∀ x ∈ s.hashed cr, ∀ y ∈ t.hashed cr, cr.blake3 x = cr.blake3 y → x = y

instance (cr : Crypto) (s t : StateBackend) : Decidable (NoCollision cr s t) :=
  inferInstanceAs (Decidable (∀ x ∈ s.hashed cr, ∀ y ∈ t.hashed cr, cr.blake3 x = cr.blake3 y → x = y))

theorem hashed_congr (cr : Crypto) (s t : StateBackend) (h : s.accounts = t.accounts) : s.hashed cr = t.hashed cr := by
  unfold hashed
  rw [h]

theorem NoCollision.of_accounts {cr : Crypto} {s s' t t' : StateBackend} (h : NoCollision cr s t)
    (hs : s'.accounts = s.accounts) (ht : t'.accounts = t.accounts) : NoCollision cr s' t' := by
  unfold NoCollision
  rw [hashed_congr cr s' s hs, hashed_congr cr t' t ht]
  exact h

/-- The root of a database with accounts is the hash of the tree over its records. -/
theorem computeStateRoot_eq (cr : Crypto) (s : StateBackend) (block : Nat) (chain : ChainId)
    (hs : s.accounts.entries ≠ []) :
    ∃ t, Merkle.tree s.accounts.values = some t ∧
      (s.computeStateRoot cr block chain).root =
        Merkle.hashOf cr.blake3 Hash.asBytes AccountInfo.encode t := by
  have hv : s.accounts.values ≠ [] := by
    unfold SortedMap.values
    simpa using hs
  have hsome : (Merkle.tree s.accounts.values).isSome :=
    Merkle.root_isSome _ _ (by simpa using hv)
  obtain ⟨t, ht⟩ := Option.isSome_iff_exists.mp hsome
  refine ⟨t, ht, ?_⟩
  have hempty : s.accounts.entries.isEmpty = false := by
    rw [List.isEmpty_eq_false_iff]
    exact hs
  simp only [computeStateRoot, hempty, Bool.false_eq_true, if_false, stateMerkleTreeRoot, List.map_map]
  have hfold := Merkle.root_map_eq_fold (fun a : AccountInfo => cr.blake3 a.encode)
    (fun l r => cr.blake3 (l.asBytes ++ r.asBytes)) s.accounts.values
  have hmap : s.accounts.values.map (cr.blake3 ∘ AccountInfo.encode) =
      s.accounts.values.map fun a => cr.blake3 a.encode := rfl
  rw [hmap, hfold, ht]
  rfl

/-- **The root binds the records.** -/
theorem values_eq_of_root_eq (cr : Crypto) (s t : StateBackend) (block block' : Nat) (chain chain' : ChainId)
    (hs : s.accounts.entries ≠ []) (ht : t.accounts.entries ≠ []) (hcol : NoCollision cr s t)
    (h : (s.computeStateRoot cr block chain).root = (t.computeStateRoot cr block' chain').root) :
    s.accounts.values = t.accounts.values := by
  obtain ⟨a, hta, hra⟩ := computeStateRoot_eq cr s block chain hs
  obtain ⟨b, htb, hrb⟩ := computeStateRoot_eq cr t block' chain' ht
  have hab : a = b := by
    refine Merkle.eq_of_hashOf_eq cr.blake3 Hash.asBytes AccountInfo.encode 32 ?_ Hash.asBytes_inj
      AccountInfo.encode_inj ?_ a b ?_ (by rw [← hra, ← hrb, h])
    · intro x
      simp [Hash.asBytes]
    · intro x
      rw [AccountInfo.length_encode]
      decide
    · intro x hx y hy
      refine hcol x ?_ y ?_
      · unfold hashed
        rw [hta]
        exact hx
      · unfold hashed
        rw [htb]
        exact hy
  rw [← Merkle.leaves_of_tree _ _ hta, ← Merkle.leaves_of_tree _ _ htb, hab]

/-- The records alone determine the root. -/
theorem root_eq_of_values_eq (cr : Crypto) (s t : StateBackend) (block block' : Nat) (chain chain' : ChainId)
    (h : s.accounts.values = t.accounts.values) :
    (s.computeStateRoot cr block chain).root = (t.computeStateRoot cr block' chain').root := by
  have hempty : s.accounts.entries.isEmpty = t.accounts.entries.isEmpty := by
    have := congrArg List.isEmpty h
    simpa [SortedMap.values] using this
  unfold computeStateRoot
  rw [hempty, h]
  split <;> rfl

/-- A database with accounts has the root of another one, possibly empty, only if the records
are the same. -/
theorem root_eq_iff (cr : Crypto) (s t : StateBackend) (block block' : Nat) (chain chain' : ChainId)
    (hs : s.accounts.entries ≠ []) (hcol : NoCollision cr s t)
    (hzero : ∀ x ∈ s.hashed cr, cr.blake3 x ≠ Hash.zero) :
    (s.computeStateRoot cr block chain).root = (t.computeStateRoot cr block' chain').root ↔
      s.accounts.values = t.accounts.values := by
  refine ⟨fun h => ?_, root_eq_of_values_eq cr s t block block' chain chain'⟩
  by_cases ht : t.accounts.entries = []
  · -- the root of no accounts is zero, and no string hashes to it
    obtain ⟨a, hta, hra⟩ := computeStateRoot_eq cr s block chain hs
    obtain ⟨x, hx, hroot⟩ := Merkle.hashOf_mem cr.blake3 Hash.asBytes AccountInfo.encode a
    have hempty : (t.computeStateRoot cr block' chain').root = Hash.zero := by
      unfold computeStateRoot
      rw [ht]
      rfl
    have hmem : x ∈ s.hashed cr := by
      unfold hashed
      rw [hta]
      exact hx
    refine absurd ?_ (hzero x hmem)
    rw [← hroot, ← hra, h, hempty]
  · exact values_eq_of_root_eq cr s t block block' chain chain' hs ht hcol h

theorem accounts_eq_iff (s t : StateBackend) :
    s.accounts = t.accounts ↔ s.accounts.keys = t.accounts.keys ∧ s.accounts.values = t.accounts.values := by
  constructor
  · intro h
    rw [h]
    exact ⟨rfl, rfl⟩
  · rintro ⟨hk, hv⟩
    apply SortedMap.ext_entries
    have hzip : ∀ m : SortedMap AccountId AccountInfo, m.entries = m.keys.zip m.values := by
      intro m
      exact List.zip_of_prod rfl rfl
    rw [hzip s.accounts, hzip t.accounts, hk, hv]

/-- **What the root binds.**  Equal roots mean equal account maps if and only if
equal lists of records, in key order, mean equal ids. -/
theorem computeStateRoot_binds_iff (cr : Crypto) (s t : StateBackend) (block block' : Nat)
    (chain chain' : ChainId) (hs : s.accounts.entries ≠ []) (ht : t.accounts.entries ≠ [])
    (hcol : NoCollision cr s t) :
    ((s.computeStateRoot cr block chain).root = (t.computeStateRoot cr block' chain').root →
      s.accounts = t.accounts) ↔
    (s.accounts.values = t.accounts.values → s.accounts.keys = t.accounts.keys) := by
  constructor
  · intro h hv
    exact ((accounts_eq_iff s t).mp (h (root_eq_of_values_eq cr s t block block' chain chain' hv))).1
  · intro h hroot
    have hv := values_eq_of_root_eq cr s t block block' chain chain' hs ht hcol hroot
    exact (accounts_eq_iff s t).mpr ⟨h hv, hv⟩

/-- A database with one account. -/
def single (id : AccountId) (a : AccountInfo) : StateBackend := new.setAccount id a

/-- Two accounts with different last-modified hashes give different roots. -/
theorem computeStateRoot_binds_single :
    (single ⟨1⟩ { AccountInfo.new with lastModified := ⟨5⟩ }).computeStateRoot Crypto.sample 0 ⟨0⟩ ≠
      (single ⟨2⟩ { AccountInfo.new with lastModified := ⟨6⟩ }).computeStateRoot Crypto.sample 0 ⟨0⟩ := by
  have h := (computeStateRoot_binds_iff Crypto.sample (single ⟨1⟩ { AccountInfo.new with lastModified := ⟨5⟩ })
    (single ⟨2⟩ { AccountInfo.new with lastModified := ⟨6⟩ }) 0 0 ⟨0⟩ ⟨0⟩ (by decide) (by decide)
    (by decide +kernel)).mpr (by decide +kernel)
  intro he
  exact absurd (h (congrArg StateRoot.root he)) (by decide)

/-- One record under two ids: the roots are equal, the maps are not. -/
theorem computeStateRoot_forgets_ids :
    ¬ ∀ (cr : Crypto) (s t : StateBackend) (block : Nat) (chain : ChainId), s.accounts.entries ≠ [] →
      t.accounts.entries ≠ [] → NoCollision cr s t →
      (s.computeStateRoot cr block chain).root = (t.computeStateRoot cr block chain).root →
        s.accounts = t.accounts := by
  intro h
  have := h Crypto.sample (single ⟨1⟩ AccountInfo.new) (single ⟨2⟩ AccountInfo.new) 0 ⟨0⟩ (by decide)
    (by decide) (by decide +kernel) (root_eq_of_values_eq _ _ _ _ _ _ _ rfl)
  exact absurd this (by decide)

end StateBackend

end Kratos
