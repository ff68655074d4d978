import Kratos.Contracts.Sidechains

/-!
# Payouts of the chain registry

The deposit of a chain is given back by a purge, which looks neither at the status
nor at the withdrawals, or by a withdrawal of the owner, which looks only at the
withdrawals; in an emergency not at the status either.  Nothing in the registry says
that a purge has given the deposit back, so `Traced` runs the registry beside the set
of the chains that were purged so.

In every run of `proper` calls at most the deposit is returned (`returned_le_deposit`);
one withdrawal for each account and chain needs only that no creation takes the id of
a stored chain.  A proof of a balance that is accepted at all is accepted for any balance
(`one_claim_iff`).
-/

namespace Kratos

namespace ChainRegistry

/-- The withdrawal that a call makes. -/
def withdrawal (cr : Crypto) (g : ChainRegistry) : RegistryOp → Option WithdrawalResult
  | .withdrawFromPurgedChain chainId owner => (g.withdrawFromPurgedChain chainId owner).toOption.map Prod.snd
  | .withdrawWithProof chainId account balance merkleProof =>
    (g.withdrawWithProof cr chainId account balance merkleProof).toOption.map Prod.snd
  | .emergencyExit chainId account balance merkleProof =>
    (g.emergencyExit cr chainId account balance merkleProof).toOption.map Prod.snd
  | _ => none

/-- Whether a call makes a withdrawal of the account from the chain. -/
def withdraws (cr : Crypto) (c : ChainId) (a : AccountId) (g : ChainRegistry) (op : RegistryOp) : Nat :=
  (g.withdrawal cr op).elim 0 fun r => if r.chainId = c ∧ r.recipient = a then 1 else 0

/-- The chains that a call purges with `purgeSidechain`. -/
def released (g : ChainRegistry) : RegistryOp → List ChainId
  | .purgeSidechain chainId currentBlock =>
    match g.purgeSidechain chainId currentBlock with
    | .ok _ => [chainId]
    | .error _ => []
  | .autoPurgeInactive order currentBlock => (autoPurgeInactive order g currentBlock).2
  | _ => []

/-- The amount that a call returns to or for the owner of the chain.  A periodic purge
is taken to return the deposits it drops. -/
def returned (cr : Crypto) (c : ChainId) (g : ChainRegistry) (op : RegistryOp) : Nat :=
  match op with
  | .purgeSidechain chainId currentBlock =>
    match g.purgeSidechain chainId currentBlock with
    | .ok (_, deposit) => if chainId = c then deposit.val else 0
    | .error _ => 0
  | .autoPurgeInactive order currentBlock =>
    if c ∈ (autoPurgeInactive order g currentBlock).2 then
      (g.sidechains.find? c).elim 0 fun sc => sc.deposit.val
    else 0
  | op =>
    (g.withdrawal cr op).elim 0 fun r =>
      if r.chainId = c ∧ (g.sidechains.find? c).map SidechainInfo.owner = some r.recipient then r.amount.val
      else 0

/-! ## Withdrawals -/

/-- A successful withdrawal: the account had not withdrawn before, and has now. -/
theorem withdrawal_cases (cr : Crypto) (g : ChainRegistry) (op : RegistryOp) (r : WithdrawalResult)
    (h : g.withdrawal cr op = some r) :
    ∃ sc, g.sidechains.find? r.chainId = some sc ∧ r.recipient ∉ sc.withdrawnAccounts ∧
      (g.apply cr op).sidechains = g.sidechains.insert r.chainId
        { sc with withdrawnAccounts := insert r.recipient sc.withdrawnAccounts } := by
  cases op with
  | withdrawFromPurgedChain c a =>
    obtain ⟨t, ht⟩ := Except.toOption_snd_eq_some _ r h
    obtain ⟨sc, hf, -, ha, hc, hrec, -, -, hs⟩ := withdrawFromPurgedChain_ok g t c a r ht
    rw [hc, hrec]
    exact ⟨sc, hf, ha, by simp only [apply, ht]; exact hs⟩
  | withdrawWithProof c a balance proof =>
    obtain ⟨t, ht⟩ := Except.toOption_snd_eq_some _ r h
    obtain ⟨sc, root, hf, -, ha, -, -, -, hc, hrec, -, hs⟩ :=
      withdrawWithProof_ok cr g t c a balance proof r ht
    rw [hc, hrec]
    exact ⟨sc, hf, ha, by simp only [apply, ht]; exact hs⟩
  | emergencyExit c a balance proof =>
    obtain ⟨t, ht⟩ := Except.toOption_snd_eq_some _ r h
    obtain ⟨sc, hf, ha, hc, hrec, -, hs⟩ := emergencyExit_ok cr g t c a balance proof r ht
    rw [hc, hrec]
    exact ⟨sc, hf, ha, by simp only [apply, ht]; exact hs⟩
  | _ => cases h

/-- The account has withdrawn from the chain. -/
def HasWithdrawn (g : ChainRegistry) (c : ChainId) (a : AccountId) : Prop :=
  ∃ sc, g.sidechains.find? c = some sc ∧ a ∈ sc.withdrawnAccounts

theorem HasWithdrawn.later {g t : ChainRegistry} {c : ChainId} {a : AccountId} (h : g.HasWithdrawn c a)
    (hl : g.Later t) : t.HasWithdrawn c a := by
  obtain ⟨sc, hf, ha⟩ := h
  obtain ⟨sc', hf', hsc⟩ := hl c sc hf
  exact ⟨sc', hf', hsc.withdrawn ha⟩

theorem withdrawal_once (cr : Crypto) (g : ChainRegistry) (op : RegistryOp) (r : WithdrawalResult)
    (h : g.withdrawal cr op = some r) :
    ¬ g.HasWithdrawn r.chainId r.recipient ∧ (g.apply cr op).HasWithdrawn r.chainId r.recipient := by
  obtain ⟨sc, hf, hnot, hs⟩ := withdrawal_cases cr g op r h
  constructor
  · rintro ⟨sc', hf', ha⟩
    rw [hf] at hf'
    obtain rfl := Option.some.inj hf'
    exact hnot ha
  · refine ⟨{ sc with withdrawnAccounts := insert r.recipient sc.withdrawnAccounts }, ?_,
      Finset.mem_insert_self _ _⟩
    rw [hs, SortedMap.find?_insert_self]

theorem withdraws_cases (cr : Crypto) (c : ChainId) (a : AccountId) (g : ChainRegistry) (op : RegistryOp) :
    withdraws cr c a g op = 0 ∨
      withdraws cr c a g op = 1 ∧ ¬ g.HasWithdrawn c a ∧ (g.apply cr op).HasWithdrawn c a := by
  unfold withdraws
  cases h : g.withdrawal cr op with
  | none => exact .inl rfl
  | some r =>
    by_cases hr : r.chainId = c ∧ r.recipient = a
    · obtain ⟨hbefore, hafter⟩ := withdrawal_once cr g op r h
      obtain ⟨rfl, rfl⟩ := hr
      exact .inr ⟨by simp, hbefore, hafter⟩
    · exact .inl (by simp [hr])

/-- Every account makes at most one withdrawal from each chain. -/
theorem withdraws_le_one (cr : Crypto) (c : ChainId) (a : AccountId) (g : ChainRegistry) (ops : List RegistryOp)
    (h : Run.Meets (apply cr) (fun g op => g.freshId op = true) g ops) :
    Run.tally (apply cr) (withdraws cr c a) g ops ≤ 1 := by
  refine Run.tally_le_one (apply cr) _ (fun _ => True) (fun g => g.HasWithdrawn c a) (withdraws cr c a)
    (fun _ _ _ _ => trivial) ?_ ?_ g ops trivial h
  · intro g op _ hfresh hdone
    refine ⟨?_, hdone.later (apply_later cr g op hfresh)⟩
    rcases withdraws_cases cr c a g op with hz | ⟨-, hnot, -⟩
    · exact hz
    · exact absurd hdone hnot
  · intro g op _ hfresh
    rcases withdraws_cases cr c a g op with hz | ⟨h1, -, hafter⟩
    · exact .inl hz
    · exact .inr ⟨h1, hafter⟩

/-! ## Proofs of a balance -/

/-- A withdrawal of the account with the proof succeeds for the balance it names. -/
def Accepts (cr : Crypto) (g : ChainRegistry) (c : ChainId) (proof : MerkleProof) (a : AccountId)
    (balance : Balance) : Prop :=
  ∃ t r, g.withdrawWithProof cr c a balance proof = .ok (t, r)

/-- The balance takes no part. -/
theorem accepts_iff (cr : Crypto) (g : ChainRegistry) (c : ChainId) (proof : MerkleProof) (a : AccountId)
    (balance : Balance) :
    g.Accepts cr c proof a balance ↔
      ∃ sc root, g.sidechains.find? c = some sc ∧ sc.status = .withdrawalWindow ∧
        sc.snapshotStateRoot = some root ∧ proof.verify cr = true ∧ proof.root = root ∧
        a ∉ sc.withdrawnAccounts := by
  constructor
  · rintro ⟨t, r, h⟩
    obtain ⟨sc, root, hf, hs, ha, hroot, hv, hsame, -⟩ := withdrawWithProof_ok cr g t c a balance proof r h
    exact ⟨sc, root, hf, hs, hroot, hv, hsame, ha⟩
  · rintro ⟨sc, root, hf, hs, hroot, hv, hsame, ha⟩
    unfold Accepts withdrawWithProof withSidechain
    simp [hf, hs, ha, hroot, hv, hsame]

/-- At most one account and balance are accepted with the proof. -/
def OneClaim (cr : Crypto) (g : ChainRegistry) (c : ChainId) (proof : MerkleProof) : Prop :=
  ∀ a balance a' balance', g.Accepts cr c proof a balance → g.Accepts cr c proof a' balance' →
    a = a' ∧ balance = balance'

/-- On an open chain with a snapshot a proof is good for one claim exactly if it is good for
none. -/
theorem one_claim_iff (cr : Crypto) (g : ChainRegistry) (c : ChainId) (proof : MerkleProof)
    (sc : SidechainInfo) (root : Hash) (hf : g.sidechains.find? c = some sc)
    (hs : sc.status = .withdrawalWindow) (hroot : sc.snapshotStateRoot = some root) :
    g.OneClaim cr c proof ↔
      proof.verify cr = false ∨ proof.root ≠ root ∨ ∀ a, a ∈ sc.withdrawnAccounts := by
  constructor
  · intro h
    by_contra hnone
    obtain ⟨hv, hsame, a, ha⟩ : proof.verify cr = true ∧ proof.root = root ∧ ∃ a, a ∉ sc.withdrawnAccounts := by
      simpa using hnone
    have hany : ∀ balance, g.Accepts cr c proof a balance := by
      intro balance
      exact (accepts_iff cr g c proof a balance).mpr ⟨sc, root, hf, hs, hroot, hv, hsame, ha⟩
    have hsame : (0 : Balance) = 1 := (h a 0 a 1 (hany 0) (hany 1)).2
    exact absurd hsame (by decide)
  · intro h a balance a' balance' haccept
    obtain ⟨sc', root', hf', -, hroot', hv, hsame, ha⟩ := (accepts_iff cr g c proof a balance).mp haccept
    rw [hf] at hf'
    obtain rfl := Option.some.inj hf'
    rw [hroot] at hroot'
    obtain rfl := Option.some.inj hroot'
    rcases h with h | h | h
    · rw [hv] at h
      cases h
    · exact absurd hsame h
    · exact absurd (h a) ha

/-- The only leaf of the snapshot. -/
def sampleLeaf : MerkleProof :=
  { leaf := [1, 2, 3], leafIndex := 0, proof := [], root := Crypto.sample.blake3 [1, 2, 3], blockNumber := 0
    chainId := ⟨1⟩ }

/-- The chain of account 1 with the snapshot of that leaf, open from the end of the warning. -/
def sampleOpen : ChainRegistry :=
  [RegistryOp.createSidechain ⟨1⟩ none none none .sovereign none 10000 0,
    RegistryOp.updateVerifiedStateRoot ⟨1⟩ sampleLeaf.root, RegistryOp.triggerPurge ⟨1⟩ .inactivity 0,
    RegistryOp.advancePurgeState ⟨1⟩ purgeWarningPeriod, RegistryOp.advancePurgeState ⟨1⟩ purgeWarningPeriod,
    RegistryOp.advancePurgeState ⟨1⟩ purgeWarningPeriod].foldl (apply Crypto.sample) .new

def sampleOpenChain : SidechainInfo :=
  { SidechainInfo.new ⟨1⟩ none ⟨1⟩ none none .sovereign 10000 0 with
    status := .withdrawalWindow
    purgeTriggeredAt := some 0
    purgeTrigger := some .inactivity
    frozenAt := some purgeWarningPeriod
    snapshotAt := some purgeWarningPeriod
    withdrawalWindowStart := some purgeWarningPeriod
    lastVerifiedStateRoot := some sampleLeaf.root
    snapshotStateRoot := some sampleLeaf.root }

theorem sampleOpen_find : sampleOpen.sidechains.find? ⟨1⟩ = some sampleOpenChain := by decide

/-- The leaf with a sibling it does not have. -/
theorem one_claim_sample :
    sampleOpen.OneClaim Crypto.sample ⟨1⟩ { sampleLeaf with proof := [sampleLeaf.root] } :=
  (one_claim_iff Crypto.sample sampleOpen ⟨1⟩ { sampleLeaf with proof := [sampleLeaf.root] } sampleOpenChain
    sampleLeaf.root sampleOpen_find rfl rfl).mpr (.inl (by decide +kernel))

/-- One leaf pays account 2 its 5 and account 3 its 70000. -/
theorem proof_claimed_twice : ¬ sampleOpen.OneClaim Crypto.sample ⟨1⟩ sampleLeaf := by
  intro h
  have haccept : ∀ a : AccountId, a ∉ sampleOpenChain.withdrawnAccounts → ∀ balance,
      sampleOpen.Accepts Crypto.sample ⟨1⟩ sampleLeaf a balance := by
    intro a ha balance
    exact (accepts_iff _ _ _ _ _ _).mpr
      ⟨sampleOpenChain, sampleLeaf.root, sampleOpen_find, rfl, rfl, by decide, rfl, ha⟩
  obtain ⟨hsame, -⟩ := h ⟨2⟩ 5 ⟨3⟩ 70000 (haccept ⟨2⟩ (by decide) 5) (haccept ⟨3⟩ (by decide) 70000)
  exact absurd hsame (by decide)

/-! ## Purges -/

theorem released_cases (cr : Crypto) (g : ChainRegistry) (op : RegistryOp) (c : ChainId)
    (h : c ∈ g.released op) :
    ∃ sc, (g.apply cr op).sidechains.find? c = some sc ∧ sc.status = .purged := by
  cases op with
  | purgeSidechain i b =>
    cases hr : g.purgeSidechain i b with
    | error e => simp [released, hr] at h
    | ok t =>
      obtain ⟨sc, -, -, -, hs⟩ := purgeSidechain_ok g t.1 i b t.2 hr
      have hci : c = i := by simpa [released, hr] using h
      have happly : g.apply cr (.purgeSidechain i b) = t.1 := by
        simp only [apply, hr]
        rfl
      refine ⟨{ sc with status := .purged }, ?_, rfl⟩
      rw [happly, hs, hci, SortedMap.find?_insert_self]
  | autoPurgeInactive order b => exact ((autoPurgeInactive_spec order g b).2 c h).2.2
  | _ => cases h

end ChainRegistry

/-- A registry with the chains whose deposit a purge has given back. -/
structure Traced where
  registry : ChainRegistry
  released : Finset ChainId

namespace Traced

def new : Traced := ⟨.new, ∅⟩

def apply (cr : Crypto) (s : Traced) (op : RegistryOp) : Traced :=
  ⟨s.registry.apply cr op, s.released ∪ (s.registry.released op).toFinset⟩

/-- What the calls leave unchecked.  A purge finds the chain neither purged with its
deposit given back nor with a withdrawal of its owner; an emergency exit of the owner
finds the deposit not given back; a proven withdrawal of the owner is at most the
deposit; and a creation takes a new id. -/
def proper (cr : Crypto) (s : Traced) : RegistryOp → Bool
  | .purgeSidechain chainId currentBlock =>
    (s.registry.sidechains.find? chainId).all fun sc =>
      !sc.isInactive currentBlock inactivityThreshold ||
        (decide (chainId ∉ s.released) && decide (sc.owner ∉ sc.withdrawnAccounts))
  | .autoPurgeInactive _ currentBlock =>
    decide (currentBlock < s.registry.lastPurgeCheck + purgeCheckInterval) ||
      s.registry.sidechains.values.all fun sc =>
        !ChainRegistry.isPurgeable currentBlock sc || decide (sc.owner ∉ sc.withdrawnAccounts)
  | .withdrawWithProof chainId account balance merkleProof =>
    (s.registry.sidechains.find? chainId).all fun sc =>
      decide (account ≠ sc.owner) || decide (sc.status ≠ .withdrawalWindow) ||
        decide (account ∈ sc.withdrawnAccounts) || decide (balance ≤ sc.deposit) ||
        sc.snapshotStateRoot.all fun root => !merkleProof.verify cr || decide (merkleProof.root ≠ root)
  | .emergencyExit chainId account _ _ =>
    (s.registry.sidechains.find? chainId).all fun sc =>
      decide (account ≠ sc.owner) || decide (account ∈ sc.withdrawnAccounts) ||
        decide (chainId ∉ s.released)
  | op => s.registry.freshId op

theorem freshId_of_proper (cr : Crypto) (s : Traced) (op : RegistryOp) (h : s.proper cr op = true) :
    s.registry.freshId op = true := by
  cases op with
  | createSidechain owner name description parent m host deposit b => exact h
  | _ => rfl

/-- The chains given back are purged. -/
def Inv (s : Traced) : Prop :=
  ∀ c ∈ s.released, ∃ sc, s.registry.sidechains.find? c = some sc ∧ sc.status = .purged

theorem apply_inv (cr : Crypto) (s : Traced) (op : RegistryOp) (h : s.Inv) (hp : s.proper cr op = true) :
    (s.apply cr op).Inv := by
  intro c hc
  rcases Finset.mem_union.mp hc with hc | hc
  · obtain ⟨sc, hf, hs⟩ := h c hc
    obtain ⟨sc', hf', hl⟩ := ChainRegistry.apply_later cr s.registry op (freshId_of_proper cr s op hp) c sc hf
    exact ⟨sc', hf', hl.purged hs⟩
  · exact ChainRegistry.released_cases cr s.registry op c (List.mem_toFinset.mp hc)

/-- Something has been returned for the chain. -/
def Settled (s : Traced) (c : ChainId) : Prop :=
  c ∈ s.released ∨ ∃ sc, s.registry.sidechains.find? c = some sc ∧ sc.owner ∈ sc.withdrawnAccounts

theorem Settled.apply {s : Traced} {c : ChainId} (h : s.Settled c) (cr : Crypto) (op : RegistryOp)
    (hp : s.proper cr op = true) : (s.apply cr op).Settled c := by
  rcases h with hc | ⟨sc, hf, hw⟩
  · exact .inl (Finset.mem_union_left _ hc)
  · obtain ⟨sc', hf', hl⟩ := ChainRegistry.apply_later cr s.registry op (freshId_of_proper cr s op hp) c sc hf
    refine .inr ⟨sc', hf', ?_⟩
    rw [hl.owner]
    exact hl.withdrawn hw

/-- Where nothing has been returned yet. -/
theorem not_settled {s : Traced} {c : ChainId} {sc : SidechainInfo} (hf : s.registry.sidechains.find? c = some sc)
    (hc : c ∉ s.released) (hw : sc.owner ∉ sc.withdrawnAccounts) : ¬ s.Settled c := by
  rintro (h | ⟨sc', hf', h⟩)
  · exact hc h
  · rw [hf] at hf'
    obtain rfl := Option.some.inj hf'
    exact hw h

theorem Inv.not_released {s : Traced} (h : s.Inv) {c : ChainId} {sc : SidechainInfo}
    (hf : s.registry.sidechains.find? c = some sc) (hs : sc.status ≠ .purged) : c ∉ s.released := by
  intro hc
  obtain ⟨sc', hf', hp⟩ := h c hc
  rw [hf] at hf'
  obtain rfl := Option.some.inj hf'
  exact hs hp

/-- A withdrawal of the owner settles the chain. -/
theorem settled_of_withdrawal (cr : Crypto) (s : Traced) (op : RegistryOp) (r : WithdrawalResult)
    (sc : SidechainInfo) (h : s.registry.withdrawal cr op = some r)
    (hf : s.registry.sidechains.find? r.chainId = some sc) (ho : sc.owner = r.recipient) :
    sc.owner ∉ sc.withdrawnAccounts ∧ (s.apply cr op).Settled r.chainId := by
  obtain ⟨sc', hf', hnot, hs⟩ := ChainRegistry.withdrawal_cases cr s.registry op r h
  rw [hf] at hf'
  obtain rfl := Option.some.inj hf'
  rw [ho]
  refine ⟨hnot, .inr ⟨{ sc with withdrawnAccounts := insert r.recipient sc.withdrawnAccounts }, ?_, ?_⟩⟩
  · show (s.registry.apply cr op).sidechains.find? r.chainId = _
    rw [hs, SortedMap.find?_insert_self]
  · show sc.owner ∈ insert r.recipient sc.withdrawnAccounts
    rw [ho]
    exact Finset.mem_insert_self _ _

/-- A withdrawal of the owner in a proper call. -/
theorem withdrawal_bounded (cr : Crypto) (s : Traced) (op : RegistryOp) (r : WithdrawalResult)
    (sc : SidechainInfo) (hinv : s.Inv) (hp : s.proper cr op = true)
    (h : s.registry.withdrawal cr op = some r) (hf : s.registry.sidechains.find? r.chainId = some sc)
    (ho : sc.owner = r.recipient) : r.chainId ∉ s.released ∧ r.amount.val ≤ sc.deposit.val := by
  cases op with
  | withdrawFromPurgedChain c a =>
    obtain ⟨t, ht⟩ := Except.toOption_snd_eq_some _ r h
    obtain ⟨sc', hf', hs, -, hc, -, -, hamount, -⟩ :=
      ChainRegistry.withdrawFromPurgedChain_ok s.registry t c a r ht
    rw [← hc, hf] at hf'
    obtain rfl := Option.some.inj hf'
    exact ⟨hinv.not_released hf (by simp [hs]), by rw [hamount]⟩
  | withdrawWithProof c a balance proof =>
    obtain ⟨t, ht⟩ := Except.toOption_snd_eq_some _ r h
    obtain ⟨sc', root, hf', hs, ha, hroot, hverify, hsame, hc, hrec, hamount, -⟩ :=
      ChainRegistry.withdrawWithProof_ok cr s.registry t c a balance proof r ht
    rw [hc, hf'] at hf
    obtain rfl := Option.some.inj hf
    rw [hc, hamount]
    refine ⟨hinv.not_released hf' (by simp [hs]), ?_⟩
    -- the owner's proof holds, so the amount is bounded
    rw [hrec] at ho
    have hle : balance ≤ sc'.deposit := by
      simpa [proper, hf', ho, hs, ha, hroot, hverify, hsame] using hp
    exact hle
  | emergencyExit c a balance proof =>
    obtain ⟨t, ht⟩ := Except.toOption_snd_eq_some _ r h
    obtain ⟨sc', hf', ha, hc, hrec, hamount, -⟩ :=
      ChainRegistry.emergencyExit_ok cr s.registry t c a balance proof r ht
    rw [hc, hf'] at hf
    obtain rfl := Option.some.inj hf
    rw [hrec] at ho
    rw [hc, hamount ho.symm]
    refine ⟨?_, Nat.le_refl _⟩
    simpa [proper, hf', ho, ha] using hp
  | _ => cases h

/-- What is returned for a chain is returned once, and at most the deposit. -/
def PaysOnce (cr : Crypto) (s : Traced) (op : RegistryOp) (c : ChainId) : Prop :=
  s.registry.returned cr c op = 0 ∨
    ∃ sc, s.registry.sidechains.find? c = some sc ∧ s.registry.returned cr c op ≤ sc.deposit.val ∧
      ¬ s.Settled c ∧ (s.apply cr op).Settled c

theorem purgeSidechain_paysOnce (cr : Crypto) (s : Traced) (i : ChainId) (b : Nat) (c : ChainId)
    (hp : s.proper cr (.purgeSidechain i b) = true) : s.PaysOnce cr (.purgeSidechain i b) c := by
  cases hr : s.registry.purgeSidechain i b with
  | error e => exact .inl (by simp [ChainRegistry.returned, hr])
  | ok t =>
    by_cases hi : i = c
    · subst hi
      obtain ⟨sc, hf, hinactive, hd, -⟩ := ChainRegistry.purgeSidechain_ok s.registry t.1 i b t.2 hr
      have hopen : i ∉ s.released ∧ sc.owner ∉ sc.withdrawnAccounts := by
        simpa [proper, hf, hinactive] using hp
      have hret : s.registry.returned cr i (.purgeSidechain i b) = sc.deposit.val := by
        simp [ChainRegistry.returned, hr, hd]
      refine .inr ⟨sc, hf, Nat.le_of_eq hret, not_settled hf hopen.1 hopen.2, .inl ?_⟩
      apply Finset.mem_union_right
      simp [ChainRegistry.released, hr]
    · exact .inl (by simp [ChainRegistry.returned, hr, hi])

theorem autoPurgeInactive_paysOnce (cr : Crypto) (s : Traced) (order : IterOrder ChainId) (b : Nat)
    (c : ChainId) (hinv : s.Inv) (hp : s.proper cr (.autoPurgeInactive order b) = true) :
    s.PaysOnce cr (.autoPurgeInactive order b) c := by
  by_cases hc : c ∈ (ChainRegistry.autoPurgeInactive order s.registry b).2
  · obtain ⟨hb, ⟨sc, hf, hpurge⟩, -⟩ := (ChainRegistry.autoPurgeInactive_spec order s.registry b).2 c hc
    have hw : sc.owner ∉ sc.withdrawnAccounts := by
      unfold proper at hp
      simp only [hb, decide_false, Bool.false_or, List.all_eq_true] at hp
      simpa [hpurge] using hp sc ((SortedMap.mem_values_iff _ _).mpr ⟨c, hf⟩)
    have hactive : sc.status = .active := by
      unfold ChainRegistry.isPurgeable at hpurge
      simp only [Bool.and_eq_true, decide_eq_true_eq] at hpurge
      exact hpurge.1
    have hret : s.registry.returned cr c (.autoPurgeInactive order b) = sc.deposit.val := by
      simp [ChainRegistry.returned, hc, hf]
    refine .inr ⟨sc, hf, Nat.le_of_eq hret, ?_, .inl ?_⟩
    · exact not_settled hf (hinv.not_released hf (by simp [hactive])) hw
    · exact Finset.mem_union_right _ (List.mem_toFinset.mpr hc)
  · exact .inl (by simp [ChainRegistry.returned, hc])

theorem withdrawal_paysOnce (cr : Crypto) (s : Traced) (op : RegistryOp) (c : ChainId) (hinv : s.Inv)
    (hp : s.proper cr op = true)
    (hret : s.registry.returned cr c op = (s.registry.withdrawal cr op).elim 0 fun r =>
      if r.chainId = c ∧ (s.registry.sidechains.find? c).map SidechainInfo.owner = some r.recipient then
        r.amount.val
      else 0) : s.PaysOnce cr op c := by
  unfold PaysOnce
  rw [hret]
  cases h : s.registry.withdrawal cr op with
  | none => exact .inl rfl
  | some r =>
    rw [Option.elim_some]
    by_cases hr : r.chainId = c ∧
        (s.registry.sidechains.find? c).map SidechainInfo.owner = some r.recipient
    · rw [if_pos hr]
      obtain ⟨rfl, howner⟩ := hr
      obtain ⟨sc, hf, ho⟩ := Option.map_eq_some_iff.mp howner
      obtain ⟨hnot, hsettled⟩ := settled_of_withdrawal cr s op r sc h hf ho
      obtain ⟨hopen, hle⟩ := withdrawal_bounded cr s op r sc hinv hp h hf ho
      exact .inr ⟨sc, hf, hle, not_settled hf hopen hnot, hsettled⟩
    · rw [if_neg hr]
      exact .inl rfl

/-- **Step lemma.** -/
theorem apply_paysOnce (cr : Crypto) (s : Traced) (op : RegistryOp) (c : ChainId) (hinv : s.Inv)
    (hp : s.proper cr op = true) : s.PaysOnce cr op c := by
  cases op with
  | purgeSidechain i b => exact purgeSidechain_paysOnce cr s i b c hp
  | autoPurgeInactive order b => exact autoPurgeInactive_paysOnce cr s order b c hinv hp
  | _ => exact withdrawal_paysOnce cr s _ c hinv hp rfl

/-! ## Runs -/

theorem registry_apply (cr : Crypto) (s : Traced) (op : RegistryOp) :
    (s.apply cr op).registry = s.registry.apply cr op := rfl

theorem registry_run (cr : Crypto) (s : Traced) (ops : List RegistryOp) :
    (ops.foldl (apply cr) s).registry = ops.foldl (ChainRegistry.apply cr) s.registry := by
  induction ops generalizing s with
  | nil => rfl
  | cons op ops ih => exact ih _

/-- Along a run every stored chain has its deposit. -/
theorem deposit_kept (cr : Crypto) (s : Traced) (ops : List RegistryOp)
    (h : Run.Meets (apply cr) (fun s op => s.proper cr op = true) s ops) :
    s.registry.Later (ops.foldl (apply cr) s).registry := by
  refine Run.rel_foldl (apply cr) _ (fun _ => True) (fun s t => s.registry.Later t.registry)
    (fun s => .refl _) (fun _ _ _ h h' => h.trans h') (fun _ _ _ _ => trivial) ?_ s ops trivial h
  intro s op _ hp
  exact ChainRegistry.apply_later cr s.registry op (freshId_of_proper cr s op hp)

theorem new_inv : new.Inv := by
  intro c hc
  cases hc

/-- In every run of proper calls the total returned for the owner of a chain is at most
its deposit. -/
theorem returned_le_deposit (cr : Crypto) (ops : List RegistryOp)
    (h : Run.Meets (apply cr) (fun s op => s.proper cr op = true) new ops) (c : ChainId) (sc : SidechainInfo)
    (hf : (ops.foldl (ChainRegistry.apply cr) .new).sidechains.find? c = some sc) :
    Run.tally (ChainRegistry.apply cr) (ChainRegistry.returned cr c) .new ops ≤ sc.deposit.val := by
  have hproj := Run.tally_proj (ChainRegistry.apply cr) (apply cr) registry (registry_apply cr)
    (ChainRegistry.returned cr c) new ops
  have hbound : Run.Meets (apply cr)
      (fun s op => s.proper cr op = true ∧
        ∀ sc', s.registry.sidechains.find? c = some sc' → sc'.deposit = sc.deposit) new ops := by
    rw [Run.meets_iff_split]
    rintro pre op post rfl
    have hrest := ((Run.meets_append _ _ _ _ _).mp h).2
    refine ⟨hrest.1, ?_⟩
    intro sc' hf'
    -- from here to the end of the run
    obtain ⟨sc'', hf'', hl⟩ := deposit_kept cr _ _ hrest c sc' hf'
    rw [← List.foldl_append, registry_run] at hf''
    rw [show (new.registry) = .new from rfl, hf] at hf''
    obtain rfl := Option.some.inj hf''
    exact hl.deposit.symm
  rw [show (ChainRegistry.new) = new.registry from rfl, ← hproj]
  refine Run.tally_le (apply cr) sc.deposit.val _ Inv (fun s => s.Settled c)
    (fun s op => s.registry.returned cr c op) ?_ ?_ ?_ new ops new_inv hbound
  · intro s op hinv hp
    exact apply_inv cr s op hinv hp.1
  · intro s op hinv hp hsettled
    refine ⟨?_, hsettled.apply cr op hp.1⟩
    rcases apply_paysOnce cr s op c hinv hp.1 with hz | ⟨-, -, -, hnot, -⟩
    · exact hz
    · exact absurd hsettled hnot
  · intro s op hinv hp
    rcases apply_paysOnce cr s op c hinv hp.1 with hz | ⟨sc', hf', hle, -, hsettled⟩
    · exact .inl hz
    · rw [hp.2 sc' hf'] at hle
      exact .inr ⟨hle, hsettled⟩

/-- In every run of proper calls the owner of a chain gets back at most the deposit, and
every account makes at most one withdrawal from each chain. -/
theorem paid_at_most_once (cr : Crypto) (ops : List RegistryOp)
    (h : Run.Meets (apply cr) (fun s op => s.proper cr op = true) new ops) :
    (∀ c sc, (ops.foldl (ChainRegistry.apply cr) .new).sidechains.find? c = some sc →
      Run.tally (ChainRegistry.apply cr) (ChainRegistry.returned cr c) .new ops ≤ sc.deposit.val) ∧
    ∀ c a, Run.tally (ChainRegistry.apply cr) (ChainRegistry.withdraws cr c a) .new ops ≤ 1 := by
  refine ⟨returned_le_deposit cr ops h, ?_⟩
  intro c a
  apply ChainRegistry.withdraws_le_one
  rw [Run.meets_iff_split] at h ⊢
  intro pre op post hsplit
  have hfresh := freshId_of_proper cr _ op (h pre op post hsplit)
  rw [registry_run] at hfresh
  exact hfresh

/-- A chain of account 1 with a deposit of 10000, id 1. -/
def sampleCreate : RegistryOp := .createSidechain ⟨1⟩ none none none .sovereign none 10000 0

/-- A user leaves, then the chain is purged. -/
def samplePurged : List RegistryOp :=
  [sampleCreate, .emergencyExit ⟨1⟩ ⟨2⟩ 50 none, .purgeSidechain ⟨1⟩ (inactivityThreshold + 1)]

theorem paid_at_most_once_sample :
    Run.Meets (apply Crypto.sample) (fun s op => s.proper Crypto.sample op = true) new samplePurged ∧
      Run.tally (ChainRegistry.apply Crypto.sample) (ChainRegistry.withdraws Crypto.sample ⟨1⟩ ⟨2⟩) .new
        samplePurged ≤ 1 := by
  have hm : Run.Meets (apply Crypto.sample) (fun s op => s.proper Crypto.sample op = true) new
      samplePurged := by decide
  exact ⟨hm, (paid_at_most_once Crypto.sample samplePurged hm).2 ⟨1⟩ ⟨2⟩⟩

/-- The same inactive chain purged twice. -/
def sampleTwice : List RegistryOp :=
  [sampleCreate, .purgeSidechain ⟨1⟩ (inactivityThreshold + 1), .purgeSidechain ⟨1⟩ (inactivityThreshold + 2)]

/-- Purged, then left by its owner. -/
def sampleExitAfter : List RegistryOp :=
  [sampleCreate, .purgeSidechain ⟨1⟩ (inactivityThreshold + 1), .emergencyExit ⟨1⟩ ⟨1⟩ 0 none]

/-- The owner proves any leaf of the snapshot and names a balance. -/
def sampleOwnerProof : List RegistryOp :=
  let root := Crypto.sample.blake3 []
  [sampleCreate, .updateVerifiedStateRoot ⟨1⟩ root, .triggerPurge ⟨1⟩ .inactivity 0,
    .advancePurgeState ⟨1⟩ purgeWarningPeriod, .advancePurgeState ⟨1⟩ purgeWarningPeriod,
    .advancePurgeState ⟨1⟩ purgeWarningPeriod,
    .withdrawWithProof ⟨1⟩ ⟨1⟩ 70000
      { leaf := [], leafIndex := 0, proof := [], root, blockNumber := 0, chainId := ⟨1⟩ }]

def sampleTotal (ops : List RegistryOp) : Nat :=
  Run.tally (ChainRegistry.apply Crypto.sample) (ChainRegistry.returned Crypto.sample ⟨1⟩) .new ops

def sampleDeposit (ops : List RegistryOp) : Option Nat :=
  ((ops.foldl (ChainRegistry.apply Crypto.sample) .new).sidechains.find? ⟨1⟩).map fun sc => sc.deposit.val

theorem deposit_paid_twice :
    (sampleDeposit sampleTwice = some 10000 ∧ ¬ sampleTotal sampleTwice ≤ 10000) ∧
      (sampleDeposit sampleExitAfter = some 10000 ∧ ¬ sampleTotal sampleExitAfter ≤ 10000) ∧
      sampleDeposit sampleOwnerProof = some 10000 ∧ ¬ sampleTotal sampleOwnerProof ≤ 10000 := by
  decide

end Traced

end Kratos
