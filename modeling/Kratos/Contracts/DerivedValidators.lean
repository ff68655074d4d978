import Kratos.Contracts.Affiliation

/-!
# Validators of inherited and shared chains

An inherited chain has the validators of its parent and a shared one the pool of its
host, as copies.  The copies are made when a chain is created and when a pool
changes; a chain that joins another host, and the children of a chain whose
validators change, keep the old ones.  `synced` says where a call does not leave a
copy behind, and in every run of such calls all copies are in step (`in_step`).
-/

namespace Kratos

/-- What the copies of validators depend on. -/
def SidechainInfo.core (sc : SidechainInfo) : SecurityMode × Option ChainId × Finset AccountId :=
  (sc.securityMode, sc.parent, sc.validators)

namespace ChainRegistry

/-- Every copy is the set it was made from. -/
structure InStep (g : ChainRegistry) : Prop where
  inherited : ∀ c sc p pc, g.sidechains.find? c = some sc → sc.securityMode = .inherited →
    sc.parent = some p → g.sidechains.find? p = some pc → sc.validators = pc.validators
  shared : ∀ c sc h host, g.sidechains.find? c = some sc → sc.securityMode = .shared →
    g.sidechainToHost.find? c = some h → g.hostchains.find? h = some host → sc.validators = host.validatorPool

/-- Chains with a host, their hosts and the parents of chains are stored. -/
structure Rooted (g : ChainRegistry) : Prop where
  chain : ∀ c h, g.sidechainToHost.find? c = some h → ∃ sc, g.sidechains.find? c = some sc
  host : ∀ c h, g.sidechainToHost.find? c = some h → ∃ host, g.hostchains.find? h = some host
  parent : ∀ c sc p, g.sidechains.find? c = some sc → sc.parent = some p → ∃ pc, g.sidechains.find? p = some pc

/-! ## The condition -/

/-- The chain has the validators of the host's pool. -/
def isShare (g : ChainRegistry) (h c : ChainId) : Bool :=
  decide (g.sidechainToHost.find? c = some h) &&
    (g.sidechains.find? c).any fun sc => decide (sc.securityMode = .shared)

/-- No chain inherits from the chain. -/
def childless (g : ChainRegistry) (c : ChainId) : Bool :=
  g.sidechains.values.all fun sc => decide (sc.securityMode ≠ .inherited) || decide (sc.parent ≠ some c)

/-- The host has no shared chain; or none of them has an inherited child, and no inherited
chain of the host is without a parent. -/
def poolReady (g : ChainRegistry) (h : ChainId) : Bool :=
  (g.sidechains.filter fun c _ => g.isShare h c).keys.isEmpty ||
    (g.sidechains.filter fun c sc => decide (sc.securityMode = .inherited) &&
      ((sc.parent.any fun p => g.isShare h p) ||
        decide (sc.parent = none) && decide (g.sidechainToHost.find? c = some h))).keys.isEmpty

/-- What the calls leave unchecked.  A shared chain that joins a host has the validators of
the pool; validators of a chain with inherited children do not change; a pool that changes
is ready for it; and a creation takes a new id. -/
def synced (g : ChainRegistry) : RegistryOp → Bool
  | .createSidechain _ _ _ parent securityMode hostId deposit _ =>
    !g.accepts parent securityMode hostId deposit || !g.sidechains.contains ⟨g.nextChainId⟩
  | .createHostchain _ _ => !g.hostchains.contains ⟨g.nextChainId⟩
  | .affiliateSidechain sidechainId hostId =>
    (g.sidechains.find? sidechainId).all fun sc =>
      decide (sc.securityMode ≠ .shared) ||
        (g.hostchains.find? hostId).all fun host =>
          decide (maxMembersPerHost ≤ host.memberChains.card) || decide (sc.validators = host.validatorPool)
  | .addValidatorToChain chainId validator =>
    (g.sidechains.find? chainId).all fun sc =>
      decide (sc.securityMode ≠ .sovereign) || decide (validator ∈ sc.validators) ||
        decide (maxValidatorsPerChain ≤ sc.validators.card) || g.childless chainId
  | .removeValidatorFromChain chainId validator =>
    (g.sidechains.find? chainId).all fun sc =>
      decide (sc.securityMode ≠ .sovereign) || decide (validator ∉ sc.validators) || g.childless chainId
  | .addValidatorToHostchain _ hostId validator =>
    (g.hostchains.find? hostId).all fun host =>
      decide (validator ∈ host.validatorPool) || decide (maxValidatorsPerHost ≤ host.validatorPool.card) ||
        g.poolReady hostId
  | .removeValidatorFromHostchain _ hostId validator =>
    (g.hostchains.find? hostId).all fun host =>
      decide (validator ∉ host.validatorPool) || g.poolReady hostId
  | _ => true

/-! ## Calls that change no copy -/

/-- Nothing the copies depend on has changed, except that chains may have left their hosts. -/
structure Quiet (g t : ChainRegistry) : Prop where
  cores : ∀ c, (t.sidechains.find? c).map SidechainInfo.core = (g.sidechains.find? c).map SidechainInfo.core
  hosts : ∀ c h, t.sidechainToHost.find? c = some h → g.sidechainToHost.find? c = some h
  pools : ∀ h, (t.hostchains.find? h).map HostChainInfo.validatorPool =
    (g.hostchains.find? h).map HostChainInfo.validatorPool

namespace Quiet

variable {g t : ChainRegistry}

theorem refl (g : ChainRegistry) : g.Quiet g := ⟨fun _ => rfl, fun _ _ h => h, fun _ => rfl⟩

theorem trans {r s t : ChainRegistry} (h : r.Quiet s) (h' : s.Quiet t) : r.Quiet t where
  cores c := (h'.cores c).trans (h.cores c)
  hosts c i hc := h.hosts c i (h'.hosts c i hc)
  pools i := (h'.pools i).trans (h.pools i)

theorem find_before (h : g.Quiet t) {c : ChainId} {sc : SidechainInfo} (hf : t.sidechains.find? c = some sc) :
    ∃ sc', g.sidechains.find? c = some sc' ∧ sc'.core = sc.core := by
  have hc := h.cores c
  rw [hf] at hc
  exact Option.map_eq_some_iff.mp hc.symm

theorem find_after (h : g.Quiet t) {c : ChainId} {sc : SidechainInfo} (hf : g.sidechains.find? c = some sc) :
    ∃ sc', t.sidechains.find? c = some sc' ∧ sc'.core = sc.core := by
  have hc := h.cores c
  rw [hf] at hc
  exact Option.map_eq_some_iff.mp hc

theorem host_before (h : g.Quiet t) {i : ChainId} {host : HostChainInfo} (hf : t.hostchains.find? i = some host) :
    ∃ host', g.hostchains.find? i = some host' ∧ host'.validatorPool = host.validatorPool := by
  have hc := h.pools i
  rw [hf] at hc
  exact Option.map_eq_some_iff.mp hc.symm

theorem host_after (h : g.Quiet t) {i : ChainId} {host : HostChainInfo} (hf : g.hostchains.find? i = some host) :
    ∃ host', t.hostchains.find? i = some host' ∧ host'.validatorPool = host.validatorPool := by
  have hc := h.pools i
  rw [hf] at hc
  exact Option.map_eq_some_iff.mp hc

theorem inStep (h : g.Quiet t) (hg : g.InStep) : t.InStep where
  inherited c sc p pc hf hm hp hfp := by
    obtain ⟨sc', hf', hcore⟩ := h.find_before hf
    obtain ⟨pc', hfp', hpcore⟩ := h.find_before hfp
    simp only [SidechainInfo.core, Prod.mk.injEq] at hcore hpcore
    have := hg.inherited c sc' p pc' hf' (hcore.1.trans hm) (hcore.2.1.trans hp) hfp'
    rw [← hcore.2.2, this, hpcore.2.2]
  shared c sc i host hf hm hi hfh := by
    obtain ⟨sc', hf', hcore⟩ := h.find_before hf
    obtain ⟨host', hfh', hpool⟩ := h.host_before hfh
    simp only [SidechainInfo.core, Prod.mk.injEq] at hcore
    have := hg.shared c sc' i host' hf' (hcore.1.trans hm) (h.hosts c i hi) hfh'
    rw [← hcore.2.2, this, hpool]

theorem rooted (h : g.Quiet t) (hg : g.Rooted) : t.Rooted where
  chain c i hc := by
    obtain ⟨sc, hf⟩ := hg.chain c i (h.hosts c i hc)
    obtain ⟨sc', hf', -⟩ := h.find_after hf
    exact ⟨sc', hf'⟩
  host c i hc := by
    obtain ⟨host, hf⟩ := hg.host c i (h.hosts c i hc)
    obtain ⟨host', hf', -⟩ := h.host_after hf
    exact ⟨host', hf'⟩
  parent c sc p hf hp := by
    obtain ⟨sc', hf', hcore⟩ := h.find_before hf
    simp only [SidechainInfo.core, Prod.mk.injEq] at hcore
    obtain ⟨pc, hfp⟩ := hg.parent c sc' p hf' (hcore.2.1.trans hp)
    obtain ⟨pc', hfp', -⟩ := h.find_after hfp
    exact ⟨pc', hfp'⟩

/-- Rewriting one chain outside of what the copies depend on. -/
theorem rewrite {c : ChainId} {sc sc' : SidechainInfo} (hf : g.sidechains.find? c = some sc)
    (hs : t.sidechains = g.sidechains.insert c sc') (hcore : sc'.core = sc.core)
    (hl : t.sidechainToHost = g.sidechainToHost) (hh : t.hostchains = g.hostchains) : g.Quiet t where
  cores i := by
    rw [hs]
    by_cases hi : i = c
    · rw [hi, SortedMap.find?_insert_self, hf]
      exact congrArg some hcore
    · rw [SortedMap.find?_insert_ne _ _ _ _ hi]
  hosts i j hi := by rwa [hl] at hi
  pools i := by rw [hh]

theorem of_eq (hs : t.sidechains = g.sidechains) (hl : t.sidechainToHost = g.sidechainToHost)
    (hh : t.hostchains = g.hostchains) : g.Quiet t where
  cores i := by rw [hs]
  hosts i j hi := by rwa [hl] at hi
  pools i := by rw [hh]

end Quiet

theorem erase_find {m : SortedMap ChainId ChainId} {c i h : ChainId} (hi : (m.erase c).find? i = some h) :
    m.find? i = some h := by
  rw [find?_erase_eq_update] at hi
  by_cases hic : i = c
  · rw [hic, Function.update_self] at hi
    cases hi
  · rwa [Function.update_of_ne hic] at hi

/-- Rewriting one host outside of its pool. -/
theorem pools_insert {m : SortedMap ChainId HostChainInfo} {h : ChainId} {host host' : HostChainInfo}
    (hf : m.find? h = some host) (hp : host'.validatorPool = host.validatorPool) (i : ChainId) :
    ((m.insert h host').find? i).map HostChainInfo.validatorPool =
      (m.find? i).map HostChainInfo.validatorPool := by
  by_cases hi : i = h
  · rw [hi, SortedMap.find?_insert_self, hf]
    exact congrArg some hp
  · rw [SortedMap.find?_insert_ne _ _ _ _ hi]

theorem removeMember_validatorPool (host : HostChainInfo) (c : ChainId) :
    ((host.removeMember c).orKeep host).validatorPool = host.validatorPool := by
  unfold HostChainInfo.removeMember
  split <;> rfl

theorem detach_quiet (g : ChainRegistry) (c : ChainId) : g.Quiet (g.detach c) := by
  unfold detach
  split
  · exact .refl g
  · next h _ =>
    simp only
    split
    · exact ⟨fun _ => rfl, fun _ _ => erase_find, fun _ => rfl⟩
    · next host hf =>
      exact ⟨fun _ => rfl, fun _ _ => erase_find, pools_insert hf (removeMember_validatorPool host c)⟩

theorem leaveHost_quiet (g : ChainRegistry) (c : ChainId) : g.Quiet (g.leaveHost c).1 := by
  unfold leaveHost
  split
  · exact .refl g
  · next h _ =>
    simp only
    split
    · exact ⟨fun _ => rfl, fun _ _ => erase_find, fun _ => rfl⟩
    · next host hf =>
      split
      · exact ⟨fun _ => rfl, fun _ _ => erase_find, fun _ => rfl⟩
      · next host' hr =>
        have hpool := removeMember_validatorPool host c
        rw [hr] at hpool
        exact ⟨fun _ => rfl, fun _ _ => erase_find, pools_insert hf hpool⟩

theorem withSidechain_quiet {α : Type} (g t : ChainRegistry) (c : ChainId)
    (f : SidechainInfo → Except ChainError (SidechainInfo × α)) (a : α)
    (hcore : ∀ sc sc' a, f sc = .ok (sc', a) → sc'.core = sc.core) (h : g.withSidechain c f = .ok (t, a)) :
    g.Quiet t := by
  obtain ⟨sc, sc', hf, hr, rfl⟩ := withSidechain_ok g t c f a h
  exact .rewrite hf rfl (hcore sc sc' a hr) rfl rfl

theorem withSidechain_orKeep_quiet {α : Type} (g : ChainRegistry) (c : ChainId)
    (f : SidechainInfo → Except ChainError (SidechainInfo × α))
    (hcore : ∀ sc sc' a, f sc = .ok (sc', a) → sc'.core = sc.core) :
    g.Quiet (((g.withSidechain c f).map Prod.fst).orKeep g) := by
  apply Except.orKeep_map_of g.Quiet _ g (.refl g)
  intro t a ht
  exact withSidechain_quiet g t c f a hcore ht

theorem purgeSidechain_quiet (g t : ChainRegistry) (c : ChainId) (b : Nat) (d : Balance)
    (h : g.purgeSidechain c b = .ok (t, d)) : g.Quiet t := by
  unfold purgeSidechain at h
  split at h
  · cases h
  · next u d' hu =>
    cases h
    refine (withSidechain_quiet g u c _ d ?_ hu).trans (detach_quiet u c)
    intro sc sc' d hr
    split at hr
    · cases hr
    · cases hr
      rfl

theorem autoPurgeInactive_quiet (order : IterOrder ChainId) (g : ChainRegistry) (b : Nat) :
    g.Quiet (autoPurgeInactive order g b).1 :=
  autoPurgeInactive_rel Quiet .refl (fun h h' => h.trans h') b (fun _ => .of_eq rfl rfl rfl)
    (fun g t c d => purgeSidechain_quiet g t c b d) order g

theorem advance_core (sc : SidechainInfo) (b : Nat) : (advance sc b).core = sc.core := by
  unfold advance
  cases sc.status with
  | pendingPurge =>
    simp only
    split <;> rfl
  | withdrawalWindow =>
    simp only
    split <;> rfl
  | _ => rfl

theorem advancePurgeState_quiet (g t : ChainRegistry) (c : ChainId) (b : Nat) (status : ChainStatus)
    (h : g.advancePurgeState c b = .ok (t, status)) : g.Quiet t := by
  obtain ⟨sc, hf, ht⟩ := advancePurgeState_ok g t c b status h
  have hnext : g.Quiet { g with sidechains := g.sidechains.insert c (advance sc b) } :=
    .rewrite hf rfl (advance_core sc b) rfl rfl
  rcases ht with rfl | rfl
  · exact hnext
  · exact hnext.trans (detach_quiet _ c)

theorem triggerPurge_quiet (g t : ChainRegistry) (c : ChainId) (trigger : PurgeTrigger) (b : Nat) (u : Unit)
    (h : g.triggerPurge c trigger b = .ok (t, u)) : g.Quiet t := by
  apply withSidechain_quiet g t c _ u _ h
  intro sc sc' _ hr
  split at hr
  · cases hr
  · cases hr
    rfl

theorem autoPurgeV31_quiet (order : IterOrder ChainId) (g : ChainRegistry) (b : Nat) :
    g.Quiet (autoPurgeV31 order g b).1 :=
  autoPurgeV31_rel Quiet .refl (fun h h' => h.trans h') b (fun _ => .of_eq rfl rfl rfl)
    (fun g t c trigger u => triggerPurge_quiet g t c trigger b u)
    (fun g t c status => advancePurgeState_quiet g t c b status) order g

/-- Where all copies are in step, copying again changes nothing. -/
theorem dueValidators_of_inStep (g : ChainRegistry) (hg : g.InStep) (c : ChainId) (sc : SidechainInfo)
    (hf : g.sidechains.find? c = some sc) (v : Finset AccountId) (hd : g.dueValidators c sc = .ok v) :
    v = sc.validators := by
  unfold dueValidators at hd
  cases hm : sc.securityMode with
  | inherited =>
    cases hp : sc.parent.bind g.sidechains.find? with
    | none => simp [hm, hp] at hd
    | some pc =>
      simp only [hm, hp] at hd
      cases hd
      obtain ⟨p, hparent, hfp⟩ := Option.bind_eq_some_iff.mp hp
      exact (hg.inherited c sc p pc hf hm hparent hfp).symm
  | shared =>
    cases hh : (g.sidechainToHost.find? c).bind g.hostchains.find? with
    | none => simp [hm, hh] at hd
    | some host =>
      simp only [hm, hh] at hd
      cases hd
      obtain ⟨i, hi, hfh⟩ := Option.bind_eq_some_iff.mp hh
      exact (hg.shared c sc i host hf hm hi hfh).symm
  | sovereign =>
    simp only [hm] at hd
    cases hd
    rfl

theorem assignValidators_quiet (g t : ChainRegistry) (c : ChainId) (v : Finset AccountId) (hg : g.InStep)
    (h : g.assignValidators c = .ok (t, v)) : g.Quiet t := by
  obtain ⟨sc, sc', hf, hr, rfl⟩ := withSidechain_ok g t c _ v h
  cases hd : g.dueValidators c sc with
  | error e => simp [hd] at hr
  | ok v' =>
    simp only [hd] at hr
    cases hr
    obtain rfl := dueValidators_of_inStep g hg c sc hf v hd
    exact .rewrite hf rfl rfl rfl rfl

theorem reassign_quiet (l : List ChainId) (g : ChainRegistry) (hg : g.InStep) : g.Quiet (reassign l g).1 :=
  reassign_rel (fun g t => g.InStep → g.Quiet t) (fun g _ => .refl g)
    (fun h h' hr => (h hr).trans (h' ((h hr).inStep hr)))
    (fun g t c v ht h => assignValidators_quiet g t c v h ht) l g hg

/-! ## Joining a host -/

/-- In step, with every chain, host and parent stored. -/
def Sound (g : ChainRegistry) : Prop := g.Rooted ∧ g.InStep

theorem Sound.quiet {g t : ChainRegistry} (hg : g.Sound) (h : g.Quiet t) : t.Sound :=
  ⟨h.rooted hg.1, h.inStep hg.2⟩

theorem affiliateSidechain_sound (g t : ChainRegistry) (c h : ChainId) (hg : g.Sound)
    (hok : g.synced (.affiliateSidechain c h) = true) (ht : g.affiliateSidechain c h = .ok t) : t.Sound := by
  obtain ⟨host, hf, hc, hroom, hs, hl, hh⟩ := affiliateSidechain_ok g t c h ht
  obtain ⟨sc, hsc⟩ := Option.isSome_iff_exists.mp hc
  have hsame : ({ host with memberChains := insert c host.memberChains } : HostChainInfo).validatorPool =
      host.validatorPool := rfl
  have hpools := pools_insert hf hsame
  have hlink : ∀ i, i ≠ c → t.sidechainToHost.find? i = g.sidechainToHost.find? i := by
    intro i hi
    rw [hl, SortedMap.find?_insert_ne _ _ _ _ hi]
  have hself : t.sidechainToHost.find? c = some h := by
    rw [hl, SortedMap.find?_insert_self]
  refine ⟨⟨?_, ?_, ?_⟩, ⟨?_, ?_⟩⟩
  · intro i j hi
    rw [hs]
    by_cases hic : i = c
    · exact ⟨sc, hic ▸ hsc⟩
    · exact hg.1.chain i j (by rw [← hlink i hic]; exact hi)
  · intro i j hi
    have hstored : ∃ info, g.hostchains.find? j = some info := by
      by_cases hic : i = c
      · subst hic
        rw [hself] at hi
        exact ⟨host, Option.some.inj hi ▸ hf⟩
      · exact hg.1.host i j (by rw [← hlink i hic]; exact hi)
    obtain ⟨info, hinfo⟩ := hstored
    have hj := hpools j
    rw [← hh, hinfo] at hj
    obtain ⟨info', hinfo', -⟩ := Option.map_eq_some_iff.mp hj
    exact ⟨info', hinfo'⟩
  · rw [hs]
    exact hg.1.parent
  · rw [hs]
    exact hg.2.inherited
  · intro i r j info hr hm hi hinfo
    rw [hs] at hr
    have hj := hpools j
    rw [← hh, hinfo] at hj
    obtain ⟨info', hinfo', hpool⟩ := Option.map_eq_some_iff.mp hj.symm
    rw [← hpool]
    by_cases hic : i = c
    · subst hic
      rw [hsc] at hr
      obtain rfl := Option.some.inj hr
      rw [hself] at hi
      obtain rfl := Option.some.inj hi
      rw [hf] at hinfo'
      obtain rfl := Option.some.inj hinfo'
      -- the condition is about this chain
      simpa [synced, hsc, hm, hf, not_le.mpr hroom] using hok
    · exact hg.2.shared i r j info' hr hm (by rw [← hlink i hic]; exact hi) hinfo'

/-! ## New validators for one chain -/

/-- The registry with other validators for a stored chain. -/
def setValidators (g : ChainRegistry) (c : ChainId) (sc : SidechainInfo) (v : Finset AccountId) :
    ChainRegistry :=
  { g with sidechains := g.sidechains.insert c { sc with validators := v } }

/-- A record after the change, and the one it was. -/
theorem setValidators_find {g : ChainRegistry} {c : ChainId} {sc : SidechainInfo} {v : Finset AccountId}
    (hf : g.sidechains.find? c = some sc) {i : ChainId} {r : SidechainInfo}
    (hr : (g.setValidators c sc v).sidechains.find? i = some r) :
    ∃ r', g.sidechains.find? i = some r' ∧ r'.securityMode = r.securityMode ∧ r'.parent = r.parent ∧
      (i ≠ c ∧ r'.validators = r.validators ∨ i = c ∧ r.validators = v) := by
  unfold setValidators at hr
  by_cases hi : i = c
  · subst hi
    rw [SortedMap.find?_insert_self] at hr
    obtain rfl := Option.some.inj hr
    exact ⟨sc, hf, rfl, rfl, .inr ⟨rfl, rfl⟩⟩
  · rw [SortedMap.find?_insert_ne _ _ _ _ hi] at hr
    exact ⟨r, hr, rfl, rfl, .inl ⟨hi, rfl⟩⟩

theorem setValidators_stored (g : ChainRegistry) (c : ChainId) (sc : SidechainInfo) (v : Finset AccountId)
    {i : ChainId} (hi : ∃ r, g.sidechains.find? i = some r) :
    ∃ r, (g.setValidators c sc v).sidechains.find? i = some r := by
  unfold setValidators
  by_cases hic : i = c
  · exact ⟨_, by rw [hic, SortedMap.find?_insert_self]⟩
  · rw [SortedMap.find?_insert_ne _ _ _ _ hic]
    exact hi

theorem setValidators_rooted {g : ChainRegistry} {c : ChainId} {sc : SidechainInfo} {v : Finset AccountId}
    (hf : g.sidechains.find? c = some sc) (hg : g.Rooted) : (g.setValidators c sc v).Rooted where
  chain i j hi := setValidators_stored g c sc v (hg.chain i j hi)
  host := hg.host
  parent i r p hr hp := by
    obtain ⟨r', hr', -, hparent, -⟩ := setValidators_find hf hr
    exact setValidators_stored g c sc v (hg.parent i r' p hr' (hparent.trans hp))

theorem childless_iff (g : ChainRegistry) (c : ChainId) :
    g.childless c = true ↔
      ∀ i sc, g.sidechains.find? i = some sc → sc.securityMode = .inherited → sc.parent ≠ some c := by
  unfold childless
  rw [List.all_eq_true]
  constructor
  · intro h i sc hf hm
    have := h sc ((SortedMap.mem_values_iff _ _).mpr ⟨i, hf⟩)
    simpa [hm] using this
  · intro h sc hsc
    obtain ⟨i, hf⟩ := (SortedMap.mem_values_iff _ _).mp hsc
    by_cases hm : sc.securityMode = .inherited
    · simpa [hm] using h i sc hf hm
    · simp [hm]

/-- New validators for a sovereign chain from which none inherits. -/
theorem setValidators_sound {g : ChainRegistry} {c : ChainId} {sc : SidechainInfo} {v : Finset AccountId}
    (hg : g.Sound) (hf : g.sidechains.find? c = some sc) (hm : sc.securityMode = .sovereign)
    (hv : v = sc.validators ∨ g.childless c = true) : (g.setValidators c sc v).Sound := by
  rcases hv with rfl | hchild
  · exact hg.quiet (.rewrite hf rfl rfl rfl rfl)
  · rw [childless_iff] at hchild
    -- only the record of the chain itself is new, and it is no copy
    have hcopy : ∀ {i r}, (g.setValidators c sc v).sidechains.find? i = some r →
        r.securityMode ≠ .sovereign → ∃ r', g.sidechains.find? i = some r' ∧
          r'.securityMode = r.securityMode ∧ r'.parent = r.parent ∧ r'.validators = r.validators := by
      intro i r hr hmode
      obtain ⟨r', hr', hmode', hparent, ⟨-, hsame⟩ | ⟨rfl, -⟩⟩ := setValidators_find hf hr
      · exact ⟨r', hr', hmode', hparent, hsame⟩
      · rw [hf] at hr'
        obtain rfl := Option.some.inj hr'
        rw [hm] at hmode'
        exact absurd hmode'.symm hmode
    refine ⟨setValidators_rooted hf hg.1, ⟨?_, ?_⟩⟩
    · intro i r p pc hr hmode hp hpc
      obtain ⟨r', hr', hmode', hparent, hsame⟩ := hcopy hr (by simp [hmode])
      obtain ⟨pc', hpc', -, -, ⟨-, hpsame⟩ | ⟨rfl, -⟩⟩ := setValidators_find hf hpc
      · rw [← hsame, ← hpsame]
        exact hg.2.inherited i r' p pc' hr' (hmode'.trans hmode) (hparent.trans hp) hpc'
      · exact absurd (hparent.trans hp) (hchild i r' hr' (hmode'.trans hmode))
    · intro i r j host hr hmode hi hhost
      obtain ⟨r', hr', hmode', -, hsame⟩ := hcopy hr (by simp [hmode])
      rw [← hsame]
      exact hg.2.shared i r' j host hr' (hmode'.trans hmode) hi hhost

theorem addValidatorToChain_sound (g t : ChainRegistry) (c : ChainId) (v : AccountId) (u : Unit) (hg : g.Sound)
    (hok : g.synced (.addValidatorToChain c v) = true) (h : g.addValidatorToChain c v = .ok (t, u)) :
    t.Sound := by
  obtain ⟨sc, sc', hf, hr, rfl⟩ := withSidechain_ok g t c _ u h
  by_cases hm : sc.securityMode = .sovereign
  · rw [if_neg (not_not.mpr hm), SidechainInfo.addValidator] at hr
    by_cases hroom : maxValidatorsPerChain ≤ sc.validators.card
    · simp [hroom] at hr
    · rw [if_neg hroom] at hr
      cases hr
      refine setValidators_sound hg hf hm ?_
      by_cases hv : v ∈ sc.validators
      · exact .inl (Finset.insert_eq_of_mem hv)
      · exact .inr (by simpa [synced, hf, hm, hv, hroom] using hok)
  · simp [hm] at hr

theorem removeValidatorFromChain_sound (g t : ChainRegistry) (c : ChainId) (v : AccountId) (u : Unit)
    (hg : g.Sound) (hok : g.synced (.removeValidatorFromChain c v) = true)
    (h : g.removeValidatorFromChain c v = .ok (t, u)) : t.Sound := by
  obtain ⟨sc, sc', hf, hr, rfl⟩ := withSidechain_ok g t c _ u h
  by_cases hm : sc.securityMode = .sovereign
  · rw [if_neg (not_not.mpr hm), SidechainInfo.removeValidator] at hr
    by_cases hv : v ∈ sc.validators
    · rw [if_pos hv] at hr
      cases hr
      exact setValidators_sound hg hf hm (.inr (by simpa [synced, hf, hm, hv] using hok))
    · simp [hv] at hr
  · simp [hm] at hr

/-! ## New pools -/

/-- Within the loop that follows a change of a pool: the chains of the host that are still
to come may be behind. -/
structure Behind (h : ChainId) (l : List ChainId) (g : ChainRegistry) : Prop where
  rooted : g.Rooted
  inherited : ∀ c sc p pc, g.sidechains.find? c = some sc → sc.securityMode = .inherited →
    sc.parent = some p → g.sidechains.find? p = some pc → sc.validators = pc.validators
  shared : ∀ c sc i host, g.sidechains.find? c = some sc → sc.securityMode = .shared →
    g.sidechainToHost.find? c = some i → g.hostchains.find? i = some host →
    i = h ∧ c ∈ l ∨ sc.validators = host.validatorPool
  listed : ∀ c ∈ l, g.sidechainToHost.find? c = some h
  childless : ∀ c sc p, g.sidechains.find? c = some sc → sc.securityMode = .inherited → sc.parent = some p →
    g.isShare h p = false
  parented : ∀ c ∈ l, ∀ sc, g.sidechains.find? c = some sc → sc.securityMode = .inherited → sc.parent ≠ none

theorem setValidators_isShare {g : ChainRegistry} {c : ChainId} {sc : SidechainInfo} {v : Finset AccountId}
    (hf : g.sidechains.find? c = some sc) (h i : ChainId) :
    (g.setValidators c sc v).isShare h i = g.isShare h i := by
  unfold isShare setValidators
  by_cases hi : i = c
  · subst hi
    rw [SortedMap.find?_insert_self, hf]
    rfl
  · rw [SortedMap.find?_insert_ne _ _ _ _ hi]

/-- One chain of the host is given the validators it is due. -/
theorem Behind.assign {h c : ChainId} {l : List ChainId} {g : ChainRegistry} {sc : SidechainInfo}
    {v : Finset AccountId} (hb : Behind h (c :: l) g) (hf : g.sidechains.find? c = some sc)
    (hshare : sc.securityMode = .shared → ∀ host, g.hostchains.find? h = some host → v = host.validatorPool)
    (hother : sc.securityMode ≠ .shared → v = sc.validators) : Behind h l (g.setValidators c sc v) where
  rooted := setValidators_rooted hf hb.rooted
  inherited i r p pc hr hm hp hpc := by
    obtain ⟨r', hr', hmode, hparent, hv⟩ := setValidators_find hf hr
    obtain ⟨pc', hpc', hpmode, -, hpv⟩ := setValidators_find hf hpc
    have hsame : r'.validators = r.validators := by
      rcases hv with ⟨-, hv⟩ | ⟨rfl, hv⟩
      · exact hv
      · rw [hf] at hr'
        obtain rfl := Option.some.inj hr'
        rw [hv, hother (by rw [hmode, hm]; decide)]
    have hpsame : pc'.validators = pc.validators := by
      rcases hpv with ⟨-, hpv⟩ | ⟨rfl, hpv⟩
      · exact hpv
      · rw [hf] at hpc'
        obtain rfl := Option.some.inj hpc'
        -- a parent that follows the pool is excluded
        have hnot := hb.childless i r' p hr' (hmode.trans hm) (hparent.trans hp)
        have hlisted := hb.listed p List.mem_cons_self
        rw [hpv, hother]
        intro hs
        simp [isShare, hlisted, hf, hs] at hnot
    rw [← hsame, ← hpsame]
    exact hb.inherited i r' p pc' hr' (hmode.trans hm) (hparent.trans hp) hpc'
  shared i r j host hr hm hi hhost := by
    obtain ⟨r', hr', hmode, -, hv⟩ := setValidators_find hf hr
    rcases hv with ⟨hic, hv⟩ | ⟨rfl, hv⟩
    · rcases hb.shared i r' j host hr' (hmode.trans hm) hi hhost with ⟨hj, hmem⟩ | hsame
      · exact .inl ⟨hj, (List.mem_cons.mp hmem).resolve_left hic⟩
      · exact .inr (hv ▸ hsame)
    · rw [hf] at hr'
      obtain rfl := Option.some.inj hr'
      have hi' : g.sidechainToHost.find? i = some j := hi
      rw [hb.listed i List.mem_cons_self] at hi'
      obtain rfl := Option.some.inj hi'
      exact .inr (by rw [hv]; exact hshare (hmode.trans hm) host hhost)
  listed i hi := hb.listed i (List.mem_cons_of_mem _ hi)
  childless i r p hr hm hp := by
    obtain ⟨r', hr', hmode, hparent, -⟩ := setValidators_find hf hr
    rw [setValidators_isShare hf]
    exact hb.childless i r' p hr' (hmode.trans hm) (hparent.trans hp)
  parented i hi r hr hm := by
    obtain ⟨r', hr', hmode, hparent, -⟩ := setValidators_find hf hr
    rw [← hparent]
    exact hb.parented i (List.mem_cons_of_mem _ hi) r' hr' (hmode.trans hm)

/-- The next chain of the host can be given its validators. -/
theorem Behind.next {h c : ChainId} {l : List ChainId} {g : ChainRegistry} (hb : Behind h (c :: l) g) :
    ∃ t v, g.assignValidators c = .ok (t, v) ∧ Behind h l t := by
  have hlisted := hb.listed c List.mem_cons_self
  obtain ⟨sc, hf⟩ := hb.rooted.chain c h hlisted
  obtain ⟨host, hhost⟩ := hb.rooted.host c h hlisted
  cases hm : sc.securityMode with
  | inherited =>
    obtain ⟨p, hp⟩ := Option.ne_none_iff_exists'.mp (hb.parented c List.mem_cons_self sc hf hm)
    obtain ⟨pc, hpc⟩ := hb.rooted.parent c sc p hf hp
    have hdue : g.dueValidators c sc = .ok pc.validators := by simp [dueValidators, hm, hp, hpc]
    refine ⟨_, _, assignValidators_of_due g c sc _ hf hdue, hb.assign hf ?_ ?_⟩
    · intro hs
      rw [hm] at hs
      cases hs
    · intro _
      exact (hb.inherited c sc p pc hf hm hp hpc).symm
  | shared =>
    have hdue : g.dueValidators c sc = .ok host.validatorPool := by simp [dueValidators, hm, hlisted, hhost]
    refine ⟨_, _, assignValidators_of_due g c sc _ hf hdue, hb.assign hf ?_ ?_⟩
    · intro _ host' hhost'
      rw [hhost] at hhost'
      obtain rfl := Option.some.inj hhost'
      rfl
    · intro hs
      exact absurd hm hs
  | sovereign =>
    have hdue : g.dueValidators c sc = .ok sc.validators := by simp [dueValidators, hm]
    refine ⟨_, _, assignValidators_of_due g c sc _ hf hdue, hb.assign hf ?_ fun _ => rfl⟩
    intro hs
    rw [hm] at hs
    cases hs

/-- **Loop lemma.**  Induction on the chains still to come, which `Behind` leaves out. -/
theorem reassign_sound (h : ChainId) (l : List ChainId) (g : ChainRegistry) (hb : Behind h l g) :
    (reassign l g).1.Sound := by
  induction l generalizing g with
  | nil =>
    refine ⟨hb.rooted, hb.inherited, ?_⟩
    intro c sc i host hf hm hi hhost
    rcases hb.shared c sc i host hf hm hi hhost with ⟨-, hmem⟩ | hsame
    · cases hmem
    · exact hsame
  | cons c l ih =>
    obtain ⟨t, v, ht, hnext⟩ := hb.next
    unfold reassign
    rw [ht]
    exact ih t hnext

/-- After the pool of a host has changed and before the loop. -/
theorem behind_of_poolReady (g : ChainRegistry) (h : ChainId) (host host' : HostChainInfo)
    (l : List ChainId) (hg : g.Sound) (hf : g.hostchains.find? h = some host)
    (hl : ∀ c, c ∈ l ↔ g.sidechainToHost.find? c = some h)
    (hready : (g.sidechains.filter fun c sc => decide (sc.securityMode = .inherited) &&
      ((sc.parent.any fun p => g.isShare h p) ||
        decide (sc.parent = none) && decide (g.sidechainToHost.find? c = some h))).keys.isEmpty = true) :
    Behind h l { g with hostchains := g.hostchains.insert h host' } where
  rooted := by
    refine ⟨hg.1.chain, ?_, hg.1.parent⟩
    intro c i hc
    by_cases hi : i = h
    · exact ⟨host', by rw [hi, SortedMap.find?_insert_self]⟩
    · obtain ⟨info, hinfo⟩ := hg.1.host c i hc
      exact ⟨info, by rw [SortedMap.find?_insert_ne _ _ _ _ hi]; exact hinfo⟩
  inherited := hg.2.inherited
  shared c sc i info hc hm hi hinfo := by
    by_cases hih : i = h
    · subst hih
      exact .inl ⟨rfl, (hl c).mpr hi⟩
    · rw [SortedMap.find?_insert_ne _ _ _ _ hih] at hinfo
      exact .inr (hg.2.shared c sc i info hc hm hi hinfo)
  listed c hc := (hl c).mp hc
  childless c sc p hc hm hp := by
    have hnot := (SortedMap.keys_filter_isEmpty_iff _ _).mp hready c sc hc
    simp only [hm, hp, decide_true, Bool.true_and, Option.any_some, Bool.or_eq_false_iff] at hnot
    exact hnot.1
  parented c hc sc hf' hm hnone := by
    have hnot := (SortedMap.keys_filter_isEmpty_iff _ _).mp hready c sc hf'
    simp [hm, hnone, (hl c).mp hc] at hnot

/-- A pool without shared chains may change. -/
theorem sound_of_no_share (g : ChainRegistry) (h : ChainId) (host' : HostChainInfo) (hg : g.Sound)
    (hnone : (g.sidechains.filter fun c _ => g.isShare h c).keys.isEmpty = true) :
    Sound { g with hostchains := g.hostchains.insert h host' } := by
  refine ⟨⟨hg.1.chain, ?_, hg.1.parent⟩, ⟨hg.2.inherited, ?_⟩⟩
  · intro c i hc
    by_cases hi : i = h
    · exact ⟨host', by rw [hi, SortedMap.find?_insert_self]⟩
    · obtain ⟨info, hinfo⟩ := hg.1.host c i hc
      exact ⟨info, by rw [SortedMap.find?_insert_ne _ _ _ _ hi]; exact hinfo⟩
  · intro c sc i info hc hm hi hinfo
    by_cases hih : i = h
    · subst hih
      have hnot := (SortedMap.keys_filter_isEmpty_iff _ _).mp hnone c sc hc
      have hi' : g.sidechainToHost.find? c = some i := hi
      have hc' : g.sidechains.find? c = some sc := hc
      simp [isShare, hi', hc', hm] at hnot
    · rw [SortedMap.find?_insert_ne _ _ _ _ hih] at hinfo
      exact hg.2.shared c sc i info hc hm hi hinfo

theorem changePool_sound (order : IterOrder ChainId) (g : ChainRegistry) (h : ChainId)
    (f : HostChainInfo → Except ChainTypeError HostChainInfo) (hg : g.Sound)
    (hok : ∀ host host', g.hostchains.find? h = some host → f host = .ok host' →
      host'.validatorPool = host.validatorPool ∨ g.poolReady h = true) :
    (changePool order g h f).1.Sound := by
  unfold changePool
  cases hf : g.hostchains.find? h with
  | none => exact hg
  | some host =>
    simp only
    cases hr : f host with
    | error e => exact hg
    | ok host' =>
      simp only
      rcases hok host host' hf hr with hsame | hready
      · have hquiet : g.Quiet { g with hostchains := g.hostchains.insert h host' } :=
          ⟨fun _ => rfl, fun _ _ hc => hc, pools_insert hf hsame⟩
        have hsound := hg.quiet hquiet
        exact hsound.quiet (reassign_quiet _ _ hsound.2)
      · unfold poolReady at hready
        rw [Bool.or_eq_true] at hready
        rcases hready with hnone | hready
        · have hsound := sound_of_no_share g h host' hg hnone
          exact hsound.quiet (reassign_quiet _ _ hsound.2)
        · refine reassign_sound h _ _ (behind_of_poolReady g h host host' _ hg hf ?_ hready)
          intro c
          rw [IterOrder.mem_iter, SortedMap.mem_keys_filter_iff]
          simp

theorem addValidatorToHostchain_sound (order : IterOrder ChainId) (g : ChainRegistry) (h : ChainId)
    (v : AccountId) (hg : g.Sound) (hok : g.synced (.addValidatorToHostchain order h v) = true) :
    (addValidatorToHostchain order g h v).1.Sound := by
  refine changePool_sound order g h _ hg ?_
  intro host host' hf hr
  unfold HostChainInfo.addValidator at hr
  by_cases hroom : maxValidatorsPerHost ≤ host.validatorPool.card
  · simp [hroom] at hr
  · rw [if_neg hroom] at hr
    cases hr
    by_cases hv : v ∈ host.validatorPool
    · exact .inl (Finset.insert_eq_of_mem hv)
    · exact .inr (by simpa [synced, hf, hv, hroom] using hok)

theorem removeValidatorFromHostchain_sound (order : IterOrder ChainId) (g : ChainRegistry) (h : ChainId)
    (v : AccountId) (hg : g.Sound) (hok : g.synced (.removeValidatorFromHostchain order h v) = true) :
    (removeValidatorFromHostchain order g h v).1.Sound := by
  refine changePool_sound order g h _ hg ?_
  intro host host' hf hr
  unfold HostChainInfo.removeValidator at hr
  by_cases hv : v ∈ host.validatorPool
  · exact .inr (by simpa [synced, hf, hv] using hok)
  · simp [hv] at hr

/-! ## Creation -/

/-- A new chain whose validators are the ones it is due. -/
theorem sound_of_new (g t : ChainRegistry) (c : ChainId) (sc : SidechainInfo) (hg : g.Sound)
    (hfresh : g.sidechains.find? c = none) (hnew : t.sidechains.find? c = some sc)
    (hold : ∀ i, i ≠ c → t.sidechains.find? i = g.sidechains.find? i)
    (hlink : ∀ i, i ≠ c → t.sidechainToHost.find? i = g.sidechainToHost.find? i)
    (hpools : ∀ i, (t.hostchains.find? i).map HostChainInfo.validatorPool =
      (g.hostchains.find? i).map HostChainInfo.validatorPool)
    (hparent : ∀ p, sc.parent = some p → ∃ pc, g.sidechains.find? p = some pc ∧
      (sc.securityMode = .inherited → sc.validators = pc.validators))
    (hhost : ∀ h, t.sidechainToHost.find? c = some h → ∃ host, g.hostchains.find? h = some host ∧
      (sc.securityMode = .shared → sc.validators = host.validatorPool)) : t.Sound := by
  have hne : ∀ i r, g.sidechains.find? i = some r → i ≠ c := by
    rintro i r hi rfl
    rw [hfresh] at hi
    cases hi
  have hkept : ∀ i r, g.sidechains.find? i = some r → t.sidechains.find? i = some r := by
    intro i r hi
    rw [hold i (hne i r hi)]
    exact hi
  have hpool : ∀ h host, g.hostchains.find? h = some host →
      ∃ host', t.hostchains.find? h = some host' ∧ host'.validatorPool = host.validatorPool := by
    intro h host hf
    have hp := hpools h
    rw [hf] at hp
    exact Option.map_eq_some_iff.mp hp
  refine ⟨⟨?_, ?_, ?_⟩, ⟨?_, ?_⟩⟩
  · intro i h hi
    by_cases hic : i = c
    · exact ⟨sc, hic ▸ hnew⟩
    · obtain ⟨r, hr⟩ := hg.1.chain i h (by rw [← hlink i hic]; exact hi)
      exact ⟨r, hkept i r hr⟩
  · intro i h hi
    have hstored : ∃ host, g.hostchains.find? h = some host := by
      by_cases hic : i = c
      · subst hic
        obtain ⟨host, hf, -⟩ := hhost h hi
        exact ⟨host, hf⟩
      · exact hg.1.host i h (by rw [← hlink i hic]; exact hi)
    obtain ⟨host, hf⟩ := hstored
    obtain ⟨host', hf', -⟩ := hpool h host hf
    exact ⟨host', hf'⟩
  · intro i r p hr hp
    by_cases hic : i = c
    · subst hic
      rw [hnew] at hr
      obtain rfl := Option.some.inj hr
      obtain ⟨pc, hpc, -⟩ := hparent p hp
      exact ⟨pc, hkept p pc hpc⟩
    · rw [hold i hic] at hr
      obtain ⟨pc, hpc⟩ := hg.1.parent i r p hr hp
      exact ⟨pc, hkept p pc hpc⟩
  · intro i r p pc hr hm hp hpc
    by_cases hic : i = c
    · subst hic
      rw [hnew] at hr
      obtain rfl := Option.some.inj hr
      obtain ⟨pc', hpc', hsame⟩ := hparent p hp
      rw [hkept p pc' hpc'] at hpc
      obtain rfl := Option.some.inj hpc
      exact hsame hm
    · rw [hold i hic] at hr
      obtain ⟨pc', hpc'⟩ := hg.1.parent i r p hr hp
      rw [hkept p pc' hpc'] at hpc
      obtain rfl := Option.some.inj hpc
      exact hg.2.inherited i r p pc' hr hm hp hpc'
  · intro i r h host hr hm hi hf
    have hp := hpools h
    rw [hf] at hp
    obtain ⟨host', hf', hsame⟩ := Option.map_eq_some_iff.mp hp.symm
    rw [← hsame]
    by_cases hic : i = c
    · subst hic
      rw [hnew] at hr
      obtain rfl := Option.some.inj hr
      obtain ⟨host'', hf'', hdue⟩ := hhost h hi
      rw [hf'] at hf''
      obtain rfl := Option.some.inj hf''
      exact hdue hm
    · rw [hold i hic] at hr
      exact hg.2.shared i r h host' hr hm (by rw [← hlink i hic]; exact hi) hf'

/-- A new chain has no host before it joins one. -/
theorem Sound.fresh_host {g : ChainRegistry} (hg : g.Sound) {c : ChainId} (hfresh : g.sidechains.find? c = none)
    (h : ChainId) : g.sidechainToHost.find? c ≠ some h := by
  intro hc
  obtain ⟨sc, hf⟩ := hg.1.chain c h hc
  rw [hfresh] at hf
  cases hf

theorem giveNew_find_ne (g : ChainRegistry) (sc : SidechainInfo) (v : Finset AccountId) (i : ChainId)
    (hi : i ≠ sc.id) : (g.giveNew sc v).sidechains.find? i = g.sidechains.find? i :=
  SortedMap.find?_insert_ne _ _ _ _ hi

section Creation

variable (g : ChainRegistry) (owner : AccountId) (name description : Option String) (parent : Option ChainId)
  (m : SecurityMode) (host : Option ChainId) (deposit : Balance) (b : Nat)

/-- A stored chain that copies nothing. -/
theorem storeNew_sound (hg : g.Sound) (hfresh : g.sidechains.find? ⟨g.nextChainId⟩ = none)
    (hparent : ∀ p, parent = some p → m ≠ .inherited ∧ g.sidechains.contains p = true) :
    (g.storeNew owner name description parent m deposit b).Sound := by
  refine sound_of_new g _ _ _ hg hfresh (storeNew_find g owner name description parent m deposit b) ?_
    (fun _ _ => rfl) (fun _ => rfl) ?_ ?_
  · intro i hi
    exact SortedMap.find?_insert_ne _ _ _ _ hi
  · intro p hp
    obtain ⟨hm, hstored⟩ := hparent p hp
    obtain ⟨pc, hpc⟩ := Option.isSome_iff_exists.mp hstored
    exact ⟨pc, hpc, fun h => absurd h hm⟩
  · intro h hh
    exact absurd hh (hg.fresh_host hfresh h)

theorem settle_inherited_sound (hg : g.Sound) (hfresh : g.sidechains.find? ⟨g.nextChainId⟩ = none) (p : ChainId)
    (pc : SidechainInfo) (hp : g.sidechains.contains p = true)
    (hpc : (g.storeNew owner name description (some p) .inherited deposit b).sidechains.find? p = some pc) :
    ((g.storeNew owner name description (some p) .inherited deposit b).giveNew
      (SidechainInfo.new ⟨g.nextChainId⟩ (some p) owner name description .inherited deposit b)
      pc.validators).Sound := by
  have hne : p ≠ ⟨g.nextChainId⟩ := by
    rintro rfl
    rw [SortedMap.contains, hfresh] at hp
    cases hp
  have hpg : g.sidechains.find? p = some pc := by
    rw [← SortedMap.find?_insert_ne g.sidechains _ _ _ hne]
    exact hpc
  refine sound_of_new g _ ⟨g.nextChainId⟩ _ hg hfresh (SortedMap.find?_insert_self _ _ _) ?_ (fun _ _ => rfl)
    (fun _ => rfl) ?_ ?_
  · intro i hi
    rw [giveNew_find_ne _ _ _ i hi]
    exact SortedMap.find?_insert_ne _ _ _ _ hi
  · intro q hq
    obtain rfl : p = q := Option.some.inj hq
    exact ⟨pc, hpg, fun _ => rfl⟩
  · intro h hh
    exact absurd hh (hg.fresh_host hfresh h)

theorem settle_shared_sound (hg : g.Sound) (hfresh : g.sidechains.find? ⟨g.nextChainId⟩ = none) (i : ChainId)
    (info : HostChainInfo) (hf : g.hostchains.find? i = some info) (t : ChainRegistry)
    (ht : (g.storeNew owner name description parent .shared deposit b).affiliateSidechain ⟨g.nextChainId⟩ i =
      .ok t)
    (hparent : ∀ p, parent = some p → g.sidechains.contains p = true) :
    (t.giveNew (SidechainInfo.new ⟨g.nextChainId⟩ parent owner name description .shared deposit b)
      info.validatorPool).Sound := by
  obtain ⟨info', hf', -, -, hside, hl, hh⟩ := affiliateSidechain_ok _ t _ i ht
  obtain rfl : info = info' := Option.some.inj (hf.symm.trans hf')
  refine sound_of_new g _ ⟨g.nextChainId⟩ _ hg hfresh (SortedMap.find?_insert_self _ _ _) ?_ ?_ ?_ ?_ ?_
  · intro j hj
    rw [giveNew_find_ne _ _ _ j hj, hside]
    exact SortedMap.find?_insert_ne _ _ _ _ hj
  · intro j hj
    show t.sidechainToHost.find? j = _
    rw [hl, SortedMap.find?_insert_ne _ _ _ _ hj]
    rfl
  · intro j
    show (t.hostchains.find? j).map HostChainInfo.validatorPool = _
    rw [hh]
    apply pools_insert hf
    rfl
  · intro p hp
    obtain ⟨pc, hpc⟩ := Option.isSome_iff_exists.mp (hparent p hp)
    exact ⟨pc, hpc, fun h => by cases h⟩
  · intro h hh'
    have hi : t.sidechainToHost.find? ⟨g.nextChainId⟩ = some h := hh'
    rw [hl, SortedMap.find?_insert_self] at hi
    obtain rfl := Option.some.inj hi
    exact ⟨info, hf, fun _ => rfl⟩

theorem createSidechain_sound (hg : g.Sound)
    (hok : g.synced (.createSidechain owner name description parent m host deposit b) = true) :
    (g.createSidechain owner name description parent m host deposit b).1.Sound := by
  cases hacc : g.accepts parent m host deposit with
  | false =>
    obtain ⟨e, he⟩ := createSidechain_rejected g owner name description parent m host deposit b hacc
    rw [he]
    exact hg
  | true =>
    have hfresh : g.sidechains.find? ⟨g.nextChainId⟩ = none := by
      simpa [synced, hacc, SortedMap.contains] using hok
    have hstored := accepts_parent g parent m host deposit hacc
    rw [createSidechain_accepted g owner name description parent m host deposit b hacc]
    cases m with
    | inherited =>
      cases parent with
      | none =>
        rw [settle_orphan]
        refine storeNew_sound g owner name description none .inherited deposit b hg hfresh ?_
        intro p hp
        cases hp
      | some p =>
        obtain ⟨pc, hpc, hu⟩ := settle_inherited g owner name description host deposit b p (hstored p rfl)
        rw [hu]
        exact settle_inherited_sound g owner name description deposit b hg hfresh p pc (hstored p rfl) hpc
    | shared =>
      obtain ⟨i, info, rfl, hf⟩ := accepts_host g parent host deposit hacc
      by_cases hroom : (g.membersOf i).card < maxMembersPerHost
      · obtain ⟨t, ht, hu⟩ := settle_shared g owner name description parent deposit b i info hf hroom
        rw [hu]
        exact settle_shared_sound g owner name description parent deposit b hg hfresh i info hf t ht hstored
      · obtain ⟨e, he⟩ := settle_full g owner name description parent deposit b i (not_lt.mp hroom)
        rw [he]
        exact storeNew_sound g owner name description parent .shared deposit b hg hfresh
          fun p hp => ⟨by decide, hstored p hp⟩
    | sovereign =>
      exact storeNew_sound g owner name description parent .sovereign deposit b hg hfresh
        fun p hp => ⟨by decide, hstored p hp⟩

end Creation

theorem createHostchain_sound (g : ChainRegistry) (creator : AccountId) (b : Nat) (hg : g.Sound)
    (hok : g.synced (.createHostchain creator b) = true) : (g.createHostchain creator b).1.Sound := by
  have hfresh : g.hostchains.find? ⟨g.nextChainId⟩ = none := by
    simpa [synced, SortedMap.contains] using hok
  have hne : ∀ h host, g.hostchains.find? h = some host → h ≠ ⟨g.nextChainId⟩ := by
    rintro h host hf rfl
    rw [hfresh] at hf
    cases hf
  unfold createHostchain
  refine ⟨⟨hg.1.chain, ?_, hg.1.parent⟩, ⟨hg.2.inherited, ?_⟩⟩
  · intro c h hc
    obtain ⟨host, hf⟩ := hg.1.host c h hc
    exact ⟨host, by rw [SortedMap.find?_insert_ne _ _ _ _ (hne h host hf)]; exact hf⟩
  · intro c sc h host hc hm hh hf
    obtain ⟨host', hf'⟩ := hg.1.host c h hh
    rw [SortedMap.find?_insert_ne _ _ _ _ (hne h host' hf')] at hf
    exact hg.2.shared c sc h host hc hm hh hf

/-! ## Runs -/

theorem Sound.orKeep {α : Type} {g : ChainRegistry} (hg : g.Sound) (r : Except ChainError (ChainRegistry × α))
    (h : ∀ t a, r = .ok (t, a) → t.Sound) : ((r.map Prod.fst).orKeep g).Sound :=
  Except.orKeep_map_of Sound r g hg h

/-- **Step lemma.** -/
theorem apply_sound (cr : Crypto) (g : ChainRegistry) (op : RegistryOp) (hg : g.Sound)
    (hok : g.synced op = true) : (g.apply cr op).Sound := by
  cases op with
  | createSidechain owner name description parent m host deposit b =>
    exact createSidechain_sound g owner name description parent m host deposit b hg hok
  | createHostchain creator b => exact createHostchain_sound g creator b hg hok
  | affiliateSidechain c h =>
    apply Except.orKeep_of Sound _ g hg
    intro t ht
    exact affiliateSidechain_sound g t c h hg hok ht
  | leaveHost c => exact hg.quiet (leaveHost_quiet g c)
  | assignValidators c => exact hg.orKeep _ fun t v ht => hg.quiet (assignValidators_quiet g t c v hg.2 ht)
  | addValidatorToChain c v => exact hg.orKeep _ fun t u ht => addValidatorToChain_sound g t c v u hg hok ht
  | removeValidatorFromChain c v =>
    exact hg.orKeep _ fun t u ht => removeValidatorFromChain_sound g t c v u hg hok ht
  | addValidatorToHostchain order h v => exact addValidatorToHostchain_sound order g h v hg hok
  | removeValidatorFromHostchain order h v => exact removeValidatorFromHostchain_sound order g h v hg hok
  | reportStateDivergence c b reporter =>
    refine hg.quiet (withSidechain_orKeep_quiet g c _ ?_)
    intro sc sc' _ hr
    simp only at hr
    split at hr
    · cases hr
    · cases hr
      rfl
  | setSnapshotStateRoot c root =>
    refine hg.quiet (withSidechain_orKeep_quiet g c _ ?_)
    intro sc sc' _ hr
    split at hr
    · cases hr
    · cases hr
      rfl
  | purgeSidechain c b => exact hg.orKeep _ fun t d ht => hg.quiet (purgeSidechain_quiet g t c b d ht)
  | autoPurgeInactive order b => exact hg.quiet (autoPurgeInactive_quiet order g b)
  | triggerPurge c trigger b =>
    exact hg.orKeep _ fun t u ht => hg.quiet (triggerPurge_quiet g t c trigger b u ht)
  | advancePurgeState c b =>
    exact hg.orKeep _ fun t status ht => hg.quiet (advancePurgeState_quiet g t c b status ht)
  | autoPurgeV31 order b => exact hg.quiet (autoPurgeV31_quiet order g b)
  | withdrawFromPurgedChain c a =>
    refine hg.quiet (withSidechain_orKeep_quiet g c _ ?_)
    intro sc sc' r hr
    split at hr
    · cases hr
    split at hr
    · cases hr
    split at hr
    · cases hr
    cases hr
    rfl
  | withdrawWithProof c a balance proof =>
    refine hg.quiet (withSidechain_orKeep_quiet g c _ ?_)
    intro sc sc' r hr
    split at hr
    · cases hr
    split at hr
    · cases hr
    split at hr
    · cases hr
    split at hr
    · cases hr
    cases hr
    rfl
  | emergencyExit c a balance proof =>
    refine hg.quiet (withSidechain_orKeep_quiet g c _ ?_)
    intro sc sc' r hr
    split at hr
    · cases hr
    simp only at hr
    split at hr
    all_goals
      cases hr
      rfl
  | _ =>
    refine hg.quiet (withSidechain_orKeep_quiet g _ _ ?_)
    intro sc sc' _ hr
    cases hr
    rfl

theorem new_sound : new.Sound := by
  refine ⟨⟨?_, ?_, ?_⟩, ⟨?_, ?_⟩⟩
  · intro c h hc
    cases hc
  · intro c h hc
    cases hc
  · intro c sc p hc
    cases hc
  · intro c sc p pc hc
    cases hc
  · intro c sc h host hc
    cases hc

/-- In every state of a run of synced calls all copies are in step. -/
theorem in_step (cr : Crypto) (ops : List RegistryOp)
    (h : Run.Meets (apply cr) (fun g op => g.synced op = true) .new ops) (k : Nat) :
    (after cr (ops.take k)).InStep :=
  (Run.inv_foldl (apply cr) _ Sound (fun g op hg hok => apply_sound cr g op hg hok) .new (ops.take k) new_sound
    (Run.meets_take _ _ _ ops h k)).2

/-- A shared chain of host 1 follows the pool, and a child of a sovereign one its parent. -/
def sampleFamily : List RegistryOp :=
  [RegistryOp.createHostchain ⟨9⟩ 0, RegistryOp.addValidatorToHostchain .stored ⟨1⟩ ⟨5⟩,
    RegistryOp.createSidechain ⟨1⟩ none none none .shared (some ⟨1⟩) 0 0,
    RegistryOp.addValidatorToHostchain .stored ⟨1⟩ ⟨6⟩,
    RegistryOp.createSidechain ⟨1⟩ none none none .sovereign none 10000 0,
    RegistryOp.addValidatorToChain ⟨3⟩ ⟨7⟩,
    RegistryOp.createSidechain ⟨2⟩ none none (some ⟨3⟩) .inherited none 1000 0]

theorem in_step_sample :
    Run.Meets (apply Crypto.sample) (fun g op => g.synced op = true) .new sampleFamily ∧
      (after Crypto.sample (sampleFamily.take 7)).InStep := by
  have hm : Run.Meets (apply Crypto.sample) (fun g op => g.synced op = true) .new sampleFamily := by
    decide
  exact ⟨hm, in_step Crypto.sample sampleFamily hm 7⟩

/-- A parent gets a validator after its child was created. -/
def sampleLateValidator : List RegistryOp :=
  [RegistryOp.createSidechain ⟨1⟩ none none none .sovereign none 10000 0,
    RegistryOp.createSidechain ⟨2⟩ none none (some ⟨1⟩) .inherited none 1000 0,
    RegistryOp.addValidatorToChain ⟨1⟩ ⟨7⟩]

/-- A shared chain moves from host 1 to host 2. -/
def sampleMoved : List RegistryOp :=
  [RegistryOp.createHostchain ⟨9⟩ 0, RegistryOp.createHostchain ⟨9⟩ 0,
    RegistryOp.addValidatorToHostchain .stored ⟨1⟩ ⟨5⟩, RegistryOp.addValidatorToHostchain .stored ⟨2⟩ ⟨6⟩,
    RegistryOp.createSidechain ⟨1⟩ none none none .shared (some ⟨1⟩) 0 0, RegistryOp.leaveHost ⟨3⟩,
    RegistryOp.affiliateSidechain ⟨3⟩ ⟨2⟩]

/-- The first with an inherited chain, the second with a shared one. -/
theorem copies_left_behind :
    ¬ (after Crypto.sample sampleLateValidator).InStep ∧ ¬ (after Crypto.sample sampleMoved).InStep := by
  have hchild : ∃ sc pc, (after Crypto.sample sampleLateValidator).sidechains.find? ⟨2⟩ = some sc ∧
      (after Crypto.sample sampleLateValidator).sidechains.find? ⟨1⟩ = some pc ∧
      sc.securityMode = .inherited ∧ sc.parent = some ⟨1⟩ ∧ sc.validators ≠ pc.validators := by
    refine ⟨_, _, rfl, rfl, ?_⟩
    decide
  have hshare : ∃ sc host, (after Crypto.sample sampleMoved).sidechains.find? ⟨3⟩ = some sc ∧
      (after Crypto.sample sampleMoved).hostchains.find? ⟨2⟩ = some host ∧
      (after Crypto.sample sampleMoved).sidechainToHost.find? ⟨3⟩ = some ⟨2⟩ ∧
      sc.securityMode = .shared ∧ sc.validators ≠ host.validatorPool := by
    refine ⟨_, _, rfl, rfl, ?_⟩
    decide
  constructor
  · intro h
    obtain ⟨sc, pc, hf, hp, hm, hparent, hne⟩ := hchild
    exact hne (h.inherited _ sc _ pc hf hm hparent hp)
  · intro h
    obtain ⟨sc, host, hf, hh, hl, hm, hne⟩ := hshare
    exact hne (h.shared _ sc _ host hf hm hl hh)

end ChainRegistry

end Kratos
