import Kratos.Contracts.Sidechains
import Kratos.Lib.Linked

/-!
# Affiliation of chains with hosts

The registry keeps the host of each chain and the members of each host.  The two
agree as long as no chain joins a second host and no id is used twice; a creation
that fails changes nothing as long as it does not fail after the chain is stored.
`coherent` says so for one call, and a run keeps to both exactly if all its calls are
coherent (`affiliated_iff`).
-/

namespace Kratos

namespace ChainRegistry

def membersOf (g : ChainRegistry) (h : ChainId) : Finset ChainId :=
  (g.hostchains.find? h).elim ∅ HostChainInfo.memberChains

/-- The two directions agree and no host has too many members. -/
structure Affiliated (g : ChainRegistry) : Prop where
  linked : Linked g.sidechainToHost.find? g.membersOf
  bounded : ∀ h, (g.membersOf h).card ≤ maxMembersPerHost

/-- A creation that fails changes nothing. -/
def Atomic (g : ChainRegistry) : RegistryOp → Prop
  | .createSidechain owner name description parent securityMode hostId deposit block =>
    ∀ e, (g.createSidechain owner name description parent securityMode hostId deposit block).2 = .error e →
      (g.createSidechain owner name description parent securityMode hostId deposit block).1 = g
  | _ => True

/-- What the calls leave unchecked.  A chain that joins a host has no other; a new host
takes no id of a host with members; and a creation that passes its checks does not fail
later, for want of a parent or of room at the host. -/
def coherent (g : ChainRegistry) : RegistryOp → Bool
  | .affiliateSidechain sidechainId hostId =>
    !g.sidechains.contains sidechainId ||
      (g.hostchains.find? hostId).all fun host =>
        decide (maxMembersPerHost ≤ host.memberChains.card) ||
          (g.sidechainToHost.find? sidechainId).all fun h => decide (h = hostId)
  | .createHostchain _ _ => decide (g.membersOf ⟨g.nextChainId⟩ = ∅)
  | .createSidechain _ _ _ parent securityMode hostId deposit _ =>
    !g.accepts parent securityMode hostId deposit ||
      match securityMode with
      | .inherited => parent.isSome
      | .shared =>
        hostId.all fun host =>
          decide ((g.membersOf host).card < maxMembersPerHost) &&
            (g.sidechainToHost.find? ⟨g.nextChainId⟩).all fun h => decide (h = host)
      | .sovereign => true
  | _ => true

/-! ## Links -/

/-- Neither direction has changed. -/
def SameLinks (g t : ChainRegistry) : Prop :=
  t.sidechainToHost = g.sidechainToHost ∧ t.membersOf = g.membersOf

namespace SameLinks

theorem of_eq {g t : ChainRegistry} (hs : t.sidechainToHost = g.sidechainToHost)
    (hh : t.hostchains = g.hostchains) : g.SameLinks t :=
  ⟨hs, by unfold membersOf; rw [hh]⟩

theorem refl (g : ChainRegistry) : g.SameLinks g := ⟨rfl, rfl⟩

theorem trans {r s t : ChainRegistry} (h : r.SameLinks s) (h' : s.SameLinks t) : r.SameLinks t :=
  ⟨h'.1.trans h.1, h'.2.trans h.2⟩

end SameLinks

theorem Affiliated.of_same {g t : ChainRegistry} (hg : g.Affiliated) (h : g.SameLinks t) : t.Affiliated := by
  refine ⟨?_, ?_⟩
  · rw [h.1, h.2]
    exact hg.linked
  · rw [h.2]
    exact hg.bounded

theorem membersOf_insert (g t : ChainRegistry) (h : ChainId)
    (host : HostChainInfo) (ht : t.hostchains = g.hostchains.insert h host) :
    t.membersOf = Function.update g.membersOf h host.memberChains := by
  funext i
  unfold membersOf
  rw [ht]
  by_cases hi : i = h
  · rw [hi, SortedMap.find?_insert_self, Function.update_self]
    rfl
  · rw [SortedMap.find?_insert_ne _ _ _ _ hi, Function.update_of_ne hi]

theorem find?_insert_eq_update (m : SortedMap ChainId ChainId) (c h : ChainId) :
    (m.insert c h).find? = Function.update m.find? c (some h) := by
  funext i
  by_cases hi : i = c
  · rw [hi, SortedMap.find?_insert_self, Function.update_self]
  · rw [SortedMap.find?_insert_ne _ _ _ _ hi, Function.update_of_ne hi]

theorem find?_erase_eq_update (m : SortedMap ChainId ChainId) (c : ChainId) :
    (m.erase c).find? = Function.update m.find? c none := by
  funext i
  rw [SortedMap.find?_erase]
  by_cases hi : i = c
  · simp [hi]
  · simp [hi]

/-- Taking a chain from its host. -/
theorem Affiliated.unlink {g t : ChainRegistry} (hg : g.Affiliated) {c h : ChainId}
    (hc : g.sidechainToHost.find? c = some h) (hs : t.sidechainToHost = g.sidechainToHost.erase c)
    (hh : t.membersOf = Function.update g.membersOf h ((g.membersOf h).erase c)) : t.Affiliated := by
  refine ⟨?_, ?_⟩
  · rw [hs, find?_erase_eq_update, hh]
    exact hg.linked.unlink hc
  · intro i
    rw [hh]
    by_cases hi : i = h
    · subst hi
      rw [Function.update_self]
      have hle := Finset.card_erase_le (s := g.membersOf i) (a := c)
      have := hg.bounded i
      omega
    · rw [Function.update_of_ne hi]
      exact hg.bounded i

/-- Putting a chain into a host that has room is right exactly if it has no other. -/
theorem Affiliated.link_iff {g t : ChainRegistry} (hg : g.Affiliated) {c h : ChainId}
    (hroom : (g.membersOf h).card < maxMembersPerHost)
    (hs : t.sidechainToHost = g.sidechainToHost.insert c h)
    (hh : t.membersOf = Function.update g.membersOf h (insert c (g.membersOf h))) :
    t.Affiliated ↔ ∀ i, g.sidechainToHost.find? c = some i → i = h := by
  rw [← hg.linked.link_iff c h, ← find?_insert_eq_update, ← hs, ← hh]
  constructor
  · intro ht
    exact ht.linked
  · intro hl
    refine ⟨hl, ?_⟩
    intro i
    rw [hh]
    by_cases hi : i = h
    · subst hi
      rw [Function.update_self]
      have := Finset.card_insert_le c (g.membersOf i)
      omega
    · rw [Function.update_of_ne hi]
      exact hg.bounded i

theorem Affiliated.host_of_find {g : ChainRegistry} (hg : g.Affiliated) {c h : ChainId}
    (hc : g.sidechainToHost.find? c = some h) :
    ∃ host, g.hostchains.find? h = some host ∧ c ∈ host.memberChains := by
  have hmem := (hg.linked c h).mp hc
  unfold membersOf at hmem
  cases hf : g.hostchains.find? h with
  | none =>
    rw [hf] at hmem
    cases hmem
  | some host =>
    rw [hf] at hmem
    exact ⟨host, rfl, hmem⟩

theorem membersOf_of_find {g : ChainRegistry} {h : ChainId} {host : HostChainInfo}
    (hf : g.hostchains.find? h = some host) : g.membersOf h = host.memberChains := by
  unfold membersOf
  rw [hf]
  rfl

/-! ## Leaving a host -/

/-- The member is taken off its host's list and the link to the host is cut. -/
theorem Affiliated.removeMember {g t : ChainRegistry} (hg : g.Affiliated) {c h : ChainId} {host : HostChainInfo}
    (hc : g.sidechainToHost.find? c = some h) (hf : g.hostchains.find? h = some host)
    (hlinks : t.sidechainToHost = g.sidechainToHost.erase c)
    (hhosts : t.hostchains = g.hostchains.insert h { host with memberChains := host.memberChains.erase c }) :
    t.Affiliated := by
  refine hg.unlink hc hlinks ?_
  rw [membersOf_of_find hf]
  exact membersOf_insert g t h { host with memberChains := host.memberChains.erase c } hhosts

theorem detach_affiliated (g : ChainRegistry) (c : ChainId) (hg : g.Affiliated) : (g.detach c).Affiliated := by
  unfold detach
  cases hc : g.sidechainToHost.find? c with
  | none => exact hg
  | some h =>
    obtain ⟨host, hf, hmem⟩ := hg.host_of_find hc
    simp only [hf, HostChainInfo.removeMember, if_pos hmem]
    exact hg.removeMember hc hf rfl rfl

theorem leaveHost_affiliated (g : ChainRegistry) (c : ChainId) (hg : g.Affiliated) :
    (g.leaveHost c).1.Affiliated := by
  unfold leaveHost
  cases hc : g.sidechainToHost.find? c with
  | none => exact hg
  | some h =>
    obtain ⟨host, hf, hmem⟩ := hg.host_of_find hc
    simp only [hf, HostChainInfo.removeMember, if_pos hmem]
    exact hg.removeMember hc hf rfl rfl

theorem withSidechain_sameLinks {α : Type} (g t : ChainRegistry) (c : ChainId)
    (f : SidechainInfo → Except ChainError (SidechainInfo × α)) (a : α)
    (h : g.withSidechain c f = .ok (t, a)) : g.SameLinks t := by
  obtain ⟨sc, sc', -, -, rfl⟩ := withSidechain_ok g t c f a h
  exact .of_eq rfl rfl

theorem withSidechain_affiliated {α : Type} (g : ChainRegistry) (c : ChainId)
    (f : SidechainInfo → Except ChainError (SidechainInfo × α)) (hg : g.Affiliated) :
    (((g.withSidechain c f).map Prod.fst).orKeep g).Affiliated := by
  apply Except.orKeep_map_of Affiliated _ g hg
  intro t a ht
  exact hg.of_same (withSidechain_sameLinks g t c f a ht)

theorem purgeSidechain_affiliated (g t : ChainRegistry) (c : ChainId) (b : Nat) (d : Balance)
    (hg : g.Affiliated) (h : g.purgeSidechain c b = .ok (t, d)) : t.Affiliated := by
  unfold purgeSidechain at h
  split at h
  · cases h
  · next u d' hu =>
    cases h
    exact detach_affiliated u c (hg.of_same (withSidechain_sameLinks g u c _ d hu))

theorem autoPurgeInactive_affiliated (order : IterOrder ChainId) (g : ChainRegistry) (b : Nat)
    (hg : g.Affiliated) : (autoPurgeInactive order g b).1.Affiliated :=
  autoPurgeInactive_rel (fun g t => g.Affiliated → t.Affiliated) (fun _ h => h) (fun h h' hr => h' (h hr)) b
    (fun _ h => h.of_same (.of_eq rfl rfl)) (fun g t c d ht h => purgeSidechain_affiliated g t c b d h ht)
    order g hg

theorem advancePurgeState_affiliated (g t : ChainRegistry) (c : ChainId) (b : Nat) (status : ChainStatus)
    (hg : g.Affiliated) (h : g.advancePurgeState c b = .ok (t, status)) : t.Affiliated := by
  obtain ⟨sc, -, ht⟩ := advancePurgeState_ok g t c b status h
  have hnext : ChainRegistry.Affiliated { g with sidechains := g.sidechains.insert c (advance sc b) } :=
    hg.of_same (.of_eq rfl rfl)
  rcases ht with rfl | rfl
  · exact hnext
  · exact detach_affiliated _ c hnext

theorem autoPurgeV31_affiliated (order : IterOrder ChainId) (g : ChainRegistry) (b : Nat) (hg : g.Affiliated) :
    (autoPurgeV31 order g b).1.Affiliated :=
  autoPurgeV31_rel (fun g t => g.Affiliated → t.Affiliated) (fun _ h => h) (fun h h' hr => h' (h hr)) b
    (fun _ h => h.of_same (.of_eq rfl rfl))
    (fun g t c _ u ht h => h.of_same (withSidechain_sameLinks g t c _ u ht))
    (fun g t c status ht h => advancePurgeState_affiliated g t c b status h ht) order g hg

/-! ## Pools -/

theorem reassign_sameLinks (l : List ChainId) (g : ChainRegistry) : g.SameLinks (reassign l g).1 :=
  reassign_rel SameLinks .refl (fun h h' => h.trans h')
    (fun g t c v ht => withSidechain_sameLinks g t c _ v ht) l g

/-- A change of the pool leaves the members alone. -/
theorem changePool_sameLinks (order : IterOrder ChainId) (g : ChainRegistry) (h : ChainId)
    (f : HostChainInfo → Except ChainTypeError HostChainInfo)
    (hmem : ∀ host host', f host = .ok host' → host'.memberChains = host.memberChains) :
    g.SameLinks (changePool order g h f).1 := by
  unfold changePool
  cases hf : g.hostchains.find? h with
  | none => exact .refl g
  | some host =>
    simp only
    cases hr : f host with
    | error e => exact .refl g
    | ok host' =>
      have hhost : g.SameLinks { g with hostchains := g.hostchains.insert h host' } := by
        refine ⟨rfl, ?_⟩
        rw [membersOf_insert g _ h host' rfl, hmem host host' hr, ← membersOf_of_find hf,
          Function.update_eq_self]
      exact hhost.trans (reassign_sameLinks _ _)

theorem addValidator_memberChains (v : AccountId) (host host' : HostChainInfo)
    (h : host.addValidator v = .ok host') : host'.memberChains = host.memberChains := by
  unfold HostChainInfo.addValidator at h
  split at h
  · cases h
  · cases h
    rfl

theorem removeValidator_memberChains (v : AccountId) (host host' : HostChainInfo)
    (h : host.removeValidator v = .ok host') : host'.memberChains = host.memberChains := by
  unfold HostChainInfo.removeValidator at h
  split at h
  · cases h
    rfl
  · cases h

/-! ## Joining a host -/

theorem affiliateSidechain_ok (g t : ChainRegistry) (c h : ChainId) (ht : g.affiliateSidechain c h = .ok t) :
    ∃ host, g.hostchains.find? h = some host ∧ g.sidechains.contains c = true ∧
      host.memberChains.card < maxMembersPerHost ∧ t.sidechains = g.sidechains ∧
      t.sidechainToHost = g.sidechainToHost.insert c h ∧
      t.hostchains = g.hostchains.insert h { host with memberChains := insert c host.memberChains } := by
  unfold affiliateSidechain at ht
  split at ht
  · cases ht
  · next hc =>
    cases hf : g.hostchains.find? h with
    | none => simp [hf] at ht
    | some host =>
      simp only [hf, HostChainInfo.addMember] at ht
      by_cases hroom : maxMembersPerHost ≤ host.memberChains.card
      · simp [hroom] at ht
      · rw [if_neg hroom] at ht
        cases ht
        exact ⟨host, rfl, by simpa using hc, by omega, rfl, rfl, rfl⟩

theorem affiliateSidechain_error (g : ChainRegistry) (c h : ChainId) (e : ChainError)
    (he : g.affiliateSidechain c h = .error e) :
    g.sidechains.contains c = false ∨ g.hostchains.find? h = none ∨
      maxMembersPerHost ≤ (g.membersOf h).card := by
  unfold affiliateSidechain at he
  split at he
  · next hc => exact .inl hc
  · cases hf : g.hostchains.find? h with
    | none => exact .inr (.inl rfl)
    | some host =>
      simp only [hf, HostChainInfo.addMember] at he
      by_cases hroom : maxMembersPerHost ≤ host.memberChains.card
      · rw [membersOf_of_find hf]
        exact .inr (.inr hroom)
      · rw [if_neg hroom] at he
        cases he

/-- After a chain has joined a host. -/
theorem affiliateSidechain_affiliated_iff (g t : ChainRegistry) (c h : ChainId) (hg : g.Affiliated)
    (ht : g.affiliateSidechain c h = .ok t) :
    t.Affiliated ↔ ∀ i, g.sidechainToHost.find? c = some i → i = h := by
  obtain ⟨host, hf, -, hroom, -, hs, hh⟩ := affiliateSidechain_ok g t c h ht
  have hmembers := membersOf_of_find hf
  refine hg.link_iff (by rw [hmembers]; exact hroom) hs ?_
  rw [membersOf_insert g t h _ hh, hmembers]

theorem all_eq_iff (o : Option ChainId) (h : ChainId) :
    (o.all fun i => decide (i = h)) = true ↔ ∀ i, o = some i → i = h := by
  cases o with
  | none => simp
  | some j =>
    constructor
    · intro hj i hi
      obtain rfl := Option.some.inj hi
      simpa using hj
    · intro hall
      simpa using hall j rfl

theorem affiliateSidechain_iff (cr : Crypto) (g : ChainRegistry) (c h : ChainId) (hg : g.Affiliated) :
    (g.apply cr (.affiliateSidechain c h)).Affiliated ↔ g.coherent (.affiliateSidechain c h) = true := by
  show ((g.affiliateSidechain c h).orKeep g).Affiliated ↔ _
  cases ht : g.affiliateSidechain c h with
  | error e =>
    refine iff_of_true hg ?_
    rcases affiliateSidechain_error g c h e ht with hc | hf | hroom
    · simp [coherent, hc]
    · simp [coherent, hf]
    · cases hf : g.hostchains.find? h with
      | none => simp [coherent, hf]
      | some host =>
        rw [membersOf_of_find hf] at hroom
        simp [coherent, hf, hroom]
  | ok t =>
    show t.Affiliated ↔ _
    obtain ⟨host, hf, hc, hroom, -⟩ := affiliateSidechain_ok g t c h ht
    rw [affiliateSidechain_affiliated_iff g t c h hg ht, ← all_eq_iff]
    simp [coherent, hc, hf, not_le.mpr hroom]

theorem createHostchain_iff (cr : Crypto) (g : ChainRegistry) (creator : AccountId) (b : Nat)
    (hg : g.Affiliated) :
    (g.apply cr (.createHostchain creator b)).Affiliated ↔ g.coherent (.createHostchain creator b) = true := by
  have hmembers : (g.apply cr (.createHostchain creator b)).membersOf =
      Function.update g.membersOf ⟨g.nextChainId⟩ ∅ :=
    membersOf_insert g _ _ (HostChainInfo.new ⟨g.nextChainId⟩ creator b) rfl
  have hempty := hg.linked.clear_iff ⟨g.nextChainId⟩
  unfold coherent
  rw [decide_eq_true_eq]
  constructor
  · intro ht
    have hl := ht.linked
    rw [hmembers] at hl
    exact hempty.mp hl
  · intro h
    refine hg.of_same ⟨rfl, ?_⟩
    rw [hmembers, ← h, Function.update_eq_self]

/-! ## Creation -/

theorem assignValidators_of_due (g : ChainRegistry) (c : ChainId) (sc : SidechainInfo) (v : Finset AccountId)
    (hf : g.sidechains.find? c = some sc) (hd : g.dueValidators c sc = .ok v) :
    g.assignValidators c =
      .ok ({ g with sidechains := g.sidechains.insert c { sc with validators := v } }, v) := by
  unfold assignValidators withSidechain
  simp only [hf, hd]

theorem assignValidators_of_error (g : ChainRegistry) (c : ChainId) (sc : SidechainInfo) (e : ChainError)
    (hf : g.sidechains.find? c = some sc) (hd : g.dueValidators c sc = .error e) :
    g.assignValidators c = .error e := by
  unfold assignValidators withSidechain
  simp only [hf, hd]

/-- The registry after a new chain has been given validators. -/
def giveNew (g : ChainRegistry) (sc : SidechainInfo) (validators : Finset AccountId) : ChainRegistry :=
  { g with sidechains := g.sidechains.insert sc.id { sc with validators } }

section Creation

variable (g : ChainRegistry) (owner : AccountId) (name description : Option String) (parent : Option ChainId)
  (m : SecurityMode) (host : Option ChainId) (deposit : Balance) (b : Nat)

theorem storeNew_find : (g.storeNew owner name description parent m deposit b).sidechains.find? ⟨g.nextChainId⟩ =
    some (SidechainInfo.new ⟨g.nextChainId⟩ parent owner name description m deposit b) :=
  SortedMap.find?_insert_self _ _ _

theorem storeNew_sameLinks : g.SameLinks (g.storeNew owner name description parent m deposit b) :=
  .of_eq rfl rfl

theorem storeNew_ne : g.storeNew owner name description parent m deposit b ≠ g := by
  intro h
  have hnext : g.nextChainId + 1 = g.nextChainId := congrArg nextChainId h
  simp at hnext

theorem storeNew_contains (p : ChainId) (hp : g.sidechains.contains p = true) :
    ((g.storeNew owner name description parent m deposit b).sidechains.find? p).isSome = true := by
  unfold storeNew
  rw [SortedMap.find?_insert]
  split
  · rfl
  · exact hp

theorem accepts_parent (h : g.accepts parent m host deposit = true) (p : ChainId) (hp : parent = some p) :
    g.sidechains.contains p = true := by
  unfold accepts at h
  cases hr : g.requiredDeposit m host with
  | error e => simp [hr] at h
  | ok required =>
    simp only [hr, hp, Bool.and_eq_true, Option.all_some] at h
    exact h.2

theorem accepts_host (h : g.accepts parent .shared host deposit = true) :
    ∃ i info, host = some i ∧ g.hostchains.find? i = some info := by
  unfold accepts requiredDeposit at h
  cases hb : host.bind g.hostchains.find? with
  | none => simp [hb] at h
  | some info =>
    obtain ⟨i, hi, hf⟩ := Option.bind_eq_some_iff.mp hb
    exact ⟨i, info, hi, hf⟩

/-- An inherited chain without a parent is stored, and gets no validators. -/
theorem settle_orphan : (g.storeNew owner name description none .inherited deposit b).settle ⟨g.nextChainId⟩
    .inherited host = (g.storeNew owner name description none .inherited deposit b, .error .parentNotFound) := by
  have hassign := assignValidators_of_error _ _ _ .parentNotFound
    (storeNew_find g owner name description none .inherited deposit b) rfl
  unfold settle
  simp only [joined, Option.elim_none]
  rw [hassign]
  rfl

theorem settle_inherited (p : ChainId) (hp : g.sidechains.contains p = true) :
    ∃ pc, (g.storeNew owner name description (some p) .inherited deposit b).sidechains.find? p = some pc ∧
      (g.storeNew owner name description (some p) .inherited deposit b).settle ⟨g.nextChainId⟩ .inherited host =
        ((g.storeNew owner name description (some p) .inherited deposit b).giveNew
          (SidechainInfo.new ⟨g.nextChainId⟩ (some p) owner name description .inherited deposit b) pc.validators,
          .ok ⟨g.nextChainId⟩) := by
  obtain ⟨pc, hpc⟩ := Option.isSome_iff_exists.mp
    (storeNew_contains g owner name description (some p) .inherited deposit b p hp)
  have hdue : (g.storeNew owner name description (some p) .inherited deposit b).dueValidators ⟨g.nextChainId⟩
      (SidechainInfo.new ⟨g.nextChainId⟩ (some p) owner name description .inherited deposit b) =
        .ok pc.validators := by
    unfold dueValidators
    simp [SidechainInfo.new, hpc]
  have hassign := assignValidators_of_due _ _ _ _
    (storeNew_find g owner name description (some p) .inherited deposit b) hdue
  refine ⟨pc, hpc, ?_⟩
  unfold settle
  simp only [joined, Option.elim_none]
  rw [hassign]
  rfl

theorem settle_full (i : ChainId) (hroom : maxMembersPerHost ≤ (g.membersOf i).card) :
    ∃ e, (g.storeNew owner name description parent .shared deposit b).settle ⟨g.nextChainId⟩ .shared
      (some i) = (g.storeNew owner name description parent .shared deposit b, .error e) := by
  unfold settle
  simp only [joined, Option.elim_some]
  cases ht : (g.storeNew owner name description parent .shared deposit b).affiliateSidechain ⟨g.nextChainId⟩ i with
  | error e => exact ⟨e, rfl⟩
  | ok t =>
    obtain ⟨info, hf, -, hlt, -⟩ := affiliateSidechain_ok _ t _ i ht
    have hf' : g.hostchains.find? i = some info := hf
    rw [membersOf_of_find hf'] at hroom
    omega

theorem settle_shared (i : ChainId) (info : HostChainInfo) (hf : g.hostchains.find? i = some info)
    (hroom : (g.membersOf i).card < maxMembersPerHost) :
    ∃ t, (g.storeNew owner name description parent .shared deposit b).affiliateSidechain ⟨g.nextChainId⟩ i =
        .ok t ∧
      (g.storeNew owner name description parent .shared deposit b).settle ⟨g.nextChainId⟩ .shared (some i) =
        (t.giveNew (SidechainInfo.new ⟨g.nextChainId⟩ parent owner name description .shared deposit b)
          info.validatorPool, .ok ⟨g.nextChainId⟩) := by
  cases ht : (g.storeNew owner name description parent .shared deposit b).affiliateSidechain ⟨g.nextChainId⟩ i with
  | error e =>
    exfalso
    rcases affiliateSidechain_error _ _ i e ht with hc | hh | hfull
    · rw [SortedMap.contains, storeNew_find] at hc
      cases hc
    · have hh' : g.hostchains.find? i = none := hh
      rw [hf] at hh'
      cases hh'
    · rw [(storeNew_sameLinks g owner name description parent .shared deposit b).2] at hfull
      omega
  | ok t =>
    obtain ⟨info', hf', -, -, hside, hs, hh⟩ := affiliateSidechain_ok _ t _ i ht
    obtain rfl : info = info' := Option.some.inj (hf.symm.trans hf')
    have hnew : t.sidechains.find? ⟨g.nextChainId⟩ =
        some (SidechainInfo.new ⟨g.nextChainId⟩ parent owner name description .shared deposit b) := by
      rw [hside]
      exact storeNew_find g owner name description parent .shared deposit b
    have hdue : t.dueValidators ⟨g.nextChainId⟩
        (SidechainInfo.new ⟨g.nextChainId⟩ parent owner name description .shared deposit b) =
          .ok info.validatorPool := by
      unfold dueValidators
      simp only [SidechainInfo.new, hs, SortedMap.find?_insert_self, Option.bind_some, hh]
    refine ⟨t, rfl, ?_⟩
    unfold settle
    simp only [joined, Option.elim_some, ht]
    rw [assignValidators_of_due t _ _ _ hnew hdue]
    rfl

theorem createSidechain_iff (cr : Crypto) (hg : g.Affiliated) :
    (g.apply cr (.createSidechain owner name description parent m host deposit b)).Affiliated ∧
        g.Atomic (.createSidechain owner name description parent m host deposit b) ↔
      g.coherent (.createSidechain owner name description parent m host deposit b) = true := by
  show (g.createSidechain owner name description parent m host deposit b).1.Affiliated ∧
    (∀ e, (g.createSidechain owner name description parent m host deposit b).2 = .error e →
      (g.createSidechain owner name description parent m host deposit b).1 = g) ↔ _
  cases hacc : g.accepts parent m host deposit with
  | false =>
    obtain ⟨e, he⟩ := createSidechain_rejected g owner name description parent m host deposit b hacc
    rw [he]
    exact iff_of_true ⟨hg, fun _ _ => rfl⟩ (by simp [coherent, hacc])
  | true =>
    rw [createSidechain_accepted g owner name description parent m host deposit b hacc]
    cases m with
    | inherited =>
      cases parent with
      | none =>
        rw [settle_orphan]
        refine iff_of_false ?_ (by simp [coherent, hacc])
        rintro ⟨-, hatomic⟩
        exact storeNew_ne g owner name description none .inherited deposit b (hatomic _ rfl)
      | some p =>
        obtain ⟨pc, -, hu⟩ := settle_inherited g owner name description host deposit b p
          (accepts_parent g (some p) .inherited host deposit hacc p rfl)
        rw [hu]
        refine iff_of_true ⟨hg.of_same (.of_eq rfl rfl), ?_⟩ (by simp [coherent])
        intro e he
        cases he
    | shared =>
      obtain ⟨i, info, rfl, hf⟩ := accepts_host g parent host deposit hacc
      by_cases hroom : (g.membersOf i).card < maxMembersPerHost
      · obtain ⟨t, ht, hu⟩ := settle_shared g owner name description parent deposit b i info hf hroom
        have hstored := storeNew_sameLinks g owner name description parent .shared deposit b
        have hiff := affiliateSidechain_affiliated_iff _ t _ i (hg.of_same hstored) ht
        have hback : ∀ sc v, (t.giveNew sc v).Affiliated ↔ t.Affiliated := by
          intro sc v
          exact ⟨fun h => h.of_same (.of_eq rfl rfl), fun h => h.of_same (.of_eq rfl rfl)⟩
        have hatomic : ∀ u : ChainRegistry, ∀ e,
            (Except.ok ⟨g.nextChainId⟩ : Except ChainError ChainId) = .error e → u = g := by
          intro u e he
          cases he
        rw [hu, and_iff_left (hatomic _), hback, hiff, hstored.1, ← all_eq_iff]
        simp [coherent, hacc, hroom]
      · obtain ⟨e, he⟩ := settle_full g owner name description parent deposit b i (not_lt.mp hroom)
        rw [he]
        refine iff_of_false ?_ (by simp [coherent, hacc, hroom])
        rintro ⟨-, hatomic⟩
        exact storeNew_ne g owner name description parent .shared deposit b (hatomic e rfl)
    | sovereign =>
      refine iff_of_true ⟨?_, ?_⟩ (by simp [coherent])
      · exact hg.of_same (storeNew_sameLinks g owner name description parent .sovereign deposit b)
      · intro e he
        cases he

end Creation

/-! ## Runs -/

/-- **Step lemma.** -/
theorem apply_affiliated_iff (cr : Crypto) (g : ChainRegistry) (op : RegistryOp) (hg : g.Affiliated) :
    (g.apply cr op).Affiliated ∧ g.Atomic op ↔ g.coherent op = true := by
  cases op with
  | createSidechain owner name description parent m host deposit b =>
    exact createSidechain_iff g owner name description parent m host deposit b cr hg
  | createHostchain creator b => exact (and_iff_left trivial).trans (createHostchain_iff cr g creator b hg)
  | affiliateSidechain c h => exact (and_iff_left trivial).trans (affiliateSidechain_iff cr g c h hg)
  | leaveHost c => exact iff_of_true ⟨leaveHost_affiliated g c hg, trivial⟩ rfl
  | addValidatorToHostchain order h v =>
    exact iff_of_true ⟨hg.of_same (changePool_sameLinks order g h _ (addValidator_memberChains v)), trivial⟩ rfl
  | removeValidatorFromHostchain order h v =>
    exact iff_of_true ⟨hg.of_same (changePool_sameLinks order g h _ (removeValidator_memberChains v)), trivial⟩
      rfl
  | purgeSidechain c b =>
    refine iff_of_true ⟨?_, trivial⟩ rfl
    apply Except.orKeep_map_of Affiliated _ g hg
    intro t d ht
    exact purgeSidechain_affiliated g t c b d hg ht
  | autoPurgeInactive order b => exact iff_of_true ⟨autoPurgeInactive_affiliated order g b hg, trivial⟩ rfl
  | advancePurgeState c b =>
    refine iff_of_true ⟨?_, trivial⟩ rfl
    apply Except.orKeep_map_of Affiliated _ g hg
    intro t status ht
    exact advancePurgeState_affiliated g t c b status hg ht
  | autoPurgeV31 order b => exact iff_of_true ⟨autoPurgeV31_affiliated order g b hg, trivial⟩ rfl
  | _ => exact iff_of_true ⟨withSidechain_affiliated g _ _ hg, trivial⟩ rfl

theorem new_affiliated : new.Affiliated where
  linked c h := by
    constructor
    · intro hc
      cases hc
    · intro hc
      cases hc
  bounded _ := Nat.zero_le _

/-- The two directions agree in every state of a run and failed creations change nothing
exactly if all calls are coherent. -/
theorem affiliated_iff (cr : Crypto) (ops : List RegistryOp) :
    (∀ k, (after cr (ops.take k)).Affiliated) ∧ Run.Meets (apply cr) Atomic .new ops ↔
      Run.Meets (apply cr) (fun g op => g.coherent op = true) .new ops :=
  Run.good_meets_iff (apply cr) (fun _ _ => True) _ Atomic (fun _ => True) Affiliated (fun _ _ _ _ => trivial)
    (fun g op _ _ hg => apply_affiliated_iff cr g op hg) .new ops trivial new_affiliated
    (Run.meets_of_forall _ _ (fun _ _ => trivial) _ _)

/-- Chain 3 joins host 1, then host 2. -/
def sampleRejoined : List RegistryOp :=
  [RegistryOp.createHostchain ⟨9⟩ 0, RegistryOp.createHostchain ⟨9⟩ 0,
    RegistryOp.createSidechain ⟨1⟩ none none none .sovereign none 10000 0,
    RegistryOp.affiliateSidechain ⟨3⟩ ⟨1⟩, RegistryOp.affiliateSidechain ⟨3⟩ ⟨2⟩]

/-- An inherited chain without a parent. -/
def sampleOrphan : List RegistryOp :=
  [RegistryOp.createSidechain ⟨1⟩ none none none .inherited none 1000 0]

theorem member_of_two_hosts :
    ¬ ((∀ k, (after Crypto.sample (sampleRejoined.take k)).Affiliated) ∧
        Run.Meets (apply Crypto.sample) Atomic .new sampleRejoined) ∧
      ¬ ((∀ k, (after Crypto.sample (sampleOrphan.take k)).Affiliated) ∧
        Run.Meets (apply Crypto.sample) Atomic .new sampleOrphan) := by
  constructor
  · rintro ⟨h, -⟩
    have hmember : (⟨3⟩ : ChainId) ∈ (after Crypto.sample sampleRejoined).membersOf ⟨1⟩ := by decide
    have hhost : (after Crypto.sample sampleRejoined).sidechainToHost.find? ⟨3⟩ = some ⟨2⟩ := by decide
    have hback := ((h 5).linked ⟨3⟩ ⟨1⟩).mpr hmember
    rw [show sampleRejoined.take 5 = sampleRejoined from rfl, hhost] at hback
    exact absurd (Option.some.inj hback) (by decide)
  · rintro ⟨-, h, -⟩
    have hsame := congrArg nextChainId (h .parentNotFound (by decide))
    exact absurd hsame (by decide)

end ChainRegistry

end Kratos
