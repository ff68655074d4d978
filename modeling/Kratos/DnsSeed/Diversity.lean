import Kratos.DnsSeed.Registry
import Kratos.Lib.QuotaSelect

/-!
# Peers of many regions

The published peers are selected from the active ones, best scores first: a first pass takes at most
`n / min_regions` of a region, a second one fills up.  The selection is a quota selection
(`getDiversePeers_eq`): it is full, distinct and within each region the best.  It is diverse if
`min_regions` is at most `n`; beyond that the quota is zero and the regions are those that the `n`
best peers happen to have (`diverse_iff`).
-/

namespace Kratos.DnsSeed

/-- A peer without a region counts for the region "unknown". -/
def PeerInfo.regionName (p : PeerInfo) : String := p.region.getD "unknown"

namespace PeerRegistry

variable (order : IterOrder (AccountId × PeerInfo)) (s : PeerRegistry)

def getActivePeers (now timeoutSecs : Nat) : List PeerInfo :=
  ((order.iter s.cache.peers.entries).map Prod.snd).filter fun p => !p.isStale now timeoutSecs

/-- `sort_by` is stable; the highest scores come first. -/
def sortedPeers (now timeoutSecs : Nat) : List PeerInfo :=
  (getActivePeers order s now timeoutSecs).insertionSort fun a b => b.score ≤ a.score

def getTopPeers (n now timeoutSecs : Nat) : List PeerInfo := (sortedPeers order s now timeoutSecs).take n

/-- Counts what it takes of each region. -/
def firstPass (quota n : Nat) : List PeerInfo → SortedMap String Nat → List PeerInfo → List PeerInfo
  | [], _, result => result
  | p :: l, regionsSeen, result =>
    if (regionsSeen.find? p.regionName).getD 0 < quota then
      if (result ++ [p]).length ≥ n then result ++ [p]
      else firstPass quota n l
        (regionsSeen.insert p.regionName ((regionsSeen.find? p.regionName).getD 0 + 1)) (result ++ [p])
    else firstPass quota n l (regionsSeen.insert p.regionName ((regionsSeen.find? p.regionName).getD 0)) result

def secondPass (n : Nat) : List PeerInfo → List PeerInfo → List PeerInfo
  | [], result => result
  | p :: l, result =>
    if result.any fun q => q.peerId == p.peerId then secondPass n l result
    else if (result ++ [p]).length ≥ n then result ++ [p]
    else secondPass n l (result ++ [p])

def getDiversePeers (n minRegions now timeoutSecs : Nat) : List PeerInfo :=
  match sortedPeers order s now timeoutSecs with
  | allPeers =>
    match firstPass (n / max minRegions 1) n allPeers .empty [] with
    | result => if result.length < n then secondPass n allPeers result else result

/-! ## A quota selection -/

theorem firstPass_eq (quota n : Nat) (l : List PeerInfo) (regionsSeen : SortedMap String Nat)
    (result : List PeerInfo)
    (hseen : ∀ r, (regionsSeen.find? r).getD 0 = (result.map PeerInfo.regionName).count r) :
    firstPass quota n l regionsSeen result = QuotaSelect.quotaPass PeerInfo.regionName quota n l result := by
  induction l generalizing regionsSeen result with
  | nil => rfl
  | cons p l ih =>
    unfold firstPass QuotaSelect.quotaPass
    rw [hseen p.regionName]
    split
    · split
      · rfl
      · refine ih _ _ fun r => ?_
        rw [SortedMap.find?_insert, List.map_append, List.count_append, List.map_singleton,
          List.count_singleton]
        split
        · next hr => simp [hr]
        · next hr => simp [hseen r, Ne.symm hr]
    · refine ih _ _ fun r => ?_
      rw [SortedMap.find?_insert]
      split
      · next hr => simp [hr]
      · exact hseen r

/-- Of one cache, peers are known by their ids. -/
theorem eq_of_peerId (c : PeerCache) (p q : PeerInfo) (hp : c.Holds p) (hq : c.Holds q)
    (h : p.peerId = q.peerId) : p = q := by
  have heq : some p = some q := by
    rw [← hp, ← hq, h]
  exact Option.some.inj heq

theorem secondPass_eq (c : PeerCache) (n : Nat) (l result : List PeerInfo) (hl : ∀ p ∈ l, c.Holds p)
    (hresult : ∀ p ∈ result, c.Holds p) : secondPass n l result = QuotaSelect.fillPass n l result := by
  induction l generalizing result with
  | nil => rfl
  | cons p l ih =>
    have hp := hl p List.mem_cons_self
    have hl' : ∀ q ∈ l, c.Holds q := fun q hq => hl q (List.mem_cons_of_mem p hq)
    have hany : (result.any fun q => q.peerId == p.peerId) = true ↔ p ∈ result := by
      rw [List.any_eq_true]
      constructor
      · rintro ⟨q, hq, hid⟩
        exact eq_of_peerId c q p (hresult q hq) hp (beq_iff_eq.mp hid) ▸ hq
      · exact fun h => ⟨p, h, beq_self_eq_true _⟩
    have hnext : ∀ q ∈ result ++ [p], c.Holds q := by
      intro q hq
      rcases List.mem_append.mp hq with hq | hq
      · exact hresult q hq
      · exact List.mem_singleton.mp hq ▸ hp
    unfold secondPass QuotaSelect.fillPass
    rw [if_congr hany (ih result hl' hresult) rfl, ih (result ++ [p]) hl' hnext]

theorem mem_activePeers (now timeoutSecs : Nat) (p : PeerInfo) :
    p ∈ getActivePeers order s now timeoutSecs ↔ s.cache.Holds p ∧ p.isStale now timeoutSecs = false := by
  unfold getActivePeers
  rw [List.mem_filter, Bool.not_eq_true']
  refine and_congr_left' (Iff.trans ?_ (s.cache.mem_values p))
  rw [((order.perm _).map Prod.snd).mem_iff]
  rfl

theorem nodup_peerIds (now timeoutSecs : Nat) :
    ((getActivePeers order s now timeoutSecs).map PeerInfo.peerId).Nodup := by
  have hids : (s.cache.peers.entries.map Prod.snd).map PeerInfo.peerId = s.cache.peers.keys := by
    rw [List.map_map]
    refine List.map_congr_left fun e he => ?_
    exact s.cache.keyed e.1 e.2 ((s.cache.peers.mem_entries_iff e.1 e.2).mp he)
  have hall : (((order.iter s.cache.peers.entries).map Prod.snd).map PeerInfo.peerId).Nodup := by
    rw [(((order.perm _).map Prod.snd).map PeerInfo.peerId).nodup_iff, hids]
    exact s.cache.peers.keys_nodup
  exact hall.sublist ((List.filter_sublist).map PeerInfo.peerId)

theorem perm_sortedPeers (now timeoutSecs : Nat) :
    (sortedPeers order s now timeoutSecs).Perm (getActivePeers order s now timeoutSecs) :=
  List.perm_insertionSort _ _

theorem nodup_sortedPeers (now timeoutSecs : Nat) : (sortedPeers order s now timeoutSecs).Nodup :=
  (perm_sortedPeers order s now timeoutSecs).nodup_iff.mpr (nodup_peerIds order s now timeoutSecs).of_map

/-- **The selection** is one with quotas for the regions. -/
theorem getDiversePeers_eq (n minRegions now timeoutSecs : Nat) :
    getDiversePeers order s n minRegions now timeoutSecs =
      QuotaSelect.select PeerInfo.regionName (n / max minRegions 1) n (sortedPeers order s now timeoutSecs) := by
  have hheld : ∀ p ∈ sortedPeers order s now timeoutSecs, s.cache.Holds p := fun p hp =>
    ((mem_activePeers order s now timeoutSecs p).mp
      ((perm_sortedPeers order s now timeoutSecs).mem_iff.mp hp)).1
  obtain ⟨first, hfirst, hsub⟩ := QuotaSelect.quotaPass_eq PeerInfo.regionName (n / max minRegions 1) n
    (sortedPeers order s now timeoutSecs) []
  unfold getDiversePeers QuotaSelect.select
  dsimp only
  rw [firstPass_eq _ n _ .empty [] fun r => rfl]
  rw [hfirst, List.nil_append, secondPass_eq s.cache n _ first hheld fun p hp => hheld p (hsub.subset hp)]

/-! ## Diversity -/

/-- The number of regions of some peers. -/
def regionCount (l : List PeerInfo) : Nat := (l.map PeerInfo.regionName).toFinset.card

/-- Full, distinct, of enough regions, and of each region the best. -/
structure Diverse (n minRegions now timeoutSecs : Nat) : Prop where
  count : (getDiversePeers order s n minRegions now timeoutSecs).length =
    min n (getActivePeers order s now timeoutSecs).length
  active : ∀ p ∈ getDiversePeers order s n minRegions now timeoutSecs, p ∈ getActivePeers order s now timeoutSecs
  distinct : ((getDiversePeers order s n minRegions now timeoutSecs).map PeerInfo.peerId).Nodup
  regions : min n (min minRegions (regionCount (getActivePeers order s now timeoutSecs))) ≤
    regionCount (getDiversePeers order s n minRegions now timeoutSecs)
  best : ∀ p ∈ getDiversePeers order s n minRegions now timeoutSecs, ∀ q ∈ getActivePeers order s now timeoutSecs,
    q ∉ getDiversePeers order s n minRegions now timeoutSecs → q.regionName = p.regionName → q.score ≤ p.score

theorem regionCount_perm (l m : List PeerInfo) (h : l.Perm m) : regionCount l = regionCount m := by
  unfold regionCount
  rw [List.toFinset_eq_of_perm _ _ (h.map PeerInfo.regionName)]

/-- In the order of the scores, of two peers the one that comes first has no lower score. -/
theorem score_le_of_before (now timeoutSecs : Nat) (p q : PeerInfo)
    (h : [p, q].Sublist (sortedPeers order s now timeoutSecs)) : q.score ≤ p.score := by
  have : Std.Total fun a b : PeerInfo => b.score ≤ a.score := ⟨fun a b => Int32.le_total b.score a.score⟩
  have : IsTrans PeerInfo fun a b => b.score ≤ a.score := ⟨fun a b c hab hbc => Int32.le_trans hbc hab⟩
  have hsorted := (List.pairwise_insertionSort (fun a b : PeerInfo => b.score ≤ a.score)
    (getActivePeers order s now timeoutSecs)).sublist h
  exact (List.pairwise_cons.mp hsorted).1 q (List.mem_singleton_self q)

theorem regions_iff (n minRegions now timeoutSecs : Nat) :
    min n (min minRegions (regionCount (getActivePeers order s now timeoutSecs))) ≤
        regionCount (getDiversePeers order s n minRegions now timeoutSecs) ↔
      minRegions ≤ n ∨ min n (regionCount (getActivePeers order s now timeoutSecs)) ≤
        regionCount (getTopPeers order s n now timeoutSecs) := by
  have hnodup := nodup_sortedPeers order s now timeoutSecs
  rw [getDiversePeers_eq]
  by_cases hle : minRegions ≤ n
  · refine iff_of_true ?_ (.inl hle)
    rcases Nat.eq_zero_or_pos minRegions with hzero | hpos
    · simp [hzero]
    · have hquota : 0 < n / max minRegions 1 := by
        rw [Nat.max_eq_left hpos]
        exact Nat.div_pos hle hpos
      have hfit : minRegions * (n / max minRegions 1) ≤ n := by
        rw [Nat.max_eq_left hpos]
        exact Nat.mul_div_le n minRegions
      have hkeys := QuotaSelect.keys_select PeerInfo.regionName _ n _ hnodup minRegions hquota hfit
      rw [← regionCount_perm _ _ (perm_sortedPeers order s now timeoutSecs)]
      exact (Nat.min_le_right _ _).trans hkeys
  · -- the quota is zero: the first pass takes nothing
    have hzero : n / max minRegions 1 = 0 := Nat.div_eq_of_lt (by omega)
    rw [hzero, QuotaSelect.select_zero _ n _ hnodup, or_iff_right hle, ← Nat.min_assoc,
      Nat.min_eq_left (by omega : n ≤ minRegions)]
    rfl

/-- **Diverse peer selection** is full, distinct and the best of each region in any case, and reaches
the regions asked for exactly if these are not more than the peers, or the peers with the best scores
are of enough regions. -/
theorem diverse_iff (n minRegions now timeoutSecs : Nat) :
    Diverse order s n minRegions now timeoutSecs ↔
      minRegions ≤ n ∨ min n (regionCount (getActivePeers order s now timeoutSecs)) ≤
        regionCount (getTopPeers order s n now timeoutSecs) := by
  rw [← regions_iff]
  refine ⟨Diverse.regions, fun hregions => ?_⟩
  have hnodup := nodup_sortedPeers order s now timeoutSecs
  have hperm := perm_sortedPeers order s now timeoutSecs
  have hsel := getDiversePeers_eq order s n minRegions now timeoutSecs
  have hactive : ∀ p ∈ getDiversePeers order s n minRegions now timeoutSecs,
      p ∈ getActivePeers order s now timeoutSecs := by
    intro p hp
    rw [hsel] at hp
    exact hperm.mem_iff.mp (QuotaSelect.mem_of_mem_select _ _ n _ hnodup p hp)
  refine ⟨?_, hactive, ?_, hregions, fun p hp q hq hout hregion => ?_⟩
  · rw [hsel, QuotaSelect.length_select _ _ n _ hnodup (Nat.div_le_self n _), hperm.length_eq]
  · refine List.Nodup.map_on (fun p hp q hq hid => ?_) (hsel ▸ QuotaSelect.nodup_select _ _ n _ hnodup)
    have hheld := fun r hr => ((mem_activePeers order s now timeoutSecs r).mp (hactive r hr)).1
    exact eq_of_peerId s.cache p q (hheld p hp) (hheld q hq) hid
  · have hne : p ≠ q := fun heq => hout (heq ▸ hp)
    refine score_le_of_before order s now timeoutSecs p q ?_
    refine (QuotaSelect.before_or _ p q (hperm.mem_iff.mpr (hactive p hp)) (hperm.mem_iff.mpr hq) hne).resolve_right
      fun hbefore => hout ?_
    rw [hsel] at hp ⊢
    exact QuotaSelect.before_select _ _ n _ hnodup p q hbefore hregion.symm hp

/-- Two peers of one region with the best scores, and one of another. -/
def threePeers : PeerRegistry where
  db := .empty
  cache :=
    ((PeerCache.empty.insert { samplePeer 1 100 with score := 10 }).insert { samplePeer 2 100 with score := 9 }).insert
      { samplePeer 3 100 with score := 8, region := some "US" }
  maxPeers := 10000
  bestHeight := 100

/-- Two peers of at least three regions are asked for, and one region is what comes out. -/
theorem not_diverse_two_of_three : ¬ Diverse .stored threePeers 2 3 1000 240 := by
  intro h
  have hone : regionCount (getDiversePeers .stored threePeers 2 3 1000 240) = 1 := by decide +kernel
  have htwo : regionCount (getActivePeers .stored threePeers 1000 240) = 2 := by decide +kernel
  have hregions := h.regions
  rw [hone, htwo] at hregions
  exact absurd hregions (by decide)

end PeerRegistry

end Kratos.DnsSeed
