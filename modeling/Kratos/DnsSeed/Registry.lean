import Kratos.DnsSeed.Binding
import Kratos.Lib.IterOrder
import Kratos.Lib.Run
import Kratos.Lib.SortedMap

/-!
# The registry of peers

A seed keeps what it knows of the peers in a cache and in a database, and reads the database back
when it starts.  Cache and database always hold the same peers, never more than `maxPeers`, with
scores from 0 to 200 (`sound_run`).  The best height is only ever raised: it is the largest height
of the peers that are held, and survives a restart, as long as no operation takes away the last
peer that has it (`best_height_iff`).
-/

namespace Kratos.DnsSeed

/-! ## Types -/

/-- Keys of the database are ordered by their bytes. -/
structure DbKey where
  bytes : List UInt8
deriving DecidableEq, Repr

instance : LinearOrder DbKey :=
  LinearOrder.lift' (fun k => k.bytes.map UInt8.toNat) fun a b h => by
    cases a
    cases b
    rw [DbKey.mk.injEq]
    exact List.map_injective_iff.mpr (fun _ _ => UInt8.toNat_inj.mp) h

/-- `bincode::deserialize::<PeerInfo>` reads back what `bincode::serialize` has written. -/
structure PeerDecoder where
  deserialize : List UInt8 → Option PeerInfo
  round_trip : ∀ p : PeerInfo, p.Fits → deserialize p.encode = some p

/-- Peers under their ids. -/
structure PeerCache where
  peers : SortedMap AccountId PeerInfo
  keyed : ∀ id p, peers.find? id = some p → p.peerId = id

structure PeerRegistry where
  db : SortedMap DbKey (List UInt8)
  cache : PeerCache
  maxPeers : Nat
  bestHeight : Fin (2 ^ 64)

def prefixPeer : List UInt8 := Bytes.ascii "peer:"

def peerKey (id : AccountId) : DbKey := ⟨prefixPeer ++ id.asBytes⟩

/-- The clock has seconds. -/
def PeerInfo.isStale (now timeoutSecs : Nat) (p : PeerInfo) : Bool := now - p.lastSeen.val > timeoutSecs

/-! ## The cache -/

namespace PeerCache

def empty : PeerCache := ⟨.empty, fun _ _ h => by cases h⟩

def get (c : PeerCache) (id : AccountId) : Option PeerInfo := c.peers.find? id

def insert (c : PeerCache) (p : PeerInfo) : PeerCache where
  peers := c.peers.insert p.peerId p
  keyed := by
    intro id q h
    rw [SortedMap.find?_insert] at h
    split at h
    · next heq => rw [← Option.some.inj h, heq]
    · exact c.keyed id q h

def erase (c : PeerCache) (id : AccountId) : PeerCache where
  peers := c.peers.erase id
  keyed := by
    intro j q h
    rw [SortedMap.find?_erase] at h
    split at h
    · cases h
    · exact c.keyed j q h

def size (c : PeerCache) : Nat := c.peers.size

/-- The cache holds this very record. -/
def Holds (c : PeerCache) (p : PeerInfo) : Prop := c.get p.peerId = some p

instance (c : PeerCache) (p : PeerInfo) : Decidable (c.Holds p) :=
  inferInstanceAs (Decidable (c.get p.peerId = some p))

theorem holds_of_get (c : PeerCache) (id : AccountId) (p : PeerInfo) (h : c.get id = some p) :
    c.Holds p ∧ p.peerId = id := by
  have hid := c.keyed id p h
  exact ⟨by rw [Holds, hid]; exact h, hid⟩

theorem holds_empty (p : PeerInfo) : ¬ empty.Holds p := by
  intro h
  cases h

theorem holds_insert (c : PeerCache) (p q : PeerInfo) :
    (c.insert p).Holds q ↔ q = p ∨ q.peerId ≠ p.peerId ∧ c.Holds q := by
  unfold Holds get insert
  rw [SortedMap.find?_insert]
  split
  · next heq =>
    rw [Option.some.injEq]
    exact ⟨fun h => .inl h.symm, fun h => (h.resolve_right fun hne => hne.1 heq).symm⟩
  · next hne =>
    refine ⟨fun h => .inr ⟨hne, h⟩, ?_⟩
    rintro (rfl | h)
    · exact absurd rfl hne
    · exact h.2

theorem holds_erase (c : PeerCache) (id : AccountId) (q : PeerInfo) :
    (c.erase id).Holds q ↔ q.peerId ≠ id ∧ c.Holds q := by
  unfold Holds get erase
  rw [SortedMap.find?_erase]
  split
  · next heq => simp [heq]
  · next hne => simp [hne]

theorem ext_holds (c d : PeerCache) (h : ∀ q, c.Holds q ↔ d.Holds q) : c = d := by
  have hpeers : c.peers = d.peers := by
    refine SortedMap.ext_find _ _ fun id => ?_
    refine Option.ext fun q => ⟨fun hq => ?_, fun hq => ?_⟩
    · obtain ⟨hold, rfl⟩ := c.holds_of_get id q hq
      exact (h q).mp hold
    · obtain ⟨hold, rfl⟩ := d.holds_of_get id q hq
      exact (h q).mpr hold
  cases c
  cases d
  cases hpeers
  rfl

theorem mem_entries (c : PeerCache) (id : AccountId) (q : PeerInfo) :
    (id, q) ∈ c.peers.entries ↔ c.Holds q ∧ q.peerId = id := by
  rw [SortedMap.mem_entries_iff]
  refine ⟨c.holds_of_get id q, ?_⟩
  rintro ⟨h, rfl⟩
  exact h

theorem mem_values (c : PeerCache) (q : PeerInfo) : q ∈ c.peers.values ↔ c.Holds q := by
  rw [SortedMap.mem_values_iff]
  exact ⟨fun ⟨id, h⟩ => (c.holds_of_get id q h).1, fun h => ⟨q.peerId, h⟩⟩

theorem size_insert_le (c : PeerCache) (p : PeerInfo) : (c.insert p).size ≤ c.size + 1 := by
  have := SortedMap.sumOf_insert (fun _ _ => 1) c.peers p.peerId p
  rw [SortedMap.sumOf_one, SortedMap.sumOf_one] at this
  exact Nat.le_of_add_right_le this.le

theorem size_insert_of_get (c : PeerCache) (p q : PeerInfo) (h : c.get p.peerId = some q) :
    (c.insert p).size = c.size := by
  have := SortedMap.sumOf_insert (fun _ _ => 1) c.peers p.peerId p
  rw [SortedMap.sumOf_one, SortedMap.sumOf_one, show c.peers.find? p.peerId = some q from h] at this
  exact Nat.add_right_cancel this

/-- The largest height of the peers, 0 without any. -/
def maxHeight (c : PeerCache) : Nat := (c.peers.values.map fun p => p.height.val).foldr max 0

theorem maxHeight_eq_iff (c : PeerCache) (b : Nat) (hle : ∀ q, c.Holds q → q.height.val ≤ b) :
    b = c.maxHeight ↔ b = 0 ∨ ∃ q, c.Holds q ∧ q.height.val = b := by
  have hin : ∀ q, c.Holds q → q.height.val ∈ c.peers.values.map fun p => p.height.val := fun q hq =>
    List.mem_map_of_mem ((c.mem_values q).mpr hq)
  have hout : ∀ x ∈ c.peers.values.map fun p => p.height.val, ∃ q, c.Holds q ∧ q.height.val = x := by
    intro x hx
    obtain ⟨q, hq, rfl⟩ := List.mem_map.mp hx
    exact ⟨q, (c.mem_values q).mp hq, rfl⟩
  constructor
  · intro hb
    by_contra hno
    push Not at hno
    have hlt : c.maxHeight ≤ b - 1 := by
      refine List.max_le_of_forall_le _ _ fun x hx => ?_
      obtain ⟨q, hq, rfl⟩ := hout x hx
      have := hle q hq
      have := hno.2 q hq
      omega
    have := hno.1
    omega
  · intro h
    refine Nat.le_antisymm ?_ (List.max_le_of_forall_le _ _ fun x hx => ?_)
    · rcases h with rfl | ⟨q, hq, heq⟩
      · exact Nat.zero_le _
      · exact List.le_max_of_le (hin q hq) heq.ge
    · obtain ⟨q, hq, rfl⟩ := hout x hx
      exact hle q hq

end PeerCache

/-! ## Operations -/

namespace PeerRegistry

/-- One record that is read when the registry is opened. -/
def loadPeer (dec : PeerDecoder) (acc : PeerCache × Fin (2 ^ 64)) (value : List UInt8) :
    PeerCache × Fin (2 ^ 64) :=
  match dec.deserialize value with
  | some p => (acc.1.insert p, if acc.2 < p.height then p.height else acc.2)
  | none => acc

/-- From the first key at the prefix on to the first key without it. -/
def scan (db : SortedMap DbKey (List UInt8)) : List (DbKey × List UInt8) :=
  (db.entries.dropWhile fun e => e.1 < ⟨prefixPeer⟩).takeWhile fun e => prefixPeer.isPrefixOf e.1.bytes

def openDb (dec : PeerDecoder) (db : SortedMap DbKey (List UInt8)) : PeerRegistry :=
  match ((scan db).map Prod.snd).foldl (loadPeer dec) (.empty, 0) with
  | (cache, bestHeight) => { db := db, cache := cache, maxPeers := 10000, bestHeight := bestHeight }

def removePeer (s : PeerRegistry) (id : AccountId) : PeerRegistry :=
  { s with db := s.db.erase (peerKey id), cache := s.cache.erase id }

/-- `min_by_key` takes the first of the entries with the lowest score. -/
def lowestScoring (order : IterOrder (AccountId × PeerInfo)) (c : PeerCache) : Option AccountId :=
  ((order.iter c.peers.entries).insertionSort fun a b => a.2.score ≤ b.2.score).head?.map Prod.fst

def evictLowestScoringPeer (order : IterOrder (AccountId × PeerInfo)) (s : PeerRegistry) : PeerRegistry :=
  match lowestScoring order s.cache with
  | some id => s.removePeer id
  | none => s

/-- The record that is kept: a peer that is known gains a point, up to 200. -/
def scored (s : PeerRegistry) (p : PeerInfo) : PeerInfo :=
  match s.cache.get p.peerId with
  | some existing => { p with score := min (existing.score + 1) 200 }
  | none => p

/-- `update_peer` before the eviction. -/
def putPeer (s : PeerRegistry) (p : PeerInfo) : PeerRegistry :=
  { s with
    bestHeight := if s.bestHeight < p.height then p.height else s.bestHeight
    db := s.db.insert (peerKey p.peerId) (s.scored p).encode
    cache := s.cache.insert (s.scored p) }

def updatePeer (order : IterOrder (AccountId × PeerInfo)) (s : PeerRegistry) (p : PeerInfo) : PeerRegistry :=
  if (s.putPeer p).cache.size > s.maxPeers then (s.putPeer p).evictLowestScoringPeer order else s.putPeer p

/-- Also counts what it removes. -/
def removeStalePeers (order : IterOrder (AccountId × PeerInfo)) (s : PeerRegistry) (now timeoutSecs : Nat) :
    PeerRegistry × Nat :=
  match ((order.iter s.cache.peers.entries).filter fun e => e.2.isStale now timeoutSecs).map Prod.fst with
  | staleIds => (staleIds.foldl removePeer s, staleIds.length)

def decreasePeerScore (s : PeerRegistry) (id : AccountId) (amount : Int32) : PeerRegistry :=
  match s.cache.get id with
  | some p =>
    { s with
      cache := s.cache.insert { p with score := max (p.score - amount) 0 }
      db := s.db.insert (peerKey id) ({ p with score := max (p.score - amount) 0 } : PeerInfo).encode }
  | none => s

/-! ## Runs -/

/-- What is done to a registry; a restart drops the cache and opens the database again. -/
inductive Op where
  | updatePeer (order : IterOrder (AccountId × PeerInfo)) (peer : PeerInfo)
  | decreasePeerScore (id : AccountId) (amount : Int32)
  | removePeer (id : AccountId)
  | removeStalePeers (order : IterOrder (AccountId × PeerInfo)) (now timeoutSecs : Nat)
  | restart

def step (dec : PeerDecoder) (s : PeerRegistry) : Op → PeerRegistry
  | .updatePeer order p => s.updatePeer order p
  | .decreasePeerScore id amount => s.decreasePeerScore id amount
  | .removePeer id => s.removePeer id
  | .removeStalePeers order now timeoutSecs => (s.removeStalePeers order now timeoutSecs).1
  | .restart => openDb dec s.db

/-- Initial scores are from 0 to 200, scores are decreased by what is not negative. -/
def Op.Valid : Op → Prop
  | .updatePeer _ p => p.Fits ∧ 0 ≤ p.score.toInt ∧ p.score.toInt ≤ 200
  | .decreasePeerScore _ amount => 0 ≤ amount.toInt
  | _ => True

/-- The records of the database are those of the cache. -/
def Stored (db : SortedMap DbKey (List UInt8)) (c : PeerCache) : Prop :=
  ∀ k v, db.find? k = some v ↔ ∃ p, c.Holds p ∧ peerKey p.peerId = k ∧ p.encode = v

/-- The registry is what a new one on its database would be. -/
structure Exact (dec : PeerDecoder) (s : PeerRegistry) : Prop where
  stored : Stored s.db s.cache
  size : s.cache.size ≤ s.maxPeers
  scores : ∀ p, s.cache.Holds p → 0 ≤ p.score.toInt ∧ p.score.toInt ≤ 200
  best : s.bestHeight.val = s.cache.maxHeight
  reopened : (openDb dec s.db).cache = s.cache ∧ (openDb dec s.db).bestHeight = s.bestHeight

/-! ## Database and cache -/

theorem peerKey_inj (a b : AccountId) (h : peerKey a = peerKey b) : a = b :=
  AccountId.asBytes_inj a b (List.append_cancel_left (DbKey.mk.inj h))

theorem stored_insert (db : SortedMap DbKey (List UInt8)) (c : PeerCache) (p : PeerInfo) (h : Stored db c) :
    Stored (db.insert (peerKey p.peerId) p.encode) (c.insert p) := by
  intro k v
  rw [SortedMap.find?_insert]
  simp only [PeerCache.holds_insert]
  split
  · next hk =>
    rw [Option.some.injEq]
    constructor
    · rintro rfl
      exact ⟨p, .inl rfl, hk.symm, rfl⟩
    · rintro ⟨q, rfl | ⟨hne, -⟩, hkey, hv⟩
      · exact hv
      · exact absurd (peerKey_inj _ _ (hkey.trans hk)) hne
  · next hk =>
    rw [h k v]
    constructor
    · rintro ⟨q, hq, hkey, hv⟩
      have hne : q.peerId ≠ p.peerId := fun heq => hk (by rw [← hkey, heq])
      exact ⟨q, .inr ⟨hne, hq⟩, hkey, hv⟩
    · rintro ⟨q, rfl | ⟨-, hq⟩, hkey, hv⟩
      · exact absurd hkey.symm hk
      · exact ⟨q, hq, hkey, hv⟩

theorem stored_erase (db : SortedMap DbKey (List UInt8)) (c : PeerCache) (id : AccountId) (h : Stored db c) :
    Stored (db.erase (peerKey id)) (c.erase id) := by
  intro k v
  rw [SortedMap.find?_erase]
  simp only [PeerCache.holds_erase]
  split
  · next hk =>
    refine ⟨(fun hv => by cases hv), ?_⟩
    rintro ⟨q, ⟨hne, -⟩, hkey, -⟩
    exact absurd (peerKey_inj _ _ (hkey.trans hk)) hne
  · next hk =>
    rw [h k v]
    constructor
    · rintro ⟨q, hq, hkey, hv⟩
      have hne : q.peerId ≠ id := fun heq => hk (by rw [← hkey, heq])
      exact ⟨q, ⟨hne, hq⟩, hkey, hv⟩
    · rintro ⟨q, ⟨-, hq⟩, hkey, hv⟩
      exact ⟨q, hq, hkey, hv⟩

/-! ## Opening a database -/

theorem not_lt_prefix (id : AccountId) : ¬ peerKey id < ⟨prefixPeer⟩ := by
  change ¬ (prefixPeer ++ id.asBytes).map UInt8.toNat < prefixPeer.map UInt8.toNat
  rw [List.map_append]
  exact List.IsPrefix.le (List.prefix_append (prefixPeer.map UInt8.toNat) (id.asBytes.map UInt8.toNat))

theorem scan_of_stored (db : SortedMap DbKey (List UInt8)) (c : PeerCache) (h : Stored db c) :
    scan db = db.entries := by
  have hkey : ∀ e ∈ db.entries, ∃ id, e.1 = peerKey id := by
    intro e he
    obtain ⟨p, -, hk, -⟩ := (h e.1 e.2).mp ((db.mem_entries_iff e.1 e.2).mp he)
    exact ⟨p.peerId, hk.symm⟩
  have hdrop : (db.entries.dropWhile fun e => e.1 < ⟨prefixPeer⟩) = db.entries := by
    rw [List.dropWhile_eq_self_iff]
    intro hpos
    obtain ⟨id, hid⟩ := hkey _ (List.getElem_mem hpos)
    rw [hid, decide_eq_true_eq]
    exact not_lt_prefix id
  unfold scan
  rw [hdrop, List.takeWhile_eq_self_iff]
  intro e he
  obtain ⟨id, hid⟩ := hkey e he
  rw [hid, List.isPrefixOf_iff_prefix]
  exact List.prefix_append prefixPeer id.asBytes

/-- What has been loaded is part of what is stored. -/
structure Loading (c : PeerCache) (acc : PeerCache × Fin (2 ^ 64)) : Prop where
  sub : ∀ q, acc.1.Holds q → c.Holds q
  bound : ∀ q, acc.1.Holds q → q.height ≤ acc.2
  reached : acc.2 = 0 ∨ ∃ q, c.Holds q ∧ q.height = acc.2

theorem loading_loadPeer (dec : PeerDecoder) (c : PeerCache) (acc : PeerCache × Fin (2 ^ 64)) (p : PeerInfo)
    (hfits : p.Fits) (hp : c.Holds p) (h : Loading c acc) : Loading c (loadPeer dec acc p.encode) := by
  unfold loadPeer
  rw [dec.round_trip p hfits]
  refine ⟨fun q hq => ?_, fun q hq => ?_, ?_⟩
  · rcases (acc.1.holds_insert p q).mp hq with rfl | ⟨-, hold⟩
    · exact hp
    · exact h.sub q hold
  · rcases (acc.1.holds_insert p q).mp hq with rfl | ⟨-, hold⟩
    · dsimp only
      split <;> order
    · have := h.bound q hold
      dsimp only
      split <;> order
  · dsimp only
    split
    · exact .inr ⟨p, hp, rfl⟩
    · exact h.reached

/-- The stored records come back, whatever has been loaded before. -/
theorem loading_foldl (dec : PeerDecoder) (c : PeerCache) (l : List PeerInfo)
    (hfits : ∀ p ∈ l, p.Fits) (hl : ∀ p ∈ l, c.Holds p) (acc : PeerCache × Fin (2 ^ 64)) (h : Loading c acc) :
    Loading c ((l.map PeerInfo.encode).foldl (loadPeer dec) acc) ∧
      ∀ q, q ∈ l ∨ acc.1.Holds q → ((l.map PeerInfo.encode).foldl (loadPeer dec) acc).1.Holds q := by
  induction l generalizing acc with
  | nil => exact ⟨h, fun q hq => hq.resolve_left List.not_mem_nil⟩
  | cons p l ih =>
    have hp := hl p List.mem_cons_self
    have hpf := hfits p List.mem_cons_self
    have hnext := loading_loadPeer dec c acc p hpf hp h
    obtain ⟨hload, hall⟩ := ih (fun q hq => hfits q (List.mem_cons_of_mem p hq))
      (fun q hq => hl q (List.mem_cons_of_mem p hq)) _ hnext
    refine ⟨hload, fun q hq => hall q ?_⟩
    have hins : (loadPeer dec acc p.encode).1 = acc.1.insert p := by
      unfold loadPeer
      rw [dec.round_trip p hpf]
    rw [List.mem_cons] at hq
    rw [hins, PeerCache.holds_insert]
    rcases hq with (rfl | hq) | hold
    · exact .inr (.inl rfl)
    · exact .inl hq
    · by_cases hid : q.peerId = p.peerId
      · have heq : some q = some p := by
          rw [← h.sub q hold, hid]
          exact hp
        exact .inr (.inl (Option.some.inj heq))
      · exact .inr (.inr ⟨hid, hold⟩)

theorem values_of_stored (db : SortedMap DbKey (List UInt8)) (c : PeerCache) (h : Stored db c) :
    ∃ l : List PeerInfo, db.values = l.map PeerInfo.encode ∧ ∀ p ∈ l, c.Holds p := by
  have hall : ∀ v ∈ db.values, ∃ p, c.Holds p ∧ p.encode = v := by
    intro v hv
    obtain ⟨k, hk⟩ := (db.mem_values_iff v).mp hv
    obtain ⟨p, hp, -, hv⟩ := (h k v).mp hk
    exact ⟨p, hp, hv⟩
  generalize db.values = vs at hall
  induction vs with
  | nil => exact ⟨[], rfl, fun p hp => by cases hp⟩
  | cons v vs ih =>
    obtain ⟨l, rfl, hl⟩ := ih fun w hw => hall w (List.mem_cons_of_mem v hw)
    obtain ⟨p, hp, rfl⟩ := hall v List.mem_cons_self
    refine ⟨p :: l, rfl, fun q hq => ?_⟩
    rcases List.mem_cons.mp hq with rfl | hq
    · exact hp
    · exact hl q hq

/-- **A restart** gives the same peers, and their largest height. -/
theorem openDb_of_stored (dec : PeerDecoder) (db : SortedMap DbKey (List UInt8)) (c : PeerCache)
    (h : Stored db c) (hfits : ∀ q, c.Holds q → q.Fits) :
    (openDb dec db).cache = c ∧ (openDb dec db).bestHeight.val = c.maxHeight := by
  obtain ⟨l, hmap, hl⟩ := values_of_stored db c h
  have hopen : openDb dec db = match (l.map PeerInfo.encode).foldl (loadPeer dec) (.empty, 0) with
      | (cache, bestHeight) => { db := db, cache := cache, maxPeers := 10000, bestHeight := bestHeight } := by
    rw [← hmap]
    unfold openDb
    rw [scan_of_stored db c h]
    rfl
  have hempty : Loading c (.empty, 0) :=
    ⟨fun q hq => absurd hq (PeerCache.holds_empty q), fun q hq => absurd hq (PeerCache.holds_empty q), .inl rfl⟩
  obtain ⟨hload, hall⟩ := loading_foldl dec c l (fun p hp => hfits p (hl p hp)) hl _ hempty
  have hmem : ∀ q, c.Holds q → q ∈ l := by
    intro q hq
    have hv : q.encode ∈ db.values := (db.mem_values_iff _).mpr ⟨_, (h _ _).mpr ⟨q, hq, rfl, rfl⟩⟩
    rw [hmap, List.mem_map] at hv
    obtain ⟨p, hp, heq⟩ := hv
    have hpq : some p = some q := by
      rw [← dec.round_trip p (hfits p (hl p hp)), heq, dec.round_trip q (hfits q hq)]
    exact Option.some.inj hpq ▸ hp
  have hcache : (openDb dec db).cache = c := by
    rw [hopen]
    exact PeerCache.ext_holds _ _ fun q => ⟨hload.sub q, fun hq => hall q (.inl (hmem q hq))⟩
  refine ⟨hcache, ?_⟩
  rw [hopen] at hcache ⊢
  dsimp only at hcache ⊢
  rw [PeerCache.maxHeight_eq_iff]
  · refine hload.reached.imp (fun h0 => by rw [h0]; rfl) ?_
    rintro ⟨q, hq, heq⟩
    exact ⟨q, hq, congrArg Fin.val heq⟩
  · intro q hq
    exact hload.bound q (hcache ▸ hq)

/-! ## Scores -/

theorem toInt_min (a b : Int32) : (min a b).toInt = min a.toInt b.toInt := by
  change (if a ≤ b then a else b).toInt = min a.toInt b.toInt
  simp only [Int32.le_iff_toInt_le]
  split <;> omega

theorem toInt_max (a b : Int32) : (max a b).toInt = max a.toInt b.toInt := by
  change (if a ≤ b then b else a).toInt = max a.toInt b.toInt
  simp only [Int32.le_iff_toInt_le]
  split <;> omega

theorem score_increased (x : Int32) (h0 : 0 ≤ x.toInt) (h1 : x.toInt ≤ 200) :
    0 ≤ (min (x + 1) 200).toInt ∧ (min (x + 1) 200).toInt ≤ 200 := by
  have hadd : (x + 1).toInt = x.toInt + 1 := by
    rw [Int32.toInt_add, show (1 : Int32).toInt = 1 by decide]
    exact Int.bmod_eq_of_le (by omega) (by omega)
  rw [toInt_min, hadd, show (200 : Int32).toInt = 200 by decide]
  omega

theorem score_decreased (x amount : Int32) (h0 : 0 ≤ x.toInt) (h1 : x.toInt ≤ 200) (ha : 0 ≤ amount.toInt) :
    0 ≤ (max (x - amount) 0).toInt ∧ (max (x - amount) 0).toInt ≤ 200 := by
  have hsub : (x - amount).toInt = x.toInt - amount.toInt := by
    have := amount.toInt_lt
    rw [Int32.toInt_sub]
    exact Int.bmod_eq_of_le (by omega) (by omega)
  rw [toInt_max, hsub, show (0 : Int32).toInt = 0 by decide]
  omega

/-! ## What the operations leave -/

/-- The peer that an update drops for want of room. -/
def evicted (order : IterOrder (AccountId × PeerInfo)) (s : PeerRegistry) (p : PeerInfo) : Option AccountId :=
  if (s.putPeer p).cache.size > s.maxPeers then lowestScoring order (s.putPeer p).cache else none

theorem peerId_scored (s : PeerRegistry) (p : PeerInfo) : (s.scored p).peerId = p.peerId := by
  unfold scored
  split <;> rfl

theorem height_scored (s : PeerRegistry) (p : PeerInfo) : (s.scored p).height = p.height := by
  unfold scored
  split <;> rfl

theorem fits_scored (s : PeerRegistry) (p : PeerInfo) (h : p.Fits) : (s.scored p).Fits := by
  unfold scored
  split
  · exact ⟨h.libp2pPeerId, h.addresses, h.region⟩
  · exact h

theorem lowestScoring_isSome (order : IterOrder (AccountId × PeerInfo)) (c : PeerCache) (h : 0 < c.size) :
    ∃ id p, lowestScoring order c = some id ∧ c.get id = some p := by
  unfold lowestScoring
  cases hsort : (order.iter c.peers.entries).insertionSort fun a b => a.2.score ≤ b.2.score with
  | nil =>
    have hlen := congrArg List.length hsort
    rw [List.length_insertionSort, (order.perm _).length_eq, List.length_nil] at hlen
    exact absurd hlen h.ne'
  | cons e l =>
    have hmem : e ∈ c.peers.entries := by
      rw [← (order.perm _).mem_iff, ← List.mem_insertionSort fun a b => a.2.score ≤ b.2.score, hsort]
      exact List.mem_cons_self
    exact ⟨e.1, e.2, rfl, (c.peers.mem_entries_iff e.1 e.2).mp hmem⟩

/-- An update is a put and the removal of the peer that is evicted. -/
theorem updatePeer_eq (order : IterOrder (AccountId × PeerInfo)) (s : PeerRegistry) (p : PeerInfo) :
    s.updatePeer order p = (s.evicted order p).elim (s.putPeer p) (s.putPeer p).removePeer := by
  unfold updatePeer evicted
  split
  · unfold evictLowestScoringPeer
    cases lowestScoring order (s.putPeer p).cache <;> rfl
  · rfl

theorem holds_updatePeer (order : IterOrder (AccountId × PeerInfo)) (s : PeerRegistry) (p q : PeerInfo) :
    (s.updatePeer order p).cache.Holds q ↔
      (q = s.scored p ∨ q.peerId ≠ p.peerId ∧ s.cache.Holds q) ∧ s.evicted order p ≠ some q.peerId := by
  rw [← peerId_scored s p, ← PeerCache.holds_insert, updatePeer_eq]
  cases s.evicted order p with
  | none => exact ⟨fun h => ⟨h, by simp⟩, And.left⟩
  | some id =>
    refine ((s.putPeer p).cache.holds_erase id q).trans (and_comm.trans (and_congr_right' ?_))
    rw [ne_eq, ne_eq, Option.some.injEq, eq_comm]

theorem bestHeight_updatePeer (order : IterOrder (AccountId × PeerInfo)) (s : PeerRegistry) (p : PeerInfo) :
    (s.updatePeer order p).bestHeight = max s.bestHeight p.height := by
  have hput : (s.putPeer p).bestHeight = max s.bestHeight p.height := by
    unfold putPeer
    dsimp only
    split
    · next h => exact (max_eq_right h.le).symm
    · next h => exact (max_eq_left (not_lt.mp h)).symm
  rw [updatePeer_eq, ← hput]
  cases s.evicted order p <;> rfl

theorem holds_removePeers (ids : List AccountId) (s : PeerRegistry) (q : PeerInfo) :
    (ids.foldl removePeer s).cache.Holds q ↔ q.peerId ∉ ids ∧ s.cache.Holds q := by
  induction ids generalizing s with
  | nil => simp
  | cons id ids ih =>
    rw [List.foldl_cons, ih, removePeer, PeerCache.holds_erase, List.mem_cons, not_or]
    tauto

theorem bestHeight_removePeers (ids : List AccountId) (s : PeerRegistry) :
    (ids.foldl removePeer s).bestHeight = s.bestHeight := by
  induction ids generalizing s with
  | nil => rfl
  | cons id ids ih => exact ih _

theorem mem_staleIds (order : IterOrder (AccountId × PeerInfo)) (s : PeerRegistry) (now timeoutSecs : Nat)
    (q : PeerInfo) (hq : s.cache.Holds q) :
    q.peerId ∈ ((order.iter s.cache.peers.entries).filter fun e => e.2.isStale now timeoutSecs).map Prod.fst ↔
      q.isStale now timeoutSecs = true := by
  rw [List.mem_map]
  constructor
  · rintro ⟨⟨id, r⟩, he, heq⟩
    obtain ⟨hmem, hstale⟩ := List.mem_filter.mp he
    obtain ⟨hr, hid⟩ := (s.cache.mem_entries id r).mp ((order.mem_iter _ _).mp hmem)
    have hsame : some r = some q := by
      rw [← hr, ← hq, hid]
      exact congrArg s.cache.get heq
    exact Option.some.inj hsame ▸ hstale
  · intro hstale
    exact ⟨(q.peerId, q), List.mem_filter.mpr
      ⟨(order.mem_iter _ _).mpr ((s.cache.mem_entries _ q).mpr ⟨hq, rfl⟩), hstale⟩, rfl⟩

theorem holds_removeStalePeers (order : IterOrder (AccountId × PeerInfo)) (s : PeerRegistry)
    (now timeoutSecs : Nat) (q : PeerInfo) :
    (s.removeStalePeers order now timeoutSecs).1.cache.Holds q ↔
      q.isStale now timeoutSecs = false ∧ s.cache.Holds q := by
  refine (holds_removePeers _ s q).trans (and_congr_left fun hq => ?_)
  rw [mem_staleIds order s now timeoutSecs q hq, Bool.not_eq_true]

/-! ## What always holds -/

/-- Everything but the best height, which is only an upper bound. -/
structure Sound (s : PeerRegistry) : Prop where
  stored : Stored s.db s.cache
  size : s.cache.size ≤ s.maxPeers
  capacity : s.maxPeers = 10000
  scores : ∀ p, s.cache.Holds p → 0 ≤ p.score.toInt ∧ p.score.toInt ≤ 200
  fits : ∀ p, s.cache.Holds p → p.Fits
  bound : ∀ p, s.cache.Holds p → p.height ≤ s.bestHeight

theorem sound_removePeer (s : PeerRegistry) (id : AccountId) (h : s.Sound) : (s.removePeer id).Sound where
  stored := stored_erase s.db s.cache id h.stored
  size := (SortedMap.size_erase_le s.cache.peers id).trans h.size
  capacity := h.capacity
  scores q hq := h.scores q ((s.cache.holds_erase id q).mp hq).2
  fits q hq := h.fits q ((s.cache.holds_erase id q).mp hq).2
  bound q hq := h.bound q ((s.cache.holds_erase id q).mp hq).2

theorem sound_removeStalePeers (order : IterOrder (AccountId × PeerInfo)) (s : PeerRegistry)
    (now timeoutSecs : Nat) (h : s.Sound) : (s.removeStalePeers order now timeoutSecs).1.Sound := by
  unfold removeStalePeers
  dsimp only
  generalize ((order.iter s.cache.peers.entries).filter fun e => e.2.isStale now timeoutSecs).map Prod.fst = ids
  induction ids generalizing s with
  | nil => exact h
  | cons id ids ih => exact ih _ (sound_removePeer s id h)

theorem size_updatePeer (order : IterOrder (AccountId × PeerInfo)) (s : PeerRegistry) (p : PeerInfo)
    (h : s.cache.size ≤ s.maxPeers) : (s.updatePeer order p).cache.size ≤ s.maxPeers := by
  have hput : (s.putPeer p).cache.size ≤ s.cache.size + 1 := s.cache.size_insert_le (s.scored p)
  unfold updatePeer
  split
  · next hfull =>
    obtain ⟨id, q, hid, hq⟩ := lowestScoring_isSome order (s.putPeer p).cache (Nat.zero_lt_of_lt hfull)
    have hsize := SortedMap.size_erase_of_some (s.putPeer p).cache.peers id q hq
    unfold evictLowestScoringPeer
    rw [hid]
    change ((s.putPeer p).cache.peers.erase id).size ≤ s.maxPeers
    unfold PeerCache.size at hput h
    omega
  · next hroom => exact Nat.le_of_not_lt hroom

theorem sound_updatePeer (order : IterOrder (AccountId × PeerInfo)) (s : PeerRegistry) (p : PeerInfo)
    (h : s.Sound) (hv : (Op.updatePeer order p).Valid) : (s.updatePeer order p).Sound where
  stored := by
    have hput : Stored (s.putPeer p).db (s.putPeer p).cache := by
      have := stored_insert s.db s.cache (s.scored p) h.stored
      rw [peerId_scored] at this
      exact this
    rw [updatePeer_eq]
    cases s.evicted order p with
    | none => exact hput
    | some id => exact stored_erase _ _ id hput
  size := by
    have := size_updatePeer order s p h.size
    rw [updatePeer_eq] at this ⊢
    cases hev : s.evicted order p <;> rw [hev] at this <;> exact this
  capacity := by
    rw [updatePeer_eq]
    cases s.evicted order p <;> exact h.capacity
  scores q hq := by
    rcases ((holds_updatePeer order s p q).mp hq).1 with rfl | ⟨-, hold⟩
    · unfold scored
      split
      · next existing hget =>
        have := h.scores existing (s.cache.holds_of_get _ existing hget).1
        exact score_increased existing.score this.1 this.2
      · exact hv.2
    · exact h.scores q hold
  fits q hq := by
    rcases ((holds_updatePeer order s p q).mp hq).1 with rfl | ⟨-, hold⟩
    · exact fits_scored s p hv.1
    · exact h.fits q hold
  bound q hq := by
    rw [bestHeight_updatePeer]
    rcases ((holds_updatePeer order s p q).mp hq).1 with rfl | ⟨-, hold⟩
    · rw [height_scored]
      exact le_max_right _ _
    · exact (h.bound q hold).trans (le_max_left _ _)

/-- A peer whose score is decreased keeps all the rest. -/
theorem decreasePeerScore_cases (s : PeerRegistry) (id : AccountId) (amount : Int32) :
    s.decreasePeerScore id amount = s ∨ ∃ p, s.cache.Holds p ∧ p.peerId = id ∧
      s.decreasePeerScore id amount = { s with
        cache := s.cache.insert { p with score := max (p.score - amount) 0 }
        db := s.db.insert (peerKey id) ({ p with score := max (p.score - amount) 0 } : PeerInfo).encode } := by
  unfold decreasePeerScore
  split
  · next p hp =>
    obtain ⟨hold, hid⟩ := s.cache.holds_of_get id p hp
    exact .inr ⟨p, hold, hid, rfl⟩
  · exact .inl rfl

theorem sound_decreasePeerScore (s : PeerRegistry) (id : AccountId) (amount : Int32) (h : s.Sound)
    (hv : (Op.decreasePeerScore id amount).Valid) : (s.decreasePeerScore id amount).Sound := by
  obtain heq | ⟨p, hold, rfl, heq⟩ := decreasePeerScore_cases s id amount
  · rw [heq]
    exact h
  · rw [heq]
    have hscore := h.scores p hold
    refine ⟨stored_insert s.db s.cache { p with score := max (p.score - amount) 0 } h.stored, ?_, h.capacity,
      fun q hq => ?_, fun q hq => ?_, fun q hq => ?_⟩
    · exact (s.cache.size_insert_of_get { p with score := max (p.score - amount) 0 } p hold).trans_le h.size
    · rcases (s.cache.holds_insert _ q).mp hq with rfl | ⟨-, hold⟩
      · exact score_decreased p.score amount hscore.1 hscore.2 hv
      · exact h.scores q hold
    · rcases (s.cache.holds_insert _ q).mp hq with rfl | ⟨-, hold'⟩
      · exact ⟨(h.fits p hold).libp2pPeerId, (h.fits p hold).addresses, (h.fits p hold).region⟩
      · exact h.fits q hold'
    · rcases (s.cache.holds_insert _ q).mp hq with rfl | ⟨-, hold'⟩
      · exact h.bound p hold
      · exact h.bound q hold'

theorem sound_openDb (dec : PeerDecoder) (db : SortedMap DbKey (List UInt8)) (c : PeerCache)
    (hstored : Stored db c) (hsize : c.size ≤ 10000)
    (hscores : ∀ p, c.Holds p → 0 ≤ p.score.toInt ∧ p.score.toInt ≤ 200) (hfits : ∀ p, c.Holds p → p.Fits) :
    (openDb dec db).Sound := by
  obtain ⟨hcache, hbest⟩ := openDb_of_stored dec db c hstored hfits
  refine ⟨hcache ▸ hstored, hcache ▸ hsize, rfl, hcache ▸ hscores, hcache ▸ hfits, fun p hp => ?_⟩
  rw [hcache] at hp
  rw [Fin.le_def, hbest]
  exact List.le_max_of_le (List.mem_map_of_mem ((c.mem_values p).mpr hp)) le_rfl

theorem sound_step (dec : PeerDecoder) (s : PeerRegistry) (op : Op) (h : s.Sound) (hv : op.Valid) :
    (step dec s op).Sound := by
  cases op with
  | updatePeer order p => exact sound_updatePeer order s p h hv
  | decreasePeerScore id amount => exact sound_decreasePeerScore s id amount h hv
  | removePeer id => exact sound_removePeer s id h
  | removeStalePeers order now timeoutSecs => exact sound_removeStalePeers order s now timeoutSecs h
  | restart => exact sound_openDb dec s.db s.cache h.stored (h.capacity ▸ h.size) h.scores h.fits

/-- A registry on a new database. -/
def fresh (dec : PeerDecoder) : PeerRegistry := openDb dec .empty

theorem stored_empty : Stored .empty .empty := by
  intro k v
  refine ⟨(fun h => by cases h), ?_⟩
  rintro ⟨p, hp, -, -⟩
  exact absurd hp (PeerCache.holds_empty p)

theorem sound_fresh (dec : PeerDecoder) : (fresh dec).Sound :=
  sound_openDb dec _ _ stored_empty (Nat.zero_le _) (fun p hp => absurd hp (PeerCache.holds_empty p))
    fun p hp => absurd hp (PeerCache.holds_empty p)

/-- **Cache and database agree**, capacity and scores are kept, in every run. -/
theorem sound_run (dec : PeerDecoder) (ops : List Op) (hv : ∀ op ∈ ops, op.Valid) :
    (ops.foldl (step dec) (fresh dec)).Sound :=
  Run.inv_foldl (step dec) (fun _ op => op.Valid) Sound (fun s op h hop => sound_step dec s op h hop) _ ops
    (sound_fresh dec) (Run.meets_of_mem (step dec) Op.Valid _ ops hv)

/-! ## The best height -/

theorem exact_iff (dec : PeerDecoder) (s : PeerRegistry) (h : s.Sound) :
    s.Exact dec ↔ s.bestHeight = 0 ∨ ∃ q, s.cache.Holds q ∧ q.height = s.bestHeight := by
  have hbest := PeerCache.maxHeight_eq_iff s.cache s.bestHeight.val fun q hq => h.bound q hq
  simp only [Fin.val_inj, Fin.val_eq_zero_iff] at hbest
  rw [← hbest]
  refine ⟨Exact.best, fun hb => ⟨h.stored, h.size, h.scores, hb, ?_⟩⟩
  obtain ⟨hcache, hreopened⟩ := openDb_of_stored dec s.db s.cache h.stored h.fits
  exact ⟨hcache, Fin.ext (hreopened.trans hb.symm)⟩

/-- The operation leaves a peer that has the best height, or this is 0: the peer that reports it, if
it is not evicted at once, or one that had it and is not removed, replaced or evicted. -/
def KeepsTop (s : PeerRegistry) : Op → Prop
  | .updatePeer order p =>
    max s.bestHeight p.height = 0 ∨ s.bestHeight ≤ p.height ∧ s.evicted order p ≠ some p.peerId ∨
      p.height ≤ s.bestHeight ∧ ∃ q, s.cache.Holds q ∧ q.height = s.bestHeight ∧ q.peerId ≠ p.peerId ∧
        s.evicted order p ≠ some q.peerId
  | .decreasePeerScore _ _ => True
  | .removePeer id => s.bestHeight = 0 ∨ ∃ q, s.cache.Holds q ∧ q.height = s.bestHeight ∧ q.peerId ≠ id
  | .removeStalePeers _ now timeoutSecs =>
    s.bestHeight = 0 ∨ ∃ q, s.cache.Holds q ∧ q.height = s.bestHeight ∧ q.isStale now timeoutSecs = false
  | .restart => True

theorem top_updatePeer_iff (order : IterOrder (AccountId × PeerInfo)) (s : PeerRegistry) (p : PeerInfo)
    (h : s.Sound) : ((s.updatePeer order p).bestHeight = 0 ∨
      ∃ q, (s.updatePeer order p).cache.Holds q ∧ q.height = (s.updatePeer order p).bestHeight) ↔
      s.KeepsTop (.updatePeer order p) := by
  rw [bestHeight_updatePeer]
  refine or_congr_right ?_
  simp only [holds_updatePeer]
  constructor
  · rintro ⟨q, ⟨rfl | ⟨hne, hold⟩, hstays⟩, heq⟩
    · rw [height_scored] at heq
      rw [peerId_scored] at hstays
      exact .inl ⟨heq ▸ le_max_left _ _, hstays⟩
    · have hq := h.bound q hold
      have htop : q.height = s.bestHeight := le_antisymm hq (heq ▸ le_max_left _ _)
      exact .inr ⟨htop ▸ heq ▸ le_max_right _ _, q, hold, htop, hne, hstays⟩
  · rintro (⟨hle, hstays⟩ | ⟨hle, q, hold, heq, hne, hstays⟩)
    · refine ⟨s.scored p, ⟨.inl rfl, ?_⟩, ?_⟩
      · rw [peerId_scored]
        exact hstays
      · rw [height_scored, max_eq_right hle]
    · exact ⟨q, ⟨.inr ⟨hne, hold⟩, hstays⟩, by rw [heq, max_eq_left hle]⟩

theorem exact_step_iff (dec : PeerDecoder) (s : PeerRegistry) (op : Op) (h : s.Sound) (hv : op.Valid)
    (hs : s.Exact dec) : (step dec s op).Exact dec ↔ s.KeepsTop op := by
  rw [exact_iff dec _ (sound_step dec s op h hv)]
  cases op with
  | updatePeer order p => exact top_updatePeer_iff order s p h
  | decreasePeerScore id amount =>
    refine iff_of_true ?_ trivial
    have htop := (exact_iff dec s h).mp hs
    change (s.decreasePeerScore id amount).bestHeight = 0 ∨ ∃ q, (s.decreasePeerScore id amount).cache.Holds q ∧
      q.height = (s.decreasePeerScore id amount).bestHeight
    obtain heq | ⟨p, hold, rfl, heq⟩ := decreasePeerScore_cases s id amount
    · rw [heq]
      exact htop
    · rw [heq]
      refine htop.imp_right ?_
      rintro ⟨q, hq, htop⟩
      by_cases hid : q.peerId = p.peerId
      · have hqp : some q = some p := by
          rw [← hq, hid]
          exact hold
        rw [Option.some.inj hqp] at htop
        exact ⟨_, (s.cache.holds_insert _ _).mpr (.inl rfl), htop⟩
      · exact ⟨q, (s.cache.holds_insert _ _).mpr (.inr ⟨hid, hq⟩), htop⟩
  | removePeer id =>
    refine or_congr_right (exists_congr fun q => ?_)
    refine (and_congr_left' (s.cache.holds_erase id q)).trans ?_
    change (q.peerId ≠ id ∧ s.cache.Holds q) ∧ q.height = s.bestHeight ↔ _
    tauto
  | removeStalePeers order now timeoutSecs =>
    have hbest : (step dec s (.removeStalePeers order now timeoutSecs)).bestHeight = s.bestHeight :=
      bestHeight_removePeers _ s
    rw [hbest]
    refine or_congr_right (exists_congr fun q => ?_)
    refine (and_congr_left' (holds_removeStalePeers order s now timeoutSecs q)).trans ?_
    tauto
  | restart =>
    refine iff_of_true ?_ trivial
    have hopened := sound_step dec s .restart h hv
    obtain ⟨hcache, hreopened⟩ := openDb_of_stored dec s.db s.cache h.stored h.fits
    rw [← exact_iff dec _ hopened]
    exact ⟨hopened.stored, hopened.size, hopened.scores, hreopened.trans (congrArg _ hcache).symm, rfl, rfl⟩

/-- The decoder that inverts the encoding. -/
noncomputable def inverse : PeerDecoder := by
  classical
  exact {
    deserialize := fun b => if h : ∃ p : PeerInfo, p.Fits ∧ p.encode = b then some h.choose else none
    round_trip := by
      intro p hp
      have h : ∃ q : PeerInfo, q.Fits ∧ q.encode = p.encode := ⟨p, hp, rfl⟩
      rw [dif_pos h, Option.some.injEq]
      exact PeerInfo.prefixFree.inj _ _ h.choose_spec.1 hp h.choose_spec.2 }

def samplePeer (id height : Nat) : PeerInfo :=
  ⟨⟨Fin.ofNat _ id⟩, "", ["/ip4/192.168.1.1/tcp/30333"], 1000, Fin.ofNat _ height, false, 100, some "EU", 1⟩

theorem samplePeer_valid (order : IterOrder (AccountId × PeerInfo)) (id height : Nat) :
    (Op.updatePeer order (samplePeer id height)).Valid := by
  have haddress : FitsString "/ip4/192.168.1.1/tcp/30333" := by
    unfold FitsString
    decide +kernel
  have hregion : FitsString "EU" := by
    unfold FitsString
    decide +kernel
  have hempty : FitsString "" := by
    unfold FitsString
    decide +kernel
  have hscore : (100 : Int32).toInt = 100 := by decide
  refine ⟨⟨hempty, ⟨Nat.one_lt_two_pow (by decide), fun a ha => ?_⟩, fun r hr => ?_⟩, ?_, ?_⟩
  · rw [List.mem_singleton.mp ha]
    exact haddress
  · rw [← Option.some.inj hr]
    exact hregion
  · exact hscore.ge.trans' (by decide)
  · exact hscore.le.trans (by decide)

/-- Of two peers with the best height one leaves. -/
def sampleRun : List Op := [.updatePeer .stored (samplePeer 1 500), .updatePeer .stored (samplePeer 2 300),
  .updatePeer .stored (samplePeer 3 500), .removePeer ⟨1⟩, .restart]

/-- The only peer with the best height leaves. -/
def topLeaves : List Op := [.updatePeer .stored (samplePeer 1 300), .updatePeer .stored (samplePeer 2 500),
  .removePeer ⟨2⟩]

/-- **The best height** is exact throughout a run, and survives a restart after every step, exactly
if every operation leaves a peer that has it. -/
theorem best_height_iff (dec : PeerDecoder) (ops : List Op) (hv : ∀ op ∈ ops, op.Valid) :
    (∀ k, ((ops.take k).foldl (step dec) (fresh dec)).Exact dec) ↔
      Run.Meets (step dec) KeepsTop (fresh dec) ops :=
  Run.good_take_iff (step dec) (fun _ op => op.Valid) KeepsTop Sound (Exact dec)
    (fun s op h hop => sound_step dec s op h hop) (fun s op h hop hs => exact_step_iff dec s op h hop hs) _ ops
    (sound_fresh dec) ((exact_iff dec _ (sound_fresh dec)).mpr (.inl rfl))
    (Run.meets_of_mem (step dec) Op.Valid _ ops hv)

theorem best_height_sample : ((sampleRun.take 4).foldl (step inverse) (fresh inverse)).Exact inverse := by
  have hv : ∀ op ∈ sampleRun, op.Valid := by
    intro op hop
    simp only [sampleRun, List.mem_cons, List.not_mem_nil, or_false] at hop
    rcases hop with rfl | rfl | rfl | rfl | rfl
    · exact samplePeer_valid .stored 1 500
    · exact samplePeer_valid .stored 2 300
    · exact samplePeer_valid .stored 3 500
    · trivial
    · trivial
  refine (best_height_iff inverse sampleRun hv).mpr ⟨?_, ?_, ?_, ?_, trivial, trivial⟩ 4
  · exact .inr (.inl (by decide +kernel))
  · exact .inr (.inr ⟨by decide +kernel, samplePeer 1 500, by decide +kernel⟩)
  · exact .inr (.inl (by decide +kernel))
  · exact .inr ⟨samplePeer 3 500, by decide +kernel⟩

/-- It still counts, until the restart. -/
theorem best_height_removed : (topLeaves.foldl (step inverse) (fresh inverse)).bestHeight = 500 ∧
    (topLeaves.foldl (step inverse) (fresh inverse)).cache.maxHeight = 300 ∧
    ¬ (topLeaves.foldl (step inverse) (fresh inverse)).Exact inverse := by
  have hbest : (topLeaves.foldl (step inverse) (fresh inverse)).bestHeight = 500 := by decide +kernel
  have hmax : (topLeaves.foldl (step inverse) (fresh inverse)).cache.maxHeight = 300 := by decide +kernel
  refine ⟨hbest, hmax, fun h => ?_⟩
  have := h.best
  rw [hbest, hmax] at this
  exact absurd this (by decide)

end PeerRegistry

end Kratos.DnsSeed
