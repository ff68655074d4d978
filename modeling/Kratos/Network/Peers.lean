import Kratos.Lib.FirstMax
import Kratos.Lib.IterOrder
import Kratos.Lib.Run
import Kratos.Lib.SortedMap

/-!
# Peers

What the node knows of its peers: their connection state, a score that good and bad
messages move and time pulls back to its start, and the height they claim.  A ban is a
value of the connection state, and the events of the connection write that field too:
`ban_peer` lasts until the next of them (`banned_iff`).

Peer ids and addresses are the network library's.  Times are nanoseconds; a call sees
one time.  Counters wrap around.
-/

namespace Kratos

def maxPeers : Nat := 50
def peerTimeout : Nat := 30 * 10 ^ 9
def scoreDecayInterval : Nat := 60 * 10 ^ 9
def staleThreshold : Nat := 3600 * 10 ^ 9
def initialScore : Int := 100
def minScore : Int := -100
def goodBlockScore : Int := 5
def badBlockScore : Int := -50
def goodTxScore : Int := 1
def badTxScore : Int := -10

/-- Saturation at the bounds of an `i32`. -/
def clampI32 (x : Int) : Int := max (-2 ^ 31) (min x (2 ^ 31 - 1))

inductive PeerState where
  | connecting
  | connected
  | disconnected
  | banned
deriving DecidableEq, Repr

structure PeerInfo (PeerId Addr : Type) where
  id : PeerId
  state : PeerState
  score : Int
  bestHeight : Nat
  firstSeen : Nat
  lastSeen : Nat
  blocksReceived : Nat
  transactionsReceived : Nat
  failedRequests : Nat
  invalidMessages : Nat
  isBootstrap : Bool
  addresses : List Addr
  latencyMs : Option Nat
deriving DecidableEq, Repr

namespace PeerInfo

variable {PeerId Addr : Type}

def new (now : Nat) (id : PeerId) : PeerInfo PeerId Addr :=
  { id, state := .connecting, score := initialScore, bestHeight := 0, firstSeen := now, lastSeen := now
    blocksReceived := 0, transactionsReceived := 0, failedRequests := 0, invalidMessages := 0
    isBootstrap := false, addresses := [], latencyMs := none }

def bootstrap (now : Nat) (id : PeerId) (addr : Addr) : PeerInfo PeerId Addr :=
  { (new now id : PeerInfo PeerId Addr) with isBootstrap := true, addresses := [addr] }

def touch (now : Nat) (i : PeerInfo PeerId Addr) : PeerInfo PeerId Addr := { i with lastSeen := now }

def isActive (i : PeerInfo PeerId Addr) : Bool := i.state = .connected

def shouldDisconnect (i : PeerInfo PeerId Addr) : Bool := i.score < minScore ∨ i.state = .banned

def isStale (now : Nat) (i : PeerInfo PeerId Addr) : Bool := now - i.lastSeen > peerTimeout

def goodBlock (now : Nat) (i : PeerInfo PeerId Addr) : PeerInfo PeerId Addr :=
  { i with score := clampI32 (i.score + goodBlockScore), blocksReceived := (i.blocksReceived + 1) % 2 ^ 64 }.touch now

def badBlock (now : Nat) (i : PeerInfo PeerId Addr) : PeerInfo PeerId Addr :=
  { i with score := clampI32 (i.score - |badBlockScore|)
           invalidMessages := (i.invalidMessages + 1) % 2 ^ 32 }.touch now

def goodTransaction (now : Nat) (i : PeerInfo PeerId Addr) : PeerInfo PeerId Addr :=
  { i with score := clampI32 (i.score + goodTxScore)
           transactionsReceived := (i.transactionsReceived + 1) % 2 ^ 64 }.touch now

def badTransaction (now : Nat) (i : PeerInfo PeerId Addr) : PeerInfo PeerId Addr :=
  { i with score := clampI32 (i.score - |badTxScore|)
           invalidMessages := (i.invalidMessages + 1) % 2 ^ 32 }.touch now

def updateHeight (now height : Nat) (i : PeerInfo PeerId Addr) : PeerInfo PeerId Addr :=
  if height > i.bestHeight then { i with bestHeight := height }.touch now else i

/-- One step of the score toward its start. -/
def decay (i : PeerInfo PeerId Addr) : PeerInfo PeerId Addr :=
  if i.score > initialScore then { i with score := i.score - 1 }
  else if i.score < initialScore then { i with score := i.score + 1 }
  else i

theorem id_decay (i : PeerInfo PeerId Addr) : i.decay.id = i.id := by
  unfold decay
  split_ifs <;> rfl

theorem state_decay (i : PeerInfo PeerId Addr) : i.decay.state = i.state := by
  unfold decay
  split_ifs <;> rfl

theorem id_updateHeight (now height : Nat) (i : PeerInfo PeerId Addr) :
    (i.updateHeight now height).id = i.id := by
  unfold updateHeight
  split <;> rfl

theorem state_updateHeight (now height : Nat) (i : PeerInfo PeerId Addr) :
    (i.updateHeight now height).state = i.state := by
  unfold updateHeight
  split <;> rfl

end PeerInfo

structure PeerManager (PeerId Addr : Type) [LinearOrder PeerId] where
  peers : SortedMap PeerId (PeerInfo PeerId Addr)
  bootstrapNodes : List (PeerId × Addr)
  maxPeers : Nat
  lastDecay : Nat

namespace PeerManager

variable {PeerId Addr : Type} [LinearOrder PeerId]

def new (now : Nat) : PeerManager PeerId Addr :=
  { peers := .empty, bootstrapNodes := [], maxPeers := Kratos.maxPeers, lastDecay := now }

def addBootstrapNode (now : Nat) (s : PeerManager PeerId Addr) (node : PeerId × Addr) : PeerManager PeerId Addr :=
  { s with
    peers :=
      if s.peers.contains node.1 then s.peers
      else s.peers.insert node.1 (PeerInfo.bootstrap now node.1 node.2)
    bootstrapNodes := s.bootstrapNodes ++ [node] }

def addBootstrapNodes (now : Nat) (s : PeerManager PeerId Addr) (nodes : List (PeerId × Addr)) :
    PeerManager PeerId Addr :=
  nodes.foldl (addBootstrapNode now) s

/-- `entry(..).or_insert_with(..)` followed by a change of the entry. -/
def entryWith (now : Nat) (s : PeerManager PeerId Addr) (peerId : PeerId)
    (f : PeerInfo PeerId Addr → PeerInfo PeerId Addr) : PeerManager PeerId Addr :=
  { s with peers := s.peers.insert peerId (f ((s.peers.find? peerId).getD (PeerInfo.new now peerId))) }

/-- A change of the entry if there is one. -/
def getMutWith (s : PeerManager PeerId Addr) (peerId : PeerId) (f : PeerInfo PeerId Addr → PeerInfo PeerId Addr) :
    PeerManager PeerId Addr :=
  match s.peers.find? peerId with
  | none => s
  | some info => { s with peers := s.peers.insert peerId (f info) }

def peerConnected (now : Nat) (s : PeerManager PeerId Addr) (peerId : PeerId) : PeerManager PeerId Addr :=
  s.entryWith now peerId fun info => { info with state := .connected }.touch now

def peerDisconnected (s : PeerManager PeerId Addr) (peerId : PeerId) : PeerManager PeerId Addr :=
  s.getMutWith peerId fun info => { info with state := .disconnected }

def addPeerAddress [DecidableEq Addr] (now : Nat) (s : PeerManager PeerId Addr) (peerId : PeerId) (addr : Addr) :
    PeerManager PeerId Addr :=
  s.entryWith now peerId fun info =>
    if addr ∈ info.addresses then info else { info with addresses := info.addresses ++ [addr] }

/-- The map is iterated in some order. -/
def connectedPeers (o : IterOrder (PeerInfo PeerId Addr)) (s : PeerManager PeerId Addr) :
    List (PeerInfo PeerId Addr) :=
  (o.iter s.peers.values).filter PeerInfo.isActive

def isConnected (s : PeerManager PeerId Addr) (peerId : PeerId) : Bool :=
  ((s.peers.find? peerId).map PeerInfo.isActive).getD false

/-- `max_by_key` keeps the last of the largest. -/
def bestSyncPeer (o : IterOrder (PeerInfo PeerId Addr)) (s : PeerManager PeerId Addr) :
    Option (PeerInfo PeerId Addr) :=
  firstMax (fun p => toLex (p.bestHeight, p.score))
    ((o.iter s.peers.values).filter fun p => p.isActive && decide (p.bestHeight > 0)).reverse

def peersToDisconnect (o : IterOrder (PeerInfo PeerId Addr)) (now : Nat) (s : PeerManager PeerId Addr) : List PeerId :=
  ((o.iter s.peers.values).filter fun p => p.shouldDisconnect || (p.isActive && p.isStale now)).map PeerInfo.id

def banPeer (s : PeerManager PeerId Addr) (peerId : PeerId) : PeerManager PeerId Addr :=
  s.getMutWith peerId fun info => { info with state := .banned, score := minScore - 1 }

def updatePeerHeight (now : Nat) (s : PeerManager PeerId Addr) (peerId : PeerId) (height : Nat) :
    PeerManager PeerId Addr :=
  s.getMutWith peerId (PeerInfo.updateHeight now height)

def recordGoodBlock (now : Nat) (s : PeerManager PeerId Addr) (peerId : PeerId) : PeerManager PeerId Addr :=
  s.getMutWith peerId (PeerInfo.goodBlock now)

def recordBadBlock (now : Nat) (s : PeerManager PeerId Addr) (peerId : PeerId) : PeerManager PeerId Addr :=
  s.getMutWith peerId (PeerInfo.badBlock now)

def recordGoodTransaction (now : Nat) (s : PeerManager PeerId Addr) (peerId : PeerId) : PeerManager PeerId Addr :=
  s.getMutWith peerId (PeerInfo.goodTransaction now)

def recordBadTransaction (now : Nat) (s : PeerManager PeerId Addr) (peerId : PeerId) : PeerManager PeerId Addr :=
  s.getMutWith peerId (PeerInfo.badTransaction now)

def decayScores (s : PeerManager PeerId Addr) : PeerManager PeerId Addr :=
  { s with peers := s.peers.map fun _ info => info.decay }

/-- Disconnected for an hour, and not a bootstrap node. -/
def isOld (now : Nat) (info : PeerInfo PeerId Addr) : Bool :=
  !info.isBootstrap && decide (info.state = .disconnected) && decide (now - info.lastSeen > staleThreshold)

def cleanupStalePeers (now : Nat) (s : PeerManager PeerId Addr) : PeerManager PeerId Addr :=
  { s with peers := s.peers.filter fun _ info => !isOld now info }

def tick (now : Nat) (s : PeerManager PeerId Addr) : PeerManager PeerId Addr :=
  (if now - s.lastDecay > scoreDecayInterval then { s.decayScores with lastDecay := now } else s).cleanupStalePeers now

def bestNetworkHeight (s : PeerManager PeerId Addr) : Nat :=
  (((s.peers.values.filter PeerInfo.isActive).map PeerInfo.bestHeight).max?).getD 0

end PeerManager

/-! ## Runs -/

inductive PeerOp (PeerId Addr : Type) where
  | addBootstrapNodes (now : Nat) (nodes : List (PeerId × Addr))
  | peerConnected (now : Nat) (peerId : PeerId)
  | peerDisconnected (peerId : PeerId)
  | addPeerAddress (now : Nat) (peerId : PeerId) (addr : Addr)
  | banPeer (peerId : PeerId)
  | updatePeerHeight (now : Nat) (peerId : PeerId) (height : Nat)
  | recordGoodBlock (now : Nat) (peerId : PeerId)
  | recordBadBlock (now : Nat) (peerId : PeerId)
  | recordGoodTransaction (now : Nat) (peerId : PeerId)
  | recordBadTransaction (now : Nat) (peerId : PeerId)
  | tick (now : Nat)

namespace PeerManager

variable {PeerId Addr : Type} [LinearOrder PeerId]

def apply [DecidableEq Addr] (s : PeerManager PeerId Addr) : PeerOp PeerId Addr → PeerManager PeerId Addr
  | .addBootstrapNodes now nodes => s.addBootstrapNodes now nodes
  | .peerConnected now p => s.peerConnected now p
  | .peerDisconnected p => s.peerDisconnected p
  | .addPeerAddress now p addr => s.addPeerAddress now p addr
  | .banPeer p => s.banPeer p
  | .updatePeerHeight now p height => s.updatePeerHeight now p height
  | .recordGoodBlock now p => s.recordGoodBlock now p
  | .recordBadBlock now p => s.recordBadBlock now p
  | .recordGoodTransaction now p => s.recordGoodTransaction now p
  | .recordBadTransaction now p => s.recordBadTransaction now p
  | .tick now => s.tick now

/-! ## What an operation does to the entry of one peer -/

theorem find?_getMutWith (s : PeerManager PeerId Addr) (q p : PeerId) (f : PeerInfo PeerId Addr → PeerInfo PeerId Addr) :
    (s.getMutWith q f).peers.find? p = if p = q then (s.peers.find? p).map f else s.peers.find? p := by
  unfold getMutWith
  split
  · next hq =>
    split
    · next hp => rw [hp, hq]; rfl
    · rfl
  · next info hq =>
    show (s.peers.insert q (f info)).find? p = _
    rw [SortedMap.find?_insert]
    split
    · next hp => rw [hp, hq]; rfl
    · rfl

theorem find?_entryWith (now : Nat) (s : PeerManager PeerId Addr) (q p : PeerId)
    (f : PeerInfo PeerId Addr → PeerInfo PeerId Addr) :
    (s.entryWith now q f).peers.find? p =
      if p = q then some (f ((s.peers.find? q).getD (PeerInfo.new now q))) else s.peers.find? p :=
  SortedMap.find?_insert _ _ _ _

theorem find?_tick (now : Nat) (s : PeerManager PeerId Addr) (p : PeerId) :
    (s.tick now).peers.find? p =
      ((if now - s.lastDecay > scoreDecayInterval then (s.peers.find? p).map PeerInfo.decay
        else s.peers.find? p)).filter fun info => !isOld now info := by
  unfold tick cleanupStalePeers
  simp only
  rw [SortedMap.find?_filter]
  split
  · unfold decayScores
    simp only
    rw [SortedMap.find?_map]
  · rfl

/-- A known peer keeps its entry when bootstrap nodes are added. -/
theorem find?_addBootstrapNodes (now : Nat) (nodes : List (PeerId × Addr)) (s : PeerManager PeerId Addr) (p : PeerId)
    (info : PeerInfo PeerId Addr) (h : s.peers.find? p = some info) :
    (s.addBootstrapNodes now nodes).peers.find? p = some info := by
  unfold addBootstrapNodes
  induction nodes generalizing s with
  | nil => exact h
  | cons node nodes ih =>
    refine ih (s.addBootstrapNode now node) ?_
    unfold addBootstrapNode
    simp only
    split
    · exact h
    · next hnot =>
      rw [SortedMap.find?_insert_ne _ _ _ _ ?_]
      · exact h
      · rintro rfl
        rw [SortedMap.contains, h] at hnot
        exact hnot rfl

/-- Every entry is stored under its own id. -/
def IdsMatch (s : PeerManager PeerId Addr) : Prop := ∀ p info, s.peers.find? p = some info → info.id = p

theorem IdsMatch.getMutWith (s : PeerManager PeerId Addr) (q : PeerId) (f : PeerInfo PeerId Addr → PeerInfo PeerId Addr)
    (hf : ∀ info, (f info).id = info.id) (h : s.IdsMatch) : (s.getMutWith q f).IdsMatch := by
  intro p info hp
  rw [find?_getMutWith] at hp
  split at hp
  · obtain ⟨old, hold, rfl⟩ := Option.map_eq_some_iff.mp hp
    rw [hf]
    exact h p old hold
  · exact h p info hp

theorem IdsMatch.entryWith (now : Nat) (s : PeerManager PeerId Addr) (q : PeerId)
    (f : PeerInfo PeerId Addr → PeerInfo PeerId Addr) (hf : ∀ info, (f info).id = info.id) (h : s.IdsMatch) :
    (s.entryWith now q f).IdsMatch := by
  intro p info hp
  rw [find?_entryWith] at hp
  split at hp
  · next hq =>
    cases hp
    rw [hf, hq]
    cases hold : s.peers.find? q with
    | none => rfl
    | some old => exact h q old hold
  · exact h p info hp

theorem IdsMatch.addBootstrapNodes (now : Nat) (nodes : List (PeerId × Addr)) (s : PeerManager PeerId Addr)
    (h : s.IdsMatch) : (s.addBootstrapNodes now nodes).IdsMatch := by
  unfold PeerManager.addBootstrapNodes
  induction nodes generalizing s with
  | nil => exact h
  | cons node nodes ih =>
    refine ih (s.addBootstrapNode now node) ?_
    intro p info hp
    unfold addBootstrapNode at hp
    simp only at hp
    split at hp
    · exact h p info hp
    · rw [SortedMap.find?_insert] at hp
      split at hp
      · next hq =>
        cases hp
        rw [hq]
        rfl
      · exact h p info hp

variable [DecidableEq Addr]

theorem apply_idsMatch (s : PeerManager PeerId Addr) (op : PeerOp PeerId Addr) (h : s.IdsMatch) :
    (s.apply op).IdsMatch := by
  cases op with
  | addBootstrapNodes now nodes => exact h.addBootstrapNodes now nodes s
  | peerConnected now q => exact h.entryWith now s q _ fun _ => rfl
  | peerDisconnected q => exact h.getMutWith s q _ fun _ => rfl
  | addPeerAddress now q addr =>
    refine h.entryWith now s q _ fun info => ?_
    split <;> rfl
  | banPeer q => exact h.getMutWith s q _ fun _ => rfl
  | updatePeerHeight now q height => exact h.getMutWith s q _ (PeerInfo.id_updateHeight now height)
  | recordGoodBlock now q => exact h.getMutWith s q _ fun _ => rfl
  | recordBadBlock now q => exact h.getMutWith s q _ fun _ => rfl
  | recordGoodTransaction now q => exact h.getMutWith s q _ fun _ => rfl
  | recordBadTransaction now q => exact h.getMutWith s q _ fun _ => rfl
  | tick now =>
    intro p info hp
    change (s.tick now).peers.find? p = some info at hp
    rw [find?_tick, Option.filter_eq_some_iff] at hp
    have hfind := hp.1
    split at hfind
    · obtain ⟨old, hold, rfl⟩ := Option.map_eq_some_iff.mp hfind
      rw [PeerInfo.id_decay]
      exact h p old hold
    · exact h p info hfind

/-! ## Bans -/

/-- The peer is known and banned. -/
def IsBanned (p : PeerId) (s : PeerManager PeerId Addr) : Prop :=
  ∃ info, s.peers.find? p = some info ∧ info.state = .banned

/-- Nothing the manager answers counts the peer in, and it is always to be disconnected. -/
structure Shunned (p : PeerId) (s : PeerManager PeerId Addr) : Prop where
  banned : s.IsBanned p
  notConnected : s.isConnected p = false
  notListed : ∀ o, ∀ info ∈ s.connectedPeers o, info.id ≠ p
  notBest : ∀ o info, s.bestSyncPeer o = some info → info.id ≠ p
  notCounted : s.bestNetworkHeight = bestNetworkHeight { s with peers := s.peers.erase p }
  disconnected : ∀ o now, p ∈ s.peersToDisconnect o now

/-- The event of the connection of the peer that overwrites its state. -/
def Reconnects (p : PeerId) : PeerOp PeerId Addr → Prop
  | .peerConnected _ q | .peerDisconnected q => q = p
  | _ => False

omit [DecidableEq Addr] in
theorem values_filter_erase (m : SortedMap PeerId (PeerInfo PeerId Addr)) (p : PeerId) (info : PeerInfo PeerId Addr)
    (h : m.find? p = some info) (hi : info.isActive = false) :
    m.values.filter PeerInfo.isActive = (m.erase p).values.filter PeerInfo.isActive := by
  have hmap : m.filter (fun _ i => i.isActive) = (m.erase p).filter fun _ i => i.isActive := by
    apply SortedMap.ext_find
    intro q
    rw [SortedMap.find?_filter, SortedMap.find?_filter, SortedMap.find?_erase]
    split
    · next hq => rw [hq, h]; simp [hi]
    · rfl
  have hvalues := congrArg SortedMap.values hmap
  unfold SortedMap.values SortedMap.filter at hvalues
  unfold SortedMap.values
  rw [List.filter_map, List.filter_map]
  exact hvalues

omit [DecidableEq Addr] in
/-- All of it follows from the ban. -/
theorem shunned_iff (p : PeerId) (s : PeerManager PeerId Addr) (hids : s.IdsMatch) : s.Shunned p ↔ s.IsBanned p := by
  refine ⟨Shunned.banned, ?_⟩
  rintro ⟨info, hp, hban⟩
  have hinactive : info.isActive = false := by simp [PeerInfo.isActive, hban]
  -- an active entry is another peer's
  have hother : ∀ i ∈ s.peers.values, i.isActive = true → i.id ≠ p := by
    intro i hi ha heq
    obtain ⟨q, hq⟩ := (SortedMap.mem_values_iff s.peers i).mp hi
    rw [← hids q i hq, heq, hp] at hq
    cases hq
    rw [hinactive] at ha
    cases ha
  refine ⟨⟨info, hp, hban⟩, ?_, ?_, ?_, ?_, ?_⟩
  · unfold isConnected
    rw [hp, Option.map_some, Option.getD_some, hinactive]
  · intro o i hi
    obtain ⟨hmem, ha⟩ := List.mem_filter.mp hi
    exact hother i ((o.mem_iter _ i).mp hmem) ha
  · intro o i hi
    obtain ⟨before, after, hl, -, -⟩ := isFirstMax_firstMax _ _ i hi
    have hmem : i ∈ ((o.iter s.peers.values).filter fun p => p.isActive && decide (p.bestHeight > 0)).reverse := by
      rw [hl]
      simp
    obtain ⟨hin, ha⟩ := List.mem_filter.mp (List.mem_reverse.mp hmem)
    exact hother i ((o.mem_iter _ i).mp hin) (Bool.and_eq_true_iff.mp ha).1
  · unfold bestNetworkHeight
    rw [values_filter_erase s.peers p info hp hinactive]
  · intro o now
    refine List.mem_map.mpr ⟨info, List.mem_filter.mpr ⟨?_, ?_⟩, hids p info hp⟩
    · exact (o.mem_iter _ info).mpr ((SortedMap.mem_values_iff s.peers info).mpr ⟨p, hp⟩)
    · simp [PeerInfo.shouldDisconnect, hban]

omit [DecidableEq Addr] in
theorem IsBanned.getMutWith (p q : PeerId) (s : PeerManager PeerId Addr)
    (f : PeerInfo PeerId Addr → PeerInfo PeerId Addr) (hf : ∀ info, (f info).state = info.state ∨ (f info).state = .banned)
    (h : s.IsBanned p) : (s.getMutWith q f).IsBanned p := by
  obtain ⟨info, hp, hban⟩ := h
  unfold IsBanned
  rw [find?_getMutWith, hp]
  split
  · refine ⟨f info, rfl, ?_⟩
    rcases hf info with hs | hs
    · rw [hs, hban]
    · exact hs
  · exact ⟨info, rfl, hban⟩

/-- What ends a ban is an event of the peer's connection, and each of them does. -/
theorem apply_isBanned_iff (p : PeerId) (s : PeerManager PeerId Addr) (op : PeerOp PeerId Addr) (h : s.IsBanned p) :
    (s.apply op).IsBanned p ↔ ¬ Reconnects p op := by
  have hkept := h
  obtain ⟨info, hp, hban⟩ := h
  cases op with
  | addBootstrapNodes now nodes =>
    exact iff_of_true ⟨info, find?_addBootstrapNodes now nodes s p info hp, hban⟩ id
  | peerConnected now q =>
    show (s.entryWith now q _).IsBanned p ↔ ¬ q = p
    unfold IsBanned
    rw [find?_entryWith]
    constructor
    · rintro ⟨i, hi, hb⟩ rfl
      rw [if_pos rfl] at hi
      cases hi
      cases hb
    · intro hq
      rw [if_neg (Ne.symm hq)]
      exact ⟨info, hp, hban⟩
  | peerDisconnected q =>
    show (s.getMutWith q _).IsBanned p ↔ ¬ q = p
    unfold IsBanned
    rw [find?_getMutWith]
    constructor
    · rintro ⟨i, hi, hb⟩ rfl
      rw [if_pos rfl, hp] at hi
      cases hi
      cases hb
    · intro hq
      rw [if_neg (Ne.symm hq)]
      exact ⟨info, hp, hban⟩
  | addPeerAddress now q addr =>
    refine iff_of_true ?_ id
    show (s.entryWith now q _).IsBanned p
    unfold IsBanned
    rw [find?_entryWith]
    split
    · next hq =>
      rw [← hq, hp]
      refine ⟨_, rfl, ?_⟩
      rw [Option.getD_some]
      split <;> exact hban
    · exact ⟨info, hp, hban⟩
  | banPeer q => exact iff_of_true (hkept.getMutWith p q s _ fun _ => .inr rfl) id
  | updatePeerHeight now q height =>
    exact iff_of_true (hkept.getMutWith p q s _ fun i => .inl (PeerInfo.state_updateHeight now height i)) id
  | recordGoodBlock now q => exact iff_of_true (hkept.getMutWith p q s _ fun _ => .inl rfl) id
  | recordBadBlock now q => exact iff_of_true (hkept.getMutWith p q s _ fun _ => .inl rfl) id
  | recordGoodTransaction now q => exact iff_of_true (hkept.getMutWith p q s _ fun _ => .inl rfl) id
  | recordBadTransaction now q => exact iff_of_true (hkept.getMutWith p q s _ fun _ => .inl rfl) id
  | tick now =>
    refine iff_of_true ?_ id
    show (s.tick now).IsBanned p
    -- the maintenance moves the score and removes only disconnected peers
    have hold : ∀ i : PeerInfo PeerId Addr, i.state = .banned → (!isOld now i) = true := by
      intro i hi
      simp [isOld, hi]
    unfold IsBanned
    rw [find?_tick, hp]
    split
    · have hdecay : info.decay.state = .banned := by rw [PeerInfo.state_decay, hban]
      exact ⟨info.decay, Option.filter_eq_some_iff.mpr ⟨rfl, hold _ hdecay⟩, hdecay⟩
    · exact ⟨info, Option.filter_eq_some_iff.mpr ⟨rfl, hold _ hban⟩, hban⟩

theorem foldl_idsMatch (start : Nat) (ops : List (PeerOp PeerId Addr)) :
    (ops.foldl apply (new start : PeerManager PeerId Addr)).IdsMatch := by
  refine Run.inv_foldl apply (fun _ _ => True) IdsMatch (fun s op h _ => apply_idsMatch s op h) _ ops ?_
    (Run.meets_of_forall _ _ (fun _ _ => trivial) _ _)
  intro p info hp
  cases hp

/-- **A ban lasts exactly until the connection moves.**  After `ban_peer` on a known peer the peer
is shunned in every state of a run if and only if none of its operations is `peer_connected` or
`peer_disconnected` of that peer. -/
theorem banned_iff (start : Nat) (before after : List (PeerOp PeerId Addr)) (p : PeerId)
    (hknown : ((before.foldl apply (new start)).peers.find? p).isSome = true) :
    (∀ k, ((after.take k).foldl apply ((before.foldl apply (new start)).banPeer p)).Shunned p) ↔
      ∀ op ∈ after, ¬ Reconnects p op := by
  obtain ⟨info, hinfo⟩ := Option.isSome_iff_exists.mp hknown
  have hids := foldl_idsMatch start before
  have hban : ((before.foldl apply (new start)).banPeer p).IsBanned p := by
    unfold IsBanned banPeer
    rw [find?_getMutWith, if_pos rfl, hinfo]
    exact ⟨_, rfl, rfl⟩
  have hids' : ((before.foldl apply (new start)).banPeer p).IdsMatch := apply_idsMatch _ (.banPeer p) hids
  rw [Run.good_take_iff apply (fun _ _ => True) (fun _ op => ¬ Reconnects p op) IdsMatch (Shunned p)
    (fun s op h _ => apply_idsMatch s op h) ?_ _ after hids' ((shunned_iff p _ hids').mpr hban)
    (Run.meets_of_forall _ _ (fun _ _ => trivial) _ _)]
  · constructor
    · intro hm op hop
      obtain ⟨pre, post, rfl⟩ := List.append_of_mem hop
      exact (Run.meets_iff_split _ _ _ _).mp hm pre op post rfl
    · exact Run.meets_of_mem _ _ _ after
  · intro s op h _ hs
    rw [shunned_iff p _ (apply_idsMatch s op h)]
    exact apply_isBanned_iff p s op hs.banned

/-- A peer that was banned, hung up and waits. -/
theorem banned_three_ticks :
    ((([.peerConnected 0 7] : List (PeerOp Nat Nat)).foldl apply (new 0)).peers.find? 7).isSome = true ∧
    ∀ k, (((([.recordGoodBlock 1 7, .updatePeerHeight 2 7 100, .tick (10 ^ 12)] : List (PeerOp Nat Nat)).take k).foldl
      apply (((([.peerConnected 0 7] : List (PeerOp Nat Nat)).foldl apply (new 0))).banPeer 7)).Shunned 7) := by
  refine ⟨by decide, (banned_iff 0 [.peerConnected 0 7] _ 7 (by decide)).mpr ?_⟩
  simp [Reconnects]

/-- The hang-up that follows a ban ends it, and the next connection is like any other. -/
theorem ban_ends_with_the_connection :
    ¬ (∀ k, (((([.peerDisconnected 7, .peerConnected 1 7] : List (PeerOp Nat Nat)).take k).foldl
      apply (((([.peerConnected 0 7] : List (PeerOp Nat Nat)).foldl apply (new 0))).banPeer 7)).Shunned 7)) ∧
    ((([.peerDisconnected 7, .peerConnected 1 7] : List (PeerOp Nat Nat)).foldl
      apply (((([.peerConnected 0 7] : List (PeerOp Nat Nat)).foldl apply (new 0))).banPeer 7))).isConnected 7 = true := by
  have hconnected : ((([.peerDisconnected 7, .peerConnected 1 7] : List (PeerOp Nat Nat)).foldl
      apply (((([.peerConnected 0 7] : List (PeerOp Nat Nat)).foldl apply (new 0))).banPeer 7))).isConnected 7 = true := by
    decide
  refine ⟨fun h => ?_, hconnected⟩
  have hnot := (h 2).notConnected
  rw [List.take_of_length_le (by decide), hconnected] at hnot
  cases hnot

end PeerManager

end Kratos
