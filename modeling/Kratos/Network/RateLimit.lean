import Kratos.Lib.LazyWindow
import Kratos.Lib.SortedMap
import Kratos.Lib.Word

/-!
# Rate limits of peers

A node counts the messages and the bytes of each peer in windows, and bans a peer at its fifth
violation.  The limiter is one machine for each peer (`apply_view`), so a peer's outcomes do not
depend on the others, and each counter is a lazy window: an interval as long as the window lets
through at most twice the limit (`rate_limited`), as long as the sum of bytes does not overflow.

Times and durations are nanoseconds, and an operation reads the clock once.  With `checks` an
overflow stops the program (`none`); without, it wraps.
-/

namespace Kratos

/-! ## Types -/

structure RateLimitConfig where
  maxMessagesPerWindow : Fin (2 ^ 64)
  windowDuration : Nat
  maxMessageSize : Fin (2 ^ 64)
  maxConnectionsPerPeer : Fin (2 ^ 64)
  maxBandwidthPerPeer : Fin (2 ^ 64)
deriving DecidableEq, Repr

def Duration.fromSecs (secs : Nat) : Nat := secs * 10 ^ 9

def Duration.asSecs (d : Nat) : Nat := d / 10 ^ 9

def RateLimitConfig.default : RateLimitConfig where
  maxMessagesPerWindow := 100
  windowDuration := Duration.fromSecs 10
  maxMessageSize := 10 * 1024 * 1024
  maxConnectionsPerPeer := 3
  maxBandwidthPerPeer := 1024 * 1024

structure PeerStats where
  messagesInWindow : Nat
  windowStart : Nat
  bytesInWindow : Nat
  violations : Nat
  lastViolation : Option Nat
deriving DecidableEq, Repr

inductive RateLimitError where
  | peerBanned
  | messageTooLarge (size max : Nat)
  | tooManyMessages (count max : Nat)
  | bandwidthExceeded
deriving DecidableEq, Repr

structure NetworkRateLimiter (PeerId : Type) [LinearOrder PeerId] where
  config : RateLimitConfig
  peerStats : SortedMap PeerId PeerStats
  bannedPeers : SortedMap PeerId Nat
  banDuration : Nat

namespace PeerStats

def new (now : Nat) : PeerStats :=
  { messagesInWindow := 0, windowStart := now, bytesInWindow := 0, violations := 0, lastViolation := none }

def maybeResetWindow (now windowDuration : Nat) (stats : PeerStats) : PeerStats :=
  if now - stats.windowStart ≥ windowDuration then
    { stats with messagesInWindow := 0, bytesInWindow := 0, windowStart := now }
  else stats

def recordViolation (checks : Bool) (now : Nat) (stats : PeerStats) : Option PeerStats :=
  (Word.addW checks 64 stats.violations 1).map fun violations =>
    { stats with violations := violations, lastViolation := some now }

def shouldBan (stats : PeerStats) : Bool := stats.violations ≥ 5

end PeerStats

/-! ## The limiter -/

namespace NetworkRateLimiter

variable {PeerId : Type} [LinearOrder PeerId] (checks : Bool)

def new (config : RateLimitConfig) : NetworkRateLimiter PeerId where
  config := config
  peerStats := .empty
  bannedPeers := .empty
  banDuration := Duration.fromSecs 3600

/-- A ban that has expired is forgotten, and the violations with it. -/
def isBanned (now : Nat) (s : NetworkRateLimiter PeerId) (peer : PeerId) : Bool × NetworkRateLimiter PeerId :=
  match s.bannedPeers.find? peer with
  | some banTime =>
    if now - banTime < s.banDuration then (true, s)
    else
      (false, { s with
        bannedPeers := s.bannedPeers.erase peer
        peerStats := match s.peerStats.find? peer with
          | some stats => s.peerStats.insert peer { stats with violations := 0 }
          | none => s.peerStats })
  | none => (false, s)

def recordViolation (now : Nat) (s : NetworkRateLimiter PeerId) (peer : PeerId) :
    Option (NetworkRateLimiter PeerId) :=
  (((s.peerStats.find? peer).getD (.new now)).recordViolation checks now).map fun stats =>
    { s with
      peerStats := s.peerStats.insert peer stats
      bannedPeers := if stats.shouldBan then s.bannedPeers.insert peer now else s.bannedPeers }

/-- What follows when the peer is not banned. -/
def checkLimits (now : Nat) (s : NetworkRateLimiter PeerId) (peer : PeerId) (messageSize : Fin (2 ^ 64)) :
    Option (NetworkRateLimiter PeerId × Except RateLimitError Unit) :=
  if messageSize > s.config.maxMessageSize then
    (s.recordViolation checks now peer).map fun t =>
      (t, .error (.messageTooLarge messageSize.val s.config.maxMessageSize.val))
  else
    let stats := ((s.peerStats.find? peer).getD (.new now)).maybeResetWindow now s.config.windowDuration
    let s := { s with peerStats := s.peerStats.insert peer stats }
    if stats.messagesInWindow ≥ s.config.maxMessagesPerWindow.val then
      (s.recordViolation checks now peer).map fun t =>
        (t, .error (.tooManyMessages stats.messagesInWindow s.config.maxMessagesPerWindow.val))
    else
      (Word.addW checks 64 stats.bytesInWindow messageSize.val).bind fun bytes =>
        (Word.mulW checks 64 s.config.maxBandwidthPerPeer.val (Duration.asSecs s.config.windowDuration)).bind fun bandwidth =>
          if bytes > bandwidth then
            (s.recordViolation checks now peer).map fun t => (t, .error .bandwidthExceeded)
          else
            (Word.addW checks 64 stats.messagesInWindow 1).map fun messages =>
              ({ s with
                peerStats := s.peerStats.insert peer { stats with messagesInWindow := messages, bytesInWindow := bytes } },
                .ok ())

def checkMessage (now : Nat) (s : NetworkRateLimiter PeerId) (peer : PeerId) (messageSize : Fin (2 ^ 64)) :
    Option (NetworkRateLimiter PeerId × Except RateLimitError Unit) :=
  match s.isBanned now peer with
  | (true, s) => some (s, .error .peerBanned)
  | (false, s) => s.checkLimits checks now peer messageSize

def banPeer (now : Nat) (s : NetworkRateLimiter PeerId) (peer : PeerId) : NetworkRateLimiter PeerId :=
  { s with bannedPeers := s.bannedPeers.insert peer now }

def unbanPeer (s : NetworkRateLimiter PeerId) (peer : PeerId) : NetworkRateLimiter PeerId :=
  { s with
    bannedPeers := s.bannedPeers.erase peer
    peerStats := match s.peerStats.find? peer with
      | some stats => s.peerStats.insert peer { stats with violations := 0 }
      | none => s.peerStats }

/-- Inactive peers are forgotten after an hour. -/
def cleanup (now : Nat) (s : NetworkRateLimiter PeerId) : NetworkRateLimiter PeerId :=
  { s with
    peerStats := s.peerStats.filter fun _ stats => now - stats.windowStart < Duration.fromSecs 3600
    bannedPeers := s.bannedPeers.filter fun _ banTime => now - banTime < s.banDuration }

/-! ## Runs -/

inductive Op (PeerId : Type) where
  | checkMessage (peer : PeerId) (messageSize : Fin (2 ^ 64))
  | isBanned (peer : PeerId)
  | banPeer (peer : PeerId)
  | unbanPeer (peer : PeerId)
  | cleanup

structure Event (PeerId : Type) where
  time : Nat
  op : Op PeerId

/-- The next state, and the outcome of a message. -/
def apply (s : NetworkRateLimiter PeerId) (e : Event PeerId) :
    Option (NetworkRateLimiter PeerId × Option (Except RateLimitError Unit)) :=
  match e.op with
  | .checkMessage peer size => (s.checkMessage checks e.time peer size).map fun r => (r.1, some r.2)
  | .isBanned peer => some ((s.isBanned e.time peer).2, none)
  | .banPeer peer => some (s.banPeer e.time peer, none)
  | .unbanPeer peer => some (s.unbanPeer peer, none)
  | .cleanup => some (s.cleanup e.time, none)

def step (o : Option (NetworkRateLimiter PeerId)) (e : Event PeerId) : Option (NetworkRateLimiter PeerId) :=
  o.bind fun s => (s.apply checks e).map Prod.fst

def outcome (o : Option (NetworkRateLimiter PeerId)) (e : Event PeerId) : Option (Except RateLimitError Unit) :=
  o.bind fun s => (s.apply checks e).bind Prod.snd

end NetworkRateLimiter

/-! ## The machine of one peer -/

/-- What the limiter keeps about a peer. -/
structure PeerView where
  stats : Option PeerStats
  ban : Option Nat
deriving DecidableEq, Repr

namespace PeerView

variable (checks : Bool) (config : RateLimitConfig) (banDuration now : Nat)

def isBanned (v : PeerView) : Bool × PeerView :=
  match v.ban with
  | some banTime =>
    if now - banTime < banDuration then (true, v)
    else (false, ⟨v.stats.map fun stats => { stats with violations := 0 }, none⟩)
  | none => (false, v)

def recordViolation (v : PeerView) : Option PeerView :=
  ((v.stats.getD (.new now)).recordViolation checks now).map fun stats =>
    ⟨some stats, if stats.shouldBan then some now else v.ban⟩

/-- The statistics a message comes to. -/
def current (v : PeerView) : PeerStats := (v.stats.getD (.new now)).maybeResetWindow now config.windowDuration

def checkLimits (v : PeerView) (messageSize : Fin (2 ^ 64)) : Option (PeerView × Except RateLimitError Unit) :=
  if messageSize > config.maxMessageSize then
    (v.recordViolation checks now).map fun v =>
      (v, .error (.messageTooLarge messageSize.val config.maxMessageSize.val))
  else if (v.current config now).messagesInWindow ≥ config.maxMessagesPerWindow.val then
    (PeerView.recordViolation checks now ⟨some (v.current config now), v.ban⟩).map fun w =>
      (w, .error (.tooManyMessages (v.current config now).messagesInWindow config.maxMessagesPerWindow.val))
  else
    (Word.addW checks 64 (v.current config now).bytesInWindow messageSize.val).bind fun bytes =>
      (Word.mulW checks 64 config.maxBandwidthPerPeer.val (Duration.asSecs config.windowDuration)).bind fun bandwidth =>
        if bytes > bandwidth then
          (PeerView.recordViolation checks now ⟨some (v.current config now), v.ban⟩).map fun w =>
            (w, .error .bandwidthExceeded)
        else
          (Word.addW checks 64 (v.current config now).messagesInWindow 1).map fun messages =>
            (⟨some { v.current config now with messagesInWindow := messages, bytesInWindow := bytes }, v.ban⟩, .ok ())

def checkMessage (v : PeerView) (messageSize : Fin (2 ^ 64)) : Option (PeerView × Except RateLimitError Unit) :=
  match v.isBanned banDuration now with
  | (true, v) => some (v, .error .peerBanned)
  | (false, v) => v.checkLimits checks config now messageSize

def unban (v : PeerView) : PeerView := ⟨v.stats.map fun stats => { stats with violations := 0 }, none⟩

def cleanup (v : PeerView) : PeerView :=
  ⟨v.stats.filter fun stats => now - stats.windowStart < Duration.fromSecs 3600,
    v.ban.filter fun banTime => now - banTime < banDuration⟩

end PeerView

namespace NetworkRateLimiter

variable {PeerId : Type} [LinearOrder PeerId] (checks : Bool) (now : Nat)

def view (s : NetworkRateLimiter PeerId) (p : PeerId) : PeerView := ⟨s.peerStats.find? p, s.bannedPeers.find? p⟩

/-- The settings and the other peers are as they were. -/
structure Same (p : PeerId) (s t : NetworkRateLimiter PeerId) : Prop where
  config : t.config = s.config
  banDuration : t.banDuration = s.banDuration
  others : ∀ q ≠ p, t.view q = s.view q

theorem Same.refl (p : PeerId) (s : NetworkRateLimiter PeerId) : Same p s s := ⟨rfl, rfl, fun _ _ => rfl⟩

theorem Same.trans {p : PeerId} {s t u : NetworkRateLimiter PeerId} (h : Same p s t) (h' : Same p t u) : Same p s u :=
  ⟨h'.config.trans h.config, h'.banDuration.trans h.banDuration, fun q hq => (h'.others q hq).trans (h.others q hq)⟩

/-- Statistics are written under the peer's id. -/
theorem same_insertStats (s : NetworkRateLimiter PeerId) (p : PeerId) (stats : PeerStats) :
    Same p s { s with peerStats := s.peerStats.insert p stats } :=
  ⟨rfl, rfl, fun q hq => by simp only [view, SortedMap.find?_insert_ne _ _ _ _ hq]⟩

theorem view_insertStats (s : NetworkRateLimiter PeerId) (p : PeerId) (stats : PeerStats) :
    ({ s with peerStats := s.peerStats.insert p stats } : NetworkRateLimiter PeerId).view p =
      ⟨some stats, (s.view p).ban⟩ := by
  simp only [view, SortedMap.find?_insert_self]

/-- The violations of a peer are forgotten. -/
theorem find?_forgive (m : SortedMap PeerId PeerStats) (p q : PeerId) :
    (match m.find? p with
      | some stats => m.insert p { stats with violations := 0 }
      | none => m).find? q =
      if q = p then (m.find? p).map fun stats => { stats with violations := 0 } else m.find? q := by
  cases h : m.find? p with
  | none =>
    dsimp only
    split
    · next heq => rw [heq, h]; rfl
    · rfl
  | some stats => exact SortedMap.find?_insert m p q _

theorem unbanPeer_view (s : NetworkRateLimiter PeerId) (p : PeerId) :
    Same p s (s.unbanPeer p) ∧ (s.unbanPeer p).view p = (s.view p).unban := by
  refine ⟨⟨rfl, rfl, fun q hq => ?_⟩, ?_⟩
  · simp only [view, unbanPeer, find?_forgive, SortedMap.find?_erase, if_neg hq]
  · simp only [view, unbanPeer, find?_forgive, SortedMap.find?_erase, PeerView.unban, reduceIte]

theorem isBanned_view (s : NetworkRateLimiter PeerId) (p : PeerId) :
    Same p s (s.isBanned now p).2 ∧
      ((s.isBanned now p).1, (s.isBanned now p).2.view p) = (s.view p).isBanned s.banDuration now := by
  unfold isBanned PeerView.isBanned
  cases hb : s.bannedPeers.find? p with
  | none =>
    have hban : (s.view p).ban = none := hb
    rw [hban]
    exact ⟨.refl p s, rfl⟩
  | some banTime =>
    have hban : (s.view p).ban = some banTime := hb
    rw [hban]
    dsimp only
    split
    · exact ⟨.refl p s, rfl⟩
    · obtain ⟨hsame, hview⟩ := unbanPeer_view s p
      exact ⟨hsame, congrArg (Prod.mk false) hview⟩

theorem recordViolation_view (s : NetworkRateLimiter PeerId) (p : PeerId) :
    (∀ t, s.recordViolation checks now p = some t → Same p s t) ∧
      (s.recordViolation checks now p).map (fun t => t.view p) = (s.view p).recordViolation checks now := by
  have hstats : (s.view p).stats = s.peerStats.find? p := rfl
  unfold recordViolation PeerView.recordViolation
  rw [hstats]
  cases ((s.peerStats.find? p).getD (.new now)).recordViolation checks now with
  | none => exact ⟨(fun t h => by cases h), rfl⟩
  | some stats =>
    refine ⟨fun t h => ?_, ?_⟩
    · cases h
      refine ⟨rfl, rfl, fun q hq => ?_⟩
      have hban : (if stats.shouldBan = true then s.bannedPeers.insert p now else s.bannedPeers).find? q =
          s.bannedPeers.find? q := by
        split
        · exact SortedMap.find?_insert_ne _ _ _ _ hq
        · rfl
      simp only [view, SortedMap.find?_insert_ne _ _ _ _ hq, hban]
    · have hban : (if stats.shouldBan = true then s.bannedPeers.insert p now else s.bannedPeers).find? p =
          if stats.shouldBan = true then some now else s.bannedPeers.find? p := by
        split
        · exact SortedMap.find?_insert_self _ _ _
        · rfl
      simp only [Option.map_some, view, SortedMap.find?_insert_self, hban]

theorem checkLimits_view (s : NetworkRateLimiter PeerId) (p : PeerId) (size : Fin (2 ^ 64)) :
    (∀ r, s.checkLimits checks now p size = some r → Same p s r.1) ∧
      (s.checkLimits checks now p size).map (fun r => (r.1.view p, r.2)) =
        (s.view p).checkLimits checks s.config now size := by
  -- the violations of the three branches, and what they leave
  have hviolation : ∀ (t : NetworkRateLimiter PeerId) (e : RateLimitError), Same p s t →
      (∀ r, (t.recordViolation checks now p).map (fun u => (u, (Except.error e : Except RateLimitError Unit))) = some r →
        Same p s r.1) ∧
      ((t.recordViolation checks now p).map fun u => (u, (Except.error e : Except RateLimitError Unit))).map
          (fun r => (r.1.view p, r.2)) =
        ((t.view p).recordViolation checks now).map fun v => (v, .error e) := by
    intro t e hsame
    obtain ⟨hrec, hview⟩ := recordViolation_view checks now t p
    refine ⟨fun r hr => ?_, ?_⟩
    · obtain ⟨u, hu, rfl⟩ := Option.map_eq_some_iff.mp hr
      exact hsame.trans (hrec u hu)
    · rw [← hview, Option.map_map, Option.map_map]
      rfl
  have hcurrent : ((s.peerStats.find? p).getD (.new now)).maybeResetWindow now s.config.windowDuration =
      (s.view p).current s.config now := rfl
  have hrolled := same_insertStats s p ((s.view p).current s.config now)
  have hrolledView := view_insertStats s p ((s.view p).current s.config now)
  unfold checkLimits PeerView.checkLimits
  rw [hcurrent]
  dsimp only
  split
  · exact hviolation s _ (.refl p s)
  · split
    · rw [← hrolledView]
      exact hviolation _ _ hrolled
    · cases Word.addW checks 64 ((s.view p).current s.config now).bytesInWindow size.val with
      | none => exact ⟨(fun r h => by cases h), rfl⟩
      | some bytes =>
        cases Word.mulW checks 64 s.config.maxBandwidthPerPeer.val (Duration.asSecs s.config.windowDuration) with
        | none => exact ⟨(fun r h => by cases h), rfl⟩
        | some bandwidth =>
          simp only [Option.bind_some]
          split
          · rw [← hrolledView]
            exact hviolation _ _ hrolled
          · cases Word.addW checks 64 ((s.view p).current s.config now).messagesInWindow 1 with
            | none => exact ⟨(fun r h => by cases h), rfl⟩
            | some messages =>
              refine ⟨fun r h => ?_, ?_⟩
              · cases h
                exact hrolled.trans (same_insertStats _ p _)
              · have hwritten := view_insertStats
                  { s with peerStats := s.peerStats.insert p ((s.view p).current s.config now) } p
                  { (s.view p).current s.config now with messagesInWindow := messages, bytesInWindow := bytes }
                exact congrArg (fun v => some (v, Except.ok ())) hwritten

theorem checkMessage_view (s : NetworkRateLimiter PeerId) (p : PeerId) (size : Fin (2 ^ 64)) :
    (∀ r, s.checkMessage checks now p size = some r → Same p s r.1) ∧
      (s.checkMessage checks now p size).map (fun r => (r.1.view p, r.2)) =
        (s.view p).checkMessage checks s.config s.banDuration now size := by
  obtain ⟨hsame, hview⟩ := isBanned_view now s p
  unfold checkMessage PeerView.checkMessage
  rw [← hview]
  rcases hb : s.isBanned now p with ⟨_ | _, t⟩
  · rw [hb] at hsame
    obtain ⟨hlimits, hlimitsView⟩ := checkLimits_view checks now t p size
    refine ⟨fun r hr => hsame.trans (hlimits r hr), ?_⟩
    rw [← hsame.config]
    exact hlimitsView
  · rw [hb] at hsame
    refine ⟨fun r hr => ?_, rfl⟩
    cases hr
    exact hsame

/-- What an operation is to one peer. -/
inductive PeerOp where
  | checkMessage (messageSize : Fin (2 ^ 64))
  | isBanned
  | ban
  | unban
  | cleanup
deriving DecidableEq

/-- Only the clean-up is about all peers. -/
def Op.at (p : PeerId) : Op PeerId → Option PeerOp
  | .checkMessage q size => if q = p then some (.checkMessage size) else none
  | .isBanned q => if q = p then some .isBanned else none
  | .banPeer q => if q = p then some .ban else none
  | .unbanPeer q => if q = p then some .unban else none
  | .cleanup => some .cleanup

end NetworkRateLimiter

def PeerView.apply (checks : Bool) (config : RateLimitConfig) (banDuration now : Nat) (v : PeerView) :
    NetworkRateLimiter.PeerOp → Option (PeerView × Option (Except RateLimitError Unit))
  | .checkMessage size => (v.checkMessage checks config banDuration now size).map fun r => (r.1, some r.2)
  | .isBanned => some ((v.isBanned banDuration now).2, none)
  | .ban => some ({ v with ban := some now }, none)
  | .unban => some (v.unban, none)
  | .cleanup => some (v.cleanup banDuration now, none)

namespace NetworkRateLimiter

variable {PeerId : Type} [LinearOrder PeerId] (checks : Bool)

theorem cleanup_view (now : Nat) (s : NetworkRateLimiter PeerId) (p : PeerId) :
    (s.cleanup now).view p = (s.view p).cleanup s.banDuration now := by
  simp only [view, cleanup, SortedMap.find?_filter, PeerView.cleanup]

/-- **One machine for each peer.**  An operation that is about a peer does to it what its own machine
does, and one that is about another leaves it alone. -/
theorem apply_view (s : NetworkRateLimiter PeerId) (e : Event PeerId) (p : PeerId) :
    (∀ r, s.apply checks e = some r → r.1.config = s.config ∧ r.1.banDuration = s.banDuration ∧
      (e.op.at p = none → r.1.view p = s.view p)) ∧
    ∀ op, e.op.at p = some op → (s.apply checks e).map (fun r => (r.1.view p, r.2)) =
      (s.view p).apply checks s.config s.banDuration e.time op := by
  obtain ⟨time, op⟩ := e
  have hother : ∀ (q : PeerId) (o : PeerOp), (if q = p then some o else none) = none → p ≠ q := by
    rintro q o h rfl
    simp at h
  have hown : ∀ (q : PeerId) (o op : PeerOp), (if q = p then some o else none) = some op → q = p ∧ o = op := by
    simp
  cases op with
  | checkMessage q size =>
    obtain ⟨hsame, hview⟩ := checkMessage_view checks time s q size
    refine ⟨fun r hr => ?_, fun op hop => ?_⟩
    · obtain ⟨t, ht, rfl⟩ := Option.map_eq_some_iff.mp hr
      exact ⟨(hsame t ht).config, (hsame t ht).banDuration, fun h => (hsame t ht).others p (hother q _ h)⟩
    · obtain ⟨rfl, rfl⟩ := hown q _ op hop
      unfold apply PeerView.apply
      dsimp only
      rw [← hview, Option.map_map, Option.map_map]
      rfl
  | isBanned q =>
    obtain ⟨hsame, hview⟩ := isBanned_view time s q
    refine ⟨fun r hr => ?_, fun op hop => ?_⟩
    · cases hr
      exact ⟨hsame.config, hsame.banDuration, fun h => hsame.others p (hother q _ h)⟩
    · obtain ⟨rfl, rfl⟩ := hown q _ op hop
      exact congrArg (fun v : Bool × PeerView => some (v.2, none)) hview
  | banPeer q =>
    refine ⟨fun r hr => ?_, fun op hop => ?_⟩
    · cases hr
      refine ⟨rfl, rfl, fun h => ?_⟩
      simp only [view, banPeer, SortedMap.find?_insert_ne _ _ _ _ (hother q _ h)]
    · obtain ⟨rfl, rfl⟩ := hown q _ op hop
      simp only [apply, PeerView.apply, Option.map_some, view, banPeer, SortedMap.find?_insert_self]
  | unbanPeer q =>
    obtain ⟨hsame, hview⟩ := unbanPeer_view s q
    refine ⟨fun r hr => ?_, fun op hop => ?_⟩
    · cases hr
      exact ⟨rfl, rfl, fun h => hsame.others p (hother q _ h)⟩
    · obtain ⟨rfl, rfl⟩ := hown q _ op hop
      exact congrArg (fun v => some (v, none)) hview
  | cleanup =>
    refine ⟨fun r hr => ?_, fun op hop => ?_⟩
    · cases hr
      exact ⟨rfl, rfl, fun h => by cases h⟩
    · cases hop
      exact congrArg (fun v => some (v, none)) (cleanup_view time s p)

end NetworkRateLimiter

end Kratos
