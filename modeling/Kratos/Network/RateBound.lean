import Kratos.Lib.LazyWindow
import Kratos.Network.RateLimit
import Kratos.Types.Primitives

/-!
# Bounds on a peer's traffic

The counters of a peer only move when a message of the peer comes: a message that is let through is
added to them, and any other does no more than open a new window.  So both are lazy windows, and in an
interval as long as a window a peer gets through at most twice the limit (`rate_limited`).
-/

namespace Kratos

namespace PeerStats

/-- The window and what it holds. -/
def counters (stats : PeerStats) : Nat × Nat × Nat := (stats.windowStart, stats.messagesInWindow, stats.bytesInWindow)

end PeerStats

namespace PeerView

variable (checks : Bool) (config : RateLimitConfig) (banDuration now : Nat)

def counters (v : PeerView) : Option (Nat × Nat × Nat) := v.stats.map PeerStats.counters

/-- The window of a message is a new one. -/
def Opens (v : PeerView) : Prop := ∀ stats, v.stats = some stats → config.windowDuration ≤ now - stats.windowStart

/-- The arithmetic of a message does not overflow: the sum of bytes, if the message gets to it, and
where an overflow stops the program also the bandwidth and the number of violations. -/
def Fits (v : PeerView) (size : Fin (2 ^ 64)) : Prop :=
  (v.isBanned banDuration now).1 = false →
    (checks = true → ((v.isBanned banDuration now).2.stats.getD (.new now)).violations + 1 < 2 ^ 64) ∧
    (size ≤ config.maxMessageSize → (v.current config now).messagesInWindow < config.maxMessagesPerWindow.val →
      (v.current config now).bytesInWindow + size.val < 2 ^ 64 ∧
        (checks = true → config.maxBandwidthPerPeer.val * Duration.asSecs config.windowDuration < 2 ^ 64))

instance (v : PeerView) (size : Fin (2 ^ 64)) : Decidable (v.Fits checks config banDuration now size) :=
  inferInstanceAs (Decidable (_ = _ → (_ = _ → _ < _) ∧ (_ ≤ _ → _ < _ → _ < _ ∧ (_ = _ → _ < _))))

theorem counters_isBanned (v : PeerView) : (v.isBanned banDuration now).2.counters = v.counters := by
  unfold isBanned
  split
  · split
    · rfl
    · simp only [counters, Option.map_map]
      rfl
  · rfl

theorem counters_maybeResetWindow (windowDuration : Nat) (a b : PeerStats) (h : a.counters = b.counters) :
    (a.maybeResetWindow now windowDuration).counters = (b.maybeResetWindow now windowDuration).counters := by
  have hstart : a.windowStart = b.windowStart := congrArg Prod.fst h
  unfold PeerStats.maybeResetWindow
  rw [hstart]
  split
  · rfl
  · exact h

/-- The counters a message comes to are those of before. -/
theorem counters_current (v w : PeerView) (h : v.counters = w.counters) :
    (v.current config now).counters = (w.current config now).counters := by
  refine counters_maybeResetWindow now _ _ _ ?_
  unfold counters at h
  cases hv : v.stats with
  | none =>
    rw [hv, Option.map_none, eq_comm, Option.map_eq_none_iff] at h
    rw [h]
  | some a =>
    rw [hv, Option.map_some, eq_comm, Option.map_eq_some_iff] at h
    obtain ⟨b, hb, heq⟩ := h
    rw [hb]
    exact heq.symm

theorem current_cases (v : PeerView) :
    (v.Opens config now ∧ (v.current config now).counters = (now, 0, 0)) ∨
      v.counters = some (v.current config now).counters := by
  unfold current counters Opens PeerStats.maybeResetWindow
  cases v.stats with
  | none =>
    refine .inl ⟨(fun stats h => by cases h), ?_⟩
    rw [Option.getD_none]
    split <;> rfl
  | some stats =>
    rw [Option.getD_some]
    split
    · next hdue => exact .inl ⟨fun s hs => Option.some.inj hs ▸ hdue, rfl⟩
    · exact .inr rfl

theorem current_of_opens (v : PeerView) (h : v.Opens config now) : (v.current config now).counters = (now, 0, 0) := by
  unfold Opens at h
  unfold current PeerStats.maybeResetWindow
  cases hv : v.stats with
  | none =>
    rw [Option.getD_none]
    split <;> rfl
  | some stats =>
    rw [Option.getD_some, if_pos (h stats hv)]
    rfl

/-- A violation leaves the counters, or starts them. -/
theorem counters_recordViolation (v u : PeerView) (h : v.recordViolation checks now = some u) :
    u.counters = some (v.stats.getD (.new now)).counters := by
  unfold recordViolation PeerStats.recordViolation at h
  rw [Option.map_map] at h
  obtain ⟨n, -, rfl⟩ := Option.map_eq_some_iff.mp h
  rfl

theorem recordViolation_isSome (v : PeerView)
    (h : checks = true → (v.stats.getD (.new now)).violations + 1 < 2 ^ 64) :
    ∃ u, v.recordViolation checks now = some u := by
  unfold recordViolation PeerStats.recordViolation
  cases checks with
  | false => exact ⟨_, by rw [Word.addW_unchecked]; rfl⟩
  | true => exact ⟨_, by rw [Word.addW_of_lt _ _ _ _ (h rfl)]; rfl⟩

/-- What a message does to the counters: it is let through and counted, or it is refused. -/
inductive Checked (v u : PeerView) (size : Fin (2 ^ 64)) : Except RateLimitError Unit → Prop where
  | accepted (hfree : (v.isBanned banDuration now).1 = false)
    (hmessages : (v.current config now).messagesInWindow < config.maxMessagesPerWindow.val)
    (hbytes : (v.current config now).bytesInWindow + size.val ≤
      config.maxBandwidthPerPeer.val * Duration.asSecs config.windowDuration)
    (hcounters : u.counters = some ((v.current config now).windowStart,
      (v.current config now).messagesInWindow + 1, (v.current config now).bytesInWindow + size.val)) :
    Checked v u size (.ok ())
  | kept (e : RateLimitError) (h : u.counters = v.counters) : Checked v u size (.error e)
  | opened (e : RateLimitError) (hopens : v.Opens config now) (h : u.counters = some (now, 0, 0)) :
    Checked v u size (.error e)

theorem violations_current (v : PeerView) :
    (v.current config now).violations = (v.stats.getD (.new now)).violations := by
  unfold current PeerStats.maybeResetWindow
  split <;> rfl

theorem exists_mulW (a b : Nat) (h : checks = true → a * b < 2 ^ 64) :
    ∃ n, Word.mulW checks 64 a b = some n ∧ n ≤ a * b := by
  cases checks with
  | false => exact ⟨_, Word.mulW_unchecked 64 a b, Nat.mod_le _ _⟩
  | true => exact ⟨_, Word.mulW_of_lt true 64 a b (h rfl), le_rfl⟩

/-- A violation of the peer as it was, or with its window. -/
theorem checked_violation (v w x : PeerView) (size : Fin (2 ^ 64)) (e : RateLimitError)
    (hw : w.counters = v.counters) (hx : x.stats = w.stats ∨ x.stats = some (w.current config now))
    (hfits : checks = true → (w.stats.getD (.new now)).violations + 1 < 2 ^ 64) :
    ∃ u, x.recordViolation checks now = some u ∧ Checked config banDuration now v u size (.error e) := by
  have hopens : w.Opens config now → v.Opens config now := by
    intro h stats hstats
    have heq : w.counters = some stats.counters := by
      rw [hw]
      unfold counters
      rw [hstats]
      rfl
    obtain ⟨stats', hs', hc⟩ := Option.map_eq_some_iff.mp heq
    have := h stats' hs'
    rwa [show stats'.windowStart = stats.windowStart from congrArg Prod.fst hc] at this
  have hx' : checks = true → (x.stats.getD (.new now)).violations + 1 < 2 ^ 64 := by
    rcases hx with hx | hx
    · rw [hx]
      exact hfits
    · rw [hx, Option.getD_some, violations_current]
      exact hfits
  obtain ⟨u, hu⟩ := recordViolation_isSome checks now x hx'
  have hcounters := counters_recordViolation checks now x u hu
  refine ⟨u, hu, ?_⟩
  rcases hx with hx | hx
  · rw [hx] at hcounters
    cases hstats : w.stats with
    | none =>
      rw [hstats] at hcounters
      exact .opened e (hopens fun stats h => by rw [hstats] at h; cases h) hcounters
    | some stats =>
      rw [hstats] at hcounters
      refine .kept e (hcounters.trans (Eq.trans ?_ hw))
      unfold counters
      rw [hstats]
      rfl
  · rw [hx, Option.getD_some] at hcounters
    rcases current_cases config now w with ⟨hdue, hcur⟩ | hcur
    · exact .opened e (hopens hdue) (hcounters.trans (congrArg some hcur))
    · exact .kept e (hcounters.trans (hcur.symm.trans hw))

theorem checkLimits_checked (v w : PeerView) (size : Fin (2 ^ 64)) (hw : w.counters = v.counters)
    (hfree : (v.isBanned banDuration now).1 = false)
    (hviolations : checks = true → (w.stats.getD (.new now)).violations + 1 < 2 ^ 64)
    (hfits : size ≤ config.maxMessageSize →
      (v.current config now).messagesInWindow < config.maxMessagesPerWindow.val →
      (v.current config now).bytesInWindow + size.val < 2 ^ 64 ∧
        (checks = true → config.maxBandwidthPerPeer.val * Duration.asSecs config.windowDuration < 2 ^ 64)) :
    ∃ u r, w.checkLimits checks config now size = some (u, r) ∧ Checked config banDuration now v u size r := by
  have hcur := counters_current config now w v hw
  have hstart : (w.current config now).windowStart = (v.current config now).windowStart := congrArg Prod.fst hcur
  have hcount : (w.current config now).messagesInWindow = (v.current config now).messagesInWindow :=
    congrArg (fun c => c.2.1) hcur
  have hbytes : (w.current config now).bytesInWindow = (v.current config now).bytesInWindow :=
    congrArg (fun c => c.2.2) hcur
  unfold checkLimits
  rw [hcount, hbytes]
  split
  · obtain ⟨u, hu, hchecked⟩ := checked_violation checks config banDuration now v w w size
      (.messageTooLarge size.val config.maxMessageSize.val) hw (.inl rfl) hviolations
    exact ⟨u, _, by rw [hu]; rfl, hchecked⟩
  · next hsize =>
    have hviolation : ∀ e, ∃ u, PeerView.recordViolation checks now ⟨some (w.current config now), w.ban⟩ = some u ∧
        Checked config banDuration now v u size (.error e) := fun e =>
      checked_violation checks config banDuration now v w _ size e hw (.inr rfl) hviolations
    split
    · obtain ⟨u, hu, hchecked⟩ := hviolation
        (.tooManyMessages (v.current config now).messagesInWindow config.maxMessagesPerWindow.val)
      exact ⟨u, _, by rw [hu]; rfl, hchecked⟩
    · next hroom =>
      have hlt := Nat.lt_of_not_le hroom
      obtain ⟨hsum, hproduct⟩ := hfits (not_lt.mp hsize) hlt
      obtain ⟨bandwidth, hbandwidth, hle⟩ := exists_mulW checks _ _ hproduct
      rw [Word.addW_of_lt _ _ _ _ hsum, hbandwidth, Option.bind_some, Option.bind_some]
      split
      · obtain ⟨u, hu, hchecked⟩ := hviolation .bandwidthExceeded
        exact ⟨u, _, by rw [hu]; rfl, hchecked⟩
      · next hunder =>
        have hmax := config.maxMessagesPerWindow.isLt
        rw [Word.addW_of_lt _ _ _ _ (by omega)]
        refine ⟨_, _, rfl, .accepted hfree hlt ((Nat.le_of_not_lt hunder).trans hle) ?_⟩
        simp only [counters, Option.map_some, PeerStats.counters, hstart]

theorem checkMessage_checked (v : PeerView) (size : Fin (2 ^ 64))
    (hfits : v.Fits checks config banDuration now size) :
    ∃ u r, v.checkMessage checks config banDuration now size = some (u, r) ∧
      Checked config banDuration now v u size r ∧
      ((v.isBanned banDuration now).1 = true → u.ban = v.ban ∧ r = .error .peerBanned) := by
  have hw := counters_isBanned banDuration now v
  unfold checkMessage
  rcases hv : v.isBanned banDuration now with ⟨_ | _, w⟩
  · have hfree : (v.isBanned banDuration now).1 = false := congrArg Prod.fst hv
    obtain ⟨hviolations, hsum⟩ := hfits hfree
    rw [hv] at hw hviolations
    obtain ⟨u, r, hr, hchecked⟩ := checkLimits_checked checks config banDuration now v w size hw hfree hviolations hsum
    exact ⟨u, r, hr, hchecked, fun h => by cases h⟩
  · have hsame : w = v := by
      unfold isBanned at hv
      split at hv
      · split at hv
        · exact (congrArg Prod.snd hv).symm
        · cases hv
      · cases hv
    exact ⟨w, _, rfl, .kept _ (by rw [hsame]), fun _ => ⟨by rw [hsame], rfl⟩⟩

/-! ## Counters as windows -/

/-- One of the two counters: what a message adds to it, and its limit. -/
structure Counter where
  value : Nat × Nat × Nat → Nat
  gain : Fin (2 ^ 64) → Nat
  limit : Nat
  value_new : ∀ now, value (now, 0, 0) = 0
  value_add : ∀ start messages bytes (size : Fin (2 ^ 64)),
    value (start, messages + 1, bytes + size.val) = value (start, messages, bytes) + gain size
  value_le : ∀ start messages bytes (size : Fin (2 ^ 64)), messages < config.maxMessagesPerWindow.val →
    bytes + size.val ≤ config.maxBandwidthPerPeer.val * Duration.asSecs config.windowDuration →
    value (start, messages, bytes) + gain size ≤ limit

def messageCounter : Counter config where
  value c := c.2.1
  gain _ := 1
  limit := config.maxMessagesPerWindow.val
  value_new _ := rfl
  value_add _ _ _ _ := rfl
  value_le _ _ _ _ h _ := h

def byteCounter : Counter config where
  value c := c.2.2
  gain size := size.val
  limit := config.maxBandwidthPerPeer.val * Duration.asSecs config.windowDuration
  value_new _ := rfl
  value_add _ _ _ _ := rfl
  value_le _ _ _ _ _ h := h

variable {config}

def window (c : Counter config) (v : PeerView) : Option LazyWindow :=
  v.counters.map fun x => ⟨x.1, c.value x⟩

theorem roll_window (c : Counter config) (v : PeerView) :
    LazyWindow.roll config.windowDuration now (v.window c) =
      ⟨(v.current config now).windowStart, c.value (v.current config now).counters⟩ := by
  unfold window counters current PeerStats.maybeResetWindow LazyWindow.roll
  cases v.stats with
  | none =>
    dsimp only [Option.map_none, Option.getD_none]
    have hnew := c.value_new now
    split
    · exact congrArg _ hnew.symm
    · exact congrArg _ hnew.symm
  | some stats =>
    dsimp only [Option.map_some, Option.getD_some, PeerStats.counters]
    split
    · exact congrArg _ (c.value_new now).symm
    · rfl

/-- What an operation with this outcome lets through. -/
def gained (c : Counter config) : NetworkRateLimiter.PeerOp → Option (Except RateLimitError Unit) → Nat
  | .checkMessage size, some (.ok ()) => c.gain size
  | _, _ => 0

theorem passes_checked (c : Counter config) (v u : PeerView) (size : Fin (2 ^ 64)) (r : Except RateLimitError Unit)
    (h : Checked config banDuration now v u size r) :
    LazyWindow.Passes config.windowDuration c.limit now (v.window c) (u.window c)
      (gained c (.checkMessage size) (some r)) := by
  have hroll := roll_window now c v
  cases h with
  | accepted hfree hmessages hbytes hcounters =>
    have hle := c.value_le (v.current config now).windowStart _ _ size hmessages hbytes
    have hu : u.window c = some ⟨(LazyWindow.roll config.windowDuration now (v.window c)).start,
        (LazyWindow.roll config.windowDuration now (v.window c)).count + c.gain size⟩ := by
      unfold window at hroll ⊢
      rw [hroll, hcounters, Option.map_some, c.value_add]
      rfl
    rw [hu]
    refine .accept _ _ ?_
    rw [hroll]
    exact hle
  | kept e hcounters =>
    have hu : u.window c = v.window c := by
      unfold window
      rw [hcounters]
    rw [hu]
    exact .idle _
  | opened e hopens hcounters =>
    have hu : u.window c = some (LazyWindow.roll config.windowDuration now (v.window c)) := by
      rw [hroll]
      unfold window
      have hcur := current_of_opens config now v hopens
      rw [hcounters, Option.map_some, hcur, show (v.current config now).windowStart = now from congrArg Prod.fst hcur]
    rw [hu]
    exact .refuse _

/-- What an operation does to a counter of the peer. -/
theorem passes_apply (c : Counter config) (hwindow : config.windowDuration ≤ Duration.fromSecs 3600)
    (v u : PeerView) (op : NetworkRateLimiter.PeerOp) (oc : Option (Except RateLimitError Unit))
    (hfits : ∀ size, op = .checkMessage size → v.Fits checks config banDuration now size)
    (h : v.apply checks config banDuration now op = some (u, oc)) :
    LazyWindow.Passes config.windowDuration c.limit now (v.window c) (u.window c) (gained c op oc) := by
  have hidle : ∀ w : PeerView, w.counters = v.counters →
      LazyWindow.Passes config.windowDuration c.limit now (v.window c) (w.window c) 0 := by
    intro w hcounters
    have hw : w.window c = v.window c := by
      unfold window
      rw [hcounters]
    rw [hw]
    exact .idle _
  cases op with
  | checkMessage size =>
    obtain ⟨w, r, hr, hchecked, -⟩ := checkMessage_checked checks config banDuration now v size (hfits size rfl)
    change (v.checkMessage checks config banDuration now size).map (fun r => (r.1, some r.2)) = some (u, oc) at h
    rw [hr] at h
    cases h
    exact passes_checked banDuration now c v _ size r hchecked
  | isBanned =>
    cases h
    exact hidle _ (counters_isBanned banDuration now v)
  | ban =>
    cases h
    exact hidle _ rfl
  | unban =>
    cases h
    refine hidle _ ?_
    simp only [counters, unban, Option.map_map]
    rfl
  | cleanup =>
    cases h
    change LazyWindow.Passes config.windowDuration c.limit now (v.window c) _ 0
    unfold window counters cleanup
    cases hv : v.stats with
    | none => exact .idle none
    | some stats =>
      dsimp only [Option.filter_some, Option.map_some]
      split
      · exact .idle _
      · next hold =>
        refine .drop _ (hwindow.trans ?_)
        rw [decide_eq_true_eq, not_lt] at hold
        exact hold

/-- During a ban messages are refused, and only lifting it ends it. -/
theorem banned_apply (t : Nat) (v u : PeerView) (op : NetworkRateLimiter.PeerOp)
    (oc : Option (Except RateLimitError Unit)) (hpos : 0 < banDuration) (hle : t ≤ now) (hnow : now < t + banDuration)
    (hban : ∃ banTime, t ≤ banTime ∧ v.ban = some banTime) (hop : op ≠ .unban)
    (h : v.apply checks config banDuration now op = some (u, oc)) :
    (∃ banTime, t ≤ banTime ∧ u.ban = some banTime) ∧
      ∀ size, op = .checkMessage size → oc = some (.error .peerBanned) := by
  obtain ⟨banTime, hafter, hban⟩ := hban
  have hin : now - banTime < banDuration := by omega
  have hbanned : v.isBanned banDuration now = (true, v) := by
    unfold isBanned
    rw [hban]
    exact if_pos hin
  cases op with
  | checkMessage size =>
    unfold apply checkMessage at h
    rw [hbanned] at h
    cases h
    exact ⟨⟨banTime, hafter, hban⟩, fun _ _ => rfl⟩
  | isBanned =>
    unfold apply at h
    rw [hbanned] at h
    cases h
    exact ⟨⟨banTime, hafter, hban⟩, fun _ h => by cases h⟩
  | ban =>
    cases h
    exact ⟨⟨now, hle, rfl⟩, fun _ h => by cases h⟩
  | unban => exact absurd rfl hop
  | cleanup =>
    cases h
    refine ⟨⟨banTime, hafter, ?_⟩, fun _ h => by cases h⟩
    simp only [cleanup, hban, Option.filter_some, hin, decide_true, if_true]

end PeerView

/-! ## Runs -/

namespace NetworkRateLimiter

variable {PeerId : Type} [LinearOrder PeerId] (checks : Bool)

/-- The message of the peer that is let through, by its size. -/
def acceptedFrom (p : PeerId) (o : Option (NetworkRateLimiter PeerId)) (e : Event PeerId) : Option (Fin (2 ^ 64)) :=
  match e.op.at p, outcome checks o e with
  | some (.checkMessage size), some (.ok ()) => some size
  | _, _ => none

def acceptedMessages (p : PeerId) (o : Option (NetworkRateLimiter PeerId)) (e : Event PeerId) : Nat :=
  (acceptedFrom checks p o e).elim 0 fun _ => 1

def acceptedBytes (p : PeerId) (o : Option (NetworkRateLimiter PeerId)) (e : Event PeerId) : Nat :=
  (acceptedFrom checks p o e).elim 0 Fin.val

/-- The outcomes of a peer's messages. -/
def outcomes (p : PeerId) : Option (NetworkRateLimiter PeerId) → List (Event PeerId) →
    List (Option (Except RateLimitError Unit))
  | _, [] => []
  | o, e :: l =>
    match e.op.at p with
    | some (.checkMessage _) => outcome checks o e :: outcomes p (step checks o e) l
    | _ => outcomes p (step checks o e) l

/-- The counters of a peer, 0 without statistics. -/
def counts (p : PeerId) (o : Option (NetworkRateLimiter PeerId)) : Nat × Nat :=
  (o.bind fun s => s.peerStats.find? p).elim (0, 0) fun stats => (stats.messagesInWindow, stats.bytesInWindow)

/-- The window of the peer is over, or there is none. -/
def WindowOver (p : PeerId) (now : Nat) (o : Option (NetworkRateLimiter PeerId)) : Prop :=
  ∀ s stats, o = some s → s.peerStats.find? p = some stats → s.config.windowDuration ≤ now - stats.windowStart

/-- The arithmetic of a message does not overflow. -/
def Fits (o : Option (NetworkRateLimiter PeerId)) (e : Event PeerId) : Prop :=
  ∀ s q size, o = some s → e.op = .checkMessage q size →
    (s.view q).Fits checks s.config s.banDuration e.time size

theorem fits_iff (s : NetworkRateLimiter PeerId) (e : Event PeerId) : Fits checks (some s) e ↔
    match e.op with
    | .checkMessage q size => (s.view q).Fits checks s.config s.banDuration e.time size
    | _ => True := by
  constructor
  · intro h
    split
    · next q size hop => exact h s q size rfl hop
    · trivial
  · rintro h s' q size hs hop
    cases hs
    rw [hop] at h
    exact h

instance decidableFits : (o : Option (NetworkRateLimiter PeerId)) → (e : Event PeerId) → Decidable (Fits checks o e)
  | none, _ => .isTrue fun s _ _ h => absurd h (Option.some_ne_none s).symm
  | some s, ⟨time, .checkMessage q size⟩ =>
    @decidable_of_iff' _ _ (fits_iff checks s ⟨time, .checkMessage q size⟩)
      (inferInstanceAs (Decidable ((s.view q).Fits checks s.config s.banDuration time size)))
  | some s, ⟨time, .isBanned q⟩ => .isTrue ((fits_iff checks s ⟨time, .isBanned q⟩).mpr trivial)
  | some s, ⟨time, .banPeer q⟩ => .isTrue ((fits_iff checks s ⟨time, .banPeer q⟩).mpr trivial)
  | some s, ⟨time, .unbanPeer q⟩ => .isTrue ((fits_iff checks s ⟨time, .unbanPeer q⟩).mpr trivial)
  | some s, ⟨time, .cleanup⟩ => .isTrue ((fits_iff checks s ⟨time, .cleanup⟩).mpr trivial)

/-- The limiter has not been stopped. -/
def Live (config : RateLimitConfig) (o : Option (NetworkRateLimiter PeerId)) : Prop :=
  ∃ s, o = some s ∧ s.config = config ∧ s.banDuration = Duration.fromSecs 3600

theorem live_new (config : RateLimitConfig) : Live config (some (new config : NetworkRateLimiter PeerId)) :=
  ⟨_, rfl, rfl, rfl⟩

theorem apply_isSome (s : NetworkRateLimiter PeerId) (e : Event PeerId) (h : Fits checks (some s) e) :
    ∃ r, s.apply checks e = some r := by
  obtain ⟨time, op⟩ := e
  cases op with
  | checkMessage q size =>
    obtain ⟨-, hview⟩ := checkMessage_view checks time s q size
    obtain ⟨u, r, hr, -⟩ := PeerView.checkMessage_checked checks s.config s.banDuration time (s.view q) size
      (h s q size rfl rfl)
    rw [hr, Option.map_eq_some_iff] at hview
    obtain ⟨t, ht, -⟩ := hview
    exact ⟨_, congrArg (Option.map _) ht⟩
  | isBanned q => exact ⟨_, rfl⟩
  | banPeer q => exact ⟨_, rfl⟩
  | unbanPeer q => exact ⟨_, rfl⟩
  | cleanup => exact ⟨_, rfl⟩

/-- The operation on the limiter that is this one to the peer. -/
def PeerOp.toOp (p : PeerId) : PeerOp → Op PeerId
  | .checkMessage size => .checkMessage p size
  | .isBanned => .isBanned p
  | .ban => .banPeer p
  | .unban => .unbanPeer p
  | .cleanup => .cleanup

theorem toOp_of_at (p : PeerId) (op : Op PeerId) (o : PeerOp) (h : op.at p = some o) : o.toOp p = op := by
  have hown : ∀ (q : PeerId) (o' : PeerOp), (if q = p then some o' else none) = some o → q = p ∧ o' = o := by
    simp
  cases op with
  | checkMessage q size =>
    obtain ⟨rfl, rfl⟩ := hown q _ h
    rfl
  | isBanned q =>
    obtain ⟨rfl, rfl⟩ := hown q _ h
    rfl
  | banPeer q =>
    obtain ⟨rfl, rfl⟩ := hown q _ h
    rfl
  | unbanPeer q =>
    obtain ⟨rfl, rfl⟩ := hown q _ h
    rfl
  | cleanup =>
    cases h
    rfl

/-- **One operation**, and what the peer sees of it. -/
theorem step_view (p : PeerId) (s : NetworkRateLimiter PeerId) (e : Event PeerId) (h : Fits checks (some s) e) :
    ∃ t oc, step checks (some s) e = some t ∧ outcome checks (some s) e = oc ∧
      t.config = s.config ∧ t.banDuration = s.banDuration ∧ (e.op.at p = none → t.view p = s.view p) ∧
      ∀ op, e.op.at p = some op →
        (s.view p).apply checks s.config s.banDuration e.time op = some (t.view p, oc) ∧
        ∀ size, op = .checkMessage size → (s.view p).Fits checks s.config s.banDuration e.time size := by
  obtain ⟨⟨t, oc⟩, hr⟩ := apply_isSome checks s e h
  obtain ⟨hall, hown⟩ := apply_view checks s e p
  obtain ⟨hconfig, hban, hother⟩ := hall _ hr
  refine ⟨t, oc, ?_, ?_, hconfig, hban, hother, fun op hop => ⟨?_, fun size hsize => ?_⟩⟩
  · unfold step
    rw [Option.bind_some, hr]
    rfl
  · unfold outcome
    rw [Option.bind_some, hr]
    rfl
  · rw [← hown op hop, hr]
    rfl
  · exact h s p size rfl (toOp_of_at p e.op (.checkMessage size) (hsize ▸ hop)).symm

theorem live_step (p : PeerId) (config : RateLimitConfig) (o : Option (NetworkRateLimiter PeerId)) (e : Event PeerId)
    (hlive : Live config o) (hfits : Fits checks o e) : Live config (step checks o e) := by
  obtain ⟨s, rfl, hconfig, hban⟩ := hlive
  obtain ⟨t, -, ht, -, hconfig', hban', -⟩ := step_view checks p s e hfits
  exact ⟨t, ht, hconfig'.trans hconfig, hban'.trans hban⟩

theorem live_foldl (p : PeerId) (config : RateLimitConfig) (events : List (Event PeerId))
    (hm : Run.Meets (step checks) (Fits checks) (some (new config)) events) :
    Live config (events.foldl (step checks) (some (new config))) :=
  Run.inv_foldl (step checks) (Fits checks) (Live config) (live_step checks p config) _ events (live_new config) hm

/-! ## Traffic -/

def windowOf {config : RateLimitConfig} (c : PeerView.Counter config) (p : PeerId)
    (o : Option (NetworkRateLimiter PeerId)) : Option LazyWindow :=
  o.bind fun s => (s.view p).window c

/-- What a peer gets through of one counter. -/
def gained {config : RateLimitConfig} (c : PeerView.Counter config) (p : PeerId)
    (o : Option (NetworkRateLimiter PeerId)) (e : Event PeerId) : Nat :=
  (acceptedFrom checks p o e).elim 0 c.gain

theorem passes_step {config : RateLimitConfig} (c : PeerView.Counter config) (p : PeerId)
    (hwindow : config.windowDuration ≤ Duration.fromSecs 3600) (o : Option (NetworkRateLimiter PeerId))
    (e : Event PeerId) (hlive : Live config o) (hfits : Fits checks o e) :
    LazyWindow.Passes config.windowDuration c.limit e.time (windowOf c p o) (windowOf c p (step checks o e))
      (gained checks c p o e) := by
  obtain ⟨s, rfl, rfl, hban⟩ := hlive
  obtain ⟨t, oc, ht, hoc, -, -, hother, hown⟩ := step_view checks p s e hfits
  unfold gained acceptedFrom
  rw [ht, hoc]
  change LazyWindow.Passes _ _ _ ((s.view p).window c) ((t.view p).window c) _
  cases hat : e.op.at p with
  | none =>
    rw [hother hat]
    exact .idle _
  | some op =>
    obtain ⟨happly, hopfits⟩ := hown op hat
    have hpasses := PeerView.passes_apply checks s.banDuration e.time c hwindow _ _ op oc hopfits happly
    have hgained : PeerView.gained c op oc = Option.elim (match some op, oc with
        | some (.checkMessage size), some (.ok ()) => some size
        | _, _ => none) 0 c.gain := by
      cases op with
      | checkMessage size =>
        cases oc with
        | none => rfl
        | some r => cases r <;> rfl
      | isBanned => rfl
      | ban => rfl
      | unban => rfl
      | cleanup => rfl
    rw [← hgained]
    exact hpasses

/-- **Two windows' worth**, of messages as of bytes. -/
theorem tally_gained_le {config : RateLimitConfig} (c : PeerView.Counter config) (p : PeerId)
    (hpos : 0 < config.windowDuration) (hwindow : config.windowDuration ≤ Duration.fromSecs 3600)
    (events : List (Event PeerId)) (hsorted : (events.map Event.time).Pairwise (· ≤ ·))
    (hm : Run.Meets (step checks) (Fits checks) (some (new config)) events) (a : Nat) :
    Run.tally (step checks) (fun o e => if a ≤ e.time ∧ e.time < a + config.windowDuration then gained checks c p o e else 0)
      (some (new config)) events ≤ 2 * c.limit := by
  have hlive := Run.meets_of_inv (step checks) (Fits checks) (fun o e => Live config o ∧ Fits checks o e)
    (Live config) (live_step checks p config) (fun o e h hf => ⟨h, hf⟩) _ events (live_new config) hm
  have := LazyWindow.tally_le (step checks) Event.time (windowOf c p) (gained checks c p) _ hpos
    (fun o e h => passes_step checks c p hwindow o e h.1 h.2) (some (new config)) events
    (LazyWindow.within_none config.windowDuration c.limit a) hlive
    (List.pairwise_cons.mpr ⟨fun _ _ => Nat.zero_le _, hsorted⟩)
  rwa [Nat.zero_add] at this

/-! ## Refused messages -/

/-- **A refused message** leaves the counters of the peer, or finds its window over and starts a new one. -/
theorem counts_of_refused (p : PeerId) (s : NetworkRateLimiter PeerId) (now : Nat) (size : Fin (2 ^ 64))
    (err : RateLimitError) (hfits : Fits checks (some s) ⟨now, .checkMessage p size⟩)
    (hrefused : outcome checks (some s) ⟨now, .checkMessage p size⟩ = some (.error err)) :
    counts p (step checks (some s) ⟨now, .checkMessage p size⟩) = counts p (some s) ∨
      WindowOver p now (some s) ∧ counts p (step checks (some s) ⟨now, .checkMessage p size⟩) = (0, 0) := by
  obtain ⟨t, oc, ht, hoc, -, -, -, hown⟩ := step_view checks p s _ hfits
  obtain ⟨happly, hopfits⟩ := hown (.checkMessage size) (if_pos rfl)
  obtain ⟨u, r, hr, hchecked, -⟩ := PeerView.checkMessage_checked checks s.config s.banDuration now (s.view p) size
    (hopfits size rfl)
  change ((s.view p).checkMessage checks s.config s.banDuration now size).map (fun r => (r.1, some r.2)) =
    some (t.view p, oc) at happly
  rw [hr] at happly
  obtain ⟨rfl, hoc'⟩ := Prod.mk.inj (Option.some.inj happly)
  rw [hrefused, ← hoc', Option.some.injEq] at hoc
  subst hoc
  have hcounts : ∀ s : NetworkRateLimiter PeerId,
      counts p (some s) = (s.view p).counters.elim (0, 0) fun c => (c.2.1, c.2.2) := by
    intro s
    unfold counts PeerView.counters
    cases h : s.peerStats.find? p with
    | none => simp [view, h]
    | some stats => simp [view, h, PeerStats.counters]
  rw [ht, hcounts, hcounts]
  cases hchecked with
  | kept _ h => exact .inl (by rw [h])
  | opened _ hopens h =>
    refine .inr ⟨fun s' stats hs hstats => ?_, by rw [h]; rfl⟩
    cases hs
    exact hopens stats hstats

/-! ## Bans -/

/-- Until it is over or lifted, a ban stays. -/
theorem banned_foldl (p : PeerId) (config : RateLimitConfig) (t : Nat) (events : List (Event PeerId))
    (o : Option (NetworkRateLimiter PeerId)) (hlive : Live config o)
    (hban : ∃ s banTime, o = some s ∧ t ≤ banTime ∧ (s.view p).ban = some banTime)
    (htimes : ∀ e ∈ events, t ≤ e.time ∧ e.time < t + Duration.fromSecs 3600)
    (hlifted : ∀ e ∈ events, e.op ≠ .unbanPeer p) (hm : Run.Meets (step checks) (Fits checks) o events) :
    ∃ s banTime, events.foldl (step checks) o = some s ∧ t ≤ banTime ∧ (s.view p).ban = some banTime := by
  induction events generalizing o with
  | nil => exact hban
  | cons e events ih =>
    obtain ⟨s, banTime, rfl, hle, hs⟩ := hban
    obtain ⟨r, hr⟩ := apply_isSome checks s e hm.1
    obtain ⟨s', heq, hconfig, hduration⟩ := hlive
    cases heq
    obtain ⟨u, oc, hu, -, -, -, hother, hown⟩ := step_view checks p s e hm.1
    refine ih _ (live_step checks p config _ e ⟨s, rfl, hconfig, hduration⟩ hm.1) ⟨u, ?_⟩
      (fun e' he => htimes e' (List.mem_cons_of_mem e he)) (fun e' he => hlifted e' (List.mem_cons_of_mem e he)) hm.2
    cases hat : e.op.at p with
    | none => exact ⟨banTime, hu, hle, by rw [hother hat]; exact hs⟩
    | some op =>
      obtain ⟨happly, -⟩ := hown op hat
      have htime := htimes e List.mem_cons_self
      have hop : op ≠ .unban := by
        rintro rfl
        exact hlifted e List.mem_cons_self (toOp_of_at p e.op .unban hat).symm
      obtain ⟨⟨banTime', hle', hu'⟩, -⟩ := PeerView.banned_apply checks s.banDuration e.time t _ _ op oc
        (hduration ▸ Nat.mul_pos (by decide) (by decide)) htime.1 (hduration ▸ htime.2) ⟨banTime, hle, hs⟩ hop happly
      exact ⟨banTime', hu, hle', hu'⟩

theorem outcome_during_ban (p : PeerId) (config : RateLimitConfig) (o : Option (NetworkRateLimiter PeerId))
    (t : Nat) (mid : List (Event PeerId)) (now : Nat) (size : Fin (2 ^ 64)) (hlive : Live config o)
    (hban : (o.bind fun s => s.bannedPeers.find? p) = some t)
    (htimes : ∀ e ∈ mid, t ≤ e.time ∧ e.time ≤ now) (hle : t ≤ now) (hnow : now < t + Duration.fromSecs 3600)
    (hlifted : ∀ e ∈ mid, e.op ≠ .unbanPeer p)
    (hm : Run.Meets (step checks) (Fits checks) o (mid ++ [⟨now, .checkMessage p size⟩])) :
    outcome checks (mid.foldl (step checks) o) ⟨now, .checkMessage p size⟩ = some (.error .peerBanned) := by
  obtain ⟨s, rfl, hconfig, hduration⟩ := hlive
  rw [Run.meets_append] at hm
  have htimes' : ∀ e ∈ mid, t ≤ e.time ∧ e.time < t + Duration.fromSecs 3600 := fun e he =>
    ⟨(htimes e he).1, (htimes e he).2.trans_lt hnow⟩
  obtain ⟨u, banTime, hu, hafter, hbanned⟩ := banned_foldl checks p config t mid (some s) ⟨s, rfl, hconfig, hduration⟩
    ⟨s, t, rfl, le_rfl, hban⟩ htimes' hlifted hm.1
  have hlast := hm.2.1
  obtain ⟨s', hs', -, hduration'⟩ := Run.inv_foldl (step checks) (Fits checks) (Live config)
    (live_step checks p config) _ mid ⟨s, rfl, hconfig, hduration⟩ hm.1
  rw [hu] at hs' hlast ⊢
  cases hs'
  obtain ⟨t', oc, -, hoc, -, -, -, hown⟩ := step_view checks p u _ hlast
  obtain ⟨happly, -⟩ := hown (.checkMessage size) (if_pos rfl)
  obtain ⟨-, hout⟩ := PeerView.banned_apply checks u.banDuration now t _ _ _ oc
    (hduration' ▸ Nat.mul_pos (by decide) (by decide)) hle (hduration' ▸ hnow) ⟨banTime, hafter, hbanned⟩
    (by simp) happly
  rw [hoc]
  exact hout size rfl

/-! ## Independence -/

/-- Two limiters that are the same to the peer give its messages the same outcomes, whatever the first
is asked about others. -/
theorem outcomes_filter (p : PeerId) (events : List (Event PeerId)) (s t : NetworkRateLimiter PeerId)
    (hconfig : t.config = s.config) (hban : t.banDuration = s.banDuration) (hview : t.view p = s.view p)
    (hm : Run.Meets (step checks) (Fits checks) (some s) events) :
    outcomes checks p (some s) events =
      outcomes checks p (some t) (events.filter fun e => (e.op.at p).isSome) := by
  induction events generalizing s t with
  | nil => rfl
  | cons e events ih =>
    obtain ⟨s', oc, hs', hoc, hconfig', hban', hother, hown⟩ := step_view checks p s e hm.1
    have hrest := hm.2
    rw [hs'] at hrest
    cases hat : e.op.at p with
    | none =>
      rw [List.filter_cons_of_neg (by rw [hat]; exact Bool.false_ne_true), outcomes, hat, hs']
      exact ih s' t (hconfig.trans hconfig'.symm) (hban.trans hban'.symm) (hview.trans (hother hat).symm) hrest
    | some op =>
      obtain ⟨happly, -⟩ := hown op hat
      obtain ⟨hall, hsame⟩ := apply_view checks t e p
      have hstep := hsame op hat
      rw [hview, hconfig, hban, happly, Option.map_eq_some_iff] at hstep
      obtain ⟨⟨t', oc'⟩, ht', heq⟩ := hstep
      obtain ⟨hview', rfl⟩ := Prod.mk.inj heq
      obtain ⟨htconfig, htban, -⟩ := hall _ ht'
      have hnext : step checks (some t) e = some t' := by
        unfold step
        rw [Option.bind_some, ht']
        rfl
      have hout : outcome checks (some t) e = outcome checks (some s) e := by
        rw [hoc]
        unfold outcome
        rw [Option.bind_some, ht']
        rfl
      have hih := ih s' t' (htconfig.trans (hconfig.trans hconfig'.symm)) (htban.trans (hban.trans hban'.symm))
        hview' hrest
      rw [List.filter_cons_of_pos (by rw [hat]; rfl), outcomes, outcomes, hat, hs', hnext, hout]
      cases op <;> simp only [hih]

/-- A message of a peer. -/
def message (now : Nat) (p : PeerId) (size : Fin (2 ^ 64)) : Event PeerId := ⟨now, .checkMessage p size⟩

/-- **Rate limits.**  In every run in which the arithmetic fits, a peer gets through at most two windows'
worth of messages and of bytes in an interval as long as a window; during a ban that is not lifted
nothing; a refused message counts for nothing; and the outcomes are those of the run without the
operations on other peers. -/
theorem rate_limited (config : RateLimitConfig) (secs : Nat) (hsecs : config.windowDuration = Duration.fromSecs secs)
    (hpos : 1 ≤ secs) (hhour : secs ≤ 3600) (events : List (Event PeerId))
    (hsorted : (events.map Event.time).Pairwise (· ≤ ·))
    (hfits : Run.Meets (step checks) (Fits checks) (some (new config)) events) (p : PeerId) :
    (∀ a, Run.tally (step checks)
      (fun o e => if a ≤ e.time ∧ e.time < a + config.windowDuration then acceptedMessages checks p o e else 0)
      (some (new config)) events ≤ 2 * config.maxMessagesPerWindow.val) ∧
    (∀ a, Run.tally (step checks)
      (fun o e => if a ≤ e.time ∧ e.time < a + config.windowDuration then acceptedBytes checks p o e else 0)
      (some (new config)) events ≤ 2 * (config.maxBandwidthPerPeer.val * secs)) ∧
    (∀ (pre : List (Event PeerId)) e mid now size post, events = pre ++ e :: (mid ++ message now p size :: post) →
      (((pre ++ [e]).foldl (step checks) (some (new config))).bind fun s => s.bannedPeers.find? p) = some e.time →
      (∀ m ∈ mid, m.op ≠ .unbanPeer p) → now < e.time + Duration.fromSecs 3600 →
      outcome checks ((pre ++ e :: mid).foldl (step checks) (some (new config))) (message now p size) =
        some (.error .peerBanned)) ∧
    (∀ (pre : List (Event PeerId)) now size post err, events = pre ++ message now p size :: post →
      outcome checks (pre.foldl (step checks) (some (new config))) (message now p size) = some (.error err) →
      counts p ((pre ++ [message now p size]).foldl (step checks) (some (new config))) =
        counts p (pre.foldl (step checks) (some (new config))) ∨
      WindowOver p now (pre.foldl (step checks) (some (new config))) ∧
        counts p ((pre ++ [message now p size]).foldl (step checks) (some (new config))) = (0, 0)) ∧
    outcomes checks p (some (new config)) events =
      outcomes checks p (some (new config)) (events.filter fun e => (e.op.at p).isSome) := by
  have hwindow : 0 < config.windowDuration := by
    rw [hsecs]
    exact Nat.mul_pos hpos (by decide)
  have hcleanup : config.windowDuration ≤ Duration.fromSecs 3600 := by
    rw [hsecs]
    exact Nat.mul_le_mul_right _ hhour
  refine ⟨?_, ?_, ?_, ?_, outcomes_filter checks p events _ _ rfl rfl rfl hfits⟩
  · exact tally_gained_le checks (PeerView.messageCounter config) p hwindow hcleanup events hsorted hfits
  · have hbytes := tally_gained_le checks (PeerView.byteCounter config) p hwindow hcleanup events hsorted hfits
    have hasSecs : Duration.asSecs config.windowDuration = secs := by
      rw [hsecs]
      exact Nat.mul_div_cancel secs (by decide)
    change ∀ a, _ ≤ 2 * (config.maxBandwidthPerPeer.val * Duration.asSecs config.windowDuration) at hbytes
    rw [hasSecs] at hbytes
    exact hbytes
  · rintro pre e mid now size post rfl hban hlifted hnow
    have hsplit : pre ++ e :: (mid ++ message now p size :: post) =
        (pre ++ [e]) ++ ((mid ++ [message now p size]) ++ post) := by simp
    rw [hsplit] at hfits
    have hparts := (Run.meets_append (step checks) (Fits checks) _ (pre ++ [e]) _).mp hfits
    have hmid := ((Run.meets_append (step checks) (Fits checks) _ (mid ++ [message now p size]) post).mp hparts.2).1
    have hafter : (e.time :: (mid ++ message now p size :: post).map Event.time).Pairwise (· ≤ ·) := by
      rw [List.map_append] at hsorted
      exact (List.pairwise_append.mp hsorted).2.1
    rw [List.map_append, List.map_cons, List.pairwise_cons, List.pairwise_append] at hafter
    have htimes : ∀ m ∈ mid, e.time ≤ m.time ∧ m.time ≤ now := fun m hm =>
      ⟨hafter.1 _ (List.mem_append_left _ (List.mem_map_of_mem hm)),
        hafter.2.2.2 _ (List.mem_map_of_mem hm) _ List.mem_cons_self⟩
    have hle : e.time ≤ now := hafter.1 now (List.mem_append_right _ List.mem_cons_self)
    have hout := outcome_during_ban checks p config _ e.time mid now size
      (live_foldl checks p config (pre ++ [e]) hparts.1) hban htimes hle hnow hlifted hmid
    rw [← List.foldl_append, List.append_assoc] at hout
    exact hout
  · rintro pre now size post err rfl hrefused
    rw [Run.meets_append] at hfits
    obtain ⟨s, hs, -, -⟩ := live_foldl checks p config pre hfits.1
    have hmsg := hfits.2.1
    rw [hs] at hrefused hmsg
    rw [List.foldl_append, List.foldl_cons, List.foldl_nil, hs]
    exact counts_of_refused checks p s now size err hmsg hrefused

/-- Two messages before a clean-up and one that is too large after it. -/
def sampleTraffic : List (Event Nat) := [message 0 7 100, message 1 7 1000, ⟨Duration.fromSecs 3600, .cleanup⟩,
  message (Duration.fromSecs 3601) 7 (2 ^ 32)]

theorem rate_limited_sample : Run.tally (step true)
    (fun o e => if 0 ≤ e.time ∧ e.time < 0 + RateLimitConfig.default.windowDuration then
      acceptedMessages true 7 o e else 0)
    (some (new .default)) sampleTraffic ≤ 2 * RateLimitConfig.default.maxMessagesPerWindow.val :=
  (rate_limited true .default 10 rfl (by decide) (by decide) sampleTraffic (by decide +kernel) (by decide +kernel) 7).1 0

/-- No limit on the size of a message. -/
def unlimitedSize : RateLimitConfig := { RateLimitConfig.default with maxMessageSize := Fin.last _ }

/-- The sum of bytes wraps to zero: a message of any size is let through. -/
theorem wrapped_bytes_accepted : 2 * (unlimitedSize.maxBandwidthPerPeer.val * 10) <
    Run.tally (step false)
      (fun o e => if 0 ≤ e.time ∧ e.time < 0 + unlimitedSize.windowDuration then acceptedBytes false 7 o e else 0)
      (some (new unlimitedSize)) [message 0 7 1, message 1 7 (Fin.last _)] := by
  decide +kernel

end NetworkRateLimiter

end Kratos
