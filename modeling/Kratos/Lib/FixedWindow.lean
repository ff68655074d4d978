import Kratos.Lib.Run

/-!
# Limits on fixed windows

A counter is set back when a window has passed since it was last set back, at the time of the call
that finds this out, and an event is let through while the counter is below its limit.  Between two
resets at least a window passes, so from `start` to `e` no more than
`limit * ((e - start) / window + 1)` events are let through, whatever the times of the calls
(`tally_le`).
-/

namespace Kratos

/-- The events let through since the last reset. -/
structure FixedWindow where
  count : Nat
  lastReset : Nat
deriving DecidableEq, Repr

namespace FixedWindow

/-- The reset that is due at a call. -/
def roll (window : Nat) (w : FixedWindow) (now : Nat) : FixedWindow :=
  if now ≥ w.lastReset + window then { count := 0, lastReset := now } else w

def add (w : FixedWindow) : FixedWindow := { w with count := w.count + 1 }

/-- What a call at a time does to the counter, and how many events it lets through. -/
inductive Passes (window limit now : Nat) (w : FixedWindow) : FixedWindow → Nat → Prop where
  /-- A call that is not about this counter, or does not get to it. -/
  | idle : Passes window limit now w w 0
  | refuse : Passes window limit now w (w.roll window now) 0
  | accept (h : (w.roll window now).count < limit) : Passes window limit now w (w.roll window now).add 1

/-- The events let through since `start`, by windows. -/
structure Within (window limit start now accepted : Nat) (w : FixedWindow) : Prop where
  started : start ≤ w.lastReset
  past : w.lastReset ≤ now
  count_le : w.count ≤ limit
  accepted_le : accepted ≤ limit * ((w.lastReset - start) / window) + w.count

variable {window limit start now now' accepted : Nat} {w : FixedWindow}

theorem Within.later (h : Within window limit start now accepted w) (hle : now ≤ now') :
    Within window limit start now' accepted w :=
  { h with past := h.past.trans hle }

/-- A reset closes a window, which held no more than the limit. -/
theorem Within.roll (hw : 0 < window) (h : Within window limit start now accepted w) (hle : now ≤ now') :
    Within window limit start now' accepted (w.roll window now') := by
  unfold FixedWindow.roll
  split
  · next hdue =>
    have hwindows : (w.lastReset - start) / window + 1 ≤ (now' - start) / window := by
      rw [← Nat.add_div_right _ hw]
      have := h.started
      exact Nat.div_le_div_right (by omega)
    have hmul := Nat.mul_le_mul_left limit hwindows
    rw [Nat.mul_add, Nat.mul_one] at hmul
    have hcount := h.count_le
    have haccepted := h.accepted_le
    have hpast := h.past
    have hstarted := h.started
    exact
      { started := by simp only; omega
        past := le_refl _
        count_le := Nat.zero_le _
        accepted_le := by simp only; omega }
  · exact h.later hle

theorem Within.add (h : Within window limit start now accepted w) (hlt : w.count < limit) :
    Within window limit start now (accepted + 1) w.add where
  started := h.started
  past := h.past
  count_le := hlt
  accepted_le := by
    have := h.accepted_le
    simp only [FixedWindow.add]
    omega

theorem Within.passes {w' : FixedWindow} {n : Nat} (hw : 0 < window)
    (h : Within window limit start now accepted w) (hle : now ≤ now') (hp : Passes window limit now' w w' n) :
    Within window limit start now' (accepted + n) w' := by
  cases hp with
  | idle => exact h.later hle
  | refuse => exact h.roll hw hle
  | accept hlt => exact (h.roll hw hle).add hlt

theorem Within.bound (h : Within window limit start now accepted w) (hle : now ≤ now') :
    accepted ≤ limit * ((now' - start) / window + 1) := by
  have hpast := h.past
  have hwindows : (w.lastReset - start) / window ≤ (now' - start) / window := Nat.div_le_div_right (by omega)
  have hmul := Nat.mul_le_mul_left limit hwindows
  have hcount := h.count_le
  have haccepted := h.accepted_le
  rw [Nat.mul_add, Nat.mul_one]
  omega

/-- **Rate rule.**  Calls of which each passes the counter let through no more than the limit for
each window begun since `start`. -/
theorem tally_le {σ α : Type} (step : σ → α → σ) (time : α → Nat) (win : σ → FixedWindow) (hit : σ → α → Nat)
    (hw : 0 < window) (hstep : ∀ s a, Passes window limit (time a) (win s) (win (step s a)) (hit s a))
    (s : σ) (l : List α) (e : Nat) (h : Within window limit start now accepted (win s))
    (hsorted : (now :: l.map time).Pairwise (· ≤ ·)) (hend : ∀ t ∈ now :: l.map time, t ≤ e) :
    accepted + Run.tally step hit s l ≤ limit * ((e - start) / window + 1) := by
  induction l generalizing s now accepted with
  | nil => exact h.bound (hend now List.mem_cons_self)
  | cons a l ih =>
    rw [List.map_cons, List.pairwise_cons] at hsorted
    have hle : now ≤ time a := hsorted.1 _ List.mem_cons_self
    have hnext := ih (step s a) (h.passes hw hle (hstep s a)) hsorted.2 fun t ht => hend t (List.mem_cons_of_mem _ ht)
    rwa [Run.tally, ← Nat.add_assoc]

end FixedWindow

end Kratos
