import Kratos.Lib.Run

/-!
# Windows that open with the first event

A window opens when the first event after the last one comes, and holds what is let through until it
is due; it may also be dropped once it is due.  What is let through, in whatever unit, is at most
`limit` for each window.  Two windows open at least a window's length apart, so an interval of that
length meets at most two of them (`tally_le`).
-/

namespace Kratos

/-- A window and what was let through since it opened. -/
structure LazyWindow where
  start : Nat
  count : Nat
deriving DecidableEq, Repr

namespace LazyWindow

/-- The window an event comes into. -/
def roll (window now : Nat) : Option LazyWindow → LazyWindow
  | some w => if now - w.start ≥ window then ⟨now, 0⟩ else w
  | none => ⟨now, 0⟩

/-- What a call at a time does to the window, and how much it lets through. -/
inductive Passes (window limit now : Nat) : Option LazyWindow → Option LazyWindow → Nat → Prop where
  /-- A call that is not about this window, or does not get to it. -/
  | idle (w : Option LazyWindow) : Passes window limit now w w 0
  | drop (w : LazyWindow) (h : window ≤ now - w.start) : Passes window limit now (some w) none 0
  | refuse (w : Option LazyWindow) : Passes window limit now w (some (roll window now w)) 0
  | accept (w : Option LazyWindow) (k : Nat) (h : (roll window now w).count + k ≤ limit) :
    Passes window limit now w (some ⟨(roll window now w).start, (roll window now w).count + k⟩) k

/-- What can have been let through since `a`: the window that was open before holds all of it, a later
one comes after one that held no more than the limit. -/
def held (limit a : Nat) : Option LazyWindow → Nat
  | some w => if w.start < a then w.count else limit + w.count
  | none => limit

/-- What was let through in the interval that starts at `a`, of the length of a window. -/
structure Within (window limit a now accepted : Nat) (w : Option LazyWindow) : Prop where
  past : ∀ x, w = some x → x.start ≤ now
  count_le : ∀ x, w = some x → x.count ≤ limit
  before : now < a → accepted = 0
  inside : now < a + window → accepted ≤ held limit a w
  total : accepted ≤ 2 * limit

variable {window limit a now now' accepted n : Nat} {w w' : Option LazyWindow}

theorem Within.later (h : Within window limit a now accepted w) (hle : now ≤ now') :
    Within window limit a now' accepted w where
  past x hx := (h.past x hx).trans hle
  count_le := h.count_le
  before hlt := h.before (hle.trans_lt hlt)
  inside hlt := h.inside (hle.trans_lt hlt)
  total := h.total

/-- A window that is due has nothing of an interval that has begun and is not over, but what it held
when the interval began. -/
theorem Within.due (h : Within window limit a now accepted w) (hle : now ≤ now') (x : LazyWindow)
    (hx : w = some x) (hdue : window ≤ now' - x.start) (hin : now' < a + window) (hpos : 0 < window) :
    accepted ≤ limit := by
  have hinside := h.inside (hle.trans_lt hin)
  have hcount := h.count_le x hx
  have hstart : x.start < a := by omega
  rw [hx, held, if_pos hstart] at hinside
  omega

theorem Within.roll (h : Within window limit a now accepted w) (hle : now ≤ now') (hpos : 0 < window) :
    Within window limit a now' accepted (some (LazyWindow.roll window now' w)) := by
  have hnew : (now' < a + window → accepted ≤ limit) →
      Within window limit a now' accepted (some ⟨now', 0⟩) := by
    intro hlimit
    refine ⟨fun x hx => ?_, fun x hx => ?_, (h.later hle).before, fun hin => ?_, h.total⟩
    · cases hx
      exact le_rfl
    · cases hx
      exact Nat.zero_le limit
    · unfold held
      dsimp only
      split
      · next hlt => exact ((h.later hle).before hlt).le
      · exact (hlimit hin).trans (Nat.le_add_right limit 0)
  cases w with
  | none => exact hnew fun hin => h.inside (hle.trans_lt hin)
  | some x =>
    unfold LazyWindow.roll
    dsimp only
    split
    · next hdue => exact hnew fun hin => h.due hle x rfl hdue hin hpos
    · exact h.later hle

theorem Within.add (h : Within window limit a now accepted w) (x : LazyWindow) (hw : w = some x) (k : Nat)
    (hk : x.count + k ≤ limit) :
    Within window limit a now (accepted + if a ≤ now ∧ now < a + window then k else 0)
      (some ⟨x.start, x.count + k⟩) := by
  have hbefore := h.before
  have hinside := h.inside
  have htotal := h.total
  have hcount := h.count_le x hw
  rw [hw] at hinside
  unfold held at hinside
  refine ⟨fun y hy => ?_, fun y hy => ?_, fun hlt => ?_, fun hin => ?_, ?_⟩
  · cases hy
    exact h.past x hw
  · cases hy
    exact hk
  · rw [hbefore hlt, if_neg (by omega)]
  · have hheld := hinside hin
    have hshare : (if a ≤ now ∧ now < a + window then k else 0) ≤ k := by
      split
      · exact le_rfl
      · exact Nat.zero_le k
    unfold held
    dsimp only at hheld ⊢
    by_cases hstart : x.start < a
    · rw [if_pos hstart] at hheld ⊢
      omega
    · rw [if_neg hstart] at hheld ⊢
      omega
  · split
    · next hin =>
      have hheld := hinside hin.2
      dsimp only at hheld
      split at hheld <;> omega
    · exact htotal

theorem Within.passes (hpos : 0 < window) (h : Within window limit a now accepted w) (hle : now ≤ now')
    (hp : Passes window limit now' w w' n) :
    Within window limit a now' (accepted + if a ≤ now' ∧ now' < a + window then n else 0) w' := by
  cases hp with
  | idle =>
    rw [ite_self]
    exact h.later hle
  | drop x hdue =>
    rw [ite_self]
    refine ⟨(fun y hy => by cases hy), (fun y hy => by cases hy), (h.later hle).before, fun hin => ?_, h.total⟩
    exact h.due hle x rfl hdue hin hpos
  | refuse =>
    rw [ite_self]
    exact h.roll hle hpos
  | accept _ k hk => exact (h.roll hle hpos).add _ rfl n hk

theorem within_none (window limit a : Nat) : Within window limit a 0 0 none :=
  ⟨(fun x hx => by cases hx), (fun x hx => by cases hx), fun _ => rfl, fun _ => Nat.zero_le _, Nat.zero_le _⟩

/-- **Two windows.**  Calls of which each passes the window let through no more than twice the limit in
any interval of its length. -/
theorem tally_le {σ α : Type} (step : σ → α → σ) (time : α → Nat) (win : σ → Option LazyWindow)
    (hit : σ → α → Nat) (P : σ → α → Prop) (hpos : 0 < window)
    (hstep : ∀ s x, P s x → Passes window limit (time x) (win s) (win (step s x)) (hit s x))
    (s : σ) (l : List α) (h : Within window limit a now accepted (win s)) (hm : Run.Meets step P s l)
    (hsorted : (now :: l.map time).Pairwise (· ≤ ·)) :
    accepted + Run.tally step (fun s x => if a ≤ time x ∧ time x < a + window then hit s x else 0) s l ≤
      2 * limit := by
  induction l generalizing s now accepted with
  | nil => exact h.total
  | cons x l ih =>
    rw [List.map_cons, List.pairwise_cons] at hsorted
    have hle : now ≤ time x := hsorted.1 _ List.mem_cons_self
    have hnext := ih (step s x) (h.passes hpos hle (hstep s x hm.1)) hm.2 hsorted.2
    rwa [Run.tally, ← Nat.add_assoc]

end LazyWindow

end Kratos
