import Mathlib

/-!
# Computations that fail and keep their state

`Fallible σ ε α` threads a state that survives a failure, as a method on a
mutable receiver does when it returns early.  `Keeps P m` says that `m` leads
from states with `P` to states with `P`, whether it succeeds or fails; the rules
follow the ways such computations are put together.  `ReadOnly` computations,
the checks that stand before the first write, leave the state alone.

A call that returns a new state or fails without having changed anything is an
`Except`; `orKeep` is the state it leaves.
-/

namespace Kratos

/-- State passing with early return; the state of a failure is the one it reached. -/
abbrev Fallible (σ ε α : Type) : Type := ExceptT ε (StateM σ) α

namespace Fallible

variable {σ ε α β : Type}

/-- The result and the state a computation ends with. -/
def exec (m : Fallible σ ε α) (s : σ) : Except ε α × σ := m.run.run s

/-- The computation given by its result and final state. -/
def mk (f : σ → Except ε α × σ) : Fallible σ ε α := ExceptT.mk (StateT.mk f)

@[simp] theorem exec_mk (f : σ → Except ε α × σ) (s : σ) : (mk f).exec s = f s := rfl

@[simp] theorem exec_pure (a : α) (s : σ) : (pure a : Fallible σ ε α).exec s = (.ok a, s) := rfl

@[simp] theorem exec_throw (e : ε) (s : σ) : (throw e : Fallible σ ε α).exec s = (.error e, s) := rfl

theorem exec_bind (m : Fallible σ ε α) (k : α → Fallible σ ε β) (s : σ) :
    (m >>= k).exec s =
      match m.exec s with
      | (.ok a, t) => (k a).exec t
      | (.error e, t) => (.error e, t) := by
  unfold exec
  rw [ExceptT.run_bind, StateT.run_bind]
  rcases m.run.run s with ⟨r, t⟩
  cases r <;> rfl

/-- A look at the state. -/
def reads (f : σ → α) : Fallible σ ε α := mk fun s => (.ok (f s), s)

/-- A change of the state. -/
def modifies (f : σ → σ) : Fallible σ ε Unit := mk fun s => (.ok (), f s)

/-- A result that was computed without the state. -/
def lift (r : Except ε α) : Fallible σ ε α := mk fun s => (r, s)

/-- Go on only if the condition holds. -/
def ensure (c : Prop) [Decidable c] (e : ε) : Fallible σ ε Unit := lift (if c then .ok () else .error e)

@[simp] theorem exec_reads (f : σ → α) (s : σ) : (reads f : Fallible σ ε α).exec s = (.ok (f s), s) := rfl

@[simp] theorem exec_modifies (f : σ → σ) (s : σ) :
    (modifies f : Fallible σ ε Unit).exec s = (.ok (), f s) := rfl

@[simp] theorem exec_lift (r : Except ε α) (s : σ) : (lift r : Fallible σ ε α).exec s = (r, s) := rfl

theorem ensure_ok (c : Prop) [Decidable c] (e : ε) (s : σ) (u : Unit)
    (h : ((ensure c e : Fallible σ ε Unit).exec s).1 = .ok u) : c := by
  by_contra hc
  rw [ensure, if_neg hc] at h
  cases h

/-- What succeeds went on from a first success. -/
theorem exec_bind_of_ok (m : Fallible σ ε α) (k : α → Fallible σ ε β) (s : σ) (b : β)
    (h : ((m >>= k).exec s).1 = .ok b) :
    ∃ a, (m.exec s).1 = .ok a ∧ (m >>= k).exec s = (k a).exec (m.exec s).2 := by
  rw [exec_bind] at h ⊢
  rcases hm : m.exec s with ⟨r, t⟩
  rw [hm] at h
  cases r with
  | ok a => exact ⟨a, rfl, rfl⟩
  | error e => cases h

/-- The state is as it was, whether the computation succeeds or fails. -/
def ReadOnly (m : Fallible σ ε α) : Prop := ∀ s, (m.exec s).2 = s

theorem readOnly_reads (f : σ → α) : ReadOnly (reads f : Fallible σ ε α) := fun _ => rfl

theorem readOnly_lift (r : Except ε α) : ReadOnly (lift r : Fallible σ ε α) := fun _ => rfl

theorem readOnly_ensure (c : Prop) [Decidable c] (e : ε) : ReadOnly (ensure c e : Fallible σ ε Unit) :=
  readOnly_lift _

/-- **Guard rule.**  What follows a computation that only reads starts from the same state. -/
theorem ReadOnly.bind_of {m : Fallible σ ε α} (hm : ReadOnly m) (P : σ → Prop) (k : α → Fallible σ ε β)
    (s : σ) (hs : P s) (hk : ∀ a, (m.exec s).1 = .ok a → P ((k a).exec s).2) :
    P ((m >>= k).exec s).2 := by
  have hsame := hm s
  rw [exec_bind]
  rcases h : m.exec s with ⟨r, t⟩
  rw [h] at hsame hk
  obtain rfl : t = s := hsame
  cases r with
  | ok a => exact hk a rfl
  | error e => exact hs

/-- **Success rule.**  What follows a computation that only reads succeeds from the same state. -/
theorem ReadOnly.bind_ok_iff {m : Fallible σ ε α} (hm : ReadOnly m) (k : α → Fallible σ ε β) (s : σ) (b : β) :
    ((m >>= k).exec s).1 = .ok b ↔ ∃ a, (m.exec s).1 = .ok a ∧ ((k a).exec s).1 = .ok b := by
  have hsame := hm s
  rw [exec_bind]
  rcases h : m.exec s with ⟨r, t⟩
  rw [h] at hsame
  obtain rfl : t = s := hsame
  cases r with
  | ok a =>
    constructor
    · intro hk
      exact ⟨a, rfl, hk⟩
    · rintro ⟨a', ha, hk⟩
      obtain rfl := Except.ok.inj ha
      exact hk
  | error e =>
    refine iff_of_false ?_ ?_
    · intro h
      cases h
    · rintro ⟨a, ha, -⟩
      cases ha

theorem exec_reads_bind (f : σ → α) (k : α → Fallible σ ε β) (s : σ) :
    (reads f >>= k).exec s = (k (f s)).exec s := by
  rw [exec_bind, exec_reads]

theorem ensure_bind_ok_iff (c : Prop) [Decidable c] (e : ε) (k : Unit → Fallible σ ε β) (s : σ) (b : β) :
    ((ensure c e >>= k).exec s).1 = .ok b ↔ c ∧ ((k ()).exec s).1 = .ok b := by
  rw [(readOnly_ensure c e).bind_ok_iff]
  constructor
  · rintro ⟨u, hu, hk⟩
    exact ⟨ensure_ok c e s u hu, hk⟩
  · rintro ⟨hc, hk⟩
    refine ⟨(), ?_, hk⟩
    rw [ensure, exec_lift, if_pos hc]

/-- From states with `P` the computation ends in states with `P`. -/
def Keeps (P : σ → Prop) (m : Fallible σ ε α) : Prop := ∀ s, P s → P (m.exec s).2

theorem ReadOnly.keeps {m : Fallible σ ε α} (hm : ReadOnly m) (P : σ → Prop) : Keeps P m := by
  intro s hs
  rw [hm s]
  exact hs

namespace Keeps

variable {P : σ → Prop}

theorem pure (a : α) : Keeps P (Pure.pure a : Fallible σ ε α) := fun _ h => h

theorem throw (e : ε) : Keeps P (MonadExcept.throw e : Fallible σ ε α) := fun _ h => h

/-- What keeps `P` may follow a computation that has led one state there. -/
theorem bind_of (m : Fallible σ ε α) (k : α → Fallible σ ε β) (s : σ) (hm : P (m.exec s).2)
    (hk : ∀ a, Keeps P (k a)) : P ((m >>= k).exec s).2 := by
  rw [exec_bind]
  rcases h : m.exec s with ⟨r, t⟩
  rw [h] at hm
  cases r with
  | ok a => exact hk a t hm
  | error e => exact hm

theorem bind (m : Fallible σ ε α) (k : α → Fallible σ ε β) (hm : Keeps P m)
    (hk : ∀ a, Keeps P (k a)) : Keeps P (m >>= k) := fun s hs => bind_of m k s (hm s hs) hk

end Keeps

end Fallible

end Kratos

namespace Except

variable {σ ε α : Type}

/-- The new state, or the old one after a failure. -/
def orKeep (r : Except ε σ) (s : σ) : σ :=
  match r with
  | .ok t => t
  | .error _ => s

theorem orKeep_of (P : σ → Prop) (r : Except ε σ) (s : σ) (hs : P s) (h : ∀ t, r = .ok t → P t) :
    P (r.orKeep s) := by
  cases r with
  | ok t => exact h t rfl
  | error e => exact hs

/-- The same for a call that also returns a value. -/
theorem orKeep_map_of (P : σ → Prop) (r : Except ε (σ × α)) (s : σ) (hs : P s)
    (h : ∀ t a, r = .ok (t, a) → P t) : P ((r.map Prod.fst).orKeep s) := by
  cases r with
  | ok t => exact h t.1 t.2 rfl
  | error e => exact hs

/-- The value of a call that succeeded. -/
theorem toOption_snd_eq_some (r : Except ε (σ × α)) (a : α) (h : r.toOption.map Prod.snd = some a) :
    ∃ t, r = .ok (t, a) := by
  cases r with
  | ok t =>
    obtain rfl : t.2 = a := Option.some.inj h
    exact ⟨t.1, rfl⟩
  | error e => cases h

end Except
