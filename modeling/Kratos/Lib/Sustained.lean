import Kratos.Lib.Run

/-!
# Conditions that hold for a while

`Since ok time s l t` says that the run ends with inputs that all have `ok` in the state they are
given to, the first of them at time `t`: it is what a timer remembers that is set when a condition
begins to hold and cleared when it fails.  `Sustained` says that such a stretch lasted.  A step may
be judged by what came before it; `history_meets_iff` turns that into a condition on the state.
-/

namespace Kratos

namespace Run

variable {σ α : Type} (step : σ → α → σ)

section Stretch

variable (ok : σ → α → Prop) (time : α → Option Nat)

/-- The run ends with inputs that have `ok`, the first of them at time `t`. -/
def Since (s : σ) (l : List α) (t : Nat) : Prop :=
  ∃ pre a mid, l = pre ++ a :: mid ∧ time a = some t ∧ Meets step ok (pre.foldl step s) (a :: mid)

/-- The run ends with inputs that have `ok`, the first of them at least `d` before the last. -/
def Sustained (d : Nat) (s : σ) (l : List α) : Prop :=
  ∃ pre a mid b t u, l = pre ++ a :: (mid ++ [b]) ∧ time a = some t ∧ time b = some u ∧ t + d ≤ u ∧
    Meets step ok (pre.foldl step s) (a :: (mid ++ [b]))

variable {ok time} {s : σ} {l : List α}

/-- The timer is set. -/
theorem since_start (a : α) (t : Nat) (ht : time a = some t) (h : ok (l.foldl step s) a) :
    Since step ok time s (l ++ [a]) t := ⟨l, a, [], rfl, ht, h, trivial⟩

/-- It stays set. -/
theorem Since.concat {t : Nat} (h : Since step ok time s l t) (a : α) (ha : ok (l.foldl step s) a) :
    Since step ok time s (l ++ [a]) t := by
  obtain ⟨pre, b, mid, rfl, ht, hm⟩ := h
  refine ⟨pre, b, mid ++ [a], by simp, ht, ?_⟩
  rw [← List.cons_append, meets_append, ← List.foldl_append]
  exact ⟨hm, ha, trivial⟩

/-- It runs out. -/
theorem Since.sustained {t u d : Nat} (h : Since step ok time s l t) (b : α)
    (hb : ok (l.foldl step s) b) (hu : time b = some u) (hd : t + d ≤ u) :
    Sustained step ok time d s (l ++ [b]) := by
  obtain ⟨pre, a, mid, rfl, ht, hm⟩ := h
  refine ⟨pre, a, mid, b, t, u, by simp, ht, hu, hd, ?_⟩
  rw [← List.cons_append, meets_append, ← List.foldl_append]
  exact ⟨hm, hb, trivial⟩

/-- What is sustained at the end of a run is so whatever came before the run. -/
theorem Sustained.append {d : Nat} (pre : List α) (h : Sustained step ok time d (pre.foldl step s) l) :
    Sustained step ok time d s (pre ++ l) := by
  obtain ⟨p, a, mid, b, t, u, rfl, ht, hu, hd, hm⟩ := h
  refine ⟨pre ++ p, a, mid, b, t, u, by simp, ht, hu, hd, ?_⟩
  rw [List.foldl_append]
  exact hm

/-- **Recent inputs.**  If time does not run back, every input of the last `d` has `ok`. -/
theorem Sustained.recent {d : Nat} {b : α} (h : Sustained step ok time d s (l ++ [b]))
    (hmono : (l ++ [b]).Pairwise fun x y => ∀ t u, time x = some t → time y = some u → t ≤ u)
    (pre post : List α) (x : α) (heq : l ++ [b] = pre ++ x :: post) (t u : Nat) (hx : time x = some t)
    (hb : time b = some u) (hlt : u < t + d) : ok (pre.foldl step s) x := by
  obtain ⟨p, a, mid, b', t₀, u', hl, ha, hb', hd, hm⟩ := h
  obtain rfl : b = b' := by
    have hlast := congrArg List.getLast? hl
    rw [← List.cons_append, ← List.append_assoc, List.getLast?_concat, List.getLast?_concat] at hlast
    exact Option.some.inj hlast
  obtain rfl : u = u' := Option.some.inj (hb.symm.trans hb')
  rw [heq] at hl
  rcases List.append_eq_append_iff.mp hl with ⟨rest, rfl, hrest⟩ | ⟨rest, rfl, hrest⟩
  · -- `x` comes before the stretch, or is its first input
    cases rest with
    | nil =>
      rw [List.nil_append, List.cons.injEq] at hrest
      rw [hrest.1, ← List.append_nil pre]
      exact hm.1
    | cons y rest =>
      rw [List.cons_append, List.cons.injEq] at hrest
      obtain ⟨rfl, rfl⟩ := hrest
      rw [heq, List.pairwise_append, List.pairwise_cons] at hmono
      have hle := hmono.2.1.1 a (by simp) t t₀ hx ha
      omega
  · rw [hrest, meets_append] at hm
    rw [List.foldl_append]
    exact hm.2.1

end Stretch

theorem tally_concat (f : σ → α → Nat) (s : σ) (l : List α) (a : α) :
    tally step f s (l ++ [a]) = tally step f s l + f (l.foldl step s) a := by
  induction l generalizing s with
  | nil => simp [tally]
  | cons b l ih =>
    simp only [List.cons_append, tally, ih, List.foldl_cons]
    omega

/-- **History rule.**  A step is judged by the inputs before it.  If an invariant of the history
makes the judgement a condition on the state, a run is right at every step exactly if every step
meets the condition. -/
theorem history_meets_iff (Right : List α → α → Prop) (Q : σ → α → Prop) (Ok Inv : List α → Prop) (s : σ)
    (hok : ∀ l a, Ok (l ++ [a]) → Ok l)
    (hinv : ∀ l a, Ok (l ++ [a]) → Inv l → Q (l.foldl step s) a → Inv (l ++ [a]))
    (hright : ∀ l a, Ok (l ++ [a]) → Inv l → (Right l a ↔ Q (l.foldl step s) a))
    (hnil : Inv []) (l : List α) (hl : Ok l) :
    (∀ pre a post, l = pre ++ a :: post → Right pre a) ↔ Meets step Q s l := by
  have hboth : ((∀ pre a post, l = pre ++ a :: post → Right pre a) ↔ Meets step Q s l) ∧
      (Meets step Q s l → Inv l) := by
    induction l using List.reverseRecOn with
    | nil => exact ⟨by simp [Meets], fun _ => hnil⟩
    | append_singleton l b ih =>
      obtain ⟨hiff, hkept⟩ := ih (hok l b hl)
      rw [meets_append, ← hiff]
      refine ⟨⟨fun h => ?_, fun h pre a post heq => ?_⟩, fun h => ?_⟩
      · have hpre : ∀ pre a post, l = pre ++ a :: post → Right pre a := fun pre a post heq =>
          h pre a (post ++ [b]) (by rw [heq]; simp)
        exact ⟨hpre, (hright l b hl (hkept (hiff.mp hpre))).mp (h l b [] rfl), trivial⟩
      · rcases (concat_eq_split_iff l pre post a b).mp heq with ⟨rfl, rfl, -⟩ | ⟨rest, rfl, hpre⟩
        · exact (hright _ _ hl (hkept (hiff.mp h.1))).mpr h.2.1
        · exact h.1 pre a rest hpre
      · exact hinv l b hl (hkept (hiff.mp h.1)) h.2.1
  exact hboth.1

end Run

end Kratos
