import Kratos.Finality.Safety

/-!
# Rounds that time out

`tick` advances a round that has timed out and is not done, and there is none
(`isTimedOut_and_not_isDone`), so no tick advances anything.  An active round blocks the start
of another one: without messages it stays, timed out, whatever else happens
(`timed_out_round_stays`).
-/

namespace Kratos

/-- The same round, apart from our own part in it. -/
structure FinalityRound.Same (r r' : FinalityRound) : Prop where
  collector : r'.collector = r.collector
  startedAt : r'.startedAt = r.startedAt
  timeout : r'.timeout = r.timeout

namespace FinalityRound

theorem Same.refl (r : FinalityRound) : Same r r := ⟨rfl, rfl, rfl⟩

theorem Same.trans {r r' r'' : FinalityRound} (h : Same r r') (h' : Same r' r'') : Same r r'' :=
  ⟨h'.collector.trans h.collector, h'.startedAt.trans h.startedAt, h'.timeout.trans h.timeout⟩

theorem same_markVoted (r : FinalityRound) (ty : VoteType) : Same r (r.markVoted ty) := by
  cases ty <;> exact ⟨rfl, rfl, rfl⟩

/-- Once timed out, always timed out. -/
theorem Same.isTimedOut {r r' : FinalityRound} (h : Same r r') (now now' : Nat)
    (htimeout : r.isTimedOut now = true) (hle : now ≤ now') : r'.isTimedOut now' = true := by
  unfold FinalityRound.isTimedOut at *
  rw [decide_eq_true_eq] at *
  rw [h.startedAt, h.timeout]
  omega

end FinalityRound

namespace FinalityGadget

open FinalityRound

/-- The active round is this one. -/
def Holds (r : FinalityRound) (g : FinalityGadget) : Prop :=
  ∃ r', g.rounds.activeRound = some r' ∧ Same r r'

theorem holds_tick (r : FinalityRound) (now delay : Nat) (g : FinalityGadget) (h : g.Holds r) :
    (g.tick now delay).1.Holds r := by
  have hcasts := tick_casts now delay g
  generalize (g.tick now delay).1 = g' at hcasts ⊢
  cases hcasts with
  | none => exact h
  | cast active ty b a hr ha hv =>
    obtain ⟨r', hr', hsame⟩ := h
    rw [hr] at hr'
    cases hr'
    exact ⟨active.markVoted ty, rfl, hsame.trans (same_markVoted active ty)⟩

/-- Nothing arrives from the network. -/
def Quiet (call : Call) : Prop := ∀ ord now m, call ≠ .onMessage ord now m

/-- **Step.** -/
theorem holds_step (cr : Crypto) (r : FinalityRound) (g : FinalityGadget) (call : Call) (h : g.Holds r)
    (hquiet : Quiet call) : (g.step cr call).Holds r := by
  cases call with
  | onBlockImported now b =>
    obtain ⟨r', hr', hsame⟩ := h
    have hactive : ¬ (g.rounds.activeRound.isNone = true ∧ (g.pendingBlocks ++ [b]).length ≥ 1) := by
      rw [hr']
      simp
    unfold step onBlockImported
    simp only [if_neg hactive]
    exact ⟨r', hr', hsame⟩
  | onMessage ord now m => exact absurd rfl (hquiet ord now m)
  | tick now delay => exact holds_tick r now delay g h
  | updateValidators validators => exact h
  | newEpoch epoch => exact h

/-- **Run.** -/
theorem holds_run (cr : Crypto) (r : FinalityRound) (g : FinalityGadget) (calls : List Call) (h : g.Holds r)
    (hquiet : ∀ call ∈ calls, Quiet call) : (g.run cr calls).Holds r :=
  Run.inv_foldl (step cr) (fun _ call => Quiet call) (Holds r) (fun g call => holds_step cr r g call) g calls h
    (Run.meets_of_mem (step cr) Quiet g calls hquiet)

/-- No tick reports that it has advanced a round. -/
theorem tick_returns (now delay : Nat) (g : FinalityGadget) : (g.tick now delay).2 = false := by
  unfold tick
  cases g.rounds.activeRound with
  | none => rfl
  | some r =>
    simp only [r.isTimedOut_and_not_isDone now delay, Bool.false_eq_true, if_false]
    split <;> rfl

/-- The tick has failed the round and gone on to the next one, if a block is pending. -/
structure Advances (r : FinalityRound) (result : FinalityGadget × Bool) : Prop where
  returned : result.2 = true
  failed : result.1.rounds.completedRounds.getLast?.map RoundSummary.state = some .failed
  next : (result.1.rounds.activeRound = none ∧ result.1.pendingBlocks = []) ∨
    ∃ r', result.1.rounds.activeRound = some r' ∧ r'.round = r.round + 1

/-- **Timeout.**  A round that has timed out is not advanced: the tick returns false, and the
round is still the active one after any run without messages. -/
theorem timed_out_round_stays (cr : Crypto) (signer : FinalitySigner) (validators : Finset AccountId)
    (genesisHash : Hash) (calls : List Call) (now delay : Nat) (r : FinalityRound)
    (hr : ((new signer validators genesisHash).run cr calls).rounds.activeRound = some r)
    (htimeout : r.isTimedOut now = true) :
    (((new signer validators genesisHash).run cr calls).tick now delay).2 = false ∧
    ¬ Advances r (((new signer validators genesisHash).run cr calls).tick now delay) ∧
    ∀ later : List Call, (∀ call ∈ later, Quiet call) →
      ∃ r', ((((new signer validators genesisHash).run cr calls).tick now delay).1.run cr later).rounds.activeRound =
          some r' ∧ r'.collector = r.collector ∧ ∀ now', now ≤ now' → r'.isTimedOut now' = true := by
  have hreturns := tick_returns now delay ((new signer validators genesisHash).run cr calls)
  refine ⟨hreturns, fun hadvances => ?_, fun later hquiet => ?_⟩
  · have hreturned := hadvances.returned
    rw [hreturns] at hreturned
    cases hreturned
  · have hticked := holds_tick r now delay _ ⟨r, hr, Same.refl r⟩
    obtain ⟨r', hr', hsame⟩ := holds_run cr r _ later hticked hquiet
    exact ⟨r', hr', hsame.collector, fun now' => hsame.isTimedOut now now' htimeout⟩

/-- A round without votes, seven seconds after its start and with another block imported. -/
theorem timed_out_round_stays_idle :
    (((new (sampleSigner ⟨9⟩) sampleValidators ⟨0⟩).run Crypto.sample
      [.onBlockImported 0 ⟨1, ⟨1⟩⟩]).tick 7000 0).2 = false ∧
    ∃ r', ((((new (sampleSigner ⟨9⟩) sampleValidators ⟨0⟩).run Crypto.sample
        [.onBlockImported 0 ⟨1, ⟨1⟩⟩]).tick 7000 0).1.run Crypto.sample
          [.onBlockImported 8000 ⟨2, ⟨2⟩⟩, .tick 60000 0]).rounds.activeRound = some r' ∧
      r'.collector = (FinalityRound.new 0 0 0 sampleValidators none).collector ∧
        ∀ now', 7000 ≤ now' → r'.isTimedOut now' = true := by
  have h := timed_out_round_stays Crypto.sample (sampleSigner ⟨9⟩) sampleValidators ⟨0⟩
    [.onBlockImported 0 ⟨1, ⟨1⟩⟩] 7000 0 (.new 0 0 0 sampleValidators none) rfl (by decide)
  refine ⟨h.1, h.2.2 [.onBlockImported 8000 ⟨2, ⟨2⟩⟩, .tick 60000 0] fun call hcall ord now m heq => ?_⟩
  rw [heq] at hcall
  simp at hcall

/-- That round has timed out and is not completed. -/
theorem timed_out_round_advances_not :
    ¬ ∀ (cr : Crypto) (signer : FinalitySigner) (validators : Finset AccountId) (genesisHash : Hash)
      (calls : List Call) (now delay : Nat) (r : FinalityRound),
      ((new signer validators genesisHash).run cr calls).rounds.activeRound = some r → r.isTimedOut now = true →
        r.state ≠ .completed →
          Advances r (((new signer validators genesisHash).run cr calls).tick now delay) := by
  intro h
  have hadvances := h Crypto.sample (sampleSigner ⟨9⟩) sampleValidators ⟨0⟩ [.onBlockImported 0 ⟨1, ⟨1⟩⟩] 7000 0
    (.new 0 0 0 sampleValidators none) rfl (by decide) (by decide)
  exact absurd hadvances.returned (by decide)

end FinalityGadget

end Kratos
