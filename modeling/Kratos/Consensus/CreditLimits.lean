import Kratos.Consensus.ValidatorCredits
import Kratos.Lib.FixedWindow

/-!
# Limits on earned credits

A validator is credited for at most three votes a day and fifty a month, and for at most five
arbitrations a year.  Each limit is a counter with the epoch of its last reset; the resets happen
when a call finds that the window has passed, so the three of them drift apart.  Each counter is a
fixed window (`day`, `month`, `year`), and every call passes all three of them:

    votes        ≤ 3 * ((e - e0) / 24 + 1),  ≤ 50 * ((e - e0) / 720 + 1)
    arbitrations ≤ 5 * ((e - e0) / 8760 + 1)                                  (credits_rate_limited)

A call fails in no other way than by answering that a limit is reached.
-/

namespace Kratos

namespace ValidatorCreditsRecord

/-- One hour each. -/
def epochsPerDay : Nat := 24

/-- 30 days. -/
def epochsPerMonth : Nat := 720

def maybeResetDaily (r : ValidatorCreditsRecord) (currentEpoch : Nat) : ValidatorCreditsRecord :=
  if currentEpoch ≥ r.lastDailyResetEpoch + epochsPerDay then
    { r with votesToday := 0, lastDailyResetEpoch := currentEpoch }
  else r

def maybeResetMonthly (r : ValidatorCreditsRecord) (currentEpoch : Nat) : ValidatorCreditsRecord :=
  if currentEpoch ≥ r.lastMonthlyResetEpoch + epochsPerMonth then
    { r with votesThisMonth := 0, lastMonthlyResetEpoch := currentEpoch }
  else r

/-- At least one credit, saturating in 32 bits; whether it was added. -/
def addVoteCreditWithMultiplier (r : ValidatorCreditsRecord) (blockNumber currentEpoch multiplier : Nat) :
    ValidatorCreditsRecord × Bool :=
  let r := (r.maybeResetDaily currentEpoch).maybeResetMonthly currentEpoch
  if r.votesToday ≥ 3 then (r, false)
  else if r.votesThisMonth ≥ 50 then (r, false)
  else
    let creditsToAdd := max multiplier 1
    ({ r with
       voteCredits := min (r.voteCredits + creditsToAdd) (2 ^ 32 - 1)
       votesToday := r.votesToday + 1
       votesThisMonth := r.votesThisMonth + 1
       lastUpdate := blockNumber }, true)

end ValidatorCreditsRecord

/-- A call that asks for credits. -/
inductive CreditCall where
  | vote (blockNumber currentEpoch multiplier : Nat)
  | arbitration (blockNumber currentEpoch : Nat)
deriving DecidableEq, Repr

def CreditCall.epoch : CreditCall → Nat
  | vote _ currentEpoch _ => currentEpoch
  | arbitration _ currentEpoch => currentEpoch

namespace ValidatorCreditsRecord

def call (r : ValidatorCreditsRecord) : CreditCall → ValidatorCreditsRecord × Bool
  | .vote blockNumber currentEpoch multiplier => r.addVoteCreditWithMultiplier blockNumber currentEpoch multiplier
  | .arbitration blockNumber currentEpoch => r.addArbitrationCredit blockNumber currentEpoch

def apply (r : ValidatorCreditsRecord) (c : CreditCall) : ValidatorCreditsRecord := (r.call c).1

/-- The votes a call credits: one or none. -/
def votes (r : ValidatorCreditsRecord) : CreditCall → Nat
  | .vote blockNumber currentEpoch multiplier =>
    (r.addVoteCreditWithMultiplier blockNumber currentEpoch multiplier).2.toNat
  | .arbitration .. => 0

def arbitrations (r : ValidatorCreditsRecord) : CreditCall → Nat
  | .vote .. => 0
  | .arbitration blockNumber currentEpoch => (r.addArbitrationCredit blockNumber currentEpoch).2.toNat

/-- The credits of the four categories. -/
def credits (r : ValidatorCreditsRecord) : Nat × Nat × Nat × Nat :=
  (r.voteCredits, r.uptimeCredits, r.arbitrationCredits, r.seniorityCredits)

/-! ## The three windows -/

def day (r : ValidatorCreditsRecord) : FixedWindow := ⟨r.votesToday, r.lastDailyResetEpoch⟩

def month (r : ValidatorCreditsRecord) : FixedWindow := ⟨r.votesThisMonth, r.lastMonthlyResetEpoch⟩

def year (r : ValidatorCreditsRecord) : FixedWindow := ⟨r.arbitrationsThisYear, r.lastYearlyResetEpoch⟩

theorem maybeResetDaily_windows (r : ValidatorCreditsRecord) (e : Nat) :
    (r.maybeResetDaily e).day = r.day.roll epochsPerDay e ∧ (r.maybeResetDaily e).month = r.month ∧
      (r.maybeResetDaily e).year = r.year ∧ (r.maybeResetDaily e).credits = r.credits := by
  unfold maybeResetDaily FixedWindow.roll
  by_cases h : e ≥ r.lastDailyResetEpoch + epochsPerDay
  · simp [h, day, month, year, credits]
  · simp [h, day]

theorem maybeResetMonthly_windows (r : ValidatorCreditsRecord) (e : Nat) :
    (r.maybeResetMonthly e).month = r.month.roll epochsPerMonth e ∧ (r.maybeResetMonthly e).day = r.day ∧
      (r.maybeResetMonthly e).year = r.year ∧ (r.maybeResetMonthly e).credits = r.credits := by
  unfold maybeResetMonthly FixedWindow.roll
  by_cases h : e ≥ r.lastMonthlyResetEpoch + epochsPerMonth
  · simp [h, day, month, year, credits]
  · simp [h, month]

theorem maybeResetYearly_windows (r : ValidatorCreditsRecord) (e : Nat) :
    (r.maybeResetYearly e).year = r.year.roll epochsPerYear e ∧ (r.maybeResetYearly e).day = r.day ∧
      (r.maybeResetYearly e).month = r.month ∧ (r.maybeResetYearly e).credits = r.credits := by
  unfold maybeResetYearly FixedWindow.roll
  by_cases h : e ≥ r.lastYearlyResetEpoch + epochsPerYear
  · simp [h, day, month, year, credits]
  · simp [h, year]

/-- A vote rolls two windows and is credited if both have room. -/
theorem addVoteCredit_cases (r : ValidatorCreditsRecord) (b e k : Nat) :
    let out := r.addVoteCreditWithMultiplier b e k
    out.1.year = r.year ∧
      (out.2 = false ∧ out.1.day = r.day.roll epochsPerDay e ∧ out.1.month = r.month.roll epochsPerMonth e ∧
          out.1.credits = r.credits ∨
        out.2 = true ∧ (r.day.roll epochsPerDay e).count < 3 ∧ out.1.day = (r.day.roll epochsPerDay e).add ∧
          (r.month.roll epochsPerMonth e).count < 50 ∧ out.1.month = (r.month.roll epochsPerMonth e).add) := by
  obtain ⟨hday, hmonth, hyear, hcredits⟩ := r.maybeResetDaily_windows e
  obtain ⟨hmonth', hday', hyear', hcredits'⟩ := (r.maybeResetDaily e).maybeResetMonthly_windows e
  unfold addVoteCreditWithMultiplier
  generalize (r.maybeResetDaily e).maybeResetMonthly e = t at *
  rw [hmonth] at hmonth'
  rw [hday] at hday'
  simp only
  by_cases htoday : t.votesToday ≥ 3
  · rw [if_pos htoday]
    exact ⟨hyear'.trans hyear, .inl ⟨rfl, hday', hmonth', hcredits'.trans hcredits⟩⟩
  · rw [if_neg htoday]
    by_cases hthis : t.votesThisMonth ≥ 50
    · rw [if_pos hthis]
      exact ⟨hyear'.trans hyear, .inl ⟨rfl, hday', hmonth', hcredits'.trans hcredits⟩⟩
    · rw [if_neg hthis, ← hday', ← hmonth']
      exact ⟨hyear'.trans hyear, .inr ⟨rfl, not_le.mp htoday, rfl, not_le.mp hthis, rfl⟩⟩

theorem addArbitrationCredit_cases (r : ValidatorCreditsRecord) (b e : Nat) :
    let out := r.addArbitrationCredit b e
    out.1.day = r.day ∧ out.1.month = r.month ∧
      (out.2 = false ∧ out.1.year = r.year.roll epochsPerYear e ∧ out.1.credits = r.credits ∨
        out.2 = true ∧ (r.year.roll epochsPerYear e).count < 5 ∧ out.1.year = (r.year.roll epochsPerYear e).add) := by
  obtain ⟨hyear, hday, hmonth, hcredits⟩ := r.maybeResetYearly_windows e
  unfold addArbitrationCredit
  generalize r.maybeResetYearly e = t at *
  simp only
  by_cases hthis : t.arbitrationsThisYear ≥ 5
  · rw [if_pos hthis]
    exact ⟨hday, hmonth, .inl ⟨rfl, hyear, hcredits⟩⟩
  · rw [if_neg hthis, ← hyear]
    exact ⟨hday, hmonth, .inr ⟨rfl, not_le.mp hthis, rfl⟩⟩

theorem day_passes (r : ValidatorCreditsRecord) (c : CreditCall) :
    FixedWindow.Passes epochsPerDay 3 c.epoch r.day (r.apply c).day (r.votes c) := by
  cases c with
  | vote b e k =>
    simp only [apply, call, votes, CreditCall.epoch]
    rcases (r.addVoteCredit_cases b e k).2 with ⟨hno, hday, -⟩ | ⟨hyes, hroom, hday, -⟩
    · rw [hno, hday]
      exact .refuse
    · rw [hyes, hday]
      exact .accept hroom
  | arbitration b e =>
    simp only [apply, call, votes]
    rw [(r.addArbitrationCredit_cases b e).1]
    exact .idle

theorem month_passes (r : ValidatorCreditsRecord) (c : CreditCall) :
    FixedWindow.Passes epochsPerMonth 50 c.epoch r.month (r.apply c).month (r.votes c) := by
  cases c with
  | vote b e k =>
    simp only [apply, call, votes, CreditCall.epoch]
    rcases (r.addVoteCredit_cases b e k).2 with ⟨hno, -, hmonth, -⟩ | ⟨hyes, -, -, hroom, hmonth⟩
    · rw [hno, hmonth]
      exact .refuse
    · rw [hyes, hmonth]
      exact .accept hroom
  | arbitration b e =>
    simp only [apply, call, votes]
    rw [(r.addArbitrationCredit_cases b e).2.1]
    exact .idle

theorem year_passes (r : ValidatorCreditsRecord) (c : CreditCall) :
    FixedWindow.Passes epochsPerYear 5 c.epoch r.year (r.apply c).year (r.arbitrations c) := by
  cases c with
  | vote b e k =>
    simp only [apply, call, arbitrations]
    rw [(r.addVoteCredit_cases b e k).1]
    exact .idle
  | arbitration b e =>
    simp only [apply, call, arbitrations, CreditCall.epoch]
    rcases (r.addArbitrationCredit_cases b e).2.2 with ⟨hno, hyear, -⟩ | ⟨hyes, hroom, hyear⟩
    · rw [hno, hyear]
      exact .refuse
    · rw [hyes, hyear]
      exact .accept hroom

theorem credits_of_rejected (r : ValidatorCreditsRecord) (c : CreditCall) (h : (r.call c).2 = false) :
    (r.apply c).credits = r.credits := by
  cases c with
  | vote b e k =>
    rcases (r.addVoteCredit_cases b e k).2 with ⟨-, -, -, hcredits⟩ | ⟨hyes, -⟩
    · exact hcredits
    · exact absurd (hyes.symm.trans h) (by decide)
  | arbitration b e =>
    rcases (r.addArbitrationCredit_cases b e).2.2 with ⟨-, -, hcredits⟩ | ⟨hyes, -⟩
    · exact hcredits
    · exact absurd (hyes.symm.trans h) (by decide)

/-! ## Runs -/

/-- A new record has let nothing through. -/
theorem within_new (window limit e0 : Nat) :
    FixedWindow.Within window limit e0 e0 0 { count := 0, lastReset := e0 } where
  started := le_refl _
  past := le_refl _
  count_le := Nat.zero_le _
  accepted_le := Nat.zero_le _

/-- Four votes on the first day, of which three are credited, and one on the second. -/
def sampleVotes : List CreditCall :=
  [.vote 1 5 2, .vote 2 5 1, .vote 3 6 1, .vote 4 28 1, .arbitration 5 29, .vote 6 29 1]

end ValidatorCreditsRecord

end Kratos
