import Kratos.Lib.Cuts
import Kratos.Lib.Run
import Kratos.Lib.Word
import Kratos.Types.Identity
import Kratos.Types.Reputation

/-!
# Schedules of the decay

Reputation decays by a percentage for each whole period without activity.  A call of
`IdentityCommitment::apply_decay` that finds a whole period moves the reference block to its own and
drops the rest of the period it is in; `DomainReputation::apply_decay` never moves it and charges all
periods again.  The scores do not depend on the schedule exactly if the first charges all there is in
one call, and the second charges once, or everything (`decay_schedule_iff`).
-/

namespace Kratos

/-- The whole periods between two blocks. -/
def wholePeriods (a b : Nat) : Nat := (b - a) / reputationDecayInterval

theorem wholePeriods_mono (a b c : Nat) (h : b ≤ c) : wholePeriods a b ≤ wholePeriods a c :=
  Nat.div_le_div_right (by omega)

/-- What is dropped at a block in between is not made up for. -/
theorem wholePeriods_add_le (a b c : Nat) (hab : 0 < wholePeriods a b) (hbc : b ≤ c) :
    wholePeriods a b + wholePeriods b c ≤ wholePeriods a c := by
  unfold wholePeriods reputationDecayInterval at *
  omega

namespace IdentityCommitment

/-- `apply_decay` with its 64-bit product. -/
def decay (checks : Bool) (i : IdentityCommitment) (currentBlock : Nat) : Option IdentityCommitment :=
  if wholePeriods i.lastActivity currentBlock > 0 then
    ((Word.mulW checks 64 i.reputation.score (wholePeriods i.lastActivity currentBlock)).bind fun product =>
      Word.mulW checks 64 product reputationDecayPercent).map fun product =>
        { i with reputation := i.reputation.subtract (product / 100 % 2 ^ 32), lastActivity := currentBlock }
  else some i

/-- Neither the product overflows nor is the amount truncated. -/
def DecayFits (i : IdentityCommitment) (currentBlock : Nat) : Prop :=
  i.reputation.score * wholePeriods i.lastActivity currentBlock * reputationDecayPercent < 2 ^ 64 ∧
    i.reputation.score * wholePeriods i.lastActivity currentBlock * reputationDecayPercent / 100 < 2 ^ 32

theorem decay_of_fits (checks : Bool) (i : IdentityCommitment) (currentBlock : Nat) (h : i.DecayFits currentBlock) :
    i.decay checks currentBlock = some (i.applyDecay currentBlock) := by
  have hproduct := h.1
  rw [reputationDecayPercent, Nat.mul_one] at hproduct
  unfold decay applyDecay
  rw [Word.mulW_of_lt checks 64 _ _ hproduct, Option.bind_some, Word.mulW_of_lt checks 64 _ _ h.1]
  change _ = some (if wholePeriods i.lastActivity currentBlock > 0 then _ else _)
  split <;> rfl

theorem applyDecay_of_fits (i : IdentityCommitment) (b : Nat) (h : i.DecayFits b) :
    (i.applyDecay b).reputation.score = Cuts.cut 100 (wholePeriods i.lastActivity b) i.reputation.score ∧
      (i.applyDecay b).lastActivity = if wholePeriods i.lastActivity b > 0 then b else i.lastActivity := by
  have hcast := h.2
  rw [reputationDecayPercent, Nat.mul_one] at hcast
  unfold applyDecay
  change (IdentityCommitment.reputation (if wholePeriods i.lastActivity b > 0 then _ else _)).score = _ ∧
    IdentityCommitment.lastActivity (if wholePeriods i.lastActivity b > 0 then _ else _) = _
  split
  · refine ⟨?_, rfl⟩
    change i.reputation.score - i.reputation.score * wholePeriods i.lastActivity b * 1 / 100 % 2 ^ 32 = _
    rw [Nat.mul_one, Nat.mod_eq_of_lt hcast]
    rfl
  · next hzero =>
    rw [Nat.eq_zero_of_not_pos hzero, Cuts.cut_zero]
    exact ⟨rfl, rfl⟩

theorem fits_of_le (i : IdentityCommitment) (b : Nat) (hscore : i.reputation.score < 2 ^ 32)
    (h : wholePeriods i.lastActivity b ≤ 100) : i.DecayFits b := by
  have hle := Nat.mul_le_mul_left i.reputation.score h
  unfold DecayFits reputationDecayPercent
  omega

/-- What is claimed of a schedule, and of the same decay at once. -/
structure DecaysFreely (checks : Bool) (i : IdentityCommitment) (blocks : List Nat) (last : Nat) : Prop where
  fits : Run.Meets applyDecay DecayFits i (blocks ++ [last])
  fitsOnce : i.DecayFits last
  same : ((blocks ++ [last]).foldlM (decay checks) i).map (fun j => j.reputation.score) =
    (i.decay checks last).map fun j => j.reputation.score
  decreases : Run.Meets applyDecay (fun j b => (j.applyDecay b).reputation.score ≤ j.reputation.score) i (blocks ++ [last])

theorem foldlM_decay (checks : Bool) (i : IdentityCommitment) (l : List Nat) (h : Run.Meets applyDecay DecayFits i l) :
    l.foldlM (decay checks) i = some (l.foldl applyDecay i) := by
  induction l generalizing i with
  | nil => rfl
  | cons b l ih =>
    rw [List.foldlM_cons, decay_of_fits checks i b h.1]
    exact ih _ h.2

theorem decreases_of_fits (i : IdentityCommitment) (b : Nat) (h : i.DecayFits b) :
    (i.applyDecay b).reputation.score ≤ i.reputation.score := by
  rw [(applyDecay_of_fits i b h).1]
  exact Cuts.cut_le 100 _ _

/-- Calls that find no whole period do nothing. -/
theorem applyDecay_idle (i : IdentityCommitment) (b : Nat) (h : wholePeriods i.lastActivity b = 0) :
    i.applyDecay b = i ∧ i.DecayFits b := by
  constructor
  · exact if_neg (by rw [show (b - i.lastActivity) / reputationDecayInterval = 0 from h]; exact lt_irrefl 0)
  · unfold DecayFits
    rw [h]
    simp

theorem foldl_idle (i : IdentityCommitment) (l : List Nat) (h : ∀ b ∈ l, wholePeriods i.lastActivity b = 0) :
    l.foldl applyDecay i = i ∧ Run.Meets applyDecay DecayFits i l := by
  induction l with
  | nil => exact ⟨rfl, trivial⟩
  | cons b l ih =>
    obtain ⟨hsame, hfits⟩ := applyDecay_idle i b (h b List.mem_cons_self)
    obtain ⟨hrest, hmeets⟩ := ih fun c hc => h c (List.mem_cons_of_mem b hc)
    rw [List.foldl_cons, hsame]
    refine ⟨hrest, hfits, ?_⟩
    rw [hsame]
    exact hmeets

/-- A schedule charges at least what is charged at once, up to what compounding saves. -/
theorem linear_le (i : IdentityCommitment) (l : List Nat) (last : Nat) (hscore : i.reputation.score < 2 ^ 32)
    (hfew : wholePeriods i.lastActivity last ≤ 100) (hle : ∀ b ∈ l, b ≤ last) (hsorted : l.Pairwise (· ≤ ·)) :
    i.reputation.score * (100 - wholePeriods i.lastActivity last) ≤ 100 * (l.foldl applyDecay i).reputation.score := by
  induction l generalizing i with
  | nil =>
    rw [List.foldl_nil, Nat.mul_comm 100]
    exact Nat.mul_le_mul_left _ (Nat.sub_le 100 _)
  | cons b l ih =>
    rw [List.pairwise_cons] at hsorted
    have hb := hle b List.mem_cons_self
    have hrest : ∀ c ∈ l, c ≤ last := fun c hc => hle c (List.mem_cons_of_mem b hc)
    have hfits := fits_of_le i b hscore ((wholePeriods_mono _ _ _ hb).trans hfew)
    obtain ⟨hcut, hmoved⟩ := applyDecay_of_fits i b hfits
    rw [List.foldl_cons]
    rcases Nat.eq_zero_or_pos (wholePeriods i.lastActivity b) with hzero | hpos
    · rw [(applyDecay_idle i b hzero).1]
      exact ih i hscore hfew hrest hsorted.2
    · rw [if_pos hpos] at hmoved
      have hadd := wholePeriods_add_le i.lastActivity b last hpos hb
      have hnext := ih (i.applyDecay b) ((decreases_of_fits i b hfits).trans_lt hscore) (by rw [hmoved]; omega)
        hrest hsorted.2
      rw [hmoved, hcut] at hnext
      refine le_trans ?_ hnext
      calc i.reputation.score * (100 - wholePeriods i.lastActivity last)
          ≤ i.reputation.score * (100 - (wholePeriods i.lastActivity b + wholePeriods b last)) :=
            Nat.mul_le_mul_left _ (by omega)
        _ ≤ _ := Cuts.cut_cut _ (by decide) (by omega)

/-- No more than a hundred periods, and every call that charges some charges all of them. -/
def ChargedAtOnce (a : Nat) (blocks : List Nat) (last : Nat) : Prop :=
  wholePeriods a last ≤ 100 ∧ ∀ b ∈ blocks, wholePeriods a b = 0 ∨ wholePeriods a b = wholePeriods a last

theorem charged_once (i : IdentityCommitment) (blocks : List Nat) (last : Nat) (hscore : i.reputation.score < 2 ^ 32)
    (hsorted : (blocks ++ [last]).Pairwise (· ≤ ·)) (h : ChargedAtOnce i.lastActivity blocks last) :
    Run.Meets applyDecay DecayFits i (blocks ++ [last]) ∧
      ((blocks ++ [last]).foldl applyDecay i).reputation.score = (i.applyDecay last).reputation.score := by
  induction blocks with
  | nil => exact ⟨⟨fits_of_le i last hscore h.1, trivial⟩, rfl⟩
  | cons b blocks ih =>
    rw [List.cons_append, List.pairwise_cons] at hsorted
    have hb : b ≤ last := hsorted.1 last (List.mem_append_right blocks (List.mem_singleton_self last))
    rcases Nat.eq_zero_or_pos (wholePeriods i.lastActivity b) with hzero | hpos
    · obtain ⟨hsame, hfits⟩ := applyDecay_idle i b hzero
      obtain ⟨hmeets, heq⟩ := ih hsorted.2 ⟨h.1, fun c hc => h.2 c (List.mem_cons_of_mem b hc)⟩
      rw [List.cons_append, List.foldl_cons]
      refine ⟨⟨hfits, ?_⟩, ?_⟩
      · rw [hsame]
        exact hmeets
      · rw [hsame]
        exact heq
    · have hall : wholePeriods i.lastActivity b = wholePeriods i.lastActivity last :=
        (h.2 b List.mem_cons_self).resolve_left hpos.ne'
      have hfits := fits_of_le i b hscore (hall ▸ h.1)
      obtain ⟨hcut, hmoved⟩ := applyDecay_of_fits i b hfits
      rw [if_pos hpos] at hmoved
      have hadd := wholePeriods_add_le i.lastActivity b last hpos hb
      have hidle : ∀ c ∈ blocks ++ [last], wholePeriods (i.applyDecay b).lastActivity c = 0 := by
        intro c hc
        have hc' : c ≤ last := by
          rcases List.mem_append.mp hc with hc | hc
          · exact (List.pairwise_append.mp hsorted.2).2.2 c hc last (List.mem_singleton_self last)
          · exact (List.mem_singleton.mp hc).le
        have := wholePeriods_mono b c last hc'
        rw [hmoved]
        omega
      obtain ⟨hsame, hmeets⟩ := foldl_idle (i.applyDecay b) (blocks ++ [last]) hidle
      rw [List.cons_append, List.foldl_cons]
      refine ⟨⟨hfits, hmeets⟩, ?_⟩
      rw [hsame, hcut, hall, (applyDecay_of_fits i last (fits_of_le i last hscore h.1)).1]

/-- A call that charges some of the periods but not all: the score of 10000 tells. -/
theorem lt_of_charged_twice (i : IdentityCommitment) (blocks : List Nat) (last b : Nat)
    (hscore : i.reputation.score = 10000) (hsorted : (blocks ++ [last]).Pairwise (· ≤ ·)) (hb : b ∈ blocks)
    (hpos : 0 < wholePeriods i.lastActivity b) (hlt : wholePeriods i.lastActivity b < wholePeriods i.lastActivity last)
    (hfew : wholePeriods i.lastActivity last ≤ 100) :
    (i.applyDecay last).reputation.score < ((blocks ++ [last]).foldl applyDecay i).reputation.score := by
  induction blocks with
  | nil => cases hb
  | cons c blocks ih =>
    rw [List.cons_append, List.pairwise_cons] at hsorted
    rw [List.cons_append, List.foldl_cons]
    have hc : c ≤ last := hsorted.1 last (List.mem_append_right blocks (List.mem_singleton_self last))
    have hcb : c ≤ b := by
      rcases List.mem_cons.mp hb with rfl | hb
      · exact le_rfl
      · exact hsorted.1 b (List.mem_append_left _ hb)
    rcases Nat.eq_zero_or_pos (wholePeriods i.lastActivity c) with hzero | hcpos
    · rw [(applyDecay_idle i c hzero).1]
      refine ih hsorted.2 ?_
      rcases List.mem_cons.mp hb with rfl | hb
      · omega
      · exact hb
    · have hclt := (wholePeriods_mono i.lastActivity c b hcb).trans_lt hlt
      have hfits := fits_of_le i c (by omega) (hclt.le.trans hfew)
      obtain ⟨hcut, hmoved⟩ := applyDecay_of_fits i c hfits
      rw [if_pos hcpos] at hmoved
      have hadd := wholePeriods_add_le i.lastActivity c last hcpos hc
      have hrest : ∀ x ∈ blocks ++ [last], x ≤ last := by
        intro x hx
        rcases List.mem_append.mp hx with hx | hx
        · exact (List.pairwise_append.mp hsorted.2).2.2 x hx last (List.mem_singleton_self last)
        · exact (List.mem_singleton.mp hx).le
      have hlow := linear_le (i.applyDecay c) (blocks ++ [last]) last
        ((decreases_of_fits i c hfits).trans_lt (by omega)) (by rw [hmoved]; omega) hrest hsorted.2
      rw [(applyDecay_of_fits i last (fits_of_le i last (by omega) hfew)).1, hscore]
      rw [hmoved, hcut, hscore] at hlow
      unfold Cuts.cut at hlow ⊢
      have hfirst : 10000 - 10000 * wholePeriods i.lastActivity c / 100 = 100 * (100 - wholePeriods i.lastActivity c) := by
        omega
      have honce : 10000 - 10000 * wholePeriods i.lastActivity last / 100 =
          100 * (100 - wholePeriods i.lastActivity last) := by
        omega
      rw [hfirst, Nat.mul_assoc] at hlow
      rw [honce]
      have hlow' := Nat.le_of_mul_le_mul_left hlow (by decide)
      refine lt_of_lt_of_le ?_ hlow'
      -- the second charge is of what the first has left
      exact Cuts.lt_mul_sub hcpos hclt hadd hfew

/-- An identity with a score and a last activity. -/
def withScore (score lastActivity : Nat) : IdentityCommitment where
  identityId := .zero
  owner := ⟨0⟩
  scope := ⟨0⟩
  commitment := .zero
  displayName := none
  declaredAt := 0
  expiresAt := 0
  status := .active
  reputation := { ReputationScore.new with score := score }
  lastActivity := lastActivity

theorem decaysFreely_iff (checks : Bool) (a : Nat) (blocks : List Nat) (last : Nat)
    (hsorted : (blocks ++ [last]).Pairwise (· ≤ ·)) :
    (∀ i : IdentityCommitment, i.lastActivity = a → i.reputation.score < 2 ^ 32 → i.DecaysFreely checks blocks last) ↔
      ChargedAtOnce a blocks last := by
  constructor
  · intro h
    have hlargest := (h (withScore (2 ^ 32 - 1) a) rfl (show 2 ^ 32 - 1 < 2 ^ 32 by decide)).fitsOnce.2
    change (2 ^ 32 - 1) * wholePeriods a last * 1 / 100 < 2 ^ 32 at hlargest
    have hfew : wholePeriods a last ≤ 100 := by omega
    refine ⟨hfew, fun b hb => ?_⟩
    by_contra hno
    rw [not_or] at hno
    have hb' : b ≤ last := (List.pairwise_append.mp hsorted).2.2 b hb last (List.mem_singleton_self last)
    have htold := h (withScore 10000 a) rfl (show 10000 < 2 ^ 32 by decide)
    have hsame := htold.same
    rw [foldlM_decay checks _ _ htold.fits, decay_of_fits checks _ _ htold.fitsOnce, Option.map_some,
      Option.map_some, Option.some.injEq] at hsame
    exact absurd hsame (lt_of_charged_twice (withScore 10000 a) blocks last b rfl hsorted hb
      (Nat.pos_of_ne_zero hno.1) (lt_of_le_of_ne (wholePeriods_mono a b last hb') hno.2) hfew).ne'
  · rintro h i rfl hscore
    obtain ⟨hfits, hsame⟩ := charged_once i blocks last hscore hsorted h
    have honce := fits_of_le i last hscore h.1
    refine ⟨hfits, honce, ?_, ?_⟩
    · rw [foldlM_decay checks i _ hfits, decay_of_fits checks i last honce, Option.map_some, Option.map_some, hsame]
    · exact Run.meets_of_inv applyDecay DecayFits _ (fun _ => True) (fun _ _ _ _ => trivial)
        (fun j b _ hj => decreases_of_fits j b hj) i _ trivial hfits

end IdentityCommitment

/-! ## Domains -/

namespace DomainReputation

variable (rate : Nat)

/-- The amount is not truncated; the products saturate. -/
def DecayFits (r : DomainReputation) (b : Nat) : Prop :=
  min (min (r.score * wholePeriods r.lastActivity b) Word.u64Max * rate) Word.u64Max / 100 < 2 ^ 32

/-- Not more than everything is charged, and either everything at the end or nothing before it. -/
def ChargedOnce (a : Nat) (blocks : List Nat) (last : Nat) : Prop :=
  wholePeriods a last * rate ≤ 100 ∧ (wholePeriods a last * rate = 100 ∨ ∀ b ∈ blocks, wholePeriods a b = 0)

theorem lastActivity_applyDecay (r : DomainReputation) (b : Nat) : (r.applyDecay b rate).lastActivity = r.lastActivity := by
  unfold applyDecay
  dsimp only
  split <;> rfl

theorem applyDecay_spec (hrate : 0 < rate) (r : DomainReputation) (b : Nat) (hscore : r.score < 2 ^ 32)
    (h : wholePeriods r.lastActivity b * rate ≤ 100) :
    (r.applyDecay b rate).score = Cuts.cut 100 (wholePeriods r.lastActivity b * rate) r.score ∧ r.DecayFits rate b := by
  have hperiods : wholePeriods r.lastActivity b ≤ 100 := (Nat.le_mul_of_pos_right _ hrate).trans h
  have hfirst := Nat.mul_le_mul_left r.score hperiods
  have hsecond := Nat.mul_le_mul_left r.score h
  rw [← Nat.mul_assoc] at hsecond
  have hsat : min (min (r.score * wholePeriods r.lastActivity b) Word.u64Max * rate) Word.u64Max =
      r.score * wholePeriods r.lastActivity b * rate := by
    have hproduct : min (r.score * wholePeriods r.lastActivity b) Word.u64Max = r.score * wholePeriods r.lastActivity b := by
      refine Nat.min_eq_left ?_
      unfold Word.u64Max
      omega
    rw [hproduct]
    refine Nat.min_eq_left ?_
    unfold Word.u64Max
    omega
  have hfits : r.score * wholePeriods r.lastActivity b * rate / 100 < 2 ^ 32 := by omega
  refine ⟨?_, by rw [DecayFits, hsat]; exact hfits⟩
  unfold applyDecay
  change DomainReputation.score (if wholePeriods r.lastActivity b > 0 then
    { r with score := r.score - min (min (r.score * wholePeriods r.lastActivity b) Word.u64Max * rate) Word.u64Max / 100 % 2 ^ 32 }
    else r) = _
  rw [hsat]
  split
  · change r.score - r.score * wholePeriods r.lastActivity b * rate / 100 % 2 ^ 32 = _
    rw [Nat.mod_eq_of_lt hfits, Nat.mul_assoc]
    rfl
  · next hzero => rw [Nat.eq_zero_of_not_pos hzero, Nat.zero_mul, Cuts.cut_zero]

/-- A schedule of cuts that stay within a hundred percent. -/
theorem foldl_spec (hrate : 0 < rate) (r : DomainReputation) (l : List Nat) (hscore : r.score < 2 ^ 32)
    (h : ∀ b ∈ l, wholePeriods r.lastActivity b * rate ≤ 100) :
    Run.Meets (fun r b => r.applyDecay b rate) (fun r b => r.DecayFits rate b ∧ (r.applyDecay b rate).score ≤ r.score) r l ∧
      (l.foldl (fun r b => r.applyDecay b rate) r).score ≤ r.score ∧
      (l.foldl (fun r b => r.applyDecay b rate) r).lastActivity = r.lastActivity ∧
      ((∃ b ∈ l, 0 < wholePeriods r.lastActivity b) →
        (l.foldl (fun r b => r.applyDecay b rate) r).score ≤ Cuts.cut 100 1 r.score) ∧
      ((∀ b ∈ l, wholePeriods r.lastActivity b = 0) → (l.foldl (fun r b => r.applyDecay b rate) r).score = r.score) := by
  induction l generalizing r with
  | nil => exact ⟨trivial, le_rfl, rfl, (fun ⟨b, hb, _⟩ => by cases hb), fun _ => rfl⟩
  | cons b l ih =>
    have hb := h b List.mem_cons_self
    obtain ⟨hcut, hfits⟩ := applyDecay_spec rate hrate r b hscore hb
    have hsame := lastActivity_applyDecay rate r b
    have hle : (r.applyDecay b rate).score ≤ r.score := hcut ▸ Cuts.cut_le 100 _ _
    obtain ⟨hmeets, hrest, hlast, hsome, hnone⟩ := ih (r.applyDecay b rate) (hle.trans_lt hscore)
      fun c hc => hsame ▸ h c (List.mem_cons_of_mem b hc)
    rw [hsame] at hlast hsome hnone
    refine ⟨⟨⟨hfits, hle⟩, hmeets⟩, hrest.trans hle, hlast, ?_, ?_⟩
    · rintro ⟨c, hc, hpos⟩
      rcases List.mem_cons.mp hc with rfl | hc
      · refine hrest.trans ?_
        rw [hcut]
        exact Cuts.cut_anti r.score (Nat.mul_pos hpos hrate)
      · exact (hsome ⟨c, hc, hpos⟩).trans (Cuts.cut_mono (by decide) hle)
    · intro hall
      have hzero : (r.applyDecay b rate).score = r.score := by
        rw [hcut, hall b List.mem_cons_self, Nat.zero_mul, Cuts.cut_zero]
      exact (hnone fun c hc => hall c (List.mem_cons_of_mem b hc)).trans hzero

/-- The largest score tells whether more than everything is charged. -/
theorem le_of_fits (hrate : 0 < rate) (r : DomainReputation) (b : Nat) (hscore : r.score = 2 ^ 32 - 1)
    (h : r.DecayFits rate b) : wholePeriods r.lastActivity b * rate ≤ 100 := by
  by_contra hmore
  have hproduct := Nat.mul_le_mul_left r.score (Nat.lt_of_not_le hmore)
  rw [← Nat.mul_assoc] at hproduct
  have hlarge : r.score * 101 ≤ min (r.score * wholePeriods r.lastActivity b) Word.u64Max * rate := by
    rcases Nat.le_total (r.score * wholePeriods r.lastActivity b) Word.u64Max with hle | hle
    · rw [Nat.min_eq_left hle]
      exact hproduct
    · rw [Nat.min_eq_right hle]
      refine le_trans ?_ (Nat.le_mul_of_pos_right _ hrate)
      rw [hscore]
      decide
  unfold DecayFits at h
  unfold Word.u64Max at h hlarge
  omega

theorem le_of_sorted (blocks : List Nat) (last : Nat) (hsorted : (blocks ++ [last]).Pairwise (· ≤ ·)) :
    ∀ b ∈ blocks ++ [last], b ≤ last := by
  intro b hb
  rcases List.mem_append.mp hb with hb | hb
  · exact (List.pairwise_append.mp hsorted).2.2 b hb last (List.mem_singleton_self last)
  · exact (List.mem_singleton.mp hb).le

theorem charged_once (hrate : 0 < rate) (r : DomainReputation) (blocks : List Nat) (last : Nat)
    (hscore : r.score < 2 ^ 32) (hsorted : (blocks ++ [last]).Pairwise (· ≤ ·))
    (h : ChargedOnce rate r.lastActivity blocks last) :
    ((blocks ++ [last]).foldl (fun r b => r.applyDecay b rate) r).score = (r.applyDecay last rate).score := by
  have hall : ∀ b ∈ blocks ++ [last], wholePeriods r.lastActivity b * rate ≤ 100 := fun b hb =>
    (Nat.mul_le_mul_right rate (wholePeriods_mono _ _ _ (le_of_sorted blocks last hsorted b hb))).trans h.1
  obtain ⟨-, hle, hlast, -, hnone⟩ := foldl_spec rate hrate r blocks hscore
    fun b hb => hall b (List.mem_append_left _ hb)
  rw [List.foldl_append, List.foldl_cons, List.foldl_nil]
  have hfinal := (applyDecay_spec rate hrate (blocks.foldl (fun r b => r.applyDecay b rate) r) last
    (hle.trans_lt hscore) (hlast ▸ h.1)).1
  rw [hfinal, hlast, (applyDecay_spec rate hrate r last hscore h.1).1]
  rcases h.2 with hfull | hidle
  · rw [hfull, Cuts.cut_all 100 _ (by decide), Cuts.cut_all 100 _ (by decide)]
  · rw [hnone hidle]

/-- A period that is charged twice: the score of 10000 tells, unless nothing is left of it. -/
theorem lt_of_charged_twice (hrate : 0 < rate) (r : DomainReputation) (blocks : List Nat) (last b : Nat)
    (hscore : r.score = 10000) (hsorted : (blocks ++ [last]).Pairwise (· ≤ ·)) (hb : b ∈ blocks)
    (hpos : 0 < wholePeriods r.lastActivity b) (hlt : wholePeriods r.lastActivity last * rate < 100) :
    ((blocks ++ [last]).foldl (fun r b => r.applyDecay b rate) r).score < (r.applyDecay last rate).score := by
  have hall : ∀ b ∈ blocks ++ [last], wholePeriods r.lastActivity b * rate ≤ 100 := fun b hb =>
    (Nat.mul_le_mul_right rate (wholePeriods_mono _ _ _ (le_of_sorted blocks last hsorted b hb))).trans hlt.le
  obtain ⟨-, hle, hlast, hsome, -⟩ := foldl_spec rate hrate r blocks (by omega)
    fun b hb => hall b (List.mem_append_left _ hb)
  have hbelow := hsome ⟨b, hb, hpos⟩
  rw [List.foldl_append, List.foldl_cons, List.foldl_nil]
  have hfinal := (applyDecay_spec rate hrate (blocks.foldl (fun r b => r.applyDecay b rate) r) last
    (by omega) (hlast ▸ hlt.le)).1
  rw [hfinal, hlast, (applyDecay_spec rate hrate r last (by omega) hlt.le).1]
  refine (Cuts.cut_mono hlt.le hbelow).trans_lt ?_
  rw [hscore]
  unfold Cuts.cut
  omega

end DomainReputation

/-! ## All domains -/

namespace MultiDimensionalReputation

/-- No domain's amount is truncated. -/
def DecayFits (m : MultiDimensionalReputation) (b : Nat) : Prop := ∀ d, (m.domains d).DecayFits d.decayRate b

/-- What is claimed of a schedule, and of the same decay at once. -/
structure DecaysFreely (m : MultiDimensionalReputation) (blocks : List Nat) (last : Nat) : Prop where
  fits : Run.Meets applyDecay DecayFits m (blocks ++ [last])
  fitsOnce : m.DecayFits last
  same : ∀ d, (((blocks ++ [last]).foldl applyDecay m).domains d).score = ((m.applyDecay last).domains d).score
  sameOverall : ((blocks ++ [last]).foldl applyDecay m).overallScore = (m.applyDecay last).overallScore
  decreases : Run.Meets applyDecay (fun m b => ∀ d, ((m.applyDecay b).domains d).score ≤ (m.domains d).score) m
    (blocks ++ [last])
  decreasesOverall : m.recalculateOverall.overallScore = m.overallScore →
    Run.Meets applyDecay (fun m b => (m.applyDecay b).overallScore ≤ m.overallScore) m (blocks ++ [last])

theorem domains_foldl (m : MultiDimensionalReputation) (l : List Nat) (d : ReputationDomain) :
    (l.foldl applyDecay m).domains d = l.foldl (fun r b => r.applyDecay b d.decayRate) (m.domains d) := by
  induction l generalizing m with
  | nil => rfl
  | cons b l ih => exact ih (m.applyDecay b)

theorem decayRate_pos (d : ReputationDomain) : 0 < d.decayRate := by cases d <;> decide

theorem overall_congr (m m' : MultiDimensionalReputation) (h : ∀ d, (m.domains d).score = (m'.domains d).score) :
    m.recalculateOverall.overallScore = m'.recalculateOverall.overallScore := by
  unfold recalculateOverall
  simp only [h]

theorem overall_mono (m m' : MultiDimensionalReputation) (h : ∀ d, (m.domains d).score ≤ (m'.domains d).score)
    (hlt : ∀ d, (m'.domains d).score < 2 ^ 32) :
    m.recalculateOverall.overallScore ≤ m'.recalculateOverall.overallScore := by
  have hsum : (ReputationDomain.all.map fun d => (m.domains d).score * d.weight).sum ≤
      (ReputationDomain.all.map fun d => (m'.domains d).score * d.weight).sum :=
    List.sum_le_sum fun d _ => Nat.mul_le_mul_right d.weight (h d)
  have hbound : (ReputationDomain.all.map fun d => (m'.domains d).score * d.weight).sum ≤
      (ReputationDomain.all.map fun d => (2 ^ 32 - 1) * d.weight).sum :=
    List.sum_le_sum fun d _ => Nat.mul_le_mul_right d.weight (Nat.le_sub_one_of_lt (hlt d))
  rw [List.sum_map_mul_left] at hbound
  unfold recalculateOverall
  dsimp only
  generalize (ReputationDomain.all.map fun d => (m.domains d).score * d.weight).sum = x at *
  generalize (ReputationDomain.all.map fun d => (m'.domains d).score * d.weight).sum = y at *
  have hdiv : y / (ReputationDomain.all.map ReputationDomain.weight).sum < 2 ^ 32 := by
    refine Nat.div_lt_of_lt_mul (hbound.trans_lt ?_)
    rw [Nat.mul_comm]
    decide
  have hle := Nat.div_le_div_right (c := (ReputationDomain.all.map ReputationDomain.weight).sum) hsum
  rw [Nat.mod_eq_of_lt hdiv, Nat.mod_eq_of_lt (hle.trans_lt hdiv)]
  exact hle

/-- The step of a domain, within a run of all. -/
theorem meets_domains (m : MultiDimensionalReputation) (l : List Nat) (P : ReputationDomain → DomainReputation → Nat → Prop)
    (h : ∀ d, Run.Meets (fun r b => r.applyDecay b d.decayRate) (P d) (m.domains d) l) :
    Run.Meets applyDecay (fun m b => ∀ d, P d (m.domains d) b) m l := by
  rw [Run.meets_iff_split]
  intro pre b post heq d
  rw [domains_foldl]
  exact (Run.meets_iff_split _ _ _ _).mp (h d) pre b post heq

def withScores (score : Nat) (lastActivity : ReputationDomain → Nat) : MultiDimensionalReputation where
  identityId := .zero
  domains d := { DomainReputation.new with score := score, lastActivity := lastActivity d }
  overallScore := 0
  createdAt := 0
  updatedAt := 0

theorem decaysFreely_iff (a : ReputationDomain → Nat) (blocks : List Nat) (last : Nat)
    (hsorted : (blocks ++ [last]).Pairwise (· ≤ ·)) :
    (∀ m : MultiDimensionalReputation, (∀ d, (m.domains d).lastActivity = a d ∧ (m.domains d).score < 2 ^ 32) →
        m.DecaysFreely blocks last) ↔
      ∀ d, DomainReputation.ChargedOnce d.decayRate (a d) blocks last := by
  constructor
  · intro h d
    have hrate := decayRate_pos d
    have hlargest := (h (withScores (2 ^ 32 - 1) a) fun d => ⟨rfl, show 2 ^ 32 - 1 < 2 ^ 32 by decide⟩).fitsOnce d
    have hle := DomainReputation.le_of_fits d.decayRate hrate _ last rfl hlargest
    refine ⟨hle, ?_⟩
    by_contra hno
    rw [not_or] at hno
    obtain ⟨hnotAll, hcharged⟩ := hno
    push Not at hcharged
    obtain ⟨b, hb, hpos⟩ := hcharged
    have hsame := (h (withScores 10000 a) fun d => ⟨rfl, show 10000 < 2 ^ 32 by decide⟩).same d
    rw [domains_foldl] at hsame
    exact absurd hsame (DomainReputation.lt_of_charged_twice d.decayRate hrate ((withScores 10000 a).domains d) blocks
      last b rfl hsorted hb (Nat.pos_of_ne_zero hpos) (lt_of_le_of_ne hle hnotAll)).ne
  · intro h m hm
    have hall : ∀ d, ∀ b ∈ blocks ++ [last], wholePeriods (m.domains d).lastActivity b * d.decayRate ≤ 100 := by
      intro d b hb
      have hle := DomainReputation.le_of_sorted blocks last hsorted b hb
      rw [(hm d).1]
      exact (Nat.mul_le_mul_right _ (wholePeriods_mono _ _ _ hle)).trans (h d).1
    have hspec := fun d => DomainReputation.foldl_spec d.decayRate (decayRate_pos d) (m.domains d) (blocks ++ [last])
      (hm d).2 (hall d)
    have hmeets := meets_domains m (blocks ++ [last])
      (fun d r b => r.DecayFits d.decayRate b ∧ (r.applyDecay b d.decayRate).score ≤ r.score) fun d => (hspec d).1
    have hsame : ∀ d, (((blocks ++ [last]).foldl applyDecay m).domains d).score = ((m.applyDecay last).domains d).score := by
      intro d
      rw [domains_foldl]
      exact DomainReputation.charged_once d.decayRate (decayRate_pos d) (m.domains d) blocks last (hm d).2 hsorted
        ((hm d).1 ▸ h d)
    have hsteps := fun (Q : MultiDimensionalReputation → Nat → Prop) hQ =>
      Run.meets_of_inv applyDecay _ Q (fun _ => True) (fun _ _ _ _ => trivial) hQ m _ trivial hmeets
    refine ⟨hsteps _ fun m b _ hb d => (hb d).1, fun d => ?_, hsame, ?_, hsteps _ fun m b _ hb d => (hb d).2, fun hoverall => ?_⟩
    · exact (DomainReputation.applyDecay_spec d.decayRate (decayRate_pos d) _ last (hm d).2
        (hall d last (List.mem_append_right _ (List.mem_singleton_self last)))).2
    · rw [List.foldl_append, List.foldl_cons, List.foldl_nil]
      refine overall_congr _ _ fun d => ?_
      have := hsame d
      rw [List.foldl_append, List.foldl_cons, List.foldl_nil] at this
      exact this
    · refine Run.meets_of_inv applyDecay _ _
        (fun m => m.recalculateOverall.overallScore = m.overallScore ∧ ∀ d, (m.domains d).score < 2 ^ 32)
        (fun m b hinv hb => ⟨rfl, fun d => (hb d).2.trans_lt (hinv.2 d)⟩) (fun m b hinv hb => ?_) m _
        ⟨hoverall, fun d => (hm d).2⟩ hmeets
      rw [← hinv.1]
      exact overall_mono { m with domains := fun d => (m.domains d).applyDecay b d.decayRate } m (fun d => (hb d).2) hinv.2

end MultiDimensionalReputation

/-- **Decay and its schedule.**  For every score the decay at the blocks of a schedule is the decay at
the last of them, without overflow, exactly if the schedule charges an identity all periods in one
call, and a domain once or everything. -/
theorem decay_schedule_iff (checks : Bool) (a : Nat) (refs : ReputationDomain → Nat) (blocks : List Nat) (last : Nat)
    (hsorted : (blocks ++ [last]).Pairwise (· ≤ ·)) :
    ((∀ i : IdentityCommitment, i.lastActivity = a → i.reputation.score < 2 ^ 32 → i.DecaysFreely checks blocks last) ↔
      IdentityCommitment.ChargedAtOnce a blocks last) ∧
    ((∀ m : MultiDimensionalReputation, (∀ d, (m.domains d).lastActivity = refs d ∧ (m.domains d).score < 2 ^ 32) →
        m.DecaysFreely blocks last) ↔
      ∀ d, DomainReputation.ChargedOnce d.decayRate (refs d) blocks last) :=
  ⟨IdentityCommitment.decaysFreely_iff checks a blocks last hsorted,
    MultiDimensionalReputation.decaysFreely_iff refs blocks last hsorted⟩

/-- A call before the first period is over does no harm. -/
theorem decay_schedule_sample : (IdentityCommitment.withScore 1000 0).DecaysFreely true [50000] 100800 :=
  (decay_schedule_iff true 0 (fun _ => 0) [50000] 100800 (by decide)).1.mpr ⟨by decide, by decide⟩ _ rfl
    (show 1000 < 2 ^ 32 by decide)

/-- Two periods charged one by one or at once, and a hundred and one periods of the largest score. -/
theorem decay_depends_on_schedule :
    ([100800, 201600].foldlM (IdentityCommitment.decay true) (.withScore 10000 0)).map (fun j => j.reputation.score) =
        some 9801 ∧
      ((IdentityCommitment.withScore 10000 0).decay true 201600).map (fun j => j.reputation.score) = some 9800 ∧
      (([100800, 201600].foldl MultiDimensionalReputation.applyDecay (.withScores 10000 fun _ => 0)).domains
        .governance).score = 9408 ∧
      (((MultiDimensionalReputation.withScores 10000 fun _ => 0).applyDecay 201600).domains .governance).score = 9600 ∧
      ((IdentityCommitment.withScore (2 ^ 32 - 1) 0).decay true 10180800).map (fun j => j.reputation.score) =
        some 4252017624 := by
  decide +kernel

end Kratos
