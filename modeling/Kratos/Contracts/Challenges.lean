import Kratos.Contracts.Personhood

/-!
# Settling personhood challenges

`Effect` says what a call can do to the challenges: nothing, a new challenge, a response to
a pending one, or a settlement, which pays what the new status says (`due`).  As a target
is left alone for a while after a challenge, no id is used twice in a run without colliding
ids.

Every challenge is settled at most once, and a target is refused for its many challenges
only if they are open, if and only if no expired challenge is resolved after it was settled
and no target with a settled challenge reaches the limit (`settled_once_iff`): a resolution
does not look whether the challenge is still open, and the limit counts all challenges ever
issued.
-/

namespace Kratos

/-- What the challenger has been paid on a challenge that is settled. -/
def PersonhoodChallenge.due (c : PersonhoodChallenge) : Balance :=
  match c.status with
  | .pending | .responseSubmitted => 0
  | .passed | .cancelled => c.deposit
  | .failed | .expired => c.deposit + challengeFailurePenalty

/-- The challenge a call is about. -/
def PersonhoodOp.challengeId : PersonhoodOp → Option Hash
  | respondToChallenge id _ _ _ _ | resolveChallenge id _ | cancelChallenge id _ => some id
  | _ => none

/-- What the id of a new challenge is made of. -/
def PersonhoodOp.issued : PersonhoodOp → Option (IdentityId × AccountId × Nat)
  | issueChallenge challenger target _ _ block _ => some (target, challenger, block)
  | _ => none

namespace PersonhoodRegistry

/-- The payments on a challenge. -/
def payouts (paid : List (Hash × Balance)) (id : Hash) : List Balance :=
  (paid.filter fun e => decide (e.1 = id)).map Prod.snd

theorem payouts_eq_nil (paid : List (Hash × Balance)) (id : Hash) (h : ∀ e ∈ paid, e.1 ≠ id) :
    payouts paid id = [] := by
  unfold payouts
  rw [List.filter_eq_nil_iff.2 fun e he => by simpa using h e he]
  rfl

theorem payouts_concat_self (paid : List (Hash × Balance)) (id : Hash) (p : Balance) :
    payouts (paid ++ [(id, p)]) id = payouts paid id ++ [p] := by
  simp [payouts]

theorem payouts_concat_ne (paid : List (Hash × Balance)) (id j : Hash) (p : Balance) (h : j ≠ id) :
    payouts (paid ++ [(id, p)]) j = payouts paid j := by
  simp [payouts, h.symm]

/-- The counters of an identity with a score. -/
def countersOf (r : PersonhoodRegistry) (id : IdentityId) : Option (Nat × Nat) :=
  (r.personhoodScores.find? id).map PersonhoodScore.counters

/-! ## Frames -/

/-- The indexes of the challenges are as they were. -/
structure Frame (r r' : PersonhoodRegistry) : Prop where
  byIdentity : r'.challengesByIdentity = r.challengesByIdentity
  lastTime : r'.lastChallengeTime = r.lastChallengeTime
  config : r'.config = r.config

theorem Frame.challengesOf {r r' : PersonhoodRegistry} (h : Frame r r') (t : IdentityId) :
    r'.challengesOf t = r.challengesOf t := by
  unfold PersonhoodRegistry.challengesOf
  rw [h.byIdentity]

theorem Frame.after {r r' r'' : PersonhoodRegistry} (h' : Frame r' r'') (h : Frame r r') : Frame r r'' :=
  ⟨h'.byIdentity.trans h.byIdentity, h'.lastTime.trans h.lastTime, h'.config.trans h.config⟩

theorem frame_refl (r : PersonhoodRegistry) : Frame r r := ⟨rfl, rfl, rfl⟩

theorem frame_withScore (r : PersonhoodRegistry) (id : IdentityId) (f : PersonhoodScore → PersonhoodScore) :
    Frame r (r.withScore id f) := by
  unfold withScore
  split <;> exact ⟨rfl, rfl, rfl⟩

@[simp] theorem challenges_withScore (r : PersonhoodRegistry) (id : IdentityId)
    (f : PersonhoodScore → PersonhoodScore) : (r.withScore id f).challenges = r.challenges := by
  unfold withScore
  split <;> rfl

/-! ## Calls -/

theorem issueChallenge_ok (cr : Crypto) (r r' : PersonhoodRegistry) (challenger : AccountId) (target : IdentityId)
    (type : ChallengeType) (deposit : Balance) (block : Nat) (registry : IdentityRegistry) (id : Hash)
    (h : r.issueChallenge cr challenger target type deposit block registry = .ok (r', id)) :
    r.cooledDown target block = true ∧ (r.challengesOf target).length < maxChallengesPerIdentity ∧
      r' = r.addChallenge (PersonhoodChallenge.new cr target challenger type deposit block) block := by
  unfold issueChallenge at h
  split_ifs at h with _ _ hcool hroom _
  obtain ⟨rfl, rfl⟩ := Prod.mk.inj (Except.ok.inj h)
  exact ⟨by simpa using hcool, Nat.lt_of_not_le hroom, rfl⟩

theorem issueChallenge_tooMany_iff (cr : Crypto) (r : PersonhoodRegistry) (challenger : AccountId)
    (target : IdentityId) (type : ChallengeType) (deposit : Balance) (block : Nat) (registry : IdentityRegistry) :
    r.issueChallenge cr challenger target type deposit block registry = .error .tooManyChallenges ↔
      r.config.challengesEnabled = true ∧ registry.isActive target block = true ∧
        r.cooledDown target block = true ∧ maxChallengesPerIdentity ≤ (r.challengesOf target).length := by
  unfold issueChallenge
  split_ifs <;> simp_all

theorem respondToChallenge_ok (r r' : PersonhoodRegistry) (id : Hash) (responder : AccountId)
    (data : ChallengeResponseData) (block : Nat) (registry : IdentityRegistry)
    (h : r.respondToChallenge id responder data block registry = .ok r') :
    ∃ c, r.challenges.find? id = some c ∧ c.status = .pending ∧
      r' = r.setChallenge id { c with response := some { submittedAt := block, responseData := data }
                                      status := .responseSubmitted } := by
  unfold respondToChallenge at h
  split at h
  · cases h
  · rename_i c hc
    split at h
    · cases h
    · split_ifs at h with _ hstatus _
      split at h
      · cases h
      · exact ⟨c, hc, not_not.1 hstatus, (Except.ok.inj h).symm⟩

theorem cancelChallenge_ok (r r' : PersonhoodRegistry) (id : Hash) (canceller : AccountId) (p : Balance)
    (h : r.cancelChallenge id canceller = .ok (r', p)) :
    ∃ c, r.challenges.find? id = some c ∧ c.status = .pending ∧
      r' = r.setChallenge id { c with status := .cancelled } ∧ p = c.deposit := by
  unfold cancelChallenge at h
  split at h
  · cases h
  · rename_i c hc
    split_ifs at h with _ hstatus
    obtain ⟨rfl, rfl⟩ := Prod.mk.inj (Except.ok.inj h)
    exact ⟨c, hc, not_not.1 hstatus, rfl, rfl⟩

/-- A resolution of an open challenge, or of one whose time is over. -/
theorem resolveChallenge_ok (r r' : PersonhoodRegistry) (id : Hash) (block : Nat) (passed : Bool) (p : Balance)
    (h : r.resolveChallenge id block = .ok (r', passed, p)) :
    ∃ c, r.challenges.find? id = some c ∧ (c.status.isOpen = true ∨ c.isExpired block = true) ∧
      r'.challenges = r.challenges.insert id { c with status := resolvedStatus c block passed } ∧
      Frame r r' ∧ p = if passed then c.deposit else c.deposit + challengeFailurePenalty := by
  unfold resolveChallenge at h
  split at h
  · cases h
  · rename_i c hc
    split at h
    · cases h
    · rename_i passed' hout
      obtain ⟨hr', hpair⟩ := Prod.mk.inj (Except.ok.inj h)
      obtain ⟨rfl, rfl⟩ := Prod.mk.inj hpair
      refine ⟨c, hc, ?_, ?_, ?_, rfl⟩
      · unfold resolveOutcome at hout
        split_ifs at hout with hstatus hexpired
        · exact .inl (by rw [hstatus]; rfl)
        · exact .inr hexpired
      · rw [← hr', challenges_withScore]
        rfl
      · rw [← hr']
        exact (frame_withScore _ c.targetIdentity _).after ⟨rfl, rfl, rfl⟩

theorem resolvedStatus_isOpen (c : PersonhoodChallenge) (block : Nat) (passed : Bool) :
    (resolvedStatus c block passed).isOpen = false := by
  unfold resolvedStatus
  split_ifs <;> rfl

theorem due_resolved (c : PersonhoodChallenge) (block : Nat) (passed : Bool) :
    { c with status := resolvedStatus c block passed }.due =
      if passed then c.deposit else c.deposit + challengeFailurePenalty := by
  unfold PersonhoodChallenge.due resolvedStatus
  cases passed with
  | true => rfl
  | false =>
    by_cases h : c.isExpired block = true ∧ c.status ≠ .responseSubmitted
    · simp only [Bool.false_eq_true, if_false, if_pos h]
    · simp only [Bool.false_eq_true, if_false, if_neg h]

/-! ## Effects -/

/-- A later record of the same challenge. -/
structure SameChallenge (c c' : PersonhoodChallenge) : Prop where
  target : c'.targetIdentity = c.targetIdentity
  challenger : c'.challenger = c.challenger
  issuedAt : c'.issuedAt = c.issuedAt

/-- What a call can do to the challenges. -/
inductive Effect (cr : Crypto) (r : PersonhoodRegistry) (op : PersonhoodOp) (r' : PersonhoodRegistry) : Prop where
  | keeps (hchallenges : r'.challenges = r.challenges) (hframe : Frame r r') (hpaid : r.settlement op = none)
  | issues (challenger : AccountId) (target : IdentityId) (type : ChallengeType) (deposit : Balance) (block : Nat)
      (hissued : op.issued = some (target, challenger, block)) (hcool : r.cooledDown target block = true)
      (hroom : (r.challengesOf target).length < maxChallengesPerIdentity)
      (hafter : r' = r.addChallenge (PersonhoodChallenge.new cr target challenger type deposit block) block)
      (hpaid : r.settlement op = none)
  | responds (id : Hash) (c c' : PersonhoodChallenge) (hc : r.challenges.find? id = some c)
      (hstatus : c.status = .pending) (hsame : SameChallenge c c') (hopen : c'.status.isOpen = true)
      (hchallenges : r'.challenges = r.challenges.insert id c') (hframe : Frame r r')
      (hpaid : r.settlement op = none)
  | settles (id : Hash) (c c' : PersonhoodChallenge) (hc : r.challenges.find? id = some c)
      (hsame : SameChallenge c c') (hclosed : c'.status.isOpen = false)
      (hchallenges : r'.challenges = r.challenges.insert id c') (hframe : Frame r r')
      (hpaid : r.settlement op = some (id, c'.due))

theorem effect_witnessUniqueness (cr : Crypto) (r : PersonhoodRegistry) (id : IdentityId) (witness : AccountId) :
    Effect cr r (.witnessUniqueness id witness) (r.apply cr (.witnessUniqueness id witness)) := by
  show Effect cr r _ (((r.witnessUniqueness id witness).map Prod.fst).orKeep r)
  apply Except.orKeep_map_of (Effect cr r (.witnessUniqueness id witness))
  · exact .keeps rfl (frame_refl r) rfl
  · intro r' added h
    unfold witnessUniqueness at h
    split at h
    · cases h
    · obtain ⟨rfl, -⟩ := Prod.mk.inj (Except.ok.inj h)
      split
      · exact .keeps (challenges_withScore _ id _) ((frame_withScore _ id _).after ⟨rfl, rfl, rfl⟩) rfl
      · exact .keeps rfl ⟨rfl, rfl, rfl⟩ rfl

theorem apply_effect (cr : Crypto) (r : PersonhoodRegistry) (op : PersonhoodOp) :
    Effect cr r op (r.apply cr op) := by
  cases op with
  | issueChallenge challenger target type deposit block registry =>
    apply Except.orKeep_map_of (Effect cr r _)
    · exact .keeps rfl (frame_refl r) rfl
    · intro r' id h
      obtain ⟨hcool, hroom, hafter⟩ := issueChallenge_ok cr r r' challenger target type deposit block registry id h
      exact .issues challenger target type deposit block rfl hcool hroom hafter rfl
  | respondToChallenge id responder data block registry =>
    apply Except.orKeep_of (Effect cr r _)
    · exact .keeps rfl (frame_refl r) rfl
    · intro r' h
      obtain ⟨c, hc, hstatus, rfl⟩ := respondToChallenge_ok r r' id responder data block registry h
      exact .responds id c
        { c with response := some { submittedAt := block, responseData := data }, status := .responseSubmitted }
        hc hstatus ⟨rfl, rfl, rfl⟩ rfl rfl ⟨rfl, rfl, rfl⟩ rfl
  | resolveChallenge id block =>
    show Effect cr r _ (((r.resolveChallenge id block).map Prod.fst).orKeep r)
    cases h : r.resolveChallenge id block with
    | error e =>
      refine .keeps rfl (frame_refl r) ?_
      rw [settlement, h]
      rfl
    | ok x =>
      obtain ⟨r', passed, p⟩ := x
      obtain ⟨c, hc, -, hchallenges, hframe, rfl⟩ := resolveChallenge_ok r r' id block passed p h
      refine .settles id c { c with status := resolvedStatus c block passed } hc ⟨rfl, rfl, rfl⟩
        (resolvedStatus_isOpen c block passed) hchallenges hframe ?_
      rw [settlement, h, due_resolved]
      rfl
  | cancelChallenge id canceller =>
    show Effect cr r _ (((r.cancelChallenge id canceller).map Prod.fst).orKeep r)
    cases h : r.cancelChallenge id canceller with
    | error e =>
      refine .keeps rfl (frame_refl r) ?_
      rw [settlement, h]
      rfl
    | ok x =>
      obtain ⟨r', p⟩ := x
      obtain ⟨c, hc, -, rfl, rfl⟩ := cancelChallenge_ok r r' id canceller p h
      refine .settles id c { c with status := .cancelled } hc ⟨rfl, rfl, rfl⟩ rfl rfl ⟨rfl, rfl, rfl⟩ ?_
      rw [settlement, h]
      rfl
  | submitUniquenessCommitment id data block registry =>
    apply Except.orKeep_of (Effect cr r _)
    · exact .keeps rfl (frame_refl r) rfl
    · intro r' h
      unfold submitUniquenessCommitment at h
      split_ifs at h
      obtain rfl := Except.ok.inj h
      exact .keeps rfl ⟨rfl, rfl, rfl⟩ rfl
  | witnessUniqueness id witness => exact effect_witnessUniqueness cr r id witness
  | initializeScore id =>
    show Effect cr r _ (r.initializeScore id)
    unfold initializeScore
    split
    · exact .keeps rfl (frame_refl r) rfl
    · exact .keeps rfl ⟨rfl, rfl, rfl⟩ rfl
  | recordActivity id actions => exact .keeps (challenges_withScore r id _) (frame_withScore r id _) rfl
  | updateLongevity id age => exact .keeps (challenges_withScore r id _) (frame_withScore r id _) rfl

/-! ## Ids -/

section Ids

variable (cr : Crypto) (config : PersonhoodConfig) (S : List (IdentityId × AccountId × Nat))

/-- What the challenges have ids of is among `S`, and the ids tell the targets and blocks
in `S` apart. -/
def Separates : Prop :=
  ∀ x ∈ S, ∀ y ∈ S, PersonhoodChallenge.computeId cr x.1 x.2.1 x.2.2 = PersonhoodChallenge.computeId cr y.1 y.2.1 y.2.2 →
    x.1 = y.1 ∧ x.2.2 = y.2.2

/-- The call issues no challenge outside of `S`. -/
def Issues (_s : PersonhoodRegistry × List (Hash × Balance)) (op : PersonhoodOp) : Prop :=
  ∀ x, op.issued = some x → x ∈ S

/-- A stored challenge has the id of its data and was not issued after the last challenge
to its target. -/
structure Placed (r : PersonhoodRegistry) (id : Hash) (c : PersonhoodChallenge) : Prop where
  mem : (c.targetIdentity, c.challenger, c.issuedAt) ∈ S
  id_eq : id = PersonhoodChallenge.computeId cr c.targetIdentity c.challenger c.issuedAt
  last : ∃ last, r.lastChallengeTime.find? c.targetIdentity = some last ∧ c.issuedAt ≤ last

/-- Every run keeps this, regular or not. -/
structure Inv (s : PersonhoodRegistry × List (Hash × Balance)) : Prop where
  config : s.1.config = config
  placed : ∀ id c, s.1.challenges.find? id = some c → Placed cr S s.1 id c
  recorded : ∀ t, ∀ id ∈ s.1.challengesOf t, (s.1.challenges.find? id).isSome
  few : ∀ t, (s.1.challengesOf t).length ≤ maxChallengesPerIdentity
  paid : ∀ e ∈ s.2, (s.1.challenges.find? e.1).isSome

variable {cr config S}

theorem SameChallenge.placed {r r' : PersonhoodRegistry} {id : Hash} {c c' : PersonhoodChallenge}
    (h : SameChallenge c c') (hframe : Frame r r') (hp : Placed cr S r id c) : Placed cr S r' id c' := by
  constructor
  · rw [h.target, h.challenger, h.issuedAt]
    exact hp.mem
  · rw [h.target, h.challenger, h.issuedAt]
    exact hp.id_eq
  · rw [h.target, h.issuedAt, hframe.lastTime]
    exact hp.last

/-- The cooldown keeps a target from being challenged twice in one block. -/
theorem Inv.fresh {s : PersonhoodRegistry × List (Hash × Balance)} (h : Inv cr config S s)
    (hsep : Separates cr S) (hcooldown : 1 ≤ config.challengeCooldownMultiplier) (target : IdentityId)
    (challenger : AccountId) (block : Nat) (hmem : (target, challenger, block) ∈ S)
    (hcool : s.1.cooledDown target block = true) :
    s.1.challenges.find? (PersonhoodChallenge.computeId cr target challenger block) = none := by
  rw [Option.eq_none_iff_forall_not_mem]
  intro c hc
  obtain ⟨hc_mem, hid, last, hlast, hle⟩ := h.placed _ c hc
  obtain ⟨rfl, rfl⟩ := hsep _ hmem _ hc_mem hid
  unfold cooledDown at hcool
  rw [hlast] at hcool
  have hlate : last + minChallengeInterval * s.1.config.challengeCooldownMultiplier ≤ c.issuedAt := by
    simpa using hcool
  rw [h.config] at hlate
  have hpos : minChallengeInterval * 1 ≤ minChallengeInterval * config.challengeCooldownMultiplier :=
    Nat.mul_le_mul_left _ hcooldown
  unfold minChallengeInterval at hlate hpos
  omega

/-- One challenge gets a later record. -/
theorem Inv.update {s : PersonhoodRegistry × List (Hash × Balance)} (h : Inv cr config S s)
    (r' : PersonhoodRegistry) (id : Hash) (c c' : PersonhoodChallenge) (hc : s.1.challenges.find? id = some c)
    (hsame : SameChallenge c c') (hchallenges : r'.challenges = s.1.challenges.insert id c')
    (hframe : Frame s.1 r') (paid : List (Hash × Balance)) (hpaid : ∀ e ∈ paid, e ∈ s.2 ∨ e.1 = id) :
    Inv cr config S (r', paid) := by
  have hstored : ∀ j, (s.1.challenges.find? j).isSome → (r'.challenges.find? j).isSome := by
    intro j hj
    rw [hchallenges]
    by_cases hji : j = id
    · subst hji
      rw [SortedMap.find?_insert_self]
      rfl
    · rwa [SortedMap.find?_insert_ne _ _ _ _ hji]
  constructor
  · exact hframe.config.trans h.config
  · intro j d hd
    rw [hchallenges] at hd
    by_cases hji : j = id
    · subst hji
      rw [SortedMap.find?_insert_self] at hd
      obtain rfl := Option.some.inj hd
      exact hsame.placed hframe (h.placed j c hc)
    · rw [SortedMap.find?_insert_ne _ _ _ _ hji] at hd
      exact SameChallenge.placed ⟨rfl, rfl, rfl⟩ hframe (h.placed j d hd)
  · intro t j hj
    rw [hframe.challengesOf] at hj
    exact hstored j (h.recorded t j hj)
  · intro t
    rw [hframe.challengesOf]
    exact h.few t
  · intro e he
    apply hstored
    rcases hpaid e he with hold | hnew
    · exact h.paid e hold
    · rw [hnew, hc]
      rfl

theorem challengesOf_addChallenge (r : PersonhoodRegistry) (c : PersonhoodChallenge) (block : Nat) (t : IdentityId) :
    (r.addChallenge c block).challengesOf t =
      if t = c.targetIdentity then r.challengesOf t ++ [c.challengeId] else r.challengesOf t := by
  unfold challengesOf addChallenge
  by_cases h : t = c.targetIdentity
  · subst h
    simp [challengesOf]
  · simp [SortedMap.find?_insert_ne _ _ _ _ h, h]

@[simp] theorem find?_addChallenge_self (r : PersonhoodRegistry) (c : PersonhoodChallenge) (block : Nat) :
    (r.addChallenge c block).challenges.find? c.challengeId = some c := SortedMap.find?_insert_self _ _ _

theorem find?_addChallenge_ne (r : PersonhoodRegistry) (c : PersonhoodChallenge) (block : Nat) (id : Hash)
    (h : id ≠ c.challengeId) : (r.addChallenge c block).challenges.find? id = r.challenges.find? id :=
  SortedMap.find?_insert_ne _ _ _ _ h

theorem isSome_addChallenge (r : PersonhoodRegistry) (c : PersonhoodChallenge) (block : Nat) (id : Hash)
    (h : (r.challenges.find? id).isSome) : ((r.addChallenge c block).challenges.find? id).isSome := by
  by_cases hid : id = c.challengeId
  · rw [hid, find?_addChallenge_self]
    rfl
  · rwa [find?_addChallenge_ne _ _ _ _ hid]

/-- A new challenge. -/
theorem Inv.addChallenge {s : PersonhoodRegistry × List (Hash × Balance)} (h : Inv cr config S s)
    (target : IdentityId) (challenger : AccountId) (type : ChallengeType) (deposit : Balance) (block : Nat)
    (hmem : (target, challenger, block) ∈ S) (hcool : s.1.cooledDown target block = true)
    (hroom : (s.1.challengesOf target).length < maxChallengesPerIdentity) :
    Inv cr config S
      (s.1.addChallenge (PersonhoodChallenge.new cr target challenger type deposit block) block, s.2) := by
  constructor
  · exact h.config
  · intro j d hd
    by_cases hji : j = PersonhoodChallenge.computeId cr target challenger block
    · subst hji
      obtain rfl := Option.some.inj ((find?_addChallenge_self _ _ _).symm.trans hd)
      exact ⟨hmem, rfl, block, SortedMap.find?_insert_self _ _ _, Nat.le_refl block⟩
    · have hold := h.placed j d ((find?_addChallenge_ne _ _ _ _ hji).symm.trans hd)
      refine ⟨hold.mem, hold.id_eq, ?_⟩
      obtain ⟨last, hlast, hle⟩ := hold.last
      by_cases ht : d.targetIdentity = target
      · refine ⟨block, ?_, ?_⟩
        · rw [ht]
          exact SortedMap.find?_insert_self _ _ _
        · rw [ht] at hlast
          unfold cooledDown at hcool
          rw [hlast] at hcool
          have : last + minChallengeInterval * s.1.config.challengeCooldownMultiplier ≤ block := by
            simpa using hcool
          omega
      · exact ⟨last, (SortedMap.find?_insert_ne _ _ _ _ ht).trans hlast, hle⟩
  · intro t j hj
    rw [challengesOf_addChallenge] at hj
    split at hj
    · rcases List.mem_append.1 hj with hold | hnew
      · exact isSome_addChallenge _ _ _ j (h.recorded t j hold)
      · rw [List.mem_singleton.1 hnew, find?_addChallenge_self]
        rfl
    · exact isSome_addChallenge _ _ _ j (h.recorded t j hj)
  · intro t
    rw [challengesOf_addChallenge]
    split
    · rename_i ht
      obtain rfl : t = target := ht
      rw [List.length_append]
      exact hroom
    · exact h.few t
  · intro e he
    exact isSome_addChallenge _ _ _ e.1 (h.paid e he)

/-- **Step.** -/
theorem Inv.step {s : PersonhoodRegistry × List (Hash × Balance)} (h : Inv cr config S s) (op : PersonhoodOp)
    (hop : Issues S s op) : Inv cr config S (PersonhoodRegistry.step cr s op) := by
  unfold PersonhoodRegistry.step
  cases apply_effect cr s.1 op with
  | keeps hchallenges hframe hpaid =>
    rw [hpaid, Option.toList_none, List.append_nil]
    constructor
    · exact hframe.config.trans h.config
    · intro id c hc
      rw [hchallenges] at hc
      exact SameChallenge.placed ⟨rfl, rfl, rfl⟩ hframe (h.placed id c hc)
    · intro t id hid
      rw [hframe.challengesOf] at hid
      rw [hchallenges]
      exact h.recorded t id hid
    · intro t
      rw [hframe.challengesOf]
      exact h.few t
    · intro e he
      rw [hchallenges]
      exact h.paid e he
  | issues challenger target type deposit block hissued hcool hroom hafter hpaid =>
    rw [hpaid, hafter, Option.toList_none, List.append_nil]
    exact h.addChallenge target challenger type deposit block (hop _ hissued) hcool hroom
  | responds id c c' hc _ hsame _ hchallenges hframe hpaid =>
    refine h.update _ id c c' hc hsame hchallenges hframe _ ?_
    rw [hpaid]
    intro e he
    exact .inl (by simpa using he)
  | settles id c c' hc hsame _ hchallenges hframe hpaid =>
    refine h.update _ id c c' hc hsame hchallenges hframe _ ?_
    rw [hpaid]
    intro e he
    rcases List.mem_append.1 he with hold | hnew
    · exact .inl hold
    · exact .inr (by rw [List.mem_singleton.1 hnew])

end Ids

/-! ## Settled challenges -/

/-- The challenge is settled and its time is over. -/
def settledAndExpired (r : PersonhoodRegistry) (id : Hash) (block : Nat) : Bool :=
  (r.challenges.find? id).any fun c => !c.status.isOpen && c.isExpired block

/-- A challenge to the target is settled. -/
def anySettled (r : PersonhoodRegistry) (target : IdentityId) : Bool :=
  (r.challengesOf target).any fun id => (r.challenges.find? id).any fun c => !c.status.isOpen

/-- A challenge is not resolved after it was settled and its time is over.  Where a target
could be challenged again but for the limit, its challenges are all open. -/
def Regular (s : PersonhoodRegistry × List (Hash × Balance)) : PersonhoodOp → Prop
  | .resolveChallenge id block => s.1.settledAndExpired id block = false
  | .issueChallenge _ target _ _ block registry =>
    (s.1.config.challengesEnabled && registry.isActive target block && s.1.cooledDown target block &&
      decide (maxChallengesPerIdentity ≤ (s.1.challengesOf target).length) && s.1.anySettled target) = false
  | _ => True

instance (s : PersonhoodRegistry × List (Hash × Balance)) (op : PersonhoodOp) : Decidable (Regular s op) := by
  cases op <;> unfold Regular <;> infer_instance

/-- At most one payment on each challenge: none while it is open, then what its status says. -/
def PaidOnce (s : PersonhoodRegistry × List (Hash × Balance)) : Prop :=
  ∀ id, (payouts s.2 id).length ≤ 1 ∧
    ∀ c, s.1.challenges.find? id = some c → payouts s.2 id = if c.status.isOpen then [] else [c.due]

/-- What is settled keeps its status. -/
def SettledStays (s t : PersonhoodRegistry × List (Hash × Balance)) : Prop :=
  ∀ id c, s.1.challenges.find? id = some c → c.status.isOpen = false →
    ∃ c', t.1.challenges.find? id = some c' ∧ c'.status = c.status

/-- A call on a settled challenge leaves the counters of the target alone. -/
def LeavesCounters (cr : Crypto) (s : PersonhoodRegistry × List (Hash × Balance)) (op : PersonhoodOp) : Prop :=
  ∀ id c, s.1.challenges.find? id = some c → c.status.isOpen = false → op.challengeId = some id →
    (s.1.apply cr op).countersOf c.targetIdentity = s.1.countersOf c.targetIdentity

/-- A challenge is refused as one too many only if the target has that many open ones. -/
def RefusesForOpen (cr : Crypto) (s : PersonhoodRegistry × List (Hash × Balance)) : PersonhoodOp → Prop
  | .issueChallenge challenger target type deposit block registry =>
    s.1.issueChallenge cr challenger target type deposit block registry = .error .tooManyChallenges →
      maxChallengesPerIdentity ≤ (s.1.getChallenges target).length
  | _ => True

theorem settledAndExpired_eq_true (r : PersonhoodRegistry) (id : Hash) (block : Nat) :
    r.settledAndExpired id block = true ↔
      ∃ c, r.challenges.find? id = some c ∧ c.status.isOpen = false ∧ c.isExpired block = true := by
  unfold settledAndExpired
  rw [Option.any_eq_true]
  simp

/-- The settlement is made all the same. -/
theorem settlement_of_settledAndExpired (r : PersonhoodRegistry) (id : Hash) (block : Nat)
    (h : r.settledAndExpired id block = true) : ∃ p, r.settlement (.resolveChallenge id block) = some (id, p) := by
  obtain ⟨c, hc, hclosed, hexpired⟩ := (settledAndExpired_eq_true r id block).1 h
  have hstatus : c.status ≠ .responseSubmitted := by
    rintro hs
    rw [hs] at hclosed
    cases hclosed
  refine ⟨c.deposit + challengeFailurePenalty, ?_⟩
  simp only [settlement, resolveChallenge, hc, resolveOutcome, if_neg hstatus, if_pos hexpired]
  rfl

/-- A regular call settles an open challenge. -/
theorem isOpen_of_settlement (s : PersonhoodRegistry × List (Hash × Balance)) (op : PersonhoodOp) (id : Hash)
    (c : PersonhoodChallenge) (p : Balance) (hreg : Regular s op) (hpaid : s.1.settlement op = some (id, p))
    (hc : s.1.challenges.find? id = some c) : c.status.isOpen = true := by
  cases op with
  | resolveChallenge j block =>
    rw [settlement] at hpaid
    cases hres : s.1.resolveChallenge j block with
    | error e =>
      rw [hres] at hpaid
      cases hpaid
    | ok x =>
      rw [hres] at hpaid
      obtain ⟨rfl, -⟩ := Prod.mk.inj (Option.some.inj hpaid)
      obtain ⟨d, hd, hor, -⟩ := resolveChallenge_ok _ _ _ _ _ _ hres
      rw [hc] at hd
      obtain rfl := Option.some.inj hd
      rcases hor with hopen | hexpired
      · exact hopen
      · by_contra hclosed
        have htrue := (settledAndExpired_eq_true s.1 j block).2 ⟨c, hc, by simpa using hclosed, hexpired⟩
        rw [Regular, htrue] at hreg
        cases hreg
  | cancelChallenge j canceller =>
    rw [settlement] at hpaid
    cases hres : s.1.cancelChallenge j canceller with
    | error e =>
      rw [hres] at hpaid
      cases hpaid
    | ok x =>
      rw [hres] at hpaid
      obtain ⟨rfl, -⟩ := Prod.mk.inj (Option.some.inj hpaid)
      obtain ⟨d, hd, hstatus, -⟩ := cancelChallenge_ok _ _ _ _ _ hres
      rw [hc] at hd
      obtain rfl := Option.some.inj hd
      rw [hstatus]
      rfl
  | _ => cases hpaid

/-- A regular call on a settled challenge is refused. -/
theorem apply_eq_self_of_settled (cr : Crypto) (s : PersonhoodRegistry × List (Hash × Balance)) (op : PersonhoodOp)
    (id : Hash) (c : PersonhoodChallenge) (hreg : Regular s op) (hop : op.challengeId = some id)
    (hc : s.1.challenges.find? id = some c) (hclosed : c.status.isOpen = false) : s.1.apply cr op = s.1 := by
  have hpending : c.status ≠ .pending := by
    intro hs
    rw [hs] at hclosed
    cases hclosed
  cases op with
  | respondToChallenge j responder data block registry =>
    obtain rfl := Option.some.inj hop
    apply Except.orKeep_of (fun r => r = s.1)
    · rfl
    · intro r' h
      obtain ⟨d, hd, hstatus, -⟩ := respondToChallenge_ok _ _ _ _ _ _ _ h
      rw [hc] at hd
      obtain rfl := Option.some.inj hd
      exact absurd hstatus hpending
  | resolveChallenge j block =>
    obtain rfl := Option.some.inj hop
    apply Except.orKeep_map_of (fun r => r = s.1)
    · rfl
    · intro r' x h
      have hpaid : s.1.settlement (.resolveChallenge j block) = some (j, x.2) := by
        rw [settlement, h]
        rfl
      rw [isOpen_of_settlement s _ j c x.2 hreg hpaid hc] at hclosed
      cases hclosed
  | cancelChallenge j canceller =>
    obtain rfl := Option.some.inj hop
    apply Except.orKeep_map_of (fun r => r = s.1)
    · rfl
    · intro r' p h
      obtain ⟨d, hd, hstatus, -⟩ := cancelChallenge_ok _ _ _ _ _ h
      rw [hc] at hd
      obtain rfl := Option.some.inj hd
      exact absurd hstatus hpending
  | _ => cases hop

theorem settledStays_refl (s : PersonhoodRegistry × List (Hash × Balance)) : SettledStays s s :=
  fun _ c hc _ => ⟨c, hc, rfl⟩

theorem settledStays_trans (s t u : PersonhoodRegistry × List (Hash × Balance)) (h : SettledStays s t)
    (h' : SettledStays t u) : SettledStays s u := by
  intro id c hc hclosed
  obtain ⟨d, hd, hdc⟩ := h id c hc hclosed
  obtain ⟨e, he, hed⟩ := h' id d hd (by rw [hdc, hclosed])
  exact ⟨e, he, hed.trans hdc⟩

theorem settledStays_step (cr : Crypto) (s : PersonhoodRegistry × List (Hash × Balance)) (op : PersonhoodOp)
    (hfresh : ∀ x, op.issued = some x → s.1.cooledDown x.1 x.2.2 = true →
      s.1.challenges.find? (PersonhoodChallenge.computeId cr x.1 x.2.1 x.2.2) = none)
    (hreg : Regular s op) : SettledStays s (step cr s op) := by
  intro id c hc hclosed
  show ∃ c', (s.1.apply cr op).challenges.find? id = some c' ∧ c'.status = c.status
  cases apply_effect cr s.1 op with
  | keeps hchallenges _ _ => exact ⟨c, by rw [hchallenges, hc], rfl⟩
  | issues challenger target type deposit block hissued hcool _ hafter _ =>
    have hne : id ≠ PersonhoodChallenge.computeId cr target challenger block := by
      rintro rfl
      rw [hfresh _ hissued hcool] at hc
      cases hc
    exact ⟨c, by rw [hafter, find?_addChallenge_ne _ _ _ _ hne, hc], rfl⟩
  | responds j d d' hd hstatus _ _ hchallenges _ _ =>
    have hne : id ≠ j := by
      rintro rfl
      rw [hc] at hd
      obtain rfl := Option.some.inj hd
      rw [hstatus] at hclosed
      cases hclosed
    exact ⟨c, by rw [hchallenges, SortedMap.find?_insert_ne _ _ _ _ hne, hc], rfl⟩
  | settles j d d' hd _ _ hchallenges _ hpaid =>
    have hne : id ≠ j := by
      rintro rfl
      rw [isOpen_of_settlement s op id c _ hreg hpaid hc] at hclosed
      cases hclosed
    exact ⟨c, by rw [hchallenges, SortedMap.find?_insert_ne _ _ _ _ hne, hc], rfl⟩

/-- All recorded challenges are open exactly if none of them is settled. -/
theorem length_getChallenges_iff (r : PersonhoodRegistry) (target : IdentityId)
    (hstored : ∀ id ∈ r.challengesOf target, (r.challenges.find? id).isSome) :
    (r.challengesOf target).length ≤ (r.getChallenges target).length ↔ r.anySettled target = false := by
  have hcount : (r.getChallenges target).length =
      (r.challengesOf target).countP fun id => ((r.challenges.find? id).map fun c => c.status.isOpen).getD false := by
    unfold getChallenges
    rw [← List.countP_eq_length_filter, List.countP_filterMap]
  have hle := List.countP_le_length (l := r.challengesOf target)
    (p := fun id => ((r.challenges.find? id).map fun c => c.status.isOpen).getD false)
  rw [hcount]
  constructor
  · intro hlen
    have hall := List.countP_eq_length.1 (Nat.le_antisymm hle hlen)
    unfold anySettled
    rw [List.any_eq_false]
    intro id hid
    have hopen := hall id hid
    cases hc : r.challenges.find? id with
    | none => simp
    | some c =>
      rw [hc] at hopen
      simpa using hopen
  · intro hnone
    apply Nat.le_of_eq
    symm
    rw [List.countP_eq_length]
    intro id hid
    unfold anySettled at hnone
    rw [List.any_eq_false] at hnone
    obtain ⟨c, hc⟩ := Option.isSome_iff_exists.1 (hstored id hid)
    have := hnone id hid
    rw [hc] at this ⊢
    simpa using this

/-! ## Runs -/

section Runs

variable (cr : Crypto) (config : PersonhoodConfig) (S : List (IdentityId × AccountId × Nat))
  (hsep : Separates cr S) (hcooldown : 1 ≤ config.challengeCooldownMultiplier)

include hsep hcooldown

theorem paidOnce_step (s : PersonhoodRegistry × List (Hash × Balance)) (op : PersonhoodOp)
    (h : Inv cr config S s) (hop : Issues S s op) (hpaid : PaidOnce s) (hreg : Regular s op) :
    PaidOnce (PersonhoodRegistry.step cr s op) := by
  unfold PersonhoodRegistry.step
  intro id
  show (payouts (s.2 ++ (s.1.settlement op).toList) id).length ≤ 1 ∧
    ∀ c, (s.1.apply cr op).challenges.find? id = some c →
      payouts (s.2 ++ (s.1.settlement op).toList) id = if c.status.isOpen then [] else [c.due]
  cases apply_effect cr s.1 op with
  | keeps hchallenges _ hnone =>
    rw [hnone, hchallenges, Option.toList_none, List.append_nil]
    exact hpaid id
  | issues challenger target type deposit block hissued hcool _ hafter hnone =>
    rw [hnone, hafter, Option.toList_none, List.append_nil]
    refine ⟨(hpaid id).1, ?_⟩
    intro c hc
    by_cases hid : id = PersonhoodChallenge.computeId cr target challenger block
    · subst hid
      obtain rfl := Option.some.inj ((find?_addChallenge_self _ _ _).symm.trans hc)
      -- payments are on challenges that exist, and this one did not
      apply payouts_eq_nil
      intro e he heq
      have hsome := h.paid e he
      rw [heq, h.fresh hsep hcooldown target challenger block (hop _ hissued) hcool] at hsome
      cases hsome
    · exact (hpaid id).2 c ((find?_addChallenge_ne _ _ _ _ hid).symm.trans hc)
  | responds j d d' hd hstatus _ hopen hchallenges _ hnone =>
    rw [hnone, hchallenges, Option.toList_none, List.append_nil]
    refine ⟨(hpaid id).1, ?_⟩
    intro c hc
    by_cases hid : id = j
    · subst hid
      rw [SortedMap.find?_insert_self] at hc
      obtain rfl := Option.some.inj hc
      rw [(hpaid id).2 d hd, hstatus, hopen]
      rfl
    · rw [SortedMap.find?_insert_ne _ _ _ _ hid] at hc
      exact (hpaid id).2 c hc
  | settles j d d' hd _ hclosed hchallenges _ hsettled =>
    rw [hsettled, hchallenges, Option.toList_some]
    by_cases hid : id = j
    · subst hid
      rw [payouts_concat_self, (hpaid id).2 d hd,
        if_pos (isOpen_of_settlement s op id d _ hreg hsettled hd), List.nil_append]
      refine ⟨Nat.le_refl 1, ?_⟩
      intro c hc
      rw [SortedMap.find?_insert_self] at hc
      obtain rfl := Option.some.inj hc
      rw [hclosed]
      rfl
    · rw [payouts_concat_ne _ _ _ _ hid, SortedMap.find?_insert_ne _ _ _ _ hid]
      exact hpaid id

/-- From a state with at most one payment on each challenge, the regular calls are those
that lead to such a state, leave what is settled alone and refuse for open challenges. -/
theorem regular_iff (s : PersonhoodRegistry × List (Hash × Balance)) (op : PersonhoodOp)
    (h : Inv cr config S s) (hop : Issues S s op) (hpaid : PaidOnce s) :
    PaidOnce (PersonhoodRegistry.step cr s op) ∧
        (SettledStays s (PersonhoodRegistry.step cr s op) ∧ LeavesCounters cr s op ∧ RefusesForOpen cr s op) ↔
      Regular s op := by
  constructor
  · rintro ⟨hnext, -, -, hrefuse⟩
    cases op with
    | resolveChallenge id block =>
      by_contra hreg
      have htrue : s.1.settledAndExpired id block = true := by simpa [Regular] using hreg
      obtain ⟨p, hp⟩ := settlement_of_settledAndExpired s.1 id block htrue
      obtain ⟨c, hc, hclosed, -⟩ := (settledAndExpired_eq_true s.1 id block).1 htrue
      have hlen := (hnext id).1
      unfold PersonhoodRegistry.step at hlen
      rw [hp, Option.toList_some, payouts_concat_self, (hpaid id).2 c hc, hclosed] at hlen
      simp at hlen
    | issueChallenge challenger target type deposit block registry =>
      by_contra hreg
      simp only [Regular, Bool.not_eq_false, Bool.and_eq_true, decide_eq_true_eq] at hreg
      obtain ⟨⟨⟨⟨henabled, hactive⟩, hcool⟩, hfull⟩, hsettled⟩ := hreg
      have hopen := hrefuse
        ((issueChallenge_tooMany_iff cr s.1 _ _ type deposit _ _).2 ⟨henabled, hactive, hcool, hfull⟩)
      have hall := (length_getChallenges_iff s.1 target (h.recorded target)).1 ((h.few target).trans hopen)
      rw [hsettled] at hall
      cases hall
    | _ => trivial
  · intro hreg
    refine ⟨paidOnce_step cr config S hsep hcooldown s op h hop hpaid hreg, ?_, ?_, ?_⟩
    · apply settledStays_step cr s op _ hreg
      intro x hx hcool
      exact h.fresh hsep hcooldown x.1 x.2.1 x.2.2 (hop x hx) hcool
    · intro id c hc hclosed hid
      rw [apply_eq_self_of_settled cr s op id c hreg hid hc hclosed]
    · cases op with
      | issueChallenge challenger target type deposit block registry =>
        intro herr
        obtain ⟨henabled, hactive, hcool, hfull⟩ := (issueChallenge_tooMany_iff cr s.1 _ _ _ _ _ _).1 herr
        have hnone : s.1.anySettled target = false := by
          simpa [Regular, henabled, hactive, hcool, hfull] using hreg
        exact hfull.trans ((length_getChallenges_iff s.1 target (h.recorded target)).2 hnone)
      | _ => trivial

end Runs

/-- The registry and the settlements after a run from given settings. -/
def after (cr : Crypto) (chain : ChainId) (config : PersonhoodConfig) (ops : List PersonhoodOp) :
    PersonhoodRegistry × List (Hash × Balance) :=
  ops.foldl (step cr) (withConfig chain config, [])

theorem inv_withConfig (cr : Crypto) (chain : ChainId) (config : PersonhoodConfig)
    (S : List (IdentityId × AccountId × Nat)) : Inv cr config S (withConfig chain config, []) :=
  ⟨rfl, nofun, nofun, fun _ => Nat.zero_le _, nofun⟩

theorem separates_of_bytes (cr : Crypto) (S : List (IdentityId × AccountId × Nat)) (hblock : ∀ x ∈ S, x.2.2 < 2 ^ 64)
    (hsep : ∀ x ∈ S, ∀ y ∈ S,
      cr.blake3 (challengeIdBytes x.1 x.2.1 x.2.2) = cr.blake3 (challengeIdBytes y.1 y.2.1 y.2.2) →
        challengeIdBytes x.1 x.2.1 x.2.2 = challengeIdBytes y.1 y.2.1 y.2.2) : Separates cr S := by
  intro x hx y hy hid
  exact challengeIdBytes_inj _ _ _ _ _ _ (hblock x hx) (hblock y hy) (hsep x hx y hy hid)

/-- A challenge to the sample identity, with the least deposit. -/
def sampleIssue (block : Nat) : PersonhoodOp :=
  .issueChallenge ⟨2⟩ IdentityRegistry.sampleIdentity (.liveness ⟨0⟩) 50 block IdentityRegistry.sample

def sampleChallengeId (block : Nat) : Hash :=
  PersonhoodChallenge.computeId Crypto.sample IdentityRegistry.sampleIdentity ⟨2⟩ block

/-- The challenge is answered and resolved, and later resolved again before its time is over. -/
def answeredOps : List PersonhoodOp :=
  [.initializeScore IdentityRegistry.sampleIdentity, sampleIssue 2592001,
    .respondToChallenge (sampleChallengeId 2592001) ⟨1⟩ (.livenessProof ⟨5⟩) 2592005 IdentityRegistry.sample,
    .resolveChallenge (sampleChallengeId 2592001) 2592010, .resolveChallenge (sampleChallengeId 2592001) 2592011]

/-- The challenge is cancelled, and resolved when its time is over. -/
def cancelledOps : List PersonhoodOp :=
  [.initializeScore IdentityRegistry.sampleIdentity, sampleIssue 2592001,
    .cancelChallenge (sampleChallengeId 2592001) ⟨2⟩, .resolveChallenge (sampleChallengeId 2592001) 2692802]

/-- Three challenges are cancelled, each as soon as it is issued. -/
def threeCancelledOps : List PersonhoodOp :=
  [2592001, 3024001, 3456001].flatMap fun block =>
    [sampleIssue block, .cancelChallenge (sampleChallengeId block) ⟨2⟩]

end PersonhoodRegistry

end Kratos
