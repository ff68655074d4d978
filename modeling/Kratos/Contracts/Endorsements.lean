import Kratos.Contracts.Reputation
import Kratos.Lib.Listed

/-!
# Endorsements

An endorsement is given in the name of an identity, is on the lists of its giver and its
receiver, and counts in the record of the receiver.  `Sound` says that at most one is active
for each giver, receiver and domain, that each is listed once on both sides, and that the
records count the active ones.

The states of a run are all sound, and every endorsement is given by the owner of the
identity it names, if and only if every call is fair (`endorsements_sound_iff`).  The code
does not see to that: it asks whether the account owns some active identity and not which,
it accepts a second endorsement beside an active one or in the block of a revoked one, a
revocation is not taken off the record, and a record starts at zero.
-/

namespace Kratos

/-- What the id of a new endorsement is made of. -/
def ReputationOp.endorses : ReputationOp → Option (IdentityId × IdentityId × ReputationDomain × Nat)
  | giveEndorsement _ identity target domain _ block _ => some (identity, target, domain, block)
  | _ => none

/-- The endorsements a record counts in each domain. -/
def MultiDimensionalReputation.counts (r : MultiDimensionalReputation) (domain : ReputationDomain) : Nat :=
  (r.domains domain).endorsementCount

namespace ReputationRegistry

/-! ## Records -/

theorem counts_setDomain (rep : MultiDimensionalReputation) (domain d : ReputationDomain) (v : DomainReputation) :
    (rep.setDomain domain v).counts d = if d = domain then v.endorsementCount else rep.counts d := by
  unfold MultiDimensionalReputation.counts MultiDimensionalReputation.setDomain
  by_cases h : d = domain
  · subst h
    simp
  · simp [h]

theorem counts_addDomainRep (rep : MultiDimensionalReputation) (domain : ReputationDomain) (points block : Nat) :
    (rep.addDomainRep domain points block).counts = rep.counts := by
  ext d
  show (rep.setDomain domain _).counts d = rep.counts d
  rw [counts_setDomain]
  split
  · rename_i h
    subst h
    rfl
  · rfl

theorem counts_slashDomain (rep : MultiDimensionalReputation) (domain : ReputationDomain) (percent : Nat) :
    (rep.slashDomain domain percent).counts = rep.counts := by
  ext d
  show (rep.setDomain domain _).counts d = rep.counts d
  rw [counts_setDomain]
  split
  · rename_i h
    subst h
    rfl
  · rfl

theorem counts_applyDecay (rep : MultiDimensionalReputation) (block : Nat) :
    (rep.applyDecay block).counts = rep.counts := by
  ext d
  show ((rep.domains d).applyDecay block d.decayRate).endorsementCount = (rep.domains d).endorsementCount
  unfold DomainReputation.applyDecay
  dsimp only
  split <;> rfl

theorem counts_addEndorsement (rep : MultiDimensionalReputation) (domain d : ReputationDomain) (endorserRep : Nat)
    (h : rep.counts domain < maxEndorsementsPerDomain) :
    (rep.addEndorsement domain endorserRep).1.counts d = if d = domain then rep.counts d + 1 else rep.counts d := by
  have hroom : ¬ (rep.domains domain).endorsementCount ≥ maxEndorsementsPerDomain := Nat.not_le.2 h
  unfold MultiDimensionalReputation.addEndorsement
  simp only [if_neg hroom]
  show (rep.setDomain domain _).counts d = _
  rw [counts_setDomain]
  split
  · rename_i hd
    subst hd
    rfl
  · rfl

/-! ## Sound registries -/

/-- The active endorsements of an identity in a domain. -/
def activeEndorsements (r : ReputationRegistry) (id : IdentityId) (domain : ReputationDomain) : Nat :=
  SortedMap.sumOf (fun _ e => if e.active = true ∧ e.targetIdentity = id ∧ e.domain = domain then 1 else 0)
    r.endorsements

/-- Who receives an endorsement, and where. -/
def receiver (e : Endorsement) : IdentityId × ReputationDomain := (e.targetIdentity, e.domain)

/-- The lists of the receivers. -/
def receivedLists (r : ReputationRegistry) (k : IdentityId × ReputationDomain) : List Hash := r.receivedBy k.1 k.2

structure Sound (r : ReputationRegistry) : Prop where
  single : ∀ id id' e e', r.endorsements.find? id = some e → r.endorsements.find? id' = some e' →
    e.active = true → e'.active = true → e.endorserIdentity = e'.endorserIdentity →
    e.targetIdentity = e'.targetIdentity → e.domain = e'.domain → id = id'
  given : Listed r.givenBy Endorsement.endorserIdentity r.endorsements
  received : Listed r.receivedLists receiver r.endorsements
  counted : ∀ id rep domain, r.reputations.find? id = some rep → rep.counts domain = r.activeEndorsements id domain

/-- A call gives no endorsement but in the name of the active identity of its caller, and
not to that identity. -/
def Genuine (cr : Crypto) (r : ReputationRegistry) : ReputationOp → Prop
  | .giveEndorsement endorser identity target domain context block registry =>
    ∀ r' id, r.giveEndorsement cr endorser identity target domain context block registry = .ok (r', id) →
      registry.getIdentityId endorser = some identity ∧ registry.isActive identity block = true ∧ identity ≠ target
  | _ => True

/-! ## Fair calls -/

/-- The checks an endorsement has to pass. -/
def accepts (r : ReputationRegistry) (endorser : AccountId) (identity target : IdentityId) (domain : ReputationDomain)
    (block : Nat) (registry : IdentityRegistry) : Bool :=
  r.config.endorsementsEnabled && registry.ownerIsActive endorser block && decide (identity ≠ target) &&
    decide (r.config.minRepToEndorse ≤ r.getEffectiveScore identity) &&
    decide ((r.receivedBy target domain).length < maxEndorsementsPerDomain)

/-- An endorsement of the same giver, receiver and domain is active or from the same block. -/
def standing (r : ReputationRegistry) (identity target : IdentityId) (domain : ReputationDomain) (block : Nat) : Bool :=
  r.endorsements.values.any fun e =>
    decide (e.endorserIdentity = identity ∧ e.targetIdentity = target ∧ e.domain = domain) &&
      (e.active || decide (e.endorsedAt = block))

/-- The caller of an endorsement that passes the checks owns the identity it names, and no
such endorsement is active or from the same block; an active endorsement is revoked only if
its receiver has no record; a record is started only for an identity without active
endorsements. -/
def Fair (r : ReputationRegistry) : ReputationOp → Prop
  | .giveEndorsement endorser identity target domain _ block registry =>
    (r.accepts endorser identity target domain block registry &&
      (decide (registry.getIdentityId endorser ≠ some identity) || r.standing identity target domain block)) = false
  | .revokeEndorsement id revoker =>
    ((r.endorsements.find? id).any fun e =>
      decide (e.endorser = revoker) && e.active && r.reputations.contains e.targetIdentity) = false
  | .initializeReputation id _ =>
    (!r.reputations.contains id &&
      r.endorsements.values.any fun e => e.active && decide (e.targetIdentity = id)) = false
  | _ => True

instance (r : ReputationRegistry) (op : ReputationOp) : Decidable (Fair r op) := by
  cases op <;> unfold Fair <;> infer_instance

theorem accepts_iff (cr : Crypto) (r : ReputationRegistry) (endorser : AccountId) (identity target : IdentityId)
    (domain : ReputationDomain) (context : Option String) (block : Nat) (registry : IdentityRegistry) :
    r.accepts endorser identity target domain block registry = true ↔
      r.giveEndorsement cr endorser identity target domain context block registry =
        .ok (r.addEndorsement (r.endorsement cr endorser identity target domain context block)
          (r.getEffectiveScore identity), Endorsement.computeId cr identity target domain block) := by
  rw [giveEndorsement_ok_iff]
  simp [accepts, and_assoc]

theorem standing_iff (r : ReputationRegistry) (identity target : IdentityId) (domain : ReputationDomain) (block : Nat) :
    r.standing identity target domain block = true ↔
      ∃ id e, r.endorsements.find? id = some e ∧ e.endorserIdentity = identity ∧ e.targetIdentity = target ∧
        e.domain = domain ∧ (e.active = true ∨ e.endorsedAt = block) := by
  unfold standing
  rw [List.any_eq_true]
  constructor
  · rintro ⟨e, he, hp⟩
    obtain ⟨id, hid⟩ := (SortedMap.mem_values_iff _ _).1 he
    simp only [Bool.and_eq_true, decide_eq_true_eq, Bool.or_eq_true] at hp
    exact ⟨id, e, hid, hp.1.1, hp.1.2.1, hp.1.2.2, hp.2⟩
  · rintro ⟨id, e, hid, h₁, h₂, h₃, hor⟩
    refine ⟨e, (SortedMap.mem_values_iff _ _).2 ⟨id, hid⟩, ?_⟩
    simp only [Bool.and_eq_true, decide_eq_true_eq, Bool.or_eq_true]
    exact ⟨⟨h₁, h₂, h₃⟩, hor⟩

/-! ## Calls that leave the endorsements alone -/

/-- The endorsements, their lists and their counts are as they were. -/
structure Same (r r' : ReputationRegistry) : Prop where
  endorsements : r'.endorsements = r.endorsements
  given : r'.endorsementsGiven = r.endorsementsGiven
  received : r'.endorsementsReceived = r.endorsementsReceived
  counts : ∀ id, (r'.reputations.find? id).map MultiDimensionalReputation.counts =
    (r.reputations.find? id).map MultiDimensionalReputation.counts

theorem Same.refl (r : ReputationRegistry) : Same r r := ⟨rfl, rfl, rfl, fun _ => rfl⟩

theorem Sound.same {r r' : ReputationRegistry} (h : Sound r) (hsame : Same r r') : Sound r' := by
  constructor
  · rw [hsame.endorsements]
    exact h.single
  · unfold givenBy
    rw [hsame.given, hsame.endorsements]
    exact h.given
  · unfold receivedLists receivedBy
    rw [hsame.received, hsame.endorsements]
    exact h.received
  · intro id rep domain hrep
    have hcounts := hsame.counts id
    rw [hrep, Option.map_some, eq_comm, Option.map_eq_some_iff] at hcounts
    obtain ⟨rep', hrep', heq⟩ := hcounts
    rw [← heq, h.counted id rep' domain hrep']
    unfold activeEndorsements
    rw [hsame.endorsements]

theorem same_withReputation (r : ReputationRegistry) (id : IdentityId)
    (f : MultiDimensionalReputation → MultiDimensionalReputation) (hf : ∀ rep, (f rep).counts = rep.counts) :
    Same r ((r.withReputation id f).orKeep r) := by
  unfold withReputation
  split
  · exact Same.refl r
  · rename_i rep hrep
    refine ⟨rfl, rfl, rfl, ?_⟩
    intro j
    show ((r.reputations.insert id (f rep)).find? j).map _ = _
    by_cases hj : j = id
    · subst hj
      rw [SortedMap.find?_insert_self, hrep, Option.map_some, Option.map_some, hf]
    · rw [SortedMap.find?_insert_ne _ _ _ _ hj]

theorem same_applyDecay (r : ReputationRegistry) (block : Nat) : Same r (r.applyDecay block) := by
  refine ⟨rfl, rfl, rfl, ?_⟩
  intro id
  show ((r.reputations.map fun _ rep => rep.applyDecay block).find? id).map _ = _
  rw [SortedMap.find?_map, Option.map_map]
  congr 1
  ext rep : 1
  exact counts_applyDecay rep block

/-! ## A new endorsement -/

theorem givenBy_addEndorsement (r : ReputationRegistry) (e : Endorsement) (endorserRep : Nat) (id : IdentityId) :
    (r.addEndorsement e endorserRep).givenBy id =
      if id = e.endorserIdentity then r.givenBy id ++ [e.endorsementId] else r.givenBy id := by
  unfold addEndorsement givenBy
  by_cases h : id = e.endorserIdentity
  · subst h
    simp
  · simp [SortedMap.find?_insert_ne _ _ _ _ h, h]

theorem receivedLists_addEndorsement (r : ReputationRegistry) (e : Endorsement) (endorserRep : Nat)
    (k : IdentityId × ReputationDomain) :
    (r.addEndorsement e endorserRep).receivedLists k =
      if k = receiver e then r.receivedLists k ++ [e.endorsementId] else r.receivedLists k := by
  obtain ⟨id, domain⟩ := k
  have hiff : (id, domain) = receiver e ↔ id = e.targetIdentity ∧ domain = e.domain := Prod.ext_iff
  simp only [hiff]
  show ((((r.endorsementsReceived.insert e.targetIdentity _).find? id).map fun f => f domain).getD []) = _
  by_cases hid : id = e.targetIdentity
  · subst hid
    rw [SortedMap.find?_insert_self, Option.map_some, Option.getD_some]
    by_cases hd : domain = e.domain
    · subst hd
      rw [Function.update_self, if_pos ⟨rfl, rfl⟩]
      rfl
    · rw [Function.update_of_ne hd, if_neg (fun h => hd h.2)]
      rfl
  · rw [SortedMap.find?_insert_ne _ _ _ _ hid, if_neg (fun h => hid h.1)]
    rfl

theorem activeEndorsements_addEndorsement (r : ReputationRegistry) (e : Endorsement) (endorserRep : Nat)
    (id : IdentityId) (domain : ReputationDomain) (hactive : e.active = true)
    (hfresh : r.endorsements.find? e.endorsementId = none) :
    (r.addEndorsement e endorserRep).activeEndorsements id domain =
      r.activeEndorsements id domain + if e.targetIdentity = id ∧ e.domain = domain then 1 else 0 := by
  have hsum := SortedMap.sumOf_insert
    (fun _ (e : Endorsement) => if e.active = true ∧ e.targetIdentity = id ∧ e.domain = domain then 1 else 0)
    r.endorsements e.endorsementId e
  rw [hfresh, Option.elim_none, Nat.add_zero] at hsum
  simp only [hactive, true_and] at hsum
  exact hsum

/-- An identity has no more active endorsements than it has on its list. -/
theorem Sound.activeEndorsements_le {r : ReputationRegistry} (h : Sound r) (id : IdentityId)
    (domain : ReputationDomain) : r.activeEndorsements id domain ≤ (r.receivedBy id domain).length := by
  have hlen : (r.receivedBy id domain).length =
      (r.endorsements.filter fun _ e => decide (receiver e = (id, domain))).size := h.received.length_eq (id, domain)
  rw [hlen, SortedMap.size_filter]
  apply SortedMap.sumOf_mono
  intro _ e
  by_cases hp : e.active = true ∧ e.targetIdentity = id ∧ e.domain = domain
  · have hreceiver : receiver e = (id, domain) := by
      unfold receiver
      rw [hp.2.1, hp.2.2]
    rw [if_pos hp, if_pos (decide_eq_true hreceiver)]
  · rw [if_neg hp]
    exact Nat.zero_le _

/-- A fresh endorsement where none of the kind is active. -/
theorem Sound.addEndorsement {r : ReputationRegistry} (h : Sound r) (e : Endorsement) (endorserRep : Nat)
    (hactive : e.active = true) (hfresh : r.endorsements.find? e.endorsementId = none)
    (hroom : (r.receivedBy e.targetIdentity e.domain).length < maxEndorsementsPerDomain)
    (hnone : ∀ id d, r.endorsements.find? id = some d → d.active = true →
      d.endorserIdentity = e.endorserIdentity → d.targetIdentity = e.targetIdentity → d.domain ≠ e.domain) :
    Sound (r.addEndorsement e endorserRep) := by
  constructor
  · intro id id' d d' hd hd' ha ha' hgiver htarget hdomain
    replace hd : (r.endorsements.insert e.endorsementId e).find? id = some d := hd
    replace hd' : (r.endorsements.insert e.endorsementId e).find? id' = some d' := hd'
    by_cases hid : id = e.endorsementId
    · subst hid
      rw [SortedMap.find?_insert_self] at hd
      obtain rfl := Option.some.inj hd
      by_contra hne
      rw [SortedMap.find?_insert_ne _ _ _ _ (Ne.symm hne)] at hd'
      exact hnone id' d' hd' ha' hgiver.symm htarget.symm hdomain.symm
    · rw [SortedMap.find?_insert_ne _ _ _ _ hid] at hd
      by_cases hid' : id' = e.endorsementId
      · subst hid'
        rw [SortedMap.find?_insert_self] at hd'
        obtain rfl := Option.some.inj hd'
        exact absurd hdomain (hnone id d hd ha hgiver htarget)
      · rw [SortedMap.find?_insert_ne _ _ _ _ hid'] at hd'
        exact h.single id id' d d' hd hd' ha ha' hgiver htarget hdomain
  · exact h.given.insert_fresh e.endorsementId e hfresh (givenBy_addEndorsement r e endorserRep)
  · exact h.received.insert_fresh e.endorsementId e hfresh (receivedLists_addEndorsement r e endorserRep)
  · intro id rep domain hrep
    rw [activeEndorsements_addEndorsement r e endorserRep id domain hactive hfresh]
    have hle := h.activeEndorsements_le e.targetIdentity e.domain
    unfold ReputationRegistry.addEndorsement at hrep
    dsimp only at hrep
    split at hrep
    · rename_i hnorecord
      have hne : e.targetIdentity ≠ id := by
        rintro rfl
        rw [hnorecord] at hrep
        cases hrep
      rw [if_neg (fun hp => hne hp.1), h.counted id rep domain hrep, Nat.add_zero]
    · rename_i target htarget
      by_cases hid : id = e.targetIdentity
      · subst hid
        rw [SortedMap.find?_insert_self] at hrep
        obtain rfl := Option.some.inj hrep
        have hcount := h.counted e.targetIdentity target
        rw [counts_addEndorsement target e.domain domain endorserRep (by rw [hcount e.domain htarget]; omega),
          ← hcount domain htarget]
        by_cases hd : domain = e.domain
        · rw [if_pos hd, if_pos ⟨rfl, hd.symm⟩]
        · rw [if_neg hd, if_neg (fun hp => hd hp.2.symm), Nat.add_zero]
      · rw [SortedMap.find?_insert_ne _ _ _ _ hid] at hrep
        rw [if_neg (fun hp => hid hp.1.symm), h.counted id rep domain hrep, Nat.add_zero]

/-! ## Revocations and new records -/

theorem activeEndorsements_revoke (r : ReputationRegistry) (id : Hash) (e : Endorsement) (t : IdentityId)
    (domain : ReputationDomain) (he : r.endorsements.find? id = some e) :
    ({ r with endorsements := r.endorsements.insert id e.revoke } : ReputationRegistry).activeEndorsements t domain +
        (if e.active = true ∧ e.targetIdentity = t ∧ e.domain = domain then 1 else 0) =
      r.activeEndorsements t domain := by
  have hsum := SortedMap.sumOf_insert
    (fun _ (e : Endorsement) => if e.active = true ∧ e.targetIdentity = t ∧ e.domain = domain then 1 else 0)
    r.endorsements id e.revoke
  rw [he, Option.elim_some] at hsum
  simpa [activeEndorsements, Endorsement.revoke] using hsum

/-- A revocation is sound if it does not have to be taken off a record. -/
theorem sound_revoke_iff (r : ReputationRegistry) (h : Sound r) (id : Hash) (e : Endorsement)
    (he : r.endorsements.find? id = some e) :
    Sound { r with endorsements := r.endorsements.insert id e.revoke } ↔
      (e.active = true → r.reputations.find? e.targetIdentity = none) := by
  have hcount := fun t domain => activeEndorsements_revoke r id e t domain he
  constructor
  · intro hsound hactive
    rw [Option.eq_none_iff_forall_not_mem]
    intro rep hrep
    have hbefore := h.counted e.targetIdentity rep e.domain hrep
    have hafter := hsound.counted e.targetIdentity rep e.domain hrep
    have := hcount e.targetIdentity e.domain
    rw [if_pos ⟨hactive, rfl, rfl⟩] at this
    omega
  · intro hnone
    have hold : ∀ j d, (r.endorsements.insert id e.revoke).find? j = some d → d.active = true →
        r.endorsements.find? j = some d := by
      intro j d hd ha
      by_cases hj : j = id
      · subst hj
        rw [SortedMap.find?_insert_self] at hd
        obtain rfl := Option.some.inj hd
        cases ha
      · rwa [SortedMap.find?_insert_ne _ _ _ _ hj] at hd
    constructor
    · intro j j' d d' hd hd' ha ha'
      exact h.single j j' d d' (hold j d hd ha) (hold j' d' hd' ha') ha ha'
    · exact h.given.insert_same id e e.revoke he rfl
    · exact h.received.insert_same id e e.revoke he rfl
    · intro t rep domain hrep
      have hnot : ¬ (e.active = true ∧ e.targetIdentity = t ∧ e.domain = domain) := by
        rintro ⟨hactive, rfl, -⟩
        rw [hnone hactive] at hrep
        cases hrep
      have := hcount t domain
      rw [if_neg hnot] at this
      rw [h.counted t rep domain hrep]
      exact this.symm

theorem activeEndorsements_eq_zero_iff (r : ReputationRegistry) (t : IdentityId) (domain : ReputationDomain) :
    r.activeEndorsements t domain = 0 ↔
      ∀ id e, r.endorsements.find? id = some e → ¬ (e.active = true ∧ e.targetIdentity = t ∧ e.domain = domain) := by
  constructor
  · intro hzero id e he hp
    have hle := SortedMap.le_sumOf
      (fun _ (e : Endorsement) => if e.active = true ∧ e.targetIdentity = t ∧ e.domain = domain then 1 else 0)
      r.endorsements id
    rw [he, Option.elim_some, if_pos hp] at hle
    unfold activeEndorsements at hzero
    omega
  · intro hnone
    unfold activeEndorsements
    rw [SortedMap.sumOf_congr _ (fun _ _ => 0) r.endorsements (fun id e he => if_neg (hnone id e he))]
    have := SortedMap.sumOf_le (fun _ (_ : Endorsement) => 0) r.endorsements 0 (fun _ _ => Nat.le_refl 0)
    omega

/-- A new record is sound if there is nothing it would have to count. -/
theorem sound_start_iff (r : ReputationRegistry) (h : Sound r) (id : IdentityId) (block : Nat)
    (hnew : r.reputations.find? id = none) :
    Sound { r with reputations := r.reputations.insert id (MultiDimensionalReputation.new id block) } ↔
      ∀ j e, r.endorsements.find? j = some e → e.active = true → e.targetIdentity ≠ id := by
  constructor
  · rintro hsound j e he hactive rfl
    have hzero : 0 = r.activeEndorsements e.targetIdentity e.domain :=
      hsound.counted e.targetIdentity (.new e.targetIdentity block) e.domain (SortedMap.find?_insert_self _ _ _)
    exact (activeEndorsements_eq_zero_iff r _ _).1 hzero.symm j e he ⟨hactive, rfl, rfl⟩
  · intro hnone
    refine ⟨h.single, h.given, h.received, ?_⟩
    intro t rep domain hrep
    replace hrep : (r.reputations.insert id (MultiDimensionalReputation.new id block)).find? t = some rep := hrep
    by_cases ht : t = id
    · subst ht
      rw [SortedMap.find?_insert_self] at hrep
      obtain rfl := Option.some.inj hrep
      have hzero : r.activeEndorsements t domain = 0 := by
        rw [activeEndorsements_eq_zero_iff]
        rintro j e he ⟨hactive, htarget, -⟩
        exact hnone j e he hactive htarget
      exact hzero.symm
    · rw [SortedMap.find?_insert_ne _ _ _ _ ht] at hrep
      exact h.counted t rep domain hrep

/-! ## Ids -/

section Ids

variable (cr : Crypto) (boost : Balance → Nat) (S : List (IdentityId × IdentityId × ReputationDomain × Nat))

/-- The ids tell the data in `S` apart. -/
def SeparatesEndorsements : Prop :=
  ∀ x ∈ S, ∀ y ∈ S, Endorsement.computeId cr x.1 x.2.1 x.2.2.1 x.2.2.2 =
    Endorsement.computeId cr y.1 y.2.1 y.2.2.1 y.2.2.2 → x = y

/-- The call gives no endorsement outside of `S`. -/
def Endorses (_r : ReputationRegistry) (op : ReputationOp) : Prop := ∀ x, op.endorses = some x → x ∈ S

/-- Every endorsement has the id of its data, which is from `S`. -/
def Placed (r : ReputationRegistry) : Prop :=
  ∀ id e, r.endorsements.find? id = some e →
    (e.endorserIdentity, e.targetIdentity, e.domain, e.endorsedAt) ∈ S ∧
      id = Endorsement.computeId cr e.endorserIdentity e.targetIdentity e.domain e.endorsedAt

variable {cr boost S}

theorem standing_of_find? (r : ReputationRegistry) (h : Placed cr S r) (hsep : SeparatesEndorsements cr S)
    (identity target : IdentityId) (domain : ReputationDomain) (block : Nat)
    (hmem : (identity, target, domain, block) ∈ S) (e : Endorsement)
    (he : r.endorsements.find? (Endorsement.computeId cr identity target domain block) = some e) :
    r.standing identity target domain block = true := by
  obtain ⟨hmem', hid⟩ := h _ e he
  obtain ⟨h₁, hrest⟩ := Prod.mk.inj (hsep _ hmem _ hmem' hid)
  obtain ⟨h₂, hrest⟩ := Prod.mk.inj hrest
  obtain ⟨h₃, h₄⟩ := Prod.mk.inj hrest
  exact (standing_iff ..).2 ⟨_, e, he, h₁.symm, h₂.symm, h₃.symm, .inr h₄.symm⟩

/-- An endorsement that passes the checks is sound if none of the kind stands. -/
theorem sound_give_iff (r : ReputationRegistry) (h : Sound r) (hplaced : Placed cr S r)
    (hsep : SeparatesEndorsements cr S) (endorser : AccountId) (identity target : IdentityId)
    (domain : ReputationDomain) (context : Option String) (block : Nat)
    (hmem : (identity, target, domain, block) ∈ S)
    (hroom : (r.receivedBy target domain).length < maxEndorsementsPerDomain) :
    Sound (r.addEndorsement (r.endorsement cr endorser identity target domain context block)
        (r.getEffectiveScore identity)) ↔
      r.standing identity target domain block = false := by
  constructor
  · intro hsound
    by_contra hstanding
    rw [Bool.not_eq_false, standing_iff] at hstanding
    obtain ⟨id, e, he, hgiver, htarget, hdomain, hor⟩ := hstanding
    by_cases hid : id = Endorsement.computeId cr identity target domain block
    · -- the id is on the list of the giver already
      have htwice := hsound.given.count_owner _ (r.endorsement cr endorser identity target domain context block)
        (SortedMap.find?_insert_self _ _ _)
      rw [givenBy_addEndorsement, if_pos rfl, List.count_append, List.count_singleton_self] at htwice
      have hbefore := h.given.count_owner id e he
      rw [hid, hgiver] at hbefore
      have hsame : (r.givenBy identity).count (Endorsement.computeId cr identity target domain block) + 1 = 1 := htwice
      omega
    · rcases hor with hactive | hblock
      · apply hid
        have hold := (SortedMap.find?_insert_ne r.endorsements (Endorsement.computeId cr identity target domain block) id
          (r.endorsement cr endorser identity target domain context block) hid).trans he
        exact hsound.single id _ e _ hold (SortedMap.find?_insert_self _ _ _) hactive rfl hgiver htarget hdomain
      · apply hid
        rw [(hplaced id e he).2, hgiver, htarget, hdomain, hblock]
  · intro hstanding
    apply h.addEndorsement
    · rfl
    · rw [Option.eq_none_iff_forall_not_mem]
      intro e he
      rw [standing_of_find? r hplaced hsep identity target domain block hmem e he] at hstanding
      cases hstanding
    · exact hroom
    · intro id d hd hactive hgiver htarget hdomain
      have htrue := (standing_iff r identity target domain block).2 ⟨id, d, hd, hgiver, htarget, hdomain, .inl hactive⟩
      rw [hstanding] at htrue
      cases htrue

end Ids

/-! ## Effects -/

/-- What a call can do to the endorsements. -/
inductive EndorsementEffect (cr : Crypto) (r : ReputationRegistry) (op : ReputationOp) (r' : ReputationRegistry) :
    Prop where
  | same (hsame : Same r r') (hfair : Fair r op) (hgenuine : Genuine cr r op)
  | starts (id : IdentityId) (block : Nat) (hop : op = .initializeReputation id block)
      (hnew : r.reputations.find? id = none)
      (hafter : r' = { r with reputations := r.reputations.insert id (MultiDimensionalReputation.new id block) })
  | gives (endorser : AccountId) (identity target : IdentityId) (domain : ReputationDomain) (context : Option String)
      (block : Nat) (registry : IdentityRegistry)
      (hop : op = .giveEndorsement endorser identity target domain context block registry)
      (haccepts : r.accepts endorser identity target domain block registry = true)
      (hafter : r' = r.addEndorsement (r.endorsement cr endorser identity target domain context block)
        (r.getEffectiveScore identity))
  | revokes (id : Hash) (revoker : AccountId) (e : Endorsement) (hop : op = .revokeEndorsement id revoker)
      (he : r.endorsements.find? id = some e) (hrevoker : e.endorser = revoker)
      (hafter : r' = { r with endorsements := r.endorsements.insert id e.revoke })

theorem effect_initializeReputation (cr : Crypto) (r : ReputationRegistry) (id : IdentityId) (block : Nat) :
    EndorsementEffect cr r (.initializeReputation id block) (r.initializeReputation id block) := by
  unfold initializeReputation
  by_cases hc : r.reputations.contains id = true
  · rw [if_pos hc]
    exact .same (Same.refl r) (by simp [Fair, hc]) trivial
  · rw [if_neg hc]
    refine .starts id block rfl ?_ rfl
    simpa [SortedMap.contains] using hc

theorem effect_giveEndorsement (cr : Crypto) (r : ReputationRegistry) (endorser : AccountId)
    (identity target : IdentityId) (domain : ReputationDomain) (context : Option String) (block : Nat)
    (registry : IdentityRegistry) :
    EndorsementEffect cr r (.giveEndorsement endorser identity target domain context block registry)
      (((r.giveEndorsement cr endorser identity target domain context block registry).map Prod.fst).orKeep r) := by
  by_cases hacc : r.accepts endorser identity target domain block registry = true
  · rw [(accepts_iff ..).1 hacc]
    exact .gives endorser identity target domain context block registry rfl hacc rfl
  · -- a call that does not pass the checks is refused
    have hrefused : ∀ r' id, r.giveEndorsement cr endorser identity target domain context block registry ≠ .ok (r', id) := by
      intro r' id hok
      obtain ⟨-, -, -, -, -, rfl, rfl⟩ := (giveEndorsement_ok_iff ..).1 hok
      exact hacc ((accepts_iff cr r endorser identity target domain context block registry).2 hok)
    have hgenuine : Genuine cr r (.giveEndorsement endorser identity target domain context block registry) :=
      fun r' id hok => absurd hok (hrefused r' id)
    have hfair : Fair r (.giveEndorsement endorser identity target domain context block registry) := by
      simp [Fair, hacc]
    apply Except.orKeep_map_of
      (EndorsementEffect cr r (.giveEndorsement endorser identity target domain context block registry))
    · exact .same (Same.refl r) hfair hgenuine
    · intro r' id hok
      exact absurd hok (hrefused r' id)

theorem effect_revokeEndorsement (cr : Crypto) (r : ReputationRegistry) (id : Hash) (revoker : AccountId) :
    EndorsementEffect cr r (.revokeEndorsement id revoker) ((r.revokeEndorsement id revoker).orKeep r) := by
  unfold revokeEndorsement
  split
  · rename_i hnone
    exact .same (Same.refl r) (by simp [Fair, hnone]) trivial
  · rename_i e he
    by_cases hrevoker : e.endorser = revoker
    · rw [if_neg (not_not.2 hrevoker)]
      exact .revokes id revoker e rfl he hrevoker rfl
    · rw [if_pos hrevoker]
      exact .same (Same.refl r) (by simp [Fair, he, hrevoker]) trivial

theorem apply_endorsementEffect (cr : Crypto) (boost : Balance → Nat) (r : ReputationRegistry) (op : ReputationOp) :
    EndorsementEffect cr r op (r.apply cr boost op) := by
  have hkeep : ∀ {ε α : Type} (x : Except ε (ReputationRegistry × α)), Fair r op → Genuine cr r op →
      (∀ r' a, x = .ok (r', a) → Same r r') → EndorsementEffect cr r op ((x.map Prod.fst).orKeep r) := by
    intro ε α x hfair hgenuine hx
    exact Except.orKeep_map_of (EndorsementEffect cr r op) x r (.same (Same.refl r) hfair hgenuine)
      fun r' a h => .same (hx r' a h) hfair hgenuine
  have hkeep' : ∀ {ε : Type} (x : Except ε ReputationRegistry), Fair r op → Genuine cr r op →
      (∀ r', x = .ok r' → Same r r') → EndorsementEffect cr r op (x.orKeep r) := by
    intro ε x hfair hgenuine hx
    exact Except.orKeep_of (EndorsementEffect cr r op) x r (.same (Same.refl r) hfair hgenuine)
      fun r' h => .same (hx r' h) hfair hgenuine
  cases op with
  | initializeReputation id block => exact effect_initializeReputation cr r id block
  | addReputation id domain points block =>
    exact .same (same_withReputation r id _ fun rep => counts_addDomainRep rep domain points block) trivial trivial
  | slashReputation id domain percent =>
    exact .same (same_withReputation r id _ fun rep => counts_slashDomain rep domain percent) trivial trivial
  | applyDecay block => exact .same (same_applyDecay r block) trivial trivial
  | createStake staker id amount domain block =>
    refine hkeep _ trivial trivial ?_
    intro r' stakeId h
    obtain ⟨-, s, -, rfl⟩ := createStake_ok h
    exact ⟨rfl, rfl, rfl, fun _ => rfl⟩
  | withdrawStake id withdrawer block =>
    refine hkeep _ trivial trivial ?_
    intro r' amount h
    obtain ⟨s, -, -, -, rfl, -⟩ := withdrawStake_ok h
    exact ⟨rfl, rfl, rfl, fun _ => rfl⟩
  | slashStake id percent =>
    refine hkeep _ trivial trivial ?_
    intro r' penalty h
    obtain ⟨s, -, -, rfl⟩ := slashStake_ok h
    exact ⟨rfl, rfl, rfl, fun _ => rfl⟩
  | importReputation chain source target score proof block =>
    refine hkeep' _ trivial trivial ?_
    intro r' h
    obtain ⟨imports, rfl⟩ := importReputation_ok h
    exact ⟨rfl, rfl, rfl, fun _ => rfl⟩
  | verifyImport id chain =>
    refine hkeep' _ trivial trivial ?_
    intro r' h
    obtain ⟨imports, rfl⟩ := verifyImport_ok h
    exact ⟨rfl, rfl, rfl, fun _ => rfl⟩
  | giveEndorsement endorser identity target domain context block registry =>
    exact effect_giveEndorsement cr r endorser identity target domain context block registry
  | revokeEndorsement id revoker => exact effect_revokeEndorsement cr r id revoker

/-! ## Runs -/

section Runs

variable (cr : Crypto) (boost : Balance → Nat) (S : List (IdentityId × IdentityId × ReputationDomain × Nat))

theorem placed_apply (r : ReputationRegistry) (op : ReputationOp) (h : Placed cr S r) (hop : Endorses S r op) :
    Placed cr S (r.apply cr boost op) := by
  cases apply_endorsementEffect cr boost r op with
  | same hsame _ _ =>
    unfold Placed
    rw [hsame.endorsements]
    exact h
  | starts id block _ _ hafter =>
    rw [hafter]
    exact h
  | gives endorser identity target domain context block registry hgive _ hafter =>
    subst hgive
    rw [hafter]
    intro id e he
    replace he : (r.endorsements.insert (Endorsement.computeId cr identity target domain block) _).find? id = some e :=
      he
    by_cases hid : id = Endorsement.computeId cr identity target domain block
    · subst hid
      rw [SortedMap.find?_insert_self] at he
      obtain rfl := Option.some.inj he
      exact ⟨hop _ rfl, rfl⟩
    · rw [SortedMap.find?_insert_ne _ _ _ _ hid] at he
      exact h id e he
  | revokes id revoker e _ he _ hafter =>
    rw [hafter]
    intro j d hd
    replace hd : (r.endorsements.insert id e.revoke).find? j = some d := hd
    by_cases hj : j = id
    · subst hj
      rw [SortedMap.find?_insert_self] at hd
      obtain rfl := Option.some.inj hd
      exact h j e he
    · rw [SortedMap.find?_insert_ne _ _ _ _ hj] at hd
      exact h j d hd

theorem genuine_iff (r : ReputationRegistry) (endorser : AccountId) (identity target : IdentityId)
    (domain : ReputationDomain) (context : Option String) (block : Nat) (registry : IdentityRegistry)
    (h : r.accepts endorser identity target domain block registry = true) :
    Genuine cr r (.giveEndorsement endorser identity target domain context block registry) ↔
      registry.getIdentityId endorser = some identity := by
  have hok := (accepts_iff cr r endorser identity target domain context block registry).1 h
  obtain ⟨-, howner, hne, -⟩ := (giveEndorsement_ok_iff ..).1 hok
  constructor
  · intro hgenuine
    exact (hgenuine _ _ hok).1
  · intro hid r' id _
    refine ⟨hid, ?_, hne⟩
    unfold IdentityRegistry.ownerIsActive at howner
    unfold IdentityRegistry.getIdentityId at hid
    rw [hid] at howner
    exact howner

variable (hsep : SeparatesEndorsements cr S)

include hsep

/-- **Step.**  From a sound registry the fair calls are those that are genuine and lead to a
sound registry. -/
theorem fair_iff (r : ReputationRegistry) (op : ReputationOp) (h : Placed cr S r) (hop : Endorses S r op)
    (hsound : Sound r) : Sound (r.apply cr boost op) ∧ Genuine cr r op ↔ Fair r op := by
  cases apply_endorsementEffect cr boost r op with
  | same hsame hfair hgenuine => exact ⟨fun _ => hfair, fun _ => ⟨hsound.same hsame, hgenuine⟩⟩
  | starts id block hinit hnew hafter =>
    subst hinit
    have hcontains : r.reputations.contains id = false := by
      unfold SortedMap.contains
      rw [hnew]
      rfl
    have hgenuine : Genuine cr r (.initializeReputation id block) := trivial
    rw [hafter, sound_start_iff r hsound id block hnew, and_iff_left hgenuine]
    simp only [Fair, hcontains, Bool.not_false, Bool.true_and, List.any_eq_false, SortedMap.mem_values_iff]
    constructor
    · rintro hnone e ⟨j, he⟩
      simpa using hnone j e he
    · intro hnone j e he
      simpa using hnone e ⟨j, he⟩
  | gives endorser identity target domain context block registry hgive haccepts hafter =>
    subst hgive
    have hok := (accepts_iff cr r endorser identity target domain context block registry).1 haccepts
    obtain ⟨-, -, -, -, hroom, -⟩ := (giveEndorsement_ok_iff ..).1 hok
    rw [hafter, sound_give_iff r hsound h hsep endorser identity target domain context block (hop _ rfl) hroom,
      genuine_iff cr r endorser identity target domain context block registry haccepts]
    simp only [Fair, haccepts, Bool.true_and, Bool.or_eq_false_iff, decide_eq_false_iff_not, not_not]
    exact and_comm
  | revokes id revoker e hrevoke he hrevoker hafter =>
    subst hrevoke
    have hgenuine : Genuine cr r (.revokeEndorsement id revoker) := trivial
    rw [hafter, sound_revoke_iff r hsound id e he, and_iff_left hgenuine]
    simp only [Fair, he, Option.any_some, hrevoker, decide_true, Bool.true_and, SortedMap.contains,
      Bool.and_eq_false_iff]
    cases e.active with
    | false => simp
    | true => simp

end Runs

theorem sound_withConfig (chain : ChainId) (config : ReputationConfig) : Sound (withConfig chain config) := by
  constructor
  · intro id id' e e' he
    cases he
  · exact Listed.empty _
  · exact Listed.empty _
  · intro id rep domain hrep
    cases hrep

/-- Without colliding ids: in every run, the states are all sound and every endorsement is
given by the owner of the active identity it names, if and only if all calls are fair. -/
theorem endorsements_sound_iff (cr : Crypto) (boost : Balance → Nat) (chain : ChainId) (config : ReputationConfig)
    (ops : List ReputationOp) (hblock : ∀ x ∈ ops.filterMap ReputationOp.endorses, x.2.2.2 < 2 ^ 64)
    (hsep : ∀ x ∈ ops.filterMap ReputationOp.endorses, ∀ y ∈ ops.filterMap ReputationOp.endorses,
      cr.blake3 (endorsementIdBytes x.1 x.2.1 x.2.2.1 x.2.2.2) =
          cr.blake3 (endorsementIdBytes y.1 y.2.1 y.2.2.1 y.2.2.2) →
        endorsementIdBytes x.1 x.2.1 x.2.2.1 x.2.2.2 = endorsementIdBytes y.1 y.2.1 y.2.2.1 y.2.2.2) :
    ((∀ k, Sound ((ops.take k).foldl (apply cr boost) (withConfig chain config))) ∧
      Run.Meets (apply cr boost) (Genuine cr) (withConfig chain config) ops) ↔
    Run.Meets (apply cr boost) Fair (withConfig chain config) ops := by
  have hsep' : SeparatesEndorsements cr (ops.filterMap ReputationOp.endorses) := by
    intro x hx y hy hid
    obtain ⟨h₁, h₂, h₃, h₄⟩ :=
      endorsementIdBytes_inj _ _ _ _ _ _ _ _ (hblock x hx) (hblock y hy) (hsep x hx y hy hid)
    exact Prod.ext h₁ (Prod.ext h₂ (Prod.ext h₃ h₄))
  have hmeets : Run.Meets (apply cr boost) (Endorses (ops.filterMap ReputationOp.endorses))
      (withConfig chain config) ops := by
    rw [Run.meets_iff_split]
    rintro pre op post rfl x hx
    simp [List.filterMap_append, hx]
  exact Run.good_meets_iff (apply cr boost) _ _ _ _ _ (fun r op h hop => placed_apply cr boost _ r op h hop)
    (fun r op h hop => fair_iff cr boost _ hsep' r op h hop) _ ops nofun (sound_withConfig chain config) hmeets

/-- The identity gets a record, and reputation enough to endorse. -/
def reputableOps (id : IdentityId) : List ReputationOp :=
  [.initializeReputation id 0, .addReputation id .governance 1000 0]

/-- The sample identity has reputation, and its owner endorses the identity 9, which has a
record. -/
def endorsedOps : List ReputationOp :=
  reputableOps IdentityRegistry.sampleIdentity ++
    [.initializeReputation ⟨9⟩ 0,
      .giveEndorsement ⟨1⟩ IdentityRegistry.sampleIdentity ⟨9⟩ .technical none 2592001 IdentityRegistry.sample]

/-- The registry after a run of a chain with the usual settings. -/
def sampleAfter (ops : List ReputationOp) : ReputationRegistry :=
  ops.foldl (apply Crypto.sample fun amount => Nat.sqrt amount.val) (withConfig ⟨0⟩ .default)

theorem endorsements_sound_endorsed :
    (sampleAfter endorsedOps).activeEndorsements ⟨9⟩ .technical = 1 ∧
      ∀ k, Sound (sampleAfter (endorsedOps.take k)) := by
  refine ⟨by decide +kernel, ?_⟩
  exact ((endorsements_sound_iff Crypto.sample (fun amount => Nat.sqrt amount.val) ⟨0⟩ .default endorsedOps
    (by decide +kernel) (by decide +kernel)).2 (by decide +kernel)).1

/-- The owner of the sample identity endorses in the name of the identity 8. -/
def forgedOps : List ReputationOp :=
  reputableOps ⟨8⟩ ++ [.giveEndorsement ⟨1⟩ ⟨8⟩ ⟨9⟩ .technical none 2592001 IdentityRegistry.sample]

/-- The account 1 owns another identity than the one it endorses in the name of; a second
endorsement is active beside the first; and a revoked endorsement is still counted. -/
theorem endorsements_forged_and_stacked :
    IdentityRegistry.sample.getIdentityId ⟨1⟩ = some IdentityRegistry.sampleIdentity ∧
    (sampleAfter forgedOps).endorsements.values.map (fun e => (e.endorser, e.endorserIdentity, e.active)) =
      [(⟨1⟩, ⟨8⟩, true)] ∧
    (sampleAfter (endorsedOps ++ [.giveEndorsement ⟨1⟩ IdentityRegistry.sampleIdentity ⟨9⟩ .technical none 2592002
      IdentityRegistry.sample])).activeEndorsements ⟨9⟩ .technical = 2 ∧
    ((sampleAfter (endorsedOps ++ [.revokeEndorsement
        (Endorsement.computeId Crypto.sample IdentityRegistry.sampleIdentity ⟨9⟩ .technical 2592001)
        ⟨1⟩])).reputations.find? ⟨9⟩).map (fun rep => rep.counts .technical) = some 1 ∧
    (sampleAfter (endorsedOps ++ [.revokeEndorsement
      (Endorsement.computeId Crypto.sample IdentityRegistry.sampleIdentity ⟨9⟩ .technical 2592001)
      ⟨1⟩])).activeEndorsements ⟨9⟩ .technical = 0 := by
  decide +kernel

end ReputationRegistry

end Kratos
