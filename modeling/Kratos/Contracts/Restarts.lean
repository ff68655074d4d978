import Kratos.Contracts.Convictions

/-!
# Restarts

As long as no write fails the database holds the disputes of the memory, and a contract
that is started on it and loads them has the same disputes.  The ids start again at 1,
so a restart that finds a dispute is the last time one could be raised
(`disputes_survive_iff`).
-/

namespace Kratos

namespace ArbitrationContract

/-- What is read from the database is a dispute. -/
def loadDispute (disputeId : Nat) : Method Unit :=
  Fallible.mk fun s =>
    match s.db.stored.find? disputeId with
    | some dispute => (.ok (), { s with disputes := s.disputes.insert disputeId dispute })
    | none => (.error (.disputeNotFound disputeId), s)

/-- The disputes go under the ids they carry. -/
def loadAllDisputes (order : IterOrder (Nat × Dispute)) : Method Nat :=
  Fallible.mk fun s =>
    (.ok s.db.stored.size,
      { s with disputes := (order.iter s.db.stored.entries).foldl (fun m e => m.insert e.2.id e.2) s.disputes })

/-- A new contract on the same database, once it has loaded the disputes. -/
def restart (order : IterOrder (Nat × Dispute)) (vc : ValidatorCreditsManager) (s : ArbitrationContract) :
    ArbitrationContract :=
  ((loadAllDisputes order).exec (new s.db vc)).2

end ArbitrationContract

/-- What happens to the contracts on one database. -/
inductive LifeOp where
  | call (op : ArbitrationOp)
  | loadDispute (disputeId : Nat)
  | loadAllDisputes (order : IterOrder (Nat × Dispute))
  | restart (order : IterOrder (Nat × Dispute)) (vc : ValidatorCreditsManager)

namespace ArbitrationContract

def live (selectValidator : SelectValidator) (s : ArbitrationContract) : LifeOp → ArbitrationContract
  | .call op => s.apply selectValidator op
  | .loadDispute disputeId => ((loadDispute disputeId).exec s).2
  | .loadAllDisputes order => ((loadAllDisputes order).exec s).2
  | .restart order vc => restart order vc s

/-- The contract after a run on a new database whose writes do not fail. -/
def life (selectValidator : SelectValidator) (vc : ValidatorCreditsManager) (ops : List LifeOp) : ArbitrationContract :=
  ops.foldl (live selectValidator) (new .sample vc)

/-! ## Memory and database -/

/-- No write fails, and the disputes are stored under their ids as they are in memory. -/
structure InSync (s : ArbitrationContract) : Prop where
  faultless : ∀ n, s.db.faults n = false
  stored_eq : s.db.stored = s.disputes
  id_eq : ∀ id d, s.disputes.find? id = some d → d.id = id

/-- In sync, with these disputes and this id for the next one. -/
structure Holds (K : Nat → Prop) (n : Nat) (s : ArbitrationContract) : Prop extends s.InSync where
  next_eq : s.nextDisputeId = n
  mem_iff : ∀ id, (s.disputes.find? id).isSome = true ↔ K id

theorem put_ok (db : DisputeDatabase) (d : Dispute) (h : ∀ n, db.faults n = false) :
    (db.put d).1 = .ok () ∧ (db.put d).2.stored = db.stored.insert d.id d ∧ (db.put d).2.faults = db.faults := by
  unfold DisputeDatabase.put
  simp only [h db.writes, Bool.false_eq_true, if_false, and_self]

/-- A dispute that is changed, in memory and in the database. -/
theorem Holds.write {K : Nat → Prop} {n : Nat} {s t : ArbitrationContract} (h : Holds K n s) (id : Nat) (d : Dispute)
    (hid : d.id = id) (hdisputes : t.disputes = s.disputes.insert id d) (hdb : t.db = (s.db.put d).2)
    (hnext : t.nextDisputeId = s.nextDisputeId) (hmem : K id) : Holds K n t := by
  obtain ⟨-, hstored, hfaults⟩ := put_ok s.db d h.faultless
  refine ⟨⟨?_, ?_, ?_⟩, hnext.trans h.next_eq, ?_⟩
  · rw [hdb, hfaults]
    exact h.faultless
  · rw [hdb, hstored, hdisputes, h.stored_eq, hid]
  · intro k e he
    rw [hdisputes, SortedMap.find?_insert] at he
    split at he
    · next hk =>
      cases he
      rw [hk]
      exact hid
    · exact h.id_eq k e he
  · intro k
    rw [hdisputes, SortedMap.find?_insert]
    split
    · next hk => simp [hk, hmem]
    · exact h.mem_iff k

theorem keeps_updateDispute_holds (K : Nat → Prop) (n id : Nat) (f : Dispute → Dispute) (hf : ∀ d, (f d).id = d.id) :
    Fallible.Keeps (Holds K n) (updateDispute id f) := by
  intro s h
  cases hd : s.disputes.find? id with
  | none =>
    rw [updateDispute_none s id f hd]
    exact h
  | some d =>
    have hid : (f d).id = id := (hf d).trans (h.id_eq id d hd)
    refine h.write id (f d) hid (updateDispute_disputes s id f d hd) ?_ ?_ ((h.mem_iff id).mp (by rw [hd]; rfl))
    · unfold updateDispute
      rw [Fallible.exec_bind]
      simp only [getDispute, Fallible.exec_mk, hd, Fallible.exec_bind, Fallible.exec_modifies, persistDispute]
    · unfold updateDispute
      rw [Fallible.exec_bind]
      simp only [getDispute, Fallible.exec_mk, hd, Fallible.exec_bind, Fallible.exec_modifies, persistDispute]

theorem keeps_rewardJuryMembers_holds (K : Nat → Prop) (n : Nat) (members : List AccountId) :
    Fallible.Keeps (Holds K n) (rewardJuryMembers members) := by
  have hrecord : ∀ juror, Fallible.Keeps (Holds K n) (recordArbitration juror) := by
    intro juror s h
    unfold recordArbitration
    rw [Fallible.exec_mk]
    split <;> exact ⟨⟨h.faultless, h.stored_eq, h.id_eq⟩, h.next_eq, h.mem_iff⟩
  induction members with
  | nil => exact .pure _
  | cons juror rest ih => exact .bind _ _ (hrecord juror) fun _ => ih

theorem expireDispute_holds (K : Nat → Prop) (n : Nat) (s : ArbitrationContract) (h : Holds K n s) (id : Nat) :
    Holds K n (s.expireDispute id) := by
  unfold expireDispute
  split
  · next d hd =>
    exact h.write id { d with status := .expired } (h.id_eq id d hd) rfl rfl rfl ((h.mem_iff id).mp (by rw [hd]; rfl))
  · exact h

/-- A dispute more, or the same ones. -/
def Grows (K : Nat → Prop) (n : Nat) (t : ArbitrationContract) : Prop :=
  Holds K n t ∨ n ≠ 2 ^ 64 - 1 ∧ ¬ K n ∧ Holds (fun id => K id ∨ id = n) (n + 1) t

theorem raiseDispute_grows (K : Nat → Prop) (n : Nat) (s : ArbitrationContract) (h : Holds K n s) (c : ChainId)
    (ty : DisputeType) (raisedBy : AccountId) (j : Jurisdiction) (e : Option Evidence) :
    Grows K n ((raiseDispute c ty raisedBy j e).exec s).2 := by
  by_cases hcan : s.CanRaise c j
  · obtain ⟨d, hid, -, -, hexec⟩ := raiseDispute_raised s c ty raisedBy j e hcan
    obtain ⟨-, hmax, hfree⟩ := hcan
    obtain ⟨-, hstored, hfaults⟩ := put_ok s.db d h.faultless
    have hnot : ¬ K n := by
      rw [← h.mem_iff n, ← h.next_eq, hfree]
      exact Bool.false_ne_true
    rw [hexec]
    refine .inr ⟨h.next_eq ▸ hmax, hnot, ⟨?_, ?_, ?_⟩, by rw [← h.next_eq], ?_⟩
    · rw [hfaults]
      exact h.faultless
    · rw [hstored, h.stored_eq, hid]
    · intro k b hb
      rw [SortedMap.find?_insert] at hb
      split at hb
      · next hk =>
        cases hb
        rw [hk]
        exact hid
      · exact h.id_eq k b hb
    · intro k
      show ((s.disputes.insert s.nextDisputeId d).find? k).isSome = true ↔ _
      rw [SortedMap.find?_insert, ← h.mem_iff k, h.next_eq]
      split
      · next hk => simp [hk]
      · next hk => simp [hk]
  · obtain ⟨err, hexec⟩ := raiseDispute_refused s c ty raisedBy j e hcan
    rw [hexec]
    exact .inl h

theorem keeps_grows {α : Type} (K : Nat → Prop) (n : Nat) (m : Method α)
    (h : ∀ K' n', Fallible.Keeps (Holds K' n') m) : Fallible.Keeps (Grows K n) m := by
  rintro s (hs | ⟨hmax, hnot, hs⟩)
  · exact .inl (h K n s hs)
  · exact .inr ⟨hmax, hnot, h _ _ s hs⟩

/-! ## One call -/

section Calls

variable (K : Nat → Prop) (n : Nat)

theorem keeps_tallyVotes_holds (id : Nat) : Fallible.Keeps (Holds K n) (tallyVotes id) := by
  unfold tallyVotes
  refine .bind _ _ ((Fallible.readOnly_reads _).keeps _) fun b => ?_
  refine .bind _ _ ((readOnly_getDispute _).keeps _) fun d => ?_
  refine .bind _ _ ((Fallible.readOnly_ensure _ _).keeps _) fun _ => ?_
  refine .bind _ _ ((Fallible.readOnly_ensure _ _).keeps _) fun _ => ?_
  refine .bind _ _ ((Fallible.readOnly_ensure _ _).keeps _) fun _ => ?_
  refine .bind _ _ (keeps_updateDispute_holds K n id _ fun _ => rfl) fun _ => ?_
  exact .bind _ _ (keeps_rewardJuryMembers_holds K n _) fun _ => .pure _

theorem keeps_enforceVerdict_holds (id : Nat) (e : Enforcement) (caller : AccountId) :
    Fallible.Keeps (Holds K n) (enforceVerdict id e caller) := by
  unfold enforceVerdict
  refine .bind _ _ ((readOnly_isValidator _).keeps _) fun validator => ?_
  refine .bind _ _ ((Fallible.readOnly_ensure _ _).keeps _) fun _ => ?_
  refine .bind _ _ ((readOnly_getDispute _).keeps _) fun d => ?_
  refine .bind _ _ ((Fallible.readOnly_ensure _ _).keeps _) fun _ => ?_
  refine .bind _ _ ((Fallible.readOnly_ensure _ _).keeps _) fun _ => ?_
  exact keeps_updateDispute_holds K n id _ fun _ => rfl

/-- The appeal raises a dispute before it changes the old one. -/
theorem appealDecision_grows (s : ArbitrationContract) (h : Holds K n s) (id : Nat) (by' : AccountId)
    (j : Jurisdiction) : Grows K n ((appealDecision id by' j).exec s).2 := by
  have hs : Grows K n s := .inl h
  unfold appealDecision
  apply (readOnly_getDispute _).bind_of _ _ s hs
  intro d _
  apply (Fallible.readOnly_ensure _ _).bind_of _ _ s hs
  intro _ _
  apply (Fallible.readOnly_ensure _ _).bind_of _ _ s hs
  intro _ _
  refine Fallible.Keeps.bind_of _ _ s (raiseDispute_grows K n s h _ _ _ _ _) fun newId => keeps_grows K n _ ?_
  intro K' n'
  refine .bind _ _ (keeps_updateDispute_holds K' n' newId _ fun _ => rfl) fun _ => ?_
  exact .bind _ _ (keeps_updateDispute_holds K' n' id _ fun _ => rfl) fun _ => .pure _

theorem foldl_expireDispute_holds (ids : List Nat) (s : ArbitrationContract) (h : Holds K n s) :
    Holds K n (ids.foldl expireDispute s) := by
  induction ids generalizing s with
  | nil => exact h
  | cons id ids ih => exact ih _ (expireDispute_holds K n s h id)

/-- What a call does to the disputes there are. -/
theorem apply_grows (selectValidator : SelectValidator) (s : ArbitrationContract) (h : Holds K n s)
    (op : ArbitrationOp) : Grows K n (s.apply selectValidator op) := by
  have hchange : ∀ id f, (∀ d, (f d).id = d.id ∧ (f d).decision = d.decision) →
      Fallible.Keeps (Holds K n) (updateDispute id f) :=
    fun id f hf => keeps_updateDispute_holds K n id f fun d => (hf d).1
  cases op with
  | registerValidator account stake vc => exact .inl ⟨⟨h.faultless, h.stored_eq, h.id_eq⟩, h.next_eq, h.mem_iff⟩
  | setCurrentBlock b => exact .inl ⟨⟨h.faultless, h.stored_eq, h.id_eq⟩, h.next_eq, h.mem_iff⟩
  | raiseDispute c ty by' j e => exact raiseDispute_grows K n s h c ty by' j e
  | submitEvidence id e submitter => exact .inl (keeps_submitEvidence _ hchange id e submitter s h)
  | selectJury order id size => exact .inl (keeps_selectJury _ hchange selectValidator order id size s h)
  | submitJuryVote id juror v j => exact .inl (keeps_submitJuryVote _ hchange id juror v j s h)
  | tallyVotes id => exact .inl (keeps_tallyVotes_holds K n id s h)
  | enforceVerdict id e caller => exact .inl (keeps_enforceVerdict_holds K n id e caller s h)
  | appealDecision id by' j => exact appealDecision_grows K n s h id by' j
  | dismissDispute id reason caller => exact .inl (keeps_dismissDispute _ hchange id reason caller s h)
  | expireStaleDisputes order => exact .inl (foldl_expireDispute_holds K n _ s h)

end Calls

/-! ## Loading -/

/-- Loaded over a map, in any order, the entries are those of the database. -/
theorem find?_foldl_insert (l : List (Nat × Dispute)) (m : SortedMap Nat Dispute)
    (hid : ∀ e ∈ l, e.2.id = e.1) (hm : ∀ e ∈ l, ∀ d, m.find? e.1 = some d → d = e.2)
    (hl : l.Pairwise fun a b => a.1 ≠ b.1) (k : Nat) (d : Dispute) :
    (l.foldl (fun m e => m.insert e.2.id e.2) m).find? k = some d ↔ (k, d) ∈ l ∨ m.find? k = some d := by
  induction l generalizing m with
  | nil => simp
  | cons e l ih =>
    rw [List.forall_mem_cons] at hid hm
    rw [List.pairwise_cons] at hl
    have hfind : ∀ j, (m.insert e.2.id e.2).find? j = if j = e.1 then some e.2 else m.find? j := by
      intro j
      rw [hid.1, SortedMap.find?_insert]
    have hm' : ∀ e' ∈ l, ∀ d, (m.insert e.2.id e.2).find? e'.1 = some d → d = e'.2 := by
      intro e' he' d hd
      rw [hfind, if_neg (hl.1 e' he').symm] at hd
      exact hm.2 e' he' d hd
    rw [List.foldl_cons, ih _ hid.2 hm' hl.2, hfind, List.mem_cons]
    by_cases hk : k = e.1
    · rw [if_pos hk, Option.some_inj]
      constructor
      · rintro (hmem | rfl)
        · exact .inl (.inr hmem)
        · exact .inl (.inl (by rw [hk]))
      · rintro ((rfl | hmem) | hd)
        · exact .inr rfl
        · exact .inl hmem
        · exact .inr (hm.1 d (hk ▸ hd)).symm
    · have hne : (k, d) ≠ e := by
        rintro rfl
        exact hk rfl
      rw [if_neg hk]
      simp [hne]

/-- Loading gives the memory the disputes of the database. -/
theorem loadAllDisputes_disputes (order : IterOrder (Nat × Dispute)) (s : ArbitrationContract)
    (hid : ∀ id d, s.db.stored.find? id = some d → d.id = id)
    (hm : ∀ id d, s.disputes.find? id = some d → s.db.stored.find? id = some d) :
    ((loadAllDisputes order).exec s).2.disputes = s.db.stored := by
  have hmem : ∀ k d, (k, d) ∈ order.iter s.db.stored.entries ↔ s.db.stored.find? k = some d := by
    intro k d
    rw [order.mem_iter, SortedMap.mem_entries_iff]
  have hne : (order.iter s.db.stored.entries).Pairwise fun a b => a.1 ≠ b.1 := by
    rw [← List.pairwise_map (f := Prod.fst) (R := (· ≠ ·))]
    exact ((order.perm s.db.stored.entries).map Prod.fst).nodup_iff.mpr s.db.stored.keys_nodup
  apply SortedMap.ext_find
  intro k
  apply Option.ext
  intro d
  show (List.foldl _ s.disputes (order.iter s.db.stored.entries)).find? k = some d ↔ _
  rw [find?_foldl_insert (order.iter s.db.stored.entries) s.disputes ?_ ?_ hne k d, hmem]
  · constructor
    · rintro (hd | hd)
      · exact hd
      · exact hm k d hd
    · exact .inl
  · rintro ⟨j, e⟩ he
    exact hid j e ((hmem j e).mp he)
  · rintro ⟨j, e⟩ he d hd
    exact Option.some.inj ((hm j d hd).symm.trans ((hmem j e).mp he))

/-- A restart keeps the disputes; the ids start again. -/
theorem restart_disputes (order : IterOrder (Nat × Dispute)) (vc : ValidatorCreditsManager) (s : ArbitrationContract)
    (h : s.InSync) : (restart order vc s).disputes = s.disputes := by
  rw [← h.stored_eq]
  refine loadAllDisputes_disputes order (new s.db vc) ?_ ?_
  · rw [show (new s.db vc).db.stored = s.disputes from h.stored_eq]
    exact h.id_eq
  · intro id d hd
    cases hd

theorem restart_holds (K : Nat → Prop) (n : Nat) (order : IterOrder (Nat × Dispute)) (vc : ValidatorCreditsManager)
    (s : ArbitrationContract) (h : Holds K n s) : Holds K 1 (restart order vc s) := by
  have hsame := restart_disputes order vc s h.toInSync
  refine ⟨⟨h.faultless, h.stored_eq.trans hsame.symm, ?_⟩, rfl, ?_⟩
  · rw [hsame]
    exact h.id_eq
  · rw [hsame]
    exact h.mem_iff

theorem loadDispute_holds (K : Nat → Prop) (n : Nat) (s : ArbitrationContract) (h : Holds K n s) (id : Nat) :
    Holds K n ((loadDispute id).exec s).2 := by
  unfold loadDispute
  rw [Fallible.exec_mk, h.stored_eq]
  split
  · next d hd =>
    have hsame : s.disputes.insert id d = s.disputes := (s.disputes.insert_eq_self_iff id d).mpr hd
    simp only [hsame]
    exact h
  · exact h

theorem loadAllDisputes_holds (K : Nat → Prop) (n : Nat) (s : ArbitrationContract) (h : Holds K n s)
    (order : IterOrder (Nat × Dispute)) : Holds K n ((loadAllDisputes order).exec s).2 := by
  have hsame : ((loadAllDisputes order).exec s).2.disputes = s.disputes := by
    rw [← h.stored_eq]
    refine loadAllDisputes_disputes order s ?_ ?_
    · rw [h.stored_eq]
      exact h.id_eq
    · rw [h.stored_eq]
      exact fun _ _ hd => hd
  refine ⟨⟨h.faultless, h.stored_eq.trans hsame.symm, ?_⟩, h.next_eq, ?_⟩
  · rw [hsame]
    exact h.id_eq
  · rw [hsame]
    exact h.mem_iff

/-! ## Runs -/

/-- Every restart so far has found an empty database. -/
def RestartsEmpty (selectValidator : SelectValidator) (vc : ValidatorCreditsManager) (ops : List LifeOp) : Prop :=
  ∀ pre order vc' post, ops = pre ++ .restart order vc' :: post → (life selectValidator vc pre).disputes = .empty

/-- A dispute that its jurisdiction handles is raised, under an id that no dispute has had and none in
the database has. -/
def RaisesFresh (selectValidator : SelectValidator) (vc : ValidatorCreditsManager) (ops : List LifeOp) : Prop :=
  ∀ pre c ty by' j e post, ops = pre ++ .call (.raiseDispute c ty by' j e) :: post →
    validateJurisdiction j c = true →
    ∃ id, ((raiseDispute c ty by' j e).exec (life selectValidator vc pre)).1 = .ok id ∧
      (life selectValidator vc pre).db.stored.find? id = none ∧
      ∀ k, (life selectValidator vc (pre.take k)).disputes.find? id = none

/-- Where a dispute is raised, no restart has found one, and there are ids left. -/
def RaisesFirst (selectValidator : SelectValidator) (vc : ValidatorCreditsManager) (ops : List LifeOp) : Prop :=
  ∀ pre c ty by' j e post, ops = pre ++ .call (.raiseDispute c ty by' j e) :: post →
    validateJurisdiction j c = true →
    RestartsEmpty selectValidator vc pre ∧ (life selectValidator vc pre).nextDisputeId ≠ 2 ^ 64 - 1

section Runs

variable (selectValidator : SelectValidator) (vc : ValidatorCreditsManager)

theorem life_snoc (ops : List LifeOp) (op : LifeOp) :
    life selectValidator vc (ops ++ [op]) = live selectValidator (life selectValidator vc ops) op :=
  List.foldl_append

theorem restartsEmpty_snoc (ops : List LifeOp) (op : LifeOp) :
    RestartsEmpty selectValidator vc (ops ++ [op]) ↔ RestartsEmpty selectValidator vc ops ∧
      ∀ order vc', op = .restart order vc' → (life selectValidator vc ops).disputes = .empty := by
  constructor
  · intro h
    refine ⟨fun pre order vc' post heq => h pre order vc' (post ++ [op]) (by simp [heq]), ?_⟩
    rintro order vc' rfl
    exact h ops order vc' [] rfl
  · rintro ⟨hbefore, hlast⟩ pre order vc' post heq
    rcases (Run.concat_eq_split_iff ops pre post _ op).mp heq with ⟨rfl, rfl, -⟩ | ⟨rest, -, rfl⟩
    · exact hlast order vc' rfl
    · exact hbefore pre order vc' rest rfl

/-- Where all ids below the next one are in use and there is a dispute, the first id is. -/
theorem Holds.first {K : Nat → Prop} {n : Nat} {s : ArbitrationContract} (h : Holds K n s)
    (hclean : ∀ id, K id ↔ 1 ≤ id ∧ id < n) (hfound : s.disputes ≠ .empty) : K 1 := by
  obtain ⟨id, hid⟩ : ∃ id, (s.disputes.find? id).isSome = true := by
    by_contra hnone
    refine hfound (SortedMap.ext_find _ _ fun k => ?_)
    cases hk : s.disputes.find? k with
    | none => rfl
    | some d => exact absurd ⟨k, by rw [hk]; rfl⟩ hnone
  have hrange := (hclean id).mp ((h.mem_iff id).mp hid)
  exact (hclean 1).mpr ⟨Nat.le_refl 1, by omega⟩

/-- The ids in use: all below the next one, or, after a restart that found a dispute, the next
one itself among them. -/
theorem life_holds (ops : List LifeOp) : ∃ K n, Holds K n (life selectValidator vc ops) ∧
    (RestartsEmpty selectValidator vc ops → ∀ id, K id ↔ 1 ≤ id ∧ id < n) ∧
    (¬ RestartsEmpty selectValidator vc ops → n = 1 ∧ K 1) ∧ 1 ≤ n := by
  induction ops using List.reverseRecOn with
  | nil =>
    refine ⟨fun _ => False, 1, ⟨⟨fun _ => rfl, rfl, ?_⟩, rfl, ?_⟩, ?_, ?_, Nat.le_refl 1⟩
    · intro id d hd
      cases hd
    · intro id
      refine iff_of_false ?_ (fun h => h)
      intro h
      cases h
    · intro _ id
      refine iff_of_false (fun h => h) ?_
      omega
    · intro hnot
      refine absurd ?_ hnot
      intro pre order vc' post heq
      simp at heq
  | append_singleton ops op ih =>
    obtain ⟨K, n, h, hclean, hstale, hpos⟩ := ih
    rw [life_snoc, restartsEmpty_snoc]
    -- a call that is no restart leaves what the restarts have found
    have hsame : (∀ order vc', op ≠ .restart order vc') → ∀ t, Holds K n t →
        ∃ K n, Holds K n t ∧
          (RestartsEmpty selectValidator vc ops ∧ (∀ order vc', op = .restart order vc' →
            (life selectValidator vc ops).disputes = .empty) → ∀ id, K id ↔ 1 ≤ id ∧ id < n) ∧
          (¬ (RestartsEmpty selectValidator vc ops ∧ (∀ order vc', op = .restart order vc' →
            (life selectValidator vc ops).disputes = .empty)) → n = 1 ∧ K 1) ∧ 1 ≤ n := by
      intro hop t ht
      refine ⟨K, n, ht, fun hr => hclean hr.1, fun hnot => hstale fun hr => hnot ⟨hr, ?_⟩, hpos⟩
      exact fun order vc' heq => absurd heq (hop order vc')
    cases op with
    | loadDispute id => exact hsame (by simp) _ (loadDispute_holds K n _ h id)
    | loadAllDisputes order => exact hsame (by simp) _ (loadAllDisputes_holds K n _ h order)
    | call op =>
      rcases apply_grows K n selectValidator _ h op with ht | ⟨-, hnot, ht⟩
      · exact hsame (by simp) _ ht
      · have hr : RestartsEmpty selectValidator vc ops := by
          by_contra hr
          obtain ⟨rfl, hone⟩ := hstale hr
          exact hnot hone
        refine ⟨_, _, ht, fun _ id => ?_, fun hnot => absurd ⟨hr, by simp⟩ hnot, by omega⟩
        rw [hclean hr id]
        omega
    | restart order vc' =>
      refine ⟨K, 1, restart_holds K n order vc' _ h, ?_, ?_, Nat.le_refl 1⟩
      · rintro ⟨-, hempty⟩ id
        rw [← h.mem_iff id, hempty order vc' rfl]
        refine iff_of_false ?_ (by omega)
        intro hid
        cases hid
      · intro hnot
        refine ⟨rfl, ?_⟩
        by_cases hr : RestartsEmpty selectValidator vc ops
        · -- the restart found a dispute, so the first one is among them
          exact h.first (hclean hr) fun hempty => hnot ⟨hr, fun _ _ _ => hempty⟩
        · exact (hstale hr).2

/-- Disputes are never removed. -/
theorem life_find?_of_take (ops : List LifeOp) (k id : Nat)
    (h : (life selectValidator vc ops).disputes.find? id = none) :
    (life selectValidator vc (ops.take k)).disputes.find? id = none := by
  induction ops using List.reverseRecOn generalizing k with
  | nil => simpa using h
  | append_singleton ops op ih =>
    have hbefore : (life selectValidator vc ops).disputes.find? id = none := by
      rw [life_snoc] at h
      obtain ⟨K, n, hholds, -⟩ := life_holds selectValidator vc ops
      rw [← Option.not_isSome_iff_eq_none, hholds.mem_iff]
      rw [← Option.not_isSome_iff_eq_none] at h
      cases op with
      | call op =>
        rcases apply_grows K n selectValidator _ hholds op with ht | ⟨-, -, ht⟩
        · rwa [live, ht.mem_iff] at h
        · rw [live, ht.mem_iff] at h
          exact fun hK => h (.inl hK)
      | loadDispute i => rwa [live, (loadDispute_holds K n _ hholds i).mem_iff] at h
      | loadAllDisputes order => rwa [live, (loadAllDisputes_holds K n _ hholds order).mem_iff] at h
      | restart order vc' => rwa [live, (restart_holds K n order vc' _ hholds).mem_iff] at h
    by_cases hk : k ≤ ops.length
    · rw [List.take_append_of_le_length hk]
      exact ih k hbefore
    · rw [List.take_of_length_le (by simp; omega)]
      exact h

/-- **Restarts.**  At any time of a run without failing writes a restarted contract holds the same
disputes; and every dispute that is raised in the run gets an id that was never used, exactly if
none is raised after a restart that found a dispute or once the ids are used up. -/
theorem disputes_survive_iff (ops : List LifeOp) :
    (∀ order vc', (restart order vc' (life selectValidator vc ops)).disputes =
      (life selectValidator vc ops).disputes) ∧
    (RaisesFresh selectValidator vc ops ↔ RaisesFirst selectValidator vc ops) := by
  refine ⟨fun order vc' => ?_, ?_, ?_⟩
  · obtain ⟨K, n, h, -⟩ := life_holds selectValidator vc ops
    exact restart_disputes order vc' _ h.toInSync
  · intro h pre c ty by' j e post heq hvalid
    obtain ⟨id, hok, -⟩ := h pre c ty by' j e post heq hvalid
    obtain ⟨K, n, hholds, -, hstale, -⟩ := life_holds selectValidator vc pre
    have hcan : (life selectValidator vc pre).CanRaise c j := by
      by_contra hnot
      obtain ⟨err, hexec⟩ := raiseDispute_refused _ c ty by' j e hnot
      rw [hexec] at hok
      cases hok
    obtain ⟨-, hmax, hfree⟩ := hcan
    refine ⟨?_, hmax⟩
    by_contra hr
    obtain ⟨rfl, hone⟩ := hstale hr
    rw [hholds.next_eq] at hfree
    have := (hholds.mem_iff 1).mpr hone
    rw [hfree] at this
    cases this
  · intro h pre c ty by' j e post heq hvalid
    obtain ⟨hr, hmax⟩ := h pre c ty by' j e post heq hvalid
    obtain ⟨K, n, hholds, hclean, -, -⟩ := life_holds selectValidator vc pre
    have hfree : (life selectValidator vc pre).disputes.find? (life selectValidator vc pre).nextDisputeId = none := by
      rw [← Option.not_isSome_iff_eq_none, hholds.mem_iff, hclean hr, hholds.next_eq]
      omega
    obtain ⟨d, -, -, -, hexec⟩ := raiseDispute_raised _ c ty by' j e ⟨hvalid, hmax, hfree⟩
    refine ⟨(life selectValidator vc pre).nextDisputeId, ?_, ?_, ?_⟩
    · rw [hexec, (put_ok _ d hholds.faultless).1]
      rfl
    · rw [hholds.stored_eq]
      exact hfree
    · exact fun k => life_find?_of_take selectValidator vc pre k _ hfree

end Runs

/-- One dispute, a restart and another dispute. -/
def restartedLife : List LifeOp :=
  [.call (.raiseDispute ⟨1⟩ .validatorMisconduct ⟨100⟩ (.localTo ⟨1⟩) none), .restart .stored .new,
    .call (.raiseDispute ⟨1⟩ .fraudulentExit ⟨100⟩ .root none)]

/-- The second dispute is refused because the id of the first is taken. -/
theorem restart_refuses_disputes :
    ((raiseDispute ⟨1⟩ .fraudulentExit ⟨100⟩ .root none).exec
      (life firstCandidate .new (restartedLife.take 2))).1.toOption = none ∧
    ¬ RaisesFresh firstCandidate .new restartedLife := by
  have hrefused : ((raiseDispute ⟨1⟩ .fraudulentExit ⟨100⟩ .root none).exec
      (life firstCandidate .new (restartedLife.take 2))).1.toOption = none := by
    decide +kernel
  refine ⟨hrefused, fun h => ?_⟩
  obtain ⟨id, hok, -⟩ := h (restartedLife.take 2) ⟨1⟩ .fraudulentExit ⟨100⟩ .root none [] rfl rfl
  rw [hok] at hrefused
  cases hrefused

end ArbitrationContract

end Kratos
