import Kratos.Storage.Cache

/-!
# Transfers

`transfer` reads both accounts, checks the sender's balance and writes the sender, then the
recipient.  Whatever calls of the database fail on the way, it ends in one of four ways
(`transfer_cases`).  Money is conserved and a refused transfer changes nothing, with one
exception: an account that transfers to itself is read before it is debited, and what is
written last is the credited copy.  `transfer_sound_iff` says when that happens.
-/

namespace Kratos

namespace CachedBackend

open Fallible

/-- The accounts after a transfer: the sender debited, then the recipient's copy from before,
credited. -/
def transferred (t : StateBackend) (sender recipient : AccountId) (a : AccountInfo) (amount : Balance) :
    StateBackend :=
  (t.setAccount sender { a with free := Word.satSub a.free amount }).setAccount recipient
    { t.accountOrNew recipient with free := Word.satAdd (t.accountOrNew recipient).free amount }

/-- What a transfer can come to: a failed call of the database, no sender, too little money,
or both accounts written. -/
inductive Outcome (t : StateBackend) (sender recipient : AccountId) (amount : Balance) :
    Except StateError Unit × CachedBackend → Prop
  | fault (e : DatabaseError) (s : CachedBackend) : Outcome t sender recipient amount (.error (.databaseError e), s)
  | unknown (s : CachedBackend) (found : t.getAccount sender = none) (stores : s.Stores t) :
      Outcome t sender recipient amount (.error (.accountNotFound sender), s)
  | short (s : CachedBackend) (a : AccountInfo) (found : t.getAccount sender = some a) (free : a.free < amount)
      (stores : s.Stores t) :
      Outcome t sender recipient amount (.error (.insufficientBalance sender a.free amount), s)
  | moved (s : CachedBackend) (a : AccountInfo) (found : t.getAccount sender = some a) (free : amount ≤ a.free)
      (stores : s.Stores (transferred t sender recipient a amount)) : Outcome t sender recipient amount (.ok (), s)

theorem outcome_transferBody (c : Codecs) (s : CachedBackend) (t : StateBackend) (h : s.Stores t)
    (sender recipient : AccountId) (amount : Balance) :
    Outcome t sender recipient amount ((transferBody sender recipient amount).run c s).2 := by
  unfold transferBody
  simp only [Script.run, Op.method]
  obtain ⟨hread, -, hcase⟩ := h.getAccount s t sender
  cases hget : (getAccount sender).exec s with
  | mk r₁ s₁ =>
    rw [hget] at hread hcase
    rcases hcase with ⟨-, -, rfl⟩ | ⟨-, rfl, -, -⟩
    · exact .fault _ _
    · cases ha : t.getAccount sender with
      | none => exact .unknown _ ha hread
      | some a =>
        simp only [Script.run, Op.method]
        obtain ⟨hread', -, hcase'⟩ := hread.getAccount s₁ t recipient
        cases hget' : (getAccount recipient).exec s₁ with
        | mk r₂ s₂ =>
          rw [hget'] at hread' hcase'
          rcases hcase' with ⟨-, -, rfl⟩ | ⟨-, rfl, -, -⟩
          · exact .fault _ _
          · simp only
            by_cases hfree : a.free < amount
            · rw [if_pos hfree]
              exact .short _ a ha hfree hread'
            · rw [if_neg hfree]
              simp only [Script.run, Op.method]
              obtain ⟨-, hset⟩ := hread'.setAccount s₂ t sender { a with free := Word.satSub a.free amount }
              cases hput : (setAccount sender { a with free := Word.satSub a.free amount }).exec s₂ with
              | mk r₃ s₃ =>
                rw [hput] at hset
                rcases hset with ⟨-, rfl⟩ | ⟨-, rfl, -, hwritten⟩
                · exact .fault _ _
                · simp only [Script.run, Op.method]
                  obtain ⟨-, hset'⟩ := hwritten.setAccount s₃ _ recipient
                    { t.accountOrNew recipient with
                      free := Word.satAdd (t.accountOrNew recipient).free amount }
                  cases hput' : (setAccount recipient { t.accountOrNew recipient with
                      free := Word.satAdd (t.accountOrNew recipient).free amount }).exec s₃ with
                  | mk r₄ s₄ =>
                    rw [hput'] at hset'
                    unfold StateBackend.accountOrNew at hput'
                    rw [hput']
                    rcases hset' with ⟨-, rfl⟩ | ⟨-, rfl, -, hdone⟩
                    · exact .fault _ _
                    · exact .moved _ a ha (not_lt.1 hfree) hdone

/-- The cache is emptied after the closure, and the accounts stay. -/
theorem transfer_cases (c : Codecs) (s : CachedBackend) (t : StateBackend) (h : s.Stores t)
    (sender recipient : AccountId) (amount : Balance) :
    Outcome t sender recipient amount ((transfer sender recipient amount).run c s).2 := by
  have hbody := outcome_transferBody c s t h sender recipient amount
  unfold transfer
  simp only [Script.run]
  generalize ((transferBody sender recipient amount).run c s).2 = r at hbody
  cases hbody with
  | fault e s' => exact .fault e _
  | unknown s' hfound hstores => exact .unknown _ hfound (hstores.invalidateCache s' t)
  | short s' a hfound hfree hstores => exact .short _ a hfound hfree (hstores.invalidateCache s' t)
  | moved s' a hfound hfree hstores => exact .moved _ a hfound hfree (hstores.invalidateCache s' _)

/-! ## An account that transfers to itself -/

/-- The calls of the database for a transfer of an account to itself: a read if the account is
not cached, and two writes. -/
def Undisturbed (s : CachedBackend) (id : AccountId) : Prop :=
  (s.Asked id = 1 → s.db.faults s.db.calls = false) ∧
    s.db.faults (s.db.calls + s.Asked id) = false ∧ s.db.faults (s.db.calls + s.Asked id + 1) = false

/-- It succeeds if the balance covers the amount and no call fails. -/
theorem transfer_self_ok_iff (c : Codecs) (s : CachedBackend) (t : StateBackend) (h : s.Stores t)
    (id : AccountId) (amount : Balance) (a : AccountInfo) (ha : t.getAccount id = some a)
    (hfree : amount ≤ a.free) :
    ((transfer id id amount).run c s).2.1 = .ok () ↔ s.Undisturbed id := by
  unfold transfer transferBody Undisturbed
  simp only [Script.run, Op.method]
  obtain ⟨hread, hfaults, hcase⟩ := h.getAccount s t id
  cases hget : (getAccount id).exec s with
  | mk r₁ s₁ =>
    rw [hget] at hread hfaults hcase
    rcases hcase with ⟨hasked, hfault, rfl⟩ | ⟨hasked, rfl, hcalls, hcached⟩
    · simp [Script.run, hasked, hfault]
    · simp only [ha, Script.run, Op.method]
      -- the second read finds the account in the cache
      have hzero : s₁.Asked id = 0 := by simp [Asked, hcached a ha]
      obtain ⟨hread', hfaults', hcase'⟩ := hread.getAccount s₁ t id
      cases hget' : (getAccount id).exec s₁ with
      | mk r₂ s₂ =>
        rw [hget'] at hread' hfaults' hcase'
        rcases hcase' with ⟨hone, -, -⟩ | ⟨-, rfl, hcalls', -⟩
        · rw [hzero] at hone
          cases hone
        · simp only at hfaults hfaults' hcalls hcalls'
          rw [hzero, Nat.add_zero] at hcalls'
          simp only [if_neg (not_lt.2 hfree), Script.run, Op.method]
          obtain ⟨hfaults₃, hset⟩ := hread'.setAccount s₂ t id { a with free := Word.satSub a.free amount }
          have hcall₂ : s₂.db.faults s₂.db.calls = s.db.faults (s.db.calls + s.Asked id) := by
            rw [hfaults', hfaults, hcalls', hcalls]
          cases hput : (setAccount id { a with free := Word.satSub a.free amount }).exec s₂ with
          | mk r₃ s₃ =>
            rw [hput] at hfaults₃ hset
            rw [hcall₂] at hset
            rcases hset with ⟨hfault, rfl⟩ | ⟨hok, rfl, hcalls₃, hwritten⟩
            · simp [Script.run, hfault]
            · simp only [Script.run, Op.method] at hfaults₃ hcalls₃ ⊢
              obtain ⟨-, hset'⟩ := hwritten.setAccount s₃ _ id { a with free := Word.satAdd a.free amount }
              have hcall₃ : s₃.db.faults s₃.db.calls = s.db.faults (s.db.calls + s.Asked id + 1) := by
                rw [hfaults₃, hfaults', hfaults, hcalls₃, hcalls', hcalls]
              rw [hcall₃] at hset'
              rcases hset' with ⟨hfault, herr⟩ | ⟨hok', hres, -, -⟩
              · simp [ha, herr, hfault]
              · simpa [ha, hres, hok, hok'] using hasked

/-! ## Conservation -/

/-- Exactly the amount moved, and no other account changed. -/
structure Moved (t t' : StateBackend) (sender recipient : AccountId) (amount : Balance) : Prop where
  debit : (t'.accountOrNew sender).free.val + amount.val = (t.accountOrNew sender).free.val
  credit : (t'.accountOrNew recipient).free.val = (t.accountOrNew recipient).free.val + amount.val
  others : ∀ id, id ≠ sender → id ≠ recipient → t'.getAccount id = t.getAccount id

/-- A transfer that succeeds moves the amount and leaves the sum of the free balances; one
that is refused leaves the accounts. -/
structure TransferSound (t : StateBackend) (sender recipient : AccountId) (amount : Balance)
    (r : Except StateError Unit × CachedBackend) : Prop where
  conserved : r.1 = .ok () → ∃ t', r.2.Stores t' ∧ t'.sumFree = t.sumFree ∧
    (sender ≠ recipient → Moved t t' sender recipient amount)
  refused : ((∃ id, r.1 = .error (.accountNotFound id)) ∨
    ∃ id available required, r.1 = .error (.insufficientBalance id available required)) → r.2.Stores t

/-- Both writes together create the amount if they are to one account. -/
theorem sumFree_transferred (t : StateBackend) (sender recipient : AccountId) (a : AccountInfo)
    (amount : Balance) (ha : t.getAccount sender = some a) (hfree : amount ≤ a.free)
    (hfits : (t.accountOrNew recipient).free.val + amount.val < 2 ^ 128) :
    (transferred t sender recipient a amount).sumFree =
      t.sumFree + if sender = recipient then amount.val else 0 := by
  have hdebit := t.sumFree_setAccount sender { a with free := Word.satSub a.free amount }
  have hcredit : (transferred t sender recipient a amount).sumFree +
      ((t.setAccount sender { a with free := Word.satSub a.free amount }).accountOrNew recipient).free.val =
        (t.setAccount sender { a with free := Word.satSub a.free amount }).sumFree +
          (Word.satAdd (t.accountOrNew recipient).free amount).val :=
    StateBackend.sumFree_setAccount _ recipient _
  have hfound := t.accountOrNew_of_found sender a ha
  have hle : amount.val ≤ a.free.val := hfree
  rw [StateBackend.accountOrNew_setAccount, Word.val_satAdd_of_lt _ _ hfits] at hcredit
  rw [hfound] at hdebit
  simp only [Word.val_satSub] at hdebit
  by_cases hself : sender = recipient
  · rw [if_pos hself.symm, ← hself, hfound] at hcredit
    simp only [Word.val_satSub] at hcredit
    rw [if_pos hself, ← hself]
    omega
  · rw [if_neg (Ne.symm hself)] at hcredit
    rw [if_neg hself]
    omega

theorem moved_transferred (t : StateBackend) (sender recipient : AccountId) (a : AccountInfo)
    (amount : Balance) (ha : t.getAccount sender = some a) (hfree : amount ≤ a.free)
    (hfits : (t.accountOrNew recipient).free.val + amount.val < 2 ^ 128) (hne : sender ≠ recipient) :
    Moved t (transferred t sender recipient a amount) sender recipient amount := by
  have hle : amount.val ≤ a.free.val := hfree
  unfold transferred
  constructor
  · rw [StateBackend.accountOrNew_setAccount, if_neg hne, StateBackend.accountOrNew_setAccount, if_pos rfl,
      t.accountOrNew_of_found sender a ha]
    simp only [Word.val_satSub]
    omega
  · rw [StateBackend.accountOrNew_setAccount, if_pos rfl]
    exact Word.val_satAdd_of_lt _ _ hfits
  · intro id hsender hrecipient
    rw [StateBackend.getAccount_setAccount_ne _ _ _ _ hrecipient,
      StateBackend.getAccount_setAccount_ne _ _ _ _ hsender]

/-- **Transfers.**  Over any database that stores the accounts of a state, whichever of its
calls fail, a transfer is sound if and only if it is not one of an account to itself, of a
positive amount that the balance covers, with no call failing. -/
theorem transfer_sound_iff (c : Codecs) (s : CachedBackend) (t : StateBackend) (h : s.Stores t)
    (sender recipient : AccountId) (amount : Balance)
    (hfits : (t.accountOrNew recipient).free.val + amount.val < 2 ^ 128) :
    TransferSound t sender recipient amount ((transfer sender recipient amount).run c s).2 ↔
      ¬ (sender = recipient ∧ 0 < amount ∧ amount ≤ (t.accountOrNew sender).free ∧ s.Undisturbed sender) := by
  have hcases := transfer_cases c s t h sender recipient amount
  constructor
  · rintro hsound ⟨rfl, hpos, hfree, hcalls⟩
    cases ha : t.getAccount sender with
    | none =>
      -- the balance of an account that does not exist covers nothing
      have hzero : (t.accountOrNew sender).free = 0 := by
        unfold StateBackend.accountOrNew
        rw [ha]
        rfl
      rw [hzero] at hfree
      exact absurd hpos (not_lt.2 hfree)
    | some a =>
      rw [t.accountOrNew_of_found sender a ha] at hfree
      have hok := (transfer_self_ok_iff c s t h sender amount a ha hfree).2 hcalls
      obtain ⟨t', hstores, hsum, -⟩ := hsound.conserved hok
      generalize ((transfer sender sender amount).run c s).2 = r at hcases hok hstores
      cases hcases with
      | fault e s' => cases hok
      | unknown s' _ _ => cases hok
      | short s' _ _ _ _ => cases hok
      | moved s' a' hfound _ hwritten =>
        obtain rfl : a = a' := Option.some.inj (ha.symm.trans hfound)
        have hmade := sumFree_transferred t sender sender a amount ha hfree hfits
        have hsame := Stores.accounts_eq _ _ _ hwritten hstores
        have hpos' : 0 < amount.val := hpos
        rw [if_pos rfl] at hmade
        unfold StateBackend.sumFree at hmade hsum
        rw [hsame] at hsum
        omega
  · intro hcond
    have hself : ∀ a, sender = recipient → t.getAccount sender = some a → amount ≤ a.free →
        ((transfer sender recipient amount).run c s).2.1 = .ok () → amount.val = 0 := by
      rintro a rfl ha hfree hok
      by_contra hne
      refine hcond ⟨rfl, Nat.pos_of_ne_zero hne, ?_, (transfer_self_ok_iff c s t h sender amount a ha hfree).1 hok⟩
      rw [t.accountOrNew_of_found sender a ha]
      exact hfree
    generalize ((transfer sender recipient amount).run c s).2 = r at hcases hself ⊢
    cases hcases with
    | fault e s' =>
      refine ⟨nofun, ?_⟩
      rintro (⟨id, hid⟩ | ⟨id, available, required, hid⟩) <;> cases hid
    | unknown s' _ hstores => exact ⟨nofun, fun _ => hstores⟩
    | short s' a _ _ hstores => exact ⟨nofun, fun _ => hstores⟩
    | moved s' a ha hfree hwritten =>
      have hmade := sumFree_transferred t sender recipient a amount ha hfree hfits
      refine ⟨fun _ => ⟨_, hwritten, ?_, moved_transferred t sender recipient a amount ha hfree hfits⟩, ?_⟩
      · rw [hmade]
        split
        · next heq => rw [hself a heq ha hfree rfl, Nat.add_zero]
        · rfl
      · rintro (⟨id, hid⟩ | ⟨id, available, required, hid⟩) <;> cases hid

/-- Account 1 with a balance of 100, in the database and in the map. -/
def sampleBackend : CachedBackend :=
  ((setAccount ⟨1⟩ { AccountInfo.new with free := 100 }).exec (new Database.sample)).2

def sampleAccounts : StateBackend := StateBackend.new.setAccount ⟨1⟩ { AccountInfo.new with free := 100 }

theorem sampleBackend_stores : sampleBackend.Stores sampleAccounts := by
  have hnew : (new Database.sample).Stores StateBackend.new := ⟨coherent_of_empty _ rfl, fun _ => rfl⟩
  obtain ⟨-, ⟨hfault, -⟩ | ⟨-, -, -, hstores⟩⟩ :=
    hnew.setAccount _ _ ⟨1⟩ { AccountInfo.new with free := 100 }
  · cases hfault
  · exact hstores

/-- A transfer of 10 to another account. -/
theorem transfer_sound_other :
    sampleBackend.Stores sampleAccounts ∧
      TransferSound sampleAccounts ⟨1⟩ ⟨2⟩ 10 ((transfer ⟨1⟩ ⟨2⟩ 10).run Codecs.sample sampleBackend).2 :=
  ⟨sampleBackend_stores,
    (transfer_sound_iff Codecs.sample sampleBackend sampleAccounts sampleBackend_stores ⟨1⟩ ⟨2⟩ 10
      (by decide)).2 fun h => absurd h.1 (by decide)⟩

/-- A transfer of 10 to the sender makes 110 out of 100. -/
theorem transfer_to_itself_creates :
    sampleBackend.Stores sampleAccounts ∧ (sampleAccounts.accountOrNew ⟨1⟩).free.val + 10 < 2 ^ 128 ∧
      ¬ TransferSound sampleAccounts ⟨1⟩ ⟨1⟩ 10 ((transfer ⟨1⟩ ⟨1⟩ 10).run Codecs.sample sampleBackend).2 := by
  refine ⟨sampleBackend_stores, by decide, fun hsound => ?_⟩
  have hok : ((transfer ⟨1⟩ ⟨1⟩ 10).run Codecs.sample sampleBackend).2.1 = .ok () := by decide
  obtain ⟨t', hstores, hsum, -⟩ := hsound.conserved hok
  have hcases := transfer_cases Codecs.sample sampleBackend sampleAccounts sampleBackend_stores ⟨1⟩ ⟨1⟩ 10
  generalize ((transfer ⟨1⟩ ⟨1⟩ 10).run Codecs.sample sampleBackend).2 = r at hcases hok hstores
  cases hcases with
  | fault e s' => cases hok
  | unknown s' _ _ => cases hok
  | short s' _ _ _ _ => cases hok
  | moved s' a hfound _ hwritten =>
    obtain rfl : { AccountInfo.new with free := 100 } = a := Option.some.inj hfound
    have hsame := Stores.accounts_eq _ _ _ hwritten hstores
    unfold StateBackend.sumFree at hsum
    rw [hsame] at hsum
    exact absurd hsum (by decide)

end CachedBackend

end Kratos
