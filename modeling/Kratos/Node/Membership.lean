import Kratos.Node.Import

/-!
# Who can become a validator

Two parts of an import write to the validator set: the admission of the author, which is for
linked blocks up to `syncThreshold` only, and the votes on early validators, which are
processed once the body was executed.  One step therefore leaves the entry of an account
alone, or enters it in one of these two ways (`importBlock_entry`), and so does any sequence
of blocks.

After the first hundred blocks authorship gives nothing, and a refused block changes the set
only if it got as far as its state root.
-/

namespace Kratos

namespace ValidatorSet

/-- The candidacy of an account has its quorum and was approved at this block. -/
def Approved (v : ValidatorSet) (block : Nat) (id : AccountId) : Prop :=
  ∃ c, v.getCandidate id = some c ∧ c.status = .approved ∧ c.approvedAt = some block ∧
    c.hasQuorum = true ∧ c.isExpired block = false

/-! ## What each operation does to entries and candidacies -/

theorem addValidator_writes (v w : ValidatorSet) (info : ValidatorInfo) (h : v.addValidator info = .ok w) :
    w.validators = v.validators.insert info.id info ∧ w.earlyCandidates = v.earlyCandidates := by
  unfold addValidator at h
  split at h
  · cases h
  · split at h <;> cases h
    exact ⟨rfl, rfl⟩

/-- An approval enters the candidate and nobody else. -/
theorem approveEarlyValidator_ok (v w : ValidatorSet) (candidate : AccountId) (block : Nat)
    (h : v.approveEarlyValidator candidate block = .ok w) :
    ∃ c, v.getCandidate candidate = some c ∧ c.hasQuorum = true ∧ c.status = .pending ∧
      w.validators = v.validators.insert candidate (.newBootstrap candidate block) ∧
      w.earlyCandidates =
        v.earlyCandidates.insert candidate { c with status := .approved, approvedAt := some block } := by
  unfold approveEarlyValidator at h
  split at h
  · cases h
  · next c hc =>
    split at h
    · cases h
    · next hquorum =>
      split at h
      · cases h
      · next hpending =>
        split at h
        · cases h
        · next added hadd =>
          obtain ⟨hvalidators, hcandidates⟩ := addValidator_writes v added _ hadd
          cases h
          refine ⟨c, hc, by simpa using hquorum, not_not.1 hpending, hvalidators, ?_⟩
          rw [hcandidates]

/-- A proposal opens a candidacy where there was none. -/
theorem proposeEarlyValidator_ok (v w : ValidatorSet) (candidate proposer : AccountId) (block : Nat)
    (h : v.proposeEarlyValidator candidate proposer block = .ok w) :
    v.getCandidate candidate = none ∧ w.validators = v.validators ∧
      w.earlyCandidates = v.earlyCandidates.insert candidate
        (.new candidate proposer v.votesRequiredForNewValidator block) := by
  refine ⟨?_, validators_proposeEarlyValidator v w candidate proposer block h, ?_⟩
  · unfold proposeEarlyValidator at h
    repeat' split at h
    all_goals cases h
    next hnone => simpa [getCandidate, SortedMap.contains] using hnone
  · unfold proposeEarlyValidator at h
    repeat' split at h
    all_goals cases h
    rfl

/-- A vote leaves the candidacies alone, or rewrites one that is pending or has expired. -/
theorem voteEarlyValidator_cases (v : ValidatorSet) (candidate voter : AccountId) (block : Nat) :
    (v.voteEarlyValidator candidate voter block).1 = v ∧
        (∀ q, (v.voteEarlyValidator candidate voter block).2 ≠ .ok q) ∨
    ∃ c c', v.getCandidate candidate = some c ∧
      (v.voteEarlyValidator candidate voter block).1 =
        { v with earlyCandidates := v.earlyCandidates.insert candidate c' } ∧
      (c.isExpired block = true ∧ (∀ q, (v.voteEarlyValidator candidate voter block).2 ≠ .ok q) ∨
        c.status = .pending ∧ c'.isExpired block = false ∧
          (v.voteEarlyValidator candidate voter block).2 = .ok c'.hasQuorum) := by
  unfold voteEarlyValidator
  split
  · exact Or.inl ⟨rfl, nofun⟩
  · split
    · exact Or.inl ⟨rfl, nofun⟩
    · cases hc : v.earlyCandidates.find? candidate with
      | none => exact Or.inl ⟨rfl, nofun⟩
      | some c =>
        simp only
        split
        · next hexpired => exact Or.inr ⟨c, _, hc, rfl, Or.inl ⟨hexpired, nofun⟩⟩
        · next hfresh =>
          split
          · exact Or.inl ⟨rfl, nofun⟩
          · next hpending =>
            split
            · exact Or.inl ⟨rfl, nofun⟩
            · have hfresh' : c.isExpired block = false := by simpa using hfresh
              exact Or.inr ⟨c, _, hc, rfl, Or.inr ⟨not_not.1 hpending, hfresh', rfl⟩⟩

/-! ## Approved candidacies -/

theorem getCandidate_of_insert (v w : ValidatorSet) (candidate id : AccountId) (c : EarlyValidatorCandidate)
    (h : w.earlyCandidates = v.earlyCandidates.insert candidate c) :
    w.getCandidate id = if id = candidate then some c else v.getCandidate id := by
  unfold getCandidate
  rw [h]
  by_cases hid : id = candidate
  · rw [if_pos hid, hid, SortedMap.find?_insert_self]
  · rw [if_neg hid, SortedMap.find?_insert_ne _ _ _ _ hid]

/-- A candidacy that was approved at this block is not written again: what is written was
missing, pending or expired. -/
theorem Approved.of_insert (v w : ValidatorSet) (block : Nat) (candidate id : AccountId)
    (c : EarlyValidatorCandidate) (h : w.earlyCandidates = v.earlyCandidates.insert candidate c)
    (hold : ∀ old, v.getCandidate candidate = some old → old.status = .pending ∨ old.isExpired block = true)
    (happroved : v.Approved block id) : w.Approved block id := by
  obtain ⟨old, hget, hstatus, hat, hquorum, hfresh⟩ := happroved
  refine ⟨old, ?_, hstatus, hat, hquorum, hfresh⟩
  rw [getCandidate_of_insert v w candidate id c h, if_neg ?_, hget]
  rintro rfl
  rcases hold old hget with hpending | hexpired
  · rw [hstatus] at hpending
    cases hpending
  · rw [hfresh] at hexpired
    cases hexpired

/-! ## The votes of a block -/

/-- Votes at a block keep the candidacies approved there, and an entry they change is that of
such a candidate. -/
structure VoteStep (block : Nat) (candidates : AccountId → Prop) (v w : ValidatorSet) : Prop where
  approved : ∀ id, v.Approved block id → w.Approved block id
  entry : ∀ id, w.validators.find? id = v.validators.find? id ∨ (candidates id ∧ w.Approved block id)

namespace VoteStep

theorem refl (block : Nat) (candidates : AccountId → Prop) (v : ValidatorSet) :
    VoteStep block candidates v v :=
  ⟨fun _ h => h, fun _ => Or.inl rfl⟩

theorem trans (block : Nat) (candidates : AccountId → Prop) (u v w : ValidatorSet)
    (huv : VoteStep block candidates u v) (hvw : VoteStep block candidates v w) :
    VoteStep block candidates u w := by
  refine ⟨fun id h => hvw.approved id (huv.approved id h), fun id => ?_⟩
  rcases hvw.entry id with heq | hin
  · rcases huv.entry id with heq' | ⟨hcand, happ⟩
    · exact Or.inl (heq.trans heq')
    · exact Or.inr ⟨hcand, hvw.approved id happ⟩
  · exact Or.inr hin

theorem mono (block : Nat) (P Q : AccountId → Prop) (v w : ValidatorSet) (h : VoteStep block P v w)
    (hPQ : ∀ id, P id → Q id) : VoteStep block Q v w :=
  ⟨h.approved, fun id => (h.entry id).imp_right fun hin => ⟨hPQ id hin.1, hin.2⟩⟩

/-- A candidacy is written that was missing, pending or expired. -/
theorem of_insert (block : Nat) (candidates : AccountId → Prop) (v w : ValidatorSet) (candidate : AccountId)
    (c : EarlyValidatorCandidate) (hv : w.validators = v.validators)
    (hc : w.earlyCandidates = v.earlyCandidates.insert candidate c)
    (hold : ∀ old, v.getCandidate candidate = some old → old.status = .pending ∨ old.isExpired block = true) :
    VoteStep block candidates v w :=
  ⟨fun id => Approved.of_insert v w block candidate id c hc hold, fun id => Or.inl (by rw [hv])⟩

theorem approve (block : Nat) (v w : ValidatorSet) (candidate : AccountId)
    (h : v.approveEarlyValidator candidate block = .ok w)
    (hfresh : ∀ c, v.getCandidate candidate = some c → c.isExpired block = false) :
    VoteStep block (· = candidate) v w := by
  obtain ⟨c, hget, hquorum, hpending, hvalidators, hcandidates⟩ :=
    approveEarlyValidator_ok v w candidate block h
  have happroved : w.Approved block candidate := by
    refine ⟨{ c with status := .approved, approvedAt := some block }, ?_, rfl, rfl, hquorum, hfresh c hget⟩
    rw [getCandidate_of_insert v w candidate candidate _ hcandidates, if_pos rfl]
  have hold : ∀ old, v.getCandidate candidate = some old →
      old.status = .pending ∨ old.isExpired block = true := by
    intro old ho
    rw [hget] at ho
    cases ho
    exact Or.inl hpending
  refine ⟨fun id => Approved.of_insert v w block candidate id _ hcandidates hold, fun id => ?_⟩
  by_cases hid : id = candidate
  · exact Or.inr ⟨hid, hid ▸ happroved⟩
  · exact Or.inl (by rw [hvalidators, SortedMap.find?_insert_ne _ _ _ _ hid])

end VoteStep

/-! ## The author of a block -/

/-- No entry but the author's changes. -/
theorem find?_ensureBootstrapValidator (v w : ValidatorSet) (author id : AccountId) (block : Nat)
    (h : v.ensureBootstrapValidator author block = .ok w) (hne : id ≠ author) :
    w.validators.find? id = v.validators.find? id := by
  unfold ensureBootstrapValidator at h
  split at h
  · split at h
    · cases h
      exact SortedMap.find?_insert_ne _ _ _ _ hne
    · cases h
      rfl
  · simp only at h
    split at h
    · cases h
      exact SortedMap.find?_insert_ne _ _ _ _ hne
    · cases h
      exact SortedMap.find?_insert_ne _ _ _ _ hne
    · cases h

end ValidatorSet

namespace Node

open ValidatorSet

/-- A proposal of the account, or a vote for it. -/
def SpeaksFor (tx : SignedTransaction) (id : AccountId) : Prop :=
  tx.transaction.call = .proposeEarlyValidator id ∨ tx.transaction.call = .voteEarlyValidator id

theorem voteStep_approveCandidate (n : Node) (candidate : AccountId) (block : Nat)
    (hfresh : ∀ c, n.validators.getCandidate candidate = some c → c.isExpired block = false) :
    VoteStep block (· = candidate) n.validators (n.approveCandidate candidate block).validators := by
  unfold approveCandidate
  split
  · exact VoteStep.refl _ _ _
  · next validators h => exact VoteStep.approve block _ validators candidate h hfresh

theorem voteStep_processVote (block : Nat) (n : Node) (tx : SignedTransaction) :
    VoteStep block (SpeaksFor tx) n.validators (processVote block n tx).validators := by
  unfold processVote
  split
  · next candidate hcall =>
    have hmine : ∀ id, id = candidate → SpeaksFor tx id := by
      rintro id rfl
      exact Or.inl hcall
    split
    · exact VoteStep.refl _ _ _
    · next validators h =>
      obtain ⟨hnone, hv, hc⟩ := proposeEarlyValidator_ok _ _ _ _ _ h
      have hstep : VoteStep block (SpeaksFor tx) n.validators validators := by
        apply VoteStep.of_insert block _ _ _ candidate _ hv hc
        intro old hold
        rw [hnone] at hold
        cases hold
      split
      · refine VoteStep.trans _ _ _ _ _ hstep
          (VoteStep.mono _ _ _ _ _ (voteStep_approveCandidate { n with validators } candidate block ?_) hmine)
        -- the candidacy was opened at this block
        intro c hget
        rw [getCandidate_of_insert _ _ _ _ _ hc, if_pos rfl] at hget
        cases hget
        simp [EarlyValidatorCandidate.isExpired, EarlyValidatorCandidate.new]
      · exact hstep
  · next candidate hcall =>
    have hmine : ∀ id, id = candidate → SpeaksFor tx id := by
      rintro id rfl
      exact Or.inr hcall
    rcases voteEarlyValidator_cases n.validators candidate tx.transaction.sender block with
      ⟨hsame, herr⟩ | ⟨c, c', hget, hw, hcase⟩
    · split
      · next h => exact absurd (congrArg Prod.snd h) (herr true)
      · next validators _ _ h =>
        have hv : validators = n.validators := (congrArg Prod.fst h).symm.trans hsame
        rw [hv]
        exact VoteStep.refl _ _ _
    · have hstep : VoteStep block (SpeaksFor tx) n.validators
          (n.validators.voteEarlyValidator candidate tx.transaction.sender block).1 := by
        rw [hw]
        apply VoteStep.of_insert block _ n.validators { n.validators with
          earlyCandidates := n.validators.earlyCandidates.insert candidate c' } candidate c' rfl rfl
        intro old hold
        rw [hget] at hold
        cases hold
        exact hcase.symm.imp (fun h => h.1) (fun h => h.1)
      split
      · next validators h =>
        rw [h] at hstep
        refine VoteStep.trans _ _ _ _ _ hstep
          (VoteStep.mono _ _ _ _ _ (voteStep_approveCandidate { n with validators } candidate block ?_) hmine)
        intro d hd
        rcases hcase with ⟨-, herr⟩ | ⟨-, hfresh, -⟩
        · exact absurd (congrArg Prod.snd h) (herr true)
        · have hvalidators : validators = { n.validators with
              earlyCandidates := n.validators.earlyCandidates.insert candidate c' } :=
            (congrArg Prod.fst h).symm.trans hw
          rw [getCandidate_of_insert n.validators _ candidate candidate c' (by rw [hvalidators]),
            if_pos rfl] at hd
          cases hd
          exact hfresh
      · next validators _ _ h =>
        rw [h] at hstep
        exact hstep
  · exact VoteStep.refl _ _ _

theorem voteStep_processVotes (block : Nat) (n : Node) (txs : List SignedTransaction) :
    VoteStep block (fun id => ∃ tx ∈ txs, SpeaksFor tx id) n.validators
      (txs.foldl (processVote block) n).validators := by
  induction txs generalizing n with
  | nil => exact VoteStep.refl _ _ _
  | cons tx txs ih =>
    have hfirst := VoteStep.mono _ _ (fun id => ∃ t ∈ tx :: txs, SpeaksFor t id) _ _
      (voteStep_processVote block n tx) (fun id h => ⟨tx, List.mem_cons_self, h⟩)
    have hrest := VoteStep.mono _ _ (fun id => ∃ t ∈ tx :: txs, SpeaksFor t id) _ _
      (ih (processVote block n tx)) (fun id ⟨t, ht, h⟩ => ⟨t, List.mem_cons_of_mem _ ht, h⟩)
    exact VoteStep.trans _ _ _ _ _ hfirst hrest

/-! ## Imports -/

/-- The block was accepted, or refused for its state root only. -/
def ReachesRoot (b : Block) (r : Except ImportError Unit) : Prop :=
  r = .ok () ∨ ∃ computed, r = .error (.stateRootMismatch b.header.stateRoot computed)

theorem commitBlock_validators (cr : Crypto) (n : Node) (b : Block) :
    (commitBlock cr n b).1.validators = n.validators ∧ ReachesRoot b (commitBlock cr n b).2 := by
  unfold commitBlock
  simp only
  split
  · exact ⟨rfl, Or.inr ⟨_, rfl⟩⟩
  · exact ⟨rfl, Or.inl rfl⟩

/-- Applying a block changes the validator set by its votes, once the body was executed. -/
theorem voteStep_applyBlock (cr : Crypto) (f : RewardFormulas) (n : Node) (b : Block)
    (hn : b.header.number = n.chainHeight + 1) :
    (applyBlock cr f n b).1.validators = n.validators ∨
      (ReachesRoot b (applyBlock cr f n b).2 ∧
        VoteStep b.header.number (fun id => ∃ tx ∈ b.body.transactions, SpeaksFor tx id) n.validators
          (applyBlock cr f n b).1.validators) := by
  rcases applyBlock_cases cr f n b hn with
    ⟨e, -, heq⟩ | ⟨t, t', s₁, s₂, r, -, -, -, -, -, ⟨e, -, heq⟩ | ⟨totalFees, -, heq⟩⟩
  · rw [heq]
    exact Or.inl rfl
  · rw [heq]
    exact Or.inl rfl
  · right
    rw [heq]
    obtain ⟨hvalidators, hroot⟩ := commitBlock_validators cr (settleBlock f { n with storage := s₂ } b totalFees) b
    rw [hvalidators]
    exact ⟨hroot, voteStep_processVotes b.header.number { n with storage := s₂ } b.body.transactions⟩

/-- How an import enters an account into the validator set, or enters it again. -/
inductive Enters (cr : Crypto) (f : RewardFormulas) (now : Nat) (n : Node) (b : Block) (id : AccountId) : Prop
  | synced (parent : Block) (linked : Linked cr n b parent) (author : id = b.header.author)
      (early : b.header.number ≤ syncThreshold) (inactive : n.validators.isActive id = false)
  | candidacy (tx : SignedTransaction) (carried : tx ∈ b.body.transactions) (speaks : SpeaksFor tx id)
      (approved : (importBlock cr f now n b).1.validators.Approved b.header.number id)
      (executed : ReachesRoot b (importBlock cr f now n b).2)

theorem find?_admitAuthor (n : Node) (b : Block) (id : AccountId) :
    (n.admitAuthor b).validators.validators.find? id = n.validators.validators.find? id ∨
      (id = b.header.author ∧ b.header.number ≤ syncThreshold ∧ n.validators.isActive id = false) := by
  rcases n.admitAuthor_cases b with ⟨-, heq⟩ | ⟨hinactive, hearly, validators, hw, heq⟩
  · rw [heq]
    exact Or.inl rfl
  · rw [heq]
    by_cases hid : id = b.header.author
    · exact Or.inr ⟨hid, hearly, hid ▸ hinactive⟩
    · exact Or.inl (find?_ensureBootstrapValidator _ _ _ _ _ hw hid)

/-- **One import** leaves the entry of an account alone or enters the account. -/
theorem importBlock_entry (cr : Crypto) (f : RewardFormulas) (now : Nat) (n : Node) (b : Block) (id : AccountId) :
    (importBlock cr f now n b).1.validators.validators.find? id = n.validators.validators.find? id ∨
      Enters cr f now n b id := by
  by_cases hlink : ∃ parent, Linked cr n b parent
  · obtain ⟨parent, hlink⟩ := hlink
    have himport := importBlock_linked cr f now n b parent hlink
    have hadmission := n.find?_admitAuthor b id
    cases hv : BlockValidator.validate cr now b parent (n.admitAuthor b).validators with
    | error e =>
      rw [hv] at himport
      rw [himport]
      exact hadmission.imp_right fun ⟨hid, hearly, hinactive⟩ => .synced parent hlink hid hearly hinactive
    | ok u =>
      rw [hv] at himport
      have hnum : b.header.number = (n.admitAuthor b).chainHeight + 1 := by
        rw [(n.storage_admitAuthor b).2.1]
        exact hlink.number
      rcases hadmission with hsame | ⟨hid, hearly, hinactive⟩
      · rcases voteStep_applyBlock cr f (n.admitAuthor b) b hnum with hkept | ⟨hroot, hvotes⟩
        · left
          rw [himport, hkept, hsame]
        · rcases hvotes.entry id with heq | ⟨⟨tx, htx, hspeaks⟩, happroved⟩
          · left
            rw [himport, heq, hsame]
          · right
            exact .candidacy tx htx hspeaks (by rw [himport]; exact happroved) (by rw [himport]; exact hroot)
      · exact Or.inr (.synced parent hlink hid hearly hinactive)
  · left
    rw [importBlock_unlinked cr f now n b fun parent h => hlink ⟨parent, h⟩]

/-- A refused block that did not get to its state root changes nothing, unless its author was
admitted. -/
theorem validators_of_refused (cr : Crypto) (f : RewardFormulas) (now : Nat) (n : Node) (b : Block)
    (hauthor : n.validators.isActive b.header.author = true ∨ syncThreshold < b.header.number)
    (hrefused : ¬ ReachesRoot b (importBlock cr f now n b).2) :
    (importBlock cr f now n b).1.validators = n.validators := by
  by_cases hlink : ∃ parent, Linked cr n b parent
  · obtain ⟨parent, hlink⟩ := hlink
    have hadmission : n.admitAuthor b = n := by
      rcases n.admitAuthor_cases b with ⟨-, heq⟩ | ⟨hinactive, hearly, -⟩
      · exact heq
      · rcases hauthor with hactive | hlate
        · rw [hinactive] at hactive
          cases hactive
        · omega
    have himport := importBlock_linked cr f now n b parent hlink
    rw [hadmission] at himport
    cases hv : BlockValidator.validate cr now b parent n.validators with
    | error e =>
      rw [hv] at himport
      rw [himport]
    | ok u =>
      rw [hv] at himport
      rw [himport] at hrefused ⊢
      rcases voteStep_applyBlock cr f n b hlink.number with hkept | ⟨hroot, -⟩
      · exact hkept
      · exact absurd hroot hrefused
  · rw [importBlock_unlinked cr f now n b fun parent h => hlink ⟨parent, h⟩]

/-! ## Sequences of blocks -/

/-- Some block of the sequence enters the account. -/
def EntersDuring (cr : Crypto) (f : RewardFormulas) (n : Node) (l : List (Nat × Block)) (id : AccountId) : Prop :=
  ∃ pre a post, l = pre ++ a :: post ∧ Enters cr f a.1 (pre.foldl (importStep cr f) n) a.2 id

theorem find?_importSteps (cr : Crypto) (f : RewardFormulas) (n : Node) (l : List (Nat × Block)) (id : AccountId) :
    (l.foldl (importStep cr f) n).validators.validators.find? id = n.validators.validators.find? id ∨
      EntersDuring cr f n l id := by
  induction l generalizing n with
  | nil => exact Or.inl rfl
  | cons a l ih =>
    rcases ih (importStep cr f n a) with hrest | ⟨pre, c, post, rfl, hin⟩
    · rcases importBlock_entry cr f a.1 n a.2 id with hfirst | hin
      · exact Or.inl (hrest.trans hfirst)
      · exact Or.inr ⟨[], a, l, rfl, hin⟩
    · exact Or.inr ⟨a :: pre, c, post, rfl, hin⟩

/-- **Membership.**  After any sequence of blocks an account that can participate could
before, or was entered by one of the blocks: as the author of a linked block among the first
hundred, or through a candidacy that the block's votes approved.  Status, reputation and the
rest of an entry do not change otherwise.  A block that is refused before its state root
leaves the set as it was if it is past the first hundred or its author can participate. -/
theorem membership (cr : Crypto) (f : RewardFormulas) (n : Node) (l : List (Nat × Block)) :
    (∀ id, (l.foldl (importStep cr f) n).validators.isActive id = true →
      n.validators.isActive id = true ∨ EntersDuring cr f n l id) ∧
    (∀ id, (l.foldl (importStep cr f) n).validators.validators.find? id = n.validators.validators.find? id ∨
      EntersDuring cr f n l id) ∧
    (∀ pre a post, l = pre ++ a :: post →
      ((pre.foldl (importStep cr f) n).validators.isActive a.2.header.author = true ∨
        syncThreshold < a.2.header.number) →
      ¬ ReachesRoot a.2 (importBlock cr f a.1 (pre.foldl (importStep cr f) n) a.2).2 →
      ((pre ++ [a]).foldl (importStep cr f) n).validators = (pre.foldl (importStep cr f) n).validators) := by
  have hentries := find?_importSteps cr f n l
  refine ⟨?_, hentries, ?_⟩
  · intro id hactive
    refine (hentries id).imp_left fun hsame => ?_
    unfold isActive at hactive ⊢
    rwa [hsame] at hactive
  · intro pre a post _ hauthor hrefused
    rw [List.foldl_append]
    exact validators_of_refused cr f a.1 _ a.2 hauthor hrefused

/-- A node at genesis that knows no validator, and its first block. -/
def unknownNode : Node :=
  { storage := StateBackend.new.initDriftTracker 0, validators := .new, chainHeight := 0
    currentBlock := some sampleGenesis }

def unknownAuthorBlock : Block :=
  { firstBlock with
    header := { firstBlock.header with
      stateRoot := ((applyBlockRewardsForImport .sample unknownNode.storage ⟨1⟩ 0 0).1.computeStateRoot
        Crypto.sample 1 ⟨0⟩).root } }

/-- The author enters with the first block; the same block once more is refused and changes
nothing. -/
theorem membership_first_block :
    EntersDuring Crypto.sample .sample unknownNode [(6, unknownAuthorBlock), (6, unknownAuthorBlock)] ⟨1⟩ ∧
      ([(6, unknownAuthorBlock), (6, unknownAuthorBlock)].foldl (importStep Crypto.sample .sample)
          unknownNode).validators =
        ([(6, unknownAuthorBlock)].foldl (importStep Crypto.sample .sample) unknownNode).validators := by
  have h := membership Crypto.sample .sample unknownNode [(6, unknownAuthorBlock), (6, unknownAuthorBlock)]
  have hrefused : (importBlock Crypto.sample .sample 6
      ([(6, unknownAuthorBlock)].foldl (importStep Crypto.sample .sample) unknownNode) unknownAuthorBlock).2 =
        .error (.blockNumberMismatch 2 1) := by decide +kernel
  constructor
  · exact (h.1 ⟨1⟩ (by decide +kernel)).resolve_left (by decide +kernel)
  · refine h.2.2 [(6, unknownAuthorBlock)] (6, unknownAuthorBlock) [] rfl (Or.inl (by decide +kernel)) ?_
    rw [hrefused]
    rintro (hok | ⟨computed, hroot⟩)
    · cases hok
    · cases hroot

/-- A block without transactions is accepted, and its author, until then unknown, can
participate. -/
theorem author_becomes_validator :
    (importBlock Crypto.sample .sample 6 unknownNode unknownAuthorBlock).2 = .ok () ∧
      unknownNode.validators.isActive ⟨1⟩ = false ∧
      ([(6, unknownAuthorBlock)].foldl (importStep Crypto.sample .sample) unknownNode).validators.isActive ⟨1⟩ =
        true ∧
      unknownAuthorBlock.body.transactions = [] := by
  decide +kernel

end Node

end Kratos
