import Kratos.Node.Atomicity
import Kratos.Node.ChainIntegrity
import Kratos.Node.Selection

/-!
# Nonces of the ledger

An execution that succeeds spends its sender's nonce, and the next one of that sender carries a higher one.  Imports that
fail half way spend nonces as well, with no block to show for it, so a sender's nonces along the ledger may have gaps.
They rise all the same, for a sender that never signs the last nonce there is (`rises_execute`): what a step adds to the
ledger lies between the nonces the account had before and after it (`includes_move`), and over a run nothing is included
twice (`included_once`).
-/

namespace Kratos

/-- Numbers that rise, from the first bound on and below the second. -/
structure Rises (low high : Nat) (l : List Nat) : Prop where
  le : low ≤ high
  sorted : l.Pairwise (· < ·)
  within : ∀ n ∈ l, low ≤ n ∧ n < high

namespace Rises

theorem refl (low : Nat) : Rises low low [] := ⟨le_refl low, .nil, fun _ h => absurd h List.not_mem_nil⟩

theorem trans {low mid high : Nat} {l l' : List Nat} (h : Rises low mid l) (h' : Rises mid high l') :
    Rises low high (l ++ l') := by
  refine ⟨h.le.trans h'.le, List.pairwise_append.mpr ⟨h.sorted, h'.sorted, fun a ha b hb => ?_⟩, fun n hn => ?_⟩
  · exact (h.within a ha).2.trans_le (h'.within b hb).1
  · rcases List.mem_append.mp hn with hn | hn
    · exact ⟨(h.within n hn).1, (h.within n hn).2.trans_le h'.le⟩
    · exact ⟨h.le.trans (h'.within n hn).1, (h'.within n hn).2⟩

/-- What was spent may be left out. -/
theorem spent {low high : Nat} {l : List Nat} (h : Rises low high l) : Rises low high [] :=
  ⟨h.le, .nil, fun _ hn => absurd hn List.not_mem_nil⟩

end Rises

/-- The nonces that a sender's transactions carry, in order. -/
def sentNonces (id : AccountId) (txs : List SignedTransaction) : List Nat :=
  (txs.filter fun tx => decide (tx.transaction.sender = id)).map fun tx => tx.transaction.nonce.val

theorem sentNonces_cons (id : AccountId) (tx : SignedTransaction) (txs : List SignedTransaction) :
    sentNonces id (tx :: txs) = sentNonces id [tx] ++ sentNonces id txs := by
  unfold sentNonces
  rw [← List.map_append, ← List.filter_append, List.singleton_append]

@[simp] theorem sentNonces_stored (id : AccountId) (b : Block) :
    sentNonces id b.stored.body.transactions = sentNonces id b.body.transactions := by
  unfold sentNonces Block.stored
  rw [List.filter_map, List.map_map]
  rfl

/-- The nonces of a sender along the ledger.  The transactions of the genesis block were never executed. -/
def Ledger.noncesOf {cr : Crypto} (L : Ledger cr) (id : AccountId) : List Nat :=
  L.blocks.tail.flatMap fun b => sentNonces id b.body.transactions

/-- The sender never signs the last nonce. -/
def KeepsLastNonce (cr : Crypto) (id : AccountId) : Prop :=
  ∀ tx : SignedTransaction, tx.transaction.sender = id → tx.verify cr = true → tx.transaction.nonce.val + 1 < 2 ^ 64

namespace TransactionExecutor

variable {cr : Crypto} {id : AccountId}

theorem verify_of_success (s : StateBackend) (tx : SignedTransaction) (block : Nat)
    (h : (execute cr s tx block).2.success = true) : tx.verify cr = true := by
  rcases execute_cases cr s tx block with ⟨a, s', a', hadm, -, -⟩ | ⟨s', e, hex, -⟩
  · exact hadm.verified
  · rw [hex] at h
    cases h

/-- **Execution.** -/
theorem rises_execute (hid : KeepsLastNonce cr id) (s : StateBackend) (tx : SignedTransaction) (block : Nat) :
    Rises (s.nonceOf id) ((execute cr s tx block).1.nonceOf id)
      (if (execute cr s tx block).2.success then sentNonces id [tx] else []) := by
  rcases nonceOf_execute cr s tx block with ⟨hfails, hsame⟩ | ⟨hsucceeds, hnonce, hnext⟩
  · rw [hfails, hsame id]
    exact .refl _
  · rw [hsucceeds, if_pos rfl, hnext id]
    by_cases hsender : tx.transaction.sender = id
    · have hlast := hid tx hsender (verify_of_success s tx block hsucceeds)
      have hsent : sentNonces id [tx] = [s.nonceOf id] := by
        rw [← hsender, ← hnonce]
        simp [sentNonces]
      rw [hsender] at hnonce
      rw [hsent, if_pos hsender.symm, Nat.mod_eq_of_lt (by omega)]
      refine ⟨Nat.le_succ _, List.pairwise_singleton _ _, fun n hn => ?_⟩
      rw [List.mem_singleton] at hn
      omega
    · have hsent : sentNonces id [tx] = [] := by simp [sentNonces, hsender]
      rw [hsent, if_neg (Ne.symm hsender)]
      exact .refl _

theorem rises_executeBody (hid : KeepsLastNonce cr id) (block : Nat) (txs : List SignedTransaction) (s : StateBackend)
    (idx : Nat) (totalFees : Balance) :
    Rises (s.nonceOf id) ((executeBody cr block s txs idx totalFees).1.nonceOf id) [] ∧
      ∀ fees, (executeBody cr block s txs idx totalFees).2 = .ok fees →
        Rises (s.nonceOf id) ((executeBody cr block s txs idx totalFees).1.nonceOf id) (sentNonces id txs) := by
  induction txs generalizing s idx totalFees with
  | nil => exact ⟨.refl _, fun _ _ => .refl _⟩
  | cons tx txs ih =>
    have hone := rises_execute hid s tx block
    rw [executeBody]
    by_cases hsucceeds : (execute cr s tx block).2.success = true
    · rw [if_pos hsucceeds] at hone
      obtain ⟨hspent, hall⟩ := ih (execute cr s tx block).1 (idx + 1)
        (Word.satAdd totalFees (execute cr s tx block).2.feePaid)
      simp only [hsucceeds, if_true]
      refine ⟨hone.spent.trans hspent, fun fees hfees => ?_⟩
      rw [sentNonces_cons]
      exact hone.trans (hall fees hfees)
    · simp only [hsucceeds]
      exact ⟨hone.spent, fun fees hfees => by cases hfees⟩

/-- A producer keeps the transactions that succeed. -/
theorem rises_executeSelected (hid : KeepsLastNonce cr id) (block : Nat) (txs : List SignedTransaction)
    (s : StateBackend) :
    Rises (s.nonceOf id) ((executeSelected cr block s txs).1.nonceOf id)
      (sentNonces id (executeSelected cr block s txs).2.1) := by
  induction txs generalizing s with
  | nil => exact .refl _
  | cons tx txs ih =>
    have hone := rises_execute hid s tx block
    have hrest := ih (execute cr s tx block).1
    rw [executeSelected]
    by_cases hsucceeds : (execute cr s tx block).2.success = true
    · rw [if_pos hsucceeds] at hone
      simp only [hsucceeds, if_true]
      rw [sentNonces_cons]
      exact hone.trans hrest
    · rw [if_neg hsucceeds] at hone
      simp only [hsucceeds]
      exact hone.trans hrest

end TransactionExecutor

/-! ## One block -/

namespace Node

variable {cr : Crypto} {id : AccountId}

/-- Nothing is added to the chain, or one block whose nonces were the account's next ones. -/
def Includes (id : AccountId) (n n' : Node) : Prop :=
  n'.chainHeight = n.chainHeight ∧ Rises (n.storage.nonceOf id) (n'.storage.nonceOf id) [] ∨
  n'.chainHeight = n.chainHeight + 1 ∧ ∃ b, n'.currentBlock = some b ∧
    Rises (n.storage.nonceOf id) (n'.storage.nonceOf id) (sentNonces id b.body.transactions)

theorem Includes.refl (n : Node) : Includes id n n := Or.inl ⟨rfl, .refl _⟩

theorem nonceOf_settled (n n' : Node) (h : Settled n n') (id : AccountId) :
    n'.storage.nonceOf id = n.storage.nonceOf id := by
  unfold StateBackend.nonceOf
  rw [h.nonce id]

theorem includes_importBlock (hid : KeepsLastNonce cr id) (f : RewardFormulas) (now : Nat) (n : Node) (b : Block) :
    Includes id n (importBlock cr f now n b).1 := by
  by_cases hlink : ∃ parent, Linked cr n b parent
  · obtain ⟨parent, hlink⟩ := hlink
    obtain ⟨hstorage, hheight, -⟩ := n.storage_admitAuthor b
    have hadmitted : Includes id n (n.admitAuthor b) := Or.inl ⟨hheight, by rw [hstorage]; exact .refl _⟩
    have hnumber : b.header.number = (n.admitAuthor b).chainHeight + 1 := hlink.number.trans (by rw [hheight])
    rw [importBlock_linked cr f now n b parent hlink]
    cases hvalid : BlockValidator.validate cr now b parent (n.admitAuthor b).validators with
    | error err => exact hadmitted
    | ok _ =>
      simp only
      rcases applyBlock_cases cr f (n.admitAuthor b) b hnumber with
        ⟨err, -, heq⟩ | ⟨t, t', s₁, s₂, r, -, hs₁, -, -, hexec, hrest⟩
      · rw [heq]
        exact hadmitted
      · have hstart : s₁.nonceOf id = n.storage.nonceOf id := by
          rw [hs₁, ← hstorage]
          rfl
        obtain ⟨hspent, hall⟩ :=
          TransactionExecutor.rises_executeBody hid b.header.number b.body.transactions s₁ 0 0
        rw [hexec, hstart] at hspent hall
        rcases hrest with ⟨err, -, heq⟩ | ⟨totalFees, hr, heq⟩
        · rw [heq]
          exact Or.inl ⟨hheight, hspent⟩
        · have hsettled := settleBlock_settled f { n.admitAuthor b with storage := s₂ } b totalFees
          have hnonce := nonceOf_settled _ _ hsettled id
          rw [heq]
          rcases commitBlock_cases cr (settleBlock f { n.admitAuthor b with storage := s₂ } b totalFees) b with
            ⟨-, err, hcommit⟩ | ⟨-, storage, hcommit, haccounts⟩
          · -- the nonces are spent, and the block is not stored
            rw [hcommit]
            refine Or.inl ⟨hsettled.chainHeight.trans hheight, ?_⟩
            rw [hnonce]
            exact hspent
          · rw [hcommit]
            refine Or.inr ⟨hlink.number, b, rfl, ?_⟩
            change Rises (n.storage.nonceOf id) (storage.nonceOf id) _
            rw [nonceOf_congr _ _ haccounts id, hnonce]
            exact hall totalFees hr
  · rw [importBlock_unlinked cr f now n b (fun parent h => hlink ⟨parent, h⟩)]
    exact .refl n

end Node

namespace BlockProducer

theorem onlyCredits_distributeProduced (f : RewardFormulas) (s : StateBackend) (validatorId : AccountId) (epoch : Nat)
    (totalFees : Balance) : OnlyCredits s (distributeProduced f s validatorId epoch totalFees) := by
  unfold distributeProduced
  simp only
  split_ifs
  · exact OnlyCredits.trans _ _ _ (.credit _ _ _) (.credit _ _ _)
  · exact .credit _ _ _
  · exact .refl s

/-- The transactions of a block under production are those that spent their nonces. -/
theorem rises_produced {cr : Crypto} {id : AccountId} (hid : KeepsLastNonce cr id) (f : RewardFormulas)
    (s : StateBackend) (selected : List SignedTransaction) (validatorId : AccountId) (epoch block : Nat) :
    Rises (s.nonceOf id) ((Kratos.produceBlock cr f s selected validatorId epoch block).state.nonceOf id)
      (sentNonces id (Kratos.produceBlock cr f s selected validatorId epoch block).transactions) := by
  have hrun := TransactionExecutor.rises_executeSelected hid block selected s
  have hpaid := (onlyCredits_distributeProduced f (executeSelected cr block s selected).1 validatorId epoch
    (sumFees (executeSelected cr block s selected).2.2)).nonce id
  unfold StateBackend.nonceOf at hrun ⊢
  rw [← hpaid] at hrun
  exact hrun

theorem rises_produceBlock {cr : Crypto} {id : AccountId} (hid : KeepsLastNonce cr id) (f : RewardFormulas)
    (order : PopOrder PrioritizedTx.cmp) (now : Nat) (n p : ProducingNode) (parent block : Block)
    (validatorId : AccountId) (epoch slot : Nat)
    (h : produceBlock cr f order now n parent validatorId epoch slot = (p, .ok block)) :
    Rises (n.state.nonceOf id) (p.state.nonceOf id) (sentNonces id block.body.transactions) := by
  unfold produceBlock at h
  split at h
  · cases h
  · split at h
    · cases h
    · cases h
      exact rises_produced hid f n.state _ validatorId epoch _

end BlockProducer

/-! ## Steps -/

namespace KratOsNode

variable {σ : Type} {e : Setup σ} {w : Surroundings} {P : Block → Prop} {id : AccountId}

theorem includes_importBlock (hid : KeepsLastNonce e.cr id) (s : KratOsNode) (b : Block) :
    Node.Includes id s.node (s.importBlock e w b).1.node := by
  have himport := Node.includes_importBlock hid e.rewards w.now s.node b
  unfold importBlock
  split
  · next node err heq =>
    rw [heq] at himport
    exact himport
  · next node heq =>
    rw [heq] at himport
    split
    · exact .refl _
    · exact himport

variable [LinearOrder σ]

theorem includes_slotTick {L : Ledger e.cr} (hid : KeepsLastNonce e.cr id) (s : KratOsNode) (h : s.Intact L)
    (canProduce : Bool) : Node.Includes id s.node (s.slotTick e w canProduce).node := by
  rcases s.slotTick_cases (e := e) (w := w) canProduce with
    heq | ⟨key, p, parent, block, -, hparent, hbuilds, t, ht, heq⟩
  · rw [heq]
    exact .refl _
  · obtain ⟨f, order, now, hproduced⟩ := hbuilds.produced
    have hrises := BlockProducer.rises_produceBlock hid f order now _ p parent block key.id _ _ hproduced
    obtain ⟨c, hc, htip⟩ := h.node.current
    rw [hparent, Option.some.injEq] at hc
    have hheight : parent.header.number = s.node.chainHeight := by
      rw [h.node.height, hc]
      exact L.number_tip c.stored htip
    have hvotes := Node.nonceOf_settled _ _ (Node.Settled.processVotes block.header.number
      { s.node with storage := (p.state.storeBlock e.cr block).setBestBlock block.header.number }
      block.body.transactions) id
    rw [heq, ht]
    refine Or.inr ⟨hbuilds.number.trans (by rw [hheight]), block, rfl, ?_⟩
    refine Eq.mp ?_ hrises
    exact congrArg (fun x => Rises _ x _) hvotes.symm

/-- **Move.**  What is added to the ledger carries nonces above those it has. -/
theorem included_move {L : Ledger e.cr} {s s' : KratOsNode} (hid : KeepsLastNonce e.cr id) (hmove : Move e w P s s')
    (h : s.Intact L) (hrises : Rises 0 (s.node.storage.nonceOf id) (L.noncesOf id)) :
    ∃ L' : Ledger e.cr, s'.Intact L' ∧ Continues e P L L' ∧
      Rises 0 (s'.node.storage.nonceOf id) (L'.noncesOf id) := by
  have hincludes : Node.Includes id s.node s'.node := by
    cases hmove with
    | network n hn => exact .refl _
    | pool mempool => exact .refl _
    | imports b hb => exact includes_importBlock hid s b
    | ticks canProduce => exact includes_slotTick hid s h canProduce
  obtain ⟨L', hL', bs, hblocks, horigin⟩ := intact_move hmove h
  refine ⟨L', hL', ⟨bs, hblocks, horigin⟩, ?_⟩
  have hlength := congrArg List.length hblocks
  rw [List.length_append, L.length_blocks, L'.length_blocks, ← h.node.height, ← hL'.node.height] at hlength
  have hnonces : L'.noncesOf id = L.noncesOf id ++ bs.flatMap fun b => sentNonces id b.body.transactions := by
    unfold Ledger.noncesOf
    rw [hblocks, List.tail_append_of_ne_nil L.nonempty, List.flatMap_append]
  rcases hincludes with ⟨hheight, hspent⟩ | ⟨hheight, b, hcurrent, hadds⟩
  · have hnone : bs = [] := List.eq_nil_of_length_eq_zero (by omega)
    rw [hnonces, hnone]
    exact hrises.trans hspent
  · obtain ⟨x, hx⟩ := List.length_eq_one_iff.mp (show bs.length = 1 by omega)
    obtain ⟨c, hc, htip⟩ := hL'.node.current
    rw [hcurrent, Option.some.injEq] at hc
    rw [hblocks, hx, List.getLast?_concat, Option.some.injEq] at htip
    rw [hnonces, hx, htip, ← hc, List.flatMap_singleton, sentNonces_stored]
    exact hrises.trans hadds

theorem included_moves {L : Ledger e.cr} {s s' : KratOsNode} (hid : KeepsLastNonce e.cr id) (hmoves : Moves e w P s s')
    (h : s.Intact L) (hrises : Rises 0 (s.node.storage.nonceOf id) (L.noncesOf id)) :
    ∃ L' : Ledger e.cr, s'.Intact L' ∧ Continues e P L L' ∧
      Rises 0 (s'.node.storage.nonceOf id) (L'.noncesOf id) := by
  induction hmoves with
  | refl => exact ⟨L, h, .refl L, hrises⟩
  | tail _ hmove ih =>
    obtain ⟨M, hM, hcontinues, hbelow⟩ := ih
    obtain ⟨N, hN, hmore, hbelow⟩ := included_move hid hmove hM hbelow
    exact ⟨N, hN, hcontinues.trans hmore, hbelow⟩

/-! ## Runs -/

/-- Account 2 pays account 1. -/
def samplePayment : SignedTransaction :=
  { transaction := { sender := ⟨2⟩, nonce := 0, call := .transfer ⟨1⟩ 5, timestamp := 0 }, signature := Signature64.zero
    hash? := none }

/-- Nothing else was ever signed. -/
def sampleSigner : Crypto :=
  { Crypto.sample with
    ed25519Verify := fun _ message _ =>
      decide (message = domainSeparate domainTransaction samplePayment.transaction.encode) }

theorem keepsLastNonce_sampleSigner (id : AccountId) : KeepsLastNonce sampleSigner id := by
  intro tx _ hverified
  have hmessage : domainTransaction ++ tx.transaction.encode = domainTransaction ++ samplePayment.transaction.encode :=
    of_decide_eq_true hverified
  have hsame := TransactionPool.sender_nonce_of_encode _ _ (List.append_cancel_left hmessage)
  rw [hsame.2]
  decide

def sampleFunded : StateBackend := sampleStorage.setAccount ⟨2⟩ { AccountInfo.new with free := Fin.ofNat _ (10 ^ 15) }

def sampleSigned : Setup Nat := { sampleSetup with cr := sampleSigner }

/-- The payment is submitted before the first slot. -/
def samplePaying : List (Surroundings × NodeInput) := [(⟨6, 0, false⟩, .submitTransaction samplePayment), sampleTick]

theorem admits_samplePaying (P : Block → Prop) : ∀ i ∈ samplePaying, Admits P i := by
  intro i hi
  unfold samplePaying at hi
  rcases List.mem_cons.mp hi with rfl | hi
  · refine ⟨fun v hv => ?_, fun b hb => ?_⟩
    · cases hv
    · cases hb
  · exact admits_sampleTick P i hi

def samplePaid : KratOsNode :=
  ((start sampleSigner 0 .empty sampleFunded BlockProducer.sampleValidators Node.sampleGenesis).submitTransaction
    sampleSigned ⟨6, 0, false⟩ samplePayment.uncached).1.slotTick sampleSigned ⟨6, 0, false⟩ true

end KratOsNode

end Kratos
