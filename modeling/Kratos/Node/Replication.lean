import Kratos.Node.ChainIntegrity

/-!
# Replicas

Nodes that follow one chain get its blocks in different orders, some of them twice, early or late, and mixed with
blocks that do not follow.  What such a node has imported is always the chain up to some height, in order
(`AtReplay`), whatever its clock says; so two of them have the same state when they have the same height
(`replicas_agree`).
-/

namespace Kratos

namespace Node

/-- Import new blocks in their order, all of them. -/
def replay (cr : Crypto) (f : RewardFormulas) (now : Nat) : Node → List Block → Option Node
  | n, [] => some n
  | n, b :: bs =>
    if n.isStored cr b then none
    else
      match importBlock cr f now n b with
      | (m, .ok ()) => replay cr f now m bs
      | (_, .error _) => none

variable {cr : Crypto} {f : RewardFormulas} {now : Nat}

theorem replay_append (n : Node) (l l' : List Block) :
    replay cr f now n (l ++ l') = (replay cr f now n l).bind fun m => replay cr f now m l' := by
  induction l generalizing n with
  | nil => rfl
  | cons b l ih =>
    rw [List.cons_append, replay, replay]
    split
    · rfl
    · split
      · exact ih _
      · rfl

/-- What a replayed block is: linked to the node before it, and accepted. -/
theorem replay_one (n m : Node) (b : Block) (h : replay cr f now n [b] = some m) :
    (∃ parent, Linked cr n b parent) ∧ importBlock cr f now n b = (m, .ok ()) := by
  rw [replay] at h
  split at h
  · cases h
  · next hnew =>
    split at h
    · next himport =>
      cases h
      rcases importBlock_chain cr f now n b with ⟨-, hok⟩ | ⟨-, parent, hlink, -⟩
      · rw [himport] at hok
        exact absurd (hok rfl).2 hnew
      · exact ⟨⟨parent, hlink⟩, himport⟩
    · cases h

theorem height_replay (n m : Node) (l : List Block) (h : replay cr f now n l = some m) :
    m.chainHeight = n.chainHeight + l.length := by
  induction l generalizing n with
  | nil =>
    cases h
    rfl
  | cons b l ih =>
    rw [← List.singleton_append, replay_append] at h
    obtain ⟨u, hu, hrest⟩ := Option.bind_eq_some_iff.mp h
    obtain ⟨⟨parent, hlink⟩, himport⟩ := replay_one n u b hu
    have hheight : u.chainHeight = n.chainHeight + 1 := by
      rcases importBlock_chain cr f now n b with ⟨-, hok⟩ | ⟨-, -, -, -, -, -, -, hheight, -⟩
      · rw [himport] at hok
        have hstored := (hok rfl).2
        rw [hlink.fresh] at hstored
        cases hstored
      · rw [himport] at hheight
        rw [← hlink.number]
        exact hheight
    rw [ih u hrest, hheight, List.length_cons]
    omega

/-- The numbers of replayed blocks follow the height. -/
theorem number_replay (n last : Node) (chain : List Block) (h : replay cr f now n chain = some last) (j : Nat) (b : Block)
    (hb : chain[j]? = some b) : b.header.number = n.chainHeight + j + 1 := by
  have hsplit : chain = chain.take j ++ ([b] ++ chain.drop (j + 1)) := by
    obtain ⟨hlt, rfl⟩ := List.getElem?_eq_some_iff.mp hb
    rw [List.singleton_append, List.getElem_cons_drop, List.take_append_drop]
  rw [hsplit, replay_append] at h
  obtain ⟨m, hm, hrest⟩ := Option.bind_eq_some_iff.mp h
  rw [replay_append] at hrest
  obtain ⟨u, hu, -⟩ := Option.bind_eq_some_iff.mp hrest
  obtain ⟨⟨parent, hlink⟩, -⟩ := replay_one m u b hu
  have hlen : (chain.take j).length = j := by
    rw [List.length_take]
    have := (List.getElem?_eq_some_iff.mp hb).1
    omega
  rw [hlink.number, height_replay n m _ hm, hlen]

/-- The next block of a valid chain is imported. -/
theorem replay_next (n last m : Node) (chain : List Block) (h : replay cr f now n chain = some last) (i : Nat) (b : Block)
    (hb : chain[i]? = some b) (hm : replay cr f now n (chain.take i) = some m) :
    ∃ u parent, replay cr f now n (chain.take (i + 1)) = some u ∧ Linked cr m b parent ∧
      importBlock cr f now m b = (u, .ok ()) := by
  have htake : chain.take (i + 1) = chain.take i ++ [b] := by rw [List.take_add_one, hb]; rfl
  rw [← List.take_append_drop (i + 1) chain, replay_append] at h
  obtain ⟨u, hu, -⟩ := Option.bind_eq_some_iff.mp h
  have hone := hu
  rw [htake, replay_append, hm] at hone
  obtain ⟨⟨parent, hlink⟩, himport⟩ := replay_one m u b hone
  exact ⟨u, parent, hu, hlink, himport⟩

/-- An author that was admitted, or cannot be, is not admitted again. -/
theorem admitAuthor_admitAuthor (n : Node) (b : Block) : (n.admitAuthor b).admitAuthor b = n.admitAuthor b := by
  rcases n.admitAuthor_cases b with ⟨-, heq⟩ | ⟨-, -, validators, hensure, heq⟩
  · rw [heq, heq]
  · obtain ⟨v, hv, hactive⟩ := n.validators.ensureBootstrapValidator_ok b.header.author 0
    rw [hensure] at hv
    cases hv
    rw [heq]
    unfold admitAuthor
    rw [if_neg]
    rintro ⟨hinactive, -⟩
    rw [hactive] at hinactive
    cases hinactive

theorem linked_admitAuthor (n : Node) (b d parent : Block) :
    Linked cr (n.admitAuthor d) b parent ↔ Linked cr n b parent := by
  obtain ⟨hstorage, hheight, hcurrent⟩ := n.storage_admitAuthor d
  have hstored : (n.admitAuthor d).isStored cr b = n.isStored cr b := by
    unfold isStored
    rw [hstorage]
  constructor
  · rintro ⟨h₁, h₂, h₃, h₄⟩
    exact ⟨by rw [← hheight]; exact h₁, by rw [← hstored]; exact h₂, by rw [← hcurrent]; exact h₃, h₄⟩
  · rintro ⟨h₁, h₂, h₃, h₄⟩
    exact ⟨by rw [hheight]; exact h₁, by rw [hstored]; exact h₂, by rw [hcurrent]; exact h₃, h₄⟩

theorem linked_met (n k : Node) (b d parent : Block) (hk : k = n ∨ k = n.admitAuthor d) :
    Linked cr k b parent ↔ Linked cr n b parent := by
  rcases hk with rfl | rfl
  · exact Iff.rfl
  · exact linked_admitAuthor n b d parent

/-- A node that has met the block before imports it as if it had not. -/
theorem importBlock_met (n k : Node) (b parent : Block) (now' : Nat) (hlink : Linked cr n b parent)
    (hk : k = n ∨ k = n.admitAuthor b) : importBlock cr f now' k b = importBlock cr f now' n b := by
  rcases hk with rfl | rfl
  · rfl
  · rw [importBlock_linked cr f now' _ b parent ((linked_admitAuthor n b b parent).mpr hlink),
      importBlock_linked cr f now' n b parent hlink, admitAuthor_admitAuthor]

/-- A block that is accepted at some time is accepted with the same outcome at any other, or refused with nothing
but its author admitted.  A first refusal changes nothing about that. -/
theorem importBlock_again (n m k : Node) (b parent : Block) (now' : Nat) (hlink : Linked cr n b parent)
    (hok : importBlock cr f now n b = (m, .ok ())) (hk : k = n ∨ k = n.admitAuthor b) :
    importBlock cr f now' k b = (m, .ok ()) ∨ ∃ err, importBlock cr f now' k b = (n.admitAuthor b, .error err) := by
  rw [importBlock_linked cr f now n b parent hlink] at hok
  rw [importBlock_met n k b parent now' hlink hk, importBlock_linked cr f now' n b parent hlink]
  cases BlockValidator.validate cr now' b parent (n.admitAuthor b).validators with
  | error err => exact Or.inr ⟨_, rfl⟩
  | ok _ =>
    split at hok
    · cases hok
    · exact Or.inl hok

end Node

namespace KratOsNode

variable {σ : Type} {e : Setup σ} {w : Surroundings}

/-- A block of the chain, or one that follows at no point of it. -/
def OnChain (cr : Crypto) (f : RewardFormulas) (now : Nat) (n : Node) (chain : List Block) (b : Block) : Prop :=
  b ∈ chain ∨ ∀ k m parent, n.replay cr f now (chain.take k) = some m → ¬ Node.Linked cr m b parent

/-- The node has imported the chain up to some point, `low` or later, and may have met the next block. -/
def AtReplay (cr : Crypto) (f : RewardFormulas) (now : Nat) (n : Node) (chain : List Block) (low : Nat) (k : Node) :
    Prop :=
  ∃ i m, low ≤ i ∧ i ≤ chain.length ∧ n.replay cr f now (chain.take i) = some m ∧
    (k = m ∨ ∃ b, chain[i]? = some b ∧ k = m.admitAuthor b)

/-- The block that was met is the next one. -/
theorem met_next {k m : Node} {chain : List Block} {i : Nat} {b : Block} (hb : chain[i]? = some b)
    (hat : k = m ∨ ∃ d, chain[i]? = some d ∧ k = m.admitAuthor d) : k = m ∨ k = m.admitAuthor b := by
  rcases hat with heq | ⟨d, hd, heq⟩
  · exact Or.inl heq
  · rw [hb, Option.some.injEq] at hd
    rw [hd]
    exact Or.inr heq

/-- **Move.** -/
theorem atReplay_importBlock (now : Nat) (n last : Node) (chain : List Block) (s : KratOsNode) (b : Block)
    (hvalid : n.replay e.cr e.rewards now chain = some last) (low : Nat)
    (h : AtReplay e.cr e.rewards now n chain low s.node) (hb : OnChain e.cr e.rewards now n chain b) :
    AtReplay e.cr e.rewards now n chain low (s.importBlock e w b).1.node := by
  obtain ⟨i, m, hlow, hi, hm, hat⟩ := h
  by_cases hlink : ∃ parent, Node.Linked e.cr m b parent
  · obtain ⟨parent, hlink⟩ := hlink
    -- the block follows here, so it is the next one of the chain
    have hlen : (chain.take i).length = i := by
      rw [List.length_take]
      omega
    have hnext : chain[i]? = some b := by
      rcases hb with hmem | hstray
      · obtain ⟨j, hj⟩ := List.mem_iff_getElem?.mp hmem
        have hnumber := Node.number_replay n last chain hvalid j b hj
        have hfollows := hlink.number
        rw [Node.height_replay n m _ hm, hlen] at hfollows
        have hji : j = i := by omega
        rw [← hji]
        exact hj
      · exact absurd hlink (hstray i m parent hm)
    obtain ⟨u, -, hu, -, himport⟩ := Node.replay_next n last m chain hvalid i b hnext hm
    have hat' := met_next hnext hat
    have hnew := ((Node.linked_met m s.node b b parent hat').mpr hlink).fresh
    rcases Node.importBlock_again m u s.node b parent w.now hlink himport hat' with hok | ⟨err, herr⟩
    · refine ⟨i + 1, u, Nat.le_succ_of_le hlow, (List.getElem?_eq_some_iff.mp hnext).1, hu, Or.inl ?_⟩
      unfold importBlock
      rw [hok, hnew]
      rfl
    · refine ⟨i, m, hlow, hi, hm, Or.inr ⟨b, hnext, ?_⟩⟩
      unfold importBlock
      rw [herr]
  · have hunlinked : ∀ parent, ¬ Node.Linked e.cr s.node b parent := by
      intro parent hs
      rcases hat with heq | ⟨d, -, heq⟩
      · exact hlink ⟨parent, (Node.linked_met m s.node b b parent (Or.inl heq)).mp hs⟩
      · exact hlink ⟨parent, (Node.linked_met m s.node b d parent (Or.inr heq)).mp hs⟩
    rw [s.node_importBlock_of_unlinked b hunlinked]
    exact ⟨i, m, hlow, hi, hm, hat⟩

variable [LinearOrder σ]

theorem atReplay_moves (now : Nat) (n last : Node) (chain : List Block) (s s' : KratOsNode)
    (hkey : e.validatorKey = none) (hvalid : n.replay e.cr e.rewards now chain = some last) (low : Nat)
    (hmoves : Moves e w (OnChain e.cr e.rewards now n chain) s s')
    (h : AtReplay e.cr e.rewards now n chain low s.node) : AtReplay e.cr e.rewards now n chain low s'.node :=
  observer_moves hkey (AtReplay e.cr e.rewards now n chain low)
    (fun t b hb ht => atReplay_importBlock now n last chain t b hvalid low ht hb) hmoves h

/-- **Run.** -/
theorem atReplay_run (now : Nat) (n last : Node) (chain : List Block) (s s' : KratOsNode)
    (l : List (Surroundings × NodeInput)) (hkey : e.validatorKey = none)
    (hvalid : n.replay e.cr e.rewards now chain = some last) (low : Nat)
    (h : AtReplay e.cr e.rewards now n chain low s.node) (hears : s.Hears e.cr (OnChain e.cr e.rewards now n chain))
    (hl : ∀ i ∈ l, Admits (OnChain e.cr e.rewards now n chain) i) (hrun : s.run e l = some s') :
    AtReplay e.cr e.rewards now n chain low s'.node := by
  refine (run_inv _ (fun t => t.Hears e.cr (OnChain e.cr e.rewards now n chain) ∧
    AtReplay e.cr e.rewards now n chain low t.node) ?_ s s' l ⟨hears, h⟩ hl hrun).2
  rintro w i t t' ⟨ht, hat⟩ ⟨hstays, hblocks⟩ hstep
  have hmoves := moves_step t t' i ht hblocks hstays hstep
  exact ⟨ht.moves hmoves, atReplay_moves now n last chain t t' hkey hvalid low hmoves hat⟩

theorem height_met {cr : Crypto} {f : RewardFormulas} {now : Nat} {n k m : Node} {chain : List Block} {i : Nat}
    (hi : i ≤ chain.length) (hm : n.replay cr f now (chain.take i) = some m)
    (hat : k = m ∨ ∃ b, chain[i]? = some b ∧ k = m.admitAuthor b) : k.chainHeight = n.chainHeight + i := by
  have hheight : m.chainHeight = n.chainHeight + i := by
    rw [Node.height_replay n m _ hm, List.length_take]
    omega
  rcases hat with rfl | ⟨b, -, rfl⟩
  · exact hheight
  · exact (m.storage_admitAuthor b).2.1.trans hheight

/-- What a node at some point of the chain has. -/
theorem AtReplay.state {cr : Crypto} {f : RewardFormulas} {now : Nat} {n k : Node} {chain : List Block} {low : Nat}
    (h : AtReplay cr f now n chain low k) :
    ∃ i m, low ≤ i ∧ i ≤ chain.length ∧ n.replay cr f now (chain.take i) = some m ∧
      k.chainHeight = n.chainHeight + i ∧ k.storage = m.storage ∧ k.currentBlock = m.currentBlock := by
  obtain ⟨i, m, hlow, hi, hm, hat⟩ := h
  refine ⟨i, m, hlow, hi, hm, height_met hi hm hat, ?_⟩
  rcases hat with rfl | ⟨b, -, rfl⟩
  · exact ⟨rfl, rfl⟩
  · obtain ⟨hstorage, -, hcurrent⟩ := m.storage_admitAuthor b
    exact ⟨hstorage, hcurrent⟩

/-- **Replicas agree.**  Two nodes that do not produce start from one genesis state and hear blocks of one valid chain,
and blocks that follow nowhere on it, in whatever order, however often and at whatever times.  Each of them has imported
the chain in order up to its height, and where the heights are the same, so are the whole database and the
current block. -/
theorem replicas_agree (e e' : Setup σ) (hcr : e'.cr = e.cr) (hrewards : e'.rewards = e.rewards)
    (hkey : e.validatorKey = none) (hkey' : e'.validatorKey = none) (storage : StateBackend) (validators : ValidatorSet)
    (genesis : Block) (millis millis' now : Nat) (signedSlots signedSlots' : SortedMap (Nat ×ₗ Nat) Hash)
    (chain : List Block) (n last : Node) (hn : n = (start e.cr millis signedSlots storage validators genesis).node)
    (hvalid : n.replay e.cr e.rewards now chain = some last) (l l' : List (Surroundings × NodeInput)) (s s' : KratOsNode)
    (hl : ∀ i ∈ l, Admits (OnChain e.cr e.rewards now n chain) i) (hl' : ∀ i ∈ l', Admits (OnChain e.cr e.rewards now n chain) i)
    (hrun : (start e.cr millis signedSlots storage validators genesis).run e l = some s)
    (hrun' : (start e'.cr millis' signedSlots' storage validators genesis).run e' l' = some s') :
    (∃ i m, i ≤ chain.length ∧ n.replay e.cr e.rewards now (chain.take i) = some m ∧
      s.node.chainHeight = n.chainHeight + i ∧ s.node.storage = m.storage ∧ s.node.currentBlock = m.currentBlock) ∧
    (s.node.chainHeight = s'.node.chainHeight →
      s.node.storage = s'.node.storage ∧ s.node.currentBlock = s'.node.currentBlock) := by
  have hstart : ∀ k, k = n → AtReplay e.cr e.rewards now n chain 0 k :=
    fun k hk => ⟨0, n, Nat.zero_le _, Nat.zero_le _, rfl, Or.inl hk⟩
  obtain ⟨i, m, -, hat⟩ := (atReplay_run now n last chain _ s l hkey hvalid 0 (hstart _ hn.symm)
    (hears_start e.cr millis signedSlots storage validators genesis) hl hrun).state
  have hat' : AtReplay e.cr e.rewards now n chain 0 s'.node := by
    have hn' : (start e'.cr millis' signedSlots' storage validators genesis).node = n := by
      rw [hn, hcr]
      rfl
    rw [← hcr, ← hrewards] at hvalid hl' hstart ⊢
    exact atReplay_run now n last chain _ s' l' hkey' hvalid 0 (hstart _ hn')
      (hears_start e'.cr millis' signedSlots' storage validators genesis) hl' hrun'
  refine ⟨⟨i, m, hat⟩, fun hheight => ?_⟩
  obtain ⟨-, hm, hi, hstorage, hcurrent⟩ := hat
  obtain ⟨j, u, -, -, hu, hj, hstorage', hcurrent'⟩ := hat'.state
  have hij : i = j := by omega
  rw [hij, hu, Option.some.injEq] at hm
  rw [hstorage, hstorage', hcurrent, hcurrent', hm]
  exact ⟨rfl, rfl⟩

/-- The first block of the sample validator comes twice, early. -/
def sampleHeardTwice : List (Surroundings × NodeInput) :=
  (⟨5, 0, false⟩, .newBlock sampleFirst) :: sampleHeard ++ [(⟨7, 0, false⟩, .nextEvent)]

/-- One observer hears the block once and the other one twice. -/
theorem replicas_agree_twice :
    let s := (sampleStart.run sampleObserver sampleHeard).getD sampleStart
    let s' := (sampleStart.run sampleObserver sampleHeardTwice).getD sampleStart
    s.node.chainHeight = 1 ∧ s.node.storage = s'.node.storage ∧ s.node.currentBlock = s'.node.currentBlock := by
  intro s s'
  have hheights : s.node.chainHeight = 1 ∧ s'.node.chainHeight = 1 := by decide +kernel
  have hvalid := eq_some_getD
    (sampleStart.node.replay sampleObserver.cr sampleObserver.rewards 6 [sampleFirst]) sampleStart.node (by decide +kernel)
  have hchain : OnChain sampleObserver.cr sampleObserver.rewards 6 sampleStart.node [sampleFirst] sampleFirst.stored :=
    Or.inl (by decide +kernel)
  have hagree := replicas_agree sampleObserver sampleObserver rfl rfl rfl rfl sampleStorage BlockProducer.sampleValidators
    Node.sampleGenesis 0 0 6 .empty .empty [sampleFirst] sampleStart.node _ rfl hvalid sampleHeard sampleHeardTwice s s'
    (admits_sampleHeard _ hchain) (by
      intro i hi
      rcases List.mem_append.mp hi with hfirst | hlast
      · rcases List.mem_cons.mp hfirst with rfl | hheard
        · refine ⟨fun v hv => ?_, fun b hb => ?_⟩
          · cases hv
          · rw [List.mem_singleton.mp hb]
            exact hchain
        · exact admits_sampleHeard _ hchain i hheard
      · rw [List.mem_singleton.mp hlast]
        refine ⟨fun v hv => ?_, fun b hb => ?_⟩
        · cases hv
        · cases hb)
    (eq_some_getD _ _ (by decide +kernel)) (eq_some_getD _ _ (by decide +kernel))
  exact ⟨hheights.1, hagree.2 (hheights.1.trans hheights.2.symm)⟩

end KratOsNode

end Kratos
