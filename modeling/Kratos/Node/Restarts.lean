import Kratos.Node.ChainIntegrity

/-!
# Restarts

The slots a validator has signed are kept on disk, so over any number of restarts a node announces
one block for a slot (`signs_once`).  The height is not read back: a node that has restarted stands
at genesis, takes the blocks of its old chain for imported and stays where it is
(`restarted_stays`).
-/

namespace Kratos

namespace KratOsNode

variable {σ : Type} [LinearOrder σ] {e : Setup σ} {w : Surroundings} {P : Block → Prop}

/-! ## Signed slots -/

/-- The slot a block is for. -/
def slotKey (b : Block) : Nat ×ₗ Nat := toLex (b.header.epoch, b.header.slot)

/-- The blocks announced have their slots signed, and no two of them have one slot. -/
structure SignsOnce (cr : Crypto) (s : KratOsNode) : Prop where
  signed : ∀ b, .newBlock b ∈ s.network.sent → s.signedSlots.find? (slotKey b) = some (b.hash cr)
  once : ∀ b c, .newBlock b ∈ s.network.sent → .newBlock c ∈ s.network.sent → slotKey b = slotKey c → b = c

/-- The slot of a block is signed, and no other block is announced for it. -/
structure Takes (b : Block) (s : KratOsNode) : Prop where
  signed : (s.signedSlots.find? (slotKey b)).isSome
  only : ∀ c, .newBlock c ∈ s.network.sent → slotKey c = slotKey b → c = b

/-- What a move does to the announcements and to the signed slots. -/
theorem announced_move {s s' : KratOsNode} (h : Move e w P s s') :
    s'.signedSlots = s.signedSlots ∧ (∀ b, .newBlock b ∈ s'.network.sent → .newBlock b ∈ s.network.sent) ∨
      ∃ b, s.signedSlots.find? (slotKey b) = none ∧
        s'.signedSlots = s.signedSlots.insert (slotKey b) (b.hash e.cr) ∧
        ∀ c, .newBlock c ∈ s'.network.sent → .newBlock c ∈ s.network.sent ∨ c = b := by
  cases h with
  | network n hn => exact Or.inl ⟨rfl, hn.announced⟩
  | pool mempool => exact Or.inl ⟨rfl, fun _ hb => hb⟩
  | imports b hb =>
    left
    unfold importBlock
    split
    · exact ⟨rfl, fun _ hb => hb⟩
    · split
      · exact ⟨rfl, fun _ hb => hb⟩
      · exact ⟨rfl, fun _ hb => hb⟩
  | ticks canProduce =>
    rcases s.slotTick_cases (e := e) (w := w) canProduce with
      heq | ⟨key, p, parent, block, -, -, hbuilds, t, ht, heq⟩
    · rw [heq]
      exact Or.inl ⟨rfl, fun _ hb => hb⟩
    · right
      have hslot : slotKey block = toLex (s.node.chainHeight / slotsPerEpoch,
          (w.now - e.genesisTimestamp) / slotDurationSecs) := by
        unfold slotKey
        rw [hbuilds.epoch_eq, hbuilds.slot_eq]
      refine ⟨block, ?_, ?_, fun c hc => ?_⟩
      · have hunsigned := hbuilds.unsigned
        unfold BlockProducer.hasSignedSlot SortedMap.contains at hunsigned
        rw [hslot]
        exact Option.isSome_eq_false_iff.mp hunsigned |> Option.isNone_iff_eq_none.mp
      · rw [heq, ht, hslot]
        exact hbuilds.signed
      · rw [heq, ht] at hc
        change Outgoing.newBlock c ∈ (s.network.sent ++ [.newBlock block]) ++ [.newBlock block] at hc
        simp only [List.mem_append, List.mem_singleton, Outgoing.newBlock.injEq] at hc
        tauto

theorem SignsOnce.move {s s' : KratOsNode} (h : s.SignsOnce e.cr) (hmove : Move e w P s s') : s'.SignsOnce e.cr := by
  rcases announced_move hmove with ⟨hslots, hsent⟩ | ⟨b, hnone, hslots, hsent⟩
  · refine ⟨fun b hb => ?_, fun b c hb hc => h.once b c (hsent b hb) (hsent c hc)⟩
    rw [hslots]
    exact h.signed b (hsent b hb)
  · -- the slot of the new block was not signed, so it is not that of an older one
    have hnew : ∀ c, .newBlock c ∈ s.network.sent → slotKey c ≠ slotKey b := by
      intro c hc heq
      have hsigned := h.signed c hc
      rw [heq, hnone] at hsigned
      cases hsigned
    refine ⟨fun c hc => ?_, fun c d hc hd heq => ?_⟩
    · rw [hslots, SortedMap.find?_insert]
      rcases hsent c hc with hold | rfl
      · rw [if_neg (hnew c hold)]
        exact h.signed c hold
      · rw [if_pos rfl]
    · rcases hsent c hc with holdc | rfl
      · rcases hsent d hd with holdd | rfl
        · exact h.once c d holdc holdd heq
        · exact absurd heq (hnew c holdc)
      · rcases hsent d hd with holdd | rfl
        · exact absurd heq.symm (hnew d holdd)
        · rfl

theorem Takes.move {b : Block} {s s' : KratOsNode} (h : s.Takes b) (hmove : Move e w P s s') : s'.Takes b := by
  rcases announced_move hmove with ⟨hslots, hsent⟩ | ⟨c, hnone, hslots, hsent⟩
  · refine ⟨?_, fun c hc => h.only c (hsent c hc)⟩
    rw [hslots]
    exact h.signed
  · have hne : slotKey c ≠ slotKey b := by
      intro heq
      have hsigned := h.signed
      rw [← heq, hnone] at hsigned
      cases hsigned
    refine ⟨?_, fun d hd heq => ?_⟩
    · rw [hslots, SortedMap.find?_insert, if_neg hne.symm]
      exact h.signed
    · rcases hsent d hd with hold | rfl
      · exact h.only d hold heq
      · exact absurd heq hne

theorem signsOnce_start (cr : Crypto) (millis : Nat) (signedSlots : SortedMap (Nat ×ₗ Nat) Hash)
    (storage : StateBackend) (validators : ValidatorSet) (genesis : Block) :
    (start cr millis signedSlots storage validators genesis).SignsOnce cr := by
  refine ⟨fun b hb => ?_, fun b c hb => ?_⟩
  · cases hb
  · cases hb

/-- What every move and every restart keeps, every step keeps. -/
theorem step_keeps (Inv : KratOsNode → Prop)
    (hmove : ∀ w s s', Inv s → Move e w (fun _ => True) s s' → Inv s')
    (hrestart : ∀ millis s validators, Inv s → Inv (restart e.cr millis s validators))
    (w : Surroundings) (i : NodeInput) (s s' : KratOsNode) (h : s.Hears e.cr (fun _ => True) ∧ Inv s)
    (hstep : s.step e w i = some s') : s'.Hears e.cr (fun _ => True) ∧ Inv s' := by
  by_cases hi : ∃ validators, i = .restart validators
  · obtain ⟨validators, rfl⟩ := hi
    cases hstep
    refine ⟨?_, hrestart w.millis s validators h.2⟩
    unfold restart
    split
    · exact h.1
    · exact hears_start e.cr _ _ _ _ _
  · have hmoves := moves_step (w := w) s s' i h.1 (fun _ _ => trivial) (fun v hv => hi ⟨v, hv⟩) hstep
    refine ⟨h.1.moves hmoves, ?_⟩
    have hinv := h.2
    clear hstep h
    induction hmoves with
    | refl => exact hinv
    | tail _ hlast ih => exact hmove w _ _ ih hlast

/-- **No double signing.**  In every run, over any number of restarts, two blocks that the node announces for one
slot of one epoch are the same block. -/
theorem signs_once (e : Setup σ) (millis : Nat) (signedSlots : SortedMap (Nat ×ₗ Nat) Hash) (storage : StateBackend)
    (validators : ValidatorSet) (genesis : Block) (l l' : List (Surroundings × NodeInput)) (s s' : KratOsNode)
    (hrun : (start e.cr millis signedSlots storage validators genesis).run e l = some s) (hrun' : s.run e l' = some s')
    (b b' : Block) (hb : .newBlock b ∈ s.network.sent) (hb' : .newBlock b' ∈ s'.network.sent)
    (hepoch : b.header.epoch = b'.header.epoch) (hslot : b.header.slot = b'.header.slot) : b = b' := by
  have hkeep := step_keeps (e := e) (fun s => s.SignsOnce e.cr) (fun w s s' h hmove => h.move hmove) (by
    intro millis s validators h
    unfold restart
    split
    · exact h
    · exact signsOnce_start e.cr _ _ _ _ _)
  obtain ⟨hears, honce⟩ := run_inv (fun _ => True) (fun s => s.Hears e.cr (fun _ => True) ∧ s.SignsOnce e.cr)
    (fun w i s s' h _ hstep => hkeep w i s s' h hstep) _ s l
    ⟨hears_start e.cr millis signedSlots storage validators genesis,
      signsOnce_start e.cr millis signedSlots storage validators genesis⟩ (fun _ _ => trivial) hrun
  -- from here on the slot of the first block is taken
  have htakes : s.Takes b :=
    ⟨by rw [honce.signed b hb]; rfl, fun c hc heq => honce.once c b hc hb heq⟩
  have hkeep' := step_keeps (e := e) (fun s => s.Takes b) (fun w s s' h hmove => h.move hmove) (by
    intro millis s validators h
    unfold restart
    split
    · exact h
    · refine ⟨h.signed, fun c hc => ?_⟩
      cases hc)
  obtain ⟨-, hlast⟩ := run_inv (fun _ => True) (fun s => s.Hears e.cr (fun _ => True) ∧ s.Takes b)
    (fun w i s s' h _ hstep => hkeep' w i s s' h hstep) s s' l'
    ⟨hears, htakes⟩ (fun _ _ => trivial) hrun'
  exact (hlast.only b' hb' (by unfold slotKey; rw [hepoch, hslot])).symm

/-- The sample validator after the second slot. -/
def sampleTwo : KratOsNode := sampleOne.slotTick sampleSetup ⟨12, 0, false⟩ true

/-- The block it then has under its first number is the one it announced first. -/
theorem signs_once_own : sampleFirst = (sampleTwo.node.storage.getBlockByNumber 1).getD Node.sampleGenesis :=
  signs_once sampleSetup 0 .empty sampleStorage BlockProducer.sampleValidators Node.sampleGenesis [sampleTick]
    [(⟨12, 0, false⟩, .slotTick true)] sampleOne sampleTwo rfl rfl _ _ (by decide +kernel) (by decide +kernel)
    (by decide +kernel) (by decide +kernel)

/-! ## The height after a restart -/

/-- **A restarted node stays where it is.**  A node that had imported blocks restarts, and hears as first blocks
only the one that its database has: in every run it stays at height zero, over the state of its old
chain, with nothing imported. -/
theorem restarted_stays (e : Setup σ) (hkey : e.validatorKey = none) (millis : Nat)
    (signedSlots : SortedMap (Nat ×ₗ Nat) Hash) (storage : StateBackend) (validators : ValidatorSet) (genesis : Block)
    (l : List (Surroundings × NodeInput)) (s : KratOsNode) (hblank : Blank storage) (hzero : genesis.header.number = 0)
    (hl : ∀ i ∈ l, ∀ validators, i.2 ≠ .restart validators)
    (hrun : (start e.cr millis signedSlots storage validators genesis).run e l = some s) (first : Block)
    (hfirst : s.node.storage.getBlockByNumber 1 = some first) (millis' : Nat) (validators' : ValidatorSet)
    (l' : List (Surroundings × NodeInput)) (s' : KratOsNode)
    (hl' : ∀ i ∈ l', Admits (fun b => b.header.number = 1 → b.hash e.cr = first.hash e.cr) i)
    (hrun' : (restart e.cr millis' s validators').run e l' = some s') :
    1 ≤ s.node.chainHeight ∧ s'.node.chainHeight = 0 ∧ s'.node.storage = s.node.storage := by
  obtain ⟨-, L, hL, bs, hbs, -⟩ := ledger_of_run (P := fun _ => True) millis signedSlots storage validators genesis l
    e.cr rfl s hblank hzero (fun i hi => ⟨hl i hi, fun _ _ => trivial⟩) hrun
  have hheight : 1 ≤ s.node.chainHeight := by
    have hsome : L.blocks[1]? = some first := (hL.node.store.byNumber 1).symm.trans hfirst
    have hlt := (List.getElem?_eq_some_iff.mp hsome).1
    rw [hL.node.height]
    rw [L.length_blocks] at hlt
    omega
  -- genesis is in the database, so the node starts from it
  have hgenesis : s.node.storage.getBlockByNumber 0 = some genesis.stored := by
    refine (hL.node.store.byNumber 0).trans ?_
    rw [hbs]
    rfl
  have hrestart : restart e.cr millis' s validators' =
      start e.cr millis' s.signedSlots s.node.storage validators' genesis.stored := by
    unfold restart
    rw [hgenesis]
  have hstarted : (restart e.cr millis' s validators').node.chainHeight = 0 ∧
      (restart e.cr millis' s validators').node.storage = s.node.storage := by
    rw [hrestart]
    refine ⟨rfl, ?_⟩
    unfold start
    rw [if_neg (by rw [hgenesis]; simp)]
  have hears : (restart e.cr millis' s validators').Hears e.cr
      (fun b => b.header.number = 1 → b.hash e.cr = first.hash e.cr) := by
    rw [hrestart]
    exact hears_start e.cr _ _ _ _ _
  refine ⟨hheight, (run_inv _
    (fun t => t.Hears e.cr (fun b => b.header.number = 1 → b.hash e.cr = first.hash e.cr) ∧
      t.node.chainHeight = 0 ∧ t.node.storage = s.node.storage) ?_ _ s' l' ⟨hears, hstarted⟩ hl' hrun').2⟩
  rintro w i t t' ⟨ht, hat⟩ ⟨hstays, hblocks⟩ hstep
  have hmoves := moves_step t t' i ht hblocks hstays hstep
  refine ⟨ht.moves hmoves, observer_moves hkey
    (fun n => n.chainHeight = 0 ∧ n.storage = s.node.storage) (fun u b hb hu => ?_) hmoves hat⟩
  have hnode : (u.importBlock e w b).1.node = u.node := by
    refine u.node_importBlock_of_unlinked b fun parent hlink => ?_
    have hone : b.header.number = 1 := by rw [hlink.number, hu.1]
    have hfresh := hlink.fresh
    -- the block that would follow is stored
    unfold Node.isStored at hfresh
    rw [hone, hu.2, hfirst] at hfresh
    simp [hb hone] at hfresh
  rw [hnode]
  exact hu

/-- The observer hears the block, restarts and hears it again. -/
theorem restarted_stays_observer :
    let s := (sampleStart.run sampleObserver sampleHeard).getD sampleStart
    let s' := ((restart Crypto.sample 0 s BlockProducer.sampleValidators).run sampleObserver sampleHeard).getD sampleStart
    1 ≤ s.node.chainHeight ∧ s'.node.chainHeight = 0 ∧ s'.node.storage = s.node.storage := by
  intro s s'
  have hfirst : s.node.storage.getBlockByNumber 1 = some sampleFirst := by decide +kernel
  have hrun' : (restart Crypto.sample 0 s BlockProducer.sampleValidators).run sampleObserver sampleHeard = some s' :=
    eq_some_getD _ _ (by decide +kernel)
  exact restarted_stays sampleObserver rfl 0 .empty sampleStorage BlockProducer.sampleValidators Node.sampleGenesis
    sampleHeard s blank_sampleStorage rfl (fun i hi => (admits_sampleHeard (fun _ => True) trivial i hi).1)
    (eq_some_getD _ _ (by decide +kernel)) _ hfirst 0 BlockProducer.sampleValidators sampleHeard s'
    (admits_sampleHeard _ fun _ => rfl) hrun'

end KratOsNode

end Kratos
