import Kratos.Finality.Certificates
import Kratos.Lib.Parties

/-!
# The finality network

Validator nodes exchange votes over a network that may lose, repeat, delay and reorder them, and
the members of `byz` send what they like.  A run is any order of events of the nodes.  The honest
nodes rely on one thing: a vote that verifies in the name of an honest validator was cast by it.

Every honest gadget then keeps its invariant (`gadgetInv_run`).  Two blocks that honest nodes
announce as final are both on the chain of some honest validator, so blocks of one height are the
same (`finalized_agree`).  What a node takes for final is such a block if the announcements it
hears are those of honest nodes (`lastFinalized_agree`).  Where no honest validator starts a round
that it has voted in, a round is announced with one block (`finalized_once`), and the evidence
that honest nodes collect accuses only members of `byz` (`accused_byzantine`).
-/

namespace Kratos

namespace FinalityGadget

/-- The blocks a gadget has announced as final. -/
def announcedBlocks (g : FinalityGadget) : List Target := g.broadcasted.filterMap FinalityMessage.announced?

theorem mem_announcedBlocks (g : FinalityGadget) (b : Target) :
    b ∈ g.announcedBlocks ↔ ∃ epoch round, FinalityMessage.finalized b epoch round ∈ g.broadcasted := by
  unfold announcedBlocks
  rw [List.mem_filterMap]
  constructor
  · rintro ⟨m, hm, hb⟩
    cases m with
    | finalized block epoch round =>
      cases hb
      exact ⟨epoch, round, hm⟩
    | _ => cases hb
  · rintro ⟨epoch, round, hm⟩
    exact ⟨_, hm, rfl⟩

/-- What was broadcast stays. -/
theorem broadcasted_transition {cr : Crypto} {call : Call} {g g' : FinalityGadget} (h : Transition cr call g g') :
    g.broadcasted <+: g'.broadcasted := by
  cases h with
  | cast r ty b a => exact List.prefix_append _ _
  | announce r b => exact List.prefix_append _ _
  | answer r ord epoch => exact List.prefix_append _ _
  | _ => exact List.prefix_refl _

theorem broadcasted_acts {cr : Crypto} {e : FinalityNode.Event} {chain : List Target} {g g' : FinalityGadget}
    (h : FinalityNode.Acts cr e chain g g') : g.broadcasted <+: g'.broadcasted := by
  cases h with
  | idle => exact List.prefix_refl _
  | calls call he hchain =>
    exact step_keeps (fun g' => g.broadcasted <+: g'.broadcasted)
      (fun _ _ htrans hg => hg.trans (broadcasted_transition htrans)) g (List.prefix_refl _)
  | sends => exact List.prefix_refl _

end FinalityGadget

/-! ## The system -/

/-- The nodes, by the account whose key they hold. -/
abbrev FinalityNetwork := AccountId → FinalityNode

namespace FinalityNetwork

open FinalityNode (Event)

def start (sign : AccountId → List UInt8 → Signature64) (validators : Finset AccountId) (genesisHash : Hash) :
    FinalityNetwork :=
  fun a => .new ⟨sign a, a⟩ validators genesisHash

/-- An event at one of the nodes. -/
def step (cr : Crypto) : FinalityNetwork → AccountId × Event → FinalityNetwork := Parties.act (FinalityNode.step cr)

def run (cr : Crypto) (s : FinalityNetwork) (l : List (AccountId × Event)) : FinalityNetwork := l.foldl (step cr) s

/-- What the nodes have made known. -/
def known (s : FinalityNetwork) : Known :=
  { cast := fun a b => ∃ v ∈ (s a).gadget.sentVotes, v.ballot = b, chain := fun a b => b ∈ (s a).chain }

/-- **Assumptions.**  A verified vote that reaches an honest node in the name of another was cast by
it, and the validators stay. -/
def Sound (cr : Crypto) (validators byz : Finset AccountId) (s : FinalityNetwork) (e : AccountId × Event) : Prop :=
  e.1 ∉ byz → (∀ v ∈ e.2.votes, v.verify cr = true → v.voter ∉ byz → s.known.cast v.voter v.ballot) ∧
    ∀ w ∈ e.2.validators?, w = validators

instance (cr : Crypto) (validators byz : Finset AccountId) (s : FinalityNetwork) (e : AccountId × Event) :
    Decidable (Sound cr validators byz s e) :=
  inferInstanceAs (Decidable (e.1 ∉ byz → (∀ v ∈ e.2.votes, v.verify cr = true → v.voter ∉ byz →
    ∃ w ∈ (s v.voter).gadget.sentVotes, w.ballot = v.ballot) ∧ ∀ w ∈ e.2.validators?, w = validators))

variable {cr : Crypto} {validators byz : Finset AccountId} {sign : AccountId → List UInt8 → Signature64}
  {genesisHash : Hash}

/-- Knowledge grows. -/
theorem known_step (cr : Crypto) (s : FinalityNetwork) (e : AccountId × Event) :
    s.known ≤ (step cr s e).known := by
  have hnode : ∀ a, (s a).gadget.broadcasted <+: (step cr s e a).gadget.broadcasted ∧
      (s a).chain <+: (step cr s e a).chain := by
    refine Parties.rel_act (FinalityNode.step cr)
      (fun n n' => n.gadget.broadcasted <+: n'.gadget.broadcasted ∧ n.chain <+: n'.chain)
      (fun n => ⟨List.prefix_refl _, List.prefix_refl _⟩) s e ⟨?_, ?_⟩
    · exact FinalityGadget.broadcasted_acts ((s e.1).gadget_step cr e.2)
    · rcases (s e.1).chain_step cr e.2 with heq | ⟨b, -, heq⟩
      · rw [heq]
      · rw [heq]
        exact List.prefix_append _ _
  refine ⟨?_, fun a b hb => (hnode a).2.mem hb⟩
  rintro a b ⟨v, hv, hb⟩
  exact ⟨v, ((hnode a).1.filterMap _).mem hv, hb⟩

theorem known_run (cr : Crypto) (s : FinalityNetwork) (l : List (AccountId × Event)) (i j : Nat) (hij : i ≤ j) :
    (run cr s (l.take i)).known ≤ (run cr s (l.take j)).known :=
  Run.rel_take (step cr) (fun _ _ => True) (fun _ => True) (fun s s' => s.known ≤ s'.known) (fun _ => le_refl _)
    (fun _ _ _ => le_trans) (fun _ _ _ _ => trivial) (fun s e _ _ => known_step cr s e) s l trivial
    (Run.meets_of_forall _ _ (fun _ _ => trivial) s l) i j hij

/-- What a sound event brings to an honest node is sound for the calls it makes. -/
theorem soundCall_of_sound {s : FinalityNetwork} {e : AccountId × Event} (h : Sound cr validators byz s e)
    (ha : e.1 ∉ byz) (call : FinalityGadget.Call) (he : e.2.call? = some call)
    (hchain : ∀ b, call.imported? = some b → b ∈ (step cr s e e.1).chain) :
    SoundCall cr validators byz (step cr s e).known e.1 call := by
  obtain ⟨hvotes, hvalidators⟩ := h ha
  unfold Event.votes at hvotes
  unfold Event.validators? at hvalidators
  rw [he] at hvotes hvalidators
  exact ⟨fun v hv hverify hnot => (known_step cr s e).1 _ _ (hvotes v hv hverify hnot), hchain,
    fun w hw => hvalidators w hw⟩

/-- **Run.**  Every honest gadget rests on what is known. -/
theorem gadgetInv_run (l : List (AccountId × Event))
    (hrun : Run.Meets (step cr) (Sound cr validators byz) (start sign validators genesisHash) l) (a : AccountId)
    (ha : a ∉ byz) :
    GadgetInv cr validators byz (run cr (start sign validators genesisHash) l).known a
      (run cr (start sign validators genesisHash) l a).gadget := by
  refine Parties.inv_of_known (FinalityNode.step cr) known (Sound cr validators byz)
    (fun k a n => a ∉ byz → GadgetInv cr validators byz k a n.gadget) (fun k k' a n hk h ha => (h ha).mono hk)
    (fun s e _ => known_step cr s e) ?_ (start sign validators genesisHash) l ?_ hrun a ha
  · intro s e he hs ha
    have hacts := (s e.1).gadget_step cr e.2
    refine GadgetInv.acts hacts (fun call hcall hchain => soundCall_of_sound he ha call hcall ?_)
      ((hs e.1 ha).mono (known_step cr s e))
    rw [step, Parties.act_self]
    exact hchain
  · intro a _
    exact .new cr byz _ a ⟨sign a, a⟩ validators genesisHash

theorem numbered_run (l : List (AccountId × Event)) (a : AccountId) :
    (run cr (start sign validators genesisHash) l a).Numbered := by
  unfold run step
  rw [Parties.foldl_act]
  refine Run.inv_foldl (FinalityNode.step cr) (fun _ _ => True) FinalityNode.Numbered
    (fun n e hn _ => n.numbered_step cr e hn) _ _ ?_ (Run.meets_of_forall _ _ (fun _ _ => trivial) _ _)
  intro i b hi
  cases hi

/-! ## Certified blocks -/

/-- A quorum of the validators has precommitted for the block. -/
def CertifiedBlock (validators byz : Finset AccountId) (k : Known) (b : Target) : Prop :=
  ∃ epoch round, HasQuorum validators byz k ⟨.precommit, epoch, round, b⟩

/-- The honest nodes rest on what is known. -/
def Honest (cr : Crypto) (validators byz : Finset AccountId) (s : FinalityNetwork) : Prop :=
  ∀ a, a ∉ byz → GadgetInv cr validators byz s.known a (s a).gadget

variable {s : FinalityNetwork}

/-- A quorum of precommits stands on a quorum of prevotes for the block. -/
theorem prevoted_of_certified (h : s.Honest cr validators byz)
    (hlarge : validators.card + byz.card < 2 * quorum validators.card) (b : Target)
    (hb : CertifiedBlock validators byz s.known b) :
    ∃ epoch round, HasQuorum validators byz s.known ⟨.prevote, epoch, round, b⟩ := by
  obtain ⟨epoch, round, hquorum⟩ := hb
  obtain ⟨a, -, hnot, v, hv, hballot⟩ := Quorum.Certified.honest hquorum hlarge
  have hprevotes := (h a hnot).precommitted v hv (congrArg FinalityBallot.voteType hballot)
  rw [hballot] at hprevotes
  exact ⟨epoch, round, hprevotes⟩

/-- Two certified blocks are on the chain of some honest validator, whatever their rounds. -/
theorem common_of_certified (h : s.Honest cr validators byz)
    (hlarge : validators.card + byz.card < 2 * quorum validators.card) (b b' : Target)
    (hb : CertifiedBlock validators byz s.known b) (hb' : CertifiedBlock validators byz s.known b') :
    ∃ a ∈ validators, a ∉ byz ∧ b ∈ (s a).chain ∧ b' ∈ (s a).chain := by
  obtain ⟨epoch, round, hprevotes⟩ := prevoted_of_certified h hlarge b hb
  obtain ⟨epoch', round', hprevotes'⟩ := prevoted_of_certified h hlarge b' hb'
  obtain ⟨a, ha, hnot, ⟨v, hv, hballot⟩, w, hw, hballot'⟩ := Quorum.Certified.common hprevotes hprevotes' hlarge
  have hchain := (h a hnot).prevoted v hv (congrArg FinalityBallot.voteType hballot)
  have hchain' := (h a hnot).prevoted w hw (congrArg FinalityBallot.voteType hballot')
  rw [show v.target = b from congrArg FinalityBallot.target hballot] at hchain
  rw [show w.target = b' from congrArg FinalityBallot.target hballot'] at hchain'
  exact ⟨a, ha, hnot, hchain, hchain'⟩

/-- A chain has one block of a number, so certified blocks of one number are the same. -/
theorem certified_unique (h : s.Honest cr validators byz) (hnumbered : ∀ a, (s a).Numbered)
    (hlarge : validators.card + byz.card < 2 * quorum validators.card) (b b' : Target)
    (hb : CertifiedBlock validators byz s.known b) (hb' : CertifiedBlock validators byz s.known b')
    (hnumber : b.number = b'.number) : b = b' := by
  obtain ⟨a, -, -, hchain, hchain'⟩ := common_of_certified h hlarge b b' hb hb'
  exact (hnumbered a).unique b b' hchain hchain' hnumber

theorem certified_of_announced (h : s.Honest cr validators byz) (a : AccountId) (ha : a ∉ byz) (b : Target)
    (hb : b ∈ (s a).gadget.announcedBlocks) : CertifiedBlock validators byz s.known b := by
  obtain ⟨epoch, round, hmem⟩ := (FinalityGadget.mem_announcedBlocks _ b).mp hb
  exact ⟨epoch, round, (h a ha).announced b epoch round hmem⟩

/-! ## Safety of the announcements -/

/-- **Safety.**  Whatever the order of events, two blocks that honest nodes announce as final are on
the chain of some honest validator, and are the same if their numbers are. -/
theorem finalized_agree (cr : Crypto) (sign : AccountId → List UInt8 → Signature64)
    (validators byz : Finset AccountId) (genesisHash : Hash) (l : List (AccountId × Event))
    (hlarge : validators.card + byz.card < 2 * quorum validators.card)
    (hrun : Run.Meets (step cr) (Sound cr validators byz) (start sign validators genesisHash) l)
    (a a' : AccountId) (ha : a ∉ byz) (ha' : a' ∉ byz) (b b' : Target)
    (hb : b ∈ (run cr (start sign validators genesisHash) l a).gadget.announcedBlocks)
    (hb' : b' ∈ (run cr (start sign validators genesisHash) l a').gadget.announcedBlocks) :
    (∃ x ∈ validators, x ∉ byz ∧ b ∈ (run cr (start sign validators genesisHash) l x).chain ∧
      b' ∈ (run cr (start sign validators genesisHash) l x).chain) ∧ (b.number = b'.number → b = b') := by
  have h : (run cr (start sign validators genesisHash) l).Honest cr validators byz :=
    fun a ha => gadgetInv_run l hrun a ha
  have hcert := certified_of_announced h a ha b hb
  have hcert' := certified_of_announced h a' ha' b' hb'
  exact ⟨common_of_certified h hlarge b b' hcert hcert',
    certified_unique h (fun a => numbered_run l a) hlarge b b' hcert hcert'⟩

/-- Signers that sign nothing meaningful. -/
def sampleSign : AccountId → List UInt8 → Signature64 := fun _ _ => Signature64.zero

/-- Each of three accounts gets the votes of the three. -/
def sampleVotes (ty : VoteType) (b : Target) : List (AccountId × Event) :=
  [(⟨0⟩ : AccountId), ⟨1⟩, ⟨2⟩].flatMap fun a =>
    [(⟨0⟩ : AccountId), ⟨1⟩, ⟨2⟩].map fun x => (a, .vote .sorted 0 (voteOf ty 0 0 b x))

/-- The last of four validators prevotes for one block at one node and for another at the next; the
others import block 1 and vote for it. -/
def sampleEvents : List (AccountId × Event) :=
  [(⟨0⟩, .imported 0 ⟨1, ⟨1⟩⟩), (⟨1⟩, .imported 0 ⟨1, ⟨1⟩⟩), (⟨2⟩, .imported 0 ⟨1, ⟨1⟩⟩),
    (⟨0⟩, .vote .sorted 0 (voteOf .prevote 0 0 ⟨1, ⟨1⟩⟩ ⟨3⟩)), (⟨1⟩, .vote .sorted 0 (voteOf .prevote 0 0 ⟨1, ⟨2⟩⟩ ⟨3⟩))] ++
    sampleVotes .prevote ⟨1, ⟨1⟩⟩ ++ sampleVotes .precommit ⟨1, ⟨1⟩⟩

set_option maxRecDepth 2000 in
theorem finalized_agree_first_block :
    ∃ x ∈ firstValidators 4, x ∉ ({⟨3⟩} : Finset AccountId) ∧ (⟨1, ⟨1⟩⟩ : Target) ∈
      (run .sample (start sampleSign (firstValidators 4) ⟨0⟩) sampleEvents x).chain := by
  obtain ⟨⟨x, hx, hnot, hchain, -⟩, -⟩ := finalized_agree .sample sampleSign (firstValidators 4) {⟨3⟩} ⟨0⟩
    sampleEvents (by decide) (by decide +kernel) ⟨0⟩ ⟨1⟩ (by decide) (by decide) ⟨1, ⟨1⟩⟩ ⟨1, ⟨1⟩⟩ (by decide +kernel)
    (by decide +kernel)
  exact ⟨x, hx, hnot, hchain⟩

/-! ## The finalized block of a node -/

/-- What honest nodes hear announced was announced by an honest node. -/
def Heeds (byz : Finset AccountId) (s : FinalityNetwork) (e : AccountId × Event) : Prop :=
  e.1 ∉ byz → ∀ b ∈ e.2.announced?, ∃ a, a ∉ byz ∧ b ∈ (s a).gadget.announcedBlocks

/-- A transition leaves the finalized block, or takes the result of the round or what it is told. -/
theorem lastFinalized_transition {call : FinalityGadget.Call} {g g' : FinalityGadget}
    (h : FinalityGadget.Transition cr call g g') : g'.lastFinalized = g.lastFinalized ∨
      (∃ r, g.rounds.activeRound = some r ∧ r.state = .completed ∧ r.finalizedTarget = some g'.lastFinalized) ∨
      call.announced? = some g'.lastFinalized := by
  have hdropped : ∀ b, (g.dropped b).lastFinalized = g.lastFinalized ∨ (g.dropped b).lastFinalized = b := by
    intro b
    unfold FinalityGadget.dropped FinalityGadget.lastFinalized RoundManager.completeRound
    cases g.rounds.activeRound
    · exact Or.inl rfl
    · exact Or.inr rfl
  cases h with
  | conclude r b hr hs hb =>
    refine (hdropped b).imp_right fun heq => Or.inl ⟨r, hr, hs, ?_⟩
    rw [heq]
    exact hb
  | obey b hb =>
    refine (hdropped b).imp_right fun heq => Or.inr ?_
    rw [heq]
    exact hb
  | _ => exact Or.inl rfl

/-- Genesis, or a block with a quorum of precommits. -/
def Backed (validators byz : Finset AccountId) (genesisHash : Hash) (k : Known) (b : Target) : Prop :=
  b = ⟨0, genesisHash⟩ ∨ CertifiedBlock validators byz k b

theorem CertifiedBlock.mono {k k' : Known} (hk : k ≤ k') {b : Target} (h : CertifiedBlock validators byz k b) :
    CertifiedBlock validators byz k' b :=
  let ⟨epoch, round, hquorum⟩ := h
  ⟨epoch, round, hquorum.mono hk⟩

theorem Backed.mono {k k' : Known} (hk : k ≤ k') {b : Target} (h : Backed validators byz genesisHash k b) :
    Backed validators byz genesisHash k' b :=
  h.imp_right (CertifiedBlock.mono hk)

/-- A node's own rounds and the announcements of honest nodes move the finalized block to certified ones. -/
theorem backed_acts {k : Known} {a : AccountId} {e : Event} {chain : List Target} {g g' : FinalityGadget}
    (hacts : FinalityNode.Acts cr e chain g g')
    (hcall : ∀ call, e.call? = some call → (∀ b, call.imported? = some b → b ∈ chain) →
      SoundCall cr validators byz k a call ∧ ∀ b, call.announced? = some b → CertifiedBlock validators byz k b)
    (h : GadgetInv cr validators byz k a g ∧ Backed validators byz genesisHash k g.lastFinalized) :
    GadgetInv cr validators byz k a g' ∧ Backed validators byz genesisHash k g'.lastFinalized := by
  refine ⟨GadgetInv.acts hacts (fun call he hchain => (hcall call he hchain).1) h.1, ?_⟩
  cases hacts with
  | idle => exact h.2
  | calls call he hchain =>
    obtain ⟨hsound, hannounced⟩ := hcall call he hchain
    refine (FinalityGadget.step_keeps (fun g => GadgetInv cr validators byz k a g ∧
      Backed validators byz genesisHash k g.lastFinalized) ?_ g h).2
    rintro g g' htrans ⟨hinv, hbacked⟩
    refine ⟨GadgetInv.transition hsound htrans hinv, ?_⟩
    rcases lastFinalized_transition htrans with heq | ⟨r, hr, hs, hb⟩ | hb
    · rw [heq]
      exact hbacked
    · exact Or.inr ⟨_, _, (hinv.active r hr).finalized hs _ hb⟩
    · exact Or.inr (hannounced _ hb)
  | sends => exact h.2

/-- **Run.**  What an honest node takes for final is genesis or certified. -/
theorem backed_run (l : List (AccountId × Event))
    (hrun : Run.Meets (step cr) (fun s e => Sound cr validators byz s e ∧ Heeds byz s e)
      (start sign validators genesisHash) l) (a : AccountId) (ha : a ∉ byz) :
    GadgetInv cr validators byz (run cr (start sign validators genesisHash) l).known a
        (run cr (start sign validators genesisHash) l a).gadget ∧
      Backed validators byz genesisHash (run cr (start sign validators genesisHash) l).known
        (run cr (start sign validators genesisHash) l a).gadget.lastFinalized := by
  refine Parties.inv_of_known (FinalityNode.step cr) known (fun s e => Sound cr validators byz s e ∧ Heeds byz s e)
    (fun k a n => a ∉ byz → GadgetInv cr validators byz k a n.gadget ∧
      Backed validators byz genesisHash k n.gadget.lastFinalized)
    (fun k k' a n hk h ha => ⟨(h ha).1.mono hk, (h ha).2.mono hk⟩) (fun s e _ => known_step cr s e) ?_
    (start sign validators genesisHash) l ?_ hrun a ha
  · rintro s e ⟨hsound, hheeds⟩ hs ha
    have hgrows := known_step cr s e
    refine backed_acts ((s e.1).gadget_step cr e.2) (fun call he hchain => ⟨?_, fun b hb => ?_⟩)
      ⟨(hs e.1 ha).1.mono hgrows, (hs e.1 ha).2.mono hgrows⟩
    · refine soundCall_of_sound hsound ha call he ?_
      rw [step, Parties.act_self]
      exact hchain
    · have hannounced : b ∈ e.2.announced? := by
        unfold Event.announced?
        rw [he]
        exact hb
      obtain ⟨x, hx, hmem⟩ := hheeds ha b hannounced
      exact (certified_of_announced (fun a ha => (hs a ha).1) x hx b hmem).mono hgrows
  · intro a _
    exact ⟨.new cr byz _ a ⟨sign a, a⟩ validators genesisHash, Or.inl rfl⟩

/-- **Safety of what is taken for final.**  At any two moments of a run in which honest nodes hear the
announcements of honest nodes, two honest nodes that have finalized the same height have finalized
the same block, which is genesis or on the chain of an honest validator. -/
theorem lastFinalized_agree (cr : Crypto) (sign : AccountId → List UInt8 → Signature64)
    (validators byz : Finset AccountId) (genesisHash : Hash) (l : List (AccountId × Event))
    (hlarge : validators.card + byz.card < 2 * quorum validators.card)
    (hrun : Run.Meets (step cr) (fun s e => Sound cr validators byz s e ∧ Heeds byz s e)
      (start sign validators genesisHash) l) (a a' : AccountId) (ha : a ∉ byz) (ha' : a' ∉ byz) (i j : Nat) :
    let f := (run cr (start sign validators genesisHash) (l.take i) a).gadget.lastFinalized
    let f' := (run cr (start sign validators genesisHash) (l.take j) a').gadget.lastFinalized
    (f = ⟨0, genesisHash⟩ ∨ ∃ x ∈ validators, x ∉ byz ∧
      f ∈ (run cr (start sign validators genesisHash) l x).chain) ∧ (f.number = f'.number → f = f') := by
  intro f f'
  have h : (run cr (start sign validators genesisHash) l).Honest cr validators byz :=
    fun a ha => (backed_run l hrun a ha).1
  have hnumbered : ∀ a, (run cr (start sign validators genesisHash) l a).Numbered := fun a => numbered_run l a
  -- what was certified at some moment is certified in the end
  have hbacked : ∀ a k, a ∉ byz → Backed validators byz genesisHash (run cr (start sign validators genesisHash) l).known
      (run cr (start sign validators genesisHash) (l.take k) a).gadget.lastFinalized := by
    intro a k ha
    have htake := (backed_run (l.take k) (Run.meets_take _ _ _ l hrun k) a ha).2
    have hle := known_run cr (start sign validators genesisHash) l k (max k l.length) (le_max_left _ _)
    rw [List.take_of_length_le (le_max_right k l.length)] at hle
    exact htake.mono hle
  -- a certified block is on a chain, so its number is not that of genesis
  have hpositive : ∀ b, CertifiedBlock validators byz (run cr (start sign validators genesisHash) l).known b →
      (∃ x ∈ validators, x ∉ byz ∧ b ∈ (run cr (start sign validators genesisHash) l x).chain) ∧ b.number ≠ 0 := by
    intro b hb
    obtain ⟨x, hx, hnot, hchain, -⟩ := common_of_certified h hlarge b b hb hb
    refine ⟨⟨x, hx, hnot, hchain⟩, ?_⟩
    obtain ⟨n, hn⟩ := List.mem_iff_getElem?.mp hchain
    rw [hnumbered x n b hn]
    omega
  rcases hbacked a i ha with hf | hf <;> rcases hbacked a' j ha' with hf' | hf'
  · exact ⟨Or.inl hf, fun _ => hf.trans hf'.symm⟩
  · refine ⟨Or.inl hf, fun hnumber => absurd ?_ (hpositive _ hf').2⟩
    rw [← hnumber]
    exact congrArg Target.number hf
  · refine ⟨Or.inr (hpositive _ hf).1, fun hnumber => absurd ?_ (hpositive _ hf).2⟩
    rw [hnumber]
    exact congrArg Target.number hf'
  · exact ⟨Or.inr (hpositive _ hf).1, certified_unique h hnumbered hlarge _ _ hf hf'⟩

/-- Node 2 gets the announcement of node 0 in the place of the precommits. -/
def sampleHeard : List (AccountId × Event) :=
  sampleEvents.take 20 ++ [(⟨2⟩, .message .sorted 0 (.finalized ⟨1, ⟨1⟩⟩ 0 0))]

/-- What is heard announced was announced by node 0. -/
def HeedsFirst (s : FinalityNetwork) (e : AccountId × Event) : Prop :=
  ∀ b ∈ e.2.announced?, b ∈ (s ⟨0⟩).gadget.announcedBlocks

instance (s : FinalityNetwork) (e : AccountId × Event) : Decidable (HeedsFirst s e) :=
  inferInstanceAs (Decidable (∀ b ∈ e.2.announced?, b ∈ (s ⟨0⟩).gadget.announcedBlocks))

theorem sampleHeard_heeds : Run.Meets (step .sample)
    (fun s e => Sound .sample (firstValidators 4) {⟨3⟩} s e ∧ Heeds {⟨3⟩} s e)
    (start sampleSign (firstValidators 4) ⟨0⟩) sampleHeard := by
  refine Run.meets_of_inv (step .sample) (fun s e => Sound .sample (firstValidators 4) {⟨3⟩} s e ∧ HeedsFirst s e) _
    (fun _ => True) (fun _ _ _ _ => trivial) ?_ _ _ trivial (by decide +kernel)
  rintro s e - ⟨hsound, hheeds⟩
  exact ⟨hsound, fun _ b hb => ⟨⟨0⟩, by decide, hheeds b hb⟩⟩

theorem lastFinalized_agree_heard :
    (run .sample (start sampleSign (firstValidators 4) ⟨0⟩) (sampleHeard.take 20) ⟨0⟩).gadget.lastFinalized =
      (run .sample (start sampleSign (firstValidators 4) ⟨0⟩) (sampleHeard.take 21) ⟨2⟩).gadget.lastFinalized := by
  have h := lastFinalized_agree .sample sampleSign (firstValidators 4) {⟨3⟩} ⟨0⟩ sampleHeard (by decide)
    sampleHeard_heeds ⟨0⟩ ⟨2⟩ (by decide) (by decide) 20 21
  exact h.2 (by decide +kernel)

/-! ## One block per round, and the evidence -/

/-- Honest nodes start no round in which they have voted. -/
def Fresh (cr : Crypto) (byz : Finset AccountId) (s : FinalityNetwork) (e : AccountId × Event) : Prop :=
  e.1 ∉ byz → ∀ call ∈ e.2.call?, FinalityGadget.StartsFresh cr (s e.1).gadget call

instance (cr : Crypto) (byz : Finset AccountId) (s : FinalityNetwork) (e : AccountId × Event) :
    Decidable (Fresh cr byz s e) :=
  inferInstanceAs (Decidable (e.1 ∉ byz → ∀ call ∈ e.2.call?, FinalityGadget.StartsFresh cr (s e.1).gadget call))

theorem votesInv_acts {e : Event} {chain : List Target} {g g' : FinalityGadget}
    (hacts : FinalityNode.Acts cr e chain g g') (hfresh : ∀ call ∈ e.call?, FinalityGadget.StartsFresh cr g call)
    (h : g.ActiveInv cr ∧ g.VotesInv) : g'.ActiveInv cr ∧ g'.VotesInv := by
  cases hacts with
  | idle => exact h
  | calls call he hchain => exact FinalityGadget.votesInv_step cr g call h (hfresh call he)
  | sends => exact ⟨h.1, FinalityGadget.votesInv_congr g _ rfl rfl h.2⟩

/-- An honest node casts one ballot in a slot. -/
theorem cast_once (l : List (AccountId × Event))
    (hrun : Run.Meets (step cr) (fun s e => Sound cr validators byz s e ∧ Fresh cr byz s e)
      (start sign validators genesisHash) l) (a : AccountId) (ha : a ∉ byz) (b b' : FinalityBallot)
    (hb : (run cr (start sign validators genesisHash) l).known.cast a b)
    (hb' : (run cr (start sign validators genesisHash) l).known.cast a b') (hslot : b.slot = b'.slot) : b = b' := by
  have hinv : ∀ a, a ∉ byz → (run cr (start sign validators genesisHash) l a).gadget.ActiveInv cr ∧
      (run cr (start sign validators genesisHash) l a).gadget.VotesInv := by
    refine Run.inv_foldl (step cr) (fun s e => Sound cr validators byz s e ∧ Fresh cr byz s e)
      (fun s => ∀ a, a ∉ byz → (s a).gadget.ActiveInv cr ∧ (s a).gadget.VotesInv) ?_ _ l ?_ hrun
    · rintro s e hs ⟨-, hfresh⟩ a ha
      by_cases hae : a = e.1
      · subst hae
        rw [step, Parties.act_self]
        exact votesInv_acts ((s e.1).gadget_step cr e.2) (hfresh ha) (hs e.1 ha)
      · rw [step, Parties.act_ne _ s e a hae]
        exact hs a ha
    · intro a _
      refine ⟨fun r hr => ?_, FinalityGadget.votesInv_of_active_none _ (fun v hv => ?_) rfl⟩
      · cases hr
      · cases hv
  obtain ⟨v, hv, rfl⟩ := hb
  obtain ⟨w, hw, rfl⟩ := hb'
  have hty : v.voteType = w.voteType := congrArg Prod.fst hslot
  have hepoch : v.epoch = w.epoch := congrArg (fun x => x.2.1) hslot
  have hround : v.round = w.round := congrArg (fun x => x.2.2) hslot
  have htarget := (hinv a ha).2.once v hv w hw hty hepoch hround
  unfold FinalityVote.ballot
  rw [hty, hepoch, hround, htarget]

/-- **One block per round.** -/
theorem finalized_once (cr : Crypto) (sign : AccountId → List UInt8 → Signature64)
    (validators byz : Finset AccountId) (genesisHash : Hash) (l : List (AccountId × Event))
    (hlarge : validators.card + byz.card < 2 * quorum validators.card)
    (hrun : Run.Meets (step cr) (fun s e => Sound cr validators byz s e ∧ Fresh cr byz s e)
      (start sign validators genesisHash) l) (a a' : AccountId) (ha : a ∉ byz) (ha' : a' ∉ byz) (b b' : Target)
    (epoch round : Nat)
    (hb : FinalityMessage.finalized b epoch round ∈ (run cr (start sign validators genesisHash) l a).gadget.broadcasted)
    (hb' : FinalityMessage.finalized b' epoch round ∈
      (run cr (start sign validators genesisHash) l a').gadget.broadcasted) : b = b' := by
  have hsound := Run.meets_of_inv (step cr) (fun s e => Sound cr validators byz s e ∧ Fresh cr byz s e)
    (Sound cr validators byz) (fun _ => True) (fun _ _ _ _ => trivial) (fun _ _ _ h => h.1) _ l trivial hrun
  have hquorum := (gadgetInv_run l hsound a ha).announced b epoch round hb
  have hquorum' := (gadgetInv_run l hsound a' ha').announced b' epoch round hb'
  have heq := Quorum.Certified.unique FinalityBallot.slot hquorum hquorum' hlarge rfl
    fun x hx hcast hcast' hslot => cast_once l hrun x hx _ _ hcast hcast' hslot
  exact congrArg FinalityBallot.target heq

theorem finalized_once_first_round :
    FinalityMessage.finalized ⟨1, ⟨1⟩⟩ 0 0 ∈
      (run .sample (start sampleSign (firstValidators 4) ⟨0⟩) sampleEvents ⟨1⟩).gadget.broadcasted ∧
    (⟨1, ⟨1⟩⟩ : Target) = ⟨1, ⟨1⟩⟩ := by
  refine ⟨by decide +kernel, ?_⟩
  exact finalized_once .sample sampleSign (firstValidators 4) {⟨3⟩} ⟨0⟩ sampleEvents (by decide) (by decide +kernel) ⟨0⟩ ⟨1⟩
    (by decide) (by decide) ⟨1, ⟨1⟩⟩ ⟨1, ⟨1⟩⟩ 0 0 (by decide +kernel) (by decide +kernel)

/-- **Evidence.**  The double votes that an honest node's round has on record are of members of `byz`. -/
theorem accused_byzantine (cr : Crypto) (sign : AccountId → List UInt8 → Signature64)
    (validators byz : Finset AccountId) (genesisHash : Hash) (l : List (AccountId × Event))
    (hrun : Run.Meets (step cr) (fun s e => Sound cr validators byz s e ∧ Fresh cr byz s e)
      (start sign validators genesisHash) l) (a : AccountId) (ha : a ∉ byz) (r : FinalityRound)
    (hr : (run cr (start sign validators genesisHash) l a).gadget.rounds.activeRound = some r)
    (e : EquivocationProof) (he : e ∈ r.collector.equivocations) : e.validator ∈ byz := by
  have hsound := Run.meets_of_inv (step cr) (fun s e => Sound cr validators byz s e ∧ Fresh cr byz s e)
    (Sound cr validators byz) (fun _ => True) (fun _ _ _ _ => trivial) (fun _ _ _ h => h.1) _ l trivial hrun
  by_contra hnot
  obtain ⟨b, b', hcast, hcast', hslot, hne⟩ := ((gadgetInv_run l hsound a ha).active r hr).accused e he hnot
  exact hne (cast_once l hrun e.validator hnot b b' hcast hcast' hslot)

/-- Both votes of the last validator reach node 0. -/
def sampleDouble : List (AccountId × Event) :=
  [(⟨0⟩, .imported 0 ⟨1, ⟨1⟩⟩), (⟨0⟩, .vote .sorted 0 (voteOf .prevote 0 0 ⟨1, ⟨1⟩⟩ ⟨3⟩)),
    (⟨0⟩, .vote .sorted 0 (voteOf .prevote 0 0 ⟨1, ⟨2⟩⟩ ⟨3⟩))]

theorem accused_double : ∃ r e,
    (run .sample (start sampleSign (firstValidators 4) ⟨0⟩) sampleDouble ⟨0⟩).gadget.rounds.activeRound = some r ∧
      e ∈ r.collector.equivocations ∧ e.validator ∈ ({⟨3⟩} : Finset AccountId) := by
  have hproofs : ((run .sample (start sampleSign (firstValidators 4) ⟨0⟩) sampleDouble ⟨0⟩).gadget.rounds.activeRound.map
      fun r => r.collector.equivocations.length) = some 1 := by decide +kernel
  cases hr : (run .sample (start sampleSign (firstValidators 4) ⟨0⟩) sampleDouble ⟨0⟩).gadget.rounds.activeRound with
  | none =>
    rw [hr] at hproofs
    cases hproofs
  | some r =>
    rw [hr, Option.map_some, Option.some_inj] at hproofs
    obtain ⟨e, he⟩ := List.length_eq_one_iff.mp hproofs
    have hmem : e ∈ r.collector.equivocations := he ▸ List.mem_singleton_self e
    exact ⟨r, e, rfl, hmem, accused_byzantine .sample sampleSign (firstValidators 4) {⟨3⟩} ⟨0⟩ sampleDouble
      (by decide +kernel) ⟨0⟩ (by decide) r hr e hmem⟩

end FinalityNetwork

end Kratos
