import Kratos.Finality.Transitions

/-!
# The gadget in the node

The integration passes the node's events to the gadget while finality is active, and keeps the
voters of the last finalized block for the rewards.  A block, a vote, a tick are held back while
there are fewer than three validators; the other messages are not.

The node tells its gadget of a block once it is on its chain, which grows one number at a time.
To the gadget each event of the node is at most one call (`gadget_step`).
-/

namespace Kratos

/-- Finality needs at least so many validators. -/
def minValidatorsForFinality : Nat := 3

namespace FinalityGadget

/-- The first justification that was kept for a block number. -/
def getJustification (g : FinalityGadget) (blockNumber : Nat) : Option FinalityJustification :=
  g.justifications.find? fun j => decide (j.block.number = blockNumber)

/-- The messages queued for the network, and the gadget without them. -/
def drainOutbound (g : FinalityGadget) : FinalityGadget × List FinalityMessage :=
  ({ g with outboundQueue := [] }, g.outboundQueue)

end FinalityGadget

structure FinalityIntegration where
  gadget : FinalityGadget
  lastFinalityVoters : List AccountId
  lastFinalized : Nat
  isActive : Bool

namespace FinalityIntegration

def new (signer : FinalitySigner) (validators : Finset AccountId) (genesisHash : Hash) : FinalityIntegration :=
  { gadget := .new signer validators genesisHash, lastFinalityVoters := [], lastFinalized := 0
    isActive := decide (validators.card ≥ minValidatorsForFinality) }

def onBlockImported (now : Nat) (i : FinalityIntegration) (b : Target) : FinalityIntegration :=
  if !i.isActive then i else { i with gadget := i.gadget.onBlockImported now b }

/-- The voters are returned, and kept, if the vote finalized a block. -/
def onFinalityVote (cr : Crypto) (ord : HashOrder) (now : Nat) (i : FinalityIntegration) (vote : FinalityVote) :
    FinalityIntegration × Option (List AccountId) :=
  if !i.isActive then (i, none)
  else
    let g := (i.gadget.onMessage cr ord now (.vote vote)).1
    match (i.gadget.onMessage cr ord now (.vote vote)).2 with
    | some (.finalized block) =>
      match g.getJustification block.number with
      | some justification =>
        let voters := justification.signatures.map Prod.fst
        ({ i with gadget := g, lastFinalityVoters := voters, lastFinalized := block.number }, some voters)
      | none => ({ i with gadget := g }, none)
    | _ => ({ i with gadget := g }, none)

def onFinalityMessage (cr : Crypto) (ord : HashOrder) (now : Nat) (i : FinalityIntegration) :
    FinalityMessage → FinalityIntegration × Option (List AccountId)
  | .vote vote => i.onFinalityVote cr ord now vote
  | other => ({ i with gadget := (i.gadget.onMessage cr ord now other).1 }, none)

def tick (now delay : Nat) (i : FinalityIntegration) : FinalityIntegration × Bool :=
  if !i.isActive then (i, false)
  else ({ i with gadget := (i.gadget.tick now delay).1 }, (i.gadget.tick now delay).2)

def updateValidators (i : FinalityIntegration) (validators : Finset AccountId) : FinalityIntegration :=
  { i with isActive := decide (validators.card ≥ minValidatorsForFinality)
           gadget := i.gadget.updateValidators validators }

def newEpoch (i : FinalityIntegration) (epoch : Nat) : FinalityIntegration :=
  { i with gadget := i.gadget.newEpoch epoch }

def drainOutbound (i : FinalityIntegration) : FinalityIntegration × List FinalityMessage :=
  ({ i with gadget := i.gadget.drainOutbound.1 }, i.gadget.drainOutbound.2)

theorem gadget_onFinalityVote (cr : Crypto) (ord : HashOrder) (now : Nat) (i : FinalityIntegration)
    (vote : FinalityVote) :
    (i.onFinalityVote cr ord now vote).1.gadget = i.gadget ∨
      (i.onFinalityVote cr ord now vote).1.gadget = (i.gadget.onMessage cr ord now (.vote vote)).1 := by
  unfold onFinalityVote
  split
  · exact Or.inl rfl
  · right
    simp only
    split
    · split <;> rfl
    · rfl

end FinalityIntegration

/-! ## The node -/

/-- A validator node, as far as finality goes: the blocks above genesis on its chain, and the gadget. -/
structure FinalityNode where
  chain : List Target
  integration : FinalityIntegration

namespace FinalityNode

/-- What can happen to a node: its chain grows, something of the network arrives, its timer, the
validator set or a new epoch asks for the gadget, or the queued messages are sent. -/
inductive Event where
  | imported (now : Nat) (b : Target)
  | vote (ord : HashOrder) (now : Nat) (v : FinalityVote)
  | message (ord : HashOrder) (now : Nat) (m : FinalityMessage)
  | tick (now delay : Nat)
  | updateValidators (validators : Finset AccountId)
  | newEpoch (epoch : Nat)
  | broadcast

def new (signer : FinalitySigner) (validators : Finset AccountId) (genesisHash : Hash) : FinalityNode :=
  { chain := [], integration := .new signer validators genesisHash }

def gadget (n : FinalityNode) : FinalityGadget := n.integration.gadget

def step (cr : Crypto) (n : FinalityNode) : Event → FinalityNode
  | .imported now b =>
    -- the number has to follow the chain's height
    if b.number ≠ n.chain.length + 1 then n
    else { chain := n.chain ++ [b], integration := n.integration.onBlockImported now b }
  | .vote ord now v => { n with integration := (n.integration.onFinalityVote cr ord now v).1 }
  | .message ord now m => { n with integration := (n.integration.onFinalityMessage cr ord now m).1 }
  | .tick now delay => { n with integration := (n.integration.tick now delay).1 }
  | .updateValidators validators => { n with integration := n.integration.updateValidators validators }
  | .newEpoch epoch => { n with integration := n.integration.newEpoch epoch }
  | .broadcast => { n with integration := n.integration.drainOutbound.1 }

/-- The call an event makes. -/
def Event.call? : Event → Option FinalityGadget.Call
  | .imported now b => some (.onBlockImported now b)
  | .vote ord now v => some (.onMessage ord now (.vote v))
  | .message ord now m => some (.onMessage ord now m)
  | .tick now delay => some (.tick now delay)
  | .updateValidators validators => some (.updateValidators validators)
  | .newEpoch epoch => some (.newEpoch epoch)
  | .broadcast => none

/-- The votes an event brings. -/
def Event.votes (e : Event) : List FinalityVote := e.call?.elim [] FinalityGadget.Call.votes

def Event.announced? (e : Event) : Option Target := e.call?.bind FinalityGadget.Call.announced?

def Event.validators? (e : Event) : Option (Finset AccountId) := e.call?.bind FinalityGadget.Call.validators?

/-- What an event can do to the gadget of a node whose chain is then `chain`: nothing, one call,
or the sending of the queue. -/
inductive Acts (cr : Crypto) (e : Event) (chain : List Target) (g : FinalityGadget) : FinalityGadget → Prop
  | idle : Acts cr e chain g g
  | calls (call : FinalityGadget.Call) (hcall : e.call? = some call)
      (hchain : ∀ b, call.imported? = some b → b ∈ chain) : Acts cr e chain g (g.step cr call)
  | sends : Acts cr e chain g { g with outboundQueue := [] }

theorem acts_vote (cr : Crypto) (e : Event) (chain : List Target) (i : FinalityIntegration) (ord : HashOrder)
    (now : Nat) (v : FinalityVote) (he : e.call? = some (.onMessage ord now (.vote v))) :
    Acts cr e chain i.gadget (i.onFinalityVote cr ord now v).1.gadget := by
  rcases i.gadget_onFinalityVote cr ord now v with heq | heq
  · rw [heq]
    exact .idle
  · rw [heq]
    exact .calls (.onMessage ord now (.vote v)) he nofun

/-- **Inversion.** -/
theorem gadget_step (cr : Crypto) (n : FinalityNode) (e : Event) :
    Acts cr e (n.step cr e).chain n.gadget (n.step cr e).gadget := by
  cases e with
  | imported now b =>
    have hstep : n.step cr (.imported now b) = if b.number ≠ n.chain.length + 1 then n
        else { chain := n.chain ++ [b], integration := n.integration.onBlockImported now b } := rfl
    rw [hstep]
    split
    · exact .idle
    · show Acts cr _ (n.chain ++ [b]) n.gadget (n.integration.onBlockImported now b).gadget
      unfold FinalityIntegration.onBlockImported
      split
      · exact .idle
      · refine .calls (.onBlockImported now b) rfl ?_
        rintro c ⟨⟩
        exact List.mem_append_right _ (List.mem_singleton_self b)
  | vote ord now v => exact acts_vote cr _ _ n.integration ord now v rfl
  | message ord now m =>
    cases m with
    | vote v => exact acts_vote cr _ _ n.integration ord now v rfl
    | requestVotes epoch round => exact .calls (.onMessage ord now (.requestVotes epoch round)) rfl nofun
    | finalized block epoch round => exact .calls (.onMessage ord now (.finalized block epoch round)) rfl nofun
    | catchUpRequest fromRound toRound epoch =>
      exact .calls (.onMessage ord now (.catchUpRequest fromRound toRound epoch)) rfl nofun
    | catchUpResponse votes epoch => exact .calls (.onMessage ord now (.catchUpResponse votes epoch)) rfl nofun
  | tick now delay =>
    show Acts cr _ n.chain n.gadget (n.integration.tick now delay).1.gadget
    unfold FinalityIntegration.tick
    split
    · exact .idle
    · exact .calls (.tick now delay) rfl nofun
  | updateValidators validators => exact .calls (.updateValidators validators) rfl nofun
  | newEpoch epoch => exact .calls (.newEpoch epoch) rfl nofun
  | broadcast => exact .sends

/-- The chain stays or grows by the block that comes next. -/
theorem chain_step (cr : Crypto) (n : FinalityNode) (e : Event) :
    (n.step cr e).chain = n.chain ∨
      ∃ b, b.number = n.chain.length + 1 ∧ (n.step cr e).chain = n.chain ++ [b] := by
  cases e with
  | imported now b =>
    have hstep : n.step cr (.imported now b) = if b.number ≠ n.chain.length + 1 then n
        else { chain := n.chain ++ [b], integration := n.integration.onBlockImported now b } := rfl
    rw [hstep]
    split
    · exact Or.inl rfl
    · next hb => exact Or.inr ⟨b, not_not.mp hb, rfl⟩
  | _ => exact Or.inl rfl

/-- The block at each place of the chain has the number of its place. -/
def Numbered (n : FinalityNode) : Prop := ∀ i b, n.chain[i]? = some b → b.number = i + 1

theorem numbered_step (cr : Crypto) (n : FinalityNode) (e : Event) (h : n.Numbered) : (n.step cr e).Numbered := by
  intro i c hi
  rcases n.chain_step cr e with heq | ⟨b, hb, heq⟩
  · rw [heq] at hi
    exact h i c hi
  · rw [heq] at hi
    rcases Nat.lt_trichotomy i n.chain.length with hlt | rfl | hgt
    · rw [List.getElem?_append_left hlt] at hi
      exact h i c hi
    · rw [List.getElem?_concat_length] at hi
      cases hi
      exact hb
    · rw [List.getElem?_eq_none (by rw [List.length_append, List.length_singleton]; omega)] at hi
      cases hi

/-- A chain has one block of a number. -/
theorem Numbered.unique {n : FinalityNode} (h : n.Numbered) (b b' : Target) (hb : b ∈ n.chain) (hb' : b' ∈ n.chain)
    (hnumber : b.number = b'.number) : b = b' := by
  obtain ⟨i, hi⟩ := List.mem_iff_getElem?.mp hb
  obtain ⟨j, hj⟩ := List.mem_iff_getElem?.mp hb'
  have hij : i = j := by
    have := h i b hi
    have := h j b' hj
    omega
  rw [hij, hj] at hi
  exact (Option.some.inj hi).symm

end FinalityNode

end Kratos
