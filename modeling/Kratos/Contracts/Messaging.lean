import Kratos.Lib.Fallible
import Kratos.Lib.IterOrder
import Kratos.Lib.Run
import Kratos.Lib.SortedMap
import Kratos.Types.Merkle

/-!
# Cross-chain messages

A message is sent, relayed with an inclusion proof and delivered if the proof is
found good; it may be cancelled before it is relayed, and it expires.  Message ids,
nonces, counts and block numbers are natural numbers.

`Change` lists what one call can do to one message.  A finished message stays as it
is unless `verifyAndDeliver` is called for it after its expiry, which looks at the
expiry before it looks at the status (`settled_iff`).
-/

namespace Kratos

def maxMessagesPerBlock : Nat := 100

/-- 7 days. -/
def messageExpiry : Nat := 100800

/-- 64 KB. -/
def maxPayloadSize : Nat := 65536

def baseMessageFee : Balance := 1

inductive GovernanceNotificationType where
  | exitInitiated
  | chainPurged
  | validatorSlashed
  | proposalPassed
deriving DecidableEq, Repr

inductive ArbitrationAction where
  | disputeRaised
  | evidenceSubmitted
  | jurySelected
  | verdictDelivered
  | enforcementExecuted
deriving DecidableEq, Repr

inductive MessageType where
  | dataTransfer
  | assetTransfer (amount : Balance) (assetId : Option Hash)
  | governanceNotification (notificationType : GovernanceNotificationType)
  | arbitrationMessage (disputeId : Nat) (action : ArbitrationAction)
  | stateRootCommitment (blockNumber : Nat) (stateRoot : Hash)
  | validatorSetUpdate (validators : List AccountId) (threshold : Nat)
  | custom (typeTag : String)
deriving DecidableEq, Repr

inductive MessageStatus where
  | pending
  | inOutbox
  | relayed
  | delivered
  | failed
  | expired
  | cancelled
deriving DecidableEq, Repr

structure CrossChainMessage where
  id : Nat
  sourceChain : ChainId
  targetChain : ChainId
  sender : AccountId
  recipient : Option AccountId
  messageType : MessageType
  payloadHash : Hash
  payload : List UInt8
  sourceStateRoot : Hash
  inclusionProof : Option MerkleProof
  createdAt : Nat
  expiresAt : Nat
  status : MessageStatus
  fee : Balance
  nonce : Nat
deriving DecidableEq, Repr

structure MessageVerification where
  isValid : Bool
  messageId : Nat
  sourceChain : ChainId
  error : Option String
deriving DecidableEq, Repr

inductive MessagingError where
  | messageNotFound
  | payloadTooLarge
  | tooManyMessagesInBlock
  | insufficientFee
  | cannotMessageSelf
  | invalidMessageState
  | noInclusionProof
  | notSender
  | cannotCancel
deriving DecidableEq, Repr

structure MessagingContract where
  messages : SortedMap Nat CrossChainMessage
  outbox : SortedMap ChainId (List Nat)
  inbox : SortedMap ChainId (List Nat)
  nextMessageId : Nat
  nonces : SortedMap (ChainId ×ₗ AccountId) Nat
  knownStateRoots : SortedMap (ChainId ×ₗ Nat) Hash
  messagesPerBlock : SortedMap (ChainId ×ₗ Nat) Nat

namespace MessagingContract

def new : MessagingContract :=
  { messages := .empty, outbox := .empty, inbox := .empty, nextMessageId := 1, nonces := .empty
    knownStateRoots := .empty, messagesPerBlock := .empty }

def registerStateRoot (s : MessagingContract) (chainId : ChainId) (blockNumber : Nat) (stateRoot : Hash) :
    MessagingContract :=
  { s with knownStateRoots := s.knownStateRoots.insert (toLex (chainId, blockNumber)) stateRoot }

/-- Add to the queue of a chain. -/
def pushBack (m : SortedMap ChainId (List Nat)) (chainId : ChainId) (messageId : Nat) :
    SortedMap ChainId (List Nat) :=
  m.insert chainId ((m.find? chainId).getD [] ++ [messageId])

/-- The count of the block is entered as soon as it is looked up, also if the call fails later. -/
def sendMessage (cr : Crypto) (s : MessagingContract) (sourceChain targetChain : ChainId) (sender : AccountId)
    (recipient : Option AccountId) (messageType : MessageType) (payload : List UInt8)
    (sourceStateRoot : Hash) (currentBlock : Nat) (fee : Balance) :
    MessagingContract × Except MessagingError Nat :=
  if payload.length > maxPayloadSize then (s, .error .payloadTooLarge)
  else
    let blockKey := toLex (sourceChain, currentBlock)
    let blockCount := (s.messagesPerBlock.find? blockKey).getD 0
    let s := { s with messagesPerBlock := s.messagesPerBlock.insert blockKey blockCount }
    if blockCount ≥ maxMessagesPerBlock then (s, .error .tooManyMessagesInBlock)
    else if fee < baseMessageFee then (s, .error .insufficientFee)
    else if sourceChain = targetChain then (s, .error .cannotMessageSelf)
    else
      let nonceKey := toLex (sourceChain, sender)
      let nonce := (s.nonces.find? nonceKey).getD 0
      let messageId := s.nextMessageId
      let message : CrossChainMessage :=
        { id := messageId, sourceChain, targetChain, sender, recipient, messageType
          payloadHash := cr.blake3 payload, payload, sourceStateRoot, inclusionProof := none
          createdAt := currentBlock, expiresAt := currentBlock + messageExpiry, status := .pending, fee, nonce }
      ({ s with
         nonces := s.nonces.insert nonceKey (nonce + 1)
         nextMessageId := messageId + 1
         messages := s.messages.insert messageId message
         outbox := pushBack s.outbox sourceChain messageId
         messagesPerBlock := s.messagesPerBlock.insert blockKey (blockCount + 1) }, .ok messageId)

def relayMessage (s : MessagingContract) (messageId : Nat) (inclusionProof : MerkleProof) :
    Except MessagingError MessagingContract :=
  match s.messages.find? messageId with
  | none => .error .messageNotFound
  | some message =>
    if message.status ≠ .pending ∧ message.status ≠ .inOutbox then .error .invalidMessageState
    else
      .ok { s with
            messages := s.messages.insert messageId
              { message with inclusionProof := some inclusionProof, status := .relayed }
            inbox := pushBack s.inbox message.targetChain messageId }

/-- Write a status and report it. -/
def settle (s : MessagingContract) (messageId : Nat) (message : CrossChainMessage) (status : MessageStatus)
    (error : Option String) : MessagingContract × MessageVerification :=
  ({ s with messages := s.messages.insert messageId { message with status } },
    { isValid := decide (status = .delivered), messageId, sourceChain := message.sourceChain, error })

/-- The expiry comes before the status; a root that is not known is not compared. -/
def verifyAndDeliver (cr : Crypto) (s : MessagingContract) (messageId currentBlock : Nat) :
    Except MessagingError (MessagingContract × MessageVerification) :=
  match s.messages.find? messageId with
  | none => .error .messageNotFound
  | some message =>
    if currentBlock > message.expiresAt then .ok (s.settle messageId message .expired (some "Message expired"))
    else if message.status ≠ .relayed then .error .invalidMessageState
    else
      match message.inclusionProof with
      | none => .error .noInclusionProof
      | some proof =>
        let knownRoot := s.knownStateRoots.find? (toLex (message.sourceChain, proof.blockNumber))
        if knownRoot.any fun root => decide (proof.root ≠ root) then
          .ok (s.settle messageId message .failed (some "State root mismatch"))
        else if proof.verify cr = false then
          .ok (s.settle messageId message .failed (some "Invalid Merkle proof"))
        else .ok (s.settle messageId message .delivered none)

/-- With the fee that is given back. -/
def cancelMessage (s : MessagingContract) (messageId : Nat) (caller : AccountId) :
    Except MessagingError (MessagingContract × Balance) :=
  match s.messages.find? messageId with
  | none => .error .messageNotFound
  | some message =>
    if message.sender ≠ caller then .error .notSender
    else if message.status ≠ .pending then .error .cannotCancel
    else
      .ok ({ s with messages := s.messages.insert messageId { message with status := .cancelled } }, message.fee)

def isStale (currentBlock : Nat) (message : CrossChainMessage) : Bool :=
  decide (currentBlock > message.expiresAt) &&
    match message.status with
    | .pending | .inOutbox | .relayed => true
    | _ => false

def expireOldMessages (order : IterOrder Nat) (s : MessagingContract) (currentBlock : Nat) :
    MessagingContract × List Nat :=
  ({ s with
     messages := s.messages.map fun _ message =>
       if isStale currentBlock message then { message with status := .expired } else message },
    order.iter (s.messages.filter fun _ message => isStale currentBlock message).keys)

end MessagingContract

/-- A call of the contract. -/
inductive MessagingOp where
  | registerStateRoot (chainId : ChainId) (blockNumber : Nat) (stateRoot : Hash)
  | sendMessage (sourceChain targetChain : ChainId) (sender : AccountId) (recipient : Option AccountId)
      (messageType : MessageType) (payload : List UInt8) (sourceStateRoot : Hash) (currentBlock : Nat)
      (fee : Balance)
  | relayMessage (messageId : Nat) (inclusionProof : MerkleProof)
  | verifyAndDeliver (messageId currentBlock : Nat)
  | cancelMessage (messageId : Nat) (caller : AccountId)
  | expireOldMessages (order : IterOrder Nat) (currentBlock : Nat)

namespace MessagingContract

def apply (cr : Crypto) (s : MessagingContract) : MessagingOp → MessagingContract
  | .registerStateRoot chainId blockNumber stateRoot => s.registerStateRoot chainId blockNumber stateRoot
  | .sendMessage sourceChain targetChain sender recipient messageType payload sourceStateRoot currentBlock fee =>
    (s.sendMessage cr sourceChain targetChain sender recipient messageType payload sourceStateRoot currentBlock
      fee).1
  | .relayMessage messageId inclusionProof => (s.relayMessage messageId inclusionProof).orKeep s
  | .verifyAndDeliver messageId currentBlock =>
    ((s.verifyAndDeliver cr messageId currentBlock).map Prod.fst).orKeep s
  | .cancelMessage messageId caller => ((s.cancelMessage messageId caller).map Prod.fst).orKeep s
  | .expireOldMessages order currentBlock => (expireOldMessages order s currentBlock).1

/-- The contract after a run from the empty one. -/
def after (cr : Crypto) (ops : List MessagingOp) : MessagingContract := ops.foldl (apply cr) .new

/-! ## What a call does to a message -/

/-- The change of the message with the given id. -/
inductive Change (cr : Crypto) (s : MessagingContract) (op : MessagingOp) (id : Nat)
    (m : CrossChainMessage) : CrossChainMessage → Prop where
  | same : Change cr s op id m m
  | relay (proof : MerkleProof) (hop : op = .relayMessage id proof)
      (hs : m.status = .pending ∨ m.status = .inOutbox) :
      Change cr s op id m { m with inclusionProof := some proof, status := .relayed }
  | overdue (b : Nat) (hop : op = .verifyAndDeliver id b) (hb : m.expiresAt < b) :
      Change cr s op id m { m with status := .expired }
  | fail (b : Nat) (hop : op = .verifyAndDeliver id b) (hs : m.status = .relayed) :
      Change cr s op id m { m with status := .failed }
  | deliver (b : Nat) (proof : MerkleProof) (hop : op = .verifyAndDeliver id b) (hb : b ≤ m.expiresAt)
      (hs : m.status = .relayed) (hp : m.inclusionProof = some proof)
      (hroot : (s.knownStateRoots.find? (toLex (m.sourceChain, proof.blockNumber))).all
        (fun root => decide (proof.root = root)) = true)
      (hv : proof.verify cr = true) :
      Change cr s op id m { m with status := .delivered }
  | cancel (hop : op = .cancelMessage id m.sender) (hs : m.status = .pending) :
      Change cr s op id m { m with status := .cancelled }
  | sweep (order : IterOrder Nat) (b : Nat) (hop : op = .expireOldMessages order b)
      (hs : isStale b m = true) : Change cr s op id m { m with status := .expired }

/-- The ids in use are below the next one. -/
def Numbered (s : MessagingContract) : Prop :=
  ∀ id m, s.messages.find? id = some m → id < s.nextMessageId

/-- A send leaves the messages alone or stores a pending one under the next id. -/
theorem sendMessage_messages (cr : Crypto) (s : MessagingContract) (src dst : ChainId) (sender : AccountId)
    (recipient : Option AccountId) (ty : MessageType) (payload : List UInt8) (root : Hash) (b : Nat)
    (fee : Balance) :
    let t := (s.sendMessage cr src dst sender recipient ty payload root b fee).1
    t.knownStateRoots = s.knownStateRoots ∧
      (t.messages = s.messages ∧ t.nextMessageId = s.nextMessageId ∨
        ∃ m, m.status = .pending ∧ t.messages = s.messages.insert s.nextMessageId m ∧
          t.nextMessageId = s.nextMessageId + 1) := by
  unfold sendMessage
  split
  · exact ⟨rfl, .inl ⟨rfl, rfl⟩⟩
  simp only
  split
  · exact ⟨rfl, .inl ⟨rfl, rfl⟩⟩
  split
  · exact ⟨rfl, .inl ⟨rfl, rfl⟩⟩
  split
  · exact ⟨rfl, .inl ⟨rfl, rfl⟩⟩
  · exact ⟨rfl, .inr ⟨_, rfl, rfl, rfl⟩⟩

/-- What a verification that returns writes. -/
theorem verifyAndDeliver_ok (cr : Crypto) (s t : MessagingContract) (i b : Nat) (r : MessageVerification)
    (h : s.verifyAndDeliver cr i b = .ok (t, r)) :
    ∃ m m', s.messages.find? i = some m ∧ Change cr s (.verifyAndDeliver i b) i m m' ∧
      t = { s with messages := s.messages.insert i m' } := by
  unfold verifyAndDeliver at h
  cases hf : s.messages.find? i with
  | none => simp [hf] at h
  | some m =>
    simp only [hf] at h
    by_cases hb : m.expiresAt < b
    · rw [if_pos hb] at h
      cases h
      exact ⟨m, _, rfl, .overdue b rfl hb, rfl⟩
    · rw [if_neg hb] at h
      by_cases hs : m.status = .relayed
      · rw [if_neg (not_not.mpr hs)] at h
        cases hp : m.inclusionProof with
        | none => simp [hp] at h
        | some proof =>
          simp only [hp] at h
          split at h
          · cases h
            exact ⟨m, _, rfl, .fail b rfl hs, rfl⟩
          · next hroot =>
            split at h
            · cases h
              exact ⟨m, _, rfl, .fail b rfl hs, rfl⟩
            · next hv =>
              cases h
              refine ⟨m, _, rfl, .deliver b proof rfl (by omega) hs hp ?_ (by simpa using hv), rfl⟩
              cases hk : s.knownStateRoots.find? (toLex (m.sourceChain, proof.blockNumber)) with
              | none => rfl
              | some root => simpa [hk] using hroot
      · simp [hs] at h

theorem relayMessage_ok (cr : Crypto) (s t : MessagingContract) (i : Nat) (proof : MerkleProof)
    (h : s.relayMessage i proof = .ok t) :
    ∃ m m', s.messages.find? i = some m ∧ Change cr s (.relayMessage i proof) i m m' ∧
      (m.status = .pending ∨ m.status = .inOutbox) ∧ m'.status = .relayed ∧
      t.messages = s.messages.insert i m' ∧ t.nextMessageId = s.nextMessageId ∧
      t.knownStateRoots = s.knownStateRoots := by
  unfold relayMessage at h
  cases hf : s.messages.find? i with
  | none => simp [hf] at h
  | some m =>
    simp only [hf] at h
    split at h
    · cases h
    · next hs =>
      cases h
      have hopen : m.status = .pending ∨ m.status = .inOutbox := by
        by_cases hp : m.status = .pending
        · exact .inl hp
        · by_cases ho : m.status = .inOutbox
          · exact .inr ho
          · exact absurd ⟨hp, ho⟩ hs
      exact ⟨m, _, rfl, .relay proof rfl hopen, hopen, rfl, rfl, rfl, rfl⟩

theorem cancelMessage_ok (cr : Crypto) (s t : MessagingContract) (i : Nat) (caller : AccountId) (fee : Balance)
    (h : s.cancelMessage i caller = .ok (t, fee)) :
    ∃ m m', s.messages.find? i = some m ∧ Change cr s (.cancelMessage i caller) i m m' ∧ m.status = .pending ∧
      m'.status = .cancelled ∧ fee = m.fee ∧ t = { s with messages := s.messages.insert i m' } := by
  unfold cancelMessage at h
  cases hf : s.messages.find? i with
  | none => simp [hf] at h
  | some m =>
    simp only [hf] at h
    by_cases hsender : m.sender = caller
    · rw [if_neg (not_not.mpr hsender)] at h
      by_cases hs : m.status = .pending
      · rw [if_neg (not_not.mpr hs)] at h
        cases h
        exact ⟨m, _, rfl, .cancel (by rw [hsender]) hs, hs, rfl, rfl, rfl⟩
      · simp [hs] at h
    · simp [hsender] at h

/-- The messages after a call: each is changed as `Change` says, or a new one is pending. -/
def Changes (cr : Crypto) (s : MessagingContract) (op : MessagingOp) (t : MessagingContract) : Prop :=
  (∀ id m, s.messages.find? id = some m → ∃ m', t.messages.find? id = some m' ∧ Change cr s op id m m') ∧
    (∀ id m', s.messages.find? id = none → t.messages.find? id = some m' → m'.status = .pending) ∧ t.Numbered

theorem changes_refl (cr : Crypto) (s t : MessagingContract) (op : MessagingOp) (hs : s.Numbered)
    (hm : t.messages = s.messages) (hn : t.nextMessageId = s.nextMessageId) : Changes cr s op t := by
  refine ⟨?_, ?_, ?_⟩
  · intro id m hf
    exact ⟨m, by rw [hm]; exact hf, .same⟩
  · intro id m' hnone hf
    rw [hm, hnone] at hf
    cases hf
  · intro id m hf
    rw [hm] at hf
    rw [hn]
    exact hs id m hf

/-- A call that writes one message. -/
theorem changes_insert (cr : Crypto) (s t : MessagingContract) (op : MessagingOp) (i : Nat)
    (m m' : CrossChainMessage) (hs : s.Numbered) (hf : s.messages.find? i = some m)
    (hc : Change cr s op i m m') (hm : t.messages = s.messages.insert i m')
    (hn : t.nextMessageId = s.nextMessageId) : Changes cr s op t := by
  have hfind : ∀ id, t.messages.find? id = if id = i then some m' else s.messages.find? id := by
    intro id
    rw [hm]
    exact SortedMap.find?_insert _ _ _ _
  refine ⟨?_, ?_, ?_⟩
  · intro id r hr
    rw [hfind]
    by_cases hi : id = i
    · subst hi
      rw [hf] at hr
      obtain rfl := Option.some.inj hr
      rw [if_pos rfl]
      exact ⟨m', rfl, hc⟩
    · rw [if_neg hi]
      exact ⟨r, hr, .same⟩
  · intro id r hnone hr
    rw [hfind] at hr
    by_cases hi : id = i
    · rw [hi, hf] at hnone
      cases hnone
    · rw [if_neg hi, hnone] at hr
      cases hr
  · intro id r hr
    rw [hn]
    rw [hfind] at hr
    by_cases hi : id = i
    · exact hi ▸ hs i m hf
    · rw [if_neg hi] at hr
      exact hs id r hr

/-- **Step lemma.** -/
theorem apply_changes (cr : Crypto) (s : MessagingContract) (op : MessagingOp) (hs : s.Numbered) :
    Changes cr s op (s.apply cr op) := by
  cases op with
  | registerStateRoot c b root => exact changes_refl cr s _ _ hs rfl rfl
  | sendMessage src dst sender recipient ty payload root b fee =>
    obtain ⟨-, ⟨hm, hn⟩ | ⟨m, hp, hm, hn⟩⟩ :=
      sendMessage_messages cr s src dst sender recipient ty payload root b fee
    · exact changes_refl cr s _ _ hs hm hn
    · -- the next id is not in use
      have hfind : ∀ id, (s.apply cr (.sendMessage src dst sender recipient ty payload root b fee)).messages.find?
          id = if id = s.nextMessageId then some m else s.messages.find? id := by
        intro id
        show (s.sendMessage cr src dst sender recipient ty payload root b fee).1.messages.find? id = _
        rw [hm]
        exact SortedMap.find?_insert _ _ _ _
      refine ⟨?_, ?_, ?_⟩
      · intro id r hr
        have hlt := hs id r hr
        rw [hfind, if_neg (by omega)]
        exact ⟨r, hr, .same⟩
      · intro id r hnone hr
        rw [hfind] at hr
        by_cases hi : id = s.nextMessageId
        · rw [if_pos hi] at hr
          obtain rfl := Option.some.inj hr
          exact hp
        · rw [if_neg hi, hnone] at hr
          cases hr
      · intro id r hr
        show id < (s.sendMessage cr src dst sender recipient ty payload root b fee).1.nextMessageId
        rw [hn]
        rw [hfind] at hr
        by_cases hi : id = s.nextMessageId
        · omega
        · rw [if_neg hi] at hr
          have := hs id r hr
          omega
  | relayMessage i proof =>
    apply Except.orKeep_of (Changes cr s _) _ s (changes_refl cr s s _ hs rfl rfl)
    intro t ht
    obtain ⟨m, m', hf, hc, -, -, hm, hn, -⟩ := relayMessage_ok cr s t i proof ht
    exact changes_insert cr s t _ i m m' hs hf hc hm hn
  | verifyAndDeliver i b =>
    apply Except.orKeep_map_of (Changes cr s _) _ s (changes_refl cr s s _ hs rfl rfl)
    intro t r ht
    obtain ⟨m, m', hf, hc, rfl⟩ := verifyAndDeliver_ok cr s t i b r ht
    exact changes_insert cr s _ _ i m m' hs hf hc rfl rfl
  | cancelMessage i caller =>
    apply Except.orKeep_map_of (Changes cr s _) _ s (changes_refl cr s s _ hs rfl rfl)
    intro t fee ht
    obtain ⟨m, m', hf, hc, -, -, -, rfl⟩ := cancelMessage_ok cr s t i caller fee ht
    exact changes_insert cr s _ _ i m m' hs hf hc rfl rfl
  | expireOldMessages order b =>
    have hfind : ∀ id, (expireOldMessages order s b).1.messages.find? id =
        (s.messages.find? id).map fun m => if isStale b m then { m with status := .expired } else m := by
      intro id
      exact SortedMap.find?_map _ _ _
    refine ⟨?_, ?_, ?_⟩
    · intro id m hf
      refine ⟨if isStale b m then { m with status := .expired } else m, ?_, ?_⟩
      · show (expireOldMessages order s b).1.messages.find? id = _
        rw [hfind, hf]
        rfl
      · by_cases hstale : isStale b m = true
        · rw [if_pos hstale]
          exact .sweep order b rfl hstale
        · rw [if_neg hstale]
          exact .same
    · intro id m' hnone hf
      have hf' : (expireOldMessages order s b).1.messages.find? id = some m' := hf
      rw [hfind, hnone] at hf'
      cases hf'
    · intro id m hf
      have hf' : (expireOldMessages order s b).1.messages.find? id = some m := hf
      rw [hfind] at hf'
      obtain ⟨m', hm', -⟩ := Option.map_eq_some_iff.mp hf'
      exact hs id m' hm'

theorem numbered_new : new.Numbered := by
  intro id m hf
  cases hf

theorem numbered_after (cr : Crypto) (ops : List MessagingOp) : (after cr ops).Numbered :=
  Run.inv_foldl (apply cr) (fun _ _ => True) Numbered (fun s op hs _ => (apply_changes cr s op hs).2.2) .new ops
    numbered_new (Run.meets_of_forall _ _ (fun _ _ => trivial) _ _)

/-! ## Finished messages -/

end MessagingContract

/-- The message is finished. -/
def MessageStatus.isTerminal : MessageStatus → Bool
  | .delivered | .failed | .expired | .cancelled => true
  | .pending | .inOutbox | .relayed => false

namespace MessagingContract

def statusOf (s : MessagingContract) (id : Nat) : Option MessageStatus :=
  (s.messages.find? id).map CrossChainMessage.status

/-- Whether a call gives back the fee of the message. -/
def refunds (id : Nat) (s : MessagingContract) : MessagingOp → Nat
  | .cancelMessage messageId caller =>
    match s.cancelMessage messageId caller with
    | .ok _ => if messageId = id then 1 else 0
    | .error _ => 0
  | _ => 0

/-- Whether a call relays the message. -/
def relays (id : Nat) (s : MessagingContract) : MessagingOp → Bool
  | .relayMessage messageId inclusionProof =>
    decide (messageId = id) && (s.relayMessage messageId inclusionProof).toOption.isSome
  | _ => false

/-- Finished messages stay as they are; a fee is given back at most once, and not after the
message was relayed. -/
structure Settled (cr : Crypto) (ops : List MessagingOp) : Prop where
  final : ∀ id st i j, i ≤ j → (after cr (ops.take i)).statusOf id = some st → st.isTerminal = true →
    (after cr (ops.take j)).statusOf id = some st
  refunded : ∀ id, Run.tally (apply cr) (refunds id) .new ops ≤ 1
  unrelayed : ∀ id pre op mid op' post, ops = pre ++ op :: (mid ++ op' :: post) →
    relays id (after cr pre) op = true → refunds id (after cr (pre ++ op :: mid)) op' = 0

/-- A verification past the expiry does not find the message delivered, failed or
cancelled. -/
def timely (s : MessagingContract) : MessagingOp → Bool
  | .verifyAndDeliver messageId currentBlock =>
    (s.messages.find? messageId).all fun m =>
      decide (currentBlock ≤ m.expiresAt) ||
        match m.status with
        | .delivered | .failed | .cancelled => false
        | _ => true
  | _ => true

/-- What one call keeps of the finished messages. -/
def KeepsFinal (s t : MessagingContract) : Prop :=
  ∀ id st, s.statusOf id = some st → st.isTerminal = true → t.statusOf id = some st

theorem apply_keepsFinal (cr : Crypto) (s : MessagingContract) (op : MessagingOp) (hs : s.Numbered)
    (ht : s.timely op = true) : s.KeepsFinal (s.apply cr op) := by
  intro id st hst hterm
  obtain ⟨m, hf, rfl⟩ := Option.map_eq_some_iff.mp hst
  obtain ⟨m', hf', hc⟩ := (apply_changes cr s op hs).1 id m hf
  unfold statusOf
  rw [hf']
  show some m'.status = some m.status
  cases hc with
  | same => rfl
  | relay proof hop hopen =>
    rcases hopen with h | h
    all_goals
      rw [h] at hterm
      cases hterm
  | overdue b hop hb =>
    subst hop
    -- timely, so the message was expired before
    unfold timely at ht
    simp only [hf, Option.all_some, Bool.or_eq_true, decide_eq_true_eq] at ht
    rcases ht with ht | ht
    · omega
    · cases hm : m.status with
      | expired => rfl
      | _ => simp [hm, MessageStatus.isTerminal] at ht hterm
  | fail b hop h =>
    rw [h] at hterm
    cases hterm
  | deliver b proof hop hb h =>
    rw [h] at hterm
    cases hterm
  | cancel hop h =>
    rw [h] at hterm
    cases hterm
  | sweep order b hop hstale =>
    unfold isStale at hstale
    cases hm : m.status with
    | expired => rfl
    | _ => simp [hm, MessageStatus.isTerminal] at hstale hterm

/-- A call that is not timely changes a finished message. -/
theorem not_timely (cr : Crypto) (s : MessagingContract) (op : MessagingOp) (ht : s.timely op ≠ true) :
    ¬ s.KeepsFinal (s.apply cr op) := by
  cases op with
  | verifyAndDeliver id b =>
    cases hf : s.messages.find? id with
    | none => simp [timely, hf] at ht
    | some m =>
      rw [timely, hf, Option.all_some, ne_eq, Bool.or_eq_true, not_or, decide_eq_true_eq] at ht
      obtain ⟨hb, hm⟩ := ht
      intro hkeep
      have happly : (s.apply cr (.verifyAndDeliver id b)).statusOf id = some .expired := by
        unfold apply verifyAndDeliver statusOf
        simp only [hf, if_pos (show b > m.expiresAt by omega)]
        show ((s.messages.insert id { m with status := .expired }).find? id).map _ = _
        rw [SortedMap.find?_insert_self]
        rfl
      have hbefore : s.statusOf id = some m.status := by
        unfold statusOf
        rw [hf]
        rfl
      cases hstatus : m.status with
      | pending => simp [hstatus] at hm
      | inOutbox => simp [hstatus] at hm
      | relayed => simp [hstatus] at hm
      | expired => simp [hstatus] at hm
      | _ =>
        rw [hstatus] at hbefore
        have := hkeep id _ hbefore rfl
        rw [happly] at this
        cases this
  | _ => exact absurd rfl ht

/-- The message has left the queue of its sender. -/
def Left (id : Nat) (s : MessagingContract) : Prop :=
  ∃ m, s.messages.find? id = some m ∧ m.status ≠ .pending

theorem Left.apply {id : Nat} {s : MessagingContract} (h : s.Left id) (cr : Crypto) (op : MessagingOp)
    (hs : s.Numbered) : (s.apply cr op).Left id := by
  obtain ⟨m, hf, hm⟩ := h
  obtain ⟨m', hf', hc⟩ := (apply_changes cr s op hs).1 id m hf
  refine ⟨m', hf', ?_⟩
  cases hc with
  | same => exact hm
  | _ => simp

theorem Left.refunds {id : Nat} {s : MessagingContract} (h : s.Left id) (op : MessagingOp) :
    s.refunds id op = 0 := by
  cases op with
  | cancelMessage i caller =>
    cases hr : s.cancelMessage i caller with
    | error e => simp [MessagingContract.refunds, hr]
    | ok r =>
      obtain ⟨m, m', hf, -, hp, -⟩ := cancelMessage_ok .sample s r.1 i caller r.2 hr
      obtain ⟨m'', hf'', hne⟩ := h
      by_cases hi : i = id
      · subst hi
        rw [hf] at hf''
        obtain rfl := Option.some.inj hf''
        exact absurd hp hne
      · simp [MessagingContract.refunds, hr, hi]
  | _ => rfl

theorem left_of_refunds (cr : Crypto) (id : Nat) (s : MessagingContract) (op : MessagingOp) :
    s.refunds id op = 0 ∨ s.refunds id op = 1 ∧ (s.apply cr op).Left id := by
  cases op with
  | cancelMessage i caller =>
    cases hr : s.cancelMessage i caller with
    | error e => exact .inl (by simp [refunds, hr])
    | ok r =>
      by_cases hi : i = id
      · subst hi
        obtain ⟨m, m', -, -, -, hc, -, ht⟩ := cancelMessage_ok cr s r.1 i caller r.2 hr
        refine .inr ⟨by simp [refunds, hr], m', ?_, by rw [hc]; decide⟩
        simp only [apply, hr]
        show r.1.messages.find? i = some m'
        rw [ht]
        exact SortedMap.find?_insert_self _ _ _
      · exact .inl (by simp [refunds, hr, hi])
  | _ => exact .inl rfl

theorem left_of_relays (cr : Crypto) (id : Nat) (s : MessagingContract) (op : MessagingOp)
    (h : s.relays id op = true) : (s.apply cr op).Left id := by
  cases op with
  | relayMessage i proof =>
    simp only [relays, Bool.and_eq_true, decide_eq_true_eq] at h
    obtain ⟨rfl, hok⟩ := h
    cases hr : s.relayMessage i proof with
    | error e =>
      rw [hr] at hok
      cases hok
    | ok t =>
      obtain ⟨m, m', -, -, -, hs, hm, -⟩ := relayMessage_ok cr s t i proof hr
      refine ⟨m', ?_, by rw [hs]; decide⟩
      simp only [apply, hr]
      show t.messages.find? i = some m'
      rw [hm]
      exact SortedMap.find?_insert_self _ _ _
  | _ => cases h

/-- A fee is given back at most once in every run. -/
theorem refunded_once (cr : Crypto) (ops : List MessagingOp) (id : Nat) :
    Run.tally (apply cr) (refunds id) .new ops ≤ 1 := by
  refine Run.tally_le_one (apply cr) (fun _ _ => True) Numbered (Left id) (refunds id) ?_ ?_ ?_ .new ops
    numbered_new (Run.meets_of_forall _ _ (fun _ _ => trivial) _ _)
  · intro s op hs _
    exact (apply_changes cr s op hs).2.2
  · intro s op hs _ hleft
    exact ⟨hleft.refunds op, hleft.apply cr op hs⟩
  · intro s op _ _
    exact left_of_refunds cr id s op

theorem refunded_unrelayed (cr : Crypto) (id : Nat) (pre : List MessagingOp) (op : MessagingOp)
    (mid : List MessagingOp) (op' : MessagingOp) (h : relays id (after cr pre) op = true) :
    refunds id (after cr (pre ++ op :: mid)) op' = 0 := by
  have hstart : ((after cr pre).apply cr op).Numbered ∧ ((after cr pre).apply cr op).Left id :=
    ⟨(apply_changes cr _ op (numbered_after cr pre)).2.2, left_of_relays cr id _ op h⟩
  have hend := Run.inv_foldl (apply cr) (fun _ _ => True) (fun s => s.Numbered ∧ s.Left id)
    (fun s op hs _ => ⟨(apply_changes cr s op hs.1).2.2, hs.2.apply cr op hs.1⟩) _ mid hstart
    (Run.meets_of_forall _ _ (fun _ _ => trivial) _ _)
  unfold after
  rw [List.foldl_append]
  exact hend.2.refunds op'

/-- Messages are settled in a run exactly if all its calls are timely. -/
theorem settled_iff (cr : Crypto) (ops : List MessagingOp) :
    Settled cr ops ↔ Run.Meets (apply cr) (fun s op => s.timely op = true) .new ops := by
  constructor
  · intro h
    rw [Run.meets_iff_split]
    rintro pre op post rfl
    by_contra ht
    apply not_timely cr _ op ht
    intro id st hst hterm
    have hstep := h.final id st pre.length (pre.length + 1) (Nat.le_succ _)
    rw [List.take_left, List.take_append, List.take_of_length_le (Nat.le_succ _),
      show pre.length + 1 - pre.length = 1 by omega] at hstep
    have hnext := hstep hst hterm
    unfold after at hnext
    rw [List.foldl_append] at hnext
    exact hnext
  · intro h
    refine ⟨?_, refunded_once cr ops, ?_⟩
    · intro id st i j hij hst hterm
      refine Run.rel_take (apply cr) _ Numbered KeepsFinal (fun s id st hs _ => hs) ?_ ?_ ?_ .new ops numbered_new h
        i j hij id st hst hterm
      · intro r s t hrs hst id st hr hterm
        exact hst id st (hrs id st hr hterm) hterm
      · intro s op hs _
        exact (apply_changes cr s op hs).2.2
      · intro s op hs ht
        exact apply_keepsFinal cr s op hs ht
    · rintro id pre op mid op' post - hrelay
      exact refunded_unrelayed cr id pre op mid op' hrelay

/-- The one leaf of a block. -/
def sampleProof : MerkleProof :=
  { leaf := [1], leafIndex := 0, proof := [], root := Crypto.sample.blake3 [1], blockNumber := 10
    chainId := ⟨1⟩ }

def sampleSend (payload : List UInt8) : MessagingOp :=
  .sendMessage ⟨1⟩ ⟨2⟩ ⟨7⟩ none .dataTransfer payload ⟨0⟩ 10 1

/-- A message is delivered and verified again after its expiry. -/
def sampleLate : List MessagingOp :=
  [sampleSend [1], MessagingOp.registerStateRoot ⟨1⟩ 10 sampleProof.root,
    MessagingOp.relayMessage 1 sampleProof, MessagingOp.verifyAndDeliver 1 20,
    MessagingOp.verifyAndDeliver 1 (11 + messageExpiry)]

theorem delivered_reported_expired :
    ((after Crypto.sample (sampleLate.take 4)).statusOf 1 = some .delivered ∧
      (after Crypto.sample (sampleLate.take 5)).statusOf 1 = some .expired) ∧
      ¬ Settled Crypto.sample sampleLate := by
  have hbefore : (after Crypto.sample (sampleLate.take 4)).statusOf 1 = some .delivered := by decide
  have hafter : (after Crypto.sample (sampleLate.take 5)).statusOf 1 = some .expired := by decide
  refine ⟨⟨hbefore, hafter⟩, ?_⟩
  intro h
  have hkept := h.final 1 .delivered 4 5 (by decide) hbefore rfl
  rw [hafter] at hkept
  cases hkept

end MessagingContract

end Kratos
