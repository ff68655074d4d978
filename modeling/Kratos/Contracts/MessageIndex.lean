import Kratos.Contracts.Messaging

/-!
# Indexes of the messages

The messages are numbered from 1 on, and five maps follow them: the nonces of the senders, the counts
of the blocks, the outboxes and inboxes of the chains, and the messages themselves.  Only a send that
succeeds changes what they index, the `MessageHeader` of a message; the other calls change statuses
and proofs.  A send adds one header behind all others, so that every index is a list of headers
filtered and read off in the order of the ids (`Tracked`), and what the indexes promise (`Indexed`)
follows.
-/

namespace Kratos

/-- What of a message never changes and the indexes depend on. -/
structure MessageHeader where
  id : Nat
  sourceChain : ChainId
  targetChain : ChainId
  sender : AccountId
  createdAt : Nat
  nonce : Nat
deriving DecidableEq, Repr

def CrossChainMessage.header (m : CrossChainMessage) : MessageHeader :=
  { id := m.id, sourceChain := m.sourceChain, targetChain := m.targetChain, sender := m.sender
    createdAt := m.createdAt, nonce := m.nonce }

/-- Waiting to be relayed. -/
def CrossChainMessage.isQueued (m : CrossChainMessage) : Bool :=
  match m.status with
  | .pending | .inOutbox => true
  | _ => false

namespace MessagingContract

def getNonce (s : MessagingContract) (chainId : ChainId) (sender : AccountId) : Nat :=
  (s.nonces.find? (toLex (chainId, sender))).getD 0

/-- The queues as they are stored. -/
def outboxIds (s : MessagingContract) (chainId : ChainId) : List Nat := (s.outbox.find? chainId).getD []
def inboxIds (s : MessagingContract) (chainId : ChainId) : List Nat := (s.inbox.find? chainId).getD []

def getOutbox (s : MessagingContract) (chainId : ChainId) : List CrossChainMessage :=
  ((s.outboxIds chainId).filterMap s.messages.find?).filter CrossChainMessage.isQueued

def getInbox (s : MessagingContract) (chainId : ChainId) : List CrossChainMessage :=
  ((s.inboxIds chainId).filterMap s.messages.find?).filter fun m => decide (m.status = .relayed)

/-- In the order of their ids. -/
def headers (s : MessagingContract) : List MessageHeader := (s.messages.map fun _ m => m.header).values

theorem headers_eq (s : MessagingContract) : s.headers = s.messages.values.map CrossChainMessage.header := by
  unfold headers SortedMap.values SortedMap.map
  rw [List.map_map, List.map_map]
  rfl

/-! ## The invariant -/

/-- The indexes, read off the headers. -/
structure Tracked (s : MessagingContract) : Prop where
  started : 1 ≤ s.nextMessageId
  keys : s.messages.keys = List.range' 1 (s.nextMessageId - 1)
  ids : s.headers.map MessageHeader.id = s.messages.keys
  nonces : ∀ c a, ((s.headers.filter fun h => decide (h.sourceChain = c ∧ h.sender = a)).map MessageHeader.nonce) =
    List.range (s.getNonce c a)
  counts : ∀ c b, (s.headers.filter fun h => decide (h.sourceChain = c ∧ h.createdAt = b)).length =
    (s.messagesPerBlock.find? (toLex (c, b))).getD 0
  limited : ∀ c b, (s.messagesPerBlock.find? (toLex (c, b))).getD 0 ≤ maxMessagesPerBlock
  outbox : ∀ c, s.outboxIds c = (s.headers.filter fun h => decide (h.sourceChain = c)).map MessageHeader.id
  inbox : ∀ c, (s.inboxIds c).Nodup
  relayed : ∀ c, ∀ id ∈ s.inboxIds c, ∃ m, s.messages.find? id = some m ∧ m.targetChain = c ∧ m.isQueued = false

theorem tracked_new : new.Tracked where
  started := le_refl _
  keys := rfl
  ids := rfl
  nonces := fun _ _ => rfl
  counts := fun _ _ => rfl
  limited := fun _ _ => Nat.zero_le _
  outbox := fun _ => rfl
  inbox := fun _ => List.nodup_nil
  relayed := fun _ _ h => absurd h List.not_mem_nil

/-! ## Calls that keep the headers -/

/-- The rest of the indexes is as it was. -/
structure SameIndexes (s t : MessagingContract) : Prop where
  next : t.nextMessageId = s.nextMessageId
  nonces : t.nonces = s.nonces
  counts : t.messagesPerBlock = s.messagesPerBlock
  outbox : t.outbox = s.outbox

theorem keys_map (s t : MessagingContract)
    (h : (t.messages.map fun _ m => m.header) = s.messages.map fun _ m => m.header) :
    t.messages.keys = s.messages.keys := by
  have hkeys : ∀ u : MessagingContract, (u.messages.map fun _ m => m.header).keys = u.messages.keys := by
    intro u
    unfold SortedMap.keys SortedMap.map
    rw [List.map_map]
    rfl
  rw [← hkeys t, ← hkeys s, h]

/-- Messages are rewritten under their headers. -/
theorem Tracked.rewrite {s t : MessagingContract} (hs : s.Tracked) (h : SameIndexes s t)
    (hheaders : (t.messages.map fun _ m => m.header) = s.messages.map fun _ m => m.header)
    (hinbox : ∀ c, (t.inboxIds c).Nodup)
    (hrelayed : ∀ c, ∀ id ∈ t.inboxIds c, ∃ m, t.messages.find? id = some m ∧ m.targetChain = c ∧ m.isQueued = false) :
    t.Tracked := by
  have hkeys := keys_map s t hheaders
  have hlist : t.headers = s.headers := by
    unfold headers
    rw [hheaders]
  exact
    { started := by rw [h.next]; exact hs.started
      keys := by rw [hkeys, h.next]; exact hs.keys
      ids := by rw [hlist, hkeys]; exact hs.ids
      nonces := fun c a => by
        rw [hlist]
        unfold getNonce
        rw [h.nonces]
        exact hs.nonces c a
      counts := fun c b => by rw [hlist, h.counts]; exact hs.counts c b
      limited := fun c b => by rw [h.counts]; exact hs.limited c b
      outbox := fun c => by
        rw [hlist]
        unfold outboxIds
        rw [h.outbox]
        exact hs.outbox c
      inbox := hinbox
      relayed := hrelayed }

theorem headers_insert (s : MessagingContract) (i : Nat) (m m' : CrossChainMessage)
    (hf : s.messages.find? i = some m) (hheader : m'.header = m.header) :
    ((s.messages.insert i m').map fun _ m => m.header) = s.messages.map fun _ m => m.header := by
  rw [SortedMap.map_insert, SortedMap.insert_eq_self_iff, SortedMap.find?_map, hf, Option.map_some, hheader]

/-- A queued message that changes is not in an inbox yet, and stays there if it was. -/
theorem Tracked.write {s : MessagingContract} (hs : s.Tracked) (i : Nat) (m m' : CrossChainMessage)
    (hf : s.messages.find? i = some m) (hheader : m'.header = m.header)
    (hqueued : m.isQueued = false → m'.isQueued = false) :
    ({ s with messages := s.messages.insert i m' } : MessagingContract).Tracked := by
  refine hs.rewrite ⟨rfl, rfl, rfl, rfl⟩ (headers_insert s i m m' hf hheader) hs.inbox ?_
  intro c id hid
  obtain ⟨r, hr, htarget, hr'⟩ := hs.relayed c id hid
  show ∃ m₁, (s.messages.insert i m').find? id = some m₁ ∧ _
  rw [SortedMap.find?_insert]
  by_cases hi : id = i
  · subst hi
    rw [hf] at hr
    obtain rfl := Option.some.inj hr
    have htargets : m'.targetChain = m.targetChain := congrArg MessageHeader.targetChain hheader
    exact ⟨m', if_pos rfl, htargets.trans htarget, hqueued hr'⟩
  · rw [if_neg hi]
    exact ⟨r, hr, htarget, hr'⟩

theorem Change.header {cr : Crypto} {s : MessagingContract} {op : MessagingOp} {id : Nat} {m m' : CrossChainMessage}
    (h : Change cr s op id m m') : m'.header = m.header := by
  cases h <;> rfl

theorem Change.isQueued {cr : Crypto} {s : MessagingContract} {op : MessagingOp} {id : Nat}
    {m m' : CrossChainMessage} (h : Change cr s op id m m') (hm : m.isQueued = false) : m'.isQueued = false := by
  cases h with
  | same => exact hm
  | _ => rfl

theorem pushBack_find (q : SortedMap ChainId (List Nat)) (c c' : ChainId) (id : Nat) :
    ((pushBack q c id).find? c').getD [] = (q.find? c').getD [] ++ if c' = c then [id] else [] := by
  unfold pushBack
  rw [SortedMap.find?_insert]
  by_cases h : c' = c
  · rw [if_pos h, if_pos h, h, Option.getD_some]
  · rw [if_neg h, if_neg h, List.append_nil]

/-- What a relay that succeeds does. -/
theorem relayMessage_eq (s t : MessagingContract) (i : Nat) (proof : MerkleProof) (h : s.relayMessage i proof = .ok t) :
    ∃ m, s.messages.find? i = some m ∧ m.isQueued = true ∧
      t = { s with
            messages := s.messages.insert i { m with inclusionProof := some proof, status := .relayed }
            inbox := pushBack s.inbox m.targetChain i } := by
  unfold relayMessage at h
  cases hf : s.messages.find? i with
  | none => simp [hf] at h
  | some m =>
    simp only [hf] at h
    split at h
    · cases h
    · next hs =>
      cases h
      refine ⟨m, rfl, ?_, rfl⟩
      unfold CrossChainMessage.isQueued
      cases hm : m.status <;> simp [hm] at hs ⊢

theorem relayMessage_tracked (s t : MessagingContract) (i : Nat) (proof : MerkleProof) (hs : s.Tracked)
    (h : s.relayMessage i proof = .ok t) : t.Tracked := by
  obtain ⟨m, hf, hqueued, rfl⟩ := relayMessage_eq s t i proof h
  have hinbox : ∀ c, inboxIds { s with
      messages := s.messages.insert i { m with inclusionProof := some proof, status := .relayed }
      inbox := pushBack s.inbox m.targetChain i } c = s.inboxIds c ++ if c = m.targetChain then [i] else [] :=
    fun c => pushBack_find s.inbox m.targetChain c i
  have hout : ∀ c, i ∉ s.inboxIds c := by
    intro c hi
    obtain ⟨r, hr, -, hr'⟩ := hs.relayed c i hi
    rw [hf] at hr
    obtain rfl := Option.some.inj hr
    rw [hqueued] at hr'
    cases hr'
  refine hs.rewrite ⟨rfl, rfl, rfl, rfl⟩ (headers_insert s i m _ hf rfl) ?_ ?_
  · intro c
    rw [hinbox c]
    split
    · rw [List.nodup_append]
      refine ⟨hs.inbox c, List.nodup_singleton i, ?_⟩
      rintro a ha b hb rfl
      rw [List.mem_singleton.mp hb] at ha
      exact hout c ha
    · rw [List.append_nil]
      exact hs.inbox c
  · intro c id hid
    rw [hinbox c, List.mem_append] at hid
    show ∃ m₁, (s.messages.insert i _).find? id = some m₁ ∧ _
    rw [SortedMap.find?_insert]
    by_cases hi : id = i
    · rw [if_pos hi]
      rcases hid with hid | hid
      · exact absurd (hi ▸ hid) (hout c)
      · split at hid
        · next hc => exact ⟨_, rfl, hc.symm, rfl⟩
        · cases hid
    · rw [if_neg hi]
      rcases hid with hid | hid
      · exact hs.relayed c id hid
      · split at hid
        · exact absurd (List.mem_singleton.mp hid) hi
        · cases hid

/-! ## Sends -/

/-- The message a send stores. -/
def sent (cr : Crypto) (s : MessagingContract) (src dst : ChainId) (sender : AccountId) (recipient : Option AccountId)
    (ty : MessageType) (payload : List UInt8) (root : Hash) (b : Nat) (fee : Balance) : CrossChainMessage :=
  { id := s.nextMessageId, sourceChain := src, targetChain := dst, sender, recipient, messageType := ty
    payloadHash := cr.blake3 payload, payload, sourceStateRoot := root, inclusionProof := none
    createdAt := b, expiresAt := b + messageExpiry, status := .pending, fee, nonce := s.getNonce src sender }

/-- With a message stored and indexed. -/
def post (s : MessagingContract) (m : CrossChainMessage) : MessagingContract :=
  let count := (s.messagesPerBlock.find? (toLex (m.sourceChain, m.createdAt))).getD 0
  { s with
    nonces := s.nonces.insert (toLex (m.sourceChain, m.sender)) (m.nonce + 1)
    nextMessageId := m.id + 1
    messages := s.messages.insert m.id m
    outbox := pushBack s.outbox m.sourceChain m.id
    messagesPerBlock := s.messagesPerBlock.insert (toLex (m.sourceChain, m.createdAt)) (count + 1) }

/-- A send fails and at most enters a count of zero, or posts its message. -/
theorem sendMessage_cases (cr : Crypto) (s : MessagingContract) (src dst : ChainId) (sender : AccountId)
    (recipient : Option AccountId) (ty : MessageType) (payload : List UInt8) (root : Hash) (b : Nat) (fee : Balance) :
    (∃ counts e, s.sendMessage cr src dst sender recipient ty payload root b fee =
        ({ s with messagesPerBlock := counts }, .error e) ∧
      ∀ k, (counts.find? k).getD 0 = (s.messagesPerBlock.find? k).getD 0) ∨
    (s.messagesPerBlock.find? (toLex (src, b))).getD 0 < maxMessagesPerBlock ∧
      s.sendMessage cr src dst sender recipient ty payload root b fee =
        (s.post (s.sent cr src dst sender recipient ty payload root b fee), .ok s.nextMessageId) := by
  have hcounts : ∀ k, ((s.messagesPerBlock.insert (toLex (src, b))
      ((s.messagesPerBlock.find? (toLex (src, b))).getD 0)).find? k).getD 0 = (s.messagesPerBlock.find? k).getD 0 := by
    intro k
    rw [SortedMap.find?_insert]
    split
    · next hk => rw [hk, Option.getD_some]
    · rfl
  unfold sendMessage
  split
  · exact Or.inl ⟨s.messagesPerBlock, _, rfl, fun _ => rfl⟩
  simp only
  split
  · exact Or.inl ⟨_, _, rfl, hcounts⟩
  next hcount =>
  split
  · exact Or.inl ⟨_, _, rfl, hcounts⟩
  split
  · exact Or.inl ⟨_, _, rfl, hcounts⟩
  · refine Or.inr ⟨not_le.mp hcount, ?_⟩
    rw [SortedMap.insert_insert]
    rfl

theorem Tracked.recount {s : MessagingContract} (hs : s.Tracked) (counts : SortedMap (ChainId ×ₗ Nat) Nat)
    (h : ∀ k, (counts.find? k).getD 0 = (s.messagesPerBlock.find? k).getD 0) :
    ({ s with messagesPerBlock := counts } : MessagingContract).Tracked :=
  { hs with
    counts := fun c b => (hs.counts c b).trans (h _).symm
    limited := fun c b => by
      show (counts.find? _).getD 0 ≤ _
      rw [h]
      exact hs.limited c b }

theorem keys_lt {s : MessagingContract} (hs : s.Tracked) : ∀ id ∈ s.messages.keys, id < s.nextMessageId := by
  intro id hid
  have := hs.started
  rw [hs.keys, List.mem_range'_1] at hid
  omega

/-- A message under the next id comes behind all others. -/
theorem headers_post {s : MessagingContract} (hs : s.Tracked) (m : CrossChainMessage) (hid : m.id = s.nextMessageId) :
    (s.post m).headers = s.headers ++ [m.header] ∧ (s.post m).messages.keys = s.messages.keys ++ [s.nextMessageId] := by
  have hentries : (s.post m).messages.entries = s.messages.entries ++ [(s.nextMessageId, m)] := by
    show (s.messages.insert m.id m).entries = _
    rw [hid]
    exact SortedMap.entries_insert_of_lt _ _ _ (keys_lt hs)
  constructor
  · rw [headers_eq, headers_eq]
    unfold SortedMap.values
    rw [hentries, List.map_append, List.map_append]
    rfl
  · unfold SortedMap.keys
    rw [hentries, List.map_append]
    rfl

/-- A map with pairs for keys, after an insertion. -/
theorem getD_find?_insert_pair {κ μ : Type} [LinearOrder κ] [LinearOrder μ] (t : SortedMap (κ ×ₗ μ) Nat) (a c : κ)
    (b d : μ) (n : Nat) :
    ((t.insert (toLex (a, b)) n).find? (toLex (c, d))).getD 0 =
      if a = c ∧ b = d then n else (t.find? (toLex (c, d))).getD 0 := by
  rw [SortedMap.find?_insert]
  by_cases h : a = c ∧ b = d
  · obtain ⟨rfl, rfl⟩ := h
    rw [if_pos rfl, if_pos ⟨rfl, rfl⟩, Option.getD_some]
  · rw [if_neg h, if_neg]
    intro hk
    obtain ⟨hc, hd⟩ := Prod.mk.inj (toLex_inj.mp hk)
    exact h ⟨hc.symm, hd.symm⟩

theorem getNonce_post (s : MessagingContract) (m : CrossChainMessage) (hnonce : m.nonce = s.getNonce m.sourceChain m.sender)
    (c : ChainId) (a : AccountId) :
    (s.post m).getNonce c a = s.getNonce c a + if m.sourceChain = c ∧ m.sender = a then 1 else 0 := by
  have hinsert := getD_find?_insert_pair s.nonces m.sourceChain c m.sender a (m.nonce + 1)
  refine hinsert.trans ?_
  by_cases h : m.sourceChain = c ∧ m.sender = a
  · obtain ⟨rfl, rfl⟩ := h
    rw [if_pos ⟨rfl, rfl⟩, if_pos ⟨rfl, rfl⟩, hnonce]
  · rw [if_neg h, if_neg h]
    rfl

theorem messagesPerBlock_post (s : MessagingContract) (m : CrossChainMessage) (c : ChainId) (b : Nat) :
    ((s.post m).messagesPerBlock.find? (toLex (c, b))).getD 0 =
      (s.messagesPerBlock.find? (toLex (c, b))).getD 0 + if m.sourceChain = c ∧ m.createdAt = b then 1 else 0 := by
  have hinsert := getD_find?_insert_pair s.messagesPerBlock m.sourceChain c m.createdAt b
    ((s.messagesPerBlock.find? (toLex (m.sourceChain, m.createdAt))).getD 0 + 1)
  refine hinsert.trans ?_
  by_cases h : m.sourceChain = c ∧ m.createdAt = b
  · obtain ⟨rfl, rfl⟩ := h
    rw [if_pos ⟨rfl, rfl⟩, if_pos ⟨rfl, rfl⟩]
  · rw [if_neg h, if_neg h]
    rfl


theorem post_tracked (s : MessagingContract) (hs : s.Tracked) (m : CrossChainMessage) (hid : m.id = s.nextMessageId)
    (hnonce : m.nonce = s.getNonce m.sourceChain m.sender)
    (hroom : (s.messagesPerBlock.find? (toLex (m.sourceChain, m.createdAt))).getD 0 < maxMessagesPerBlock) :
    (s.post m).Tracked := by
  obtain ⟨hheaders, hkeys⟩ := headers_post hs m hid
  have hstarted := hs.started
  have hnonces := getNonce_post s m hnonce
  have hcounts := messagesPerBlock_post s m
  refine
    { started := Nat.le_add_left 1 _
      keys := ?_
      ids := ?_
      nonces := fun c a => ?_
      counts := fun c b => ?_
      limited := fun c b => ?_
      outbox := fun c => ?_
      inbox := hs.inbox
      relayed := fun c id h => ?_ }
  · show _ = List.range' 1 (m.id + 1 - 1)
    rw [hkeys, hs.keys, hid, show s.nextMessageId + 1 - 1 = (s.nextMessageId - 1) + 1 by omega, List.range'_1_concat,
      show 1 + (s.nextMessageId - 1) = s.nextMessageId by omega]
  · rw [hheaders, List.map_append, hs.ids, hkeys, ← hid]
    rfl
  · rw [hheaders, List.filter_append, List.map_append, hs.nonces, hnonces]
    by_cases h : m.sourceChain = c ∧ m.sender = a
    · obtain ⟨rfl, rfl⟩ := h
      rw [if_pos ⟨rfl, rfl⟩, List.range_succ, ← hnonce]
      simp [CrossChainMessage.header]
    · rw [if_neg h]
      simp [CrossChainMessage.header, h]
  · rw [hheaders, List.filter_append, List.length_append, hs.counts, hcounts]
    by_cases h : m.sourceChain = c ∧ m.createdAt = b
    · simp [CrossChainMessage.header, h]
    · simp [CrossChainMessage.header, h]
  · have := hs.limited c b
    rw [hcounts]
    split
    · next h =>
      rw [h.1, h.2] at hroom
      exact hroom
    · exact this
  · show ((pushBack s.outbox m.sourceChain m.id).find? c).getD [] = _
    rw [pushBack_find, hheaders, List.filter_append, List.map_append, ← hs.outbox c]
    by_cases h : c = m.sourceChain
    · simp [CrossChainMessage.header, h, outboxIds]
    · simp [CrossChainMessage.header, h, outboxIds, Ne.symm h]
  · obtain ⟨r, hr, hrest⟩ := hs.relayed c id h
    have hlt := keys_lt hs id ((s.messages.mem_keys_iff id).mpr ⟨r, hr⟩)
    refine ⟨r, ?_, hrest⟩
    show (s.messages.insert m.id m).find? id = some r
    rw [SortedMap.find?_insert, if_neg (by omega)]
    exact hr

/-! ## Runs -/

/-- **Step lemma.** -/
theorem apply_tracked (cr : Crypto) (s : MessagingContract) (op : MessagingOp) (hs : s.Tracked) :
    (s.apply cr op).Tracked := by
  cases op with
  | registerStateRoot c b root => exact hs.rewrite ⟨rfl, rfl, rfl, rfl⟩ rfl hs.inbox hs.relayed
  | sendMessage src dst sender recipient ty payload root b fee =>
    show (s.sendMessage cr src dst sender recipient ty payload root b fee).1.Tracked
    rcases sendMessage_cases cr s src dst sender recipient ty payload root b fee with ⟨counts, e, h, hc⟩ | ⟨hroom, h⟩
    · rw [h]
      exact hs.recount counts hc
    · rw [h]
      exact post_tracked s hs _ rfl rfl hroom
  | relayMessage i proof =>
    apply Except.orKeep_of Tracked _ s hs
    intro t ht
    exact relayMessage_tracked s t i proof hs ht
  | verifyAndDeliver i b =>
    apply Except.orKeep_map_of Tracked _ s hs
    intro t r ht
    obtain ⟨m, m', hf, hc, rfl⟩ := verifyAndDeliver_ok cr s t i b r ht
    exact hs.write i m m' hf hc.header hc.isQueued
  | cancelMessage i caller =>
    apply Except.orKeep_map_of Tracked _ s hs
    intro t fee ht
    obtain ⟨m, m', hf, hc, -, -, -, rfl⟩ := cancelMessage_ok cr s t i caller fee ht
    exact hs.write i m m' hf hc.header hc.isQueued
  | expireOldMessages order b =>
    have hfind : ∀ id, (expireOldMessages order s b).1.messages.find? id =
        (s.messages.find? id).map fun m => if isStale b m then { m with status := .expired } else m :=
      fun id => SortedMap.find?_map _ _ _
    refine hs.rewrite ⟨rfl, rfl, rfl, rfl⟩ ?_ hs.inbox ?_
    · apply SortedMap.ext_find
      intro id
      rw [SortedMap.find?_map, SortedMap.find?_map]
      show ((expireOldMessages order s b).1.messages.find? id).map _ = _
      rw [hfind, Option.map_map]
      congr 1
      funext m
      simp only [Function.comp]
      split <;> rfl
    · intro c id hid
      obtain ⟨m, hf, htarget, hm⟩ := hs.relayed c id hid
      refine ⟨if isStale b m then { m with status := .expired } else m, ?_, ?_⟩
      · show (expireOldMessages order s b).1.messages.find? id = _
        rw [hfind, hf]
        rfl
      · split
        · exact ⟨htarget, rfl⟩
        · exact ⟨htarget, hm⟩

theorem tracked_after (cr : Crypto) (ops : List MessagingOp) : (after cr ops).Tracked :=
  Run.inv_foldl (apply cr) (fun _ _ => True) Tracked (fun s op hs _ => apply_tracked cr s op hs) .new ops tracked_new
    (Run.meets_of_forall _ _ (fun _ _ => trivial) _ _)

/-- What the indexes promise.  The ids are the numbers from 1 on; the nonces of a sender, in the order of
the ids, are the numbers below its next one; no block has too many messages; an id is once in the
outbox of its source and in no other, at most once in the inbox of its target and in no other.  The
views of the queues show the waiting messages of the chain and relayed messages to it. -/
structure Indexed (s : MessagingContract) : Prop where
  ids : s.messages.keys = List.range' 1 (s.nextMessageId - 1)
  own : ∀ id m, s.messages.find? id = some m → m.id = id
  nonces : ∀ c a, (s.messages.values.filter fun m => decide (m.sourceChain = c ∧ m.sender = a)).map
    CrossChainMessage.nonce = List.range (s.getNonce c a)
  perBlock : ∀ c b, (s.messages.values.filter fun m => decide (m.sourceChain = c ∧ m.createdAt = b)).length ≤
    maxMessagesPerBlock
  outbox : ∀ id m c, s.messages.find? id = some m → (s.outboxIds c).count id = if c = m.sourceChain then 1 else 0
  inbox : ∀ id m c, s.messages.find? id = some m → (s.inboxIds c).count id ≤ if c = m.targetChain then 1 else 0
  stored : ∀ c, (∀ id ∈ s.outboxIds c, id ∈ s.messages.keys) ∧ ∀ id ∈ s.inboxIds c, id ∈ s.messages.keys
  getOutbox : ∀ c, s.getOutbox c = s.messages.values.filter fun m => decide (m.sourceChain = c) && m.isQueued
  getInbox : ∀ c, (s.getInbox c).Nodup ∧ ∀ m ∈ s.getInbox c, m.targetChain = c ∧ m.status = .relayed

theorem filter_headers {β : Type} (s : MessagingContract) (p : MessageHeader → Bool) (f : MessageHeader → β) :
    (s.headers.filter p).map f = (s.messages.values.filter fun m => p m.header).map fun m => f m.header := by
  rw [headers_eq, List.filter_map, List.map_map]
  rfl

theorem Tracked.own {s : MessagingContract} (hs : s.Tracked) (id : Nat) (m : CrossChainMessage)
    (hf : s.messages.find? id = some m) : m.id = id := by
  have hids := hs.ids
  rw [headers_eq] at hids
  unfold SortedMap.values SortedMap.keys at hids
  rw [List.map_map, List.map_map] at hids
  have hall := List.map_inj_left.mp hids
  exact hall (id, m) ((s.messages.mem_entries_iff id m).mpr hf)

theorem keys_nodup {s : MessagingContract} (hs : s.Tracked) : s.messages.keys.Nodup := by
  rw [hs.keys]
  exact List.nodup_range'

/-- The outbox of a chain holds the ids of its messages. -/
theorem outboxIds_eq {s : MessagingContract} (hs : s.Tracked) (c : ChainId) :
    s.outboxIds c = (s.messages.values.filter fun m => decide (m.sourceChain = c)).map CrossChainMessage.id := by
  rw [hs.outbox c, filter_headers s (fun h => decide (h.sourceChain = c)) MessageHeader.id]
  rfl

theorem mem_outboxIds_iff {s : MessagingContract} (hs : s.Tracked) (c : ChainId) (id : Nat) :
    id ∈ s.outboxIds c ↔ ∃ m, s.messages.find? id = some m ∧ m.sourceChain = c := by
  rw [outboxIds_eq hs c, List.mem_map]
  constructor
  · rintro ⟨m, hm, rfl⟩
    rw [List.mem_filter, decide_eq_true_iff] at hm
    obtain ⟨k, hk⟩ := (s.messages.mem_values_iff m).mp hm.1
    rw [hs.own k m hk]
    exact ⟨m, hk, hm.2⟩
  · rintro ⟨m, hf, hc⟩
    refine ⟨m, ?_, hs.own id m hf⟩
    rw [List.mem_filter, decide_eq_true_iff]
    exact ⟨(s.messages.mem_values_iff m).mpr ⟨id, hf⟩, hc⟩

theorem outboxIds_nodup {s : MessagingContract} (hs : s.Tracked) (c : ChainId) : (s.outboxIds c).Nodup := by
  have hsub : (s.outboxIds c).Sublist s.messages.keys := by
    rw [hs.outbox c, ← hs.ids]
    exact List.filter_sublist.map _
  exact (keys_nodup hs).sublist hsub

theorem getOutbox_eq {s : MessagingContract} (hs : s.Tracked) (c : ChainId) :
    s.getOutbox c = s.messages.values.filter fun m => decide (m.sourceChain = c) && m.isQueued := by
  have hfind : ∀ m ∈ s.messages.values.filter (fun m => decide (m.sourceChain = c)),
      s.messages.find? m.id = some m := by
    intro m hm
    obtain ⟨k, hk⟩ := (s.messages.mem_values_iff m).mp (List.mem_of_mem_filter hm)
    rw [hs.own k m hk]
    exact hk
  have hmap : ∀ l : List CrossChainMessage, (∀ m ∈ l, s.messages.find? m.id = some m) →
      (l.map CrossChainMessage.id).filterMap s.messages.find? = l := by
    intro l
    induction l with
    | nil => exact fun _ => rfl
    | cons m l ih =>
      intro hl
      rw [List.map_cons, List.filterMap_cons, hl m List.mem_cons_self]
      simp only
      rw [ih fun r hr => hl r (List.mem_cons_of_mem m hr)]
  unfold MessagingContract.getOutbox
  rw [outboxIds_eq hs c, hmap _ hfind, List.filter_filter]
  congr 1
  funext m
  exact Bool.and_comm _ _

theorem getInbox_spec {s : MessagingContract} (hs : s.Tracked) (c : ChainId) :
    (s.getInbox c).Nodup ∧ ∀ m ∈ s.getInbox c, m.targetChain = c ∧ m.status = .relayed := by
  unfold MessagingContract.getInbox
  constructor
  · apply List.Nodup.filter
    apply List.Nodup.filterMap _ (hs.inbox c)
    intro i j m hi hj
    rw [← hs.own i m hi, hs.own j m hj]
  · intro m hm
    rw [List.mem_filter, List.mem_filterMap, decide_eq_true_iff] at hm
    obtain ⟨⟨id, hid, hf⟩, hstatus⟩ := hm
    obtain ⟨r, hr, htarget, -⟩ := hs.relayed c id hid
    rw [hf] at hr
    obtain rfl := Option.some.inj hr
    exact ⟨htarget, hstatus⟩

theorem Tracked.indexed {s : MessagingContract} (hs : s.Tracked) : s.Indexed where
  ids := hs.keys
  own := hs.own
  nonces c a := by
    rw [← hs.nonces c a, filter_headers s (fun h => decide (h.sourceChain = c ∧ h.sender = a)) MessageHeader.nonce]
    rfl
  perBlock c b := by
    have hcount := hs.counts c b
    rw [headers_eq, List.filter_map, List.length_map] at hcount
    exact le_of_eq_of_le hcount (hs.limited c b)
  outbox id m c hf := by
    by_cases hc : c = m.sourceChain
    · rw [if_pos hc]
      exact List.count_eq_one_of_mem (outboxIds_nodup hs c) ((mem_outboxIds_iff hs c id).mpr ⟨m, hf, hc.symm⟩)
    · rw [if_neg hc, List.count_eq_zero, mem_outboxIds_iff hs c id]
      rintro ⟨r, hr, hrc⟩
      rw [hf] at hr
      obtain rfl := Option.some.inj hr
      exact hc hrc.symm
  inbox id m c hf := by
    by_cases hc : c = m.targetChain
    · rw [if_pos hc]
      exact List.nodup_iff_count_le_one.mp (hs.inbox c) id
    · rw [if_neg hc, Nat.le_zero, List.count_eq_zero]
      intro hid
      obtain ⟨r, hr, htarget, -⟩ := hs.relayed c id hid
      rw [hf] at hr
      obtain rfl := Option.some.inj hr
      exact hc htarget.symm
  stored c := by
    constructor
    · intro id hid
      obtain ⟨m, hf, -⟩ := (mem_outboxIds_iff hs c id).mp hid
      exact (s.messages.mem_keys_iff id).mpr ⟨m, hf⟩
    · intro id hid
      obtain ⟨m, hf, -⟩ := hs.relayed c id hid
      exact (s.messages.mem_keys_iff id).mpr ⟨m, hf⟩
  getOutbox := getOutbox_eq hs
  getInbox := getInbox_spec hs

/-- A call that enters an id into an inbox relays it. -/
theorem inboxIds_apply (cr : Crypto) (s : MessagingContract) (op : MessagingOp) (c : ChainId) (id : Nat)
    (h : id ∈ (s.apply cr op).inboxIds c) : id ∈ s.inboxIds c ∨ relays id s op = true := by
  cases op with
  | registerStateRoot c' b root => exact Or.inl h
  | sendMessage src dst sender recipient ty payload root b fee =>
    change id ∈ (s.sendMessage cr src dst sender recipient ty payload root b fee).1.inboxIds c at h
    rcases sendMessage_cases cr s src dst sender recipient ty payload root b fee with ⟨counts, e, hc, -⟩ | ⟨-, hc⟩
    · rw [hc] at h
      exact Or.inl h
    · rw [hc] at h
      exact Or.inl h
  | relayMessage i proof =>
    cases hr : s.relayMessage i proof with
    | error e =>
      change id ∈ inboxIds ((s.relayMessage i proof).orKeep s) c at h
      rw [hr] at h
      exact Or.inl h
    | ok t =>
      change id ∈ inboxIds ((s.relayMessage i proof).orKeep s) c at h
      obtain ⟨m, -, -, rfl⟩ := relayMessage_eq s t i proof hr
      rw [hr] at h
      change id ∈ ((pushBack s.inbox m.targetChain i).find? c).getD [] at h
      rw [pushBack_find, List.mem_append] at h
      rcases h with h | h
      · exact Or.inl h
      · split at h
        · right
          rw [relays, hr, List.mem_singleton.mp h]
          simp [Except.toOption]
        · cases h
  | verifyAndDeliver i b =>
    left
    revert h
    apply Except.orKeep_map_of (fun t => id ∈ inboxIds t c → id ∈ s.inboxIds c) _ s (fun h => h)
    intro t r ht
    obtain ⟨m, m', -, -, rfl⟩ := verifyAndDeliver_ok cr s t i b r ht
    exact fun h => h
  | cancelMessage i caller =>
    left
    revert h
    apply Except.orKeep_map_of (fun t => id ∈ inboxIds t c → id ∈ s.inboxIds c) _ s (fun h => h)
    intro t fee ht
    obtain ⟨m, m', -, -, -, -, -, rfl⟩ := cancelMessage_ok cr s t i caller fee ht
    exact fun h => h
  | expireOldMessages order b => exact Or.inl h

theorem relayed_of_inbox (cr : Crypto) (ops : List MessagingOp) (c : ChainId) (id : Nat)
    (h : id ∈ (after cr ops).inboxIds c) :
    ∃ pre op post, ops = pre ++ op :: post ∧ relays id (after cr pre) op = true := by
  induction ops using List.reverseRecOn with
  | nil => cases h
  | append_singleton ops op ih =>
    have hstep : after cr (ops ++ [op]) = (after cr ops).apply cr op := List.foldl_append
    rw [hstep] at h
    rcases inboxIds_apply cr _ op c id h with hold | hrelay
    · obtain ⟨pre, op', post, rfl, hrelay⟩ := ih hold
      exact ⟨pre, op', post ++ [op], by simp, hrelay⟩
    · exact ⟨ops, op, [], rfl, hrelay⟩

/-- Messages, nonces, ids and boxes are as they were. -/
structure Unsent (s t : MessagingContract) : Prop where
  messages : t.messages = s.messages
  nonces : t.nonces = s.nonces
  nextMessageId : t.nextMessageId = s.nextMessageId
  outbox : t.outbox = s.outbox
  inbox : t.inbox = s.inbox

/-- **Sending keeps the indexes.**  They hold after every run, where an id in an inbox was relayed before;
a send that succeeds gives out an id above all others, and one that fails leaves messages, nonces, ids
and boxes as they were. -/
theorem indexes_kept (cr : Crypto) (ops : List MessagingOp) :
    (after cr ops).Indexed ∧
    (∀ c id, id ∈ (after cr ops).inboxIds c →
      ∃ pre op post, ops = pre ++ op :: post ∧ relays id (after cr pre) op = true) ∧
    ∀ (src dst : ChainId) (sender : AccountId) (recipient : Option AccountId) (ty : MessageType)
      (payload : List UInt8) (root : Hash) (b : Nat) (fee : Balance),
      (∀ id, ((after cr ops).sendMessage cr src dst sender recipient ty payload root b fee).2 = .ok id →
        (∀ k ∈ (after cr ops).messages.keys, k < id) ∧
        ((after cr ops).sendMessage cr src dst sender recipient ty payload root b fee).1.messages.keys =
          (after cr ops).messages.keys ++ [id]) ∧
      ∀ e, ((after cr ops).sendMessage cr src dst sender recipient ty payload root b fee).2 = .error e →
        (after cr ops).Unsent ((after cr ops).sendMessage cr src dst sender recipient ty payload root b fee).1 := by
  have hs := tracked_after cr ops
  refine ⟨hs.indexed, relayed_of_inbox cr ops, fun src dst sender recipient ty payload root b fee => ?_⟩
  rcases sendMessage_cases cr (after cr ops) src dst sender recipient ty payload root b fee with
    ⟨counts, e, h, -⟩ | ⟨-, h⟩
  · rw [h]
    refine ⟨fun id hid => ?_, fun e' _ => ⟨rfl, rfl, rfl, rfl, rfl⟩⟩
    cases hid
  · rw [h]
    constructor
    · intro id hid
      obtain rfl : (after cr ops).nextMessageId = id := by simpa using hid
      exact ⟨keys_lt hs, (headers_post hs _ rfl).2⟩
    · intro e' he'
      cases he'

end MessagingContract

end Kratos
