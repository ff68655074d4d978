import Kratos.Contracts.Messaging

/-!
# Delivered messages

A delivery should rest on a proof against a state root that was registered for the
source chain, and the leaf of the proof should stand for the message.  The contract
compares the root only if it knows one and never looks at the leaf.  `DeliveryLog`
runs the contract beside the leaves of the deliveries so far; a run is `Proven`
exactly if every delivery is `attested`: its root is known, and no other message was
delivered with its leaf (`proven_iff`).
-/

namespace Kratos

namespace MessagingContract

/-- The message becomes delivered by the call. -/
def Becomes (cr : Crypto) (s : MessagingContract) (op : MessagingOp) (id : Nat) (m : CrossChainMessage) : Prop :=
  s.statusOf id ≠ some .delivered ∧ (s.apply cr op).messages.find? id = some m ∧ m.status = .delivered

/-- Deliveries are proven against registered roots, and different messages have different
leaves. -/
structure Proven (cr : Crypto) (ops : List MessagingOp) : Prop where
  rooted : ∀ pre op post id m, ops = pre ++ op :: post → Becomes cr (after cr pre) op id m →
    ∃ proof, m.inclusionProof = some proof ∧ proof.verify cr = true ∧
      .registerStateRoot m.sourceChain proof.blockNumber proof.root ∈ pre
  committed : ∀ pre op mid op' post id m id' m', ops = pre ++ op :: (mid ++ op' :: post) →
    Becomes cr (after cr pre) op id m → Becomes cr (after cr (pre ++ op :: mid)) op' id' m' → id ≠ id' →
    m.inclusionProof.map MerkleProof.leaf ≠ m'.inclusionProof.map MerkleProof.leaf

/-- The message that passes the checks of a verification: its id, itself and its proof. -/
def delivery (cr : Crypto) (s : MessagingContract) : MessagingOp → Option (Nat × CrossChainMessage × MerkleProof)
  | .verifyAndDeliver messageId currentBlock =>
    match s.messages.find? messageId with
    | none => none
    | some m =>
      match m.inclusionProof with
      | none => none
      | some proof =>
        if currentBlock ≤ m.expiresAt ∧ m.status = .relayed ∧ proof.verify cr = true ∧
            (s.knownStateRoots.find? (toLex (m.sourceChain, proof.blockNumber))).all
              (fun root => decide (proof.root = root)) = true then
          some (messageId, m, proof)
        else none
  | _ => none

theorem delivery_eq_some (cr : Crypto) (s : MessagingContract) (op : MessagingOp) (id : Nat)
    (m : CrossChainMessage) (proof : MerkleProof) (h : s.delivery cr op = some (id, m, proof)) :
    ∃ b, op = .verifyAndDeliver id b ∧ s.messages.find? id = some m ∧ b ≤ m.expiresAt ∧
      m.status = .relayed ∧ m.inclusionProof = some proof ∧ proof.verify cr = true ∧
      (s.knownStateRoots.find? (toLex (m.sourceChain, proof.blockNumber))).all
        (fun root => decide (proof.root = root)) = true := by
  cases op with
  | verifyAndDeliver i b =>
    cases hf : s.messages.find? i with
    | none => simp [delivery, hf] at h
    | some m' =>
      cases hp : m'.inclusionProof with
      | none => simp [delivery, hf, hp] at h
      | some proof' =>
        simp only [delivery, hf, hp] at h
        split at h
        · next hall =>
          cases h
          exact ⟨b, rfl, hf, hall.1, hall.2.1, hp, hall.2.2.1, hall.2.2.2⟩
        · cases h
  | _ => cases h

/-- Messages become delivered by the verifications that pass their checks. -/
theorem becomes_iff (cr : Crypto) (s : MessagingContract) (op : MessagingOp) (id : Nat)
    (m : CrossChainMessage) (hs : s.Numbered) :
    Becomes cr s op id m ↔
      ∃ m₀ proof, s.delivery cr op = some (id, m₀, proof) ∧ m = { m₀ with status := .delivered } := by
  constructor
  · rintro ⟨hnot, hafter, hm⟩
    obtain ⟨hold, hnew, -⟩ := apply_changes cr s op hs
    cases hf : s.messages.find? id with
    | none =>
      have := hnew id m hf hafter
      rw [hm] at this
      cases this
    | some m₀ =>
      obtain ⟨m', hf', hc⟩ := hold id m₀ hf
      rw [hafter] at hf'
      obtain rfl := Option.some.inj hf'
      cases hc with
      | same =>
        exfalso
        apply hnot
        unfold statusOf
        rw [hf, ← hm]
        rfl
      | deliver b proof hop hb hst hp hroot hv =>
        subst hop
        refine ⟨m₀, proof, ?_, rfl⟩
        simp [delivery, hf, hp, hb, hst, hv, hroot]
      | _ => cases hm
  · rintro ⟨m₀, proof, hd, rfl⟩
    obtain ⟨b, rfl, hf, hb, hst, hp, hv, hroot⟩ := delivery_eq_some cr s op id m₀ proof hd
    refine ⟨?_, ?_, rfl⟩
    · unfold statusOf
      rw [hf]
      show some m₀.status ≠ _
      rw [hst]
      decide
    · have hmatch : ((s.knownStateRoots.find? (toLex (m₀.sourceChain, proof.blockNumber))).any
          fun root => decide (proof.root ≠ root)) = false := by
        cases hk : s.knownStateRoots.find? (toLex (m₀.sourceChain, proof.blockNumber)) with
        | none => rfl
        | some root => simpa [hk] using hroot
      have hr : s.verifyAndDeliver cr id b = .ok (s.settle id m₀ .delivered none) := by
        unfold verifyAndDeliver
        simp only [hf, if_neg (show ¬ b > m₀.expiresAt by omega), hst, ne_eq, not_true, if_false, hp, hmatch,
          Bool.false_eq_true, hv, Bool.true_eq_false]
      simp only [apply, hr]
      exact SortedMap.find?_insert_self _ _ _

/-! ## Known roots -/

theorem apply_knownStateRoots (cr : Crypto) (s : MessagingContract) (op : MessagingOp)
    (h : ∀ c b root, op ≠ .registerStateRoot c b root) :
    (s.apply cr op).knownStateRoots = s.knownStateRoots := by
  cases op with
  | registerStateRoot c b root => exact absurd rfl (h c b root)
  | sendMessage src dst sender recipient ty payload root b fee =>
    exact (sendMessage_messages cr s src dst sender recipient ty payload root b fee).1
  | relayMessage i proof =>
    apply Except.orKeep_of (fun t => t.knownStateRoots = s.knownStateRoots) _ s rfl
    intro t ht
    obtain ⟨m, m', -, -, -, -, -, -, hk⟩ := relayMessage_ok cr s t i proof ht
    exact hk
  | verifyAndDeliver i b =>
    apply Except.orKeep_map_of (fun t => t.knownStateRoots = s.knownStateRoots) _ s rfl
    intro t r ht
    obtain ⟨m, m', -, -, rfl⟩ := verifyAndDeliver_ok cr s t i b r ht
    rfl
  | cancelMessage i caller =>
    apply Except.orKeep_map_of (fun t => t.knownStateRoots = s.knownStateRoots) _ s rfl
    intro t fee ht
    obtain ⟨m, m', -, -, -, -, -, rfl⟩ := cancelMessage_ok cr s t i caller fee ht
    rfl
  | expireOldMessages order b => rfl

theorem after_snoc (cr : Crypto) (ops : List MessagingOp) (op : MessagingOp) :
    after cr (ops ++ [op]) = (after cr ops).apply cr op := List.foldl_append

/-- A known root was registered. -/
theorem registered_of_known (cr : Crypto) (ops : List MessagingOp) (c : ChainId) (b : Nat) (root : Hash)
    (h : (after cr ops).knownStateRoots.find? (toLex (c, b)) = some root) :
    .registerStateRoot c b root ∈ ops := by
  induction ops using List.reverseRecOn with
  | nil => cases h
  | append_singleton ops op ih =>
    rw [after_snoc] at h
    rw [List.mem_append]
    by_cases hop : ∃ c' b' root', op = .registerStateRoot c' b' root'
    · obtain ⟨c', b', root', rfl⟩ := hop
      have hfind : ((after cr ops).knownStateRoots.insert (toLex (c', b')) root').find? (toLex (c, b)) =
        some root := h
      by_cases hkey : toLex (c, b) = toLex (c', b')
      · rw [hkey, SortedMap.find?_insert_self] at hfind
        obtain ⟨rfl, rfl⟩ := Prod.mk.inj (toLex_inj.mp hkey)
        obtain rfl := Option.some.inj hfind
        exact .inr (List.mem_singleton.mpr rfl)
      · rw [SortedMap.find?_insert_ne _ _ _ _ hkey] at hfind
        exact .inl (ih hfind)
    · rw [apply_knownStateRoots cr _ op fun c' b' root' he => hop ⟨c', b', root', he⟩] at h
      exact .inl (ih h)

/-- A root that was registered is known, or another one for the same block. -/
theorem known_of_registered (cr : Crypto) (ops : List MessagingOp) (c : ChainId) (b : Nat) (root : Hash)
    (h : .registerStateRoot c b root ∈ ops) :
    ((after cr ops).knownStateRoots.find? (toLex (c, b))).isSome = true := by
  induction ops using List.reverseRecOn with
  | nil => cases h
  | append_singleton ops op ih =>
    rw [after_snoc]
    by_cases hop : ∃ c' b' root', op = .registerStateRoot c' b' root'
    · obtain ⟨c', b', root', rfl⟩ := hop
      show (((after cr ops).knownStateRoots.insert (toLex (c', b')) root').find? (toLex (c, b))).isSome = true
      by_cases hkey : toLex (c, b) = toLex (c', b')
      · rw [hkey, SortedMap.find?_insert_self]
        rfl
      · rw [SortedMap.find?_insert_ne _ _ _ _ hkey]
        rcases List.mem_append.mp h with h | h
        · exact ih h
        · -- the last call is for another block
          have he := List.mem_singleton.mp h
          cases he
          exact absurd rfl hkey
    · rw [apply_knownStateRoots cr _ op fun c' b' root' he => hop ⟨c', b', root', he⟩]
      rcases List.mem_append.mp h with h | h
      · exact ih h
      · exact absurd ⟨c, b, root, (List.mem_singleton.mp h).symm⟩ hop

end MessagingContract

/-! ## The leaves of the deliveries -/

/-- The contract with the ids and leaves of the deliveries so far. -/
structure DeliveryLog where
  contract : MessagingContract
  leaves : List (Nat × List UInt8)

namespace DeliveryLog

def new : DeliveryLog := ⟨.new, []⟩

/-- What a call adds to the log. -/
def entry (cr : Crypto) (s : MessagingContract) (op : MessagingOp) : List (Nat × List UInt8) :=
  match s.delivery cr op with
  | none => []
  | some (id, _, proof) => [(id, proof.leaf)]

def apply (cr : Crypto) (l : DeliveryLog) (op : MessagingOp) : DeliveryLog :=
  ⟨l.contract.apply cr op, l.leaves ++ entry cr l.contract op⟩

/-- A delivery finds a root for the block of its proof, and no other message delivered with
its leaf. -/
def attested (cr : Crypto) (l : DeliveryLog) (op : MessagingOp) : Bool :=
  match l.contract.delivery cr op with
  | none => true
  | some (id, m, proof) =>
    (l.contract.knownStateRoots.find? (toLex (m.sourceChain, proof.blockNumber))).isSome &&
      l.leaves.all fun e => decide (e.1 = id) || decide (e.2 ≠ proof.leaf)

theorem contract_run (cr : Crypto) (l : DeliveryLog) (ops : List MessagingOp) :
    (ops.foldl (apply cr) l).contract = ops.foldl (MessagingContract.apply cr) l.contract := by
  induction ops generalizing l with
  | nil => rfl
  | cons op ops ih => exact ih _

theorem contract_after (cr : Crypto) (ops : List MessagingOp) :
    (ops.foldl (apply cr) new).contract = MessagingContract.after cr ops := contract_run cr new ops

/-- The log holds the deliveries of the run. -/
theorem mem_leaves_iff (cr : Crypto) (ops : List MessagingOp) (id : Nat) (leaf : List UInt8) :
    (id, leaf) ∈ (ops.foldl (apply cr) new).leaves ↔
      ∃ pre op post m proof, ops = pre ++ op :: post ∧
        (MessagingContract.after cr pre).delivery cr op = some (id, m, proof) ∧ proof.leaf = leaf := by
  induction ops using List.reverseRecOn with
  | nil =>
    constructor
    · intro h
      cases h
    · rintro ⟨pre, op, post, m, proof, h, -⟩
      simp at h
  | append_singleton ops op ih =>
    rw [List.foldl_append]
    show (id, leaf) ∈ (ops.foldl (apply cr) new).leaves ++ entry cr (ops.foldl (apply cr) new).contract op ↔ _
    rw [List.mem_append, ih, contract_after]
    constructor
    · rintro (⟨pre, o, post, m, proof, rfl, hd, hleaf⟩ | hlast)
      · exact ⟨pre, o, post ++ [op], m, proof, by simp, hd, hleaf⟩
      · unfold entry at hlast
        split at hlast
        · cases hlast
        · next i m proof hd =>
          obtain ⟨rfl, rfl⟩ := Prod.mk.inj (List.mem_singleton.mp hlast)
          exact ⟨ops, op, [], m, proof, rfl, hd, rfl⟩
    · rintro ⟨pre, o, post, m, proof, hops, hd, hleaf⟩
      rcases (Run.concat_eq_split_iff ops pre post o op).mp hops with ⟨rfl, rfl, -⟩ | ⟨rest, -, rfl⟩
      · right
        unfold entry
        rw [hd, ← hleaf]
        exact List.mem_singleton.mpr rfl
      · left
        exact ⟨pre, o, rest, m, proof, rfl, hd, hleaf⟩

/-! ## Runs -/

theorem known_of_delivery {o : Option Hash} {root : Hash} (hsome : o.isSome = true)
    (hall : (o.all fun r => decide (root = r)) = true) : o = some root := by
  cases o with
  | none => cases hsome
  | some r =>
    have : root = r := by simpa using hall
    rw [this]

theorem proven_of_attested (cr : Crypto) (ops : List MessagingOp)
    (h : Run.Meets (apply cr) (fun l op => l.attested cr op = true) new ops) :
    MessagingContract.Proven cr ops := by
  rw [Run.meets_iff_split] at h
  have hatt : ∀ pre op post id m proof, ops = pre ++ op :: post →
      (MessagingContract.after cr pre).delivery cr op = some (id, m, proof) →
      ((MessagingContract.after cr pre).knownStateRoots.find?
          (toLex (m.sourceChain, proof.blockNumber))).isSome = true ∧
        ∀ e ∈ (pre.foldl (apply cr) new).leaves, e.1 = id ∨ e.2 ≠ proof.leaf := by
    intro pre op post id m proof hops hd
    have ha := h pre op post hops
    unfold attested at ha
    rw [contract_after, hd] at ha
    simp only [Bool.and_eq_true, List.all_eq_true, Bool.or_eq_true, decide_eq_true_eq] at ha
    exact ha
  refine ⟨?_, ?_⟩
  · intro pre op post id m hops hb
    obtain ⟨m₀, proof, hd, rfl⟩ :=
      (MessagingContract.becomes_iff cr _ op id m (MessagingContract.numbered_after cr pre)).mp hb
    obtain ⟨b, -, -, -, -, hp, hv, hroot⟩ := MessagingContract.delivery_eq_some cr _ op id m₀ proof hd
    obtain ⟨hsome, -⟩ := hatt pre op post id m₀ proof hops hd
    exact ⟨proof, hp, hv, MessagingContract.registered_of_known cr pre _ _ _ (known_of_delivery hsome hroot)⟩
  · intro pre op mid op' post id m id' m' hops hb hb' hne
    obtain ⟨m₀, proof, hd, rfl⟩ :=
      (MessagingContract.becomes_iff cr _ op id m (MessagingContract.numbered_after cr pre)).mp hb
    obtain ⟨m₀', proof', hd', rfl⟩ :=
      (MessagingContract.becomes_iff cr _ op' id' m' (MessagingContract.numbered_after cr _)).mp hb'
    obtain ⟨b, -, -, -, -, hp, -⟩ := MessagingContract.delivery_eq_some cr _ op id m₀ proof hd
    obtain ⟨b', -, -, -, -, hp', -⟩ := MessagingContract.delivery_eq_some cr _ op' id' m₀' proof' hd'
    have hsplit : ops = (pre ++ op :: mid) ++ op' :: post := by simpa using hops
    obtain ⟨-, hleaves⟩ := hatt _ op' post id' m₀' proof' hsplit hd'
    have hlogged : (id, proof.leaf) ∈ ((pre ++ op :: mid).foldl (apply cr) new).leaves :=
      (mem_leaves_iff cr _ id proof.leaf).mpr ⟨pre, op, mid, m₀, proof, rfl, hd, rfl⟩
    show m₀.inclusionProof.map _ ≠ m₀'.inclusionProof.map _
    rw [hp, hp']
    rcases hleaves _ hlogged with h | h
    · exact absurd h hne
    · exact fun he => h (Option.some.inj he)

theorem attested_of_proven (cr : Crypto) (ops : List MessagingOp) (h : MessagingContract.Proven cr ops) :
    Run.Meets (apply cr) (fun l op => l.attested cr op = true) new ops := by
  rw [Run.meets_iff_split]
  intro pre op post hops
  unfold attested
  rw [contract_after]
  cases hd : (MessagingContract.after cr pre).delivery cr op with
  | none => rfl
  | some d =>
    obtain ⟨id, m, proof⟩ := d
    have hb := (MessagingContract.becomes_iff cr _ op id _ (MessagingContract.numbered_after cr pre)).mpr
      ⟨m, proof, hd, rfl⟩
    obtain ⟨b, -, -, -, -, hp, -⟩ := MessagingContract.delivery_eq_some cr _ op id m proof hd
    simp only [Bool.and_eq_true, List.all_eq_true, Bool.or_eq_true, decide_eq_true_eq]
    constructor
    · obtain ⟨proof', hp', -, hreg⟩ := h.rooted pre op post id _ hops hb
      have hsame : m.inclusionProof = some proof' := hp'
      rw [hp] at hsame
      obtain rfl := Option.some.inj hsame
      exact MessagingContract.known_of_registered cr pre _ _ _ hreg
    · rintro ⟨i, leaf⟩ he
      obtain ⟨pre', o, post', m', proof', rfl, hd', rfl⟩ := (mem_leaves_iff cr pre i leaf).mp he
      by_cases hi : i = id
      · exact .inl hi
      · right
        have hb' := (MessagingContract.becomes_iff cr _ o i _ (MessagingContract.numbered_after cr pre')).mpr
          ⟨m', proof', hd', rfl⟩
        obtain ⟨b', -, -, -, -, hp', -⟩ := MessagingContract.delivery_eq_some cr _ o i m' proof' hd'
        have hne := h.committed pre' o post' op post i _ id _ (by simpa using hops) hb' hb hi
        show proof'.leaf ≠ proof.leaf
        intro hleaf
        apply hne
        show m'.inclusionProof.map _ = m.inclusionProof.map _
        rw [hp, hp']
        exact congrArg some hleaf

end DeliveryLog

namespace MessagingContract

/-- A message is delivered for a chain without known roots. -/
def sampleUnknownRoot : List MessagingOp :=
  [sampleSend [1], MessagingOp.relayMessage 1 sampleProof, MessagingOp.verifyAndDeliver 1 20]

/-- Two messages are delivered with one proof. -/
def sampleSharedProof : List MessagingOp :=
  [MessagingOp.registerStateRoot ⟨1⟩ 10 sampleProof.root, sampleSend [1], sampleSend [2],
    MessagingOp.relayMessage 1 sampleProof, MessagingOp.relayMessage 2 sampleProof,
    MessagingOp.verifyAndDeliver 1 20, MessagingOp.verifyAndDeliver 2 20]

end MessagingContract

end Kratos
