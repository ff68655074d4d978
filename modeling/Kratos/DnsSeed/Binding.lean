import Kratos.DnsSeed.Messages

/-!
# What a DNS seed's signature binds

Two messages with the same signing data are the same message if and only if their variable
parts are laid out in the same way: the lengths of the strings, and which of the options are
there (`HeartbeatMessage.layout`, `IdPeersFile.layout`).  The data itself does not say how it
is laid out, so no message is bound: an empty address or bootnode leaves the data, and so the
signature, as it was.
-/

namespace Kratos

open Codec

namespace Bincode

theorem prefixFree_bool : PrefixFree (fun _ : Bool => True) bool :=
  prefixFree_of_length 1 (fun b => Bytes.length_le 1 b.toNat) (by decide)

theorem prefixFree_i32 : PrefixFree (fun _ : Int32 => True) i32 := by
  refine prefixFree_of_length 4 (fun x => Bytes.length_le 4 _) fun x y _ _ h => ?_
  have hx := x.toUInt32.toNat_lt
  have hy := y.toUInt32.toNat_lt
  have hnat := Bytes.le_inj 4 _ _ (by omega) (by omega) h
  cases x
  cases y
  rw [Int32.ofUInt32.injEq]
  exact UInt32.toNat_inj.1 hnat

theorem prefixFree_vec {α : Type} {D : α → Prop} {enc : α → List UInt8} (h : PrefixFree D enc) :
    PrefixFree (fun l : List α => l.length < 2 ^ 64 ∧ ∀ a ∈ l, D a) (vec enc) := fun l m s t hl hm heq =>
  h.list 8 l m s t ⟨by have := hl.1; omega, hl.2⟩ ⟨by have := hm.1; omega, hm.2⟩ heq

theorem prefixFree_hexString : PrefixFree (fun b => b.length = 32) hexString := by
  intro a b s t ha hb h
  have hlen : ∀ c : List UInt8, c.length = 32 → (hex c).length < 2 ^ 64 := by
    intro c hc
    rw [length_hex, hc]
    omega
  obtain ⟨hhex, hrest⟩ := prefixFree_bytes _ _ s t (hlen a ha) (hlen b hb) h
  exact ⟨hex_inj a b hhex, hrest⟩

theorem prefixFree_hexHash : PrefixFree (fun _ : Hash => True) (fun h => hexString h.asBytes) := fun x y s t _ _ h =>
  prefixFree_hexString.comap Hash.asBytes Hash.asBytes_inj x y s t x.length_asBytes y.length_asBytes h

theorem prefixFree_hexId : PrefixFree (fun _ : AccountId => True) (fun a => hexString a.asBytes) := fun x y s t _ _ h =>
  prefixFree_hexString.comap AccountId.asBytes AccountId.asBytes_inj x y s t x.length_asBytes y.length_asBytes h

end Bincode

namespace DnsSeed

/-! ## Records in bincode -/

theorem SecurityState.index_inj (a b : SecurityState) (h : a.index = b.index) : a = b := by
  cases a <;> cases b <;> first | rfl | cases h

theorem prefixFree_securityState :
    PrefixFree (fun _ : SecurityState => True) (fun s => Bincode.u32 s.index) := by
  intro a b s t _ _ h
  have hlt : ∀ x : SecurityState, x.index < 2 ^ 32 := by
    intro x
    cases x <;> decide
  exact Bincode.prefixFree_u32.comap SecurityState.index SecurityState.index_inj a b s t (hlt a) (hlt b) h

theorem NetworkStateInfo.prefixFree : PrefixFree (fun _ => True) NetworkStateInfo.encode := by
  intro a b s t _ _ h
  simp only [encode, List.append_assoc] at h
  obtain ⟨hgenesis, h⟩ := Bincode.prefixFree_hexHash _ _ _ _ trivial trivial h
  obtain ⟨hheight, h⟩ := Bincode.prefixFree_nonce _ _ _ _ trivial trivial h
  obtain ⟨hvalidators, h⟩ := Bincode.prefixFree_fin32 _ _ _ _ trivial trivial h
  obtain ⟨hsecurity, h⟩ := prefixFree_securityState _ _ _ _ trivial trivial h
  obtain ⟨hstake, h⟩ := Bincode.prefixFree_balance _ _ _ _ trivial trivial h
  obtain ⟨hrate, h⟩ := Bincode.prefixFree_nonce _ _ _ _ trivial trivial h
  obtain ⟨hinflation, h⟩ := Bincode.prefixFree_nonce _ _ _ _ trivial trivial h
  obtain ⟨hpeers, h⟩ := Bincode.prefixFree_fin32 _ _ _ _ trivial trivial h
  obtain ⟨htime, hst⟩ := Bincode.prefixFree_nonce _ _ _ _ trivial trivial h
  cases a
  cases b
  simp only at hgenesis hheight hvalidators hsecurity hstake hrate hinflation hpeers htime
  subst hgenesis hheight hvalidators hsecurity hstake hrate hinflation hpeers htime
  exact ⟨rfl, hst⟩

/-- Lengths have 64 bits, as those of all strings and vectors in memory. -/
structure PeerInfo.Fits (p : PeerInfo) : Prop where
  libp2pPeerId : FitsString p.libp2pPeerId
  addresses : p.addresses.length < 2 ^ 64 ∧ ∀ a ∈ p.addresses, FitsString a
  region : ∀ r, p.region = some r → FitsString r

theorem PeerInfo.prefixFree : PrefixFree PeerInfo.Fits PeerInfo.encode := by
  intro a b s t ha hb h
  simp only [encode, List.append_assoc] at h
  obtain ⟨hid, h⟩ := Bincode.prefixFree_hexId _ _ _ _ trivial trivial h
  obtain ⟨hlibp2p, h⟩ := Bincode.prefixFree_string _ _ _ _ ha.libp2pPeerId hb.libp2pPeerId h
  obtain ⟨haddresses, h⟩ := Bincode.prefixFree_vec Bincode.prefixFree_string _ _ _ _ ha.addresses hb.addresses h
  obtain ⟨hseen, h⟩ := Bincode.prefixFree_nonce _ _ _ _ trivial trivial h
  obtain ⟨hheight, h⟩ := Bincode.prefixFree_nonce _ _ _ _ trivial trivial h
  obtain ⟨hvalidator, h⟩ := Bincode.prefixFree_bool _ _ _ _ trivial trivial h
  obtain ⟨hscore, h⟩ := Bincode.prefixFree_i32 _ _ _ _ trivial trivial h
  obtain ⟨hregion, h⟩ := Bincode.prefixFree_option Bincode.prefixFree_string _ _ _ _ ha.region hb.region h
  obtain ⟨hprotocol, hst⟩ := Bincode.prefixFree_fin32 _ _ _ _ trivial trivial h
  cases a
  cases b
  simp only at hid hlibp2p haddresses hseen hheight hvalidator hscore hregion hprotocol
  subst hid hlibp2p haddresses hseen hheight hvalidator hscore hregion hprotocol
  exact ⟨rfl, hst⟩

/-! ## Fields without a length -/

theorem utf8_empty : utf8 "" = [] := by decide +kernel

/-- Strings without their lengths. -/
theorem flatMap_utf8_inj (l m : List String) (s t : List UInt8)
    (hlen : l.map (fun a => (utf8 a).length) = m.map fun a => (utf8 a).length)
    (h : l.flatMap utf8 ++ s = m.flatMap utf8 ++ t) : l = m ∧ s = t := by
  rw [List.flatMap_def, List.flatMap_def] at h
  obtain ⟨hmap, hst⟩ := flatten_inj (l.map utf8) (m.map utf8) s t (by rw [List.map_map, List.map_map]; exact hlen) h
  exact ⟨List.map_injective_iff.2 toUTF8_inj hmap, hst⟩

/-! ## Heartbeats -/

namespace HeartbeatMessage

/-- The fields other than the signature are the same. -/
def SameContent (m m' : HeartbeatMessage) : Prop := { m with signature := m'.signature } = m'

instance (m m' : HeartbeatMessage) : Decidable (SameContent m m') :=
  inferInstanceAs (Decidable ({ m with signature := m'.signature } = m'))

/-- What the signing data does not show: where the strings end and which options are there. -/
structure Layout where
  libp2pPeerId : Nat
  addresses : List Nat
  validatorCount : Bool
  totalStake : Bool
deriving DecidableEq, Repr

def layout (m : HeartbeatMessage) : Layout :=
  { libp2pPeerId := (utf8 m.libp2pPeerId).length
    addresses := m.addresses.map fun a => (utf8 a).length
    validatorCount := m.validatorCount.isSome
    totalStake := m.totalStake.isSome }

/-- **Heartbeats of one layout** with the same signing data have the same content. -/
theorem sameContent_of_layout (m m' : HeartbeatMessage) (hdata : m.signingData = m'.signingData)
    (hlayout : m.layout = m'.layout) : SameContent m m' := by
  simp only [layout, Layout.mk.injEq] at hlayout
  obtain ⟨hidLen, haddrLen, hcountSome, hstakeSome⟩ := hlayout
  unfold signingData at hdata
  obtain ⟨hversion, h⟩ := Bincode.prefixFree_fin32 _ _ _ _ trivial trivial hdata
  obtain ⟨hpeer, h⟩ := List.append_inj h (by simp)
  obtain ⟨hid, h⟩ := List.append_inj h hidLen
  obtain ⟨haddresses, h⟩ := flatMap_utf8_inj _ _ _ _ haddrLen h
  obtain ⟨hheight, h⟩ := Bincode.prefixFree_nonce _ _ _ _ trivial trivial h
  obtain ⟨hbest, h⟩ := List.append_inj h (by simp)
  obtain ⟨hgenesis, h⟩ := List.append_inj h (by simp)
  obtain ⟨hvalidator, h⟩ := List.append_inj h rfl
  obtain ⟨hcount, h⟩ := Bincode.prefixFree_fin32.elim _ _ _ _ hcountSome h
  obtain ⟨hstake, h⟩ := Bincode.prefixFree_balance.elim _ _ _ _ hstakeSome h
  obtain ⟨hprotocol, h⟩ := Bincode.prefixFree_fin32 _ _ _ _ trivial trivial h
  have htime := Bincode.prefixFree_nonce.inj _ _ trivial trivial h
  have hbool : m.isValidator = m'.isValidator := by
    revert hvalidator
    cases m.isValidator <;> cases m'.isValidator <;> decide
  cases m
  cases m'
  unfold SameContent
  rw [HeartbeatMessage.mk.injEq]
  exact ⟨hversion, AccountId.asBytes_inj _ _ hpeer, toUTF8_inj _ _ hid, haddresses, hheight,
    Hash.asBytes_inj _ _ hbest, Hash.asBytes_inj _ _ hgenesis, hbool, hcount, hstake, hprotocol, htime, rfl⟩

theorem layout_of_sameContent (m m' : HeartbeatMessage) (h : SameContent m m') : m.layout = m'.layout := by
  unfold SameContent at h
  rw [← h]
  rfl

/-- The message with one more address, which is empty. -/
def padded (m : HeartbeatMessage) : HeartbeatMessage := { m with addresses := m.addresses ++ [""] }

theorem signingData_padded (m : HeartbeatMessage) : m.padded.signingData = m.signingData := by
  unfold signingData padded
  simp only [List.flatMap_append, List.flatMap_cons, List.flatMap_nil, utf8_empty, List.append_nil]

theorem not_sameContent_padded (m : HeartbeatMessage) : ¬ SameContent m m.padded := by
  intro h
  have haddresses : m.addresses = m.addresses ++ [""] := congrArg HeartbeatMessage.addresses h
  simpa using congrArg List.length haddresses

end HeartbeatMessage

/-! ## Files of peers -/

namespace IdPeersFile

def SameContent (f f' : IdPeersFile) : Prop := { f with signature := f'.signature } = f'

def Fits (f : IdPeersFile) : Prop := f.peers.length < 2 ^ 64 ∧ ∀ p ∈ f.peers, p.Fits

/-- Where the fallback bootnodes end. -/
def layout (f : IdPeersFile) : List Nat := f.fallbackBootnodes.map fun b => (utf8 b).length

/-- **Files of one layout** with the same signing data have the same content. -/
theorem sameContent_of_layout (f f' : IdPeersFile) (hf : f.Fits) (hf' : f'.Fits)
    (hdata : f.signingData = f'.signingData) (hlayout : f.layout = f'.layout) : SameContent f f' := by
  unfold signingData at hdata
  obtain ⟨hversion, h⟩ := Bincode.prefixFree_fin32 _ _ _ _ trivial trivial hdata
  obtain ⟨htime, h⟩ := Bincode.prefixFree_nonce _ _ _ _ trivial trivial h
  obtain ⟨hseed, h⟩ := List.append_inj h (by simp)
  obtain ⟨hstate, h⟩ := NetworkStateInfo.prefixFree _ _ _ _ trivial trivial h
  obtain ⟨hpeers, h⟩ := Bincode.prefixFree_vec PeerInfo.prefixFree _ _ _ _ hf hf' h
  have hbootnodes := (flatMap_utf8_inj _ _ [] [] hlayout (congrArg (· ++ []) h)).1
  cases f
  cases f'
  unfold SameContent
  rw [IdPeersFile.mk.injEq]
  exact ⟨hversion, htime, AccountId.asBytes_inj _ _ hseed, rfl, hstate, hpeers, hbootnodes⟩

theorem layout_of_sameContent (f f' : IdPeersFile) (h : SameContent f f') : f.layout = f'.layout := by
  unfold SameContent at h
  rw [← h]
  rfl

/-- The file with one more fallback bootnode, which is empty. -/
def padded (f : IdPeersFile) : IdPeersFile := { f with fallbackBootnodes := f.fallbackBootnodes ++ [""] }

theorem signingData_padded (f : IdPeersFile) : f.padded.signingData = f.signingData := by
  unfold signingData padded
  simp only [List.flatMap_append, List.flatMap_cons, List.flatMap_nil, utf8_empty, List.append_nil]

theorem not_sameContent_padded (f : IdPeersFile) : ¬ SameContent f f.padded := by
  intro h
  have hbootnodes : f.fallbackBootnodes = f.fallbackBootnodes ++ [""] := congrArg IdPeersFile.fallbackBootnodes h
  simpa using congrArg List.length hbootnodes

end IdPeersFile

/-! ## What is bound -/

/-- **Binding.**  The node and the seed sign the same data.  Two heartbeats, or two files,
with the same signing data have the same content if and only if they have the same layout.
No message is bound: for every heartbeat and every file there is another one with the same
data and signature, which is verified with the same result. -/
theorem signing_data_binds_iff (m m' : HeartbeatMessage) (f f' : IdPeersFile)
    (sent : DnsSeedClient.HeartbeatMessage) :
    (m.signingData = m'.signingData → (m.SameContent m' ↔ m.layout = m'.layout)) ∧
    (f.Fits → f'.Fits → f.signingData = f'.signingData → (f.SameContent f' ↔ f.layout = f'.layout)) ∧
    sent.signingData = sent.received.signingData ∧
    (∃ other : HeartbeatMessage, other.signature = m.signature ∧ other.signingData = m.signingData ∧
      ¬ m.SameContent other ∧ ∀ cr, verifyHeartbeat cr other = verifyHeartbeat cr m) ∧
    (f.Fits → ∃ other : IdPeersFile, other.Fits ∧ other.signature = f.signature ∧
      other.signingData = f.signingData ∧ ¬ f.SameContent other ∧
        ∀ cr, verifyIdpeersFile cr other = verifyIdpeersFile cr f) := by
  refine ⟨fun hdata => ?_, fun hf hf' hdata => ?_, rfl, ?_, fun hf => ?_⟩
  · exact ⟨m.layout_of_sameContent m', m.sameContent_of_layout m' hdata⟩
  · exact ⟨f.layout_of_sameContent f', f.sameContent_of_layout f' hf hf' hdata⟩
  · refine ⟨m.padded, rfl, m.signingData_padded, m.not_sameContent_padded, fun cr => ?_⟩
    unfold verifyHeartbeat
    rw [m.signingData_padded]
    rfl
  · refine ⟨f.padded, hf, rfl, f.signingData_padded, f.not_sameContent_padded, fun cr => ?_⟩
    unfold verifyIdpeersFile
    rw [f.signingData_padded]
    rfl

/-- A heartbeat with some addresses. -/
def sampleHeartbeat (addresses : List String) : HeartbeatMessage :=
  { version := 1, peerId := ⟨1⟩, libp2pPeerId := "12D3KooW", addresses, currentHeight := 12345
    bestHash := Hash.zero, genesisHash := ⟨1⟩, isValidator := true, validatorCount := some 100
    totalStake := some 1000000000000000, protocolVersion := 1, timestamp := 1703318400
    signature := Signature64.zero }

/-- One address or its two halves: both are accepted under one signature. -/
theorem heartbeat_address_split :
    ¬ ∀ (cr : Crypto) (m m' : HeartbeatMessage), verifyHeartbeat cr m = .ok () → verifyHeartbeat cr m' = .ok () →
      m.signature = m'.signature → m.signingData = m'.signingData → m.SameContent m' := by
  intro h
  have hsame := h Crypto.sample (sampleHeartbeat ["/ip4/1.2.3.4/tcp/30333"])
    (sampleHeartbeat ["/ip4/1.2.3.4", "/tcp/30333"]) rfl rfl rfl (by decide +kernel)
  exact absurd hsame (by decide)

/-! ## Signing and verifying -/

/-- What is signed under a domain is accepted under it. -/
theorem verifyData_sign (cr : Crypto) (key : AccountId) (sign : List UInt8 → Signature64)
    (hkey : cr.ed25519Key key = true)
    (hsign : ∀ message, cr.ed25519Verify key message (sign message) = true) (domain data : List UInt8) :
    verifyData cr key domain data (sign (domainSeparate domain data)) = .ok () := by
  unfold verifyData
  rw [hkey, hsign]
  rfl

/-- A file that a seed signs is accepted as this seed's. -/
theorem verifyIdpeers_sign (cr : Crypto) (f : IdPeersFile) (sign : List UInt8 → Signature64)
    (hkey : cr.ed25519Key f.dnsSeedId = true)
    (hsign : ∀ message, cr.ed25519Verify f.dnsSeedId message (sign message) = true) :
    verifyIdpeersWithSeedId cr { f with signature := signIdpeersFile sign f } f.dnsSeedId = .ok () := by
  unfold verifyIdpeersWithSeedId
  rw [if_neg (not_not.2 rfl)]
  exact verifyData_sign cr f.dnsSeedId sign hkey hsign domainIdpeers f.signingData

end DnsSeed

namespace DnsSeedClient

/-- A heartbeat that a node signs is accepted by the seed, which would have signed it in the
same way. -/
theorem verifyHeartbeat_sign (cr : Crypto) (m : HeartbeatMessage) (keypair : List UInt8 → Signature64)
    (hkey : cr.ed25519Key m.peerId = true)
    (hsign : ∀ message, cr.ed25519Verify m.peerId message (keypair message) = true) :
    (m.sign keypair).signature = DnsSeed.signHeartbeat keypair m.received ∧
      DnsSeed.verifyHeartbeat cr (m.sign keypair).received = .ok () :=
  ⟨rfl, DnsSeed.verifyData_sign cr m.peerId keypair hkey hsign _ _⟩

end DnsSeedClient

end Kratos
