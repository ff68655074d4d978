import Kratos.Types.Bincode

/-!
# Messages of the DNS seeds

A node announces itself to a seed with a signed heartbeat; the seed collects what it hears
and publishes it, signed, as the file of known peers.  Both crates define the heartbeat and
the bytes that are signed for it: `DnsSeed` is the seed's side, `DnsSeedClient` the node's.

The 32 bytes of a peer or seed id are its ed25519 public key.  A floating-point field is its
64 bits, which is what bincode writes.
-/

namespace Kratos

open Codec

/-- `str::as_bytes` -/
def utf8 (s : String) : List UInt8 := s.toUTF8.toList

namespace Bincode

def bool (b : Bool) : List UInt8 := u8 b.toNat

/-- Two's complement. -/
def i32 (x : Int32) : List UInt8 := Bytes.le 4 x.toUInt32.toNat

def vec {α : Type} (enc : α → List UInt8) (l : List α) : List UInt8 := u64 l.length ++ l.flatMap enc

/-- `hash_serde`: the string of 64 hexadecimal digits. -/
def hexString (b : List UInt8) : List UInt8 := bytes (hex b)

end Bincode

namespace DnsSeed

/-! ## Types -/

inductive SecurityState where
  | bootstrap
  | normal
  | degraded
  | restricted
  | emergency
deriving DecidableEq, Repr

def SecurityState.index : SecurityState → Nat
  | bootstrap => 0
  | normal => 1
  | degraded => 2
  | restricted => 3
  | emergency => 4

structure HeartbeatMessage where
  version : Fin (2 ^ 32)
  peerId : AccountId
  libp2pPeerId : String
  addresses : List String
  currentHeight : Fin (2 ^ 64)
  bestHash : Hash
  genesisHash : Hash
  isValidator : Bool
  validatorCount : Option (Fin (2 ^ 32))
  totalStake : Option Balance
  protocolVersion : Fin (2 ^ 32)
  timestamp : Fin (2 ^ 64)
  signature : Signature64
deriving DecidableEq, Repr

structure NetworkStateInfo where
  genesisHash : Hash
  bestHeight : Fin (2 ^ 64)
  activeValidators : Fin (2 ^ 32)
  securityState : SecurityState
  totalStake : Balance
  participationRate : Fin (2 ^ 64)
  estimatedInflation : Fin (2 ^ 64)
  activePeers : Fin (2 ^ 32)
  timestamp : Fin (2 ^ 64)
deriving DecidableEq, Repr

structure PeerInfo where
  peerId : AccountId
  libp2pPeerId : String
  addresses : List String
  lastSeen : Fin (2 ^ 64)
  height : Fin (2 ^ 64)
  isValidator : Bool
  score : Int32
  region : Option String
  protocolVersion : Fin (2 ^ 32)
deriving DecidableEq, Repr

structure IdPeersFile where
  version : Fin (2 ^ 32)
  generatedAt : Fin (2 ^ 64)
  dnsSeedId : AccountId
  signature : Signature64
  networkState : NetworkStateInfo
  peers : List PeerInfo
  fallbackBootnodes : List String
deriving DecidableEq, Repr

/-! ## Bytes -/

/-- Fields one after the other: neither strings nor the list of addresses have a length, and
an absent option leaves nothing. -/
def HeartbeatMessage.signingData (m : HeartbeatMessage) : List UInt8 :=
  Bytes.le 4 m.version.val ++ (m.peerId.asBytes ++ (utf8 m.libp2pPeerId ++ (m.addresses.flatMap utf8 ++
    (Bytes.le 8 m.currentHeight.val ++ (m.bestHash.asBytes ++ (m.genesisHash.asBytes ++
      ([UInt8.ofNat m.isValidator.toNat] ++ (m.validatorCount.elim [] (fun vc => Bytes.le 4 vc.val) ++
        (m.totalStake.elim [] (fun ts => Bytes.le 16 ts.val) ++ (Bytes.le 4 m.protocolVersion.val ++
          Bytes.le 8 m.timestamp.val))))))))))

def NetworkStateInfo.encode (n : NetworkStateInfo) : List UInt8 :=
  Bincode.hexString n.genesisHash.asBytes ++ (Bincode.u64 n.bestHeight.val ++
    (Bincode.u32 n.activeValidators.val ++ (Bincode.u32 n.securityState.index ++
      (Bincode.u128 n.totalStake.val ++ (Bincode.u64 n.participationRate.val ++
        (Bincode.u64 n.estimatedInflation.val ++ (Bincode.u32 n.activePeers.val ++
          Bincode.u64 n.timestamp.val)))))))

def PeerInfo.encode (p : PeerInfo) : List UInt8 :=
  Bincode.hexString p.peerId.asBytes ++ (Bincode.string p.libp2pPeerId ++
    (Bincode.vec Bincode.string p.addresses ++ (Bincode.u64 p.lastSeen.val ++ (Bincode.u64 p.height.val ++
      (Bincode.bool p.isValidator ++ (Bincode.i32 p.score ++ (Bincode.option Bincode.string p.region ++
        Bincode.u32 p.protocolVersion.val)))))))

/-- The state and the peers are in bincode, the fallback bootnodes without a length. -/
def IdPeersFile.signingData (f : IdPeersFile) : List UInt8 :=
  Bytes.le 4 f.version.val ++ (Bytes.le 8 f.generatedAt.val ++ (f.dnsSeedId.asBytes ++
    (f.networkState.encode ++ (Bincode.vec PeerInfo.encode f.peers ++ f.fallbackBootnodes.flatMap utf8))))

/-! ## Signatures -/

def domainHeartbeat : List UInt8 := Bytes.ascii "KRATOS_DNS_HEARTBEAT_V1:"
def domainIdpeers : List UInt8 := Bytes.ascii "KRATOS_IDPEERS_V1:"

inductive SignatureError where
  | invalidPublicKey
  | invalidSignature
  | seedIdMismatch
deriving DecidableEq, Repr

/-- A signature of some data under a domain. -/
def verifyData (cr : Crypto) (key : AccountId) (domain data : List UInt8) (signature : Signature64) :
    Except SignatureError Unit :=
  if cr.ed25519Key key = false then .error .invalidPublicKey
  else if cr.ed25519Verify key (domainSeparate domain data) signature = false then .error .invalidSignature
  else .ok ()

/-- A signing key is the function that signs with it. -/
def signHeartbeat (sign : List UInt8 → Signature64) (m : HeartbeatMessage) : Signature64 :=
  sign (domainSeparate domainHeartbeat m.signingData)

def verifyHeartbeat (cr : Crypto) (m : HeartbeatMessage) : Except SignatureError Unit :=
  verifyData cr m.peerId domainHeartbeat m.signingData m.signature

def signIdpeersFile (sign : List UInt8 → Signature64) (f : IdPeersFile) : Signature64 :=
  sign (domainSeparate domainIdpeers f.signingData)

def verifyIdpeersFile (cr : Crypto) (f : IdPeersFile) : Except SignatureError Unit :=
  verifyData cr f.dnsSeedId domainIdpeers f.signingData f.signature

def verifyIdpeersWithSeedId (cr : Crypto) (f : IdPeersFile) (expectedSeedId : AccountId) :
    Except SignatureError Unit :=
  if f.dnsSeedId ≠ expectedSeedId then .error .seedIdMismatch else verifyIdpeersFile cr f

end DnsSeed

/-! ## The node's side -/

namespace DnsSeedClient

def domainHeartbeat : List UInt8 := Bytes.ascii "KRATOS_DNS_HEARTBEAT_V1:"

structure HeartbeatMessage where
  version : Fin (2 ^ 32)
  peerId : AccountId
  libp2pPeerId : String
  addresses : List String
  currentHeight : Fin (2 ^ 64)
  bestHash : Hash
  genesisHash : Hash
  isValidator : Bool
  validatorCount : Option (Fin (2 ^ 32))
  totalStake : Option Balance
  protocolVersion : Fin (2 ^ 32)
  timestamp : Fin (2 ^ 64)
  signature : Signature64
deriving DecidableEq, Repr

namespace HeartbeatMessage

def signingData (m : HeartbeatMessage) : List UInt8 :=
  Bytes.le 4 m.version.val ++ (m.peerId.asBytes ++ (utf8 m.libp2pPeerId ++ (m.addresses.flatMap utf8 ++
    (Bytes.le 8 m.currentHeight.val ++ (m.bestHash.asBytes ++ (m.genesisHash.asBytes ++
      ([UInt8.ofNat m.isValidator.toNat] ++ (m.validatorCount.elim [] (fun vc => Bytes.le 4 vc.val) ++
        (m.totalStake.elim [] (fun ts => Bytes.le 16 ts.val) ++ (Bytes.le 4 m.protocolVersion.val ++
          Bytes.le 8 m.timestamp.val))))))))))

def sign (m : HeartbeatMessage) (keypair : List UInt8 → Signature64) : HeartbeatMessage :=
  { m with signature := keypair (domainHeartbeat ++ m.signingData) }

/-- The message as the seed reads it: the two types have the same fields in the same order. -/
def received (m : HeartbeatMessage) : DnsSeed.HeartbeatMessage :=
  { version := m.version, peerId := m.peerId, libp2pPeerId := m.libp2pPeerId, addresses := m.addresses
    currentHeight := m.currentHeight, bestHash := m.bestHash, genesisHash := m.genesisHash
    isValidator := m.isValidator, validatorCount := m.validatorCount, totalStake := m.totalStake
    protocolVersion := m.protocolVersion, timestamp := m.timestamp, signature := m.signature }

end HeartbeatMessage

end DnsSeedClient

end Kratos
