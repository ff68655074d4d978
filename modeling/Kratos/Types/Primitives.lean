import Kratos.Lib.Bytes
import Kratos.Lib.Word

/-!
# Primitive types

Hashes, account ids, balances and the two cryptographic functions the node
calls.  A 32-byte string is the number it spells in big-endian order, so the
numeric order on ids is the lexicographic order on their bytes that `BTreeMap`
uses.  `blake3` and ed25519 verification are parameters (`Crypto`); the bincode
encodings are written out where they are hashed or signed.
-/

namespace Kratos

/-! Numerals of the fixed widths in use. -/

theorem two_pow_ne_zero (n : Nat) : 2 ^ n ≠ 0 := (Nat.two_pow_pos n).ne'

instance neZero_u32 : NeZero (2 ^ 32) := ⟨two_pow_ne_zero 32⟩

instance neZero_u64 : NeZero (2 ^ 64) := ⟨two_pow_ne_zero 64⟩

instance neZero_u128 : NeZero (2 ^ 128) := ⟨two_pow_ne_zero 128⟩

instance neZero_bytes32 : NeZero (2 ^ 256) := ⟨two_pow_ne_zero 256⟩

instance neZero_bytes64 : NeZero (2 ^ 512) := ⟨two_pow_ne_zero 512⟩

/-- `[u8; 32]`, read in big-endian order. -/
abbrev Bytes32 := Fin (2 ^ 256)

/-- Blake3 digest. -/
structure Hash where
  bytes : Bytes32
deriving DecidableEq, Inhabited, Repr

/-- Ed25519 public key. -/
structure AccountId where
  bytes : Bytes32
deriving DecidableEq, Inhabited, Repr

/-- Ed25519 signature, 64 bytes. -/
structure Signature64 where
  bytes : Fin (2 ^ 512)
deriving DecidableEq, Inhabited, Repr

structure ChainId where
  id : Fin (2 ^ 32)
deriving DecidableEq, Inhabited, Repr

instance : LinearOrder Hash :=
  LinearOrder.lift' Hash.bytes fun a b h => by cases a; cases b; cases h; rfl

instance : LinearOrder AccountId :=
  LinearOrder.lift' AccountId.bytes fun a b h => by cases a; cases b; cases h; rfl

instance : LinearOrder ChainId :=
  LinearOrder.lift' ChainId.id fun a b h => by cases a; cases b; cases h; rfl

def Hash.zero : Hash := ⟨0⟩

def Hash.asBytes (h : Hash) : List UInt8 := Bytes.be 32 h.bytes.val

def AccountId.asBytes (a : AccountId) : List UInt8 := Bytes.be 32 a.bytes.val

def Signature64.zero : Signature64 := ⟨0⟩

@[simp] theorem Hash.length_asBytes (h : Hash) : h.asBytes.length = 32 := Bytes.length_be 32 _

@[simp] theorem AccountId.length_asBytes (a : AccountId) : a.asBytes.length = 32 := Bytes.length_be 32 _

theorem Hash.asBytes_inj (a b : Hash) (h : a.asBytes = b.asBytes) : a = b := by
  have : a.bytes.val = b.bytes.val :=
    Bytes.be_inj 32 _ _ (by have := a.bytes.isLt; omega) (by have := b.bytes.isLt; omega) h
  cases a; cases b
  rw [Hash.mk.injEq]
  exact Fin.ext this

theorem AccountId.asBytes_inj (a b : AccountId) (h : a.asBytes = b.asBytes) : a = b := by
  have : a.bytes.val = b.bytes.val :=
    Bytes.be_inj 32 _ _ (by have := a.bytes.isLt; omega) (by have := b.bytes.isLt; omega) h
  cases a; cases b
  rw [AccountId.mk.injEq]
  exact Fin.ext this

/-! ## Numbers -/

abbrev Balance := Fin (2 ^ 128)
abbrev Nonce := Fin (2 ^ 64)

/-- One KRAT in base units. -/
def krat : Balance := 1000000000000

/-! ## Cryptography -/

/-- The third-party functions: Blake3, whether 32 bytes are an ed25519 public key,
and verification of a message under one (`false` for a malformed key). -/
structure Crypto where
  blake3 : List UInt8 → Hash
  ed25519Key : AccountId → Bool
  ed25519Verify : AccountId → List UInt8 → Signature64 → Bool

/-- Stand-ins to run the model with: a digest is its bytes read in base 257 after
a leading one, modulo 2²⁵⁶, and every signature verifies. -/
def Crypto.sample : Crypto :=
  { blake3 := fun bytes => ⟨Fin.ofNat _ (bytes.foldl (fun n b => n * 257 + b.toNat) 1)⟩
    ed25519Key := fun _ => true
    ed25519Verify := fun _ _ _ => true }

/-- Domain separators of the signatures in use here. -/
def domainBlockHeader : List UInt8 := Bytes.ascii "KRATOS_BLOCK_HEADER_V1:"
def domainTransaction : List UInt8 := Bytes.ascii "KRATOS_TRANSACTION_V1:"
def domainFinality : List UInt8 := Bytes.ascii "KRATOS_FINALITY_V1:"

def domainSeparate (domain message : List UInt8) : List UInt8 := domain ++ message

/-! ## Bincode

Fixed-width little-endian integers, a `u32` variant index, a `u64` length
before strings and byte strings, one tag byte before an option; a hash is a
plain array and has no length. -/

namespace Bincode

def u8 (x : Nat) : List UInt8 := Bytes.le 1 x
def u32 (x : Nat) : List UInt8 := Bytes.le 4 x
def u64 (x : Nat) : List UInt8 := Bytes.le 8 x
def u128 (x : Nat) : List UInt8 := Bytes.le 16 x
def bytes (b : List UInt8) : List UInt8 := u64 b.length ++ b
def string (s : String) : List UInt8 := bytes s.toUTF8.toList
def hash (h : Hash) : List UInt8 := h.asBytes
def accountId (a : AccountId) : List UInt8 := bytes a.asBytes

def option {α : Type} (enc : α → List UInt8) : Option α → List UInt8
  | none => u8 0
  | some a => u8 1 ++ enc a

end Bincode

/-! ## Accounts -/

structure AccountInfo where
  nonce : Nonce
  free : Balance
  reserved : Balance
  lastModified : Hash
deriving DecidableEq, Inhabited, Repr

inductive AccountError where
  | insufficientBalance
  | insufficientReserved
deriving DecidableEq, Repr

namespace AccountInfo

def new : AccountInfo := { nonce := 0, free := 0, reserved := 0, lastModified := Hash.zero }

/-- Free and reserved together, as a number that cannot overflow. -/
def total (a : AccountInfo) : Nat := a.free.val + a.reserved.val

/-- Reserve a balance (staking, deposits). -/
def reserve (a : AccountInfo) (amount : Balance) : Except AccountError AccountInfo :=
  if a.free < amount then .error .insufficientBalance
  else .ok { a with free := Word.satSub a.free amount, reserved := Word.satAdd a.reserved amount }

/-- Bincode of an account record: 72 bytes. -/
def encode (a : AccountInfo) : List UInt8 :=
  Bincode.u64 a.nonce.val ++ (Bincode.u128 a.free.val ++ (Bincode.u128 a.reserved.val ++
    Bincode.hash a.lastModified))

theorem length_encode (a : AccountInfo) : a.encode.length = 72 := by
  simp [encode, Bincode.u64, Bincode.u128, Bincode.hash, Hash.asBytes]

/-- The account encoding is injective: every field has a fixed width. -/
theorem encode_inj (a b : AccountInfo) (h : a.encode = b.encode) : a = b := by
  unfold encode at h
  obtain ⟨hn, h⟩ := List.append_inj h (by simp [Bincode.u64])
  obtain ⟨hf, h⟩ := List.append_inj h (by simp [Bincode.u128])
  obtain ⟨hr, hl⟩ := List.append_inj h (by simp [Bincode.u128])
  have hn' := Bytes.le_inj 8 _ _ (by have := a.nonce.isLt; omega) (by have := b.nonce.isLt; omega) hn
  have hf' := Bytes.le_inj 16 _ _ (by have := a.free.isLt; omega) (by have := b.free.isLt; omega) hf
  have hr' := Bytes.le_inj 16 _ _ (by have := a.reserved.isLt; omega)
    (by have := b.reserved.isLt; omega) hr
  have hl' := Hash.asBytes_inj _ _ hl
  cases a; cases b
  rw [AccountInfo.mk.injEq]
  exact ⟨Fin.ext hn', Fin.ext hf', Fin.ext hr', hl'⟩

/-- The record spelled by the first 72 bytes; bytes after them are ignored. -/
def decode (b : List UInt8) : Option AccountInfo :=
  if b.length < 72 then none
  else
    some { nonce := Fin.ofNat _ (Bytes.ofLe (b.take 8))
           free := Fin.ofNat _ (Bytes.ofLe ((b.drop 8).take 16))
           reserved := Fin.ofNat _ (Bytes.ofLe ((b.drop 24).take 16))
           lastModified := ⟨Fin.ofNat _ (Bytes.ofBe ((b.drop 40).take 32))⟩ }

/-- A stored record is read back as it was. -/
theorem decode_encode (a : AccountInfo) : decode a.encode = some a := by
  have hn := Bytes.ofLe_le 8 a.nonce.val (by have := a.nonce.isLt; omega)
  have hf := Bytes.ofLe_le 16 a.free.val (by have := a.free.isLt; omega)
  have hr := Bytes.ofLe_le 16 a.reserved.val (by have := a.reserved.isLt; omega)
  have hl := Bytes.ofBe_be 32 a.lastModified.bytes.val (by have := a.lastModified.bytes.isLt; omega)
  have htake : a.encode.take 8 = Bincode.u64 a.nonce.val := List.take_left' (by simp [Bincode.u64])
  have h8 : a.encode.drop 8 = Bincode.u128 a.free.val ++ (Bincode.u128 a.reserved.val ++
      Bincode.hash a.lastModified) := List.drop_left' (by simp [Bincode.u64])
  have h24 : a.encode.drop 24 = Bincode.u128 a.reserved.val ++ Bincode.hash a.lastModified := by
    rw [show 24 = 8 + 16 from rfl, ← List.drop_drop, h8, List.drop_left' (by simp [Bincode.u128])]
  have h40 : a.encode.drop 40 = Bincode.hash a.lastModified := by
    rw [show 40 = 24 + 16 from rfl, ← List.drop_drop, h24, List.drop_left' (by simp [Bincode.u128])]
  have h40' : (Bincode.hash a.lastModified).take 32 = Bincode.hash a.lastModified :=
    List.take_of_length_le (by simp [Bincode.hash, Hash.asBytes])
  unfold decode
  rw [if_neg (by rw [length_encode]; decide), htake, h8, h24, h40, h40',
    List.take_left' (by simp [Bincode.u128]), List.take_left' (by simp [Bincode.u128])]
  simp only [Bincode.u64, Bincode.u128, Bincode.hash, Hash.asBytes, hn, hf, hr, hl]
  simp

end AccountInfo

end Kratos
