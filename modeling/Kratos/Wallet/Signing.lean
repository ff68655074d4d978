import Kratos.Types.Bincode
import Kratos.Types.Transaction
import Kratos.Wallet.Transaction

/-!
# What the wallet and the node sign

The transactions of the wallet and of the node have the same fields and the same eleven calls
in the same order, over two types of ids of accounts and of chains.  `Call` and `Body` are
their common shape.  Two encoders of ids give two encoders of bodies, and bodies with the same
bytes are the same up to what the encoders of ids tell apart (`Body.same_of_encode`); this is
used for the wallet against itself, the node against itself and the wallet against the node.

Ids of accounts are the same bytes on both sides.  Ids of chains are not: the wallet signs a
byte string of 32 bytes with its length where the node has a `u32`.  So a transaction of the
one has a counterpart of the other with the same message if and only if its call names no
chain (`signing_messages_match_iff`).
-/

namespace Kratos

open Codec

variable {α α' χ χ' : Type}

/-! ## Calls over any ids -/

/-- The eleven calls, over ids of accounts and of chains. -/
inductive Call (α χ : Type) where
  | transfer (toId : α) (amount : Balance)
  | stake (amount : Balance)
  | unstake (amount : Balance)
  | withdrawUnbonded
  | registerValidator (stake : Balance)
  | unregisterValidator
  | createSidechain (name description : Option String) (parentChain : Option χ) (deposit : Balance)
  | exitSidechain (chainId : χ)
  | signalFork (name description : String)
  | proposeEarlyValidator (candidate : α)
  | voteEarlyValidator (candidate : α)

namespace Call

def variant : Call α χ → Nat
  | transfer .. => 0
  | stake .. => 1
  | unstake .. => 2
  | withdrawUnbonded => 3
  | registerValidator .. => 4
  | unregisterValidator => 5
  | createSidechain .. => 6
  | exitSidechain .. => 7
  | signalFork .. => 8
  | proposeEarlyValidator .. => 9
  | voteEarlyValidator .. => 10

def fields (account : α → List UInt8) (chain : χ → List UInt8) : Call α χ → List UInt8
  | transfer toId amount => account toId ++ Bincode.u128 amount.val
  | stake amount | unstake amount | registerValidator amount => Bincode.u128 amount.val
  | withdrawUnbonded | unregisterValidator => []
  | createSidechain name description parentChain deposit =>
    Bincode.option Bincode.string name ++ (Bincode.option Bincode.string description ++
      (Bincode.option chain parentChain ++ Bincode.u128 deposit.val))
  | exitSidechain chainId => chain chainId
  | signalFork name description => Bincode.string name ++ Bincode.string description
  | proposeEarlyValidator candidate | voteEarlyValidator candidate => account candidate

def encode (account : α → List UInt8) (chain : χ → List UInt8) (c : Call α χ) : List UInt8 :=
  Bincode.u32 c.variant ++ c.fields account chain

/-- The lengths of the strings have 64 bits. -/
def Fits : Call α χ → Prop
  | createSidechain name description _ _ =>
    (∀ s, name = some s → FitsString s) ∧ (∀ s, description = some s → FitsString s)
  | signalFork name description => FitsString name ∧ FitsString description
  | _ => True

/-- Neither an exit nor a sidechain with a parent. -/
def namesNoChain : Call α χ → Bool
  | createSidechain _ _ parentChain _ => parentChain.isNone
  | exitSidechain _ => false
  | _ => true

/-- The same call, with `A` between the ids of accounts and `R` between those of chains. -/
inductive Same (A : α → α' → Prop) (R : χ → χ' → Prop) : Call α χ → Call α' χ' → Prop
  | transfer {x y} (m) : A x y → Same A R (.transfer x m) (.transfer y m)
  | stake (m) : Same A R (.stake m) (.stake m)
  | unstake (m) : Same A R (.unstake m) (.unstake m)
  | withdrawUnbonded : Same A R .withdrawUnbonded .withdrawUnbonded
  | registerValidator (m) : Same A R (.registerValidator m) (.registerValidator m)
  | unregisterValidator : Same A R .unregisterValidator .unregisterValidator
  | createSidechain {p q} (n d m) : Option.Rel R p q →
      Same A R (.createSidechain n d p m) (.createSidechain n d q m)
  | exitSidechain {c e} : R c e → Same A R (.exitSidechain c) (.exitSidechain e)
  | signalFork (n d) : Same A R (.signalFork n d) (.signalFork n d)
  | proposeEarlyValidator {x y} : A x y → Same A R (.proposeEarlyValidator x) (.proposeEarlyValidator y)
  | voteEarlyValidator {x y} : A x y → Same A R (.voteEarlyValidator x) (.voteEarlyValidator y)

variable {A : α → α' → Prop} {R : χ → χ' → Prop}

theorem variant_lt (c : Call α χ) : c.variant < 2 ^ 32 := by
  cases c <;> simp only [variant] <;> omega

/-- Two calls of one variant with the same bytes: the fields are read one at a time, each of
them before a rest of the same length. -/
theorem same_of_fields {account : α → List UInt8} {account' : α' → List UInt8}
    {chain : χ → List UInt8} {chain' : χ' → List UInt8}
    (haccount : Agree A account account') (hchain : Agree R chain chain')
    (a : Call α χ) (b : Call α' χ') (s t : List UInt8) (ha : a.Fits) (hb : b.Fits)
    (hv : a.variant = b.variant) (hst : s.length = t.length)
    (h : a.fields account chain ++ s = b.fields account' chain' ++ t) : Same A R a b ∧ s = t := by
  cases a with
  | transfer x m =>
    cases b with
    | transfer y k =>
      simp only [fields, List.append_assoc] at h
      obtain ⟨hxy, hamount⟩ := haccount x y _ _ (by simp [hst]) h
      obtain ⟨rfl, hrest⟩ := Bincode.prefixFree_balance m k _ _ trivial trivial hamount
      exact ⟨.transfer m hxy, hrest⟩
    | _ => cases hv
  | stake m =>
    cases b with
    | stake k =>
      obtain ⟨rfl, hrest⟩ := Bincode.prefixFree_balance m k _ _ trivial trivial h
      exact ⟨.stake m, hrest⟩
    | _ => cases hv
  | unstake m =>
    cases b with
    | unstake k =>
      obtain ⟨rfl, hrest⟩ := Bincode.prefixFree_balance m k _ _ trivial trivial h
      exact ⟨.unstake m, hrest⟩
    | _ => cases hv
  | withdrawUnbonded =>
    cases b with
    | withdrawUnbonded => exact ⟨.withdrawUnbonded, h⟩
    | _ => cases hv
  | registerValidator m =>
    cases b with
    | registerValidator k =>
      obtain ⟨rfl, hrest⟩ := Bincode.prefixFree_balance m k _ _ trivial trivial h
      exact ⟨.registerValidator m, hrest⟩
    | _ => cases hv
  | unregisterValidator =>
    cases b with
    | unregisterValidator => exact ⟨.unregisterValidator, h⟩
    | _ => cases hv
  | createSidechain n d p m =>
    cases b with
    | createSidechain n' d' q k =>
      have hstring := Bincode.prefixFree_option Bincode.prefixFree_string
      simp only [fields, List.append_assoc] at h
      obtain ⟨rfl, hdescription⟩ := hstring n n' _ _ ha.1 hb.1 h
      obtain ⟨rfl, hparent⟩ := hstring d d' _ _ ha.2 hb.2 hdescription
      obtain ⟨hpq, hdeposit⟩ := Bincode.agree_option hchain p q _ _ (by simp [hst]) hparent
      obtain ⟨rfl, hrest⟩ := Bincode.prefixFree_balance m k _ _ trivial trivial hdeposit
      exact ⟨.createSidechain n d m hpq, hrest⟩
    | _ => cases hv
  | exitSidechain c =>
    cases b with
    | exitSidechain e =>
      obtain ⟨hce, hrest⟩ := hchain c e s t hst h
      exact ⟨.exitSidechain hce, hrest⟩
    | _ => cases hv
  | signalFork n d =>
    cases b with
    | signalFork n' d' =>
      simp only [fields, List.append_assoc] at h
      obtain ⟨rfl, hdescription⟩ := Bincode.prefixFree_string n n' _ _ ha.1 hb.1 h
      obtain ⟨rfl, hrest⟩ := Bincode.prefixFree_string d d' _ _ ha.2 hb.2 hdescription
      exact ⟨.signalFork n d, hrest⟩
    | _ => cases hv
  | proposeEarlyValidator x =>
    cases b with
    | proposeEarlyValidator y =>
      obtain ⟨hxy, hrest⟩ := haccount x y s t hst h
      exact ⟨.proposeEarlyValidator hxy, hrest⟩
    | _ => cases hv
  | voteEarlyValidator x =>
    cases b with
    | voteEarlyValidator y =>
      obtain ⟨hxy, hrest⟩ := haccount x y s t hst h
      exact ⟨.voteEarlyValidator hxy, hrest⟩
    | _ => cases hv

/-- Calls that name no chain are encoded by the ids of accounts alone. -/
theorem Same.encode_eq {account : α → List UInt8} {account' : α' → List UInt8}
    (chain : χ → List UInt8) (chain' : χ' → List UInt8)
    (haccount : ∀ x y, A x y → account x = account' y) {a : Call α χ} {b : Call α' χ'}
    (h : Same A R a b) (hno : a.namesNoChain = true) : a.encode account chain = b.encode account' chain' := by
  cases h with
  | transfer m hxy => simp only [Call.encode, variant, fields, haccount _ _ hxy]
  | createSidechain n d m hpq =>
    cases hpq with
    | none => rfl
    | some => cases hno
  | exitSidechain => cases hno
  | proposeEarlyValidator hxy => simp only [Call.encode, variant, fields, haccount _ _ hxy]
  | voteEarlyValidator hxy => simp only [Call.encode, variant, fields, haccount _ _ hxy]
  | _ => rfl

theorem Same.flip {a : Call α χ} {b : Call α' χ'} (h : Same A R a b) :
    Same (fun y x => A x y) (fun e c => R c e) b a := by
  cases h with
  | transfer m hxy => exact .transfer m hxy
  | createSidechain n d m hpq =>
    cases hpq with
    | none => exact .createSidechain n d m .none
    | some hce => exact .createSidechain n d m (.some hce)
  | exitSidechain hce => exact .exitSidechain hce
  | proposeEarlyValidator hxy => exact .proposeEarlyValidator hxy
  | voteEarlyValidator hxy => exact .voteEarlyValidator hxy
  | _ => constructor

theorem Same.fits {a : Call α χ} {b : Call α' χ'} (h : Same A R a b) (ha : a.Fits) : b.Fits := by
  cases h <;> exact ha

/-- A call that names no chain has a counterpart over any other ids of chains. -/
theorem exists_same (hA : ∀ x, ∃ y, A x y) (a : Call α χ) (hno : a.namesNoChain = true) :
    ∃ b : Call α' χ', Same A R a b := by
  cases a with
  | transfer x m => exact (hA x).imp' (.transfer · m) fun _ hxy => .transfer m hxy
  | createSidechain n d p m =>
    cases p with
    | none => exact ⟨.createSidechain n d none m, .createSidechain n d m .none⟩
    | some => cases hno
  | exitSidechain => cases hno
  | proposeEarlyValidator x => exact (hA x).imp' .proposeEarlyValidator fun _ hxy => .proposeEarlyValidator hxy
  | voteEarlyValidator x => exact (hA x).imp' .voteEarlyValidator fun _ hxy => .voteEarlyValidator hxy
  | stake m => exact ⟨.stake m, .stake m⟩
  | unstake m => exact ⟨.unstake m, .unstake m⟩
  | withdrawUnbonded => exact ⟨.withdrawUnbonded, .withdrawUnbonded⟩
  | registerValidator m => exact ⟨.registerValidator m, .registerValidator m⟩
  | unregisterValidator => exact ⟨.unregisterValidator, .unregisterValidator⟩
  | signalFork n d => exact ⟨.signalFork n d, .signalFork n d⟩

/-- Where no two ids of chains are related, no chain is named. -/
theorem Same.namesNoChain {a : Call α χ} {b : Call α' χ'} (h : Same A (fun _ _ => False) a b) :
    a.namesNoChain = true := by
  cases h with
  | createSidechain n d m hpq =>
    cases hpq with
    | none => rfl
    | some hce => exact hce.elim
  | exitSidechain hce => exact hce.elim
  | _ => rfl

theorem Same.namesNoChain_eq {a : Call α χ} {b : Call α' χ'} (h : Same A R a b) :
    a.namesNoChain = b.namesNoChain := by
  cases h with
  | createSidechain n d m hpq => cases hpq <;> rfl
  | _ => rfl

theorem Same.eq {a b : Call α χ} (h : Same Eq Eq a b) : a = b := by
  cases h with
  | transfer m hxy => rw [hxy]
  | createSidechain n d m hpq =>
    cases hpq with
    | none => rfl
    | some hce => rw [hce]
  | exitSidechain hce => rw [hce]
  | proposeEarlyValidator hxy => rw [hxy]
  | voteEarlyValidator hxy => rw [hxy]
  | _ => rfl

end Call

/-! ## Transactions over any ids -/

structure Body (α χ : Type) where
  sender : α
  nonce : Nonce
  call : Call α χ
  timestamp : Nat

namespace Body

def encode (account : α → List UInt8) (chain : χ → List UInt8) (x : Body α χ) : List UInt8 :=
  account x.sender ++ (Bincode.u64 x.nonce.val ++ (x.call.encode account chain ++ Bincode.u64 x.timestamp))

/-- The time stamp and the lengths of the strings have 64 bits. -/
def Fits (x : Body α χ) : Prop := x.timestamp < 2 ^ 64 ∧ x.call.Fits

structure Same (A : α → α' → Prop) (R : χ → χ' → Prop) (x : Body α χ) (y : Body α' χ') : Prop where
  sender : A x.sender y.sender
  nonce : x.nonce = y.nonce
  call : x.call.Same A R y.call
  timestamp : x.timestamp = y.timestamp

variable {A : α → α' → Prop} {R : χ → χ' → Prop}

/-- **Same bytes.**  Bodies with one encoding are the same up to what the encodings of ids tell
apart. -/
theorem same_of_encode {account : α → List UInt8} {account' : α' → List UInt8}
    {chain : χ → List UInt8} {chain' : χ' → List UInt8}
    (haccount : Agree A account account') (hchain : Agree R chain chain')
    (hlen : ∀ a b, (account a).length = (account' b).length)
    (x : Body α χ) (y : Body α' χ') (hx : x.Fits) (hy : y.Fits)
    (h : x.encode account chain = y.encode account' chain') : x.Same A R y := by
  have hrest := congrArg List.length h
  simp only [encode, List.length_append, hlen x.sender y.sender] at hrest
  obtain ⟨hsender, h⟩ := haccount _ _ _ _ (by simp only [List.length_append]; omega) h
  obtain ⟨hnonce, h⟩ := Bincode.prefixFree_nonce _ _ _ _ trivial trivial h
  simp only [Call.encode, List.append_assoc] at h
  obtain ⟨hv, h⟩ := Bincode.prefixFree_u32 _ _ _ _ x.call.variant_lt y.call.variant_lt h
  obtain ⟨hcall, h⟩ := Call.same_of_fields haccount hchain _ _ _ _ hx.2 hy.2 hv (by simp) h
  exact ⟨hsender, hnonce, hcall, Bincode.prefixFree_u64.inj _ _ hx.1 hy.1 h⟩

theorem Same.encode_eq {account : α → List UInt8} {account' : α' → List UInt8}
    (chain : χ → List UInt8) (chain' : χ' → List UInt8)
    (haccount : ∀ a b, A a b → account a = account' b) {x : Body α χ} {y : Body α' χ'}
    (h : x.Same A R y) (hno : x.call.namesNoChain = true) :
    x.encode account chain = y.encode account' chain' := by
  simp only [encode, haccount _ _ h.sender, h.nonce, h.timestamp, h.call.encode_eq chain chain' haccount hno]

theorem Same.flip {x : Body α χ} {y : Body α' χ'} (h : x.Same A R y) :
    y.Same (fun b a => A a b) (fun e c => R c e) x :=
  ⟨h.sender, h.nonce.symm, h.call.flip, h.timestamp.symm⟩

theorem Same.fits {x : Body α χ} {y : Body α' χ'} (h : x.Same A R y) (hx : x.Fits) : y.Fits :=
  ⟨h.timestamp ▸ hx.1, h.call.fits hx.2⟩

theorem Same.eq {x y : Body α χ} (h : x.Same Eq Eq y) : x = y := by
  obtain ⟨a, n, c, m⟩ := x
  obtain ⟨a', n', c', m'⟩ := y
  obtain ⟨hsender, hnonce, hcall, htime⟩ := h
  rw [Body.mk.injEq]
  exact ⟨hsender, hnonce, hcall.eq, htime⟩

theorem exists_same (hA : ∀ a, ∃ b, A a b) (x : Body α χ) (hno : x.call.namesNoChain = true) :
    ∃ y : Body α' χ', x.Same A R y := by
  obtain ⟨b, hb⟩ := hA x.sender
  obtain ⟨d, hd⟩ := Call.exists_same hA x.call hno
  exact ⟨⟨b, x.nonce, d, x.timestamp⟩, hb, rfl, hd, rfl⟩

end Body

/-! ## The two sides -/

def TransactionCall.shape : TransactionCall → Call AccountId ChainId
  | transfer toId amount => .transfer toId amount
  | stake amount => .stake amount
  | unstake amount => .unstake amount
  | withdrawUnbonded => .withdrawUnbonded
  | registerValidator amount => .registerValidator amount
  | unregisterValidator => .unregisterValidator
  | createSidechain metadata deposit =>
    .createSidechain metadata.name metadata.description metadata.parentChain deposit
  | exitSidechain chainId => .exitSidechain chainId
  | signalFork name description => .signalFork name description
  | proposeEarlyValidator candidate => .proposeEarlyValidator candidate
  | voteEarlyValidator candidate => .voteEarlyValidator candidate

def TransactionCall.ofShape : Call AccountId ChainId → TransactionCall
  | .transfer toId amount => transfer toId amount
  | .stake amount => stake amount
  | .unstake amount => unstake amount
  | .withdrawUnbonded => withdrawUnbonded
  | .registerValidator amount => registerValidator amount
  | .unregisterValidator => unregisterValidator
  | .createSidechain name description parentChain deposit =>
    createSidechain ⟨name, description, parentChain⟩ deposit
  | .exitSidechain chainId => exitSidechain chainId
  | .signalFork name description => signalFork name description
  | .proposeEarlyValidator candidate => proposeEarlyValidator candidate
  | .voteEarlyValidator candidate => voteEarlyValidator candidate

def Wallet.TransactionCall.shape : Wallet.TransactionCall → Call Wallet.AccountId32 Wallet.ChainId32
  | transfer toId amount => .transfer toId amount
  | stake amount => .stake amount
  | unstake amount => .unstake amount
  | withdrawUnbonded => .withdrawUnbonded
  | registerValidator amount => .registerValidator amount
  | unregisterValidator => .unregisterValidator
  | createSidechain metadata deposit =>
    .createSidechain metadata.name metadata.description metadata.parentChain deposit
  | exitSidechain chainId => .exitSidechain chainId
  | signalFork name description => .signalFork name description
  | proposeEarlyValidator candidate => .proposeEarlyValidator candidate
  | voteEarlyValidator candidate => .voteEarlyValidator candidate

def Wallet.TransactionCall.ofShape : Call Wallet.AccountId32 Wallet.ChainId32 → Wallet.TransactionCall
  | .transfer toId amount => transfer toId amount
  | .stake amount => stake amount
  | .unstake amount => unstake amount
  | .withdrawUnbonded => withdrawUnbonded
  | .registerValidator amount => registerValidator amount
  | .unregisterValidator => unregisterValidator
  | .createSidechain name description parentChain deposit =>
    createSidechain ⟨name, description, parentChain⟩ deposit
  | .exitSidechain chainId => exitSidechain chainId
  | .signalFork name description => signalFork name description
  | .proposeEarlyValidator candidate => proposeEarlyValidator candidate
  | .voteEarlyValidator candidate => voteEarlyValidator candidate

def Transaction.shape (tx : Transaction) : Body AccountId ChainId :=
  ⟨tx.sender, tx.nonce, tx.call.shape, tx.timestamp⟩

def Wallet.Transaction.shape (tx : Wallet.Transaction) : Body Wallet.AccountId32 Wallet.ChainId32 :=
  ⟨tx.sender, tx.nonce, tx.call.shape, tx.timestamp⟩

/-- The node's encoder of the shape is its encoder of transactions. -/
theorem Transaction.encode_shape (tx : Transaction) :
    tx.encode = tx.shape.encode Bincode.accountId (fun c => Bincode.u32 c.id.val) := by
  obtain ⟨a, n, c, m⟩ := tx
  cases c <;> rfl

theorem Wallet.Transaction.encode_shape (tx : Wallet.Transaction) :
    tx.encode = tx.shape.encode Wallet.AccountId32.encode Wallet.AccountId32.encode := by
  obtain ⟨a, n, c, m⟩ := tx
  cases c <;> rfl

theorem TransactionCall.shape_inj (c d : TransactionCall) (h : c.shape = d.shape) : c = d := by
  have hleft : ∀ c : TransactionCall, ofShape c.shape = c := fun c => by cases c <;> rfl
  rw [← hleft c, h, hleft]

theorem Wallet.TransactionCall.shape_inj (c d : Wallet.TransactionCall) (h : c.shape = d.shape) : c = d := by
  have hleft : ∀ c : Wallet.TransactionCall, ofShape c.shape = c := fun c => by cases c <;> rfl
  rw [← hleft c, h, hleft]

theorem Transaction.shape_inj (x y : Transaction) (h : x.shape = y.shape) : x = y := by
  obtain ⟨a, n, c, m⟩ := x
  obtain ⟨a', n', c', m'⟩ := y
  simp only [shape, Body.mk.injEq] at h
  obtain ⟨rfl, rfl, hcall, rfl⟩ := h
  rw [TransactionCall.shape_inj c c' hcall]

theorem Wallet.Transaction.shape_inj (x y : Wallet.Transaction) (h : x.shape = y.shape) : x = y := by
  obtain ⟨a, n, c, m⟩ := x
  obtain ⟨a', n', c', m'⟩ := y
  simp only [shape, Body.mk.injEq] at h
  obtain ⟨rfl, rfl, hcall, rfl⟩ := h
  rw [Wallet.TransactionCall.shape_inj c c' hcall]

theorem Transaction.exists_shape (x : Body AccountId ChainId) : ∃ tx : Transaction, tx.shape = x := by
  obtain ⟨a, n, c, m⟩ := x
  refine ⟨⟨a, n, TransactionCall.ofShape c, m⟩, ?_⟩
  cases c <;> rfl

theorem Wallet.Transaction.exists_shape (x : Body Wallet.AccountId32 Wallet.ChainId32) :
    ∃ tx : Wallet.Transaction, tx.shape = x := by
  obtain ⟨a, n, c, m⟩ := x
  refine ⟨⟨a, n, Wallet.TransactionCall.ofShape c, m⟩, ?_⟩
  cases c <;> rfl

/-! ## Messages -/

/-- The sixty-four-bit fields have 64 bits, as those of every transaction in memory. -/
def Transaction.Fits (tx : Transaction) : Prop := tx.shape.Fits

def Wallet.Transaction.Fits (tx : Wallet.Transaction) : Prop := tx.shape.Fits

/-- The call is neither an exit nor the creation of a sidechain with a parent. -/
def TransactionCall.namesNoChain (c : TransactionCall) : Bool := c.shape.namesNoChain

def Wallet.TransactionCall.namesNoChain (c : Wallet.TransactionCall) : Bool := c.shape.namesNoChain

def SameAccount (a : Wallet.AccountId32) (b : AccountId) : Prop := a.bytes = b.bytes

/-- The same sender, nonce, call and time stamp.  `R` says which ids of chains are the same. -/
def SameTransaction (R : Wallet.ChainId32 → ChainId → Prop) (w : Wallet.Transaction) (n : Transaction) : Prop :=
  w.shape.Same SameAccount R n.shape

theorem SameAccount.encode_eq (a : Wallet.AccountId32) (b : AccountId) (h : SameAccount a b) :
    a.encode = Bincode.accountId b := by
  unfold Wallet.AccountId32.encode Bincode.accountId Wallet.AccountId32.asBytes AccountId.asBytes
  rw [h]

theorem length_accountId (a : AccountId) : (Bincode.accountId a).length = 40 := by
  simp [Bincode.accountId]

theorem length_accountId32 (a : Wallet.AccountId32) : a.encode.length = 40 :=
  length_accountId ⟨a.bytes⟩

theorem agree_account : Agree SameAccount Wallet.AccountId32.encode Bincode.accountId := by
  intro a b s t _ h
  obtain ⟨hab, hrest⟩ := Bincode.prefixFree_accountId ⟨a.bytes⟩ b s t trivial trivial h
  exact ⟨congrArg AccountId.bytes hab, hrest⟩

theorem agree_accountId32 : Agree Eq Wallet.AccountId32.encode Wallet.AccountId32.encode := by
  intro a b s t _ h
  obtain ⟨hab, hrest⟩ := Bincode.prefixFree_accountId ⟨a.bytes⟩ ⟨b.bytes⟩ s t trivial trivial h
  obtain ⟨a⟩ := a
  obtain ⟨b⟩ := b
  rw [Wallet.AccountId32.mk.injEq]
  exact ⟨congrArg AccountId.bytes hab, hrest⟩

/-- Forty bytes against four. -/
theorem agree_chain :
    Agree (fun _ _ => False) Wallet.AccountId32.encode (fun c : ChainId => Bincode.u32 c.id.val) :=
  agree_of_length_ne 40 4 length_accountId32 (fun c => Bincode.length_u32 _) (by decide)

/-- The wallet's constants are copies of the node's. -/
theorem signingMessage_eq_iff (w : Wallet.Transaction) (n : Transaction) :
    SignedTransaction.signingMessage n = some w.message ↔ w.encode = n.encode := by
  unfold SignedTransaction.signingMessage Wallet.Transaction.message Wallet.domainSeparate domainSeparate
  rw [Option.some.injEq]
  constructor
  · intro h
    exact (List.append_cancel_left h).symm
  · intro h
    rw [h]
    rfl

/-- **Shared messages.**  Transactions with one message are the same, and name no chain. -/
theorem same_of_message (w : Wallet.Transaction) (n : Transaction) (hw : w.Fits) (hn : n.Fits)
    (h : SignedTransaction.signingMessage n = some w.message) :
    w.shape.Same SameAccount (fun _ _ => False) n.shape := by
  have henc := (signingMessage_eq_iff w n).1 h
  rw [w.encode_shape, n.encode_shape] at henc
  exact Body.same_of_encode agree_account agree_chain
    (fun a b => (length_accountId32 a).trans (length_accountId b).symm) _ _ hw hn henc

theorem namesNoChain_of_message (w : Wallet.Transaction) (n : Transaction) (hw : w.Fits) (hn : n.Fits)
    (h : SignedTransaction.signingMessage n = some w.message) :
    w.call.namesNoChain = true ∧ n.call.namesNoChain = true := by
  have hcall := (same_of_message w n hw hn h).call
  exact ⟨hcall.namesNoChain, hcall.namesNoChain_eq.symm.trans hcall.namesNoChain⟩

theorem message_of_same {R : Wallet.ChainId32 → ChainId → Prop} (w : Wallet.Transaction) (n : Transaction)
    (h : SameTransaction R w n) (hno : w.call.namesNoChain = true) :
    SignedTransaction.signingMessage n = some w.message := by
  apply (signingMessage_eq_iff w n).2
  rw [w.encode_shape, n.encode_shape]
  exact Body.Same.encode_eq _ _ SameAccount.encode_eq h hno

theorem Wallet.Transaction.message_inj (v w : Wallet.Transaction) (hv : v.Fits) (hw : w.Fits)
    (h : v.message = w.message) : v = w := by
  have henc : v.encode = w.encode := List.append_cancel_left h
  rw [v.encode_shape, w.encode_shape] at henc
  have hsame := Body.same_of_encode agree_accountId32 agree_accountId32
    (fun a b => (length_accountId32 a).trans (length_accountId32 b).symm) _ _ hv hw henc
  exact Wallet.Transaction.shape_inj v w hsame.eq

theorem SignedTransaction.signingMessage_inj (m n : Transaction) (hm : m.Fits) (hn : n.Fits)
    (h : signingMessage m = signingMessage n) : m = n := by
  have henc : m.encode = n.encode := List.append_cancel_left (Option.some.inj h)
  rw [m.encode_shape, n.encode_shape] at henc
  have hsame := Body.same_of_encode Bincode.prefixFree_accountId.agree Bincode.prefixFree_chainId.agree
    (fun a b => (length_accountId a).trans (length_accountId b).symm) _ _ hm hn henc
  exact Transaction.shape_inj m n hsame.eq

/-- A transaction of the wallet that names no chain has its counterpart. -/
theorem exists_node (R : Wallet.ChainId32 → ChainId → Prop) (w : Wallet.Transaction) (hw : w.Fits)
    (hno : w.call.namesNoChain = true) :
    ∃ n : Transaction, n.Fits ∧ SameTransaction R w n ∧ SignedTransaction.signingMessage n = some w.message := by
  obtain ⟨y, hy⟩ := Body.exists_same (A := SameAccount) (R := R) (fun a => ⟨⟨a.bytes⟩, rfl⟩) w.shape hno
  obtain ⟨n, rfl⟩ := Transaction.exists_shape y
  exact ⟨n, hy.fits hw, hy, message_of_same w n hy hno⟩

theorem exists_wallet (R : Wallet.ChainId32 → ChainId → Prop) (n : Transaction) (hn : n.Fits)
    (hno : n.call.namesNoChain = true) :
    ∃ w : Wallet.Transaction, w.Fits ∧ SameTransaction R w n ∧ SignedTransaction.signingMessage n = some w.message := by
  obtain ⟨x, hx⟩ := Body.exists_same (A := fun b a => SameAccount a b) (R := fun e c => R c e)
    (fun b => ⟨⟨b.bytes⟩, rfl⟩) n.shape hno
  obtain ⟨w, rfl⟩ := Wallet.Transaction.exists_shape x
  have hsame : SameTransaction R w n := hx.flip
  exact ⟨w, hx.fits hn, hsame, message_of_same w n hsame (hsame.call.namesNoChain_eq.trans hno)⟩

/-- **Wallet and node sign the same bytes, where no chain is named.**  A transaction of either
side has a counterpart with the same message, and its message is one of the other side at all,
if and only if its call is neither an exit nor the creation of a sidechain with a parent.  No
two transactions of one side share a message. -/
theorem signing_messages_match_iff (R : Wallet.ChainId32 → ChainId → Prop) :
    (∀ w : Wallet.Transaction, w.Fits →
      ((∃ n : Transaction, n.Fits ∧ SameTransaction R w n ∧ SignedTransaction.signingMessage n = some w.message) ↔
        w.call.namesNoChain = true) ∧
      ((∃ n : Transaction, n.Fits ∧ SignedTransaction.signingMessage n = some w.message) ↔
        w.call.namesNoChain = true)) ∧
    (∀ n : Transaction, n.Fits →
      ((∃ w : Wallet.Transaction, w.Fits ∧ SameTransaction R w n ∧
          SignedTransaction.signingMessage n = some w.message) ↔ n.call.namesNoChain = true) ∧
      ((∃ w : Wallet.Transaction, w.Fits ∧ SignedTransaction.signingMessage n = some w.message) ↔
        n.call.namesNoChain = true)) ∧
    (∀ v w : Wallet.Transaction, v.Fits → w.Fits → v.message = w.message → v = w) ∧
    (∀ m n : Transaction, m.Fits → n.Fits →
      SignedTransaction.signingMessage m = SignedTransaction.signingMessage n → m = n) := by
  refine ⟨fun w hw => ⟨⟨?_, exists_node R w hw⟩, ⟨?_, fun hno => ?_⟩⟩,
    fun n hn => ⟨⟨?_, exists_wallet R n hn⟩, ⟨?_, fun hno => ?_⟩⟩,
    Wallet.Transaction.message_inj, SignedTransaction.signingMessage_inj⟩
  · rintro ⟨n, hn, -, h⟩
    exact (namesNoChain_of_message w n hw hn h).1
  · rintro ⟨n, hn, h⟩
    exact (namesNoChain_of_message w n hw hn h).1
  · obtain ⟨n, hn, -, h⟩ := exists_node R w hw hno
    exact ⟨n, hn, h⟩
  · rintro ⟨w, hw, -, h⟩
    exact (namesNoChain_of_message w n hw hn h).2
  · rintro ⟨w, hw, h⟩
    exact (namesNoChain_of_message w n hw hn h).2
  · obtain ⟨w, hw, -, h⟩ := exists_wallet R n hn hno
    exact ⟨w, hw, h⟩

theorem signing_messages_match_transfer :
    ∃ n : Transaction, n.Fits ∧
      SameTransaction (fun c d => c.bytes.val = d.id.val) ⟨⟨1⟩, 0, .transfer ⟨2⟩ 500, 7⟩ n ∧
      SignedTransaction.signingMessage n =
        some (Wallet.Transaction.message ⟨⟨1⟩, 0, .transfer ⟨2⟩ 500, 7⟩) :=
  (((signing_messages_match_iff fun c d => c.bytes.val = d.id.val).1 ⟨⟨1⟩, 0, .transfer ⟨2⟩ 500, 7⟩
    ⟨by decide, trivial⟩).1).2 rfl

/-- The node has no transaction with the message that the wallet signs for this exit, nor the
wallet one with the message that the node expects for its exit. -/
theorem exit_messages_differ :
    (¬ ∃ n : Transaction, n.Fits ∧
      SignedTransaction.signingMessage n = some (Wallet.Transaction.message ⟨⟨1⟩, 0, .exitSidechain ⟨5⟩, 7⟩)) ∧
    ¬ ∃ w : Wallet.Transaction, w.Fits ∧
      SignedTransaction.signingMessage ⟨⟨1⟩, 0, .exitSidechain ⟨5⟩, 7⟩ = some w.message := by
  constructor
  · rintro ⟨n, hn, h⟩
    have hno := (namesNoChain_of_message ⟨⟨1⟩, 0, .exitSidechain ⟨5⟩, 7⟩ n ⟨by decide, trivial⟩ hn h).1
    exact absurd hno (by decide)
  · rintro ⟨w, hw, h⟩
    have hno := (namesNoChain_of_message w ⟨⟨1⟩, 0, .exitSidechain ⟨5⟩, 7⟩ hw ⟨by decide, trivial⟩ h).2
    exact absurd hno (by decide)

end Kratos
