import Kratos.Lib.Codec
import Kratos.Types.Primitives

/-!
# Reading bincode

Each of the encodings in use can be read off the left end of a byte string, so that records
and variants made of them are injective.  Strings are those whose length has 64 bits.
-/

namespace Kratos

open Codec

/-- The length of the string has 64 bits, as that of every string in memory. -/
def FitsString (s : String) : Prop := s.toUTF8.toList.length < 2 ^ 64

namespace Bincode

@[simp] theorem length_u32 (x : Nat) : (u32 x).length = 4 := Bytes.length_le 4 x

@[simp] theorem length_u64 (x : Nat) : (u64 x).length = 8 := Bytes.length_le 8 x

@[simp] theorem length_u128 (x : Nat) : (u128 x).length = 16 := Bytes.length_le 16 x

@[simp] theorem length_bytes (b : List UInt8) : (bytes b).length = 8 + b.length := by
  simp [bytes]

theorem prefixFree_u32 : PrefixFree (fun x => x < 2 ^ 32) u32 := fun x y s t hx hy h =>
  prefixFree_le 4 x y s t (by omega) (by omega) h

theorem prefixFree_u64 : PrefixFree (fun x => x < 2 ^ 64) u64 := fun x y s t hx hy h =>
  prefixFree_le 8 x y s t (by omega) (by omega) h

theorem prefixFree_bytes : PrefixFree (fun b => b.length < 2 ^ 64) bytes := fun a b s t ha hb h =>
  prefixFree_lengthPrefixed 8 a b s t (by omega) (by omega) h

theorem prefixFree_string : PrefixFree FitsString string :=
  prefixFree_bytes.comap (fun s : String => s.toUTF8.toList) toUTF8_inj

theorem prefixFree_option {α : Type} {D : α → Prop} {enc : α → List UInt8} (h : PrefixFree D enc) :
    PrefixFree (fun o => ∀ a, o = some a → D a) (option enc) := by
  intro o o' s t ho ho' heq
  apply h.option 1 0 1 (by omega) (by omega) (by omega) o o' s t ho ho'
  cases o <;> cases o' <;> exact heq

/-- Tags are the same on both sides, so that only the values inside are compared. -/
theorem agree_option {α β : Type} {R : α → β → Prop} {enc : α → List UInt8} {enc' : β → List UInt8}
    (h : Agree R enc enc') : Agree (Option.Rel R) (option enc) (option enc') := by
  intro o o' s t hst heq
  cases o with
  | none =>
    cases o' with
    | none => exact ⟨.none, List.cons_inj_right _ |>.1 heq⟩
    | some b => cases heq
  | some a =>
    cases o' with
    | none => cases heq
    | some b =>
      obtain ⟨hab, hrest⟩ := h a b s t hst (List.cons_inj_right _ |>.1 heq)
      exact ⟨.some hab, hrest⟩

theorem prefixFree_fin32 : PrefixFree (fun _ : Fin (2 ^ 32) => True) (fun x => u32 x.val) :=
  prefixFree_fin 4 32 (by decide)

theorem prefixFree_nonce : PrefixFree (fun _ : Nonce => True) (fun n => u64 n.val) :=
  prefixFree_fin 8 64 (by decide)

theorem prefixFree_balance : PrefixFree (fun _ : Balance => True) (fun b => u128 b.val) :=
  prefixFree_fin 16 128 (by decide)

theorem prefixFree_chainId : PrefixFree (fun _ : ChainId => True) (fun c => u32 c.id.val) :=
  prefixFree_fin32.comap ChainId.id fun x y h => by
    cases x; cases y
    rw [ChainId.mk.injEq]
    exact h

theorem prefixFree_accountId : PrefixFree (fun _ : AccountId => True) accountId := fun x y s t _ _ h => by
  obtain ⟨hbytes, hrest⟩ := prefixFree_bytes x.asBytes y.asBytes s t (by simp) (by simp) h
  exact ⟨AccountId.asBytes_inj x y hbytes, hrest⟩

end Bincode

end Kratos
