import Kratos.Lib.Bytes

/-!
# Prefix-free encodings

No encoding is the beginning of another (`PrefixFree`), so a sequence of encoded fields can
be taken apart from the left, one field at a time, and an encoder made of such fields is
injective.  Fixed-width numbers, length-prefixed byte strings and sequences and tagged options
are prefix-free on the values that fit.  Two encoders are compared field by field in the same
way (`Agree`).
-/

namespace Kratos

namespace Codec

variable {α β : Type} {D : α → Prop} {enc : α → List UInt8}

/-- Encodings of values with `D` can be read off the left end of a byte string. -/
def PrefixFree (D : α → Prop) (enc : α → List UInt8) : Prop :=
  ∀ a b s t, D a → D b → enc a ++ s = enc b ++ t → a = b ∧ s = t

theorem PrefixFree.inj (h : PrefixFree D enc) (a b : α) (ha : D a) (hb : D b) (heq : enc a = enc b) : a = b :=
  (h a b [] [] ha hb (by rw [heq])).1

/-- Encodings of one length that tell the values apart. -/
theorem prefixFree_of_length (n : Nat) (hlen : ∀ a, (enc a).length = n)
    (hinj : ∀ a b, D a → D b → enc a = enc b → a = b) : PrefixFree D enc := by
  intro a b s t ha hb h
  obtain ⟨henc, hrest⟩ := List.append_inj h (by rw [hlen, hlen])
  exact ⟨hinj a b ha hb henc, hrest⟩

theorem PrefixFree.comap (h : PrefixFree D enc) (f : β → α) (hf : ∀ x y, f x = f y → x = y) :
    PrefixFree (fun x => D (f x)) (fun x => enc (f x)) := by
  intro x y s t hx hy heq
  obtain ⟨hxy, hst⟩ := h (f x) (f y) s t hx hy heq
  exact ⟨hf x y hxy, hst⟩

theorem prefixFree_le (n : Nat) : PrefixFree (fun x => x < 256 ^ n) (Bytes.le n) :=
  prefixFree_of_length n (Bytes.length_le n) fun x y hx hy h => Bytes.le_inj n x y hx hy h

theorem prefixFree_fin (n w : Nat) (h : 2 ^ w ≤ 256 ^ n) :
    PrefixFree (fun _ : Fin (2 ^ w) => True) (fun x => Bytes.le n x.val) := by
  intro x y s t _ _ heq
  obtain ⟨hval, hst⟩ := prefixFree_le n x.val y.val s t (lt_of_lt_of_le x.isLt h) (lt_of_lt_of_le y.isLt h) heq
  exact ⟨Fin.ext hval, hst⟩

/-- The length stands before the bytes. -/
theorem prefixFree_lengthPrefixed (n : Nat) :
    PrefixFree (fun b : List UInt8 => b.length < 256 ^ n) (fun b => Bytes.le n b.length ++ b) := by
  intro a b s t ha hb h
  rw [List.append_assoc, List.append_assoc] at h
  obtain ⟨hlen, hrest⟩ := prefixFree_le n _ _ _ _ ha hb h
  exact List.append_inj hrest hlen

/-- One number before nothing, another before a value. -/
theorem PrefixFree.option (h : PrefixFree D enc) (n i j : Nat) (hi : i < 256 ^ n) (hj : j < 256 ^ n) (hij : i ≠ j) :
    PrefixFree (fun o => ∀ a, o = some a → D a)
      (fun o => match o with
        | none => Bytes.le n i
        | some a => Bytes.le n j ++ enc a) := by
  intro o o' s t ho ho' heq
  cases o with
  | none =>
    cases o' with
    | none => exact ⟨rfl, List.append_cancel_left heq⟩
    | some b =>
      simp only [List.append_assoc] at heq
      exact absurd (prefixFree_le n _ _ _ _ hi hj heq).1 hij
  | some a =>
    cases o' with
    | none =>
      simp only [List.append_assoc] at heq
      exact absurd (prefixFree_le n _ _ _ _ hj hi heq).1 (Ne.symm hij)
    | some b =>
      simp only [List.append_assoc] at heq
      obtain ⟨-, hrest⟩ := prefixFree_le n _ _ _ _ hj hj heq
      obtain ⟨rfl, hst⟩ := h a b s t (ho a rfl) (ho' b rfl) hrest
      exact ⟨rfl, hst⟩

/-- A value that is there or not, on both sides alike, and without a tag. -/
theorem PrefixFree.elim (h : PrefixFree (fun _ => True) enc) (o o' : Option α) (s t : List UInt8)
    (hsome : o.isSome = o'.isSome) (heq : o.elim [] enc ++ s = o'.elim [] enc ++ t) : o = o' ∧ s = t := by
  cases o with
  | none =>
    cases o' with
    | none => exact ⟨rfl, heq⟩
    | some b => cases hsome
  | some a =>
    cases o' with
    | none => cases hsome
    | some b =>
      obtain ⟨hab, hst⟩ := h a b s t trivial trivial heq
      exact ⟨congrArg some hab, hst⟩

/-! ## Sequences -/

/-- Sequences of one length are read element by element. -/
theorem PrefixFree.flatMap (h : PrefixFree D enc) (l m : List α) (s t : List UInt8) (hlen : l.length = m.length)
    (hl : ∀ a ∈ l, D a) (hm : ∀ a ∈ m, D a) (heq : l.flatMap enc ++ s = m.flatMap enc ++ t) : l = m ∧ s = t := by
  induction l generalizing m with
  | nil =>
    obtain rfl : m = [] := List.length_eq_zero_iff.1 hlen.symm
    exact ⟨rfl, heq⟩
  | cons a l ih =>
    cases m with
    | nil => cases hlen
    | cons b m =>
      simp only [List.flatMap_cons, List.append_assoc] at heq
      obtain ⟨hab, hrest⟩ := h a b _ _ (hl a List.mem_cons_self) (hm b List.mem_cons_self) heq
      obtain ⟨hlm, hst⟩ := ih m (Nat.succ.inj hlen) (fun x hx => hl x (List.mem_cons_of_mem a hx))
        (fun x hx => hm x (List.mem_cons_of_mem b hx)) hrest
      exact ⟨by rw [hab, hlm], hst⟩

/-- The number of elements stands before them. -/
theorem PrefixFree.list (h : PrefixFree D enc) (n : Nat) :
    PrefixFree (fun l : List α => l.length < 256 ^ n ∧ ∀ a ∈ l, D a)
      (fun l => Bytes.le n l.length ++ l.flatMap enc) := by
  intro l m s t hl hm heq
  simp only [List.append_assoc] at heq
  obtain ⟨hlen, hrest⟩ := prefixFree_le n _ _ _ _ hl.1 hm.1 heq
  exact h.flatMap l m s t hlen hl.2 hm.2 hrest

/-- Byte strings written one after the other, without their lengths: what is read depends on
where one ends. -/
theorem flatten_inj (l m : List (List UInt8)) (s t : List UInt8)
    (hlen : l.map List.length = m.map List.length) (heq : l.flatten ++ s = m.flatten ++ t) : l = m ∧ s = t := by
  have htotal : l.flatten.length = m.flatten.length := by
    rw [List.length_flatten, List.length_flatten, hlen]
  obtain ⟨hflat, hst⟩ := List.append_inj heq htotal
  exact ⟨List.eq_iff_flatten_eq.2 ⟨hflat, hlen⟩, hst⟩

/-! ## Hexadecimal -/

/-- The character of a digit below 16. -/
def hexDigit (n : Nat) : UInt8 := UInt8.ofNat (if n < 10 then 48 + n else 87 + n)

/-- Two lower-case digits for each byte. -/
def hex (b : List UInt8) : List UInt8 := b.flatMap fun x => [hexDigit (x.toNat / 16), hexDigit (x.toNat % 16)]

@[simp] theorem length_hex (b : List UInt8) : (hex b).length = 2 * b.length := by
  induction b with
  | nil => rfl
  | cons x b ih =>
    unfold hex at ih ⊢
    simp only [List.flatMap_cons, List.length_append, ih, List.length_cons, List.length_nil]
    omega

theorem hexDigit_inj (m n : Nat) (hm : m < 16) (hn : n < 16) (h : hexDigit m = hexDigit n) : m = n := by
  have hval : ∀ k, k < 16 → (hexDigit k).toNat = if k < 10 then 48 + k else 87 + k := by decide
  have hnat := congrArg UInt8.toNat h
  rw [hval m hm, hval n hn] at hnat
  split at hnat <;> split at hnat <;> omega

theorem hex_inj (a b : List UInt8) (h : hex a = hex b) : a = b := by
  have hpf : PrefixFree (fun _ : UInt8 => True) fun x => [hexDigit (x.toNat / 16), hexDigit (x.toNat % 16)] := by
    refine prefixFree_of_length 2 (fun _ => rfl) fun x y _ _ hxy => ?_
    simp only [List.cons.injEq, and_true] at hxy
    have hx := x.toNat_lt
    have hy := y.toNat_lt
    have hhigh := hexDigit_inj _ _ (by omega) (by omega) hxy.1
    have hlow := hexDigit_inj _ _ (by omega) (by omega) hxy.2
    exact UInt8.toNat_inj.1 (by omega)
  have hlen := congrArg List.length h
  rw [length_hex, length_hex] at hlen
  exact (hpf.flatMap a b [] [] (by omega) (fun _ _ => trivial) (fun _ _ => trivial) (congrArg (· ++ []) h)).1

/-! ## Two encoders -/

/-- Where the two encoders write the same bytes before rests of one length, the values are
related and the rests are the same. -/
def Agree (R : α → β → Prop) (enc : α → List UInt8) (enc' : β → List UInt8) : Prop :=
  ∀ a b s t, s.length = t.length → enc a ++ s = enc' b ++ t → R a b ∧ s = t

theorem PrefixFree.agree (h : PrefixFree (fun _ => True) enc) : Agree Eq enc enc := fun a b s t _ heq =>
  h a b s t trivial trivial heq

/-- Encoders of two lengths never write the same bytes. -/
theorem agree_of_length_ne {enc' : β → List UInt8} (m n : Nat) (hm : ∀ a, (enc a).length = m)
    (hn : ∀ b, (enc' b).length = n) (hmn : m ≠ n) : Agree (fun _ _ => False) enc enc' := by
  intro a b s t hst heq
  have hlen := congrArg List.length heq
  simp only [List.length_append, hm, hn] at hlen
  omega

/-! ## UTF-8 -/

theorem toList_loop (b : ByteArray) (i : Nat) (r : List UInt8) :
    ByteArray.toList.loop b i r = r.reverse ++ b.data.toList.drop i := by
  fun_induction ByteArray.toList.loop b i r with
  | case1 i r hi ih =>
    have hi' : i < b.data.toList.length := by simpa using hi
    have hget : b.get! i = b.data.toList[i] := by
      show b.data[i]! = _
      rw [Array.getElem_toList, getElem!_pos b.data i hi]
    rw [ih, List.reverse_cons, List.append_assoc, List.drop_eq_getElem_cons hi', hget]
    rfl
  | case2 i r hi =>
    rw [List.drop_eq_nil_of_le (by simpa using hi), List.append_nil]

/-- A string is its UTF-8 bytes. -/
theorem toUTF8_inj (s t : String) (h : s.toUTF8.toList = t.toUTF8.toList) : s = t := by
  unfold ByteArray.toList at h
  rw [toList_loop, toList_loop] at h
  apply String.toByteArray_inj.1
  apply ByteArray.ext
  exact Array.toList_inj.1 (by simpa using h)

end Codec

end Kratos
