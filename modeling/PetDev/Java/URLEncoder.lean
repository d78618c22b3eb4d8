import Mathlib.Data.List.Basic

/-!
# `java.net.URLEncoder`

`URLEncoder.encode` with UTF-8, and the decoding of forms.  A byte of the UTF-8 form of a string
stands for itself, is a `+`, or is a `%` with two hexadecimal digits; a form is decoded the other
way round.  `decode_encode`: decoding gives back what was encoded, and no encoded string has a
separator of a form in it.
-/

namespace PetDev.Java

namespace URLEncoder

/-- Letters, digits, and `.`, `-`, `*` and `_`. -/
def isUnreserved (b : UInt8) : Bool :=
  (97 ≤ b && b ≤ 122) || (65 ≤ b && b ≤ 90) || (48 ≤ b && b ≤ 57) ||
    b == 46 || b == 45 || b == 42 || b == 95

def hexDigit (n : Nat) : Char := (Nat.digitChar n).toUpper

def encodeByte (b : UInt8) : List Char :=
  if isUnreserved b then [Char.ofNat b.toNat]
  else if b = 32 then ['+']
  else ['%', hexDigit (b.toNat / 16), hexDigit (b.toNat % 16)]

/-- `URLEncoder.encode(s, "UTF-8")`. -/
def encode (s : String) : String := String.ofList (s.toUTF8.data.toList.flatMap encodeByte)

/-! ## Decoding -/

/-- The value of a hexadecimal digit. -/
def hexValue (c : Char) : Option Nat :=
  if '0' ≤ c ∧ c ≤ '9' then some (c.toNat - 48)
  else if 'A' ≤ c ∧ c ≤ 'F' then some (c.toNat - 55)
  else if 'a' ≤ c ∧ c ≤ 'f' then some (c.toNat - 87)
  else none

def decodeBytes : List Char → List UInt8
  | [] => []
  | '+' :: cs => 32 :: decodeBytes cs
  | '%' :: a :: b :: cs =>
    match hexValue a, hexValue b with
    | some x, some y => UInt8.ofNat (16 * x + y) :: decodeBytes cs
    | _, _ => 37 :: decodeBytes (a :: b :: cs)
  | c :: cs => String.utf8EncodeChar c ++ decodeBytes cs

/-- The string of a decoded form, `none` when its bytes are not UTF-8. -/
def decode (s : String) : Option String := String.fromUTF8? (decodeBytes s.toList).toByteArray

example : encode "a b&c=ü+%" = "a+b%26c%3D%C3%BC%2B%25" := by decide +kernel

/-! ## Back again -/

theorem forall_byte {P : UInt8 → Prop} (h : ∀ n < 256, P (UInt8.ofNat n)) (b : UInt8) : P b := by
  rw [← UInt8.ofNat_toNat (x := b)]
  exact h b.toNat b.toNat_lt

theorem hexValue_hexDigit : ∀ n < 16, hexValue (hexDigit n) = some n := by decide

/-- What stands for itself is one byte, and neither `+` nor `%`. -/
theorem unreserved_char : ∀ b : UInt8, isUnreserved b = true →
    Char.ofNat b.toNat ≠ '+' ∧ Char.ofNat b.toNat ≠ '%' ∧
      String.utf8EncodeChar (Char.ofNat b.toNat) = [b] :=
  forall_byte (by decide +kernel)

theorem separator_not_mem_encodeByte : ∀ b : UInt8, '&' ∉ encodeByte b ∧ '=' ∉ encodeByte b :=
  forall_byte (by decide +kernel)

theorem decodeBytes_encodeByte (b : UInt8) (cs : List Char) :
    decodeBytes (encodeByte b ++ cs) = b :: decodeBytes cs := by
  unfold encodeByte
  split
  · next hself =>
    obtain ⟨hplus, hpercent, hutf8⟩ := unreserved_char b hself
    rw [List.singleton_append, decodeBytes.eq_def]
    split
    · next heq => cases heq
    · next heq => exact absurd (List.cons.inj heq).1 hplus
    · next heq => exact absurd (List.cons.inj heq).1 hpercent
    · next heq =>
      obtain ⟨rfl, rfl⟩ := List.cons.inj heq
      rw [hutf8, List.singleton_append]
  · split
    · next hspace =>
      rw [hspace]
      rfl
    · have hb := b.toNat_lt
      have hhigh := hexValue_hexDigit (b.toNat / 16) (by omega)
      have hlow := hexValue_hexDigit (b.toNat % 16) (by omega)
      simp only [List.cons_append, List.nil_append, decodeBytes, hhigh, hlow]
      rw [Nat.div_add_mod, UInt8.ofNat_toNat]

theorem decodeBytes_flatMap (bs : List UInt8) : decodeBytes (bs.flatMap encodeByte) = bs := by
  induction bs with
  | nil => rfl
  | cons b bs ih => rw [List.flatMap_cons, decodeBytes_encodeByte, ih]

/-- **Decoding gives back what was encoded.** -/
theorem decode_encode (s : String) : decode (encode s) = some s := by
  have hbytes : s.toUTF8.data.toList.toByteArray = s.toByteArray := by
    refine ByteArray.ext ?_
    rw [List.data_toByteArray, Array.toArray_toList]
    rfl
  unfold decode encode
  rw [String.toList_ofList, decodeBytes_flatMap, hbytes]
  exact dif_pos s.isValidUTF8

theorem separator_not_mem_encode (s : String) :
    '&' ∉ (encode s).toList ∧ '=' ∉ (encode s).toList := by
  unfold encode
  rw [String.toList_ofList]
  constructor
  · intro hmem
    obtain ⟨b, -, hb⟩ := List.mem_flatMap.mp hmem
    exact (separator_not_mem_encodeByte b).1 hb
  · intro hmem
    obtain ⟨b, -, hb⟩ := List.mem_flatMap.mp hmem
    exact (separator_not_mem_encodeByte b).2 hb

end URLEncoder

end PetDev.Java
