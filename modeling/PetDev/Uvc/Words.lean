import PetDev.Uvc.Stream

/-!
# Words on the wire

The macros of `libuvc_internal.h` that read and write the little-endian words of descriptors and
control blocks.  What is written is read back: `swToShort_shortToSw`, `dwToInt_intToDw`.

`QW_TO_LONG` joins the low four bytes as an `int`, so that a set bit 31 fills the high word:
`qwToLong_longToQw_eq_iff` says which words are read back.
-/

namespace PetDev.Uvc

/-- `SW_TO_SHORT(block + offset)`. -/
def swToShort (block : List UInt8) (offset : Nat) : Option UInt16 := do
  let b0 ← block[offset]?
  let b1 ← block[offset + 1]?
  return b0.toUInt16 ||| b1.toUInt16 <<< 8

/-- `QW_TO_LONG(block + offset)`; the first four bytes are an `int`. -/
def qwToLong (block : List UInt8) (offset : Nat) : Option UInt64 := do
  let low ← dwToInt block offset
  let b4 ← block[offset + 4]?
  let b5 ← block[offset + 5]?
  let b6 ← block[offset + 6]?
  let b7 ← block[offset + 7]?
  return low.toInt32.toInt64.toUInt64 ||| b4.toUInt64 <<< 32 ||| b5.toUInt64 <<< 40 |||
    b6.toUInt64 <<< 48 ||| b7.toUInt64 <<< 56

/-- `SHORT_TO_SW(s, p)`. -/
def shortToSw (s : UInt16) : List UInt8 := [s.toUInt8, (s >>> 8).toUInt8]

/-- `INT_TO_DW(i, p)`. -/
def intToDw (i : UInt32) : List UInt8 :=
  [i.toUInt8, (i >>> 8).toUInt8, (i >>> 16).toUInt8, (i >>> 24).toUInt8]

/-- `LONG_TO_QW(i, p)`. -/
def longToQw (i : UInt64) : List UInt8 :=
  [i.toUInt8, (i >>> 8).toUInt8, (i >>> 16).toUInt8, (i >>> 24).toUInt8, (i >>> 32).toUInt8,
    (i >>> 40).toUInt8, (i >>> 48).toUInt8, (i >>> 56).toUInt8]

/-! ## Written and read -/

theorem swToShort_shortToSw (s : UInt16) (rest : List UInt8) :
    swToShort (shortToSw s ++ rest) 0 = some s := by
  have hjoin : s.toUInt8.toUInt16 ||| (s >>> 8).toUInt8.toUInt16 <<< 8 = s := by
    apply UInt16.eq_of_toBitVec_eq
    apply BitVec.eq_of_getLsbD_eq
    intro i hi
    simp only [UInt16.toBitVec_or, UInt16.toBitVec_shiftLeft, UInt16.toBitVec_shiftRight,
      UInt8.toBitVec_toUInt16, UInt16.toBitVec_toUInt8, show (8 : UInt16).toBitVec % 16 = 8 from rfl,
      BitVec.shiftLeft_eq', BitVec.ushiftRight_eq', BitVec.getLsbD_or, BitVec.getLsbD_shiftLeft,
      BitVec.getLsbD_setWidth, BitVec.getLsbD_ushiftRight]
    grind
  exact congrArg some hjoin

theorem dwToInt_intToDw (x : UInt32) (rest : List UInt8) :
    dwToInt (intToDw x ++ rest) 0 = some x := by
  have hjoin : x.toUInt8.toUInt32 ||| (x >>> 8).toUInt8.toUInt32 <<< 8 |||
      (x >>> 16).toUInt8.toUInt32 <<< 16 ||| (x >>> 24).toUInt8.toUInt32 <<< 24 = x := by
    apply UInt32.eq_of_toBitVec_eq
    apply BitVec.eq_of_getLsbD_eq
    intro i hi
    simp only [UInt32.toBitVec_or, UInt32.toBitVec_shiftLeft, UInt32.toBitVec_shiftRight,
      UInt8.toBitVec_toUInt32, UInt32.toBitVec_toUInt8, show (8 : UInt32).toBitVec % 32 = 8 from rfl,
      show (16 : UInt32).toBitVec % 32 = 16 from rfl, show (24 : UInt32).toBitVec % 32 = 24 from rfl,
      BitVec.shiftLeft_eq', BitVec.ushiftRight_eq', BitVec.getLsbD_or, BitVec.getLsbD_shiftLeft,
      BitVec.getLsbD_setWidth, BitVec.getLsbD_ushiftRight]
    grind
  exact congrArg some hjoin

/-- The bytes of a long word, with a low word joined without its sign. -/
theorem join_longToQw (x : UInt64) :
    x.toUInt32.toUInt64 ||| (x >>> 32).toUInt8.toUInt64 <<< 32 |||
      (x >>> 40).toUInt8.toUInt64 <<< 40 ||| (x >>> 48).toUInt8.toUInt64 <<< 48 |||
      (x >>> 56).toUInt8.toUInt64 <<< 56 = x := by
  apply UInt64.eq_of_toBitVec_eq
  apply BitVec.eq_of_getLsbD_eq
  intro i hi
  simp only [UInt64.toBitVec_or, UInt64.toBitVec_shiftLeft, UInt64.toBitVec_shiftRight,
    UInt8.toBitVec_toUInt64, UInt32.toBitVec_toUInt64, UInt64.toBitVec_toUInt8,
    UInt64.toBitVec_toUInt32, show (32 : UInt64).toBitVec % 64 = 32 from rfl,
    show (40 : UInt64).toBitVec % 64 = 40 from rfl, show (48 : UInt64).toBitVec % 64 = 48 from rfl,
    show (56 : UInt64).toBitVec % 64 = 56 from rfl, BitVec.shiftLeft_eq', BitVec.ushiftRight_eq',
    BitVec.getLsbD_or, BitVec.getLsbD_shiftLeft, BitVec.getLsbD_setWidth, BitVec.getLsbD_ushiftRight]
  grind

/-! ## The sign of the low word -/

/-- The bits of the high word. -/
theorem getLsbD_highWord {i : Nat} (hi : i < 64) :
    (0xffffffff00000000 : UInt64).toBitVec.getLsbD i = decide (32 ≤ i) := by
  have hmask : (0xffffffff00000000 : UInt64).toBitVec =
      (BitVec.allOnes 32).setWidth 64 <<< 32 := rfl
  rw [hmask, BitVec.getLsbD_shiftLeft, BitVec.getLsbD_setWidth, BitVec.getLsbD_allOnes]
  grind

/-- An `int` that becomes a `uint64_t` takes its sign along. -/
theorem toUInt64_of_int (x : UInt32) :
    x.toInt32.toInt64.toUInt64 =
      if 0x80000000 ≤ x then x.toUInt64 ||| 0xffffffff00000000 else x.toUInt64 := by
  have hext : x.toInt32.toInt64.toUInt64.toBitVec = x.toBitVec.signExtend 64 :=
    UInt64.toBitVec_ofBitVec _
  have hsign : x.toBitVec.msb = decide (0x80000000 ≤ x) := by
    rw [BitVec.msb_eq_decide]
    rfl
  apply UInt64.eq_of_toBitVec_eq
  apply BitVec.eq_of_getLsbD_eq
  intro i hi
  rw [hext, BitVec.getLsbD_signExtend, hsign]
  split_ifs with hlow hx hx
  · rw [UInt64.toBitVec_or, BitVec.getLsbD_or, getLsbD_highWord hi, UInt32.toBitVec_toUInt64,
      BitVec.getLsbD_setWidth]
    grind
  · rw [UInt32.toBitVec_toUInt64, BitVec.getLsbD_setWidth]
  · rw [UInt64.toBitVec_or, BitVec.getLsbD_or, getLsbD_highWord hi]
    grind
  · rw [UInt32.toBitVec_toUInt64, BitVec.getLsbD_setWidth, BitVec.getLsbD_of_ge _ _ (by omega)]
    grind

theorem shiftRight_eq_ones_iff (x : UInt64) :
    x >>> 32 = 0xffffffff ↔ ∀ i < 64, 32 ≤ i → x.toBitVec.getLsbD i = true := by
  have hones : (0xffffffff : UInt64).toBitVec = (BitVec.allOnes 32).setWidth 64 := rfl
  have hbit (i : Nat) : (x >>> 32).toBitVec.getLsbD i = x.toBitVec.getLsbD (32 + i) := by
    rw [UInt64.toBitVec_shiftRight, show (32 : UInt64).toBitVec % 64 = 32 from rfl,
      BitVec.ushiftRight_eq', BitVec.getLsbD_ushiftRight]
    rfl
  constructor
  · intro h i hi h32
    have hsame := congrArg (fun y => y.toBitVec.getLsbD (i - 32)) h
    simp only [hbit, hones, BitVec.getLsbD_setWidth, BitVec.getLsbD_allOnes] at hsame
    grind
  · intro h
    apply UInt64.eq_of_toBitVec_eq
    apply BitVec.eq_of_getLsbD_eq
    intro i hi
    rw [hbit, hones, BitVec.getLsbD_setWidth, BitVec.getLsbD_allOnes]
    by_cases h32 : i < 32
    · rw [h (32 + i) (by omega) (by omega)]
      grind
    · rw [BitVec.getLsbD_of_ge _ _ (by omega)]
      grind

/-- The high word is all there already. -/
theorem or_highWord_eq_iff (x : UInt64) :
    x ||| 0xffffffff00000000 = x ↔ x >>> 32 = 0xffffffff := by
  rw [shiftRight_eq_ones_iff]
  constructor
  · intro h i hi h32
    have hsame := congrArg (fun y => y.toBitVec.getLsbD i) h
    simp only [UInt64.toBitVec_or, BitVec.getLsbD_or, getLsbD_highWord hi] at hsame
    grind
  · intro h
    apply UInt64.eq_of_toBitVec_eq
    apply BitVec.eq_of_getLsbD_eq
    intro i hi
    rw [UInt64.toBitVec_or, BitVec.getLsbD_or, getLsbD_highWord hi]
    have hhigh := h i hi
    grind

/-- A long word begins with its low word. -/
theorem longToQw_eq (x : UInt64) :
    longToQw x = intToDw x.toUInt32 ++
      [(x >>> 32).toUInt8, (x >>> 40).toUInt8, (x >>> 48).toUInt8, (x >>> 56).toUInt8] := by
  have hbyte (n : Nat) (hn : n + 8 ≤ 32) :
      ((x.toBitVec.setWidth 32) >>> n).setWidth 8 = (x.toBitVec >>> n).setWidth 8 := by
    apply BitVec.eq_of_getLsbD_eq
    intro i hi
    simp only [BitVec.getLsbD_setWidth, BitVec.getLsbD_ushiftRight]
    grind
  have h0 : x.toUInt32.toUInt8 = x.toUInt8 := UInt8.eq_of_toBitVec_eq (hbyte 0 (by omega))
  have h8 : (x.toUInt32 >>> 8).toUInt8 = (x >>> 8).toUInt8 :=
    UInt8.eq_of_toBitVec_eq (hbyte 8 (by omega))
  have h16 : (x.toUInt32 >>> 16).toUInt8 = (x >>> 16).toUInt8 :=
    UInt8.eq_of_toBitVec_eq (hbyte 16 (by omega))
  have h24 : (x.toUInt32 >>> 24).toUInt8 = (x >>> 24).toUInt8 :=
    UInt8.eq_of_toBitVec_eq (hbyte 24 (by omega))
  unfold longToQw intToDw
  rw [h0, h8, h16, h24]
  rfl

theorem qwToLong_longToQw (x : UInt64) (rest : List UInt8) :
    qwToLong (longToQw x ++ rest) 0 =
      some (if 0x80000000 ≤ x.toUInt32 then x ||| 0xffffffff00000000 else x) := by
  have hlow : dwToInt (longToQw x ++ rest) 0 = some x.toUInt32 := by
    rw [longToQw_eq, List.append_assoc, dwToInt_intToDw]
  have hread : qwToLong (longToQw x ++ rest) 0 =
      some (x.toUInt32.toInt32.toInt64.toUInt64 ||| (x >>> 32).toUInt8.toUInt64 <<< 32 |||
        (x >>> 40).toUInt8.toUInt64 <<< 40 ||| (x >>> 48).toUInt8.toUInt64 <<< 48 |||
        (x >>> 56).toUInt8.toUInt64 <<< 56) := by
    unfold qwToLong
    rw [hlow]
    rfl
  rw [hread, toUInt64_of_int]
  split_ifs
  · have hlast (l m a b c d : UInt64) :
        l ||| m ||| a ||| b ||| c ||| d = l ||| a ||| b ||| c ||| d ||| m := by ac_rfl
    rw [hlast, join_longToQw]
  · rw [join_longToQw]

/-- **The long words that are read back.** -/
theorem qwToLong_longToQw_eq_iff (x : UInt64) (rest : List UInt8) :
    qwToLong (longToQw x ++ rest) 0 = some x ↔
      (0x80000000 ≤ x.toUInt32 → x >>> 32 = 0xffffffff) := by
  rw [qwToLong_longToQw, Option.some.injEq]
  split_ifs with hsign
  · rw [or_highWord_eq_iff]
    exact ⟨fun h _ => h, fun h => h hsign⟩
  · exact ⟨fun _ h => absurd h hsign, fun _ => rfl⟩

end PetDev.Uvc
