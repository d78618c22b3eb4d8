import PetDev.Detection.ImageProcessing
import Mathlib.Algebra.Order.Group.Unbundled.Int

/-!
# Decoding to colours

`decodeYUV420SPtoRGB` runs over the pixels with one index into the luma, and over the chroma with
another that it starts anew in every row and moves on at even columns only.  It packs the three
channels into one `int` with a shift and a mask each.

`decodeYUV420SPtoRGB_eq`: for even sizes no read is outside the buffer, and every pixel is packed
from its luma and from the chroma of its square of two by two pixels.
-/

namespace PetDev.Detection

open Java

namespace ImageProcessing

/-! ## The decoder -/

/-- `if (r < 0) r = 0; else if (r > 262143) r = 262143;`. -/
def clamp (c : Int) : Int := if c < 0 then 0 else if c > 262143 then 262143 else c

/-- `0xff000000 | ((r << 6) & 0xff0000) | ((g >> 2) & 0xff00) | ((b >> 10) & 0xff)`. -/
def pack (r g b : BitVec 32) : BitVec 32 :=
  0xff000000#32 ||| ((r <<< 6) &&& 0xff0000#32) ||| ((g.sshiftRight 2) &&& 0xff00#32) |||
    ((b.sshiftRight 10) &&& 0xff#32)

/-- The variables of the inner loop. -/
structure RgbRow where
  rgb : Array (BitVec 32)
  yp : Int
  uvp : Int
  u : Int
  v : Int

/-- At even columns, the next `v` and `u`. -/
def RgbRow.nextChroma (yuv420sp : Array (BitVec 8)) (i : Int) (s : RgbRow) : Option RgbRow :=
  if i % 2 = 0 then do
    let v ← read yuv420sp s.uvp
    let u ← read yuv420sp (int (s.uvp + 1))
    return { s with
      v := int (unsigned v - 128)
      u := int (unsigned u - 128)
      uvp := int (int (s.uvp + 1) + 1) }
  else some s

/-- One round of the inner loop. -/
def RgbRow.pixel (yuv420sp : Array (BitVec 8)) (i : Int) (s : RgbRow) : Option RgbRow := do
  let b ← read yuv420sp s.yp
  let y := lumaOf b
  let s ← s.nextChroma yuv420sp i
  let y1192 := int (1192 * y)
  let r := int (y1192 + int (1634 * s.v))
  let g := int (int (y1192 - int (833 * s.v)) - int (400 * s.u))
  let b := int (y1192 + int (2066 * s.u))
  let rgb ← write s.rgb s.yp
    (pack (BitVec.ofInt 32 (clamp r)) (BitVec.ofInt 32 (clamp g)) (BitVec.ofInt 32 (clamp b)))
  return { s with rgb := rgb, yp := int (s.yp + 1) }

/-- One round of the outer loop, with `rgb` and `yp`. -/
def rgbRow (yuv420sp : Array (BitVec 8)) (frameSize width j : Int)
    (acc : Array (BitVec 32) × Int) : Option (Array (BitVec 32) × Int) := do
  let uvp := int (frameSize + int ((j >>> (1 : Nat)) * width))
  let s ← forRange width (fun i s => RgbRow.pixel yuv420sp i s)
    ⟨acc.1, acc.2, uvp, 0, 0⟩
  return (s.rgb, s.yp)

def decodeYUV420SPtoRGB (yuv420sp : Array (BitVec 8)) (width height : Int) :
    Option (Array (BitVec 32)) := do
  let frameSize := int (width * height)
  let rgb ← newArray frameSize 0
  let acc ← forRange height (fun j acc => rgbRow yuv420sp frameSize width j acc) (rgb, 0)
  return acc.1

/-! ## What it should answer -/

/-- Where the chroma of the pixel `(i, j)` is: first `v` and then `u`. -/
def chromaPlace (w h i j : Int) : Int := w * h + j / 2 * w + 2 * (i / 2)

/-- A fixed-point value as a byte: brought to the range of `18` bits, of which `8` are kept. -/
def channel (c : Int) : BitVec 32 := BitVec.ofInt 32 (min 262143 (max 0 c)) >>> 10

/-- The colour of the pixel `(i, j)`. -/
def colour (data : Array (BitVec 8)) (w h i j : Int) : BitVec 32 :=
  let y := max 0 (unsigned (byteAt data (j * w + i)) - 16)
  let v := unsigned (byteAt data (chromaPlace w h i j)) - 128
  let u := unsigned (byteAt data (chromaPlace w h i j + 1)) - 128
  0xff000000#32 ||| channel (1192 * y + 1634 * v) <<< 16 |||
    channel (1192 * y - 833 * v - 400 * u) <<< 8 ||| channel (1192 * y + 2066 * u)

/-! ## Packing -/

theorem clamp_eq (c : Int) : clamp c = min 262143 (max 0 c) := by
  unfold clamp
  split
  · omega
  · split <;> omega

theorem testBit_mask (k i : Nat) :
    (0xff <<< k).testBit i = (decide (k ≤ i) && decide (i < k + 8)) := by
  rw [Nat.testBit_shiftLeft, show (0xff : Nat) = 2 ^ 8 - 1 from rfl, Nat.testBit_two_pow_sub_one]
  by_cases h : k ≤ i
  · simp [h, show i - k < 8 ↔ i < k + 8 by omega]
  · simp [h]

/-- **A value of `18` bits, shifted so that its upper `8` bits are at `k`, and masked there**: this
keeps these bits and no others. -/
theorem shift_and_mask {x y m : BitVec 32} (hx : x.toNat < 2 ^ 18) (k : Nat)
    (hm : m = BitVec.ofNat 32 (0xff <<< k))
    (hy : ∀ i, k ≤ i → i < k + 8 → i < 32 → y.getLsbD i = x.getLsbD (10 + (i - k))) :
    y &&& m = (x >>> 10) <<< k := by
  refine BitVec.eq_of_getLsbD_eq fun i hi => ?_
  rw [hm, BitVec.getLsbD_and, BitVec.getLsbD_ofNat, testBit_mask, BitVec.getLsbD_shiftLeft,
    BitVec.getLsbD_ushiftRight]
  by_cases hk : k ≤ i
  · by_cases hk8 : i < k + 8
    · rw [hy i hk hk8 hi]
      simp [hk, hk8, hi]
    · -- above the eighteenth bit
      have hhigh : x.getLsbD (10 + (i - k)) = false :=
        Nat.testBit_lt_two_pow (hx.trans_le (Nat.pow_le_pow_right (by decide) (by omega)))
      simp [hk, hk8, hi, hhigh]
  · simp [hk, show i < k by omega]

theorem msb_of_lt {x : BitVec 32} (hx : x.toNat < 2 ^ 18) : x.msb = false := by
  rw [BitVec.msb_eq_decide]
  exact decide_eq_false (by omega)

theorem pack_eq {r g b : BitVec 32} (hr : r.toNat < 2 ^ 18) (hg : g.toNat < 2 ^ 18)
    (hb : b.toNat < 2 ^ 18) :
    pack r g b = 0xff000000#32 ||| (r >>> 10) <<< 16 ||| (g >>> 10) <<< 8 ||| b >>> 10 := by
  have hred : (r <<< 6) &&& 0xff0000#32 = (r >>> 10) <<< 16 := by
    refine shift_and_mask hr 16 rfl fun i hi hi8 hi32 => ?_
    rw [BitVec.getLsbD_shiftLeft]
    simp [hi32, show ¬ i < 6 by omega, show 10 + (i - 16) = i - 6 by omega]
  have hgreen : (g.sshiftRight 2) &&& 0xff00#32 = (g >>> 10) <<< 8 := by
    rw [BitVec.sshiftRight_eq_of_msb_false (msb_of_lt hg)]
    refine shift_and_mask hg 8 rfl fun i hi hi8 hi32 => ?_
    rw [BitVec.getLsbD_ushiftRight, show 10 + (i - 8) = 2 + i by omega]
  have hblue : (b.sshiftRight 10) &&& 0xff#32 = b >>> 10 := by
    rw [BitVec.sshiftRight_eq_of_msb_false (msb_of_lt hb)]
    refine (shift_and_mask hb 0 rfl fun i hi hi8 hi32 => ?_).trans (BitVec.shiftLeft_zero _)
    rw [BitVec.getLsbD_ushiftRight, Nat.sub_zero]
  unfold pack
  rw [hred, hgreen, hblue]

theorem toNat_clamp_lt (c : Int) : (BitVec.ofInt 32 (clamp c)).toNat < 2 ^ 18 := by
  rw [clamp_eq, BitVec.toNat_ofInt]
  omega

theorem pack_clamp (r g b : Int) : pack (BitVec.ofInt 32 (clamp r)) (BitVec.ofInt 32 (clamp g))
    (BitVec.ofInt 32 (clamp b)) =
      0xff000000#32 ||| channel r <<< 16 ||| channel g <<< 8 ||| channel b := by
  rw [pack_eq (toNat_clamp_lt r) (toNat_clamp_lt g) (toNat_clamp_lt b), clamp_eq, clamp_eq,
    clamp_eq]
  rfl

/-! ## The loops -/

section

variable {data : Array (BitVec 8)} {w h i j : Int}

/-- The chroma of a pixel is behind the luma, and in the buffer. -/
theorem chromaPlace_bounds (hw2 : w % 2 = 0) (hh2 : h % 2 = 0) (hi0 : 0 ≤ i) (hi : i < w)
    (hj0 : 0 ≤ j) (hj : j < h) : w * h ≤ chromaPlace w h i j ∧
      chromaPlace w h i j + 1 < 3 * w * h / 2 := by
  obtain ⟨h', rfl⟩ : ∃ h', h = 2 * h' := ⟨h / 2, by omega⟩
  have hrow0 : 0 ≤ j / 2 * w := Int.mul_nonneg (by omega) (by omega)
  have hrow : j / 2 * w ≤ (h' - 1) * w := Int.mul_le_mul_of_nonneg_right (by omega) (by omega)
  have hlast : (h' - 1) * w = w * h' - w := by ring
  have harea : w * (2 * h') = 2 * (w * h') := by ring
  have hbuffer : 3 * w * (2 * h') = 2 * (3 * (w * h')) := by ring
  unfold chromaPlace
  omega

/-- The index into the chroma before column `i`: one square further for every two columns. -/
def uvpAt (w h i j : Int) : Int := w * h + j / 2 * w + 2 * ((i + 1) / 2)

/-- The pixels of the picture, numbered row by row. -/
def colourAt (data : Array (BitVec 8)) (w h p : Int) : BitVec 32 :=
  colour data w h (p % w) (p / w)

/-- What the inner loop has done before column `i` of row `j`. -/
structure RgbRow.Upto (data : Array (BitVec 8)) (w h i j : Int) (s : RgbRow) : Prop where
  rgb : Filled s.rgb (w * h) (j * w + i) (colourAt data w h)
  yp : s.yp = j * w + i
  uvp : s.uvp = uvpAt w h i j
  v : 0 < i → s.v = unsigned (byteAt data (chromaPlace w h (i - 1) j)) - 128
  u : 0 < i → s.u = unsigned (byteAt data (chromaPlace w h (i - 1) j + 1)) - 128

/-- The buffer is long enough for luma and chroma, and its size is an `int`. -/
structure Buffered (data : Array (BitVec 8)) (w h : Int) : Prop where
  two_le_width : 2 ≤ w
  two_le_height : 2 ≤ h
  width_even : w % 2 = 0
  height_even : h % 2 = 0
  length_lt : 3 * w * h / 2 < 2 ^ 31
  length_le : 3 * w * h / 2 ≤ data.size

theorem Buffered.area_nonneg (hd : Buffered data w h) : 0 ≤ w * h := by
  have := hd.two_le_width
  have := hd.two_le_height
  exact Int.mul_nonneg (by omega) (by omega)

/-- The luma is in the buffer. -/
theorem Buffered.area_bounds (hd : Buffered data w h) : w * h < 2 ^ 31 ∧ w * h ≤ data.size := by
  have := hd.area_nonneg
  have := hd.length_lt
  have := hd.length_le
  have : 3 * w * h = 3 * (w * h) := by ring
  omega

theorem colourAt_row (hi0 : 0 ≤ i) (hi : i < w) :
    colourAt data w h (j * w + i) = colour data w h i j := by
  unfold colourAt
  rw [add_comm, Int.add_mul_emod_self_right, Int.emod_eq_of_lt hi0 hi,
    Int.add_mul_ediv_right _ _ (by omega), Int.ediv_eq_zero_of_lt hi0 hi, zero_add]

/-- After `nextChroma` the variables `v` and `u` are those of the square of the pixel. -/
theorem RgbRow.Upto.exists_nextChroma {s : RgbRow} (hs : s.Upto data w h i j)
    (hd : Buffered data w h) (hi0 : 0 ≤ i) (hi : i < w) (hj0 : 0 ≤ j) (hj : j < h) :
    s.nextChroma data i = some ⟨s.rgb, s.yp, uvpAt w h (i + 1) j,
      unsigned (byteAt data (chromaPlace w h i j + 1)) - 128,
      unsigned (byteAt data (chromaPlace w h i j)) - 128⟩ := by
  obtain ⟨hplace0, hplace⟩ := chromaPlace_bounds hd.width_even hd.height_even hi0 hi hj0 hj
  have hlt := hd.length_lt
  have hle := hd.length_le
  have harea0 := hd.area_nonneg
  have hv := unsigned_bounds (byteAt data (chromaPlace w h i j))
  have hu := unsigned_bounds (byteAt data (chromaPlace w h i j + 1))
  unfold nextChroma
  by_cases heven : i % 2 = 0
  · have hplaceEq : s.uvp = chromaPlace w h i j := by
      rw [hs.uvp]
      unfold uvpAt chromaPlace
      omega
    have hnext : chromaPlace w h i j + 1 + 1 = uvpAt w h (i + 1) j := by
      unfold uvpAt chromaPlace
      omega
    rw [if_pos heven, hplaceEq]
    rw [int_of_range (show -2 ^ 31 ≤ chromaPlace w h i j + 1 by omega) (by omega),
      int_of_range (show -2 ^ 31 ≤ chromaPlace w h i j + 1 + 1 by omega) (by omega), hnext,
      read_eq_byteAt (show 0 ≤ chromaPlace w h i j by omega) (by omega),
      read_eq_byteAt (show 0 ≤ chromaPlace w h i j + 1 by omega) (by omega)]
    simp only [Option.bind_eq_bind, Option.bind_some]
    rw [int_of_range (by omega) (by omega), int_of_range (by omega) (by omega)]
    rfl
  · -- the square of the column before
    have hsquare : chromaPlace w h (i - 1) j = chromaPlace w h i j := by
      unfold chromaPlace
      omega
    have hsame : uvpAt w h (i + 1) j = uvpAt w h i j := by
      unfold uvpAt
      omega
    have hv' := hs.v (by omega)
    have hu' := hs.u (by omega)
    rw [hsquare] at hv' hu'
    rw [if_neg heven, hsame, ← hs.uvp, ← hu', ← hv']

/-- A round of the inner loop reads in the buffer, and sets the colour of its pixel. -/
theorem RgbRow.Upto.exists_pixel {s : RgbRow} (hs : s.Upto data w h i j) (hd : Buffered data w h)
    (hi0 : 0 ≤ i) (hi : i < w) (hj0 : 0 ≤ j) (hj : j < h) :
    ∃ s', s.pixel data i = some s' ∧ s'.Upto data w h (i + 1) j := by
  obtain ⟨harea, hsize⟩ := hd.area_bounds
  have hrow0 : 0 ≤ j * w := Int.mul_nonneg hj0 (by omega)
  have hplace : j * w + i < w * h := by
    have hrow : j * w ≤ (h - 1) * w := Int.mul_le_mul_of_nonneg_right (by omega) (by omega)
    have hlast : (h - 1) * w = w * h - w := by ring
    omega
  obtain ⟨rgb, hwrite, hfilled⟩ := hs.rgb.exists_write (by omega) hplace
  rw [colourAt_row hi0 hi] at hwrite
  have hy := unsigned_bounds (byteAt data (j * w + i))
  have hv := unsigned_bounds (byteAt data (chromaPlace w h i j))
  have hu := unsigned_bounds (byteAt data (chromaPlace w h i j + 1))
  refine ⟨⟨rgb, j * w + (i + 1), uvpAt w h (i + 1) j,
      unsigned (byteAt data (chromaPlace w h i j + 1)) - 128,
      unsigned (byteAt data (chromaPlace w h i j)) - 128⟩, ?_, ?_⟩
  · unfold pixel
    simp only [hs.yp, read_eq_byteAt (show 0 ≤ j * w + i by omega) (hplace.trans_le hsize),
      hs.exists_nextChroma hd hi0 hi hj0 hj, Option.bind_eq_bind, Option.bind_some, lumaOf_eq,
      pack_clamp, int_int_add, int_add_int, int_int_sub, int_sub_int]
    rw [int_of_range (show -2 ^ 31 ≤ 1192 * max 0 (unsigned (byteAt data (j * w + i)) - 16) +
        1634 * (unsigned (byteAt data (chromaPlace w h i j)) - 128) by omega) (by omega),
      int_of_range (show -2 ^ 31 ≤ 1192 * max 0 (unsigned (byteAt data (j * w + i)) - 16) -
        833 * (unsigned (byteAt data (chromaPlace w h i j)) - 128) -
        400 * (unsigned (byteAt data (chromaPlace w h i j + 1)) - 128) by omega) (by omega),
      int_of_range (show -2 ^ 31 ≤ 1192 * max 0 (unsigned (byteAt data (j * w + i)) - 16) +
        2066 * (unsigned (byteAt data (chromaPlace w h i j + 1)) - 128) by omega) (by omega),
      int_of_range (show -2 ^ 31 ≤ j * w + i + 1 by omega) (by omega)]
    change (write s.rgb (j * w + i) (colour data w h i j)).bind _ = _
    rw [hwrite, add_assoc]
    rfl
  · rw [add_assoc] at hfilled
    refine ⟨hfilled, rfl, rfl, fun _ => ?_, fun _ => ?_⟩
    · rw [add_sub_cancel_right]
    · rw [add_sub_cancel_right]

/-- A round of the outer loop. -/
theorem exists_rgbRow (hd : Buffered data w h) (hj0 : 0 ≤ j) (hj : j < h)
    {rgb : Array (BitVec 32)} (hrgb : Filled rgb (w * h) (j * w) (colourAt data w h)) :
    ∃ acc, rgbRow data (w * h) w j (rgb, j * w) = some acc ∧
      Filled acc.1 (w * h) ((j + 1) * w) (colourAt data w h) ∧ acc.2 = (j + 1) * w := by
  have hw := hd.two_le_width
  have hstart : int (w * h + int ((j >>> (1 : Nat)) * w)) = uvpAt w h 0 j := by
    obtain ⟨hplace0, hplace⟩ := chromaPlace_bounds (w := w) (h := h) (i := 0) (j := j)
      hd.width_even hd.height_even le_rfl (by omega) hj0 hj
    have := hd.area_nonneg
    have := hd.length_lt
    have hhalf : j >>> (1 : Nat) = j / 2 := Int.shiftRight_eq_div_pow j 1
    have huvp : uvpAt w h 0 j = chromaPlace w h 0 j := by
      unfold uvpAt chromaPlace
      omega
    rw [int_add_int, hhalf, huvp]
    unfold chromaPlace at *
    exact (int_of_range (by omega) (by omega)).trans (by omega)
  obtain ⟨s, hs, hupto⟩ : ∃ s, forRange w (fun i s => RgbRow.pixel data i s)
      ⟨rgb, j * w, uvpAt w h 0 j, 0, 0⟩ = some s ∧ s.Upto data w h w j := by
    refine forRange_spec (fun i (s : RgbRow) => s.Upto data w h i j) (by omega) ?_ ?_
    · exact ⟨by rw [add_zero]; exact hrgb, (add_zero _).symm, rfl, fun h0 => absurd h0 (lt_irrefl 0),
        fun h0 => absurd h0 (lt_irrefl 0)⟩
    · exact fun i s hi0 hi hs => hs.exists_pixel hd hi0 hi hj0 hj
  have hnext : (j + 1) * w = j * w + w := by ring
  refine ⟨(s.rgb, s.yp), ?_, ?_, ?_⟩
  · unfold rgbRow
    simp only [hstart, hs, Option.bind_eq_bind, Option.bind_some]
    rfl
  · rw [hnext]
    exact hupto.rgb
  · rw [hnext]
    exact hupto.yp

/-- **The decoder reads in the buffer only, and answers the colour of every pixel.** -/
theorem decodeYUV420SPtoRGB_eq (hw : 2 ≤ w) (hh : 2 ≤ h) (hw2 : w % 2 = 0) (hh2 : h % 2 = 0)
    (hlt : 3 * w * h / 2 < 2 ^ 31) (hlength : 3 * w * h / 2 ≤ data.size) :
    ∃ rgb, decodeYUV420SPtoRGB data w h = some rgb ∧ (rgb.size : Int) = w * h ∧
      ∀ i j, 0 ≤ i → i < w → 0 ≤ j → j < h →
        read rgb (j * w + i) = some (colour data w h i j) := by
  have hd : Buffered data w h := ⟨hw, hh, hw2, hh2, hlt, hlength⟩
  obtain ⟨rgb, hnew, hfilled⟩ := exists_filled hd.area_nonneg 0 (colourAt data w h)
  obtain ⟨acc, hacc, hall, -⟩ : ∃ acc, forRange h (fun j acc => rgbRow data (w * h) w j acc)
      (rgb, 0) = some acc ∧ Filled acc.1 (w * h) (h * w) (colourAt data w h) ∧ acc.2 = h * w := by
    refine forRange_spec (fun j (acc : Array (BitVec 32) × Int) =>
      Filled acc.1 (w * h) (j * w) (colourAt data w h) ∧ acc.2 = j * w) (by omega)
      ⟨by rw [zero_mul]; exact hfilled, (zero_mul w).symm⟩ ?_
    rintro j ⟨rgb, yp⟩ hj0 hj ⟨hrgb, rfl⟩
    exact exists_rgbRow hd hj0 hj hrgb
  have hexact : int (w * h) = w * h := by
    have := hd.area_nonneg
    exact int_of_range (by omega) hd.area_bounds.1
  refine ⟨acc.1, ?_, hall.size, fun i j hi0 hi hj0 hj => ?_⟩
  · unfold decodeYUV420SPtoRGB
    simp only [hexact, hnew, hacc, Option.bind_eq_bind, Option.bind_some]
    rfl
  · have hnext : (j + 1) * w ≤ h * w := Int.mul_le_mul_of_nonneg_right (by omega) (by omega)
    have hrow : (j + 1) * w = j * w + w := by ring
    have hrow0 : 0 ≤ j * w := Int.mul_nonneg hj0 (by omega)
    rw [← colourAt_row hi0 hi]
    exact hall.get (j * w + i) (by omega) (by omega)

end

/-- Four pixels, the `v` and the `u` of their square. -/
def fourPixels : Array (BitVec 8) := #[16, 81, 145, 235, 240, 90]

theorem decodeYUV420SPtoRGB_eq_fourPixels :
    ∃ rgb, decodeYUV420SPtoRGB fourPixels 2 2 = some rgb ∧ (rgb.size : Int) = 2 * 2 ∧
      ∀ i j, 0 ≤ i → i < 2 → 0 ≤ j → j < 2 →
        read rgb (j * 2 + i) = some (colour fourPixels 2 2 i j) :=
  @decodeYUV420SPtoRGB_eq fourPixels 2 2 (by decide) (by decide) (by decide) (by decide)
    (by decide) (by decide)

end ImageProcessing

end PetDev.Detection
