import PetDev.Java.Loop
import Mathlib.Data.List.Range

/-!
# Decoding the pictures of the camera

A YUV420SP picture has a byte of luma for each pixel, row by row, and then for each square of
two by two pixels a `v` and a `u`.  `decodeYUV420SPtoLuma` takes the luma only.
-/

namespace PetDev.Detection

open Java

/-- A picture of the camera: the buffer is long enough for the luma. -/
structure YuvFrame where
  data : Array (BitVec 8)
  width : Int
  height : Int
  width_nonneg : 0 ≤ width
  height_nonneg : 0 ≤ height
  area_lt : width * height < 2 ^ 31
  area_le : width * height ≤ data.size

namespace ImageProcessing

/-- `0xff & b`. -/
def unsigned (b : BitVec 8) : Int := b.toNat

/-- `int y = (0xff & b) - 16; if (y < 0) y = 0;`. -/
def lumaOf (b : BitVec 8) : Int :=
  let y := int (unsigned b - 16)
  if y < 0 then 0 else y

/-- One round of the inner loop, with `hsl` and `yp`. -/
def lumaPixel (yuv420sp : Array (BitVec 8)) (acc : Array Int × Int) :
    Option (Array Int × Int) := do
  let b ← read yuv420sp acc.2
  let hsl ← write acc.1 acc.2 (lumaOf b)
  return (hsl, int (acc.2 + 1))

def decodeYUV420SPtoLuma (yuv420sp : Array (BitVec 8)) (width height : Int) :
    Option (Array Int) := do
  let frameSize := int (width * height)
  let hsl ← newArray frameSize 0
  let acc ← forRange height (fun _ acc =>
    forRange width (fun _ acc => lumaPixel yuv420sp acc) acc) (hsl, 0)
  return acc.1

/-- The byte at a place, `0` outside the buffer. -/
def byteAt (data : Array (BitVec 8)) (i : Int) : BitVec 8 := (read data i).getD 0

theorem read_eq_byteAt {data : Array (BitVec 8)} {i : Int} (h0 : 0 ≤ i) (hi : i < data.size) :
    read data i = some (byteAt data i) := by
  obtain ⟨b, hb⟩ := read_eq_some h0 hi
  rw [byteAt, hb]
  rfl

theorem unsigned_bounds (b : BitVec 8) : 0 ≤ unsigned b ∧ unsigned b < 256 := by
  have := b.isLt
  unfold unsigned
  omega

theorem lumaOf_eq (b : BitVec 8) : lumaOf b = max 0 (unsigned b - 16) := by
  obtain ⟨h0, hlt⟩ := unsigned_bounds b
  have hexact : int (unsigned b - 16) = unsigned b - 16 := int_of_range (by omega) (by omega)
  change (if int (unsigned b - 16) < 0 then 0 else int (unsigned b - 16)) = _
  rw [hexact]
  split <;> omega

end ImageProcessing

namespace YuvFrame

open ImageProcessing

/-- The luma of the pixels, row by row. -/
def luma (f : YuvFrame) : Array Int :=
  ((List.range (f.width * f.height).toNat).map fun (i : Nat) => lumaOf (byteAt f.data i)).toArray

theorem area_nonneg (f : YuvFrame) : 0 ≤ f.width * f.height :=
  Int.mul_nonneg f.width_nonneg f.height_nonneg

end YuvFrame

end PetDev.Detection
