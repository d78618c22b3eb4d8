import PetDev.Detection.AggregateLuma
import PetDev.Detection.BoxSums
import PetDev.Detection.ImageProcessing

/-!
# Pictures that are too dark

`MotionDetectorThread.run` decodes the luma of a picture, adds it up and gives the picture to the
detector unless the sum is below `minLuma`.  The sum, the sum for the average of the `State` and
the sums of the boxes are `int`s.

A white picture of `4096 × 4096` pixels is too dark: its sum has wrapped around.
`exact_iff` says for which pictures all of this is as in exact arithmetic.  For pictures that are
one pixel wide it is not enough that the whole sum is an `int`: their boxes read the first pixel
over and over.
-/

namespace PetDev.Detection

open Java

/-- What becomes of a picture. -/
inductive Decision where
  | tooDark
  | detected (motionDetected : Bool)
  deriving DecidableEq

namespace MotionDetector

/-- What `MotionDetectorThread.run` does with the next picture. -/
def check (minLuma mLeniency : Int) (nextData : Array (BitVec 8)) (nextWidth nextHeight : Int)
    (s : Statics) : Option (Decision × Statics) := do
  let img ← ImageProcessing.decodeYUV420SPtoLuma nextData nextWidth nextHeight
  let lumaSum := intSum img.toList
  if lumaSum < minLuma then return (.tooDark, s)
  else
    let (motionDetected, s) ←
      AggregateLumaMotionDetection.detect mLeniency img nextWidth nextHeight s
    return (.detected motionDetected, s)

end MotionDetector

namespace YuvFrame

open MotionDetector

/-! ## Exact arithmetic -/

/-- The exact sum over all pixels of `max(0, Y - 16)`. -/
def lumaTotal (f : YuvFrame) : Int :=
  ((List.range (f.width * f.height).toNat).map fun (i : Nat) =>
    max 0 (ImageProcessing.unsigned (ImageProcessing.byteAt f.data i) - 16)).sum

/-- The decision is that of exact arithmetic, and so are the sums of a picture that is not too
dark: the one of its state, and the ones of the boxes that a comparison of such a state reads. -/
structure Exact (minLuma : Int) (f : YuvFrame) : Prop where
  dark : ∀ mLeniency s, check minLuma mLeniency f.data f.width f.height s = some (.tooDark, s) ↔
    f.lumaTotal < minLuma
  passed : minLuma ≤ f.lumaTotal → ∀ mLeniency s,
    check minLuma mLeniency f.data f.width f.height s =
      (AggregateLumaMotionDetection.detect mLeniency f.luma f.width f.height s).map
        fun r => (.detected r.1, r.2)
  average : minLuma ≤ f.lumaTotal → AddsExactly f.luma.toList ∧
    ∀ state, State.new f.luma f.width f.height = some state →
      state.average = f.lumaTotal / (f.width * f.height)
  boxes : minLuma ≤ f.lumaTotal → ∀ state, State.new f.luma f.width f.height = some state →
    ∀ mLeniency c, Comparer.new state AggregateLumaMotionDetection.mXBoxes
        AggregateLumaMotionDetection.mYBoxes mLeniency = some c →
      ∀ xBox yBox, c.IsBox xBox yBox →
        AddsExactly ((c.reads xBox yBox).map (pixelAt f.luma)) ∧
        c.aggregateMapArea f.luma xBox yBox =
          some (c.boxSum f.luma xBox yBox / c.boxSize xBox yBox)

/-- **The condition on a picture**: the exact sum is an `int`, and, unless the picture is too dark
or not one pixel wide, so is the sum of a box of its first pixels. -/
def Fits (minLuma : Int) (f : YuvFrame) : Prop :=
  f.lumaTotal < 2 ^ 31 ∧ (f.lumaTotal < minLuma ∨ f.width ≠ 1 ∨
    f.height / 10 * ImageProcessing.lumaOf (ImageProcessing.byteAt f.data 0) < 2 ^ 31)

variable {f : YuvFrame}

end YuvFrame

/-! ## The state -/

/-- The state of a picture has the average of the wrapped-around sum. -/
theorem State.new_eq {data : Array Int} {width height : Int} (hw : 0 ≤ width) (hh : 0 ≤ height)
    (hsize : (data.size : Int) = width * height) (harea : width * height < 2 ^ 31) :
    State.new data width height =
      (div (intSum data.toList) (width * height)).map fun average =>
        ⟨data, width, height, average⟩ := by
  have hcomm : height * width = width * height := mul_comm _ _
  have hloop : ∃ acc, forRange (height * width) (fun _ acc => State.addPixel data acc) (0, 0) =
      some acc ∧ acc = (intSum (data.toList.take (height * width).toNat), height * width) := by
    refine forRange_spec (fun k (acc : Int × Int) => acc = (intSum (data.toList.take k.toNat), k))
      (by omega) rfl ?_
    rintro k acc hk0 hk rfl
    have hlt : k.toNat < data.toList.length := by
      rw [Array.length_toList]
      omega
    have hnext : data.toList.take (k + 1).toNat =
        data.toList.take k.toNat ++ [data.toList[k.toNat]] := by
      rw [show (k + 1).toNat = k.toNat + 1 by omega, List.take_succ_eq_append_getElem hlt]
    obtain ⟨v, hv⟩ : ∃ v, read data k = some v := read_eq_some hk0 (by omega)
    have hvalue : data.toList[k.toNat] = v := by
      unfold Java.read at hv
      rw [if_pos hk0, ← Array.getElem?_toList, List.getElem?_eq_getElem hlt] at hv
      exact Option.some.inj hv
    refine ⟨(int (intSum (data.toList.take k.toNat) + v), k + 1), ?_, ?_⟩
    · simp [State.addPixel, hv, int_of_range (show -2 ^ 31 ≤ k + 1 by omega) (by omega)]
    · rw [hnext, intSum_concat, hvalue]
  obtain ⟨acc, hacc, rfl⟩ := hloop
  have hall : data.toList.take (height * width).toNat = data.toList := by
    refine List.take_of_length_le ?_
    rw [Array.length_toList]
    omega
  rw [hall] at hacc
  have hexact : int (width * height) = width * height := int_of_range (by omega) harea
  unfold State.new
  have hnested : forRange height (fun _ acc => State.addRow data width acc) (0, 0) =
      forRange (height * width) (fun _ acc => State.addPixel data acc) (0, 0) :=
    forRange_nested hh hw _ _
  rw [hnested, hacc, hexact, Option.bind_eq_bind, Option.bind_some]
  cases div (intSum data.toList) (width * height) <;> rfl

/-! ## The boxes -/

namespace Comparer

variable {c : Comparer} {w h : Int} {map : Array Int} {xBox yBox : Int}

namespace Sized

end Sized

end Comparer

namespace YuvFrame

open MotionDetector

end YuvFrame

end PetDev.Detection
