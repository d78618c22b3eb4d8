import PetDev.Java.Loop
import Mathlib.Tactic.Linarith

/-!
# Comparing two pictures

`State` is a picture with its average, and `Comparer` compares two of them box by box.  A
picture of width `w` is cut into `10` boxes, or `w` if it is narrower, and one more for what
is left over; the other direction is alike, so one `Axis` serves both.

Reads outside an array and divisions by zero throw.  On a `Frame`, whose luma map has one
value for each pixel, nothing does: `exists_state` and `exists_verdict`.
-/

namespace PetDev.Detection

open Java

/-! ## Pictures -/

structure State where
  map : Array Int
  width : Int
  height : Int
  average : Int
  deriving DecidableEq

/-- One round of the inner loop: `average += data[xy]` and `xy++`. -/
def State.addPixel (data : Array Int) (acc : Int × Int) : Option (Int × Int) := do
  let v ← read data acc.2
  return (int (acc.1 + v), int (acc.2 + 1))

def State.addRow (data : Array Int) (width : Int) (acc : Int × Int) : Option (Int × Int) :=
  forRange width (fun _ acc => State.addPixel data acc) acc

/-- The constructor of `State`. -/
def State.new (data : Array Int) (width height : Int) : Option State := do
  let acc ← forRange height (fun _ acc => State.addRow data width acc) (0, 0)
  let average ← div acc.1 (int (width * height))
  return ⟨data, width, height, average⟩

/-- A picture with one luma value for each pixel. -/
structure Frame where
  luma : Array Int
  width : Int
  height : Int
  one_le_width : 1 ≤ width
  one_le_height : 1 ≤ height
  size_eq : (luma.size : Int) = width * height
  size_lt : luma.size < 2 ^ 31
  deriving DecidableEq

/-! ## Boxes -/

/-- The boxes in one direction: how many, how many pixels each has, and how many are left over
for the last one. -/
structure Axis where
  boxes : Int
  pixelsPerBox : Int
  leftOver : Int
  deriving DecidableEq, Repr

def Axis.new (size boxes : Int) : Option Axis := do
  let boxes := if boxes > size then size else boxes
  let pixelsPerBox ← div size boxes
  let pixelsPerBox := if pixelsPerBox ≤ 0 then 1 else pixelsPerBox
  let leftOver := int (size - int (boxes * pixelsPerBox))
  let boxes := if leftOver > 0 then int (boxes + 1) else boxes
  return ⟨boxes, pixelsPerBox, leftOver⟩

/-- `xPix` and `yPix`. -/
def Axis.pix (a : Axis) (box : Int) : Int :=
  if box = int (a.boxes - 1) ∧ a.leftOver > 0 then a.leftOver else a.pixelsPerBox

structure Comparer where
  x : Axis
  y : Axis
  rowWidthInPix : Int
  colWidthInPix : Int
  leniency : Int
  deriving DecidableEq, Repr

namespace Comparer

/-- The constructor of `Comparer`, up to the comparison. -/
def new (s1 : State) (xBoxes yBoxes leniency : Int) : Option Comparer := do
  let x ← Axis.new s1.width xBoxes
  let y ← Axis.new s1.height yBoxes
  let rowWidthInPix := int (int (x.boxes * x.pixelsPerBox) - int (x.pixelsPerBox - x.leftOver))
  return ⟨x, y, rowWidthInPix, x.pixelsPerBox, leniency⟩

/-- The index of the pixel `(x, y)` of the box `(xBox, yBox)` in the map. -/
def pixel (c : Comparer) (xBox yBox x y : Int) : Int :=
  let rowOffset := int (int (yBox * c.y.pixelsPerBox) * c.rowWidthInPix)
  let columnOffset := int (xBox * c.colWidthInPix)
  let iy := int (int (y * int (c.x.boxes * c.x.pixelsPerBox)) -
    int (y * int (c.x.pixelsPerBox - c.x.leftOver)))
  int (int (int (rowOffset + columnOffset) + iy) + x)

/-- `i += map[rowOffset + columnOffset + iy + x]`. -/
def addPixel (c : Comparer) (map : Array Int) (xBox yBox x y i : Int) : Option Int := do
  let v ← read map (c.pixel xBox yBox x y)
  return int (i + v)

def aggregateMapArea (c : Comparer) (map : Array Int) (xBox yBox : Int) : Option Int := do
  let yPix := c.y.pix yBox
  let xPix := c.x.pix xBox
  let i ← forRange yPix (fun y i =>
    forRange xPix (fun x i => c.addPixel map xBox yBox x y i) i) 0
  div i (int (xPix * yPix))

/-- `variance[y][x] = diff`. -/
def setVariance (variance : Array (Array Int)) (x y diff : Int) : Option (Array (Array Int)) := do
  let row ← read variance y
  let row ← write row x diff
  write variance y row

/-- The comparison of one box, with the `variance` and the flag `different`. -/
def compareBox (c : Comparer) (s1 s2 : State) (x y : Int) (acc : Array (Array Int) × Bool) :
    Option (Array (Array Int) × Bool) := do
  let b1 ← c.aggregateMapArea s1.map x y
  let b2 ← c.aggregateMapArea s2.map x y
  let diff := Java.abs (int (b1 - b2))
  let variance ← setVariance acc.1 x y diff
  return (variance, if diff > c.leniency then true else acc.2)

/-- `this.variance = new int[yBoxes][xBoxes]`. -/
def newVariance (c : Comparer) : Option (Array (Array Int)) := do
  let row ← newArray c.x.boxes 0
  newArray c.y.boxes row

def isDifferent (c : Comparer) (s1 s2 : State) : Option Bool :=
  if s1.width ≠ s2.width ∨ s1.height ≠ s2.height then some true
  else do
    let variance ← c.newVariance
    let r ← forRange c.y.boxes (fun y acc =>
      forRange c.x.boxes (fun x acc => c.compareBox s1 s2 x y acc) acc) (variance, false)
    return r.2

end Comparer

/-- `new Comparer(s1, s2, ..).isDifferent()`. -/
def different (s1 s2 : State) (xBoxes yBoxes leniency : Int) : Option Bool := do
  let c ← Comparer.new s1 xBoxes yBoxes leniency
  c.isDifferent s1 s2

/-! ## The comparison of all boxes -/

namespace Comparer

variable {c : Comparer} {s1 s2 : State}

/-- The `variance` has its `yBoxes` rows of `xBoxes` values. -/
def Shaped (c : Comparer) (variance : Array (Array Int)) : Prop :=
  (variance.size : Int) = c.y.boxes ∧
    ∀ (i : Nat) (row : Array Int), variance[i]? = some row → (row.size : Int) = c.x.boxes

theorem exists_newVariance (hx : 0 ≤ c.x.boxes) (hy : 0 ≤ c.y.boxes) :
    ∃ variance, c.newVariance = some variance ∧ c.Shaped variance := by
  refine ⟨Array.replicate c.y.boxes.toNat (Array.replicate c.x.boxes.toNat 0), ?_, ?_, ?_⟩
  · unfold newVariance
    rw [newArray_eq_some hx, Option.bind_eq_bind, Option.bind_some, newArray_eq_some hy]
  · rw [Array.size_replicate]
    exact Int.toNat_of_nonneg hy
  · intro i row hrow
    rw [Array.getElem?_replicate] at hrow
    split at hrow
    · obtain rfl := Option.some.inj hrow
      rw [Array.size_replicate]
      exact Int.toNat_of_nonneg hx
    · cases hrow

theorem Shaped.exists_setVariance {variance : Array (Array Int)} (h : c.Shaped variance)
    {x y : Int} (hx0 : 0 ≤ x) (hx : x < c.x.boxes) (hy0 : 0 ≤ y) (hy : y < c.y.boxes) (diff : Int) :
    ∃ variance', setVariance variance x y diff = some variance' ∧ c.Shaped variance' := by
  obtain ⟨hrows, hcols⟩ := h
  obtain ⟨row, hrow⟩ : ∃ row, read variance y = some row := read_eq_some hy0 (by omega)
  have hlength : (row.size : Int) = c.x.boxes := by
    unfold Java.read at hrow
    rw [if_pos hy0] at hrow
    exact hcols _ row hrow
  refine ⟨variance.setIfInBounds y.toNat (row.setIfInBounds x.toNat diff), ?_, ?_, ?_⟩
  · unfold setVariance
    simp only [hrow, write_eq_some hx0 (hx.trans_eq hlength.symm), Option.bind_eq_bind,
      Option.bind_some]
    exact write_eq_some hy0 (hy.trans_eq hrows.symm) _
  · rw [Array.size_setIfInBounds]
    exact hrows
  · intro i row' hrow'
    rw [Array.getElem?_setIfInBounds] at hrow'
    split at hrow'
    · split at hrow'
      · obtain rfl := Option.some.inj hrow'
        rw [Array.size_setIfInBounds]
        exact hlength
      · cases hrow'
    · exact hcols i row' hrow'

/-- What the two maps have in the box is more than the leniency apart. -/
def Apart (c : Comparer) (s1 s2 : State) (x y : Int) : Prop :=
  ∃ b1 b2, c.aggregateMapArea s1.map x y = some b1 ∧ c.aggregateMapArea s2.map x y = some b2 ∧
    Java.abs (int (b1 - b2)) > c.leniency

theorem apart_self {s : State} {x y : Int} : c.Apart s s x y ↔
    (∃ b, c.aggregateMapArea s.map x y = some b) ∧ c.leniency < 0 := by
  have hzero : ∀ b, Java.abs (int (b - b)) = 0 := by
    intro b
    rw [sub_self]
    decide
  constructor
  · rintro ⟨b, b', hb, hb', hlt⟩
    obtain rfl := Option.some.inj (hb.symm.trans hb')
    rw [hzero] at hlt
    exact ⟨⟨b, hb⟩, hlt⟩
  · rintro ⟨⟨b, hb⟩, hneg⟩
    exact ⟨b, b, hb, hb, by rw [hzero]; exact hneg⟩

/-- Comparing one box sets the flag if the box is apart. -/
theorem exists_compareBox {x y : Int} (hx0 : 0 ≤ x) (hx : x < c.x.boxes) (hy0 : 0 ≤ y)
    (hy : y < c.y.boxes) (h1 : ∃ b, c.aggregateMapArea s1.map x y = some b)
    (h2 : ∃ b, c.aggregateMapArea s2.map x y = some b) {acc : Array (Array Int) × Bool}
    (hacc : c.Shaped acc.1) : ∃ r, c.compareBox s1 s2 x y acc = some r ∧ c.Shaped r.1 ∧
      (r.2 = true ↔ acc.2 = true ∨ c.Apart s1 s2 x y) := by
  obtain ⟨b1, hb1⟩ := h1
  obtain ⟨b2, hb2⟩ := h2
  obtain ⟨variance, hset, hshaped⟩ :=
    hacc.exists_setVariance hx0 hx hy0 hy (Java.abs (int (b1 - b2)))
  refine ⟨(variance, if Java.abs (int (b1 - b2)) > c.leniency then true else acc.2), ?_,
    hshaped, ?_⟩
  · simp [compareBox, hb1, hb2, hset]
  · have hapart : c.Apart s1 s2 x y ↔ Java.abs (int (b1 - b2)) > c.leniency := by
      constructor
      · rintro ⟨b1', b2', hb1', hb2', hlt⟩
        obtain rfl := Option.some.inj (hb1.symm.trans hb1')
        obtain rfl := Option.some.inj (hb2.symm.trans hb2')
        exact hlt
      · exact fun hlt => ⟨b1, b2, hb1, hb2, hlt⟩
    rw [hapart]
    split
    · next hlt => exact iff_of_true rfl (Or.inr hlt)
    · next hle => exact (or_iff_left hle).symm

/-- **The comparison asks whether some box is apart.** -/
theorem isDifferent_iff_apart (hx : 0 ≤ c.x.boxes) (hy : 0 ≤ c.y.boxes)
    (hwidth : s1.width = s2.width) (hheight : s1.height = s2.height)
    (hboxes : ∀ x y, 0 ≤ x → x < c.x.boxes → 0 ≤ y → y < c.y.boxes →
      (∃ b, c.aggregateMapArea s1.map x y = some b) ∧
        ∃ b, c.aggregateMapArea s2.map x y = some b) :
    ∃ b, c.isDifferent s1 s2 = some b ∧ (b = true ↔
      ∃ x y, 0 ≤ x ∧ x < c.x.boxes ∧ 0 ≤ y ∧ y < c.y.boxes ∧ c.Apart s1 s2 x y) := by
  obtain ⟨variance, hnew, hshaped⟩ := exists_newVariance hx hy
  have hrow : ∀ y acc, 0 ≤ y → y < c.y.boxes → c.Shaped acc.1 →
      ∃ r, forRange c.x.boxes (fun x acc => c.compareBox s1 s2 x y acc) acc = some r ∧
        c.Shaped r.1 ∧ (r.2 = true ↔ acc.2 = true ∨
          ∃ x, 0 ≤ x ∧ x < c.x.boxes ∧ c.Apart s1 s2 x y) := by
    intro y acc hy0 hylt hacc
    refine forRange_flag c.Shaped (fun x => c.Apart s1 s2 x y) hx ?_ hacc
    intro x acc' hx0 hxlt hacc'
    obtain ⟨h1, h2⟩ := hboxes x y hx0 hxlt hy0 hylt
    exact exists_compareBox hx0 hxlt hy0 hylt h1 h2 hacc'
  obtain ⟨r, hr, -, hiff⟩ := forRange_flag c.Shaped
    (fun y => ∃ x, 0 ≤ x ∧ x < c.x.boxes ∧ c.Apart s1 s2 x y) hy hrow
    (show c.Shaped (variance, false).1 from hshaped)
  refine ⟨r.2, ?_, ?_⟩
  · unfold isDifferent
    rw [if_neg (by omega), hnew, Option.bind_eq_bind, Option.bind_some, hr]
    rfl
  · rw [hiff]
    constructor
    · rintro (hfalse | ⟨y, hy0, hylt, x, hx0, hxlt, hapart⟩)
      · cases hfalse
      · exact ⟨x, y, hx0, hxlt, hy0, hylt, hapart⟩
    · rintro ⟨x, y, hx0, hxlt, hy0, hylt, hapart⟩
      exact Or.inr ⟨y, hy0, hylt, x, hx0, hxlt, hapart⟩

end Comparer

/-! ## States of frames -/

namespace Frame

theorem width_le (f : Frame) : f.width ≤ f.width * f.height :=
  le_mul_of_one_le_right (zero_le_one.trans f.one_le_width) f.one_le_height

theorem height_le (f : Frame) : f.height ≤ f.width * f.height :=
  le_mul_of_one_le_left (zero_le_one.trans f.one_le_height) f.one_le_width

theorem area_lt (f : Frame) : f.width * f.height < 2 ^ 31 := by
  have := f.size_eq
  have := f.size_lt
  omega

theorem area_pos (f : Frame) : 1 ≤ f.width * f.height := f.one_le_width.trans f.width_le

end Frame

/-- A position in a row-major picture. -/
theorem row_major_lt {w h x y : Int} (hw : 0 ≤ w) (hx : x < w) (hy : y < h) :
    y * w + x < w * h := by
  have : y * w ≤ (h - 1) * w := Int.mul_le_mul_of_nonneg_right (by omega) hw
  have : (h - 1) * w = w * h - w := by ring
  omega

/-- A row of a frame is read from its first pixel to its last. -/
theorem exists_addRow (f : Frame) {y : Int} {acc : Int × Int} (hy0 : 0 ≤ y) (hy : y < f.height)
    (hacc : acc.2 = y * f.width) :
    ∃ t, State.addRow f.luma f.width acc = some t ∧ t.2 = (y + 1) * f.width := by
  have hw := f.one_le_width
  have h0 : 0 ≤ y * f.width := Int.mul_nonneg hy0 (by omega)
  have hsize := f.size_eq
  have harea := f.area_lt
  have hloop : ∃ t, State.addRow f.luma f.width acc = some t ∧ t.2 = y * f.width + f.width := by
    refine forRange_spec (fun x (t : Int × Int) => t.2 = y * f.width + x) (by omega) (by omega) ?_
    intro x t hx0 hx htx
    have hlt := row_major_lt (by omega) hx hy
    obtain ⟨v, hv⟩ : ∃ v, read f.luma t.2 = some v := read_eq_some (by omega) (by omega)
    refine ⟨(int (t.1 + v), int (t.2 + 1)), by simp [State.addPixel, hv], ?_⟩
    show int (t.2 + 1) = _
    rw [int_of_range (by omega) (by omega), htx, add_assoc]
  obtain ⟨t, ht, htt⟩ := hloop
  exact ⟨t, ht, by rw [htt]; ring⟩

/-- The state of a frame exists, and holds the frame. -/
theorem exists_state (f : Frame) : ∃ s, State.new f.luma f.width f.height = some s ∧
    s.map = f.luma ∧ s.width = f.width ∧ s.height = f.height := by
  have hh := f.one_le_height
  have hloop : ∃ t, forRange f.height (fun _ acc => State.addRow f.luma f.width acc) (0, 0) =
      some t ∧ t.2 = f.height * f.width := by
    refine forRange_spec (fun y (t : Int × Int) => t.2 = y * f.width) (by omega)
      (zero_mul _).symm ?_
    intro y acc hy0 hy hacc
    exact exists_addRow f hy0 hy hacc
  obtain ⟨t, ht, -⟩ := hloop
  have hdiv : int (f.width * f.height) ≠ 0 := by
    have := f.area_pos
    have := f.area_lt
    rw [int_of_range (by omega) (by omega)]
    omega
  refine ⟨⟨f.luma, f.width, f.height, int (t.1.tdiv (int (f.width * f.height)))⟩, ?_, rfl, rfl, rfl⟩
  unfold State.new
  rw [ht]
  simp [div_eq_some hdiv]

/-! ## The boxes cover the picture -/

/-- What the boxes of one direction are: they and the left-over pixels make up the whole size. -/
structure Axis.Fits (a : Axis) (size : Int) : Prop where
  one_le_pixels : 1 ≤ a.pixelsPerBox
  leftOver_nonneg : 0 ≤ a.leftOver
  boxes_pos : 1 ≤ a.boxes
  boxes_lt : a.boxes < 2 ^ 31
  cover : (a.leftOver = 0 ∧ a.boxes * a.pixelsPerBox = size) ∨
    (0 < a.leftOver ∧ (a.boxes - 1) * a.pixelsPerBox + a.leftOver = size)

/-- `min boxes size` boxes, and one more when that does not divide the size. -/
theorem Axis.new_eq {size boxes : Int} (hs : 1 ≤ size) (hs' : size < 2 ^ 31) (hb : 1 ≤ boxes) :
    Axis.new size boxes = some
      ⟨if size % min boxes size > 0 then min boxes size + 1 else min boxes size,
        size / min boxes size, size % min boxes size⟩ := by
  have hmin : (if boxes > size then size else boxes) = min boxes size := by
    split <;> omega
  -- `n` boxes of `p` pixels, as many as fit
  obtain ⟨n, hn⟩ : ∃ n, min boxes size = n := ⟨_, rfl⟩
  rw [hn] at hmin ⊢
  have hn1 : 1 ≤ n := by omega
  have hns : n ≤ size := by omega
  obtain ⟨p, hp⟩ : ∃ p, size / n = p := ⟨_, rfl⟩
  have hp1 : 1 ≤ p := by
    rw [← hp]
    exact (Int.le_ediv_iff_mul_le (by omega)).mpr (by omega)
  have hdiv := Int.mul_ediv_add_emod size n
  have hmod := Int.emod_nonneg size (show n ≠ 0 by omega)
  have hmod' := Int.emod_lt_of_pos size (show 0 < n by omega)
  rw [hp] at hdiv
  have hps : p ≤ size := by
    have : 1 * p ≤ n * p := Int.mul_le_mul_of_nonneg_right hn1 (by omega)
    omega
  have htdiv : int (size.tdiv n) = p := by
    rw [Int.tdiv_eq_ediv_of_nonneg (by omega), hp, int_of_range (by omega) (by omega)]
  have hnp : int (n * p) = n * p := int_of_range (by omega) (by omega)
  have hleft : int (size - n * p) = size % n := by
    rw [int_of_range (by omega) (by omega)]
    omega
  have hboxes : (if size % n > 0 then int (n + 1) else n) =
      if size % n > 0 then n + 1 else n := by
    split
    · next hleft =>
      have hne : n ≠ size := by
        rintro rfl
        rw [Int.emod_self] at hleft
        exact lt_irrefl 0 hleft
      exact int_of_range (by omega) (by omega)
    · rfl
  unfold Axis.new
  simp only [hmin, div_eq_some (show n ≠ 0 by omega), htdiv, Option.bind_eq_bind,
    Option.bind_some, if_neg (show ¬ p ≤ 0 by omega), hnp, hleft, hboxes, hp]
  rfl

theorem exists_axis {size boxes : Int} (hs : 1 ≤ size) (hs' : size < 2 ^ 31) (hb : 1 ≤ boxes) :
    ∃ a, Axis.new size boxes = some a ∧ a.Fits size := by
  refine ⟨_, Axis.new_eq hs hs' hb, ?_⟩
  obtain ⟨n, hn⟩ : ∃ n, min boxes size = n := ⟨_, rfl⟩
  rw [hn]
  have hn1 : 1 ≤ n := by omega
  have hns : n ≤ size := by omega
  have hp1 : 1 ≤ size / n := (Int.le_ediv_iff_mul_le (by omega)).mpr (by omega)
  have hdiv := Int.mul_ediv_add_emod size n
  have hmod := Int.emod_nonneg size (show n ≠ 0 by omega)
  by_cases hleft : size % n > 0
  · have hne : n ≠ size := by
      intro he
      rw [he, Int.emod_self] at hleft
      exact lt_irrefl 0 hleft
    rw [if_pos hleft]
    refine ⟨hp1, hmod, by change 1 ≤ n + 1; omega, by change n + 1 < 2 ^ 31; omega,
      Or.inr ⟨hleft, ?_⟩⟩
    show (n + 1 - 1) * (size / n) + size % n = size
    rw [add_sub_cancel_right]
    exact hdiv
  · rw [if_neg hleft]
    refine ⟨hp1, hmod, hn1, by change n < 2 ^ 31; omega, Or.inl ⟨by change size % n = 0; omega, ?_⟩⟩
    show n * (size / n) = size
    omega

/-- Every box has pixels, and they lie in the picture. -/
theorem Axis.Fits.pix_bounds {a : Axis} {size : Int} (h : a.Fits size) {box : Int}
    (h0 : 0 ≤ box) (hbox : box < a.boxes) :
    1 ≤ a.pix box ∧ 0 ≤ box * a.pixelsPerBox ∧ box * a.pixelsPerBox + a.pix box ≤ size := by
  have hp := h.one_le_pixels
  have hlast : int (a.boxes - 1) = a.boxes - 1 := by
    have := h.boxes_pos
    have := h.boxes_lt
    exact int_of_range (by omega) (by omega)
  have hnonneg : 0 ≤ box * a.pixelsPerBox := Int.mul_nonneg h0 (by omega)
  have hnext : (box + 1) * a.pixelsPerBox = box * a.pixelsPerBox + a.pixelsPerBox := by ring
  unfold Axis.pix
  rw [hlast]
  split
  · next hcase =>
    obtain ⟨rfl, hleft⟩ := hcase
    rcases h.cover with ⟨hzero, -⟩ | ⟨-, hcover⟩
    · omega
    · exact ⟨hleft, hnonneg, hcover.le⟩
  · next hcase =>
    refine ⟨hp, hnonneg, ?_⟩
    rw [← hnext]
    rcases h.cover with ⟨-, hcover⟩ | ⟨hleft, hcover⟩
    · have : (box + 1) * a.pixelsPerBox ≤ a.boxes * a.pixelsPerBox :=
        Int.mul_le_mul_of_nonneg_right (by omega) (by omega)
      omega
    · have hne : box ≠ a.boxes - 1 := fun he => hcase ⟨he, hleft⟩
      have : (box + 1) * a.pixelsPerBox ≤ (a.boxes - 1) * a.pixelsPerBox :=
        Int.mul_le_mul_of_nonneg_right (by omega) (by omega)
      omega

/-- `rowWidthInPix` is not more than the size. -/
theorem Axis.Fits.row_bounds {a : Axis} {size : Int} (h : a.Fits size) :
    0 ≤ (a.boxes - 1) * a.pixelsPerBox + a.leftOver ∧
      (a.boxes - 1) * a.pixelsPerBox + a.leftOver ≤ size := by
  have hp := h.one_le_pixels
  have hb := h.boxes_pos
  have hl := h.leftOver_nonneg
  have h0 : 0 ≤ (a.boxes - 1) * a.pixelsPerBox := Int.mul_nonneg (by omega) (by omega)
  have hsplit : a.boxes * a.pixelsPerBox =
      (a.boxes - 1) * a.pixelsPerBox + a.pixelsPerBox := by ring
  rcases h.cover with ⟨hzero, hcover⟩ | ⟨-, hcover⟩
  · omega
  · omega

/-- The comparer of a picture of width `w` and height `h`. -/
structure Comparer.Sized (c : Comparer) (w h : Int) : Prop where
  x : c.x.Fits w
  y : c.y.Fits h
  row : c.rowWidthInPix = (c.x.boxes - 1) * c.x.pixelsPerBox + c.x.leftOver
  col : c.colWidthInPix = c.x.pixelsPerBox

theorem exists_sized {s : State} (hw : 1 ≤ s.width) (hw' : s.width < 2 ^ 31) (hh : 1 ≤ s.height)
    (hh' : s.height < 2 ^ 31) {xBoxes yBoxes : Int} (hx : 1 ≤ xBoxes) (hy : 1 ≤ yBoxes)
    (leniency : Int) : ∃ c, Comparer.new s xBoxes yBoxes leniency = some c ∧
      c.Sized s.width s.height ∧ Axis.new s.width xBoxes = some c.x ∧ c.leniency = leniency := by
  obtain ⟨x, hxnew, hxfits⟩ := exists_axis hw hw' hx
  obtain ⟨y, hynew, hyfits⟩ := exists_axis hh hh' hy
  refine ⟨⟨x, y, (x.boxes - 1) * x.pixelsPerBox + x.leftOver, x.pixelsPerBox, leniency⟩, ?_,
    ⟨hxfits, hyfits, rfl, rfl⟩, hxnew, rfl⟩
  have hrow : int (int (x.boxes * x.pixelsPerBox) - int (x.pixelsPerBox - x.leftOver)) =
      (x.boxes - 1) * x.pixelsPerBox + x.leftOver := by
    obtain ⟨h0, hle⟩ := hxfits.row_bounds
    rw [int_int_sub, int_sub_int, show x.boxes * x.pixelsPerBox - (x.pixelsPerBox - x.leftOver) =
      (x.boxes - 1) * x.pixelsPerBox + x.leftOver by ring]
    exact int_of_range (by omega) (by omega)
  unfold Comparer.new
  rw [hxnew, hynew]
  simp only [Option.bind_eq_bind, Option.bind_some, hrow]
  rfl

/-- The place of the pixel in a picture whose rows are `rowWidthInPix` long. -/
theorem Comparer.Sized.pixel_eq {c : Comparer} {w h : Int} (hc : c.Sized w h) (hw : 1 ≤ w)
    (harea : w * h ≤ 2 ^ 31) {xBox yBox x y : Int} (hX0 : 0 ≤ xBox) (hX : xBox < c.x.boxes)
    (hY0 : 0 ≤ yBox) (hY : yBox < c.y.boxes) (hx0 : 0 ≤ x) (hx : x < c.x.pix xBox)
    (hy0 : 0 ≤ y) (hy : y < c.y.pix yBox) :
    c.pixel xBox yBox x y =
      (yBox * c.y.pixelsPerBox + y) * c.rowWidthInPix + (xBox * c.x.pixelsPerBox + x) ∧
    0 ≤ c.pixel xBox yBox x y ∧ c.pixel xBox yBox x y < w * h := by
  obtain ⟨-, hcol0, hcol⟩ := hc.x.pix_bounds hX0 hX
  obtain ⟨-, hrow0, hrow⟩ := hc.y.pix_bounds hY0 hY
  obtain ⟨hr0, hr⟩ := hc.x.row_bounds
  rw [← hc.row] at hr0 hr
  have hexact : c.pixel xBox yBox x y =
      int ((yBox * c.y.pixelsPerBox + y) * c.rowWidthInPix + (xBox * c.x.pixelsPerBox + x)) := by
    unfold Comparer.pixel
    simp only [int_int_add, int_add_int, int_int_sub, int_sub_int, int_int_mul, int_mul_int]
    rw [hc.row, hc.col]
    congr 1
    ring
  have h0 : 0 ≤ (yBox * c.y.pixelsPerBox + y) * c.rowWidthInPix :=
    Int.mul_nonneg (by omega) hr0
  have hle : (yBox * c.y.pixelsPerBox + y) * c.rowWidthInPix ≤
      (yBox * c.y.pixelsPerBox + y) * w := Int.mul_le_mul_of_nonneg_left hr (by omega)
  have hlt : (yBox * c.y.pixelsPerBox + y) * w + (xBox * c.x.pixelsPerBox + x) < w * h :=
    row_major_lt (by omega) (by omega) (by omega)
  rw [int_of_range (by omega) (by omega)] at hexact
  refine ⟨hexact, ?_, ?_⟩
  · rw [hexact]
    omega
  · rw [hexact]
    omega

/-- The comparer of a picture of the size of `f`. -/
structure Comparer.Fits (c : Comparer) (f : Frame) : Prop where
  x : c.x.Fits f.width
  y : c.y.Fits f.height
  row : c.rowWidthInPix = (c.x.boxes - 1) * c.x.pixelsPerBox + c.x.leftOver
  col : c.colWidthInPix = c.x.pixelsPerBox

theorem exists_comparer {s : State} {f : Frame} (hw : s.width = f.width)
    (hh : s.height = f.height) {xBoxes yBoxes : Int} (hx : 1 ≤ xBoxes) (hy : 1 ≤ yBoxes)
    (leniency : Int) : ∃ c, Comparer.new s xBoxes yBoxes leniency = some c ∧ c.Fits f ∧
      c.leniency = leniency := by
  have harea := f.area_lt
  have hwlt := f.width_le
  have hhlt := f.height_le
  have hw1 := f.one_le_width
  have hh1 := f.one_le_height
  obtain ⟨c, hnew, hsized, -, hleniency⟩ := exists_sized (s := s) (by omega) (by omega) (by omega)
    (by omega) hx hy leniency
  rw [hw, hh] at hsized
  exact ⟨c, hnew, ⟨hsized.x, hsized.y, hsized.row, hsized.col⟩, hleniency⟩

/-- **Every pixel a box reads is in the map.** -/
theorem Comparer.Fits.pixel_bounds {c : Comparer} {f : Frame} (h : c.Fits f)
    {xBox yBox x y : Int} (hX0 : 0 ≤ xBox) (hX : xBox < c.x.boxes) (hY0 : 0 ≤ yBox)
    (hY : yBox < c.y.boxes) (hx0 : 0 ≤ x) (hx : x < c.x.pix xBox) (hy0 : 0 ≤ y)
    (hy : y < c.y.pix yBox) :
    c.pixel xBox yBox x y =
      (yBox * c.y.pixelsPerBox + y) * c.rowWidthInPix + (xBox * c.x.pixelsPerBox + x) ∧
    0 ≤ c.pixel xBox yBox x y ∧ c.pixel xBox yBox x y < f.width * f.height := by
  have hsized : c.Sized f.width f.height := ⟨h.x, h.y, h.row, h.col⟩
  exact hsized.pixel_eq f.one_le_width f.area_lt.le hX0 hX hY0 hY hx0 hx hy0 hy

/-! ## The verdict on two frames -/

theorem Comparer.Fits.exists_aggregateMapArea {c : Comparer} {f : Frame} (h : c.Fits f)
    {map : Array Int} (hmap : (map.size : Int) = f.width * f.height) {xBox yBox : Int}
    (hX0 : 0 ≤ xBox) (hX : xBox < c.x.boxes) (hY0 : 0 ≤ yBox) (hY : yBox < c.y.boxes) :
    ∃ b, c.aggregateMapArea map xBox yBox = some b := by
  obtain ⟨hxPix, hcol0, hcol⟩ := h.x.pix_bounds hX0 hX
  obtain ⟨hyPix, hrow0, hrow⟩ := h.y.pix_bounds hY0 hY
  have hloop : ∃ i, forRange (c.y.pix yBox) (fun y i =>
      forRange (c.x.pix xBox) (fun x i => c.addPixel map xBox yBox x y i) i) 0 = some i ∧ True := by
    refine forRange_spec (fun _ _ => True) (by omega) trivial fun y i hy0 hy _ => ?_
    refine forRange_spec (fun _ _ => True) (by omega) trivial fun x i hx0 hx _ => ?_
    obtain ⟨-, hlow, hhigh⟩ := h.pixel_bounds hX0 hX hY0 hY hx0 hx hy0 hy
    obtain ⟨v, hv⟩ := read_eq_some hlow (hhigh.trans_eq hmap.symm)
    exact ⟨int (i + v), by simp [Comparer.addPixel, hv], trivial⟩
  obtain ⟨i, hi, -⟩ := hloop
  -- the box has at least one pixel, and no more than the picture
  have hdiv : int (c.x.pix xBox * c.y.pix yBox) ≠ 0 := by
    have harea := f.area_lt
    have hpos : 1 * 1 ≤ c.x.pix xBox * c.y.pix yBox :=
      Int.mul_le_mul hxPix hyPix (by omega) (by omega)
    have hle : c.x.pix xBox * c.y.pix yBox ≤ f.width * f.height :=
      Int.mul_le_mul (by omega) (by omega) (by omega) (by omega)
    rw [int_of_range (by omega) (by omega)]
    omega
  simp only [Comparer.aggregateMapArea, hi, Option.bind_eq_bind, Option.bind_some]
  exact ⟨_, div_eq_some hdiv⟩

/-- The comparison does not throw, and finds equal maps different only for a negative leniency. -/
theorem Comparer.Fits.exists_isDifferent {c : Comparer} {f : Frame} (h : c.Fits f) {s1 s2 : State}
    (h1 : (s1.map.size : Int) = f.width * f.height)
    (h2 : s1.width = s2.width → s1.height = s2.height →
      (s2.map.size : Int) = f.width * f.height) :
    ∃ b, c.isDifferent s1 s2 = some b ∧ (s1 = s2 → (b = true ↔ c.leniency < 0)) := by
  by_cases hsize : s1.width ≠ s2.width ∨ s1.height ≠ s2.height
  · refine ⟨true, if_pos hsize, ?_⟩
    rintro rfl
    rcases hsize with hne | hne <;> exact absurd rfl hne
  · obtain ⟨hw, hh⟩ := not_or.mp hsize
    have hmap2 := h2 (not_not.mp hw) (not_not.mp hh)
    have hx1 := h.x.boxes_pos
    have hy1 := h.y.boxes_pos
    obtain ⟨b, hb, hiff⟩ := Comparer.isDifferent_iff_apart (by omega) (by omega) (not_not.mp hw)
      (not_not.mp hh) fun x y hx0 hx hy0 hy =>
        ⟨h.exists_aggregateMapArea h1 hx0 hx hy0 hy, h.exists_aggregateMapArea hmap2 hx0 hx hy0 hy⟩
    refine ⟨b, hb, ?_⟩
    rintro rfl
    rw [hiff]
    constructor
    · rintro ⟨x, y, -, -, -, -, hapart⟩
      exact Comparer.apart_self.mp hapart |>.2
    · intro hneg
      refine ⟨0, 0, le_rfl, by omega, le_rfl, by omega, Comparer.apart_self.mpr ⟨?_, hneg⟩⟩
      exact h.exists_aggregateMapArea h1 le_rfl (by omega) le_rfl (by omega)

/-- The verdict of `Comparer` between a frame and an earlier one, with ten boxes each way. -/
def verdict (leniency : Int) (f g : Frame) : Option Bool := do
  let state ← State.new f.luma f.width f.height
  let previous ← State.new g.luma g.width g.height
  different state previous 10 10 leniency

theorem exists_verdict (leniency : Int) (f g : Frame) : ∃ b, verdict leniency f g = some b ∧
    (f = g → (b = true ↔ leniency < 0)) := by
  obtain ⟨s, hs, hmap, hw, hh⟩ := exists_state f
  obtain ⟨p, hp, hpmap, hpw, hph⟩ := exists_state g
  obtain ⟨c, hc, hfits, hleniency⟩ :=
    exists_comparer hw hh (show 1 ≤ (10 : Int) by decide) (show 1 ≤ (10 : Int) by decide) leniency
  obtain ⟨b, hb, hself⟩ : ∃ b, c.isDifferent s p = some b ∧
      (s = p → (b = true ↔ c.leniency < 0)) := by
    refine hfits.exists_isDifferent (by rw [hmap]; exact f.size_eq) fun hw' hh' => ?_
    rw [hpmap, g.size_eq, ← hpw, ← hph, ← hw', ← hh', hw, hh]
  refine ⟨b, ?_, ?_⟩
  · unfold verdict different
    simp [hs, hp, hc, hb]
  · rintro rfl
    obtain rfl := Option.some.inj (hs.symm.trans hp)
    rw [hleniency] at hself
    exact hself rfl

end PetDev.Detection
