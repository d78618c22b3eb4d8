import PetDev.Detection.Comparer
import Mathlib.Data.List.Nodup

/-!
# Which pixels the boxes compare

`Comparer.reads` lists the indices that one call of `aggregateMapArea` reads, and
`Comparer.Partitions` says what they should be: every box reads its own rectangle of the
row-major picture, and the boxes together read every pixel once.

The rows the comparer counts with are `rowWidthInPix` long.  That is the width only where some
pixels are left over: without any, the constructor takes one whole box off.  So the boxes are
right exactly for pictures of one row and for box counts that do not divide the width, as long
as the places fit an `int` (`partitions_iff`).
-/

namespace PetDev.Detection

open Java

/-! ## One direction -/

/-- Where a box ends: at the next one, or at the end of the picture. -/
def Axis.stop (a : Axis) (size box : Int) : Int :=
  if box = a.boxes - 1 then size else (box + 1) * a.pixelsPerBox

namespace Axis.Fits

variable {a : Axis} {size : Int}

theorem stop_eq (h : a.Fits size) (box : Int) :
    box * a.pixelsPerBox + a.pix box = a.stop size box := by
  have hlast : int (a.boxes - 1) = a.boxes - 1 := by
    have := h.boxes_pos
    have := h.boxes_lt
    exact int_of_range (by omega) (by omega)
  have hnext : (box + 1) * a.pixelsPerBox = box * a.pixelsPerBox + a.pixelsPerBox := by ring
  unfold Axis.pix Axis.stop
  rw [hlast]
  by_cases hbox' : box = a.boxes - 1
  · rw [if_pos hbox']
    rcases h.cover with ⟨hzero, hcover⟩ | ⟨hleft, hcover⟩
    · rw [if_neg (by omega), ← hnext, hbox', sub_add_cancel]
      exact hcover
    · rw [if_pos ⟨hbox', hleft⟩, hbox']
      exact hcover
  · rw [if_neg hbox', if_neg (fun hcase => hbox' hcase.1), hnext]

theorem stop_le (h : a.Fits size) {box : Int} (h0 : 0 ≤ box) (hbox : box < a.boxes) :
    a.stop size box ≤ size := by
  rw [← h.stop_eq]
  exact (h.pix_bounds h0 hbox).2.2

/-- Every column lies in a box. -/
theorem exists_box (h : a.Fits size) {i : Int} (h0 : 0 ≤ i) (hi : i < size) :
    ∃ box, 0 ≤ box ∧ box < a.boxes ∧ box * a.pixelsPerBox ≤ i ∧ i < a.stop size box := by
  have hp := h.one_le_pixels
  have hb := h.boxes_pos
  by_cases hlast : i / a.pixelsPerBox < a.boxes - 1
  · have hle : i / a.pixelsPerBox * a.pixelsPerBox ≤ i := Int.ediv_mul_le i (by omega)
    have hlt : i < (i / a.pixelsPerBox + 1) * a.pixelsPerBox :=
      Int.lt_ediv_add_one_mul_self i (by omega)
    refine ⟨i / a.pixelsPerBox, Int.ediv_nonneg h0 (by omega), by omega, hle, ?_⟩
    unfold Axis.stop
    rwa [if_neg (by omega)]
  · have hle : (a.boxes - 1) * a.pixelsPerBox ≤ i :=
      (Int.le_ediv_iff_mul_le (by omega)).mp (by omega)
    refine ⟨a.boxes - 1, by omega, by omega, hle, ?_⟩
    unfold Axis.stop
    rwa [if_pos rfl]

theorem stop_le_start (h : a.Fits size) {box box' : Int} (hlt : box < box')
    (hbox' : box' < a.boxes) : a.stop size box ≤ box' * a.pixelsPerBox := by
  have hp := h.one_le_pixels
  unfold Axis.stop
  rw [if_neg (by omega)]
  exact Int.mul_le_mul_of_nonneg_right (by omega) (by omega)

/-- No column lies in two boxes. -/
theorem box_unique (h : a.Fits size) {box box' i : Int} (hbox : box < a.boxes)
    (hbox' : box' < a.boxes) (hstart : box * a.pixelsPerBox ≤ i) (hstop : i < a.stop size box)
    (hstart' : box' * a.pixelsPerBox ≤ i) (hstop' : i < a.stop size box') : box = box' := by
  rcases lt_trichotomy box box' with hlt | rfl | hlt
  · have := h.stop_le_start hlt hbox'
    omega
  · rfl
  · have := h.stop_le_start hlt hbox
    omega

end Axis.Fits

/-! ## Row-major pictures -/

/-- Different positions have different places. -/
theorem row_major_inj {w x y x' y' : Int} (hx0 : 0 ≤ x) (hx : x < w) (hx0' : 0 ≤ x') (hx' : x' < w)
    (h : y * w + x = y' * w + x') : x = x' ∧ y = y' := by
  have hrow : ∀ z v : Int, 0 ≤ v → v < w → (z * w + v) / w = z := by
    intro z v hv0 hv
    rw [add_comm, Int.add_mul_ediv_right v z (by omega), Int.ediv_eq_zero_of_lt hv0 hv, zero_add]
  have hy : y = y' := by
    rw [← hrow y x hx0 hx, h, hrow y' x' hx0' hx']
  subst hy
  exact ⟨by omega, rfl⟩

/-- Every place is the place of a position. -/
theorem exists_row_major {w h p : Int} (hw : 1 ≤ w) (h0 : 0 ≤ p) (hp : p < w * h) :
    ∃ x y, 0 ≤ x ∧ x < w ∧ 0 ≤ y ∧ y < h ∧ p = y * w + x := by
  refine ⟨p % w, p / w, Int.emod_nonneg p (by omega), Int.emod_lt_of_pos p (by omega),
    Int.ediv_nonneg h0 (by omega), ?_, (Int.ediv_mul_add_emod p w).symm⟩
  exact (Int.ediv_lt_iff_lt_mul (by omega)).mpr (by rwa [mul_comm])

/-! ## What the boxes read -/

namespace Comparer

/-- The indices `aggregateMapArea` reads for a box, in the order of its loops. -/
def reads (c : Comparer) (xBox yBox : Int) : List Int :=
  (List.range (c.y.pix yBox).toNat).flatMap fun (y : Nat) =>
    (List.range (c.x.pix xBox).toNat).map fun (x : Nat) => c.pixel xBox yBox x y

/-- `aggregateMapArea` reads what `reads` lists, and nothing else. -/
theorem aggregateMapArea_eq (c : Comparer) (map : Array Int) (xBox yBox : Int) :
    c.aggregateMapArea map xBox yBox =
      ((c.reads xBox yBox).foldlM (fun i p => (read map p).bind fun v => some (int (i + v))) 0).bind
        fun i => div i (int (c.x.pix xBox * c.y.pix yBox)) := by
  unfold reads
  rw [← forRange_forRange (c.y.pix yBox) (c.x.pix xBox) (fun y x => c.pixel xBox yBox x y)]
  rfl

theorem mem_reads {c : Comparer} {xBox yBox p : Int} : p ∈ c.reads xBox yBox ↔
    ∃ x y, 0 ≤ x ∧ x < c.x.pix xBox ∧ 0 ≤ y ∧ y < c.y.pix yBox ∧ c.pixel xBox yBox x y = p := by
  unfold reads
  simp only [List.mem_flatMap, List.mem_map, List.mem_range]
  constructor
  · rintro ⟨y, hy, x, hx, rfl⟩
    exact ⟨x, y, by omega, by omega, by omega, by omega, rfl⟩
  · rintro ⟨x, y, hx0, hx, hy0, hy, rfl⟩
    refine ⟨y.toNat, by omega, x.toNat, by omega, ?_⟩
    rw [Int.toNat_of_nonneg hx0, Int.toNat_of_nonneg hy0]

theorem nodup_reads_of_inj {c : Comparer} {xBox yBox : Int}
    (hinj : ∀ x x' y y', 0 ≤ x → x < c.x.pix xBox → 0 ≤ x' → x' < c.x.pix xBox →
      0 ≤ y → y < c.y.pix yBox → 0 ≤ y' → y' < c.y.pix yBox →
      c.pixel xBox yBox x y = c.pixel xBox yBox x' y' → x = x' ∧ y = y') :
    (c.reads xBox yBox).Nodup := by
  unfold reads
  rw [List.nodup_flatMap]
  constructor
  · intro y hy
    refine List.Nodup.map_on ?_ List.nodup_range
    intro x hx x' hx' heq
    rw [List.mem_range] at hx hx' hy
    have := (hinj x x' y y (by omega) (by omega) (by omega) (by omega) (by omega) (by omega)
      (by omega) (by omega) heq).1
    omega
  · refine List.Nodup.pairwise_of_forall_ne List.nodup_range ?_
    intro y hy y' hy' hne p hp hp'
    obtain ⟨x, hx, rfl⟩ := List.mem_map.mp hp
    obtain ⟨x', hx', heq⟩ := List.mem_map.mp hp'
    rw [List.mem_range] at hx hx' hy hy'
    have := (hinj x x' y y' (by omega) (by omega) (by omega) (by omega) (by omega) (by omega)
      (by omega) (by omega) heq.symm).2
    omega

/-- The boxes are numbered from `0`. -/
def IsBox (c : Comparer) (xBox yBox : Int) : Prop :=
  (0 ≤ xBox ∧ xBox < c.x.boxes) ∧ 0 ≤ yBox ∧ yBox < c.y.boxes

/-- The place `p` is in the rectangle of the box, in a picture of width `w` and height `h`. -/
def InRectangle (c : Comparer) (w h xBox yBox p : Int) : Prop :=
  ∃ x y, (xBox * c.x.pixelsPerBox ≤ x ∧ x < c.x.stop w xBox) ∧
    (yBox * c.y.pixelsPerBox ≤ y ∧ y < c.y.stop h yBox) ∧ p = y * w + x

/-- Every pixel is compared once, in the box where it lies. -/
structure Partitions (c : Comparer) (w h : Int) : Prop where
  rectangle : ∀ xBox yBox, c.IsBox xBox yBox →
    ∀ p, p ∈ c.reads xBox yBox ↔ c.InRectangle w h xBox yBox p
  nodup : ∀ xBox yBox, c.IsBox xBox yBox → (c.reads xBox yBox).Nodup
  disjoint : ∀ xBox yBox xBox' yBox', c.IsBox xBox yBox → c.IsBox xBox' yBox' →
    ∀ p ∈ c.reads xBox yBox, p ∈ c.reads xBox' yBox' → xBox = xBox' ∧ yBox = yBox'
  cover : ∀ p, (∃ xBox yBox, c.IsBox xBox yBox ∧ p ∈ c.reads xBox yBox) ↔ 0 ≤ p ∧ p < w * h

namespace Sized

variable {c : Comparer} {w h : Int}

/-- Where the rows have the width of the picture, the pixel is at its place. -/
theorem pixel_eq_place (hc : c.Sized w h) (hw : 1 ≤ w) (harea : w * h ≤ 2 ^ 31)
    (hrow : h = 1 ∨ c.x.leftOver ≠ 0) {xBox yBox x y : Int} (hbox : c.IsBox xBox yBox)
    (hx0 : 0 ≤ x) (hx : x < c.x.pix xBox) (hy0 : 0 ≤ y) (hy : y < c.y.pix yBox) :
    c.pixel xBox yBox x y =
      (yBox * c.y.pixelsPerBox + y) * w + (xBox * c.x.pixelsPerBox + x) := by
  obtain ⟨⟨hX0, hX⟩, hY0, hY⟩ := hbox
  rw [(hc.pixel_eq hw harea hX0 hX hY0 hY hx0 hx hy0 hy).1]
  obtain ⟨-, hrow0, hrow1⟩ := hc.y.pix_bounds hY0 hY
  rcases hrow with rfl | hleft
  · rw [show yBox * c.y.pixelsPerBox + y = 0 by omega, zero_mul, zero_mul]
  · have hwidth : c.rowWidthInPix = w := by
      rcases hc.x.cover with ⟨hzero, -⟩ | ⟨-, hcover⟩
      · exact absurd hzero hleft
      · rw [hc.row]
        exact hcover
    rw [hwidth]

theorem mem_reads_iff (hc : c.Sized w h) (hw : 1 ≤ w) (harea : w * h ≤ 2 ^ 31)
    (hrow : h = 1 ∨ c.x.leftOver ≠ 0) {xBox yBox : Int} (hbox : c.IsBox xBox yBox) (p : Int) :
    p ∈ c.reads xBox yBox ↔ c.InRectangle w h xBox yBox p := by
  have hX := hc.x.stop_eq xBox
  have hY := hc.y.stop_eq yBox
  rw [mem_reads]
  constructor
  · rintro ⟨x, y, hx0, hx, hy0, hy, rfl⟩
    refine ⟨xBox * c.x.pixelsPerBox + x, yBox * c.y.pixelsPerBox + y, ⟨by omega, by omega⟩,
      ⟨by omega, by omega⟩, ?_⟩
    exact hc.pixel_eq_place hw harea hrow hbox hx0 hx hy0 hy
  · rintro ⟨x, y, ⟨hx0, hx⟩, ⟨hy0, hy⟩, rfl⟩
    refine ⟨x - xBox * c.x.pixelsPerBox, y - yBox * c.y.pixelsPerBox, by omega, by omega,
      by omega, by omega, ?_⟩
    rw [hc.pixel_eq_place hw harea hrow hbox (by omega) (by omega) (by omega) (by omega),
      add_sub_cancel, add_sub_cancel]

/-- The columns and rows of a rectangle are in the picture. -/
theorem rectangle_bounds (hc : c.Sized w h) {xBox yBox x y : Int} (hbox : c.IsBox xBox yBox)
    (hx : xBox * c.x.pixelsPerBox ≤ x ∧ x < c.x.stop w xBox)
    (hy : yBox * c.y.pixelsPerBox ≤ y ∧ y < c.y.stop h yBox) :
    (0 ≤ x ∧ x < w) ∧ 0 ≤ y ∧ y < h := by
  obtain ⟨⟨hX0, hX⟩, hY0, hY⟩ := hbox
  have hstartX := (hc.x.pix_bounds hX0 hX).2.1
  have hstartY := (hc.y.pix_bounds hY0 hY).2.1
  have hstopX := hc.x.stop_le hX0 hX
  have hstopY := hc.y.stop_le hY0 hY
  omega

theorem nodup_reads (hc : c.Sized w h) (hw : 1 ≤ w) (harea : w * h ≤ 2 ^ 31)
    (hrow : h = 1 ∨ c.x.leftOver ≠ 0) {xBox yBox : Int} (hbox : c.IsBox xBox yBox) :
    (c.reads xBox yBox).Nodup := by
  obtain ⟨-, hcol0, hcol⟩ := hc.x.pix_bounds hbox.1.1 hbox.1.2
  refine nodup_reads_of_inj fun x x' y y' hx0 hx hx0' hx' hy0 hy hy0' hy' heq => ?_
  rw [hc.pixel_eq_place hw harea hrow hbox hx0 hx hy0 hy,
    hc.pixel_eq_place hw harea hrow hbox hx0' hx' hy0' hy'] at heq
  obtain ⟨hxx, hyy⟩ := row_major_inj (by omega) (by omega) (by omega) (by omega) heq
  omega

theorem partitions (hc : c.Sized w h) (hw : 1 ≤ w) (harea : w * h ≤ 2 ^ 31)
    (hrow : h = 1 ∨ c.x.leftOver ≠ 0) : c.Partitions w h where
  rectangle xBox yBox hbox := hc.mem_reads_iff hw harea hrow hbox
  nodup xBox yBox hbox := hc.nodup_reads hw harea hrow hbox
  disjoint xBox yBox xBox' yBox' hbox hbox' p hp hp' := by
    obtain ⟨x, y, hx, hy, rfl⟩ := (hc.mem_reads_iff hw harea hrow hbox p).mp hp
    obtain ⟨x', y', hx', hy', heq⟩ := (hc.mem_reads_iff hw harea hrow hbox' _).mp hp'
    obtain ⟨⟨hx0, hxw⟩, -⟩ := hc.rectangle_bounds hbox hx hy
    obtain ⟨⟨hx0', hxw'⟩, -⟩ := hc.rectangle_bounds hbox' hx' hy'
    obtain ⟨rfl, rfl⟩ := row_major_inj hx0 hxw hx0' hxw' heq
    exact ⟨hc.x.box_unique hbox.1.2 hbox'.1.2 hx.1 hx.2 hx'.1 hx'.2,
      hc.y.box_unique hbox.2.2 hbox'.2.2 hy.1 hy.2 hy'.1 hy'.2⟩
  cover p := by
    constructor
    · rintro ⟨xBox, yBox, hbox, hp⟩
      obtain ⟨x, y, hx, hy, rfl⟩ := (hc.mem_reads_iff hw harea hrow hbox p).mp hp
      obtain ⟨⟨hx0, hxw⟩, hy0, hyh⟩ := hc.rectangle_bounds hbox hx hy
      have : 0 ≤ y * w := Int.mul_nonneg hy0 (by omega)
      exact ⟨by omega, row_major_lt (by omega) hxw hyh⟩
    · rintro ⟨h0, hp⟩
      obtain ⟨x, y, hx0, hx, hy0, hy, rfl⟩ := exists_row_major hw h0 hp
      obtain ⟨xBox, hX0, hX, hxs, hxe⟩ := hc.x.exists_box hx0 hx
      obtain ⟨yBox, hY0, hY, hys, hye⟩ := hc.y.exists_box hy0 hy
      have hbox : c.IsBox xBox yBox := ⟨⟨hX0, hX⟩, hY0, hY⟩
      refine ⟨xBox, yBox, hbox, (hc.mem_reads_iff hw harea hrow hbox _).mpr ?_⟩
      exact ⟨x, y, ⟨hxs, hxe⟩, ⟨hys, hye⟩, rfl⟩

/-- Without left-over pixels the rows are one box too short, and the last pixel is not read. -/
theorem reads_lt_last (hc : c.Sized w h) (hw : 1 ≤ w) (hh : 1 < h) (harea : w * h ≤ 2 ^ 31)
    (hleft : c.x.leftOver = 0) {xBox yBox p : Int} (hbox : c.IsBox xBox yBox)
    (hp : p ∈ c.reads xBox yBox) : p < w * h - 1 := by
  obtain ⟨x, y, hx0, hx, hy0, hy, rfl⟩ := mem_reads.mp hp
  obtain ⟨⟨hX0, hX⟩, hY0, hY⟩ := hbox
  rw [(hc.pixel_eq hw harea hX0 hX hY0 hY hx0 hx hy0 hy).1]
  obtain ⟨-, hcol0, hcol⟩ := hc.x.pix_bounds hX0 hX
  obtain ⟨-, hrow0, hrow⟩ := hc.y.pix_bounds hY0 hY
  have hp1 := hc.x.one_le_pixels
  have hwidth : c.rowWidthInPix = w - c.x.pixelsPerBox := by
    rcases hc.x.cover with ⟨-, hcover⟩ | ⟨hpos, -⟩
    · rw [hc.row, hleft, ← hcover]
      ring
    · omega
  have hle : (yBox * c.y.pixelsPerBox + y) * c.rowWidthInPix ≤ (h - 1) * (w - 1) := by
    have hr0 := hc.x.row_bounds.1
    rw [← hc.row] at hr0
    exact Int.mul_le_mul (by omega) (by omega) hr0 (by omega)
  have hsplit : (h - 1) * (w - 1) = w * h - w - h + 1 := by ring
  omega

end Sized

/-- What the boxes read are `int`s. -/
theorem Partitions.area_le {c : Comparer} {w h : Int} (hw : 1 ≤ w) (hh : 1 ≤ h)
    (hpart : c.Partitions w h) : w * h ≤ 2 ^ 31 := by
  have hpos : 0 < w * h := Int.mul_pos (by omega) (by omega)
  obtain ⟨xBox, yBox, -, hlast⟩ := (hpart.cover (w * h - 1)).mpr ⟨by omega, by omega⟩
  obtain ⟨x, y, -, -, -, -, hpixel⟩ := mem_reads.mp hlast
  have hlt : ∀ n : Int, int n < 2 ^ 31 := by
    intro n
    unfold int
    omega
  have hpix : c.pixel xBox yBox x y < 2 ^ 31 := hlt _
  omega

end Comparer

/-! ## When the boxes are right -/

/-- **The boxes compare every pixel once, in the box where it lies, exactly for pictures of one
row and for box counts that do not divide the width**, as long as the places are `int`s. -/
theorem partitions_iff {s : State} (hw : 1 ≤ s.width) (hw' : s.width < 2 ^ 31)
    (hh : 1 ≤ s.height) (hh' : s.height < 2 ^ 31) {xBoxes yBoxes : Int} (hx : 1 ≤ xBoxes)
    (hy : 1 ≤ yBoxes) (leniency : Int) :
    ∃ c, Comparer.new s xBoxes yBoxes leniency = some c ∧ (c.Partitions s.width s.height ↔
      (s.height = 1 ∨ ¬ min xBoxes s.width ∣ s.width) ∧ s.width * s.height ≤ 2 ^ 31) := by
  obtain ⟨c, hnew, hc, haxis, -⟩ := exists_sized hw hw' hh hh' hx hy leniency
  have hleft : c.x.leftOver = 0 ↔ min xBoxes s.width ∣ s.width := by
    rw [← Option.some.inj ((Axis.new_eq hw hw' hx).symm.trans haxis)]
    exact Int.dvd_iff_emod_eq_zero.symm
  refine ⟨c, hnew, ?_⟩
  rw [← hleft]
  constructor
  · intro hpart
    have harea := hpart.area_le hw hh
    refine ⟨?_, harea⟩
    by_contra hnot
    obtain ⟨hrows, hzero⟩ := not_or.mp hnot
    rw [not_not] at hzero
    -- the last pixel is in no box
    have hpos : 0 < s.width * s.height := Int.mul_pos (by omega) (by omega)
    obtain ⟨xBox, yBox, hbox, hlast⟩ :=
      (hpart.cover (s.width * s.height - 1)).mpr ⟨by omega, by omega⟩
    exact lt_irrefl _ (hc.reads_lt_last hw (by omega) harea hzero hbox hlast)
  · rintro ⟨hrows, harea⟩
    exact hc.partitions hw harea hrows

theorem partitions_iff_narrow :
    ∃ c, Comparer.new ⟨Array.replicate 57 0, 19, 3, 0⟩ 10 10 0 = some c ∧
    (c.Partitions 19 3 ↔ ((3 : Int) = 1 ∨ ¬ min 10 19 ∣ (19 : Int)) ∧ (19 * 3 : Int) ≤ 2 ^ 31) :=
  partitions_iff (s := ⟨Array.replicate 57 0, 19, 3, 0⟩) (by decide) (by decide) (by decide)
    (by decide) (by decide) (by decide) 0

/-- In a picture of `640 × 480` pixels with ten boxes each way, no box has the last pixel. -/
theorem not_forall_partitions : ¬ ∀ (s : State) (xBoxes yBoxes leniency : Int), 1 ≤ s.width →
    s.width < 2 ^ 31 → 1 ≤ s.height → s.height < 2 ^ 31 → (s.map.size : Int) = s.width * s.height →
    1 ≤ xBoxes → 1 ≤ yBoxes → ∃ c, Comparer.new s xBoxes yBoxes leniency = some c ∧
      c.Partitions s.width s.height := by
  intro h
  obtain ⟨s, hs⟩ : ∃ s : State, s = ⟨Array.replicate (640 * 480) 0, 640, 480, 0⟩ := ⟨_, rfl⟩
  have hw : s.width = 640 := by rw [hs]
  have hh : s.height = 480 := by rw [hs]
  have hmap : (s.map.size : Int) = s.width * s.height := by
    rw [hw, hh, hs, Array.size_replicate]
    rfl
  obtain ⟨c, hnew, hpart⟩ := h s 10 10 0 (by omega) (by omega) (by omega) (by omega) hmap
    (by decide) (by decide)
  obtain ⟨c', hnew', hc, haxis, -⟩ := exists_sized (s := s) (by omega) (by omega) (by omega)
    (by omega) (show 1 ≤ (10 : Int) by decide) (show 1 ≤ (10 : Int) by decide) 0
  obtain rfl := Option.some.inj (hnew.symm.trans hnew')
  have hleft : c.x.leftOver = 0 := by
    rw [hw] at haxis
    have hsixtyFour : Axis.new 640 10 = some ⟨10, 64, 0⟩ := rfl
    rw [← Option.some.inj (haxis.symm.trans hsixtyFour).symm]
  rw [hw, hh] at hpart hc
  obtain ⟨xBox, yBox, hbox, hlast⟩ := (hpart.cover (640 * 480 - 1)).mpr (by decide)
  exact lt_irrefl _ (hc.reads_lt_last (by decide) (by decide) (by decide) hleft hbox hlast)

end PetDev.Detection
