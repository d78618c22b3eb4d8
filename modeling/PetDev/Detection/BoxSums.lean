import PetDev.Detection.Boxes
import PetDev.Java.Sum

/-!
# What the boxes add up

`Comparer.boxSum` is the exact sum of the pixels that `aggregateMapArea` reads for a box.  As long
as it fits an `int`, the method answers the mean of these pixels, rounded down
(`Sized.aggregateMapArea_eq_mean`), and the comparison asks whether the means of some box are
more than the leniency apart (`Sized.isDifferent_iff`).

`different_of_pixels`: pixels that are at most the leniency apart never make two pictures
different, and pixels that are all further apart in one direction always do.  Both maps are read
at the same places, so it does not matter which ones.
-/

namespace PetDev.Detection

open Java

/-- The pixel at a place, `0` outside the map. -/
def pixelAt (map : Array Int) (p : Int) : Int := (read map p).getD 0

theorem read_eq_pixelAt {map : Array Int} {p : Int} (h0 : 0 ≤ p) (hp : p < map.size) :
    read map p = some (pixelAt map p) := by
  obtain ⟨v, hv⟩ := read_eq_some h0 hp
  rw [pixelAt, hv]
  rfl

theorem pixelAt_eq_getElem {map : Array Int} {p : Int} (h0 : 0 ≤ p) (hp : p < map.size) :
    ∃ h : p.toNat < map.size, pixelAt map p = map[p.toNat] := by
  have hlt : p.toNat < map.size := by omega
  refine ⟨hlt, ?_⟩
  unfold pixelAt Java.read
  rw [if_pos h0, Array.getElem?_eq_getElem hlt]
  rfl

/-- Adding up pixels that are in the map: only the last wrap-around counts. -/
theorem foldlM_read {map : Array Int} {ps : List Int}
    (hps : ∀ p ∈ ps, 0 ≤ p ∧ p < map.size) (s : Int) :
    ps.foldlM (fun i p => (read map p).bind fun v => some (int (i + v))) (int s) =
      some (int (s + (ps.map (pixelAt map)).sum)) := by
  induction ps generalizing s with
  | nil =>
    rw [List.map_nil, List.sum_nil, add_zero]
    rfl
  | cons p ps ih =>
    obtain ⟨h0, hp⟩ := hps p List.mem_cons_self
    have hrest := ih (fun q hq => hps q (List.mem_cons_of_mem p hq)) (s + pixelAt map p)
    rw [List.foldlM_cons, read_eq_pixelAt h0 hp, List.map_cons, List.sum_cons, ← add_assoc]
    rw [← int_int_add] at hrest
    simpa using hrest

namespace Comparer

/-- The sum of the pixels that are read for a box. -/
def boxSum (c : Comparer) (map : Array Int) (xBox yBox : Int) : Int :=
  ((c.reads xBox yBox).map (pixelAt map)).sum

/-- How many pixels are read for a box. -/
def boxSize (c : Comparer) (xBox yBox : Int) : Int := c.x.pix xBox * c.y.pix yBox

theorem length_reads (c : Comparer) {xBox yBox : Int} (hx : 0 ≤ c.x.pix xBox)
    (hy : 0 ≤ c.y.pix yBox) : ((c.reads xBox yBox).length : Int) = c.boxSize xBox yBox := by
  unfold reads boxSize
  rw [List.length_flatMap]
  simp only [List.length_map, List.length_range, List.map_const', List.sum_replicate,
    nsmul_eq_mul, Nat.cast_id, Nat.cast_mul]
  rw [Int.toNat_of_nonneg hx, Int.toNat_of_nonneg hy, mul_comm]

namespace Sized

variable {c : Comparer} {w h : Int} {map : Array Int} {xBox yBox : Int}

theorem mem_reads_bounds (hc : c.Sized w h) (hw : 1 ≤ w) (harea : w * h < 2 ^ 31)
    (hmap : (map.size : Int) = w * h) (hbox : c.IsBox xBox yBox) :
    ∀ p ∈ c.reads xBox yBox, 0 ≤ p ∧ p < map.size := by
  intro p hp
  obtain ⟨x, y, hx0, hx, hy0, hy, rfl⟩ := mem_reads.mp hp
  obtain ⟨⟨hX0, hX⟩, hY0, hY⟩ := hbox
  rw [hmap]
  exact (hc.pixel_eq hw harea.le hX0 hX hY0 hY hx0 hx hy0 hy).2

/-- A box has pixels, and no more than the picture. -/
theorem boxSize_bounds (hc : c.Sized w h) (hbox : c.IsBox xBox yBox) :
    1 ≤ c.boxSize xBox yBox ∧ c.boxSize xBox yBox ≤ w * h := by
  obtain ⟨⟨hX0, hX⟩, hY0, hY⟩ := hbox
  obtain ⟨hxPix, hcol0, hcol⟩ := hc.x.pix_bounds hX0 hX
  obtain ⟨hyPix, hrow0, hrow⟩ := hc.y.pix_bounds hY0 hY
  constructor
  · have hpos : 1 * 1 ≤ c.x.pix xBox * c.y.pix yBox :=
      Int.mul_le_mul hxPix hyPix (by omega) (by omega)
    exact hpos
  · exact Int.mul_le_mul (by omega) (by omega) (by omega) (by omega)

theorem length_reads (hc : c.Sized w h) (hbox : c.IsBox xBox yBox) :
    ((c.reads xBox yBox).length : Int) = c.boxSize xBox yBox := by
  obtain ⟨⟨hX0, hX⟩, hY0, hY⟩ := hbox
  have hxPix := (hc.x.pix_bounds hX0 hX).1
  have hyPix := (hc.y.pix_bounds hY0 hY).1
  exact c.length_reads (by omega) (by omega)

/-- **A box whose sum fits an `int` answers its mean.** -/
theorem aggregateMapArea_eq_mean (hc : c.Sized w h) (hw : 1 ≤ w) (harea : w * h < 2 ^ 31)
    (hmap : (map.size : Int) = w * h) (hbox : c.IsBox xBox yBox)
    (h0 : 0 ≤ c.boxSum map xBox yBox) (hsum : c.boxSum map xBox yBox < 2 ^ 31) :
    c.aggregateMapArea map xBox yBox = some (c.boxSum map xBox yBox / c.boxSize xBox yBox) := by
  obtain ⟨hsize1, hsize⟩ := hc.boxSize_bounds hbox
  have hfold := foldlM_read (hc.mem_reads_bounds hw harea hmap hbox) 0
  have hexact : int (0 + c.boxSum map xBox yBox) = c.boxSum map xBox yBox := by
    rw [zero_add]
    exact int_of_range (by omega) hsum
  have hint : int (c.boxSize xBox yBox) = c.boxSize xBox yBox :=
    int_of_range (by omega) (by omega)
  change _ = some (int (0 + c.boxSum map xBox yBox)) at hfold
  rw [hexact, show int 0 = 0 from rfl] at hfold
  rw [aggregateMapArea_eq, hfold, Option.bind_some]
  change div _ (int (c.boxSize xBox yBox)) = _
  rw [hint, div_eq_some (by omega), Int.tdiv_eq_ediv_of_nonneg h0]
  have hmean0 : 0 ≤ c.boxSum map xBox yBox / c.boxSize xBox yBox :=
    Int.ediv_nonneg h0 (by omega)
  have hmean := Int.ediv_le_self (c.boxSize xBox yBox) h0
  rw [int_of_range (by omega) (by omega)]

/-- The comparison asks whether the means of some box are more than the leniency apart. -/
theorem isDifferent_iff (hc : c.Sized w h) (hw : 1 ≤ w) (harea : w * h < 2 ^ 31) {s1 s2 : State}
    (hwidth : s1.width = s2.width) (hheight : s1.height = s2.height)
    (h1 : (s1.map.size : Int) = w * h) (h2 : (s2.map.size : Int) = w * h)
    (hsums : ∀ xBox yBox, c.IsBox xBox yBox →
      (0 ≤ c.boxSum s1.map xBox yBox ∧ c.boxSum s1.map xBox yBox < 2 ^ 31) ∧
        0 ≤ c.boxSum s2.map xBox yBox ∧ c.boxSum s2.map xBox yBox < 2 ^ 31) :
    ∃ b, c.isDifferent s1 s2 = some b ∧ (b = true ↔ ∃ xBox yBox, c.IsBox xBox yBox ∧
      c.leniency < |c.boxSum s1.map xBox yBox / c.boxSize xBox yBox -
        c.boxSum s2.map xBox yBox / c.boxSize xBox yBox|) := by
  have hmeans : ∀ xBox yBox, c.IsBox xBox yBox → ∃ b1 b2,
      c.aggregateMapArea s1.map xBox yBox = some b1 ∧
      c.aggregateMapArea s2.map xBox yBox = some b2 ∧
      Java.abs (int (b1 - b2)) = |c.boxSum s1.map xBox yBox / c.boxSize xBox yBox -
        c.boxSum s2.map xBox yBox / c.boxSize xBox yBox| := by
    intro xBox yBox hbox
    obtain ⟨⟨h10, h1sum⟩, h20, h2sum⟩ := hsums xBox yBox hbox
    have hsize := (hc.boxSize_bounds hbox).1
    have hmean : ∀ n : Int, 0 ≤ n → n < 2 ^ 31 →
        0 ≤ n / c.boxSize xBox yBox ∧ n / c.boxSize xBox yBox < 2 ^ 31 := fun n h0 hn =>
      ⟨Int.ediv_nonneg h0 (by omega), (Int.ediv_le_self _ h0).trans_lt hn⟩
    obtain ⟨hb10, hb1⟩ := hmean _ h10 h1sum
    obtain ⟨hb20, hb2⟩ := hmean _ h20 h2sum
    exact ⟨_, _, hc.aggregateMapArea_eq_mean hw harea h1 hbox h10 h1sum,
      hc.aggregateMapArea_eq_mean hw harea h2 hbox h20 h2sum, abs_int_sub hb10 hb1 hb20 hb2⟩
  have hx1 := hc.x.boxes_pos
  have hy1 := hc.y.boxes_pos
  obtain ⟨b, hb, hiff⟩ := isDifferent_iff_apart (c := c) (by omega) (by omega) hwidth hheight
    fun xBox yBox hx0 hx hy0 hy => by
      obtain ⟨b1, b2, hb1, hb2, -⟩ := hmeans xBox yBox ⟨⟨hx0, hx⟩, hy0, hy⟩
      exact ⟨⟨b1, hb1⟩, b2, hb2⟩
  refine ⟨b, hb, ?_⟩
  rw [hiff]
  constructor
  · rintro ⟨xBox, yBox, hx0, hx, hy0, hy, b1, b2, hb1, hb2, hlt⟩
    have hbox : c.IsBox xBox yBox := ⟨⟨hx0, hx⟩, hy0, hy⟩
    obtain ⟨b1', b2', hb1', hb2', habs⟩ := hmeans xBox yBox hbox
    obtain rfl := Option.some.inj (hb1.symm.trans hb1')
    obtain rfl := Option.some.inj (hb2.symm.trans hb2')
    rw [habs] at hlt
    exact ⟨xBox, yBox, hbox, hlt⟩
  · rintro ⟨xBox, yBox, hbox, hlt⟩
    obtain ⟨b1, b2, hb1, hb2, habs⟩ := hmeans xBox yBox hbox
    rw [← habs] at hlt
    exact ⟨xBox, yBox, hbox.1.1, hbox.1.2, hbox.2.1, hbox.2.2, b1, b2, hb1, hb2, hlt⟩

end Sized

end Comparer

/-! ## Pixels and means -/

/-- What holds of each summand holds of the mean, rounded down. -/
theorem mean_le_mean_add {ps : List Int} {f g : Int → Int} {d n : Int} (hn : 1 ≤ n)
    (hlength : (ps.length : Int) = n) (h : ∀ p ∈ ps, f p ≤ g p + d) :
    (ps.map f).sum / n ≤ (ps.map g).sum / n + d := by
  have hsum : (ps.map f).sum ≤ (ps.map g).sum + n * d := by
    calc (ps.map f).sum ≤ (ps.map fun p => g p + d).sum := List.sum_le_sum h
      _ = (ps.map g).sum + n * d := by
        rw [List.sum_map_add, List.map_const', List.sum_replicate, nsmul_eq_mul, hlength]
  calc (ps.map f).sum / n ≤ ((ps.map g).sum + n * d) / n := Int.ediv_le_ediv (by omega) hsum
    _ = (ps.map g).sum / n + d := Int.add_mul_ediv_left _ _ (by omega)

theorem pixelAt_nonneg {map : Array Int} (hmap : ∀ v ∈ map, 0 ≤ v) (p : Int) :
    0 ≤ pixelAt map p := by
  unfold pixelAt
  cases hread : Java.read map p with
  | none => exact le_rfl
  | some v =>
    unfold Java.read at hread
    split at hread
    · exact hmap v (Array.mem_of_getElem? hread)
    · cases hread

theorem boxSum_nonneg (c : Comparer) {map : Array Int} (hmap : ∀ v ∈ map, 0 ≤ v)
    (xBox yBox : Int) : 0 ≤ c.boxSum map xBox yBox := by
  refine List.sum_nonneg fun v hv => ?_
  obtain ⟨p, -, rfl⟩ := List.mem_map.mp hv
  exact pixelAt_nonneg hmap p

/-- **Noise up to the leniency makes no difference, and a change of every pixel by more always
does**, for maps without negative pixels whose boxes add up to `int`s. -/
theorem different_of_pixels {s1 s2 : State} (hw : 1 ≤ s1.width) (hh : 1 ≤ s1.height)
    (hwidth : s1.width = s2.width) (hheight : s1.height = s2.height)
    (h1 : (s1.map.size : Int) = s1.width * s1.height)
    (h2 : (s2.map.size : Int) = s1.width * s1.height) (harea : s1.width * s1.height < 2 ^ 31)
    (hnonneg1 : ∀ v ∈ s1.map, 0 ≤ v) (hnonneg2 : ∀ v ∈ s2.map, 0 ≤ v) {xBoxes yBoxes L : Int}
    (hx : 1 ≤ xBoxes) (hy : 1 ≤ yBoxes)
    (hsums : ∀ c, Comparer.new s1 xBoxes yBoxes L = some c → ∀ xBox yBox, c.IsBox xBox yBox →
      c.boxSum s1.map xBox yBox < 2 ^ 31 ∧ c.boxSum s2.map xBox yBox < 2 ^ 31) :
    ((∀ (i : Nat) (hi1 : i < s1.map.size) (hi2 : i < s2.map.size),
        |s1.map[i] - s2.map[i]| ≤ L) → different s1 s2 xBoxes yBoxes L = some false) ∧
    ((∀ (i : Nat) (hi1 : i < s1.map.size) (hi2 : i < s2.map.size),
        s2.map[i] + L < s1.map[i]) → different s1 s2 xBoxes yBoxes L = some true) ∧
    ((∀ (i : Nat) (hi1 : i < s1.map.size) (hi2 : i < s2.map.size),
        s1.map[i] + L < s2.map[i]) → different s1 s2 xBoxes yBoxes L = some true) := by
  have hw' := le_mul_of_one_le_right (show 0 ≤ s1.width by omega) hh
  have hh' := le_mul_of_one_le_left (show 0 ≤ s1.height by omega) hw
  obtain ⟨c, hnew, hc, -, hleniency⟩ :=
    exists_sized hw (by omega) hh (by omega) hx hy L
  have hnonneg : ∀ xBox yBox, 0 ≤ c.boxSum s1.map xBox yBox ∧ 0 ≤ c.boxSum s2.map xBox yBox :=
    fun xBox yBox => ⟨boxSum_nonneg c hnonneg1 xBox yBox, boxSum_nonneg c hnonneg2 xBox yBox⟩
  obtain ⟨b, hb, hiff⟩ := hc.isDifferent_iff hw harea hwidth hheight h1 h2
    fun xBox yBox hbox => ⟨⟨(hnonneg xBox yBox).1, (hsums c hnew xBox yBox hbox).1⟩,
      (hnonneg xBox yBox).2, (hsums c hnew xBox yBox hbox).2⟩
  have hdifferent : different s1 s2 xBoxes yBoxes L = some b := by
    unfold different
    rw [hnew]
    exact hb
  rw [hleniency] at hiff
  -- what holds of all pixels holds of those that are read
  have hpixels : ∀ R : Int → Int → Prop,
      (∀ (i : Nat) (hi1 : i < s1.map.size) (hi2 : i < s2.map.size), R s1.map[i] s2.map[i]) →
      ∀ xBox yBox, c.IsBox xBox yBox → ∀ p ∈ c.reads xBox yBox,
        R (pixelAt s1.map p) (pixelAt s2.map p) := by
    intro R hR xBox yBox hbox p hp
    obtain ⟨h0, hp1⟩ := hc.mem_reads_bounds hw harea h1 hbox p hp
    have hp2 := (hc.mem_reads_bounds hw harea h2 hbox p hp).2
    obtain ⟨hi1, he1⟩ := pixelAt_eq_getElem h0 hp1
    obtain ⟨hi2, he2⟩ := pixelAt_eq_getElem h0 hp2
    rw [he1, he2]
    exact hR p.toNat hi1 hi2
  have hmeans : ∀ xBox yBox, c.IsBox xBox yBox → ∀ (f g : Int → Int) (d : Int),
      (∀ p ∈ c.reads xBox yBox, f p ≤ g p + d) →
      ((c.reads xBox yBox).map f).sum / c.boxSize xBox yBox ≤
        ((c.reads xBox yBox).map g).sum / c.boxSize xBox yBox + d :=
    fun xBox yBox hbox f g d => mean_le_mean_add (hc.boxSize_bounds hbox).1 (hc.length_reads hbox)
  -- the first box will do
  have hfirst : c.IsBox 0 0 := by
    have hx1 := hc.x.boxes_pos
    have hy1 := hc.y.boxes_pos
    exact ⟨⟨le_rfl, by omega⟩, le_rfl, by omega⟩
  rw [hdifferent]
  refine ⟨fun hclose => ?_, fun hfar => ?_, fun hfar => ?_⟩
  · rw [Option.some.injEq, Bool.eq_false_iff, ne_eq, hiff]
    rintro ⟨xBox, yBox, hbox, hlt⟩
    have hread := hpixels (fun a b => |a - b| ≤ L) hclose xBox yBox hbox
    have h12 := hmeans xBox yBox hbox (pixelAt s1.map) (pixelAt s2.map) L fun p hp => by
      have := (abs_le.mp (hread p hp)).2
      omega
    have h21 := hmeans xBox yBox hbox (pixelAt s2.map) (pixelAt s1.map) L fun p hp => by
      have := (abs_le.mp (hread p hp)).1
      omega
    refine absurd hlt (not_lt.mpr (abs_le.mpr ⟨?_, ?_⟩))
    · change _ ≤ c.boxSum _ _ _ / _ + L at h21
      change c.boxSum _ _ _ / _ ≤ _ at h21
      omega
    · change _ ≤ c.boxSum _ _ _ / _ + L at h12
      change c.boxSum _ _ _ / _ ≤ _ at h12
      omega
  · rw [Option.some.injEq, hiff]
    have hread := hpixels (fun a b => b + L < a) hfar 0 0 hfirst
    have h21 := hmeans 0 0 hfirst (pixelAt s2.map) (pixelAt s1.map) (-(L + 1)) fun p hp => by
      have := hread p hp
      omega
    refine ⟨0, 0, hfirst, lt_abs.mpr (Or.inl ?_)⟩
    change c.boxSum _ _ _ / _ ≤ c.boxSum _ _ _ / _ + _ at h21
    omega
  · rw [Option.some.injEq, hiff]
    have hread := hpixels (fun a b => a + L < b) hfar 0 0 hfirst
    have h12 := hmeans 0 0 hfirst (pixelAt s1.map) (pixelAt s2.map) (-(L + 1)) fun p hp => by
      have := hread p hp
      omega
    refine ⟨0, 0, hfirst, lt_abs.mpr (Or.inr ?_)⟩
    change c.boxSum _ _ _ / _ ≤ c.boxSum _ _ _ / _ + _ at h12
    omega

/-- Four pixels. -/
def before : State := ⟨#[3, 4, 5, 6], 2, 2, 4⟩

/-- Two of them have changed by one. -/
def noisy : State := ⟨#[3, 5, 4, 6], 2, 2, 4⟩

/-- All of them have changed by two. -/
def brighter : State := ⟨#[5, 6, 7, 8], 2, 2, 6⟩

theorem different_of_pixels_before : different before noisy 1 1 1 = some false ∧
    different before brighter 1 1 1 = some true := by
  have hsums : ∀ s, s = noisy ∨ s = brighter → ∀ c, Comparer.new before 1 1 1 = some c →
      ∀ xBox yBox, c.IsBox xBox yBox →
        c.boxSum before.map xBox yBox < 2 ^ 31 ∧ c.boxSum s.map xBox yBox < 2 ^ 31 := by
    intro s hs c hc xBox yBox hbox
    have hnew : Comparer.new before 1 1 1 = some ⟨⟨1, 2, 0⟩, ⟨1, 2, 0⟩, 0, 2, 1⟩ := rfl
    obtain rfl := Option.some.inj (hc.symm.trans hnew)
    obtain ⟨⟨hx0, hx⟩, hy0, hy⟩ := hbox
    change xBox < 1 at hx
    change yBox < 1 at hy
    obtain rfl : xBox = 0 := by omega
    obtain rfl : yBox = 0 := by omega
    rcases hs with rfl | rfl
    · decide
    · decide
  constructor
  · have hclose : ∀ (i : Nat) (hi1 : i < before.map.size) (hi2 : i < noisy.map.size),
        |before.map[i] - noisy.map[i]| ≤ 1 := by decide
    exact (@different_of_pixels before noisy (by decide) (by decide) rfl rfl rfl rfl (by decide)
      (by decide) (by decide) 1 1 1 le_rfl le_rfl (hsums noisy (Or.inl rfl))).1 hclose
  · have hfar : ∀ (i : Nat) (hi1 : i < before.map.size) (hi2 : i < brighter.map.size),
        before.map[i] + 1 < brighter.map[i] := by decide
    exact (@different_of_pixels before brighter (by decide) (by decide) rfl rfl rfl rfl (by decide)
      (by decide) (by decide) 1 1 1 le_rfl le_rfl (hsums brighter (Or.inr rfl))).2.2 hfar

end PetDev.Detection
