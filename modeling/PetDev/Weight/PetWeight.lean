import Mathlib
import PetDev.Java.Float
import PetDev.Lib.Trim

/-!
# Weighing

`unitQuality` reads the scale a hundred times and takes the mean of the readings in the middle,
without the ten least and the ten greatest; `getQuality` does the same, takes the tare off and
multiplies by `110 / 18`.  What the scale reads is free: `getWeight i` is the `i`-th reading.

* `unitQuality_robust`: with ninety readings in an interval the mean is in the interval, in
  whatever order they come and whatever the others are.
* `getQuality_iff`: `110 / 18` is a division of `int`s, so the factor is `6` and not `55 / 9`,
  and the result is right for a difference of at most four units.
-/

namespace PetDev.Weight

open Java

section Mean

variable (getWeight : Nat → Int)

/-- What is added to `arrayList`. -/
def readings : List Int := (List.range 100).map getWeight

/-- `arrayList` after it is sorted and its two ends are cleared. -/
def middle : List Int :=
  let arrayList := (readings getWeight).insertionSort (· ≤ ·)
  let arrayList := arrayList.drop 10
  arrayList.take (arrayList.length - 10)

/-- The loop over `arrayList`. -/
def sum : Int := (middle getWeight).foldl (fun sum one_quality => int (sum + one_quality)) 0

def unitQuality : Int := (sum getWeight).tdiv 80

/-- `fQuality`, for the difference `(sum / 80) - unitWeight`. -/
def fQuality (net : Int) : ℚ :=
  if net > 0 then float (int (net * (110 : Int).tdiv 18))
  else float (int (int (-net) * (110 : Int).tdiv 18))

/-- `getQuality`, with the tare `unitWeight`. -/
def getQuality (unitWeight : Int) : String :=
  let quality := roundFloat (fQuality (int ((sum getWeight).tdiv 80 - unitWeight)))
  valueOf quality

/-! ## The mean -/

theorem middle_eq_trim : middle getWeight = Trim.trim 10 (readings getWeight) := rfl

theorem length_middle : (middle getWeight).length = 80 := by
  rw [middle_eq_trim, Trim.length_trim, readings, List.length_map, List.length_range]

theorem foldl_int_add (l : List Int) (s : Int) :
    l.foldl (fun s x => int (s + x)) (int s) = int (s + l.sum) := by
  induction l generalizing s with
  | nil => rw [List.foldl_nil, List.sum_nil, add_zero]
  | cons x l ih => rw [List.foldl_cons, int_int_add, ih, List.sum_cons, add_assoc]

theorem sum_eq : sum getWeight = int (middle getWeight).sum := by
  have h := foldl_int_add (middle getWeight) 0
  rwa [zero_add] at h

end Mean

theorem sum_bounds {lo hi : Int} {l : List Int} (h : ∀ x ∈ l, lo ≤ x ∧ x ≤ hi) :
    l.length * lo ≤ l.sum ∧ l.sum ≤ l.length * hi := by
  have hlow := List.card_nsmul_le_sum l lo fun x hx => (h x hx).1
  have hhigh := List.sum_le_card_nsmul l hi fun x hx => (h x hx).2
  rw [nsmul_eq_mul] at hlow hhigh
  exact ⟨hlow, hhigh⟩

/-- Rounding towards zero keeps an integer interval. -/
theorem tdiv_bounds {lo hi s c : Int} (hc : 0 < c) (hlo : lo * c ≤ s) (hhi : s ≤ hi * c) :
    lo ≤ s.tdiv c ∧ s.tdiv c ≤ hi := by
  have hneg : -hi ≤ (-s).tdiv c := by
    refine Int.le_tdiv_of_mul_le hc ?_
    rw [neg_mul]
    omega
  rw [Int.neg_tdiv] at hneg
  exact ⟨Int.le_tdiv_of_mul_le hc hlo, by omega⟩

/-- What is left in the middle is inside. -/
theorem mem_middle_bounds {lo hi : Int} {getWeight : Nat → Int}
    (hgood : 90 ≤ (readings getWeight).countP (fun x => lo ≤ x ∧ x ≤ hi)) :
    ∀ x ∈ middle getWeight, lo ≤ x ∧ x ≤ hi := by
  intro x hx
  rw [middle_eq_trim] at hx
  refine Trim.bounds_of_mem_trim ?_ hx
  have hall := List.length_eq_countP_add_countP (fun x => decide (lo ≤ x ∧ x ≤ hi))
    (l := readings getWeight)
  rw [readings, List.length_map, List.length_range] at hall
  rw [readings] at hgood ⊢
  simp only [decide_not, Bool.decide_and, Bool.decide_eq_true] at hall hgood ⊢
  omega

/-- **Ninety good readings decide**: the mean is in their interval, its sum does not overflow, and
the order of the readings does not matter. -/
theorem unitQuality_robust {lo hi : Int} (hlo : |lo| ≤ 26843545) (hhi : |hi| ≤ 26843545)
    (getWeight : Nat → Int)
    (hgood : 90 ≤ (readings getWeight).countP (fun x => lo ≤ x ∧ x ≤ hi)) :
    (lo ≤ unitQuality getWeight ∧ unitQuality getWeight ≤ hi) ∧
    (∀ k, -2 ^ 31 ≤ ((middle getWeight).take k).sum ∧ ((middle getWeight).take k).sum < 2 ^ 31) ∧
    ∀ getWeight', (readings getWeight').Perm (readings getWeight) →
      unitQuality getWeight' = unitQuality getWeight := by
  have hmiddle := mem_middle_bounds hgood
  obtain ⟨hlo0, hlo1⟩ := abs_le.mp hlo
  obtain ⟨hhi0, hhi1⟩ := abs_le.mp hhi
  have hrange : ∀ k, -2 ^ 31 ≤ ((middle getWeight).take k).sum ∧
      ((middle getWeight).take k).sum < 2 ^ 31 := by
    intro k
    have hbounds : ∀ x ∈ (middle getWeight).take k, -26843545 ≤ x ∧ x ≤ 26843545 := by
      intro x hx
      have := hmiddle x (List.mem_of_mem_take hx)
      omega
    have hsum := sum_bounds hbounds
    have hlength : ((middle getWeight).take k).length ≤ 80 := by
      rw [← length_middle getWeight]
      exact List.length_take_le' k _
    omega
  refine ⟨?_, hrange, fun getWeight' hperm => ?_⟩
  · have hexact : sum getWeight = (middle getWeight).sum := by
      have h80 := hrange 80
      rw [List.take_of_length_le (length_middle getWeight).le] at h80
      rw [sum_eq, int_of_range h80.1 h80.2]
    have hsum := sum_bounds hmiddle
    rw [length_middle] at hsum
    unfold unitQuality
    rw [hexact]
    exact tdiv_bounds (by decide) (by omega) (by omega)
  · rw [unitQuality, sum_eq, middle_eq_trim, Trim.trim_perm 10 hperm, ← middle_eq_trim, ← sum_eq]
    rfl

/-- Nine readings are far too small and one is far too great. -/
def fewOutliers (i : Nat) : Int := if i < 9 then -2147483648 else if i = 50 then 2147483647 else -3

theorem unitQuality_robust_fewOutliers :
    (-3 ≤ unitQuality fewOutliers ∧ unitQuality fewOutliers ≤ -3) ∧
    (∀ k, -2 ^ 31 ≤ ((middle fewOutliers).take k).sum ∧
      ((middle fewOutliers).take k).sum < 2 ^ 31) ∧
    ∀ getWeight', (readings getWeight').Perm (readings fewOutliers) →
      unitQuality getWeight' = unitQuality fewOutliers :=
  unitQuality_robust (by decide) (by decide) fewOutliers (by decide +kernel)

/-! ## The weight -/

/-- The mean that `getQuality` is about: without wrapping around. -/
def mean (getWeight : Nat → Int) : Int := (middle getWeight).sum.tdiv 80

/-- The `int`s that `getQuality` computes are exact. -/
structure NoOverflow (getWeight : Nat → Int) (unitWeight : Int) : Prop where
  sum : -2 ^ 31 ≤ (middle getWeight).sum ∧ (middle getWeight).sum < 2 ^ 31
  product : |mean getWeight - unitWeight| * (110 : Int).tdiv 18 < 2 ^ 31

/-- The factor is `6`. -/
theorem fQuality_eq {net : Int} (h : |net| * 6 < 2 ^ 31) :
    fQuality net = float (6 * |net| : Int) := by
  have hfactor : (110 : Int).tdiv 18 = 6 := rfl
  unfold fQuality
  rw [hfactor]
  split
  · next hpos =>
    rw [abs_of_pos hpos] at h ⊢
    rw [int_of_range (by omega) (by omega), mul_comm]
  · next hpos =>
    rw [abs_of_nonpos (by omega)] at h ⊢
    rw [int_int_mul, int_of_range (by omega) (by omega), mul_comm]

theorem getQuality_eq {getWeight : Nat → Int} {unitWeight : Int}
    (h : NoOverflow getWeight unitWeight) : getQuality getWeight unitWeight =
      valueOf (roundFloat (float (6 * |mean getWeight - unitWeight| : Int))) := by
  have hproduct : |mean getWeight - unitWeight| * 6 < 2 ^ 31 := h.product
  have hnet : int ((sum getWeight).tdiv 80 - unitWeight) = mean getWeight - unitWeight := by
    rw [sum_eq, int_of_range h.sum.1 h.sum.2, ← mean]
    have hle := le_abs_self (mean getWeight - unitWeight)
    have hneg := neg_abs_le (mean getWeight - unitWeight)
    exact int_of_range (by omega) (by omega)
  unfold getQuality
  rw [hnet, fQuality_eq hproduct]

/-- A `float` is at most `128` away from the `int` it is made of. -/
theorem roundFloat_float_le {n : Int} (h0 : 0 ≤ n) (h : n < 2 ^ 31) :
    roundFloat (float n) ≤ n + 128 := by
  have herror := Rounding.abs_nearest_sub_le 24 (n : ℚ)
  have hn : |(n : ℚ)| ≤ 2 ^ 31 := by
    rw [abs_of_nonneg (by exact_mod_cast h0)]
    exact_mod_cast h.le
  have hfloat : float n ≤ n + 128 := by
    have hsub := (le_abs_self _).trans herror
    unfold float
    linarith
  refine saturate_le ?_ (by omega)
  have hfloor : ⌊float n + 1 / 2⌋ ≤ ⌊((n + 128 : Int) : ℚ) + 1 / 2⌋ := by
    refine Int.floor_le_floor ?_
    push_cast
    linarith
  rwa [floor_intCast_add_half] at hfloor

/-- With the factor `110 / 18` as a fraction. -/
theorem floor_scaled (d : Int) : ⌊(d : ℚ) * (110 / 18) + 1 / 2⌋ = (110 * d + 9) / 18 := by
  have hvalue : (d : ℚ) * (110 / 18) + 1 / 2 = ((110 * d + 9 : Int) : ℚ) / ((18 : Nat) : ℚ) := by
    push_cast
    ring
  rw [hvalue, Rat.floor_intCast_div_natCast]
  rfl

theorem valueOf_inj {a b : Int} : valueOf a = valueOf b ↔ a = b := by
  constructor
  · intro h
    exact Int.repr_injective h
  · rintro rfl
    rfl

/-- **The weight is right exactly up to a difference of four units**: no rounding of a `float` makes
up for the factor. -/
theorem getQuality_iff {getWeight : Nat → Int} {unitWeight : Int}
    (h : NoOverflow getWeight unitWeight) :
    getQuality getWeight unitWeight =
        valueOf ⌊(|mean getWeight - unitWeight| : ℚ) * (110 / 18) + 1 / 2⌋ ↔
      |mean getWeight - unitWeight| ≤ 4 := by
  have hproduct : |mean getWeight - unitWeight| * 6 < 2 ^ 31 := h.product
  have hcast : (|mean getWeight - unitWeight| : ℚ) =
      ((|mean getWeight - unitWeight| : Int) : ℚ) := by
    push_cast
    rfl
  rw [getQuality_eq h, hcast, floor_scaled, valueOf_inj]
  have h0 := abs_nonneg (mean getWeight - unitWeight)
  generalize |mean getWeight - unitWeight| = d at hproduct h0 ⊢
  by_cases hsmall : 6 * d < 2 ^ 24
  · have habs : |6 * d| < 2 ^ 24 := by rwa [abs_of_nonneg (by omega)]
    rw [float_intCast habs, roundFloat_intCast (by omega) (by omega)]
    omega
  · have hle := roundFloat_float_le (n := 6 * d) (by omega) (by omega)
    omega

theorem getQuality_iff_three : NoOverflow (fun _ => 10) 7 ∧
    (getQuality (fun _ => 10) 7 = valueOf ⌊(|mean (fun _ => 10) - 7| : ℚ) * (110 / 18) + 1 / 2⌋ ↔
      |mean (fun _ => 10) - 7| ≤ 4) := by
  have h : NoOverflow (fun _ => 10) 7 := ⟨by decide +kernel, by decide +kernel⟩
  exact ⟨h, getQuality_iff h⟩

/-- With ten units on the scale and no tare the weight is `61`, and not `60`. -/
theorem not_forall_getQuality : ¬ ∀ (getWeight : Nat → Int) (unitWeight : Int),
    NoOverflow getWeight unitWeight → getQuality getWeight unitWeight =
      valueOf ⌊(|mean getWeight - unitWeight| : ℚ) * (110 / 18) + 1 / 2⌋ := by
  intro h
  have hno : NoOverflow (fun _ => 10) 0 := ⟨by decide +kernel, by decide +kernel⟩
  have hmean : mean (fun _ => 10) = 10 := by decide +kernel
  have heq := h (fun _ => 10) 0 hno
  have hvalue := floor_scaled 10
  rw [getQuality_eq hno, hmean] at heq
  rw [show (6 * |(10 : Int) - 0| : Int) = 60 from rfl, float_intCast (by decide),
    roundFloat_intCast (by decide) (by decide), valueOf_inj] at heq
  norm_num at heq

end PetDev.Weight
