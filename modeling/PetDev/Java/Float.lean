import Mathlib.Algebra.Order.Field.Rat
import Mathlib.Data.Rat.Floor
import PetDev.Java.Lang
import PetDev.Lib.Rounding

/-!
# `float`s and `double`s

The finite values of Java's `float` and `double` are rational numbers; `float x` and
`double x` round an exact result to one of them.  Nothing here comes near their largest and
smallest exponents, which are left out.

`Math.round` and the casts to `int` stop at the ends of the range of the type.
-/

namespace PetDev.Java

def float (x : ℚ) : ℚ := Rounding.nearest 24 x

def double (x : ℚ) : ℚ := Rounding.nearest 53 x

/-- The value of a type of `bits` bits next to `n`. -/
def saturate (bits : Nat) (n : Int) : Int := max (-2 ^ (bits - 1)) (min n (2 ^ (bits - 1) - 1))

/-- `Math.round(float)`: the nearest `int`, upwards in the middle between two. -/
def roundFloat (x : ℚ) : Int := saturate 32 ⌊x + 1 / 2⌋

/-- `Math.round(double)`: the nearest `long`. -/
def roundDouble (x : ℚ) : Int := saturate 64 ⌊x + 1 / 2⌋

/-- `(int) x`, for a `float` or `double` `x`. -/
def truncate (x : ℚ) : Int := saturate 32 (if 0 ≤ x then ⌊x⌋ else ⌈x⌉)

theorem saturate_of_range {bits : Nat} {n : Int} (h : -2 ^ (bits - 1) ≤ n)
    (h' : n < 2 ^ (bits - 1)) : saturate bits n = n := by
  unfold saturate
  rw [min_eq_left (by omega), max_eq_right h]

theorem saturate_le {bits : Nat} {n m : Int} (h : n ≤ m) (hm : -2 ^ (bits - 1) ≤ m) :
    saturate bits n ≤ m :=
  max_le hm ((min_le_left _ _).trans h)

/-- Integers up to 24 digits are `float`s. -/
theorem float_intCast {n : Int} (h : |n| < 2 ^ 24) : float n = n := Rounding.nearest_intCast h

/-- Halves of integers up to 53 digits are `double`s. -/
theorem double_half {n : Int} (h : |n| < 2 ^ 53) : double ((n : ℚ) / 2) = (n : ℚ) / 2 := by
  have hself := Rounding.nearest_eq_self (K := ℚ) (k := -1) h
  rwa [zpow_neg_one, ← div_eq_mul_inv] at hself

theorem double_intCast {n : Int} (h : |n| < 2 ^ 53) : double n = n := Rounding.nearest_intCast h

theorem truncate_intCast {n : Int} (h : -2 ^ 31 ≤ n) (h' : n < 2 ^ 31) : truncate n = n := by
  unfold truncate
  rw [Int.floor_intCast, Int.ceil_intCast, ite_self]
  exact saturate_of_range h h'

theorem floor_intCast_add_half (n : Int) : ⌊(n : ℚ) + 1 / 2⌋ = n := by
  rw [Int.floor_intCast_add]
  norm_num

theorem roundFloat_intCast {n : Int} (h : -2 ^ 31 ≤ n) (h' : n < 2 ^ 31) : roundFloat n = n := by
  rw [roundFloat, floor_intCast_add_half]
  exact saturate_of_range h h'

end PetDev.Java
