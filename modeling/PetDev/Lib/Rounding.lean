import Mathlib.Algebra.Order.Floor.Ring
import Mathlib.Algebra.Order.Ring.Abs
import Mathlib.Data.Int.Log
import Mathlib.Algebra.Order.Field.Power
import Mathlib.Tactic.GCongr
import Mathlib.Tactic.Linarith
import Mathlib.Tactic.NormNum
import Mathlib.Tactic.Positivity
import Mathlib.Tactic.Ring

/-!
# Rounding to a number of binary digits

`nearest p x` is the number nearest to `x` among those with a significand of `p` binary digits,
an even significand being preferred in the middle between two.  The exponent is unbounded, so
the numbers of a binary floating-point format are meant up to overflow and underflow.

* `nearest_eq_self`: a number with a significand of `p` digits is kept.
* `abs_nearest_sub_le`: the relative error is at most `2 ^ -p`.
-/

namespace Rounding

variable {K : Type*} [Field K] [LinearOrder K] [IsStrictOrderedRing K] [FloorRing K]

/-- The nearest integer, and the even one in the middle between two. -/
def roundEven (x : K) : ℤ :=
  if Int.fract x < 1 / 2 then ⌊x⌋
  else if 1 / 2 < Int.fract x then ⌊x⌋ + 1
  else if Even ⌊x⌋ then ⌊x⌋ else ⌊x⌋ + 1

@[simp] theorem roundEven_intCast (n : ℤ) : roundEven (n : K) = n := by
  simp [roundEven]

theorem abs_roundEven_sub_le (x : K) : |(roundEven x : K) - x| ≤ 1 / 2 := by
  have hfloor := Int.floor_add_fract x
  have h0 := Int.fract_nonneg x
  have h1 := (Int.fract_lt_one x).le
  rw [abs_le]
  unfold roundEven
  split_ifs with hlow hhigh heven
  · constructor <;> linarith
  · push_cast
    constructor <;> linarith
  · constructor <;> linarith
  · push_cast
    constructor <;> linarith

/-- The exponent with which the significand of `x` has `p` digits. -/
def exponent (p : ℕ) (x : K) : ℤ := Int.log 2 |x| + 1 - p

/-- The nearest number with a significand of `p` digits. -/
def nearest (p : ℕ) (x : K) : K := roundEven (x / 2 ^ exponent p x) * 2 ^ exponent p x

@[simp] theorem nearest_zero (p : ℕ) : nearest p (0 : K) = 0 := by
  simp [nearest, roundEven]

/-- **What has `p` digits is kept.** -/
theorem nearest_eq_self {p : ℕ} {m k : ℤ} (hm : |m| < 2 ^ p) :
    nearest p ((m : K) * 2 ^ k) = m * 2 ^ k := by
  rcases eq_or_ne m 0 with rfl | hne
  · simp
  have htwo : (2 : K) ≠ 0 := two_ne_zero
  have hpos : 0 < |(m : K) * 2 ^ k| := by
    have : (m : K) ≠ 0 := Int.cast_ne_zero.mpr hne
    positivity
  -- the exponent is not above `k`
  have hexp : exponent p ((m : K) * 2 ^ k) ≤ k := by
    have hlt : |(m : K) * 2 ^ k| < 2 ^ ((p : ℤ) + k) := by
      rw [abs_mul, abs_of_pos (zpow_pos (zero_lt_two' K) k), zpow_add₀ htwo, zpow_natCast]
      have hm' : |(m : K)| < 2 ^ p := by exact_mod_cast hm
      gcongr
    have hle := Int.zpow_log_le_self (R := K) one_lt_two hpos
    have hlog : Int.log 2 |(m : K) * 2 ^ k| < p + k :=
      (zpow_lt_zpow_iff_right₀ (one_lt_two : (1 : K) < 2)).mp (by exact_mod_cast hle.trans_lt hlt)
    unfold exponent
    omega
  obtain ⟨j, hj⟩ := Int.eq_ofNat_of_zero_le (sub_nonneg.mpr hexp)
  have hint : (m : K) * 2 ^ k / 2 ^ exponent p ((m : K) * 2 ^ k) = ((m * 2 ^ j : ℤ) : K) := by
    rw [mul_div_assoc, ← zpow_sub₀ htwo, hj]
    push_cast
    rw [zpow_natCast]
  unfold nearest
  rw [hint, roundEven_intCast, ← hint, div_mul_cancel₀]
  exact zpow_ne_zero _ htwo

theorem nearest_intCast {p : ℕ} {n : ℤ} (hn : |n| < 2 ^ p) : nearest p (n : K) = n := by
  simpa using nearest_eq_self (K := K) (k := 0) hn

/-- **The relative error of rounding.** -/
theorem abs_nearest_sub_le (p : ℕ) (x : K) : |nearest p x - x| ≤ |x| / 2 ^ p := by
  rcases eq_or_ne x 0 with rfl | hx
  · simp
  have htwo : (2 : K) ≠ 0 := two_ne_zero
  have hunit : (0 : K) < 2 ^ exponent p x := zpow_pos zero_lt_two _
  have hsplit : nearest p x - x =
      (roundEven (x / 2 ^ exponent p x) - x / 2 ^ exponent p x) * 2 ^ exponent p x := by
    rw [sub_mul, div_mul_cancel₀ _ hunit.ne']
    rfl
  have hhalf : (1 / 2 : K) * 2 ^ exponent p x = 2 ^ Int.log 2 |x| / 2 ^ p := by
    rw [exponent, zpow_sub₀ htwo, zpow_add₀ htwo, zpow_natCast, zpow_one]
    ring
  have hlog : (2 : K) ^ Int.log 2 |x| ≤ |x| := by
    exact_mod_cast Int.zpow_log_le_self (R := K) one_lt_two (abs_pos.mpr hx)
  calc |nearest p x - x|
      = |(roundEven (x / 2 ^ exponent p x) : K) - x / 2 ^ exponent p x| * 2 ^ exponent p x := by
        rw [hsplit, abs_mul, abs_of_pos hunit]
    _ ≤ 1 / 2 * 2 ^ exponent p x :=
        mul_le_mul_of_nonneg_right (abs_roundEven_sub_le _) hunit.le
    _ = 2 ^ Int.log 2 |x| / 2 ^ p := hhalf
    _ ≤ |x| / 2 ^ p := by gcongr

end Rounding
