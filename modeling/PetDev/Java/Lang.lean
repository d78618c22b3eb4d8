import Mathlib.Data.Int.Basic
import Mathlib.Order.Basic
import Mathlib.Tactic.Ring

/-!
# The parts of `java.lang` the application uses

Java's `int` and `long` are integers with explicit wrap-around: `int x` and
`long x` bring an exact result back into 32 and 64 bits.  `parseInt` and
`hashCode` follow the documented behaviour of `Integer.parseInt` and
`String.hashCode`; `none` stands for a thrown exception, and also for a `null`
reference.
-/

namespace PetDev.Java

/-! ## Machine integers -/

/-- Wrap-around to a 32-bit `int`. -/
def int (x : Int) : Int := (x + 2 ^ 31) % 2 ^ 32 - 2 ^ 31

/-- Wrap-around to a 64-bit `long`. -/
def long (x : Int) : Int := (x + 2 ^ 63) % 2 ^ 64 - 2 ^ 63

theorem int_of_range {x : Int} (h : -2 ^ 31 ≤ x) (h' : x < 2 ^ 31) : int x = x := by
  unfold int
  omega

/-- Wrap-around takes off a multiple of `2 ^ 32`. -/
theorem exists_int_eq (x : Int) : ∃ k, int x = x + 2 ^ 32 * k := by
  refine ⟨-((x + 2 ^ 31) / 2 ^ 32), ?_⟩
  have := Int.mul_ediv_add_emod (x + 2 ^ 31) (2 ^ 32)
  unfold int
  omega

theorem int_add_mul (x k : Int) : int (x + 2 ^ 32 * k) = int x := by
  unfold int
  omega

/-! Wrap-around on the way does not change the result: each lemma removes one. -/

@[simp] theorem int_int_add (x y : Int) : int (int x + y) = int (x + y) := by
  obtain ⟨k, hk⟩ := exists_int_eq x
  rw [hk, add_right_comm, int_add_mul]

@[simp] theorem int_add_int (x y : Int) : int (x + int y) = int (x + y) := by
  rw [add_comm, int_int_add, add_comm]

@[simp] theorem int_int_sub (x y : Int) : int (int x - y) = int (x - y) := by
  rw [sub_eq_add_neg, int_int_add, ← sub_eq_add_neg]

@[simp] theorem int_sub_int (x y : Int) : int (x - int y) = int (x - y) := by
  obtain ⟨k, hk⟩ := exists_int_eq y
  rw [hk, show x - (y + 2 ^ 32 * k) = x - y + 2 ^ 32 * -k by ring, int_add_mul]

@[simp] theorem int_int_mul (x y : Int) : int (int x * y) = int (x * y) := by
  obtain ⟨k, hk⟩ := exists_int_eq x
  rw [hk, show (x + 2 ^ 32 * k) * y = x * y + 2 ^ 32 * (k * y) by ring, int_add_mul]

@[simp] theorem int_mul_int (x y : Int) : int (x * int y) = int (x * y) := by
  rw [mul_comm, int_int_mul, mul_comm]

/-! ## Strings -/

/-- The UTF-16 code units of a character. -/
def utf16 (c : Char) : List Nat :=
  if c.toNat < 0x10000 then [c.toNat]
  else [0xD800 + (c.toNat - 0x10000) / 1024, 0xDC00 + (c.toNat - 0x10000) % 1024]

/-- `String.hashCode`. -/
def hashCode (s : String) : Int :=
  (s.toList.flatMap utf16).foldl (fun h (c : Nat) => int (31 * h + c)) 0

/-- `String.valueOf(long)`. -/
def valueOf (x : Int) : String := toString x

/-- The digit `0` of every decimal digit block of the basic plane, for `Character.digit`. -/
def decimalZeros : List Nat :=
  [0x0030, 0x0660, 0x06F0, 0x07C0, 0x0966, 0x09E6, 0x0A66, 0x0AE6, 0x0B66, 0x0BE6, 0x0C66, 0x0CE6,
    0x0D66, 0x0DE6, 0x0E50, 0x0ED0, 0x0F20, 0x1040, 0x1090, 0x17E0, 0x1810, 0x1946, 0x19D0, 0x1A80,
    0x1A90, 0x1B50, 0x1BB0, 0x1C40, 0x1C50, 0xA620, 0xA8D0, 0xA900, 0xA9D0, 0xA9F0, 0xAA50, 0xABF0,
    0xFF10]

/-- `Character.digit(c, 10)`. -/
def digit (c : Char) : Option Nat :=
  (decimalZeros.find? fun z => z ≤ c.toNat && c.toNat < z + 10).map (c.toNat - ·)

/-- The value of a nonempty list of digits. -/
def parseDigits : List Char → Option Nat
  | [] => none
  | cs => cs.foldlM (fun n c => (digit c).map (10 * n + ·)) 0

/-- An exact value that has to be an `int`. -/
def checkInt (x : Int) : Option Int := if -2 ^ 31 ≤ x ∧ x < 2 ^ 31 then some x else none

/-- `Integer.parseInt`; `none` is the `NumberFormatException`. -/
def parseInt : Option String → Option Int
  | none => none
  | some s =>
    match s.toList with
    | '-' :: cs => (parseDigits cs).bind fun n => checkInt (-n)
    | '+' :: cs => (parseDigits cs).bind fun n => checkInt n
    | cs => (parseDigits cs).bind fun n => checkInt n

example : parseInt (some "-2147483648") = some (-2147483648) ∧ parseInt (some "2147483648") = none ∧
    parseInt (some "+3") = some 3 ∧ parseInt (some "3 ") = none := by decide +kernel

theorem checkInt_eq_some {x n : Int} (h : checkInt x = some n) :
    n = x ∧ -2 ^ 31 ≤ n ∧ n < 2 ^ 31 := by
  unfold checkInt at h
  split at h
  · next hx =>
    obtain rfl := Option.some.inj h
    exact ⟨rfl, hx⟩
  · cases h

/-- What `Integer.parseInt` accepts is an `int`. -/
theorem parseInt_range {s : Option String} {n : Int} (h : parseInt s = some n) :
    -2 ^ 31 ≤ n ∧ n < 2 ^ 31 := by
  cases s with
  | none => cases h
  | some s =>
    simp only [parseInt] at h
    split at h <;>
    · obtain ⟨k, -, hk⟩ := Option.bind_eq_some_iff.mp h
      exact (checkInt_eq_some hk).2

end PetDev.Java
