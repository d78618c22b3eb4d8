import Mathlib.Data.List.TakeDrop

/-!
# Blocks of memory

A block is the list of its cells.  Writing past its end is a fault, `none`.
-/

namespace PetDev

variable {α : Type*}

/-- `memcpy(dest + offset, src, n)`, where `src` are the `n` items read. -/
def memcpy (dest : List α) (offset : Nat) (src : List α) : Option (List α) :=
  if offset + src.length ≤ dest.length then
    some (dest.take offset ++ src ++ dest.drop (offset + src.length))
  else none

theorem memcpy_of_le {dest src : List α} {offset : Nat}
    (h : offset + src.length ≤ dest.length) :
    memcpy dest offset src =
      some (dest.take offset ++ src ++ dest.drop (offset + src.length)) := if_pos h

theorem memcpy_eq_none_iff {dest src : List α} {offset : Nat} :
    memcpy dest offset src = none ↔ dest.length < offset + src.length := by
  unfold memcpy
  split_ifs with h <;> simp <;> omega

/-- Writing does not change the size of the block. -/
theorem length_of_memcpy {dest src dest' : List α} {offset : Nat}
    (h : memcpy dest offset src = some dest') : dest'.length = dest.length := by
  unfold memcpy at h
  split_ifs at h with hle
  obtain rfl := Option.some.inj h
  simp only [List.length_append, List.length_take, List.length_drop]
  omega

/-- What stands before the end of what was written: the cells before it, and it. -/
theorem take_of_memcpy {dest src dest' : List α} {offset : Nat}
    (h : memcpy dest offset src = some dest') :
    dest'.take (offset + src.length) = dest.take offset ++ src := by
  unfold memcpy at h
  split_ifs at h with hle
  obtain rfl := Option.some.inj h
  apply List.take_left'
  simp only [List.length_append, List.length_take]
  omega

/-- The `n` items from `offset` on. -/
def readBlock (src : List α) (offset n : Nat) : Option (List α) :=
  if offset + n ≤ src.length then some ((src.drop offset).take n) else none

end PetDev
