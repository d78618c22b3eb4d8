import Mathlib.Data.List.Induction
import Mathlib.Logic.Function.Basic

/-!
# Stores that keep the last write

A store maps keys to values; a `Change` writes or erases one key.  `lastWrite key cs` is read
off the history `cs` alone: the most recent change of `key`, if it is a write.

`after_eq_lastWrite`: the store after the history holds just that.  `lastWrite_filter`: the
changes of other keys do not matter.
-/

namespace KeyStore

variable {κ ν : Type*}

/-- A change of one key. -/
inductive Change (κ ν : Type*) where
  | write (key : κ) (value : ν)
  | erase (key : κ)

def Change.key : Change κ ν → κ
  | .write key _ => key
  | .erase key => key

/-- What is left under the key. -/
def Change.value : Change κ ν → Option ν
  | .write _ value => some value
  | .erase _ => none

variable [DecidableEq κ]

def apply (s : κ → Option ν) (c : Change κ ν) : κ → Option ν :=
  Function.update s c.key c.value

/-- The store after a history, from the empty one. -/
def after (cs : List (Change κ ν)) : κ → Option ν := cs.foldl apply fun _ => none

/-- The most recent write under `key` that has not been erased. -/
def lastWrite (key : κ) (cs : List (Change κ ν)) : Option ν :=
  (cs.reverse.find? fun c => c.key = key).bind Change.value

/-! ## One change more -/

@[simp] theorem apply_self (s : κ → Option ν) (c : Change κ ν) : apply s c c.key = c.value :=
  Function.update_self ..

theorem apply_of_ne (s : κ → Option ν) {c : Change κ ν} {key : κ} (h : c.key ≠ key) :
    apply s c key = s key :=
  Function.update_of_ne h.symm ..

theorem lastWrite_concat_self (cs : List (Change κ ν)) (c : Change κ ν) :
    lastWrite c.key (cs ++ [c]) = c.value := by
  simp [lastWrite]

theorem lastWrite_concat_of_ne (cs : List (Change κ ν)) {c : Change κ ν} {key : κ}
    (h : c.key ≠ key) : lastWrite key (cs ++ [c]) = lastWrite key cs := by
  simp [lastWrite, h]

/-! ## The store is its history -/

/-- **The store holds the last write.** -/
theorem after_eq_lastWrite (cs : List (Change κ ν)) (key : κ) :
    after cs key = lastWrite key cs := by
  induction cs using List.reverseRecOn with
  | nil => rfl
  | append_singleton cs c ih =>
    rw [after, List.foldl_append]
    by_cases h : c.key = key
    · subst h
      rw [lastWrite_concat_self]
      exact apply_self _ c
    · rw [lastWrite_concat_of_ne cs h, ← ih]
      exact apply_of_ne _ h

/-- Histories with the same changes of `key` leave the same under it. -/
theorem lastWrite_filter (key : κ) (cs : List (Change κ ν)) :
    lastWrite key (cs.filter fun c => c.key = key) = lastWrite key cs := by
  induction cs using List.reverseRecOn with
  | nil => rfl
  | append_singleton cs c ih =>
    rw [List.filter_append]
    by_cases h : c.key = key
    · have hkept : [c].filter (fun c => c.key = key) = [c] := by simp [h]
      subst h
      rw [hkept, lastWrite_concat_self, lastWrite_concat_self]
    · have hdropped : [c].filter (fun c => c.key = key) = [] := by simp [h]
      rw [hdropped, List.append_nil, lastWrite_concat_of_ne cs h, ih]

end KeyStore
