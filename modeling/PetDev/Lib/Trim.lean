import Mathlib.Data.List.DropRight
import Mathlib.Data.List.Sort

/-!
# Trimmed lists

`trim n l` is the list `l` in order without its `n` least and its `n` greatest elements.

* `trim_perm`: the order of `l` does not matter.
* `bounds_of_mem_trim`: if at most `n` elements of `l` are outside an interval, all that is left
  is inside, wherever the others were.
-/

namespace Trim

variable {α : Type*}

/-- An initial segment of a list on which `P` holds has all the elements with `P`. -/
theorem not_of_mem_drop {P : α → Prop} [DecidablePred P] {l : List α} {n : ℕ}
    (hmono : l.Pairwise fun x y => P y → P x) (hcount : l.countP (fun x => P x) ≤ n) {x : α}
    (hx : x ∈ l.drop n) : ¬ P x := by
  induction l generalizing n with
  | nil => simp at hx
  | cons a l ih =>
    obtain ⟨ha, hl⟩ := List.pairwise_cons.mp hmono
    by_cases hPa : P a
    · rw [List.countP_cons_of_pos (by simpa using hPa)] at hcount
      obtain ⟨m, rfl⟩ := Nat.exists_eq_add_of_lt (show 0 < n by omega)
      rw [Nat.zero_add, List.drop_succ_cons] at hx
      exact ih hl (by omega) hx
    · -- `P` fails from here on
      rcases List.mem_cons.mp (List.mem_of_mem_drop hx) with rfl | hx
      · exact hPa
      · exact fun hPx => hPa (ha x hx hPx)

variable [LinearOrder α]

/-- The list in order without the `n` least and the `n` greatest elements. -/
def trim (n : ℕ) (l : List α) : List α := ((l.insertionSort (· ≤ ·)).drop n).rdrop n

theorem length_trim (n : ℕ) (l : List α) : (trim n l).length = l.length - n - n := by
  simp [trim, List.rdrop]

/-- The order of the list does not matter. -/
theorem trim_perm (n : ℕ) {l l' : List α} (h : l.Perm l') : trim n l = trim n l' := by
  have hperm : (l.insertionSort (· ≤ ·)).Perm (l'.insertionSort (· ≤ ·)) :=
    ((List.perm_insertionSort _ l).trans h).trans (List.perm_insertionSort _ l').symm
  have hsort := hperm.eq_of_sortedLE List.sortedLE_insertionSort List.sortedLE_insertionSort
  rw [trim, hsort, trim]

/-- **What is left is inside an interval that has all but `n` of the elements.** -/
theorem bounds_of_mem_trim {n : ℕ} {l : List α} {lo hi : α}
    (hcount : l.countP (fun x => ¬ (lo ≤ x ∧ x ≤ hi)) ≤ n) {x : α} (hx : x ∈ trim n l) :
    lo ≤ x ∧ x ≤ hi := by
  have hsorted : (l.insertionSort (· ≤ ·)).Pairwise (· ≤ ·) :=
    List.pairwise_insertionSort (· ≤ ·) l
  rw [← (List.perm_insertionSort (· ≤ ·) l).countP_eq] at hcount
  unfold trim at hx
  generalize l.insertionSort (· ≤ ·) = s at hsorted hcount hx
  constructor
  · have hlow : s.countP (fun x => x < lo) ≤ n := by
      refine (List.countP_mono_left fun y _ hy => ?_).trans hcount
      simp only [decide_eq_true_eq] at hy ⊢
      exact fun hin => absurd hin.1 hy.not_ge
    have hmono : s.Pairwise fun x y => y < lo → x < lo :=
      hsorted.imp fun hle hlt => hle.trans_lt hlt
    exact not_lt.mp (not_of_mem_drop hmono hlow (List.mem_of_mem_take hx))
  · -- the same from the other end
    have hhigh : s.reverse.countP (fun x => hi < x) ≤ n := by
      rw [List.countP_reverse]
      refine (List.countP_mono_left fun y _ hy => ?_).trans hcount
      simp only [decide_eq_true_eq] at hy ⊢
      exact fun hin => absurd hin.2 hy.not_ge
    have hmono : s.reverse.Pairwise fun x y => hi < y → hi < x :=
      List.pairwise_reverse.mpr (hsorted.imp fun hle hlt => hlt.trans_le hle)
    have hmem : x ∈ s.reverse.drop n := by
      rw [List.rdrop_eq_reverse_drop_reverse, List.mem_reverse, List.reverse_drop,
        List.drop_take] at hx
      exact List.mem_of_mem_take hx
    exact not_lt.mp (not_of_mem_drop hmono hhigh hmem)

end Trim
