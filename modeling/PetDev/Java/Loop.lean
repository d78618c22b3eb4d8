import PetDev.Java.Lang
import Mathlib.Algebra.Order.Ring.Int

/-!
# Loops, arrays and division

The pieces of a Java method that can throw: reading or writing an array outside its bounds,
a negative array size and a division by zero.  A `for` loop over `0, 1, .., n - 1` stops at
the first exception.

`forRange_spec` is the rule for a loop that does not throw: every round keeps the
invariant.
-/

namespace PetDev.Java

variable {σ τ α : Type*}

/-- `for (int i = 0; i < n; i++)`. -/
def forRange (n : Int) (body : Int → σ → Option σ) (s : σ) : Option σ :=
  (List.range n.toNat).foldlM (fun s (i : Nat) => body i s) s

/-- `array[i]`. -/
def read (array : Array α) (i : Int) : Option α :=
  if 0 ≤ i then array[i.toNat]? else none

/-- `array[i] = v`. -/
def write (array : Array α) (i : Int) (v : α) : Option (Array α) :=
  if 0 ≤ i ∧ i < array.size then some (array.setIfInBounds i.toNat v) else none

/-- `new int[n]`, and the arrays of other types: all elements are `v`. -/
def newArray (n : Int) (v : α) : Option (Array α) :=
  if 0 ≤ n then some (Array.replicate n.toNat v) else none

/-- The division of `int`s, which rounds towards zero. -/
def div (a b : Int) : Option Int := if b = 0 then none else some (int (a.tdiv b))

/-- `Math.abs`. -/
def abs (a : Int) : Int := int |a|

theorem abs_int_sub {a b : Int} (ha0 : 0 ≤ a) (ha : a < 2 ^ 31) (hb0 : 0 ≤ b) (hb : b < 2 ^ 31) :
    abs (int (a - b)) = |a - b| := by
  have habs : |a - b| < 2 ^ 31 := abs_lt.mpr ⟨by omega, by omega⟩
  have habs0 := abs_nonneg (a - b)
  have hsub : int (a - b) = a - b := int_of_range (by omega) (by omega)
  unfold abs
  rw [hsub, int_of_range (by omega) habs]

/-- **The rule for loops.** -/
theorem forRange_spec (I : Int → σ → Prop) {n : Int} {body : Int → σ → Option σ} {s : σ}
    (hn : 0 ≤ n) (h0 : I 0 s)
    (hstep : ∀ i s, 0 ≤ i → i < n → I i s → ∃ t, body i s = some t ∧ I (i + 1) t) :
    ∃ t, forRange n body s = some t ∧ I n t := by
  obtain ⟨k, rfl⟩ := Int.eq_ofNat_of_zero_le hn
  have h : ∀ j, j ≤ k → ∃ t,
      (List.range j).foldlM (fun s (i : Nat) => body i s) s = some t ∧ I j t := by
    intro j
    induction j with
    | zero => exact fun _ => ⟨s, rfl, h0⟩
    | succ j ih =>
      intro hj
      obtain ⟨t, ht, hI⟩ := ih (Nat.le_of_succ_le hj)
      obtain ⟨u, hu, hI'⟩ := hstep j t (Int.natCast_nonneg j) (Int.ofNat_lt.mpr hj) hI
      refine ⟨u, ?_, hI'⟩
      rw [List.range_succ, List.foldlM_append, ht]
      simp [hu]
  exact h k le_rfl

/-- A loop that sets a flag, and keeps something else in shape. -/
theorem forRange_flag (J : τ → Prop) (P : Int → Prop) {n : Int}
    {body : Int → τ × Bool → Option (τ × Bool)} (hn : 0 ≤ n)
    (hbody : ∀ i acc, 0 ≤ i → i < n → J acc.1 →
      ∃ r, body i acc = some r ∧ J r.1 ∧ (r.2 = true ↔ acc.2 = true ∨ P i))
    {acc : τ × Bool} (hacc : J acc.1) :
    ∃ r, forRange n body acc = some r ∧ J r.1 ∧
      (r.2 = true ↔ acc.2 = true ∨ ∃ i, 0 ≤ i ∧ i < n ∧ P i) := by
  refine forRange_spec
    (fun j (r : τ × Bool) => J r.1 ∧ (r.2 = true ↔ acc.2 = true ∨ ∃ i, 0 ≤ i ∧ i < j ∧ P i)) hn ?_ ?_
  · refine ⟨hacc, (or_iff_left ?_).symm⟩
    rintro ⟨i, h0, hi, -⟩
    omega
  · intro j r h0 hj hr
    obtain ⟨r', hr', hJ, hiff⟩ := hbody j r h0 hj hr.1
    refine ⟨r', hr', hJ, ?_⟩
    rw [hiff, hr.2, or_assoc]
    refine or_congr_right ?_
    constructor
    · rintro (⟨i, hi0, hi, hP⟩ | hP)
      · exact ⟨i, hi0, by omega, hP⟩
      · exact ⟨j, h0, by omega, hP⟩
    · rintro ⟨i, hi0, hi, hP⟩
      rcases Int.lt_or_eq_of_le (Int.lt_add_one_iff.mp hi) with hlt | rfl
      · exact Or.inl ⟨i, hi0, hlt, hP⟩
      · exact Or.inr hP

/-- Two nested loops are one loop, the index of the inner one running faster. -/
theorem forRange_forRange (n m : Int) (f : Int → Int → α) (step : σ → α → Option σ)
    (s : σ) :
    forRange n (fun i s => forRange m (fun j s => step s (f i j)) s) s =
      ((List.range n.toNat).flatMap fun (i : Nat) =>
        (List.range m.toNat).map fun (j : Nat) => f i j).foldlM step s := by
  unfold forRange
  induction List.range n.toNat generalizing s with
  | nil => rfl
  | cons i is ih =>
    rw [List.foldlM_cons, List.flatMap_cons, List.foldlM_append, List.foldlM_map]
    refine bind_congr fun t => ?_
    exact ih t

theorem div_eq_some {a b : Int} (h : b ≠ 0) : div a b = some (int (a.tdiv b)) := if_neg h

/-- Two nested loops that do not use their indices are one. -/
theorem forRange_nested {n m : Int} (hn : 0 ≤ n) (hm : 0 ≤ m) (step : σ → Option σ) (s : σ) :
    forRange n (fun _ s => forRange m (fun _ s => step s) s) s =
      forRange (n * m) (fun _ s => step s) s := by
  have hlength : ((List.range n.toNat).flatMap fun _ =>
      (List.range m.toNat).map fun _ => ()).length = (List.range (n * m).toNat).length := by
    rw [List.length_flatMap]
    simp only [List.length_range, List.map_const', List.length_replicate,
      List.sum_replicate_nat]
    exact (Int.toNat_mul hn hm).symm
  -- only the number of rounds matters
  have hrounds : ∀ (ls : List Unit) (ks : List Nat), ls.length = ks.length → ∀ s : σ,
      ls.foldlM (fun s _ => step s) s = ks.foldlM (fun s _ => step s) s := by
    intro ls
    induction ls with
    | nil =>
      intro ks hks s
      rw [List.length_eq_zero_iff.mp hks.symm]
      rfl
    | cons l ls ih =>
      intro ks hks s
      cases ks with
      | nil => cases hks
      | cons k ks =>
        rw [List.foldlM_cons, List.foldlM_cons]
        refine bind_congr fun t => ?_
        exact ih ks (Nat.succ.inj hks) t
  rw [forRange_forRange n m (fun _ _ => ()) (fun s _ => step s)]
  exact hrounds _ _ hlength s

/-! ## Arrays -/

theorem read_eq_some {array : Array α} {i : Int} (h0 : 0 ≤ i) (h : i < array.size) :
    ∃ v, read array i = some v := by
  have hlt : i.toNat < array.size := by omega
  refine ⟨array[i.toNat], ?_⟩
  unfold read
  rw [if_pos h0]
  exact Array.getElem?_eq_getElem hlt

theorem write_eq_some {array : Array α} {i : Int} (h0 : 0 ≤ i) (h : i < array.size) (v : α) :
    write array i v = some (array.setIfInBounds i.toNat v) := if_pos ⟨h0, h⟩

theorem newArray_eq_some {n : Int} (h : 0 ≤ n) (v : α) :
    newArray n v = some (Array.replicate n.toNat v) := if_pos h

/-- The first `k` of the `n` elements have been set to `f`. -/
structure Filled (array : Array α) (n k : Int) (f : Int → α) : Prop where
  size : (array.size : Int) = n
  get : ∀ i, 0 ≤ i → i < k → read array i = some (f i)

theorem exists_filled {n : Int} (hn : 0 ≤ n) (v : α) (f : Int → α) :
    ∃ array, newArray n v = some array ∧ Filled array n 0 f := by
  refine ⟨Array.replicate n.toNat v, newArray_eq_some hn v, ?_, fun i h0 hi => by omega⟩
  rw [Array.size_replicate]
  exact Int.toNat_of_nonneg hn

theorem Filled.exists_write {array : Array α} {n k : Int} {f : Int → α} (h : Filled array n k f)
    (hk0 : 0 ≤ k) (hk : k < n) :
    ∃ array', write array k (f k) = some array' ∧ Filled array' n (k + 1) f := by
  refine ⟨_, write_eq_some hk0 (hk.trans_eq h.size.symm) (f k), ?_, fun i hi0 hi => ?_⟩
  · rw [Array.size_setIfInBounds]
    exact h.size
  · unfold read
    rw [if_pos hi0, Array.getElem?_setIfInBounds]
    have hsize := h.size
    by_cases hik : k.toNat = i.toNat
    · rw [if_pos hik, if_pos (by omega), show i = k by omega]
    · have hread := h.get i hi0 (by omega)
      unfold read at hread
      rw [if_pos hi0] at hread
      rw [if_neg hik]
      exact hread

/-- All elements have been set. -/
theorem Filled.eq {array : Array α} {n : Int} {f : Int → α} (h : Filled array n n f) :
    array = ((List.range n.toNat).map fun (i : Nat) => f i).toArray := by
  have hsize := h.size
  refine Array.ext_getElem? fun i => ?_
  simp only [List.getElem?_toArray, List.getElem?_map]
  by_cases hi : i < n.toNat
  · have hread := h.get i (Int.natCast_nonneg i) (by omega)
    unfold read at hread
    rw [if_pos (Int.natCast_nonneg i), Int.toNat_natCast] at hread
    rw [hread, List.getElem?_range hi, Option.map_some]
  · rw [Array.getElem?_eq_none (by omega), List.getElem?_eq_none (by simpa using hi),
      Option.map_none]

end PetDev.Java
