import Mathlib.Data.List.Basic
import Mathlib.Data.List.InsertIdx
import Mathlib.Data.Nat.Init

/-!
# Changes of a list

A `ListChange` says where a list has changed without saying what is there now: rows were
inserted, removed, changed or one was moved.  `Applies c l l'`: the list `l'` can come from `l` by
the change `c`.  `Replays cs l l'`: it can come from `l` by the changes of `cs`, one after the
other, so that somebody who holds `l` and looks up what was inserted or changed holds `l'`.

* `applies_inserted`, `applies_removed`: changes in the middle of a list.
* `applies_moved_iff`: exchanging two rows is moving one of them exactly when the rows that the
  move shifts are all equal.
-/

/-- A change of a list, by its positions. -/
inductive ListChange where
  | inserted (i n : Nat)
  | removed (i n : Nat)
  | moved (i j : Nat)
  | changed (i : Nat)
  | everything
  deriving DecidableEq, Repr

namespace ListChange

variable {α : Type*}

/-- `l'` can come from `l` by the change. -/
def Applies : ListChange → List α → List α → Prop
  | inserted i n, l, l' => ∃ new : List α, new.length = n ∧ i ≤ l.length ∧
      l' = l.take i ++ new ++ l.drop i
  | removed i n, l, l' => i + n ≤ l.length ∧ l' = l.take i ++ l.drop (i + n)
  | moved i j, l, l' => j < l.length ∧ ∃ a, l[i]? = some a ∧ l' = (l.eraseIdx i).insertIdx j a
  | changed i, l, l' => i < l.length ∧ ∃ a, l' = l.set i a
  | everything, _, _ => True

/-- `l'` can come from `l` by the changes, one after the other. -/
def Replays : List ListChange → List α → List α → Prop
  | [], l, l' => l = l'
  | c :: cs, l, l' => ∃ m, c.Applies l m ∧ Replays cs m l'

theorem replays_append {cs cs' : List ListChange} {l l' : List α} :
    Replays (cs ++ cs') l l' ↔ ∃ m, Replays cs l m ∧ Replays cs' m l' := by
  induction cs generalizing l with
  | nil => exact ⟨fun h => ⟨l, rfl, h⟩, fun ⟨_, he, h⟩ => he ▸ h⟩
  | cons c cs ih =>
    constructor
    · rintro ⟨m, hc, h⟩
      obtain ⟨m', hm, h'⟩ := ih.mp h
      exact ⟨m', ⟨m, hc, hm⟩, h'⟩
    · rintro ⟨m', ⟨m, hc, hm⟩, h'⟩
      exact ⟨m, hc, ih.mpr ⟨m', hm, h'⟩⟩

theorem replays_singleton {c : ListChange} {l l' : List α} :
    Replays [c] l l' ↔ c.Applies l l' :=
  ⟨fun ⟨_, h, he⟩ => he ▸ h, fun h => ⟨l', h, rfl⟩⟩

/-! ## Rows are inserted and removed -/

theorem applies_inserted (front back new : List α) {n : Nat} (h : new.length = n) :
    Applies (inserted front.length n) (front ++ back) (front ++ new ++ back) :=
  ⟨new, h, by simp, by simp⟩

theorem applies_removed (front back old : List α) {n : Nat} (h : old.length = n) :
    Applies (removed front.length n) (front ++ old ++ back) (front ++ back) := by
  subst h
  refine ⟨by simp, ?_⟩
  rw [← List.length_append, List.drop_left, List.append_assoc, List.take_left]

theorem length_of_applies_inserted {i n : Nat} {l l' : List α}
    (h : Applies (inserted i n) l l') : i ≤ l.length ∧ l'.length = l.length + n := by
  obtain ⟨new, rfl, hi, rfl⟩ := h
  refine ⟨hi, ?_⟩
  simp only [List.length_append, List.length_take, List.length_drop]
  omega

/-- The last row cannot have been inserted behind the last one. -/
theorem not_replays_inserted_length (cs : List ListChange) (l l' : List α) :
    ¬ Replays (cs ++ [inserted l'.length 1]) l l' := by
  intro h
  obtain ⟨m, -, hlast⟩ := replays_append.mp h
  obtain ⟨hle, hlength⟩ := length_of_applies_inserted (replays_singleton.mp hlast)
  omega

theorem applies_changed_last (front : List α) (a b : α) :
    Applies (changed front.length) (front ++ [a]) (front ++ [b]) :=
  ⟨by simp, b, by simp⟩

/-! ## Rows are exchanged -/

/-- The rows `i` and `j` change places. -/
def swap (l : List α) (i j : Nat) : Option (List α) := do
  let a ← l[i]?
  let b ← l[j]?
  return (l.set j a).set i b

theorem swap_eq_some {l l' : List α} {i j : Nat} :
    swap l i j = some l' ↔ ∃ a b, l[i]? = some a ∧ l[j]? = some b ∧ l' = (l.set j a).set i b := by
  simp only [swap, Option.bind_eq_bind, Option.bind_eq_some_iff, Option.pure_def, Option.some.injEq]
  constructor
  · rintro ⟨a, ha, b, hb, rfl⟩
    exact ⟨a, b, ha, hb, rfl⟩
  · rintro ⟨a, b, ha, hb, rfl⟩
    exact ⟨a, ha, b, hb, rfl⟩

theorem getElem?_swap {l l' : List α} {i j : Nat} (h : swap l i j = some l') (k : Nat) :
    l'[k]? = if k = i then l[j]? else if k = j then l[i]? else l[k]? := by
  obtain ⟨a, b, ha, hb, rfl⟩ := swap_eq_some.mp h
  obtain ⟨hi, -⟩ := List.getElem?_eq_some_iff.mp ha
  obtain ⟨hj, -⟩ := List.getElem?_eq_some_iff.mp hb
  by_cases hki : k = i
  · subst hki
    simp [hb, hi]
  · by_cases hkj : k = j
    · subst hkj
      simp [ha, hj, hki, Ne.symm hki]
    · simp [hki, hkj, Ne.symm hki, Ne.symm hkj]

/-- A row that is moved shifts the rows between its two places. -/
theorem getElem?_moved {l : List α} {i j : Nat} (hi : i < l.length) (hj : j < l.length) (a : α)
    (k : Nat) : ((l.eraseIdx i).insertIdx j a)[k]? =
      if k = j then some a else if i ≤ k ∧ k < j then l[k + 1]?
      else if j < k ∧ k ≤ i then l[k - 1]? else l[k]? := by
  have hlength := List.length_eraseIdx_of_lt hi
  rw [List.getElem?_insertIdx]
  rcases Nat.lt_trichotomy k j with hkj | hkj | hkj
  · rw [if_pos hkj, if_neg (by omega), List.getElem?_eraseIdx]
    by_cases hki : k < i
    · rw [if_pos hki, if_neg (by omega), if_neg (by omega)]
    · rw [if_neg hki, if_pos (by omega)]
  · rw [if_neg (by omega), if_pos hkj, if_pos (by omega), if_pos hkj]
  · rw [if_neg (by omega), if_neg (by omega), if_neg (by omega), if_neg (by omega),
      List.getElem?_eraseIdx]
    by_cases hki : k ≤ i
    · rw [if_pos (by omega), if_pos (by omega)]
    · rw [if_neg (by omega), if_neg (by omega), show k - 1 + 1 = k by omega]

/-- The move shifts rows that are all equal. -/
def ShiftsEqual (l : List α) (i j : Nat) : Prop :=
  ∀ k, i < k ∧ k ≤ j ∨ j ≤ k ∧ k < i → l[k]? = l[j]?

/-- It is enough that each row that is shifted is the one next to it. -/
theorem shiftsEqual_of_neighbours {l : List α} {i j : Nat}
    (hup : ∀ k, i < k → k < j → l[k]? = l[k + 1]?)
    (hdown : ∀ k, j < k → k < i → l[k]? = l[k - 1]?) : ShiftsEqual l i j := by
  rintro k (⟨hik, hkj⟩ | ⟨hjk, hki⟩)
  · induction hkj using Nat.decreasingInduction with
    | of_succ k hkj ih => rw [hup k hik hkj, ih (by omega)]
    | self => rfl
  · induction k, hjk using Nat.le_induction with
    | base => rfl
    | succ k hjk ih => rw [hdown (k + 1) (by omega) hki, Nat.add_sub_cancel, ih (by omega)]

theorem applies_moved_iff_eq {l l' : List α} {i j : Nat} {a : α} (ha : l[i]? = some a)
    (hj : j < l.length) : Applies (moved i j) l l' ↔ l' = (l.eraseIdx i).insertIdx j a := by
  constructor
  · rintro ⟨-, a', ha', rfl⟩
    obtain rfl := Option.some.inj (ha.symm.trans ha')
    rfl
  · rintro rfl
    exact ⟨hj, a, ha, rfl⟩

/-- **Exchanging two rows is moving the one exactly when the rows that the move shifts are all
equal.** -/
theorem applies_moved_iff {l l' : List α} {i j : Nat} (h : swap l i j = some l') :
    Applies (moved i j) l l' ↔ ShiftsEqual l i j := by
  obtain ⟨a, b, ha, hb, -⟩ := swap_eq_some.mp h
  obtain ⟨hi, -⟩ := List.getElem?_eq_some_iff.mp ha
  obtain ⟨hj, -⟩ := List.getElem?_eq_some_iff.mp hb
  rw [applies_moved_iff_eq ha hj]
  constructor
  · intro heq
    have hrow : ∀ k, (if k = i then l[j]? else if k = j then l[i]? else l[k]?) =
        if k = j then some a else if i ≤ k ∧ k < j then l[k + 1]?
        else if j < k ∧ k ≤ i then l[k - 1]? else l[k]? := by
      intro k
      rw [← getElem?_swap h, ← getElem?_moved hi hj, heq]
    refine shiftsEqual_of_neighbours (fun k hik hkj => ?_) fun k hjk hki => ?_
    · have hk := hrow k
      rwa [if_neg (by omega), if_neg (by omega), if_neg (by omega), if_pos (by omega)] at hk
    · have hk := hrow k
      rwa [if_neg (by omega), if_neg (by omega), if_neg (by omega), if_neg (by omega),
        if_pos (by omega)] at hk
  · intro hequal
    refine List.ext_getElem? fun k => ?_
    rw [getElem?_swap h, getElem?_moved hi hj]
    by_cases hkj : k = j
    · by_cases hki : k = i
      · rw [if_pos hki, if_pos hkj, ← ha, ← hkj, hki]
      · rw [if_neg hki, if_pos hkj, if_pos hkj, ha]
    · rw [if_neg hkj, if_neg hkj]
      by_cases hki : k = i
      · rw [if_pos hki]
        rcases Nat.lt_or_gt_of_ne hkj with hlt | hlt
        · rw [if_pos (by omega), hequal (k + 1) (by omega)]
        · rw [if_neg (by omega), if_pos (by omega), hequal (k - 1) (by omega)]
      · rw [if_neg hki]
        by_cases hup : i ≤ k ∧ k < j
        · rw [if_pos hup, hequal k (by omega), hequal (k + 1) (by omega)]
        · by_cases hdown : j < k ∧ k ≤ i
          · rw [if_neg hup, if_pos hdown, hequal k (by omega), hequal (k - 1) (by omega)]
          · rw [if_neg hup, if_neg hdown]

/-! ## Exchanges in the middle of a list -/

theorem getElem?_middle {β : Type*} (front back : List β) (g : α → β) {l : List α} {k : Nat}
    (h : k < l.length) : (front ++ l.map g ++ back)[k + front.length]? = l[k]?.map g := by
  rw [List.append_assoc, List.getElem?_append_right (by omega), Nat.add_sub_cancel,
    List.getElem?_append_left (by simpa using h), List.getElem?_map]

theorem set_middle {β : Type*} (front back : List β) (g : α → β) {l : List α} {k : Nat}
    (h : k < l.length) (a : α) : (front ++ l.map g ++ back).set (k + front.length) (g a) =
      front ++ (l.set k a).map g ++ back := by
  have hk : k < (l.map g).length := by rwa [List.length_map]
  rw [List.append_assoc, List.set_append_right _ _ (Nat.le_add_left ..), Nat.add_sub_cancel,
    List.set_append_left _ _ hk, List.map_set, List.append_assoc]

theorem swap_middle {β : Type*} (front back : List β) (g : α → β) {l l' : List α} {i j : Nat}
    (h : swap l i j = some l') :
    swap (front ++ l.map g ++ back) (i + front.length) (j + front.length) =
      some (front ++ l'.map g ++ back) := by
  obtain ⟨a, b, ha, hb, rfl⟩ := swap_eq_some.mp h
  obtain ⟨hi, -⟩ := List.getElem?_eq_some_iff.mp ha
  obtain ⟨hj, -⟩ := List.getElem?_eq_some_iff.mp hb
  refine swap_eq_some.mpr ⟨g a, g b, ?_, ?_, ?_⟩
  · rw [getElem?_middle front back g hi, ha]
    rfl
  · rw [getElem?_middle front back g hj, hb]
    rfl
  · rw [set_middle front back g hj, set_middle front back g (by rwa [List.length_set])]

theorem shiftsEqual_middle {β : Type*} (front back : List β) {g : α → β}
    (hg : Function.Injective g) {l : List α} {i j : Nat} (hi : i < l.length) (hj : j < l.length) :
    ShiftsEqual (front ++ l.map g ++ back) (i + front.length) (j + front.length) ↔
      ShiftsEqual l i j := by
  have hrow : ∀ k, k < l.length → ((front ++ l.map g ++ back)[k + front.length]? =
      (front ++ l.map g ++ back)[j + front.length]? ↔ l[k]? = l[j]?) := by
    intro k hk
    rw [getElem?_middle front back g hk, getElem?_middle front back g hj]
    exact (Option.map_injective hg).eq_iff
  constructor
  · intro h k hk
    exact (hrow k (by omega)).mp (h (k + front.length) (by omega))
  · intro h k hk
    obtain ⟨k, rfl⟩ : ∃ k', k = k' + front.length := ⟨k - front.length, by omega⟩
    exact (hrow k (by omega)).mpr (h k (by omega))

end ListChange
