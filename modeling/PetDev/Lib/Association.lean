import Mathlib.Data.List.Induction
import Mathlib.Data.List.Nodup
import Mathlib.Data.List.Perm.Basic

/-!
# Maps as lists of entries

A `FiniteMap` is a list of entries with different keys.  `get` finds the entry of a key wherever it
is, so the order of the entries does not matter (`lookup_eq_of_perm`).
-/

namespace PetDev

variable {κ V W : Type*} [DecidableEq κ]

/-! ## Entries with different keys -/

theorem lookup_cons (e : κ × V) (l : List (κ × V)) (k : κ) :
    (e :: l).lookup k = if k = e.1 then some e.2 else l.lookup k := by
  rw [List.lookup_cons]
  by_cases hk : k = e.1
  · rw [if_pos hk, beq_iff_eq.mpr hk]
  · rw [if_neg hk, beq_eq_false_iff_ne.mpr hk]

theorem lookup_eq_some_iff_mem {l : List (κ × V)} (hl : (l.map Prod.fst).Nodup) {k : κ} {v : V} :
    l.lookup k = some v ↔ (k, v) ∈ l := by
  induction l with
  | nil => simp
  | cons e l ih =>
    obtain ⟨k', v'⟩ := e
    rw [List.map_cons, List.nodup_cons] at hl
    obtain ⟨hnew, hl⟩ := hl
    rw [lookup_cons, List.mem_cons, Prod.mk.injEq]
    by_cases hk : k = k'
    · subst hk
      have hnot : (k, v) ∉ l := fun hmem => hnew (List.mem_map.mpr ⟨(k, v), hmem, rfl⟩)
      rw [if_pos rfl, Option.some.injEq]
      exact ⟨fun h => Or.inl ⟨rfl, h.symm⟩, fun h => (h.resolve_right hnot).2.symm⟩
    · rw [if_neg hk, ih hl]
      exact ⟨Or.inr, fun h => h.resolve_left fun h => hk h.1⟩

theorem lookup_eq_of_perm {l l' : List (κ × V)} (hl : (l.map Prod.fst).Nodup) (h : l.Perm l')
    (k : κ) : l.lookup k = l'.lookup k := by
  have hl' : (l'.map Prod.fst).Nodup := (h.map Prod.fst).nodup_iff.mp hl
  refine Option.ext fun v => ?_
  rw [lookup_eq_some_iff_mem hl, lookup_eq_some_iff_mem hl', h.mem_iff]

theorem lookup_map (f : V → W) (l : List (κ × V)) (k : κ) :
    (l.map fun e => (e.1, f e.2)).lookup k = (l.lookup k).map f := by
  induction l with
  | nil => rfl
  | cons e l ih =>
    rw [List.map_cons, lookup_cons, lookup_cons, ih]
    by_cases hk : k = e.1
    · rw [if_pos hk, if_pos hk, Option.map_some]
    · rw [if_neg hk, if_neg hk]

/-! ## Maps -/

structure FiniteMap (κ V : Type*) where
  entries : List (κ × V)
  distinct : (entries.map Prod.fst).Nodup

namespace FiniteMap

def empty : FiniteMap κ V := ⟨[], List.nodup_nil⟩

def get (m : FiniteMap κ V) (k : κ) : Option V := m.entries.lookup k

def keys (m : FiniteMap κ V) : List κ := m.entries.map Prod.fst

/-- Without an entry of `k`. -/
def erase (m : FiniteMap κ V) (k : κ) : FiniteMap κ V where
  entries := m.entries.filter fun e => e.1 ≠ k
  distinct := m.distinct.sublist (List.filter_sublist.map Prod.fst)

theorem not_mem_keys_erase (m : FiniteMap κ V) (k : κ) : k ∉ (m.erase k).keys := by
  intro hmem
  obtain ⟨e, he, hk⟩ := List.mem_map.mp hmem
  exact absurd hk (by simpa using (List.mem_filter.mp he).2)

/-- The entry of `k` is a new one. -/
def put (m : FiniteMap κ V) (k : κ) (v : V) : FiniteMap κ V where
  entries := (k, v) :: (m.erase k).entries
  distinct := List.nodup_cons.mpr ⟨m.not_mem_keys_erase k, (m.erase k).distinct⟩

@[simp] theorem get_empty (k : κ) : (empty : FiniteMap κ V).get k = none := rfl

theorem get_eq_some_iff_mem (m : FiniteMap κ V) {k : κ} {v : V} :
    m.get k = some v ↔ (k, v) ∈ m.entries :=
  lookup_eq_some_iff_mem m.distinct

theorem mem_keys (m : FiniteMap κ V) {k : κ} : k ∈ m.keys ↔ m.get k ≠ none := by
  rw [keys, List.mem_map, Option.ne_none_iff_exists']
  constructor
  · rintro ⟨⟨k', v⟩, he, rfl⟩
    exact ⟨v, m.get_eq_some_iff_mem.mpr he⟩
  · rintro ⟨v, hv⟩
    exact ⟨(k, v), m.get_eq_some_iff_mem.mp hv, rfl⟩

theorem get_erase_self (m : FiniteMap κ V) (k : κ) : (m.erase k).get k = none := by
  by_contra h
  exact m.not_mem_keys_erase k ((m.erase k).mem_keys.mpr h)

theorem get_erase_of_ne (m : FiniteMap κ V) {k k' : κ} (h : k' ≠ k) :
    (m.erase k).get k' = m.get k' := by
  refine Option.ext fun v => ?_
  rw [get_eq_some_iff_mem, get_eq_some_iff_mem, erase, List.mem_filter]
  exact and_iff_left (by simpa using h)

theorem get_erase (m : FiniteMap κ V) (k k' : κ) :
    (m.erase k).get k' = if k' = k then none else m.get k' := by
  split
  · next h => rw [h, get_erase_self]
  · next h => exact m.get_erase_of_ne h

theorem get_put_self (m : FiniteMap κ V) (k : κ) (v : V) : (m.put k v).get k = some v := by
  show List.lookup k ((k, v) :: _) = _
  rw [List.lookup_cons_self]

theorem get_put_of_ne (m : FiniteMap κ V) {k k' : κ} (h : k' ≠ k) (v : V) :
    (m.put k v).get k' = m.get k' := by
  show List.lookup k' ((k, v) :: _) = _
  rw [lookup_cons, if_neg h]
  exact m.get_erase_of_ne h

theorem get_put (m : FiniteMap κ V) (k k' : κ) (v : V) :
    (m.put k v).get k' = if k' = k then some v else m.get k' := by
  split
  · next h => rw [h, get_put_self]
  · next h => exact m.get_put_of_ne h v

/-- Of entries that are put one after the other the last one counts. -/
theorem get_foldl_put (f : V → W) (l : List (κ × V)) (m : FiniteMap κ W) (k : κ) :
    (l.foldl (fun m e => m.put e.1 (f e.2)) m).get k =
      ((l.reverse.lookup k).map f).or (m.get k) := by
  induction l using List.reverseRecOn with
  | nil => rfl
  | append_singleton l e ih =>
    rw [List.foldl_append, List.reverse_append, List.reverse_singleton, List.singleton_append,
      lookup_cons]
    show (FiniteMap.put _ e.1 (f e.2)).get k = _
    rw [get_put, ih]
    by_cases hk : k = e.1
    · rw [if_pos hk, if_pos hk]
      rfl
    · rw [if_neg hk, if_neg hk]

end FiniteMap

end PetDev
