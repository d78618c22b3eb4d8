import Mathlib.Data.List.Forall2
import Mathlib.Data.Option.Basic

/-!
# Partial computations

When a computation over `Option` has a result, and what the results of its loops are.
-/

namespace PetDev

variable {α β : Type*}

theorem exists_bind {x : Option α} {f : α → Option β} :
    (∃ t, x.bind f = some t) ↔ ∃ a, x = some a ∧ ∃ t, f a = some t := by
  simp only [Option.bind_eq_some_iff]
  exact ⟨fun ⟨t, a, ha, ht⟩ => ⟨a, ha, t, ht⟩, fun ⟨a, ha, t, ht⟩ => ⟨t, a, ha, ht⟩⟩

/-- The results of a loop are those of its turns, in their order. -/
theorem mapM_eq_some_iff {l : List α} {f : α → Option β} {r : List β} :
    l.mapM f = some r ↔ List.Forall₂ (fun a b => f a = some b) l r := by
  induction l generalizing r with
  | nil => simp [eq_comm]
  | cons a l ih =>
    rw [List.mapM_cons, List.forall₂_cons_left_iff]
    simp only [Option.bind_eq_bind, Option.bind_eq_some_iff, Option.pure_def, Option.some.injEq, ih]
    constructor
    · rintro ⟨b, hb, bs, hbs, rfl⟩
      exact ⟨b, bs, hb, hbs, rfl⟩
    · rintro ⟨b, bs, hb, hbs, rfl⟩
      exact ⟨b, hb, bs, hbs, rfl⟩

theorem mapM_range_eq_some {f : Nat → Option β} {l : List β}
    (h : ∀ i (hi : i < l.length), f i = some (l.get ⟨i, hi⟩)) :
    (List.range l.length).mapM f = some l := by
  rw [mapM_eq_some_iff, List.forall₂_iff_get]
  refine ⟨List.length_range, fun i hi hi' => ?_⟩
  rw [List.get_eq_getElem, List.getElem_range]
  exact h i hi'

theorem exists_mapM {l : List α} {f : α → Option β} :
    (∃ r, l.mapM f = some r) ↔ ∀ a ∈ l, ∃ r, f a = some r := by
  induction l with
  | nil => simp
  | cons a l ih =>
    simp only [List.mapM_cons, Option.bind_eq_bind, exists_bind, Option.pure_def,
      Option.some.injEq, exists_eq', exists_and_right, and_true, ih, List.forall_mem_cons]

/-- A loop whose turns succeed whatever was gathered before. -/
theorem exists_foldlM {l : List α} {f : β → α → Option β} {P : α → Prop}
    (h : ∀ b a, (∃ r, f b a = some r) ↔ P a) (b : β) :
    (∃ r, l.foldlM f b = some r) ↔ ∀ a ∈ l, P a := by
  induction l generalizing b with
  | nil => simp
  | cons a l ih =>
    rw [List.foldlM_cons, Option.bind_eq_bind, exists_bind, List.forall_mem_cons, ← h b a]
    simp only [ih, exists_and_right]

/-! ## A search for the first answer -/

section Search

variable {l : List α} {f : α → Option (Option β)}

theorem exists_findSomeM? (h : ∀ a ∈ l, ∃ r, f a = some r) : ∃ r, l.findSomeM? f = some r := by
  induction l with
  | nil => exact ⟨none, rfl⟩
  | cons a l ih =>
    obtain ⟨r, hr⟩ := h a List.mem_cons_self
    rw [List.findSomeM?_cons, hr]
    cases r with
    | none => exact ih fun a ha => h a (List.mem_cons_of_mem _ ha)
    | some b => exact ⟨some b, rfl⟩

theorem flatMap_filter (p : α → Bool) (g : α → List β) (l : List α) :
    (l.filter p).flatMap g = l.flatMap fun a => if p a then g a else [] := by
  induction l with
  | nil => rfl
  | cons a l ih =>
    rw [List.filter_cons, List.flatMap_cons]
    split_ifs
    · rw [List.flatMap_cons, ih]
    · rw [ih, List.nil_append]

/-- Where each turn finds the first of its candidates, the search finds the first of them all. -/
theorem findSomeM?_eq_head? {g : α → List β} (h : ∀ a ∈ l, ∀ r, f a = some r → r = (g a).head?)
    {r : Option β} (hr : l.findSomeM? f = some r) : r = (l.flatMap g).head? := by
  induction l with
  | nil => exact (Option.some.inj hr).symm
  | cons a l ih =>
    rw [List.findSomeM?_cons, Option.bind_eq_bind, Option.bind_eq_some_iff] at hr
    obtain ⟨r', hturn, hr⟩ := hr
    have hhead := h a List.mem_cons_self r' hturn
    rw [List.flatMap_cons, List.head?_append, ← hhead]
    cases r' with
    | none => exact ih (fun a ha => h a (List.mem_cons_of_mem _ ha)) hr
    | some b => exact (Option.some.inj hr).symm

end Search

end PetDev
