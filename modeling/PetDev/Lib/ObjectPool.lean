import Mathlib.Algebra.Order.Group.Multiset
import Mathlib.Data.Multiset.Range
import Mathlib.Tactic.Abel

/-!
# Pools of objects

Objects are numbered as they are made.  A pool keeps those that are not in use; a **get** takes
the last one of them, or makes one when there is none, and a **recycle** puts an object back, or
frees it when the pool is full.

`Accounts p held` says that every object made so far is in exactly one place: in the pool,
freed, or among `held`.  It is kept by `get` and `recycle` when the object moves into and out of
`held`, so whoever holds an object holds it alone, and no object is freed that is in use or was
freed before.
-/

namespace PetDev

structure ObjectPool where
  pooled : List Nat
  freed : List Nat
  next : Nat

namespace ObjectPool

def empty : ObjectPool := ⟨[], [], 0⟩

/-- `ok` says whether an object can be made. -/
def get (p : ObjectPool) (ok : Bool) : Option Nat × ObjectPool :=
  match p.pooled.getLast? with
  | some x => (some x, { p with pooled := p.pooled.dropLast })
  | none => if ok then (some p.next, { p with next := p.next + 1 }) else (none, p)

def recycle (limit : Nat) (p : ObjectPool) (x : Nat) : ObjectPool :=
  if p.pooled.length < limit then { p with pooled := p.pooled ++ [x] }
  else { p with freed := p.freed ++ [x] }

/-- Every object made so far is in exactly one place. -/
def Accounts (p : ObjectPool) (held : Multiset Nat) : Prop :=
  (p.pooled : Multiset Nat) + p.freed + held = Multiset.range p.next

/-! ## One place for every object -/

variable {p q : ObjectPool} {held : Multiset Nat} {x : Nat}

theorem empty_accounts : Accounts empty 0 := rfl

theorem Accounts.nodup (h : Accounts p held) :
    ((p.pooled : Multiset Nat) + p.freed + held).Nodup := by
  rw [h]
  exact Multiset.nodup_range p.next

theorem Accounts.of_eq {held' : Multiset Nat} (h : Accounts p held) (he : held' = held) :
    Accounts p held' := he ▸ h

/-- The head of a list of objects apart, as the sums below have it. -/
theorem coe_cons (x : Nat) (l : List Nat) : ((x :: l : List Nat) : Multiset Nat) = {x} + l := rfl

theorem get_cases {ok : Bool} {r : Option Nat} (h : p.get ok = (r, q)) :
    (∃ x, r = some x ∧ q.freed = p.freed ∧
      ((p.pooled = q.pooled ++ [x] ∧ q.next = p.next) ∨
        (p.pooled = [] ∧ q.pooled = [] ∧ x = p.next ∧ q.next = p.next + 1))) ∨
    r = none ∧ ok = false ∧ p.pooled = [] ∧ q = p := by
  unfold get at h
  cases hlast : p.pooled.getLast? with
  | some x =>
    rw [hlast] at h
    obtain ⟨rfl, rfl⟩ := Prod.mk.inj h
    refine Or.inl ⟨x, rfl, rfl, Or.inl ⟨?_, rfl⟩⟩
    exact (List.dropLast_append_getLast? x hlast).symm
  | none =>
    rw [hlast] at h
    have hnil : p.pooled = [] := List.getLast?_eq_none_iff.mp hlast
    cases ok with
    | true =>
      obtain ⟨rfl, rfl⟩ := Prod.mk.inj h
      exact Or.inl ⟨p.next, rfl, rfl, Or.inr ⟨hnil, hnil, rfl, rfl⟩⟩
    | false =>
      obtain ⟨rfl, rfl⟩ := Prod.mk.inj h
      exact Or.inr ⟨rfl, rfl, hnil, rfl⟩

/-- A get moves an object to its caller. -/
theorem Accounts.get {ok : Bool} {r : Option Nat} (h : Accounts p held) (hget : p.get ok = (r, q)) :
    Accounts q ((r.toList : Multiset Nat) + held) := by
  unfold Accounts at h ⊢
  rcases get_cases hget with ⟨x, rfl, hfreed, ⟨hp, hnext⟩ | ⟨hp, hq, rfl, hnext⟩⟩ | ⟨rfl, -, -, rfl⟩
  · rw [hfreed, hnext, ← h, hp, ← Multiset.coe_add]
    show _ + _ + ((([x] : List Nat) : Multiset Nat) + held) = _
    abel
  · rw [hfreed, hnext, hq, Multiset.range_succ, ← h, hp, ← Multiset.singleton_add]
    show _ + _ + ({p.next} + held) = _
    abel
  · rw [← h]
    simp

/-- A recycle takes it back. -/
theorem Accounts.recycle {limit : Nat} (h : Accounts p ({x} + held)) :
    Accounts (p.recycle limit x) held := by
  unfold Accounts at h ⊢
  rw [ObjectPool.recycle]
  split
  · rw [← h, ← Multiset.coe_add, Multiset.coe_singleton]
    abel
  · rw [← h, ← Multiset.coe_add, Multiset.coe_singleton]
    abel

/-! ## The size of the pool -/

theorem length_recycle_le {limit : Nat} (h : p.pooled.length ≤ limit) :
    (p.recycle limit x).pooled.length ≤ limit := by
  unfold recycle
  split
  · rw [List.length_append, List.length_singleton]
    omega
  · exact h

theorem length_get_le {ok : Bool} {r : Option Nat} {limit : Nat} (h : p.pooled.length ≤ limit)
    (hget : p.get ok = (r, q)) : q.pooled.length ≤ limit := by
  rcases get_cases hget with ⟨x, -, -, ⟨hp, -⟩ | ⟨-, hq, -⟩⟩ | ⟨-, -, -, hq⟩
  · rw [hp, List.length_append, List.length_singleton] at h
    omega
  · rw [hq]
    exact Nat.zero_le limit
  · rw [hq]
    exact h

/-- The objects in use are those made and neither in the pool nor freed. -/
theorem Accounts.card (h : Accounts p held) :
    p.pooled.length + p.freed.length + held.card = p.next := by
  have hcard := congrArg Multiset.card h
  simpa using hcard

/-! ## Many holders

Holders in a list, `f` saying which objects one holds. -/

section Holders

variable {α β : Type*} {l : List α} {i : Nat} {a b : α} {f : α → List β}

/-- One holder changes: what the others hold is what it was. -/
theorem coe_flatMap_set (hi : l[i]? = some a) (b : α) :
    ∃ rest : Multiset β, (l.flatMap f : Multiset β) = f a + rest ∧
      ((l.set i b).flatMap f : Multiset β) = f b + rest := by
  obtain ⟨hlt, rfl⟩ := List.getElem?_eq_some_iff.mp hi
  refine ⟨(l.take i).flatMap f + (l.drop (i + 1)).flatMap f, ?_, ?_⟩
  · have hl : l = l.take i ++ l[i] :: l.drop (i + 1) := by simp
    conv_lhs => rw [hl]
    rw [List.flatMap_append, List.flatMap_cons, ← Multiset.coe_add, ← Multiset.coe_add]
    abel
  · rw [List.set_eq_take_append_cons_drop, if_pos hlt, List.flatMap_append, List.flatMap_cons,
      ← Multiset.coe_add, ← Multiset.coe_add]
    abel

theorem flatMap_eq_nil_of_getElem? (h : ∀ (j : Nat) (c : α), l[j]? = some c → f c = []) :
    l.flatMap f = [] := by
  refine List.flatMap_eq_nil_iff.mpr fun c hc => ?_
  obtain ⟨j, hj⟩ := List.mem_iff_getElem?.mp hc
  exact h j c hj

end Holders

end ObjectPool

end PetDev
