import Mathlib.Data.List.Perm.Basic
import Mathlib.Data.List.TakeWhile
import Mathlib.Algebra.Order.Group.Int

/-!
# Delayed messages of a `Handler`

The queue of a looper, as far as its delayed messages go: `postDelayed` adds one that
is due after the delay, and a negative delay counts as zero.  A message can be handled
when it is due; `take` hands out the `i`-th one and removes it.

Where the order of the messages matters, `enqueue` keeps the queue in the order in which
the looper handles it (the earliest first, equal ones as they came), and `next` hands out
its head.
-/

namespace PetDev.Android

/-- A queued message, with the time from which it can be handled. -/
structure Delayed (α : Type*) where
  due : Int
  what : α
  deriving DecidableEq, Repr

namespace Looper

variable {α : Type*}

def postDelayed (now delay : Int) (what : α) (q : List (Delayed α)) : List (Delayed α) :=
  q ++ [⟨now + max delay 0, what⟩]

/-- The `i`-th message, if it is due, and the queue without it. -/
def take (now : Int) (i : Nat) (q : List (Delayed α)) : Option (Delayed α × List (Delayed α)) :=
  match q[i]? with
  | some m => if m.due ≤ now then some (m, q.eraseIdx i) else none
  | none => none

theorem mem_postDelayed {now delay : Int} {what : α} {q : List (Delayed α)} {m : Delayed α} :
    m ∈ postDelayed now delay what q ↔ m ∈ q ∨ m = ⟨now + max delay 0, what⟩ := by
  simp [postDelayed]

theorem take_eq_some {now : Int} {i : Nat} {q q' : List (Delayed α)} {m : Delayed α}
    (h : take now i q = some (m, q')) : q[i]? = some m ∧ m.due ≤ now ∧ q' = q.eraseIdx i := by
  unfold take at h
  split at h
  · next m' hm =>
    obtain ⟨hdue, h⟩ := Option.ite_none_right_eq_some.mp h
    obtain ⟨rfl, rfl⟩ := Prod.mk.inj (Option.some.inj h)
    exact ⟨hm, hdue, rfl⟩
  · cases h

theorem mem_of_take {now : Int} {i : Nat} {q q' : List (Delayed α)} {m m' : Delayed α}
    (h : take now i q = some (m, q')) (hm : m' ∈ q') : m' ∈ q := by
  obtain ⟨-, -, rfl⟩ := take_eq_some h
  exact List.mem_of_mem_eraseIdx hm

/-- Only the message that is handed out leaves the queue. -/
theorem mem_take {now : Int} {i : Nat} {q q' : List (Delayed α)} {m m' : Delayed α}
    (h : take now i q = some (m, q')) (hm : m' ∈ q) : m' = m ∨ m' ∈ q' := by
  obtain ⟨hi, -, rfl⟩ := take_eq_some h
  obtain ⟨hlt, rfl⟩ := List.getElem?_eq_some_iff.mp hi
  exact List.mem_cons.mp ((List.getElem_cons_eraseIdx_perm hlt).mem_iff.mpr hm)

/-- A nonempty queue has an earliest message. -/
theorem exists_earliest : ∀ {q : List (Delayed α)}, q ≠ [] → ∃ m ∈ q, ∀ m' ∈ q, m.due ≤ m'.due
  | [], h => absurd rfl h
  | [m], _ => ⟨m, by simp, by simp⟩
  | m :: m1 :: q, _ => by
    obtain ⟨k, hk, hle⟩ := exists_earliest (List.cons_ne_nil m1 q)
    rcases le_total m.due k.due with h | h
    · refine ⟨m, List.mem_cons_self, fun m' hm' => ?_⟩
      rcases List.mem_cons.mp hm' with rfl | hm'
      · exact le_rfl
      · exact h.trans (hle m' hm')
    · refine ⟨k, List.mem_cons_of_mem _ hk, fun m' hm' => ?_⟩
      rcases List.mem_cons.mp hm' with rfl | hm'
      · exact h
      · exact hle m' hm'

/-! ## The queue in order -/

/-- `MessageQueue.enqueueMessage`: behind all messages that are due no later. -/
def enqueue (m : Delayed α) (q : List (Delayed α)) : List (Delayed α) :=
  q.takeWhile (fun m' => m'.due ≤ m.due) ++ m :: q.dropWhile (fun m' => m'.due ≤ m.due)

/-- The head of the queue, if it is due, and the rest. -/
def next (now : Int) (q : List (Delayed α)) : Option (Delayed α × List (Delayed α)) :=
  match q with
  | m :: q => if m.due ≤ now then some (m, q) else none
  | [] => none

/-- Where all delays are equal, a new message goes to the end. -/
theorem enqueue_eq_append {m : Delayed α} {q : List (Delayed α)}
    (h : ∀ m' ∈ q, m'.due ≤ m.due) : enqueue m q = q ++ [m] := by
  have htake : q.takeWhile (fun m' => m'.due ≤ m.due) = q :=
    List.takeWhile_eq_self_iff.mpr fun m' hm' => decide_eq_true (h m' hm')
  have hdrop : q.dropWhile (fun m' => m'.due ≤ m.due) = [] :=
    List.dropWhile_eq_nil_iff.mpr fun m' hm' => decide_eq_true (h m' hm')
  rw [enqueue, htake, hdrop]

theorem enqueue_perm (m : Delayed α) (q : List (Delayed α)) : (enqueue m q).Perm (m :: q) := by
  have h : (enqueue m q).Perm (m :: (q.takeWhile _ ++ q.dropWhile _)) := List.perm_middle
  rwa [List.takeWhile_append_dropWhile] at h

theorem next_eq_some {now : Int} {q q' : List (Delayed α)} {m : Delayed α} :
    next now q = some (m, q') ↔ q = m :: q' ∧ m.due ≤ now := by
  cases q with
  | nil => simp [next]
  | cons m' q =>
    simp only [next, Option.ite_none_right_eq_some, Option.some.injEq, Prod.mk.injEq,
      List.cons.injEq]
    constructor
    · rintro ⟨hdue, rfl, rfl⟩
      exact ⟨⟨rfl, rfl⟩, hdue⟩
    · rintro ⟨⟨rfl, rfl⟩, hdue⟩
      exact ⟨hdue, rfl, rfl⟩

end Looper

end PetDev.Android
