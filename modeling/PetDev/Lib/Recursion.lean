import Mathlib.Data.Option.Basic

/-!
# Methods that call themselves

A method that calls itself is run with a bound on the depth of its calls: it has no result when it
needs more.  `Returns run result` says that it comes back with `result`, whatever the bound, when
the bound is large enough.

A loop whose body calls such a method is a `foldlM`.  `foldlM_extends` and `foldlM_preserves` are
its rules: a loop keeps what its turns keep, and it has the results it had when its turns do.
`untilFailure` is the loop that stops at the first turn that fails.
-/

namespace PetDev

variable {σ α : Type*}

/-- With every bound that is large enough the result is this one. -/
def Returns (run : Nat → Option σ) (result : σ) : Prop :=
  ∃ bound, ∀ fuel, bound ≤ fuel → run fuel = some result

/-- One run has results where the other one has them, the same ones. -/
def Extends (f g : σ → Option α) : Prop := ∀ s a, f s = some a → g s = some a

/-- A deeper bound changes no result, so one run that comes back is enough. -/
theorem Returns.of_extends {run : Nat → σ → Option α} (hrun : ∀ fuel, Extends (run fuel)
    (run (fuel + 1))) {bound : Nat} {s : σ} {result : α} (h : run bound s = some result) :
    Returns (fun fuel => run fuel s) result := by
  refine ⟨bound, fun fuel hfuel => ?_⟩
  induction hfuel with
  | refl => exact h
  | step _ ih => exact hrun _ s result ih

theorem not_returns_of_forall_none {run : Nat → Option σ} (h : ∀ fuel, run fuel = none) (r : σ) :
    ¬ Returns run r := by
  rintro ⟨bound, hr⟩
  have hsome := hr bound (Nat.le_refl bound)
  rw [h bound] at hsome
  exact absurd hsome.symm (Option.some_ne_none r)

/-- A loop has the results it had when its turns have theirs. -/
theorem foldlM_extends {f g : σ → α → Option σ} (h : ∀ a, Extends (f · a) (g · a)) (l : List α) :
    Extends (fun s => l.foldlM f s) (fun s => l.foldlM g s) := by
  intro s r hr
  simp only at hr ⊢
  induction l generalizing s with
  | nil => exact hr
  | cons a l ih =>
    rw [List.foldlM_cons] at hr ⊢
    obtain ⟨s', hs', hr⟩ := Option.bind_eq_some_iff.mp hr
    rw [show g s a = some s' from h a s s' hs']
    exact ih s' hr

/-- A loop that stops at the first turn that says it has failed. -/
def untilFailure (f : σ → α → Option (Bool × σ)) : List α → σ → Option (Bool × σ)
  | [], s => some (true, s)
  | a :: l, s => (f s a).bind fun r => if r.1 then untilFailure f l r.2 else some (false, r.2)

theorem untilFailure_extends {f g : σ → α → Option (Bool × σ)}
    (h : ∀ a, Extends (fun s => f s a) (fun s => g s a)) (l : List α) :
    Extends (untilFailure f l) (untilFailure g l) := by
  induction l with
  | nil => exact fun _ _ hr => hr
  | cons a l ih =>
    intro s r hr
    unfold untilFailure at hr ⊢
    obtain ⟨r', hr', hr⟩ := Option.bind_eq_some_iff.mp hr
    rw [show g s a = some r' from h a s r' hr', Option.bind_some]
    split at hr
    · next hok => rw [if_pos hok, ih r'.2 r hr]
    · next hok => rw [if_neg hok, hr]

/-- A loop keeps what each of its turns keeps. -/
theorem foldlM_preserves {f : σ → α → Option σ} (P : σ → Prop) {l : List α}
    (h : ∀ s a s', a ∈ l → P s → f s a = some s' → P s') {s r : σ} (hs : P s)
    (hr : l.foldlM f s = some r) : P r := by
  induction l generalizing s with
  | nil =>
    obtain rfl := Option.some.inj hr
    exact hs
  | cons a l ih =>
    rw [List.foldlM_cons] at hr
    obtain ⟨s', hs', hr⟩ := Option.bind_eq_some_iff.mp hr
    exact ih (fun s b s' hb => h s b s' (List.mem_cons_of_mem a hb))
      (h s a s' List.mem_cons_self hs hs') hr

end PetDev
