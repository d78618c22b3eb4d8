import Mathlib.Data.List.Basic

/-!
# Monitors of a log

A `Monitor` reads the entries of a log one after the other: what it knows decides whether it allows
the next one.  A program that writes a log keeps to the monitor when every part of it does:
`Keeps s es t es'` is a part that goes on from the log `es` to the log `es'`, while the monitor's
knowledge goes from `s` to `t`.
-/

namespace PetDev

structure Monitor (σ ε : Type*) where
  next : σ → ε → σ
  allows : σ → ε → Prop

namespace Monitor

variable {σ ε : Type*} (M : Monitor σ ε)

/-- What the monitor knows after these entries. -/
def after (s : σ) (es : List ε) : σ := es.foldl M.next s

/-- Every entry is allowed when its turn comes. -/
def Accepts (s : σ) (es : List ε) : Prop :=
  ∀ pre e post, es = pre ++ e :: post → M.allows (M.after s pre) e

/-- A part of a program that keeps to the monitor. -/
def Keeps (s : σ) (es : List ε) (t : σ) (es' : List ε) : Prop :=
  ∃ new, es' = es ++ new ∧ M.Accepts s new ∧ t = M.after s new

variable {M} {s t u : σ} {es es' es'' : List ε}

theorem accepts_nil : M.Accepts s [] := by
  intro pre e post h
  simp at h

theorem accepts_append (h : M.Accepts s es) (h' : M.Accepts (M.after s es) es') :
    M.Accepts s (es ++ es') := by
  intro pre e post heq
  rcases List.append_eq_append_iff.mp heq with ⟨l, rfl, hl⟩ | ⟨l, rfl, hl⟩
  · have hafter : M.after s (es ++ l) = M.after (M.after s es) l := List.foldl_append
    rw [hafter]
    exact h' l e post hl
  · cases l with
    | nil =>
      rw [List.append_nil] at h'
      exact h' [] e post hl.symm
    | cons e' l =>
      obtain ⟨rfl, -⟩ := List.cons_eq_cons.mp hl
      exact h pre e l rfl

theorem Keeps.refl : M.Keeps s es s es := ⟨[], (List.append_nil es).symm, accepts_nil, rfl⟩

theorem Keeps.trans (h : M.Keeps s es t es') (h' : M.Keeps t es' u es'') : M.Keeps s es u es'' := by
  obtain ⟨new, rfl, haccepts, rfl⟩ := h
  obtain ⟨new', rfl, haccepts', rfl⟩ := h'
  exact ⟨new ++ new', List.append_assoc .., accepts_append haccepts haccepts',
    List.foldl_append.symm⟩

/-- One entry that is allowed. -/
theorem Keeps.single {e : ε} (h : M.allows s e) : M.Keeps s es (M.next s e) (es ++ [e]) := by
  refine ⟨[e], rfl, fun pre e' post heq => ?_, rfl⟩
  cases pre with
  | nil =>
    obtain ⟨rfl, -⟩ := List.cons_eq_cons.mp heq
    exact h
  | cons e'' pre => simp at heq

end Monitor

end PetDev
