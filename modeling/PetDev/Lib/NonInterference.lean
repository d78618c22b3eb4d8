import PetDev.Lib.StepMachine

/-!
# Users of one machine

The events of a machine belong to users, and every user observes something of the state.  The
machine is free of interference on a run when every user observes what he would after his own
events alone.

An `Unwinding` relates the state of the whole run to that of the run alone: the events of
others keep the relation and what is observed, the user's own events keep the relation, and `C`
says when they keep the observations equal.  `nonInterfering_iff`: then a run is free of
interference exactly when all its events meet `C`.
-/

namespace StepMachine

variable {σ ε ι ω : Type*} [DecidableEq ι]

/-- The events of `i`. -/
def alone (owner : ε → ι) (i : ι) (es : List ε) : List ε := es.filter fun e => owner e = i

/-- Every user observes what he would if his events were the only ones. -/
def NonInterfering (M : StepMachine σ ε) (owner : ε → ι) (out : ι → σ → ω) (es : List ε) : Prop :=
  ∀ i s t, M.run es = some s → M.run (alone owner i es) = some t → out i s = out i t

structure Unwinding (M : StepMachine σ ε) (owner : ε → ι) (out : ι → σ → ω)
    (R : ι → σ → σ → Prop) (C : σ → ε → Prop) : Prop where
  init : ∀ i, R i M.init M.init
  other : ∀ i s t e, R i s t → owner e ≠ i →
    ∃ s', M.step s e = some s' ∧ R i s' t ∧ out i s' = out i s
  own : ∀ s t e, R (owner e) s t →
    ∃ s' t', M.step s e = some s' ∧ M.step t e = some t' ∧ R (owner e) s' t' ∧
      (out (owner e) s' = out (owner e) t' ↔ out (owner e) s = out (owner e) t ∧ C s e)

theorem alone_concat_self (owner : ε → ι) (es : List ε) (e : ε) :
    alone owner (owner e) (es ++ [e]) = alone owner (owner e) es ++ [e] := by
  simp [alone]

theorem alone_concat_of_ne (owner : ε → ι) {i : ι} (es : List ε) {e : ε} (h : owner e ≠ i) :
    alone owner i (es ++ [e]) = alone owner i es := by
  simp [alone, h]

variable {M : StepMachine σ ε} {owner : ε → ι} {out : ι → σ → ω} {R : ι → σ → σ → Prop}
  {C : σ → ε → Prop}

/-- The two runs go on side by side. -/
theorem Unwinding.exists_runs (h : M.Unwinding owner out R C) (i : ι) (es : List ε) :
    ∃ s t, M.run es = some s ∧ M.run (alone owner i es) = some t ∧ R i s t := by
  induction es using List.reverseRecOn with
  | nil => exact ⟨M.init, M.init, rfl, rfl, h.init i⟩
  | append_singleton es e ih =>
    obtain ⟨s, t, hs, ht, hR⟩ := ih
    by_cases he : owner e = i
    · subst he
      obtain ⟨s', t', hs', ht', hR', -⟩ := h.own s t e hR
      refine ⟨s', t', M.run_concat_eq_some.mpr ⟨s, hs, hs'⟩, ?_, hR'⟩
      rw [alone_concat_self]
      exact M.run_concat_eq_some.mpr ⟨t, ht, ht'⟩
    · obtain ⟨s', hs', hR', -⟩ := h.other i s t e hR he
      refine ⟨s', t, M.run_concat_eq_some.mpr ⟨s, hs, hs'⟩, ?_, hR'⟩
      rw [alone_concat_of_ne owner es he]
      exact ht

/-- **The exact rule for interference.** -/
theorem Unwinding.nonInterfering_iff (h : M.Unwinding owner out R C) (es : List ε) :
    M.NonInterfering owner out es ↔ M.Each C es := by
  induction es using List.reverseRecOn with
  | nil =>
    refine iff_of_true (fun i s t hs ht => ?_) M.each_nil
    rw [← Option.some.inj hs, ← Option.some.inj ht]
  | append_singleton es e ih =>
    rw [M.each_concat, ← ih]
    -- the user whose event it is
    obtain ⟨s, t, hs, ht, hR⟩ := h.exists_runs (owner e) es
    obtain ⟨s', t', hs', ht', -, hout⟩ := h.own s t e hR
    have hrun := M.run_concat_eq_some.mpr ⟨s, hs, hs'⟩
    have hself := M.run_concat_eq_some.mpr ⟨t, ht, ht'⟩
    rw [← alone_concat_self] at hself
    -- the others observe what they did
    have hothers : ∀ i, owner e ≠ i → ∀ r, M.run (alone owner i (es ++ [e])) = some r →
        M.run (alone owner i es) = some r ∧ out i s' = out i s := by
      intro i hi r hr
      obtain ⟨s₁, t₁, hs₁, -, hR₁⟩ := h.exists_runs i es
      obtain rfl := Option.some.inj (hs.symm.trans hs₁)
      obtain ⟨s₂, hs₂, -, hsame⟩ := h.other i s t₁ e hR₁ hi
      obtain rfl := Option.some.inj (hs'.symm.trans hs₂)
      rw [alone_concat_of_ne owner es hi] at hr
      exact ⟨hr, hsame⟩
    constructor
    · intro hboth
      have hown := hout.mp (hboth (owner e) s' t' hrun hself)
      refine ⟨fun i s₁ t₁ hs₁ ht₁ => ?_, fun s₁ hs₁ => ?_⟩
      · obtain rfl := Option.some.inj (hs.symm.trans hs₁)
        by_cases hi : owner e = i
        · subst hi
          obtain rfl := Option.some.inj (ht.symm.trans ht₁)
          exact hown.1
        · have ht₂ := ht₁
          rw [← alone_concat_of_ne owner es hi] at ht₂
          rw [← (hothers i hi t₁ ht₂).2]
          exact hboth i s' t₁ hrun ht₂
      · obtain rfl := Option.some.inj (hs.symm.trans hs₁)
        exact hown.2
    · rintro ⟨hbefore, hC⟩ i s₁ t₁ hs₁ ht₁
      obtain rfl := Option.some.inj (hrun.symm.trans hs₁)
      by_cases hi : owner e = i
      · subst hi
        obtain rfl := Option.some.inj (hself.symm.trans ht₁)
        exact hout.mpr ⟨hbefore (owner e) s t hs ht, hC s hs⟩
      · obtain ⟨ht₂, hsame⟩ := hothers i hi t₁ ht₁
        rw [hsame]
        exact hbefore i s t₁ hs ht₂

end StepMachine
