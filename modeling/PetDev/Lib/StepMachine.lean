import Mathlib.Data.List.Infix

/-!
# Machines driven by events

A `StepMachine` is a start state and a partial step function on events; an event
carries every choice the step makes, so a run is a list of events.

* `run es` is the state after `es`, when every event of `es` is enabled in turn.
* `Always P es`: `P` holds in every state the run `es` passes, its two ends
  included.  `Each C es`: every step of it meets the condition `C`.
* `guard G` is the same machine with the events outside `G` disabled.
* `withHistory` puts a history beside the state, which a step only adds to; the runs stay
  the same.
* `Safe Q P es`: `P` holds all along `es`, and would hold all along any run that leaves
  it at some point and goes on with events of `Q` only.  `Doomed Q P es`: events of `Q`
  can lead out of `P`.

The rules are the induction on runs, packaged once.  `invariant` is the usual
one.  `always_of_each` is the rule for runs whose steps meet a condition, and
`always_iff_each` says when that condition is **exact**: the step lemma has to
give the condition back from the property; `each_iff_each` is its like for what is
required of steps.  `safe_iff_each` is the exact rule for
conditions whose failure shows only later: a step outside the condition has to doom
the run.
-/

/-- A machine driven by events; `none` where the event is not enabled. -/
structure StepMachine (σ ε : Type*) where
  init : σ
  step : σ → ε → Option σ

namespace StepMachine

variable {σ ε : Type*} (M : StepMachine σ ε)

/-- The state after the events `es`. -/
def run (es : List ε) : Option σ := es.foldlM M.step M.init

/-- `P` holds in every state the run passes. -/
def Always (P : σ → Prop) (es : List ε) : Prop :=
  ∀ pre t, pre <+: es → M.run pre = some t → P t

/-- Every step of the run meets `C`. -/
def Each (C : σ → ε → Prop) (es : List ε) : Prop :=
  ∀ pre e t, pre ++ [e] <+: es → M.run pre = some t → C t e

/-- The machine with the events outside `G` disabled. -/
def guard (G : σ → ε → Prop) [∀ s e, Decidable (G s e)] : StepMachine σ ε where
  init := M.init
  step s e := if G s e then M.step s e else none

/-- The machine with a history beside its state; `record` says what a step makes of it. -/
def withHistory {γ : Type*} (g : γ) (record : σ → ε → γ → γ) : StepMachine (σ × γ) ε where
  init := (M.init, g)
  step s e := (M.step s.1 e).map fun t => (t, record s.1 e s.2)

/-- However the run is ended by events of `Q`, from any point on, it stays in `P`. -/
def Safe (Q : ε → Prop) (P : σ → Prop) (es : List ε) : Prop :=
  ∀ pre, pre <+: es → ∀ es', (∀ e ∈ es', Q e) → M.Always P (pre ++ es')

/-- The run can be ended by events of `Q` so that it leaves `P`. -/
def Doomed (Q : ε → Prop) (P : σ → Prop) (es : List ε) : Prop :=
  ∃ es', (∀ e ∈ es', Q e) ∧ ¬ M.Always P (es ++ es')

/-! ## Runs -/

@[simp] theorem run_nil : M.run [] = some M.init := rfl

theorem run_concat (es : List ε) (e : ε) :
    M.run (es ++ [e]) = (M.run es).bind fun s => M.step s e := by
  simp [run, List.foldlM_append]

theorem run_concat_eq_some {es : List ε} {e : ε} {t : σ} :
    M.run (es ++ [e]) = some t ↔ ∃ s, M.run es = some s ∧ M.step s e = some t := by
  rw [run_concat, Option.bind_eq_some_iff]

/-! ## `Always` and `Each`, one event more -/

theorem always_nil {P : σ → Prop} : M.Always P [] ↔ P M.init := by
  constructor
  · intro h
    exact h [] M.init (List.prefix_refl []) rfl
  · intro h pre t hpre ht
    rw [List.prefix_nil.mp hpre, run_nil, Option.some.injEq] at ht
    exact ht ▸ h

theorem always_concat {P : σ → Prop} {es : List ε} {e : ε} :
    M.Always P (es ++ [e]) ↔ M.Always P es ∧ ∀ t, M.run (es ++ [e]) = some t → P t := by
  constructor
  · intro h
    exact ⟨fun pre t hpre => h pre t (hpre.trans (List.prefix_append es [e])),
      fun t => h _ t (List.prefix_refl _)⟩
  · rintro ⟨h, hlast⟩ pre t hpre ht
    rcases List.prefix_concat_iff.mp hpre with rfl | hpre
    · exact hlast t ht
    · exact h pre t hpre ht

theorem each_nil {C : σ → ε → Prop} : M.Each C [] := by
  intro pre e t hpre
  simp at hpre

theorem each_concat {C : σ → ε → Prop} {es : List ε} {e : ε} :
    M.Each C (es ++ [e]) ↔ M.Each C es ∧ ∀ t, M.run es = some t → C t e := by
  constructor
  · intro h
    exact ⟨fun pre e' t hpre => h pre e' t (hpre.trans (List.prefix_append es [e])),
      fun t => h es e t (List.prefix_refl _)⟩
  · rintro ⟨h, hlast⟩ pre e' t hpre ht
    rcases List.prefix_concat_iff.mp hpre with he | hpre
    · obtain ⟨rfl, he⟩ := List.append_inj' he rfl
      obtain rfl : e' = e := by simpa using he
      exact hlast t ht
    · exact h pre e' t hpre ht

/-- Events that always meet `C` can be added. -/
theorem each_append_of_mem {C : σ → ε → Prop} {es es' : List ε} (h : M.Each C es)
    (h' : ∀ e ∈ es', ∀ s, C s e) : M.Each C (es ++ es') := by
  induction es' using List.reverseRecOn with
  | nil => rwa [List.append_nil]
  | append_singleton es' e ih =>
    rw [← List.append_assoc, each_concat]
    refine ⟨ih fun e' he' => h' e' (List.mem_append_left _ he'), fun t _ => ?_⟩
    exact h' e (List.mem_append_right _ List.mem_cons_self) t

theorem each_of_forall_mem {C : σ → ε → Prop} {es : List ε} (h : ∀ e ∈ es, ∀ s, C s e) :
    M.Each C es := by
  have happend := M.each_append_of_mem M.each_nil h
  rwa [List.nil_append] at happend

theorem each_and {C D : σ → ε → Prop} {es : List ε} :
    M.Each (fun s e => C s e ∧ D s e) es ↔ M.Each C es ∧ M.Each D es := by
  constructor
  · intro h
    exact ⟨fun pre e t hpre ht => (h pre e t hpre ht).1, fun pre e t hpre ht => (h pre e t hpre ht).2⟩
  · rintro ⟨hC, hD⟩ pre e t hpre ht
    exact ⟨hC pre e t hpre ht, hD pre e t hpre ht⟩

/-- What holds at the start holds in every state exactly when every step leads to it. -/
theorem always_iff_each_step {P : σ → Prop} (hP0 : P M.init) {es : List ε} :
    M.Always P es ↔ M.Each (fun s e => ∀ t, M.step s e = some t → P t) es := by
  constructor
  · intro h pre e s hpre hs t ht
    exact h (pre ++ [e]) t hpre (M.run_concat_eq_some.mpr ⟨s, hs, ht⟩)
  · intro h pre t hpre ht
    rcases List.eq_nil_or_concat pre with rfl | ⟨pre', e, rfl⟩
    · rw [run_nil, Option.some.injEq] at ht
      exact ht ▸ hP0
    · rw [List.concat_eq_append] at hpre ht
      obtain ⟨s, hs, he⟩ := M.run_concat_eq_some.mp ht
      exact h pre' e s hpre hs t he

theorem Each.of_prefix {M : StepMachine σ ε} {C : σ → ε → Prop} {pre es : List ε}
    (h : M.Each C es) (hpre : pre <+: es) : M.Each C pre :=
  fun pre' e t hpre' => h pre' e t (hpre'.trans hpre)

theorem Always.last {M : StepMachine σ ε} {P : σ → Prop} {es : List ε} (h : M.Always P es)
    {t : σ} (ht : M.run es = some t) : P t :=
  h es t (List.prefix_refl es) ht

/-! ## The rules -/

/-- **The rule for runs whose steps meet a condition.** -/
theorem invariant_of_each {I : σ → Prop} {C : σ → ε → Prop} (h0 : I M.init)
    (hstep : ∀ s e t, I s → C s e → M.step s e = some t → I t) {es : List ε} (hC : M.Each C es)
    {t : σ} (ht : M.run es = some t) : I t := by
  induction es using List.reverseRecOn generalizing t with
  | nil =>
    rw [run_nil, Option.some.injEq] at ht
    exact ht ▸ h0
  | append_singleton es e ih =>
    obtain ⟨s, hs, he⟩ := M.run_concat_eq_some.mp ht
    obtain ⟨hC, hlast⟩ := M.each_concat.mp hC
    exact hstep s e t (ih hC hs) (hlast s hs) he

/-- **The invariant rule.** -/
theorem invariant {I : σ → Prop} (h0 : I M.init)
    (hstep : ∀ s e t, I s → M.step s e = some t → I t) {es : List ε} {t : σ}
    (ht : M.run es = some t) : I t :=
  have hfree : M.Each (fun _ _ => True) es := M.each_of_forall_mem fun _ _ _ => trivial
  M.invariant_of_each h0 (fun s e t hs _ => hstep s e t hs) hfree ht

/-- The invariant rule, from some point of the run on. -/
theorem invariant_append {I : σ → Prop} (hstep : ∀ s e t, I s → M.step s e = some t → I t)
    {es es' : List ε} {s t : σ} (hs : M.run es = some s) (h : I s)
    (ht : M.run (es ++ es') = some t) : I t := by
  induction es' using List.reverseRecOn generalizing t with
  | nil =>
    rw [List.append_nil, hs, Option.some.injEq] at ht
    exact ht ▸ h
  | append_singleton es' e ih =>
    rw [← List.append_assoc] at ht
    obtain ⟨u, hu, he⟩ := M.run_concat_eq_some.mp ht
    exact hstep u e t (ih hu) he

theorem always_of_each {I P : σ → Prop} {C : σ → ε → Prop} (h0 : I M.init)
    (hstep : ∀ s e t, I s → C s e → M.step s e = some t → I t) (hP : ∀ s, I s → P s)
    {es : List ε} (hC : M.Each C es) : M.Always P es := by
  intro pre t hpre ht
  exact hP t (M.invariant_of_each h0 hstep (hC.of_prefix hpre) ht)

/-- **The exact rule.**  If the invariant `I` is kept whatever happens, and on it a
step ends in `P` exactly when it meets `C`, then a run stays in `P` exactly when
all its steps meet `C`. -/
theorem always_iff_each {I P : σ → Prop} {C : σ → ε → Prop} (h0 : I M.init) (hP0 : P M.init)
    (hI : ∀ s e t, I s → M.step s e = some t → I t)
    (hstep : ∀ s e t, I s → P s → M.step s e = some t → (P t ↔ C s e)) {es : List ε} {t : σ}
    (ht : M.run es = some t) : M.Always P es ↔ M.Each C es := by
  induction es using List.reverseRecOn generalizing t with
  | nil => exact ⟨fun _ => M.each_nil, fun _ => M.always_nil.mpr hP0⟩
  | append_singleton es e ih =>
    obtain ⟨s, hs, he⟩ := M.run_concat_eq_some.mp ht
    have hs' := M.invariant h0 hI hs
    rw [always_concat, each_concat, ih hs]
    refine and_congr_right fun hC => ?_
    have hP : P s := ((ih hs).mpr hC).last hs
    constructor
    · intro h s' hs1
      obtain rfl : s = s' := Option.some.inj (hs.symm.trans hs1)
      exact (hstep s e t hs' hP he).mp (h t ht)
    · intro h t' ht1
      obtain rfl : t = t' := Option.some.inj (ht.symm.trans ht1)
      exact (hstep s e t hs' hP he).mpr (h s hs)

/-- **The exact rule for what is required of a step.**  If steps that meet `C` keep `I`, and on
`I` a step is as required exactly when it meets `C`, then so it is with runs. -/
theorem each_iff_each {I : σ → Prop} {C R : σ → ε → Prop} (h0 : I M.init)
    (hstep : ∀ s e t, I s → C s e → M.step s e = some t → I t)
    (hiff : ∀ s e t, I s → M.step s e = some t → (R s e ↔ C s e)) {es : List ε} {t : σ}
    (ht : M.run es = some t) : M.Each R es ↔ M.Each C es := by
  induction es using List.reverseRecOn generalizing t with
  | nil => exact iff_of_true M.each_nil M.each_nil
  | append_singleton es e ih =>
    obtain ⟨s, hs, he⟩ := M.run_concat_eq_some.mp ht
    rw [each_concat, each_concat, ih hs]
    refine and_congr_right fun hC => ?_
    have hI : I s := M.invariant_of_each h0 hstep hC hs
    constructor
    · intro h s' hs'
      obtain rfl : s = s' := Option.some.inj (hs.symm.trans hs')
      exact (hiff s e t hI he).mp (h s hs)
    · intro h s' hs'
      obtain rfl : s = s' := Option.some.inj (hs.symm.trans hs')
      exact (hiff s e t hI he).mpr (h s hs)

/-! ## Runs that are doomed -/

variable {M} in
theorem doomed_of_not {Q : ε → Prop} {P : σ → Prop} {es : List ε} {t : σ}
    (ht : M.run es = some t) (hP : ¬ P t) : M.Doomed Q P es := by
  refine ⟨[], nofun, fun h => hP (h.last ?_)⟩
  rwa [List.append_nil]

variable {M} in
theorem doomed_of_concat {Q : ε → Prop} {P : σ → Prop} {es : List ε} {e : ε} (he : Q e)
    (h : M.Doomed Q P (es ++ [e])) : M.Doomed Q P es := by
  obtain ⟨es', hQ, hnot⟩ := h
  refine ⟨e :: es', fun e' he' => ?_, ?_⟩
  · rcases List.mem_cons.mp he' with rfl | he'
    · exact he
    · exact hQ e' he'
  · rwa [List.append_assoc, List.singleton_append] at hnot

/-- **The exact rule for failures that show later.**  If steps that meet `C` keep `I`, the
events of `Q` always meet `C`, and a step outside `C` dooms the run, then a run is safe exactly
when all its steps meet `C`. -/
theorem safe_iff_each {I P : σ → Prop} {C : σ → ε → Prop} {Q : ε → Prop} (h0 : I M.init)
    (hstep : ∀ s e t, I s → C s e → M.step s e = some t → I t) (hP : ∀ s, I s → P s)
    (hQ : ∀ s e, Q e → C s e)
    (hdoomed : ∀ es e s t, M.run es = some s → I s → M.step s e = some t → ¬ C s e →
      M.Doomed Q P (es ++ [e])) {es : List ε} {t : σ} (ht : M.run es = some t) :
    M.Safe Q P es ↔ M.Each C es := by
  constructor
  · induction es using List.reverseRecOn generalizing t with
    | nil => exact fun _ => M.each_nil
    | append_singleton es e ih =>
      intro h
      obtain ⟨s, hs, he⟩ := M.run_concat_eq_some.mp ht
      have hes := ih hs fun pre hpre => h pre (hpre.trans (List.prefix_append es [e]))
      refine M.each_concat.mpr ⟨hes, fun s' hs' => ?_⟩
      obtain rfl : s = s' := Option.some.inj (hs.symm.trans hs')
      by_contra hnot
      obtain ⟨es', hquiet, hbad⟩ :=
        hdoomed es e s t hs (M.invariant_of_each h0 hstep hes hs) he hnot
      exact hbad (h (es ++ [e]) (List.prefix_refl _) es' hquiet)
  · intro h pre hpre es' hquiet
    exact M.always_of_each h0 hstep hP
      (M.each_append_of_mem (h.of_prefix hpre) fun e he s => hQ s e (hquiet e he))

/-! ## Guards -/

theorem guard_step_eq_some {G : σ → ε → Prop} [∀ s e, Decidable (G s e)] {s t : σ} {e : ε} :
    (M.guard G).step s e = some t ↔ G s e ∧ M.step s e = some t := by
  by_cases h : G s e <;> simp [guard, h]

/-- The runs of the guarded machine are the runs whose steps all meet the guard. -/
theorem run_of_guard {G : σ → ε → Prop} [∀ s e, Decidable (G s e)] {es : List ε} {t : σ}
    (h : (M.guard G).run es = some t) : M.run es = some t ∧ M.Each G es := by
  induction es using List.reverseRecOn generalizing t with
  | nil => exact ⟨h, M.each_nil⟩
  | append_singleton es e ih =>
    obtain ⟨s, hs, he⟩ := (M.guard G).run_concat_eq_some.mp h
    obtain ⟨hG, he⟩ := M.guard_step_eq_some.mp he
    obtain ⟨hrun, heach⟩ := ih hs
    refine ⟨M.run_concat_eq_some.mpr ⟨s, hrun, he⟩, M.each_concat.mpr ⟨heach, fun s' hs' => ?_⟩⟩
    obtain rfl : s = s' := Option.some.inj (hrun.symm.trans hs')
    exact hG

/-! ## Histories -/

section History

variable {γ : Type*} {g : γ} {record : σ → ε → γ → γ}

theorem withHistory_step_eq_some {s t : σ × γ} {e : ε} :
    (M.withHistory g record).step s e = some t ↔
      M.step s.1 e = some t.1 ∧ t.2 = record s.1 e s.2 := by
  unfold withHistory
  constructor
  · intro h
    obtain ⟨t, ht, rfl⟩ := Option.map_eq_some_iff.mp h
    exact ⟨ht, rfl⟩
  · rintro ⟨ht, hrecord⟩
    exact Option.map_eq_some_iff.mpr ⟨t.1, ht, by rw [← hrecord]⟩

/-- The history does not interfere. -/
theorem run_withHistory (es : List ε) :
    ((M.withHistory g record).run es).map Prod.fst = M.run es := by
  induction es using List.reverseRecOn with
  | nil => rfl
  | append_singleton es e ih =>
    rw [run_concat, run_concat, ← ih]
    cases (M.withHistory g record).run es with
    | none => rfl
    | some s =>
      show ((M.step s.1 e).map _).map _ = M.step s.1 e
      rw [Option.map_map]
      exact Option.map_id_apply

end History

end StepMachine
