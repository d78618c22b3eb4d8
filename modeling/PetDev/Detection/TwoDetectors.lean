import PetDev.Detection.AggregateLuma
import PetDev.Lib.NonInterference
import Mathlib.Logic.Function.Basic

/-!
# Several detectors

Each `AggregateLumaMotionDetection` has its own leniency, but the previous picture and the
previous state are static: all detectors share them, and a detector compares its picture with
the last one that any of them was given.  Any arrays and sizes may be given here, so that a
call can throw.

* `detectOrThrow_eq`: what a call answers, and what it leaves in the static fields, is a
  function of the pictures that the fields have kept.
* `nonInterfering_iff_undisturbed`: every detector answers what it would answer alone exactly
  when every call is `Undisturbed`, that is, when the pictures kept of all detectors and those
  kept of its own lead to the same answer.
-/

namespace PetDev.Detection

open Java

/-! ## A call that may throw -/

structure Picture where
  luma : Array Int
  width : Int
  height : Int
  deriving DecidableEq

namespace AggregateLumaMotionDetection

/-- `detect`, with the static fields that it leaves behind when it throws.  All that has been
assigned by then is the previous picture, if there was none. -/
def detectOrThrow (mLeniency : Int) (f : Picture) (s : Statics) : Option Bool × Statics :=
  match detect mLeniency f.luma f.width f.height s with
  | some (motionDetected, s) => (some motionDetected, s)
  | none =>
    (none, match s.mPrevious with
      | none =>
        { s with
          mPrevious := some f.luma
          mPreviousWidth := f.width
          mPreviousHeight := f.height }
      | some _ => s)

end AggregateLumaMotionDetection

/-! ## What the static fields keep -/

namespace Picture

def state (f : Picture) : Option State := State.new f.luma f.width f.height

def SameSize (f g : Picture) : Prop :=
  f.luma.size = g.luma.size ∧ g.width = f.width ∧ g.height = f.height

instance (f g : Picture) : Decidable (SameSize f g) := inferInstanceAs (Decidable (_ ∧ _))

/-- The comparison of `f` with a state. -/
def compared (l : Int) (f : Picture) (previous : State) : Option Bool := do
  let state ← f.state
  different state previous AggregateLumaMotionDetection.mXBoxes
    AggregateLumaMotionDetection.mYBoxes l

/-- The previous state, when these pictures have been kept, the latest first. -/
def stateOf : List Picture → Option State
  | [] => none
  | [f] => f.state
  | f :: g :: fs =>
    if SameSize f g then
      match stateOf (g :: fs) with
      | none => g.state
      | some _ => f.state
    else stateOf (g :: fs)

/-- What is seen of `f` when it has the size of the last picture: with no state to compare it
with, that of the last picture is made and no motion is seen. -/
def seen (l : Int) (f : Picture) (kept : List Picture) : Option Bool :=
  match stateOf kept with
  | none => (kept.headD f).state.map fun _ => false
  | some previous => f.compared l previous

/-- The answer to `f`, `none` for an exception. -/
def answer (l : Int) (f : Picture) : List Picture → Option Bool
  | [] => f.state.map fun _ => false
  | g :: fs => if SameSize f g then f.seen l (g :: fs) else some true

/-- A picture is kept unless it makes `detect` throw; the first one is kept in any case. -/
def keep (l : Int) (f : Picture) (kept : List Picture) : List Picture :=
  if kept = [] ∨ (answer l f kept).isSome = true then f :: kept else kept

/-- The static fields. -/
def staticsOf : List Picture → Statics
  | [] => AggregateLumaMotionDetection.initial
  | g :: fs => ⟨some g.luma, g.width, g.height, stateOf (g :: fs)⟩

theorem keep_ne_nil (l : Int) (f : Picture) (kept : List Picture) : keep l f kept ≠ [] := by
  unfold keep
  split
  · exact List.cons_ne_nil f kept
  · next h => exact fun hnil => h (Or.inl hnil)

theorem keep_of_answer {l : Int} {f : Picture} {kept : List Picture} {b : Bool}
    (h : answer l f kept = some b) : keep l f kept = f :: kept :=
  if_pos (Or.inr (by rw [h]; rfl))

theorem keep_of_throw {l : Int} {f g : Picture} {fs : List Picture}
    (h : answer l f (g :: fs) = none) : keep l f (g :: fs) = g :: fs := by
  refine if_neg (not_or.mpr ⟨List.cons_ne_nil g fs, ?_⟩)
  rw [h]
  exact Bool.false_ne_true

theorem stateOf_of_sameSize {f g : Picture} (fs : List Picture) (h : SameSize f g) :
    stateOf (f :: g :: fs) =
      match stateOf (g :: fs) with
      | none => g.state
      | some _ => f.state :=
  if_pos h

theorem stateOf_of_not_sameSize {f g : Picture} (fs : List Picture) (h : ¬ SameSize f g) :
    stateOf (f :: g :: fs) = stateOf (g :: fs) :=
  if_neg h

/-- The call when there is a previous picture `g`. -/
theorem detect_of_previous (l : Int) (f g : Picture) (state : Option State) :
    AggregateLumaMotionDetection.detect l f.luma f.width f.height
        ⟨some g.luma, g.width, g.height, state⟩ =
      if SameSize f g then
        match state with
        | none => g.state.map fun state => (false, ⟨some f.luma, f.width, f.height, some state⟩)
        | some previous => (f.state.bind fun state =>
          (different state previous AggregateLumaMotionDetection.mXBoxes
            AggregateLumaMotionDetection.mYBoxes l).map fun b =>
              (b, ⟨some f.luma, f.width, f.height, some state⟩))
      else some (true, ⟨some f.luma, f.width, f.height, state⟩) := by
  unfold AggregateLumaMotionDetection.detect AggregateLumaMotionDetection.isDifferent
  by_cases hsize : f.luma.size = g.luma.size
  · by_cases hshape : g.width = f.width ∧ g.height = f.height
    · have hsame : SameSize f g := ⟨hsize, hshape⟩
      obtain ⟨hwidth, hheight⟩ := hshape
      rw [if_pos hsame]
      simp only [hsize, hwidth, hheight, ne_eq, not_true_eq_false, or_self, if_false]
      cases state with
      | none =>
        have hstate : g.state = State.new g.luma f.width f.height := by
          rw [Picture.state, hwidth, hheight]
        rw [hstate]
        cases State.new g.luma f.width f.height <;> rfl
      | some previous =>
        show _ = (State.new f.luma f.width f.height).bind _
        cases State.new f.luma f.width f.height with
        | none => rfl
        | some state =>
          cases hdifferent : different state previous AggregateLumaMotionDetection.mXBoxes
            AggregateLumaMotionDetection.mYBoxes l <;> simp [hdifferent]
    · have hsame : ¬ SameSize f g := fun h => hshape h.2
      have hother : g.width ≠ f.width ∨ g.height ≠ f.height := by
        by_contra h
        exact hshape (by simpa using h)
      rw [if_neg hsame]
      simp only [if_pos hother, ite_self]
      rfl
  · have hsame : ¬ SameSize f g := fun h => hsize h.1
    rw [if_neg hsame]
    simp only [ne_eq, hsize, not_false_eq_true, if_true]
    rfl

section

variable {l : Int} {f g : Picture} {fs : List Picture}

/-- A call that throws leaves the static fields as they are. -/
theorem detectOrThrow_of_throw (hnone : AggregateLumaMotionDetection.detect l f.luma f.width
      f.height (staticsOf (g :: fs)) = none) (hanswer : answer l f (g :: fs) = none) :
    AggregateLumaMotionDetection.detectOrThrow l f (staticsOf (g :: fs)) =
      (answer l f (g :: fs), staticsOf (keep l f (g :: fs))) := by
  rw [keep_of_throw hanswer, hanswer, AggregateLumaMotionDetection.detectOrThrow, hnone]
  rfl

/-- A call that returns keeps the picture. -/
theorem detectOrThrow_of_return {b : Bool} {state : Option State}
    (hsome : AggregateLumaMotionDetection.detect l f.luma f.width f.height
      (staticsOf (g :: fs)) = some (b, ⟨some f.luma, f.width, f.height, state⟩))
    (hanswer : answer l f (g :: fs) = some b) (hstate : stateOf (f :: g :: fs) = state) :
    AggregateLumaMotionDetection.detectOrThrow l f (staticsOf (g :: fs)) =
      (answer l f (g :: fs), staticsOf (keep l f (g :: fs))) := by
  rw [keep_of_answer hanswer, hanswer, AggregateLumaMotionDetection.detectOrThrow, hsome, ← hstate]
  rfl

/-- The picture is compared with the previous state. -/
theorem detectOrThrow_of_state (hsame : SameSize f g) {previous : State}
    (hprevious : stateOf (g :: fs) = some previous) :
    AggregateLumaMotionDetection.detectOrThrow l f (staticsOf (g :: fs)) =
      (answer l f (g :: fs), staticsOf (keep l f (g :: fs))) := by
  have hdetect : AggregateLumaMotionDetection.detect l f.luma f.width f.height
      (staticsOf (g :: fs)) = _ := detect_of_previous l f g (stateOf (g :: fs))
  have hanswer : answer l f (g :: fs) = f.seen l (g :: fs) := if_pos hsame
  have hseen : f.seen l (g :: fs) = f.compared l previous := by
    simp only [seen, hprevious]
  have hstate := stateOf_of_sameSize fs hsame
  simp only [hprevious, if_pos hsame] at hdetect hstate
  rw [hseen, compared] at hanswer
  cases hf : f.state with
  | none =>
    rw [hf] at hdetect hanswer
    exact detectOrThrow_of_throw hdetect hanswer
  | some state =>
    rw [hf] at hdetect hanswer hstate
    rw [Option.bind_some] at hdetect
    rw [Option.bind_eq_bind, Option.bind_some] at hanswer
    cases hdifferent : different state previous AggregateLumaMotionDetection.mXBoxes
        AggregateLumaMotionDetection.mYBoxes l with
    | none =>
      rw [hdifferent] at hdetect hanswer
      exact detectOrThrow_of_throw hdetect hanswer
    | some b =>
      rw [hdifferent] at hdetect hanswer
      exact detectOrThrow_of_return hdetect hanswer hstate

/-- Without a previous state, that of the previous picture is made. -/
theorem detectOrThrow_of_no_state (hsame : SameSize f g) (hprevious : stateOf (g :: fs) = none) :
    AggregateLumaMotionDetection.detectOrThrow l f (staticsOf (g :: fs)) =
      (answer l f (g :: fs), staticsOf (keep l f (g :: fs))) := by
  have hdetect : AggregateLumaMotionDetection.detect l f.luma f.width f.height
      (staticsOf (g :: fs)) = _ := detect_of_previous l f g (stateOf (g :: fs))
  have hanswer : answer l f (g :: fs) = f.seen l (g :: fs) := if_pos hsame
  have hseen : f.seen l (g :: fs) = g.state.map fun _ => false := by
    simp only [seen, hprevious, List.headD_cons]
  have hstate := stateOf_of_sameSize fs hsame
  simp only [hprevious, if_pos hsame] at hdetect hstate
  rw [hseen] at hanswer
  cases hg : g.state with
  | none =>
    rw [hg] at hdetect hanswer
    exact detectOrThrow_of_throw hdetect hanswer
  | some state =>
    rw [hg] at hdetect hanswer hstate
    exact detectOrThrow_of_return hdetect hanswer hstate

end

/-- **A call answers, and leaves behind, what the pictures kept so far say.** -/
theorem detectOrThrow_eq (l : Int) (f : Picture) (kept : List Picture) :
    AggregateLumaMotionDetection.detectOrThrow l f (staticsOf kept) =
      (answer l f kept, staticsOf (keep l f kept)) := by
  cases kept with
  | nil =>
    have hkeep : keep l f [] = [f] := if_pos (Or.inl rfl)
    have hdetect : AggregateLumaMotionDetection.detect l f.luma f.width f.height (staticsOf []) =
        f.state.map fun state => (false, ⟨some f.luma, f.width, f.height, some state⟩) := by
      show AggregateLumaMotionDetection.detect l f.luma f.width f.height
        ⟨some f.luma, f.width, f.height, none⟩ = _
      rw [detect_of_previous l f f none, if_pos ⟨rfl, rfl, rfl⟩]
    rw [hkeep, AggregateLumaMotionDetection.detectOrThrow, hdetect]
    show _ = (f.state.map _, (⟨some f.luma, f.width, f.height, f.state⟩ : Statics))
    cases f.state <;> rfl
  | cons g fs =>
    by_cases hsame : SameSize f g
    · cases hprevious : stateOf (g :: fs) with
      | none => exact detectOrThrow_of_no_state hsame hprevious
      | some previous => exact detectOrThrow_of_state hsame hprevious
    · have hdetect : AggregateLumaMotionDetection.detect l f.luma f.width f.height
          (staticsOf (g :: fs)) = _ := detect_of_previous l f g (stateOf (g :: fs))
      rw [if_neg hsame] at hdetect
      exact detectOrThrow_of_return hdetect (if_neg hsame) (stateOf_of_not_sameSize fs hsame)

end Picture

/-! ## Detectors that share the static fields -/

/-- A call on one of the detectors.  The array may be `null`. -/
inductive DetectorCall where
  | detect (luma : Option (Array Int)) (width height : Int)
  | setLeniency (l : Int)

/-- The static fields, the leniency of each detector, and the answers so far, the latest first.
The state also keeps the pictures that the static fields have kept, and those that they would
have kept of each detector alone. -/
structure Detectors (ι : Type*) where
  statics : Statics
  mLeniency : ι → Int
  answers : List (ι × Option Bool)
  kept : List Picture
  own : ι → List Picture

namespace Detectors

variable {ι : Type*} [DecidableEq ι]

/-- The detectors as they are constructed. -/
def start : Detectors ι :=
  ⟨AggregateLumaMotionDetection.initial, fun _ => 20, [], [], fun _ => []⟩

def detect (i : ι) (f : Picture) (s : Detectors ι) : Detectors ι :=
  let r := AggregateLumaMotionDetection.detectOrThrow (s.mLeniency i) f s.statics
  { s with
    statics := r.2
    answers := (i, r.1) :: s.answers
    kept := Picture.keep (s.mLeniency i) f s.kept
    own := Function.update s.own i (Picture.keep (s.mLeniency i) f (s.own i)) }

def step (s : Detectors ι) (e : ι × DetectorCall) : Detectors ι :=
  match e.2 with
  | .detect (some luma) width height => s.detect e.1 ⟨luma, width, height⟩
  | .detect none _ _ => { s with answers := (e.1, none) :: s.answers }
  | .setLeniency l => { s with mLeniency := Function.update s.mLeniency e.1 l }

/-- What detector `i` has answered, `none` for an exception. -/
def answersOf (i : ι) (s : Detectors ι) : List (Option Bool) :=
  (s.answers.filter fun a => a.1 = i).map Prod.snd

end Detectors

def detectorsMachine (ι : Type*) [DecidableEq ι] :
    StepMachine (Detectors ι) (ι × DetectorCall) :=
  ⟨Detectors.start, fun s e => some (s.step e)⟩

namespace Detectors

variable {ι : Type*} [DecidableEq ι]

/-- **The condition on a picture**, with the leniency `l`: the pictures `kept` and `own` lead to
the same answer. -/
def Agree (l : Int) (f : Picture) (kept own : List Picture) : Prop :=
  ∀ g ∈ kept.head?,
    match own with
    -- alone, the first picture is no motion
    | [] => f.SameSize g ∧ f.seen l kept = f.state.map fun _ => false
    | h :: _ =>
      (f.SameSize g → f.SameSize h → f.seen l kept = f.seen l own) ∧
      (f.SameSize g → ¬ f.SameSize h → f.seen l kept = some true) ∧
      (¬ f.SameSize g → f.SameSize h → f.seen l own = some true)

/-- The condition on a call. -/
def Undisturbed (s : Detectors ι) (e : ι × DetectorCall) : Prop :=
  match e.2 with
  | .detect (some luma) width height =>
    Agree (s.mLeniency e.1) ⟨luma, width, height⟩ s.kept (s.own e.1)
  | _ => True

/-- The condition says when both lists of pictures lead to one answer. -/
theorem answer_eq_iff (l : Int) (f : Picture) {kept own : List Picture}
    (hown : kept = [] → own = []) :
    f.answer l kept = f.answer l own ↔ Agree l f kept own := by
  cases kept with
  | nil =>
    rw [hown rfl]
    exact iff_of_true rfl nofun
  | cons g gs =>
    cases own with
    | nil =>
      by_cases hg : f.SameSize g
      · simp [Agree, Picture.answer, hg]
      · simp [Agree, Picture.answer, hg]
    | cons h hs =>
      by_cases hg : f.SameSize g <;> by_cases hh : f.SameSize h
      · simp [Agree, Picture.answer, hg, hh]
      · simp [Agree, Picture.answer, hg, hh]
      · simp [Agree, Picture.answer, hg, hh, eq_comm]
      · simp [Agree, Picture.answer, hg, hh]

/-! ## The run of all calls, and the run of one detector's -/

/-- `t` is where detector `i` would be alone. -/
structure Beside (i : ι) (s t : Detectors ι) : Prop where
  shared : s.statics = Picture.staticsOf s.kept
  alone : t.statics = Picture.staticsOf (s.own i)
  first : s.kept = [] → s.own i = []
  leniency : t.mLeniency i = s.mLeniency i

omit [DecidableEq ι] in
theorem beside_start (i : ι) : Beside i (start : Detectors ι) start :=
  ⟨rfl, rfl, fun _ => rfl, rfl⟩

theorem answersOf_detect_self (s : Detectors ι) (i : ι) (f : Picture) :
    (s.detect i f).answersOf i =
      (AggregateLumaMotionDetection.detectOrThrow (s.mLeniency i) f s.statics).1 ::
        s.answersOf i := by
  simp [answersOf, detect]

theorem answersOf_detect_of_ne (s : Detectors ι) {i j : ι} (h : j ≠ i) (f : Picture) :
    (s.detect j f).answersOf i = s.answersOf i := by
  simp [answersOf, detect, h]

/-- After a call the static fields follow what has been kept. -/
theorem statics_detect {s : Detectors ι} {kept : List Picture}
    (h : s.statics = Picture.staticsOf kept) (i : ι) (f : Picture) :
    (s.detect i f).statics = Picture.staticsOf (Picture.keep (s.mLeniency i) f kept) := by
  show (AggregateLumaMotionDetection.detectOrThrow (s.mLeniency i) f s.statics).2 = _
  rw [h, Picture.detectOrThrow_eq]

/-- The calls of the others. -/
theorem Beside.other {i : ι} {s t : Detectors ι} {e : ι × DetectorCall} (h : Beside i s t)
    (he : e.1 ≠ i) : Beside i (s.step e) t ∧ (s.step e).answersOf i = s.answersOf i := by
  obtain ⟨j, call⟩ := e
  cases call with
  | detect luma width height =>
    cases luma with
    | none =>
      refine ⟨⟨h.shared, h.alone, h.first, h.leniency⟩, ?_⟩
      simp [step, answersOf, show j ≠ i from he]
    | some luma =>
      have hown : (s.detect j ⟨luma, width, height⟩).own i = s.own i :=
        Function.update_of_ne he.symm ..
      refine ⟨⟨statics_detect h.shared j _, ?_, ?_, h.leniency⟩, answersOf_detect_of_ne s he _⟩
      · show t.statics = Picture.staticsOf ((s.detect j _).own i)
        rw [hown]
        exact h.alone
      · exact fun hnil => absurd hnil (Picture.keep_ne_nil _ _ _)
  | setLeniency l =>
    refine ⟨⟨h.shared, h.alone, h.first, ?_⟩, rfl⟩
    rw [h.leniency]
    exact (Function.update_of_ne he.symm l s.mLeniency).symm

/-- Its own calls. -/
theorem Beside.own {s t : Detectors ι} {e : ι × DetectorCall} (h : Beside e.1 s t) :
    Beside e.1 (s.step e) (t.step e) ∧
      ((s.step e).answersOf e.1 = (t.step e).answersOf e.1 ↔
        s.answersOf e.1 = t.answersOf e.1 ∧ s.Undisturbed e) := by
  obtain ⟨i, call⟩ := e
  cases call with
  | detect luma width height =>
    cases luma with
    | none =>
      refine ⟨⟨h.shared, h.alone, h.first, h.leniency⟩, ?_⟩
      simp [step, answersOf, Undisturbed]
    | some luma =>
      let f : Picture := ⟨luma, width, height⟩
      have hown : (s.detect i f).own i = Picture.keep (s.mLeniency i) f (s.own i) :=
        Function.update_self ..
      constructor
      · refine ⟨statics_detect h.shared i f, ?_, ?_, h.leniency⟩
        · show (t.detect i f).statics = Picture.staticsOf ((s.detect i f).own i)
          rw [hown, statics_detect h.alone, h.leniency]
        · exact fun hnil => absurd hnil (Picture.keep_ne_nil _ _ _)
      · show (s.detect i f).answersOf i = (t.detect i f).answersOf i ↔ _
        rw [answersOf_detect_self, answersOf_detect_self, h.shared, h.alone, h.leniency,
          Picture.detectOrThrow_eq, Picture.detectOrThrow_eq, List.cons.injEq,
          answer_eq_iff _ f h.first, and_comm]
        exact Iff.rfl
  | setLeniency l =>
    refine ⟨⟨h.shared, h.alone, h.first, ?_⟩, (and_iff_left trivial).symm⟩
    show Function.update _ _ _ _ = Function.update _ _ _ _
    rw [Function.update_self, Function.update_self]

theorem unwinding : (detectorsMachine ι).Unwinding Prod.fst answersOf Beside Undisturbed where
  init := beside_start
  other _ s _ e h he := ⟨s.step e, rfl, h.other he⟩
  own s t e h := ⟨s.step e, t.step e, rfl, rfl, h.own⟩

end Detectors

/-- **Every detector answers what it would answer alone exactly when every call is
undisturbed.** -/
theorem nonInterfering_iff_undisturbed (ι : Type*) [DecidableEq ι]
    (es : List (ι × DetectorCall)) :
    (detectorsMachine ι).NonInterfering Prod.fst Detectors.answersOf es ↔
      (detectorsMachine ι).Each Detectors.Undisturbed es :=
  Detectors.unwinding.nonInterfering_iff es

/-- A picture of one pixel for one detector, and one of two for another. -/
def onePixelThenTwo : List (Bool × DetectorCall) :=
  [(false, .detect (some #[0]) 1 1), (true, .detect (some #[0, 0]) 2 1)]

/-- The first picture of the second detector is reported as motion. -/
theorem not_forall_nonInterfering : ¬ ∀ es : List (Bool × DetectorCall),
    (detectorsMachine Bool).NonInterfering Prod.fst Detectors.answersOf es := by
  intro h
  have hrun : ((detectorsMachine Bool).run onePixelThenTwo).map
      (fun s => s.answersOf true) = some [some true] := by
    decide +kernel
  have halone : ((detectorsMachine Bool).run (StepMachine.alone Prod.fst true onePixelThenTwo)).map
      (fun s => s.answersOf true) = some [some false] := by
    decide +kernel
  obtain ⟨s, hs, hout⟩ := Option.map_eq_some_iff.mp hrun
  obtain ⟨t, ht, hout'⟩ := Option.map_eq_some_iff.mp halone
  have hsame := h onePixelThenTwo true s t hs ht
  rw [hout, hout'] at hsame
  cases hsame

end PetDev.Detection
