import PetDev.Detection.Comparer
import PetDev.Lib.StepMachine

/-!
# Motion detection on a sequence of frames

`AggregateLumaMotionDetection` keeps the previous frame twice, in static fields: as an array
with its size (`mPrevious`), and as a `State` (`mPreviousState`).  `detect` renews the array
every time.  `isDifferent` renews the state only when it gets as far as the comparison: when
the size changes it answers `true` at once, and the state stays behind.

`answers_right_iff`: every answer is the verdict against the frame just before, exactly when
the frame that the state stayed at gives the same verdict.  After a change of size the
second frame of the new size is compared with a frame of the old one.
-/

namespace PetDev.Detection

open Java

/-! ## The detector -/

/-- The static fields of `AggregateLumaMotionDetection`. -/
structure Statics where
  mPrevious : Option (Array Int)
  mPreviousWidth : Int
  mPreviousHeight : Int
  mPreviousState : Option State

namespace AggregateLumaMotionDetection

def initial : Statics := ⟨none, 0, 0, none⟩

def mXBoxes : Int := 10

def mYBoxes : Int := 10

def isDifferent (mLeniency : Int) (first : Array Int) (width height : Int) (s : Statics) :
    Option (Bool × Statics) :=
  match s.mPrevious with
  | none => some (false, s)
  | some mPrevious =>
    if first.size ≠ mPrevious.size then some (true, s)
    else if s.mPreviousWidth ≠ width ∨ s.mPreviousHeight ≠ height then some (true, s)
    else
      match s.mPreviousState with
      | none => do
        let state ← State.new mPrevious s.mPreviousWidth s.mPreviousHeight
        return (false, { s with mPreviousState := some state })
      | some mPreviousState => do
        let state ← State.new first width height
        let different ← different state mPreviousState mXBoxes mYBoxes mLeniency
        return (different, { s with mPreviousState := some state })

def detect (mLeniency : Int) (luma : Array Int) (width height : Int) (s : Statics) :
    Option (Bool × Statics) := do
  let s := match s.mPrevious with
    | none =>
      { s with mPrevious := some luma, mPreviousWidth := width, mPreviousHeight := height }
    | some _ => s
  let (motionDetected, s) ← isDifferent mLeniency luma width height s
  return (motionDetected,
    { s with mPrevious := some luma, mPreviousWidth := width, mPreviousHeight := height })

end AggregateLumaMotionDetection

/-- The static fields, and the frames and answers so far, the latest first. -/
structure Session where
  statics : Statics
  frames : List Frame
  answers : List Bool

/-- One detector, given one frame after the other. -/
def detectionMachine (mLeniency : Int) : StepMachine Session Frame where
  init := ⟨AggregateLumaMotionDetection.initial, [], []⟩
  step s f :=
    (AggregateLumaMotionDetection.detect mLeniency f.luma f.width f.height s.statics).map fun r =>
      ⟨r.2, f :: s.frames, r.1 :: s.answers⟩

/-! ## What the answers should be -/

def SameSize (f g : Frame) : Prop := f.width = g.width ∧ f.height = g.height

instance (f g : Frame) : Decidable (SameSize f g) :=
  inferInstanceAs (Decidable (_ ∧ _))

/-- The answer that depends on the frame and the one before only. -/
def expected (mLeniency : Int) (f g : Frame) : Option Bool :=
  if SameSize f g then verdict mLeniency f g else some true

/-- The last frame that `mPreviousState` was renewed for: the first one, or one of the size of the
frame before it. -/
def reference : List Frame → Option Frame
  | [] => none
  | [f] => some f
  | f :: g :: fs => if SameSize f g then some f else reference (g :: fs)

namespace Session

/-- The latest answer is the expected one, and an unchanged frame is no motion. -/
def Right (mLeniency : Int) (s : Session) : Prop :=
  ∀ f g fs b bs, s.frames = f :: g :: fs → s.answers = b :: bs →
    some b = expected mLeniency f g ∧ (f = g → b = false)

/-- **The condition on a frame**: if it has the size of the one before, the reference frame gives
the same verdict as that one; and if it is that one, the leniency is not negative. -/
def Fresh (mLeniency : Int) (s : Session) (f : Frame) : Prop :=
  ∀ g ∈ s.frames.head?, (SameSize f g →
    ∀ r ∈ reference s.frames, verdict mLeniency f r = verdict mLeniency f g) ∧
    (f = g → 0 ≤ mLeniency)

/-! ## The static fields follow the frames -/

/-- The array is the latest frame, and the state is that of the reference frame. -/
structure Follows (s : Statics) (frames : List Frame) : Prop where
  first : frames = [] → s = AggregateLumaMotionDetection.initial
  previous : ∀ g ∈ frames.head?, s.mPrevious = some g.luma ∧ s.mPreviousWidth = g.width ∧
    s.mPreviousHeight = g.height
  state : ∀ r ∈ reference frames, s.mPreviousState = State.new r.luma r.width r.height

theorem follows_initial : Follows AggregateLumaMotionDetection.initial [] :=
  ⟨fun _ => rfl, nofun, nofun⟩

theorem exists_reference (f : Frame) (fs : List Frame) : ∃ r, reference (f :: fs) = some r := by
  induction fs generalizing f with
  | nil => exact ⟨f, rfl⟩
  | cons g fs ih =>
    by_cases h : SameSize f g
    · exact ⟨f, if_pos h⟩
    · obtain ⟨r, hr⟩ := ih g
      exact ⟨r, by rw [← hr]; exact if_neg h⟩

/-- The first frame becomes the array and the state, and is no motion. -/
theorem detect_first (mLeniency : Int) (f : Frame) : ∃ s',
    AggregateLumaMotionDetection.detect mLeniency f.luma f.width f.height
      AggregateLumaMotionDetection.initial = some (false, s') ∧ Follows s' [f] := by
  obtain ⟨state, hstate, -⟩ := exists_state f
  refine ⟨⟨some f.luma, f.width, f.height, some state⟩, ?_, ?_⟩
  · simp [AggregateLumaMotionDetection.detect, AggregateLumaMotionDetection.isDifferent,
      AggregateLumaMotionDetection.initial, hstate]
  · refine ⟨nofun, ?_, ?_⟩
    · rintro g hg
      obtain rfl := Option.some.inj hg
      exact ⟨rfl, rfl, rfl⟩
    · rintro r hr
      obtain rfl := Option.some.inj hr
      exact hstate.symm

/-- A frame of another size is motion, and leaves the state behind. -/
theorem detect_of_not_sameSize (mLeniency : Int) {s : Statics} {f g : Frame} {fs : List Frame}
    (h : Follows s (g :: fs)) (hne : ¬ SameSize f g) : ∃ s',
    AggregateLumaMotionDetection.detect mLeniency f.luma f.width f.height s = some (true, s') ∧
      Follows s' (f :: g :: fs) := by
  obtain ⟨hprevious, hwidth, hheight⟩ := h.previous g rfl
  refine ⟨⟨some f.luma, f.width, f.height, s.mPreviousState⟩, ?_, ?_⟩
  · have hdifferent : s.mPreviousWidth ≠ f.width ∨ s.mPreviousHeight ≠ f.height := by
      rw [hwidth, hheight]
      by_contra hsame
      obtain ⟨hw, hh⟩ := not_or.mp hsame
      exact hne ⟨(not_not.mp hw).symm, (not_not.mp hh).symm⟩
    simp only [AggregateLumaMotionDetection.detect, AggregateLumaMotionDetection.isDifferent,
      hprevious, if_pos hdifferent, ite_self]
    rfl
  · refine ⟨nofun, ?_, ?_⟩
    · rintro g' hg
      obtain rfl := Option.some.inj hg
      exact ⟨rfl, rfl, rfl⟩
    · intro r hr
      rw [Option.mem_def, reference, if_neg hne] at hr
      exact h.state r hr

/-- A frame of the same size is compared with the reference frame, and becomes it. -/
theorem detect_of_sameSize (mLeniency : Int) {s : Statics} {f g r : Frame} {fs : List Frame}
    (h : Follows s (g :: fs)) (hsame : SameSize f g) (hr : reference (g :: fs) = some r) :
    ∃ b s', verdict mLeniency f r = some b ∧
      AggregateLumaMotionDetection.detect mLeniency f.luma f.width f.height s = some (b, s') ∧
      Follows s' (f :: g :: fs) := by
  obtain ⟨hprevious, hwidth, hheight⟩ := h.previous g rfl
  obtain ⟨b, hb, -⟩ := exists_verdict mLeniency f r
  obtain ⟨state, hstate, -⟩ := exists_state f
  obtain ⟨rstate, hrstate, -⟩ := exists_state r
  have hpstate : s.mPreviousState = some rstate := (h.state r hr).trans hrstate
  have hsize : f.luma.size = g.luma.size := by
    have hf := f.size_eq
    rw [hsame.1, hsame.2, ← g.size_eq] at hf
    exact Int.ofNat_inj.mp hf
  have hdifferent : ¬ (s.mPreviousWidth ≠ f.width ∨ s.mPreviousHeight ≠ f.height) := by
    rw [hwidth, hheight, hsame.1, hsame.2]
    exact not_or.mpr ⟨not_not.mpr rfl, not_not.mpr rfl⟩
  have hcompare : different state rstate 10 10 mLeniency = some b := by
    rw [← hb]
    unfold verdict
    rw [hstate, hrstate]
    rfl
  refine ⟨b, ⟨some f.luma, f.width, f.height, some state⟩, hb, ?_, ?_⟩
  · simp only [AggregateLumaMotionDetection.detect, AggregateLumaMotionDetection.isDifferent,
      hprevious, hpstate, ne_eq, hsize, not_true_eq_false, if_false, if_neg hdifferent, hstate,
      AggregateLumaMotionDetection.mXBoxes, AggregateLumaMotionDetection.mYBoxes, hcompare,
      Option.bind_eq_bind, Option.bind_some]
    rfl
  · refine ⟨nofun, ?_, ?_⟩
    · rintro g' hg
      obtain rfl := Option.some.inj hg
      exact ⟨rfl, rfl, rfl⟩
    · intro r' hr'
      rw [Option.mem_def, reference, if_pos hsame, Option.some.injEq] at hr'
      subst hr'
      exact hstate.symm

theorem right_cons_cons {mLeniency : Int} {s : Statics} {f g : Frame} {fs : List Frame} {b : Bool}
    {bs : List Bool} : Right mLeniency ⟨s, f :: g :: fs, b :: bs⟩ ↔
      some b = expected mLeniency f g ∧ (f = g → b = false) := by
  constructor
  · intro h
    exact h f g fs b bs rfl rfl
  · intro h f' g' fs' b' bs' hframes hanswers
    simp only [List.cons.injEq] at hframes hanswers
    obtain ⟨rfl, rfl, -⟩ := hframes
    obtain ⟨rfl, -⟩ := hanswers
    exact h

/-- The verdict against the reference frame is right exactly when that frame is fresh. -/
theorem right_iff_fresh {mLeniency : Int} {s s' : Statics} {f g r : Frame} {fs : List Frame}
    {b : Bool} {bs : List Bool} (hsame : SameSize f g) (hr : reference (g :: fs) = some r)
    (hb : verdict mLeniency f r = some b) :
    Right mLeniency ⟨s', f :: g :: fs, b :: bs⟩ ↔ Fresh mLeniency ⟨s, g :: fs, bs⟩ f := by
  obtain ⟨b', hb', hself⟩ := exists_verdict mLeniency f g
  rw [right_cons_cons, expected, if_pos hsame]
  constructor
  · rintro ⟨hverdict, hfalse⟩ g' hg'
    obtain rfl := Option.some.inj hg'
    refine ⟨fun _ r' hr' => ?_, fun heq => ?_⟩
    · obtain rfl := Option.some.inj (hr.symm.trans hr')
      rw [hb, hverdict]
    · obtain rfl := Option.some.inj (hverdict.trans hb')
      have hiff := hself heq
      rw [hfalse heq] at hiff
      by_contra hneg
      exact Bool.false_ne_true (hiff.mpr (not_le.mp hneg))
  · intro hfresh
    obtain ⟨hverdict, hleniency⟩ := hfresh g rfl
    have hright : some b = verdict mLeniency f g := by
      rw [← hb]
      exact hverdict hsame r hr
    refine ⟨hright, fun heq => ?_⟩
    obtain rfl := Option.some.inj (hright.trans hb')
    have hnot := mt (hself heq).mp (not_lt.mpr (hleniency heq))
    exact Bool.eq_false_iff.mpr hnot

/-- A detection never throws, and its answer is right exactly when the reference frame is fresh. -/
theorem exists_step (mLeniency : Int) {s : Session} (h : Follows s.statics s.frames) (f : Frame) :
    ∃ t, (detectionMachine mLeniency).step s f = some t ∧ Follows t.statics t.frames ∧
      (t.Right mLeniency ↔ s.Fresh mLeniency f) := by
  obtain ⟨statics, frames, answers⟩ := s
  cases frames with
  | nil =>
    obtain rfl := h.first rfl
    obtain ⟨s', hs', hfollows⟩ := detect_first mLeniency f
    refine ⟨⟨s', [f], false :: answers⟩, ?_, hfollows, iff_of_true nofun nofun⟩
    show Option.map _ _ = _
    rw [hs']
    rfl
  | cons g fs =>
    by_cases hsame : SameSize f g
    · obtain ⟨r, hr⟩ := exists_reference g fs
      obtain ⟨b, s', hb, hs', hfollows⟩ := detect_of_sameSize mLeniency h hsame hr
      refine ⟨⟨s', f :: g :: fs, b :: answers⟩, ?_, hfollows, right_iff_fresh hsame hr hb⟩
      show Option.map _ _ = _
      rw [hs']
      rfl
    · obtain ⟨s', hs', hfollows⟩ := detect_of_not_sameSize mLeniency h hsame
      refine ⟨⟨s', f :: g :: fs, true :: answers⟩, ?_, hfollows, ?_⟩
      · show Option.map _ _ = _
        rw [hs']
        rfl
      · rw [right_cons_cons, expected, if_neg hsame]
        have hne : f ≠ g := by
          rintro rfl
          exact hsame ⟨rfl, rfl⟩
        refine iff_of_true ⟨rfl, fun heq => absurd heq hne⟩ fun g' hg' => ?_
        obtain rfl := Option.some.inj hg'
        exact ⟨fun hsame' => absurd hsame' hsame, fun heq => absurd heq hne⟩

theorem exists_run (mLeniency : Int) (fs : List Frame) :
    ∃ s, (detectionMachine mLeniency).run fs = some s ∧ Follows s.statics s.frames := by
  induction fs using List.reverseRecOn with
  | nil => exact ⟨_, rfl, follows_initial⟩
  | append_singleton fs f ih =>
    obtain ⟨s, hs, hfollows⟩ := ih
    obtain ⟨t, ht, hfollows', -⟩ := exists_step mLeniency hfollows f
    exact ⟨t, (detectionMachine mLeniency).run_concat_eq_some.mpr ⟨s, hs, ht⟩, hfollows'⟩

end Session

/-- **Every answer depends on the frame and the one before only, exactly when the reference frame
always gives the verdict of the one before.**  No detection throws. -/
theorem answers_right_iff (mLeniency : Int) (fs : List Frame) :
    ∃ s, (detectionMachine mLeniency).run fs = some s ∧
      ((detectionMachine mLeniency).Always (Session.Right mLeniency) fs ↔
        (detectionMachine mLeniency).Each (Session.Fresh mLeniency) fs) := by
  obtain ⟨s, hs, -⟩ := Session.exists_run mLeniency fs
  refine ⟨s, hs, ?_⟩
  refine (detectionMachine mLeniency).always_iff_each
    (I := fun s => Session.Follows s.statics s.frames) Session.follows_initial nofun ?_ ?_ hs
  · intro s f t h ht
    obtain ⟨t', ht', hfollows, -⟩ := Session.exists_step mLeniency h f
    obtain rfl := Option.some.inj (ht.symm.trans ht')
    exact hfollows
  · intro s f t h _ ht
    obtain ⟨t', ht', -, hiff⟩ := Session.exists_step mLeniency h f
    obtain rfl := Option.some.inj (ht.symm.trans ht')
    exact hiff

/-- One dark pixel. -/
def onePixel : Frame := ⟨#[0], 1, 1, by decide, by decide, by decide, by decide⟩

/-- Two of them. -/
def twoPixels : Frame := ⟨#[0, 0], 2, 1, by decide, by decide, by decide, by decide⟩

/-- After the change of size an unchanged picture is reported as motion. -/
theorem not_forall_answers_right : ¬ ∀ (mLeniency : Int) (fs : List Frame),
    (detectionMachine mLeniency).Always (Session.Right mLeniency) fs := by
  intro h
  have hrun : ((detectionMachine 20).run [onePixel, twoPixels, twoPixels]).map
      (fun s => (s.frames, s.answers)) =
      some ([twoPixels, twoPixels, onePixel], [true, true, false]) := by decide +kernel
  obtain ⟨s, hs, hout⟩ := Option.map_eq_some_iff.mp hrun
  obtain ⟨hframes, hanswers⟩ := Prod.mk.inj hout
  have hright := (h 20 [onePixel, twoPixels, twoPixels]).last hs
  cases (hright _ _ _ _ _ hframes hanswers).2 rfl

end PetDev.Detection
