import PetDev.Detection.TwoDetectors

/-!
# No detection throws

As long as every picture is a `Frame`, so are the pictures that the static fields have kept, and
the previous state is the state of one of them.  A comparison reads two maps, of which the second
may be from a picture long ago: it has the size of the first, or it is not read at all.

`frames_never_throw`: whatever sizes follow each other, and whatever leniency is set between
them, every call of every detector answers.
-/

namespace PetDev.Detection

open Java

/-- A call on a detector whose pictures have one luma value for each pixel. -/
inductive FrameCall where
  | detect (f : Frame)
  | setLeniency (l : Int)

namespace FrameCall

def call : FrameCall → DetectorCall
  | .detect f => .detect (some f.luma) f.width f.height
  | .setLeniency l => .setLeniency l

end FrameCall

namespace Picture

def IsFrame (p : Picture) : Prop := ∃ f : Frame, p = ⟨f.luma, f.width, f.height⟩

theorem IsFrame.exists_state {p : Picture} (hp : p.IsFrame) : ∃ s, p.state = some s := by
  obtain ⟨f, rfl⟩ := hp
  obtain ⟨s, hs, -⟩ := PetDev.Detection.exists_state f
  exact ⟨s, hs⟩

/-- The previous state is that of one of the pictures. -/
theorem exists_of_stateOf {s : State} : ∀ {kept : List Picture}, stateOf kept = some s →
    ∃ p ∈ kept, p.state = some s
  | [], h => by cases h
  | [f], h => ⟨f, List.mem_singleton_self f, h⟩
  | f :: g :: fs, h => by
    by_cases hsame : SameSize f g
    · rw [stateOf_of_sameSize fs hsame] at h
      cases hprevious : stateOf (g :: fs) with
      | none =>
        rw [hprevious] at h
        exact ⟨g, List.mem_cons_of_mem f List.mem_cons_self, h⟩
      | some previous =>
        rw [hprevious] at h
        exact ⟨f, List.mem_cons_self, h⟩
    · rw [stateOf_of_not_sameSize fs hsame] at h
      obtain ⟨p, hp, hstate⟩ := exists_of_stateOf h
      exact ⟨p, List.mem_cons_of_mem f hp, hstate⟩

/-- A frame is compared with the state of another one without an exception. -/
theorem IsFrame.exists_compared {p q : Picture} (hp : p.IsFrame) (hq : q.IsFrame) {s : State}
    (hs : q.state = some s) (l : Int) : ∃ b, p.compared l s = some b := by
  obtain ⟨f, rfl⟩ := hp
  obtain ⟨g, rfl⟩ := hq
  obtain ⟨b, hb, -⟩ := exists_verdict l f g
  change State.new g.luma g.width g.height = some s at hs
  refine ⟨b, ?_⟩
  unfold verdict at hb
  rw [hs] at hb
  exact hb

/-- **Among frames every call answers.** -/
theorem IsFrame.exists_answer {f : Picture} (hf : f.IsFrame) {kept : List Picture}
    (hkept : ∀ p ∈ kept, p.IsFrame) (l : Int) : ∃ b, f.answer l kept = some b := by
  cases kept with
  | nil =>
    obtain ⟨s, hs⟩ := hf.exists_state
    exact ⟨false, by rw [answer, hs, Option.map_some]⟩
  | cons g fs =>
    by_cases hsame : SameSize f g
    · rw [answer, if_pos hsame, seen]
      cases hprevious : stateOf (g :: fs) with
      | none =>
        obtain ⟨s, hs⟩ := (hkept g List.mem_cons_self).exists_state
        exact ⟨false, by rw [List.headD_cons, hs, Option.map_some]⟩
      | some previous =>
        obtain ⟨p, hp, hstate⟩ := exists_of_stateOf hprevious
        exact hf.exists_compared (hkept p hp) hstate l
    · exact ⟨true, if_neg hsame⟩

theorem forall_isFrame_keep {f : Picture} (hf : f.IsFrame) {kept : List Picture}
    (hkept : ∀ p ∈ kept, p.IsFrame) (l : Int) : ∀ p ∈ keep l f kept, p.IsFrame := by
  unfold keep
  split
  · exact List.forall_mem_cons.mpr ⟨hf, hkept⟩
  · exact hkept

end Picture

namespace Detectors

variable {ι : Type*} [DecidableEq ι]

/-- Only frames have been kept, and every call has answered. -/
structure OnFrames (s : Detectors ι) : Prop where
  statics : s.statics = Picture.staticsOf s.kept
  frames : ∀ p ∈ s.kept, p.IsFrame
  answers : ∀ a ∈ s.answers, ∃ b, a.2 = some b

omit [DecidableEq ι] in
theorem onFrames_start : OnFrames (start : Detectors ι) := ⟨rfl, nofun, nofun⟩

theorem OnFrames.step {s : Detectors ι} (h : OnFrames s) (e : ι × FrameCall) :
    OnFrames (s.step (e.1, e.2.call)) := by
  obtain ⟨i, call⟩ := e
  cases call with
  | detect f =>
    have hf : Picture.IsFrame ⟨f.luma, f.width, f.height⟩ := ⟨f, rfl⟩
    refine ⟨statics_detect h.statics i _, Picture.forall_isFrame_keep hf h.frames _, ?_⟩
    refine List.forall_mem_cons.mpr ⟨?_, h.answers⟩
    rw [h.statics, Picture.detectOrThrow_eq]
    exact hf.exists_answer h.frames _
  | setLeniency l => exact ⟨h.statics, h.frames, h.answers⟩

theorem exists_onFrames (es : List (ι × FrameCall)) :
    ∃ s, (detectorsMachine ι).run (es.map fun e => (e.1, e.2.call)) = some s ∧ s.OnFrames := by
  induction es using List.reverseRecOn with
  | nil => exact ⟨start, rfl, onFrames_start⟩
  | append_singleton es e ih =>
    obtain ⟨s, hs, hframes⟩ := ih
    refine ⟨s.step (e.1, e.2.call), ?_, hframes.step e⟩
    rw [List.map_append]
    exact (detectorsMachine ι).run_concat_eq_some.mpr ⟨s, hs, rfl⟩

end Detectors

/-- **No detection of a frame throws**, of whichever detector, after whichever frames, and with
whichever leniency. -/
theorem frames_never_throw (ι : Type*) [DecidableEq ι] (es : List (ι × FrameCall)) :
    ∃ s, (detectorsMachine ι).run (es.map fun e => (e.1, e.2.call)) = some s ∧
      ∀ a ∈ s.answers, ∃ b, a.2 = some b := by
  obtain ⟨s, hs, hframes⟩ := Detectors.exists_onFrames es
  exact ⟨s, hs, hframes.answers⟩

/-- A change of size, and a leniency below zero. -/
example : ((detectorsMachine Unit).run ((([.detect onePixel, .detect twoPixels, .setLeniency (-1),
    .detect twoPixels, .detect onePixel] : List FrameCall).map fun c => ((), c.call)))).map
      (fun s => s.answers.map Prod.snd) =
    some [some true, some true, some true, some false] := by
  decide +kernel

end PetDev.Detection
