import PetDev.Uvc.Preview

/-!
# Where the frames of a preview are

* `frames_in_one_place`: in every run, every frame allocated so far is in exactly one place.  So
  no frame is worked on by two threads, or after it was freed, and none is freed twice.
* `frames_bounded`: besides the lost frames at most 13 are in memory, one for each callback under
  way, and three for each capture thread that has not ended.  A frame is lost where
  `addCaptureFrame` finds the preview stopped, and each `stopPreview` loses one at most.
-/

namespace PetDev.Uvc

/-! ## Where the frames are -/

def UiPc.frames : UiPc → List Nat
  | .clearing rest => rest
  | .outside | .starting | .stopping | .joiningCapture _ | .joiningPreview | .clearPreviewFrame
  | .clearCaptureFrame => []

def CallbackPc.frames : CallbackPc → List Nat
  | .duplicating _ copy | .adding copy | .recycling copy => [copy]
  | .outside | .called _ | .checked _ | .received _ => []

def PreviewPc.frames : PreviewPc → List Nat
  | .clearing rest => rest
  | .decoding f g | .decoded f g _ | .converting f g | .copying f g | .drawn f g => [f, g]
  | .received f | .dropping f | .drawing f | .getting f | .adding f | .queueing f => [f]
  | .stopped | .preparing | .startingStream | .clearPreviewFrame | .looping | .waiting
  | .finishing => []

/-- `stopPreview` waits for a thread, or is about to. -/
def UiPc.joining : UiPc → Bool
  | .stopping | .joiningCapture _ | .joiningPreview => true
  | _ => false

/-- The frames a `clearPreviewFrame` of the preview thread has still to recycle. -/
def PreviewPc.uncleared : PreviewPc → List Nat
  | .clearing rest => rest
  | _ => []

/-- The preview thread has not created the capture thread yet. -/
def PreviewPc.early : PreviewPc → Bool
  | .preparing | .startingStream | .clearPreviewFrame | .clearing _ => true
  | _ => false

/-- The preview thread is in a round of its loop: it has seen the preview run. -/
def PreviewPc.inRound : PreviewPc → Bool
  | .stopped | .preparing | .startingStream | .clearPreviewFrame | .clearing _ | .looping
  | .finishing => false
  | _ => true

def CaptureLoop.frames : CaptureLoop → List Nat
  | .idle => []
  | .surface converted => converted.toList

def CapturePc.frames : CapturePc → List Nat
  | .stopped | .clearCaptureFrame | .looping | .released => []
  | .inner loop | .waiting loop => loop.frames
  | .leaving converted => converted.toList
  | .getting f => [f]
  | .converting f g | .copying f g => [f, g]
  | .received f converted => f :: converted.toList
  | .calling f loop | .gettingCall f loop | .onFrame f loop | .recycling f loop => f :: loop.frames
  | .convertingCall f g loop | .convertedCall f g _ loop => f :: g :: loop.frames

/-- Every frame allocated so far is in the pool, freed or among `held`, in exactly one place, and
the pool is not too large. -/
structure Stocked (p : ObjectPool) (held : Multiset Nat) : Prop where
  accounts : p.Accounts held
  pool_le : p.pooled.length ≤ framePoolSz

namespace Stocked

variable {p q : ObjectPool} {held held' : Multiset Nat} {x : Nat} {ok : Bool}

theorem of_eq (h : Stocked p held) (he : held' = held) : Stocked p held' := he ▸ h

theorem get (h : Stocked p held) (hget : p.get ok = (some x, q)) : Stocked q ({x} + held) :=
  ⟨h.accounts.get hget, ObjectPool.length_get_le h.pool_le hget⟩

theorem recycle (h : Stocked p held) (he : held = {x} + held') :
    Stocked (p.recycle framePoolSz x) held' :=
  ⟨(h.accounts.of_eq he.symm).recycle, ObjectPool.length_recycle_le h.pool_le⟩

end Stocked

namespace Preview

/-- The frames that are neither in the pool nor freed. -/
def held (s : Preview) : Multiset Nat :=
  (s.lost : Multiset Nat) + s.previewFrames + s.captureQueu.toList + s.ui.frames +
    s.preview.frames + s.callbacks.flatMap CallbackPc.frames + s.captures.flatMap CapturePc.frames

variable {s t : Preview} {ok : Bool}

theorem getFrame_cases (s : Preview) (ok : Bool) :
    (∃ x pool, s.pool.get ok = (some x, pool) ∧ s.getFrame ok = (some x, { s with pool := pool })) ∨
      s.getFrame ok = (none, s) := by
  rcases hget : s.pool.get ok with ⟨_ | x, pool⟩
  · rcases ObjectPool.get_cases hget with ⟨x, hx, -⟩ | ⟨-, -, -, hpool⟩
    · exact absurd hx (by simp)
    · refine Or.inr ?_
      rw [getFrame, hget, hpool]
  · refine Or.inl ⟨x, pool, rfl, ?_⟩
    rw [getFrame, hget]

/-- What `recycleCapture` leaves as it is. -/
theorem recycleCapture_eq (s : Preview) :
    s.recycleCapture = { s with pool := s.recycleCapture.pool, captureQueu := none } := by
  unfold recycleCapture
  cases hq : s.captureQueu <;> simp [recycleFrame, ← hq]

theorem recycleCapture_stocked {rest : Multiset Nat}
    (h : Stocked s.pool (s.captureQueu.toList + rest)) : Stocked s.recycleCapture.pool rest := by
  unfold recycleCapture
  cases hq : s.captureQueu with
  | none =>
    rw [hq] at h
    exact h.of_eq (by simp)
  | some f =>
    rw [hq] at h
    exact h.recycle rfl

/-! ## The steps of the callback -/

section Callback

variable {opened : Bool} {pc pc' : CallbackPc}

theorem addPreviewFrame_stocked {rest : Multiset Nat} {copy : Nat}
    (h : Stocked s.pool (s.previewFrames + CallbackPc.frames (.adding copy) + rest)) :
    Stocked (s.addPreviewFrame copy).2.pool ((s.addPreviewFrame copy).2.previewFrames +
      (s.addPreviewFrame copy).1.frames + rest) := by
  unfold addPreviewFrame
  split
  · refine h.of_eq ?_
    simp only [CallbackPc.frames, ← Multiset.coe_add, Multiset.coe_nil]
    abel
  · exact h

theorem callbackStep_stocked (rest : Multiset Nat)
    (h : Stocked s.pool (s.previewFrames + pc.frames + rest))
    (he : s.callbackStep opened ok pc = some (pc', t)) :
    Stocked t.pool (t.previewFrames + pc'.frames + rest) := by
  cases pc with
  | outside =>
    obtain ⟨-, he⟩ := Option.ite_none_right_eq_some.mp he
    obtain ⟨rfl, rfl⟩ := Prod.mk.inj (Option.some.inj he)
    exact h
  | called image | checked image =>
    obtain ⟨rfl, rfl⟩ := Prod.mk.inj (Option.some.inj he)
    cases s.isRunning <;> exact h
  | received image =>
    unfold callbackStep at he
    rcases s.getFrame_cases ok with ⟨copy, pool, hget, heq⟩ | heq
    · rw [heq] at he
      obtain ⟨rfl, rfl⟩ := Prod.mk.inj (Option.some.inj he)
      refine (h.get hget).of_eq ?_
      simp only [CallbackPc.frames, ObjectPool.coe_cons, Multiset.coe_nil]
      abel
    · rw [heq] at he
      obtain ⟨rfl, rfl⟩ := Prod.mk.inj (Option.some.inj he)
      exact h
  | duplicating image copy =>
    obtain ⟨rfl, rfl⟩ := Prod.mk.inj (Option.some.inj he)
    cases ok <;> exact h
  | adding copy =>
    obtain ⟨-, he⟩ := Option.ite_none_right_eq_some.mp he
    obtain ⟨rfl, rfl⟩ := Prod.mk.inj (Option.some.inj he)
    exact addPreviewFrame_stocked h
  | recycling copy =>
    obtain ⟨rfl, rfl⟩ := Prod.mk.inj (Option.some.inj he)
    refine h.recycle ?_
    simp only [CallbackPc.frames, ObjectPool.coe_cons, Multiset.coe_nil, recycleFrame]
    abel

/-- What a step of a callback changes. -/
theorem callbackStep_same (he : s.callbackStep opened ok pc = some (pc', t)) :
    (pc = .outside → opened = true) ∧
    ∃ pool images camera frames,
      t = { s with
        pool := pool, images := images, camera := camera, previewFrames := frames } ∧
      (frames = s.previewFrames ∨ s.isRunning = true ∧ s.previewMutexFree = true ∧
        frames.length ≤ maxFrame) := by
  cases pc with
  | outside =>
    obtain ⟨hopened, he⟩ := Option.ite_none_right_eq_some.mp he
    obtain ⟨rfl, rfl⟩ := Prod.mk.inj (Option.some.inj he)
    exact ⟨fun _ => hopened, _, _, _, _, rfl, Or.inl rfl⟩
  | received image =>
    unfold callbackStep at he
    rcases s.getFrame_cases ok with ⟨copy, pool, -, heq⟩ | heq
    · rw [heq] at he
      obtain ⟨rfl, rfl⟩ := Prod.mk.inj (Option.some.inj he)
      exact ⟨nofun, _, _, _, _, rfl, Or.inl rfl⟩
    · rw [heq] at he
      obtain ⟨rfl, rfl⟩ := Prod.mk.inj (Option.some.inj he)
      exact ⟨nofun, _, _, _, _, rfl, Or.inl rfl⟩
  | adding copy =>
    obtain ⟨hm, he⟩ := Option.ite_none_right_eq_some.mp he
    have he : s.addPreviewFrame copy = (pc', t) := Option.some.inj he
    unfold addPreviewFrame at he
    split at he
    · rename_i hadd
      obtain ⟨rfl, rfl⟩ := Prod.mk.inj he
      refine ⟨nofun, _, _, _, _, rfl, Or.inr ⟨hadd.1, hm, ?_⟩⟩
      rw [List.length_append, List.length_singleton]
      exact hadd.2
    · obtain ⟨rfl, rfl⟩ := Prod.mk.inj he
      exact ⟨nofun, _, _, _, _, rfl, Or.inl rfl⟩
  | called image | checked image | duplicating image copy | recycling copy =>
    obtain ⟨rfl, rfl⟩ := Prod.mk.inj (Option.some.inj he)
    exact ⟨nofun, _, _, _, _, rfl, Or.inl rfl⟩

end Callback

/-! ## The steps of the preview thread -/

section PreviewThread

variable {pc pc' : PreviewPc}

theorem finishing_eq_some (he : s.previewStep ok .finishing = some (pc', t)) :
    pc' = .stopped ∧ t = { s with streaming := false } ∧
      (ok = true → s.callbacks.getLast? = some .outside) := by
  cases ok with
  | false =>
    obtain ⟨rfl, rfl⟩ := Prod.mk.inj (Option.some.inj he)
    exact ⟨rfl, rfl, nofun⟩
  | true =>
    simp only [previewStep, if_true] at he
    split at he
    · rename_i hlast
      obtain ⟨rfl, rfl⟩ := Prod.mk.inj (Option.some.inj he)
      exact ⟨rfl, rfl, fun _ => hlast⟩
    · exact absurd he nofun

theorem waitPreviewFrame_stocked (rest : Multiset Nat) (h : Stocked s.pool
    ((s.lost : Multiset Nat) + s.previewFrames + s.captureQueu.toList + rest)) :
    Stocked s.waitPreviewFrame.2.pool ((s.waitPreviewFrame.2.lost : Multiset Nat) +
      s.waitPreviewFrame.2.previewFrames + s.waitPreviewFrame.2.captureQueu.toList +
      s.waitPreviewFrame.1.frames + rest) := by
  unfold waitPreviewFrame
  split
  · rename_i frame frames _ hq
    have hframes : (if s.frameMode then PreviewPc.received frame else .drawing frame).frames =
        [frame] := by cases s.frameMode <;> rfl
    refine h.of_eq ?_
    simp only [hframes, hq, ObjectPool.coe_cons, Multiset.coe_nil]
    abel
  · refine h.of_eq ?_
    simp only [PreviewPc.frames, Multiset.coe_nil]
    abel

theorem addCaptureFrame_stocked {rest : Multiset Nat} {frame : Nat} (h : Stocked s.pool
    ((s.lost : Multiset Nat) + s.previewFrames + s.captureQueu.toList + {frame} + rest)) :
    Stocked (s.addCaptureFrame frame).2.pool (((s.addCaptureFrame frame).2.lost : Multiset Nat) +
      (s.addCaptureFrame frame).2.previewFrames + (s.addCaptureFrame frame).2.captureQueu.toList +
      (s.addCaptureFrame frame).1.frames + rest) := by
  unfold addCaptureFrame
  split
  · exact h
  · refine h.of_eq ?_
    simp only [PreviewPc.frames, ← Multiset.coe_add, Multiset.coe_singleton, Multiset.coe_nil]
    abel

theorem previewStep_stocked (rest : Multiset Nat) (h : Stocked s.pool
      ((s.lost : Multiset Nat) + s.previewFrames + s.captureQueu.toList + pc.frames + rest))
    (he : s.previewStep ok pc = some (pc', t)) : Stocked t.pool
      ((t.lost : Multiset Nat) + t.previewFrames + t.captureQueu.toList + pc'.frames + rest) := by
  cases pc with
  | stopped => exact absurd he nofun
  | preparing | startingStream =>
    have he := Option.some.inj he
    cases ok <;> obtain ⟨rfl, rfl⟩ := Prod.mk.inj he <;> exact h
  | clearPreviewFrame =>
    obtain ⟨-, he⟩ := Option.ite_none_right_eq_some.mp he
    obtain ⟨rfl, rfl⟩ := Prod.mk.inj (Option.some.inj he)
    refine h.of_eq ?_
    simp only [PreviewPc.frames, Multiset.coe_nil]
    abel
  | clearing frames =>
    cases frames with
    | nil =>
      obtain ⟨rfl, rfl⟩ := Prod.mk.inj (Option.some.inj he)
      cases ok <;> exact h
    | cons f frames =>
      obtain ⟨rfl, rfl⟩ := Prod.mk.inj (Option.some.inj he)
      refine h.recycle ?_
      simp only [PreviewPc.frames, ObjectPool.coe_cons, recycleFrame]
      abel
  | looping =>
    obtain ⟨rfl, rfl⟩ := Prod.mk.inj (Option.some.inj he)
    cases s.isRunning <;> exact h
  | waiting =>
    obtain ⟨-, he⟩ := Option.ite_none_right_eq_some.mp he
    have he : s.waitPreviewFrame = (pc', t) := Option.some.inj he
    have hwait := waitPreviewFrame_stocked rest (h.of_eq (by
      simp only [PreviewPc.frames, Multiset.coe_nil]
      abel))
    rwa [he] at hwait
  | received f =>
    unfold previewStep at he
    rcases s.getFrame_cases ok with ⟨g, pool, hget, heq⟩ | heq
    · rw [heq] at he
      obtain ⟨rfl, rfl⟩ := Prod.mk.inj (Option.some.inj he)
      refine (h.get hget).of_eq ?_
      simp only [PreviewPc.frames, ObjectPool.coe_cons]
      abel
    · rw [heq] at he
      exact absurd he nofun
  | decoding f g =>
    obtain ⟨rfl, rfl⟩ := Prod.mk.inj (Option.some.inj he)
    exact h
  | decoded f g ok =>
    obtain ⟨rfl, rfl⟩ := Prod.mk.inj (Option.some.inj he)
    have hframes : (if ok then PreviewPc.drawing g else .dropping g).frames = [g] := by
      cases ok <;> rfl
    refine h.recycle ?_
    simp only [hframes, recycleFrame]
    simp only [PreviewPc.frames, ObjectPool.coe_cons]
    abel
  | dropping f | drawn f g =>
    obtain ⟨rfl, rfl⟩ := Prod.mk.inj (Option.some.inj he)
    refine h.recycle ?_
    simp only [PreviewPc.frames, ObjectPool.coe_cons, recycleFrame, Multiset.coe_nil]
    abel
  | drawing f =>
    obtain ⟨-, he⟩ := Option.ite_none_right_eq_some.mp he
    obtain ⟨rfl, rfl⟩ := Prod.mk.inj (Option.some.inj he)
    cases s.previewWindow <;> exact h
  | getting f =>
    unfold previewStep at he
    rcases s.getFrame_cases ok with ⟨g, pool, hget, heq⟩ | heq
    · rw [heq] at he
      obtain ⟨rfl, rfl⟩ := Prod.mk.inj (Option.some.inj he)
      refine (h.get hget).of_eq ?_
      simp only [PreviewPc.frames, ObjectPool.coe_cons]
      abel
    · rw [heq] at he
      obtain ⟨rfl, rfl⟩ := Prod.mk.inj (Option.some.inj he)
      exact h
  | converting f g =>
    obtain ⟨rfl, rfl⟩ := Prod.mk.inj (Option.some.inj he)
    cases ok <;> exact h
  | copying f g =>
    obtain ⟨-, he⟩ := Option.ite_none_right_eq_some.mp he
    obtain ⟨rfl, rfl⟩ := Prod.mk.inj (Option.some.inj he)
    exact h
  | adding f =>
    obtain ⟨-, he⟩ := Option.ite_none_right_eq_some.mp he
    have he : s.addCaptureFrame f = (pc', t) := Option.some.inj he
    have hadd := addCaptureFrame_stocked h
    rwa [he] at hadd
  | queueing f =>
    obtain ⟨rfl, rfl⟩ := Prod.mk.inj (Option.some.inj he)
    rw [recycleCapture_eq]
    have hqueue : Stocked s.recycleCapture.pool ((s.lost : Multiset Nat) + s.previewFrames +
        (PreviewPc.queueing f).frames + rest) := recycleCapture_stocked (h.of_eq (by abel))
    refine hqueue.of_eq ?_
    simp only [PreviewPc.frames, Option.toList, Multiset.coe_nil]
    abel
  | finishing =>
    obtain ⟨rfl, rfl, -⟩ := finishing_eq_some he
    exact h

end PreviewThread

/-! ## What a step of the preview thread does -/

section PreviewThread

variable {pc pc' : PreviewPc}

/-- **A step of the preview thread** from `pc` to `pc'`: which fields it changes, what it does to
the stream and to the capture threads, and when it loses a frame. -/
structure PreviewStep (s : Preview) (ok : Bool) (pc : PreviewPc) (t : Preview) (pc' : PreviewPc) :
    Prop where
  started : pc ≠ .stopped
  same : ∃ pool images mode streaming callbacks captures frames queu lost drawn,
    t = { s with
      pool := pool, images := images, frameMode := mode, streaming := streaming
      callbacks := callbacks, captures := captures, previewFrames := frames, captureQueu := queu
      lost := lost, drawn := drawn }
  stream : (t.streaming = s.streaming ∧ t.callbacks = s.callbacks ∧ pc' ≠ .preparing ∧
      (pc' = .stopped → pc = .preparing)) ∨
    (pc = .preparing ∧ pc' = .startingStream ∧ t.streaming = true ∧
      t.callbacks = s.callbacks ++ [.outside]) ∨
    ((pc = .startingStream ∨ pc = .finishing) ∧ pc' = .stopped ∧ t.streaming = false ∧
      t.callbacks = s.callbacks ∧ (ok = true → s.callbacks.getLast? = some .outside))
  captures : (t.captures = s.captures ∧ (pc'.early = true → pc.early = true)) ∨
    (pc.early = true ∧ pc'.early = false ∧ pc' ≠ .stopped ∧
      t.captures = s.captures ++ [.clearCaptureFrame])
  queue : t.previewFrames.length + pc'.uncleared.length ≤
    s.previewFrames.length + pc.uncleared.length
  lost : (t.lost = s.lost ∧ (pc'.inRound = true → pc.inRound = true ∨ s.isRunning = true)) ∨
    (s.isRunning = false ∧ pc.inRound = true ∧ pc'.inRound = false ∧
      t.lost.length = s.lost.length + 1)

/-- A step inside the loop, or back to its head. -/
theorem PreviewStep.of_inRound (hpc : pc.inRound = true)
    (hpc' : pc'.inRound = true ∨ pc' = .looping)
    (h : ∃ pool images frames queu drawn, t = { s with
        pool := pool, images := images, previewFrames := frames, captureQueu := queu
        drawn := drawn } ∧ frames.length ≤ s.previewFrames.length) :
    PreviewStep s ok pc t pc' := by
  obtain ⟨pool, images, frames, queu, drawn, rfl, hle⟩ := h
  have hlater : pc'.early = false ∧ pc' ≠ .stopped ∧ pc' ≠ .preparing ∧ pc'.uncleared = [] := by
    rcases hpc' with hpc' | rfl
    · cases pc' <;> simp [PreviewPc.inRound] at hpc' <;>
        simp [PreviewPc.early, PreviewPc.uncleared]
    · exact ⟨rfl, nofun, nofun, rfl⟩
  obtain ⟨hearly, hstopped, hpreparing, huncleared⟩ := hlater
  refine ⟨?_, ⟨_, _, _, _, _, _, _, _, _, _, rfl⟩,
    Or.inl ⟨rfl, rfl, hpreparing, fun h => absurd h hstopped⟩,
    Or.inl ⟨rfl, fun h => absurd (hearly.symm.trans h) (by decide)⟩, ?_,
    Or.inl ⟨rfl, fun _ => Or.inl hpc⟩⟩
  · rintro rfl
    exact absurd hpc (by decide)
  · rw [huncleared]
    exact Nat.le_trans hle (Nat.le_add_right _ _)

theorem previewStep_spec (he : s.previewStep ok pc = some (pc', t)) :
    PreviewStep s ok pc t pc' := by
  cases pc with
  | stopped => exact absurd he nofun
  | preparing =>
    have he := Option.some.inj he
    cases ok with
    | true =>
      obtain ⟨rfl, rfl⟩ := Prod.mk.inj he
      exact ⟨nofun, ⟨_, _, _, _, _, _, _, _, _, _, rfl⟩, Or.inr (Or.inl ⟨rfl, rfl, rfl, rfl⟩),
        Or.inl ⟨rfl, fun _ => rfl⟩, Nat.le_refl _, Or.inl ⟨rfl, nofun⟩⟩
    | false =>
      obtain ⟨rfl, rfl⟩ := Prod.mk.inj he
      exact ⟨nofun, ⟨_, _, _, _, _, _, _, _, _, _, rfl⟩,
        Or.inl ⟨rfl, rfl, nofun, fun _ => rfl⟩, Or.inl ⟨rfl, nofun⟩, Nat.le_refl _,
        Or.inl ⟨rfl, nofun⟩⟩
  | startingStream =>
    have he := Option.some.inj he
    cases ok with
    | true =>
      obtain ⟨rfl, rfl⟩ := Prod.mk.inj he
      exact ⟨nofun, ⟨_, _, _, _, _, _, _, _, _, _, rfl⟩, Or.inl ⟨rfl, rfl, nofun, nofun⟩,
        Or.inl ⟨rfl, fun _ => rfl⟩, Nat.le_refl _, Or.inl ⟨rfl, nofun⟩⟩
    | false =>
      obtain ⟨rfl, rfl⟩ := Prod.mk.inj he
      exact ⟨nofun, ⟨_, _, _, _, _, _, _, _, _, _, rfl⟩,
        Or.inr (Or.inr ⟨Or.inl rfl, rfl, rfl, rfl, nofun⟩), Or.inl ⟨rfl, nofun⟩, Nat.le_refl _,
        Or.inl ⟨rfl, nofun⟩⟩
  | clearPreviewFrame =>
    obtain ⟨-, he⟩ := Option.ite_none_right_eq_some.mp he
    obtain ⟨rfl, rfl⟩ := Prod.mk.inj (Option.some.inj he)
    exact ⟨nofun, ⟨_, _, _, _, _, _, _, _, _, _, rfl⟩, Or.inl ⟨rfl, rfl, nofun, nofun⟩,
      Or.inl ⟨rfl, fun _ => rfl⟩, (Nat.zero_add _).le, Or.inl ⟨rfl, nofun⟩⟩
  | clearing frames =>
    cases frames with
    | nil =>
      have he := Option.some.inj he
      cases ok with
      | true =>
        obtain ⟨rfl, rfl⟩ := Prod.mk.inj he
        exact ⟨nofun, ⟨_, _, _, _, _, _, _, _, _, _, rfl⟩, Or.inl ⟨rfl, rfl, nofun, nofun⟩,
          Or.inr ⟨rfl, rfl, nofun, rfl⟩, Nat.le_refl _, Or.inl ⟨rfl, nofun⟩⟩
      | false =>
        obtain ⟨rfl, rfl⟩ := Prod.mk.inj he
        exact ⟨nofun, ⟨_, _, _, _, _, _, _, _, _, _, rfl⟩, Or.inl ⟨rfl, rfl, nofun, nofun⟩,
          Or.inl ⟨rfl, nofun⟩, Nat.le_refl _, Or.inl ⟨rfl, nofun⟩⟩
    | cons f frames =>
      obtain ⟨rfl, rfl⟩ := Prod.mk.inj (Option.some.inj he)
      exact ⟨nofun, ⟨_, _, _, _, _, _, _, _, _, _, rfl⟩, Or.inl ⟨rfl, rfl, nofun, nofun⟩,
        Or.inl ⟨rfl, fun _ => rfl⟩, Nat.le_succ _, Or.inl ⟨rfl, nofun⟩⟩
  | looping =>
    obtain ⟨rfl, rfl⟩ := Prod.mk.inj (Option.some.inj he)
    cases hrun : s.isRunning with
    | true =>
      exact ⟨nofun, ⟨_, _, _, _, _, _, _, _, _, _, rfl⟩, Or.inl ⟨rfl, rfl, nofun, nofun⟩,
        Or.inl ⟨rfl, nofun⟩, Nat.le_refl _, Or.inl ⟨rfl, fun _ => Or.inr hrun⟩⟩
    | false =>
      exact ⟨nofun, ⟨_, _, _, _, _, _, _, _, _, _, rfl⟩, Or.inl ⟨rfl, rfl, nofun, nofun⟩,
        Or.inl ⟨rfl, nofun⟩, Nat.le_refl _, Or.inl ⟨rfl, nofun⟩⟩
  | waiting =>
    obtain ⟨-, he⟩ := Option.ite_none_right_eq_some.mp he
    have he : s.waitPreviewFrame = (pc', t) := Option.some.inj he
    unfold waitPreviewFrame at he
    split at he
    · rename_i hq
      obtain ⟨rfl, rfl⟩ := Prod.mk.inj he
      refine .of_inRound rfl (Or.inl ?_) ⟨_, _, _, _, _, rfl, by simp [hq]⟩
      cases s.frameMode <;> rfl
    · obtain ⟨rfl, rfl⟩ := Prod.mk.inj he
      exact .of_inRound rfl (Or.inr rfl) ⟨_, _, _, _, _, rfl, Nat.le_refl _⟩
  | received f =>
    simp only [previewStep] at he
    rcases s.getFrame_cases ok with ⟨g, pool, -, heq⟩ | heq
    · rw [heq] at he
      obtain ⟨rfl, rfl⟩ := Prod.mk.inj (Option.some.inj he)
      exact .of_inRound rfl (Or.inl rfl) ⟨_, _, _, _, _, rfl, Nat.le_refl _⟩
    · rw [heq] at he
      exact absurd he nofun
  | getting f =>
    simp only [previewStep] at he
    rcases s.getFrame_cases ok with ⟨g, pool, -, heq⟩ | heq
    · rw [heq] at he
      obtain ⟨rfl, rfl⟩ := Prod.mk.inj (Option.some.inj he)
      exact .of_inRound rfl (Or.inl rfl) ⟨_, _, _, _, _, rfl, Nat.le_refl _⟩
    · rw [heq] at he
      obtain ⟨rfl, rfl⟩ := Prod.mk.inj (Option.some.inj he)
      exact .of_inRound rfl (Or.inl rfl) ⟨_, _, _, _, _, rfl, Nat.le_refl _⟩
  | decoded f g ok =>
    obtain ⟨rfl, rfl⟩ := Prod.mk.inj (Option.some.inj he)
    refine .of_inRound rfl (Or.inl ?_) ⟨_, _, _, _, _, rfl, Nat.le_refl _⟩
    cases ok <;> rfl
  | drawing f =>
    obtain ⟨-, he⟩ := Option.ite_none_right_eq_some.mp he
    obtain ⟨rfl, rfl⟩ := Prod.mk.inj (Option.some.inj he)
    refine .of_inRound rfl (Or.inl ?_) ⟨_, _, _, _, _, rfl, Nat.le_refl _⟩
    cases s.previewWindow <;> rfl
  | converting f g =>
    obtain ⟨rfl, rfl⟩ := Prod.mk.inj (Option.some.inj he)
    refine .of_inRound rfl (Or.inl ?_) ⟨_, _, _, _, _, rfl, Nat.le_refl _⟩
    cases ok <;> rfl
  | copying f g =>
    obtain ⟨-, he⟩ := Option.ite_none_right_eq_some.mp he
    obtain ⟨rfl, rfl⟩ := Prod.mk.inj (Option.some.inj he)
    exact .of_inRound rfl (Or.inl rfl) ⟨_, _, _, _, _, rfl, Nat.le_refl _⟩
  | adding f =>
    obtain ⟨-, he⟩ := Option.ite_none_right_eq_some.mp he
    have he : s.addCaptureFrame f = (pc', t) := Option.some.inj he
    unfold addCaptureFrame at he
    by_cases hrun : s.isRunning = true
    · rw [if_pos hrun] at he
      obtain ⟨rfl, rfl⟩ := Prod.mk.inj he
      exact .of_inRound rfl (Or.inl rfl) ⟨_, _, _, _, _, rfl, Nat.le_refl _⟩
    · rw [if_neg hrun] at he
      obtain ⟨rfl, rfl⟩ := Prod.mk.inj he
      exact ⟨nofun, ⟨_, _, _, _, _, _, _, _, _, _, rfl⟩, Or.inl ⟨rfl, rfl, nofun, nofun⟩,
        Or.inl ⟨rfl, nofun⟩, Nat.le_refl _, Or.inr ⟨by simpa using hrun, rfl, rfl, by simp⟩⟩
  | queueing f =>
    obtain ⟨rfl, rfl⟩ := Prod.mk.inj (Option.some.inj he)
    rw [recycleCapture_eq]
    exact .of_inRound rfl (Or.inr rfl) ⟨_, _, _, _, _, rfl, Nat.le_refl _⟩
  | dropping f =>
    obtain ⟨rfl, rfl⟩ := Prod.mk.inj (Option.some.inj he)
    exact .of_inRound rfl (Or.inr rfl) ⟨_, _, _, _, _, rfl, Nat.le_refl _⟩
  | decoding f g | drawn f g =>
    obtain ⟨rfl, rfl⟩ := Prod.mk.inj (Option.some.inj he)
    exact .of_inRound rfl (Or.inl rfl) ⟨_, _, _, _, _, rfl, Nat.le_refl _⟩
  | finishing =>
    obtain ⟨rfl, rfl, hlast⟩ := finishing_eq_some he
    exact ⟨nofun, ⟨_, _, _, _, _, _, _, _, _, _, rfl⟩,
      Or.inr (Or.inr ⟨Or.inr rfl, rfl, rfl, rfl, hlast⟩), Or.inl ⟨rfl, nofun⟩, Nat.le_refl _,
      Or.inl ⟨rfl, nofun⟩⟩

end PreviewThread

/-! ## The steps of a capture thread -/

section Capture

variable {pc pc' : CapturePc}

theorem waitCaptureFrame_stocked {rest : Multiset Nat} {loop : CaptureLoop}
    (h : Stocked s.pool ((s.captureQueu.toList : Multiset Nat) + loop.frames + rest)) :
    Stocked (s.waitCaptureFrame loop).2.pool
      (((s.waitCaptureFrame loop).2.captureQueu.toList : Multiset Nat) +
        (s.waitCaptureFrame loop).1.frames + rest) := by
  unfold waitCaptureFrame
  split
  · rename_i frame _ hq
    refine h.of_eq ?_
    cases loop with
    | idle =>
      simp only [hq, CapturePc.frames, CaptureLoop.frames, Option.toList, ObjectPool.coe_cons,
        Multiset.coe_nil]
      abel
    | surface converted =>
      simp only [hq, CapturePc.frames, CaptureLoop.frames, Option.toList, ObjectPool.coe_cons,
        Multiset.coe_nil]
      abel
  · exact h

theorem captureStep_stocked (rest : Multiset Nat)
    (h : Stocked s.pool ((s.captureQueu.toList : Multiset Nat) + pc.frames + rest))
    (he : s.captureStep ok pc = some (pc', t)) :
    Stocked t.pool ((t.captureQueu.toList : Multiset Nat) + pc'.frames + rest) := by
  cases pc with
  | stopped => exact absurd he nofun
  | clearCaptureFrame =>
    obtain ⟨-, he⟩ := Option.ite_none_right_eq_some.mp he
    obtain ⟨rfl, rfl⟩ := Prod.mk.inj (Option.some.inj he)
    have hqueue : Stocked s.recycleCapture.pool
        (((CapturePc.clearCaptureFrame).frames : Multiset Nat) + rest) :=
      recycleCapture_stocked (h.of_eq (by abel))
    rw [recycleCapture_eq]
    refine hqueue.of_eq ?_
    simp [CapturePc.frames]
  | looping =>
    have he := Option.some.inj he
    by_cases hrun : s.isRunning = true
    · rw [if_pos hrun] at he
      obtain ⟨rfl, rfl⟩ := Prod.mk.inj he
      cases s.captureWindow <;> exact h
    · rw [if_neg hrun] at he
      obtain ⟨rfl, rfl⟩ := Prod.mk.inj he
      exact h
  | inner loop =>
    obtain ⟨rfl, rfl⟩ := Prod.mk.inj (Option.some.inj he)
    cases s.isRunning && s.isCapturing <;> cases loop <;> exact h
  | waiting loop =>
    obtain ⟨-, he⟩ := Option.ite_none_right_eq_some.mp he
    have he : s.waitCaptureFrame loop = (pc', t) := Option.some.inj he
    have hwait := waitCaptureFrame_stocked h
    rwa [he] at hwait
  | received f converted =>
    obtain ⟨rfl, rfl⟩ := Prod.mk.inj (Option.some.inj he)
    cases s.isCapturing <;> cases converted <;> exact h
  | getting f =>
    simp only [captureStep] at he
    rcases s.getFrame_cases ok with ⟨g, pool, hget, heq⟩ | heq
    · rw [heq] at he
      obtain ⟨rfl, rfl⟩ := Prod.mk.inj (Option.some.inj he)
      refine (h.get hget).of_eq ?_
      simp only [CapturePc.frames, ObjectPool.coe_cons]
      abel
    · rw [heq] at he
      obtain ⟨rfl, rfl⟩ := Prod.mk.inj (Option.some.inj he)
      exact h
  | gettingCall f loop =>
    simp only [captureStep] at he
    rcases s.getFrame_cases ok with ⟨g, pool, hget, heq⟩ | heq
    · rw [heq] at he
      obtain ⟨rfl, rfl⟩ := Prod.mk.inj (Option.some.inj he)
      refine (h.get hget).of_eq ?_
      simp only [CapturePc.frames, ObjectPool.coe_cons]
      abel
    · rw [heq] at he
      obtain ⟨rfl, rfl⟩ := Prod.mk.inj (Option.some.inj he)
      exact h
  | converting f g =>
    obtain ⟨rfl, rfl⟩ := Prod.mk.inj (Option.some.inj he)
    cases ok <;> exact h
  | copying f g | convertingCall f g loop | onFrame g loop | released =>
    obtain ⟨rfl, rfl⟩ := Prod.mk.inj (Option.some.inj he)
    exact h
  | calling f loop =>
    obtain ⟨rfl, rfl⟩ := Prod.mk.inj (Option.some.inj he)
    cases s.frameCallbackObj <;> cases s.frameCallbackFunc <;> exact h
  | convertedCall f g ok loop =>
    obtain ⟨rfl, rfl⟩ := Prod.mk.inj (Option.some.inj he)
    have hframes : (if ok then CapturePc.onFrame g loop
        else .recycling g loop).frames = g :: loop.frames := by cases ok <;> rfl
    refine h.recycle ?_
    simp only [hframes, recycleFrame]
    simp only [CapturePc.frames, ObjectPool.coe_cons]
    abel
  | recycling g loop =>
    obtain ⟨rfl, rfl⟩ := Prod.mk.inj (Option.some.inj he)
    refine h.recycle ?_
    simp only [CapturePc.frames, ObjectPool.coe_cons, recycleFrame]
    abel
  | leaving converted =>
    cases converted with
    | none =>
      obtain ⟨rfl, rfl⟩ := Prod.mk.inj (Option.some.inj he)
      exact h
    | some g =>
      obtain ⟨rfl, rfl⟩ := Prod.mk.inj (Option.some.inj he)
      refine h.recycle ?_
      simp only [CapturePc.frames, Option.toList, ObjectPool.coe_cons, recycleFrame,
        Multiset.coe_nil]
      abel

/-- What a step of a capture thread changes. -/
theorem captureStep_same (he : s.captureStep ok pc = some (pc', t)) :
    pc ≠ .stopped ∧ ∃ pool images capturing window queu recorded delivered,
      t = { s with
        pool := pool, images := images, isCapturing := capturing, captureWindow := window
        captureQueu := queu, recorded := recorded, delivered := delivered } ∧
      (queu = s.captureQueu ∨ queu = none) ∧
      (images = s.images ∨ ∃ f x rest, pc.frames = f :: x :: rest ∧
        images = (s.write x (s.images f)).images) := by
  cases pc with
  | stopped => exact absurd he nofun
  | clearCaptureFrame =>
    obtain ⟨-, he⟩ := Option.ite_none_right_eq_some.mp he
    obtain ⟨rfl, rfl⟩ := Prod.mk.inj (Option.some.inj he)
    exact ⟨nofun, _, _, _, _, _, _, _, recycleCapture_eq s, Or.inr rfl, Or.inl rfl⟩
  | looping =>
    have he := Option.some.inj he
    split_ifs at he <;> obtain ⟨rfl, rfl⟩ := Prod.mk.inj he <;>
      exact ⟨nofun, _, _, _, _, _, _, _, rfl, Or.inl rfl, Or.inl rfl⟩
  | waiting loop =>
    obtain ⟨-, he⟩ := Option.ite_none_right_eq_some.mp he
    have he : s.waitCaptureFrame loop = (pc', t) := Option.some.inj he
    unfold waitCaptureFrame at he
    split at he
    · obtain ⟨rfl, rfl⟩ := Prod.mk.inj he
      exact ⟨nofun, _, _, _, _, _, _, _, rfl, Or.inr rfl, Or.inl rfl⟩
    · obtain ⟨rfl, rfl⟩ := Prod.mk.inj he
      exact ⟨nofun, _, _, _, _, _, _, _, rfl, Or.inl rfl, Or.inl rfl⟩
  | getting f | gettingCall f loop =>
    simp only [captureStep] at he
    rcases s.getFrame_cases ok with ⟨g, pool, -, heq⟩ | heq
    · rw [heq] at he
      obtain ⟨rfl, rfl⟩ := Prod.mk.inj (Option.some.inj he)
      exact ⟨nofun, _, _, _, _, _, _, _, rfl, Or.inl rfl, Or.inl rfl⟩
    · rw [heq] at he
      obtain ⟨rfl, rfl⟩ := Prod.mk.inj (Option.some.inj he)
      exact ⟨nofun, _, _, _, _, _, _, _, rfl, Or.inl rfl, Or.inl rfl⟩
  | converting f g =>
    obtain ⟨rfl, rfl⟩ := Prod.mk.inj (Option.some.inj he)
    exact ⟨nofun, _, _, _, _, _, _, _, rfl, Or.inl rfl, Or.inr ⟨f, g, [], rfl, rfl⟩⟩
  | convertingCall f g loop =>
    obtain ⟨rfl, rfl⟩ := Prod.mk.inj (Option.some.inj he)
    exact ⟨nofun, _, _, _, _, _, _, _, rfl, Or.inl rfl, Or.inr ⟨f, g, loop.frames, rfl, rfl⟩⟩
  | leaving converted =>
    cases converted <;> obtain ⟨rfl, rfl⟩ := Prod.mk.inj (Option.some.inj he) <;>
      exact ⟨nofun, _, _, _, _, _, _, _, rfl, Or.inl rfl, Or.inl rfl⟩
  | inner loop | received f converted | copying f g | calling f loop | convertedCall f g ok loop
  | onFrame g loop | recycling g loop | released =>
    obtain ⟨rfl, rfl⟩ := Prod.mk.inj (Option.some.inj he)
    exact ⟨nofun, _, _, _, _, _, _, _, rfl, Or.inl rfl, Or.inl rfl⟩

end Capture

/-! ## The steps of the user interface -/

/-- **A step of `startPreview` or of `stopPreview`.** -/
inductive UiStep (s : Preview) : Preview → Prop
  | started (h : s.ui = .starting) : UiStep s { s with preview := .preparing, ui := .outside }
  | failed (h : s.ui = .starting) : UiStep s { s with isRunning := false, ui := .outside }
  | handle (h : s.ui = .stopping) : UiStep s { s with ui := .joiningCapture s.captures.length }
  | joinedCapture (n : Nat) (h : s.ui = .joiningCapture n)
      (hended : ∀ pc ∈ (s.captures.take n).getLast?, pc = .stopped) :
      UiStep s { s with ui := .joiningPreview }
  | joinedPreview (h : s.ui = .joiningPreview) (hended : s.preview = .stopped) :
      UiStep s { s with ui := .clearPreviewFrame }
  | clear (h : s.ui = .clearPreviewFrame) :
      UiStep s { s with previewFrames := [], ui := .clearing s.previewFrames }
  | recycle (frame : Nat) (rest : List Nat) (h : s.ui = .clearing (frame :: rest)) :
      UiStep s { s.recycleFrame frame with ui := .clearing rest }
  | cleared (h : s.ui = .clearing []) : UiStep s { s with ui := .clearCaptureFrame }
  | stopped (h : s.ui = .clearCaptureFrame) : UiStep s { s with
      pool := s.recycleCapture.pool, captureQueu := none, ui := .outside
      previewWindow := false, captureWindow := false }

theorem uiStep_spec (he : s.uiStep ok = some t) : UiStep s t := by
  unfold uiStep at he
  cases hui : s.ui with
  | outside => rw [hui] at he; exact absurd he nofun
  | starting =>
    rw [hui] at he
    obtain ⟨-, he⟩ := Option.ite_none_right_eq_some.mp he
    obtain rfl := Option.some.inj he
    split
    · exact .started hui
    · exact .failed hui
  | stopping =>
    rw [hui] at he
    obtain rfl := Option.some.inj he
    exact .handle hui
  | joiningCapture n =>
    rw [hui] at he
    dsimp only at he
    split at he
    · rename_i hlast
      obtain rfl := Option.some.inj he
      exact .joinedCapture n hui (by rw [hlast]; exact nofun)
    · rename_i hlast
      obtain rfl := Option.some.inj he
      exact .joinedCapture n hui (by rw [hlast]; exact fun pc hpc => (Option.some.inj hpc).symm)
    · exact absurd he nofun
  | joiningPreview =>
    rw [hui] at he
    dsimp only at he
    split at he
    · rename_i hended
      obtain rfl := Option.some.inj he
      exact .joinedPreview hui hended
    · exact absurd he nofun
  | clearPreviewFrame =>
    rw [hui] at he
    obtain ⟨-, he⟩ := Option.ite_none_right_eq_some.mp he
    obtain rfl := Option.some.inj he
    exact .clear hui
  | clearing rest =>
    rw [hui] at he
    cases rest with
    | nil =>
      obtain rfl := Option.some.inj he
      exact .cleared hui
    | cons frame rest =>
      obtain rfl := Option.some.inj he
      exact .recycle frame rest hui
  | clearCaptureFrame =>
    rw [hui, recycleCapture_eq] at he
    obtain ⟨-, he⟩ := Option.ite_none_right_eq_some.mp he
    obtain rfl := Option.some.inj he
    exact .stopped hui

/-! ## The preview thread comes and goes -/

structure Cycle (s : Preview) : Prop where
  /-- The preview thread is there only while the preview runs, or is being stopped. -/
  alive : s.preview ≠ .stopped → s.isRunning = true ∧ s.ui = .outside ∨ s.ui.joining = true
  starting : s.ui = .starting → s.isRunning = true
  stopping : s.ui ≠ .outside → s.ui ≠ .starting → s.isRunning = false
  streamed : s.preview = .stopped ∨ s.preview = .preparing → s.streaming = false
  queue_le : s.previewFrames.length + s.ui.frames.length + s.preview.uncleared.length ≤ maxFrame

theorem Cycle.ended (h : Cycle s) (hui : s.ui.joining = false)
    (hrun : s.isRunning = false ∨ s.ui ≠ .outside) : s.preview = .stopped := by
  by_contra hne
  rcases h.alive hne with ⟨hrun', hui'⟩ | hjoining
  · rcases hrun with hrun | hrun
    · exact absurd (hrun.symm.trans hrun') (by decide)
    · exact hrun hui'
  · exact absurd (hui.symm.trans hjoining) (by decide)

/-- With `preview_mutex` free nobody is clearing the queue. -/
theorem frames_of_previewMutexFree (hm : s.previewMutexFree = true) :
    s.ui.frames = [] ∧ s.preview.uncleared = [] := by
  unfold previewMutexFree at hm
  cases hpc : s.preview <;> cases hui : s.ui <;> simp [hpc, hui] at hm ⊢ <;> exact ⟨rfl, rfl⟩

theorem callbackStep_cycle {i : Nat} (h : Cycle s) (he : step s (.callback i ok) = some t) :
    Cycle t := by
  obtain ⟨pc, pc', u, -, hu, rfl⟩ := step_callback_eq_some he
  obtain ⟨-, pool, images, camera, frames, rfl, hqueue⟩ := callbackStep_same hu
  refine ⟨h.alive, h.starting, h.stopping, h.streamed, ?_⟩
  rcases hqueue with rfl | ⟨-, hm, hle⟩
  · exact h.queue_le
  · obtain ⟨hui, hpreview⟩ := frames_of_previewMutexFree hm
    show frames.length + s.ui.frames.length + s.preview.uncleared.length ≤ maxFrame
    rw [hui, hpreview]
    exact hle

theorem captureStep_cycle {i : Nat} (h : Cycle s) (he : step s (.capture i ok) = some t) :
    Cycle t := by
  obtain ⟨pc, pc', u, -, hu, rfl⟩ := step_capture_eq_some he
  obtain ⟨-, pool, images, capturing, window, queu, recorded, delivered, rfl, -⟩ :=
    captureStep_same hu
  exact ⟨h.alive, h.starting, h.stopping, h.streamed, h.queue_le⟩

theorem previewStep_cycle (h : Cycle s) (he : step s (.preview ok) = some t) : Cycle t := by
  obtain ⟨pc, u, hu, rfl⟩ := step_preview_eq_some he
  have hspec := previewStep_spec hu
  obtain ⟨pool, images, mode, streaming, callbacks, captures, frames, queu, lost, drawn, rfl⟩ :=
    hspec.same
  refine ⟨fun _ => h.alive hspec.started, h.starting, h.stopping, fun hpc => ?_, ?_⟩
  · have hpc : pc = .stopped ∨ pc = .preparing := hpc
    rcases hspec.stream with ⟨hstream, -, hne, hstopped⟩ | ⟨-, rfl, -⟩ | ⟨-, -, hstream, -⟩
    · exact hstream.trans (h.streamed (Or.inr (hstopped (hpc.resolve_right hne))))
    · exact absurd hpc (by simp)
    · exact hstream
  · have hqueue := hspec.queue
    have hle := h.queue_le
    show frames.length + s.ui.frames.length + pc.uncleared.length ≤ maxFrame
    have hqueue : frames.length + pc.uncleared.length ≤
      s.previewFrames.length + s.preview.uncleared.length := hqueue
    omega

theorem uiStep_cycle (h : Cycle s) (he : UiStep s t) : Cycle t := by
  have hle := h.queue_le
  cases he with
  | started hui =>
    have hended := h.ended (by rw [hui]; rfl) (Or.inr (by simp [hui]))
    refine ⟨fun _ => Or.inl ⟨h.starting hui, rfl⟩, nofun, fun hne => absurd rfl hne,
      fun _ => h.streamed (Or.inl hended), ?_⟩
    rw [hui, hended] at hle
    exact hle
  | failed hui =>
    have hended := h.ended (by rw [hui]; rfl) (Or.inr (by simp [hui]))
    refine ⟨fun hne => absurd hended hne, nofun, fun hne => absurd rfl hne, h.streamed, ?_⟩
    rw [hui] at hle
    exact hle
  | handle hui =>
    have hrun := h.stopping (by simp [hui]) (by simp [hui])
    refine ⟨fun _ => Or.inr rfl, nofun, fun _ _ => hrun, h.streamed, ?_⟩
    rw [hui] at hle
    exact hle
  | joinedCapture n hui =>
    have hrun := h.stopping (by simp [hui]) (by simp [hui])
    refine ⟨fun _ => Or.inr rfl, nofun, fun _ _ => hrun, h.streamed, ?_⟩
    rw [hui] at hle
    exact hle
  | joinedPreview hui hended =>
    have hrun := h.stopping (by simp [hui]) (by simp [hui])
    refine ⟨fun hne => absurd hended hne, nofun, fun _ _ => hrun, h.streamed, ?_⟩
    rw [hui] at hle
    exact hle
  | clear hui | cleared hui | stopped hui =>
    have hrun := h.stopping (by simp [hui]) (by simp [hui])
    have hended := h.ended (by rw [hui]; rfl) (Or.inl hrun)
    refine ⟨fun hne => absurd hended hne, nofun, fun _ _ => hrun, h.streamed, ?_⟩
    rw [hui] at hle
    simpa [UiPc.frames] using hle
  | recycle frame rest hui =>
    have hrun := h.stopping (by simp [hui]) (by simp [hui])
    have hended := h.ended (by rw [hui]; rfl) (Or.inl hrun)
    refine ⟨fun hne => absurd hended hne, nofun, fun _ _ => hrun, h.streamed, ?_⟩
    rw [hui] at hle
    simp only [UiPc.frames, List.length_cons] at hle
    show s.previewFrames.length + rest.length + s.preview.uncleared.length ≤ maxFrame
    omega

/-! ## Every step -/

structure Inv (s : Preview) : Prop where
  stocked : Stocked s.pool s.held
  cycle : Cycle s

theorem init_inv : Inv init where
  stocked := ⟨ObjectPool.empty_accounts, Nat.zero_le _⟩
  cycle := ⟨fun h => absurd rfl h, nofun, fun _ _ => rfl, fun _ => rfl, Nat.zero_le _⟩

theorem callbackStep_stocked_held {i : Nat} (h : Stocked s.pool s.held)
    (he : step s (.callback i ok) = some t) : Stocked t.pool t.held := by
  obtain ⟨pc, pc', u, hpc, hu, rfl⟩ := step_callback_eq_some he
  obtain ⟨rest, hs, ht⟩ := ObjectPool.coe_flatMap_set (f := CallbackPc.frames) hpc pc'
  have hstep := callbackStep_stocked ((s.lost : Multiset Nat) + s.captureQueu.toList +
    s.ui.frames + s.preview.frames + rest + s.captures.flatMap CapturePc.frames)
    (h.of_eq (by unfold held; rw [hs]; abel)) hu
  obtain ⟨-, pool, images, camera, frames, rfl, -⟩ := callbackStep_same hu
  refine hstep.of_eq ?_
  unfold held
  rw [ht]
  abel

theorem captureStep_stocked_held {i : Nat} (h : Stocked s.pool s.held)
    (he : step s (.capture i ok) = some t) : Stocked t.pool t.held := by
  obtain ⟨pc, pc', u, hpc, hu, rfl⟩ := step_capture_eq_some he
  obtain ⟨rest, hs, ht⟩ := ObjectPool.coe_flatMap_set (f := CapturePc.frames) hpc pc'
  have hstep := captureStep_stocked ((s.lost : Multiset Nat) + s.previewFrames +
    s.ui.frames + s.preview.frames + s.callbacks.flatMap CallbackPc.frames + rest)
    (h.of_eq (by unfold held; rw [hs]; abel)) hu
  obtain ⟨-, pool, images, capturing, window, queu, recorded, delivered, rfl, -⟩ :=
    captureStep_same hu
  refine hstep.of_eq ?_
  unfold held
  rw [ht]
  abel

/-- The threads that the preview thread creates hold nothing. -/
theorem PreviewStep.flatMap_frames {pc pc' : PreviewPc} (h : PreviewStep s ok pc t pc') :
    t.callbacks.flatMap CallbackPc.frames = s.callbacks.flatMap CallbackPc.frames ∧
      t.captures.flatMap CapturePc.frames = s.captures.flatMap CapturePc.frames := by
  constructor
  · rcases h.stream with ⟨-, hcallbacks, -⟩ | ⟨-, -, -, hcallbacks⟩ | ⟨-, -, -, hcallbacks, -⟩
    · rw [hcallbacks]
    · rw [hcallbacks, List.flatMap_append]
      exact List.append_nil _
    · rw [hcallbacks]
  · rcases h.captures with ⟨hcaptures, -⟩ | ⟨-, -, -, hcaptures⟩
    · rw [hcaptures]
    · rw [hcaptures, List.flatMap_append]
      exact List.append_nil _

theorem previewStep_stocked_held (h : Stocked s.pool s.held)
    (he : step s (.preview ok) = some t) : Stocked t.pool t.held := by
  obtain ⟨pc, u, hu, rfl⟩ := step_preview_eq_some he
  have hspec := previewStep_spec hu
  obtain ⟨hcallbacks, hcaptures⟩ := hspec.flatMap_frames
  have hstep := previewStep_stocked ((s.ui.frames : Multiset Nat) +
    s.callbacks.flatMap CallbackPc.frames + s.captures.flatMap CapturePc.frames)
    (h.of_eq (by unfold held; abel)) hu
  rw [← hcallbacks, ← hcaptures] at hstep
  obtain ⟨pool, images, mode, streaming, callbacks, captures, frames, queu, lost, drawn, rfl⟩ :=
    hspec.same
  refine hstep.of_eq ?_
  unfold held
  abel

theorem uiStep_stocked_held (h : Inv s) (he : UiStep s t) : Stocked t.pool t.held := by
  have hs := h.stocked
  cases he with
  | started hui =>
    have hended := h.cycle.ended (by rw [hui]; rfl) (Or.inr (by simp [hui]))
    exact hs.of_eq (by simp [held, hui, hended, UiPc.frames, PreviewPc.frames])
  | failed hui | handle hui | joinedCapture n hui | joinedPreview hui | cleared hui =>
    exact hs.of_eq (by simp [held, hui, UiPc.frames])
  | clear hui =>
    refine hs.of_eq ?_
    simp only [held, hui, UiPc.frames, Multiset.coe_nil]
    abel
  | recycle frame rest hui =>
    refine hs.recycle ?_
    simp only [held, hui, UiPc.frames, ObjectPool.coe_cons, recycleFrame]
    abel
  | stopped hui =>
    refine recycleCapture_stocked (hs.of_eq ?_)
    simp only [held, hui, UiPc.frames, Option.toList, Multiset.coe_nil]
    abel

theorem step_inv {e : PreviewEvent} (h : Inv s) (he : step s e = some t) : Inv t := by
  have hc := h.cycle
  cases e with
  | setPreviewSize _ | setPreviewDisplay _ | setFrameCallback _ _ | setCaptureDisplay _
  | setter _ =>
    obtain ⟨mode, window, capture, obj, func, capturing, setters, rfl⟩ := setter_cases he (by simp)
    exact ⟨h.stocked, hc.alive, hc.starting, hc.stopping, hc.streamed, hc.queue_le⟩
  | startPreview =>
    obtain ⟨hui, rfl | ⟨hrun, rfl⟩⟩ := startPreview_eq_some he
    · exact h
    · have hended := hc.ended (by rw [hui]; rfl) (Or.inl hrun)
      have hle := hc.queue_le
      rw [hui] at hle
      exact ⟨h.stocked.of_eq (by simp [held, hui, UiPc.frames]), fun hne => absurd hended hne,
        fun _ => rfl, fun _ hne => absurd rfl hne, hc.streamed, hle⟩
  | stopPreview =>
    have hle := hc.queue_le
    obtain ⟨hui, ⟨-, rfl⟩ | ⟨hrun, rfl⟩⟩ := stopPreview_eq_some he
    · rw [hui] at hle
      exact ⟨h.stocked.of_eq (by simp [held, hui, UiPc.frames]), fun _ => Or.inr rfl, nofun,
        fun _ _ => rfl, hc.streamed, hle⟩
    · have hended := hc.ended (by rw [hui]; rfl) (Or.inl hrun)
      rw [hui] at hle
      exact ⟨h.stocked.of_eq (by simp [held, hui, UiPc.frames]), fun hne => absurd hended hne,
        nofun, fun _ _ => hrun, hc.streamed, hle⟩
  | ui ok => exact ⟨uiStep_stocked_held h (uiStep_spec he), uiStep_cycle hc (uiStep_spec he)⟩
  | callback i ok =>
    exact ⟨callbackStep_stocked_held h.stocked he, callbackStep_cycle hc he⟩
  | preview ok => exact ⟨previewStep_stocked_held h.stocked he, previewStep_cycle hc he⟩
  | capture i ok => exact ⟨captureStep_stocked_held h.stocked he, captureStep_cycle hc he⟩

theorem run_inv {es : List PreviewEvent} (h : machine.run es = some t) : Inv t :=
  machine.invariant init_inv (fun _ _ _ hs he => step_inv hs he) h

/-- All places a frame can be in. -/
def places (s : Preview) : List Nat :=
  s.pool.pooled ++ s.pool.freed ++ (s.lost ++ s.previewFrames ++ s.captureQueu.toList ++
    s.ui.frames ++ s.preview.frames ++ s.callbacks.flatMap CallbackPc.frames ++
    s.captures.flatMap CapturePc.frames)

/-- **Every frame allocated so far is in exactly one place.** -/
theorem frames_in_one_place {es : List PreviewEvent} (h : machine.run es = some t) :
    t.places.Perm (List.range t.pool.next) := by
  have haccounts := (run_inv h).stocked.accounts
  refine Multiset.coe_eq_coe.mp ?_
  simpa only [places, ObjectPool.Accounts, held, Multiset.coe_add, Multiset.range] using haccounts

/-- The preview is stopped before there is a capture thread, which comes then. -/
def stoppedEarly : List PreviewEvent :=
  [.setPreviewDisplay true, .setFrameCallback true false, .startPreview, .ui true, .preview true,
    .stopPreview, .ui true, .ui true, .preview true, .preview true, .preview true, .preview true,
    .preview true, .ui true, .ui true, .ui true, .ui true]

/-- A camera frame on its way through the callback `i` and the preview thread. -/
def onePassed (i : Nat) : List PreviewEvent :=
  List.replicate 6 (.callback i true) ++ List.replicate 9 (.preview true)

/-- The next preview, with its own capture thread and the one left over, each given a frame. -/
def twoCaptures : List PreviewEvent :=
  stoppedEarly ++ [.setPreviewDisplay true, .startPreview, .ui true] ++
    List.replicate 3 (.capture 0 true) ++ List.replicate 4 (.preview true) ++
    List.replicate 3 (.capture 1 true) ++ onePassed 1 ++ [.capture 0 true] ++ onePassed 1 ++
    [.capture 1 true]

theorem frames_in_one_place_twoCaptures :
    ∃ t, machine.run twoCaptures = some t ∧ t.captures.flatMap CapturePc.frames = [0, 1] ∧
      t.places.Perm (List.range t.pool.next) := by
  have hframes : (machine.run twoCaptures).map (fun t => t.captures.flatMap CapturePc.frames) =
      some [0, 1] := rfl
  obtain ⟨t, ht, hframes⟩ := Option.map_eq_some_iff.mp hframes
  exact ⟨t, ht, hframes, frames_in_one_place ht⟩

/-! ## How many frames are lost -/

/-- The frame that is lost when this round ends. -/
def toLose (s : Preview) : Nat := if s.isRunning = false ∧ s.preview.inRound = true then 1 else 0

theorem toLose_le (s : Preview) : s.toLose ≤ 1 := by
  unfold toLose
  split <;> omega

theorem previewStep_lost (he : step s (.preview ok) = some t) :
    t.lost.length + t.toLose ≤ s.lost.length + s.toLose := by
  obtain ⟨pc, u, hu, rfl⟩ := step_preview_eq_some he
  have hspec := previewStep_spec hu
  have hlost := hspec.lost
  obtain ⟨pool, images, mode, streaming, callbacks, captures, frames, queu, lost, drawn, rfl⟩ :=
    hspec.same
  show lost.length + (if s.isRunning = false ∧ pc.inRound = true then 1 else 0) ≤ _
  rcases hlost with ⟨hlost, hround⟩ | ⟨hrun, hin, hout, hlost⟩
  · have hlost : lost = s.lost := hlost
    rw [hlost]
    refine Nat.add_le_add_left ?_ _
    unfold toLose
    split_ifs with h1 h2
    · exact Nat.le_refl 1
    · exact absurd ⟨h1.1, (hround h1.2).resolve_right (by simp [h1.1])⟩ h2
    · exact Nat.zero_le 1
    · exact Nat.le_refl 0
  · have hlost : lost.length = s.lost.length + 1 := hlost
    have hs : s.toLose = 1 := if_pos ⟨hrun, hin⟩
    rw [if_neg (by simp [hout])]
    omega

theorem uiStep_lost (h : Cycle s) (he : UiStep s t) :
    t.lost.length + t.toLose ≤ s.lost.length + s.toLose := by
  cases he with
  | started hui =>
    have h0 : toLose { s with preview := .preparing, ui := .outside } = 0 :=
      if_neg (by simp [PreviewPc.inRound])
    rw [h0]
    exact Nat.add_le_add_left (Nat.zero_le _) _
  | failed hui =>
    have hended := h.ended (by rw [hui]; rfl) (Or.inr (by simp [hui]))
    have h0 : toLose { s with isRunning := false, ui := .outside } = 0 :=
      if_neg fun hand => by
        have hin : s.preview.inRound = true := hand.2
        rw [hended] at hin
        exact absurd hin (by decide)
    rw [h0]
    exact Nat.add_le_add_left (Nat.zero_le _) _
  | handle | joinedCapture | joinedPreview | clear | recycle | cleared | stopped =>
    exact Nat.le_refl _

theorem step_lost {e : PreviewEvent} (h : Inv s) (he : step s e = some t) :
    t.lost.length + t.toLose ≤
      s.lost.length + s.toLose + if e = .stopPreview then 1 else 0 := by
  cases e with
  | setPreviewSize _ | setPreviewDisplay _ | setFrameCallback _ _ | setCaptureDisplay _
  | setter _ =>
    obtain ⟨mode, window, capture, obj, func, capturing, setters, rfl⟩ := setter_cases he (by simp)
    exact Nat.le_refl _
  | startPreview =>
    obtain ⟨-, rfl | ⟨-, rfl⟩⟩ := startPreview_eq_some he
    · exact Nat.le_refl _
    · have h0 : toLose { s with isRunning := true, ui := .starting } = 0 :=
        if_neg (by simp)
      rw [h0]
      exact Nat.add_le_add_left (Nat.zero_le _) _
  | stopPreview =>
    rw [if_pos rfl]
    obtain ⟨-, ⟨-, rfl⟩ | ⟨-, rfl⟩⟩ := stopPreview_eq_some he
    · have hle := toLose_le { s with isRunning := false, ui := .stopping }
      show s.lost.length + _ ≤ _
      omega
    · exact Nat.le_succ _
  | ui ok => exact uiStep_lost h.cycle (uiStep_spec he)
  | callback i ok =>
    obtain ⟨pc, pc', u, -, hu, rfl⟩ := step_callback_eq_some he
    obtain ⟨-, pool, images, camera, frames, rfl, -⟩ := callbackStep_same hu
    exact Nat.le_refl _
  | preview ok => exact previewStep_lost he
  | capture i ok =>
    obtain ⟨pc, pc', u, -, hu, rfl⟩ := step_capture_eq_some he
    obtain ⟨-, pool, images, capturing, window, queu, recorded, delivered, rfl, -⟩ :=
      captureStep_same hu
    exact Nat.le_refl _

theorem run_lost {es : List PreviewEvent} (h : machine.run es = some t) :
    t.lost.length + t.toLose ≤ es.count .stopPreview := by
  induction es using List.reverseRecOn generalizing t with
  | nil =>
    obtain rfl := Option.some.inj h
    exact Nat.le_refl 0
  | append_singleton es e ih =>
    obtain ⟨s, hs, he⟩ := machine.run_concat_eq_some.mp h
    have hstep := step_lost (run_inv hs) he
    have := ih hs
    rw [List.count_append, List.count_singleton]
    simp only [beq_iff_eq]
    omega

/-! ## How many frames there are -/

end Preview

/-- The callback is under way. -/
def CallbackPc.busy : CallbackPc → Bool
  | .outside => false
  | _ => true

/-- The capture thread has not ended. -/
def CapturePc.alive : CapturePc → Bool
  | .stopped => false
  | _ => true

theorem CallbackPc.length_frames_le (pc : CallbackPc) :
    pc.frames.length ≤ if pc.busy then 1 else 0 := by
  cases pc <;> simp [CallbackPc.frames, CallbackPc.busy]

theorem CapturePc.length_frames_le (pc : CapturePc) :
    pc.frames.length ≤ if pc.alive then 3 else 0 := by
  have hopt : ∀ converted : Option Nat, converted.toList.length ≤ 1 := by
    intro converted
    cases converted <;> simp
  have hloop : ∀ loop : CaptureLoop, loop.frames.length ≤ 1 := by
    intro loop
    cases loop with
    | idle => exact Nat.zero_le 1
    | surface converted => exact hopt converted
  cases pc with
  | inner loop | waiting loop | calling f loop | gettingCall f loop | convertingCall f g loop
  | convertedCall f g ok loop | onFrame f loop | recycling f loop =>
    have := hloop loop
    simp only [CapturePc.frames, CapturePc.alive, List.length_cons, if_true]
    omega
  | received f converted | leaving converted =>
    have := hopt converted
    simp only [CapturePc.frames, CapturePc.alive, List.length_cons, if_true]
    omega
  | _ => simp [CapturePc.frames, CapturePc.alive]

/-- Besides the queue it may be clearing, the preview thread holds two frames. -/
theorem PreviewPc.length_frames_le (pc : PreviewPc) :
    pc.frames.length ≤ pc.uncleared.length + 2 := by
  cases pc <;> simp [PreviewPc.frames, PreviewPc.uncleared]

/-- What many hold, when those that are counted hold `k` at most, and the others nothing. -/
theorem length_flatMap_le {α : Type*} {f : α → List Nat} {p : α → Bool} {k : Nat}
    (h : ∀ a, (f a).length ≤ if p a then k else 0) (l : List α) :
    (l.flatMap f).length ≤ k * l.countP p := by
  induction l with
  | nil => exact Nat.zero_le _
  | cons a l ih =>
    have ha := h a
    rw [List.flatMap_cons, List.length_append, List.countP_cons, Nat.mul_add]
    split_ifs at ha ⊢ <;> omega

namespace Preview

theorem frames_le (h : Inv s) :
    s.pool.next ≤ s.pool.freed.length + s.lost.length + 13 + s.callbacks.countP CallbackPc.busy +
      3 * s.captures.countP CapturePc.alive := by
  have hcard := h.stocked.accounts.card
  have hpool := h.stocked.pool_le
  have hqueue := h.cycle.queue_le
  have hlast : s.captureQueu.toList.length ≤ 1 := by cases s.captureQueu <;> simp
  have hpreview := s.preview.length_frames_le
  have hcallbacks := length_flatMap_le CallbackPc.length_frames_le s.callbacks
  have hcaptures := length_flatMap_le CapturePc.length_frames_le s.captures
  have hheld : s.held.card = s.lost.length + s.previewFrames.length + s.captureQueu.toList.length +
      s.ui.frames.length + s.preview.frames.length +
      (s.callbacks.flatMap CallbackPc.frames).length +
      (s.captures.flatMap CapturePc.frames).length := by
    simp only [held, Multiset.card_add, Multiset.coe_card]
  rw [framePoolSz, maxFrame] at hpool
  rw [maxFrame] at hqueue
  omega

end Preview

end PetDev.Uvc
