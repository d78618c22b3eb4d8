import PetDev.Lib.ObjectPool
import PetDev.Lib.StepMachine

/-!
# The frames of a preview

A `UVCPreview` passes frames between threads.  The callback of the stream copies each camera
frame into one of its own and queues it; the preview thread takes it from the queue, draws it
and leaves it for the capture thread, which records it, gives it to the Java callback and
recycles it.  `stopPreview` joins the capture thread, then the preview thread, and recycles what
they left.

It may come too early: the preview thread starts the capture thread late, and the join then
finds the one before it or none, so a capture thread can be left over.  And a stream that runs
no more, because the device was lost or the start failed half-way, is closed without a wait for
its callback.  So there is a list of capture threads and one of callbacks, the last of each
being that of the last preview; threads that have ended stay in the list.

A run interleaves the calls of the user interface with the steps of the threads in any order;
`startPreview` and `stopPreview` are synchronized in Java, so one of them runs at a time.  A
thread holds a mutex over several steps where the source does; a section of one step is one
step.  Every call that can fail may fail, and a wait for a condition may end at any time.  What a
callback reads of a stream that is closed meanwhile is not looked at, nor are `clearDisplay` and
the destructor.
-/

namespace PetDev.Uvc

/-- `MAX_FRAME`. -/
def maxFrame : Nat := 4

/-- `FRAME_POOL_SZ`. -/
def framePoolSz : Nat := maxFrame + 2

/-- `startPreview` before it creates the thread, and `stopPreview` on the thread of the user
interface.  In `joiningCapture n` it waits for the last of the first `n` capture threads; it
recycles the queue with `preview_mutex` held, and then the frame left for the capture thread. -/
inductive UiPc where
  | outside
  | starting
  | stopping
  | joiningCapture (n : Nat)
  | joiningPreview
  | clearPreviewFrame
  | clearing (rest : List Nat)
  | clearCaptureFrame
  deriving DecidableEq

/-- `setFrameCallback` and `setCaptureDisplay`, while they wait for the capture thread. -/
inductive SetterPc where
  | frameCallback (obj func : Bool)
  | captureDisplay (window : Bool)

/-- `uvc_preview_frame_callback`, given the camera frame `image`. -/
inductive CallbackPc where
  | outside
  | called (image : Nat)
  | checked (image : Nat)
  | received (image : Nat)
  | duplicating (image copy : Nat)
  | adding (copy : Nat)
  | recycling (copy : Nat)
  deriving DecidableEq

/-- The preview thread.  In `clearing` it holds `preview_mutex`, in `queueing` `capture_mutex`. -/
inductive PreviewPc where
  | stopped
  | preparing
  | startingStream
  | clearPreviewFrame
  | clearing (rest : List Nat)
  | looping
  | waiting
  | received (mjpeg : Nat)
  | decoding (mjpeg frame : Nat)
  | decoded (mjpeg frame : Nat) (ok : Bool)
  | dropping (frame : Nat)
  | drawing (frame : Nat)
  | getting (frame : Nat)
  | converting (frame converted : Nat)
  | copying (frame converted : Nat)
  | drawn (frame converted : Nat)
  | adding (frame : Nat)
  | queueing (frame : Nat)
  | finishing
  deriving DecidableEq

/-- The loop a capture thread is in: `do_capture_idle_loop`, or `do_capture_surface` with its
local `converted`. -/
inductive CaptureLoop where
  | idle
  | surface (converted : Option Nat)

/-- A capture thread. -/
inductive CapturePc where
  | stopped
  | clearCaptureFrame
  | looping
  | inner (loop : CaptureLoop)
  | waiting (loop : CaptureLoop)
  | received (frame : Nat) (converted : Option Nat)
  | getting (frame : Nat)
  | converting (frame converted : Nat)
  | copying (frame converted : Nat)
  | calling (frame : Nat) (loop : CaptureLoop)
  | gettingCall (frame : Nat) (loop : CaptureLoop)
  | convertingCall (frame callback : Nat) (loop : CaptureLoop)
  | convertedCall (frame callback : Nat) (ok : Bool) (loop : CaptureLoop)
  | onFrame (callback : Nat) (loop : CaptureLoop)
  | recycling (callback : Nat) (loop : CaptureLoop)
  | leaving (converted : Option Nat)
  | released

/-- A `UVCPreview` and its threads.  `images` says whose camera frame the data of a frame comes
from, `camera` counts the camera frames; `drawn`, `recorded` and `delivered` are the images on
the preview window, on the capture window and given to the Java callback so far. -/
structure Preview where
  pool : ObjectPool
  images : Nat → Nat
  isRunning : Bool
  isCapturing : Bool
  requestMode : Bool
  frameMode : Bool
  previewWindow : Bool
  captureWindow : Bool
  frameCallbackObj : Bool
  frameCallbackFunc : Bool
  previewFrames : List Nat
  captureQueu : Option Nat
  /-- The stream of the last callback is open. -/
  streaming : Bool
  ui : UiPc
  setters : List SetterPc
  callbacks : List CallbackPc
  preview : PreviewPc
  captures : List CapturePc
  camera : Nat
  lost : List Nat
  drawn : List Nat
  recorded : List Nat
  delivered : List Nat

inductive PreviewEvent where
  | setPreviewSize (mode : Bool)
  | setPreviewDisplay (window : Bool)
  | setFrameCallback (obj func : Bool)
  | setCaptureDisplay (window : Bool)
  | startPreview
  | stopPreview
  /-- The end of a wait of `setFrameCallback` or `setCaptureDisplay`. -/
  | setter (i : Nat)
  /-- The next step of `startPreview` or `stopPreview`; `ok` says whether the call that the step
  makes succeeds, and so below. -/
  | ui (ok : Bool)
  /-- The next step of a callback, or the next camera frame. -/
  | callback (i : Nat) (ok : Bool)
  | preview (ok : Bool)
  | capture (i : Nat) (ok : Bool)
  deriving DecidableEq

namespace Preview

def init : Preview where
  pool := .empty
  images _ := 0
  isRunning := false
  isCapturing := false
  requestMode := false
  frameMode := false
  previewWindow := false
  captureWindow := false
  frameCallbackObj := false
  frameCallbackFunc := false
  previewFrames := []
  captureQueu := none
  streaming := false
  ui := .outside
  setters := []
  callbacks := []
  preview := .stopped
  captures := []
  camera := 0
  lost := []
  drawn := []
  recorded := []
  delivered := []

/-- `get_frame`. -/
def getFrame (s : Preview) (ok : Bool) : Option Nat × Preview :=
  ((s.pool.get ok).1, { s with pool := (s.pool.get ok).2 })

/-- `recycle_frame`. -/
def recycleFrame (s : Preview) (frame : Nat) : Preview :=
  { s with pool := s.pool.recycle framePoolSz frame }

/-- The data of `frame` are those of the camera frame `image`. -/
def write (s : Preview) (frame image : Nat) : Preview :=
  { s with images := Function.update s.images frame image }

def previewMutexFree (s : Preview) : Bool :=
  match s.preview, s.ui with
  | .clearing _, _ => false
  | _, .clearing _ => false
  | _, _ => true

def captureMutexFree (s : Preview) : Bool :=
  match s.preview with
  | .queueing _ => false
  | _ => true

/-- `addPreviewFrame`, before it recycles what it did not queue. -/
def addPreviewFrame (s : Preview) (copy : Nat) : CallbackPc × Preview :=
  if s.isRunning ∧ s.previewFrames.length < maxFrame then
    (.outside, { s with previewFrames := s.previewFrames ++ [copy] })
  else (.recycling copy, s)

/-- `waitPreviewFrame`, and what `do_preview` does with its result. -/
def waitPreviewFrame (s : Preview) : PreviewPc × Preview :=
  match s.isRunning, s.previewFrames with
  | true, frame :: rest =>
    (if s.frameMode then .received frame else .drawing frame, { s with previewFrames := rest })
  | _, _ => (.looping, s)

/-- `addCaptureFrame`, as far as it looks whether the preview runs. -/
def addCaptureFrame (s : Preview) (frame : Nat) : PreviewPc × Preview :=
  if s.isRunning then (.queueing frame, s) else (.looping, { s with lost := s.lost ++ [frame] })

/-- `captureQueu` recycled, when there is one. -/
def recycleCapture (s : Preview) : Preview :=
  match s.captureQueu with
  | some frame => { s.recycleFrame frame with captureQueu := none }
  | none => s

/-- `waitCaptureFrame`, and what the loop it is in does with its result. -/
def waitCaptureFrame (s : Preview) (loop : CaptureLoop) : CapturePc × Preview :=
  match s.isRunning, s.captureQueu with
  | true, some frame =>
    (match loop with
      | .idle => .calling frame .idle
      | .surface converted => .received frame converted, { s with captureQueu := none })
  | _, _ => (.inner loop, s)

/-! ### The user interface -/

/-- `setFrameCallback` behind its wait. -/
def putFrameCallback (s : Preview) (obj func : Bool) : Preview :=
  { s with
    frameCallbackObj := obj
    frameCallbackFunc := if obj then func else s.frameCallbackFunc }

/-- `setCaptureDisplay` behind its wait. -/
def putCaptureDisplay (s : Preview) (window : Bool) : Preview :=
  { s with captureWindow := window }

/-- `setFrameCallback`, which waits for the capture thread to leave its loop. -/
def setFrameCallback (s : Preview) (obj func : Bool) : Option Preview :=
  if s.captureMutexFree then
    some (if s.isRunning && s.isCapturing then
      if s.frameCallbackObj then
        { s with isCapturing := false, setters := s.setters ++ [.frameCallback obj func] }
      else { s with isCapturing := false }.putFrameCallback obj func
    else s.putFrameCallback obj func)
  else none

/-- `setCaptureDisplay`, which does the same. -/
def setCaptureDisplay (s : Preview) (window : Bool) : Option Preview :=
  if s.captureMutexFree then
    some (if s.isRunning && s.isCapturing then
      if s.captureWindow then
        { s with isCapturing := false, setters := s.setters ++ [.captureDisplay window] }
      else { s with isCapturing := false }.putCaptureDisplay window
    else s.putCaptureDisplay window)
  else none

def setterStep (s : Preview) (i : Nat) : Option Preview :=
  if s.captureMutexFree then
    s.setters[i]?.map fun
      | .frameCallback obj func =>
        { s with setters := s.setters.eraseIdx i }.putFrameCallback obj func
      | .captureDisplay window =>
        { s with setters := s.setters.eraseIdx i }.putCaptureDisplay window
  else none

def startPreview (s : Preview) : Option Preview :=
  match s.ui with
  | .outside => some (if s.isRunning then s else { s with isRunning := true, ui := .starting })
  | _ => none

def stopPreview (s : Preview) : Option Preview :=
  match s.ui with
  | .outside => some (if s.isRunning then { s with isRunning := false, ui := .stopping }
      else { s with ui := .clearPreviewFrame })
  | _ => none

/-- The rest of `startPreview` and of `stopPreview`. -/
def uiStep (s : Preview) (ok : Bool) : Option Preview :=
  match s.ui with
  | .outside => none
  | .starting =>
    if s.previewMutexFree then
      some (if s.previewWindow && ok then { s with preview := .preparing, ui := .outside }
        else { s with isRunning := false, ui := .outside })
    else none
  -- The handle in `capture_thread` is that of the last capture thread created so far.
  | .stopping => some { s with ui := .joiningCapture s.captures.length }
  | .joiningCapture n =>
    match (s.captures.take n).getLast? with
    | none | some .stopped => some { s with ui := .joiningPreview }
    | _ => none
  | .joiningPreview =>
    match s.preview with
    | .stopped => some { s with ui := .clearPreviewFrame }
    | _ => none
  | .clearPreviewFrame =>
    if s.previewMutexFree then
      some { s with previewFrames := [], ui := .clearing s.previewFrames }
    else none
  | .clearing (frame :: rest) => some { s.recycleFrame frame with ui := .clearing rest }
  | .clearing [] => some { s with ui := .clearCaptureFrame }
  | .clearCaptureFrame =>
    if s.captureMutexFree then
      some { s.recycleCapture with ui := .outside, previewWindow := false, captureWindow := false }
    else none

/-! ### The threads

Each step is given where the thread is, and says where it is then. -/

/-- `uvc_preview_frame_callback`; frames it finds broken do not come here.  It is called only
while its stream is `opened`. -/
def callbackStep (s : Preview) (opened ok : Bool) : CallbackPc → Option (CallbackPc × Preview)
  | .outside =>
    if opened then some (.called s.camera, { s with camera := s.camera + 1 }) else none
  | .called image => some (if s.isRunning then .checked image else .outside, s)
  | .checked image => some (if s.isRunning then .received image else .outside, s)
  | .received image =>
    match s.getFrame ok with
    | (some copy, s) => some (.duplicating image copy, s)
    | (none, s) => some (.outside, s)
  | .duplicating image copy =>
    some (if ok then .adding copy else .recycling copy, s.write copy image)
  | .adding copy => if s.previewMutexFree then some (s.addPreviewFrame copy) else none
  | .recycling copy => some (.outside, s.recycleFrame copy)

/-- `preview_thread_func`, `do_preview` and `draw_preview_one`.  A frame for the decoded MJPEG
that cannot be allocated is not looked for: the thread crashes there. -/
def previewStep (s : Preview) (ok : Bool) : PreviewPc → Option (PreviewPc × Preview)
  | .stopped => none
  | .preparing => some (if ok then
      (.startingStream, { s with
        frameMode := s.requestMode, streaming := true, callbacks := s.callbacks ++ [.outside] })
    else (.stopped, s))
  | .startingStream => some (if ok then (.clearPreviewFrame, s)
    -- `uvc_stream_close` of a stream that does not run waits for nothing
    else (.stopped, { s with streaming := false }))
  | .clearPreviewFrame =>
    if s.previewMutexFree then some (.clearing s.previewFrames, { s with previewFrames := [] })
    else none
  | .clearing (frame :: rest) => some (.clearing rest, s.recycleFrame frame)
  | .clearing [] => some (.looping, if ok then
      { s with captures := s.captures ++ [.clearCaptureFrame] } else s)
  | .looping => some (if s.isRunning then .waiting else .finishing, s)
  | .waiting => if s.previewMutexFree then some s.waitPreviewFrame else none
  | .received mjpeg =>
    match s.getFrame ok with
    | (some frame, s) => some (.decoding mjpeg frame, s)
    | (none, _) => none
  | .decoding mjpeg frame => some (.decoded mjpeg frame ok, s.write frame (s.images mjpeg))
  | .decoded mjpeg frame ok =>
    some (if ok then .drawing frame else .dropping frame, s.recycleFrame mjpeg)
  | .dropping frame => some (.looping, s.recycleFrame frame)
  | .drawing frame =>
    if s.previewMutexFree then
      some (if s.previewWindow then .getting frame else .adding frame, s)
    else none
  | .getting frame =>
    match s.getFrame ok with
    | (some converted, s) => some (.converting frame converted, s)
    | (none, s) => some (.adding frame, s)
  | .converting frame converted =>
    some (if ok then .copying frame converted else .drawn frame converted,
      s.write converted (s.images frame))
  | .copying frame converted =>
    if s.previewMutexFree then
      some (.drawn frame converted, { s with
        drawn := s.drawn ++ if s.previewWindow && ok then [s.images converted] else [] })
    else none
  | .drawn frame converted => some (.adding frame, s.recycleFrame converted)
  | .adding frame => if s.captureMutexFree then some (s.addCaptureFrame frame) else none
  | .queueing frame => some (.looping, { s.recycleCapture with captureQueu := some frame })
  | .finishing =>
    -- `uvc_stop_streaming` joins the thread of the callback if the stream still runs
    if ok then
      match s.callbacks.getLast? with
      | some .outside => some (.stopped, { s with streaming := false })
      | _ => none
    else some (.stopped, { s with streaming := false })

/-- `do_capture`, `do_capture_surface`, `do_capture_idle_loop` and `do_capture_callback`. -/
def captureStep (s : Preview) (ok : Bool) : CapturePc → Option (CapturePc × Preview)
  | .stopped => none
  | .clearCaptureFrame =>
    if s.captureMutexFree then some (.looping, s.recycleCapture) else none
  | .looping => some (if s.isRunning then
      (.inner (if s.captureWindow then .surface none else .idle), { s with isCapturing := true })
    else (.stopped, s))
  | .inner loop => some (if s.isRunning && s.isCapturing then .waiting loop
      else match loop with
        | .idle => .looping
        | .surface converted => .leaving converted, s)
  | .waiting loop => if s.captureMutexFree then some (s.waitCaptureFrame loop) else none
  | .received frame converted => some (if s.isCapturing then
        match converted with
        | some converted => .converting frame converted
        | none => .getting frame
      else .calling frame (.surface converted), s)
  | .getting frame =>
    match s.getFrame ok with
    | (some converted, s) => some (.converting frame converted, s)
    | (none, s) => some (.calling frame (.surface none), s)
  | .converting frame converted =>
    some (if ok then .copying frame converted else .calling frame (.surface (some converted)),
      s.write converted (s.images frame))
  | .copying frame converted =>
    some (.calling frame (.surface (some converted)), { s with
      recorded := s.recorded ++ if s.captureWindow && ok then [s.images converted] else [] })
  | .calling frame loop => some (if s.frameCallbackObj then
        if s.frameCallbackFunc then .gettingCall frame loop
        else .onFrame frame loop
      else .recycling frame loop, s)
  | .gettingCall frame loop =>
    match s.getFrame ok with
    | (some callback, s) => some (.convertingCall frame callback loop, s)
    | (none, s) => some (.recycling frame loop, s)
  | .convertingCall frame callback loop =>
    some (.convertedCall frame callback ok loop, s.write callback (s.images frame))
  | .convertedCall frame callback ok loop =>
    some (if ok then .onFrame callback loop else .recycling callback loop, s.recycleFrame frame)
  | .onFrame callback loop =>
    some (.recycling callback loop, { s with delivered := s.delivered ++ [s.images callback] })
  | .recycling callback loop => some (.inner loop, s.recycleFrame callback)
  | .leaving (some converted) => some (.released, s.recycleFrame converted)
  | .leaving none => some (.released, s)
  | .released => some (.looping, { s with captureWindow := false })

/-- The stream of the callback `i` is open. -/
def opened (s : Preview) (i : Nat) : Bool := s.streaming && i + 1 == s.callbacks.length

def step (s : Preview) : PreviewEvent → Option Preview
  | .setPreviewSize mode => some { s with requestMode := mode }
  | .setPreviewDisplay window =>
    if s.previewMutexFree then some { s with previewWindow := window } else none
  | .setFrameCallback obj func => s.setFrameCallback obj func
  | .setCaptureDisplay window => s.setCaptureDisplay window
  | .startPreview => s.startPreview
  | .stopPreview => s.stopPreview
  | .setter i => s.setterStep i
  | .ui ok => s.uiStep ok
  | .callback i ok =>
    s.callbacks[i]?.bind fun pc => (s.callbackStep (s.opened i) ok pc).map fun (pc, s) =>
      { s with callbacks := s.callbacks.set i pc }
  | .preview ok =>
    (s.previewStep ok s.preview).map fun (pc, s) => { s with preview := pc }
  | .capture i ok =>
    s.captures[i]?.bind fun pc => (s.captureStep ok pc).map fun (pc, s) =>
      { s with captures := s.captures.set i pc }

def machine : StepMachine Preview PreviewEvent := ⟨init, step⟩

/-! ### What a step is -/

variable {s t : Preview}

theorem opened_iff {i : Nat} :
    s.opened i = true ↔ s.streaming = true ∧ i + 1 = s.callbacks.length := by
  simp [opened]

theorem step_callback_eq_some {i : Nat} {ok : Bool} (h : step s (.callback i ok) = some t) :
    ∃ pc pc' u, s.callbacks[i]? = some pc ∧ s.callbackStep (s.opened i) ok pc = some (pc', u) ∧
      t = { u with callbacks := u.callbacks.set i pc' } := by
  obtain ⟨pc, hpc, h⟩ := Option.bind_eq_some_iff.mp h
  obtain ⟨⟨pc', u⟩, hu, rfl⟩ := Option.map_eq_some_iff.mp h
  exact ⟨pc, pc', u, hpc, hu, rfl⟩

theorem step_preview_eq_some {ok : Bool} (h : step s (.preview ok) = some t) :
    ∃ pc u, s.previewStep ok s.preview = some (pc, u) ∧ t = { u with preview := pc } := by
  obtain ⟨⟨pc, u⟩, hu, rfl⟩ := Option.map_eq_some_iff.mp h
  exact ⟨pc, u, hu, rfl⟩

theorem step_capture_eq_some {i : Nat} {ok : Bool} (h : step s (.capture i ok) = some t) :
    ∃ pc pc' u, s.captures[i]? = some pc ∧ s.captureStep ok pc = some (pc', u) ∧
      t = { u with captures := u.captures.set i pc' } := by
  obtain ⟨pc, hpc, h⟩ := Option.bind_eq_some_iff.mp h
  obtain ⟨⟨pc', u⟩, hu, rfl⟩ := Option.map_eq_some_iff.mp h
  exact ⟨pc, pc', u, hpc, hu, rfl⟩

theorem startPreview_eq_some (h : s.startPreview = some t) :
    s.ui = .outside ∧
      (t = s ∨ s.isRunning = false ∧ t = { s with isRunning := true, ui := .starting }) := by
  unfold startPreview at h
  cases hui : s.ui with
  | outside =>
    rw [hui] at h
    obtain rfl := Option.some.inj h
    refine ⟨rfl, ?_⟩
    cases hrun : s.isRunning with
    | true => exact Or.inl (if_pos rfl)
    | false => exact Or.inr ⟨rfl, if_neg (by decide)⟩
  | _ => rw [hui] at h; exact absurd h (by simp)

theorem stopPreview_eq_some (h : s.stopPreview = some t) :
    s.ui = .outside ∧
      (s.isRunning = true ∧ t = { s with isRunning := false, ui := .stopping } ∨
        s.isRunning = false ∧ t = { s with ui := .clearPreviewFrame }) := by
  unfold stopPreview at h
  cases hui : s.ui with
  | outside =>
    rw [hui] at h
    obtain rfl := Option.some.inj h
    refine ⟨rfl, ?_⟩
    cases hrun : s.isRunning with
    | true => exact Or.inl ⟨rfl, if_pos rfl⟩
    | false => exact Or.inr ⟨rfl, if_neg (by decide)⟩
  | _ => rw [hui] at h; exact absurd h (by simp)

/-- What the calls that set something change. -/
theorem setter_cases {e : PreviewEvent} (h : step s e = some t)
    (he : (∃ mode, e = .setPreviewSize mode) ∨ (∃ window, e = .setPreviewDisplay window) ∨
      (∃ obj func, e = .setFrameCallback obj func) ∨ (∃ window, e = .setCaptureDisplay window) ∨
      ∃ i, e = .setter i) :
    ∃ mode window capture obj func capturing setters, t = { s with
      requestMode := mode, previewWindow := window, captureWindow := capture
      frameCallbackObj := obj, frameCallbackFunc := func, isCapturing := capturing
      setters := setters } := by
  rcases he with ⟨mode, rfl⟩ | ⟨window, rfl⟩ | ⟨obj, func, rfl⟩ | ⟨window, rfl⟩ | ⟨i, rfl⟩
  · obtain rfl := Option.some.inj h
    exact ⟨mode, _, _, _, _, _, _, rfl⟩
  · obtain ⟨-, h⟩ := Option.ite_none_right_eq_some.mp h
    obtain rfl := Option.some.inj h
    exact ⟨_, window, _, _, _, _, _, rfl⟩
  · obtain ⟨-, h⟩ := Option.ite_none_right_eq_some.mp h
    obtain rfl := Option.some.inj h
    split_ifs <;> exact ⟨_, _, _, _, _, _, _, rfl⟩
  · obtain ⟨-, h⟩ := Option.ite_none_right_eq_some.mp h
    obtain rfl := Option.some.inj h
    split_ifs <;> exact ⟨_, _, _, _, _, _, _, rfl⟩
  · obtain ⟨-, h⟩ := Option.ite_none_right_eq_some.mp h
    obtain ⟨pc, -, rfl⟩ := Option.map_eq_some_iff.mp h
    cases pc with
    | frameCallback obj func => exact ⟨_, _, _, _, _, _, _, rfl⟩
    | captureDisplay window => exact ⟨_, _, _, _, _, _, _, rfl⟩

end Preview

end PetDev.Uvc
