import PetDev.Android.Looper
import PetDev.Java.Lang
import PetDev.Lib.StepMachine

/-!
# Recording

`HomeActivity.recordMovie` records ten seconds of video.  It runs on the main thread and
only queues commands; the camera thread handles them in turn, whenever it gets round to it.
Whether a recording is active is known to the camera thread alone, and all decisions of the
main thread look at that: `recordMovie` and `startPusher` before they start one,
`stopPusher` before it stops one.

A device that is connected or taken away opens or closes the camera: `onConnect` and `closeCamera`
run on the handler thread of `USBMonitor`, at any time, each as one step.

The machine has one step for each thing of the main thread that another thread can get in between.
-/

namespace PetDev.Camera

open Java Android

/-- What `startRecording` queues.  The number is that of the `recordMovie` call. -/
structure RecordParams where
  call : Nat
  recordPath : String
  deriving DecidableEq, Repr

/-- The messages of the camera thread that start or end a recording. -/
inductive Message where
  | msgOpen
  | msgClose
  | msgCaptureStart (params : RecordParams)
  | msgCaptureStop
  deriving DecidableEq, Repr

/-- The camera thread, with what it has done: the paths handed to `uploadVideo`, and those of the
recordings that have ended, the latest first. -/
structure CameraThread where
  mUVCCamera : Bool
  mH264Consumer : Option RecordParams
  videoPath : Option String
  uploads : List (Option String)
  ended : List String

namespace CameraThread

def isCameraOpened (s : CameraThread) : Bool := s.mUVCCamera

def isRecording (s : CameraThread) : Bool := s.mUVCCamera && s.mH264Consumer.isSome

def handleStartPusher (params : RecordParams) (s : CameraThread) : CameraThread :=
  if s.mUVCCamera = false ∨ s.mH264Consumer.isSome then s
  else { s with videoPath := some params.recordPath, mH264Consumer := some params }

/-- The listener of `recordMovie` uploads the video; `mListener` tells whether it is set. -/
def handleStopPusher (mListener : Bool) (s : CameraThread) : CameraThread :=
  { s with
    mH264Consumer := none
    ended := (s.mH264Consumer.map RecordParams.recordPath).toList ++ s.ended
    uploads := if mListener then s.videoPath :: s.uploads else s.uploads }

def handleClose (mListener : Bool) (s : CameraThread) : CameraThread :=
  { s.handleStopPusher mListener with mUVCCamera := false }

/-- `opens` tells whether `UVCCamera.open` succeeds. -/
def handleOpen (mListener opens : Bool) (s : CameraThread) : CameraThread :=
  { s.handleClose mListener with mUVCCamera := opens }

def handleMessage (mListener opens : Bool) (s : CameraThread) : Message → CameraThread
  | .msgOpen => s.handleOpen mListener opens
  | .msgClose => s.handleClose mListener
  | .msgCaptureStart params => s.handleStartPusher params
  | .msgCaptureStop => s.handleStopPusher mListener

end CameraThread

/-- How far the main thread is in `recordMovie`. -/
inductive MainStep where
  | startPusher (params : RecordParams)
  | postDelayed (call : Nat)
  deriving DecidableEq, Repr

/-- Both threads.  A callback stops the recording of the call whose number it has. -/
structure Recorder where
  now : Int
  main : Option MainStep
  calls : Nat
  callbacks : List (Delayed Nat)
  queue : List Message
  mListener : Bool
  thread : CameraThread

/-- The `Bool` of a step of the camera thread tells whether a camera can be opened. -/
inductive RecorderEvent where
  | recordMovie
  | startPusher
  | postDelayed
  | stopPusher
  | stopPreview
  | onConnect
  | closeCamera
  | camera (opens : Bool)
  | advance (ms : Nat)

namespace Recorder

def start (opened : Bool) : Recorder :=
  ⟨0, none, 0, [], [], false, ⟨opened, none, none, [], []⟩⟩

def isPushing (s : Recorder) : Bool := s.thread.isRecording

def sendMessage (m : Message) (s : Recorder) : Recorder := { s with queue := s.queue ++ [m] }

/-- `UVCCameraHelper.ROOT_PATH + "Movies/" + System.currentTimeMillis() + SUFFIX_MP4`. -/
def videoPath (ROOT_PATH : String) (s : Recorder) : String :=
  ROOT_PATH ++ "Movies/" ++ valueOf s.now ++ ".mp4"

/-- `recordMovie` up to its call of `startPusher`. -/
def recordMovie (ROOT_PATH : String) (s : Recorder) : Recorder :=
  let params : RecordParams := ⟨s.calls, s.videoPath ROOT_PATH⟩
  let s := { s with calls := s.calls + 1 }
  if s.isPushing then s else { s with main := some (.startPusher params) }

def startPusher (params : RecordParams) (s : Recorder) : Recorder :=
  let s := { s with main := some (.postDelayed params.call) }
  if s.isPushing then s
  else { s with mListener := true }.sendMessage (.msgCaptureStart params)

def postDelayed (call : Nat) (s : Recorder) : Recorder :=
  { s with main := none, callbacks := Looper.enqueue ⟨s.now + 10 * 1000, call⟩ s.callbacks }

/-- The same as the recording part of `stopPreview`. -/
def stopPusher (s : Recorder) : Recorder :=
  if s.isPushing then s.sendMessage .msgCaptureStop else s

def closeCamera (s : Recorder) : Recorder :=
  if s.thread.isCameraOpened then s.stopPusher.sendMessage .msgClose else s

/-- A handler on the main thread runs when nothing else does. -/
def onMain (s t : Recorder) : Option Recorder := if s.main = none then some t else none

def step (ROOT_PATH : String) (s : Recorder) : RecorderEvent → Option Recorder
  | .recordMovie => s.onMain (s.recordMovie ROOT_PATH)
  | .startPusher =>
    match s.main with
    | some (.startPusher params) => some (s.startPusher params)
    | _ => none
  | .postDelayed =>
    match s.main with
    | some (.postDelayed call) => some (s.postDelayed call)
    | _ => none
  | .stopPusher =>
    (Looper.next s.now s.callbacks).bind fun r =>
      s.onMain { s with callbacks := r.2 }.stopPusher
  | .stopPreview => s.onMain s.stopPusher
  | .onConnect => some (s.sendMessage .msgOpen)
  | .closeCamera => some s.closeCamera
  | .camera opens =>
    match s.queue with
    | m :: q => some { s with queue := q, thread := s.thread.handleMessage s.mListener opens m }
    | [] => none
  | .advance ms => some { s with now := s.now + ms }

end Recorder

def recorderMachine (ROOT_PATH : String) (opened : Bool) : StepMachine Recorder RecorderEvent :=
  ⟨Recorder.start opened, Recorder.step ROOT_PATH⟩

/-! ## What a step does -/

namespace Recorder

theorem onMain_eq_some {s t u : Recorder} : s.onMain t = some u ↔ s.main = none ∧ u = t := by
  unfold onMain
  rw [Option.ite_none_right_eq_some, Option.some.injEq, @eq_comm _ t u]

/-- The step function as a relation: one case for each event, with what the step needs. -/
inductive Step (ROOT_PATH : String) (s : Recorder) : RecorderEvent → Recorder → Prop
  | recordMovie (hmain : s.main = none) : Step ROOT_PATH s .recordMovie (s.recordMovie ROOT_PATH)
  | startPusher (params : RecordParams) (hmain : s.main = some (.startPusher params)) :
      Step ROOT_PATH s .startPusher (s.startPusher params)
  | postDelayed (call : Nat) (hmain : s.main = some (.postDelayed call)) :
      Step ROOT_PATH s .postDelayed (s.postDelayed call)
  | stopPusher (m : Delayed Nat) (q : List (Delayed Nat)) (hmain : s.main = none)
      (hcallbacks : s.callbacks = m :: q) :
      Step ROOT_PATH s .stopPusher { s with callbacks := q }.stopPusher
  | stopPreview (hmain : s.main = none) : Step ROOT_PATH s .stopPreview s.stopPusher
  | onConnect : Step ROOT_PATH s .onConnect (s.sendMessage .msgOpen)
  | closeCamera : Step ROOT_PATH s .closeCamera s.closeCamera
  | camera (opens : Bool) (m : Message) (q : List Message) (hqueue : s.queue = m :: q) :
      Step ROOT_PATH s (.camera opens)
        { s with queue := q, thread := s.thread.handleMessage s.mListener opens m }
  | advance (ms : Nat) : Step ROOT_PATH s (.advance ms) { s with now := s.now + ms }

theorem step_of_eq_some {ROOT_PATH : String} {s t : Recorder} {e : RecorderEvent}
    (h : s.step ROOT_PATH e = some t) : s.Step ROOT_PATH e t := by
  cases e with
  | recordMovie =>
    obtain ⟨hmain, rfl⟩ := onMain_eq_some.mp h
    exact Step.recordMovie hmain
  | startPusher =>
    simp only [step] at h
    split at h
    · next params hmain =>
      obtain rfl := Option.some.inj h
      exact Step.startPusher params hmain
    · cases h
  | postDelayed =>
    simp only [step] at h
    split at h
    · next call hmain =>
      obtain rfl := Option.some.inj h
      exact Step.postDelayed call hmain
    · cases h
  | stopPusher =>
    obtain ⟨⟨m, q⟩, hnext, ht⟩ := Option.bind_eq_some_iff.mp h
    obtain ⟨hmain, rfl⟩ := onMain_eq_some.mp ht
    exact Step.stopPusher m q hmain (Looper.next_eq_some.mp hnext).1
  | stopPreview =>
    obtain ⟨hmain, rfl⟩ := onMain_eq_some.mp h
    exact Step.stopPreview hmain
  | onConnect =>
    obtain rfl := Option.some.inj h
    exact Step.onConnect
  | closeCamera =>
    obtain rfl := Option.some.inj h
    exact Step.closeCamera
  | camera opens =>
    simp only [step] at h
    split at h
    · next m q hqueue =>
      obtain rfl := Option.some.inj h
      exact Step.camera opens m q hqueue
    · cases h
  | advance ms =>
    obtain rfl := Option.some.inj h
    exact Step.advance ms

theorem recordMovie_cases (ROOT_PATH : String) (s : Recorder) :
    (s.isPushing = true ∧ s.recordMovie ROOT_PATH = { s with calls := s.calls + 1 }) ∨
    (s.isPushing = false ∧ s.recordMovie ROOT_PATH =
      { s with
        calls := s.calls + 1
        main := some (.startPusher ⟨s.calls, s.videoPath ROOT_PATH⟩) }) := by
  cases h : s.isPushing with
  | true => exact Or.inl ⟨rfl, if_pos h⟩
  | false => exact Or.inr ⟨rfl, if_neg (Bool.eq_false_iff.mp h)⟩

theorem startPusher_cases (params : RecordParams) (s : Recorder) :
    (s.isPushing = true ∧
      s.startPusher params = { s with main := some (.postDelayed params.call) }) ∨
    (s.isPushing = false ∧ s.startPusher params =
      { s with
        main := some (.postDelayed params.call)
        mListener := true
        queue := s.queue ++ [.msgCaptureStart params] }) := by
  cases h : s.isPushing with
  | true => exact Or.inl ⟨rfl, if_pos h⟩
  | false => exact Or.inr ⟨rfl, if_neg (Bool.eq_false_iff.mp h)⟩

theorem stopPusher_cases (s : Recorder) :
    (s.isPushing = true ∧ s.stopPusher = { s with queue := s.queue ++ [.msgCaptureStop] }) ∨
    (s.isPushing = false ∧ s.stopPusher = s) := by
  cases h : s.isPushing with
  | true => exact Or.inl ⟨rfl, if_pos h⟩
  | false => exact Or.inr ⟨rfl, if_neg (Bool.eq_false_iff.mp h)⟩

end Recorder

end PetDev.Camera
