import PetDev.Android.Looper
import PetDev.Java.Lang
import PetDev.Lib.StepMachine

/-!
# The stream

`HomeActivity` streams the camera through `NativeStreamer`.  A `VideoData` event starts
the stream and a `RecvaddrData` event stops it, a second late: `encodeStop` is posted, and
so is `encodeStart` when it has to be tried again.  Nothing that is posted is ever taken
back.

The native library counts as having a session open from a `startPublish` that returned
something other than -1 until the next `stopPublish`.  The state also keeps what the events
asked for, which the activity does not: the last of them, and a number for each
`VideoData` that made a start.  `retryTimes` counts all failed attempts, since nothing resets
it, and wraps around.
-/

namespace PetDev.Stream

open Java Android

/-! ## The native library -/

inductive NativeCall where
  | startPublish
  | stopPublish
  | onPreviewFrame
  deriving DecidableEq, Repr

/-- The session, and the calls so far, the latest first, each with whether it found one open. -/
structure NativeStreamer where
  isOpen : Bool
  calls : List (NativeCall × Bool)
  deriving DecidableEq, Repr

namespace NativeStreamer

def startPublish (result : Int) (n : NativeStreamer) : NativeStreamer :=
  ⟨n.isOpen || result != -1, (.startPublish, n.isOpen) :: n.calls⟩

def stopPublish (n : NativeStreamer) : NativeStreamer :=
  ⟨false, (.stopPublish, n.isOpen) :: n.calls⟩

def onPreviewFrame (n : NativeStreamer) : NativeStreamer :=
  ⟨n.isOpen, (.onPreviewFrame, n.isOpen) :: n.calls⟩

end NativeStreamer

/-! ## The activity -/

/-- A posted `Runnable`.  The number is that of the `VideoData` that the attempt is for. -/
inductive Task where
  | encodeStart (command : Nat)
  | encodeStop
  deriving DecidableEq, Repr

inductive Command where
  | videoData
  | recvaddrData
  deriving DecidableEq, Repr

structure Streamer where
  now : Int
  started : Bool
  isPreview : Bool
  rtmpOpenResult : Int
  retryTimes : Int
  queue : List (Delayed Task)
  native : NativeStreamer
  lastCommand : Option Command
  command : Nat
  succeeded : List Nat

/-- The `Int` of an event is what `startPublish` returns, if it is called. -/
inductive StreamerEvent where
  | videoData (result : Int)
  | recvaddrData
  | callback (result : Int)
  | previewFrame
  | onConnectDev
  | onSurfaceCreated (isCameraOpened : Bool)
  | onSurfaceDestroy (isCameraOpened : Bool)
  | advance (ms : Nat)

namespace Streamer

def start : Streamer := ⟨0, false, false, -1, 0, [], ⟨false, []⟩, none, 0, []⟩

/-- `mBaseHandler.postDelayed(.., 1000)`. -/
def postDelayed (task : Task) (s : Streamer) : Streamer :=
  { s with queue := Looper.enqueue ⟨s.now + 1000, task⟩ s.queue }

def startPushError (command : Nat) (s : Streamer) : Streamer :=
  if s.retryTimes < 5 then s.postDelayed (.encodeStart command) else s

def encodeStart (command : Nat) (result : Int) (s : Streamer) : Streamer :=
  let s := { s with rtmpOpenResult := result, native := s.native.startPublish result }
  if s.rtmpOpenResult ≠ -1 then { s with succeeded := command :: s.succeeded }
  else startPushError command { s with retryTimes := int (s.retryTimes + 1) }

def encodeStop (s : Streamer) : Streamer := { s with native := s.native.stopPublish }

/-- `onMessageEvent(RecvaddrData)`. -/
def onRecvaddrData (s : Streamer) : Streamer :=
  { s with started := false, lastCommand := some .recvaddrData }.postDelayed .encodeStop

/-- `onMessageEvent(VideoData)`. -/
def onVideoData (result : Int) (s : Streamer) : Streamer :=
  if s.started then { s with lastCommand := some .videoData }
  else
    let s := { s with lastCommand := some .videoData, command := s.command + 1 }
    { s.encodeStart s.command result with started := true }

/-- The part of the preview frame listener that streams. -/
def onPreviewFrame (s : Streamer) : Streamer :=
  if s.started ∧ s.isPreview ∧ s.rtmpOpenResult ≠ -1 then
    { s with native := s.native.onPreviewFrame }
  else s

def runTask (result : Int) (s : Streamer) : Task → Streamer
  | .encodeStart command => s.encodeStart command result
  | .encodeStop => s.encodeStop

def step (s : Streamer) : StreamerEvent → Option Streamer
  | .videoData result => some (s.onVideoData result)
  | .recvaddrData => some s.onRecvaddrData
  | .callback result =>
    (Looper.next s.now s.queue).map fun r => { s with queue := r.2 }.runTask result r.1.what
  | .previewFrame => some s.onPreviewFrame
  | .onConnectDev => some { s with isPreview := true }
  | .onSurfaceCreated isCameraOpened =>
    some (if !s.isPreview && isCameraOpened then { s with isPreview := true } else s)
  | .onSurfaceDestroy isCameraOpened =>
    some (if s.isPreview && isCameraOpened then { s with isPreview := false } else s)
  | .advance ms => some { s with now := s.now + ms }

end Streamer

def streamerMachine : StepMachine Streamer StreamerEvent := ⟨Streamer.start, Streamer.step⟩

/-! ## What a step does -/

namespace Streamer

/-- What is posted, in the order in which it will run. -/
def tasks (s : Streamer) : List Task := s.queue.map Delayed.what

/-- Everything posted is due within a second, so that what is posted next runs last. -/
def Window (s : Streamer) : Prop := ∀ m ∈ s.queue, m.due ≤ s.now + 1000

theorem Window.postDelayed_queue {s : Streamer} (h : s.Window) (task : Task) :
    (s.postDelayed task).queue = s.queue ++ [⟨s.now + 1000, task⟩] :=
  Looper.enqueue_eq_append h

theorem Window.postDelayed {s : Streamer} (h : s.Window) (task : Task) :
    (s.postDelayed task).Window := by
  intro m hm
  rw [h.postDelayed_queue] at hm
  rcases List.mem_append.mp hm with hm | hm
  · exact h m hm
  · rw [List.mem_singleton.mp hm]
    exact le_rfl

theorem Window.tasks_postDelayed {s : Streamer} (h : s.Window) (task : Task) :
    (s.postDelayed task).tasks = s.tasks ++ [task] := by
  rw [tasks, h.postDelayed_queue, List.map_append]
  rfl

theorem queue_eq_nil {s : Streamer} : s.queue = [] ↔ s.tasks = [] :=
  List.map_eq_nil_iff.symm

/-- After an attempt that succeeded. -/
def opened (command : Nat) (result : Int) (s : Streamer) : Streamer :=
  { s with
    rtmpOpenResult := result
    native := s.native.startPublish result
    succeeded := command :: s.succeeded }

/-- After an attempt that failed. -/
def failed (s : Streamer) : Streamer :=
  { s with
    rtmpOpenResult := -1
    native := s.native.startPublish (-1)
    retryTimes := int (s.retryTimes + 1) }

/-- An attempt that fails now is posted again. -/
def Again (s : Streamer) : Prop := int (s.retryTimes + 1) < 5

instance (s : Streamer) : Decidable s.Again := inferInstanceAs (Decidable (_ < _))

theorem encodeStart_opened {s : Streamer} (command : Nat) {result : Int} (h : result ≠ -1) :
    s.encodeStart command result = s.opened command result :=
  if_pos h

theorem encodeStart_again {s : Streamer} (command : Nat) (h : s.Again) :
    s.encodeStart command (-1) = s.failed.postDelayed (.encodeStart command) := by
  unfold encodeStart
  exact (if_neg (not_not.mpr rfl)).trans (if_pos h)

theorem encodeStart_failed {s : Streamer} (command : Nat) (h : ¬ s.Again) :
    s.encodeStart command (-1) = s.failed := by
  unfold encodeStart
  exact (if_neg (not_not.mpr rfl)).trans (if_neg h)

/-- An attempt succeeds, or fails and is posted again, or fails for good. -/
theorem encodeStart_cases (s : Streamer) (command : Nat) (result : Int) :
    (result ≠ -1 ∧ s.encodeStart command result = s.opened command result) ∨
    (result = -1 ∧ s.Again ∧
      s.encodeStart command result = s.failed.postDelayed (.encodeStart command)) ∨
    (result = -1 ∧ ¬ s.Again ∧ s.encodeStart command result = s.failed) := by
  by_cases hresult : result = -1
  · subst hresult
    by_cases h : s.Again
    · exact Or.inr (Or.inl ⟨rfl, h, encodeStart_again command h⟩)
    · exact Or.inr (Or.inr ⟨rfl, h, encodeStart_failed command h⟩)
  · exact Or.inl ⟨hresult, encodeStart_opened command hresult⟩

theorem opened_isOpen (s : Streamer) (command : Nat) {result : Int} (h : result ≠ -1) :
    (s.opened command result).native.isOpen = true := by
  simp [opened, NativeStreamer.startPublish, h]

@[simp] theorem failed_isOpen (s : Streamer) : s.failed.native.isOpen = s.native.isOpen := by
  simp [failed, NativeStreamer.startPublish]

theorem encodeStart_started (s : Streamer) (command : Nat) (result : Int) :
    (s.encodeStart command result).started = s.started := by
  rcases s.encodeStart_cases command result with ⟨-, heq⟩ | ⟨-, -, heq⟩ | ⟨-, -, heq⟩ <;>
    rw [heq] <;> rfl

theorem encodeStart_command (s : Streamer) (command : Nat) (result : Int) :
    (s.encodeStart command result).command = s.command := by
  rcases s.encodeStart_cases command result with ⟨-, heq⟩ | ⟨-, -, heq⟩ | ⟨-, -, heq⟩ <;>
    rw [heq] <;> rfl

theorem Window.failed {s : Streamer} (h : s.Window) : s.failed.Window := h

theorem Window.encodeStart {s : Streamer} (h : s.Window) (command : Nat) (result : Int) :
    (s.encodeStart command result).Window := by
  rcases s.encodeStart_cases command result with ⟨-, heq⟩ | ⟨-, -, heq⟩ | ⟨-, -, heq⟩
  · rw [heq]
    exact h
  · rw [heq]
    exact h.failed.postDelayed _
  · rw [heq]
    exact h.failed

/-- What is posted again after a failure runs last. -/
theorem Window.tasks_again {s : Streamer} (h : s.Window) (command : Nat) :
    (s.failed.postDelayed (.encodeStart command)).tasks = s.tasks ++ [.encodeStart command] :=
  h.failed.tasks_postDelayed _

theorem Window.mem_tasks_again {s : Streamer} (h : s.Window) {command c : Nat} :
    .encodeStart c ∈ (s.failed.postDelayed (.encodeStart command)).tasks ↔
      .encodeStart c ∈ s.tasks ∨ c = command := by
  rw [h.tasks_again, List.mem_append, List.mem_singleton, Task.encodeStart.injEq]

/-- Events that give no command: whatever `startPublish` returns, they follow from what has been
posted, from the camera and from time passing. -/
def Quiet : StreamerEvent → Prop
  | .videoData _ | .recvaddrData => False
  | _ => True

/-- A quiet step runs the first task, or leaves everything that decides about the session alone. -/
theorem quiet_cases {s t : Streamer} {e : StreamerEvent} (h : Quiet e) (ht : s.step e = some t) :
    (∃ result m q, e = .callback result ∧ s.queue = m :: q ∧
      t = { s with queue := q }.runTask result m.what) ∨
    (e = .previewFrame ∧ t = s.onPreviewFrame) ∨
    (∃ now isPreview, s.now ≤ now ∧ t = { s with now := now, isPreview := isPreview }) := by
  cases e with
  | videoData => exact h.elim
  | recvaddrData => exact h.elim
  | callback result =>
    obtain ⟨⟨m, q⟩, hq, rfl⟩ := Option.map_eq_some_iff.mp ht
    exact Or.inl ⟨result, m, q, rfl, (Looper.next_eq_some.mp hq).1, rfl⟩
  | previewFrame => exact Or.inr (Or.inl ⟨rfl, (Option.some.inj ht).symm⟩)
  | onConnectDev => exact Or.inr (Or.inr ⟨s.now, true, le_rfl, (Option.some.inj ht).symm⟩)
  | onSurfaceCreated isCameraOpened =>
    obtain rfl := Option.some.inj ht
    refine Or.inr (Or.inr ?_)
    split
    · exact ⟨s.now, true, le_rfl, rfl⟩
    · exact ⟨s.now, s.isPreview, le_rfl, rfl⟩
  | onSurfaceDestroy isCameraOpened =>
    obtain rfl := Option.some.inj ht
    refine Or.inr (Or.inr ?_)
    split
    · exact ⟨s.now, false, le_rfl, rfl⟩
    · exact ⟨s.now, s.isPreview, le_rfl, rfl⟩
  | advance ms =>
    obtain rfl := Option.some.inj ht
    exact Or.inr (Or.inr ⟨s.now + ms, s.isPreview, by omega, rfl⟩)

/-! ## Running what is posted -/

/-- The first task runs once the time has come. -/
theorem exists_next {s : Streamer} (hw : s.Window) {task : Task} {rest : List Task}
    (htasks : s.tasks = task :: rest) : ∃ (ms : Nat) (m : Delayed Task) (u : Streamer),
      m.what = task ∧ Looper.next (s.now + ms) s.queue = some (m, u.queue) ∧ u.tasks = rest ∧
      u.Window ∧ u = { s with now := s.now + ms, queue := u.queue } := by
  obtain ⟨m, q, hqueue, rfl, rfl⟩ := List.map_eq_cons_iff.mp htasks
  have hdue : m.due ≤ s.now + (m.due - s.now).toNat := by omega
  refine ⟨(m.due - s.now).toNat, m, { s with now := s.now + (m.due - s.now).toNat, queue := q },
    rfl, Looper.next_eq_some.mpr ⟨hqueue, hdue⟩, rfl, fun m' hm' => ?_, rfl⟩
  have := hw m' (by rw [hqueue]; exact List.mem_cons_of_mem m hm')
  show m'.due ≤ s.now + (m.due - s.now).toNat + 1000
  omega

/-- A run is doomed if running its first task dooms it. -/
theorem doomed_of_task {P : Streamer → Prop} {es : List StreamerEvent} {s : Streamer}
    (hs : streamerMachine.run es = some s) (hw : s.Window) {task : Task} {rest : List Task}
    (htasks : s.tasks = task :: rest) (result : Int)
    (h : ∀ es' (u : Streamer), u.tasks = rest → u.Window →
      u = { s with now := u.now, queue := u.queue } →
      streamerMachine.run es' = some (u.runTask result task) →
      streamerMachine.Doomed Quiet P es') : streamerMachine.Doomed Quiet P es := by
  obtain ⟨ms, m, u, rfl, hnext, hrest, hwindow, hu⟩ := exists_next hw htasks
  have hadvance : streamerMachine.run (es ++ [.advance ms]) = some { s with now := s.now + ms } :=
    streamerMachine.run_concat_eq_some.mpr ⟨s, hs, rfl⟩
  have hcallback : streamerMachine.run (es ++ [.advance ms] ++ [.callback result]) =
      some (u.runTask result m.what) := by
    refine streamerMachine.run_concat_eq_some.mpr ⟨_, hadvance, ?_⟩
    show (Looper.next (s.now + ms) s.queue).map _ = _
    rw [hnext]
    show some (Streamer.runTask result { s with now := s.now + ms, queue := u.queue } m.what) = _
    rw [← hu]
  exact StepMachine.doomed_of_concat (e := .advance ms) trivial
    (StepMachine.doomed_of_concat (e := .callback result) trivial
      (h _ u hrest hwindow (by rw [hu]) hcallback))

end Streamer

end PetDev.Stream
