import PetDev.Camera.Recorder

/-!
# Every recording is uploaded once

The listener of `recordMovie` hands the path of the recording to `uploadVideo`.  It is a
static field that is never cleared, and `handleStopPusher` calls it at every stop, with the
path of the last recording that started, whether or not there is anything to stop; it is
also part of opening and closing the camera.

`uploaded_iff`: each recording is uploaded once when it ends exactly when the camera thread
never stops, opens or closes without an active recording after `startRecording` has set the
listener.
-/

namespace PetDev.Camera

open Java Android

/-- The messages whose handling goes through `handleStopPusher`. -/
def Message.stops : Message → Bool
  | .msgCaptureStart _ => false
  | _ => true

namespace Recorder

/-- One upload for each recording that has ended, with its own path. -/
def Uploaded (s : Recorder) : Prop := s.thread.uploads = s.thread.ended.map some

/-- **The condition on an event**: what the camera thread stops is an active recording, or there
is no listener yet. -/
def StopsRecording (s : Recorder) : RecorderEvent → Prop
  | .camera _ => ∀ m ∈ s.queue.head?, m.stops = true →
    s.thread.mH264Consumer.isSome = true ∨ s.mListener = false
  | _ => True

instance (s : Recorder) : (e : RecorderEvent) → Decidable (s.StopsRecording e)
  | .camera _ => inferInstanceAs (Decidable (∀ m ∈ s.queue.head?, m.stops = true → _))
  | .recordMovie | .startPusher | .postDelayed | .stopPusher | .stopPreview | .onConnect
  | .closeCamera | .advance _ => inferInstanceAs (Decidable True)

/-- The path is that of the active recording, and nothing is started before the listener is
set. -/
structure Listens (s : Recorder) : Prop where
  active : ∀ params, s.thread.mH264Consumer = some params →
    s.thread.videoPath = some params.recordPath ∧ s.mListener = true
  queued : ∀ params, .msgCaptureStart params ∈ s.queue → s.mListener = true

theorem listens_start (opened : Bool) : (start opened).Listens := ⟨nofun, nofun⟩

theorem Listens.sendMessage {s : Recorder} (h : s.Listens) {m : Message} (hm : m.stops = true) :
    (s.sendMessage m).Listens := by
  refine ⟨h.active, fun params hparams => ?_⟩
  rcases List.mem_append.mp hparams with hparams | hparams
  · exact h.queued params hparams
  · rw [← List.mem_singleton.mp hparams] at hm
    cases hm

theorem Listens.stopPusher {s : Recorder} (h : s.Listens) : s.stopPusher.Listens := by
  rcases s.stopPusher_cases with ⟨-, heq⟩ | ⟨-, heq⟩
  · rw [heq]
    exact h.sendMessage (m := .msgCaptureStop) rfl
  · rw [heq]
    exact h

/-- Every message that stops leaves no recording active. -/
theorem handleMessage_of_stops (mListener opens : Bool) (s : CameraThread) {m : Message}
    (hm : m.stops = true) :
    (s.handleMessage mListener opens m).mH264Consumer = none ∧
      (s.handleMessage mListener opens m).uploads = (s.handleStopPusher mListener).uploads ∧
      (s.handleMessage mListener opens m).ended = (s.handleStopPusher mListener).ended := by
  cases m with
  | msgCaptureStart => cases hm
  | _ => exact ⟨rfl, rfl, rfl⟩

theorem Listens.camera {s : Recorder} (h : s.Listens) (opens : Bool) {m : Message}
    {q : List Message} (hqueue : s.queue = m :: q) :
    Listens { s with queue := q, thread := s.thread.handleMessage s.mListener opens m } := by
  refine ⟨fun params hparams => ?_, fun params hparams => ?_⟩
  · cases hm : m.stops with
    | true =>
      have hnone := (handleMessage_of_stops s.mListener opens s.thread hm).1
      rw [hnone] at hparams
      cases hparams
    | false =>
      obtain ⟨p, rfl⟩ : ∃ p, m = .msgCaptureStart p := by
        cases m with
        | msgCaptureStart p => exact ⟨p, rfl⟩
        | _ => cases hm
      change (s.thread.handleStartPusher p).mH264Consumer = some params at hparams
      show (s.thread.handleStartPusher p).videoPath = some params.recordPath ∧ _
      unfold CameraThread.handleStartPusher at hparams ⊢
      split at hparams
      · next hrefused =>
        rw [if_pos hrefused]
        exact h.active params hparams
      · next hstarts =>
        rw [if_neg hstarts]
        obtain rfl := Option.some.inj hparams
        exact ⟨rfl, h.queued p (by rw [hqueue]; exact List.mem_cons_self)⟩
  · exact h.queued params (by rw [hqueue]; exact List.mem_cons_of_mem m hparams)

theorem Listens.step {ROOT_PATH : String} {s t : Recorder} {e : RecorderEvent} (h : s.Listens)
    (ht : s.step ROOT_PATH e = some t) : t.Listens := by
  cases step_of_eq_some ht with
  | recordMovie =>
    rcases s.recordMovie_cases ROOT_PATH with ⟨-, heq⟩ | ⟨-, heq⟩ <;>
    · rw [heq]
      exact ⟨h.active, h.queued⟩
  | startPusher params =>
    rcases s.startPusher_cases params with ⟨-, heq⟩ | ⟨-, heq⟩
    · rw [heq]
      exact ⟨h.active, h.queued⟩
    · rw [heq]
      exact ⟨fun p hp => ⟨(h.active p hp).1, rfl⟩, fun _ _ => rfl⟩
  | postDelayed => exact ⟨h.active, h.queued⟩
  | stopPusher m q => exact Listens.stopPusher ⟨h.active, h.queued⟩
  | stopPreview => exact h.stopPusher
  | onConnect => exact h.sendMessage rfl
  | closeCamera =>
    unfold Recorder.closeCamera
    split
    · exact h.stopPusher.sendMessage rfl
    · exact h
  | camera opens m q hqueue => exact h.camera opens hqueue
  | advance ms => exact ⟨h.active, h.queued⟩

/-- One step of the camera thread: it uploads once what it ends, and uploads nothing else. -/
theorem uploaded_camera {s : Recorder} (hlistens : s.Listens) (h : s.Uploaded) (opens : Bool)
    {m : Message} {q : List Message} (hqueue : s.queue = m :: q) :
    Uploaded { s with queue := q, thread := s.thread.handleMessage s.mListener opens m } ↔
      s.StopsRecording (.camera opens) := by
  have hstops : s.StopsRecording (.camera opens) ↔
      (m.stops = true → s.thread.mH264Consumer.isSome = true ∨ s.mListener = false) := by
    simp [StopsRecording, hqueue]
  rw [hstops]
  cases hm : m.stops with
  | false =>
    refine iff_of_true ?_ nofun
    obtain ⟨p, rfl⟩ : ∃ p, m = .msgCaptureStart p := by
      cases m with
      | msgCaptureStart p => exact ⟨p, rfl⟩
      | _ => cases hm
    show (s.thread.handleStartPusher p).uploads = (s.thread.handleStartPusher p).ended.map some
    unfold CameraThread.handleStartPusher
    split <;> exact h
  | true =>
    obtain ⟨-, huploads, hended⟩ := handleMessage_of_stops s.mListener opens s.thread hm
    rw [forall_prop_of_true rfl, Uploaded, huploads, hended]
    unfold Uploaded at h
    unfold CameraThread.handleStopPusher
    cases hactive : s.thread.mH264Consumer with
    | some params =>
      -- a recording ends, and is uploaded
      obtain ⟨hpath, hlistener⟩ := hlistens.active params hactive
      refine iff_of_true ?_ (Or.inl rfl)
      rw [hlistener, hpath, if_pos rfl, h]
      rfl
    | none =>
      cases hlistener : s.mListener with
      | false => exact iff_of_true h (Or.inr rfl)
      | true =>
        -- nothing ends, and the last path is uploaded again
        refine iff_of_false (fun hsame => ?_) (by simp)
        have hlength := congrArg List.length hsame
        simp only [if_true, h, List.length_cons, List.length_map, Option.map_none,
          Option.toList_none, List.nil_append] at hlength
        omega

theorem uploaded_step {ROOT_PATH : String} {s t : Recorder} {e : RecorderEvent}
    (hlistens : s.Listens) (h : s.Uploaded) (ht : s.step ROOT_PATH e = some t) :
    t.Uploaded ↔ s.StopsRecording e := by
  cases step_of_eq_some ht with
  | recordMovie =>
    refine iff_of_true ?_ trivial
    rcases s.recordMovie_cases ROOT_PATH with ⟨-, heq⟩ | ⟨-, heq⟩ <;>
    · rw [heq]
      exact h
  | startPusher params =>
    refine iff_of_true ?_ trivial
    rcases s.startPusher_cases params with ⟨-, heq⟩ | ⟨-, heq⟩ <;>
    · rw [heq]
      exact h
  | postDelayed => exact iff_of_true h trivial
  | stopPusher m q =>
    refine iff_of_true ?_ trivial
    rcases stopPusher_cases { s with callbacks := q } with ⟨-, heq⟩ | ⟨-, heq⟩ <;>
    · rw [heq]
      exact h
  | stopPreview =>
    refine iff_of_true ?_ trivial
    rcases s.stopPusher_cases with ⟨-, heq⟩ | ⟨-, heq⟩ <;>
    · rw [heq]
      exact h
  | onConnect => exact iff_of_true h trivial
  | closeCamera =>
    refine iff_of_true ?_ trivial
    unfold Recorder.closeCamera
    split
    · rcases s.stopPusher_cases with ⟨-, heq⟩ | ⟨-, heq⟩ <;>
      · rw [heq]
        exact h
    · exact h
  | camera opens m q hqueue => exact uploaded_camera hlistens h opens hqueue
  | advance ms => exact iff_of_true h trivial

end Recorder

/-- **Each recording is uploaded once, with its own path, exactly when the camera thread stops
nothing but active recordings** after a listener has been set. -/
theorem uploaded_iff (ROOT_PATH : String) (opened : Bool) (es : List RecorderEvent) (s : Recorder)
    (hs : (recorderMachine ROOT_PATH opened).run es = some s) :
    (recorderMachine ROOT_PATH opened).Always Recorder.Uploaded es ↔
      (recorderMachine ROOT_PATH opened).Each Recorder.StopsRecording es :=
  (recorderMachine ROOT_PATH opened).always_iff_each (P := Recorder.Uploaded)
    (Recorder.listens_start opened) rfl (fun _ _ _ h ht => h.step ht)
    (fun _ _ _ hlistens h ht => Recorder.uploaded_step hlistens h ht) hs

/-- The camera is attached, and a movie is recorded. -/
def attachedAndRecorded : List RecorderEvent :=
  [.onConnect, .camera true, .recordMovie, .startPusher, .postDelayed, .camera true,
    .advance 10000, .stopPusher, .camera true]

/-- Then the camera is attached again. -/
def attachedAgain : List RecorderEvent := attachedAndRecorded ++ [.onConnect, .camera true]

/-- Attaching the camera uploads the last movie once more. -/
theorem not_forall_uploaded : ¬ ∀ (ROOT_PATH : String) (opened : Bool) (es : List RecorderEvent),
    (recorderMachine ROOT_PATH opened).Always Recorder.Uploaded es := by
  intro h
  have hrun : ((recorderMachine "/" false).run attachedAgain).map
      (fun s => (s.thread.uploads, s.thread.ended)) =
      some ([some "/Movies/0.mp4", some "/Movies/0.mp4"], ["/Movies/0.mp4"]) := by
    decide +kernel
  obtain ⟨s, hs, hout⟩ := Option.map_eq_some_iff.mp hrun
  obtain ⟨huploads, hended⟩ := Prod.mk.inj hout
  have huploaded := (h "/" false attachedAgain).last hs
  rw [Recorder.Uploaded, huploads, hended] at huploaded
  cases huploaded

theorem uploaded_iff_attachedAndRecorded :
    ∃ s, (recorderMachine "/" false).run attachedAndRecorded = some s ∧
      s.thread.uploads = [some "/Movies/0.mp4"] ∧
      ((recorderMachine "/" false).Always Recorder.Uploaded attachedAndRecorded ↔
        (recorderMachine "/" false).Each Recorder.StopsRecording attachedAndRecorded) := by
  have hrun : ((recorderMachine "/" false).run attachedAndRecorded).map
      (fun s => s.thread.uploads) = some [some "/Movies/0.mp4"] := by
    decide +kernel
  obtain ⟨s, hs, huploads⟩ := Option.map_eq_some_iff.mp hrun
  exact ⟨s, hs, huploads, uploaded_iff "/" false attachedAndRecorded s hs⟩

end PetDev.Camera
