import PetDev.Camera.Recorder

/-!
# Every recording is to be stopped

A recording that is active, or whose start is still queued, should have a stop to come: the
callback that its `recordMovie` posts, or a stop command behind its start.

`stopComing_iff`: it does exactly when no stop callback runs for nothing, finding no recording
active while the start of its own recording is still queued.
-/

namespace PetDev.Camera

open Java Android

/-! ## Queues in which every start has a stop -/

/-- Every queued start is of a call in `own`, or has a stop behind it. -/
def Covered (own : Nat → Prop) : List Message → Prop
  | [] => True
  | .msgCaptureStart params :: q => (own params.call ∨ .msgCaptureStop ∈ q) ∧ Covered own q
  | .msgOpen :: q => Covered own q
  | .msgClose :: q => Covered own q
  | .msgCaptureStop :: q => Covered own q

instance decidableCovered (own : Nat → Prop) [DecidablePred own] :
    (q : List Message) → Decidable (Covered own q)
  | [] => inferInstanceAs (Decidable True)
  | .msgCaptureStart params :: q =>
    have := decidableCovered own q
    inferInstanceAs (Decidable ((own params.call ∨ .msgCaptureStop ∈ q) ∧ Covered own q))
  | .msgOpen :: q => decidableCovered own q
  | .msgClose :: q => decidableCovered own q
  | .msgCaptureStop :: q => decidableCovered own q

theorem Covered.tail {own : Nat → Prop} {m : Message} {q : List Message}
    (h : Covered own (m :: q)) : Covered own q := by
  cases m with
  | msgCaptureStart => exact h.2
  | _ => exact h

/-- Behind a start that has been taken by the camera thread, another one can go. -/
theorem Covered.drop_second {own : Nat → Prop} {params : RecordParams} {m : Message}
    {q : List Message} (hm : m ≠ .msgCaptureStop)
    (h : Covered own (.msgCaptureStart params :: m :: q)) :
    Covered own (.msgCaptureStart params :: q) := by
  refine ⟨h.1.imp_right fun hstop => ?_, h.2.tail⟩
  exact (List.mem_cons.mp hstop).resolve_left (Ne.symm hm)

theorem covered_and {own own' : Nat → Prop} {q : List Message} :
    Covered (fun call => own call ∧ own' call) q ↔ Covered own q ∧ Covered own' q := by
  induction q with
  | nil => exact (and_self_iff).symm
  | cons m q ih =>
    cases m with
    | msgCaptureStart params =>
      simp only [Covered, ih, and_or_right]
      exact and_and_and_comm
    | _ => exact ih

/-- A stop at the end covers everything. -/
theorem covered_append_stop (own : Nat → Prop) (q : List Message) :
    Covered own (q ++ [.msgCaptureStop]) := by
  induction q with
  | nil => trivial
  | cons m q ih =>
    cases m with
    | msgCaptureStart params => exact ⟨Or.inr (List.mem_append_right q List.mem_cons_self), ih⟩
    | _ => exact ih

theorem Covered.append_start {own : Nat → Prop} {q : List Message} (h : Covered own q)
    {params : RecordParams} (hown : own params.call) :
    Covered own (q ++ [.msgCaptureStart params]) := by
  induction q with
  | nil => exact ⟨Or.inl hown, trivial⟩
  | cons m q ih =>
    cases m with
    | msgCaptureStart _ =>
      exact ⟨h.1.imp_right fun hstop => List.mem_append_left _ hstop, ih h.2⟩
    | _ => exact ih h

theorem Covered.mono {own own' : Nat → Prop} {q : List Message} (h : Covered own q)
    (hown : ∀ call, own call → own' call) : Covered own' q := by
  induction q with
  | nil => trivial
  | cons m q ih =>
    cases m with
    | msgCaptureStart params => exact ⟨h.1.imp_left (hown params.call), ih h.2⟩
    | _ => exact ih h

namespace Recorder

/-! ## The recording that is active and those that are queued -/

/-- The call's stop callback is posted, or about to be. -/
def CallbackComing (s : Recorder) (call : Nat) : Prop :=
  call ∈ s.callbacks.map Delayed.what ∨ s.main = some (.postDelayed call)

/-- The start of the active recording, if there is one, and the queue. -/
def pending (s : Recorder) : List Message :=
  (s.thread.mH264Consumer.map Message.msgCaptureStart).toList ++ s.queue

/-- Every recording that is active or queued has a stop to come. -/
def StopComing (s : Recorder) : Prop := Covered s.CallbackComing s.pending

/-- **The condition on an event**: a stop callback finds a recording active, or the start of its
own recording already taken from the queue (or a stop behind it). -/
def FindsRecording (s : Recorder) : RecorderEvent → Prop
  | .stopPusher => ∀ m ∈ s.callbacks.head?, s.isPushing = true ∨
    Covered (fun call => call ≠ m.what) s.queue
  | _ => True

instance (s : Recorder) (e : RecorderEvent) : Decidable (s.FindsRecording e) := by
  cases e <;> unfold FindsRecording <;> infer_instance

/-- The camera stays open. -/
def StaysOpen (_ : Recorder) : RecorderEvent → Prop
  | .onConnect | .closeCamera => False
  | _ => True

instance (s : Recorder) (e : RecorderEvent) : Decidable (s.StaysOpen e) := by
  cases e <;> unfold StaysOpen <;> infer_instance

end Recorder

/-- The machine whose camera stays open. -/
def openMachine (ROOT_PATH : String) : StepMachine Recorder RecorderEvent :=
  (recorderMachine ROOT_PATH true).guard Recorder.StaysOpen

namespace Recorder

/-! ## Callbacks have different numbers -/

/-- The camera is open, no command that would close it is queued, and the calls whose callback is
posted, and the one that is under way, have different numbers. -/
structure Inv (s : Recorder) : Prop where
  opened : s.thread.mUVCCamera = true
  queue : .msgOpen ∉ s.queue ∧ .msgClose ∉ s.queue
  nodup : (s.callbacks.map Delayed.what).Nodup
  posted : ∀ call ∈ s.callbacks.map Delayed.what, call < s.calls
  started : ∀ params, s.main = some (.startPusher params) →
    params.call < s.calls ∧ params.call ∉ s.callbacks.map Delayed.what
  underway : ∀ call, s.main = some (.postDelayed call) →
    call < s.calls ∧ call ∉ s.callbacks.map Delayed.what

theorem inv_start : (start true).Inv := ⟨rfl, by simp [start], by simp [start], nofun, nofun, nofun⟩

theorem isPushing_of_opened {s : Recorder} (h : s.thread.mUVCCamera = true) :
    s.isPushing = s.thread.mH264Consumer.isSome := by
  rw [isPushing, CameraThread.isRecording, h, Bool.true_and]

theorem Inv.stopPusher {s : Recorder} (h : s.Inv) : s.stopPusher.Inv := by
  rcases s.stopPusher_cases with ⟨-, heq⟩ | ⟨-, heq⟩
  · rw [heq]
    exact ⟨h.opened, by simp [h.queue], h.nodup, h.posted, h.started, h.underway⟩
  · rw [heq]
    exact h

theorem Inv.postDelayed {s : Recorder} (h : s.Inv) {call : Nat}
    (hmain : s.main = some (.postDelayed call)) : (s.postDelayed call).Inv := by
  obtain ⟨hlt, hnew⟩ := h.underway call hmain
  have hperm : ((s.postDelayed call).callbacks.map Delayed.what).Perm
      (call :: s.callbacks.map Delayed.what) :=
    (Looper.enqueue_perm _ _).map Delayed.what
  refine ⟨h.opened, h.queue, ?_, fun c hc => ?_, nofun, nofun⟩
  · rw [hperm.nodup_iff]
    exact List.nodup_cons.mpr ⟨hnew, h.nodup⟩
  · rcases List.mem_cons.mp (hperm.mem_iff.mp hc) with rfl | hc
    · exact hlt
    · exact h.posted c hc

theorem Inv.camera {s : Recorder} (h : s.Inv) (opens : Bool) {m : Message} {q : List Message}
    (hqueue : s.queue = m :: q) :
    Inv { s with queue := q, thread := s.thread.handleMessage s.mListener opens m } := by
  have hmem := h.queue
  rw [hqueue] at hmem
  have hq : .msgOpen ∉ q ∧ .msgClose ∉ q :=
    ⟨fun h => hmem.1 (List.mem_cons_of_mem m h), fun h => hmem.2 (List.mem_cons_of_mem m h)⟩
  refine ⟨?_, hq, h.nodup, h.posted, h.started, h.underway⟩
  cases m with
  | msgOpen => exact absurd List.mem_cons_self hmem.1
  | msgClose => exact absurd List.mem_cons_self hmem.2
  | msgCaptureStart params =>
    show (s.thread.handleStartPusher params).mUVCCamera = true
    unfold CameraThread.handleStartPusher
    split <;> exact h.opened
  | msgCaptureStop => exact h.opened

theorem Inv.step {ROOT_PATH : String} {s t : Recorder} {e : RecorderEvent} (h : s.Inv)
    (hopen : s.StaysOpen e) (ht : s.step ROOT_PATH e = some t) : t.Inv := by
  cases step_of_eq_some ht with
  | recordMovie hmain =>
    have hposted : ∀ call ∈ s.callbacks.map Delayed.what, call < s.calls + 1 := fun call hcall =>
      (h.posted call hcall).trans (Nat.lt_succ_self _)
    rcases s.recordMovie_cases ROOT_PATH with ⟨-, heq⟩ | ⟨-, heq⟩
    · rw [heq]
      refine ⟨h.opened, h.queue, h.nodup, hposted, ?_, ?_⟩ <;>
      · intro x hx
        rw [show s.main = none from hmain] at hx
        cases hx
    · rw [heq]
      refine ⟨h.opened, h.queue, h.nodup, hposted, fun params hparams => ?_, nofun⟩
      obtain rfl := MainStep.startPusher.inj (Option.some.inj hparams)
      exact ⟨Nat.lt_succ_self _, fun hcall => lt_irrefl _ (h.posted s.calls hcall)⟩
  | startPusher params hmain =>
    have hunderway := h.started params hmain
    rcases s.startPusher_cases params with ⟨-, heq⟩ | ⟨-, heq⟩
    · rw [heq]
      refine ⟨h.opened, h.queue, h.nodup, h.posted, nofun, fun call hcall => ?_⟩
      obtain rfl := MainStep.postDelayed.inj (Option.some.inj hcall)
      exact hunderway
    · rw [heq]
      refine ⟨h.opened, by simp [h.queue], h.nodup, h.posted, nofun, fun call hcall => ?_⟩
      obtain rfl := MainStep.postDelayed.inj (Option.some.inj hcall)
      exact hunderway
  | postDelayed call hmain => exact h.postDelayed hmain
  | stopPusher m q hmain hcallbacks =>
    have hnodup := h.nodup
    have hposted := h.posted
    rw [hcallbacks, List.map_cons] at hnodup hposted
    refine Inv.stopPusher ⟨h.opened, h.queue, (List.nodup_cons.mp hnodup).2,
      fun call hcall => hposted call (List.mem_cons_of_mem _ hcall), ?_, ?_⟩ <;>
    · intro x hx
      rw [show s.main = none from hmain] at hx
      cases hx
  | stopPreview => exact h.stopPusher
  | onConnect => exact hopen.elim
  | closeCamera => exact hopen.elim
  | camera opens m q hqueue => exact h.camera opens hqueue
  | advance ms => exact ⟨h.opened, h.queue, h.nodup, h.posted, h.started, h.underway⟩

/-! ## Stops stay to come -/

theorem pending_append {s : Recorder} (m : Message) :
    (s.sendMessage m).pending = s.pending ++ [m] := by
  rw [pending, pending, List.append_assoc]
  rfl

/-- The camera thread takes a start, and keeps it if no recording is active; a stop ends the
recording that is active. -/
theorem StopComing.camera {s : Recorder} (hinv : s.Inv) (h : s.StopComing) (opens : Bool)
    {m : Message} {q : List Message} (hqueue : s.queue = m :: q) :
    StopComing { s with queue := q, thread := s.thread.handleMessage s.mListener opens m } := by
  have hmem := hinv.queue
  unfold StopComing pending at h
  rw [hqueue] at h hmem
  show Covered s.CallbackComing (_ ++ q)
  cases hconsumer : s.thread.mH264Consumer with
  | none =>
    rw [hconsumer] at h
    cases m with
    | msgOpen => exact absurd List.mem_cons_self hmem.1
    | msgClose => exact absurd List.mem_cons_self hmem.2
    | msgCaptureStart params =>
      have hstart : s.thread.handleStartPusher params =
          { s.thread with videoPath := some params.recordPath, mH264Consumer := some params } :=
        if_neg (by simp [hinv.opened, hconsumer])
      show Covered s.CallbackComing
        (((s.thread.handleStartPusher params).mH264Consumer.map _).toList ++ q)
      rw [hstart]
      exact h
    | msgCaptureStop => exact h
  | some active =>
    rw [hconsumer] at h
    cases m with
    | msgOpen => exact absurd List.mem_cons_self hmem.1
    | msgClose => exact absurd List.mem_cons_self hmem.2
    | msgCaptureStart params =>
      have hstart : s.thread.handleStartPusher params = s.thread :=
        if_pos (Or.inr (by rw [hconsumer]; rfl))
      show Covered s.CallbackComing
        (((s.thread.handleStartPusher params).mH264Consumer.map _).toList ++ q)
      rw [hstart, hconsumer]
      exact Covered.drop_second (m := .msgCaptureStart params) nofun h
    | msgCaptureStop => exact h.tail

/-- A callback that runs. -/
theorem stopComing_stopPusher {s : Recorder} (hinv : s.Inv) (h : s.StopComing)
    (hmain : s.main = none) {m : Delayed Nat} {q : List (Delayed Nat)}
    (hcallbacks : s.callbacks = m :: q) :
    ({ s with callbacks := q }.stopPusher).StopComing ↔ s.FindsRecording .stopPusher := by
  have hfinds : s.FindsRecording .stopPusher ↔ s.isPushing = true ∨
      Covered (fun call => call ≠ m.what) s.queue := by
    simp [FindsRecording, hcallbacks]
  rw [hfinds]
  rcases stopPusher_cases { s with callbacks := q } with ⟨hpushing, heq⟩ | ⟨hpushing, heq⟩
  · -- it sends the stop, which covers everything
    rw [heq]
    have hpush : s.isPushing = true := hpushing
    refine iff_of_true ?_ (Or.inl hpush)
    have happend : pending { s with callbacks := q, queue := s.queue ++ [.msgCaptureStop] } =
        s.pending ++ [.msgCaptureStop] := pending_append _
    rw [StopComing, happend]
    exact covered_append_stop _ _
  · -- it does nothing: what it covered is covered by a stop, or not at all
    rw [heq]
    have hpush : s.isPushing = false := hpushing
    have hnone : s.thread.mH264Consumer = none := by
      rw [isPushing_of_opened hinv.opened] at hpush
      exact Option.isSome_eq_false_iff.mp hpush |> Option.isNone_iff_eq_none.mp
    have hpending : s.pending = s.queue := by
      rw [pending, hnone]
      rfl
    have hnodup := hinv.nodup
    rw [hcallbacks, List.map_cons] at hnodup
    have hown : ∀ call, CallbackComing { s with callbacks := q } call ↔
        s.CallbackComing call ∧ call ≠ m.what := by
      intro call
      have hnot : s.main ≠ some (.postDelayed call) := by simp [hmain]
      have hall : s.CallbackComing call ↔ call = m.what ∨ call ∈ q.map Delayed.what := by
        rw [CallbackComing, or_iff_left hnot, hcallbacks, List.map_cons, List.mem_cons]
      have hrest : CallbackComing { s with callbacks := q } call ↔ call ∈ q.map Delayed.what :=
        or_iff_left hnot
      rw [hall, hrest]
      constructor
      · intro hcall
        exact ⟨Or.inr hcall, fun heq => (List.nodup_cons.mp hnodup).1 (heq ▸ hcall)⟩
      · rintro ⟨heq | hcall, hne⟩
        · exact absurd heq hne
        · exact hcall
    have hiff : StopComing { s with callbacks := q } ↔
        s.StopComing ∧ Covered (fun call => call ≠ m.what) s.pending := by
      rw [StopComing, StopComing, ← covered_and, ← funext fun call => propext (hown call)]
      rfl
    rw [hiff, hpending, and_iff_right h, hpush]
    exact (or_iff_right Bool.false_ne_true).symm

theorem stopComing_step {ROOT_PATH : String} {s t : Recorder} {e : RecorderEvent} (hinv : s.Inv)
    (h : s.StopComing) (hopen : s.StaysOpen e) (ht : s.step ROOT_PATH e = some t) :
    t.StopComing ↔ s.FindsRecording e := by
  have hmain_none : ∀ {u : Recorder}, s.main = none → u.callbacks = s.callbacks →
      ∀ call, s.CallbackComing call → u.CallbackComing call := by
    intro u hmain hcallbacks call hcall
    rw [CallbackComing, hmain] at hcall
    rw [CallbackComing, hcallbacks]
    exact Or.inl (hcall.resolve_right nofun)
  cases step_of_eq_some ht with
  | recordMovie hmain =>
    refine iff_of_true ?_ trivial
    rcases s.recordMovie_cases ROOT_PATH with ⟨-, heq⟩ | ⟨-, heq⟩
    · rw [heq]
      exact h
    · rw [heq]
      exact Covered.mono h (hmain_none hmain rfl)
  | startPusher params hmain =>
    refine iff_of_true ?_ trivial
    have hown : ∀ {u : Recorder}, u.callbacks = s.callbacks →
        ∀ call, s.CallbackComing call → u.CallbackComing call := by
      intro u hcallbacks call hcall
      rw [CallbackComing, hmain] at hcall
      rw [CallbackComing, hcallbacks]
      exact Or.inl (hcall.resolve_right nofun)
    rcases s.startPusher_cases params with ⟨-, heq⟩ | ⟨-, heq⟩
    · rw [heq]
      exact Covered.mono h (hown rfl)
    · rw [heq]
      let u : Recorder := { s with main := some (.postDelayed params.call), mListener := true }
      have hpending : (u.sendMessage (.msgCaptureStart params)).pending =
          s.pending ++ [.msgCaptureStart params] := pending_append _
      show (u.sendMessage (.msgCaptureStart params)).StopComing
      have hcovered : Covered (u.sendMessage (.msgCaptureStart params)).CallbackComing s.pending :=
        Covered.mono h (hown rfl)
      rw [StopComing, hpending]
      exact hcovered.append_start (Or.inr rfl)
  | postDelayed call hmain =>
    refine iff_of_true (Covered.mono h fun c hc => ?_) trivial
    rw [CallbackComing, hmain, Option.some.injEq, MainStep.postDelayed.injEq] at hc
    refine Or.inl (((Looper.enqueue_perm _ _).map Delayed.what).mem_iff.mpr ?_)
    exact List.mem_cons.mpr (hc.symm.imp_left Eq.symm)
  | stopPusher m q hmain hcallbacks => exact stopComing_stopPusher hinv h hmain hcallbacks
  | stopPreview hmain =>
    refine iff_of_true ?_ trivial
    rcases s.stopPusher_cases with ⟨-, heq⟩ | ⟨-, heq⟩
    · rw [heq]
      show Covered _ (s.sendMessage .msgCaptureStop).pending
      rw [pending_append]
      exact covered_append_stop _ _
    · rw [heq]
      exact h
  | onConnect => exact hopen.elim
  | closeCamera => exact hopen.elim
  | camera opens m q hqueue => exact iff_of_true (h.camera hinv opens hqueue) trivial
  | advance ms => exact iff_of_true h trivial

end Recorder

/-- **Every recording has a stop to come exactly when no stop callback runs for nothing** while
the start of its own recording is still queued. -/
theorem stopComing_iff (ROOT_PATH : String) (es : List RecorderEvent) (s : Recorder)
    (hs : (openMachine ROOT_PATH).run es = some s) :
    (openMachine ROOT_PATH).Always Recorder.StopComing es ↔
      (openMachine ROOT_PATH).Each Recorder.FindsRecording es := by
  refine (openMachine ROOT_PATH).always_iff_each Recorder.inv_start trivial ?_ ?_ hs
  · intro s e t hinv ht
    obtain ⟨hopen, ht⟩ := (recorderMachine ROOT_PATH true).guard_step_eq_some.mp ht
    exact hinv.step hopen ht
  · intro s e t hinv h ht
    obtain ⟨hopen, ht⟩ := (recorderMachine ROOT_PATH true).guard_step_eq_some.mp ht
    exact Recorder.stopComing_step hinv h hopen ht

/-- A movie is recorded, and the camera thread takes the start at once. -/
def recorded : List RecorderEvent :=
  [.recordMovie, .startPusher, .postDelayed, .camera true, .advance 10000, .stopPusher,
    .camera true]

/-- The camera thread takes the start only after the stop callback has run. -/
def recordedLate : List RecorderEvent :=
  [.recordMovie, .startPusher, .postDelayed, .advance 10000, .stopPusher, .camera true]

/-- The recording is active, and nothing will stop it. -/
theorem not_forall_stopComing : ¬ ∀ (ROOT_PATH : String) (es : List RecorderEvent),
    (openMachine ROOT_PATH).Always Recorder.StopComing es := by
  intro h
  have hrun : ((openMachine "/").run recordedLate).map
      (fun s => (s.main, s.callbacks, s.queue, s.thread.mH264Consumer)) =
      some (none, [], [], some ⟨0, "/Movies/0.mp4"⟩) := by
    decide +kernel
  obtain ⟨s, hs, hout⟩ := Option.map_eq_some_iff.mp hrun
  simp only [Prod.mk.injEq] at hout
  obtain ⟨hmain, hcallbacks, hqueue, hconsumer⟩ := hout
  have hcovered := (h "/" recordedLate).last hs
  rw [Recorder.StopComing, Recorder.pending, hconsumer, hqueue] at hcovered
  rcases hcovered.1 with hcall | hstop
  · rw [Recorder.CallbackComing, hmain, hcallbacks] at hcall
    simp at hcall
  · cases hstop

theorem stopComing_iff_recorded : ∃ s, (openMachine "/").run recorded = some s ∧
    s.thread.ended = ["/Movies/0.mp4"] ∧
    ((openMachine "/").Always Recorder.StopComing recorded ↔
      (openMachine "/").Each Recorder.FindsRecording recorded) := by
  have hrun : ((openMachine "/").run recorded).map (fun s => s.thread.ended) =
      some ["/Movies/0.mp4"] := by
    decide +kernel
  obtain ⟨s, hs, hended⟩ := Option.map_eq_some_iff.mp hrun
  exact ⟨s, hs, hended, stopComing_iff "/" recorded s hs⟩

end PetDev.Camera
