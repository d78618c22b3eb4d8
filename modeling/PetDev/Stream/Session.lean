import PetDev.Stream.Streamer

/-!
# The session of the native library

The library is to be used in order: `startPublish` only while no session is open,
`stopPublish` and `onPreviewFrame` only while one is.

* `disciplined_of_keepsSession`: it is, in every run in which a `VideoData` event that makes
  a start finds no `encodeStop` posted, and a `RecvaddrData` event finds the stream running.
* `safe_iff_keepsSession`: every other run breaks the order sooner or later, whatever
  `startPublish` returns, even if no more events arrive.
-/

namespace PetDev.Stream

open Android

namespace Streamer

/-- The library has been used in order so far. -/
def Disciplined (s : Streamer) : Prop :=
  ∀ c ∈ s.native.calls, (c.2 = true ↔ c.1 ≠ .startPublish)

/-- **The condition on an event**: a start finds no stop posted, and a stop finds the stream
running. -/
def KeepsSession (s : Streamer) : StreamerEvent → Prop
  | .videoData _ => s.started = true ∨ .encodeStop ∉ s.tasks
  | .recvaddrData => s.started = true ∧ s.rtmpOpenResult ≠ -1
  | _ => True

instance (s : Streamer) : (e : StreamerEvent) → Decidable (s.KeepsSession e)
  | .videoData _ => inferInstanceAs (Decidable (s.started = true ∨ _))
  | .recvaddrData => inferInstanceAs (Decidable (s.started = true ∧ _))
  | .callback _ | .previewFrame | .onConnectDev | .onSurfaceCreated _ | .onSurfaceDestroy _
  | .advance _ => inferInstanceAs (Decidable True)

/-! ## The four phases of a run that keeps the session -/

inductive Phase (s : Streamer) : Prop
  | idle (hstarted : s.started = false) (htasks : s.tasks = [])
      (hopen : s.native.isOpen = false)
  | trying (hstarted : s.started = true) (hresult : s.rtmpOpenResult = -1)
      (htasks : s.tasks = [] ∨ ∃ command, s.tasks = [.encodeStart command])
      (hopen : s.native.isOpen = false)
  | streaming (hstarted : s.started = true) (hresult : s.rtmpOpenResult ≠ -1)
      (htasks : s.tasks = []) (hopen : s.native.isOpen = true)
  | stopping (hstarted : s.started = false) (htasks : s.tasks = [.encodeStop])
      (hopen : s.native.isOpen = true)

/-- The time, the preview and the last event do not matter. -/
theorem Phase.congr {s : Streamer} (h : s.Phase) (now : Int) (isPreview : Bool)
    (lastCommand : Option Command) :
    Phase { s with now := now, isPreview := isPreview, lastCommand := lastCommand } := by
  cases h with
  | idle hs htasks hopen => exact Phase.idle hs htasks hopen
  | trying hs hr htasks hopen => exact Phase.trying hs hr htasks hopen
  | streaming hs hr htasks hopen => exact Phase.streaming hs hr htasks hopen
  | stopping hs htasks hopen => exact Phase.stopping hs htasks hopen

structure Orderly (s : Streamer) : Prop where
  window : s.Window
  disciplined : s.Disciplined
  phase : s.Phase

theorem orderly_start : Streamer.start.Orderly :=
  ⟨nofun, nofun, Phase.idle rfl rfl rfl⟩

theorem Disciplined.cons {s : Streamer} (h : s.Disciplined) (call : NativeCall)
    (hcall : s.native.isOpen = true ↔ call ≠ .startPublish) :
    ∀ c ∈ (call, s.native.isOpen) :: s.native.calls, (c.2 = true ↔ c.1 ≠ .startPublish) := by
  intro c hc
  rcases List.mem_cons.mp hc with rfl | hc
  · exact hcall
  · exact h c hc

theorem with_started {s : Streamer} (h : s.started = true) : { s with started := true } = s := by
  rw [← h]

/-- An attempt to start, with no session open and nothing else posted. -/
theorem Orderly.encodeStart {s : Streamer} (hw : s.Window) (hd : s.Disciplined)
    (htasks : s.tasks = []) (hclosed : s.native.isOpen = false) (command : Nat) (result : Int) :
    { s.encodeStart command result with started := true : Streamer }.Orderly := by
  have hcalls := hd.cons .startPublish (by simp [hclosed])
  have hfailed : s.failed.native.isOpen = false := by rw [failed_isOpen, hclosed]
  rcases s.encodeStart_cases command result with ⟨hresult, heq⟩ | ⟨-, -, heq⟩ | ⟨-, -, heq⟩
  · rw [heq]
    exact ⟨hw, hcalls, Phase.streaming rfl hresult htasks (opened_isOpen s command hresult)⟩
  · rw [heq]
    have hw' : s.failed.Window := hw
    refine ⟨hw'.postDelayed _, hcalls, Phase.trying rfl rfl (Or.inr ⟨command, ?_⟩) hfailed⟩
    show (s.failed.postDelayed _).tasks = _
    rw [hw'.tasks_postDelayed, show s.failed.tasks = [] from htasks, List.nil_append]
  · rw [heq]
    exact ⟨hw, hcalls, Phase.trying rfl rfl (Or.inl htasks) hfailed⟩

theorem Orderly.onVideoData {s : Streamer} (h : s.Orderly) (result : Int)
    (hC : s.KeepsSession (.videoData result)) : (s.onVideoData result).Orderly := by
  unfold Streamer.onVideoData
  split
  · exact ⟨h.window, h.disciplined, h.phase.congr s.now s.isPreview _⟩
  · next hstarted =>
    cases h.phase with
    | idle hs htasks hopen =>
      exact Orderly.encodeStart (s := { s with
        lastCommand := some .videoData
        command := s.command + 1 }) h.window h.disciplined htasks hopen _ result
    | trying hs => exact absurd hs hstarted
    | streaming hs => exact absurd hs hstarted
    | stopping hs htasks =>
      rcases hC with hC | hC
      · exact absurd hC hstarted
      · rw [htasks] at hC
        exact absurd List.mem_cons_self hC

theorem Orderly.onRecvaddrData {s : Streamer} (h : s.Orderly)
    (hC : s.KeepsSession .recvaddrData) : s.onRecvaddrData.Orderly := by
  obtain ⟨hstarted, hresult⟩ := hC
  let u : Streamer := { s with started := false, lastCommand := some .recvaddrData }
  have hu : u.Window := h.window
  refine ⟨hu.postDelayed _, h.disciplined, ?_⟩
  cases h.phase with
  | idle hs => simp [hs] at hstarted
  | trying _ hr => exact absurd hr hresult
  | streaming _ _ htasks hopen =>
    refine Phase.stopping rfl ?_ hopen
    rw [Streamer.onRecvaddrData, hu.tasks_postDelayed, show u.tasks = [] from htasks,
      List.nil_append]
  | stopping hs => simp [hs] at hstarted

theorem Orderly.quiet {s t : Streamer} {e : StreamerEvent} (h : s.Orderly) (he : Quiet e)
    (ht : s.step e = some t) : t.Orderly := by
  rcases quiet_cases he ht with ⟨result, m, q, -, hqueue, rfl⟩ | ⟨-, rfl⟩ |
      ⟨now, isPreview, hnow, rfl⟩
  · -- a task: the retry of a start, or the stop
    have htasks : s.tasks = m.what :: q.map Delayed.what := by rw [tasks, hqueue]; rfl
    have hw : ({ s with queue := q } : Streamer).Window := fun m' hm' =>
      h.window m' (by rw [hqueue]; exact List.mem_cons_of_mem m hm')
    cases h.phase with
    | idle _ hnil => simp [hnil] at htasks
    | trying hs _ htrying hopen =>
      rcases htrying with hnil | ⟨command, hone⟩
      · simp [hnil] at htasks
      · rw [hone, List.cons.injEq] at htasks
        obtain ⟨hwhat, hq⟩ := htasks
        have horderly := Orderly.encodeStart (s := { s with queue := q }) hw h.disciplined
          hq.symm hopen command result
        rw [← hwhat]
        rwa [with_started] at horderly
        rcases encodeStart_cases { s with queue := q } command result with
          ⟨-, heq⟩ | ⟨-, -, heq⟩ | ⟨-, -, heq⟩ <;> rw [heq] <;> exact hs
    | streaming _ _ hnil => simp [hnil] at htasks
    | stopping hs hone hopen =>
      rw [hone, List.cons.injEq] at htasks
      obtain ⟨hwhat, hq⟩ := htasks
      rw [← hwhat]
      exact ⟨hw, h.disciplined.cons .stopPublish (by simp [hopen]), Phase.idle hs hq.symm rfl⟩
  · -- a preview frame goes to the library only while streaming
    unfold Streamer.onPreviewFrame
    split
    · next hframe =>
      obtain ⟨hstarted, -, hresult⟩ := hframe
      cases h.phase with
      | idle hs => simp [hs] at hstarted
      | trying _ hr => exact absurd hr hresult
      | streaming hs hr htasks hopen =>
        exact ⟨h.window, h.disciplined.cons .onPreviewFrame (by simp [hopen]),
          Phase.streaming hs hr htasks hopen⟩
      | stopping hs => simp [hs] at hstarted
    · exact h
  · refine ⟨fun m hm => ?_, h.disciplined, h.phase.congr now isPreview s.lastCommand⟩
    have := h.window m hm
    show m.due ≤ now + 1000
    omega

theorem Orderly.step {s t : Streamer} {e : StreamerEvent} (h : s.Orderly) (hC : s.KeepsSession e)
    (ht : s.step e = some t) : t.Orderly := by
  cases e with
  | videoData result =>
    obtain rfl := Option.some.inj ht
    exact h.onVideoData result hC
  | recvaddrData =>
    obtain rfl := Option.some.inj ht
    exact h.onRecvaddrData hC
  | _ => exact h.quiet (by trivial) ht

end Streamer

/-- **The library is used in order when every start finds no stop posted and every stop finds the
stream running.** -/
theorem disciplined_of_keepsSession (es : List StreamerEvent)
    (hes : streamerMachine.Each Streamer.KeepsSession es) :
    streamerMachine.Always Streamer.Disciplined es :=
  streamerMachine.always_of_each Streamer.orderly_start (fun _ _ _ h hC ht => h.step hC ht)
    (fun _ h => h.disciplined) hes

/-- The stream is started, shown and stopped. -/
def startAndStop : List StreamerEvent :=
  [.onConnectDev, .videoData 0, .previewFrame, .recvaddrData, .previewFrame, .advance 1000,
    .callback 0]

/-- The stream is stopped and started again within a second. -/
def startStopStart : List StreamerEvent := [.videoData 0, .recvaddrData, .videoData 0]

/-- The second start finds the session of the first one open. -/
theorem not_forall_disciplined :
    ¬ ∀ es : List StreamerEvent, streamerMachine.Always Streamer.Disciplined es := by
  intro h
  have hrun : (streamerMachine.run startStopStart).map (fun s => s.native.calls) =
      some [(.startPublish, true), (.startPublish, false)] := by
    decide
  obtain ⟨s, hs, hcalls⟩ := Option.map_eq_some_iff.mp hrun
  have hdisciplined := (h startStopStart).last hs (.startPublish, true) (by simp [hcalls])
  exact hdisciplined.mp rfl rfl

theorem disciplined_of_keepsSession_startAndStop :
    streamerMachine.Each Streamer.KeepsSession startAndStop ∧
      streamerMachine.Always Streamer.Disciplined startAndStop := by
  have hrun : ((streamerMachine.guard Streamer.KeepsSession).run startAndStop).map
      (fun s => s.native.isOpen) = some false := by
    decide
  obtain ⟨s, hs, -⟩ := Option.map_eq_some_iff.mp hrun
  obtain ⟨-, heach⟩ := streamerMachine.run_of_guard hs
  exact ⟨heach, disciplined_of_keepsSession startAndStop heach⟩

/-! ## The condition is exact

An event outside the condition may do no harm at once.  But a stop that is posted always
runs, and what follows does not need another event. -/

namespace Streamer

variable {es : List StreamerEvent} {s t : Streamer}

theorem Quiet.keepsSession {e : StreamerEvent} (he : Quiet e) (s : Streamer) :
    s.KeepsSession e := by
  cases e with
  | videoData => exact he.elim
  | recvaddrData => exact he.elim
  | _ => trivial

/-- A stop that will find no session open. -/
theorem doomed_of_stop (hs : streamerMachine.run es = some s) (hw : s.Window) {rest : List Task}
    (htasks : s.tasks = .encodeStop :: rest) (hclosed : s.native.isOpen = false) :
    streamerMachine.Doomed Quiet Disciplined es := by
  refine doomed_of_task hs hw htasks 0 fun es' u _ _ hu hrun => StepMachine.doomed_of_not hrun ?_
  intro hdisciplined
  have hclosed' : u.native.isOpen = false := by rw [hu]; exact hclosed
  have hstop := hdisciplined (.stopPublish, u.native.isOpen) List.mem_cons_self
  rw [hclosed'] at hstop
  exact Bool.false_ne_true (hstop.mpr (by decide))

/-- A stop that is posted while the session is closed, or is to be closed. -/
theorem doomed_of_onRecvaddrData (hs : streamerMachine.run es = some s.onRecvaddrData)
    (h : s.Orderly) (hC : ¬ s.KeepsSession .recvaddrData) :
    streamerMachine.Doomed Quiet Disciplined es := by
  have hu : ({ s with started := false, lastCommand := some .recvaddrData } : Streamer).Window :=
    h.window
  have hw : s.onRecvaddrData.Window := hu.postDelayed .encodeStop
  have htasks : s.onRecvaddrData.tasks = s.tasks ++ [.encodeStop] :=
    hu.tasks_postDelayed .encodeStop
  cases h.phase with
  | idle _ hnil hopen =>
    rw [hnil] at htasks
    exact doomed_of_stop hs hw htasks hopen
  | trying _ _ htrying hopen =>
    rcases htrying with hnil | ⟨command, hone⟩
    · rw [hnil] at htasks
      exact doomed_of_stop hs hw htasks hopen
    · -- let the retry fail, so that the stop finds the session closed
      rw [hone] at htasks
      refine doomed_of_task hs hw htasks (-1) fun es' u hrest hwu hu hrun => ?_
      have hclosed : u.failed.native.isOpen = false := by rw [failed_isOpen, hu]; exact hopen
      have hwu' : u.failed.Window := hwu
      change streamerMachine.run es' = some (u.encodeStart command (-1)) at hrun
      rcases u.encodeStart_cases command (-1) with ⟨hne, -⟩ | ⟨-, -, heq⟩ | ⟨-, -, heq⟩
      · exact absurd rfl hne
      · rw [heq] at hrun
        have hnext : (u.failed.postDelayed (.encodeStart command)).tasks =
            .encodeStop :: [.encodeStart command] := by
          rw [hwu'.tasks_postDelayed, show u.failed.tasks = [.encodeStop] from hrest]
          rfl
        exact doomed_of_stop hrun (hwu'.postDelayed _) hnext hclosed
      · rw [heq] at hrun
        exact doomed_of_stop hrun hwu' hrest hclosed
  | streaming hstarted hresult => exact absurd ⟨hstarted, hresult⟩ hC
  | stopping _ hone =>
    -- the first of the two stops closes the session
    rw [hone] at htasks
    refine doomed_of_task hs hw htasks 0 fun es' u hrest hwu _ hrun => ?_
    exact doomed_of_stop hrun hwu hrest rfl

theorem doomed_of_not_keepsSession {e : StreamerEvent} (hs : streamerMachine.run es = some s)
    (h : s.Orderly) (ht : s.step e = some t) (hC : ¬ s.KeepsSession e) :
    streamerMachine.Doomed Quiet Disciplined (es ++ [e]) := by
  have hrun := streamerMachine.run_concat_eq_some.mpr ⟨s, hs, ht⟩
  cases e with
  | videoData result =>
    obtain rfl := Option.some.inj ht
    obtain ⟨hstarted, hstop⟩ := not_or.mp hC
    refine StepMachine.doomed_of_not hrun fun hdisciplined => ?_
    have hopen : s.native.isOpen = true := by
      cases h.phase with
      | idle _ hnil => simp [hnil] at hstop
      | trying hs => exact absurd hs hstarted
      | streaming hs => exact absurd hs hstarted
      | stopping _ _ hopen => exact hopen
    have hcall : (NativeCall.startPublish, true) ∈ (s.onVideoData result).native.calls := by
      unfold Streamer.onVideoData
      rw [if_neg hstarted]
      let u : Streamer := { s with lastCommand := some .videoData, command := s.command + 1 }
      show _ ∈ (u.encodeStart u.command result).native.calls
      rcases u.encodeStart_cases u.command result with ⟨-, heq⟩ | ⟨-, -, heq⟩ | ⟨-, -, heq⟩ <;>
      · rw [heq]
        exact List.mem_cons.mpr (Or.inl (by rw [hopen]))
    exact (hdisciplined _ hcall).mp rfl rfl
  | recvaddrData =>
    obtain rfl := Option.some.inj ht
    exact doomed_of_onRecvaddrData hrun h hC
  | _ => exact absurd trivial hC

end Streamer

/-- **The condition is exact**: a run keeps it exactly when the library is used in order however
the run goes on, from any point on, without another event. -/
theorem safe_iff_keepsSession (es : List StreamerEvent) (s : Streamer)
    (hs : streamerMachine.run es = some s) :
    streamerMachine.Safe Streamer.Quiet Streamer.Disciplined es ↔
      streamerMachine.Each Streamer.KeepsSession es :=
  streamerMachine.safe_iff_each Streamer.orderly_start (fun _ _ _ h hC ht => h.step hC ht)
    (fun _ h => h.disciplined) (fun s _ he => he.keepsSession s)
    (fun _ _ _ _ hs h ht hC => Streamer.doomed_of_not_keepsSession hs h ht hC) hs

end PetDev.Stream
