import PetDev.Stream.Streamer

/-!
# The last command wins

When nothing is posted any more, the session should be open exactly if the last event was a
`VideoData` and one of its attempts succeeded.  (A `VideoData` that finds `started` set makes
no attempts; those of the event that set it are its own.)

* `asCommanded_of_keepsCommand`: it is so in every run in which a `VideoData` event that
  opens the session finds no `encodeStop` posted, and a `RecvaddrData` event finds no
  `encodeStart` that may be posted again (nor may a `VideoData` event that fails make one that
  is left behind be posted again, by the counter's wrapping around).
* `safe_iff_keepsCommand`: every other run can go wrong without another event, by what
  `startPublish` returns.
-/

namespace PetDev.Stream

open Android

namespace Streamer

/-- With nothing posted, the session is as the last event wants it. -/
def AsCommanded (s : Streamer) : Prop :=
  s.queue = [] →
    (s.native.isOpen = true ↔ s.lastCommand = some .videoData ∧ s.command ∈ s.succeeded)

/-- Only stops are posted. -/
def OnlyStops (tasks : List Task) : Prop := ∀ task ∈ tasks, task = .encodeStop

theorem onlyStops_nil : OnlyStops [] := fun _ htask => absurd htask List.not_mem_nil

instance (tasks : List Task) : Decidable (OnlyStops tasks) :=
  inferInstanceAs (Decidable (∀ task ∈ tasks, task = .encodeStop))

/-- **The condition on an event**: no stop is posted when a start opens the session, and no
attempt when the stream is stopped, unless it is the last one that is made at all; nor when a
start fails and makes it one that is made again. -/
def KeepsCommand (s : Streamer) : StreamerEvent → Prop
  | .videoData result => s.started = true ∨
    (result ≠ -1 → .encodeStop ∉ s.tasks) ∧ (result = -1 → s.failed.Again → OnlyStops s.tasks)
  | .recvaddrData => s.Again → OnlyStops s.tasks
  | _ => True

instance (s : Streamer) (e : StreamerEvent) : Decidable (s.KeepsCommand e) := by
  cases e <;> unfold KeepsCommand <;> infer_instance

/-! ## What a run that keeps the condition comes to -/

/-- One attempt is posted at most. -/
def OneAttempt : List Task → Prop
  | [] => True
  | .encodeStop :: q => OneAttempt q
  | .encodeStart _ :: q => OnlyStops q

theorem OneAttempt.tail {task : Task} {q : List Task} (h : OneAttempt (task :: q)) :
    OneAttempt q := by
  cases task with
  | encodeStop => exact h
  | encodeStart command =>
    have hstops : OnlyStops q := h
    clear h
    induction q with
    | nil => trivial
    | cons task q ih =>
      obtain rfl := hstops task List.mem_cons_self
      exact ih fun task htask => hstops task (List.mem_cons_of_mem _ htask)

theorem OneAttempt.append_stop {q : List Task} (h : OneAttempt q) :
    OneAttempt (q ++ [.encodeStop]) := by
  induction q with
  | nil => trivial
  | cons task q ih =>
    cases task with
    | encodeStop => exact ih h
    | encodeStart command =>
      intro task htask
      rcases List.mem_append.mp htask with htask | htask
      · exact h task htask
      · exact List.mem_singleton.mp htask

theorem oneAttempt_append_start {q : List Task} (h : OnlyStops q) (command : Nat) :
    OneAttempt (q ++ [.encodeStart command]) := by
  induction q with
  | nil => exact onlyStops_nil
  | cons task q ih =>
    obtain rfl := h task List.mem_cons_self
    exact ih fun task htask => h task (List.mem_cons_of_mem _ htask)

/-- What is before and behind the attempt that is posted. -/
theorem OneAttempt.exists_append {q : List Task} (h : OneAttempt q) (hstart : ¬ OnlyStops q) :
    ∃ stops command rest, q = stops ++ .encodeStart command :: rest ∧ OnlyStops stops ∧
      OnlyStops rest := by
  induction q with
  | nil => exact absurd onlyStops_nil hstart
  | cons task q ih =>
    cases task with
    | encodeStart command => exact ⟨[], command, q, rfl, onlyStops_nil, h⟩
    | encodeStop =>
      have hq : ¬ OnlyStops q := fun hstops => hstart (List.forall_mem_cons.mpr ⟨rfl, hstops⟩)
      obtain ⟨stops, command, rest, rfl, hstops, hrest⟩ := ih h hq
      exact ⟨.encodeStop :: stops, command, rest, rfl, List.forall_mem_cons.mpr ⟨rfl, hstops⟩,
        hrest⟩

/-- The session is closed, or will be closed last. -/
def Closing (s : Streamer) : Prop :=
  (s.tasks = [] ∧ s.native.isOpen = false) ∨ ∃ q, s.tasks = q ++ [.encodeStop]

/-- What is posted leads to what the last event wants, whatever `startPublish` returns. -/
inductive Prospect (s : Streamer) : Prop
  | closed (hno : s.started = true → s.command ∉ s.succeeded) (hclosing : s.Closing)
      (hlast : ∀ c, .encodeStart c ∈ s.tasks →
        ¬ s.Again ∧ (s.started = true → c ≠ s.command))
  | trying (hstarted : s.started = true) (hno : s.command ∉ s.succeeded) (stops : List Task)
      (htasks : s.tasks = stops ++ [.encodeStart s.command]) (hstops : OnlyStops stops)
      (hopen : s.native.isOpen = true → stops ≠ [])
  | streaming (hstarted : s.started = true) (hyes : s.command ∈ s.succeeded)
      (htasks : s.tasks = []) (hopen : s.native.isOpen = true)

structure OnCourse (s : Streamer) : Prop where
  window : s.Window
  last : s.started = true ↔ s.lastCommand = some .videoData
  fresh : ∀ c ∈ s.succeeded, c ≤ s.command
  posted : ∀ c, .encodeStart c ∈ s.tasks → c ≤ s.command
  one : OneAttempt s.tasks
  prospect : s.Prospect

theorem onCourse_start : Streamer.start.OnCourse where
  window := nofun
  last := by decide
  fresh := nofun
  posted := nofun
  one := trivial
  prospect := Prospect.closed nofun (Or.inl ⟨rfl, rfl⟩) nofun

theorem OnCourse.asCommanded {s : Streamer} (h : s.OnCourse) : s.AsCommanded := by
  intro hqueue
  have hnil := queue_eq_nil.mp hqueue
  rw [← h.last]
  cases h.prospect with
  | closed hno hclosing =>
    rcases hclosing with ⟨-, hopen⟩ | ⟨q, hq⟩
    · rw [hopen]
      exact iff_of_false Bool.false_ne_true fun hand => hno hand.1 hand.2
    · rw [hnil] at hq
      exact absurd hq.symm (by simp)
  | trying _ _ stops htasks =>
    rw [hnil] at htasks
    exact absurd htasks.symm (by simp)
  | streaming hstarted hyes _ hopen => exact iff_of_true hopen ⟨hstarted, hyes⟩

/-- The time, the preview and the calls that open and close nothing do not matter. -/
theorem Prospect.congr {s : Streamer} (h : s.Prospect) (now : Int) (isPreview : Bool)
    (lastCommand : Option Command) (calls : List (NativeCall × Bool)) :
    Prospect { s with
      now := now
      isPreview := isPreview
      lastCommand := lastCommand
      native := ⟨s.native.isOpen, calls⟩ } := by
  cases h with
  | closed hno hclosing hlast => exact Prospect.closed hno hclosing hlast
  | trying hs hno stops htasks hstops hopen =>
    exact Prospect.trying hs hno stops htasks hstops hopen
  | streaming hs hyes htasks hopen => exact Prospect.streaming hs hyes htasks hopen

/-- One task less. -/
theorem Closing.tail {s u : Streamer} (h : s.Closing) {task : Task}
    (htasks : s.tasks = task :: u.tasks)
    (hstop : task = .encodeStop → u.native.isOpen = false) : u.Closing := by
  rcases h with ⟨hnil, -⟩ | ⟨q, hq⟩
  · simp [hnil] at htasks
  · rw [htasks] at hq
    rcases List.cons_eq_append_iff.mp hq with ⟨-, hone⟩ | ⟨q', -, hrest⟩
    · obtain ⟨htask, hrest⟩ := List.cons.inj hone
      exact Or.inl ⟨hrest.symm, hstop htask.symm⟩
    · exact Or.inr ⟨q', hrest⟩

/-- **An attempt of the last event**, the first one or one that was posted.  It opens the session
only with nothing posted, and is posted again behind stops only. -/
theorem onCourse_attempt {u v : Streamer} {result : Int} (hw : u.Window)
    (hv : v = { u.encodeStart u.command result with started := true })
    (hlast : u.lastCommand = some .videoData) (hfresh : ∀ c ∈ u.succeeded, c ≤ u.command)
    (hposted : ∀ c, .encodeStart c ∈ u.tasks → c < u.command) (hnew : u.command ∉ u.succeeded)
    (hone : OneAttempt u.tasks) (hclosing : u.Closing) (hnil : result ≠ -1 → u.tasks = [])
    (hstops : u.Again → OnlyStops u.tasks)
    (hend : result = -1 → u.failed.Again → OnlyStops u.tasks) : v.OnCourse := by
  rw [hv]
  rcases u.encodeStart_cases u.command result with
    ⟨hresult, heq⟩ | ⟨-, hretry, heq⟩ | ⟨hresult, hretry, heq⟩
  · rw [heq]
    refine ⟨hw, iff_of_true rfl hlast, ?_, fun c hc => (hposted c hc).le, hone, ?_⟩
    · exact List.forall_mem_cons.mpr ⟨le_rfl, hfresh⟩
    · exact Prospect.streaming rfl List.mem_cons_self (hnil hresult)
        (opened_isOpen u u.command hresult)
  · rw [heq]
    refine ⟨hw.failed.postDelayed _, iff_of_true rfl hlast, hfresh, fun c hc => ?_, ?_, ?_⟩
    · rcases hw.mem_tasks_again.mp hc with hc | rfl
      · exact (hposted c hc).le
      · exact le_rfl
    · show OneAttempt (u.failed.postDelayed _).tasks
      rw [hw.tasks_again]
      exact oneAttempt_append_start (hstops hretry) u.command
    · refine Prospect.trying rfl hnew u.tasks (hw.tasks_again _) (hstops hretry)
        fun hopen hempty => ?_
      have hopen' : u.failed.native.isOpen = true := hopen
      rw [failed_isOpen] at hopen'
      rcases hclosing with ⟨-, hclosed⟩ | ⟨q, hq⟩
      · exact Bool.false_ne_true (hclosed.symm.trans hopen')
      · rw [hempty] at hq
        exact absurd hq.symm (by simp)
  · -- it was the last attempt
    rw [heq]
    refine ⟨hw, iff_of_true rfl hlast, hfresh, fun c hc => (hposted c hc).le, hone, ?_⟩
    refine Prospect.closed (fun _ => hnew) ?_ fun c hc =>
      ⟨fun hagain => ?_, fun _ => (hposted c hc).ne⟩
    · rcases hclosing with ⟨hempty, hclosed⟩ | hq
      · exact Or.inl ⟨hempty, (failed_isOpen u).trans hclosed⟩
      · exact Or.inr hq
    · cases hend hresult hagain _ hc

theorem OnCourse.onVideoData {s : Streamer} (h : s.OnCourse) (result : Int)
    (hC : s.KeepsCommand (.videoData result)) : (s.onVideoData result).OnCourse := by
  unfold Streamer.onVideoData
  split
  · next hstarted =>
    exact ⟨h.window, iff_of_true hstarted rfl, h.fresh, h.posted, h.one,
      h.prospect.congr s.now s.isPreview _ s.native.calls⟩
  · next hstarted =>
    obtain ⟨hopens, hfails⟩ := hC.resolve_left hstarted
    let u : Streamer := { s with lastCommand := some .videoData, command := s.command + 1 }
    have hw : u.Window := h.window
    have hfresh : ∀ c ∈ u.succeeded, c ≤ u.command := fun c hc => (h.fresh c hc).trans (by simp [u])
    have hposted : ∀ c, .encodeStart c ∈ u.tasks → c < u.command := fun c hc =>
      Nat.lt_succ_of_le (h.posted c hc)
    have hnew : u.command ∉ u.succeeded := fun hmem => absurd (h.fresh _ hmem) (by simp [u])
    cases h.prospect with
    | trying hs => exact absurd hs hstarted
    | streaming hs => exact absurd hs hstarted
    | closed _ hclosing hlast =>
      refine onCourse_attempt hw rfl rfl hfresh hposted hnew h.one hclosing (fun hresult => ?_)
        (fun hretry task htask => ?_) hfails
      · -- no stop is posted, by the condition
        rcases hclosing with ⟨hnil, -⟩ | ⟨q, hq⟩
        · exact hnil
        · have hstop := hopens hresult
          rw [hq] at hstop
          exact absurd (List.mem_append_right q List.mem_cons_self) hstop
      · cases task with
        | encodeStart c => exact absurd hretry (hlast c htask).1
        | encodeStop => rfl

theorem OnCourse.onRecvaddrData {s : Streamer} (h : s.OnCourse)
    (hC : s.KeepsCommand .recvaddrData) : s.onRecvaddrData.OnCourse := by
  let u : Streamer := { s with started := false, lastCommand := some .recvaddrData }
  have hw : u.Window := h.window
  have htasks : s.onRecvaddrData.tasks = s.tasks ++ [.encodeStop] := hw.tasks_postDelayed _
  have hmem : ∀ c, .encodeStart c ∈ s.onRecvaddrData.tasks → .encodeStart c ∈ s.tasks := by
    intro c hc
    rw [htasks] at hc
    simpa using hc
  refine ⟨hw.postDelayed _, iff_of_false nofun nofun, h.fresh,
    fun c hc => h.posted c (hmem c hc), ?_, ?_⟩
  · rw [htasks]
    exact h.one.append_stop
  · refine Prospect.closed nofun (Or.inr ⟨s.tasks, htasks⟩) fun c hc =>
      ⟨fun hagain => ?_, nofun⟩
    cases hC hagain _ (hmem c hc)

/-- A task that is behind the last event: a stop, or the last attempt of an earlier one. -/
theorem OnCourse.runTask_of_closed {s u : Streamer} (h : s.OnCourse) {task : Task} (hw : u.Window)
    (hu : u = { s with queue := u.queue }) (htasks : s.tasks = task :: u.tasks) (result : Int)
    (hno : s.started = true → s.command ∉ s.succeeded) (hclosing : s.Closing)
    (hend : ∀ c, .encodeStart c ∈ s.tasks → ¬ s.Again ∧ (s.started = true → c ≠ s.command)) :
    (u.runTask result task).OnCourse := by
  have hlast : u.started = true ↔ u.lastCommand = some .videoData := by
    rw [hu]
    exact h.last
  have hle : ∀ c, .encodeStart c ∈ task :: u.tasks → c ≤ u.command := by
    rw [← htasks, hu]
    exact h.posted
  have hposted : ∀ c, .encodeStart c ∈ u.tasks → c ≤ u.command := fun c hc =>
    hle c (List.mem_cons_of_mem task hc)
  have hfresh : ∀ c ∈ u.succeeded, c ≤ u.command := by
    rw [hu]
    exact h.fresh
  have hno' : u.started = true → u.command ∉ u.succeeded := by
    rw [hu]
    exact hno
  have hend' : ∀ c, .encodeStart c ∈ task :: u.tasks →
      ¬ u.Again ∧ (u.started = true → c ≠ u.command) := by
    rw [← htasks, hu]
    exact hend
  have hone : OneAttempt (task :: u.tasks) := htasks ▸ h.one
  cases task with
  | encodeStop =>
    refine ⟨hw, hlast, hfresh, hposted, hone.tail, Prospect.closed hno' ?_ fun c hc => ?_⟩
    · exact hclosing.tail (u := u.encodeStop) htasks fun _ => rfl
    · exact hend' c (List.mem_cons_of_mem _ hc)
  | encodeStart c0 =>
    -- the stop behind it comes in any case
    obtain ⟨hretry, hother⟩ := hend' c0 List.mem_cons_self
    show (u.encodeStart c0 result).OnCourse
    rcases u.encodeStart_cases c0 result with ⟨-, heq⟩ | ⟨-, hlt, -⟩ | ⟨-, -, heq⟩
    · rw [heq]
      refine ⟨hw, hlast, ?_, hposted, hone.tail, Prospect.closed ?_ ?_ fun c hc => ?_⟩
      · exact List.forall_mem_cons.mpr ⟨hle c0 List.mem_cons_self, hfresh⟩
      · intro hs hmem
        rcases List.mem_cons.mp hmem with hmem | hmem
        · exact hother hs hmem.symm
        · exact hno' hs hmem
      · exact hclosing.tail (u := u.opened c0 result) htasks nofun
      · exact hend' c (List.mem_cons_of_mem _ hc)
    · exact absurd hlt hretry
    · rw [heq]
      refine ⟨hw, hlast, hfresh, hposted, hone.tail, Prospect.closed hno' ?_ fun c hc => ?_⟩
      · exact hclosing.tail (u := u.failed) htasks nofun
      · -- no other attempt is posted
        have hstops : OnlyStops u.tasks := hone
        cases hstops _ hc

theorem OnCourse.runTask {s u : Streamer} (h : s.OnCourse) {task : Task} (hw : u.Window)
    (hu : u = { s with queue := u.queue }) (htasks : s.tasks = task :: u.tasks) (result : Int) :
    (u.runTask result task).OnCourse := by
  cases h.prospect with
  | closed hno hclosing hend => exact h.runTask_of_closed hw hu htasks result hno hclosing hend
  | trying hs hno stops hstarts hstops hopen =>
    have hs' : u.started = true := by rw [hu]; exact hs
    have hlast : u.lastCommand = some .videoData := by rw [hu]; exact h.last.mp hs
    have hno' : u.command ∉ u.succeeded := by rw [hu]; exact hno
    have hfresh : ∀ c ∈ u.succeeded, c ≤ u.command := by rw [hu]; exact h.fresh
    have hcommand : u.command = s.command := by rw [hu]
    have hone : OneAttempt (task :: u.tasks) := htasks ▸ h.one
    rw [htasks] at hstarts
    rcases List.cons_eq_append_iff.mp hstarts with ⟨hnil, hlast'⟩ | ⟨stops', rfl, hrest⟩
    · -- its own attempt, with nothing posted behind it
      obtain ⟨rfl, hrest⟩ := List.cons.inj hlast'.symm
      have hclosed : u.native.isOpen = false := by
        rw [hu]
        exact Bool.eq_false_iff.mpr fun hopen' => hopen hopen' hnil
      have hstops' : OnlyStops u.tasks := hrest ▸ onlyStops_nil
      have hv : u.encodeStart s.command result =
          { u.encodeStart u.command result with started := true } := by
        rw [← hcommand, ← hs', ← encodeStart_started u u.command result]
      exact onCourse_attempt hw hv hlast hfresh (fun c hc => nomatch hstops' _ hc) hno' hone.tail
        (Or.inl ⟨hrest, hclosed⟩) (fun _ => hrest) (fun _ => hstops') fun _ _ => hstops'
    · obtain rfl : task = .encodeStop := hstops task List.mem_cons_self
      have hposted : ∀ c, .encodeStart c ∈ u.tasks → c ≤ u.command := fun c hc => by
        rw [hu]
        exact h.posted c (by rw [htasks]; exact List.mem_cons_of_mem _ hc)
      refine ⟨hw, iff_of_true hs' hlast, hfresh, hposted, hone.tail, ?_⟩
      refine Prospect.trying hs' hno' stops' ?_
        (fun task htask => hstops task (List.mem_cons_of_mem _ htask)) nofun
      show u.tasks = stops' ++ [.encodeStart u.command]
      rw [hcommand, hrest]
  | streaming _ _ hnil => simp [hnil] at htasks

theorem OnCourse.quiet {s t : Streamer} {e : StreamerEvent} (h : s.OnCourse) (he : Quiet e)
    (ht : s.step e = some t) : t.OnCourse := by
  rcases quiet_cases he ht with ⟨result, m, q, -, hqueue, rfl⟩ | ⟨-, rfl⟩ |
      ⟨now, isPreview, hnow, rfl⟩
  · have hw : ({ s with queue := q } : Streamer).Window := fun m' hm' =>
      h.window m' (by rw [hqueue]; exact List.mem_cons_of_mem m hm')
    exact h.runTask hw rfl (by rw [tasks, hqueue]; rfl) result
  · unfold Streamer.onPreviewFrame
    split
    · exact ⟨h.window, h.last, h.fresh, h.posted, h.one,
        h.prospect.congr s.now s.isPreview s.lastCommand _⟩
    · exact h
  · refine ⟨fun m hm => ?_, h.last, h.fresh, h.posted, h.one,
      h.prospect.congr now isPreview s.lastCommand s.native.calls⟩
    have := h.window m hm
    show m.due ≤ now + 1000
    omega

theorem OnCourse.step {s t : Streamer} {e : StreamerEvent} (h : s.OnCourse)
    (hC : s.KeepsCommand e) (ht : s.step e = some t) : t.OnCourse := by
  cases e with
  | videoData result =>
    obtain rfl := Option.some.inj ht
    exact h.onVideoData result hC
  | recvaddrData =>
    obtain rfl := Option.some.inj ht
    exact h.onRecvaddrData hC
  | _ => exact h.quiet (by trivial) ht

end Streamer

/-- **When nothing is posted any more, the session is as the last event wants it, if no event
comes while an earlier one is still to be undone.** -/
theorem asCommanded_of_keepsCommand (es : List StreamerEvent)
    (hes : streamerMachine.Each Streamer.KeepsCommand es) :
    streamerMachine.Always Streamer.AsCommanded es :=
  streamerMachine.always_of_each Streamer.onCourse_start (fun _ _ _ h hC ht => h.step hC ht)
    (fun _ h => h.asCommanded) hes

/-- The stream is stopped and started again within a second, and then the stop runs. -/
def stopAfterStart : List StreamerEvent :=
  [.videoData 0, .recvaddrData, .videoData 0, .advance 1000, .callback 0]

/-- The stream is started at the second attempt, stopped, and started again a second later. -/
def startStopWaitStart : List StreamerEvent :=
  [.videoData (-1), .advance 1000, .callback 0, .recvaddrData, .advance 1000, .callback 0,
    .videoData 0]

/-- The stop of an earlier stream closes the session of the one that was asked for last. -/
theorem not_forall_asCommanded :
    ¬ ∀ es : List StreamerEvent, streamerMachine.Always Streamer.AsCommanded es := by
  intro h
  have hrun : (streamerMachine.run stopAfterStart).map
      (fun s => (s.queue, s.native.isOpen, s.lastCommand, s.command, s.succeeded)) =
      some ([], false, some .videoData, 2, [2, 1]) := by
    decide
  obtain ⟨s, hs, hout⟩ := Option.map_eq_some_iff.mp hrun
  simp only [Prod.mk.injEq] at hout
  obtain ⟨hqueue, hopen, hlast, hcommand, hsucceeded⟩ := hout
  have hiff := (h stopAfterStart).last hs hqueue
  rw [hopen, hlast, hcommand, hsucceeded] at hiff
  exact Bool.false_ne_true (hiff.mpr (by decide))

theorem asCommanded_of_keepsCommand_startStopWaitStart :
    streamerMachine.Each Streamer.KeepsCommand startStopWaitStart ∧
      streamerMachine.Always Streamer.AsCommanded startStopWaitStart := by
  have hrun : ((streamerMachine.guard Streamer.KeepsCommand).run startStopWaitStart).map
      (fun s => (s.queue, s.native.isOpen)) = some ([], true) := by
    decide
  obtain ⟨s, hs, -⟩ := Option.map_eq_some_iff.mp hrun
  obtain ⟨-, heach⟩ := streamerMachine.run_of_guard hs
  exact ⟨heach, asCommanded_of_keepsCommand startStopWaitStart heach⟩

/-! ## The condition is exact

Outside the condition two things can happen: a stop is left behind that will close the new
session, or an attempt is left behind that is posted again after the stop. -/

namespace Streamer

variable {es : List StreamerEvent} {s t : Streamer}

/-- A stop that comes after the session has been opened. -/
theorem doomed_of_late_stop (hs : streamerMachine.run es = some s) (hw : s.Window)
    (hlast : s.lastCommand = some .videoData) (hyes : s.command ∈ s.succeeded) {q : List Task}
    (htasks : s.tasks = q ++ [.encodeStop]) : streamerMachine.Doomed Quiet AsCommanded es := by
  induction q generalizing es s with
  | nil =>
    refine doomed_of_task hs hw htasks 0 fun es' u hrest _ hu hrun =>
      StepMachine.doomed_of_not hrun fun hP => ?_
    have hiff := hP (queue_eq_nil.mpr hrest)
    refine Bool.false_ne_true (hiff.mpr ?_)
    rw [hu]
    exact ⟨hlast, hyes⟩
  | cons task q ih =>
    -- attempts that are left behind may succeed
    refine doomed_of_task hs hw htasks 0 fun es' u hrest hwu hu hrun => ?_
    have hlast' : u.lastCommand = some .videoData := by rw [hu]; exact hlast
    have hyes' : u.command ∈ u.succeeded := by rw [hu]; exact hyes
    cases task with
    | encodeStop => exact ih hrun hwu hlast' hyes' hrest
    | encodeStart c =>
      change streamerMachine.run es' = some (u.encodeStart c 0) at hrun
      rw [encodeStart_opened c (by decide)] at hrun
      exact ih hrun hwu hlast' (List.mem_cons_of_mem c hyes') hrest

/-- An attempt that comes last, and that the last event does not want to succeed. -/
theorem doomed_of_unwanted (hs : streamerMachine.run es = some s) (hw : s.Window)
    {stops : List Task} {command : Nat} (htasks : s.tasks = stops ++ [.encodeStart command])
    (hstops : OnlyStops stops)
    (hnot : ¬ (s.lastCommand = some .videoData ∧ s.command ∈ command :: s.succeeded)) :
    streamerMachine.Doomed Quiet AsCommanded es := by
  induction stops generalizing es s with
  | nil =>
    refine doomed_of_task hs hw htasks 0 fun es' u hrest _ hu hrun =>
      StepMachine.doomed_of_not hrun fun hP => hnot ?_
    change (u.encodeStart command 0).AsCommanded at hP
    rw [encodeStart_opened command (by decide)] at hP
    have hwanted := (hP (queue_eq_nil.mpr hrest)).mp (opened_isOpen u command (by decide))
    rw [hu] at hwanted
    exact hwanted
  | cons task stops ih =>
    obtain rfl := hstops task List.mem_cons_self
    refine doomed_of_task hs hw htasks 0 fun es' u hrest hwu hu hrun => ?_
    refine ih hrun hwu hrest (fun task htask => hstops task (List.mem_cons_of_mem _ htask)) ?_
    show ¬ (u.lastCommand = some .videoData ∧ u.command ∈ command :: u.succeeded)
    rw [hu]
    exact hnot

/-- An attempt that is posted again when it fails, and comes last then. -/
theorem doomed_of_again (hs : streamerMachine.run es = some s) (hw : s.Window)
    {stops rest : List Task} {command : Nat}
    (htasks : s.tasks = stops ++ .encodeStart command :: rest) (hstops : OnlyStops stops)
    (hrest : OnlyStops rest) (hagain : s.Again)
    (hnot : ¬ (s.lastCommand = some .videoData ∧ s.command ∈ command :: s.succeeded)) :
    streamerMachine.Doomed Quiet AsCommanded es := by
  induction stops generalizing es s with
  | nil =>
    refine doomed_of_task hs hw htasks (-1) fun es' u hu_tasks hwu hu hrun => ?_
    change streamerMachine.run es' = some (u.encodeStart command (-1)) at hrun
    rw [encodeStart_again command (by rw [hu]; exact hagain)] at hrun
    have hposted : (u.failed.postDelayed (.encodeStart command)).tasks =
        rest ++ [.encodeStart command] := by
      rw [hwu.tasks_again, hu_tasks]
    refine doomed_of_unwanted hrun (hwu.failed.postDelayed _) hposted hrest ?_
    show ¬ (u.lastCommand = some .videoData ∧ u.command ∈ command :: u.succeeded)
    rw [hu]
    exact hnot
  | cons task stops ih =>
    obtain rfl := hstops task List.mem_cons_self
    refine doomed_of_task hs hw htasks 0 fun es' u hu_tasks hwu hu hrun => ?_
    refine ih hrun hwu hu_tasks (fun task htask => hstops task (List.mem_cons_of_mem _ htask)) ?_ ?_
    · show u.Again
      rw [hu]
      exact hagain
    · show ¬ (u.lastCommand = some .videoData ∧ u.command ∈ command :: u.succeeded)
      rw [hu]
      exact hnot

/-- A start while another is posted that is made again, or a stop. -/
theorem doomed_of_videoData {result : Int} (h : s.OnCourse)
    (hrun : streamerMachine.run (es ++ [.videoData result]) = some (s.onVideoData result))
    (hC : ¬ s.KeepsCommand (.videoData result)) :
    streamerMachine.Doomed Quiet AsCommanded (es ++ [.videoData result]) := by
  obtain ⟨hstarted, hC⟩ := not_or.mp hC
  let u : Streamer := { s with lastCommand := some .videoData, command := s.command + 1 }
  have hstep : s.onVideoData result =
      { u.encodeStart u.command result with started := true } := if_neg hstarted
  cases h.prospect with
  | trying hs => exact absurd hs hstarted
  | streaming hs => exact absurd hs hstarted
  | closed _ hclosing hlast =>
    by_cases hresult : result = -1
    · -- the attempt left behind is one that is posted again
      subst hresult
      have hmade : s.failed.Again ∧ ¬ OnlyStops s.tasks := by
        by_contra hnot
        refine hC ⟨fun hne => absurd rfl hne, fun _ hagain => ?_⟩
        by_contra hstart
        exact hnot ⟨hagain, hstart⟩
      obtain ⟨hagain, hstart⟩ := hmade
      obtain ⟨stops, command, rest, htasks, hstops, hrest⟩ := h.one.exists_append hstart
      have hmem : .encodeStart command ∈ s.tasks := by
        rw [htasks]
        exact List.mem_append_right stops List.mem_cons_self
      have hfinal : ¬ u.Again := (hlast command hmem).1
      rw [hstep, encodeStart_failed u.command hfinal] at hrun
      refine doomed_of_again hrun h.window htasks hstops hrest hagain ?_
      rintro ⟨-, hmem'⟩
      rcases List.mem_cons.mp hmem' with heq | hmem'
      · have hle := h.posted command hmem
        change s.command + 1 = command at heq
        omega
      · have hle : s.command + 1 ≤ s.command := h.fresh _ hmem'
        omega
    · -- the stop left behind closes the session
      have hstop : .encodeStop ∈ s.tasks := by
        by_contra hnot
        exact hC ⟨fun _ => hnot, fun heq => absurd heq hresult⟩
      rcases hclosing with ⟨hnil, -⟩ | ⟨q, hq⟩
      · simp [hnil] at hstop
      · rw [hstep, encodeStart_opened u.command hresult] at hrun
        exact doomed_of_late_stop hrun h.window rfl List.mem_cons_self hq

/-- A stop while an attempt is posted that is made again. -/
theorem doomed_of_recvaddrData (h : s.OnCourse)
    (hrun : streamerMachine.run (es ++ [.recvaddrData]) = some s.onRecvaddrData)
    (hC : ¬ s.KeepsCommand .recvaddrData) :
    streamerMachine.Doomed Quiet AsCommanded (es ++ [.recvaddrData]) := by
  obtain ⟨hretry, hC⟩ := Classical.not_imp.mp hC
  cases h.prospect with
  | closed _ _ hlast =>
    refine absurd (fun task htask => ?_) hC
    cases task with
    | encodeStart c => exact absurd hretry (hlast c htask).1
    | encodeStop => rfl
  | trying _ _ stops htasks hstops =>
    let u : Streamer := { s with started := false, lastCommand := some .recvaddrData }
    have hw : u.Window := h.window
    have htasks' : s.onRecvaddrData.tasks =
        stops ++ .encodeStart s.command :: [.encodeStop] := by
      rw [Streamer.onRecvaddrData, hw.tasks_postDelayed, show u.tasks = s.tasks from rfl, htasks,
        List.append_assoc]
      rfl
    refine doomed_of_again hrun (hw.postDelayed _) htasks' hstops ?_ hretry ?_
    · exact fun task htask => List.mem_singleton.mp htask
    · rintro ⟨hvideo, -⟩
      cases hvideo
  | streaming _ _ hnil =>
    rw [hnil] at hC
    exact absurd onlyStops_nil hC

theorem doomed_of_not_keepsCommand {e : StreamerEvent} (hs : streamerMachine.run es = some s)
    (h : s.OnCourse) (ht : s.step e = some t) (hC : ¬ s.KeepsCommand e) :
    streamerMachine.Doomed Quiet AsCommanded (es ++ [e]) := by
  have hrun := streamerMachine.run_concat_eq_some.mpr ⟨s, hs, ht⟩
  cases e with
  | videoData result =>
    obtain rfl := Option.some.inj ht
    exact doomed_of_videoData h hrun hC
  | recvaddrData =>
    obtain rfl := Option.some.inj ht
    exact doomed_of_recvaddrData h hrun hC
  | _ => exact absurd trivial hC

theorem Quiet.keepsCommand {e : StreamerEvent} (he : Quiet e) (s : Streamer) :
    s.KeepsCommand e := by
  cases e with
  | videoData => exact he.elim
  | recvaddrData => exact he.elim
  | _ => trivial

end Streamer

/-- **The condition is exact**: a run keeps it exactly when the session ends as the last event
wants it, however the run goes on, from any point on, without another event. -/
theorem safe_iff_keepsCommand (es : List StreamerEvent) (s : Streamer)
    (hs : streamerMachine.run es = some s) :
    streamerMachine.Safe Streamer.Quiet Streamer.AsCommanded es ↔
      streamerMachine.Each Streamer.KeepsCommand es :=
  streamerMachine.safe_iff_each Streamer.onCourse_start (fun _ _ _ h hC ht => h.step hC ht)
    (fun _ h => h.asCommanded) (fun s _ he => he.keepsCommand s)
    (fun _ _ _ _ hs h ht hC => Streamer.doomed_of_not_keepsCommand hs h ht hC) hs

end PetDev.Stream
