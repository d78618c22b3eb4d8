import PetDev.App.AppStateManager

/-!
# Background tasks

An `AbstractTaskResumeProcessor` stops its task when the application falls asleep and starts
it again when the application wakes up: at once if it has been away for the task's interval,
otherwise when the interval is over.  The delayed restart is not taken back, and does not
look at anything when it runs.

* `awake_of_undisturbed`: the task is restarted only while awake and stopped, in every run in
  which the application does not fall asleep while a restart is delayed.
* `safe_iff_undisturbed`: every other run restarts the task in the wrong place, if nothing
  more happens.
-/

namespace PetDev.App

open Android

/-- A processor whose `stopTask` and `restartTask` set and clear `isTaskStopped`.  The state also
keeps, for each call of `restartTask`, the last event and whether the task was stopped, and how
often it was called since the last `stopTask`. -/
structure TaskResume where
  now : Int
  mPauseTaskTime : Int
  isTaskStopped : Bool
  delayed : List (Delayed Unit)
  lastEvent : Option AppEvent
  calls : List (Option AppEvent × Bool)
  restarts : Nat

/-- The `Int` of a wake-up is what `getInternalTime` returns. -/
inductive TaskEvent where
  | appWakeUp (internalTime : Int)
  | appFallAsleep
  | doOnComplete (i : Nat)
  | advance (ms : Nat)

namespace TaskResume

def start (currentTime : Int) (isTaskStopped : Bool) : TaskResume :=
  ⟨currentTime, currentTime, isTaskStopped, [], none, [], 0⟩

def restartTask (s : TaskResume) : TaskResume :=
  { s with
    isTaskStopped := false
    calls := (s.lastEvent, s.isTaskStopped) :: s.calls
    restarts := s.restarts + 1 }

def stopTask (s : TaskResume) : TaskResume := { s with isTaskStopped := true, restarts := 0 }

/-- `onMessageEvent(AppWakeUpEvent)`. -/
def onAppWakeUp (internalTime : Int) (s : TaskResume) : TaskResume :=
  let s := { s with lastEvent := some .appWakeUp }
  if s.isTaskStopped then
    let constTimeInBack := s.now - s.mPauseTaskTime
    if constTimeInBack ≥ internalTime then s.restartTask
    else
      { s with
        delayed := Looper.postDelayed s.now (internalTime - constTimeInBack) () s.delayed }
  else s

/-- `onMessageEvent(AppFallAsleepEvent)`. -/
def onAppFallAsleep (s : TaskResume) : TaskResume :=
  { s with lastEvent := some .appFallAsleep, mPauseTaskTime := s.now }.stopTask

def step (s : TaskResume) : TaskEvent → Option TaskResume
  | .appWakeUp internalTime => some (s.onAppWakeUp internalTime)
  | .appFallAsleep => some s.onAppFallAsleep
  | .doOnComplete i =>
    (Looper.take s.now i s.delayed).map fun r => { s with delayed := r.2 }.restartTask
  | .advance ms => some { s with now := s.now + ms }

/-- The events that the processor handles alternate. -/
def Alternates (s : TaskResume) : TaskEvent → Prop
  | .appWakeUp _ => s.lastEvent ≠ some .appWakeUp
  | .appFallAsleep => s.lastEvent ≠ some .appFallAsleep
  | _ => True

instance (s : TaskResume) (e : TaskEvent) : Decidable (s.Alternates e) := by
  cases e <;> unfold Alternates <;> infer_instance

end TaskResume

def taskMachine (currentTime : Int) (isTaskStopped : Bool) : StepMachine TaskResume TaskEvent :=
  StepMachine.guard ⟨TaskResume.start currentTime isTaskStopped, TaskResume.step⟩
    TaskResume.Alternates

namespace TaskResume

/-- Every restart came while awake and stopped, and no stop was followed by two. -/
def Awake (s : TaskResume) : Prop :=
  (∀ c ∈ s.calls, c = (some .appWakeUp, true)) ∧ s.restarts ≤ 1

/-- **The condition on an event**: the application does not fall asleep while a restart is
delayed. -/
def Undisturbed (s : TaskResume) : TaskEvent → Prop
  | .appFallAsleep => s.delayed = []
  | _ => True

instance (s : TaskResume) (e : TaskEvent) : Decidable (s.Undisturbed e) := by
  cases e <;> unfold Undisturbed <;> infer_instance

/-- Events that are not the application's. -/
def Quiet : TaskEvent → Prop
  | .appWakeUp _ | .appFallAsleep => False
  | _ => True

/-! ## At most one restart is delayed -/

structure Inv (s : TaskResume) : Prop where
  awake : s.Awake
  stopped : s.isTaskStopped = true → s.restarts = 0
  delayed : s.delayed = [] ∨
    ∃ m, s.delayed = [m] ∧ s.lastEvent = some .appWakeUp ∧ s.isTaskStopped = true

theorem inv_start (currentTime : Int) (isTaskStopped : Bool) :
    (start currentTime isTaskStopped).Inv :=
  ⟨⟨nofun, Nat.zero_le 1⟩, fun _ => rfl, Or.inl rfl⟩

/-- A restart in the right place. -/
theorem Inv.restartTask {s : TaskResume} (h : s.Inv) (hevent : s.lastEvent = some .appWakeUp)
    (hstopped : s.isTaskStopped = true) {q : List (Delayed Unit)} (hq : q = []) :
    ({ s with delayed := q }.restartTask).Inv := by
  refine ⟨⟨?_, ?_⟩, nofun, Or.inl hq⟩
  · refine List.forall_mem_cons.mpr ⟨?_, h.awake.1⟩
    rw [hevent, hstopped]
  · show s.restarts + 1 ≤ 1
    rw [h.stopped hstopped]

theorem Inv.onAppWakeUp {s : TaskResume} (h : s.Inv) (hnew : s.lastEvent ≠ some .appWakeUp)
    (internalTime : Int) : (s.onAppWakeUp internalTime).Inv := by
  have hnil : s.delayed = [] := by
    rcases h.delayed with hnil | ⟨m, -, hevent, -⟩
    · exact hnil
    · exact absurd hevent hnew
  have hwake : Inv { s with lastEvent := some .appWakeUp } := ⟨h.awake, h.stopped, Or.inl hnil⟩
  simp only [TaskResume.onAppWakeUp]
  split
  · next hstopped =>
    split
    · exact hwake.restartTask rfl hstopped hnil
    · have hone : ∀ delay, Looper.postDelayed s.now delay () s.delayed =
          [⟨s.now + max delay 0, ()⟩] := by
        intro delay
        rw [Looper.postDelayed, hnil, List.nil_append]
      exact ⟨h.awake, h.stopped, Or.inr ⟨_, hone _, rfl, hstopped⟩⟩
  · exact hwake

theorem Inv.step {s t : TaskResume} {e : TaskEvent} (h : s.Inv) (halternates : s.Alternates e)
    (hC : s.Undisturbed e) (ht : s.step e = some t) : t.Inv := by
  cases e with
  | appWakeUp internalTime =>
    obtain rfl := Option.some.inj ht
    exact h.onAppWakeUp halternates internalTime
  | appFallAsleep =>
    obtain rfl := Option.some.inj ht
    exact ⟨⟨h.awake.1, Nat.zero_le 1⟩, fun _ => rfl, Or.inl hC⟩
  | doOnComplete i =>
    obtain ⟨⟨m, q⟩, hq, rfl⟩ := Option.map_eq_some_iff.mp ht
    obtain ⟨hi, -, hrest⟩ := Looper.take_eq_some hq
    rcases h.delayed with hnil | ⟨m', hone, hevent, hstopped⟩
    · simp [hnil] at hi
    · refine h.restartTask hevent hstopped ?_
      rw [hone] at hi hrest
      cases i with
      | zero => exact hrest
      | succ i => simp at hi
  | advance ms =>
    obtain rfl := Option.some.inj ht
    exact ⟨h.awake, h.stopped, h.delayed⟩

end TaskResume

/-- **The task is restarted only while awake and stopped, and once at most for each stop, if the
application never falls asleep while a restart is delayed.** -/
theorem awake_of_undisturbed (currentTime : Int) (isTaskStopped : Bool) (es : List TaskEvent)
    (hes : (taskMachine currentTime isTaskStopped).Each TaskResume.Undisturbed es) :
    (taskMachine currentTime isTaskStopped).Always TaskResume.Awake es := by
  refine (taskMachine currentTime isTaskStopped).always_of_each
    (TaskResume.inv_start currentTime isTaskStopped) ?_ (fun _ h => h.awake) hes
  intro s e t h hC ht
  obtain ⟨halternates, ht⟩ := (StepMachine.guard_step_eq_some _).mp ht
  exact h.step halternates hC ht

/-- The application wakes up after a second, with an interval of ten. -/
def wokenUp : List TaskEvent :=
  [.appFallAsleep, .advance 1000, .appWakeUp 10000, .advance 9000, .doOnComplete 0]

/-- It falls asleep again before the interval is over. -/
def asleepAgain : List TaskEvent :=
  [.appFallAsleep, .advance 1000, .appWakeUp 10000, .advance 1000, .appFallAsleep, .advance 8000,
    .doOnComplete 0]

/-- The task is restarted while the application is asleep. -/
theorem not_forall_awake : ¬ ∀ (currentTime : Int) (isTaskStopped : Bool) (es : List TaskEvent),
    (taskMachine currentTime isTaskStopped).Always TaskResume.Awake es := by
  intro h
  have hrun : ((taskMachine 0 false).run asleepAgain).map (fun s => s.calls) =
      some [(some .appFallAsleep, true)] := by
    decide
  obtain ⟨s, hs, hcalls⟩ := Option.map_eq_some_iff.mp hrun
  have hcall := ((h 0 false asleepAgain).last hs).1 (some .appFallAsleep, true)
    (by rw [hcalls]; exact List.mem_cons_self)
  exact absurd hcall (by decide)

theorem awake_of_undisturbed_wokenUp :
    (taskMachine 0 false).Each TaskResume.Undisturbed wokenUp ∧
      (taskMachine 0 false).Always TaskResume.Awake wokenUp := by
  have hrun : (((taskMachine 0 false).guard TaskResume.Undisturbed).run wokenUp).map
      (fun s => s.calls) = some [(some .appWakeUp, true)] := by
    decide
  obtain ⟨s, hs, -⟩ := Option.map_eq_some_iff.mp hrun
  obtain ⟨-, heach⟩ := (taskMachine 0 false).run_of_guard hs
  exact ⟨heach, awake_of_undisturbed 0 false wokenUp heach⟩

namespace TaskResume

/-! ## The condition is exact -/

variable {currentTime : Int} {isTaskStopped : Bool} {es : List TaskEvent} {s t : TaskResume}

/-- Asleep, with a restart delayed: it runs. -/
theorem doomed_of_asleep (hs : (taskMachine currentTime isTaskStopped).run es = some s)
    (hevent : s.lastEvent = some .appFallAsleep) (hdelayed : s.delayed ≠ []) :
    (taskMachine currentTime isTaskStopped).Doomed Quiet Awake es := by
  obtain ⟨m, q, hq⟩ := List.exists_cons_of_ne_nil hdelayed
  let ms := (m.due - s.now).toNat
  have hadvance : (taskMachine currentTime isTaskStopped).run (es ++ [.advance ms]) =
      some { s with now := s.now + ms } :=
    (taskMachine currentTime isTaskStopped).run_concat_eq_some.mpr ⟨s, hs, rfl⟩
  have htake : Looper.take (s.now + ms) 0 s.delayed = some (m, q) := by
    rw [hq]
    exact if_pos (by omega)
  have hrestart : (taskMachine currentTime isTaskStopped).run
      (es ++ [.advance ms] ++ [.doOnComplete 0]) =
      some (restartTask { s with now := s.now + ms, delayed := q }) := by
    refine (taskMachine currentTime isTaskStopped).run_concat_eq_some.mpr ⟨_, hadvance, ?_⟩
    refine (StepMachine.guard_step_eq_some _).mpr ⟨trivial, ?_⟩
    show (Looper.take (s.now + ms) 0 s.delayed).map _ = _
    rw [htake]
    rfl
  refine StepMachine.doomed_of_concat (e := .advance ms) trivial
    (StepMachine.doomed_of_concat (e := .doOnComplete 0) trivial
      (StepMachine.doomed_of_not hrestart fun hawake => ?_))
  have hcall := hawake.1 _ List.mem_cons_self
  rw [hevent] at hcall
  cases (Prod.mk.inj hcall).1

end TaskResume

/-- **The condition is exact**: a run keeps it exactly when the task is restarted in the right
places however the run goes on, from any point on, without another event of the application. -/
theorem safe_iff_undisturbed (currentTime : Int) (isTaskStopped : Bool) (es : List TaskEvent)
    (s : TaskResume) (hs : (taskMachine currentTime isTaskStopped).run es = some s) :
    (taskMachine currentTime isTaskStopped).Safe TaskResume.Quiet TaskResume.Awake es ↔
      (taskMachine currentTime isTaskStopped).Each TaskResume.Undisturbed es := by
  refine (taskMachine currentTime isTaskStopped).safe_iff_each
    (TaskResume.inv_start currentTime isTaskStopped) ?_ (fun _ h => h.awake) ?_ ?_ hs
  · intro s e t h hC ht
    obtain ⟨halternates, ht⟩ := (StepMachine.guard_step_eq_some _).mp ht
    exact h.step halternates hC ht
  · intro s e he
    cases e with
    | appFallAsleep => exact he.elim
    | _ => trivial
  · intro es e s t hs _ ht hC
    have hrun := (taskMachine currentTime isTaskStopped).run_concat_eq_some.mpr ⟨s, hs, ht⟩
    cases e with
    | appFallAsleep =>
      obtain ⟨-, ht⟩ := (StepMachine.guard_step_eq_some _).mp ht
      obtain rfl := Option.some.inj ht
      exact TaskResume.doomed_of_asleep hrun rfl hC
    | _ => exact absurd trivial hC

end PetDev.App
