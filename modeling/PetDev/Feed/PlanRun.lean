import PetDev.Feed.FeedAlarmManager
import PetDev.Lib.StepMachine

/-!
# Runs of the feeding plans

A run is any sequence of `addAlarmTask` calls and alarm deliveries; the clock readings
of the calls are free, and the zone is a constant offset from UTC, without daylight saving.
`FeedPlanBroadcast.onReceive` turns a delivered alarm into a `FeedPlanEvent`.  The state remembers
the calls and the broadcasts, the latest first.

Two properties of all the states of a run are settled exactly.

* `ownAlarms_iff`: every plan that has not fired has an alarm of its own, with its own
  count.  It is the constant request code `0` of the past branch that breaks it, or a
  clock reading that hits a plan's own millisecond.
* `lastWins_iff`: a pending alarm carries the count of the latest call for its plan.
  Since `mAlarmTasks` holds only `null`, no `PendingIntent` is ever renewed, and the
  first count given to a request code stays.
-/

namespace PetDev.Feed

open Java Android FeedAlarmManager

/-! ## The machine -/

/-- A delivered alarm: the plan it was set for, its time, and the extra `count`. -/
structure Broadcast where
  owner : Int
  triggerAt : Int
  count : Option String
  deriving DecidableEq, Repr

/-- `FeedPlanBroadcast.onReceive`: the count of the posted `FeedPlanEvent`, if any. -/
def onReceive (action : String) (sCount : Option String) : Option Int :=
  (parseInt sCount).bind fun count =>
    if "com.punuo.sys.app.FEED" = action then some count else none

structure PlanState where
  manager : FeedAlarmManager
  calls : List FeedPlan
  broadcasts : List Broadcast

inductive PlanEvent where
  | addAlarmTask (clock : Clock) (feedPlan : FeedPlan)
  | deliver (pi : PendingIntent)

namespace PlanState

def new : PlanState := ⟨FeedAlarmManager.new, [], []⟩

def addAlarmTask (zone : Int) (clock : Clock) (feedPlan : FeedPlan) (s : PlanState) : PlanState :=
  { s with
    manager := s.manager.addAlarmTask zone clock feedPlan
    calls := feedPlan :: s.calls }

def deliver (pi : PendingIntent) (s : PlanState) : Option PlanState :=
  match s.manager.android.alarms pi, s.manager.android.intents pi with
  | some a, some count =>
    some { s with
      manager := { s.manager with android := s.manager.android.deliver pi }
      broadcasts := ⟨a.owner, a.triggerAt, count⟩ :: s.broadcasts }
  | _, _ => none

def step (zone : Int) (s : PlanState) : PlanEvent → Option PlanState
  | .addAlarmTask clock feedPlan => some (s.addAlarmTask zone clock feedPlan)
  | .deliver pi => s.deliver pi

end PlanState

def planMachine (zone : Int) : StepMachine PlanState PlanEvent := ⟨PlanState.new, PlanState.step zone⟩

namespace PlanState

theorem deliver_eq_some {s t : PlanState} {pi : PendingIntent} (h : s.deliver pi = some t) :
    ∃ a count, s.manager.android.alarms pi = some a ∧ s.manager.android.intents pi = some count ∧
      t = { s with
        manager := { s.manager with android := s.manager.android.deliver pi }
        broadcasts := ⟨a.owner, a.triggerAt, count⟩ :: s.broadcasts } := by
  unfold deliver at h
  split at h
  · next a count ha hc => exact ⟨a, count, ha, hc, (Option.some.inj h).symm⟩
  · cases h

/-- The plan has fired. -/
def Fired (s : PlanState) (time : Int) : Prop := ∃ b ∈ s.broadcasts, b.owner = time

/-! ## What holds in every state -/

/-- The bookkeeping: no `PendingIntent` in `mAlarmTasks`, no alarm without one, and no
alarm or broadcast without a call. -/
structure Inv (s : PlanState) : Prop where
  nullTasks : s.manager.NullTasks
  backed : s.manager.android.Backed
  alarm_call : ∀ pi a, s.manager.android.alarms pi = some a → ∃ p ∈ s.calls, p.time = a.owner
  fired_call : ∀ b ∈ s.broadcasts, ∃ p ∈ s.calls, p.time = b.owner

theorem inv_new : Inv new := ⟨nullTasks_new, AlarmTable.backed_empty, nofun, nofun⟩

theorem Inv.addAlarmTask {s : PlanState} (h : s.Inv) (zone : Int) (clock : Clock)
    (feedPlan : FeedPlan) : (s.addAlarmTask zone clock feedPlan).Inv where
  nullTasks := nullTasks_addAlarmTask h.nullTasks zone clock feedPlan
  backed := backed_addAlarmTask h.nullTasks h.backed zone clock feedPlan
  alarm_call pi a ha := by
    rcases (addAlarmTask_alarms_eq_some h.nullTasks).mp ha with ⟨-, howner⟩ | ⟨-, ha⟩
    · exact ⟨feedPlan, List.mem_cons_self, howner.symm⟩
    · obtain ⟨p, hp, hpa⟩ := h.alarm_call pi a ha
      exact ⟨p, List.mem_cons_of_mem _ hp, hpa⟩
  fired_call b hb := by
    obtain ⟨p, hp, hpb⟩ := h.fired_call b hb
    exact ⟨p, List.mem_cons_of_mem _ hp, hpb⟩

theorem Inv.deliver {s t : PlanState} (h : s.Inv) {pi : PendingIntent}
    (ht : s.deliver pi = some t) : t.Inv := by
  obtain ⟨a, count, ha, -, rfl⟩ := deliver_eq_some ht
  refine ⟨h.nullTasks, h.backed.deliver pi, fun pi' a' ha' => ?_, fun b hb => ?_⟩
  · exact h.alarm_call pi' a' (AlarmTable.deliver_alarms_eq_some.mp ha').2
  · rcases List.mem_cons.mp hb with rfl | hb
    · exact h.alarm_call pi a ha
    · exact h.fired_call b hb

theorem Inv.step {zone : Int} {s t : PlanState} {e : PlanEvent} (h : s.Inv)
    (ht : s.step zone e = some t) : t.Inv := by
  cases e with
  | addAlarmTask clock feedPlan =>
    obtain rfl := Option.some.inj ht
    exact h.addAlarmTask zone clock feedPlan
  | deliver pi => exact h.deliver ht

/-! ## An alarm of its own -/

/-- Every plan that has not fired has a pending alarm, and every pending alarm carries the
count of its own plan. -/
structure OwnAlarms (s : PlanState) : Prop where
  pending : ∀ p ∈ s.calls, ¬ s.Fired p.time →
    ∃ pi a, s.manager.android.alarms pi = some a ∧ a.owner = p.time
  count : ∀ pi a, s.manager.android.alarms pi = some a → ∀ p ∈ s.calls, p.time = a.owner →
    s.manager.android.intents pi = some p.count

/-- The plans of a run have distinct times. -/
def NewTime (s : PlanState) : PlanEvent → Prop
  | .addAlarmTask _ feedPlan => ∀ p ∈ s.calls, p.time ≠ feedPlan.time
  | .deliver _ => True

instance (s : PlanState) (e : PlanEvent) : Decidable (s.NewTime e) := by
  cases e <;> unfold NewTime <;> infer_instance

/-- When a call keeps everybody's alarm: it takes one of the two branches, a `PendingIntent`
it reuses was created with its own count, and an alarm it replaces belongs to a plan that
has fired or has another alarm, one that the call leaves alone. -/
structure KeepsAlarms (zone : Int) (clock : Clock) (feedPlan : FeedPlan) (s : PlanState) : Prop where
  branch : isFuture zone clock.isFuture (targetTime feedPlan) = true ∨
    isPast zone clock.isPast (targetTime feedPlan) = true
  reused : ∀ pi, Uses zone clock feedPlan pi → ∀ c, s.manager.android.intents pi = some c →
    c = feedPlan.count
  replaced : ∀ pi a, Uses zone clock feedPlan pi → s.manager.android.alarms pi = some a →
    s.Fired a.owner ∨ ∃ pi' a', ¬ Uses zone clock feedPlan pi' ∧
      s.manager.android.alarms pi' = some a' ∧ a'.owner = a.owner

def StepKeepsAlarms (zone : Int) (s : PlanState) : PlanEvent → Prop
  | .addAlarmTask clock feedPlan => KeepsAlarms zone clock feedPlan s
  | .deliver _ => True

theorem exists_uses_iff {zone : Int} {clock : Clock} {feedPlan : FeedPlan} :
    (∃ pi, Uses zone clock feedPlan pi) ↔
      isFuture zone clock.isFuture (targetTime feedPlan) = true ∨
        isPast zone clock.isPast (targetTime feedPlan) = true := by
  constructor
  · rintro ⟨pi, ⟨h, -⟩ | ⟨h, -⟩⟩
    · exact Or.inl h
    · exact Or.inr h
  · rintro (h | h)
    · exact ⟨_, Or.inl ⟨h, rfl⟩⟩
    · exact ⟨_, Or.inr ⟨h, rfl⟩⟩

/-- The alarm that a call sets. -/
theorem addAlarmTask_alarms_of_uses {s : PlanState} (h : s.Inv) {zone : Int} {clock : Clock}
    {feedPlan : FeedPlan} {pi : PendingIntent} (hu : Uses zone clock feedPlan pi) :
    ∃ a, (s.addAlarmTask zone clock feedPlan).manager.android.alarms pi = some a ∧
      a.owner = feedPlan.time := by
  obtain ⟨t, ht⟩ := Option.isSome_iff_exists.mp (armedAt_isSome.mpr hu)
  exact ⟨⟨t, feedPlan.time⟩, (addAlarmTask_alarms_eq_some h.nullTasks).mpr (Or.inl ⟨ht, rfl⟩), rfl⟩

theorem OwnAlarms.addAlarmTask {s : PlanState} (hi : s.Inv) (h : s.OwnAlarms) {zone : Int}
    {clock : Clock} {feedPlan : FeedPlan} (hnew : ∀ p ∈ s.calls, p.time ≠ feedPlan.time)
    (hk : KeepsAlarms zone clock feedPlan s) : (s.addAlarmTask zone clock feedPlan).OwnAlarms where
  pending p hp hfired := by
    rcases List.mem_cons.mp hp with rfl | hp
    · obtain ⟨pi, hu⟩ := exists_uses_iff.mpr hk.branch
      exact ⟨pi, addAlarmTask_alarms_of_uses hi hu⟩
    · obtain ⟨pi, a, ha, hap⟩ := h.pending p hp hfired
      by_cases hu : Uses zone clock feedPlan pi
      · rcases hk.replaced pi a hu ha with hf | ⟨pi', a', hu', ha', ho'⟩
        · exact absurd (hap ▸ hf) hfired
        · exact ⟨pi', a', (addAlarmTask_alarms_eq_some hi.nullTasks).mpr (Or.inr ⟨hu', ha'⟩),
            ho'.trans hap⟩
      · exact ⟨pi, a, (addAlarmTask_alarms_eq_some hi.nullTasks).mpr (Or.inr ⟨hu, ha⟩), hap⟩
  count pi a ha p hp hpa := by
    rcases (addAlarmTask_alarms_eq_some hi.nullTasks).mp ha with ⟨harm, howner⟩ | ⟨-, hold⟩
    · have hu : Uses zone clock feedPlan pi := armedAt_isSome.mp (by rw [harm]; rfl)
      obtain rfl : p = feedPlan := by
        rcases List.mem_cons.mp hp with rfl | hp
        · rfl
        · exact absurd (hpa.trans howner) (hnew p hp)
      exact addAlarmTask_intents_of_uses hi.nullTasks hu (hk.reused pi hu)
    · have hp' : p ∈ s.calls := by
        rcases List.mem_cons.mp hp with rfl | hp
        · obtain ⟨q, hq, hqa⟩ := hi.alarm_call pi a hold
          exact absurd (hqa.trans hpa.symm) (hnew q hq)
        · exact hp
      exact addAlarmTask_intents_of_some hi.nullTasks (h.count pi a hold p hp' hpa)

/-- **The condition is necessary**: what a call breaks stays broken in the next state. -/
theorem keepsAlarms_of_ownAlarms {s : PlanState} (hi : s.Inv) {zone : Int} {clock : Clock}
    {feedPlan : FeedPlan} (hnew : ∀ p ∈ s.calls, p.time ≠ feedPlan.time)
    (h : (s.addAlarmTask zone clock feedPlan).OwnAlarms) : KeepsAlarms zone clock feedPlan s where
  branch := by
    have hfired : ¬ (s.addAlarmTask zone clock feedPlan).Fired feedPlan.time := by
      rintro ⟨b, hb, hbt⟩
      obtain ⟨p, hp, hpb⟩ := hi.fired_call b hb
      exact hnew p hp (hpb.trans hbt)
    obtain ⟨pi, a, ha, hap⟩ := h.pending feedPlan List.mem_cons_self hfired
    rw [← exists_uses_iff]
    refine ⟨pi, ?_⟩
    rcases (addAlarmTask_alarms_eq_some hi.nullTasks).mp ha with ⟨harm, -⟩ | ⟨-, ha⟩
    · exact armedAt_isSome.mp (by rw [harm]; rfl)
    · obtain ⟨p, hp, hpa⟩ := hi.alarm_call pi a ha
      exact absurd (hpa.trans hap) (hnew p hp)
  reused pi hu c hc := by
    obtain ⟨a, ha, hap⟩ := addAlarmTask_alarms_of_uses hi hu
    have h1 := h.count pi a ha feedPlan List.mem_cons_self hap.symm
    have h2 : (s.addAlarmTask zone clock feedPlan).manager.android.intents pi = some c :=
      addAlarmTask_intents_of_some hi.nullTasks hc
    exact Option.some.inj (h2.symm.trans h1)
  replaced pi a hu ha := by
    obtain ⟨p, hp, hpa⟩ := hi.alarm_call pi a ha
    by_cases hfired : s.Fired a.owner
    · exact Or.inl hfired
    · obtain ⟨pi', a', ha', hap'⟩ := h.pending p (List.mem_cons_of_mem _ hp) (by rwa [hpa])
      rcases (addAlarmTask_alarms_eq_some hi.nullTasks).mp ha' with ⟨-, howner⟩ | ⟨hu', ha'⟩
      · exact absurd (hap'.symm.trans howner) (hnew p hp)
      · exact Or.inr ⟨pi', a', hu', ha', hap'.trans hpa⟩

theorem OwnAlarms.deliver {s t : PlanState} (h : s.OwnAlarms) {pi : PendingIntent}
    (ht : s.deliver pi = some t) : t.OwnAlarms := by
  obtain ⟨a, count, ha, -, rfl⟩ := deliver_eq_some ht
  refine ⟨fun p hp hfired => ?_, fun pi' a' ha' => ?_⟩
  · have hold : ¬ s.Fired p.time := fun ⟨b, hb, hbp⟩ => hfired ⟨b, List.mem_cons_of_mem _ hb, hbp⟩
    obtain ⟨pi', a', ha', hap⟩ := h.pending p hp hold
    refine ⟨pi', a', AlarmTable.deliver_alarms_eq_some.mpr ⟨?_, ha'⟩, hap⟩
    rintro rfl
    obtain rfl : a = a' := Option.some.inj (ha.symm.trans ha')
    exact hfired ⟨_, List.mem_cons_self, hap⟩
  · exact h.count pi' a' (AlarmTable.deliver_alarms_eq_some.mp ha').2

/-- On a state with the property, a step keeps it exactly when it meets the condition. -/
theorem ownAlarms_step {zone : Int} {s t : PlanState} {e : PlanEvent} (hi : s.Inv)
    (h : s.OwnAlarms) (hnew : s.NewTime e) (ht : s.step zone e = some t) :
    t.OwnAlarms ↔ s.StepKeepsAlarms zone e := by
  cases e with
  | addAlarmTask clock feedPlan =>
    obtain rfl := Option.some.inj ht
    exact ⟨keepsAlarms_of_ownAlarms hi hnew, h.addAlarmTask hi hnew⟩
  | deliver pi => exact ⟨fun _ => trivial, fun _ => h.deliver ht⟩

end PlanState

/-- The plans of a run have distinct times. -/
def distinctPlans (zone : Int) : StepMachine PlanState PlanEvent :=
  (planMachine zone).guard PlanState.NewTime

/-- **Every plan keeps an alarm of its own exactly when every call keeps everybody's.** -/
theorem ownAlarms_iff (zone : Int) (es : List PlanEvent) (s : PlanState)
    (hs : (distinctPlans zone).run es = some s) :
    (distinctPlans zone).Always PlanState.OwnAlarms es ↔
      (distinctPlans zone).Each (PlanState.StepKeepsAlarms zone) es := by
  refine (distinctPlans zone).always_iff_each PlanState.inv_new ⟨nofun, nofun⟩ ?_ ?_ hs
  · intro s e t hi ht
    exact hi.step ((planMachine zone).guard_step_eq_some.mp ht).2
  · intro s e t hi h ht
    obtain ⟨hnew, ht⟩ := (planMachine zone).guard_step_eq_some.mp ht
    exact PlanState.ownAlarms_step hi h hnew ht

/-! ### Two plans in the past branch -/

/-- The alarm of the plan at eight is lost when the plan at nine is added, both past. -/
theorem not_forall_ownAlarms :
    ¬ ∀ zone es s, (distinctPlans zone).run es = some s → s.OwnAlarms := by
  intro h
  have hown := h 28800000
    [.addAlarmTask clockAtTen planAtEight, .addAlarmTask clockAtTen planAtNine] _ rfl
  obtain ⟨pi, a, ha, howner⟩ := hown.pending planAtEight (by decide) (by rintro ⟨b, hb, -⟩; cases hb)
  have hi := PlanState.inv_new.addAlarmTask 28800000 clockAtTen planAtEight
  rcases (addAlarmTask_alarms_eq_some hi.nullTasks).mp ha with ⟨-, hnine⟩ | ⟨hu, ha⟩
  · exact absurd (howner.symm.trans hnine) (by decide)
  · rw [uses_at_ten (Or.inr rfl)] at hu
    rcases (addAlarmTask_alarms_eq_some nullTasks_new).mp ha with ⟨harm, -⟩ | ⟨-, ha⟩
    · exact hu ((uses_at_ten (Or.inl rfl) pi).mp (armedAt_isSome.mp (by rw [harm]; rfl)))
    · cases ha

theorem ownAlarms_iff_eight_nine : ∃ s,
    (distinctPlans 28800000).run
      [.addAlarmTask clockAtTen planAtEight, .addAlarmTask clockAtTen planAtNine] = some s ∧
    ((distinctPlans 28800000).Always PlanState.OwnAlarms
        [.addAlarmTask clockAtTen planAtEight, .addAlarmTask clockAtTen planAtNine] ↔
      (distinctPlans 28800000).Each (PlanState.StepKeepsAlarms 28800000)
        [.addAlarmTask clockAtTen planAtEight, .addAlarmTask clockAtTen planAtNine]) :=
  ⟨_, rfl, ownAlarms_iff 28800000 _ _ rfl⟩

/-! ## The last call wins -/

namespace PlanState

/-- A pending alarm carries the count of the latest call for its plan. -/
def LastWins (s : PlanState) : Prop :=
  ∀ pi a, s.manager.android.alarms pi = some a →
    ∀ p ∈ s.calls.find? (fun p => p.time = a.owner), s.manager.android.intents pi = some p.count

/-- When a call leaves the counts right: a `PendingIntent` it reuses, and one whose alarm is
pending for its plan, were created with its own count. -/
structure KeepsCount (zone : Int) (clock : Clock) (feedPlan : FeedPlan) (s : PlanState) : Prop where
  reused : ∀ pi, Uses zone clock feedPlan pi → ∀ c, s.manager.android.intents pi = some c →
    c = feedPlan.count
  pending : ∀ pi a, s.manager.android.alarms pi = some a → a.owner = feedPlan.time →
    s.manager.android.intents pi = some feedPlan.count

def StepKeepsCount (zone : Int) (s : PlanState) : PlanEvent → Prop
  | .addAlarmTask clock feedPlan => KeepsCount zone clock feedPlan s
  | .deliver _ => True

theorem LastWins.addAlarmTask {s : PlanState} (hi : s.Inv) (h : s.LastWins) {zone : Int}
    {clock : Clock} {feedPlan : FeedPlan} (hk : KeepsCount zone clock feedPlan s) :
    (s.addAlarmTask zone clock feedPlan).LastWins := by
  intro pi a ha p hp
  rcases (addAlarmTask_alarms_eq_some hi.nullTasks).mp ha with ⟨harm, howner⟩ | ⟨hu, hold⟩
  · have hu : Uses zone clock feedPlan pi := armedAt_isSome.mp (by rw [harm]; rfl)
    obtain rfl : feedPlan = p := by
      simpa [PlanState.addAlarmTask, List.find?_cons, howner] using hp
    exact addAlarmTask_intents_of_uses hi.nullTasks hu (hk.reused pi hu)
  · by_cases howner : feedPlan.time = a.owner
    · obtain rfl : feedPlan = p := by
        simpa [PlanState.addAlarmTask, List.find?_cons, howner] using hp
      exact addAlarmTask_intents_of_some hi.nullTasks (hk.pending pi a hold howner.symm)
    · refine addAlarmTask_intents_of_some hi.nullTasks (h pi a hold p ?_)
      simpa [PlanState.addAlarmTask, List.find?_cons, howner] using hp

theorem keepsCount_of_lastWins {s : PlanState} (hi : s.Inv) {zone : Int} {clock : Clock}
    {feedPlan : FeedPlan} (h : (s.addAlarmTask zone clock feedPlan).LastWins) :
    KeepsCount zone clock feedPlan s := by
  have hreused : ∀ pi, Uses zone clock feedPlan pi → ∀ c, s.manager.android.intents pi = some c →
      c = feedPlan.count := by
    intro pi hu c hc
    obtain ⟨a, ha, hap⟩ := addAlarmTask_alarms_of_uses hi hu
    have h1 := h pi a ha feedPlan (by simp [PlanState.addAlarmTask, hap])
    have h2 : (s.addAlarmTask zone clock feedPlan).manager.android.intents pi = some c :=
      addAlarmTask_intents_of_some hi.nullTasks hc
    exact Option.some.inj (h2.symm.trans h1)
  refine ⟨hreused, fun pi a ha hap => ?_⟩
  obtain ⟨c, hc⟩ := hi.backed pi a ha
  by_cases hu : Uses zone clock feedPlan pi
  · rw [hc, hreused pi hu c hc]
  · have h1 := h pi a ((addAlarmTask_alarms_eq_some hi.nullTasks).mpr (Or.inr ⟨hu, ha⟩)) feedPlan
      (by simp [PlanState.addAlarmTask, hap])
    have h2 : (s.addAlarmTask zone clock feedPlan).manager.android.intents pi = some c :=
      addAlarmTask_intents_of_some hi.nullTasks hc
    rw [hc]
    exact h2.symm.trans h1

theorem LastWins.deliver {s t : PlanState} (h : s.LastWins) {pi : PendingIntent}
    (ht : s.deliver pi = some t) : t.LastWins := by
  obtain ⟨a, count, -, -, rfl⟩ := deliver_eq_some ht
  exact fun pi' a' ha' => h pi' a' (AlarmTable.deliver_alarms_eq_some.mp ha').2

theorem lastWins_step {zone : Int} {s t : PlanState} {e : PlanEvent} (hi : s.Inv)
    (h : s.LastWins) (ht : s.step zone e = some t) : t.LastWins ↔ s.StepKeepsCount zone e := by
  cases e with
  | addAlarmTask clock feedPlan =>
    obtain rfl := Option.some.inj ht
    exact ⟨keepsCount_of_lastWins hi, h.addAlarmTask hi⟩
  | deliver pi => exact ⟨fun _ => trivial, fun _ => h.deliver ht⟩

end PlanState

/-- **The last call wins exactly when no call changes a count.** -/
theorem lastWins_iff (zone : Int) (es : List PlanEvent) (s : PlanState)
    (hs : (planMachine zone).run es = some s) :
    (planMachine zone).Always PlanState.LastWins es ↔
      (planMachine zone).Each (PlanState.StepKeepsCount zone) es :=
  (planMachine zone).always_iff_each PlanState.inv_new nofun (fun _ _ _ hi ht => hi.step ht)
    (fun _ _ _ hi h ht => PlanState.lastWins_step hi h ht) hs

/-! ### A plan added again with another count -/

theorem not_forall_lastWins :
    ¬ ∀ zone es s, (planMachine zone).run es = some s → s.LastWins := by
  intro h
  have hlast := h 28800000
    [.addAlarmTask clockAtTen planAtEight, .addAlarmTask clockAtTen planAtEightTwice] _ rfl
  have hk := PlanState.keepsCount_of_lastWins
    (PlanState.inv_new.addAlarmTask 28800000 clockAtTen planAtEight) hlast
  exact absurd (hk.reused pastIntent (by decide) (some "1") (by decide)) (by decide)

theorem lastWins_iff_eight_twice : ∃ s,
    (planMachine 28800000).run
      [.addAlarmTask clockAtTen planAtEight, .addAlarmTask clockAtTen planAtEightTwice] = some s ∧
    ((planMachine 28800000).Always PlanState.LastWins
        [.addAlarmTask clockAtTen planAtEight, .addAlarmTask clockAtTen planAtEightTwice] ↔
      (planMachine 28800000).Each (PlanState.StepKeepsCount 28800000)
        [.addAlarmTask clockAtTen planAtEight, .addAlarmTask clockAtTen planAtEightTwice]) :=
  ⟨_, rfl, lastWins_iff 28800000 _ _ rfl⟩

end PetDev.Feed
