import PetDev.Android.Alarm
import PetDev.Java.Calendar
import PetDev.Java.Lang
import Mathlib.Tactic.SplitIfs

/-!
# `FeedAlarmManager`

`addAlarmTask` arms the alarm of a feeding plan: today's when the plan's time of day
is still to come (the **future** branch, request code `key.hashCode()`), tomorrow's
when it is over (the **past** branch, request code `0`).  Each of the two branches
reads the clock again, so one call can take both, or none when both readings fall on
the plan's own millisecond.

`mAlarmTasks` is there to cancel the previous `PendingIntent` of a plan, but
`put(key, targetIntent)` stores what `get(key)` returned and not the new
`pendingIntent`: `nullTasks_addAlarmTask` says the map never holds anything but
`null`, so nothing is ever cancelled.

`addAlarmTask_alarms` and `addAlarmTask_intents` say what a call does to the tables
of Android, in terms of `armedAt`: the `PendingIntent`s it uses, with the times.

The alarms are one-shot: `minSdkVersion` is 21, so the `setRepeating` branch (below
`KITKAT`) is never taken.
-/

namespace PetDev.Feed

open Java Android

/-- A feeding plan: its time in seconds and its portion count. -/
structure FeedPlan where
  time : Int
  count : Option String
  deriving DecidableEq, Repr

/-- What `Calendar.getInstance()` reads in the four helpers, in the order of the calls. -/
structure Clock where
  isFuture : Int
  today : Int
  isPast : Int
  tomorrow : Int
  deriving DecidableEq, Repr

def ACTION_FEED_PLAN : String := "com.punuo.sys.app.FEED"

/-! ## The helpers -/

section Helpers

variable (zone : Int)

/-- `nowCalendar`, moved to the first of February 2019. -/
def nowCalendar (now : Int) : Calendar :=
  { Calendar.ofMillis zone now with year := 2019, month := 1, dayOfMonth := 1 }

def isFuture (now targetTime : Int) : Bool := (nowCalendar zone now).toMillis zone < targetTime

def isPast (now targetTime : Int) : Bool := (nowCalendar zone now).toMillis zone > targetTime

def getTodayTaskTime (now targetTime : Int) : Int :=
  let targetCalendar := Calendar.ofMillis zone targetTime
  let todayCalendar := Calendar.ofMillis zone now
  { todayCalendar with
    hourOfDay := targetCalendar.hourOfDay
    minute := targetCalendar.minute
    second := targetCalendar.second }.toMillis zone

def getTomorrowTaskTime (now targetTime : Int) : Int :=
  let targetCalendar := Calendar.ofMillis zone targetTime
  let tomorrowCalendar := Calendar.ofMillis zone now
  { tomorrowCalendar with
    dayOfMonth := tomorrowCalendar.dayOfMonth + 1
    hourOfDay := targetCalendar.hourOfDay
    minute := targetCalendar.minute
    second := targetCalendar.second }.toMillis zone

theorem withTime_bounds (now targetTime : Int) :
    0 ≤ Calendar.timeOfDay zone targetTime / 1000 * 1000 + Calendar.timeOfDay zone now % 1000 ∧
      Calendar.timeOfDay zone targetTime / 1000 * 1000 + Calendar.timeOfDay zone now % 1000 <
        dayMs := by
  have h0 := Calendar.timeOfDay_nonneg zone targetTime
  have h1 := Calendar.timeOfDay_lt zone targetTime
  simp only [dayMs] at h1 ⊢
  omega

/-- Today's alarm is set for the day of the reading. -/
theorem localDay_getTodayTaskTime (now targetTime : Int) :
    Calendar.localDay zone (getTodayTaskTime zone now targetTime) = Calendar.localDay zone now := by
  have h := Calendar.toMillis_withTime zone now targetTime 0
  simp only [Int.add_zero] at h
  exact Calendar.localDay_of_eq zone h (withTime_bounds zone now targetTime).1
    (withTime_bounds zone now targetTime).2

/-- Tomorrow's alarm is set for the day after. -/
theorem localDay_getTomorrowTaskTime (now targetTime : Int) :
    Calendar.localDay zone (getTomorrowTaskTime zone now targetTime) =
      Calendar.localDay zone now + 1 :=
  Calendar.localDay_of_eq zone (Calendar.toMillis_withTime zone now targetTime 1)
    (withTime_bounds zone now targetTime).1 (withTime_bounds zone now targetTime).2

end Helpers

/-! ## The manager -/

/-- A `HashMap` whose values can be `null`. -/
abbrev TaskMap := String → Option (Option PendingIntent)

/-- The manager, with the tables of Android it works on; the owner of an alarm is the
time of its plan. -/
structure FeedAlarmManager where
  android : AlarmTable (Option String) Int
  mAlarmTasks : TaskMap

namespace FeedAlarmManager

def new : FeedAlarmManager := ⟨AlarmTable.empty, fun _ => none⟩

def targetTime (feedPlan : FeedPlan) : Int := long (feedPlan.time * 1000)

def key (feedPlan : FeedPlan) : String := valueOf (targetTime feedPlan)

/-- The `PendingIntent` of the future branch. -/
def futureIntent (feedPlan : FeedPlan) : PendingIntent :=
  ⟨hashCode (key feedPlan), ACTION_FEED_PLAN⟩

/-- The `PendingIntent` of the past branch, the same for every plan. -/
def pastIntent : PendingIntent := ⟨0, ACTION_FEED_PLAN⟩

/-- `getBroadcast`, `setExact` and `mAlarmTasks.put(key, targetIntent)`. -/
def arm (feedPlan : FeedPlan) (targetIntent : Option PendingIntent) (pendingIntent : PendingIntent)
    (triggerAt : Int) (s : FeedAlarmManager) : FeedAlarmManager :=
  { android := (s.android.getBroadcast pendingIntent feedPlan.count).set pendingIntent
      ⟨triggerAt, feedPlan.time⟩
    mAlarmTasks := Function.update s.mAlarmTasks (key feedPlan) (some targetIntent) }

def addAlarmTask (zone : Int) (clock : Clock) (feedPlan : FeedPlan) (s : FeedAlarmManager) :
    FeedAlarmManager :=
  let targetIntent := (s.mAlarmTasks (key feedPlan)).join
  let s := match targetIntent with
    | some pi =>
      { android := s.android.cancel pi
        mAlarmTasks := Function.update s.mAlarmTasks (key feedPlan) none }
    | none => s
  -- a time still to come today
  let s := if isFuture zone clock.isFuture (targetTime feedPlan) then
      s.arm feedPlan targetIntent (futureIntent feedPlan)
        (getTodayTaskTime zone clock.today (targetTime feedPlan))
    else s
  -- a time over today
  if isPast zone clock.isPast (targetTime feedPlan) then
    s.arm feedPlan targetIntent pastIntent
      (getTomorrowTaskTime zone clock.tomorrow (targetTime feedPlan))
  else s

/-! ## What a call does -/

/-- The call arms the `PendingIntent`: the branch that owns it is taken. -/
def Uses (zone : Int) (clock : Clock) (feedPlan : FeedPlan) (pi : PendingIntent) : Prop :=
  isFuture zone clock.isFuture (targetTime feedPlan) = true ∧ pi = futureIntent feedPlan ∨
    isPast zone clock.isPast (targetTime feedPlan) = true ∧ pi = pastIntent

instance (zone : Int) (clock : Clock) (feedPlan : FeedPlan) (pi : PendingIntent) :
    Decidable (Uses zone clock feedPlan pi) :=
  inferInstanceAs (Decidable (_ ∨ _))

/-- The time at which a call sets the alarm of `pi`; the past branch comes last. -/
def armedAt (zone : Int) (clock : Clock) (feedPlan : FeedPlan) (pi : PendingIntent) : Option Int :=
  if isPast zone clock.isPast (targetTime feedPlan) ∧ pi = pastIntent then
    some (getTomorrowTaskTime zone clock.tomorrow (targetTime feedPlan))
  else if isFuture zone clock.isFuture (targetTime feedPlan) ∧ pi = futureIntent feedPlan then
    some (getTodayTaskTime zone clock.today (targetTime feedPlan))
  else none

theorem armedAt_isSome {zone : Int} {clock : Clock} {feedPlan : FeedPlan} {pi : PendingIntent} :
    (armedAt zone clock feedPlan pi).isSome ↔ Uses zone clock feedPlan pi := by
  unfold armedAt Uses
  split_ifs with hp hf
  · simp [hp]
  · simp [hf]
  · simp only [Option.isSome_none, Bool.false_eq_true, false_iff, not_or]
    exact ⟨hf, hp⟩

theorem armedAt_eq_none {zone : Int} {clock : Clock} {feedPlan : FeedPlan} {pi : PendingIntent} :
    armedAt zone clock feedPlan pi = none ↔ ¬ Uses zone clock feedPlan pi := by
  rw [← armedAt_isSome, Option.not_isSome_iff_eq_none]

theorem armedAt_future {zone : Int} {clock : Clock} {feedPlan : FeedPlan}
    (h : isFuture zone clock.isFuture (targetTime feedPlan) = true)
    (hne : isPast zone clock.isPast (targetTime feedPlan) = true →
      futureIntent feedPlan ≠ pastIntent) :
    armedAt zone clock feedPlan (futureIntent feedPlan) =
      some (getTodayTaskTime zone clock.today (targetTime feedPlan)) := by
  unfold armedAt
  rw [if_neg (fun hp => hne hp.1 hp.2), if_pos ⟨h, rfl⟩]

/-- The two ways of arming an alarm, with the local day of each. -/
theorem armedAt_cases {zone : Int} {clock : Clock} {feedPlan : FeedPlan} {pi : PendingIntent}
    {t : Int} (h : armedAt zone clock feedPlan pi = some t) :
    (isPast zone clock.isPast (targetTime feedPlan) = true ∧ pi = pastIntent ∧
      Calendar.localDay zone t = Calendar.localDay zone clock.tomorrow + 1) ∨
    (isFuture zone clock.isFuture (targetTime feedPlan) = true ∧ pi = futureIntent feedPlan ∧
      (isPast zone clock.isPast (targetTime feedPlan) = true → pi ≠ pastIntent) ∧
      Calendar.localDay zone t = Calendar.localDay zone clock.today) := by
  unfold armedAt at h
  split at h
  · next hp =>
    obtain rfl := Option.some.inj h
    exact Or.inl ⟨hp.1, hp.2, localDay_getTomorrowTaskTime zone _ _⟩
  · next hp =>
    split at h
    · next hf =>
      obtain rfl := Option.some.inj h
      exact Or.inr ⟨hf.1, hf.2, fun h1 h2 => hp ⟨h1, h2⟩, localDay_getTodayTaskTime zone _ _⟩
    · cases h

/-- The future branch's `PendingIntent` depends on the time of the plan only. -/
theorem futureIntent_congr {p q : FeedPlan} (h : p.time = q.time) :
    futureIntent p = futureIntent q := by
  simp only [futureIntent, key, targetTime, h]

/-- `mAlarmTasks` holds no `PendingIntent`. -/
def NullTasks (s : FeedAlarmManager) : Prop := ∀ k, (s.mAlarmTasks k).join = none

theorem nullTasks_new : NullTasks new := fun _ => rfl

theorem NullTasks.arm {s : FeedAlarmManager} (h : s.NullTasks) (feedPlan : FeedPlan)
    (pi : PendingIntent) (t : Int) : (s.arm feedPlan none pi t).NullTasks := by
  intro k
  by_cases hk : k = key feedPlan
  · subst hk
    simp [FeedAlarmManager.arm]
  · simpa [FeedAlarmManager.arm, Function.update_of_ne hk] using h k

theorem arm_alarms (feedPlan : FeedPlan) (o : Option PendingIntent) (pi pi' : PendingIntent)
    (t : Int) (s : FeedAlarmManager) :
    (s.arm feedPlan o pi t).android.alarms pi' =
      if pi' = pi then some ⟨t, feedPlan.time⟩ else s.android.alarms pi' := by
  simp [FeedAlarmManager.arm, AlarmTable.set, AlarmTable.getBroadcast, Function.update_apply]

theorem arm_intents (feedPlan : FeedPlan) (o : Option PendingIntent) (pi pi' : PendingIntent)
    (t : Int) (s : FeedAlarmManager) :
    (s.arm feedPlan o pi t).android.intents pi' =
      if pi' = pi then some ((s.android.intents pi').getD feedPlan.count)
      else s.android.intents pi' := by
  by_cases h : pi' = pi
  · subst h
    simp [FeedAlarmManager.arm, AlarmTable.set, AlarmTable.getBroadcast]
  · simp [FeedAlarmManager.arm, AlarmTable.set, AlarmTable.getBroadcast, h]

/-- On a map of `null`s nothing is cancelled and the two branches put `null` again. -/
theorem addAlarmTask_of_nullTasks {s : FeedAlarmManager} (h : s.NullTasks) (zone : Int)
    (clock : Clock) (feedPlan : FeedPlan) :
    s.addAlarmTask zone clock feedPlan =
      let s := if isFuture zone clock.isFuture (targetTime feedPlan) then
          s.arm feedPlan none (futureIntent feedPlan)
            (getTodayTaskTime zone clock.today (targetTime feedPlan))
        else s
      if isPast zone clock.isPast (targetTime feedPlan) then
        s.arm feedPlan none pastIntent
          (getTomorrowTaskTime zone clock.tomorrow (targetTime feedPlan))
      else s := by
  simp only [addAlarmTask, h (key feedPlan)]

/-- **`mAlarmTasks` stays a map of `null`s.** -/
theorem nullTasks_addAlarmTask {s : FeedAlarmManager} (h : s.NullTasks) (zone : Int)
    (clock : Clock) (feedPlan : FeedPlan) : (s.addAlarmTask zone clock feedPlan).NullTasks := by
  rw [addAlarmTask_of_nullTasks h]
  dsimp only
  split <;> split
  · exact (h.arm _ _ _).arm _ _ _
  · exact h.arm _ _ _
  · exact h.arm _ _ _
  · exact h

theorem addAlarmTask_alarms {s : FeedAlarmManager} (h : s.NullTasks) (zone : Int) (clock : Clock)
    (feedPlan : FeedPlan) (pi : PendingIntent) :
    (s.addAlarmTask zone clock feedPlan).android.alarms pi =
      match armedAt zone clock feedPlan pi with
      | some t => some ⟨t, feedPlan.time⟩
      | none => s.android.alarms pi := by
  rw [addAlarmTask_of_nullTasks h]
  by_cases hP : isPast zone clock.isPast (targetTime feedPlan) = true <;>
    by_cases hF : isFuture zone clock.isFuture (targetTime feedPlan) = true <;>
    simp only [armedAt, hP, hF, if_true, if_false, true_and, false_and, arm_alarms,
      Bool.false_eq_true] <;>
    split_ifs <;> rfl

theorem addAlarmTask_intents {s : FeedAlarmManager} (h : s.NullTasks) (zone : Int) (clock : Clock)
    (feedPlan : FeedPlan) (pi : PendingIntent) :
    (s.addAlarmTask zone clock feedPlan).android.intents pi =
      if (armedAt zone clock feedPlan pi).isSome then
        some ((s.android.intents pi).getD feedPlan.count)
      else s.android.intents pi := by
  rw [addAlarmTask_of_nullTasks h]
  by_cases hP : isPast zone clock.isPast (targetTime feedPlan) = true <;>
    by_cases hF : isFuture zone clock.isFuture (targetTime feedPlan) = true <;>
    simp only [armedAt, hP, hF, if_true, if_false, true_and, false_and, arm_intents,
      Bool.false_eq_true] <;>
    split_ifs <;> simp_all

/-- **The alarms after a call**: those it armed, for its own plan, and the others as
they were. -/
theorem addAlarmTask_alarms_eq_some {s : FeedAlarmManager} (h : s.NullTasks) {zone : Int}
    {clock : Clock} {feedPlan : FeedPlan} {pi : PendingIntent} {a : Alarm Int} :
    (s.addAlarmTask zone clock feedPlan).android.alarms pi = some a ↔
      (armedAt zone clock feedPlan pi = some a.triggerAt ∧ a.owner = feedPlan.time) ∨
        (¬ Uses zone clock feedPlan pi ∧ s.android.alarms pi = some a) := by
  rw [addAlarmTask_alarms h, ← armedAt_eq_none]
  cases harm : armedAt zone clock feedPlan pi with
  | none => simp
  | some t =>
    obtain ⟨t', o⟩ := a
    simp [eq_comm]

/-- **The extras after a call**: a `PendingIntent` that exists keeps its own. -/
theorem addAlarmTask_intents_of_some {s : FeedAlarmManager} (h : s.NullTasks) {zone : Int}
    {clock : Clock} {feedPlan : FeedPlan} {pi : PendingIntent} {c : Option String}
    (hc : s.android.intents pi = some c) :
    (s.addAlarmTask zone clock feedPlan).android.intents pi = some c := by
  rw [addAlarmTask_intents h, hc]
  split <;> rfl

theorem addAlarmTask_intents_of_none {s : FeedAlarmManager} (h : s.NullTasks) {zone : Int}
    {clock : Clock} {feedPlan : FeedPlan} {pi : PendingIntent} (hc : s.android.intents pi = none)
    (hu : Uses zone clock feedPlan pi) :
    (s.addAlarmTask zone clock feedPlan).android.intents pi = some feedPlan.count := by
  rw [addAlarmTask_intents h, hc, if_pos (armedAt_isSome.mpr hu)]
  rfl

/-- An intent that is used has the count of the call, unless it was there with another one. -/
theorem addAlarmTask_intents_of_uses {s : FeedAlarmManager} (h : s.NullTasks) {zone : Int}
    {clock : Clock} {feedPlan : FeedPlan} {pi : PendingIntent} (hu : Uses zone clock feedPlan pi)
    (hreused : ∀ c, s.android.intents pi = some c → c = feedPlan.count) :
    (s.addAlarmTask zone clock feedPlan).android.intents pi = some feedPlan.count := by
  cases hc : s.android.intents pi with
  | none => exact addAlarmTask_intents_of_none h hc hu
  | some c =>
    rw [← hreused c hc]
    exact addAlarmTask_intents_of_some h hc

theorem backed_addAlarmTask {s : FeedAlarmManager} (h : s.NullTasks) (hb : s.android.Backed)
    (zone : Int) (clock : Clock) (feedPlan : FeedPlan) :
    (s.addAlarmTask zone clock feedPlan).android.Backed := by
  intro pi a ha
  rcases (addAlarmTask_alarms_eq_some h).mp ha with ⟨harm, -⟩ | ⟨-, ha⟩
  · have hu : Uses zone clock feedPlan pi := armedAt_isSome.mp (by rw [harm]; rfl)
    cases hc : s.android.intents pi with
    | none => exact ⟨_, addAlarmTask_intents_of_none h hc hu⟩
    | some c => exact ⟨c, addAlarmTask_intents_of_some h hc⟩
  · obtain ⟨c, hc⟩ := hb pi a ha
    exact ⟨c, addAlarmTask_intents_of_some h hc⟩

end FeedAlarmManager

/-! ## Sample plans -/

open FeedAlarmManager

/-- 08:00 of 2019-02-01 in the zone UTC+8, with one portion and with two. -/
def planAtEight : FeedPlan := ⟨1548979200, some "1"⟩
def planAtEightTwice : FeedPlan := ⟨1548979200, some "2"⟩

/-- 09:00 of that day. -/
def planAtNine : FeedPlan := ⟨1548982800, some "2"⟩

/-- The four clock readings of a call at one instant. -/
def Clock.at (now : Int) : Clock := ⟨now, now, now, now⟩

/-- 10:00 of 2020-06-01 in the zone UTC+8. -/
def clockAtTen : Clock := Clock.at 1590976800000

theorem uses_at_ten {p : FeedPlan} (hp : p = planAtEight ∨ p = planAtNine) (pi : PendingIntent) :
    Uses 28800000 clockAtTen p pi ↔ pi = pastIntent := by
  have hF : isFuture 28800000 clockAtTen.isFuture (targetTime p) = false := by
    rcases hp with rfl | rfl <;> decide
  have hP : isPast 28800000 clockAtTen.isPast (targetTime p) = true := by
    rcases hp with rfl | rfl <;> decide
  simp [Uses, hF, hP]

end PetDev.Feed
