import PetDev.Feed.FeedAlarmManager

/-!
# When the alarm of a plan goes off

A call of `addAlarmTask` should set one alarm, at the next moment at which the clock shows the
time of the plan.  `settings` lists what the call sets, each with the reading of the clock that
the alarm is computed from, and `Setting.OnTime` is the requirement.

The hour, minute and second are always right.  The day is chosen by comparing the whole time
stamp of the plan with a time on the first of February 2019, so it is right for plans of that
date; a plan of a later date is always set for today and one of an earlier date for tomorrow,
whether its time of day is over or not (`settings_iff`).
-/

namespace PetDev.Feed

open Java Android

/-! ## The comparisons -/

section Comparisons

variable (zone now targetTime : Int)

/-- The first of February 2019, in days from 1970-01-01. -/
def fixedDay : Int := 17928

theorem nowCalendar_toMillis :
    (nowCalendar zone now).toMillis zone =
      fixedDay * dayMs + Calendar.timeOfDay zone now - zone := by
  have hday : daysFromCivil (2019 + 1 / 12) (1 % 12 + 1) 1 = fixedDay := by decide
  simp only [nowCalendar, Calendar.toMillis]
  rw [hday]
  simp only [Calendar.ofMillis, Calendar.clock_fields]
  rfl

theorem localDay_nowCalendar :
    Calendar.localDay zone ((nowCalendar zone now).toMillis zone) = fixedDay :=
  Calendar.localDay_of_eq zone (nowCalendar_toMillis zone now)
    (Calendar.timeOfDay_nonneg zone now) (Calendar.timeOfDay_lt zone now)

theorem timeOfDay_nowCalendar :
    Calendar.timeOfDay zone ((nowCalendar zone now).toMillis zone) = Calendar.timeOfDay zone now :=
  Calendar.timeOfDay_of_eq zone (nowCalendar_toMillis zone now)
    (Calendar.timeOfDay_nonneg zone now) (Calendar.timeOfDay_lt zone now)

/-- `isFuture` compares dates before it compares times of day. -/
theorem isFuture_iff : isFuture zone now targetTime = true ↔
    fixedDay < Calendar.localDay zone targetTime ∨
      Calendar.localDay zone targetTime = fixedDay ∧
        Calendar.timeOfDay zone now < Calendar.timeOfDay zone targetTime := by
  rw [isFuture, decide_eq_true_eq, Calendar.lt_iff zone, localDay_nowCalendar,
    timeOfDay_nowCalendar, eq_comm]

theorem isPast_iff : isPast zone now targetTime = true ↔
    Calendar.localDay zone targetTime < fixedDay ∨
      Calendar.localDay zone targetTime = fixedDay ∧
        Calendar.timeOfDay zone targetTime < Calendar.timeOfDay zone now := by
  rw [isPast, decide_eq_true_eq, gt_iff_lt, Calendar.lt_iff zone, localDay_nowCalendar,
    timeOfDay_nowCalendar]

/-! ## The times -/

theorem secondOfDay_getTodayTaskTime :
    Calendar.secondOfDay zone (getTodayTaskTime zone now targetTime) =
      Calendar.secondOfDay zone targetTime := by
  have h := Calendar.toMillis_withTime zone now targetTime 0
  simp only [Int.add_zero] at h
  obtain ⟨h0, h1⟩ := withTime_bounds zone now targetTime
  rw [Calendar.secondOfDay, getTodayTaskTime, Calendar.timeOfDay_of_eq zone h h0 h1,
    Calendar.secondOfDay]
  omega

theorem secondOfDay_getTomorrowTaskTime :
    Calendar.secondOfDay zone (getTomorrowTaskTime zone now targetTime) =
      Calendar.secondOfDay zone targetTime := by
  have h := Calendar.toMillis_withTime zone now targetTime 1
  obtain ⟨h0, h1⟩ := withTime_bounds zone now targetTime
  rw [Calendar.secondOfDay, getTomorrowTaskTime, Calendar.timeOfDay_of_eq zone h h0 h1,
    Calendar.secondOfDay]
  omega

/-- The millisecond of the reading is kept, so the distance is in whole seconds. -/
theorem getTodayTaskTime_eq : getTodayTaskTime zone now targetTime =
    now + (Calendar.secondOfDay zone targetTime - Calendar.secondOfDay zone now) * 1000 := by
  have h := Calendar.toMillis_withTime zone now targetTime 0
  have hnow := Calendar.eq_localDay_add zone now
  simp only [Int.add_zero] at h
  rw [getTodayTaskTime, h, Calendar.secondOfDay, Calendar.secondOfDay]
  omega

theorem getTomorrowTaskTime_eq : getTomorrowTaskTime zone now targetTime =
    now + dayMs +
      (Calendar.secondOfDay zone targetTime - Calendar.secondOfDay zone now) * 1000 := by
  have h := Calendar.toMillis_withTime zone now targetTime 1
  have hnow := Calendar.eq_localDay_add zone now
  rw [getTomorrowTaskTime, h, Calendar.secondOfDay, Calendar.secondOfDay, add_mul, one_mul]
  omega

theorem secondOfDay_bounds : 0 ≤ Calendar.secondOfDay zone now ∧
    Calendar.secondOfDay zone now < 86400 := by
  have h0 := Calendar.timeOfDay_nonneg zone now
  have h1 := Calendar.timeOfDay_lt zone now
  simp only [dayMs] at h1
  unfold Calendar.secondOfDay
  omega

end Comparisons

/-! ## What a call sets -/

/-- A call of `setExact`, with the reading of the clock that the time was computed from. -/
structure Setting where
  intent : PendingIntent
  triggerAt : Int
  now : Int
  deriving DecidableEq, Repr

/-- The alarm goes off within a day, when the clock next shows the time of the plan. -/
structure Setting.OnTime (zone targetTime : Int) (a : Setting) : Prop where
  later : a.now < a.triggerAt
  withinDay : a.triggerAt ≤ a.now + dayMs
  hourOfDay : (Calendar.ofMillis zone a.triggerAt).hourOfDay =
    (Calendar.ofMillis zone targetTime).hourOfDay
  minute : (Calendar.ofMillis zone a.triggerAt).minute = (Calendar.ofMillis zone targetTime).minute
  second : (Calendar.ofMillis zone a.triggerAt).second = (Calendar.ofMillis zone targetTime).second

namespace FeedAlarmManager

section Settings

variable (zone : Int) (clock : Clock) (feedPlan : FeedPlan)

def todaySetting : Setting :=
  ⟨futureIntent feedPlan, getTodayTaskTime zone clock.today (targetTime feedPlan), clock.today⟩

def tomorrowSetting : Setting :=
  ⟨pastIntent, getTomorrowTaskTime zone clock.tomorrow (targetTime feedPlan), clock.tomorrow⟩

/-- What `addAlarmTask` sets, in the order of the calls. -/
def settings : List Setting :=
  (if isFuture zone clock.isFuture (targetTime feedPlan) then [todaySetting zone clock feedPlan]
    else []) ++
  (if isPast zone clock.isPast (targetTime feedPlan) then [tomorrowSetting zone clock feedPlan]
    else [])

/-- The first part of `addAlarmTask`. -/
def cancelTask (s : FeedAlarmManager) : FeedAlarmManager :=
  match (s.mAlarmTasks (key feedPlan)).join with
  | some pi =>
    { android := s.android.cancel pi
      mAlarmTasks := Function.update s.mAlarmTasks (key feedPlan) none }
  | none => s

/-- `addAlarmTask` sets what `settings` lists, and nothing else. -/
theorem addAlarmTask_eq_foldl (s : FeedAlarmManager) :
    s.addAlarmTask zone clock feedPlan = (settings zone clock feedPlan).foldl
      (fun s' a => s'.arm feedPlan (s.mAlarmTasks (key feedPlan)).join a.intent a.triggerAt)
      (s.cancelTask feedPlan) := by
  unfold settings
  rw [List.foldl_append]
  by_cases hF : isFuture zone clock.isFuture (targetTime feedPlan) = true <;>
    by_cases hP : isPast zone clock.isPast (targetTime feedPlan) = true <;>
    simp only [addAlarmTask, hF, hP, if_true, if_false, Bool.false_eq_true, List.foldl_cons,
      List.foldl_nil] <;> rfl

theorem todaySetting_onTime : (todaySetting zone clock feedPlan).OnTime zone (targetTime feedPlan) ↔
    Calendar.secondOfDay zone clock.today < Calendar.secondOfDay zone (targetTime feedPlan) := by
  have h := getTodayTaskTime_eq zone clock.today (targetTime feedPlan)
  have hclock := (Calendar.clock_eq_iff zone _ _).mpr
    (secondOfDay_getTodayTaskTime zone clock.today (targetTime feedPlan))
  have h0 := secondOfDay_bounds zone clock.today
  have h1 := secondOfDay_bounds zone (targetTime feedPlan)
  constructor
  · rintro ⟨hlater, -⟩
    change clock.today < getTodayTaskTime zone clock.today (targetTime feedPlan) at hlater
    omega
  · intro hlt
    refine ⟨?_, ?_, hclock.1, hclock.2.1, hclock.2.2⟩
    · show clock.today < getTodayTaskTime zone clock.today (targetTime feedPlan)
      omega
    · show getTodayTaskTime zone clock.today (targetTime feedPlan) ≤ clock.today + 86400000
      omega

theorem tomorrowSetting_onTime :
    (tomorrowSetting zone clock feedPlan).OnTime zone (targetTime feedPlan) ↔
      Calendar.secondOfDay zone (targetTime feedPlan) ≤
        Calendar.secondOfDay zone clock.tomorrow := by
  have h := getTomorrowTaskTime_eq zone clock.tomorrow (targetTime feedPlan)
  have hclock := (Calendar.clock_eq_iff zone _ _).mpr
    (secondOfDay_getTomorrowTaskTime zone clock.tomorrow (targetTime feedPlan))
  have h0 := secondOfDay_bounds zone clock.tomorrow
  have h1 := secondOfDay_bounds zone (targetTime feedPlan)
  simp only [dayMs] at h
  constructor
  · rintro ⟨-, hday, -⟩
    change getTomorrowTaskTime zone clock.tomorrow (targetTime feedPlan) ≤
      clock.tomorrow + 86400000 at hday
    omega
  · intro hle
    refine ⟨?_, ?_, hclock.1, hclock.2.1, hclock.2.2⟩
    · show clock.tomorrow < getTomorrowTaskTime zone clock.tomorrow (targetTime feedPlan)
      omega
    · show getTomorrowTaskTime zone clock.tomorrow (targetTime feedPlan) ≤
        clock.tomorrow + 86400000
      omega

/-- **A call sets one alarm, and that one on time, exactly if one of the two comparisons holds and
agrees with the seconds of the day.** -/
theorem settings_iff :
    (∃ a, settings zone clock feedPlan = [a] ∧ a.OnTime zone (targetTime feedPlan)) ↔
      (isFuture zone clock.isFuture (targetTime feedPlan) = true ∧
        isPast zone clock.isPast (targetTime feedPlan) = false ∧
        Calendar.secondOfDay zone clock.today < Calendar.secondOfDay zone (targetTime feedPlan)) ∨
      (isFuture zone clock.isFuture (targetTime feedPlan) = false ∧
        isPast zone clock.isPast (targetTime feedPlan) = true ∧
        Calendar.secondOfDay zone (targetTime feedPlan) ≤
          Calendar.secondOfDay zone clock.tomorrow) := by
  rw [← todaySetting_onTime, ← tomorrowSetting_onTime]
  unfold settings
  cases isFuture zone clock.isFuture (targetTime feedPlan) <;>
    cases isPast zone clock.isPast (targetTime feedPlan) <;> simp

/-- A plan of the first of February 2019, at a whole second, is set right at any instant but its
own. -/
theorem settings_of_fixedDay (now : Int)
    (hday : Calendar.localDay zone (targetTime feedPlan) = fixedDay)
    (hsecond : Calendar.timeOfDay zone (targetTime feedPlan) % 1000 = 0) :
    (∃ a, settings zone (Clock.at now) feedPlan = [a] ∧ a.OnTime zone (targetTime feedPlan)) ↔
      Calendar.timeOfDay zone now ≠ Calendar.timeOfDay zone (targetTime feedPlan) := by
  have hF := isFuture_iff zone now (targetTime feedPlan)
  have hP := isPast_iff zone now (targetTime feedPlan)
  have htoday := todaySetting_onTime zone (Clock.at now) feedPlan
  have htomorrow := tomorrowSetting_onTime zone (Clock.at now) feedPlan
  simp only [hday, lt_irrefl, false_or, true_and] at hF hP
  simp only [Clock.at, Calendar.secondOfDay] at htoday htomorrow
  rcases lt_trichotomy (Calendar.timeOfDay zone now) (Calendar.timeOfDay zone (targetTime feedPlan))
    with hlt | heq | hgt
  · have hP' : ¬ isPast zone now (targetTime feedPlan) = true := fun h =>
      absurd (hP.mp h) hlt.not_gt
    have hset : settings zone (Clock.at now) feedPlan =
        [todaySetting zone (Clock.at now) feedPlan] := by
      simp [settings, Clock.at, hF.mpr hlt, hP']
    refine iff_of_true ⟨_, hset, htoday.mpr ?_⟩ hlt.ne
    omega
  · have hset : settings zone (Clock.at now) feedPlan = [] := by
      simp [settings, Clock.at, mt hF.mp heq.not_lt, mt hP.mp heq.symm.not_lt]
    rw [hset]
    exact iff_of_false (by simp) (not_not.mpr heq)
  · have hF' : ¬ isFuture zone now (targetTime feedPlan) = true := fun h =>
      absurd (hF.mp h) hgt.not_gt
    have hset : settings zone (Clock.at now) feedPlan =
        [tomorrowSetting zone (Clock.at now) feedPlan] := by
      simp [settings, Clock.at, hP.mpr hgt, hF']
    refine iff_of_true ⟨_, hset, htomorrow.mpr ?_⟩ hgt.ne'
    omega

end Settings

/-- 08:00 of 2019-12-01 in the zone UTC+8. -/
def planInDecember : FeedPlan := ⟨1575158400, some "1"⟩

/-- At 10:00 a plan for 08:00 is set for 08:00 of the same day. -/
theorem not_forall_onTime : ¬ ∀ (zone : Int) (clock : Clock) (feedPlan : FeedPlan),
    clock.isFuture ≤ clock.today → clock.today ≤ clock.isPast → clock.isPast ≤ clock.tomorrow →
    ∃ a, settings zone clock feedPlan = [a] ∧ a.OnTime zone (targetTime feedPlan) := by
  intro h
  obtain ⟨a, hset, honTime⟩ := h 28800000 clockAtTen planInDecember le_rfl le_rfl le_rfl
  have hF : isFuture 28800000 clockAtTen.isFuture (targetTime planInDecember) = true := by decide
  have hP : isPast 28800000 clockAtTen.isPast (targetTime planInDecember) = false := by decide
  obtain rfl : todaySetting 28800000 clockAtTen planInDecember = a := by
    simpa [settings, hF, hP] using hset
  rw [todaySetting_onTime] at honTime
  exact absurd honTime (by decide)

end FeedAlarmManager

end PetDev.Feed
