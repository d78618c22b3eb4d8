import PetDev.Android.Alarm
import PetDev.Java.Calendar
import PetDev.Lib.StepMachine

/-!
# The alarm at midnight

A `Timer` calls `setZeroClock` when the activity starts and every 24 hours from then on, and
each call sets the alarm `SETZEROFEED` for the next local midnight.  The timer has a fixed
delay: a run is due 24 hours after the last one **started**, and may start later.  Alarms go
off on time, so time does not pass a pending one; a run reads the clock and sets the alarm at
one instant.

Before every midnight after the first run its alarm should be pending (`Covers`).  Each run
arms one midnight, and the runs never come early, so a delay is never made up for: it is so
exactly as long as every run starts on the day on which it is due (`covers_iff`).
-/

namespace PetDev.Feed

open Java Android

/-- The alarm that is set at midnight. -/
def zeroIntent : PendingIntent := ⟨0, "com.punuo.sys.app.SETZEROFEED"⟩

structure ZeroClock where
  now : Int
  android : AlarmTable Unit Unit
  due : Int
  hasRun : Bool

/-- `advance` is time passing; the timer's runs and the alarms are events of their own. -/
inductive ZeroEvent where
  | run
  | deliver
  | advance (ms : Nat)

namespace ZeroClock

variable (zone : Int)

/-- `timer.schedule(.., 0, 24 * 60 * 60 * 1000)`. -/
def start (now : Int) : ZeroClock := ⟨now, AlarmTable.empty, now, false⟩

/-- The time for which `setZeroClock` sets the alarm. -/
def zeroTime (now : Int) : Int :=
  let calendar := Calendar.ofMillis zone now
  { calendar with
    dayOfMonth := calendar.dayOfMonth + 1
    hourOfDay := 0
    minute := 0
    second := 0
    millisecond := 0 }.toMillis zone

def setZeroClock (s : ZeroClock) : ZeroClock :=
  { s with
    android := (s.android.getBroadcast zeroIntent ()).set zeroIntent ⟨zeroTime zone s.now, ()⟩ }

def step (s : ZeroClock) : ZeroEvent → Option ZeroClock
  | .run =>
    if s.due ≤ s.now then some { s.setZeroClock zone with due := s.now + dayMs, hasRun := true }
    else none
  | .deliver =>
    match s.android.alarms zeroIntent with
    | some a => if a.triggerAt ≤ s.now then some { s with android := s.android.deliver zeroIntent }
      else none
    | none => none
  | .advance ms =>
    if ∀ a ∈ s.android.alarms zeroIntent, s.now + ms ≤ a.triggerAt then
      some { s with now := s.now + ms }
    else none

end ZeroClock

def zeroMachine (zone now : Int) : StepMachine ZeroClock ZeroEvent :=
  ⟨ZeroClock.start now, ZeroClock.step zone⟩

namespace ZeroClock

variable (zone : Int)

/-- After the first run, time reaches a midnight only with the alarm for it pending. -/
def Covers (s : ZeroClock) : ZeroEvent → Prop
  | .advance ms => s.hasRun = true → ∀ midnight, Calendar.timeOfDay zone midnight = 0 →
    s.now < midnight → midnight ≤ s.now + ms →
      s.android.alarms zeroIntent = some ⟨midnight, ()⟩
  | _ => True

/-- **The condition on an event**: the next run does not put off its start to another day. -/
def OnItsDay (s : ZeroClock) : ZeroEvent → Prop
  | .advance ms => s.hasRun = true →
    Calendar.localDay zone (s.now + ms) ≤ Calendar.localDay zone s.due
  | _ => True

instance (s : ZeroClock) (e : ZeroEvent) : Decidable (OnItsDay zone s e) := by
  cases e <;> unfold OnItsDay <;> infer_instance

/-! ## The alarm is set for the next midnight -/

theorem zeroTime_eq (now : Int) :
    zeroTime zone now = (Calendar.localDay zone now + 1) * dayMs - zone := by
  have h := Calendar.daysFromCivil_ofMillis zone now 1
  simp only [zeroTime, Calendar.toMillis]
  rw [h]
  simp

/-- The midnight with which the day of the next run begins; it is the one that the last run has set
the alarm for. -/
def dawn (s : ZeroClock) : Int := Calendar.localDay zone s.due * dayMs - zone

/-- The alarm of the last run is pending, or has gone off at the beginning of this day. -/
structure Armed (s : ZeroClock) : Prop where
  ran : s.due ≤ s.now + dayMs
  alarm : s.android.alarms zeroIntent = some ⟨s.dawn zone, ()⟩ ∧ s.now ≤ s.dawn zone ∨
    s.android.alarms zeroIntent = none ∧ Calendar.localDay zone s.now = Calendar.localDay zone s.due

def Inv (s : ZeroClock) : Prop := s.hasRun = true → s.Armed zone

variable {zone}

theorem dawn_le_iff {s : ZeroClock} {t : Int} :
    s.dawn zone ≤ t ↔ Calendar.localDay zone s.due ≤ Calendar.localDay zone t :=
  (Calendar.le_localDay_iff zone).symm

/-- The last run was on the day before. -/
theorem Armed.dawn_le_midnight {s : ZeroClock} (h : s.Armed zone) {midnight : Int}
    (hmidnight : Calendar.timeOfDay zone midnight = 0) (hlater : s.now < midnight) :
    s.dawn zone ≤ midnight := by
  have hday := Calendar.localDay_add_dayMs zone (s.due - dayMs)
  rw [sub_add_cancel] at hday
  have hbefore : ¬ Calendar.localDay zone midnight ≤ Calendar.localDay zone (s.due - dayMs) := by
    rw [Calendar.le_localDay_iff, ← Calendar.eq_midnight zone hmidnight]
    have := h.ran
    omega
  rw [dawn_le_iff]
  omega

theorem inv_start (now : Int) : (start now).Inv zone := nofun

/-- A run arms the next midnight. -/
theorem armed_run (s : ZeroClock) :
    Armed zone { s.setZeroClock zone with due := s.now + dayMs, hasRun := true } := by
  have hnow := Calendar.le_localDay_iff zone (d := Calendar.localDay zone s.now + 1) (t := s.now)
  refine ⟨le_rfl, Or.inl ⟨?_, ?_⟩⟩
  · simp [setZeroClock, AlarmTable.set, dawn, zeroTime_eq, Calendar.localDay_add_dayMs]
  · show s.now ≤ Calendar.localDay zone (s.now + dayMs) * dayMs - zone
    rw [Calendar.localDay_add_dayMs]
    omega

theorem Armed.deliver {s : ZeroClock} (h : s.Armed zone) {a : Alarm Unit}
    (ha : s.android.alarms zeroIntent = some a) (hdue : a.triggerAt ≤ s.now) :
    Armed zone { s with android := s.android.deliver zeroIntent } := by
  refine ⟨h.ran, Or.inr ⟨by simp [AlarmTable.deliver], ?_⟩⟩
  rcases h.alarm with ⟨hdawn, hle⟩ | ⟨hnone, -⟩
  · -- it goes off at dawn
    obtain rfl := Option.some.inj (hdawn.symm.trans ha)
    rw [show s.now = s.dawn zone from le_antisymm hle hdue]
    exact Calendar.localDay_midnight zone _
  · rw [hnone] at ha
    cases ha

theorem Armed.advance {s : ZeroClock} (h : s.Armed zone) {ms : Nat}
    (hday : Calendar.localDay zone (s.now + ms) ≤ Calendar.localDay zone s.due)
    (hpending : ∀ a ∈ s.android.alarms zeroIntent, s.now + ms ≤ a.triggerAt) :
    Armed zone { s with now := s.now + ms } := by
  have hran := h.ran
  refine ⟨by show s.due ≤ s.now + ms + dayMs; omega, ?_⟩
  rcases h.alarm with ⟨hdawn, -⟩ | ⟨hnone, hday'⟩
  · exact Or.inl ⟨hdawn, hpending _ hdawn⟩
  · have hmono := Calendar.localDay_mono zone (show s.now ≤ s.now + ms by omega)
    exact Or.inr ⟨hnone, le_antisymm hday (hday' ▸ hmono)⟩

theorem Inv.step {s t : ZeroClock} {e : ZeroEvent} (h : s.Inv zone) (hC : s.OnItsDay zone e)
    (ht : s.step zone e = some t) : t.Inv zone := by
  cases e with
  | run =>
    obtain ⟨-, ht⟩ := Option.ite_none_right_eq_some.mp ht
    obtain rfl := Option.some.inj ht
    exact fun _ => armed_run s
  | deliver =>
    simp only [ZeroClock.step] at ht
    split at ht
    · next a ha =>
      obtain ⟨hdue, ht⟩ := Option.ite_none_right_eq_some.mp ht
      obtain rfl := Option.some.inj ht
      exact fun hran => (h hran).deliver ha hdue
    · cases ht
  | advance ms =>
    obtain ⟨hpending, ht⟩ := Option.ite_none_right_eq_some.mp ht
    obtain rfl := Option.some.inj ht
    exact fun hran => (h hran).advance (hC hran) hpending

/-- Time reaches every midnight with its alarm pending exactly if it stays on the day on which the
next run is due. -/
theorem Armed.covered_iff_onItsDay {s : ZeroClock} (h : s.Armed zone) {ms : Nat}
    (hpending : ∀ a ∈ s.android.alarms zeroIntent, s.now + ms ≤ a.triggerAt) :
    (∀ midnight, Calendar.timeOfDay zone midnight = 0 → s.now < midnight →
      midnight ≤ s.now + ms → s.android.alarms zeroIntent = some ⟨midnight, ()⟩) ↔
    Calendar.localDay zone (s.now + ms) ≤ Calendar.localDay zone s.due := by
  rcases h.alarm with ⟨hdawn, -⟩ | ⟨hnone, hday⟩
  · have hle : s.now + ms ≤ s.dawn zone := hpending _ hdawn
    constructor
    · intro _
      have hdawnday : Calendar.localDay zone (s.dawn zone) = Calendar.localDay zone s.due :=
        Calendar.localDay_midnight zone _
      exact hdawnday ▸ Calendar.localDay_mono zone hle
    · intro _ midnight hmidnight hlater hreached
      have hge := h.dawn_le_midnight hmidnight hlater
      rw [hdawn, show s.dawn zone = midnight by omega]
  · -- no alarm is pending: the next midnight would be missed
    constructor
    · intro hcovers
      by_contra hnot
      have hmidnight := Calendar.timeOfDay_midnight zone (Calendar.localDay zone s.now + 1)
      have hreached : (Calendar.localDay zone s.now + 1) * dayMs - zone ≤ s.now + ms :=
        (Calendar.le_localDay_iff zone).mp (by omega)
      have hlater := Calendar.le_localDay_iff zone (d := Calendar.localDay zone s.now + 1)
        (t := s.now)
      have hsome := hcovers _ hmidnight (by omega) hreached
      rw [hnone] at hsome
      cases hsome
    · intro hday' midnight hmidnight hlater hreached
      have heq := Calendar.eq_midnight zone hmidnight
      have hmono := Calendar.localDay_mono zone hreached
      have hbefore := Calendar.le_localDay_iff zone (d := Calendar.localDay zone midnight)
        (t := s.now)
      omega

theorem Inv.step_covers_iff {s t : ZeroClock} {e : ZeroEvent} (h : s.Inv zone)
    (ht : s.step zone e = some t) : s.Covers zone e ↔ s.OnItsDay zone e := by
  cases e with
  | advance ms =>
    obtain ⟨hpending, -⟩ := Option.ite_none_right_eq_some.mp ht
    exact forall_congr' fun hran => (h hran).covered_iff_onItsDay hpending
  | _ => exact Iff.rfl

end ZeroClock

open ZeroClock

/-- **Before every midnight after the first run its alarm is pending, exactly in the runs in which
the timer starts on the day on which it is due, every time.** -/
theorem covers_iff (zone now : Int) (es : List ZeroEvent) (s : ZeroClock)
    (hs : (zeroMachine zone now).run es = some s) :
    (zeroMachine zone now).Each (Covers zone) es ↔ (zeroMachine zone now).Each (OnItsDay zone) es :=
  (zeroMachine zone now).each_iff_each (inv_start now) (fun _ _ _ h hC ht => h.step hC ht)
    (fun _ _ _ h ht => h.step_covers_iff ht) hs

/-- The first run is at 10:00, the second a second late. -/
def lateRun : List ZeroEvent :=
  [.run, .advance 50400000, .deliver, .advance 36001000, .run, .advance 50399000, .deliver]

theorem covers_iff_lateRun : ∃ s, (zeroMachine 28800000 1590976800000).run lateRun = some s ∧
    ((zeroMachine 28800000 1590976800000).Each (Covers 28800000) lateRun ↔
      (zeroMachine 28800000 1590976800000).Each (OnItsDay 28800000) lateRun) := by
  have hrun : ((zeroMachine 28800000 1590976800000).run lateRun).map ZeroClock.now =
      some 1591113600000 := by
    decide
  obtain ⟨s, hs, -⟩ := Option.map_eq_some_iff.mp hrun
  exact ⟨s, hs, covers_iff 28800000 1590976800000 lateRun s hs⟩

/-- The activity starts a second before midnight. -/
def beforeMidnight : List ZeroEvent := [.run, .advance 1000, .deliver]

/-- A run that is two seconds late misses a midnight. -/
theorem not_forall_covers : ¬ ∀ (zone now : Int) (es : List ZeroEvent) (s : ZeroClock),
    (zeroMachine zone now).run es = some s → (zeroMachine zone now).Each (Covers zone) es := by
  intro h
  have hrun : ((zeroMachine 0 86399000).run beforeMidnight).map
      (fun s => (s.hasRun, s.now, s.android.alarms zeroIntent)) = some (true, 86400000, none) := by
    decide
  have hrun' : ((zeroMachine 0 86399000).run (beforeMidnight ++ [.advance 86401000])).map
      ZeroClock.now = some 172801000 := by
    decide
  obtain ⟨s, hs, hout⟩ := Option.map_eq_some_iff.mp hrun
  obtain ⟨t, ht, -⟩ := Option.map_eq_some_iff.mp hrun'
  simp only [Prod.mk.injEq] at hout
  obtain ⟨hran, hnow, hnone⟩ := hout
  have hcovers := h 0 86399000 _ t ht beforeMidnight (.advance 86401000) s (List.prefix_refl _) hs
  have hsome := hcovers hran 172800000 (by decide) (by omega) (by omega)
  rw [hnone] at hsome
  cases hsome

end PetDev.Feed
