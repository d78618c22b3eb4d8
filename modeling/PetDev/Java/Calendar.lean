import Mathlib.Data.Int.Basic
import Mathlib.Tactic.Ring

/-!
# `java.util.Calendar`

A `Calendar` is the record of its fields; `MONTH` counts from `0`, as in Java.
`ofMillis` computes the fields of an instant and `toMillis` is the lenient
`getTimeInMillis`: a `MONTH` or a `DAY_OF_MONTH` outside its range carries over
into the year or the month.  `daysFromCivil` counts the days of the proleptic
Gregorian calendar from 1970-01-01.

The zone has no daylight saving: local time is UTC plus the constant `zone`
(all times are in milliseconds).

* `Calendar.toMillis_ofMillis`: the fields of an instant give the instant back.
* `Calendar.toMillis_withTime`: an instant with the hour, minute and second of
  another one, `d` days later.
-/

namespace PetDev.Java

/-- The milliseconds of a day. -/
abbrev dayMs : Int := 86400000

/-! ## Days and dates -/

/-- The days from 1970-01-01 to the date; `month` is `1` to `12`, `day` is free. -/
def daysFromCivil (year month day : Int) : Int :=
  let y := if month ≤ 2 then year - 1 else year
  let yoe := y % 400
  let doy := (153 * ((month + 9) % 12) + 2) / 5 + day - 1
  y / 400 * 146097 + (yoe * 365 + yoe / 4 - yoe / 100 + doy) - 719468

/-- The year of a day of the 400-year era (years from March on) and the day of that year:
centuries, then four-year cycles, then years, the last of each one day longer. -/
def yearOfEra (doe : Int) : Int × Int :=
  let century := min (doe / 36524) 3
  let cycle := (doe - 36524 * century) / 1461
  let doq := doe - 36524 * century - 1461 * cycle
  let year := min (doq / 365) 3
  (100 * century + 4 * cycle + year, doq - 365 * year)

/-- The date, as year, month (`1` to `12`) and day, of a day of a year of an era. -/
def civilOfEra (era yoe doy : Int) : Int × Int × Int :=
  let mp := (5 * doy + 2) / 153
  let month := if mp < 10 then mp + 3 else mp - 9
  let y := yoe + era * 400
  (if month ≤ 2 then y + 1 else y, month, doy - (153 * mp + 2) / 5 + 1)

/-- The date `z` days after 1970-01-01. -/
def civilFromDays (z : Int) : Int × Int × Int :=
  let e := yearOfEra ((z + 719468) % 146097)
  civilOfEra ((z + 719468) / 146097) e.1 e.2

example : daysFromCivil 2019 2 1 = 17928 ∧ civilFromDays 17928 = (2019, 2, 1) ∧
    civilFromDays (daysFromCivil 2020 2 28 + 1) = (2020, 2, 29) := by decide

theorem daysFromCivil_add_day (year month day d : Int) :
    daysFromCivil year month (day + d) = daysFromCivil year month day + d := by
  simp only [daysFromCivil]
  ring

theorem yearOfEra_spec {doe : Int} (h0 : 0 ≤ doe) (h1 : doe < 146097) :
    0 ≤ (yearOfEra doe).1 ∧ (yearOfEra doe).1 < 400 ∧ 0 ≤ (yearOfEra doe).2 ∧
      (yearOfEra doe).2 ≤ 365 ∧
      (yearOfEra doe).1 * 365 + (yearOfEra doe).1 / 4 - (yearOfEra doe).1 / 100 +
        (yearOfEra doe).2 = doe := by
  simp only [yearOfEra]
  have hc : 0 ≤ doe - 36524 * min (doe / 36524) 3 ∧ doe - 36524 * min (doe / 36524) 3 ≤ 36524 := by
    omega
  have hc' : 0 ≤ min (doe / 36524) 3 ∧ min (doe / 36524) 3 ≤ 3 := by omega
  generalize min (doe / 36524) 3 = century at *
  have hq : 0 ≤ (doe - 36524 * century) / 1461 ∧ (doe - 36524 * century) / 1461 ≤ 24 := by omega
  have hq' : 0 ≤ doe - 36524 * century - 1461 * ((doe - 36524 * century) / 1461) ∧
      doe - 36524 * century - 1461 * ((doe - 36524 * century) / 1461) ≤ 1460 := by omega
  generalize (doe - 36524 * century) / 1461 = cycle at *
  generalize hdoq : doe - 36524 * century - 1461 * cycle = doq at *
  have hy : 0 ≤ min (doq / 365) 3 ∧ min (doq / 365) 3 ≤ 3 := by omega
  have hy' : 0 ≤ doq - 365 * min (doq / 365) 3 ∧ doq - 365 * min (doq / 365) 3 ≤ 365 := by omega
  generalize min (doq / 365) 3 = year at *
  have h4 : (100 * century + 4 * cycle + year) / 4 = 25 * century + cycle := by omega
  have h100 : (100 * century + 4 * cycle + year) / 100 = century := by omega
  rw [h4, h100]
  omega

theorem daysFromCivil_civilOfEra {era yoe doy : Int} (hy0 : 0 ≤ yoe) (hy1 : yoe < 400)
    (hd0 : 0 ≤ doy) (hd1 : doy ≤ 365) :
    daysFromCivil (civilOfEra era yoe doy).1 (civilOfEra era yoe doy).2.1
        (civilOfEra era yoe doy).2.2 =
      era * 146097 + (yoe * 365 + yoe / 4 - yoe / 100 + doy) - 719468 := by
  simp only [civilOfEra, daysFromCivil]
  have hera : (yoe + era * 400) / 400 = era := by omega
  have hyoe : (yoe + era * 400) % 400 = yoe := by omega
  by_cases hmp : (5 * doy + 2) / 153 < 10
  · have hm : ¬ (5 * doy + 2) / 153 + 3 ≤ 2 := by omega
    simp only [hmp, hm, if_true, if_false, hera, hyoe]
    omega
  · have hm : (5 * doy + 2) / 153 - 9 ≤ 2 := by omega
    simp only [hmp, hm, if_true, if_false, Int.add_sub_cancel, hera, hyoe]
    omega

theorem daysFromCivil_civilFromDays (z : Int) :
    daysFromCivil (civilFromDays z).1 (civilFromDays z).2.1 (civilFromDays z).2.2 = z := by
  have h0 : 0 ≤ (z + 719468) % 146097 := Int.emod_nonneg _ (by omega)
  have h1 : (z + 719468) % 146097 < 146097 := Int.emod_lt_of_pos _ (by omega)
  obtain ⟨hy0, hy1, hd0, hd1, hdoe⟩ := yearOfEra_spec h0 h1
  rw [civilFromDays, daysFromCivil_civilOfEra hy0 hy1 hd0 hd1, hdoe]
  omega

/-! ## The fields -/

/-- The fields of a `Calendar`. -/
structure Calendar where
  year : Int
  month : Int
  dayOfMonth : Int
  hourOfDay : Int
  minute : Int
  second : Int
  millisecond : Int
  deriving DecidableEq, Repr

namespace Calendar

variable (zone : Int)

/-- The fields of the instant `t`, as `setTimeInMillis` computes them. -/
def ofMillis (t : Int) : Calendar :=
  let date := civilFromDays ((t + zone) / dayMs)
  let ms := (t + zone) % dayMs
  { year := date.1, month := date.2.1 - 1, dayOfMonth := date.2.2
    hourOfDay := ms / 3600000, minute := ms / 60000 % 60, second := ms / 1000 % 60
    millisecond := ms % 1000 }

/-- `getTimeInMillis`. -/
def toMillis (c : Calendar) : Int :=
  daysFromCivil (c.year + c.month / 12) (c.month % 12 + 1) c.dayOfMonth * dayMs +
    (c.hourOfDay * 3600000 + c.minute * 60000 + c.second * 1000 + c.millisecond) - zone

/-- The local day of an instant. -/
def localDay (t : Int) : Int := (t + zone) / dayMs

/-- The local time of day of an instant. -/
def timeOfDay (t : Int) : Int := (t + zone) % dayMs

theorem timeOfDay_nonneg (t : Int) : 0 ≤ timeOfDay zone t := Int.emod_nonneg _ (by decide)

theorem timeOfDay_lt (t : Int) : timeOfDay zone t < dayMs := Int.emod_lt_of_pos _ (by decide)

theorem localDay_mul_add (t : Int) : localDay zone t * dayMs + timeOfDay zone t - zone = t := by
  have h := Int.mul_ediv_add_emod (t + zone) dayMs
  rw [Int.mul_comm] at h
  unfold localDay timeOfDay
  omega

theorem localDay_mono {t t' : Int} (h : t ≤ t') : localDay zone t ≤ localDay zone t' :=
  Int.ediv_le_ediv (by decide) (by omega)

/-- The day begins at its midnight. -/
theorem le_localDay_iff {d t : Int} : d ≤ localDay zone t ↔ d * dayMs - zone ≤ t := by
  rw [localDay, Int.le_ediv_iff_mul_le (by decide)]
  omega

theorem localDay_add_dayMs (t : Int) : localDay zone (t + dayMs) = localDay zone t + 1 := by
  rw [localDay, show t + dayMs + zone = t + zone + 1 * dayMs by ring,
    Int.add_mul_ediv_right _ _ (by decide)]
  rfl

/-- A midnight is the time its day begins. -/
theorem eq_midnight {t : Int} (h : timeOfDay zone t = 0) : t = localDay zone t * dayMs - zone := by
  have ht := localDay_mul_add zone t
  omega

theorem clock_fields {ms : Int} :
    ms / 3600000 * 3600000 + ms / 60000 % 60 * 60000 + ms / 1000 % 60 * 1000 + ms % 1000 = ms := by
  omega

theorem month_bounds (era yoe doy : Int) (h0 : 0 ≤ doy) (h1 : doy ≤ 365) :
    1 ≤ (civilOfEra era yoe doy).2.1 ∧ (civilOfEra era yoe doy).2.1 ≤ 12 := by
  simp only [civilOfEra]
  split <;> omega

theorem civilFromDays_month (z : Int) :
    1 ≤ (civilFromDays z).2.1 ∧ (civilFromDays z).2.1 ≤ 12 := by
  have h0 : 0 ≤ (z + 719468) % 146097 := Int.emod_nonneg _ (by omega)
  have h1 : (z + 719468) % 146097 < 146097 := Int.emod_lt_of_pos _ (by omega)
  obtain ⟨-, -, hd0, hd1, -⟩ := yearOfEra_spec h0 h1
  exact month_bounds _ _ _ hd0 hd1

/-- The day `d` days after the date of `t`, as the lenient calendar counts it. -/
theorem daysFromCivil_ofMillis (t d : Int) :
    daysFromCivil ((ofMillis zone t).year + (ofMillis zone t).month / 12)
        ((ofMillis zone t).month % 12 + 1) ((ofMillis zone t).dayOfMonth + d) =
      localDay zone t + d := by
  have hm := civilFromDays_month ((t + zone) / dayMs)
  have hdiv : (ofMillis zone t).month / 12 = 0 := by
    simp only [ofMillis]
    omega
  have hmod : (ofMillis zone t).month % 12 + 1 = (civilFromDays ((t + zone) / dayMs)).2.1 := by
    simp only [ofMillis]
    omega
  rw [hdiv, hmod, Int.add_zero, daysFromCivil_add_day]
  exact congrArg (· + d) (daysFromCivil_civilFromDays _)

/-- **The fields of an instant give the instant back.** -/
theorem toMillis_ofMillis (t : Int) : toMillis zone (ofMillis zone t) = t := by
  have h := daysFromCivil_ofMillis zone t 0
  rw [Int.add_zero, Int.add_zero] at h
  rw [toMillis, h]
  simp only [ofMillis, clock_fields]
  exact localDay_mul_add zone t

/-- The date of `now`, `d` days later, with the hour, minute and second of `t`; the
millisecond stays that of `now`. -/
theorem toMillis_withTime (now t d : Int) :
    toMillis zone { ofMillis zone now with
        dayOfMonth := (ofMillis zone now).dayOfMonth + d
        hourOfDay := (ofMillis zone t).hourOfDay
        minute := (ofMillis zone t).minute
        second := (ofMillis zone t).second } =
      (localDay zone now + d) * dayMs +
        (timeOfDay zone t / 1000 * 1000 + timeOfDay zone now % 1000) - zone := by
  have h := daysFromCivil_ofMillis zone now d
  simp only [toMillis]
  rw [h]
  simp only [ofMillis, timeOfDay]
  omega

theorem localDay_of_eq {day ms t : Int} (h : t = day * dayMs + ms - zone) (h0 : 0 ≤ ms)
    (h1 : ms < dayMs) : localDay zone t = day := by
  subst h
  have : day * dayMs + ms - zone + zone = ms + day * dayMs := by omega
  rw [localDay, this, Int.add_mul_ediv_right _ _ (by decide), Int.ediv_eq_zero_of_lt h0 h1,
    Int.zero_add]

/-- Instants are compared by their days, and then by their times of day. -/
theorem lt_iff {t t' : Int} : t < t' ↔ localDay zone t < localDay zone t' ∨
    localDay zone t = localDay zone t' ∧ timeOfDay zone t < timeOfDay zone t' := by
  have ht := localDay_mul_add zone t
  have ht' := localDay_mul_add zone t'
  have h0 := timeOfDay_nonneg zone t
  have h1 := timeOfDay_lt zone t
  have h0' := timeOfDay_nonneg zone t'
  have h1' := timeOfDay_lt zone t'
  simp only [dayMs] at ht ht' h1 h1'
  omega

/-- The second of the local day. -/
def secondOfDay (t : Int) : Int := timeOfDay zone t / 1000

theorem eq_localDay_add (t : Int) : t = localDay zone t * dayMs + timeOfDay zone t - zone :=
  (localDay_mul_add zone t).symm

/-- The hour, minute and second say the second of the day. -/
theorem clock_eq_iff (t t' : Int) :
    ((ofMillis zone t).hourOfDay = (ofMillis zone t').hourOfDay ∧
      (ofMillis zone t).minute = (ofMillis zone t').minute ∧
      (ofMillis zone t).second = (ofMillis zone t').second) ↔
    secondOfDay zone t = secondOfDay zone t' := by
  have h0 := timeOfDay_nonneg zone t
  have h1 := timeOfDay_nonneg zone t'
  simp only [ofMillis, secondOfDay]
  change (timeOfDay zone t / 3600000 = timeOfDay zone t' / 3600000 ∧
    timeOfDay zone t / 60000 % 60 = timeOfDay zone t' / 60000 % 60 ∧
    timeOfDay zone t / 1000 % 60 = timeOfDay zone t' / 1000 % 60) ↔ _
  omega

theorem timeOfDay_of_eq {day ms t : Int} (h : t = day * dayMs + ms - zone) (h0 : 0 ≤ ms)
    (h1 : ms < dayMs) : timeOfDay zone t = ms := by
  have hday := localDay_of_eq zone h h0 h1
  have ht := eq_localDay_add zone t
  rw [hday] at ht
  omega

theorem localDay_midnight (day : Int) : localDay zone (day * dayMs - zone) = day := by
  have h : day * dayMs - zone = day * dayMs + 0 - zone := by ring
  exact localDay_of_eq zone h le_rfl (by decide)

theorem timeOfDay_midnight (day : Int) : timeOfDay zone (day * dayMs - zone) = 0 := by
  have h : day * dayMs - zone = day * dayMs + 0 - zone := by ring
  exact timeOfDay_of_eq zone h le_rfl (by decide)

end Calendar

end PetDev.Java
