import PetDev.Java.Calendar

/-!
# The order of the months

`monthNumber` counts the months of the calendar.  A day that is not earlier is not in an earlier
month (`monthNumber_le`): the years that `civilFromDays` counts begin in March, each where the one
before it ends, and the months of such a year begin one after the other.

A `TimeZone` gives the offset from UTC of each instant, and `zone.fields` what a `Calendar` has in
its fields.  Where the local date does not go back, neither does the month
(`TimeZone.monthNumber_le`).
-/

namespace PetDev.Java

/-! ## Years that begin in March -/

/-- The days from March 1 of year `0` to March 1 of year `y`. -/
def startOfYear (y : Int) : Int := 365 * y + y / 4 - y / 100 + y / 400

theorem startOfYear_le {y y' : Int} (h : y ≤ y') : startOfYear y ≤ startOfYear y' := by
  unfold startOfYear
  omega

/-- An era has 400 years. -/
theorem startOfYear_add_era (era y : Int) :
    startOfYear (era * 400 + y) = era * 146097 + startOfYear y := by
  have h4 : (era * 400 + y) / 4 = era * 100 + y / 4 := by omega
  have h100 : (era * 400 + y) / 100 = era * 4 + y / 100 := by omega
  have h400 : (era * 400 + y) / 400 = era + y / 400 := by omega
  unfold startOfYear
  rw [h4, h100, h400]
  ring

/-- The year of the day `z`, from March on. -/
def marchYear (z : Int) : Int :=
  (z + 719468) / 146097 * 400 + (yearOfEra ((z + 719468) % 146097)).1

/-- The days of that year before the day `z`. -/
def dayOfYear (z : Int) : Int := (yearOfEra ((z + 719468) % 146097)).2

/-- The day is before the year that follows. -/
theorem lt_next_yearOfEra {doe : Int} (h0 : 0 ≤ doe) (h1 : doe < 146097) :
    doe < ((yearOfEra doe).1 + 1) * 365 + ((yearOfEra doe).1 + 1) / 4 -
      ((yearOfEra doe).1 + 1) / 100 + ((yearOfEra doe).1 + 1) / 400 := by
  simp only [yearOfEra]
  have hc : 0 ≤ min (doe / 36524) 3 ∧ min (doe / 36524) 3 ≤ 3 := by omega
  have hdoe : doe ≤ 36524 * min (doe / 36524) 3 + 36523 ∨
      min (doe / 36524) 3 = 3 ∧ doe ≤ 36524 * min (doe / 36524) 3 + 36524 := by omega
  have hdoe0 : 36524 * min (doe / 36524) 3 ≤ doe := by omega
  generalize min (doe / 36524) 3 = century at *
  have hq : 0 ≤ (doe - 36524 * century) / 1461 ∧ (doe - 36524 * century) / 1461 ≤ 24 := by omega
  have hdoq : 0 ≤ doe - 36524 * century - 1461 * ((doe - 36524 * century) / 1461) ∧
      doe - 36524 * century - 1461 * ((doe - 36524 * century) / 1461) ≤ 1460 := by omega
  generalize (doe - 36524 * century) / 1461 = cycle at *
  have hy : 0 ≤ min ((doe - 36524 * century - 1461 * cycle) / 365) 3 ∧
      min ((doe - 36524 * century - 1461 * cycle) / 365) 3 ≤ 3 := by omega
  have hdoy : doe - 36524 * century - 1461 * cycle <
        365 * min ((doe - 36524 * century - 1461 * cycle) / 365) 3 + 365 ∨
      min ((doe - 36524 * century - 1461 * cycle) / 365) 3 = 3 := by omega
  generalize min ((doe - 36524 * century - 1461 * cycle) / 365) 3 = year at *
  by_cases hlast : cycle = 24 ∧ year = 3
  · obtain ⟨rfl, rfl⟩ := hlast
    have h100 : (100 * century + 4 * 24 + 3 + 1) / 100 = century + 1 := by omega
    omega
  · -- no century ends with this year
    have h4 : (100 * century + 4 * cycle + year + 1) / 4 =
        25 * century + cycle + (year + 1) / 4 := by omega
    have h100 : (100 * century + 4 * cycle + year + 1) / 100 = century := by omega
    have h400 : 0 ≤ (100 * century + 4 * cycle + year + 1) / 400 := by omega
    rw [h4, h100]
    omega

/-- **A day is in its year.** -/
theorem marchYear_spec (z : Int) :
    startOfYear (marchYear z) + dayOfYear z = z + 719468 ∧
      z + 719468 < startOfYear (marchYear z + 1) := by
  have h0 : 0 ≤ (z + 719468) % 146097 := Int.emod_nonneg _ (by decide)
  have h1 : (z + 719468) % 146097 < 146097 := Int.emod_lt_of_pos _ (by decide)
  have hera := Int.mul_ediv_add_emod (z + 719468) 146097
  obtain ⟨hy0, hy1, -, -, hspec⟩ := yearOfEra_spec h0 h1
  have hnext := lt_next_yearOfEra h0 h1
  unfold marchYear dayOfYear
  rw [add_assoc _ _ 1, startOfYear_add_era, startOfYear_add_era]
  unfold startOfYear
  constructor
  · omega
  · omega

theorem dayOfYear_bounds (z : Int) : 0 ≤ dayOfYear z ∧ dayOfYear z ≤ 365 := by
  have h0 : 0 ≤ (z + 719468) % 146097 := Int.emod_nonneg _ (by decide)
  have h1 : (z + 719468) % 146097 < 146097 := Int.emod_lt_of_pos _ (by decide)
  obtain ⟨-, -, hd0, hd1, -⟩ := yearOfEra_spec h0 h1
  exact ⟨hd0, hd1⟩

theorem marchYear_le {z z' : Int} (h : z ≤ z') : marchYear z ≤ marchYear z' := by
  by_contra hlt
  have hnext : startOfYear (marchYear z' + 1) ≤ startOfYear (marchYear z) :=
    startOfYear_le (by omega)
  have hz := (marchYear_spec z).1
  have hz' := (marchYear_spec z').2
  have hd := (dayOfYear_bounds z).1
  omega

/-! ## Months -/

/-- The number of the month of a date. -/
def monthOfDay (z : Int) : Int := 12 * (civilFromDays z).1 + (civilFromDays z).2.1

/-- The years of the dates change with January, and the others with March. -/
theorem civilOfEra_month {era yoe doy : Int} (h0 : 0 ≤ doy) (h1 : doy ≤ 365) :
    12 * (civilOfEra era yoe doy).1 + (civilOfEra era yoe doy).2.1 =
      12 * (era * 400 + yoe) + (5 * doy + 2) / 153 + 3 := by
  simp only [civilOfEra]
  by_cases hmp : (5 * doy + 2) / 153 < 10
  · have hm : ¬ (5 * doy + 2) / 153 + 3 ≤ 2 := by omega
    simp only [hmp, hm, if_true, if_false]
    ring
  · have hm : (5 * doy + 2) / 153 - 9 ≤ 2 := by omega
    simp only [hmp, hm, if_true, if_false]
    ring

theorem monthOfDay_eq (z : Int) :
    monthOfDay z = 12 * marchYear z + (5 * dayOfYear z + 2) / 153 + 3 :=
  civilOfEra_month (dayOfYear_bounds z).1 (dayOfYear_bounds z).2

theorem monthOfDay_le {z z' : Int} (h : z ≤ z') : monthOfDay z ≤ monthOfDay z' := by
  have hd := dayOfYear_bounds z
  have hd' := dayOfYear_bounds z'
  have hz := (marchYear_spec z).1
  have hz' := (marchYear_spec z').1
  rw [monthOfDay_eq, monthOfDay_eq]
  rcases (marchYear_le h).lt_or_eq with hyear | hyear
  · omega
  · rw [hyear] at hz ⊢
    omega

namespace Calendar

/-- The number of the month of a `Calendar`. -/
def monthNumber (c : Calendar) : Int := 12 * c.year + c.month

theorem monthNumber_ofMillis (zone t : Int) :
    (ofMillis zone t).monthNumber = monthOfDay (localDay zone t) - 1 := by
  unfold monthNumber monthOfDay ofMillis localDay
  simp only
  omega

end Calendar

/-- The offsets of a zone from UTC.  A change of the offset may take the local date back. -/
structure TimeZone where
  getOffset : Int → Int

namespace TimeZone

/-- The fields of a `Calendar` of this zone that is set to `t`. -/
def fields (zone : TimeZone) (t : Int) : Calendar := Calendar.ofMillis (zone.getOffset t) t

/-- The number of the local date. -/
def localDay (zone : TimeZone) (t : Int) : Int := Calendar.localDay (zone.getOffset t) t

theorem monthNumber_le {zone : TimeZone} {t t' : Int} (h : zone.localDay t ≤ zone.localDay t') :
    (zone.fields t).monthNumber ≤ (zone.fields t').monthNumber := by
  have hmonth := monthOfDay_le h
  unfold localDay at hmonth
  unfold fields
  rw [Calendar.monthNumber_ofMillis, Calendar.monthNumber_ofMillis]
  omega

end TimeZone

end PetDev.Java
