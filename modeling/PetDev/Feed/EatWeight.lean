import PetDev.Feed.Feeder
import PetDev.Feed.PlanRun
import PetDev.Java.Float

/-!
# Portions and their weight

A feed of `count` portions should switch the motor off `12504 * count` milliseconds later, and
its callback should report `7.5 * count` rounded, whichever way the feed was asked for: at once
(`feedNow`) or by a plan (`FeedPlanBroadcast`, then `FeedPlanEvent`).

The delay is computed in `int`s, so it is right up to 171743 portions (`portioned_iff`).  The two
weights go through a `float` and a cast of a `long`, which make no difference up to there.
-/

namespace PetDev.Feed

open Java Android

/-! ## The weight -/

/-- `Math.round(count * 7.5)`. -/
def roundedWeight (count : Int) : Int := roundDouble (double (double count * 7.5))

/-- The `eatWeight` that the callback of a feed reports. -/
def Feeding.eatWeight : Feeding → String
  | .feedNow count => valueOf (truncate (float (roundedWeight count)))
  | .feedNowButton => valueOf (int (truncate (3 * 7.5) + 1))
  | .feedPlan mCount => valueOf (int (roundedWeight mCount))

theorem floor_weight (count : Int) : ⌊(7.5 : ℚ) * count + 1 / 2⌋ = (15 * count + 1) / 2 := by
  have hvalue : (7.5 : ℚ) * count + 1 / 2 = ((15 * count + 1 : Int) : ℚ) / ((2 : Nat) : ℚ) := by
    push_cast
    ring
  rw [hvalue, Rat.floor_intCast_div_natCast]
  rfl

/-- The `double`s on the way are exact. -/
theorem roundedWeight_eq {count : Int} (h : -2 ^ 31 ≤ count) (h' : count < 2 ^ 31) :
    roundedWeight count = ⌊(7.5 : ℚ) * count + 1 / 2⌋ := by
  have hcount : |count| < 2 ^ 53 := abs_lt.mpr ⟨by omega, by omega⟩
  have hproduct : (count : ℚ) * 7.5 = ((15 * count : Int) : ℚ) / 2 := by
    push_cast
    ring
  have habs : |15 * count| < 2 ^ 53 := abs_lt.mpr ⟨by omega, by omega⟩
  unfold roundedWeight
  rw [double_intCast hcount, hproduct, double_half habs, ← hproduct, mul_comm, roundDouble,
    floor_weight]
  exact saturate_of_range (by omega) (by omega)

/-- Both ways report the same, as long as a `float` holds it. -/
theorem eatWeight_eq {count : Int} (h0 : 0 < count) (h : count ≤ 171743) :
    (Feeding.feedNow count).eatWeight = valueOf ⌊(7.5 : ℚ) * count + 1 / 2⌋ ∧
      (Feeding.feedPlan count).eatWeight = valueOf ⌊(7.5 : ℚ) * count + 1 / 2⌋ := by
  have hround := roundedWeight_eq (show -2 ^ 31 ≤ count by omega) (by omega)
  rw [floor_weight] at hround ⊢
  have hfloat : float (roundedWeight count) = ((15 * count + 1) / 2 : Int) := by
    rw [hround]
    exact float_intCast (abs_lt.mpr ⟨by omega, by omega⟩)
  constructor
  · rw [Feeding.eatWeight, hfloat, truncate_intCast (by omega) (by omega)]
  · rw [Feeding.eatWeight, hround, int_of_range (by omega) (by omega)]

/-! ## The delay -/

/-- Both ways compute the same delay, without overflow only up to 171743 portions. -/
theorem delay_eq_iff {count : Int} (h0 : 0 < count) :
    int (int (count * 12) * 1042) = 12504 * count ↔ count ≤ 171743 := by
  constructor
  · intro h
    have hlt : int (int (count * 12) * 1042) < 2 ^ 31 := by
      unfold int
      omega
    omega
  · intro h
    rw [int_of_range (x := count * 12) (by omega) (by omega), int_of_range (by omega) (by omega)]
    omega

/-! ## Both ways of feeding -/

/-- What a feed of `count` portions, given as `sCount`, should do, whichever way it is asked for. -/
structure Portioned (sCount : Option String) (count : Int) : Prop where
  now : ∀ s : Feeder, ∃ t, s.step (.feedNow sCount) = some t ∧ t.motor = true ∧
    t.callbacks = s.callbacks ++ [⟨s.now + 12504 * count, .feedNow count⟩]
  planned : onReceive ACTION_FEED_PLAN sCount = some count ∧
    ∀ s : Feeder, ∃ t, s.step (.feedPlanEvent count) = some t ∧ t.motor = true ∧
      t.callbacks = s.callbacks ++ [⟨s.now + 12504 * count, .feedPlan count⟩]
  weight : (Feeding.feedNow count).eatWeight = valueOf ⌊(7.5 : ℚ) * count + 1 / 2⌋ ∧
    (Feeding.feedPlan count).eatWeight = valueOf ⌊(7.5 : ℚ) * count + 1 / 2⌋

theorem feed_eq (f : Feeding) (s : Feeder) :
    (s.feed f).motor = true ∧
      (s.feed f).callbacks = s.callbacks ++ [⟨s.now + max f.delay 0, f⟩] := ⟨rfl, rfl⟩

/-- **Both ways of feeding are right exactly up to 171743 portions.** -/
theorem portioned_iff {sCount : Option String} {count : Int} (hcount : parseInt sCount = some count)
    (h0 : 0 < count) : Portioned sCount count ↔ count ≤ 171743 := by
  have hnow : ∀ s : Feeder, s.step (.feedNow sCount) = some (s.feed (.feedNow count)) := by
    intro s
    simp only [Feeder.step, Feeder.feedNow, Feeder.startedBy, hcount]
    rw [if_pos h0]
  constructor
  · intro h
    obtain ⟨t, ht, -, hcallbacks⟩ := h.now Feeder.start
    obtain rfl := Option.some.inj ((hnow Feeder.start).symm.trans ht)
    rw [(feed_eq _ _).2] at hcallbacks
    have hdue : Feeder.start.now + max (Feeding.feedNow count).delay 0 =
        Feeder.start.now + 12504 * count := by
      simpa using hcallbacks
    rw [← delay_eq_iff h0]
    have hdelay : max (int (int (count * 12) * 1042)) 0 = 12504 * count := add_left_cancel hdue
    omega
  · intro h
    have hdelay : max (int (int (count * 12) * 1042)) 0 = 12504 * count := by
      rw [(delay_eq_iff h0).mpr h]
      omega
    have hdelayNow : max (Feeding.feedNow count).delay 0 = 12504 * count := hdelay
    have hdelayPlan : max (Feeding.feedPlan count).delay 0 = 12504 * count := hdelay
    refine ⟨fun s => ⟨_, hnow s, rfl, ?_⟩, ⟨?_, fun s => ⟨_, rfl, rfl, ?_⟩⟩, eatWeight_eq h0 h⟩
    · rw [(feed_eq _ _).2, hdelayNow]
    · rw [onReceive, hcount]
      rfl
    · rw [(feed_eq _ _).2, hdelayPlan]

theorem portioned_iff_three : parseInt (some "3") = some 3 ∧ (0 : Int) < 3 ∧
    (Portioned (some "3") 3 ↔ (3 : Int) ≤ 171743) :=
  ⟨by decide +kernel, by decide, portioned_iff (by decide +kernel) (by decide)⟩

/-- The delay of 171744 portions wraps around. -/
theorem not_forall_portioned : ¬ ∀ (sCount : Option String) (count : Int),
    parseInt sCount = some count → 0 < count → Portioned sCount count := by
  intro h
  have hparse : parseInt (some "171744") = some 171744 := by decide +kernel
  obtain ⟨-, hplanned⟩ := (h (some "171744") 171744 hparse (by decide)).planned
  obtain ⟨t, ht, -, hcallbacks⟩ := hplanned Feeder.start
  obtain rfl := Option.some.inj ht
  have hdue : Feeder.start.now + max (Feeding.feedPlan 171744).delay 0 =
      Feeder.start.now + 12504 * 171744 := by
    simpa [feed_eq] using hcallbacks
  exact absurd hdue (by decide)

end PetDev.Feed
