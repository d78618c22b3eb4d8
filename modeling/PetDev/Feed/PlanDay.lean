import PetDev.Feed.FeedAlarmManager
import PetDev.Lib.StepMachine

/-!
# Plans across midnight

The alarms of the plans over any number of days.  A plan is added at once when its
message arrives (`HomeActivity.onMessageEvent(FeedPlan)`), and the whole list of plans
is added again after midnight: the alarm `SETZEROFEED` makes `ZeroAlarmBroadcast` ask
for the plans, and the answer is added plan by plan on the main thread (`todo` holds
what the loop still has to add).  The clock never goes back, and the zone is a constant offset
from UTC, without daylight saving.

An **occurrence** is a plan time on a local day.  `atMostOnce_iff` says exactly when no
occurrence fires twice, or has two alarms pending.  The failing step is the future
branch: after midnight it arms today's alarm under the plan's own request code, while
the alarm that the past branch set the day before, under request code `0`, is still
pending for the same occurrence.
-/

namespace PetDev.Feed

open Java Android FeedAlarmManager

/-! ## The machine -/

/-- `ZeroAlarmBroadcast.getPlan`: whether a request is made, from the field
`mGetPlanRequest` (`none` for `null`, else whether that request is finished). -/
def getPlan (mGetPlanRequest : Option Bool) : Bool :=
  match mGetPlanRequest with
  | some true => false
  | _ => true

structure DayState where
  manager : FeedAlarmManager
  now : Int
  inFlight : Nat
  todo : List FeedPlan
  fired : List (Int × Int)

inductive DayEvent where
  | feedPlan (clock : Clock) (feedPlan : FeedPlan)
  | setZeroFeed (now : Int)
  | onSuccess (now : Int) (result : Option (List FeedPlan))
  | onError (now : Int)
  | next (clock : Clock)
  | deliver (now : Int) (pi : PendingIntent)

/-- The readings of a call that starts at `now`, in order. -/
def Clock.From (now : Int) (clock : Clock) : Prop :=
  now ≤ clock.isFuture ∧ clock.isFuture ≤ clock.today ∧ clock.today ≤ clock.isPast ∧
    clock.isPast ≤ clock.tomorrow

instance (now : Int) (clock : Clock) : Decidable (clock.From now) := by
  unfold Clock.From
  infer_instance

namespace DayState

def start (now : Int) : DayState := ⟨FeedAlarmManager.new, now, 0, [], []⟩

def add (zone : Int) (clock : Clock) (feedPlan : FeedPlan) (s : DayState) : DayState :=
  { s with
    manager := s.manager.addAlarmTask zone clock feedPlan
    now := clock.tomorrow }

def deliver (zone now : Int) (pi : PendingIntent) (s : DayState) : Option DayState :=
  match s.manager.android.alarms pi with
  | some a =>
    if a.triggerAt ≤ now then
      some { s with
        manager := { s.manager with android := s.manager.android.deliver pi }
        now := now
        fired := (a.owner, Calendar.localDay zone a.triggerAt) :: s.fired }
    else none
  | none => none

def step (zone : Int) (s : DayState) : DayEvent → Option DayState
  | .feedPlan clock feedPlan =>
    if s.todo = [] ∧ clock.From s.now then some (s.add zone clock feedPlan) else none
  | .setZeroFeed now =>
    -- the receiver of the manifest is a new object for every broadcast
    if s.todo = [] ∧ s.now ≤ now then
      some { s with now := now, inFlight := s.inFlight + if getPlan none then 1 else 0 }
    else none
  | .onSuccess now result =>
    if s.todo = [] ∧ s.now ≤ now ∧ 0 < s.inFlight then
      some { s with now := now, inFlight := s.inFlight - 1, todo := result.getD [] }
    else none
  | .onError now =>
    if s.todo = [] ∧ s.now ≤ now ∧ 0 < s.inFlight then
      some { s with now := now, inFlight := s.inFlight - 1 }
    else none
  | .next clock =>
    match s.todo with
    | feedPlan :: rest =>
      if clock.From s.now then some { s.add zone clock feedPlan with todo := rest } else none
    | [] => none
  | .deliver now pi => if s.todo = [] ∧ s.now ≤ now then s.deliver zone now pi else none

end DayState

/-- The machine, from the instant `now` on. -/
def dayMachine (zone now : Int) : StepMachine DayState DayEvent :=
  ⟨DayState.start now, DayState.step zone⟩

/-! ## What a step can do -/

namespace DayState

theorem deliver_eq_some {zone now : Int} {pi : PendingIntent} {s t : DayState}
    (h : s.deliver zone now pi = some t) :
    ∃ a, s.manager.android.alarms pi = some a ∧ a.triggerAt ≤ now ∧
      t = { s with
        manager := { s.manager with android := s.manager.android.deliver pi }
        now := now
        fired := (a.owner, Calendar.localDay zone a.triggerAt) :: s.fired } := by
  unfold deliver at h
  split at h
  · next a ha =>
    split at h
    · next hdue => exact ⟨a, ha, hdue, (Option.some.inj h).symm⟩
    · cases h
  · cases h

/-- A step adds a plan, delivers an alarm, or only moves the clock and the request. -/
theorem step_cases {zone : Int} {s t : DayState} {e : DayEvent} (h : s.step zone e = some t) :
    (∃ clock feedPlan, clock.From s.now ∧ t.manager = s.manager.addAlarmTask zone clock feedPlan ∧
      t.now = clock.tomorrow ∧ t.fired = s.fired ∧
      (e = .feedPlan clock feedPlan ∨ (e = .next clock ∧ s.todo.head? = some feedPlan))) ∨
    (∃ now pi, e = .deliver now pi ∧ s.now ≤ now ∧ s.deliver zone now pi = some t) ∨
    (t.manager = s.manager ∧ s.now ≤ t.now ∧ t.fired = s.fired ∧
      (∀ clock feedPlan, e ≠ .feedPlan clock feedPlan) ∧ ∀ clock, e ≠ .next clock) := by
  cases e with
  | feedPlan clock feedPlan =>
    obtain ⟨⟨-, hclock⟩, h⟩ := Option.ite_none_right_eq_some.mp h
    obtain rfl := Option.some.inj h
    exact Or.inl ⟨clock, feedPlan, hclock, rfl, rfl, rfl, Or.inl rfl⟩
  | setZeroFeed now =>
    obtain ⟨⟨-, hnow⟩, h⟩ := Option.ite_none_right_eq_some.mp h
    obtain rfl := Option.some.inj h
    exact Or.inr (Or.inr ⟨rfl, hnow, rfl, nofun, nofun⟩)
  | onSuccess now result =>
    obtain ⟨⟨-, hnow, -⟩, h⟩ := Option.ite_none_right_eq_some.mp h
    obtain rfl := Option.some.inj h
    exact Or.inr (Or.inr ⟨rfl, hnow, rfl, nofun, nofun⟩)
  | onError now =>
    obtain ⟨⟨-, hnow, -⟩, h⟩ := Option.ite_none_right_eq_some.mp h
    obtain rfl := Option.some.inj h
    exact Or.inr (Or.inr ⟨rfl, hnow, rfl, nofun, nofun⟩)
  | next clock =>
    simp only [step] at h
    split at h
    · next feedPlan rest htodo =>
      obtain ⟨hclock, h⟩ := Option.ite_none_right_eq_some.mp h
      obtain rfl := Option.some.inj h
      exact Or.inl ⟨clock, feedPlan, hclock, rfl, rfl, rfl, Or.inr ⟨rfl, by rw [htodo]; rfl⟩⟩
    · cases h
  | deliver now pi =>
    obtain ⟨⟨-, hnow⟩, h⟩ := Option.ite_none_right_eq_some.mp h
    exact Or.inr (Or.inl ⟨now, pi, rfl, hnow, h⟩)

/-! ## What holds in every state -/

/-- The bookkeeping.  An alarm sits under one of the two `PendingIntent`s of its plan; it is
due tomorrow at the latest, and today at the latest outside the past branch's own. -/
structure Inv (zone : Int) (s : DayState) : Prop where
  nullTasks : s.manager.NullTasks
  intent : ∀ pi a, s.manager.android.alarms pi = some a →
    pi = pastIntent ∨ ∃ p : FeedPlan, p.time = a.owner ∧ pi = futureIntent p
  due : ∀ pi a, s.manager.android.alarms pi = some a →
    Calendar.localDay zone a.triggerAt ≤ Calendar.localDay zone s.now + 1 ∧
      (pi ≠ pastIntent → Calendar.localDay zone a.triggerAt ≤ Calendar.localDay zone s.now)
  fired : ∀ o ∈ s.fired, o.2 ≤ Calendar.localDay zone s.now

theorem inv_start (zone now : Int) : Inv zone (start now) := ⟨nullTasks_new, nofun, nofun, nofun⟩

theorem Inv.tick {zone : Int} {s t : DayState} (h : s.Inv zone) (hm : t.manager = s.manager)
    (hnow : s.now ≤ t.now) (hf : t.fired = s.fired) : t.Inv zone := by
  have hday := Calendar.localDay_mono zone hnow
  refine ⟨hm ▸ h.nullTasks, ?_, ?_, ?_⟩
  · rw [hm]
    exact h.intent
  · rw [hm]
    intro pi a ha
    obtain ⟨h1, h2⟩ := h.due pi a ha
    exact ⟨by omega, fun hpi => (h2 hpi).trans hday⟩
  · rw [hf]
    exact fun o ho => (h.fired o ho).trans hday

theorem Inv.add {zone : Int} {s t : DayState} (h : s.Inv zone) {clock : Clock}
    {feedPlan : FeedPlan} (hclock : clock.From s.now)
    (hm : t.manager = s.manager.addAlarmTask zone clock feedPlan) (hnow : t.now = clock.tomorrow)
    (hf : t.fired = s.fired) : t.Inv zone := by
  obtain ⟨hc1, hc2, hc3, hc4⟩ := hclock
  have hday := Calendar.localDay_mono zone (show s.now ≤ clock.tomorrow by omega)
  have htoday := Calendar.localDay_mono zone (show clock.today ≤ clock.tomorrow by omega)
  refine ⟨hm ▸ nullTasks_addAlarmTask h.nullTasks zone clock feedPlan, ?_, ?_, ?_⟩
  · rw [hm]
    intro pi a ha
    rcases (addAlarmTask_alarms_eq_some h.nullTasks).mp ha with ⟨harm, howner⟩ | ⟨-, ha⟩
    · rcases armedAt_cases harm with ⟨-, hpi, -⟩ | ⟨-, hpi, -⟩
      · exact Or.inl hpi
      · exact Or.inr ⟨feedPlan, howner.symm, hpi⟩
    · exact h.intent pi a ha
  · rw [hm, hnow]
    intro pi a ha
    rcases (addAlarmTask_alarms_eq_some h.nullTasks).mp ha with ⟨harm, -⟩ | ⟨-, ha⟩
    · rcases armedAt_cases harm with ⟨-, hpi, hd⟩ | ⟨-, -, -, hd⟩
      · exact ⟨by omega, fun hne => absurd hpi hne⟩
      · exact ⟨by omega, fun _ => by omega⟩
    · obtain ⟨h1, h2⟩ := h.due pi a ha
      exact ⟨by omega, fun hpi => (h2 hpi).trans hday⟩
  · rw [hf, hnow]
    exact fun o ho => (h.fired o ho).trans hday

theorem Inv.deliver {zone now : Int} {pi : PendingIntent} {s t : DayState} (h : s.Inv zone)
    (hnow : s.now ≤ now) (ht : s.deliver zone now pi = some t) : t.Inv zone := by
  obtain ⟨a, ha, hdue, rfl⟩ := deliver_eq_some ht
  have hday := Calendar.localDay_mono zone hnow
  refine ⟨h.nullTasks, fun pi' a' ha' => ?_, fun pi' a' ha' => ?_, fun o ho => ?_⟩
  · exact h.intent pi' a' (AlarmTable.deliver_alarms_eq_some.mp ha').2
  · obtain ⟨h1, h2⟩ := h.due pi' a' (AlarmTable.deliver_alarms_eq_some.mp ha').2
    exact ⟨by dsimp only; omega, fun hpi => (h2 hpi).trans hday⟩
  · rcases List.mem_cons.mp ho with rfl | ho
    · exact Calendar.localDay_mono zone hdue
    · exact (h.fired o ho).trans hday

theorem Inv.step {zone : Int} {s t : DayState} {e : DayEvent} (h : s.Inv zone)
    (ht : s.step zone e = some t) : t.Inv zone := by
  rcases step_cases ht with ⟨clock, p, hclock, hm, hnow, hf, -⟩ | ⟨now, pi, -, hnow, hd⟩ |
    ⟨hm, hnow, hf, -⟩
  · exact h.add hclock hm hnow hf
  · exact h.deliver hnow hd
  · exact h.tick hm hnow hf

/-! ## At most one feed for an occurrence -/

/-- No occurrence has two alarms pending, none has fired twice, and none that has fired has
an alarm pending. -/
structure AtMostOnce (zone : Int) (s : DayState) : Prop where
  pending : ∀ pi pi' a a', s.manager.android.alarms pi = some a →
    s.manager.android.alarms pi' = some a' → a.owner = a'.owner →
    Calendar.localDay zone a.triggerAt = Calendar.localDay zone a'.triggerAt → pi = pi'
  fired : s.fired.Nodup
  once : ∀ pi a, s.manager.android.alarms pi = some a →
    (a.owner, Calendar.localDay zone a.triggerAt) ∉ s.fired

/-- When a call keeps every occurrence single.  If it takes the future branch, then the alarm
that the past branch left under request code `0` is not one of the same plan for today (unless
this call replaces it), and the plan has not fired today (unless the past branch of this call
takes over its request code). -/
structure KeepsOnce (zone : Int) (clock : Clock) (feedPlan : FeedPlan) (s : DayState) : Prop where
  stale : isFuture zone clock.isFuture (targetTime feedPlan) = true →
    ¬ Uses zone clock feedPlan pastIntent → ∀ a, s.manager.android.alarms pastIntent = some a →
    a.owner = feedPlan.time →
    Calendar.localDay zone a.triggerAt ≠ Calendar.localDay zone clock.today
  fired : isFuture zone clock.isFuture (targetTime feedPlan) = true →
    (isPast zone clock.isPast (targetTime feedPlan) = true → futureIntent feedPlan ≠ pastIntent) →
    (feedPlan.time, Calendar.localDay zone clock.today) ∉ s.fired

/-- The condition on a step: on the plan it adds, if it adds one. -/
def StepKeepsOnce (zone : Int) (s : DayState) : DayEvent → Prop
  | .feedPlan clock feedPlan => KeepsOnce zone clock feedPlan s
  | .next clock => ∀ feedPlan ∈ s.todo.head?, KeepsOnce zone clock feedPlan s
  | _ => True

/-- A new alarm and one that stays are not for the same occurrence. -/
theorem KeepsOnce.fresh {zone : Int} {s : DayState} (hi : s.Inv zone) {clock : Clock}
    {feedPlan : FeedPlan} (hclock : clock.From s.now) (hk : KeepsOnce zone clock feedPlan s)
    {pi pi' : PendingIntent} {t : Int} {a : Alarm Int}
    (harm : armedAt zone clock feedPlan pi = some t) (hu : ¬ Uses zone clock feedPlan pi')
    (ha : s.manager.android.alarms pi' = some a) (howner : a.owner = feedPlan.time) :
    Calendar.localDay zone t ≠ Calendar.localDay zone a.triggerAt := by
  obtain ⟨hc1, hc2, hc3, hc4⟩ := hclock
  have hday := Calendar.localDay_mono zone (show s.now ≤ clock.tomorrow by omega)
  obtain ⟨hdue1, hdue2⟩ := hi.due pi' a ha
  rcases armedAt_cases harm with ⟨hP, -, hd⟩ | ⟨hF, -, -, hd⟩
  · -- the past branch owns request code `0`, so the other alarm is due today at the latest
    have hne : pi' ≠ pastIntent := fun h => hu (Or.inr ⟨hP, h⟩)
    have := hdue2 hne
    omega
  · rcases hi.intent pi' a ha with hpi | ⟨p, hp, hpi⟩
    · subst hpi
      rw [hd]
      exact (hk.stale hF hu a ha howner).symm
    · exact absurd (Or.inl ⟨hF, hpi.trans (futureIntent_congr (hp.trans howner))⟩) hu

theorem AtMostOnce.add {zone : Int} {s t : DayState} (hi : s.Inv zone) (h : s.AtMostOnce zone)
    {clock : Clock} {feedPlan : FeedPlan} (hclock : clock.From s.now)
    (hm : t.manager = s.manager.addAlarmTask zone clock feedPlan) (hf : t.fired = s.fired)
    (hk : KeepsOnce zone clock feedPlan s) : t.AtMostOnce zone := by
  have hc := hclock
  obtain ⟨hc1, hc2, hc3, hc4⟩ := hc
  have hday := Calendar.localDay_mono zone (show s.now ≤ clock.tomorrow by omega)
  have htoday := Calendar.localDay_mono zone (show clock.today ≤ clock.tomorrow by omega)
  refine ⟨?_, hf ▸ h.fired, ?_⟩
  · rw [hm]
    intro pi pi' a a' ha ha' howner hd
    rcases (addAlarmTask_alarms_eq_some hi.nullTasks).mp ha with ⟨harm, ho⟩ | ⟨hu, ha⟩ <;>
      rcases (addAlarmTask_alarms_eq_some hi.nullTasks).mp ha' with ⟨harm', ho'⟩ | ⟨hu', ha'⟩
    · rcases armedAt_cases harm with ⟨-, hpi, hd1⟩ | ⟨-, hpi, -, hd1⟩ <;>
        rcases armedAt_cases harm' with ⟨-, hpi', hd2⟩ | ⟨-, hpi', -, hd2⟩
      · exact hpi.trans hpi'.symm
      · omega
      · omega
      · exact hpi.trans hpi'.symm
    · exact absurd hd (hk.fresh hi hclock harm hu' ha' (howner.symm.trans ho))
    · exact absurd hd.symm (hk.fresh hi hclock harm' hu ha (howner.trans ho'))
    · exact h.pending pi pi' a a' ha ha' howner hd
  · rw [hm, hf]
    intro pi a ha
    rcases (addAlarmTask_alarms_eq_some hi.nullTasks).mp ha with ⟨harm, ho⟩ | ⟨-, ha⟩
    · rw [ho]
      rcases armedAt_cases harm with ⟨-, -, hd⟩ | ⟨hF, hpi, hne, hd⟩
      · intro hmem
        have := hi.fired _ hmem
        dsimp only at this
        omega
      · rw [hd]
        exact hk.fired hF (fun hP => hpi ▸ hne hP)
    · exact h.once pi a ha

/-- **The condition is necessary.** -/
theorem keepsOnce_of_atMostOnce {zone : Int} {s t : DayState} (hi : s.Inv zone) {clock : Clock}
    {feedPlan : FeedPlan} (hm : t.manager = s.manager.addAlarmTask zone clock feedPlan)
    (hf : t.fired = s.fired) (h : t.AtMostOnce zone) : KeepsOnce zone clock feedPlan s where
  stale hF hu a ha howner hd := by
    have hnP : isPast zone clock.isPast (targetTime feedPlan) = true →
        futureIntent feedPlan ≠ pastIntent := fun hP => absurd (Or.inr ⟨hP, rfl⟩) hu
    have h1 : t.manager.android.alarms (futureIntent feedPlan) =
        some ⟨getTodayTaskTime zone clock.today (targetTime feedPlan), feedPlan.time⟩ := by
      rw [hm]
      exact (addAlarmTask_alarms_eq_some hi.nullTasks).mpr (Or.inl ⟨armedAt_future hF hnP, rfl⟩)
    have h2 : t.manager.android.alarms pastIntent = some a := by
      rw [hm]
      exact (addAlarmTask_alarms_eq_some hi.nullTasks).mpr (Or.inr ⟨hu, ha⟩)
    have := h.pending _ _ _ _ h1 h2 howner.symm
      ((localDay_getTodayTaskTime zone _ _).trans hd.symm)
    exact hu (Or.inl ⟨hF, this.symm⟩)
  fired hF hne := by
    have h1 : t.manager.android.alarms (futureIntent feedPlan) =
        some ⟨getTodayTaskTime zone clock.today (targetTime feedPlan), feedPlan.time⟩ := by
      rw [hm]
      exact (addAlarmTask_alarms_eq_some hi.nullTasks).mpr (Or.inl ⟨armedAt_future hF hne, rfl⟩)
    have := h.once _ _ h1
    rwa [localDay_getTodayTaskTime, hf] at this

theorem AtMostOnce.deliver {zone now : Int} {pi : PendingIntent} {s t : DayState}
    (h : s.AtMostOnce zone) (ht : s.deliver zone now pi = some t) : t.AtMostOnce zone := by
  obtain ⟨a, ha, -, rfl⟩ := deliver_eq_some ht
  refine ⟨fun pi1 pi2 a1 a2 h1 h2 => ?_, List.nodup_cons.mpr ⟨h.once pi a ha, h.fired⟩,
    fun pi' a' ha' => ?_⟩
  · exact h.pending pi1 pi2 a1 a2 (AlarmTable.deliver_alarms_eq_some.mp h1).2
      (AlarmTable.deliver_alarms_eq_some.mp h2).2
  · obtain ⟨hne, ha'⟩ := AlarmTable.deliver_alarms_eq_some.mp ha'
    intro hmem
    rcases List.mem_cons.mp hmem with heq | hmem
    · obtain ⟨ho, hd⟩ := Prod.mk.inj heq
      exact hne (h.pending pi' pi a' a ha' ha ho hd)
    · exact h.once pi' a' ha' hmem

theorem atMostOnce_step {zone : Int} {s t : DayState} {e : DayEvent} (hi : s.Inv zone)
    (h : s.AtMostOnce zone) (ht : s.step zone e = some t) :
    t.AtMostOnce zone ↔ s.StepKeepsOnce zone e := by
  rcases step_cases ht with ⟨clock, p, hclock, hm, -, hf, he⟩ | ⟨now, pi, rfl, -, hd⟩ |
    ⟨hm, -, hf, hne, hne'⟩
  · have hadd : t.AtMostOnce zone ↔ KeepsOnce zone clock p s :=
      ⟨keepsOnce_of_atMostOnce hi hm hf, h.add hi hclock hm hf⟩
    rcases he with rfl | ⟨rfl, hhead⟩
    · exact hadd
    · rw [hadd]
      simp [StepKeepsOnce, hhead]
  · exact ⟨fun _ => trivial, fun _ => h.deliver hd⟩
  · have hkeep : t.AtMostOnce zone := by
      refine ⟨?_, hf ▸ h.fired, ?_⟩
      · rw [hm]
        exact h.pending
      · rw [hm, hf]
        exact h.once
    refine ⟨fun _ => ?_, fun _ => hkeep⟩
    cases e with
    | feedPlan clock p => exact absurd rfl (hne clock p)
    | next clock => exact absurd rfl (hne' clock)
    | setZeroFeed => trivial
    | onSuccess => trivial
    | onError => trivial
    | deliver => trivial

end DayState

/-- **Every occurrence fires at most once exactly when every call keeps it single.** -/
theorem atMostOnce_iff (zone now : Int) (es : List DayEvent) (s : DayState)
    (hs : (dayMachine zone now).run es = some s) :
    (dayMachine zone now).Always (DayState.AtMostOnce zone) es ↔
      (dayMachine zone now).Each (DayState.StepKeepsOnce zone) es :=
  (dayMachine zone now).always_iff_each (DayState.inv_start zone now)
    ⟨nofun, List.nodup_nil, nofun⟩ (fun _ _ _ hi ht => hi.step ht)
    (fun _ _ _ hi h ht => DayState.atMostOnce_step hi h ht) hs

/-! ### One plan across midnight -/

/-- The plan at eight is added at ten, so for the next day, and again after midnight; then both
alarms go off at eight. -/
def acrossMidnight : List DayEvent :=
  [.feedPlan clockAtTen planAtEight, .setZeroFeed 1591027200000,
    .onSuccess 1591027205000 (some [planAtEight]), .next (Clock.at 1591027205000),
    .deliver 1591056000000 pastIntent, .deliver 1591056000000 (futureIntent planAtEight)]

/-- The plan at eight fires twice. -/
theorem not_forall_atMostOnce :
    ¬ ∀ zone now es s, (dayMachine zone now).run es = some s → s.AtMostOnce zone := by
  intro h
  have hrun : ((dayMachine 28800000 1590976800000).run acrossMidnight).map DayState.fired =
      some [(1548979200, 18415), (1548979200, 18415)] := by decide +kernel
  obtain ⟨s, hs, hfired⟩ := Option.map_eq_some_iff.mp hrun
  have hnodup := (h 28800000 1590976800000 acrossMidnight s hs).fired
  rw [hfired] at hnodup
  exact absurd hnodup (by decide)

theorem atMostOnce_iff_acrossMidnight : ∃ s,
    (dayMachine 28800000 1590976800000).run acrossMidnight = some s ∧
    ((dayMachine 28800000 1590976800000).Always (DayState.AtMostOnce 28800000) acrossMidnight ↔
      (dayMachine 28800000 1590976800000).Each (DayState.StepKeepsOnce 28800000)
        acrossMidnight) := by
  have hrun : ((dayMachine 28800000 1590976800000).run acrossMidnight).isSome := by decide +kernel
  obtain ⟨s, hs⟩ := Option.isSome_iff_exists.mp hrun
  exact ⟨s, hs, atMostOnce_iff 28800000 1590976800000 acrossMidnight s hs⟩

end PetDev.Feed
