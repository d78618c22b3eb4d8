import PetDev.Android.Looper
import PetDev.Java.Lang
import PetDev.Lib.StepMachine
import Mathlib.Algebra.BigOperators.Group.List.Basic
import Mathlib.Algebra.Order.Group.Int

/-!
# The feeder motor

`TurnAndStop` switches one motor on and off.  Every feed, immediate (`feedNow`), from
the button (`feedNowButton`) or planned (`onMessageEvent(FeedPlanEvent)`), switches it
on and posts a callback that switches it off; nothing tells one feed's callback from
another's.  The state also measures how long the motor has been on.

* `motor_on_stop_pending`: the motor is never on without a stop callback to come.
* `onTime_eq_requested_iff`: when all callbacks have run, the motor has been on for as
  long as the feeds asked, exactly when every feed ran alone.
-/

namespace PetDev.Feed

open Java Android

/-! ## The machine -/

/-- The feed that posted a callback. -/
inductive Feeding where
  | feedNow (count : Int)
  | feedNowButton
  | feedPlan (mCount : Int)
  deriving DecidableEq, Repr

/-- The delay of the callback, computed in `int`s. -/
def Feeding.delay : Feeding → Int
  | .feedNow count => int (int (count * 12) * 1042)
  | .feedNowButton => 36 * 1042
  | .feedPlan mCount => int (int (mCount * 12) * 1042)

structure Feeder where
  now : Int
  motor : Bool
  onTime : Int
  callbacks : List (Delayed Feeding)

inductive FeederEvent where
  | feedNow (feedCount : Option String)
  | feedNowButton
  | feedPlanEvent (mCount : Int)
  | callback (i : Nat)
  | advance (ms : Nat)

namespace Feeder

def start : Feeder := ⟨0, false, 0, []⟩

def turnRight (s : Feeder) : Feeder := { s with motor := true }

def turnStop (s : Feeder) : Feeder := { s with motor := false }

/-- `turn.turnRight()` and `mBaseHandler.postDelayed(..)`. -/
def feed (f : Feeding) (s : Feeder) : Feeder :=
  let s := s.turnRight
  { s with callbacks := Looper.postDelayed s.now f.delay f s.callbacks }

/-- The feed that `feedNow` starts: none when `parseInt` throws or the count is not positive. -/
def startedBy (feedCount : Option String) : Option Feeding :=
  match parseInt feedCount with
  | some count => if count > 0 then some (.feedNow count) else none
  | none => none

def feedNow (feedCount : Option String) (s : Feeder) : Feeder :=
  match startedBy feedCount with
  | some f => s.feed f
  | none => s

def step (s : Feeder) : FeederEvent → Option Feeder
  | .feedNow feedCount => some (s.feedNow feedCount)
  | .feedNowButton => some (s.feed .feedNowButton)
  | .feedPlanEvent mCount => some (s.feed (.feedPlan mCount))
  | .callback i =>
    (Looper.take s.now i s.callbacks).map fun r => { s.turnStop with callbacks := r.2 }
  | .advance ms =>
    some { s with now := s.now + ms, onTime := s.onTime + if s.motor then (ms : Int) else 0 }

end Feeder

def feederMachine : StepMachine Feeder FeederEvent := ⟨Feeder.start, Feeder.step⟩

/-! ## What a step can do -/

namespace Feeder

/-- The feed that an event starts. -/
def feedOf : FeederEvent → Option Feeding
  | .feedNow feedCount => startedBy feedCount
  | .feedNowButton => some .feedNowButton
  | .feedPlanEvent mCount => some (.feedPlan mCount)
  | .callback _ => none
  | .advance _ => none

theorem step_cases {s t : Feeder} {e : FeederEvent} (h : s.step e = some t) :
    (∃ f, feedOf e = some f ∧ t = s.feed f) ∨
    (∃ feedCount, e = .feedNow feedCount ∧ feedOf e = none ∧ t = s) ∨
    (∃ i m q, e = .callback i ∧ Looper.take s.now i s.callbacks = some (m, q) ∧
      t = { s.turnStop with callbacks := q }) ∨
    (∃ ms : Nat, e = .advance ms ∧
      t = { s with now := s.now + ms, onTime := s.onTime + if s.motor then (ms : Int) else 0 }) := by
  cases e with
  | feedNow feedCount =>
    obtain rfl := Option.some.inj h
    unfold Feeder.feedNow
    cases hf : startedBy feedCount with
    | none => exact Or.inr (Or.inl ⟨feedCount, rfl, hf, rfl⟩)
    | some f => exact Or.inl ⟨f, hf, rfl⟩
  | feedNowButton => exact Or.inl ⟨_, rfl, (Option.some.inj h).symm⟩
  | feedPlanEvent mCount => exact Or.inl ⟨_, rfl, (Option.some.inj h).symm⟩
  | callback i =>
    obtain ⟨⟨m, q⟩, hq, rfl⟩ := Option.map_eq_some_iff.mp h
    exact Or.inr (Or.inr (Or.inl ⟨i, m, q, rfl, hq, rfl⟩))
  | advance ms => exact Or.inr (Or.inr (Or.inr ⟨ms, rfl, (Option.some.inj h).symm⟩))

theorem mem_feed {s : Feeder} {f : Feeding} {m : Delayed Feeding} :
    m ∈ (s.feed f).callbacks ↔ m ∈ s.callbacks ∨ m = ⟨s.now + max f.delay 0, f⟩ :=
  Looper.mem_postDelayed

theorem feed_callbacks_ne_nil (s : Feeder) (f : Feeding) : (s.feed f).callbacks ≠ [] :=
  List.ne_nil_of_mem (mem_feed.mpr (Or.inr rfl))

/-! ## The motor stops -/

theorem motor_stop_step {s t : Feeder} {e : FeederEvent} (h : s.motor = true → s.callbacks ≠ [])
    (ht : s.step e = some t) : t.motor = true → t.callbacks ≠ [] := by
  rcases step_cases ht with ⟨f, -, rfl⟩ | ⟨_, -, -, rfl⟩ | ⟨i, m, q, -, -, rfl⟩ | ⟨ms, -, rfl⟩
  · exact fun _ => feed_callbacks_ne_nil s f
  · exact h
  · exact nofun
  · exact h

end Feeder

/-- **The motor is never on without a stop callback to come**, so with none pending it is off. -/
theorem motor_on_stop_pending (es : List FeederEvent) (s : Feeder)
    (hs : feederMachine.run es = some s) :
    (s.motor = true → ∃ m, m ∈ s.callbacks) ∧
      (∀ i t, s.step (.callback i) = some t → t.motor = false) ∧
      (s.callbacks = [] → s.motor = false) := by
  have h : s.motor = true → s.callbacks ≠ [] :=
    feederMachine.invariant (I := fun s => s.motor = true → s.callbacks ≠ []) nofun
      (fun _ _ _ h ht => Feeder.motor_stop_step h ht) hs
  refine ⟨fun hm => List.exists_mem_of_ne_nil _ (h hm), fun i t ht => ?_, fun hnil => ?_⟩
  · obtain ⟨r, -, rfl⟩ := Option.map_eq_some_iff.mp ht
    rfl
  · cases hm : s.motor with
    | false => rfl
    | true => exact absurd hnil (h hm)

/-- A count whose delay overflows: the motor is on, and its stop is due at once. -/
theorem motor_on_stop_pending_overflow : ∃ s,
    feederMachine.run [.feedNow (some "171799")] = some s ∧ s.motor = true ∧
    (s.motor = true → ∃ m, m ∈ s.callbacks) ∧
    (∀ i t, s.step (.callback i) = some t → t.motor = false) ∧
    (s.callbacks = [] → s.motor = false) := by
  have hrun : (feederMachine.run [.feedNow (some "171799")]).map Feeder.motor = some true := by
    decide +kernel
  obtain ⟨s, hs, hm⟩ := Option.map_eq_some_iff.mp hrun
  exact ⟨s, hs, hm, motor_on_stop_pending _ s hs⟩

/-! ## How long the motor is on -/

/-- What a feed asks for: 12504 ms a portion, 37512 ms for the button. -/
def Feeding.requested : Feeding → Int
  | .feedNow count => 12504 * max count 0
  | .feedNowButton => 37512
  | .feedPlan mCount => 12504 * max mCount 0

/-- The delay of the feed is computed without overflow. -/
def Feeding.Exact : Feeding → Prop
  | .feedNow count => -2 ^ 31 ≤ 12504 * count ∧ 12504 * count < 2 ^ 31
  | .feedNowButton => True
  | .feedPlan mCount => -2 ^ 31 ≤ 12504 * mCount ∧ 12504 * mCount < 2 ^ 31

theorem Feeding.delay_of_exact {f : Feeding} (h : f.Exact) : max f.delay 0 = f.requested := by
  have hcount : ∀ count : Int, -2 ^ 31 ≤ 12504 * count → 12504 * count < 2 ^ 31 →
      int (int (count * 12) * 1042) = 12504 * count := by
    intro count h1 h2
    have h12 : int (count * 12) = count * 12 := int_of_range (by omega) (by omega)
    rw [h12, int_of_range (by omega) (by omega)]
    omega
  cases f with
  | feedNow count =>
    simp only [delay, requested, hcount count h.1 h.2]
    omega
  | feedNowButton => rfl
  | feedPlan mCount =>
    simp only [delay, requested, hcount mCount h.1 h.2]
    omega

theorem Feeding.requested_nonneg (f : Feeding) : 0 ≤ f.requested := by
  cases f <;> simp only [requested] <;> omega

namespace Feeder

/-- What an event asks for. -/
def requestedBy (e : FeederEvent) : Int := ((feedOf e).map Feeding.requested).getD 0

/-- The delays of the run are computed without overflow. -/
def ExactDelay (e : FeederEvent) : Prop := ∀ f ∈ feedOf e, f.Exact

/-- Callbacks run exactly when they are due. -/
def OnTime (s : Feeder) : FeederEvent → Prop
  | .callback i => ∀ m ∈ s.callbacks[i]?, m.due = s.now
  | .advance ms => ∀ m ∈ s.callbacks, s.now + ms ≤ m.due
  | _ => True

instance (s : Feeder) (e : FeederEvent) : Decidable (s.OnTime e) := by
  cases e <;> unfold OnTime <;> infer_instance

@[simp] theorem exactDelay_advance (ms : Nat) : ExactDelay (.advance ms) := nofun

@[simp] theorem exactDelay_callback (i : Nat) : ExactDelay (.callback i) := nofun

/-- A feed starts while the motor is off, and no stop callback is due before its own.  (A feed
of 0 ms can also start at the very end of another one.) -/
def Alone (s : Feeder) (e : FeederEvent) : Prop :=
  ∀ f ∈ feedOf e, (∀ m ∈ s.callbacks, s.now + f.requested ≤ m.due) ∧
    (s.motor = true → f.requested = 0 ∧ ∃ m ∈ s.callbacks, m.due = s.now)

end Feeder

/-- The machine whose callbacks run exactly when they are due. -/
def onTimeMachine : StepMachine Feeder FeederEvent := feederMachine.guard Feeder.OnTime

namespace Feeder

/-- How long the motor will still be on if no other feed starts: until the earliest stop. -/
def Rest (s : Feeder) (r : Int) : Prop :=
  (s.motor = false ∧ r = 0) ∨
    (s.motor = true ∧ (∃ m ∈ s.callbacks, m.due = s.now + r) ∧ ∀ m ∈ s.callbacks, s.now + r ≤ m.due)

/-- No callback is overdue. -/
def Punctual (s : Feeder) : Prop := ∀ m ∈ s.callbacks, s.now ≤ m.due

theorem Rest.nonneg {s : Feeder} {r : Int} (hp : s.Punctual) (h : s.Rest r) : 0 ≤ r := by
  rcases h with ⟨-, rfl⟩ | ⟨-, ⟨m, hm, hdue⟩, -⟩
  · exact le_rfl
  · have := hp m hm
    omega

theorem Punctual.feed {s : Feeder} (hp : s.Punctual) (f : Feeding) : (s.feed f).Punctual := by
  intro m hm
  rcases mem_feed.mp hm with hm | rfl
  · exact hp m hm
  · show s.now ≤ s.now + max f.delay 0
    omega

/-- The earliest stop after a feed: one that was pending, or the feed's own. -/
structure Earliest (s : Feeder) (f : Feeding) (k : Delayed Feeding) : Prop where
  mem : k ∈ s.callbacks ∨ k.due = s.now + f.requested
  pending : ∀ m ∈ s.callbacks, k.due ≤ m.due
  own : k.due ≤ s.now + f.requested

theorem exists_earliest_feed (s : Feeder) {f : Feeding} (hf : f.Exact) :
    ∃ k ∈ (s.feed f).callbacks, (∀ m ∈ (s.feed f).callbacks, k.due ≤ m.due) ∧ s.Earliest f k := by
  obtain ⟨k, hk, hleast⟩ := Looper.exists_earliest (feed_callbacks_ne_nil s f)
  have hdelay := Feeding.delay_of_exact hf
  refine ⟨k, hk, hleast, ?_, fun m hm => hleast m (mem_feed.mpr (Or.inl hm)), ?_⟩
  · rcases mem_feed.mp hk with hk | hk
    · exact Or.inl hk
    · right
      rw [hk, hdelay]
  · have := hleast _ (mem_feed.mpr (Or.inr rfl))
    rwa [hdelay] at this

/-- The motor was off: the earliest stop is the feed's own, or cuts it short. -/
theorem Earliest.full_iff_of_off {s : Feeder} {f : Feeding} {k : Delayed Feeding}
    (h : s.Earliest f k) (hoff : s.motor = false) :
    k.due - s.now = f.requested ↔ (∀ m ∈ s.callbacks, s.now + f.requested ≤ m.due) ∧
      (s.motor = true → f.requested = 0 ∧ ∃ m ∈ s.callbacks, m.due = s.now) := by
  have hown := h.own
  constructor
  · intro heq
    refine ⟨fun m hm => ?_, fun hon => by rw [hoff] at hon; cases hon⟩
    have := h.pending m hm
    omega
  · rintro ⟨hall, -⟩
    rcases h.mem with hk | hk
    · have := hall k hk
      omega
    · omega

/-- The motor was on for `r`: a feed of positive length is swallowed in part. -/
theorem Earliest.full_iff_of_on {s : Feeder} {f : Feeding} {k : Delayed Feeding}
    (h : s.Earliest f k) {r : Int} (hr0 : 0 ≤ r) (hon : s.motor = true)
    (hlast : ∃ m ∈ s.callbacks, m.due = s.now + r) (hr : ∀ m ∈ s.callbacks, s.now + r ≤ m.due) :
    k.due - s.now - r = f.requested ↔ (∀ m ∈ s.callbacks, s.now + f.requested ≤ m.due) ∧
      (s.motor = true → f.requested = 0 ∧ ∃ m ∈ s.callbacks, m.due = s.now) := by
  obtain ⟨m0, hm0, hm0due⟩ := hlast
  have h0 := h.pending m0 hm0
  have hown := h.own
  have hd := f.requested_nonneg
  have hkr : k.due = s.now + f.requested ∨ s.now + r ≤ k.due :=
    h.mem.symm.imp_right (hr k)
  constructor
  · intro heq
    have hr0 : r = 0 := by omega
    have hf0 : f.requested = 0 := by omega
    refine ⟨fun m hm => ?_, fun _ => ⟨hf0, m0, hm0, by omega⟩⟩
    have := hr m hm
    omega
  · rintro ⟨-, halone⟩
    obtain ⟨hf0, m, hm, hdue⟩ := halone hon
    have := hr m hm
    omega

/-- **A feed costs nothing exactly when it is alone.**  After the feed the motor will be on for
`r'` instead of `r`; what the feed asked for is lost beyond the difference. -/
theorem rest_feed {s : Feeder} {r : Int} (hp : s.Punctual) (h : s.Rest r) {f : Feeding}
    (hf : f.Exact) : ∃ r', (s.feed f).Rest r' ∧ r' - r ≤ f.requested ∧
      (r' - r = f.requested ↔ (∀ m ∈ s.callbacks, s.now + f.requested ≤ m.due) ∧
        (s.motor = true → f.requested = 0 ∧ ∃ m ∈ s.callbacks, m.due = s.now)) := by
  obtain ⟨k, hk, hleast, hearliest⟩ := s.exists_earliest_feed hf
  have hr0 := h.nonneg hp
  refine ⟨k.due - s.now, Or.inr ⟨rfl, ⟨k, hk, ?_⟩, fun m hm => ?_⟩, ?_, ?_⟩
  · show k.due = s.now + (k.due - s.now)
    omega
  · have := hleast m hm
    show s.now + (k.due - s.now) ≤ m.due
    omega
  · have := hearliest.own
    omega
  · rcases h with ⟨hoff, rfl⟩ | ⟨hon, hlast, hr⟩
    · rw [sub_zero]
      exact hearliest.full_iff_of_off hoff
    · exact hearliest.full_iff_of_on hr0 hon hlast hr

/-- What one step does to the time the motor has been and will be on. -/
theorem rest_step {s t : Feeder} {r : Int} {e : FeederEvent} (hp : s.Punctual) (h : s.Rest r)
    (he : ExactDelay e) (hg : s.OnTime e) (ht : s.step e = some t) :
    t.Punctual ∧ ∃ r', t.Rest r' ∧ t.onTime + r' ≤ s.onTime + r + requestedBy e ∧
      (t.onTime + r' = s.onTime + r + requestedBy e ↔ s.Alone e) := by
  rcases step_cases ht with ⟨f, hf, rfl⟩ | ⟨feedCount, rfl, hf, rfl⟩ |
      ⟨i, m, q, rfl, hq, rfl⟩ | ⟨ms, rfl, rfl⟩
  · -- a feed
    have hreq : requestedBy e = f.requested := by simp [requestedBy, hf]
    obtain ⟨r', hr', hle, hiff⟩ := rest_feed hp h (he f hf)
    refine ⟨hp.feed f, r', hr', ?_, ?_⟩
    · show s.onTime + r' ≤ s.onTime + r + requestedBy e
      omega
    · show s.onTime + r' = s.onTime + r + requestedBy e ↔ s.Alone e
      simp only [Alone, hf, Option.mem_def, Option.some.injEq, forall_eq', ← hiff]
      omega
  · -- a feed that is refused
    have hreq : requestedBy (.feedNow feedCount) = 0 := by simp [requestedBy, hf]
    have halone : t.Alone (.feedNow feedCount) := by simp [Alone, hf]
    exact ⟨hp, r, h, by omega, by simp [hreq, halone]⟩
  · -- a callback: it is due now, so the motor was to stop now
    obtain ⟨hi, -, -⟩ := Looper.take_eq_some hq
    have hdue : m.due = s.now := hg m hi
    have hr0 : r = 0 := by
      have hr := h.nonneg hp
      rcases h with ⟨-, h0⟩ | ⟨-, -, hle⟩
      · exact h0
      · have := hle m (List.mem_of_getElem? hi)
        omega
    have halone : s.Alone (.callback i) := nofun
    have hreq : requestedBy (.callback i) = 0 := rfl
    refine ⟨fun m' hm' => hp m' (Looper.mem_of_take hq hm'), 0, Or.inl ⟨rfl, rfl⟩, ?_, ?_⟩
    · show s.onTime + 0 ≤ _
      omega
    · show s.onTime + 0 = _ ↔ _
      simp [hreq, hr0, halone]
  · -- time passes, and no stop is missed
    have halone : s.Alone (.advance ms) := nofun
    have hreq : requestedBy (.advance ms) = 0 := rfl
    refine ⟨hg, ?_⟩
    rcases h with ⟨hoff, rfl⟩ | ⟨hon, ⟨m, hm, hdue⟩, hle⟩
    · refine ⟨0, Or.inl ⟨hoff, rfl⟩, ?_, ?_⟩ <;> simp [hoff, hreq, halone]
    · have hrest : ∀ m : Delayed Feeding, s.now + ms + (r - ms) ≤ m.due ↔ s.now + r ≤ m.due := by
        intro m
        omega
      refine ⟨r - ms, Or.inr ⟨hon, ⟨m, hm, ?_⟩, fun m' hm' => (hrest m').mpr (hle m' hm')⟩, ?_, ?_⟩
      · show m.due = s.now + ms + (r - ms)
        omega
      · show s.onTime + (if s.motor then (ms : Int) else 0) + (r - ms) ≤ _
        rw [if_pos hon]
        omega
      · show s.onTime + (if s.motor then (ms : Int) else 0) + (r - ms) = _ ↔ _
        rw [if_pos hon]
        simp only [halone, iff_true]
        omega

/-- What a run does to it. -/
theorem rest_run {es : List FeederEvent} {s : Feeder} (hs : onTimeMachine.run es = some s)
    (he : ∀ e ∈ es, ExactDelay e) :
    s.Punctual ∧ ∃ r, s.Rest r ∧ s.onTime + r ≤ (es.map requestedBy).sum ∧
      (s.onTime + r = (es.map requestedBy).sum ↔ onTimeMachine.Each Feeder.Alone es) := by
  induction es using List.reverseRecOn generalizing s with
  | nil =>
    obtain rfl := Option.some.inj hs
    refine ⟨nofun, 0, Or.inl ⟨rfl, rfl⟩, le_rfl, ?_⟩
    exact ⟨fun _ => onTimeMachine.each_nil, fun _ => rfl⟩
  | append_singleton es e ih =>
    obtain ⟨s0, hs0, hstep⟩ := onTimeMachine.run_concat_eq_some.mp hs
    obtain ⟨hg, hstep⟩ := (feederMachine.guard_step_eq_some).mp hstep
    obtain ⟨hp, r, hr, hle, hiff⟩ := ih hs0 fun e' he' => he e' (List.mem_append_left _ he')
    obtain ⟨hp', r', hr', hle', hiff'⟩ := rest_step hp hr (he e (by simp)) hg hstep
    refine ⟨hp', r', hr', ?_, ?_⟩
    · rw [List.map_append, List.sum_append, List.map_singleton, List.sum_singleton]
      omega
    · have hlast : (∀ t, onTimeMachine.run es = some t → t.Alone e) ↔ s0.Alone e := by
        rw [hs0]
        exact ⟨fun h => h s0 rfl, fun h t ht => Option.some.inj ht ▸ h⟩
      rw [onTimeMachine.each_concat, hlast, ← hiff, ← hiff', List.map_append, List.sum_append,
        List.map_singleton, List.sum_singleton]
      omega

end Feeder

/-- **When all callbacks have run, the motor has been on for as long as the feeds asked exactly
when each of them ran alone**: it started while the motor was off, and no stop was due before its
own. -/
theorem onTime_eq_requested_iff (es : List FeederEvent) (s : Feeder)
    (hs : onTimeMachine.run es = some s) (he : ∀ e ∈ es, Feeder.ExactDelay e)
    (hdone : s.callbacks = []) :
    s.onTime = (es.map Feeder.requestedBy).sum ↔ onTimeMachine.Each Feeder.Alone es := by
  obtain ⟨-, r, hr, -, hiff⟩ := Feeder.rest_run hs he
  rcases hr with ⟨-, rfl⟩ | ⟨-, ⟨m, hm, -⟩, -⟩
  · rwa [add_zero] at hiff
  · rw [hdone] at hm
    cases hm

/-- Two portions, the second asked for one second after the first. -/
def overlapping : List FeederEvent :=
  [.feedNow (some "1"), .advance 1000, .feedNow (some "1"), .advance 11504, .callback 0,
    .advance 1000, .callback 0]

/-- Two portions, the second asked for after the first. -/
def consecutive : List FeederEvent :=
  [.feedNow (some "1"), .advance 12504, .callback 0, .feedNow (some "1"), .advance 12504,
    .callback 0]

theorem exactDelay_feedNow_one : Feeder.ExactDelay (.feedNow (some "1")) := by
  have h : Feeder.startedBy (some "1") = some (.feedNow 1) := by decide +kernel
  intro f hf
  obtain rfl : f = .feedNow 1 := by
    rw [Feeder.feedOf, h] at hf
    exact (Option.some.inj hf).symm
  exact ⟨by decide, by decide⟩

/-- Two overlapping portions run the motor for 12504 ms, not for 25008. -/
theorem not_forall_onTime_eq_requested : ¬ ∀ (es : List FeederEvent) (s : Feeder),
    onTimeMachine.run es = some s → (∀ e ∈ es, Feeder.ExactDelay e) → s.callbacks = [] →
      s.onTime = (es.map Feeder.requestedBy).sum := by
  intro h
  have hrun : (onTimeMachine.run overlapping).map (fun s => (s.onTime, s.callbacks)) =
      some (12504, []) := by decide +kernel
  have hsum : (overlapping.map Feeder.requestedBy).sum = 25008 := by decide +kernel
  obtain ⟨s, hs, hout⟩ := Option.map_eq_some_iff.mp hrun
  obtain ⟨hon, hdone⟩ := Prod.mk.inj hout
  have hexact : ∀ e ∈ overlapping, Feeder.ExactDelay e := by
    simp [overlapping, exactDelay_feedNow_one]
  have := h overlapping s hs hexact hdone
  omega

/-- Two portions one after the other: both sides hold. -/
theorem onTime_eq_requested_iff_consecutive : ∃ s, onTimeMachine.run consecutive = some s ∧
    s.onTime = 25008 ∧
    (s.onTime = (consecutive.map Feeder.requestedBy).sum ↔
      onTimeMachine.Each Feeder.Alone consecutive) := by
  have hrun : (onTimeMachine.run consecutive).map (fun s => (s.onTime, s.callbacks)) =
      some (25008, []) := by decide +kernel
  obtain ⟨s, hs, hout⟩ := Option.map_eq_some_iff.mp hrun
  obtain ⟨hon, hdone⟩ := Prod.mk.inj hout
  have hexact : ∀ e ∈ consecutive, Feeder.ExactDelay e := by
    simp [consecutive, exactDelay_feedNow_one]
  exact ⟨s, hs, hon, onTime_eq_requested_iff consecutive s hs hexact hdone⟩

end PetDev.Feed
