import PetDev.Feed.Feeder

/-!
# What the planned feeds report

When the stop callback of a planned feed runs, `saveOutedCount` reports the portions with a
`SaveOutedRequest`.  All feeds share one slot, `mSaveOutedRequest`, and while the request in it is
unfinished the report is dropped.  A request is finished when its delivery has run.

`accounted_iff`: what is reported is what has been fed exactly when every stop callback finds
the slot free.
-/

namespace PetDev.Feed

open Android

/-- The feeder and the slot.  Requests are numbered as they are handed to `HttpManager`; the state
also keeps their amounts, and the counts of the planned feeds whose callback has run. -/
structure Outed where
  feeder : Feeder
  mSaveOutedRequest : Option Nat
  finished : List Nat
  amounts : List Int
  completed : List Int

inductive OutedEvent where
  | feeder (e : FeederEvent)
  | deliver (request : Nat)

namespace Outed

def start : Outed := ⟨Feeder.start, none, [], [], []⟩

def isFinish (request : Nat) (s : Outed) : Bool := s.finished.contains request

/-- The slot is free: `mSaveOutedRequest == null || mSaveOutedRequest.isFinish()`. -/
def isFree (s : Outed) : Bool := s.mSaveOutedRequest.all fun request => s.isFinish request

def saveOutedCount (count : Int) (s : Outed) : Outed :=
  if s.isFree then
    { s with
      mSaveOutedRequest := some s.amounts.length
      amounts := s.amounts ++ [count] }
  else s

/-- The count of the planned feed whose stop callback an event runs. -/
def stoppedBy (s : Feeder) : FeederEvent → Option Int
  | .callback i =>
    match s.callbacks[i]? with
    | some ⟨_, .feedPlan mCount⟩ => some mCount
    | _ => none
  | _ => none

/-- The feeder's step; the callback of a planned feed goes on with `saveOutedCount`. -/
def feederStep (e : FeederEvent) (feeder : Feeder) (s : Outed) : Outed :=
  match stoppedBy s.feeder e with
  | some mCount =>
    { s with feeder := feeder, completed := mCount :: s.completed }.saveOutedCount mCount
  | none => { s with feeder := feeder }

def step (s : Outed) : OutedEvent → Option Outed
  | .feeder e => (s.feeder.step e).map fun feeder => s.feederStep e feeder
  | .deliver request =>
    if request < s.amounts.length then some { s with finished := request :: s.finished } else none

end Outed

def outedMachine : StepMachine Outed OutedEvent := ⟨Outed.start, Outed.step⟩

namespace Outed

/-- What has been reported is what has been fed. -/
def Accounted (s : Outed) : Prop := s.amounts.sum = s.completed.sum

/-- **The condition on an event**: a stop callback of a planned feed finds the slot free, or has
nothing to report. -/
def FindsFree (s : Outed) : OutedEvent → Prop
  | .feeder e => ∀ mCount ∈ stoppedBy s.feeder e, s.isFree = true ∨ mCount = 0
  | .deliver _ => True

instance (s : Outed) (e : OutedEvent) : Decidable (s.FindsFree e) := by
  cases e <;> unfold FindsFree <;> infer_instance

theorem accounted_feederStep {s : Outed} (h : s.Accounted) (e : FeederEvent) (feeder : Feeder) :
    (s.feederStep e feeder).Accounted ↔ s.FindsFree (.feeder e) := by
  cases hstopped : stoppedBy s.feeder e with
  | none =>
    have heq : s.feederStep e feeder = { s with feeder := feeder } := by
      simp only [feederStep, hstopped]
    rw [heq]
    refine iff_of_true h ?_
    simp [FindsFree, hstopped]
  | some mCount =>
    let u : Outed := { s with feeder := feeder, completed := mCount :: s.completed }
    have heq : s.feederStep e feeder = u.saveOutedCount mCount := by
      simp only [feederStep, hstopped, u]
    have hfinds : s.FindsFree (.feeder e) ↔ s.isFree = true ∨ mCount = 0 := by
      simp [FindsFree, hstopped]
    have hfed : u.completed.sum = s.amounts.sum + mCount := by
      rw [show u.completed = mCount :: s.completed from rfl, List.sum_cons, h, add_comm]
    rw [heq, hfinds]
    by_cases hfree : s.isFree = true
    · -- the amount is reported
      have hsave : (u.saveOutedCount mCount).amounts = s.amounts ++ [mCount] ∧
          (u.saveOutedCount mCount).completed = u.completed := by
        unfold saveOutedCount
        rw [if_pos (show u.isFree = true from hfree)]
        exact ⟨rfl, rfl⟩
      refine iff_of_true ?_ (Or.inl hfree)
      rw [Accounted, hsave.1, hsave.2, hfed, List.sum_append, List.sum_singleton]
    · -- it is dropped
      have hsave : u.saveOutedCount mCount = u := if_neg hfree
      rw [hsave, Accounted, hfed, or_iff_right hfree]
      show s.amounts.sum = s.amounts.sum + mCount ↔ mCount = 0
      omega

theorem accounted_step {s t : Outed} {e : OutedEvent} (h : s.Accounted) (ht : s.step e = some t) :
    t.Accounted ↔ s.FindsFree e := by
  cases e with
  | feeder e =>
    obtain ⟨feeder, -, rfl⟩ := Option.map_eq_some_iff.mp ht
    exact accounted_feederStep h e feeder
  | deliver request =>
    obtain ⟨-, ht⟩ := Option.ite_none_right_eq_some.mp ht
    obtain rfl := Option.some.inj ht
    exact iff_of_true h trivial

end Outed

/-- **No amount is lost exactly when every stop callback finds the slot free** (or has nothing to
report). -/
theorem accounted_iff (es : List OutedEvent) (s : Outed) (hs : outedMachine.run es = some s) :
    outedMachine.Always Outed.Accounted es ↔ outedMachine.Each Outed.FindsFree es :=
  outedMachine.always_iff_each (I := fun _ => True) (P := Outed.Accounted) trivial rfl
    (fun _ _ _ _ _ => trivial) (fun _ _ _ _ h ht => Outed.accounted_step h ht) hs

/-- Two planned feeds of one portion each, whose callbacks run before anything is delivered. -/
def twoAtOnce : List OutedEvent :=
  [.feeder (.feedPlanEvent 1), .feeder (.feedPlanEvent 1), .feeder (.advance 12504),
    .feeder (.callback 0), .feeder (.callback 0)]

/-- The same, with a delivery in between. -/
def deliveredBetween : List OutedEvent :=
  [.feeder (.feedPlanEvent 1), .feeder (.feedPlanEvent 1), .feeder (.advance 12504),
    .feeder (.callback 0), .deliver 0, .feeder (.callback 0)]

/-- The second portion is never reported. -/
theorem not_forall_accounted : ¬ ∀ (es : List OutedEvent) (s : Outed),
    outedMachine.run es = some s → s.Accounted := by
  intro h
  have hrun : (outedMachine.run twoAtOnce).map (fun s => (s.amounts, s.completed)) =
      some ([1], [1, 1]) := by
    decide
  obtain ⟨s, hs, hout⟩ := Option.map_eq_some_iff.mp hrun
  obtain ⟨hamounts, hcompleted⟩ := Prod.mk.inj hout
  have hsum := h twoAtOnce s hs
  rw [Outed.Accounted, hamounts, hcompleted] at hsum
  exact absurd hsum (by decide)

theorem accounted_iff_deliveredBetween : ∃ s, outedMachine.run deliveredBetween = some s ∧
    s.amounts = [1, 1] ∧ s.completed = [1, 1] ∧
    (outedMachine.Always Outed.Accounted deliveredBetween ↔
      outedMachine.Each Outed.FindsFree deliveredBetween) := by
  have hrun : (outedMachine.run deliveredBetween).map (fun s => (s.amounts, s.completed)) =
      some ([1, 1], [1, 1]) := by
    decide
  obtain ⟨s, hs, hout⟩ := Option.map_eq_some_iff.mp hrun
  obtain ⟨hamounts, hcompleted⟩ := Prod.mk.inj hout
  exact ⟨s, hs, hamounts, hcompleted, accounted_iff deliveredBetween s hs⟩

end PetDev.Feed
