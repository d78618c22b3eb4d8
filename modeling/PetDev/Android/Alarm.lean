import Mathlib.Logic.Function.Basic

/-!
# `PendingIntent` and `AlarmManager`

Two `PendingIntent`s with the same request code and the same action are the same
object, so the system keeps one set of extras for each such pair, and one pending
alarm.  `getBroadcast` is `PendingIntent.getBroadcast` with flags `0`: an existing
object comes back **with its original extras**.  `set` replaces the pending alarm
of an equal `PendingIntent`, and a cancelled one is never sent.

An alarm also records the `owner` it was set for.  Android does not keep it; it is
there to say whose alarm was lost.
-/

namespace PetDev.Android

structure PendingIntent where
  requestCode : Int
  action : String
  deriving DecidableEq, Repr

structure Alarm (O : Type*) where
  triggerAt : Int
  owner : O
  deriving DecidableEq, Repr

/-- The tables of the system: the extras of the `PendingIntent`s that exist, and
the pending alarms. -/
structure AlarmTable (X O : Type*) where
  intents : PendingIntent → Option X
  alarms : PendingIntent → Option (Alarm O)

namespace AlarmTable

variable {X O : Type*}

def empty : AlarmTable X O := ⟨fun _ => none, fun _ => none⟩

def getBroadcast (s : AlarmTable X O) (pi : PendingIntent) (extras : X) : AlarmTable X O :=
  { s with intents := Function.update s.intents pi (some ((s.intents pi).getD extras)) }

def set (s : AlarmTable X O) (pi : PendingIntent) (a : Alarm O) : AlarmTable X O :=
  { s with alarms := Function.update s.alarms pi (some a) }

def cancel (s : AlarmTable X O) (pi : PendingIntent) : AlarmTable X O :=
  { intents := Function.update s.intents pi none, alarms := Function.update s.alarms pi none }

/-- An alarm goes off: it leaves the table, its `PendingIntent` stays. -/
def deliver (s : AlarmTable X O) (pi : PendingIntent) : AlarmTable X O :=
  { s with alarms := Function.update s.alarms pi none }

/-- Every pending alarm has a `PendingIntent` that is not cancelled. -/
def Backed (s : AlarmTable X O) : Prop := ∀ pi a, s.alarms pi = some a → ∃ x, s.intents pi = some x

theorem deliver_alarms_eq_some {s : AlarmTable X O} {pi pi' : PendingIntent} {a : Alarm O} :
    (s.deliver pi).alarms pi' = some a ↔ pi' ≠ pi ∧ s.alarms pi' = some a := by
  by_cases h : pi' = pi
  · subst h
    simp [deliver]
  · simp [deliver, h]

theorem backed_empty : (empty : AlarmTable X O).Backed := nofun

theorem Backed.deliver {s : AlarmTable X O} (h : s.Backed) (pi : PendingIntent) :
    (s.deliver pi).Backed :=
  fun pi' a ha => h pi' a (deliver_alarms_eq_some.mp ha).2

end AlarmTable

end PetDev.Android
