import PetDev.Android.Looper
import PetDev.Sip.Message
import Mathlib.Logic.Function.Basic

/-!
# Requests that wait for a response

`addRequest` runs on the main thread in three steps: the message is sent, the request is
put into `mRequestMap` under the name of the response it waits for, and its timer is
started.  `onReceivedMessage` runs on the receiver thread: the request found under the
name of an incoming answer gets `response()`, which cancels its timer, and leaves the
map.  A timer that runs out after 3 seconds calls `handleTimeOut`.

The two threads and the timers meet here only, so this file has the state they share
and one definition for each thing they do to it.  A request is an object: two requests
with one target are different, and a cancelled `Timer` throws when it is scheduled.
-/

namespace PetDev.Sip

open Android

/-- A `BaseSipRequest`; `id` tells the objects apart. -/
structure SipRequest where
  id : Nat
  hasResponse : Bool
  targetResponse : String
  deriving DecidableEq, Repr

/-- Where the main thread is in `addRequest`. -/
inductive AddRequest where
  /-- Sent, and not in the map yet. -/
  | sent (r : SipRequest)
  /-- In the map, and not counting yet. -/
  | tracked (r : SipRequest)
  deriving DecidableEq, Repr

/-- `addRequest` after `sendMessage`. -/
def AddRequest.afterSend (r : SipRequest) : Option AddRequest :=
  if r.hasResponse then some (.sent r) else none

/-- The delay of `startCounting`. -/
def timeOut : Int := 3 * 1000

structure SipDevManager where
  mRequestMap : String → Option SipRequest
  /-- The timers that are counting. -/
  timers : List (Delayed SipRequest)
  /-- The requests whose `Timer` is cancelled. -/
  cancelled : List SipRequest

namespace SipDevManager

def empty : SipDevManager := ⟨fun _ => none, [], []⟩

def put (r : SipRequest) (d : SipDevManager) : SipDevManager :=
  { d with mRequestMap := Function.update d.mRequestMap r.targetResponse (some r) }

/-- `none` is the `IllegalStateException` of a cancelled timer. -/
def startCounting (now : Int) (r : SipRequest) (d : SipDevManager) : Option SipDevManager :=
  if r ∈ d.cancelled then none
  else some { d with timers := Looper.postDelayed now timeOut r d.timers }

def response (r : SipRequest) (d : SipDevManager) : SipDevManager :=
  { d with
    timers := d.timers.filter fun m => m.what ≠ r
    cancelled := r :: d.cancelled }

/-- The lookup at the end of `handle`. -/
def answer (key : String) (d : SipDevManager) : SipDevManager :=
  match d.mRequestMap key with
  | some r =>
    { d.response r with mRequestMap := Function.update d.mRequestMap key none }
  | none => d

/-- What an incoming message does to the requests. -/
def receive (d : SipDevManager) : Received → SipDevManager
  | .answer key _ => d.answer key
  | .post _ _ => d
  | .nothing => d

/-- The `i`-th timer runs out. -/
def expire (now : Int) (i : Nat) (d : SipDevManager) : Option (SipRequest × SipDevManager) :=
  (Looper.take now i d.timers).map fun p => (p.1.what, { d with timers := p.2 })

/-! ## What each of them does -/

theorem startCounting_eq_some {now : Int} {r : SipRequest} {d d' : SipDevManager} :
    d.startCounting now r = some d' ↔ r ∉ d.cancelled ∧
      d' = { d with timers := Looper.postDelayed now timeOut r d.timers } := by
  unfold startCounting
  split
  · next h => exact ⟨nofun, fun h' => absurd h h'.1⟩
  · next h => exact ⟨fun h' => ⟨h, (Option.some.inj h').symm⟩, fun h' => by rw [h'.2]⟩

theorem startCounting_eq_none {now : Int} {r : SipRequest} {d : SipDevManager} :
    d.startCounting now r = none ↔ r ∈ d.cancelled := by
  unfold startCounting
  split
  · next h => exact ⟨fun _ => h, fun _ => rfl⟩
  · next h => exact ⟨nofun, fun h' => absurd h' h⟩

theorem expire_eq_some {now : Int} {i : Nat} {d d' : SipDevManager} {r : SipRequest}
    (h : d.expire now i = some (r, d')) :
    ∃ m, d.timers[i]? = some m ∧ m.due ≤ now ∧ m.what = r ∧
      d' = { d with timers := d.timers.eraseIdx i } := by
  obtain ⟨⟨m, q⟩, hq, hd⟩ := Option.map_eq_some_iff.mp h
  obtain ⟨hm, hdue, rfl⟩ := Looper.take_eq_some hq
  obtain ⟨rfl, rfl⟩ := Prod.mk.inj hd
  exact ⟨m, hm, hdue, rfl, rfl⟩

/-- The other timers go on counting. -/
theorem mem_expire {now : Int} {i : Nat} {d d' : SipDevManager} {r : SipRequest}
    (h : d.expire now i = some (r, d')) {m : Delayed SipRequest} (hm : m ∈ d.timers) :
    m.what = r ∨ m ∈ d'.timers := by
  obtain ⟨⟨k, q⟩, hq, hd⟩ := Option.map_eq_some_iff.mp h
  obtain ⟨rfl, rfl⟩ := Prod.mk.inj hd
  rcases Looper.mem_take hq hm with rfl | hm
  · exact Or.inl rfl
  · exact Or.inr hm

theorem mem_timers_response {r : SipRequest} {d : SipDevManager} {m : Delayed SipRequest} :
    m ∈ (d.response r).timers ↔ m ∈ d.timers ∧ m.what ≠ r := by
  simp [response]

theorem mem_cancelled_response {r r' : SipRequest} {d : SipDevManager} :
    r' ∈ (d.response r).cancelled ↔ r' = r ∨ r' ∈ d.cancelled :=
  List.mem_cons

theorem answer_of_some {key : String} {d : SipDevManager} {r : SipRequest}
    (h : d.mRequestMap key = some r) : d.answer key =
      { d.response r with mRequestMap := Function.update d.mRequestMap key none } := by
  unfold answer
  rw [h]

theorem answer_of_none {key : String} {d : SipDevManager} (h : d.mRequestMap key = none) :
    d.answer key = d := by
  unfold answer
  rw [h]

theorem mem_cancelled_answer {key : String} {d : SipDevManager} {r : SipRequest} :
    r ∈ (d.answer key).cancelled ↔ d.mRequestMap key = some r ∨ r ∈ d.cancelled := by
  cases hkey : d.mRequestMap key with
  | none => simp [answer_of_none hkey]
  | some r' =>
    rw [answer_of_some hkey]
    simp only [mem_cancelled_response, Option.some.injEq, eq_comm]

/-- The request that is found stops counting, and no other. -/
theorem mem_timers_answer {key : String} {d : SipDevManager} {m : Delayed SipRequest} :
    m ∈ (d.answer key).timers ↔ m ∈ d.timers ∧ d.mRequestMap key ≠ some m.what := by
  cases hkey : d.mRequestMap key with
  | none => simp [answer_of_none hkey]
  | some r =>
    rw [answer_of_some hkey]
    simp only [mem_timers_response, ne_eq, Option.some.injEq, eq_comm]

/-- The map after an answer has no other requests than before. -/
theorem mRequestMap_of_answer {key k : String} {d : SipDevManager} {r : SipRequest}
    (h : (d.answer key).mRequestMap k = some r) : d.mRequestMap k = some r := by
  cases hkey : d.mRequestMap key with
  | none => rwa [answer_of_none hkey] at h
  | some r' =>
    rw [answer_of_some hkey] at h
    by_cases hk : k = key
    · subst hk
      simp at h
    · simpa [hk] using h

theorem mRequestMap_put {r r' : SipRequest} {d : SipDevManager} {k : String}
    (h : (d.put r).mRequestMap k = some r') :
    (k = r.targetResponse ∧ r' = r) ∨ d.mRequestMap k = some r' := by
  unfold put at h
  by_cases hk : k = r.targetResponse
  · subst hk
    simp only [Function.update_self, Option.some.injEq] at h
    exact Or.inl ⟨rfl, h.symm⟩
  · simp only [Function.update_of_ne hk] at h
    exact Or.inr h

end SipDevManager

end PetDev.Sip
