import PetDev.Http.HttpManager
import PetDev.Lib.StepMachine

/-!
# One request at a time

Five methods keep their request in a field and return at once while an earlier one is under way.
What they ask is `isFinish()`, and it is the delivery of the request that sets the flag, whatever
it delivers.  Triggers and deliveries come in any order; a trigger in a callback of the listener
is one just before the delivery, since the request is finished when the callbacks have run.

`singleFlight_iff`: there is at most one request under way, and a trigger is dropped only while
there is one, for four of the methods in every run.  `ZeroAlarmBroadcast.getPlan` asks the
opposite: it starts a second request while the first is under way, and none after that one is
finished.  There it needs every trigger to be the first.
-/

namespace PetDev.Http

/-- The methods that guard their request. -/
inductive Site where
  | getGroupMember
  | saveOutedCount
  | getPetInfo
  | getUserInfo
  | getPlan
  deriving DecidableEq

/-- `mRequest != null && !mRequest.isFinish()`, of the field's `isFinish()`. -/
def returnsUnfinished (mRequest : Option Bool) : Bool := mRequest.any fun isFinish => !isFinish

/-- Whether the method returns at once. -/
def Site.returns : Site → Option Bool → Bool
  | .getGroupMember => returnsUnfinished
  | .saveOutedCount => returnsUnfinished
  | .getPetInfo => returnsUnfinished
  | .getUserInfo => returnsUnfinished
  -- `mGetPlanRequest != null && mGetPlanRequest.isFinish()`
  | .getPlan => fun mGetPlanRequest => mGetPlanRequest.any fun isFinish => isFinish

variable {JsonElement α : Type}

/-- A field with its request.  Requests are numbered as they are made; `inFlight` are those that
have been handed to `HttpManager` and not delivered. -/
structure Flights (JsonElement α : Type) where
  requests : List (BaseRequest JsonElement α)
  slot : Option Nat
  inFlight : List Nat

inductive FlightEvent where
  | trigger
  /-- The main thread runs the runnable of a request. -/
  | deliver (request : Nat) (r : ResponseDeliveryRunnable)

namespace Flights

def start : Flights JsonElement α := ⟨[], none, []⟩

/-- `isFinish()` of the request in the field. -/
def isFinish (s : Flights JsonElement α) : Option Bool :=
  s.slot.bind fun i => (s.requests[i]?).map BaseRequest.isFinish

/-- A new request goes into the field and to `HttpManager`. -/
def issue (request : BaseRequest JsonElement α) (s : Flights JsonElement α) :
    Flights JsonElement α where
  requests := s.requests ++ [request]
  slot := some s.requests.length
  inFlight := s.inFlight ++ [s.requests.length]

def deliver (parser : String → Except Exception (Option JsonElement)) (i : Nat)
    (r : ResponseDeliveryRunnable) (s : Flights JsonElement α) : Flights JsonElement α :=
  { s with
    requests := s.requests.modify i (r.run parser)
    inFlight := s.inFlight.erase i }

/-- The requests of a site are alike. -/
def step (site : Site) (parser : String → Except Exception (Option JsonElement))
    (actualType : Option (ResultType JsonElement α)) (s : Flights JsonElement α) :
    FlightEvent → Option (Flights JsonElement α)
  | .trigger => some (if site.returns s.isFinish then s else s.issue (.new false actualType))
  | .deliver i r => if i ∈ s.inFlight then some (s.deliver parser i r) else none

end Flights

/-- The machine of a site. -/
def flightMachine (site : Site) (parser : String → Except Exception (Option JsonElement))
    (actualType : Option (ResultType JsonElement α)) :
    StepMachine (Flights JsonElement α) FlightEvent :=
  ⟨Flights.start, Flights.step site parser actualType⟩

namespace Flights

def AtMostOne (s : Flights JsonElement α) : Prop := s.inFlight.length ≤ 1

/-- A trigger is dropped only while a request is under way. -/
def DropsWhileInFlight (site : Site) (s : Flights JsonElement α) : FlightEvent → Prop
  | .trigger => site.returns s.isFinish = true → s.inFlight ≠ []
  | .deliver _ _ => True

/-- **The condition on an event**: a trigger of `getPlan` finds nothing in the field. -/
def FindsNothing (site : Site) (s : Flights JsonElement α) : FlightEvent → Prop
  | .trigger => site = .getPlan → s.slot = none
  | .deliver _ _ => True

/-! ## The invariant -/

/-- Only the request in the field may be under way, and it is until it is finished. -/
structure Inv (s : Flights JsonElement α) : Prop where
  empty : s.slot = none → s.inFlight = []
  latest : ∀ i, s.slot = some i → ∃ request, s.requests[i]? = some request ∧
    s.inFlight = if request.isFinish then [] else [i]

theorem inv_start : (start : Flights JsonElement α).Inv := ⟨fun _ => rfl, nofun⟩

theorem isFinish_of_slot {s : Flights JsonElement α} {i : Nat} {request : BaseRequest JsonElement α}
    (hslot : s.slot = some i) (hrequest : s.requests[i]? = some request) :
    s.isFinish = some request.isFinish := by
  rw [isFinish, hslot, Option.bind_some, hrequest, Option.map_some]

theorem isFinish_of_none {s : Flights JsonElement α} (hslot : s.slot = none) :
    s.isFinish = none := by
  rw [isFinish, hslot, Option.bind_none]

/-- A request that is made while none is under way. -/
theorem Inv.issue {s : Flights JsonElement α} {request : BaseRequest JsonElement α}
    (hrequest : request.isFinish = false) (hempty : s.inFlight = []) : (s.issue request).Inv := by
  refine ⟨nofun, fun i hi => ⟨request, ?_, ?_⟩⟩
  · obtain rfl := Option.some.inj hi
    exact List.getElem?_concat_length
  · obtain rfl := Option.some.inj hi
    rw [if_neg (by rw [hrequest]; exact Bool.false_ne_true)]
    show s.inFlight ++ [s.requests.length] = _
    rw [hempty, List.nil_append]

/-- The delivery of the request under way finishes it. -/
theorem Inv.deliver {s : Flights JsonElement α} (h : s.Inv) {i : Nat} (hi : i ∈ s.inFlight)
    (parser : String → Except Exception (Option JsonElement)) (r : ResponseDeliveryRunnable) :
    (s.deliver parser i r).Inv := by
  cases hslot : s.slot with
  | none =>
    rw [h.empty hslot] at hi
    cases hi
  | some j =>
    obtain ⟨request, hrequest, hflight⟩ := h.latest j hslot
    rw [hflight] at hi
    split at hi
    · cases hi
    · next hunfinished =>
      obtain rfl := List.mem_singleton.mp hi
      refine ⟨fun hnone => ?_, fun k hk => ?_⟩
      · cases hslot.symm.trans hnone
      · obtain rfl := Option.some.inj (hslot.symm.trans hk)
        refine ⟨r.run parser request, ?_, ?_⟩
        · show (s.requests.modify i (r.run parser))[i]? = _
          rw [List.getElem?_modify_eq, hrequest]
          rfl
        · rw [if_pos (r.isFinish_run parser request)]
          show s.inFlight.erase i = []
          rw [hflight, if_neg hunfinished, List.erase_cons_head]

theorem Inv.atMostOne {s : Flights JsonElement α} (h : s.Inv) : s.AtMostOne := by
  unfold AtMostOne
  cases hslot : s.slot with
  | none =>
    rw [h.empty hslot]
    exact Nat.zero_le 1
  | some i =>
    obtain ⟨request, -, hflight⟩ := h.latest i hslot
    rw [hflight]
    split
    · exact Nat.zero_le 1
    · exact le_rfl

/-! ## Steps -/

section

variable {site : Site} {parser : String → Except Exception (Option JsonElement)}
  {actualType : Option (ResultType JsonElement α)} {s t : Flights JsonElement α}

theorem returns_of_ne (h : site ≠ .getPlan) : site.returns = returnsUnfinished := by
  cases site with
  | getPlan => exact absurd rfl h
  | _ => rfl

/-- On the invariant, the other methods return exactly while a request is under way. -/
theorem Inv.returns_iff (h : s.Inv) (hsite : site ≠ .getPlan) :
    site.returns s.isFinish = true ↔ s.inFlight ≠ [] := by
  rw [returns_of_ne hsite]
  cases hslot : s.slot with
  | none =>
    rw [isFinish_of_none hslot, h.empty hslot]
    exact iff_of_false Bool.false_ne_true fun hne => hne rfl
  | some i =>
    obtain ⟨request, hrequest, hflight⟩ := h.latest i hslot
    rw [isFinish_of_slot hslot hrequest, hflight]
    cases request.isFinish with
    | true => exact iff_of_false Bool.false_ne_true fun hne => hne rfl
    | false => exact iff_of_true rfl (List.cons_ne_nil i [])

/-- Nothing in the field: `getPlan` goes on. -/
theorem returns_getPlan_of_none (hslot : s.slot = none) :
    Site.getPlan.returns s.isFinish = false := by
  rw [isFinish_of_none hslot]
  rfl

theorem Inv.trigger (h : s.Inv) (hC : s.FindsNothing site .trigger)
    (ht : s.step site parser actualType .trigger = some t) :
    t.Inv ∧ s.DropsWhileInFlight site .trigger := by
  by_cases hsite : site = .getPlan
  · subst hsite
    have hslot := hC rfl
    have hgoes := returns_getPlan_of_none hslot
    refine ⟨?_, fun hreturns => ?_⟩
    · unfold step at ht
      rw [if_neg (by rw [hgoes]; exact Bool.false_ne_true)] at ht
      obtain rfl := Option.some.inj ht
      exact Inv.issue rfl (h.empty hslot)
    · cases hgoes.symm.trans hreturns
  · refine ⟨?_, (h.returns_iff hsite).mp⟩
    unfold step at ht
    obtain rfl := Option.some.inj ht
    split
    · exact h
    · next hgoes => exact Inv.issue rfl (not_not.mp (mt (h.returns_iff hsite).mpr hgoes))

/-- With a request in the field `getPlan` starts a second one, or drops the trigger for nothing. -/
theorem Inv.not_trigger (h : s.Inv) {i : Nat} (hslot : s.slot = some i)
    (ht : s.step .getPlan parser actualType .trigger = some t) (hone : t.AtMostOne)
    (hdrops : s.DropsWhileInFlight .getPlan .trigger) : False := by
  obtain ⟨request, hrequest, hflight⟩ := h.latest i hslot
  have hfinish := isFinish_of_slot hslot hrequest
  cases hfinished : request.isFinish with
  | true =>
    rw [hfinished] at hflight hfinish
    exact hdrops (by rw [hfinish]; rfl) hflight
  | false =>
    rw [hfinished] at hflight hfinish
    unfold step at ht
    rw [hfinish] at ht
    obtain rfl := Option.some.inj ht
    unfold AtMostOne at hone
    change (s.inFlight ++ [s.requests.length]).length ≤ 1 at hone
    rw [hflight, if_neg Bool.false_ne_true] at hone
    exact absurd hone (by simp)

theorem Inv.step_deliver (h : s.Inv) {i : Nat} {r : ResponseDeliveryRunnable}
    (ht : s.step site parser actualType (.deliver i r) = some t) : t.Inv := by
  change (if i ∈ s.inFlight then some (s.deliver parser i r) else none) = some t at ht
  split at ht
  · next hi =>
    obtain rfl := Option.some.inj ht
    exact h.deliver hi parser r
  · cases ht

theorem Inv.step {e : FlightEvent} (h : s.Inv) (hC : s.FindsNothing site e)
    (ht : s.step site parser actualType e = some t) : t.Inv := by
  cases e with
  | trigger => exact (h.trigger hC ht).1
  | deliver i r => exact h.step_deliver ht

/-- A step is as it should be exactly when it meets the condition. -/
theorem Inv.step_iff {e : FlightEvent} (h : s.Inv)
    (ht : s.step site parser actualType e = some t) :
    ((∀ t, s.step site parser actualType e = some t → t.AtMostOne) ∧
      s.DropsWhileInFlight site e) ↔ s.FindsNothing site e := by
  cases e with
  | trigger =>
    constructor
    · rintro ⟨hone, hdrops⟩ rfl
      cases hslot : s.slot with
      | none => rfl
      | some i => exact (h.not_trigger hslot ht (hone t ht) hdrops).elim
    · intro hC
      obtain ⟨hinv, hdrops⟩ := h.trigger hC ht
      refine ⟨fun t' ht' => ?_, hdrops⟩
      obtain rfl := Option.some.inj (ht.symm.trans ht')
      exact hinv.atMostOne
  | deliver i r =>
    refine iff_of_true ⟨fun t' ht' => ?_, trivial⟩ trivial
    exact (h.step_deliver ht').atMostOne

end

end Flights

/-- **At most one request is under way, and no trigger is dropped unless one is, exactly when every
trigger of `getPlan` is the first one.** -/
theorem singleFlight_iff (site : Site) (parser : String → Except Exception (Option JsonElement))
    (actualType : Option (ResultType JsonElement α)) {es : List FlightEvent}
    {s : Flights JsonElement α} (hs : (flightMachine site parser actualType).run es = some s) :
    ((flightMachine site parser actualType).Always Flights.AtMostOne es ∧
      (flightMachine site parser actualType).Each (Flights.DropsWhileInFlight site) es) ↔
      (flightMachine site parser actualType).Each (Flights.FindsNothing site) es := by
  rw [(flightMachine site parser actualType).always_iff_each_step Flights.inv_start.atMostOne,
    ← StepMachine.each_and]
  exact (flightMachine site parser actualType).each_iff_each Flights.inv_start
    (fun _ _ _ h hC ht => h.step hC ht) (fun _ _ _ h ht => h.step_iff ht) hs

/-- Of these requests nothing is known. -/
def noParser : String → Except Exception (Option Unit) := fun _ => .ok none

/-- A failed call. -/
def failed : ResponseDeliveryRunnable := ⟨none, some (.ioException "timeout"), none⟩

/-- A trigger, a dropped one, and one after the delivery. -/
theorem singleFlight_iff_triggers :
    ∃ s, (flightMachine (α := Unit) .getPetInfo noParser none).run
        [.trigger, .trigger, .deliver 0 failed, .trigger] = some s ∧
      (((flightMachine (α := Unit) .getPetInfo noParser none).Always Flights.AtMostOne
          [.trigger, .trigger, .deliver 0 failed, .trigger] ∧
        (flightMachine (α := Unit) .getPetInfo noParser none).Each
          (Flights.DropsWhileInFlight .getPetInfo)
          [.trigger, .trigger, .deliver 0 failed, .trigger]) ↔
        (flightMachine (α := Unit) .getPetInfo noParser none).Each
          (Flights.FindsNothing .getPetInfo) [.trigger, .trigger, .deliver 0 failed, .trigger]) :=
  ⟨_, rfl, singleFlight_iff .getPetInfo noParser none rfl⟩

/-- Two triggers of `getPlan` start two requests. -/
theorem not_forall_singleFlight : ¬ ∀ (site : Site) (es : List FlightEvent)
    (s : Flights Unit Unit), (flightMachine site noParser none).run es = some s →
      (flightMachine (α := Unit) site noParser none).Always Flights.AtMostOne es ∧
        (flightMachine (α := Unit) site noParser none).Each (Flights.DropsWhileInFlight site)
          es := by
  intro h
  obtain ⟨s, hs⟩ : ∃ s, (flightMachine (α := Unit) .getPlan noParser none).run
      [.trigger, .trigger] = some s := ⟨_, rfl⟩
  have hone := (h .getPlan [.trigger, .trigger] s hs).1.last hs
  obtain rfl := Option.some.inj (hs.symm.trans rfl)
  exact absurd hone (by unfold Flights.AtMostOne; decide)

end PetDev.Http
