import Mathlib.Logic.Function.Basic
import PetDev.Http.HttpManager
import PetDev.Lib.StepMachine

/-!
# Every request is answered once

Any number of requests are under way: each `addRequest` starts a call, OkHttp answers the calls
in any order, and the main thread runs the runnables in the order in which they were posted.  A
request may be added again.

`exactlyOnce_iff`: the listener of every request whose runnable has run got one result and one
`onComplete`, and the request is finished, exactly when every runnable that finds its request
unfinished has an outcome that is `Heard`.  An `IOException` from reading a successful response,
and an empty body, are not: `onComplete` never comes.
-/

namespace PetDev.Http

/-! ## Requests under way -/

/-- `inFlight` are the calls without an answer; `posted` are the runnables in the main thread's
queue, with their outcomes; `delivered` are the requests of those that have run. -/
structure System (ι JsonElement α : Type) where
  requests : ι → BaseRequest JsonElement α
  inFlight : List ι
  posted : List (ι × Outcome × ResponseDeliveryRunnable)
  delivered : List ι

inductive HttpEvent (ι : Type) where
  | addRequest (i : ι)
  /-- OkHttp answers one of the calls. -/
  | answer (k : Nat) (outcome : Outcome)
  /-- The main thread runs the next runnable. -/
  | run

variable {ι JsonElement α : Type} [DecidableEq ι]

namespace System

/-- New requests, some of them with MessagePack. -/
def start (useMsgPack : ι → Bool) (actualType : ι → Option (ResultType JsonElement α)) :
    System ι JsonElement α :=
  ⟨fun i => .new (useMsgPack i) (actualType i), [], [], []⟩

/-- OkHttp calls the callback of call `k`, that of request `i`. -/
def answer (s : System ι JsonElement α) (k : Nat) (i : ι) (outcome : Outcome) :
    System ι JsonElement α :=
  let posted := ((HttpManager.callback (s.requests i).useMsgPack outcome).run.run []).2
  { s with
    inFlight := s.inFlight.eraseIdx k
    posted := s.posted ++ posted.map fun r => (i, outcome, r) }

/-- The main thread runs `r`, a runnable of request `i`, and keeps the others. -/
def deliver (parser : String → Except Exception (Option JsonElement)) (s : System ι JsonElement α)
    (i : ι) (r : ResponseDeliveryRunnable)
    (posted : List (ι × Outcome × ResponseDeliveryRunnable)) : System ι JsonElement α :=
  { s with
    requests := Function.update s.requests i (r.run parser (s.requests i))
    posted := posted
    delivered := i :: s.delivered }

def step (parser : String → Except Exception (Option JsonElement)) (s : System ι JsonElement α) :
    HttpEvent ι → Option (System ι JsonElement α)
  | .addRequest i => some { s with inFlight := s.inFlight ++ [i] }
  | .answer k outcome => (s.inFlight[k]?).map fun i => s.answer k i outcome
  | .run =>
    match s.posted with
    | [] => none
    | (i, _, r) :: posted => some (s.deliver parser i r posted)

end System

/-- The machine of the requests. -/
def httpMachine (parser : String → Except Exception (Option JsonElement)) (useMsgPack : ι → Bool)
    (actualType : ι → Option (ResultType JsonElement α)) :
    StepMachine (System ι JsonElement α) (HttpEvent ι) where
  init := .start useMsgPack actualType
  step := System.step parser

namespace System

/-- Where a runnable has run, the listener got its result and `onComplete`. -/
def ExactlyOnce (s : System ι JsonElement α) : Prop :=
  ∀ i ∈ s.delivered, OnceThenComplete (s.requests i).received ∧
    (s.requests i).isFinish = true

/-- **The condition on an event**: what the main thread delivers to an unfinished request is
heard. -/
def DeliversHeard (s : System ι JsonElement α) : HttpEvent ι → Prop
  | .run => ∀ p ∈ s.posted.head?, (s.requests p.1).isFinish = true ∨
    p.2.1.Heard (s.requests p.1).useMsgPack
  | _ => True

/-! ## The invariant -/

/-- A request is new until its first runnable has run, and finished from then on. -/
structure Inv (useMsgPack : ι → Bool) (actualType : ι → Option (ResultType JsonElement α))
    (s : System ι JsonElement α) : Prop where
  waiting : ∀ i, i ∉ s.delivered → s.requests i = .new (useMsgPack i) (actualType i)
  finished : ∀ i ∈ s.delivered, (s.requests i).isFinish = true
  msgPack : ∀ i, (s.requests i).useMsgPack = useMsgPack i
  posted : ∀ p ∈ s.posted, p.2.2 = p.2.1.runnable (useMsgPack p.1)

variable {parser : String → Except Exception (Option JsonElement)} {useMsgPack : ι → Bool}
  {actualType : ι → Option (ResultType JsonElement α)}

theorem deliver_requests_self (s : System ι JsonElement α) (i : ι) (r : ResponseDeliveryRunnable)
    (posted : List (ι × Outcome × ResponseDeliveryRunnable)) :
    (s.deliver parser i r posted).requests i = r.run parser (s.requests i) :=
  Function.update_self ..

theorem deliver_requests_of_ne (s : System ι JsonElement α) {i j : ι} (h : j ≠ i)
    (r : ResponseDeliveryRunnable) (posted : List (ι × Outcome × ResponseDeliveryRunnable)) :
    (s.deliver parser i r posted).requests j = s.requests j :=
  Function.update_of_ne h ..

omit [DecidableEq ι] in
theorem inv_start : (start useMsgPack actualType).Inv useMsgPack actualType :=
  ⟨fun _ _ => rfl, fun _ hi => absurd hi List.not_mem_nil, fun _ => rfl,
    fun _ hp => absurd hp List.not_mem_nil⟩

omit [DecidableEq ι] in
theorem Inv.answer {s : System ι JsonElement α} (h : s.Inv useMsgPack actualType) (k : Nat) (i : ι)
    (outcome : Outcome) : (s.answer k i outcome).Inv useMsgPack actualType := by
  refine ⟨h.waiting, h.finished, h.msgPack, fun p hp => ?_⟩
  rcases List.mem_append.mp hp with hp | hp
  · exact h.posted p hp
  · rw [callback_eq, h.msgPack] at hp
    rw [List.mem_singleton.mp hp]

theorem Inv.deliver {s : System ι JsonElement α} (h : s.Inv useMsgPack actualType) {i : ι}
    {outcome : Outcome} {r : ResponseDeliveryRunnable}
    {posted : List (ι × Outcome × ResponseDeliveryRunnable)}
    (hposted : s.posted = (i, outcome, r) :: posted) :
    (s.deliver parser i r posted).Inv useMsgPack actualType := by
  refine ⟨fun j hj => ?_, fun j hj => ?_, fun j => ?_, fun p hp => ?_⟩
  · obtain ⟨hne, hj⟩ := not_or.mp (mt List.mem_cons.mpr hj)
    rw [deliver_requests_of_ne s hne]
    exact h.waiting j hj
  · by_cases hji : j = i
    · subst hji
      rw [deliver_requests_self]
      exact r.isFinish_run parser _
    · rw [deliver_requests_of_ne s hji]
      exact h.finished j (List.mem_of_ne_of_mem hji hj)
  · by_cases hji : j = i
    · subst hji
      rw [deliver_requests_self, r.useMsgPack_run]
      exact h.msgPack j
    · rw [deliver_requests_of_ne s hji]
      exact h.msgPack j
  · exact h.posted p (by rw [hposted]; exact List.mem_cons_of_mem _ hp)

/-- The step of the main thread. -/
theorem exactlyOnce_deliver {s : System ι JsonElement α} (hinv : s.Inv useMsgPack actualType)
    (h : s.ExactlyOnce) {i : ι} {outcome : Outcome} {r : ResponseDeliveryRunnable}
    {posted : List (ι × Outcome × ResponseDeliveryRunnable)}
    (hposted : s.posted = (i, outcome, r) :: posted) :
    (s.deliver parser i r posted).ExactlyOnce ↔ s.DeliversHeard .run := by
  have hheard : s.DeliversHeard .run ↔ (s.requests i).isFinish = true ∨
      outcome.Heard (s.requests i).useMsgPack := by
    simp [DeliversHeard, hposted]
  rw [hheard]
  have hothers : ∀ j ∈ (s.deliver parser i r posted).delivered, j ≠ i →
      OnceThenComplete ((s.deliver parser i r posted).requests j).received ∧
        ((s.deliver parser i r posted).requests j).isFinish = true := by
    intro j hj hji
    rw [deliver_requests_of_ne s hji]
    exact h j (List.mem_of_ne_of_mem hji hj)
  by_cases hi : i ∈ s.delivered
  · -- the runnable of a finished request does nothing
    refine iff_of_true (fun j hj => ?_) (Or.inl (hinv.finished i hi))
    by_cases hji : j = i
    · subst hji
      have hrun : r.run parser (s.requests j) = s.requests j := if_pos (hinv.finished j hi)
      rw [deliver_requests_self, hrun]
      exact h j hi
    · exact hothers j hj hji
  · have hnew := hinv.waiting i hi
    have hrunnable : r = outcome.runnable (useMsgPack i) :=
      hinv.posted (i, outcome, r) (by rw [hposted]; exact List.mem_cons_self)
    have hreceived := received_run_iff parser outcome (useMsgPack i) (actualType i)
    rw [← hrunnable, ← hnew] at hreceived
    have hunfinished : (s.requests i).isFinish ≠ true := by
      rw [hnew]
      exact Bool.false_ne_true
    rw [hinv.msgPack, or_iff_right hunfinished, ← hreceived]
    constructor
    · intro honce
      have hself := (honce i List.mem_cons_self).1
      rwa [deliver_requests_self] at hself
    · intro hself j hj
      by_cases hji : j = i
      · subst hji
        rw [deliver_requests_self]
        exact ⟨hself, r.isFinish_run parser _⟩
      · exact hothers j hj hji

/-! ## Steps -/

theorem step_run_eq_some {s t : System ι JsonElement α} (h : s.step parser .run = some t) :
    ∃ i outcome r posted, s.posted = (i, outcome, r) :: posted ∧
      t = s.deliver parser i r posted := by
  cases hposted : s.posted with
  | nil =>
    simp only [step, hposted] at h
    cases h
  | cons p posted =>
    simp only [step, hposted] at h
    exact ⟨p.1, p.2.1, p.2.2, posted, rfl, (Option.some.inj h).symm⟩

theorem inv_step {s t : System ι JsonElement α} {e : HttpEvent ι}
    (h : s.Inv useMsgPack actualType)
    (ht : (httpMachine parser useMsgPack actualType).step s e = some t) :
    t.Inv useMsgPack actualType := by
  cases e with
  | addRequest i =>
    obtain rfl := Option.some.inj ht
    exact ⟨h.waiting, h.finished, h.msgPack, h.posted⟩
  | answer k outcome =>
    obtain ⟨i, -, rfl⟩ := Option.map_eq_some_iff.mp ht
    exact h.answer k i outcome
  | run =>
    obtain ⟨i, outcome, r, posted, hposted, rfl⟩ := step_run_eq_some ht
    exact h.deliver hposted

theorem exactlyOnce_step {s t : System ι JsonElement α} {e : HttpEvent ι}
    (hinv : s.Inv useMsgPack actualType) (h : s.ExactlyOnce)
    (ht : (httpMachine parser useMsgPack actualType).step s e = some t) :
    t.ExactlyOnce ↔ s.DeliversHeard e := by
  cases e with
  | addRequest i =>
    obtain rfl := Option.some.inj ht
    exact iff_of_true h trivial
  | answer k outcome =>
    obtain ⟨i, -, rfl⟩ := Option.map_eq_some_iff.mp ht
    exact iff_of_true h trivial
  | run =>
    obtain ⟨i, outcome, r, posted, hposted, rfl⟩ := step_run_eq_some ht
    exact exactlyOnce_deliver hinv h hposted

end System

/-- **Every request that is delivered gets one result and one `onComplete`, and is finished,
exactly when what is delivered to unfinished requests is heard.** -/
theorem exactlyOnce_iff (parser : String → Except Exception (Option JsonElement))
    (useMsgPack : ι → Bool) (actualType : ι → Option (ResultType JsonElement α))
    (es : List (HttpEvent ι)) (s : System ι JsonElement α)
    (hs : (httpMachine parser useMsgPack actualType).run es = some s) :
    (httpMachine parser useMsgPack actualType).Always System.ExactlyOnce es ↔
      (httpMachine parser useMsgPack actualType).Each System.DeliversHeard es :=
  (httpMachine parser useMsgPack actualType).always_iff_each System.inv_start
    (fun _ hi => absurd hi List.not_mem_nil)
    (fun _ _ _ h ht => System.inv_step h ht)
    (fun _ _ _ hinv h ht => System.exactlyOnce_step hinv h ht) hs

/-- A response of status 200 with this body. -/
def okResponse (string : Except Throwable String) : Response :=
  ⟨200, true, false, some ⟨string, string, none⟩, none⟩

/-- After an empty body nobody is called. -/
theorem not_forall_exactlyOnce : ¬ ∀ (parser : String → Except Exception (Option Unit))
    (useMsgPack : Unit → Bool) (actualType : Unit → Option (ResultType Unit String))
    (es : List (HttpEvent Unit)),
    (httpMachine parser useMsgPack actualType).Always System.ExactlyOnce es := by
  intro h
  have hrun : ((httpMachine (fun _ => .ok (some ())) (fun _ : Unit => false)
      fun _ => some (.string id)).run
        [.addRequest (), .answer 0 (.onResponse (okResponse (.ok ""))), .run]).map
      (fun s => (s.delivered, (s.requests ()).received.length)) = some ([()], 0) := by
    decide +kernel
  obtain ⟨s, hs, hout⟩ := Option.map_eq_some_iff.mp hrun
  obtain ⟨hdelivered, hreceived⟩ := Prod.mk.inj hout
  have honce := ((h _ _ _ _).last hs () (by rw [hdelivered]; exact List.mem_cons_self)).1
  rw [honce.length] at hreceived
  cases hreceived

/-- Two requests, the second answered first and found broken. -/
def twoRequests : List (HttpEvent Bool) :=
  [.addRequest false, .addRequest true, .answer 1 (.onResponse ⟨404, false, false, none, none⟩),
    .answer 0 (.onResponse (okResponse (.ok "[]"))), .run, .run]

theorem exactlyOnce_iff_twoRequests :
    ∃ s, (httpMachine (fun _ => .ok (some ())) (fun _ : Bool => false)
        fun _ => some (.string id)).run twoRequests = some s ∧ s.delivered = [false, true] ∧
      ((httpMachine (fun _ => .ok (some ())) (fun _ : Bool => false)
          fun _ => some (.string id)).Always System.ExactlyOnce twoRequests ↔
        (httpMachine (fun _ => .ok (some ())) (fun _ : Bool => false)
          fun _ => some (.string id)).Each System.DeliversHeard twoRequests) := by
  have hrun : ((httpMachine (fun _ => .ok (some ())) (fun _ : Bool => false)
      fun _ => some (.string id)).run twoRequests).map (fun s => s.delivered) =
      some [false, true] := by
    decide +kernel
  obtain ⟨s, hs, hdelivered⟩ := Option.map_eq_some_iff.mp hrun
  exact ⟨s, hs, hdelivered, exactlyOnce_iff _ _ _ twoRequests s hs⟩

end PetDev.Http
