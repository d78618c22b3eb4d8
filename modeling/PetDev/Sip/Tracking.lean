import PetDev.Lib.StepMachine
import PetDev.Sip.SipDevManager

/-!
# Which requests time out

A run interleaves the three steps of `addRequest` on the main thread, incoming messages
and timers in any order, for any number of requests and any targets.  Nothing in a
message says which request it answers, so the event of an incoming message names it
beside the message.  The state remembers when each request was sent, which were
answered within 3 seconds, which got `handleTimeOut`, and whether `addRequest` threw.

`answered_not_timedOut`: a run is free of spurious time-outs and of exceptions when no
answer meets a request between its `put` and its `startCounting`, and every answer in
time finds in the map the request it answers, if that one is still counting.  Both can
fail: the map is written after the message is sent, and it has one entry for each
name of a response.
-/

namespace PetDev.Sip

open Android SipDevManager

/-! ## The machine -/

structure Tracking where
  now : Int
  next : Nat
  main : Option AddRequest
  manager : SipDevManager
  sentAt : SipRequest → Option Int
  answered : List SipRequest
  timedOut : List SipRequest
  threw : Bool

inductive TrackingEvent where
  | send (hasResponse : Bool) (targetResponse : String)
  | put
  | startCounting
  /-- A message comes in, and with it the answer to a request. -/
  | receive (m : Message) (answers : Option SipRequest)
  | expire (i : Nat)
  | advance (ms : Nat)

namespace Tracking

def start : Tracking := ⟨0, 0, none, SipDevManager.empty, fun _ => none, [], [], false⟩

/-- The request was sent less than 3 seconds ago. -/
def Early (s : Tracking) (r : SipRequest) : Prop := ∃ t ∈ s.sentAt r, s.now < t + timeOut

instance (s : Tracking) (r : SipRequest) : Decidable (s.Early r) :=
  inferInstanceAs (Decidable (∃ t ∈ s.sentAt r, s.now < t + timeOut))

/-- An answer under the name `key` is the matching answer to `r`, and in time. -/
def InTime (s : Tracking) (key : String) (r : SipRequest) : Prop :=
  r.hasResponse = true ∧ r.targetResponse = key ∧ s.Early r

instance (s : Tracking) (key : String) (r : SipRequest) : Decidable (s.InTime key r) :=
  inferInstanceAs (Decidable (_ ∧ _ ∧ _))

def send (hasResponse : Bool) (targetResponse : String) (s : Tracking) : Tracking :=
  let r : SipRequest := ⟨s.next, hasResponse, targetResponse⟩
  { s with
    next := s.next + 1
    main := AddRequest.afterSend r
    sentAt := Function.update s.sentAt r (some s.now) }

def startCounting (r : SipRequest) (s : Tracking) : Tracking :=
  match s.manager.startCounting s.now r with
  | some manager => { s with manager, main := none }
  | none => { s with main := none, threw := true }

/-- The requests that are answered in time, after `received`. -/
def answers (s : Tracking) : Received → Option SipRequest → List SipRequest
  | .answer key _, some r => if s.InTime key r then r :: s.answered else s.answered
  | _, _ => s.answered

def receive (received : Received) (answers : Option SipRequest) (s : Tracking) : Tracking :=
  { s with
    manager := s.manager.receive received
    answered := s.answers received answers }

def step (xmlToJson : String → Option JsonElement) (s : Tracking) :
    TrackingEvent → Option Tracking
  | .send hasResponse targetResponse =>
    match s.main with
    | none => some (s.send hasResponse targetResponse)
    | some _ => none
  | .put =>
    match s.main with
    | some (.sent r) => some { s with manager := s.manager.put r, main := some (.tracked r) }
    | _ => none
  | .startCounting =>
    match s.main with
    | some (.tracked r) => some (s.startCounting r)
    | _ => none
  | .receive m answers => some (s.receive (onReceivedMessage xmlToJson m) answers)
  | .expire i =>
    (s.manager.expire s.now i).map fun p =>
      { s with manager := p.2, timedOut := p.1 :: s.timedOut }
  | .advance ms => some { s with now := s.now + ms }

end Tracking

/-- The machine of the requests. -/
def trackingMachine (xmlToJson : String → Option JsonElement) :
    StepMachine Tracking TrackingEvent := ⟨Tracking.start, Tracking.step xmlToJson⟩

namespace Tracking

/-- No exception, and no time-out of a request that was answered in time. -/
def Sound (s : Tracking) : Prop := s.threw = false ∧ ∀ r ∈ s.answered, r ∉ s.timedOut

/-- **The condition on an incoming answer.**  The request that it finds under its name is past
`startCounting`, and the request it answers in time is the one that it finds, or one whose
timer is cancelled already. -/
def InOrder (xmlToJson : String → Option JsonElement) (s : Tracking) : TrackingEvent → Prop
  | .receive m answers => ∀ key json, onReceivedMessage xmlToJson m = .answer key json →
      (∀ r, s.manager.mRequestMap key = some r → s.main ≠ some (.tracked r)) ∧
      ∀ r ∈ answers, s.InTime key r →
        s.manager.mRequestMap key = some r ∨ r ∈ s.manager.cancelled
  | _ => True

/-! ## What a step can do -/

theorem startCounting_cases (s : Tracking) (r : SipRequest) :
    (r ∉ s.manager.cancelled ∧ s.startCounting r = { s with
      manager := { s.manager with timers := Looper.postDelayed s.now timeOut r s.manager.timers }
      main := none }) ∨
    (r ∈ s.manager.cancelled ∧ s.startCounting r = { s with main := none, threw := true }) := by
  unfold Tracking.startCounting
  cases hstart : s.manager.startCounting s.now r with
  | none => exact Or.inr ⟨startCounting_eq_none.mp hstart, rfl⟩
  | some manager =>
    obtain ⟨hc, rfl⟩ := startCounting_eq_some.mp hstart
    exact Or.inl ⟨hc, rfl⟩

theorem step_cases {xmlToJson : String → Option JsonElement} {s t : Tracking} {e : TrackingEvent}
    (h : s.step xmlToJson e = some t) :
    (∃ b k, s.main = none ∧ t = s.send b k) ∨
    (∃ r, s.main = some (.sent r) ∧
      t = { s with manager := s.manager.put r, main := some (.tracked r) }) ∨
    (∃ r, s.main = some (.tracked r) ∧ t = s.startCounting r) ∨
    (∃ m answers, e = .receive m answers ∧
      t = s.receive (onReceivedMessage xmlToJson m) answers) ∨
    (∃ i r manager, s.manager.expire s.now i = some (r, manager) ∧
      t = { s with manager, timedOut := r :: s.timedOut }) ∨
    ∃ ms : Nat, t = { s with now := s.now + ms } := by
  cases e with
  | send b k =>
    simp only [Tracking.step] at h
    split at h
    · next hmain => exact Or.inl ⟨b, k, hmain, (Option.some.inj h).symm⟩
    · cases h
  | put =>
    simp only [Tracking.step] at h
    split at h
    · next r hmain => exact Or.inr (Or.inl ⟨r, hmain, (Option.some.inj h).symm⟩)
    · cases h
  | startCounting =>
    simp only [Tracking.step] at h
    split at h
    · next r hmain => exact Or.inr (Or.inr (Or.inl ⟨r, hmain, (Option.some.inj h).symm⟩))
    · cases h
  | receive m answers =>
    exact Or.inr (Or.inr (Or.inr (Or.inl ⟨m, answers, rfl, (Option.some.inj h).symm⟩)))
  | expire i =>
    obtain ⟨⟨r, manager⟩, he, rfl⟩ := Option.map_eq_some_iff.mp h
    exact Or.inr (Or.inr (Or.inr (Or.inr (Or.inl ⟨i, r, manager, he, rfl⟩))))
  | advance ms =>
    exact Or.inr (Or.inr (Or.inr (Or.inr (Or.inr ⟨ms, (Option.some.inj h).symm⟩))))

/-! ## The invariant -/

/-- What holds while answers come in order. -/
structure Inv (s : Tracking) : Prop where
  fresh : ∀ r t, s.sentAt r = some t → r.id < s.next ∧ t ≤ s.now
  main : ∀ r, s.main = some (.sent r) ∨ s.main = some (.tracked r) →
    (∃ t, s.sentAt r = some t) ∧ r ∉ s.manager.cancelled
  unmapped : ∀ r, s.main = some (.sent r) → ∀ k, s.manager.mRequestMap k ≠ some r
  mapped : ∀ k r, s.manager.mRequestMap k = some r → ∃ t, s.sentAt r = some t
  cancelled : ∀ r ∈ s.manager.cancelled, ∃ t, s.sentAt r = some t
  counting : ∀ m ∈ s.manager.timers, m.what ∉ s.manager.cancelled ∧
    ∃ t, s.sentAt m.what = some t ∧ t + timeOut ≤ m.due
  answered : ∀ r ∈ s.answered, r ∈ s.manager.cancelled ∧ r ∉ s.timedOut
  late : ∀ r ∈ s.timedOut, ∃ t, s.sentAt r = some t ∧ t + timeOut ≤ s.now
  threw : s.threw = false

/-- Where a request is that waits for a response. -/
def Placed (s : Tracking) (r : SipRequest) : Prop :=
  s.main = some (.sent r) ∨ s.main = some (.tracked r) ∨ (∃ m ∈ s.manager.timers, m.what = r) ∨
    r ∈ s.manager.cancelled ∨ r ∈ s.timedOut

theorem inv_start : start.Inv where
  fresh := nofun
  main := by rintro r (h | h) <;> cases h
  unmapped := nofun
  mapped := nofun
  cancelled := nofun
  counting := nofun
  answered := nofun
  late := nofun
  threw := rfl

theorem Inv.sound {s : Tracking} (h : s.Inv) : s.Sound :=
  ⟨h.threw, fun r hr => (h.answered r hr).2⟩

/-- A new request is nowhere yet. -/
theorem Inv.sentAt_new {s : Tracking} (h : s.Inv) (b : Bool) (k : String) :
    s.sentAt ⟨s.next, b, k⟩ = none := by
  cases ht : s.sentAt ⟨s.next, b, k⟩ with
  | none => rfl
  | some t => exact absurd (h.fresh _ t ht).1 (lt_irrefl s.next)

theorem Inv.send {s : Tracking} (h : s.Inv) (b : Bool) (k : String) : (s.send b k).Inv := by
  have hnew := h.sentAt_new b k
  -- the sending times of the other requests stay
  have hold : ∀ r t, s.sentAt r = some t → (s.send b k).sentAt r = some t := by
    intro r t ht
    have hne : r ≠ ⟨s.next, b, k⟩ := fun he => by rw [he, hnew] at ht; cases ht
    rw [← ht]
    exact Function.update_of_ne hne _ _
  have hself : (s.send b k).sentAt ⟨s.next, b, k⟩ = some s.now := Function.update_self ..
  have hmain : ∀ r, (s.send b k).main = some (.sent r) ∨ (s.send b k).main = some (.tracked r) →
      r = ⟨s.next, b, k⟩ := by
    intro r hr
    change AddRequest.afterSend _ = _ ∨ AddRequest.afterSend _ = _ at hr
    unfold AddRequest.afterSend at hr
    split at hr
    · rcases hr with hr | hr <;> cases hr
      rfl
    · rcases hr with hr | hr <;> cases hr
  constructor
  · intro r t ht
    by_cases hr : r = ⟨s.next, b, k⟩
    · subst hr
      rw [hself] at ht
      exact ⟨Nat.lt_succ_self s.next, le_of_eq (Option.some.inj ht).symm⟩
    · have ht' : s.sentAt r = some t := by
        rw [← ht]
        exact (Function.update_of_ne hr _ _).symm
      exact ⟨Nat.lt_succ_of_lt (h.fresh r t ht').1, (h.fresh r t ht').2⟩
  · intro r hr
    obtain rfl := hmain r hr
    refine ⟨⟨s.now, hself⟩, fun hc => ?_⟩
    obtain ⟨t, ht⟩ := h.cancelled _ hc
    rw [hnew] at ht
    cases ht
  · intro r hr k' hk
    obtain rfl := hmain r (Or.inl hr)
    obtain ⟨t, ht⟩ := h.mapped k' _ hk
    rw [hnew] at ht
    cases ht
  · intro k' r hk
    obtain ⟨t, ht⟩ := h.mapped k' r hk
    exact ⟨t, hold r t ht⟩
  · intro r hr
    obtain ⟨t, ht⟩ := h.cancelled r hr
    exact ⟨t, hold r t ht⟩
  · intro m hm
    obtain ⟨hc, t, ht, hdue⟩ := h.counting m hm
    exact ⟨hc, t, hold m.what t ht, hdue⟩
  · exact h.answered
  · intro r hr
    obtain ⟨t, ht, hlate⟩ := h.late r hr
    exact ⟨t, hold r t ht, hlate⟩
  · exact h.threw

theorem Inv.put {s : Tracking} (h : s.Inv) {r : SipRequest} (hr : s.main = some (.sent r)) :
    { s with manager := s.manager.put r, main := some (.tracked r) : Tracking }.Inv := by
  have hmain := h.main r (Or.inl hr)
  refine { h with main := ?_, unmapped := nofun, mapped := ?_ }
  · rintro r' (hr' | hr')
    · cases hr'
    · obtain rfl : r = r' := by
        injection Option.some.inj hr'
      exact hmain
  · intro k r' hk
    rcases mRequestMap_put hk with ⟨-, rfl⟩ | hk
    · exact hmain.1
    · exact h.mapped k r' hk

theorem Inv.startCounting {s : Tracking} (h : s.Inv) {r : SipRequest}
    (hr : s.main = some (.tracked r)) : (s.startCounting r).Inv := by
  obtain ⟨⟨t, ht⟩, hc⟩ := h.main r (Or.inr hr)
  rcases s.startCounting_cases r with ⟨-, hstart⟩ | ⟨hc', -⟩
  · rw [hstart]
    refine { h with main := ?_, unmapped := nofun, counting := ?_ }
    · rintro r' (hr' | hr') <;> cases hr'
    · intro m hm
      rcases Looper.mem_postDelayed.mp hm with hm | rfl
      · exact h.counting m hm
      · refine ⟨hc, t, ht, ?_⟩
        have := (h.fresh r t ht).2
        show t + timeOut ≤ s.now + max timeOut 0
        omega
  · exact absurd hc' hc

theorem mem_answers {s : Tracking} {key : String} {json : JsonElement}
    {answers : Option SipRequest} {r : SipRequest}
    (hr : r ∈ s.answers (.answer key json) answers) :
    r ∈ s.answered ∨ (r ∈ answers ∧ s.InTime key r) := by
  cases answers with
  | none => exact Or.inl hr
  | some r' =>
    by_cases hin : s.InTime key r'
    · rw [show s.answers (.answer key json) (some r') = r' :: s.answered from if_pos hin] at hr
      rcases List.mem_cons.mp hr with rfl | hr
      · exact Or.inr ⟨rfl, hin⟩
      · exact Or.inl hr
    · rw [show s.answers (.answer key json) (some r') = s.answered from if_neg hin] at hr
      exact Or.inl hr

theorem Inv.answer {s : Tracking} (h : s.Inv) {key : String} {answers : Option SipRequest}
    {json : JsonElement}
    (hfound : ∀ r, s.manager.mRequestMap key = some r → s.main ≠ some (.tracked r))
    (hanswers : ∀ r ∈ answers, s.InTime key r →
      s.manager.mRequestMap key = some r ∨ r ∈ s.manager.cancelled) :
    (s.receive (.answer key json) answers).Inv := by
  constructor
  · exact h.fresh
  · intro r hr
    refine ⟨(h.main r hr).1, fun hc => ?_⟩
    rcases mem_cancelled_answer.mp hc with hk | hc
    · rcases hr with hr | hr
      · exact h.unmapped r hr key hk
      · exact hfound r hk hr
    · exact (h.main r hr).2 hc
  · intro r hr k hk
    exact h.unmapped r hr k (mRequestMap_of_answer hk)
  · intro k r hk
    exact h.mapped k r (mRequestMap_of_answer hk)
  · intro r hr
    rcases mem_cancelled_answer.mp hr with hk | hr
    · exact h.mapped key r hk
    · exact h.cancelled r hr
  · intro m hm
    obtain ⟨hm, hne⟩ := mem_timers_answer.mp hm
    refine ⟨fun hc => ?_, (h.counting m hm).2⟩
    rcases mem_cancelled_answer.mp hc with hk | hc
    · exact hne hk
    · exact (h.counting m hm).1 hc
  · intro r hr
    rcases mem_answers hr with hr | ⟨hr, hin⟩
    · exact ⟨mem_cancelled_answer.mpr (Or.inr (h.answered r hr).1), (h.answered r hr).2⟩
    · refine ⟨mem_cancelled_answer.mpr (hanswers r hr hin), fun hlate => ?_⟩
      obtain ⟨t, ht, hle⟩ := h.late r hlate
      obtain ⟨-, -, t', ht', hlt⟩ := hin
      obtain rfl : t = t' := Option.some.inj (ht.symm.trans ht')
      change t + timeOut ≤ s.now at hle
      omega
  · exact h.late
  · exact h.threw

theorem Inv.expire {s : Tracking} (h : s.Inv) {i : Nat} {r : SipRequest} {d : SipDevManager}
    (he : s.manager.expire s.now i = some (r, d)) :
    { s with manager := d, timedOut := r :: s.timedOut : Tracking }.Inv := by
  obtain ⟨m, hm, hdue, rfl, rfl⟩ := expire_eq_some he
  obtain ⟨hc, t, ht, hle⟩ := h.counting m (List.mem_of_getElem? hm)
  refine { h with counting := ?_, answered := ?_, late := ?_ }
  · intro m' hm'
    exact h.counting m' (List.mem_of_mem_eraseIdx hm')
  · intro r hr
    refine ⟨(h.answered r hr).1, fun hlate => ?_⟩
    rcases List.mem_cons.mp hlate with rfl | hlate
    · exact hc (h.answered _ hr).1
    · exact (h.answered r hr).2 hlate
  · intro r hr
    rcases List.mem_cons.mp hr with rfl | hr
    · exact ⟨t, ht, hle.trans hdue⟩
    · exact h.late r hr

theorem Inv.advance {s : Tracking} (h : s.Inv) (ms : Nat) :
    { s with now := s.now + ms : Tracking }.Inv := by
  refine { h with fresh := fun r t ht => ?_, late := fun r hr => ?_ }
  · obtain ⟨hid, hle⟩ := h.fresh r t ht
    exact ⟨hid, show t ≤ s.now + ms by omega⟩
  · obtain ⟨t, ht, hle⟩ := h.late r hr
    exact ⟨t, ht, show t + timeOut ≤ s.now + ms by omega⟩

theorem Inv.step {xmlToJson : String → Option JsonElement} {s t : Tracking} {e : TrackingEvent}
    (h : s.Inv) (hC : s.InOrder xmlToJson e) (ht : s.step xmlToJson e = some t) : t.Inv := by
  rcases step_cases ht with ⟨b, k, -, rfl⟩ | ⟨r, hr, rfl⟩ | ⟨r, hr, rfl⟩ | ⟨m, answers, rfl, rfl⟩ |
      ⟨i, r, manager, he, rfl⟩ | ⟨ms, rfl⟩
  · exact h.send b k
  · exact h.put hr
  · exact h.startCounting hr
  · cases hrec : onReceivedMessage xmlToJson m with
    | nothing => exact h
    | post key json => exact h
    | answer key json =>
      obtain ⟨hfound, hanswers⟩ := hC key json hrec
      exact h.answer hfound hanswers
  · exact h.expire he
  · exact h.advance ms

theorem always_sound {xmlToJson : String → Option JsonElement} {es : List TrackingEvent}
    (h : (trackingMachine xmlToJson).Each (InOrder xmlToJson) es) :
    (trackingMachine xmlToJson).Always Sound es :=
  (trackingMachine xmlToJson).always_of_each inv_start (fun _ _ _ h hC ht => h.step hC ht)
    (fun _ h => h.sound) h

end Tracking

/-- **When answers come in order, no answered request times out and `addRequest` never
throws.** -/
theorem answered_not_timedOut (xmlToJson : String → Option JsonElement)
    (es : List TrackingEvent)
    (hes : (trackingMachine xmlToJson).Each (Tracking.InOrder xmlToJson) es) :
    (trackingMachine xmlToJson).Always Tracking.Sound es :=
  Tracking.always_sound hes

/-- A login and a heartbeat wait at once, and both are answered after a second. -/
def loginAndHeartBeat : List TrackingEvent :=
  [.send true "login_response", .put, .startCounting,
    .send true "login_response", .put, .startCounting, .advance 1000,
    .receive loginOk (some ⟨0, true, "login_response"⟩),
    .receive loginOk (some ⟨1, true, "login_response"⟩), .advance 2000, .expire 0]

/-- The heartbeat has taken the login's place in the map, so the login times out. -/
theorem not_forall_sound : ¬ ∀ (xmlToJson : String → Option JsonElement)
    (es : List TrackingEvent), (trackingMachine xmlToJson).Always Tracking.Sound es := by
  intro h
  have hrun : ((trackingMachine sampleXmlToJson).run loginAndHeartBeat).map
      (fun s => (s.answered, s.timedOut)) =
      some ([⟨1, true, "login_response"⟩, ⟨0, true, "login_response"⟩],
        [⟨0, true, "login_response"⟩]) := by
    decide +kernel
  obtain ⟨s, hs, hout⟩ := Option.map_eq_some_iff.mp hrun
  obtain ⟨hanswered, htimedOut⟩ := Prod.mk.inj hout
  refine ((h sampleXmlToJson loginAndHeartBeat).last hs).2 ⟨0, true, "login_response"⟩ ?_ ?_
  · rw [hanswered]
    decide
  · rw [htimedOut]
    decide

/-- An answer to the request that it finds, while `addRequest` is not running. -/
theorem Tracking.inOrder_of_found {xmlToJson : String → Option JsonElement} {s : Tracking}
    {m : Message} {key : String} {json : JsonElement} {r : SipRequest}
    (hrec : onReceivedMessage xmlToJson m = .answer key json) (hmain : s.main = none)
    (hmap : s.manager.mRequestMap key = some r) :
    s.InOrder xmlToJson (.receive m (some r)) := by
  intro key' json' hrec'
  obtain ⟨rfl, -⟩ := Received.answer.inj (hrec.symm.trans hrec')
  refine ⟨fun r' _ hr' => ?_, fun r' hr' _ => ?_⟩
  · rw [hmain] at hr'
    cases hr'
  · obtain rfl := Option.some.inj hr'
    exact Or.inl hmap

/-- A seed request and a login that count at the same time. -/
def overlapping : List TrackingEvent :=
  [.send true "negotiate_response", .put, .startCounting,
    .send true "login_response", .put, .startCounting, .advance 1000]

/-- The login is answered first. -/
def loginAndSeed : List TrackingEvent :=
  overlapping ++ [.receive loginOk (some ⟨1, true, "login_response"⟩)] ++
    [.receive twoSalts (some ⟨0, true, "negotiate_response"⟩)]

theorem loginAndSeed_inOrder :
    (trackingMachine sampleXmlToJson).Each (Tracking.InOrder sampleXmlToJson) loginAndSeed := by
  refine (trackingMachine sampleXmlToJson).each_concat.mpr
    ⟨(trackingMachine sampleXmlToJson).each_concat.mpr ⟨?_, fun t ht => ?_⟩, fun t ht => ?_⟩
  · refine (trackingMachine sampleXmlToJson).each_append_of_mem
      (trackingMachine sampleXmlToJson).each_nil fun e he s => ?_
    simp only [List.mem_cons, List.not_mem_nil, or_false] at he
    rcases he with rfl | rfl | rfl | rfl | rfl | rfl | rfl <;> trivial
  · have hrun : ((trackingMachine sampleXmlToJson).run overlapping).map
        (fun t => (t.main, t.manager.mRequestMap "login_response")) =
        some (none, some ⟨1, true, "login_response"⟩) := by
      decide +kernel
    rw [ht, Option.map_some, Option.some.injEq, Prod.mk.injEq] at hrun
    exact Tracking.inOrder_of_found rfl hrun.1 hrun.2
  · have hrun : ((trackingMachine sampleXmlToJson).run
        (overlapping ++ [.receive loginOk (some ⟨1, true, "login_response"⟩)])).map
        (fun t => (t.main, t.manager.mRequestMap "negotiate_response")) =
        some (none, some ⟨0, true, "negotiate_response"⟩) := by
      decide +kernel
    rw [ht, Option.map_some, Option.some.injEq, Prod.mk.injEq] at hrun
    exact Tracking.inOrder_of_found rfl hrun.1 hrun.2

theorem answered_not_timedOut_loginAndSeed :
    (trackingMachine sampleXmlToJson).Each (Tracking.InOrder sampleXmlToJson) loginAndSeed ∧
    ((trackingMachine sampleXmlToJson).run loginAndSeed).map (fun s => s.answered.length) =
      some 2 ∧
    (trackingMachine sampleXmlToJson).Always Tracking.Sound loginAndSeed :=
  ⟨loginAndSeed_inOrder, by decide +kernel,
    answered_not_timedOut sampleXmlToJson loginAndSeed loginAndSeed_inOrder⟩

/-! ## The condition is exact

An answer out of order need not break the run at once, and a later answer can still save
it.  But if no more messages come, it is lost: so a run keeps the condition exactly when it
is sound, and stays so from every point on, however it ends without another message. -/

namespace Tracking

/-- Steps that bring no message and no new request. -/
def Quiet : TrackingEvent → Prop
  | .send _ _ | .receive _ _ => False
  | .put | .startCounting | .expire _ | .advance _ => True

theorem Quiet.inOrder {xmlToJson : String → Option JsonElement} {s : Tracking}
    {e : TrackingEvent} (h : Quiet e) : s.InOrder xmlToJson e := by
  cases e with
  | send => trivial
  | put => trivial
  | startCounting => trivial
  | receive => exact h.elim
  | expire => trivial
  | advance => trivial

/-- Every tracked request that was sent is somewhere. -/
def AllPlaced (s : Tracking) : Prop :=
  ∀ r t, s.sentAt r = some t → r.hasResponse = true → s.Placed r

/-- What is not in `addRequest` stays where it is, unless a step moves it. -/
theorem Placed.mono {s t : Tracking} {r : SipRequest} (h : s.Placed r)
    (hsent : s.main = some (.sent r) → t.Placed r)
    (htracked : s.main = some (.tracked r) → t.Placed r)
    (htimers : ∀ m ∈ s.manager.timers, m.what = r → t.Placed r)
    (hcancelled : ∀ r ∈ s.manager.cancelled, r ∈ t.manager.cancelled)
    (htimedOut : ∀ r ∈ s.timedOut, r ∈ t.timedOut) : t.Placed r := by
  rcases h with h | h | ⟨m, hm, hr⟩ | h | h
  · exact hsent h
  · exact htracked h
  · exact htimers m hm hr
  · exact Or.inr (Or.inr (Or.inr (Or.inl (hcancelled r h))))
  · exact Or.inr (Or.inr (Or.inr (Or.inr (htimedOut r h))))

theorem Placed.of_timer {t : Tracking} {r : SipRequest} {m : Delayed SipRequest}
    (hm : m ∈ t.manager.timers) (hr : m.what = r) : t.Placed r :=
  Or.inr (Or.inr (Or.inl ⟨m, hm, hr⟩))

theorem AllPlaced.send {s : Tracking} (h : s.AllPlaced) (hmain : s.main = none) (b : Bool)
    (k : String) : (s.send b k).AllPlaced := by
  intro r t hsent hr
  by_cases hnew : r = ⟨s.next, b, k⟩
  · subst hnew
    exact Or.inl (if_pos hr)
  · have hold : s.sentAt r = some t := by
      rw [← hsent]
      exact (Function.update_of_ne hnew _ _).symm
    refine (h r t hold hr).mono ?_ ?_ (fun m hm => .of_timer hm) (fun _ hc => hc) fun _ ho => ho
    · rw [hmain]
      exact nofun
    · rw [hmain]
      exact nofun

theorem AllPlaced.put {s : Tracking} (h : s.AllPlaced) {r : SipRequest}
    (hmain : s.main = some (.sent r)) :
    { s with manager := s.manager.put r, main := some (.tracked r) : Tracking }.AllPlaced := by
  intro r' t hsent hr'
  refine (h r' t hsent hr').mono (fun he => ?_) (fun he => ?_) (fun m hm => .of_timer hm)
    (fun _ hc => hc) fun _ ho => ho
  · rw [hmain] at he
    injection Option.some.inj he with he
    exact Or.inr (Or.inl (by rw [he]))
  · rw [hmain] at he
    cases he

theorem AllPlaced.startCounting {s : Tracking} (h : s.AllPlaced) {r : SipRequest}
    (hmain : s.main = some (.tracked r)) : (s.startCounting r).AllPlaced := by
  rcases s.startCounting_cases r with ⟨-, hstart⟩ | ⟨hc, hstart⟩
  · rw [hstart]
    intro r' t hsent hr'
    refine (h r' t hsent hr').mono (fun he => ?_) (fun he => ?_) (fun m hm => ?_) (fun _ hc => hc)
      fun _ ho => ho
    · rw [hmain] at he
      cases he
    · rw [hmain] at he
      injection Option.some.inj he with he
      exact .of_timer (Looper.mem_postDelayed.mpr (Or.inr rfl)) he
    · exact .of_timer (Looper.mem_postDelayed.mpr (Or.inl hm))
  · rw [hstart]
    intro r' t hsent hr'
    refine (h r' t hsent hr').mono (fun he => ?_) (fun he => ?_) (fun m hm => .of_timer hm)
      (fun _ hc => hc) fun _ ho => ho
    · rw [hmain] at he
      cases he
    · rw [hmain] at he
      injection Option.some.inj he with he
      exact Or.inr (Or.inr (Or.inr (Or.inl (by rwa [← he]))))

theorem AllPlaced.receive {s : Tracking} (h : s.AllPlaced) (received : Received)
    (answers : Option SipRequest) : (s.receive received answers).AllPlaced := by
  intro r t hsent hr
  have hold : s.Placed r := h r t hsent hr
  cases received with
  | nothing => exact hold
  | post key json => exact hold
  | answer key json =>
    refine hold.mono Or.inl (fun he => Or.inr (Or.inl he)) (fun m hm hwhat => ?_)
      (fun _ hc => mem_cancelled_answer.mpr (Or.inr hc)) fun _ ho => ho
    by_cases hk : s.manager.mRequestMap key = some m.what
    · rw [hwhat] at hk
      exact Or.inr (Or.inr (Or.inr (Or.inl (mem_cancelled_answer.mpr (Or.inl hk)))))
    · exact .of_timer (mem_timers_answer.mpr ⟨hm, hk⟩) hwhat

theorem AllPlaced.expire {s : Tracking} (h : s.AllPlaced) {i : Nat} {r : SipRequest}
    {manager : SipDevManager} (he : s.manager.expire s.now i = some (r, manager)) :
    { s with manager, timedOut := r :: s.timedOut : Tracking }.AllPlaced := by
  intro r' t hsent hr'
  refine (h r' t hsent hr').mono Or.inl (fun he => Or.inr (Or.inl he)) (fun m hm hwhat => ?_)
    (fun r'' hc => ?_) fun _ ho => List.mem_cons_of_mem _ ho
  · rcases mem_expire he hm with hr | hm
    · exact Or.inr (Or.inr (Or.inr (Or.inr (List.mem_cons.mpr (Or.inl (hwhat.symm.trans hr))))))
    · exact .of_timer hm hwhat
  · obtain ⟨_, -, -, -, rfl⟩ := expire_eq_some he
    exact hc

theorem AllPlaced.step {xmlToJson : String → Option JsonElement} {s t : Tracking}
    {e : TrackingEvent} (h : s.AllPlaced) (ht : s.step xmlToJson e = some t) : t.AllPlaced := by
  rcases step_cases ht with ⟨b, k, hmain, rfl⟩ | ⟨r, hr, rfl⟩ | ⟨r, hr, rfl⟩ |
      ⟨m, answers, -, rfl⟩ | ⟨i, r, manager, he, rfl⟩ | ⟨ms, rfl⟩
  · exact h.send hmain b k
  · exact h.put hr
  · exact h.startCounting hr
  · exact h.receive _ answers
  · exact h.expire he
  · exact h

/-- The run can leave `Sound` without another message. -/
def Unsafe (xmlToJson : String → Option JsonElement) (es : List TrackingEvent) : Prop :=
  ∃ es', (∀ e ∈ es', Quiet e) ∧ ¬ (trackingMachine xmlToJson).Always Sound (es ++ es')

variable {xmlToJson : String → Option JsonElement} {es : List TrackingEvent} {s : Tracking}

theorem run_step {e : TrackingEvent} {t : Tracking}
    (hs : (trackingMachine xmlToJson).run es = some s) (ht : s.step xmlToJson e = some t) :
    (trackingMachine xmlToJson).run (es ++ [e]) = some t :=
  (trackingMachine xmlToJson).run_concat_eq_some.mpr ⟨s, hs, ht⟩

theorem unsafe_of_not_sound (hs : (trackingMachine xmlToJson).run es = some s)
    (h : ¬ s.Sound) : Unsafe xmlToJson es :=
  StepMachine.doomed_of_not hs h

theorem unsafe_of_concat {e : TrackingEvent} (he : Quiet e) (h : Unsafe xmlToJson (es ++ [e])) :
    Unsafe xmlToJson es :=
  StepMachine.doomed_of_concat he h

/-- An answered request whose timer is counting: time passes, and the timer runs out. -/
theorem unsafe_of_counting (hs : (trackingMachine xmlToJson).run es = some s) {r : SipRequest}
    (hr : r ∈ s.answered) {m : Delayed SipRequest} (hm : m ∈ s.manager.timers)
    (hwhat : m.what = r) : Unsafe xmlToJson es := by
  obtain ⟨i, hi⟩ := List.mem_iff_getElem?.mp hm
  let ms := (m.due - s.now).toNat
  have hadvance := run_step hs (rfl : s.step xmlToJson (.advance ms) = some _)
  have hdue : m.due ≤ s.now + ms := by
    have := Int.self_le_toNat (m.due - s.now)
    omega
  have htake : Looper.take (s.now + ms) i s.manager.timers =
      some (m, s.manager.timers.eraseIdx i) := by
    unfold Looper.take
    rw [hi]
    exact if_pos hdue
  have hexpire : { s with now := s.now + ms : Tracking }.step xmlToJson (.expire i) = some
      { s with
        now := s.now + ms
        manager := { s.manager with timers := s.manager.timers.eraseIdx i }
        timedOut := m.what :: s.timedOut } := by
    simp only [Tracking.step, SipDevManager.expire, htake, Option.map_some]
  refine unsafe_of_concat (e := .advance ms) trivial (unsafe_of_concat (e := .expire i) trivial ?_)
  refine unsafe_of_not_sound (run_step hadvance hexpire) ?_
  rintro ⟨-, hnot⟩
  exact hnot r hr (List.mem_cons.mpr (Or.inl hwhat.symm))

/-- A request between `put` and `startCounting` that is answered, or cancelled. -/
theorem unsafe_of_tracked (hs : (trackingMachine xmlToJson).run es = some s) {r : SipRequest}
    (hmain : s.main = some (.tracked r)) (hr : r ∈ s.answered ∨ r ∈ s.manager.cancelled) :
    Unsafe xmlToJson es := by
  have hstep : s.step xmlToJson .startCounting = some (s.startCounting r) := by
    simp only [Tracking.step, hmain]
  have hrun := run_step hs hstep
  refine unsafe_of_concat (e := .startCounting) trivial ?_
  rcases s.startCounting_cases r with ⟨hc, hstart⟩ | ⟨-, hstart⟩
  · rw [hstart] at hrun
    exact unsafe_of_counting hrun (hr.resolve_right hc)
      (Looper.mem_postDelayed.mpr (Or.inr rfl)) rfl
  · rw [hstart] at hrun
    refine unsafe_of_not_sound hrun ?_
    rintro ⟨hthrew, -⟩
    cases hthrew

theorem unsafe_of_sent (hs : (trackingMachine xmlToJson).run es = some s) {r : SipRequest}
    (hmain : s.main = some (.sent r)) (hr : r ∈ s.answered) : Unsafe xmlToJson es := by
  have hstep : s.step xmlToJson .put =
      some { s with manager := s.manager.put r, main := some (.tracked r) } := by
    simp only [Tracking.step, hmain]
  have hrun := run_step hs hstep
  exact unsafe_of_concat (e := .put) trivial (unsafe_of_tracked hrun rfl (Or.inl hr))

/-- An answer out of order makes the run unsafe. -/
theorem unsafe_of_not_inOrder {e : TrackingEvent} {t : Tracking} (h : s.Inv)
    (hplaced : s.AllPlaced) (ht : (trackingMachine xmlToJson).run (es ++ [e]) = some t)
    (hstep : s.step xmlToJson e = some t) (hnot : ¬ s.InOrder xmlToJson e) :
    Unsafe xmlToJson (es ++ [e]) := by
  cases e with
  | receive m answers =>
    obtain rfl := Option.some.inj hstep
    simp only [InOrder, not_forall] at hnot
    obtain ⟨key, json, hrec, hnot⟩ := hnot
    rw [hrec] at ht
    by_cases hfound : ∃ r, s.manager.mRequestMap key = some r ∧ s.main = some (.tracked r)
    · -- `startCounting` will throw
      obtain ⟨r, hk, hmain⟩ := hfound
      exact unsafe_of_tracked ht hmain (Or.inr (mem_cancelled_answer.mpr (Or.inl hk)))
    · -- the request that is answered will time out
      have hanswers : ¬ ∀ r ∈ answers, s.InTime key r →
          s.manager.mRequestMap key = some r ∨ r ∈ s.manager.cancelled := by
        refine fun hall => hnot ⟨fun r hk hmain => hfound ⟨r, hk, hmain⟩, hall⟩
      simp only [not_forall, not_or] at hanswers
      obtain ⟨r, rfl, hin, hk, hc⟩ := hanswers
      have hanswered : r ∈ s.answers (.answer key json) (some r) := by
        rw [show s.answers (.answer key json) (some r) = r :: s.answered from if_pos hin]
        exact List.mem_cons_self
      obtain ⟨hresp, -, t, hsent, hlt⟩ := hin
      rcases hplaced r t hsent hresp with hp | hp | ⟨m', hp, rfl⟩ | hp | hp
      · exact unsafe_of_sent ht hp hanswered
      · exact unsafe_of_tracked ht hp (Or.inl hanswered)
      · exact unsafe_of_counting ht hanswered (mem_timers_answer.mpr ⟨hp, hk⟩) rfl
      · exact absurd hp hc
      · obtain ⟨t', ht', hle⟩ := h.late r hp
        obtain rfl : t = t' := Option.some.inj (hsent.symm.trans ht')
        omega
  | _ => exact absurd trivial hnot

end Tracking

/-- **The condition is exact**: the answers of a run come in order exactly when the run is sound
however it ends, from any point on, without another message. -/
theorem safe_iff_inOrder (xmlToJson : String → Option JsonElement) (es : List TrackingEvent)
    (s : Tracking) (hs : (trackingMachine xmlToJson).run es = some s) :
    (∀ pre, pre <+: es → ∀ es', (∀ e ∈ es', Tracking.Quiet e) →
      (trackingMachine xmlToJson).Always Tracking.Sound (pre ++ es')) ↔
    (trackingMachine xmlToJson).Each (Tracking.InOrder xmlToJson) es := by
  refine (trackingMachine xmlToJson).safe_iff_each (I := fun s => s.Inv ∧ s.AllPlaced)
    ⟨Tracking.inv_start, nofun⟩ ?_ (fun _ h => h.1.sound) (fun _ _ he => he.inOrder) ?_ hs
  · intro s e t h hC ht
    exact ⟨h.1.step hC ht, h.2.step ht⟩
  · intro es e s t hs h ht hnot
    exact Tracking.unsafe_of_not_inOrder h.1 h.2 (Tracking.run_step hs ht) ht hnot

end PetDev.Sip
