import PetDev.Feed.Feeder
import PetDev.Lib.StepMachine
import PetDev.Sip.SipDevManager

/-!
# One live `HomeActivity`

The device registers in a chain: `registerDev` asks for a seed, `RegisterService` answers it
with a login, `LoginService` queues a heartbeat 20 seconds later, and the heartbeat is
answered like a login.  A time-out leads back to `registerDev`.

All of it meets on the main thread.  `SipServiceManager` posts one message for each service
call and each time-out, and they are handled in order.  `addRequest` runs in the three steps
of `SipDevManager`, during which the main thread does nothing else; what it throws is caught
by `NormalRequestService.handleRequest`, by EventBus around its subscribers and by the
HTTP delivery, and is not caught in a time-out of `RegisterService`, a heartbeat or a
broadcast receiver, where it ends the process and the run.  `onReceivedMessage` is
synchronized and runs on the receiver thread as one step.

The services left out (plan, weight, reset, WiFi, video, music, volume and error) touch
neither the chain nor the immediate feeds.  The state remembers the times at which
heartbeats were sent and the messages for which `feedNow` started the motor, the latest first.
-/

namespace PetDev.Sip

open Android Feed

/-- The responses of the chain. -/
def InChain (targetResponse : String) : Prop :=
  targetResponse = "negotiate_response" ∨ targetResponse = "login_response"

/-- `HeartBeatHelper.DELAY`. -/
def DELAY : Int := 20 * 1000

/-- A message that `SipServiceManager` posts to the main thread. -/
inductive MainMessage where
  | request (key : String) (json : JsonElement) (msg : Message)
  | timeOut (key : String) (r : SipRequest)

/-- A posted message whose handling starts the next link. -/
def MainMessage.LeadsOn (lib : Libraries) : MainMessage → Prop
  | .request key json _ => key = "login_response" ∨
      key = "negotiate_response" ∧ (lib.negotiateResponse json.toObject).isSome
  | .timeOut key _ => InChain key

structure Phone where
  now : Int
  next : Nat
  manager : SipDevManager
  /-- The `addRequest` under way, and whether its exception is caught. -/
  main : Option (AddRequest × Bool)
  queue : List MainMessage
  heartBeats : List (Delayed Unit)
  isFirst : Bool
  beats : List Int
  feeds : List MessageId

/-- What the main thread does next. -/
inductive MainEvent where
  | onResume
  | networkChange
  | weightToSipServer
  /-- The next message of `SipServiceManager`. -/
  | dispatch
  /-- The `i`-th heartbeat message. -/
  | heartBeat (i : Nat)

inductive PhoneEvent where
  | main (e : MainEvent)
  | put
  | startCounting
  | receive (m : Message)
  | expire (i : Nat)
  | advance (ms : Nat)

namespace Phone

/-- Before the activity is resumed. -/
def start : Phone := ⟨0, 0, SipDevManager.empty, none, [], [], true, [], []⟩

/-- `addRequest`, up to `sendMessage`. -/
def addRequest (targetResponse : String) (caught : Bool) (s : Phone) : Phone :=
  let r : SipRequest := ⟨s.next, true, targetResponse⟩
  { s with
    next := s.next + 1
    main := (AddRequest.afterSend r).map fun a => (a, caught) }

/-- Adds a `SipGetDevSeedRequest`. -/
def registerDev (caught : Bool) (s : Phone) : Phone := s.addRequest "negotiate_response" caught

/-! ## The handlers of `HomeActivity` -/

def onLoginResponse (s : Phone) : Phone :=
  if s.heartBeats = [] then
    { s with heartBeats := Looper.postDelayed s.now DELAY () s.heartBeats }
  else s

def onReRegisterEvent (s : Phone) : Phone := { s with heartBeats := [] }.registerDev true

/-- `feedNow`, as far as it starts the motor. -/
def feedNow (feedCount : Option String) (msg : Message) (s : Phone) : Phone :=
  match Feeder.startedBy feedCount with
  | some _ => { s with feeds := msg.id :: s.feeds }
  | none => s

/-- Adds a `SipHeartBeatRequest`. -/
def heartBeat (s : Phone) : Phone :=
  { s with beats := s.now :: s.beats }.addRequest "login_response" false

/-! ## The services -/

def registerService (lib : Libraries) (json : JsonElement) (s : Phone) : Phone :=
  match lib.negotiateResponse json.toObject with
  | some _ => s.addRequest "login_response" true
  | none => s

/-- `LoginResponse` has no fields, so every answer fits. -/
def loginService (s : Phone) : Phone := s.onLoginResponse

def feedNowService (lib : Libraries) (json : JsonElement) (msg : Message) (s : Phone) : Phone :=
  match lib.feedNotifyData json.toObject with
  | some result => s.feedNow result.feedCount msg
  | none => s

def handleRequest (lib : Libraries) (key : String) (json : JsonElement) (msg : Message)
    (s : Phone) : Phone :=
  if key = "negotiate_response" then s.registerService lib json
  else if key = "login_response" then s.loginService
  else if key = "feed_now_response" then s.feedNowService lib json msg
  else s

def handleTimeOut (key : String) (s : Phone) : Phone :=
  if key = "negotiate_response" then s.registerDev false
  else if key = "login_response" then s.onReRegisterEvent
  else s

def handleMessage (lib : Libraries) (s : Phone) : MainMessage → Phone
  | .request key json msg => s.handleRequest lib key json msg
  | .timeOut key _ => s.handleTimeOut key

/-! ## The machine -/

/-- A step of the main thread while it is not in `addRequest`. -/
def mainStep (lib : Libraries) (s : Phone) : MainEvent → Option Phone
  | .onResume => some (if s.isFirst then { s with isFirst := false }.registerDev false else s)
  | .networkChange => some (if s.heartBeats = [] then s.registerDev false else s)
  | .weightToSipServer => some (s.addRequest "weight_response" true)
  | .dispatch =>
    match s.queue with
    | m :: queue => some ({ s with queue }.handleMessage lib m)
    | [] => none
  | .heartBeat i =>
    (Looper.take s.now i s.heartBeats).map fun p => { s with heartBeats := p.2 }.heartBeat

def startCounting (r : SipRequest) (caught : Bool) (s : Phone) : Option Phone :=
  match s.manager.startCounting s.now r with
  | some manager => some { s with manager, main := none }
  | none => if caught then some { s with main := none } else none

/-- The service call that an incoming message posts. -/
def post (m : Message) : Received → List MainMessage
  | .answer key json => [.request key json m]
  | .post key json => [.request key json m]
  | .nothing => []

def receive (m : Message) (received : Received) (s : Phone) : Phone :=
  { s with
    queue := s.queue ++ post m received
    manager := s.manager.receive received }

def step (lib : Libraries) (s : Phone) : PhoneEvent → Option Phone
  | .main e =>
    match s.main with
    | none => s.mainStep lib e
    | some _ => none
  | .put =>
    match s.main with
    | some (.sent r, caught) =>
      some { s with manager := s.manager.put r, main := some (.tracked r, caught) }
    | _ => none
  | .startCounting =>
    match s.main with
    | some (.tracked r, caught) => s.startCounting r caught
    | _ => none
  | .receive m => some (s.receive m (SipDevManager.onReceivedMessage lib.xmlToJson m))
  | .expire i =>
    (s.manager.expire s.now i).map fun p =>
      { s with manager := p.2, queue := s.queue ++ [.timeOut p.1.targetResponse p.1] }
  | .advance ms => some { s with now := s.now + ms }

end Phone

def phoneMachine (lib : Libraries) : StepMachine Phone PhoneEvent :=
  ⟨Phone.start, Phone.step lib⟩

namespace Phone

/-! ## What a step can do -/

theorem feedNowService_cases (lib : Libraries) (s : Phone) (json : JsonElement) (msg : Message) :
    s.feedNowService lib json msg = { s with feeds := msg.id :: s.feeds } ∨
      s.feedNowService lib json msg = s := by
  unfold Phone.feedNowService Phone.feedNow
  split
  · split
    · exact Or.inl rfl
    · exact Or.inr rfl
  · exact Or.inr rfl

/-- A posted message starts the next link, feeds, or does nothing. -/
theorem handleMessage_cases (lib : Libraries) (s : Phone) (m : MainMessage) :
    (m.LeadsOn lib ∧ ∃ k caught, InChain k ∧ s.handleMessage lib m = s.addRequest k caught) ∨
    (m.LeadsOn lib ∧ s.handleMessage lib m = s.onLoginResponse) ∨
    (m.LeadsOn lib ∧ s.handleMessage lib m = s.onReRegisterEvent) ∨
    (¬ m.LeadsOn lib ∧ ∃ json msg, m = .request "feed_now_response" json msg ∧
      s.handleMessage lib m = { s with feeds := msg.id :: s.feeds }) ∨
    (¬ m.LeadsOn lib ∧ s.handleMessage lib m = s) := by
  cases m with
  | request key json msg =>
    show (_ ∧ ∃ k caught, InChain k ∧ s.handleRequest lib key json msg = _) ∨
      (_ ∧ s.handleRequest lib key json msg = _) ∨ (_ ∧ s.handleRequest lib key json msg = _) ∨
      (_ ∧ ∃ json' msg', _ ∧ s.handleRequest lib key json msg = _) ∨
      (_ ∧ s.handleRequest lib key json msg = _)
    unfold Phone.handleRequest
    by_cases hnegotiate : key = "negotiate_response"
    · rw [if_pos hnegotiate]
      unfold Phone.registerService
      cases hfits : lib.negotiateResponse json.toObject with
      | some result =>
        refine Or.inl ⟨Or.inr ⟨hnegotiate, by rw [hfits]; rfl⟩, _, _, Or.inr rfl, rfl⟩
      | none =>
        refine Or.inr (Or.inr (Or.inr (Or.inr ⟨?_, rfl⟩)))
        rintro (hlogin | ⟨-, hsome⟩)
        · rw [hnegotiate] at hlogin
          exact absurd hlogin (by decide)
        · rw [hfits] at hsome
          cases hsome
    · rw [if_neg hnegotiate]
      by_cases hlogin : key = "login_response"
      · rw [if_pos hlogin]
        exact Or.inr (Or.inl ⟨Or.inl hlogin, rfl⟩)
      · rw [if_neg hlogin]
        have hnot : ¬ (MainMessage.request key json msg).LeadsOn lib :=
          not_or.mpr ⟨hlogin, fun h => hnegotiate h.1⟩
        by_cases hfeed : key = "feed_now_response"
        · rw [if_pos hfeed]
          rcases s.feedNowService_cases lib json msg with h | h
          · exact Or.inr (Or.inr (Or.inr (Or.inl ⟨hnot, json, msg, by rw [hfeed], h⟩)))
          · exact Or.inr (Or.inr (Or.inr (Or.inr ⟨hnot, h⟩)))
        · rw [if_neg hfeed]
          exact Or.inr (Or.inr (Or.inr (Or.inr ⟨hnot, rfl⟩)))
  | timeOut key r =>
    show (_ ∧ ∃ k caught, InChain k ∧ s.handleTimeOut key = _) ∨ (_ ∧ s.handleTimeOut key = _) ∨
      (_ ∧ s.handleTimeOut key = _) ∨ (_ ∧ ∃ json msg, _ ∧ s.handleTimeOut key = _) ∨
      (_ ∧ s.handleTimeOut key = _)
    unfold Phone.handleTimeOut
    by_cases hnegotiate : key = "negotiate_response"
    · rw [if_pos hnegotiate]
      exact Or.inl ⟨Or.inl hnegotiate, _, _, Or.inl rfl, rfl⟩
    · rw [if_neg hnegotiate]
      by_cases hlogin : key = "login_response"
      · rw [if_pos hlogin]
        exact Or.inr (Or.inr (Or.inl ⟨Or.inr hlogin, rfl⟩))
      · rw [if_neg hlogin]
        exact Or.inr (Or.inr (Or.inr (Or.inr ⟨not_or.mpr ⟨hnegotiate, hlogin⟩, rfl⟩)))

/-- The main thread adds a request, handles a posted message or sends a heartbeat. -/
theorem mainStep_cases {lib : Libraries} {s t : Phone} {e : MainEvent}
    (h : s.mainStep lib e = some t) :
    (∃ k caught, InChain k ∧ t = s.addRequest k caught) ∨
    (∃ k caught, InChain k ∧ t = { s with isFirst := false }.addRequest k caught) ∨
    t = s.addRequest "weight_response" true ∨
    (t = s ∧ (s.isFirst = false ∨ s.heartBeats ≠ [])) ∨
    (∃ m queue, s.queue = m :: queue ∧ t = { s with queue }.handleMessage lib m) ∨
    ∃ i m q, Looper.take s.now i s.heartBeats = some (m, q) ∧
      t = { s with heartBeats := q }.heartBeat := by
  cases e with
  | onResume =>
    obtain rfl := Option.some.inj h
    cases hfirst : s.isFirst with
    | true => exact Or.inr (Or.inl ⟨_, _, Or.inl rfl, rfl⟩)
    | false => exact Or.inr (Or.inr (Or.inr (Or.inl ⟨rfl, Or.inl rfl⟩)))
  | networkChange =>
    obtain rfl := Option.some.inj h
    by_cases hb : s.heartBeats = []
    · rw [if_pos hb]
      exact Or.inl ⟨_, _, Or.inl rfl, rfl⟩
    · rw [if_neg hb]
      exact Or.inr (Or.inr (Or.inr (Or.inl ⟨rfl, Or.inr hb⟩)))
  | weightToSipServer =>
    obtain rfl := Option.some.inj h
    exact Or.inr (Or.inr (Or.inl rfl))
  | dispatch =>
    simp only [Phone.mainStep] at h
    split at h
    · next m queue hqueue =>
      exact Or.inr (Or.inr (Or.inr (Or.inr (Or.inl ⟨m, queue, hqueue, (Option.some.inj h).symm⟩))))
    · cases h
  | heartBeat i =>
    obtain ⟨⟨m, q⟩, hq, rfl⟩ := Option.map_eq_some_iff.mp h
    exact Or.inr (Or.inr (Or.inr (Or.inr (Or.inr ⟨i, m, q, hq, rfl⟩))))

theorem main_step {lib : Libraries} {s t : Phone} {e : MainEvent}
    (h : s.step lib (.main e) = some t) : s.main = none ∧ s.mainStep lib e = some t := by
  simp only [Phone.step] at h
  split at h
  · next hmain => exact ⟨hmain, h⟩
  · cases h

theorem put_step {lib : Libraries} {s t : Phone}
    (h : s.step lib .put = some t) : ∃ r caught, s.main = some (.sent r, caught) ∧
      t = { s with manager := s.manager.put r, main := some (.tracked r, caught) } := by
  simp only [Phone.step] at h
  split at h
  · next r caught hmain => exact ⟨r, caught, hmain, (Option.some.inj h).symm⟩
  · cases h

/-- `startCounting` ends `addRequest`, and starts the timer unless it is cancelled. -/
theorem startCounting_step {lib : Libraries} {s t : Phone}
    (h : s.step lib .startCounting = some t) :
    ∃ r caught, s.main = some (.tracked r, caught) ∧
      ((r ∉ s.manager.cancelled ∧
        t = { s with
          manager := { s.manager with
            timers := Looper.postDelayed s.now timeOut r s.manager.timers }
          main := none }) ∨
      (r ∈ s.manager.cancelled ∧ caught = true ∧ t = { s with main := none })) := by
  simp only [Phone.step] at h
  split at h
  · next r caught hmain =>
    refine ⟨r, caught, hmain, ?_⟩
    unfold Phone.startCounting at h
    cases hstart : s.manager.startCounting s.now r with
    | none =>
      rw [hstart] at h
      obtain ⟨hcaught, h⟩ := Option.ite_none_right_eq_some.mp h
      exact Or.inr ⟨SipDevManager.startCounting_eq_none.mp hstart, hcaught,
        (Option.some.inj h).symm⟩
    | some manager =>
      rw [hstart] at h
      obtain ⟨hc, rfl⟩ := SipDevManager.startCounting_eq_some.mp hstart
      exact Or.inl ⟨hc, (Option.some.inj h).symm⟩
  · cases h

theorem expire_step {lib : Libraries} {s t : Phone} {i : Nat}
    (h : s.step lib (.expire i) = some t) :
    ∃ r manager, s.manager.expire s.now i = some (r, manager) ∧
      t = { s with manager, queue := s.queue ++ [.timeOut r.targetResponse r] } := by
  obtain ⟨⟨r, manager⟩, he, rfl⟩ := Option.map_eq_some_iff.mp h
  exact ⟨r, manager, he, rfl⟩

end Phone

end PetDev.Sip
