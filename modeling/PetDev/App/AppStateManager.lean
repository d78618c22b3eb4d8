import PetDev.Android.Looper
import PetDev.Lib.StepMachine

/-!
# Foreground and background

`AppStateManager` tells the subscribers when the application comes to the front and when it
has been away for a while.  It keeps the front activity in a weak reference, and posts one
message for itself: `sendNotifyEvent` sends it when none is queued, and takes it back when
one is.

`notify_iff_changed`: the message is queued exactly when the state has changed since it was
last announced.  So the events alternate, a wake-up first.
-/

namespace PetDev.App

open Android

inductive AppState where
  | weakUp
  | fallAsleep
  deriving DecidableEq, Repr

/-- What the subscribers get: `AppWakeUpEvent` and `AppFallAsleepEvent`. -/
inductive AppEvent where
  | appWakeUp
  | appFallAsleep
  deriving DecidableEq, Repr

def TYPE_NOTIFY_SUBSCRIBER : Int := 1

def DELAY_CHECK_BACKGROUND_STATE_TIME : Int := 80 * 1000

/-- The manager with its queue, and the events it has posted, the latest first.  A reference that
has been cleared is `some none`. -/
structure AppStateManager (α : Type*) where
  now : Int
  mFrontActivity : Option (Option α)
  mAppState : AppState
  queue : List (Delayed Int)
  posted : List AppEvent

inductive ManagerEvent (α : Type*) where
  | onActivityVisible (activity : α)
  | onActivityInvisible (activity : α)
  | garbageCollect
  | handleMessage
  | advance (ms : Nat)

namespace AppStateManager

variable {α : Type*}

def start : AppStateManager α := ⟨0, none, .fallAsleep, [], []⟩

def newAppState (s : AppStateManager α) : AppState :=
  match s.mFrontActivity with
  | some (some _) => .weakUp
  | _ => .fallAsleep

def hasMessages (what : Int) (s : AppStateManager α) : Bool := s.queue.any (·.what == what)

def removeMessages (what : Int) (s : AppStateManager α) : AppStateManager α :=
  { s with queue := s.queue.filter (·.what != what) }

def sendEmptyMessageDelayed (what delay : Int) (s : AppStateManager α) : AppStateManager α :=
  { s with queue := Looper.enqueue ⟨s.now + delay, what⟩ s.queue }

def sendNotifyEvent (s : AppStateManager α) : AppStateManager α :=
  if s.hasMessages TYPE_NOTIFY_SUBSCRIBER then s.removeMessages TYPE_NOTIFY_SUBSCRIBER
  else
    match s.mAppState with
    | .weakUp => s.sendEmptyMessageDelayed TYPE_NOTIFY_SUBSCRIBER 0
    | .fallAsleep =>
      s.sendEmptyMessageDelayed TYPE_NOTIFY_SUBSCRIBER DELAY_CHECK_BACKGROUND_STATE_TIME

/-- `if (isAppStateChange()) sendNotifyEvent();` -/
def checkAppState (s : AppStateManager α) : AppStateManager α :=
  let oldAppState := s.mAppState
  let s := { s with mAppState := s.newAppState }
  if oldAppState ≠ s.mAppState then s.sendNotifyEvent else s

def onActivityVisible (activity : α) (s : AppStateManager α) : AppStateManager α :=
  { s with mFrontActivity := some (some activity) }.checkAppState

def onActivityInvisible [DecidableEq α] (activity : α) (s : AppStateManager α) :
    AppStateManager α :=
  match s.mFrontActivity with
  | some frontActivity =>
    if frontActivity = some activity then
      { s with mFrontActivity := some none }.checkAppState
    else s.checkAppState
  | none => s.checkAppState

def notifySubscriber (s : AppStateManager α) : AppStateManager α :=
  match s.mAppState with
  | .weakUp => { s with posted := .appWakeUp :: s.posted }
  | .fallAsleep => { s with posted := .appFallAsleep :: s.posted }

def handleMessage (what : Int) (s : AppStateManager α) : AppStateManager α :=
  if what = TYPE_NOTIFY_SUBSCRIBER then s.notifySubscriber else s

def step [DecidableEq α] (s : AppStateManager α) : ManagerEvent α → Option (AppStateManager α)
  | .onActivityVisible activity => some (s.onActivityVisible activity)
  | .onActivityInvisible activity => some (s.onActivityInvisible activity)
  | .garbageCollect => some { s with mFrontActivity := s.mFrontActivity.map fun _ => none }
  | .handleMessage =>
    (Looper.next s.now s.queue).map fun r => { s with queue := r.2 }.handleMessage r.1.what
  | .advance ms => some { s with now := s.now + ms }

end AppStateManager

def managerMachine (α : Type*) [DecidableEq α] : StepMachine (AppStateManager α) (ManagerEvent α) :=
  ⟨AppStateManager.start, AppStateManager.step⟩

variable {α : Type*}

/-! ## What is announced -/

/-- The state that an event announces. -/
def AppEvent.state : AppEvent → AppState
  | .appWakeUp => .weakUp
  | .appFallAsleep => .fallAsleep

/-- The event that announces a state. -/
def AppState.event : AppState → AppEvent
  | .weakUp => .appWakeUp
  | .fallAsleep => .appFallAsleep

@[simp] theorem AppState.event_state (a : AppState) : a.event.state = a := by
  cases a <;> rfl

/-- There are only two states. -/
theorem AppState.eq_iff_ne {a b : AppState} (h : a ≠ b) (c : AppState) : a = c ↔ b ≠ c := by
  cases a <;> cases b <;> cases c <;> simp at h ⊢

/-- The state that was announced last; `FALL_ASLEEP` before the first event. -/
def announcedBy : List AppEvent → AppState
  | [] => .fallAsleep
  | e :: _ => e.state

/-- The events in turn, from `AppWakeUpEvent` on. -/
def eventAt (i : Nat) : AppEvent := if i % 2 = 0 then .appWakeUp else .appFallAsleep

/-- The first `n` events in turn, the latest first. -/
def alternation : Nat → List AppEvent
  | 0 => []
  | n + 1 => eventAt n :: alternation n

theorem alternation_length (n : Nat) : (alternation n).length = n := by
  induction n with
  | zero => rfl
  | succ n ih => rw [alternation, List.length_cons, ih]

theorem alternation_reverse (n : Nat) : (alternation n).reverse = (List.range n).map eventAt := by
  induction n with
  | zero => rfl
  | succ n ih =>
    rw [alternation, List.reverse_cons, ih, List.range_succ, List.map_append, List.map_singleton]

/-- A state that has not been announced is the next one in turn. -/
theorem event_of_ne_announced {a : AppState} {n : Nat} (h : a ≠ announcedBy (alternation n)) :
    a.event = eventAt n := by
  have hlast : announcedBy (alternation n) = if n % 2 = 0 then .fallAsleep else .weakUp := by
    cases n with
    | zero => rfl
    | succ n =>
      show (eventAt n).state = _
      unfold eventAt
      rcases Nat.mod_two_eq_zero_or_one n with hn | hn
      · rw [if_pos hn, if_neg (by omega)]
        rfl
      · rw [if_neg (by omega), if_pos (by omega)]
        rfl
  rw [hlast] at h
  unfold eventAt
  by_cases hn : n % 2 = 0
  · rw [if_pos hn] at h ⊢
    cases a with
    | weakUp => rfl
    | fallAsleep => exact absurd rfl h
  · rw [if_neg hn] at h ⊢
    cases a with
    | weakUp => exact absurd rfl h
    | fallAsleep => rfl

namespace AppStateManager

/-! ## The queue tells whether the state is announced -/

/-- At most one message is queued, and it is exactly when the state is still to be announced. -/
structure Inv (s : AppStateManager α) : Prop where
  queue : (s.queue = [] ∧ s.mAppState = announcedBy s.posted) ∨
    (∃ due, s.queue = [⟨due, TYPE_NOTIFY_SUBSCRIBER⟩]) ∧ s.mAppState ≠ announcedBy s.posted
  posted : ∃ n, s.posted = alternation n

theorem inv_start : (start : AppStateManager α).Inv := ⟨Or.inl ⟨rfl, rfl⟩, 0, rfl⟩

theorem notifySubscriber_eq (s : AppStateManager α) :
    s.notifySubscriber = { s with posted := s.mAppState.event :: s.posted } := by
  unfold notifySubscriber AppState.event
  cases s.mAppState <;> rfl

/-- The message is sent or taken back: a change of the state changes whether it is announced. -/
theorem Inv.checkAppState {s : AppStateManager α} (h : s.Inv) : s.checkAppState.Inv := by
  obtain ⟨now, front, state, queue, posted⟩ := s
  obtain ⟨hqueue, hposted⟩ := h
  refine ⟨?_, ?_⟩
  · generalize hnew : newAppState ⟨now, front, state, queue, posted⟩ = new
    simp only [AppStateManager.checkAppState, hnew]
    split
    · next hchange =>
      rcases hqueue with ⟨rfl, hsame⟩ | ⟨⟨due, rfl⟩, hdiff⟩
      · right
        refine ⟨?_, ?_⟩
        · cases new with
          | weakUp => exact ⟨now + 0, rfl⟩
          | fallAsleep => exact ⟨now + DELAY_CHECK_BACKGROUND_STATE_TIME, rfl⟩
        · have hne := (AppState.eq_iff_ne hchange _).mp hsame
          cases new <;> exact hne
      · left
        exact ⟨rfl, not_not.mp (mt (AppState.eq_iff_ne hchange _).mpr hdiff)⟩
    · next hchange =>
      rw [← not_not.mp hchange]
      exact hqueue
  · simp only [AppStateManager.checkAppState, sendNotifyEvent, removeMessages,
      sendEmptyMessageDelayed]
    split
    · split
      · exact hposted
      · split <;> exact hposted
    · exact hposted

theorem Inv.handleMessage {s : AppStateManager α} (h : s.Inv) {m : Delayed Int}
    {q : List (Delayed Int)} (hqueue : s.queue = m :: q) :
    ({ s with queue := q }.handleMessage m.what).Inv := by
  obtain ⟨hcases, n, hn⟩ := h
  rcases hcases with ⟨hnil, -⟩ | ⟨⟨due, hone⟩, hdiff⟩
  · rw [hnil] at hqueue
    cases hqueue
  · rw [hone, List.cons.injEq] at hqueue
    obtain ⟨rfl, rfl⟩ := hqueue
    have hnotify : AppStateManager.handleMessage TYPE_NOTIFY_SUBSCRIBER { s with queue := [] } =
        notifySubscriber { s with queue := [] } :=
      if_pos rfl
    rw [hnotify, notifySubscriber_eq]
    refine ⟨Or.inl ⟨rfl, (AppState.event_state s.mAppState).symm⟩, n + 1, ?_⟩
    rw [hn] at hdiff
    show s.mAppState.event :: s.posted = eventAt n :: alternation n
    rw [event_of_ne_announced hdiff, hn]

theorem Inv.step [DecidableEq α] {s t : AppStateManager α} {e : ManagerEvent α} (h : s.Inv)
    (ht : s.step e = some t) : t.Inv := by
  have hfront : ∀ front : Option (Option α), Inv { s with mFrontActivity := front } :=
    fun _ => ⟨h.queue, h.posted⟩
  cases e with
  | onActivityVisible activity =>
    obtain rfl := Option.some.inj ht
    exact (hfront (some (some activity))).checkAppState
  | onActivityInvisible activity =>
    obtain rfl := Option.some.inj ht
    unfold AppStateManager.onActivityInvisible
    split
    · split
      · exact (hfront (some none)).checkAppState
      · exact h.checkAppState
    · exact h.checkAppState
  | garbageCollect =>
    obtain rfl := Option.some.inj ht
    exact hfront _
  | handleMessage =>
    obtain ⟨⟨m, q⟩, hq, rfl⟩ := Option.map_eq_some_iff.mp ht
    exact h.handleMessage (Looper.next_eq_some.mp hq).1
  | advance ms =>
    obtain rfl := Option.some.inj ht
    exact ⟨h.queue, h.posted⟩

end AppStateManager

/-- **A message is queued exactly when the state is not the announced one**; so the events
alternate, `AppWakeUpEvent` first, and with no message queued the announced state is the
current one. -/
theorem notify_iff_changed [DecidableEq α] (es : List (ManagerEvent α)) (s : AppStateManager α)
    (hs : (managerMachine α).run es = some s) :
    (s.hasMessages TYPE_NOTIFY_SUBSCRIBER = true ↔ s.mAppState ≠ announcedBy s.posted) ∧
      s.posted.reverse = (List.range s.posted.length).map eventAt ∧
      (s.queue = [] → announcedBy s.posted = s.mAppState) := by
  obtain ⟨hqueue, n, hn⟩ := (managerMachine α).invariant AppStateManager.inv_start
    (fun _ _ _ h ht => AppStateManager.Inv.step h ht) hs
  refine ⟨?_, ?_, fun hnil => ?_⟩
  · rcases hqueue with ⟨hnil, hsame⟩ | ⟨⟨due, hone⟩, hdiff⟩
    · refine iff_of_false ?_ (not_not.mpr hsame)
      simp [AppStateManager.hasMessages, hnil]
    · refine iff_of_true ?_ hdiff
      simp [AppStateManager.hasMessages, hone]
  · rw [hn, alternation_length, alternation_reverse]
  · rcases hqueue with ⟨-, hsame⟩ | ⟨⟨due, hone⟩, -⟩
    · exact hsame.symm
    · rw [hnil] at hone
      cases hone

/-- One activity comes to the front, gives way to another, and the other one is paused. -/
def threeChanges : List (ManagerEvent Nat) :=
  [.onActivityVisible 0, .handleMessage, .onActivityVisible 1, .onActivityInvisible 0,
    .onActivityInvisible 1, .advance 80000, .handleMessage, .onActivityVisible 1]

theorem notify_iff_changed_threeChanges : ∃ s, (managerMachine Nat).run threeChanges = some s ∧
    s.posted = [.appFallAsleep, .appWakeUp] ∧ s.mAppState = .weakUp ∧
    (s.hasMessages TYPE_NOTIFY_SUBSCRIBER = true ↔ s.mAppState ≠ announcedBy s.posted) ∧
    s.posted.reverse = (List.range s.posted.length).map eventAt ∧
    (s.queue = [] → announcedBy s.posted = s.mAppState) := by
  have hrun : ((managerMachine Nat).run threeChanges).map (fun s => (s.posted, s.mAppState)) =
      some ([.appFallAsleep, .appWakeUp], .weakUp) := by
    decide
  obtain ⟨s, hs, hout⟩ := Option.map_eq_some_iff.mp hrun
  obtain ⟨hposted, hstate⟩ := Prod.mk.inj hout
  exact ⟨s, hs, hposted, hstate, notify_iff_changed threeChanges s hs⟩

end PetDev.App
