import PetDev.Sip.Phone
import Mathlib.Data.Finset.Card
import Mathlib.Data.List.Count

/-!
# How often one message feeds

`onReceivedMessage` is the library's entry point overridden, so the transaction layer that
would drop a retransmission is not on the way to `feedNow`, and nothing on that way looks at
Call-ID or CSeq.  Every delivery of a message for `FeedNowService`, a request or a response with
code 200, can start the motor.

`feeds_le_deliveries` bounds the starts by the deliveries, message by message and in all;
so messages that are delivered once feed at most once.
-/

namespace PetDev.Sip

open Feed SipDevManager

/-- The message that is delivered, if it is for `FeedNowService`. -/
def feedRequest (lib : Libraries) : PhoneEvent → Option MessageId
  | .receive m =>
    if (onReceivedMessage lib.xmlToJson m).posted.map Prod.fst = some "feed_now_response" then
      some m.id
    else none
  | _ => none

/-- The deliveries of messages for `FeedNowService` in a run. -/
def deliveries (lib : Libraries) (es : List PhoneEvent) : List MessageId :=
  es.filterMap (feedRequest lib)

/-- A posted message that `FeedNowService` will handle. -/
def MainMessage.feedRequest : MainMessage → Option MessageId
  | .request key _ msg => if key = "feed_now_response" then some msg.id else none
  | .timeOut _ _ => none

namespace Phone

/-- The messages for `FeedNowService` that wait for the main thread. -/
def waitingFeeds (s : Phone) : List MessageId := s.queue.filterMap MainMessage.feedRequest

/-- The starts so far, and those to come. -/
def feedsOf (s : Phone) (id : MessageId) : Nat := s.feeds.count id + s.waitingFeeds.count id

variable {lib : Libraries}

/-- Handling a message starts the motor at most once, and only on its own account. -/
theorem count_handleMessage (s : Phone) (m : MainMessage) (id : MessageId) :
    (s.handleMessage lib m).feeds.count id ≤ s.feeds.count id + m.feedRequest.toList.count id ∧
      (s.handleMessage lib m).queue = s.queue := by
  rcases s.handleMessage_cases lib m with ⟨-, k, caught, -, ht⟩ | ⟨-, ht⟩ | ⟨-, ht⟩ |
      ⟨-, json, msg, rfl, ht⟩ | ⟨-, ht⟩
  · rw [ht]
    exact ⟨Nat.le_add_right _ _, rfl⟩
  · rw [ht]
    unfold Phone.onLoginResponse
    split <;> exact ⟨Nat.le_add_right _ _, rfl⟩
  · rw [ht]
    exact ⟨Nat.le_add_right _ _, rfl⟩
  · rw [ht]
    refine ⟨?_, rfl⟩
    show (msg.id :: s.feeds).count id ≤ _
    rw [MainMessage.feedRequest, if_pos rfl, Option.toList_some, List.count_cons,
      List.count_cons, List.count_nil]
    omega
  · rw [ht]
    exact ⟨Nat.le_add_right _ _, rfl⟩

theorem feedsOf_mainStep {s t : Phone} {e : MainEvent} (ht : s.mainStep lib e = some t)
    (id : MessageId) : t.feedsOf id ≤ s.feedsOf id := by
  rcases mainStep_cases ht with ⟨k, caught, -, rfl⟩ | ⟨k, caught, -, rfl⟩ | rfl | ⟨rfl, -⟩ |
      ⟨m, queue, hqueue, rfl⟩ | ⟨i, m, q, -, rfl⟩
  · exact le_rfl
  · exact le_rfl
  · exact le_rfl
  · exact le_rfl
  · obtain ⟨hcount, hq⟩ := count_handleMessage { s with queue } m id
    have hold : s.waitingFeeds.count id =
        m.feedRequest.toList.count id + (queue.filterMap MainMessage.feedRequest).count id := by
      unfold waitingFeeds
      rw [hqueue, List.filterMap_cons]
      cases m.feedRequest with
      | none => simp
      | some id' =>
        simp only [Option.toList_some, List.count_cons, List.count_nil]
        omega
    unfold feedsOf
    rw [hold]
    unfold waitingFeeds
    rw [hq]
    change _ ≤ s.feeds.count id + _ at hcount
    show _ + (queue.filterMap MainMessage.feedRequest).count id ≤ _
    omega
  · exact le_rfl

theorem feedsOf_step {s t : Phone} {e : PhoneEvent} (ht : s.step lib e = some t) (id : MessageId) :
    t.feedsOf id ≤ s.feedsOf id + (feedRequest lib e).toList.count id := by
  cases e with
  | main e => exact Nat.le_add_right_of_le (feedsOf_mainStep (main_step ht).2 id)
  | put =>
    obtain ⟨r, caught, -, rfl⟩ := put_step ht
    exact Nat.le_add_right _ _
  | startCounting =>
    obtain ⟨r, caught, -, ⟨-, rfl⟩ | ⟨-, -, rfl⟩⟩ := startCounting_step ht
    · exact Nat.le_add_right _ _
    · exact Nat.le_add_right _ _
  | receive m =>
    obtain rfl := Option.some.inj ht
    have hpost : (post m (onReceivedMessage lib.xmlToJson m)).filterMap MainMessage.feedRequest =
        (feedRequest lib (.receive m)).toList := by
      show _ = (if (onReceivedMessage lib.xmlToJson m).posted.map Prod.fst =
        some "feed_now_response" then some m.id else none).toList
      cases onReceivedMessage lib.xmlToJson m with
      | nothing => rfl
      | post key json =>
        by_cases hkey : key = "feed_now_response" <;>
          simp [post, Received.posted, MainMessage.feedRequest, hkey]
      | answer key json =>
        by_cases hkey : key = "feed_now_response" <;>
          simp [post, Received.posted, MainMessage.feedRequest, hkey]
    have hqueue : (s.receive m (onReceivedMessage lib.xmlToJson m)).waitingFeeds =
        s.waitingFeeds ++ (feedRequest lib (.receive m)).toList := by
      rw [← hpost]
      exact List.filterMap_append
    unfold feedsOf
    rw [hqueue, List.count_append]
    exact (Nat.add_assoc _ _ _).ge
  | expire i =>
    obtain ⟨r, manager, -, rfl⟩ := expire_step ht
    have hqueue : { s with
        manager, queue := s.queue ++ [.timeOut r.targetResponse r] : Phone }.waitingFeeds =
        s.waitingFeeds := by
      unfold waitingFeeds
      rw [List.filterMap_append]
      exact List.append_nil _
    unfold feedsOf
    rw [hqueue]
    exact Nat.le_add_right _ _
  | advance ms =>
    obtain rfl := Option.some.inj ht
    exact Nat.le_add_right _ _

/-- Over a run, the starts for a message and those to come are at most its deliveries. -/
theorem feedsOf_run {es : List PhoneEvent} {s : Phone}
    (hs : (phoneMachine lib).run es = some s) (id : MessageId) :
    s.feedsOf id ≤ (deliveries lib es).count id := by
  induction es using List.reverseRecOn generalizing s with
  | nil =>
    obtain rfl := Option.some.inj hs
    exact le_rfl
  | append_singleton es e ih =>
    obtain ⟨s0, hs0, hstep⟩ := (phoneMachine lib).run_concat_eq_some.mp hs
    have hdeliveries : deliveries lib (es ++ [e]) =
        deliveries lib es ++ (feedRequest lib e).toList := by
      unfold deliveries
      rw [List.filterMap_append, List.filterMap_cons, List.filterMap_nil]
      cases feedRequest lib e <;> rfl
    calc s.feedsOf id ≤ s0.feedsOf id + (feedRequest lib e).toList.count id :=
          feedsOf_step hstep id
      _ ≤ (deliveries lib es).count id + (feedRequest lib e).toList.count id :=
          Nat.add_le_add_right (ih hs0) _
      _ = (deliveries lib (es ++ [e])).count id := by rw [hdeliveries, List.count_append]

/-- The starts are some of the deliveries. -/
theorem feeds_subperm {es : List PhoneEvent} {s : Phone}
    (hs : (phoneMachine lib).run es = some s) :
    s.feeds.Subperm (deliveries lib es) := by
  rw [List.subperm_ext_iff]
  exact fun id _ => (Nat.le_add_right _ _).trans (feedsOf_run hs id)

end Phone

/-- **The motor is started at most once for each delivery of a message for `FeedNowService`**, so
messages that are delivered at most once start it at most once each. -/
theorem feeds_le_deliveries (lib : Libraries) (es : List PhoneEvent)
    (s : Phone) (hs : (phoneMachine lib).run es = some s) :
    (∀ id, s.feeds.count id ≤ (deliveries lib es).count id) ∧
      s.feeds.length ≤ (deliveries lib es).length ∧
      ∀ sent : Finset MessageId, (∀ id ∈ deliveries lib es, id ∈ sent) →
        (deliveries lib es).Nodup → s.feeds.length ≤ sent.card := by
  have hsub := Phone.feeds_subperm hs
  refine ⟨fun id => hsub.count_le id, hsub.length_le, fun sent hsent hnodup => ?_⟩
  calc s.feeds.length ≤ (deliveries lib es).length := hsub.length_le
    _ = (deliveries lib es).toFinset.card := (List.toFinset_card_of_nodup hnodup).symm
    _ ≤ sent.card := Finset.card_le_card fun id hid => hsent id (List.mem_toFinset.mp hid)

/-- One message for one portion, delivered twice. -/
def retransmission : List PhoneEvent :=
  [.receive feedOne, .receive feedOne, .main .dispatch, .main .dispatch]

/-- The retransmission feeds again. -/
theorem not_forall_feeds_le_sent : ¬ ∀ (lib : Libraries)
    (es : List PhoneEvent) (s : Phone) (sent : Finset MessageId),
    (phoneMachine lib).run es = some s → (∀ id ∈ deliveries lib es, id ∈ sent) →
      s.feeds.length ≤ sent.card := by
  intro h
  have hrun : ((phoneMachine sampleLibraries).run retransmission).map Phone.feeds =
      some [feedOne.id, feedOne.id] := by decide +kernel
  have hsent : ∀ id ∈ deliveries sampleLibraries retransmission, id ∈ [feedOne.id].toFinset := by
    decide +kernel
  obtain ⟨s, hs, hfeeds⟩ := Option.map_eq_some_iff.mp hrun
  have hle := h sampleLibraries retransmission s [feedOne.id].toFinset hs hsent
  rw [hfeeds] at hle
  exact absurd hle (by decide)

theorem feeds_le_deliveries_retransmission : ∃ s,
    (phoneMachine sampleLibraries).run retransmission = some s ∧ s.feeds.length = 2 ∧
    (∀ id, s.feeds.count id ≤ (deliveries sampleLibraries retransmission).count id) ∧
    s.feeds.length ≤ (deliveries sampleLibraries retransmission).length ∧
    ∀ sent : Finset MessageId, (∀ id ∈ deliveries sampleLibraries retransmission, id ∈ sent) →
      (deliveries sampleLibraries retransmission).Nodup → s.feeds.length ≤ sent.card := by
  have hrun : ((phoneMachine sampleLibraries).run retransmission).map
      (fun s => s.feeds.length) = some 2 := by decide +kernel
  obtain ⟨s, hs, hlen⟩ := Option.map_eq_some_iff.mp hrun
  exact ⟨s, hs, hlen, feeds_le_deliveries sampleLibraries retransmission s hs⟩

end PetDev.Sip
