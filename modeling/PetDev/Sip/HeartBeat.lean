import PetDev.Sip.Phone

/-!
# Heartbeats keep their distance

Whatever answers, time-outs, re-registrations and broadcasts come in, at most one
heartbeat message is queued, and two heartbeats are at least 20 seconds apart.  A message
is only queued when none is, with the full delay: so what is queued is due at least 20
seconds after every heartbeat sent so far.  `heartBeats_spaced` is the result.
-/

namespace PetDev.Sip

open Android

namespace Phone

/-- The invariant of the heartbeats. -/
structure Spaced (s : Phone) : Prop where
  one : s.heartBeats.length ≤ 1
  past : ∀ b ∈ s.beats, b ≤ s.now
  queued : ∀ m ∈ s.heartBeats, ∀ b ∈ s.beats, b + DELAY ≤ m.due
  apart : s.beats.Pairwise fun later earlier => earlier + DELAY ≤ later

theorem spaced_start : start.Spaced := ⟨Nat.zero_le 1, nofun, nofun, List.Pairwise.nil⟩

/-- The invariant looks at the clock, the queued heartbeats and the sent ones only. -/
theorem Spaced.congr {s t : Phone} (h : s.Spaced) (hnow : t.now = s.now)
    (hheartBeats : t.heartBeats = s.heartBeats) (hbeats : t.beats = s.beats) : t.Spaced := by
  constructor
  · rw [hheartBeats]
    exact h.one
  · rw [hnow, hbeats]
    exact h.past
  · rw [hheartBeats, hbeats]
    exact h.queued
  · rw [hbeats]
    exact h.apart

theorem Spaced.addRequest {s : Phone} (h : s.Spaced) (k : String) (caught : Bool) :
    (s.addRequest k caught).Spaced :=
  h.congr rfl rfl rfl

theorem Spaced.onLoginResponse {s : Phone} (h : s.Spaced) : s.onLoginResponse.Spaced := by
  unfold Phone.onLoginResponse
  split
  · next hnil =>
    refine { h with one := ?_, queued := ?_ }
    · rw [hnil]
      exact le_rfl
    · intro m hm b hb
      rw [hnil] at hm
      obtain rfl := List.mem_singleton.mp hm
      have := h.past b hb
      show b + DELAY ≤ s.now + max DELAY 0
      omega
  · exact h

theorem Spaced.onReRegisterEvent {s : Phone} (h : s.Spaced) : s.onReRegisterEvent.Spaced := by
  refine Spaced.addRequest ?_ _ _
  exact { h with one := Nat.zero_le 1, queued := nofun }

/-- The only heartbeat message is handled, after its delay. -/
theorem Spaced.heartBeat {s : Phone} (h : s.Spaced) {i : Nat} {m : Delayed Unit}
    {q : List (Delayed Unit)} (hq : Looper.take s.now i s.heartBeats = some (m, q)) :
    ({ s with heartBeats := q }.heartBeat).Spaced := by
  obtain ⟨hi, hdue, rfl⟩ := Looper.take_eq_some hq
  have hnil : s.heartBeats.eraseIdx i = [] := by
    have hlt := (List.getElem?_eq_some_iff.mp hi).1
    have hlen := List.length_eraseIdx_of_lt hlt
    have hone := h.one
    exact List.length_eq_zero_iff.mp (by omega)
  refine Spaced.addRequest ?_ _ _
  constructor
  · show (s.heartBeats.eraseIdx i).length ≤ 1
    rw [hnil]
    exact Nat.zero_le 1
  · intro b hb
    rcases List.mem_cons.mp hb with rfl | hb
    · exact le_rfl
    · exact h.past b hb
  · intro m' hm'
    change m' ∈ s.heartBeats.eraseIdx i at hm'
    rw [hnil] at hm'
    cases hm'
  · refine List.pairwise_cons.mpr ⟨fun b hb => ?_, h.apart⟩
    exact (h.queued m (List.mem_of_getElem? hi) b hb).trans hdue

variable {lib : Libraries}

theorem Spaced.handleMessage {s : Phone} (h : s.Spaced) (m : MainMessage) :
    (s.handleMessage lib m).Spaced := by
  rcases s.handleMessage_cases lib m with ⟨-, k, caught, -, ht⟩ | ⟨-, ht⟩ | ⟨-, ht⟩ |
      ⟨-, json, msg, -, ht⟩ | ⟨-, ht⟩
  · rw [ht]
    exact h.addRequest k caught
  · rw [ht]
    exact h.onLoginResponse
  · rw [ht]
    exact h.onReRegisterEvent
  · rw [ht]
    exact h.congr rfl rfl rfl
  · rwa [ht]

theorem Spaced.mainStep {s t : Phone} {e : MainEvent} (h : s.Spaced)
    (ht : s.mainStep lib e = some t) : t.Spaced := by
  rcases mainStep_cases ht with ⟨k, caught, -, rfl⟩ | ⟨k, caught, -, rfl⟩ | rfl | ⟨rfl, -⟩ |
      ⟨m, queue, -, rfl⟩ | ⟨i, m, q, hq, rfl⟩
  · exact h.addRequest k caught
  · refine Spaced.addRequest ?_ k caught
    exact h.congr rfl rfl rfl
  · exact h.addRequest _ _
  · exact h
  · refine Spaced.handleMessage ?_ m
    exact h.congr rfl rfl rfl
  · exact h.heartBeat hq

theorem Spaced.step {s t : Phone} {e : PhoneEvent} (h : s.Spaced)
    (ht : s.step lib e = some t) : t.Spaced := by
  cases e with
  | main e => exact h.mainStep (main_step ht).2
  | put =>
    obtain ⟨r, caught, -, rfl⟩ := put_step ht
    exact h.congr rfl rfl rfl
  | startCounting =>
    obtain ⟨r, caught, -, ⟨-, rfl⟩ | ⟨-, -, rfl⟩⟩ := startCounting_step ht
    · exact h.congr rfl rfl rfl
    · exact h.congr rfl rfl rfl
  | receive m =>
    obtain rfl := Option.some.inj ht
    exact h.congr rfl rfl rfl
  | expire i =>
    obtain ⟨r, manager, -, rfl⟩ := expire_step ht
    exact h.congr rfl rfl rfl
  | advance ms =>
    obtain rfl := Option.some.inj ht
    refine { h with past := fun b hb => ?_ }
    have := h.past b hb
    show b ≤ s.now + ms
    omega

end Phone

/-- **At most one heartbeat message is queued, and heartbeats are `DELAY` apart.** -/
theorem heartBeats_spaced (lib : Libraries) (es : List PhoneEvent)
    (s : Phone) (hs : (phoneMachine lib).run es = some s) :
    s.heartBeats.length ≤ 1 ∧ s.beats.Pairwise fun later earlier => earlier + DELAY ≤ later := by
  have h := (phoneMachine lib).invariant Phone.spaced_start
    (fun _ _ _ h ht => Phone.Spaced.step h ht) hs
  exact ⟨h.one, h.apart⟩

/-- Two heartbeats, each answered twice. -/
def twoHeartBeats : List PhoneEvent :=
  [.receive loginOk, .receive loginOk, .main .dispatch, .main .dispatch, .advance 20000,
    .main (.heartBeat 0), .put, .startCounting, .receive loginOk, .receive loginOk,
    .main .dispatch, .main .dispatch, .advance 20000, .main (.heartBeat 0)]

theorem heartBeats_spaced_two : ∃ s,
    (phoneMachine sampleLibraries).run twoHeartBeats = some s ∧ s.beats = [40000, 20000] ∧
    s.heartBeats.length ≤ 1 ∧ s.beats.Pairwise fun later earlier => earlier + DELAY ≤ later := by
  have hrun : ((phoneMachine sampleLibraries).run twoHeartBeats).map Phone.beats =
      some [40000, 20000] := by decide +kernel
  obtain ⟨s, hs, hbeats⟩ := Option.map_eq_some_iff.mp hrun
  exact ⟨s, hs, hbeats, heartBeats_spaced sampleLibraries twoHeartBeats s hs⟩

end PetDev.Sip
