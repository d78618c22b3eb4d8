import PetDev.Sip.Phone

/-!
# The registration chain

Once `registerDev` has run, something should always lead on: a queued heartbeat, the timer
of a request that waits for `negotiate_response` or `login_response`, a posted message whose
handling starts the next link, or such a request on its way through `addRequest`.

`handle` cancels the timer before anybody has read the body.  A `login_response` always
fits, since `LoginResponse` has no fields, so its message leads on.  A `negotiate_response`
whose `salt` or `seed` is not a text only makes `RegisterService` show a toast: the timer is
gone, and nothing has taken its place.  `alive_iff_keepsChain` says that the chain lives
exactly as long as no such answer takes the last carrier away.
-/

namespace PetDev.Sip

open Android SipDevManager

/-- The request that `addRequest` is busy with. -/
def AddRequest.request : AddRequest → SipRequest
  | .sent r => r
  | .tracked r => r

namespace Phone

/-- The timer of the request is counting, or about to be started. -/
def Waiting (s : Phone) (r : SipRequest) : Prop :=
  (∃ m ∈ s.manager.timers, m.what = r) ∨
    (∃ a ∈ s.main, a.1.request = r) ∧ r ∉ s.manager.cancelled

/-- Something leads on. -/
def Alive (lib : Libraries) (s : Phone) : Prop :=
  s.heartBeats ≠ [] ∨ (∃ m ∈ s.queue, m.LeadsOn lib) ∨
    ∃ r, InChain r.targetResponse ∧ s.Waiting r

/-- Something leads on, apart from the request `r`. -/
def AliveWithout (lib : Libraries) (r : SipRequest) (s : Phone) : Prop :=
  s.heartBeats ≠ [] ∨ (∃ m ∈ s.queue, m.LeadsOn lib) ∨
    ∃ r', r' ≠ r ∧ InChain r'.targetResponse ∧ s.Waiting r'

/-- The chain lives, from the first `registerDev` on. -/
def ChainAlive (lib : Libraries) (s : Phone) : Prop := s.isFirst = false → s.Alive lib

/-- **The condition on an incoming message**: when a `negotiate_response` that does not fit finds
its request, something else leads on. -/
def KeepsChain (lib : Libraries) (s : Phone) : PhoneEvent → Prop
  | .receive m => s.isFirst = false → ∀ json r,
      onReceivedMessage lib.xmlToJson m = .answer "negotiate_response" json →
      lib.negotiateResponse json.toObject = none →
      s.manager.mRequestMap "negotiate_response" = some r → s.AliveWithout lib r
  | _ => True

variable {lib : Libraries}

/-! ## The bookkeeping of the requests -/

structure Inv (s : Phone) : Prop where
  mapped : ∀ k r, s.manager.mRequestMap k = some r → r.targetResponse = k ∧ r.id < s.next
  cancelled : ∀ r ∈ s.manager.cancelled, r.id < s.next
  main : ∀ a ∈ s.main, a.1.request.id < s.next

theorem inv_start : start.Inv := ⟨nofun, nofun, nofun⟩

theorem Inv.addRequest {s : Phone} (h : s.Inv) (k : String) (caught : Bool) :
    (s.addRequest k caught).Inv := by
  constructor
  · intro k' r hr
    exact ⟨(h.mapped k' r hr).1, Nat.lt_succ_of_lt (h.mapped k' r hr).2⟩
  · intro r hr
    exact Nat.lt_succ_of_lt (h.cancelled r hr)
  · intro a ha
    obtain rfl := Option.some.inj ha
    exact Nat.lt_succ_self s.next

/-- The invariant looks at the requests only. -/
theorem Inv.congr {s t : Phone} (h : s.Inv) (hnext : t.next = s.next)
    (hmanager : t.manager = s.manager) (hmain : t.main = s.main) : t.Inv := by
  refine ⟨?_, ?_, ?_⟩
  · rw [hnext, hmanager]
    exact h.mapped
  · rw [hnext, hmanager]
    exact h.cancelled
  · rw [hnext, hmain]
    exact h.main

theorem Inv.handleMessage {s : Phone} (h : s.Inv) (m : MainMessage) :
    (s.handleMessage lib m).Inv := by
  rcases s.handleMessage_cases lib m with ⟨-, k, caught, -, ht⟩ | ⟨-, ht⟩ | ⟨-, ht⟩ |
      ⟨-, json, msg, -, ht⟩ | ⟨-, ht⟩
  · rw [ht]
    exact h.addRequest k caught
  · rw [ht]
    unfold Phone.onLoginResponse
    split
    · exact h.congr rfl rfl rfl
    · exact h
  · rw [ht]
    refine Inv.addRequest ?_ _ _
    exact h.congr rfl rfl rfl
  · rw [ht]
    exact h.congr rfl rfl rfl
  · rwa [ht]

theorem Inv.mainStep {s t : Phone} {e : MainEvent} (h : s.Inv) (ht : s.mainStep lib e = some t) :
    t.Inv := by
  rcases mainStep_cases ht with ⟨k, caught, -, rfl⟩ | ⟨k, caught, -, rfl⟩ | rfl | ⟨rfl, -⟩ |
      ⟨m, queue, -, rfl⟩ | ⟨i, m, q, -, rfl⟩
  · exact h.addRequest k caught
  · refine Inv.addRequest ?_ k caught
    exact h.congr rfl rfl rfl
  · exact h.addRequest _ _
  · exact h
  · refine Inv.handleMessage ?_ m
    exact h.congr rfl rfl rfl
  · refine Inv.addRequest ?_ _ _
    exact h.congr rfl rfl rfl

theorem Inv.answer {s : Phone} (h : s.Inv) (key : String) (queue : List MainMessage) :
    { s with manager := s.manager.answer key, queue }.Inv := by
  refine ⟨fun k r hr => h.mapped k r (mRequestMap_of_answer hr), fun r hr => ?_, h.main⟩
  rcases mem_cancelled_answer.mp hr with hr | hr
  · exact (h.mapped key r hr).2
  · exact h.cancelled r hr

theorem Inv.step {s t : Phone} {e : PhoneEvent}
    (h : s.Inv) (ht : s.step lib e = some t) : t.Inv := by
  cases e with
  | main e => exact h.mainStep (main_step ht).2
  | put =>
    obtain ⟨r, caught, hmain, rfl⟩ := put_step ht
    have hr : r.id < s.next := h.main (.sent r, caught) hmain
    refine ⟨fun k r' hr' => ?_, h.cancelled, fun a ha => ?_⟩
    · rcases mRequestMap_put hr' with ⟨rfl, rfl⟩ | hr'
      · exact ⟨rfl, hr⟩
      · exact h.mapped k r' hr'
    · obtain rfl := Option.some.inj ha
      exact hr
  | startCounting =>
    obtain ⟨r, caught, -, ⟨-, rfl⟩ | ⟨-, -, rfl⟩⟩ := startCounting_step ht
    · exact ⟨h.mapped, h.cancelled, nofun⟩
    · exact ⟨h.mapped, h.cancelled, nofun⟩
  | receive m =>
    obtain rfl := Option.some.inj ht
    cases onReceivedMessage lib.xmlToJson m with
    | nothing => exact h.congr rfl rfl rfl
    | post key json => exact h.congr rfl rfl rfl
    | answer key json => exact h.answer key _
  | expire i =>
    obtain ⟨r, manager, he, rfl⟩ := expire_step ht
    obtain ⟨_, -, -, -, rfl⟩ := expire_eq_some he
    exact ⟨h.mapped, h.cancelled, h.main⟩
  | advance ms =>
    obtain rfl := Option.some.inj ht
    exact h.congr rfl rfl rfl

/-! ## Who leads on -/

theorem Alive.mono {s t : Phone} (h : s.Alive lib) (hb : s.heartBeats ≠ [] → t.heartBeats ≠ [])
    (hq : ∀ m ∈ s.queue, m.LeadsOn lib → m ∈ t.queue)
    (hw : ∀ r, InChain r.targetResponse → s.Waiting r → t.Waiting r) : t.Alive lib := by
  rcases h with h | ⟨m, hm, hl⟩ | ⟨r, hr, h⟩
  · exact Or.inl (hb h)
  · exact Or.inr (Or.inl ⟨m, hq m hm hl, hl⟩)
  · exact Or.inr (Or.inr ⟨r, hr, hw r hr h⟩)

/-- A new request of the chain leads on. -/
theorem alive_addRequest {s : Phone} (h : s.Inv) {k : String} (hk : InChain k) (caught : Bool) :
    (s.addRequest k caught).Alive lib := by
  refine Or.inr (Or.inr ⟨⟨s.next, true, k⟩, hk, Or.inr ⟨⟨_, rfl, rfl⟩, fun hc => ?_⟩⟩)
  exact absurd (h.cancelled _ hc) (lt_irrefl s.next)

/-- While the main thread is free, only the timers wait. -/
theorem Waiting.of_main_none {s t : Phone} {r : SipRequest} (h : s.Waiting r)
    (hmain : s.main = none) (ht : ∀ m ∈ s.manager.timers, m ∈ t.manager.timers) :
    t.Waiting r := by
  rcases h with ⟨m, hm, hr⟩ | ⟨⟨a, ha, -⟩, -⟩
  · exact Or.inl ⟨m, ht m hm, hr⟩
  · rw [hmain] at ha
    cases ha

theorem alive_handleMessage {s : Phone} (h : s.Inv) {m : MainMessage} (hm : m.LeadsOn lib) :
    (s.handleMessage lib m).Alive lib := by
  rcases s.handleMessage_cases lib m with ⟨-, k, caught, hk, ht⟩ | ⟨-, ht⟩ | ⟨-, ht⟩ |
      ⟨hnot, -⟩ | ⟨hnot, -⟩
  · rw [ht]
    exact alive_addRequest h hk caught
  · -- a heartbeat is queued, or one is queued now
    rw [ht]
    unfold Phone.onLoginResponse
    split
    · next hnil => exact Or.inl (by rw [hnil]; exact List.cons_ne_nil _ _)
    · next hne => exact Or.inl hne
  · rw [ht]
    refine alive_addRequest ?_ (Or.inl rfl) true
    exact h.congr rfl rfl rfl
  · exact absurd hm hnot
  · exact absurd hm hnot

/-- A message that does not lead on takes nothing away. -/
theorem handleMessage_of_not_leadsOn {s : Phone} {m : MainMessage} (hm : ¬ m.LeadsOn lib) :
    ∃ feeds, s.handleMessage lib m = { s with feeds } := by
  rcases s.handleMessage_cases lib m with ⟨hl, -⟩ | ⟨hl, -⟩ | ⟨hl, -⟩ |
      ⟨-, json, msg, -, ht⟩ | ⟨-, ht⟩
  · exact absurd hl hm
  · exact absurd hl hm
  · exact absurd hl hm
  · exact ⟨_, ht⟩
  · exact ⟨_, ht⟩

theorem isFirst_handleMessage (s : Phone) (m : MainMessage) :
    (s.handleMessage lib m).isFirst = s.isFirst := by
  rcases s.handleMessage_cases lib m with ⟨-, k, caught, -, ht⟩ | ⟨-, ht⟩ | ⟨-, ht⟩ |
      ⟨-, json, msg, -, ht⟩ | ⟨-, ht⟩
  · rw [ht]
    rfl
  · rw [ht]
    unfold Phone.onLoginResponse
    split <;> rfl
  · rw [ht]
    rfl
  · rw [ht]
  · rw [ht]

/-! ## The steps -/

theorem ChainAlive.mainStep {s t : Phone} {e : MainEvent} (hi : s.Inv) (h : s.ChainAlive lib)
    (hmain : s.main = none) (ht : s.mainStep lib e = some t) : t.ChainAlive lib := by
  intro hfirst
  rcases mainStep_cases ht with ⟨k, caught, hk, rfl⟩ | ⟨k, caught, hk, rfl⟩ | rfl |
      ⟨rfl, hb⟩ | ⟨m, queue, hqueue, rfl⟩ | ⟨i, m, q, -, rfl⟩
  · exact alive_addRequest hi hk caught
  · refine alive_addRequest ?_ hk caught
    exact hi.congr rfl rfl rfl
  · exact (h hfirst).mono id (fun _ hm _ => hm) fun r _ hw => hw.of_main_none hmain fun _ hm => hm
  · exact h hfirst
  · rw [isFirst_handleMessage] at hfirst
    by_cases hm : m.LeadsOn lib
    · refine alive_handleMessage ?_ hm
      exact hi.congr rfl rfl rfl
    · obtain ⟨feeds, hfeeds⟩ := handleMessage_of_not_leadsOn hm
      rw [hfeeds]
      refine (h hfirst).mono id (fun m' hm' hl => ?_)
        fun r _ hw => hw.of_main_none hmain fun _ hm => hm
      rw [hqueue] at hm'
      rcases List.mem_cons.mp hm' with rfl | hm'
      · exact absurd hl hm
      · exact hm'
  · refine alive_addRequest ?_ (Or.inr rfl) false
    exact hi.congr rfl rfl rfl

/-- An answer stops the request that it finds, and no other. -/
theorem waiting_answer {s : Phone} {key : String} {queue : List MainMessage} {r : SipRequest} :
    { s with manager := s.manager.answer key, queue }.Waiting r ↔
      s.Waiting r ∧ s.manager.mRequestMap key ≠ some r := by
  constructor
  · rintro (⟨m, hm, rfl⟩ | ⟨ha, hc⟩)
    · obtain ⟨hm, hne⟩ := mem_timers_answer.mp hm
      exact ⟨Or.inl ⟨m, hm, rfl⟩, hne⟩
    · obtain ⟨hne, hc⟩ := not_or.mp (mt mem_cancelled_answer.mpr hc)
      exact ⟨Or.inr ⟨ha, hc⟩, hne⟩
  · rintro ⟨⟨m, hm, rfl⟩ | ⟨ha, hc⟩, hne⟩
    · exact Or.inl ⟨m, mem_timers_answer.mpr ⟨hm, hne⟩, rfl⟩
    · exact Or.inr ⟨ha, fun hc' => (mem_cancelled_answer.mp hc').elim hne hc⟩

/-- An answer keeps the chain alive exactly when it meets the condition. -/
theorem alive_answer_iff {s : Phone} (hi : s.Inv) (h : s.Alive lib) (key : String)
    (json : JsonElement) (m : Message) : (s.receive m (.answer key json)).Alive lib ↔
      ∀ r, key = "negotiate_response" → lib.negotiateResponse json.toObject = none →
        s.manager.mRequestMap "negotiate_response" = some r → s.AliveWithout lib r := by
  by_cases hl : (MainMessage.request key json m).LeadsOn lib
  · -- the posted message leads on
    refine iff_of_true (Or.inr (Or.inl ⟨_, List.mem_concat_self, hl⟩)) ?_
    rintro r rfl hnone -
    rcases hl with hl | ⟨-, hl⟩
    · exact absurd hl (by decide)
    · rw [hnone] at hl
      cases hl
  · obtain ⟨hlogin, hfits⟩ := not_or.mp hl
    have hold : ∀ m' ∈ s.queue, m' ∈ s.queue ++ [.request key json m] :=
      fun m' hm' => List.mem_append_left _ hm'
    by_cases hkey : key = "negotiate_response"
    · subst hkey
      have hnone : lib.negotiateResponse json.toObject = none := by
        rw [← Option.not_isSome_iff_eq_none]
        exact fun hsome => hfits ⟨rfl, hsome⟩
      constructor
      · -- nothing new leads on, and the request that was found is gone
        rintro (hb | ⟨m', hm', hl'⟩ | ⟨r', hr', hw⟩) r - - hk
        · exact Or.inl hb
        · rcases List.mem_append.mp hm' with hm' | hm'
          · exact Or.inr (Or.inl ⟨m', hm', hl'⟩)
          · rw [List.mem_singleton.mp hm'] at hl'
            exact absurd hl' hl
        · obtain ⟨hw, hne⟩ := waiting_answer.mp hw
          exact Or.inr (Or.inr ⟨r', fun he => hne (by rw [hk, he]), hr', hw⟩)
      · intro hcond
        cases hk : s.manager.mRequestMap "negotiate_response" with
        | none =>
          refine h.mono id (fun m' hm' _ => hold m' hm') fun r' _ hw => ?_
          exact waiting_answer.mpr ⟨hw, by rw [hk]; exact nofun⟩
        | some r =>
          rcases hcond r rfl hnone hk with hb | ⟨m', hm', hl'⟩ | ⟨r', hne, hr', hw⟩
          · exact Or.inl hb
          · exact Or.inr (Or.inl ⟨m', hold m' hm', hl'⟩)
          · refine Or.inr (Or.inr ⟨r', hr', waiting_answer.mpr ⟨hw, fun he => hne ?_⟩⟩)
            rw [hk] at he
            exact (Option.some.inj he).symm
    · -- another name: the requests of the chain are not under it
      refine iff_of_true ?_ fun r he => absurd he hkey
      refine h.mono id (fun m' hm' _ => hold m' hm') fun r' hr' hw => ?_
      refine waiting_answer.mpr ⟨hw, fun hk => ?_⟩
      have := (hi.mapped key r' hk).1
      rcases hr' with hr' | hr'
      · exact hkey (this.symm.trans hr')
      · exact hlogin (this.symm.trans hr')

section

variable {s t : Phone}

theorem ChainAlive.put (h : s.ChainAlive lib) (ht : s.step lib .put = some t) :
    t.ChainAlive lib := by
  obtain ⟨r, caught, hmain, rfl⟩ := put_step ht
  intro hfirst
  refine (h hfirst).mono id (fun _ hm _ => hm) fun r' _ hw => ?_
  rcases hw with hm | ⟨⟨a, ha, rfl⟩, hc⟩
  · exact Or.inl hm
  · obtain rfl := Option.some.inj (hmain.symm.trans ha)
    exact Or.inr ⟨⟨_, rfl, rfl⟩, hc⟩

/-- The request goes on waiting with its timer, if it has not been cancelled before. -/
theorem ChainAlive.startCounting (h : s.ChainAlive lib)
    (ht : s.step lib .startCounting = some t) : t.ChainAlive lib := by
  obtain ⟨r, caught, hmain, ⟨-, rfl⟩ | ⟨hc, -, rfl⟩⟩ := startCounting_step ht
  · intro hfirst
    refine (h hfirst).mono id (fun _ hm _ => hm) fun r' _ hw => ?_
    rcases hw with ⟨m, hm, hr⟩ | ⟨⟨a, ha, rfl⟩, -⟩
    · exact Or.inl ⟨m, Looper.mem_postDelayed.mpr (Or.inl hm), hr⟩
    · obtain rfl := Option.some.inj (hmain.symm.trans ha)
      exact Or.inl ⟨_, Looper.mem_postDelayed.mpr (Or.inr rfl), rfl⟩
  · intro hfirst
    refine (h hfirst).mono id (fun _ hm _ => hm) fun r' _ hw => ?_
    rcases hw with hm | ⟨⟨a, ha, rfl⟩, hc'⟩
    · exact Or.inl hm
    · obtain rfl := Option.some.inj (hmain.symm.trans ha)
      exact absurd hc hc'

/-- A message that answers nothing leaves everything that leads on. -/
theorem Alive.receive {m : Message} {received : Received} (h : s.Alive lib)
    (hnot : ∀ key json, received ≠ .answer key json) : (s.receive m received).Alive lib := by
  cases received with
  | nothing =>
    exact h.mono id (fun m' hm' _ => List.mem_append_left _ hm') fun _ _ hw => hw
  | post key json =>
    exact h.mono id (fun m' hm' _ => List.mem_append_left _ hm') fun _ _ hw => hw
  | answer key json => exact absurd rfl (hnot key json)

theorem chainAlive_receive_iff (hi : s.Inv) (h : s.ChainAlive lib) (m : Message) :
    (s.receive m (onReceivedMessage lib.xmlToJson m)).ChainAlive lib ↔
      s.KeepsChain lib (.receive m) := by
  by_cases hfirst : s.isFirst = false
  · have hs := h hfirst
    by_cases hanswer : ∃ key json, onReceivedMessage lib.xmlToJson m = .answer key json
    · obtain ⟨key, json, hrec⟩ := hanswer
      have hiff := alive_answer_iff hi hs key json m
      rw [hrec]
      constructor
      · intro halive _ json' r he hnone hk
        rw [hrec] at he
        obtain ⟨rfl, rfl⟩ := Received.answer.inj he
        exact hiff.mp (halive hfirst) r rfl hnone hk
      · intro hcond _
        refine hiff.mpr fun r hkey hnone hk => ?_
        subst hkey
        exact hcond hfirst json r hrec hnone hk
    · refine iff_of_true (fun _ => hs.receive fun key json he => hanswer ⟨key, json, he⟩) ?_
      intro _ json r he
      exact absurd ⟨_, json, he⟩ hanswer
  · refine iff_of_true (fun hf => absurd ?_ hfirst) fun hf => absurd hf hfirst
    cases hrec : onReceivedMessage lib.xmlToJson m <;> rw [hrec] at hf <;> exact hf

/-- A request of the chain that expires has posted a message that leads on. -/
theorem ChainAlive.expire (h : s.ChainAlive lib) {i : Nat}
    (ht : s.step lib (.expire i) = some t) : t.ChainAlive lib := by
  obtain ⟨r, manager, he, rfl⟩ := expire_step ht
  obtain ⟨m, hm, -, rfl, rfl⟩ := expire_eq_some he
  intro hfirst
  by_cases hr : InChain m.what.targetResponse
  · exact Or.inr (Or.inl ⟨_, List.mem_concat_self, hr⟩)
  · refine (h hfirst).mono id (fun m' hm' _ => List.mem_append_left _ hm') fun r' hr' hw => ?_
    rcases hw with ⟨m', hm', rfl⟩ | hw
    · rcases mem_expire he hm' with hwhat | hm'
      · rw [hwhat] at hr'
        exact absurd hr' hr
      · exact Or.inl ⟨m', hm', rfl⟩
    · exact Or.inr hw

theorem chainAlive_step {e : PhoneEvent} (hi : s.Inv) (h : s.ChainAlive lib)
    (ht : s.step lib e = some t) : t.ChainAlive lib ↔ s.KeepsChain lib e := by
  cases e with
  | main e =>
    obtain ⟨hmain, ht⟩ := main_step ht
    exact iff_of_true (h.mainStep hi hmain ht) trivial
  | put => exact iff_of_true (h.put ht) trivial
  | startCounting => exact iff_of_true (h.startCounting ht) trivial
  | receive m =>
    obtain rfl := Option.some.inj ht
    exact chainAlive_receive_iff hi h m
  | expire i => exact iff_of_true (h.expire ht) trivial
  | advance ms =>
    obtain rfl := Option.some.inj ht
    exact iff_of_true (fun hfirst => (h hfirst).mono id (fun _ hm _ => hm) fun _ _ hw => hw)
      trivial

end

end Phone

/-- **The chain lives exactly as long as no unfitting `negotiate_response` takes away the last
thing that leads on.** -/
theorem alive_iff_keepsChain (lib : Libraries) (es : List PhoneEvent) (s : Phone)
    (hs : (phoneMachine lib).run es = some s) :
    (phoneMachine lib).Always (Phone.ChainAlive lib) es ↔
      (phoneMachine lib).Each (Phone.KeepsChain lib) es :=
  (phoneMachine lib).always_iff_each Phone.inv_start nofun
    (fun _ _ _ h ht => h.step ht) (fun _ _ _ hi h ht => Phone.chainAlive_step hi h ht) hs

/-- The seed request is answered with two salts. -/
def deadChain : List PhoneEvent :=
  [.main .onResume, .put, .startCounting, .receive twoSalts, .main .dispatch]

/-- The device shows a toast and never sends anything again. -/
theorem not_forall_chainAlive : ¬ ∀ (lib : Libraries) (es : List PhoneEvent),
    (phoneMachine lib).Always (Phone.ChainAlive lib) es := by
  intro h
  have hrun : ((phoneMachine sampleLibraries).run deadChain).map
      (fun s => (s.isFirst, s.heartBeats.isEmpty, s.queue.isEmpty, s.manager.timers.isEmpty,
        s.main.isNone)) = some (false, true, true, true, true) := by decide +kernel
  obtain ⟨s, hs, hout⟩ := Option.map_eq_some_iff.mp hrun
  simp only [Prod.mk.injEq, List.isEmpty_iff, Option.isNone_iff_eq_none] at hout
  obtain ⟨hfirst, hb, hq, ht, hm⟩ := hout
  rcases (h sampleLibraries deadChain).last hs hfirst with hb' | ⟨m, hm', -⟩ |
      ⟨r, -, ⟨m, hm', -⟩ | ⟨⟨a, ha, -⟩, -⟩⟩
  · exact hb' hb
  · rw [hq] at hm'
    cases hm'
  · rw [ht] at hm'
    cases hm'
  · rw [hm] at ha
    cases ha

/-- The same answer while a login is under way. -/
def survivingChain : List PhoneEvent :=
  [.receive loginOk, .main .dispatch, .main .onResume, .put, .startCounting, .receive twoSalts,
    .main .dispatch]

theorem alive_iff_keepsChain_surviving : ∃ s,
    (phoneMachine sampleLibraries).run survivingChain = some s ∧ s.heartBeats ≠ [] ∧
    ((phoneMachine sampleLibraries).Always (Phone.ChainAlive sampleLibraries) survivingChain ↔
      (phoneMachine sampleLibraries).Each (Phone.KeepsChain sampleLibraries) survivingChain) := by
  have hrun : ((phoneMachine sampleLibraries).run survivingChain).map
      (fun s => decide (s.heartBeats ≠ [])) = some true := by decide +kernel
  obtain ⟨s, hs, hb⟩ := Option.map_eq_some_iff.mp hrun
  exact ⟨s, hs, of_decide_eq_true hb, alive_iff_keepsChain sampleLibraries survivingChain s hs⟩

end PetDev.Sip
