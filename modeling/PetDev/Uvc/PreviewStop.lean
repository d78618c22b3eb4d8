import PetDev.Uvc.PreviewFrames

/-!
# Stopping a preview

`Joins` is what `stopPreview` and the end of a stream rely on: the join finds the capture thread
of its own preview, and a stream that runs no more is closed when its callback is not under way.
In a run whose steps all meet it there is one capture thread at most, and one callback.

* `frames_bounded`: how many frames there are, in every run and in such runs.
* `stopped_frames`: in such runs every frame is in the pool, freed or lost after `stopPreview`.
-/

namespace PetDev.Uvc

/-- `stopPreview` has not joined the last of `n` capture threads yet. -/
def UiPc.joins (n : Nat) : UiPc → Prop
  | .stopping => True
  | .joiningCapture k => k = n
  | _ => False

theorem getElem?_concat_eq_some {α : Type*} {l : List α} {a b : α} {i : Nat}
    (h : (l ++ [a])[i]? = some b) : l[i]? = some b ∨ i = l.length ∧ b = a := by
  rcases Nat.lt_or_ge i l.length with hlt | hle
  · rw [List.getElem?_append_left hlt] at h
    exact Or.inl h
  · rw [List.getElem?_append_right hle] at h
    have hi : i = l.length := by
      have := (List.getElem?_eq_some_iff.mp h).1
      rw [List.length_singleton] at this
      omega
    rw [hi, Nat.sub_self] at h
    exact Or.inr ⟨hi, (Option.some.inj h).symm⟩

theorem countP_le_one {α : Type*} {p : α → Bool} {l : List α}
    (h : ∀ (i : Nat) (a : α), l[i]? = some a → p a = true → i + 1 = l.length) :
    l.countP p ≤ 1 := by
  rcases List.eq_nil_or_concat l with rfl | ⟨l, b, rfl⟩
  · exact Nat.zero_le 1
  · rw [List.concat_eq_append] at h ⊢
    have hzero : l.countP p = 0 := by
      refine List.countP_eq_zero.mpr fun a ha hpa => ?_
      obtain ⟨i, hi⟩ := List.mem_iff_getElem?.mp ha
      have hlt := (List.getElem?_eq_some_iff.mp hi).1
      have hlen := h i a (by rw [List.getElem?_append_left hlt, hi]) hpa
      rw [List.length_append, List.length_singleton] at hlen
      omega
    rw [List.countP_append, hzero, Nat.zero_add]
    exact List.countP_le_length

namespace Preview

/-- **The condition on a step.**  `stopPreview` does not read the handle of the capture thread
before the preview thread has created it, and the preview thread does not close a stream that
runs no more while its callback is under way. -/
def Joins (s : Preview) : PreviewEvent → Prop
  | .ui _ => s.ui = .stopping → s.preview.early = false
  | .preview false => s.preview = .startingStream ∨ s.preview = .finishing →
    ∀ pc ∈ s.callbacks.getLast?, pc = .outside
  | _ => True

instance (s : Preview) : DecidablePred s.Joins
  | .ui _ => inferInstanceAs (Decidable (s.ui = .stopping → s.preview.early = false))
  | .preview false => inferInstanceAs (Decidable
      (s.preview = .startingStream ∨ s.preview = .finishing →
        ∀ pc ∈ s.callbacks.getLast?, pc = .outside))
  | .preview true | .setPreviewSize _ | .setPreviewDisplay _ | .setFrameCallback _ _
  | .setCaptureDisplay _ | .startPreview | .stopPreview | .setter _ | .callback _ _
  | .capture _ _ => isTrue trivial

/-- One callback at most is under way, and one capture thread is there at most, the last. -/
structure Alone (s : Preview) : Prop where
  inv : Inv s
  callbacks : ∀ (i : Nat) (pc : CallbackPc), s.callbacks[i]? = some pc → pc ≠ .outside →
    s.opened i = true
  captures : ∀ (i : Nat) (pc : CapturePc), s.captures[i]? = some pc → pc ≠ .stopped →
    i + 1 = s.captures.length ∧ s.preview.early = false ∧
      (s.isRunning = true ∧ s.ui = .outside ∨ s.ui.joins s.captures.length)
  joined : ∀ n, s.ui = .joiningCapture n ∨ s.ui = .joiningPreview → s.preview.early = false

variable {s t : Preview} {ok : Bool}

theorem init_alone : Alone init where
  inv := init_inv
  callbacks := nofun
  captures := nofun
  joined := fun _ _ => rfl

/-- Without a stream no callback is under way. -/
theorem Alone.callback_outside (h : Alone s) (hstream : s.streaming = false) {i : Nat}
    {pc : CallbackPc} (hpc : s.callbacks[i]? = some pc) : pc = .outside := by
  by_contra hne
  have hopen := (opened_iff.mp (h.callbacks i pc hpc hne)).1
  exact absurd (hstream.symm.trans hopen) (by decide)

/-- A step that leaves the threads and the join as they are. -/
theorem Alone.of_same (h : Alone s) (hinv : Inv t)
    (hcallbacks : t.callbacks = s.callbacks ∧ t.streaming = s.streaming)
    (hcaptures : t.captures = s.captures ∧ t.preview = s.preview)
    (hui : t.isRunning = s.isRunning ∧ t.ui = s.ui) : Alone t := by
  refine ⟨hinv, ?_, ?_, ?_⟩
  · simp only [opened, hcallbacks]
    exact h.callbacks
  · rw [hcaptures.1, hcaptures.2, hui.1, hui.2]
    exact h.captures
  · rw [hcaptures.2, hui.2]
    exact h.joined

/-- The callback that takes a step is the last, and its stream is open. -/
theorem Alone.opened_of_step (h : Alone s) {i : Nat} {pc pc' : CallbackPc}
    (hpc : s.callbacks[i]? = some pc) (he : s.callbackStep (s.opened i) ok pc = some (pc', t)) :
    s.opened i = true := by
  by_cases hne : pc = .outside
  · exact (callbackStep_same he).1 hne
  · exact h.callbacks i pc hpc hne

theorem callbackStep_alone {i : Nat} (h : Alone s) (he : step s (.callback i ok) = some t) :
    Alone t := by
  have hinv := step_inv h.inv he
  obtain ⟨pc, pc', u, hpc, hu, rfl⟩ := step_callback_eq_some he
  have hopened := h.opened_of_step hpc hu
  obtain ⟨-, pool, images, camera, frames, rfl, -⟩ := callbackStep_same hu
  refine ⟨hinv, fun j pc hj hne => ?_, h.captures, h.joined⟩
  have hopen : ∀ k, opened { s with callbacks := s.callbacks.set i pc' } k = s.opened k := by
    intro k
    simp [opened]
  show opened { s with callbacks := s.callbacks.set i pc' } j = true
  rw [hopen]
  by_cases hij : i = j
  · exact hij ▸ hopened
  · have hj : (s.callbacks.set i pc')[j]? = some pc := hj
    rw [List.getElem?_set_ne hij] at hj
    exact h.callbacks j pc hj hne

theorem captureStep_alone {i : Nat} (h : Alone s) (he : step s (.capture i ok) = some t) :
    Alone t := by
  have hinv := step_inv h.inv he
  obtain ⟨pc, pc', u, hpc, hu, rfl⟩ := step_capture_eq_some he
  obtain ⟨hstarted, pool, images, capturing, window, queu, recorded, delivered, rfl, -⟩ :=
    captureStep_same hu
  refine ⟨hinv, h.callbacks, fun j pc hj hne => ?_, h.joined⟩
  show j + 1 = (s.captures.set i pc').length ∧ s.preview.early = false ∧
    (s.isRunning = true ∧ s.ui = .outside ∨ s.ui.joins (s.captures.set i pc').length)
  rw [List.length_set]
  by_cases hij : i = j
  · exact hij ▸ h.captures i _ hpc hstarted
  · have hj : (s.captures.set i pc')[j]? = some pc := hj
    rw [List.getElem?_set_ne hij] at hj
    exact h.captures j pc hj hne

/-- A stream that is closed has no callback under way. -/
theorem Alone.returned (h : Alone s) (hlast : ∀ pc ∈ s.callbacks.getLast?, pc = .outside) {i : Nat}
    {pc : CallbackPc} (hpc : s.callbacks[i]? = some pc) : pc = .outside := by
  by_contra hne
  refine hne (hlast pc ?_)
  rw [List.getLast?_eq_getElem?, ← (opened_iff.mp (h.callbacks i pc hpc hne)).2]
  exact hpc

theorem previewStep_alone (h : Alone s) (hjoins : s.Joins (.preview ok))
    (he : step s (.preview ok) = some t) : Alone t := by
  have hinv := step_inv h.inv he
  obtain ⟨pc, u, hu, rfl⟩ := step_preview_eq_some he
  have hspec := previewStep_spec hu
  obtain ⟨pool, images, mode, streaming, callbacks, captures, frames, queu, lost, drawn, rfl⟩ :=
    hspec.same
  have halive := h.inv.cycle.alive hspec.started
  refine ⟨hinv, fun i x hi hne => ?_, fun i x hi hne => ?_, fun n hui => ?_⟩
  · have hi : callbacks[i]? = some x := hi
    show (streaming && i + 1 == callbacks.length) = true
    rcases hspec.stream with ⟨hstream, hcallbacks, -⟩ | ⟨hpc, -, hstream, hcallbacks⟩ |
      ⟨hpc, -, -, hcallbacks, hlast⟩
    · have hstream : streaming = s.streaming := hstream
      have hcallbacks : callbacks = s.callbacks := hcallbacks
      rw [hcallbacks] at hi ⊢
      rw [hstream]
      exact h.callbacks i x hi hne
    · -- The callbacks of the streams before have all returned.
      have hcallbacks : callbacks = s.callbacks ++ [.outside] := hcallbacks
      rw [hcallbacks] at hi
      rcases getElem?_concat_eq_some hi with hi | ⟨-, hi⟩
      · exact absurd (h.callback_outside (h.inv.cycle.streamed (Or.inr hpc)) hi) hne
      · exact absurd hi hne
    · have hcallbacks : callbacks = s.callbacks := hcallbacks
      rw [hcallbacks] at hi
      refine absurd (h.returned ?_ hi) hne
      cases ok with
      | true =>
        intro x hx
        rw [hlast rfl] at hx
        exact (Option.some.inj hx).symm
      | false => exact hjoins hpc
  · have hi : captures[i]? = some x := hi
    show i + 1 = captures.length ∧ pc.early = false ∧
      (s.isRunning = true ∧ s.ui = .outside ∨ s.ui.joins captures.length)
    rcases hspec.captures with ⟨hcaptures, hearly⟩ | ⟨hpc, hearly, -, hcaptures⟩
    · have hcaptures : captures = s.captures := hcaptures
      rw [hcaptures] at hi ⊢
      obtain ⟨hlen, hlate, hui⟩ := h.captures i x hi hne
      exact ⟨hlen, Bool.eq_false_of_not_eq_true fun h => by simp [hearly h] at hlate, hui⟩
    · -- The capture threads before have all ended.
      have hcaptures : captures = s.captures ++ [.clearCaptureFrame] := hcaptures
      rw [hcaptures] at hi ⊢
      rcases getElem?_concat_eq_some hi with hi | ⟨hi, -⟩
      · exact absurd (hpc.symm.trans (h.captures i x hi hne).2.1) (by decide)
      · refine ⟨by rw [hi, List.length_append, List.length_singleton], hearly, ?_⟩
        refine halive.imp_right fun hjoining => ?_
        cases hui : s.ui with
        | stopping => trivial
        | joiningCapture k =>
          exact absurd (hpc.symm.trans (h.joined k (Or.inl hui))) (by decide)
        | joiningPreview =>
          exact absurd (hpc.symm.trans (h.joined 0 (Or.inr hui))) (by decide)
        | _ => rw [hui] at hjoining; exact absurd hjoining (by simp [UiPc.joining])
  · have hlate := h.joined n hui
    rcases hspec.captures with ⟨-, hearly⟩ | ⟨hpc, -⟩
    · exact Bool.eq_false_of_not_eq_true fun h => by simp [hearly h] at hlate
    · exact absurd (hpc.symm.trans hlate) (by decide)

/-- Where `stopPreview` has joined them, the capture threads have ended. -/
theorem Alone.capture_stopped (h : Alone s) (hrun : s.isRunning = false ∨ s.ui ≠ .outside)
    (hui : ¬ s.ui.joins s.captures.length) {i : Nat} {pc : CapturePc}
    (hpc : s.captures[i]? = some pc) : pc = .stopped := by
  by_contra hne
  rcases (h.captures i pc hpc hne).2.2 with ⟨hrun', hui'⟩ | hjoins
  · rcases hrun with hrun | hrun
    · exact absurd (hrun.symm.trans hrun') (by decide)
    · exact hrun hui'
  · exact hui hjoins

theorem uiStep_alone (h : Alone s) (hjoins : s.Joins (.ui ok)) (hinv : Inv t) (he : UiStep s t) :
    Alone t := by
  cases he with
  | started hui | failed hui =>
    refine ⟨hinv, h.callbacks, fun i pc hpc hne => ?_, nofun⟩
    exact absurd (h.capture_stopped (Or.inr (by simp [hui])) (by rw [hui]; exact id) hpc) hne
  | handle hui =>
    refine ⟨hinv, h.callbacks, fun i pc hpc hne => ?_, fun _ _ => hjoins hui⟩
    obtain ⟨hlen, hearly, -⟩ := h.captures i pc hpc hne
    exact ⟨hlen, hearly, Or.inr rfl⟩
  | joinedCapture n hui hended =>
    refine ⟨hinv, h.callbacks, fun i pc hpc hne => ?_, fun _ _ => h.joined n (Or.inl hui)⟩
    obtain ⟨hlen, -, ⟨-, hout⟩ | hn⟩ := h.captures i pc hpc hne
    · exact absurd (hui.symm.trans hout) nofun
    · -- The thread that was waited for is this one.
      rw [hui] at hn
      have hn : n = s.captures.length := hn
      refine absurd (hended pc ?_) hne
      rw [hn, List.take_length, List.getLast?_eq_getElem?, ← hlen]
      exact hpc
  | joinedPreview hui | clear hui | recycle frame rest hui | cleared hui | stopped hui =>
    refine ⟨hinv, h.callbacks, fun i pc hpc hne => ?_, fun n hn => ?_⟩
    · exact absurd (h.capture_stopped (Or.inr (by simp [hui])) (by rw [hui]; exact id) hpc) hne
    · rcases hn with hn | hn <;> exact absurd hn nofun

theorem step_alone {e : PreviewEvent} (h : Alone s) (hjoins : s.Joins e)
    (he : step s e = some t) : Alone t := by
  have hinv := step_inv h.inv he
  cases e with
  | setPreviewSize _ | setPreviewDisplay _ | setFrameCallback _ _ | setCaptureDisplay _
  | setter _ =>
    obtain ⟨mode, window, capture, obj, func, capturing, setters, rfl⟩ := setter_cases he (by simp)
    exact h.of_same hinv ⟨rfl, rfl⟩ ⟨rfl, rfl⟩ ⟨rfl, rfl⟩
  | startPreview =>
    obtain ⟨hui, rfl | ⟨hrun, rfl⟩⟩ := startPreview_eq_some he
    · exact h
    · refine ⟨hinv, h.callbacks, fun i pc hpc hne => ?_, nofun⟩
      exact absurd (h.capture_stopped (Or.inl hrun) (by rw [hui]; exact id) hpc) hne
  | stopPreview =>
    obtain ⟨hui, ⟨-, rfl⟩ | ⟨hrun, rfl⟩⟩ := stopPreview_eq_some he
    · refine ⟨hinv, h.callbacks, fun i pc hpc hne => ?_, nofun⟩
      obtain ⟨hlen, hearly, -⟩ := h.captures i pc hpc hne
      exact ⟨hlen, hearly, Or.inr trivial⟩
    · refine ⟨hinv, h.callbacks, fun i pc hpc hne => ?_, nofun⟩
      exact absurd (h.capture_stopped (Or.inl hrun) (by rw [hui]; exact id) hpc) hne
  | ui ok => exact uiStep_alone h hjoins hinv (uiStep_spec he)
  | callback i ok => exact callbackStep_alone h he
  | preview ok => exact previewStep_alone h hjoins he
  | capture i ok => exact captureStep_alone h he

theorem run_alone {es : List PreviewEvent} (hjoins : machine.Each Joins es)
    (h : machine.run es = some t) : Alone t :=
  machine.invariant_of_each init_alone (fun _ _ _ hs hC he => step_alone hs hC he) hjoins h

/-! ## How many frames there are -/

theorem Alone.countP_busy_le (h : Alone s) : s.callbacks.countP CallbackPc.busy ≤ 1 := by
  refine countP_le_one fun i pc hpc hbusy => ?_
  have hne : pc ≠ .outside := by
    rintro rfl
    exact absurd hbusy (by decide)
  exact (opened_iff.mp (h.callbacks i pc hpc hne)).2

theorem Alone.countP_alive_le (h : Alone s) : s.captures.countP CapturePc.alive ≤ 1 := by
  refine countP_le_one fun i pc hpc halive => ?_
  exact (h.captures i pc hpc (by rintro rfl; exact absurd halive (by decide))).1

/-- **How many frames are in memory**, and how many are lost.  With the threads joined there are
17 at most besides the lost ones. -/
theorem frames_bounded {es : List PreviewEvent} (h : machine.run es = some t) :
    t.pool.next ≤ t.pool.freed.length + t.lost.length + 13 +
        t.callbacks.countP CallbackPc.busy + 3 * t.captures.countP CapturePc.alive ∧
      t.lost.length ≤ es.count .stopPreview ∧
      (machine.Each Joins es → t.pool.next ≤ t.pool.freed.length + t.lost.length + 17) := by
  have hle := frames_le (run_inv h)
  refine ⟨hle, le_trans (Nat.le_add_right _ _) (run_lost h), fun hjoins => ?_⟩
  have halone := run_alone hjoins h
  have hbusy := halone.countP_busy_le
  have halive := halone.countP_alive_le
  omega

/-- One preview, up to the frame that the preview thread is going to pass on. -/
def oneDrawn : List PreviewEvent :=
  [.setPreviewDisplay true, .setFrameCallback true false, .startPreview, .ui true] ++
    List.replicate 4 (.preview true) ++ List.replicate 3 (.capture 0 true) ++
    List.replicate 6 (.callback 0 true) ++ List.replicate 7 (.preview true)

/-- It is stopped then, and the frame is lost. -/
def oneLost : List PreviewEvent :=
  oneDrawn ++ [.stopPreview, .ui true] ++ List.replicate 3 (.preview true) ++
    List.replicate 3 (.capture 0 true) ++ List.replicate 5 (.ui true)

theorem run_oneLost :
    ∃ t, machine.Each Joins oneLost ∧ machine.run oneLost = some t ∧ t.isRunning = false ∧
      t.ui = .outside ∧ t.lost = [0] := by
  have hrun : ((machine.guard Joins).run oneLost).map (fun t => (t.isRunning, t.ui, t.lost)) =
      some (false, .outside, [0]) := rfl
  obtain ⟨t, ht, heq⟩ := Option.map_eq_some_iff.mp hrun
  obtain ⟨ht, hjoins⟩ := machine.run_of_guard ht
  exact ⟨t, hjoins, ht, congrArg (fun x => x.1) heq, congrArg (fun x => x.2.1) heq,
    congrArg (fun x => x.2.2) heq⟩

theorem frames_bounded_lost :
    ∃ t, machine.run oneLost = some t ∧ t.lost = [0] ∧
      t.lost.length ≤ oneLost.count .stopPreview ∧
      t.pool.next ≤ t.pool.freed.length + t.lost.length + 17 := by
  obtain ⟨t, hjoins, ht, -, -, hlost⟩ := run_oneLost
  obtain ⟨-, hcount, hbounded⟩ := frames_bounded ht
  exact ⟨t, ht, hlost, hcount, hbounded hjoins⟩

/-! ## After `stopPreview` -/

/-- There is no preview: it was stopped, or is about to start. -/
def Off (s : Preview) : Prop := s.ui = .starting ∨ s.isRunning = false ∧ s.ui = .outside

/-- What `stopPreview` has cleared stays clear. -/
structure Cleared (s : Preview) : Prop where
  queue : s.Off ∨ s.ui = .clearCaptureFrame ∨ (∃ rest, s.ui = .clearing rest) →
    s.previewFrames = []
  capture : s.Off → s.captureQueu = none

/-- The threads take steps only while the preview runs, or is being stopped. -/
theorem Alone.on_of_step (h : Alone s) {e : PreviewEvent} (he : step s e = some t)
    (hthread : (∃ i ok, e = .callback i ok) ∨ (∃ ok, e = .preview ok) ∨ ∃ i ok, e = .capture i ok) :
    s.isRunning = true ∧ s.ui = .outside ∨ s.ui.joining = true := by
  have halive : s.preview ≠ .stopped → _ := h.inv.cycle.alive
  rcases hthread with ⟨i, ok, rfl⟩ | ⟨ok, rfl⟩ | ⟨i, ok, rfl⟩
  · obtain ⟨pc, pc', u, hpc, hu, -⟩ := step_callback_eq_some he
    refine halive fun hended => ?_
    have hstream := h.inv.cycle.streamed (Or.inl hended)
    have hopened := (callbackStep_same hu).1 (h.callback_outside hstream hpc)
    exact absurd (hstream.symm.trans (opened_iff.mp hopened).1) (by decide)
  · obtain ⟨pc, u, hu, -⟩ := step_preview_eq_some he
    exact halive (previewStep_spec hu).started
  · obtain ⟨pc, pc', u, hpc, hu, -⟩ := step_capture_eq_some he
    refine (h.captures i pc hpc (captureStep_same hu).1).2.2.imp_right fun hjoins => ?_
    cases hui : s.ui with
    | stopping | joiningCapture _ => rfl
    | _ => rw [hui] at hjoins; exact hjoins.elim

theorem Cleared.of_on (hon : t.isRunning = true ∧ t.ui = .outside ∨ t.ui.joining = true) :
    Cleared t := by
  have hoff : ¬ t.Off := by
    rintro (hui | ⟨hrun, hui⟩) <;> rcases hon with ⟨hrun', hui'⟩ | hjoining
    · exact absurd (hui.symm.trans hui') nofun
    · exact absurd hjoining (by simp [hui, UiPc.joining])
    · exact absurd (hrun.symm.trans hrun') (by decide)
    · exact absurd hjoining (by simp [hui, UiPc.joining])
  refine ⟨fun hui => ?_, fun h => absurd h hoff⟩
  rcases hui with h | hui | ⟨rest, hui⟩
  · exact absurd h hoff
  all_goals
    rcases hon with ⟨-, hui'⟩ | hjoining
    · exact absurd (hui.symm.trans hui') nofun
    · exact absurd hjoining (by simp [hui, UiPc.joining])

theorem uiStep_cleared (h : Cleared s) (hc : Cycle s) (he : UiStep s t) : Cleared t := by
  cases he with
  | started hui => exact .of_on (Or.inl ⟨hc.starting hui, rfl⟩)
  | failed hui =>
    have hoff : s.Off := Or.inl hui
    exact ⟨fun _ => h.queue (Or.inl hoff), fun _ => h.capture hoff⟩
  | handle hui => exact .of_on (Or.inr rfl)
  | joinedCapture n hui => exact .of_on (Or.inr rfl)
  | joinedPreview hui =>
    refine ⟨?_, ?_⟩
    · rintro ((h | ⟨-, h⟩) | h | ⟨rest, h⟩) <;> exact absurd h nofun
    · rintro (h | ⟨-, h⟩) <;> exact absurd h nofun
  | clear hui =>
    refine ⟨fun _ => rfl, ?_⟩
    rintro (h | ⟨-, h⟩) <;> exact absurd h nofun
  | recycle frame rest hui =>
    refine ⟨fun _ => h.queue (Or.inr (Or.inr ⟨_, hui⟩)), ?_⟩
    rintro (h | ⟨-, h⟩) <;> exact absurd h nofun
  | cleared hui =>
    refine ⟨fun _ => h.queue (Or.inr (Or.inr ⟨_, hui⟩)), ?_⟩
    rintro (h | ⟨-, h⟩) <;> exact absurd h nofun
  | stopped hui => exact ⟨fun _ => h.queue (Or.inr (Or.inl hui)), fun _ => rfl⟩

theorem thread_same {e : PreviewEvent} (he : step s e = some t)
    (hthread : (∃ i ok, e = .callback i ok) ∨ (∃ ok, e = .preview ok) ∨ ∃ i ok, e = .capture i ok) :
    t.isRunning = s.isRunning ∧ t.ui = s.ui := by
  rcases hthread with ⟨i, ok, rfl⟩ | ⟨ok, rfl⟩ | ⟨i, ok, rfl⟩
  · obtain ⟨pc, pc', u, -, hu, rfl⟩ := step_callback_eq_some he
    obtain ⟨-, pool, images, camera, frames, rfl, -⟩ := callbackStep_same hu
    exact ⟨rfl, rfl⟩
  · obtain ⟨pc, u, hu, rfl⟩ := step_preview_eq_some he
    obtain ⟨pool, images, mode, streaming, callbacks, captures, frames, queu, lost, drawn, rfl⟩ :=
      (previewStep_spec hu).same
    exact ⟨rfl, rfl⟩
  · obtain ⟨pc, pc', u, -, hu, rfl⟩ := step_capture_eq_some he
    obtain ⟨-, pool, images, capturing, window, queu, recorded, delivered, rfl, -⟩ :=
      captureStep_same hu
    exact ⟨rfl, rfl⟩

theorem thread_cleared {e : PreviewEvent} (h : Alone s) (he : step s e = some t)
    (hthread : (∃ i ok, e = .callback i ok) ∨ (∃ ok, e = .preview ok) ∨ ∃ i ok, e = .capture i ok) :
    Cleared t := by
  have hon := h.on_of_step he hthread
  obtain ⟨hrun, hui⟩ := thread_same he hthread
  exact .of_on (by rw [hrun, hui]; exact hon)

theorem step_cleared {e : PreviewEvent} (ha : Alone s) (h : Cleared s) (he : step s e = some t) :
    Cleared t := by
  cases e with
  | setPreviewSize _ | setPreviewDisplay _ | setFrameCallback _ _ | setCaptureDisplay _
  | setter _ =>
    obtain ⟨mode, window, capture, obj, func, capturing, setters, rfl⟩ := setter_cases he (by simp)
    exact ⟨h.queue, h.capture⟩
  | startPreview =>
    obtain ⟨hui, rfl | ⟨hrun, rfl⟩⟩ := startPreview_eq_some he
    · exact h
    · have hoff : s.Off := Or.inr ⟨hrun, hui⟩
      exact ⟨fun _ => h.queue (Or.inl hoff), fun _ => h.capture hoff⟩
  | stopPreview =>
    obtain ⟨-, ⟨-, rfl⟩ | ⟨-, rfl⟩⟩ := stopPreview_eq_some he
    · exact .of_on (Or.inr rfl)
    · refine ⟨?_, ?_⟩
      · rintro ((h | ⟨-, h⟩) | h | ⟨rest, h⟩) <;> exact absurd h nofun
      · rintro (h | ⟨-, h⟩) <;> exact absurd h nofun
  | ui ok => exact uiStep_cleared h ha.inv.cycle (uiStep_spec he)
  | callback i ok => exact thread_cleared ha he (Or.inl ⟨i, ok, rfl⟩)
  | preview ok => exact thread_cleared ha he (Or.inr (Or.inl ⟨ok, rfl⟩))
  | capture i ok => exact thread_cleared ha he (Or.inr (Or.inr ⟨i, ok, rfl⟩))

theorem run_cleared {es : List PreviewEvent} (hjoins : machine.Each Joins es)
    (h : machine.run es = some t) : Cleared t := by
  refine (machine.invariant_of_each (I := fun s => Alone s ∧ Cleared s) ⟨init_alone, ?_⟩
    (fun s e t hs hC he => ⟨step_alone hs.1 hC he, step_cleared hs.1 hs.2 he⟩) hjoins h).2
  exact ⟨fun _ => rfl, fun _ => rfl⟩

/-- **After `stopPreview` every frame is in the pool, freed or lost.** -/
theorem stopped_frames {es : List PreviewEvent} (hjoins : machine.Each Joins es)
    (h : machine.run es = some t) (hrun : t.isRunning = false) (hui : t.ui = .outside) :
    (t.pool.pooled ++ t.pool.freed ++ t.lost).Perm (List.range t.pool.next) := by
  have halone := run_alone hjoins h
  have hcleared := run_cleared hjoins h
  have hoff : t.Off := Or.inr ⟨hrun, hui⟩
  have hended := halone.inv.cycle.ended (by rw [hui]; rfl) (Or.inl hrun)
  have hstream := halone.inv.cycle.streamed (Or.inl hended)
  have hcallbacks : t.callbacks.flatMap CallbackPc.frames = [] :=
    ObjectPool.flatMap_eq_nil_of_getElem? fun i pc hpc => by
      rw [halone.callback_outside hstream hpc]
      rfl
  have hcaptures : t.captures.flatMap CapturePc.frames = [] :=
    ObjectPool.flatMap_eq_nil_of_getElem? fun i pc hpc => by
      rw [halone.capture_stopped (Or.inl hrun) (by rw [hui]; exact id) hpc]
      rfl
  have haccounts := (run_inv h).stocked.accounts
  refine Multiset.coe_eq_coe.mp ?_
  simpa [ObjectPool.Accounts, held, hcleared.queue (Or.inl hoff), hcleared.capture hoff, hui,
    hended, hcallbacks, hcaptures, UiPc.frames, PreviewPc.frames, Multiset.range] using haccounts

theorem stopped_frames_lost :
    ∃ t, machine.run oneLost = some t ∧ t.lost = [0] ∧
      (t.pool.pooled ++ t.pool.freed ++ t.lost).Perm (List.range t.pool.next) := by
  obtain ⟨t, hjoins, ht, hrun, hui, hlost⟩ := run_oneLost
  exact ⟨t, ht, hlost, stopped_frames hjoins ht hrun hui⟩

-- The device is lost while a camera frame is being copied: the callback still holds the copy.
example : (machine.run ([.setPreviewDisplay true, .startPreview, .ui true] ++
      List.replicate 4 (.preview true) ++ List.replicate 4 (.callback 0 true) ++
      [.stopPreview, .ui true, .capture 0 true, .capture 0 true, .ui true, .preview true,
        .preview false] ++ List.replicate 4 (.ui true))).map
    (fun t => (t.isRunning, t.ui, t.callbacks)) =
      some (false, .outside, [.duplicating 0 0]) := rfl

end Preview

end PetDev.Uvc
