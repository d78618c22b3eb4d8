import PetDev.Lib.StepMachine

/-!
# The transfers of a stream, and closing it

The stream has ten transfers.  The USB thread calls `_uvc_stream_callback` when one completes;
the callback submits it again while the stream runs, and deletes it otherwise.
`uvc_stream_close` stops the stream first: it waits until all transfers are deleted.  But it
does so only if the stream runs, and a lost device or a start that failed half-way has ended
that already.

What the USB thread does with the handle is all that is looked at here.  The thread of
`_uvc_user_caller` uses it too, and `uvc_stream_stop` joins that thread after the wait for the
transfers; it has no part in that wait, and is not a part of this system.

A run interleaves the start, the USB thread and the closing thread in any order, any transfer
may complete at any time with any status, and any submission may fail.

* `safe_iff`: the USB thread never uses the handle after it was freed, whatever the transfers do
  then, exactly when every `uvc_stream_close` that finds the stream ended finds all transfers quiet.
* `stop_ends_iff`: the wait of `uvc_stream_stop` can end exactly when no callback failed to
  submit its transfer again.
* `stop_ends_after`: it then ends after 31 steps of the USB thread at most, whichever these are,
  and before that there is always one to take.
-/

namespace PetDev.Uvc

/-! ## The source -/

/-- `LIBUVC_NUM_TRANSFER_BUFS`. -/
def numTransferBufs : Nat := 10

inductive TransferStatus where
  | completed
  | error
  | timedOut
  | cancelled
  | stall
  | noDevice
  | overflow
  deriving DecidableEq

/-- Whether `_uvc_stream_callback` would use the transfer again. -/
def TransferStatus.resubmit : TransferStatus → Bool
  | completed | timedOut | stall | overflow => true
  | error | cancelled | noDevice => false

/-- A transfer: deleted, with the pointer in `transfers` cleared; not submitted; submitted; or
with its callback under way. -/
inductive Slot where
  | deleted
  | idle
  | inFlight
  | called
  deriving DecidableEq

/-- Where the USB thread is in the callback of a transfer. -/
inductive UsbPc where
  | idle
  | called (i : Nat) (resubmit : Bool)
  | submitting (i : Nat)
  | deleting (i : Nat)
  deriving DecidableEq

/-- Where the closing thread is: before `uvc_stream_close`, in `uvc_stream_stop` before its
check, before the transfers are cancelled, waiting for them, or past `free(strmh)`. -/
inductive CloserPc where
  | outside
  | stopping
  | cancelling
  | waiting
  | freed
  deriving DecidableEq

structure TransferSystem where
  running : Bool
  slots : List Slot
  /-- `uvc_stream_start_bandwidth` is submitting, `submitted` is its `transfer_id`. -/
  starting : Bool
  submitted : Nat
  usb : UsbPc
  closer : CloserPc
  usedAfterFree : Bool
  deriving DecidableEq

inductive TransferEvent where
  /-- The start submits the next transfer. -/
  | submit (ok : Bool)
  /-- A transfer completes, and its callback is entered. -/
  | complete (i : Nat) (status : TransferStatus)
  /-- The callback looks whether the stream runs. -/
  | check
  /-- The callback submits or deletes the transfer. -/
  | act (ok : Bool)
  | close
  | stop
  | cancel
  | wake

/-- The steps of the USB thread. -/
def TransferEvent.Usb : TransferEvent → Prop
  | complete .. | check | act _ => True
  | _ => False

namespace TransferSystem

/-- The transfers are allocated, and the stream runs. -/
def start : TransferSystem :=
  ⟨true, List.replicate numTransferBufs .idle, true, 0, .idle, .outside, false⟩

/-- A step that reads or writes the handle. -/
def touch (s : TransferSystem) : Bool := s.usedAfterFree || s.closer == .freed

/-- One round of the loop of `uvc_stream_start_bandwidth`; at a failure it gives up. -/
def submit (s : TransferSystem) (ok : Bool) : Option TransferSystem :=
  if s.starting then
    if ok then
      some { s with
        slots := s.slots.set s.submitted .inFlight, submitted := s.submitted + 1
        starting := s.submitted + 1 != numTransferBufs }
    else some { s with starting := false, running := false }
  else none

/-- `_uvc_stream_callback`, its `switch`. -/
def complete (s : TransferSystem) (i : Nat) (status : TransferStatus) : Option TransferSystem :=
  if s.usb = .idle ∧ s.slots[i]? = some .inFlight then
    some { s with
      slots := s.slots.set i .called, running := s.running && status != .noDevice
      usb := .called i status.resubmit, usedAfterFree := s.touch }
  else none

/-- `if (strmh->running && resubmit)`. -/
def check (s : TransferSystem) : Option TransferSystem :=
  match s.usb with
  | .called i resubmit => some { s with
      usb := if s.running && resubmit then .submitting i else .deleting i
      usedAfterFree := s.touch }
  | _ => none

/-- `libusb_submit_transfer`, whose result is ignored, or `_uvc_delete_transfer`. -/
def act (s : TransferSystem) (ok : Bool) : Option TransferSystem :=
  match s.usb with
  | .submitting i => some { s with
      slots := s.slots.set i (if ok then .inFlight else .idle), usb := .idle }
  | .deleting i => some { s with
      slots := s.slots.set i .deleted, usb := .idle, usedAfterFree := s.touch }
  | _ => none

/-- `uvc_stream_close`, after the start has returned. -/
def close (s : TransferSystem) : Option TransferSystem :=
  if s.closer = .outside ∧ s.starting = false then
    some { s with closer := if s.running then .stopping else .freed }
  else none

/-- `uvc_stream_stop`, which looks at the stream again. -/
def stop (s : TransferSystem) : Option TransferSystem :=
  if s.closer = .stopping then
    some (if s.running then { s with running := false, closer := .cancelling }
      else { s with closer := .freed })
  else none

/-- All transfers are asked to be cancelled; when they complete is up to the USB thread. -/
def cancel (s : TransferSystem) : Option TransferSystem :=
  if s.closer = .cancelling then some { s with closer := .waiting } else none

/-- The wait ends when all transfers are deleted; the handle is freed. -/
def wake (s : TransferSystem) : Option TransferSystem :=
  if s.closer = .waiting ∧ ∀ x ∈ s.slots, x = .deleted then some { s with closer := .freed }
  else none

def step (s : TransferSystem) : TransferEvent → Option TransferSystem
  | .submit ok => s.submit ok
  | .complete i status => s.complete i status
  | .check => s.check
  | .act ok => s.act ok
  | .close => s.close
  | .stop => s.stop
  | .cancel => s.cancel
  | .wake => s.wake

def machine : StepMachine TransferSystem TransferEvent := ⟨start, step⟩

/-! ## One step -/

variable {s t : TransferSystem}

theorem submit_eq_some {ok : Bool} (h : s.submit ok = some t) :
    s.starting = true ∧
      (ok = true ∧ t = { s with
        slots := s.slots.set s.submitted .inFlight, submitted := s.submitted + 1
        starting := s.submitted + 1 != numTransferBufs } ∨
      ok = false ∧ t = { s with starting := false, running := false }) := by
  unfold submit at h
  by_cases hs : s.starting = true
  · rw [if_pos hs] at h
    cases ok with
    | true => exact ⟨hs, Or.inl ⟨rfl, (Option.some.inj h).symm⟩⟩
    | false => exact ⟨hs, Or.inr ⟨rfl, (Option.some.inj h).symm⟩⟩
  · rw [if_neg hs] at h
    exact absurd h (by simp)

theorem complete_eq_some {i : Nat} {status : TransferStatus} (h : s.complete i status = some t) :
    s.usb = .idle ∧ s.slots[i]? = some .inFlight ∧
      t = { s with
        slots := s.slots.set i .called, running := s.running && status != .noDevice
        usb := .called i status.resubmit, usedAfterFree := s.touch } := by
  unfold complete at h
  by_cases hs : s.usb = .idle ∧ s.slots[i]? = some .inFlight
  · rw [if_pos hs] at h
    exact ⟨hs.1, hs.2, (Option.some.inj h).symm⟩
  · rw [if_neg hs] at h
    exact absurd h (by simp)

theorem check_eq_some (h : s.check = some t) :
    ∃ i r, s.usb = .called i r ∧ t = { s with
      usb := if s.running && r then .submitting i else .deleting i
      usedAfterFree := s.touch } := by
  unfold check at h
  cases husb : s.usb with
  | called i r =>
    rw [husb] at h
    exact ⟨i, r, rfl, (Option.some.inj h).symm⟩
  | idle => rw [husb] at h; exact absurd h (by simp)
  | submitting i => rw [husb] at h; exact absurd h (by simp)
  | deleting i => rw [husb] at h; exact absurd h (by simp)

theorem act_eq_some {ok : Bool} (h : s.act ok = some t) :
    (∃ i, s.usb = .submitting i ∧
      t = { s with slots := s.slots.set i (if ok then .inFlight else .idle), usb := .idle }) ∨
    (∃ i, s.usb = .deleting i ∧
      t = { s with slots := s.slots.set i .deleted, usb := .idle, usedAfterFree := s.touch }) := by
  unfold act at h
  cases husb : s.usb with
  | submitting i =>
    rw [husb] at h
    exact Or.inl ⟨i, rfl, (Option.some.inj h).symm⟩
  | deleting i =>
    rw [husb] at h
    exact Or.inr ⟨i, rfl, (Option.some.inj h).symm⟩
  | idle => rw [husb] at h; exact absurd h (by simp)
  | called i r => rw [husb] at h; exact absurd h (by simp)

theorem step_check {i : Nat} {r : Bool} (h : s.usb = .called i r) :
    step s .check = some { s with
      usb := if s.running && r then .submitting i else .deleting i
      usedAfterFree := s.touch } := by
  show s.check = _
  rw [check, h]

theorem step_act_submitting {i : Nat} (h : s.usb = .submitting i) (ok : Bool) :
    step s (.act ok) = some { s with
      slots := s.slots.set i (if ok then .inFlight else .idle), usb := .idle } := by
  show s.act ok = _
  rw [act, h]

theorem step_act_deleting {i : Nat} (h : s.usb = .deleting i) (ok : Bool) :
    step s (.act ok) = some { s with
      slots := s.slots.set i .deleted, usb := .idle, usedAfterFree := s.touch } := by
  show s.act ok = _
  rw [act, h]

theorem close_eq_some (h : s.close = some t) :
    s.closer = .outside ∧ s.starting = false ∧
      t = { s with closer := if s.running then .stopping else .freed } := by
  unfold close at h
  by_cases hc : s.closer = .outside ∧ s.starting = false
  · rw [if_pos hc] at h
    exact ⟨hc.1, hc.2, (Option.some.inj h).symm⟩
  · rw [if_neg hc] at h
    exact absurd h (by simp)

theorem stop_eq_some (h : s.stop = some t) :
    s.closer = .stopping ∧
      (s.running = true ∧ t = { s with running := false, closer := .cancelling } ∨
        s.running = false ∧ t = { s with closer := .freed }) := by
  unfold stop at h
  by_cases hc : s.closer = .stopping
  · rw [if_pos hc] at h
    refine ⟨hc, ?_⟩
    cases hrun : s.running with
    | true =>
      rw [hrun, if_pos rfl] at h
      exact Or.inl ⟨rfl, (Option.some.inj h).symm⟩
    | false =>
      rw [hrun, if_neg (by decide)] at h
      exact Or.inr ⟨rfl, (Option.some.inj h).symm⟩
  · rw [if_neg hc] at h
    exact absurd h (by simp)

theorem cancel_eq_some (h : s.cancel = some t) :
    s.closer = .cancelling ∧ t = { s with closer := .waiting } := by
  unfold cancel at h
  by_cases hc : s.closer = .cancelling
  · rw [if_pos hc] at h
    exact ⟨hc, (Option.some.inj h).symm⟩
  · rw [if_neg hc] at h
    exact absurd h (by simp)

theorem wake_eq_some (h : s.wake = some t) :
    s.closer = .waiting ∧ (∀ x ∈ s.slots, x = .deleted) ∧ t = { s with closer := .freed } := by
  unfold wake at h
  by_cases hc : s.closer = .waiting ∧ ∀ x ∈ s.slots, x = .deleted
  · rw [if_pos hc] at h
    exact ⟨hc.1, hc.2, (Option.some.inj h).symm⟩
  · rw [if_neg hc] at h
    exact absurd h (by simp)

/-- What the steps of the closing thread change. -/
theorem closer_cases {e : TransferEvent} (h : step s e = some t)
    (he : e = .close ∨ e = .stop ∨ e = .cancel ∨ e = .wake) :
    ∃ running closer, t = { s with running := running, closer := closer } ∧
      (s.closer = .outside → s.starting = false) ∧
      (closer = .freed → (e = .close ∨ e = .stop) ∧ s.running = false ∨
        e = .wake ∧ ∀ x ∈ s.slots, x = .deleted) := by
  rcases he with rfl | rfl | rfl | rfl
  · obtain ⟨-, hs, rfl⟩ := close_eq_some h
    refine ⟨s.running, _, rfl, fun _ => hs, fun hfreed => Or.inl ⟨Or.inl rfl, ?_⟩⟩
    cases hrun : s.running with
    | false => rfl
    | true => rw [hrun, if_pos rfl] at hfreed; exact absurd hfreed (by decide)
  · obtain ⟨hc, ⟨-, rfl⟩ | ⟨hrun, rfl⟩⟩ := stop_eq_some h
    · exact ⟨false, .cancelling, rfl, by simp [hc], nofun⟩
    · exact ⟨s.running, .freed, rfl, by simp [hc], fun _ => Or.inl ⟨Or.inr rfl, hrun⟩⟩
  · obtain ⟨hc, rfl⟩ := cancel_eq_some h
    exact ⟨s.running, .waiting, rfl, by simp [hc], nofun⟩
  · obtain ⟨hc, hdeleted, rfl⟩ := wake_eq_some h
    exact ⟨s.running, .freed, rfl, by simp [hc], fun _ => Or.inr ⟨rfl, hdeleted⟩⟩

/-! ## What holds in every run -/

/-- The transfer whose callback is under way. -/
def busy (s : TransferSystem) : Option Nat :=
  match s.usb with
  | .idle => none
  | .called i _ | .submitting i | .deleting i => some i

structure Inv (s : TransferSystem) : Prop where
  length : s.slots.length = numTransferBufs
  /-- The start has still to submit the transfers from `submitted` on. -/
  starting : s.starting = true → s.closer = .outside ∧ s.submitted < numTransferBufs ∧
    ∀ j, s.submitted ≤ j → ∀ x ∈ s.slots[j]?, x = .idle
  called_iff : ∀ i, s.slots[i]? = some .called ↔ s.busy = some i

theorem start_inv : Inv start where
  length := rfl
  starting := by
    refine fun _ => ⟨rfl, by decide, fun j _ x hx => ?_⟩
    exact List.eq_of_mem_replicate (List.mem_of_getElem? hx)
  called_iff := by
    intro i
    refine iff_of_false (fun h => ?_) (by simp [busy, start])
    have := List.eq_of_mem_replicate (List.mem_of_getElem? h)
    exact absurd this (by decide)

/-- Changing a slot the start is done with. -/
theorem Inv.set (h : Inv s) {i : Nat} {x : Slot} (hi : s.slots[i]? = some x) (hx : x ≠ .idle)
    (y : Slot) (j : Nat) (hj : s.submitted ≤ j) (hs : s.starting = true) :
    ∀ z ∈ (s.slots.set i y)[j]?, z = .idle := by
  intro z hz
  have hidle := (h.starting hs).2.2
  rw [List.getElem?_set] at hz
  split_ifs at hz with hij
  · exact absurd (hidle i (hij ▸ hj) x hi) hx
  · simp at hz
  · exact hidle j hj z hz

theorem getElem?_set_eq_some {l : List Slot} {i j : Nat} {x y : Slot} :
    (l.set i x)[j]? = some y ↔ (i = j ∧ j < l.length ∧ x = y) ∨ (i ≠ j ∧ l[j]? = some y) := by
  rw [List.getElem?_set]
  by_cases hij : i = j
  · by_cases hlt : i < l.length
    · rw [if_pos hij, if_pos hlt]
      simp [hij, hij ▸ hlt]
    · rw [if_pos hij, if_neg hlt]
      simp [hij, hij ▸ hlt]
  · rw [if_neg hij]
    simp [hij]

theorem step_inv {e : TransferEvent} (h : Inv s) (he : step s e = some t) : Inv t := by
  cases e with
  | submit ok =>
    obtain ⟨hs, ⟨-, rfl⟩ | ⟨-, rfl⟩⟩ := submit_eq_some he
    · obtain ⟨hclose, hlt, hidle⟩ := h.starting hs
      have hi : s.slots[s.submitted]? = some .idle := by
        have hget := List.getElem?_eq_getElem (h.length ▸ hlt)
        rw [hget, hidle s.submitted (Nat.le_refl _) _ hget]
      refine ⟨by simpa using h.length, fun hs' => ⟨hclose, ?_, fun j hj x hx => ?_⟩, fun i => ?_⟩
      · have : s.submitted + 1 ≠ numTransferBufs := by simpa using hs'
        show s.submitted + 1 < numTransferBufs
        omega
      · have hj : s.submitted + 1 ≤ j := hj
        rw [List.getElem?_set_ne (by omega)] at hx
        exact hidle j (by omega) x hx
      · show (s.slots.set s.submitted .inFlight)[i]? = some .called ↔ s.busy = some i
        rw [getElem?_set_eq_some, ← h.called_iff i]
        constructor
        · rintro (⟨-, -, hx⟩ | ⟨-, hx⟩)
          · exact absurd hx (by decide)
          · exact hx
        · intro hx
          refine Or.inr ⟨?_, hx⟩
          rintro rfl
          rw [hi] at hx
          exact absurd hx (by decide)
    · exact ⟨h.length, nofun, h.called_iff⟩
  | complete i status =>
    obtain ⟨husb, hi, rfl⟩ := complete_eq_some he
    have hidle : s.busy = none := by simp [busy, husb]
    refine ⟨by simpa using h.length, fun hs => ?_, fun j => ?_⟩
    · obtain ⟨hclose, hlt, -⟩ := h.starting hs
      exact ⟨hclose, hlt, fun j hj => h.set hi (by decide) .called j hj hs⟩
    · show (s.slots.set i .called)[j]? = some .called ↔ some i = some j
      rw [getElem?_set_eq_some, h.called_iff, hidle]
      have hlt := (List.getElem?_eq_some_iff.mp hi).1
      simp only [reduceCtorEq, and_false, or_false, and_true, Option.some.injEq]
      exact ⟨fun hij => hij.1, fun hij => ⟨hij, hij ▸ hlt⟩⟩
  | check =>
    obtain ⟨i, r, husb, rfl⟩ := check_eq_some he
    refine ⟨h.length, h.starting, fun j => (h.called_iff j).trans ?_⟩
    have hbusy : s.busy = some i := by simp [busy, husb]
    rw [hbusy]
    show _ ↔ busy _ = some j
    unfold busy
    cases s.running && r <;> rfl
  | act ok =>
    have hact : ∃ i y uaf, s.busy = some i ∧ y ≠ .called ∧
        t = { s with slots := s.slots.set i y, usb := .idle, usedAfterFree := uaf } := by
      rcases act_eq_some he with ⟨i, husb, rfl⟩ | ⟨i, husb, rfl⟩
      · exact ⟨i, _, s.usedAfterFree, by simp [busy, husb], by cases ok <;> decide, rfl⟩
      · exact ⟨i, .deleted, s.touch, by simp [busy, husb], by decide, rfl⟩
    obtain ⟨i, y, uaf, hbusy, hy, rfl⟩ := hact
    have hi := (h.called_iff i).mpr hbusy
    refine ⟨by simpa using h.length, fun hs => ?_, fun j => ?_⟩
    · obtain ⟨hclose, hlt, -⟩ := h.starting hs
      exact ⟨hclose, hlt, fun j hj => h.set hi (by decide) y j hj hs⟩
    · show (s.slots.set i y)[j]? = some .called ↔ (none : Option Nat) = some j
      rw [getElem?_set_eq_some, h.called_iff, hbusy]
      refine iff_of_false ?_ (by simp)
      rintro (⟨-, -, hx⟩ | ⟨hij, hx⟩)
      · exact hy hx
      · exact hij (Option.some.inj hx)
  | close | stop | cancel | wake =>
    obtain ⟨running, closer, rfl, hstart, -⟩ := closer_cases he (by simp)
    refine ⟨h.length, fun hs => ?_, h.called_iff⟩
    have hs : s.starting = true := hs
    have hclose := (h.starting hs).1
    rw [hstart hclose] at hs
    exact absurd hs (by simp)

theorem run_inv {es : List TransferEvent} (h : machine.run es = some t) : Inv t :=
  machine.invariant start_inv (fun _ _ _ hs he => step_inv hs he) h

/-! ## Use after free -/

/-- No transfer is submitted, and no callback is under way. -/
def Quiet (s : TransferSystem) : Prop := ∀ x ∈ s.slots, x ≠ .inFlight ∧ x ≠ .called

/-- A stream that has ended is closed only when it is quiet. -/
def ClosedQuiet (s : TransferSystem) (e : TransferEvent) : Prop :=
  e = .close ∨ e = .stop → s.running = true ∨ s.Quiet

/-- The freed handle is out of use. -/
structure Unused (s : TransferSystem) : Prop where
  inv : Inv s
  quiet : s.closer = .freed → s.Quiet ∧ s.starting = false
  not_used : s.usedAfterFree = false

theorem start_unused : Unused start := ⟨start_inv, nofun, rfl⟩

theorem not_quiet_of_getElem? {i : Nat} {x : Slot} (hi : s.slots[i]? = some x)
    (hx : x = .inFlight ∨ x = .called) : ¬ s.Quiet := by
  intro h
  obtain ⟨hflight, hcalled⟩ := h x (List.mem_of_getElem? hi)
  exact hx.elim hflight hcalled

theorem not_quiet_of_busy (h : Inv s) {i : Nat} (hb : s.busy = some i) : ¬ s.Quiet :=
  not_quiet_of_getElem? ((h.called_iff i).mpr hb) (Or.inr rfl)

/-- While a transfer is not quiet the handle is there. -/
theorem Unused.touch (h : Unused s) (hq : ¬ s.Quiet) : s.closer ≠ .freed ∧ s.touch = false := by
  have hc : s.closer ≠ .freed := fun hc => hq (h.quiet hc).1
  exact ⟨hc, by simp [TransferSystem.touch, h.not_used, hc]⟩

theorem step_unused {e : TransferEvent} (h : Unused s) (hC : s.ClosedQuiet e)
    (he : step s e = some t) : Unused t := by
  have hinv := step_inv h.inv he
  cases e with
  | submit ok =>
    obtain ⟨hs, ht⟩ := submit_eq_some he
    have hclose := (h.inv.starting hs).1
    rcases ht with ⟨-, rfl⟩ | ⟨-, rfl⟩
    · exact ⟨hinv, fun hc => absurd (hclose.symm.trans hc) (by decide), h.not_used⟩
    · exact ⟨hinv, fun hc => absurd (hclose.symm.trans hc) (by decide), h.not_used⟩
  | complete i status =>
    obtain ⟨-, hi, rfl⟩ := complete_eq_some he
    obtain ⟨hc, htouch⟩ := h.touch (not_quiet_of_getElem? hi (Or.inl rfl))
    exact ⟨hinv, fun hc' => absurd hc' hc, htouch⟩
  | check =>
    obtain ⟨i, r, husb, rfl⟩ := check_eq_some he
    have hbusy : s.busy = some i := by simp [busy, husb]
    obtain ⟨hc, htouch⟩ := h.touch (not_quiet_of_busy h.inv hbusy)
    exact ⟨hinv, fun hc' => absurd hc' hc, htouch⟩
  | act ok =>
    rcases act_eq_some he with ⟨i, husb, rfl⟩ | ⟨i, husb, rfl⟩
    · have hbusy : s.busy = some i := by simp [busy, husb]
      obtain ⟨hc, -⟩ := h.touch (not_quiet_of_busy h.inv hbusy)
      exact ⟨hinv, fun hc' => absurd hc' hc, h.not_used⟩
    · have hbusy : s.busy = some i := by simp [busy, husb]
      obtain ⟨hc, htouch⟩ := h.touch (not_quiet_of_busy h.inv hbusy)
      exact ⟨hinv, fun hc' => absurd hc' hc, htouch⟩
  | close | stop | cancel | wake =>
    obtain ⟨running, closer, rfl, hstart, hfreed⟩ := closer_cases he (by simp)
    refine ⟨hinv, fun hc => ⟨?_, ?_⟩, h.not_used⟩
    · rcases hfreed hc with ⟨hev, hrun⟩ | ⟨-, hdeleted⟩
      · refine (hC hev).resolve_left ?_
        rw [hrun]
        decide
      · intro x hx
        rw [hdeleted x hx]
        decide
    · cases hs : s.starting with
      | false => rfl
      | true => rw [hstart (h.inv.starting hs).1] at hs; exact absurd hs (by simp)

/-! ### The failure that shows later -/

/-- The handle was not used after it was freed. -/
def NotUsed (s : TransferSystem) : Prop := s.usedAfterFree = false

theorem doomed_of_used {es : List TransferEvent} (hs : machine.run es = some s)
    (e : TransferEvent) (hQ : e.Usb) (he : step s e = some t) (ht : t.usedAfterFree = true) :
    machine.Doomed TransferEvent.Usb NotUsed es := by
  have hrun : machine.run (es ++ [e]) = some t := machine.run_concat_eq_some.mpr ⟨s, hs, he⟩
  refine StepMachine.doomed_of_concat hQ (StepMachine.doomed_of_not hrun ?_)
  simp [NotUsed, ht]

/-- A transfer that is submitted completes. -/
theorem doomed_of_inFlight {es : List TransferEvent} (hs : machine.run es = some s) {i : Nat}
    (hc : s.closer = .freed) (husb : s.usb = .idle) (hi : s.slots[i]? = some .inFlight) :
    machine.Doomed TransferEvent.Usb NotUsed es := by
  have he : step s (.complete i .error) = some _ := if_pos ⟨husb, hi⟩
  exact doomed_of_used hs (.complete i .error) trivial he (by simp [TransferSystem.touch, hc])

theorem doomed_of_not_quiet {es : List TransferEvent} (hs : machine.run es = some s)
    (hc : s.closer = .freed) (hq : ¬ s.Quiet) : machine.Doomed TransferEvent.Usb NotUsed es := by
  have hinv := run_inv hs
  cases husb : s.usb with
  | idle =>
    have hno : ∀ i : Nat, s.slots[i]? ≠ some .called := by
      intro i hi
      have := (hinv.called_iff i).mp hi
      simp [busy, husb] at this
    have hflight : ∃ i : Nat, s.slots[i]? = some .inFlight := by
      by_contra hnone
      refine hq fun x hx => ?_
      obtain ⟨i, hi⟩ := List.mem_iff_getElem?.mp hx
      constructor
      · rintro rfl
        exact hnone ⟨i, hi⟩
      · rintro rfl
        exact hno i hi
    obtain ⟨i, hi⟩ := hflight
    exact doomed_of_inFlight hs hc husb hi
  | called i r =>
    exact doomed_of_used hs .check trivial (step_check husb) (by simp [TransferSystem.touch, hc])
  | deleting i =>
    exact doomed_of_used hs (.act true) trivial (step_act_deleting husb true)
      (by simp [TransferSystem.touch, hc])
  | submitting i =>
    -- this step does not touch the handle: the transfer is submitted, and completes
    have hlt : i < s.slots.length := by
      have hi := (hinv.called_iff i).mpr (by simp [busy, husb])
      exact (List.getElem?_eq_some_iff.mp hi).1
    have hrun : machine.run (es ++ [.act true]) = some _ :=
      machine.run_concat_eq_some.mpr ⟨s, hs, step_act_submitting husb true⟩
    have hi : (s.slots.set i .inFlight)[i]? = some .inFlight := List.getElem?_set_self hlt
    have hQ : (TransferEvent.act true).Usb := trivial
    exact StepMachine.doomed_of_concat hQ (doomed_of_inFlight hrun hc rfl hi)

/-- **Use after free, exactly.**  The freed handle is never used, however the USB thread goes on,
exactly when whoever closes a stream that has ended finds its transfers quiet. -/
theorem safe_iff {es : List TransferEvent} (h : machine.run es = some t) :
    machine.Safe TransferEvent.Usb NotUsed es ↔ machine.Each ClosedQuiet es := by
  refine machine.safe_iff_each start_unused (fun s e u hs hC he => step_unused hs hC he)
    (fun s hs => hs.not_used) (fun s e hQ => ?_) (fun es e s u hs hI he hC => ?_) h
  · rintro (rfl | rfl)
    · exact hQ.elim
    · exact hQ.elim
  · have hC : (e = .close ∨ e = .stop) ∧ ¬ (s.running = true ∨ s.Quiet) :=
      Classical.not_imp.mp hC
    obtain ⟨hev, hnot⟩ := hC
    obtain ⟨hrun, hq⟩ := not_or.mp hnot
    have hu : u = { s with closer := .freed } := by
      rcases hev with rfl | rfl
      · rw [(close_eq_some he).2.2, if_neg hrun]
      · obtain ⟨-, ⟨hrun', -⟩ | ⟨-, rfl⟩⟩ := stop_eq_some he
        · exact absurd hrun' hrun
        · rfl
    subst hu
    exact doomed_of_not_quiet (machine.run_concat_eq_some.mpr ⟨s, hs, he⟩) rfl hq

/-- All transfers submitted. -/
def allSubmitted : List TransferEvent := List.replicate numTransferBufs (.submit true)

/-- The device is lost, and the stream closed while nine transfers are submitted. -/
theorem safe_iff_lost :
    ¬ machine.Safe TransferEvent.Usb NotUsed
      (allSubmitted ++ [.complete 0 .noDevice, .close]) := by
  intro h
  have hrun : machine.run (allSubmitted ++ [.complete 0 .noDevice, .close]) = some _ := rfl
  have hC := (safe_iff hrun).mp h (allSubmitted ++ [.complete 0 .noDevice]) .close _
    ⟨[], rfl⟩ rfl (Or.inl rfl)
  rcases hC with hC | hC
  · exact absurd hC (by decide)
  · exact (hC .inFlight (by decide)).1 rfl

/-! ## The wait of `uvc_stream_stop` -/

/-- The callback does not fail to submit its transfer again. -/
def Resubmitted (s : TransferSystem) (e : TransferEvent) : Prop :=
  e = .act false → ∀ i, s.usb ≠ .submitting i

/-- The steps left to the USB thread until all transfers are deleted: a submitted transfer takes
three. -/
def left (s : TransferSystem) : Nat :=
  3 * s.slots.count .inFlight + match s.usb with
    | .idle => 0
    | .called .. => 2
    | .submitting _ => 4
    | .deleting _ => 1

/-- `uvc_stream_stop` waits, and every transfer can still come to its end. -/
structure Waiting (s : TransferSystem) : Prop where
  inv : Inv s
  closer : s.closer = .waiting
  running : s.running = false
  starting : s.starting = false
  not_idle : .idle ∉ s.slots

theorem count_set_inFlight {l : List Slot} {i : Nat} {x y : Slot} (hi : l[i]? = some x) :
    (l.set i y).count .inFlight + (if x = .inFlight then 1 else 0) =
      l.count .inFlight + if y = .inFlight then 1 else 0 := by
  obtain ⟨hlt, rfl⟩ := List.getElem?_eq_some_iff.mp hi
  have hle : (if l[i] = .inFlight then 1 else 0) ≤ l.count .inFlight := by
    split_ifs with h
    · exact List.count_pos_iff.mpr (h ▸ List.getElem_mem hlt)
    · exact Nat.zero_le _
  rw [List.count_set hlt]
  simp only [beq_iff_eq]
  omega

theorem not_idle_set {l : List Slot} (h : .idle ∉ l) {i : Nat} {y : Slot} (hy : y ≠ .idle) :
    .idle ∉ l.set i y := by
  intro hmem
  rcases List.mem_or_eq_of_mem_set hmem with hmem | heq
  · exact h hmem
  · exact hy heq.symm

/-- Each step but the end of the wait is one of the USB thread, and there is one less left. -/
theorem step_waiting {e : TransferEvent} (h : Waiting s) (hC : s.Resubmitted e) (hwake : e ≠ .wake)
    (he : step s e = some t) : Waiting t ∧ t.left + 1 = s.left := by
  have hinv := step_inv h.inv he
  cases e with
  | submit ok =>
    have := (submit_eq_some he).1
    rw [h.starting] at this
    exact absurd this (by decide)
  | complete i status =>
    obtain ⟨husb, hi, rfl⟩ := complete_eq_some he
    have hcount := count_set_inFlight (y := .called) hi
    refine ⟨⟨hinv, h.closer, by simp [h.running], h.starting,
      not_idle_set h.not_idle (by decide)⟩, ?_⟩
    simp only [left, husb]
    simp only [if_true, reduceCtorEq, if_false] at hcount
    omega
  | check =>
    obtain ⟨i, r, husb, rfl⟩ := check_eq_some he
    refine ⟨⟨hinv, h.closer, h.running, h.starting, h.not_idle⟩, ?_⟩
    simp [left, husb, h.running]
  | act ok =>
    rcases act_eq_some he with ⟨i, husb, rfl⟩ | ⟨i, husb, rfl⟩
    · have hi := (h.inv.called_iff i).mpr (by simp [busy, husb])
      have hok : ok = true := by
        cases ok with
        | true => rfl
        | false => exact absurd husb (hC rfl i)
      subst hok
      have hcount := count_set_inFlight (y := .inFlight) hi
      refine ⟨⟨hinv, h.closer, h.running, h.starting, not_idle_set h.not_idle (by decide)⟩, ?_⟩
      simp only [left, husb, if_true]
      simp only [if_true, reduceCtorEq, if_false] at hcount
      omega
    · have hi := (h.inv.called_iff i).mpr (by simp [busy, husb])
      have hcount := count_set_inFlight (y := .deleted) hi
      refine ⟨⟨hinv, h.closer, h.running, h.starting, not_idle_set h.not_idle (by decide)⟩, ?_⟩
      simp only [left, husb]
      simp only [reduceCtorEq, if_false] at hcount
      omega
  | close => exact absurd (h.closer.symm.trans (close_eq_some he).1) (by decide)
  | stop => exact absurd (h.closer.symm.trans (stop_eq_some he).1) (by decide)
  | cancel => exact absurd (h.closer.symm.trans (cancel_eq_some he).1) (by decide)
  | wake => exact absurd rfl hwake

theorem wake_of_left (h : Waiting s) (hleft : s.left = 0) :
    step s .wake = some { s with closer := .freed } := by
  refine if_pos ⟨h.closer, fun x hx => ?_⟩
  have hcount : s.slots.count .inFlight = 0 := by
    unfold left at hleft
    omega
  have hbusy : s.busy = none := by
    cases husb : s.usb <;> simp [left, husb, busy] at hleft ⊢
  cases x with
  | deleted => rfl
  | idle => exact absurd hx h.not_idle
  | inFlight =>
    have := List.count_pos_iff.mpr hx
    omega
  | called =>
    obtain ⟨i, hi⟩ := List.mem_iff_getElem?.mp hx
    have := (h.inv.called_iff i).mp hi
    rw [hbusy] at this
    exact absurd this (by simp)

theorem usb_of_left (hleft : 0 < s.left) :
    ∃ e t, e.Usb ∧ s.Resubmitted e ∧ step s e = some t := by
  cases husb : s.usb with
  | idle =>
    have hmem : .inFlight ∈ s.slots := by
      refine List.count_pos_iff.mp ?_
      simp only [left, husb] at hleft
      omega
    obtain ⟨i, hi⟩ := List.mem_iff_getElem?.mp hmem
    exact ⟨.complete i .error, _, trivial, nofun, if_pos ⟨husb, hi⟩⟩
  | called i r =>
    exact ⟨.check, _, trivial, nofun, step_check husb⟩
  | submitting i => exact ⟨.act true, _, trivial, nofun, step_act_submitting husb true⟩
  | deleting i => exact ⟨.act true, _, trivial, nofun, step_act_deleting husb true⟩

/-- A transfer whose callback is under way is not submitted. -/
theorem count_lt_of_busy (h : Inv s) {i : Nat} (hb : s.busy = some i) :
    s.slots.count .inFlight < numTransferBufs := by
  rw [← h.length]
  refine Nat.lt_of_le_of_ne List.count_le_length fun hcount => ?_
  have hi := (h.called_iff i).mpr hb
  exact absurd (List.count_eq_length.mp hcount .called (List.mem_of_getElem? hi)) (by decide)

theorem left_le (h : Inv s) : s.left ≤ 31 := by
  cases husb : s.usb with
  | idle =>
    have hle : s.slots.count .inFlight ≤ s.slots.length := List.count_le_length
    have hlength : s.slots.length = 10 := h.length
    simp only [left, husb]
    omega
  | called i r | submitting i | deleting i =>
    have hlt : s.slots.count .inFlight < 10 := count_lt_of_busy h (i := i) (by simp [busy, husb])
    simp only [left, husb]
    omega

/-! ### Which waits end -/

/-- Some transfer was not submitted again, or never, and never will be. -/
def Stuck (s : TransferSystem) : Prop :=
  ∃ i, s.slots[i]? = some .idle ∧ (s.starting = true → i < s.submitted)

theorem getElem?_set_idle {l : List Slot} {i j : Nat} {x y : Slot} (hj : l[j]? = some .idle)
    (hi : l[i]? = some x) (hx : x ≠ .idle) : (l.set i y)[j]? = some .idle := by
  have hij : i ≠ j := by
    rintro rfl
    rw [hi] at hj
    exact hx (Option.some.inj hj)
  rw [List.getElem?_set_ne hij, hj]

theorem step_stuck {e : TransferEvent} (hinv : Inv s) (h : Stuck s) (he : step s e = some t) :
    Stuck t := by
  obtain ⟨j, hj, hlt⟩ := h
  cases e with
  | submit ok =>
    obtain ⟨hs, ⟨-, rfl⟩ | ⟨-, rfl⟩⟩ := submit_eq_some he
    · have hne : s.submitted ≠ j := (hlt hs).ne'
      refine ⟨j, ?_, fun _ => Nat.lt_succ_of_lt (hlt hs)⟩
      show (s.slots.set s.submitted .inFlight)[j]? = some .idle
      rw [List.getElem?_set_ne hne, hj]
    · exact ⟨j, hj, nofun⟩
  | complete i status =>
    obtain ⟨-, hi, rfl⟩ := complete_eq_some he
    exact ⟨j, getElem?_set_idle hj hi (by decide), hlt⟩
  | check =>
    obtain ⟨i, r, -, rfl⟩ := check_eq_some he
    exact ⟨j, hj, hlt⟩
  | act ok =>
    rcases act_eq_some he with ⟨i, husb, rfl⟩ | ⟨i, husb, rfl⟩
    · have hi := (hinv.called_iff i).mpr (by simp [busy, husb])
      exact ⟨j, getElem?_set_idle hj hi (by decide), hlt⟩
    · have hi := (hinv.called_iff i).mpr (by simp [busy, husb])
      exact ⟨j, getElem?_set_idle hj hi (by decide), hlt⟩
  | close | stop | cancel | wake =>
    obtain ⟨running, closer, rfl, -⟩ := closer_cases he (by simp)
    exact ⟨j, hj, hlt⟩

/-- A wait with a transfer stuck goes on. -/
theorem step_waits {e : TransferEvent} (hw : s.closer = .waiting) (h : Stuck s)
    (he : step s e = some t) : t.closer = .waiting := by
  cases e with
  | submit ok =>
    obtain ⟨-, ⟨-, rfl⟩ | ⟨-, rfl⟩⟩ := submit_eq_some he
    · exact hw
    · exact hw
  | complete i status => obtain ⟨-, -, rfl⟩ := complete_eq_some he; exact hw
  | check => obtain ⟨i, r, -, rfl⟩ := check_eq_some he; exact hw
  | act ok =>
    rcases act_eq_some he with ⟨i, -, rfl⟩ | ⟨i, -, rfl⟩
    · exact hw
    · exact hw
  | close => exact absurd (hw.symm.trans (close_eq_some he).1) (by decide)
  | stop => exact absurd (hw.symm.trans (stop_eq_some he).1) (by decide)
  | cancel => exact absurd (hw.symm.trans (cancel_eq_some he).1) (by decide)
  | wake =>
    obtain ⟨j, hj, -⟩ := h
    obtain ⟨-, hdeleted, -⟩ := wake_eq_some he
    exact absurd (hdeleted _ (List.mem_of_getElem? hj)) (by decide)

/-- A failure to submit again leaves the transfer stuck. -/
theorem stuck_of_not_resubmitted {e : TransferEvent} (hinv : Inv s) (hC : ¬ s.Resubmitted e)
    (he : step s e = some t) : Stuck t := by
  have hC : e = .act false ∧ ¬ ∀ i, s.usb ≠ .submitting i := Classical.not_imp.mp hC
  obtain ⟨rfl, hnot⟩ := hC
  obtain ⟨i, husb⟩ := not_forall_not.mp hnot
  rw [step_act_submitting husb] at he
  obtain rfl := Option.some.inj he
  have hi := (hinv.called_iff i).mpr (by simp [busy, husb])
  refine ⟨i, List.getElem?_set_self (List.getElem?_eq_some_iff.mp hi).1, fun hs => ?_⟩
  by_contra hlt
  have := (hinv.starting hs).2.2 i (Nat.le_of_not_lt hlt) _ hi
  exact absurd this (by decide)

theorem each_or_stuck {es : List TransferEvent} (h : machine.run es = some s) :
    machine.Each Resubmitted es ∨ Stuck s := by
  induction es using List.reverseRecOn generalizing s with
  | nil => exact Or.inl machine.each_nil
  | append_singleton es e ih =>
    obtain ⟨r, hr, he⟩ := machine.run_concat_eq_some.mp h
    rcases ih hr with heach | hstuck
    · by_cases hC : r.Resubmitted e
      · refine Or.inl (machine.each_concat.mpr ⟨heach, fun r' hr' => ?_⟩)
        obtain rfl : r = r' := Option.some.inj (hr.symm.trans hr')
        exact hC
      · exact Or.inr (stuck_of_not_resubmitted (run_inv hr) hC he)
    · exact Or.inr (step_stuck (run_inv hr) hstuck he)

/-- All transfers were submitted before a wait, and none of them is stuck. -/
structure Resubmits (s : TransferSystem) : Prop where
  inv : Inv s
  not_idle : ∀ j < s.submitted, s.slots[j]? ≠ some .idle
  submitted : s.starting = false → s.running = true → s.submitted = numTransferBufs
  stopped : s.closer = .cancelling ∨ s.closer = .waiting →
    s.running = false ∧ s.starting = false ∧ s.submitted = numTransferBufs

theorem start_resubmits : Resubmits start where
  inv := start_inv
  not_idle := nofun
  submitted := nofun
  stopped := by rintro (h | h) <;> exact absurd h (by decide)

theorem getElem?_set_ne_idle {l : List Slot} {i j : Nat} {y : Slot} (hj : l[j]? ≠ some .idle)
    (hy : y ≠ .idle) : (l.set i y)[j]? ≠ some .idle := by
  intro h
  rcases getElem?_set_eq_some.mp h with ⟨-, -, h⟩ | ⟨-, h⟩
  · exact hy h
  · exact hj h

theorem step_resubmits {e : TransferEvent} (h : Resubmits s) (hC : s.Resubmitted e)
    (he : step s e = some t) : Resubmits t := by
  have hinv := step_inv h.inv he
  cases e with
  | submit ok =>
    obtain ⟨hs, ht⟩ := submit_eq_some he
    have hclose := (h.inv.starting hs).1
    have hno : ¬ (s.closer = .cancelling ∨ s.closer = .waiting) := by rw [hclose]; decide
    rcases ht with ⟨-, rfl⟩ | ⟨-, rfl⟩
    · refine ⟨hinv, fun j hj => ?_, fun hs' _ => ?_, fun hc => absurd hc hno⟩
      · have hj : j < s.submitted + 1 := hj
        rcases Nat.lt_succ_iff_lt_or_eq.mp hj with hj | rfl
        · exact getElem?_set_ne_idle (h.not_idle j hj) (by decide)
        · intro hidle
          rcases getElem?_set_eq_some.mp hidle with ⟨-, -, hx⟩ | ⟨hne, -⟩
          · exact absurd hx (by decide)
          · exact hne rfl
      · simpa using hs'
    · exact ⟨hinv, h.not_idle, nofun, fun hc => absurd hc hno⟩
  | complete i status =>
    obtain ⟨-, -, rfl⟩ := complete_eq_some he
    refine ⟨hinv, fun j hj => getElem?_set_ne_idle (h.not_idle j hj) (by decide),
      fun hs hrun => h.submitted hs (Bool.and_eq_true_iff.mp hrun).1, fun hc => ?_⟩
    obtain ⟨hrun, hrest⟩ := h.stopped hc
    exact ⟨by simp [hrun], hrest⟩
  | check =>
    obtain ⟨i, r, -, rfl⟩ := check_eq_some he
    exact ⟨hinv, h.not_idle, h.submitted, h.stopped⟩
  | act ok =>
    rcases act_eq_some he with ⟨i, husb, rfl⟩ | ⟨i, husb, rfl⟩
    · have hok : ok = true := by
        cases ok with
        | true => rfl
        | false => exact absurd husb (hC rfl i)
      subst hok
      exact ⟨hinv, fun j hj => getElem?_set_ne_idle (h.not_idle j hj) (by decide), h.submitted,
        h.stopped⟩
    · exact ⟨hinv, fun j hj => getElem?_set_ne_idle (h.not_idle j hj) (by decide), h.submitted,
        h.stopped⟩
  | close =>
    obtain ⟨-, -, rfl⟩ := close_eq_some he
    refine ⟨hinv, h.not_idle, h.submitted, fun hc => ?_⟩
    have hc : (if s.running then CloserPc.stopping else .freed) = .cancelling ∨
      (if s.running then CloserPc.stopping else .freed) = .waiting := hc
    cases hrun : s.running <;> simp [hrun] at hc
  | stop =>
    obtain ⟨hc, ⟨hrun, rfl⟩ | ⟨-, rfl⟩⟩ := stop_eq_some he
    · have hs : s.starting = false := by
        by_contra hs
        have := (h.inv.starting (by simpa using hs)).1
        exact absurd (hc.symm.trans this) (by decide)
      exact ⟨hinv, h.not_idle, fun _ => nofun, fun _ => ⟨rfl, hs, h.submitted hs hrun⟩⟩
    · exact ⟨hinv, h.not_idle, h.submitted, by rintro (h | h) <;> exact absurd h (by simp)⟩
  | cancel =>
    obtain ⟨hc, rfl⟩ := cancel_eq_some he
    exact ⟨hinv, h.not_idle, h.submitted, fun _ => h.stopped (Or.inl hc)⟩
  | wake =>
    obtain ⟨hc, -, rfl⟩ := wake_eq_some he
    exact ⟨hinv, h.not_idle, h.submitted, by rintro (h | h) <;> exact absurd h (by simp)⟩

theorem waiting_of_each {es : List TransferEvent} (h : machine.run es = some s)
    (hC : machine.Each Resubmitted es) (hw : s.closer = .waiting) : Waiting s := by
  have hre : Resubmits s := machine.invariant_of_each start_resubmits
    (fun _ _ _ hs hC he => step_resubmits hs hC he) hC h
  obtain ⟨hrun, hs, hsub⟩ := hre.stopped (Or.inr hw)
  refine ⟨hre.inv, hw, hrun, hs, fun hmem => ?_⟩
  obtain ⟨j, hj⟩ := List.mem_iff_getElem?.mp hmem
  refine hre.not_idle j ?_ hj
  rw [hsub, ← hre.inv.length]
  exact (List.getElem?_eq_some_iff.mp hj).1

/-- A wait can come to its end. -/
theorem exists_freed (n : Nat) {es : List TransferEvent} (h : machine.run es = some s)
    (hw : Waiting s) (hn : s.left = n) :
    ∃ es' t, machine.run (es ++ es') = some t ∧ t.closer = .freed := by
  induction n generalizing es s with
  | zero =>
    have hwake : machine.run (es ++ [.wake]) = some _ :=
      machine.run_concat_eq_some.mpr ⟨s, h, wake_of_left hw hn⟩
    exact ⟨[.wake], _, hwake, rfl⟩
  | succ n ih =>
    obtain ⟨e, t, hQ, hC, he⟩ := usb_of_left (s := s) (by omega)
    have hne : e ≠ .wake := by
      rintro rfl
      exact hQ.elim
    obtain ⟨hwt, hleft⟩ := step_waiting hw hC hne he
    obtain ⟨es', u, hu, hfreed⟩ :=
      ih (machine.run_concat_eq_some.mpr ⟨s, h, he⟩) hwt (by omega)
    rw [List.append_assoc] at hu
    exact ⟨[e] ++ es', u, hu, hfreed⟩

/-- **Which waits end.**  The wait of `uvc_stream_stop` can come to its end exactly when, so far,
no callback failed to submit its transfer again. -/
theorem stop_ends_iff {es : List TransferEvent} (h : machine.run es = some s)
    (hw : s.closer = .waiting) :
    (∃ es' t, machine.run (es ++ es') = some t ∧ t.closer = .freed) ↔
      machine.Each Resubmitted es := by
  constructor
  · rintro ⟨es', t, ht, hfreed⟩
    refine (each_or_stuck h).resolve_right fun hstuck => ?_
    have hwait : Inv t ∧ t.closer = .waiting ∧ Stuck t :=
      machine.invariant_append (I := fun s => Inv s ∧ s.closer = .waiting ∧ Stuck s)
        (fun s e t hs he => ⟨step_inv hs.1 he, step_waits hs.2.1 hs.2.2 he,
          step_stuck hs.1 hs.2.2 he⟩) h ⟨run_inv h, hw, hstuck⟩ ht
    exact absurd (hwait.2.1.symm.trans hfreed) (by decide)
  · intro hC
    exact exists_freed s.left h (waiting_of_each h hC hw) rfl

/-- One callback fails to submit its transfer again. -/
theorem stop_ends_iff_failed :
    ¬ ∃ es' t, machine.run (allSubmitted ++ [.complete 0 .completed, .check, .act false, .close,
      .stop, .cancel] ++ es') = some t ∧ t.closer = .freed := by
  intro h
  have hrun : machine.run (allSubmitted ++ [.complete 0 .completed, .check, .act false, .close,
    .stop, .cancel]) = some _ := rfl
  have hC := (stop_ends_iff hrun rfl).mp h (allSubmitted ++ [.complete 0 .completed, .check])
    (.act false) _ ⟨[TransferEvent.close, .stop, .cancel], rfl⟩ rfl
  exact hC rfl 0 rfl

theorem left_of_run {es es' : List TransferEvent} (h : machine.run es = some s) (hw : Waiting s)
    (hC : machine.Each Resubmitted (es ++ es')) (hwake : .wake ∉ es')
    (ht : machine.run (es ++ es') = some t) : Waiting t ∧ t.left + es'.length = s.left := by
  induction es' using List.reverseRecOn generalizing t with
  | nil =>
    rw [List.append_nil, h] at ht
    obtain rfl := Option.some.inj ht
    exact ⟨hw, rfl⟩
  | append_singleton es' e ih =>
    rw [← List.append_assoc] at ht hC
    obtain ⟨r, hr, he⟩ := machine.run_concat_eq_some.mp ht
    obtain ⟨hC, hlast⟩ := machine.each_concat.mp hC
    obtain ⟨hwr, hleft⟩ := ih hC (fun hmem => hwake (List.mem_append_left _ hmem)) hr
    have hne : e ≠ .wake := by
      rintro rfl
      exact hwake (List.mem_append_right _ List.mem_cons_self)
    obtain ⟨hwt, hstep⟩ := step_waiting hwr (hlast r hr) hne he
    refine ⟨hwt, ?_⟩
    rw [List.length_append, List.length_singleton]
    omega

/-- **How long a wait takes.**  While no callback fails to submit its transfer again, there is a
number of steps, at most 31, after which the wait ends, whatever the steps are; before that the
USB thread always has one to take. -/
theorem stop_ends_after {es : List TransferEvent} (h : machine.run es = some s)
    (hw : s.closer = .waiting) :
    ∃ n ≤ 31, ∀ es' t, machine.Each Resubmitted (es ++ es') → .wake ∉ es' →
      machine.run (es ++ es') = some t →
      es'.length ≤ n ∧ (es'.length = n → ∃ u, step t .wake = some u) ∧
        (es'.length < n → ∃ e u, e.Usb ∧ t.Resubmitted e ∧ step t e = some u) := by
  refine ⟨s.left, left_le (run_inv h), fun es' t hC hwake ht => ?_⟩
  have hws := waiting_of_each h (hC.of_prefix (List.prefix_append es es')) hw
  obtain ⟨hwt, hleft⟩ := left_of_run h hws hC hwake ht
  refine ⟨by omega, fun hn => ⟨_, wake_of_left hwt (by omega)⟩, fun hn => ?_⟩
  exact usb_of_left (by omega)

theorem stop_ends_after_allSubmitted :
    ∃ n ≤ 31, ∀ es' t, machine.Each Resubmitted (allSubmitted ++ [.close, .stop, .cancel] ++ es') →
      .wake ∉ es' → machine.run (allSubmitted ++ [.close, .stop, .cancel] ++ es') = some t →
      es'.length ≤ n ∧ (es'.length = n → ∃ u, step t .wake = some u) ∧
        (es'.length < n → ∃ e u, e.Usb ∧ t.Resubmitted e ∧ step t e = some u) :=
  have hrun : machine.run (allSubmitted ++ [.close, .stop, .cancel]) = some _ := rfl
  stop_ends_after hrun rfl

end TransferSystem

end PetDev.Uvc
