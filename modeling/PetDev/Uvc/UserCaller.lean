import PetDev.Lib.StepMachine
import PetDev.Uvc.CameraFrames

/-!
# What the callback is given

The USB thread puts frames up; the thread of `_uvc_user_caller` waits for one with another
number, copies it and calls the user's function.  The number and the error mark are read again
after the mutex is free, and the number it starts with is that of the first frame.

A run interleaves the swaps of the USB thread with the steps of the caller in any order.

* `called_in_order`: the callback is given whole frames without an error mark, in the order in
  which they were put up, and never the first one.  One frame may come twice, or an empty frame
  before all others, when a bad frame is replaced while the mutex is free.
* `camera_called_of_keepsUp`: when every frame is put up only after the caller has taken the one
  before, the callback is given all frames of a camera that are put up but the first.
-/

namespace PetDev.Uvc

/-! ## The source -/

/-- What `_uvc_populate_frame` writes of `uvc_frame`. -/
structure UvcFrame where
  data : List UInt8
  actualBytes : Nat

/-- The bytes the callback reads. -/
def UvcFrame.bytes (f : UvcFrame) : List UInt8 := f.data.take f.actualBytes

/-- `_uvc_populate_frame`.  `realloc` makes the block as large as the frame, which then fills
it; otherwise the rest of the block stays. -/
def populateFrame (f : UvcFrame) (h : Held) : UvcFrame where
  data := h.bytes ++ f.data.drop h.bytes.length
  actualBytes := if h.bfhErr = 0 then h.bytes.length else 0

/-- Where the caller is: before the mutex, between the mutex and the callback, or returned. -/
inductive CallerPc where
  | waiting
  | calling
  | returned
  deriving DecidableEq

/-- The stream as the caller sees it, and what the callback was given. -/
structure UserCaller where
  up : Nat
  hold : Held
  running : Bool
  lastSeq : UInt32
  frame : UvcFrame
  pc : CallerPc
  called : List (List UInt8)

inductive CallerEvent where
  /-- The USB thread puts the next frame up. -/
  | swap
  /-- The caller has the mutex. -/
  | wake
  /-- The caller has left the mutex. -/
  | call
  /-- `uvc_stream_stop`. -/
  | stop

namespace UserCaller

/-- The handle is cleared when it is allocated. -/
def start : UserCaller := ⟨0, ⟨0, [], 0, 0, 0⟩, true, 0, ⟨[], 0⟩, .waiting, []⟩

/-- The part of the loop under the mutex; it waits while the number is the last one. -/
def wake (s : UserCaller) : Option UserCaller :=
  if s.pc = .waiting then
    if s.running = false then some { s with pc := .returned }
    else if s.lastSeq = s.hold.seq then none
    else some { s with
      lastSeq := s.hold.seq, pc := .calling
      frame := if s.hold.bfhErr = 0 then populateFrame s.frame s.hold else s.frame }
  else none

/-- The part behind it. -/
def call (s : UserCaller) : Option UserCaller :=
  if s.pc = .calling then
    some { s with
      pc := .waiting
      called := if s.hold.bfhErr = 0 then s.called ++ [s.frame.bytes] else s.called }
  else none

/-- One step, when the stream puts the frames `hs` up. -/
def step (hs : List Held) (s : UserCaller) : CallerEvent → Option UserCaller
  | .swap => hs[s.up]?.map fun h => { s with up := s.up + 1, hold := h }
  | .wake => s.wake
  | .call => s.call
  | .stop => some { s with running := false }

def machine (hs : List Held) : StepMachine UserCaller CallerEvent := ⟨start, step hs⟩

/-! ## One step -/

theorem wake_eq_some {s t : UserCaller} (h : s.wake = some t) :
    (s.running = false ∧ t = { s with pc := .returned }) ∨
      (s.lastSeq ≠ s.hold.seq ∧ s.pc = .waiting ∧
        t = { s with
          lastSeq := s.hold.seq, pc := .calling
          frame := if s.hold.bfhErr = 0 then populateFrame s.frame s.hold else s.frame }) := by
  unfold wake at h
  by_cases hpc : s.pc = .waiting
  · rw [if_pos hpc] at h
    by_cases hrun : s.running = false
    · rw [if_pos hrun] at h
      exact Or.inl ⟨hrun, (Option.some.inj h).symm⟩
    rw [if_neg hrun] at h
    by_cases hseq : s.lastSeq = s.hold.seq
    · rw [if_pos hseq] at h
      exact absurd h (by simp)
    · rw [if_neg hseq] at h
      exact Or.inr ⟨hseq, hpc, (Option.some.inj h).symm⟩
  · rw [if_neg hpc] at h
    exact absurd h (by simp)

theorem call_eq_some {s t : UserCaller} (h : s.call = some t) :
    s.pc = .calling ∧
      t = { s with
        pc := .waiting
        called := if s.hold.bfhErr = 0 then s.called ++ [s.frame.bytes] else s.called } := by
  unfold call at h
  by_cases hpc : s.pc = .calling
  · rw [if_pos hpc] at h
    exact ⟨hpc, (Option.some.inj h).symm⟩
  · rw [if_neg hpc] at h
    exact absurd h (by simp)

/-- The steps of the caller and of the USB thread, with all they change. -/
theorem step_cases {hs : List Held} {s t : UserCaller} {e : CallerEvent}
    (h : step hs s e = some t) :
    (∃ x, hs[s.up]? = some x ∧ t = { s with up := s.up + 1, hold := x }) ∨
    (s.lastSeq ≠ s.hold.seq ∧
      t = { s with
        lastSeq := s.hold.seq, pc := .calling
        frame := if s.hold.bfhErr = 0 then populateFrame s.frame s.hold else s.frame }) ∨
    (t = { s with
      pc := .waiting
      called := if s.hold.bfhErr = 0 then s.called ++ [s.frame.bytes] else s.called }) ∨
    (∃ running pc, t = { s with running := running, pc := pc }) := by
  cases e with
  | swap =>
    obtain ⟨x, hx, rfl⟩ := Option.map_eq_some_iff.mp h
    exact Or.inl ⟨x, hx, rfl⟩
  | wake =>
    rcases wake_eq_some h with ⟨hrun, rfl⟩ | ⟨hseq, -, rfl⟩
    · exact Or.inr (Or.inr (Or.inr ⟨s.running, .returned, rfl⟩))
    · exact Or.inr (Or.inl ⟨hseq, rfl⟩)
  | call =>
    obtain ⟨-, rfl⟩ := call_eq_some h
    exact Or.inr (Or.inr (Or.inl rfl))
  | stop =>
    obtain rfl := Option.some.inj h
    exact Or.inr (Or.inr (Or.inr ⟨false, s.pc, rfl⟩))

theorem populateFrame_bytes {f : UvcFrame} {h : Held} (hok : h.bfhErr = 0) :
    (populateFrame f h).bytes = h.bytes := by
  unfold UvcFrame.bytes populateFrame
  rw [if_pos hok]
  exact List.take_left

end UserCaller

/-! ## Order -/

theorem Numbered.seq_head {n m : UInt32} {hs : List Held} {x : Held} (h : Numbered n m hs)
    (hx : hs[0]? = some x) : x.seq = n := by
  cases hs with
  | nil => cases hx
  | cons y hs =>
    obtain rfl := Option.some.inj hx
    exact h.1

theorem Numbered.seq_succ {n m : UInt32} {hs : List Held} {i : Nat} {x y : Held}
    (h : Numbered n m hs) (hx : hs[i]? = some x) (hy : hs[i + 1]? = some y) :
    y.seq = x.seq + 1 := by
  induction hs generalizing n i with
  | nil => cases hx
  | cons z hs ih =>
    cases i with
    | zero =>
      obtain rfl := Option.some.inj hx
      rw [h.1]
      exact h.2.seq_head hy
    | succ i => exact ih h.2 hx hy

/-- The frame was put up with number `i`, which is not the first, and has no error mark. -/
def Good (hs : List Held) (i : Nat) (bytes : List UInt8) : Prop :=
  0 < i ∧ ∃ h, hs[i]? = some h ∧ h.bfhErr = 0 ∧ h.bytes = bytes

/-- Whole good frames in the order of their numbers, all below `n`. -/
def InOrder (hs : List Held) (n : Nat) (frames : List (List UInt8)) : Prop :=
  ∃ idx : List Nat, idx.Pairwise (· ≤ ·) ∧ (∀ i ∈ idx, i < n) ∧
    List.Forall₂ (Good hs) idx frames

theorem InOrder.mono {hs : List Held} {n m : Nat} {frames : List (List UInt8)}
    (h : InOrder hs n frames) (hnm : n ≤ m) : InOrder hs m frames := by
  obtain ⟨idx, hsorted, hlt, hgood⟩ := h
  exact ⟨idx, hsorted, fun i hi => Nat.lt_of_lt_of_le (hlt i hi) hnm, hgood⟩

theorem InOrder.concat {hs : List Held} {n i : Nat} {frames : List (List UInt8)}
    {bytes : List UInt8} (h : InOrder hs (i + 1) frames) (hi : i < n) (hg : Good hs i bytes) :
    InOrder hs n (frames ++ [bytes]) := by
  obtain ⟨idx, hsorted, hlt, hgood⟩ := h
  refine ⟨idx ++ [i], ?_, ?_, List.rel_append hgood (List.Forall₂.cons hg List.Forall₂.nil)⟩
  · refine List.pairwise_append.mpr ⟨hsorted, List.pairwise_singleton _ _, ?_⟩
    intro j hj k hk
    rw [List.mem_singleton.mp hk]
    exact Nat.le_of_lt_succ (hlt j hj)
  · intro j hj
    rcases List.mem_append.mp hj with hj | hj
    · exact Nat.lt_of_le_of_lt (Nat.le_of_lt_succ (hlt j hj)) hi
    · rwa [List.mem_singleton.mp hj]

namespace UserCaller

/-- What holds whatever the threads do. -/
structure Inv (hs : List Held) (s : UserCaller) : Prop where
  up_le : s.up ≤ hs.length
  /-- Up to the first frame the number is zero; then it is that of the frame held. -/
  hold_eq : ∀ i, s.up = i + 1 → hs[i]? = some s.hold
  hold_zero : s.up = 0 → s.hold.seq = 0
  lastSeq : s.up ≤ 1 → s.lastSeq = 0
  /-- The frame to be given was never filled, or is the good frame `i`. -/
  called : ∃ k frames, s.called = List.replicate k [] ++ frames ∧
    (s.frame.bytes = [] ∧ frames = [] ∨
      ∃ i, i < s.up ∧ Good hs i s.frame.bytes ∧ InOrder hs (i + 1) frames)

theorem start_inv (hs : List Held) : Inv hs start where
  up_le := Nat.zero_le _
  hold_eq := nofun
  hold_zero := fun _ => rfl
  lastSeq := fun _ => rfl
  called := ⟨0, [], rfl, Or.inl ⟨rfl, rfl⟩⟩

variable {hs : List Held} {s : UserCaller}

theorem Inv.swap (h : Inv hs s) {x : Held} (hx : hs[s.up]? = some x) :
    Inv hs { s with up := s.up + 1, hold := x } where
  up_le := (List.getElem?_eq_some_iff.mp hx).1
  hold_eq := fun i hi => by
    obtain rfl : s.up = i := Nat.succ.inj hi
    exact hx
  hold_zero := nofun
  lastSeq := fun hle => h.lastSeq (Nat.le_of_succ_le hle)
  called := by
    obtain ⟨k, frames, hk, hframe⟩ := h.called
    refine ⟨k, frames, hk, hframe.imp_right ?_⟩
    rintro ⟨i, hi, hgood⟩
    exact ⟨i, Nat.lt_succ_of_lt hi, hgood⟩

/-- The caller wakes up only when the second frame is there. -/
theorem Inv.one_lt_up {m : UInt32} (h : Inv hs s) (hn : Numbered 0 m hs)
    (hseq : s.lastSeq ≠ s.hold.seq) : 1 < s.up := by
  by_contra hle
  have hlast := h.lastSeq (Nat.le_of_not_lt hle)
  have hhold : s.hold.seq = 0 := by
    cases hup : s.up with
    | zero => exact h.hold_zero hup
    | succ i =>
      obtain rfl : i = 0 := by omega
      exact hn.seq_head (h.hold_eq 0 hup)
  exact hseq (hlast.trans hhold.symm)

theorem Inv.wake {m : UInt32} (h : Inv hs s) (hn : Numbered 0 m hs)
    (hseq : s.lastSeq ≠ s.hold.seq) (pc : CallerPc) :
    Inv hs { s with
      lastSeq := s.hold.seq, pc := pc
      frame := if s.hold.bfhErr = 0 then populateFrame s.frame s.hold else s.frame } where
  up_le := h.up_le
  hold_eq := h.hold_eq
  hold_zero := h.hold_zero
  lastSeq := fun hle => absurd (h.one_lt_up hn hseq) (Nat.not_lt.mpr hle)
  called := by
    have hup := h.one_lt_up hn hseq
    obtain ⟨k, frames, hk, hframe⟩ := h.called
    refine ⟨k, frames, hk, ?_⟩
    by_cases hok : s.hold.bfhErr = 0
    · -- The frame is filled with the one held, the last one put up.
      have hget := h.hold_eq (s.up - 1) (by omega)
      refine Or.inr ⟨s.up - 1, by show s.up - 1 < s.up; omega, ?_, ?_⟩
      · refine ⟨by omega, s.hold, hget, hok, ?_⟩
        simp only [if_pos hok]
        exact (populateFrame_bytes hok).symm
      · rcases hframe with ⟨-, rfl⟩ | ⟨i, hi, -, horder⟩
        · exact ⟨[], List.Pairwise.nil, by simp, List.Forall₂.nil⟩
        · exact horder.mono (by omega)
    · simpa only [if_neg hok] using hframe

theorem Inv.call (h : Inv hs s) (pc : CallerPc) :
    Inv hs { s with
      pc := pc
      called := if s.hold.bfhErr = 0 then s.called ++ [s.frame.bytes] else s.called } where
  up_le := h.up_le
  hold_eq := h.hold_eq
  hold_zero := h.hold_zero
  lastSeq := h.lastSeq
  called := by
    obtain ⟨k, frames, hk, hframe⟩ := h.called
    by_cases hok : s.hold.bfhErr = 0
    · simp only [if_pos hok]
      rcases hframe with ⟨hempty, rfl⟩ | ⟨i, hi, hgood, horder⟩
      · refine ⟨k + 1, [], ?_, Or.inl ⟨hempty, rfl⟩⟩
        rw [hk, hempty, List.append_nil, List.append_nil, List.replicate_succ']
      · refine ⟨k, frames ++ [s.frame.bytes], ?_, Or.inr ⟨i, hi, hgood, ?_⟩⟩
        · rw [hk, List.append_assoc]
        · exact horder.concat (Nat.lt_succ_self i) hgood
    · simp only [if_neg hok]
      exact ⟨k, frames, hk, hframe⟩

theorem step_inv {m : UInt32} (hn : Numbered 0 m hs) {t : UserCaller} {e : CallerEvent}
    (h : Inv hs s) (he : step hs s e = some t) : Inv hs t := by
  rcases step_cases he with ⟨x, hx, rfl⟩ | ⟨hseq, rfl⟩ | rfl | ⟨running, pc, rfl⟩
  · exact h.swap hx
  · exact h.wake hn hseq .calling
  · exact h.call .waiting
  · exact ⟨h.up_le, h.hold_eq, h.hold_zero, h.lastSeq, h.called⟩

/-! ## A caller that keeps up -/

/-- The frames without an error mark. -/
def goodBytes (hs : List Held) : List (List UInt8) :=
  (hs.filter fun h => h.bfhErr = 0).map Held.bytes

theorem goodBytes_of_frames {hs : List Held} {fs : List CameraFrame}
    (h : hs.map Held.frame = fs.map fun f => ⟨f.bytes, false⟩) :
    goodBytes hs = fs.map CameraFrame.bytes := by
  induction hs generalizing fs with
  | nil =>
    obtain rfl := List.map_eq_nil_iff.mp h.symm
    rfl
  | cons x hs ih =>
    cases fs with
    | nil => simp at h
    | cons f fs =>
      obtain ⟨hx, htail⟩ := List.cons.inj h
      have hok : x.bfhErr = 0 := by
        simpa [Held.frame] using congrArg Frame.spoiled hx
      have hbytes : x.bytes = f.bytes := congrArg Frame.data hx
      have hrest := ih htail
      unfold goodBytes at hrest ⊢
      rw [List.filter_cons_of_pos (by simpa using hok), List.map_cons, hrest, hbytes, List.map_cons]

theorem goodBytes_append (hs hs' : List Held) :
    goodBytes (hs ++ hs') = goodBytes hs ++ goodBytes hs' := by
  unfold goodBytes
  rw [List.filter_append, List.map_append]

/-- **The condition on an event**: a frame is put up when the caller has taken the last one and
waits for another, and the stream is not stopped. -/
def KeepsUp (s : UserCaller) : CallerEvent → Prop
  | .swap => s.pc = .waiting ∧ s.lastSeq = s.hold.seq
  | .stop => False
  | _ => True

/-- The frame held, unless the caller has taken it and waits for another. -/
def owed (s : UserCaller) : List (List UInt8) :=
  if s.pc = .waiting ∧ s.lastSeq = s.hold.seq then [] else goodBytes [s.hold]

/-- All frames put up but the first have been given, or one of them is owed. -/
structure KeptUp (hs : List Held) (s : UserCaller) : Prop where
  inv : Inv hs s
  running : s.running = true
  calling : s.pc = .calling →
    s.lastSeq = s.hold.seq ∧ (s.hold.bfhErr = 0 → s.frame.bytes = s.hold.bytes)
  given : s.called ++ s.owed = goodBytes (hs.take s.up).tail

theorem start_keptUp (hs : List Held) : KeptUp hs start where
  inv := start_inv hs
  running := rfl
  calling := nofun
  given := rfl

theorem owed_of_waiting (hpc : s.pc = .waiting) (hseq : s.lastSeq = s.hold.seq) : s.owed = [] :=
  if_pos ⟨hpc, hseq⟩

theorem KeptUp.swap {m : UInt32} (hn : Numbered 0 m hs) (h : KeptUp hs s) (hpc : s.pc = .waiting)
    (hseq : s.lastSeq = s.hold.seq) {x : Held} (hx : hs[s.up]? = some x) :
    KeptUp hs { s with up := s.up + 1, hold := x } := by
  refine ⟨h.inv.swap hx, h.running, fun hcalling => absurd (hpc.symm.trans hcalling) nofun, ?_⟩
  have hgiven := h.given
  rw [owed_of_waiting hpc hseq, List.append_nil] at hgiven
  have htake : hs.take (s.up + 1) = hs.take s.up ++ [x] := by
    rw [List.take_add_one, hx]
    rfl
  have howed : owed { s with up := s.up + 1, hold := x } =
      if s.lastSeq = x.seq then [] else goodBytes [x] := by
    unfold owed
    simp [hpc]
  show s.called ++ owed { s with up := s.up + 1, hold := x } = goodBytes (hs.take (s.up + 1)).tail
  rw [howed, hgiven, htake]
  cases hup : s.up with
  | zero =>
    -- The first frame has the number that the caller starts with.
    have hlast : s.lastSeq = x.seq := by
      rw [hseq, h.inv.hold_zero hup, hn.seq_head (hup ▸ hx)]
    rw [if_pos hlast]
    rfl
  | succ i =>
    have hx' : hs[i + 1]? = some x := hup ▸ hx
    have hnext : x.seq = s.hold.seq + 1 := hn.seq_succ (h.inv.hold_eq i hup) hx'
    have hne : s.lastSeq ≠ x.seq := by
      rw [hseq, hnext]
      exact fun he => absurd (UInt32.left_eq_add.mp he) (by decide)
    have htail : hs.take (i + 1) ≠ [] := by
      have hle := h.inv.up_le
      rw [hup] at hle
      exact List.ne_nil_of_length_pos (by rw [List.length_take]; omega)
    rw [if_neg hne, List.tail_append_of_ne_nil htail, goodBytes_append]

theorem KeptUp.wake {m : UInt32} (hn : Numbered 0 m hs) (h : KeptUp hs s)
    (hseq : s.lastSeq ≠ s.hold.seq) :
    KeptUp hs { s with
      lastSeq := s.hold.seq, pc := .calling
      frame := if s.hold.bfhErr = 0 then populateFrame s.frame s.hold else s.frame } where
  inv := h.inv.wake hn hseq .calling
  running := h.running
  calling := fun _ => by
    refine ⟨rfl, fun hok => ?_⟩
    simp only [if_pos hok]
    exact populateFrame_bytes hok
  given := by
    have hbefore : s.owed = goodBytes [s.hold] := if_neg fun hand => hseq hand.2
    have hgiven := h.given
    rw [hbefore] at hgiven
    exact hgiven

theorem KeptUp.call (h : KeptUp hs s) (hpc : s.pc = .calling) :
    KeptUp hs { s with
      pc := .waiting
      called := if s.hold.bfhErr = 0 then s.called ++ [s.frame.bytes] else s.called } where
  inv := h.inv.call .waiting
  running := h.running
  calling := nofun
  given := by
    obtain ⟨hseq, hbytes⟩ := h.calling hpc
    have hbefore : s.owed = goodBytes [s.hold] :=
      if_neg fun hand => CallerPc.noConfusion (hpc.symm.trans hand.1)
    have hgiven := h.given
    rw [hbefore] at hgiven
    refine Eq.trans (congrArg _ (owed_of_waiting rfl hseq)) ?_
    rw [List.append_nil, ← hgiven]
    by_cases hok : s.hold.bfhErr = 0
    · simp [goodBytes, hok, hbytes hok]
    · simp [goodBytes, hok]

theorem step_keptUp {m : UInt32} (hn : Numbered 0 m hs) {t : UserCaller} {e : CallerEvent}
    (h : KeptUp hs s) (hkeeps : s.KeepsUp e) (he : step hs s e = some t) : KeptUp hs t := by
  cases e with
  | swap =>
    obtain ⟨x, hx, rfl⟩ := Option.map_eq_some_iff.mp he
    exact h.swap hn hkeeps.1 hkeeps.2 hx
  | wake =>
    rcases wake_eq_some he with ⟨hrun, -⟩ | ⟨hseq, -, rfl⟩
    · exact absurd (h.running.symm.trans hrun) nofun
    · exact h.wake hn hseq
  | call =>
    obtain ⟨hpc, rfl⟩ := call_eq_some he
    exact h.call hpc
  | stop => exact hkeeps.elim

/-- A caller that keeps up has been given every good frame but the first when it waits. -/
theorem called_of_keepsUp {m : UInt32} (hn : Numbered 0 m hs) {es : List CallerEvent}
    {t : UserCaller} (hes : (machine hs).Each KeepsUp es) (ht : (machine hs).run es = some t)
    (hpc : t.pc = .waiting) (hseq : t.lastSeq = t.hold.seq) :
    t.called = goodBytes (hs.take t.up).tail := by
  have h : KeptUp hs t := (machine hs).invariant_of_each (start_keptUp hs)
    (fun _ _ _ h hkeeps he => step_keptUp hn h hkeeps he) hes ht
  have hgiven := h.given
  rwa [owed_of_waiting hpc hseq, List.append_nil] at hgiven

/-- The caller waits in vain for another number than the first frame has, and then takes every
frame before the next. -/
def keepingUp : Nat → List CallerEvent
  | 0 => []
  | 1 => [.swap]
  | n + 2 => keepingUp (n + 1) ++ [.swap] ++ [.wake, .call]

/-- The caller has taken `n` frames and waits. -/
structure Waiting (n : Nat) (s : UserCaller) : Prop where
  running : s.running = true
  pc : s.pc = .waiting
  lastSeq : s.lastSeq = s.hold.seq
  up : s.up = n

/-- One frame more is put up, copied, and given to the callback. -/
theorem Waiting.next {n : Nat} (h : Waiting n s) {x : Held} (hx : hs[n]? = some x)
    (hseq : x.seq = s.hold.seq + 1) :
    ∃ t, [.swap, .wake, .call].foldlM (step hs) s = some t ∧ Waiting (n + 1) t := by
  have hne : s.lastSeq ≠ x.seq := by
    rw [h.lastSeq, hseq]
    exact fun he => absurd (UInt32.left_eq_add.mp he) (by decide)
  obtain ⟨up, hold, running, lastSeq, frame, pc, called⟩ := s
  obtain rfl : running = true := h.running
  obtain rfl : pc = .waiting := h.pc
  obtain rfl : up = n := h.up
  let filled := if x.bfhErr = 0 then populateFrame frame x else frame
  refine ⟨⟨up + 1, x, true, x.seq, filled, .waiting,
    if x.bfhErr = 0 then called ++ [filled.bytes] else called⟩, ?_, rfl, rfl, rfl, rfl⟩
  simp only [List.foldlM_cons, List.foldlM_nil, step, hx]
  simp [wake, call, hne, filled]

/-- There is such a run for every number of frames. -/
theorem exists_keepingUp {m : UInt32} (hn : Numbered 0 m hs) {n : Nat} (hle : n ≤ hs.length) :
    (machine hs).Each KeepsUp (keepingUp n) ∧
      ∃ t, (machine hs).run (keepingUp n) = some t ∧ Waiting n t := by
  induction n using keepingUp.induct with
  | case1 => exact ⟨(machine hs).each_nil, start, rfl, rfl, rfl, rfl, rfl⟩
  | case2 =>
    obtain ⟨x, hx⟩ : ∃ x, hs[0]? = some x := ⟨hs[0], List.getElem?_eq_getElem hle⟩
    have hrun : (machine hs).run [.swap] = some { start with up := 1, hold := x } := by
      show (hs[0]?.map fun h => { start with up := 1, hold := h }).bind some = _
      rw [hx]
      rfl
    refine ⟨?_, _, hrun, rfl, rfl, (hn.seq_head hx).symm, rfl⟩
    have heach : (machine hs).Each KeepsUp ([] ++ [.swap]) :=
      (machine hs).each_concat.mpr ⟨(machine hs).each_nil, fun t ht => by
        obtain rfl := Option.some.inj ht
        exact ⟨rfl, rfl⟩⟩
    exact heach
  | case3 n ih =>
    obtain ⟨heach, s, hs', hwait⟩ := ih (by omega)
    have hinv := (machine hs).invariant (start_inv hs) (fun _ _ _ h he => step_inv hn h he) hs'
    obtain ⟨x, hx⟩ : ∃ x, hs[n + 1]? = some x := ⟨hs[n + 1], List.getElem?_eq_getElem hle⟩
    obtain ⟨t, ht, hwait'⟩ := hwait.next hx (hn.seq_succ (hinv.hold_eq n hwait.up) hx)
    refine ⟨?_, t, ?_, hwait'⟩
    · refine (machine hs).each_append_of_mem ?_ ?_
      · refine (machine hs).each_concat.mpr ⟨heach, fun u hu => ?_⟩
        obtain rfl := Option.some.inj (hs'.symm.trans hu)
        exact ⟨hwait.pc, hwait.lastSeq⟩
      · intro e he _
        simp only [List.mem_cons, List.not_mem_nil, or_false] at he
        rcases he with rfl | rfl <;> trivial
    · have hbefore : (keepingUp (n + 1)).foldlM (step hs) start = some s := hs'
      show (keepingUp (n + 1) ++ [CallerEvent.swap] ++
        [CallerEvent.wake, CallerEvent.call]).foldlM (step hs) start = _
      rw [List.append_assoc, List.foldlM_append, hbefore]
      exact ht

/-! ## The results -/

/-- **The callback is given whole good frames in order**, never the first one; before them,
empty ones at most. -/
theorem called_in_order (isIsight : Bool) (outbuf holdbuf : Vector UInt8 xferBufSize)
    (payloads : List (List UInt8)) {es : List CallerEvent} {t : UserCaller}
    (ht : (machine (processPayloads (started isIsight outbuf holdbuf) payloads).emitted).run es =
      some t) :
    ∃ k frames, t.called = List.replicate k [] ++ frames ∧
      InOrder (processPayloads (started isIsight outbuf holdbuf) payloads).emitted t.up
        frames := by
  obtain ⟨u, hu⟩ := started_steps isIsight outbuf holdbuf payloads
  have hinv := (machine _).invariant (start_inv _)
    (fun _ _ _ hs' he => step_inv hu.numbered hs' he) ht
  obtain ⟨k, frames, hk, hframe⟩ := hinv.called
  refine ⟨k, frames, hk, ?_⟩
  rcases hframe with ⟨-, rfl⟩ | ⟨i, hi, -, horder⟩
  · exact ⟨[], List.Pairwise.nil, by simp, List.Forall₂.nil⟩
  · exact horder.mono hi

/-- Two frames of one payload each. -/
def twoFrames : List CameraFrame :=
  [.single 1 [] (by decide), .single 2 [3] (by decide)]

theorem twoFrames_ends : ∀ f ∈ twoFrames.getLast?, f.Ends := by
  intro f hf
  obtain rfl := Option.some.inj hf
  exact CameraFrame.single_ends 2 [3] (by decide)

theorem twoFrames_emitted (outbuf holdbuf : Vector UInt8 xferBufSize) :
    (processPayloads (started false outbuf holdbuf)
        (encodeFrames true twoFrames)).emitted.map Held.frame =
      twoFrames.map fun f => ⟨f.bytes, false⟩ := by
  obtain ⟨u, hu, hout⟩ := encodeFrames_steps outbuf holdbuf true twoFrames
  rw [pending_encodeFrames hu rfl (twoFrames_ends _ rfl), List.append_nil] at hout
  exact hout

/-- The caller keeps up with both. -/
theorem twoFrames_run (outbuf holdbuf : Vector UInt8 xferBufSize) :
    ∃ t, (machine (processPayloads (started false outbuf holdbuf)
          (encodeFrames true twoFrames)).emitted).run (keepingUp 2) = some t ∧
      (machine (processPayloads (started false outbuf holdbuf)
          (encodeFrames true twoFrames)).emitted).Each KeepsUp (keepingUp 2) ∧
      Waiting 2 t ∧ t.called = [[2, 3]] := by
  obtain ⟨u, hu, -⟩ := encodeFrames_steps outbuf holdbuf true twoFrames
  have hemitted := twoFrames_emitted outbuf holdbuf
  have hlen := congrArg List.length hemitted
  rw [List.length_map, List.length_map] at hlen
  obtain ⟨heach, t, ht, hwait⟩ := exists_keepingUp hu.numbered hlen.ge
  refine ⟨t, ht, heach, hwait, ?_⟩
  rw [called_of_keepsUp hu.numbered heach ht hwait.pc hwait.lastSeq, hwait.up,
    List.take_of_length_le hlen.le]
  exact goodBytes_of_frames (by rw [List.map_tail, hemitted, ← List.map_tail])

theorem called_in_order_delivered :
    ∃ t, (machine (processPayloads
          (started false (Vector.replicate _ 0) (Vector.replicate _ 0))
          (encodeFrames true twoFrames)).emitted).run (keepingUp 2) = some t ∧
      t.called = [[2, 3]] ∧
      ∃ k frames, t.called = List.replicate k [] ++ frames ∧
        InOrder (processPayloads
          (started false (Vector.replicate _ 0) (Vector.replicate _ 0))
          (encodeFrames true twoFrames)).emitted t.up frames := by
  obtain ⟨t, ht, -, -, hcalled⟩ := twoFrames_run (Vector.replicate _ 0) (Vector.replicate _ 0)
  exact ⟨t, ht, hcalled, called_in_order false _ _ _ ht⟩

/-- **A caller that keeps up is given the frames of a camera**, whole and in order, as many as
are put up, except the first. -/
theorem camera_called_of_keepsUp (outbuf holdbuf : Vector UInt8 xferBufSize) (fid : Bool)
    (fs : List CameraFrame) {es : List CallerEvent} {t : UserCaller}
    (hes : (machine (processPayloads (started false outbuf holdbuf)
      (encodeFrames fid fs)).emitted).Each KeepsUp es)
    (ht : (machine (processPayloads (started false outbuf holdbuf)
      (encodeFrames fid fs)).emitted).run es = some t)
    (hpc : t.pc = .waiting) (hseq : t.lastSeq = t.hold.seq) :
    t.called = (fs.take t.up).tail.map CameraFrame.bytes := by
  obtain ⟨u, hu, hout⟩ := encodeFrames_steps outbuf holdbuf fid fs
  have hinv := (machine _).invariant (start_inv _)
    (fun _ _ _ hs' he => step_inv hu.numbered hs' he) ht
  have htake : ((processPayloads (started false outbuf holdbuf)
      (encodeFrames fid fs)).emitted.take t.up).map Held.frame =
      (fs.take t.up).map fun f => ⟨f.bytes, false⟩ := by
    rw [List.map_take, List.map_take, ← hout, List.take_append_of_le_length]
    rw [List.length_map]
    exact hinv.up_le
  rw [called_of_keepsUp hu.numbered hes ht hpc hseq]
  exact goodBytes_of_frames (by rw [List.map_tail, htake, List.map_tail])

theorem camera_called_of_keepsUp_twoFrames :
    ∃ t, (machine (processPayloads
          (started false (Vector.replicate _ 0) (Vector.replicate _ 0))
          (encodeFrames true twoFrames)).emitted).run (keepingUp 2) = some t ∧
      t.called = [[2, 3]] := by
  obtain ⟨t, ht, heach, hwait, -⟩ := twoFrames_run (Vector.replicate _ 0) (Vector.replicate _ 0)
  refine ⟨t, ht, ?_⟩
  rw [camera_called_of_keepsUp _ _ true twoFrames heach ht hwait.pc hwait.lastSeq, hwait.up]
  rfl

end UserCaller

end PetDev.Uvc
