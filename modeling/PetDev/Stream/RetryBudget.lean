import PetDev.Stream.Streamer
import Mathlib.Data.List.Count

/-!
# Five attempts for each start

A `VideoData` that finds no session open and nothing posted should begin a series of attempts:
one after the other, until one succeeds or five have failed.  A history beside the state keeps
which events came so, and whose attempts failed; `Budgeted` is the requirement.

`retryTimes` is never reset and shared by all series, and `started` stays set when a series
fails.  So what is required holds in the runs in which such an event finds `started` not set
and, if its first attempt fails, `retryTimes` still `0`; and no other `VideoData` fails while a
retry of it is posted, unless that is the last one (`budgeted_of_keepsBudget`, exact by
`safe_iff_keepsBudget`).
-/

namespace PetDev.Stream

open Java Android

/-! ## The history -/

/-- The `VideoData` events that began a series, an entry for each attempt that failed, and whether
an event that should have begun a series was ignored. -/
structure Starts where
  fresh : List Nat
  failures : List Nat
  ignored : Bool

namespace Starts

def attempted (command : Nat) (result : Int) (r : Starts) : Starts :=
  if result = -1 then { r with failures := command :: r.failures } else r

def ran (result : Int) (r : Starts) : Task → Starts
  | .encodeStart command => r.attempted command result
  | .encodeStop => r

@[simp] theorem attempted_fresh (command : Nat) (result : Int) (r : Starts) :
    (r.attempted command result).fresh = r.fresh := by
  unfold attempted
  split <;> rfl

@[simp] theorem attempted_ignored (command : Nat) (result : Int) (r : Starts) :
    (r.attempted command result).ignored = r.ignored := by
  unfold attempted
  split <;> rfl

theorem attempted_opened (command : Nat) {result : Int} (h : result ≠ -1) (r : Starts) :
    r.attempted command result = r := if_neg h

@[simp] theorem attempted_failed (command : Nat) (r : Starts) :
    r.attempted command (-1) = { r with failures := command :: r.failures } := if_pos rfl

end Starts

namespace Streamer

/-- No session is open, and neither a retry nor a stop is pending. -/
def Idle (s : Streamer) : Prop := s.native.isOpen = false ∧ s.queue = []

instance (s : Streamer) : Decidable s.Idle := inferInstanceAs (Decidable (_ ∧ _))

/-- What a step adds to the history. -/
def record (s : Streamer) (e : StreamerEvent) (r : Starts) : Starts :=
  match e with
  | .videoData result =>
    if s.started then { r with ignored := r.ignored || decide s.Idle }
    else
      let r := r.attempted (s.command + 1) result
      if s.Idle then { r with fresh := (s.command + 1) :: r.fresh } else r
  | .callback result =>
    match Looper.next s.now s.queue with
    | some (m, _) => r.ran result m.what
    | none => r
  | _ => r

end Streamer

def budgetMachine : StepMachine (Streamer × Starts) StreamerEvent :=
  streamerMachine.withHistory ⟨[], [], false⟩ Streamer.record

open Streamer

/-- How far the series that `c` began has come: one more attempt is posted as long as none has
succeeded and fewer than five have failed. -/
inductive Series (w : Streamer × Starts) (c : Nat) : Prop
  | trying (hone : w.1.tasks.count (.encodeStart c) = 1) (hno : c ∉ w.1.succeeded)
      (hfew : w.2.failures.count c < 5)
  | opened (hnone : .encodeStart c ∉ w.1.tasks) (hyes : c ∈ w.1.succeeded)
      (hfew : w.2.failures.count c < 5)
  | failed (hnone : .encodeStart c ∉ w.1.tasks) (hno : c ∉ w.1.succeeded)
      (hfive : w.2.failures.count c = 5)

/-- No event was ignored, and each that began a series gets its five attempts. -/
def Budgeted (w : Streamer × Starts) : Prop :=
  w.2.ignored = false ∧ ∀ c ∈ w.2.fresh, Series w c

/-- A retry of a series is posted. -/
def RetryPending (w : Streamer × Starts) : Prop := ∃ c ∈ w.2.fresh, .encodeStart c ∈ w.1.tasks

instance (w : Streamer × Starts) : Decidable (RetryPending w) :=
  inferInstanceAs (Decidable (∃ c ∈ w.2.fresh, _))

/-- **The condition on an event**: a series begins with nothing used up, and no other event uses
up its attempts. -/
def KeepsBudget (w : Streamer × Starts) : StreamerEvent → Prop
  | .videoData result =>
    (w.1.Idle → w.1.started = false ∧ (result = -1 → w.1.retryTimes = 0)) ∧
    (w.1.started = false → result = -1 → RetryPending w → ¬ w.1.Again ∧ ¬ w.1.failed.Again)
  | _ => True

instance (w : Streamer × Starts) : (e : StreamerEvent) → Decidable (KeepsBudget w e)
  | .videoData _ => inferInstanceAs (Decidable ((w.1.Idle → _) ∧ (w.1.started = false → _)))
  | .recvaddrData | .callback _ | .previewFrame | .onConnectDev | .onSurfaceCreated _
  | .onSurfaceDestroy _ | .advance _ => inferInstanceAs (Decidable True)

/-! ## Attempts that are left -/

/-- With the counter at `r` and `f` attempts failed, the attempts that are left are posted until
the fifth has failed. -/
def Left (r : Int) (f : Nat) : Prop :=
  ∀ k : Nat, 1 ≤ k → f + k ≤ 5 → (int (r + k) < 5 ↔ f + k < 5)

theorem Left.again {r : Int} {f : Nat} (h : Left r f) (hf : f < 5) :
    int (r + 1) < 5 ↔ f + 1 < 5 := h 1 le_rfl hf

theorem left_iff {r : Int} {f : Nat} (hf : f < 5) :
    Left r f ↔ (int (r + 1) < 5 ↔ f + 1 < 5) ∧ (f + 1 < 5 → Left (int (r + 1)) (f + 1)) := by
  have hshift : ∀ k : Nat, int (int (r + 1) + k) = int (r + (k + 1 : Nat)) := by
    intro k
    rw [int_int_add]
    congr 1
    push_cast
    ring
  constructor
  · intro h
    refine ⟨h.again hf, fun _ k h1 h5 => ?_⟩
    rw [hshift, h (k + 1) (by omega) (by omega)]
    omega
  · rintro ⟨hagain, hrest⟩ k h1 h5
    rcases Nat.eq_or_lt_of_le h1 with rfl | h1
    · exact hagain
    · have hleft := hrest (by omega) (k - 1) (by omega) (by omega)
      rw [hshift, Nat.sub_add_cancel (by omega)] at hleft
      rw [hleft]
      omega

/-- A series counts from `0`. -/
theorem left_zero_iff {r : Int} (h : -2 ^ 31 ≤ r) (h' : r < 2 ^ 31) : Left r 0 ↔ r = 0 := by
  constructor
  · intro hleft
    have h4 := hleft 4 (by decide) (by decide)
    have h5 := hleft 5 (by decide) (by decide)
    unfold int at h4 h5
    omega
  · rintro rfl k h1 h5
    rw [int_of_range (by omega) (by omega)]
    omega

/-- A failure of another series leaves the attempts as they should be only if the next one is the
last in any case. -/
theorem Left.other_iff {r : Int} {f : Nat} (h : Left r f) (hf : f < 5) :
    Left (int (r + 1)) f ↔ ¬ int (r + 1) < 5 ∧ ¬ int (int (r + 1) + 1) < 5 := by
  have hagain := h.again hf
  have hshift : int (int (r + 1) + 1) = int (r + 2) := by
    rw [int_int_add]
    congr 1
    ring
  rw [hshift]
  constructor
  · intro hother
    have hother1 := hother.again hf
    rw [hshift] at hother1
    by_cases hlast : f + 1 < 5
    · -- two counters cannot reach the end together
      have h1 := h (5 - f) (by omega) (by omega)
      have h2 := hother (4 - f) (by omega) (by omega)
      have hcast : r + 1 + ((4 - f : Nat) : Int) = r + ((5 - f : Nat) : Int) := by omega
      rw [int_int_add, hcast] at h2
      omega
    · omega
  · rintro ⟨h1, h2⟩ k hk1 hk5
    obtain rfl : k = 1 := by omega
    rw [show int (int (r + 1) + ((1 : Nat) : Int)) = int (r + 2) from hshift]
    omega

/-! ## What a run that keeps the condition comes to -/

/-- All numbers have been given out. -/
structure Numbered (w : Streamer × Starts) : Prop where
  fresh : ∀ c ∈ w.2.fresh, c ≤ w.1.command
  posted : ∀ c, .encodeStart c ∈ w.1.tasks → c ≤ w.1.command
  succeeded : ∀ c ∈ w.1.succeeded, c ≤ w.1.command
  failed : ∀ c ∈ w.2.failures, c ≤ w.1.command

structure OnBudget (w : Streamer × Starts) : Prop where
  window : w.1.Window
  budgeted : Budgeted w
  numbered : Numbered w
  range : -2 ^ 31 ≤ w.1.retryTimes ∧ w.1.retryTimes < 2 ^ 31
  alone : ∀ c ∈ w.2.fresh, .encodeStart c ∈ w.1.tasks →
    (∀ c', .encodeStart c' ∈ w.1.tasks → c' = c) ∧ Left w.1.retryTimes (w.2.failures.count c)

theorem onBudget_start : OnBudget budgetMachine.init where
  window := nofun
  budgeted := ⟨rfl, nofun⟩
  numbered := ⟨nofun, nofun, nofun, nofun⟩
  range := by decide
  alone := nofun

theorem int_range (x : Int) : -2 ^ 31 ≤ int x ∧ int x < 2 ^ 31 := by
  unfold int
  omega

/-! ## What an attempt leaves alone -/

/-- Between the two, no start but `n` has made an attempt. -/
structure Frame (n : Nat) (w w' : Streamer × Starts) : Prop where
  posted : ∀ c, c ≠ n → w'.1.tasks.count (.encodeStart c) = w.1.tasks.count (.encodeStart c)
  succeeded : ∀ c, c ≠ n → (c ∈ w'.1.succeeded ↔ c ∈ w.1.succeeded)
  failures : ∀ c, c ≠ n → w'.2.failures.count c = w.2.failures.count c

theorem Frame.mem_tasks {n : Nat} {w w' : Streamer × Starts} (h : Frame n w w') {c : Nat}
    (hne : c ≠ n) : .encodeStart c ∈ w'.1.tasks ↔ .encodeStart c ∈ w.1.tasks := by
  rw [← List.count_pos_iff, ← List.count_pos_iff, h.posted c hne]

theorem Frame.mem_failures {n : Nat} {w w' : Streamer × Starts} (h : Frame n w w') {c : Nat}
    (hne : c ≠ n) : c ∈ w'.2.failures ↔ c ∈ w.2.failures := by
  rw [← List.count_pos_iff, ← List.count_pos_iff, h.failures c hne]

/-- The other series stay where they are. -/
theorem Series.frame {n c : Nat} {w w' : Streamer × Starts} (h : Series w c) (hw : Frame n w w')
    (hne : c ≠ n) : Series w' c := by
  have hfailures := hw.failures c hne
  cases h with
  | trying hone hno hfew =>
    exact .trying ((hw.posted c hne).trans hone) (mt (hw.succeeded c hne).mp hno)
      (hfailures.trans_lt hfew)
  | opened hnone hyes hfew =>
    exact .opened (mt (hw.mem_tasks hne).mp hnone) ((hw.succeeded c hne).mpr hyes)
      (hfailures.trans_lt hfew)
  | failed hnone hno hfive =>
    exact .failed (mt (hw.mem_tasks hne).mp hnone) (mt (hw.succeeded c hne).mp hno)
      (hfailures.trans hfive)

theorem Numbered.frame {n : Nat} {w w' : Streamer × Starts} (h : Numbered w) (hw : Frame n w w')
    (hn : n ≤ w'.1.command) (hcommand : w.1.command ≤ w'.1.command)
    (hfresh : ∀ c ∈ w'.2.fresh, c ≠ n → c ∈ w.2.fresh) : Numbered w' := by
  have hle : ∀ c, (c ≠ n → c ≤ w.1.command) → c ≤ w'.1.command := by
    intro c hc
    by_cases hne : c = n
    · rw [hne]
      exact hn
    · exact (hc hne).trans hcommand
  constructor
  · exact fun c hc => hle c fun hne => h.fresh c (hfresh c hc hne)
  · exact fun c hc => hle c fun hne => h.posted c ((hw.mem_tasks hne).mp hc)
  · exact fun c hc => hle c fun hne => h.succeeded c ((hw.succeeded c hne).mp hc)
  · exact fun c hc => hle c fun hne => h.failed c ((hw.mem_failures hne).mp hc)

section Attempt

variable {u : Streamer} {r : Starts} {n : Nat}

theorem Frame.encodeStart {w : Streamer × Starts} (h : Frame n w (u, r)) (hu : u.Window)
    (result : Int) : Frame n w (u.encodeStart n result, r.attempted n result) := by
  rcases u.encodeStart_cases n result with
    ⟨hresult, heq⟩ | ⟨rfl, -, heq⟩ | ⟨rfl, -, heq⟩
  · rw [heq, Starts.attempted_opened n hresult]
    refine ⟨h.posted, fun c hne => ?_, h.failures⟩
    rw [← h.succeeded c hne]
    show c ∈ n :: u.succeeded ↔ c ∈ u.succeeded
    rw [List.mem_cons, or_iff_right hne]
  · rw [heq, Starts.attempted_failed]
    refine ⟨fun c hne => ?_, h.succeeded, fun c hne => ?_⟩
    · rw [← h.posted c hne]
      show (u.failed.postDelayed _).tasks.count _ = u.tasks.count _
      rw [hu.tasks_again, List.count_append, List.count_singleton, if_neg (by simpa using hne.symm),
        add_zero]
    · exact (List.count_cons_of_ne hne.symm).trans (h.failures c hne)
  · rw [heq, Starts.attempted_failed]
    exact ⟨h.posted, h.succeeded, fun c hne =>
      (List.count_cons_of_ne hne.symm).trans (h.failures c hne)⟩

/-- An attempt that fails is made again exactly as long as fewer than five have failed. -/
theorem series_failed_iff (hu : u.Window) (hnone : .encodeStart n ∉ u.tasks)
    (hno : n ∉ u.succeeded) (hfew : r.failures.count n < 5) :
    Series (u.encodeStart n (-1), r.attempted n (-1)) n ↔
      (u.Again ↔ r.failures.count n + 1 < 5) := by
  have hcount : (n :: r.failures).count n = r.failures.count n + 1 := List.count_cons_self
  rw [Starts.attempted_failed]
  by_cases hagain : u.Again
  · rw [encodeStart_again n hagain, iff_true_left hagain]
    have hone : (u.failed.postDelayed (.encodeStart n)).tasks.count (.encodeStart n) = 1 := by
      rw [hu.tasks_again, List.count_append, List.count_eq_zero_of_not_mem hnone,
        List.count_singleton_self]
    constructor
    · intro h
      cases h with
      | trying _ _ hfew' => exact hcount ▸ hfew'
      | opened hnone' => exact absurd (hu.mem_tasks_again.mpr (Or.inr rfl)) hnone'
      | failed hnone' => exact absurd (hu.mem_tasks_again.mpr (Or.inr rfl)) hnone'
    · exact fun hfew' => .trying hone hno (hcount.trans_lt hfew')
  · rw [encodeStart_failed n hagain, iff_false_left hagain]
    constructor
    · intro h
      cases h with
      | trying hone => exact absurd (List.count_pos_iff.mp (hone.symm ▸ Nat.one_pos)) hnone
      | opened _ hyes => exact absurd hyes hno
      | failed _ _ hfive =>
        rw [← hcount]
        exact hfive.not_lt
    · intro hlast
      refine .failed hnone hno (hcount.trans ?_)
      omega

/-- The next attempt of a series of which none is posted. -/
theorem series_encodeStart (hu : u.Window) (hnone : .encodeStart n ∉ u.tasks)
    (hno : n ∉ u.succeeded) (hfew : r.failures.count n < 5) {result : Int}
    (hleft : result = -1 → Left u.retryTimes (r.failures.count n)) :
    Series (u.encodeStart n result, r.attempted n result) n := by
  by_cases hresult : result = -1
  · subst hresult
    exact (series_failed_iff hu hnone hno hfew).mpr ((hleft rfl).again hfew)
  · rw [encodeStart_opened n hresult, Starts.attempted_opened n hresult]
    exact .opened hnone List.mem_cons_self hfew

end Attempt

/-! ## The step -/

/-- A series with an attempt posted. -/
theorem Series.of_mem {w : Streamer × Starts} {c : Nat} (h : Series w c)
    (hmem : .encodeStart c ∈ w.1.tasks) : w.1.tasks.count (.encodeStart c) = 1 ∧
      c ∉ w.1.succeeded ∧ w.2.failures.count c < 5 := by
  cases h with
  | trying hone hno hfew => exact ⟨hone, hno, hfew⟩
  | opened hnone => exact absurd hmem hnone
  | failed hnone => exact absurd hmem hnone

variable {s : Streamer} {r : Starts}

/-- Behind an attempt that is posted there is none of any series. -/
theorem OnBudget.head (h : OnBudget (s, r)) {c0 : Nat} {rest : List Task}
    (htasks : s.tasks = .encodeStart c0 :: rest) : ∀ c ∈ r.fresh, .encodeStart c ∉ rest := by
  intro c hc hrest
  have hmem : .encodeStart c ∈ s.tasks := by
    rw [htasks]
    exact List.mem_cons_of_mem _ hrest
  obtain rfl : c0 = c := (h.alone c hc hmem).1 c0 (by rw [htasks]; exact List.mem_cons_self)
  have hone := ((h.budgeted.2 c0 hc).of_mem hmem).1
  rw [show (s, r).1.tasks = _ from htasks, List.count_cons_self] at hone
  have hpos := List.count_pos_iff.mpr hrest
  omega

/-- Only the attempts that are posted, the counter and the numbers matter. -/
theorem OnBudget.congr (h : OnBudget (s, r)) {u : Streamer} (hw : u.Window)
    (hcount : ∀ c, u.tasks.count (.encodeStart c) = s.tasks.count (.encodeStart c))
    (hretry : u.retryTimes = s.retryTimes) (hcommand : u.command = s.command)
    (hsucceeded : u.succeeded = s.succeeded) : OnBudget (u, r) := by
  have hframe : ∀ n, Frame n (s, r) (u, r) := fun n =>
    ⟨fun c _ => hcount c, fun c _ => by rw [hsucceeded], fun _ _ => rfl⟩
  have hmem : ∀ c, .encodeStart c ∈ u.tasks ↔ .encodeStart c ∈ s.tasks := fun c =>
    (hframe (c + 1)).mem_tasks (Nat.lt_succ_self c).ne
  refine ⟨hw, ⟨h.budgeted.1, fun c hc => ?_⟩, ?_, ?_, ?_⟩
  · exact (h.budgeted.2 c hc).frame (hframe (c + 1)) (Nat.lt_succ_self c).ne
  · exact h.numbered.frame (hframe 0) (Nat.zero_le _) hcommand.ge fun c hc _ => hc
  · show -2 ^ 31 ≤ u.retryTimes ∧ u.retryTimes < 2 ^ 31
    rw [hretry]
    exact h.range
  · simp only [hmem, hretry]
    exact h.alone

theorem range_encodeStart {u : Streamer} (h : -2 ^ 31 ≤ u.retryTimes ∧ u.retryTimes < 2 ^ 31)
    (n : Nat) (result : Int) : -2 ^ 31 ≤ (u.encodeStart n result).retryTimes ∧
      (u.encodeStart n result).retryTimes < 2 ^ 31 := by
  rcases u.encodeStart_cases n result with ⟨-, heq⟩ | ⟨-, -, heq⟩ | ⟨-, -, heq⟩
  · rw [heq]
    exact h
  · rw [heq]
    exact int_range _
  · rw [heq]
    exact int_range _

/-- **An attempt, when none of a series is posted**: the first one, or one that was posted. -/
theorem OnBudget.attempt {w : Streamer × Starts} (h : OnBudget w) {u v : Streamer} {r r' : Starts}
    {n : Nat} {result : Int} (hframe : Frame n w (u, r)) (hu : u.Window)
    (hv : v = { u.encodeStart n result with started := v.started })
    (hr : r' = { r.attempted n result with fresh := r'.fresh }) (hignored : r.ignored = false)
    (hn : n ≤ u.command) (hcommand : w.1.command ≤ u.command)
    (hrange : -2 ^ 31 ≤ u.retryTimes ∧ u.retryTimes < 2 ^ 31)
    (hfresh : ∀ c ∈ r'.fresh, c ≠ n → c ∈ w.2.fresh)
    (hnone : ∀ c ∈ r'.fresh, .encodeStart c ∉ u.tasks)
    (hseries : n ∈ r'.fresh → (∀ c, .encodeStart c ∉ u.tasks) ∧ n ∉ u.succeeded ∧
      r.failures.count n < 5 ∧ (result = -1 → Left u.retryTimes (r.failures.count n))) :
    OnBudget (v, r') := by
  have hframe' : Frame n w (v, r') := by
    rw [hv, hr]
    have hattempt := hframe.encodeStart hu result
    exact ⟨hattempt.posted, hattempt.succeeded, hattempt.failures⟩
  have hcommand' : v.command = u.command := by
    rw [hv]
    exact encodeStart_command u n result
  refine ⟨?_, ⟨?_, fun c hc => ?_⟩, ?_, ?_, fun c hc hmem => ?_⟩
  · rw [hv]
    exact hu.encodeStart n result
  · rw [hr]
    exact (Starts.attempted_ignored n result r).trans hignored
  · by_cases hne : c = n
    · subst hne
      obtain ⟨-, hno, hfew, hleft⟩ := hseries hc
      have hattempt := series_encodeStart hu (hnone c hc) hno hfew hleft
      rw [hv, hr]
      exact hattempt.frame ⟨fun _ _ => rfl, fun _ _ => Iff.rfl, fun _ _ => rfl⟩
        (Nat.lt_succ_self c).ne
    · exact (h.budgeted.2 c (hfresh c hc hne)).frame hframe' hne
  · exact h.numbered.frame hframe' (hcommand' ▸ hn) (hcommand' ▸ hcommand) hfresh
  · show -2 ^ 31 ≤ v.retryTimes ∧ v.retryTimes < 2 ^ 31
    rw [hv]
    exact range_encodeStart hrange n result
  · -- the retry that is posted is the one of this attempt
    rcases u.encodeStart_cases n result with
      ⟨-, heq⟩ | ⟨rfl, hagain, heq⟩ | ⟨-, -, heq⟩
    · rw [hv, heq] at hmem
      exact absurd hmem (hnone c hc)
    · rw [heq] at hv
      rw [Starts.attempted_failed] at hr
      rw [hv] at hmem
      obtain rfl := (hu.mem_tasks_again.mp hmem).resolve_left (hnone c hc)
      obtain ⟨hempty, -, hfew, hleft⟩ := hseries hc
      rw [hv, hr]
      constructor
      · exact fun c' hc' => (hu.mem_tasks_again.mp hc').resolve_left (hempty c')
      · show Left (int (u.retryTimes + 1)) ((c :: r.failures).count c)
        rw [List.count_cons_self]
        exact ((left_iff hfew).mp (hleft rfl)).2 (((hleft rfl).again hfew).mp hagain)
    · rw [hv, heq] at hmem
      exact absurd hmem (hnone c hc)

/-- An attempt that was posted is made. -/
theorem OnBudget.encodeStart (h : OnBudget (s, r)) {u : Streamer} (hw : u.Window) {now : Int}
    (hu : u = { s with now := now, queue := u.queue }) {c0 : Nat}
    (htasks : s.tasks = .encodeStart c0 :: u.tasks) (result : Int) :
    OnBudget (u.encodeStart c0 result, r.attempted c0 result) := by
  have hretry : u.retryTimes = s.retryTimes := by rw [hu]
  have hcommand : u.command = s.command := by rw [hu]
  have hsucceeded : u.succeeded = s.succeeded := by rw [hu]
  have hhead : .encodeStart c0 ∈ s.tasks := by
    rw [htasks]
    exact List.mem_cons_self
  have hrest := h.head htasks
  have hframe : Frame c0 (s, r) (u, r) := by
    refine ⟨fun c hne => ?_, fun c _ => by rw [hsucceeded], fun _ _ => rfl⟩
    show u.tasks.count _ = s.tasks.count _
    rw [htasks, List.count_cons_of_ne fun he => hne (Task.encodeStart.inj he).symm]
  refine h.attempt hframe hw rfl rfl h.budgeted.1 ?_ hcommand.ge ?_ ?_ ?_ fun hc => ?_
  · rw [hcommand]
    exact h.numbered.posted c0 hhead
  · rw [hretry]
    exact h.range
  · exact fun c hc _ => (Starts.attempted_fresh c0 result r) ▸ hc
  · exact fun c hc => hrest c ((Starts.attempted_fresh c0 result r) ▸ hc)
  · rw [Starts.attempted_fresh] at hc
    obtain ⟨-, hno, hfew⟩ := (h.budgeted.2 c0 hc).of_mem hhead
    obtain ⟨honly, hleft⟩ := h.alone c0 hc hhead
    refine ⟨fun c hmem => ?_, ?_, hfew, fun _ => ?_⟩
    · obtain rfl := honly c (by rw [show (s, r).1.tasks = _ from htasks]; exact .tail _ hmem)
      exact hrest c hc hmem
    · rw [hsucceeded]
      exact hno
    · rw [hretry]
      exact hleft

/-- The number of the next start has not been used. -/
theorem Numbered.next {w : Streamer × Starts} (h : Numbered w) :
    w.1.command + 1 ∉ w.2.fresh ∧ .encodeStart (w.1.command + 1) ∉ w.1.tasks ∧
      w.1.command + 1 ∉ w.1.succeeded ∧ w.1.command + 1 ∉ w.2.failures :=
  ⟨fun hc => absurd (h.fresh _ hc) (by omega), fun hc => absurd (h.posted _ hc) (by omega),
    fun hc => absurd (h.succeeded _ hc) (by omega), fun hc => absurd (h.failed _ hc) (by omega)⟩

/-- The state in which a `VideoData` makes its first attempt. -/
def asked (s : Streamer) : Streamer :=
  { s with lastCommand := some .videoData, command := s.command + 1 }

theorem onVideoData_asked (hstarted : s.started = false) (result : Int) :
    s.onVideoData result =
      { (asked s).encodeStart (s.command + 1) result with started := true } :=
  if_neg (by rw [hstarted]; exact Bool.false_ne_true)

theorem record_fresh (hidle : s.Idle) (hstarted : s.started = false) (result : Int) :
    s.record (.videoData result) r = { r.attempted (s.command + 1) result with
      fresh := (s.command + 1) :: r.fresh } := by
  simp [record, hidle, hstarted]

theorem record_unasked (hidle : ¬ s.Idle) (result : Int) :
    s.record (.videoData result) r =
      if s.started then r else r.attempted (s.command + 1) result := by
  simp [record, hidle]

/-- A `VideoData` that begins a series. -/
theorem OnBudget.fresh (h : OnBudget (s, r)) (hidle : s.Idle) (hstarted : s.started = false)
    {result : Int} (hzero : result = -1 → s.retryTimes = 0) :
    OnBudget (s.onVideoData result, s.record (.videoData result) r) := by
  have hnil : s.tasks = [] := queue_eq_nil.mp hidle.2
  have hempty : ∀ c, .encodeStart c ∉ s.tasks := by
    intro c
    rw [hnil]
    exact List.not_mem_nil
  obtain ⟨-, -, hno, hfailed⟩ := h.numbered.next
  have hcount : r.failures.count (s.command + 1) = 0 := List.count_eq_zero_of_not_mem hfailed
  have hframe : Frame (s.command + 1) (s, r) (asked s, r) :=
    ⟨fun _ _ => rfl, fun _ _ => Iff.rfl, fun _ _ => rfl⟩
  rw [onVideoData_asked hstarted, record_fresh hidle hstarted]
  refine h.attempt hframe h.window rfl rfl h.budgeted.1 le_rfl (Nat.le_succ _) h.range ?_
    (fun c _ => hempty c) fun _ => ⟨hempty, hno, ?_, fun hresult => ?_⟩
  · exact fun c hc hne => (List.mem_cons.mp hc).resolve_left hne
  · rw [hcount]
    decide
  · rw [hcount]
    exact (left_zero_iff h.range.1 h.range.2).mpr (hzero hresult)

/-- A `VideoData` that finds something posted, or a session open. -/
theorem OnBudget.unasked (h : OnBudget (s, r)) (hidle : ¬ s.Idle) (hstarted : s.started = false)
    {result : Int}
    (hlast : result = -1 → RetryPending (s, r) → ¬ s.Again ∧ ¬ s.failed.Again) :
    OnBudget (s.onVideoData result, s.record (.videoData result) r) := by
  have hw : (asked s).Window := h.window
  rw [onVideoData_asked hstarted, record_unasked hidle, hstarted, if_neg Bool.false_ne_true]
  -- whatever comes of the attempt, it is not one of a series
  have hne : ∀ c ∈ r.fresh, c ≠ s.command + 1 := fun c hc =>
    (Nat.lt_succ_of_le (h.numbered.fresh c hc)).ne
  have hasked : Frame (s.command + 1) (s, r) (asked s, r) :=
    ⟨fun _ _ => rfl, fun _ _ => Iff.rfl, fun _ _ => rfl⟩
  have hattempt := hasked.encodeStart hw result
  have hframe : Frame (s.command + 1) (s, r)
      ({ (asked s).encodeStart (s.command + 1) result with started := true },
        r.attempted (s.command + 1) result) :=
    ⟨hattempt.posted, hattempt.succeeded, hattempt.failures⟩
  have hcommand := encodeStart_command (asked s) (s.command + 1) result
  have hrange : -2 ^ 31 ≤ (asked s).retryTimes ∧ (asked s).retryTimes < 2 ^ 31 := h.range
  refine ⟨hw.encodeStart _ result, ⟨?_, fun c hc => ?_⟩, ?_, range_encodeStart hrange _ result,
    fun c hc hmem => ?_⟩
  · exact (Starts.attempted_ignored _ result r).trans h.budgeted.1
  · rw [Starts.attempted_fresh] at hc
    exact (h.budgeted.2 c hc).frame hframe (hne c hc)
  · refine h.numbered.frame hframe hcommand.ge ((Nat.le_succ _).trans hcommand.ge) fun c hc _ => ?_
    exact (Starts.attempted_fresh _ result r) ▸ hc
  · rw [Starts.attempted_fresh] at hc
    have hposted : .encodeStart c ∈ s.tasks := (hframe.mem_tasks (hne c hc)).mp hmem
    obtain ⟨honly, hleft⟩ := h.alone c hc hposted
    obtain ⟨-, -, hfew⟩ := (h.budgeted.2 c hc).of_mem hposted
    rcases (asked s).encodeStart_cases (s.command + 1) result with
      ⟨hresult, heq⟩ | ⟨rfl, hagain, -⟩ | ⟨rfl, -, heq⟩
    · rw [heq, Starts.attempted_opened _ hresult]
      exact ⟨honly, hleft⟩
    · exact absurd hagain (hlast rfl ⟨c, hc, hposted⟩).1
    · rw [heq, Starts.attempted_failed]
      refine ⟨honly, ?_⟩
      show Left (int (s.retryTimes + 1)) (((s.command + 1) :: r.failures).count c)
      rw [List.count_cons_of_ne (hne c hc).symm]
      exact (hleft.other_iff hfew).mpr (hlast rfl ⟨c, hc, hposted⟩)

theorem OnBudget.callback (h : OnBudget (s, r)) {result : Int} {t : Streamer}
    (ht : s.step (.callback result) = some t) : OnBudget (t, s.record (.callback result) r) := by
  obtain ⟨⟨m, q⟩, hnext, rfl⟩ := Option.map_eq_some_iff.mp ht
  have hqueue := (Looper.next_eq_some.mp hnext).1
  let u : Streamer := { s with queue := q }
  have hw : u.Window := fun m' hm' =>
    h.window m' (by rw [show (s, r).1.queue = _ from hqueue]; exact List.mem_cons_of_mem m hm')
  have htasks : s.tasks = m.what :: u.tasks := by
    rw [tasks, hqueue]
    rfl
  have hrecord : s.record (.callback result) r = r.ran result m.what := by
    simp [record, hnext]
  rw [hrecord]
  show OnBudget (u.runTask result m.what, _)
  cases hwhat : m.what with
  | encodeStart c0 =>
    rw [hwhat] at htasks
    have hu : u = { s with now := s.now, queue := u.queue } := rfl
    exact h.encodeStart hw hu htasks result
  | encodeStop =>
    rw [hwhat] at htasks
    refine h.congr (u := u.encodeStop) hw (fun c => ?_) rfl rfl rfl
    have hne : Task.encodeStop ≠ .encodeStart c := by simp
    rw [htasks, List.count_cons_of_ne hne]
    rfl

theorem OnBudget.step {t : Streamer} {e : StreamerEvent} (h : OnBudget (s, r))
    (hC : KeepsBudget (s, r) e) (ht : s.step e = some t) : OnBudget (t, s.record e r) := by
  cases e with
  | videoData result =>
    obtain rfl := Option.some.inj ht
    obtain ⟨hfresh, hlast⟩ := hC
    by_cases hidle : s.Idle
    · obtain ⟨hstarted, hzero⟩ := hfresh hidle
      exact h.fresh hidle hstarted hzero
    · cases hstarted : s.started with
      | false => exact h.unasked hidle hstarted (hlast hstarted)
      | true =>
        rw [record_unasked hidle, hstarted, if_pos rfl]
        rw [show s.onVideoData result = { s with lastCommand := some .videoData } from
          if_pos hstarted]
        exact h.congr h.window (fun _ => rfl) rfl rfl rfl
  | recvaddrData =>
    obtain rfl := Option.some.inj ht
    have hw : ({ s with started := false, lastCommand := some .recvaddrData } : Streamer).Window :=
      h.window
    refine h.congr (hw.postDelayed _) (fun c => ?_) rfl rfl rfl
    rw [onRecvaddrData, hw.tasks_postDelayed, List.count_append]
    rfl
  | callback result => exact h.callback ht
  | _ =>
    rcases quiet_cases (by trivial) ht with ⟨_, _, _, he, -⟩ | ⟨-, rfl⟩ |
      ⟨now, isPreview, hnow, rfl⟩
    · cases he
    · refine h.congr ?_ (fun c => ?_) ?_ ?_ ?_ <;> unfold Streamer.onPreviewFrame <;> split
      all_goals first | rfl | exact h.window
    · refine h.congr (fun m hm => ?_) (fun c => rfl) rfl rfl rfl
      have := h.window m hm
      show m.due ≤ now + 1000
      change m.due ≤ s.now + 1000 at this
      omega

theorem OnBudget.machine_step {w w' : Streamer × Starts} {e : StreamerEvent} (h : OnBudget w)
    (hC : KeepsBudget w e) (ht : budgetMachine.step w e = some w') : OnBudget w' := by
  obtain ⟨s, r⟩ := w
  obtain ⟨t, r'⟩ := w'
  obtain ⟨ht, hrecord⟩ := (streamerMachine.withHistory_step_eq_some).mp ht
  change r' = s.record e r at hrecord
  rw [hrecord]
  exact h.step hC ht

/-- **No start is ignored, and each gets five attempts, if nothing has used up its attempts and
nothing else uses them up.** -/
theorem budgeted_of_keepsBudget (es : List StreamerEvent)
    (hes : budgetMachine.Each KeepsBudget es) : budgetMachine.Always Budgeted es := by
  exact budgetMachine.always_of_each onBudget_start (fun _ _ _ h hC ht => h.machine_step hC ht)
    (fun _ h => h.budgeted) hes

/-- Five attempts fail, the stream is stopped, and a second later it is started again. -/
def secondStart : List StreamerEvent :=
  [.videoData (-1), .advance 1000, .callback (-1), .advance 1000, .callback (-1), .advance 1000,
    .callback (-1), .advance 1000, .callback (-1), .recvaddrData, .advance 1000, .callback 0,
    .videoData (-1)]

/-- A start that succeeds at the third attempt, a stop, and a start that succeeds at once. -/
def startedAgain : List StreamerEvent :=
  [.videoData (-1), .advance 1000, .callback (-1), .advance 1000, .callback 0, .recvaddrData,
    .advance 1000, .callback 0, .videoData 0]

/-- After five failures, a start gets one attempt only. -/
theorem not_forall_budgeted : ¬ ∀ es : List StreamerEvent, budgetMachine.Always Budgeted es := by
  intro h
  have hrun : (budgetMachine.run secondStart).map
      (fun w => (w.2.fresh, w.2.failures.count 2, w.1.tasks, w.1.succeeded)) =
      some ([2, 1], 1, [], []) := by
    decide
  obtain ⟨w, hw, hout⟩ := Option.map_eq_some_iff.mp hrun
  simp only [Prod.mk.injEq] at hout
  obtain ⟨hfresh, hcount, htasks, hsucceeded⟩ := hout
  have hseries := ((h secondStart).last hw).2 2 (by rw [hfresh]; decide)
  cases hseries with
  | trying hone =>
    rw [htasks] at hone
    exact absurd hone (by decide)
  | opened _ hyes =>
    rw [hsucceeded] at hyes
    cases hyes
  | failed _ _ hfive =>
    rw [hcount] at hfive
    exact absurd hfive (by decide)

theorem budgeted_of_keepsBudget_startedAgain :
    budgetMachine.Each KeepsBudget startedAgain ∧ budgetMachine.Always Budgeted startedAgain := by
  have hrun : ((budgetMachine.guard KeepsBudget).run startedAgain).map
      (fun w => (w.2.fresh, w.1.tasks, w.1.succeeded)) = some ([2, 1], [], [2, 1]) := by
    decide
  obtain ⟨w, hw, -⟩ := Option.map_eq_some_iff.mp hrun
  obtain ⟨-, heach⟩ := budgetMachine.run_of_guard hw
  exact ⟨heach, budgeted_of_keepsBudget startedAgain heach⟩

/-! ## The condition is exact

Where a series has too few attempts left or too many, they come to light when all of them
fail. -/

section Doomed

variable {es : List StreamerEvent}

theorem doomed_of_first {P : Streamer × Starts → Prop} (hs : budgetMachine.run es = some (s, r))
    (hw : s.Window) {task : Task} {rest : List Task} (htasks : s.tasks = task :: rest)
    (result : Int) (h : ∀ es' (u : Streamer), u.tasks = rest → u.Window →
      u = { s with now := u.now, queue := u.queue } →
      budgetMachine.run es' = some (u.runTask result task, r.ran result task) →
      budgetMachine.Doomed Quiet P es') : budgetMachine.Doomed Quiet P es := by
  obtain ⟨ms, m, u, rfl, hnext, hrest, hwindow, hu⟩ := exists_next hw htasks
  have hadvance : budgetMachine.run (es ++ [.advance ms]) =
      some ({ s with now := s.now + ms }, r) :=
    budgetMachine.run_concat_eq_some.mpr ⟨_, hs, rfl⟩
  have hcallback : budgetMachine.run (es ++ [.advance ms] ++ [.callback result]) =
      some (u.runTask result m.what, r.ran result m.what) := by
    refine budgetMachine.run_concat_eq_some.mpr ⟨_, hadvance, ?_⟩
    refine (streamerMachine.withHistory_step_eq_some).mpr ⟨?_, ?_⟩
    · show (Looper.next (s.now + ms) s.queue).map _ = _
      rw [hnext]
      show some (Streamer.runTask result { s with now := s.now + ms, queue := u.queue } m.what) = _
      rw [← hu]
    · simp [record, hnext]
  exact StepMachine.doomed_of_concat (e := .advance ms) trivial
    (StepMachine.doomed_of_concat (e := .callback result) trivial
      (h _ u hrest hwindow (by rw [hu]) hcallback))

/-- What is posted before the attempt of the series `c` can be run without touching it. -/
theorem doomed_of_front {c f : Nat} {k : Int} {front rest : List Task}
    (hs : budgetMachine.run es = some (s, r)) (hw : s.Window)
    (htasks : s.tasks = front ++ .encodeStart c :: rest) (hfront : .encodeStart c ∉ front)
    (hc : c ∈ r.fresh) (hretry : s.retryTimes = k) (hfailures : r.failures.count c = f)
    (h : ∀ es' s' r', budgetMachine.run es' = some (s', r') → s'.Window →
      s'.tasks = .encodeStart c :: rest → c ∈ r'.fresh → s'.retryTimes = k →
      r'.failures.count c = f → budgetMachine.Doomed Quiet Budgeted es') :
    budgetMachine.Doomed Quiet Budgeted es := by
  induction front generalizing es s r with
  | nil => exact h es s r hs hw htasks hc hretry hfailures
  | cons task front ih =>
    replace hfront : .encodeStart c ∉ front := fun hmem => hfront (List.mem_cons_of_mem task hmem)
    refine doomed_of_first hs hw htasks 0 fun es' u hrest hwu hu hrun => ?_
    have hretry' : u.retryTimes = k := by
      rw [hu]
      exact hretry
    cases task with
    | encodeStop => exact ih hrun hwu hrest hfront hc hretry' hfailures
    | encodeStart c0 =>
      change budgetMachine.run es' = some (u.encodeStart c0 0, r.attempted c0 0) at hrun
      rw [encodeStart_opened c0 (by decide), Starts.attempted_opened c0 (by decide)] at hrun
      exact ih hrun hwu hrest hfront hc hretry' hfailures

/-- A series that has too few attempts left, or too many, when they are all made and fail. -/
theorem doomed_of_not_left {c : Nat} (n : Nat) (hs : budgetMachine.run es = some (s, r))
    (hw : s.Window) (hc : c ∈ r.fresh) (hmem : .encodeStart c ∈ s.tasks)
    (hn : r.failures.count c + n = 5)
    (hnot : r.failures.count c < 5 → ¬ Left s.retryTimes (r.failures.count c)) :
    budgetMachine.Doomed Quiet Budgeted es := by
  induction n generalizing es s r with
  | zero =>
    -- a sixth attempt is posted
    refine StepMachine.doomed_of_not hs fun hB => ?_
    obtain ⟨-, -, hfew⟩ := (hB.2 c hc).of_mem hmem
    change r.failures.count c < 5 at hfew
    omega
  | succ n ih =>
    obtain ⟨front, rest, htasks, hfront⟩ := List.eq_append_cons_of_mem hmem
    refine doomed_of_front hs hw htasks hfront hc rfl rfl
      fun es' s' r' hrun hw' htasks' hc' hretry hfailures => ?_
    by_cases hB : Budgeted (s', r')
    · obtain ⟨hone, hno, hfew⟩ := (hB.2 c hc').of_mem (htasks' ▸ List.mem_cons_self)
      have hrest : .encodeStart c ∉ rest := by
        intro hmem'
        rw [show (s', r').1.tasks = _ from htasks', List.count_cons_self] at hone
        have hpos := List.count_pos_iff.mpr hmem'
        omega
      -- the attempt fails
      refine doomed_of_first hrun hw' htasks' (-1) fun es'' u hu_tasks hwu hu hrun' => ?_
      have hretry' : u.retryTimes = s.retryTimes := by
        rw [hu]
        exact hretry
      have hno' : c ∉ u.succeeded := by
        rw [hu]
        exact hno
      have hfew' : r'.failures.count c < 5 := hfew
      have hnot' : ¬ Left u.retryTimes (r'.failures.count c) := by
        rw [hretry', hfailures]
        exact hnot (hfailures ▸ hfew')
      rw [left_iff hfew'] at hnot'
      change budgetMachine.run es'' = some (u.encodeStart c (-1), r'.attempted c (-1)) at hrun'
      by_cases hagain : u.Again ↔ r'.failures.count c + 1 < 5
      · -- the counter goes wrong later
        have hleft := fun hleft => hnot' ⟨hagain, hleft⟩
        obtain ⟨hfew1, hleft⟩ := Classical.not_imp.mp hleft
        rw [encodeStart_again c (hagain.mpr hfew1), Starts.attempted_failed] at hrun'
        have hcount : (c :: r'.failures).count c = r'.failures.count c + 1 := List.count_cons_self
        refine ih hrun' (hwu.failed.postDelayed _) hc' (hwu.mem_tasks_again.mpr (Or.inr rfl)) ?_
          fun _ hleft' => hleft ?_
        · show (c :: r'.failures).count c + n = 5
          omega
        · change Left (int (u.retryTimes + 1)) ((c :: r'.failures).count c) at hleft'
          rwa [hcount] at hleft'
      · refine StepMachine.doomed_of_not hrun' fun hB' => hagain ?_
        have hfresh : c ∈ (r'.attempted c (-1)).fresh := hc'
        exact (series_failed_iff hwu (hu_tasks ▸ hrest) hno' hfew').mp (hB'.2 c hfresh)
    · exact StepMachine.doomed_of_not hrun hB

/-- A series that does not begin at `0`. -/
theorem doomed_of_used_up (hs : budgetMachine.run es = some (s, r)) (h : OnBudget (s, r))
    (hidle : s.Idle) (hstarted : s.started = false) (hused : s.retryTimes ≠ 0) :
    budgetMachine.Doomed Quiet Budgeted (es ++ [.videoData (-1)]) := by
  have hnil : s.tasks = [] := queue_eq_nil.mp hidle.2
  have hw : (asked s).Window := h.window
  obtain ⟨-, -, hno, hfailed⟩ := h.numbered.next
  have hcount : ((s.command + 1) :: r.failures).count (s.command + 1) = 1 := by
    rw [List.count_cons_self, List.count_eq_zero_of_not_mem hfailed]
  have hrun : budgetMachine.run (es ++ [.videoData (-1)]) =
      some (s.onVideoData (-1), s.record (.videoData (-1)) r) :=
    budgetMachine.run_concat_eq_some.mpr ⟨_, hs, rfl⟩
  rw [onVideoData_asked hstarted, record_fresh hidle hstarted, Starts.attempted_failed] at hrun
  have hnot := mt (left_zero_iff h.range.1 h.range.2).mp hused
  rw [left_iff (by decide)] at hnot
  by_cases hagain : (asked s).Again
  · rw [encodeStart_again _ hagain] at hrun
    refine doomed_of_not_left (c := s.command + 1) 4 hrun (hw.failed.postDelayed _)
      List.mem_cons_self (hw.mem_tasks_again.mpr (Or.inr rfl)) ?_
      fun _ hleft => hnot ⟨iff_of_true hagain (by decide), fun _ => ?_⟩
    · show ((s.command + 1) :: r.failures).count (s.command + 1) + 4 = 5
      omega
    · change Left (int (s.retryTimes + 1)) (((s.command + 1) :: r.failures).count _) at hleft
      rwa [hcount] at hleft
  · rw [encodeStart_failed _ hagain] at hrun
    refine StepMachine.doomed_of_not hrun fun hB => ?_
    cases hB.2 (s.command + 1) List.mem_cons_self with
    | trying hone =>
      change s.tasks.count _ = 1 at hone
      rw [hnil, List.count_nil] at hone
      omega
    | opened _ hyes => exact hno hyes
    | failed _ _ hfive =>
      change ((s.command + 1) :: r.failures).count _ = 5 at hfive
      omega

/-- A failure that uses up an attempt of a series. -/
theorem doomed_of_unasked (hs : budgetMachine.run es = some (s, r)) (h : OnBudget (s, r))
    (hstarted : s.started = false) (hpending : RetryPending (s, r))
    (hlast : ¬ (¬ s.Again ∧ ¬ s.failed.Again)) :
    budgetMachine.Doomed Quiet Budgeted (es ++ [.videoData (-1)]) := by
  obtain ⟨c, hc, hmem⟩ := hpending
  have hidle : ¬ s.Idle := by
    intro hidle
    change .encodeStart c ∈ s.tasks at hmem
    rw [queue_eq_nil.mp hidle.2] at hmem
    cases hmem
  have hw : (asked s).Window := h.window
  have hne : s.command + 1 ≠ c := (Nat.lt_succ_of_le (h.numbered.fresh c hc)).ne'
  have hcount : ((s.command + 1) :: r.failures).count c = r.failures.count c :=
    List.count_cons_of_ne hne
  obtain ⟨-, -, hfew⟩ := (h.budgeted.2 c hc).of_mem hmem
  change r.failures.count c < 5 at hfew
  have hnot := mt ((h.alone c hc hmem).2.other_iff hfew).mp hlast
  have hrun : budgetMachine.run (es ++ [.videoData (-1)]) =
      some (s.onVideoData (-1), s.record (.videoData (-1)) r) :=
    budgetMachine.run_concat_eq_some.mpr ⟨_, hs, rfl⟩
  rw [onVideoData_asked hstarted, record_unasked hidle, hstarted, if_neg Bool.false_ne_true,
    Starts.attempted_failed] at hrun
  by_cases hagain : (asked s).Again
  · rw [encodeStart_again _ hagain] at hrun
    refine doomed_of_not_left (c := c) (5 - r.failures.count c) hrun (hw.failed.postDelayed _) hc
      (hw.mem_tasks_again.mpr (Or.inl hmem)) ?_ fun _ => ?_
    · show ((s.command + 1) :: r.failures).count c + _ = 5
      omega
    · show ¬ Left (int (s.retryTimes + 1)) (((s.command + 1) :: r.failures).count c)
      rwa [hcount]
  · rw [encodeStart_failed _ hagain] at hrun
    refine doomed_of_not_left (c := c) (5 - r.failures.count c) hrun hw.failed hc hmem ?_
      fun _ => ?_
    · show ((s.command + 1) :: r.failures).count c + _ = 5
      omega
    · show ¬ Left (int (s.retryTimes + 1)) (((s.command + 1) :: r.failures).count c)
      rwa [hcount]

theorem doomed_of_not_keepsBudget {t : Streamer × Starts} {e : StreamerEvent}
    (hs : budgetMachine.run es = some (s, r)) (h : OnBudget (s, r))
    (ht : budgetMachine.step (s, r) e = some t) (hC : ¬ KeepsBudget (s, r) e) :
    budgetMachine.Doomed Quiet Budgeted (es ++ [e]) := by
  cases e with
  | videoData result =>
    rcases not_and_or.mp hC with hfresh | hlast
    rotate_left
    · obtain ⟨hstarted, hfailed⟩ := Classical.not_imp.mp hlast
      obtain ⟨rfl, hothers⟩ := Classical.not_imp.mp hfailed
      obtain ⟨hpending, hnot⟩ := Classical.not_imp.mp hothers
      exact doomed_of_unasked hs h hstarted hpending hnot
    · obtain ⟨hidle, hnot⟩ := Classical.not_imp.mp hfresh
      cases hstarted : s.started with
      | false =>
        obtain ⟨rfl, hused⟩ := Classical.not_imp.mp fun hzero => hnot ⟨hstarted, hzero⟩
        exact doomed_of_used_up hs h hidle hstarted hused
      | true =>
        -- the event is ignored
        have hrun := budgetMachine.run_concat_eq_some.mpr ⟨(s, r), hs, ht⟩
        refine StepMachine.doomed_of_not hrun fun hB => ?_
        obtain ⟨-, hrecord⟩ := (streamerMachine.withHistory_step_eq_some).mp ht
        have hignored := hB.1
        rw [hrecord] at hignored
        simp [record, hstarted, hidle] at hignored
  | _ => exact absurd trivial hC

end Doomed

/-- **The condition is exact**: a run keeps it exactly when every start gets its attempts, however
the run goes on, from any point on, without another event. -/
theorem safe_iff_keepsBudget (es : List StreamerEvent) (w : Streamer × Starts)
    (hw : budgetMachine.run es = some w) :
    budgetMachine.Safe Quiet Budgeted es ↔ budgetMachine.Each KeepsBudget es := by
  refine budgetMachine.safe_iff_each onBudget_start ?_ (fun _ h => h.budgeted) ?_ ?_ hw
  · rintro ⟨s, r⟩ e ⟨t, r'⟩ h hC ht
    exact h.machine_step hC ht
  · intro w e he
    cases e with
    | videoData => exact he.elim
    | _ => trivial
  · rintro es e ⟨s, r⟩ t hs h ht hC
    exact doomed_of_not_keepsBudget hs h ht hC

end PetDev.Stream
