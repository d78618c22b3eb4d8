import Mathlib.Data.List.Flatten
import Mathlib.Data.List.Forall2
import Mathlib.Data.List.Induction

/-!
# Frames put together from packets

A frame arrives in pieces.  A packet may carry a mark that tells its frame from the frames
beside it, some data, and the end of the frame; a packet may also be bogus.  An `Assembler`
collects data, and gives out a frame when the mark changes or the end comes.  It has room for
fewer than `limit` items: what does not fit is dropped and spoils the frame.

`exists_segments`: whatever the packets, they fall into consecutive segments, one for each
frame given out.  A frame is spoiled exactly when its segment holds a bogus packet or too much
data; otherwise it is all the data of its segment, and of one mark.

`out_of_sends`: the packets of a sender that keeps to the rules give its frames back.
-/

namespace PetDev

/-- What a packet says. -/
inductive Packet (κ α : Type*) where
  | bogus
  | chunk (mark : Option κ) (data : List α) (eof : Bool)

/-- A frame given out. -/
@[ext] structure Frame (α : Type*) where
  data : List α
  spoiled : Bool

structure Assembler (κ α : Type*) where
  mark : κ
  data : List α
  spoiled : Bool

variable {κ α : Type*}

namespace Packet

def data : Packet κ α → List α
  | bogus => []
  | chunk _ data _ => data

def mark : Packet κ α → Option κ
  | bogus => none
  | chunk mark _ _ => mark

@[simp] theorem data_bogus : (bogus : Packet κ α).data = [] := rfl

@[simp] theorem data_chunk (m : Option κ) (d : List α) (e : Bool) : (chunk m d e).data = d := rfl

@[simp] theorem mark_bogus : (bogus : Packet κ α).mark = none := rfl

@[simp] theorem mark_chunk (m : Option κ) (d : List α) (e : Bool) : (chunk m d e).mark = m := rfl

end Packet

namespace Assembler

/-- The frame so far. -/
def frame (a : Assembler κ α) : Frame α := ⟨a.data, a.spoiled⟩

/-- After the frame so far was given out. -/
def clear (a : Assembler κ α) : Assembler κ α := ⟨a.mark, [], false⟩

/-- A new mark ends a frame that has data. -/
def look [DecidableEq κ] (m : Option κ) (a : Assembler κ α) : Assembler κ α × List (Frame α) :=
  match m with
  | none => (a, [])
  | some k =>
    if a.mark ≠ k ∧ a.data ≠ [] then (⟨k, [], false⟩, [a.frame]) else ({ a with mark := k }, [])

/-- What does not fit is dropped. -/
def add (limit : Nat) (d : List α) (a : Assembler κ α) : Assembler κ α :=
  if a.data.length + d.length < limit then { a with data := a.data ++ d }
  else { a with spoiled := true }

/-- The data of a packet, and the end of the frame, which counts with data only. -/
def finish (limit : Nat) (d : List α) (eof : Bool) (a : Assembler κ α) :
    Assembler κ α × List (Frame α) :=
  if d = [] then (a, [])
  else if eof then ((a.add limit d).clear, [(a.add limit d).frame]) else (a.add limit d, [])

/-- One packet. -/
def step [DecidableEq κ] (limit : Nat) (a : Assembler κ α) :
    Packet κ α → Assembler κ α × List (Frame α)
  | .bogus => ({ a with spoiled := true }, [])
  | .chunk m d eof =>
    (((a.look m).1.finish limit d eof).1, (a.look m).2 ++ ((a.look m).1.finish limit d eof).2)

/-- The packets one after the other, with the frames given out. -/
def run [DecidableEq κ] (limit : Nat) (a : Assembler κ α) (ps : List (Packet κ α)) :
    Assembler κ α × List (Frame α) :=
  ps.foldl (fun r p => ((r.1.step limit p).1, r.2 ++ (r.1.step limit p).2)) (a, [])

end Assembler

/-! ## Segments -/

/-- The data of a segment, in order. -/
def carried (ps : List (Packet κ α)) : List α := ps.flatMap Packet.data

/-- A segment no sound frame can come from. -/
def Spoils (limit : Nat) (ps : List (Packet κ α)) : Prop :=
  Packet.bogus ∈ ps ∨ limit ≤ (carried ps).length

/-- All data of the segment is of the mark `k`, as far as the packets have marks. -/
def Marked (k : κ) (ps : List (Packet κ α)) : Prop :=
  ∀ p ∈ ps, p.data ≠ [] → ∀ m ∈ p.mark, m = k

/-- The frame is what the segment says. -/
structure Assembled (limit : Nat) (ps : List (Packet κ α)) (f : Frame α) : Prop where
  spoiled_iff : f.spoiled = true ↔ Spoils limit ps
  data_eq : f.spoiled = false → f.data = carried ps ∧ ∃ k, Marked k ps

@[simp] theorem carried_nil : carried ([] : List (Packet κ α)) = [] := rfl

@[simp] theorem carried_append (ps qs : List (Packet κ α)) :
    carried (ps ++ qs) = carried ps ++ carried qs := List.flatMap_append

@[simp] theorem carried_singleton (p : Packet κ α) : carried [p] = p.data :=
  List.flatMap_singleton ..

theorem marked_append {k : κ} {ps qs : List (Packet κ α)} :
    Marked k (ps ++ qs) ↔ Marked k ps ∧ Marked k qs := List.forall_mem_append

theorem marked_of_carried_eq_nil {ps : List (Packet κ α)} (h : carried ps = []) (k : κ) :
    Marked k ps := by
  intro p hp hd
  exact absurd (List.flatMap_eq_nil_iff.mp h p hp) hd

theorem marked_singleton {k : κ} {p : Packet κ α} :
    Marked k [p] ↔ (p.data ≠ [] → ∀ m ∈ p.mark, m = k) := List.forall_mem_singleton

/-- The packets since the last frame, and what the assembler has of them. -/
structure Open (limit : Nat) (ps : List (Packet κ α)) (a : Assembler κ α) : Prop where
  length_le : a.data.length ≤ (carried ps).length
  spoiled_iff : a.spoiled = true ↔ Spoils limit ps
  data_eq : a.spoiled = false → a.data = carried ps ∧ Marked a.mark ps

namespace Open

variable {limit : Nat} {ps : List (Packet κ α)} {a : Assembler κ α}

theorem nil (hl : 0 < limit) (k : κ) : Open limit [] (⟨k, [], false⟩ : Assembler κ α) where
  length_le := Nat.le_refl _
  spoiled_iff := by simp [Spoils, Nat.not_le.mpr hl]
  data_eq := fun _ => ⟨rfl, marked_of_carried_eq_nil rfl k⟩

theorem assembled (h : Open limit ps a) : Assembled limit ps a.frame where
  spoiled_iff := h.spoiled_iff
  data_eq := fun hs => ⟨(h.data_eq hs).1, a.mark, (h.data_eq hs).2⟩

theorem bogus (h : Open limit ps a) :
    Open limit (ps ++ [.bogus]) { a with spoiled := true } where
  length_le := by simpa using h.length_le
  spoiled_iff := by simp [Spoils]
  data_eq := by simp

/-- Without data, a packet may change the mark of a frame that has none yet. -/
theorem dataless (h : Open limit ps a) {m : Option κ} {eof : Bool} {k : κ}
    (hk : a.data = [] ∨ k = a.mark) :
    Open limit (ps ++ [.chunk m [] eof]) { a with mark := k } where
  length_le := by simpa using h.length_le
  spoiled_iff := by simpa [Spoils] using h.spoiled_iff
  data_eq := by
    intro hs
    obtain ⟨hd, hm⟩ := h.data_eq hs
    refine ⟨by simpa using hd, marked_append.mpr ⟨?_, by simp [Marked]⟩⟩
    rcases hk with hk | rfl
    · exact marked_of_carried_eq_nil (hd ▸ hk) k
    · exact hm

/-- A packet with data of the mark of the frame. -/
theorem add (h : Open limit ps a) {m : Option κ} {d : List α} {eof : Bool}
    (hm : ∀ k ∈ m, k = a.mark) : Open limit (ps ++ [.chunk m d eof]) (a.add limit d) := by
  unfold Assembler.add
  by_cases hfit : a.data.length + d.length < limit
  · rw [if_pos hfit]
    constructor
    · simpa using h.length_le
    · show a.spoiled = true ↔ _
      cases hs : a.spoiled with
      | true =>
        have := h.spoiled_iff.mp hs
        refine iff_of_true rfl ?_
        rcases this with hb | hl
        · exact Or.inl (List.mem_append_left _ hb)
        · exact Or.inr (by simp; omega)
      | false =>
        obtain ⟨hd, -⟩ := h.data_eq hs
        have hnot : ¬ Spoils limit ps := fun hsp => by simp [h.spoiled_iff.mpr hsp] at hs
        refine iff_of_false (by simp) ?_
        rintro (hb | hl)
        · exact hnot (Or.inl (by simpa using hb))
        · simp only [carried_append, carried_singleton, Packet.data_chunk, List.length_append] at hl
          rw [hd] at hfit
          omega
    · intro hs
      obtain ⟨hd, hmark⟩ := h.data_eq hs
      refine ⟨by simp [hd], marked_append.mpr ⟨hmark, marked_singleton.mpr fun _ => hm⟩⟩
  · rw [if_neg hfit]
    constructor
    · have := h.length_le
      simp only [carried_append, List.length_append]
      omega
    · refine iff_of_true rfl (Or.inr ?_)
      have := h.length_le
      simp only [carried_append, carried_singleton, Packet.data_chunk, List.length_append]
      omega
    · simp

end Open

/-! ## The packets fall into segments -/

namespace Assembler

variable {limit : Nat}

section Run

variable [DecidableEq κ]

@[simp] theorem run_nil (a : Assembler κ α) : a.run limit [] = (a, []) := rfl

theorem run_concat (a : Assembler κ α) (ps : List (Packet κ α)) (p : Packet κ α) :
    a.run limit (ps ++ [p]) =
      (((a.run limit ps).1.step limit p).1,
        (a.run limit ps).2 ++ ((a.run limit ps).1.step limit p).2) := by
  simp [run, List.foldl_append]

theorem run_append (a : Assembler κ α) (ps qs : List (Packet κ α)) :
    a.run limit (ps ++ qs) =
      (((a.run limit ps).1.run limit qs).1,
        (a.run limit ps).2 ++ ((a.run limit ps).1.run limit qs).2) := by
  induction qs using List.reverseRecOn with
  | nil => simp
  | append_singleton qs q ih => rw [← List.append_assoc, run_concat, run_concat, ih, List.append_assoc]

end Run

/-- What a packet does to the segment that is open: it closes up to two. -/
theorem finish_segments (hl : 0 < limit) {ps : List (Packet κ α)} {a : Assembler κ α}
    (h : Open limit ps a) {m : Option κ} (hm : ∀ k ∈ m, k = a.mark) (d : List α) (eof : Bool) :
    ∃ segs rest, segs.flatten ++ rest = ps ++ [.chunk m d eof] ∧
      List.Forall₂ (Assembled limit) segs (a.finish limit d eof).2 ∧
      Open limit rest (a.finish limit d eof).1 := by
  unfold finish
  by_cases hd : d = []
  · subst hd
    refine ⟨[], ps ++ [.chunk m [] eof], rfl, ?_, ?_⟩
    · rw [if_pos rfl]
      exact List.Forall₂.nil
    · rw [if_pos rfl]
      exact h.dataless (Or.inr rfl)
  · have hadd : Open limit (ps ++ [.chunk m d eof]) _ := h.add hm
    rw [if_neg hd]
    cases eof with
    | true =>
      refine ⟨[ps ++ [.chunk m d true]], [], by simp, ?_, Open.nil hl _⟩
      exact List.Forall₂.cons hadd.assembled List.Forall₂.nil
    | false => exact ⟨[], ps ++ [.chunk m d false], rfl, List.Forall₂.nil, hadd⟩

variable [DecidableEq κ]

theorem step_segments (hl : 0 < limit) {ps : List (Packet κ α)} {a : Assembler κ α}
    (h : Open limit ps a) (p : Packet κ α) :
    ∃ segs rest, segs.flatten ++ rest = ps ++ [p] ∧
      List.Forall₂ (Assembled limit) segs (a.step limit p).2 ∧
      Open limit rest (a.step limit p).1 := by
  cases p with
  | bogus => exact ⟨[], ps ++ [.bogus], rfl, List.Forall₂.nil, h.bogus⟩
  | chunk m d eof =>
    cases m with
    | none => exact finish_segments hl h (by simp) d eof
    | some k =>
      by_cases hflip : a.mark ≠ k ∧ a.data ≠ []
      · -- The frame so far ends before this packet.
        obtain ⟨segs, rest, hflat, hsegs, hopen⟩ :=
          finish_segments hl (Open.nil hl k) (m := some k) (by simp) d eof
        refine ⟨ps :: segs, rest, by simp [hflat], ?_, ?_⟩
        · simp only [step, look, if_pos hflip]
          exact List.Forall₂.cons h.assembled hsegs
        · simpa only [step, look, if_pos hflip] using hopen
      · -- It goes on, under the mark of this packet.
        have hk : a.data = [] ∨ k = a.mark := by
          by_cases hd : a.data = []
          · exact Or.inl hd
          · exact Or.inr (by by_contra hne; exact hflip ⟨fun he => hne he.symm, hd⟩)
        have h' : Open limit ps { a with mark := k } := by
          refine ⟨h.length_le, h.spoiled_iff, fun hs => ⟨(h.data_eq hs).1, ?_⟩⟩
          rcases hk with hk | rfl
          · exact marked_of_carried_eq_nil ((h.data_eq hs).1 ▸ hk) k
          · exact (h.data_eq hs).2
        simpa only [step, look, if_neg hflip, List.nil_append] using
          finish_segments hl h' (m := some k) (by simp) d eof

/-- **No data is mixed up, lost or given out twice.** -/
theorem exists_segments (hl : 0 < limit) (k : κ) (ps : List (Packet κ α)) :
    ∃ segs rest, segs.flatten ++ rest = ps ∧
      List.Forall₂ (Assembled limit) segs (run limit ⟨k, [], false⟩ ps).2 ∧
      Open limit rest (run limit ⟨k, [], false⟩ ps).1 := by
  induction ps using List.reverseRecOn with
  | nil => exact ⟨[], [], rfl, List.Forall₂.nil, Open.nil hl k⟩
  | append_singleton ps p ih =>
    obtain ⟨segs, rest, rfl, hsegs, hopen⟩ := ih
    obtain ⟨segs', rest', hflat, hsegs', hopen'⟩ := step_segments hl hopen p
    refine ⟨segs ++ segs', rest', ?_, ?_, ?_⟩
    · rw [List.flatten_append, List.append_assoc, hflat, List.append_assoc]
    · rw [run_concat]
      exact List.rel_append hsegs hsegs'
    · rw [run_concat]
      exact hopen'

end Assembler

/-! ## A sender that keeps to the rules -/

/-- `ps` carries the frame `f` under the mark `k`: every packet has the mark, and after the end
of the frame there is no more data. -/
structure Sends (k : κ) (f : List α) (ps : List (Packet κ α)) : Prop where
  marked : ∀ p ∈ ps, p.mark = some k
  carried_eq : carried ps = f
  eof_last : ∀ pre m d post, ps = pre ++ .chunk m d true :: post → d ≠ [] → carried post = []

/-- Frames one after the other, the last one under the mark `k`.  Frames that follow each other
differ in their marks, and each of them fits. -/
inductive Transmission (limit : Nat) : κ → List (List α) → List (Packet κ α) → Prop
  | nil (k : κ) : Transmission limit k [] []
  | concat {k k' : κ} {fs : List (List α)} {f : List α} {ps qs : List (Packet κ α)}
      (prior : Transmission limit k fs ps) (hk : k ≠ k') (hf : f ≠ []) (hlt : f.length < limit)
      (hs : Sends k' f qs) : Transmission limit k' (fs ++ [f]) (ps ++ qs)

theorem Sends.tail {k : κ} {f : List α} {p : Packet κ α} {ps : List (Packet κ α)}
    (h : Sends k f (p :: ps)) : Sends k (carried ps) ps where
  marked := fun q hq => h.marked q (List.mem_cons_of_mem p hq)
  carried_eq := rfl
  eof_last := fun pre m d post he => h.eof_last (p :: pre) m d post (by rw [he, List.cons_append])

namespace Assembler

variable {limit : Nat}

/-- The frame that would be given out next, if it has data. -/
def pending (a : Assembler κ α) : List (Frame α) := if a.data = [] then [] else [a.frame]

@[simp] theorem pending_of_nil {k : κ} {s : Bool} :
    (⟨k, [], s⟩ : Assembler κ α).pending = [] := if_pos rfl

theorem pending_of_ne {a : Assembler κ α} (h : a.data ≠ []) : a.pending = [a.frame] := if_neg h

variable [DecidableEq κ]

theorem run_cons (a : Assembler κ α) (p : Packet κ α) (ps : List (Packet κ α)) :
    a.run limit (p :: ps) =
      (((a.step limit p).1.run limit ps).1,
        (a.step limit p).2 ++ ((a.step limit p).1.run limit ps).2) := by
  have h : a.run limit ([p] ++ ps) = _ := run_append a [p] ps
  simpa [run] using h

/-- A packet under a new mark first gives out what is pending. -/
theorem step_of_mark {a : Assembler κ α} {k : κ} {p : Packet κ α} (hp : p.mark = some k)
    (ha : a.data = [] ∨ a.mark ≠ k) (hs : a.spoiled = false) :
    a.step limit p = ((step limit ⟨k, [], false⟩ p).1,
      a.pending ++ (step limit ⟨k, [], false⟩ p).2) := by
  obtain ⟨mark, data, spoiled⟩ := a
  obtain rfl : spoiled = false := hs
  cases p with
  | bogus => simp at hp
  | chunk m d eof =>
    obtain rfl : m = some k := hp
    by_cases hd : data = []
    · subst hd
      simp [step, look]
    · have hk : mark ≠ k := ha.resolve_left hd
      simp [step, look, hd, hk, pending_of_ne]

/-- The packets of one frame, from a state that has its first part. -/
theorem run_sends {k : κ} {f : List α} {ps : List (Packet κ α)} (hs : Sends k f ps)
    (d : List α) (hfit : (d ++ f).length < limit) :
    (run limit ⟨k, d, false⟩ ps).2 ++ (run limit ⟨k, d, false⟩ ps).1.pending =
        (⟨k, d ++ f, false⟩ : Assembler κ α).pending ∧
      (run limit ⟨k, d, false⟩ ps).1.mark = k ∧
      (run limit ⟨k, d, false⟩ ps).1.spoiled = false := by
  induction ps generalizing d f with
  | nil =>
    obtain rfl : [] = f := hs.carried_eq
    simp
  | cons p ps ih =>
    have htail := hs.tail
    have hf : p.data ++ carried ps = f := hs.carried_eq
    cases p with
    | bogus => exact absurd (hs.marked _ List.mem_cons_self) (by simp)
    | chunk m c eof =>
      obtain rfl : m = some k := hs.marked _ List.mem_cons_self
      rw [Packet.data_chunk] at hf
      subst hf
      have hstep : step limit ⟨k, d, false⟩ (.chunk (some k) c eof) =
          (⟨k, d, false⟩ : Assembler κ α).finish limit c eof := by
        simp [step, look]
      rw [run_cons, hstep]
      by_cases hc : c = []
      · -- A packet without data changes nothing.
        subst hc
        simpa [finish] using ih htail d (by simpa using hfit)
      have hadd : (⟨k, d, false⟩ : Assembler κ α).add limit c = ⟨k, d ++ c, false⟩ := by
        refine if_pos ?_
        simp only [List.length_append] at hfit ⊢
        omega
      cases eof with
      | false =>
        simpa [finish, hc, hadd] using ih htail (d ++ c) (by simpa using hfit)
      | true =>
        -- The frame is given out, and nothing follows.
        have hpost : carried ps = [] := hs.eof_last [] (some k) c ps rfl hc
        rw [hpost] at htail
        obtain ⟨hout, hmark, hsp⟩ := ih htail [] (by simp only [List.length_append] at *; simp; omega)
        rw [List.append_nil, pending_of_nil] at hout
        have hne : d ++ (c ++ carried ps) ≠ [] := by simp [hc]
        simp only [finish, if_neg hc, if_true, hadd, clear]
        refine ⟨?_, hmark, hsp⟩
        rw [List.append_assoc, hout, pending_of_ne hne, hpost]
        simp [frame]

/-- **The packets of a sender give its frames back**; the last frame may be pending still. -/
theorem out_of_sends {k : κ} {fs : List (List α)} {ps : List (Packet κ α)}
    (h : Transmission limit k fs ps) (k0 : κ) :
    (run limit ⟨k0, [], false⟩ ps).2 ++ (run limit ⟨k0, [], false⟩ ps).1.pending =
        fs.map (fun f => ⟨f, false⟩) ∧
      (run limit ⟨k0, [], false⟩ ps).1.spoiled = false ∧
      ((run limit ⟨k0, [], false⟩ ps).1.data = [] ∨ (run limit ⟨k0, [], false⟩ ps).1.mark = k) := by
  induction h with
  | nil k => simp
  | @concat k k' fs f ps qs prior hk hf hlt hs ih =>
    obtain ⟨hout, hsp, hmark⟩ := ih
    have hready : (run limit ⟨k0, [], false⟩ ps).1.data = [] ∨
        (run limit ⟨k0, [], false⟩ ps).1.mark ≠ k' := by
      rcases hmark with hd | hm
      · exact Or.inl hd
      · exact Or.inr (hm ▸ hk)
    rw [run_append]
    cases qs with
    | nil => exact absurd hs.carried_eq.symm hf
    | cons q qs =>
      have hq : q.mark = some k' := hs.marked q List.mem_cons_self
      have hrun := run_sends hs [] (by simpa using hlt)
      rw [run_cons] at hrun
      rw [run_cons, step_of_mark hq hready hsp]
      obtain ⟨hout', hmark', hsp'⟩ := hrun
      refine ⟨?_, hsp', Or.inr hmark'⟩
      have hne : ([] : List α) ++ f ≠ [] := by simpa using hf
      rw [pending_of_ne (a := ⟨k', [] ++ f, false⟩) hne] at hout'
      calc _ = ((run limit ⟨k0, [], false⟩ ps).2 ++ (run limit ⟨k0, [], false⟩ ps).1.pending) ++
            ((step limit ⟨k', [], false⟩ q).2 ++
              (run limit (step limit ⟨k', [], false⟩ q).1 qs).2 ++
              (run limit (step limit ⟨k', [], false⟩ q).1 qs).1.pending) := by
            simp only [List.append_assoc]
        _ = _ := by
            rw [hout, hout']
            simp [frame]

/-! ## Runs without a spoiled frame -/

omit [DecidableEq κ] in
/-- Nothing is spoiled, neither what was given out nor what is held. -/
def Sound (r : Assembler κ α × List (Frame α)) : Prop :=
  r.1.spoiled = false ∧ ∀ f ∈ r.2, f.spoiled = false

omit [DecidableEq κ] in
/-- Then all data fitted. -/
theorem fits_of_sound {a : Assembler κ α} {d : List α} {eof : Bool} (hd : d ≠ [])
    (h : Sound (a.finish limit d eof)) : a.data.length + d.length < limit := by
  by_contra hfit
  have hadd : a.add limit d = { a with spoiled := true } := if_neg hfit
  unfold finish at h
  rw [if_neg hd, hadd] at h
  cases eof with
  | true => exact absurd (h.2 _ List.mem_cons_self) (by simp [frame])
  | false => exact absurd h.1 (by simp)

omit [DecidableEq κ] in
theorem finish_spoiled {a : Assembler κ α} (ha : a.spoiled = true) (d : List α) (eof : Bool) :
    ¬ Sound (a.finish limit d eof) := by
  have hadd : (a.add limit d).spoiled = true := by
    unfold add
    split_ifs
    · exact ha
    · rfl
  intro h
  unfold finish at h
  by_cases hd : d = []
  · rw [if_pos hd] at h
    exact absurd h.1 (by simp [ha])
  · rw [if_neg hd] at h
    cases eof with
    | true => exact absurd (h.2 _ List.mem_cons_self) (by simp [frame, hadd])
    | false => exact absurd h.1 (by simp [hadd])

theorem step_spoiled {a : Assembler κ α} (ha : a.spoiled = true) (p : Packet κ α) :
    ¬ Sound (a.step limit p) := by
  cases p with
  | bogus => exact fun h => absurd h.1 (by simp [step])
  | chunk m d eof =>
    intro h
    cases m with
    | none => exact finish_spoiled ha d eof h
    | some k =>
      simp only [step, look] at h
      split_ifs at h with hflip
      · exact absurd (h.2 a.frame (by simp)) (by simp [frame, ha])
      · exact finish_spoiled (a := { a with mark := k }) ha d eof h

theorem run_spoiled {a : Assembler κ α} (ha : a.spoiled = true) (ps : List (Packet κ α)) :
    ¬ Sound (a.run limit ps) := by
  induction ps generalizing a with
  | nil => exact fun h => absurd h.1 (by simp [ha])
  | cons p ps ih =>
    intro h
    rw [run_cons] at h
    by_cases hs : (a.step limit p).1.spoiled = true
    · exact ih hs ⟨h.1, fun f hf => h.2 f (List.mem_append_right _ hf)⟩
    · refine step_spoiled ha p ⟨by simpa using hs, fun f hf => ?_⟩
      exact h.2 f (List.mem_append_left _ hf)

theorem sound_of_run_cons {a : Assembler κ α} {p : Packet κ α} {ps : List (Packet κ α)}
    (h : Sound (a.run limit (p :: ps))) :
    Sound (a.step limit p) ∧ Sound ((a.step limit p).1.run limit ps) := by
  rw [run_cons] at h
  have hrest : Sound ((a.step limit p).1.run limit ps) :=
    ⟨h.1, fun f hf => h.2 f (List.mem_append_right _ hf)⟩
  refine ⟨⟨?_, fun f hf => h.2 f (List.mem_append_left _ hf)⟩, hrest⟩
  by_contra hs
  exact run_spoiled (by simpa using hs) ps hrest

end Assembler

end PetDev
