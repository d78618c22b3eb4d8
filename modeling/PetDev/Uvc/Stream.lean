import PetDev.Lib.Emitting
import PetDev.Lib.FrameAssembly
import PetDev.Lib.Memory

/-!
# The payloads of a video stream

`_uvc_process_payload` puts the frames of a stream together: the image data of each payload is
copied behind the data there is, a change of the frame bit or the end-of-frame bit puts the
frame up for the listeners, and the two buffers change places.

A call emits the frames it puts up.  It throws where the C code would write past a buffer or
read past the payload.  `processPayload_steps` says that it never does, and that the two
buffers and their counters are an `Assembler` of bytes.
-/

namespace PetDev.Uvc

/-! ## The source -/

/-- `UVC_STREAM_FID`, `1 << 0`. -/
def streamFid : UInt8 := 1

/-- `UVC_STREAM_EOF`, `1 << 1`. -/
def streamEof : UInt8 := 2

/-- `UVC_STREAM_PTS`, `1 << 2`. -/
def streamPts : UInt8 := 4

/-- `UVC_STREAM_SCR`, `1 << 3`. -/
def streamScr : UInt8 := 8

/-- `UVC_STREAM_ERR`, `1 << 6`. -/
def streamErr : UInt8 := 64

/-- `LIBUVC_XFER_BUF_SIZE`. -/
def xferBufSize : Nat := 16 * 1024 * 1024

/-- What the functions of a payload use of `uvc_stream_handle` and of its device. -/
structure StreamHandle where
  isIsight : Bool
  bfhErr : UInt8
  holdBfhErr : UInt8
  fid : UInt8
  seq : UInt32
  holdSeq : UInt32
  pts : UInt32
  holdPts : UInt32
  lastScr : UInt32
  holdLastScr : UInt32
  gotBytes : Nat
  holdBytes : Nat
  sizeBuf : Nat
  outbuf : List UInt8
  holdbuf : List UInt8

/-- The frame the listeners find: the fields that begin with `hold`. -/
structure Held where
  bfhErr : UInt8
  bytes : List UInt8
  seq : UInt32
  pts : UInt32
  lastScr : UInt32

def StreamHandle.hold (s : StreamHandle) : Held :=
  ⟨s.holdBfhErr, s.holdbuf.take s.holdBytes, s.holdSeq, s.holdPts, s.holdLastScr⟩

/-- `uvc_stream_open_ctrl`, as far as it concerns the buffers; `malloc` does not clear them. -/
def streamOpenCtrl (isIsight : Bool) (outbuf holdbuf : Vector UInt8 xferBufSize) : StreamHandle :=
  ⟨isIsight, 0, 0, 0, 0, 0, 0, 0, 0, 0, 0, 0, xferBufSize, outbuf.toList, holdbuf.toList⟩

/-- `uvc_stream_start_bandwidth`, as far as it concerns the buffers. -/
def streamStart (s : StreamHandle) : StreamHandle :=
  { s with seq := 0, fid := 0, pts := 0, lastScr := 0, bfhErr := 0 }

/-- `_uvc_swap_buffers`. -/
def swapBuffers (s : StreamHandle) : StreamHandle :=
  { s with
    holdbuf := s.outbuf, outbuf := s.holdbuf, holdBfhErr := s.bfhErr, holdBytes := s.gotBytes
    holdLastScr := s.lastScr, holdPts := s.pts, holdSeq := s.seq
    seq := s.seq + 1, gotBytes := 0, lastScr := 0, pts := 0, bfhErr := 0 }

/-- `_uvc_swap_buffers`, with the frame it puts up. -/
def publish (s : StreamHandle) : Emitting Held StreamHandle :=
  ⟨[(swapBuffers s).hold], some (swapBuffers s)⟩

/-- `DW_TO_INT(payload + offset)`. -/
def dwToInt (payload : List UInt8) (offset : Nat) : Option UInt32 := do
  let b0 ← payload[offset]?
  let b1 ← payload[offset + 1]?
  let b2 ← payload[offset + 2]?
  let b3 ← payload[offset + 3]?
  return b0.toUInt32 ||| b1.toUInt32 <<< 8 ||| b2.toUInt32 <<< 16 ||| b3.toUInt32 <<< 24

def isightTag : List UInt8 :=
  [0x11, 0x22, 0x33, 0x44, 0xde, 0xad, 0xbe, 0xef, 0xde, 0xad, 0xfa, 0xce]

/-- The payload of an iSight camera without its magic numbers: all of it is image data. -/
def noIsightTag (isIsight : Bool) (payload : List UInt8) : Bool :=
  isIsight &&
    (payload.length < 14 || (payload.drop 2).take 12 != isightTag) &&
    (payload.length < 15 || (payload.drop 3).take 12 != isightTag)

/-- The frame bit: when it changes, the data of the frame before is put up. -/
def toggleFid (s : StreamHandle) (headerInfo : UInt8) : Emitting Held StreamHandle :=
  (if s.fid ≠ headerInfo &&& streamFid ∧ s.gotBytes ≠ 0 then publish s
    else Emitting.return_ s).andThen fun s =>
  Emitting.return_ { s with fid := headerInfo &&& streamFid }

/-- The presentation time, with the `variable_offset` behind it. -/
def readPts (s : StreamHandle) (payload : List UInt8) (headerInfo : UInt8) (headerLen : Nat) :
    Emitting Held (StreamHandle × Nat) :=
  if headerInfo &&& streamPts ≠ 0 then
    if 2 + 4 ≤ headerLen then
      (Emitting.ofOption (dwToInt payload 2)).andThen fun pts =>
      Emitting.return_ ({ s with pts := pts }, 6)
    else Emitting.return_ ({ s with pts := 0 }, 2)
  else Emitting.return_ (s, 2)

/-- The source clock, at `variable_offset`. -/
def readScr (s : StreamHandle) (payload : List UInt8) (headerInfo : UInt8)
    (headerLen variableOffset : Nat) : Emitting Held StreamHandle :=
  if headerInfo &&& streamScr ≠ 0 then
    if variableOffset + 4 ≤ headerLen then
      (Emitting.ofOption (dwToInt payload variableOffset)).andThen fun lastScr =>
      Emitting.return_ { s with lastScr := lastScr }
    else Emitting.return_ { s with lastScr := 0 }
  else Emitting.return_ s

/-- `memcpy(strmh->outbuf + strmh->got_bytes, data, data_len)`. -/
def copyData (s : StreamHandle) (data : List UInt8) : Emitting Held StreamHandle :=
  (Emitting.ofOption (memcpy s.outbuf s.gotBytes data)).andThen fun outbuf =>
  Emitting.return_ { s with outbuf := outbuf, gotBytes := s.gotBytes + data.length }

/-- The image data of a payload, and the end-of-frame bit. -/
def storeData (s : StreamHandle) (data : List UInt8) (headerInfo : UInt8) :
    Emitting Held StreamHandle :=
  if 0 < data.length then
    (if s.gotBytes + data.length < s.sizeBuf then copyData s data
      else Emitting.return_ { s with bfhErr := s.bfhErr ||| streamErr }).andThen fun s =>
    if headerInfo &&& streamEof ≠ 0 then publish s else Emitting.return_ s
  else Emitting.return_ s

/-- `_uvc_process_payload`. -/
def processPayload (s : StreamHandle) (payload : List UInt8) : Emitting Held StreamHandle :=
  match payload with
  | [] => Emitting.return_ s
  | headerLen :: _ =>
    if noIsightTag s.isIsight payload then storeData s payload 0
    else if payload.length < headerLen.toNat then
      Emitting.return_ { s with bfhErr := s.bfhErr ||| streamErr }
    else
      let data := if s.isIsight then [] else payload.drop headerLen.toNat
      if headerLen.toNat < 2 then storeData s data 0
      else
        (Emitting.ofOption payload[1]?).andThen fun headerInfo =>
        (toggleFid s headerInfo).andThen fun s =>
        (readPts s payload headerInfo headerLen.toNat).andThen fun (s, variableOffset) =>
        (readScr s payload headerInfo headerLen.toNat variableOffset).andThen fun s =>
        storeData s data headerInfo

/-- The payloads of the transfers that complete one after the other. -/
def processPayloads (s : StreamHandle) : List (List UInt8) → Emitting Held StreamHandle
  | [] => Emitting.return_ s
  | payload :: payloads =>
    (processPayload s payload).andThen fun s => processPayloads s payloads

/-! ## The frames as an assembler sees them -/

/-- What a payload says. -/
def packet (isIsight : Bool) (payload : List UInt8) : Packet UInt8 UInt8 :=
  match payload with
  | [] => .chunk none [] false
  | headerLen :: _ =>
    if noIsightTag isIsight payload then .chunk none payload false
    else if payload.length < headerLen.toNat then .bogus
    else
      let data := if isIsight then [] else payload.drop headerLen.toNat
      match (if headerLen.toNat < 2 then none else payload[1]?) with
      | none => .chunk none data false
      | some headerInfo =>
        .chunk (some (headerInfo &&& streamFid)) data (headerInfo &&& streamEof ≠ 0)

/-- The frame that was put up, without its number and times. -/
def Held.frame (h : Held) : Frame UInt8 := ⟨h.bytes, h.bfhErr ≠ 0⟩

namespace StreamHandle

/-- The buffers as the stream was opened with them. -/
structure Buffers (s : StreamHandle) : Prop where
  outbuf : s.outbuf.length = s.sizeBuf
  holdbuf : s.holdbuf.length = s.sizeBuf
  gotBytes : s.gotBytes ≤ s.sizeBuf

/-- The frame so far. -/
def assembler (s : StreamHandle) : Assembler UInt8 UInt8 :=
  ⟨s.fid, s.outbuf.take s.gotBytes, s.bfhErr ≠ 0⟩

end StreamHandle

/-- Frames numbered in order, from `n` on; `m` is the next number. -/
def Numbered (n m : UInt32) : List Held → Prop
  | [] => m = n
  | h :: hs => h.seq = n ∧ Numbered (n + 1) m hs

theorem Numbered.append {n m l : UInt32} {hs hs' : List Held} (h : Numbered n m hs)
    (h' : Numbered m l hs') : Numbered n l (hs ++ hs') := by
  induction hs generalizing n with
  | nil =>
    obtain rfl : m = n := h
    exact h'
  | cons x hs ih => exact ⟨h.1, ih h.2⟩

/-- A part of the work on a payload does from the state `s` what an assembler does. -/
structure Steps (s : StreamHandle) (x : Emitting Held StreamHandle) (t : StreamHandle)
    (r : Assembler UInt8 UInt8 × List (Frame UInt8)) : Prop where
  value : x.value = some t
  buffers : t.Buffers
  isIsight : t.isIsight = s.isIsight
  sizeBuf : t.sizeBuf = s.sizeBuf
  assembler : t.assembler = r.1
  emitted : x.emitted.map Held.frame = r.2
  numbered : Numbered s.seq t.seq x.emitted
  hold : t.hold = x.emitted.getLast?.getD s.hold

namespace Steps

variable {s t u : StreamHandle} {x : Emitting Held StreamHandle}
  {r r' : Assembler UInt8 UInt8 × List (Frame UInt8)}

theorem return_ (h : s.Buffers) : Steps s (Emitting.return_ s) s (s.assembler, []) :=
  ⟨rfl, h, rfl, rfl, rfl, rfl, rfl, rfl⟩

/-- One part of the work after the other. -/
theorem andThen (h : Steps s x t r) {f : StreamHandle → Emitting Held StreamHandle}
    (h' : Steps t (f t) u r') : Steps s (x.andThen f) u (r'.1, r.2 ++ r'.2) := by
  rw [Emitting.andThen_of_some h.value]
  refine ⟨h'.value, h'.buffers, h'.isIsight.trans h.isIsight, h'.sizeBuf.trans h.sizeBuf,
    h'.assembler, ?_, h.numbered.append h'.numbered, ?_⟩
  · simp only [List.map_append, h.emitted, h'.emitted]
  · rw [h'.hold, h.hold, List.getLast?_append]
    cases (f t).emitted.getLast? <;> rfl

end Steps

/-- **The swap of the buffers gives the frame out.** -/
theorem publish_steps {s : StreamHandle} (h : s.Buffers) :
    Steps s (publish s) (swapBuffers s) (s.assembler.clear, [s.assembler.frame]) where
  value := rfl
  buffers := ⟨h.holdbuf, h.outbuf, Nat.zero_le _⟩
  isIsight := rfl
  sizeBuf := rfl
  assembler := rfl
  emitted := rfl
  numbered := ⟨rfl, rfl⟩
  hold := rfl

theorem take_ne_nil_iff {s : StreamHandle} (h : s.Buffers) :
    s.outbuf.take s.gotBytes ≠ [] ↔ s.gotBytes ≠ 0 := by
  rw [← List.length_pos_iff, List.length_take, h.outbuf, Nat.min_eq_left h.gotBytes,
    Nat.pos_iff_ne_zero]

/-- The frame bit is the mark of an assembler. -/
theorem toggleFid_steps {s : StreamHandle} (h : s.Buffers) (headerInfo : UInt8) :
    ∃ t, Steps s (toggleFid s headerInfo) t
      (s.assembler.look (some (headerInfo &&& streamFid))) := by
  have htake := take_ne_nil_iff h
  unfold toggleFid Assembler.look
  by_cases hflip : s.fid ≠ headerInfo &&& streamFid ∧ s.gotBytes ≠ 0
  · rw [if_pos hflip]
    have hcond : s.assembler.mark ≠ headerInfo &&& streamFid ∧ s.assembler.data ≠ [] :=
      ⟨hflip.1, htake.mpr hflip.2⟩
    refine ⟨{ swapBuffers s with fid := headerInfo &&& streamFid }, ?_⟩
    simp only [if_pos hcond]
    have hp := publish_steps h
    exact ⟨rfl, ⟨hp.buffers.outbuf, hp.buffers.holdbuf, hp.buffers.gotBytes⟩, rfl, rfl, rfl, rfl,
      ⟨rfl, rfl⟩, rfl⟩
  · rw [if_neg hflip]
    have hcond : ¬ (s.assembler.mark ≠ headerInfo &&& streamFid ∧ s.assembler.data ≠ []) :=
      fun hc => hflip ⟨hc.1, htake.mp hc.2⟩
    refine ⟨{ s with fid := headerInfo &&& streamFid }, ?_⟩
    simp only [if_neg hcond]
    exact ⟨rfl, ⟨h.outbuf, h.holdbuf, h.gotBytes⟩, rfl, rfl, rfl, rfl, rfl, rfl⟩

theorem dwToInt_eq_some {payload : List UInt8} {offset : Nat} (h : offset + 4 ≤ payload.length) :
    ∃ v, dwToInt payload offset = some v := by
  unfold dwToInt
  rw [List.getElem?_eq_getElem (by omega), List.getElem?_eq_getElem (by omega),
    List.getElem?_eq_getElem (by omega), List.getElem?_eq_getElem (by omega)]
  exact ⟨_, rfl⟩

/-- The times of a header are no concern of an assembler. -/
structure SameFrame (s t : StreamHandle) : Prop where
  eq : t = { s with pts := t.pts, lastScr := t.lastScr }

namespace SameFrame

variable {s t : StreamHandle}

theorem trans {u : StreamHandle} (h : SameFrame s t) (h' : SameFrame t u) : SameFrame s u := by
  refine ⟨?_⟩
  rw [h'.eq, h.eq]

theorem buffers (h : SameFrame s t) (hs : s.Buffers) : t.Buffers := by
  rw [h.eq]
  exact ⟨hs.outbuf, hs.holdbuf, hs.gotBytes⟩

theorem steps (h : SameFrame s t) {x : Emitting Held StreamHandle} {u : StreamHandle}
    {r : Assembler UInt8 UInt8 × List (Frame UInt8)} (h' : Steps t x u r) : Steps s x u r := by
  rw [h.eq] at h'
  exact ⟨h'.value, h'.buffers, h'.isIsight, h'.sizeBuf, h'.assembler, h'.emitted, h'.numbered,
    h'.hold⟩

end SameFrame

theorem readPts_spec {s : StreamHandle} {payload : List UInt8} {headerLen : Nat}
    (hlen : headerLen ≤ payload.length) (headerInfo : UInt8) :
    ∃ t off, readPts s payload headerInfo headerLen = Emitting.return_ (t, off) ∧
      SameFrame s t := by
  unfold readPts
  split_ifs with h1 h2
  · obtain ⟨v, hv⟩ := dwToInt_eq_some (Nat.le_trans h2 hlen)
    exact ⟨{ s with pts := v }, 6, by rw [hv]; rfl, ⟨rfl⟩⟩
  · exact ⟨{ s with pts := 0 }, 2, rfl, ⟨rfl⟩⟩
  · exact ⟨s, 2, rfl, ⟨rfl⟩⟩

theorem readScr_spec {s : StreamHandle} {payload : List UInt8} {headerLen : Nat}
    (hlen : headerLen ≤ payload.length) (headerInfo : UInt8) (off : Nat) :
    ∃ t, readScr s payload headerInfo headerLen off = Emitting.return_ t ∧ SameFrame s t := by
  unfold readScr
  split_ifs with h1 h2
  · obtain ⟨v, hv⟩ := dwToInt_eq_some (Nat.le_trans h2 hlen)
    exact ⟨{ s with lastScr := v }, by rw [hv]; rfl, ⟨rfl⟩⟩
  · exact ⟨{ s with lastScr := 0 }, rfl, ⟨rfl⟩⟩
  · exact ⟨s, rfl, ⟨rfl⟩⟩

theorem or_streamErr_ne_zero (b : UInt8) : b ||| streamErr ≠ 0 := by
  intro h
  exact absurd (UInt8.or_eq_zero_iff.mp h).2 (by decide)

/-- `memcpy` stays inside the buffer, and its bytes stand behind the frame so far. -/
theorem copyData_steps {s : StreamHandle} (h : s.Buffers) {data : List UInt8}
    (hfit : s.gotBytes + data.length ≤ s.sizeBuf) :
    ∃ t, Steps s (copyData s data) t
      ({ s.assembler with data := s.assembler.data ++ data }, []) := by
  obtain ⟨hout, hhold, hgot⟩ := h
  obtain ⟨outbuf, hmem⟩ : ∃ outbuf, memcpy s.outbuf s.gotBytes data = some outbuf :=
    ⟨_, memcpy_of_le (hout ▸ hfit)⟩
  refine ⟨{ s with outbuf := outbuf, gotBytes := s.gotBytes + data.length }, ?_⟩
  unfold copyData
  rw [hmem]
  refine ⟨rfl, ⟨(length_of_memcpy hmem).trans hout, hhold, hfit⟩, rfl, rfl, ?_, rfl, rfl, rfl⟩
  show (⟨s.fid, outbuf.take (s.gotBytes + data.length), _⟩ : Assembler UInt8 UInt8) = _
  rw [take_of_memcpy hmem]
  rfl

/-- What does not fit marks the frame. -/
theorem spoil_steps {s : StreamHandle} (h : s.Buffers) :
    Steps s (Emitting.return_ { s with bfhErr := s.bfhErr ||| streamErr })
      { s with bfhErr := s.bfhErr ||| streamErr } ({ s.assembler with spoiled := true }, []) := by
  refine ⟨rfl, ⟨h.outbuf, h.holdbuf, h.gotBytes⟩, rfl, rfl, ?_, rfl, rfl, rfl⟩
  have herr : decide (s.bfhErr ||| streamErr ≠ 0) = true :=
    decide_eq_true (or_streamErr_ne_zero s.bfhErr)
  show (⟨s.fid, s.outbuf.take s.gotBytes, decide (s.bfhErr ||| streamErr ≠ 0)⟩ :
    Assembler UInt8 UInt8) = _
  rw [herr]
  rfl

theorem storeData_steps {s : StreamHandle} (h : s.Buffers) (data : List UInt8)
    (headerInfo : UInt8) :
    ∃ t, Steps s (storeData s data headerInfo) t
      (s.assembler.finish s.sizeBuf data (headerInfo &&& streamEof ≠ 0)) := by
  unfold storeData Assembler.finish
  by_cases hd : data = []
  · subst hd
    exact ⟨s, Steps.return_ h⟩
  rw [if_pos (List.length_pos_iff.mpr hd), if_neg hd]
  have hlen : s.assembler.data.length = s.gotBytes := by
    show (s.outbuf.take s.gotBytes).length = s.gotBytes
    rw [List.length_take, h.outbuf, Nat.min_eq_left h.gotBytes]
  obtain ⟨t, ht⟩ : ∃ t, Steps s
      (if s.gotBytes + data.length < s.sizeBuf then copyData s data
        else Emitting.return_ { s with bfhErr := s.bfhErr ||| streamErr }) t
      (s.assembler.add s.sizeBuf data, []) := by
    unfold Assembler.add
    rw [hlen]
    split_ifs with hfit
    · exact copyData_steps h (Nat.le_of_lt hfit)
    · exact ⟨_, spoil_steps h⟩
  by_cases heof : headerInfo &&& streamEof ≠ 0
  · refine ⟨swapBuffers t, ?_⟩
    have hpub := publish_steps ht.buffers
    rw [ht.assembler] at hpub
    simpa [heof] using ht.andThen (f := fun s =>
      if headerInfo &&& streamEof ≠ 0 then publish s else Emitting.return_ s)
      (by simpa [heof] using hpub)
  · refine ⟨t, ?_⟩
    have hret := Steps.return_ ht.buffers
    rw [ht.assembler] at hret
    simpa [heof] using ht.andThen (f := fun s =>
      if headerInfo &&& streamEof ≠ 0 then publish s else Emitting.return_ s)
      (by simpa [heof] using hret)

/-! ## Whole payloads -/

/-- The times, and then the data. -/
theorem storeHeaded_steps {s : StreamHandle} (h : s.Buffers) {payload : List UInt8}
    {headerLen : Nat} (hlen : headerLen ≤ payload.length) (data : List UInt8)
    (headerInfo : UInt8) :
    ∃ t, Steps s ((readPts s payload headerInfo headerLen).andThen fun (s, variableOffset) =>
        (readScr s payload headerInfo headerLen variableOffset).andThen fun s =>
        storeData s data headerInfo) t
      (s.assembler.finish s.sizeBuf data (headerInfo &&& streamEof ≠ 0)) := by
  obtain ⟨s1, off, hpts, hs1⟩ := readPts_spec (s := s) hlen headerInfo
  obtain ⟨s2, hscr, hs2⟩ := readScr_spec (s := s1) hlen headerInfo off
  have hsame := hs1.trans hs2
  obtain ⟨t, ht⟩ := storeData_steps (hsame.buffers h) data headerInfo
  refine ⟨t, ?_⟩
  rw [hpts]
  show Steps s ((readScr s1 payload headerInfo headerLen off).andThen _) t _
  rw [hscr]
  have hdata : s2.assembler = s.assembler := by rw [hsame.eq]; rfl
  have hsize : s2.sizeBuf = s.sizeBuf := by rw [hsame.eq]
  rw [hdata, hsize] at ht
  exact hsame.steps ht

/-- **A payload does what a packet does to an assembler**, and never faults. -/
theorem processPayload_steps {s : StreamHandle} (h : s.Buffers) (payload : List UInt8) :
    ∃ t, Steps s (processPayload s payload) t
      (s.assembler.step s.sizeBuf (packet s.isIsight payload)) := by
  cases payload with
  | nil => exact ⟨s, Steps.return_ h⟩
  | cons b bs =>
    unfold processPayload packet
    dsimp only
    by_cases htag : noIsightTag s.isIsight (b :: bs) = true
    · rw [if_pos htag, if_pos htag]
      obtain ⟨t, ht⟩ := storeData_steps h (b :: bs) 0
      exact ⟨t, ht⟩
    rw [if_neg htag, if_neg htag]
    by_cases hbogus : (b :: bs).length < b.toNat
    · rw [if_pos hbogus, if_pos hbogus]
      exact ⟨_, spoil_steps h⟩
    rw [if_neg hbogus, if_neg hbogus]
    by_cases hshort : b.toNat < 2
    · simp only [if_pos hshort]
      obtain ⟨t, ht⟩ := storeData_steps h (if s.isIsight then [] else (b :: bs).drop b.toNat) 0
      exact ⟨t, ht⟩
    · simp only [if_neg hshort]
      obtain ⟨headerInfo, hinfo⟩ : ∃ headerInfo, (b :: bs)[1]? = some headerInfo :=
        ⟨_, List.getElem?_eq_getElem (by omega)⟩
      rw [hinfo]
      obtain ⟨t, ht⟩ := toggleFid_steps h headerInfo
      obtain ⟨u, hu⟩ := storeHeaded_steps ht.buffers (Nat.le_of_not_lt hbogus)
        (if s.isIsight then [] else (b :: bs).drop b.toNat) headerInfo
      rw [ht.assembler, ht.sizeBuf] at hu
      exact ⟨u, ht.andThen hu⟩

/-- **The payloads of a stream do what their packets do.** -/
theorem processPayloads_steps {s : StreamHandle} (h : s.Buffers) (payloads : List (List UInt8)) :
    ∃ t, Steps s (processPayloads s payloads) t
      (s.assembler.run s.sizeBuf (payloads.map (packet s.isIsight))) := by
  induction payloads generalizing s with
  | nil => exact ⟨s, Steps.return_ h⟩
  | cons payload payloads ih =>
    obtain ⟨t, ht⟩ := processPayload_steps h payload
    obtain ⟨u, hu⟩ := ih ht.buffers
    rw [ht.assembler, ht.sizeBuf, ht.isIsight] at hu
    refine ⟨u, ?_⟩
    rw [List.map_cons, Assembler.run_cons]
    exact ht.andThen hu

end PetDev.Uvc
