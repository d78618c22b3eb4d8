import PetDev.Uvc.Stream

/-!
# Which frames a stream puts up

From the start of a stream, whatever payloads arrive:

* `processPayloads_segments`: no buffer is overrun, and the payloads fall into consecutive
  segments, one for each frame put up.  A frame without the error mark is all the image data of
  its segment, of one frame bit; it has the error mark exactly when its segment holds a payload
  shorter than its header says, or more image data than fits.
* `encodeFrames_roundTrip`: the payloads of a camera that toggles the frame bit give its frames
  back, however it cuts them, with or without end-of-frame bits.
-/

namespace PetDev.Uvc

/-- The stream as it is opened and started. -/
def started (isIsight : Bool) (outbuf holdbuf : Vector UInt8 xferBufSize) : StreamHandle :=
  streamStart (streamOpenCtrl isIsight outbuf holdbuf)

section Started

variable (isIsight : Bool) (outbuf holdbuf : Vector UInt8 xferBufSize)

theorem started_buffers : (started isIsight outbuf holdbuf).Buffers where
  outbuf := outbuf.length_toList
  holdbuf := holdbuf.length_toList
  gotBytes := Nat.zero_le _

theorem started_steps (payloads : List (List UInt8)) :
    ∃ t, Steps (started isIsight outbuf holdbuf)
      (processPayloads (started isIsight outbuf holdbuf) payloads) t
      (Assembler.run xferBufSize ⟨0, [], false⟩ (payloads.map (packet isIsight))) :=
  processPayloads_steps (started_buffers isIsight outbuf holdbuf) payloads

end Started

/-! ## Whatever arrives -/

/-- Segments of what was mapped are segments that were mapped. -/
theorem exists_segments_of_map {α β : Type*} {f : α → β} {l : List α} {segs : List (List β)}
    {rest : List β} (h : segs.flatten ++ rest = l.map f) :
    ∃ (segs' : List (List α)) (rest' : List α),
      segs'.flatten ++ rest' = l ∧ segs = segs'.map (List.map f) := by
  induction segs generalizing l with
  | nil => exact ⟨[], l, rfl, rfl⟩
  | cons seg segs ih =>
    rw [List.flatten_cons, List.append_assoc] at h
    obtain ⟨l1, l2, rfl, hseg, htail⟩ := List.map_eq_append_iff.mp h.symm
    obtain ⟨segs', rest', rfl, rfl⟩ := ih htail.symm
    exact ⟨l1 :: segs', rest', by simp, by simp [hseg]⟩

/-- **Whatever arrives, no buffer is overrun and no image data is mixed up.** -/
theorem processPayloads_segments (isIsight : Bool) (outbuf holdbuf : Vector UInt8 xferBufSize)
    (payloads : List (List UInt8)) :
    ∃ t segs rest,
      (processPayloads (started isIsight outbuf holdbuf) payloads).value = some t ∧
      segs.flatten ++ rest = payloads ∧
      List.Forall₂ (fun seg h => Assembled xferBufSize (seg.map (packet isIsight)) h.frame) segs
        (processPayloads (started isIsight outbuf holdbuf) payloads).emitted ∧
      Numbered 0 t.seq (processPayloads (started isIsight outbuf holdbuf) payloads).emitted := by
  obtain ⟨t, ht⟩ := started_steps isIsight outbuf holdbuf payloads
  have hpos : 0 < xferBufSize := by decide
  obtain ⟨segs, rest, hflat, hsegs, -⟩ :=
    Assembler.exists_segments hpos 0 (payloads.map (packet isIsight))
  obtain ⟨segs', rest', hflat', rfl⟩ := exists_segments_of_map hflat
  rw [← ht.emitted, List.forall₂_map_left_iff, List.forall₂_map_right_iff] at hsegs
  exact ⟨t, segs', rest', ht.value, hflat', hsegs, ht.numbered⟩

/-! ## What a camera sends -/

/-- A payload: its header behind the length and the flags, its image data, and whether it ends
the frame. -/
structure CameraPayload where
  eof : Bool
  /-- The flags beside the frame bit and the end of the frame. -/
  flags : UInt8
  fields : List UInt8
  fields_le : fields.length ≤ 253
  data : List UInt8

/-- The flags of a payload of a frame whose frame bit is `fid`. -/
def CameraPayload.info (p : CameraPayload) (fid : Bool) : UInt8 :=
  (p.flags &&& 0xfc) ||| (if p.eof then streamEof else 0) ||| (if fid then streamFid else 0)

def CameraPayload.encode (p : CameraPayload) (fid : Bool) : List UInt8 :=
  UInt8.ofNat (2 + p.fields.length) :: p.info fid :: (p.fields ++ p.data)

/-- A frame that fits the buffer; where it is ended, it has no more data. -/
structure CameraFrame where
  payloads : List CameraPayload
  bytes_ne : payloads.flatMap CameraPayload.data ≠ []
  bytes_lt : (payloads.flatMap CameraPayload.data).length < xferBufSize
  eof_last : ∀ pre p post, payloads = pre ++ p :: post → p.eof = true → p.data ≠ [] →
    post.flatMap CameraPayload.data = []

def CameraFrame.bytes (f : CameraFrame) : List UInt8 := f.payloads.flatMap CameraPayload.data

/-- The last payload has data and the end-of-frame bit. -/
def CameraFrame.Ends (f : CameraFrame) : Prop :=
  ∃ pre p, f.payloads = pre ++ [p] ∧ p.eof = true ∧ p.data ≠ []

/-- A frame in one payload, which ends it. -/
def CameraFrame.single (b : UInt8) (bs : List UInt8) (h : bs.length + 1 < xferBufSize) :
    CameraFrame where
  payloads := [⟨true, 0x80, [], Nat.zero_le _, b :: bs⟩]
  bytes_ne := by simp
  bytes_lt := by simpa using h
  eof_last := by
    intro pre p post hsplit _ _
    obtain ⟨-, hpost⟩ | ⟨-, hnil⟩ := List.append_eq_singleton_iff.mp hsplit.symm
    · rw [(List.cons.inj hpost).2]
      rfl
    · exact absurd hnil (by simp)

theorem CameraFrame.single_ends (b : UInt8) (bs : List UInt8) (h : bs.length + 1 < xferBufSize) :
    (CameraFrame.single b bs h).Ends :=
  ⟨[], _, rfl, rfl, by simp⟩

/-- The payloads of the frames, the frame bit toggling. -/
def encodeFrames (fid : Bool) : List CameraFrame → List (List UInt8)
  | [] => []
  | f :: fs => f.payloads.map (fun p => p.encode fid) ++ encodeFrames (!fid) fs

/-- The frame bit as the stream keeps it. -/
def fidOf (fid : Bool) : UInt8 := if fid then streamFid else 0

theorem or_and_flag (x y z b : UInt8) (h : x &&& b = 0) :
    (x ||| y ||| z) &&& b = (y &&& b) ||| (z &&& b) := by
  have hand : ∀ x y : UInt8, (x ||| y) &&& b = (x &&& b) ||| (y &&& b) := fun x y =>
    UInt8.eq_of_toBitVec_eq BitVec.and_or_distrib_right
  rw [hand, hand, h, UInt8.zero_or]

theorem info_fid (p : CameraPayload) (fid : Bool) : p.info fid &&& streamFid = fidOf fid := by
  have hflags : p.flags &&& 0xfc &&& streamFid = 0 := by
    rw [UInt8.and_assoc]
    exact UInt8.and_zero
  unfold CameraPayload.info fidOf
  rw [or_and_flag _ _ _ _ hflags]
  cases p.eof <;> cases fid <;> decide

theorem info_eof (p : CameraPayload) (fid : Bool) :
    decide (p.info fid &&& streamEof ≠ 0) = p.eof := by
  have hflags : p.flags &&& 0xfc &&& streamEof = 0 := by
    rw [UInt8.and_assoc]
    exact UInt8.and_zero
  unfold CameraPayload.info
  rw [or_and_flag _ _ _ _ hflags]
  cases p.eof <;> cases fid <;> decide

/-- The stream reads back what the camera wrote. -/
theorem packet_encode (p : CameraPayload) (fid : Bool) :
    packet false (p.encode fid) = .chunk (some (fidOf fid)) p.data p.eof := by
  have hle := p.fields_le
  have hlen : (UInt8.ofNat (2 + p.fields.length)).toNat = 2 + p.fields.length := by
    rw [UInt8.toNat_ofNat']
    exact Nat.mod_eq_of_lt (by omega)
  have hdrop : (p.encode fid).drop (2 + p.fields.length) = p.data := by
    rw [Nat.add_comm]
    show (p.fields ++ p.data).drop p.fields.length = p.data
    rw [List.drop_left]
  unfold CameraPayload.encode at hdrop ⊢
  unfold packet
  dsimp only
  rw [hlen, if_neg (by simp [noIsightTag]), if_neg (by simp; omega), if_neg (by omega), hdrop]
  show Packet.chunk (some (p.info fid &&& streamFid)) p.data _ = _
  rw [info_fid, info_eof]

theorem carried_encode (ps : List CameraPayload) (fid : Bool) :
    carried ((ps.map (fun p => p.encode fid)).map (packet false)) =
      ps.flatMap CameraPayload.data := by
  unfold carried
  rw [List.map_map, List.flatMap_map]
  congr 1
  funext p
  simp [packet_encode]

theorem CameraFrame.sends (f : CameraFrame) (fid : Bool) :
    Sends (fidOf fid) f.bytes ((f.payloads.map (fun p => p.encode fid)).map (packet false)) where
  marked := by
    intro q hq
    rw [List.map_map] at hq
    obtain ⟨p, -, rfl⟩ := List.mem_map.mp hq
    simp [packet_encode]
  carried_eq := carried_encode f.payloads fid
  eof_last := by
    intro pre m d post hsplit hd
    obtain ⟨qs, post', hqs, hpre, hpost⟩ := List.map_eq_append_iff.mp hsplit
    obtain ⟨ps, ps', hps, rfl, rfl⟩ := List.map_eq_append_iff.mp hqs
    cases ps' with
    | nil => simp at hpost
    | cons p ps' =>
      rw [List.map_cons, List.map_cons, packet_encode] at hpost
      obtain ⟨hp, rfl⟩ := List.cons.inj hpost
      obtain ⟨-, rfl, heof⟩ := Packet.chunk.inj hp
      rw [carried_encode]
      exact f.eof_last ps p ps' hps heof hd

theorem fidOf_ne (fid : Bool) : fidOf fid ≠ fidOf (!fid) := by
  cases fid <;> decide

/-- The frames of a camera as a transmission, the next frame bit being `fid`. -/
theorem transmission_encode (fs : List CameraFrame) {fid : Bool} {done : List (List UInt8)}
    {ps : List (Packet UInt8 UInt8)} (h : Transmission xferBufSize (fidOf (!fid)) done ps) :
    ∃ k, Transmission xferBufSize k (done ++ fs.map CameraFrame.bytes)
      (ps ++ (encodeFrames fid fs).map (packet false)) := by
  induction fs generalizing fid done ps with
  | nil => exact ⟨_, by simpa [encodeFrames] using h⟩
  | cons f fs ih =>
    have hk : fidOf (!fid) ≠ fidOf fid := (fidOf_ne fid).symm
    have hnext : Transmission xferBufSize (fidOf fid) (done ++ [f.bytes]) _ :=
      h.concat hk f.bytes_ne f.bytes_lt (f.sends fid)
    rw [← Bool.not_not fid] at hnext
    obtain ⟨k, hk⟩ := ih hnext
    refine ⟨k, ?_⟩
    simpa [encodeFrames, List.append_assoc] using hk

/-- Nothing is pending after a payload with data and the end-of-frame bit. -/
theorem pending_of_ends {a : Assembler UInt8 UInt8} {p : CameraPayload} {fid : Bool}
    (heof : p.eof = true) (hd : p.data ≠ []) :
    (a.step xferBufSize (packet false (p.encode fid))).1.pending = [] := by
  rw [packet_encode, heof]
  simp only [Assembler.step, Assembler.finish, if_neg hd, if_true]
  exact Assembler.pending_of_nil

theorem encodeFrames_concat (fid : Bool) (fs : List CameraFrame) (f : CameraFrame) :
    ∃ fid', encodeFrames fid (fs ++ [f]) =
      encodeFrames fid fs ++ f.payloads.map (fun p => p.encode fid') := by
  induction fs generalizing fid with
  | nil => exact ⟨fid, by simp [encodeFrames]⟩
  | cons g fs ih =>
    obtain ⟨fid', h⟩ := ih (!fid)
    exact ⟨fid', by rw [List.cons_append, encodeFrames, h, encodeFrames, List.append_assoc]⟩

/-- The stream does with the payloads of a camera what its frames say. -/
theorem encodeFrames_steps (outbuf holdbuf : Vector UInt8 xferBufSize) (fid : Bool)
    (fs : List CameraFrame) :
    ∃ t, Steps (started false outbuf holdbuf)
        (processPayloads (started false outbuf holdbuf) (encodeFrames fid fs)) t
        (Assembler.run xferBufSize ⟨0, [], false⟩ ((encodeFrames fid fs).map (packet false))) ∧
      (processPayloads (started false outbuf holdbuf) (encodeFrames fid fs)).emitted.map
          Held.frame ++ t.assembler.pending = fs.map (fun f => ⟨f.bytes, false⟩) := by
  obtain ⟨t, ht⟩ := started_steps false outbuf holdbuf (encodeFrames fid fs)
  obtain ⟨k, hk⟩ := transmission_encode fs (Transmission.nil (fidOf (!fid)))
  obtain ⟨hout, -, -⟩ := Assembler.out_of_sends hk 0
  rw [List.nil_append, List.nil_append, List.map_map] at hout
  refine ⟨t, ht, ?_⟩
  rw [ht.emitted, ht.assembler]
  exact hout

/-- Nothing is pending after a last frame that is ended. -/
theorem pending_encodeFrames {outbuf holdbuf : Vector UInt8 xferBufSize} {fid : Bool}
    {fs : List CameraFrame} {t : StreamHandle}
    (ht : Steps (started false outbuf holdbuf)
      (processPayloads (started false outbuf holdbuf) (encodeFrames fid fs)) t
      (Assembler.run xferBufSize ⟨0, [], false⟩ ((encodeFrames fid fs).map (packet false))))
    {f : CameraFrame} (hf : fs.getLast? = some f) (hends : f.Ends) : t.assembler.pending = [] := by
  obtain ⟨fs, rfl⟩ := List.getLast?_eq_some_iff.mp hf
  obtain ⟨fid', hconcat⟩ := encodeFrames_concat fid fs f
  obtain ⟨pre, p, hp, heof, hd⟩ := hends
  rw [ht.assembler, hconcat, hp, List.map_append, List.map_append, List.map_append,
    List.map_singleton, List.map_singleton, ← List.append_assoc, Assembler.run_concat]
  exact pending_of_ends heof hd

/-- **The payloads of a camera give its frames back**, each whole and without an error mark; the
last one is put up too if its last payload ends it. -/
theorem encodeFrames_roundTrip (outbuf holdbuf : Vector UInt8 xferBufSize) (fid : Bool)
    (fs : List CameraFrame) :
    ∃ t, (processPayloads (started false outbuf holdbuf) (encodeFrames fid fs)).value = some t ∧
      (processPayloads (started false outbuf holdbuf) (encodeFrames fid fs)).emitted.map
          Held.frame ++ t.assembler.pending = fs.map (fun f => ⟨f.bytes, false⟩) ∧
      (∀ f ∈ fs.getLast?, f.Ends → t.assembler.pending = []) := by
  obtain ⟨t, ht, hout⟩ := encodeFrames_steps outbuf holdbuf fid fs
  exact ⟨t, ht.value, hout, fun f hf hends => pending_encodeFrames ht hf hends⟩

end PetDev.Uvc
