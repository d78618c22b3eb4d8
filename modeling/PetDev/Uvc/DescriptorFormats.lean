import PetDev.Uvc.Descriptors

/-!
# The formats of a scan

What `uvc_scan_streaming` makes of an interface is well formed, whatever the buffer says:
`scan_wellFormed`.  The array of a frame's intervals ends with a zero, so that a reader who stops
there stays inside.

`encode` writes an interface as a camera does.  `scan_encode`: what is written is read back.
-/

namespace PetDev.Uvc

/-! ## Well-formed formats -/

/-- `intervals` is the array of `l`, with a zero behind it. -/
def FrameDesc.HasIntervals (frame : FrameDesc) (l : List UInt32) : Prop :=
  frame.intervals = some (l ++ [0])

/-- A frame of a format with these bits per pixel. -/
structure FrameDesc.WellFormed (bBitsPerPixel : UInt8) (frame : FrameDesc) : Prop where
  subtype : frame.bDescriptorSubtype = vsFrameUncompressed ∨
    frame.bDescriptorSubtype = vsFrameMjpeg ∨ frame.bDescriptorSubtype = vsFrameFrameBased
  continuous : frame.bFrameIntervalType = 0 → frame.intervals = none
  discrete : frame.bFrameIntervalType ≠ 0 → ∃ l, frame.HasIntervals l ∧
    l.length = frame.bFrameIntervalType.toNat ∧ frame.dwMinFrameInterval = 0 ∧
    frame.dwMaxFrameInterval = 0 ∧ frame.dwFrameIntervalStep = 0
  frameBased : frame.bDescriptorSubtype = vsFrameFrameBased → frame.dwMaxVideoFrameBufferSize = 0
  bytesPerLine : frame.bDescriptorSubtype ≠ vsFrameFrameBased → frame.dwBytesPerLine = 0
  nonzero : frame.bDescriptorSubtype ≠ vsFrameFrameBased → ∀ l, frame.HasIntervals l →
    ∀ interval ∈ l, interval ≠ 0
  default : frame.bDescriptorSubtype ≠ vsFrameFrameBased → ∀ l first last, frame.HasIntervals l →
    l.head? = some first → l.getLast? = some last →
    min last (max first frame.dwDefaultFrameInterval) = frame.dwDefaultFrameInterval
  uncompressed : frame.bDescriptorSubtype = vsFrameUncompressed →
    frame.dwMaxVideoFrameBufferSize = uncompressedSize bBitsPerPixel frame.wWidth frame.wHeight

structure FormatDesc.WellFormed (format : FormatDesc) : Prop where
  guid : format.guidFormat.length = 16
  subtype : format.bDescriptorSubtype = vsFormatUncompressed ∨
    format.bDescriptorSubtype = vsFormatMjpeg ∨ format.bDescriptorSubtype = vsFormatFrameBased
  mjpeg : format.bDescriptorSubtype = vsFormatMjpeg →
    format.guidFormat = fourccMjpg ∧ format.bBitsPerPixel = 0
  unsized : format.bDescriptorSubtype ≠ vsFormatFrameBased →
    format.bNumFrameDescriptors = 0 ∧ format.bVariableSize = 0
  frames : ∀ frame ∈ format.frameDescs, frame.WellFormed format.bBitsPerPixel

def StreamingInterface.WellFormed (streamIf : StreamingInterface) : Prop :=
  ∀ format ∈ streamIf.formatDescs, format.WellFormed

section Kept

variable {streamIf streamIf' : StreamingInterface} {format : FormatDesc} {frame frame' : FrameDesc}
  {block : List UInt8}

theorem FrameDesc.HasIntervals.eq {l l' : List UInt32} (h : frame.HasIntervals l)
    (h' : frame.HasIntervals l') : l = l' :=
  List.append_cancel_right (Option.some.inj (h.symm.trans h'))

theorem StreamingInterface.WellFormed.appendFormat (h : streamIf.WellFormed)
    (hformat : format.WellFormed) : (streamIf.appendFormat format).WellFormed := by
  intro f hf
  rcases List.mem_append.mp hf with hf | hf
  · exact h f hf
  · rwa [List.mem_singleton.mp hf]

theorem StreamingInterface.WellFormed.appendFrame (h : streamIf.WellFormed)
    (hlast : streamIf.formatDescs.getLast? = some format)
    (hframe : frame.WellFormed format.bBitsPerPixel) :
    (streamIf.appendFrame format frame).WellFormed := by
  intro f hf
  rcases List.mem_append.mp hf with hf | hf
  · exact h f ((List.dropLast_prefix _).subset hf)
  · rw [List.mem_singleton.mp hf]
    have hformat := h format (List.mem_of_getLast? hlast)
    refine ⟨hformat.guid, hformat.subtype, hformat.mjpeg, hformat.unsized, fun f' hf' => ?_⟩
    rcases List.mem_append.mp hf' with hf' | hf'
    · exact hformat.frames f' hf'
    · rwa [List.mem_singleton.mp hf']

/-- The clamped default stays where it is. -/
theorem clamp_clamp (first last d : UInt32) :
    min last (max first (min last (max first d))) = min last (max first d) := by
  have hmin (a b : UInt32) : min a b = if a ≤ b then a else b := rfl
  have hmax (a b : UInt32) : max a b = if a ≤ b then b else a := rfl
  simp only [hmin, hmax, UInt32.le_iff_toNat_le]
  split_ifs <;> first | rfl | omega

theorem readContinuous_wellFormed (h : readContinuous frame block = some frame') :
    ∃ dwMin dwMax dwStep, frame' = { frame with
      dwMinFrameInterval := dwMin, dwMaxFrameInterval := dwMax, dwFrameIntervalStep := dwStep } := by
  unfold readContinuous at h
  simp only [Option.bind_eq_bind, Option.bind_eq_some_iff, Option.pure_def, Option.some.injEq] at h
  obtain ⟨dwMin, _, dwMax, _, dwStep, _, rfl⟩ := h
  exact ⟨dwMin, dwMax, dwStep, rfl⟩

theorem readDiscrete_eq_some {n : Nat} (h : readDiscrete frame block n = some frame') :
    ∃ l first last, l.length = n ∧ (∀ interval ∈ l, interval ≠ 0) ∧ l.head? = some first ∧
      l.getLast? = some last ∧ frame' = { frame with
        intervals := some (l ++ [0])
        dwDefaultFrameInterval := min last (max first frame.dwDefaultFrameInterval) } := by
  unfold readDiscrete at h
  simp only [Option.bind_eq_bind, Option.bind_eq_some_iff, Option.pure_def, Option.some.injEq] at h
  obtain ⟨l, hl, first, hfirst, last, hlast, rfl⟩ := h
  have hlength := length_of_readIntervals hl
  refine ⟨_, first, last, ?_, ?_, ?_, ?_, rfl⟩
  · rwa [List.length_map]
  · intro interval hinterval
    obtain ⟨read, -, rfl⟩ := List.mem_map.mp hinterval
    split_ifs with hzero
    · exact hzero
    · decide
  · rwa [List.head?_eq_getElem?]
  · rwa [List.getLast?_eq_getElem?, List.length_map, hlength]

theorem frameFrame_wellFormed (hsubtype : block[2]? = some vsFrameFrameBased)
    (hframe : readFrameFrame block = some frame) (htimes : readFrameTimes frame block = some frame')
    (bBitsPerPixel : UInt8) : frame'.WellFormed bBitsPerPixel := by
  obtain ⟨hread, -, hsize, hnone, hmin, hmax, hstep⟩ := readFrameFrame_eq_some hframe
  obtain hkind : vsFrameFrameBased = frame.bDescriptorSubtype :=
    Option.some.inj (hsubtype.symm.trans hread)
  have hother : ¬ frame.bDescriptorSubtype ≠ vsFrameFrameBased := not_not.mpr hkind.symm
  have hlittle : frame.bDescriptorSubtype ≠ vsFrameUncompressed := by
    rw [← hkind]
    decide
  unfold readFrameTimes at htimes
  split_ifs at htimes with htype
  · obtain ⟨_, _, _, rfl⟩ := readContinuous_wellFormed htimes
    exact ⟨.inr (.inr hkind.symm), fun _ => hnone, fun h => absurd htype h, fun _ => hsize,
      fun h => absurd h hother, fun h => absurd h hother, fun h => absurd h hother,
      fun h => absurd h hlittle⟩
  · obtain ⟨l, hl, rfl⟩ := Option.map_eq_some_iff.mp htimes
    exact ⟨.inr (.inr hkind.symm), fun h => absurd h htype,
      fun _ => ⟨l, rfl, length_of_readIntervals hl, hmin, hmax, hstep⟩, fun _ => hsize,
      fun h => absurd h hother, fun h => absurd h hother, fun h => absurd h hother,
      fun h => absurd h hlittle⟩

theorem fixBufferSize_eq (format : FormatDesc) (frame : FrameDesc) :
    ∃ size, fixBufferSize format frame = { frame with dwMaxVideoFrameBufferSize := size } ∧
      (frame.bDescriptorSubtype = vsFrameUncompressed →
        size = uncompressedSize format.bBitsPerPixel frame.wWidth frame.wHeight) := by
  unfold fixBufferSize
  split_ifs with hkind
  · exact ⟨_, rfl, fun _ => rfl⟩
  · exact ⟨frame.dwMaxVideoFrameBufferSize, rfl, fun h => absurd h hkind⟩

theorem frameUncompressed_wellFormed
    (hsubtype : block[2]? = some vsFrameUncompressed ∨ block[2]? = some vsFrameMjpeg)
    (hframe : readFrameUncompressed block = some frame)
    (htimes : readUncompressedTimes frame block = some frame') (format : FormatDesc) :
    (fixBufferSize format frame').WellFormed format.bBitsPerPixel := by
  obtain ⟨hread, -, hline, hnone, hmin, hmax, hstep⟩ := readFrameUncompressed_eq_some hframe
  rw [hread, Option.some.injEq, Option.some.injEq] at hsubtype
  have hkind : frame.bDescriptorSubtype = vsFrameUncompressed ∨
      frame.bDescriptorSubtype = vsFrameMjpeg ∨ frame.bDescriptorSubtype = vsFrameFrameBased :=
    hsubtype.imp_right Or.inl
  have hother : frame.bDescriptorSubtype ≠ vsFrameFrameBased := by
    rcases hsubtype with h | h <;> rw [h] <;> decide
  unfold readUncompressedTimes at htimes
  split_ifs at htimes with htype
  · obtain ⟨_, _, _, rfl⟩ := readContinuous_wellFormed htimes
    obtain ⟨size, hsize, huncompressed⟩ := fixBufferSize_eq format { frame with
      dwMinFrameInterval := _, dwMaxFrameInterval := _, dwFrameIntervalStep := _ }
    rw [hsize]
    have hempty (l : List UInt32) : ¬ frame.HasIntervals l := by
      intro hl
      rw [FrameDesc.HasIntervals, hnone] at hl
      exact Option.some_ne_none _ hl.symm
    exact ⟨hkind, fun _ => hnone, fun h => absurd htype h, fun h => absurd h hother,
      fun _ => hline, fun _ l hl => absurd hl (hempty l), fun _ l _ _ hl => absurd hl (hempty l),
      huncompressed⟩
  · obtain ⟨l, first, last, hlength, hnonzero, hfirst, hlast, rfl⟩ := readDiscrete_eq_some htimes
    obtain ⟨size, hsize, huncompressed⟩ := fixBufferSize_eq format { frame with
      intervals := _, dwDefaultFrameInterval := _ }
    rw [hsize]
    refine ⟨hkind, fun h => absurd h htype, fun _ => ⟨l, rfl, hlength, hmin, hmax, hstep⟩,
      fun h => absurd h hother, fun _ => hline, fun _ l' hl' => ?_, fun _ l' first' last' hl' => ?_,
      huncompressed⟩
    · obtain rfl : l' = l := FrameDesc.HasIntervals.eq hl' rfl
      exact hnonzero
    · obtain rfl : l' = l := FrameDesc.HasIntervals.eq hl' rfl
      rw [hfirst, hlast, Option.some.injEq, Option.some.injEq]
      rintro rfl rfl
      exact clamp_clamp first last _

/-- A block keeps the formats well formed. -/
theorem parseVs_wellFormed {blockSize : Nat} (h : streamIf.WellFormed)
    (hparse : parseVs streamIf block blockSize = some streamIf') : streamIf'.WellFormed := by
  rcases parseVs_cases hparse with ⟨hblock, hparse⟩ | ⟨hblock, hparse⟩ | ⟨hblock, hparse⟩ |
    ⟨hblock, hparse⟩ | ⟨hblock, hparse⟩ | ⟨-, hsame⟩
  · obtain ⟨format, rfl, hread, hguid, hnum, hvariable, hnil⟩ :=
      parseVsFormatUncompressed_eq_some hparse
    have hkind := (Option.some.inj (hblock.symm.trans hread)).symm
    refine h.appendFormat ⟨hguid, .inl hkind, fun hmjpeg => ?_, fun _ => ⟨hnum, hvariable⟩, ?_⟩
    · exact absurd (hkind.symm.trans hmjpeg) (by decide)
    · rw [hnil]
      nofun
  · obtain ⟨format, rfl, hread, hguid, hbits, hnum, hvariable, hnil⟩ :=
      parseVsFormatMjpeg_eq_some hparse
    have hkind := (Option.some.inj (hblock.symm.trans hread)).symm
    refine h.appendFormat ⟨by rw [hguid]; rfl, .inr (.inl hkind), fun _ => ⟨hguid, hbits⟩,
      fun _ => ⟨hnum, hvariable⟩, ?_⟩
    rw [hnil]
    nofun
  · obtain ⟨format, rfl, hread, hguid, hnil⟩ := parseVsFrameFormat_eq_some hparse
    have hkind := (Option.some.inj (hblock.symm.trans hread)).symm
    refine h.appendFormat ⟨hguid, .inr (.inr hkind), fun hmjpeg => ?_, fun hne => ?_, ?_⟩
    · exact absurd (hkind.symm.trans hmjpeg) (by decide)
    · exact absurd hkind hne
    · rw [hnil]
      nofun
  · obtain ⟨format, frame, frame', hlast, hframe, htimes, rfl⟩ :=
      parseVsFrameUncompressed_eq_some hparse
    exact h.appendFrame hlast (frameUncompressed_wellFormed hblock hframe htimes format)
  · obtain ⟨format, frame, frame', hlast, hframe, htimes, rfl⟩ := parseVsFrameFrame_eq_some hparse
    exact h.appendFrame hlast (frameFrame_wellFormed hblock hframe htimes _)
  · intro format hformat
    rw [hsame] at hformat
    exact h format hformat

/-- **Whatever the buffer says, the formats of a scan are well formed.** -/
theorem scan_wellFormed {ifDesc : InterfaceDescriptor}
    (h : Returns (scanStreaming ifDesc) (some streamIf)) : streamIf.WellFormed := by
  rw [scanStreaming_eq] at h
  obtain ⟨-, hwell⟩ := Scanner.of_returns (I := fun _ s => s.WellFormed) nofun
    (fun p s k t hs _ _ _ ht => by
      obtain ⟨blockSize, -, hparse⟩ := Option.bind_eq_some_iff.mp ht
      exact parseVs_wellFormed hs hparse) h
  exact hwell

/-- A camera with one MJPEG format, of one size at two rates. -/
def mjpegCamera : InterfaceDescriptor where
  bInterfaceNumber := 1
  bAlternateSetting := 0
  endpoint := []
  extra := [11, 0x24, 0x06, 1, 1, 0, 1, 0, 0, 0, 0,
    34, 0x24, 0x07, 1, 0, 0x80, 0x02, 0xe0, 0x01, 0, 0, 1, 0, 0, 0, 2, 0, 0, 0, 9, 0,
    0x15, 0x16, 5, 0, 2, 0x15, 0x16, 5, 0, 0x2a, 0x2c, 0x0a, 0]
  length_extra := by decide

theorem scan_wellFormed_mjpegCamera :
    ∃ streamIf, streamIf.formatDescs.length = 1 ∧
      Returns (scanStreaming mjpegCamera) (some streamIf) ∧ streamIf.WellFormed := by
  have hscan : (scanStreaming mjpegCamera 3).map (Option.map (·.formatDescs.length)) =
      some (some 1) := by decide
  obtain ⟨result, hrun, hresult⟩ := Option.map_eq_some_iff.mp hscan
  obtain ⟨streamIf, rfl, hlength⟩ := Option.map_eq_some_iff.mp hresult
  rw [scanStreaming_eq] at hrun
  have h : Returns (scanStreaming mjpegCamera) (some streamIf) := by
    rw [scanStreaming_eq]
    exact Scanner.returns_of_scan hrun
  exact ⟨streamIf, hlength, h, scan_wellFormed h⟩

end Kept

/-! ## What a camera writes -/

def FrameDesc.times (frame : FrameDesc) : List UInt8 :=
  if frame.bFrameIntervalType = 0 then
    intToDw frame.dwMinFrameInterval ++ (intToDw frame.dwMaxFrameInterval ++
      intToDw frame.dwFrameIntervalStep)
  else (frame.intervals.getD []).dropLast.flatMap intToDw

/-- The fields before the intervals, of a frame whose block has this size. -/
def FrameDesc.head (size : UInt8) (frame : FrameDesc) : List UInt8 :=
  size :: 0x24 :: frame.bDescriptorSubtype :: frame.bFrameIndex :: frame.bmCapabilities ::
    (shortToSw frame.wWidth ++ (shortToSw frame.wHeight ++ (intToDw frame.dwMinBitRate ++
      (intToDw frame.dwMaxBitRate ++
        (if frame.bDescriptorSubtype = vsFrameFrameBased then
          intToDw frame.dwDefaultFrameInterval ++
            (frame.bFrameIntervalType :: intToDw frame.dwBytesPerLine)
        else
          intToDw frame.dwMaxVideoFrameBufferSize ++
            (intToDw frame.dwDefaultFrameInterval ++ [frame.bFrameIntervalType]))))))

def FrameDesc.encode (frame : FrameDesc) : List UInt8 :=
  frame.head (UInt8.ofNat (26 + frame.times.length)) ++ frame.times

/-- The block of a format, without its frames. -/
def FormatDesc.head (format : FormatDesc) : List UInt8 :=
  if format.bDescriptorSubtype = vsFormatMjpeg then
    [11, 0x24, format.bDescriptorSubtype, format.bFormatIndex, 0, 0, format.bDefaultFrameIndex,
      format.bAspectRatioX, format.bAspectRatioY, format.bmInterlaceFlags, format.bCopyProtect]
  else
    (if format.bDescriptorSubtype = vsFormatFrameBased then 28 else 27) :: 0x24 ::
      format.bDescriptorSubtype :: format.bFormatIndex :: format.bNumFrameDescriptors ::
      (format.guidFormat ++ (format.bBitsPerPixel :: format.bDefaultFrameIndex ::
        format.bAspectRatioX :: format.bAspectRatioY :: format.bmInterlaceFlags ::
        format.bCopyProtect ::
        (if format.bDescriptorSubtype = vsFormatFrameBased then [format.bVariableSize] else [])))

def FormatDesc.encode (format : FormatDesc) : List UInt8 :=
  format.head ++ format.frameDescs.flatMap FrameDesc.encode

/-- The header of the interface; its controls have eight bytes each. -/
def StreamingInterface.head (streamIf : StreamingInterface) : List UInt8 :=
  let controls := streamIf.bmaControls.getD []
  UInt8.ofNat (13 + 8 * controls.length) :: 0x24 :: vsInputHeader :: 0 :: 0 :: 0 ::
    streamIf.bEndpointAddress :: streamIf.bmInfo :: streamIf.bTerminalLink ::
    streamIf.bStillCaptureMethod :: streamIf.bTriggerSupport :: streamIf.bTriggerUsage ::
    (if streamIf.bmaControls = none then 0 else 8) :: controls.flatMap longToQw

def StreamingInterface.encode (streamIf : StreamingInterface) : List UInt8 :=
  streamIf.head ++ streamIf.formatDescs.flatMap FormatDesc.encode

/-- The blocks have room for it. -/
structure StreamingInterface.Encodable (streamIf : StreamingInterface) : Prop where
  endpoint : streamIf.bEndpointAddress &&& 0x8f = streamIf.bEndpointAddress
  controls : ∀ l, streamIf.bmaControls = some l → l ≠ [] ∧ l.length ≤ 30
  intervals : ∀ format ∈ streamIf.formatDescs, ∀ frame ∈ format.frameDescs,
    frame.bFrameIntervalType.toNat ≤ 57

section Frames

variable {frame : FrameDesc} {block rest : List UInt8}

theorem swToShort_of_drop {s : UInt16} (offset : Nat)
    (h : block.drop offset = shortToSw s ++ rest) : swToShort block offset = some s := by
  rw [← swToShort_shortToSw s rest, ← h]
  simp [swToShort]

theorem dwToInt_of_drop {x : UInt32} (offset : Nat)
    (h : block.drop offset = intToDw x ++ rest) : dwToInt block offset = some x := by
  rw [← dwToInt_intToDw x rest, ← h]
  simp [dwToInt]

/-- The frame before its intervals are read. -/
def FrameDesc.untimed (frame : FrameDesc) : FrameDesc :=
  { frame with
    intervals := none, dwMinFrameInterval := 0, dwMaxFrameInterval := 0, dwFrameIntervalStep := 0 }

theorem readFrameFrame_head {size : UInt8} (h : frame.bDescriptorSubtype = vsFrameFrameBased)
    (hsize : frame.dwMaxVideoFrameBufferSize = 0) :
    readFrameFrame (frame.head size ++ rest) = some frame.untimed := by
  unfold readFrameFrame FrameDesc.head
  rw [if_pos h]
  simp only [List.cons_append, List.append_assoc]
  rw [swToShort_of_drop 5 rfl, swToShort_of_drop 7 rfl,
    dwToInt_of_drop 9 rfl, dwToInt_of_drop 13 rfl,
    dwToInt_of_drop 17 rfl, dwToInt_of_drop 22 rfl]
  simp only [FrameDesc.untimed, hsize]
  rfl

theorem readFrameUncompressed_head {size : UInt8}
    (h : frame.bDescriptorSubtype ≠ vsFrameFrameBased) (hline : frame.dwBytesPerLine = 0) :
    readFrameUncompressed (frame.head size ++ rest) = some frame.untimed := by
  unfold readFrameUncompressed FrameDesc.head
  rw [if_neg h]
  simp only [List.cons_append, List.append_assoc, List.nil_append]
  rw [swToShort_of_drop 5 rfl, swToShort_of_drop 7 rfl,
    dwToInt_of_drop 9 rfl, dwToInt_of_drop 13 rfl,
    dwToInt_of_drop 17 rfl, dwToInt_of_drop 21 rfl]
  simp only [FrameDesc.untimed, hline]
  rfl

theorem length_head {size : UInt8} : (frame.head size).length = 26 := by
  unfold FrameDesc.head
  split_ifs <;> rfl

theorem drop_head {size : UInt8} {k : Nat} :
    (frame.head size ++ rest).drop (26 + k) = rest.drop k := by
  have hlength : (frame.head size).length = 26 := length_head
  rw [← hlength, List.drop_length_add_append]

/-- A list of blocks of one length, from the `i`-th on. -/
theorem drop_flatMap {α β : Type*} {g : α → List β} {k : Nat} (hg : ∀ a, (g a).length = k)
    (l : List α) {i : Nat} (hi : i < l.length) (rest : List β) :
    (l.flatMap g ++ rest).drop (k * i) =
      g (l.get ⟨i, hi⟩) ++ ((l.drop (i + 1)).flatMap g ++ rest) := by
  induction l generalizing i with
  | nil => simp at hi
  | cons a l ih =>
    cases i with
    | zero => simp
    | succ i =>
      rw [List.flatMap_cons, List.append_assoc, Nat.mul_succ, Nat.add_comm, ← hg a,
        List.drop_length_add_append, hg a, ih (by simpa using hi)]
      rfl

theorem readIntervals_flatMap {size : UInt8} (l : List UInt32) :
    readIntervals (frame.head size ++ (l.flatMap intToDw ++ rest)) l.length = some l := by
  refine mapM_range_eq_some fun i hi => ?_
  apply dwToInt_of_drop (26 + 4 * i)
  rw [drop_head, drop_flatMap (k := 4) (fun _ => rfl) l hi]

theorem readContinuous_words {size : UInt8} {f : FrameDesc} (dwMin dwMax dwStep : UInt32) :
    readContinuous f
        (frame.head size ++ (intToDw dwMin ++ (intToDw dwMax ++ (intToDw dwStep ++ rest)))) =
      some { f with
        dwMinFrameInterval := dwMin, dwMaxFrameInterval := dwMax, dwFrameIntervalStep := dwStep } := by
  unfold readContinuous
  rw [dwToInt_of_drop 26 (drop_head (k := 0)),
    dwToInt_of_drop 30 (drop_head (k := 4)),
    dwToInt_of_drop 34 (drop_head (k := 8))]
  rfl

theorem times_of_continuous (h : frame.bFrameIntervalType = 0) :
    frame.times ++ rest = intToDw frame.dwMinFrameInterval ++ (intToDw frame.dwMaxFrameInterval ++
      (intToDw frame.dwFrameIntervalStep ++ rest)) := by
  unfold FrameDesc.times
  rw [if_pos h, List.append_assoc, List.append_assoc]

theorem times_of_discrete {l : List UInt32} (h : frame.bFrameIntervalType ≠ 0)
    (hl : frame.HasIntervals l) : frame.times = l.flatMap intToDw := by
  unfold FrameDesc.times
  rw [if_neg h, hl, Option.getD_some, List.dropLast_concat]

/-- The limits and the intervals that are read make the frame what it was. -/
theorem untimed_continuous (h : frame.intervals = none) :
    { frame.untimed with
      dwMinFrameInterval := frame.dwMinFrameInterval
      dwMaxFrameInterval := frame.dwMaxFrameInterval
      dwFrameIntervalStep := frame.dwFrameIntervalStep } = frame := by
  obtain ⟨⟩ := frame
  obtain rfl := h
  rfl

theorem untimed_discrete {l : List UInt32} (h : frame.HasIntervals l)
    (hmin : frame.dwMinFrameInterval = 0) (hmax : frame.dwMaxFrameInterval = 0)
    (hstep : frame.dwFrameIntervalStep = 0) :
    { frame.untimed with intervals := some (l ++ [0]) } = frame := by
  unfold FrameDesc.HasIntervals at h
  obtain ⟨⟩ := frame
  simp only at h hmin hmax hstep
  subst h hmin hmax hstep
  rfl

theorem readFrameTimes_encode {size bBitsPerPixel : UInt8} (h : frame.WellFormed bBitsPerPixel) :
    readFrameTimes frame.untimed (frame.head size ++ (frame.times ++ rest)) = some frame := by
  unfold readFrameTimes
  by_cases htype : frame.bFrameIntervalType = 0
  · refine (if_pos htype).trans ?_
    rw [times_of_continuous htype, readContinuous_words, untimed_continuous (h.continuous htype)]
  · obtain ⟨l, hl, hlength, hmin, hmax, hstep⟩ := h.discrete htype
    refine (if_neg htype).trans ?_
    rw [times_of_discrete htype hl, show frame.untimed.bFrameIntervalType.toNat = l.length from
      hlength.symm, readIntervals_flatMap, Option.map_some, untimed_discrete hl hmin hmax hstep]

theorem readUncompressedTimes_encode {size bBitsPerPixel : UInt8}
    (h : frame.WellFormed bBitsPerPixel) (hkind : frame.bDescriptorSubtype ≠ vsFrameFrameBased) :
    readUncompressedTimes frame.untimed (frame.head size ++ (frame.times ++ rest)) = some frame := by
  unfold readUncompressedTimes
  by_cases htype : frame.bFrameIntervalType = 0
  · refine (if_pos htype).trans ?_
    rw [times_of_continuous htype, readContinuous_words, untimed_continuous (h.continuous htype)]
  · obtain ⟨l, hl, hlength, hmin, hmax, hstep⟩ := h.discrete htype
    have hpos : 0 < l.length := by
      rw [hlength]
      exact toNat_pos htype
    have hsame : (l.map fun interval => if interval ≠ 0 then interval else 1) = l := by
      refine List.map_congr_left (fun interval hinterval => ?_) |>.trans (List.map_id l)
      exact if_pos (h.nonzero hkind l hl interval hinterval)
    have hfirst := List.getElem?_eq_getElem hpos
    have hlast := List.getElem?_eq_getElem (show l.length - 1 < l.length by omega)
    have hdefault := h.default hkind l _ _ hl (by rw [List.head?_eq_getElem?, hfirst])
      (by rw [List.getLast?_eq_getElem?, hlast])
    refine (if_neg htype).trans ?_
    rw [times_of_discrete htype hl, show frame.untimed.bFrameIntervalType.toNat = l.length from
      hlength.symm]
    unfold readDiscrete
    rw [readIntervals_flatMap]
    simp only [Option.bind_eq_bind, Option.bind_some, hsame, hfirst, hlast]
    refine congrArg some (Eq.trans ?_ (untimed_discrete hl hmin hmax hstep))
    rw [show frame.untimed.dwDefaultFrameInterval = frame.dwDefaultFrameInterval from rfl, hdefault]
    rfl

theorem fixBufferSize_self {format : FormatDesc} (h : frame.WellFormed format.bBitsPerPixel) :
    fixBufferSize format frame = frame := by
  unfold fixBufferSize
  split_ifs with hkind
  · rw [← h.uncompressed hkind]
  · rfl

/-- **A frame that is written is read back.** -/
theorem parseVs_frame {streamIf : StreamingInterface} {format : FormatDesc} {blockSize : Nat}
    (h : frame.WellFormed format.bBitsPerPixel)
    (hlast : streamIf.formatDescs.getLast? = some format) :
    parseVs streamIf (frame.encode ++ rest) blockSize = some (streamIf.appendFrame format frame) := by
  unfold FrameDesc.encode
  rw [List.append_assoc]
  generalize UInt8.ofNat (26 + frame.times.length) = size
  have hsubtype (l : List UInt8) : (frame.head size ++ l)[2]? = some frame.bDescriptorSubtype := rfl
  unfold parseVs
  rw [hsubtype]
  by_cases hkind : frame.bDescriptorSubtype = vsFrameFrameBased
  · simp only [Option.bind_eq_bind, Option.bind_some, hkind]
    unfold parseVsFrameFrame
    rw [hlast, readFrameFrame_head hkind (h.frameBased hkind)]
    simp only [Option.bind_eq_bind, Option.bind_some]
    rw [readFrameTimes_encode h]
    rfl
  · have hother : frame.bDescriptorSubtype = vsFrameUncompressed ∨
        frame.bDescriptorSubtype = vsFrameMjpeg := by
      have hall := h.subtype
      tauto
    have hne (x : UInt8) (hx : x ≠ vsFrameUncompressed ∧ x ≠ vsFrameMjpeg) :
        frame.bDescriptorSubtype ≠ x := by
      rintro rfl
      tauto
    rw [Option.bind_eq_bind, Option.bind_some, if_neg (hne _ (by decide)),
      if_neg (hne _ (by decide)), if_neg (hne _ (by decide)), if_pos hother]
    unfold parseVsFrameUncompressed
    rw [hlast, readFrameUncompressed_head hkind (h.bytesPerLine hkind)]
    simp only [Option.bind_eq_bind, Option.bind_some]
    rw [readUncompressedTimes_encode h hkind]
    exact congrArg some (by rw [fixBufferSize_self h])

end Frames

section Formats

variable {format : FormatDesc} {streamIf : StreamingInterface} {rest : List UInt8}

theorem readBlock_of_drop {block bytes : List UInt8} {offset : Nat} (rest : List UInt8)
    (h : block.drop offset = bytes ++ rest) (hoffset : offset ≤ block.length) :
    readBlock block offset bytes.length = some bytes := by
  have hlength := congrArg List.length h
  rw [List.length_drop, List.length_append] at hlength
  unfold readBlock
  rw [if_pos (by omega), h, List.take_left]

/-- The bytes behind the GUID of a format. -/
theorem getElem?_behind_guid {size cs subtype index num : UInt8} {guid tail : List UInt8}
    (h : guid.length = 16) (k : Nat) :
    (size :: cs :: subtype :: index :: num :: (guid ++ tail))[21 + k]? = tail[k]? := by
  have hdrop : (size :: cs :: subtype :: index :: num :: (guid ++ tail)).drop 21 = tail := by
    show (guid ++ tail).drop 16 = tail
    rw [← h, List.drop_left]
  rw [← List.getElem?_drop, hdrop]

theorem readBlock_guid {size cs subtype index num : UInt8} {guid tail : List UInt8}
    (h : guid.length = 16) :
    readBlock (size :: cs :: subtype :: index :: num :: (guid ++ tail)) 5 16 = some guid := by
  rw [← h]
  exact readBlock_of_drop tail rfl (by simp)

theorem parseVsFormatUncompressed_head {size cs subtype index num bits default x y flags copy : UInt8}
    {guid : List UInt8} (h : guid.length = 16) :
    parseVsFormatUncompressed streamIf (size :: cs :: subtype :: index :: num :: (guid ++
        (bits :: default :: x :: y :: flags :: copy :: rest))) =
      some (streamIf.appendFormat
        { bDescriptorSubtype := subtype, bFormatIndex := index, guidFormat := guid
          bBitsPerPixel := bits, bDefaultFrameIndex := default, bAspectRatioX := x
          bAspectRatioY := y, bmInterlaceFlags := flags, bCopyProtect := copy }) := by
  have hat (k : Nat) : (size :: cs :: subtype :: index :: num :: (guid ++
      (bits :: default :: x :: y :: flags :: copy :: rest)))[21 + k]? =
        (bits :: default :: x :: y :: flags :: copy :: rest)[k]? := getElem?_behind_guid h k
  unfold parseVsFormatUncompressed
  rw [readBlock_guid h, hat 0, hat 1, hat 2, hat 3, hat 4, hat 5]
  rfl

theorem parseVsFrameFormat_head
    {size cs subtype index num bits default x y flags copy varying : UInt8} {guid : List UInt8}
    (h : guid.length = 16) :
    parseVsFrameFormat streamIf (size :: cs :: subtype :: index :: num :: (guid ++
        (bits :: default :: x :: y :: flags :: copy :: varying :: rest))) =
      some (streamIf.appendFormat
        { bDescriptorSubtype := subtype, bFormatIndex := index, bNumFrameDescriptors := num
          guidFormat := guid, bBitsPerPixel := bits, bDefaultFrameIndex := default
          bAspectRatioX := x, bAspectRatioY := y, bmInterlaceFlags := flags, bCopyProtect := copy
          bVariableSize := varying }) := by
  have hat (k : Nat) : (size :: cs :: subtype :: index :: num :: (guid ++
      (bits :: default :: x :: y :: flags :: copy :: varying :: rest)))[21 + k]? =
        (bits :: default :: x :: y :: flags :: copy :: varying :: rest)[k]? :=
    getElem?_behind_guid h k
  unfold parseVsFrameFormat
  rw [readBlock_guid h, hat 0, hat 1, hat 2, hat 3, hat 4, hat 5, hat 6]
  rfl

/-- **A format that is written is read back**, without its frames. -/
theorem parseVs_format {blockSize : Nat} (h : format.WellFormed) :
    parseVs streamIf (format.head ++ rest) blockSize =
      some (streamIf.appendFormat { format with frameDescs := [] }) := by
  have hsubtype : (format.head ++ rest)[2]? = some format.bDescriptorSubtype := by
    unfold FormatDesc.head
    split_ifs <;> rfl
  unfold parseVs
  rw [hsubtype, Option.bind_eq_bind, Option.bind_some]
  unfold FormatDesc.head
  by_cases hmjpeg : format.bDescriptorSubtype = vsFormatMjpeg
  · obtain ⟨hguid, hbits⟩ := h.mjpeg hmjpeg
    obtain ⟨hnum, hvariable⟩ := h.unsized (by rw [hmjpeg]; decide)
    rw [if_neg (by rw [hmjpeg]; decide), if_neg (by rw [hmjpeg]; decide), if_pos hmjpeg,
      if_pos hmjpeg]
    refine congrArg some (congrArg streamIf.appendFormat ?_)
    rw [hguid, hbits, hnum, hvariable]
  · rw [if_neg hmjpeg]
    by_cases hframe : format.bDescriptorSubtype = vsFormatFrameBased
    · rw [if_neg (by rw [hframe]; decide), if_neg (by rw [hframe]; decide), if_neg hmjpeg,
        if_neg (by rw [hframe]; decide), if_pos hframe, if_pos hframe, if_pos hframe]
      simp only [List.cons_append, List.append_assoc, List.nil_append]
      rw [parseVsFrameFormat_head h.guid]
    · have huncompressed : format.bDescriptorSubtype = vsFormatUncompressed := by
        have hall := h.subtype
        tauto
      obtain ⟨hnum, hvariable⟩ := h.unsized hframe
      rw [if_neg (by rw [huncompressed]; decide), if_pos huncompressed, if_neg hframe,
        if_neg hframe]
      simp only [List.cons_append, List.append_assoc, List.nil_append]
      rw [parseVsFormatUncompressed_head h.guid, hnum, hvariable]

end Formats

section Header

variable {streamIf : StreamingInterface} {block rest : List UInt8}

theorem numControls_eight {k : Nat} (hk : k ≤ 30) : numControls (13 + 8 * k) 8 = k := by
  unfold numControls
  omega

/-- Eight bytes, joined from the last one on. -/
theorem join_control (x : UInt64) :
    (longToQw x).foldr (fun bma (control : UInt64) => bma.toUInt64 + control <<< 8) 0 = x := by
  have hshift (y : UInt64) : (y <<< 8).toNat = y.toNat * 256 % 2 ^ 64 := by
    rw [UInt64.toNat_shiftLeft]
    exact congrArg (· % 2 ^ 64) (Nat.shiftLeft_eq _ _)
  have hbyte (k : UInt64) :
      (x >>> k).toUInt8.toUInt64.toNat = x.toNat / 2 ^ (k.toNat % 64) % 256 := by
    simp [Nat.shiftRight_eq_div_pow]
  have hlt := x.toNat_lt
  apply UInt64.toNat_inj.mp
  simp only [longToQw, List.foldr_cons, List.foldr_nil, UInt64.toNat_add, hshift, hbyte]
  simp
  omega

theorem readControl_of_drop {x : UInt64} {pp : Nat}
    (h : block.drop (13 + 8 * pp) = longToQw x ++ rest) :
    readControl block 8 (pp + 1) = some x := by
  have hat (k : Nat) (hk : k < 8) : block[12 + (pp + 1) * 8 - k]? = (longToQw x ++ rest)[7 - k]? := by
    rw [← h, List.getElem?_drop]
    congr 1
    omega
  unfold readControl
  rw [show List.range 8 = [0, 1, 2, 3, 4, 5, 6, 7] from rfl]
  simp only [List.foldlM_cons, List.foldlM_nil, hat 0 (by omega), hat 1 (by omega),
    hat 2 (by omega), hat 3 (by omega), hat 4 (by omega), hat 5 (by omega), hat 6 (by omega),
    hat 7 (by omega)]
  exact congrArg some (join_control x)

theorem length_flatMap_longToQw (l : List UInt64) : (l.flatMap longToQw).length = 8 * l.length := by
  induction l with
  | nil => rfl
  | cons x l ih =>
    rw [List.flatMap_cons, List.length_append, ih, List.length_cons]
    show 8 + _ = _
    omega

theorem length_streamHead :
    streamIf.head.length = 13 + 8 * (streamIf.bmaControls.getD []).length := by
  unfold StreamingInterface.head
  simp only [List.length_cons, length_flatMap_longToQw]
  omega

/-- The controls of the header. -/
theorem readControls_head (h : streamIf.Encodable) :
    readControls (streamIf.head ++ rest) (13 + 8 * (streamIf.bmaControls.getD []).length)
      (if streamIf.bmaControls = none then 0 else 8) = some streamIf.bmaControls := by
  unfold readControls
  cases hcontrols : streamIf.bmaControls with
  | none => rfl
  | some l =>
    obtain ⟨hne, hle⟩ := h.controls l hcontrols
    have hpos : 0 < l.length := List.length_pos_iff.mpr hne
    rw [if_neg (Option.some_ne_none l), Option.getD_some, numControls_eight hle,
      if_pos ⟨by decide, by omega⟩, mapM_range_eq_some (l := l) fun pp hpp => ?_, Option.map_some]
    apply readControl_of_drop
    have hdrop : (streamIf.head ++ rest).drop 13 = l.flatMap longToQw ++ rest := by
      unfold StreamingInterface.head
      rw [hcontrols]
      rfl
    rw [← List.drop_drop, hdrop, drop_flatMap (k := 8) (fun _ => rfl) l hpp]

theorem parseVs_header {blockSize : Nat} (h : streamIf.Encodable)
    (hsize : blockSize = streamIf.head.length) (s : StreamingInterface)
    (hnum : s.bInterfaceNumber = streamIf.bInterfaceNumber) (hnil : s.formatDescs = []) :
    parseVs s (streamIf.head ++ rest) blockSize = some { streamIf with formatDescs := [] } := by
  rw [hsize, length_streamHead]
  have hcontrols : readControls (streamIf.head ++ rest) _ _ = _ := readControls_head h
  have hn : (streamIf.head ++ rest)[12]? =
      some (if streamIf.bmaControls = none then 0 else 8) := rfl
  have htoNat : (if streamIf.bmaControls = none then 0 else 8 : UInt8).toNat =
      if streamIf.bmaControls = none then 0 else 8 := by
    split_ifs <;> rfl
  unfold parseVs
  rw [show (streamIf.head ++ rest)[2]? = some vsInputHeader from rfl, Option.bind_eq_bind,
    Option.bind_some, if_pos rfl]
  unfold parseVsInputHeader
  rw [hn]
  simp only [Option.bind_eq_bind, Option.bind_some, htoNat, hcontrols]
  refine congrArg some ?_
  rw [h.endpoint, ← hnum, ← hnil]

end Header

/-! ## The scan of what is written -/

section Scan

variable {extra pre post : List UInt8} {s t : StreamingInterface} {r : Option StreamingInterface}

/-- One block, wherever it stands. -/
theorem returns_block (block : List UInt8) (hextra : extra = pre ++ (block ++ post)) {size : UInt8}
    (hsize : block[0]? = some size) (hlength : block.length = size.toNat) (h3 : 3 ≤ block.length)
    (hparse : parseVs s (block ++ post) size.toNat = some t)
    (hrest :
      Returns (fun fuel => (descriptorScanner extra).scan fuel (pre.length + block.length) t) r) :
    Returns (fun fuel => (descriptorScanner extra).scan fuel pre.length s) r := by
  have hat : extra[pre.length]? = some size := by
    rw [hextra, List.getElem?_append_right (Nat.le_refl _), Nat.sub_self,
      List.getElem?_append_left (by omega), hsize]
  have hdrop : extra.drop pre.length = block ++ post := by rw [hextra, List.drop_left]
  have hle : pre.length + 3 ≤ extra.length := by
    rw [hextra, List.length_append, List.length_append]
    omega
  refine Scanner.returns_next hle (k := block.length) (t := t) ?_ ?_ hrest
  · rw [hlength]
    exact congrArg (Option.map UInt8.toNat) hat
  · show extra[pre.length]?.bind _ = _
    rw [hat, Option.bind_some, hdrop, hparse]

theorem length_times {bBitsPerPixel : UInt8} {frame : FrameDesc}
    (h : frame.WellFormed bBitsPerPixel)
    (hshort : frame.bFrameIntervalType.toNat ≤ 57) : frame.times.length < 230 := by
  by_cases htype : frame.bFrameIntervalType = 0
  · unfold FrameDesc.times
    rw [if_pos htype]
    exact Nat.lt_of_le_of_lt (Nat.le_refl 12) (by omega)
  · obtain ⟨l, hl, hlength, -⟩ := h.discrete htype
    have hwords : (l.flatMap intToDw).length = l.length * 4 := by
      simp [List.length_flatMap, intToDw]
    rw [times_of_discrete htype hl, hwords]
    omega

/-- A frame behind the frames of the last format. -/
theorem appendFormat_appendFrame (format : FormatDesc) (frame : FrameDesc) :
    (s.appendFormat format).appendFrame format frame =
      s.appendFormat { format with frameDescs := format.frameDescs ++ [frame] } := by
  unfold StreamingInterface.appendFormat StreamingInterface.appendFrame
  simp only [List.dropLast_concat]

/-- The frames of a format, one after the other. -/
theorem returns_frames {format : FormatDesc} (frames : List FrameDesc)
    (hframes : ∀ frame ∈ frames, frame.WellFormed format.bBitsPerPixel ∧
      frame.bFrameIntervalType.toNat ≤ 57)
    (hextra : extra = pre ++ (frames.flatMap FrameDesc.encode ++ post)) (before : List FrameDesc)
    (hrest : Returns (fun fuel => (descriptorScanner extra).scan fuel
      (pre ++ frames.flatMap FrameDesc.encode).length
      (s.appendFormat { format with frameDescs := before ++ frames })) r) :
    Returns (fun fuel => (descriptorScanner extra).scan fuel pre.length
      (s.appendFormat { format with frameDescs := before })) r := by
  induction frames generalizing pre before with
  | nil => simpa using hrest
  | cons frame frames ih =>
    obtain ⟨⟨hwell, hshort⟩, hframes⟩ := List.forall_mem_cons.mp hframes
    rw [List.flatMap_cons, List.append_assoc] at hextra
    have htimes := length_times hwell hshort
    have hlength : frame.encode.length = 26 + frame.times.length := by
      unfold FrameDesc.encode
      rw [List.length_append, length_head]
    have hsize : frame.encode.length = (UInt8.ofNat (26 + frame.times.length)).toNat := by
      rw [hlength, UInt8.toNat_ofNat', Nat.mod_eq_of_lt (by omega)]
    have hparse (blockSize : Nat) : parseVs (s.appendFormat { format with frameDescs := before })
        (frame.encode ++ (frames.flatMap FrameDesc.encode ++ post)) blockSize =
          some (s.appendFormat { format with frameDescs := before ++ [frame] }) := by
      have hlast : (s.appendFormat { format with frameDescs := before }).formatDescs.getLast? =
          some { format with frameDescs := before } := List.getLast?_concat
      have hframe : frame.WellFormed
          ({ format with frameDescs := before } : FormatDesc).bBitsPerPixel := hwell
      rw [parseVs_frame hframe hlast, appendFormat_appendFrame]
    refine returns_block _ hextra rfl hsize (by omega) (hparse _) ?_
    rw [← List.length_append]
    refine ih hframes (by rw [hextra, List.append_assoc]) (before ++ [frame]) ?_
    rwa [List.append_assoc, List.append_assoc, ← List.flatMap_cons]

/-- The size of a format's block. -/
theorem format_head {format : FormatDesc} (h : format.WellFormed) :
    ∃ size, format.head[0]? = some size ∧ format.head.length = size.toNat ∧
      3 ≤ format.head.length := by
  unfold FormatDesc.head
  split_ifs
  · exact ⟨11, rfl, rfl, by simp⟩
  · refine ⟨28, rfl, ?_, ?_⟩ <;> simp [h.guid]
  · refine ⟨27, rfl, ?_, ?_⟩ <;> simp [h.guid]

/-- The formats of an interface, one after the other. -/
theorem returns_formats (formats : List FormatDesc)
    (hformats : ∀ format ∈ formats, format.WellFormed ∧
      ∀ frame ∈ format.frameDescs, frame.bFrameIntervalType.toNat ≤ 57)
    (hextra : extra = pre ++ (formats.flatMap FormatDesc.encode ++ post))
    (hrest : Returns (fun fuel => (descriptorScanner extra).scan fuel
      (pre ++ formats.flatMap FormatDesc.encode).length
      { s with formatDescs := s.formatDescs ++ formats }) r) :
    Returns (fun fuel => (descriptorScanner extra).scan fuel pre.length s) r := by
  induction formats generalizing pre s with
  | nil => simpa using hrest
  | cons format formats ih =>
    obtain ⟨⟨hwell, hshort⟩, hformats⟩ := List.forall_mem_cons.mp hformats
    have hencode : format.encode = format.head ++ format.frameDescs.flatMap FrameDesc.encode := rfl
    rw [List.flatMap_cons, List.append_assoc, hencode, List.append_assoc] at hextra
    obtain ⟨size, hsize, hlength, h3⟩ := format_head hwell
    refine returns_block _ hextra hsize hlength h3 (parseVs_format hwell) ?_
    rw [← List.length_append]
    refine returns_frames format.frameDescs (fun frame hframe => ⟨hwell.frames frame hframe,
      hshort frame hframe⟩) (by rw [hextra, List.append_assoc]) [] ?_
    refine ih hformats (by rw [hextra]; simp only [List.append_assoc]) ?_
    have hpre : pre ++ format.head ++ format.frameDescs.flatMap FrameDesc.encode ++
        formats.flatMap FormatDesc.encode = pre ++ (format :: formats).flatMap FormatDesc.encode := by
      rw [List.flatMap_cons, hencode]
      simp only [List.append_assoc]
    rw [hpre]
    unfold StreamingInterface.appendFormat
    simpa only [List.nil_append, List.append_assoc, List.singleton_append] using hrest

/-- **What is written is read back.** -/
theorem scan_encode {ifDesc : InterfaceDescriptor} {streamIf : StreamingInterface}
    (h : streamIf.WellFormed) (henc : streamIf.Encodable) (hextra : ifDesc.extra = streamIf.encode)
    (hnum : ifDesc.bInterfaceNumber = streamIf.bInterfaceNumber) :
    Returns (scanStreaming ifDesc) (some streamIf) := by
  have hne : streamIf.encode ≠ [] := by
    unfold StreamingInterface.encode StreamingInterface.head
    exact List.cons_ne_nil _ _
  have hbuffer : ifDesc.buffer = streamIf.encode := by
    unfold InterfaceDescriptor.buffer
    rw [hextra, if_neg hne]
  have hcontrols : (streamIf.bmaControls.getD []).length ≤ 30 := by
    cases hc : streamIf.bmaControls with
    | none => exact Nat.zero_le _
    | some l => exact (henc.controls l hc).2
  have hsize : streamIf.head.length =
      (UInt8.ofNat (13 + 8 * (streamIf.bmaControls.getD []).length)).toNat := by
    rw [length_streamHead, UInt8.toNat_ofNat', Nat.mod_eq_of_lt (by omega)]
  have hlength : streamIf.head.length = _ := length_streamHead
  rw [scanStreaming_eq, hbuffer]
  unfold StreamingInterface.encode
  have hall : streamIf.head ++ streamIf.formatDescs.flatMap FormatDesc.encode =
      [] ++ (streamIf.head ++ (streamIf.formatDescs.flatMap FormatDesc.encode ++ [])) := by
    rw [List.append_nil, List.nil_append]
  refine returns_block streamIf.head hall rfl hsize (by omega)
    (parseVs_header henc hsize.symm _ hnum rfl) ?_
  rw [← List.length_append]
  refine returns_formats streamIf.formatDescs (fun format hformat => ⟨h format hformat,
    henc.intervals format hformat⟩) hall ?_
  exact Scanner.returns_stop (by simp [descriptorScanner]) (by simp [descriptorScanner])

/-- The interface of such a camera, with a header. -/
def mjpegStream : StreamingInterface where
  bInterfaceNumber := 1
  bEndpointAddress := 0x81
  bmaControls := some [4]
  formatDescs := [{
    bDescriptorSubtype := vsFormatMjpeg, bFormatIndex := 1, guidFormat := fourccMjpg
    bDefaultFrameIndex := 1
    frameDescs := [{
      bDescriptorSubtype := vsFrameMjpeg, bFrameIndex := 1, wWidth := 640, wHeight := 480
      dwDefaultFrameInterval := 333333, bFrameIntervalType := 2
      intervals := some [333333, 666666, 0] }] }]

theorem mjpegStream_wellFormed : mjpegStream.WellFormed := by
  have hintervals {l : List UInt32} (hl : some [333333, 666666, 0] = some (l ++ [0])) :
      l = [333333, 666666] :=
    (List.append_cancel_right (Option.some.inj hl : [333333, 666666] ++ [0] = l ++ [0])).symm
  intro format hformat
  obtain rfl := List.mem_singleton.mp hformat
  refine ⟨rfl, by decide, fun _ => ⟨rfl, rfl⟩, fun _ => ⟨rfl, rfl⟩, fun frame hframe => ?_⟩
  obtain rfl := List.mem_singleton.mp hframe
  refine ⟨by decide, fun h => absurd h (by decide),
    fun _ => ⟨[333333, 666666], rfl, rfl, rfl, rfl, rfl⟩, fun h => absurd h (by decide),
    fun _ => rfl, fun _ l hl => ?_, fun _ l first last hl => ?_, fun h => absurd h (by decide)⟩
  · obtain rfl := hintervals hl
    exact List.forall_mem_cons.mpr ⟨by decide, List.forall_mem_singleton.mpr (by decide)⟩
  · obtain rfl := hintervals hl
    rintro ⟨⟩ ⟨⟩
    decide

theorem scan_encode_mjpegStream :
    Returns (scanStreaming ⟨1, 0, [], mjpegStream.encode, by decide⟩) (some mjpegStream) := by
  refine scan_encode mjpegStream_wellFormed ⟨by decide, fun l hl => ?_, fun format hformat => ?_⟩
    rfl rfl
  · obtain rfl := Option.some.inj hl
    exact ⟨by decide, by decide⟩
  · obtain rfl := List.mem_singleton.mp hformat
    intro frame hframe
    obtain rfl := List.mem_singleton.mp hframe
    decide

end Scan

end PetDev.Uvc
