import Mathlib.Data.List.Basic
import Mathlib.Tactic.Ring
import PetDev.Lib.Blocks
import PetDev.Lib.Partial
import PetDev.Uvc.Words

/-!
# The descriptors of a video stream

`uvc_scan_streaming` reads the class-specific descriptors of an interface, one block after the
other: `uvc_parse_vs` looks at the subtype and adds a format, or a frame to the last format.
None of them looks at the size of its block, or at what is left of the buffer, and a frame takes
for granted that there is a format.

Here a read past the buffer and a frame without a format are faults.  `scan_ends_iff` says which
buffers are read without one, to their end.
-/

namespace PetDev.Uvc

/-! ## The source -/

def vsInputHeader : UInt8 := 0x01
def vsFormatUncompressed : UInt8 := 0x04
def vsFrameUncompressed : UInt8 := 0x05
def vsFormatMjpeg : UInt8 := 0x06
def vsFrameMjpeg : UInt8 := 0x07
def vsFormatFrameBased : UInt8 := 0x10
def vsFrameFrameBased : UInt8 := 0x11

/-- `uvc_frame_desc`; `calloc` clears it.  The array of `intervals` ends with a zero. -/
structure FrameDesc where
  bDescriptorSubtype : UInt8 := 0
  bFrameIndex : UInt8 := 0
  bmCapabilities : UInt8 := 0
  wWidth : UInt16 := 0
  wHeight : UInt16 := 0
  dwMinBitRate : UInt32 := 0
  dwMaxBitRate : UInt32 := 0
  dwMaxVideoFrameBufferSize : UInt32 := 0
  dwDefaultFrameInterval : UInt32 := 0
  dwMinFrameInterval : UInt32 := 0
  dwMaxFrameInterval : UInt32 := 0
  dwFrameIntervalStep : UInt32 := 0
  bFrameIntervalType : UInt8 := 0
  dwBytesPerLine : UInt32 := 0
  intervals : Option (List UInt32) := none

/-- `uvc_format_desc`; `bBitsPerPixel` and `bmFlags` are one byte. -/
structure FormatDesc where
  bDescriptorSubtype : UInt8 := 0
  bFormatIndex : UInt8 := 0
  bNumFrameDescriptors : UInt8 := 0
  guidFormat : List UInt8 := List.replicate 16 0
  bBitsPerPixel : UInt8 := 0
  bDefaultFrameIndex : UInt8 := 0
  bAspectRatioX : UInt8 := 0
  bAspectRatioY : UInt8 := 0
  bmInterlaceFlags : UInt8 := 0
  bCopyProtect : UInt8 := 0
  bVariableSize : UInt8 := 0
  frameDescs : List FrameDesc := []

/-- `uvc_streaming_interface`. -/
structure StreamingInterface where
  bInterfaceNumber : UInt8 := 0
  formatDescs : List FormatDesc := []
  bEndpointAddress : UInt8 := 0
  bTerminalLink : UInt8 := 0
  bmInfo : UInt8 := 0
  bStillCaptureMethod : UInt8 := 0
  bTriggerSupport : UInt8 := 0
  bTriggerUsage : UInt8 := 0
  bmaControls : Option (List UInt64) := none

/-- `DL_APPEND(stream_if->format_descs, format)`. -/
def StreamingInterface.appendFormat (streamIf : StreamingInterface) (format : FormatDesc) :
    StreamingInterface :=
  { streamIf with formatDescs := streamIf.formatDescs ++ [format] }

/-- `DL_APPEND(format->frame_descs, frame)`, where `format` is `stream_if->format_descs->prev`: the
last one. -/
def StreamingInterface.appendFrame (streamIf : StreamingInterface) (format : FormatDesc)
    (frame : FrameDesc) : StreamingInterface :=
  { streamIf with
    formatDescs := streamIf.formatDescs.dropLast ++
      [{ format with frameDescs := format.frameDescs ++ [frame] }] }

/-- The bytes of a control, from the last one on: `*bmaControls = *bma-- + (*bmaControls << 8)`. -/
def readControl (block : List UInt8) (n pp : Nat) : Option UInt64 :=
  (List.range n).foldlM (fun control nn => do
    let bma ← block[12 + pp * n - nn]?
    return bma.toUInt64 + control <<< 8) 0

/-- `p = (block_size - 13) / n`, a byte; the difference is a `size_t`. -/
def numControls (blockSize n : Nat) : Nat := (blockSize + 2 ^ 32 - 13) % 2 ^ 32 / n % 256

/-- `bmaControls`, which stays `NULL` when there are none. -/
def readControls (block : List UInt8) (blockSize n : Nat) : Option (Option (List UInt64)) :=
  if n ≠ 0 ∧ numControls blockSize n ≠ 0 then
    ((List.range (numControls blockSize n)).mapM fun pp => readControl block n (pp + 1)).map some
  else some none

/-- `uvc_parse_vs_input_header`. -/
def parseVsInputHeader (streamIf : StreamingInterface) (block : List UInt8) (blockSize : Nat) :
    Option StreamingInterface := do
  let bEndpointAddress ← block[6]?
  let bTerminalLink ← block[8]?
  let bmInfo ← block[7]?
  let bStillCaptureMethod ← block[9]?
  let bTriggerSupport ← block[10]?
  let bTriggerUsage ← block[11]?
  let n ← block[12]?
  let bmaControls ← readControls block blockSize n.toNat
  return { streamIf with
    bEndpointAddress := bEndpointAddress &&& 0x8f, bTerminalLink, bmInfo, bStillCaptureMethod
    bTriggerSupport, bTriggerUsage, bmaControls }

/-- `uvc_parse_vs_format_uncompressed`. -/
def parseVsFormatUncompressed (streamIf : StreamingInterface) (block : List UInt8) :
    Option StreamingInterface := do
  let bDescriptorSubtype ← block[2]?
  let bFormatIndex ← block[3]?
  let guidFormat ← readBlock block 5 16
  let bBitsPerPixel ← block[21]?
  let bDefaultFrameIndex ← block[22]?
  let bAspectRatioX ← block[23]?
  let bAspectRatioY ← block[24]?
  let bmInterlaceFlags ← block[25]?
  let bCopyProtect ← block[26]?
  return streamIf.appendFormat
    { bDescriptorSubtype, bFormatIndex, guidFormat, bBitsPerPixel, bDefaultFrameIndex
      bAspectRatioX, bAspectRatioY, bmInterlaceFlags, bCopyProtect }

/-- `uvc_parse_vs_frame_format`. -/
def parseVsFrameFormat (streamIf : StreamingInterface) (block : List UInt8) :
    Option StreamingInterface := do
  let bDescriptorSubtype ← block[2]?
  let bFormatIndex ← block[3]?
  let bNumFrameDescriptors ← block[4]?
  let guidFormat ← readBlock block 5 16
  let bBitsPerPixel ← block[21]?
  let bDefaultFrameIndex ← block[22]?
  let bAspectRatioX ← block[23]?
  let bAspectRatioY ← block[24]?
  let bmInterlaceFlags ← block[25]?
  let bCopyProtect ← block[26]?
  let bVariableSize ← block[27]?
  return streamIf.appendFormat
    { bDescriptorSubtype, bFormatIndex, bNumFrameDescriptors, guidFormat, bBitsPerPixel
      bDefaultFrameIndex, bAspectRatioX, bAspectRatioY, bmInterlaceFlags, bCopyProtect
      bVariableSize }

/-- `MJPG`, and what `calloc` leaves behind it. -/
def fourccMjpg : List UInt8 := [0x4d, 0x4a, 0x50, 0x47] ++ List.replicate 12 0

/-- `uvc_parse_vs_format_mjpeg`; `bBitsPerPixel = 0` clears the `bmFlags` read before. -/
def parseVsFormatMjpeg (streamIf : StreamingInterface) (block : List UInt8) :
    Option StreamingInterface := do
  let bDescriptorSubtype ← block[2]?
  let bFormatIndex ← block[3]?
  let _bmFlags ← block[5]?
  let bDefaultFrameIndex ← block[6]?
  let bAspectRatioX ← block[7]?
  let bAspectRatioY ← block[8]?
  let bmInterlaceFlags ← block[9]?
  let bCopyProtect ← block[10]?
  return streamIf.appendFormat
    { bDescriptorSubtype, bFormatIndex, guidFormat := fourccMjpg, bBitsPerPixel := 0
      bDefaultFrameIndex, bAspectRatioX, bAspectRatioY, bmInterlaceFlags, bCopyProtect }

/-- The limits of a frame with continuous intervals. -/
def readContinuous (frame : FrameDesc) (block : List UInt8) : Option FrameDesc := do
  let dwMinFrameInterval ← dwToInt block 26
  let dwMaxFrameInterval ← dwToInt block 30
  let dwFrameIntervalStep ← dwToInt block 34
  return { frame with dwMinFrameInterval, dwMaxFrameInterval, dwFrameIntervalStep }

/-- The `n` intervals at `block[26]`. -/
def readIntervals (block : List UInt8) (n : Nat) : Option (List UInt32) :=
  (List.range n).mapM fun i => dwToInt block (26 + 4 * i)

/-- The fields of a frame-based frame that stand before its intervals. -/
def readFrameFrame (block : List UInt8) : Option FrameDesc := do
  let bDescriptorSubtype ← block[2]?
  let bFrameIndex ← block[3]?
  let bmCapabilities ← block[4]?
  let wWidth ← swToShort block 5
  let wHeight ← swToShort block 7
  let dwMinBitRate ← dwToInt block 9
  let dwMaxBitRate ← dwToInt block 13
  let dwDefaultFrameInterval ← dwToInt block 17
  let bFrameIntervalType ← block[21]?
  let dwBytesPerLine ← dwToInt block 22
  return { bDescriptorSubtype, bFrameIndex, bmCapabilities, wWidth, wHeight, dwMinBitRate
           dwMaxBitRate, dwDefaultFrameInterval, bFrameIntervalType, dwBytesPerLine }

/-- The intervals of a frame-based frame. -/
def readFrameTimes (frame : FrameDesc) (block : List UInt8) : Option FrameDesc :=
  if frame.bFrameIntervalType = 0 then readContinuous frame block
  else
    (readIntervals block frame.bFrameIntervalType.toNat).map fun intervals =>
      { frame with intervals := some (intervals ++ [0]) }

/-- `uvc_parse_vs_frame_frame`. -/
def parseVsFrameFrame (streamIf : StreamingInterface) (block : List UInt8) :
    Option StreamingInterface := do
  let format ← streamIf.formatDescs.getLast?
  let frame ← readFrameFrame block
  let frame ← readFrameTimes frame block
  return streamIf.appendFrame format frame

/-- `bBitsPerPixel * wWidth * wHeight / 8`, of type `int`. -/
def uncompressedSize (bBitsPerPixel : UInt8) (wWidth wHeight : UInt16) : UInt32 :=
  (Int32.ofNat bBitsPerPixel.toNat * Int32.ofNat wWidth.toNat * Int32.ofNat wHeight.toNat /
    8).toUInt32

/-- The discrete intervals of an uncompressed or MJPEG frame: a zero is read as 1, and the default is
brought between the first one and the last one. -/
def readDiscrete (frame : FrameDesc) (block : List UInt8) (n : Nat) : Option FrameDesc := do
  let intervals ← readIntervals block n
  let intervals := intervals.map fun interval => if interval ≠ 0 then interval else 1
  let first ← intervals[0]?
  let last ← intervals[n - 1]?
  return { frame with
    intervals := some (intervals ++ [0])
    dwDefaultFrameInterval := min last (max first frame.dwDefaultFrameInterval) }

/-- The fields of an uncompressed or MJPEG frame that stand before its intervals. -/
def readFrameUncompressed (block : List UInt8) : Option FrameDesc := do
  let bDescriptorSubtype ← block[2]?
  let bFrameIndex ← block[3]?
  let bmCapabilities ← block[4]?
  let wWidth ← swToShort block 5
  let wHeight ← swToShort block 7
  let dwMinBitRate ← dwToInt block 9
  let dwMaxBitRate ← dwToInt block 13
  let dwMaxVideoFrameBufferSize ← dwToInt block 17
  let dwDefaultFrameInterval ← dwToInt block 21
  let bFrameIntervalType ← block[25]?
  return { bDescriptorSubtype, bFrameIndex, bmCapabilities, wWidth, wHeight, dwMinBitRate
           dwMaxBitRate, dwMaxVideoFrameBufferSize, dwDefaultFrameInterval, bFrameIntervalType }

/-- The intervals of an uncompressed or MJPEG frame. -/
def readUncompressedTimes (frame : FrameDesc) (block : List UInt8) : Option FrameDesc :=
  if frame.bFrameIntervalType = 0 then readContinuous frame block
  else readDiscrete frame block frame.bFrameIntervalType.toNat

/-- The buffer of an uncompressed frame is as large as its image. -/
def fixBufferSize (format : FormatDesc) (frame : FrameDesc) : FrameDesc :=
  if frame.bDescriptorSubtype = vsFrameUncompressed then
    { frame with
      dwMaxVideoFrameBufferSize :=
        uncompressedSize format.bBitsPerPixel frame.wWidth frame.wHeight }
  else frame

/-- `uvc_parse_vs_frame_uncompressed`. -/
def parseVsFrameUncompressed (streamIf : StreamingInterface) (block : List UInt8) :
    Option StreamingInterface := do
  let format ← streamIf.formatDescs.getLast?
  let frame ← readFrameUncompressed block
  let frame ← readUncompressedTimes frame block
  return streamIf.appendFrame format (fixBufferSize format frame)

/-- `uvc_parse_vs`; `block` goes on to the end of the buffer. -/
def parseVs (streamIf : StreamingInterface) (block : List UInt8) (blockSize : Nat) :
    Option StreamingInterface := do
  let descriptorSubtype ← block[2]?
  if descriptorSubtype = vsInputHeader then parseVsInputHeader streamIf block blockSize
  else if descriptorSubtype = vsFormatUncompressed then parseVsFormatUncompressed streamIf block
  else if descriptorSubtype = vsFormatMjpeg then parseVsFormatMjpeg streamIf block
  else if descriptorSubtype = vsFrameUncompressed ∨ descriptorSubtype = vsFrameMjpeg then
    parseVsFrameUncompressed streamIf block
  else if descriptorSubtype = vsFormatFrameBased then parseVsFrameFormat streamIf block
  else if descriptorSubtype = vsFrameFrameBased then parseVsFrameFrame streamIf block
  else return streamIf

/-- The loop of `uvc_scan_streaming`, with `buffer` at an offset and `buffer_left` a `size_t`: `none`
without fuel, and `some none` after a fault. -/
def scanStreamingLoop (extra : List UInt8) :
    Nat → Nat → Nat → StreamingInterface → Option (Option StreamingInterface)
  | 0, _, _, _ => none
  | fuel + 1, buffer, bufferLeft, streamIf =>
    if 3 ≤ bufferLeft then
      match extra[buffer]? with
      | none => some none
      | some blockSize =>
        match parseVs streamIf (extra.drop buffer) blockSize.toNat with
        | none => some none
        | some streamIf =>
          scanStreamingLoop extra fuel (buffer + blockSize.toNat)
            ((bufferLeft + 2 ^ 32 - blockSize.toNat) % 2 ^ 32) streamIf
    else some (some streamIf)

/-- What `uvc_scan_streaming` reads of a `libusb_endpoint_descriptor`; `extra_length` is an
`int`. -/
structure EndpointDescriptor where
  bEndpointAddress : UInt8
  wMaxPacketSize : UInt16
  extra : List UInt8
  length_extra : extra.length < 2 ^ 31

/-- What `uvc_scan_streaming` reads of a `libusb_interface_descriptor`. -/
structure InterfaceDescriptor where
  bInterfaceNumber : UInt8
  bAlternateSetting : UInt8
  endpoint : List EndpointDescriptor
  extra : List UInt8
  length_extra : extra.length < 2 ^ 31

/-- The buffer: some devices have their descriptors behind the first endpoint. -/
def InterfaceDescriptor.buffer (ifDesc : InterfaceDescriptor) : List UInt8 :=
  if ifDesc.extra = [] then (ifDesc.endpoint.head?.map (·.extra)).getD [] else ifDesc.extra

/-- `uvc_scan_streaming`: the interface it adds. -/
def scanStreaming (ifDesc : InterfaceDescriptor) (fuel : Nat) :
    Option (Option StreamingInterface) :=
  scanStreamingLoop ifDesc.buffer fuel 0 ifDesc.buffer.length
    { bInterfaceNumber := ifDesc.bInterfaceNumber }

/-! ## What a block needs -/

/-- The bytes of a frame with intervals of this type. -/
def frameNeeds (bFrameIntervalType : UInt8) : Nat :=
  if bFrameIntervalType = 0 then 38 else 26 + 4 * bFrameIntervalType.toNat

/-- The bytes that `uvc_parse_vs` reads of a block, and behind it when it is too short. -/
def needs (block : List UInt8) (blockSize : Nat) : Nat :=
  let subtype := block[2]?.getD 0
  if subtype = vsInputHeader then
    13 + numControls blockSize (block[12]?.getD 0).toNat * (block[12]?.getD 0).toNat
  else if subtype = vsFormatUncompressed then 27
  else if subtype = vsFormatMjpeg then 11
  else if subtype = vsFrameUncompressed ∨ subtype = vsFrameMjpeg then
    frameNeeds (block[25]?.getD 0)
  else if subtype = vsFormatFrameBased then 28
  else if subtype = vsFrameFrameBased then frameNeeds (block[21]?.getD 0)
  else 3

/-- The block adds a format. -/
def IsFormat (block : List UInt8) : Prop :=
  block[2]? ∈ [some vsFormatUncompressed, some vsFormatMjpeg, some vsFormatFrameBased]

/-- The block adds a frame to the last format. -/
def IsFrame (block : List UInt8) : Prop :=
  block[2]? ∈ [some vsFrameUncompressed, some vsFrameMjpeg, some vsFrameFrameBased]

/-! ## Reads that succeed -/

section Reads

variable {block : List UInt8}

theorem exists_getElem? {i : Nat} : (∃ b, block[i]? = some b) ↔ i < block.length := by
  rw [← Option.isSome_iff_exists, isSome_getElem?]

theorem exists_swToShort {i : Nat} : (∃ v, swToShort block i = some v) ↔ i + 2 ≤ block.length := by
  unfold swToShort
  simp only [Option.bind_eq_bind, exists_bind, exists_getElem?, Option.pure_def,
    Option.some.injEq, exists_eq', exists_and_right, and_true]
  omega

theorem exists_dwToInt {i : Nat} : (∃ v, dwToInt block i = some v) ↔ i + 4 ≤ block.length := by
  unfold dwToInt
  simp only [Option.bind_eq_bind, exists_bind, exists_getElem?, Option.pure_def,
    Option.some.injEq, exists_eq', exists_and_right, and_true]
  omega

theorem length_of_readBlock {i n : Nat} {bytes : List UInt8}
    (h : readBlock block i n = some bytes) : bytes.length = n := by
  unfold readBlock at h
  split_ifs at h with hle
  obtain rfl := Option.some.inj h
  rw [List.length_take, List.length_drop]
  omega

theorem exists_readBlock {i n : Nat} :
    (∃ v, readBlock block i n = some v) ↔ i + n ≤ block.length := by
  unfold readBlock
  split_ifs with h <;> simp [h]

theorem exists_readIntervals {n : Nat} (hn : 0 < n) :
    (∃ v, readIntervals block n = some v) ↔ 26 + 4 * n ≤ block.length := by
  unfold readIntervals
  simp only [exists_mapM, exists_dwToInt, List.mem_range]
  constructor
  · intro h
    have hlast := h (n - 1) (by omega)
    omega
  · intro h i hi
    omega

theorem exists_readControl {n pp : Nat} (hn : 0 < n) (hpp : 0 < pp) :
    (∃ v, readControl block n pp = some v) ↔ 12 + pp * n < block.length := by
  unfold readControl
  have hle : n ≤ pp * n := Nat.le_mul_of_pos_left n hpp
  rw [exists_foldlM (P := fun nn => 12 + pp * n - nn < block.length)]
  · constructor
    · intro h
      exact h 0 (List.mem_range.mpr hn)
    · intro h nn _
      omega
  · intro control nn
    simp only [Option.bind_eq_bind, exists_bind, exists_getElem?, Option.pure_def,
      Option.some.injEq, exists_eq', and_true]

theorem exists_readFrameFrame : (∃ f, readFrameFrame block = some f) ↔ 26 ≤ block.length := by
  unfold readFrameFrame
  simp only [Option.bind_eq_bind, exists_bind, exists_getElem?, exists_swToShort, exists_dwToInt,
    Option.pure_def, Option.some.injEq, exists_eq', exists_and_right, and_true]
  omega

theorem exists_readFrameUncompressed :
    (∃ f, readFrameUncompressed block = some f) ↔ 26 ≤ block.length := by
  unfold readFrameUncompressed
  simp only [Option.bind_eq_bind, exists_bind, exists_getElem?, exists_swToShort, exists_dwToInt,
    Option.pure_def, Option.some.injEq, exists_eq', exists_and_right, and_true]
  omega

theorem exists_readContinuous {frame : FrameDesc} :
    (∃ f, readContinuous frame block = some f) ↔ 38 ≤ block.length := by
  unfold readContinuous
  simp only [Option.bind_eq_bind, exists_bind, exists_dwToInt, Option.pure_def,
    Option.some.injEq, exists_eq', exists_and_right, and_true]
  omega

theorem length_of_readIntervals {n : Nat} {intervals : List UInt32}
    (h : readIntervals block n = some intervals) : intervals.length = n := by
  have hlength := (mapM_eq_some_iff.mp h).length_eq
  rw [List.length_range] at hlength
  exact hlength.symm

theorem exists_readDiscrete {frame : FrameDesc} {n : Nat} (hn : 0 < n) :
    (∃ f, readDiscrete frame block n = some f) ↔ 26 + 4 * n ≤ block.length := by
  unfold readDiscrete
  simp only [Option.bind_eq_bind, exists_bind]
  rw [← exists_readIntervals hn]
  refine exists_congr fun intervals => and_iff_left_of_imp fun h => ?_
  have hlength := length_of_readIntervals h
  rw [List.getElem?_eq_getElem (by rw [List.length_map]; omega),
    List.getElem?_eq_getElem (by rw [List.length_map]; omega)]
  exact ⟨_, rfl, _, rfl, _, rfl⟩

end Reads

/-! ## One block -/

section Parse

variable {streamIf : StreamingInterface} {block : List UInt8}

theorem exists_parseVsFormatUncompressed :
    (∃ t, parseVsFormatUncompressed streamIf block = some t) ↔ 27 ≤ block.length := by
  unfold parseVsFormatUncompressed
  simp only [Option.bind_eq_bind, exists_bind, exists_getElem?, exists_readBlock, Option.pure_def,
    Option.some.injEq, exists_eq', exists_and_right, and_true]
  omega

theorem exists_parseVsFrameFormat :
    (∃ t, parseVsFrameFormat streamIf block = some t) ↔ 28 ≤ block.length := by
  unfold parseVsFrameFormat
  simp only [Option.bind_eq_bind, exists_bind, exists_getElem?, exists_readBlock, Option.pure_def,
    Option.some.injEq, exists_eq', exists_and_right, and_true]
  omega

theorem exists_parseVsFormatMjpeg :
    (∃ t, parseVsFormatMjpeg streamIf block = some t) ↔ 11 ≤ block.length := by
  unfold parseVsFormatMjpeg
  simp only [Option.bind_eq_bind, exists_bind, exists_getElem?, Option.pure_def,
    Option.some.injEq, exists_eq', exists_and_right, and_true]
  omega

/-- No intervals have been read yet. -/
def FrameDesc.Untimed (frame : FrameDesc) : Prop :=
  frame.intervals = none ∧ frame.dwMinFrameInterval = 0 ∧ frame.dwMaxFrameInterval = 0 ∧
    frame.dwFrameIntervalStep = 0

theorem readFrameFrame_eq_some {frame : FrameDesc} (h : readFrameFrame block = some frame) :
    block[2]? = some frame.bDescriptorSubtype ∧ block[21]? = some frame.bFrameIntervalType ∧
      frame.dwMaxVideoFrameBufferSize = 0 ∧ frame.Untimed := by
  unfold readFrameFrame at h
  simp only [Option.bind_eq_bind, Option.bind_eq_some_iff, Option.pure_def, Option.some.injEq] at h
  obtain ⟨_, hsubtype, _, _, _, _, _, _, _, _, _, _, _, _, _, _, _, htype, _, _, rfl⟩ := h
  exact ⟨hsubtype, htype, rfl, rfl, rfl, rfl, rfl⟩

theorem readFrameUncompressed_eq_some {frame : FrameDesc}
    (h : readFrameUncompressed block = some frame) :
    block[2]? = some frame.bDescriptorSubtype ∧ block[25]? = some frame.bFrameIntervalType ∧
      frame.dwBytesPerLine = 0 ∧ frame.Untimed := by
  unfold readFrameUncompressed at h
  simp only [Option.bind_eq_bind, Option.bind_eq_some_iff, Option.pure_def, Option.some.injEq] at h
  obtain ⟨_, hsubtype, _, _, _, _, _, _, _, _, _, _, _, _, _, _, _, _, _, htype, rfl⟩ := h
  exact ⟨hsubtype, htype, rfl, rfl, rfl, rfl, rfl⟩

theorem toNat_pos {n : UInt8} (h : n ≠ 0) : 0 < n.toNat := by
  rw [Nat.pos_iff_ne_zero]
  intro hn
  exact h (UInt8.toNat_inj.mp hn)

theorem exists_getLast? {α : Type*} {l : List α} : (∃ a, l.getLast? = some a) ↔ l ≠ [] := by
  rw [← Option.isSome_iff_exists]
  simp

theorem exists_readFrameTimes {frame : FrameDesc} :
    (∃ f, readFrameTimes frame block = some f) ↔
      frameNeeds frame.bFrameIntervalType ≤ block.length := by
  unfold readFrameTimes frameNeeds
  split_ifs with htype
  · exact exists_readContinuous
  · rw [← exists_readIntervals (toNat_pos htype)]
    simp only [Option.map_eq_some_iff]
    exact ⟨fun ⟨_, v, hv, _⟩ => ⟨v, hv⟩, fun ⟨v, hv⟩ => ⟨_, v, hv, rfl⟩⟩

theorem exists_readUncompressedTimes {frame : FrameDesc} :
    (∃ f, readUncompressedTimes frame block = some f) ↔
      frameNeeds frame.bFrameIntervalType ≤ block.length := by
  unfold readUncompressedTimes frameNeeds
  split_ifs with htype
  · exact exists_readContinuous
  · exact exists_readDiscrete (toNat_pos htype)

theorem le_frameNeeds (n : UInt8) : 26 ≤ frameNeeds n := by
  unfold frameNeeds
  split_ifs <;> omega

theorem exists_parseVsFrameFrame :
    (∃ t, parseVsFrameFrame streamIf block = some t) ↔
      streamIf.formatDescs ≠ [] ∧ frameNeeds (block[21]?.getD 0) ≤ block.length := by
  unfold parseVsFrameFrame
  simp only [Option.bind_eq_bind, exists_bind, Option.pure_def, Option.some.injEq, exists_eq',
    and_true, exists_and_right, exists_getLast?, exists_readFrameTimes]
  refine and_congr_right fun _ => ?_
  constructor
  · rintro ⟨frame, hframe, h⟩
    rwa [(readFrameFrame_eq_some hframe).2.1]
  · intro h
    obtain ⟨frame, hframe⟩ := exists_readFrameFrame.mpr (Nat.le_trans (le_frameNeeds _) h)
    refine ⟨frame, hframe, ?_⟩
    rwa [(readFrameFrame_eq_some hframe).2.1] at h

theorem exists_parseVsFrameUncompressed :
    (∃ t, parseVsFrameUncompressed streamIf block = some t) ↔
      streamIf.formatDescs ≠ [] ∧ frameNeeds (block[25]?.getD 0) ≤ block.length := by
  unfold parseVsFrameUncompressed
  simp only [Option.bind_eq_bind, exists_bind, Option.pure_def, Option.some.injEq, exists_eq',
    and_true, exists_and_right, exists_getLast?, exists_readUncompressedTimes]
  refine and_congr_right fun _ => ?_
  constructor
  · rintro ⟨frame, hframe, h⟩
    rwa [(readFrameUncompressed_eq_some hframe).2.1]
  · intro h
    obtain ⟨frame, hframe⟩ := exists_readFrameUncompressed.mpr (Nat.le_trans (le_frameNeeds _) h)
    refine ⟨frame, hframe, ?_⟩
    rwa [(readFrameUncompressed_eq_some hframe).2.1] at h

theorem exists_readControls {blockSize n : Nat} (h : 13 ≤ block.length) :
    (∃ c, readControls block blockSize n = some c) ↔
      13 + numControls blockSize n * n ≤ block.length := by
  unfold readControls
  split_ifs with hmany
  · obtain ⟨hn, hp⟩ := hmany
    simp only [Option.map_eq_some_iff]
    rw [exists_comm]
    simp only [exists_and_left, exists_eq', and_true, exists_mapM, List.mem_range]
    constructor
    · intro hall
      obtain ⟨v, hv⟩ := hall (numControls blockSize n - 1) (by omega)
      have hlast := (exists_readControl (by omega) (by omega)).mp ⟨v, hv⟩
      rw [Nat.sub_add_cancel (by omega)] at hlast
      omega
    · intro hle pp hpp
      refine (exists_readControl (by omega) (by omega)).mpr ?_
      have hmul : (pp + 1) * n ≤ numControls blockSize n * n := Nat.mul_le_mul_right n hpp
      omega
  · refine iff_of_true ⟨none, rfl⟩ ?_
    rw [show numControls blockSize n * n = 0 by
      rcases not_and_or.mp hmany with hn | hp
      · rw [not_not.mp hn, Nat.mul_zero]
      · rw [not_not.mp hp, Nat.zero_mul]]
    exact h

theorem exists_parseVsInputHeader {blockSize : Nat} :
    (∃ t, parseVsInputHeader streamIf block blockSize = some t) ↔
      13 + numControls blockSize (block[12]?.getD 0).toNat * (block[12]?.getD 0).toNat ≤
        block.length := by
  unfold parseVsInputHeader
  simp only [Option.bind_eq_bind, exists_bind, Option.pure_def, Option.some.injEq, exists_eq',
    and_true, exists_and_right, exists_getElem?]
  constructor
  · rintro ⟨-, -, -, -, -, -, n, hn, h⟩
    have hlength := exists_getElem?.mp ⟨n, hn⟩
    rw [hn]
    exact (exists_readControls hlength).mp h
  · intro h
    obtain ⟨n, hn⟩ := exists_getElem?.mpr (show 12 < block.length by omega)
    rw [hn] at h
    exact ⟨by omega, by omega, by omega, by omega, by omega, by omega, n, hn,
      (exists_readControls (by omega)).mpr h⟩

/-- **What `uvc_parse_vs` needs**: its bytes, and a format for a frame. -/
theorem exists_parseVs {blockSize : Nat} (h : 3 ≤ block.length) :
    (∃ t, parseVs streamIf block blockSize = some t) ↔
      needs block blockSize ≤ block.length ∧ (IsFrame block → streamIf.formatDescs ≠ []) := by
  obtain ⟨subtype, hsubtype⟩ := exists_getElem?.mpr (show 2 < block.length by omega)
  unfold parseVs needs IsFrame
  simp only [hsubtype, Option.bind_eq_bind, Option.bind_some, Option.getD_some, List.mem_cons,
    List.not_mem_nil, or_false, Option.some.injEq]
  split_ifs with h1 h4 h6 h5 h10 h11
  · subst h1
    rw [exists_parseVsInputHeader]
    exact (and_iff_left_of_imp fun _ hframe => absurd hframe (by decide)).symm
  · subst h4
    rw [exists_parseVsFormatUncompressed]
    exact (and_iff_left_of_imp fun _ hframe => absurd hframe (by decide)).symm
  · subst h6
    rw [exists_parseVsFormatMjpeg]
    exact (and_iff_left_of_imp fun _ hframe => absurd hframe (by decide)).symm
  · rw [exists_parseVsFrameUncompressed, and_comm]
    refine and_congr_right fun _ => ⟨fun hformat _ => hformat, fun hformat => hformat ?_⟩
    exact h5.imp_right Or.inl
  · subst h10
    rw [exists_parseVsFrameFormat]
    exact (and_iff_left_of_imp fun _ hframe => absurd hframe (by decide)).symm
  · rw [exists_parseVsFrameFrame, and_comm]
    exact and_congr_right fun _ => ⟨fun hformat _ => hformat, fun hformat => hformat (by simp [h11])⟩
  · refine iff_of_true ⟨streamIf, rfl⟩ ⟨h, fun hframe => ?_⟩
    rcases hframe with hframe | hframe | hframe
    · exact absurd (Or.inl hframe) h5
    · exact absurd (Or.inr hframe) h5
    · exact absurd hframe h11

end Parse

/-! ## What a block adds -/

section Added

variable {streamIf streamIf' : StreamingInterface} {block : List UInt8} {blockSize : Nat}

theorem parseVsInputHeader_eq_some
    (h : parseVsInputHeader streamIf block blockSize = some streamIf') :
    streamIf'.formatDescs = streamIf.formatDescs := by
  unfold parseVsInputHeader at h
  simp only [Option.bind_eq_bind, Option.bind_eq_some_iff, Option.pure_def, Option.some.injEq] at h
  obtain ⟨_, _, _, _, _, _, _, _, _, _, _, _, _, _, _, _, rfl⟩ := h
  rfl

/-- **What `uvc_parse_vs` can do**, by the subtype of the block. -/
theorem parseVs_cases (h : parseVs streamIf block blockSize = some streamIf') :
    block[2]? = some vsFormatUncompressed ∧
        parseVsFormatUncompressed streamIf block = some streamIf' ∨
      block[2]? = some vsFormatMjpeg ∧ parseVsFormatMjpeg streamIf block = some streamIf' ∨
      block[2]? = some vsFormatFrameBased ∧ parseVsFrameFormat streamIf block = some streamIf' ∨
      (block[2]? = some vsFrameUncompressed ∨ block[2]? = some vsFrameMjpeg) ∧
        parseVsFrameUncompressed streamIf block = some streamIf' ∨
      block[2]? = some vsFrameFrameBased ∧ parseVsFrameFrame streamIf block = some streamIf' ∨
      ¬ IsFormat block ∧ streamIf'.formatDescs = streamIf.formatDescs := by
  unfold parseVs at h
  obtain ⟨subtype, hsubtype, h⟩ := Option.bind_eq_some_iff.mp h
  unfold IsFormat
  rw [hsubtype]
  simp only [List.mem_cons, List.not_mem_nil, or_false, Option.some.injEq]
  split_ifs at h with h1 h4 h6 h5 h10 h11
  · subst h1
    exact .inr (.inr (.inr (.inr (.inr ⟨by decide, parseVsInputHeader_eq_some h⟩))))
  · exact .inl ⟨h4, h⟩
  · exact .inr (.inl ⟨h6, h⟩)
  · exact .inr (.inr (.inr (.inl ⟨h5, h⟩)))
  · exact .inr (.inr (.inl ⟨h10, h⟩))
  · exact .inr (.inr (.inr (.inr (.inl ⟨h11, h⟩))))
  · obtain rfl := Option.some.inj h
    exact .inr (.inr (.inr (.inr (.inr ⟨by tauto, rfl⟩))))

theorem parseVsFormatUncompressed_eq_some
    (h : parseVsFormatUncompressed streamIf block = some streamIf') :
    ∃ format, streamIf' = streamIf.appendFormat format ∧
      block[2]? = some format.bDescriptorSubtype ∧ format.guidFormat.length = 16 ∧
      format.bNumFrameDescriptors = 0 ∧ format.bVariableSize = 0 ∧ format.frameDescs = [] := by
  unfold parseVsFormatUncompressed at h
  simp only [Option.bind_eq_bind, Option.bind_eq_some_iff, Option.pure_def, Option.some.injEq] at h
  obtain ⟨_, hsubtype, _, _, _, hguid, _, _, _, _, _, _, _, _, _, _, _, _, rfl⟩ := h
  exact ⟨_, rfl, hsubtype, length_of_readBlock hguid, rfl, rfl, rfl⟩

theorem parseVsFormatMjpeg_eq_some (h : parseVsFormatMjpeg streamIf block = some streamIf') :
    ∃ format, streamIf' = streamIf.appendFormat format ∧
      block[2]? = some format.bDescriptorSubtype ∧ format.guidFormat = fourccMjpg ∧
      format.bBitsPerPixel = 0 ∧ format.bNumFrameDescriptors = 0 ∧ format.bVariableSize = 0 ∧
      format.frameDescs = [] := by
  unfold parseVsFormatMjpeg at h
  simp only [Option.bind_eq_bind, Option.bind_eq_some_iff, Option.pure_def, Option.some.injEq] at h
  obtain ⟨_, hsubtype, _, _, _, _, _, _, _, _, _, _, _, _, _, _, rfl⟩ := h
  exact ⟨_, rfl, hsubtype, rfl, rfl, rfl, rfl, rfl⟩

theorem parseVsFrameFormat_eq_some (h : parseVsFrameFormat streamIf block = some streamIf') :
    ∃ format, streamIf' = streamIf.appendFormat format ∧
      block[2]? = some format.bDescriptorSubtype ∧ format.guidFormat.length = 16 ∧
      format.frameDescs = [] := by
  unfold parseVsFrameFormat at h
  simp only [Option.bind_eq_bind, Option.bind_eq_some_iff, Option.pure_def, Option.some.injEq] at h
  obtain ⟨_, hsubtype, _, _, _, _, _, hguid, _, _, _, _, _, _, _, _, _, _, _, _, _, _, rfl⟩ := h
  exact ⟨_, rfl, hsubtype, length_of_readBlock hguid, rfl⟩

theorem parseVsFrameUncompressed_eq_some
    (h : parseVsFrameUncompressed streamIf block = some streamIf') :
    ∃ format frame frame', streamIf.formatDescs.getLast? = some format ∧
      readFrameUncompressed block = some frame ∧ readUncompressedTimes frame block = some frame' ∧
      streamIf' = streamIf.appendFrame format (fixBufferSize format frame') := by
  unfold parseVsFrameUncompressed at h
  simp only [Option.bind_eq_bind, Option.bind_eq_some_iff, Option.pure_def, Option.some.injEq] at h
  obtain ⟨format, hformat, frame, hframe, frame', htimes, rfl⟩ := h
  exact ⟨format, frame, frame', hformat, hframe, htimes, rfl⟩

theorem parseVsFrameFrame_eq_some (h : parseVsFrameFrame streamIf block = some streamIf') :
    ∃ format frame frame', streamIf.formatDescs.getLast? = some format ∧
      readFrameFrame block = some frame ∧ readFrameTimes frame block = some frame' ∧
      streamIf' = streamIf.appendFrame format frame' := by
  unfold parseVsFrameFrame at h
  simp only [Option.bind_eq_bind, Option.bind_eq_some_iff, Option.pure_def, Option.some.injEq] at h
  obtain ⟨format, hformat, frame, hframe, frame', htimes, rfl⟩ := h
  exact ⟨format, frame, frame', hformat, hframe, htimes, rfl⟩

/-- There is a format when there was one, or when this is one. -/
theorem parseVs_formats (h : parseVs streamIf block blockSize = some streamIf') :
    streamIf'.formatDescs ≠ [] ↔ streamIf.formatDescs ≠ [] ∨ IsFormat block := by
  have hadded (format : FormatDesc) : (streamIf.appendFormat format).formatDescs ≠ [] := by
    simp [StreamingInterface.appendFormat]
  have hframe (format : FormatDesc) (frame : FrameDesc) :
      (streamIf.appendFrame format frame).formatDescs ≠ [] := by
    simp [StreamingInterface.appendFrame]
  rcases parseVs_cases h with ⟨hblock, h⟩ | ⟨hblock, h⟩ | ⟨hblock, h⟩ | ⟨-, h⟩ | ⟨-, h⟩ |
    ⟨hformat, hsame⟩
  · obtain ⟨format, rfl, -⟩ := parseVsFormatUncompressed_eq_some h
    exact iff_of_true (hadded format) (Or.inr (by simp [IsFormat, hblock]))
  · obtain ⟨format, rfl, -⟩ := parseVsFormatMjpeg_eq_some h
    exact iff_of_true (hadded format) (Or.inr (by simp [IsFormat, hblock]))
  · obtain ⟨format, rfl, -⟩ := parseVsFrameFormat_eq_some h
    exact iff_of_true (hadded format) (Or.inr (by simp [IsFormat, hblock]))
  · obtain ⟨format, _, frame, hlast, -, -, rfl⟩ := parseVsFrameUncompressed_eq_some h
    exact iff_of_true (hframe _ _) (Or.inl (exists_getLast?.mp ⟨format, hlast⟩))
  · obtain ⟨format, _, frame, hlast, -, -, rfl⟩ := parseVsFrameFrame_eq_some h
    exact iff_of_true (hframe _ _) (Or.inl (exists_getLast?.mp ⟨format, hlast⟩))
  · rw [hsame, or_iff_left hformat]

end Added

/-! ## The scan -/

theorem InterfaceDescriptor.length_buffer (ifDesc : InterfaceDescriptor) :
    ifDesc.buffer.length < 2 ^ 31 := by
  unfold buffer
  split_ifs
  · cases h : ifDesc.endpoint.head? with
    | none => simp
    | some endpoint => exact endpoint.length_extra
  · exact ifDesc.length_extra

/-- The scan of the descriptors, without `buffer_left`. -/
def descriptorScanner (extra : List UInt8) : Scanner StreamingInterface where
  length := extra.length
  least := 3
  size p := extra[p]?.map UInt8.toNat
  turn p streamIf :=
    extra[p]?.bind fun blockSize => parseVs streamIf (extra.drop p) blockSize.toNat
  outside p h := by rw [List.getElem?_eq_none h, Option.map_none]

/-- `buffer_left` counts what is left, and is too large after the end. -/
theorem scanStreamingLoop_eq {extra : List UInt8} (hextra : extra.length < 2 ^ 31)
    {fuel buffer bufferLeft : Nat} {streamIf : StreamingInterface}
    (h : buffer ≤ extra.length ∧ bufferLeft = extra.length - buffer ∨
      extra.length < buffer ∧ 3 ≤ bufferLeft) :
    scanStreamingLoop extra fuel buffer bufferLeft streamIf =
      (descriptorScanner extra).scan fuel buffer streamIf := by
  induction fuel generalizing buffer bufferLeft streamIf with
  | zero => rfl
  | succ fuel ih =>
    have hstop : 3 ≤ bufferLeft ↔ ¬ (buffer ≤ extra.length ∧ extra.length < buffer + 3) := by omega
    unfold scanStreamingLoop Scanner.scan
    by_cases hleft : 3 ≤ bufferLeft
    · rw [if_pos hleft]
      refine Eq.trans ?_ (if_neg (hstop.mp hleft)).symm
      cases hsize : extra[buffer]? with
      | none => simp [descriptorScanner, hsize]
      | some blockSize =>
        cases hparse : parseVs streamIf (extra.drop buffer) blockSize.toNat with
        | none => simp [descriptorScanner, hsize, hparse]
        | some streamIf' =>
          have hsmall : blockSize.toNat < 256 := blockSize.toNat_lt
          have hinside := (List.getElem?_eq_some_iff.mp hsize).1
          simp only [descriptorScanner, hsize, Option.map_some, Option.bind_some, hparse]
          exact ih (by omega)
    · rw [if_neg hleft]
      exact (if_pos (not_not.mp (mt hstop.mpr hleft))).symm

theorem scanStreaming_eq (ifDesc : InterfaceDescriptor) :
    scanStreaming ifDesc = fun fuel => (descriptorScanner ifDesc.buffer).scan fuel 0
      { bInterfaceNumber := ifDesc.bInterfaceNumber } :=
  funext fun _ => scanStreamingLoop_eq ifDesc.length_buffer (Or.inl ⟨Nat.zero_le _, rfl⟩)

/-- A block begins at `p`, when the sizes are followed from the start of the buffer on. -/
def BlockAt (extra : List UInt8) (p : Nat) : Prop := (descriptorScanner extra).Block p

/-- The block at `p` is not empty, it stands in the buffer with all that is read for it, and a frame
has a format before it. -/
def GoodBlock (extra : List UInt8) (p : Nat) : Prop :=
  ∃ size, extra[p]? = some size ∧ size ≠ 0 ∧ p + size.toNat ≤ extra.length ∧
    p + needs (extra.drop p) size.toNat ≤ extra.length ∧
    (IsFrame (extra.drop p) → ∃ q < p, BlockAt extra q ∧ IsFormat (extra.drop q))

/-- **The buffers that are read to their end, without a fault.** -/
theorem scan_ends_iff (ifDesc : InterfaceDescriptor) :
    (∃ streamIf, Returns (scanStreaming ifDesc) (some streamIf)) ↔
      ∀ p, BlockAt ifDesc.buffer p → GoodBlock ifDesc.buffer p := by
  rw [scanStreaming_eq]
  -- there is a format as soon as one has gone by
  refine Scanner.returns_iff
    (I := fun p streamIf => streamIf.formatDescs ≠ [] ↔
      ∃ q < p, BlockAt ifDesc.buffer q ∧ IsFormat (ifDesc.buffer.drop q)) ?_ ?_ ?_
  · exact iff_of_false (fun h => h rfl) (by simp)
  · intro p streamIf hI hblock
    have hfits : p + 3 ≤ ifDesc.buffer.length := hblock.fits
    have hsize := List.getElem?_eq_getElem (show p < ifDesc.buffer.length by omega)
    have hparse : (∃ t, parseVs streamIf (ifDesc.buffer.drop p) ifDesc.buffer[p].toNat = some t) ↔
        _ := exists_parseVs (by
      rw [List.length_drop]
      omega)
    rw [hI, List.length_drop] at hparse
    unfold GoodBlock
    simp only [descriptorScanner, hsize, Option.bind_some, Option.map_some, Option.some.injEq,
      exists_eq_left']
    rw [Option.ne_none_iff_exists', hparse]
    constructor
    · rintro ⟨hne, hin, hneeds, hframe⟩
      exact ⟨⟨by omega, hframe⟩, toNat_pos hne, hin⟩
    · rintro ⟨⟨hneeds, hframe⟩, hpos, hin⟩
      exact ⟨fun hzero => by simp [hzero] at hpos, hin, by omega, hframe⟩
  · intro p streamIf k streamIf' hI hblock hk hpos ht
    obtain ⟨blockSize, hsize, hparse⟩ := Option.bind_eq_some_iff.mp ht
    rw [parseVs_formats hparse, hI]
    constructor
    · rintro (⟨q, hq, hformat⟩ | hformat)
      · exact ⟨q, by omega, hformat⟩
      · exact ⟨p, by omega, hblock, hformat⟩
    · rintro ⟨q, hq, hqblock, hformat⟩
      rcases Nat.lt_or_eq_of_le (Scanner.Block.le_of_lt hblock hk hqblock hq) with hlt | rfl
      · exact Or.inl ⟨q, hlt, hqblock, hformat⟩
      · exact Or.inr hformat

end PetDev.Uvc
