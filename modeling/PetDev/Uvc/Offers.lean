import Mathlib.Data.List.Basic
import PetDev.Uvc.DescriptorFormats

/-!
# What a camera has for a request

A request names a frame format, a size and a range of frame rates.  The search of
`_uvc_get_stream_ctrl_format` looks for a frame of the size and for an interval of its in the range:
in the array of the frame, up to the zero at its end, or from the greatest rate down.

`offers` lists all that a camera has for a request.  The search finds the first
(`findFrame_eq_head?`), and it comes back (`exists_findFrame`) on the formats of a scan, where no
frame has intervals without a step.
-/

namespace PetDev.Uvc

/-! ## The source -/

/-- `enum uvc_frame_format`; `UVC_FRAME_FORMAT_UNKNOWN` is `UVC_FRAME_FORMAT_ANY`. -/
inductive FrameFormat where
  | any
  | uncompressed
  | compressed
  | yuyv
  | uyvy
  | rgb565
  | rgb
  | bgr
  | rgbx
  | mjpeg
  | gray8
  | by8
  deriving DecidableEq

/-- `format_table_entry`. -/
structure FormatTableEntry where
  abstractFmt : UInt8
  guid : List UInt8
  children : List FrameFormat

/-- `ABS_FMT`: its entry is not marked as abstract, and its GUID is zero. -/
def absFmt (children : List FrameFormat) : FormatTableEntry := ⟨0, List.replicate 16 0, children⟩

/-- `FMT`. -/
def fmt (guid : List UInt8) : FormatTableEntry := ⟨0, guid, []⟩

def fourccGuid (a b c d : UInt8) : List UInt8 :=
  [a, b, c, d, 0x00, 0x00, 0x10, 0x00, 0x80, 0x00, 0x00, 0xaa, 0x00, 0x38, 0x9b, 0x71]

/-- `_get_format_entry`. -/
def getFormatEntry : FrameFormat → Option FormatTableEntry
  | .any => some (absFmt [.uncompressed, .compressed])
  | .uncompressed => some (absFmt [.yuyv, .uyvy, .gray8])
  | .yuyv => some (fmt (fourccGuid 0x59 0x55 0x59 0x32))
  | .uyvy => some (fmt (fourccGuid 0x55 0x59 0x56 0x59))
  | .gray8 => some (fmt (fourccGuid 0x59 0x38 0x30 0x30))
  | .by8 => some (fmt (fourccGuid 0x42 0x59 0x38 0x20))
  | .compressed => some (absFmt [.mjpeg])
  | .mjpeg => some (fmt fourccMjpg)
  | .rgb565 | .rgb | .bgr | .rgbx => none

/-- `_uvc_frame_format_matches_guid`, as deep as this. -/
def matchesGuidTo : Nat → FrameFormat → List UInt8 → Bool
  | 0, _, _ => false
  | depth + 1, format, guid =>
    match getFormatEntry format with
    | none => false
    | some entry =>
      (entry.abstractFmt = 0 && guid = entry.guid) ||
        entry.children.any fun child => matchesGuidTo depth child guid

/-- `_uvc_frame_format_matches_guid`: `ANY` has children, and they have children. -/
def frameFormatMatchesGuid (format : FrameFormat) (guid : List UInt8) : Bool :=
  matchesGuidTo 3 format guid

/-- What is asked for: `cf`, `width`, `height`, `min_fps` and `max_fps`. -/
structure Request where
  cf : FrameFormat
  width : Int32
  height : Int32
  minFps : Int32
  maxFps : Int32

/-- The test of a discrete interval. -/
def Request.inRange (r : Request) (interval : UInt32) : Bool :=
  r.minFps.toUInt32 ≤ 10000000 / interval ∧ 10000000 / interval ≤ r.maxFps.toUInt32

/-- The loop over `frame->intervals`, up to the zero; to read behind the array is a fault. -/
def findInterval (r : Request) : List UInt32 → Option (Option UInt32)
  | [] => none
  | interval :: rest =>
    if interval = 0 then some none
    else if r.inRange interval then some (some interval)
    else findInterval r rest

/-- `interval_100ns`. -/
def interval100ns (fps : Int) : UInt32 := UInt32.ofInt (Int.tdiv 10000000 fps)

/-- One rate of a frame with continuous intervals; a step of zero is a division by zero. -/
def checkFps (frame : FrameDesc) (fps : Int) : Option (Option UInt32) :=
  if fps = 0 then some none
  else
    let interval := interval100ns fps
    let offset := interval - frame.dwMinFrameInterval
    if frame.dwMinFrameInterval ≤ interval ∧ interval ≤ frame.dwMaxFrameInterval then
      if offset = 0 then some (some interval)
      else if frame.dwFrameIntervalStep = 0 then none
      else if offset % frame.dwFrameIntervalStep = 0 then some (some interval)
      else some none
    else some none

/-- The values of `fps`, from `max_fps` down to `min_fps`. -/
def Request.rates (r : Request) : List Int :=
  (List.range (r.maxFps.toInt - r.minFps.toInt + 1).toNat).reverse.map
    fun (n : Nat) => r.minFps.toInt + n

/-- The loop over the rates; it cannot count below the least `int32_t`. -/
def findFps (r : Request) (frame : FrameDesc) : Option (Option UInt32) :=
  (r.rates.findSomeM? (checkFps frame)).bind fun found =>
    if found = none ∧ r.minFps = Int32.minValue then none else some found

def Request.sized (r : Request) (frame : FrameDesc) : Bool :=
  (frame.wWidth.toNat : Int) = r.width.toInt ∧ (frame.wHeight.toNat : Int) = r.height.toInt

def findFrameInterval (r : Request) (frame : FrameDesc) : Option (Option UInt32) :=
  match frame.intervals with
  | some intervals => findInterval r intervals
  | none => findFps r frame

/-- The search of `_uvc_get_stream_ctrl_format` in one frame. -/
def findInFrame (r : Request) (frame : FrameDesc) : Option (Option (FrameDesc × UInt32)) :=
  if r.sized frame then
    (findFrameInterval r frame).map fun found => found.map fun interval => (frame, interval)
  else some none

/-- The search of `_uvc_get_stream_ctrl_format`. -/
def findFrame (r : Request) (format : FormatDesc) : Option (Option (FrameDesc × UInt32)) :=
  format.frameDescs.findSomeM? (findInFrame r)

/-! ## The offers -/

/-- The frame has this interval between its limits, at one of its steps. -/
def FrameDesc.Allows (frame : FrameDesc) (interval : UInt32) : Prop :=
  frame.dwMinFrameInterval ≤ interval ∧ interval ≤ frame.dwMaxFrameInterval ∧
    (interval = frame.dwMinFrameInterval ∨ frame.dwFrameIntervalStep ≠ 0 ∧
      (interval - frame.dwMinFrameInterval) % frame.dwFrameIntervalStep = 0)

instance (frame : FrameDesc) (interval : UInt32) : Decidable (frame.Allows interval) :=
  inferInstanceAs (Decidable (_ ∧ _ ∧ (_ ∨ _ ∧ _)))

/-- The intervals of a frame that are in the range, the preferred first. -/
def Request.intervals (r : Request) (frame : FrameDesc) : List UInt32 :=
  match frame.intervals with
  | some intervals => (intervals.takeWhile (· ≠ 0)).filter r.inRange
  | none =>
    (r.rates.filter fun fps => fps ≠ 0 ∧ frame.Allows (interval100ns fps)).map interval100ns

/-- The frames of the size, with their intervals. -/
def Request.offersIn (r : Request) (format : FormatDesc) : List (FrameDesc × UInt32) :=
  (format.frameDescs.filter r.sized).flatMap fun frame =>
    (r.intervals frame).map fun interval => (frame, interval)

/-- A way to meet a request. -/
structure Offer where
  streamIf : StreamingInterface
  format : FormatDesc
  frame : FrameDesc
  interval : UInt32

/-- The formats that are tried, in their order. -/
def Request.formats (r : Request) (streamIfs : List StreamingInterface) :
    List (StreamingInterface × FormatDesc) :=
  streamIfs.flatMap fun streamIf =>
    (streamIf.formatDescs.filter fun format => frameFormatMatchesGuid r.cf format.guidFormat).map
      fun format => (streamIf, format)

def Request.offersOf (r : Request) (p : StreamingInterface × FormatDesc) : List Offer :=
  (r.offersIn p.2).map fun o => ⟨p.1, p.2, o.1, o.2⟩

/-- All that a camera has for a request. -/
def Request.offers (r : Request) (streamIfs : List StreamingInterface) : List Offer :=
  (r.formats streamIfs).flatMap r.offersOf

/-! ## The search finds the first offer -/

section Search

variable {r : Request} {frame : FrameDesc} {format : FormatDesc}

/-- The search for a format goes through the table as the table is. -/
theorem frameFormatMatchesGuid_eq (format : FrameFormat) (guid : List UInt8) :
    frameFormatMatchesGuid format guid =
      match getFormatEntry format with
      | none => false
      | some entry =>
        (entry.abstractFmt = 0 && guid = entry.guid) ||
          entry.children.any fun child => frameFormatMatchesGuid child guid := by
  cases format <;> simp [frameFormatMatchesGuid, matchesGuidTo, getFormatEntry, absFmt, fmt]

theorem findInterval_eq_head? {intervals : List UInt32} {found : Option UInt32}
    (h : findInterval r intervals = some found) :
    found = ((intervals.takeWhile (· ≠ 0)).filter r.inRange).head? := by
  induction intervals with
  | nil => exact absurd h nofun
  | cons interval rest ih =>
    unfold findInterval at h
    split_ifs at h with hzero hrange
    · simpa [hzero] using (Option.some.inj h).symm
    · simpa [hzero, hrange] using (Option.some.inj h).symm
    · simpa [hzero, hrange] using ih h

theorem exists_findInterval {intervals : List UInt32} (h : 0 ∈ intervals) :
    ∃ found, findInterval r intervals = some found := by
  induction intervals with
  | nil => exact absurd h nofun
  | cons interval rest ih =>
    unfold findInterval
    split_ifs with hzero hrange
    · exact ⟨none, rfl⟩
    · exact ⟨some interval, rfl⟩
    · exact ih ((List.mem_cons.mp h).resolve_left (Ne.symm hzero))

/-- The division by zero. -/
def FrameDesc.Faults (frame : FrameDesc) (fps : Int) : Prop :=
  fps ≠ 0 ∧ frame.dwMinFrameInterval < interval100ns fps ∧
    interval100ns fps ≤ frame.dwMaxFrameInterval ∧ frame.dwFrameIntervalStep = 0

instance (frame : FrameDesc) (fps : Int) : Decidable (frame.Faults fps) :=
  inferInstanceAs (Decidable (_ ∧ _ ∧ _ ∧ _))

theorem checkFps_eq (frame : FrameDesc) (fps : Int) :
    checkFps frame fps =
      if frame.Faults fps then none
      else some (if fps ≠ 0 ∧ frame.Allows (interval100ns fps) then some (interval100ns fps)
        else none) := by
  have hsame : interval100ns fps - frame.dwMinFrameInterval = 0 ↔
      interval100ns fps = frame.dwMinFrameInterval := by
    rw [UInt32.sub_eq_iff_eq_add, UInt32.zero_add]
  have hlt : frame.dwMinFrameInterval < interval100ns fps ↔
      frame.dwMinFrameInterval ≤ interval100ns fps ∧
        interval100ns fps ≠ frame.dwMinFrameInterval := by
    rw [UInt32.lt_iff_le_and_ne, ne_comm]
  unfold checkFps FrameDesc.Faults FrameDesc.Allows
  simp only [hsame, hlt]
  by_cases hzero : fps = 0
  · simp [hzero]
  by_cases hmin : frame.dwMinFrameInterval ≤ interval100ns fps
  · by_cases hmax : interval100ns fps ≤ frame.dwMaxFrameInterval
    · by_cases hoffset : interval100ns fps = frame.dwMinFrameInterval
      · rw [hoffset] at hmax
        simp [hzero, hmax, hoffset]
      · by_cases hstep : frame.dwFrameIntervalStep = 0
        · simp [hzero, hmin, hmax, hoffset, hstep]
        · simp only [hzero, hmin, hmax, hoffset, hstep, ne_eq, not_false_eq_true, and_self,
            and_false, true_and, false_or, if_false, if_true]
          exact (apply_ite some _ _ _).symm
    · simp [hzero, hmax]
  · simp [hzero, hmin]

/-- The rates that are searched are those of the range. -/
theorem mem_rates {fps : Int} :
    fps ∈ r.rates ↔ r.minFps.toInt ≤ fps ∧ fps ≤ r.maxFps.toInt := by
  unfold Request.rates
  rw [List.mem_map]
  constructor
  · rintro ⟨i, hi, rfl⟩
    rw [List.mem_reverse, List.mem_range] at hi
    omega
  · intro h
    refine ⟨(fps - r.minFps.toInt).toNat, ?_, by omega⟩
    rw [List.mem_reverse, List.mem_range]
    omega

theorem findFps_eq_head? {found : Option UInt32} (h : findFps r frame = some found) :
    found = ((r.rates.filter fun fps => fps ≠ 0 ∧ frame.Allows (interval100ns fps)).map
      interval100ns).head? := by
  unfold findFps at h
  rw [Option.bind_eq_some_iff] at h
  obtain ⟨found', hsearch, h⟩ := h
  split_ifs at h with hleast
  rw [← Option.some.inj h, List.map_eq_flatMap, flatMap_filter]
  refine findSomeM?_eq_head? (fun fps _ found hfps => ?_) hsearch
  rw [checkFps_eq] at hfps
  simp only [decide_eq_true_eq]
  split_ifs at hfps ⊢
  · exact (Option.some.inj hfps).symm
  · exact (Option.some.inj hfps).symm

theorem exists_findFps (hleast : r.minFps ≠ Int32.minValue)
    (h : ∀ fps ∈ r.rates, ¬ frame.Faults fps) : ∃ found, findFps r frame = some found := by
  obtain ⟨found, hfound⟩ := exists_findSomeM? fun fps hfps =>
    ⟨_, (checkFps_eq frame fps).trans (if_neg (h fps hfps))⟩
  refine ⟨found, ?_⟩
  unfold findFps
  rw [hfound, Option.bind_some, if_neg fun hand => hleast hand.2]

theorem findFrameInterval_eq_head? {found : Option UInt32}
    (h : findFrameInterval r frame = some found) : found = (r.intervals frame).head? := by
  unfold findFrameInterval at h
  unfold Request.intervals
  cases hintervals : frame.intervals with
  | none =>
    rw [hintervals] at h
    exact findFps_eq_head? h
  | some intervals =>
    rw [hintervals] at h
    exact findInterval_eq_head? h

/-- **The search finds the first offer of a format.** -/
theorem findFrame_eq_head? {found : Option (FrameDesc × UInt32)}
    (h : findFrame r format = some found) : found = (r.offersIn format).head? := by
  unfold findFrame at h
  unfold Request.offersIn
  rw [flatMap_filter]
  refine findSomeM?_eq_head? (fun frame _ found hframe => ?_) h
  unfold findInFrame at hframe
  split_ifs at hframe ⊢
  · obtain ⟨interval, hinterval, rfl⟩ := Option.map_eq_some_iff.mp hframe
    rw [findFrameInterval_eq_head? hinterval, List.head?_map]
  · exact (Option.some.inj hframe).symm

/-- A format in which the search comes to its end. -/
structure FormatDesc.Searchable (r : Request) (format : FormatDesc) : Prop where
  discrete : ∀ frame ∈ format.frameDescs, ∀ intervals, frame.intervals = some intervals →
    0 ∈ intervals
  continuous : ∀ frame ∈ format.frameDescs, frame.intervals = none →
    ∀ fps ∈ r.rates, ¬ frame.Faults fps

theorem exists_findFrame (hleast : r.minFps ≠ Int32.minValue) (h : format.Searchable r) :
    ∃ found, findFrame r format = some found := by
  refine exists_findSomeM? fun frame hframe => ?_
  have hinterval : ∃ found, findFrameInterval r frame = some found := by
    unfold findFrameInterval
    cases hintervals : frame.intervals with
    | none => exact exists_findFps hleast (h.continuous frame hframe hintervals)
    | some intervals => exact exists_findInterval (h.discrete frame hframe intervals hintervals)
  unfold findInFrame
  split_ifs
  · obtain ⟨found, hfound⟩ := hinterval
    rw [hfound]
    exact ⟨_, rfl⟩
  · exact ⟨none, rfl⟩

/-- The formats of a scan end their arrays, so that only a step of zero is in the way. -/
theorem FormatDesc.WellFormed.searchable (h : format.WellFormed)
    (hstep : ∀ frame ∈ format.frameDescs, frame.intervals = none →
      ∀ fps ∈ r.rates, ¬ frame.Faults fps) : format.Searchable r := by
  refine ⟨fun frame hframe intervals hintervals => ?_, hstep⟩
  have hwell := h.frames frame hframe
  by_cases htype : frame.bFrameIntervalType = 0
  · rw [hwell.continuous htype] at hintervals
    exact absurd hintervals nofun
  · obtain ⟨l, hl, -⟩ := hwell.discrete htype
    rw [hl] at hintervals
    rw [← Option.some.inj hintervals]
    exact List.mem_append_right _ (List.mem_singleton.mpr rfl)

/-! ## What an offer is -/

theorem mem_intervals {interval : UInt32} :
    interval ∈ r.intervals frame ↔
      (∀ intervals, frame.intervals = some intervals →
        interval ∈ intervals.takeWhile (· ≠ 0) ∧ r.inRange interval) ∧
      (frame.intervals = none → frame.Allows interval ∧
        ∃ fps, r.minFps.toInt ≤ fps ∧ fps ≤ r.maxFps.toInt ∧ fps ≠ 0 ∧
          interval100ns fps = interval) := by
  unfold Request.intervals
  cases frame.intervals with
  | none =>
    rw [List.mem_map]
    constructor
    · rintro ⟨fps, hfps, rfl⟩
      obtain ⟨hrate, hallows⟩ := List.mem_filter.mp hfps
      obtain ⟨hmin, hmax⟩ := mem_rates.mp hrate
      have hboth := of_decide_eq_true hallows
      exact ⟨nofun, fun _ => ⟨hboth.2, fps, hmin, hmax, hboth.1, rfl⟩⟩
    · rintro ⟨-, h⟩
      obtain ⟨hallows, fps, hmin, hmax, hzero, rfl⟩ := h rfl
      exact ⟨fps, List.mem_filter.mpr ⟨mem_rates.mpr ⟨hmin, hmax⟩,
        decide_eq_true ⟨hzero, hallows⟩⟩, rfl⟩
  | some intervals =>
    rw [List.mem_filter]
    constructor
    · rintro ⟨hmem, hrange⟩
      refine ⟨?_, nofun⟩
      rintro _ ⟨⟩
      exact ⟨hmem, hrange⟩
    · rintro ⟨h, -⟩
      exact h intervals rfl

theorem mem_formats {streamIfs : List StreamingInterface} {p : StreamingInterface × FormatDesc} :
    p ∈ r.formats streamIfs ↔ p.1 ∈ streamIfs ∧ p.2 ∈ p.1.formatDescs ∧
      frameFormatMatchesGuid r.cf p.2.guidFormat := by
  unfold Request.formats
  rw [List.mem_flatMap]
  constructor
  · rintro ⟨streamIf, hstreamIf, hp⟩
    obtain ⟨format, hformat, rfl⟩ := List.mem_map.mp hp
    exact ⟨hstreamIf, List.mem_filter.mp hformat⟩
  · rintro ⟨hstreamIf, hformat⟩
    exact ⟨p.1, hstreamIf, List.mem_map.mpr ⟨p.2, List.mem_filter.mpr hformat, rfl⟩⟩

theorem mem_offers {streamIfs : List StreamingInterface} {o : Offer} :
    o ∈ r.offers streamIfs ↔ (o.streamIf, o.format) ∈ r.formats streamIfs ∧
      o.frame ∈ o.format.frameDescs ∧ r.sized o.frame ∧ o.interval ∈ r.intervals o.frame := by
  unfold Request.offers Request.offersOf Request.offersIn
  rw [List.mem_flatMap]
  constructor
  · rintro ⟨p, hp, ho⟩
    obtain ⟨⟨frame, interval⟩, hfound, rfl⟩ := List.mem_map.mp ho
    obtain ⟨f, hf, hpair⟩ := List.mem_flatMap.mp hfound
    obtain ⟨i, hi, heq⟩ := List.mem_map.mp hpair
    obtain ⟨rfl, rfl⟩ := Prod.mk.inj heq
    exact ⟨hp, (List.mem_filter.mp hf).1, (List.mem_filter.mp hf).2, hi⟩
  · rintro ⟨hp, hframe, hsized, hinterval⟩
    refine ⟨_, hp, List.mem_map.mpr ⟨(o.frame, o.interval), ?_, rfl⟩⟩
    exact List.mem_flatMap.mpr ⟨o.frame, List.mem_filter.mpr ⟨hframe, hsized⟩,
      List.mem_map.mpr ⟨o.interval, hinterval, rfl⟩⟩

end Search

end PetDev.Uvc
