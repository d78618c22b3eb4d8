import Mathlib.Data.Finset.Basic
import PetDev.Uvc.DescriptorFormats

/-!
# The control block of a stream

`uvc_query_stream_ctrl` sends the control block of a stream to the camera and gets it from there,
in the layout of the camera's version of the protocol.  Whatever the camera answers, the function
comes back, and only a `GET` changes the block (`queryStreamCtrl_eq_some`).

`query_roundTrip` says which blocks come back from a camera that keeps them: the fields of its
version are those that were sent, but a missing `dwMaxVideoFrameSize` is that of the frame's
descriptor, and a layout with bit 31 has all of the bits above it.
-/

namespace PetDev.Uvc

/-! ## The source -/

def uvcSuccess : Int := 0
def uvcErrorInvalidParam : Int := -2
def uvcErrorNoDevice : Int := -4
def uvcErrorNotFound : Int := -5
def uvcErrorInvalidMode : Int := -51
def uvcErrorOther : Int := -99

/-- `uvc_stream_ctrl`. -/
structure StreamCtrl where
  bmHint : UInt16 := 0
  bFormatIndex : UInt8 := 0
  bFrameIndex : UInt8 := 0
  dwFrameInterval : UInt32 := 0
  wKeyFrameRate : UInt16 := 0
  wPFrameRate : UInt16 := 0
  wCompQuality : UInt16 := 0
  wCompWindowSize : UInt16 := 0
  wDelay : UInt16 := 0
  dwMaxVideoFrameSize : UInt32 := 0
  dwMaxPayloadTransferSize : UInt32 := 0
  dwClockFrequency : UInt32 := 0
  bmFramingInfo : UInt8 := 0
  bPreferedVersion : UInt8 := 0
  bMinVersion : UInt8 := 0
  bMaxVersion : UInt8 := 0
  bUsage : UInt8 := 0
  bBitDepthLuma : UInt8 := 0
  bmSettings : UInt8 := 0
  bMaxNumberOfRefFramesPlus1 : UInt8 := 0
  bmRateControlModes : UInt16 := 0
  bmLayoutPerStream : UInt64 := 0
  bInterfaceNumber : UInt8 := 0
  deriving DecidableEq

/-- What these functions read of `uvc_device_info`. -/
structure DeviceInfo where
  bcdUVC : UInt16
  streamIfs : List StreamingInterface

/-- `_uvc_find_frame_desc_stream_if`. -/
def findFrameDescStreamIf (streamIf : StreamingInterface) (formatId frameId : UInt8) :
    Option FrameDesc :=
  streamIf.formatDescs.findSome? fun format =>
    if format.bFormatIndex = formatId then
      format.frameDescs.find? fun frame => frame.bFrameIndex = frameId
    else none

/-- `uvc_find_frame_desc`. -/
def findFrameDesc (info : DeviceInfo) (formatId frameId : UInt8) : Option FrameDesc :=
  info.streamIfs.findSome? fun streamIf => findFrameDescStreamIf streamIf formatId frameId

/-- `enum uvc_req_code`, as far as it is used here. -/
inductive ReqCode where
  | setCur
  | getCur
  | getMin
  | getMax
  deriving DecidableEq

/-- The length of a control block in this version of the protocol. -/
def ctrlLength (bcdUVC : UInt16) : Nat :=
  if 0x0150 ≤ bcdUVC then 48 else if 0x0110 ≤ bcdUVC then 34 else 26

/-- The buffer of a `SET` transfer, all of it; `len` of its bytes are sent. -/
def encodeCtrl (ctrl : StreamCtrl) (len : Nat) : List UInt8 :=
  shortToSw ctrl.bmHint ++ (ctrl.bFormatIndex :: ctrl.bFrameIndex ::
    (intToDw ctrl.dwFrameInterval ++ (shortToSw ctrl.wKeyFrameRate ++ (shortToSw ctrl.wPFrameRate ++
      (shortToSw ctrl.wCompQuality ++ (shortToSw ctrl.wCompWindowSize ++ (shortToSw ctrl.wDelay ++
        (intToDw ctrl.dwMaxVideoFrameSize ++ (intToDw ctrl.dwMaxPayloadTransferSize ++
          (if 26 < len then
            intToDw ctrl.dwClockFrequency ++ (ctrl.bmFramingInfo :: ctrl.bPreferedVersion ::
              ctrl.bMinVersion :: ctrl.bMaxVersion ::
              (if len = 48 then
                ctrl.bUsage :: ctrl.bBitDepthLuma :: ctrl.bmSettings ::
                  ctrl.bMaxNumberOfRefFramesPlus1 ::
                  (shortToSw ctrl.bmRateControlModes ++ longToQw ctrl.bmLayoutPerStream)
              else List.replicate 14 0))
          else List.replicate 22 0))))))))))

/-- The fields of the first version. -/
def decodeCtrl10 (buf : List UInt8) (ctrl : StreamCtrl) : Option StreamCtrl := do
  let bmHint ← swToShort buf 0
  let bFormatIndex ← buf[2]?
  let bFrameIndex ← buf[3]?
  let dwFrameInterval ← dwToInt buf 4
  let wKeyFrameRate ← swToShort buf 8
  let wPFrameRate ← swToShort buf 10
  let wCompQuality ← swToShort buf 12
  let wCompWindowSize ← swToShort buf 14
  let wDelay ← swToShort buf 16
  let dwMaxVideoFrameSize ← dwToInt buf 18
  let dwMaxPayloadTransferSize ← dwToInt buf 22
  return { ctrl with
    bmHint, bFormatIndex, bFrameIndex, dwFrameInterval, wKeyFrameRate, wPFrameRate, wCompQuality
    wCompWindowSize, wDelay, dwMaxVideoFrameSize, dwMaxPayloadTransferSize }

/-- The fields that came with UVC 1.1. -/
def decodeCtrl11 (buf : List UInt8) (ctrl : StreamCtrl) : Option StreamCtrl := do
  let dwClockFrequency ← dwToInt buf 26
  let bmFramingInfo ← buf[30]?
  let bPreferedVersion ← buf[31]?
  let bMinVersion ← buf[32]?
  let bMaxVersion ← buf[33]?
  return { ctrl with
    dwClockFrequency, bmFramingInfo, bPreferedVersion, bMinVersion, bMaxVersion }

/-- The fields that came with UVC 1.5. -/
def decodeCtrl15 (buf : List UInt8) (ctrl : StreamCtrl) : Option StreamCtrl := do
  let bUsage ← buf[34]?
  let bBitDepthLuma ← buf[35]?
  let bmSettings ← buf[36]?
  let bMaxNumberOfRefFramesPlus1 ← buf[37]?
  let bmRateControlModes ← swToShort buf 38
  let bmLayoutPerStream ← qwToLong buf 40
  return { ctrl with
    bUsage, bBitDepthLuma, bmSettings, bMaxNumberOfRefFramesPlus1, bmRateControlModes
    bmLayoutPerStream }

/-- What a `GET` makes of the block; a read past the buffer is a fault. -/
def decodeCtrl (buf : List UInt8) (len : Nat) (ctrl : StreamCtrl) : Option StreamCtrl :=
  (decodeCtrl10 buf ctrl).bind fun ctrl =>
  (if 26 < len then decodeCtrl11 buf ctrl else some ctrl).bind fun ctrl =>
  if 48 ≤ len then decodeCtrl15 buf ctrl else some ctrl

/-- The fix for cameras that fail to set `dwMaxVideoFrameSize`. -/
def fixMaxVideoFrameSize (info : DeviceInfo) (ctrl : StreamCtrl) : StreamCtrl :=
  if ctrl.dwMaxVideoFrameSize = 0 then
    match findFrameDesc info ctrl.bFormatIndex ctrl.bFrameIndex with
    | some frame => { ctrl with dwMaxVideoFrameSize := frame.dwMaxVideoFrameBufferSize }
    | none => ctrl
  else ctrl

/-- A call of libusb that reached the kernel or the camera, with its answer. -/
inductive UsbCall where
  | claim (interface : UInt8) (ret : Int)
  | release (interface : UInt8) (ret : Int)
  | detachKernelDriver (interface : UInt8)
  | setAltSetting (interface altSetting : UInt8) (ret : Int)
  | control (probe : Bool) (req : ReqCode) (interface : UInt8) (data : List UInt8) (ret : Int)

/-- The kernel and the camera: how they answer, after the calls there were. -/
structure Usb where
  attached : List UsbCall → Bool
  claim : List UsbCall → UInt8 → Int
  release : List UsbCall → UInt8 → Int
  setAltSetting : List UsbCall → UInt8 → UInt8 → Int
  control : List UsbCall → Bool → ReqCode → UInt8 → List UInt8 → Int × List UInt8

/-- `claimed_interfaces` of the handle, the control block, and the calls there were. -/
structure UsbState where
  claimed : Finset UInt8
  ctrl : StreamCtrl
  calls : List UsbCall

variable (usb : Usb) (info : DeviceInfo)

/-- The control block after the answer to a query. -/
def answerQuery (ctrl : StreamCtrl) (req : ReqCode) (buf : List UInt8) (len : Nat)
    (answer : Int × List UInt8) : Option (StreamCtrl × Int) :=
  if answer.1 ≤ 0 then some (ctrl, if answer.1 = 0 then uvcErrorOther else answer.1)
  else if answer.1 < len then some (ctrl, uvcErrorOther)
  else if req ≠ .setCur then
    let received := answer.2.take len
    (decodeCtrl (received ++ buf.drop received.length) len ctrl).map fun ctrl =>
      (fixMaxVideoFrameSize info ctrl, uvcSuccess)
  else some (ctrl, uvcSuccess)

/-- `uvc_query_stream_ctrl`. -/
def queryStreamCtrl (s : UsbState) (probe : Bool) (req : ReqCode) : Option (UsbState × Int) :=
  let len := ctrlLength info.bcdUVC
  let buf := if req = .setCur then encodeCtrl s.ctrl len else List.replicate 48 0
  let answer := usb.control s.calls probe req s.ctrl.bInterfaceNumber (buf.take len)
  (answerQuery info s.ctrl req buf len answer).map fun r =>
    ({ s with
        ctrl := r.1
        calls := s.calls ++
          [.control probe req s.ctrl.bInterfaceNumber (buf.take len) answer.1] }, r.2)

/-! ## Queries come back -/

section Query

variable {usb : Usb} {info : DeviceInfo} {ctrl : StreamCtrl} {buf rest : List UInt8} {len : Nat}

theorem exists_qwToLong {i : Nat} : (∃ v, qwToLong buf i = some v) ↔ i + 8 ≤ buf.length := by
  unfold qwToLong
  simp only [Option.bind_eq_bind, exists_bind, exists_dwToInt, exists_getElem?, Option.pure_def,
    Option.some.injEq, exists_eq', exists_and_right, and_true]
  omega

theorem exists_decodeCtrl10 : (∃ c, decodeCtrl10 buf ctrl = some c) ↔ 26 ≤ buf.length := by
  unfold decodeCtrl10
  simp only [Option.bind_eq_bind, exists_bind, exists_getElem?, exists_swToShort, exists_dwToInt,
    Option.pure_def, Option.some.injEq, exists_eq', exists_and_right, and_true]
  omega

theorem exists_decodeCtrl11 : (∃ c, decodeCtrl11 buf ctrl = some c) ↔ 34 ≤ buf.length := by
  unfold decodeCtrl11
  simp only [Option.bind_eq_bind, exists_bind, exists_getElem?, exists_dwToInt,
    Option.pure_def, Option.some.injEq, exists_eq', exists_and_right, and_true]
  omega

theorem exists_decodeCtrl15 : (∃ c, decodeCtrl15 buf ctrl = some c) ↔ 48 ≤ buf.length := by
  unfold decodeCtrl15
  simp only [Option.bind_eq_bind, exists_bind, exists_getElem?, exists_swToShort, exists_qwToLong,
    Option.pure_def, Option.some.injEq, exists_eq', exists_and_right, and_true]
  omega

/-- A buffer of 48 bytes holds all the fields, and the interface is none of them. -/
theorem decodeCtrl_eq_some (h : buf.length = 48) (len : Nat) (ctrl : StreamCtrl) :
    ∃ c, decodeCtrl buf len ctrl = some c ∧ c.bInterfaceNumber = ctrl.bInterfaceNumber := by
  have hkept {c c' : StreamCtrl} (hdecode : decodeCtrl10 buf c = some c' ∨
      decodeCtrl11 buf c = some c' ∨ decodeCtrl15 buf c = some c') :
      c'.bInterfaceNumber = c.bInterfaceNumber := by
    unfold decodeCtrl10 decodeCtrl11 decodeCtrl15 at hdecode
    simp only [Option.bind_eq_bind, Option.bind_eq_some_iff, Option.pure_def,
      Option.some.injEq] at hdecode
    obtain ⟨_, _, _, _, _, _, _, _, _, _, _, _, _, _, _, _, _, _, _, _, _, _, rfl⟩ |
      ⟨_, _, _, _, _, _, _, _, _, _, rfl⟩ | ⟨_, _, _, _, _, _, _, _, _, _, _, _, rfl⟩ := hdecode
    · rfl
    · rfl
    · rfl
  obtain ⟨c10, h10⟩ := exists_decodeCtrl10.mpr (show 26 ≤ buf.length by omega)
  obtain ⟨c11, h11, hsame⟩ : ∃ c, (if 26 < len then decodeCtrl11 buf c10 else some c10) = some c ∧
      c.bInterfaceNumber = c10.bInterfaceNumber := by
    split_ifs
    · obtain ⟨c, hc⟩ := exists_decodeCtrl11.mpr (show 34 ≤ buf.length by omega)
      exact ⟨c, hc, hkept (.inr (.inl hc))⟩
    · exact ⟨c10, rfl, rfl⟩
  obtain ⟨c15, h15, hsame'⟩ : ∃ c, (if 48 ≤ len then decodeCtrl15 buf c11 else some c11) = some c ∧
      c.bInterfaceNumber = c11.bInterfaceNumber := by
    split_ifs
    · obtain ⟨c, hc⟩ := exists_decodeCtrl15.mpr (show 48 ≤ buf.length by omega)
      exact ⟨c, hc, hkept (.inr (.inr hc))⟩
    · exact ⟨c11, rfl, rfl⟩
  refine ⟨c15, ?_, hsame'.trans (hsame.trans (hkept (.inl h10)))⟩
  unfold decodeCtrl
  rw [h10, Option.bind_some, h11, Option.bind_some, h15]

theorem fixMaxVideoFrameSize_interface (info : DeviceInfo) (ctrl : StreamCtrl) :
    (fixMaxVideoFrameSize info ctrl).bInterfaceNumber = ctrl.bInterfaceNumber := by
  unfold fixMaxVideoFrameSize
  split_ifs
  · split <;> rfl
  · rfl

theorem length_encodeCtrl (ctrl : StreamCtrl) (len : Nat) : (encodeCtrl ctrl len).length = 48 := by
  unfold encodeCtrl
  split_ifs <;> rfl

/-- What an answer can do: an error leaves the block alone, and so does the answer to a `SET`. -/
theorem answerQuery_eq_some (info : DeviceInfo) (ctrl : StreamCtrl) (req : ReqCode)
    (h : buf.length = 48) (hlen : len ≤ 48) (answer : Int × List UInt8) :
    ∃ c result, answerQuery info ctrl req buf len answer = some (c, result) ∧
      c.bInterfaceNumber = ctrl.bInterfaceNumber ∧
      (result = uvcSuccess ↔ 0 < answer.1 ∧ (len : Int) ≤ answer.1) ∧
      (result ≠ uvcSuccess ∨ req = .setCur → c = ctrl) := by
  unfold answerQuery
  split_ifs with hnone hzero hshort hget
  · exact ⟨ctrl, _, rfl, rfl, iff_of_false (by decide) (by omega), fun _ => rfl⟩
  · exact ⟨ctrl, _, rfl, rfl, iff_of_false hzero (by omega), fun _ => rfl⟩
  · exact ⟨ctrl, _, rfl, rfl, iff_of_false (by decide) (by omega), fun _ => rfl⟩
  · have hreceived : (answer.2.take len ++ buf.drop (answer.2.take len).length).length = 48 := by
      rw [List.length_append, List.length_drop, List.length_take, h]
      omega
    obtain ⟨c, hc, hsame⟩ := decodeCtrl_eq_some hreceived len ctrl
    refine ⟨_, uvcSuccess, congrArg (Option.map _) hc, ?_,
      iff_of_true rfl ⟨by omega, by omega⟩, fun h => ?_⟩
    · rw [fixMaxVideoFrameSize_interface, hsame]
    · rcases h with h | h
      · exact absurd rfl h
      · exact absurd h hget
  · exact ⟨ctrl, _, rfl, rfl, iff_of_true rfl ⟨by omega, by omega⟩, fun _ => rfl⟩

theorem ctrlLength_le (bcdUVC : UInt16) : ctrlLength bcdUVC ≤ 48 := by
  unfold ctrlLength
  split_ifs <;> omega

theorem le_ctrlLength (bcdUVC : UInt16) : 26 ≤ ctrlLength bcdUVC := by
  unfold ctrlLength
  split_ifs <;> omega

theorem length_take_encodeCtrl (bcdUVC : UInt16) (ctrl : StreamCtrl) :
    ((encodeCtrl ctrl (ctrlLength bcdUVC)).take (ctrlLength bcdUVC)).length =
      ctrlLength bcdUVC := by
  have hle := ctrlLength_le bcdUVC
  rw [List.length_take, length_encodeCtrl]
  omega

/-- **A query comes back, with one more call.** -/
theorem queryStreamCtrl_eq_some (usb : Usb) (info : DeviceInfo) (s : UsbState) (probe : Bool)
    (req : ReqCode) :
    ∃ c result data ret, queryStreamCtrl usb info s probe req = some
        (⟨s.claimed, c, s.calls ++ [.control probe req s.ctrl.bInterfaceNumber data ret]⟩, result) ∧
      c.bInterfaceNumber = s.ctrl.bInterfaceNumber ∧
      (data.length = ctrlLength info.bcdUVC ∧
        ret = (usb.control s.calls probe req s.ctrl.bInterfaceNumber data).1) ∧
      (req = .setCur →
        data = (encodeCtrl s.ctrl (ctrlLength info.bcdUVC)).take (ctrlLength info.bcdUVC)) ∧
      (result = uvcSuccess ↔ 0 < ret ∧ (ctrlLength info.bcdUVC : Int) ≤ ret) ∧
      (result ≠ uvcSuccess ∨ req = .setCur → c = s.ctrl) := by
  obtain ⟨buf, hbuf, hlength, hset⟩ : ∃ buf,
      buf = (if req = .setCur then encodeCtrl s.ctrl (ctrlLength info.bcdUVC)
        else List.replicate 48 0) ∧ buf.length = 48 ∧
      (req = .setCur → buf = encodeCtrl s.ctrl (ctrlLength info.bcdUVC)) := by
    refine ⟨_, rfl, ?_, fun h => if_pos h⟩
    split_ifs
    · exact length_encodeCtrl _ _
    · rfl
  obtain ⟨c, result, hanswer, hsame, hresult, hkept⟩ := answerQuery_eq_some info s.ctrl req hlength
    (ctrlLength_le info.bcdUVC) (usb.control s.calls probe req s.ctrl.bInterfaceNumber
      (buf.take (ctrlLength info.bcdUVC)))
  have htake : (buf.take (ctrlLength info.bcdUVC)).length = ctrlLength info.bcdUVC := by
    rw [List.length_take, hlength, Nat.min_eq_left (ctrlLength_le info.bcdUVC)]
  refine ⟨c, result, buf.take (ctrlLength info.bcdUVC), _, ?_, hsame, ⟨htake, rfl⟩,
    fun h => by rw [hset h], hresult, hkept⟩
  unfold queryStreamCtrl
  simp only [← hbuf]
  rw [hanswer]
  rfl

/-! ## What comes back -/

theorem qwToLong_of_drop {x : UInt64} (offset : Nat) (h : buf.drop offset = longToQw x ++ rest) :
    qwToLong buf offset =
      some (if 0x80000000 ≤ x.toUInt32 then x ||| 0xffffffff00000000 else x) := by
  rw [← qwToLong_longToQw x rest, ← h]
  simp [qwToLong, dwToInt]

/-- The bytes that are not sent are zero. -/
theorem received_encodeCtrl (bcdUVC : UInt16) (ctrl : StreamCtrl) :
    (encodeCtrl ctrl (ctrlLength bcdUVC)).take (ctrlLength bcdUVC) ++
      (List.replicate 48 0).drop (ctrlLength bcdUVC) = encodeCtrl ctrl (ctrlLength bcdUVC) := by
  unfold ctrlLength
  split_ifs <;> rfl

theorem decodeCtrl10_encodeCtrl (ctrl : StreamCtrl) (len : Nat) :
    decodeCtrl10 (encodeCtrl ctrl len) ctrl = some ctrl := by
  unfold decodeCtrl10 encodeCtrl
  rw [swToShort_of_drop 0 rfl, dwToInt_of_drop 4 rfl, swToShort_of_drop 8 rfl,
    swToShort_of_drop 10 rfl, swToShort_of_drop 12 rfl, swToShort_of_drop 14 rfl,
    swToShort_of_drop 16 rfl, dwToInt_of_drop 18 rfl, dwToInt_of_drop 22 rfl]
  rfl

theorem decodeCtrl11_encodeCtrl (ctrl : StreamCtrl) (h : 26 < len) :
    decodeCtrl11 (encodeCtrl ctrl len) ctrl = some ctrl := by
  unfold decodeCtrl11 encodeCtrl
  rw [if_pos h, dwToInt_of_drop 26 rfl]
  rfl

/-- The layout as it comes back. -/
def StreamCtrl.signed (ctrl : StreamCtrl) : StreamCtrl :=
  { ctrl with
    bmLayoutPerStream :=
      if 0x80000000 ≤ ctrl.bmLayoutPerStream.toUInt32 then
        ctrl.bmLayoutPerStream ||| 0xffffffff00000000
      else ctrl.bmLayoutPerStream }

theorem decodeCtrl15_encodeCtrl (ctrl : StreamCtrl) :
    decodeCtrl15 (encodeCtrl ctrl 48) ctrl = some ctrl.signed := by
  unfold decodeCtrl15 encodeCtrl
  rw [if_pos (by omega), if_pos rfl, swToShort_of_drop 38 rfl, qwToLong_of_drop 40 rfl]
  rfl

theorem decodeCtrl_encodeCtrl (bcdUVC : UInt16) (ctrl : StreamCtrl) :
    decodeCtrl (encodeCtrl ctrl (ctrlLength bcdUVC)) (ctrlLength bcdUVC) ctrl =
      some (if 0x0150 ≤ bcdUVC then ctrl.signed else ctrl) := by
  unfold decodeCtrl
  rw [decodeCtrl10_encodeCtrl, Option.bind_some]
  by_cases h15 : 0x0150 ≤ bcdUVC
  · have hlen : ctrlLength bcdUVC = 48 := if_pos h15
    rw [hlen, if_pos h15, if_pos (show 26 < 48 by omega), decodeCtrl11_encodeCtrl ctrl (by omega),
      Option.bind_some, if_pos (Nat.le_refl 48), decodeCtrl15_encodeCtrl]
  · have hshort : ¬ 48 ≤ ctrlLength bcdUVC := by
      unfold ctrlLength
      rw [if_neg h15]
      split_ifs <;> omega
    rw [if_neg h15]
    by_cases h11 : 26 < ctrlLength bcdUVC
    · rw [if_pos h11, decodeCtrl11_encodeCtrl ctrl h11, Option.bind_some, if_neg hshort]
    · rw [if_neg h11, Option.bind_some, if_neg hshort]

theorem signed_eq_iff (ctrl : StreamCtrl) :
    ctrl.signed = ctrl ↔ (0x80000000 ≤ ctrl.bmLayoutPerStream.toUInt32 →
      ctrl.bmLayoutPerStream >>> 32 = 0xffffffff) := by
  rw [← qwToLong_longToQw_eq_iff _ [], qwToLong_longToQw, Option.some.injEq]
  constructor
  · exact congrArg StreamCtrl.bmLayoutPerStream
  · intro h
    unfold StreamCtrl.signed
    rw [h]

theorem fixMaxVideoFrameSize_eq_iff (info : DeviceInfo) (ctrl : StreamCtrl) :
    fixMaxVideoFrameSize info ctrl = ctrl ↔ (ctrl.dwMaxVideoFrameSize = 0 →
      ∀ frame, findFrameDesc info ctrl.bFormatIndex ctrl.bFrameIndex = some frame →
        frame.dwMaxVideoFrameBufferSize = 0) := by
  unfold fixMaxVideoFrameSize
  split_ifs with hzero
  · cases hframe : findFrameDesc info ctrl.bFormatIndex ctrl.bFrameIndex with
    | none => simp
    | some frame =>
      constructor
      · rintro h - f ⟨⟩
        rw [← hzero]
        exact congrArg StreamCtrl.dwMaxVideoFrameSize h
      · intro h
        have hsize : frame.dwMaxVideoFrameBufferSize = ctrl.dwMaxVideoFrameSize := by
          rw [hzero]
          exact h hzero frame rfl
        show { ctrl with dwMaxVideoFrameSize := frame.dwMaxVideoFrameBufferSize } = ctrl
        rw [hsize]
  · exact iff_of_true rfl fun h => absurd h hzero

/-- Neither of the two changes the other's field. -/
theorem fixMaxVideoFrameSize_signed_eq_iff (info : DeviceInfo) (ctrl : StreamCtrl) :
    fixMaxVideoFrameSize info ctrl.signed = ctrl ↔
      ctrl.signed = ctrl ∧ fixMaxVideoFrameSize info ctrl = ctrl := by
  constructor
  · intro h
    have hlayout := congrArg StreamCtrl.bmLayoutPerStream h
    have hkept : (fixMaxVideoFrameSize info ctrl.signed).bmLayoutPerStream =
        ctrl.signed.bmLayoutPerStream := by
      unfold fixMaxVideoFrameSize
      split_ifs
      · split <;> rfl
      · rfl
    have hsigned : ctrl.signed = ctrl := by
      rw [hkept] at hlayout
      show { ctrl with bmLayoutPerStream := ctrl.signed.bmLayoutPerStream } = ctrl
      rw [hlayout]
    refine ⟨hsigned, ?_⟩
    rw [hsigned] at h
    exact h
  · rintro ⟨hsigned, hfix⟩
    rw [hsigned, hfix]

/-- The camera takes the block in full, and gives it back when it is asked next. -/
structure Usb.Keeps (usb : Usb) (calls : List UsbCall) (probe : Bool) (interface : UInt8)
    (data : List UInt8) : Prop where
  takes : (usb.control calls probe .setCur interface data).1 = data.length
  gives : usb.control (calls ++ [.control probe .setCur interface data data.length]) probe .getCur
    interface (List.replicate data.length 0) = ((data.length : Int), data)

/-- A block that is taken in full. -/
theorem queryStreamCtrl_set (usb : Usb) (info : DeviceInfo) (s : UsbState) (probe : Bool)
    {data : List UInt8} (hdata : data = (encodeCtrl s.ctrl (ctrlLength info.bcdUVC)).take
      (ctrlLength info.bcdUVC))
    (h : (usb.control s.calls probe .setCur s.ctrl.bInterfaceNumber data).1 =
      (ctrlLength info.bcdUVC : Int)) :
    queryStreamCtrl usb info s probe .setCur = some (⟨s.claimed, s.ctrl, s.calls ++
      [.control probe .setCur s.ctrl.bInterfaceNumber data (ctrlLength info.bcdUVC)]⟩,
        uvcSuccess) := by
  have hpos := le_ctrlLength info.bcdUVC
  unfold queryStreamCtrl answerQuery
  simp only [if_true, ← hdata, h]
  rw [if_neg (by omega), if_neg (by omega), if_neg (by simp)]
  rfl

/-- The block that is given back. -/
theorem queryStreamCtrl_get (usb : Usb) (info : DeviceInfo) (s : UsbState) (probe : Bool)
    (h : usb.control s.calls probe .getCur s.ctrl.bInterfaceNumber
        (List.replicate (ctrlLength info.bcdUVC) 0) = ((ctrlLength info.bcdUVC : Int),
      (encodeCtrl s.ctrl (ctrlLength info.bcdUVC)).take (ctrlLength info.bcdUVC))) :
    ∃ calls, queryStreamCtrl usb info s probe .getCur = some (⟨s.claimed, fixMaxVideoFrameSize info
      (if 0x0150 ≤ info.bcdUVC then s.ctrl.signed else s.ctrl), calls⟩, uvcSuccess) := by
  have hle := ctrlLength_le info.bcdUVC
  have hpos := le_ctrlLength info.bcdUVC
  have hreplicate : (List.replicate 48 0 : List UInt8).take (ctrlLength info.bcdUVC) =
      List.replicate (ctrlLength info.bcdUVC) 0 := by
    rw [List.take_replicate, Nat.min_eq_left hle]
  have htake := length_take_encodeCtrl info.bcdUVC s.ctrl
  unfold queryStreamCtrl answerQuery
  simp only [reduceCtorEq, if_false, hreplicate, h]
  rw [if_neg (by omega), if_neg (by omega), if_pos (by simp), List.take_take, Nat.min_self, htake,
    received_encodeCtrl, decodeCtrl_encodeCtrl]
  exact ⟨_, rfl⟩

/-- **The round trip of a control block.** -/
theorem query_roundTrip (usb : Usb) (info : DeviceInfo) (s : UsbState) (probe : Bool)
    (h : usb.Keeps s.calls probe s.ctrl.bInterfaceNumber
      ((encodeCtrl s.ctrl (ctrlLength info.bcdUVC)).take (ctrlLength info.bcdUVC))) :
    ∃ t u, queryStreamCtrl usb info s probe .setCur = some (t, uvcSuccess) ∧
      queryStreamCtrl usb info t probe .getCur = some (u, uvcSuccess) ∧
      (u.ctrl = s.ctrl ↔
        (s.ctrl.dwMaxVideoFrameSize = 0 →
          ∀ frame, findFrameDesc info s.ctrl.bFormatIndex s.ctrl.bFrameIndex = some frame →
            frame.dwMaxVideoFrameBufferSize = 0) ∧
        (0x0150 ≤ info.bcdUVC → 0x80000000 ≤ s.ctrl.bmLayoutPerStream.toUInt32 →
          s.ctrl.bmLayoutPerStream >>> 32 = 0xffffffff)) := by
  have htakes := h.takes
  have hgives := h.gives
  rw [length_take_encodeCtrl] at htakes hgives
  have hset := queryStreamCtrl_set usb info s probe rfl htakes
  obtain ⟨calls, hget⟩ := queryStreamCtrl_get usb info ⟨s.claimed, s.ctrl, _⟩ probe hgives
  refine ⟨_, _, hset, hget, ?_⟩
  dsimp only
  split_ifs with h15
  · rw [fixMaxVideoFrameSize_signed_eq_iff, signed_eq_iff, fixMaxVideoFrameSize_eq_iff, and_comm]
    simp only [h15, true_implies]
  · rw [fixMaxVideoFrameSize_eq_iff]
    simp only [h15, false_implies, and_true]

/-- A camera of version 1.5 that takes 48 bytes, and gives back those it was sent last. -/
def keepingUsb : Usb where
  attached _ := true
  claim _ _ := 0
  release _ _ := 0
  setAltSetting _ _ _ := 0
  control calls _ req _ data :=
    match req, calls.getLast? with
    | .setCur, _ => (data.length, [])
    | _, some (.control _ _ _ sent _) => (sent.length, sent)
    | _, _ => (-9, [])

/-- A layout with bit 31 that does not come back. -/
theorem query_roundTrip_layout :
    ∃ t u, queryStreamCtrl keepingUsb ⟨0x0150, []⟩
        ⟨{1}, { bmLayoutPerStream := 0x80000000, bInterfaceNumber := 1 }, []⟩ true .setCur =
          some (t, uvcSuccess) ∧
      queryStreamCtrl keepingUsb ⟨0x0150, []⟩ t true .getCur = some (u, uvcSuccess) ∧
      u.ctrl ≠ { bmLayoutPerStream := 0x80000000, bInterfaceNumber := 1 } := by
  obtain ⟨t, u, hset, hget, hsame⟩ := query_roundTrip keepingUsb ⟨0x0150, []⟩
    ⟨{1}, { bmLayoutPerStream := 0x80000000, bInterfaceNumber := 1 }, []⟩ true ⟨rfl, rfl⟩
  refine ⟨t, u, hset, hget, fun h => ?_⟩
  exact absurd ((hsame.mp h).2 (by decide) (by decide)) (by decide)

end Query

end PetDev.Uvc
