import PetDev.Uvc.Offers
import PetDev.Uvc.StreamCtrl

/-!
# The altsetting of an isochronous stream

`uvc_stream_start_bandwidth` looks for an altsetting whose packets are as large as the camera asks
for, and takes the last one when there is none.  Two of its variables have a value only once it has
found one.

The model ends where the choice is made, before the altsetting is set and the transfers are
submitted.  `start_isochronous` says when the choice succeeds and with what: no variable is read
without a value.  `not_started_of_frameBased`: the frames of frame-based formats have no size after
a scan, so none of them is ever started.
-/

namespace PetDev.Uvc

/-! ## The source -/

def uvcErrorIo : Int := -1
def uvcErrorBusy : Int := -6
def uvcErrorNotSupported : Int := -12

/-- The values of `enum uvc_frame_format`. -/
def frameFormats : List FrameFormat :=
  [.any, .uncompressed, .compressed, .yuyv, .uyvy, .rgb565, .rgb, .bgr, .rgbx, .mjpeg, .gray8, .by8]

/-- `uvc_frame_format_for_guid`. -/
def frameFormatForGuid (guid : List UInt8) : FrameFormat :=
  (frameFormats.find? fun format =>
    match getFormatEntry format with
    | some entry => entry.abstractFmt = 0 ∧ entry.guid = guid
    | none => false).getD .any

/-- `_uvc_find_frame_desc_stream_if`, with the parent of the frame. -/
def findFrameAndFormat (streamIf : StreamingInterface) (formatId frameId : UInt8) :
    Option (FormatDesc × FrameDesc) :=
  streamIf.formatDescs.findSome? fun format =>
    if format.bFormatIndex = formatId then
      (format.frameDescs.find? fun frame => frame.bFrameIndex = frameId).map fun frame =>
        (format, frame)
    else none

/-- The bytes of a packet: the size, times the transactions. -/
def endpointBytesPerPacket (wMaxPacketSize : UInt16) : Nat :=
  (wMaxPacketSize &&& 0x07ff).toNat * ((wMaxPacketSize >>> 11 &&& 3).toNat + 1)

/-- The loop over the endpoints of an altsetting. -/
def altsettingBytes (bEndpointAddress : UInt8) (altsetting : InterfaceDescriptor) : Nat :=
  match altsetting.endpoint.find? fun endpoint => endpoint.bEndpointAddress = bEndpointAddress with
  | some endpoint => endpointBytesPerPacket endpoint.wMaxPacketSize
  | none => 0

/-- `config_bytes_per_packet`; `scaled` is the product with the bandwidth factor, where there is
one. -/
def configBytesPerPacket (scaled : UInt32 → Option Nat) (dwMaxPayloadTransferSize : UInt32) : Nat :=
  match scaled dwMaxPayloadTransferSize with
  | some bytes => if bytes = 0 then dwMaxPayloadTransferSize.toNat else bytes
  | none => dwMaxPayloadTransferSize.toNat

/-- `packets_per_transfer` and `total_transfer_size`. -/
structure TransferSizes where
  packets : Nat
  total : Nat
  deriving DecidableEq

/-- The sizes for a frame of this size; `sizeT` is the number of values of a `size_t`. -/
def transferSizes (sizeT frameSize bytes : Nat) : TransferSizes :=
  let packets := (frameSize + bytes - 1) % sizeT / bytes
  let packets := if 32 < packets then 32 else packets
  ⟨packets, packets * bytes⟩

/-- What the loop over the altsettings leaves; the sizes may have no value. -/
structure AltChoice where
  altsetting : InterfaceDescriptor
  bytes : Nat
  sizes : Option TransferSizes

/-- The loop over the altsettings. -/
def chooseAltsetting (sizeT config frameSize : Nat) (bEndpointAddress : UInt8) :
    List InterfaceDescriptor → Option AltChoice → Option AltChoice
  | [], choice => choice
  | altsetting :: rest, _ =>
    let bytes := altsettingBytes bEndpointAddress altsetting
    if bytes ≠ 0 ∧ (config ≤ bytes ∨ rest = []) then
      some ⟨altsetting, bytes, some (transferSizes sizeT frameSize bytes)⟩
    else chooseAltsetting sizeT config frameSize bEndpointAddress rest
      (some ⟨altsetting, bytes, none⟩)

/-- What the transfers are set up with. -/
structure IsoStart where
  altsetting : InterfaceDescriptor
  bytes : Nat
  sizes : TransferSizes

/-- The checks behind the loop; to read sizes without a value is a fault. -/
def checkChoice : Option AltChoice → Option (Except Int IsoStart)
  | none => none
  | some choice =>
    if choice.bytes = 0 then some (.error uvcErrorInvalidMode)
    else choice.sizes.map fun sizes =>
      if sizes.total = 0 then .error uvcErrorInvalidMode
      else .ok ⟨choice.altsetting, choice.bytes, sizes⟩

/-- `dwMaxVideoFrameSize`, the smaller of the two. -/
def maxVideoFrameSize (ctrl : StreamCtrl) (frame : FrameDesc) : UInt32 :=
  if ctrl.dwMaxVideoFrameSize ≤ frame.dwMaxVideoFrameBufferSize then ctrl.dwMaxVideoFrameSize
  else frame.dwMaxVideoFrameBufferSize

/-- `uvc_stream_start_bandwidth` for an interface with several altsettings, up to the choice of
one. -/
def startIsochronous (sizeT : Nat) (scaled : UInt32 → Option Nat) (running : Bool)
    (streamIf : StreamingInterface) (altsettings : List InterfaceDescriptor) (ctrl : StreamCtrl) :
    Option (Except Int IsoStart) :=
  if running then some (.error uvcErrorBusy)
  else
    match findFrameAndFormat streamIf ctrl.bFormatIndex ctrl.bFrameIndex with
    | none => some (.error uvcErrorInvalidParam)
    | some (format, frame) =>
      if frameFormatForGuid format.guidFormat = .any then some (.error uvcErrorNotSupported)
      else
        let config := configBytesPerPacket scaled ctrl.dwMaxPayloadTransferSize
        if config = 0 then some (.error uvcErrorIo)
        else checkChoice (chooseAltsetting sizeT config (maxVideoFrameSize ctrl frame).toNat
          streamIf.bEndpointAddress altsettings none)

/-! ## The choice -/

/-- The first altsetting that is large enough, and the last one if there is none. -/
def bestAltsetting (config : Nat) (bEndpointAddress : UInt8)
    (altsettings : List InterfaceDescriptor) (h : altsettings ≠ []) : InterfaceDescriptor :=
  (altsettings.find? fun altsetting => config ≤ altsettingBytes bEndpointAddress altsetting).getD
    (altsettings.getLast h)

section Choice

variable {sizeT config frameSize : Nat} {bEndpointAddress : UInt8}
  {altsettings : List InterfaceDescriptor}

/-- The loop comes to the best altsetting, and sets the sizes when its endpoint is there. -/
theorem chooseAltsetting_eq (hconfig : config ≠ 0) (h : altsettings ≠ [])
    (choice : Option AltChoice) :
    chooseAltsetting sizeT config frameSize bEndpointAddress altsettings choice =
      some ⟨bestAltsetting config bEndpointAddress altsettings h,
        altsettingBytes bEndpointAddress (bestAltsetting config bEndpointAddress altsettings h),
        if altsettingBytes bEndpointAddress
            (bestAltsetting config bEndpointAddress altsettings h) = 0 then none
        else some (transferSizes sizeT frameSize (altsettingBytes bEndpointAddress
          (bestAltsetting config bEndpointAddress altsettings h)))⟩ := by
  induction altsettings generalizing choice with
  | nil => exact absurd rfl h
  | cons altsetting rest ih =>
    unfold chooseAltsetting
    dsimp only
    by_cases hfits : config ≤ altsettingBytes bEndpointAddress altsetting
    · have hbest : bestAltsetting config bEndpointAddress (altsetting :: rest) h = altsetting := by
        unfold bestAltsetting
        rw [List.find?_cons_of_pos (by simpa using hfits), Option.getD_some]
      have hbytes : altsettingBytes bEndpointAddress altsetting ≠ 0 := by omega
      rw [if_pos ⟨hbytes, .inl hfits⟩, hbest, if_neg hbytes]
    · have hskip (hrest : rest ≠ []) :
          bestAltsetting config bEndpointAddress (altsetting :: rest) h =
            bestAltsetting config bEndpointAddress rest hrest := by
        unfold bestAltsetting
        rw [List.find?_cons_of_neg (by simpa using hfits), List.getLast_cons hrest]
      cases rest with
      | nil =>
        have hbest : bestAltsetting config bEndpointAddress [altsetting] h = altsetting := by
          unfold bestAltsetting
          rw [List.find?_cons_of_neg (by simpa using hfits)]
          rfl
        rw [hbest]
        by_cases hbytes : altsettingBytes bEndpointAddress altsetting = 0
        · rw [if_neg fun hand => hand.1 hbytes, if_pos hbytes]
          rfl
        · rw [if_pos ⟨hbytes, .inr rfl⟩, if_neg hbytes]
      | cons next rest =>
        have hrest : next :: rest ≠ [] := List.cons_ne_nil _ _
        rw [if_neg fun hand => hand.2.elim hfits hrest, ih hrest, hskip hrest]

theorem endpointBytesPerPacket_le (wMaxPacketSize : UInt16) :
    endpointBytesPerPacket wMaxPacketSize ≤ 8188 := by
  have hsize : (wMaxPacketSize &&& 0x07ff).toNat ≤ 2047 := by
    rw [UInt16.toNat_and]
    exact Nat.and_le_right
  have htransactions : (wMaxPacketSize >>> 11 &&& 3).toNat ≤ 3 := by
    rw [UInt16.toNat_and]
    exact Nat.and_le_right
  exact Nat.mul_le_mul hsize (Nat.succ_le_succ htransactions)

theorem altsettingBytes_le (bEndpointAddress : UInt8) (altsetting : InterfaceDescriptor) :
    altsettingBytes bEndpointAddress altsetting ≤ 8188 := by
  unfold altsettingBytes
  split
  · exact endpointBytesPerPacket_le _
  · exact Nat.zero_le _

/-- Sizes that fit a frame, or 32 packets of it. -/
structure TransferSizes.Fits (frameSize bytes : Nat) (sizes : TransferSizes) : Prop where
  total : sizes.total = sizes.packets * bytes
  packets : sizes.packets ≤ 32
  frame : min frameSize (32 * bytes) ≤ sizes.total
  tight : sizes.total < frameSize + bytes

theorem transferSizes_fits {bytes : Nat} (hbytes : bytes ≠ 0) (hroom : frameSize + bytes ≤ sizeT) :
    (transferSizes sizeT frameSize bytes).Fits frameSize bytes := by
  have hmod : (frameSize + bytes - 1) % sizeT = frameSize + bytes - 1 :=
    Nat.mod_eq_of_lt (by omega)
  have hdiv := Nat.div_add_mod (frameSize + bytes - 1) bytes
  have hrest := Nat.mod_lt (frameSize + bytes - 1) (Nat.pos_of_ne_zero hbytes)
  unfold transferSizes
  rw [hmod]
  dsimp only
  generalize (frameSize + bytes - 1) / bytes = packets at hdiv
  rw [Nat.mul_comm] at hdiv
  split_ifs with hmany
  · have hproduct : 33 * bytes ≤ packets * bytes := Nat.mul_le_mul_right bytes hmany
    exact ⟨rfl, Nat.le_refl 32, Nat.min_le_right _ _, by dsimp only; omega⟩
  · exact ⟨rfl, Nat.le_of_not_lt hmany, by dsimp only; omega, by dsimp only; omega⟩

/-- What a start with the best altsetting is set up with. -/
structure IsoStart.Best (config frameSize : Nat) (bEndpointAddress : UInt8)
    (altsettings : List InterfaceDescriptor) (h : altsettings ≠ []) (start : IsoStart) : Prop where
  altsetting : start.altsetting = bestAltsetting config bEndpointAddress altsettings h
  bytes : start.bytes = altsettingBytes bEndpointAddress start.altsetting
  sizes : start.sizes.Fits frameSize start.bytes
  most : start.sizes.total ≤ 262016

theorem checkChoice_eq (hconfig : config ≠ 0) (h : altsettings ≠ [])
    (hroom : frameSize + 8188 ≤ sizeT) :
    ∃ result, checkChoice (chooseAltsetting sizeT config frameSize bEndpointAddress altsettings
        none) = some result ∧
      ((∃ start, result = .ok start) ↔ altsettingBytes bEndpointAddress
        (bestAltsetting config bEndpointAddress altsettings h) ≠ 0 ∧ frameSize ≠ 0) ∧
      ∀ start, result = .ok start →
        start.Best config frameSize bEndpointAddress altsettings h := by
  have hle := altsettingBytes_le bEndpointAddress
    (bestAltsetting config bEndpointAddress altsettings h)
  rw [chooseAltsetting_eq hconfig h]
  unfold checkChoice
  dsimp only
  by_cases hbytes : altsettingBytes bEndpointAddress
      (bestAltsetting config bEndpointAddress altsettings h) = 0
  · rw [if_pos hbytes]
    exact ⟨_, rfl, iff_of_false nofun fun hand => hand.1 hbytes, nofun⟩
  · have hfits : (transferSizes sizeT frameSize (altsettingBytes bEndpointAddress
        (bestAltsetting config bEndpointAddress altsettings h))).Fits frameSize _ :=
      transferSizes_fits hbytes (by omega)
    have htotal := hfits.total
    have hframe := hfits.frame
    have htight := hfits.tight
    have hmost : (transferSizes sizeT frameSize (altsettingBytes bEndpointAddress
        (bestAltsetting config bEndpointAddress altsettings h))).total ≤ 262016 := by
      rw [htotal]
      exact Nat.mul_le_mul hfits.packets hle
    rw [if_neg hbytes, if_neg hbytes, Option.map_some]
    by_cases hnone : frameSize = 0
    · have hzero : (transferSizes sizeT frameSize (altsettingBytes bEndpointAddress
          (bestAltsetting config bEndpointAddress altsettings h))).total = 0 := by
        rw [htotal, hnone, Nat.zero_add] at htight
        rw [htotal, hnone, (Nat.lt_one_iff.mp (Nat.lt_of_mul_lt_mul_right
          (htight.trans_eq (Nat.one_mul _).symm))), Nat.zero_mul]
      rw [if_pos hzero]
      exact ⟨_, rfl, iff_of_false nofun fun hand => hand.2 hnone, nofun⟩
    · rw [if_neg (by omega)]
      refine ⟨_, rfl, iff_of_true ⟨_, rfl⟩ ⟨hbytes, hnone⟩, fun start hstart => ?_⟩
      cases hstart
      exact ⟨rfl, rfl, hfits, hmost⟩

end Choice

/-! ## A camera -/

/-- Altsettings without the endpoint, with 512 bytes, and with three times 1024 bytes. -/
def altsettingsOf (bEndpointAddress : UInt8) : List InterfaceDescriptor :=
  [⟨1, 0, [], [], by decide⟩,
    ⟨1, 1, [⟨bEndpointAddress, 0x0200, [], by decide⟩], [], by decide⟩,
    ⟨1, 2, [⟨bEndpointAddress, 0x1400, [], by decide⟩], [], by decide⟩]

/-- Images in YUYV, as an uncompressed and as a frame-based format. -/
def yuyvStream : StreamingInterface where
  bInterfaceNumber := 1
  bEndpointAddress := 0x81
  formatDescs := [{
    bDescriptorSubtype := vsFormatUncompressed, bFormatIndex := 1, bBitsPerPixel := 16
    guidFormat := fourccGuid 0x59 0x55 0x59 0x32
    frameDescs := [{
      bDescriptorSubtype := vsFrameUncompressed, bFrameIndex := 1, wWidth := 640, wHeight := 480
      dwMaxVideoFrameBufferSize := 614400 }] }, {
    bDescriptorSubtype := vsFormatFrameBased, bFormatIndex := 2
    guidFormat := fourccGuid 0x59 0x55 0x59 0x32
    frameDescs := [{
      bDescriptorSubtype := vsFrameFrameBased, bFrameIndex := 1
      wWidth := 1280, wHeight := 720 }] }]

theorem yuyvStream_wellFormed : yuyvStream.WellFormed := by
  refine List.forall_mem_cons.mpr ⟨⟨rfl, by decide, fun h => absurd h (by decide),
    fun _ => ⟨rfl, rfl⟩, List.forall_mem_singleton.mpr ?_⟩, List.forall_mem_singleton.mpr ⟨rfl,
    by decide, fun h => absurd h (by decide), fun h => absurd rfl h,
    List.forall_mem_singleton.mpr ?_⟩⟩
  · exact ⟨by decide, fun _ => rfl, fun h => absurd rfl h, fun h => absurd h (by decide),
      fun _ => rfl, fun _ _ hl => absurd hl nofun, fun _ _ _ _ hl => absurd hl nofun, fun _ => rfl⟩
  · exact ⟨by decide, fun _ => rfl, fun h => absurd rfl h, fun _ => rfl, fun h => absurd rfl h,
      fun h => absurd rfl h, fun h => absurd rfl h, fun h => absurd h (by decide)⟩

/-- A block for the first frame of a format, at most 3072 bytes in a packet. -/
def yuyvCtrl (bFormatIndex : UInt8) : StreamCtrl where
  bFormatIndex := bFormatIndex
  bFrameIndex := 1
  dwMaxVideoFrameSize := 614400
  dwMaxPayloadTransferSize := 3072

/-! ## The start -/

section Start

variable {sizeT : Nat} {scaled : UInt32 → Option Nat} {streamIf : StreamingInterface}
  {altsettings : List InterfaceDescriptor} {ctrl : StreamCtrl}

/-- A frame that can be started on the best altsetting. -/
structure Startable (scaled : UInt32 → Option Nat) (streamIf : StreamingInterface)
    (altsettings : List InterfaceDescriptor) (h : altsettings ≠ []) (ctrl : StreamCtrl)
    (format : FormatDesc) (frame : FrameDesc) : Prop where
  found : findFrameAndFormat streamIf ctrl.bFormatIndex ctrl.bFrameIndex = some (format, frame)
  known : frameFormatForGuid format.guidFormat ≠ .any
  config : configBytesPerPacket scaled ctrl.dwMaxPayloadTransferSize ≠ 0
  endpoint : altsettingBytes streamIf.bEndpointAddress
    (bestAltsetting (configBytesPerPacket scaled ctrl.dwMaxPayloadTransferSize)
      streamIf.bEndpointAddress altsettings h) ≠ 0
  size : maxVideoFrameSize ctrl frame ≠ 0

/-- A start can only be of the frame that was found. -/
theorem Startable.eq {h : altsettings ≠ []} {format format' : FormatDesc} {frame frame' : FrameDesc}
    (hstart : Startable scaled streamIf altsettings h ctrl format' frame')
    (hfound : findFrameAndFormat streamIf ctrl.bFormatIndex ctrl.bFrameIndex =
      some (format, frame)) : format = format' ∧ frame = frame' :=
  Prod.mk.inj (Option.some.inj (hfound.symm.trans hstart.found))

/-- Behind the checks before the loop, the endpoint and the size decide. -/
theorem startable_iff (h : altsettings ≠ []) {format : FormatDesc} {frame : FrameDesc}
    (hfound : findFrameAndFormat streamIf ctrl.bFormatIndex ctrl.bFrameIndex = some (format, frame))
    (hknown : frameFormatForGuid format.guidFormat ≠ .any)
    (hconfig : configBytesPerPacket scaled ctrl.dwMaxPayloadTransferSize ≠ 0) :
    altsettingBytes streamIf.bEndpointAddress (bestAltsetting
        (configBytesPerPacket scaled ctrl.dwMaxPayloadTransferSize) streamIf.bEndpointAddress
        altsettings h) ≠ 0 ∧ (maxVideoFrameSize ctrl frame).toNat ≠ 0 ↔
      Startable scaled streamIf altsettings h ctrl format frame := by
  constructor
  · rintro ⟨hendpoint, hsize⟩
    exact ⟨hfound, hknown, hconfig, hendpoint, fun hzero => hsize (congrArg _ hzero)⟩
  · intro hstart
    exact ⟨hstart.endpoint, fun hzero => hstart.size (UInt32.toNat_inj.mp hzero)⟩

theorem maxVideoFrameSize_le (ctrl : StreamCtrl) (frame : FrameDesc) :
    (maxVideoFrameSize ctrl frame).toNat ≤ ctrl.dwMaxVideoFrameSize.toNat := by
  unfold maxVideoFrameSize
  split_ifs with hle
  · exact Nat.le_refl _
  · rw [UInt32.le_iff_toNat_le] at hle
    omega

theorem maxVideoFrameSize_eq_zero (ctrl : StreamCtrl) {frame : FrameDesc}
    (h : frame.dwMaxVideoFrameBufferSize = 0) : (maxVideoFrameSize ctrl frame).toNat = 0 := by
  unfold maxVideoFrameSize
  rw [h]
  split_ifs with hle
  · rw [UInt32.le_iff_toNat_le] at hle
    exact Nat.le_zero.mp hle
  · rfl

/-- **When the choice succeeds, and what an isochronous stream is then set up with.** -/
theorem start_isochronous (scaled : UInt32 → Option Nat) (running : Bool)
    (streamIf : StreamingInterface) (ctrl : StreamCtrl) (h : altsettings ≠ [])
    (hroom : ctrl.dwMaxVideoFrameSize.toNat + 8188 ≤ sizeT) :
    ∃ result, startIsochronous sizeT scaled running streamIf altsettings ctrl = some result ∧
      ((∃ start, result = .ok start) ↔ running = false ∧
        ∃ format frame, Startable scaled streamIf altsettings h ctrl format frame) ∧
      ∀ start, result = .ok start → ∃ format frame,
        Startable scaled streamIf altsettings h ctrl format frame ∧
        start.Best (configBytesPerPacket scaled ctrl.dwMaxPayloadTransferSize)
          (maxVideoFrameSize ctrl frame).toNat streamIf.bEndpointAddress altsettings h := by
  unfold startIsochronous
  cases running with
  | true =>
    refine ⟨_, rfl, iff_of_false nofun ?_, nofun⟩
    rintro ⟨hidle, -⟩
    exact Bool.noConfusion hidle
  | false =>
    rw [if_neg Bool.false_ne_true]
    cases hfound : findFrameAndFormat streamIf ctrl.bFormatIndex ctrl.bFrameIndex with
    | none =>
      refine ⟨_, rfl, iff_of_false nofun ?_, nofun⟩
      rintro ⟨-, format, frame, hstart⟩
      exact absurd (hfound.symm.trans hstart.found) nofun
    | some p =>
      obtain ⟨format, frame⟩ := p
      dsimp only
      split_ifs with hknown hconfig
      · refine ⟨_, rfl, iff_of_false nofun ?_, nofun⟩
        rintro ⟨-, format', frame', hstart⟩
        obtain ⟨rfl, rfl⟩ := hstart.eq hfound
        exact hstart.known hknown
      · refine ⟨_, rfl, iff_of_false nofun ?_, nofun⟩
        rintro ⟨-, format', frame', hstart⟩
        exact hstart.config hconfig
      · have hle := maxVideoFrameSize_le ctrl frame
        obtain ⟨result, hrun, hiff, hbest⟩ := checkChoice_eq hconfig h
          (show (maxVideoFrameSize ctrl frame).toNat + 8188 ≤ sizeT by omega)
        have hstartable := startable_iff h hfound hknown hconfig
        refine ⟨result, hrun, ?_, fun start hstart => ?_⟩
        · rw [hiff, hstartable]
          constructor
          · exact fun hstart => ⟨rfl, format, frame, hstart⟩
          · rintro ⟨-, format', frame', hstart⟩
            obtain ⟨rfl, rfl⟩ := hstart.eq hfound
            exact hstart
        · exact ⟨format, frame, hstartable.mp (hiff.mp ⟨start, hstart⟩), hbest start hstart⟩

theorem start_isochronous_yuyv :
    ∃ start, startIsochronous (2 ^ 32) (fun _ => none) false yuyvStream
        (altsettingsOf 0x81) (yuyvCtrl 1) = some (.ok start) ∧
      start.altsetting.bAlternateSetting = 2 ∧ start.sizes = ⟨32, 98304⟩ := by
  obtain ⟨result, hrun, hiff, hbest⟩ := @start_isochronous (2 ^ 32) (altsettingsOf 0x81)
    (fun _ => none) false yuyvStream (yuyvCtrl 1) (List.cons_ne_nil _ _) (by decide)
  obtain ⟨start, rfl⟩ := hiff.mpr ⟨rfl, _, _, rfl, by decide, by decide, by decide, by decide⟩
  refine ⟨start, hrun, ?_⟩
  obtain ⟨format, frame, hstartable, hstart⟩ := hbest start rfl
  obtain ⟨rfl, rfl⟩ := Prod.mk.inj (Option.some.inj hstartable.found)
  have hbytes : start.bytes = 3072 := by
    rw [hstart.bytes, hstart.altsetting]
    decide
  have hpackets := hstart.sizes.packets
  have htotal : start.sizes.total = start.sizes.packets * 3072 :=
    hbytes ▸ hstart.sizes.total
  have hframe : 98304 ≤ start.sizes.total := by
    have hmin := hstart.sizes.frame
    rw [hbytes] at hmin
    exact hmin
  constructor
  · rw [hstart.altsetting]
    decide
  · cases hsizes : start.sizes with
    | mk packets total =>
      rw [hsizes] at hpackets htotal hframe
      dsimp only at hpackets htotal hframe
      rw [TransferSizes.mk.injEq]
      omega

/-- It is the search of `findFrameDescStreamIf`. -/
theorem map_findFrameAndFormat (streamIf : StreamingInterface) (formatId frameId : UInt8) :
    (findFrameAndFormat streamIf formatId frameId).map Prod.snd =
      findFrameDescStreamIf streamIf formatId frameId := by
  unfold findFrameAndFormat findFrameDescStreamIf
  rw [List.map_findSome?]
  refine congrArg (fun p => List.findSome? p streamIf.formatDescs) (funext fun format => ?_)
  dsimp only [Function.comp_apply]
  split_ifs
  · rw [Option.map_map]
    exact Option.map_id'
  · rfl

theorem mem_of_findFrameAndFormat {formatId frameId : UInt8} {format : FormatDesc}
    {frame : FrameDesc} (h : findFrameAndFormat streamIf formatId frameId = some (format, frame)) :
    format ∈ streamIf.formatDescs ∧ frame ∈ format.frameDescs := by
  obtain ⟨format', hformat, hframe⟩ := List.exists_of_findSome?_eq_some h
  split_ifs at hframe with hindex
  obtain ⟨frame', hfind, hpair⟩ := Option.map_eq_some_iff.mp hframe
  obtain ⟨rfl, rfl⟩ := Prod.mk.inj hpair
  exact ⟨hformat, List.mem_of_find?_eq_some hfind⟩

/-- **Frames of frame-based formats are not started**: a scan leaves them without a size. -/
theorem not_started_of_frameBased {format : FormatDesc} {frame : FrameDesc}
    (scaled : UInt32 → Option Nat) (running : Bool) (altsettings : List InterfaceDescriptor)
    (hwell : streamIf.WellFormed)
    (hfound : findFrameAndFormat streamIf ctrl.bFormatIndex ctrl.bFrameIndex = some (format, frame))
    (hkind : frame.bDescriptorSubtype = vsFrameFrameBased) (h : altsettings ≠ [])
    (hroom : 8188 ≤ sizeT) :
    ¬ ∃ start,
      startIsochronous sizeT scaled running streamIf altsettings ctrl = some (.ok start) := by
  obtain ⟨hformat, hframe⟩ := mem_of_findFrameAndFormat hfound
  have hbuffer : frame.dwMaxVideoFrameBufferSize = 0 :=
    ((hwell format hformat).frames frame hframe).frameBased hkind
  have hsize := maxVideoFrameSize_eq_zero ctrl hbuffer
  rintro ⟨start, hrun⟩
  unfold startIsochronous at hrun
  rw [hfound] at hrun
  dsimp only at hrun
  split_ifs at hrun with hrunning hknown hconfig
  · exact absurd (Option.some.inj hrun) nofun
  · exact absurd (Option.some.inj hrun) nofun
  · exact absurd (Option.some.inj hrun) nofun
  · obtain ⟨result, hcheck, hiff, -⟩ := checkChoice_eq hconfig h
      (show (maxVideoFrameSize ctrl frame).toNat + 8188 ≤ sizeT by omega)
    rw [hcheck] at hrun
    exact (hiff.mp ⟨start, Option.some.inj hrun⟩).2 hsize

/-- The frame is found and its GUID is known: it is the size that it does not have. -/
theorem not_started_of_frameBased_yuyv :
    (∃ format frame, findFrameAndFormat yuyvStream 2 1 = some (format, frame) ∧
        frameFormatForGuid format.guidFormat = .yuyv) ∧
      ¬ ∃ start, startIsochronous (2 ^ 32) (fun _ => none) false yuyvStream (altsettingsOf 0x81)
        (yuyvCtrl 2) = some (.ok start) :=
  ⟨⟨_, _, rfl, by decide⟩, not_started_of_frameBased (fun _ => none) false (altsettingsOf 0x81)
    yuyvStream_wellFormed rfl rfl (List.cons_ne_nil _ _) (by decide)⟩

end Start

end PetDev.Uvc
