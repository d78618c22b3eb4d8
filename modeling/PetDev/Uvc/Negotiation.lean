import PetDev.Lib.Monitor
import PetDev.Uvc.Offers
import PetDev.Uvc.StreamCtrl

/-!
# The negotiation of a stream

`uvc_get_stream_ctrl_format_size_fps` tries the formats that match a request: it claims the
interface of the format, queries the camera twice, looks for a frame, and gives the interface back
when there is none.  The block it has found goes to the camera in `uvc_probe_stream_ctrl`.

The kernel and the camera answer as they like here.  `negotiation_held`: whatever they answer, a
transfer goes only to an interface that is held at that time.  `negotiation_sound`: a success has
sent an offer of the camera that meets the request.  `negotiation_first`: when the camera answers,
there is a success exactly when there is an offer, and it is the first one.
-/

namespace PetDev.Uvc

/-! ## The source -/

def usbMaxInterfaces : UInt8 := 32
def libusbErrorBusy : Int := -6

section Source

variable (usb : Usb) (info : DeviceInfo) (resetOnReleaseIf : Bool)

def UsbState.log (s : UsbState) (call : UsbCall) : UsbState := { s with calls := s.calls ++ [call] }

/-- `usbi_backend->claim_interface`, and the bit of `claimed_interfaces`. -/
def backendClaim (s : UsbState) (interface : UInt8) : UsbState × Int :=
  let ret := usb.claim s.calls interface
  ({ s with
      claimed := if ret = 0 then insert interface s.claimed else s.claimed
      calls := s.calls ++ [.claim interface ret] }, ret)

/-- `libusb_detach_kernel_driver`; what it returns is not looked at. -/
def detachKernelDriver (s : UsbState) (interface : UInt8) : UsbState :=
  if usb.attached s.calls then s.log (.detachKernelDriver interface) else s

/-- The second try of `libusb_claim_interface`. -/
def retryClaim (s : UsbState) (interface : UInt8) : UsbState × Int :=
  let ret := usb.release s.calls interface
  let s := detachKernelDriver usb (s.log (.release interface ret)) interface
  if ret = 0 then backendClaim usb s interface else (s, ret)

/-- `uvc_claim_if`: `libusb_claim_interface`. -/
def claimIf (s : UsbState) (interface : UInt8) : UsbState × Int :=
  if usbMaxInterfaces ≤ interface then (s, uvcErrorInvalidParam)
  else if usb.attached s.calls = false then (s, uvcErrorNoDevice)
  else if interface ∈ s.claimed then (s, uvcSuccess)
  else
    let tried := backendClaim usb s interface
    if tried.2 = libusbErrorBusy then retryClaim usb tried.1 interface else tried

/-- `libusb_set_interface_alt_setting`. -/
def setInterfaceAltSetting (s : UsbState) (interface altSetting : UInt8) : UsbState × Int :=
  if usbMaxInterfaces ≤ interface then (s, uvcErrorInvalidParam)
  else if usb.attached s.calls = false then (s, uvcErrorNoDevice)
  else if interface ∉ s.claimed then (s, uvcErrorNotFound)
  else
    let ret := usb.setAltSetting s.calls interface altSetting
    (s.log (.setAltSetting interface altSetting ret), ret)

/-- `libusb_release_interface`; nothing here looks at what it returns. -/
def releaseInterface (s : UsbState) (interface : UInt8) : UsbState :=
  if usbMaxInterfaces ≤ interface ∨ interface ∉ s.claimed then s
  else
    let ret := usb.release s.calls interface
    { s with
      claimed := if ret = 0 then s.claimed.erase interface else s.claimed
      calls := s.calls ++ [.release interface ret] }

/-- `uvc_release_if`. -/
def releaseIf (s : UsbState) (interface : UInt8) : UsbState :=
  releaseInterface usb
    (if resetOnReleaseIf then (setInterfaceAltSetting usb s interface 0).1 else s) interface

/-- `if (LIKELY(!result))`, with what is left otherwise. -/
def onSuccess (r : Option (UsbState × Int)) (next : UsbState → Option (UsbState × Int)) :
    Option (UsbState × Int) :=
  r.bind fun p => if p.2 = uvcSuccess then next p.1 else some p

/-- `_prepare_stream_ctrl`. -/
def prepareStreamCtrl (s : UsbState) : Option (UsbState × Int) :=
  onSuccess (queryStreamCtrl usb info s true .getCur) fun s =>
  onSuccess (queryStreamCtrl usb info s true .getMin) fun s =>
  queryStreamCtrl usb info s true .getMax

/-- The label `fail` of `_uvc_get_stream_ctrl_format`. -/
def failFormat (p : UsbState × Int) : UsbState × Int :=
  (releaseIf usb resetOnReleaseIf p.1 p.1.ctrl.bInterfaceNumber, p.2)

/-- The end of `_uvc_get_stream_ctrl_format`, after the search. -/
def takeFrame (s : UsbState) (format : FormatDesc) : Option (FrameDesc × UInt32) → UsbState × Int
  | some (frame, interval) =>
    ({ s with
        ctrl := { s.ctrl with
          bmHint := 1
          bFormatIndex := format.bFormatIndex
          bFrameIndex := frame.bFrameIndex
          dwFrameInterval := interval } }, uvcSuccess)
  | none => failFormat usb resetOnReleaseIf (s, uvcErrorInvalidMode)

/-- `_uvc_get_stream_ctrl_format`.  The result of the first `_prepare_stream_ctrl` is lost. -/
def getStreamCtrlFormat (r : Request) (s : UsbState) (streamIf : StreamingInterface)
    (format : FormatDesc) : Option (UsbState × Int) :=
  let s := { s with ctrl := { s.ctrl with bInterfaceNumber := streamIf.bInterfaceNumber } }
  let claimed := claimIf usb s s.ctrl.bInterfaceNumber
  if claimed.2 ≠ uvcSuccess then some (failFormat usb resetOnReleaseIf claimed)
  else
    (prepareStreamCtrl usb info claimed.1).bind fun once =>
    (prepareStreamCtrl usb info once.1).bind fun twice =>
    if twice.2 ≠ uvcSuccess then some (failFormat usb resetOnReleaseIf twice)
    else (findFrame r format).map (takeFrame usb resetOnReleaseIf twice.1 format)

/-- The two loops of `uvc_get_stream_ctrl_format_size_fps`, over the formats that match. -/
def tryFormats (r : Request) :
    List (StreamingInterface × FormatDesc) → UsbState → Option (UsbState × Int)
  | [], s => some (s, uvcErrorInvalidMode)
  | p :: ps, s =>
    (getStreamCtrlFormat usb info resetOnReleaseIf r s p.1 p.2).bind fun tried =>
      if tried.2 = uvcSuccess then some tried else tryFormats r ps tried.1

/-- `uvc_probe_stream_ctrl`. -/
def probeStreamCtrl (s : UsbState) : Option (UsbState × Int) :=
  let claimed := claimIf usb s s.ctrl.bInterfaceNumber
  if claimed.2 ≠ uvcSuccess then some claimed
  else
    onSuccess (queryStreamCtrl usb info claimed.1 true .setCur) fun s =>
    queryStreamCtrl usb info s true .getCur

/-- `uvc_get_stream_ctrl_format_size_fps`, from a block that is cleared. -/
def getStreamCtrlFormatSizeFps (r : Request) (s : UsbState) : Option (UsbState × Int) :=
  onSuccess
    (tryFormats usb info resetOnReleaseIf r (r.formats info.streamIfs) { s with ctrl := {} })
    (probeStreamCtrl usb info)

end Source

theorem invalidMode_ne_success : uvcErrorInvalidMode ≠ uvcSuccess := by decide

/-! ## What is held -/

/-- The interfaces that are held, as the calls tell; a transfer needs its interface. -/
def heldMonitor : Monitor (Finset UInt8) UsbCall where
  next held
    | .claim interface ret => if ret = 0 then insert interface held else held
    | .release interface ret => if ret = 0 then held.erase interface else held
    | .detachKernelDriver _ | .setAltSetting .. | .control .. => held
  allows held
    | .setAltSetting interface .. | .control _ _ interface .. => interface ∈ held
    | .claim .. | .release .. | .detachKernelDriver _ => True

/-- From `s` to `t`, all transfers go to interfaces that are held. -/
def UsbState.Keeps (s t : UsbState) : Prop :=
  heldMonitor.Keeps s.claimed s.calls t.claimed t.calls

section Held

variable {usb : Usb} {info : DeviceInfo} {resetOnReleaseIf : Bool} {s t u : UsbState}
  {interface : UInt8} {r : Request} {result : Int}

theorem UsbState.Keeps.refl : s.Keeps s := Monitor.Keeps.refl

theorem UsbState.Keeps.trans (h : s.Keeps t) (h' : t.Keeps u) : s.Keeps u :=
  Monitor.Keeps.trans h h'

/-- A call that leaves what is held. -/
theorem keeps_log {call : UsbCall} (hallows : heldMonitor.allows s.claimed call)
    (hnext : heldMonitor.next s.claimed call = s.claimed) : s.Keeps (s.log call) := by
  have hkeeps : heldMonitor.Keeps s.claimed s.calls (heldMonitor.next s.claimed call)
      (s.calls ++ [call]) := Monitor.Keeps.single hallows
  rw [hnext] at hkeeps
  exact hkeeps

/-- What came of a claim. -/
def Claims (s : UsbState) (interface : UInt8) (p : UsbState × Int) : Prop :=
  s.Keeps p.1 ∧ p.1.ctrl = s.ctrl ∧
    p.1.claimed = if p.2 = uvcSuccess then insert interface s.claimed else s.claimed

/-- The interface of the block is held after a claim that succeeds. -/
theorem Claims.held {p : UsbState × Int} (h : Claims s s.ctrl.bInterfaceNumber p)
    (hp : p.2 = uvcSuccess) : p.1.ctrl.bInterfaceNumber ∈ p.1.claimed := by
  obtain ⟨-, hctrl, hclaimed⟩ := h
  rw [hctrl, hclaimed, if_pos hp]
  exact Finset.mem_insert_self _ _

theorem claims_backendClaim (usb : Usb) (s : UsbState) (interface : UInt8) :
    Claims s interface (backendClaim usb s interface) :=
  ⟨Monitor.Keeps.single trivial, rfl, rfl⟩

theorem claims_self {result : Int} (h : result = uvcSuccess → interface ∈ s.claimed) :
    Claims s interface (s, result) := by
  refine ⟨UsbState.Keeps.refl, rfl, ?_⟩
  split_ifs with hresult
  · exact (Finset.insert_eq_of_mem (h hresult)).symm
  · rfl

theorem claims_of_log {p : UsbState × Int} (hkeeps : s.Keeps t) (hclaimed : t.claimed = s.claimed)
    (hctrl : t.ctrl = s.ctrl) (h : Claims t interface p) : Claims s interface p := by
  obtain ⟨hkeeps', hctrl', hclaimed'⟩ := h
  exact ⟨hkeeps.trans hkeeps', hctrl'.trans hctrl, by rw [hclaimed', hclaimed]⟩

theorem keeps_detachKernelDriver (usb : Usb) (s : UsbState) (interface : UInt8) :
    s.Keeps (detachKernelDriver usb s interface) ∧
      (detachKernelDriver usb s interface).claimed = s.claimed ∧
      (detachKernelDriver usb s interface).ctrl = s.ctrl := by
  unfold detachKernelDriver
  split_ifs
  · exact ⟨keeps_log trivial rfl, rfl, rfl⟩
  · exact ⟨UsbState.Keeps.refl, rfl, rfl⟩

theorem claims_retryClaim (h : interface ∉ s.claimed) :
    Claims s interface (retryClaim usb s interface) := by
  have hreleased : s.Keeps (s.log (.release interface (usb.release s.calls interface))) := by
    refine keeps_log trivial ?_
    show (if usb.release s.calls interface = 0 then s.claimed.erase interface else s.claimed) = _
    rw [Finset.erase_eq_of_notMem h, ite_self]
  obtain ⟨hdetached, hclaimed, hctrl⟩ := keeps_detachKernelDriver usb
    (s.log (.release interface (usb.release s.calls interface))) interface
  refine claims_of_log (hreleased.trans hdetached) hclaimed hctrl ?_
  unfold retryClaim
  dsimp only
  split_ifs with hret
  · exact claims_backendClaim _ _ _
  · exact claims_self fun h => absurd h hret

theorem claims_claimIf (usb : Usb) (s : UsbState) (interface : UInt8) :
    Claims s interface (claimIf usb s interface) := by
  unfold claimIf
  dsimp only
  split_ifs with hmax hattached hheld hbusy
  · exact claims_self nofun
  · exact claims_self nofun
  · exact claims_self fun _ => hheld
  · obtain ⟨hkeeps, hctrl, hclaimed⟩ := claims_backendClaim usb s interface
    have hsame : (backendClaim usb s interface).1.claimed = s.claimed := by
      rw [hclaimed, hbusy]
      rfl
    refine claims_of_log hkeeps hsame hctrl (claims_retryClaim ?_)
    rwa [hsame]
  · exact claims_backendClaim _ _ _

/-- What a release can do. -/
theorem keeps_releaseIf (s : UsbState) (interface : UInt8) :
    s.Keeps (releaseIf usb resetOnReleaseIf s interface) ∧
      (releaseIf usb resetOnReleaseIf s interface).ctrl = s.ctrl := by
  have halt : s.Keeps (setInterfaceAltSetting usb s interface 0).1 ∧
      (setInterfaceAltSetting usb s interface 0).1.ctrl = s.ctrl := by
    unfold setInterfaceAltSetting
    dsimp only
    split_ifs with hmax hattached hheld
    · exact ⟨UsbState.Keeps.refl, rfl⟩
    · exact ⟨UsbState.Keeps.refl, rfl⟩
    · exact ⟨keeps_log (show interface ∈ s.claimed from hheld) rfl, rfl⟩
    · exact ⟨UsbState.Keeps.refl, rfl⟩
  have hrelease (t : UsbState) : t.Keeps (releaseInterface usb t interface) ∧
      (releaseInterface usb t interface).ctrl = t.ctrl := by
    unfold releaseInterface
    split_ifs
    · exact ⟨UsbState.Keeps.refl, rfl⟩
    · exact ⟨Monitor.Keeps.single trivial, rfl⟩
  unfold releaseIf
  split_ifs
  · exact ⟨halt.1.trans (hrelease _).1, (hrelease _).2.trans halt.2⟩
  · exact hrelease s

/-- What queries do to an interface that is held. -/
structure Queries (s t : UsbState) : Prop where
  keeps : s.Keeps t
  claimed : t.claimed = s.claimed
  interface : t.ctrl.bInterfaceNumber = s.ctrl.bInterfaceNumber

theorem Queries.refl : Queries s s := ⟨UsbState.Keeps.refl, rfl, rfl⟩

theorem Queries.trans (h : Queries s t) (h' : Queries t u) : Queries s u :=
  ⟨h.keeps.trans h'.keeps, h'.claimed.trans h.claimed, h'.interface.trans h.interface⟩

theorem Queries.held (h : Queries s t) (hheld : s.ctrl.bInterfaceNumber ∈ s.claimed) :
    t.ctrl.bInterfaceNumber ∈ t.claimed := by
  rwa [h.claimed, h.interface]

theorem queries_queryStreamCtrl {probe : Bool} {req : ReqCode}
    (hheld : s.ctrl.bInterfaceNumber ∈ s.claimed)
    (h : queryStreamCtrl usb info s probe req = some (t, result)) : Queries s t := by
  obtain ⟨c, result', data, ret, hquery, hsame, -⟩ := queryStreamCtrl_eq_some usb info s probe req
  rw [hquery] at h
  obtain ⟨rfl, -⟩ := Prod.mk.inj (Option.some.inj h)
  exact ⟨Monitor.Keeps.single hheld, rfl, hsame⟩

theorem onSuccess_eq_some {first : Option (UsbState × Int)}
    {next : UsbState → Option (UsbState × Int)} :
    onSuccess first next = some (t, result) ↔
      (∃ s, first = some (s, uvcSuccess) ∧ next s = some (t, result)) ∨
        first = some (t, result) ∧ result ≠ uvcSuccess := by
  unfold onSuccess
  rw [Option.bind_eq_some_iff]
  constructor
  · rintro ⟨⟨s, ret⟩, hfirst, h⟩
    split_ifs at h with hret
    · subst hret
      exact .inl ⟨s, hfirst, h⟩
    · obtain ⟨rfl, rfl⟩ := Prod.mk.inj (Option.some.inj h)
      exact .inr ⟨hfirst, hret⟩
  · rintro (⟨s, hfirst, h⟩ | ⟨hfirst, hret⟩)
    · exact ⟨_, hfirst, (if_pos rfl).trans h⟩
    · exact ⟨_, hfirst, if_neg hret⟩

theorem queries_prepareStreamCtrl (hheld : s.ctrl.bInterfaceNumber ∈ s.claimed)
    (h : prepareStreamCtrl usb info s = some (t, result)) : Queries s t := by
  unfold prepareStreamCtrl at h
  rcases onSuccess_eq_some.mp h with ⟨cur, hcur, h⟩ | ⟨hcur, -⟩
  · have hcur' := queries_queryStreamCtrl hheld hcur
    rcases onSuccess_eq_some.mp h with ⟨low, hlow, hmax⟩ | ⟨hlow, -⟩
    · have hlow' := queries_queryStreamCtrl (hcur'.held hheld) hlow
      exact hcur'.trans (hlow'.trans
        (queries_queryStreamCtrl (hlow'.held (hcur'.held hheld)) hmax))
    · exact hcur'.trans (queries_queryStreamCtrl (hcur'.held hheld) hlow)
  · exact queries_queryStreamCtrl hheld hcur

/-- The block names a frame of the format, and an interval. -/
structure StreamCtrl.Names (ctrl : StreamCtrl) (o : Offer) : Prop where
  hint : ctrl.bmHint = 1
  format : ctrl.bFormatIndex = o.format.bFormatIndex
  frame : ctrl.bFrameIndex = o.frame.bFrameIndex
  interval : ctrl.dwFrameInterval = o.interval
  interface : ctrl.bInterfaceNumber = o.streamIf.bInterfaceNumber

/-- What an attempt can do: a success holds the interface and names the first offer. -/
theorem getStreamCtrlFormat_spec {streamIf : StreamingInterface} {format : FormatDesc}
    (h : getStreamCtrlFormat usb info resetOnReleaseIf r s streamIf format = some (t, result)) :
    s.Keeps t ∧ (result = uvcSuccess → streamIf.bInterfaceNumber ∈ t.claimed ∧
      ∃ o : Offer, (r.offersIn format).head? = some (o.frame, o.interval) ∧
        o.streamIf = streamIf ∧ o.format = format ∧ t.ctrl.Names o) := by
  unfold getStreamCtrlFormat at h
  dsimp only at h
  have hclaims := claims_claimIf usb
    { s with ctrl := { s.ctrl with bInterfaceNumber := streamIf.bInterfaceNumber } }
    streamIf.bInterfaceNumber
  generalize claimIf usb _ streamIf.bInterfaceNumber = claimed at h hclaims
  have hbegin : s.Keeps claimed.1 := hclaims.1
  have hfail (p : UsbState × Int) (hp : s.Keeps p.1) :
      s.Keeps (failFormat usb resetOnReleaseIf p).1 := hp.trans (keeps_releaseIf _ _).1
  split_ifs at h with hclaim
  · obtain ⟨rfl, rfl⟩ := Prod.mk.inj (Option.some.inj h)
    exact ⟨hfail _ hbegin, fun hresult => absurd hresult hclaim⟩
  · have hheld := hclaims.held (not_not.mp hclaim)
    obtain ⟨⟨once, ret⟩, honce, h⟩ := Option.bind_eq_some_iff.mp h
    obtain ⟨⟨twice, ret'⟩, htwice, h⟩ := Option.bind_eq_some_iff.mp h
    have honce' := queries_prepareStreamCtrl hheld honce
    have hqueries := honce'.trans (queries_prepareStreamCtrl (honce'.held hheld) htwice)
    have hinterface : twice.ctrl.bInterfaceNumber = streamIf.bInterfaceNumber := by
      rw [hqueries.interface, hclaims.2.1]
    have hend : s.Keeps twice := hbegin.trans hqueries.keeps
    dsimp only at h
    split_ifs at h with hret
    · obtain ⟨rfl, rfl⟩ := Prod.mk.inj (Option.some.inj h)
      exact ⟨hfail _ hend, fun hresult => absurd hresult hret⟩
    · obtain ⟨found, hfound, h⟩ := Option.map_eq_some_iff.mp h
      cases found with
      | none =>
        obtain ⟨rfl, rfl⟩ := Prod.mk.inj h
        exact ⟨hfail (twice, uvcErrorInvalidMode) hend, fun hresult =>
          absurd hresult invalidMode_ne_success⟩
      | some p =>
        obtain ⟨rfl, rfl⟩ := Prod.mk.inj h
        refine ⟨hend, fun _ => ⟨?_, ⟨streamIf, format, p.1, p.2⟩, (findFrame_eq_head? hfound).symm,
          rfl, rfl, ⟨rfl, rfl, rfl, rfl, hinterface⟩⟩⟩
        have htwice' := hqueries.held hheld
        rwa [hinterface] at htwice'

/-- The state after a success: an offer of the list is named, and its interface is held. -/
def Found (r : Request) (ps : List (StreamingInterface × FormatDesc)) (t : UsbState) (o : Offer) :
    Prop :=
  (o.streamIf, o.format) ∈ ps ∧ (o.frame, o.interval) ∈ r.offersIn o.format ∧
    o.streamIf.bInterfaceNumber ∈ t.claimed ∧ t.ctrl.Names o

theorem tryFormats_spec {ps : List (StreamingInterface × FormatDesc)}
    (h : tryFormats usb info resetOnReleaseIf r ps s = some (t, result)) :
    s.Keeps t ∧ (result = uvcSuccess → ∃ o, Found r ps t o) := by
  induction ps generalizing s with
  | nil =>
    obtain ⟨rfl, rfl⟩ := Prod.mk.inj (Option.some.inj h)
    exact ⟨UsbState.Keeps.refl, fun hresult => absurd hresult invalidMode_ne_success⟩
  | cons p ps ih =>
    obtain ⟨⟨u, ret⟩, htried, h⟩ := Option.bind_eq_some_iff.mp h
    obtain ⟨hkeeps, hsuccess⟩ := getStreamCtrlFormat_spec htried
    dsimp only at h
    split_ifs at h with hret
    · obtain ⟨rfl, rfl⟩ := Prod.mk.inj (Option.some.inj h)
      obtain ⟨hheld, o, hhead, hstreamIf, hformat, hnames⟩ := hsuccess hret
      refine ⟨hkeeps, fun _ => ⟨o, ?_, ?_, ?_, hnames⟩⟩
      · rw [hstreamIf, hformat]
        exact List.mem_cons_self
      · rw [hformat]
        exact List.mem_of_head? hhead
      · rwa [hstreamIf]
    · obtain ⟨hkeeps', hfound⟩ := ih h
      refine ⟨hkeeps.trans hkeeps', fun hresult => ?_⟩
      obtain ⟨o, hmem, hoffer⟩ := hfound hresult
      exact ⟨o, List.mem_cons_of_mem _ hmem, hoffer⟩

/-- The last two calls: the block is sent, and a block comes back. -/
def Sent (info : DeviceInfo) (block : StreamCtrl) (calls : List UsbCall) : Prop :=
  ∃ pre data ret ret', calls = pre ++
    [.control true .setCur block.bInterfaceNumber
      ((encodeCtrl block (ctrlLength info.bcdUVC)).take (ctrlLength info.bcdUVC)) ret,
      .control true .getCur block.bInterfaceNumber data ret'] ∧
    (ctrlLength info.bcdUVC : Int) ≤ ret ∧ (ctrlLength info.bcdUVC : Int) ≤ ret'

theorem probeStreamCtrl_spec (h : probeStreamCtrl usb info s = some (t, result)) :
    s.Keeps t ∧ (s.ctrl.bInterfaceNumber ∈ s.claimed → s.ctrl.bInterfaceNumber ∈ t.claimed) ∧
      (result = uvcSuccess → Sent info s.ctrl t.calls) := by
  unfold probeStreamCtrl at h
  dsimp only at h
  have hclaims := claims_claimIf usb s s.ctrl.bInterfaceNumber
  generalize claimIf usb s s.ctrl.bInterfaceNumber = claimed at h hclaims
  have hkeeps := hclaims.1
  have hctrl := hclaims.2.1
  split_ifs at h with hclaim
  · obtain rfl := Option.some.inj h
    refine ⟨hkeeps, fun hheld => ?_, fun hresult => absurd hresult hclaim⟩
    rw [hclaims.2.2, if_neg hclaim]
    exact hheld
  · have hheld := hclaims.held (not_not.mp hclaim)
    have hkept {u : UsbState} (hu : Queries claimed.1 u) :
        s.Keeps u ∧ s.ctrl.bInterfaceNumber ∈ u.claimed := by
      have hsame := hu.held hheld
      rw [hu.interface, hctrl] at hsame
      exact ⟨hkeeps.trans hu.keeps, hsame⟩
    rcases onSuccess_eq_some.mp h with ⟨set, hset, hget⟩ | ⟨hset, hresult⟩
    · have hset' := queries_queryStreamCtrl hheld hset
      have hboth := hkept (hset'.trans (queries_queryStreamCtrl (hset'.held hheld) hget))
      refine ⟨hboth.1, fun _ => hboth.2, fun hresult => ?_⟩
      obtain ⟨c, ret, data, n, hquery, -, -, hdata, hok, hsame⟩ :=
        queryStreamCtrl_eq_some usb info claimed.1 true .setCur
      obtain ⟨c', ret', data', n', hquery', -, -, -, hok', -⟩ :=
        queryStreamCtrl_eq_some usb info set true .getCur
      rw [hset] at hquery
      rw [hget] at hquery'
      obtain ⟨rfl, rfl⟩ := Prod.mk.inj (Option.some.inj hquery)
      obtain ⟨rfl, rfl⟩ := Prod.mk.inj (Option.some.inj hquery')
      have hc : c = s.ctrl := (hsame (.inr rfl)).trans hctrl
      refine ⟨claimed.1.calls, data', n, n', ?_, (hok.mp rfl).2, (hok'.mp hresult).2⟩
      rw [hdata rfl, hc, hctrl, List.append_assoc]
      rfl
    · have hboth := hkept (queries_queryStreamCtrl hheld hset)
      exact ⟨hboth.1, fun _ => hboth.2, fun hok => absurd hok hresult⟩

/-- Answers whatever it is asked, with as many bytes. -/
def answeringUsb : Usb where
  attached _ := true
  claim _ _ := 0
  release _ _ := 0
  setAltSetting _ _ _ := 0
  control _ _ _ _ data := (data.length, data)

def mjpegRequest : Request := ⟨.mjpeg, 640, 480, 15, 30⟩

/-- **Whatever the kernel and the camera answer, transfers go to interfaces that are held.** -/
theorem negotiation_held
    (h : getStreamCtrlFormatSizeFps usb info resetOnReleaseIf r s = some (t, result)) :
    ∃ calls, t.calls = s.calls ++ calls ∧ heldMonitor.Accepts s.claimed calls ∧
      t.claimed = heldMonitor.after s.claimed calls := by
  rcases onSuccess_eq_some.mp h with ⟨u, htried, hprobe⟩ | ⟨htried, -⟩
  · have hbegin : s.Keeps u := (tryFormats_spec htried).1
    exact hbegin.trans (probeStreamCtrl_spec hprobe).1
  · exact (tryFormats_spec htried).1

/-- The interface is given back when there is no frame of the size. -/
theorem negotiation_held_unsized :
    ∃ t calls, getStreamCtrlFormatSizeFps answeringUsb ⟨0x0100, [mjpegStream]⟩ true
        { mjpegRequest with width := 1280 } ⟨∅, {}, []⟩ = some (t, uvcErrorInvalidMode) ∧
      t.calls = calls ∧ calls.length = 9 ∧ heldMonitor.Accepts ∅ calls ∧ t.claimed = ∅ := by
  have hrun : (getStreamCtrlFormatSizeFps answeringUsb ⟨0x0100, [mjpegStream]⟩ true
      { mjpegRequest with width := 1280 } ⟨∅, {}, []⟩).map
        (fun p => (p.2, p.1.calls.length, p.1.claimed)) = some (uvcErrorInvalidMode, 9, ∅) := by
    decide
  obtain ⟨⟨t, result⟩, ht, hresult⟩ := Option.map_eq_some_iff.mp hrun
  obtain ⟨hmode, hrest⟩ := Prod.mk.inj hresult
  obtain ⟨hlength, hclaimed⟩ := Prod.mk.inj hrest
  obtain rfl : result = uvcErrorInvalidMode := hmode
  obtain ⟨calls, hcalls, haccepts, -⟩ := negotiation_held ht
  rw [List.nil_append] at hcalls
  exact ⟨t, calls, ht, hcalls, by rwa [← hcalls], haccepts, hclaimed⟩

/-- **A success has sent an offer that meets the request.** -/
theorem negotiation_sound
    (h : getStreamCtrlFormatSizeFps usb info resetOnReleaseIf r s = some (t, uvcSuccess)) :
    ∃ o ∈ r.offers info.streamIfs, ∃ block : StreamCtrl, block.Names o ∧
      Sent info block t.calls ∧ o.streamIf.bInterfaceNumber ∈ t.claimed := by
  rcases onSuccess_eq_some.mp h with ⟨u, htried, hprobe⟩ | ⟨-, hresult⟩
  · obtain ⟨o, hmem, hoffer, hheld, hnames⟩ := (tryFormats_spec htried).2 rfl
    obtain ⟨-, hkept, hsent⟩ := probeStreamCtrl_spec hprobe
    refine ⟨o, ?_, u.ctrl, hnames, hsent rfl, ?_⟩
    · exact List.mem_flatMap.mpr ⟨_, hmem, List.mem_map.mpr ⟨_, hoffer, rfl⟩⟩
    · rw [hnames.interface] at hkept
      exact hkept hheld
  · exact absurd rfl hresult

theorem negotiation_sound_mjpeg :
    ∃ t o block, getStreamCtrlFormatSizeFps answeringUsb ⟨0x0100, [mjpegStream]⟩ false mjpegRequest
        ⟨∅, {}, []⟩ = some (t, uvcSuccess) ∧ o ∈ mjpegRequest.offers [mjpegStream] ∧
      StreamCtrl.Names block o ∧ Sent ⟨0x0100, [mjpegStream]⟩ block t.calls := by
  have hrun : (getStreamCtrlFormatSizeFps answeringUsb ⟨0x0100, [mjpegStream]⟩ false mjpegRequest
      ⟨∅, {}, []⟩).map Prod.snd = some uvcSuccess := by
    decide
  obtain ⟨⟨t, result⟩, ht, rfl⟩ := Option.map_eq_some_iff.mp hrun
  obtain ⟨o, ho, block, hnames, hsent, -⟩ := negotiation_sound ht
  exact ⟨t, o, block, ht, ho, hnames, hsent⟩

end Held

/-! ## A camera that answers -/

/-- The kernel gives what is asked for, and the camera takes and sends whole blocks. -/
structure Usb.Works (usb : Usb) : Prop where
  attached : ∀ calls, usb.attached calls = true
  claim : ∀ calls interface, usb.claim calls interface = 0
  control : ∀ calls probe req interface data,
    (usb.control calls probe req interface data).1 = data.length

section Works

variable {usb : Usb} {interface : UInt8} {r : Request}

theorem claimIf_works (s : UsbState) (hw : usb.Works) (h : interface < usbMaxInterfaces) :
    (claimIf usb s interface).2 = uvcSuccess := by
  have hclaim : (backendClaim usb s interface).2 = uvcSuccess := hw.claim _ _
  unfold claimIf
  dsimp only
  rw [if_neg (UInt8.not_le.mpr h), if_neg (by rw [hw.attached]; decide)]
  split_ifs with hheld hbusy
  · rfl
  · rw [hclaim] at hbusy
    exact absurd hbusy (by decide)
  · exact hclaim

theorem queryStreamCtrl_works (info : DeviceInfo) (hw : usb.Works) (s : UsbState) (probe : Bool)
    (req : ReqCode) :
    ∃ t, queryStreamCtrl usb info s probe req = some (t, uvcSuccess) := by
  obtain ⟨c, result, data, ret, hquery, -, ⟨hlength, hret⟩, -, hok, -⟩ :=
    queryStreamCtrl_eq_some usb info s probe req
  have hle := le_ctrlLength info.bcdUVC
  rw [hw.control, hlength] at hret
  obtain rfl := hok.mpr (by omega)
  exact ⟨_, hquery⟩

theorem prepareStreamCtrl_works (info : DeviceInfo) (hw : usb.Works) (s : UsbState) :
    ∃ t, prepareStreamCtrl usb info s = some (t, uvcSuccess) := by
  obtain ⟨cur, hcur⟩ := queryStreamCtrl_works info hw s true .getCur
  obtain ⟨low, hlow⟩ := queryStreamCtrl_works info hw cur true .getMin
  obtain ⟨t, hmax⟩ := queryStreamCtrl_works info hw low true .getMax
  refine ⟨t, onSuccess_eq_some.mpr (.inl ⟨cur, hcur, ?_⟩)⟩
  exact onSuccess_eq_some.mpr (.inl ⟨low, hlow, hmax⟩)

theorem getStreamCtrlFormat_works (info : DeviceInfo) (resetOnReleaseIf : Bool) (s : UsbState)
    {streamIf : StreamingInterface} {format : FormatDesc} (hw : usb.Works)
    (h : streamIf.bInterfaceNumber < usbMaxInterfaces)
    (hfind : ∃ found, findFrame r format = some found) :
    ∃ t result, getStreamCtrlFormat usb info resetOnReleaseIf r s streamIf format =
        some (t, result) ∧ (result = uvcSuccess ↔ r.offersIn format ≠ []) := by
  obtain ⟨found, hfound⟩ := hfind
  have hhead := findFrame_eq_head? hfound
  unfold getStreamCtrlFormat
  dsimp only
  generalize hclaimed : claimIf usb _ streamIf.bInterfaceNumber = claimed
  have hsuccess : claimed.2 = uvcSuccess := by
    rw [← hclaimed]
    exact claimIf_works _ hw h
  obtain ⟨once, honce⟩ := prepareStreamCtrl_works info hw claimed.1
  obtain ⟨twice, htwice⟩ := prepareStreamCtrl_works info hw once
  rw [if_neg (not_not.mpr hsuccess), honce, Option.bind_some, htwice, Option.bind_some,
    if_neg (not_not.mpr rfl), hfound]
  cases found with
  | none =>
    refine ⟨_, _, rfl, iff_of_false invalidMode_ne_success (not_not.mpr ?_)⟩
    exact List.head?_eq_none_iff.mp hhead.symm
  | some p =>
    refine ⟨_, _, rfl, iff_of_true rfl fun hnil => ?_⟩
    rw [hnil] at hhead
    exact absurd hhead nofun

theorem tryFormats_works (info : DeviceInfo) (resetOnReleaseIf : Bool)
    {ps : List (StreamingInterface × FormatDesc)} (hw : usb.Works)
    (h : ∀ p ∈ ps, p.1.bInterfaceNumber < usbMaxInterfaces ∧
      ∃ found, findFrame r p.2 = some found) (s : UsbState) :
    ∃ t result, tryFormats usb info resetOnReleaseIf r ps s = some (t, result) ∧
      (result = uvcSuccess ↔ ps.flatMap r.offersOf ≠ []) ∧
      ∀ o, (ps.flatMap r.offersOf).head? = some o → t.ctrl.Names o := by
  induction ps generalizing s with
  | nil =>
    exact ⟨s, _, rfl, iff_of_false invalidMode_ne_success (not_not.mpr rfl), nofun⟩
  | cons p ps ih =>
    obtain ⟨hinterface, hfind⟩ := h p List.mem_cons_self
    obtain ⟨t, result, htried, hresult⟩ :=
      getStreamCtrlFormat_works info resetOnReleaseIf s hw hinterface hfind
    have hoffers : r.offersOf p = [] ↔ r.offersIn p.2 = [] := List.map_eq_nil_iff
    unfold tryFormats
    rw [htried, Option.bind_some]
    by_cases hsuccess : result = uvcSuccess
    · subst hsuccess
      rw [if_pos rfl]
      obtain ⟨-, hnamed⟩ := getStreamCtrlFormat_spec htried
      obtain ⟨-, o, hhead, hstreamIf, hformat, hnames⟩ := hnamed rfl
      have hfirst : (r.offersOf p).head? = some o := by
        unfold Request.offersOf
        rw [List.head?_map, hhead, Option.map_some, ← hstreamIf, ← hformat]
      have hall : ((p :: ps).flatMap r.offersOf).head? = some o := by
        rw [List.flatMap_cons, List.head?_append, hfirst, Option.some_or]
      refine ⟨t, _, rfl, iff_of_true rfl fun hnil => ?_, fun o' ho' => ?_⟩
      · rw [hnil] at hall
        exact absurd hall nofun
      · obtain rfl := Option.some.inj (hall.symm.trans ho')
        exact hnames
    · have hnone : r.offersOf p = [] := hoffers.mpr (not_not.mp fun h => hsuccess (hresult.mpr h))
      rw [if_neg hsuccess, List.flatMap_cons, hnone, List.nil_append]
      exact ih (fun p hp => h p (List.mem_cons_of_mem _ hp)) t

theorem probeStreamCtrl_works (info : DeviceInfo) (hw : usb.Works) {s : UsbState}
    (h : s.ctrl.bInterfaceNumber < usbMaxInterfaces) :
    ∃ t, probeStreamCtrl usb info s = some (t, uvcSuccess) := by
  unfold probeStreamCtrl
  dsimp only
  rw [if_neg (not_not.mpr (claimIf_works _ hw h))]
  obtain ⟨set, hset⟩ := queryStreamCtrl_works info hw _ true .setCur
  obtain ⟨t, hget⟩ := queryStreamCtrl_works info hw set true .getCur
  exact ⟨t, onSuccess_eq_some.mpr (.inl ⟨set, hset, hget⟩)⟩

/-- **A camera that answers is asked for its first offer, if it has one.** -/
theorem negotiation_first (usb : Usb) (info : DeviceInfo) (resetOnReleaseIf : Bool) (r : Request)
    (hw : usb.Works)
    (hinterface : ∀ streamIf ∈ info.streamIfs, streamIf.bInterfaceNumber < usbMaxInterfaces)
    (hwell : ∀ streamIf ∈ info.streamIfs, streamIf.WellFormed)
    (hleast : r.minFps ≠ Int32.minValue)
    (hstep : ∀ streamIf ∈ info.streamIfs, ∀ format ∈ streamIf.formatDescs,
      ∀ frame ∈ format.frameDescs, frame.intervals = none → ∀ fps ∈ r.rates, ¬ frame.Faults fps)
    (s : UsbState) :
    ∃ t result, getStreamCtrlFormatSizeFps usb info resetOnReleaseIf r s = some (t, result) ∧
      (result = uvcSuccess ↔ r.offers info.streamIfs ≠ []) ∧
      ∀ o, (r.offers info.streamIfs).head? = some o →
        ∃ block : StreamCtrl, block.Names o ∧ Sent info block t.calls := by
  have hformats : ∀ p ∈ r.formats info.streamIfs, p.1.bInterfaceNumber < usbMaxInterfaces ∧
      ∃ found, findFrame r p.2 = some found := by
    intro p hp
    obtain ⟨hstreamIf, hformat, -⟩ := mem_formats.mp hp
    exact ⟨hinterface p.1 hstreamIf, exists_findFrame hleast
      ((hwell p.1 hstreamIf p.2 hformat).searchable (hstep p.1 hstreamIf p.2 hformat))⟩
  obtain ⟨u, tried, htried, hresult, hnames⟩ := tryFormats_works info resetOnReleaseIf hw hformats
    { s with ctrl := {} }
  by_cases hsuccess : tried = uvcSuccess
  · subst hsuccess
    obtain ⟨o, hmem, -, -, hnamed⟩ := (tryFormats_spec htried).2 rfl
    have hmax : u.ctrl.bInterfaceNumber < usbMaxInterfaces := by
      rw [hnamed.interface]
      exact (hformats _ hmem).1
    obtain ⟨t, hprobe⟩ := probeStreamCtrl_works info hw hmax
    exact ⟨t, _, onSuccess_eq_some.mpr (.inl ⟨u, htried, hprobe⟩), hresult, fun o ho =>
      ⟨u.ctrl, hnames o ho, (probeStreamCtrl_spec hprobe).2.2 rfl⟩⟩
  · refine ⟨u, tried, onSuccess_eq_some.mpr (.inr ⟨htried, hsuccess⟩), hresult, fun o ho => ?_⟩
    have hnil : r.offers info.streamIfs = [] := not_not.mp fun h => hsuccess (hresult.mpr h)
    rw [hnil] at ho
    exact absurd ho nofun

theorem negotiation_first_mjpeg :
    ∃ t, getStreamCtrlFormatSizeFps answeringUsb ⟨0x0100, [mjpegStream]⟩ false mjpegRequest
      ⟨∅, {}, []⟩ = some (t, uvcSuccess) := by
  have hoffers : mjpegRequest.offers [mjpegStream] ≠ [] :=
    List.ne_nil_of_length_pos (by decide)
  obtain ⟨t, result, hrun, hresult, -⟩ := negotiation_first answeringUsb ⟨0x0100, [mjpegStream]⟩
    false mjpegRequest ⟨fun _ => rfl, fun _ _ => rfl, fun _ _ _ _ _ => rfl⟩
    (List.forall_mem_singleton.mpr (by decide))
    (List.forall_mem_singleton.mpr mjpegStream_wellFormed) (by decide)
    (List.forall_mem_singleton.mpr (List.forall_mem_singleton.mpr
      (List.forall_mem_singleton.mpr nofun))) ⟨∅, {}, []⟩
  obtain rfl := hresult.mpr hoffers
  exact ⟨t, hrun⟩

end Works

end PetDev.Uvc
