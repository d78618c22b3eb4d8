import PetDev.Uvc.CameraFrames

/-!
# Isochronous transfers

In an isochronous transfer each packet has a payload, and `_uvc_process_payload_iso` handles
them in a loop of its own: it looks at the header the same way, but it copies the image data
without a look at the size of the buffer.  In a release build the assertions in front of
`memcpy` are gone.

* `iso_agrees`: on packets with a whole header, no error bit and the end of the frame together
  with data, the loop puts up the same frames as the path of bulk transfers, as long as that
  one finds that they fit.
* `iso_overruns`: a frame that does not fit is written past the buffer, which the path of bulk
  transfers never does.
-/

namespace PetDev.Uvc

/-! ## The source -/

structure IsoPacketDescriptor where
  status : Int
  actualLength : Nat

/-- What the loop uses of `libusb_transfer`; the packets have slots of one length. -/
structure IsoTransfer where
  buffer : List UInt8
  length : Nat
  isoPacketDesc : List IsoPacketDescriptor

/-- `libusb_get_iso_packet_buffer_simple`: the transfer's buffer from a slot on. -/
def IsoTransfer.packetBuffer (tr : IsoTransfer) (packet : Nat) : List UInt8 :=
  tr.buffer.drop (tr.length * packet)

/-- The packets of a transfer, each with the memory its pointer leads to. -/
def IsoTransfer.packets (tr : IsoTransfer) : List (IsoPacketDescriptor × List UInt8) :=
  tr.isoPacketDesc.zipIdx.map fun (pkt, packetId) => (pkt, tr.packetBuffer packetId)

/-- The time stamp at `offset`, when the header says that it has `needed` bytes. -/
def isoStamp (pktbuf : List UInt8) (offset needed headerLen : Nat) : Option UInt32 :=
  if needed ≤ headerLen then dwToInt pktbuf offset else some 0

def isoPts (s : StreamHandle) (pktbuf : List UInt8) (headerInfo : UInt8) (headerLen : Nat) :
    Emitting Held StreamHandle :=
  if headerInfo &&& streamPts ≠ 0 then
    (Emitting.ofOption (isoStamp pktbuf 2 6 headerLen)).andThen fun pts =>
    Emitting.return_ { s with pts := pts }
  else Emitting.return_ s

def isoScr (s : StreamHandle) (pktbuf : List UInt8) (headerInfo : UInt8) (headerLen : Nat) :
    Emitting Held StreamHandle :=
  if headerInfo &&& streamScr ≠ 0 then
    (Emitting.ofOption (isoStamp pktbuf 6 10 headerLen)).andThen fun lastScr =>
    Emitting.return_ { s with lastScr := lastScr }
  else Emitting.return_ s

/-- The frame bit and the times of the header. -/
def isoHeader (s : StreamHandle) (pktbuf : List UInt8) (headerInfo : UInt8) (headerLen : Nat) :
    Emitting Held StreamHandle :=
  (toggleFid s headerInfo).andThen fun s =>
  (isoPts s pktbuf headerInfo headerLen).andThen fun s =>
  isoScr s pktbuf headerInfo headerLen

/-- The end-of-frame bit; `b` is the second byte of the packet. -/
def isoEof (s : StreamHandle) (b : UInt8) : Emitting Held StreamHandle :=
  if b &&& streamEof ≠ 0 ∧ s.gotBytes ≠ 0 then publish s else Emitting.return_ s

/-- The image data of a packet. -/
def isoCopy (s : StreamHandle) (pktbuf : List UInt8) (headerLen actualLength : Nat) :
    Emitting Held StreamHandle :=
  if headerLen < actualLength then
    (Emitting.ofOption (readBlock pktbuf headerLen (actualLength - headerLen))).andThen fun data =>
    copyData s data
  else Emitting.return_ s

/-- What follows the header. -/
def isoStore (s : StreamHandle) (pktbuf : List UInt8) (headerLen actualLength : Nat) :
    Emitting Held StreamHandle :=
  if actualLength < headerLen then
    Emitting.return_ { s with bfhErr := s.bfhErr ||| streamErr }
  else
    (isoCopy s pktbuf headerLen actualLength).andThen fun s =>
    (Emitting.ofOption pktbuf[1]?).andThen fun b => isoEof s b

/-- One round of the loop of `_uvc_process_payload_iso`. -/
def isoPacket (s : StreamHandle) (pkt : IsoPacketDescriptor) (pktbuf : List UInt8) :
    Emitting Held StreamHandle :=
  if pkt.status ≠ 0 then Emitting.return_ { s with bfhErr := s.bfhErr ||| streamErr }
  else if pkt.actualLength = 0 then Emitting.return_ s
  else if s.isIsight = true ∧ (pkt.actualLength < 30 ∨
      (pktbuf.drop 2).take 12 ≠ isightTag ∧ (pktbuf.drop 3).take 12 ≠ isightTag) then
    isoStore s pktbuf 0 pkt.actualLength
  else
    (Emitting.ofOption pktbuf[0]?).andThen fun headerLen =>
    (Emitting.ofOption pktbuf[1]?).andThen fun headerInfo =>
    if headerInfo &&& streamErr ≠ 0 then Emitting.return_ s
    else
      (isoHeader s pktbuf headerInfo headerLen.toNat).andThen fun s =>
      -- There is no data behind an iSight header.
      if s.isIsight then Emitting.return_ s
      else isoStore s pktbuf headerLen.toNat pkt.actualLength

def isoPackets (s : StreamHandle) :
    List (IsoPacketDescriptor × List UInt8) → Emitting Held StreamHandle
  | [] => Emitting.return_ s
  | (pkt, pktbuf) :: packets =>
    (isoPacket s pkt pktbuf).andThen fun s => isoPackets s packets

/-- `_uvc_process_payload_iso`. -/
def processPayloadIso (s : StreamHandle) (transfer : IsoTransfer) : Emitting Held StreamHandle :=
  isoPackets s transfer.packets

/-- The transfers that complete one after the other. -/
def processTransfers (s : StreamHandle) : List IsoTransfer → Emitting Held StreamHandle
  | [] => Emitting.return_ s
  | transfer :: transfers =>
    (processPayloadIso s transfer).andThen fun s => processTransfers s transfers

/-! ## Packets that carry payloads -/

/-- A payload with a whole header and no error bit, which ends a frame only with data. -/
inductive Plain : List UInt8 → Prop
  | intro {headerLen headerInfo : UInt8} {rest : List UInt8} (hlow : 2 ≤ headerLen.toNat)
      (hle : headerLen.toNat ≤ rest.length + 2) (herr : headerInfo &&& streamErr = 0)
      (heof : headerInfo &&& streamEof ≠ 0 → headerLen.toNat < rest.length + 2) :
      Plain (headerLen :: headerInfo :: rest)

/-- The packet came in, with the payload in its slot. -/
structure Filled (pkt : IsoPacketDescriptor) (pktbuf payload : List UInt8) : Prop where
  status : pkt.status = 0
  length : pkt.actualLength = payload.length
  prefix_ : payload <+: pktbuf

/-- Packets that carry the payloads in order, with empty packets between them. -/
inductive Carry : List (IsoPacketDescriptor × List UInt8) → List (List UInt8) → Prop
  | nil : Carry [] []
  | empty {pkt : IsoPacketDescriptor} {pktbuf : List UInt8}
      {packets : List (IsoPacketDescriptor × List UInt8)} {payloads : List (List UInt8)}
      (hstatus : pkt.status = 0) (hlen : pkt.actualLength = 0) (h : Carry packets payloads) :
      Carry ((pkt, pktbuf) :: packets) payloads
  | full {pkt : IsoPacketDescriptor} {pktbuf payload : List UInt8}
      {packets : List (IsoPacketDescriptor × List UInt8)} {payloads : List (List UInt8)}
      (hfilled : Filled pkt pktbuf payload) (hplain : Plain payload)
      (h : Carry packets payloads) : Carry ((pkt, pktbuf) :: packets) (payload :: payloads)

theorem Filled.getElem? {pkt : IsoPacketDescriptor} {pktbuf payload : List UInt8}
    (h : Filled pkt pktbuf payload) {i : Nat} (hi : i < payload.length) :
    pktbuf[i]? = payload[i]? := by
  obtain ⟨rest, rfl⟩ := h.prefix_
  exact List.getElem?_append_left hi

theorem Filled.readBlock {pkt : IsoPacketDescriptor} {pktbuf payload : List UInt8}
    (h : Filled pkt pktbuf payload) {n : Nat} (hn : n ≤ payload.length) :
    readBlock pktbuf n (pkt.actualLength - n) = some (payload.drop n) := by
  obtain ⟨rest, rfl⟩ := h.prefix_
  rw [h.length, PetDev.readBlock, if_pos (by rw [List.length_append]; omega),
    List.drop_append_of_le_length hn, List.take_left' (List.length_drop ..)]

theorem packet_plain {headerLen headerInfo : UInt8} {rest : List UInt8}
    (hlow : 2 ≤ headerLen.toNat) (hle : headerLen.toNat ≤ rest.length + 2) :
    packet false (headerLen :: headerInfo :: rest) =
      .chunk (some (headerInfo &&& streamFid))
        ((headerLen :: headerInfo :: rest).drop headerLen.toNat)
        (headerInfo &&& streamEof ≠ 0) := by
  unfold packet
  dsimp only
  rw [if_neg (by simp [noIsightTag]), if_neg (by simp; omega), if_neg (by omega)]
  rfl

/-! ## The loop does what the packets say -/

theorem isoStamp_eq_some {pktbuf : List UInt8} {offset needed headerLen : Nat}
    (ho : offset + 4 = needed) (hlen : headerLen ≤ pktbuf.length) :
    ∃ v, isoStamp pktbuf offset needed headerLen = some v := by
  unfold isoStamp
  split_ifs with hn
  · exact dwToInt_eq_some (by omega)
  · exact ⟨0, rfl⟩

theorem isoPts_spec (s : StreamHandle) {pktbuf : List UInt8} {headerLen : Nat}
    (hlen : headerLen ≤ pktbuf.length) (headerInfo : UInt8) :
    ∃ t, isoPts s pktbuf headerInfo headerLen = Emitting.return_ t ∧ SameFrame s t := by
  obtain ⟨pts, hpts⟩ := isoStamp_eq_some (show 2 + 4 = 6 from rfl) hlen
  unfold isoPts
  split_ifs with h
  · exact ⟨{ s with pts := pts }, by rw [hpts]; rfl, ⟨rfl⟩⟩
  · exact ⟨s, rfl, ⟨rfl⟩⟩

theorem isoScr_spec (s : StreamHandle) {pktbuf : List UInt8} {headerLen : Nat}
    (hlen : headerLen ≤ pktbuf.length) (headerInfo : UInt8) :
    ∃ t, isoScr s pktbuf headerInfo headerLen = Emitting.return_ t ∧ SameFrame s t := by
  obtain ⟨scr, hscr⟩ := isoStamp_eq_some (show 6 + 4 = 10 from rfl) hlen
  unfold isoScr
  split_ifs with h
  · exact ⟨{ s with lastScr := scr }, by rw [hscr]; rfl, ⟨rfl⟩⟩
  · exact ⟨s, rfl, ⟨rfl⟩⟩

theorem return_andThen {α β : Type*} (a : α) (f : α → Emitting Held β) :
    (Emitting.return_ a).andThen f = f a := rfl

/-- The header changes the mark. -/
theorem isoHeader_steps {s : StreamHandle} (h : s.Buffers) {pktbuf : List UInt8} {headerLen : Nat}
    (hlen : headerLen ≤ pktbuf.length) (headerInfo : UInt8) :
    ∃ t, Steps s (isoHeader s pktbuf headerInfo headerLen) t
      (s.assembler.look (some (headerInfo &&& streamFid))) := by
  obtain ⟨t, ht⟩ := toggleFid_steps h headerInfo
  obtain ⟨t1, hpts, hs1⟩ := isoPts_spec t hlen headerInfo
  obtain ⟨t2, hscr, hs2⟩ := isoScr_spec t1 hlen headerInfo
  have hsame := hs1.trans hs2
  refine ⟨t2, ?_⟩
  have hret : Steps t ((isoPts t pktbuf headerInfo headerLen).andThen fun s =>
      isoScr s pktbuf headerInfo headerLen) t2 (t.assembler, []) := by
    rw [hpts, return_andThen, hscr]
    have hdata : t2.assembler = t.assembler := by rw [hsame.eq]; rfl
    exact hdata ▸ hsame.steps (Steps.return_ (hsame.buffers ht.buffers))
  have h' := ht.andThen (f := fun s => (isoPts s pktbuf headerInfo headerLen).andThen fun s =>
    isoScr s pktbuf headerInfo headerLen) hret
  rw [ht.assembler, List.append_nil] at h'
  exact h'

section Copy

variable {s : StreamHandle} {pkt : IsoPacketDescriptor} {pktbuf payload : List UInt8}
  {headerLen : Nat}

theorem isoCopy_eq (hfilled : Filled pkt pktbuf payload) (hlt : headerLen < payload.length) :
    isoCopy s pktbuf headerLen pkt.actualLength = copyData s (payload.drop headerLen) := by
  have hactual := hfilled.length
  unfold isoCopy
  rw [if_pos (by omega), hfilled.readBlock (Nat.le_of_lt hlt)]
  rfl

/-- Data that fits is copied behind the data there is. -/
theorem isoCopy_steps (h : s.Buffers) (hfilled : Filled pkt pktbuf payload)
    (hlen : headerLen ≤ payload.length)
    (hfit : s.gotBytes + (payload.drop headerLen).length ≤ s.sizeBuf) :
    ∃ t, Steps s (isoCopy s pktbuf headerLen pkt.actualLength) t
      ({ s.assembler with data := s.assembler.data ++ payload.drop headerLen }, []) := by
  by_cases hlt : headerLen < payload.length
  · rw [isoCopy_eq hfilled hlt]
    exact copyData_steps h hfit
  · have hactual := hfilled.length
    rw [List.drop_eq_nil_of_le (Nat.le_of_not_lt hlt), List.append_nil]
    unfold isoCopy
    rw [if_neg (by omega)]
    exact ⟨s, Steps.return_ h⟩

/-- Other data is copied past the end of the buffer. -/
theorem isoCopy_overruns (h : s.Buffers) (hfilled : Filled pkt pktbuf payload)
    (hbig : s.sizeBuf < s.gotBytes + (payload.drop headerLen).length) :
    (isoCopy s pktbuf headerLen pkt.actualLength).value = none := by
  have hgot := h.gotBytes
  have hlt : headerLen < payload.length := by
    rw [List.length_drop] at hbig
    omega
  have hmem : memcpy s.outbuf s.gotBytes (payload.drop headerLen) = none := by
    rw [memcpy_eq_none_iff, h.outbuf]
    exact hbig
  rw [isoCopy_eq hfilled hlt, copyData, hmem]
  rfl

end Copy

theorem StreamHandle.Buffers.length_data {s : StreamHandle} (h : s.Buffers) :
    s.assembler.data.length = s.gotBytes := by
  show (s.outbuf.take s.gotBytes).length = s.gotBytes
  rw [List.length_take, h.outbuf, Nat.min_eq_left h.gotBytes]

/-- The data that fits is stored as in the path of bulk transfers. -/
theorem isoStore_steps {s : StreamHandle} (h : s.Buffers) {pkt : IsoPacketDescriptor}
    {pktbuf payload : List UInt8} (hfilled : Filled pkt pktbuf payload) {headerLen : Nat}
    (hlen : headerLen ≤ payload.length) {b : UInt8} (hb : pktbuf[1]? = some b)
    (heof : b &&& streamEof ≠ 0 → headerLen < payload.length)
    (hsound : Assembler.Sound
      (s.assembler.finish s.sizeBuf (payload.drop headerLen) (b &&& streamEof ≠ 0))) :
    ∃ t, Steps s (isoStore s pktbuf headerLen pkt.actualLength) t
      (s.assembler.finish s.sizeBuf (payload.drop headerLen) (b &&& streamEof ≠ 0)) := by
  have hactual := hfilled.length
  have hdata := h.length_data
  have hgot := h.gotBytes
  have hfit : s.gotBytes + (payload.drop headerLen).length ≤ s.sizeBuf := by
    by_cases hd : payload.drop headerLen = []
    · rw [hd]
      exact hgot
    · have := Assembler.fits_of_sound hd hsound
      omega
  obtain ⟨t, ht⟩ := isoCopy_steps h hfilled hlen hfit
  unfold isoStore
  rw [if_neg (by omega), hb]
  show ∃ u, Steps s ((isoCopy s pktbuf headerLen pkt.actualLength).andThen fun s =>
    isoEof s b) u _
  unfold Assembler.finish
  by_cases hd : payload.drop headerLen = []
  · -- No data: then the packet does not end the frame either.
    have hle : payload.length ≤ headerLen := List.drop_eq_nil_iff.mp hd
    have hnoeof : ¬ (b &&& streamEof ≠ 0) := fun he => by
      have := heof he
      omega
    have hret : isoEof t b = Emitting.return_ t := if_neg fun hc => hnoeof hc.1
    rw [if_pos hd]
    rw [hd, List.append_nil] at ht
    have hlast := Steps.return_ ht.buffers
    rw [ht.assembler, ← hret] at hlast
    exact ⟨t, ht.andThen (f := fun s => isoEof s b) hlast⟩
  · have hadd : s.assembler.add s.sizeBuf (payload.drop headerLen) =
        { s.assembler with data := s.assembler.data ++ payload.drop headerLen } :=
      if_pos (Assembler.fits_of_sound hd hsound)
    have hne : t.gotBytes ≠ 0 := by
      refine (take_ne_nil_iff ht.buffers).mp ?_
      show t.assembler.data ≠ []
      rw [ht.assembler]
      simp [hd]
    rw [← hadd] at ht
    rw [if_neg hd]
    by_cases he : b &&& streamEof ≠ 0
    · have hpub := publish_steps ht.buffers
      have hret : isoEof t b = publish t := if_pos ⟨he, hne⟩
      rw [ht.assembler, ← hret] at hpub
      rw [decide_eq_true he, if_pos rfl]
      exact ⟨swapBuffers t, ht.andThen (f := fun s => isoEof s b) hpub⟩
    · have hlast := Steps.return_ ht.buffers
      have hret : isoEof t b = Emitting.return_ t := if_neg fun hc => he hc.1
      rw [ht.assembler, ← hret] at hlast
      rw [decide_eq_false he, if_neg Bool.false_ne_true]
      exact ⟨t, ht.andThen (f := fun s => isoEof s b) hlast⟩

/-- **A packet with a plain payload does what the payload does in a bulk transfer.** -/
theorem isoPacket_steps {s : StreamHandle} (h : s.Buffers) (hsight : s.isIsight = false)
    {pkt : IsoPacketDescriptor} {pktbuf payload : List UInt8} (hfilled : Filled pkt pktbuf payload)
    (hplain : Plain payload)
    (hsound : Assembler.Sound (s.assembler.step s.sizeBuf (packet false payload))) :
    ∃ t, Steps s (isoPacket s pkt pktbuf) t
      (s.assembler.step s.sizeBuf (packet false payload)) := by
  obtain @⟨headerLen, headerInfo, rest, hlow, hle, herr, heof⟩ := hplain
  have hlen := hfilled.length
  have h0 : pktbuf[0]? = some headerLen := hfilled.getElem? (by simp)
  have h1 : pktbuf[1]? = some headerInfo := hfilled.getElem? (by simp)
  have hbuf : headerLen.toNat ≤ pktbuf.length := by
    have := hfilled.prefix_.length_le
    simp only [List.length_cons] at this
    omega
  unfold isoPacket
  rw [if_neg (by simpa using hfilled.status), if_neg (by simp [hlen]), if_neg (by simp [hsight]),
    h0, h1]
  show ∃ t, Steps s (if headerInfo &&& streamErr ≠ 0 then Emitting.return_ s else
    (isoHeader s pktbuf headerInfo headerLen.toNat).andThen fun s =>
      if s.isIsight then Emitting.return_ s
      else isoStore s pktbuf headerLen.toNat pkt.actualLength) t _
  rw [if_neg (by simpa using herr)]
  rw [packet_plain hlow hle] at hsound ⊢
  obtain ⟨t, ht⟩ := isoHeader_steps h hbuf headerInfo
  have hstore : Assembler.Sound (t.assembler.finish t.sizeBuf
      ((headerLen :: headerInfo :: rest).drop headerLen.toNat)
      (headerInfo &&& streamEof ≠ 0)) := by
    rw [ht.assembler, ht.sizeBuf]
    exact ⟨hsound.1, fun f hf => hsound.2 f (List.mem_append_right _ hf)⟩
  obtain ⟨u, hu⟩ := isoStore_steps ht.buffers hfilled (by simpa using hle) h1
    heof hstore
  rw [ht.assembler, ht.sizeBuf] at hu
  have hif : (if t.isIsight then Emitting.return_ t
      else isoStore t pktbuf headerLen.toNat pkt.actualLength) =
      isoStore t pktbuf headerLen.toNat pkt.actualLength := if_neg (by simp [ht.isIsight, hsight])
  refine ⟨u, ?_⟩
  exact ht.andThen (f := fun s => if s.isIsight then Emitting.return_ s
    else isoStore s pktbuf headerLen.toNat pkt.actualLength) (by
      show Steps t (if t.isIsight then Emitting.return_ t
        else isoStore t pktbuf headerLen.toNat pkt.actualLength) u _
      rw [hif]
      exact hu)

theorem isoPackets_steps {s : StreamHandle} (h : s.Buffers) (hsight : s.isIsight = false)
    {packets : List (IsoPacketDescriptor × List UInt8)} {payloads : List (List UInt8)}
    (hc : Carry packets payloads)
    (hsound : Assembler.Sound (s.assembler.run s.sizeBuf (payloads.map (packet false)))) :
    ∃ t, Steps s (isoPackets s packets) t
      (s.assembler.run s.sizeBuf (payloads.map (packet false))) := by
  induction hc generalizing s with
  | nil => exact ⟨s, Steps.return_ h⟩
  | @empty pkt pktbuf packets payloads hstatus hlen _ ih =>
    obtain ⟨t, ht⟩ := ih h hsight hsound
    refine ⟨t, ?_⟩
    have hskip : isoPacket s pkt pktbuf = Emitting.return_ s := by
      unfold isoPacket
      rw [if_neg (by simpa using hstatus), if_pos hlen]
    rw [isoPackets, hskip]
    exact ht
  | @full pkt pktbuf payload packets payloads hfilled hplain _ ih =>
    rw [List.map_cons] at hsound ⊢
    obtain ⟨hstep, hrest⟩ := Assembler.sound_of_run_cons hsound
    obtain ⟨t, ht⟩ := isoPacket_steps h hsight hfilled hplain hstep
    rw [← ht.assembler, ← ht.sizeBuf] at hrest
    obtain ⟨u, hu⟩ := ih ht.buffers (ht.isIsight.trans hsight) hrest
    rw [ht.assembler, ht.sizeBuf] at hu
    refine ⟨u, ?_⟩
    rw [Assembler.run_cons]
    exact ht.andThen hu

theorem isoPackets_append (s : StreamHandle)
    (packets packets' : List (IsoPacketDescriptor × List UInt8)) :
    isoPackets s (packets ++ packets') =
      (isoPackets s packets).andThen fun s => isoPackets s packets' := by
  induction packets generalizing s with
  | nil => rfl
  | cons x packets ih =>
    obtain ⟨pkt, pktbuf⟩ := x
    rw [List.cons_append, isoPackets, isoPackets, Emitting.andThen_assoc]
    exact congrArg (isoPacket s pkt pktbuf).andThen (funext fun t => ih t)

theorem processTransfers_eq (s : StreamHandle) (transfers : List IsoTransfer) :
    processTransfers s transfers = isoPackets s (transfers.flatMap IsoTransfer.packets) := by
  induction transfers generalizing s with
  | nil => rfl
  | cons transfer transfers ih =>
    rw [List.flatMap_cons, isoPackets_append, processTransfers]
    exact congrArg (processPayloadIso s transfer).andThen (funext fun t => ih t)

/-- **Where everything fits, the loop agrees with the path of bulk transfers.** -/
theorem iso_agrees (outbuf holdbuf : Vector UInt8 xferBufSize) {transfers : List IsoTransfer}
    {payloads : List (List UInt8)} (hc : Carry (transfers.flatMap IsoTransfer.packets) payloads)
    {u : StreamHandle}
    (hu : (processPayloads (started false outbuf holdbuf) payloads).value = some u)
    (hok : u.bfhErr = 0 ∧
      ∀ h ∈ (processPayloads (started false outbuf holdbuf) payloads).emitted, h.bfhErr = 0) :
    ∃ t, (processTransfers (started false outbuf holdbuf) transfers).value = some t ∧
      t.assembler = u.assembler ∧
      (processTransfers (started false outbuf holdbuf) transfers).emitted.map Held.frame =
        (processPayloads (started false outbuf holdbuf) payloads).emitted.map Held.frame ∧
      Numbered 0 t.seq (processTransfers (started false outbuf holdbuf) transfers).emitted := by
  obtain ⟨u', hbulk⟩ := started_steps false outbuf holdbuf payloads
  obtain rfl : u = u' := Option.some.inj (hu.symm.trans hbulk.value)
  have hsound : Assembler.Sound
      (Assembler.run xferBufSize ⟨0, [], false⟩ (payloads.map (packet false))) := by
    refine ⟨?_, ?_⟩
    · rw [← hbulk.assembler]
      simp [StreamHandle.assembler, hok.1]
    · rw [← hbulk.emitted]
      intro f hf
      obtain ⟨h, hmem, rfl⟩ := List.mem_map.mp hf
      simp [Held.frame, hok.2 h hmem]
  obtain ⟨t, ht⟩ := isoPackets_steps (started_buffers false outbuf holdbuf) rfl hc hsound
  rw [processTransfers_eq]
  exact ⟨t, ht.value, ht.assembler.trans hbulk.assembler.symm,
    ht.emitted.trans hbulk.emitted.symm, ht.numbered⟩

/-- Two transfers: a frame with an empty packet in it, which the second transfer ends, and the
first packet of the next frame. -/
def twoTransfers : List IsoTransfer :=
  [⟨[2, 0x80, 7, 0, 0, 0], 3, [⟨0, 3⟩, ⟨0, 0⟩]⟩, ⟨[2, 0x82, 8, 2, 0x81, 9], 3, [⟨0, 3⟩, ⟨0, 3⟩]⟩]

def twoTransfersPayloads : List (List UInt8) := [[2, 0x80, 7], [2, 0x82, 8], [2, 0x81, 9]]

theorem twoTransfers_carry :
    Carry (twoTransfers.flatMap IsoTransfer.packets) twoTransfersPayloads := by
  refine Carry.full ⟨rfl, rfl, by decide⟩
    (Plain.intro (by decide) (by decide) (by decide) (by decide)) ?_
  refine Carry.empty rfl rfl ?_
  refine Carry.full ⟨rfl, rfl, by decide⟩
    (Plain.intro (by decide) (by decide) (by decide) (by decide)) ?_
  exact Carry.full ⟨rfl, rfl, by decide⟩
    (Plain.intro (by decide) (by decide) (by decide) (by decide)) Carry.nil

/-- What the two transfers hold as packets. -/
theorem twoTransfers_run :
    Assembler.run xferBufSize ⟨0, [], false⟩ (twoTransfersPayloads.map (packet false)) =
      (⟨1, [9], false⟩, [⟨[7, 8], false⟩]) :=
  rfl

theorem iso_agrees_twoTransfers :
    ∃ t, (processTransfers (started false (Vector.replicate _ 0) (Vector.replicate _ 0))
        twoTransfers).value = some t ∧
      t.assembler.data = [9] ∧
      (processTransfers (started false (Vector.replicate _ 0) (Vector.replicate _ 0))
        twoTransfers).emitted.map Held.frame = [⟨[7, 8], false⟩] := by
  obtain ⟨u, hu⟩ := started_steps false (Vector.replicate _ 0) (Vector.replicate _ 0)
    twoTransfersPayloads
  rw [twoTransfers_run] at hu
  have herr : u.bfhErr = 0 := by
    simpa [StreamHandle.assembler] using congrArg Assembler.spoiled hu.assembler
  have hemitted : ∀ h ∈ (processPayloads
      (started false (Vector.replicate _ 0) (Vector.replicate _ 0))
      twoTransfersPayloads).emitted, h.bfhErr = 0 := by
    intro h hmem
    have hframe : h.frame ∈ [(⟨[7, 8], false⟩ : Frame UInt8)] := by
      have hmap := List.mem_map_of_mem (f := Held.frame) hmem
      rwa [hu.emitted] at hmap
    simpa [Held.frame] using congrArg Frame.spoiled (List.mem_singleton.mp hframe)
  obtain ⟨t, ht, hdata, hframes, -⟩ := iso_agrees (Vector.replicate _ 0) (Vector.replicate _ 0)
    twoTransfers_carry hu.value ⟨herr, hemitted⟩
  exact ⟨t, ht, by rw [hdata, hu.assembler], hframes.trans hu.emitted⟩

/-! ## A frame that does not fit -/

/-- The second byte of a payload says that the frame goes on. -/
def GoesOn (payload : List UInt8) : Prop := ∀ b ∈ payload[1]?, b &&& streamEof = 0

/-- What a packet in the middle of a frame does: its data is behind the data there is. -/
structure Grows (s t : StreamHandle) (k : UInt8) (n : Nat) : Prop where
  buffers : t.Buffers
  isIsight : t.isIsight = s.isIsight
  sizeBuf : t.sizeBuf = s.sizeBuf
  fid : t.fid = k
  gotBytes : t.gotBytes = s.gotBytes + n

theorem Steps.grows {s t : StreamHandle} {x : Emitting Held StreamHandle} (hs : s.Buffers)
    {k : UInt8} {data : List UInt8} {spoiled : Bool}
    (h : Steps s x t (⟨k, s.assembler.data ++ data, spoiled⟩, [])) : Grows s t k data.length := by
  refine ⟨h.buffers, h.isIsight, h.sizeBuf, congrArg Assembler.mark h.assembler, ?_⟩
  rw [← h.buffers.length_data, h.assembler, List.length_append, hs.length_data]

/-- A packet in the middle of a frame: it fits, or it is written past the end of the buffer. -/
theorem isoPacket_goesOn {s : StreamHandle} (h : s.Buffers) (hsight : s.isIsight = false)
    {pkt : IsoPacketDescriptor} {pktbuf payload : List UInt8} (hfilled : Filled pkt pktbuf payload)
    (hplain : Plain payload) (hon : GoesOn payload) {k : UInt8}
    (hk : (packet false payload).mark = some k) (hs : s.gotBytes = 0 ∨ s.fid = k) :
    (s.gotBytes + (packet false payload).data.length ≤ s.sizeBuf ∧
      ∃ t, (isoPacket s pkt pktbuf).value = some t ∧
        Grows s t k (packet false payload).data.length) ∨
    (s.sizeBuf < s.gotBytes + (packet false payload).data.length ∧
      (isoPacket s pkt pktbuf).value = none) := by
  obtain @⟨headerLen, headerInfo, rest, hlow, hle, herr, -⟩ := hplain
  have hlen := hfilled.length
  have h0 : pktbuf[0]? = some headerLen := hfilled.getElem? (by simp)
  have h1 : pktbuf[1]? = some headerInfo := hfilled.getElem? (by simp)
  have hbuf : headerLen.toNat ≤ pktbuf.length := by
    have := hfilled.prefix_.length_le
    simp only [List.length_cons] at this
    omega
  have hnoeof : headerInfo &&& streamEof = 0 := hon headerInfo rfl
  have hpl : headerLen.toNat ≤ (headerLen :: headerInfo :: rest).length := by simpa using hle
  rw [packet_plain hlow hle] at hk ⊢
  obtain rfl : headerInfo &&& streamFid = k := Option.some.inj hk
  obtain ⟨t, ht⟩ := isoHeader_steps h hbuf headerInfo
  have hlook : s.assembler.look (some (headerInfo &&& streamFid)) =
      (⟨headerInfo &&& streamFid, s.assembler.data ++ [], s.assembler.spoiled⟩, []) := by
    rw [List.append_nil]
    refine if_neg ?_
    rintro ⟨hne, hdata⟩
    rcases hs with hs | hs
    · exact (take_ne_nil_iff h).mp hdata hs
    · exact hne hs
  rw [hlook] at ht
  have hgrow := ht.grows h
  have hvalue : (isoPacket s pkt pktbuf).value =
      (isoCopy t pktbuf headerLen.toNat pkt.actualLength).value := by
    have hrest : (fun s => (Emitting.ofOption (some headerInfo)).andThen fun b => isoEof s b) =
        Emitting.return_ := funext fun s => if_neg fun hc => hc.1 hnoeof
    unfold isoPacket
    rw [if_neg (by simpa using hfilled.status), if_neg (by simp [hlen]),
      if_neg (by simp [hsight]), h0, h1]
    show (if headerInfo &&& streamErr ≠ 0 then Emitting.return_ s else
      (isoHeader s pktbuf headerInfo headerLen.toNat).andThen fun s =>
        if s.isIsight then Emitting.return_ s
        else isoStore s pktbuf headerLen.toNat pkt.actualLength).value = _
    rw [if_neg (by simpa using herr), Emitting.andThen_of_some ht.value]
    show (if t.isIsight then Emitting.return_ t
      else isoStore t pktbuf headerLen.toNat pkt.actualLength).value = _
    rw [if_neg (by simp [ht.isIsight, hsight]), isoStore, if_neg (by omega), h1, hrest]
    exact Emitting.value_andThen_return _
  rw [hvalue]
  show (_ + ((headerLen :: headerInfo :: rest).drop headerLen.toNat).length ≤ _ ∧ _) ∨ _
  rcases Nat.lt_or_ge t.sizeBuf (t.gotBytes +
    ((headerLen :: headerInfo :: rest).drop headerLen.toNat).length) with hbig | hfit
  · refine Or.inr ⟨?_, isoCopy_overruns ht.buffers hfilled hbig⟩
    rw [hgrow.sizeBuf, hgrow.gotBytes] at hbig
    exact hbig
  · obtain ⟨u, hu⟩ := isoCopy_steps ht.buffers hfilled hpl hfit
    have hgrow' := hu.grows ht.buffers
    rw [hgrow.sizeBuf, hgrow.gotBytes] at hfit
    refine Or.inl ⟨hfit, u, hu.value, hgrow'.buffers, hgrow'.isIsight.trans hgrow.isIsight,
      hgrow'.sizeBuf.trans hgrow.sizeBuf, hgrow'.fid.trans hgrow.fid, ?_⟩
    rw [hgrow'.gotBytes, hgrow.gotBytes]
    rfl

theorem isoPackets_value_eq_none_iff {s : StreamHandle} (h : s.Buffers)
    (hsight : s.isIsight = false) {k : UInt8}
    {packets : List (IsoPacketDescriptor × List UInt8)} {payloads : List (List UInt8)}
    (hc : Carry packets payloads) (hon : ∀ p ∈ payloads, GoesOn p)
    (hk : ∀ p ∈ payloads, (packet false p).mark = some k) (hs : s.gotBytes = 0 ∨ s.fid = k) :
    (isoPackets s packets).value = none ↔
      s.sizeBuf < s.gotBytes + (carried (payloads.map (packet false))).length := by
  induction hc generalizing s with
  | nil =>
    have := h.gotBytes
    exact iff_of_false (by simp [isoPackets, Emitting.return_]) (by simp; omega)
  | @empty pkt pktbuf packets payloads hstatus hlen _ ih =>
    have hskip : isoPacket s pkt pktbuf = Emitting.return_ s := by
      unfold isoPacket
      rw [if_neg (by simpa using hstatus), if_pos hlen]
    rw [isoPackets, hskip]
    exact ih h hsight hon hk hs
  | @full pkt pktbuf payload packets payloads hfilled hplain _ ih =>
    have hone := isoPacket_goesOn h hsight hfilled hplain (hon _ List.mem_cons_self)
      (hk _ List.mem_cons_self) hs
    have hlen : (carried ((payload :: payloads).map (packet false))).length =
        (packet false payload).data.length +
          (carried (payloads.map (packet false))).length := by
      simp [carried]
    rw [hlen, isoPackets]
    rcases hone with ⟨-, t, hvalue, hgrow⟩ | ⟨hbig, hvalue⟩
    · rw [Emitting.andThen_of_some hvalue]
      have := ih hgrow.buffers (hgrow.isIsight.trans hsight)
        (fun p hp => hon p (List.mem_cons_of_mem _ hp))
        (fun p hp => hk p (List.mem_cons_of_mem _ hp)) (Or.inr hgrow.fid)
      rw [hgrow.sizeBuf, hgrow.gotBytes, Nat.add_assoc] at this
      exact this
    · rw [Emitting.andThen_of_none hvalue]
      exact iff_of_true rfl (by omega)

/-- **The loop writes past the buffer exactly when a frame is longer than the buffer**; the path
of bulk transfers never does. -/
theorem iso_overruns (outbuf holdbuf : Vector UInt8 xferBufSize) {transfers : List IsoTransfer}
    {payloads : List (List UInt8)} (hc : Carry (transfers.flatMap IsoTransfer.packets) payloads)
    (hon : ∀ p ∈ payloads, GoesOn p) {k : UInt8}
    (hk : ∀ p ∈ payloads, (packet false p).mark = some k) :
    ((processTransfers (started false outbuf holdbuf) transfers).value = none ↔
      xferBufSize < (carried (payloads.map (packet false))).length) ∧
    ∃ u, (processPayloads (started false outbuf holdbuf) payloads).value = some u := by
  obtain ⟨u, hu⟩ := started_steps false outbuf holdbuf payloads
  refine ⟨?_, u, hu.value⟩
  rw [processTransfers_eq]
  have h := isoPackets_value_eq_none_iff (started_buffers false outbuf holdbuf) rfl hc hon hk
    (Or.inl rfl)
  rwa [show (started false outbuf holdbuf).gotBytes = 0 from rfl, Nat.zero_add] at h

/-- A transfer of one packet, with one byte of image data. -/
def onePacket : IsoTransfer := ⟨[2, 0x80, 7], 3, [⟨0, 3⟩]⟩

theorem onePacket_carry {transfers : List IsoTransfer} {payloads : List (List UInt8)}
    (h : Carry (transfers.flatMap IsoTransfer.packets) payloads) :
    Carry ((onePacket :: transfers).flatMap IsoTransfer.packets) ([2, 0x80, 7] :: payloads) :=
  Carry.full ⟨rfl, rfl, List.prefix_refl _⟩
    (Plain.intro (by decide) (by decide) (by decide) (by decide)) h

theorem iso_overruns_manyPackets :
    (processTransfers (started false (Vector.replicate _ 0) (Vector.replicate _ 0))
      (List.replicate (xferBufSize + 1) onePacket)).value = none := by
  have hcarry : ∀ n, Carry ((List.replicate n onePacket).flatMap IsoTransfer.packets)
      (List.replicate n [2, 0x80, 7]) := by
    intro n
    induction n with
    | zero => exact Carry.nil
    | succ n ih => exact onePacket_carry ih
  have hmem : ∀ {p : List UInt8}, p ∈ List.replicate (xferBufSize + 1) [2, 0x80, 7] →
      p = [2, 0x80, 7] := fun hp => List.eq_of_mem_replicate hp
  refine (iso_overruns (Vector.replicate _ 0) (Vector.replicate _ 0) (hcarry (xferBufSize + 1))
    (fun p hp => ?_) (k := 0) (fun p hp => ?_)).1.mpr ?_
  · rw [hmem hp]
    intro b hb
    obtain rfl : 0x80 = b := Option.some.inj hb
    decide
  · rw [hmem hp]
    decide
  · have hlen : ∀ n, (carried ((List.replicate n [2, 0x80, 7]).map (packet false))).length = n := by
      intro n
      have hone : (packet false [2, 0x80, 7]).data = [7] := by decide
      rw [carried, List.map_replicate, List.length_flatMap]
      simp [hone]
    rw [hlen]
    exact Nat.lt_succ_self _

end PetDev.Uvc
