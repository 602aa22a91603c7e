import NfcStack.Lib.Run
import NfcStack.Lib.Frames
import NfcStack.Nfc.ControlBlock

/- The data receive path (`nfc_ncif.cc`: `nfc_ncif_proc_data`, `nfc_data_event`).
   A packet with PBF = 1 waits in `rx_q` and the following ones are appended to
   its buffer; a buffer that is too small is exchanged for one of the biggest
   pool, or reported as it is (`NFC_RAS_TOO_BIG`).

   What is proved:
     1. `recvInv_packet`: one packet keeps what has been reported and what is
        held back in step with what was received (`RecvInv`), if the packet is
        `RxClean`.
     2. `reassembly_lossless`: the same over every sequence of packets.
     3. `reassembly_last_packet_stuck`: without the condition it fails. The last
        packet of a message that no longer fits is enqueued after
        `nfc_data_event` has run, and a part reported early on a T1T, T2T, T3T or
        T5T connection loses its last byte as a status.

   `maxBufSize` is the size of the biggest pool's buffers and `getpoolbuf n` says
   whether its n-th allocation succeeds. `none` is a write outside a buffer. -/
namespace NfcStack.Nfc
open NfcStack.Lib

/-! ## The code -/

def nfcHdrSize : Nat := 8
def nfcRasTooBig : Nat := 0x08
def nfcRasFragmented : Nat := 0x01
def nfcStatusContinue : UInt8 := 0xE5
def nciProtocolT1t : UInt8 := 0x01
def nciProtocolT2t : UInt8 := 0x02
def nciProtocolT3t : UInt8 := 0x03
def nciProtocolT5t : UInt8 := 0x06
def nciInterfaceFrame : UInt8 := 1
def nciVersion20 : UInt8 := 0x20
def t2tStatusOk1Bit : UInt8 := 0x11
def t2tStatusOk7Bit : UInt8 := 0x17

def NfcHdr.fragmented (p : NfcHdr) : Bool := p.layerSpecific &&& nfcRasFragmented ≠ 0
def NfcHdr.tooBig (p : NfcHdr) : Bool := p.layerSpecific &&& nfcRasTooBig ≠ 0

structure DataCevt where
  status : UInt8
  layerSpecific : Nat
  data : Bytes
  deriving DecidableEq, Repr

inductive ConnEvent where
  | dataStart
  | data (evt : DataCevt)
  deriving DecidableEq, Repr

/-- The status byte behind the payload, and the payload without it. -/
def stripStatus (p : NfcHdr) : UInt8 × NfcHdr :=
  (p.data.getD (p.offset + (p.len - 1)) 0, { p with len := p.len - 1 })

/-- T2T frames report the number of valid bits of the last byte. -/
def t2tStatus (nciVersion : UInt8) (cb : ConnCb) (status : UInt8) : UInt8 :=
  if nciVersion20 ≤ nciVersion ∧ cb.actProtocol = nciProtocolT2t ∧
      cb.actInterface = nciInterfaceFrame ∧ status ≠ nfcStatusOk ∧
      t2tStatusOk1Bit ≤ status ∧ status ≤ t2tStatusOk7Bit then nfcStatusOk
  else status

/-- The event `nfc_data_event` reports for a buffer of `rx_q`. -/
def dataCevt (nciVersion : UInt8) (cb : ConnCb) (pEvt : NfcHdr) : DataCevt :=
  let p := { pEvt with offset := pEvt.offset + nciMsgHdrSize, len := pEvt.len - nciMsgHdrSize }
  let status := if p.layerSpecific ≠ 0 then nfcStatusContinue else nfcStatusOk
  if cb.connId = nfcRfConnId ∧ p.layerSpecific ≠ nfcRasFragmented ∧ p.len ≠ 0 then
    if nciProtocolT1t ≤ cb.actProtocol ∧ cb.actProtocol ≤ nciProtocolT3t then
      let (status, p) := stripStatus p
      ⟨t2tStatus nciVersion cb status, p.layerSpecific, p.bytes⟩
    else if nciVersion20 ≤ nciVersion ∧ cb.actProtocol = nciProtocolT5t then
      let (status, p) := stripStatus p
      ⟨status, p.layerSpecific, p.bytes⟩
    else ⟨status, p.layerSpecific, p.bytes⟩
  else ⟨status, p.layerSpecific, p.bytes⟩

/-- The loop of `nfc_data_event`: `nfc_cb.reassembly`, what stays in the queue,
and the events. -/
def dataEventLoop (nciVersion : UInt8) (cb : ConnCb) :
    Bool → List NfcHdr → Bool × List NfcHdr × List ConnEvent
  | reassembly, [] => (reassembly, [], [])
  | reassembly, pEvt :: rest =>
    if pEvt.fragmented ∧ ¬ pEvt.tooBig ∧ (cb.connId ≠ nfcRfConnId ∨ reassembly) then
      (reassembly, pEvt :: rest, [])
    else
      let r := dataEventLoop nciVersion cb (if pEvt.layerSpecific = 0 then true else reassembly) rest
      (r.1, r.2.1, .data (dataCevt nciVersion cb pEvt) :: r.2.2)

/-- What a packet works on: its connection, `nfc_cb.reassembly`, the allocations
so far and the events. -/
structure Rx where
  cb : ConnCb
  reassembly : Bool
  allocs : Nat
  events : List ConnEvent

def Rx.setQueue (s : Rx) (allocs : Nat) (rxQ : List NfcHdr) : Rx :=
  { s with cb := { s.cb with rxQ := rxQ }, allocs := allocs }

def Rx.enqueue (s : Rx) (pMsg : NfcHdr) : Rx :=
  { s with cb := { s.cb with rxQ := s.cb.rxQ ++ [pMsg] } }

def nfcDataEvent (nciVersion : UInt8) (s : Rx) : Rx :=
  if s.cb.pCback.isSome then
    let r := dataEventLoop nciVersion s.cb s.reassembly s.cb.rxQ
    { s with
      cb := { s.cb with rxQ := r.2.1 }
      reassembly := r.1
      events := s.events ++ r.2.2 }
  else s

section Receive
variable (nciVersion : UInt8) (maxBufSize : UInt16) (getpoolbuf : Nat → Bool)

/-- The content of `p_last` in a buffer of the biggest pool. -/
def moveToMax (pLast : NfcHdr) : Option NfcHdr :=
  if pLast.offset + pLast.len ≤ maxBufSize.toNat - nfcHdrSize then
    some { pLast with
      data := blit (List.replicate (maxBufSize.toNat - nfcHdrSize) 0) pLast.offset
        (slice pLast.data pLast.offset pLast.len) }
  else none

/-- `GKI_get_buf_size`: what follows the header, and the header. -/
def gkiGetBufSize (p : NfcHdr) : Nat := nfcHdrSize + p.data.length

/-- `p_last` with room for `len` more bytes, or marked too big. -/
def makeRoom (allocs : Nat) (pLast : NfcHdr) (len : Nat) : Option (NfcHdr × Nat) :=
  let size := gkiGetBufSize pLast
  if size < nfcHdrSize + pLast.len + pLast.offset + len then
    if size ≠ maxBufSize.toNat then
      if getpoolbuf allocs then (moveToMax maxBufSize pLast).map (·, allocs + 1)
      else some ({ pLast with layerSpecific := pLast.layerSpecific ||| nfcRasTooBig }, allocs + 1)
    else some ({ pLast with layerSpecific := pLast.layerSpecific ||| nfcRasTooBig }, allocs)
  else some (pLast, allocs)

/-- `memcpy(pd, ps, len)` behind the content of `p_last`. -/
def appendPayload (pLast : NfcHdr) (payload : Bytes) (layerSpecific : Nat) : Option NfcHdr :=
  if pLast.offset + pLast.len + payload.length ≤ pLast.data.length then
    some { pLast with
      len := pLast.len + payload.length
      layerSpecific := layerSpecific
      data := blit pLast.data (pLast.offset + pLast.len) payload }
  else none

/-- The packet is appended to `p_last`, or queued behind it once it is reported. -/
def procNextFragment (s : Rx) (front : List NfcHdr) (pLast pMsg : NfcHdr) : Option Rx :=
  (makeRoom maxBufSize getpoolbuf s.allocs pLast (pMsg.len - nciMsgHdrSize)).bind fun r =>
    if ¬ r.1.tooBig then
      (appendPayload r.1 (pMsg.bytes.drop nciMsgHdrSize) pMsg.layerSpecific).map fun p =>
        nfcDataEvent nciVersion (s.setQueue r.2 (front ++ [p]))
    else some ((nfcDataEvent nciVersion (s.setQueue r.2 (front ++ [r.1]))).enqueue pMsg)

def procFirstFragment (s : Rx) (pMsg : NfcHdr) : Rx :=
  let start :=
    if pMsg.fragmented ∧ s.cb.connId = nfcRfConnId ∧ s.cb.pCback.isSome then [ConnEvent.dataStart]
    else []
  nfcDataEvent nciVersion { s.enqueue pMsg with events := s.events ++ start }

/-- `nfc_ncif_proc_data`, once the connection is found. -/
def procDataConn (s : Rx) (pbf : Bool) (pMsg : NfcHdr) : Option Rx :=
  let pMsg := { pMsg with layerSpecific := if pbf then nfcRasFragmented else 0 }
  let s := if pbf then { s with reassembly := true } else s
  match s.cb.rxQ.getLast? with
  | some pLast =>
    if pLast.fragmented then
      procNextFragment nciVersion maxBufSize getpoolbuf s s.cb.rxQ.dropLast pLast pMsg
    else some (procFirstFragment nciVersion s pMsg)
  | none => some (procFirstFragment nciVersion s pMsg)

/-- The receive path of the stack, with the events reported and the packets
taken, each with its connection. -/
structure RecvLink where
  conns : ConnTable
  reassembly : Bool
  allocs : Nat
  events : List (Fin nciMaxConnCbs × ConnEvent)
  received : List (Fin nciMaxConnCbs × Frame UInt8)

/-- `NCI_DATA_PRS_HDR`: the packet boundary flag and the connection id. -/
def packetPbf (pMsg : NfcHdr) : Bool := (pMsg.bytes.headD 0 &&& 0x10) >>> 4 ≠ 0
def packetCid (pMsg : NfcHdr) : UInt8 := pMsg.bytes.headD 0 &&& 0x0F

/-- A packet taken by the connection in slot `i`. -/
def RecvLink.receive (s : RecvLink) (i : Fin nciMaxConnCbs) (pMsg : NfcHdr) : Option RecvLink :=
  (procDataConn nciVersion maxBufSize getpoolbuf ⟨s.conns.connCb i, s.reassembly, s.allocs, []⟩
    (packetPbf pMsg) pMsg).map fun r =>
      { conns := s.conns.set i r.cb
        reassembly := r.reassembly
        allocs := r.allocs
        events := s.events ++ r.events.map (i, ·)
        received := s.received ++ [(i, ⟨packetPbf pMsg, pMsg.bytes.drop nciMsgHdrSize⟩)] }

def nfcNcifProcData (s : RecvLink) (pMsg : NfcHdr) : Option RecvLink :=
  match nfcFindConnCbByConnId s.conns (packetCid pMsg) with
  | some i =>
    if nciDataHdrSize ≤ pMsg.len then s.receive nciVersion maxBufSize getpoolbuf i pMsg else some s
  | none => some s

end Receive

/-! ## Buffers of the receive queue -/

structure RxOk (p : NfcHdr) : Prop where
  fits : p.Fits
  header : nciMsgHdrSize ≤ p.len

/-- The data bytes of a buffer: what follows the header of its first packet. -/
def NfcHdr.payload (p : NfcHdr) : Bytes := p.bytes.drop nciMsgHdrSize

variable {p : NfcHdr}

theorem RxOk.length_payload (h : RxOk p) : p.payload.length = p.len - nciMsgHdrSize := by
  simp [NfcHdr.payload, h.fits.length_bytes]

theorem RxOk.payload_eq_nil (h : RxOk p) (hle : ¬ nciMsgHdrSize < p.len) :
    p.payload = [] := by
  have hlen := h.length_payload
  exact List.eq_nil_of_length_eq_zero (by omega)

theorem moveToMax_spec (maxBufSize : UInt16) (h : RxOk p)
    (hroom : p.offset + p.len ≤ maxBufSize.toNat - nfcHdrSize) :
    ∃ q, moveToMax maxBufSize p = some q ∧ RxOk q ∧ q.bytes = p.bytes ∧ q.len = p.len ∧
      q.offset = p.offset ∧ q.layerSpecific = p.layerSpecific ∧
      q.data.length = maxBufSize.toNat - nfcHdrSize := by
  have hlen : (slice p.data p.offset p.len).length = p.len := length_slice h.fits.inside
  have hzero : (List.replicate (maxBufSize.toNat - nfcHdrSize) (0 : UInt8)).length =
      maxBufSize.toNat - nfcHdrSize := List.length_replicate
  have hin : p.offset + (slice p.data p.offset p.len).length ≤
      (List.replicate (maxBufSize.toNat - nfcHdrSize) (0 : UInt8)).length := by
    rw [hlen, hzero]; exact hroom
  have hsize := length_blit hin
  have hmax := maxBufSize.toNat_lt
  rw [hzero] at hsize
  refine ⟨_, if_pos hroom, ⟨⟨?_, ?_⟩, h.header⟩, ?_, rfl, rfl, rfl, hsize⟩
  · rw [hsize]; exact hroom
  · rw [hsize]; omega
  · exact slice_blit_same hlen.symm hin

theorem appendPayload_spec (h : RxOk p) {payload : Bytes} (layerSpecific : Nat)
    (hroom : p.offset + p.len + payload.length ≤ p.data.length) :
    ∃ q, appendPayload p payload layerSpecific = some q ∧ RxOk q ∧
      q.payload = p.payload ++ payload ∧ q.layerSpecific = layerSpecific := by
  have hhdr := h.header
  have hsize := length_blit hroom
  have hsmall := h.fits.small
  have hbytes : slice (blit p.data (p.offset + p.len) payload) p.offset (p.len + payload.length) =
      p.bytes ++ payload := by
    rw [slice_split, slice_blit_before le_rfl (by omega), slice_blit_same rfl hroom]
    rfl
  refine ⟨_, if_pos hroom, ⟨⟨?_, ?_⟩, ?_⟩, ?_, rfl⟩
  · rw [hsize]; simp only; omega
  · rw [hsize]; exact hsmall
  · simp only; omega
  · simp only [NfcHdr.payload, NfcHdr.bytes] at hbytes ⊢
    rw [hbytes, List.drop_append_of_le_length]
    rw [length_slice h.fits.inside]
    exact hhdr

/-! ## What one event reports -/

/-- The connection's packets end in a status byte. -/
def Strips (nciVersion : UInt8) (cb : ConnCb) : Prop :=
  cb.connId = nfcRfConnId ∧
    (nciProtocolT1t ≤ cb.actProtocol ∧ cb.actProtocol ≤ nciProtocolT3t ∨
      nciVersion20 ≤ nciVersion ∧ cb.actProtocol = nciProtocolT5t)

instance (nciVersion : UInt8) (cb : ConnCb) : Decidable (Strips nciVersion cb) :=
  inferInstanceAs (Decidable (_ ∧ _))

def trim (nciVersion : UInt8) (cb : ConnCb) (m : Bytes) : Bytes :=
  if Strips nciVersion cb then m.dropLast else m

/-- A message or a part of one, as the callback sees it. -/
def evtFrame (e : DataCevt) : Frame UInt8 := ⟨e.layerSpecific ≠ 0, e.data⟩

/-- A part is reported with `NFC_STATUS_CONTINUE`, the end with `NFC_STATUS_OK` or
the status byte of the packet. -/
def StatusOk (nciVersion : UInt8) (cb : ConnCb) (e : DataCevt) : Prop :=
  (e.layerSpecific ≠ 0 → e.status = nfcStatusContinue) ∧
    (e.layerSpecific = 0 → ¬ Strips nciVersion cb → e.status = nfcStatusOk)

theorem bytes_cut (p : NfcHdr) (n : Nat) :
    slice p.data (p.offset + nciMsgHdrSize) (p.len - nciMsgHdrSize - n) =
      p.payload.take (p.len - nciMsgHdrSize - n) := by
  simp only [NfcHdr.payload, NfcHdr.bytes, slice, List.drop_take, List.take_take, List.drop_drop]
  congr 1
  omega

variable {nciVersion : UInt8} {cb : ConnCb}

theorem dataCevt_plain (h : RxOk p) (hs : ¬ (Strips nciVersion cb ∧ nciMsgHdrSize < p.len)) :
    dataCevt nciVersion cb p =
      ⟨if p.layerSpecific ≠ 0 then nfcStatusContinue else nfcStatusOk, p.layerSpecific, p.payload⟩ := by
  have hbytes := bytes_cut p 0
  have hlen := h.length_payload
  rw [Nat.sub_zero, List.take_of_length_le hlen.le] at hbytes
  unfold dataCevt
  simp only [NfcHdr.bytes, hbytes]
  split
  · next hrf =>
    rw [if_neg, if_neg]
    · rintro ⟨hv, h5⟩
      exact hs ⟨⟨hrf.1, Or.inr ⟨hv, h5⟩⟩, by omega⟩
    · intro ht
      exact hs ⟨⟨hrf.1, Or.inl ht⟩, by omega⟩
  · rfl

theorem dataCevt_strips (h : RxOk p)
    (hl : p.layerSpecific = 0) (hs : Strips nciVersion cb) (hlen : nciMsgHdrSize < p.len) :
    (dataCevt nciVersion cb p).data = p.payload.dropLast ∧
      (dataCevt nciVersion cb p).layerSpecific = 0 := by
  have hbytes := bytes_cut p 1
  have hpl := h.length_payload
  rw [show p.len - nciMsgHdrSize - 1 = p.payload.length - 1 by omega, ← List.dropLast_eq_take]
    at hbytes
  unfold dataCevt
  simp only [hl]
  rw [if_pos ⟨hs.1, by decide, by omega⟩]
  split
  · exact ⟨by simpa [stripStatus, NfcHdr.bytes, hpl] using hbytes, rfl⟩
  · next ht =>
    rw [if_pos (hs.2.resolve_left ht)]
    exact ⟨by simpa [stripStatus, NfcHdr.bytes, hpl] using hbytes, rfl⟩

theorem dataCevt_last (h : RxOk p) (hl : p.layerSpecific = 0) :
    evtFrame (dataCevt nciVersion cb p) = ⟨false, trim nciVersion cb p.payload⟩ ∧
      StatusOk nciVersion cb (dataCevt nciVersion cb p) := by
  by_cases hs : Strips nciVersion cb ∧ nciMsgHdrSize < p.len
  · obtain ⟨hdata, hlay⟩ := dataCevt_strips h hl hs.1 hs.2
    refine ⟨?_, ?_, ?_⟩
    · simp [evtFrame, hdata, hlay, trim, hs.1]
    · exact fun hne => absurd hlay hne
    · exact fun _ hns => absurd hs.1 hns
  · have hplain := dataCevt_plain h hs
    rw [hplain]
    refine ⟨?_, ?_, ?_⟩
    · have htrim : trim nciVersion cb p.payload = p.payload := by
        unfold trim
        split
        · next hst =>
          rw [h.payload_eq_nil fun hlt => hs ⟨hst, hlt⟩]; rfl
        · rfl
      simp [evtFrame, hl, htrim]
    · exact fun hne => absurd hl hne
    · intro _ _
      simp [hl]

theorem dataCevt_part (h : RxOk p)
    (hl : p.layerSpecific ≠ 0) (hs : ¬ (Strips nciVersion cb ∧ nciMsgHdrSize < p.len)) :
    evtFrame (dataCevt nciVersion cb p) = ⟨true, p.payload⟩ ∧
      StatusOk nciVersion cb (dataCevt nciVersion cb p) := by
  rw [dataCevt_plain h hs]
  refine ⟨by simp [evtFrame, hl], ?_, ?_⟩
  · intro _
    simp [hl]
  · exact fun h0 => absurd h0 hl

/-! ## One packet -/

/-- The data events among what the callback saw. -/
def dataEvents (evs : List ConnEvent) : List DataCevt :=
  evs.filterMap fun
    | .dataStart => none
    | .data e => some e

/-- What a connection has received, reported and holds back is in step. `inp` are
its packets and `evs` its data events. -/
structure ConnSound (nciVersion : UInt8) (cb : ConnCb) (inp : List (Frame UInt8))
    (evs : List DataCevt) : Prop where
  relays : Relays (trim nciVersion cb) inp (evs.map evtFrame) (cb.rxQ.flatMap NfcHdr.payload)
  queue : cb.rxQ = [] ∧ (assemble (evs.map evtFrame)).part = [] ∨
    ∃ p, cb.rxQ = [p] ∧ p.layerSpecific = nfcRasFragmented ∧ RxOk p ∧
      (Strips nciVersion cb → (assemble (evs.map evtFrame)).part = []) ∧
      ∃ f ∈ inp.getLast?, f.more = true
  status : ∀ e ∈ evs, StatusOk nciVersion cb e

theorem ConnSound.nothing_early {inp : List (Frame UInt8)}
    {evs : List DataCevt} (h : ConnSound nciVersion cb inp evs) :
    Strips nciVersion cb → (assemble (evs.map evtFrame)).part = [] := by
  obtain ⟨-, hnil⟩ | ⟨q, -, -, -, hnil, -⟩ := h.queue
  · exact fun _ => hnil
  · exact hnil

section Packet
variable {nciVersion : UInt8} {maxBufSize : UInt16} {getpoolbuf : Nat → Bool}

variable {p : NfcHdr}

theorem nfcDataEvent_waits {s : Rx} (hq : s.cb.rxQ = [p])
    (hl : p.layerSpecific = nfcRasFragmented) (hr : s.reassembly = true) :
    nfcDataEvent nciVersion s = s := by
  have hloop : dataEventLoop nciVersion s.cb s.reassembly s.cb.rxQ = (s.reassembly, s.cb.rxQ, []) := by
    simp [dataEventLoop, hq, NfcHdr.fragmented, NfcHdr.tooBig, hl, hr, nfcRasFragmented, nfcRasTooBig]
  unfold nfcDataEvent
  rw [hloop]
  simp

theorem nfcDataEvent_reports (nciVersion : UInt8) {s : Rx} (hq : s.cb.rxQ = [p])
    (hcb : s.cb.pCback.isSome) (hl : p.fragmented = false ∨ p.tooBig = true) :
    nfcDataEvent nciVersion s =
      { s with
        cb := { s.cb with rxQ := [] }
        reassembly := if p.layerSpecific = 0 then true else s.reassembly
        events := s.events ++ [.data (dataCevt nciVersion s.cb p)] } := by
  have hgo : ¬ (p.fragmented = true ∧ ¬ p.tooBig = true ∧
      (s.cb.connId ≠ nfcRfConnId ∨ s.reassembly = true)) := by
    obtain h | h := hl <;> simp [h]
  unfold nfcDataEvent
  rw [if_pos hcb, hq]
  simp only [dataEventLoop, if_neg hgo]

variable {inp : List (Frame UInt8)}

theorem connSound_finish {cb : ConnCb} {evs : List DataCevt}
    (h : ConnSound nciVersion cb inp evs) {payload : Bytes} (hp : RxOk p) (hl : p.layerSpecific = 0)
    (hpay : p.payload = cb.rxQ.flatMap NfcHdr.payload ++ payload) :
    ConnSound nciVersion { cb with rxQ := [] } (inp ++ [⟨false, payload⟩])
      (evs ++ [dataCevt nciVersion cb p]) := by
  obtain ⟨hframe, hst⟩ := dataCevt_last hp hl
  have hout : (evs ++ [dataCevt nciVersion cb p]).map evtFrame =
      evs.map evtFrame ++ [⟨false, trim nciVersion cb p.payload⟩] := by
    rw [List.map_append, List.map_singleton, hframe]
  have hpart := h.nothing_early
  refine ⟨?_, Or.inl ⟨rfl, by rw [hout, assemble_last]⟩, ?_⟩
  · rw [hout]
    refine h.relays.finish ?_
    rw [hpay]
    -- on a connection with status bytes nothing was reported early
    by_cases hs : Strips nciVersion cb
    · rw [hpart hs]; rfl
    · simp [trim, hs]
  · intro e he
    obtain he | he := List.mem_append.mp he
    · exact h.status e he
    · rw [List.mem_singleton.mp he]; exact hst

theorem connSound_hold {cb : ConnCb} {evs : List DataCevt}
    (h : ConnSound nciVersion cb inp evs) {payload : Bytes} (hp : RxOk p)
    (hl : p.layerSpecific = nfcRasFragmented)
    (hpay : p.payload = cb.rxQ.flatMap NfcHdr.payload ++ payload) :
    ConnSound nciVersion { cb with rxQ := [p] } (inp ++ [⟨true, payload⟩]) evs := by
  refine ⟨?_, Or.inr ⟨p, rfl, hl, hp, ?_, ?_⟩, h.status⟩
  · have hrel := h.relays.hold payload
    rw [← hpay, ← List.append_nil p.payload] at hrel
    exact hrel
  · exact h.nothing_early
  · exact ⟨⟨true, payload⟩, by simp, rfl⟩

theorem connSound_pass {cb : ConnCb} {evs : List DataCevt}
    (h : ConnSound nciVersion cb inp evs) (hp : RxOk p)
    (hl : p.layerSpecific ≠ 0) (hpay : p.payload = cb.rxQ.flatMap NfcHdr.payload)
    (hs : ¬ (Strips nciVersion cb ∧ nciMsgHdrSize < p.len)) :
    Relays (trim nciVersion cb) inp ((evs ++ [dataCevt nciVersion cb p]).map evtFrame) [] ∧
      (Strips nciVersion cb →
        (assemble ((evs ++ [dataCevt nciVersion cb p]).map evtFrame)).part = []) ∧
      ∀ e ∈ evs ++ [dataCevt nciVersion cb p], StatusOk nciVersion cb e := by
  obtain ⟨hframe, hst⟩ := dataCevt_part hp hl hs
  have hout : (evs ++ [dataCevt nciVersion cb p]).map evtFrame =
      evs.map evtFrame ++ [⟨true, p.payload⟩] := by
    rw [List.map_append, List.map_singleton, hframe]
  have hpart := h.nothing_early
  refine ⟨?_, ?_, ?_⟩
  · rw [hout, hpay]
    exact h.relays.pass
  · intro hst'
    rw [hout, assemble_more, hpart hst', hp.payload_eq_nil fun hlt => hs ⟨hst', hlt⟩]
    rfl
  · intro e he
    obtain he | he := List.mem_append.mp he
    · exact h.status e he
    · rw [List.mem_singleton.mp he]; exact hst

end Packet

/-- The packet meets no buffer it does not fit, or one that is exchanged for a
buffer it fits, or the packet is not the last of its message and no status byte
is cut from the part that is reported. -/
def RxClean (nciVersion : UInt8) (maxBufSize : UInt16) (getpoolbuf : Nat → Bool) (cb : ConnCb)
    (allocs : Nat) (pMsg : NfcHdr) : Prop :=
  ∀ pLast ∈ cb.rxQ.getLast?, pLast.fragmented →
    pLast.data.length < pLast.offset + pLast.len + (pMsg.len - nciMsgHdrSize) →
      if gkiGetBufSize pLast ≠ maxBufSize.toNat ∧ getpoolbuf allocs then
        pLast.offset + pLast.len + (pMsg.len - nciMsgHdrSize) ≤ maxBufSize.toNat - nfcHdrSize
      else packetPbf pMsg ∧ ¬ (Strips nciVersion cb ∧ nciMsgHdrSize < pLast.len)

instance (nciVersion : UInt8) (maxBufSize : UInt16) (getpoolbuf : Nat → Bool) (cb : ConnCb)
    (allocs : Nat) (pMsg : NfcHdr) :
    Decidable (RxClean nciVersion maxBufSize getpoolbuf cb allocs pMsg) :=
  inferInstanceAs (Decidable (∀ pLast ∈ cb.rxQ.getLast?, _))

section Step
variable {nciVersion : UInt8} {maxBufSize : UInt16} {getpoolbuf : Nat → Bool} {cb : ConnCb}
  {inp : List (Frame UInt8)} {evs : List DataCevt} {pMsg : NfcHdr}

variable {allocs : Nat}

theorem makeRoom_spec {pLast : NfcHdr} (hq : cb.rxQ = [pLast])
    (hl : pLast.layerSpecific = nfcRasFragmented) (hp : RxOk pLast)
    (hclean : RxClean nciVersion maxBufSize getpoolbuf cb allocs pMsg) :
    (∃ q n, makeRoom maxBufSize getpoolbuf allocs pLast (pMsg.len - nciMsgHdrSize) = some (q, n) ∧
      RxOk q ∧ q.payload = pLast.payload ∧ q.layerSpecific = nfcRasFragmented ∧
      q.offset + q.len + (pMsg.len - nciMsgHdrSize) ≤ q.data.length) ∨
    ∃ n, makeRoom maxBufSize getpoolbuf allocs pLast (pMsg.len - nciMsgHdrSize) =
        some ({ pLast with layerSpecific := nfcRasFragmented ||| nfcRasTooBig }, n) ∧
      packetPbf pMsg ∧ ¬ (Strips nciVersion cb ∧ nciMsgHdrSize < pLast.len) := by
  have hfrag : pLast.fragmented = true := by
    simp [NfcHdr.fragmented, hl, nfcRasFragmented]
  have hcl := hclean pLast (by simp [hq]) hfrag
  by_cases hsmall : pLast.data.length < pLast.offset + pLast.len + (pMsg.len - nciMsgHdrSize)
  · have hlt : gkiGetBufSize pLast < nfcHdrSize + pLast.len + pLast.offset +
        (pMsg.len - nciMsgHdrSize) := by
      simp only [gkiGetBufSize]; omega
    have hcl := hcl hsmall
    by_cases hmax : gkiGetBufSize pLast ≠ maxBufSize.toNat
    · by_cases halloc : getpoolbuf allocs = true
      · rw [if_pos ⟨hmax, halloc⟩] at hcl
        obtain ⟨q, hq', hok, hbytes, hlen, hoff, hlay, hsize⟩ :=
          moveToMax_spec maxBufSize hp (by omega)
        refine Or.inl ⟨q, allocs + 1, ?_, hok, ?_, hlay.trans hl, by omega⟩
        · simp only [makeRoom, if_pos hlt, if_pos hmax, if_pos halloc, hq', Option.map_some]
        · rw [NfcHdr.payload, hbytes]; rfl
      · rw [if_neg (fun h => halloc h.2)] at hcl
        refine Or.inr ⟨allocs + 1, ?_, hcl⟩
        simp only [makeRoom, if_pos hlt, if_pos hmax, if_neg halloc, hl]
    · rw [if_neg (fun h => hmax h.1)] at hcl
      refine Or.inr ⟨allocs, ?_, hcl⟩
      simp only [makeRoom, if_pos hlt, if_neg hmax, hl]
  · refine Or.inl ⟨pLast, allocs, ?_, hp, rfl, hl, by omega⟩
    rw [makeRoom, if_neg]
    simp only [gkiGetBufSize]
    omega

def tagged (pMsg : NfcHdr) : NfcHdr :=
  { pMsg with layerSpecific := if packetPbf pMsg then nfcRasFragmented else 0 }

theorem rxOk_tagged (h : RxOk pMsg) : RxOk (tagged pMsg) := ⟨⟨h.fits.inside, h.fits.small⟩, h.header⟩

def PacketSound (nciVersion : UInt8) (cb : ConnCb) (inp : List (Frame UInt8)) (evs : List DataCevt)
    (pMsg : NfcHdr) (r : Rx) : Prop :=
  (∃ q, r.cb = { cb with rxQ := q }) ∧
    ConnSound nciVersion r.cb (inp ++ [⟨packetPbf pMsg, pMsg.payload⟩]) (evs ++ dataEvents r.events)

variable {reassembly : Bool}

theorem packetSound_event {p : NfcHdr} {start : List ConnEvent}
    (h : ConnSound nciVersion cb inp evs) (hcb : cb.pCback.isSome) (hp : RxOk p)
    (hl : p.layerSpecific = (tagged pMsg).layerSpecific)
    (hpay : p.payload = cb.rxQ.flatMap NfcHdr.payload ++ pMsg.payload)
    (hr : packetPbf pMsg → reassembly = true) (hstart : dataEvents start = []) :
    PacketSound nciVersion cb inp evs pMsg
      (nfcDataEvent nciVersion ⟨{ cb with rxQ := [p] }, reassembly, allocs, start⟩) := by
  cases hpbf : packetPbf pMsg with
  | true =>
    have hl1 : p.layerSpecific = nfcRasFragmented := by rw [hl, tagged]; simp [hpbf]
    rw [nfcDataEvent_waits rfl hl1 (hr hpbf)]
    refine ⟨⟨_, rfl⟩, ?_⟩
    rw [hpbf, hstart, List.append_nil]
    exact connSound_hold h hp hl1 hpay
  | false =>
    have hl0 : p.layerSpecific = 0 := by rw [hl, tagged]; simp [hpbf]
    rw [nfcDataEvent_reports nciVersion rfl hcb (Or.inl (by simp [NfcHdr.fragmented, hl0]))]
    refine ⟨⟨[], rfl⟩, ?_⟩
    have hevs : dataEvents (start ++ [.data (dataCevt nciVersion { cb with rxQ := [p] } p)]) =
        [dataCevt nciVersion cb p] := by
      rw [dataEvents, List.filterMap_append]
      change dataEvents start ++ _ = _
      rw [hstart]
      rfl
    rw [hevs, hpbf]
    exact connSound_finish h hp hl0 hpay

theorem packetSound_first (h : ConnSound nciVersion cb inp evs)
    (hcb : cb.pCback.isSome) (hp : RxOk pMsg) (hq : cb.rxQ = [])
    (hr : packetPbf pMsg → reassembly = true) :
    PacketSound nciVersion cb inp evs pMsg
      (procFirstFragment nciVersion ⟨cb, reassembly, allocs, []⟩ (tagged pMsg)) := by
  unfold procFirstFragment
  simp only [Rx.enqueue, hq, List.nil_append]
  refine packetSound_event h hcb (rxOk_tagged hp) rfl ?_ hr ?_
  · rw [hq]; rfl
  · split <;> rfl

theorem packetSound_next {pLast : NfcHdr}
    (h : ConnSound nciVersion cb inp evs) (hcb : cb.pCback.isSome) (hp : RxOk pMsg)
    (hq : cb.rxQ = [pLast]) (hl : pLast.layerSpecific = nfcRasFragmented) (hlast : RxOk pLast)
    (hr : packetPbf pMsg → reassembly = true)
    (hclean : RxClean nciVersion maxBufSize getpoolbuf cb allocs pMsg) :
    ∃ r, procNextFragment nciVersion maxBufSize getpoolbuf ⟨cb, reassembly, allocs, []⟩ [] pLast
        (tagged pMsg) = some r ∧ PacketSound nciVersion cb inp evs pMsg r := by
  have hpay : cb.rxQ.flatMap NfcHdr.payload = pLast.payload := by simp [hq]
  have hlen : (tagged pMsg).bytes.drop nciMsgHdrSize = pMsg.payload := rfl
  obtain ⟨q, n, hroom, hqok, hqpay, hqlay, hqroom⟩ | ⟨n, hroom, hpbf, hs⟩ :=
    makeRoom_spec hq hl hlast hclean
  · have hbig : q.tooBig = false := by
      simp [NfcHdr.tooBig, hqlay, nfcRasFragmented, nfcRasTooBig]
    obtain ⟨p, hp', hpok, hppay, hplay⟩ := appendPayload_spec hqok
      (tagged pMsg).layerSpecific (by rw [hp.length_payload]; exact hqroom)
    refine ⟨nfcDataEvent nciVersion ⟨{ cb with rxQ := [p] }, reassembly, n, []⟩, ?_,
      packetSound_event h hcb hpok hplay (by rw [hppay, hqpay, hpay]) hr rfl⟩
    change (makeRoom maxBufSize getpoolbuf allocs pLast (pMsg.len - nciMsgHdrSize)).bind _ = _
    rw [hroom, Option.bind_some, if_pos (by simp [hbig]), hlen, hp']
    rfl
  · -- the part in the queue is reported, and the packet takes its place
    set big : NfcHdr := { pLast with layerSpecific := nfcRasFragmented ||| nfcRasTooBig } with hbigdef
    have hbig : big.tooBig = true := by
      simp [NfcHdr.tooBig, hbigdef, nfcRasFragmented, nfcRasTooBig]
    have hbigok : RxOk big := ⟨⟨hlast.fits.inside, hlast.fits.small⟩, hlast.header⟩
    obtain ⟨hrel, hearly, hst⟩ := connSound_pass h hbigok (by simp [hbigdef, nfcRasFragmented])
      (by rw [hpay]; rfl) hs
    have hevent := nfcDataEvent_reports nciVersion (p := big)
      (s := ⟨{ cb with rxQ := [big] }, reassembly, n, []⟩) rfl hcb (Or.inr hbig)
    refine ⟨(nfcDataEvent nciVersion ⟨{ cb with rxQ := [big] }, reassembly, n, []⟩).enqueue
      (tagged pMsg), ?_, ?_⟩
    · change (makeRoom maxBufSize getpoolbuf allocs pLast (pMsg.len - nciMsgHdrSize)).bind _ = _
      rw [hroom, Option.bind_some, if_neg (by simp [hbig])]
      rfl
    rw [hevent]
    refine ⟨⟨[tagged pMsg], rfl⟩, ?_⟩
    have hl1 : (tagged pMsg).layerSpecific = nfcRasFragmented := by simp [tagged, hpbf]
    refine ⟨?_, Or.inr ⟨tagged pMsg, rfl, hl1, rxOk_tagged hp, hearly, ?_⟩, hst⟩
    · have hone : [tagged pMsg].flatMap NfcHdr.payload = [] ++ pMsg.payload :=
        List.append_nil pMsg.payload
      change Relays _ _ _ ([tagged pMsg].flatMap NfcHdr.payload)
      rw [hpbf, hone]
      exact hrel.hold pMsg.payload
    · exact ⟨⟨packetPbf pMsg, pMsg.payload⟩, by simp, hpbf⟩

theorem packetSound_conn (h : ConnSound nciVersion cb inp evs)
    (hcb : cb.pCback.isSome) (hp : RxOk pMsg)
    (hclean : RxClean nciVersion maxBufSize getpoolbuf cb allocs pMsg) :
    ∃ r, procDataConn nciVersion maxBufSize getpoolbuf ⟨cb, reassembly, allocs, []⟩ (packetPbf pMsg)
        pMsg = some r ∧ PacketSound nciVersion cb inp evs pMsg r := by
  have hset : (if packetPbf pMsg then ⟨cb, true, allocs, []⟩ else ⟨cb, reassembly, allocs, []⟩ : Rx) =
      ⟨cb, packetPbf pMsg || reassembly, allocs, []⟩ := by
    cases packetPbf pMsg <;> rfl
  have hr : packetPbf pMsg → (packetPbf pMsg || reassembly) = true := fun h => by simp [h]
  simp only [procDataConn, hset]
  obtain ⟨hq, -⟩ | ⟨pLast, hq, hl, hlast, -, -⟩ := h.queue
  · simp only [hq, List.getLast?_nil]
    exact ⟨_, rfl, packetSound_first h hcb hp hq hr⟩
  · have hfrag : pLast.fragmented = true := by
      simp [NfcHdr.fragmented, hl, nfcRasFragmented]
    simp only [hq, List.getLast?_singleton, hfrag, if_true, List.dropLast_singleton]
    exact packetSound_next h hcb hp hq hl hlast hr hclean

end Step

/-! ## Runs -/

/-- The packets taken by the connection in slot `i`. -/
def RecvLink.framesOn (s : RecvLink) (i : Fin nciMaxConnCbs) : List (Frame UInt8) :=
  (s.received.filter (·.1 = i)).map (·.2)

/-- The data events reported on the connection in slot `i`. -/
def RecvLink.eventsOn (s : RecvLink) (i : Fin nciMaxConnCbs) : List DataCevt :=
  dataEvents ((s.events.filter (·.1 = i)).map (·.2))

def RecvLink.Fresh (s : RecvLink) : Prop :=
  (∀ i, (s.conns.connCb i).rxQ = []) ∧ s.events = [] ∧ s.received = []

/-- Every connection with a callback is in step. -/
def RecvInv (nciVersion : UInt8) (s : RecvLink) : Prop :=
  ∀ i, (s.conns.connCb i).pCback.isSome →
    ConnSound nciVersion (s.conns.connCb i) (s.framesOn i) (s.eventsOn i)

theorem recvInv_fresh {nciVersion : UInt8} {s : RecvLink} (h : s.Fresh) : RecvInv nciVersion s := by
  obtain ⟨hq, hev, hrec⟩ := h
  intro i _
  have hf : s.framesOn i = [] := by simp [RecvLink.framesOn, hrec]
  have he : s.eventsOn i = [] := by simp [RecvLink.eventsOn, hev, dataEvents]
  rw [hf, he]
  refine ⟨?_, Or.inl ⟨hq i, rfl⟩, by simp⟩
  rw [hq i]
  exact relays_nil _

/-- A packet the stack can receive: it lies in its buffer, and the connection it
names has a callback. -/
def PacketValid (s : RecvLink) (pMsg : NfcHdr) : Prop :=
  pMsg.Fits ∧ ∀ i, nfcFindConnCbByConnId s.conns (packetCid pMsg) = some i →
    (s.conns.connCb i).pCback.isSome

/-- The packet is clean for the connection that takes it. -/
def PacketClean (nciVersion : UInt8) (maxBufSize : UInt16) (getpoolbuf : Nat → Bool) (s : RecvLink)
    (pMsg : NfcHdr) : Prop :=
  nciDataHdrSize ≤ pMsg.len → ∀ i, nfcFindConnCbByConnId s.conns (packetCid pMsg) = some i →
    RxClean nciVersion maxBufSize getpoolbuf (s.conns.connCb i) s.allocs pMsg

instance (s : RecvLink) (pMsg : NfcHdr) : Decidable (PacketValid s pMsg) :=
  inferInstanceAs (Decidable (_ ∧ ∀ _, _ → _))

instance (nciVersion : UInt8) (maxBufSize : UInt16) (getpoolbuf : Nat → Bool) (s : RecvLink)
    (pMsg : NfcHdr) : Decidable (PacketClean nciVersion maxBufSize getpoolbuf s pMsg) :=
  inferInstanceAs (Decidable (_ → ∀ _, _ → _))

section Runs
variable {nciVersion : UInt8} {maxBufSize : UInt16} {getpoolbuf : Nat → Bool}

theorem recvInv_packet {s : RecvLink} {pMsg : NfcHdr} (h : RecvInv nciVersion s)
    (hv : PacketValid s pMsg) (hc : PacketClean nciVersion maxBufSize getpoolbuf s pMsg) :
    ∃ t, nfcNcifProcData nciVersion maxBufSize getpoolbuf s pMsg = some t ∧ RecvInv nciVersion t := by
  unfold nfcNcifProcData
  split
  · next i hi =>
    split
    · next hlen =>
      obtain ⟨r, hr, ⟨q, hcb⟩, hsound⟩ := packetSound_conn
        (h i (hv.2 i hi)) (hv.2 i hi) ⟨hv.1, hlen⟩ (hc hlen i hi)
      refine ⟨_, by rw [RecvLink.receive, hr]; rfl, ?_⟩
      intro j hj
      by_cases hji : j = i
      · subst hji
        simpa [RecvLink.framesOn, RecvLink.eventsOn, dataEvents, NfcHdr.payload, List.filter_append,
          List.filter_map, Function.comp_def] using hsound
      · have hsame := h j (by simpa [ConnTable.set_other _ _ hji] using hj)
        simpa [RecvLink.framesOn, RecvLink.eventsOn, dataEvents, List.filter_append, List.filter_map,
          Function.comp_def, ConnTable.set_other _ _ hji, Ne.symm hji] using hsame
    · exact ⟨s, rfl, h⟩
  · exact ⟨s, rfl, h⟩

/-- In every run of clean packets, each connection with a callback reports exactly
the messages it received, up to the status byte; of an open message it has reported
a part and holds back the rest; and after a last packet it holds back nothing. -/
theorem reassembly_lossless (nciVersion : UInt8) (maxBufSize : UInt16) (getpoolbuf : Nat → Bool)
    (s : RecvLink) (hs : s.Fresh) (pkts : List NfcHdr)
    (hpkts : StepsOk (nfcNcifProcData nciVersion maxBufSize getpoolbuf)
      (fun t p => PacketValid t p ∧ PacketClean nciVersion maxBufSize getpoolbuf t p) s pkts) :
    ∃ t, run (nfcNcifProcData nciVersion maxBufSize getpoolbuf) s pkts = some t ∧
      ∀ i, (t.conns.connCb i).pCback.isSome →
        (assemble ((t.eventsOn i).map evtFrame)).done =
          (assemble (t.framesOn i)).done.map (trim nciVersion (t.conns.connCb i)) ∧
        (assemble (t.framesOn i)).part = (assemble ((t.eventsOn i).map evtFrame)).part ++
          (t.conns.connCb i).rxQ.flatMap NfcHdr.payload ∧
        ((∀ f ∈ (t.framesOn i).getLast?, f.more = false) → (t.conns.connCb i).rxQ = []) ∧
        ∀ e ∈ t.eventsOn i, StatusOk nciVersion (t.conns.connCb i) e := by
  obtain ⟨t, ht, hinv⟩ := run_invariant (fun s p h hp => recvInv_packet h hp.1 hp.2) pkts s
    (recvInv_fresh hs) hpkts
  refine ⟨t, ht, fun i hi => ?_⟩
  have hsound := hinv i hi
  refine ⟨hsound.relays.done, hsound.relays.part, ?_, hsound.status⟩
  intro hlast
  obtain ⟨hq, -⟩ | ⟨p, -, -, -, -, f, hf, hmore⟩ := hsound.queue
  · exact hq
  · rw [hlast f hf] at hmore
    cases hmore

end Runs

/-! ## Messages longer than the buffers -/

/-- Slot 0 is the RF connection, with the given protocol and a callback. -/
def rfLink (actProtocol : UInt8) : RecvLink where
  conns :=
    { connCb := fun i =>
        if i = 0 then { pCback := some 0, connId := 0, actProtocol := actProtocol, actInterface := 1 }
        else {}
      connId := fun i => if i = 0 then 1 else 0 }
  reassembly := true
  allocs := 0
  events := []
  received := []

/-- A packet on connection 0 in a buffer with room for 12 bytes. -/
def rxPacket (pbf : UInt8) (payload : Bytes) : NfcHdr :=
  { len := nciMsgHdrSize + payload.length
    offset := 0
    layerSpecific := 0
    data := [pbf <<< 4, 0, UInt8.ofNat payload.length] ++ payload ++ List.replicate (9 - payload.length) 0 }

theorem reassembly_last_packet_stuck :
    (StepsOk (nfcNcifProcData 0x20 20 fun _ => true) PacketValid (rfLink 0x04)
        [rxPacket 1 [1, 2, 3, 4, 5], rxPacket 0 [6, 7, 8, 9, 10]] ∧
      (run (nfcNcifProcData 0x20 20 fun _ => true) (rfLink 0x04)
          [rxPacket 1 [1, 2, 3, 4, 5], rxPacket 0 [6, 7, 8, 9, 10]]).map
        (fun t => ((t.framesOn 0).getLast?.map (·.more), t.eventsOn 0,
          (t.conns.connCb 0).rxQ.map NfcHdr.payload)) =
        some (some false, [⟨nfcStatusContinue, 9, [1, 2, 3, 4, 5]⟩], [[6, 7, 8, 9, 10]])) ∧
    (StepsOk (nfcNcifProcData 0x20 20 fun _ => true) PacketValid (rfLink nciProtocolT2t)
        [rxPacket 1 [1, 2, 3, 4, 5], rxPacket 1 [6, 7, 8, 9, 10]] ∧
      (run (nfcNcifProcData 0x20 20 fun _ => true) (rfLink nciProtocolT2t)
          [rxPacket 1 [1, 2, 3, 4, 5], rxPacket 1 [6, 7, 8, 9, 10]]).map
        (fun t => (t.eventsOn 0, (t.conns.connCb 0).rxQ.map NfcHdr.payload)) =
        some ([⟨5, 9, [1, 2, 3, 4]⟩], [[6, 7, 8, 9, 10]])) := by
  refine ⟨⟨by decide +kernel, by decide +kernel⟩, by decide +kernel, by decide +kernel⟩

/-- A message in three packets on the ISO-DEP connection, the last two of which
share a buffer. -/
theorem reassembly_lossless_three_packets :
    ∃ t, run (nfcNcifProcData 0x20 20 fun _ => true) (rfLink 0x04)
        [rxPacket 1 [1, 2, 3, 4, 5], rxPacket 1 [6, 7, 8, 9, 10], rxPacket 0 [11]] = some t ∧
      (t.conns.connCb 0).pCback.isSome ∧
      (assemble ((t.eventsOn 0).map evtFrame)).done =
        (assemble (t.framesOn 0)).done.map (trim 0x20 (t.conns.connCb 0)) := by
  obtain ⟨t, ht, hall⟩ := reassembly_lossless 0x20 20 (fun _ => true)
    (rfLink 0x04) ⟨by decide, rfl, rfl⟩
    [rxPacket 1 [1, 2, 3, 4, 5], rxPacket 1 [6, 7, 8, 9, 10], rxPacket 0 [11]] (by decide +kernel)
  have hcb : (t.conns.connCb 0).pCback.isSome := by
    have hrun : (run (nfcNcifProcData 0x20 20 fun _ => true) (rfLink 0x04)
        [rxPacket 1 [1, 2, 3, 4, 5], rxPacket 1 [6, 7, 8, 9, 10], rxPacket 0 [11]]).map
          (fun t => (t.conns.connCb 0).pCback.isSome) = some true := by
      decide +kernel
    rw [ht] at hrun
    simpa using hrun
  exact ⟨t, ht, hcb, (hall 0 hcb).1⟩

end NfcStack.Nfc
