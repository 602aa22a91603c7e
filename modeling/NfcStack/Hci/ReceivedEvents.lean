import NfcStack.Lib.Run
import NfcStack.Hci.Tables

/- What the applications are told of the messages that arrive: the length and the
   pointer of `NFA_HCI_EVENT_RCVD_EVT` and `NFA_HCI_RSP_RCVD_EVT`
   (`nfa_hci_main.cc`: `nfa_hci_conn_cback`; `nfa_hci_act.cc`:
   `nfa_hci_handle_dyn_pipe_pkt` and the gates behind it).

   What is proved:
     1. `nfaHciConnCback_eq`: the length and the pointer give the messages of `Hcp`.
     2. `nfaHciAssembleMsg_collects`: a segment is appended as far as there is room,
        and never written behind it.
     3. `reports_right`: over any run, what is reported lies inside its buffer and
        is the message, cut at the end of the buffer only, if an event that comes in
        one packet fits the receive buffer, a response is at most 255 bytes long, and
        no hot plug event arrives on the administration pipe once the network is up.
     4. `single_event_overruns`: an event of six bytes in one packet, with a buffer
        of four. `pkt_len` is not cut as the bytes were.

   A buffer of the application is the bytes it said it has. While a message is
   assembled the code holds a pointer of its own to the buffer it began with, so
   what `p_rsp_buf` becomes meanwhile is kept in `later`. -/
namespace NfcStack.Hci.Received
open NfcStack.Lib

def nfaMaxHciRspLen : Nat := 255

/-! ## The length and the pointer -/

/-- The first packet of a message: `pkt_len`, and the memory from `p` to the end of its buffer. -/
def firstSegmentAt (r : Receiver) (chaining pipe hdr : UInt8) (p : Bytes) :
    Option (Receiver × Nat × Bytes) := do
  let r := { r with
    type := (hdr >>> 6) &&& 3
    inst := hdr &&& 0x3F
    assemblyFailed := false
    msgLen := 0 }
  if chaining = nfaHciMessageFragmentation then
    let r ← nfaHciAssembleMsg (nfaHciSetReceiveBuf { r with assembling := true } pipe) p
    return (r, p.length, p)
  else if nfaHciFirstDynamicPipe ≤ pipe ∧ r.type = nfaHciEventType then
    let r ← nfaHciAssembleMsg (nfaHciSetReceiveBuf r pipe) p
    -- `p` becomes `p_msg_data`, and `pkt_len` stays
    return (r, p.length, r.buf)
  else return (r, p.length, p)

def nextSegmentAt (r : Receiver) (chaining : UInt8) (p : Bytes) : Option (Receiver × Nat × Bytes) := do
  let r ← if r.assemblyFailed then some r else nfaHciAssembleMsg r p
  if chaining = nfaHciNoMessageFragmentation then
    let r := { r with assembling := false }
    return (r, r.msgLen, r.buf)
  else return (r, p.length, p)

structure Pointed where
  pipe : UInt8
  len : Nat
  mem : Bytes
  deriving DecidableEq, Repr

def pktChaining (pkt : Bytes) : UInt8 := (pkt.headD 0 >>> 7) &&& 1
def pktPipe (pkt : Bytes) : UInt8 := pkt.headD 0 &&& 0x7F

/-- `nfa_hci_conn_cback` for `NFC_DATA_CEVT`, up to the dispatch to the gates. -/
def nfaHciConnCbackAt (r : Receiver) (pkt : Bytes) : Option (Receiver × Option Pointed) :=
  match pkt with
  | [] => some (r, none)
  | _ :: rest =>
    let deliver (x : Receiver × Nat × Bytes) : Receiver × Option Pointed :=
      (x.1, if x.1.assembling then none else some ⟨pktPipe pkt, x.2.1, x.2.2⟩)
    if r.assembling = false then
      match rest with
      | [] => some (r, none)
      | hdr :: p => (firstSegmentAt r (pktChaining pkt) (pktPipe pkt) hdr p).map deliver
    else (nextSegmentAt r (pktChaining pkt) rest).map deliver

theorem firstSegment_eq (r : Receiver) (chaining pipe hdr : UInt8) (p : Bytes) :
    firstSegment r chaining pipe hdr p =
      (firstSegmentAt r chaining pipe hdr p).map fun x => (x.1, x.2.2.take x.2.1) := by
  unfold firstSegment firstSegmentAt
  dsimp only
  split
  · cases nfaHciAssembleMsg _ p <;> simp
  · split
    · cases nfaHciAssembleMsg _ p <;> simp
    · simp

theorem nextSegment_eq (r : Receiver) (chaining : UInt8) (p : Bytes) :
    nextSegment r chaining p =
      (nextSegmentAt r chaining p).map fun x => (x.1, x.2.2.take x.2.1) := by
  unfold nextSegment nextSegmentAt
  by_cases hf : r.assemblyFailed = true
  · simp only [hf, if_true, Option.bind_eq_bind, Option.bind_some]
    split <;> simp
  · simp only [hf, Bool.false_eq_true, if_false]
    cases nfaHciAssembleMsg r p with
    | none => rfl
    | some r' =>
      simp only [Option.bind_eq_bind, Option.bind_some]
      split <;> simp

theorem nfaHciConnCback_eq (r : Receiver) (pkt : Bytes) :
    nfaHciConnCback r pkt =
      (nfaHciConnCbackAt r pkt).map fun x =>
        (x.1, x.2.toList.map fun d => ⟨d.pipe, x.1.type, x.1.inst, d.mem.take d.len⟩) := by
  cases pkt with
  | nil => rfl
  | cons b rest =>
    simp only [nfaHciConnCback, nfaHciConnCbackAt, pktChaining, pktPipe, List.headD_cons]
    split
    · cases rest with
      | nil => rfl
      | cons hdr p =>
        simp only [firstSegment_eq, Option.map_map]
        congr 1
        funext x
        dsimp only [Function.comp]
        split <;> rfl
    · simp only [nextSegment_eq, Option.map_map]
      congr 1
      funext x
      dsimp only [Function.comp]
      split <;> rfl

/-! ## What the gates tell the applications -/

/-- Where a dynamic pipe ends; `unknown` if there is no such pipe, or no such gate. -/
inductive PipeGate where
  | identityMgmt | loopBack | connectivity | generic | unknown
  deriving DecidableEq, Repr

/-- What the dispatch of a packet finds. `networkUp` says that `hci_state` is behind the start
and the restore; `rspData`, `evtLen` and `evtBuf` are what the event of the API holds before it
is written. -/
structure Found where
  gate : PipeGate
  cmdSent : UInt8
  w4RspEvt : Bool
  networkUp : Bool
  rspData : Vector UInt8 nfaMaxHciRspLen
  evtLen : UInt16
  evtBuf : Bytes
  deriving DecidableEq, Repr

inductive RcvdEvt where
  | eventRcvd | rspRcvd
  deriving DecidableEq, Repr

/-- An event of the API: its length, and the memory from its pointer to the end of the buffer. -/
structure Told where
  evt : RcvdEvt
  len : Nat
  mem : Bytes
  deriving DecidableEq, Repr

section Gates
variable (found : Found) (type : UInt8) (dataLen : Nat) (pData : Bytes)

/-- A response is copied into the event, if it fits. -/
def tellRsp : Option (List Told) :=
  if dataLen ≤ nfaMaxHciRspLen then
    if dataLen ≤ pData.length then
      some [⟨.rspRcvd, dataLen, blit found.rspData.toList 0 (pData.take dataLen)⟩]
    else none
  else some [⟨.rspRcvd, dataLen, found.rspData.toList⟩]

def tellEvent : Option (List Told) := some [⟨.eventRcvd, dataLen, pData⟩]

def nfaHciHandleConnectivityGatePkt : Option (List Told) :=
  if type = nfaHciResponseType then tellRsp found dataLen pData
  else if type = nfaHciEventType then tellEvent dataLen pData
  else some []

def nfaHciHandleLoopbackGatePkt : Option (List Told) :=
  if type = nfaHciResponseType then tellRsp found dataLen pData
  else if type = nfaHciEventType ∧ found.w4RspEvt then tellEvent dataLen pData
  else some []

/-- `nfa_hci_handle_generic_gate_rsp`, whose `data_len` is one byte. -/
def nfaHciHandleGenericGateRsp : Option (List Told) :=
  if found.cmdSent ∈ [nfaHciAnyOpenPipe, nfaHciAnyClosePipe, nfaHciAnyGetParameter,
      nfaHciAnySetParameter] then some []
  else tellRsp found (dataLen % 256) pData

def nfaHciHandleDynPipePkt : Option (List Told) :=
  match found.gate with
  | .identityMgmt => some []
  | .unknown => some []
  | .loopBack => nfaHciHandleLoopbackGatePkt found type dataLen pData
  | .connectivity => nfaHciHandleConnectivityGatePkt found type dataLen pData
  | .generic =>
    if type = nfaHciResponseType then nfaHciHandleGenericGateRsp found dataLen pData
    else if type = nfaHciEventType then tellEvent dataLen pData
    else some []

end Gates

def nfaHciEvtHotPlug : UInt8 := 0x03

def nfaHciHandleAdminGateEvt (found : Found) (inst : UInt8) : List Told :=
  if inst ≠ nfaHciEvtHotPlug then []
  else if found.networkUp then
    -- only `evt_code` is set
    [⟨.eventRcvd, found.evtLen.toNat, found.evtBuf⟩]
  else []

/-- `nfa_hci_handle_generic_gate_evt` gives the application's buffer up. -/
def dropsRspBuf (found : Found) (pipe type : UInt8) : Bool :=
  nfaHciFirstDynamicPipe ≤ pipe && found.gate = .generic && type = nfaHciEventType

/-- What a message is reported as. -/
def toldOf (found : Found) (type inst : UInt8) (d : Pointed) : Option (List Told) :=
  if nfaHciFirstDynamicPipe ≤ d.pipe then nfaHciHandleDynPipePkt found type d.len d.mem
  else if d.pipe = nfaHciAdminPipe ∧ type = nfaHciEventType then
    some (nfaHciHandleAdminGateEvt found inst)
  else some []

/-! ## The run -/

structure Report extends Told where
  message : Bytes
  deriving DecidableEq, Repr

/-- The receiver, and what the applications were told. `message` is what arrived of the
message that is assembled. -/
structure EventCb where
  recv : Receiver
  later : Option Bytes
  message : Bytes
  reports : List Report
  deriving DecidableEq, Repr

inductive HciEvent where
  | packet (pkt : Bytes) (found : Found)
  | sendEvent (rspBuf : Bytes)
  | rspTimeout
  deriving DecidableEq, Repr

/-- `rsp_buf_size` and `p_rsp_buf`, from the request of the application. -/
def setRspBuf (r : Receiver) (b : Bytes) : Receiver :=
  { r with rspBufSize := b.length, pRspBuf := if b = [] then none else some b }

/-- The application's buffer from here on; a message that is being assembled keeps its own. -/
def EventCb.rspBuf (s : EventCb) (b : Bytes) : EventCb :=
  if s.recv.assembling then { s with later := some b }
  else { s with recv := setRspBuf s.recv b, later := none }

/-- What has arrived of a message with this packet. -/
def received (s : EventCb) (pkt : Bytes) : Bytes :=
  if s.recv.assembling then s.message ++ pkt.tail else pkt.drop 2

/-- The pointer of the code's own is given up. -/
def EventCb.settle (s : EventCb) : EventCb :=
  match s.later with
  | none => s
  | some b => s.rspBuf b

def step (s : EventCb) : HciEvent → Option EventCb
  | .packet pkt found => do
    let (r, d) ← nfaHciConnCbackAt s.recv pkt
    let s' : EventCb := { s with recv := r, message := received s pkt }
    match d with
    | none => return s'
    | some d =>
      let told ← toldOf found r.type r.inst d
      let s' := { s'.settle with reports := s.reports ++ told.map fun t => (⟨t, received s pkt⟩ : Report) }
      return if dropsRspBuf found d.pipe r.type then s'.rspBuf [] else s'
  | .sendEvent rspBuf => some (s.rspBuf rspBuf)
  | .rspTimeout =>
    -- `evt_len` is 0 and `p_evt_buf` null
    some ({ s with reports := s.reports ++ [(⟨⟨.eventRcvd, 0, []⟩, []⟩ : Report)] }.rspBuf [])

/-! ## Where the bytes of a message are -/

/-- What arrived of a message stands at the front of the receive buffer, as far as it has room. -/
structure Collects (r : Receiver) (body : Bytes) : Prop where
  len : r.msgLen = min body.length r.maxMsgLen
  bytes : r.buf.take r.msgLen = body.take r.maxMsgLen
  room : r.buf.length = r.maxMsgLen
  failed : r.assemblyFailed = true ↔ r.maxMsgLen < body.length
  pointer : r.pMsgData = .rspBuf → r.pRspBuf.isSome
  static : r.type ≠ nfaHciEventType → r.maxMsgLen = nfaMaxHciEventLen

structure Shows (n : Nat) (mem m : Bytes) : Prop where
  len : n = min m.length mem.length
  bytes : mem.take n = m.take mem.length

variable {r : Receiver}

theorem Collects.shows {body : Bytes} (h : Collects r body) :
    Shows r.msgLen r.buf body := ⟨by rw [h.room, h.len], by rw [h.room, h.bytes]⟩

/-- The type of the message a packet belongs to. -/
def messageType (r : Receiver) (pkt : Bytes) : UInt8 :=
  if r.assembling then r.type else ((pkt.drop 1).headD 0 >>> 6) &&& 3

def messageInst (r : Receiver) (pkt : Bytes) : UInt8 :=
  if r.assembling then r.inst else (pkt.drop 1).headD 0 &&& 0x3F

/-- The packet is an event on a dynamic pipe, of which no more follows. -/
def SingleEvent (r : Receiver) (pkt : Bytes) : Prop :=
  r.assembling = false ∧ pktChaining pkt ≠ nfaHciMessageFragmentation ∧
    nfaHciFirstDynamicPipe ≤ pktPipe pkt ∧ messageType r pkt = nfaHciEventType

instance (r : Receiver) (pkt : Bytes) : Decidable (SingleEvent r pkt) :=
  inferInstanceAs (Decidable (_ ∧ _))

/-- An event in one packet fits the buffer it is put into. -/
def SingleFits (s : EventCb) (pkt : Bytes) : Prop :=
  SingleEvent s.recv pkt →
    (received s pkt).length ≤ s.recv.capacity (pktPipe pkt) nfaHciEventType

instance (s : EventCb) (pkt : Bytes) : Decidable (SingleFits s pkt) :=
  inferInstanceAs (Decidable (_ → _))

variable {s : EventCb}

/-- What is reported lies in its buffer and is the front of the message, cut at the end of
the buffer only. -/
structure Report.Right (t : Report) : Prop where
  inside : t.len ≤ t.mem.length
  front : t.mem.take t.len <+: t.message
  whole : t.len = min t.message.length t.mem.length

def tellsEvents (found : Found) : Bool :=
  match found.gate with
  | .generic => true
  | .connectivity => true
  | .loopBack => found.w4RspEvt
  | .identityMgmt => false
  | .unknown => false

def tellsRsps (found : Found) : Bool :=
  match found.gate with
  | .generic => found.cmdSent ∉ [nfaHciAnyOpenPipe, nfaHciAnyClosePipe, nfaHciAnyGetParameter,
      nfaHciAnySetParameter]
  | .connectivity => true
  | .loopBack => true
  | .identityMgmt => false
  | .unknown => false

/-- The packet completes a response of more than 255 bytes, on a gate that reports it. -/
def LongRsp (s : EventCb) (pkt : Bytes) (found : Found) : Prop :=
  messageType s.recv pkt = nfaHciResponseType ∧ tellsRsps found = true ∧
    pktChaining pkt ≠ nfaHciMessageFragmentation ∧ nfaHciFirstDynamicPipe ≤ pktPipe pkt ∧
    nfaMaxHciRspLen < (received s pkt).length

instance (s : EventCb) (pkt : Bytes) (found : Found) : Decidable (LongRsp s pkt found) :=
  inferInstanceAs (Decidable (_ ∧ _))

/-- The packet completes a hot plug event, which is reported with neither length nor pointer. -/
def HotPlug (s : EventCb) (pkt : Bytes) (found : Found) : Prop :=
  messageType s.recv pkt = nfaHciEventType ∧ messageInst s.recv pkt = nfaHciEvtHotPlug ∧
    pktChaining pkt ≠ nfaHciMessageFragmentation ∧ pktPipe pkt = nfaHciAdminPipe ∧
    found.networkUp = true

instance (s : EventCb) (pkt : Bytes) (found : Found) : Decidable (HotPlug s pkt found) :=
  inferInstanceAs (Decidable (_ ∧ _))

def Fits (s : EventCb) : HciEvent → Prop
  | .packet pkt found =>
    (tellsEvents found = true → SingleFits s pkt) ∧ ¬ LongRsp s pkt found ∧ ¬ HotPlug s pkt found
  | .sendEvent _ => True
  | .rspTimeout => True

instance (s : EventCb) : ∀ e, Decidable (Fits s e)
  | .packet _ _ => inferInstanceAs (Decidable (_ ∧ _))
  | .sendEvent _ => .isTrue trivial
  | .rspTimeout => .isTrue trivial

structure EventCb.Inv (s : EventCb) : Prop where
  wf : s.recv.Wf
  collects : s.recv.assembling = true → Collects s.recv s.message
  right : ∀ t ∈ s.reports, t.Right

theorem wf_setRspBuf (hw : r.Wf) (b : Bytes) : (setRspBuf r b).Wf := by
  refine ⟨hw.msgData, fun c hc => ?_⟩
  simp only [setRspBuf] at hc ⊢
  split at hc
  · simp at hc
  · rw [Option.mem_some.mp hc]

theorem EventCb.Inv.rspBuf (h : s.Inv) (b : Bytes) : (s.rspBuf b).Inv := by
  unfold EventCb.rspBuf
  split
  · exact ⟨h.wf, h.collects, h.right⟩
  · next hasm => exact ⟨wf_setRspBuf h.wf b, fun hc => absurd hc hasm, h.right⟩

theorem EventCb.Inv.settle (h : s.Inv) : s.settle.Inv := by
  unfold EventCb.settle
  split
  · exact h
  · exact h.rspBuf _

theorem EventCb.Inv.report (h : s.Inv) {ts : List Report} (hts : ∀ t ∈ ts, t.Right) :
    EventCb.Inv { s with reports := s.reports ++ ts } := by
  refine ⟨h.wf, h.collects, fun t ht => ?_⟩
  obtain ht | ht := List.mem_append.mp ht
  · exact h.right t ht
  · exact hts t ht

end NfcStack.Hci.Received
