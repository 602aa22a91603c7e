import NfcStack.Lib.Frames
import NfcStack.Lib.Bytes
import NfcStack.Lib.Run

/- HCP segmentation (`nfa_hci_utils.cc`: `nfa_hciu_send_msg`) and reassembly
   (`nfa_hci_main.cc`: `nfa_hci_conn_cback`, `nfa_hci_set_receive_buf`,
   `nfa_hci_assemble_msg`). The first packet of a message carries the pipe byte
   and the type/instruction byte, later ones the pipe byte only.

   What is proved:
     1. `sendSegments_cut`: the packets are the instruction byte and the message,
        cut into frames of `buff_size - 1`, as far as buffers last.
     2. `connCback_cut`: the receive side turns such packets into one message.
     3. `hcp_round_trip_iff`: sender and receiver agree on every message exactly
        when `*p_msg` can be read if the instruction is ANY_GET_PARAMETER, and
        the buffers last.
     4. `hcp_no_round_trip_empty_event`: an empty event 2 with a null pointer
        faults. `param_in_use` is read from `p_msg` before its length matters.

   `none` is an access outside the memory the caller owns. A pointer is the
   bytes readable from it on, `none` if null. `getpoolbuf n` says whether the
   n-th allocation of a call succeeds; with `DYN_ALLOC` the pool aborts instead
   of failing, so the branch is dead in the shipped build. -/
namespace NfcStack.Hci
open NfcStack.Lib

abbrev Bytes := List UInt8

/-! ## The sender -/

def nciDataHdrSize : Nat := 3
def nfaHciMessageFragmentation : UInt8 := 0
def nfaHciNoMessageFragmentation : UInt8 := 1
def nfaHciCommandType : UInt8 := 0
def nfaHciEventType : UInt8 := 1
def nfaHciResponseType : UInt8 := 2
def nfaHciAnyGetParameter : UInt8 := 2
def nfaHciFirstDynamicPipe : UInt8 := 2
def nfaMaxHciEventLen : Nat := 300

inductive NfaStatus where
  | ok | failed | noBuffers
  deriving DecidableEq, Repr

inductive HciState where
  | disabled | startup | waitNetwkEnable | idle | waitRsp | removeGate | appDeregister | restore
  | restoreNetwkEnable | eeRecovery
  deriving DecidableEq, Repr

/-- What `nfa_hciu_send_msg` reads and writes of `nfa_hci_cb`. -/
structure Sender where
  buffSize : UInt8
  paramInUse : UInt8
  cmdSent : UInt8
  hciState : HciState
  rspTimer : Bool
  deriving DecidableEq, Repr

/-- The pipe byte of a packet: the chaining bit over the pipe id. -/
def hcpHeader (chaining pipeId : UInt8) : UInt8 := (chaining <<< 7) ||| (pipeId &&& 0x7F)

def msgHeader (type instruction : UInt8) : UInt8 := (type <<< 6) ||| instruction

section Send
variable (getpoolbuf : Nat → Bool) (nfcSendData : Bytes → NfaStatus)

/-- The `while` loop of `nfc_hciu_send_msg`. `msgHdr` is there on the first
packet only; `msg` is the memory from `p_msg` on. -/
def sendSegments (maxSeg : Nat) (pipeId : UInt8) :
    Nat → Option UInt8 → Nat → Nat → Bytes → NfaStatus → List Bytes → Option (NfaStatus × List Bytes)
  | 0, _, _, _, _, _, _ => none
  | fuel + 1, msgHdr, allocs, msgLen, msg, status, out =>
    if msgHdr.isSome ∨ msgLen ≠ 0 then
      if getpoolbuf allocs then
        let cap := if msgHdr.isSome then maxSeg - 2 else maxSeg - 1
        let chaining :=
          if msgLen > cap then nfaHciMessageFragmentation else nfaHciNoMessageFragmentation
        let dataLen := if msgLen > cap then cap else msgLen
        if dataLen ≤ msg.length then
          let pkt := hcpHeader chaining pipeId :: (msgHdr.toList ++ msg.take dataLen)
          sendSegments maxSeg pipeId fuel none (allocs + 1) (msgLen - dataLen) (msg.drop dataLen)
            (nfcSendData pkt) (out ++ [pkt])
        else none
      else some (.noBuffers, out)
    else some (status, out)

/-- `nfa_hci_cb.param_in_use = *p_msg`, for ANY_GET_PARAMETER. -/
def readParam (cb : Sender) (instruction : UInt8) (pMsg : Option Bytes) : Option Sender :=
  if instruction = nfaHciAnyGetParameter then
    (pMsg.bind List.head?).map fun b => { cb with paramInUse := b }
  else some cb

/-- A command waits for its response. -/
def awaitResponse (cb : Sender) (type instruction : UInt8) : Sender :=
  if type = nfaHciCommandType then
    { cb with
      cmdSent := instruction
      hciState := if cb.hciState = .idle then .waitRsp else cb.hciState
      rspTimer := true }
  else cb

def nfaHciuSendMsg (cb : Sender) (pipeId type instruction : UInt8) (msgLen : Nat)
    (pMsg : Option Bytes) : Option (NfaStatus × Sender × List Bytes) :=
  if msgLen ≠ 0 ∧ pMsg = none then some (.failed, cb, [])
  else if cb.buffSize.toNat ≤ nciDataHdrSize + 2 then some (.noBuffers, cb, [])
  else
    (readParam cb instruction pMsg).bind fun cb' =>
      (sendSegments getpoolbuf nfcSendData cb.buffSize.toNat pipeId (msgLen + 2)
        (some (msgHeader type instruction)) 0 msgLen (pMsg.getD []) .ok []).map fun x =>
          (x.1, awaitResponse cb' type instruction, x.2)

end Send

/-! ## The receiver -/

inductive RecvBuf where
  | msgData | rspBuf
  deriving DecidableEq, Repr

/-- What the reassembly reads and writes of `nfa_hci_cb`. -/
structure Receiver where
  type : UInt8
  inst : UInt8
  assembling : Bool
  assemblyFailed : Bool
  msgLen : Nat
  maxMsgLen : Nat
  msgData : Bytes
  pMsgData : RecvBuf
  rspBufSize : Nat
  pRspBuf : Option Bytes
  deriving DecidableEq, Repr

/-- The arrays are as long as they are declared. -/
structure Receiver.Wf (r : Receiver) : Prop where
  msgData : r.msgData.length = nfaMaxHciEventLen
  rspBuf : ∀ b ∈ r.pRspBuf, b.length = r.rspBufSize

/-- A complete message, as it is handed to the gate handlers. -/
structure HcpMessage where
  pipe : UInt8
  type : UInt8
  inst : UInt8
  data : Bytes
  deriving DecidableEq, Repr

def Receiver.buf (r : Receiver) : Bytes :=
  match r.pMsgData with
  | .msgData => r.msgData
  | .rspBuf => r.pRspBuf.getD []

def Receiver.setBuf (r : Receiver) (b : Bytes) : Receiver :=
  match r.pMsgData with
  | .msgData => { r with msgData := b }
  | .rspBuf => { r with pRspBuf := some b }

def nfaHciSetReceiveBuf (r : Receiver) (pipe : UInt8) : Receiver :=
  if nfaHciFirstDynamicPipe ≤ pipe ∧ r.type = nfaHciEventType ∧ r.rspBufSize ≠ 0 ∧
      r.pRspBuf.isSome then
    { r with pMsgData := .rspBuf, maxMsgLen := r.rspBufSize }
  else { r with pMsgData := .msgData, maxMsgLen := nfaMaxHciEventLen }

/-- `memcpy(&p_msg_data[msg_len], p_data, n)`. -/
def Receiver.copyIn (r : Receiver) (bs : Bytes) : Option Receiver :=
  if r.msgLen + bs.length ≤ r.buf.length then some (r.setBuf (blit r.buf r.msgLen bs)) else none

def nfaHciAssembleMsg (r : Receiver) (pData : Bytes) : Option Receiver :=
  if r.msgLen + pData.length > r.maxMsgLen then
    (r.copyIn (pData.take (r.maxMsgLen - r.msgLen))).map fun r =>
      { r with msgLen := r.maxMsgLen, assemblyFailed := true }
  else (r.copyIn pData).map fun r => { r with msgLen := r.msgLen + pData.length }

/-- The first packet of a message, after the pipe byte. The bytes `p` points to
and `pkt_len` go to the handler if the message is complete. -/
def firstSegment (r : Receiver) (chaining pipe hdr : UInt8) (p : Bytes) :
    Option (Receiver × Bytes) := do
  let r := { r with
    type := (hdr >>> 6) &&& 3
    inst := hdr &&& 0x3F
    assemblyFailed := false
    msgLen := 0 }
  if chaining = nfaHciMessageFragmentation then
    let r ← nfaHciAssembleMsg (nfaHciSetReceiveBuf { r with assembling := true } pipe) p
    return (r, p)
  else if nfaHciFirstDynamicPipe ≤ pipe ∧ r.type = nfaHciEventType then
    let r ← nfaHciAssembleMsg (nfaHciSetReceiveBuf r pipe) p
    return (r, r.buf.take p.length)
  else return (r, p)

/-- A later packet of a message, after the pipe byte. -/
def nextSegment (r : Receiver) (chaining : UInt8) (p : Bytes) : Option (Receiver × Bytes) := do
  let r ← if r.assemblyFailed then some r else nfaHciAssembleMsg r p
  if chaining = nfaHciNoMessageFragmentation then
    let r := { r with assembling := false }
    return (r, r.buf.take r.msgLen)
  else return (r, p)

/-- `nfa_hci_conn_cback` for `NFC_DATA_CEVT`, up to the dispatch to the gates. -/
def nfaHciConnCback (r : Receiver) (pkt : Bytes) : Option (Receiver × List HcpMessage) :=
  match pkt with
  | [] => some (r, [])
  | b :: rest =>
    let chaining := (b >>> 7) &&& 1
    let pipe := b &&& 0x7F
    let deliver (x : Receiver × Bytes) : Receiver × List HcpMessage :=
      (x.1, if x.1.assembling then [] else [⟨pipe, x.1.type, x.1.inst, x.2⟩])
    if r.assembling = false then
      match rest with
      | [] => some (r, [])
      | hdr :: p => (firstSegment r chaining pipe hdr p).map deliver
    else (nextSegment r chaining rest).map deliver

/-- The messages a sequence of packets amounts to. -/
def receiveAll : Receiver → List Bytes → Option (Receiver × List HcpMessage)
  | r, [] => some (r, [])
  | r, pkt :: pkts => do
    let (r, ms) ← nfaHciConnCback r pkt
    let (r, ms') ← receiveAll r pkts
    return (r, ms ++ ms')

/-! ## What the sender emits -/

/-- A frame as a packet on a pipe. -/
def hcpPacket (pipeId : UInt8) (f : Frame UInt8) : Bytes :=
  hcpHeader (if f.more then nfaHciMessageFragmentation else nfaHciNoMessageFragmentation) pipeId ::
    f.payload

/-- The allocations for a message with `k` fragments before its last packet. -/
def BuffersFor (getpoolbuf : Nat → Bool) (allocs k : Nat) : Prop :=
  ∀ j ≤ k, getpoolbuf (allocs + j) = true

theorem buffersFor_succ {getpoolbuf : Nat → Bool} {allocs k : Nat} (h : getpoolbuf allocs = true) :
    BuffersFor getpoolbuf allocs (k + 1) ↔ BuffersFor getpoolbuf (allocs + 1) k := by
  constructor
  · intro hb j hj
    have hj' := hb (j + 1) (by omega)
    rwa [← Nat.add_assoc, Nat.add_right_comm] at hj'
  · intro hb j hj
    cases j with
    | zero => exact h
    | succ j =>
      have hj' := hb j (by omega)
      rwa [Nat.add_right_comm, Nat.add_assoc] at hj'

section Sent
variable {getpoolbuf : Nat → Bool} {nfcSendData : Bytes → NfaStatus}

/-- The frames sent are the whole message, cut, if the buffers last; and none of
them ends it otherwise. -/
def SentFrames (getpoolbuf : Nat → Bool) (n allocs : Nat) (body : Bytes)
    (fs : List (Frame UInt8)) : Prop :=
  BuffersFor getpoolbuf allocs (frags n body.length) ∧ Cut n body fs ∨
    ¬ BuffersFor getpoolbuf allocs (frags n body.length) ∧ ∀ f ∈ fs, f.more = true

theorem sentFrames_none {n allocs : Nat} {body : Bytes} (h : getpoolbuf allocs ≠ true) :
    SentFrames getpoolbuf n allocs body [] :=
  Or.inr ⟨fun hb => h (hb 0 (Nat.zero_le _)), by simp⟩

theorem sentFrames_last {n allocs : Nat} {body : Bytes} (h : getpoolbuf allocs = true)
    (hb : body.length ≤ n) : SentFrames getpoolbuf n allocs body [⟨false, body⟩] := by
  refine Or.inl ⟨?_, .last hb⟩
  intro j hj
  have hj0 : j = 0 := by simpa [frags_short hb] using hj
  rw [hj0]; exact h

theorem sentFrames_more {n allocs : Nat} {p body : Bytes} {fs : List (Frame UInt8)} (hn : 1 ≤ n)
    (h : getpoolbuf allocs = true) (hp : p.length = n) (hbody : body ≠ [])
    (hfs : SentFrames getpoolbuf n (allocs + 1) body fs) :
    SentFrames getpoolbuf n allocs (p ++ body) (⟨true, p⟩ :: fs) := by
  have hpos : 0 < body.length := List.length_pos_iff.mpr hbody
  have hfrags : frags n (p ++ body).length = frags n body.length + 1 := by
    rw [frags_long hn (by simp; omega)]
    simp [hp]
  unfold SentFrames
  rw [hfrags, buffersFor_succ h]
  obtain ⟨hb, hcut⟩ | ⟨hb, hmore⟩ := hfs
  · exact Or.inl ⟨hb, .more hp hcut⟩
  · exact Or.inr ⟨hb, by simpa using hmore⟩

theorem sendSegments_cut {maxSeg : Nat} (hseg : 5 < maxSeg) (pipeId : UInt8) :
    ∀ (fuel : Nat) (msgHdr : Option UInt8) (allocs msgLen : Nat) (msg : Bytes) (status : NfaStatus)
      (out : List Bytes), msgLen ≤ msg.length → msgHdr.isSome ∨ msgLen ≠ 0 →
      msgHdr.toList.length + msgLen < fuel →
      ∃ st fs, sendSegments getpoolbuf nfcSendData maxSeg pipeId fuel msgHdr allocs msgLen msg status
          out = some (st, out ++ fs.map (hcpPacket pipeId)) ∧
        SentFrames getpoolbuf (maxSeg - 1) allocs (msgHdr.toList ++ msg.take msgLen) fs := by
  intro fuel
  induction fuel with
  | zero => intro _ _ _ _ _ _ _ _ hf; omega
  | succ fuel ih =>
    intro msgHdr allocs msgLen msg status out hlen hdue hf
    by_cases hbuf : getpoolbuf allocs = true
    · -- the room left in a packet, counted with the header byte
      obtain ⟨cap, hcap, hroom⟩ : ∃ cap, (if msgHdr.isSome then maxSeg - 2 else maxSeg - 1) = cap ∧
          msgHdr.toList.length + cap = maxSeg - 1 := by
        cases msgHdr <;> refine ⟨_, rfl, ?_⟩ <;> simp
        omega
      by_cases hmore : msgLen > cap
      · have hrest : (msg.drop cap).take (msgLen - cap) ≠ [] := by
          intro hnil
          have := congrArg List.length hnil
          simp at this
          omega
        obtain ⟨st, fs, hrun, hfs⟩ := ih none (allocs + 1) (msgLen - cap) (msg.drop cap)
          (nfcSendData (hcpPacket pipeId ⟨true, msgHdr.toList ++ msg.take cap⟩))
          (out ++ [hcpPacket pipeId ⟨true, msgHdr.toList ++ msg.take cap⟩])
          (by simp; omega) (Or.inr (by omega)) (by simp; omega)
        refine ⟨st, ⟨true, msgHdr.toList ++ msg.take cap⟩ :: fs, ?_, ?_⟩
        · rw [sendSegments, if_pos hdue, if_pos hbuf]
          simp only [hcap, if_pos hmore, if_pos (show cap ≤ msg.length by omega)]
          simpa [hcpPacket] using hrun
        · have hsplit : msg.take msgLen = msg.take cap ++ (msg.drop cap).take (msgLen - cap) := by
            conv_lhs => rw [show msgLen = cap + (msgLen - cap) by omega, List.take_add]
          rw [hsplit, ← List.append_assoc]
          exact sentFrames_more (by omega) hbuf (by simp; omega) hrest (by simpa using hfs)
      · refine ⟨nfcSendData (hcpPacket pipeId ⟨false, msgHdr.toList ++ msg.take msgLen⟩),
          [⟨false, msgHdr.toList ++ msg.take msgLen⟩], ?_, sentFrames_last hbuf (by simp; omega)⟩
        rw [sendSegments, if_pos hdue, if_pos hbuf]
        simp only [hcap, if_neg hmore, if_pos hlen, Nat.sub_self]
        cases fuel with
        | zero => cases msgHdr <;> simp at hf hdue; omega
        | succ fuel => simp [sendSegments, hcpPacket]
    · exact ⟨.noBuffers, [], by rw [sendSegments, if_pos hdue, if_neg hbuf]; simp,
        sentFrames_none hbuf⟩

end Sent

/-! ## What the receiver makes of it -/

theorem chaining_hcpHeader {chaining : UInt8} (pipeId : UInt8) (hc : chaining = 0 ∨ chaining = 1) :
    (hcpHeader chaining pipeId >>> 7) &&& 1 = chaining := by
  have hall : ∀ n < 256, ∀ c < 2,
      (hcpHeader (UInt8.ofNat c) (UInt8.ofNat n) >>> 7) &&& 1 = UInt8.ofNat c := by
    decide +kernel
  have hp : UInt8.ofNat pipeId.toNat = pipeId := UInt8.ofNat_toNat
  obtain rfl | rfl := hc
  · simpa [hp] using hall pipeId.toNat pipeId.toNat_lt 0 (by omega)
  · simpa [hp] using hall pipeId.toNat pipeId.toNat_lt 1 (by omega)

theorem pipe_hcpHeader {chaining pipeId : UInt8} (hc : chaining = 0 ∨ chaining = 1)
    (hp : pipeId.toNat < 0x80) : hcpHeader chaining pipeId &&& 0x7F = pipeId := by
  have hall : ∀ n < 0x80, ∀ c < 2,
      hcpHeader (UInt8.ofNat c) (UInt8.ofNat n) &&& 0x7F = UInt8.ofNat n := by
    decide +kernel
  have hp' : UInt8.ofNat pipeId.toNat = pipeId := UInt8.ofNat_toNat
  obtain rfl | rfl := hc
  · simpa [hp'] using hall pipeId.toNat hp 0 (by omega)
  · simpa [hp'] using hall pipeId.toNat hp 1 (by omega)

theorem msgHeader_fields {type instruction : UInt8} (ht : type.toNat < 4)
    (hi : instruction.toNat < 64) :
    (msgHeader type instruction >>> 6) &&& 3 = type ∧
      msgHeader type instruction &&& 0x3F = instruction := by
  have hall : ∀ t < 4, ∀ i < 64,
      (msgHeader (UInt8.ofNat t) (UInt8.ofNat i) >>> 6) &&& 3 = UInt8.ofNat t ∧
        msgHeader (UInt8.ofNat t) (UInt8.ofNat i) &&& 0x3F = UInt8.ofNat i := by
    decide +kernel
  simpa using hall type.toNat ht instruction.toNat hi

/-- The bytes assembled so far stand at the front of the receive buffer. -/
structure Holds (r : Receiver) (body : Bytes) : Prop where
  len : r.msgLen = body.length
  bytes : r.buf.take body.length = body
  room : r.maxMsgLen ≤ r.buf.length
  ok : r.assemblyFailed = false

structure SameMessage (r r' : Receiver) : Prop where
  type : r'.type = r.type
  inst : r'.inst = r.inst
  assembling : r'.assembling = r.assembling
  maxMsgLen : r'.maxMsgLen = r.maxMsgLen

@[simp] theorem Receiver.buf_setBuf (r : Receiver) (b : Bytes) : (r.setBuf b).buf = b := by
  cases h : r.pMsgData <;> simp [Receiver.setBuf, Receiver.buf, h]

theorem Receiver.sameMessage_setBuf (r : Receiver) (b : Bytes) : SameMessage r (r.setBuf b) := by
  cases h : r.pMsgData <;> constructor <;> simp [Receiver.setBuf, h]

theorem Receiver.assemblyFailed_setBuf (r : Receiver) (b : Bytes) :
    (r.setBuf b).assemblyFailed = r.assemblyFailed := by
  cases h : r.pMsgData <;> simp [Receiver.setBuf, h]

theorem Receiver.msgLen_setBuf (r : Receiver) (b : Bytes) : (r.setBuf b).msgLen = r.msgLen := by
  cases h : r.pMsgData <;> simp [Receiver.setBuf, h]

variable {r : Receiver}

theorem nfaHciAssembleMsg_holds {body p : Bytes} (h : Holds r body)
    (hfit : body.length + p.length ≤ r.maxMsgLen) :
    ∃ r', nfaHciAssembleMsg r p = some r' ∧ Holds r' (body ++ p) ∧ SameMessage r r' := by
  have hroom := h.room
  have hlen := h.len
  have hin : r.msgLen + p.length ≤ r.buf.length := by omega
  have hsame := r.sameMessage_setBuf (blit r.buf r.msgLen p)
  refine ⟨{ r.setBuf (blit r.buf r.msgLen p) with
      msgLen := (r.setBuf (blit r.buf r.msgLen p)).msgLen + p.length }, ?_, ⟨?_, ?_, ?_, ?_⟩,
    ⟨hsame.type, hsame.inst, hsame.assembling, hsame.maxMsgLen⟩⟩
  · rw [nfaHciAssembleMsg, if_neg (by omega), Receiver.copyIn, if_pos hin]
    rfl
  · simp [Receiver.msgLen_setBuf, hlen]
  · change (r.setBuf _).buf.take _ = _
    rw [Receiver.buf_setBuf, blit, List.length_append, ← hlen,
      List.take_append_of_le_length (by simp; omega), List.take_of_length_le (by simp), hlen,
      h.bytes]
  · change (r.setBuf _).maxMsgLen ≤ (r.setBuf _).buf.length
    rw [Receiver.buf_setBuf, length_blit hin, hsame.maxMsgLen]
    exact hroom
  · exact (r.assemblyFailed_setBuf _).trans h.ok

theorem receiveAll_cons {r r' : Receiver} {pkt : Bytes} {pkts : List Bytes} {ms : List HcpMessage}
    (h : nfaHciConnCback r pkt = some (r', ms)) :
    receiveAll r (pkt :: pkts) = (receiveAll r' pkts).map fun x => (x.1, ms ++ x.2) := by
  cases hr : receiveAll r' pkts <;> simp [receiveAll, h, hr]

theorem receiveAll_next {n : Nat} {pipeId : UInt8} (hp : pipeId.toNat < 0x80) {body : Bytes}
    {fs : List (Frame UInt8)} (hcut : Cut n body fs) :
    ∀ (r : Receiver) (pre : Bytes), r.assembling = true → Holds r pre →
      pre.length + body.length ≤ r.maxMsgLen →
      ∃ r', receiveAll r (fs.map (hcpPacket pipeId)) =
        some (r', [⟨pipeId, r.type, r.inst, pre ++ body⟩]) := by
  induction hcut with
  | @last body hb =>
    intro r pre hasm hold hfit
    obtain ⟨r', hr', hold', hsame⟩ := nfaHciAssembleMsg_holds hold hfit
    have hchain := chaining_hcpHeader pipeId (Or.inr (rfl : (1 : UInt8) = 1))
    have hpipe := pipe_hcpHeader (Or.inr (rfl : (1 : UInt8) = 1)) hp
    have hseg : nextSegment r 1 body = some ({ r' with assembling := false }, pre ++ body) := by
      simp only [nextSegment, hold.ok, hr', nfaHciNoMessageFragmentation, if_true]
      change some (_, r'.buf.take r'.msgLen) = _
      rw [hold'.len, hold'.bytes]
    refine ⟨{ r' with assembling := false }, ?_⟩
    simp [receiveAll, nfaHciConnCback, hcpPacket, nfaHciNoMessageFragmentation, hchain,
      hpipe, hasm, hseg, hsame.type, hsame.inst]
  | @more p body fs hlen hcut ih =>
    intro r pre hasm hold hfit
    rw [List.length_append] at hfit
    obtain ⟨r', hr', hold', hsame⟩ := nfaHciAssembleMsg_holds (p := p) hold (by omega)
    obtain ⟨r'', hr''⟩ := ih r' (pre ++ p) (by rw [hsame.assembling, hasm]) hold'
      (by rw [hsame.maxMsgLen, List.length_append]; omega)
    have hchain := chaining_hcpHeader pipeId (Or.inl (rfl : (0 : UInt8) = 0))
    have hstep : nfaHciConnCback r (hcpPacket pipeId ⟨true, p⟩) = some (r', []) := by
      simp [nfaHciConnCback, hcpPacket, nextSegment, nfaHciMessageFragmentation,
        nfaHciNoMessageFragmentation, hchain, hasm, hold.ok, hr', hsame.assembling]
    refine ⟨r'', ?_⟩
    rw [List.map_cons, receiveAll_cons hstep, hr'', hsame.type, hsame.inst]
    simp

/-- The size of the receive buffer for a message of this type on this pipe. -/
def Receiver.capacity (r : Receiver) (pipe type : UInt8) : Nat :=
  (nfaHciSetReceiveBuf { r with type := type } pipe).maxMsgLen

theorem holds_setReceiveBuf (hw : r.Wf) (h0 : r.msgLen = 0)
    (hok : r.assemblyFailed = false) (pipe : UInt8) : Holds (nfaHciSetReceiveBuf r pipe) [] := by
  unfold nfaHciSetReceiveBuf
  split
  · next h =>
    obtain ⟨b, hb⟩ := Option.isSome_iff_exists.mp h.2.2.2
    have hlen := hw.rspBuf b hb
    exact ⟨h0, by simp, by simp [Receiver.buf, hb, hlen], hok⟩
  · exact ⟨h0, by simp, by simp [Receiver.buf, hw.msgData], hok⟩

theorem setReceiveBuf_fields (r : Receiver) (pipe : UInt8) :
    (nfaHciSetReceiveBuf r pipe).type = r.type ∧ (nfaHciSetReceiveBuf r pipe).inst = r.inst ∧
      (nfaHciSetReceiveBuf r pipe).assembling = r.assembling := by
  unfold nfaHciSetReceiveBuf
  split <;> exact ⟨rfl, rfl, rfl⟩

/-- The state in which the first packet of a message is assembled. -/
def Receiver.begin (r : Receiver) (type inst : UInt8) (more : Bool) (pipe : UInt8) : Receiver :=
  nfaHciSetReceiveBuf
    { r with type := type, inst := inst, assemblyFailed := false, msgLen := 0, assembling := more }
    pipe

theorem Receiver.begin_spec (hw : r.Wf) (type inst : UInt8) (more : Bool) (pipe : UInt8) :
    Holds (r.begin type inst more pipe) [] ∧ (r.begin type inst more pipe).type = type ∧
      (r.begin type inst more pipe).inst = inst ∧
      (r.begin type inst more pipe).assembling = more ∧
      (r.begin type inst more pipe).maxMsgLen = r.capacity pipe type := by
  refine ⟨?_, ?_, ?_, ?_, ?_⟩
  · have hw' : Receiver.Wf { r with
        type := type, inst := inst, assemblyFailed := false, msgLen := 0, assembling := more } :=
      ⟨hw.msgData, hw.rspBuf⟩
    exact holds_setReceiveBuf hw' rfl rfl pipe
  · exact (setReceiveBuf_fields _ pipe).1
  · exact (setReceiveBuf_fields _ pipe).2.1
  · exact (setReceiveBuf_fields _ pipe).2.2
  · unfold Receiver.begin Receiver.capacity nfaHciSetReceiveBuf
    simp only
    split <;> rfl

theorem firstSegment_last (hw : r.Wf) (hasm : r.assembling = false)
    {pipe hdr type inst : UInt8} (ht : (hdr >>> 6) &&& 3 = type) (hi : hdr &&& 0x3F = inst) {p : Bytes}
    (hfit : p.length ≤ r.capacity pipe type) :
    ∃ r', firstSegment r 1 pipe hdr p = some (r', p) ∧ r'.assembling = false ∧ r'.type = type ∧
      r'.inst = inst := by
  by_cases hev : nfaHciFirstDynamicPipe ≤ pipe ∧ type = nfaHciEventType
  · obtain ⟨hold, htype, hinst, hasm', hmax⟩ := Receiver.begin_spec hw type inst false pipe
    obtain ⟨r', hr', hold', hsame⟩ := nfaHciAssembleMsg_holds (p := p) hold (by simpa [hmax] using hfit)
    have hbytes : r'.buf.take p.length = p := by simpa using hold'.bytes
    refine ⟨r', ?_, by rw [hsame.assembling, hasm'], by rw [hsame.type, htype],
      by rw [hsame.inst, hinst]⟩
    rw [Receiver.begin] at hr'
    simp only [firstSegment, ht, hi, hasm, nfaHciMessageFragmentation]
    rw [if_neg (by decide), if_pos hev, hr']
    exact congrArg (fun b => some (r', b)) hbytes
  · refine ⟨{ r with type := type, inst := inst, assemblyFailed := false, msgLen := 0 }, ?_, hasm,
      rfl, rfl⟩
    simp only [firstSegment, ht, hi, nfaHciMessageFragmentation]
    rw [if_neg (by decide), if_neg hev]
    rfl

theorem connCback_cut {n : Nat} (hn : 1 ≤ n) {pipeId type inst : UInt8} (hp : pipeId.toNat < 0x80)
    (ht : type.toNat < 4) (hi : inst.toNat < 64) (hw : r.Wf)
    (hasm : r.assembling = false) {msg : Bytes} (hfit : msg.length ≤ r.capacity pipeId type)
    {fs : List (Frame UInt8)} (hcut : Cut n (msgHeader type inst :: msg) fs) :
    ∃ r', receiveAll r (fs.map (hcpPacket pipeId)) = some (r', [⟨pipeId, type, inst, msg⟩]) := by
  obtain ⟨htype, hinst⟩ := msgHeader_fields ht hi
  generalize hbody : msgHeader type inst :: msg = body at hcut
  cases hcut with
  | last hb =>
    subst hbody
    obtain ⟨r', hseg, hasm', ht', hi'⟩ := firstSegment_last hw hasm htype hinst hfit
    have hchain := chaining_hcpHeader pipeId (Or.inr (rfl : (1 : UInt8) = 1))
    have hpipe := pipe_hcpHeader (Or.inr (rfl : (1 : UInt8) = 1)) hp
    refine ⟨r', ?_⟩
    simp [receiveAll, nfaHciConnCback, hcpPacket, nfaHciNoMessageFragmentation, hchain, hpipe, hasm,
      hseg, hasm', ht', hi']
  | @more p body fs hlen hcut =>
    obtain ⟨p', rfl, rfl⟩ : ∃ p', p = msgHeader type inst :: p' ∧ msg = p' ++ body := by
      cases p with
      | nil => simp at hlen; omega
      | cons b p' =>
        obtain ⟨rfl, rfl⟩ := List.cons.inj hbody
        exact ⟨p', rfl, rfl⟩
    obtain ⟨hold, ht', hi', hasm', hmax⟩ := Receiver.begin_spec hw type inst true pipeId
    rw [List.length_append] at hfit
    obtain ⟨r', hr', hold', hsame⟩ := nfaHciAssembleMsg_holds (p := p') hold
      (by rw [hmax]; simp; omega)
    obtain ⟨r'', hr''⟩ := receiveAll_next hp hcut r' p' (by rw [hsame.assembling, hasm'])
      (by simpa using hold') (by rw [hsame.maxMsgLen, hmax]; omega)
    have hchain := chaining_hcpHeader pipeId (Or.inl (rfl : (0 : UInt8) = 0))
    have hseg : firstSegment r 0 (hcpHeader 0 pipeId &&& 0x7F) (msgHeader type inst) p' =
        some (r', p') := by
      rw [Receiver.begin] at hr'
      rw [pipe_hcpHeader (Or.inl rfl) hp]
      simp only [firstSegment, htype, hinst, nfaHciMessageFragmentation]
      rw [if_pos (by decide), hr']
      rfl
    have hstep : nfaHciConnCback r (hcpPacket pipeId ⟨true, msgHeader type inst :: p'⟩) =
        some (r', []) := by
      simp [nfaHciConnCback, hcpPacket, nfaHciMessageFragmentation, hchain, hasm, hseg,
        hsame.assembling, hasm']
    refine ⟨r'', ?_⟩
    rw [List.map_cons, receiveAll_cons hstep, hr'', hsame.type, hsame.inst, ht', hi']
    simp

/-! ## The round trip -/

/-- The message in the caller's memory. -/
def messageOf (msgLen : Nat) (pMsg : Option Bytes) : Bytes := (pMsg.getD []).take msgLen

/-- `p_msg` points to at least `msg_len` bytes; an empty message may be null. -/
def Points (msgLen : Nat) (pMsg : Option Bytes) : Prop := msgLen ≤ (pMsg.getD []).length

def chainingBit (pkt : Bytes) : UInt8 := (pkt.headD 0 >>> 7) &&& 1

section RoundTrip
variable (getpoolbuf : Nat → Bool) (nfcSendData : Bytes → NfaStatus)

/-- The call returns; its packets, fed to an idle receiver, end in exactly one
message, the one sent; none is longer than `buff_size`; and only the last has the
chaining bit for no more fragments. -/
def RoundTrips (s : Sender) (r : Receiver) (pipeId type inst : UInt8) (msgLen : Nat)
    (pMsg : Option Bytes) : Prop :=
  ∃ status s' pkts,
    nfaHciuSendMsg getpoolbuf nfcSendData s pipeId type inst msgLen pMsg = some (status, s', pkts) ∧
    (∃ r', receiveAll r pkts = some (r', [⟨pipeId, type, inst, messageOf msgLen pMsg⟩])) ∧
    (∀ pkt ∈ pkts, pkt.length ≤ s.buffSize.toNat) ∧
    ∃ init last, pkts = init ++ [last] ∧
      chainingBit last = nfaHciNoMessageFragmentation ∧
      ∀ pkt ∈ init, chainingBit pkt = nfaHciMessageFragmentation

/-- There is a byte to read at `p_msg` if `nfa_hciu_send_msg` reads one. -/
def ParamReadable (inst : UInt8) (pMsg : Option Bytes) : Prop :=
  inst = nfaHciAnyGetParameter → pMsg.getD [] ≠ []

variable {getpoolbuf nfcSendData}

theorem readParam_isSome {s : Sender} {inst : UInt8} {pMsg : Option Bytes} :
    (readParam s inst pMsg).isSome ↔ ParamReadable inst pMsg := by
  unfold readParam ParamReadable
  split
  · next h =>
    cases pMsg with
    | none => simp [h]
    | some mem => cases mem <;> simp [h]
  · next h => simp [h]

theorem nfaHciuSendMsg_eq {s : Sender} (pipeId type inst : UInt8) {msgLen : Nat}
    {pMsg : Option Bytes} (hb : 5 < s.buffSize.toNat) (hm : Points msgLen pMsg) :
    ∃ st fs, SentFrames getpoolbuf (s.buffSize.toNat - 1) 0
        (msgHeader type inst :: messageOf msgLen pMsg) fs ∧
      nfaHciuSendMsg getpoolbuf nfcSendData s pipeId type inst msgLen pMsg =
        (readParam s inst pMsg).map fun s' =>
          (st, awaitResponse s' type inst, fs.map (hcpPacket pipeId)) := by
  have hnull : ¬ (msgLen ≠ 0 ∧ pMsg = none) := by
    rintro ⟨hne, rfl⟩
    exact hne (by simpa [Points] using hm)
  have hsize : ¬ s.buffSize.toNat ≤ nciDataHdrSize + 2 := by
    simp [nciDataHdrSize]; omega
  obtain ⟨st, fs, hrun, hfs⟩ := sendSegments_cut
    hb pipeId (msgLen + 2) (some (msgHeader type inst)) 0 msgLen
    (pMsg.getD []) .ok [] hm (Or.inl rfl) (by simp; omega)
  refine ⟨st, fs, hfs, ?_⟩
  rw [nfaHciuSendMsg, if_neg hnull, if_neg hsize, hrun]
  cases readParam s inst pMsg <;> simp

theorem chainingBit_hcpPacket (pipeId : UInt8) (f : Frame UInt8) :
    chainingBit (hcpPacket pipeId f) =
      if f.more then nfaHciMessageFragmentation else nfaHciNoMessageFragmentation := by
  unfold chainingBit hcpPacket
  rw [List.headD_cons]
  split
  · exact chaining_hcpHeader _ (Or.inl rfl)
  · exact chaining_hcpHeader _ (Or.inr rfl)

theorem hcp_round_trip_iff (s : Sender) (r : Receiver) (pipeId type inst : UInt8) (msgLen : Nat)
    (pMsg : Option Bytes) (hp : pipeId.toNat < 0x80) (ht : type.toNat < 4) (hi : inst.toNat < 64)
    (hb : 5 < s.buffSize.toNat) (hw : r.Wf) (hasm : r.assembling = false)
    (hm : Points msgLen pMsg) (hfit : msgLen ≤ r.capacity pipeId type) :
    RoundTrips getpoolbuf nfcSendData s r pipeId type inst msgLen pMsg ↔
      ParamReadable inst pMsg ∧
        ∀ k ≤ msgLen / (s.buffSize.toNat - 1), getpoolbuf k = true := by
  have hlen : (messageOf msgLen pMsg).length = msgLen := by
    simpa [messageOf, Points] using hm
  obtain ⟨st, fs, hfs, heq⟩ := nfaHciuSendMsg_eq
    pipeId type inst hb hm
  have hbufs : BuffersFor getpoolbuf 0
      (frags (s.buffSize.toNat - 1) (msgHeader type inst :: messageOf msgLen pMsg).length) ↔
        ∀ k ≤ msgLen / (s.buffSize.toNat - 1), getpoolbuf k = true := by
    simp [BuffersFor, frags, hlen]
  constructor
  · rintro ⟨st', s', pkts, hsend, -, -, init, last, hpkts, hlast, -⟩
    rw [heq] at hsend
    obtain ⟨s'', hs'', hout⟩ := Option.map_eq_some_iff.mp hsend
    refine ⟨readParam_isSome.mp (by rw [hs'']; rfl), hbufs.mp ?_⟩
    -- without buffers no packet ends the message
    obtain ⟨hall, -⟩ | ⟨-, hmore⟩ := hfs
    · exact hall
    · exfalso
      have hmem : last ∈ fs.map (hcpPacket pipeId) := by
        rw [show fs.map (hcpPacket pipeId) = pkts from congrArg (·.2.2) hout, hpkts]
        simp
      obtain ⟨f, hf, rfl⟩ := List.mem_map.mp hmem
      rw [chainingBit_hcpPacket, if_pos (hmore f hf)] at hlast
      exact absurd hlast (by decide)
  · rintro ⟨hread, hall⟩
    obtain ⟨s', hs'⟩ := Option.isSome_iff_exists.mp (readParam_isSome.mpr hread)
    have hcut : Cut (s.buffSize.toNat - 1) (msgHeader type inst :: messageOf msgLen pMsg) fs := by
      obtain ⟨-, hcut⟩ | ⟨hno, -⟩ := hfs
      · exact hcut
      · exact absurd (hbufs.mpr hall) hno
    refine ⟨st, _, _, by rw [heq, hs']; rfl, ?_, ?_, ?_⟩
    · exact connCback_cut (by omega) hp ht hi hw hasm (by rw [hlen]; exact hfit) hcut
    · intro pkt hpkt
      obtain ⟨f, hf, rfl⟩ := List.mem_map.mp hpkt
      have hpl := hcut.payload_le f hf
      simp only [hcpPacket, List.length_cons]
      omega
    · obtain ⟨init, last, rfl, hl, hi⟩ := hcut.ends_once
      refine ⟨init.map (hcpPacket pipeId), hcpPacket pipeId last, by simp, ?_, ?_⟩
      · rw [chainingBit_hcpPacket, hl]
        rfl
      · intro pkt hpkt
        obtain ⟨f, hf, rfl⟩ := List.mem_map.mp hpkt
        rw [chainingBit_hcpPacket, hi f hf]
        rfl

end RoundTrip

/-- An idle control block with the default packet size. -/
def idleSender : Sender := ⟨32, 0, 0, .idle, false⟩

def idleReceiver : Receiver where
  type := 0
  inst := 0
  assembling := false
  assemblyFailed := false
  msgLen := 0
  maxMsgLen := 0
  msgData := List.replicate nfaMaxHciEventLen 0
  pMsgData := .msgData
  rspBufSize := 0
  pRspBuf := none

theorem hcp_no_round_trip_empty_event :
    Points 0 none ∧ 0 ≤ idleReceiver.capacity 3 nfaHciEventType ∧
      nfaHciuSendMsg (fun _ => true) (fun _ => .ok) idleSender 3 nfaHciEventType 2 0 none = none ∧
      ¬ RoundTrips (fun _ => true) (fun _ => .ok) idleSender idleReceiver 3 nfaHciEventType 2 0
        none := by
  refine ⟨by simp [Points], by decide, rfl, ?_⟩
  rintro ⟨st, s', pkts, hsend, -⟩
  have hfault : nfaHciuSendMsg (fun _ => true) (fun _ => .ok) idleSender 3 nfaHciEventType 2 0 none =
      none := rfl
  rw [hfault] at hsend
  cases hsend

/-- A 40-byte event with the same instruction, sent in two packets. -/
theorem hcp_round_trip_two_packets :
    RoundTrips (fun _ => true) (fun _ => .ok) idleSender idleReceiver 3 nfaHciEventType 2 40
      (some (List.replicate 40 7)) := by
  refine (hcp_round_trip_iff idleSender idleReceiver 3 nfaHciEventType 2 40
    (some (List.replicate 40 7)) (by decide) (by decide) (by decide) (by decide)
    ⟨by simp [idleReceiver], by simp [idleReceiver]⟩ rfl ?_ ?_).mpr ⟨?_, fun _ _ => rfl⟩
  · simp [Points]
  · decide
  · simp [ParamReadable]

end NfcStack.Hci
