import NfcStack.Lib.Bytes

/- Reading and writing the NDEF message of a Type 3 tag (`rw_t3t.cc`). A tag is a row of
   blocks of 16 bytes. Block 0 has the attributes of the message: how many blocks a CHECK
   and an UPDATE may name, how many blocks there are, and how long the message is. The
   blocks from 1 on have the message.

   A message is written between two updates of block 0. The blocks of one command are as
   many as the attributes and a frame allow; a block is named by two bytes, or by three if
   its number does not fit in one.

   A buffer is there when a command is to be sent, and a command is answered before the
   next one. The timers and the retransmission of a command are not modelled. -/
namespace NfcStack.Rw.T3t
open NfcStack.Lib

abbrev Bytes := List UInt8

abbrev opcCheckCmd : UInt8 := 0x06
abbrev opcCheckRsp : UInt8 := 0x07
abbrev opcUpdateCmd : UInt8 := 0x08
abbrev opcUpdateRsp : UInt8 := 0x09
abbrev ndefScRo : Nat := 0x000B
abbrev ndefScRw : Nat := 0x0009
abbrev ndefVersion : UInt8 := 0x10
abbrev writefOff : UInt8 := 0x00
abbrev writefOn : UInt8 := 0x0F
abbrev rwflagRo : UInt8 := 0x00
abbrev twoByteFormat : UInt8 := 0x80
abbrev numBlocksUpdateMax : Nat := 13
abbrev numBlocksCheckMax : Nat := 15
abbrev maxBlocksPerUpdate1ByteFormat : Nat := 13
abbrev maxBlocksPerUpdate2ByteFormat : Nat := 12

/-- `UINT16_TO_BE_STREAM`. -/
def be16 (n : Nat) : Bytes := [UInt8.ofNat (n / 2 ^ 8), UInt8.ofNat n]

/-- `UINT16_TO_STREAM`. -/
def le16 (n : Nat) : Bytes := [UInt8.ofNat n, UInt8.ofNat (n / 2 ^ 8)]

/-- `BE_STREAM_TO_UINT16`, from the position `i`. -/
def be16At (bs : Bytes) (i : Nat) : Nat := (bs.getD i 0).toNat * 2 ^ 8 + (bs.getD (i + 1) 0).toNat

/-- The sum over the first 14 bytes of the attributes. -/
def checksum (bs : Bytes) : Nat := ((bs.take 14).map UInt8.toNat).sum % 2 ^ 16

/-! ## The control block -/

inductive Status where
  | ok
  | failed
  | badResp
  | notInitialized
  | bufferFull
  | refused
  deriving DecidableEq, Repr

structure Detect where
  status : Status
  version : UInt8
  nbr : Nat
  nbw : Nat
  nmaxb : Nat
  writef : UInt8
  rwflag : UInt8
  ln : Nat
  deriving DecidableEq, Repr

inductive RwState where
  | notActivated
  | idle
  | commandPending
  deriving DecidableEq, Repr

inductive Cmd where
  | detectNdef
  | checkNdef
  | updateNdef
  deriving DecidableEq, Repr

/-- `tRW_T3T_CB`; of the flags, those of the NDEF operations. -/
structure Cb where
  rwState : RwState
  curCmd : Cmd
  ndefAttrib : Detect
  ndefMsg : Bytes
  ndefMsgLen : Nat
  ndefMsgBytesSent : Nat
  ndefRxReadlen : Nat
  ndefRxOffset : Nat
  peerNdefNfcid2 : Bytes
  isFinalNdefSegment : Bool
  w4NdefDetectPollRsp : Bool
  deriving DecidableEq, Repr

inductive Event where
  | ndefDetect (status : Status) (curSize maxSize : Nat)
  | check (data : Bytes)
  | checkCplt (status : Status)
  | updateCplt (status : Status)
  deriving DecidableEq, Repr

/-- What a function sends to the tag or tells the upper layer. -/
inductive Out where
  | polling
  | frame (f : Bytes)
  | event (e : Event)
  deriving DecidableEq, Repr

/-! ## Commands -/

/-- `rw_t3t_send_cmd` and `rw_t3t_send_to_lower`: the length goes before the command. -/
def sendCmd (cb : Cb) (cmd : Cmd) (msg : Bytes) : Cb × List Out :=
  ({ cb with curCmd := cmd, rwState := .commandPending }, [.frame (UInt8.ofNat (msg.length + 1) :: msg)])

/-- The command up to the number of blocks; there is one service. -/
def cmdHead (cb : Cb) (opcode : UInt8) (service numBlocks : Nat) : Bytes :=
  opcode :: cb.peerNdefNfcid2 ++ [1] ++ le16 service ++ [UInt8.ofNat numBlocks]

/-- An entry of the block list. -/
def blockEntry (blockId : Nat) : Bytes :=
  if blockId < 256 then [twoByteFormat, UInt8.ofNat blockId] else 0x00 :: le16 blockId

def blockList (first numBlocks : Nat) : Bytes := (List.range' first numBlocks).flatMap blockEntry

/-- The attribute information block. -/
def attrInfo (a : Detect) (writef : UInt8) (ln : Nat) : Bytes :=
  let attr := [ndefVersion, UInt8.ofNat a.nbr, UInt8.ofNat a.nbw] ++ be16 a.nmaxb ++
    [0, 0, 0, 0, writef, a.rwflag, UInt8.ofNat (ln / 2 ^ 16), UInt8.ofNat (ln / 2 ^ 8), UInt8.ofNat ln]
  attr ++ be16 (checksum attr)

def sendUpdateNdefAttributeCmd (cb : Cb) (writeInProgress : Bool) : Cb × List Out :=
  let info := if writeInProgress then attrInfo cb.ndefAttrib writefOn cb.ndefAttrib.ln
    else attrInfo cb.ndefAttrib writefOff cb.ndefMsgLen
  sendCmd cb .updateNdef (cmdHead cb opcUpdateCmd ndefScRw 1 ++ [twoByteFormat, 0] ++ info)

/-- The blocks that are still to be written or read. -/
def blocksRemaining (bytesRemaining : Nat) : Nat := (bytesRemaining + 15) % 2 ^ 32 / 16 % 2 ^ 16

/-- The first block behind the bytes that are done. -/
def firstBlock (bytesDone : Nat) : Nat := (bytesDone / 16 + 1) % 2 ^ 16

/-- How many blocks one UPDATE may have. -/
def blocksPerUpdate (cb : Cb) (first : Nat) : Nat :=
  let blocks := if first + maxBlocksPerUpdate1ByteFormat < 0x100 then maxBlocksPerUpdate1ByteFormat
    else maxBlocksPerUpdate2ByteFormat
  if blocks > cb.ndefAttrib.nbw then cb.ndefAttrib.nbw else blocks

/-- The payload of an UPDATE, and how many bytes of the message are in it. The last block of the
message is filled up with zeroes. -/
def updatePayload (cb : Cb) (numBlocks bytesRemaining : Nat) : Bytes × Nat :=
  let padding := if numBlocks = blocksRemaining bytesRemaining then (16 - bytesRemaining % 16) % 16 else 0
  if padding ≠ 0 then
    let whole := (numBlocks - 1) * 16
    (slice cb.ndefMsg cb.ndefMsgBytesSent whole ++
      slice cb.ndefMsg (cb.ndefMsgBytesSent + whole) (16 - padding) ++ List.replicate padding 0,
      whole + (16 - padding))
  else (slice cb.ndefMsg cb.ndefMsgBytesSent (numBlocks * 16), numBlocks * 16)

def sendNextNdefUpdateCmd (cb : Cb) : Status × Cb × List Out :=
  if cb.ndefMsgLen < cb.ndefMsgBytesSent then (.failed, cb, [])
  else
    let bytesRemaining := cb.ndefMsgLen - cb.ndefMsgBytesSent
    let first := firstBlock cb.ndefMsgBytesSent
    let numBlocks := if blocksRemaining bytesRemaining ≤ blocksPerUpdate cb first then blocksRemaining bytesRemaining
      else blocksPerUpdate cb first
    if first + numBlocks > 0x10000 then (.failed, cb, [])
    else
      let (payload, bytes) := updatePayload cb numBlocks bytesRemaining
      (.ok, sendCmd { cb with ndefMsgBytesSent := cb.ndefMsgBytesSent + bytes } .updateNdef
        (cmdHead cb opcUpdateCmd ndefScRw numBlocks ++ blockList first numBlocks ++ payload))

def sendNextNdefCheckCmd (cb : Cb) : Status × Cb × List Out :=
  if cb.ndefAttrib.ln < cb.ndefRxOffset then (.failed, cb, [])
  else
    let bytesRemaining := cb.ndefAttrib.ln - cb.ndefRxOffset
    let first := firstBlock cb.ndefRxOffset
    let final := decide (blocksRemaining bytesRemaining ≤ cb.ndefAttrib.nbr)
    let numBlocks := if final then blocksRemaining bytesRemaining else cb.ndefAttrib.nbr
    let cb := { cb with
      ndefRxReadlen := if final then bytesRemaining else cb.ndefAttrib.nbr * 16
      isFinalNdefSegment := cb.isFinalNdefSegment || final }
    if first + numBlocks > 0x10000 then (.failed, cb, [])
    else
      let service := if cb.ndefAttrib.rwflag = rwflagRo then ndefScRo else ndefScRw
      (.ok, sendCmd cb .checkNdef (cmdHead cb opcCheckCmd service numBlocks ++ blockList first numBlocks))

/-! ## Responses

A response is taken from behind its length on; the last byte is the status of the frame. -/

def rspCode (rsp : Bytes) : UInt8 := rsp.getD 0 0
def rspIdm (rsp : Bytes) : Bytes := slice rsp 1 8
def rspStatus1 (rsp : Bytes) : UInt8 := rsp.getD 9 0
def rspNumBlocks (rsp : Bytes) : Nat := (rsp.getD 11 0).toNat
abbrev rspOffsetCheckData : Nat := 12

/-- What `rw_t3t_act_handle_ndef_detect_rsp` takes out of the attributes. -/
def parseAttr (bs : Bytes) : Detect where
  status := .ok
  version := bs.getD 0 0
  nbr := (bs.getD 1 0).toNat
  nbw := (bs.getD 2 0).toNat
  nmaxb := be16At bs 3
  writef := bs.getD 9 0
  rwflag := bs.getD 10 0
  ln := be16At bs 12 + (bs.getD 11 0).toNat * 2 ^ 16

/-- The attributes after a response with these, and the event. -/
def detectAttr (a : Detect) (bs : Bytes) : Detect × Event :=
  if checksum bs ≠ be16At bs 14 then ({ a with status := .failed }, .ndefDetect .failed 0 0)
  else if ndefVersion >>> 4 < bs.getD 0 0 >>> 4 then
    ({ a with status := .failed, version := bs.getD 0 0 }, .ndefDetect .badResp 0 0)
  else
    let a := parseAttr bs
    if a.nbr > numBlocksCheckMax ∨ a.nbw > numBlocksUpdateMax then
      ({ a with status := .failed }, .ndefDetect .badResp 0 0)
    else (a, .ndefDetect a.status a.ln (a.nmaxb * 16))

def handleNdefDetectRsp (cb : Cb) (rsp : Bytes) : Cb × List Out :=
  if rspCode rsp ≠ opcCheckRsp ∨ rspStatus1 rsp ≠ 0 ∨ rspIdm rsp ≠ cb.peerNdefNfcid2 ∨
      rsp.length < rspOffsetCheckData + 16 then
    ({ cb with rwState := .idle }, [.event (.ndefDetect .failed 0 0)])
  else
    let (a, e) := detectAttr cb.ndefAttrib (rsp.drop rspOffsetCheckData)
    ({ cb with ndefAttrib := a, rwState := .idle }, [.event e])

def checkCplt (cb : Cb) (status : Status) : Cb × List Out :=
  ({ cb with rwState := .idle }, [.event (.checkCplt status)])

/-- The data of the response is delivered, and the next command sent if there is more. -/
def deliverCheck (cb : Cb) (data : Bytes) : Cb × List Out :=
  if cb.isFinalNdefSegment then
    let (cb, outs) := checkCplt cb .ok
    (cb, .event (.check data) :: outs)
  else
    let (status, cb, outs) := sendNextNdefCheckCmd cb
    let (cb, outs) := if status = .ok then (cb, outs) else checkCplt cb status
    (cb, .event (.check data) :: outs)

/-- `rw_t3t_act_handle_check_ndef_rsp`. The number of bytes received has eight bits. A response that
is shorter than the padding is dropped without an event. -/
def handleCheckNdefRsp (cb : Cb) (rsp : Bytes) : Cb × List Out :=
  if rsp.length < rspOffsetCheckData then checkCplt cb .failed
  else if rspStatus1 rsp ≠ 0 ∨ rspIdm rsp ≠ cb.peerNdefNfcid2 ∨ rspNumBlocks rsp ≠ (cb.ndefRxReadlen + 15) / 16 then
    checkCplt cb .failed
  else if rspCode rsp ≠ opcCheckRsp then checkCplt cb .failed
  else if rspNumBlocks rsp > 0 then
    let numBytesRx := rspNumBlocks rsp * 16 % 2 ^ 8
    let cb := { cb with ndefRxOffset := cb.ndefRxOffset + cb.ndefRxReadlen }
    let data := rsp.drop rspOffsetCheckData
    if numBytesRx > data.length then checkCplt cb .failed
    else if cb.isFinalNdefSegment ∧ cb.ndefAttrib.ln % 16 ≠ 0 then
      if numBytesRx < 16 - cb.ndefAttrib.ln % 16 then (cb, [])
      else deliverCheck cb (data.take (numBytesRx - (16 - cb.ndefAttrib.ln % 16)))
    else deliverCheck cb (data.take numBytesRx)
  else checkCplt cb .failed

def updateCplt (cb : Cb) (status : Status) : Cb × List Out :=
  ({ cb with rwState := .idle }, [.event (.updateCplt status)])

def handleUpdateNdefRsp (cb : Cb) (rsp : Bytes) : Cb × List Out :=
  if rspStatus1 rsp ≠ 0 ∨ rspIdm rsp ≠ cb.peerNdefNfcid2 then updateCplt cb .failed
  else if rspCode rsp ≠ opcUpdateRsp then updateCplt cb .failed
  else if cb.isFinalNdefSegment then
    updateCplt { cb with ndefAttrib := { cb.ndefAttrib with ln := cb.ndefMsgLen } } .ok
  else if cb.ndefMsgBytesSent < cb.ndefMsgLen then
    let (status, cb, outs) := sendNextNdefUpdateCmd cb
    if status = .ok then (cb, outs) else updateCplt cb status
  else sendUpdateNdefAttributeCmd { cb with isFinalNdefSegment := true } false

/-- `rw_t3t_data_cback`; after an error of the frame the command would be sent again. -/
def dataCback (cb : Cb) (frame : Bytes) : Cb × List Out :=
  if cb.rwState ≠ .commandPending then (cb, [])
  else if frame.length < 11 then (cb, [])
  else if frame.length < (frame.getD 0 0).toNat ∨ frame.getD (frame.getD 0 0).toNat 0 ≠ 0 then (cb, [])
  else
    match cb.curCmd with
    | .detectNdef => handleNdefDetectRsp cb (frame.drop 1)
    | .checkNdef => handleCheckNdefRsp cb (frame.drop 1)
    | .updateNdef => handleUpdateNdefRsp cb (frame.drop 1)

/-! ## The functions of the interface -/

def detectNDef (cb : Cb) : Status × Cb × List Out :=
  if cb.rwState ≠ .idle then (.failed, cb, [])
  else (.ok, { cb with curCmd := .detectNdef, rwState := .commandPending, w4NdefDetectPollRsp := true }, [.polling])

/-- `rw_t3t_handle_nci_poll_ntf`, for a polling of the detection, and `rw_t3t_handle_ndef_detect_poll_rsp`. -/
def handleNciPollNtf (cb : Cb) (status : Status) (numResponses : Nat) (sensfRes : Bytes) : Cb × List Out :=
  if cb.rwState = .notActivated ∨ cb.w4NdefDetectPollRsp = false then (cb, [])
  else
    let cb := { cb with
      w4NdefDetectPollRsp := false
      peerNdefNfcid2 := if sensfRes.length > 8 then slice sensfRes 1 8 else cb.peerNdefNfcid2 }
    if status = .ok ∧ numResponses > 0 then
      sendCmd cb .detectNdef (cmdHead cb opcCheckCmd ndefScRo 1 ++ [twoByteFormat, 0])
    else ({ cb with rwState := .idle }, [.event (.ndefDetect status 0 0)])

def checkNDef (cb : Cb) : Status × Cb × List Out :=
  if cb.rwState ≠ .idle then (.failed, cb, [])
  else if cb.ndefAttrib.status ≠ .ok then (.notInitialized, cb, [])
  else if cb.ndefAttrib.ln = 0 then (.failed, cb, [])
  else if cb.ndefAttrib.writef = writefOn then (.failed, cb, [])
  else
    sendNextNdefCheckCmd { cb with isFinalNdefSegment := false, ndefRxOffset := 0 }

def updateNDef (msg : Bytes) (cb : Cb) : Status × Cb × List Out :=
  if cb.rwState ≠ .idle then (.failed, cb, [])
  else if cb.ndefAttrib.status ≠ .ok then (.notInitialized, cb, [])
  else if msg.length > cb.ndefAttrib.nmaxb * 16 then (.bufferFull, cb, [])
  else if cb.ndefAttrib.rwflag = rwflagRo then (.refused, cb, [])
  else
    let cb := { cb with
      isFinalNdefSegment := false
      ndefMsgBytesSent := 0
      ndefMsgLen := msg.length
      ndefMsg := msg }
    (.ok, sendUpdateNdefAttributeCmd cb true)

/-! ## A tag -/

/-- A tag: its identifier, and its blocks. -/
structure Tag where
  idm : Bytes
  blocks : Nat → Bytes

namespace Tag
variable (t : Tag)

def attr : Detect := parseAttr (t.blocks 0)

/-- The commands it carries out. Block 0 may always be read and written alone. -/
def accepts (limit : Nat) (bs : List Nat) : Prop :=
  (1 ≤ bs.length ∧ bs.length ≤ limit ∨ bs = [0]) ∧ ∀ b ∈ bs, b ≤ t.attr.nmaxb

instance (limit : Nat) (bs : List Nat) : Decidable (t.accepts limit bs) := inferInstanceAs (Decidable (_ ∧ _))

end Tag

/-- The numbers of `n` blocks, and what is behind the list. -/
def parseBlockList : Nat → Bytes → Option (List Nat × Bytes)
  | 0, bs => some ([], bs)
  | n + 1, d :: bs =>
    if d &&& 0x80 ≠ 0 then
      match bs with
      | x :: bs => (parseBlockList n bs).map fun r => (x.toNat :: r.1, r.2)
      | _ => none
    else
      match bs with
      | x :: y :: bs => (parseBlockList n bs).map fun r => ((x.toNat + y.toNat * 2 ^ 8) :: r.1, r.2)
      | _ => none
  | _ + 1, [] => none

/-- A command that has been received. -/
structure TagCmd where
  opcode : UInt8
  idm : Bytes
  service : Nat
  blocks : List Nat
  data : Bytes
  deriving DecidableEq, Repr

/-- A frame with one service. -/
def parseFrame (frame : Bytes) : Option TagCmd :=
  if frame.length = (frame.getD 0 0).toNat ∧ 14 ≤ frame.length ∧ frame.getD 10 0 = 1 then
    (parseBlockList (frame.getD 13 0).toNat (frame.drop 14)).map fun r =>
      ⟨frame.getD 1 0, slice frame 2 8, (frame.getD 11 0).toNat + (frame.getD 12 0).toNat * 2 ^ 8, r.1, r.2⟩
  else none

/-- The blocks after an UPDATE. -/
def writeBlocks (blocks : Nat → Bytes) : List Nat → Bytes → Nat → Bytes
  | [], _ => blocks
  | b :: bs, data => writeBlocks (Function.update blocks b (data.take 16)) bs (data.drop 16)

/-- A response as it is received: with its length, and the status of the frame. -/
def rspFrame (rsp : Bytes) : Bytes := UInt8.ofNat (rsp.length + 1) :: rsp ++ [0]

def rspError (opcode : UInt8) (idm : Bytes) : Bytes := rspFrame (opcode :: idm ++ [0x01, 0x70])

/-- The tag carries out a command. A frame that is none is not answered. -/
def Tag.exec (t : Tag) (frame : Bytes) : Tag × Option Bytes :=
  match parseFrame frame with
  | none => (t, none)
  | some c =>
    if c.idm ≠ t.idm then (t, none)
    else if c.opcode = opcCheckCmd then
      if t.accepts t.attr.nbr c.blocks ∧ (c.service = ndefScRo ∨ c.service = ndefScRw) then
        (t, some (rspFrame (opcCheckRsp :: t.idm ++ [0, 0, UInt8.ofNat c.blocks.length] ++ c.blocks.flatMap t.blocks)))
      else (t, some (rspError opcCheckRsp t.idm))
    else if c.opcode = opcUpdateCmd then
      if t.accepts t.attr.nbw c.blocks ∧ c.service = ndefScRw ∧ c.data.length = c.blocks.length * 16 then
        ({ t with blocks := writeBlocks t.blocks c.blocks c.data }, some (rspFrame (opcUpdateRsp :: t.idm ++ [0, 0])))
      else (t, some (rspError opcUpdateRsp t.idm))
    else (t, none)

/-- What a polling brings: the length, the identifier and the PMm. -/
def Tag.sensfRes (t : Tag) : Bytes := 0x10 :: t.idm ++ List.replicate 8 0xFF

/-! ## The reader and the tag -/

/-- A tag and its reader. `pending` is the frame on its way to the tag; `frames` and `events` are what has
been sent and reported since the last call of the interface. -/
structure Sys where
  tag : Tag
  cb : Cb
  pending : Option Bytes
  frames : List Bytes
  events : List Event

def Out.frame? : Out → Option Bytes
  | .frame f => some f
  | _ => none

def Out.event? : Out → Option Event
  | .event e => some e
  | _ => none

namespace Sys

def emit (s : Sys) (r : Cb × List Out) : Sys where
  tag := s.tag
  cb := r.1
  pending := r.2.findSome? Out.frame?
  frames := s.frames ++ r.2.filterMap Out.frame?
  events := s.events ++ r.2.filterMap Out.event?

/-- The tag answers, and the reader takes the answer. -/
def step (s : Sys) : Sys :=
  match s.pending with
  | none => s
  | some f =>
    match s.tag.exec f with
    | (t, some rsp) => emit { s with tag := t } (dataCback s.cb rsp)
    | (t, none) => { s with tag := t, pending := none }

/-- After `n` commands. -/
def after : Nat → Sys → Sys
  | 0, s => s
  | n + 1, s => after n s.step

/-- A function of the interface is called. -/
def call (s : Sys) (api : Cb → Status × Cb × List Out) : Status × Sys :=
  ((api s.cb).1, emit { s with pending := none, frames := [], events := [] } (api s.cb).2)

/-- The polling is answered. -/
def polled (s : Sys) : Sys := s.emit (handleNciPollNtf s.cb .ok 1 s.tag.sensfRes)

/-- The message of the tag is detected. -/
def detect (s : Sys) : Sys := (s.call detectNDef).2.polled.step

end Sys

end NfcStack.Rw.T3t
