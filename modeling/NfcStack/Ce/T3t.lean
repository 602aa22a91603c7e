import NfcStack.Lib.Bytes
import NfcStack.Ce.T4t

/- The emulated Type 3 tag (`ce_t3t.cc`). A CHECK or UPDATE frame names blocks by a list
   of entries of two or three bytes; the list is gone through once to verify it and once
   more, together with the data of an UPDATE, to carry the command out. Block 0 is put
   together from the attributes of the message, the others lie in a buffer.

   An access outside a buffer, or through a null pointer, is a fault, as for the Type 4
   tag. The callback of the tag is there when a tag is activated. -/
namespace NfcStack.Ce
open NfcStack.Lib

/-! ## The control block -/

abbrev t3tSystemCodeNdef : Nat := 0x12FC
abbrev t3tMsgBlocksize : Nat := 16
abbrev t3tMsgNdefScRo : Nat := 0x000B
abbrev t3tMsgNdefScRw : Nat := 0x0009
abbrev rwflagRo : UInt8 := 0x00
abbrev rwflagRw : UInt8 := 0x01

structure NdefInfo where
  initialized : Bool
  version : UInt8
  nbr : UInt8
  nbw : UInt8
  nmaxb : Nat
  writef : UInt8
  rwflag : UInt8
  ln : Nat
  buf : Bytes
  scratchWritef : UInt8
  scratchLn : Nat
  scratchBuf : Option Bytes
  deriving DecidableEq, Repr

inductive T3tState where
  | notActivated
  | idle
  | updating
  deriving DecidableEq, Repr

/-- `tCE_T3T_MEM`; the current command is an argument of its handlers. -/
structure T3tMem where
  state : T3tState
  systemCode : Nat
  localNfcid2 : Bytes
  localPmm : Bytes
  ndefInfo : NdefInfo
  deriving DecidableEq, Repr

def t3tInit : T3tMem where
  state := .notActivated
  systemCode := 0
  localNfcid2 := List.replicate 8 0
  localPmm := [0x01, 0xFE, 0xFF, 0xFF, 0xFF, 0xFF, 0xFF, 0xFF]
  ndefInfo := ⟨false, 0, 3, 3, 0, 0, 0, 0, [], 0, 0, none⟩

def selectT3t (m : T3tMem) (systemCode : Nat) (nfcid2 : Bytes) : T3tMem :=
  { m with state := .idle, systemCode := systemCode, localNfcid2 := nfcid2 }

def t3tSetLocalNDEFMsg (m : T3tMem) (readOnly : Bool) (sizeMax sizeCurrent : UInt32)
    (buf scratchBuf : Option Bytes) : Option T3tMem :=
  if ¬ readOnly ∧ scratchBuf = none then some m
  else
    match buf with
    | none => some { m with ndefInfo := { m.ndefInfo with initialized := false } }
    | some buf =>
      (initScratch buf sizeCurrent.toNat scratchBuf).map fun scratch =>
        { m with
          ndefInfo := { m.ndefInfo with
            initialized := true
            ln := sizeCurrent.toNat
            nmaxb := (sizeMax.toNat + 15) % 2 ^ 32 / t3tMsgBlocksize % 2 ^ 16
            rwflag := if readOnly then rwflagRo else rwflagRw
            writef := 0x00
            version := 0x10
            buf := buf
            scratchBuf := scratch
            scratchLn := if scratchBuf.isSome then sizeCurrent.toNat else m.ndefInfo.scratchLn
            scratchWritef := if scratchBuf.isSome then 0x00 else m.ndefInfo.scratchWritef } }

inductive T3tOut where
  | rsp (bs : Bytes)
  | rawFrame
  | ndefUpdateStart
  | update
  | ndefUpdateCplt (ok : Bool) (length : Nat)
  deriving DecidableEq, Repr

abbrev statusOk : UInt8 := 0x00
abbrev statusError : UInt8 := 0x01
abbrev status2ErrorMemory : UInt8 := 0x70
abbrev status2ErrorProcessing : UInt8 := 0xFF

abbrev opcCheckCmd : UInt8 := 0x06
abbrev opcCheckRsp : UInt8 := 0x07
abbrev opcUpdateCmd : UInt8 := 0x08
abbrev opcUpdateRsp : UInt8 := 0x09

def sendRsp (nfcid2 : Bytes) (opcode status1 status2 : UInt8) : T3tOut :=
  .rsp (opcode :: nfcid2 ++ [status1, status2])

/-! ## Blocks -/

/-- `STREAM_TO_UINT16`, from the position `i`. -/
def le16At (bs : Bytes) (i : Nat) : Nat := (bs.getD i 0).toNat + (bs.getD (i + 1) 0).toNat * 2 ^ 8

/-- The service code and the number of a block. -/
structure Block where
  service : Nat
  number : Nat
  deriving DecidableEq, Repr

/-- An entry of the block list has two bytes, or three. -/
def isTwoByte (msg : Bytes) (p : Nat) : Bool := msg.getD p 0 &&& 0x80 != 0

def entryLen (msg : Bytes) (p : Nat) : Nat := if isTwoByte msg p then 2 else 3

def serviceIx (msg : Bytes) (p : Nat) : Nat := (msg.getD p 0 &&& 0x0F).toNat

def blockAt (serviceCodeList : List Nat) (msg : Bytes) (p : Nat) : Block where
  service := serviceCodeList.getD (serviceIx msg p) 0
  number := if isTwoByte msg p then (msg.getD (p + 1) 0).toNat else le16At msg (p + 1)

/-- The sum over the first 14 bytes. -/
def attrChecksum (bs : Bytes) : Nat := ((bs.take 14).map UInt8.toNat).sum % 2 ^ 16

/-- The attribute block. -/
def attrBlock (info : NdefInfo) (writef : UInt8) (ln : Nat) : Bytes :=
  let attr := [info.version, info.nbr, info.nbw] ++ be16 info.nmaxb ++ [0, 0, 0, 0, writef, info.rwflag] ++
    [UInt8.ofNat (ln / 2 ^ 16)] ++ be16 (ln % 2 ^ 16)
  attr ++ be16 (attrChecksum attr)

/-- The card is read from the scratch buffer if it can be written. -/
def NdefInfo.isRw (info : NdefInfo) : Bool := info.rwflag == rwflagRw && info.scratchBuf.isSome

/-- One block of a CHECK: its bytes, or an error. -/
def checkBlock (info : NdefInfo) (numBlocks : Nat) (b : Block) : Option (Option Bytes) :=
  if b.service = t3tMsgNdefScRo ∨ b.service = t3tMsgNdefScRw then
    if numBlocks > info.nbr.toNat then some none
    else if b.number = 0 then
      some (some (if info.isRw then attrBlock info info.scratchWritef info.scratchLn
        else attrBlock info info.writef info.ln))
    else if b.number > info.nmaxb then some none
    else
      let src := if info.isRw then info.scratchBuf.getD [] else info.buf
      (readAt src ((b.number - 1) * t3tMsgBlocksize) t3tMsgBlocksize).map some
  else some none

/-- The loop of `ce_t3t_handle_check_cmd`. -/
def checkLoop (info : NdefInfo) (numBlocks : Nat) (services : List Nat) (msg : Bytes) :
    Nat → Nat → Bytes → Option (Option Bytes)
  | 0, _, acc => some (some acc)
  | n + 1, p, acc =>
    match checkBlock info numBlocks (blockAt services msg p) with
    | none => none
    | some none => some none
    | some (some bs) => checkLoop info numBlocks services msg n (p + entryLen msg p) (acc ++ bs)

/-- `ce_t3t_handle_check_cmd`, with the block list at `p`. -/
def handleCheckCmd (m : T3tMem) (numBlocks : Nat) (services : List Nat) (msg : Bytes) (p : Nat) :
    Option (T3tMem × List T3tOut) :=
  (checkLoop m.ndefInfo numBlocks services msg numBlocks p []).map fun r =>
    (m, [match r with
      | some data => .rsp (opcCheckRsp :: m.localNfcid2 ++ [statusOk, statusOk, UInt8.ofNat numBlocks] ++ data)
      | none => sendRsp m.localNfcid2 opcCheckRsp statusError status2ErrorMemory])

/-- What an UPDATE changes, whether it has failed and what it has to report. -/
structure UpdateState where
  info : NdefInfo
  ok : Bool := true
  start : Bool := false
  cplt : Bool := false
  update : Bool := false
  deriving DecidableEq, Repr

/-- The length that an attribute block announces. -/
def attrLn (data : Bytes) : Nat := (data.getD 11 0).toNat * 2 ^ 16 + be16At data 12

def attrWritef (data : Bytes) : UInt8 := data.getD 9 0

/-- The attribute block is received. After a wrong checksum the loop goes on. -/
def updateAttr (data : Bytes) (st : UpdateState) : UpdateState :=
  if attrChecksum data ≠ be16At data 14 then { st with ok := false }
  else
    let st := { st with
      info := { st.info with scratchLn := attrLn data, scratchWritef := attrWritef data } }
    if attrWritef data = 0 then { st with cplt := true } else { st with start := true }

/-- One block of an UPDATE; the flag is whether the loop goes on. -/
def updateBlock (numBlocks : Nat) (b : Block) (data : Bytes) (st : UpdateState) :
    Option (UpdateState × Bool) :=
  let failed := { st with ok := false }
  if b.service = t3tMsgNdefScRo then some (failed, false)
  else if b.service = t3tMsgNdefScRw then
    if numBlocks > st.info.nbw.toNat then some (failed, false)
    else if st.info.rwflag = rwflagRo then some (failed, false)
    else if b.number = 0 then some (updateAttr data st, true)
    else if b.number > st.info.nmaxb then some (failed, false)
    else
      st.info.scratchBuf.bind fun buf =>
        (writeAt buf ((b.number - 1) * t3tMsgBlocksize) data).map fun buf =>
          ({ st with info := { st.info with scratchBuf := some buf }, update := true }, true)
  else some (failed, false)

/-- The loop of `ce_t3t_handle_update_cmd`, with the rest of the block list at `p` and that of
the data at `pd`. -/
def updateLoop (numBlocks : Nat) (services : List Nat) (msg : Bytes) :
    Nat → Nat → Nat → UpdateState → Option UpdateState
  | 0, _, _, st => some st
  | n + 1, p, pd, st =>
    match updateBlock numBlocks (blockAt services msg p) (slice msg pd t3tMsgBlocksize) st with
    | none => none
    | some (st, false) => some st
    | some (st, true) =>
      updateLoop numBlocks services msg n (p + entryLen msg p) (pd + t3tMsgBlocksize) st

/-- The end of `ce_t3t_handle_update_cmd`: the response, then the events. -/
def updateDone (m : T3tMem) (st : UpdateState) : T3tMem × List T3tOut :=
  let state := if m.state = .idle then .updating else m.state
  let state := if st.ok then state else .idle
  let state := if st.cplt then .idle else state
  ({ m with state := state, ndefInfo := st.info },
    [if st.ok then sendRsp m.localNfcid2 opcUpdateRsp statusOk statusOk
      else sendRsp m.localNfcid2 opcUpdateRsp statusError status2ErrorMemory] ++
    (if st.start then [.ndefUpdateStart] else []) ++ (if st.update then [.update] else []) ++
    if st.cplt then [.ndefUpdateCplt st.ok st.info.scratchLn] else [])

def handleUpdateCmd (m : T3tMem) (numBlocks : Nat) (services : List Nat) (msg : Bytes) (p pd : Nat) :
    Option (T3tMem × List T3tOut) :=
  (updateLoop numBlocks services msg numBlocks p pd ⟨m.ndefInfo, true, false, false, false⟩).map
    (updateDone m)

/-! ## Frames -/

def handleNonNfcForumCmd (m : T3tMem) (cmdId : UInt8) (msg : Bytes) : List T3tOut :=
  if cmdId = 0x00 then
    if msg.length < 5 then []
    else
      let sc := be16At msg 2
      if sc = 0xFFFF ∨ sc = m.systemCode then
        [.rsp (0x01 :: m.localNfcid2 ++ m.localPmm ++
          if msg.getD 4 0 = 1 then be16 m.systemCode else [])]
      else []
  else if cmdId = 0x04 then [.rsp (0x05 :: m.localNfcid2 ++ [0])]
  else if cmdId = 0x0C then [.rsp (0x0D :: m.localNfcid2 ++ [1] ++ be16 t3tSystemCodeNdef)]
  else []

/-- The loop that verifies the block list: its end and the number of bytes behind it. -/
def verifyBlockList (numServices : Nat) (msg : Bytes) : Nat → Nat → Nat → Option (Nat × Nat)
  | 0, p, remaining => some (p, remaining)
  | n + 1, p, remaining =>
    if remaining < 2 then none
    else if serviceIx msg p ≥ numServices then none
    else if ¬ isTwoByte msg p ∧ remaining < 3 then none
    else verifyBlockList numServices msg n (p + entryLen msg p) (remaining - entryLen msg p)

abbrev t3tMsgServiceListMax : Nat := 16
abbrev t3tMsgCmdCommonHdrLen : Nat := 11

/-- A command to the tag, or an error that names an NFCID2. -/
inductive T3tCmd where
  | error (nfcid2 : Bytes)
  | check (numBlocks : Nat) (services : List Nat) (p : Nat)
  | update (numBlocks : Nat) (services : List Nat) (p pd : Nat)
  deriving DecidableEq, Repr

/-- The part of `ce_t3t_data_cback` that takes a CHECK or UPDATE frame apart. -/
def parseCmd (m : T3tMem) (msg : Bytes) : T3tCmd :=
  if msg.length < t3tMsgCmdCommonHdrLen then .error m.localNfcid2
  else
    let nfcid2 := slice msg 2 8
    let numServices := (msg.getD 10 0).toNat
    let start := t3tMsgCmdCommonHdrLen + 2 * numServices + 1
    if numServices > t3tMsgServiceListMax then .error m.localNfcid2
    else if m.state = .notActivated then .error m.localNfcid2
    else if nfcid2 ≠ m.localNfcid2 then .error nfcid2
    else if msg.length < start then .error m.localNfcid2
    else
      let services := (List.range numServices).map fun i => le16At msg (t3tMsgCmdCommonHdrLen + 2 * i)
      let numBlocks := (msg.getD (start - 1) 0).toNat
      match verifyBlockList numServices msg numBlocks start (msg.length - start) with
      | none => .error m.localNfcid2
      | some (pd, remaining) =>
        if msg.getD 1 0 = opcCheckCmd then .check numBlocks services start
        else if remaining < numBlocks * t3tMsgBlocksize then .error m.localNfcid2
        else .update numBlocks services start pd

def t3tDataCback (m : T3tMem) (msg : Bytes) : Option (T3tMem × List T3tOut) :=
  let error nfcid2 := some (m, [sendRsp nfcid2 opcCheckRsp statusError status2ErrorProcessing])
  if m.systemCode ≠ t3tSystemCodeNdef ∨ ¬ m.ndefInfo.initialized then some (m, [.rawFrame])
  else if msg.length < 2 then error m.localNfcid2
  else
    let cmdId := msg.getD 1 0
    if cmdId = opcCheckCmd ∨ cmdId = opcUpdateCmd then
      match parseCmd m msg with
      | .error nfcid2 => error nfcid2
      | .check numBlocks services p => handleCheckCmd m numBlocks services msg p
      | .update numBlocks services p pd => handleUpdateCmd m numBlocks services msg p pd
    else if cmdId = 0x00 ∨ cmdId = 0x02 ∨ cmdId = 0x04 ∨ cmdId = 0x0C then
      some (m, handleNonNfcForumCmd m cmdId msg)
    else error m.localNfcid2

end NfcStack.Ce
