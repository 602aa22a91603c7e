import NfcStack.Lib.Bytes

/- The emulated Type 4 tag (`ce_t4t.cc`). A reader selects an application by its AID:
   one that the device host registered, which then gets every command, or the NDEF
   application, whose capability container and NDEF file are read and updated here.

   What is proved about it is in `T4tFile`, the NDEF file, and in `T4tSelect`, the
   selection.

   An access outside a buffer, or through a null pointer, is a fault: the handler
   does not return. Sending a response succeeds. The timer of an update is left out,
   and so is the callback of the tag, which is there when a tag is activated. -/
namespace NfcStack.Ce
open NfcStack.Lib

abbrev Bytes := List UInt8

/-! ## The control block -/

abbrev ceT4tMaxRegAid : Nat := 4
abbrev nfcMaxAidLen : Nat := 16

structure T4tStatus where
  t4tAppSelected : Bool := false
  regAidSelected : Bool := false
  ccFileSelected : Bool := false
  ndefSelected : Bool := false
  ndefFileReadOnly : Bool := false
  ndefFileUpdating : Bool := false
  wildcardAidSelected : Bool := false
  deriving DecidableEq, Repr

/-- `tCE_T4T_REG_AID`; the entry is free if its AID is empty. -/
structure RegAid (Cback : Type) where
  aid : Bytes := []
  cback : Option Cback := none

structure T4tMem (Cback : Type) where
  ccFile : Bytes
  ndefMsg : Option Bytes
  nlen : Nat
  maxFileSize : Nat
  scratchBuf : Option Bytes
  status : T4tStatus
  wildcardAidCback : Option Cback
  regAid : Fin ceT4tMaxRegAid → RegAid Cback
  selectedAidIdx : Nat

def ceInit (Cback : Type) : T4tMem Cback where
  ccFile := List.replicate 15 0
  ndefMsg := none
  nlen := 0
  maxFileSize := 0
  scratchBuf := none
  status := {}
  wildcardAidCback := none
  regAid _ := {}
  selectedAidIdx := 0

/-- The status words of a response. -/
inductive StatusWords where
  | cmdCmplted
  | notFound
  | wrongParams
  | classNotSupported
  | wrongLength
  | instrNotSupported
  | cmdNotAllowed
  deriving DecidableEq, Repr

def StatusWords.bytes : StatusWords → Bytes
  | .cmdCmplted => [0x90, 0x00]
  | .notFound => [0x6A, 0x82]
  | .wrongParams => [0x6B, 0x00]
  | .classNotSupported => [0x6E, 0x00]
  | .wrongLength => [0x67, 0x00]
  | .instrNotSupported => [0x6D, 0x00]
  | .cmdNotAllowed => [0x69, 0x86]

/-- What the handler does: a response to the reader, a command forwarded to a callback (or
to none), or an event about an update. -/
inductive T4tOut (Cback : Type) where
  | rApdu (data : Bytes) (sw : StatusWords)
  | rawFrame (cback : Option Cback) (aidHandle : Nat)
  | ndefUpdateStart
  | ndefUpdateCplt (length : Nat)
  deriving DecidableEq, Repr

/-- `UINT16_TO_BE_STREAM`. -/
def be16 (n : Nat) : Bytes := [UInt8.ofNat (n / 2 ^ 8), UInt8.ofNat n]

/-- `BE_STREAM_TO_UINT16`, from the position `i`. -/
def be16At (bs : Bytes) (i : Nat) : Nat := (bs.getD i 0).toNat * 2 ^ 8 + (bs.getD (i + 1) 0).toNat

/-! ## Files -/

abbrev t4tCcFileId : Nat := 0xE103
abbrev ceT4tMandatoryNdefFileId : Nat := 0x1000
abbrev t4tFileLengthSize : Nat := 2
abbrev ceT4tMaxLe : Nat := 646
abbrev ceT4tMaxLc : Nat := 644
abbrev t4tCcFileLen : Nat := 15

section Code
variable {Cback : Type}

def T4tMem.setStatus (m : T4tMem Cback) (f : T4tStatus → T4tStatus) : T4tMem Cback :=
  { m with status := f m.status }

/-- The scratch buffer, if there is one, gets the message. -/
def initScratch (msg : Bytes) (ndefMsgLen : Nat) (scratchBuf : Option Bytes) : Option (Option Bytes) :=
  match scratchBuf with
  | none => some none
  | some buf => (readAt msg 0 ndefMsgLen).bind fun src => (writeAt buf 0 src).map some

def setLocalNDEFMsg (m : T4tMem Cback) (readOnly : Bool) (ndefMsgMax ndefMsgLen : UInt16)
    (ndefMsg scratchBuf : Option Bytes) : Option (T4tMem Cback) :=
  match ndefMsg with
  | none => some { m with ndefMsg := none }
  | some msg =>
    if ¬ readOnly ∧ scratchBuf = none then some m
    else
      let ccFile := be16 0x000F ++ [0x30] ++ be16 ceT4tMaxLe ++ be16 ceT4tMaxLc ++ [0x04, 0x06] ++
        be16 ceT4tMandatoryNdefFileId ++ be16 (ndefMsgMax.toNat + t4tFileLengthSize) ++
        [0x00, if readOnly then 0xFF else 0x00]
      (initScratch msg ndefMsgLen.toNat scratchBuf).map fun scratchBuf =>
        { m with
          ccFile := ccFile
          status := { m.status with ndefFileReadOnly := readOnly }
          ndefMsg := some msg
          nlen := ndefMsgLen.toNat
          maxFileSize := (ndefMsgMax.toNat + t4tFileLengthSize) % 2 ^ 16
          scratchBuf := scratchBuf }

/-- `ce_select_t4t`: all but the read-only flag is cleared. -/
def selectT4t (m : T4tMem Cback) : T4tMem Cback :=
  m.setStatus fun st => { ndefFileReadOnly := st.ndefFileReadOnly }

def selectFile (m : T4tMem Cback) (fileId : Nat) : T4tMem Cback × Bool :=
  if fileId = t4tCcFileId then
    (m.setStatus fun st => { st with ccFileSelected := true, ndefSelected := false }, true)
  else if fileId = ceT4tMandatoryNdefFileId then
    (m.setStatus fun st => { st with ndefSelected := true, ccFileSelected := false }, true)
  else (m.setStatus fun st => { st with ccFileSelected := false, ndefSelected := false }, false)

/-- The buffer that `ce_t4t_read_binary` reads from. -/
def readSrc (m : T4tMem Cback) : Option Bytes :=
  if m.status.ccFileSelected then some m.ccFile
  else if m.status.ndefSelected then
    match m.scratchBuf with
    | some buf => some buf
    | none => m.ndefMsg
  else none

/-- `ce_t4t_read_binary`. The two bytes of the length come before the message. -/
def readBinary (m : T4tMem Cback) (offset length : Nat) : Option (List (T4tOut Cback)) :=
  match readSrc m with
  | none => some [.rApdu [] .cmdNotAllowed]
  | some src =>
    if m.status.ndefSelected ∧ length > 0 then
      if offset = 0 then
        if length = 1 then some [.rApdu ((be16 m.nlen).take 1) .cmdCmplted]
        else (readAt src 0 (length - t4tFileLengthSize)).map fun bs =>
          [.rApdu (be16 m.nlen ++ bs) .cmdCmplted]
      else if offset = 1 then
        (readAt src 0 (length - 1)).map fun bs => [.rApdu (UInt8.ofNat m.nlen :: bs) .cmdCmplted]
      else (readAt src (offset - t4tFileLengthSize) length).map fun bs => [.rApdu bs .cmdCmplted]
    else (readAt src offset length).map fun bs => [.rApdu bs .cmdCmplted]

/-- The loop that writes to the length: the bytes of it, the offset, the number of bytes left
and these. -/
def updateNlen (fileLength : Bytes) (offset : Nat) : Nat → Bytes → Bytes × Nat × Nat × Bytes
  | 0, data => (fileLength, offset, 0, data)
  | length + 1, data =>
    if offset < t4tFileLengthSize then
      updateNlen (fileLength.set offset (data.headD 0)) (offset + 1) length data.tail
    else (fileLength, offset, length + 1, data)

/-- What is left is copied to the scratch buffer, from the position `pos`. -/
def copyToScratch (scratchBuf : Option Bytes) (pos length : Nat) (data : Bytes) :
    Option (Option Bytes) :=
  if length > 0 then
    scratchBuf.bind fun buf => (writeAt buf pos (data.take length)).map some
  else some scratchBuf

def updateBinary (m : T4tMem Cback) (offset length : Nat) (data : Bytes) :
    Option (T4tMem Cback × List (T4tOut Cback)) := do
  let startingOffset := offset
  let (fileLength, offset, length, data) := updateNlen (be16 m.nlen) offset length data
  let nlen := be16At fileLength 0
  let scratchBuf ← copyToScratch m.scratchBuf (offset - t4tFileLengthSize) length data
  let m := { m with nlen := nlen, scratchBuf := scratchBuf }
  if startingOffset = 0 ∧ nlen > 0 then
    pure (m.setStatus fun st => { st with ndefFileUpdating := false },
      [.ndefUpdateCplt nlen, .rApdu [] .cmdCmplted])
  else if ¬ m.status.ndefFileUpdating then
    pure (m.setStatus fun st => { st with ndefFileUpdating := true },
      [.ndefUpdateStart, .rApdu [] .cmdCmplted])
  else pure (m, [.rApdu [] .cmdCmplted])

/-! ## Selection -/

/-- `t4t_v20_ndef_tag_aid`, without the version. -/
abbrev t4tNdefTagAid : Bytes := [0xD2, 0x76, 0x00, 0x00, 0x85, 0x01]

/-- The entry of the registered AID. -/
def findRegAid (m : T4tMem Cback) (aid : Bytes) : Option (Fin ceT4tMaxRegAid) :=
  (List.finRange ceT4tMaxRegAid).find? fun xx =>
    decide ((m.regAid xx).aid ≠ [] ∧ (m.regAid xx).aid = aid)

/-- The AID of a SELECT command. -/
def selectAid (apdu : Bytes) : Bytes := slice apdu 5 (apdu.getD 4 0).toNat

/-- The NDEF application is asked for, and there is a message. -/
def isNdefAid (m : T4tMem Cback) (apdu : Bytes) : Bool :=
  (apdu.getD 4 0) == 7 && (selectAid apdu).take 6 == t4tNdefTagAid && m.ndefMsg.isSome

/-- `ce_t4t_process_select_app_cmd`. The index is reset before the AIDs are compared. -/
def processSelectAppCmd (m : T4tMem Cback) (apdu : Bytes) : T4tMem Cback × List (T4tOut Cback) :=
  if (apdu.getD 4 0).toNat > apdu.length - 5 then (m, [.rApdu [] .wrongLength])
  else
    match findRegAid m (selectAid apdu) with
    | some xx =>
      ({ m with
        selectedAidIdx := xx.val
        status := { m.status with
          ccFileSelected := false, ndefSelected := false, t4tAppSelected := false,
          wildcardAidSelected := false, regAidSelected := true } },
        [.rawFrame (m.regAid xx).cback xx.val])
    | none =>
      let m := { m with selectedAidIdx := ceT4tMaxRegAid }
      let app (version : UInt8) :=
        ({ m with
          ccFile := m.ccFile.set 2 version
          status := { m.status with
            ccFileSelected := false, ndefSelected := false, regAidSelected := false,
            wildcardAidSelected := false, t4tAppSelected := true } },
          [T4tOut.rApdu [] .cmdCmplted])
      if isNdefAid m apdu then
        if apdu.getD 11 0 = 0x00 then app 0x10
        else if apdu.getD 11 0 = 0x01 then app 0x20
        else (m, [.rApdu [] .notFound])
      else if m.wildcardAidCback.isSome then
        ({ m with
          status := { m.status with
            ccFileSelected := false, ndefSelected := false, t4tAppSelected := false,
            regAidSelected := false, wildcardAidSelected := true } },
          [.rawFrame m.wildcardAidCback ceT4tMaxRegAid])
      else (m, [.rApdu [] .notFound])

/-! ## Commands -/

abbrev t4tCmdClass : UInt8 := 0x00
abbrev t4tCmdInsSelect : UInt8 := 0xA4
abbrev t4tCmdInsReadBinary : UInt8 := 0xB0
abbrev t4tCmdInsUpdateBinary : UInt8 := 0xD6
abbrev t4tCmdP1SelectByName : UInt8 := 0x04
abbrev t4tCmdP1SelectByFileId : UInt8 := 0x00
abbrev t4tCmdMinHdrSize : Nat := 4
abbrev t4tCmdMaxHdrSize : Nat := 5

/-- A SELECT by name; `P1` is read only if the header is complete. -/
def isSelectByName (apdu : Bytes) : Bool :=
  decide (t4tCmdMinHdrSize ≤ apdu.length) && apdu.getD 0 0 == t4tCmdClass &&
    apdu.getD 1 0 == t4tCmdInsSelect && apdu.getD 2 0 == t4tCmdP1SelectByName

def processSelectFileCmd (m : T4tMem Cback) (apdu : Bytes) : T4tMem Cback × List (T4tOut Cback) :=
  if apdu.getD 4 0 = 2 then
    let (m, found) := selectFile m (be16At apdu 5)
    (m, [.rApdu [] (if found then .cmdCmplted else .notFound)])
  else (m, [.rApdu [] .wrongLength])

/-- A READ BINARY while a file is selected: the length is cut at the end of the file. -/
def readBinaryCmd (m : T4tMem Cback) (apdu : Bytes) : Option (List (T4tOut Cback)) :=
  let maxFileSize := if m.status.ccFileSelected then t4tCcFileLen else m.maxFileSize
  if apdu.length < t4tCmdMaxHdrSize then some [.rApdu [] .wrongLength]
  else
    let offset := be16At apdu 2
    let length := (apdu.getD 4 0).toNat
    let length :=
      if length ≤ ceT4tMaxLe then
        if length + offset > maxFileSize then
          if offset < maxFileSize then (maxFileSize - offset) % 2 ^ 8 else 0
        else length
      else 0
    if length > 0 then readBinary m offset length else some [.rApdu [] .wrongParams]

/-- An UPDATE BINARY while the NDEF file is selected and may be written. -/
def updateBinaryCmd (m : T4tMem Cback) (apdu : Bytes) : Option (T4tMem Cback × List (T4tOut Cback)) :=
  if apdu.length < t4tCmdMaxHdrSize then some (m, [.rApdu [] .wrongLength])
  else
    let offset := be16At apdu 2
    let length := (apdu.getD 4 0).toNat
    let length :=
      if length ≤ ceT4tMaxLc ∧ length ≤ apdu.length - t4tCmdMaxHdrSize then
        if length + offset > m.maxFileSize then 0 else length
      else 0
    if length > 0 then updateBinary m offset length (apdu.drop 5)
    else some (m, [.rApdu [] .wrongParams])

/-- A command to the NDEF application. -/
def ndefAppCmd (m : T4tMem Cback) (apdu : Bytes) : Option (T4tMem Cback × List (T4tOut Cback)) :=
  let instruct := if t4tCmdMinHdrSize ≤ apdu.length then apdu.getD 1 0 else 0
  if instruct = t4tCmdInsSelect then
    if apdu.getD 2 0 = t4tCmdP1SelectByFileId then
      if apdu.length < t4tCmdMaxHdrSize + 2 then some (m, [.rApdu [] .wrongLength])
      else some (processSelectFileCmd m apdu)
    else some (m, [.rApdu [] .wrongParams])
  else if instruct = t4tCmdInsReadBinary then
    if m.status.ccFileSelected ∨ m.status.ndefSelected then (readBinaryCmd m apdu).map fun outs => (m, outs)
    else some (m, [.rApdu [] .cmdNotAllowed])
  else if instruct = t4tCmdInsUpdateBinary then
    if m.status.ndefFileReadOnly then some (m, [.rApdu [] .cmdNotAllowed])
    else if m.status.ndefSelected then updateBinaryCmd m apdu
    else some (m, [.rApdu [] .cmdNotAllowed])
  else some (m, [.rApdu [] .instrNotSupported])

/-- `ce_t4t_data_cback`, for a command of the reader. -/
def dataCback (m : T4tMem Cback) (apdu : Bytes) : Option (T4tMem Cback × List (T4tOut Cback)) :=
  if apdu = [] then some (m, [.rApdu [] .wrongLength])
  else if apdu.getD 0 0 ≠ t4tCmdClass ∧ ¬ m.status.regAidSelected ∧ ¬ m.status.wildcardAidSelected then
    some (m, [.rApdu [] .classNotSupported])
  else if isSelectByName apdu then
    if t4tCmdMaxHdrSize ≤ apdu.length then some (processSelectAppCmd m apdu)
    else some (m, [.rApdu [] .notFound])
  else if m.status.regAidSelected then
    if h : m.selectedAidIdx < ceT4tMaxRegAid then
      some (m, [.rawFrame (m.regAid ⟨m.selectedAidIdx, h⟩).cback m.selectedAidIdx])
    else some (m, [.rApdu [] .notFound])
  else if m.status.wildcardAidSelected then
    some (m, [.rawFrame m.wildcardAidCback ceT4tMaxRegAid])
  else if m.status.t4tAppSelected then ndefAppCmd m apdu
  else some (m, [.rApdu [] .cmdNotAllowed])

/-! ## Registration -/

/-- `CE_T4tRegisterAID`: the new state and the handle. -/
def registerAID (m : T4tMem Cback) (aid : Bytes) (cback : Option Cback) : T4tMem Cback × Option Nat :=
  if aid = [] then
    if m.wildcardAidCback.isSome then (m, none)
    else ({ m with wildcardAidCback := cback }, some ceT4tMaxRegAid)
  else if aid.length > nfcMaxAidLen then (m, none)
  else if cback = none then (m, none)
  else if (List.finRange ceT4tMaxRegAid).any fun xx => (m.regAid xx).aid == aid then (m, none)
  else
    match (List.finRange ceT4tMaxRegAid).find? fun xx => (m.regAid xx).aid == [] with
    | some xx => ({ m with regAid := Function.update m.regAid xx ⟨aid, cback⟩ }, some xx.val)
    | none => (m, none)

/-- `CE_T4tDeregisterAID`. The selection stays as it is. -/
def deregisterAID (m : T4tMem Cback) (aidHandle : Nat) : T4tMem Cback :=
  if aidHandle = ceT4tMaxRegAid then { m with wildcardAidCback := none }
  else if h : aidHandle < ceT4tMaxRegAid then
    if (m.regAid ⟨aidHandle, h⟩).aid = [] then m
    else { m with regAid := Function.update m.regAid ⟨aidHandle, h⟩ {} }
  else m

end Code

end NfcStack.Ce
