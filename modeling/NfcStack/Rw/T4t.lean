import NfcStack.Lib.Bytes

/- Reading and writing the NDEF message of a Type 4 tag (`rw_t4t.cc`). A tag has a
   capability container, which says how much one command may read and write and how large
   the NDEF file is, and the file: the length of the message, in two or four bytes, and
   the message.

   Up to the offset 0x7FFF a file is read and written by plain commands, beyond it (in
   version 3.0) by commands whose data has the offset and the data as BER-TLV objects.
   A message is written between two updates of its length.

   A command is modelled by its fields, as they are coded: the truncation of an offset or
   a length is that of its field. A buffer is there when a command is to be sent, and a
   command is answered before the next one; there is no timeout. -/
namespace NfcStack.Rw.T4t
open NfcStack.Lib

abbrev Bytes := List UInt8

abbrev insSelect : UInt8 := 0xA4
abbrev insReadBinary : UInt8 := 0xB0
abbrev insReadBinaryOdo : UInt8 := 0xB1
abbrev insUpdateBinary : UInt8 := 0xD6
abbrev insUpdateBinaryOdo : UInt8 := 0xD7
abbrev ccFileId : Nat := 0xE103
abbrev version10 : Nat := 0x10
abbrev version20 : Nat := 0x20
abbrev version30 : Nat := 0x30
/-- `RW_T4T_MAX_DATA_PER_READ`, with buffers of 660 bytes. -/
abbrev maxDataPerRead : Nat := 647
abbrev maxDataPerWrite : Nat := 633
abbrev noWriteAccess : Nat := 0xFF
abbrev noReadAccess : Nat := 0xFF

def v10Aid : Bytes := [0xD2, 0x76, 0x00, 0x00, 0x85, 0x01, 0x00]
def v20Aid : Bytes := [0xD2, 0x76, 0x00, 0x00, 0x85, 0x01, 0x01]

/-- `UINT16_TO_BE_STREAM`. -/
def be16 (n : Nat) : Bytes := [UInt8.ofNat (n / 2 ^ 8), UInt8.ofNat n]

/-- The three bytes of an offset. -/
def be24 (n : Nat) : Bytes := UInt8.ofNat (n / 2 ^ 16) :: be16 n

/-- `UINT32_TO_BE_STREAM`. -/
def be32 (n : Nat) : Bytes := UInt8.ofNat (n / 2 ^ 24) :: be24 n

def byteAt (bs : Bytes) (i : Nat) : Nat := (bs.getD i 0).toNat

/-- `BE_STREAM_TO_UINT16`, from the position `i`. -/
def be16At (bs : Bytes) (i : Nat) : Nat := byteAt bs i * 2 ^ 8 + byteAt bs (i + 1)

/-- `BE_STREAM_TO_UINT32`, from the position `i`. -/
def be32At (bs : Bytes) (i : Nat) : Nat := be16At bs i * 2 ^ 16 + be16At bs (i + 2)

/-- Subtraction in 32 bits. -/
def sub32 (a b : Nat) : Nat := (a + 2 ^ 32 - b) % 2 ^ 32

/-- Subtraction in 16 bits. -/
def sub16 (a b : Nat) : Nat := (a + 2 ^ 16 - b) % 2 ^ 16

/-- A command. `lc` and `le` are the coded values; `ext` says that they are coded in the extended form. -/
structure Apdu where
  ins : UInt8
  p1p2 : Nat
  ext : Bool
  lc : Nat
  data : Bytes
  le : Option Nat
  deriving DecidableEq, Repr

/-! ## The control block -/

inductive Status where
  | ok
  | failed
  | badResp
  | cmdNotCmpltd
  deriving DecidableEq, Repr

inductive State where
  | notActivated
  | idle
  | detectNdef
  | readNdef
  | updateNdef
  deriving DecidableEq, Repr

inductive SubState where
  | waitSelectApp
  | waitSelectCc
  | waitCcFile
  | waitEndefFileCtrlTlv
  | waitSelectNdefFile
  | waitReadNlen
  | waitReadResp
  | waitUpdateResp
  | waitUpdateNlen
  deriving DecidableEq, Repr

structure NdefFc where
  fileId : Nat
  maxFileSize : Nat
  readAccess : Nat
  writeAccess : Nat
  nlenSize : Nat
  deriving DecidableEq, Repr

/-- `tRW_T4T_CC`. -/
structure Cc where
  cclen : Nat
  version : Nat
  maxLe : Nat
  maxLc : Nat
  ndefFc : NdefFc
  deriving DecidableEq, Repr

/-- `tRW_T4T_CB`, with the flag of the conformance test mode. -/
structure Cb where
  state : State
  subState : SubState
  version : Nat
  ndefLength : Nat
  updateData : Option Bytes
  rwLength : Nat
  rwOffset : Nat
  retryCmd : Option Apdu
  ccFile : Cc
  ndefDetected : Bool
  ndefReadOnly : Bool
  maxReadSize : Nat
  maxUpdateSize : Nat
  extFieldCoding : Bool
  ddoLcFieldCoding : Bool
  dtaMode : Bool
  deriving DecidableEq, Repr

inductive Event where
  | ndefDetect (status : Status) (curSize maxSize : Nat) (readOnly : Bool)
  | read (data : Bytes)
  | readCplt (data : Bytes)
  | readFail (status : Status)
  | updateCplt
  | updateFail (status : Status)
  deriving DecidableEq, Repr

/-- What a function sends to the tag or tells the upper layer. -/
inductive Out where
  | frame (f : Apdu)
  | event (e : Event)
  deriving DecidableEq, Repr

/-! ## Commands -/

def sendToLower (cb : Cb) (apdu : Apdu) : Cb × List Out := ({ cb with retryCmd := some apdu }, [.frame apdu])

/-- How a BER-TLV object of `length` bytes goes into one UPDATE: Lc, the length of its data, and the size of
the length of the object (the first half of `rw_t4t_set_ber_tlv`). -/
def berTlv (ext : Bool) (maxUpdate length : Nat) : Nat × Nat × Nat :=
  let lengthSize :=
    if length ≤ 0x7F then 1
    else if length + 8 ≤ 0xFF then 2
    else if ext then (if length ≤ 0xFF then 2 else 3)
    else 2
  let header := 6 + lengthSize
  if ¬ length ≤ 0x7F ∧ ¬ length + 8 ≤ 0xFF ∧ ext = false then
    if 0xFF ≤ maxUpdate then (0xFF, 0xFF - header, lengthSize) else (maxUpdate, sub32 maxUpdate header, lengthSize)
  else if length + header ≤ maxUpdate then (length + header, length, lengthSize)
  else (maxUpdate, sub32 maxUpdate header, lengthSize)

/-- The length of a BER-TLV object; `none` if it does not fit. -/
def berLength (lengthSize dataLength : Nat) : Option Bytes :=
  if lengthSize = 1 then some [UInt8.ofNat dataLength]
  else if lengthSize = 2 then some [0x81, UInt8.ofNat dataLength]
  else if lengthSize = 3 ∧ dataLength ≤ 0xFFFF then some (0x82 :: be16 dataLength)
  else none

/-- The data that has been sent is no longer to be sent. -/
def advance (cb : Cb) (msg : Bytes) (length : Nat) : Cb :=
  { cb with
    rwOffset := (cb.rwOffset + length) % 2 ^ 32
    rwLength := sub32 cb.rwLength length
    updateData := some (msg.drop length) }

/-- `rw_t4t_set_ber_tlv`; a copy ends where the message does. -/
def setBerTlv (cb : Cb) (msg : Bytes) (length : Nat) : Bool × Cb × List Out :=
  let (lc, dataLength, lengthSize) := berTlv cb.extFieldCoding cb.maxUpdateSize length
  match berLength lengthSize dataLength with
  | none => (false, cb, [])
  | some ber =>
    let apdu : Apdu :=
      ⟨insUpdateBinaryOdo, 0, cb.extFieldCoding, lc % (if cb.extFieldCoding then 2 ^ 16 else 2 ^ 8),
        [0x54, 0x03] ++ be24 cb.rwOffset ++ [0x53] ++ ber ++ msg.take dataLength, none⟩
    let (cb, outs) := sendToLower cb apdu
    (true, advance cb msg dataLength, outs)

def updateFile (cb : Cb) (msg : Bytes) : Bool × Cb × List Out :=
  if cb.rwLength = 0 then (false, cb, [])
  else
    let length := if cb.rwLength > cb.maxUpdateSize then cb.maxUpdateSize else cb.rwLength
    if (cb.rwOffset + cb.rwLength) % 2 ^ 32 > 0x7FFF then
      if cb.ccFile.version ≥ version30 then setBerTlv cb msg length else (false, cb, [])
    else
      let length := if length > 0xFF then 0xFF else length
      let (cb, outs) := sendToLower cb
        ⟨insUpdateBinary, cb.rwOffset % 2 ^ 16, false, length % 2 ^ 8, msg.take length, none⟩
      (true, advance cb msg length, outs)

/-- The bytes of the length of a message. -/
def nlenBytes (nlenSize ndefLen : Nat) : Bytes := if nlenSize = 2 then be16 ndefLen else be32 ndefLen

def updateNlen (cb : Cb) (ndefLen : Nat) : Cb × List Out :=
  let nlenSize := cb.ccFile.ndefFc.nlenSize
  sendToLower cb ⟨insUpdateBinary, 0, false, nlenSize % 2 ^ 8, nlenBytes nlenSize ndefLen, none⟩

def readFile (cb : Cb) (offset length : Nat) (isContinue : Bool) : Bool × Cb × List Out :=
  let cb := if isContinue then cb else { cb with rwOffset := offset, rwLength := length }
  let length := if length > cb.maxReadSize then cb.maxReadSize else length
  if (cb.rwOffset + cb.rwLength) % 2 ^ 32 > 0x7FFF then
    if cb.ccFile.version ≥ version30 then
      let length := if length < cb.maxReadSize then 0 else length
      (true, sendToLower { cb with ddoLcFieldCoding := true }
        ⟨insReadBinaryOdo, 0, cb.extFieldCoding, 5, [0x54, 0x03] ++ be24 offset,
          some (length % (if cb.extFieldCoding then 2 ^ 16 else 2 ^ 8))⟩)
    else (false, cb, [])
  else if cb.extFieldCoding then
    (true, sendToLower cb ⟨insReadBinary, offset % 2 ^ 16, true, 0, [], some (length % 2 ^ 16)⟩)
  else
    let length := if length = 0x100 then 0xFF else length
    (true, sendToLower cb ⟨insReadBinary, offset % 2 ^ 16, false, 0, [], some (length % 2 ^ 8)⟩)

def formatShortFieldCoding (cb : Cb) (old : Apdu) : Cb × List Out :=
  if old.ins = insReadBinary ∧ old.ext then
    let le := old.le.getD 0
    sendToLower cb { old with ext := false, le := some (if le ≤ 0xFF then le else 0xFF) }
  else (cb, [])

def selectFile (cb : Cb) (fileId : Nat) : Cb × List Out :=
  let p2 := if cb.version = version20 ∨ cb.version = version30 then 0x0C else 0x00
  sendToLower cb ⟨insSelect, p2, false, 2, be16 fileId, none⟩

def selectApplication (cb : Cb) (version : Nat) : Bool × Cb × List Out :=
  if version = version10 then (true, sendToLower cb ⟨insSelect, 0x0400, false, 7, v10Aid, none⟩)
  else if version = version20 ∨ version = version30 then
    (true, sendToLower cb ⟨insSelect, 0x0400, false, 7, v20Aid, some 0⟩)
  else (false, cb, [])

/-! ## Responses

A response is its data and two status bytes. -/

def handleError (cb : Cb) (status : Status) : Cb × List Out :=
  ({ cb with state := .idle },
    match cb.state with
    | .detectNdef => [.event (.ndefDetect status 0 0 false)]
    | .readNdef => [.event (.readFail status)]
    | .updateNdef => [.event (.updateFail status)]
    | .notActivated | .idle => [])

/-- The detection has found no message. -/
def notDetected (cb : Cb) (status : Status) : Cb × List Out := handleError { cb with ndefDetected := false } status

def validateCcFile (cb : Cb) : Bool :=
  let cc := cb.ccFile
  let fc := cc.ndefFc
  decide (0x0F ≤ cc.cclen) && decide (cc.version / 16 ≤ cb.version / 16) && decide (0x0F ≤ cc.maxLe) &&
    !(decide (cc.maxLc < 1) || decide (cc.maxLc < 0x0D) && cb.dtaMode) &&
    !(fc.fileId == ccFileId || fc.fileId == 0xE102 ||
      fc.fileId == 0 && (cc.version == version20 || cc.version == version30) ||
      fc.fileId == 0x3F00 || fc.fileId == 0x3FFF || fc.fileId == 0xFFFF) &&
    !(cc.version == version20 && (decide (fc.maxFileSize < 5) || decide (0x7FFF < fc.maxFileSize)) ||
      cc.version == version30 && (decide (fc.maxFileSize < 7) || fc.maxFileSize == 0xFFFFFFFF)) &&
    !(decide (0 < fc.readAccess) && decide (fc.readAccess < 0x80) || fc.readAccess == noReadAccess) &&
    !(decide (0 < fc.writeAccess) && decide (fc.writeAccess < 0x80))

def statusWords (rsp : Bytes) : Nat := be16At rsp (rsp.length - 2)

/-- The head of the capability container. -/
def parseCcHead (cc : Cc) (bs : Bytes) : Cc :=
  { cc with cclen := be16At bs 0, version := byteAt bs 2, maxLe := be16At bs 3, maxLc := be16At bs 5 }

/-- The value of an NDEF file control TLV. -/
def parseFc (fc : NdefFc) (bs : Bytes) (i : Nat) : NdefFc :=
  { fc with
    fileId := be16At bs i
    maxFileSize := be16At bs (i + 2)
    readAccess := byteAt bs (i + 4)
    writeAccess := byteAt bs (i + 5) }

/-- The value of an extended NDEF file control TLV. -/
def parseExtFc (fc : NdefFc) (bs : Bytes) (i : Nat) : NdefFc :=
  { fc with
    fileId := be16At bs i
    maxFileSize := be32At bs (i + 2)
    readAccess := byteAt bs (i + 6)
    writeAccess := byteAt bs (i + 7) }

/-- The container is valid: the NDEF file is selected. -/
def selectNdefFile (cb : Cb) (nlenSize : Nat) : Cb × List Out :=
  let (cb, outs) := selectFile cb cb.ccFile.ndefFc.fileId
  ({ cb with
    ccFile := { cb.ccFile with ndefFc := { cb.ccFile.ndefFc with nlenSize := nlenSize } }
    subState := .waitSelectNdefFile }, outs)

/-- A command of the detection that could not be sent. -/
def orFailed (r : Bool × Cb × List Out) (sub : SubState) : Cb × List Out :=
  if r.1 then ({ r.2.1 with subState := sub }, r.2.2) else handleError r.2.1 .failed

/-- The response to the first part of the capability container. -/
def handleCcFile (cb : Cb) (rsp : Bytes) : Cb × List Out :=
  if 0x0F + 2 ≤ rsp.length then
    let cb := { cb with ccFile := parseCcHead cb.ccFile rsp }
    if byteAt rsp 7 = 0x04 ∧ byteAt rsp 8 = 0x06 then
      let cb := { cb with ccFile := { cb.ccFile with ndefFc := parseFc cb.ccFile.ndefFc rsp 9 } }
      if validateCcFile cb then selectNdefFile cb 2 else notDetected cb .badResp
    else if byteAt rsp 7 = 0x06 ∧ byteAt rsp 8 = 0x08 then
      orFailed (readFile cb 0x09 8 false) .waitEndefFileCtrlTlv
    else notDetected cb .badResp
  else notDetected cb .badResp

/-- The response to the value of the extended NDEF file control TLV. -/
def handleEndefFileCtrlTlv (cb : Cb) (rsp : Bytes) : Cb × List Out :=
  if 8 + 2 ≤ rsp.length then
    let cb := { cb with ccFile := { cb.ccFile with ndefFc := parseExtFc cb.ccFile.ndefFc rsp 0 } }
    if validateCcFile cb then selectNdefFile cb 4 else notDetected cb .badResp
  else notDetected cb .badResp

/-- What a detection sets when it has read the length of the message. -/
def detected (cb : Cb) (nlen : Nat) : Cb :=
  let cc := cb.ccFile
  let maxRead := if cc.maxLe ≥ maxDataPerRead then maxDataPerRead else cc.maxLe
  let maxUpdate := if cc.maxLc ≥ maxDataPerWrite then maxDataPerWrite else cc.maxLc
  { cb with
    ndefDetected := true
    ndefReadOnly := decide (cc.ndefFc.writeAccess = noWriteAccess)
    maxReadSize := maxRead
    maxUpdateSize := maxUpdate
    extFieldCoding := cb.extFieldCoding || decide (maxRead > 0x100) || decide (maxUpdate > 0xFF)
    ndefLength := nlen
    state := .idle }

/-- The response to the length of the message. -/
def handleReadNlen (cb : Cb) (rsp : Bytes) : Cb × List Out :=
  let fc := cb.ccFile.ndefFc
  if rsp.length = fc.nlenSize + 2 then
    let nlen := if fc.nlenSize = 2 then be16At rsp 0 else be32At rsp 0
    if nlen ≤ sub32 fc.maxFileSize fc.nlenSize then
      (detected cb nlen, [.event (.ndefDetect .ok nlen (sub32 fc.maxFileSize fc.nlenSize)
        (decide (fc.writeAccess ≠ 0x00)))])
    else notDetected cb .badResp
  else notDetected cb .badResp

def smDetectNdef (cb : Cb) (rsp : Bytes) : Cb × List Out :=
  if statusWords rsp ≠ 0x9000 then
    if cb.subState = .waitSelectApp ∧ (cb.version = version20 ∨ cb.version = version30) then
      let (ok, cb, outs) := selectApplication { cb with version := version10 } version10
      if ok then (cb, outs) else handleError cb .failed
    else notDetected cb .cmdNotCmpltd
  else
    match cb.subState with
    | .waitSelectApp =>
      let (cb, outs) := selectFile cb ccFileId
      ({ cb with subState := .waitSelectCc }, outs)
    | .waitSelectCc => orFailed (readFile cb 0 0x0F false) .waitCcFile
    | .waitCcFile => handleCcFile cb rsp
    | .waitEndefFileCtrlTlv => handleEndefFileCtrlTlv cb rsp
    | .waitSelectNdefFile => orFailed (readFile cb 0 cb.ccFile.ndefFc.nlenSize false) .waitReadNlen
    | .waitReadNlen => handleReadNlen cb rsp
    | .waitReadResp | .waitUpdateResp | .waitUpdateNlen => handleError cb .failed

/-- The data of a response is delivered, and the next command sent if there is more. -/
def deliver (cb : Cb) (data : Bytes) : Cb × List Out :=
  if cb.rwLength > 0 then
    let (ok, cb, outs) := readFile cb cb.rwOffset cb.rwLength true
    let (cb, outs) := if ok then (cb, outs) else handleError cb .failed
    (cb, .event (.read data) :: outs)
  else ({ cb with state := .idle }, [.event (.readCplt data)])

/-- The data has been read, if it is not empty and there was as much to be read. -/
def consume (cb : Cb) (len : Nat) : Cb :=
  if 0 < len ∧ len ≤ cb.rwLength then
    { cb with rwLength := cb.rwLength - len, rwOffset := (cb.rwOffset + len) % 2 ^ 32 }
  else cb

/-- The data of a BER-TLV object behind a head of `head` bytes, which says that it has `expected` bytes. -/
def deliverDdo (cb : Cb) (rsp : Bytes) (head expected : Nat) : Cb × List Out :=
  let len := sub16 (rsp.length - 2) head
  if expected = len then deliver (consume cb len) (slice rsp head len) else handleError cb .badResp

/-- The response to a READ with an offset object. A length of two bytes that is too large is not refused. -/
def handleDdo (cb : Cb) (rsp : Bytes) : Cb × List Out :=
  if byteAt rsp 0 = 0x53 then
    if byteAt rsp 1 ≤ 0x7F then deliverDdo cb rsp 2 (byteAt rsp 1)
    else if byteAt rsp 1 = 0x81 then
      if byteAt rsp 2 ≤ 0xFD then deliverDdo cb rsp 3 (byteAt rsp 2) else handleError cb .badResp
    else if byteAt rsp 1 = 0x82 then
      if be16At rsp 2 + 4 ≤ cb.maxReadSize then deliverDdo cb rsp 4 (be16At rsp 2)
      else deliver cb (rsp.take (rsp.length - 2))
    else handleError cb .badResp
  else handleError cb .badResp

def smReadNdef (cb : Cb) (rsp : Bytes) : Cb × List Out :=
  if statusWords rsp ≠ 0x9000 then handleError cb .cmdNotCmpltd
  else if cb.subState ≠ .waitReadResp then handleError cb .failed
  else if cb.ddoLcFieldCoding then handleDdo cb rsp
  else
    let len := rsp.length - 2
    if 0 < len ∧ len ≤ cb.rwLength then deliver (consume cb len) (rsp.take len)
    else if len = 0 ∧ cb.ccFile.version = version20 ∧ cb.extFieldCoding then
      let cb := { cb with extFieldCoding := false }
      match cb.retryCmd with
      | some old => formatShortFieldCoding cb old
      | none => handleError cb .badResp
    else handleError cb .badResp

/-- The next part of the message is written. -/
def sendPart (cb : Cb) (msg : Bytes) : Cb × List Out :=
  let (ok, cb, outs) := updateFile cb msg
  if ok then (cb, outs)
  else
    let (cb, outs) := handleError cb .failed
    ({ cb with updateData := none }, outs)

def smUpdateNdef (cb : Cb) (rsp : Bytes) : Cb × List Out :=
  if statusWords rsp ≠ 0x9000 then handleError cb .cmdNotCmpltd
  else
    match cb.subState with
    | .waitUpdateNlen =>
      match cb.updateData with
      | some msg => sendPart { cb with subState := .waitUpdateResp } msg
      | none => ({ cb with state := .idle }, [.event .updateCplt])
    | .waitUpdateResp =>
      if cb.rwLength > 0 then sendPart cb (cb.updateData.getD [])
      else
        let (cb, outs) := updateNlen { cb with updateData := none } cb.ndefLength
        ({ cb with subState := .waitUpdateNlen }, outs)
    | _ => handleError cb .failed

/-- `rw_t4t_data_cback`, for a response. -/
def dataCback (cb : Cb) (rsp : Bytes) : Cb × List Out :=
  if cb.state ≠ .idle ∧ rsp.length < 2 then handleError cb .failed
  else
    match cb.state with
    | .detectNdef => smDetectNdef cb rsp
    | .readNdef => smReadNdef cb rsp
    | .updateNdef => smUpdateNdef cb rsp
    | .notActivated | .idle => (cb, [])

/-! ## The functions of the interface -/

/-- `rw_t4t_select`, on a control block that has been cleared. -/
def select (dtaMode : Bool) : Cb where
  state := .idle
  subState := .waitSelectApp
  version := version30
  ndefLength := 0
  updateData := none
  rwLength := 0
  rwOffset := 0
  retryCmd := none
  ccFile := ⟨0, 0, 0x0F, 0, ⟨0, 0, 0, 0, 0⟩⟩
  ndefDetected := false
  ndefReadOnly := false
  maxReadSize := 0xFF
  maxUpdateSize := 0xFF
  extFieldCoding := false
  ddoLcFieldCoding := false
  dtaMode := dtaMode

def detectNDef (cb : Cb) : Status × Cb × List Out :=
  if cb.state ≠ .idle then (.failed, cb, [])
  else if cb.ndefDetected then
    let (cb, outs) := selectFile cb ccFileId
    (.ok, { cb with subState := .waitSelectCc, state := .detectNdef }, outs)
  else
    let (ok, cb, outs) := selectApplication cb cb.version
    if ok then (.ok, { cb with subState := .waitSelectApp, state := .detectNdef }, outs) else (.failed, cb, outs)

def readNDef (cb : Cb) : Status × Cb × List Out :=
  if cb.state ≠ .idle then (.failed, cb, [])
  else if cb.ndefDetected then
    let (ok, cb, outs) := readFile cb cb.ccFile.ndefFc.nlenSize cb.ndefLength false
    if ok then (.ok, { cb with state := .readNdef, subState := .waitReadResp }, outs) else (.failed, cb, outs)
  else (.failed, cb, [])

def updateNDef (msg : Bytes) (cb : Cb) : Status × Cb × List Out :=
  if cb.state ≠ .idle then (.failed, cb, [])
  else if cb.ndefDetected = false then (.failed, cb, [])
  else if cb.ndefReadOnly then (.failed, cb, [])
  else if cb.ccFile.ndefFc.maxFileSize < (msg.length + cb.ccFile.ndefFc.nlenSize) % 2 ^ 32 then (.failed, cb, [])
  else
    let cb := { cb with
      ndefLength := msg.length
      updateData := some msg
      rwOffset := cb.ccFile.ndefFc.nlenSize
      rwLength := msg.length }
    let (cb, outs) := updateNlen cb 0
    (.ok, { cb with state := .updateNdef, subState := .waitUpdateNlen }, outs)

end NfcStack.Rw.T4t
