import NfcStack.Lib.Bytes

/- Reading and writing the NDEF message of a Type 2 tag (`rw_t2t_ndef.cc`). A tag is read
   four blocks at a time and written one block of four bytes at a time. Lock and memory
   control TLVs mark bytes of the data area as lock or reserved bytes: the message is laid
   out around them.

   Writing a message goes through phases: the first block with a length of zero, the
   blocks behind it up to the last one, the first block again with the length, and a
   terminator TLV. A block of which only a part is to be changed is read first, or taken
   from one of the copies that the control block has of the first, the last and the
   terminator block.

   A command to the tag is answered before the next one is sent, and every command is
   answered successfully. The change of sectors is part of a command. Whether a byte is a
   lock or reserved byte is asked by its address here. The bitmap of a segment, out of which
   the code answers, is in `T2tAttributes`, and a detection that asks it in `T2tBitmap`. -/
namespace NfcStack.Rw

/-- Bytes by their index: of a block, of a response or of the tag. -/
abbrev ByteFn := Nat → UInt8

abbrev t2tStaticSize : Nat := 64
abbrev t2tBlockSize : Nat := 4
abbrev t2tHeaderSize : Nat := 16
abbrev t2tCc0NmnByte : Nat := 0x0C
abbrev t2tCc1VnoByte : Nat := 0x0D
abbrev t2tCc2TmsByte : Nat := 0x0E
abbrev t2tCc3RwaByte : Nat := 0x0F
abbrev t2tCc0Nmn : UInt8 := 0xE1
abbrev t2tCc1Vno : UInt8 := 0x11
abbrev t2tCc1LegacyVno : UInt8 := 0x10
abbrev t2tCc1NewVno : UInt8 := 0x12
abbrev t2tCc2TmsStatic : UInt8 := 0x06
abbrev t2tCc3RwaRw : UInt8 := 0x00
abbrev t2tCc3RwaRo : UInt8 := 0x0F
abbrev t2tTmsTagFactor : Nat := 8
abbrev t2tDefaultLockBlpb : Nat := 8
abbrev t2tFirstDataBlock : Nat := 4
abbrev t2tReadBlocks : Nat := 4
abbrev t2tReadDataLen : Nat := 16
abbrev t2tLongNdefMinLen : Nat := 0x00FF
abbrev t2tLongNdefLenFieldByte0 : UInt8 := 0xFF
abbrev t2tShortNdefLenFieldLen : Nat := 1
abbrev t2tLongNdefLenFieldLen : Nat := 3
abbrev rwT2tMaxMemTlvs : Nat := 5
abbrev rwT2tMaxLockBytes : Nat := 32

abbrev tagNullTlv : UInt8 := 0x00
abbrev tagLockCtrlTlv : UInt8 := 0x01
abbrev tagMemCtrlTlv : UInt8 := 0x02
abbrev tagNdefTlv : UInt8 := 0x03
abbrev tagProprietaryTlv : UInt8 := 0xFD
abbrev tagTerminatorTlv : UInt8 := 0xFE
abbrev tagDefaultTlvLen : Nat := 3
abbrev tagBitsPerByte : Nat := 8
abbrev tagKovioMid : UInt8 := 0x37

/-! ## The control block -/

structure LockInfo where
  offset : Nat
  numBits : Nat
  bytesLockedPerBit : Nat
  deriving DecidableEq, Repr

/-- `tRW_T2T_LOCK`, as far as the layout goes. -/
structure LockByte where
  tlvIndex : Nat
  byteIndex : Nat
  deriving DecidableEq, Repr

structure ResInfo where
  offset : Nat
  numBytes : Nat
  deriving DecidableEq, Repr

inductive Substate where
  | none
  | waitReadCc
  | waitTlvDetect
  | waitFindLenFieldLen
  | waitReadTlvLen0
  | waitReadTlvLen1
  | waitReadTlvValue
  | waitReadNdefFirstBlock
  | waitReadNdefNextBlock
  | waitWriteNdefNextBlock
  | waitWriteNdefLastBlock
  | waitReadNdefLenBlock
  | waitWriteNdefLenBlock
  | waitWriteNdefLenNextBlock
  | waitWriteTermTlvCmplt
  deriving DecidableEq, Repr

/-- `tRW_T2T_CB`. The byte before the buffer of the new message is what an index of -1 into
the buffer reads. -/
structure T2tCb where
  substate : Substate
  tagHdr : ByteFn
  bReadHdr : Bool
  tagData : ByteFn
  bReadData : Bool
  lockTlvs : List LockInfo
  lockBytes : List LockByte
  memTlvs : List ResInfo
  foundTlv : UInt8
  bytesCount : Nat
  tlvValue : ByteFn
  ndefDetected : Bool
  ndefHeaderOffset : Nat
  ndefMsgOffset : Nat
  ndefMsgLen : Nat
  maxNdefMsgLen : Nat
  newNdefMsgLen : Nat
  newNdefBuffer : List UInt8
  beforeNewBuffer : UInt8
  ndefBuffer : List UInt8
  workOffset : Nat
  ndefFirstBlock : ByteFn
  ndefReadBlock : ByteFn
  ndefLastBlock : ByteFn
  terminatorTlvBlock : ByteFn
  ndefLastBlockNum : Nat
  terminatorByteIndex : Nat
  ndefReadBlockNum : Nat
  ndefWriteBlock : Nat
  blockRead : Nat
  blockWritten : Nat

/-- The control block of a tag that is activated. -/
def t2tActivated : T2tCb where
  substate := .none
  tagHdr _ := 0
  bReadHdr := false
  tagData _ := 0
  bReadData := false
  lockTlvs := []
  lockBytes := []
  memTlvs := []
  foundTlv := 0
  bytesCount := 0
  tlvValue _ := 0
  ndefDetected := false
  ndefHeaderOffset := 0
  ndefMsgOffset := 0
  ndefMsgLen := 0
  maxNdefMsgLen := 0
  newNdefMsgLen := 0
  newNdefBuffer := []
  beforeNewBuffer := 0
  ndefBuffer := []
  workOffset := 0
  ndefFirstBlock _ := 0
  ndefReadBlock _ := 0
  ndefLastBlock _ := 0
  terminatorTlvBlock _ := 0
  ndefLastBlockNum := 0
  terminatorByteIndex := 0
  ndefReadBlockNum := 0
  ndefWriteBlock := 0
  blockRead := 0
  blockWritten := 0

/-- The addresses of the lock bytes. -/
def T2tCb.lockOffsets (cb : T2tCb) : List Nat :=
  cb.lockBytes.map fun b => ((cb.lockTlvs.getD b.tlvIndex ⟨0, 0, 0⟩).offset + b.byteIndex) % 2 ^ 16

/-- The addresses of the reserved bytes of a memory control TLV. -/
def ResInfo.offsets (r : ResInfo) : List Nat := (List.range r.numBytes).map fun i => (r.offset + i) % 2 ^ 16

/-- The bytes behind the last lock byte, up to the end of its block. -/
def internalOffsets (offset : Nat) : List Nat :=
  let blockBoundary := (offset + 1) % t2tBlockSize
  if blockBoundary ≠ 0 then
    (List.range (t2tBlockSize - blockBoundary)).map fun i => (offset + 1 + i) % 2 ^ 16
  else []

/-- A byte that a lock or memory control TLV marks. -/
def T2tCb.marked (cb : T2tCb) (index : Nat) : Bool :=
  cb.lockOffsets.contains index || cb.memTlvs.any fun r => r.offsets.contains index

/-- What `rw_t2t_is_lock_res_byte` is to answer, by the TLVs that have been decoded. Without lock bytes
there are no internal bytes. -/
def T2tCb.isLockResByte (cb : T2tCb) (index : Nat) : Bool :=
  cb.marked index ||
    match cb.lockOffsets.getLast? with
    | some offset => (internalOffsets offset).contains index
    | none => false

/-- The end of the data area, by the capability container. -/
def T2tCb.dataEnd (cb : T2tCb) : Nat :=
  (cb.tagHdr t2tCc2TmsByte).toNat * t2tTmsTagFactor + t2tFirstDataBlock * t2tBlockSize

/-- The number of blocks up to the end of the data area. -/
def T2tCb.totalBlocks (cb : T2tCb) : Nat := (cb.tagHdr t2tCc2TmsByte).toNat * 2 + t2tFirstDataBlock

/-! ## Commands -/

inductive TagCmd where
  | read (block : Nat)
  | write (block : Nat) (data : ByteFn)

/-- What a handler ends with: the next command, or the event to the upper layer. -/
inductive Reply where
  | cmd (c : TagCmd)
  | done (ok : Bool)
  | quiet

/-- The block that is written, and one of its bytes. -/
def Reply.writes (i : Nat) : Reply → Option (Nat × UInt8)
  | .cmd (.write block d) => some (block, d i)
  | _ => none

theorem Reply.writes_iff {r : Reply} {i block : Nat} {b : UInt8} :
    r.writes i = some (block, b) ↔ ∃ d, r = .cmd (.write block d) ∧ d i = b := by
  cases r with
  | cmd c =>
    cases c with
    | read block' => simp [writes]
    | write block' d' => simp [writes]
  | done ok => simp [writes]
  | quiet => simp [writes]

def Reply.reads : Reply → Option Nat
  | .cmd (.read block) => some block
  | _ => none

/-- The event to the upper layer. -/
def Reply.ended : Reply → Option Bool
  | .done ok => some ok
  | _ => none

theorem Reply.ended_iff {r : Reply} {ok : Bool} : r.ended = some ok ↔ r = .done ok := by
  cases r with
  | done ok' => simp [ended]
  | cmd c => simp [ended]
  | quiet => simp [ended]

def sendRead (cb : T2tCb) (block : Nat) : T2tCb × Reply :=
  ({ cb with blockRead := block }, .cmd (.read block))

def sendWrite (cb : T2tCb) (block : Nat) (data : ByteFn) : T2tCb × Reply :=
  ({ cb with blockWritten := block }, .cmd (.write block data))

/-- The response of the tag to a READ of the block. -/
def readBlocks (mem : ByteFn) (block : Nat) : ByteFn := fun i => mem (block * t2tBlockSize + i)

/-- The tag after a WRITE of the block. -/
def writeBlock (mem : ByteFn) (block : Nat) (data : ByteFn) : ByteFn :=
  fun a => if a / t2tBlockSize = block then data (a % t2tBlockSize) else mem a

/-! ## Writing -/

/-- The length of the length field of the new message. -/
def T2tCb.lengthFieldLen (cb : T2tCb) : Nat :=
  if cb.newNdefMsgLen ≥ t2tLongNdefMinLen then t2tLongNdefLenFieldLen else t2tShortNdefLenFieldLen

/-- The length field for a message of `msgLen` bytes. -/
def T2tCb.lengthField (cb : T2tCb) (msgLen : Nat) : ByteFn :=
  if cb.lengthFieldLen = t2tLongNdefLenFieldLen then
    if msgLen = 0 then fun _ => 0x00
    else fun i => if i = 0 then t2tLongNdefLenFieldByte0
      else if i = 1 then UInt8.ofNat (msgLen / 2 ^ 8) else UInt8.ofNat msgLen
  else fun _ => UInt8.ofNat msgLen

/-- The byte of the new message at the work offset. -/
def T2tCb.newByte (cb : T2tCb) (workOffset : Nat) : UInt8 :=
  if workOffset < cb.lengthFieldLen then cb.beforeNewBuffer
  else cb.newNdefBuffer.getD (workOffset - cb.lengthFieldLen) 0

/-- The loop over the rest of a block that writes the length field: the index, the work offset and
the block that it leaves. -/
def fillLength (cb : T2tCb) (field : ByteFn) (block : Nat) : Nat → Nat → Nat → ByteFn → Nat × Nat × ByteFn
  | 0, index, workOffset, wb => (index, workOffset, wb)
  | n + 1, index, workOffset, wb =>
    if workOffset < cb.newNdefMsgLen then
      if cb.isLockResByte (block * t2tBlockSize + index) then
        if workOffset = cb.lengthFieldLen then (index + 1, workOffset, wb)
        else fillLength cb field block n (index + 1) workOffset wb
      else
        let wb := Function.update wb index (field workOffset)
        if workOffset + 1 = cb.lengthFieldLen then (index + 1, workOffset + 1, wb)
        else fillLength cb field block n (index + 1) (workOffset + 1) wb
    else (index, workOffset, wb)

/-- The loop over the rest of a block that writes the message: the work offset and the block that it
leaves. -/
def fillMessage (cb : T2tCb) (block : Nat) : Nat → Nat → Nat → ByteFn → Nat × ByteFn
  | 0, _, workOffset, wb => (workOffset, wb)
  | n + 1, index, workOffset, wb =>
    if workOffset < cb.newNdefMsgLen + cb.lengthFieldLen then
      if cb.isLockResByte (block * t2tBlockSize + index) then
        fillMessage cb block n (index + 1) workOffset wb
      else
        fillMessage cb block n (index + 1) (workOffset + 1) (Function.update wb index (cb.newByte workOffset))
    else (workOffset, wb)

/-- Both loops, from an index of the block on. -/
def fillBlock (cb : T2tCb) (field : ByteFn) (block index workOffset : Nat) (wb : ByteFn) : Nat × ByteFn :=
  let (index, workOffset, wb) := fillLength cb field block (t2tBlockSize - index) index workOffset wb
  fillMessage cb block (t2tBlockSize - index) index workOffset wb

/-- The substate that `rw_t2t_update_cb` goes to. -/
def T2tCb.nextSubstate (cb : T2tCb) (block : Nat) (bUpdateLen : Bool) : Substate :=
  if bUpdateLen = false then
    if block = cb.ndefLastBlockNum then .waitWriteNdefLastBlock else .waitWriteNdefNextBlock
  else if cb.workOffset ≥ cb.lengthFieldLen then
    if cb.terminatorByteIndex ≠ 0 then .waitWriteNdefLenBlock else .waitWriteTermTlvCmplt
  else .waitWriteNdefLenNextBlock

/-- `rw_t2t_update_cb`: the copies of the block are replaced. -/
def updateCb (cb : T2tCb) (block : Nat) (wb : ByteFn) (bUpdateLen : Bool) : T2tCb :=
  { cb with
    ndefFirstBlock := if block = cb.ndefHeaderOffset / t2tBlockSize then wb else cb.ndefFirstBlock
    terminatorTlvBlock :=
      if cb.terminatorByteIndex / t2tBlockSize = block then wb else cb.terminatorTlvBlock
    ndefLastBlock := if block = cb.ndefLastBlockNum then wb else cb.ndefLastBlock
    workOffset := if bUpdateLen = false ∧ block = cb.ndefLastBlockNum then 0 else cb.workOffset
    substate := cb.nextSubstate block bUpdateLen }

/-- The loop of `rw_t2t_write_ndef_first_block` over the blocks: the block that is to be written, the
work offset and its content. The number of the block has eight bits. -/
def firstBlockLoop (cb : T2tCb) (field : ByteFn) : Nat → Nat → Nat → ByteFn → Option (Nat × Nat × ByteFn)
  | 0, _, _, _ => none
  | n + 1, block, index, wb =>
    if block < cb.totalBlocks then
      let (workOffset, wb) := fillBlock cb field block index 0 wb
      if workOffset = 0 then
        let block := (block + 1) % 2 ^ 8
        firstBlockLoop cb field n block 0 (if block = cb.ndefLastBlockNum then cb.ndefLastBlock else wb)
      else some (block, workOffset, wb)
    else none

/-- The rest of `rw_t2t_write_ndef_first_block`, with the work offset at zero. -/
def writeFirstFrom (cb : T2tCb) (msgLen : Nat) (bUpdateLen : Bool) : T2tCb × Reply :=
  match firstBlockLoop cb (cb.lengthField msgLen) (cb.totalBlocks + 2 ^ 8)
      (cb.ndefHeaderOffset / t2tBlockSize % 2 ^ 8) (cb.ndefHeaderOffset % t2tBlockSize) cb.ndefFirstBlock with
  | none => (cb, .done false)
  | some (block, workOffset, wb) =>
    let cb := updateCb { cb with workOffset := workOffset } block wb bUpdateLen
    sendWrite { cb with bReadData := false } block wb

/-- `rw_t2t_write_ndef_first_block`. A failure ends the operation. -/
def writeNdefFirstBlock (cb : T2tCb) (msgLen : Nat) (bUpdateLen : Bool) : T2tCb × Reply :=
  writeFirstFrom { cb with workOffset := 0 } msgLen bUpdateLen

/-- The loop of `rw_t2t_write_ndef_next_block` over the blocks. If the length field is written already,
only the message is. -/
def nextBlockLoop (cb : T2tCb) (field : ByteFn) : Nat → Nat → ByteFn → Option (Nat × Nat × ByteFn)
  | 0, _, _ => none
  | n + 1, block, wb =>
    let (workOffset, wb) :=
      if cb.workOffset ≥ cb.lengthFieldLen then fillMessage cb block t2tBlockSize 0 cb.workOffset wb
      else fillBlock cb field block 0 cb.workOffset wb
    if workOffset = cb.workOffset then nextBlockLoop cb field n (block + 1) wb
    else some (block, workOffset, wb)

def writeNdefNextBlock (cb : T2tCb) (block msgLen : Nat) (bUpdateLen : Bool) : T2tCb × Reply :=
  match nextBlockLoop cb (cb.lengthField msgLen) (cb.totalBlocks - block) block cb.ndefReadBlock with
  | none => (cb, .done false)
  | some (block, workOffset, wb) =>
    sendWrite (updateCb { cb with workOffset := workOffset } block wb bUpdateLen) block wb

/-- The loop of `rw_t2t_read_ndef_last_block`: the address behind the last byte of the new message. -/
def lastByteLoop (cb : T2tCb) (totalNdefBytes : Nat) : Nat → Nat → Nat → Nat
  | 0, _, offset => offset
  | n + 1, numNdefBytes, offset =>
    if numNdefBytes < totalNdefBytes then
      lastByteLoop cb totalNdefBytes n
        (if cb.isLockResByte offset then numNdefBytes else numNdefBytes + 1) (offset + 1)
    else offset

/-- The last block and the terminator of a message that ends before `offset`. -/
def placeEnd (cb : T2tCb) (offset : Nat) : T2tCb :=
  { cb with
    ndefLastBlockNum := (offset - 1) / t2tBlockSize
    terminatorByteIndex :=
      if cb.newNdefMsgLen + 1 ≤ cb.maxNdefMsgLen then if cb.isLockResByte offset then 0 else offset else 0 }

/-- `rw_t2t_read_ndef_last_block`, which reads nothing: it locates the last block and the terminator. -/
def readNdefLastBlock (cb : T2tCb) : T2tCb :=
  let total := cb.lengthFieldLen + cb.newNdefMsgLen
  placeEnd cb (lastByteLoop cb total (2 ^ 16 + total) 0 cb.ndefHeaderOffset)

/-- The number of bytes of a block that are free. -/
def freeInBlock (cb : T2tCb) (block : Nat) : Nat :=
  ((List.range t2tBlockSize).filter fun i => !cb.isLockResByte (block * t2tBlockSize + i)).length

/-- The loop of `rw_t2t_is_read_before_write_block` that goes past blocks of which no byte is free. -/
def freeBlockLoop (cb : T2tCb) : Nat → Nat → Bool × Nat
  | 0, block => (true, block)
  | n + 1, block =>
    let count := freeInBlock cb block
    if count = t2tBlockSize then (false, block)
    else if count = 0 then freeBlockLoop cb n (block + 1)
    else (true, block)

/-- `rw_t2t_is_read_before_write_block`: whether the block has to be read, and which one. -/
def isReadBeforeWriteBlock (cb : T2tCb) (block : Nat) : T2tCb × Bool × Nat :=
  if block = cb.ndefHeaderOffset / t2tBlockSize then
    ({ cb with ndefReadBlock := cb.ndefFirstBlock }, false, block)
  else if block = cb.ndefLastBlockNum then
    ({ cb with ndefReadBlock := cb.ndefLastBlock }, false, block)
  else if block = cb.terminatorByteIndex / t2tBlockSize then
    ({ cb with ndefReadBlock := cb.terminatorTlvBlock }, false, block)
  else (cb, freeBlockLoop cb (cb.totalBlocks - block) block)

def readNdefNextBlock (cb : T2tCb) (block : Nat) : T2tCb × Reply :=
  sendRead { cb with substate := .waitReadNdefNextBlock } (block - block % t2tReadBlocks)

/-- `rw_t2t_add_terminator_tlv`. If there is no place for it, the operation is done. -/
def addTerminatorTlv (cb : T2tCb) : T2tCb × Reply :=
  let block := cb.terminatorByteIndex / t2tBlockSize
  if block = cb.ndefLastBlockNum then
    let index := cb.terminatorByteIndex % t2tBlockSize
    let wb := fun i => if i < index then cb.ndefLastBlock i
      else if i = index then tagTerminatorTlv else 0x00
    sendWrite { cb with terminatorTlvBlock := wb, substate := .waitWriteTermTlvCmplt } block wb
  else if cb.terminatorByteIndex ≠ 0 then
    let wb := fun i => if i = 0 then tagTerminatorTlv else 0x00
    sendWrite { cb with terminatorTlvBlock := wb, substate := .waitWriteTermTlvCmplt } block wb
  else (cb, .done true)

/-- The end of a write: the message is now the new one. -/
def writeDone (cb : T2tCb) : T2tCb :=
  { cb with
    ndefMsgOffset :=
      if cb.ndefMsgLen ≥ 0x00FF ∧ cb.newNdefMsgLen < 0x00FF then cb.ndefMsgOffset - 2
      else if cb.newNdefMsgLen ≥ 0x00FF ∧ cb.ndefMsgLen < 0x00FF then cb.ndefMsgOffset + 2
      else cb.ndefMsgOffset
    ndefMsgLen := cb.newNdefMsgLen }

/-- The next block of the message, or of the length field. -/
def nextBlock (cb : T2tCb) (bUpdateLen : Bool) : T2tCb × Reply :=
  match isReadBeforeWriteBlock cb (cb.blockWritten + 1) with
  | (cb, true, block) => readNdefNextBlock { cb with ndefReadBlockNum := block } block
  | (cb, false, block) => writeNdefNextBlock cb block (if bUpdateLen then cb.newNdefMsgLen else 0) bUpdateLen

/-- The switch of `rw_t2t_handle_ndef_write_rsp`. -/
def handleNdefWrite (cb : T2tCb) (data : ByteFn) : T2tCb × Reply :=
  match cb.substate with
  | .waitReadNdefFirstBlock =>
    let cb := readNdefLastBlock { cb with ndefFirstBlock := data }
    writeNdefFirstBlock { cb with terminatorTlvBlock := fun _ => 0 } 0 false
  | .waitReadNdefNextBlock =>
    let offset := (cb.ndefReadBlockNum - cb.blockRead) * t2tBlockSize
    writeNdefNextBlock { cb with ndefReadBlock := fun i => data (offset + i) } cb.ndefReadBlockNum 0 false
  | .waitWriteNdefNextBlock => nextBlock cb false
  | .waitWriteNdefLenNextBlock => nextBlock cb true
  | .waitWriteNdefLastBlock =>
    match isReadBeforeWriteBlock { cb with ndefWriteBlock := cb.ndefHeaderOffset / t2tBlockSize }
        (cb.ndefHeaderOffset / t2tBlockSize) with
    | (cb, true, block) => sendRead { cb with substate := .waitReadNdefLenBlock } block
    | (cb, false, _) => writeNdefFirstBlock cb cb.newNdefMsgLen true
  | .waitReadNdefLenBlock =>
    let (cb, reply) := writeNdefNextBlock { cb with ndefReadBlock := data } cb.blockRead cb.newNdefMsgLen true
    ({ cb with ndefWriteBlock := cb.blockRead + 1 }, reply)
  | .waitWriteNdefLenBlock => addTerminatorTlv cb
  | .waitWriteTermTlvCmplt => (cb, .done true)
  | _ => (cb, .quiet)

def handleNdefWriteRsp (cb : T2tCb) (data : ByteFn) : T2tCb × Reply :=
  match handleNdefWrite cb data with
  | (cb, .done true) => (writeDone cb, .done true)
  | r => r

/-- `b_otp` of `t2t_tag_init_data`, by the manufacturer. -/
def isOtp (manufacturerId : UInt8) : Bool := manufacturerId == tagKovioMid

/-- The control block with a new message. -/
def newMessage (cb : T2tCb) (msg : List UInt8) (before : UInt8) : T2tCb :=
  { cb with
    newNdefBuffer := msg
    beforeNewBuffer := before
    newNdefMsgLen := msg.length
    workOffset := 0
    substate := .waitReadNdefFirstBlock }

/-- `RW_T2tWriteNDef`, for a tag that is idle: none if it is refused. -/
def t2tWriteNDef (cb : T2tCb) (msg : List UInt8) (before : UInt8) : Option (T2tCb × Reply) :=
  let block := cb.ndefHeaderOffset / t2tBlockSize
  if ¬ cb.ndefDetected then none
  else if cb.tagHdr t2tCc3RwaByte ≠ t2tCc3RwaRw then none
  else if msg.length > cb.maxNdefMsgLen then none
  else if cb.ndefMsgLen > 0 ∧ isOtp (cb.tagHdr 0) then none
  else if block < t2tFirstDataBlock + t2tReadBlocks ∧ cb.bReadData then
    some (handleNdefWriteRsp { newMessage cb msg before with blockRead := block }
      fun i => cb.tagData ((block - t2tFirstDataBlock) * t2tBlockSize + i))
  else some (sendRead (newMessage cb msg before) block)

/-! ## The tag -/

/-- The control block, the tag and what has been sent last. -/
structure TagSys (σ : Type := T2tCb) where
  cb : σ
  mem : ByteFn
  reply : Reply

/-- What the control block does with a response. -/
abbrev Handler (σ : Type := T2tCb) := σ → ByteFn → σ × Reply

section Runs
variable {σ : Type}

/-- The tag carries out the command and its response is handled. -/
def tagSysStep (handler : Handler σ) (s : TagSys σ) : Option (TagSys σ) :=
  match s.reply with
  | .cmd (.read block) =>
    let (cb, reply) := handler s.cb (readBlocks s.mem block)
    some ⟨cb, s.mem, reply⟩
  | .cmd (.write block data) =>
    let (cb, reply) := handler s.cb fun _ => 0
    some ⟨cb, writeBlock s.mem block data, reply⟩
  | _ => none

theorem tagSysStep_read (handler : Handler σ) (cb : σ) (mem : ByteFn) (block : Nat) :
    tagSysStep handler ⟨cb, mem, .cmd (.read block)⟩ = some ⟨(handler cb (readBlocks mem block)).1, mem,
      (handler cb (readBlocks mem block)).2⟩ := rfl

/-- The system after `n` commands, or when there are no more. -/
def TagSys.after (handler : Handler σ) : Nat → TagSys σ → TagSys σ
  | 0, s => s
  | n + 1, s =>
    match tagSysStep handler s with
    | none => s
    | some t => t.after handler n

theorem TagSys.after_invariant {handler : Handler σ} {Inv : TagSys σ → Prop}
    (hstep : ∀ s t, Inv s → tagSysStep handler s = some t → Inv t) (n : Nat) :
    ∀ {s : TagSys σ}, Inv s → Inv (s.after handler n) := by
  induction n with
  | zero => exact fun h => h
  | succ n ih =>
    intro s h
    unfold TagSys.after
    cases hs : tagSysStep handler s with
    | none => exact h
    | some t => exact ih (hstep s t h hs)

theorem TagSys.after_done {handler : Handler σ} {s : TagSys σ} {ok : Bool} (h : s.reply = .done ok) (n : Nat) :
    s.after handler n = s := by
  cases n with
  | zero => rfl
  | succ n => simp [TagSys.after, tagSysStep, h]

theorem TagSys.after_add {handler : Handler σ} (m n : Nat) : ∀ (s : TagSys σ),
    s.after handler (m + n) = (s.after handler m).after handler n := by
  induction m with
  | zero =>
    intro s
    rw [Nat.zero_add]
    rfl
  | succ m ih =>
    intro s
    have hadd : m + 1 + n = m + n + 1 := by omega
    rw [hadd, TagSys.after, TagSys.after]
    cases hs : tagSysStep handler s with
    | none =>
      cases n with
      | zero => rfl
      | succ n =>
        dsimp only
        rw [TagSys.after, hs]
    | some t => exact ih t

end Runs

end NfcStack.Rw
