import Mathlib

/- Reading and writing the NDEF message of an ISO 15693 tag (`rw_i93.cc`) and of a Type 5
   tag (`rw_t5t.cc`), once detection has reported it. A handler is given one response of
   the tag, of any length, and sends the next command.

   A response is a length and memory: `STREAM_TO_UINT8` and `*(p + xx)` read what is
   there, whether it was received or not. A handler therefore also returns what it
   touched: each byte of the response and of the update buffer that it read or wrote,
   with the bytes of a block it sends among them.

   The buffer for a command may be missing, and the layers below may refuse it. -/
namespace NfcStack.Rw.I93

abbrev maxBlockLength : Nat := 32
abbrev flagErrorDetected : UInt8 := 0x01
abbrev errorCodeBlockFailToWrite : UInt8 := 0x13
abbrev icodeTlvTypeNull : UInt8 := 0x00
abbrev icodeTlvTypeTerm : UInt8 := 0xFE

def sub32 (a b : Nat) : Nat := (a + 2 ^ 32 - b) % 2 ^ 32

theorem sub32_of_le {a b : Nat} (h : b ≤ a) (ha : a < 2 ^ 32) : sub32 a b = a - b := by
  simp only [sub32]
  omega

/-! ## What detection leaves -/

inductive Product where
  | tagItHfIPlusInlay
  | tagItHfIPlusChip
  | tagItHfIStdChipInlay
  | tagItHfIProChipInlay
  | other
  deriving DecidableEq, Repr

def Product.isTagIt : Product → Bool
  | .other => false
  | _ => true

/-- The layout that detection has reported. The sizes are those of the fields they come
from: five bits and sixteen bits of the system information, a capability container of at
most 65535 units of eight bytes. -/
structure Layout where
  blockSize : Nat
  numBlock : Nat
  product : Product
  ndefTlvStartOffset : Nat
  ndefTlvLastOffset : Nat
  t5tAreaLastOffset : Nat
  size_pos : 0 < blockSize
  size_le : blockSize ≤ maxBlockLength
  blocks_le : numBlock ≤ 2 ^ 16
  start_lt : ndefTlvStartOffset < 2 ^ 22
  area_lt : t5tAreaLastOffset < 2 ^ 20

def Layout.lengthOffset (l : Layout) : Nat := (l.ndefTlvStartOffset + 1) % l.blockSize

theorem Layout.lengthOffset_lt (l : Layout) : l.lengthOffset < l.blockSize :=
  Nat.mod_lt _ l.size_pos

/-- A response: the bytes received, flags first, and what the buffer holds after them. -/
structure Resp where
  bytes : List UInt8
  beyond : Nat → UInt8
  len_lt : bytes.length < 2 ^ 16

def Resp.length (r : Resp) : Nat := r.bytes.length - 1

def Resp.at (r : Resp) (i : Nat) : UInt8 := r.bytes[i + 1]?.getD (r.beyond i)

theorem Resp.length_lt (r : Resp) : r.length < 2 ^ 16 := by
  have := r.len_lt
  simp only [Resp.length]
  omega

def errorDetected (flags : UInt8) : Bool := flags &&& flagErrorDetected != 0

inductive State where
  | idle
  | readNdef
  | updateNdef
  deriving DecidableEq, Repr

inductive SubState where
  | resetLen
  | writeNdef
  | updateLen
  deriving DecidableEq, Repr

/-! ## Reading -/

structure Chunk where
  resp : Resp
  offset : Nat
  len : Nat

/-- `tRW_I93_CB`, as far as reading goes, with the chunks delivered so far. `cplt` says
that the last of them came with `RW_I93_NDEF_READ_CPLT_EVT`. -/
structure ReadCb where
  state : State
  ndefLength : Nat
  rwOffset : Nat
  rwLength : Nat
  delivered : List Chunk
  cplt : Bool

def rwI93ReadNDef (l : Layout) (ndefLength : Nat) : ReadCb where
  state := .readNdef
  ndefLength := ndefLength
  rwOffset := l.ndefTlvStartOffset
  rwLength := 0
  delivered := []
  cplt := false

/-- Where the message starts in the response, when nothing of it was read yet. -/
def headerOffset (l : Layout) (cb : ReadCb) : Nat :=
  if cb.rwLength = 0 then
    sub32 (l.ndefTlvStartOffset % l.blockSize + (if cb.ndefLength < 0xFF then 2 else 4))
      (sub32 cb.rwOffset l.ndefTlvStartOffset)
  else 0

/-- `rw_i93_sm_read_ndef`. `next` says that the command for the next blocks is sent. -/
def rwI93SmReadNdef (l : Layout) (cb : ReadCb) (r : Resp) (next : Bool) : ReadCb :=
  match r.bytes with
  | [] => { cb with state := .idle }
  | flags :: _ =>
    if errorDetected flags then { cb with state := .idle }
    else
      let offset := headerOffset l cb
      let pos := if offset < r.length then offset + 1 else 0
      let len := if offset < r.length then r.length - offset else 0
      let rwLength := (cb.rwLength + len) % 2 ^ 32
      if cb.ndefLength ≤ rwLength then
        -- the extra bytes of the last block are left out
        { cb with
          state := .idle
          rwLength := rwLength
          delivered := cb.delivered ++ [⟨r, pos, sub32 len (sub32 rwLength cb.ndefLength)⟩]
          cplt := true }
      else
        { cb with
          state := if next then .readNdef else .idle
          rwLength := rwLength
          rwOffset := (cb.rwOffset + r.length) % 2 ^ 32
          delivered := if 0 < len then cb.delivered ++ [⟨r, pos, len⟩] else cb.delivered }

def readStep (l : Layout) (cb : ReadCb) (e : Resp × Bool) : Option ReadCb :=
  match cb.state with
  | .readNdef => some (rwI93SmReadNdef l cb e.1 e.2)
  | _ => some cb

/-! ## Writing -/

/-- A byte that a handler reads or writes: of the response, behind the flags, or of
`p_update_data`. -/
inductive Touch where
  | resp (i : Nat)
  | upd (i : Nat)
  deriving DecidableEq, Repr

inductive Cmd where
  | readSingleBlock (block : Nat)
  | writeSingleBlock (block : Nat) (data : List UInt8)
  deriving DecidableEq, Repr

/-- What becomes of a command: it is sent, there is no buffer for it, or it is refused
below. -/
inductive Sending where
  | sent
  | noBuffer
  | refused
  deriving DecidableEq, Repr

structure UpdCb where
  state : State
  subState : SubState
  ndefLength : Nat
  rwOffset : Nat
  rwLength : Nat
  ndefTlvLastOffset : Nat
  deriving DecidableEq, Repr

structure Turn where
  cb : UpdCb
  touched : List Touch
  cmd : Option Cmd
  deriving DecidableEq, Repr

/-- `RW_I93UpdateNDef`, on a writable tag with room for `length` bytes. -/
def rwI93UpdateNDef (l : Layout) (length : Nat) : UpdCb where
  state := .updateNdef
  subState := .resetLen
  ndefLength := length
  rwOffset := (l.ndefTlvStartOffset + 1) % 2 ^ 32
  rwLength := 0
  ndefTlvLastOffset := l.ndefTlvLastOffset

def handleError (cb : UpdCb) : UpdCb := { cb with state := .idle }

/-- The handler returns after an error, having touched `touched`. -/
def fail (cb : UpdCb) (touched : List Touch) : Turn := ⟨handleError cb, touched, none⟩

/-- `rw_i93_send_cmd_write_single_block`: the block is copied from `src` once there is a
buffer for the command. -/
def writeSingleBlock (cb next : UpdCb) (touched src : List Touch) (block : Nat)
    (data : List UInt8) : Sending → Turn
  | .sent => ⟨next, touched ++ src, some (.writeSingleBlock block data)⟩
  | .noBuffer => fail cb touched
  | .refused => fail cb (touched ++ src)

def readSingleBlock (cb next : UpdCb) (block : Nat) : Sending → Turn
  | .sent => ⟨next, [], some (.readSingleBlock block)⟩
  | _ => fail cb []

def respBytes (i n : Nat) : List Touch := (List.range n).map fun k => .resp (i + k)
def updBytes (i n : Nat) : List Touch := (List.range n).map fun k => .upd (i + k)

def bytesOf (p : Nat → UInt8) (i n : Nat) : List UInt8 := (List.range n).map fun k => p (i + k)

def setByte (p : Nat → UInt8) (i : Nat) (b : UInt8) : Nat → UInt8 :=
  fun k => if k = i then b else p k

/-- What a loop over the bytes of the response leaves; `stopped` says that it ran into
the error return. -/
structure Filled where
  p : Nat → UInt8
  rwLength : Nat
  touched : List Touch
  stopped : Bool

/-- The loop that writes the first part of the message into the block of the length
field, from index `xx`, `k` bytes. -/
def fillFirst (upd : Nat → UInt8) (ndefLength length : Nat) (p : Nat → UInt8) (rw xx : Nat) :
    Nat → Filled
  | 0 => ⟨p, rw, [], false⟩
  | k + 1 =>
    if xx > length ∨ rw > ndefLength then ⟨p, rw, [], true⟩
    else if rw < ndefLength then
      let f := fillFirst upd ndefLength length (setByte p xx (upd rw)) (rw + 1) (xx + 1) k
      { f with touched := .upd rw :: .resp xx :: f.touched }
    else
      let f := fillFirst upd ndefLength length (setByte p xx icodeTlvTypeNull) rw (xx + 1) k
      { f with touched := .resp xx :: f.touched }

/-- The byte of the length field that is written when `rw` bytes of it are left. -/
def lengthByte (ndefLength : Nat) : Nat → Option UInt8
  | 3 => some 0xFF
  | 2 => some (UInt8.ofNat (ndefLength / 2 ^ 8))
  | 1 => some (UInt8.ofNat ndefLength)
  | _ => none

/-- The loop that writes the length field into the block, from index `xx`, up to `k`
bytes. -/
def fillLength (ndefLength length : Nat) (p : Nat → UInt8) (rw xx : Nat) : Nat → Filled
  | 0 => ⟨p, rw, [], false⟩
  | k + 1 =>
    if xx > length then ⟨p, rw, [], true⟩
    else
      let q := match lengthByte ndefLength rw with
        | some b => setByte p xx b
        | none => p
      let touched := if (lengthByte ndefLength rw).isSome then [Touch.resp xx] else []
      if rw - 1 = 0 then ⟨q, 0, touched, false⟩
      else
        let f := fillLength ndefLength length q (rw - 1) (xx + 1) k
        { f with touched := touched ++ f.touched }

def lengthFieldSize (ndefLength : Nat) : Nat :=
  if 0xFF ≤ ndefLength then 3 else if 0 < ndefLength then 1 else 0

/-- Back to the length field: it is read, to be written in `updateLen`. -/
def toUpdateLen (l : Layout) (cb : UpdCb) : UpdCb :=
  { cb with
    rwOffset := (l.ndefTlvStartOffset + 1) % 2 ^ 32
    rwLength := lengthFieldSize cb.ndefLength
    subState := .updateLen }

def lengthBlock (l : Layout) : Nat := (l.ndefTlvStartOffset + 1) / l.blockSize

/-- The first index behind the length field that holds a byte of the message. -/
def firstIndex (l : Layout) (ndefLength : Nat) : Nat :=
  l.lengthOffset + (if 0xFF ≤ ndefLength then 3 else 1)

/-- The block in `RESET_LEN`, with the length zero and the first part of the message. -/
def resetBlock (l : Layout) (upd : Nat → UInt8) (cb : UpdCb) (r : Resp) : Filled :=
  let p := setByte r.at l.lengthOffset 0
  if 0 < cb.ndefLength then
    fillFirst upd cb.ndefLength r.length p cb.rwLength (firstIndex l cb.ndefLength)
      (l.blockSize - firstIndex l cb.ndefLength)
  else ⟨p, cb.rwLength, [], false⟩

/-- `RW_I93_SUBSTATE_RESET_LEN` of `rw_i93_sm_update_ndef`. -/
def i93ResetLen (l : Layout) (upd : Nat → UInt8) (cb : UpdCb) (r : Resp) (s : Sending) : Turn :=
  if r.length < l.lengthOffset then fail cb []
  else
    let f := resetBlock l upd cb r
    let touched := .resp l.lengthOffset :: f.touched
    let cb := { cb with rwLength := f.rwLength }
    if f.stopped then fail cb touched
    else if r.length < l.blockSize then fail cb touched
    else
      writeSingleBlock cb
        { cb with
          rwOffset := ((lengthBlock l + 1) * l.blockSize) % 2 ^ 32
          subState := .writeNdef }
        touched (respBytes 0 l.blockSize) (lengthBlock l) (bytesOf f.p 0 l.blockSize) s

/-- A block of `NULL` TLVs that starts with `bs`, and a terminator behind it where `term`
says so. -/
def paddedBlock (l : Layout) (bs : List UInt8) (term : Bool) : List UInt8 :=
  (bs ++ (if term then [icodeTlvTypeTerm] else [])).takeD l.blockSize icodeTlvTypeNull

/-- `RW_I93_SUBSTATE_WRITE_NDEF` of `rw_i93_sm_update_ndef`. -/
def i93WriteNdef (l : Layout) (upd : Nat → UInt8) (cb : UpdCb) (s : Sending) : Turn :=
  if cb.rwOffset < l.blockSize * l.numBlock then
    let block := cb.rwOffset / l.blockSize
    if cb.rwLength < cb.ndefLength then
      let first := cb.rwLength
      let cb := { cb with
        rwOffset := (cb.rwOffset + l.blockSize) % 2 ^ 32
        rwLength := (cb.rwLength + l.blockSize) % 2 ^ 32 }
      if cb.rwLength > cb.ndefLength then
        -- the last block of the message
        let xx := sub32 l.blockSize (sub32 cb.rwLength cb.ndefLength) % 2 ^ 8
        let cb := { cb with
          ndefTlvLastOffset := sub32 (sub32 (cb.rwOffset + xx) l.blockSize) 1 }
        writeSingleBlock cb cb (updBytes first xx) [] block
          (paddedBlock l (bytesOf upd first xx)
            (decide (l.blockSize * l.numBlock ≤ cb.rwOffset ∧ xx < l.blockSize))) s
      else
        writeSingleBlock cb cb [] (updBytes first l.blockSize) block
          (bytesOf upd first l.blockSize) s
    else if block = cb.ndefTlvLastOffset / l.blockSize + 1 then
      let cb := { cb with rwOffset := (cb.rwOffset + l.blockSize) % 2 ^ 32 }
      writeSingleBlock cb cb [] [] block (paddedBlock l [] true) s
    else readSingleBlock cb (toUpdateLen l cb) (lengthBlock l) s
  else if cb.ndefLength ≤ cb.rwLength then
    readSingleBlock cb (toUpdateLen l cb) (lengthBlock l) s
  else fail cb []

/-- The block in `UPDATE_LEN`, with what is left of the length field. -/
def lengthFilled (l : Layout) (cb : UpdCb) (r : Resp) : Filled :=
  fillLength cb.ndefLength r.length r.at cb.rwLength (cb.rwOffset % l.blockSize)
    (l.blockSize - cb.rwOffset % l.blockSize)

/-- The message is written: the state after `RW_I93_NDEF_UPDATE_CPLT_EVT`. -/
def updateCplt (cb : UpdCb) : Turn := ⟨{ cb with state := .idle }, [], none⟩

/-- To the block behind, for the rest of the length field. -/
def toNextBlock (l : Layout) (cb : UpdCb) : UpdCb :=
  { cb with rwOffset := (cb.rwOffset + (l.blockSize - cb.rwOffset % l.blockSize)) % 2 ^ 32 }

/-- `RW_I93_SUBSTATE_UPDATE_LEN` of `rw_i93_sm_update_ndef`. -/
def i93UpdateLen (l : Layout) (cb : UpdCb) (r : Resp) (s : Sending) : Turn :=
  if 0 < cb.rwLength then
    let block := cb.rwOffset / l.blockSize
    if r.length = 0 then readSingleBlock cb cb block s
    else
      let f := lengthFilled l cb r
      let cb := { cb with rwLength := f.rwLength }
      if f.stopped then fail cb f.touched
      else if r.length < l.blockSize then fail cb f.touched
      else writeSingleBlock cb (toNextBlock l cb) f.touched (respBytes 0 l.blockSize) block
        (bytesOf f.p 0 l.blockSize) s
  else updateCplt cb

/-- `rw_i93_sm_update_ndef`. A Tag-it answers a write that worked with an error too: the
byte behind the flags tells. -/
def rwI93SmUpdateNdef (l : Layout) (upd : Nat → UInt8) (cb : UpdCb) (r : Resp) (s : Sending) :
    Turn :=
  match r.bytes with
  | [] => fail cb []
  | flags :: _ =>
    let looked := if errorDetected flags ∧ l.product.isTagIt then [Touch.resp 0] else []
    if errorDetected flags ∧ ¬ (l.product.isTagIt ∧ r.at 0 = errorCodeBlockFailToWrite) then
      fail cb looked
    else
      let t := match cb.subState with
        | .resetLen => i93ResetLen l upd cb r s
        | .writeNdef => i93WriteNdef l upd cb s
        | .updateLen => i93UpdateLen l cb r s
      { t with touched := looked ++ t.touched }

/-- `RW_I93_SUBSTATE_RESET_LEN` of `rw_t5t_sm_update_ndef`: the block is sent whatever the
length of the response is. -/
def t5tResetLen (l : Layout) (upd : Nat → UInt8) (cb : UpdCb) (r : Resp) (s : Sending) : Turn :=
  if r.length < l.lengthOffset then fail cb []
  else
    let f := resetBlock l upd cb r
    let touched := .resp l.lengthOffset :: f.touched
    let header := l.ndefTlvStartOffset + (if 0xFF ≤ cb.ndefLength then 3 else 1)
    let cb := { cb with
      ndefTlvLastOffset :=
        if 0 < cb.ndefLength then (header + (f.rwLength - cb.rwLength)) % 2 ^ 32
        else cb.ndefTlvLastOffset
      rwLength := f.rwLength }
    if f.stopped then fail cb touched
    else
      writeSingleBlock cb
        { cb with
          rwOffset := ((lengthBlock l % 2 ^ 16 + 1) * l.blockSize) % 2 ^ 32
          subState := .writeNdef }
        touched (respBytes 0 l.blockSize) (lengthBlock l % 2 ^ 16) (bytesOf f.p 0 l.blockSize) s

/-- `RW_I93_SUBSTATE_WRITE_NDEF` of `rw_t5t_sm_update_ndef`. -/
def t5tWriteNdef (l : Layout) (upd : Nat → UInt8) (cb : UpdCb) (s : Sending) : Turn :=
  if cb.rwOffset ≤ l.t5tAreaLastOffset then
    let block := cb.rwOffset / l.blockSize % 2 ^ 16
    if cb.rwLength < cb.ndefLength then
      let first := cb.rwLength
      let cb := { cb with
        rwOffset := (cb.rwOffset + l.blockSize) % 2 ^ 32
        rwLength := (cb.rwLength + l.blockSize) % 2 ^ 32 }
      if cb.rwLength ≥ cb.ndefLength then
        let xx := sub32 l.blockSize (sub32 cb.rwLength cb.ndefLength) % 2 ^ 8
        let last := sub32 (cb.rwOffset + xx) l.blockSize
        let cb := { cb with ndefTlvLastOffset := sub32 last 1 }
        writeSingleBlock cb cb (updBytes first xx) [] block
          (paddedBlock l (bytesOf upd first xx)
            (decide (last ≤ l.t5tAreaLastOffset ∧ xx < l.blockSize))) s
      else
        let cb := { cb with
          ndefTlvLastOffset := (cb.ndefTlvLastOffset + l.blockSize) % 2 ^ 32 }
        writeSingleBlock cb cb [] (updBytes first l.blockSize) block
          (bytesOf upd first l.blockSize) s
    else if block = cb.ndefTlvLastOffset / l.blockSize + 1 ∧
        (cb.ndefTlvLastOffset + 1) % 2 ^ 32 % l.blockSize = 0 then
      -- on to the length field whether or not the terminator was sent
      writeSingleBlock (toUpdateLen l cb) (toUpdateLen l cb) [] [] block
        (paddedBlock l [] true) s
    else readSingleBlock cb (toUpdateLen l cb) (lengthBlock l % 2 ^ 16) s
  else if cb.ndefLength ≤ cb.rwLength then
    readSingleBlock cb (toUpdateLen l cb) (lengthBlock l % 2 ^ 16) s
  else fail cb []

/-- `RW_I93_SUBSTATE_UPDATE_LEN` of `rw_t5t_sm_update_ndef`. -/
def t5tUpdateLen (l : Layout) (cb : UpdCb) (r : Resp) (s : Sending) : Turn :=
  if 0 < cb.rwLength then
    let block := cb.rwOffset / l.blockSize % 2 ^ 16
    if r.length = 0 then readSingleBlock cb cb block s
    else
      let f := lengthFilled l cb r
      let cb := { cb with rwLength := f.rwLength }
      if f.stopped then fail cb f.touched
      else writeSingleBlock cb (toNextBlock l cb) f.touched (respBytes 0 l.blockSize) block
        (bytesOf f.p 0 l.blockSize) s
  else updateCplt cb

def rwT5tSmUpdateNdef (l : Layout) (upd : Nat → UInt8) (cb : UpdCb) (r : Resp) (s : Sending) :
    Turn :=
  match r.bytes with
  | [] => fail cb []
  | flags :: _ =>
    if errorDetected flags then fail cb []
    else match cb.subState with
      | .resetLen => t5tResetLen l upd cb r s
      | .writeNdef => t5tWriteNdef l upd cb s
      | .updateLen => t5tUpdateLen l cb r s

/-- One response, given to the handler of the state. -/
def updateStep (handler : UpdCb → Resp → Sending → Turn) (cb : UpdCb) (e : Resp × Sending) :
    Option UpdCb :=
  match cb.state with
  | .updateNdef => some (handler cb e.1 e.2).cb
  | _ => some cb

end NfcStack.Rw.I93
