import NfcStack.Lib.Bytes

/- The NFC control block (`nfc_int.h`): GKI buffers with their `NFC_HDR`,
   connection control blocks and the fields of `tNFC_CB` that the data path and
   the command window read or write. A `BUFFER_Q` is the list of its buffers,
   first to last. Callback pointers are numbered; `none` is the null pointer. -/
namespace NfcStack.Nfc
open NfcStack.Lib

abbrev Bytes := List UInt8

/-! ## Buffers -/

def nciMsgHdrSize : Nat := 3
def nciDataHdrSize : Nat := 3
def nciMsgOffsetSize : Nat := 1

/-- A GKI buffer that starts with an `NFC_HDR`: `data` is what follows the
header, and the message is the `len` bytes from `offset` on. -/
structure NfcHdr where
  len : Nat
  offset : Nat
  layerSpecific : Nat
  data : Bytes
  deriving DecidableEq, Repr

/-- The bytes a buffer stands for: `(uint8_t*)(p + 1) + p->offset`, `p->len` of
them. This is what `HAL_WRITE` hands over. -/
def NfcHdr.bytes (p : NfcHdr) : Bytes := slice p.data p.offset p.len

/-- The message lies inside the buffer, and `len` and `offset` are 16-bit. -/
structure NfcHdr.Fits (p : NfcHdr) : Prop where
  inside : p.offset + p.len ≤ p.data.length
  small : p.data.length < 65536

instance (p : NfcHdr) : Decidable p.Fits :=
  decidable_of_iff (p.offset + p.len ≤ p.data.length ∧ p.data.length < 65536)
    ⟨fun h => ⟨h.1, h.2⟩, fun h => ⟨h.inside, h.small⟩⟩

theorem NfcHdr.Fits.length_bytes {p : NfcHdr} (h : p.Fits) : p.bytes.length = p.len :=
  length_slice h.inside

/-! ## Control blocks -/

abbrev nciMaxConnCbs : Nat := 4
abbrev nfcMaxConnId : Nat := 15
instance : NeZero nciMaxConnCbs := ⟨by decide⟩
instance (priority := 1100) : NeZero (nfcMaxConnId + 1) := ⟨by decide⟩
def nfcPendConnId : UInt8 := 0xFE
def nfcConnNoFc : UInt8 := 0xFF
def nfcRfConnId : UInt8 := 0
def nciMaxCmdWindow : Nat := 1
def nfcStatusOk : UInt8 := 0x00

inductive NfcState where
  | none | w4HalOpen | coreInit | w4PostInitCplt | idle | open | closing | w4HalClose
  | nfccPowerOffSleep
  deriving DecidableEq, Repr

structure NfcFlags where
  controlRequested : Bool := false
  controlGranted : Bool := false
  discoverPending : Bool := false
  halRequested : Bool := false
  waitRfIntfExtRsp : Bool := false
  deriving DecidableEq, Repr

structure ConnCb where
  pCback : Option Nat := none
  txQ : List NfcHdr := []
  rxQ : List NfcHdr := []
  id : UInt8 := 0
  actProtocol : UInt8 := 0
  actInterface : UInt8 := 0
  connId : UInt8 := 0xFF
  buffSize : UInt8 := 0
  numBuff : UInt8 := 0
  initCredits : UInt8 := 0
  deriving DecidableEq, Repr

/-- The control block for a connection id, as `nfc_cb.conn_id` maps it (1-based,
0 for none). -/
structure ConnTable where
  connCb : Fin nciMaxConnCbs → ConnCb
  connId : Fin (nfcMaxConnId + 1) → UInt8

/-- `p_cb` written back into its slot. -/
def ConnTable.set (t : ConnTable) (i : Fin nciMaxConnCbs) (cb : ConnCb) : ConnTable :=
  { t with connCb := fun j => if j = i then cb else t.connCb j }

@[simp] theorem ConnTable.set_same (t : ConnTable) (i : Fin nciMaxConnCbs) (cb : ConnCb) :
    (t.set i cb).connCb i = cb := by
  simp [ConnTable.set]

theorem ConnTable.set_other (t : ConnTable) {i j : Fin nciMaxConnCbs} (cb : ConnCb) (h : j ≠ i) :
    (t.set i cb).connCb j = t.connCb j := by
  simp [ConnTable.set, h]

/-- `nfc_find_conn_cb_by_conn_id`: the first pending block for
`NFC_PEND_CONN_ID`, else the block the id table names. -/
def nfcFindConnCbByConnId (t : ConnTable) (connId : UInt8) : Option (Fin nciMaxConnCbs) :=
  if connId = nfcPendConnId then
    (List.finRange nciMaxConnCbs).find? fun i => (t.connCb i).connId = nfcPendConnId
  else
    let id := (connId &&& 0x0F).toNat
    if h : id < nfcMaxConnId then
      let handle := (t.connId ⟨id, Nat.lt_succ_of_lt h⟩).toNat
      if h' : 0 < handle ∧ handle - 1 < nciMaxConnCbs then some ⟨handle - 1, h'.2⟩ else none
    else none

end NfcStack.Nfc
