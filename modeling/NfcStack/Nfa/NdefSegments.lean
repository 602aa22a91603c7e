import NfcStack.Lib.Bytes
import NfcStack.Lib.Run

/- Reading an NDEF message from a Type 3, Type 4 or Type 5 tag (`nfa_rw_act.cc`): the
   buffer that `nfa_rw_start_ndef_read` allocates, the segments that
   `nfa_rw_store_ndef_rx_buf` puts into it, and what `nfa_dm_ndef_handle_message` is
   given of it. A byte of the buffer is `none` until it is written.

   What is proved:
     1. `storeNdefRxBuf_filled`: a segment is stored behind the ones before, or dropped.
     2. `handed_right`: over any run in which no write leaves the size on record and the
        length of the tag layer apart, what is handed on are the segments stored.
     3. `failed_write_uninitialised`: a write that fails on a Type 3 tag does. The size on
        record becomes the length of the message that was not written.

   `tagOp` is what the tag layer was asked for last and has not completed; it reports
   on nothing else. `tagLen` is the length the tag layer reads by (`ndef_attrib.ln` of
   `rw_t3t.cc`, `ndef_length` of `rw_t4t.cc` and `rw_i93.cc`). What a function of the tag
   layer returns, and whether there is memory, comes with the event. Of the operations
   those on NDEF are modelled. -/
namespace NfcStack.Nfa.NdefSegments
open NfcStack.Lib

abbrev Bytes := List UInt8

/-! ## The control block -/

inductive TagProtocol where
  | t3t | isoDep | t5t
  deriving DecidableEq, Repr

inductive NdefSt where
  | unknown | isTrue | isFalse
  deriving DecidableEq, Repr

inductive Op where
  | detectNdef | readNdef | writeNdef | max
  deriving DecidableEq, Repr

inductive Status where
  | ok | failed | timeout
  deriving DecidableEq, Repr

/-- What `nfa_dm_ndef_handle_message` was given with NFA_STATUS_OK, and the segments stored
in the operation. -/
structure Handed where
  buf : List (Option UInt8)
  stored : Bytes
  deriving DecidableEq, Repr

/-- Of `tNFA_RW_CB`; with the length of the message the tag layer has, how much of it a read has
still to report, the segments stored in the read, and what was handed on. -/
structure RwCb where
  protocol : TagProtocol
  ndefSt : NdefSt
  curOp : Op
  apiBusy : Bool
  tagIsReadonly : Bool
  ndefCurSize : Nat
  ndefMaxSize : Nat
  ndefWrLen : Nat
  ndefRdOffset : Nat
  pNdefBuf : Option (List (Option UInt8))
  tagOp : Option Op
  tagLen : Nat
  tagLeft : Nat
  stored : Bytes
  handed : List Handed
  deriving DecidableEq, Repr

/-- What the calls that an event makes return; `recorded` is whether a write that could not be
sent had its length stored before. -/
structure Env where
  detect : Status
  alloc : Bool
  read : Status
  write : Status
  recorded : Bool
  deriving DecidableEq, Repr

inductive Event where
  | detectNdef (env : Env)
  | readNdef (env : Env)
  | writeNdef (env : Env) (valid : Bool) (len : Nat)
  | ndefDetected (env : Env) (status : Status) (curSize maxSize : Nat) (readOnly : Bool)
  | ndefRead (data : Bytes)
  | readCplt (data : Bytes)
  | readFail
  | checkCplt (status : Status)
  | updateCplt (status : Status)
  | intfError (len : Nat)
  deriving DecidableEq, Repr

/-! ## The code -/

def commandComplete (s : RwCb) : RwCb := { s with apiBusy := false }

def freeNdefRxBuf (s : RwCb) : RwCb := { s with pNdefBuf := none }

def storeNdefRxBuf (s : RwCb) (data : Bytes) : Option RwCb :=
  if (s.ndefRdOffset + data.length) % 2 ^ 32 ≤ s.ndefCurSize then
    s.pNdefBuf.bind fun buf =>
      (Lib.writeAt buf s.ndefRdOffset (data.map some)).map fun buf =>
        { s with
          pNdefBuf := some buf
          ndefRdOffset := s.ndefRdOffset + data.length
          stored := s.stored ++ data }
  else some s

/-- `nfa_dm_ndef_handle_message` is given `ndef_cur_size` bytes from `p_ndef_buf` on. -/
def handleMessage (s : RwCb) : Option RwCb :=
  (readAt (s.pNdefBuf.getD []) 0 s.ndefCurSize).map fun buf =>
    { s with handed := s.handed ++ [⟨buf, s.stored⟩] }

def startNdefRead (s : RwCb) (env : Env) : RwCb × Status :=
  if s.ndefCurSize = 0 then
    (commandComplete { s with stored := [], handed := s.handed ++ [⟨[], []⟩] }, .ok)
  else if env.alloc then
    let s := { freeNdefRxBuf s with
      pNdefBuf := some (List.replicate s.ndefCurSize none)
      ndefRdOffset := 0
      stored := [] }
    (if env.read = .ok then { s with tagOp := some .readNdef, tagLeft := s.tagLen } else s,
      env.read)
  else (commandComplete (freeNdefRxBuf s), .failed)

def startNdefDetection (s : RwCb) (env : Env) : RwCb × Status :=
  (if env.detect = .ok then { s with tagOp := some .detectNdef } else s, env.detect)

/-- `RW_T4tUpdateNDef` and `RW_I93UpdateNDef` store the length before they send anything,
`RW_T3tUpdateNDef` does not. -/
def lenAfterCall (s : RwCb) (env : Env) : Nat :=
  if s.protocol ≠ .t3t ∧ (env.write = .ok ∨ env.recorded = true) then s.ndefWrLen else s.tagLen

def startNdefWrite (s : RwCb) (env : Env) : RwCb × Status :=
  if s.tagIsReadonly then (s, .failed)
  else if s.ndefMaxSize < s.ndefWrLen then (s, .failed)
  else
    let s := { s with tagLen := lenAfterCall s env }
    (if env.write = .ok then { s with tagOp := some .writeNdef } else s, env.write)

/-- The end of `nfa_rw_read_ndef` and the functions like it. -/
def unlessOk (x : RwCb × Status) : RwCb := if x.2 = .ok then x.1 else commandComplete x.1

/-- `nfa_rw_handle_op_req`, if the operation can be handled. -/
def handleOpReq (s : RwCb) (op : Op) (handle : RwCb → RwCb) : RwCb :=
  if s.apiBusy then s else handle { s with apiBusy := true, curOp := op }

def readNdef (s : RwCb) (env : Env) : RwCb :=
  match s.ndefSt with
  | .unknown => unlessOk (startNdefDetection s env)
  | .isFalse => commandComplete s
  | .isTrue => unlessOk (startNdefRead s env)

def writeNdef (s : RwCb) (env : Env) (valid : Bool) (len : Nat) : RwCb :=
  if valid then
    let s := { s with ndefWrLen := len }
    match s.ndefSt with
    | .unknown => unlessOk (startNdefDetection s env)
    | .isFalse => commandComplete s
    | .isTrue => unlessOk (startNdefWrite s env)
  else commandComplete s

def handleNdefDetect (s : RwCb) (env : Env) (status : Status) (curSize maxSize : Nat)
    (readOnly : Bool) : RwCb :=
  if status = .ok then
    let s := { s with
      ndefSt := .isTrue, ndefCurSize := curSize, ndefMaxSize := maxSize, tagIsReadonly := readOnly }
    match s.curOp with
    | .readNdef => unlessOk (startNdefRead s env)
    | .writeNdef => unlessOk (startNdefWrite s env)
    | _ => commandComplete { s with curOp := .max }
  else
    let s := { commandComplete s with ndefSt := .isFalse }
    let s :=
      if s.curOp = .detectNdef ∧ status ≠ .timeout then
        { s with ndefCurSize := curSize, ndefMaxSize := maxSize }
      else s
    { s with curOp := .max }

/-- `RW_T4T_NDEF_READ_CPLT_EVT` and `RW_I93_NDEF_READ_CPLT_EVT`. -/
def handleReadCplt (s : RwCb) (data : Bytes) : Option RwCb :=
  let read :=
    if s.curOp = .readNdef then
      ((storeNdefRxBuf s data).bind handleMessage).map freeNdefRxBuf
    else some s
  read.map fun s => { commandComplete s with curOp := .max }

/-- `RW_T4T_NDEF_READ_FAIL_EVT` and `RW_I93_NDEF_READ_FAIL_EVT`. -/
def handleReadFail (s : RwCb) : RwCb :=
  { commandComplete (if s.curOp = .readNdef then freeNdefRxBuf s else s) with curOp := .max }

def handleCheckCplt (s : RwCb) (status : Status) : Option RwCb :=
  (if status = .ok then handleMessage s else some s).map fun s => commandComplete (freeNdefRxBuf s)

/-- The events that a write of a Type 3, and of the other tags, ends with. A failed one sets
the size as well. -/
def handleUpdateCplt (s : RwCb) : RwCb :=
  let s := commandComplete
    (if s.curOp = .writeNdef then { s with ndefCurSize := s.ndefWrLen } else s)
  if s.protocol = .t3t then s else { s with curOp := .max }

/-- An event of the tag layer, for an operation it was asked for. -/
def reported (s : RwCb) (op : Op) (handle : RwCb → Option RwCb) : Option RwCb :=
  if s.tagOp = some op then handle s else none

def lenAfterUpdate (s : RwCb) (status : Status) : Nat :=
  if s.protocol = .t3t ∧ status = .ok then s.ndefWrLen else s.tagLen

/-- The length that a detection has read when an interface error ends it is `len`. -/
def lenAfterError (s : RwCb) (len : Nat) : Nat :=
  if s.tagOp = some .detectNdef then len else s.tagLen

def step (s : RwCb) : Event → Option RwCb
  | .detectNdef env => some (handleOpReq s .detectNdef fun s => unlessOk (startNdefDetection s env))
  | .readNdef env => some (handleOpReq s .readNdef fun s => readNdef s env)
  | .writeNdef env valid len => some (handleOpReq s .writeNdef fun s => writeNdef s env valid len)
  | .ndefDetected env status curSize maxSize readOnly =>
    reported s .detectNdef fun s =>
      let s := { s with tagOp := none, tagLen := if status = .ok then curSize else s.tagLen }
      some (handleNdefDetect s env status curSize maxSize readOnly)
  | .ndefRead data =>
    reported s .readNdef fun s =>
      let s := { s with tagLeft := s.tagLeft - data.length }
      if s.curOp = .readNdef then storeNdefRxBuf s data else some s
  | .readCplt data =>
    if s.protocol = .t3t then none
    else reported s .readNdef fun s => handleReadCplt { s with tagOp := none } data
  | .readFail =>
    if s.protocol = .t3t then none
    else reported s .readNdef fun s => some (handleReadFail { s with tagOp := none })
  | .checkCplt status =>
    if s.protocol = .t3t then
      reported s .readNdef fun s => handleCheckCplt { s with tagOp := none } status
    else none
  | .updateCplt status =>
    reported s .writeNdef fun s =>
      some (handleUpdateCplt { s with tagOp := none, tagLen := lenAfterUpdate s status })
  | .intfError len =>
    if s.protocol = .t3t then some s
    else
      let s := { s with tagOp := none, tagLen := lenAfterError s len }
      some { commandComplete s with curOp := .max }

/-! ## What a read has stored -/

/-- The segments stored stand at the front of the buffer, and nothing else was written. -/
structure Filled (s : RwCb) : Prop where
  offset : s.ndefRdOffset = s.stored.length
  room : s.stored.length ≤ s.ndefCurSize
  buf : s.pNdefBuf =
    some (s.stored.map some ++ List.replicate (s.ndefCurSize - s.stored.length) none)

/-- The segments stored, with one more if there is room for it. -/
def storedWith (s : RwCb) (data : Bytes) : Bytes :=
  if (s.ndefRdOffset + data.length) % 2 ^ 32 ≤ s.ndefCurSize then s.stored ++ data else s.stored

/-- Nothing but the buffer and what is stored in it changed. -/
def SameOp (s s' : RwCb) : Prop :=
  s' = { s with
    pNdefBuf := s'.pNdefBuf, ndefRdOffset := s'.ndefRdOffset, stored := s'.stored }

theorem storeNdefRxBuf_filled {s s' : RwCb} (h : Filled s) {data : Bytes}
    (hs : storeNdefRxBuf s data = some s') :
    Filled s' ∧ SameOp s s' ∧ s'.stored = storedWith s data := by
  unfold storeNdefRxBuf at hs
  unfold storedWith
  split at hs
  · next hfit =>
    rw [if_pos hfit]
    rw [h.buf, Option.bind_some, Lib.writeAt] at hs
    split at hs
    · next hin =>
      rw [Option.map_some] at hs
      cases hs
      have hlen : s.stored.length + data.length ≤ s.ndefCurSize := by
        have hroom := h.room
        have hoff := h.offset
        simp only [List.length_append, List.length_map, List.length_replicate] at hin
        omega
      refine ⟨⟨by simp [h.offset], by simpa using hlen, ?_⟩, rfl, rfl⟩
      have hsplit : s.ndefCurSize - s.stored.length =
          data.length + (s.ndefCurSize - (s.stored ++ data).length) := by
        rw [List.length_append]; omega
      have hparts : s.stored.map some ++
            List.replicate (s.ndefCurSize - s.stored.length) (none : Option UInt8) =
          s.stored.map some ++ List.replicate data.length none ++
            List.replicate (s.ndefCurSize - (s.stored ++ data).length) none := by
        rw [hsplit, List.replicate_add, List.append_assoc]
      change some (blit _ s.ndefRdOffset (data.map some)) = _
      rw [hparts, blit_append (by simp [h.offset]) (by simp), List.map_append]
    · cases hs
  · next hfit =>
    rw [if_neg hfit]
    cases hs
    exact ⟨h, rfl, rfl⟩

/-- What is handed on is what was stored, in order, and no other byte. -/
def Handed.Right (h : Handed) : Prop := h.buf = h.stored.map some

theorem handleMessage_right {s s' : RwCb} (h : Filled s) (hfull : s.stored.length = s.ndefCurSize)
    (hs : handleMessage s = some s') :
    s' = { s with handed := s.handed ++ [⟨s.stored.map some, s.stored⟩] } := by
  have hread : readAt (s.pNdefBuf.getD []) 0 s.ndefCurSize = some (s.stored.map some) := by
    rw [h.buf, Option.getD_some, ← hfull, Nat.sub_self, List.replicate_zero, List.append_nil, readAt,
      if_pos (by simp), slice, List.drop_zero, List.take_of_length_le (by simp)]
  unfold handleMessage at hs
  rw [hread, Option.map_some] at hs
  exact (Option.some.inj hs).symm

/-! ## The runs -/

/-- A write call that fails has not stored another length than that on record. -/
def Kept (s : RwCb) (env : Env) (wrLen size : Nat) : Prop :=
  s.protocol ≠ .t3t → env.write ≠ .ok → env.recorded = true → wrLen = size

instance (s : RwCb) (env : Env) (wrLen size : Nat) : Decidable (Kept s env wrLen size) :=
  inferInstanceAs (Decidable (_ → _ → _ → _))

/-- The tag layer reports the message it has on record. A write of another length succeeds on a
Type 3 tag; on the others it is not refused once its length is stored, and no interface error
ends it. -/
def Sound (s : RwCb) : Event → Prop
  | .writeNdef env _ len => s.ndefSt = .isTrue → Kept s env len s.ndefCurSize
  | .ndefDetected env _ curSize _ _ => s.curOp = .writeNdef → Kept s env s.ndefWrLen curSize
  | .ndefRead data => s.tagOp = some .readNdef → data.length ≤ s.tagLeft
  | .readCplt data => s.tagOp = some .readNdef → data.length = s.tagLeft
  | .checkCplt status => s.tagOp = some .readNdef → status = .ok → s.tagLeft = 0
  | .updateCplt status =>
    s.tagOp = some .writeNdef → s.protocol = .t3t → status ≠ .ok → s.ndefWrLen = s.ndefCurSize
  | .intfError len =>
    s.protocol ≠ .t3t → s.ndefSt = .isTrue →
      (s.tagOp = some .writeNdef → s.ndefWrLen = s.ndefCurSize) ∧
        (s.tagOp = some .detectNdef → len = s.ndefCurSize)
  | _ => True

instance (s : RwCb) : ∀ e, Decidable (Sound s e)
  | .writeNdef _ _ _ | .ndefDetected _ _ _ _ _ | .ndefRead _ | .readCplt _ =>
    inferInstanceAs (Decidable (_ → _))
  | .checkCplt _ => inferInstanceAs (Decidable (_ → _ → _))
  | .updateCplt _ => inferInstanceAs (Decidable (_ → _ → _ → _))
  | .intfError _ => inferInstanceAs (Decidable (_ → _ → _ ∧ _))
  | .detectNdef _ | .readNdef _ | .readFail => .isTrue trivial

/-- The size on record is the length the tag layer reads by. -/
def Matched (s : RwCb) : Prop := s.ndefSt = .isTrue → s.ndefCurSize = s.tagLen

/-- A read is going on: what is stored and what is still to come make the message. -/
structure Reading (s : RwCb) : Prop where
  filled : Filled s
  curOp : s.curOp = .readNdef
  left : s.stored.length + s.tagLeft = s.ndefCurSize

/-- A write is going on. On a tag other than a Type 3 tag its length is on record in the tag
layer already. -/
structure Writing (s : RwCb) : Prop where
  curOp : s.curOp = .writeNdef
  kept : s.protocol = .t3t → Matched s
  taken : s.protocol ≠ .t3t → s.tagLen = s.ndefWrLen

structure Inv (s : RwCb) : Prop where
  busy : s.tagOp.isSome → s.apiBusy = true
  reading : s.tagOp = some .readNdef → Reading s
  writing : s.tagOp = some .writeNdef → Writing s
  matched : s.tagOp ≠ some .writeNdef → Matched s
  right : ∀ h ∈ s.handed, h.Right

structure Quiet (s : RwCb) : Prop where
  tagOp : s.tagOp = none
  matched : Matched s
  right : ∀ h ∈ s.handed, h.Right

variable {s : RwCb}

theorem Quiet.inv (h : Quiet s) : Inv s :=
  ⟨by simp [h.tagOp], by simp [h.tagOp], by simp [h.tagOp], fun _ => h.matched, h.right⟩

theorem Inv.quiet (h : Inv s) (hop : s.tagOp ≠ some .writeNdef) :
    Quiet { s with tagOp := none } :=
  ⟨rfl, h.matched hop, h.right⟩

theorem inv_startNdefDetection (h : Quiet s) (hb : s.apiBusy = true) (env : Env) :
    Inv (unlessOk (startNdefDetection s env)) := by
  unfold startNdefDetection unlessOk
  dsimp only
  split
  · constructor
    · exact fun _ => hb
    · intro hr
      cases hr
    · intro hw
      cases hw
    · exact fun _ => h.matched
    · exact h.right
  · exact Quiet.inv ⟨h.tagOp, h.matched, h.right⟩

theorem inv_startNdefRead (h : Quiet s) (hb : s.apiBusy = true) (hop : s.curOp = .readNdef)
    (hst : s.ndefSt = .isTrue) (env : Env) : Inv (unlessOk (startNdefRead s env)) := by
  unfold startNdefRead
  split
  · -- an empty message
    have hright : ∀ x ∈ s.handed ++ [(⟨[], []⟩ : Handed)], x.Right := by
      intro x hx
      obtain hx | hx := List.mem_append.mp hx
      · exact h.right x hx
      · obtain rfl := List.mem_singleton.mp hx
        rfl
    exact Quiet.inv ⟨h.tagOp, h.matched, hright⟩
  · split
    · unfold unlessOk
      dsimp only
      split
      · constructor
        · exact fun _ => hb
        · intro _
          have hfilled := Filled.mk (s := { s with
            pNdefBuf := some (List.replicate s.ndefCurSize none), ndefRdOffset := 0,
            stored := [], tagOp := some .readNdef, tagLeft := s.tagLen }) rfl (Nat.zero_le _) (by simp)
          exact ⟨hfilled, hop, (Nat.zero_add _).trans (h.matched hst).symm⟩
        · intro hw
          cases hw
        · exact fun _ => h.matched
        · exact h.right
      · exact Quiet.inv ⟨h.tagOp, h.matched, h.right⟩
    · exact Quiet.inv ⟨h.tagOp, h.matched, h.right⟩

theorem inv_startNdefWrite (h : Quiet s) (hb : s.apiBusy = true)
    (hop : s.curOp = .writeNdef) (hst : s.ndefSt = .isTrue) {env : Env}
    (hkept : Kept s env s.ndefWrLen s.ndefCurSize) : Inv (unlessOk (startNdefWrite s env)) := by
  unfold startNdefWrite
  split
  · exact Quiet.inv ⟨h.tagOp, h.matched, h.right⟩
  · split
    · exact Quiet.inv ⟨h.tagOp, h.matched, h.right⟩
    · unfold unlessOk
      dsimp only
      split
      · next hok =>
        constructor
        · exact fun _ => hb
        · intro hr
          cases hr
        · intro _
          refine ⟨hop, fun ht => ?_, fun ht => if_pos ⟨ht, .inl hok⟩⟩
          intro _
          exact (h.matched hst).trans (if_neg fun hc => hc.1 ht).symm
        · exact fun hne => absurd rfl hne
        · exact h.right
      · next hfail =>
        refine Quiet.inv ⟨h.tagOp, fun _ => ?_, h.right⟩
        change s.ndefCurSize = lenAfterCall s env
        unfold lenAfterCall
        split
        · next hc =>
          -- the length was stored before the call failed
          obtain ⟨ht, hstored⟩ := hc
          exact (hkept ht hfail (hstored.resolve_left hfail)).symm
        · exact h.matched hst

theorem inv_handleOpReq (h : Inv s) (op : Op) {handle : RwCb → RwCb}
    (hhandle : Quiet s → Inv (handle { s with apiBusy := true, curOp := op })) :
    Inv (handleOpReq s op handle) := by
  unfold handleOpReq
  split
  · exact h
  · next hbusy =>
    have hnone : s.tagOp = none := by
      by_contra hne
      exact hbusy (h.busy (Option.isSome_iff_ne_none.mpr hne))
    exact hhandle ⟨hnone, h.matched (by simp [hnone]), h.right⟩

theorem inv_handleNdefDetect (hidle : s.tagOp = none) (hright : ∀ h ∈ s.handed, h.Right)
    (hb : s.apiBusy = true) {env : Env} {status : Status} {curSize maxSize : Nat} {readOnly : Bool}
    (hlen : status = .ok → s.tagLen = curSize)
    (hkept : s.curOp = .writeNdef → Kept s env s.ndefWrLen curSize) :
    Inv (handleNdefDetect s env status curSize maxSize readOnly) := by
  unfold handleNdefDetect
  split
  · next hok =>
    have hmatched : curSize = s.tagLen := (hlen hok).symm
    dsimp only
    cases hop : s.curOp with
    | readNdef =>
      apply inv_startNdefRead
      · exact ⟨hidle, fun _ => hmatched, hright⟩
      · exact hb
      · rfl
      · rfl
    | writeNdef =>
      apply inv_startNdefWrite
      · exact ⟨hidle, fun _ => hmatched, hright⟩
      · exact hb
      · rfl
      · rfl
      · exact hkept hop
    | detectNdef => exact Quiet.inv ⟨hidle, fun _ => hmatched, hright⟩
    | max => exact Quiet.inv ⟨hidle, fun _ => hmatched, hright⟩
  · dsimp only
    split
    · refine Quiet.inv ⟨hidle, ?_, hright⟩
      intro hst
      cases hst
    · refine Quiet.inv ⟨hidle, ?_, hright⟩
      intro hst
      cases hst

theorem quiet_handed {s s' : RwCb} (h : Quiet s) (hf : Filled s)
    (hfull : s.stored.length = s.ndefCurSize) (hs : handleMessage s = some s') : Quiet s' := by
  rw [handleMessage_right hf hfull hs]
  refine ⟨h.tagOp, h.matched, fun x hx => ?_⟩
  obtain hx | hx := List.mem_append.mp hx
  · exact h.right x hx
  · obtain rfl := List.mem_singleton.mp hx
    rfl

theorem reported_some {s s' : RwCb} {op : Op} {handle : RwCb → Option RwCb}
    (h : reported s op handle = some s') : s.tagOp = some op ∧ handle s = some s' := by
  unfold reported at h
  split at h
  · next hop => exact ⟨hop, h⟩
  · cases h

theorem storedWith_left (h : Reading s) {data : Bytes} (hd : data.length ≤ s.tagLeft) :
    storedWith s data = s.stored ++ data := by
  have hleft := h.left
  have hsum : s.ndefRdOffset + data.length ≤ s.ndefCurSize := by
    rw [h.filled.offset]
    omega
  unfold storedWith
  rw [if_pos ((Nat.mod_le _ _).trans hsum)]

theorem inv_ndefRead {s s' : RwCb} (h : Inv s) (hop : s.tagOp = some .readNdef) {data : Bytes}
    (hd : data.length ≤ s.tagLeft)
    (hs : storeNdefRxBuf { s with tagLeft := s.tagLeft - data.length } data = some s') : Inv s' := by
  have hread := h.reading hop
  have hleft := hread.left
  have hfilled₀ : Filled { s with tagLeft := s.tagLeft - data.length } :=
    ⟨hread.filled.offset, hread.filled.room, hread.filled.buf⟩
  obtain ⟨hfilled, hsame, hstored⟩ := storeNdefRxBuf_filled hfilled₀ hs
  have hall : s'.stored = s.stored ++ data := hstored.trans (storedWith_left hread hd)
  have hsum : s'.stored.length + (s.tagLeft - data.length) = s.ndefCurSize := by
    rw [hall, List.length_append]
    omega
  have hmatched : Matched s := h.matched (by simp [hop])
  unfold SameOp at hsame
  rw [hsame] at hfilled ⊢
  constructor
  · exact h.busy
  · exact fun _ => ⟨hfilled, hread.curOp, hsum⟩
  · intro hw
    exact absurd (hop.symm.trans hw) (by decide)
  · exact fun _ => hmatched
  · exact h.right

theorem inv_handleReadCplt {s s' : RwCb} (h : Inv s) (hop : s.tagOp = some .readNdef) {data : Bytes}
    (hd : data.length = s.tagLeft)
    (hs : handleReadCplt { s with tagOp := none } data = some s') : Inv s' := by
  have hread := h.reading hop
  have hfilled₀ : Filled { s with tagOp := none } :=
    ⟨hread.filled.offset, hread.filled.room, hread.filled.buf⟩
  unfold handleReadCplt at hs
  dsimp only at hs
  rw [if_pos hread.curOp] at hs
  obtain ⟨s₃, hs₃, rfl⟩ := Option.map_eq_some_iff.mp hs
  obtain ⟨s₂, hs₂, rfl⟩ := Option.map_eq_some_iff.mp hs₃
  obtain ⟨s₁, hs₁, hhand⟩ := Option.bind_eq_some_iff.mp hs₂
  obtain ⟨hfilled₁, hsame, hstored⟩ := storeNdefRxBuf_filled hfilled₀ hs₁
  have hall : s₁.stored = s.stored ++ data := hstored.trans (storedWith_left hread hd.le)
  have hquiet : Quiet s₁ := by
    unfold SameOp at hsame
    rw [hsame]
    exact ⟨rfl, h.matched (by simp [hop]), h.right⟩
  have hcur : s₁.ndefCurSize = s.ndefCurSize := by
    unfold SameOp at hsame
    rw [hsame]
  have hsize : s₁.stored.length = s₁.ndefCurSize := by
    rw [hall, List.length_append, hd, hcur]
    exact hread.left
  have hquiet₂ := quiet_handed hquiet hfilled₁ hsize hhand
  exact Quiet.inv ⟨hquiet₂.tagOp, hquiet₂.matched, hquiet₂.right⟩

theorem inv_handleCheckCplt {s s' : RwCb} (h : Inv s) (hop : s.tagOp = some .readNdef)
    {status : Status} (hd : status = .ok → s.tagLeft = 0)
    (hs : handleCheckCplt { s with tagOp := none } status = some s') : Inv s' := by
  have hread := h.reading hop
  have hq : Quiet { s with tagOp := none } := h.quiet (by simp [hop])
  have hfilled₀ : Filled { s with tagOp := none } :=
    ⟨hread.filled.offset, hread.filled.room, hread.filled.buf⟩
  obtain ⟨s₁, hs₁, rfl⟩ := Option.map_eq_some_iff.mp hs
  split at hs₁
  · next hok =>
    have hfull : s.stored.length = s.ndefCurSize := by
      have hleft := hread.left
      rw [hd hok, Nat.add_zero] at hleft
      exact hleft
    have hquiet := quiet_handed hq hfilled₀ hfull hs₁
    exact Quiet.inv ⟨hquiet.tagOp, hquiet.matched, hquiet.right⟩
  · cases hs₁
    exact Quiet.inv ⟨rfl, hq.matched, h.right⟩

theorem inv_updateCplt (h : Inv s) (hop : s.tagOp = some .writeNdef) {status : Status}
    (hok : s.protocol = .t3t → status ≠ .ok → s.ndefWrLen = s.ndefCurSize) :
    Inv (handleUpdateCplt { s with tagOp := none, tagLen := lenAfterUpdate s status }) := by
  have hw := h.writing hop
  have hlen : s.ndefSt = .isTrue → s.ndefWrLen = lenAfterUpdate s status := by
    intro hst
    unfold lenAfterUpdate
    split
    · rfl
    · next hc =>
      by_cases ht : s.protocol = .t3t
      · -- on a Type 3 tag a write that fails leaves the length
        calc s.ndefWrLen = s.ndefCurSize := hok ht fun h => hc ⟨ht, h⟩
          _ = s.tagLen := hw.kept ht hst
      · exact (hw.taken ht).symm
  unfold handleUpdateCplt
  dsimp only
  rw [if_pos hw.curOp]
  split
  · exact Quiet.inv ⟨rfl, hlen, h.right⟩
  · exact Quiet.inv ⟨rfl, hlen, h.right⟩

theorem matched_intfError (h : Inv s) (ht : s.protocol ≠ .t3t) {len : Nat}
    (hok : s.ndefSt = .isTrue → (s.tagOp = some .writeNdef → s.ndefWrLen = s.ndefCurSize) ∧
      (s.tagOp = some .detectNdef → len = s.ndefCurSize))
    (hst : s.ndefSt = .isTrue) : s.ndefCurSize = lenAfterError s len := by
  obtain ⟨hwrite, hdetect⟩ := hok hst
  unfold lenAfterError
  split
  · next hop => exact (hdetect hop).symm
  · by_cases hop : s.tagOp = some .writeNdef
    · calc s.ndefCurSize = s.ndefWrLen := (hwrite hop).symm
        _ = s.tagLen := ((h.writing hop).taken ht).symm
    · exact h.matched hop hst

theorem inv_step {s s' : RwCb} {e : Event} (h : Inv s) (hok : Sound s e)
    (hs : step s e = some s') : Inv s' := by
  cases e with
  | detectNdef env =>
    cases hs
    apply inv_handleOpReq h
    intro hq
    have hq' : Quiet { s with apiBusy := true, curOp := .detectNdef } :=
      ⟨hq.tagOp, hq.matched, hq.right⟩
    exact inv_startNdefDetection hq' rfl env
  | readNdef env =>
    cases hs
    apply inv_handleOpReq h
    intro hq
    have hq' : Quiet { s with apiBusy := true, curOp := .readNdef } :=
      ⟨hq.tagOp, hq.matched, hq.right⟩
    unfold readNdef
    split
    · exact inv_startNdefDetection hq' rfl env
    · exact Quiet.inv ⟨hq.tagOp, hq.matched, hq.right⟩
    · next hst => exact inv_startNdefRead hq' rfl rfl hst env
  | writeNdef env valid len =>
    cases hs
    apply inv_handleOpReq h
    intro hq
    -- a write to a tag not yet looked at starts with a detection
    have hq' : Quiet { s with apiBusy := true, curOp := .writeNdef, ndefWrLen := len } :=
      ⟨hq.tagOp, hq.matched, hq.right⟩
    unfold writeNdef
    split
    · dsimp only
      split
      · exact inv_startNdefDetection hq' rfl env
      · exact Quiet.inv ⟨hq.tagOp, hq.matched, hq.right⟩
      · next hst => exact inv_startNdefWrite hq' rfl rfl hst (hok hst)
    · exact Quiet.inv ⟨hq.tagOp, hq.matched, hq.right⟩
  | ndefDetected env status curSize maxSize readOnly =>
    simp only [step] at hs
    obtain ⟨hop, hs⟩ := reported_some hs
    cases hs
    have hbusy : s.apiBusy = true := h.busy (by rw [hop]; rfl)
    apply inv_handleNdefDetect
    · rfl
    · exact h.right
    · exact hbusy
    · exact fun hst => if_pos hst
    · exact hok
  | ndefRead data =>
    simp only [step] at hs
    obtain ⟨hop, hs⟩ := reported_some hs
    rw [if_pos (h.reading hop).curOp] at hs
    exact inv_ndefRead h hop (hok hop) hs
  | readCplt data =>
    simp only [step] at hs
    split at hs
    · cases hs
    · obtain ⟨hop, hs⟩ := reported_some hs
      exact inv_handleReadCplt h hop (hok hop) hs
  | readFail =>
    simp only [step] at hs
    split at hs
    · cases hs
    · obtain ⟨hop, hs⟩ := reported_some hs
      cases hs
      have hmatched : Matched s := h.matched (by simp [hop])
      unfold handleReadFail
      split
      · exact Quiet.inv ⟨rfl, hmatched, h.right⟩
      · exact Quiet.inv ⟨rfl, hmatched, h.right⟩
  | checkCplt status =>
    simp only [step] at hs
    split at hs
    · obtain ⟨hop, hs⟩ := reported_some hs
      exact inv_handleCheckCplt h hop (hok hop) hs
    · cases hs
  | updateCplt status =>
    simp only [step] at hs
    obtain ⟨hop, hs⟩ := reported_some hs
    cases hs
    exact inv_updateCplt h hop (hok hop)
  | intfError len =>
    simp only [step] at hs
    split at hs
    · cases hs
      exact h
    · next ht =>
      cases hs
      exact Quiet.inv ⟨rfl, matched_intfError h ht (hok ht), h.right⟩

def activated (protocol : TagProtocol) : RwCb where
  protocol := protocol
  ndefSt := .unknown
  curOp := .max
  apiBusy := false
  tagIsReadonly := false
  ndefCurSize := 0
  ndefMaxSize := 0
  ndefWrLen := 0
  ndefRdOffset := 0
  pNdefBuf := none
  tagOp := none
  tagLen := 0
  tagLeft := 0
  stored := []
  handed := []

theorem activated_inv (protocol : TagProtocol) : Inv (activated protocol) := by
  refine Quiet.inv ⟨rfl, ?_, by simp [activated]⟩
  intro hst
  cases hst

theorem handed_right (protocol : TagProtocol) (s' : RwCb) (es : List Event)
    (hok : StepsOk step Sound (activated protocol) es)
    (hrun : run step (activated protocol) es = some s') : ∀ h ∈ s'.handed, h.Right :=
  (run_keeps_of_step (fun _ _ _ hs he ht => inv_step hs he ht) es (activated_inv protocol) hok
    hrun).right

def works : Env := ⟨.ok, true, .ok, .ok, true⟩

/-- Two bytes are on a Type 4 tag; a write of five fails and the tag is read, in two segments. -/
theorem handed_right_two :
    ∃ s', run step (activated .isoDep) [.detectNdef works, .ndefDetected works .ok 2 100 false,
        .writeNdef works true 5, .updateCplt .failed, .readNdef works, .ndefRead [1, 2, 3],
        .readCplt [4, 5]] = some s' ∧ ∀ h ∈ s'.handed, h.Right :=
  ⟨_, rfl, handed_right .isoDep _ [.detectNdef works, .ndefDetected works .ok 2 100 false,
    .writeNdef works true 5, .updateCplt .failed, .readNdef works, .ndefRead [1, 2, 3],
    .readCplt [4, 5]] (by decide) rfl⟩

theorem failed_write_uninitialised :
    ∃ s', run step (activated .t3t) [.detectNdef works, .ndefDetected works .ok 2 100 false,
        .writeNdef works true 4, .updateCplt .failed, .readNdef works, .ndefRead [1, 2],
        .checkCplt .ok] = some s' ∧
      s'.handed = [⟨[some 1, some 2, none, none], [1, 2]⟩] ∧ ¬ ∀ h ∈ s'.handed, h.Right := by
  refine ⟨_, rfl, by decide, fun h => ?_⟩
  have hright := h ⟨[some 1, some 2, none, none], [1, 2]⟩ (by decide)
  exact absurd hright (by unfold Handed.Right; decide)

end NfcStack.Nfa.NdefSegments
