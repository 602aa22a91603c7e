import NfcStack.Ndef.Validate

/- Handing an NDEF message to the handlers that are registered for its records
   (`nfa_dm_ndef.cc`).

   A handler asks for a type name format and a type, or for the URI records with a
   prefix, and gets each such record, or the whole message once. Who asks for nothing
   is the default handler: it gets what nobody else does. A pointer to a handler is
   its place in the table.

   What is proved:
     1. `registered_stays`: a handler is at the place that its handle names, until it is
        taken out.
     2. `findNextHandler_spec`, `notifyLoop_spec`, `messageLoop_spec`: the loops, over
        the records of the message, call whom `dispatch` calls, with the match of the
        code and its length of a record.
     3. `dispatch_once`: a handler of whole messages is called at most once. -/
namespace NfcStack.Nfa.NdefDm
open NfcStack.Lib NfcStack.Ndef

/-! ## The code -/

abbrev ndefMaxHandlers : Nat := 8
instance (priority := 1200) : NeZero ndefMaxHandlers := ⟨by decide⟩
def tnfDefault : UInt8 := 0xFF
def uriIdAbsolute : UInt8 := 0x00
def flagHandleWholeMessage : UInt8 := 0x01
def flagWktUri : UInt8 := 0x02
def flagWholeMessageNotified : UInt8 := 0x04
def handleGroupNdefHandler : UInt16 := 0x0200
def handleMask : UInt16 := 0x00FF
def statusOk : UInt8 := 0x00

def ascii (s : List Char) : Ndef.Bytes := s.map fun c => UInt8.ofNat c.toNat

/-- `nfa_dm_ndef_wkt_uri_str_tbl`, from 0x01 on. -/
def wktUriStrTbl : List Ndef.Bytes :=
  ["http://www.", "https://www.", "http://", "https://", "tel:", "mailto:", "ftp://anonymous:anonymous@",
    "ftp://ftp.", "ftps://", "sftp://", "smb://", "nfs://", "ftp://", "dav://", "news:", "telnet://", "imap:",
    "rtsp://", "urn:", "pop:", "sip:", "sips:", "tftp:", "btspp://", "btl2cap://", "btgoep://", "tcpobex://",
    "irdaobex://", "file://", "urn:epc:id:", "urn:epc:tag:", "urn:epc:pat:", "urn:epc:raw:", "urn:epc:",
    "urn:nfc:"].map fun s => ascii s.toList

/-- The text that an abbreviation stands for. -/
def wktUriStr (id : UInt8) : Option Ndef.Bytes := if id = uriIdAbsolute then none else wktUriStrTbl[id.toNat - 1]?

/-- `tNFA_DM_API_REG_NDEF_HDLR`; `ndefCback` says which callback it is. -/
structure Handler where
  ndefTypeHandle : UInt16
  flags : UInt8
  ndefCback : Nat
  tnf : UInt8
  uriId : UInt8
  name : Ndef.Bytes
  name_lt : name.length < 256

def handleOf (i : Fin ndefMaxHandlers) : UInt16 := handleGroupNdefHandler ||| UInt16.ofNat i

/-- `p_ndef_handler`. Every handler is at the place that its handle names. -/
structure HandlerTable where
  slot : Fin ndefMaxHandlers → Option Handler
  handle_eq : ∀ i h, slot i = some h → h.ndefTypeHandle = handleOf i

/-- What `NFA_NDEF_DATA_EVT` tells a callback. `pData` is the offset in the message, or null. -/
structure Call where
  cback : Nat
  ndefTypeHandle : UInt16
  pData : Option Nat
  len : UInt32
  deriving DecidableEq, Repr

namespace HandlerTable
variable (tbl : HandlerTable)

def put (i : Fin ndefMaxHandlers) (h : Handler) : HandlerTable where
  slot j := if j = i then some { h with ndefTypeHandle := handleOf i } else tbl.slot j
  handle_eq j g hg := by
    split at hg
    · subst j
      cases hg
      rfl
    · exact tbl.handle_eq j g hg

/-- `nfa_dm_ndef_dereg_hdlr_by_handle`, for a handle of the table. -/
def deregHdlrByHandle (i : Fin ndefMaxHandlers) : HandlerTable where
  slot j := if j = i then none else tbl.slot j
  handle_eq j g hg := by
    split at hg
    · cases hg
    · exact tbl.handle_eq j g hg

/-- The flags of each handler may be changed. -/
def mapFlags (f : Fin ndefMaxHandlers → UInt8 → UInt8) : HandlerTable where
  slot j := (tbl.slot j).map fun h => { h with flags := f j h.flags }
  handle_eq j g hg := by
    obtain ⟨h, hh, rfl⟩ := Option.map_eq_some_iff.mp hg
    exact tbl.handle_eq j h hh

end HandlerTable

/-- The handle that the registration is answered with. -/
abbrev Registered := Option UInt16

def regHdlr (tbl : HandlerTable) (pRegInfo : Handler) : HandlerTable × Registered :=
  if pRegInfo.tnf = tnfDefault then (tbl.put 0 pRegInfo, some (handleOf 0))
  else
    match (List.finRange ndefMaxHandlers).find? fun i => decide (i ≠ 0) && (tbl.slot i).isNone with
    | some i => (tbl.put i pRegInfo, some (handleOf i))
    | none => (tbl, none)

/-- `nfa_dm_ndef_dereg_hdlr`. -/
def deregHdlr (tbl : HandlerTable) (handle : UInt16) : HandlerTable :=
  if handle &&& 0xFF00 ≠ handleGroupNdefHandler then tbl
  else if h : (handle &&& handleMask).toNat < ndefMaxHandlers then tbl.deregHdlrByHandle ⟨_, h⟩
  else tbl

section Search
variable (mem : Ndef.Bytes)

/-- The URI of a record against the prefix that a handler asks for. -/
def uriTakes (h : Handler) (pPayload : Nat) (payloadLen : UInt32) : Option Bool :=
  mem[pPayload]?.bind fun id =>
    if 1 < payloadLen ∧ id = h.uriId then
      if h.uriId ≠ uriIdAbsolute then some true
      else if h.name.length < payloadLen.toNat then memcmp mem (pPayload + 1) h.name
      else some false
    else if h.uriId = uriIdAbsolute ∧ id ≠ uriIdAbsolute then
      match wktUriStr id with
      | some s => some (decide (h.name.length ≤ s.length) && decide (s.take h.name.length = h.name))
      | none => some false
    else if h.uriId ≠ uriIdAbsolute ∧ id = uriIdAbsolute then
      match wktUriStr h.uriId with
      | some s => if s.length < payloadLen.toNat then memcmp mem (pPayload + 1) s else some false
      | none => some false
    else some false

structure RecView where
  pRec : Nat
  tnf : UInt8
  pType : Option Nat
  typeLen : UInt8
  pPayload : Option Nat
  payloadLen : UInt32
  deriving DecidableEq, Repr

/-- The body of the loop of `nfa_dm_ndef_find_next_handler`. -/
def handlerTakes (v : RecView) (h : Handler) : Option Bool :=
  if h.tnf ≠ v.tnf then some false
  else
    match v.pType with
    | none => some true
    | some pType =>
      if has h.flags flagWktUri then
        match v.pPayload with
        | none => some false
        | some pPayload =>
          if v.typeLen = 1 then
            mem[pType]?.bind fun c => if c = 0x55 then uriTakes mem h pPayload v.payloadLen else some false
          else some false
      else if h.name.length = v.typeLen.toNat then
        if v.typeLen = 0 then some true else memcmp mem pType h.name
      else some false

def findLoop (tbl : HandlerTable) (takes : Handler → Option Bool) : List (Fin ndefMaxHandlers) →
    Option (Option (Fin ndefMaxHandlers))
  | [] => some none
  | i :: is =>
    match tbl.slot i with
    | none => findLoop tbl takes is
    | some h => (takes h).bind fun found => if found then some (some i) else findLoop tbl takes is

def startIdx (tbl : HandlerTable) : Option (Fin ndefMaxHandlers) → Nat
  | none => 1
  | some i => (tbl.slot i).elim 1 fun h => (h.ndefTypeHandle &&& handleMask).toNat + 1

/-- `nfa_dm_ndef_find_next_handler`. -/
def findNextHandler (tbl : HandlerTable) (pInitHandler : Option (Fin ndefMaxHandlers)) (v : RecView) :
    Option (Option (Fin ndefMaxHandlers)) :=
  findLoop tbl (handlerTakes mem v) ((List.finRange ndefMaxHandlers).drop (startIdx tbl pInitHandler))

/-- The length of a record. Without a payload it is that of the head and the id. -/
def recordLen (v : RecView) : Option UInt32 :=
  match v.pPayload with
  | some pPayload => some (v.payloadLen + UInt32.ofNat (pPayload - v.pRec))
  | none =>
    mem[v.pRec]?.bind fun hdr =>
      (readIdLen mem hdr (v.pRec + 2 + (if has hdr ndefSrMask then 1 else 4))).map fun r =>
        UInt32.ofNat (r.2 + r.1.toNat - v.pRec)

/-- What a handler is told of a record. -/
def callOf (h : Handler) (msgLen : UInt32) (pRec : Nat) (recLen : UInt32) : Call :=
  if has h.flags flagHandleWholeMessage then ⟨h.ndefCback, h.ndefTypeHandle, some 0, msgLen⟩
  else ⟨h.ndefCback, h.ndefTypeHandle, some pRec, recLen⟩

def HandlerTable.notified (tbl : HandlerTable) (i : Fin ndefMaxHandlers) : HandlerTable :=
  tbl.mapFlags fun j f => if j = i then f ||| flagWholeMessageNotified else f

/-- The handlers of one record, from `pHandler` on. -/
def notifyLoop (msgLen : UInt32) (v : RecView) :
    Nat → HandlerTable → Option (Fin ndefMaxHandlers) → Option (HandlerTable × List Call)
  | _, tbl, none => some (tbl, [])
  | 0, _, some _ => none
  | fuel + 1, tbl, some i =>
    (tbl.slot i).bind fun h =>
      if has h.flags flagWholeMessageNotified then
        (findNextHandler mem tbl (some i) v).bind fun next => notifyLoop msgLen v fuel tbl next
      else
        (recordLen mem v).bind fun recLen =>
          let tbl' := if has h.flags flagHandleWholeMessage then tbl.notified i else tbl
          (findNextHandler mem tbl' (some i) v).bind fun next =>
            (notifyLoop msgLen v fuel tbl' next).map fun r => (r.1, callOf h msgLen v.pRec recLen :: r.2)

/-- The records from `pRec` on; the calls are listed record by record. -/
def messageLoop (msgLen : UInt32) : Nat → HandlerTable → Nat → Option (HandlerTable × List (List Call))
  | 0, _, _ => none
  | fuel + 1, tbl, pRec =>
    (ndefRecGetType mem pRec).bind fun (pType, tnf, typeLen) =>
      (ndefRecGetPayload mem pRec).bind fun (pPayload, payloadLen) =>
        let v : RecView := ⟨pRec, tnf, pType, typeLen, pPayload, payloadLen⟩
        (findNextHandler mem tbl none v).bind fun first =>
          let pHandler := first.or ((tbl.slot 0).map fun _ => 0)
          (notifyLoop mem msgLen v (ndefMaxHandlers + 1) tbl pHandler).bind fun r =>
            (ndefMsgGetNextRec mem pRec).bind fun
              | none => some (r.1, [r.2])
              | some next => (messageLoop msgLen fuel r.1 next).map fun rest => (rest.1, r.2 :: rest.2)

end Search

/-- `nfa_dm_ndef_clear_notified_flag`. -/
def HandlerTable.clearNotified (tbl : HandlerTable) : HandlerTable :=
  tbl.mapFlags fun _ f => f &&& ~~~ flagWholeMessageNotified

structure DmCb where
  exclRfActive : Bool
  exclNdefCback : Option Nat
  ndefHandler : HandlerTable

/-- `nfa_dm_ndef_handle_message`. -/
def ndefHandleMessage (cb : DmCb) (status : UInt8) (pMsgBuf : Ndef.Bytes) (len : UInt32) :
    Option (DmCb × List (List Call)) :=
  if status ≠ statusOk then some (cb, [])
  else
    match (if cb.exclRfActive then cb.exclNdefCback else none) with
    | some cback => some (cb, [[⟨cback, 0, some 0, len⟩]])
    | none =>
      if len = 0 then
        some (cb, (cb.ndefHandler.slot 0).toList.map fun h => [⟨h.ndefCback, h.ndefTypeHandle, none, 0⟩])
      else
        (ndefMsgValidate (some pMsgBuf) len true).bind fun st =>
          if st ≠ .ok then some (cb, [])
          else
            (messageLoop pMsgBuf len (walkFuel pMsgBuf) cb.ndefHandler.clearNotified 0).map fun r =>
              ({ cb with ndefHandler := r.1 }, r.2)

/-! ## What the records ask for -/

/-- A URI against the prefix that a handler asks for. Both may be written with the same abbreviation or with
none, or the one with an abbreviation that stands for what the other has in full. -/
def UriPrefix (h : Handler) : Ndef.Bytes → Prop
  | [] => False
  | id :: uri =>
    (uri ≠ [] ∧ id = h.uriId ∧ (h.uriId = uriIdAbsolute → h.name <+: uri)) ∨
      (h.uriId = uriIdAbsolute ∧ id ≠ uriIdAbsolute ∧ ∃ s ∈ wktUriStr id, h.name <+: s) ∨
      (h.uriId ≠ uriIdAbsolute ∧ id = uriIdAbsolute ∧ ∃ s ∈ wktUriStr h.uriId, s <+: uri)

instance (h : Handler) (payload : Ndef.Bytes) : Decidable (UriPrefix h payload) := by
  cases payload <;> unfold UriPrefix <;> infer_instance

/-- The handler asks for the record. -/
def Matches (h : Handler) (r : Rec) : Prop :=
  h.tnf = r.tnf ∧ if has h.flags flagWktUri then r.type = [0x55] ∧ UriPrefix h r.payload else h.name = r.type

instance (h : Handler) (r : Rec) : Decidable (Matches h r) := by
  unfold Matches
  infer_instance

/-- The match of the code: a record without a type is taken for any type. -/
def Takes (h : Handler) (r : Rec) : Prop := h.tnf = r.tnf ∧ (r.type = [] ∨ Matches h r)

instance (h : Handler) (r : Rec) : Decidable (Takes h r) := by
  unfold Takes
  infer_instance

/-- The length of the record in memory. -/
def spanOf (r : Rec) : UInt32 := UInt32.ofNat r.bytes.length

/-- The length that the code computes. -/
def codeSpan (r : Rec) : UInt32 :=
  if r.payload = [] then UInt32.ofNat (r.head.length + r.id.length) else spanOf r

abbrev Told := Fin ndefMaxHandlers → Bool

def HandlerTable.whole (tbl : HandlerTable) (i : Fin ndefMaxHandlers) : Bool :=
  (tbl.slot i).any fun h => decide (has h.flags flagHandleWholeMessage)

section Dispatch
variable (takes : Handler → Rec → Bool) (span : Rec → UInt32) (tbl : HandlerTable) (msgLen : UInt32)

/-- The handlers that take a record, in the order of the table; the default handler if there is none. -/
def offered (r : Rec) : List (Fin ndefMaxHandlers) :=
  let asking := ((List.finRange ndefMaxHandlers).drop 1).filter fun i => (tbl.slot i).any (takes · r)
  if asking = [] then [0] else asking

/-- Who was told the whole message is not told again. -/
def due (told : Told) (r : Rec) : List (Fin ndefMaxHandlers) := (offered takes tbl r).filter fun i => !told i

def toldBy (told : Told) (is : List (Fin ndefMaxHandlers)) : Told :=
  fun i => told i || (decide (i ∈ is) && tbl.whole i)

def callsOf (p : Nat) (recLen : UInt32) (is : List (Fin ndefMaxHandlers)) : List Call :=
  is.filterMap fun i => (tbl.slot i).map fun h => callOf h msgLen p recLen

/-- The calls for the records that stand from `p` on, record by record. -/
def dispatch : Told → Nat → List Rec → List (List Call)
  | _, _, [] => []
  | told, p, r :: rs =>
    callsOf tbl msgLen p (span r) (due takes tbl told r) ::
      dispatch (toldBy tbl told (due takes tbl told r)) (p + r.bytes.length) rs

end Dispatch

/-! ## The table -/

@[ext] theorem HandlerTable.ext {a b : HandlerTable} (h : ∀ i, a.slot i = b.slot i) : a = b := by
  cases a
  cases b
  simp only [HandlerTable.mk.injEq]
  exact funext h

theorem handleOf_mask : ∀ i : Fin ndefMaxHandlers, (handleOf i &&& handleMask).toNat = i := by decide

theorem regHdlr_slot {tbl tbl' : HandlerTable} {h : Handler} {handle : UInt16}
    (hreg : regHdlr tbl h = (tbl', some handle)) :
    ∃ i, handle = handleOf i ∧ tbl'.slot i = some { h with ndefTypeHandle := handle } ∧
      (i = 0 ↔ h.tnf = tnfDefault) ∧ ∀ j, j ≠ i → tbl'.slot j = tbl.slot j := by
  have hput : ∀ i, (tbl.put i h).slot i = some { h with ndefTypeHandle := handleOf i } ∧
      ∀ j, j ≠ i → (tbl.put i h).slot j = tbl.slot j := by
    intro i
    refine ⟨?_, fun j hj => ?_⟩ <;> simp_all [HandlerTable.put]
  unfold regHdlr at hreg
  split at hreg
  case isTrue htnf =>
    simp only [Prod.mk.injEq, Option.some.injEq] at hreg
    obtain ⟨rfl, rfl⟩ := hreg
    exact ⟨0, rfl, (hput 0).1, by simp [htnf], (hput 0).2⟩
  case isFalse htnf =>
    cases hfind : (List.finRange ndefMaxHandlers).find? fun i => decide (i ≠ 0) && (tbl.slot i).isNone with
    | none =>
      rw [hfind] at hreg
      simp at hreg
    | some i =>
      rw [hfind] at hreg
      simp only [Prod.mk.injEq, Option.some.injEq] at hreg
      obtain ⟨rfl, rfl⟩ := hreg
      have hi := List.find?_some hfind
      simp only [ne_eq, Bool.and_eq_true, decide_eq_true_eq] at hi
      exact ⟨i, rfl, (hput i).1, by simp [hi.1, htnf], (hput i).2⟩

inductive HdlrCall where
  | reg (pRegInfo : Handler)
  | dereg (handle : UInt16)

def HandlerTable.call (tbl : HandlerTable) : HdlrCall → HandlerTable
  | .reg pRegInfo => (regHdlr tbl pRegInfo).1
  | .dereg handle => deregHdlr tbl handle

theorem handle_parts (handle : UInt16) : handle &&& 0xFF00 ||| handle &&& handleMask = handle := by
  have hall : (0xFF00 : UInt16) ||| handleMask = -1 := by decide
  rw [← UInt16.toBitVec_inj, UInt16.toBitVec_or, UInt16.toBitVec_and, UInt16.toBitVec_and, ← BitVec.and_or_distrib_left,
    ← UInt16.toBitVec_or, ← UInt16.toBitVec_and, hall, UInt16.and_neg_one]

/-- A place that is taken stays so, but for the default one and the one whose handle is given back. -/
theorem call_slot {tbl : HandlerTable} {i : Fin ndefMaxHandlers} {h : Handler} {c : HdlrCall} (hi : i ≠ 0)
    (hslot : tbl.slot i = some h) (hc : c ≠ .dereg (handleOf i)) : (tbl.call c).slot i = some h := by
  cases c with
  | reg pRegInfo =>
    show (regHdlr tbl pRegInfo).1.slot i = _
    unfold regHdlr
    split
    · exact (if_neg hi).trans hslot
    · cases hfind : (List.finRange ndefMaxHandlers).find? fun i => decide (i ≠ 0) && (tbl.slot i).isNone with
      | none => exact hslot
      | some j =>
        have hfree := List.find?_some hfind
        refine (if_neg ?_).trans hslot
        rintro rfl
        simp [hslot] at hfree
  | dereg handle =>
    show (deregHdlr tbl handle).slot i = _
    unfold deregHdlr
    split
    · exact hslot
    · next hgroup =>
      split
      · refine (if_neg ?_).trans hslot
        rintro rfl
        apply hc
        rw [handleOf, UInt16.ofNat_toNat, ← not_not.mp hgroup, handle_parts]
      · exact hslot

/-- A handler that is registered for a type stays at the place its handle names, whatever else is registered
or taken out, until that handle is given back. -/
theorem registered_stays {tbl tbl' : HandlerTable} {pRegInfo : Handler} {handle : UInt16}
    (hreg : regHdlr tbl pRegInfo = (tbl', some handle)) (htnf : pRegInfo.tnf ≠ tnfDefault) (calls : List HdlrCall)
    (hcalls : .dereg handle ∉ calls) :
    ∃ i, handle = handleOf i ∧
      (calls.foldl HandlerTable.call tbl').slot i = some { pRegInfo with ndefTypeHandle := handle } := by
  obtain ⟨i, rfl, hslot, hzero, -⟩ := regHdlr_slot hreg
  have hi : i ≠ 0 := fun h => htnf (hzero.mp h)
  refine ⟨i, rfl, ?_⟩
  clear hreg
  induction calls generalizing tbl' with
  | nil => exact hslot
  | cons c calls ih =>
    refine ih (fun h => hcalls (List.mem_cons_of_mem c h)) (call_slot hi hslot ?_)
    rintro rfl
    exact hcalls List.mem_cons_self

def textHandler : Handler := ⟨0, 0, 7, ndefTnfWkt, 0, [0x54], text_type_lt⟩

theorem registered_stays_text :
    ∃ i, 0x0201 = handleOf i ∧ ([.dereg 0x0202, .reg textHandler].foldl HandlerTable.call
      (regHdlr ⟨fun _ => none, fun _ _ h => by cases h⟩ textHandler).1).slot i =
        some { textHandler with ndefTypeHandle := 0x0201 } :=
  registered_stays (Prod.ext rfl (by decide)) (by decide) _ (by simp)

/-- The flags in the middle of a message. -/
def shadowFlags (told : Bool) (f : UInt8) : UInt8 :=
  if told then (f &&& ~~~ flagWholeMessageNotified) ||| flagWholeMessageNotified
  else f &&& ~~~ flagWholeMessageNotified

def shadow (tbl : HandlerTable) (told : Told) : HandlerTable := tbl.mapFlags fun i f => shadowFlags (told i) f

theorem shadow_notTold (tbl : HandlerTable) : shadow tbl (fun _ => false) = tbl.clearNotified := rfl

section Flags
variable (f : UInt8)

theorem or_and_right (a b : UInt8) (h : a &&& b = 0) : (f ||| a) &&& b = f &&& b := by
  rw [or_and_mask, h, UInt8.or_zero]

theorem andNot_and_right (a b : UInt8) (h : ~~~ a &&& b = b) : (f &&& ~~~ a) &&& b = f &&& b := by
  rw [UInt8.and_assoc, h]

theorem shadowFlags_notified (told : Bool) :
    has (shadowFlags told f) flagWholeMessageNotified ↔ told = true := by
  cases told with
  | false =>
    have : (f &&& ~~~ flagWholeMessageNotified) &&& flagWholeMessageNotified = 0 := by
      rw [UInt8.and_assoc]
      simp
    simp [shadowFlags, has, this]
  | true =>
    have : ((f &&& ~~~ flagWholeMessageNotified) ||| flagWholeMessageNotified) &&&
        flagWholeMessageNotified = flagWholeMessageNotified := by
      rw [or_and_mask, UInt8.and_assoc]
      simp
    simp only [has, shadowFlags, if_true, this]
    decide

theorem shadowFlags_other (told : Bool) (b : UInt8) (hor : flagWholeMessageNotified &&& b = 0)
    (hnot : ~~~ flagWholeMessageNotified &&& b = b) : shadowFlags told f &&& b = f &&& b := by
  cases told
  · exact andNot_and_right f _ b hnot
  · simp only [shadowFlags, if_true]
    rw [or_and_right _ _ b hor, andNot_and_right f _ b hnot]

theorem shadowFlags_whole (told : Bool) :
    shadowFlags told f &&& flagHandleWholeMessage = f &&& flagHandleWholeMessage :=
  shadowFlags_other f told _ (by decide) (by decide)

theorem shadowFlags_uri (told : Bool) : shadowFlags told f &&& flagWktUri = f &&& flagWktUri :=
  shadowFlags_other f told _ (by decide) (by decide)

theorem shadowFlags_or (told told' : Bool) :
    (if told' then shadowFlags told f ||| flagWholeMessageNotified else shadowFlags told f) =
      shadowFlags (told || told') f := by
  cases told <;> cases told' <;> simp [shadowFlags, UInt8.or_assoc]

end Flags

section Shadow
variable {tbl : HandlerTable} {told : Told}

theorem shadow_slot (i : Fin ndefMaxHandlers) :
    (shadow tbl told).slot i = (tbl.slot i).map fun h => { h with flags := shadowFlags (told i) h.flags } := rfl

theorem shadow_notified (i : Fin ndefMaxHandlers) :
    (shadow tbl told).notified i = shadow tbl (fun j => told j || decide (j = i)) := by
  apply HandlerTable.ext
  intro j
  simp only [HandlerTable.notified, HandlerTable.mapFlags, shadow_slot, Option.map_map]
  congr 1
  funext h
  simp only [Function.comp, Handler.mk.injEq, true_and, and_true]
  have := shadowFlags_or h.flags (told j) (decide (j = i))
  simpa using this

end Shadow

/-! ## The match -/

/-- What the code reads of a record that stands at `p`. -/
def viewOf (p : Nat) (r : Rec) : RecView where
  pRec := p
  tnf := r.tnf
  pType := if r.type = [] then none else some (p + r.head.length)
  typeLen := UInt8.ofNat r.type.length
  pPayload := if r.payload = [] then none else some (p + r.head.length + r.type.length + r.id.length)
  payloadLen := UInt32.ofNat r.payload.length

@[simp] theorem viewOf_pRec (p : Nat) (r : Rec) : (viewOf p r).pRec = p := rfl

section Record
variable {mem : Ndef.Bytes} {p : Nat} {r : Rec} {rs : List Rec}

theorem recGetType_view (hs : Stands mem p (r :: rs)) :
    ndefRecGetType mem p = some ((viewOf p r).pType, r.tnf, UInt8.ofNat r.type.length) := by
  obtain ⟨ptr, hptr, -⟩ := ndefRecGetType_spec hs
  have hp : (if has r.hdr ndefIlMask then p + 2 + (if has r.hdr ndefSrMask then 1 else 4) + 1
      else p + 2 + (if has r.hdr ndefSrMask then 1 else 4)) = p + r.head.length := by
    rw [r.length_head]
    split <;> omega
  have hnil : UInt8.ofNat r.type.length = 0 ↔ r.type = [] :=
    ⟨eq_nil_of_ofNat_eq_zero r.type_lt, fun h => by rw [h]; rfl⟩
  rw [ndefRecGetType, hs.hdr, Option.bind_some, hs.typeLen, Option.map_some]
  simp only [hp, hnil, viewOf, Rec.tnf]

theorem recGetPayload_view (hs : Stands mem p (r :: rs)) :
    ndefRecGetPayload mem p = some ((viewOf p r).pPayload, UInt32.ofNat r.payload.length) := by
  have hnil : UInt32.ofNat r.payload.length = 0 ↔ r.payload = [] := by
    rw [← UInt32.toNat_inj, r.toNat_payloadLen]
    simp
  rw [ndefRecGetPayload, hs.readRecHdr, Option.map_some]
  simp only [r.toNat_typeLen, r.toNat_idLen, hnil, viewOf]

theorem memcmp_tail {q : Nat} {id : UInt8} {uri bs : Ndef.Bytes}
    (hf : readBytes mem q (id :: uri).length = some (id :: uri)) (hle : bs.length ≤ uri.length) :
    mem[q]? = some id ∧ memcmp mem (q + 1) bs = some (decide (bs <+: uri)) := by
  unfold readBytes at hf
  split at hf
  case isFalse => cases hf
  case isTrue hin =>
    have hslice : slice mem q (id :: uri).length = id :: uri := Option.some.inj hf
    have hdrop : mem.drop q = id :: (uri ++ mem.drop (q + (id :: uri).length)) := by
      rw [drop_slice q (id :: uri).length, hslice]
      rfl
    have hdrop' : mem.drop (q + 1) = uri ++ mem.drop (q + (id :: uri).length) := by
      rw [← List.drop_drop, hdrop]
      rfl
    constructor
    · rw [← List.head?_drop, hdrop]
      rfl
    · have htake : slice mem (q + 1) bs.length = uri.take bs.length := by
        rw [slice, hdrop', List.take_append_of_le_length hle]
      rw [List.length_cons] at hin
      rw [memcmp, readBytes, if_pos (by omega), htake, Option.map_some]
      congr 1
      rw [decide_eq_decide, List.prefix_iff_eq_take]
      exact eq_comm

theorem uriTakes_spec (h : Handler) {q : Nat} {id : UInt8} {uri : Ndef.Bytes}
    (hf : readBytes mem q (id :: uri).length = some (id :: uri)) (hlt : (id :: uri).length < 4294967296) :
    uriTakes mem h q (UInt32.ofNat (id :: uri).length) = some (decide (UriPrefix h (id :: uri))) := by
  have hlen : (UInt32.ofNat (id :: uri).length).toNat = uri.length + 1 := by
    simp only [List.length_cons] at hlt ⊢
    simp
    omega
  have hone : 1 < UInt32.ofNat (id :: uri).length ↔ uri ≠ [] := by
    rw [UInt32.lt_iff_toNat_lt, hlen, ← List.length_pos_iff]
    simp
  have hid : mem[q]? = some id := (@memcmp_tail mem q id uri [] hf (Nat.zero_le _)).1
  -- a text of the handler's side is compared only if it is not longer than the URI
  have hcmp : ∀ bs : Ndef.Bytes, (if bs.length < uri.length + 1 then memcmp mem (q + 1) bs else some false) =
      some (decide (bs <+: uri)) := by
    intro bs
    by_cases hle : bs.length ≤ uri.length
    · rw [if_pos (by omega), (memcmp_tail hf hle).2]
    · rw [if_neg (by omega)]
      have : ¬ bs <+: uri := fun hp => hle hp.length_le
      simp [this]
  rw [uriTakes, hid, Option.bind_some]
  simp only [hone, hlen, hcmp, UriPrefix]
  by_cases habs : h.uriId = uriIdAbsolute <;> by_cases hida : id = uriIdAbsolute
  · by_cases hne : uri = [] <;> simp [habs, hida, hne]
  · have hne : id ≠ h.uriId := by rw [habs]; exact hida
    rw [if_neg (by simp [hne]), if_pos ⟨habs, hida⟩]
    obtain hstr | ⟨s, hstr⟩ := Option.eq_none_or_eq_some (wktUriStr id)
    · simp [hne, hida, hstr]
    · have : (h.name.length ≤ s.length ∧ s.take h.name.length = h.name) ↔ h.name <+: s := by
        rw [List.prefix_iff_eq_take]
        constructor
        · rintro ⟨-, h2⟩
          exact h2.symm
        · intro h2
          refine ⟨?_, h2.symm⟩
          rw [h2, List.length_take]
          omega
      simp [hida, habs, hstr, ← this]
  · have hne : id ≠ h.uriId := by rw [hida]; exact fun hc => habs hc.symm
    rw [if_neg (by simp [hne]), if_neg (by simp [habs]), if_pos ⟨habs, hida⟩]
    obtain hstr | ⟨s, hstr⟩ := Option.eq_none_or_eq_some (wktUriStr h.uriId)
    · simp [hne, habs, hstr]
    · have hne' : uriIdAbsolute ≠ h.uriId := fun hc => habs hc.symm
      simp [hida, habs, hstr, hne']
  · by_cases hne : id = h.uriId
    · by_cases hnil : uri = [] <;> simp [hne, hnil, habs]
    · simp [hne, hida, habs]

theorem handlerTakes_view (hs : Stands mem p (r :: rs)) (h : Handler) :
    handlerTakes mem (viewOf p r) h = some (decide (Takes h r)) := by
  have hlen : (UInt8.ofNat r.type.length).toNat = r.type.length := r.toNat_typeLen
  rw [handlerTakes]
  by_cases htnf : h.tnf = r.tnf
  case neg => simp [viewOf, htnf, Takes]
  have hview : h.tnf = (viewOf p r).tnf := htnf
  rw [if_neg (not_not.mpr hview)]
  by_cases hnil : r.type = []
  case pos => simp [viewOf, hnil, Takes, htnf]
  have htakes : Takes h r ↔
      if has h.flags flagWktUri then r.type = [0x55] ∧ UriPrefix h r.payload else h.name = r.type := by
    simp [Takes, Matches, htnf, hnil]
  simp only [viewOf, if_neg hnil, htakes]
  by_cases huri : has h.flags flagWktUri
  · -- a handler of URIs: the type is the letter U, and the payload is the URI
    simp only [if_pos huri]
    cases hpay : r.payload with
    | nil => simp [UriPrefix]
    | cons id uri =>
      have hfield := hs.fields.2.2
      have hplt := r.payload_lt_word
      rw [hpay] at hfield hplt
      rw [if_neg (List.cons_ne_nil _ _)]
      simp only
      by_cases hone : r.type.length = 1
      · obtain ⟨c, hc⟩ := List.length_eq_one_iff.mp hone
        have hget : mem[p + r.head.length]? = some c := by
          have hf := hs.fields.1
          rw [hc] at hf
          exact (@memcmp_tail mem _ c [] [] hf (Nat.zero_le _)).1
        rw [hone] at hfield
        rw [hone, if_pos (by decide), hget, Option.bind_some, uriTakes_spec h hfield hplt, hc]
        by_cases hu : c = 0x55 <;> simp [hu]
      · have hne : UInt8.ofNat r.type.length ≠ 1 := by
          rw [ne_eq, ← UInt8.toNat_inj, hlen]
          exact hone
        have hne' : r.type ≠ [0x55] := fun hc => hone (by rw [hc]; rfl)
        simp [hne, hne']
  · simp only [if_neg huri, hlen]
    by_cases hl : h.name.length = r.type.length
    · have hne : UInt8.ofNat r.type.length ≠ 0 := by
        rw [ne_eq, ← UInt8.toNat_inj, hlen]
        simpa using hnil
      rw [if_pos hl, if_neg hne, memcmp, hl, hs.fields.1, Option.map_some]
      simp [eq_comm]
    · rw [if_neg hl]
      have : h.name ≠ r.type := fun hc => hl (by rw [hc])
      simp [this]

theorem recordLen_view (hs : Stands mem p (r :: rs)) : recordLen mem (viewOf p r) = some (codeSpan r) := by
  obtain ⟨-, -, -, -, hlt⟩ := id hs
  rw [recsLen_cons, r.length_bytes] at hlt
  rw [recordLen]
  by_cases hnil : r.payload = []
  · simp only [viewOf, if_pos hnil, hs.hdr, Option.bind_some, hs.readIdLen, Option.map_some, r.toNat_idLen,
      codeSpan]
    congr 2
    omega
  · simp only [viewOf, if_neg hnil, codeSpan, spanOf, r.length_bytes]
    congr 1
    rw [← UInt32.toNat_inj]
    simp
    omega

end Record

/-! ## The loops -/

abbrev codeTakes (h : Handler) (r : Rec) : Bool := decide (Takes h r)

abbrev placesFrom (k : Nat) : List (Fin ndefMaxHandlers) := (List.finRange ndefMaxHandlers).drop k

theorem placesFrom_lt {k : Nat} (hk : k < ndefMaxHandlers) : placesFrom k = ⟨k, hk⟩ :: placesFrom (k + 1) := by
  have hlen : k < (List.finRange ndefMaxHandlers).length := by simpa using hk
  rw [placesFrom, List.drop_eq_getElem_cons hlen]
  simp

theorem not_mem_placesFrom (i : Fin ndefMaxHandlers) : i ∉ placesFrom (i + 1) := by
  revert i
  decide

section Loops
variable {tbl : HandlerTable} {told : Told} {mem : Ndef.Bytes} {p : Nat} {r : Rec} {rs : List Rec}

/-- Whether the handler at a place takes the record. -/
abbrev takesAt (tbl : HandlerTable) (r : Rec) (i : Fin ndefMaxHandlers) : Bool := (tbl.slot i).any (codeTakes · r)

theorem takes_shadowFlags (h : Handler) (b : Bool) :
    Takes { h with flags := shadowFlags b h.flags } r ↔ Takes h r := by
  simp only [Takes, Matches, has, shadowFlags_uri, UriPrefix]

theorem callOf_shadowFlags (h : Handler) (b : Bool) (msgLen recLen : UInt32) :
    callOf { h with flags := shadowFlags b h.flags } msgLen p recLen = callOf h msgLen p recLen := by
  simp only [callOf, has, shadowFlags_whole]

theorem findLoop_shadow (hs : Stands mem p (r :: rs)) (is : List (Fin ndefMaxHandlers)) :
    findLoop (shadow tbl told) (handlerTakes mem (viewOf p r)) is = some (is.find? (takesAt tbl r)) := by
  induction is with
  | nil => rfl
  | cons i is ih =>
    rw [findLoop, shadow_slot]
    cases hi : tbl.slot i with
    | none => simp [ih, hi, takesAt]
    | some h =>
      simp only [Option.map_some, handlerTakes_view hs, takes_shadowFlags, Option.bind_some, ih]
      by_cases ht : Takes h r <;> simp [ht, hi, takesAt]

theorem findNextHandler_none (hs : Stands mem p (r :: rs)) :
    findNextHandler mem (shadow tbl told) none (viewOf p r) = some ((placesFrom 1).find? (takesAt tbl r)) :=
  findLoop_shadow hs _

theorem findNextHandler_spec (hs : Stands mem p (r :: rs)) {i : Fin ndefMaxHandlers} {h : Handler}
    (hi : tbl.slot i = some h) :
    findNextHandler mem (shadow tbl told) (some i) (viewOf p r) =
      some ((placesFrom (i + 1)).find? (takesAt tbl r)) := by
  have hstart : startIdx (shadow tbl told) (some i) = i + 1 := by
    simp only [startIdx, shadow_slot, hi, Option.map_some, Option.elim_some, tbl.handle_eq i h hi, handleOf_mask]
  rw [findNextHandler, hstart]
  exact findLoop_shadow hs _

theorem toldBy_cons (i : Fin ndefMaxHandlers) {is : List (Fin ndefMaxHandlers)} (hi : i ∉ is)
    (hw : tbl.whole i = true) :
    is.filter (fun j => !(told j || decide (j = i))) = is.filter (fun j => !told j) ∧
      toldBy tbl (fun j => told j || decide (j = i)) (is.filter fun j => !told j) =
        toldBy tbl told (i :: is.filter fun j => !told j) := by
  constructor
  · apply List.filter_congr
    intro j hj
    have : j ≠ i := fun hc => hi (hc ▸ hj)
    simp [this]
  · funext j
    by_cases hj : j = i
    · simp [toldBy, hj, hw]
    · simp [toldBy, hj]

theorem toldBy_cons_single (i : Fin ndefMaxHandlers) (is : List (Fin ndefMaxHandlers)) (hw : tbl.whole i = false) :
    toldBy tbl told is = toldBy tbl told (i :: is) := by
  funext j
  by_cases hj : j = i
  · simp [toldBy, hj, hw]
  · simp [toldBy, hj]

theorem notifyLoop_places (hs : Stands mem p (r :: rs)) (msgLen : UInt32) (m : Nat) :
    ∀ (k fuel : Nat) (told : Told), k + m = ndefMaxHandlers → m ≤ fuel →
      notifyLoop mem msgLen (viewOf p r) fuel (shadow tbl told) ((placesFrom k).find? (takesAt tbl r)) =
        some (shadow tbl (toldBy tbl told (((placesFrom k).filter (takesAt tbl r)).filter fun i => !told i)),
          callsOf tbl msgLen p (codeSpan r) (((placesFrom k).filter (takesAt tbl r)).filter fun i => !told i)) := by
  induction m with
  | zero =>
    intro k fuel told hk _
    have hnil : placesFrom k = [] := by
      apply List.drop_eq_nil_of_le
      simp
      omega
    have htold : toldBy tbl told [] = told := by
      funext j
      simp [toldBy]
    rw [hnil, List.find?_nil, notifyLoop]
    simp [callsOf, htold]
  | succ m ih =>
    intro k fuel told hk hfuel
    obtain ⟨fuel, rfl⟩ : ∃ n, fuel = n + 1 := ⟨fuel - 1, by omega⟩
    have hlt : k < ndefMaxHandlers := by omega
    set i : Fin ndefMaxHandlers := ⟨k, hlt⟩ with hidef
    have hplaces : placesFrom k = i :: placesFrom (k + 1) := placesFrom_lt hlt
    rw [hplaces]
    cases htake : takesAt tbl r i with
    | false =>
      rw [List.find?_cons_of_neg (by simp [htake]), List.filter_cons_of_neg (by simp [htake])]
      exact ih (k + 1) (fuel + 1) told (by omega) (by omega)
    | true =>
      obtain ⟨h, hi, -⟩ : ∃ h, tbl.slot i = some h ∧ codeTakes h r = true := by
        simpa [takesAt, Option.any_eq_true] using htake
      have hmem : i ∉ (placesFrom (k + 1)).filter (takesAt tbl r) :=
        fun hc => not_mem_placesFrom i (List.mem_of_mem_filter hc)
      have hnext : ∀ told', findNextHandler mem (shadow tbl told') (some i) (viewOf p r) =
          some ((placesFrom (k + 1)).find? (takesAt tbl r)) := fun told' => findNextHandler_spec hs hi
      rw [List.find?_cons_of_pos htake, List.filter_cons_of_pos htake, notifyLoop, shadow_slot, hi,
        Option.map_some, Option.bind_some]
      simp only [shadowFlags_notified]
      cases hti : told i with
      | true =>
        rw [if_pos rfl, hnext, Option.bind_some, List.filter_cons_of_neg (by simp [hti])]
        exact ih (k + 1) fuel told (by omega) (by omega)
      | false =>
        have hwhole : has (shadowFlags false h.flags) flagHandleWholeMessage ↔ tbl.whole i = true := by
          simp [HandlerTable.whole, hi, has, shadowFlags_whole]
        rw [if_neg (by simp), recordLen_view hs, Option.bind_some, List.filter_cons_of_pos (by simp [hti])]
        simp only [hwhole, callOf_shadowFlags]
        cases hw : tbl.whole i with
        | true =>
          obtain ⟨hsame, htold⟩ := @toldBy_cons tbl told i _ hmem hw
          rw [if_pos rfl, shadow_notified, hnext, Option.bind_some,
            ih (k + 1) fuel _ (by omega) (by omega), hsame, htold, Option.map_some]
          simp [callsOf, hi]
        | false =>
          have htold := @toldBy_cons_single tbl told i
            (((placesFrom (k + 1)).filter (takesAt tbl r)).filter fun j => !told j) hw
          rw [if_neg (by simp), hnext, Option.bind_some, ih (k + 1) fuel told (by omega) (by omega), htold,
            Option.map_some]
          simp [callsOf, hi]

theorem notifyLoop_default (hs : Stands mem p (r :: rs)) (msgLen : UInt32) (fuel : Nat)
    (hnone : (placesFrom 1).find? (takesAt tbl r) = none) :
    notifyLoop mem msgLen (viewOf p r) (fuel + 1) (shadow tbl told) (((shadow tbl told).slot 0).map fun _ => 0) =
      some (shadow tbl (toldBy tbl told (([0] : List (Fin ndefMaxHandlers)).filter fun i => !told i)),
        callsOf tbl msgLen p (codeSpan r) (([0] : List (Fin ndefMaxHandlers)).filter fun i => !told i)) := by
  have hnil : toldBy tbl told [] = told := by
    funext j
    simp [toldBy]
  rw [shadow_slot]
  cases hi : tbl.slot 0 with
  | none =>
    have hw : tbl.whole 0 = false := by simp [HandlerTable.whole, hi]
    have hsingle := @toldBy_cons_single tbl told 0 [] hw
    rw [hnil] at hsingle
    cases hti : told 0 <;> simp [notifyLoop, hti, callsOf, hi, hnil, ← hsingle]
  | some h =>
    have hnext : ∀ told', findNextHandler mem (shadow tbl told') (some 0) (viewOf p r) = some none := by
      intro told'
      rw [findNextHandler_spec hs hi]
      exact congrArg some hnone
    have hwhole : has (shadowFlags (told 0) h.flags) flagHandleWholeMessage ↔ tbl.whole 0 = true := by
      simp [HandlerTable.whole, hi, has, shadowFlags_whole]
    simp only [Option.map_some, notifyLoop, shadow_slot, hi, Option.bind_some, shadowFlags_notified]
    cases hti : told 0 with
    | true => simp [hnext, notifyLoop, hti, callsOf, hnil]
    | false =>
      rw [hti] at hwhole
      rw [if_neg (by simp), recordLen_view hs, Option.bind_some]
      simp only [hwhole, callOf_shadowFlags, viewOf_pRec]
      cases hw : tbl.whole 0 with
      | true =>
        have htold := (@toldBy_cons tbl told 0 [] (by simp) hw).2
        rw [List.filter_nil] at htold
        rw [if_pos rfl, shadow_notified, hnext, Option.bind_some, notifyLoop]
        have hstay : toldBy tbl (fun j => told j || decide (j = 0)) [] = fun j => told j || decide (j = 0) := by
          funext j
          simp [toldBy]
        rw [hstay] at htold
        simp [hti, callsOf, hi, htold]
      | false =>
        have hsingle := @toldBy_cons_single tbl told 0 [] hw
        rw [hnil] at hsingle
        rw [if_neg (by simp), hnext, Option.bind_some, notifyLoop]
        simp [hti, callsOf, hi, ← hsingle]

theorem notifyLoop_spec (hs : Stands mem p (r :: rs)) (msgLen : UInt32) :
    notifyLoop mem msgLen (viewOf p r) (ndefMaxHandlers + 1) (shadow tbl told)
        (((placesFrom 1).find? (takesAt tbl r)).or (((shadow tbl told).slot 0).map fun _ => 0)) =
      some (shadow tbl (toldBy tbl told (due codeTakes tbl told r)),
        callsOf tbl msgLen p (codeSpan r) (due codeTakes tbl told r)) := by
  have hasking : (placesFrom 1).filter (takesAt tbl r) = [] ↔ (placesFrom 1).find? (takesAt tbl r) = none := by
    rw [List.filter_eq_nil_iff, List.find?_eq_none]
  cases hfind : (placesFrom 1).find? (takesAt tbl r) with
  | none =>
    have hdue : due codeTakes tbl told r = ([0] : List (Fin ndefMaxHandlers)).filter fun i => !told i := by
      rw [due, offered]
      exact congrArg (List.filter fun i => !told i) (if_pos (hasking.mpr hfind))
    rw [Option.none_or, hdue]
    exact notifyLoop_default hs msgLen ndefMaxHandlers hfind
  | some i =>
    have hne : (placesFrom 1).filter (takesAt tbl r) ≠ [] := by
      intro hc
      rw [hasking.mp hc] at hfind
      cases hfind
    have hdue : due codeTakes tbl told r =
        ((placesFrom 1).filter (takesAt tbl r)).filter fun i => !told i := by
      rw [due, offered]
      exact congrArg (List.filter fun i => !told i) (if_neg hne)
    rw [Option.some_or, hdue, ← hfind]
    exact notifyLoop_places hs msgLen 7 1 _ told rfl (by decide)

theorem messageLoop_spec (msgLen : UInt32) (rs : List Rec) :
    ∀ (fuel p : Nat) (told : Told), Stands mem p rs → EndsOnce rs → rs.length ≤ fuel →
      ∃ told', messageLoop mem msgLen fuel (shadow tbl told) p =
        some (shadow tbl told', dispatch codeTakes codeSpan tbl msgLen told p rs) := by
  induction rs with
  | nil => intro _ _ _ _ he; exact he.elim
  | cons r rs ih =>
    intro fuel p told hs he hf
    obtain ⟨fuel, rfl⟩ : ∃ k, fuel = k + 1 := ⟨fuel - 1, by simp at hf; omega⟩
    rw [messageLoop, recGetType_view hs, Option.bind_some]
    simp only
    rw [recGetPayload_view hs, Option.bind_some]
    simp only
    have hview : (⟨p, r.tnf, (viewOf p r).pType, UInt8.ofNat r.type.length, (viewOf p r).pPayload,
        UInt32.ofNat r.payload.length⟩ : RecView) = viewOf p r := rfl
    rw [hview, findNextHandler_none hs, Option.bind_some, notifyLoop_spec hs, Option.bind_some,
      ndefMsgGetNextRec_spec hs he, Option.bind_some]
    rcases he.cases with ⟨rfl, -⟩ | ⟨hne, -, he⟩
    · exact ⟨_, by rw [if_pos rfl]; rfl⟩
    · obtain ⟨told', htold'⟩ := ih fuel _ (toldBy tbl told (due codeTakes tbl told r)) hs.tail he (by simpa using hf)
      refine ⟨told', ?_⟩
      rw [if_neg hne]
      simp only [htold', Option.map_some, dispatch]

end Loops

/-! ## Once only -/

theorem handleOf_injective : Function.Injective handleOf := by
  intro i j h
  apply Fin.ext
  rw [← handleOf_mask i, ← handleOf_mask j, h]

section Once
variable {takes : Handler → Rec → Bool} {span : Rec → UInt32} {tbl : HandlerTable} {msgLen : UInt32}

@[simp] theorem callOf_handle (h : Handler) (p : Nat) (recLen : UInt32) :
    (callOf h msgLen p recLen).ndefTypeHandle = h.ndefTypeHandle := by
  unfold callOf
  split <;> rfl

abbrev isTo (i : Fin ndefMaxHandlers) (c : Call) : Bool := decide (c.ndefTypeHandle = handleOf i)

theorem count_callsOf (i : Fin ndefMaxHandlers) (p : Nat) (recLen : UInt32) (is : List (Fin ndefMaxHandlers)) :
    (callsOf tbl msgLen p recLen is).countP (isTo i) ≤ is.count i := by
  induction is with
  | nil => simp [callsOf]
  | cons j js ih =>
    rw [callsOf, List.filterMap_cons]
    cases hj : tbl.slot j with
    | none => exact Nat.le_trans ih (by rw [List.count_cons]; omega)
    | some h =>
      have hto : isTo i (callOf h msgLen p recLen) = true ↔ j = i := by
        simp only [isTo, callOf_handle, tbl.handle_eq j h hj, decide_eq_true_eq]
        exact handleOf_injective.eq_iff
      simp only [Option.map_some, List.countP_cons, hto, List.count_cons, beq_iff_eq]
      exact Nat.add_le_add_right ih _

theorem nodup_due (told : Told) (r : Rec) : (due takes tbl told r).Nodup := by
  apply List.Nodup.filter
  unfold offered
  dsimp only
  split
  · exact List.nodup_singleton 0
  · exact ((List.nodup_finRange _).sublist (List.drop_sublist 1 _)).filter _

theorem not_told_of_due {told : Told} {r : Rec} {i : Fin ndefMaxHandlers} (h : i ∈ due takes tbl told r) :
    told i = false := by
  simpa using (List.mem_filter.mp h).2

/-- A handler of whole messages is called at most once, and not at all if it was told. -/
theorem dispatch_once (i : Fin ndefMaxHandlers) (hw : tbl.whole i = true) (rs : List Rec) :
    ∀ (told : Told) (p : Nat),
      (dispatch takes span tbl msgLen told p rs).flatten.countP (isTo i) ≤ if told i then 0 else 1 := by
  induction rs with
  | nil => simp [dispatch]
  | cons r rs ih =>
    intro told p
    have hhead := @count_callsOf tbl msgLen i p (span r) (due takes tbl told r)
    have htail := ih (toldBy tbl told (due takes tbl told r)) (p + r.bytes.length)
    rw [dispatch, List.flatten_cons, List.countP_append]
    by_cases hdue : i ∈ due takes tbl told r
    · have hone : (due takes tbl told r).count i = if i ∈ due takes tbl told r then 1 else 0 :=
        (nodup_due told r).count
      have hnot := not_told_of_due hdue
      have htold : toldBy tbl told (due takes tbl told r) i = true := by simp [toldBy, hdue, hw]
      rw [htold, if_pos rfl] at htail
      rw [if_pos hdue] at hone
      simp only [hnot, Bool.false_eq_true, if_false]
      omega
    · have hzero := List.count_eq_zero.mpr hdue
      have hsame : toldBy tbl told (due takes tbl told r) i = told i := by simp [toldBy, hdue]
      rw [hsame] at htail
      omega

end Once

end NfcStack.Nfa.NdefDm
