import NfcStack.Lib.Run
import NfcStack.Ndef.Memory
import NfcStack.Ndef.Message

/- Building and editing NDEF messages (`ndef_utils.cc`: `NDEF_MsgInit`,
   `NDEF_MsgAddRec`, `NDEF_MsgAppendPayload`, `NDEF_MsgReplacePayload`,
   `NDEF_MsgReplaceType`, `NDEF_MsgReplaceId`, `NDEF_MsgRemoveRec`), and what the edits of
   one record do to the bytes of the message.

   What is proved:
     1. `Place` says where the record stands; `growsSlot`, `shrinksSlot` are the moves that
        the edits of the type and the id are made of.
     2. `replaceType_edits`, `replaceId_edits`: the record with the new field stands in the
        same place, between the same neighbours, or the call fails and nothing has changed. -/
namespace NfcStack.Ndef
open NfcStack.Lib

/-! ## The code -/

def u32 (n : Int) : Nat := (n % 4294967296).toNat

structure Msg where
  mem : Bytes
  curSize : Nat
  deriving DecidableEq, Repr

def ndefMsgInit (mem : Bytes) (maxSize : Nat) : Option Msg :=
  (memcpy mem 0 (List.replicate maxSize 0)).map fun mem => ⟨mem, 0⟩

/-- The header byte of a new record; the record before it is no longer the last. -/
def startRec (m : Msg) (tnf : UInt8) : Option Bytes :=
  if m.curSize = 0 then store m.mem m.curSize (tnf ||| ndefMbMask ||| ndefMeMask)
  else (ndefMsgGetLastRecInMsg m.mem).bind fun pLast =>
    (modify m.mem pLast (· &&& ~~~ndefMeMask)).bind fun mem => store mem m.curSize (tnf ||| ndefMeMask)

def ndefMsgAddRec (m : Msg) (maxSize : Nat) (tnf : UInt8) (type id payload : Src) :
    Option (NdefStatus × Msg) :=
  let plen : Nat := if payload.len < 256 then 1 else 4
  let ilen : Nat := if id.len = 0 then 0 else 1
  let type' := if tnf > ndefTnfReserved then .bytes [] else type
  let tnf := if tnf > ndefTnfReserved then ndefTnfUnknown else tnf
  let recSize := u32 (payload.len + 2 + type'.len + plen + ilen + id.len)
  if u32 (m.curSize + recSize) > maxSize then some (.msgInsufficientMem, m)
  else
    let p := m.curSize
    (startRec m tnf).bind fun mem =>
    (if plen = 1 then modify mem p (· ||| ndefSrMask) else some mem).bind fun mem =>
    (if ilen ≠ 0 then modify mem p (· ||| ndefIlMask) else some mem).bind fun mem =>
    (store mem (p + 1) (UInt8.ofNat type'.len)).bind fun mem =>
    (if plen = 1 then store mem (p + 2) (UInt8.ofNat payload.len)
      else memcpy mem (p + 2) (uint32ToBeStream (UInt32.ofNat payload.len))).bind fun mem =>
    let p := p + 2 + plen
    (if ilen > 0 then store mem p (UInt8.ofNat id.len) else some mem).bind fun mem =>
    let p := p + ilen
    (if type'.len ≠ 0 then copySrc mem p type' else some mem).bind fun mem =>
    let p := p + type'.len
    (if id.len ≠ 0 then copySrc mem p id else some mem).bind fun mem =>
    let p := p + id.len
    (copySrc mem p payload).map fun mem => (.ok, ⟨mem, u32 (m.curSize + recSize)⟩)

def storeLen (mem : Bytes) (p : Nat) (len : Nat) : Option Bytes :=
  if len > 255 then memcpy mem p (uint32ToBeStream (UInt32.ofNat len))
  else store mem p (UInt8.ofNat len)

/-- `if ((*p_rec & NDEF_ME_MASK) == 0)` then shift. -/
def unlessLast (mem : Bytes) (pRec : Nat) (shift : Bytes → Option Bytes) : Option Bytes :=
  mem[pRec]?.bind fun hdr => if has hdr ndefMeMask then some mem else shift mem

def ndefMsgAppendPayload (m : Msg) (maxSize pRec : Nat) (addPl : Bytes) :
    Option (NdefStatus × Msg) :=
  (readRecHdr m.mem pRec).bind fun h =>
  let prevPaylen := h.payloadLen.toNat
  let pPrevPl := h.body + h.typeLen.toNat + h.idLen.toNat
  let newPaylen := u32 (prevPaylen + addPl.length)
  let incrLenfld : Nat := if prevPaylen < 256 ∧ newPaylen > 255 then 3 else 0
  if u32 (m.curSize + addPl.length + incrLenfld) > maxSize then some (.msgInsufficientMem, m)
  else
    let pp := pRec + 2
    (if incrLenfld ≠ 0 then shiftdown m.mem (pp + 1) (u32 (m.curSize - pp - 1)) 3
      else some m.mem).bind fun mem =>
    let pPrevPl := if incrLenfld ≠ 0 then pPrevPl + 3 else pPrevPl
    (if newPaylen > 255 then modify mem pRec (· &&& ~~~ndefSrMask) else some mem).bind fun mem =>
    (storeLen mem pp newPaylen).bind fun mem =>
    let pp := pPrevPl + prevPaylen
    (unlessLast mem pRec fun mem =>
      shiftdown mem pp (u32 (m.curSize - pp)) addPl.length).bind fun mem =>
    (memcpy mem pp addPl).map fun mem =>
      (.ok, ⟨mem, u32 (m.curSize + addPl.length + incrLenfld)⟩)

/-- The part of `NDEF_MsgReplacePayload` for a longer payload. -/
def growPayload (m : Msg) (maxSize pRec prevPaylen pPrevPl newPlLen : Nat) :
    Option (NdefStatus × Msg × Nat) :=
  let pp := pRec + 2
  let paylenDelta := newPlLen - prevPaylen
  let wider := prevPaylen < 256 ∧ newPlLen > 255
  if u32 (m.curSize + paylenDelta + (if wider then 3 else 0)) > maxSize then
    some (.msgInsufficientMem, m, pPrevPl)
  else
    (if wider then
      (shiftdown m.mem (pp + 1) (u32 (m.curSize - pp - 1)) 3).bind fun mem =>
        (modify mem pRec (· &&& ~~~ndefSrMask)).map fun mem =>
          (⟨mem, u32 (m.curSize + 3)⟩, pPrevPl + 3)
      else some (m, pPrevPl)).bind fun r =>
    let m := r.1
    let pPrevPl := r.2
    (storeLen m.mem pp newPlLen).bind fun mem =>
    let pp := pPrevPl + prevPaylen
    (unlessLast mem pRec fun mem =>
      shiftdown mem pp (u32 (m.curSize - pp)) paylenDelta).map fun mem =>
      (.ok, ⟨mem, u32 (m.curSize + paylenDelta)⟩, pPrevPl)

/-- The part of `NDEF_MsgReplacePayload` for a shorter payload. -/
def shrinkPayload (m : Msg) (pRec prevPaylen pPrevPl newPlLen : Nat) :
    Option (NdefStatus × Msg × Nat) :=
  let pp := pRec + 2
  let paylenDelta := prevPaylen - newPlLen
  (if prevPaylen > 255 ∧ newPlLen < 256 then
    (shiftup m.mem (pp + 1) (pp + 4) (u32 (m.curSize - pp - 3))).bind fun mem =>
      (modify mem pRec (· ||| ndefSrMask)).map fun mem =>
        (⟨mem, u32 (m.curSize - 3)⟩, pPrevPl - 3)
    else some (m, pPrevPl)).bind fun r =>
  let m := r.1
  let pPrevPl := r.2
  (storeLen m.mem pp newPlLen).bind fun mem =>
  let pp := pPrevPl + prevPaylen
  (unlessLast mem pRec fun mem =>
    shiftup mem (pp - paylenDelta) pp (u32 (m.curSize - pp))).map fun mem =>
    (.ok, ⟨mem, u32 (m.curSize - paylenDelta)⟩, pPrevPl)

def ndefMsgReplacePayload (m : Msg) (maxSize pRec : Nat) (newPl : Src) :
    Option (NdefStatus × Msg) :=
  (readRecHdr m.mem pRec).bind fun h =>
  let prevPaylen := h.payloadLen.toNat
  let pPrevPl := h.body + h.typeLen.toNat + h.idLen.toNat
  (if newPl.len > prevPaylen then growPayload m maxSize pRec prevPaylen pPrevPl newPl.len
    else if newPl.len < prevPaylen then shrinkPayload m pRec prevPaylen pPrevPl newPl.len
    else some (.ok, m, pPrevPl)).bind fun r =>
  if r.1 = .ok then (copySrc r.2.1.mem r.2.2 newPl).map fun mem => (.ok, ⟨mem, r.2.1.curSize⟩)
  else some (r.1, r.2.1)

def ndefMsgReplaceType (m : Msg) (maxSize pRec : Nat) (newType : Src) :
    Option (NdefStatus × Msg) :=
  m.mem[pRec]?.bind fun hdr => m.mem[pRec + 1]?.bind fun prevTypeLen =>
  let prevTypeLen := prevTypeLen.toNat
  let pPrevType := pRec + 2 + (if has hdr ndefSrMask then 1 else 4) +
    (if has hdr ndefIlMask then 1 else 0)
  let pp := pPrevType + prevTypeLen
  if newType.len > prevTypeLen ∧ u32 (m.curSize + (newType.len - prevTypeLen : Nat)) > maxSize then
    some (.msgInsufficientMem, m)
  else
    (if newType.len > prevTypeLen then
      (shiftdown m.mem pp (u32 (m.curSize - pp)) (newType.len - prevTypeLen)).map fun mem =>
        ⟨mem, u32 (m.curSize + (newType.len - prevTypeLen : Nat))⟩
      else if newType.len < prevTypeLen then
        (shiftup m.mem (pp - (prevTypeLen - newType.len)) pp (u32 (m.curSize - pp))).map fun mem =>
          ⟨mem, u32 (m.curSize - (prevTypeLen - newType.len : Nat))⟩
      else some m).bind fun (m : Msg) =>
    (store m.mem (pRec + 1) (UInt8.ofNat newType.len)).bind fun mem =>
    (copySrc mem pPrevType newType).map fun mem => (.ok, ⟨mem, m.curSize⟩)

/-- The part of `NDEF_MsgReplaceId` for a longer id. -/
def growId (m : Msg) (maxSize pRec prevIdLen pIdlenField pPrevId newIdLen : Nat) :
    Option (NdefStatus × Msg × Nat) :=
  let idlenDelta := newIdLen - prevIdLen
  if u32 (m.curSize + idlenDelta + (if prevIdLen = 0 then 1 else 0)) > maxSize then
    some (.msgInsufficientMem, m, pPrevId)
  else
    (if prevIdLen = 0 then
      (shiftdown m.mem pIdlenField (u32 (m.curSize - pIdlenField)) 1).bind fun mem =>
        (modify mem pRec (· ||| ndefIlMask)).map fun mem =>
          (⟨mem, u32 (m.curSize + 1)⟩, pPrevId + 1)
      else some (m, pPrevId)).bind fun r =>
    let m := r.1
    let pPrevId := r.2
    let pp := pPrevId + prevIdLen
    (shiftdown m.mem pp (u32 (m.curSize - pp)) idlenDelta).map fun mem =>
      (.ok, ⟨mem, u32 (m.curSize + idlenDelta)⟩, pPrevId)

/-- The part of `NDEF_MsgReplaceId` for a shorter id. -/
def shrinkId (m : Msg) (pRec prevIdLen pIdlenField pPrevId newIdLen : Nat) :
    Option (NdefStatus × Msg × Nat) :=
  let idlenDelta := prevIdLen - newIdLen
  let pp := pPrevId + prevIdLen
  (shiftup m.mem (pp - idlenDelta) pp (u32 (m.curSize - pp))).bind fun mem =>
  let curSize := u32 (m.curSize - idlenDelta)
  if newIdLen = 0 then
    (shiftup mem pIdlenField (pIdlenField + 1) (u32 (curSize - (pIdlenField - 1)))).bind fun mem =>
      (modify mem pRec (· &&& ~~~ndefIlMask)).map fun mem =>
        (.ok, ⟨mem, u32 (curSize - 1)⟩, pPrevId)
  else some (.ok, ⟨mem, curSize⟩, pPrevId)

def ndefMsgReplaceId (m : Msg) (maxSize pRec : Nat) (newId : Src) : Option (NdefStatus × Msg) :=
  m.mem[pRec]?.bind fun hdr => m.mem[pRec + 1]?.bind fun typeLen =>
  let pIdlenField := pRec + 2 + (if has hdr ndefSrMask then 1 else 4)
  (readIdLen m.mem hdr pIdlenField).bind fun r =>
  let prevIdLen := r.1.toNat
  let pPrevId := r.2 + typeLen.toNat
  (if newId.len > prevIdLen then growId m maxSize pRec prevIdLen pIdlenField pPrevId newId.len
    else if newId.len < prevIdLen then shrinkId m pRec prevIdLen pIdlenField pPrevId newId.len
    else some (.ok, m, pPrevId)).bind fun r =>
  if r.1 = .ok ∧ newId.len ≠ 0 then
    (store r.2.1.mem pIdlenField (UInt8.ofNat newId.len)).bind fun mem =>
      (copySrc mem r.2.2 newId).map fun mem => (.ok, ⟨mem, r.2.1.curSize⟩)
  else some (r.1, r.2.1)

def ndefMsgRemoveRec (m : Msg) (index : Int) : Option (NdefStatus × Msg) :=
  (ndefMsgGetRecByIndex m.mem index).bind fun
  | none => some (.recNotFound, m)
  | some pRec => m.mem[pRec]?.bind fun hdr =>
    if has hdr ndefMbMask then
      (ndefMsgGetRecByIndex m.mem 1).bind fun
      | some pNext =>
        (modify m.mem pNext (· ||| ndefMbMask)).bind fun mem =>
          (shiftup mem 0 pNext (u32 (m.curSize - pNext))).map fun mem =>
            (.ok, ⟨mem, u32 (m.curSize - pNext)⟩)
      | none => some (.ok, ⟨m.mem, 0⟩)
    else if has hdr ndefMeMask then
      (if index > 0 then
        (ndefMsgGetRecByIndex m.mem (index - 1)).bind fun
        | some pPrev => (modify m.mem pPrev (· ||| ndefMeMask)).map some
        | none => some none
        else some (some m.mem)).map fun
      | some mem => (.ok, ⟨mem, u32 pRec⟩)
      | none => (.ok, m)
    else
      (ndefMsgGetNextRec m.mem pRec).bind fun
      | none => some (.ok, m)
      | some pNext =>
        (shiftup m.mem pRec pNext (u32 (m.curSize - pNext))).map fun mem =>
          (.ok, ⟨mem, u32 (m.curSize - (pNext - pRec : Int))⟩)

/-! ## One record of a message -/

theorem u32_eq {n : Int} {k : Nat} (h : n = k) (hk : k < 4294967296) : u32 n = k := by
  rw [u32, h]
  omega

/-- The record `r` stands at `p`, between `pre` and `post`; `junk` is the unused rest of
the buffer. -/
structure Place (m : Msg) (p : Nat) (r : NdefRec) (mb me : Bool) (pre post junk : Bytes) :
    Prop where
  mem : m.mem = pre ++ (r.frame mb me).bytes ++ post ++ junk
  start : p = pre.length
  size : m.curSize = pre.length + r.size + post.length
  last : me = true → post = []
  lt : m.curSize < 4294967296

section Place
variable {m : Msg} {p : Nat} {r : NdefRec} {mb me : Bool} {pre post junk : Bytes}

theorem Place.cut (h : Place m p r mb me pre post junk) :
    m.mem = pre ++ r.hdr mb me :: UInt8.ofNat r.type.length :: (lenBytes r.payload.length ++
      idBytes r.id ++ r.type ++ r.id ++ r.payload ++ post ++ junk) := by
  rw [h.mem, r.bytes_frame]
  simp

theorem Place.stands (h : Place m p r mb me pre post junk) : Stands m.mem p [r.frame mb me] := by
  refine ⟨pre, post ++ junk, ?_, h.start.symm, ?_⟩
  · rw [h.mem]
    simp [recsBytes]
  · have := h.lt
    have := h.size
    rw [recsLen_cons, r.length_frame]
    simp only [recsLen, recsBytes, List.flatMap_nil, List.length_nil]
    omega

theorem Place.readRecHdr (h : Place m p r mb me pre post junk) :
    Ndef.readRecHdr m.mem p =
      some ⟨r.hdr mb me, UInt8.ofNat r.type.length, UInt32.ofNat r.payload.length,
        UInt8.ofNat r.id.length, p + (r.frame mb me).head.length⟩ :=
  h.stands.readRecHdr

end Place

/-! ## Growing and shrinking

In all of these the record starts behind `pre` with the bytes `hdr` and `tl`. -/

section Blocks
variable {pre post junk x : Bytes} {p pp : Nat} {hdr tl : UInt8} {me : Bool}

theorem storeLen_block {f tail : Bytes} (n : Nat) (hp : p = pre.length)
    (hf : f.length = if n < 256 then 1 else 4) :
    storeLen (pre ++ hdr :: tl :: (f ++ tail)) (p + 2) n =
      some (pre ++ hdr :: tl :: (lenBytes n ++ tail)) := by
  have hp' : p + 2 = (pre ++ [hdr, tl]).length := by simp [hp]
  have hassoc : ∀ g : Bytes, pre ++ hdr :: tl :: (g ++ tail) = pre ++ [hdr, tl] ++ g ++ tail := by
    simp
  rw [hassoc, hassoc]
  unfold storeLen lenBytes
  by_cases hn : n < 256
  · rw [if_pos hn] at hf
    obtain ⟨b, rfl⟩ := List.length_eq_one_iff.mp hf
    rw [if_neg (by omega), if_pos hn, List.append_assoc _ [b], List.append_assoc _ [_]]
    exact store_block hp'
  · rw [if_neg hn] at hf
    rw [if_pos (by omega), if_neg hn]
    exact memcpy_block hp' (by rw [hf]; rfl)

theorem get_hdr {tail : Bytes} (hp : p = pre.length) :
    (pre ++ hdr :: tail)[p]? = some hdr := by
  subst hp
  simp

theorem growsSlot (junk : Bytes) {front old tail : Bytes} {n len : Nat} (hn : old.length < n)
    (hpp : pp = front.length + old.length) (hl : len = tail.length)
    (hroom : n - old.length ≤ junk.length) :
    ∃ slot junk', shiftdown (front ++ old ++ tail ++ junk) pp len (n - old.length) =
        some (front ++ slot ++ tail ++ junk') ∧ slot.length = n ∧
      junk'.length + n = junk.length + old.length := by
  have hpp' : pp = (front ++ old).length := by simp [hpp]
  obtain ⟨gap, junk', hs, hgap, hjunk⟩ := opensGap hpp' hl hroom
  refine ⟨old ++ gap, junk', ?_, ?_, ?_⟩
  · rw [hs]
    simp
  · simp [hgap]
    omega
  · omega

theorem shrinksSlot (junk : Bytes) {front old tail : Bytes} {n len : Nat} (hn : n < old.length)
    (hpp : pp = front.length + old.length) (hl : len = tail.length) :
    ∃ slot junk', shiftup (front ++ old ++ tail ++ junk) (pp - (old.length - n)) pp len =
        some (front ++ slot ++ tail ++ junk') ∧ slot.length = n ∧
      junk'.length + n = junk.length + old.length := by
  have hassoc : front ++ old ++ tail ++ junk = (front ++ old.take n) ++ old.drop n ++ tail ++ junk := by
    simp
  have hd : pp - (old.length - n) = (front ++ old.take n).length := by simp [hpp]; omega
  have hs : pp = (front ++ old.take n).length + (old.drop n).length := by simp [hpp]; omega
  obtain ⟨junk', hs, hjunk⟩ := closesGap (c := junk) hd hs hl
  refine ⟨old.take n, junk', ?_, ?_, ?_⟩
  · rw [hassoc, hs]
  · simp
    omega
  · simp only [List.length_drop] at hjunk
    omega

end Blocks

/-- What an edit of the record at `p` comes to: an error that changes nothing if the new
message does not fit, and else a new record in the same place. -/
def EditsTo (m : Msg) (maxSize newSize : Nat) (p : Nat) (mb me : Bool) (pre post : Bytes)
    (Good : NdefRec → Prop) (res : Option (NdefStatus × Msg)) : Prop :=
  (maxSize < newSize → res = some (.msgInsufficientMem, m)) ∧
    (newSize ≤ maxSize → ∃ m' r' junk', res = some (.ok, m') ∧ Place m' p r' mb me pre post junk' ∧
      m'.mem.length = m.mem.length ∧ m'.curSize = newSize ∧ Good r')

section Edits
variable {m : Msg} {maxSize p : Nat} {r : NdefRec} {mb me : Bool} {pre post junk : Bytes}

theorem Place.length_mem (h : Place m p r mb me pre post junk) :
    m.mem.length = m.curSize + junk.length := by
  rw [h.mem, h.size]
  simp [r.length_frame]
  omega

/-- The bytes between the payload length and the payload. -/
def NdefRec.mid (r : NdefRec) : Bytes := idBytes r.id ++ r.type ++ r.id

/-- Where the payload starts, counted from the record. -/
def NdefRec.payloadAt (r : NdefRec) (n : Nat) : Nat := 2 + (if n < 256 then 1 else 4) + r.mid.length

theorem Place.of_cut (hmem : m.mem = pre ++ r.hdr mb me :: UInt8.ofNat r.type.length ::
      (lenBytes r.payload.length ++ (r.mid ++ r.payload ++ post) ++ junk)) (hp : p = pre.length)
    (hcur : m.curSize = pre.length + r.size + post.length) (hlast : me = true → post = [])
    (hlt : m.curSize < 4294967296) : Place m p r mb me pre post junk := by
  refine ⟨?_, hp, hcur, hlast, hlt⟩
  rw [hmem, r.bytes_frame]
  simp [NdefRec.mid]

theorem NdefRec.toNat_payloadLen (r : NdefRec) :
    (UInt32.ofNat r.payload.length).toNat = r.payload.length := by
  have := r.payload_lt
  simp
  omega

theorem NdefRec.toNat_typeLen (r : NdefRec) :
    (UInt8.ofNat r.type.length).toNat = r.type.length := (r.frame false false).toNat_typeLen

theorem NdefRec.toNat_idLen (r : NdefRec) :
    (UInt8.ofNat r.id.length).toNat = r.id.length := (r.frame false false).toNat_idLen

/-! ## The type -/

theorem Place.get (h : Place m p r mb me pre post junk) :
    m.mem[p]? = some (r.hdr mb me) ∧ m.mem[p + 1]? = some (UInt8.ofNat r.type.length) :=
  ⟨h.stands.hdr, h.stands.typeLen⟩

theorem NdefRec.typeAt (r : NdefRec) (p : Nat) :
    p + 2 + (if has (r.hdr mb me) ndefSrMask then 1 else 4) +
        (if has (r.hdr mb me) ndefIlMask then 1 else 0) =
      p + 2 + (lenBytes r.payload.length ++ idBytes r.id).length := by
  by_cases hp : r.payload.length < 256 <;> by_cases hi : r.id = [] <;>
    simp [NdefRec.hdr, hp, hi]

theorem replaceType_edits (h : Place m p r mb me pre post junk) (hmax : maxSize ≤ m.mem.length)
    (hcur : m.curSize ≤ maxSize) (src : Src) (ht : src.len < 256)
    (hin : m.curSize - r.type.length + src.len < 4294967296) :
    EditsTo m maxSize (m.curSize - r.type.length + src.len) p mb me pre post
      (fun r' => r'.tnf = r.tnf ∧ src.Gives r'.type ∧ r'.id = r.id ∧ r'.payload = r.payload)
      (ndefMsgReplaceType m maxSize p src) := by
  have hsize := h.size
  have hstart := h.start
  have hlen := h.length_mem
  have hlt := h.lt
  set w := lenBytes r.payload.length ++ idBytes r.id with hw
  set t := r.type.length with htl
  have hrsize : r.size = 2 + w.length + t + (r.id.length + r.payload.length) := by
    simp only [hw, NdefRec.size, List.length_append, length_lenBytes, length_idBytes]
    omega
  have hmem : m.mem = (pre ++ [r.hdr mb me, UInt8.ofNat t] ++ w) ++ r.type ++
      (r.id ++ r.payload ++ post) ++ junk := by
    rw [h.cut]
    simp [hw, htl]
  have hfront : p + 2 + w.length = (pre ++ [r.hdr mb me, UInt8.ofNat t] ++ w).length := by
    simp [hstart]
    omega
  have htail : (r.id ++ r.payload ++ post).length = r.id.length + r.payload.length + post.length := by
    simp
    omega
  have hpp : u32 ((m.curSize : Int) - (p + 2 + w.length + t : Nat)) =
      (r.id ++ r.payload ++ post).length := u32_eq (by omega) (by omega)
  rw [ndefMsgReplaceType, h.get.1, Option.bind_some, h.get.2, Option.bind_some]
  dsimp only
  rw [r.toNat_typeLen, r.typeAt, ← hw, ← htl, hpp]
  set front := pre ++ [r.hdr mb me, UInt8.ofNat t] ++ w with hfr
  set tail := r.id ++ r.payload ++ post with htl'
  have hend : p + 2 + w.length + t = front.length + r.type.length := by omega
  -- a slot for the new type
  obtain ⟨hbig, hslot⟩ : (maxSize < m.curSize - t + src.len →
        src.len > t ∧ u32 ((m.curSize : Int) + (src.len - t : Nat)) > maxSize) ∧
      (m.curSize - t + src.len ≤ maxSize →
        ¬ (src.len > t ∧ u32 ((m.curSize : Int) + (src.len - t : Nat)) > maxSize) ∧
        ∃ slot junk', (if src.len > t then
            (shiftdown m.mem (p + 2 + w.length + t) tail.length (src.len - t)).map
              fun mem => (⟨mem, u32 (m.curSize + (src.len - t : Nat))⟩ : Msg)
          else if src.len < t then
            (shiftup m.mem (p + 2 + w.length + t - (t - src.len)) (p + 2 + w.length + t)
              tail.length).map fun mem => ⟨mem, u32 (m.curSize - (t - src.len : Nat))⟩
          else some m) =
            some ⟨front ++ slot ++ tail ++ junk', m.curSize - t + src.len⟩ ∧
          slot.length = src.len ∧ junk'.length + src.len = junk.length + t) := by
    by_cases hgrow : src.len > t
    · have hsum : u32 ((m.curSize : Int) + (src.len - t : Nat)) = m.curSize - t + src.len :=
        u32_eq (by omega) hin
      rw [if_pos hgrow, hsum]
      refine ⟨fun hb => ⟨hgrow, hb⟩, fun hfit => ⟨fun hb => by omega, ?_⟩⟩
      obtain ⟨slot, junk', hs, hsl, hj⟩ : ∃ slot junk',
          shiftdown (front ++ r.type ++ tail ++ junk) (p + 2 + w.length + t) tail.length
              (src.len - t) = some (front ++ slot ++ tail ++ junk') ∧
            slot.length = src.len ∧ junk'.length + src.len = junk.length + t :=
        growsSlot junk hgrow hend rfl (by omega)
      exact ⟨slot, junk', by rw [hmem, hs]; rfl, hsl, hj⟩
    · refine ⟨fun hb => by omega, fun hfit => ⟨fun hb => hgrow hb.1, ?_⟩⟩
      rw [if_neg hgrow]
      by_cases hshrink : src.len < t
      · have hdiff : u32 ((m.curSize : Int) - (t - src.len : Nat)) = m.curSize - t + src.len :=
          u32_eq (by omega) hin
        obtain ⟨slot, junk', hs, hsl, hj⟩ : ∃ slot junk',
            shiftup (front ++ r.type ++ tail ++ junk) (p + 2 + w.length + t - (t - src.len))
                (p + 2 + w.length + t) tail.length = some (front ++ slot ++ tail ++ junk') ∧
              slot.length = src.len ∧ junk'.length + src.len = junk.length + t :=
          shrinksSlot junk hshrink hend rfl
        exact ⟨slot, junk', by rw [if_pos hshrink, hmem, hs, hdiff]; rfl, hsl, hj⟩
      · refine ⟨r.type, junk, ?_, by omega, by omega⟩
        rw [if_neg hshrink]
        congr 1
        have hsame : m.curSize - t + src.len = m.curSize := by omega
        rw [hsame, ← hmem]
  refine ⟨fun hb => by rw [if_pos (hbig hb)], fun hfit => ?_⟩
  obtain ⟨hno, slot, junk', hs, hsl, hj⟩ := hslot hfit
  clear hslot hbig
  rw [if_neg hno, hs, Option.bind_some]
  dsimp only
  -- its length, and its bytes
  have hstore : store (front ++ slot ++ tail ++ junk') (p + 1) (UInt8.ofNat src.len) =
      some ((pre ++ [r.hdr mb me, UInt8.ofNat src.len] ++ w) ++ slot ++ (tail ++ junk')) := by
    have hassoc : ∀ b, (pre ++ [r.hdr mb me, b] ++ w) ++ slot ++ (tail ++ junk') =
        (pre ++ [r.hdr mb me]) ++ b :: (w ++ slot ++ tail ++ junk') := by
      simp
    rw [hassoc, hfr, List.append_assoc (_ ++ slot), hassoc]
    exact store_block (by simp [hstart])
  rw [hstore, Option.bind_some]
  obtain ⟨field, hgives, hcopy⟩ := copySrc_block (p := p + 2 + w.length) (c := tail ++ junk')
    (a := pre ++ [r.hdr mb me, UInt8.ofNat src.len] ++ w) (by simp [hstart]; omega) hsl.symm
  rw [hcopy, Option.map_some]
  have hfield := hgives.length_eq
  let r' : NdefRec := { r with type := field, type_lt := by omega }
  have hsize' : r'.size = 2 + w.length + field.length + (r.id.length + r.payload.length) := by
    simp only [hw, NdefRec.size, r', List.length_append, length_lenBytes, length_idBytes]
    omega
  have hplace : Place ⟨pre ++ [r.hdr mb me, UInt8.ofNat src.len] ++ w ++ field ++ (tail ++ junk'),
      m.curSize - t + src.len⟩ p r' mb me pre post junk' := by
    refine Place.of_cut ?_ hstart ?_ h.last hin
    · simp [hw, htl', NdefRec.mid, NdefRec.hdr, r', hfield]
    · change m.curSize - t + src.len = _
      clear_value t
      omega
  refine ⟨_, r', junk', rfl, hplace, ?_, rfl, rfl, hgives, rfl, rfl⟩
  rw [hplace.length_mem, hlen]
  change m.curSize - t + src.len + _ = _
  clear_value t
  omega

/-! ## The id -/

def idRoom (n : Nat) : Nat := n + if n = 0 then 0 else 1

/-- The header byte that goes with an id, or with none. -/
def NdefRec.hdrIl (r : NdefRec) (mb me il : Bool) : UInt8 :=
  mkHdr r.tnf mb me (decide (r.payload.length < 256)) il

/-- The record with an id length field and the bytes of the id, both of which may be
those of a record that had none. -/
def idCut (r : NdefRec) (mb me : Bool) (pre post : Bytes) (b : UInt8) (bs junk : Bytes) : Bytes :=
  pre ++ r.hdrIl mb me true :: UInt8.ofNat r.type.length ::
    (lenBytes r.payload.length ++ b :: (r.type ++ bs ++ (r.payload ++ post) ++ junk))

theorem idCut_eq (b : UInt8) (bs : Bytes) :
    idCut r mb me pre post b bs junk =
      (pre ++ [r.hdrIl mb me true, UInt8.ofNat r.type.length] ++ lenBytes r.payload.length ++ [b] ++
        r.type) ++ bs ++ (r.payload ++ post) ++ junk := by
  simp [idCut]

/-- The record has a length field for the id and a slot of `n` bytes, not yet filled. -/
def IdSlot (m m' : Msg) (r : NdefRec) (mb me : Bool) (pre post : Bytes) (n : Nat) : Prop :=
  ∃ b slot junk', m'.mem = idCut r mb me pre post b slot junk' ∧ slot.length = n ∧ m'.curSize = m.curSize - idRoom r.id.length + idRoom n ∧
    m'.mem.length = m.mem.length

def idLenAt (p : Nat) (r : NdefRec) : Nat := p + 2 + (lenBytes r.payload.length).length

theorem Place.idRoom_le (h : Place m p r mb me pre post junk) :
    m.curSize = idLenAt p r + idRoom r.id.length + r.type.length + r.payload.length + post.length := by
  rw [h.size, idLenAt, h.start, NdefRec.size, idRoom, length_lenBytes]
  by_cases hi : r.id = []
  · simp [hi]
    omega
  · have : r.id.length ≠ 0 := fun h0 => hi (List.length_eq_zero_iff.mp h0)
    simp [hi]
    omega

theorem IdSlot.fill {m' : Msg} {src : Src} (h : IdSlot m m' r mb me pre post src.len)
    (hplace : Place m p r mb me pre post junk) (hne : src.len ≠ 0) (hid : src.len < 256)
    (hin : m.curSize - idRoom r.id.length + idRoom src.len < 4294967296) :
    ∃ m'' r' junk', ((store m'.mem (idLenAt p r) (UInt8.ofNat src.len)).bind fun mem =>
        (copySrc mem (idLenAt p r + 1 + r.type.length) src).map fun mem =>
          (NdefStatus.ok, (⟨mem, m'.curSize⟩ : Msg))) = some (.ok, m'') ∧
      Place m'' p r' mb me pre post junk' ∧ m''.mem.length = m.mem.length ∧
      m''.curSize = m.curSize - idRoom r.id.length + idRoom src.len ∧
      (r'.tnf = r.tnf ∧ r'.type = r.type ∧ src.Gives r'.id ∧ r'.payload = r.payload) := by
  obtain ⟨b, slot, junk', hmem, hslot, hcur, hlen⟩ := h
  have hstart := hplace.start
  have hsz := hplace.idRoom_le
  set front := pre ++ [r.hdrIl mb me true, UInt8.ofNat r.type.length] ++ lenBytes r.payload.length
    with hfr
  have hassoc : ∀ (b : UInt8) (bs : Bytes), pre ++ r.hdrIl mb me true :: UInt8.ofNat r.type.length ::
      (lenBytes r.payload.length ++ b :: (r.type ++ bs ++ (r.payload ++ post) ++ junk')) =
        front ++ b :: (r.type ++ bs ++ (r.payload ++ post) ++ junk') := by
    simp [hfr]
  have hassoc' : ∀ (b : UInt8) (bs : Bytes), front ++ b :: (r.type ++ bs ++ (r.payload ++ post) ++ junk') =
      (front ++ [b] ++ r.type) ++ bs ++ (r.payload ++ post ++ junk') := by
    simp
  have hfront : idLenAt p r = front.length := by
    simp [idLenAt, hfr, hstart]
    omega
  obtain ⟨field, hgives, hcopy⟩ := copySrc_block (p := idLenAt p r + 1 + r.type.length)
    (a := front ++ [UInt8.ofNat src.len] ++ r.type) (c := r.payload ++ post ++ junk')
    (by simp [hfront]; omega) hslot.symm
  have hfield := hgives.length_eq
  have hfne : field ≠ [] := by
    rintro rfl
    exact hne hfield.symm
  let r' : NdefRec := { r with id := field, id_lt := by omega }
  rw [hmem, idCut, hassoc, store_block hfront, Option.bind_some, hassoc', hcopy, Option.map_some]
  refine ⟨_, r', junk', rfl, Place.of_cut ?_ hstart ?_ hplace.last ?_, ?_, hcur, rfl, rfl, hgives, rfl⟩
  · have hbit : r'.hdr mb me = r.hdrIl mb me true := by
      rw [NdefRec.hdr, NdefRec.hdrIl, decide_eq_true hfne]
    rw [hbit]
    simp [hfr, NdefRec.mid, r', idBytes, hfne, hfield]
  · have hr' : r'.size = 2 + (lenBytes r.payload.length).length + 1 +
        (r.payload.length + r.type.length + field.length) := by
      simp [NdefRec.size, r', hfne]
    rw [hcur, hr', hsz]
    simp only [idRoom, if_neg hne, hfield, idLenAt, hstart]
    omega
  · dsimp only
    rw [hcur]
    exact hin
  · rw [← hlen, hmem, idCut, hassoc, hassoc']
    simp [hslot, hfield]

theorem length_idCut (hp : p = pre.length) (b : UInt8) (bs : Bytes) :
    (idCut r mb me pre post b bs junk).length =
      idLenAt p r + 1 + r.type.length + bs.length + r.payload.length + post.length + junk.length := by
  simp [idCut, idLenAt, hp]
  omega

theorem Place.cut_id (h : Place m p r mb me pre post junk) (hid : r.id ≠ []) :
    m.mem = idCut r mb me pre post (UInt8.ofNat r.id.length) r.id junk := by
  have hbit : r.hdr mb me = r.hdrIl mb me true := by
    rw [NdefRec.hdr, NdefRec.hdrIl, decide_eq_true hid]
  rw [h.cut, hbit]
  simp [idCut, idBytes, hid]

theorem Place.cut_noId (h : Place m p r mb me pre post junk) (hid : r.id = []) :
    m.mem = pre ++ r.hdrIl mb me false :: UInt8.ofNat r.type.length :: (lenBytes r.payload.length ++
      (r.type ++ (r.payload ++ post)) ++ junk) := by
  have hbit : r.hdr mb me = r.hdrIl mb me false := by
    rw [NdefRec.hdr, NdefRec.hdrIl, decide_eq_false (not_not.mpr hid)]
  rw [h.cut, hbit]
  simp [idBytes, hid]

theorem idLenAt_eq (hp : p = pre.length) :
    idLenAt p r = (pre ++ [r.hdrIl mb me true, UInt8.ofNat r.type.length] ++
      lenBytes r.payload.length).length := by
  simp [idLenAt, hp]
  omega

theorem growId_spec (h : Place m p r mb me pre post junk) (hmax : maxSize ≤ m.mem.length)
    {n : Nat} (hgrow : r.id.length < n)
    (hin : m.curSize - idRoom r.id.length + idRoom n < 4294967296) {q : Nat}
    (hq : q = idLenAt p r + (if r.id.length = 0 then 0 else 1) + r.type.length) :
    (maxSize < m.curSize - idRoom r.id.length + idRoom n →
      ∃ q', growId m maxSize p r.id.length (idLenAt p r) q n = some (.msgInsufficientMem, m, q')) ∧
    (m.curSize - idRoom r.id.length + idRoom n ≤ maxSize →
      ∃ m', growId m maxSize p r.id.length (idLenAt p r) q n =
        some (.ok, m', idLenAt p r + 1 + r.type.length) ∧ IdSlot m m' r mb me pre post n) := by
  have hsize := h.idRoom_le
  have hstart := h.start
  have hlen := h.length_mem
  have hlt := h.lt
  have hroom : idRoom n = n + 1 := by
    rw [idRoom, if_neg (by omega)]
  have hroom' : idRoom r.id.length + (if r.id.length = 0 then 1 else 0) = r.id.length + 1 := by
    rw [idRoom]
    split_ifs <;> omega
  set j := r.id.length with hj
  set fld : Nat := if j = 0 then 1 else 0 with hfld
  have hsum : u32 ((m.curSize : Int) + (n - j : Nat) + (if j = 0 then 1 else 0 : Int)) =
      m.curSize - idRoom j + idRoom n := by
    refine u32_eq ?_ hin
    have hcast : (if j = 0 then 1 else 0 : Int) = (fld : Nat) := by
      rw [hfld]
      split <;> rfl
    rw [hcast]
    omega
  unfold growId
  dsimp only
  rw [hsum]
  refine ⟨fun hbig => ⟨_, by rw [if_pos hbig]⟩, fun hfit => ?_⟩
  rw [if_neg (by omega)]
  -- a length field for the id, if there was none
  obtain ⟨m₁, b, junk₁, hstep₁, hmem₁, hcur₁, hjunk₁⟩ : ∃ (m₁ : Msg) (b : UInt8) (junk₁ : Bytes),
      (if j = 0 then
        (shiftdown m.mem (idLenAt p r) (u32 (m.curSize - idLenAt p r)) 1).bind fun mem =>
          (modify mem p (· ||| ndefIlMask)).map fun mem =>
            ((⟨mem, u32 (m.curSize + 1)⟩ : Msg), q + 1)
        else some (m, q)) = some (m₁, idLenAt p r + 1 + r.type.length) ∧
      m₁.mem = idCut r mb me pre post b r.id junk₁ ∧ m₁.curSize = m.curSize + fld ∧
      junk₁.length + fld = junk.length := by
    by_cases h0 : j = 0
    · have hid : r.id = [] := List.length_eq_zero_iff.mp (hj ▸ h0)
      rw [if_pos h0] at hq hfld ⊢
      have hassoc : m.mem = (pre ++ [r.hdrIl mb me false, UInt8.ofNat r.type.length] ++
          lenBytes r.payload.length) ++ (r.type ++ (r.payload ++ post)) ++ junk := by
        rw [h.cut_noId hid]
        simp
      have hat : idLenAt p r = (pre ++ [r.hdrIl mb me false, UInt8.ofNat r.type.length] ++
          lenBytes r.payload.length).length := by
        simp [idLenAt, hstart]
        omega
      have hl : u32 ((m.curSize : Int) - idLenAt p r) = (r.type ++ (r.payload ++ post)).length := by
        rw [h0] at hsize
        refine u32_eq ?_ ?_ <;> simp [idRoom] at hsize ⊢ <;> omega
      obtain ⟨gap, junk₁, hs, hgap, hjunk⟩ := opensGap (k := 1) (c := junk) hat hl (by omega)
      obtain ⟨b, rfl⟩ := List.length_eq_one_iff.mp hgap
      have hcur : u32 ((m.curSize : Int) + 1) = m.curSize + 1 := u32_eq (by simp) (by omega)
      have hbit : r.hdrIl mb me false ||| ndefIlMask = r.hdrIl mb me true :=
        (mkHdr_set_clear _ _ _ _ _).2.2.2.2.2.1
      have hassoc' : (pre ++ [r.hdrIl mb me false, UInt8.ofNat r.type.length] ++
          lenBytes r.payload.length) ++ [b] ++ (r.type ++ (r.payload ++ post)) ++ junk₁ =
          pre ++ r.hdrIl mb me false :: UInt8.ofNat r.type.length :: (lenBytes r.payload.length ++
            b :: (r.type ++ (r.payload ++ post) ++ junk₁)) := by
        simp
      refine ⟨⟨_, m.curSize + 1⟩, b, junk₁, ?_, rfl, by rw [hfld], by omega⟩
      rw [hassoc, hs, Option.bind_some, hassoc', modify_block _ hstart, Option.map_some, hbit, hcur, hq]
      simp [hid, Nat.add_right_comm]
    · have hid : r.id ≠ [] := fun hid => h0 (by simp [hj, hid])
      rw [if_neg h0] at hq hfld ⊢
      exact ⟨m, _, junk, by rw [hq], h.cut_id hid, by rw [hfld, Nat.add_zero], by omega⟩
  rw [hstep₁, Option.bind_some]
  dsimp only
  -- room for the longer id
  have hpp : idLenAt p r + 1 + r.type.length + j = (pre ++ [r.hdrIl mb me true,
      UInt8.ofNat r.type.length] ++ lenBytes r.payload.length ++ [b] ++ r.type).length + r.id.length := by
    rw [List.length_append, List.length_append, ← idLenAt_eq hstart]
    rfl
  have hl : u32 ((m₁.curSize : Int) - (idLenAt p r + 1 + r.type.length + j : Nat)) =
      (r.payload ++ post).length := by
    refine u32_eq ?_ ?_ <;> simp only [List.length_append] <;> omega
  obtain ⟨slot, junk₂, hs, hslot, hjunk₂⟩ := growsSlot junk₁ hgrow hpp hl (by omega)
  have hcur : u32 ((m₁.curSize : Int) + (n - j : Nat)) = m.curSize - idRoom j + idRoom n :=
    u32_eq (by omega) hin
  rw [hmem₁, idCut_eq, hs, Option.map_some, hcur]
  refine ⟨_, rfl, b, slot, junk₂, (idCut_eq b slot).symm, hslot, rfl, ?_⟩
  rw [hlen, ← idCut_eq]
  dsimp only
  rw [length_idCut hstart]
  omega

theorem shrinkId_first (h : Place m p r mb me pre post junk) {n : Nat} (hshrink : n < r.id.length) :
    ∃ slot junk', shiftup m.mem (idLenAt p r + 1 + r.type.length + r.id.length - (r.id.length - n))
        (idLenAt p r + 1 + r.type.length + r.id.length)
        (u32 (m.curSize - (idLenAt p r + 1 + r.type.length + r.id.length : Nat))) =
      some (idCut r mb me pre post (UInt8.ofNat r.id.length) slot junk') ∧ slot.length = n ∧
        junk'.length + n = junk.length + r.id.length := by
  have hsize := h.idRoom_le
  have hlt := h.lt
  have hid : r.id ≠ [] := fun hid => by simp [hid] at hshrink
  rw [idRoom, if_neg (by omega)] at hsize
  have hpp : idLenAt p r + 1 + r.type.length + r.id.length = (pre ++ [r.hdrIl mb me true,
      UInt8.ofNat r.type.length] ++ lenBytes r.payload.length ++ [UInt8.ofNat r.id.length] ++
        r.type).length + r.id.length := by
    rw [List.length_append, List.length_append, ← idLenAt_eq h.start]
    rfl
  have hl : u32 ((m.curSize : Int) - (idLenAt p r + 1 + r.type.length + r.id.length : Nat)) =
      (r.payload ++ post).length := by
    refine u32_eq ?_ ?_ <;> simp only [List.length_append] <;> omega
  obtain ⟨slot, junk', hs, hslot, hjunk⟩ := shrinksSlot junk hshrink hpp hl
  refine ⟨slot, junk', ?_, hslot, hjunk⟩
  rw [h.cut_id hid, idCut_eq, hs, idCut_eq]

theorem shrinkId_some (h : Place m p r mb me pre post junk) {n : Nat} (hshrink : n < r.id.length)
    (hn : n ≠ 0) :
    ∃ m', shrinkId m p r.id.length (idLenAt p r) (idLenAt p r + 1 + r.type.length) n =
      some (.ok, m', idLenAt p r + 1 + r.type.length) ∧ IdSlot m m' r mb me pre post n := by
  have hsize := h.idRoom_le
  have hlen := h.length_mem
  have hlt := h.lt
  have hroom : idRoom r.id.length = r.id.length + 1 := by rw [idRoom, if_neg (by omega)]
  have hroom' : idRoom n = n + 1 := by rw [idRoom, if_neg hn]
  obtain ⟨slot, junk', hs, hslot, hjunk⟩ := shrinkId_first h hshrink
  have hcur : u32 ((m.curSize : Int) - (r.id.length - n : Nat)) =
      m.curSize - idRoom r.id.length + idRoom n := u32_eq (by omega) (by omega)
  unfold shrinkId
  dsimp only
  rw [hs, Option.bind_some, if_neg hn, hcur]
  refine ⟨_, rfl, _, slot, junk', rfl, hslot, rfl, ?_⟩
  dsimp only
  rw [length_idCut h.start, hlen]
  omega

theorem shrinkId_none (h : Place m p r mb me pre post junk) (hid : 0 < r.id.length)
    (hclean : r.id.length = 1 → m.curSize < m.mem.length) :
    ∃ m' r' junk' q, shrinkId m p r.id.length (idLenAt p r) (idLenAt p r + 1 + r.type.length) 0 =
        some (.ok, m', q) ∧
      Place m' p r' mb me pre post junk' ∧ m'.mem.length = m.mem.length ∧
      m'.curSize = m.curSize - idRoom r.id.length ∧
      (r'.tnf = r.tnf ∧ r'.type = r.type ∧ r'.id = [] ∧ r'.payload = r.payload) := by
  have hsize := h.idRoom_le
  have hlen := h.length_mem
  have hstart := h.start
  have hlt := h.lt
  have hroom : idRoom r.id.length = r.id.length + 1 := by rw [idRoom, if_neg (by omega)]
  obtain ⟨slot, junk₁, hs, hslot, hjunk⟩ := shrinkId_first h hid
  have hnil : slot = [] := List.length_eq_zero_iff.mp hslot
  have hcur : u32 ((m.curSize : Int) - (r.id.length - 0 : Nat)) = m.curSize - r.id.length :=
    u32_eq (by omega) (by omega)
  have htwo : (junk₁.take 2).length = 2 := by
    simp
    omega
  set front := pre ++ [r.hdrIl mb me true, UInt8.ofNat r.type.length] ++ lenBytes r.payload.length
    with hfr
  have hassoc : idCut r mb me pre post (UInt8.ofNat r.id.length) slot junk₁ =
      front ++ [UInt8.ofNat r.id.length] ++ (r.type ++ r.payload ++ post ++ junk₁.take 2) ++
        junk₁.drop 2 := by
    simp [idCut, hfr, hnil]
  have hat : idLenAt p r = front.length := idLenAt_eq hstart
  have hl : u32 ((m.curSize - r.id.length : Nat) - ((idLenAt p r : Int) - 1)) =
      (r.type ++ r.payload ++ post ++ junk₁.take 2).length := by
    refine u32_eq ?_ ?_ <;> simp only [List.length_append, htwo] <;> omega
  obtain ⟨junk₂, hs₂, hjunk₂⟩ := closesGap (d := [UInt8.ofNat r.id.length]) (c := junk₁.drop 2) hat
    (show idLenAt p r + 1 = _ by rw [hat]; rfl) hl
  have hcur₂ : u32 ((m.curSize - r.id.length : Nat) - 1) = m.curSize - idRoom r.id.length :=
    u32_eq (by omega) (by omega)
  have hbit : r.hdrIl mb me true &&& ~~~ndefIlMask = r.hdrIl mb me false :=
    (mkHdr_set_clear _ _ _ _ _).2.2.2.2.2.2
  have hassoc₂ : front ++ (r.type ++ r.payload ++ post ++ junk₁.take 2) ++ junk₂ =
      pre ++ r.hdrIl mb me true :: UInt8.ofNat r.type.length :: (lenBytes r.payload.length ++
        (r.type ++ r.payload ++ post) ++ (junk₁.take 2 ++ junk₂)) := by
    simp [hfr]
  unfold shrinkId
  dsimp only
  rw [hs, Option.bind_some, if_pos rfl, hcur, hassoc, hs₂, Option.bind_some, hassoc₂,
    modify_block _ hstart, Option.map_some, hbit, hcur₂]
  let r' : NdefRec := { r with id := [], id_lt := by decide }
  have hplace : Place ⟨pre ++ r.hdrIl mb me false :: UInt8.ofNat r.type.length ::
      (lenBytes r.payload.length ++ (r.type ++ r.payload ++ post) ++ (junk₁.take 2 ++ junk₂)),
      m.curSize - idRoom r.id.length⟩ p r' mb me pre post (junk₁.take 2 ++ junk₂) := by
    refine Place.of_cut ?_ hstart ?_ h.last ?_
    · simp [r', NdefRec.hdr, NdefRec.hdrIl, NdefRec.mid, idBytes]
    · have hr' : r'.size = 2 + (lenBytes r.payload.length).length + 0 +
          (r.payload.length + r.type.length + 0) := by
        simp [NdefRec.size, r']
      rw [hr']
      simp only [idLenAt, hstart] at hsize
      dsimp only
      omega
    · dsimp only
      omega
  refine ⟨_, r', _, _, rfl, hplace, ?_, rfl, rfl, rfl, rfl, rfl⟩
  rw [hplace.length_mem, hlen]
  simp only [List.length_append, htwo, hjunk₂, List.length_drop, List.length_singleton]
  omega

theorem Src.gives_nil {src : Src} (h : src.len = 0) : src.Gives [] := by
  cases src with
  | bytes bs => exact (List.length_eq_zero_iff.mp h).symm
  | reserve n => exact h.symm

theorem idLenAt_hdr (p : Nat) (r : NdefRec) :
    p + 2 + (if has (r.hdr mb me) ndefSrMask then 1 else 4) = idLenAt p r := by
  simp [NdefRec.hdr, idLenAt]

theorem Place.readIdLen (h : Place m p r mb me pre post junk) :
    Ndef.readIdLen m.mem (r.hdr mb me) (idLenAt p r) =
      some (UInt8.ofNat r.id.length, idLenAt p r + if r.id.length = 0 then 0 else 1) := by
  have hread := h.stands.readIdLen
  have hbody : p + (r.frame mb me).head.length = idLenAt p r + if r.id.length = 0 then 0 else 1 := by
    simp [NdefRec.length_head_frame, idLenAt]
    omega
  have hat : p + 2 + (if has (r.frame mb me).hdr ndefSrMask then 1 else 4) = idLenAt p r :=
    idLenAt_hdr p r
  rw [hbody, hat] at hread
  exact hread

theorem replaceId_edits (h : Place m p r mb me pre post junk) (hmax : maxSize ≤ m.mem.length)
    (hcur : m.curSize ≤ maxSize) (src : Src) (hid : src.len < 256)
    (hin : m.curSize - idRoom r.id.length + idRoom src.len < 4294967296)
    (hclean : r.id.length = 1 → src.len = 0 → m.curSize < m.mem.length) :
    EditsTo m maxSize (m.curSize - idRoom r.id.length + idRoom src.len) p mb me pre post
      (fun r' => r'.tnf = r.tnf ∧ r'.type = r.type ∧ src.Gives r'.id ∧ r'.payload = r.payload)
      (ndefMsgReplaceId m maxSize p src) := by
  have hsize := h.idRoom_le
  rw [ndefMsgReplaceId, h.get.1, Option.bind_some, h.get.2, Option.bind_some]
  dsimp only
  rw [idLenAt_hdr, h.readIdLen, Option.bind_some]
  dsimp only
  rw [r.toNat_idLen, r.toNat_typeLen]
  by_cases hgrow : src.len > r.id.length
  · obtain ⟨herr, hok⟩ := growId_spec h hmax hgrow hin rfl
    rw [if_pos hgrow]
    refine ⟨fun hbig => ?_, fun hfit => ?_⟩
    · obtain ⟨q, hq⟩ := herr hbig
      rw [hq, Option.bind_some, if_neg (by simp)]
    · obtain ⟨m', hm', hslot⟩ := hok hfit
      have hne : src.len ≠ 0 := by omega
      rw [hm', Option.bind_some, if_pos ⟨rfl, hne⟩]
      exact hslot.fill h hne hid hin
  have hless : idRoom src.len ≤ idRoom r.id.length := by
    unfold idRoom
    split_ifs <;> omega
  refine ⟨fun hbig => by omega, fun _ => ?_⟩
  rw [if_neg hgrow]
  by_cases hshrink : src.len < r.id.length
  · have hpos : r.id.length ≠ 0 := by omega
    rw [if_pos hshrink, if_neg hpos]
    by_cases hnone : src.len = 0
    · obtain ⟨m', r', junk', q, hm', hplace, hlen', hcur', ht, hty, hi, hpl⟩ :=
        shrinkId_none h (by omega) fun h1 => hclean h1 hnone
      rw [hnone, hm', Option.bind_some, if_neg (by simp)]
      exact ⟨m', r', junk', rfl, hplace, hlen', hcur', ht, hty, hi ▸ Src.gives_nil hnone, hpl⟩
    · obtain ⟨m', hm', hslot⟩ := shrinkId_some h hshrink hnone
      rw [hm', Option.bind_some, if_pos ⟨rfl, hnone⟩]
      exact hslot.fill h hnone hid hin
  · have heq : src.len = r.id.length := by omega
    rw [if_neg hshrink, Option.bind_some]
    by_cases hnone : src.len = 0
    · rw [if_neg (fun hc => hc.2 hnone)]
      have hnil : r.id = [] := List.length_eq_zero_iff.mp (by omega)
      refine ⟨m, r, junk, rfl, h, rfl, ?_, rfl, rfl, hnil ▸ Src.gives_nil hnone, rfl⟩
      rw [heq]
      omega
    · have hpos : r.id.length ≠ 0 := by omega
      rw [if_pos ⟨rfl, hnone⟩, if_neg hpos]
      have hne : r.id ≠ [] := fun hnil => hpos (by rw [hnil]; rfl)
      have hslot : IdSlot m m r mb me pre post src.len := by
        refine ⟨_, r.id, junk, h.cut_id hne, heq.symm, ?_, rfl⟩
        rw [heq]
        omega
      exact hslot.fill h hnone hid hin

end Edits

end NfcStack.Ndef
