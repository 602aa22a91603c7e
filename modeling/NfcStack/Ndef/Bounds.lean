import NfcStack.Lib.Defined
import NfcStack.Ndef.Received

/- What the edits of an NDEF message read and write (`ndef_utils.cc`: `shiftdown`, `shiftup`
   and the functions that call them). The buffer is one of `max_size` bytes, so that an access
   behind it does not return; and the shifts are put in place of the loops so that one that
   reads behind the message does not return either.

   What is proved:
     1. `via_plain`: with the loops themselves it is the same code.
     2. `Kept`: what an edit keeps, so that each step returns just when its bytes are there.
     3. `append_stays` and so on: each function, with the exact condition.
     4. `edits_stay`: all of them, for a record of an accepted message. -/
namespace NfcStack.Ndef
open NfcStack.Lib

/-! ## The code, with its shifts and copies as parameters -/

structure Moves where
  down : Nat → Bytes → Nat → Nat → Nat → Option Bytes
  up : Nat → Bytes → Nat → Nat → Nat → Option Bytes
  copy : Bytes → Nat → Src → Option Bytes

/-- The loops as they are. -/
def plain : Moves := ⟨fun _ => shiftdown, fun _ => shiftup, copySrc⟩

/-- The loops, as long as what they read is the message; a copy of no bytes accesses none. -/
def guarded : Moves where
  down cur mem p len k := if len = 0 ∨ p + len ≤ cur then shiftdown mem p len k else none
  up cur mem dest src len := if len = 0 ∨ src + len ≤ cur then shiftup mem dest src len else none
  copy mem p src := if src = .bytes [] then some mem else copySrc mem p src

section Code
variable (via : Moves)

def addRecVia (m : Msg) (maxSize : Nat) (tnf : UInt8) (type id payload : Src) :
    Option (NdefStatus × Msg) :=
  let plen : Nat := if payload.len < 256 then 1 else 4
  let ilen : Nat := if id.len = 0 then 0 else 1
  let type' := if tnf > ndefTnfReserved then .bytes [] else type
  let tnf := if tnf > ndefTnfReserved then ndefTnfUnknown else tnf
  let recSize := u32 (payload.len + 2 + type'.len + plen + ilen + id.len)
  if u32 (m.curSize + recSize) > maxSize then some (.msgInsufficientMem, m)
  else
    let p := m.curSize
    (startRec m tnf).bind fun mem =>
    (if plen = 1 then modify mem p (· ||| ndefSrMask) else some mem).bind fun mem =>
    (if ilen ≠ 0 then modify mem p (· ||| ndefIlMask) else some mem).bind fun mem =>
    (store mem (p + 1) (UInt8.ofNat type'.len)).bind fun mem =>
    (if plen = 1 then store mem (p + 2) (UInt8.ofNat payload.len)
      else memcpy mem (p + 2) (uint32ToBeStream (UInt32.ofNat payload.len))).bind fun mem =>
    let p := p + 2 + plen
    (if ilen > 0 then store mem p (UInt8.ofNat id.len) else some mem).bind fun mem =>
    let p := p + ilen
    (if type'.len ≠ 0 then via.copy mem p type' else some mem).bind fun mem =>
    let p := p + type'.len
    (if id.len ≠ 0 then via.copy mem p id else some mem).bind fun mem =>
    let p := p + id.len
    (via.copy mem p payload).map fun mem => (.ok, ⟨mem, u32 (m.curSize + recSize)⟩)

def appendPayloadVia (m : Msg) (maxSize pRec : Nat) (addPl : Bytes) : Option (NdefStatus × Msg) :=
  (readRecHdr m.mem pRec).bind fun h =>
  let prevPaylen := h.payloadLen.toNat
  let pPrevPl := h.body + h.typeLen.toNat + h.idLen.toNat
  let newPaylen := u32 (prevPaylen + addPl.length)
  let incrLenfld : Nat := if prevPaylen < 256 ∧ newPaylen > 255 then 3 else 0
  if u32 (m.curSize + addPl.length + incrLenfld) > maxSize then some (.msgInsufficientMem, m)
  else
    let pp := pRec + 2
    (if incrLenfld ≠ 0 then via.down m.curSize m.mem (pp + 1) (u32 (m.curSize - pp - 1)) 3
      else some m.mem).bind fun mem =>
    let pPrevPl := if incrLenfld ≠ 0 then pPrevPl + 3 else pPrevPl
    (if newPaylen > 255 then modify mem pRec (· &&& ~~~ndefSrMask) else some mem).bind fun mem =>
    (storeLen mem pp newPaylen).bind fun mem =>
    let pp := pPrevPl + prevPaylen
    (unlessLast mem pRec fun mem =>
      via.down m.curSize mem pp (u32 (m.curSize - pp)) addPl.length).bind fun mem =>
    (via.copy mem pp (.bytes addPl)).map fun mem =>
      (.ok, ⟨mem, u32 (m.curSize + addPl.length + incrLenfld)⟩)

def growPayloadVia (m : Msg) (maxSize pRec prevPaylen pPrevPl newPlLen : Nat) :
    Option (NdefStatus × Msg × Nat) :=
  let pp := pRec + 2
  let paylenDelta := newPlLen - prevPaylen
  let wider := prevPaylen < 256 ∧ newPlLen > 255
  if u32 (m.curSize + paylenDelta + (if wider then 3 else 0)) > maxSize then
    some (.msgInsufficientMem, m, pPrevPl)
  else
    (if wider then
      (via.down m.curSize m.mem (pp + 1) (u32 (m.curSize - pp - 1)) 3).bind fun mem =>
        (modify mem pRec (· &&& ~~~ndefSrMask)).map fun mem =>
          (⟨mem, u32 (m.curSize + 3)⟩, pPrevPl + 3)
      else some (m, pPrevPl)).bind fun r =>
    let m := r.1
    let pPrevPl := r.2
    (storeLen m.mem pp newPlLen).bind fun mem =>
    let pp := pPrevPl + prevPaylen
    (unlessLast mem pRec fun mem =>
      via.down m.curSize mem pp (u32 (m.curSize - pp)) paylenDelta).map fun mem =>
      (.ok, ⟨mem, u32 (m.curSize + paylenDelta)⟩, pPrevPl)

def shrinkPayloadVia (m : Msg) (pRec prevPaylen pPrevPl newPlLen : Nat) :
    Option (NdefStatus × Msg × Nat) :=
  let pp := pRec + 2
  let paylenDelta := prevPaylen - newPlLen
  (if prevPaylen > 255 ∧ newPlLen < 256 then
    (via.up m.curSize m.mem (pp + 1) (pp + 4) (u32 (m.curSize - pp - 3))).bind fun mem =>
      (modify mem pRec (· ||| ndefSrMask)).map fun mem =>
        (⟨mem, u32 (m.curSize - 3)⟩, pPrevPl - 3)
    else some (m, pPrevPl)).bind fun r =>
  let m := r.1
  let pPrevPl := r.2
  (storeLen m.mem pp newPlLen).bind fun mem =>
  let pp := pPrevPl + prevPaylen
  (unlessLast mem pRec fun mem =>
    via.up m.curSize mem (pp - paylenDelta) pp (u32 (m.curSize - pp))).map fun mem =>
    (.ok, ⟨mem, u32 (m.curSize - paylenDelta)⟩, pPrevPl)

def replacePayloadVia (m : Msg) (maxSize pRec : Nat) (newPl : Src) : Option (NdefStatus × Msg) :=
  (readRecHdr m.mem pRec).bind fun h =>
  let prevPaylen := h.payloadLen.toNat
  let pPrevPl := h.body + h.typeLen.toNat + h.idLen.toNat
  (if newPl.len > prevPaylen then growPayloadVia via m maxSize pRec prevPaylen pPrevPl newPl.len
    else if newPl.len < prevPaylen then shrinkPayloadVia via m pRec prevPaylen pPrevPl newPl.len
    else some (.ok, m, pPrevPl)).bind fun r =>
  if r.1 = .ok then (via.copy r.2.1.mem r.2.2 newPl).map fun mem => (.ok, ⟨mem, r.2.1.curSize⟩)
  else some (r.1, r.2.1)

def replaceTypeVia (m : Msg) (maxSize pRec : Nat) (newType : Src) : Option (NdefStatus × Msg) :=
  m.mem[pRec]?.bind fun hdr => m.mem[pRec + 1]?.bind fun prevTypeLen =>
  let prevTypeLen := prevTypeLen.toNat
  let pPrevType := pRec + 2 + (if has hdr ndefSrMask then 1 else 4) +
    (if has hdr ndefIlMask then 1 else 0)
  let pp := pPrevType + prevTypeLen
  if newType.len > prevTypeLen ∧ u32 (m.curSize + (newType.len - prevTypeLen : Nat)) > maxSize then
    some (.msgInsufficientMem, m)
  else
    (if newType.len > prevTypeLen then
      (via.down m.curSize m.mem pp (u32 (m.curSize - pp)) (newType.len - prevTypeLen)).map fun mem =>
        ⟨mem, u32 (m.curSize + (newType.len - prevTypeLen : Nat))⟩
      else if newType.len < prevTypeLen then
        (via.up m.curSize m.mem (pp - (prevTypeLen - newType.len)) pp (u32 (m.curSize - pp))).map fun mem =>
          ⟨mem, u32 (m.curSize - (prevTypeLen - newType.len : Nat))⟩
      else some m).bind fun (m : Msg) =>
    (store m.mem (pRec + 1) (UInt8.ofNat newType.len)).bind fun mem =>
    (via.copy mem pPrevType newType).map fun mem => (.ok, ⟨mem, m.curSize⟩)

def growIdVia (m : Msg) (maxSize pRec prevIdLen pIdlenField pPrevId newIdLen : Nat) :
    Option (NdefStatus × Msg × Nat) :=
  let idlenDelta := newIdLen - prevIdLen
  if u32 (m.curSize + idlenDelta + (if prevIdLen = 0 then 1 else 0)) > maxSize then
    some (.msgInsufficientMem, m, pPrevId)
  else
    (if prevIdLen = 0 then
      (via.down m.curSize m.mem pIdlenField (u32 (m.curSize - pIdlenField)) 1).bind fun mem =>
        (modify mem pRec (· ||| ndefIlMask)).map fun mem =>
          (⟨mem, u32 (m.curSize + 1)⟩, pPrevId + 1)
      else some (m, pPrevId)).bind fun r =>
    let m := r.1
    let pPrevId := r.2
    let pp := pPrevId + prevIdLen
    (via.down m.curSize m.mem pp (u32 (m.curSize - pp)) idlenDelta).map fun mem =>
      (.ok, ⟨mem, u32 (m.curSize + idlenDelta)⟩, pPrevId)

def shrinkIdVia (m : Msg) (pRec prevIdLen pIdlenField pPrevId newIdLen : Nat) :
    Option (NdefStatus × Msg × Nat) :=
  let idlenDelta := prevIdLen - newIdLen
  let pp := pPrevId + prevIdLen
  (via.up m.curSize m.mem (pp - idlenDelta) pp (u32 (m.curSize - pp))).bind fun mem =>
  let curSize := u32 (m.curSize - idlenDelta)
  if newIdLen = 0 then
    (via.up curSize mem pIdlenField (pIdlenField + 1) (u32 (curSize - (pIdlenField - 1)))).bind fun mem =>
      (modify mem pRec (· &&& ~~~ndefIlMask)).map fun mem =>
        (.ok, ⟨mem, u32 (curSize - 1)⟩, pPrevId)
  else some (.ok, ⟨mem, curSize⟩, pPrevId)

def replaceIdVia (m : Msg) (maxSize pRec : Nat) (newId : Src) : Option (NdefStatus × Msg) :=
  m.mem[pRec]?.bind fun hdr => m.mem[pRec + 1]?.bind fun typeLen =>
  let pIdlenField := pRec + 2 + (if has hdr ndefSrMask then 1 else 4)
  (readIdLen m.mem hdr pIdlenField).bind fun r =>
  let prevIdLen := r.1.toNat
  let pPrevId := r.2 + typeLen.toNat
  (if newId.len > prevIdLen then growIdVia via m maxSize pRec prevIdLen pIdlenField pPrevId newId.len
    else if newId.len < prevIdLen then shrinkIdVia via m pRec prevIdLen pIdlenField pPrevId newId.len
    else some (.ok, m, pPrevId)).bind fun r =>
  if r.1 = .ok ∧ newId.len ≠ 0 then
    (store r.2.1.mem pIdlenField (UInt8.ofNat newId.len)).bind fun mem =>
      (via.copy mem r.2.2 newId).map fun mem => (.ok, ⟨mem, r.2.1.curSize⟩)
  else some (r.1, r.2.1)

def removeRecVia (m : Msg) (index : Int) : Option (NdefStatus × Msg) :=
  (ndefMsgGetRecByIndex m.mem index).bind fun
  | none => some (.recNotFound, m)
  | some pRec => m.mem[pRec]?.bind fun hdr =>
    if has hdr ndefMbMask then
      (ndefMsgGetRecByIndex m.mem 1).bind fun
      | some pNext =>
        (modify m.mem pNext (· ||| ndefMbMask)).bind fun mem =>
          (via.up m.curSize mem 0 pNext (u32 (m.curSize - pNext))).map fun mem =>
            (.ok, ⟨mem, u32 (m.curSize - pNext)⟩)
      | none => some (.ok, ⟨m.mem, 0⟩)
    else if has hdr ndefMeMask then
      (if index > 0 then
        (ndefMsgGetRecByIndex m.mem (index - 1)).bind fun
        | some pPrev => (modify m.mem pPrev (· ||| ndefMeMask)).map some
        | none => some none
        else some (some m.mem)).map fun
      | some mem => (.ok, ⟨mem, u32 pRec⟩)
      | none => (.ok, m)
    else
      (ndefMsgGetNextRec m.mem pRec).bind fun
      | none => some (.ok, m)
      | some pNext =>
        (via.up m.curSize m.mem pRec pNext (u32 (m.curSize - pNext))).map fun mem =>
          (.ok, ⟨mem, u32 (m.curSize - (pNext - pRec : Int))⟩)

end Code

theorem via_plain : addRecVia plain = ndefMsgAddRec ∧ appendPayloadVia plain = ndefMsgAppendPayload ∧
    replacePayloadVia plain = ndefMsgReplacePayload ∧ replaceTypeVia plain = ndefMsgReplaceType ∧
    replaceIdVia plain = ndefMsgReplaceId ∧ removeRecVia plain = ndefMsgRemoveRec :=
  ⟨rfl, rfl, rfl, rfl, rfl, rfl⟩

/-! ## One access -/

/-- The bytes, if there are any, end in the first `n` of the buffer. -/
def Src.EndsBy (q n : Nat) : Src → Prop
  | .bytes bs => bs.length = 0 ∨ q + bs.length ≤ n
  | .reserve _ => True

section Access
variable {mem : Bytes} {n q len k cur : Nat}

theorem store_defined (hlen : mem.length = n) (b : UInt8) : Defined (q < n) (store mem q b) (Keeps q mem) := by
  refine ⟨?_, fun mem' => store_keeps⟩
  rw [store, hlen]
  split
  case isTrue h => exact iff_of_true rfl h
  case isFalse h => exact iff_of_false Bool.false_ne_true h

theorem memcpy_defined (hlen : mem.length = n) (bs : Bytes) :
    Defined (q + bs.length ≤ n) (memcpy mem q bs) (Keeps q mem) := by
  refine ⟨?_, fun mem' => memcpy_keeps⟩
  rw [memcpy, hlen]
  split
  case isTrue h => exact iff_of_true rfl h
  case isFalse h => exact iff_of_false Bool.false_ne_true h

theorem storeLen_defined (hlen : mem.length = n) (l : Nat) :
    Defined (q + (if l > 255 then 4 else 1) ≤ n) (storeLen mem q l) (Keeps q mem) := by
  unfold storeLen
  split
  · exact memcpy_defined (q := q) hlen (uint32ToBeStream (UInt32.ofNat l))
  · exact (store_defined hlen _).congr Nat.succ_le_iff.symm

theorem copy_defined (hlen : mem.length = n) (src : Src) :
    Defined (src.EndsBy q n) (guarded.copy mem q src) (Keeps q mem) := by
  unfold guarded
  dsimp only
  split
  case isTrue h =>
    subst h
    exact (Defined.pure (.refl q mem)).congr (iff_of_true trivial (.inl rfl))
  case isFalse h =>
    cases src with
    | bytes bs =>
      have hne : ¬ bs.length = 0 := fun hn => h (congrArg Src.bytes (List.length_eq_zero_iff.mp hn))
      exact (memcpy_defined hlen bs).congr (or_iff_right hne).symm
    | reserve l => exact (Defined.pure (.refl q mem)).congr Iff.rfl

theorem shiftdown_none (h : mem.length < q + len + k) (hpos : 0 < len) : shiftdown mem q len k = none := by
  obtain ⟨l, rfl⟩ : ∃ l, len = l + 1 := ⟨len - 1, by omega⟩
  rw [shiftdown, Option.bind_eq_none_iff]
  intro b _
  rw [store, if_neg (by omega)]
  rfl

/-- What is read is the message, and what is written is in the buffer. -/
theorem down_defined (hlen : mem.length = n) :
    Defined (len = 0 ∨ (q + len ≤ cur ∧ q + len + k ≤ n)) (guarded.down cur mem q len k) (Keeps (q + k) mem) := by
  unfold guarded
  dsimp only
  refine ⟨?_, fun mem' h => ?_⟩
  · split
    case isTrue h =>
      by_cases hin : len = 0 ∨ q + len + k ≤ n
      · rcases Nat.eq_zero_or_pos len with rfl | hpos
        · exact iff_of_true rfl (.inl rfl)
        · rw [shiftdown_moves len (by omega)]
          exact iff_of_true rfl (by omega)
      · rw [shiftdown_none (by omega) (by omega)]
        exact iff_of_false Bool.false_ne_true (by omega)
    case isFalse h => exact iff_of_false Bool.false_ne_true (by omega)
  · split at h
    · exact shiftdown_keeps len h
    · cases h

theorem up_defined {dest : Nat} (hlen : mem.length = n) (hdest : dest ≤ q) :
    Defined (len = 0 ∨ (q + len ≤ cur ∧ q + len ≤ n)) (guarded.up cur mem dest q len) (Keeps dest mem) := by
  unfold guarded
  dsimp only
  refine ⟨?_, fun mem' h => ?_⟩
  · split
    case isTrue h =>
      by_cases hin : len = 0 ∨ q + len ≤ n
      · rcases Nat.eq_zero_or_pos len with rfl | hpos
        · exact iff_of_true rfl (.inl rfl)
        · rw [shiftup_moves len hdest (by omega)]
          exact iff_of_true rfl (by omega)
      · rw [shiftup_none len (by omega) (by omega)]
        exact iff_of_false Bool.false_ne_true (by omega)
    case isFalse h => exact iff_of_false Bool.false_ne_true (by omega)
  · split at h
    · exact shiftup_keeps len h
    · cases h

end Access

/-! ## What an edit keeps -/

/-- The buffer has `n` bytes, and the record at `p` is the last one just when `me`. -/
structure Kept (n p : Nat) (me : Prop) (mem : Bytes) : Prop where
  length : mem.length = n
  last : ∃ hdr, mem[p]? = some hdr ∧ (has hdr ndefMeMask ↔ me)

section Kept
variable {mem mem' : Bytes} {n p : Nat} {me : Prop}

theorem Kept.of_keeps {k : Nat} (h : Kept n p me mem) (hk : Keeps k mem mem') (hp : p < k) : Kept n p me mem' := by
  obtain ⟨hlen, hdr, hget, hme⟩ := h
  exact ⟨hk.length.trans hlen, hdr, (hk.below p hp).trans hget, hme⟩

theorem Kept.lt (h : Kept n p me mem) : p < n := by
  obtain ⟨hlen, hdr, hget, -⟩ := h
  rw [← hlen]
  exact (List.getElem?_eq_some_iff.mp hget).1

theorem Kept.modify (h : Kept n p me mem) {f : UInt8 → UInt8} (hf : ∀ b, has (f b) ndefMeMask ↔ has b ndefMeMask) :
    Defined True (Ndef.modify mem p f) (Kept n p me) := by
  have hlt := h.lt
  obtain ⟨hlen, hdr, hget, hme⟩ := h
  rw [Ndef.modify, hget, Option.bind_some, store, if_pos (by omega)]
  refine Defined.pure ⟨by rw [List.length_set, hlen], f hdr, ?_, (hf hdr).trans hme⟩
  rw [List.getElem?_set_self (by omega)]

theorem Kept.store {q : Nat} (h : Kept n p me mem) (hp : p < q) (b : UInt8) :
    Defined (q < n) (Ndef.store mem q b) (Kept n p me) :=
  (store_defined h.length b).mono fun _ hk => h.of_keeps hk hp

theorem Kept.storeLen {q : Nat} (h : Kept n p me mem) (hp : p < q) (l : Nat) :
    Defined (q + (if l > 255 then 4 else 1) ≤ n) (Ndef.storeLen mem q l) (Kept n p me) :=
  (storeLen_defined h.length l).mono fun _ hk => h.of_keeps hk hp

theorem Kept.copy {q : Nat} (h : Kept n p me mem) (hp : p < q) (src : Src) :
    Defined (src.EndsBy q n) (guarded.copy mem q src) (Kept n p me) :=
  (copy_defined h.length src).mono fun _ hk => h.of_keeps hk hp

theorem Kept.down {q len k cur : Nat} (h : Kept n p me mem) (hp : p < q + k) :
    Defined (len = 0 ∨ (q + len ≤ cur ∧ q + len + k ≤ n)) (guarded.down cur mem q len k) (Kept n p me) :=
  (down_defined h.length).mono fun _ hk => h.of_keeps hk hp

theorem Kept.up {q len dest cur : Nat} (h : Kept n p me mem) (hdest : dest ≤ q) (hp : p < dest) :
    Defined (len = 0 ∨ (q + len ≤ cur ∧ q + len ≤ n)) (guarded.up cur mem dest q len) (Kept n p me) :=
  (up_defined h.length hdest).mono fun _ hk => h.of_keeps hk hp

theorem Kept.unlessLast (h : Kept n p me mem) {shift : Bytes → Option Bytes} {c : Prop}
    (hshift : Defined c (shift mem) (Kept n p me)) :
    Defined (¬ me → c) (Ndef.unlessLast mem p shift) (Kept n p me) := by
  have hkeep := h
  obtain ⟨hlen, hdr, hget, hme⟩ := h
  rw [Ndef.unlessLast, hget, Option.bind_some]
  split
  case isTrue hm => exact (Defined.pure hkeep).congr (iff_of_true trivial fun hn => absurd (hme.mp hm) hn)
  case isFalse hm => exact hshift.congr ⟨fun hc _ => hc, fun hc => hc fun hm' => hm (hme.mpr hm')⟩

end Kept

/-! ## The functions -/

/-- `NDEF_MsgAppendPayload`: the new size is too big as a `uint32_t`, or what is moved and copied has its place. -/
def AppendStays (maxSize : Nat) (m : Msg) (A B : List Rec) (r : Rec) (k : Nat) : Prop :=
  let incr : Nat := if r.payload.length < 256 ∧ u32 (r.payload.length + k) > 255 then 3 else 0
  maxSize < u32 (m.curSize + k + incr) ∨
    m.curSize + incr ≤ maxSize ∧ (incr < recsLen B → m.curSize + k ≤ maxSize) ∧
      recsLen A + r.bytes.length + incr + k ≤ maxSize

/-- `NDEF_MsgAddRec`: the head and the three fields have their place. -/
def AddStays (maxSize : Nat) (m : Msg) (tnf : UInt8) (type id payload : Src) : Prop :=
  let plen : Nat := if payload.len < 256 then 1 else 4
  let ilen : Nat := if id.len = 0 then 0 else 1
  let type := if tnf > ndefTnfReserved then .bytes [] else type
  let body := m.curSize + 2 + plen + ilen
  maxSize < u32 (m.curSize + u32 (payload.len + 2 + type.len + plen + ilen + id.len)) ∨
    body ≤ maxSize ∧ type.EndsBy body maxSize ∧ id.EndsBy (body + type.len) maxSize ∧
      payload.EndsBy (body + type.len + id.len) maxSize

/-- `NDEF_MsgReplacePayload`: the same for a longer payload; a shorter one does not make the length field narrower. -/
def PayloadStays (maxSize : Nat) (m : Msg) (A B : List Rec) (r : Rec) (src : Src) : Prop :=
  let prev := r.payload.length
  let wide : Nat := if prev < 256 ∧ src.len > 255 then 3 else 0
  if prev < src.len then
    maxSize < u32 (m.curSize + (src.len - prev : Nat) + wide) ∨
      (m.curSize + wide ≤ maxSize ∧ (0 < recsLen B → m.curSize + wide + (src.len - prev) ≤ maxSize)) ∧
        src.EndsBy (recsLen A + r.head.length + r.type.length + r.id.length + wide) maxSize
  else ¬ (255 < prev ∧ src.len < 256)

/-- `NDEF_MsgReplaceType`, the same. -/
def TypeStays (maxSize : Nat) (m : Msg) (A : List Rec) (r : Rec) (src : Src) : Prop :=
  (src.len > r.type.length ∧ u32 (m.curSize + (src.len - r.type.length : Nat)) > maxSize) ∨
    (r.type.length < src.len → recsLen A + r.head.length + r.type.length < m.curSize →
      m.curSize + (src.len - r.type.length) ≤ maxSize) ∧ src.EndsBy (recsLen A + r.head.length) maxSize

/-- `NDEF_MsgReplaceId`, the same; a shorter id is not the empty one. -/
def IdStays (maxSize : Nat) (m : Msg) (A : List Rec) (r : Rec) (src : Src) : Prop :=
  let prev := r.id.length
  let short : Nat := if prev = 0 then 1 else 0
  let q := recsLen A + r.head.length + r.type.length
  if prev < src.len then
    maxSize < u32 (m.curSize + (src.len - prev : Nat) + short) ∨
      m.curSize + short ≤ maxSize ∧ (q + prev < m.curSize → m.curSize + short + (src.len - prev) ≤ maxSize) ∧
        src.EndsBy (q + short) maxSize
  else src.len = 0 → prev = 0

section Functions
variable {maxSize : Nat} {m : Msg} {A B : List Rec} {r : Rec}

theorem Received.kept (h : Received maxSize m A r B) (hbuf : m.mem.length = maxSize) :
    Kept maxSize (recsLen A) r.me m.mem :=
  ⟨hbuf, r.hdr, h.seat.stands.hdr, Iff.rfl⟩

theorem Received.behind (h : Received maxSize m A r B) : (r.me → recsLen B = 0) ∧ (¬ r.me → 3 ≤ recsLen B) := by
  refine ⟨fun hme => ?_, fun hme => three_le_recsBytes fun hB => hme (h.last_iff.mpr hB)⟩
  rw [h.last_iff.mp hme]
  rfl

theorem append_stays (h : Received maxSize m A r B) (hbuf : m.mem.length = maxSize) (bs : Bytes) :
    (appendPayloadVia guarded m maxSize (recsLen A) bs).isSome ↔ AppendStays maxSize m A B r bs.length := by
  have hkept := h.kept hbuf
  have hcur := h.curSize_eq
  have hle := h.le
  have hlt := h.lt
  have hbytes := r.length_bytes
  have hhead := r.length_head
  have hsr := r.payload_lt
  obtain ⟨hlast, hmore⟩ := h.behind
  rw [appendPayloadVia, h.seat.readRecHdr, Option.bind_some]
  dsimp only
  rw [r.toNat_payloadLen, r.toNat_typeLen, r.toNat_idLen]
  unfold AppendStays
  dsimp only
  set new := u32 ((r.payload.length : Int) + bs.length) with hnew
  set incr : Nat := if r.payload.length < 256 ∧ new > 255 then 3 else 0 with hincr
  -- where the payload ends, when the length field has its new width
  have hwide : incr = 0 ∨ incr = 3 := by
    rw [hincr]
    split <;> omega
  have hpp : (if incr ≠ 0 then recsLen A + r.head.length + r.type.length + r.id.length + 3
      else recsLen A + r.head.length + r.type.length + r.id.length) + r.payload.length =
      recsLen A + r.bytes.length + incr := by
    split <;> omega
  have hshort : 3 ≤ r.head.length := by
    rw [hhead]
    split_ifs <;> omega
  have hfirst : u32 ((m.curSize : Int) - (recsLen A + 2 : Nat) - 1) = m.curSize - recsLen A - 3 :=
    u32_eq (by omega) (by omega)
  rw [hpp, hfirst]
  refine Defined.iff (.guard trivial fun _ =>
    .bind (.ite (fun _ => hkept.down (by omega)) fun _ => .pure hkept) fun mem hm =>
    .bind (.ite (fun _ => hm.modify fun b => (Rec.sr_bits b).2.2.1) fun _ => .pure hm) fun mem hm =>
    .bind (hm.storeLen (by omega) new) fun mem hm =>
    .bind (hm.unlessLast (hm.down (by omega))) fun mem hm =>
    .map (hm.copy (by omega) (.bytes bs)) fun _ _ => trivial) (or_congr Iff.rfl ?_)
  have hlong : incr = 0 → new > 255 → 6 ≤ r.head.length := by
    intro h0 hbig
    have hprev : ¬ r.payload.length < 256 := fun hp => by
      rw [hincr, if_pos ⟨hp, hbig⟩] at h0
      cases h0
    split_ifs at hsr hhead <;> omega
  have hsmall : incr = 3 → new > 255 := by
    rw [hincr]
    split <;> omega
  clear_value incr new
  clear hincr hnew hpp hfirst hsr hhead
  unfold Src.EndsBy
  simp only [implies_true, and_true, true_and]
  by_cases hme : r.me
  · have hB := hlast hme
    rw [forall_prop_of_false (not_not.mpr hme), true_and]
    split_ifs <;> omega
  · have hB := hmore hme
    have hsecond : u32 ((m.curSize : Int) - (recsLen A + r.bytes.length + incr : Nat)) = recsLen B - incr :=
      u32_eq (by omega) (by omega)
    rw [forall_prop_of_true hme, hsecond]
    split_ifs <;> omega

theorem replaceType_stays (h : Received maxSize m A r B) (hbuf : m.mem.length = maxSize) (src : Src) :
    (replaceTypeVia guarded m maxSize (recsLen A) src).isSome ↔ TypeStays maxSize m A r src := by
  have hkept := h.kept hbuf
  have hcur := h.curSize_eq
  have hle := h.le
  have hlt := h.lt
  have hbytes := r.length_bytes
  have hhead := r.length_head
  have hshort : 3 ≤ r.head.length := by
    rw [hhead]
    split_ifs <;> omega
  rw [replaceTypeVia, h.seat.stands.hdr, Option.bind_some, h.seat.stands.typeLen, Option.bind_some]
  dsimp only
  rw [r.toNat_typeLen]
  unfold TypeStays
  have htype : recsLen A + 2 + (if has r.hdr ndefSrMask then 1 else 4) + (if has r.hdr ndefIlMask then 1 else 0) =
      recsLen A + r.head.length := by omega
  have hmoved : u32 ((m.curSize : Int) - (recsLen A + r.head.length + r.type.length : Nat)) =
      m.curSize - (recsLen A + r.head.length + r.type.length) := u32_eq (by omega) (by omega)
  rw [htype, hmoved]
  refine Defined.iff (.guard trivial fun _ => .bind (P := fun m' => Kept maxSize (recsLen A) r.me m'.mem)
    (.ite (fun _ => .map (hkept.down (by omega)) fun _ hm => hm) fun _ =>
      .ite (fun _ => .map (hkept.up (by omega) (by omega)) fun _ hm => hm) fun _ => .pure hkept) fun m' hm =>
    .bind (hm.store (by omega) _) fun mem hm =>
    .map (hm.copy (by omega) src) fun _ _ => trivial) (or_congr Iff.rfl ?_)
  simp only [implies_true, and_true]
  cases src with
  | bytes bs =>
    unfold Src.EndsBy Src.len
    dsimp only
    omega
  | reserve n =>
    unfold Src.EndsBy Src.len
    simp only [and_true]
    omega

/-- The last byte that a shift moves is found again when the size has changed first. -/
theorem u32_behind {cur grown q n : Nat} (hn : cur = q + n) (hlt : cur < 4294967296) :
    u32 ((u32 ((cur : Int) + grown) : Int) - (q + grown : Nat)) = n := by
  unfold u32
  omega

theorem growPayload_stays (h : Received maxSize m A r B) (hbuf : m.mem.length = maxSize) {n : Nat}
    (hgrow : r.payload.length < n) :
    let wide : Nat := if r.payload.length < 256 ∧ n > 255 then 3 else 0
    let q := recsLen A + r.head.length + r.type.length + r.id.length
    ¬ u32 (m.curSize + (n - r.payload.length : Nat) + wide) > maxSize →
    Defined (m.curSize + wide ≤ maxSize ∧ (0 < recsLen B → m.curSize + wide + (n - r.payload.length) ≤ maxSize))
      (growPayloadVia guarded m maxSize (recsLen A) r.payload.length q n)
      (fun res => res.1 = .ok ∧ Kept maxSize (recsLen A) r.me res.2.1.mem ∧ res.2.2 = q + wide) := by
  have hkept := h.kept hbuf
  have hcur := h.curSize_eq
  have hle := h.le
  have hlt := h.lt
  have hbytes := r.length_bytes
  have hhead := r.length_head
  have hsr := r.payload_lt
  obtain ⟨hlast, hmore⟩ := h.behind
  have hshort : 3 ≤ r.head.length := by
    rw [hhead]
    split_ifs <;> omega
  have hlong : ¬ r.payload.length < 256 → 6 ≤ r.head.length := by
    split_ifs at hsr hhead <;> omega
  intro wide q hroom
  have hfirst : u32 ((m.curSize : Int) - (recsLen A + 2 : Nat) - 1) = m.curSize - recsLen A - 3 :=
    u32_eq (by omega) (by omega)
  have hwide : wide = if r.payload.length < 256 ∧ n > 255 then 3 else 0 := rfl
  have hcast : (if r.payload.length < 256 ∧ n > 255 then (3 : Int) else 0) = (wide : Nat) := by
    rw [hwide]
    split <;> rfl
  rw [growPayloadVia]
  dsimp only
  rw [hcast, hfirst, if_neg hroom]
  have hstep : Defined ((r.payload.length < 256 ∧ n > 255 → m.curSize - recsLen A - 3 = 0 ∨ m.curSize + 3 ≤ maxSize))
      (if r.payload.length < 256 ∧ n > 255 then
        (guarded.down m.curSize m.mem (recsLen A + 2 + 1) (m.curSize - recsLen A - 3) 3).bind fun mem =>
          (Ndef.modify mem (recsLen A) (· &&& ~~~ndefSrMask)).map fun mem =>
            ((⟨mem, u32 (m.curSize + 3)⟩ : Msg), q + 3)
        else some (m, q))
      (fun res => Kept maxSize (recsLen A) r.me res.1.mem ∧ res.1.curSize = u32 (m.curSize + wide) ∧
        res.2 = q + wide) := by
    refine Defined.congr (.ite (fun hw => .bind (hkept.down (by omega)) fun mem hm =>
      .map (hm.modify fun b => (Rec.sr_bits b).2.2.1) fun _ hm => ⟨hm, ?_, ?_⟩) fun hw => .pure ⟨hkept, ?_, ?_⟩) ?_
    · rw [hwide, if_pos hw]
      rfl
    · rw [hwide, if_pos hw]
    · have h0 : wide = 0 := if_neg hw
      rw [h0]
      exact (u32_eq (Int.add_zero _) (Nat.lt_of_le_of_lt hle hlt)).symm
    · rw [hwide, if_neg hw]
      rfl
    · simp only [implies_true, and_true]
      omega
  refine Defined.congr (.bind (d := recsLen A + 2 + (if n > 255 then 4 else 1) ≤ maxSize ∧
    (¬ r.me → recsLen B = 0 ∨ (m.curSize + wide ≤ u32 (m.curSize + wide) ∧
      m.curSize + wide + (n - r.payload.length) ≤ maxSize))) hstep fun res hres => ?_) ?_
  · obtain ⟨⟨mem, cur⟩, q'⟩ := res
    obtain ⟨hm, hc, hq⟩ := hres
    dsimp only at hm hc hq ⊢
    have hq' : q' + r.payload.length = recsLen A + r.bytes.length + wide := by omega
    have hsecond : u32 ((cur : Int) - (q' + r.payload.length : Nat)) = recsLen B := by
      rw [hc, hq']
      exact u32_behind (by omega) (by omega)
    have hend : m.curSize + wide = q' + r.payload.length + recsLen B := by omega
    rw [hsecond, hend, ← hc]
    exact .bind (hm.storeLen (by omega) n) fun mem hm =>
      .map (hm.unlessLast (hm.down (by omega))) fun mem hm => ⟨rfl, hm, hq⟩
  · have hsmall : u32 (m.curSize + wide) ≤ m.curSize + wide := by
      unfold u32
      omega
    have hfits : m.curSize + wide ≤ maxSize → u32 (m.curSize + wide) = m.curSize + wide := fun hf =>
      u32_eq rfl (by omega)
    clear_value wide q
    clear hstep hcast hfirst hhead hsr hkept
    by_cases hme : r.me
    · have hB := hlast hme
      rw [forall_prop_of_false (not_not.mpr hme), and_true]
      split_ifs at hwide ⊢ <;> omega
    · have hB := hmore hme
      rw [forall_prop_of_true hme]
      split_ifs at hwide ⊢ <;> omega

/-- The size is taken with the old length field, which ends one byte further on. -/
theorem narrowing_reads (h : Received maxSize m A r B) (hprev : 255 < r.payload.length) {mem : Bytes} {dest : Nat} :
    guarded.up m.curSize mem dest (recsLen A + 2 + 4) (u32 ((m.curSize : Int) - (recsLen A + 2 : Nat) - 3)) = none := by
  have hcur := h.curSize_eq
  have hle := h.le
  have hlt := h.lt
  have hbytes := r.length_bytes
  have hlen : u32 ((m.curSize : Int) - (recsLen A + 2 : Nat) - 3) = m.curSize - recsLen A - 5 :=
    u32_eq (by omega) (by omega)
  rw [hlen]
  exact if_neg (by omega)

theorem shrinkPayload_stays (h : Received maxSize m A r B) (hbuf : m.mem.length = maxSize) {n : Nat}
    (hshrink : n < r.payload.length) :
    let q := recsLen A + r.head.length + r.type.length + r.id.length
    Defined (¬ (255 < r.payload.length ∧ n < 256)) (shrinkPayloadVia guarded m (recsLen A) r.payload.length q n)
      (fun res => res.1 = .ok ∧ Kept maxSize (recsLen A) r.me res.2.1.mem ∧ res.2.2 = q) := by
  have hkept := h.kept hbuf
  have hcur := h.curSize_eq
  have hle := h.le
  have hlt := h.lt
  have hbytes := r.length_bytes
  have hhead := r.length_head
  have hsr := r.payload_lt
  have hshort : 3 ≤ r.head.length := by
    rw [hhead]
    split_ifs <;> omega
  have hlong : ¬ r.payload.length < 256 → 6 ≤ r.head.length := by
    split_ifs at hsr hhead <;> omega
  intro q
  have hq : q + r.payload.length = recsLen A + r.bytes.length := by omega
  have hsecond : u32 ((m.curSize : Int) - (q + r.payload.length : Nat)) = recsLen B :=
    u32_eq (by omega) (by omega)
  unfold shrinkPayloadVia
  dsimp only
  by_cases hn : r.payload.length > 255 ∧ n < 256
  · rw [if_pos hn, narrowing_reads h hn.1]
    exact Defined.fault.congr (iff_of_false id fun hc => hc hn)
  · rw [if_neg hn, Option.bind_some]
    dsimp only
    rw [hsecond]
    refine Defined.congr (.bind (hkept.storeLen (by omega) n) fun mem hm =>
      .map (hm.unlessLast (hm.up (by omega) (by omega))) fun mem hm => ⟨rfl, hm, rfl⟩) ?_
    apply iff_of_true _ hn
    refine ⟨?_, fun _ => by omega⟩
    split <;> omega

theorem replacePayload_stays (h : Received maxSize m A r B) (hbuf : m.mem.length = maxSize) (src : Src) :
    (replacePayloadVia guarded m maxSize (recsLen A) src).isSome ↔ PayloadStays maxSize m A B r src := by
  have hkept := h.kept hbuf
  have hcur := h.curSize_eq
  have hle := h.le
  have hbytes := r.length_bytes
  have hhead := r.length_head
  rw [replacePayloadVia, h.seat.readRecHdr, Option.bind_some]
  dsimp only
  rw [r.toNat_payloadLen, r.toNat_typeLen, r.toNat_idLen]
  unfold PayloadStays
  set wide : Nat := if r.payload.length < 256 ∧ src.len > 255 then 3 else 0 with hwide
  -- the new payload goes where the length is set
  have hcopy : ∀ (res : NdefStatus × Msg × Nat) (k : Nat), (res.1 = .ok ∧ Kept maxSize (recsLen A) r.me res.2.1.mem ∧
      res.2.2 = recsLen A + r.head.length + r.type.length + r.id.length + k) →
      Defined (src.EndsBy (recsLen A + r.head.length + r.type.length + r.id.length + k) maxSize)
        (if res.1 = .ok then (guarded.copy res.2.1.mem res.2.2 src).map fun mem => (.ok, ⟨mem, res.2.1.curSize⟩)
          else some (res.1, res.2.1) : Option (NdefStatus × Msg)) fun _ => True := by
    intro res k ⟨hok, hm, hq⟩
    rw [if_pos hok, hq]
    exact .map (hm.copy (by omega) src) fun _ _ => trivial
  by_cases hgrow : r.payload.length < src.len
  · rw [if_pos hgrow, if_pos hgrow]
    by_cases hroom : u32 (m.curSize + (src.len - r.payload.length : Nat) + wide) > maxSize
    · have hcast : (if r.payload.length < 256 ∧ src.len > 255 then (3 : Int) else 0) = (wide : Nat) := by
        rw [hwide]
        split <;> rfl
      rw [growPayloadVia, hcast, if_pos hroom]
      exact iff_of_true rfl (.inl hroom)
    · rw [or_iff_right hroom]
      exact (Defined.bind (growPayload_stays h hbuf hgrow hroom) fun res hres => hcopy res wide hres).isSome
  · have hfits : src.EndsBy (recsLen A + r.head.length + r.type.length + r.id.length + 0) maxSize := by
      cases src with
      | bytes bs =>
        unfold Src.len at hgrow
        exact .inr (by dsimp only at hgrow; omega)
      | reserve n => exact trivial
    rw [if_neg hgrow, if_neg hgrow]
    split
    case isTrue hshrink =>
      refine (Defined.bind (shrinkPayload_stays h hbuf hshrink) fun res hres => hcopy res 0 hres).iff ?_
      exact and_iff_left hfits
    case isFalse hsame =>
      rw [Option.bind_some]
      refine (hcopy (.ok, m, _) 0 ⟨rfl, hkept, rfl⟩).iff ?_
      exact iff_of_true hfits (by omega)

/-- The IL bit is not the ME bit. -/
theorem il_bits (b : UInt8) : (has (b ||| ndefIlMask) ndefMeMask ↔ has b ndefMeMask) ∧
    (has (b &&& ~~~ndefIlMask) ndefMeMask ↔ has b ndefMeMask) := by
  revert b
  decide +kernel

section
variable (h : Received maxSize m A r B)
include h

theorem growId_stays (hbuf : m.mem.length = maxSize) {n : Nat} :
    let short : Nat := if r.id.length = 0 then 1 else 0
    let f := recsLen A + 2 + (if has r.hdr ndefSrMask then 1 else 4)
    let q := recsLen A + r.head.length + r.type.length
    ¬ u32 (m.curSize + (n - r.id.length : Nat) + short) > maxSize →
    Defined ((r.id.length = 0 → m.curSize = f ∨ m.curSize < maxSize) ∧
        (q + r.id.length < m.curSize → m.curSize + short + (n - r.id.length) ≤ maxSize))
      (growIdVia guarded m maxSize (recsLen A) r.id.length f q n)
      (fun res => res.1 = .ok ∧ Kept maxSize (recsLen A) r.me res.2.1.mem ∧ res.2.2 = q + short) := by
  have hkept := h.kept hbuf
  have hcur := h.curSize_eq
  have hle := h.le
  have hlt := h.lt
  have hbytes := r.length_bytes
  have hhead := r.length_head
  intro short f q hroom
  have hshort : short = if r.id.length = 0 then 1 else 0 := rfl
  have hf : f ≤ m.curSize := by omega
  have hfirst : u32 ((m.curSize : Int) - f) = m.curSize - f := u32_eq (by omega) (by omega)
  have hcast : (if r.id.length = 0 then (1 : Int) else 0) = (short : Nat) := by
    rw [hshort]
    split <;> rfl
  rw [growIdVia]
  dsimp only
  rw [hcast, hfirst, if_neg hroom]
  have hstep : Defined (r.id.length = 0 → m.curSize - f = 0 ∨ m.curSize < maxSize)
      (if r.id.length = 0 then
        (guarded.down m.curSize m.mem f (m.curSize - f) 1).bind fun mem =>
          (Ndef.modify mem (recsLen A) (· ||| ndefIlMask)).map fun mem =>
            ((⟨mem, u32 (m.curSize + 1)⟩ : Msg), q + 1)
        else some (m, q))
      (fun res => Kept maxSize (recsLen A) r.me res.1.mem ∧ res.1.curSize = u32 (m.curSize + short) ∧
        res.2 = q + short) := by
    refine Defined.congr (.ite (fun hz => .bind (hkept.down (by omega)) fun mem hm =>
      .map (hm.modify fun b => (il_bits b).1) fun _ hm => ⟨hm, ?_, ?_⟩) fun hz => .pure ⟨hkept, ?_, ?_⟩) ?_
    · rw [hshort, if_pos hz]
      rfl
    · rw [hshort, if_pos hz]
    · have h0 : short = 0 := if_neg hz
      rw [h0]
      exact (u32_eq (Int.add_zero _) (Nat.lt_of_le_of_lt hle hlt)).symm
    · rw [hshort, if_neg hz]
      rfl
    · simp only [implies_true, and_true]
      omega
  refine Defined.congr (.bind (d := m.curSize - (q + r.id.length) = 0 ∨ (m.curSize + short ≤ u32 (m.curSize + short) ∧
    m.curSize + short + (n - r.id.length) ≤ maxSize)) hstep fun res hres => ?_) ?_
  · obtain ⟨⟨mem, cur⟩, q'⟩ := res
    obtain ⟨hm, hc, hq⟩ := hres
    dsimp only at hm hc hq ⊢
    have hq' : q' + r.id.length = q + r.id.length + short := by omega
    have hsecond : u32 ((cur : Int) - (q' + r.id.length : Nat)) = m.curSize - (q + r.id.length) := by
      rw [hc, hq']
      exact u32_behind (by omega) (by omega)
    have hend : m.curSize + short = q' + r.id.length + (m.curSize - (q + r.id.length)) := by omega
    rw [hsecond, hend, ← hc]
    exact .map (hm.down (by omega)) fun mem hm => ⟨rfl, hm, hq⟩
  · have hsmall : u32 (m.curSize + short) ≤ m.curSize + short := by
      unfold u32
      omega
    have hfits : m.curSize + short ≤ maxSize → u32 (m.curSize + short) = m.curSize + short := fun hf =>
      u32_eq rfl (by omega)
    clear hstep hcast hfirst hkept
    clear_value short
    have hinner : f ≤ q + r.id.length := by omega
    clear_value f q
    clear hhead
    split_ifs at hshort <;> omega

/-- The id length is taken out with the bytes that follow it, and two more. -/
theorem shrinkId_stays (hbuf : m.mem.length = maxSize) {n : Nat} (hshrink : n < r.id.length) :
    let f := recsLen A + 2 + (if has r.hdr ndefSrMask then 1 else 4)
    let q := recsLen A + r.head.length + r.type.length
    Defined (n ≠ 0) (shrinkIdVia guarded m (recsLen A) r.id.length f q n)
      (fun res => res.1 = .ok ∧ Kept maxSize (recsLen A) r.me res.2.1.mem ∧ res.2.2 = q) := by
  have hkept := h.kept hbuf
  have hcur := h.curSize_eq
  have hle := h.le
  have hlt := h.lt
  have hbytes := r.length_bytes
  have hhead := r.length_head
  intro f q
  have hfirst : u32 ((m.curSize : Int) - (q + r.id.length : Nat)) = m.curSize - (q + r.id.length) :=
    u32_eq (by omega) (by omega)
  have hsize : u32 ((m.curSize : Int) - (r.id.length - n : Nat)) = m.curSize - (r.id.length - n) :=
    u32_eq (by omega) (by omega)
  unfold shrinkIdVia
  dsimp only
  rw [hfirst, hsize]
  have hmove : Defined True (guarded.up m.curSize m.mem (q + r.id.length - (r.id.length - n)) (q + r.id.length)
      (m.curSize - (q + r.id.length))) (Kept maxSize (recsLen A) r.me) :=
    (hkept.up (by omega) (by omega)).congr (iff_true_intro (by omega))
  by_cases hn : n = 0
  · have hlen : u32 (((m.curSize - (r.id.length - n) : Nat) : Int) - ((f : Int) - 1)) =
        m.curSize - (r.id.length - n) + 1 - f := u32_eq (by omega) (by omega)
    refine (Defined.bind (d := False) hmove fun mem hm => ?_).congr (iff_of_false And.right (not_not.mpr hn))
    rw [if_pos hn, hlen]
    have hnone : guarded.up (m.curSize - (r.id.length - n)) mem f (f + 1) (m.curSize - (r.id.length - n) + 1 - f) = none :=
      if_neg (by omega)
    rw [hnone]
    exact .fault
  · refine (Defined.bind (d := True) hmove fun mem hm => ?_).congr (iff_of_true ⟨trivial, trivial⟩ hn)
    rw [if_neg hn]
    exact .pure ⟨rfl, hm, rfl⟩

theorem replaceId_stays (hbuf : m.mem.length = maxSize) (src : Src) :
    (replaceIdVia guarded m maxSize (recsLen A) src).isSome ↔ IdStays maxSize m A r src := by
  have hkept := h.kept hbuf
  have hcur := h.curSize_eq
  have hle := h.le
  have hbytes := r.length_bytes
  have hhead := r.length_head
  rw [replaceIdVia, h.seat.stands.hdr, Option.bind_some, h.seat.stands.typeLen, Option.bind_some]
  dsimp only
  rw [h.seat.stands.readIdLen, Option.bind_some]
  dsimp only
  rw [r.toNat_typeLen, r.toNat_idLen]
  unfold IdStays
  dsimp only
  set short : Nat := if r.id.length = 0 then 1 else 0 with hshort
  set f := recsLen A + 2 + (if has r.hdr ndefSrMask then 1 else 4) with hf
  -- the new id goes behind the type
  have hcopy : ∀ (res : NdefStatus × Msg × Nat) (k : Nat), (res.1 = .ok ∧ Kept maxSize (recsLen A) r.me res.2.1.mem ∧
      res.2.2 = recsLen A + r.head.length + r.type.length + k) →
      Defined (src.len ≠ 0 → f < maxSize ∧ src.EndsBy (recsLen A + r.head.length + r.type.length + k) maxSize)
        (if res.1 = .ok ∧ src.len ≠ 0 then
          (store res.2.1.mem f (UInt8.ofNat src.len)).bind fun mem =>
            (guarded.copy mem res.2.2 src).map fun mem => (.ok, ⟨mem, res.2.1.curSize⟩)
          else some (res.1, res.2.1) : Option (NdefStatus × Msg)) fun _ => True := by
    intro res k ⟨hok, hm, hq⟩
    rw [hok, hq]
    refine Defined.congr (.ite (fun _ => .bind (hm.store (by omega) _) fun mem hm =>
      .map (hm.copy (by omega) src) fun _ _ => trivial) fun _ => .pure trivial) ?_
    simp only [true_and, implies_true, and_true]
  by_cases hgrow : r.id.length < src.len
  · rw [if_pos hgrow, if_pos hgrow]
    by_cases hroom : u32 (m.curSize + (src.len - r.id.length : Nat) + short) > maxSize
    · have hcast : (if r.id.length = 0 then (1 : Int) else 0) = (short : Nat) := by
        rw [hshort]
        split <;> rfl
      rw [growIdVia, hcast, if_pos hroom]
      exact iff_of_true rfl (.inl hroom)
    · rw [or_iff_right hroom]
      refine (Defined.bind (growId_stays h hbuf hroom) fun res hres => hcopy res short hres).iff ?_
      have hempty : r.id.length = 0 → short = 1 := fun hz => by rw [hshort, if_pos hz]
      have hsome : r.id.length ≠ 0 → short = 0 := fun hz => by rw [hshort, if_neg hz]
      constructor
      · intro ⟨⟨hone, hall⟩, hrest⟩
        obtain ⟨hfield, hsrc⟩ := hrest (Nat.ne_zero_of_lt hgrow)
        exact ⟨by omega, hall, hsrc⟩
      · intro ⟨hone, hall, hsrc⟩
        exact ⟨⟨by omega, hall⟩, fun _ => ⟨by omega, hsrc⟩⟩
  · rw [if_neg hgrow, if_neg hgrow]
    have hfits : src.EndsBy (recsLen A + r.head.length + r.type.length + 0) maxSize := by
      cases src with
      | bytes bs =>
        unfold Src.len at hgrow
        exact .inr (by dsimp only at hgrow; omega)
      | reserve n => exact trivial
    split
    case isTrue hshrink =>
      refine (Defined.bind (shrinkId_stays h hbuf hshrink) fun res hres => hcopy res 0 hres).iff ?_
      exact ⟨fun hn hz => absurd hz hn.1, fun hn => ⟨fun hz => by have := hn hz; omega, fun _ => ⟨by omega, hfits⟩⟩⟩
    case isFalse hsame =>
      rw [Option.bind_some]
      refine (hcopy (.ok, m, _) 0 ⟨rfl, hkept, rfl⟩).iff ?_
      exact iff_of_true (fun _ => ⟨by omega, hfits⟩) fun hz => by omega

theorem Received.walks : Walks m.mem (A ++ r :: B) := by
  have hcur := h.curSize_eq
  have hle := h.le
  have hlt := h.lt
  refine walks_of_records ⟨[], m.mem.drop m.curSize, ?_, rfl, ?_⟩ h.ends
  · rw [List.nil_append, ← h.bytes, List.take_append_drop]
  · rw [recsLen_place]
    omega

/-- Another record of the message. -/
theorem Received.other {A' B' : List Rec} {r' : Rec}
    (heq : A ++ r :: B = A' ++ r' :: B') : Received maxSize m A' r' B' :=
  ⟨heq ▸ h.bytes, heq ▸ h.ends, h.le, h.room, h.lt⟩

/-- The records from one on are moved to the front. -/
theorem Received.moves {mem : Bytes} (hlen : mem.length = maxSize) {dest : Nat}
    (hdest : dest ≤ recsLen A) :
    (guarded.up m.curSize mem dest (recsLen A) (u32 ((m.curSize : Int) - (recsLen A : Nat)))).isSome := by
  have hcur := h.curSize_eq
  have hle := h.le
  have hlt := h.lt
  have hmoved : u32 ((m.curSize : Int) - (recsLen A : Nat)) = m.curSize - recsLen A := u32_eq (by omega) (by omega)
  rw [hmoved]
  exact (up_defined hlen hdest).isSome.mpr (by omega)

/-- The header byte of a record is there. -/
theorem Received.marks (f : UInt8 → UInt8) :
    ∃ mem, modify m.mem (recsLen A) f = some mem ∧ mem.length = m.mem.length := by
  have hget := h.seat.stands.hdr
  have hlt := (List.getElem?_eq_some_iff.mp hget).1
  refine ⟨m.mem.set (recsLen A) (f r.hdr), ?_, List.length_set⟩
  rw [modify, hget, Option.bind_some, store, if_pos hlt]

theorem Received.indexed (index : Int) :
    ndefMsgGetRecByIndex m.mem index = some none ∨
      ∃ A' r' B', Received maxSize m A' r' B' ∧ ndefMsgGetRecByIndex m.mem index = some (some (recsLen A')) := by
  rw [h.walks.recByIndex]
  split
  case isTrue hin =>
    have hlt : index.toNat < (A ++ r :: B).length := by omega
    refine .inr ⟨(A ++ r :: B).take index.toNat, (A ++ r :: B)[index.toNat], (A ++ r :: B).drop (index.toNat + 1),
      h.other ?_, rfl⟩
    rw [← List.drop_eq_getElem_cons hlt, List.take_append_drop]
  case isFalse => exact .inl rfl

theorem removeRec_stays (hbuf : m.mem.length = maxSize) (index : Int) :
    (removeRecVia guarded m index).isSome := by
  rw [removeRecVia]
  rcases h.indexed index with hnone | ⟨A₁, r₁, B₁, h₁, hsome⟩
  · rw [hnone]
    rfl
  rw [hsome, Option.bind_some]
  dsimp only
  rw [h₁.seat.stands.hdr, Option.bind_some]
  split
  · -- the records from the second on
    rcases h.indexed 1 with hnone | ⟨A₂, r₂, B₂, h₂, hnext⟩
    · rw [hnone]
      rfl
    · obtain ⟨mem, hmark, hlen⟩ := h₂.marks (· ||| ndefMbMask)
      rw [hnext, Option.bind_some]
      dsimp only
      rw [hmark, Option.bind_some, Option.isSome_map]
      exact h₂.moves (hlen.trans hbuf) (Nat.zero_le _)
  · split
    · -- the record before it is the last one now
      rw [Option.isSome_map]
      split
      · rcases h.indexed (index - 1) with hnone | ⟨A₂, r₂, B₂, h₂, hprev⟩
        · rw [hnone]
          rfl
        · obtain ⟨mem, hmark, -⟩ := h₂.marks (· ||| ndefMeMask)
          rw [hprev, Option.bind_some]
          dsimp only
          rw [hmark]
          rfl
      · rfl
    · rw [h₁.walks.nextRec A₁ r₁ B₁ rfl, Option.bind_some]
      cases B₁ with
      | nil => rfl
      | cons r₂ B₂ =>
        have h₂ : Received maxSize m (A₁ ++ [r₁]) r₂ B₂ := h₁.other (by rw [List.append_assoc]; rfl)
        rw [if_neg (List.cons_ne_nil r₂ B₂)]
        dsimp only
        rw [Option.isSome_map]
        exact h₂.moves hbuf (by rw [recsLen_append]; omega)

end

theorem me_bits (b : UInt8) : has (b ||| ndefMeMask) ndefMeMask := by
  revert b
  decide +kernel

theorem startRec_defined (h : Received maxSize m A r B) (hbuf : m.mem.length = maxSize) (tnf : UInt8) :
    Defined (m.curSize < maxSize) (startRec m tnf) (Kept maxSize m.curSize True) := by
  have hcur := h.curSize_eq
  have hpos := r.three_le_length
  have hne : A ++ r :: B ≠ [] := List.append_ne_nil_of_right_ne_nil A (List.cons_ne_nil r B)
  have hlast : Received maxSize m (A ++ r :: B).dropLast ((A ++ r :: B).getLast hne) [] :=
    h.other (List.dropLast_append_getLast hne).symm
  obtain ⟨mem, hmark, hlen⟩ := hlast.marks (· &&& ~~~ndefMeMask)
  rw [startRec, if_neg (by omega), h.walks.lastRec, Option.bind_some, hmark, Option.bind_some]
  refine ⟨(store_defined (hlen.trans hbuf) _).isSome, fun mem' hs => ?_⟩
  obtain ⟨rfl, hlt⟩ := store_some hs
  exact ⟨by rw [List.length_set, hlen, hbuf], tnf ||| ndefMeMask, List.getElem?_set_self hlt,
    iff_true_intro (me_bits tnf)⟩

theorem Src.endsBy_of_len {src : Src} {q n : Nat} : (src.len ≠ 0 → src.EndsBy q n) ↔ src.EndsBy q n := by
  refine ⟨fun h => ?_, fun h _ => h⟩
  cases src with
  | bytes bs => exact or_iff_not_imp_left.mpr fun hne => (h hne).resolve_left hne
  | reserve k => exact trivial

theorem addRec_stays (h : Received maxSize m A r B) (hbuf : m.mem.length = maxSize) (tnf : UInt8)
    (type id payload : Src) :
    (addRecVia guarded m maxSize tnf type id payload).isSome ↔ AddStays maxSize m tnf type id payload := by
  have hcur := h.curSize_eq
  unfold addRecVia AddStays
  dsimp only
  set plen : Nat := if payload.len < 256 then 1 else 4 with hplen
  set ilen : Nat := if id.len = 0 then 0 else 1 with hilen
  set type' := if tnf > ndefTnfReserved then .bytes [] else type
  set tnf' := if tnf > ndefTnfReserved then ndefTnfUnknown else tnf
  have hlen : plen = 1 ∨ plen = 4 := by
    rw [hplen]
    split <;> omega
  refine Defined.iff (.guard trivial fun _ => .bind (startRec_defined h hbuf tnf') fun mem hm =>
    .bind (.ite (fun _ => hm.modify fun b => (Rec.sr_bits b).2.1) fun _ => .pure hm) fun mem hm =>
    .bind (.ite (fun _ => hm.modify fun b => (il_bits b).1) fun _ => .pure hm) fun mem hm =>
    .bind (hm.store (by omega) _) fun mem hm =>
    .bind (.ite (fun _ => hm.store (by omega) _) fun _ =>
      (memcpy_defined hm.length _).mono fun _ hk => hm.of_keeps hk (by omega)) fun mem hm =>
    .bind (.ite (fun _ => hm.store (by omega) _) fun _ => .pure hm) fun mem hm =>
    .bind (.ite (fun _ => hm.copy (by omega) type') fun _ => .pure hm) fun mem hm =>
    .bind (.ite (fun _ => hm.copy (by omega) id) fun _ => .pure hm) fun mem hm =>
    .map (hm.copy (by omega) payload) fun _ _ => trivial) (or_congr Iff.rfl ?_)
  simp only [implies_true, and_true, true_and, Src.endsBy_of_len]
  have hone : ilen = 0 ∨ ilen = 1 := by
    rw [hilen]
    split <;> omega
  have hfour : (uint32ToBeStream (UInt32.ofNat payload.len)).length = 4 := rfl
  rw [hfour]
  clear_value plen ilen
  constructor
  · intro ⟨hhdr, htype, ⟨hsmall, hbig⟩, hid, hfields⟩
    exact ⟨by omega, hfields⟩
  · intro ⟨hbody, hfields⟩
    exact ⟨by omega, by omega, ⟨by omega, by omega⟩, by omega, hfields⟩

end Functions

/-- Exactly when the edits of a record of an accepted message access no byte behind the buffer, and
move none from behind the message. -/
theorem edits_stay {maxSize : Nat} {m : Msg} {allowChunks : Bool} {A B : List Rec} {r : Rec}
    (hcur : m.curSize ≤ maxSize) (hbuf : m.mem.length = maxSize) (hlt : maxSize < 4294967296)
    (hmsg : m.mem.take m.curSize = recsBytes (A ++ r :: B))
    (hok : ndefMsgValidate (some (m.mem.take m.curSize)) (UInt32.ofNat m.curSize) allowChunks = some .ok) :
    (∀ tnf type id payload, (addRecVia guarded m maxSize tnf type id payload).isSome ↔
      AddStays maxSize m tnf type id payload) ∧
    (∀ bs, (appendPayloadVia guarded m maxSize (recsLen A) bs).isSome ↔ AppendStays maxSize m A B r bs.length) ∧
    (∀ src, (replacePayloadVia guarded m maxSize (recsLen A) src).isSome ↔ PayloadStays maxSize m A B r src) ∧
    (∀ src, (replaceTypeVia guarded m maxSize (recsLen A) src).isSome ↔ TypeStays maxSize m A r src) ∧
    (∀ src, (replaceIdVia guarded m maxSize (recsLen A) src).isSome ↔ IdStays maxSize m A r src) ∧
    (∀ index, (removeRecVia guarded m index).isSome) := by
  have hlen : (m.mem.take m.curSize).length = (UInt32.ofNat m.curSize).toNat := by
    simp
    omega
  have h : Received maxSize m A r B := ⟨hmsg, endsOnce_of_accepted hlen hmsg hok, hcur, hbuf.ge, hlt⟩
  exact ⟨addRec_stays h hbuf, append_stays h hbuf, replacePayload_stays h hbuf, replaceType_stays h hbuf,
    replaceId_stays h hbuf, removeRec_stays h hbuf⟩

/-- A record with a type and an id, and no payload. -/
def namedRec : Rec := ⟨0xD9, [0x54], [0x78], [], text_type_lt, by decide, by decide, by decide⟩

theorem edits_stay_named : (appendPayloadVia guarded ⟨namedRec.bytes ++ [0, 0], 6⟩ 8 0 [1, 2]).isSome ∧
    ¬ (replaceIdVia guarded ⟨namedRec.bytes ++ [0, 0], 6⟩ 8 0 (.bytes [])).isSome := by
  obtain ⟨-, happend, -, -, hid, -⟩ := @edits_stay 8 ⟨namedRec.bytes ++ [0, 0], 6⟩ false [] [] namedRec
    (by decide) (by decide) (by decide) (by decide) (by decide)
  refine ⟨(happend [1, 2]).mpr ?_, fun hsome => ?_⟩
  · exact .inr ⟨by decide, fun hlt => absurd hlt (by decide), by decide⟩
  · exact absurd ((hid (.bytes [])).mp hsome rfl) (by decide)

/-- An id taken out of a full buffer, and a payload length for which the size wraps. -/
theorem reads_behind_and_writes_behind :
    ndefMsgValidate (some namedRec.bytes) 6 false = some .ok ∧
    ndefMsgReplaceId ⟨namedRec.bytes, 6⟩ 6 0 (.bytes []) = none ∧
    ndefMsgValidate (some [0xD5, 0, 0]) 3 false = some .ok ∧
    ndefMsgAddRec ⟨[0xD5, 0, 0, 0, 0, 0, 0, 0], 3⟩ 8 5 (.bytes []) (.bytes []) (.reserve 4294967290) = none := by
  decide

end NfcStack.Ndef
