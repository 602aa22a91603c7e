import NfcStack.Ndef.Record

/- NDEF records of the framework (`NdefRecord.java`): the constructor, the parser and the
   writer. A record of the framework is a logical one: its payload is in one piece, and
   where it stands in a message is not part of it. The parser takes the chunks of a record
   together.

   Bytes are read off the front of a buffer; a read past its end is an exception, which the
   parser turns into a `FormatException`. The errors are the texts of these exceptions.

   What is proved:
     1. `parseRecord_bytes`: on the bytes of a record, the parser does what `judgeRec` says.
     2. `exists_rec_of_parseRecord`: what the parser takes off the buffer are the bytes of a
        record. -/
namespace NfcStack.Framework
open NfcStack.Ndef

/-! ## Records -/

abbrev maxPayloadSize : Nat := 10 * 2 ^ 20

inductive FormatError where
  | expectedMbFlag
  | unexpectedMbFlag
  | unexpectedIlFlag
  | unexpectedMeFlag
  | expectedTnfUnchanged
  | unexpectedTnfUnchanged
  | expectedZeroLengthType
  | payloadAboveMaxLimit
  | expectedNonZeroTypeLength
  | invalidTnf (e : String)
  | expectedMoreData
  | trailingData
  deriving DecidableEq, Repr

/-- `String.format("%02x", n)`. -/
def hex2 (n : Nat) : String :=
  let digits := String.ofList (Nat.toDigits 16 n)
  if digits.length < 2 then "0" ++ digits else digits

/-- `validateTnf`: none if it is valid. A `short` is taken without its sign, as `%02x` does. -/
def validateTnf (tnf : Nat) (type id payload : Bytes) : Option String :=
  match tnf with
  | 0 =>
    if type.length ≠ 0 ∨ id.length ≠ 0 ∨ payload.length ≠ 0 then some "unexpected data in TNF_EMPTY record"
    else none
  | 1 | 2 | 3 | 4 => none
  | 5 | 7 =>
    if type.length ≠ 0 then some "unexpected type field in TNF_UNKNOWN or TNF_RESERVEd record" else none
  | 6 => some "unexpected TNF_UNCHANGED in first chunk or logical record"
  | n => some ("unexpected tnf value=0x" ++ hex2 n)

/-- A record that the constructor accepts. -/
structure NdefRecord where
  tnf : Nat
  type : Bytes
  id : Bytes
  payload : Bytes
  valid : validateTnf tnf type id payload = none
  deriving DecidableEq

/-- `NdefRecord(short, byte[], byte[], byte[])`; null is an empty array. -/
def newNdefRecord (tnf : Nat) (type id payload : Bytes) : Option NdefRecord :=
  if h : validateTnf tnf type id payload = none then some ⟨tnf, type, id, payload, h⟩ else none

theorem newNdefRecord_eq_some (tnf : Nat) (type id payload : Bytes) (r : NdefRecord) :
    newNdefRecord tnf type id payload = some r ↔
      r.tnf = tnf ∧ r.type = type ∧ r.id = id ∧ r.payload = payload := by
  unfold newNdefRecord
  constructor
  · intro h
    split at h
    · obtain rfl := Option.some.inj h
      exact ⟨rfl, rfl, rfl, rfl⟩
    · cases h
  · rintro ⟨rfl, rfl, rfl, rfl⟩
    exact dif_pos r.valid

/-! ## Reading a buffer -/

def getByte : Bytes → Except FormatError (UInt8 × Bytes)
  | [] => .error .expectedMoreData
  | b :: rest => .ok (b, rest)

def getInt : Bytes → Except FormatError (Nat × Bytes)
  | b0 :: b1 :: b2 :: b3 :: rest =>
    .ok ((b3.toUInt32 + (b2.toUInt32 <<< 8) + (b1.toUInt32 <<< 16) + (b0.toUInt32 <<< 24)).toNat, rest)
  | _ => .error .expectedMoreData

def getBytes (n : Nat) (buf : Bytes) : Except FormatError (Bytes × Bytes) :=
  if n ≤ buf.length then .ok (buf.take n, buf.drop n) else .error .expectedMoreData

def getPayloadLength (flag : UInt8) (buf : Bytes) : Except FormatError (Nat × Bytes) :=
  if has flag ndefSrMask then (getByte buf).map fun r => (r.1.toNat, r.2) else getInt buf

def getIdLength (flag : UInt8) (buf : Bytes) : Except FormatError (Nat × Bytes) :=
  if has flag ndefIlMask then (getByte buf).map fun r => (r.1.toNat, r.2) else .ok (0, buf)

/-! ## The parser -/

/-- The local variables of `parse`. -/
structure ParseState where
  records : List NdefRecord
  type : Bytes
  id : Bytes
  chunks : List Bytes
  inChunk : Bool
  chunkTnf : Nat

def parseInit : ParseState := ⟨[], [], [], [], false, 0⟩

def checkFlags (ignoreMbMe : Bool) (st : ParseState) (flag : UInt8) : Except FormatError Unit :=
  if ¬ has flag ndefMbMask ∧ st.records.length = 0 ∧ ¬ st.inChunk ∧ ¬ ignoreMbMe then .error .expectedMbFlag
  else if has flag ndefMbMask ∧ (st.records.length ≠ 0 ∨ st.inChunk) ∧ ¬ ignoreMbMe then .error .unexpectedMbFlag
  else if st.inChunk ∧ has flag ndefIlMask then .error .unexpectedIlFlag
  else if has flag ndefCfMask ∧ has flag ndefMeMask then .error .unexpectedMeFlag
  else if st.inChunk ∧ flag &&& ndefTnfMask ≠ ndefTnfUnchanged then .error .expectedTnfUnchanged
  else if ¬ st.inChunk ∧ flag &&& ndefTnfMask = ndefTnfUnchanged then .error .unexpectedTnfUnchanged
  else .ok ()

/-- A logical record is complete. -/
def addRecord (st : ParseState) (tnf : Nat) (payload : Bytes) : Except FormatError ParseState :=
  match h : validateTnf tnf st.type st.id payload with
  | some e => .error (.invalidTnf e)
  | none => .ok { st with
      records := st.records ++ [⟨tnf, st.type, st.id, payload, h⟩]
      inChunk := false }

/-- What is done with the payload of a record: `cf` says whether chunks follow. -/
def addPayload (st : ParseState) (cf : Bool) (tnf typeLength : Nat) (payload : Bytes) :
    Except FormatError ParseState :=
  if cf then
    if st.inChunk then .ok { st with chunks := st.chunks ++ [payload] }
    else if typeLength = 0 ∧ tnf ≠ 5 then .error .expectedNonZeroTypeLength
    else .ok { st with chunks := [payload], chunkTnf := tnf, inChunk := true }
  else if st.inChunk then
    let flat := (st.chunks ++ [payload]).flatten
    if flat.length > maxPayloadSize then .error .payloadAboveMaxLimit
    else addRecord { st with chunks := st.chunks ++ [payload] } st.chunkTnf flat
  else addRecord st tnf payload

/-- The type and the id, which a chunk behind the first does not have. -/
def readTypeId (st : ParseState) (typeLength idLength : Nat) (buf : Bytes) : Except FormatError (ParseState × Bytes) :=
  if st.inChunk then
    if typeLength ≠ 0 then .error .expectedZeroLengthType else .ok (st, buf)
  else
    (getBytes typeLength buf).bind fun t => (getBytes idLength t.2).map fun i =>
      ({ st with type := t.1, id := i.1 }, i.2)

/-- One pass of the loop: the state, whether ME is set, and the rest of the buffer. -/
def parseRecord (ignoreMbMe : Bool) (st : ParseState) (buf : Bytes) :
    Except FormatError (ParseState × UInt8 × Bytes) :=
  (getByte buf).bind fun f => (checkFlags ignoreMbMe st f.1).bind fun _ =>
    (getByte f.2).bind fun t => (getPayloadLength f.1 t.2).bind fun p => (getIdLength f.1 p.2).bind fun i =>
      (readTypeId st t.1.toNat i.1 i.2).bind fun s =>
        if p.1 > maxPayloadSize then .error .payloadAboveMaxLimit
        else (getBytes p.1 s.2).bind fun d =>
          (addPayload s.1 (has f.1 ndefCfMask) (f.1 &&& ndefTnfMask).toNat t.1.toNat d.1).map fun st' =>
            (st', f.1, d.2)

def parseLoop (ignoreMbMe : Bool) : Nat → ParseState → Bytes → Except FormatError (List NdefRecord × Bytes)
  | 0, _, _ => .error .expectedMoreData
  | n + 1, st, buf =>
    (parseRecord ignoreMbMe st buf).bind fun r =>
      if has r.2.1 ndefMeMask ∨ (ignoreMbMe ∧ ¬ has r.2.1 ndefCfMask) then .ok (r.1.records, r.2.2)
      else parseLoop ignoreMbMe n r.1 r.2.2

/-- `NdefRecord.parse`. Each pass takes at least three bytes. -/
def parse (buf : Bytes) (ignoreMbMe : Bool) : Except FormatError (List NdefRecord × Bytes) :=
  parseLoop ignoreMbMe (buf.length + 1) parseInit buf

/-! ## The parser on the bytes of a record -/

/-- The payload of a record, of which the type and the id have been read. -/
def judgePayload (st : ParseState) (r : Rec) : Except FormatError ParseState :=
  if r.payload.length > maxPayloadSize then .error .payloadAboveMaxLimit
  else addPayload st (has r.hdr ndefCfMask) r.tnf.toNat r.type.length r.payload

/-- What one pass of the loop makes of a record. -/
def judgeRec (ignoreMbMe : Bool) (st : ParseState) (r : Rec) : Except FormatError ParseState :=
  (checkFlags ignoreMbMe st r.hdr).bind fun _ =>
    if st.inChunk then
      if r.type.length ≠ 0 then .error .expectedZeroLengthType else judgePayload st r
    else judgePayload { st with type := r.type, id := r.id } r

section Bytes
variable {ignoreMbMe : Bool} {st st' : ParseState} {flag : UInt8} {buf rest : Bytes}

theorem getBytes_append {n : Nat} {field : Bytes} (h : field.length = n) :
    getBytes n (field ++ rest) = .ok (field, rest) := by
  subst h
  unfold getBytes
  rw [if_pos (by rw [List.length_append]; omega), List.take_left, List.drop_left]

theorem getPayloadLength_lenField (r : Rec) :
    getPayloadLength r.hdr (r.lenField ++ rest) = .ok (r.payload.length, rest) := by
  have hlt := r.payload_lt
  unfold getPayloadLength Rec.lenField
  by_cases hsr : has r.hdr ndefSrMask
  · rw [if_pos hsr] at hlt
    rw [if_pos hsr, if_pos hsr]
    show Except.ok ((UInt8.ofNat r.payload.length).toNat, rest) = _
    rw [UInt8.toNat_ofNat_of_lt' hlt]
  · rw [if_neg hsr] at hlt
    rw [if_neg hsr, if_neg hsr]
    unfold uint32ToBeStream
    dsimp only [List.cons_append, List.nil_append, getInt]
    rw [uint32_of_stream, UInt32.toNat_ofNat_of_lt' hlt]

theorem getIdLength_idField (r : Rec) :
    getIdLength r.hdr (r.idField ++ rest) = .ok (r.id.length, rest) := by
  unfold getIdLength Rec.idField
  by_cases hil : has r.hdr ndefIlMask
  · rw [if_pos hil, if_pos hil]
    show Except.ok ((UInt8.ofNat r.id.length).toNat, rest) = _
    rw [UInt8.toNat_ofNat_of_lt' r.id_lt]
  · rw [if_neg hil, if_neg hil, r.id_il hil]
    rfl

theorem checkFlags_ok (h : checkFlags ignoreMbMe st flag = .ok ()) :
    (st.inChunk = true → ¬ has flag ndefIlMask) ∧ ¬ (has flag ndefCfMask ∧ has flag ndefMeMask) ∧
      (flag &&& ndefTnfMask = ndefTnfUnchanged ↔ st.inChunk = true) ∧
      (ignoreMbMe = false → (has flag ndefMbMask ↔ st.records.length = 0 ∧ st.inChunk = false)) := by
  unfold checkFlags at h
  split at h
  · cases h
  rename_i hmb
  split at h
  · cases h
  rename_i hmb'
  split at h
  · cases h
  rename_i hil
  split at h
  · cases h
  rename_i hme
  split at h
  · cases h
  rename_i htnf
  split at h
  · cases h
  rename_i htnf'
  refine ⟨fun hc hi => hil ⟨hc, hi⟩, hme, ?_, fun hign => ?_⟩
  · constructor
    · intro heq
      by_contra hc
      exact htnf' ⟨hc, heq⟩
    · intro hc
      by_contra hne
      exact htnf ⟨hc, hne⟩
  · subst hign
    constructor
    · intro hset
      refine ⟨?_, ?_⟩
      · by_contra hlen
        exact hmb' ⟨hset, .inl hlen, nofun⟩
      · by_contra hc
        exact hmb' ⟨hset, .inr (by simpa using hc), nofun⟩
    · rintro ⟨hlen, hc⟩
      by_contra hnot
      exact hmb ⟨not_not.mpr hnot, hlen, by simp [hc], nofun⟩

theorem parseRecord_bytes (r : Rec) :
    parseRecord ignoreMbMe st (r.bytes ++ rest) = (judgeRec ignoreMbMe st r).map fun st' => (st', r.hdr, rest) := by
  have hbytes : r.bytes ++ rest = r.hdr :: UInt8.ofNat r.type.length ::
      (r.lenField ++ (r.idField ++ (r.type ++ (r.id ++ (r.payload ++ rest))))) := by
    unfold Rec.bytes Rec.head
    simp
  rw [hbytes]
  unfold parseRecord judgeRec
  dsimp only [getByte, Except.bind]
  cases hflags : checkFlags ignoreMbMe st r.hdr with
  | error e => rfl
  | ok u =>
    have hchunk := (checkFlags_ok hflags).1
    dsimp only
    rw [getPayloadLength_lenField]
    dsimp only
    rw [getIdLength_idField]
    dsimp only
    rw [UInt8.toNat_ofNat_of_lt' r.type_lt]
    unfold readTypeId judgePayload
    by_cases hin : st.inChunk = true
    · rw [if_pos hin, if_pos hin]
      by_cases htype : r.type.length ≠ 0
      · rw [if_pos htype, if_pos htype]
        rfl
      · rw [if_neg htype, if_neg htype]
        dsimp only
        have htype' : r.type = [] := List.eq_nil_of_length_eq_zero (not_not.mp htype)
        have hid : r.id = [] := r.id_il (hchunk hin)
        rw [htype', hid, List.nil_append, List.nil_append]
        split
        · rfl
        · rw [getBytes_append rfl]
          rfl
    · rw [if_neg hin, if_neg hin, getBytes_append rfl]
      dsimp only [Except.bind, Except.map]
      rw [getBytes_append rfl]
      dsimp only [Except.map]
      split
      · rfl
      · rw [getBytes_append rfl]
        rfl

/-! ## What the parser takes off a buffer -/

theorem error_ne_ok {α : Type} {e : FormatError} {y : α} : ¬ (Except.error e : Except FormatError α) = .ok y := by
  intro h
  cases h

theorem bind_ok {α β : Type} {x : Except FormatError α} {f : α → Except FormatError β} {y : β}
    (h : x.bind f = .ok y) : ∃ a, x = .ok a ∧ f a = .ok y := by
  cases x with
  | error e => cases h
  | ok a => exact ⟨a, rfl, h⟩

theorem map_ok {α β : Type} {x : Except FormatError α} {f : α → β} {y : β}
    (h : x.map f = .ok y) : ∃ a, x = .ok a ∧ f a = y := by
  cases x with
  | error e => cases h
  | ok a => exact ⟨a, rfl, Except.ok.inj h⟩

theorem getByte_ok {r : UInt8 × Bytes} (h : getByte buf = .ok r) : buf = r.1 :: r.2 := by
  cases buf with
  | nil => cases h
  | cons b buf =>
    obtain rfl := Except.ok.inj h
    rfl

theorem getBytes_ok {n : Nat} {r : Bytes × Bytes} (h : getBytes n buf = .ok r) : buf = r.1 ++ r.2 ∧ r.1.length = n := by
  unfold getBytes at h
  split at h
  · rename_i hle
    obtain rfl := Except.ok.inj h
    refine ⟨(List.take_append_drop n buf).symm, ?_⟩
    rw [List.length_take]
    omega
  · cases h

theorem getInt_ok {r : Nat × Bytes} (h : getInt buf = .ok r) :
    r.1 < 4294967296 ∧ buf = uint32ToBeStream (UInt32.ofNat r.1) ++ r.2 := by
  unfold getInt at h
  split at h
  · obtain rfl := Except.ok.inj h
    dsimp only
    rw [UInt32.ofNat_toNat, stream_of_uint32]
    exact ⟨UInt32.toNat_lt _, rfl⟩
  · cases h

theorem getPayloadLength_ok {r : Nat × Bytes} (h : getPayloadLength flag buf = .ok r) :
    (r.1 < if has flag ndefSrMask then 256 else 4294967296) ∧
      buf = (if has flag ndefSrMask then [UInt8.ofNat r.1] else uint32ToBeStream (UInt32.ofNat r.1)) ++ r.2 := by
  unfold getPayloadLength at h
  by_cases hsr : has flag ndefSrMask
  · rw [if_pos hsr] at h ⊢
    rw [if_pos hsr]
    obtain ⟨b, hb, rfl⟩ := map_ok h
    have hbuf := getByte_ok hb
    dsimp only
    rw [UInt8.ofNat_toNat, hbuf]
    exact ⟨b.1.toNat_lt, rfl⟩
  · rw [if_neg hsr] at h ⊢
    rw [if_neg hsr]
    exact getInt_ok h

theorem getIdLength_ok {r : Nat × Bytes} (h : getIdLength flag buf = .ok r) :
    r.1 < 256 ∧ (¬ has flag ndefIlMask → r.1 = 0) ∧
      buf = (if has flag ndefIlMask then [UInt8.ofNat r.1] else []) ++ r.2 := by
  unfold getIdLength at h
  by_cases hil : has flag ndefIlMask
  · rw [if_pos hil] at h ⊢
    obtain ⟨b, hb, rfl⟩ := map_ok h
    have hbuf := getByte_ok hb
    dsimp only
    rw [UInt8.ofNat_toNat, hbuf]
    exact ⟨b.1.toNat_lt, fun hn => absurd hil hn, rfl⟩
  · rw [if_neg hil] at h ⊢
    obtain rfl := Except.ok.inj h
    exact ⟨Nat.zero_lt_succ 255, fun _ => rfl, rfl⟩

theorem exists_rec_of_parseRecord (h : parseRecord ignoreMbMe st buf = .ok (st', flag, rest)) :
    ∃ r : Rec, r.hdr = flag ∧ buf = r.bytes ++ rest := by
  unfold parseRecord at h
  obtain ⟨f, hf, h⟩ := bind_ok h
  obtain ⟨u, hflags, h⟩ := bind_ok h
  obtain ⟨t, ht, h⟩ := bind_ok h
  obtain ⟨p, hp, h⟩ := bind_ok h
  obtain ⟨i, hi, h⟩ := bind_ok h
  obtain ⟨s, hs, h⟩ := bind_ok h
  split at h
  · cases h
  obtain ⟨d, hd, h⟩ := bind_ok h
  obtain ⟨st'', -, h⟩ := map_ok h
  obtain ⟨rfl, hflag, hrest⟩ : st'' = st' ∧ f.1 = flag ∧ d.2 = rest := by
    simpa using h
  have hbuf := getByte_ok hf
  have htbuf := getByte_ok ht
  obtain ⟨hplt, hpbuf⟩ := getPayloadLength_ok hp
  obtain ⟨hilt, hil, hibuf⟩ := getIdLength_ok hi
  obtain ⟨hdbuf, hdlen⟩ := getBytes_ok hd
  -- the type and the id are there, or the record is a chunk without them
  obtain ⟨type, id, hsbuf, htype, hid⟩ : ∃ type id : Bytes, i.2 = type ++ (id ++ s.2) ∧
      type.length = t.1.toNat ∧ id.length = i.1 := by
    unfold readTypeId at hs
    split at hs
    · rename_i hin
      split at hs
      · cases hs
      · rename_i hzero
        obtain rfl := Except.ok.inj hs
        have hno := hil ((checkFlags_ok hflags).1 hin)
        exact ⟨[], [], rfl, (not_not.mp hzero).symm, hno.symm⟩
    · obtain ⟨ty, hty, hs⟩ := bind_ok hs
      obtain ⟨idr, hidr, rfl⟩ := map_ok hs
      obtain ⟨h1, h2⟩ := getBytes_ok hty
      obtain ⟨h3, h4⟩ := getBytes_ok hidr
      exact ⟨ty.1, idr.1, by rw [h1, h3], h2, h4⟩
  refine ⟨⟨f.1, type, id, d.1, by rw [htype]; exact t.1.toNat_lt, by rw [hid]; exact hilt,
    fun hn => List.eq_nil_of_length_eq_zero (by rw [hid]; exact hil hn), by rw [hdlen]; exact hplt⟩, hflag, ?_⟩
  have hty : t.1 = UInt8.ofNat type.length := by rw [htype, UInt8.ofNat_toNat]
  rw [hty] at htbuf
  rw [← hdlen] at hpbuf
  rw [← hid] at hibuf
  unfold Rec.bytes Rec.head Rec.lenField Rec.idField
  dsimp only
  rw [hbuf, htbuf, hpbuf, hibuf, hsbuf, hdbuf, hrest]
  simp

end Bytes

end NfcStack.Framework
