import NfcStack.Framework.NdefRecord

/- NDEF messages of the framework (`NdefMessage.java`): a message is written to an array of
   the length that its records are said to have, and is parsed from one.

   The constructor of a record does not look at the lengths of its fields. The type and the
   id are written with a length of one byte, and the parser does not take a payload of more
   than ten megabytes. Lengths are added up as `int`.

   What is proved:
     1. `toByteArray_eq`: a message is written if its length is an `int`.
     2. `parse_written`: the records of a message are read back, if their lengths fit.
     3. `parse_bounded`: the lengths of records that have been parsed fit.
     4. `ndefMessage_round_trip`: which messages are read back as they were written. -/
namespace NfcStack.Framework
open NfcStack.Ndef

/-! ## Writing -/

namespace NdefRecord

def sr (r : NdefRecord) : Bool := r.payload.length < 256
def il (r : NdefRecord) : Bool := if r.tnf = 0 then true else r.id.length > 0

end NdefRecord

/-- The flags of `writeToByteBuffer`. -/
def mkFlags (tnf : UInt8) (mb me sr il : Bool) : UInt8 :=
  (if mb then ndefMbMask else 0) ||| (if me then ndefMeMask else 0) ||| (if sr then ndefSrMask else 0) |||
    (if il then ndefIlMask else 0) ||| tnf

def writeRecord (r : NdefRecord) (mb me : Bool) : Bytes :=
  [mkFlags (UInt8.ofNat r.tnf) mb me r.sr r.il, UInt8.ofNat r.type.length] ++
    (if r.sr then [UInt8.ofNat r.payload.length] else uint32ToBeStream (UInt32.ofNat r.payload.length)) ++
    (if r.il then [UInt8.ofNat r.id.length] else []) ++ r.type ++ r.id ++ r.payload

/-- The number of bytes of a record. -/
def recordLength (r : NdefRecord) : Nat :=
  3 + r.type.length + r.id.length + r.payload.length + (if r.sr then 0 else 3) + (if r.il then 1 else 0)

def toInt (x : Int) : Int := x.bmod (2 ^ 32)

def getByteLength (r : NdefRecord) : Int := toInt (recordLength r)

def getByteArrayLength (rs : List NdefRecord) : Int := rs.foldl (fun length r => toInt (length + getByteLength r)) 0

/-- The records one behind the other: MB for the first, ME for the last. -/
def written (mb : Bool) : List NdefRecord → Bytes
  | [] => []
  | r :: rs => writeRecord r mb rs.isEmpty ++ written false rs

/-- `toByteArray`: none if the length is negative, or if the records do not fit into the array. -/
def toByteArray (rs : List NdefRecord) : Option Bytes :=
  let length := getByteArrayLength rs
  if length < 0 then none
  else if (written true rs).length ≤ length.toNat then
    some (written true rs ++ List.replicate (length.toNat - (written true rs).length) 0)
  else none

def newNdefMessage (data : Bytes) : Except FormatError (List NdefRecord) :=
  (parse data false).bind fun r => if r.2.length > 0 then .error .trailingData else .ok r.1

/-- A message is read back as it was written, and its length is what it is said to be. -/
def RoundTrips (rs : List NdefRecord) : Prop :=
  ∃ bytes, toByteArray rs = some bytes ∧ newNdefMessage bytes = .ok rs ∧ (bytes.length : Int) = getByteArrayLength rs

/-- The number of bytes of a message. -/
def messageLength (rs : List NdefRecord) : Nat := (rs.map recordLength).sum

/-- The lengths of a record fit its fields, and the limit of the parser. -/
structure Bounded (r : NdefRecord) : Prop where
  type : r.type.length ≤ 255
  id : r.id.length ≤ 255
  payload : r.payload.length ≤ maxPayloadSize

/-! ## The length of a message -/

theorem length_writeRecord (r : NdefRecord) (mb me : Bool) : (writeRecord r mb me).length = recordLength r := by
  unfold writeRecord recordLength
  rw [List.length_append, List.length_append, List.length_append, List.length_append, List.length_append]
  by_cases hsr : r.sr = true
  · by_cases hil : r.il = true
    · rw [if_pos hsr, if_pos hsr, if_pos hil, if_pos hil]
      simp only [List.length_cons, List.length_nil]
      omega
    · rw [if_pos hsr, if_pos hsr, if_neg hil, if_neg hil]
      simp only [List.length_cons, List.length_nil]
      omega
  · by_cases hil : r.il = true
    · rw [if_neg hsr, if_neg hsr, if_pos hil, if_pos hil]
      simp only [List.length_cons, List.length_nil, uint32ToBeStream]
      omega
    · rw [if_neg hsr, if_neg hsr, if_neg hil, if_neg hil]
      simp only [List.length_cons, List.length_nil, uint32ToBeStream]
      omega

theorem length_written (rs : List NdefRecord) : ∀ (mb : Bool), (written mb rs).length = messageLength rs := by
  induction rs with
  | nil => exact fun _ => rfl
  | cons r rs ih =>
    intro mb
    unfold written messageLength
    rw [List.length_append, length_writeRecord, ih false, List.map_cons, List.sum_cons]
    rfl

theorem getByteArrayLength_eq (rs : List NdefRecord) : getByteArrayLength rs = toInt (messageLength rs) := by
  have hfold : ∀ (acc : Int), rs.foldl (fun length r => toInt (length + getByteLength r)) (toInt acc) =
      toInt (acc + messageLength rs) := by
    induction rs with
    | nil =>
      intro acc
      rw [List.foldl_nil]
      simp [messageLength]
    | cons r rs ih =>
      intro acc
      rw [List.foldl_cons]
      have hstep : toInt (toInt acc + getByteLength r) = toInt (acc + recordLength r) := by
        unfold toInt getByteLength toInt
        rw [Int.bmod_add_bmod, Int.add_bmod_bmod]
      rw [hstep, ih]
      unfold messageLength
      rw [List.map_cons, List.sum_cons]
      congr 1
      push_cast
      omega
  have h := hfold 0
  rw [show toInt 0 = 0 by decide, Int.zero_add] at h
  exact h

theorem toByteArray_eq (rs : List NdefRecord) :
    toByteArray rs = if messageLength rs < 2 ^ 31 then some (written true rs) else none := by
  unfold toByteArray
  dsimp only
  rw [getByteArrayLength_eq, length_written]
  unfold toInt
  split
  · rename_i hneg
    rw [if_neg]
    intro hlt
    rw [Int.bmod_eq_of_le_mul_two (by omega) (by omega)] at hneg
    omega
  · rename_i hpos
    have hle := @Int.bmod_le (messageLength rs) (2 ^ 32) (by decide)
    by_cases hlt : messageLength rs < 2 ^ 31
    · rw [if_pos hlt, Int.bmod_eq_of_le_mul_two (by omega) (by omega)]
      rw [Int.toNat_natCast, if_pos (Nat.le_refl _), Nat.sub_self]
      simp
    · rw [if_neg hlt, if_neg]
      intro hfit
      have : ((2 ^ 32 : Nat) : Int) = 4294967296 := by decide
      omega

/-! ## Reading back -/

theorem tnf_lt_of_valid {tnf : Nat} {type id payload : Bytes} (h : validateTnf tnf type id payload = none) :
    tnf < 8 ∧ tnf ≠ 6 := by
  unfold validateTnf at h
  split at h
  all_goals first | omega | cases h

theorem mkFlags_bits : ∀ (tnf : Fin 8) (mb me sr il : Bool),
    (has (mkFlags (UInt8.ofNat tnf) mb me sr il) ndefMbMask ↔ mb = true) ∧
    (has (mkFlags (UInt8.ofNat tnf) mb me sr il) ndefMeMask ↔ me = true) ∧
    (has (mkFlags (UInt8.ofNat tnf) mb me sr il) ndefSrMask ↔ sr = true) ∧
    (has (mkFlags (UInt8.ofNat tnf) mb me sr il) ndefIlMask ↔ il = true) ∧
    ¬ has (mkFlags (UInt8.ofNat tnf) mb me sr il) ndefCfMask ∧
    mkFlags (UInt8.ofNat tnf) mb me sr il &&& ndefTnfMask = UInt8.ofNat tnf := by
  decide +kernel

section Record
variable {r : NdefRecord} {mb me : Bool}

theorem NdefRecord.flags_bits (r : NdefRecord) (mb me : Bool) :
    (has (mkFlags (UInt8.ofNat r.tnf) mb me r.sr r.il) ndefMbMask ↔ mb = true) ∧
    (has (mkFlags (UInt8.ofNat r.tnf) mb me r.sr r.il) ndefMeMask ↔ me = true) ∧
    (has (mkFlags (UInt8.ofNat r.tnf) mb me r.sr r.il) ndefSrMask ↔ r.sr = true) ∧
    (has (mkFlags (UInt8.ofNat r.tnf) mb me r.sr r.il) ndefIlMask ↔ r.il = true) ∧
    ¬ has (mkFlags (UInt8.ofNat r.tnf) mb me r.sr r.il) ndefCfMask ∧
    mkFlags (UInt8.ofNat r.tnf) mb me r.sr r.il &&& ndefTnfMask = UInt8.ofNat r.tnf :=
  mkFlags_bits ⟨r.tnf, (tnf_lt_of_valid r.valid).1⟩ mb me r.sr r.il

/-- A record whose lengths fit, as it stands in a message. -/
def Bounded.frame (h : Bounded r) (mb me : Bool) : Rec where
  hdr := mkFlags (UInt8.ofNat r.tnf) mb me r.sr r.il
  type := r.type
  id := r.id
  payload := r.payload
  type_lt := Nat.lt_succ_of_le h.type
  id_lt := Nat.lt_succ_of_le h.id
  id_il := by
    intro hno
    have hil : ¬ r.il = true := fun hil => hno ((r.flags_bits mb me).2.2.2.1.mpr hil)
    unfold NdefRecord.il at hil
    split at hil
    · exact absurd rfl hil
    · exact List.eq_nil_of_length_eq_zero (by simpa using hil)
  payload_lt := by
    have hmax : r.payload.length ≤ 10 * 2 ^ 20 := h.payload
    split
    · rename_i hsr
      have hsr' := (r.flags_bits mb me).2.2.1.mp hsr
      unfold NdefRecord.sr at hsr'
      exact of_decide_eq_true hsr'
    · omega

theorem Bounded.bytes_frame (h : Bounded r) : (h.frame mb me).bytes = writeRecord r mb me := by
  have hsr : (has (mkFlags (UInt8.ofNat r.tnf) mb me r.sr r.il) ndefSrMask) = (r.sr = true) :=
    propext (r.flags_bits mb me).2.2.1
  have hil : (has (mkFlags (UInt8.ofNat r.tnf) mb me r.sr r.il) ndefIlMask) = (r.il = true) :=
    propext (r.flags_bits mb me).2.2.2.1
  unfold Rec.bytes Rec.head Rec.lenField Rec.idField Bounded.frame writeRecord
  dsimp only
  simp only [hsr, hil]

theorem judgeRec_frame {st : ParseState} (h : Bounded r) (hin : st.inChunk = false)
    (hmb : mb = decide (st.records.length = 0)) :
    ∃ st', judgeRec false st (h.frame mb me) = .ok st' ∧ st'.records = st.records ++ [r] ∧ st'.inChunk = false := by
  obtain ⟨hbm, -, -, -, hcf, htnf⟩ := r.flags_bits mb me
  have hlt := tnf_lt_of_valid r.valid
  have hflags : checkFlags false st (h.frame mb me).hdr = .ok () := by
    show checkFlags false st (mkFlags (UInt8.ofNat r.tnf) mb me r.sr r.il) = _
    unfold checkFlags
    have hb : has (mkFlags (UInt8.ofNat r.tnf) mb me r.sr r.il) ndefMbMask ↔ st.records.length = 0 := by
      rw [hbm, hmb]
      exact decide_eq_true_iff
    rw [if_neg (fun hc => hc.1 (hb.mpr hc.2.1)), if_neg (by
        rintro ⟨hset, hrec | hch, -⟩
        · exact hrec (hb.mp hset)
        · rw [hin] at hch
          cases hch), if_neg (by rw [hin]; nofun), if_neg (fun hc => hcf hc.1), if_neg (by rw [hin]; nofun), if_neg]
    rw [htnf]
    rintro ⟨-, heq⟩
    have := congrArg UInt8.toNat heq
    rw [UInt8.toNat_ofNat_of_lt' (Nat.lt_trans hlt.1 (by decide))] at this
    exact hlt.2 this
  have hnum : (h.frame mb me).tnf.toNat = r.tnf := by
    show (mkFlags (UInt8.ofNat r.tnf) mb me r.sr r.il &&& ndefTnfMask).toNat = _
    rw [htnf, UInt8.toNat_ofNat_of_lt' (Nat.lt_trans hlt.1 (by decide))]
  have hcf' : decide (has (h.frame mb me).hdr ndefCfMask) = false := decide_eq_false hcf
  have hpay : ¬ (h.frame mb me).payload.length > maxPayloadSize := Nat.not_lt.mpr h.payload
  unfold judgeRec
  rw [hflags]
  dsimp only [Except.bind]
  rw [hin, if_neg nofun]
  unfold judgePayload
  rw [if_neg hpay, hcf', hnum]
  unfold addPayload
  dsimp only
  rw [if_neg nofun, if_neg nofun]
  unfold addRecord
  split
  · rename_i e he
    have hvalid : validateTnf r.tnf r.type r.id r.payload = some e := he
    rw [r.valid] at hvalid
    cases hvalid
  · exact ⟨_, rfl, rfl, rfl⟩

end Record

theorem parseLoop_written (rs : List NdefRecord) : ∀ (n : Nat) (st : ParseState) (mb : Bool), rs ≠ [] →
    (∀ r ∈ rs, Bounded r) → rs.length ≤ n → st.inChunk = false → mb = decide (st.records.length = 0) →
    parseLoop false n st (written mb rs) = .ok (st.records ++ rs, []) := by
  induction rs with
  | nil => exact fun _ _ _ hne => absurd rfl hne
  | cons r rs ih =>
    intro n st mb _ hbounded hn hin hmb
    obtain ⟨m, rfl⟩ : ∃ m, n = m + 1 := ⟨n - 1, by simp at hn; omega⟩
    have hb := hbounded r List.mem_cons_self
    obtain ⟨st', hjudge, hrecords, hin'⟩ := @judgeRec_frame r mb rs.isEmpty st hb hin hmb
    have hme := (r.flags_bits mb rs.isEmpty).2.1
    unfold parseLoop written
    rw [← hb.bytes_frame, parseRecord_bytes, hjudge]
    dsimp only [Except.map, Except.bind]
    cases rs with
    | nil =>
      rw [if_pos (.inl (hme.mpr rfl)), hrecords]
      rfl
    | cons r' rs =>
      rw [if_neg, ih m st' false (List.cons_ne_nil _ _) (fun x hx => hbounded x (List.mem_cons_of_mem r hx))
        (by simp at hn ⊢; omega) hin' (by rw [hrecords]; simp), hrecords, List.append_assoc]
      · rfl
      · rintro (hset | hign)
        · have := hme.mp hset
          cases this
        · cases hign.1

theorem parse_written {rs : List NdefRecord} (hne : rs ≠ []) (h : ∀ r ∈ rs, Bounded r) :
    newNdefMessage (written true rs) = .ok rs := by
  have hlen : rs.length ≤ (written true rs).length + 1 := by
    rw [length_written]
    unfold messageLength
    have hle : ∀ l : List NdefRecord, l.length ≤ (l.map recordLength).sum := by
      intro l
      induction l with
      | nil => exact Nat.le_refl 0
      | cons r l ih =>
        rw [List.map_cons, List.sum_cons, List.length_cons]
        have : 3 ≤ recordLength r := by
          unfold recordLength
          omega
        omega
    have := hle rs
    omega
  unfold newNdefMessage parse
  rw [parseLoop_written rs _ parseInit true hne h hlen rfl rfl]
  rfl

/-! ## Records that have been parsed -/

structure Collected (st : ParseState) : Prop where
  records : ∀ r ∈ st.records, Bounded r
  type : st.type.length ≤ 255
  id : st.id.length ≤ 255

section Parsed
variable {st st' : ParseState}

theorem collected_addRecord {tnf : Nat} {payload : Bytes} (h : Collected st) (hpay : payload.length ≤ maxPayloadSize)
    (hok : addRecord st tnf payload = .ok st') : Collected st' ∧ st'.records ≠ [] := by
  unfold addRecord at hok
  split at hok
  · cases hok
  · obtain rfl := Except.ok.inj hok
    refine ⟨⟨fun r hr => ?_, h.type, h.id⟩, by simp⟩
    rcases List.mem_append.mp hr with hr | hr
    · exact h.records r hr
    · obtain rfl := List.mem_singleton.mp hr
      exact ⟨h.type, h.id, hpay⟩

theorem collected_addPayload {cf : Bool} {tnf typeLength : Nat} {payload : Bytes} (h : Collected st)
    (hpay : payload.length ≤ maxPayloadSize) (hok : addPayload st cf tnf typeLength payload = .ok st') :
    Collected st' ∧ (cf = false → st'.records ≠ []) := by
  unfold addPayload at hok
  split at hok
  · rename_i hcf
    refine ⟨?_, fun hno => absurd hcf (by rw [hno]; nofun)⟩
    split at hok
    · obtain rfl := Except.ok.inj hok
      exact ⟨h.records, h.type, h.id⟩
    · split at hok
      · cases hok
      · obtain rfl := Except.ok.inj hok
        exact ⟨h.records, h.type, h.id⟩
  · split at hok
    · dsimp only at hok
      split at hok
      · cases hok
      · rename_i hsmall
        obtain ⟨hc, hne⟩ := @collected_addRecord { st with chunks := st.chunks ++ [payload] } st' _ _
          ⟨h.records, h.type, h.id⟩ (Nat.not_lt.mp hsmall) hok
        exact ⟨hc, fun _ => hne⟩
    · obtain ⟨hc, hne⟩ := collected_addRecord h hpay hok
      exact ⟨hc, fun _ => hne⟩

theorem collected_judgeRec {ignoreMbMe : Bool} {r : Rec} (h : Collected st)
    (hok : judgeRec ignoreMbMe st r = .ok st') : Collected st' ∧ (¬ r.cf → st'.records ≠ []) := by
  have hjudge : ∀ {s : ParseState}, Collected s → judgePayload s r = .ok st' →
      Collected st' ∧ (¬ r.cf → st'.records ≠ []) := by
    intro s hs hj
    unfold judgePayload at hj
    split at hj
    · cases hj
    · rename_i hsmall
      obtain ⟨hc, hne⟩ := collected_addPayload hs (Nat.not_lt.mp hsmall) hj
      exact ⟨hc, fun hcf => hne (decide_eq_false hcf)⟩
  unfold judgeRec at hok
  obtain ⟨u, -, hok⟩ := bind_ok hok
  split at hok
  · split at hok
    · cases hok
    · exact hjudge h hok
  · exact @hjudge { st with type := r.type, id := r.id }
      ⟨h.records, Nat.le_of_lt_succ r.type_lt, Nat.le_of_lt_succ r.id_lt⟩ hok

theorem parseLoop_bounded (n : Nat) : ∀ {st : ParseState} {buf rest : Bytes} {rs : List NdefRecord}, Collected st →
    parseLoop false n st buf = .ok (rs, rest) → (∀ r ∈ rs, Bounded r) ∧ rs ≠ [] := by
  induction n with
  | zero => nofun
  | succ n ih =>
    intro st buf rest rs h hok
    unfold parseLoop at hok
    obtain ⟨⟨st', flag, buf'⟩, hrec, hok⟩ := bind_ok hok
    obtain ⟨r, rfl, rfl⟩ := exists_rec_of_parseRecord hrec
    rw [parseRecord_bytes] at hrec
    obtain ⟨st'', hjudge, heq⟩ := map_ok hrec
    obtain ⟨rfl, -⟩ := Prod.mk.inj heq
    obtain ⟨hc, hne⟩ := collected_judgeRec h hjudge
    dsimp only at hok
    split at hok
    · rename_i hdone
      obtain ⟨rfl, -⟩ := Prod.mk.inj (Except.ok.inj hok)
      refine ⟨hc.records, hne fun hcf => ?_⟩
      -- a chunk that is not the last does not end the message
      unfold judgeRec at hjudge
      obtain ⟨u, hflags, -⟩ := bind_ok hjudge
      rcases hdone with hme | hign
      · exact (checkFlags_ok hflags).2.1 ⟨hcf, hme⟩
      · cases hign.1
    · exact ih hc hok

end Parsed

theorem parse_bounded {data : Bytes} {rs : List NdefRecord} (h : newNdefMessage data = .ok rs) :
    (∀ r ∈ rs, Bounded r) ∧ rs ≠ [] := by
  unfold newNdefMessage at h
  obtain ⟨⟨rs', rest⟩, hparse, h⟩ := bind_ok h
  dsimp only at h
  split at h
  · cases h
  · obtain rfl := Except.ok.inj h
    exact parseLoop_bounded _ ⟨fun _ hr => absurd hr List.not_mem_nil, Nat.zero_le _, Nat.zero_le _⟩ hparse

/-! ## Round trips -/

theorem roundTrips_iff {rs : List NdefRecord} (hne : rs ≠ []) :
    RoundTrips rs ↔ (∀ r ∈ rs, Bounded r) ∧ messageLength rs < 2 ^ 31 := by
  unfold RoundTrips
  rw [toByteArray_eq]
  constructor
  · rintro ⟨bytes, hbytes, hparse, -⟩
    refine ⟨(parse_bounded hparse).1, ?_⟩
    by_contra hlong
    rw [if_neg hlong] at hbytes
    cases hbytes
  · rintro ⟨hbounded, hlt⟩
    refine ⟨written true rs, if_pos hlt, parse_written hne hbounded, ?_⟩
    rw [getByteArrayLength_eq, length_written]
    unfold toInt
    rw [Int.bmod_eq_of_le_mul_two (by omega) (by omega)]

/-- A message of one record that the constructor has accepted. -/
theorem newNdefRecord_round_trip {tnf : Nat} {type id payload : Bytes} {r : NdefRecord}
    (h : newNdefRecord tnf type id payload = some r) :
    RoundTrips [r] ↔ type.length ≤ 255 ∧ id.length ≤ 255 ∧ payload.length ≤ maxPayloadSize := by
  obtain ⟨-, rfl, rfl, rfl⟩ := (newNdefRecord_eq_some tnf type id payload r).mp h
  rw [roundTrips_iff (List.cons_ne_nil _ _)]
  constructor
  · intro ⟨hbounded, _⟩
    have hr := hbounded r List.mem_cons_self
    exact ⟨hr.type, hr.id, hr.payload⟩
  · intro ⟨htype, hid, hpayload⟩
    refine ⟨List.forall_mem_singleton.mpr ⟨htype, hid, hpayload⟩, ?_⟩
    have hmax : r.payload.length ≤ 10 * 2 ^ 20 := hpayload
    unfold messageLength recordLength
    simp only [List.map_cons, List.map_nil, List.sum_cons, List.sum_nil]
    split <;> split <;> omega

/-- A message of records that the constructor accepts is read back if the lengths fit, and in no other
case; a message that has been parsed is read back if its length is an `int`. -/
theorem ndefMessage_round_trip (record : NdefRecord) (records : List NdefRecord) (data : Bytes) :
    (RoundTrips (record :: records) ↔
      (∀ r ∈ record :: records, Bounded r) ∧ messageLength (record :: records) < 2 ^ 31) ∧
    match newNdefMessage data with
    | .ok rs => RoundTrips rs ↔ messageLength rs < 2 ^ 31
    | .error _ => True := by
  refine ⟨roundTrips_iff (List.cons_ne_nil _ _), ?_⟩
  cases hparse : newNdefMessage data with
  | error e => trivial
  | ok rs =>
    obtain ⟨hbounded, hne⟩ := parse_bounded hparse
    exact (roundTrips_iff hne).trans ⟨fun h => h.2, fun h => ⟨hbounded, h⟩⟩

/-- A media type of 256 bytes. -/
def longTypeRecord : NdefRecord := ⟨2, List.replicate 256 0x61, [], [], rfl⟩

theorem long_type_lost : ¬ ∀ (record : NdefRecord) (records : List NdefRecord), RoundTrips (record :: records) := by
  intro h
  have hbounded := ((roundTrips_iff (List.cons_ne_nil longTypeRecord [])).mp (h longTypeRecord [])).1
  have htype : (List.replicate 256 (0x61 : UInt8)).length ≤ 255 := (hbounded longTypeRecord List.mem_cons_self).type
  rw [List.length_replicate] at htype
  omega

end NfcStack.Framework
