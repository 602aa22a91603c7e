import NfcStack.Ndef.Validate

/- Which messages the validator accepts (`ndef_utils.cc`: `NDEF_MsgValidate`). The records
   are checked one after the other. What one record leaves to the next is only whether it
   has CF, so that a run of chunks that is still open behind the last record goes unseen.

   What is proved:
     1. `validateRec_stands`, `recChecks_ok`: the checks of a record, as conditions on its
        fields.
     2. `validateLoop_row`: a row of records is accepted just when each of them is, at its
        place.
     3. `runs_iff`: chunks are in order and closed just when the row is one of single
        records and of chunk runs.
     4. `validate_ok_iff`: but for an open run at the end, the messages accepted are the
        well-formed ones. -/
namespace NfcStack.Ndef
open NfcStack.Lib

/-! ## The checks of a record -/

/-- What is checked of a record, behind its lengths. Returns whether the next record is inside of a chunk. -/
def recChecks (allowChunks : Bool) (count : Nat) (inChunk : Bool) (r : Rec) : Except NdefStatus Bool :=
  if r.tnf = ndefTnfMask then .error .msgInvalidChunk
  else if 0 < count ∧ r.mb then .error .msgExtraMsgBegin
  else if r.cf ∧ r.mb ∧ r.type = [] ∧ r.tnf ≠ ndefTnfUnknown then .error .msgInvalidChunk
  else if ¬ has r.hdr ndefIlMask ∧ r.tnf = ndefTnfEmpty then .error .msgInvalidEmptyRec
  else
    match checkChunk allowChunks inChunk r.hdr (UInt8.ofNat r.type.length) (UInt8.ofNat r.id.length) with
    | .error e => .error e
    | .ok c =>
      match checkLengths r.hdr (UInt8.ofNat r.type.length) (UInt8.ofNat r.id.length) (UInt32.ofNat r.payload.length) with
      | .error e => .error e
      | .ok _ =>
        if (r.tnf = ndefTnfExt ∨ r.tnf = ndefTnfWkt) ∧ r.type.any (fun b => b < ndefRtdValidStart ∨ b > ndefRtdValidEnd) then
          .error .msgInvalidType
        else .ok c

structure Rec.Rules (r : Rec) : Prop where
  tnf : r.tnf ≠ ndefTnfMask
  empty : r.tnf = ndefTnfEmpty → has r.hdr ndefIlMask ∧ r.type = [] ∧ r.id = [] ∧ r.payload = []
  unknown : r.tnf = ndefTnfUnknown → r.type = []
  ext : r.tnf = ndefTnfExt → r.type ≠ []
  chars : r.tnf = ndefTnfExt ∨ r.tnf = ndefTnfWkt → ∀ b ∈ r.type, ndefRtdValidStart ≤ b ∧ b ≤ ndefRtdValidEnd

/-- The rules for a record at its place. -/
structure Rec.Placed (allowChunks : Bool) (count : Nat) (inChunk : Bool) (r : Rec) : Prop where
  rules : r.Rules
  begins : 0 < count → ¬ r.mb
  typed : r.cf → r.mb → r.type = [] → r.tnf = ndefTnfUnknown
  allowed : r.cf → allowChunks = true
  unchanged : r.tnf = ndefTnfUnchanged ↔ inChunk = true
  bare : inChunk = true → r.type = [] ∧ r.id = []

section Record
variable {allowChunks inChunk : Bool} {count : Nat} {r : Rec} {mem : Bytes} {msgLen : UInt32} {p : Nat} {rs : List Rec}

theorem Rec.type_nil_iff (r : Rec) : UInt8.ofNat r.type.length = 0 ↔ r.type = [] := by
  refine ⟨eq_nil_of_ofNat_eq_zero r.type_lt, fun h => ?_⟩
  rw [h]
  rfl

theorem Rec.id_nil_iff (r : Rec) : UInt8.ofNat r.id.length = 0 ↔ r.id = [] := by
  refine ⟨eq_nil_of_ofNat_eq_zero r.id_lt, fun h => ?_⟩
  rw [h]
  rfl

theorem Rec.payload_nil_iff (r : Rec) : UInt32.ofNat r.payload.length = 0 ↔ r.payload = [] := by
  constructor
  · intro h
    have hn : (UInt32.ofNat r.payload.length).toNat = 0 := by rw [h]; rfl
    have hlt := r.payload_lt_word
    simp at hn
    exact List.length_eq_zero_iff.mp (by omega)
  · intro h
    rw [h]
    rfl

theorem checkChunk_iff {c : Bool} : checkChunk allowChunks inChunk r.hdr (UInt8.ofNat r.type.length)
      (UInt8.ofNat r.id.length) = .ok c ↔
    c = decide r.cf ∧ (r.cf → allowChunks = true) ∧ (r.tnf = ndefTnfUnchanged ↔ inChunk = true) ∧
      (inChunk = true → r.type = [] ∧ r.id = []) := by
  have htnf : r.hdr &&& ndefTnfMask = r.tnf := rfl
  simp only [checkChunk, ne_eq, r.type_nil_iff, r.id_nil_iff, htnf]
  by_cases hcf : has r.hdr ndefCfMask <;> cases allowChunks <;> cases inChunk <;>
    by_cases ht : r.tnf = ndefTnfUnchanged <;> by_cases hty : r.type = [] <;> by_cases hid : r.id = [] <;>
    simp [hcf, ht, hty, hid, eq_comm]

theorem checkLengths_iff : checkLengths r.hdr (UInt8.ofNat r.type.length) (UInt8.ofNat r.id.length)
      (UInt32.ofNat r.payload.length) = .ok () ↔
    (r.tnf = ndefTnfEmpty → r.type = [] ∧ r.id = [] ∧ r.payload = []) ∧
      (r.tnf = ndefTnfUnknown → r.type = []) ∧ (r.tnf = ndefTnfExt → r.type ≠ []) := by
  have htnf : r.hdr &&& ndefTnfMask = r.tnf := rfl
  simp only [checkLengths, ne_eq, r.type_nil_iff, r.id_nil_iff, r.payload_nil_iff, htnf]
  split
  case isTrue h =>
    refine iff_of_false (fun h => by cases h) fun hall => ?_
    obtain ⟨h1, h2, h3⟩ := hall.1 h.1
    rcases h.2 with h | h | h
    · exact h h1
    · exact h h2
    · exact h h3
  case isFalse h =>
    split
    case isTrue h' => exact iff_of_false (fun h => by cases h) fun hall => h'.2 (hall.2.1 h'.1)
    case isFalse h' =>
      split
      case isTrue h'' => exact iff_of_false (fun h => by cases h) fun hall => hall.2.2 h''.1 h''.2
      case isFalse h'' =>
        refine iff_of_true rfl ⟨fun ht => ?_, fun ht => ?_, fun ht hty => h'' ⟨ht, hty⟩⟩
        · refine ⟨?_, ?_, ?_⟩
          all_goals
            by_contra hne
            exact h ⟨ht, by simp [hne]⟩
        · by_contra hne
          exact h' ⟨ht, hne⟩

theorem validChar_iff (b : UInt8) :
    ¬ (b < ndefRtdValidStart ∨ b > ndefRtdValidEnd) ↔ ndefRtdValidStart ≤ b ∧ b ≤ ndefRtdValidEnd := by
  rw [not_or, UInt8.not_lt, gt_iff_lt, UInt8.not_lt]

theorem recChecks_ok {c : Bool} :
    recChecks allowChunks count inChunk r = .ok c ↔ c = decide r.cf ∧ r.Placed allowChunks count inChunk := by
  unfold recChecks
  split
  case isTrue h => exact iff_of_false nofun fun hp => hp.2.rules.tnf h
  case isFalse htnf =>
  split
  case isTrue h => exact iff_of_false nofun fun hp => hp.2.begins h.1 h.2
  case isFalse hmb =>
  split
  case isTrue h => exact iff_of_false nofun fun hp => h.2.2.2 (hp.2.typed h.1 h.2.1 h.2.2.1)
  case isFalse htyped =>
  split
  case isTrue h => exact iff_of_false nofun fun hp => h.1 (hp.2.rules.empty h.2).1
  case isFalse hil =>
  split
  case h_1 e hc =>
    refine iff_of_false nofun fun hp => ?_
    have := checkChunk_iff.mpr ⟨rfl, hp.2.allowed, hp.2.unchanged, hp.2.bare⟩
    rw [hc] at this
    cases this
  case h_2 c' hc =>
  obtain ⟨rfl, hallowed, hunch, hbare⟩ := checkChunk_iff.mp hc
  split
  case h_1 e hl =>
    refine iff_of_false nofun fun hp => ?_
    have := checkLengths_iff.mpr ⟨fun h => (hp.2.rules.empty h).2, hp.2.rules.unknown, hp.2.rules.ext⟩
    rw [hl] at this
    cases this
  case h_2 hl =>
  obtain ⟨hempty, hunknown, hext⟩ := checkLengths_iff.mp hl
  split
  case isTrue h =>
    refine iff_of_false nofun fun hp => ?_
    obtain ⟨b, hb, hbad⟩ := List.any_eq_true.mp h.2
    exact (validChar_iff b).mpr (hp.2.rules.chars h.1 b hb) (of_decide_eq_true hbad)
  case isFalse h =>
    have hchars : r.tnf = ndefTnfExt ∨ r.tnf = ndefTnfWkt →
        ∀ b ∈ r.type, ndefRtdValidStart ≤ b ∧ b ≤ ndefRtdValidEnd := by
      intro ht b hb
      rw [← validChar_iff]
      exact fun hbad => h ⟨ht, List.any_eq_true.mpr ⟨b, hb, decide_eq_true hbad⟩⟩
    have hplaced : r.Placed allowChunks count inChunk := by
      refine ⟨⟨htnf, fun h => ⟨not_not.mp fun hn => hil ⟨hn, h⟩, hempty h⟩, hunknown, hext, hchars⟩, fun hc hm => hmb ⟨hc, hm⟩, fun h1 h2 h3 => ?_,
        hallowed, hunch, hbare⟩
      · by_contra hn
        exact htyped ⟨h1, h2, h3, hn⟩
    constructor
    · intro hok
      exact ⟨(Except.ok.inj hok).symm, hplaced⟩
    · rintro ⟨rfl, -⟩
      rfl

theorem validateRec_stands (hlen : mem.length = msgLen.toNat) (hs : Stands mem p (r :: rs)) :
    validateRec mem msgLen allowChunks count inChunk p =
      some ((recChecks allowChunks count inChunk r).map fun c => (r.hdr, p + r.bytes.length, c)) := by
  have hle := hs.length_le
  obtain ⟨pre, post, hmem, hp⟩ := hs.split
  have hin : p + r.bytes.length ≤ msgLen.toNat := by
    rw [← hlen, hmem, ← hp]
    simp
  have hbody := r.length_bytes
  have hhead := r.length_head
  have hlt : r.bytes.length < 4294967296 := by
    have := msgLen.toNat_lt
    omega
  have hread := hs.readRecHdr
  simp only [Ndef.readRecHdr, hs.hdr, hs.typeLen, Option.bind_some] at hread
  obtain ⟨⟨pl, q⟩, hpl, hread⟩ := Option.bind_eq_some_iff.mp hread
  obtain ⟨⟨il, b⟩, hil, hread⟩ := Option.map_eq_some_iff.mp hread
  obtain ⟨-, -, rfl, rfl, rfl⟩ := RecHdr.mk.inj hread
  obtain ⟨-, hq, -⟩ := drop_of_readPayloadLen hpl
  have htnf : r.hdr &&& ndefTnfMask = r.tnf := rfl
  have hbodyLen := r.bodyLen_toNat hlt (p + r.head.length)
  unfold validateRec recChecks
  rw [if_neg (by have := r.three_le_length; omega), hs.hdr, Option.bind_some, htnf]
  split
  · rfl
  split
  · rfl
  rw [hs.typeLen, Option.bind_some]
  simp only [r.type_nil_iff]
  split
  · rfl
  rw [if_neg (by rintro ⟨hsr, hgt⟩; rw [if_neg hsr] at hhead; omega), hpl, Option.bind_some,
    if_neg (by rintro ⟨hi, hgt⟩; rw [if_pos hi] at hhead; omega), hil, Option.bind_some]
  unfold validateBody
  dsimp only
  rw [htnf]
  split
  · rfl
  cases checkChunk allowChunks inChunk r.hdr (UInt8.ofNat r.type.length) (UInt8.ofNat r.id.length) with
  | error e => rfl
  | ok c =>
  dsimp only
  cases checkLengths r.hdr (UInt8.ofNat r.type.length) (UInt8.ofNat r.id.length) (UInt32.ofNat r.payload.length) with
  | error e => rfl
  | ok _ =>
  have htype : checkType mem msgLen.toNat ⟨r.hdr, UInt8.ofNat r.type.length, UInt32.ofNat r.payload.length,
      UInt8.ofNat r.id.length, p + r.head.length⟩ =
      some (if (r.tnf = ndefTnfExt ∨ r.tnf = ndefTnfWkt) ∧
        r.type.any (fun b => b < ndefRtdValidStart ∨ b > ndefRtdValidEnd) then .error .msgInvalidType else .ok ()) := by
    unfold checkType
    dsimp only
    rw [r.toNat_typeLen, htnf, if_neg (by omega : ¬ p + r.head.length + r.type.length > msgLen.toNat), hs.fields.1,
      Option.map_some]
    by_cases ht : r.tnf = ndefTnfExt ∨ r.tnf = ndefTnfWkt
    · rw [if_pos ht]
      simp only [ht, true_and]
    · rw [if_neg ht, if_neg (fun h => ht h.1)]
  have hcheck : checkBody msgLen ⟨r.hdr, UInt8.ofNat r.type.length, UInt32.ofNat r.payload.length,
      UInt8.ofNat r.id.length, p + r.head.length⟩ = .ok (p + r.bytes.length) := by
    have hpay : (UInt32.ofNat r.payload.length).toNat = r.payload.length := by
      have := r.payload_lt_word
      simp
      omega
    unfold checkBody
    simp only [UInt32.lt_iff_toNat_lt, gt_iff_lt, hbodyLen, hpay]
    rw [if_neg (by omega), if_neg (by omega)]
    congr 1
    omega
  dsimp only
  rw [htype, Option.map_some, Option.map_some]
  split
  · rfl
  · rw [Except.bind, hcheck]
    rfl

end Record

/-! ## Rows of records -/

/-- Each record of the row obeys the rules for its place. -/
def Row (allowChunks : Bool) : Nat → Bool → List Rec → Prop
  | _, _, [] => True
  | count, inChunk, r :: rs => r.Placed allowChunks count inChunk ∧ Row allowChunks (count + 1) (decide r.cf) rs

theorem validateLoop_row {mem : Bytes} {msgLen : UInt32} (hlen : mem.length = msgLen.toNat) {allowChunks : Bool} :
    ∀ (rs : List Rec) (fuel count : Nat) (inChunk : Bool) (p : Nat), Stands mem p rs → p + recsLen rs = msgLen.toNat →
      EndsOnce rs → rs.length ≤ fuel →
      (validateLoop mem msgLen allowChunks fuel count inChunk p = some .ok ↔ Row allowChunks count inChunk rs) := by
  intro rs
  induction rs with
  | nil => exact fun _ _ _ _ _ _ he => he.elim
  | cons r rs ih =>
    intro fuel count inChunk p hs hend he hf
    obtain ⟨fuel, rfl⟩ : ∃ k, fuel = k + 1 := ⟨fuel - 1, by simp at hf; omega⟩
    have hthree := r.three_le_length
    have hsum := recsLen_cons r rs
    rw [validateLoop, if_pos (by omega), validateRec_stands hlen hs, Option.bind_some]
    cases hc : recChecks allowChunks count inChunk r with
    | error e =>
      refine iff_of_false (fun h => ?_) fun h => ?_
      · have hv := @validateRec_stands allowChunks inChunk count r mem msgLen p rs hlen hs
        rw [hc] at hv
        exact validateRec_error hv (Option.some.inj h)
      · have := recChecks_ok.mpr ⟨rfl, h.1⟩
        rw [hc] at this
        cases this
    | ok c =>
      obtain ⟨rfl, hplaced⟩ := recChecks_ok.mp hc
      show (if has r.hdr ndefMeMask then some (validateEnd msgLen r.hdr (p + r.bytes.length))
        else validateLoop mem msgLen allowChunks fuel (count + 1) (decide r.cf) (p + r.bytes.length)) = some .ok ↔ _
      rcases he.cases with ⟨rfl, hme⟩ | ⟨hne, hme, he'⟩
      · rw [if_pos hme, validateEnd, if_neg (not_not.mpr hme), if_neg (by rw [← hend, hsum]; simp [recsLen, recsBytes])]
        exact iff_of_true rfl ⟨hplaced, trivial⟩
      · have hf' : rs.length ≤ fuel := by simpa using hf
        rw [if_neg hme, ih fuel (count + 1) (decide r.cf) _ hs.tail (by omega) he' hf']
        exact ⟨fun h => ⟨hplaced, h⟩, fun h => h.2⟩

/-- A record that goes on with a chunk. -/
structure Rec.Continues (r : Rec) : Prop where
  tnf : r.tnf = ndefTnfUnchanged
  type : r.type = []
  id : r.id = []

/-- A row of single records and of runs of chunks: a first chunk, others that go on with it, and the last one. -/
inductive Runs : List Rec → Prop where
  | nil : Runs []
  | single {r : Rec} {rs : List Rec} (hcf : ¬ r.cf) (htnf : r.tnf ≠ ndefTnfUnchanged) (h : Runs rs) : Runs (r :: rs)
  | chunks {first last : Rec} {mid rs : List Rec} (hcf : first.cf) (htnf : first.tnf ≠ ndefTnfUnchanged)
    (hmid : ∀ r ∈ mid, r.cf ∧ r.Continues) (hlast : ¬ last.cf) (hcont : last.Continues) (h : Runs rs) :
    Runs (first :: mid ++ last :: rs)

/-- The last record is not one that others are to follow. -/
def Closed (rs : List Rec) : Prop := ∀ r ∈ rs.getLast?, ¬ r.cf

theorem Closed.tail {r : Rec} {rs : List Rec} (h : Closed (r :: rs)) (hne : rs ≠ []) : Closed rs := by
  intro x hx
  exact h x (by rwa [List.getLast?_cons_of_ne_nil hne])

theorem chunked_chunks {last : Rec} {mid rs : List Rec} (hmid : ∀ r ∈ mid, r.cf ∧ r.Continues) (hlast : ¬ last.cf)
    (hcont : last.Continues) (h : Chunked false rs) : Chunked true (mid ++ last :: rs) := by
  induction mid with
  | nil => exact ⟨iff_of_true hcont.tnf rfl, fun _ => ⟨hcont.type, hcont.id⟩, by rwa [decide_eq_false hlast]⟩
  | cons m mid ih =>
    obtain ⟨hcf, hm⟩ := hmid m List.mem_cons_self
    refine ⟨iff_of_true hm.tnf rfl, fun _ => ⟨hm.type, hm.id⟩, ?_⟩
    rw [decide_eq_true hcf]
    exact ih fun r hr => hmid r (List.mem_cons_of_mem m hr)

theorem chunks_of_chunked {rs : List Rec} (h : Chunked true rs) (hne : rs ≠ []) (hclosed : Closed rs) :
    ∃ mid last rest, rs = mid ++ last :: rest ∧ (∀ r ∈ mid, r.cf ∧ r.Continues) ∧ ¬ last.cf ∧ last.Continues ∧
      Chunked false rest ∧ Closed rest := by
  induction rs with
  | nil => exact absurd rfl hne
  | cons r rs ih =>
    obtain ⟨hunch, hbare, hrest⟩ := h
    have hcont : r.Continues := ⟨hunch.mpr rfl, (hbare rfl).1, (hbare rfl).2⟩
    by_cases hcf : r.cf
    · have hne' : rs ≠ [] := by
        rintro rfl
        exact hclosed r rfl hcf
      rw [decide_eq_true hcf] at hrest
      obtain ⟨mid, last, rest, rfl, hmid, hlast, hlc, hch, hcl⟩ := ih hrest hne' (hclosed.tail hne')
      refine ⟨r :: mid, last, rest, rfl, fun x hx => ?_, hlast, hlc, hch, hcl⟩
      rcases List.mem_cons.mp hx with rfl | hx
      · exact ⟨hcf, hcont⟩
      · exact hmid x hx
    · rw [decide_eq_false hcf] at hrest
      refine ⟨[], r, rs, rfl, nofun, hcf, hcont, hrest, ?_⟩
      by_cases hrs : rs = []
      · rw [hrs]
        exact nofun
      · exact hclosed.tail hrs

theorem closed_append_iff (as : List Rec) {bs : List Rec} (hne : bs ≠ []) : Closed (as ++ bs) ↔ Closed bs := by
  unfold Closed
  rw [List.getLast?_append_of_ne_nil as hne]

theorem runs_iff (rs : List Rec) : Runs rs ↔ Chunked false rs ∧ Closed rs := by
  constructor
  · intro h
    induction h with
    | nil => exact ⟨trivial, nofun⟩
    | @single r rs hcf htnf h ih =>
      refine ⟨⟨iff_of_false htnf Bool.false_ne_true, nofun, by rw [decide_eq_false hcf]; exact ih.1⟩, ?_⟩
      by_cases hrs : rs = []
      · rw [hrs]
        intro x hx
        obtain rfl : r = x := by simpa using hx
        exact hcf
      · exact (closed_append_iff [r] hrs).mpr ih.2
    | @chunks first last mid rs hcf htnf hmid hlast hcont h ih =>
      refine ⟨⟨iff_of_false htnf Bool.false_ne_true, nofun, ?_⟩, ?_⟩
      · rw [decide_eq_true hcf]
        exact chunked_chunks hmid hlast hcont ih.1
      · rw [closed_append_iff _ (List.cons_ne_nil _ _)]
        by_cases hrs : rs = []
        · rw [hrs]
          intro x hx
          obtain rfl : last = x := by simpa using hx
          exact hlast
        · exact (closed_append_iff [last] hrs).mpr ih.2
  · rintro ⟨h, hclosed⟩
    induction hn : rs.length using Nat.strong_induction_on generalizing rs with
    | _ n ih =>
      cases rs with
      | nil => exact .nil
      | cons r rs =>
        obtain ⟨hunch, -, hrest⟩ := h
        have htnf : r.tnf ≠ ndefTnfUnchanged := fun ht => Bool.false_ne_true (hunch.mp ht)
        by_cases hcf : r.cf
        · have hne : rs ≠ [] := by
            rintro rfl
            exact hclosed r rfl hcf
          rw [decide_eq_true hcf] at hrest
          obtain ⟨mid, last, rest, rfl, hmid, hlast, hlc, hch, hcl⟩ := chunks_of_chunked hrest hne (hclosed.tail hne)
          exact .chunks hcf htnf hmid hlast hlc (ih rest.length (by rw [← hn]; simp; omega) rest hch hcl rfl)
        · rw [decide_eq_false hcf] at hrest
          refine .single hcf htnf (ih rs.length (by rw [← hn]; simp) rs hrest ?_ rfl)
          by_cases hrs : rs = []
          · rw [hrs]
            exact nofun
          · exact hclosed.tail hrs

/-! ## Messages -/

structure Message (allowChunks : Bool) (rs : List Rec) : Prop where
  nonempty : rs ≠ []
  marked : Marked rs
  rules : ∀ r ∈ rs, r.Rules
  allowed : ∀ r ∈ rs, r.cf → allowChunks = true
  typed : ∀ r ∈ rs.head?, r.cf → r.type = [] → r.tnf = ndefTnfUnknown
  runs : Runs rs

section Accept
variable {allowChunks : Bool} {rs : List Rec}

theorem row_behind : ∀ {rs : List Rec} {count : Nat} {inChunk : Bool}, 0 < count →
    (Row allowChunks count inChunk rs ↔ (∀ r ∈ rs, r.Rules) ∧ (∀ r ∈ rs, ¬ r.mb) ∧
      (∀ r ∈ rs, r.cf → allowChunks = true) ∧ Chunked inChunk rs) := by
  intro rs
  induction rs with
  | nil =>
    intro count inChunk _
    exact iff_of_true trivial ⟨nofun, nofun, nofun, trivial⟩
  | cons r rs ih =>
    intro count inChunk hcount
    rw [Row, ih (Nat.succ_pos count)]
    simp only [List.forall_mem_cons, Chunked]
    constructor
    · rintro ⟨h, h1, h2, h3, h4⟩
      exact ⟨⟨h.rules, h1⟩, ⟨h.begins hcount, h2⟩, ⟨h.allowed, h3⟩, h.unchanged, h.bare, h4⟩
    · rintro ⟨⟨h, h1⟩, ⟨hmb, h2⟩, ⟨ha, h3⟩, hu, hb, h4⟩
      exact ⟨⟨h, fun _ => hmb, fun _ hm => absurd hm hmb, ha, hu, hb⟩, h1, h2, h3, h4⟩

theorem row_iff : Row allowChunks 0 false rs ↔ (∀ r ∈ rs, r.Rules) ∧ (∀ r ∈ rs.tail, ¬ r.mb) ∧
    (∀ r ∈ rs, r.cf → allowChunks = true) ∧ (∀ r ∈ rs.head?, r.cf → r.mb → r.type = [] → r.tnf = ndefTnfUnknown) ∧
    Chunked false rs := by
  cases rs with
  | nil => exact iff_of_true trivial ⟨nofun, nofun, nofun, nofun, trivial⟩
  | cons r rs =>
    rw [Row, row_behind (Nat.succ_pos 0)]
    simp only [List.forall_mem_cons, Chunked, List.tail_cons, List.head?_cons, Option.mem_some_iff, forall_eq']
    constructor
    · rintro ⟨h, h1, h2, h3, h4⟩
      exact ⟨⟨h.rules, h1⟩, h2, ⟨h.allowed, h3⟩, h.typed, h.unchanged, h.bare, h4⟩
    · rintro ⟨⟨h, h1⟩, h2, ⟨ha, h3⟩, ht, hu, hb, h4⟩
      exact ⟨⟨h, fun hc => absurd hc (lt_irrefl 0), ht, ha, hu, hb⟩, h1, h2, h3, h4⟩

theorem endsOnce_of_marked : ∀ {rs : List Rec}, rs ≠ [] → (∀ i (h : i < rs.length),
    (rs.get ⟨i, h⟩).me ↔ i + 1 = rs.length) → EndsOnce rs
  | [], hne, _ => absurd rfl hne
  | [r], _, h => (h 0 Nat.zero_lt_one).mpr rfl
  | r :: r' :: rs, _, h => by
    refine ⟨fun hme => ?_, endsOnce_of_marked (List.cons_ne_nil _ _) fun i hi => ?_⟩
    · have := (h 0 (by simp)).mp hme
      simp at this
    · have := h (i + 1) (by simpa using hi)
      simpa using this

theorem validate_row {mem : Bytes} {msgLen : UInt32} (hlen : mem.length = msgLen.toNat) (hmem : mem = recsBytes rs)
    (he : EndsOnce rs) :
    ndefMsgValidate (some mem) msgLen allowChunks = some .ok ↔ (∀ r ∈ rs.head?, r.mb) ∧ Row allowChunks 0 false rs := by
  have hrl : recsLen rs = msgLen.toNat := by
    rw [← hlen, hmem]
    rfl
  have hs : Stands mem 0 rs := ⟨[], [], by simpa using hmem, rfl, by have := msgLen.toNat_lt; omega⟩
  have hloop := @validateLoop_row mem msgLen hlen allowChunks rs (msgLen.toNat + 1) 0 false 0 hs (by omega) he
    (by have := length_le_recsLen rs; omega)
  cases rs with
  | nil => exact he.elim
  | cons r rs =>
    have hthree := r.three_le_length
    have hsum := recsLen_cons r rs
    unfold ndefMsgValidate
    dsimp only
    rw [if_neg (by rw [UInt32.lt_iff_toNat_lt]; simp; omega), hs.hdr, Option.bind_some]
    simp only [List.head?_cons, Option.mem_some_iff, forall_eq']
    by_cases hmb : has r.hdr ndefMbMask
    · rw [if_neg (not_not.mpr hmb)]
      by_cases ht : r.hdr &&& ndefTnfMask = ndefTnfUnchanged
      · rw [if_pos ht]
        exact iff_of_false nofun fun h => Bool.false_ne_true (h.2.1.unchanged.mp ht)
      · rw [if_neg ht, hloop]
        exact ⟨fun h => ⟨hmb, h⟩, And.right⟩
    · rw [if_pos hmb]
      exact iff_of_false nofun fun h => hmb h.1

theorem validate_row_message {mem : Bytes} {msgLen : UInt32} (hlen : mem.length = msgLen.toNat)
    (hmem : mem = recsBytes rs) (he : EndsOnce rs) (hclosed : Closed rs) :
    ndefMsgValidate (some mem) msgLen allowChunks = some .ok ↔ Message allowChunks rs := by
  rw [validate_row hlen hmem he, row_iff]
  constructor
  · rintro ⟨hmb, hrules, hnomb, hallowed, htyped, hchunked⟩
    refine ⟨?_, marked_of_endsOnce he hmb hnomb, hrules, hallowed, fun r hr hcf => htyped r hr hcf (hmb r hr),
      (runs_iff rs).mpr ⟨hchunked, hclosed⟩⟩
    rintro rfl
    exact he
  · intro h
    refine ⟨fun r hr => ?_, h.rules, fun r hr => ?_, h.allowed, fun r hr hcf _ => h.typed r hr hcf,
      ((runs_iff rs).mp h.runs).1⟩
    · cases rs with
      | nil => exact absurd hr nofun
      | cons r' rs =>
        obtain rfl : r' = r := by simpa using hr
        exact (h.marked 0 (by simp)).1.mpr rfl
    · obtain ⟨i, hi, rfl⟩ := List.getElem_of_mem hr
      have hi' : i + 1 < rs.length := by
        rw [List.length_tail] at hi
        omega
      have := (h.marked (i + 1) hi').1
      rw [List.getElem_tail]
      exact fun hmb => absurd (this.mp hmb) (Nat.succ_ne_zero i)

end Accept

theorem endsOnce_of_accepted {mem : Bytes} {msgLen : UInt32} {allowChunks : Bool} {rs : List Rec}
    (hlen : mem.length = msgLen.toNat) (hmem : mem = recsBytes rs)
    (hok : ndefMsgValidate (some mem) msgLen allowChunks = some .ok) : EndsOnce rs := by
  obtain ⟨rs', hmem', he, -, -, -⟩ := ndefMsgValidate_records hlen hok
  rwa [recsBytes_inj (hmem.symm.trans hmem')]

/-- But for records the last of which has CF, and chunks allowed, the validator accepts a buffer just when it is a
well-formed message. -/
theorem validate_ok_iff (mem : Bytes) (msgLen : UInt32) (hlen : mem.length = msgLen.toNat) (allowChunks : Bool)
    (hclosed : allowChunks = true → ∀ rs, mem = recsBytes rs → EndsOnce rs → Closed rs) :
    ndefMsgValidate (some mem) msgLen allowChunks = some .ok ↔
      ∃ rs, mem = recsBytes rs ∧ Message allowChunks rs := by
  constructor
  · intro hok
    obtain ⟨rs, hmem, he, -, -, -⟩ := ndefMsgValidate_records hlen hok
    have hcl : Closed rs := by
      cases allowChunks with
      | true => exact hclosed rfl rs hmem he
      | false =>
        obtain ⟨-, -, hallowed, -⟩ := row_iff.mp ((validate_row hlen hmem he).mp hok).2
        intro r hr hcf
        exact Bool.false_ne_true (hallowed r (List.mem_of_getLast? hr) hcf)
    exact ⟨rs, hmem, (validate_row_message hlen hmem he hcl).mp hok⟩
  · rintro ⟨rs, hmem, h⟩
    have he := endsOnce_of_marked h.nonempty fun i hi => (h.marked i hi).2
    exact (validate_row_message hlen hmem he ((runs_iff rs).mp h.runs).2).mpr h

theorem validate_ok_iff_text :
    ∃ rs, [0x91, 1, 2, 0x54, 7, 8, 0x55, 0, 1, 9] = recsBytes rs ∧ Message false rs :=
  (validate_ok_iff [0x91, 1, 2, 0x54, 7, 8, 0x55, 0, 1, 9] 10 rfl false nofun).mp (by decide)

def oddType : Rec := ⟨0xD1, [1], [], [], by decide, no_bytes_lt, by decide, by decide⟩

def openChunk : Rec := ⟨0xF1, [0x54], [], [], text_type_lt, no_bytes_lt, by decide, by decide⟩

/-- A record with fields that are in order is rejected for the character of its type, and one
that others are to follow is accepted as the last. -/
theorem odd_type_rejected_open_chunk_accepted :
    (Marked [oddType] ∧ oddType.tnf = ndefTnfWkt ∧ Runs [oddType] ∧
      ndefMsgValidate (some (recsBytes [oddType])) 4 true = some .msgInvalidType) ∧
    (¬ Closed [openChunk] ∧ ndefMsgValidate (some (recsBytes [openChunk])) 4 true = some .ok) := by
  refine ⟨⟨?_, by decide, ?_, by decide⟩, fun h => ?_, by decide⟩
  · exact marked_of_endsOnce (show oddType.me by decide) (by simp [oddType]; decide) nofun
  · exact .single (by decide) (by decide) .nil
  · exact h openChunk rfl (by decide)

end NfcStack.Ndef
