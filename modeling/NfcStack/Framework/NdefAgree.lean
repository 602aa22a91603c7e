import NfcStack.Ndef.Accepted
import NfcStack.Framework.NdefMessage

/- The two readers of NDEF messages: `NDEF_MsgValidate` of the native stack, with chunks
   allowed, and the parser of the framework.

   Both split a buffer in the same way. The native check is the stricter one about reserved
   records, about the types of well-known and external records and about the id length of
   an empty record. The parser is the stricter one about chunks.

   What is proved:
     1. `ndefMsgValidate_iff`, `parseLoop_iff`: which lists of records are accepted.
     2. `judgeRec_open_iff`, `judgeRec_chunk_iff`: what one pass of the parser makes of a
        record, outside and inside of a chunked one.
     3. `accepts_iff`: record by record, what the two ask for is the same but for the rules
        above.
     4. `ndef_parsers_agree`: so it is for every buffer. -/
namespace NfcStack.Framework
open NfcStack.Ndef

/-! ## The rules of one side only -/

structure Strict (r : Rec) : Prop where
  reserved : r.tnf ≠ ndefTnfReserved
  empty : r.tnf = ndefTnfEmpty → has r.hdr ndefIlMask
  ext : r.tnf = ndefTnfExt → r.type ≠ []
  chars : r.tnf = ndefTnfExt ∨ r.tnf = ndefTnfWkt →
    ∀ b ∈ r.type, ¬ (b < ndefRtdValidStart ∨ b > ndefRtdValidEnd)

/-- What only the parser asks of the chunks: the last one is there, the first one has a type, and the
others do not announce an id. -/
def CleanChunks (inChunk : Bool) : List Rec → Prop
  | [] => True
  | r :: rs => ¬ (r.cf ∧ r.me) ∧ (inChunk = true → ¬ has r.hdr ndefIlMask) ∧
      (inChunk = false → r.cf → r.type ≠ [] ∨ r.tnf = ndefTnfUnknown) ∧ CleanChunks (decide r.cf) rs

/-- The payloads are within the limit, those of a chunked record together. -/
def WithinLimit (pending : Nat) : List Rec → Prop
  | [] => True
  | r :: rs => pending + r.payload.length ≤ maxPayloadSize ∧
      WithinLimit (if r.cf then pending + r.payload.length else 0) rs

/-- A statement about the records of a buffer, if it has any. -/
def OfRecords (data : Bytes) (P : List Rec → Prop) : Prop := ∀ rs, data = recsBytes rs → P rs

/-! ## There is one way to split a buffer -/

theorem ofRecords_iff {rs : List Rec} {P : List Rec → Prop} : OfRecords (recsBytes rs) P ↔ P rs := by
  constructor
  · intro h
    exact h rs rfl
  · intro h rs' heq
    obtain rfl := recsBytes_inj heq
    exact h

/-! ## The native check on the bytes of a record -/

/-- What the native check asks of a message from some record on, with chunks allowed. -/
def nativeAccepts (count : Nat) (inChunk : Bool) : List Rec → Prop
  | [] => False
  | r :: rs => r.Placed true count inChunk ∧
      if r.me then rs = [] else nativeAccepts (count + 1) (decide r.cf) rs

section Native
variable {count : Nat} {inChunk : Bool} {r : Rec}

theorem nativeAccepts_iff (rs : List Rec) : ∀ {count : Nat} {inChunk : Bool},
    nativeAccepts count inChunk rs ↔ EndsOnce rs ∧ Row true count inChunk rs := by
  induction rs with
  | nil => exact ⟨False.elim, fun h => h.1⟩
  | cons r rs ih =>
    intro count inChunk
    unfold nativeAccepts Row
    constructor
    · rintro ⟨hrec, hrest⟩
      split at hrest
      case isTrue hme =>
        obtain rfl := hrest
        exact ⟨hme, hrec, trivial⟩
      case isFalse hme =>
        obtain ⟨hends, hrow⟩ := ih.mp hrest
        refine ⟨?_, hrec, hrow⟩
        cases rs with
        | nil => exact hends.elim
        | cons r' rs => exact ⟨hme, hends⟩
    · rintro ⟨hends, hrec, hrow⟩
      refine ⟨hrec, ?_⟩
      obtain ⟨hnil, hme⟩ | ⟨-, hme, hends⟩ := hends.cases
      · rw [if_pos hme]
        exact hnil
      · rw [if_neg hme]
        exact ih.mpr ⟨hends, hrow⟩

theorem ndefMsgValidate_iff {data : Bytes} (hlen : data.length < 2 ^ 32) :
    ndefMsgValidate (some data) (UInt32.ofNat data.length) true = some .ok ↔
      ∃ rs, data = recsBytes rs ∧ nativeAccepts 0 false rs ∧ ∀ r ∈ rs.head?, r.mb := by
  have hlen' : data.length = (UInt32.ofNat data.length).toNat := (UInt32.toNat_ofNat_of_lt' hlen).symm
  constructor
  · intro h
    obtain ⟨rs, hrs, hends, -, -, -⟩ := ndefMsgValidate_records hlen' h
    obtain ⟨hmb, hrow⟩ := (validate_row hlen' hrs hends).mp h
    exact ⟨rs, hrs, (nativeAccepts_iff rs).mpr ⟨hends, hrow⟩, hmb⟩
  · rintro ⟨rs, hrs, hacc, hmb⟩
    obtain ⟨hends, hrow⟩ := (nativeAccepts_iff rs).mp hacc
    exact (validate_row hlen' hrs hends).mpr ⟨hmb, hrow⟩

end Native

/-! ## The parser on the records of a message -/

/-- A chunk behind the first: it does not begin a message, and has neither a type nor an id. -/
structure IsChunk (r : Rec) : Prop where
  mb : ¬ r.mb
  tnf : r.tnf = ndefTnfUnchanged
  il : ¬ has r.hdr ndefIlMask
  type : r.type = []

def javaAccepts (st : ParseState) : List Rec → Prop
  | [] => False
  | r :: rs => ∃ st', judgeRec false st r = .ok st' ∧ if r.me then rs = [] else javaAccepts st' rs

section Parser
variable {st st' : ParseState} {r : Rec} {rs : List Rec} {flag : UInt8}

theorem parseLoop_iff (rs : List Rec) : ∀ (fuel : Nat) (st : ParseState), rs.length ≤ fuel →
    ((∃ msg, parseLoop false fuel st (recsBytes rs) = .ok (msg, [])) ↔ javaAccepts st rs) := by
  induction rs with
  | nil =>
    intro fuel st _
    refine ⟨fun ⟨msg, h⟩ => ?_, False.elim⟩
    cases fuel with
    | zero => cases h
    | succ fuel => cases h
  | cons r rs ih =>
    intro fuel st hfuel
    obtain ⟨fuel, rfl⟩ : ∃ n, fuel = n + 1 := ⟨fuel - 1, by simp at hfuel; omega⟩
    rw [parseLoop, recsBytes_cons, parseRecord_bytes, javaAccepts]
    cases hjudge : judgeRec false st r with
    | error e => exact ⟨fun ⟨_, h⟩ => (nomatch h), fun ⟨_, h, _⟩ => (nomatch h)⟩
    | ok st' =>
      dsimp only [Except.map, Except.bind]
      by_cases hme : r.me
      · rw [if_pos (.inl hme)]
        constructor
        · rintro ⟨msg, h⟩
          obtain ⟨-, hnil⟩ := Prod.mk.inj (Except.ok.inj h)
          refine ⟨st', rfl, ?_⟩
          rw [if_pos hme]
          exact recsBytes_inj hnil
        · rintro ⟨st'', -, h⟩
          rw [if_pos hme] at h
          exact ⟨st'.records, by rw [h]; rfl⟩
      · rw [if_neg (by rintro (h | h); exacts [hme h, nomatch h.1]),
          ih fuel st' (by simp at hfuel; omega)]
        constructor
        · intro h
          refine ⟨st', rfl, ?_⟩
          rw [if_neg hme]
          exact h
        · rintro ⟨st'', heq, h⟩
          obtain rfl := Except.ok.inj heq
          rw [if_neg hme] at h
          exact h

theorem records_of_parseLoop (fuel : Nat) : ∀ (st : ParseState) (buf : Bytes) (msg : List NdefRecord),
    parseLoop false fuel st buf = .ok (msg, []) → ∃ rs, buf = recsBytes rs := by
  induction fuel with
  | zero => nofun
  | succ fuel ih =>
    intro st buf msg h
    unfold parseLoop at h
    obtain ⟨⟨st', flag, rest⟩, hrec, hok⟩ := bind_ok h
    obtain ⟨r, -, rfl⟩ := exists_rec_of_parseRecord hrec
    dsimp only at hok
    split at hok
    · obtain ⟨-, rfl⟩ := Prod.mk.inj (Except.ok.inj hok)
      exact ⟨[r], rfl⟩
    · obtain ⟨rs, rfl⟩ := ih st' rest msg hok
      exact ⟨r :: rs, rfl⟩

theorem newNdefMessage_iff (data : Bytes) : (∃ msg, newNdefMessage data = .ok msg) ↔
    ∃ rs, data = recsBytes rs ∧ javaAccepts parseInit rs := by
  have hends : (∃ msg, newNdefMessage data = .ok msg) ↔ ∃ msg, parse data false = .ok (msg, []) := by
    unfold newNdefMessage
    constructor
    · rintro ⟨msg, h⟩
      obtain ⟨⟨msg', rest⟩, hparse, h⟩ := bind_ok h
      dsimp only at h
      split at h
      · cases h
      · rename_i hrest
        obtain rfl : rest = [] := List.eq_nil_of_length_eq_zero (by omega)
        exact ⟨msg', hparse⟩
    · rintro ⟨msg, h⟩
      exact ⟨msg, by rw [h]; rfl⟩
  have hloop : ∀ rs, data = recsBytes rs → ((∃ msg, parse data false = .ok (msg, [])) ↔ javaAccepts parseInit rs) := by
    intro rs hrs
    have hthree := length_le_recsLen rs
    have hlen : recsLen rs = data.length := by rw [hrs]; rfl
    unfold parse
    rw [← parseLoop_iff rs (data.length + 1) parseInit (by omega), hrs]
  rw [hends]
  constructor
  · rintro ⟨msg, h⟩
    obtain ⟨rs, hrs⟩ := records_of_parseLoop _ _ _ _ h
    exact ⟨rs, hrs, (hloop rs hrs).mp ⟨msg, h⟩⟩
  · rintro ⟨rs, hrs, h⟩
    exact (hloop rs hrs).mpr h

theorem checkFlags_iff : checkFlags false st flag = .ok () ↔
    (st.inChunk = true → ¬ has flag ndefIlMask) ∧ ¬ (has flag ndefCfMask ∧ has flag ndefMeMask) ∧
      (flag &&& ndefTnfMask = ndefTnfUnchanged ↔ st.inChunk = true) ∧
      (has flag ndefMbMask ↔ st.records.length = 0 ∧ st.inChunk = false) := by
  constructor
  · intro h
    obtain ⟨hil, hme, htnf, hmb⟩ := checkFlags_ok h
    exact ⟨hil, hme, htnf, hmb rfl⟩
  · rintro ⟨hil, hme, htnf, hmb⟩
    unfold checkFlags
    rw [if_neg, if_neg, if_neg (fun h => hil h.1 h.2), if_neg hme, if_neg (fun h => h.2 (htnf.mpr h.1)),
      if_neg (fun h => h.1 (htnf.mp h.2))]
    · rintro ⟨hset, hrec | hin, -⟩
      · exact hrec (hmb.mp hset).1
      · rw [(hmb.mp hset).2] at hin
        cases hin
    · rintro ⟨hset, hrec, hin, -⟩
      exact hset (hmb.mpr ⟨hrec, by simpa using hin⟩)

theorem validateTnf_iff (h6 : r.tnf ≠ ndefTnfUnchanged) (id payload : Bytes) :
    validateTnf r.tnf.toNat r.type id payload = none ↔
      (r.tnf = ndefTnfEmpty → r.type = [] ∧ id = [] ∧ payload = []) ∧ (r.tnf = ndefTnfUnknown → r.type = []) ∧
        (r.tnf = ndefTnfReserved → r.type = []) := by
  have hlt : r.tnf.toNat < 8 := by
    unfold Rec.tnf
    rw [UInt8.toNat_and]
    exact Nat.lt_succ_of_le Nat.and_le_right
  have hnum : ∀ n : UInt8, r.tnf = n ↔ r.tnf.toNat = n.toNat := fun n => UInt8.toNat_inj.symm
  rw [Ne, hnum] at h6
  rw [hnum, hnum, hnum]
  change ¬ _ = 6 at h6
  change _ ↔ (_ = 0 → _) ∧ (_ = 5 → _) ∧ (_ = 7 → _)
  generalize r.tnf.toNat = n at *
  unfold validateTnf
  interval_cases n
  all_goals simp
  omega

theorem toNat_tnf_eq (r : Rec) (n : UInt8) : r.tnf = n ↔ r.tnf.toNat = n.toNat := UInt8.toNat_inj.symm

theorem validateTnf_opens (htype : r.type ≠ [] ∨ r.tnf = ndefTnfUnknown) {id payload : Bytes}
    (h : validateTnf r.tnf.toNat r.type id payload = none) (payload' : Bytes) :
    validateTnf r.tnf.toNat r.type id payload' = none := by
  have hne : r.tnf.toNat ≠ 0 ∨ r.type ≠ [] := htype.symm.imp (fun h5 => by rw [h5]; decide) fun h => h
  unfold validateTnf at h ⊢
  split at h
  case h_1 h0 =>
    rcases hne with hne | hne
    · exact absurd h0 hne
    · rw [if_pos (.inl (fun hnil => hne (List.eq_nil_of_length_eq_zero hnil)))] at h
      cases h
  all_goals exact h

/-- The format of a record of which chunks are missing will do for every payload. -/
def Opened (st : ParseState) : Prop :=
  st.inChunk = true → ∀ payload, validateTnf st.chunkTnf st.type st.id payload = none

/-- Two states of the readers that belong together. `pending` is the length of the chunks so far. -/
structure Together (st : ParseState) (count pending : Nat) : Prop where
  count : 0 < count ↔ ¬ (st.records.length = 0 ∧ st.inChunk = false)
  pending : pending = if st.inChunk then st.chunks.flatten.length else 0

/-! ## One pass of the loop -/

theorem judgeRec_open_iff (hin : st.inChunk = false) : judgeRec false st r = .ok st' ↔
    (r.mb ↔ st.records = []) ∧ r.tnf ≠ ndefTnfUnchanged ∧ ¬ (r.cf ∧ r.me) ∧ r.payload.length ≤ maxPayloadSize ∧
      if r.cf then (r.type ≠ [] ∨ r.tnf = ndefTnfUnknown) ∧
        st' = ⟨st.records, r.type, r.id, [r.payload], true, r.tnf.toNat⟩
      else ∃ h : validateTnf r.tnf.toNat r.type r.id r.payload = none,
        st' = { st with type := r.type, id := r.id, records := st.records ++ [⟨r.tnf.toNat, r.type, r.id, r.payload, h⟩] } := by
  have hflags : checkFlags false st r.hdr = .ok () ↔
      (r.mb ↔ st.records = []) ∧ r.tnf ≠ ndefTnfUnchanged ∧ ¬ (r.cf ∧ r.me) := by
    rw [checkFlags_iff, hin]
    simp only [Bool.false_eq_true, false_imp_iff, true_and, iff_false, and_true, List.length_eq_zero_iff]
    exact ⟨fun h => ⟨h.2.2, h.2.1, h.1⟩, fun h => ⟨h.2.2, h.2.1, h.1⟩⟩
  have h5 : r.tnf = ndefTnfUnknown ↔ r.tnf.toNat = 5 := toNat_tnf_eq r ndefTnfUnknown
  cases hok : checkFlags false st r.hdr with
  | error e =>
    have hno : ¬ checkFlags false st r.hdr = .ok () := by rw [hok]; exact error_ne_ok
    rw [hflags] at hno
    unfold judgeRec
    rw [hok]
    refine iff_of_false error_ne_ok fun h => hno ⟨h.1, h.2.1, h.2.2.1⟩
  | ok u =>
    obtain ⟨hmb, htnf, hme⟩ := hflags.mp hok
    simp only [hmb, htnf, hme, not_false_eq_true, true_and, ne_eq]
    unfold judgeRec judgePayload addPayload
    rw [hok]
    dsimp only [Except.bind]
    rw [hin, if_neg Bool.false_ne_true]
    by_cases hsize : r.payload.length ≤ maxPayloadSize
    case neg =>
      rw [if_pos (Nat.lt_of_not_le hsize)]
      exact iff_of_false error_ne_ok fun h => hsize h.1
    case pos =>
      rw [if_neg (Nat.not_lt.mpr hsize)]
      simp only [hsize, true_and]
      by_cases hcf : r.cf
      · rw [decide_eq_true hcf, if_pos rfl, if_neg Bool.false_ne_true, if_pos hcf, h5, ← List.length_eq_zero_iff]
        split
        case isTrue h => exact iff_of_false error_ne_ok fun h' => h'.1.elim (fun h1 => h1 h.1) fun h2 => h.2 h2
        case isFalse h =>
          have hty : ¬ r.type.length = 0 ∨ r.tnf.toNat = 5 := by omega
          simp only [hty, true_and, Except.ok.injEq]
          exact eq_comm
      · rw [decide_eq_false hcf, if_neg Bool.false_ne_true, if_neg Bool.false_ne_true, if_neg hcf]
        unfold addRecord
        split
        case h_1 e he =>
          exact iff_of_false error_ne_ok fun h => Option.some_ne_none _ (he.symm.trans h.1)
        case h_2 he =>
          simp only [Except.ok.injEq, he, exists_true_left]
          exact eq_comm

theorem judgeRec_chunk_iff (hin : st.inChunk = true) : judgeRec false st r = .ok st' ↔
    IsChunk r ∧ ¬ (r.cf ∧ r.me) ∧ r.payload.length ≤ maxPayloadSize ∧
      if r.cf then st' = { st with chunks := st.chunks ++ [r.payload] }
      else (st.chunks ++ [r.payload]).flatten.length ≤ maxPayloadSize ∧
        ∃ h : validateTnf st.chunkTnf st.type st.id (st.chunks ++ [r.payload]).flatten = none,
          st' = { st with
            chunks := st.chunks ++ [r.payload]
            records := st.records ++ [⟨st.chunkTnf, st.type, st.id, (st.chunks ++ [r.payload]).flatten, h⟩]
            inChunk := false } := by
  have hflags : checkFlags false st r.hdr = .ok () ↔
      ¬ r.mb ∧ r.tnf = ndefTnfUnchanged ∧ ¬ has r.hdr ndefIlMask ∧ ¬ (r.cf ∧ r.me) := by
    rw [checkFlags_iff, hin]
    simp only [true_imp_iff, iff_true, Bool.true_eq_false, and_false, iff_false]
    exact ⟨fun h => ⟨h.2.2.2, h.2.2.1, h.1, h.2.1⟩, fun h => ⟨h.2.2.1, h.2.2.2, h.2.1, h.1⟩⟩
  cases hok : checkFlags false st r.hdr with
  | error e =>
    have hno : ¬ checkFlags false st r.hdr = .ok () := by rw [hok]; exact error_ne_ok
    rw [hflags] at hno
    unfold judgeRec
    rw [hok]
    exact iff_of_false error_ne_ok fun h => hno ⟨h.1.mb, h.1.tnf, h.1.il, h.2.1⟩
  | ok u =>
    obtain ⟨hmb, htnf, hil, hme⟩ := hflags.mp hok
    have hchunk : IsChunk r ↔ r.type.length = 0 :=
      ⟨fun h => by rw [h.type]; rfl, fun h => ⟨hmb, htnf, hil, List.eq_nil_of_length_eq_zero h⟩⟩
    by_cases htype : r.type.length = 0
    case neg =>
      unfold judgeRec
      rw [hok]
      dsimp only [Except.bind]
      rw [if_pos hin, if_pos htype]
      exact iff_of_false error_ne_ok fun h => htype (hchunk.mp h.1)
    case pos =>
      simp only [hchunk.mpr htype, hme, not_false_eq_true, true_and]
      unfold judgeRec judgePayload addPayload
      rw [hok]
      dsimp only [Except.bind]
      rw [if_pos hin, if_neg (not_not.mpr htype)]
      by_cases hsize : r.payload.length ≤ maxPayloadSize
      case neg =>
        rw [if_pos (Nat.lt_of_not_le hsize)]
        exact iff_of_false error_ne_ok fun h => hsize h.1
      case pos =>
        rw [if_neg (Nat.not_lt.mpr hsize)]
        by_cases hcf : r.cf
        · rw [decide_eq_true hcf, if_pos rfl, if_pos hin, if_pos hcf]
          simp only [hsize, true_and, Except.ok.injEq]
          exact eq_comm
        · rw [decide_eq_false hcf, if_neg Bool.false_ne_true, if_pos hin, if_neg hcf]
          by_cases htotal : (st.chunks ++ [r.payload]).flatten.length ≤ maxPayloadSize
          case neg =>
            rw [if_pos (Nat.lt_of_not_le htotal)]
            exact iff_of_false error_ne_ok fun h => htotal h.2.1
          case pos =>
            rw [if_neg (Nat.not_lt.mpr htotal)]
            simp only [hsize, htotal, true_and]
            unfold addRecord
            split
            case h_1 e he =>
              exact iff_of_false error_ne_ok fun h => Option.some_ne_none _ (he.symm.trans h.1)
            case h_2 he =>
              simp only [Except.ok.injEq, he, exists_true_left]
              exact eq_comm

theorem WithinLimit.head {pending : Nat} (h : WithinLimit pending (r :: rs)) : r.payload.length ≤ maxPayloadSize :=
  Nat.le_trans (Nat.le_add_left _ _) h.1

theorem Together.pending_of_inChunk {count pending : Nat} (h : Together st count pending) (hin : st.inChunk = true) :
    pending = st.chunks.flatten.length := by
  have := h.pending
  rwa [if_pos hin] at this

theorem together_judgeRec {count pending : Nat} (ht : Together st count pending) (h : judgeRec false st r = .ok st') :
    ¬ (r.cf ∧ r.me) ∧ st'.inChunk = decide r.cf ∧
      Together st' (count + 1) (if r.cf then pending + r.payload.length else 0) := by
  by_cases hin : st.inChunk = true
  · obtain ⟨-, hme, -, hkind⟩ := (judgeRec_chunk_iff hin).mp h
    by_cases hcf : r.cf
    · rw [if_pos hcf] at hkind ⊢
      subst hkind
      refine ⟨hme, hin.trans (decide_eq_true hcf).symm,
        iff_of_true (Nat.succ_pos count) fun hn => Bool.noConfusion (hin.symm.trans hn.2), ?_⟩
      rw [if_pos hin, ht.pending_of_inChunk hin]
      simp
    · rw [if_neg hcf] at hkind ⊢
      obtain ⟨-, -, rfl⟩ := hkind
      exact ⟨hme, (decide_eq_false hcf).symm, iff_of_true (Nat.succ_pos count) fun hn => by simp at hn, rfl⟩
  · have hp : pending = 0 := by
      have := ht.pending
      rwa [if_neg hin] at this
    obtain ⟨-, -, hme, -, hkind⟩ := (judgeRec_open_iff (by simpa using hin)).mp h
    by_cases hcf : r.cf
    · rw [if_pos hcf] at hkind ⊢
      obtain ⟨-, rfl⟩ := hkind
      refine ⟨hme, (decide_eq_true hcf).symm, iff_of_true (Nat.succ_pos count) fun hn => Bool.noConfusion hn.2, ?_⟩
      rw [if_pos rfl, hp]
      simp
    · rw [if_neg hcf] at hkind ⊢
      obtain ⟨-, rfl⟩ := hkind
      rw [Bool.not_eq_true] at hin
      exact ⟨hme, hin.trans (decide_eq_false hcf).symm, iff_of_true (Nat.succ_pos count) fun hn => by simp at hn, by rw [hin]; rfl⟩

theorem closes_of_javaAccepts (rs : List Rec) : ∀ (st : ParseState), st.inChunk = true → javaAccepts st rs →
    ∃ payload, validateTnf st.chunkTnf st.type st.id payload = none := by
  induction rs with
  | nil => exact fun _ _ h => h.elim
  | cons r rs ih =>
    rintro st hin ⟨st', hjudge, hrest⟩
    obtain ⟨-, hme, -, hkind⟩ := (judgeRec_chunk_iff hin).mp hjudge
    by_cases hcf : r.cf
    · rw [if_neg (fun hm => hme ⟨hcf, hm⟩)] at hrest
      rw [if_pos hcf] at hkind
      subst hkind
      exact ih { st with chunks := st.chunks ++ [r.payload] } hin hrest
    · rw [if_neg hcf] at hkind
      obtain ⟨-, hformat, -⟩ := hkind
      exact ⟨_, hformat⟩

def CleanRec (inChunk : Bool) (r : Rec) : Prop :=
  ¬ (r.cf ∧ r.me) ∧ (inChunk = true → ¬ has r.hdr ndefIlMask) ∧
    (inChunk = false → r.cf → r.type ≠ [] ∨ r.tnf = ndefTnfUnknown)

/-- The parser takes the record, and will be able to close what it opens. -/
def Passes (st : ParseState) (r : Rec) : Prop := ∃ st', judgeRec false st r = .ok st' ∧ Opened st'

theorem passes_chunk_iff {pending : Nat} (hin : st.inChunk = true) (ho : Opened st)
    (hp : pending = st.chunks.flatten.length) (hw : WithinLimit pending (r :: rs)) :
    Passes st r ↔ IsChunk r ∧ ¬ (r.cf ∧ r.me) := by
  constructor
  · rintro ⟨st', hjudge, -⟩
    obtain ⟨hchunk, hme, -⟩ := (judgeRec_chunk_iff hin).mp hjudge
    exact ⟨hchunk, hme⟩
  · rintro ⟨hchunk, hme⟩
    by_cases hcf : r.cf
    · refine ⟨{ st with chunks := st.chunks ++ [r.payload] }, (judgeRec_chunk_iff hin).mpr ⟨hchunk, hme, hw.head, ?_⟩,
        fun _ => ho hin⟩
      rw [if_pos hcf]
    · have hsize : (st.chunks ++ [r.payload]).flatten.length ≤ maxPayloadSize := by
        have := hw.1
        rw [hp] at this
        simpa using this
      refine ⟨{ st with
        chunks := st.chunks ++ [r.payload]
        records := st.records ++ [⟨st.chunkTnf, st.type, st.id, (st.chunks ++ [r.payload]).flatten, ho hin _⟩]
        inChunk := false }, (judgeRec_chunk_iff hin).mpr ⟨hchunk, hme, hw.head, ?_⟩, fun h => Bool.noConfusion h⟩
      rw [if_neg hcf]
      exact ⟨hsize, ho hin _, rfl⟩

theorem passes_open_iff (hin : st.inChunk = false) (hsize : r.payload.length ≤ maxPayloadSize) :
    Passes st r ↔ (r.mb ↔ st.records = []) ∧ r.tnf ≠ ndefTnfUnchanged ∧ ¬ (r.cf ∧ r.me) ∧
      (r.cf → r.type ≠ [] ∨ r.tnf = ndefTnfUnknown) ∧ validateTnf r.tnf.toNat r.type r.id r.payload = none := by
  constructor
  · rintro ⟨st', hjudge, ho⟩
    obtain ⟨hmb, htnf, hme, -, hkind⟩ := (judgeRec_open_iff hin).mp hjudge
    by_cases hcf : r.cf
    · rw [if_pos hcf] at hkind
      obtain ⟨htype, rfl⟩ := hkind
      exact ⟨hmb, htnf, hme, fun _ => htype, ho rfl r.payload⟩
    · rw [if_neg hcf] at hkind
      obtain ⟨hformat, -⟩ := hkind
      exact ⟨hmb, htnf, hme, fun h => absurd h hcf, hformat⟩
  · rintro ⟨hmb, htnf, hme, htype, hformat⟩
    by_cases hcf : r.cf
    · refine ⟨⟨st.records, r.type, r.id, [r.payload], true, r.tnf.toNat⟩,
        (judgeRec_open_iff hin).mpr ⟨hmb, htnf, hme, hsize, ?_⟩, fun _ => validateTnf_opens (htype hcf) hformat⟩
      rw [if_pos hcf]
      exact ⟨htype hcf, rfl⟩
    · refine ⟨{ st with
        type := r.type, id := r.id, records := st.records ++ [⟨r.tnf.toNat, r.type, r.id, r.payload, hformat⟩] },
        (judgeRec_open_iff hin).mpr ⟨hmb, htnf, hme, hsize, ?_⟩, fun h => Bool.noConfusion (hin.symm.trans h)⟩
      rw [if_neg hcf]
      exact ⟨hformat, rfl⟩

theorem rec_iff {count pending : Nat} (ht : Together st count pending) (ho : Opened st)
    (hw : WithinLimit pending (r :: rs)) :
    (Passes st r ∧ Strict r) ↔ r.Placed true count st.inChunk ∧ CleanRec st.inChunk r ∧ (count = 0 → r.mb) := by
  have hchars := fun (hs : Strict r) ht b hb => (validChar_iff b).mp (hs.chars ht b hb)
  have hstrict : r.Rules → Strict r := fun h =>
    ⟨h.tnf, fun h0 => (h.empty h0).1, h.ext, fun ht b hb => (validChar_iff b).mpr (h.chars ht b hb)⟩
  by_cases hin : st.inChunk = true
  · have hpos : 0 < count := ht.count.mpr fun h => Bool.noConfusion (hin.symm.trans h.2)
    rw [passes_chunk_iff hin ho (ht.pending_of_inChunk hin) hw, hin]
    constructor
    · rintro ⟨⟨hchunk, hme⟩, hs⟩
      have htnf := hchunk.tnf
      refine ⟨⟨⟨hs.reserved, fun h0 => ?_, fun h5 => ?_, hs.ext, hchars hs⟩, fun _ => hchunk.mb, fun _ hmb => absurd hmb hchunk.mb,
        fun _ => rfl, iff_of_true htnf rfl, fun _ => ⟨hchunk.type, r.id_il hchunk.il⟩⟩,
        ⟨hme, fun _ => hchunk.il, fun h => Bool.noConfusion h⟩, fun h0 => absurd h0 (Nat.ne_of_gt hpos)⟩
      · rw [h0] at htnf
        cases htnf
      · rw [h5] at htnf
        cases htnf
    · rintro ⟨hp, ⟨hme, hil, -⟩, -⟩
      exact ⟨⟨⟨hp.begins hpos, hp.unchanged.mpr rfl, hil rfl, (hp.bare rfl).1⟩, hme⟩, hstrict hp.rules⟩
  · rw [Bool.not_eq_true] at hin
    have hcount : count = 0 ↔ st.records = [] := by
      rw [← not_iff_not]
      exact Nat.pos_iff_ne_zero.symm.trans (by rw [ht.count, hin, and_iff_left rfl, List.length_eq_zero_iff])
    rw [passes_open_iff hin hw.head, hin, ← hcount]
    constructor
    · rintro ⟨⟨hmb, htnf, hme, htype, hformat⟩, hs⟩
      obtain ⟨h0, h5, -⟩ := (validateTnf_iff htnf r.id r.payload).mp hformat
      exact ⟨⟨⟨hs.reserved, fun h => ⟨hs.empty h, h0 h⟩, h5, hs.ext, hchars hs⟩,
        fun hpos h => absurd (hmb.mp h) (Nat.ne_of_gt hpos), fun hcf _ hnil => (htype hcf).resolve_left fun h => h hnil,
        fun _ => rfl, iff_of_false htnf Bool.false_ne_true, fun h => Bool.noConfusion h⟩,
        ⟨hme, fun h => Bool.noConfusion h, fun _ => htype⟩, hmb.mpr⟩
    · rintro ⟨hp, ⟨hme, -, htype⟩, hmb⟩
      have htnf : r.tnf ≠ ndefTnfUnchanged := fun h => Bool.noConfusion (hp.unchanged.mp h)
      refine ⟨⟨⟨fun h => ?_, hmb⟩, htnf, hme, htype rfl, ?_⟩, hstrict hp.rules⟩
      · by_contra hne
        exact hp.begins (Nat.pos_of_ne_zero hne) h
      · exact (validateTnf_iff htnf r.id r.payload).mpr
          ⟨fun h => (hp.rules.empty h).2, hp.rules.unknown, fun h => absurd h hp.rules.tnf⟩

theorem opened_of_javaAccepts {count pending : Nat} (ht : Together st count pending) (ho : Opened st)
    (hjudge : judgeRec false st r = .ok st') (hrest : if r.me then rs = [] else javaAccepts st' rs) : Opened st' := by
  intro hin'
  obtain ⟨hme, hcf', -⟩ := together_judgeRec ht hjudge
  have hcf : r.cf := of_decide_eq_true (hcf'.symm.trans hin')
  rw [if_neg (fun hm => hme ⟨hcf, hm⟩)] at hrest
  obtain ⟨payload, hcloses⟩ := closes_of_javaAccepts rs st' hin' hrest
  by_cases hin : st.inChunk = true
  · obtain ⟨-, -, -, hkind⟩ := (judgeRec_chunk_iff hin).mp hjudge
    rw [if_pos hcf] at hkind
    subst hkind
    exact ho hin
  · obtain ⟨-, -, -, -, hkind⟩ := (judgeRec_open_iff (by simpa using hin)).mp hjudge
    rw [if_pos hcf] at hkind
    obtain ⟨htype, rfl⟩ := hkind
    exact validateTnf_opens htype hcloses

theorem accepts_iff (rs : List Rec) : ∀ (st : ParseState) (count pending : Nat), Together st count pending →
    Opened st → WithinLimit pending rs →
    (javaAccepts st rs ∧ (∀ r ∈ rs, Strict r) ↔
      nativeAccepts count st.inChunk rs ∧ CleanChunks st.inChunk rs ∧ (count = 0 → ∀ r ∈ rs.head?, r.mb)) := by
  induction rs with
  | nil => exact fun _ _ _ _ _ _ => ⟨fun h => h.1.elim, fun h => h.1.elim⟩
  | cons r rs ih =>
    intro st count pending ht ho hw
    have hrec := rec_iff ht ho hw
    have hhead : (∀ x ∈ (r :: rs).head?, x.mb) ↔ r.mb := by simp
    rw [hhead, nativeAccepts, CleanChunks, javaAccepts]
    constructor
    · rintro ⟨⟨st', hjudge, hrest⟩, hstrict⟩
      have ho' := opened_of_javaAccepts ht ho hjudge hrest
      obtain ⟨-, hin', ht'⟩ := together_judgeRec ht hjudge
      obtain ⟨hnative, hclean, hmb⟩ := hrec.mp ⟨⟨st', hjudge, ho'⟩, hstrict r List.mem_cons_self⟩
      split at hrest
      · rename_i hme
        subst hrest
        rw [if_pos hme]
        exact ⟨⟨hnative, rfl⟩, ⟨hclean.1, hclean.2.1, hclean.2.2, trivial⟩, hmb⟩
      · rename_i hme
        rw [if_neg hme]
        obtain ⟨hn, hc, -⟩ := (ih st' (count + 1) _ ht' ho' hw.2).mp
          ⟨hrest, fun x hx => hstrict x (List.mem_cons_of_mem r hx)⟩
        rw [hin'] at hn hc
        exact ⟨⟨hnative, hn⟩, ⟨hclean.1, hclean.2.1, hclean.2.2, hc⟩, hmb⟩
    · rintro ⟨⟨hnative, hrest⟩, ⟨hc1, hc2, hc3, hc⟩, hmb⟩
      obtain ⟨⟨st', hjudge, ho'⟩, hstrict⟩ := hrec.mpr ⟨hnative, ⟨hc1, hc2, hc3⟩, hmb⟩
      obtain ⟨-, hin', ht'⟩ := together_judgeRec ht hjudge
      split at hrest
      · rename_i hme
        subst hrest
        refine ⟨⟨st', hjudge, if_pos hme ▸ rfl⟩, fun x hx => ?_⟩
        rw [List.mem_singleton.mp hx]
        exact hstrict
      · rename_i hme
        rw [← hin'] at hrest hc
        obtain ⟨hj, hall⟩ := (ih st' (count + 1) _ ht' ho' hw.2).mpr ⟨hrest, hc, nofun⟩
        refine ⟨⟨st', hjudge, ?_⟩, fun x hx => ?_⟩
        · rw [if_neg hme]
          exact hj
        · rcases List.mem_cons.mp hx with rfl | hx
          · exact hstrict
          · exact hall x hx

end Parser

/-! ## The two readers -/

def JavaOk (data : Bytes) : Prop := ∃ msg, newNdefMessage data = .ok msg

abbrev NativeOk (data : Bytes) : Prop := ndefMsgValidate (some data) (UInt32.ofNat data.length) true = some .ok

/-- For every buffer whose payloads are within the limit: the parser accepts it, and its records are as
the native check alone wants them, if and only if the native check accepts it and its chunks are as
the parser alone wants them. -/
theorem ndef_parsers_agree (data : Bytes) (hlen : data.length < 2 ^ 32) (hlimit : OfRecords data (WithinLimit 0)) :
    (JavaOk data ∧ OfRecords data fun rs => ∀ r ∈ rs, Strict r) ↔
      NativeOk data ∧ OfRecords data (CleanChunks false) := by
  have hsplit : ∀ rs, data = recsBytes rs → (javaAccepts parseInit rs ∧ (∀ r ∈ rs, Strict r) ↔
      nativeAccepts 0 false rs ∧ CleanChunks false rs ∧ (0 = 0 → ∀ r ∈ rs.head?, r.mb)) := by
    intro rs hrs
    exact accepts_iff rs parseInit 0 0 ⟨by simp [parseInit], rfl⟩ nofun (hlimit rs hrs)
  unfold JavaOk NativeOk
  rw [newNdefMessage_iff, ndefMsgValidate_iff hlen]
  constructor
  · rintro ⟨⟨rs, rfl, hjava⟩, hstrict⟩
    obtain ⟨hnative, hclean, hmb⟩ := (hsplit rs rfl).mp ⟨hjava, ofRecords_iff.mp hstrict⟩
    exact ⟨⟨rs, rfl, hnative, hmb rfl⟩, ofRecords_iff.mpr hclean⟩
  · rintro ⟨⟨rs, rfl, hnative, hmb⟩, hclean⟩
    obtain ⟨hjava, hstrict⟩ := (hsplit rs rfl).mpr ⟨hnative, ofRecords_iff.mp hclean, fun _ => hmb⟩
    exact ⟨⟨rs, rfl, hjava⟩, ofRecords_iff.mpr hstrict⟩

def textChunks : List Rec :=
  [⟨0xB1, [0x54], [], [1], text_type_lt, no_bytes_lt, fun _ => rfl, by decide⟩,
    ⟨0x56, [], [], [2], no_bytes_lt, no_bytes_lt, fun _ => rfl, by decide⟩]

theorem ndef_parsers_agree_text : JavaOk [0xB1, 1, 1, 0x54, 1, 0x56, 0, 1, 2] := by
  have hdata : [0xB1, 1, 1, 0x54, 1, 0x56, 0, 1, 2] = recsBytes textChunks := by decide
  refine ((ndef_parsers_agree [0xB1, 1, 1, 0x54, 1, 0x56, 0, 1, 2] (by decide) ?_).mpr ⟨by decide, ?_⟩).1
  · rw [hdata, ofRecords_iff]
    exact ⟨by decide, by decide, trivial⟩
  · rw [hdata, ofRecords_iff]
    exact ⟨by decide, nofun, fun _ _ => .inl (by decide), by decide, fun _ => by decide, nofun, trivial⟩

def reservedRec : Rec := ⟨0xD7, [], [], [], no_bytes_lt, no_bytes_lt, fun _ => rfl, by decide⟩

theorem reserved_record_differs : ¬ ∀ data : Bytes, data.length < 2 ^ 32 → OfRecords data (WithinLimit 0) →
    (JavaOk data ↔ NativeOk data) := by
  intro h
  have hdata : [0xD7, 0, 0] = recsBytes [reservedRec] := by decide
  have hlimit : OfRecords [0xD7, 0, 0] (WithinLimit 0) := by
    rw [hdata, ofRecords_iff]
    exact ⟨by decide, trivial⟩
  have hnative : NativeOk [0xD7, 0, 0] := (h _ (by decide) hlimit).mp ⟨_, rfl⟩
  exact absurd hnative (by decide)

end NfcStack.Framework
