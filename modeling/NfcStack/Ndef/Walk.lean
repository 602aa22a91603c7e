import NfcStack.Ndef.Record

/- Walking an NDEF message (`ndef_utils.cc`: the functions that get at records and
   fields). They have no length to stop at: they trust the ME bit of the last
   record, and that the message was validated.

   What is proved:
     1. a spec of each loop (`numRecsLoop_spec` and so on), by induction over the
        records it has before it;
     2. `walks_of_records`: on an append of records of which the last has ME and no
        other, every walker returns, and what it returns is the record, the count
        or the field.

   A pointer into the message is its offset. `none` is a read outside of the
   buffer, or a loop that does not end; a null pointer is `some none`. -/
namespace NfcStack.Ndef
open NfcStack.Lib

/-! ## The code -/

def readBytes (mem : Bytes) (p len : Nat) : Option Bytes :=
  if p + len ≤ mem.length then some (slice mem p len) else none

section Walkers
variable (mem : Bytes)

/-- As many rounds as a walk may take: every record has a byte. -/
def walkFuel : Nat := mem.length + 1

def numRecsLoop : Nat → Nat → Nat → Option Nat
  | 0, _, _ => none
  | fuel + 1, p, count =>
    mem[p]?.bind fun hdr =>
      if has hdr ndefMeMask then some (count + 1)
      else (readRecHdr mem p).bind fun h => numRecsLoop fuel h.next (count + 1)

def ndefMsgGetNumRecs : Option Nat := numRecsLoop mem (walkFuel mem) 0 0

def ndefMsgGetNextRec (pCurRec : Nat) : Option (Option Nat) :=
  mem[pCurRec]?.bind fun hdr =>
    if has hdr ndefMeMask then some none else (readRecHdr mem pCurRec).map fun h => some h.next

def recByIndexLoop (index : Int) : Nat → Nat → Nat → Option (Option Nat)
  | 0, _, _ => none
  | fuel + 1, p, count =>
    if (count : Int) = index then some (some p)
    else mem[p]?.bind fun hdr =>
      if has hdr ndefMeMask then some none
      else (readRecHdr mem p).bind fun h => recByIndexLoop index fuel h.next (count + 1)

def ndefMsgGetRecByIndex (index : Int) : Option (Option Nat) :=
  recByIndexLoop mem index (walkFuel mem) 0 0

def lastRecLoop : Nat → Nat → Option Nat
  | 0, _ => none
  | fuel + 1, p =>
    mem[p]?.bind fun hdr =>
      if has hdr ndefMeMask then some p
      else (readRecHdr mem p).bind fun h => lastRecLoop fuel h.next

/-- `NDEF_MsgGetLastRecInMsg`. -/
def ndefMsgGetLastRecInMsg : Option Nat := lastRecLoop mem (walkFuel mem) 0

/-- `memcmp` against the caller's `bs`, here only for equality. -/
def memcmp (p : Nat) (bs : Bytes) : Option Bool :=
  (readBytes mem p bs.length).map fun cs => cs = bs

def recByTypeLoop (tnf : UInt8) (pType : Bytes) : Nat → Nat → Option (Option Nat)
  | 0, _ => none
  | fuel + 1, p =>
    (readRecHdr mem p).bind fun h =>
      (if h.hdr &&& ndefTnfMask = tnf ∧ h.typeLen.toNat = pType.length then memcmp mem h.body pType
        else some false).bind fun found =>
          if found then some (some p)
          else if has h.hdr ndefMeMask then some none
          else recByTypeLoop tnf pType fuel h.next

/-- `NDEF_MsgGetFirstRecByType`; `tlen` is the length of `pType`. -/
def ndefMsgGetFirstRecByType (tnf : UInt8) (pType : Bytes) : Option (Option Nat) :=
  recByTypeLoop mem tnf pType (walkFuel mem) 0

/-- `NDEF_MsgGetNextRecByType`. -/
def ndefMsgGetNextRecByType (pCurRec : Nat) (tnf : UInt8) (pType : Bytes) : Option (Option Nat) :=
  (ndefMsgGetNextRec mem pCurRec).bind fun
    | none => some none
    | some p => recByTypeLoop mem tnf pType (walkFuel mem) p

def recByIdLoop (pId : Bytes) : Nat → Nat → Option (Option Nat)
  | 0, _ => none
  | fuel + 1, p =>
    (readRecHdr mem p).bind fun h =>
      (if h.idLen.toNat = pId.length then memcmp mem (h.body + h.typeLen.toNat) pId
        else some false).bind fun found =>
          if found then some (some p)
          else if has h.hdr ndefMeMask then some none
          else recByIdLoop pId fuel
            (h.body + h.typeLen.toNat + (h.idLen.toUInt32 + h.payloadLen).toNat)

/-- `NDEF_MsgGetFirstRecById`; `ilen` is the length of `pId`. -/
def ndefMsgGetFirstRecById (pId : Bytes) : Option (Option Nat) :=
  recByIdLoop mem pId (walkFuel mem) 0

def ndefMsgGetNextRecById (pCurRec : Nat) (pId : Bytes) : Option (Option Nat) :=
  (ndefMsgGetNextRec mem pCurRec).bind fun
    | none => some none
    | some p => recByIdLoop mem pId (walkFuel mem) p

/-- `NDEF_RecGetType`: the type, if there is one, the type name format and the length. -/
def ndefRecGetType (pRec : Nat) : Option (Option Nat × UInt8 × UInt8) :=
  mem[pRec]?.bind fun hdr => mem[pRec + 1]?.map fun typeLen =>
    let p := pRec + 2 + (if has hdr ndefSrMask then 1 else 4)
    let p := if has hdr ndefIlMask then p + 1 else p
    (if typeLen = 0 then none else some p, hdr &&& ndefTnfMask, typeLen)

/-- `NDEF_RecGetId`: the id, if there is one, and its length. -/
def ndefRecGetId (pRec : Nat) : Option (Option Nat × UInt8) :=
  mem[pRec]?.bind fun hdr => mem[pRec + 1]?.bind fun typeLen =>
    (readIdLen mem hdr (pRec + 2 + (if has hdr ndefSrMask then 1 else 4))).map fun r =>
      (if r.1 = 0 then none else some (r.2 + typeLen.toNat), r.1)

/-- `NDEF_RecGetPayload`: the payload, if there is one, and its length. -/
def ndefRecGetPayload (pRec : Nat) : Option (Option Nat × UInt32) :=
  (readRecHdr mem pRec).map fun h =>
    (if h.payloadLen = 0 then none else some (h.body + h.typeLen.toNat + h.idLen.toNat),
      h.payloadLen)

end Walkers

/-! ## Records in a row -/

/-- The records as they stand in memory, one after the other. -/
def recsBytes (rs : List Rec) : Bytes := rs.flatMap Rec.bytes

def recsLen (rs : List Rec) : Nat := (recsBytes rs).length

/-- From `p` on the memory holds the records `rs`, less than 2^32 bytes of them. -/
def Stands (mem : Bytes) (p : Nat) (rs : List Rec) : Prop :=
  ∃ pre post, mem = pre ++ recsBytes rs ++ post ∧ pre.length = p ∧ recsLen rs < 4294967296

/-- ME is on the last record and no other. -/
def EndsOnce : List Rec → Prop
  | [] => False
  | [r] => r.me
  | r :: r' :: rs => ¬ r.me ∧ EndsOnce (r' :: rs)

/-- The first of the records, from `p` on, that meets the condition. -/
def firstWith (f : Rec → Bool) (p : Nat) : List Rec → Option Nat
  | [] => none
  | r :: rs => if f r then some p else firstWith f (p + r.bytes.length) rs

def Rec.isType (tnf : UInt8) (type : Bytes) (r : Rec) : Bool := r.tnf = tnf ∧ r.type = type

def Rec.isId (id : Bytes) (r : Rec) : Bool := r.id = id

theorem recsLen_cons (r : Rec) (rs : List Rec) :
    recsLen (r :: rs) = r.bytes.length + recsLen rs := by
  simp [recsLen, recsBytes]

theorem recsLen_append (as bs : List Rec) : recsLen (as ++ bs) = recsLen as + recsLen bs := by
  simp [recsLen, recsBytes]

theorem Rec.three_le_length (r : Rec) : 3 ≤ r.bytes.length := by
  rw [length_bytes]
  have : 3 ≤ r.head.length := by
    rw [length_head]
    split <;> omega
  omega

theorem length_le_recsLen (rs : List Rec) : 3 * rs.length ≤ recsLen rs := by
  induction rs with
  | nil => simp
  | cons r rs ih =>
    have := r.three_le_length
    rw [recsLen_cons, List.length_cons]
    omega

theorem recsBytes_append (as bs : List Rec) : recsBytes (as ++ bs) = recsBytes as ++ recsBytes bs :=
  List.flatMap_append

theorem recsBytes_cons (r : Rec) (rs : List Rec) : recsBytes (r :: rs) = r.bytes ++ recsBytes rs :=
  List.flatMap_cons

theorem recsBytes_cons_ne_nil (r : Rec) (rs : List Rec) : recsBytes (r :: rs) ≠ [] := by
  intro h
  have hlen := recsLen_cons r rs
  have := r.three_le_length
  rw [recsLen, h, List.length_nil] at hlen
  omega

theorem recsBytes_inj : ∀ {rs rs' : List Rec}, recsBytes rs = recsBytes rs' → rs = rs' := by
  intro rs
  induction rs with
  | nil =>
    intro rs' h
    cases rs' with
    | nil => rfl
    | cons r' rs' => exact absurd h.symm (recsBytes_cons_ne_nil r' rs')
  | cons r rs ih =>
    intro rs' h
    cases rs' with
    | nil => exact absurd h (recsBytes_cons_ne_nil r rs)
    | cons r' rs' =>
      rw [recsBytes_cons, recsBytes_cons] at h
      obtain ⟨rfl, hrest⟩ := Rec.bytes_append_inj h
      rw [ih hrest]

namespace Stands
variable {mem : Bytes} {p : Nat} {r : Rec} {rs : List Rec}

theorem split (h : Stands mem p (r :: rs)) :
    ∃ pre post, mem = pre ++ r.bytes ++ post ∧ pre.length = p := by
  obtain ⟨pre, post, rfl, hp, -⟩ := h
  exact ⟨pre, recsBytes rs ++ post, by simp [recsBytes], hp⟩

theorem tail (h : Stands mem p (r :: rs)) : Stands mem (p + r.bytes.length) rs := by
  obtain ⟨pre, post, rfl, rfl, hlt⟩ := h
  rw [recsLen_cons] at hlt
  refine ⟨pre ++ r.bytes, post, ?_, ?_, ?_⟩
  · simp [recsBytes]
  · simp
  · omega

theorem after {as bs : List Rec} (h : Stands mem p (as ++ bs)) : Stands mem (p + recsLen as) bs := by
  induction as generalizing p with
  | nil => simpa [recsLen, recsBytes] using h
  | cons a as ih =>
    have := ih h.tail
    rwa [recsLen_cons, ← Nat.add_assoc]

theorem length_le (h : Stands mem p rs) : p + 3 * rs.length ≤ mem.length := by
  obtain ⟨pre, post, rfl, rfl, -⟩ := h
  have := length_le_recsLen rs
  simp only [List.length_append, recsLen] at this ⊢
  omega

theorem hdr (h : Stands mem p (r :: rs)) : mem[p]? = some r.hdr := by
  obtain ⟨pre, post, rfl, rfl⟩ := h.split
  simp [Rec.bytes, Rec.head]

theorem typeLen (h : Stands mem p (r :: rs)) :
    mem[p + 1]? = some (UInt8.ofNat r.type.length) := by
  obtain ⟨pre, post, rfl, rfl⟩ := h.split
  simp [Rec.bytes, Rec.head]

theorem readRecHdr (h : Stands mem p (r :: rs)) :
    Ndef.readRecHdr mem p =
      some ⟨r.hdr, UInt8.ofNat r.type.length, UInt32.ofNat r.payload.length,
        UInt8.ofNat r.id.length, p + r.head.length⟩ := by
  obtain ⟨pre, post, rfl, rfl⟩ := h.split
  exact r.readRecHdr_bytes pre post

/-- The sum of the lengths leads to the next record. -/
theorem next (h : Stands mem p (r :: rs)) :
    (⟨r.hdr, UInt8.ofNat r.type.length, UInt32.ofNat r.payload.length,
      UInt8.ofNat r.id.length, p + r.head.length⟩ : RecHdr).next = p + r.bytes.length := by
  obtain ⟨-, -, -, -, hlt⟩ := h
  rw [recsLen_cons] at hlt
  rw [RecHdr.next, r.bodyLen_toNat (by omega), r.length_bytes]
  dsimp only
  omega

theorem readIdLen (h : Stands mem p (r :: rs)) :
    Ndef.readIdLen mem r.hdr (p + 2 + (if has r.hdr ndefSrMask then 1 else 4)) =
      some (UInt8.ofNat r.id.length, p + r.head.length) := by
  have hr := h.readRecHdr
  simp only [Ndef.readRecHdr, h.hdr, h.typeLen, Option.bind_some, Option.bind_eq_some_iff,
    Option.map_eq_some_iff, RecHdr.mk.injEq, true_and] at hr
  obtain ⟨⟨u, q⟩, hpl, ⟨b, body⟩, hid, -, rfl, rfl⟩ := hr
  obtain ⟨-, rfl, -⟩ := drop_of_readPayloadLen hpl
  exact hid

theorem fields (h : Stands mem p (r :: rs)) :
    readBytes mem (p + r.head.length) r.type.length = some r.type ∧
      readBytes mem (p + r.head.length + r.type.length) r.id.length = some r.id ∧
      readBytes mem (p + r.head.length + r.type.length + r.id.length) r.payload.length =
        some r.payload := by
  obtain ⟨pre, post, rfl, rfl⟩ := h.split
  have hlen : (pre ++ r.bytes ++ post).length = pre.length + r.head.length + r.type.length +
      r.id.length + r.payload.length + post.length := by
    simp [Rec.bytes]
    omega
  refine ⟨?_, ?_, ?_⟩
  · rw [readBytes, if_pos (by omega)]
    have : pre ++ r.bytes ++ post = (pre ++ r.head) ++ r.type ++ (r.id ++ r.payload ++ post) := by
      simp [Rec.bytes]
    rw [this, slice_append (by simp) rfl]
  · rw [readBytes, if_pos (by omega)]
    have : pre ++ r.bytes ++ post = (pre ++ r.head ++ r.type) ++ r.id ++ (r.payload ++ post) := by
      simp [Rec.bytes]
    rw [this, slice_append (by simp; omega) rfl]
  · rw [readBytes, if_pos (by omega)]
    have : pre ++ r.bytes ++ post = (pre ++ r.head ++ r.type ++ r.id) ++ r.payload ++ post := by
      simp [Rec.bytes]
    rw [this, slice_append (by simp; omega) rfl]

end Stands

/-! ## The walkers -/

theorem EndsOnce.cases {r : Rec} {rs : List Rec} (h : EndsOnce (r :: rs)) :
    (rs = [] ∧ has r.hdr ndefMeMask) ∨ (rs ≠ [] ∧ ¬ has r.hdr ndefMeMask ∧ EndsOnce rs) := by
  cases rs with
  | nil => exact .inl ⟨rfl, h⟩
  | cons r' rs => exact .inr ⟨List.cons_ne_nil _ _, h.1, h.2⟩

section Walks
variable {mem : Bytes}

theorem numRecsLoop_spec (rs : List Rec) :
    ∀ (fuel p count : Nat), Stands mem p rs → EndsOnce rs → rs.length ≤ fuel →
      numRecsLoop mem fuel p count = some (count + rs.length) := by
  induction rs with
  | nil => intro _ _ _ _ he; exact he.elim
  | cons r rs ih =>
    intro fuel p count hs he hf
    obtain ⟨fuel, rfl⟩ : ∃ k, fuel = k + 1 := ⟨fuel - 1, by simp at hf; omega⟩
    rw [numRecsLoop, hs.hdr, Option.bind_some]
    rcases he.cases with ⟨rfl, hme⟩ | ⟨-, hme, he⟩
    · rw [if_pos hme]
      rfl
    · rw [if_neg hme, hs.readRecHdr, Option.bind_some, hs.next,
        ih fuel _ _ hs.tail he (by simpa using hf), List.length_cons]
      congr 1
      omega

theorem recByIndexLoop_spec (index : Int) (rs : List Rec) :
    ∀ (fuel p count : Nat), Stands mem p rs → EndsOnce rs → rs.length ≤ fuel →
      recByIndexLoop mem index fuel p count =
        some (if count ≤ index ∧ index < count + rs.length then
          some (p + recsLen (rs.take (index - count).toNat)) else none) := by
  induction rs with
  | nil => intro _ _ _ _ he; exact he.elim
  | cons r rs ih =>
    intro fuel p count hs he hf
    obtain ⟨fuel, rfl⟩ : ∃ k, fuel = k + 1 := ⟨fuel - 1, by simp at hf; omega⟩
    rw [recByIndexLoop]
    by_cases hc : (count : Int) = index
    · rw [if_pos hc, if_pos (by rw [List.length_cons]; omega), ← hc]
      simp [recsLen, recsBytes]
    · rw [if_neg hc, hs.hdr, Option.bind_some]
      rcases he.cases with ⟨rfl, hme⟩ | ⟨-, hme, he⟩
      · rw [if_pos hme, if_neg (by simp; omega)]
      · rw [if_neg hme, hs.readRecHdr, Option.bind_some, hs.next,
          ih fuel _ _ hs.tail he (by simpa using hf)]
        by_cases hin : count + 1 ≤ index ∧ index < count + 1 + rs.length
        · obtain ⟨k, hk⟩ : ∃ k : Nat, (index - count).toNat = k + 1 := ⟨(index - count).toNat - 1, by omega⟩
          have hk' : (index - (count + 1 : Nat)).toNat = k := by omega
          rw [if_pos (by push_cast; exact hin), if_pos (by rw [List.length_cons]; omega), hk, hk',
            List.take_succ_cons, recsLen_cons, Nat.add_assoc]
        · rw [if_neg (by push_cast; exact hin), if_neg (by rw [List.length_cons]; omega)]

theorem lastRecLoop_spec (rs : List Rec) :
    ∀ (fuel p : Nat), Stands mem p rs → EndsOnce rs → rs.length ≤ fuel →
      lastRecLoop mem fuel p = some (p + recsLen rs.dropLast) := by
  induction rs with
  | nil => intro _ _ _ he; exact he.elim
  | cons r rs ih =>
    intro fuel p hs he hf
    obtain ⟨fuel, rfl⟩ : ∃ k, fuel = k + 1 := ⟨fuel - 1, by simp at hf; omega⟩
    rw [lastRecLoop, hs.hdr, Option.bind_some]
    rcases he.cases with ⟨rfl, hme⟩ | ⟨hne, hme, he⟩
    · rw [if_pos hme]
      rfl
    · rw [if_neg hme, hs.readRecHdr, Option.bind_some, hs.next,
        ih fuel _ hs.tail he (by simpa using hf), List.dropLast_cons_of_ne_nil hne, recsLen_cons,
        Nat.add_assoc]

variable {rs : List Rec} {p : Nat}

theorem ndefMsgGetNextRec_spec {r : Rec} (hs : Stands mem p (r :: rs)) (he : EndsOnce (r :: rs)) :
    ndefMsgGetNextRec mem p = some (if rs = [] then none else some (p + r.bytes.length)) := by
  rw [ndefMsgGetNextRec, hs.hdr, Option.bind_some]
  rcases he.cases with ⟨rfl, hme⟩ | ⟨hne, hme, -⟩
  · rw [if_pos hme, if_pos rfl]
  · rw [if_neg hme, if_neg hne, hs.readRecHdr, Option.map_some, hs.next]

/-- What is compared is the field itself, and only if the lengths agree. -/
theorem compare_spec {field : Bytes} (bs : Bytes) (hf : readBytes mem p field.length = some field)
    (hlt : field.length < 256) :
    (if (UInt8.ofNat field.length).toNat = bs.length then memcmp mem p bs else some false) =
      some (decide (field = bs)) := by
  have hn : (UInt8.ofNat field.length).toNat = field.length := by simp; omega
  rw [hn]
  by_cases hl : field.length = bs.length
  · rw [if_pos hl, memcmp, ← hl, hf]
    rfl
  · rw [if_neg hl]
    have : field ≠ bs := fun h => hl (h ▸ rfl)
    simp [this]

theorem recByTypeLoop_spec (tnf : UInt8) (pType : Bytes) (rs : List Rec) :
    ∀ (fuel p : Nat), Stands mem p rs → EndsOnce rs → rs.length ≤ fuel →
      recByTypeLoop mem tnf pType fuel p = some (firstWith (Rec.isType tnf pType) p rs) := by
  induction rs with
  | nil => intro _ _ _ he; exact he.elim
  | cons r rs ih =>
    intro fuel p hs he hf
    obtain ⟨fuel, rfl⟩ : ∃ k, fuel = k + 1 := ⟨fuel - 1, by simp at hf; omega⟩
    have hcmp := compare_spec pType hs.fields.1 r.type_lt
    rw [recByTypeLoop, hs.readRecHdr, Option.bind_some, firstWith]
    dsimp only
    have hfound : (if r.hdr &&& ndefTnfMask = tnf ∧ (UInt8.ofNat r.type.length).toNat = pType.length
        then memcmp mem (p + r.head.length) pType else some false) = some (r.isType tnf pType) := by
      rw [ite_and, hcmp]
      by_cases ht : r.hdr &&& ndefTnfMask = tnf <;> simp [Rec.isType, Rec.tnf, ht]
    rw [hfound, Option.bind_some]
    by_cases hr : r.isType tnf pType
    · rw [if_pos hr, if_pos hr]
    · rw [if_neg hr, if_neg hr]
      rcases he.cases with ⟨rfl, hme⟩ | ⟨-, hme, he⟩
      · rw [if_pos hme]
        rfl
      · rw [if_neg hme, hs.next, ih fuel _ hs.tail he (by simpa using hf)]

theorem recByIdLoop_spec (pId : Bytes) (rs : List Rec) :
    ∀ (fuel p : Nat), Stands mem p rs → EndsOnce rs → rs.length ≤ fuel →
      recByIdLoop mem pId fuel p = some (firstWith (Rec.isId pId) p rs) := by
  induction rs with
  | nil => intro _ _ _ he; exact he.elim
  | cons r rs ih =>
    intro fuel p hs he hf
    obtain ⟨fuel, rfl⟩ : ∃ k, fuel = k + 1 := ⟨fuel - 1, by simp at hf; omega⟩
    have hcmp := compare_spec pId hs.fields.2.1 r.id_lt
    rw [recByIdLoop, hs.readRecHdr, Option.bind_some, firstWith]
    dsimp only
    rw [r.toNat_typeLen, hcmp, Option.bind_some]
    by_cases hr : r.isId pId
    · rw [if_pos (by simpa [Rec.isId] using hr), if_pos hr]
    · rw [if_neg (by simpa [Rec.isId] using hr), if_neg hr]
      rcases he.cases with ⟨rfl, hme⟩ | ⟨-, hme, he⟩
      · rw [if_pos hme]
        rfl
      · have hnext : p + r.head.length + r.type.length +
            ((UInt8.ofNat r.id.length).toUInt32 + UInt32.ofNat r.payload.length).toNat =
              p + r.bytes.length := by
          obtain ⟨-, -, -, -, hlt⟩ := hs
          have hid := r.id_lt
          rw [recsLen_cons, r.length_bytes] at hlt
          rw [r.length_bytes]
          simp
          omega
        rw [if_neg hme, hnext, ih fuel _ hs.tail he (by simpa using hf)]

/-- A field as the code hands it out: a null pointer for none, else the bytes that stand
at the pointer. -/
def FieldAt (mem : Bytes) (ptr : Option Nat) (field : Bytes) : Prop :=
  match ptr with
  | none => field = []
  | some p => readBytes mem p field.length = some field

theorem fieldAt_ite {field : Bytes} {b : Prop} [Decidable b]
    (hf : readBytes mem p field.length = some field) (hb : b → field = []) :
    FieldAt mem (if b then none else some p) field := by
  by_cases h : b
  · rw [if_pos h]
    exact hb h
  · rw [if_neg h]
    exact hf

theorem eq_nil_of_ofNat_eq_zero {field : Bytes} (hlt : field.length < 256)
    (h : UInt8.ofNat field.length = 0) : field = [] := by
  have : (UInt8.ofNat field.length).toNat = 0 := by rw [h]; rfl
  simp at this
  exact List.length_eq_zero_iff.mp (by omega)

theorem ndefRecGetType_spec {r : Rec} (hs : Stands mem p (r :: rs)) :
    ∃ ptr, ndefRecGetType mem p = some (ptr, r.tnf, UInt8.ofNat r.type.length) ∧
      FieldAt mem ptr r.type := by
  have hp : (if has r.hdr ndefIlMask then p + 2 + (if has r.hdr ndefSrMask then 1 else 4) + 1
      else p + 2 + (if has r.hdr ndefSrMask then 1 else 4)) = p + r.head.length := by
    rw [r.length_head]
    split <;> omega
  refine ⟨_, ?_, fieldAt_ite hs.fields.1 (eq_nil_of_ofNat_eq_zero r.type_lt)⟩
  rw [ndefRecGetType, hs.hdr, Option.bind_some, hs.typeLen, Option.map_some]
  dsimp only
  rw [hp]
  rfl

theorem ndefRecGetId_spec {r : Rec} (hs : Stands mem p (r :: rs)) :
    ∃ ptr, ndefRecGetId mem p = some (ptr, UInt8.ofNat r.id.length) ∧ FieldAt mem ptr r.id := by
  refine ⟨_, ?_, fieldAt_ite hs.fields.2.1 (eq_nil_of_ofNat_eq_zero r.id_lt)⟩
  rw [ndefRecGetId, hs.hdr, Option.bind_some, hs.typeLen, Option.bind_some, hs.readIdLen,
    Option.map_some, r.toNat_typeLen]

theorem ndefRecGetPayload_spec {r : Rec} (hs : Stands mem p (r :: rs)) :
    ∃ ptr, ndefRecGetPayload mem p = some (ptr, UInt32.ofNat r.payload.length) ∧
      FieldAt mem ptr r.payload := by
  have hz : UInt32.ofNat r.payload.length = 0 → r.payload = [] := by
    intro h
    have hn : (UInt32.ofNat r.payload.length).toNat = 0 := by rw [h]; rfl
    have hlt := r.payload_lt_word
    simp at hn
    exact List.length_eq_zero_iff.mp (by omega)
  refine ⟨_, ?_, fieldAt_ite hs.fields.2.2 hz⟩
  rw [ndefRecGetPayload, hs.readRecHdr, Option.map_some]
  dsimp only
  rw [r.toNat_typeLen, r.toNat_idLen]

/-- Everything the walkers return, on a message of the records `rs`. -/
structure Walks (mem : Bytes) (rs : List Rec) : Prop where
  numRecs : ndefMsgGetNumRecs mem = some rs.length
  recByIndex : ∀ index : Int, ndefMsgGetRecByIndex mem index =
    some (if 0 ≤ index ∧ index < rs.length then some (recsLen (rs.take index.toNat)) else none)
  lastRec : ndefMsgGetLastRecInMsg mem = some (recsLen rs.dropLast)
  firstRecByType : ∀ tnf type, ndefMsgGetFirstRecByType mem tnf type =
    some (firstWith (Rec.isType tnf type) 0 rs)
  firstRecById : ∀ id, ndefMsgGetFirstRecById mem id = some (firstWith (Rec.isId id) 0 rs)
  nextRec : ∀ as r bs, rs = as ++ r :: bs → ndefMsgGetNextRec mem (recsLen as) =
    some (if bs = [] then none else some (recsLen (as ++ [r])))
  nextRecByType : ∀ as r bs, rs = as ++ r :: bs → ∀ tnf type,
    ndefMsgGetNextRecByType mem (recsLen as) tnf type =
      some (firstWith (Rec.isType tnf type) (recsLen (as ++ [r])) bs)
  nextRecById : ∀ as r bs, rs = as ++ r :: bs → ∀ id,
    ndefMsgGetNextRecById mem (recsLen as) id =
      some (firstWith (Rec.isId id) (recsLen (as ++ [r])) bs)
  recType : ∀ as r bs, rs = as ++ r :: bs → ∃ ptr, ndefRecGetType mem (recsLen as) =
    some (ptr, r.tnf, UInt8.ofNat r.type.length) ∧ FieldAt mem ptr r.type
  recId : ∀ as r bs, rs = as ++ r :: bs → ∃ ptr, ndefRecGetId mem (recsLen as) =
    some (ptr, UInt8.ofNat r.id.length) ∧ FieldAt mem ptr r.id
  recPayload : ∀ as r bs, rs = as ++ r :: bs → ∃ ptr, ndefRecGetPayload mem (recsLen as) =
    some (ptr, UInt32.ofNat r.payload.length) ∧ FieldAt mem ptr r.payload

theorem EndsOnce.suffix {as bs : List Rec} (h : EndsOnce (as ++ bs)) (hne : bs ≠ []) :
    EndsOnce bs := by
  induction as with
  | nil => exact h
  | cons a as ih =>
    rcases h.cases with ⟨hnil, -⟩ | ⟨-, -, h⟩
    · exact absurd (List.append_eq_nil_iff.mp hnil).2 hne
    · exact ih h

theorem walks_of_records (hs : Stands mem 0 rs) (he : EndsOnce rs) :
    Walks mem rs := by
  have hfuel : rs.length ≤ walkFuel mem := by
    have := hs.length_le
    rw [walkFuel]
    omega
  -- what is known at the record between `as` and `bs`
  have hat : ∀ as r bs, rs = as ++ r :: bs → Stands mem (recsLen as) (r :: bs) ∧
      EndsOnce (r :: bs) ∧ bs.length ≤ walkFuel mem ∧
      recsLen (as ++ [r]) = recsLen as + r.bytes.length := by
    rintro as r bs rfl
    refine ⟨?_, he.suffix (List.cons_ne_nil _ _), ?_, ?_⟩
    · have := hs.after
      rwa [Nat.zero_add] at this
    · simp only [List.length_append, List.length_cons] at hfuel
      omega
    · rw [recsLen_append, recsLen_cons]
      rfl
  -- the walks from the next record on, if there is one
  have hnext : ∀ {as r bs} {f : Rec → Bool} {loop : Nat → Option (Option Nat)}, rs = as ++ r :: bs →
      (∀ p, Stands mem p bs → EndsOnce bs → loop p = some (firstWith f p bs)) →
      ((ndefMsgGetNextRec mem (recsLen as)).bind fun
        | none => some none
        | some p => loop p) = some (firstWith f (recsLen (as ++ [r])) bs) := by
    intro as r bs f loop hrs hloop
    obtain ⟨hst, hen, -, hlen⟩ := hat as r bs hrs
    rw [ndefMsgGetNextRec_spec hst hen, Option.bind_some, hlen]
    rcases hen.cases with ⟨rfl, -⟩ | ⟨hne, -, hen'⟩
    · rw [if_pos rfl]
      rfl
    · rw [if_neg hne]
      exact hloop _ hst.tail hen'
  refine ⟨?_, ?_, ?_, ?_, ?_, ?_, ?_, ?_, ?_, ?_, ?_⟩
  · rw [ndefMsgGetNumRecs, numRecsLoop_spec rs _ 0 0 hs he hfuel, Nat.zero_add]
  · intro index
    rw [ndefMsgGetRecByIndex, recByIndexLoop_spec index rs _ 0 0 hs he hfuel]
    simp
  · rw [ndefMsgGetLastRecInMsg, lastRecLoop_spec rs _ 0 hs he hfuel, Nat.zero_add]
  · intro tnf type
    exact recByTypeLoop_spec tnf type rs _ 0 hs he hfuel
  · intro id
    exact recByIdLoop_spec id rs _ 0 hs he hfuel
  · intro as r bs hrs
    obtain ⟨hst, hen, -, hlen⟩ := hat as r bs hrs
    rw [ndefMsgGetNextRec_spec hst hen, hlen]
  · intro as r bs hrs tnf type
    exact hnext hrs fun p hp hen => recByTypeLoop_spec tnf type bs _ p hp hen (hat as r bs hrs).2.2.1
  · intro as r bs hrs id
    exact hnext hrs fun p hp hen => recByIdLoop_spec id bs _ p hp hen (hat as r bs hrs).2.2.1
  · intro as r bs hrs
    exact ndefRecGetType_spec (hat as r bs hrs).1
  · intro as r bs hrs
    exact ndefRecGetId_spec (hat as r bs hrs).1
  · intro as r bs hrs
    exact ndefRecGetPayload_spec (hat as r bs hrs).1

end Walks

end NfcStack.Ndef
