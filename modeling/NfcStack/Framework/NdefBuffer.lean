import NfcStack.Framework.NdefGrammar

/- `NdefRecord.parse` as it runs over a `ByteBuffer`, with every exception that the Java code
   can raise on its way: reads behind the limit, arrays of a negative size, copies past the
   end of an array, arguments that the constructor refuses. Lengths are signed numbers here.

   What is proved:
     1. `agrees_pass`: a pass of the loop does what `parseRecord` does with the bytes that are
        left; reads behind the limit are the only exceptions that are not format exceptions.
     2. `parse_eq`: so does the parser, which takes those for a format exception, too.
     3. `parse_grammar`: it accepts the grammar of `NdefGrammar`. -/
namespace NfcStack.Framework.Buffered
open NfcStack.Ndef

/-! ## The code -/

/-- A buffer: its bytes up to the limit, and the position. -/
structure ByteBuffer where
  bytes : Bytes
  position : Nat
  within : position ≤ bytes.length

inductive Thrown where
  | formatException (e : FormatError)
  | bufferUnderflow
  | negativeArraySize
  | indexOutOfBounds
  | illegalArgument (message : String)
  deriving DecidableEq, Repr

abbrev Java := Except Thrown

namespace ByteBuffer
variable (b : ByteBuffer)

/-- What is between the position and the limit. -/
def remaining : Bytes := b.bytes.drop b.position

def getArray (dst : Bytes) : Java (Bytes × ByteBuffer) :=
  if h : b.position + dst.length ≤ b.bytes.length then
    .ok (b.remaining.take dst.length, ⟨b.bytes, b.position + dst.length, h⟩)
  else .error .bufferUnderflow

/-- `get()`: the eight bits of a byte. -/
def get : Java (UInt8 × ByteBuffer) :=
  if h : b.position < b.bytes.length then .ok (b.bytes[b.position], ⟨b.bytes, b.position + 1, h⟩)
  else .error .bufferUnderflow

end ByteBuffer

def byteValue (b : UInt8) : Int := Int.bmod b.toNat 256

def and0xFF (x : Int) : Int := x % 256

def and0xFFFFFFFF (x : Int) : Int := x % 4294967296

def getUnsigned (b : ByteBuffer) : Java (Int × ByteBuffer) := b.get.map fun r => (and0xFF (byteValue r.1), r.2)

def getInt (b : ByteBuffer) : Java (Int × ByteBuffer) :=
  (b.getArray (List.replicate 4 0)).map fun r =>
    (toInt (r.1.foldl (fun n (byte : UInt8) => n * 256 + (byte.toNat : Int)) 0), r.2)

def newBytes (n : Int) : Java Bytes := if n < 0 then .error .negativeArraySize else .ok (List.replicate n.toNat 0)

/-- `System.arraycopy(p, 0, payload, i, p.length)`. -/
def arraycopy (p payload : Bytes) (i : Int) : Java Bytes :=
  if i < 0 ∨ i + p.length > payload.length then .error .indexOutOfBounds
  else .ok (payload.take i.toNat ++ p ++ payload.drop (i.toNat + p.length))

def ensureSanePayloadSize (size : Int) : Java Unit :=
  if size > maxPayloadSize then .error (.formatException .payloadAboveMaxLimit) else .ok ()

/-- The loop that copies the chunks. -/
def copyChunks : List Bytes → Int → Bytes → Java Bytes
  | [], _, payload => .ok payload
  | p :: ps, i, payload => (arraycopy p payload i).bind fun payload' => copyChunks ps (i + p.length) payload'

/-- The payload of the chunks together. -/
def flattenChunks (chunks : List Bytes) : Java Bytes :=
  let payloadLength : Int := chunks.foldl (fun n p => n + (p.length : Int)) 0
  (ensureSanePayloadSize payloadLength).bind fun _ => (newBytes (toInt payloadLength)).bind fun payload =>
    copyChunks chunks 0 payload

def payloadLength (flag : UInt8) (b : ByteBuffer) : Java (Int × ByteBuffer) :=
  if has flag ndefSrMask then getUnsigned b else (getInt b).map fun r => (and0xFFFFFFFF r.1, r.2)

def idLength (flag : UInt8) (b : ByteBuffer) : Java (Int × ByteBuffer) :=
  if has flag ndefIlMask then getUnsigned b else .ok (0, b)

/-- `length > 0 ? new byte[size] : EMPTY_BYTE_ARRAY`. -/
def bytesOf (length size : Int) : Java Bytes := if length > 0 then newBytes size else .ok []

/-- The exception that a check throws. -/
def throwing {α : Type} (x : Except FormatError α) : Java α := x.mapError .formatException

def typeAndId (st : ParseState) (typeLength idLength : Int) (b : ByteBuffer) : Java (ParseState × ByteBuffer) :=
  if st.inChunk then
    if typeLength ≠ 0 then .error (.formatException .expectedZeroLengthType) else .ok (st, b)
  else
    (bytesOf typeLength typeLength).bind fun type => (bytesOf idLength idLength).bind fun id =>
      (b.getArray type).bind fun t => (t.2.getArray id).map fun i => ({ st with type := t.1, id := i.1 }, i.2)

/-- `new NdefRecord(tnf, type, id, payload)`, which makes its own check. -/
def newRecord (tnf : Nat) (type id payload : Bytes) : Java NdefRecord :=
  match h : validateTnf tnf type id payload with
  | some message => .error (.illegalArgument message)
  | none => .ok ⟨tnf, type, id, payload, h⟩

/-- A logical record is complete. -/
def complete (st : ParseState) (tnf : Nat) (payload : Bytes) : Java ParseState :=
  match validateTnf tnf st.type st.id payload with
  | some error => .error (.formatException (.invalidTnf error))
  | none => (newRecord tnf st.type st.id payload).map fun record =>
      { st with records := st.records ++ [record], inChunk := false }

/-- The rest of the pass, from the payload on. -/
def takePayload (st : ParseState) (cf : Bool) (tnf : Nat) (typeLength : Int) (payload : Bytes) : Java ParseState :=
  if cf ∧ ¬ st.inChunk ∧ typeLength = 0 ∧ tnf ≠ 5 then .error (.formatException .expectedNonZeroTypeLength)
  else
    let st1 := if cf ∧ ¬ st.inChunk then { st with chunks := [], chunkTnf := tnf } else st
    let st2 := if cf ∨ st1.inChunk then { st1 with chunks := st1.chunks ++ [payload] } else st1
    if cf then .ok { st2 with inChunk := true }
    else if st2.inChunk then (flattenChunks st2.chunks).bind fun flat => complete st2 st2.chunkTnf flat
    else complete st2 tnf payload

/-- The body of the loop: the locals, the flags, and the buffer. -/
def pass (ignoreMbMe : Bool) (st : ParseState) (b : ByteBuffer) : Java ((ParseState × UInt8) × ByteBuffer) :=
  b.get.bind fun f => (throwing (checkFlags ignoreMbMe st f.1)).bind fun _ =>
    (getUnsigned f.2).bind fun t => (payloadLength f.1 t.2).bind fun p => (idLength f.1 p.2).bind fun i =>
      (typeAndId st t.1 i.1 i.2).bind fun s => (ensureSanePayloadSize p.1).bind fun _ =>
        (bytesOf p.1 (toInt p.1)).bind fun payload => (s.2.getArray payload).bind fun d =>
          (takePayload s.1 (has f.1 ndefCfMask) (f.1 &&& ndefTnfMask).toNat t.1 d.1).map fun st' => ((st', f.1), d.2)

/-- `while (!me)`; `none` if it has not ended after so many passes. -/
def loop (ignoreMbMe : Bool) : Nat → ParseState → ByteBuffer → Option (Java (List NdefRecord × ByteBuffer))
  | 0, _, _ => none
  | n + 1, st, b =>
    match pass ignoreMbMe st b with
    | .error t => some (.error t)
    | .ok r =>
      if has r.1.2 ndefMeMask ∨ (ignoreMbMe ∧ ¬ has r.1.2 ndefCfMask) then some (.ok (r.1.1.records, r.2))
      else loop ignoreMbMe n r.1.1 r.2

def Thrown.caught : Thrown → Thrown
  | .bufferUnderflow => .formatException .expectedMoreData
  | t => t

/-- The locals before the loop; `chunkTnf` is -1, a `short`. -/
def start : ParseState := ⟨[], [], [], [], false, 65535⟩

def parse (b : ByteBuffer) (ignoreMbMe : Bool) : Option (Java (List NdefRecord × ByteBuffer)) :=
  (loop ignoreMbMe (b.remaining.length + 1) start b).map (·.mapError Thrown.caught)

/-! ## Reading the buffer and reading its bytes -/

/-- Two readers do the same: related values, and what is left in the buffer are the bytes that are left; or an
exception that counts as the error. -/
def Agrees {α β : Type} (bytes : Bytes) (R : α → β → Prop) :
    Java (α × ByteBuffer) → Except FormatError (β × Bytes) → Prop
  | .ok (a, b), .ok (a', rest) => R a a' ∧ b.bytes = bytes ∧ b.remaining = rest
  | .error t, .error e => t.caught = .formatException e
  | _, _ => False

section Agrees
variable {α β γ δ : Type} {bytes : Bytes} {R : α → β → Prop} {S : γ → δ → Prop}
variable {x : Java (α × ByteBuffer)} {y : Except FormatError (β × Bytes)}

theorem Agrees.bind (h : Agrees bytes R x y) {f : α × ByteBuffer → Java (γ × ByteBuffer)}
    {g : β × Bytes → Except FormatError (δ × Bytes)}
    (hnext : ∀ a a' b, R a a' → b.bytes = bytes → Agrees bytes S (f (a, b)) (g (a', b.remaining))) :
    Agrees bytes S (x.bind f) (y.bind g) := by
  cases x with
  | error t =>
    cases y with
    | error e => exact h
    | ok r => exact h.elim
  | ok r =>
    cases y with
    | error e => exact h.elim
    | ok r' =>
      obtain ⟨hR, hbytes, hrest⟩ := h
      obtain ⟨a', rest⟩ := r'
      obtain rfl : r.2.remaining = rest := hrest
      exact hnext r.1 a' r.2 hR hbytes

theorem Agrees.map (h : Agrees bytes R x y) {f : α → γ} {g : β → δ} (hnext : ∀ a a', R a a' → S (f a) (g a')) :
    Agrees bytes S (x.map fun r => (f r.1, r.2)) (y.map fun r => (g r.1, r.2)) := by
  cases x with
  | error t =>
    cases y with
    | error e => exact h
    | ok r => exact h.elim
  | ok r =>
    cases y with
    | error e => exact h.elim
    | ok r' =>
      obtain ⟨hR, hbytes, hrest⟩ := h
      exact ⟨hnext _ _ hR, hbytes, hrest⟩

theorem Agrees.check (c : Except FormatError Unit) {f : Unit → Java (γ × ByteBuffer)}
    {g : Unit → Except FormatError (δ × Bytes)} (hnext : Agrees bytes S (f ()) (g ())) :
    Agrees bytes S ((throwing c).bind f) (c.bind g) := by
  cases c with
  | error e => exact (rfl : Thrown.caught (.formatException e) = _)
  | ok u => exact hnext

end Agrees

section Readers
variable {b : ByteBuffer}

theorem length_remaining : b.remaining.length = b.bytes.length - b.position := by
  rw [ByteBuffer.remaining, List.length_drop]

theorem agrees_getArray (dst : Bytes) {n : Nat} (hn : dst.length = n) :
    Agrees b.bytes Eq (b.getArray dst) (getBytes n b.remaining) := by
  subst hn
  have hlen := b.within
  unfold ByteBuffer.getArray getBytes
  by_cases h : b.position + dst.length ≤ b.bytes.length
  · rw [dif_pos h, if_pos (by rw [length_remaining]; omega)]
    refine ⟨rfl, rfl, ?_⟩
    rw [ByteBuffer.remaining, ByteBuffer.remaining, List.drop_drop]
  · rw [dif_neg h, if_neg (by rw [length_remaining]; omega)]
    rfl

theorem agrees_get : Agrees b.bytes Eq b.get (getByte b.remaining) := by
  unfold ByteBuffer.get
  by_cases h : b.position < b.bytes.length
  · rw [dif_pos h, ByteBuffer.remaining, List.drop_eq_getElem_cons h]
    exact ⟨rfl, rfl, rfl⟩
  · have hnil : b.remaining = [] := List.drop_eq_nil_of_le (Nat.le_of_not_lt h)
    rw [dif_neg h, hnil]
    rfl

theorem bmod_emod_of_lt {n m : Nat} (h : n < m) : Int.bmod n m % (m : Int) = (n : Int) := by
  rw [Int.bmod_emod]
  exact Int.emod_eq_of_lt (by omega) (by omega)

theorem and0xFF_byteValue (x : UInt8) : and0xFF (byteValue x) = (x.toNat : Int) := bmod_emod_of_lt x.toNat_lt

theorem and0xFFFFFFFF_toInt {n : Nat} (h : n < 4294967296) : and0xFFFFFFFF (toInt n) = (n : Int) := by
  have := bmod_emod_of_lt (m := 2 ^ 32) h
  simpa [and0xFFFFFFFF, toInt] using this

theorem agrees_getUnsigned_byte :
    Agrees b.bytes (fun (x : Int) (y : UInt8) => x = (y.toNat : Int)) (getUnsigned b) (getByte b.remaining) := by
  have hget := agrees_get (b := b)
  unfold getUnsigned
  cases hb : b.get with
  | error t =>
    rw [hb] at hget
    cases hr : getByte b.remaining with
    | error e =>
      rw [hr] at hget
      exact hget
    | ok r =>
      rw [hr] at hget
      exact hget.elim
  | ok r =>
    rw [hb] at hget
    cases hr : getByte b.remaining with
    | error e =>
      rw [hr] at hget
      exact hget.elim
    | ok r' =>
      rw [hr] at hget
      obtain ⟨hval, hbytes, hrest⟩ := hget
      exact ⟨by rw [hval, and0xFF_byteValue], hbytes, hrest⟩

theorem agrees_getUnsigned :
    Agrees b.bytes (fun (x : Int) (n : Nat) => x = n) (getUnsigned b)
      ((getByte b.remaining).map fun r => (r.1.toNat, r.2)) := by
  apply Agrees.map (f := fun x => and0xFF (byteValue x)) (g := fun x : UInt8 => x.toNat) agrees_get
  intro x y h
  rw [h, and0xFF_byteValue]

theorem agrees_payloadLength (flag : UInt8) :
    Agrees b.bytes (fun (x : Int) (n : Nat) => x = n) (payloadLength flag b) (getPayloadLength flag b.remaining) := by
  unfold payloadLength getPayloadLength
  split
  · exact agrees_getUnsigned
  · have hread := agrees_getArray (b := b) (List.replicate 4 0) (n := 4) List.length_replicate
    unfold getInt
    unfold getBytes at hread
    cases harr : b.getArray (List.replicate 4 0) with
    | error t =>
      rw [harr] at hread
      by_cases hlen : 4 ≤ b.remaining.length
      · rw [if_pos hlen] at hread
        exact hread.elim
      · rw [if_neg hlen] at hread
        -- fewer than four bytes are left
        have hnone : Framework.getInt b.remaining = .error .expectedMoreData := by
          rcases hrem : b.remaining with _ | ⟨b0, _ | ⟨b1, _ | ⟨b2, _ | ⟨b3, rest⟩⟩⟩⟩
          · rfl
          · rfl
          · rfl
          · rfl
          · rw [hrem] at hlen
            exact absurd (by simp) hlen
        rw [hnone]
        exact hread
    | ok r =>
      rw [harr] at hread
      by_cases hlen : 4 ≤ b.remaining.length
      · rw [if_pos hlen] at hread
        obtain ⟨hval, hbytes, hrest⟩ := hread
        rcases hrem : b.remaining with _ | ⟨b0, _ | ⟨b1, _ | ⟨b2, _ | ⟨b3, rest⟩⟩⟩⟩
        · simp [hrem] at hlen
        · simp [hrem] at hlen
        · simp [hrem] at hlen
        · simp [hrem] at hlen
        · rw [hrem] at hval hrest
          refine ⟨?_, hbytes, hrest⟩
          have h0 := b0.toNat_lt
          have h1 := b1.toNat_lt
          have h2 := b2.toNat_lt
          have h3 := b3.toNat_lt
          have hsum : (b3.toUInt32 + (b2.toUInt32 <<< 8) + (b1.toUInt32 <<< 16) + (b0.toUInt32 <<< 24)).toNat =
              ((b0.toNat * 256 + b1.toNat) * 256 + b2.toNat) * 256 + b3.toNat := by
            simp [Nat.shiftLeft_eq]
            omega
          have hfold : r.1.foldl (fun n (byte : UInt8) => n * 256 + (byte.toNat : Int)) 0 =
              (((b0.toNat * 256 + b1.toNat) * 256 + b2.toNat) * 256 + b3.toNat : Nat) := by
            rw [hval]
            simp
          show and0xFFFFFFFF (toInt _) = _
          rw [hfold, and0xFFFFFFFF_toInt (by omega), hsum]
      · rw [if_neg hlen] at hread
        exact hread.elim

theorem agrees_idLength (flag : UInt8) :
    Agrees b.bytes (fun (x : Int) (n : Nat) => x = n) (idLength flag b) (getIdLength flag b.remaining) := by
  unfold idLength getIdLength
  split
  · exact agrees_getUnsigned
  · exact ⟨rfl, rfl, rfl⟩

end Readers

/-! ## One pass -/

theorem newBytes_nat (n : Nat) : newBytes n = .ok (List.replicate n 0) := by
  rw [newBytes, if_neg (by omega), Int.toNat_natCast]

theorem bytesOf_nat (n : Nat) : bytesOf n n = .ok (List.replicate n 0) := by
  unfold bytesOf
  split
  · exact newBytes_nat n
  · obtain rfl : n = 0 := by omega
    rfl

theorem toInt_of_le {n : Nat} (h : n ≤ maxPayloadSize) : toInt n = (n : Int) := by
  have hlt : n < 10485761 := Nat.lt_succ_of_le h
  exact Int.bmod_eq_of_le_mul_two (by simp; omega) (by simp; omega)

section Pass
variable {b : ByteBuffer} {st : ParseState}

theorem agrees_typeAndId (typeLength idLength : Nat) :
    Agrees b.bytes Eq (typeAndId st typeLength idLength b) (readTypeId st typeLength idLength b.remaining) := by
  unfold typeAndId readTypeId
  by_cases hin : st.inChunk = true
  · rw [if_pos hin, if_pos hin]
    by_cases hzero : typeLength = 0
    · rw [if_neg (by omega), if_neg (by omega)]
      exact ⟨rfl, rfl, rfl⟩
    · rw [if_pos (by omega), if_pos hzero]
      rfl
  · rw [if_neg hin, if_neg hin, bytesOf_nat, bytesOf_nat]
    apply (agrees_getArray (List.replicate typeLength 0) List.length_replicate).bind
    intro type type' b' htype hbytes
    rw [← hbytes]
    dsimp only
    apply Agrees.map (f := fun i : Bytes => ({ st with type := type, id := i } : ParseState))
      (g := fun i : Bytes => ({ st with type := type', id := i } : ParseState))
      (agrees_getArray (List.replicate idLength 0) List.length_replicate)
    intro id id' hid
    rw [htype, hid]

theorem copyChunks_eq (chunks : List Bytes) : ∀ done pad : Bytes, pad.length = chunks.flatten.length →
    copyChunks chunks done.length (done ++ pad) = .ok (done ++ chunks.flatten) := by
  induction chunks with
  | nil =>
    intro done pad hpad
    rw [List.eq_nil_of_length_eq_zero hpad]
    rfl
  | cons p ps ih =>
    intro done pad hpad
    rw [List.flatten_cons, List.length_append] at hpad
    have hcopy : arraycopy p (done ++ pad) done.length = .ok (done ++ p ++ pad.drop p.length) := by
      unfold arraycopy
      rw [if_neg (by rw [List.length_append]; omega), Int.toNat_natCast, List.take_left, ← List.drop_drop,
        List.drop_left]
    have hnext := ih (done ++ p) (pad.drop p.length) (by rw [List.length_drop]; omega)
    rw [copyChunks, hcopy]
    dsimp only [Except.bind]
    rw [List.length_append, Nat.cast_add] at hnext
    rw [hnext, List.flatten_cons, List.append_assoc]

theorem sum_length (chunks : List Bytes) (k : Nat) :
    chunks.foldl (fun n p => n + (p.length : Int)) (k : Int) = ((k + chunks.flatten.length : Nat) : Int) := by
  induction chunks generalizing k with
  | nil => rfl
  | cons p ps ih =>
    have := ih (k + p.length)
    rw [List.foldl_cons, ← Nat.cast_add, this, List.flatten_cons, List.length_append, Nat.add_assoc]

theorem flattenChunks_eq (chunks : List Bytes) : flattenChunks chunks =
    if chunks.flatten.length > maxPayloadSize then .error (.formatException .payloadAboveMaxLimit)
    else .ok chunks.flatten := by
  have hsum := sum_length chunks 0
  rw [Nat.zero_add, Nat.cast_zero] at hsum
  unfold flattenChunks
  dsimp only
  rw [hsum, ensureSanePayloadSize]
  by_cases hsize : chunks.flatten.length > maxPayloadSize
  · rw [if_pos (by exact_mod_cast hsize), if_pos hsize]
    rfl
  · have hcopy := copyChunks_eq chunks [] (List.replicate chunks.flatten.length 0) List.length_replicate
    rw [if_neg (by exact_mod_cast hsize), if_neg hsize, toInt_of_le (Nat.le_of_not_lt hsize), newBytes_nat]
    exact hcopy

theorem newRecord_of_valid {tnf : Nat} {type id payload : Bytes} (h : validateTnf tnf type id payload = none) :
    newRecord tnf type id payload = .ok ⟨tnf, type, id, payload, h⟩ := by
  unfold newRecord
  split
  · rename_i h'
    rw [h] at h'
    cases h'
  · rfl

theorem addRecord_of_valid {tnf : Nat} {payload : Bytes} (h : validateTnf tnf st.type st.id payload = none) :
    addRecord st tnf payload =
      .ok { st with records := st.records ++ [⟨tnf, st.type, st.id, payload, h⟩], inChunk := false } := by
  unfold addRecord
  split
  · rename_i h'
    rw [h] at h'
    cases h'
  · rfl

theorem addRecord_of_invalid {tnf : Nat} {payload : Bytes} {error : String}
    (h : validateTnf tnf st.type st.id payload = some error) :
    addRecord st tnf payload = .error (.invalidTnf error) := by
  unfold addRecord
  split
  · rename_i error' h'
    obtain rfl : error = error' := Option.some.inj (h.symm.trans h')
    rfl
  · rename_i h'
    rw [h] at h'
    cases h'

theorem complete_eq (tnf : Nat) (payload : Bytes) : complete st tnf payload = throwing (addRecord st tnf payload) := by
  unfold complete
  cases h : validateTnf tnf st.type st.id payload with
  | some error =>
    rw [addRecord_of_invalid h]
    rfl
  | none =>
    dsimp only
    rw [newRecord_of_valid h, addRecord_of_valid h]
    rfl

theorem takePayload_eq (cf : Bool) (tnf typeLength : Nat) (payload : Bytes) :
    takePayload st cf tnf typeLength payload = throwing (addPayload st cf tnf typeLength payload) := by
  unfold takePayload addPayload
  cases cf with
  | true =>
    cases hin : st.inChunk with
    | true => simp [throwing, Except.mapError]
    | false =>
      by_cases htype : typeLength = 0 ∧ tnf ≠ 5
      · simp [htype, throwing, Except.mapError]
      · have hnot : ¬ ((true = true) ∧ ¬ (false = true) ∧ (typeLength : Int) = 0 ∧ tnf ≠ 5) := by
          rintro ⟨-, -, h0, h5⟩
          exact htype ⟨by omega, h5⟩
        rw [if_neg hnot]
        simp only [Bool.false_eq_true, not_false_eq_true, and_self, if_true, true_or, if_false, List.nil_append]
        rw [if_neg htype]
        rfl
  | false =>
    cases hin : st.inChunk with
    | true =>
      simp only [Bool.false_eq_true, false_and, if_false, hin, or_true, if_true]
      rw [flattenChunks_eq]
      split
      · rfl
      · exact complete_eq _ _
    | false =>
      simp only [Bool.false_eq_true, false_and, if_false, hin, or_false]
      exact complete_eq _ _

theorem map_bind {α β γ : Type} (x : Except FormatError α) (f : α → Except FormatError β) (g : β → γ) :
    (x.bind f).map g = x.bind fun a => (f a).map g := by
  cases x <;> rfl

theorem agrees_pass (ignoreMbMe : Bool) :
    Agrees b.bytes Eq (pass ignoreMbMe st b)
      ((parseRecord ignoreMbMe st b.remaining).map fun r => ((r.1, r.2.1), r.2.2)) := by
  unfold pass parseRecord
  simp only [map_bind]
  apply agrees_get.bind
  intro flag flag' b1 hflag hb1
  obtain rfl : flag = flag' := hflag
  rw [← hb1]
  apply Agrees.check
  apply agrees_getUnsigned_byte.bind
  intro typeLength t b2 htype hb2
  rw [← hb2]
  apply (agrees_payloadLength flag).bind
  intro payloadLength p b3 hpayload hb3
  rw [← hb3]
  apply (agrees_idLength flag).bind
  intro idLength i b4 hid hb4
  obtain rfl : idLength = i := hid
  obtain rfl : typeLength = t.toNat := htype
  rw [← hb4]
  apply (agrees_typeAndId t.toNat i).bind
  intro s s' b5 hs hb5
  obtain rfl : s = s' := hs
  obtain rfl : payloadLength = p := hpayload
  rw [← hb5, ensureSanePayloadSize]
  dsimp only
  by_cases hsize : p > maxPayloadSize
  · rw [if_pos (by exact_mod_cast hsize), if_pos hsize]
    rfl
  · rw [if_neg (by exact_mod_cast hsize), if_neg hsize, toInt_of_le (Nat.le_of_not_lt hsize), bytesOf_nat]
    simp only [map_bind]
    apply (agrees_getArray (List.replicate p 0) List.length_replicate).bind
    intro d d' b6 hd hb6
    obtain rfl : d = d' := hd
    dsimp only
    rw [takePayload_eq]
    cases addPayload s (has flag ndefCfMask) (flag &&& ndefTnfMask).toNat t.toNat d with
    | error e => exact (rfl : Thrown.caught (.formatException e) = _)
    | ok st' => exact ⟨rfl, hb6, rfl⟩

end Pass

/-! ## The parser -/

theorem parseRecord_shorter {ignoreMbMe : Bool} {st st' : ParseState} {flag : UInt8} {buf rest : Bytes}
    (h : parseRecord ignoreMbMe st buf = .ok (st', flag, rest)) : rest.length < buf.length := by
  obtain ⟨r, -, rfl⟩ := exists_rec_of_parseRecord h
  have := r.three_le_length
  rw [List.length_append]
  omega

theorem agrees_loop (ignoreMbMe : Bool) (n : Nat) : ∀ (st : ParseState) (b : ByteBuffer), b.remaining.length < n →
    ∃ x, loop ignoreMbMe n st b = some x ∧ Agrees b.bytes Eq x (parseLoop ignoreMbMe n st b.remaining) := by
  induction n with
  | zero => exact fun _ _ h => absurd h (Nat.not_lt_zero _)
  | succ n ih =>
    intro st b hlen
    have hpass := @agrees_pass b st ignoreMbMe
    rw [loop, parseLoop]
    cases hp : pass ignoreMbMe st b with
    | error t =>
      rw [hp] at hpass
      refine ⟨.error t, rfl, ?_⟩
      cases hr : parseRecord ignoreMbMe st b.remaining with
      | error e =>
        rw [hr] at hpass
        exact hpass
      | ok r =>
        rw [hr] at hpass
        exact hpass.elim
    | ok r =>
      rw [hp] at hpass
      cases hr : parseRecord ignoreMbMe st b.remaining with
      | error e =>
        rw [hr] at hpass
        exact hpass.elim
      | ok r' =>
        rw [hr] at hpass
        obtain ⟨⟨st1, flag1⟩, b1⟩ := r
        obtain ⟨st', flag, rest⟩ := r'
        obtain ⟨hsame, hbytes, hrest⟩ := hpass
        obtain ⟨rfl, rfl⟩ : st1 = st' ∧ flag1 = flag := Prod.mk.inj hsame
        obtain rfl : b1.remaining = rest := hrest
        dsimp only [Except.bind]
        split
        · exact ⟨_, rfl, rfl, hbytes, rfl⟩
        · have hshort := parseRecord_shorter hr
          rw [← hbytes]
          exact ih st1 b1 (by omega)

theorem parse_eq (b : ByteBuffer) (ignoreMbMe : Bool) :
    match parseLoop ignoreMbMe (b.remaining.length + 1) start b.remaining with
    | .ok (records, rest) => ∃ b', parse b ignoreMbMe = some (.ok (records, b')) ∧ b'.bytes = b.bytes ∧ b'.remaining = rest
    | .error e => parse b ignoreMbMe = some (.error (.formatException e)) := by
  obtain ⟨x, hloop, hagrees⟩ := agrees_loop ignoreMbMe (b.remaining.length + 1) start b (Nat.lt_succ_self _)
  unfold parse
  rw [hloop]
  cases x with
  | error t =>
    cases hr : parseLoop ignoreMbMe (b.remaining.length + 1) start b.remaining with
    | error e =>
      rw [hr] at hagrees
      have h : t.caught = .formatException e := hagrees
      simp [Except.mapError, h]
    | ok r =>
      rw [hr] at hagrees
      exact hagrees.elim
  | ok r =>
    cases hr : parseLoop ignoreMbMe (b.remaining.length + 1) start b.remaining with
    | error e =>
      rw [hr] at hagrees
      exact hagrees.elim
    | ok r' =>
      rw [hr] at hagrees
      obtain ⟨records, b'⟩ := r
      obtain ⟨hsame, hbytes, hrest⟩ := hagrees
      exact ⟨b', by simp [Except.mapError, hsame], hbytes, hrest⟩

theorem fields_inside {runs : List Run} {rest : Bytes} {r : Rec} (hr : r ∈ runs.flatMap Run.recs) :
    r.type <:+: messageBytes runs ++ rest ∧ r.id <:+: messageBytes runs ++ rest ∧
      r.payload <:+: messageBytes runs ++ rest := by
  obtain ⟨pre, post, hsplit⟩ := List.append_of_mem hr
  have hbytes : messageBytes runs ++ rest =
      recsBytes pre ++ (r.head ++ r.type ++ r.id ++ r.payload) ++ (recsBytes post ++ rest) := by
    rw [messageBytes, hsplit, recsBytes, List.flatMap_append, List.flatMap_cons]
    simp [recsBytes, Rec.bytes]
  rw [hbytes]
  refine ⟨⟨recsBytes pre ++ r.head, r.id ++ r.payload ++ (recsBytes post ++ rest), by simp⟩,
    ⟨recsBytes pre ++ r.head ++ r.type, r.payload ++ (recsBytes post ++ rest), by simp⟩,
    ⟨recsBytes pre ++ r.head ++ r.type ++ r.id, recsBytes post ++ rest, by simp⟩⟩

/-- The parser throws a format exception, where no message is at the front of the buffer, or returns the logical
records of the one message that is, whose fields all lie in the buffer. -/
theorem parse_grammar (b : ByteBuffer) :
    ((∃ e, parse b false = some (.error (.formatException e))) ∧
        ¬ ∃ runs rest, b.remaining = messageBytes runs ++ rest ∧ Message true runs) ∨
      ∃ runs records b', parse b false = some (.ok (records, b')) ∧ Message true runs ∧ Logical runs records ∧
        b'.bytes = b.bytes ∧ b.remaining = messageBytes runs ++ b'.remaining ∧
        (∀ r ∈ runs.flatMap Run.recs, r.type <:+: b.remaining ∧ r.id <:+: b.remaining ∧ r.payload <:+: b.remaining) ∧
        ∀ runs' rest', b.remaining = messageBytes runs' ++ rest' → Message true runs' →
          Logical runs' records ∧ rest' = b'.remaining := by
  have hparse := parse_eq b false
  have hiff := fun (records : List NdefRecord) (rest : Bytes) =>
    @parseLoop_message_iff start rfl rfl b.remaining rest records
  cases hr : parseLoop false (b.remaining.length + 1) start b.remaining with
  | error e =>
    rw [hr] at hparse
    refine .inl ⟨⟨e, hparse⟩, ?_⟩
    rintro ⟨runs, rest, hbuf, hmessage⟩
    obtain ⟨records, hlogical⟩ := hmessage.exists_logical
    rw [(hiff records rest).mpr ⟨runs, hbuf, hmessage, hlogical⟩] at hr
    cases hr
  | ok r =>
    rw [hr] at hparse
    obtain ⟨records, rest⟩ := r
    obtain ⟨b', hok, hbytes, hrest⟩ := hparse
    obtain rfl : b'.remaining = rest := hrest
    obtain ⟨runs, hbuf, hmessage, hlogical⟩ := (hiff records _).mp hr
    refine .inr ⟨runs, records, b', hok, hmessage, hlogical, hbytes, hbuf, ?_, ?_⟩
    · intro r hr
      rw [hbuf]
      exact fields_inside hr
    · intro runs' rest' hbuf' hmessage'
      obtain ⟨records', hlogical'⟩ := hmessage'.exists_logical
      have hr' := (hiff records' rest').mpr ⟨runs', hbuf', hmessage', hlogical'⟩
      rw [hr] at hr'
      obtain ⟨rfl, hsame⟩ := Prod.mk.inj (Except.ok.inj hr')
      exact ⟨hlogical', hsame.symm⟩

/-- A text record in two chunks, with a byte behind it. -/
example : (parse ⟨[0xB1, 1, 1, 0x54, 1, 0x56, 0, 1, 2, 0], 0, by decide⟩ false).map
    (·.map fun r => (r.1.map fun record => (record.tnf, record.type, record.payload), r.2.position)) =
      some (.ok ([(1, [0x54], [1, 2])], 9)) := rfl

end NfcStack.Framework.Buffered
