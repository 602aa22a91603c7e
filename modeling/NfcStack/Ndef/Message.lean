import NfcStack.Ndef.Walk

/- NDEF messages as lists of records, and how such a list is laid out in memory: MB on
   the first record only, ME on the last only, SR just when the payload is shorter than
   256 bytes, IL just when there is an id.

   What is proved:
     1. `closed_append`: the layout around a record does not depend on it, except for
        its first and last bit.
     2. `endsOnce_closed`: the layout is one that the walkers can walk. -/
namespace NfcStack.Ndef
open NfcStack.Lib

/-! ## Records -/

/-- A record, without what depends on its place in a message. -/
@[ext] structure NdefRec where
  tnf : Fin 7
  type : Bytes
  id : Bytes
  payload : Bytes
  type_lt : type.length < 256
  id_lt : id.length < 256
  payload_lt : payload.length < 4294967296

def mkHdr (tnf : Fin 7) (mb me sr il : Bool) : UInt8 :=
  UInt8.ofNat tnf ||| (if mb then ndefMbMask else 0) ||| (if me then ndefMeMask else 0) |||
    (if sr then ndefSrMask else 0) ||| (if il then ndefIlMask else 0)

section Header
variable (tnf : Fin 7) (mb me sr il : Bool)

theorem mkHdr_bits : (has (mkHdr tnf mb me sr il) ndefMbMask ↔ mb = true) ∧
    (has (mkHdr tnf mb me sr il) ndefMeMask ↔ me = true) ∧
    (has (mkHdr tnf mb me sr il) ndefSrMask ↔ sr = true) ∧
    (has (mkHdr tnf mb me sr il) ndefIlMask ↔ il = true) ∧
    mkHdr tnf mb me sr il &&& ndefTnfMask = UInt8.ofNat tnf := by
  revert tnf mb me sr il
  decide

@[simp] theorem has_mb : has (mkHdr tnf mb me sr il) ndefMbMask ↔ mb = true :=
  (mkHdr_bits tnf mb me sr il).1

@[simp] theorem has_me : has (mkHdr tnf mb me sr il) ndefMeMask ↔ me = true :=
  (mkHdr_bits tnf mb me sr il).2.1

@[simp] theorem has_sr : has (mkHdr tnf mb me sr il) ndefSrMask ↔ sr = true :=
  (mkHdr_bits tnf mb me sr il).2.2.1

@[simp] theorem has_il : has (mkHdr tnf mb me sr il) ndefIlMask ↔ il = true :=
  (mkHdr_bits tnf mb me sr il).2.2.2.1

/-- Setting and clearing the bits, one at a time. -/
theorem mkHdr_set_clear :
    mkHdr tnf mb me sr il ||| ndefMbMask = mkHdr tnf true me sr il ∧
      mkHdr tnf mb me sr il ||| ndefMeMask = mkHdr tnf mb true sr il ∧
      mkHdr tnf mb me sr il &&& ~~~ndefMeMask = mkHdr tnf mb false sr il ∧
      mkHdr tnf mb me sr il ||| ndefSrMask = mkHdr tnf mb me true il ∧
      mkHdr tnf mb me sr il &&& ~~~ndefSrMask = mkHdr tnf mb me false il ∧
      mkHdr tnf mb me sr il ||| ndefIlMask = mkHdr tnf mb me sr true ∧
      mkHdr tnf mb me sr il &&& ~~~ndefIlMask = mkHdr tnf mb me sr false := by
  revert tnf mb me sr il
  decide

end Header

/-- The payload length in as few bytes as the format allows. -/
def lenBytes (n : Nat) : Bytes :=
  if n < 256 then [UInt8.ofNat n] else uint32ToBeStream (UInt32.ofNat n)

/-- The id length, if there is an id. -/
def idBytes (id : Bytes) : Bytes := if id = [] then [] else [UInt8.ofNat id.length]

@[simp] theorem length_lenBytes (n : Nat) : (lenBytes n).length = if n < 256 then 1 else 4 := by
  unfold lenBytes
  split <;> rfl

@[simp] theorem length_idBytes (id : Bytes) :
    (idBytes id).length = if id = [] then 0 else 1 := by
  unfold idBytes
  split <;> rfl

namespace NdefRec
variable (r : NdefRec) (mb me : Bool)

def hdr : UInt8 := mkHdr r.tnf mb me (decide (r.payload.length < 256)) (decide (r.id ≠ []))

/-- The record at its place in a message. -/
def frame : Rec where
  hdr := r.hdr mb me
  type := r.type
  id := r.id
  payload := r.payload
  type_lt := r.type_lt
  id_lt := r.id_lt
  id_il := by
    intro h
    simpa [hdr] using h
  payload_lt := by
    by_cases h : r.payload.length < 256
    · simp [hdr, h]
    · simpa [hdr, h] using r.payload_lt

/-- The length of the record in memory: the place does not matter. -/
def size : Nat :=
  2 + (if r.payload.length < 256 then 1 else 4) + (if r.id = [] then 0 else 1) +
    (r.payload.length + r.type.length + r.id.length)

theorem length_head_frame : (r.frame mb me).head.length =
    2 + (if r.payload.length < 256 then 1 else 4) + (if r.id = [] then 0 else 1) := by
  rw [Rec.length_head]
  by_cases h : r.payload.length < 256 <;> by_cases hid : r.id = [] <;> simp [frame, hdr, h, hid]

theorem length_frame : (r.frame mb me).bytes.length = r.size := by
  rw [Rec.length_bytes, length_head_frame]
  rfl

theorem frame_tnf : (r.frame mb me).tnf = UInt8.ofNat r.tnf :=
  (mkHdr_bits _ _ _ _ _).2.2.2.2

theorem bytes_frame : (r.frame mb me).bytes =
    r.hdr mb me :: UInt8.ofNat r.type.length :: (lenBytes r.payload.length ++ idBytes r.id ++
      r.type ++ r.id ++ r.payload) := by
  have hlen : (r.frame mb me).lenField = lenBytes r.payload.length := by
    by_cases h : r.payload.length < 256 <;> simp [Rec.lenField, lenBytes, frame, hdr, h]
  have hid : (r.frame mb me).idField = idBytes r.id := by
    by_cases h : r.id = [] <;> simp [Rec.idField, idBytes, frame, hdr, h]
  rw [Rec.bytes, Rec.head, hlen, hid]
  simp [frame]

end NdefRec

/-! ## Messages -/

/-- The records up to one that is not the last. -/
def opened (mb : Bool) : List NdefRec → List Rec
  | [] => []
  | r :: rs => r.frame mb false :: opened false rs

def closed (mb : Bool) : List NdefRec → List Rec
  | [] => []
  | r :: rs => r.frame mb rs.isEmpty :: closed false rs

def encode (rs : List NdefRec) : Bytes := recsBytes (closed true rs)

theorem closed_append (mb : Bool) (A : List NdefRec) (r : NdefRec) (B : List NdefRec) :
    closed mb (A ++ r :: B) =
      opened mb A ++ r.frame (mb && A.isEmpty) B.isEmpty :: closed false B := by
  induction A generalizing mb with
  | nil => simp [closed, opened]
  | cons a A ih =>
    have : (A ++ r :: B).isEmpty = false := by cases A <;> rfl
    rw [List.cons_append, closed, this, ih false]
    simp [opened]

theorem length_opened (mb : Bool) (rs : List NdefRec) : (opened mb rs).length = rs.length := by
  induction rs generalizing mb with
  | nil => rfl
  | cons r rs ih => simp [opened, ih]

theorem length_closed (mb : Bool) (rs : List NdefRec) : (closed mb rs).length = rs.length := by
  induction rs generalizing mb with
  | nil => rfl
  | cons r rs ih => simp [closed, ih]

theorem recsLen_opened (mb : Bool) (rs : List NdefRec) :
    recsLen (opened mb rs) = (rs.map NdefRec.size).sum := by
  induction rs generalizing mb with
  | nil => rfl
  | cons r rs ih => rw [opened, recsLen_cons, r.length_frame, ih]; rfl

theorem recsLen_closed (mb : Bool) (rs : List NdefRec) :
    recsLen (closed mb rs) = (rs.map NdefRec.size).sum := by
  induction rs generalizing mb with
  | nil => rfl
  | cons r rs ih => rw [closed, recsLen_cons, r.length_frame, ih]; rfl

theorem endsOnce_closed (mb : Bool) {rs : List NdefRec} (hne : rs ≠ []) : EndsOnce (closed mb rs) := by
  induction rs generalizing mb with
  | nil => exact absurd rfl hne
  | cons r rs ih =>
    cases rs with
    | nil => exact (has_me _ _ _ _ _).mpr rfl
    | cons r' rs =>
      refine ⟨?_, ih false (List.cons_ne_nil _ _)⟩
      exact fun h => Bool.false_ne_true ((has_me _ _ _ _ _).mp h)

end NfcStack.Ndef
