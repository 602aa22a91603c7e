import NfcStack.Lib.Bytes

/- NDEF records in memory (`ndef_utils.h`, `nfc_types.h`).

   A record is a header byte, the length of the type, the length of the payload
   in one byte or four (the SR bit says which), the length of the id in one byte
   or none (the IL bit), and then type, id and payload. Every function of
   `ndef_utils.cc` decodes this head again; `readRecHdr` is the part they have in
   common. A read outside of the memory is `none`.

   What is proved:
     1. `readRecHdr_bytes`: the head of a record that stands somewhere in a
        memory is read back as it was written.
     2. `exists_rec_of_readRecHdr`: a head that can be read, with its fields
        inside the memory, is the head of a record that stands there.
     3. `skip_bytes`: adding up the lengths in 32 bits leads to the end of the
        record. -/
namespace NfcStack.Ndef
open NfcStack.Lib

abbrev Bytes := List UInt8

/-! ## The head of a record -/

inductive NdefStatus where
  | ok
  | recNotFound
  | msgTooShort
  | msgNoMsgBegin
  | msgNoMsgEnd
  | msgExtraMsgBegin
  | msgUnexpectedChunk
  | msgInvalidEmptyRec
  | msgInvalidChunk
  | msgLengthMismatch
  | msgInsufficientMem
  | msgInvalidType
  deriving DecidableEq, Repr

def ndefTnfEmpty : UInt8 := 0
def ndefTnfWkt : UInt8 := 1
def ndefTnfExt : UInt8 := 4
def ndefTnfUnknown : UInt8 := 5
def ndefTnfUnchanged : UInt8 := 6
def ndefTnfReserved : UInt8 := 7

def ndefMbMask : UInt8 := 0x80
def ndefMeMask : UInt8 := 0x40
def ndefCfMask : UInt8 := 0x20
def ndefSrMask : UInt8 := 0x10
def ndefIlMask : UInt8 := 0x08
def ndefTnfMask : UInt8 := 0x07

/-- `hdr & mask`, as a condition. -/
abbrev has (hdr mask : UInt8) : Prop := hdr &&& mask ≠ 0

/-- `UINT32_TO_BE_STREAM`. -/
def uint32ToBeStream (u : UInt32) : Bytes :=
  [(u >>> 24).toUInt8, (u >>> 16).toUInt8, (u >>> 8).toUInt8, u.toUInt8]

/-- `BE_STREAM_TO_UINT32`. -/
def beStreamToUint32 (mem : Bytes) (p : Nat) : Option UInt32 :=
  mem[p]?.bind fun b0 => mem[p + 1]?.bind fun b1 => mem[p + 2]?.bind fun b2 =>
    mem[p + 3]?.map fun b3 =>
      b3.toUInt32 + (b2.toUInt32 <<< 8) + (b1.toUInt32 <<< 16) + (b0.toUInt32 <<< 24)

/-- The payload length, and where it ends. -/
def readPayloadLen (mem : Bytes) (hdr : UInt8) (p : Nat) : Option (UInt32 × Nat) :=
  if has hdr ndefSrMask then mem[p]?.map fun b => (b.toUInt32, p + 1)
  else (beStreamToUint32 mem p).map fun u => (u, p + 4)

/-- The id length, and where it ends. -/
def readIdLen (mem : Bytes) (hdr : UInt8) (p : Nat) : Option (UInt8 × Nat) :=
  if has hdr ndefIlMask then mem[p]?.map fun b => (b, p + 1) else some (0, p)

/-- What the head says; `body` is where the type starts. -/
structure RecHdr where
  hdr : UInt8
  typeLen : UInt8
  payloadLen : UInt32
  idLen : UInt8
  body : Nat
  deriving DecidableEq, Repr

def readRecHdr (mem : Bytes) (p : Nat) : Option RecHdr :=
  mem[p]?.bind fun hdr => mem[p + 1]?.bind fun typeLen =>
    (readPayloadLen mem hdr (p + 2)).bind fun r => (readIdLen mem hdr r.2).map fun r' =>
      ⟨hdr, typeLen, r.1, r'.1, r'.2⟩

/-- `payload_len + type_len + id_len`, in 32 bits. -/
def RecHdr.bodyLen (h : RecHdr) : UInt32 := h.payloadLen + h.typeLen.toUInt32 + h.idLen.toUInt32

/-- Where the next record starts. -/
def RecHdr.next (h : RecHdr) : Nat := h.body + h.bodyLen.toNat

/-! ## Records -/

/-- A record. The lengths fit in the fields that the header byte announces. -/
structure Rec where
  hdr : UInt8
  type : Bytes
  id : Bytes
  payload : Bytes
  type_lt : type.length < 256
  id_lt : id.length < 256
  id_il : ¬ has hdr ndefIlMask → id = []
  payload_lt : payload.length < if has hdr ndefSrMask then 256 else 4294967296

theorem no_bytes_lt : ([] : Bytes).length < 256 := by decide
theorem text_type_lt : ([0x54] : Bytes).length < 256 := by decide

namespace Rec

abbrev mb (r : Rec) : Prop := has r.hdr ndefMbMask
abbrev me (r : Rec) : Prop := has r.hdr ndefMeMask
abbrev cf (r : Rec) : Prop := has r.hdr ndefCfMask
def tnf (r : Rec) : UInt8 := r.hdr &&& ndefTnfMask

def lenField (r : Rec) : Bytes :=
  if has r.hdr ndefSrMask then [UInt8.ofNat r.payload.length]
  else uint32ToBeStream (UInt32.ofNat r.payload.length)

def idField (r : Rec) : Bytes :=
  if has r.hdr ndefIlMask then [UInt8.ofNat r.id.length] else []

def head (r : Rec) : Bytes :=
  [r.hdr, UInt8.ofNat r.type.length] ++ r.lenField ++ r.idField

/-- The record as it stands in memory. -/
def bytes (r : Rec) : Bytes := r.head ++ r.type ++ r.id ++ r.payload

end Rec

/-! ## Four bytes and a number -/

theorem uint32_of_stream (u : UInt32) :
    u.toUInt8.toUInt32 + ((u >>> 8).toUInt8.toUInt32 <<< 8) +
      ((u >>> 16).toUInt8.toUInt32 <<< 16) + ((u >>> 24).toUInt8.toUInt32 <<< 24) = u := by
  apply UInt32.toNat_inj.mp
  have hu := u.toNat_lt
  simp [Nat.shiftRight_eq_div_pow, Nat.shiftLeft_eq]
  omega

theorem stream_of_uint32 (b0 b1 b2 b3 : UInt8) :
    uint32ToBeStream (b3.toUInt32 + (b2.toUInt32 <<< 8) + (b1.toUInt32 <<< 16) +
      (b0.toUInt32 <<< 24)) = [b0, b1, b2, b3] := by
  have h0 := b0.toNat_lt
  have h1 := b1.toNat_lt
  have h2 := b2.toNat_lt
  have h3 := b3.toNat_lt
  simp only [uint32ToBeStream, List.cons.injEq, and_true, ← UInt8.toNat_inj]
  refine ⟨?_, ?_, ?_, ?_⟩ <;> simp [Nat.shiftRight_eq_div_pow, Nat.shiftLeft_eq] <;> omega

/-! ## Reading a record back -/

/-- A read past a prefix. -/
theorem get_append (pre rest : Bytes) (k : Nat) : (pre ++ rest)[pre.length + k]? = rest[k]? := by
  rw [List.getElem?_append_right (by omega)]
  simp

theorem beStreamToUint32_stream (pre post : Bytes) (u : UInt32) :
    beStreamToUint32 (pre ++ uint32ToBeStream u ++ post) pre.length = some u := by
  have hread : ∀ k, (pre ++ uint32ToBeStream u ++ post)[pre.length + k]? =
      (uint32ToBeStream u ++ post)[k]? := by
    intro k
    rw [List.append_assoc, get_append]
  have h0 := hread 0
  rw [beStreamToUint32, hread 1, hread 2, hread 3, ← Nat.add_zero pre.length, h0]
  simp only [uint32ToBeStream, List.cons_append, List.nil_append, List.getElem?_cons_zero,
    List.getElem?_cons_succ, Option.bind_some, Option.map_some, Option.some.injEq]
  exact uint32_of_stream u

namespace Rec
variable (r : Rec) (pre post : Bytes)

theorem readPayloadLen_lenField :
    readPayloadLen (pre ++ r.lenField ++ post) r.hdr pre.length =
      some (UInt32.ofNat r.payload.length, pre.length + r.lenField.length) := by
  have hlt := r.payload_lt
  unfold readPayloadLen lenField
  by_cases hsr : has r.hdr ndefSrMask
  · rw [if_pos hsr, if_pos hsr]
    rw [if_pos hsr] at hlt
    have hbyte : (UInt8.ofNat r.payload.length).toUInt32 = UInt32.ofNat r.payload.length := by
      apply UInt32.toNat_inj.mp
      simp
      omega
    simp [hbyte]
  · rw [if_neg hsr, if_neg hsr, beStreamToUint32_stream]
    rfl

theorem readIdLen_idField :
    readIdLen (pre ++ r.idField ++ post) r.hdr pre.length =
      some (UInt8.ofNat r.id.length, pre.length + r.idField.length) := by
  unfold readIdLen idField
  by_cases hil : has r.hdr ndefIlMask
  · rw [if_pos hil, if_pos hil]
    simp
  · rw [if_neg hil, if_neg hil, r.id_il hil]
    simp

theorem readRecHdr_bytes :
    readRecHdr (pre ++ r.bytes ++ post) pre.length =
      some ⟨r.hdr, UInt8.ofNat r.type.length, UInt32.ofNat r.payload.length,
        UInt8.ofNat r.id.length, pre.length + r.head.length⟩ := by
  set two : Bytes := [r.hdr, UInt8.ofNat r.type.length] with htwo
  set body := r.type ++ r.id ++ r.payload ++ post with hbody
  have hmem : pre ++ r.bytes ++ post = pre ++ two ++ r.lenField ++ r.idField ++ body := by
    simp [bytes, head, htwo, hbody]
  have hpay := r.readPayloadLen_lenField (pre ++ two) (r.idField ++ body)
  have hid := r.readIdLen_idField (pre ++ two ++ r.lenField) body
  have hlen2 : (pre ++ two).length = pre.length + 2 := by simp [htwo]
  have hlen : (pre ++ two ++ r.lenField).length = pre.length + 2 + r.lenField.length := by
    simp [htwo]
    omega
  rw [hlen2, ← List.append_assoc] at hpay
  rw [hlen] at hid
  rw [hmem]
  have h0 : (pre ++ two ++ r.lenField ++ r.idField ++ body)[pre.length]? = some r.hdr := by
    simp [htwo]
  have h1 : (pre ++ two ++ r.lenField ++ r.idField ++ body)[pre.length + 1]? =
      some (UInt8.ofNat r.type.length) := by
    simp [htwo]
  rw [readRecHdr, h0, Option.bind_some, h1, Option.bind_some, hpay, Option.bind_some, hid,
    Option.map_some]
  simp [head, Nat.add_assoc]
  omega

@[simp] theorem toNat_typeLen : (UInt8.ofNat r.type.length).toNat = r.type.length := by
  have := r.type_lt
  simp
  omega

@[simp] theorem toNat_idLen : (UInt8.ofNat r.id.length).toNat = r.id.length := by
  have := r.id_lt
  simp
  omega

theorem payload_lt_word : r.payload.length < 4294967296 := by
  have := r.payload_lt
  split at this <;> omega

theorem toNat_payloadLen : (UInt32.ofNat r.payload.length).toNat = r.payload.length := by
  have := r.payload_lt_word
  simp
  omega

theorem length_bytes : r.bytes.length =
    r.head.length + (r.payload.length + r.type.length + r.id.length) := by
  simp [bytes]
  omega

theorem length_head : r.head.length =
    2 + (if has r.hdr ndefSrMask then 1 else 4) + (if has r.hdr ndefIlMask then 1 else 0) := by
  unfold head lenField idField
  split <;> split <;> simp [uint32ToBeStream]

/-- The lengths add up in 32 bits if the record is no longer than that. -/
theorem bodyLen_toNat (h : r.bytes.length < 4294967296) (body : Nat) :
    (⟨r.hdr, UInt8.ofNat r.type.length, UInt32.ofNat r.payload.length, UInt8.ofNat r.id.length,
      body⟩ : RecHdr).bodyLen.toNat = r.payload.length + r.type.length + r.id.length := by
  have ht := r.type_lt
  have hi := r.id_lt
  rw [length_bytes] at h
  simp [RecHdr.bodyLen]
  omega

end Rec

/-- A record is read off the bytes that start with it. -/
theorem Rec.bytes_append_inj {r r' : Rec} {x y : Bytes} (h : r.bytes ++ x = r'.bytes ++ y) : r = r' ∧ x = y := by
  have hread := r.readRecHdr_bytes [] x
  have hread' := r'.readRecHdr_bytes [] y
  rw [List.nil_append, h, ← List.nil_append (r'.bytes ++ y), ← List.append_assoc, hread'] at hread
  obtain ⟨hhdr, ht, hp, hi, -⟩ := RecHdr.mk.inj (Option.some.inj hread)
  have htl : r'.type.length = r.type.length := by
    rw [← r'.toNat_typeLen, ht, r.toNat_typeLen]
  have hil : r'.id.length = r.id.length := by
    rw [← r'.toNat_idLen, hi, r.toNat_idLen]
  have hpl : r'.payload.length = r.payload.length := by
    rw [← r'.toNat_payloadLen, hp, r.toNat_payloadLen]
  have hhead : r'.head = r.head := by
    unfold head lenField idField
    rw [hhdr, htl, hil, hpl]
  simp only [bytes, hhead, List.append_assoc, List.append_cancel_left_eq] at h
  obtain ⟨htype, h⟩ := List.append_inj h htl.symm
  obtain ⟨hid, h⟩ := List.append_inj h hil.symm
  obtain ⟨hpay, hrest⟩ := List.append_inj h hpl.symm
  obtain ⟨hdr, type, id, payload, _, _, _, _⟩ := r
  obtain ⟨hdr', type', id', payload', _, _, _, _⟩ := r'
  dsimp only at hhdr htype hid hpay
  subst hhdr htype hid hpay
  exact ⟨rfl, hrest⟩

/-! ## A head that can be read -/

variable {mem : Bytes}

theorem drop_of_get {p : Nat} {b : UInt8} (h : mem[p]? = some b) :
    mem.drop p = b :: mem.drop (p + 1) := by
  obtain ⟨hp, rfl⟩ := List.getElem?_eq_some_iff.mp h
  exact List.drop_eq_getElem_cons hp

theorem drop_of_beStreamToUint32 {p : Nat} {u : UInt32} (h : beStreamToUint32 mem p = some u) :
    mem.drop p = uint32ToBeStream u ++ mem.drop (p + 4) := by
  simp only [beStreamToUint32, Option.bind_eq_some_iff, Option.map_eq_some_iff] at h
  obtain ⟨b0, h0, b1, h1, b2, h2, b3, h3, rfl⟩ := h
  rw [stream_of_uint32, drop_of_get h0, drop_of_get h1, drop_of_get h2, drop_of_get h3]
  rfl

theorem drop_of_readPayloadLen {hdr : UInt8} {p : Nat} {u : UInt32} {q : Nat}
    (h : readPayloadLen mem hdr p = some (u, q)) :
    u.toNat < (if has hdr ndefSrMask then 256 else 4294967296) ∧
      q = p + (if has hdr ndefSrMask then 1 else 4) ∧
      mem.drop p = (if has hdr ndefSrMask then [u.toUInt8] else uint32ToBeStream u) ++
        mem.drop q := by
  unfold readPayloadLen at h
  by_cases hsr : has hdr ndefSrMask
  · rw [if_pos hsr] at h
    obtain ⟨b, hb, heq⟩ := Option.map_eq_some_iff.mp h
    obtain ⟨rfl, rfl⟩ := Prod.mk.inj heq
    have hlt := b.toNat_lt
    rw [if_pos hsr, if_pos hsr, if_pos hsr, drop_of_get hb]
    refine ⟨?_, rfl, ?_⟩
    · simpa using hlt
    · simp
  · rw [if_neg hsr] at h
    obtain ⟨v, hv, heq⟩ := Option.map_eq_some_iff.mp h
    obtain ⟨rfl, rfl⟩ := Prod.mk.inj heq
    rw [if_neg hsr, if_neg hsr, if_neg hsr, drop_of_beStreamToUint32 hv]
    exact ⟨v.toNat_lt, rfl, rfl⟩

theorem drop_of_readIdLen {hdr : UInt8} {p : Nat} {b : UInt8} {q : Nat}
    (h : readIdLen mem hdr p = some (b, q)) :
    (¬ has hdr ndefIlMask → b = 0) ∧ q = p + (if has hdr ndefIlMask then 1 else 0) ∧
      mem.drop p = (if has hdr ndefIlMask then [b] else []) ++ mem.drop q := by
  unfold readIdLen at h
  by_cases hil : has hdr ndefIlMask
  · rw [if_pos hil] at h
    obtain ⟨c, hc, heq⟩ := Option.map_eq_some_iff.mp h
    obtain ⟨rfl, rfl⟩ := Prod.mk.inj heq
    rw [if_pos hil, if_pos hil, drop_of_get hc]
    exact ⟨fun hn => absurd hil hn, rfl, rfl⟩
  · rw [if_neg hil] at h
    obtain ⟨rfl, rfl⟩ := Prod.mk.inj (Option.some.inj h)
    rw [if_neg hil, if_neg hil]
    exact ⟨fun _ => rfl, rfl, rfl⟩

theorem drop_slice (p len : Nat) :
    mem.drop p = slice mem p len ++ mem.drop (p + len) := by
  rw [slice, ← List.drop_drop, List.take_append_drop]

theorem exists_rec_of_readRecHdr {p : Nat} {h : RecHdr} (hr : readRecHdr mem p = some h)
    (hin : h.body + (h.payloadLen.toNat + h.typeLen.toNat + h.idLen.toNat) ≤ mem.length) :
    ∃ r : Rec, r.hdr = h.hdr ∧ r.type = slice mem h.body h.typeLen.toNat ∧
      r.type.length = h.typeLen.toNat ∧ r.id.length = h.idLen.toNat ∧
      r.payload.length = h.payloadLen.toNat ∧ h.body = p + r.head.length ∧
      mem.drop p = r.bytes ++ mem.drop (p + r.bytes.length) := by
  simp only [readRecHdr, Option.bind_eq_some_iff, Option.map_eq_some_iff] at hr
  obtain ⟨hdr, hhdr, typeLen, htype, ⟨pl, q⟩, hpl, ⟨idLen, body⟩, hid, rfl⟩ := hr
  obtain ⟨hlt, hq, hdrop⟩ := drop_of_readPayloadLen hpl
  obtain ⟨hil, hbody, hdrop'⟩ := drop_of_readIdLen hid
  dsimp only at hin hq hdrop hbody hdrop' ⊢
  have ht : (slice mem body typeLen.toNat).length = typeLen.toNat := length_slice (by omega)
  have hi : (slice mem (body + typeLen.toNat) idLen.toNat).length = idLen.toNat :=
    length_slice (by omega)
  have hp : (slice mem (body + typeLen.toNat + idLen.toNat) pl.toNat).length = pl.toNat :=
    length_slice (by omega)
  let r : Rec :=
    { hdr := hdr
      type := slice mem body typeLen.toNat
      id := slice mem (body + typeLen.toNat) idLen.toNat
      payload := slice mem (body + typeLen.toNat + idLen.toNat) pl.toNat
      type_lt := by rw [ht]; exact typeLen.toNat_lt
      id_lt := by rw [hi]; exact idLen.toNat_lt
      id_il := fun hn => by rw [hil hn]; simp
      payload_lt := by rw [hp]; exact hlt }
  have hlen : r.lenField = if has hdr ndefSrMask then [pl.toUInt8] else uint32ToBeStream pl := by
    change (if has hdr ndefSrMask then [UInt8.ofNat (slice _ _ _).length]
      else uint32ToBeStream (UInt32.ofNat (slice _ _ _).length)) = _
    rw [hp]
    simp
  have hidf : r.idField = if has hdr ndefIlMask then [idLen] else [] := by
    change (if has hdr ndefIlMask then [UInt8.ofNat (slice _ _ _).length] else []) = _
    rw [hi]
    simp
  have hhead : r.head = [hdr, typeLen] ++ r.lenField ++ r.idField := by
    change [hdr, UInt8.ofNat (slice _ _ _).length] ++ _ ++ _ = _
    rw [ht]
    simp
  have hb : body = p + r.head.length := by
    rw [hhead, hlen, hidf, hbody, hq]
    split <;> split <;> simp [uint32ToBeStream]
  refine ⟨r, rfl, rfl, ht, hi, hp, hb, ?_⟩
  have hend : p + r.bytes.length = body + typeLen.toNat + idLen.toNat + pl.toNat := by
    rw [Rec.length_bytes, show r.type.length = _ from ht, show r.id.length = _ from hi,
      show r.payload.length = _ from hp]
    omega
  calc mem.drop p = hdr :: typeLen :: mem.drop (p + 2) := by
        rw [drop_of_get hhdr, drop_of_get htype]
    _ = r.head ++ mem.drop body := by
        rw [hdrop, hdrop', hhead, hlen, hidf]
        simp
    _ = r.head ++ (r.type ++ (r.id ++ (r.payload ++
          mem.drop (body + typeLen.toNat + idLen.toNat + pl.toNat)))) := by
        rw [← drop_slice, ← drop_slice, ← drop_slice]
    _ = r.bytes ++ mem.drop (p + r.bytes.length) := by
        rw [hend]
        simp [Rec.bytes]

end NfcStack.Ndef
