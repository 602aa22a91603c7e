import NfcStack.Rw.T4t

/- A Type 4 tag that behaves as the file that its capability container describes, and the
   system of such a tag and its reader. The tag answers a READ with as much as is asked
   for, as the container allows and as the file has; it refuses an UPDATE that is larger
   than the container allows or that goes beyond the file, and the extended coding of
   lengths where the container leaves no use for it.

   What is proved:
     1. `exec_read`, `exec_readOdo`, `exec_update`, `exec_updateOdo`: how the tag answers
        the commands of the reader.
     2. `chunk_progress`: a part that is sent with BER-TLV objects has data, and not more
        than is left, if a command may have eight bytes. -/
namespace NfcStack.Rw.T4t
open NfcStack.Lib

/-- The file control TLV of the container. -/
def ccFc (bs : Bytes) : NdefFc :=
  if byteAt bs 7 = 0x04 ∧ byteAt bs 8 = 0x06 then { parseFc ⟨0, 0, 0, 0, 0⟩ bs 9 with nlenSize := 2 }
  else { parseExtFc ⟨0, 0, 0, 0, 0⟩ bs 9 with nlenSize := 4 }

/-- What a container describes. -/
def describes (bs : Bytes) : Cc := { parseCcHead ⟨0, 0, 0, 0, ⟨0, 0, 0, 0, 0⟩⟩ bs with ndefFc := ccFc bs }

inductive Selected where
  | none
  | app
  | cc
  | ndef
  deriving DecidableEq, Repr

structure Tag where
  cc : Bytes
  file : Bytes
  selected : Selected
  deriving DecidableEq, Repr

def sw (a b : UInt8) : Bytes := [a, b]
abbrev swOk : Bytes := sw 0x90 0x00
abbrev swNotFound : Bytes := sw 0x6A 0x82
abbrev swWrongLength : Bytes := sw 0x67 0x00
abbrev swWrongParams : Bytes := sw 0x6B 0x00
abbrev swNotSupported : Bytes := sw 0x6D 0x00

/-- The number of bytes an Le asks for. -/
def leValue (ext : Bool) (le : Nat) : Nat := if le = 0 then (if ext then 65536 else 256) else le

/-- The length of a BER-TLV object in the fewest bytes. -/
def ddoLength (n : Nat) : Bytes :=
  if n ≤ 0x7F then [UInt8.ofNat n] else if n ≤ 0xFF then [0x81, UInt8.ofNat n] else 0x82 :: be16 n

/-- How much data an object of `total` bytes can have. -/
def ddoCapacity (total : Nat) : Nat :=
  if total ≤ 129 then total - 2
  else if total = 130 then 127
  else if total ≤ 258 then total - 3
  else if total = 259 then 255
  else total - 4

/-- An offset object and what is behind it. -/
def parseOdo : Bytes → Option (Nat × Bytes)
  | 0x54 :: 0x03 :: a :: b :: c :: rest => some (a.toNat * 2 ^ 16 + b.toNat * 2 ^ 8 + c.toNat, rest)
  | _ => none

/-- The length that a data object has, and its data. -/
def splitDdo (bs : Bytes) : Option (Nat × Bytes) :=
  if byteAt bs 0 ≠ 0x53 then none
  else if byteAt bs 1 ≤ 0x7F then some (byteAt bs 1, bs.drop 2)
  else if byteAt bs 1 = 0x81 then some (byteAt bs 2, bs.drop 3)
  else if byteAt bs 1 = 0x82 then some (be16At bs 2, bs.drop 4)
  else none

def parseDdo (bs : Bytes) : Option Bytes :=
  (splitDdo bs).bind fun p => if p.2.length = p.1 then some p.2 else none

namespace Tag
variable (t : Tag)

def desc : Cc := describes t.cc

/-- The tag supports the extended coding of lengths. -/
def extended : Bool := decide (0x100 < t.desc.maxLe) || decide (0xFF < t.desc.maxLc)

def selectedFile : Option Bytes :=
  match t.selected with
  | .cc => some t.cc
  | .ndef => some t.file
  | .none | .app => .none

def execSelect (a : Apdu) : Tag × Bytes :=
  if a.p1p2 = 0x0400 then
    if a.data = v20Aid then ({ t with selected := .app }, swOk) else (t, swNotFound)
  else if t.selected = .none then (t, swNotFound)
  else if a.data = be16 ccFileId then ({ t with selected := .cc }, swOk)
  else if a.data = be16 t.desc.ndefFc.fileId then ({ t with selected := .ndef }, swOk)
  else (t, swNotFound)

def execRead (a : Apdu) : Bytes :=
  match t.selectedFile with
  | none => swNotFound
  | some f =>
    if a.p1p2 ≤ 0x7FFF ∧ a.p1p2 ≤ f.length then
      slice f a.p1p2 (min (leValue a.ext (a.le.getD 0)) t.desc.maxLe) ++ swOk
    else swWrongParams

def execReadOdo (a : Apdu) : Bytes :=
  match t.selectedFile, parseOdo a.data with
  | some f, some (offset, _) =>
    if t.desc.version < version30 then swNotSupported
    else if offset ≤ f.length then
      let n := min (ddoCapacity (min (leValue a.ext (a.le.getD 0)) t.desc.maxLe)) (f.length - offset)
      [0x53] ++ ddoLength n ++ slice f offset n ++ swOk
    else swWrongParams
  | _, _ => swWrongParams

/-- The data is written to the NDEF file. -/
def write (offset : Nat) (data : Bytes) : Tag × Bytes :=
  if t.selected = .ndef ∧ t.desc.ndefFc.writeAccess ≠ noWriteAccess ∧ offset + data.length ≤ t.file.length then
    ({ t with file := blit t.file offset data }, swOk)
  else (t, swWrongParams)

/-- The length that is coded is that of the data, and not more than one command may have. -/
def lcOk (a : Apdu) : Prop := a.lc = a.data.length ∧ a.lc ≤ t.desc.maxLc

instance (a : Apdu) : Decidable (t.lcOk a) := inferInstanceAs (Decidable (_ ∧ _))

def execUpdate (a : Apdu) : Tag × Bytes :=
  if t.lcOk a ∧ a.p1p2 ≤ 0x7FFF then t.write a.p1p2 a.data else (t, swWrongLength)

def execUpdateOdo (a : Apdu) : Tag × Bytes :=
  if t.desc.version < version30 then (t, swNotSupported)
  else if t.lcOk a then
    match parseOdo a.data with
    | some (offset, rest) =>
      match parseDdo rest with
      | some data => t.write offset data
      | none => (t, swWrongParams)
    | none => (t, swWrongParams)
  else (t, swWrongLength)

/-- The tag carries out a command. -/
def exec (a : Apdu) : Tag × Bytes :=
  if a.ext && !t.extended then (t, swWrongLength)
  else if a.ins = insSelect then t.execSelect a
  else if a.ins = insReadBinary then (t, t.execRead a)
  else if a.ins = insReadBinaryOdo then (t, t.execReadOdo a)
  else if a.ins = insUpdateBinary then t.execUpdate a
  else if a.ins = insUpdateBinaryOdo then t.execUpdateOdo a
  else (t, swNotSupported)

end Tag

/-! ## The reader and the tag -/

/-- A tag and its reader. `pending` is the command on its way to the tag; `frames` and `events` are what has
been sent and reported since the last call of the interface. -/
structure Sys where
  tag : Tag
  cb : Cb
  pending : Option Apdu
  frames : List Apdu
  events : List Event
  deriving DecidableEq, Repr

def Out.frame? : Out → Option Apdu
  | .frame f => some f
  | .event _ => none

def Out.event? : Out → Option Event
  | .event e => some e
  | .frame _ => none

inductive Op where
  | detect
  | update (msg : Bytes)
  | read
  deriving DecidableEq, Repr

/-- The function of the interface. -/
def Op.api : Op → Cb → Status × Cb × List Out
  | .detect => detectNDef
  | .update msg => updateNDef msg
  | .read => readNDef

namespace Sys

def emit (s : Sys) (r : Cb × List Out) : Sys where
  tag := s.tag
  cb := r.1
  pending := r.2.findSome? Out.frame?
  frames := s.frames ++ r.2.filterMap Out.frame?
  events := s.events ++ r.2.filterMap Out.event?

/-- The tag answers, and the reader takes the answer. -/
def step (s : Sys) : Sys :=
  match s.pending with
  | none => s
  | some f => emit { s with tag := (s.tag.exec f).1 } (dataCback s.cb (s.tag.exec f).2)

/-- A function of the interface is called. -/
def call (s : Sys) (op : Op) : Status × Sys :=
  ((op.api s.cb).1, emit { s with pending := none, frames := [], events := [] } (op.api s.cb).2)

/-- The operation ends in `t`. -/
def Ends (s : Sys) (op : Op) (t : Sys) : Prop := ∃ n, step^[n] (s.call op).2 = t ∧ t.pending = none

end Sys

/-- A tag that has been activated. -/
def activated (t : Tag) (dtaMode : Bool) : Sys := ⟨t, select dtaMode, none, [], []⟩

/-! ## How the tag answers -/

@[simp] theorem statusWords_ok (data : Bytes) : statusWords (data ++ swOk) = 0x9000 := by
  unfold statusWords be16At byteAt
  have hlen : (data ++ swOk).length - 2 = data.length := by simp [sw]
  rw [hlen, List.getD_append_right _ _ _ _ (Nat.le_refl _), List.getD_append_right _ _ _ _ (Nat.le_add_right _ 1),
    Nat.sub_self, Nat.add_sub_cancel_left]
  rfl

theorem exec_of_ext {t : Tag} {a : Apdu} (hext : a.ext = true → t.extended = true) :
    (a.ext && !t.extended) = false := by
  cases h : a.ext with
  | false => rfl
  | true => rw [hext h]; rfl

theorem exec_read {t : Tag} {f : Bytes} {off le : Nat} {ext : Bool} (hf : t.selectedFile = some f)
    (hext : ext = true → t.extended = true) (hoff : off ≤ 0x7FFF) (hlen : off ≤ f.length) :
    t.exec ⟨insReadBinary, off, ext, 0, [], some le⟩ =
      (t, slice f off (min (leValue ext le) t.desc.maxLe) ++ swOk) := by
  unfold Tag.exec
  rw [@exec_of_ext t ⟨insReadBinary, off, ext, 0, [], some le⟩ hext]
  rw [if_neg Bool.false_ne_true, if_neg (by decide : insReadBinary ≠ insSelect), if_pos rfl]
  unfold Tag.execRead
  rw [hf]
  dsimp only
  rw [if_pos ⟨hoff, hlen⟩]
  rfl

theorem parseOdo_be24_mod (off : Nat) (rest : Bytes) :
    parseOdo ([0x54, 0x03] ++ be24 off ++ rest) = some (off % 2 ^ 24, rest) := by
  show some ((UInt8.ofNat (off / 2 ^ 16)).toNat * 2 ^ 16 + (UInt8.ofNat (off / 2 ^ 8)).toNat * 2 ^ 8 +
    (UInt8.ofNat off).toNat, rest) = _
  congr 2
  simp only [UInt8.toNat_ofNat']
  omega

theorem parseOdo_be24 {off : Nat} (h : off < 2 ^ 24) (rest : Bytes) :
    parseOdo ([0x54, 0x03] ++ be24 off ++ rest) = some (off, rest) := by
  rw [parseOdo_be24_mod, Nat.mod_eq_of_lt h]

theorem exec_readOdo {t : Tag} {f : Bytes} {off le : Nat} {ext : Bool} (hf : t.selectedFile = some f)
    (hext : ext = true → t.extended = true) (hversion : version30 ≤ t.desc.version) (hoff : off < 2 ^ 24)
    (hlen : off ≤ f.length) {n : Nat}
    (hn : n = min (ddoCapacity (min (leValue ext le) t.desc.maxLe)) (f.length - off)) :
    t.exec ⟨insReadBinaryOdo, 0, ext, 5, [0x54, 0x03] ++ be24 off, some le⟩ =
      (t, [0x53] ++ ddoLength n ++ slice f off n ++ swOk) := by
  have hodo : parseOdo ([0x54, 0x03] ++ be24 off) = some (off, []) := by
    have h := parseOdo_be24 hoff []
    rwa [List.append_nil] at h
  unfold Tag.exec
  rw [@exec_of_ext t ⟨insReadBinaryOdo, 0, ext, 5, [0x54, 0x03] ++ be24 off, some le⟩ hext]
  rw [if_neg Bool.false_ne_true, if_neg (by decide : insReadBinaryOdo ≠ insSelect),
    if_neg (by decide : insReadBinaryOdo ≠ insReadBinary), if_pos rfl]
  unfold Tag.execReadOdo
  rw [hf, hodo]
  dsimp only
  rw [if_neg (Nat.not_lt.mpr hversion), if_pos hlen, hn]
  rfl

/-- The tag is one to which `data` can be written at `off`. -/
structure Writable (t : Tag) (off : Nat) (data : Bytes) : Prop where
  selected : t.selected = .ndef
  access : t.desc.ndefFc.writeAccess ≠ noWriteAccess
  inside : off + data.length ≤ t.file.length

theorem write_ok {t : Tag} {off : Nat} {data : Bytes} (h : Writable t off data) :
    t.write off data = ({ t with file := blit t.file off data }, swOk) := by
  unfold Tag.write
  rw [if_pos ⟨h.selected, h.access, h.inside⟩]

theorem exec_update {t : Tag} {off : Nat} {data : Bytes} (h : Writable t off data)
    (hlc : data.length ≤ t.desc.maxLc) (hoff : off ≤ 0x7FFF) :
    t.exec ⟨insUpdateBinary, off, false, data.length, data, none⟩ =
      ({ t with file := blit t.file off data }, swOk) := by
  have hok : t.lcOk ⟨insUpdateBinary, off, false, data.length, data, none⟩ := ⟨rfl, hlc⟩
  show t.execUpdate ⟨insUpdateBinary, off, false, data.length, data, none⟩ = _
  unfold Tag.execUpdate
  rw [if_pos ⟨hok, hoff⟩, write_ok h]

/-- `n` bytes of data can have a length of `lengthSize` bytes. -/
def BerFits (lengthSize n : Nat) : Prop :=
  lengthSize = 1 ∧ n ≤ 0x7F ∨ lengthSize = 2 ∧ n ≤ 0xFF ∨ lengthSize = 3 ∧ n ≤ 0xFFFF

theorem parseDdo_ber {lengthSize : Nat} {data : Bytes} (h : BerFits lengthSize data.length) :
    ∃ ber, berLength lengthSize data.length = some ber ∧ ber.length = lengthSize ∧
      parseDdo ([0x53] ++ ber ++ data) = some data := by
  have hsplit : ∀ {bs : Bytes}, splitDdo bs = some (data.length, data) → parseDdo bs = some data := by
    intro bs hbs
    unfold parseDdo
    rw [hbs]
    exact if_pos rfl
  rcases h with ⟨rfl, hn⟩ | ⟨rfl, hn⟩ | ⟨rfl, hn⟩
  · refine ⟨[UInt8.ofNat data.length], rfl, rfl, hsplit ?_⟩
    have hbyte : (UInt8.ofNat data.length).toNat = data.length := by
      rw [UInt8.toNat_ofNat']
      omega
    have htag : byteAt ([0x53] ++ [UInt8.ofNat data.length] ++ data) 0 = 0x53 := rfl
    have hlength : byteAt ([0x53] ++ [UInt8.ofNat data.length] ++ data) 1 = data.length := hbyte
    unfold splitDdo
    rw [if_neg (not_not.mpr htag), hlength, if_pos hn]
    rfl
  · refine ⟨[0x81, UInt8.ofNat data.length], rfl, rfl, hsplit ?_⟩
    have hbyte : (UInt8.ofNat data.length).toNat = data.length := by
      rw [UInt8.toNat_ofNat']
      omega
    show some ((UInt8.ofNat data.length).toNat, data) = _
    rw [hbyte]
  · refine ⟨0x82 :: be16 data.length, ?_, rfl, hsplit ?_⟩
    · unfold berLength
      rw [if_neg (by decide), if_neg (by decide), if_pos ⟨rfl, hn⟩]
    · have hbytes : (UInt8.ofNat (data.length / 2 ^ 8)).toNat * 2 ^ 8 + (UInt8.ofNat data.length).toNat =
          data.length := by
        simp only [UInt8.toNat_ofNat']
        omega
      show some ((UInt8.ofNat (data.length / 2 ^ 8)).toNat * 2 ^ 8 + (UInt8.ofNat data.length).toNat, data) = _
      rw [hbytes]

/-- An UPDATE with BER-TLV objects. -/
def odoCmd (ext : Bool) (lc offset : Nat) (ber data : Bytes) : Apdu :=
  ⟨insUpdateBinaryOdo, 0, ext, lc, [0x54, 0x03] ++ be24 offset ++ [0x53] ++ ber ++ data, none⟩

theorem odoCmd_data (ext : Bool) (lc offset : Nat) (ber data : Bytes) :
    (odoCmd ext lc offset ber data).data = [0x54, 0x03] ++ be24 offset ++ ([0x53] ++ ber ++ data) := by
  unfold odoCmd
  simp only [List.append_assoc]

theorem length_odoCmd (ext : Bool) (lc offset : Nat) (ber data : Bytes) :
    (odoCmd ext lc offset ber data).data.length = 6 + ber.length + data.length := by
  rw [odoCmd_data]
  simp only [List.length_append, List.length_cons, List.length_nil, be24, be16]
  omega

theorem exec_updateOdo {t : Tag} {off : Nat} {data ber : Bytes} {ext : Bool} (h : Writable t (off % 2 ^ 24) data)
    (hext : ext = true → t.extended = true) (hversion : version30 ≤ t.desc.version)
    (hber : parseDdo ([0x53] ++ ber ++ data) = some data) (hlc : 6 + ber.length + data.length ≤ t.desc.maxLc) :
    t.exec (odoCmd ext (6 + ber.length + data.length) off ber data) =
      ({ t with file := blit t.file (off % 2 ^ 24) data }, swOk) := by
  obtain ⟨a, ha⟩ : ∃ a, a = odoCmd ext (6 + ber.length + data.length) off ber data := ⟨_, rfl⟩
  have hok : t.lcOk a := by
    rw [ha]
    exact ⟨(length_odoCmd _ _ _ _ _).symm, hlc⟩
  have hodo : parseOdo a.data = some (off % 2 ^ 24, [0x53] ++ ber ++ data) := by
    rw [ha, odoCmd_data, parseOdo_be24_mod]
  have hexec : t.exec a = t.execUpdateOdo a := by
    unfold Tag.exec
    rw [exec_of_ext (by rw [ha]; exact hext), if_neg Bool.false_ne_true, ha]
    rfl
  rw [← ha, hexec]
  unfold Tag.execUpdateOdo
  rw [if_neg (Nat.not_lt.mpr hversion), if_pos hok, hodo]
  dsimp only
  rw [hber]
  exact write_ok h

/-! ## The parts of a message -/

theorem sub32_of_le {a b : Nat} (h : b ≤ a) (ha : a < 2 ^ 32) : sub32 a b = a - b := by
  unfold sub32
  omega

/-- What one command with BER-TLV objects takes of `length` bytes. -/
structure Chunk (ext : Bool) (maxUpdate length lc n lengthSize : Nat) : Prop where
  pos : 0 < n
  le : n ≤ length
  lcEq : lc = 6 + lengthSize + n
  lcMax : lc ≤ maxUpdate
  short : ext = false → lc ≤ 0xFF
  fits : BerFits lengthSize n

theorem BerFits.mono {lengthSize m n : Nat} (h : BerFits lengthSize n) (hm : m ≤ n) : BerFits lengthSize m := by
  unfold BerFits at h ⊢
  omega

theorem chunk_cut {ext : Bool} {maxUpdate length lengthSize : Nat} (hhead : 6 + lengthSize < maxUpdate)
    (hsize : maxUpdate < 2 ^ 32) (hshort : ext = false → maxUpdate ≤ 0xFF) (hpos : 0 < length)
    (hfits : BerFits lengthSize length) {r : Nat × Nat × Nat}
    (hr : r = if length + (6 + lengthSize) ≤ maxUpdate then (length + (6 + lengthSize), length, lengthSize)
      else (maxUpdate, sub32 maxUpdate (6 + lengthSize), lengthSize)) :
    Chunk ext maxUpdate length r.1 r.2.1 r.2.2 := by
  by_cases h : length + (6 + lengthSize) ≤ maxUpdate
  · rw [if_pos h] at hr
    subst hr
    exact ⟨hpos, Nat.le_refl _, Nat.add_comm _ _, h, fun he => Nat.le_trans h (hshort he), hfits⟩
  · rw [if_neg h, sub32_of_le (Nat.le_of_lt hhead) hsize] at hr
    subst hr
    have hle : maxUpdate - (6 + lengthSize) ≤ length := by omega
    exact ⟨Nat.sub_pos_of_lt hhead, hle, (Nat.add_sub_cancel' (Nat.le_of_lt hhead)).symm, Nat.le_refl _, hshort,
      hfits.mono hle⟩

theorem chunk_progress {ext : Bool} {maxUpdate length : Nat} (hmax : 8 ≤ maxUpdate)
    (hsize : maxUpdate ≤ 633) (hshort : ext = false → maxUpdate ≤ 0xFF) (hpos : 0 < length)
    (hle : length ≤ maxUpdate) :
    Chunk ext maxUpdate length (berTlv ext maxUpdate length).1 (berTlv ext maxUpdate length).2.1
      (berTlv ext maxUpdate length).2.2 := by
  have hsize' : maxUpdate < 2 ^ 32 := by omega
  by_cases h1 : length ≤ 0x7F
  · refine @chunk_cut ext maxUpdate length 1 (by omega) hsize' hshort hpos (.inl ⟨rfl, h1⟩) _ ?_
    unfold berTlv
    rw [if_pos h1, if_neg (fun h => h.1 h1)]
  by_cases h2 : length + 8 ≤ 0xFF
  · refine @chunk_cut ext maxUpdate length 2 (by omega) hsize' hshort hpos (.inr (.inl ⟨rfl, by omega⟩)) _ ?_
    unfold berTlv
    rw [if_neg h1, if_pos h2, if_neg (fun h => h.2.1 h2)]
  cases ext with
  | true =>
    by_cases h3 : length ≤ 0xFF
    · refine @chunk_cut true maxUpdate length 2 (by omega) hsize' hshort hpos (.inr (.inl ⟨rfl, h3⟩)) _ ?_
      unfold berTlv
      rw [if_neg h1, if_neg h2, if_pos rfl, if_pos h3, if_neg (fun h => Bool.false_ne_true h.2.2.symm)]
    · refine @chunk_cut true maxUpdate length 3 (by omega) hsize' hshort hpos (.inr (.inr ⟨rfl, by omega⟩)) _ ?_
      unfold berTlv
      rw [if_neg h1, if_neg h2, if_pos rfl, if_neg h3, if_neg (fun h => Bool.false_ne_true h.2.2.symm)]
  | false =>
    -- a command in the short coding has at most 255 bytes of data
    have hm := hshort rfl
    have hn : maxUpdate - 8 ≤ length := by omega
    have hval : berTlv false maxUpdate length = (maxUpdate, maxUpdate - 8, 2) := by
      unfold berTlv
      rw [if_neg h1, if_neg h2, if_neg Bool.false_ne_true, if_pos ⟨h1, h2, rfl⟩]
      by_cases hfull : 0xFF ≤ maxUpdate
      · rw [if_pos hfull, Nat.le_antisymm hm hfull]
      · rw [if_neg hfull, sub32_of_le hmax hsize']
    rw [hval]
    exact ⟨by dsimp only; omega, hn, (Nat.add_sub_cancel' hmax).symm, Nat.le_refl _, fun _ => hm,
      .inr (.inl ⟨rfl, by dsimp only; omega⟩)⟩

end NfcStack.Rw.T4t
