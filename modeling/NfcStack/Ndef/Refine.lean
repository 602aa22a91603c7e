import NfcStack.Lib.Run
import NfcStack.Ndef.Payload

/- Runs of edits of an NDEF message, compared with the same edits of a list of records.

   What is proved:
     1. `addRec_spec`, `removeRec_spec`: adding a record and removing one, in any place.
     2. `edit_outcome`: every call in range makes its edit, or fails for want of room and
        changes nothing; `Clean` keeps out the calls that go wrong.
     3. `edits_refine`: so does every run of such calls, from `NDEF_MsgInit` on.
     4. `append_drops_tail`: `NDEF_MsgAppendPayload` moves the records behind with the
        size from before the length field became longer. -/
namespace NfcStack.Ndef
open NfcStack.Lib

/-! ## The message in the buffer -/

structure Holds (maxSize : Nat) (m : Msg) (rs : List NdefRec) : Prop where
  mem : ∃ junk, m.mem = encode rs ++ junk
  size : m.curSize = (encode rs).length
  le : m.curSize ≤ maxSize
  room : maxSize ≤ m.mem.length
  lt : maxSize < 4294967296

section Holds
variable {maxSize : Nat} {m : Msg} {rs A B : List NdefRec} {r : NdefRec}

theorem encode_append (A : List NdefRec) (r : NdefRec) (B : List NdefRec) :
    encode (A ++ r :: B) = recsBytes (opened true A) ++ (r.frame A.isEmpty B.isEmpty).bytes ++
      recsBytes (closed false B) := by
  rw [encode, closed_append]
  simp [recsBytes]

theorem length_encode (rs : List NdefRec) : (encode rs).length = (rs.map NdefRec.size).sum :=
  recsLen_closed true rs

theorem NdefRec.two_lt_size (r : NdefRec) : 2 < r.size := by
  unfold size
  split_ifs <;> omega

theorem Holds.place (h : Holds maxSize m (A ++ r :: B)) :
    ∃ junk, Place m (recsLen (opened true A)) r A.isEmpty B.isEmpty (recsBytes (opened true A))
      (recsBytes (closed false B)) junk := by
  obtain ⟨⟨junk, hmem⟩, hsize, hle, -, hlt⟩ := h
  rw [encode_append] at hmem hsize
  refine ⟨junk, hmem, rfl, ?_, ?_, by omega⟩
  · rw [hsize]
    simp [r.length_frame]
    omega
  · intro hB
    rw [List.isEmpty_iff.mp hB]
    rfl

theorem Place.holds {p : Nat} {junk : Bytes}
    (h : Place m p r A.isEmpty B.isEmpty (recsBytes (opened true A)) (recsBytes (closed false B)) junk)
    (hle : m.curSize ≤ maxSize) (hroom : maxSize ≤ m.mem.length) (hlt : maxSize < 4294967296) :
    Holds maxSize m (A ++ r :: B) := by
  refine ⟨⟨junk, ?_⟩, ?_, hle, hroom, hlt⟩
  · rw [encode_append, h.mem]
  · rw [encode_append, h.size]
    simp [r.length_frame]
    omega

theorem Holds.walks (h : Holds maxSize m rs) (hne : rs ≠ []) : Walks m.mem (closed true rs) := by
  obtain ⟨⟨junk, hmem⟩, hsize, hle, -, hlt⟩ := h
  refine walks_of_records ⟨[], junk, by simpa [encode] using hmem, rfl, ?_⟩ (endsOnce_closed true hne)
  change (encode rs).length < _
  omega

theorem Holds.getRecByIndex (h : Holds maxSize m (A ++ r :: B)) :
    ndefMsgGetRecByIndex m.mem A.length = some (some (recsLen (opened true A))) := by
  have hlen : (closed true (A ++ r :: B)).length = A.length + (B.length + 1) := by
    simp [length_closed]
  rw [(h.walks (by simp)).recByIndex, if_pos (by rw [hlen]; omega), closed_append]
  simp [length_opened]

/-- A change of the header byte that is one of the place of the record. -/
theorem modify_frame {pre post : Bytes} {mb me mb' me' : Bool} {f : UInt8 → UInt8} {p : Nat}
    (hp : p = pre.length) (hf : f (r.hdr mb me) = r.hdr mb' me') :
    modify (pre ++ (r.frame mb me).bytes ++ post) p f =
      some (pre ++ (r.frame mb' me').bytes ++ post) := by
  have hcut : ∀ mb me, pre ++ (r.frame mb me).bytes ++ post = pre ++ r.hdr mb me ::
      (UInt8.ofNat r.type.length :: (lenBytes r.payload.length ++ idBytes r.id ++ r.type ++ r.id ++
        r.payload) ++ post) := by
    intro mb me
    rw [r.bytes_frame]
    simp
  rw [hcut, modify_block f hp, hf, hcut]

theorem isEmpty_concat (A : List NdefRec) (l : NdefRec) : (A ++ [l]).isEmpty = false := by
  cases A <;> rfl

theorem opened_concat (mb : Bool) (A : List NdefRec) (r : NdefRec) :
    opened mb (A ++ [r]) = opened mb A ++ [r.frame (mb && A.isEmpty) false] := by
  induction A generalizing mb with
  | nil => simp [opened]
  | cons a A ih =>
    rw [List.cons_append, opened, ih]
    simp [opened]

theorem encode_concat (A : List NdefRec) (r : NdefRec) :
    encode (A ++ [r]) = recsBytes (opened true A) ++ (r.frame A.isEmpty true).bytes := by
  rw [encode_append]
  simp [closed, recsBytes]

/-! ## Adding a record -/

def recRoom (typeLen idLen payloadLen : Nat) : Nat :=
  payloadLen + 2 + typeLen + (if payloadLen < 256 then 1 else 4) + (if idLen = 0 then 0 else 1) + idLen

theorem startRec_spec (h : Holds maxSize m rs) {b : UInt8} {junk : Bytes}
    (hmem : m.mem = encode rs ++ b :: junk) (tnf : Fin 7) :
    startRec m (UInt8.ofNat tnf) =
      some (recsBytes (opened true rs) ++ mkHdr tnf rs.isEmpty true false false :: junk) := by
  have hsize := h.size
  unfold startRec
  rcases List.eq_nil_or_concat rs with rfl | ⟨A, l, rfl⟩
  · have hbits : UInt8.ofNat tnf ||| ndefMbMask ||| ndefMeMask = mkHdr tnf true true false false := by
      revert tnf
      decide
    have hzero : m.curSize = 0 := hsize
    rw [if_pos hzero, hmem, store_block hsize, hbits]
    rfl
  · rw [List.concat_eq_append] at *
    have hlast : ndefMsgGetLastRecInMsg m.mem = some (recsLen (opened true A)) := by
      rw [(h.walks (by simp)).lastRec, closed_append]
      simp [closed]
    have hne : m.curSize ≠ 0 := by
      have hpos := l.two_lt_size
      rw [hsize, length_encode]
      simp
      omega
    have hclear : l.hdr A.isEmpty true &&& ~~~ndefMeMask = l.hdr A.isEmpty false :=
      (mkHdr_set_clear _ _ _ _ _).2.2.1
    have hbits : UInt8.ofNat tnf ||| ndefMeMask = mkHdr tnf false true false false := by
      revert tnf
      decide
    have hopen : recsBytes (opened true (A ++ [l])) =
        recsBytes (opened true A) ++ (l.frame A.isEmpty false).bytes := by
      rw [opened_concat]
      simp [recsBytes]
    have hend : m.curSize = (recsBytes (opened true A) ++ (l.frame A.isEmpty false).bytes).length := by
      rw [hsize, encode_concat]
      simp [l.length_frame]
    have hmod : modify (encode (A ++ [l]) ++ b :: junk) (recsLen (opened true A)) (· &&& ~~~ndefMeMask) =
        some (recsBytes (opened true A) ++ (l.frame A.isEmpty false).bytes ++ b :: junk) := by
      rw [encode_concat]
      exact modify_frame rfl hclear
    rw [if_neg hne, hlast, Option.bind_some, hmem, hmod, Option.bind_some, store_block hend, hbits, hopen,
      isEmpty_concat]

theorem exists_blocks {bs : Bytes} {n : Nat} (h : n ≤ bs.length) :
    ∃ x y, bs = x ++ y ∧ x.length = n ∧ y.length = bs.length - n :=
  ⟨bs.take n, bs.drop n, by simp, by simp; omega, by simp⟩

/-- `if (len) { if (p) memcpy(..) }`. -/
theorem copyIf_block {a b c : Bytes} {p : Nat} {src : Src} (hp : p = a.length) (hb : src.len = b.length) :
    ∃ field, src.Gives field ∧
      (if src.len ≠ 0 then copySrc (a ++ b ++ c) p src else some (a ++ b ++ c)) =
        some (a ++ field ++ c) := by
  by_cases h0 : src.len = 0
  · rw [if_neg (not_not.mpr h0), List.length_eq_zero_iff.mp (hb.symm.trans h0)]
    exact ⟨[], Src.gives_nil h0, rfl⟩
  · rw [if_pos h0]
    exact copySrc_block hp hb

/-- The type, the id and the payload, one after the other. -/
theorem copyFields_block {α : Type} {a t i pl c : Bytes} {p : Nat} {type id payload : Src}
    (hp : p = a.length) (ht : type.len = t.length) (hi : id.len = i.length)
    (hpl : payload.len = pl.length) (k : Bytes → α) :
    ∃ ft fi fp, type.Gives ft ∧ id.Gives fi ∧ payload.Gives fp ∧
      ((if type.len ≠ 0 then copySrc (a ++ t ++ (i ++ (pl ++ c))) p type
        else some (a ++ t ++ (i ++ (pl ++ c)))).bind fun mem =>
      (if id.len ≠ 0 then copySrc mem (p + type.len) id else some mem).bind fun mem =>
        (copySrc mem (p + type.len + id.len) payload).map k) =
      some (k (a ++ ft ++ fi ++ fp ++ c)) := by
  obtain ⟨ft, hft, hct⟩ := copyIf_block (c := i ++ (pl ++ c)) hp ht
  have hp₁ : p + type.len = (a ++ ft).length := by
    simp [hp, hft.length_eq]
  obtain ⟨fi, hfi, hci⟩ := copyIf_block (c := pl ++ c) hp₁ hi
  have hp₂ : p + type.len + id.len = (a ++ ft ++ fi).length := by
    simp [hp, hft.length_eq, hfi.length_eq]
    omega
  obtain ⟨fp, hfp, hcp⟩ := copySrc_block (c := c) hp₂ hpl
  refine ⟨ft, fi, fp, hft, hfi, hfp, ?_⟩
  rw [hct, Option.bind_some, ← List.append_assoc, hci, Option.bind_some, ← List.append_assoc, hcp,
    Option.map_some]

/-- The header byte when the SR and IL bits are in. -/
theorem hdr_sr_il {mem : Bytes} {pre J : Bytes} {p : Nat} (hp : p = pre.length) (tnf : Fin 7)
    (mb : Bool) (pl il : Nat) (hmem : mem = pre ++ mkHdr tnf mb true false false :: J) :
    ((if (if pl < 256 then 1 else 4 : Nat) = 1 then modify mem p (· ||| ndefSrMask) else some mem).bind
      fun mem => if (if il = 0 then 0 else 1 : Nat) ≠ 0 then modify mem p (· ||| ndefIlMask)
        else some mem) =
      some (pre ++ mkHdr tnf mb true (decide (pl < 256)) (decide (il ≠ 0)) :: J) := by
  have hsr : mkHdr tnf mb true false false ||| ndefSrMask = mkHdr tnf mb true true false :=
    (mkHdr_set_clear _ _ _ _ _).2.2.2.1
  have hil : ∀ sr, mkHdr tnf mb true sr false ||| ndefIlMask = mkHdr tnf mb true sr true :=
    fun sr => (mkHdr_set_clear _ _ _ sr _).2.2.2.2.2.1
  subst hmem
  by_cases hpl : pl < 256 <;> by_cases h0 : il = 0 <;>
    simp [hpl, h0, modify_block _ hp, hsr, hil]

/-- The bytes that a new record takes, cut at its fields. -/
theorem recRoom_blocks {junk : Bytes} {typeLen idLen payloadLen : Nat}
    (h : recRoom typeLen idLen payloadLen ≤ junk.length) :
    ∃ b bt f g t i pl rest, junk = b :: bt :: (f ++ (g ++ (t ++ (i ++ (pl ++ rest))))) ∧
      f.length = (if payloadLen < 256 then 1 else 4) ∧ g.length = (if idLen = 0 then 0 else 1) ∧
      t.length = typeLen ∧ i.length = idLen ∧ pl.length = payloadLen := by
  unfold recRoom at h
  obtain ⟨b, J, rfl⟩ := List.exists_cons_of_length_pos (show 0 < junk.length by omega)
  simp only [List.length_cons] at h
  obtain ⟨bt, J₁, rfl⟩ := List.exists_cons_of_length_pos (show 0 < J.length by omega)
  simp only [List.length_cons] at h
  obtain ⟨f, J₂, rfl, hf, hJ₂⟩ :=
    exists_blocks (show (if payloadLen < 256 then 1 else 4) ≤ J₁.length by omega)
  obtain ⟨g, J₃, rfl, hg, hJ₃⟩ := exists_blocks (show (if idLen = 0 then 0 else 1) ≤ J₂.length by omega)
  obtain ⟨t, J₄, rfl, ht, hJ₄⟩ := exists_blocks (show typeLen ≤ J₃.length by omega)
  obtain ⟨i, J₅, rfl, hi, hJ₅⟩ := exists_blocks (show idLen ≤ J₄.length by omega)
  obtain ⟨pl, rest, rfl, hpl, -⟩ := exists_blocks (show payloadLen ≤ J₅.length by omega)
  exact ⟨b, bt, f, g, t, i, pl, rest, rfl, hf, hg, ht, hi, hpl⟩

section Lengths
variable {pre tail : Bytes} {hdr bt : UInt8} {p : Nat}

theorem storeTypeLen_block (hp : p = pre.length) (v : UInt8) :
    store (pre ++ hdr :: bt :: tail) (p + 1) v = some (pre ++ hdr :: v :: tail) := by
  have hassoc : ∀ b, pre ++ hdr :: b :: tail = (pre ++ [hdr]) ++ b :: tail := by simp
  rw [hassoc, hassoc]
  exact store_block (by simp [hp])

theorem storePayloadLen_block (hp : p = pre.length) {f : Bytes} {n : Nat}
    (hf : f.length = if n < 256 then 1 else 4) :
    (if (if n < 256 then 1 else 4 : Nat) = 1 then
        store (pre ++ hdr :: bt :: (f ++ tail)) (p + 2) (UInt8.ofNat n)
      else memcpy (pre ++ hdr :: bt :: (f ++ tail)) (p + 2) (uint32ToBeStream (UInt32.ofNat n))) =
      some (pre ++ hdr :: bt :: (lenBytes n ++ tail)) := by
  rw [← storeLen_block n hp hf, storeLen]
  by_cases hs : n < 256
  · rw [if_pos hs, if_pos rfl, if_neg (by omega)]
  · rw [if_neg hs, if_neg (by decide), if_pos (by omega)]

theorem storeIdLen_block (hp : p = pre.length) {w g : Bytes} {q n : Nat} (hq : q = p + 2 + w.length)
    (hg : g.length = if n = 0 then 0 else 1) :
    (if (if n = 0 then 0 else 1 : Nat) > 0 then
        store (pre ++ hdr :: bt :: (w ++ (g ++ tail))) q (UInt8.ofNat n)
      else some (pre ++ hdr :: bt :: (w ++ (g ++ tail)))) =
      some (pre ++ hdr :: bt :: (w ++ ((if n = 0 then [] else [UInt8.ofNat n]) ++ tail))) := by
  by_cases h0 : n = 0
  · rw [if_pos h0] at hg
    rw [if_pos h0, if_neg (by decide), if_pos h0, List.length_eq_zero_iff.mp hg]
  · rw [if_neg h0] at hg
    rw [if_neg h0, if_pos (by decide), if_neg h0]
    obtain ⟨c, rfl⟩ := List.length_eq_one_iff.mp hg
    have hassoc : ∀ c, pre ++ hdr :: bt :: (w ++ ([c] ++ tail)) = (pre ++ [hdr, bt] ++ w) ++ c :: tail := by
      simp
    rw [hassoc, hassoc]
    exact store_block (by simp [hp, hq]; omega)

end Lengths

/-- The record of these fields, written out. -/
theorem newRec_bytes (r : NdefRec) (mb : Bool) {type id payload : Src} (ht : type.Gives r.type)
    (hi : id.Gives r.id) (hp : payload.Gives r.payload) :
    (r.frame mb true).bytes = mkHdr r.tnf mb true (decide (payload.len < 256)) (decide (id.len ≠ 0)) ::
        UInt8.ofNat type.len :: (lenBytes payload.len ++
          ((if id.len = 0 then [] else [UInt8.ofNat id.len]) ++ (r.type ++ (r.id ++ r.payload)))) ∧
      r.size = recRoom type.len id.len payload.len := by
  have hnil : r.id = [] ↔ id.len = 0 := by
    rw [← hi.length_eq, List.length_eq_zero_iff]
  constructor
  · rw [r.bytes_frame]
    simp [NdefRec.hdr, idBytes, hp.length_eq, hnil, ht.length_eq, hi.length_eq]
  · simp only [NdefRec.size, recRoom, hnil, ht.length_eq, hi.length_eq, hp.length_eq]
    omega

theorem addRec_spec (h : Holds maxSize m rs) (tnf : Fin 7) (type id payload : Src)
    (ht : type.len < 256) (hi : id.len < 256)
    (hin : m.curSize + recRoom type.len id.len payload.len < 4294967296) :
    (maxSize < m.curSize + recRoom type.len id.len payload.len →
      ndefMsgAddRec m maxSize (UInt8.ofNat tnf) type id payload = some (.msgInsufficientMem, m)) ∧
    (m.curSize + recRoom type.len id.len payload.len ≤ maxSize →
      ∃ m' r, ndefMsgAddRec m maxSize (UInt8.ofNat tnf) type id payload = some (.ok, m') ∧
        Holds maxSize m' (rs ++ [r]) ∧ m'.mem.length = m.mem.length ∧
        (r.tnf = tnf ∧ type.Gives r.type ∧ id.Gives r.id ∧ payload.Gives r.payload)) := by
  have htnf : ¬ UInt8.ofNat tnf > ndefTnfReserved := by
    revert tnf
    decide
  have hsize := h.size
  have hroom := h.room
  have hlt := h.lt
  obtain ⟨junk, hmem⟩ := h.mem
  have hlen : m.mem.length = m.curSize + junk.length := by
    rw [hmem, hsize]
    simp
  unfold ndefMsgAddRec
  simp only [if_neg htnf]
  have hrec : recRoom type.len id.len payload.len = payload.len + 2 + type.len +
      (if payload.len < 256 then 1 else 4) + (if id.len = 0 then 0 else 1) + id.len := rfl
  have hrecSize : u32 ((payload.len : Int) + 2 + type.len + (if payload.len < 256 then 1 else 4 : Nat) +
      (if id.len = 0 then 0 else 1 : Nat) + id.len) = recRoom type.len id.len payload.len :=
    u32_eq (by rw [hrec]; push_cast; rfl) (by omega)
  have hsum : u32 ((m.curSize : Int) + (recRoom type.len id.len payload.len : Nat)) =
      m.curSize + recRoom type.len id.len payload.len := u32_eq (by simp) hin
  rw [hrecSize, hsum]
  refine ⟨fun hbig => by rw [if_pos hbig], fun hfit => ?_⟩
  rw [if_neg (by omega)]
  obtain ⟨b, bt, f, g, t, i, pl, rest, rfl, hf, hg, htl, hil, hpl⟩ :=
    recRoom_blocks (show recRoom type.len id.len payload.len ≤ junk.length by omega)
  set pre := recsBytes (opened true rs) with hpre
  have hp : m.curSize = pre.length := by
    rw [hsize, length_encode]
    exact (recsLen_opened true rs).symm
  rw [startRec_spec h hmem tnf, Option.bind_some, ← Option.bind_assoc,
    hdr_sr_il hp tnf rs.isEmpty payload.len id.len rfl, Option.bind_some]
  -- the lengths
  rw [storeTypeLen_block hp, Option.bind_some, storePayloadLen_block hp hf, Option.bind_some,
    storeIdLen_block hp (by rw [length_lenBytes]) hg, Option.bind_some]
  set hdr := mkHdr tnf rs.isEmpty true (decide (payload.len < 256)) (decide (id.len ≠ 0)) with hhdr
  set g' := if id.len = 0 then [] else [UInt8.ofNat id.len] with hg'
  -- the three fields
  have hfl : m.curSize + 2 + (if payload.len < 256 then 1 else 4) + (if id.len = 0 then 0 else 1) =
      (pre ++ [hdr, UInt8.ofNat type.len] ++ lenBytes payload.len ++ g').length := by
    have hgl : g'.length = if id.len = 0 then 0 else 1 := by
      rw [hg']
      split <;> rfl
    simp [hp, hgl, length_lenBytes]
    omega
  have hassoc : pre ++ hdr :: UInt8.ofNat type.len ::
      (lenBytes payload.len ++ (g' ++ (t ++ (i ++ (pl ++ rest))))) =
      (pre ++ [hdr, UInt8.ofNat type.len] ++ lenBytes payload.len ++ g') ++ t ++ (i ++ (pl ++ rest)) := by
    simp
  obtain ⟨ft, fi, fp, hft, hfi, hfp, hcopy⟩ := copyFields_block (c := rest) hfl htl.symm hil.symm hpl.symm
    fun mem => (NdefStatus.ok, (⟨mem, m.curSize + recRoom type.len id.len payload.len⟩ : Msg))
  rw [hassoc, hcopy]
  let r : NdefRec := ⟨tnf, ft, fi, fp, by rw [hft.length_eq]; exact ht, by rw [hfi.length_eq]; exact hi,
    by rw [hfp.length_eq]; omega⟩
  obtain ⟨hbytes, hsz⟩ := newRec_bytes r rs.isEmpty hft hfi hfp
  have hmem' : pre ++ [hdr, UInt8.ofNat type.len] ++ lenBytes payload.len ++ g' ++ ft ++ fi ++ fp ++ rest =
      pre ++ (r.frame rs.isEmpty true).bytes ++ rest := by
    rw [hbytes]
    simp [hhdr, hg', r]
  have hlen' : (pre ++ (r.frame rs.isEmpty true).bytes ++ rest).length = m.mem.length := by
    rw [List.length_append, List.length_append, r.length_frame, hsz, hlen, hrec, ← hp]
    simp only [List.length_append, List.length_cons, hf, hg, htl, hil, hpl]
    omega
  rw [hmem']
  refine ⟨_, r, rfl, ⟨⟨rest, ?_⟩, ?_, hfit, ?_, hlt⟩, hlen', rfl, hft, hfi, hfp⟩
  · rw [encode_concat]
  · rw [encode_concat, List.length_append, r.length_frame, hsz, hp]
  · rw [hlen']
    exact hroom

/-! ## Removing a record -/

theorem Holds.curSize_eq (h : Holds maxSize m (A ++ r :: B)) :
    m.curSize = recsLen (opened true A) + r.size + recsLen (closed false B) := by
  rw [h.size, encode_append, recsLen, recsLen]
  simp [r.length_frame]
  omega

theorem recsLen_concat (as : List Rec) (r : Rec) : recsLen (as ++ [r]) = recsLen as + r.bytes.length := by
  rw [recsLen_append, recsLen_cons]
  rfl

theorem NdefRec.has_mb_hdr {mb me : Bool} : has (r.hdr mb me) ndefMbMask ↔ mb = true :=
  has_mb _ _ _ _ _

theorem NdefRec.has_me_hdr {mb me : Bool} : has (r.hdr mb me) ndefMeMask ↔ me = true :=
  has_me _ _ _ _ _

/-- The rest of the message moves over the bytes `d`. -/
theorem Holds.shiftup (h : Holds maxSize m rs) {mem : Bytes} (pre d rest junk : Bytes)
    {rs' : List NdefRec} {dest src len cur : Nat} (hlen : mem.length = m.mem.length) (hmem : mem = pre ++ d ++ rest ++ junk)
    (hrs : encode rs' = pre ++ rest) (hold : m.curSize = (pre ++ d ++ rest).length)
    (hd : dest = pre.length) (hs : src = pre.length + d.length) (hl : len = rest.length)
    (hcur : cur = (pre ++ rest).length) :
    ∃ mem', Ndef.shiftup mem dest src len = some mem' ∧ Holds maxSize ⟨mem', cur⟩ rs' ∧
      mem'.length = m.mem.length := by
  obtain ⟨junk', hshift, hj⟩ := closesGap (c := junk) hd hs hl
  have hlen' : (pre ++ rest ++ junk').length = m.mem.length := by
    rw [← hlen, hmem]
    simp [hj]
    omega
  refine ⟨_, by rw [hmem, hshift], ⟨⟨junk', by rw [hrs]⟩, by rw [hrs, hcur], ?_, ?_, h.lt⟩, hlen'⟩
  · have := h.le
    rw [hold] at this
    simp only [List.length_append] at this hcur
    dsimp only
    omega
  · rw [hlen']
    exact h.room

theorem removeRec_first (h : Holds maxSize m (r :: B)) :
    ∃ m', ndefMsgRemoveRec m 0 = some (.ok, m') ∧ Holds maxSize m' B ∧
      m'.mem.length = m.mem.length := by
  have hget : ndefMsgGetRecByIndex m.mem 0 = some (some 0) := Holds.getRecByIndex (A := []) h
  have hlt := h.lt
  have hle := h.le
  obtain ⟨junk, hplace⟩ := Holds.place (A := []) h
  have hhdr : m.mem[0]? = some (r.hdr true B.isEmpty) := hplace.get.1
  unfold ndefMsgRemoveRec
  rw [hget, Option.bind_some]
  dsimp only
  rw [hhdr, Option.bind_some, if_pos (NdefRec.has_mb_hdr.mpr rfl)]
  cases B with
  | nil =>
    have hnone : ndefMsgGetRecByIndex m.mem 1 = some none := by
      rw [(h.walks (by simp)).recByIndex]
      simp [closed]
    rw [hnone]
    exact ⟨_, rfl, ⟨⟨m.mem, rfl⟩, rfl, Nat.zero_le _, h.room, hlt⟩, rfl⟩
  | cons b B =>
    have hnext : ndefMsgGetRecByIndex m.mem 1 = some (some r.size) := by
      have := Holds.getRecByIndex (A := [r]) h
      simpa [opened, recsLen, recsBytes, r.length_frame] using this
    set d := (r.frame true false).bytes with hd
    have hdl : d.length = r.size := r.length_frame true false
    have hsz := hplace.size
    obtain ⟨mb', hmem⟩ : ∃ mb', m.mem = d ++ (b.frame mb' B.isEmpty).bytes ++
        (recsBytes (closed false B) ++ junk) := by
      refine ⟨false, ?_⟩
      rw [hplace.mem]
      simp [opened, recsBytes, closed, hd]
    have hset : b.hdr mb' B.isEmpty ||| ndefMbMask = b.hdr true B.isEmpty :=
      (mkHdr_set_clear _ _ _ _ _).1
    have hrest : (encode (b :: B)).length = b.size + recsLen (closed false B) := by
      rw [encode, ← recsLen, closed, recsLen_cons, b.length_frame]
    have hcur : m.curSize = d.length + (encode (b :: B)).length := by
      rw [hsz, hrest, hdl]
      simp [opened, closed, recsBytes, b.length_frame, recsLen]
    have hlen : (d ++ (b.frame true B.isEmpty).bytes ++ (recsBytes (closed false B) ++ junk)).length =
        m.mem.length := by
      rw [hmem]
      simp [b.length_frame]
    have hu : u32 ((m.curSize : Int) - r.size) = (encode (b :: B)).length :=
      u32_eq (by omega) (by omega)
    obtain ⟨mem', hshift, hholds, hlen'⟩ : ∃ mem', Ndef.shiftup (d ++ (b.frame true B.isEmpty).bytes ++
        (recsBytes (closed false B) ++ junk)) 0 r.size (encode (b :: B)).length = some mem' ∧
        Holds maxSize ⟨mem', (encode (b :: B)).length⟩ (b :: B) ∧ mem'.length = m.mem.length := by
      refine h.shiftup [] d (encode (b :: B)) junk hlen ?_ rfl (by simp [hcur]) rfl (by simp [hdl]) rfl rfl
      simp [encode, closed, recsBytes]
    rw [hnext, Option.bind_some]
    dsimp only
    rw [hmem, modify_frame hdl.symm hset, Option.bind_some, hu, hshift]
    exact ⟨_, rfl, hholds, hmem ▸ hlen'⟩

theorem removeRec_last (h : Holds maxSize m (A ++ [r])) (hA : A ≠ []) :
    ∃ m', ndefMsgRemoveRec m A.length = some (.ok, m') ∧ Holds maxSize m' A ∧
      m'.mem.length = m.mem.length := by
  have hlt := h.lt
  have hle := h.le
  obtain ⟨A', l, rfl⟩ : ∃ A' l, A = A' ++ [l] :=
    ⟨A.dropLast, A.getLast hA, (List.dropLast_append_getLast hA).symm⟩
  obtain ⟨junk, hplace⟩ : ∃ junk, Place m (recsLen (opened true (A' ++ [l]))) r false true
      (recsBytes (opened true (A' ++ [l]))) [] junk := by
    have := h.place
    rwa [isEmpty_concat] at this
  have hmb : ¬ has (r.hdr false true) ndefMbMask := by
    simp [NdefRec.has_mb_hdr]
  have hcur := h.curSize_eq
  have hpos : ((A' ++ [l]).length : Int) > 0 := by
    simp only [List.length_append, List.length_singleton]
    omega
  have hidx : ((A' ++ [l]).length : Int) - 1 = (A'.length : Nat) := by simp
  have hprev : ndefMsgGetRecByIndex m.mem A'.length = some (some (recsLen (opened true A'))) := by
    have h' : Holds maxSize m (A' ++ l :: [r]) := by simpa using h
    exact h'.getRecByIndex
  have hset : l.hdr A'.isEmpty false ||| ndefMeMask = l.hdr A'.isEmpty true :=
    (mkHdr_set_clear _ _ _ _ _).2.1
  have hmem : m.mem = recsBytes (opened true A') ++ (l.frame A'.isEmpty false).bytes ++
      ((r.frame false true).bytes ++ junk) := by
    rw [hplace.mem, opened_concat]
    simp [recsBytes]
  have hmod : modify m.mem (recsLen (opened true A')) (· ||| ndefMeMask) =
      some (recsBytes (opened true A') ++ (l.frame A'.isEmpty true).bytes ++
        ((r.frame false true).bytes ++ junk)) := by
    rw [hmem]
    exact modify_frame rfl hset
  have hu : u32 (recsLen (opened true (A' ++ [l])) : Nat) = (encode (A' ++ [l])).length := by
    rw [length_encode, ← recsLen_opened true]
    exact u32_eq rfl (by omega)
  unfold ndefMsgRemoveRec
  rw [h.getRecByIndex, Option.bind_some]
  dsimp only
  rw [hplace.get.1, Option.bind_some, if_neg hmb, if_pos (NdefRec.has_me_hdr.mpr rfl), if_pos hpos, hidx,
    hprev, Option.bind_some]
  dsimp only
  rw [hmod, Option.map_some, Option.map_some]
  dsimp only
  rw [hu]
  refine ⟨_, rfl, ⟨⟨(r.frame false true).bytes ++ junk, by rw [encode_concat]⟩, rfl, ?_, ?_, hlt⟩, ?_⟩
  · rw [length_encode, ← recsLen_opened true]
    dsimp only
    omega
  · have := h.room
    rw [hmem] at this
    simpa [l.length_frame] using this
  · rw [hmem]
    simp [l.length_frame]

theorem removeRec_middle (h : Holds maxSize m (A ++ r :: B)) (hA : A ≠ []) (hB : B ≠ []) :
    ∃ m', ndefMsgRemoveRec m A.length = some (.ok, m') ∧ Holds maxSize m' (A ++ B) ∧
      m'.mem.length = m.mem.length := by
  have hlt := h.lt
  have hle := h.le
  obtain ⟨junk, hplace⟩ := h.place
  have hcur := h.curSize_eq
  have hmb : ¬ has (r.hdr A.isEmpty B.isEmpty) ndefMbMask := by
    simp [NdefRec.has_mb_hdr, hA]
  have hme : ¬ has (r.hdr A.isEmpty B.isEmpty) ndefMeMask := by
    simp [NdefRec.has_me_hdr, hB]
  have hnext : ndefMsgGetNextRec m.mem (recsLen (opened true A)) =
      some (some (recsLen (opened true A) + r.size)) := by
    have hne : closed false B ≠ [] := by
      cases B with
      | nil => exact absurd rfl hB
      | cons b B => exact List.cons_ne_nil _ _
    rw [(h.walks (by simp)).nextRec _ _ _ (closed_append true A r B), if_neg hne, recsLen_concat,
      r.length_frame]
  have hrs : encode (A ++ B) = recsBytes (opened true A) ++ recsBytes (closed false B) := by
    cases B with
    | nil => exact absurd rfl hB
    | cons b B =>
      have hno : A.isEmpty = false := by simp [hA]
      rw [encode_append, hno]
      simp [closed, recsBytes]
  have hu : u32 ((m.curSize : Int) - (recsLen (opened true A) + r.size : Nat)) =
      (recsBytes (closed false B)).length := by
    refine u32_eq ?_ ?_ <;> rw [← recsLen] <;> omega
  have hu' : u32 ((m.curSize : Int) - ((recsLen (opened true A) + r.size : Nat) - (recsLen (opened true A) : Int))) =
      (recsBytes (opened true A) ++ recsBytes (closed false B)).length := by
    refine u32_eq ?_ ?_ <;> rw [List.length_append, ← recsLen, ← recsLen] <;> omega
  obtain ⟨mem', hshift, hholds, hlen⟩ : ∃ mem', Ndef.shiftup m.mem (recsLen (opened true A))
      (recsLen (opened true A) + r.size) (recsBytes (closed false B)).length = some mem' ∧
      Holds maxSize ⟨mem', (recsBytes (opened true A) ++ recsBytes (closed false B)).length⟩ (A ++ B) ∧
        mem'.length = m.mem.length := by
    refine h.shiftup _ _ _ junk rfl hplace.mem hrs ?_ rfl ?_ rfl rfl
    · rw [hplace.size]
      simp [r.length_frame]
      omega
    · rw [r.length_frame]
      rfl
  unfold ndefMsgRemoveRec
  rw [h.getRecByIndex, Option.bind_some]
  dsimp only
  rw [hplace.get.1, Option.bind_some, if_neg hmb, if_neg hme, hnext, Option.bind_some]
  dsimp only
  rw [hu, hshift, hu']
  exact ⟨_, rfl, hholds, hlen⟩

theorem removeRec_spec (h : Holds maxSize m (A ++ r :: B)) :
    ∃ m', ndefMsgRemoveRec m A.length = some (.ok, m') ∧ Holds maxSize m' (A ++ B) ∧
      m'.mem.length = m.mem.length := by
  by_cases hA : A = []
  · subst hA
    exact removeRec_first h
  · by_cases hB : B = []
    · subst hB
      simpa using removeRec_last h hA
    · exact removeRec_middle h hA hB

end Holds

/-! ## Runs of edits -/

/-- A call of one of the editing functions. A record is given by its index, from which
the caller gets the pointer. -/
inductive EditOp where
  | addRec (tnf : Fin 7) (type id payload : Src)
  | appendPayload (index : Nat) (addPl : Bytes)
  | replacePayload (index : Nat) (newPl : Src)
  | replaceType (index : Nat) (newType : Src)
  | replaceId (index : Nat) (newId : Src)
  | removeRec (index : Nat)

/-- The pointer to the record `index`; there is none in an empty message. -/
def recAt (m : Msg) (index : Nat) : Option Nat :=
  if m.curSize = 0 then none else (ndefMsgGetRecByIndex m.mem index).join

def edit (maxSize : Nat) (m : Msg) : EditOp → Option (NdefStatus × Msg)
  | .addRec tnf type id payload => ndefMsgAddRec m maxSize (UInt8.ofNat tnf) type id payload
  | .appendPayload index addPl => (recAt m index).bind fun p => ndefMsgAppendPayload m maxSize p addPl
  | .replacePayload index newPl => (recAt m index).bind fun p => ndefMsgReplacePayload m maxSize p newPl
  | .replaceType index newType => (recAt m index).bind fun p => ndefMsgReplaceType m maxSize p newType
  | .replaceId index newId => (recAt m index).bind fun p => ndefMsgReplaceId m maxSize p newId
  | .removeRec index => ndefMsgRemoveRec m index

def editStep (maxSize : Nat) (m : Msg) (op : EditOp) : Option Msg := (edit maxSize m op).map (·.2)

/-- What the length of the payload and the payload take in a record. -/
def payloadRoom (n : Nat) : Nat := n + if n < 256 then 1 else 4

def Target (m : Msg) (index : Nat) (P : RecHdr → Prop) : Prop :=
  match (recAt m index).bind (readRecHdr m.mem) with
  | some h => P h
  | none => False

instance (m : Msg) (index : Nat) (P : RecHdr → Prop) [DecidablePred P] : Decidable (Target m index P) :=
  match h : (recAt m index).bind (readRecHdr m.mem) with
  | some h' => decidable_of_iff (P h') (by rw [Target, h])
  | none => .isFalse (by rw [Target, h]; exact id)

/-- The arguments are in range: a record that exists, lengths that fit their types, and a
new size that fits a `uint32_t`. -/
def InRange (m : Msg) : EditOp → Prop
  | .addRec _ type id payload => type.len < 256 ∧ id.len < 256 ∧
      m.curSize + recRoom type.len id.len payload.len < 4294967296
  | .appendPayload index addPl => Target m index fun h =>
      m.curSize - payloadRoom h.payloadLen.toNat + payloadRoom (h.payloadLen.toNat + addPl.length) <
        4294967296
  | .replacePayload index newPl => Target m index fun h =>
      m.curSize - payloadRoom h.payloadLen.toNat + payloadRoom newPl.len < 4294967296
  | .replaceType index newType => Target m index fun h =>
      newType.len < 256 ∧ m.curSize - h.typeLen.toNat + newType.len < 4294967296
  | .replaceId index newId => Target m index fun h =>
      newId.len < 256 ∧ m.curSize - idRoom h.idLen.toNat + idRoom newId.len < 4294967296
  | .removeRec index => Target m index fun _ => True

/-- The edits that the code gets right: no payload of a record before the last one is
appended to across 255 bytes, if there is room, and a field that loses its long form leaves
the byte that is moved too much in the buffer. -/
def Clean (maxSize : Nat) (m : Msg) : EditOp → Prop
  | .appendPayload index addPl => Target m index fun h =>
      m.curSize + appendGrowth h.payloadLen.toNat addPl.length ≤ maxSize →
        h.payloadLen.toNat < 256 → 255 < h.payloadLen.toNat + addPl.length → has h.hdr ndefMeMask
  | .replacePayload index newPl => Target m index fun h =>
      255 < h.payloadLen.toNat → newPl.len < 256 → m.curSize < m.mem.length
  | .replaceId index newId => Target m index fun h =>
      h.idLen.toNat = 1 → newId.len = 0 → m.curSize < m.mem.length
  | _ => True

instance (m : Msg) : ∀ op, Decidable (InRange m op)
  | .addRec .. => inferInstanceAs (Decidable (_ ∧ _ ∧ _))
  | .appendPayload .. => inferInstanceAs (Decidable (Target _ _ _))
  | .replacePayload .. => inferInstanceAs (Decidable (Target _ _ _))
  | .replaceType .. => inferInstanceAs (Decidable (Target _ _ _))
  | .replaceId .. => inferInstanceAs (Decidable (Target _ _ _))
  | .removeRec .. => inferInstanceAs (Decidable (Target _ _ _))

instance (maxSize : Nat) (m : Msg) : ∀ op, Decidable (Clean maxSize m op)
  | .addRec .. => .isTrue trivial
  | .appendPayload .. => inferInstanceAs (Decidable (Target _ _ _))
  | .replacePayload .. => inferInstanceAs (Decidable (Target _ _ _))
  | .replaceType .. => .isTrue trivial
  | .replaceId .. => inferInstanceAs (Decidable (Target _ _ _))
  | .removeRec .. => .isTrue trivial

def EditOp.Edits : EditOp → List NdefRec → List NdefRec → Prop
  | .addRec tnf type id payload, rs, rs' => ∃ r : NdefRec, r.tnf = tnf ∧ type.Gives r.type ∧
      id.Gives r.id ∧ payload.Gives r.payload ∧ rs' = rs ++ [r]
  | .appendPayload index addPl, rs, rs' => ∃ A r B, ∃ r' : NdefRec, rs = A ++ r :: B ∧ A.length = index ∧
      (r'.tnf = r.tnf ∧ r'.type = r.type ∧ r'.id = r.id ∧ r'.payload = r.payload ++ addPl) ∧
      rs' = A ++ r' :: B
  | .replacePayload index newPl, rs, rs' => ∃ A r B, ∃ r' : NdefRec, rs = A ++ r :: B ∧ A.length = index ∧
      (r'.tnf = r.tnf ∧ r'.type = r.type ∧ r'.id = r.id ∧ newPl.Gives r'.payload) ∧ rs' = A ++ r' :: B
  | .replaceType index newType, rs, rs' => ∃ A r B, ∃ r' : NdefRec, rs = A ++ r :: B ∧ A.length = index ∧
      (r'.tnf = r.tnf ∧ newType.Gives r'.type ∧ r'.id = r.id ∧ r'.payload = r.payload) ∧
      rs' = A ++ r' :: B
  | .replaceId index newId, rs, rs' => ∃ A r B, ∃ r' : NdefRec, rs = A ++ r :: B ∧ A.length = index ∧
      (r'.tnf = r.tnf ∧ r'.type = r.type ∧ newId.Gives r'.id ∧ r'.payload = r.payload) ∧
      rs' = A ++ r' :: B
  | .removeRec index, rs, rs' => ∃ A r B, rs = A ++ r :: B ∧ A.length = index ∧ rs' = A ++ B

/-- One step of the record list: an edit whose result does not fit is not made. -/
def specStep (maxSize : Nat) (rs : List NdefRec) (op : EditOp) (rs' : List NdefRec) : Prop :=
  ∃ new, op.Edits rs new ∧ rs' = if (encode new).length ≤ maxSize then new else rs

/-- What a call comes to: it makes the edit, or it fails for want of room and changes
nothing. -/
def Outcome (maxSize : Nat) (m : Msg) (rs : List NdefRec) (op : EditOp)
    (res : Option (NdefStatus × Msg)) : Prop :=
  ∃ new, op.Edits rs new ∧
    (((encode new).length ≤ maxSize ∧ ∃ m', res = some (.ok, m') ∧ Holds maxSize m' new) ∨
      (maxSize < (encode new).length ∧ res = some (.msgInsufficientMem, m)))

section Runs
variable {maxSize : Nat} {m : Msg} {rs A B : List NdefRec} {r : NdefRec}

theorem Holds.recAt (h : Holds maxSize m (A ++ r :: B)) :
    Ndef.recAt m A.length = some (recsLen (opened true A)) := by
  have hne : m.curSize ≠ 0 := by
    have := r.two_lt_size
    have := h.curSize_eq
    omega
  rw [Ndef.recAt, if_neg hne, h.getRecByIndex]
  rfl

variable {index : Nat}

theorem Holds.target (h : Holds maxSize m rs) {P : RecHdr → Prop} (ht : Target m index P) :
    ∃ A r B, rs = A ++ r :: B ∧ A.length = index ∧
      P ⟨r.hdr A.isEmpty B.isEmpty, UInt8.ofNat r.type.length, UInt32.ofNat r.payload.length,
        UInt8.ofNat r.id.length, recsLen (opened true A) + (r.frame A.isEmpty B.isEmpty).head.length⟩ := by
  by_cases hi : index < rs.length
  · have hrs : rs = rs.take index ++ rs[index] :: rs.drop (index + 1) := by simp
    have hlen : (rs.take index).length = index := by
      simp
      omega
    refine ⟨_, _, _, hrs, hlen, ?_⟩
    rw [hrs] at h
    obtain ⟨junk, hplace⟩ := h.place
    have hat := h.recAt
    rw [hlen] at hat
    rw [Target, hat, Option.bind_some, hplace.readRecHdr] at ht
    exact ht
  · have hnone : Ndef.recAt m index = none := by
      by_cases hnil : rs = []
      · subst hnil
        exact if_pos h.size
      · have hout : ¬ (0 ≤ (index : Int) ∧ (index : Int) < rs.length) := by omega
        rw [Ndef.recAt, (h.walks hnil).recByIndex, length_closed, if_neg hout]
        simp
    rw [Target, hnone] at ht
    exact ht.elim

def Src.pick : Src → Bytes
  | .bytes bs => bs
  | .reserve n => List.replicate n 0

theorem Src.gives_pick (src : Src) : src.Gives src.pick := by
  cases src with
  | bytes bs => rfl
  | reserve n => exact List.length_replicate

theorem length_encode_swap (A : List NdefRec) (r r' : NdefRec) (B : List NdefRec) :
    (encode (A ++ r' :: B)).length + r.size = (encode (A ++ r :: B)).length + r'.size := by
  simp [length_encode]
  omega

/-- An edit of one record of the message. -/
theorem EditsTo.outcome {op : EditOp} {newSize p : Nat} {Good : NdefRec → Prop}
    {res : Option (NdefStatus × Msg)} (h : Holds maxSize m (A ++ r :: B))
    (hed : EditsTo m maxSize newSize p A.isEmpty B.isEmpty (recsBytes (opened true A))
      (recsBytes (closed false B)) Good res)
    (hop : ∀ r', Good r' → op.Edits (A ++ r :: B) (A ++ r' :: B)) (r₀ : NdefRec) (hr₀ : Good r₀)
    (hsize : newSize + r.size = m.curSize + r₀.size) : Outcome maxSize m (A ++ r :: B) op res := by
  by_cases hfit : newSize ≤ maxSize
  · obtain ⟨m', r', junk', hres, hplace, hlen, hcur, hgood⟩ := hed.2 hfit
    have hholds : Holds maxSize m' (A ++ r' :: B) :=
      hplace.holds (hcur ▸ hfit) (hlen ▸ h.room) h.lt
    exact ⟨_, hop r' hgood, .inl ⟨hholds.size ▸ hholds.le, m', hres, hholds⟩⟩
  · refine ⟨_, hop r₀ hr₀, .inr ⟨?_, hed.1 (by omega)⟩⟩
    have := length_encode_swap A r r₀ B
    have := h.size
    omega

/-- The size of a record, part by part. -/
theorem NdefRec.size_rooms (r : NdefRec) :
    r.size = 2 + payloadRoom r.payload.length + r.type.length + idRoom r.id.length := by
  simp only [size, payloadRoom, idRoom, List.length_eq_zero_iff]
  omega

theorem Target.and {P Q : RecHdr → Prop} (hP : Target m index P) (hQ : Target m index Q) :
    Target m index fun h => P h ∧ Q h := by
  unfold Target at *
  cases hr : (recAt m index).bind (readRecHdr m.mem) with
  | none =>
    rw [hr] at hP
    exact hP
  | some h =>
    rw [hr] at hP hQ
    exact ⟨hP, hQ⟩

theorem outcome_appendPayload (h : Holds maxSize m rs) {addPl : Bytes}
    (hin : InRange m (.appendPayload index addPl)) (hclean : Clean maxSize m (.appendPayload index addPl)) :
    Outcome maxSize m rs (.appendPayload index addPl) (edit maxSize m (.appendPayload index addPl)) := by
  obtain ⟨A, r, B, rfl, rfl, hin, hclean⟩ := h.target (hin.and hclean)
  obtain ⟨junk, hplace⟩ := h.place
  simp only [NdefRec.toNat_payloadLen, NdefRec.has_me_hdr] at hin hclean
  have hsize := r.size_rooms
  have hcur := h.curSize_eq
  have hroom : payloadRoom (r.payload.length + addPl.length) =
      payloadRoom r.payload.length + appendGrowth r.payload.length addPl.length := by
    simp only [payloadRoom, appendGrowth]
    split_ifs <;> omega
  have hlt : r.payload.length + addPl.length < 4294967296 := by
    unfold payloadRoom at hin hsize
    omega
  rw [edit, h.recAt, Option.bind_some]
  refine (appendPayload_edits hplace h.room addPl (by omega) fun hfit h₁ h₂ => hclean hfit h₁ h₂).outcome h
    (fun r' hr' => ⟨A, r, B, r', rfl, rfl, hr', rfl⟩)
    { r with payload := r.payload ++ addPl, payload_lt := by simpa using hlt } ⟨rfl, rfl, rfl, rfl⟩ ?_
  rw [NdefRec.size_rooms, NdefRec.size_rooms]
  simp only [List.length_append]
  omega

theorem outcome_replacePayload (h : Holds maxSize m rs) {newPl : Src}
    (hin : InRange m (.replacePayload index newPl)) (hclean : Clean maxSize m (.replacePayload index newPl)) :
    Outcome maxSize m rs (.replacePayload index newPl) (edit maxSize m (.replacePayload index newPl)) := by
  obtain ⟨A, r, B, rfl, rfl, hin, hclean⟩ := h.target (hin.and hclean)
  obtain ⟨junk, hplace⟩ := h.place
  simp only [NdefRec.toNat_payloadLen] at hin hclean
  have hsize := r.size_rooms
  have hcur := h.curSize_eq
  have hnew : sizeWith (recsBytes (opened true A)) (recsBytes (closed false B)) r newPl.len + r.size =
      m.curSize + (2 + payloadRoom newPl.len + r.type.length + idRoom r.id.length) := by
    rw [hcur]
    simp only [sizeWith, NdefRec.payloadAt, NdefRec.mid, payloadRoom, idRoom, recsLen, List.length_append,
      length_idBytes, List.length_eq_zero_iff]
    omega
  have hlt : newPl.len < 4294967296 := by
    unfold payloadRoom at hin hsize
    omega
  rw [edit, h.recAt, Option.bind_some]
  refine (replacePayload_edits hplace h.room h.le newPl (by omega) hclean).outcome h
    (fun r' hr' => ⟨A, r, B, r', rfl, rfl, hr', rfl⟩)
    { r with payload := newPl.pick, payload_lt := by rw [newPl.gives_pick.length_eq]; exact hlt }
    ⟨rfl, rfl, rfl, newPl.gives_pick⟩ ?_
  rw [hnew, NdefRec.size_rooms { r with payload := newPl.pick, payload_lt := _ }]
  dsimp only
  rw [newPl.gives_pick.length_eq]

theorem outcome_replaceType (h : Holds maxSize m rs) {newType : Src}
    (hin : InRange m (.replaceType index newType)) :
    Outcome maxSize m rs (.replaceType index newType) (edit maxSize m (.replaceType index newType)) := by
  obtain ⟨A, r, B, rfl, rfl, hlt, hin⟩ := h.target hin
  obtain ⟨junk, hplace⟩ := h.place
  simp only [NdefRec.toNat_typeLen] at hin
  have hsize := r.size_rooms
  have hcur := h.curSize_eq
  rw [edit, h.recAt, Option.bind_some]
  refine (replaceType_edits hplace h.room h.le newType hlt hin).outcome h
    (fun r' hr' => ⟨A, r, B, r', rfl, rfl, hr', rfl⟩)
    { r with type := newType.pick, type_lt := by rw [newType.gives_pick.length_eq]; exact hlt }
    ⟨rfl, newType.gives_pick, rfl, rfl⟩ ?_
  rw [NdefRec.size_rooms, NdefRec.size_rooms]
  dsimp only
  rw [newType.gives_pick.length_eq]
  omega

theorem outcome_replaceId (h : Holds maxSize m rs) {newId : Src}
    (hin : InRange m (.replaceId index newId)) (hclean : Clean maxSize m (.replaceId index newId)) :
    Outcome maxSize m rs (.replaceId index newId) (edit maxSize m (.replaceId index newId)) := by
  obtain ⟨A, r, B, rfl, rfl, ⟨hlt, hin⟩, hclean⟩ := h.target (hin.and hclean)
  obtain ⟨junk, hplace⟩ := h.place
  simp only [NdefRec.toNat_idLen] at hin hclean
  have hsize := r.size_rooms
  have hcur := h.curSize_eq
  rw [edit, h.recAt, Option.bind_some]
  refine (replaceId_edits hplace h.room h.le newId hlt hin hclean).outcome h
    (fun r' hr' => ⟨A, r, B, r', rfl, rfl, hr', rfl⟩)
    { r with id := newId.pick, id_lt := by rw [newId.gives_pick.length_eq]; exact hlt }
    ⟨rfl, rfl, newId.gives_pick, rfl⟩ ?_
  rw [NdefRec.size_rooms, NdefRec.size_rooms]
  dsimp only
  rw [newId.gives_pick.length_eq]
  omega

theorem outcome_addRec (h : Holds maxSize m rs) {tnf : Fin 7} {type id payload : Src}
    (hin : InRange m (.addRec tnf type id payload)) :
    Outcome maxSize m rs (.addRec tnf type id payload) (edit maxSize m (.addRec tnf type id payload)) := by
  obtain ⟨ht, hi, hin⟩ := hin
  obtain ⟨herr, hok⟩ := addRec_spec h tnf type id payload ht hi hin
  by_cases hfit : m.curSize + recRoom type.len id.len payload.len ≤ maxSize
  · obtain ⟨m', r, hres, hholds, -, htnf, hty, hid, hpl⟩ := hok hfit
    exact ⟨_, ⟨r, htnf, hty, hid, hpl, rfl⟩, .inl ⟨hholds.size ▸ hholds.le, m', hres, hholds⟩⟩
  · let r : NdefRec := ⟨tnf, type.pick, id.pick, payload.pick,
      by rw [type.gives_pick.length_eq]; exact ht, by rw [id.gives_pick.length_eq]; exact hi,
      by rw [payload.gives_pick.length_eq]; unfold recRoom at hin; omega⟩
    refine ⟨_, ⟨r, rfl, type.gives_pick, id.gives_pick, payload.gives_pick, rfl⟩,
      .inr ⟨?_, herr (by omega)⟩⟩
    have hr : r.size = recRoom type.len id.len payload.len := by
      rw [r.size_rooms]
      simp only [r, type.gives_pick.length_eq, id.gives_pick.length_eq, payload.gives_pick.length_eq,
        payloadRoom, idRoom, recRoom]
      omega
    have hsum : (encode (rs ++ [r])).length = m.curSize + r.size := by
      rw [h.size, length_encode, length_encode]
      simp
    omega

theorem outcome_removeRec (h : Holds maxSize m rs) (hin : InRange m (.removeRec index)) :
    Outcome maxSize m rs (.removeRec index) (edit maxSize m (.removeRec index)) := by
  obtain ⟨A, r, B, rfl, rfl, -⟩ := h.target hin
  obtain ⟨m', hres, hholds, -⟩ := removeRec_spec h
  exact ⟨_, ⟨A, r, B, rfl, rfl, rfl⟩, .inl ⟨hholds.size ▸ hholds.le, m', hres, hholds⟩⟩

theorem edit_outcome (h : Holds maxSize m rs) {op : EditOp} (hin : InRange m op) (hclean : Clean maxSize m op) :
    Outcome maxSize m rs op (edit maxSize m op) := by
  cases op with
  | addRec tnf type id payload => exact outcome_addRec h hin
  | appendPayload index addPl => exact outcome_appendPayload h hin hclean
  | replacePayload index newPl => exact outcome_replacePayload h hin hclean
  | replaceType index newType => exact outcome_replaceType h hin
  | replaceId index newId => exact outcome_replaceId h hin hclean
  | removeRec index => exact outcome_removeRec h hin

theorem ndefMsgInit_holds {mem : Bytes} (hmax : maxSize < 4294967296)
    (hinit : ndefMsgInit mem maxSize = some m) : Holds maxSize m [] := by
  unfold ndefMsgInit memcpy at hinit
  split at hinit
  · rename_i hle
    obtain rfl := Option.some.inj hinit
    refine ⟨⟨_, rfl⟩, rfl, Nat.zero_le _, ?_, hmax⟩
    simp only [blit, List.length_replicate] at hle ⊢
    simp
  · cases hinit

/-- Every run of edits from an empty message does to the buffer what it does to the list
of records, and a call that fails changes nothing. -/
theorem edits_refine {mem : Bytes} {m₀ : Msg} (hmax : maxSize < 4294967296)
    (hinit : ndefMsgInit mem maxSize = some m₀) (ops : List EditOp)
    (hok : StepsOk (editStep maxSize) (fun m op => InRange m op ∧ Clean maxSize m op) m₀ ops) :
    ∃ m rs, run (editStep maxSize) m₀ ops = some m ∧ Path (specStep maxSize) [] ops rs ∧
      m.mem.take m.curSize = encode rs ∧
      ∀ op, InRange m op → Clean maxSize m op →
        ∃ status m', edit maxSize m op = some (status, m') ∧ (status ≠ .ok → m' = m) := by
  obtain ⟨m, rs, hrun, hpath, hholds⟩ := @run_path Msg EditOp (List NdefRec) (editStep maxSize)
    (fun m op => InRange m op ∧ Clean maxSize m op) (specStep maxSize) (Holds maxSize) (fun m rs op h hop => by
      obtain ⟨new, hedits, ⟨hfit, m', hres, hholds⟩ | ⟨hbig, hres⟩⟩ := edit_outcome h hop.1 hop.2
      · exact ⟨m', new, by rw [editStep, hres]; rfl, ⟨new, hedits, by rw [if_pos hfit]⟩, hholds⟩
      · exact ⟨m, rs, by rw [editStep, hres]; rfl, ⟨new, hedits, by rw [if_neg (by omega)]⟩, h⟩)
    ops m₀ [] (ndefMsgInit_holds hmax hinit) hok
  refine ⟨m, rs, hrun, hpath, ?_, ?_⟩
  · obtain ⟨junk, hmem⟩ := hholds.mem
    rw [hmem, hholds.size, List.take_left]
  · intro op hin hclean
    obtain ⟨new, -, ⟨-, m', hres, -⟩ | ⟨-, hres⟩⟩ := edit_outcome hholds hin hclean
    · exact ⟨.ok, m', hres, fun h => absurd rfl h⟩
    · exact ⟨_, m, hres, fun _ => rfl⟩

end Runs

/-- Three records, ids that come and go, a payload that grows and one that shrinks, and one
record less. -/
theorem edits_refine_run :
    let ops : List EditOp := [.addRec 1 (.bytes [84]) (.reserve 0) (.bytes [1, 2]),
      .addRec 2 (.bytes [3]) (.bytes [9]) (.reserve 4), .addRec 5 (.reserve 0) (.reserve 0) (.bytes [7]),
      .appendPayload 1 [5, 5, 5], .replaceId 0 (.bytes [1, 2, 3]), .replaceId 1 (.reserve 0),
      .replaceType 2 (.bytes [8, 8]), .replacePayload 0 (.bytes [6]), .removeRec 1,
      .addRec 0 (.reserve 0) (.reserve 0) (.reserve 60)]
    ∃ m rs, run (editStep 64) ⟨List.replicate 64 0, 0⟩ ops = some m ∧ Path (specStep 64) [] ops rs ∧
      m.mem.take m.curSize = encode rs := by
  intro ops
  obtain ⟨m, rs, hrun, hpath, htake, -⟩ := @edits_refine 64 (List.replicate 64 1) ⟨List.replicate 64 0, 0⟩
    (by decide) (by decide +kernel) ops (by decide +kernel)
  exact ⟨m, rs, hrun, hpath, htake⟩

theorem append_drops_tail :
    ∃ (mem : Bytes) (maxSize : Nat) (m₀ : Msg) (ops : List EditOp), maxSize < 4294967296 ∧
      ndefMsgInit mem maxSize = some m₀ ∧ StepsOk (editStep maxSize) InRange m₀ ops ∧
      ¬ ∃ m rs, run (editStep maxSize) m₀ ops = some m ∧ Path (specStep maxSize) [] ops rs ∧
        m.mem.take m.curSize = encode rs := by
  refine ⟨List.replicate 300 0, 300, ⟨List.replicate 300 0, 0⟩,
    [.addRec 1 (.bytes []) (.bytes []) (.bytes []), .addRec 1 (.bytes []) (.bytes []) (.bytes []),
      .appendPayload 0 (List.replicate 256 0)], by decide, by decide +kernel, by decide +kernel, ?_⟩
  rintro ⟨m, rs, hrun, ⟨rs₁, ⟨new₁, ⟨r₁, ht₁, hty₁, hid₁, hpl₁, rfl⟩, rfl⟩,
    rs₂, ⟨new₂, ⟨r₂, ht₂, hty₂, hid₂, hpl₂, rfl⟩, rfl⟩,
    rs₃, ⟨new₃, ⟨A, r, B, r', heq, hA, ⟨ht, hty, hid, hpl⟩, rfl⟩, rfl⟩, rfl⟩, htake⟩
  obtain rfl : r₁ = ⟨1, [], [], [], by decide, by decide, by decide⟩ := NdefRec.ext ht₁ hty₁ hid₁ hpl₁
  obtain rfl : r₂ = ⟨1, [], [], [], by decide, by decide, by decide⟩ := NdefRec.ext ht₂ hty₂ hid₂ hpl₂
  rw [if_pos (by decide), if_pos (by decide)] at heq
  obtain rfl := List.length_eq_zero_iff.mp hA
  obtain ⟨rfl, rfl⟩ := List.cons.inj heq
  obtain rfl : r' = ⟨1, [], [], List.replicate 256 0, by decide, by decide, by decide +kernel⟩ :=
    NdefRec.ext ht hty hid hpl
  rw [if_pos (by decide +kernel)] at htake
  have hlost : (run (editStep 300) ⟨List.replicate 300 0, 0⟩
      [.addRec 1 (.bytes []) (.bytes []) (.bytes []), .addRec 1 (.bytes []) (.bytes []) (.bytes []),
        .appendPayload 0 (List.replicate 256 0)]).map (fun m => m.mem.take m.curSize) ≠
      some (encode [⟨1, [], [], List.replicate 256 0, by decide, by decide, by decide +kernel⟩,
        ⟨1, [], [], [], by decide, by decide, by decide⟩]) := by
    decide +kernel
  exact hlost (by rw [hrun, Option.map_some, htake]; rfl)

end NfcStack.Ndef
