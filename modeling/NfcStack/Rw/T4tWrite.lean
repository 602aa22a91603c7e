import NfcStack.Rw.T4tTag

/- The message of a Type 4 tag is written: the length is set to 0, the message goes in parts,
   and the length is set.

   What is proved:
     1. `updateFile_spec`: a part is a command that the tag carries out, with data of the
        message, and not more than is left.
     2. `update_completes`: after finitely many commands the message is in the file. -/
namespace NfcStack.Rw.T4t
open NfcStack.Lib

/-! ## A tag that has been detected -/

/-- What the container of a tag may say: it is of version 2.0 or 3.0 and has been validated. -/
structure Valid (d : Cc) : Prop where
  version : d.version = version20 ∨ d.version = version30
  nlen : d.ndefFc.nlenSize = 2 ∨ d.ndefFc.nlenSize = 4
  maxLe : 0x0F ≤ d.maxLe
  leSize : d.maxLe < 2 ^ 16
  maxLc : 1 ≤ d.maxLc
  size : d.ndefFc.nlenSize < d.ndefFc.maxFileSize
  sizeMax : d.ndefFc.maxFileSize < 2 ^ 32
  short : d.ndefFc.nlenSize = 2 → d.ndefFc.maxFileSize < 2 ^ 16
  plain : d.version = version20 → d.ndefFc.maxFileSize ≤ 0x7FFF

def Cc.extended (d : Cc) : Bool := decide (0x100 < d.maxLe) || decide (0xFF < d.maxLc)

/-- What a detection sets in the control block, and no later read or update changes. -/
structure Fixed where
  version : Nat
  ccFile : Cc
  ndefDetected : Bool
  ndefReadOnly : Bool
  maxReadSize : Nat
  maxUpdateSize : Nat
  extFieldCoding : Bool
  dtaMode : Bool

def Cb.fixed (cb : Cb) : Fixed :=
  ⟨cb.version, cb.ccFile, cb.ndefDetected, cb.ndefReadOnly, cb.maxReadSize, cb.maxUpdateSize, cb.extFieldCoding,
    cb.dtaMode⟩

def Cc.fixed (d : Cc) (dtaMode : Bool) : Fixed :=
  ⟨version30, d, true, decide (d.ndefFc.writeAccess = noWriteAccess), min d.maxLe 647, min d.maxLc 633, d.extended,
    dtaMode⟩

structure TagOk (d : Cc) (t : Tag) : Prop where
  desc : t.desc = d
  selected : t.selected = .ndef
  size : t.file.length = d.ndefFc.maxFileSize

variable {d : Cc}

theorem TagOk.blit {t : Tag} (h : TagOk d t) {off : Nat} {data : Bytes}
    (hin : off + data.length ≤ d.ndefFc.maxFileSize) : TagOk d { t with file := blit t.file off data } := by
  refine ⟨h.desc, h.selected, ?_⟩
  dsimp only
  rw [length_blit (by rw [h.size]; exact hin), h.size]

/-- A command of at most 255 bytes of data is enough for the file of `d` from `off` on, or the tag takes
offsets in data objects. -/
structure PartOk (d : Cc) (last : Nat) : Prop where
  version : 0x7FFF < last → version30 ≤ d.version
  maxLc : 0x7FFF < last → 8 ≤ d.maxLc
  offset : 0x7FFF < last → last ≤ 2 ^ 24

/-- The data that a command writes, if its length is coded as it is. -/
def Apdu.payload (a : Apdu) : Option Bytes :=
  if a.lc = a.data.length then
    if a.ins = insUpdateBinary then some a.data
    else (parseOdo a.data).bind fun p => parseDdo p.2
  else none

theorem writable_part {t : Tag} {off : Nat} {data : Bytes} (h : TagOk d t)
    (haccess : d.ndefFc.writeAccess ≠ noWriteAccess) (hin : off + data.length ≤ d.ndefFc.maxFileSize) :
    Writable t off data :=
  ⟨h.selected, by rw [h.desc]; exact haccess, by rw [h.size]; exact hin⟩

/-! ## One part -/

variable {dta : Bool} {cb : Cb}

theorem updateFile_plain {rest : Bytes} (hd : Valid d) (hcb : cb.fixed = d.fixed dta)
    (hlen : cb.rwLength = rest.length) (hpos : 0 < rest.length) (hplain : cb.rwOffset + rest.length ≤ 0x7FFF) :
    ∃ apdu n, 0 < n ∧ n ≤ rest.length ∧
      updateFile cb rest = (true, advance { cb with retryCmd := some apdu } rest n, [.frame apdu]) ∧
      apdu.payload = some (rest.take n) ∧
      ∀ t, TagOk d t → d.ndefFc.writeAccess ≠ noWriteAccess →
        cb.rwOffset + rest.length ≤ d.ndefFc.maxFileSize →
        t.exec apdu = ({ t with file := blit t.file cb.rwOffset (rest.take n) }, swOk) := by
  have hmax : cb.maxUpdateSize = min d.maxLc 633 := congrArg Fixed.maxUpdateSize hcb
  have hlc := hd.maxLc
  obtain ⟨n, hn⟩ : ∃ n, n = (if (if cb.rwLength > cb.maxUpdateSize then cb.maxUpdateSize else cb.rwLength) > 0xFF
      then 0xFF else (if cb.rwLength > cb.maxUpdateSize then cb.maxUpdateSize else cb.rwLength)) := ⟨_, rfl⟩
  have hbounds : 0 < n ∧ n ≤ rest.length ∧ n ≤ d.maxLc ∧ n ≤ 0xFF := by
    rw [hn, hmax, hlen]
    split <;> split <;> omega
  obtain ⟨hn0, hnlen, hnlc, hn255⟩ := hbounds
  have htake : (rest.take n).length = n := by
    rw [List.length_take]
    omega
  refine ⟨⟨insUpdateBinary, cb.rwOffset, false, (rest.take n).length, rest.take n, none⟩, n, hn0, hnlen, ?_, ?_, ?_⟩
  · unfold updateFile
    rw [if_neg (by omega), if_neg (by rw [hlen]; omega)]
    dsimp only
    rw [← hn, Nat.mod_eq_of_lt (show cb.rwOffset < 2 ^ 16 by omega), Nat.mod_eq_of_lt (show n < 2 ^ 8 by omega), htake]
    rfl
  · unfold Apdu.payload
    rw [if_pos rfl, if_pos rfl]
  · intro t ht haccess hin
    refine exec_update (writable_part ht haccess ?_) ?_ (by omega)
    · rw [htake]
      omega
    · rw [htake, ht.desc]
      exact hnlc

theorem updateFile_odoCmd {rest ber : Bytes} {length lc n lengthSize : Nat} (hpos : cb.rwLength ≠ 0)
    (hodo : (cb.rwOffset + cb.rwLength) % 2 ^ 32 > 0x7FFF) (hversion : cb.ccFile.version ≥ version30)
    (hlength : length = if cb.rwLength > cb.maxUpdateSize then cb.maxUpdateSize else cb.rwLength)
    (hr : berTlv cb.extFieldCoding cb.maxUpdateSize length = (lc, n, lengthSize))
    (hber : berLength lengthSize n = some ber) {apdu : Apdu}
    (hapdu : apdu = odoCmd cb.extFieldCoding (lc % (if cb.extFieldCoding then 2 ^ 16 else 2 ^ 8)) cb.rwOffset ber
      (rest.take n)) :
    updateFile cb rest = (true, advance { cb with retryCmd := some apdu } rest n, [.frame apdu]) := by
  unfold updateFile
  rw [if_neg hpos]
  dsimp only
  rw [← hlength, if_pos hodo, if_pos hversion]
  unfold setBerTlv
  rw [hr]
  dsimp only
  rw [hber, hapdu]
  rfl

/-- How much of the message goes into one part beyond it. -/
def odoLength (d : Cc) (left : Nat) : Nat :=
  (berTlv d.extended (min d.maxLc 633) (min left (min d.maxLc 633))).2.1

theorem updateFile_chunk {rest : Bytes} (hcb : cb.fixed = d.fixed dta)
    (hlen : cb.rwLength = rest.length) (hpos : 0 < rest.length) (hsize : cb.rwOffset + rest.length < 2 ^ 32)
    (hodo : 0x7FFF < cb.rwOffset + rest.length) (hversion : version30 ≤ d.version) (hlc : 8 ≤ d.maxLc) :
    ∃ apdu n, n = odoLength d rest.length ∧ 0 < n ∧ n ≤ rest.length ∧
      updateFile cb rest = (true, advance { cb with retryCmd := some apdu } rest n, [.frame apdu]) ∧
      apdu.payload = some (rest.take n) ∧
      ∀ t, TagOk d t → d.ndefFc.writeAccess ≠ noWriteAccess →
        cb.rwOffset % 2 ^ 24 + n ≤ d.ndefFc.maxFileSize →
        t.exec apdu = ({ t with file := blit t.file (cb.rwOffset % 2 ^ 24) (rest.take n) }, swOk) := by
  have hmax : cb.maxUpdateSize = min d.maxLc 633 := congrArg Fixed.maxUpdateSize hcb
  have hcc : cb.ccFile = d := congrArg Fixed.ccFile hcb
  have hext : cb.extFieldCoding = d.extended := congrArg Fixed.extFieldCoding hcb
  obtain ⟨length, hlength⟩ : ∃ length, length = if cb.rwLength > cb.maxUpdateSize then cb.maxUpdateSize else cb.rwLength :=
    ⟨_, rfl⟩
  have hlength' : 0 < length ∧ length ≤ cb.maxUpdateSize ∧ length = min rest.length (min d.maxLc 633) := by
    rw [hlength, hmax, hlen]
    split <;> omega
  have hshort : cb.extFieldCoding = false → cb.maxUpdateSize ≤ 0xFF := by
    intro h
    rw [hext] at h
    unfold Cc.extended at h
    simp only [Bool.or_eq_false_iff, decide_eq_false_iff_not] at h
    omega
  have hchunk := chunk_progress (by omega) (by omega) hshort hlength'.1 hlength'.2.1
  obtain ⟨r, hr⟩ : ∃ r, berTlv cb.extFieldCoding cb.maxUpdateSize length = r := ⟨_, rfl⟩
  rw [hr] at hchunk
  obtain ⟨lc, n, lengthSize⟩ := r
  dsimp only at hchunk
  have hnlen : n = odoLength d rest.length := by
    unfold odoLength
    rw [← hlength'.2.2, ← hmax, ← hext, hr]
  have hn : n ≤ rest.length := Nat.le_trans hchunk.le (by omega)
  have htake : (rest.take n).length = n := by
    rw [List.length_take]
    omega
  obtain ⟨ber, hber, hberlen, hparse⟩ := @parseDdo_ber lengthSize (rest.take n) (by rw [htake]; exact hchunk.fits)
  rw [htake] at hber
  have hlcmod : lc % (if cb.extFieldCoding then 2 ^ 16 else 2 ^ 8) = 6 + ber.length + (rest.take n).length := by
    have hlcmax := hchunk.lcMax
    rw [hberlen, htake, ← hchunk.lcEq]
    cases he : cb.extFieldCoding with
    | true =>
      rw [if_pos rfl]
      exact Nat.mod_eq_of_lt (by omega)
    | false =>
      have := hchunk.short he
      rw [if_neg Bool.false_ne_true]
      exact Nat.mod_eq_of_lt (by omega)
  obtain ⟨apdu, hapdu⟩ : ∃ apdu, apdu = odoCmd cb.extFieldCoding (6 + ber.length + (rest.take n).length) cb.rwOffset ber
      (rest.take n) := ⟨_, rfl⟩
  refine ⟨apdu, n, hnlen, hchunk.pos, hn, ?_, ?_, ?_⟩
  · exact updateFile_odoCmd (by omega) (by rw [hlen, Nat.mod_eq_of_lt hsize]; exact hodo)
      (by rw [hcc]; exact hversion) hlength hr hber (by rw [hlcmod]; exact hapdu)
  · unfold Apdu.payload
    have hcoded : apdu.lc = apdu.data.length := by
      rw [hapdu, length_odoCmd]
      rfl
    have hins : apdu.ins ≠ insUpdateBinary := by
      rw [hapdu]
      exact (by decide : insUpdateBinaryOdo ≠ insUpdateBinary)
    rw [if_pos hcoded, if_neg hins, hapdu, odoCmd_data, parseOdo_be24_mod]
    exact hparse
  · intro t ht haccess hin
    rw [hapdu]
    refine exec_updateOdo (writable_part ht haccess (by rw [htake]; exact hin)) ?_ ?_ hparse ?_
    · intro he
      show t.extended = true
      unfold Tag.extended
      rw [ht.desc]
      exact hext.symm.trans he
    · rw [ht.desc]
      exact hversion
    · have hlcmax := hchunk.lcMax
      rw [hberlen, htake, ← hchunk.lcEq, ht.desc]
      omega

theorem updateFile_odo {rest : Bytes} (hcb : cb.fixed = d.fixed dta)
    (hlen : cb.rwLength = rest.length) (hpos : 0 < rest.length) (hsize : cb.rwOffset + rest.length < 2 ^ 32)
    (hodo : 0x7FFF < cb.rwOffset + rest.length) (hok : PartOk d (cb.rwOffset + rest.length)) :
    ∃ apdu n, 0 < n ∧ n ≤ rest.length ∧
      updateFile cb rest = (true, advance { cb with retryCmd := some apdu } rest n, [.frame apdu]) ∧
      apdu.payload = some (rest.take n) ∧
      ∀ t, TagOk d t → d.ndefFc.writeAccess ≠ noWriteAccess →
        cb.rwOffset + rest.length ≤ d.ndefFc.maxFileSize →
        t.exec apdu = ({ t with file := blit t.file cb.rwOffset (rest.take n) }, swOk) := by
  have hoff := hok.offset hodo
  obtain ⟨apdu, n, -, hn0, hn, hsend, hpay, hexec⟩ := updateFile_chunk hcb hlen hpos hsize hodo (hok.version hodo)
    (hok.maxLc hodo)
  rw [Nat.mod_eq_of_lt (show cb.rwOffset < 2 ^ 24 by omega)] at hexec
  exact ⟨apdu, n, hn0, hn, hsend, hpay, fun t ht haccess hin => hexec t ht haccess (by omega)⟩

theorem updateFile_spec {d : Cc} {dta : Bool} {cb : Cb} {rest : Bytes} (hd : Valid d) (hcb : cb.fixed = d.fixed dta)
    (hlen : cb.rwLength = rest.length) (hpos : 0 < rest.length)
    (hin : cb.rwOffset + rest.length ≤ d.ndefFc.maxFileSize) (hok : PartOk d (cb.rwOffset + rest.length)) :
    ∃ apdu n, 0 < n ∧ n ≤ rest.length ∧
      updateFile cb rest = (true, advance { cb with retryCmd := some apdu } rest n, [.frame apdu]) ∧
      apdu.payload = some (rest.take n) ∧
      ∀ t, TagOk d t → d.ndefFc.writeAccess ≠ noWriteAccess →
        t.exec apdu = ({ t with file := blit t.file cb.rwOffset (rest.take n) }, swOk) := by
  have hsize := hd.sizeMax
  rcases Nat.lt_or_ge 0x7FFF (cb.rwOffset + rest.length) with hodo | hplain
  · obtain ⟨apdu, n, h0, hn, hsend, hpay, hexec⟩ := updateFile_odo hcb hlen hpos (by omega) hodo hok
    exact ⟨apdu, n, h0, hn, hsend, hpay, fun t ht ha => hexec t ht ha hin⟩
  · obtain ⟨apdu, n, h0, hn, hsend, hpay, hexec⟩ := updateFile_plain hd hcb hlen hpos hplain
    exact ⟨apdu, n, h0, hn, hsend, hpay, fun t ht ha => hexec t ht ha hin⟩

/-! ## The whole message -/

/-- What the reader does when a part has been written. -/
def continueUpdate (cb : Cb) : Cb × List Out :=
  if cb.rwLength > 0 then sendPart cb (cb.updateData.getD [])
  else
    let (cb, outs) := updateNlen { cb with updateData := none } cb.ndefLength
    ({ cb with subState := .waitUpdateNlen }, outs)

theorem dataCback_updateResp (hstate : cb.state = .updateNdef) (hsub : cb.subState = .waitUpdateResp) :
    dataCback cb swOk = continueUpdate cb := by
  unfold dataCback
  rw [if_neg (fun h => absurd h.2 (by decide)), hstate]
  dsimp only
  unfold smUpdateNdef
  rw [if_neg (by decide), hsub]
  rfl

theorem dataCback_updateNlen (hstate : cb.state = .updateNdef) (hsub : cb.subState = .waitUpdateNlen) :
    dataCback cb swOk = match cb.updateData with
      | some msg => sendPart { cb with subState := .waitUpdateResp } msg
      | none => ({ cb with state := .idle }, [.event .updateCplt]) := by
  cases cb
  dsimp only at hstate hsub
  subst hstate hsub
  unfold dataCback
  rw [if_neg (fun h => absurd h.2 (by decide))]
  dsimp only
  unfold smUpdateNdef
  refine (if_neg (by decide)).trans ?_
  rfl

theorem step_pending {s : Sys} {f : Apdu} (h : s.pending = some f) :
    s.step = Sys.emit { s with tag := (s.tag.exec f).1 } (dataCback s.cb (s.tag.exec f).2) := by
  unfold Sys.step
  rw [h]

structure Writing (d : Cc) (dta : Bool) (f₀ msg : Bytes) (k : Nat) (s : Sys) : Prop where
  tag : TagOk d s.tag
  fixed : s.cb.fixed = d.fixed dta
  state : s.cb.state = .updateNdef
  sub : s.cb.subState = .waitUpdateResp
  offset : s.cb.rwOffset = d.ndefFc.nlenSize + k
  length : s.cb.rwLength = msg.length - k
  rest : s.cb.updateData = some (msg.drop k)
  ndefLength : s.cb.ndefLength = msg.length
  file : s.tag.file = blit f₀ d.ndefFc.nlenSize (msg.take k)

structure Completed (d : Cc) (dta : Bool) (f₀ msg : Bytes) (frames : List Apdu) (parts : List Bytes) (w : Sys) :
    Prop where
  tag : TagOk d w.tag
  fixed : w.cb.fixed = d.fixed dta
  state : w.cb.state = .idle
  pending : w.pending = none
  ndefLength : w.cb.ndefLength = msg.length
  frames : w.frames.map Apdu.payload = frames.map Apdu.payload ++ parts.map some ++
    [some (nlenBytes d.ndefFc.nlenSize msg.length)]
  parts : ∀ p ∈ parts, p ≠ []
  file : w.tag.file = blit (blit f₀ d.ndefFc.nlenSize msg) 0 (nlenBytes d.ndefFc.nlenSize msg.length)

theorem length_nlenBytes {nlenSize : Nat} (h : nlenSize = 2 ∨ nlenSize = 4) (n : Nat) :
    (nlenBytes nlenSize n).length = nlenSize := by
  rcases h with rfl | rfl <;> rfl

theorem exec_nlen {t : Tag} (hd : Valid d) (ht : TagOk d t) (haccess : d.ndefFc.writeAccess ≠ noWriteAccess)
    (hlc : d.ndefFc.nlenSize ≤ d.maxLc) (n : Nat) :
    t.exec ⟨insUpdateBinary, 0, false, d.ndefFc.nlenSize % 2 ^ 8, nlenBytes d.ndefFc.nlenSize n, none⟩ =
      ({ t with file := blit t.file 0 (nlenBytes d.ndefFc.nlenSize n) }, swOk) := by
  have hlen := length_nlenBytes hd.nlen n
  have hsize := hd.size
  have hmod : d.ndefFc.nlenSize % 2 ^ 8 = (nlenBytes d.ndefFc.nlenSize n).length := by
    rw [hlen]
    rcases hd.nlen with h | h <;> omega
  rw [hmod]
  refine exec_update (writable_part ht haccess ?_) ?_ (by decide)
  · rw [hlen]
    omega
  · rw [hlen, ht.desc]
    exact hlc

theorem payload_nlen (hd : Valid d) (n : Nat) :
    Apdu.payload ⟨insUpdateBinary, 0, false, d.ndefFc.nlenSize % 2 ^ 8, nlenBytes d.ndefFc.nlenSize n, none⟩ =
      some (nlenBytes d.ndefFc.nlenSize n) := by
  unfold Apdu.payload
  rw [if_pos, if_pos rfl]
  show d.ndefFc.nlenSize % 2 ^ 8 = (nlenBytes d.ndefFc.nlenSize n).length
  rw [length_nlenBytes hd.nlen]
  rcases hd.nlen with h | h <;> omega

theorem finish_completes {f₀ msg : Bytes} {s : Sys} (hd : Valid d)
    (haccess : d.ndefFc.writeAccess ≠ noWriteAccess) (hlc : d.ndefFc.nlenSize ≤ d.maxLc)
    (h : Writing d dta f₀ msg msg.length s) :
    ∃ n, Completed d dta f₀ msg s.frames [] (Sys.step^[n] (s.emit (continueUpdate s.cb))) ∧
      (Sys.step^[n] (s.emit (continueUpdate s.cb))).events = s.events ++ [.updateCplt] := by
  have hcc : s.cb.ccFile = d := congrArg Fixed.ccFile h.fixed
  obtain ⟨apdu, hapdu⟩ : ∃ apdu : Apdu, apdu = ⟨insUpdateBinary, 0, false, d.ndefFc.nlenSize % 2 ^ 8,
      nlenBytes d.ndefFc.nlenSize msg.length, none⟩ := ⟨_, rfl⟩
  have hzero : s.cb.rwLength = 0 := by rw [h.length, Nat.sub_self]
  have hcont : continueUpdate s.cb = ({ s.cb with
      updateData := none
      retryCmd := some apdu
      subState := .waitUpdateNlen }, [.frame apdu]) := by
    unfold continueUpdate
    rw [if_neg (by omega), hapdu, ← hcc, ← h.ndefLength]
    rfl
  have hexec : s.tag.exec apdu = ({ s.tag with file := blit s.tag.file 0 (nlenBytes d.ndefFc.nlenSize msg.length) }, swOk) := by
    rw [hapdu]
    exact exec_nlen hd h.tag haccess hlc msg.length
  have hstep : Sys.step (s.emit (continueUpdate s.cb)) =
      ⟨{ s.tag with file := blit s.tag.file 0 (nlenBytes d.ndefFc.nlenSize msg.length) }, { s.cb with
        updateData := none
        retryCmd := some apdu
        subState := .waitUpdateNlen
        state := .idle }, none, s.frames ++ [apdu], s.events ++ [.updateCplt]⟩ := by
    rw [hcont, @step_pending _ apdu rfl]
    dsimp only [Sys.emit]
    rw [hexec]
    rw [dataCback_updateNlen (by exact h.state) rfl]
    simp only [List.filterMap_cons, List.filterMap_nil, Out.frame?, Out.event?, List.append_nil]
    rfl
  refine ⟨1, ?_, ?_⟩
  · rw [Function.iterate_one, hstep]
    refine ⟨?_, h.fixed, rfl, rfl, h.ndefLength, ?_, fun p hp => absurd hp List.not_mem_nil, ?_⟩
    · have hsize := hd.size
      exact h.tag.blit (by rw [length_nlenBytes hd.nlen]; omega)
    · rw [List.map_append, hapdu]
      simp only [List.map_cons, List.map_nil, List.append_nil, payload_nlen hd]
    · dsimp only
      rw [h.file, List.take_length]
  · rw [Function.iterate_one, hstep]

theorem writing_next {f₀ msg : Bytes} {k n : Nat} {s : Sys} {apdu : Apdu} (hk : k < msg.length)
    (hn : k + n ≤ msg.length) (hf₀ : f₀.length = d.ndefFc.maxFileSize) (hin : d.ndefFc.nlenSize + k + n ≤ d.ndefFc.maxFileSize)
    (hsize : d.ndefFc.maxFileSize < 2 ^ 32) (hmsg : msg.length < 2 ^ 32) (h : Writing d dta f₀ msg k s)
    (hsend : updateFile s.cb (msg.drop k) =
      (true, advance { s.cb with retryCmd := some apdu } (msg.drop k) n, [.frame apdu]))
    (hexec : s.tag.exec apdu =
      ({ s.tag with file := blit s.tag.file (d.ndefFc.nlenSize + k) ((msg.drop k).take n) }, swOk)) :
    ∃ t, Writing d dta f₀ msg (k + n) t ∧ Sys.step (s.emit (continueUpdate s.cb)) = t.emit (continueUpdate t.cb) ∧
      t.events = s.events ∧ t.frames = s.frames ++ [apdu] := by
  obtain ⟨cb, hcb⟩ : ∃ cb, cb = advance { s.cb with retryCmd := some apdu } (msg.drop k) n := ⟨_, rfl⟩
  have hcont : continueUpdate s.cb = (cb, [.frame apdu]) := by
    unfold continueUpdate
    rw [if_pos (by rw [h.length]; omega), h.rest]
    show sendPart s.cb (msg.drop k) = _
    unfold sendPart
    rw [hsend, ← hcb]
    rfl
  have hstate : cb.state = .updateNdef := by rw [hcb]; exact h.state
  have hsub : cb.subState = .waitUpdateResp := by rw [hcb]; exact h.sub
  obtain ⟨t, ht⟩ : ∃ t : Sys, t = ⟨{ s.tag with file := blit s.tag.file (d.ndefFc.nlenSize + k) ((msg.drop k).take n) },
      cb, none, s.frames ++ [apdu], s.events⟩ := ⟨_, rfl⟩
  have htake : ((msg.drop k).take n).length = n := by
    rw [List.length_take, List.length_drop]
    omega
  refine ⟨t, ?_, ?_, by rw [ht], by rw [ht]⟩
  · refine ⟨?_, ?_, by rw [ht]; exact hstate, by rw [ht]; exact hsub, ?_, ?_, ?_, ?_, ?_⟩
    · rw [ht]
      exact h.tag.blit (by rw [htake]; omega)
    · rw [ht, hcb]
      exact h.fixed
    · rw [ht, hcb]
      show (s.cb.rwOffset + n) % 2 ^ 32 = _
      rw [h.offset, Nat.mod_eq_of_lt (by omega)]
      omega
    · rw [ht, hcb]
      show sub32 s.cb.rwLength n = _
      rw [h.length, sub32_of_le (by omega) (by omega)]
      omega
    · rw [ht, hcb]
      show some ((msg.drop k).drop n) = _
      rw [List.drop_drop]
    · rw [ht, hcb]
      exact h.ndefLength
    · rw [ht]
      show blit s.tag.file (d.ndefFc.nlenSize + k) ((msg.drop k).take n) = _
      have hlen : (msg.take k).length = k := by
        rw [List.length_take]
        omega
      have hjoin := @blit_blit UInt8 f₀ d.ndefFc.nlenSize (msg.take k) ((msg.drop k).take n) (by rw [hlen, hf₀]; omega)
      rw [hlen, ← List.take_add] at hjoin
      rw [h.file, hjoin]
  · rw [hcont, @step_pending _ apdu rfl]
    dsimp only [Sys.emit]
    rw [hexec, dataCback_updateResp hstate hsub, ht]
    simp only [List.filterMap_cons, List.filterMap_nil, Out.frame?, Out.event?, List.append_nil]

theorem writing_step {f₀ msg : Bytes} {k : Nat} {s : Sys} (hd : Valid d)
    (haccess : d.ndefFc.writeAccess ≠ noWriteAccess) (hk : k < msg.length)
    (hf₀ : f₀.length = d.ndefFc.maxFileSize)
    (hin : d.ndefFc.nlenSize + msg.length ≤ d.ndefFc.maxFileSize) (hok : PartOk d (d.ndefFc.nlenSize + msg.length))
    (h : Writing d dta f₀ msg k s) :
    ∃ n t, 0 < n ∧ k + n ≤ msg.length ∧ Writing d dta f₀ msg (k + n) t ∧
      Sys.step (s.emit (continueUpdate s.cb)) = t.emit (continueUpdate t.cb) ∧ t.events = s.events ∧
      t.frames.map Apdu.payload = s.frames.map Apdu.payload ++ [some (slice msg k n)] := by
  have hrest : (msg.drop k).length = msg.length - k := List.length_drop
  have hsize := hd.sizeMax
  have hlast : s.cb.rwOffset + (msg.drop k).length = d.ndefFc.nlenSize + msg.length := by
    rw [h.offset, hrest]
    omega
  obtain ⟨apdu, n, hn0, hn, hsend, hpay, hexec⟩ := @updateFile_spec d dta s.cb (msg.drop k) hd h.fixed
    (by rw [h.length, hrest]) (by omega) (by rw [hlast]; exact hin) (by rw [hlast]; exact hok)
  have hexec := hexec s.tag h.tag haccess
  rw [h.offset] at hexec
  obtain ⟨t, ht, hstep, hev, hframes⟩ := writing_next hk (by omega) hf₀ (by omega) hsize (by omega) h hsend hexec
  refine ⟨n, t, hn0, by omega, ht, hstep, hev, ?_⟩
  rw [hframes, List.map_append, List.map_cons, List.map_nil, hpay]
  rfl

theorem update_completes {f₀ msg : Bytes} (hd : Valid d)
    (haccess : d.ndefFc.writeAccess ≠ noWriteAccess) (hlc : d.ndefFc.nlenSize ≤ d.maxLc)
    (hf₀ : f₀.length = d.ndefFc.maxFileSize)
    (hin : d.ndefFc.nlenSize + msg.length ≤ d.ndefFc.maxFileSize) (hok : PartOk d (d.ndefFc.nlenSize + msg.length)) :
    ∀ (left k : Nat) (s : Sys), msg.length - k ≤ left → k ≤ msg.length → Writing d dta f₀ msg k s →
      ∃ n parts, Completed d dta f₀ msg s.frames parts (Sys.step^[n] (s.emit (continueUpdate s.cb))) ∧
        parts.flatten = msg.drop k ∧
        (Sys.step^[n] (s.emit (continueUpdate s.cb))).events = s.events ++ [.updateCplt] := by
  intro left
  induction left with
  | zero =>
    intro k s hleft hk h
    obtain rfl : k = msg.length := by omega
    obtain ⟨n, hn, hev⟩ := finish_completes hd haccess hlc h
    exact ⟨n, [], hn, by simp, hev⟩
  | succ left ih =>
    intro k s hleft hk h
    rcases Nat.lt_or_ge k msg.length with hlt | hge
    · obtain ⟨n, t, hn0, hkn, ht, hstep, hev, hframes⟩ := writing_step hd haccess hlt hf₀ hin hok h
      obtain ⟨m, parts, hm, hflat, hevs⟩ := ih (k + n) t (by omega) hkn ht
      have hiter : Sys.step^[m + 1] (s.emit (continueUpdate s.cb)) = Sys.step^[m] (t.emit (continueUpdate t.cb)) := by
        rw [Function.iterate_succ_apply, hstep]
      have hslice : slice msg k n ++ msg.drop (k + n) = msg.drop k := by
        unfold slice
        rw [← List.drop_drop, List.take_append_drop]
      have hne : slice msg k n ≠ [] := by
        intro hnil
        have hlen := length_slice hkn
        rw [hnil] at hlen
        exact absurd hlen.symm (Nat.ne_of_gt hn0)
      refine ⟨m + 1, slice msg k n :: parts, ?_, by rw [List.flatten_cons, hflat, hslice], by rw [hiter, hevs, hev]⟩
      rw [hiter]
      refine ⟨hm.tag, hm.fixed, hm.state, hm.pending, hm.ndefLength, ?_, ?_, hm.file⟩
      · rw [hm.frames, hframes]
        simp only [List.map_cons, List.append_assoc, List.cons_append, List.nil_append]
      · intro p hp
        rcases List.mem_cons.mp hp with rfl | hp
        · exact hne
        · exact hm.parts p hp
    · obtain rfl : k = msg.length := by omega
      obtain ⟨n, hn, hev⟩ := finish_completes hd haccess hlc h
      exact ⟨n, [], hn, by simp, hev⟩

end NfcStack.Rw.T4t
