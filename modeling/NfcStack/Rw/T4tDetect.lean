import NfcStack.Rw.T4tRead

/- The detection of the message of a Type 4 tag: the application and the capability container
   are selected, the container is read and validated, the NDEF file is selected, and the
   length of the message is read.

   What is proved:
     1. `valid_of_ok`: what the container of a tag says if it has been validated.
     2. `detect_ends`: a detection ends; the message is detected if the length in the file is
        one that the file can have. -/
namespace NfcStack.Rw.T4t
open NfcStack.Lib

/-! ## Tags -/

/-- A tag of version 2.0 or 3.0 with a container that `rw_t4t_validate_cc_file` accepts, and with the file that
it describes. -/
structure Tag.Ok (t : Tag) (dta : Bool) : Prop where
  tlv : byteAt t.cc 7 = 0x04 ∧ byteAt t.cc 8 = 0x06 ∧ 15 ≤ t.cc.length ∨
    byteAt t.cc 7 = 0x06 ∧ byteAt t.cc 8 = 0x08 ∧ 17 ≤ t.cc.length
  version : t.desc.version = version20 ∨ t.desc.version = version30
  valid : validateCcFile { select dta with ccFile := t.desc } = true
  size : t.file.length = t.desc.ndefFc.maxFileSize

theorem byteAt_lt (bs : Bytes) (i : Nat) : byteAt bs i < 256 := UInt8.toNat_lt _

theorem be16At_lt (bs : Bytes) (i : Nat) : be16At bs i < 65536 := by
  have h1 := byteAt_lt bs i
  have h2 := byteAt_lt bs (i + 1)
  unfold be16At
  omega

theorem be32At_lt (bs : Bytes) (i : Nat) : be32At bs i < 4294967296 := by
  have h1 := be16At_lt bs i
  have h2 := be16At_lt bs (i + 2)
  unfold be32At
  omega

theorem ccFc_short {bs : Bytes} (h : byteAt bs 7 = 0x04 ∧ byteAt bs 8 = 0x06) :
    ccFc bs = ⟨be16At bs 9, be16At bs 11, byteAt bs 13, byteAt bs 14, 2⟩ := by
  unfold ccFc
  rw [if_pos h]
  rfl

theorem ccFc_ext {bs : Bytes} (h : byteAt bs 7 = 0x06) :
    ccFc bs = ⟨be16At bs 9, be32At bs 11, byteAt bs 15, byteAt bs 16, 4⟩ := by
  unfold ccFc
  rw [if_neg (fun h' => absurd (h'.1.symm.trans h) (by decide))]
  rfl

theorem desc_fc (t : Tag) : t.desc.ndefFc = ccFc t.cc := rfl

variable {dta : Bool}

theorem valid_of_ok {t : Tag} (h : t.Ok dta) : Valid t.desc := by
  have hvalid := h.valid
  unfold validateCcFile at hvalid
  simp only [Bool.and_eq_true, Bool.not_eq_true', Bool.or_eq_false_iff, Bool.and_eq_false_iff, decide_eq_true_eq,
    decide_eq_false_iff_not, beq_eq_false_iff_ne, ne_eq] at hvalid
  obtain ⟨⟨⟨⟨⟨⟨⟨-, -⟩, hle⟩, hlc⟩, -⟩, hsize⟩, -⟩, -⟩ := hvalid
  obtain ⟨h20, h30⟩ := hsize
  have hnlen : t.desc.ndefFc.nlenSize = 2 ∧ t.desc.ndefFc.maxFileSize < 65536 ∨
      t.desc.ndefFc.nlenSize = 4 ∧ t.desc.ndefFc.maxFileSize < 4294967296 := by
    rw [desc_fc]
    rcases h.tlv with ⟨h7, h8, -⟩ | ⟨h7, -, -⟩
    · rw [ccFc_short ⟨h7, h8⟩]
      exact .inl ⟨rfl, be16At_lt _ _⟩
    · rw [ccFc_ext h7]
      exact .inr ⟨rfl, be32At_lt _ _⟩
  have hmin : t.desc.version = version20 ∧ ¬ t.desc.ndefFc.maxFileSize < 5 ∧ ¬ 0x7FFF < t.desc.ndefFc.maxFileSize ∨
      t.desc.version = version30 ∧ ¬ t.desc.ndefFc.maxFileSize < 7 := by
    rcases h.version with hv | hv
    · exact .inl ⟨hv, h20.resolve_left (fun hne => hne hv)⟩
    · exact .inr ⟨hv, (h30.resolve_left (fun hne => hne hv)).1⟩
  refine ⟨h.version, ?_, hle, be16At_lt _ _, Nat.not_lt.mp hlc.1, ?_, ?_, ?_, ?_⟩
  · omega
  · omega
  · omega
  · intro h2
    omega
  · intro hv
    rcases hmin with ⟨-, -, hmax⟩ | ⟨hv', -⟩
    · omega
    · exact absurd (hv.symm.trans hv') (by decide)

/-! ## The steps of a detection -/

/-- A detection is under way: the tag has the container `cc` and the file `f`, and the command `apdu` is to be
carried out. -/
structure Detecting (t₀ : Tag) (dta : Bool) (f : Bytes) (sel : Selected) (sub : SubState) (apdu : Apdu) (s : Sys) :
    Prop where
  tag : s.tag = ⟨t₀.cc, f, sel⟩
  pending : s.pending = some apdu
  state : s.cb.state = .detectNdef
  sub : s.cb.subState = sub
  version : s.cb.version = version30
  dta : s.cb.dtaMode = dta
  ext : s.cb.extFieldCoding = true → t₀.desc.extended = true
  read : 15 ≤ s.cb.maxReadSize
  events : s.events = []

/-- A READ of a few bytes at the start of a file. -/
def smallRead (cb : Cb) (offset length : Nat) : Apdu := ⟨insReadBinary, offset, cb.extFieldCoding, 0, [], some length⟩

theorem readFile_small {cb : Cb} {offset length : Nat} (hread : 15 ≤ cb.maxReadSize) (hlen : length ≤ 15)
    (hoff : offset ≤ 15) :
    readFile cb offset length false = (true, { cb with
      rwOffset := offset
      rwLength := length
      retryCmd := some (smallRead cb offset length) }, [.frame (smallRead cb offset length)]) := by
  have hsum : ¬ (offset + length) % 2 ^ 32 > 0x7FFF := by omega
  unfold readFile smallRead
  rw [if_neg Bool.false_ne_true]
  dsimp only
  rw [if_neg (show ¬ length > cb.maxReadSize by omega), if_neg hsum, Nat.mod_eq_of_lt (show offset < 2 ^ 16 by omega),
    Nat.mod_eq_of_lt (show length < 2 ^ 16 by omega), if_neg (show ¬ length = 0x100 by omega),
    Nat.mod_eq_of_lt (show length < 2 ^ 8 by omega)]
  cases cb with
  | mk st sub ver nl ud rl ro rc cc nd nr mr mu ext ddo dm => cases ext <;> rfl

variable {t₀ : Tag} {s : Sys}

/-- A step of the detection: the tag answers, and the reader goes on. -/
theorem step_detecting {f data : Bytes} {sel sel' : Selected} {sub : SubState} {apdu : Apdu}
    (h : Detecting t₀ dta f sel sub apdu s)
    (hexec : (⟨t₀.cc, f, sel⟩ : Tag).exec apdu = (⟨t₀.cc, f, sel'⟩, data ++ swOk)) :
    s.step = Sys.emit { s with tag := ⟨t₀.cc, f, sel'⟩ } (smDetectNdef s.cb (data ++ swOk)) := by
  have hcback : dataCback s.cb (data ++ swOk) = smDetectNdef s.cb (data ++ swOk) := by
    unfold dataCback
    rw [if_neg (fun h => absurd h.2 (by simp [sw])), h.state]
  rw [step_pending h.pending, h.tag, hexec]
  dsimp only
  rw [hcback]

theorem smDetectNdef_ok {cb : Cb} (data : Bytes) :
    smDetectNdef cb (data ++ swOk) = match cb.subState with
      | .waitSelectApp =>
        let (cb, outs) := selectFile cb ccFileId
        ({ cb with subState := .waitSelectCc }, outs)
      | .waitSelectCc => orFailed (readFile cb 0 0x0F false) .waitCcFile
      | .waitCcFile => handleCcFile cb (data ++ swOk)
      | .waitEndefFileCtrlTlv => handleEndefFileCtrlTlv cb (data ++ swOk)
      | .waitSelectNdefFile => orFailed (readFile cb 0 cb.ccFile.ndefFc.nlenSize false) .waitReadNlen
      | .waitReadNlen => handleReadNlen cb (data ++ swOk)
      | .waitReadResp | .waitUpdateResp | .waitUpdateNlen => handleError cb .failed := by
  unfold smDetectNdef
  refine (if_neg (not_not.mpr (statusWords_ok data))).trans ?_
  rfl

def selectCmd (fileId : Nat) : Apdu := ⟨insSelect, 0x0C, false, 2, be16 fileId, none⟩

theorem selectFile_v30 {cb : Cb} (h : cb.version = version30) (fileId : Nat) :
    selectFile cb fileId = ({ cb with retryCmd := some (selectCmd fileId) }, [.frame (selectCmd fileId)]) := by
  unfold selectFile
  rw [if_pos (.inr h)]
  rfl

theorem exec_selectCc (cc f : Bytes) {sel : Selected} (h : sel ≠ .none) :
    (⟨cc, f, sel⟩ : Tag).exec (selectCmd ccFileId) = (⟨cc, f, .cc⟩, [] ++ swOk) := by
  show (⟨cc, f, sel⟩ : Tag).execSelect (selectCmd ccFileId) = _
  unfold Tag.execSelect
  rw [if_neg (by decide), if_neg h, if_pos (show (selectCmd ccFileId).data = be16 ccFileId from rfl)]
  rfl

theorem detect_app {t₀ : Tag} {dta : Bool} {f : Bytes} {sel : Selected} {s : Sys}
    (h : Detecting t₀ dta f sel .waitSelectApp ⟨insSelect, 0x0400, false, 7, v20Aid, some 0⟩ s) :
    Detecting t₀ dta f .app .waitSelectCc (selectCmd ccFileId) s.step := by
  have hexec : (⟨t₀.cc, f, sel⟩ : Tag).exec ⟨insSelect, 0x0400, false, 7, v20Aid, some 0⟩ =
      (⟨t₀.cc, f, .app⟩, [] ++ swOk) := rfl
  rw [step_detecting h hexec, smDetectNdef_ok, h.sub]
  dsimp only
  rw [selectFile_v30 h.version]
  exact ⟨rfl, rfl, h.state, rfl, h.version, h.dta, h.ext, h.read, by dsimp only [Sys.emit]; rw [h.events]; rfl⟩

theorem orFailed_ok (cb : Cb) (outs : List Out) (sub : SubState) :
    orFailed (true, cb, outs) sub = ({ cb with subState := sub }, outs) := rfl

variable {f : Bytes}

theorem detect_cc {sel : Selected} (hsel : sel ≠ .none)
    (h : Detecting t₀ dta f sel .waitSelectCc (selectCmd ccFileId) s) :
    Detecting t₀ dta f .cc .waitCcFile (smallRead s.step.cb 0 0x0F) s.step := by
  rw [step_detecting h (exec_selectCc t₀.cc f hsel), smDetectNdef_ok, h.sub]
  dsimp only
  rw [readFile_small h.read (by decide) (by decide), orFailed_ok]
  exact ⟨rfl, rfl, h.state, rfl, h.version, h.dta, h.ext, h.read, by dsimp only [Sys.emit]; rw [h.events]; rfl⟩

theorem exec_smallRead {t : Tag} {g : Bytes} {cb : Cb} {offset length : Nat} (hg : t.selectedFile = some g)
    (hext : cb.extFieldCoding = true → t.extended = true) (hle : 15 ≤ t.desc.maxLe) (hpos : 0 < length)
    (hlen : length ≤ 15) (hoff : offset ≤ 15) (hin : offset ≤ g.length) :
    t.exec (smallRead cb offset length) = (t, slice g offset length ++ swOk) := by
  have hval : min (leValue cb.extFieldCoding length) t.desc.maxLe = length := by
    unfold leValue
    rw [if_neg (Nat.ne_of_gt hpos)]
    omega
  unfold smallRead
  rw [exec_read hg hext (by omega) hin, hval]

theorem byteAt_slice {g : Bytes} {offset length : Nat} (hin : offset + length ≤ g.length) {i : Nat} (hi : i < length)
    (rest : Bytes) : byteAt (slice g offset length ++ rest) i = byteAt g (offset + i) := by
  have hlen : (slice g offset length).length = length := length_slice hin
  unfold byteAt
  rw [List.getD_append _ _ _ _ (by omega)]
  unfold slice
  simp only [List.getD_eq_getElem?_getD, List.getElem?_take, if_pos hi, List.getElem?_drop]

theorem be16At_slice {g : Bytes} {offset length : Nat} (hin : offset + length ≤ g.length) {i : Nat}
    (hi : i + 1 < length) (rest : Bytes) : be16At (slice g offset length ++ rest) i = be16At g (offset + i) := by
  unfold be16At
  rw [byteAt_slice hin (by omega), byteAt_slice hin hi, Nat.add_assoc]

theorem be32At_slice {g : Bytes} {offset length : Nat} (hin : offset + length ≤ g.length) {i : Nat}
    (hi : i + 3 < length) (rest : Bytes) : be32At (slice g offset length ++ rest) i = be32At g (offset + i) := by
  unfold be32At
  rw [be16At_slice hin (by omega), be16At_slice hin (by omega), Nat.add_assoc]

/-- The validation reads the container, but not the size of its length. -/
theorem validate_desc {t₀ : Tag} {dta : Bool} (ht : t₀.Ok dta) {cb : Cb} (hversion : cb.version = version30)
    (hdta : cb.dtaMode = dta) (hcclen : cb.ccFile.cclen = t₀.desc.cclen) (hver : cb.ccFile.version = t₀.desc.version)
    (hle : cb.ccFile.maxLe = t₀.desc.maxLe) (hlc : cb.ccFile.maxLc = t₀.desc.maxLc) {n : Nat}
    (hfc : cb.ccFile.ndefFc = { t₀.desc.ndefFc with nlenSize := n }) : validateCcFile cb = true := by
  rw [← ht.valid]
  unfold validateCcFile
  dsimp only
  rw [hversion, hdta, hcclen, hver, hle, hlc, hfc]
  rfl

/-- The container is valid: the NDEF file is to be selected. -/
theorem select_valid {t₀ : Tag} {dta : Bool} (ht : t₀.Ok dta) {cb : Cb} (hversion : cb.version = version30)
    (hdta : cb.dtaMode = dta) {k n : Nat}
    (hcc : cb.ccFile = { t₀.desc with ndefFc := { t₀.desc.ndefFc with nlenSize := k } })
    (hn : t₀.desc.ndefFc.nlenSize = n) :
    (if validateCcFile cb then selectNdefFile cb n else notDetected cb .badResp) = ({ cb with
      retryCmd := some (selectCmd t₀.desc.ndefFc.fileId)
      ccFile := t₀.desc
      subState := .waitSelectNdefFile }, [.frame (selectCmd t₀.desc.ndefFc.fileId)]) := by
  rw [if_pos (@validate_desc t₀ dta ht cb hversion hdta (by rw [hcc]) (by rw [hcc]) (by rw [hcc]) (by rw [hcc]) k
    (by rw [hcc]))]
  unfold selectNdefFile
  rw [selectFile_v30 hversion, hcc, ← hn]

theorem parseCcHead_slice (hlen : 15 ≤ t₀.cc.length) (cc : Cc) :
    parseCcHead cc (slice t₀.cc 0 15 ++ swOk) = { t₀.desc with ndefFc := cc.ndefFc } := by
  have hin : 0 + 15 ≤ t₀.cc.length := by omega
  unfold parseCcHead
  rw [be16At_slice hin (by decide), byteAt_slice hin (by decide), be16At_slice hin (by decide),
    be16At_slice hin (by decide)]
  simp only [Nat.zero_add]
  rfl

/-- What the reader is after the container has been read: it has what the container says. -/
theorem detect_ccFile_short (ht : t₀.Ok dta)
    (htlv : byteAt t₀.cc 7 = 0x04 ∧ byteAt t₀.cc 8 = 0x06 ∧ 15 ≤ t₀.cc.length)
    (h : Detecting t₀ dta f .cc .waitCcFile (smallRead s.cb 0 0x0F) s) :
    Detecting t₀ dta f .cc .waitSelectNdefFile (selectCmd t₀.desc.ndefFc.fileId) s.step ∧
      s.step.cb.ccFile = t₀.desc := by
  obtain ⟨h7, h8, hlen⟩ := htlv
  have hin : 0 + 15 ≤ t₀.cc.length := by omega
  have hle := (valid_of_ok ht).maxLe
  have hexec := @exec_smallRead ⟨t₀.cc, f, .cc⟩ t₀.cc s.cb 0 0x0F rfl h.ext hle (by decide) (by decide) (by decide)
    (Nat.zero_le _)
  have hfc : t₀.desc.ndefFc = ⟨be16At t₀.cc 9, be16At t₀.cc 11, byteAt t₀.cc 13, byteAt t₀.cc 14, 2⟩ :=
    ccFc_short ⟨h7, h8⟩
  have hparse : ∀ fc : NdefFc, parseFc fc (slice t₀.cc 0 15 ++ swOk) 9 = { t₀.desc.ndefFc with nlenSize := fc.nlenSize } := by
    intro fc
    unfold parseFc
    rw [be16At_slice hin (by decide), be16At_slice hin (by decide), byteAt_slice hin (by decide),
      byteAt_slice hin (by decide), hfc]
  have hrsp : (slice t₀.cc 0 15 ++ swOk).length = 17 := by
    rw [List.length_append, length_slice hin]
    rfl
  have hn : t₀.desc.ndefFc.nlenSize = 2 := by rw [hfc]
  have hhandle : handleCcFile s.cb (slice t₀.cc 0 15 ++ swOk) = ({ s.cb with
      retryCmd := some (selectCmd t₀.desc.ndefFc.fileId)
      ccFile := t₀.desc
      subState := .waitSelectNdefFile }, [.frame (selectCmd t₀.desc.ndefFc.fileId)]) := by
    unfold handleCcFile
    rw [if_pos (by rw [hrsp]), parseCcHead_slice hlen, byteAt_slice hin (by decide), byteAt_slice hin (by decide),
      if_pos ⟨h7, h8⟩]
    dsimp only
    rw [hparse]
    exact @select_valid t₀ dta ht { s.cb with ccFile := { t₀.desc with
      ndefFc := { t₀.desc.ndefFc with nlenSize := s.cb.ccFile.ndefFc.nlenSize } } } h.version h.dta _ 2 rfl hn
  rw [step_detecting h hexec, smDetectNdef_ok, h.sub]
  dsimp only
  rw [hhandle]
  exact ⟨⟨rfl, rfl, h.state, rfl, h.version, h.dta, h.ext, h.read, by dsimp only [Sys.emit]; rw [h.events]; rfl⟩, rfl⟩

/-- The first part of a container with an extended TLV has been read. -/
theorem detect_ccFile_ext (ht : t₀.Ok dta)
    (htlv : byteAt t₀.cc 7 = 0x06 ∧ byteAt t₀.cc 8 = 0x08 ∧ 17 ≤ t₀.cc.length)
    (h : Detecting t₀ dta f .cc .waitCcFile (smallRead s.cb 0 0x0F) s) :
    Detecting t₀ dta f .cc .waitEndefFileCtrlTlv (smallRead s.step.cb 9 8) s.step ∧
      ∃ fc, s.step.cb.ccFile = { t₀.desc with ndefFc := fc } := by
  obtain ⟨h7, h8, hlen⟩ := htlv
  have hin : 0 + 15 ≤ t₀.cc.length := by omega
  have hle := (valid_of_ok ht).maxLe
  have hexec := @exec_smallRead ⟨t₀.cc, f, .cc⟩ t₀.cc s.cb 0 0x0F rfl h.ext hle (by decide) (by decide) (by decide)
    (Nat.zero_le _)
  have hrsp : (slice t₀.cc 0 15 ++ swOk).length = 17 := by
    rw [List.length_append, length_slice hin]
    rfl
  have hhandle : handleCcFile s.cb (slice t₀.cc 0 15 ++ swOk) = ({ s.cb with
      ccFile := { t₀.desc with ndefFc := s.cb.ccFile.ndefFc }
      rwOffset := 9
      rwLength := 8
      retryCmd := some (smallRead s.cb 9 8)
      subState := .waitEndefFileCtrlTlv }, [.frame (smallRead s.cb 9 8)]) := by
    unfold handleCcFile
    rw [if_pos (by rw [hrsp]), parseCcHead_slice (by omega), byteAt_slice hin (by decide), byteAt_slice hin (by decide),
      if_neg (fun h' => absurd (h'.1.symm.trans h7) (by decide)), if_pos ⟨h7, h8⟩]
    dsimp only
    rw [@readFile_small { s.cb with ccFile := { t₀.desc with ndefFc := s.cb.ccFile.ndefFc } } 9 8 h.read (by decide)
      (by decide), orFailed_ok]
    rfl
  rw [step_detecting h hexec, smDetectNdef_ok, h.sub]
  dsimp only
  rw [hhandle]
  exact ⟨⟨rfl, rfl, h.state, rfl, h.version, h.dta, h.ext, h.read, by dsimp only [Sys.emit]; rw [h.events]; rfl⟩, _, rfl⟩

theorem detect_endef (ht : t₀.Ok dta)
    (htlv : byteAt t₀.cc 7 = 0x06 ∧ byteAt t₀.cc 8 = 0x08 ∧ 17 ≤ t₀.cc.length)
    (h : Detecting t₀ dta f .cc .waitEndefFileCtrlTlv (smallRead s.cb 9 8) s)
    (hcc : ∃ fc, s.cb.ccFile = { t₀.desc with ndefFc := fc }) :
    Detecting t₀ dta f .cc .waitSelectNdefFile (selectCmd t₀.desc.ndefFc.fileId) s.step ∧
      s.step.cb.ccFile = t₀.desc := by
  obtain ⟨h7, h8, hlen⟩ := htlv
  obtain ⟨fc, hcc⟩ := hcc
  have hin : 9 + 8 ≤ t₀.cc.length := by omega
  have hle := (valid_of_ok ht).maxLe
  have hexec := @exec_smallRead ⟨t₀.cc, f, .cc⟩ t₀.cc s.cb 9 8 rfl h.ext hle (by decide) (by decide) (by decide)
    (show 9 ≤ t₀.cc.length by omega)
  have hfc : t₀.desc.ndefFc = ⟨be16At t₀.cc 9, be32At t₀.cc 11, byteAt t₀.cc 15, byteAt t₀.cc 16, 4⟩ := ccFc_ext h7
  have hn : t₀.desc.ndefFc.nlenSize = 4 := by rw [hfc]
  have hparse : parseExtFc fc (slice t₀.cc 9 8 ++ swOk) 0 = { t₀.desc.ndefFc with nlenSize := fc.nlenSize } := by
    unfold parseExtFc
    rw [be16At_slice hin (by decide), be32At_slice hin (by decide), byteAt_slice hin (by decide),
      byteAt_slice hin (by decide), hfc]
  have hrsp : (slice t₀.cc 9 8 ++ swOk).length = 10 := by
    rw [List.length_append, length_slice hin]
    rfl
  have hhandle : handleEndefFileCtrlTlv s.cb (slice t₀.cc 9 8 ++ swOk) = ({ s.cb with
      retryCmd := some (selectCmd t₀.desc.ndefFc.fileId)
      ccFile := t₀.desc
      subState := .waitSelectNdefFile }, [.frame (selectCmd t₀.desc.ndefFc.fileId)]) := by
    unfold handleEndefFileCtrlTlv
    rw [if_pos (by rw [hrsp]), hcc]
    dsimp only
    rw [hparse]
    exact @select_valid t₀ dta ht { s.cb with ccFile := { t₀.desc with
      ndefFc := { t₀.desc.ndefFc with nlenSize := fc.nlenSize } } } h.version h.dta _ 4 rfl hn
  rw [step_detecting h hexec, smDetectNdef_ok, h.sub]
  dsimp only
  rw [hhandle]
  exact ⟨⟨rfl, rfl, h.state, rfl, h.version, h.dta, h.ext, h.read, by dsimp only [Sys.emit]; rw [h.events]; rfl⟩, rfl⟩

theorem be16_injective {m n : Nat} (hm : m < 65536) (hn : n < 65536) (h : be16 m = be16 n) : m = n := by
  have h1 := congrArg (fun bs => be16At bs 0) h
  have hval : ∀ k, k < 65536 → be16At (be16 k) 0 = k := by
    intro k hk
    show (UInt8.ofNat (k / 2 ^ 8)).toNat * 2 ^ 8 + (UInt8.ofNat k).toNat = k
    simp only [UInt8.toNat_ofNat']
    omega
  rwa [hval m hm, hval n hn] at h1

/-- The NDEF file of a validated container is not the container. -/
theorem fileId_ne {t : Tag} (h : t.Ok dta) : t.desc.ndefFc.fileId ≠ ccFileId ∧
    t.desc.ndefFc.fileId < 65536 := by
  have hvalid := h.valid
  unfold validateCcFile at hvalid
  simp only [Bool.and_eq_true, Bool.not_eq_true', Bool.or_eq_false_iff, beq_eq_false_iff_ne, ne_eq] at hvalid
  obtain ⟨⟨⟨⟨-, hid⟩, -⟩, -⟩, -⟩ := hvalid
  refine ⟨hid.1.1.1.1.1, ?_⟩
  rw [desc_fc]
  unfold ccFc
  split <;> exact be16At_lt _ _

theorem detect_ndef (ht : t₀.Ok dta)
    (h : Detecting t₀ dta f .cc .waitSelectNdefFile (selectCmd t₀.desc.ndefFc.fileId) s)
    (hcc : s.cb.ccFile = t₀.desc) :
    Detecting t₀ dta f .ndef .waitReadNlen (smallRead s.step.cb 0 t₀.desc.ndefFc.nlenSize) s.step ∧
      s.step.cb.ccFile = t₀.desc := by
  obtain ⟨hne, hlt⟩ := fileId_ne ht
  have hexec : (⟨t₀.cc, f, .cc⟩ : Tag).exec (selectCmd t₀.desc.ndefFc.fileId) = (⟨t₀.cc, f, .ndef⟩, [] ++ swOk) := by
    show (⟨t₀.cc, f, .cc⟩ : Tag).execSelect (selectCmd t₀.desc.ndefFc.fileId) = _
    have hid : (selectCmd t₀.desc.ndefFc.fileId).data ≠ be16 ccFileId :=
      fun hid => hne (be16_injective hlt (by decide) hid)
    unfold Tag.execSelect
    rw [if_neg (show (selectCmd t₀.desc.ndefFc.fileId).p1p2 ≠ 0x0400 from (by decide : 0x0C ≠ 0x0400)),
      if_neg (show Selected.cc ≠ .none from nofun), if_neg hid,
      if_pos (show (selectCmd t₀.desc.ndefFc.fileId).data =
        be16 (⟨t₀.cc, f, .cc⟩ : Tag).desc.ndefFc.fileId from rfl)]
    rfl
  have hnlen : t₀.desc.ndefFc.nlenSize ≤ 15 := by
    rcases (valid_of_ok ht).nlen with hn | hn <;> omega
  rw [step_detecting h hexec, smDetectNdef_ok, h.sub]
  dsimp only
  rw [hcc, readFile_small h.read hnlen (by decide), orFailed_ok]
  exact ⟨⟨rfl, rfl, h.state, rfl, h.version, h.dta, h.ext, h.read, by dsimp only [Sys.emit]; rw [h.events]; rfl⟩, hcc⟩

/-- The length of the message that is in the file. -/
def storedLen (nlenSize : Nat) (f : Bytes) : Nat := if nlenSize = 2 then be16At f 0 else be32At f 0

structure Idle (t₀ : Tag) (dta : Bool) (s : Sys) : Prop where
  cc : s.tag.cc = t₀.cc
  size : s.tag.file.length = t₀.desc.ndefFc.maxFileSize
  state : s.cb.state = .idle
  version : s.cb.version = version30
  mode : s.cb.dtaMode = dta
  ext : s.cb.extFieldCoding = true → t₀.desc.extended = true
  read : 15 ≤ s.cb.maxReadSize
  found : s.cb.ndefDetected = true → TagOk t₀.desc s.tag ∧ s.cb.fixed = t₀.desc.fixed dta ∧
    t₀.desc.ndefFc.nlenSize + s.cb.ndefLength ≤ t₀.desc.ndefFc.maxFileSize

theorem detected_fixed {t₀ : Tag} {dta : Bool} {cb : Cb} {n : Nat} (hcc : cb.ccFile = t₀.desc)
    (hversion : cb.version = version30) (hdta : cb.dtaMode = dta)
    (hext : cb.extFieldCoding = true → t₀.desc.extended = true) : (detected cb n).fixed = t₀.desc.fixed dta := by
  have hread : (if t₀.desc.maxLe ≥ maxDataPerRead then maxDataPerRead else t₀.desc.maxLe) = min t₀.desc.maxLe 647 := by
    show (if t₀.desc.maxLe ≥ 647 then 647 else t₀.desc.maxLe) = _
    split <;> omega
  have hupdate : (if t₀.desc.maxLc ≥ maxDataPerWrite then maxDataPerWrite else t₀.desc.maxLc) = min t₀.desc.maxLc 633 := by
    show (if t₀.desc.maxLc ≥ 633 then 633 else t₀.desc.maxLc) = _
    split <;> omega
  have hflag : (cb.extFieldCoding || decide (min t₀.desc.maxLe 647 > 0x100) || decide (min t₀.desc.maxLc 633 > 0xFF)) =
      t₀.desc.extended := by
    have h1 : decide (min t₀.desc.maxLe 647 > 0x100) = decide (0x100 < t₀.desc.maxLe) := decide_eq_decide.mpr (by omega)
    have h2 : decide (min t₀.desc.maxLc 633 > 0xFF) = decide (0xFF < t₀.desc.maxLc) := decide_eq_decide.mpr (by omega)
    rw [h1, h2, Bool.or_assoc]
    show (cb.extFieldCoding || t₀.desc.extended) = _
    cases he : cb.extFieldCoding with
    | false => rfl
    | true => rw [hext he]; rfl
  unfold detected Cb.fixed Cc.fixed
  dsimp only
  rw [hcc, hread, hupdate, hflag, hversion, hdta]

/-- The length of the message has been read: this ends the detection. -/
theorem detect_nlen (ht : t₀.Ok dta) (hf : f.length = t₀.desc.ndefFc.maxFileSize)
    (h : Detecting t₀ dta f .ndef .waitReadNlen (smallRead s.cb 0 t₀.desc.ndefFc.nlenSize) s)
    (hcc : s.cb.ccFile = t₀.desc) :
    Idle t₀ dta s.step ∧ s.step.pending = none ∧ s.step.tag.file = f ∧
      (t₀.desc.ndefFc.nlenSize + storedLen t₀.desc.ndefFc.nlenSize f ≤ t₀.desc.ndefFc.maxFileSize →
        s.step.cb.ndefDetected = true ∧ s.step.cb.ndefLength = storedLen t₀.desc.ndefFc.nlenSize f) ∧
      (t₀.desc.ndefFc.maxFileSize < t₀.desc.ndefFc.nlenSize + storedLen t₀.desc.ndefFc.nlenSize f →
        s.step.cb.ndefDetected = false) := by
  have hd := valid_of_ok ht
  have hsize := hd.size
  have hsizeMax := hd.sizeMax
  have hin : 0 + t₀.desc.ndefFc.nlenSize ≤ f.length := by omega
  have hpos : 0 < t₀.desc.ndefFc.nlenSize := by
    rcases hd.nlen with hn | hn <;> omega
  have hnlen : t₀.desc.ndefFc.nlenSize ≤ 15 := by
    rcases hd.nlen with hn | hn <;> omega
  have hexec := @exec_smallRead ⟨t₀.cc, f, .ndef⟩ f s.cb 0 t₀.desc.ndefFc.nlenSize rfl h.ext hd.maxLe hpos hnlen
    (by decide) (Nat.zero_le _)
  have hrsp : (slice f 0 t₀.desc.ndefFc.nlenSize ++ swOk).length = t₀.desc.ndefFc.nlenSize + 2 := by
    rw [List.length_append, length_slice hin]
    rfl
  have hstored : (if t₀.desc.ndefFc.nlenSize = 2 then be16At (slice f 0 t₀.desc.ndefFc.nlenSize ++ swOk) 0
      else be32At (slice f 0 t₀.desc.ndefFc.nlenSize ++ swOk) 0) = storedLen t₀.desc.ndefFc.nlenSize f := by
    unfold storedLen
    rcases hd.nlen with hn | hn
    · rw [if_pos hn, if_pos hn, be16At_slice hin (by omega)]
    · rw [if_neg (by omega), if_neg (by omega), be32At_slice hin (by omega)]
  have hhandle : handleReadNlen s.cb (slice f 0 t₀.desc.ndefFc.nlenSize ++ swOk) =
      if t₀.desc.ndefFc.nlenSize + storedLen t₀.desc.ndefFc.nlenSize f ≤ t₀.desc.ndefFc.maxFileSize then
        (detected s.cb (storedLen t₀.desc.ndefFc.nlenSize f),
          [.event (.ndefDetect .ok (storedLen t₀.desc.ndefFc.nlenSize f)
            (sub32 t₀.desc.ndefFc.maxFileSize t₀.desc.ndefFc.nlenSize) (decide (t₀.desc.ndefFc.writeAccess ≠ 0x00)))])
      else notDetected s.cb .badResp := by
    unfold handleReadNlen
    rw [hcc]
    dsimp only
    rw [if_pos hrsp, hstored]
    refine if_congr ?_ rfl rfl
    rw [sub32_of_le (by omega) hsizeMax]
    omega
  rw [step_detecting h hexec, smDetectNdef_ok, h.sub]
  dsimp only
  rw [hhandle]
  by_cases hfits : t₀.desc.ndefFc.nlenSize + storedLen t₀.desc.ndefFc.nlenSize f ≤ t₀.desc.ndefFc.maxFileSize
  · rw [if_pos hfits]
    have hfixed := @detected_fixed t₀ dta s.cb (storedLen t₀.desc.ndefFc.nlenSize f) hcc h.version h.dta h.ext
    refine ⟨⟨rfl, hf, rfl, h.version, h.dta, ?_, ?_, fun _ => ⟨⟨rfl, rfl, hf⟩, hfixed, hfits⟩⟩, rfl, rfl,
      fun _ => ⟨rfl, rfl⟩, fun hlong => absurd hfits (Nat.not_le.mpr hlong)⟩
    · intro he
      exact (congrArg Fixed.extFieldCoding hfixed).symm.trans he
    · have hmax : (detected s.cb (storedLen t₀.desc.ndefFc.nlenSize f)).maxReadSize = min t₀.desc.maxLe 647 :=
        congrArg Fixed.maxReadSize hfixed
      have hle := hd.maxLe
      show 15 ≤ (detected s.cb (storedLen t₀.desc.ndefFc.nlenSize f)).maxReadSize
      rw [hmax]
      omega
  · rw [if_neg hfits]
    refine ⟨⟨rfl, hf, rfl, h.version, h.dta, h.ext, h.read, fun hdet => Bool.noConfusion hdet⟩, ?_, rfl,
      fun hfits' => absurd hfits' hfits, fun _ => rfl⟩
    show (notDetected s.cb .badResp).2.findSome? Out.frame? = none
    unfold notDetected handleError
    dsimp only
    rw [h.state]
    rfl

/-! ## The whole detection -/

theorem detect_start (h : Idle t₀ dta s) :
    ∃ n sel, sel ≠ Selected.none ∧
      Detecting t₀ dta s.tag.file sel .waitSelectCc (selectCmd ccFileId) (Sys.step^[n] (s.call .detect).2) := by
  have htag : ∀ sel, s.tag.selected = sel → s.tag = ⟨t₀.cc, s.tag.file, sel⟩ := by
    intro sel hsel
    rw [← h.cc, ← hsel]
  cases hdet : s.cb.ndefDetected with
  | true =>
    obtain ⟨htagOk, -, -⟩ := h.found hdet
    refine ⟨0, .ndef, nofun, ?_⟩
    show Detecting _ _ _ _ _ _ (Sys.emit _ (detectNDef s.cb).2)
    unfold detectNDef
    rw [if_neg (not_not.mpr h.state), if_pos hdet, selectFile_v30 h.version]
    exact ⟨htag .ndef htagOk.selected, rfl, rfl, rfl, h.version, h.mode, h.ext, h.read, rfl⟩
  | false =>
    refine ⟨1, .app, nofun, ?_⟩
    rw [Function.iterate_one]
    refine @detect_app t₀ dta s.tag.file s.tag.selected _ ?_
    show Detecting _ _ _ _ _ _ (Sys.emit _ (detectNDef s.cb).2)
    have happ : selectApplication s.cb s.cb.version =
        (true, sendToLower s.cb ⟨insSelect, 0x0400, false, 7, v20Aid, some 0⟩) := by
      unfold selectApplication
      rw [h.version]
      rfl
    unfold detectNDef
    rw [if_neg (not_not.mpr h.state), if_neg (by rw [hdet]; exact Bool.false_ne_true), happ]
    exact ⟨htag _ rfl, rfl, rfl, rfl, h.version, h.mode, h.ext, h.read, rfl⟩

/-- A detection ends, and leaves the file as it was. The message is detected if and only if the length in the file
is one that the file can have. -/
theorem detect_ends (ht : t₀.Ok dta) (h : Idle t₀ dta s) :
    ∃ w, s.Ends .detect w ∧ Idle t₀ dta w ∧ w.tag.file = s.tag.file ∧
      (t₀.desc.ndefFc.nlenSize + storedLen t₀.desc.ndefFc.nlenSize s.tag.file ≤ t₀.desc.ndefFc.maxFileSize →
        w.cb.ndefDetected = true ∧ w.cb.ndefLength = storedLen t₀.desc.ndefFc.nlenSize s.tag.file) ∧
      (t₀.desc.ndefFc.maxFileSize < t₀.desc.ndefFc.nlenSize + storedLen t₀.desc.ndefFc.nlenSize s.tag.file →
        w.cb.ndefDetected = false) := by
  obtain ⟨n, sel, hsel, h₁⟩ := detect_start h
  obtain ⟨s₁, hs₁⟩ : ∃ s₁, s₁ = Sys.step^[n] (s.call .detect).2 := ⟨_, rfl⟩
  rw [← hs₁] at h₁
  have h₂ := detect_cc hsel h₁
  -- the container is read at once, or in two parts
  have h₃ : ∃ m, Detecting t₀ dta s.tag.file .cc .waitSelectNdefFile (selectCmd t₀.desc.ndefFc.fileId)
      (Sys.step^[m] s₁.step) ∧ (Sys.step^[m] s₁.step).cb.ccFile = t₀.desc := by
    rcases ht.tlv with htlv | htlv
    · exact ⟨1, detect_ccFile_short ht htlv h₂⟩
    · obtain ⟨hext, hcc⟩ := detect_ccFile_ext ht htlv h₂
      exact ⟨2, detect_endef ht htlv hext hcc⟩
  obtain ⟨m, hfile, hcc⟩ := h₃
  obtain ⟨hndef, hcc'⟩ := detect_ndef ht hfile hcc
  obtain ⟨hidle, hpending, hsame, hdet⟩ := detect_nlen ht h.size hndef hcc'
  refine ⟨_, ⟨n + (1 + (m + 2)), ?_, hpending⟩, hidle, hsame, hdet⟩
  have hadd : ∀ (a b : Nat) (x : Sys), Sys.step^[a + b] x = Sys.step^[b] (Sys.step^[a] x) := by
    intro a b x
    rw [Nat.add_comm, Function.iterate_add_apply]
  rw [hadd, hadd, hadd, ← hs₁]
  rfl

end NfcStack.Rw.T4t
