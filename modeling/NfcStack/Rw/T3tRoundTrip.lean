import NfcStack.Rw.T3tRead

/- A message that is written to a Type 3 tag is read back. The tag is any one whose
   attributes the detection accepts; it carries out what its attributes allow.

   What is proved:
     1. `detect_spec`: what a detection leaves.
     2. `update_run`: a message that is accepted is written.
     3. `reads_iff`: when the message of a tag is read.
     4. `t3t_round_trip`: the message is read back if the tag can be read and written at
        all, and was not in the middle of a write when it was detected. -/
namespace NfcStack.Rw.T3t
open NfcStack.Lib

/-! ## Detection -/

/-- The control block after a detection. -/
def detectedCb (s : Sys) : Cb :=
  { s.cb with
    curCmd := .detectNdef
    rwState := .idle
    w4NdefDetectPollRsp := false
    peerNdefNfcid2 := s.tag.idm
    ndefAttrib := (detectAttr s.cb.ndefAttrib (s.tag.blocks 0 ++ [0])).1 }

theorem slice_sensfRes {t : Tag} (h : t.idm.length = 8) : t.sensfRes.length > 8 ∧ slice t.sensfRes 1 8 = t.idm := by
  refine ⟨?_, ?_⟩
  · unfold Tag.sensfRes
    rw [List.length_append, List.length_cons, h]
    decide
  · obtain ⟨a, b, c, d, e, f, g, k, hidm⟩ := exists_idm h
    unfold Tag.sensfRes
    rw [hidm]
    rfl

def detectFrame (idm : Bytes) : Bytes := cmdFrame idm opcCheckCmd ndefScRo [twoByteFormat, 0] 1 []

variable {s : Sys}

theorem polled_spec (hidle : s.cb.rwState = .idle) (hidm : s.tag.idm.length = 8) :
    (s.call detectNDef).2.polled = ⟨s.tag, { s.cb with
        curCmd := .detectNdef
        rwState := .commandPending
        w4NdefDetectPollRsp := false
        peerNdefNfcid2 := s.tag.idm }, some (detectFrame s.tag.idm), [detectFrame s.tag.idm], []⟩ := by
  obtain ⟨hlen, hslice⟩ := slice_sensfRes hidm
  have hcall : (s.call detectNDef).2 = ⟨s.tag, { s.cb with
      curCmd := .detectNdef
      rwState := .commandPending
      w4NdefDetectPollRsp := true }, none, [], []⟩ := by
    unfold Sys.call detectNDef
    rw [if_neg (not_not.mpr hidle)]
    rfl
  rw [hcall]
  unfold Sys.polled handleNciPollNtf
  dsimp only
  rw [if_neg (by rintro (h | h) <;> cases h), if_pos hlen, if_pos ⟨rfl, by decide⟩, hslice,
    sendCmd_frame_nil]
  rfl

theorem handleNdefDetectRsp_ok {cb : Cb} {idm block : Bytes} (hidm : cb.peerNdefNfcid2 = idm) (hlen : idm.length = 8)
    (hblock : block.length = 16) :
    handleNdefDetectRsp cb (opcCheckRsp :: idm ++ [0, 0, 1] ++ block ++ [0]) =
      ({ cb with ndefAttrib := (detectAttr cb.ndefAttrib (block ++ [0])).1, rwState := .idle },
        [.event (detectAttr cb.ndefAttrib (block ++ [0])).2]) := by
  have hrsp : opcCheckRsp :: idm ++ [0, 0, 1] ++ block ++ [0] = opcCheckRsp :: idm ++ (0 :: 0 :: 1 :: (block ++ [0])) := by
    simp
  have hdrop : (opcCheckRsp :: idm ++ (0 :: 0 :: 1 :: (block ++ [0]))).drop rspOffsetCheckData = block ++ [0] :=
    drop_rsp opcCheckRsp 0 0 1 hlen
  have hlength : (opcCheckRsp :: idm ++ (0 :: 0 :: 1 :: (block ++ [0]))).length = 29 := by
    simp only [List.length_append, List.length_cons, List.length_nil, hlen, hblock]
  rw [hrsp]
  unfold handleNdefDetectRsp
  rw [if_neg, hdrop]
  rw [rspStatus1_cons opcCheckRsp 0 hlen, rspIdm_cons opcCheckRsp hlen, hidm, hlength]
  rintro (h | h | h | h)
  · exact h rfl
  · exact h rfl
  · exact h rfl
  · exact absurd h (by decide)

theorem step_detect {s : Sys} (hidm : s.tag.idm.length = 8)
    (hblock : (s.tag.blocks 0).length = 16)
    (hp : s.pending = some (detectFrame s.tag.idm)) (hpeer : s.cb.peerNdefNfcid2 = s.tag.idm)
    (hcmd : s.cb.curCmd = .detectNdef) (hstate : s.cb.rwState = .commandPending) :
    s.step = Sys.emit s ({ s.cb with
      ndefAttrib := (detectAttr s.cb.ndefAttrib (s.tag.blocks 0 ++ [0])).1
      rwState := .idle }, [.event (detectAttr s.cb.ndefAttrib (s.tag.blocks 0 ++ [0])).2]) := by
  have hexec := @exec_check s.tag [twoByteFormat, 0] ndefScRo 1 [0] hidm (by decide) (by decide) (.inl rfl) rfl
    (accepts_block0 s.tag s.tag.attr.nbr)
  have hrsp : (opcCheckRsp :: s.tag.idm ++ [0, 0, 1] ++ s.tag.blocks 0).length = 28 := by
    simp only [List.length_append, List.length_cons, List.length_nil, hidm, hblock]
  have hcback : dataCback s.cb (rspFrame (opcCheckRsp :: s.tag.idm ++ [0, 0, 1] ++ s.tag.blocks 0)) =
      ({ s.cb with
        ndefAttrib := (detectAttr s.cb.ndefAttrib (s.tag.blocks 0 ++ [0])).1
        rwState := .idle }, [.event (detectAttr s.cb.ndefAttrib (s.tag.blocks 0 ++ [0])).2]) := by
    rw [dataCback_rsp hstate (by omega) (by omega)]
    unfold handleRsp
    rw [hcmd]
    dsimp only
    rw [handleNdefDetectRsp_ok hpeer hidm hblock]
  have hflat : [0].flatMap s.tag.blocks = s.tag.blocks 0 := List.append_nil _
  have hone : UInt8.ofNat [0].length = 1 := rfl
  rw [hflat, hone] at hexec
  unfold Sys.step
  rw [hp]
  unfold detectFrame
  dsimp only
  rw [hexec]
  dsimp only
  rw [hcback]
  rfl

theorem detect_spec (hidle : s.cb.rwState = .idle) (hidm : s.tag.idm.length = 8)
    (hblock : (s.tag.blocks 0).length = 16) :
    s.detect.tag = s.tag ∧ s.detect.cb = detectedCb s ∧ s.detect.pending = none ∧
      s.detect.events = [(detectAttr s.cb.ndefAttrib (s.tag.blocks 0 ++ [0])).2] := by
  have hstep := @step_detect ⟨s.tag, { s.cb with
      curCmd := .detectNdef
      rwState := .commandPending
      w4NdefDetectPollRsp := false
      peerNdefNfcid2 := s.tag.idm }, some (detectFrame s.tag.idm), [detectFrame s.tag.idm], []⟩
    hidm hblock rfl rfl rfl rfl
  unfold Sys.detect
  rw [polled_spec hidle hidm, hstep]
  exact ⟨rfl, rfl, rfl, rfl⟩

def Detected (s : Sys) : Prop := ∃ curSize maxSize, s.events = [.ndefDetect .ok curSize maxSize]

theorem parseAttr_append {bs : Bytes} (h : bs.length = 16) (rest : Bytes) : parseAttr (bs ++ rest) = parseAttr bs := by
  have hget : ∀ k, k < 16 → (bs ++ rest).getD k 0 = bs.getD k 0 := by
    intro k hk
    rw [List.getD_append _ _ _ _ (by omega)]
  unfold parseAttr be16At
  rw [hget 0 (by decide), hget 1 (by decide), hget 2 (by decide), hget 3 (by decide), hget (3 + 1) (by decide),
    hget 9 (by decide), hget 10 (by decide), hget 11 (by decide), hget 12 (by decide), hget (12 + 1) (by decide)]

theorem fits_parseAttr (bs : Bytes) : (parseAttr bs).Fits := by
  have hbyte : ∀ k, (bs.getD k 0).toNat < 256 := fun k => UInt8.toNat_lt _
  refine ⟨hbyte 1, hbyte 2, ?_⟩
  have h3 := hbyte 3
  have h4 := hbyte 4
  show (bs.getD 3 0).toNat * 2 ^ 8 + (bs.getD 4 0).toNat < 65536
  omega

theorem ln_parseAttr_lt (bs : Bytes) : (parseAttr bs).ln < 2 ^ 24 := by
  have hbyte : ∀ k, (bs.getD k 0).toNat < 256 := fun k => UInt8.toNat_lt _
  have h11 := hbyte 11
  have h12 := hbyte 12
  have h13 := hbyte 13
  show (bs.getD 12 0).toNat * 2 ^ 8 + (bs.getD 13 0).toNat + (bs.getD 11 0).toNat * 2 ^ 16 < 16777216
  omega

theorem accepted_of_detected {old : Detect} {bs : Bytes} {curSize maxSize : Nat}
    (h : (detectAttr old bs).2 = .ndefDetect .ok curSize maxSize) :
    (detectAttr old bs).1 = parseAttr bs ∧ (parseAttr bs).Accepted := by
  unfold detectAttr at h ⊢
  split at h
  · cases h
  rename_i hsum
  rw [if_neg hsum]
  split at h
  · cases h
  rename_i hversion
  rw [if_neg hversion]
  dsimp only at h ⊢
  split at h
  · cases h
  rename_i hmax
  rw [if_neg hmax]
  obtain ⟨hnbr, hnbw⟩ := not_or.mp hmax
  exact ⟨rfl, fits_parseAttr bs, Nat.not_lt.mp hnbr, Nat.not_lt.mp hnbw, rfl⟩

/-! ## Runs that have ended -/

theorem step_of_ended (h : s.pending = none) : s.step = s := by
  unfold Sys.step
  rw [h]

theorem after_of_ended (h : s.pending = none) (n : Nat) : Sys.after n s = s := by
  induction n with
  | zero => rfl
  | succ n ih => rw [after_succ, step_of_ended h, ih]

theorem after_add (m n : Nat) : ∀ s, Sys.after (m + n) s = Sys.after n (Sys.after m s) := by
  induction m with
  | zero =>
    intro s
    rw [Nat.zero_add]
    rfl
  | succ m ih =>
    intro s
    rw [Nat.succ_add, after_succ, after_succ, ih]

theorem after_unique {m n : Nat} (hm : (Sys.after m s).pending = none) (hn : (Sys.after n s).pending = none) :
    Sys.after m s = Sys.after n s := by
  rcases Nat.le_total m n with h | h
  · rw [← Nat.add_sub_cancel' h, after_add, after_of_ended hm]
  · rw [← Nat.add_sub_cancel' h, after_add, after_of_ended hn]

theorem mem_frames_step {f : Bytes} (h : f ∈ s.frames) : f ∈ s.step.frames := by
  unfold Sys.step
  split
  · exact h
  · split
    · exact List.mem_append_left _ h
    · exact h

theorem mem_frames_after {f : Bytes} (n : Nat) : ∀ {s : Sys}, f ∈ s.frames → f ∈ (Sys.after n s).frames := by
  induction n with
  | zero => exact fun h => h
  | succ n ih => exact fun h => ih (mem_frames_step h)

/-! ## Reading -/

def Reads (s : Sys) (msg : Bytes) : Prop :=
  (s.call checkNDef).1 = .ok ∧ ∃ n, ((s.call checkNDef).2.after n).pending = none ∧
    ∃ segs : List Bytes, ((s.call checkNDef).2.after n).events = segs.map Event.check ++ [.checkCplt .ok] ∧
      segs.flatten = msg

/-- The reader has the attributes of the tag, which has the message. -/
structure Readable (msg : Bytes) (s : Sys) : Prop where
  state : s.cb.rwState = .idle
  status : s.cb.ndefAttrib.status = .ok
  idm : s.cb.peerNdefNfcid2 = s.tag.idm
  idmLen : s.tag.idm.length = 8
  nbr : s.cb.ndefAttrib.nbr = s.tag.attr.nbr
  nbrMax : s.tag.attr.nbr ≤ 15
  ln : s.cb.ndefAttrib.ln = msg.length
  lnPos : 0 < msg.length
  fits : msg.length ≤ s.tag.attr.nmaxb * 16
  nmaxb : s.tag.attr.nmaxb < 65536
  written : Written s.tag msg (numBlocks msg)

/-- The system in which the first CHECK is sent. -/
def checkStart (s : Sys) : Sys :=
  ⟨s.tag, { s.cb with isFinalNdefSegment := false, ndefRxOffset := 0 }, none, [], []⟩

variable {msg : Bytes}

theorem call_checkNDef (h : Readable msg s) (hwritef : s.cb.ndefAttrib.writef ≠ writefOn) :
    s.call checkNDef = ((sendNextNdefCheckCmd (checkStart s).cb).1,
      Sys.emit (checkStart s) (sendNextNdefCheckCmd (checkStart s).cb).2) := by
  have hln : s.cb.ndefAttrib.ln ≠ 0 := by
    rw [h.ln]
    exact Nat.ne_of_gt h.lnPos
  have hcheck : checkNDef s.cb = sendNextNdefCheckCmd (checkStart s).cb := by
    unfold checkNDef
    rw [if_neg (not_not.mpr h.state), if_neg (not_not.mpr h.status), if_neg hln, if_neg hwritef]
    rfl
  unfold Sys.call
  rw [hcheck]
  rfl

theorem reads_of_readable (h : Readable msg s) (hwritef : s.cb.ndefAttrib.writef ≠ writefOn)
    (hnbr : 0 < s.tag.attr.nbr) : Reads s msg := by
  have hcheck : Checking msg (checkStart s) :=
    ⟨h.idm, h.idmLen, h.nbr, hnbr, h.nbrMax, h.ln, h.fits, h.nmaxb, h.written⟩
  obtain ⟨hok, n, hpending, segs, hev, hflat⟩ := check_completes (numBlocks msg) 0 (checkStart s) (by omega)
    (by have := h.lnPos; omega) hcheck rfl rfl
  unfold Reads
  rw [call_checkNDef h hwritef]
  exact ⟨hok, n, hpending, segs, hev, hflat⟩

theorem not_reads_writef (hwritef : s.cb.ndefAttrib.writef = writefOn) : ¬ Reads s msg := by
  rintro ⟨hok, -⟩
  have hcall : (checkNDef s.cb).1 = .ok := hok
  unfold checkNDef at hcall
  split at hcall
  · cases hcall
  split at hcall
  · cases hcall
  split at hcall
  · cases hcall
  cases hcall

theorem not_reads_nbr (h : Readable msg s) (hwritef : s.cb.ndefAttrib.writef ≠ writefOn)
    (hnbr : s.tag.attr.nbr = 0) : ¬ Reads s msg := by
  have hpos := h.lnPos
  have hfits := h.fits
  have hnmaxb := h.nmaxb
  have hzero : (checkStart s).cb.ndefAttrib.nbr = 0 := h.nbr.trans hnbr
  have hspec := @sendNextNdefCheckCmd_spec (checkStart s).cb msg.length 0 h.ln rfl rfl (by omega) (by omega) (by omega)
  rw [if_neg (by omega), hzero] at hspec
  obtain ⟨s₁, hs₁⟩ : ∃ s₁, s₁ = Sys.emit (checkStart s) (checkCb (checkStart s).cb (0 * 16) false,
      [.frame (checkFrame s.tag.idm s.cb.ndefAttrib.rwflag 0 0)]) := ⟨_, rfl⟩
  have hcall : s.call checkNDef = (.ok, s₁) := by
    rw [call_checkNDef h hwritef, hspec, hs₁, ← h.idm]
    rfl
  have htag : s₁.tag = s.tag := by rw [hs₁]; rfl
  have hrefused : ¬ s₁.tag.accepts s₁.tag.attr.nbr (List.range' (0 + 1) 0) := by
    rintro ⟨⟨hone, -⟩ | hnil, -⟩
    · exact absurd hone (by decide)
    · cases hnil
  have hstep := step_check_refused (by rw [htag]; exact h.idmLen) (Nat.zero_le 15) (by decide)
    (show s₁.pending = some (checkFrame s₁.tag.idm s.cb.ndefAttrib.rwflag 0 0) by rw [htag, hs₁]; rfl)
    (by rw [hs₁]; rfl) (by rw [hs₁]; rfl) hrefused
  rintro ⟨-, n, hend, segs, hev, -⟩
  rw [hcall] at hend hev
  cases n with
  | zero =>
    rw [hs₁] at hend
    cases hend
  | succ n =>
    rw [after_succ, hstep, after_of_ended rfl] at hev
    have hevents : (Sys.emit s₁ (checkCplt s₁.cb .failed)).events = [.checkCplt .failed] := by
      rw [hs₁]
      rfl
    rw [hevents] at hev
    have hlast := congrArg List.getLast? hev
    rw [List.getLast?_append] at hlast
    cases hlast

theorem reads_iff (h : Readable msg s) :
    Reads s msg ↔ 0 < s.tag.attr.nbr ∧ s.cb.ndefAttrib.writef ≠ writefOn := by
  constructor
  · intro hr
    have hwritef : s.cb.ndefAttrib.writef ≠ writefOn := fun hon => not_reads_writef hon hr
    refine ⟨Nat.pos_of_ne_zero fun hzero => not_reads_nbr h hwritef hzero hr, hwritef⟩
  · rintro ⟨hnbr, hwritef⟩
    exact reads_of_readable h hwritef hnbr

/-! ## Writing -/

/-- The system in which a message is about to be written. -/
def updateStart (s : Sys) (msg : Bytes) : Sys :=
  ⟨s.tag, { s.cb with
    isFinalNdefSegment := false
    ndefMsgBytesSent := 0
    ndefMsgLen := msg.length
    ndefMsg := msg }, none, [], []⟩

def startFrame (idm : Bytes) (a : Detect) : Bytes :=
  cmdFrame idm opcUpdateCmd ndefScRw [twoByteFormat, 0] 1 (attrInfo a writefOn a.ln)

structure Found (a : Detect) (s : Sys) : Prop where
  accepted : a.Accepted
  attr : s.tag.attr = a
  attrib : s.cb.ndefAttrib = a
  state : s.cb.rwState = .idle
  idm : s.cb.peerNdefNfcid2 = s.tag.idm
  idmLen : s.tag.idm.length = 8

theorem call_updateNDef {a : Detect} (h : Found a s)
    (hacc : (s.call (updateNDef msg)).1 = .ok) : msg.length ≤ a.nmaxb * 16 ∧
      (s.call (updateNDef msg)).2 = Sys.emit (updateStart s msg)
        ({ (updateStart s msg).cb with curCmd := .updateNdef, rwState := .commandPending },
          [.frame (startFrame s.tag.idm a)]) := by
  have hok : (updateNDef msg s.cb).1 = .ok := hacc
  unfold Sys.call
  dsimp only
  unfold updateNDef at hok ⊢
  split at hok
  · cases hok
  rename_i hidle
  split at hok
  · cases hok
  rename_i hstatus
  split at hok
  · cases hok
  rename_i hfits
  split at hok
  · cases hok
  rename_i hrw
  rw [if_neg hidle, if_neg hstatus, if_neg hfits, if_neg hrw]
  rw [h.attrib] at hfits
  refine ⟨Nat.not_lt.mp hfits, ?_⟩
  unfold sendUpdateNdefAttributeCmd startFrame
  dsimp only
  rw [if_pos rfl, sendCmd_frame, ← h.idm, ← h.attrib]
  rfl

theorem update_run {a : Detect} (h : Found a s) (hnbw : 0 < a.nbw)
    (hacc : (s.call (updateNDef msg)).1 = .ok) :
    ∃ n, Completed a msg (updateStart s msg) ((s.call (updateNDef msg)).2.after n) := by
  obtain ⟨hfits, hcall⟩ := call_updateNDef h hacc
  obtain ⟨s₁, hs₁⟩ : ∃ s₁, s₁ = (s.call (updateNDef msg)).2 := ⟨_, rfl⟩
  rw [← hs₁] at hcall ⊢
  have h₁ : Updating a msg s₁ := by
    rw [hcall]
    exact ⟨⟨h.idm, h.idmLen, congrArg Detect.nbr h.attr, congrArg Detect.nbw h.attr, congrArg Detect.nmaxb h.attr⟩,
      h.attrib, rfl, rfl, rfl, rfl⟩
  have hlen : (attrInfo a writefOn a.ln).length = 16 := rfl
  have hln : a.ln < 2 ^ 24 := by
    rw [← h.attr]
    exact ln_parseAttr_lt _
  have hstep := step_update h₁ (show s₁.pending = some (cmdFrame s₁.tag.idm opcUpdateCmd ndefScRw [twoByteFormat, 0] 1
      (attrInfo a writefOn a.ln)) by rw [hcall]; rfl) (by decide) (by rw [hlen]; decide)
    (parse_block0 _) (accepts_block0 s₁.tag _) rfl
  obtain ⟨s₂, hs₂⟩ : ∃ s₂, s₂ = { s₁ with tag := { s₁.tag with
      blocks := writeBlocks s₁.tag.blocks [0] (attrInfo a writefOn a.ln) } } := ⟨_, rfl⟩
  have hattr : s₂.tag.attr = ⟨.ok, ndefVersion, a.nbr, a.nbw, a.nmaxb, writefOn, a.rwflag, a.ln⟩ := by
    rw [hs₂, ← parseAttr_attrInfo h.accepted.toFits writefOn hln]
    show parseAttr (Function.update s₁.tag.blocks 0 ((attrInfo a writefOn a.ln).take 16) 0) = _
    rw [Function.update_self, List.take_of_length_le (Nat.le_of_eq hlen)]
  have h₂ : Updating a msg s₂ := by
    refine ⟨⟨?_, ?_, by rw [hattr], by rw [hattr], by rw [hattr]⟩, ?_, ?_, ?_, ?_, ?_⟩
    · rw [hs₂]; exact h₁.idm
    · rw [hs₂]; exact h₁.idmLen
    · rw [hs₂]; exact h₁.attrib
    · rw [hs₂]; exact h₁.pending
    · rw [hs₂]; exact h₁.cmd
    · rw [hs₂]; exact h₁.msgEq
    · rw [hs₂]; exact h₁.msgLen
  obtain ⟨n, hn⟩ := update_completes h.accepted hnbw hfits (numBlocks msg) 0 s₂ (by omega) (Nat.zero_le _) h₂
    (by rw [hs₂, hcall]; rfl) (by rw [hs₂, hcall]; rfl) (fun j hj => absurd hj (Nat.not_lt_zero j))
  have hcb : s₂.cb = s₁.cb := by rw [hs₂]
  rw [hcb] at hn
  refine ⟨n + 1, ?_⟩
  rw [after_succ, hstep, ← hs₂]
  obtain ⟨fs, hfs, hok⟩ := hn.frames
  refine ⟨hn.pending, ?_, ⟨startFrame s.tag.idm a :: fs, ?_, ?_⟩, hn.written, hn.block0, ?_, hn.peer, hn.state, hn.attrib⟩
  · rw [hn.events, hs₂, hcall]
    rfl
  · rw [hfs, hs₂, hcall]
    rfl
  · intro f hf
    rcases List.mem_cons.mp hf with rfl | hf
    · exact frameOk_block0 h.idmLen rfl hnbw
    · exact hok f hf
  · rw [hn.idm, hs₂, hcall]
    rfl

/-! ## Both -/

/-- The message is written with frames that the tag and the air allow, and read back: at once, and after
another detection. -/
def RoundTrips (s : Sys) (msg : Bytes) : Prop :=
  ∃ n, ((s.call (updateNDef msg)).2.after n).pending = none ∧
    ((s.call (updateNDef msg)).2.after n).events = [.updateCplt .ok] ∧
    (∀ f ∈ ((s.call (updateNDef msg)).2.after n).frames, FrameOk s.tag.attr f) ∧
    Reads ((s.call (updateNDef msg)).2.after n) msg ∧ Reads ((s.call (updateNDef msg)).2.after n).detect msg

theorem found_detect {s : Sys} (hidle : s.cb.rwState = .idle) (hidm : s.tag.idm.length = 8)
    (hblock : (s.tag.blocks 0).length = 16) (hdet : Detected s.detect) : Found s.tag.attr s.detect := by
  obtain ⟨htag, hcb, -, hev⟩ := detect_spec hidle hidm hblock
  obtain ⟨curSize, maxSize, hok⟩ := hdet
  rw [hev] at hok
  obtain ⟨hattr, hacc⟩ := accepted_of_detected (List.cons.inj hok).1
  have hparse : parseAttr (s.tag.blocks 0 ++ [0]) = s.tag.attr := parseAttr_append hblock [0]
  rw [hparse] at hattr hacc
  refine ⟨hacc, by rw [htag], ?_, by rw [hcb]; rfl, by rw [hcb, htag]; rfl, by rw [htag]; exact hidm⟩
  rw [hcb]
  exact hattr

/-- Written, the message can be read: the flag of the attributes is as it was detected. -/
theorem readable_completed {a : Detect} {s w : Sys} (h : Found a s) (hpos : 0 < msg.length)
    (hfits : msg.length ≤ a.nmaxb * 16) (hw : Completed a msg (updateStart s msg) w) :
    Readable msg w ∧ w.tag.attr.nbr = a.nbr ∧ w.cb.ndefAttrib.writef = a.writef := by
  have hnmaxb := h.accepted.nmaxb
  have hattr : w.tag.attr = ⟨.ok, ndefVersion, a.nbr, a.nbw, a.nmaxb, writefOff, a.rwflag, msg.length⟩ := by
    rw [← parseAttr_attrInfo h.accepted.toFits writefOff (show msg.length < 2 ^ 24 by omega), ← hw.block0]
    rfl
  have hidm : w.tag.idm = s.tag.idm := hw.idm
  refine ⟨⟨hw.state, ?_, hw.peer, by rw [hidm]; exact h.idmLen, ?_, ?_, ?_, hpos, ?_, ?_, hw.written⟩, by rw [hattr], ?_⟩
  · rw [hw.attrib]
    exact h.accepted.status
  · rw [hw.attrib, hattr]
  · rw [hattr]
    exact h.accepted.nbrMax
  · rw [hw.attrib]
  · rw [hattr]
    exact hfits
  · rw [hattr]
    exact hnmaxb
  · rw [hw.attrib]

theorem readable_detect {a : Detect} {s w : Sys} (h : Found a s) (hpos : 0 < msg.length)
    (hfits : msg.length ≤ a.nmaxb * 16) (hw : Completed a msg (updateStart s msg) w) :
    Readable msg w.detect ∧ w.detect.tag.attr.nbr = a.nbr ∧ w.detect.cb.ndefAttrib.writef = writefOff := by
  obtain ⟨hread, hnbr, -⟩ := readable_completed h hpos hfits hw
  have hnmaxb := h.accepted.nmaxb
  have hlen : (w.tag.blocks 0).length = 16 := by
    rw [hw.block0]
    rfl
  obtain ⟨htag, hcb, -, -⟩ := detect_spec hw.state hread.idmLen hlen
  have hdet := detectAttr_attrInfo h.accepted.toFits h.accepted.nbrMax h.accepted.nbwMax w.cb.ndefAttrib writefOff
    (show msg.length < 2 ^ 24 by omega) [0]
  have hattrib : w.detect.cb.ndefAttrib =
      ⟨.ok, ndefVersion, a.nbr, a.nbw, a.nmaxb, writefOff, a.rwflag, msg.length⟩ := by
    rw [hcb]
    unfold detectedCb
    dsimp only
    rw [hw.block0, hdet]
  have hstate : w.detect.cb.rwState = .idle := by
    rw [hcb]
    rfl
  have hpeer : w.detect.cb.peerNdefNfcid2 = w.tag.idm := by
    rw [hcb]
    rfl
  rw [hattrib]
  refine ⟨⟨hstate, by rw [hattrib], by rw [hpeer, htag], by rw [htag]; exact hread.idmLen, ?_, ?_, by rw [hattrib], hpos,
    ?_, ?_, ?_⟩, by rw [htag]; exact hnbr, rfl⟩
  · rw [hattrib, htag]
    exact hnbr.symm
  · rw [htag]
    exact hread.nbrMax
  · rw [htag]
    exact hread.fits
  · rw [htag]
    exact hread.nmaxb
  · rw [htag]
    exact hread.written

/-- For every tag that is detected, and every message that is accepted: the message is written and read
back if and only if the tag may be read and written, and no write was in progress when it was detected. -/
theorem t3t_round_trip (s : Sys) (msg : Bytes) (hidle : s.cb.rwState = .idle) (hidm : s.tag.idm.length = 8)
    (hblock : (s.tag.blocks 0).length = 16) (hdet : Detected s.detect) (hpos : 0 < msg.length)
    (hacc : (s.detect.call (updateNDef msg)).1 = .ok) :
    RoundTrips s.detect msg ↔ 0 < s.tag.attr.nbr ∧ 0 < s.tag.attr.nbw ∧ s.tag.attr.writef ≠ writefOn := by
  have h := found_detect hidle hidm hblock hdet
  obtain ⟨hfits, hcall⟩ := call_updateNDef h hacc
  have hattr : s.detect.tag.attr = s.tag.attr := h.attr
  constructor
  · rintro ⟨n, hend, -, hframes, hread, -⟩
    -- the first frame has a block
    have hnbw : 0 < s.tag.attr.nbw := by
      have hmem : startFrame s.detect.tag.idm s.tag.attr ∈ ((s.detect.call (updateNDef msg)).2.after n).frames := by
        apply mem_frames_after
        rw [hcall]
        exact List.mem_append_right _ List.mem_cons_self
      have hok := (hframes _ hmem).blocks
      rw [hattr] at hok
      exact hok _ (parseFrame_cmd h.idmLen (by decide) (by decide) (show 14 + 2 + 16 < 256 by decide) (parse_block0 _))
    obtain ⟨m, hm⟩ := update_run h hnbw hacc
    rw [after_unique hend hm.pending] at hread
    obtain ⟨hreadable, hnbr, hwritef⟩ := readable_completed h hpos hfits hm
    rw [reads_iff hreadable, hnbr, hwritef] at hread
    exact ⟨hread.1, hnbw, hread.2⟩
  · rintro ⟨hnbr, hnbw, hwritef⟩
    obtain ⟨n, hn⟩ := update_run h hnbw hacc
    obtain ⟨hreadable, hnbr₁, hwritef₁⟩ := readable_completed h hpos hfits hn
    obtain ⟨hreadable', hnbr₂, hwritef₂⟩ := readable_detect h hpos hfits hn
    obtain ⟨fs, hfs, hok⟩ := hn.frames
    refine ⟨n, hn.pending, hn.events, ?_, ?_, ?_⟩
    · intro f hf
      rw [hattr]
      rw [hfs] at hf
      exact hok f hf
    · rw [reads_iff hreadable, hnbr₁, hwritef₁]
      exact ⟨hnbr, hwritef⟩
    · rw [reads_iff hreadable', hnbr₂, hwritef₂]
      exact ⟨hnbr, by decide⟩

/-- A tag that has just been selected: three blocks for a message, and one block in a command. -/
def selectedTag (writef : UInt8) : Sys where
  tag := ⟨[1, 2, 3, 4, 5, 6, 7, 8], fun k =>
    if k = 0 then attrInfo ⟨.ok, ndefVersion, 1, 1, 3, writef, 1, 0⟩ writef 0 else List.replicate 16 0⟩
  cb := ⟨.idle, .detectNdef, ⟨.notInitialized, 0, 0, 0, 0, 0, 0, 0⟩, [], 0, 0, 0, 0, [], false, false⟩
  pending := none
  frames := []
  events := []

theorem t3t_round_trip_selected : RoundTrips (selectedTag writefOff).detect [0xD0, 0x00, 0x00] :=
  (t3t_round_trip (selectedTag writefOff) [0xD0, 0x00, 0x00] rfl rfl rfl ⟨0, 48, by decide⟩ (by decide)
    (by decide)).mpr (by decide)

/-- A tag that was left in the middle of a write: the message is written, but not read. -/
theorem interrupted_tag_unread : ¬ ∀ (s : Sys) (msg : Bytes), s.cb.rwState = .idle → s.tag.idm.length = 8 →
    (s.tag.blocks 0).length = 16 → Detected s.detect → 0 < msg.length → (s.detect.call (updateNDef msg)).1 = .ok →
    RoundTrips s.detect msg := by
  intro hall
  have hacc : ((selectedTag writefOn).detect.call (updateNDef [0xD0, 0x00, 0x00])).1 = .ok := by decide
  have hdet : Detected (selectedTag writefOn).detect := ⟨0, 48, by decide⟩
  obtain ⟨n, hend, -, -, hread, -⟩ := hall (selectedTag writefOn) [0xD0, 0x00, 0x00] rfl rfl rfl hdet (by decide) hacc
  have h := @found_detect (selectedTag writefOn) rfl rfl rfl hdet
  obtain ⟨m, hm⟩ := update_run h (by decide) hacc
  rw [after_unique hend hm.pending] at hread
  have hwritef := (readable_completed h (by decide) (by decide) hm).2.2
  exact not_reads_writef (hwritef.trans (by decide)) hread

end NfcStack.Rw.T3t
