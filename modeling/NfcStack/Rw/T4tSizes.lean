import NfcStack.Rw.T4tReadBounds

/- The detection of a Type 4 tag tells how large the message is and how large it may become:
   the size of the file less that of the length. The capability container is checked before,
   but the size of the file only if the version is exactly 2.0 or 3.0, so that the difference
   may wrap around for another version.

   What is proved:
     1. `Reached.sized`: what is known of the container in every run.
     2. `detect_sizes_iff`: when the sizes that are told fit together.
     3. `detected_and_read`: the detection, and the reads that follow it, whatever the tag
        answers. -/
namespace NfcStack.Rw.T4t

/-! ## The sizes that a detection tells -/

structure Sized (cb : Cb) : Prop where
  file : cb.ccFile.ndefFc.maxFileSize < 2 ^ 32
  nlen : cb.ccFile.ndefFc.nlenSize ≤ 4
  valid : cb.subState = .waitSelectNdefFile ∨ cb.subState = .waitReadNlen →
    cb.ccFile.version = version20 ∨ cb.ccFile.version = version30 →
    cb.ccFile.ndefFc.nlenSize ≤ cb.ccFile.ndefFc.maxFileSize

/-- The control blocks of an activation, whatever the tag answers. -/
inductive Reached (dta : Bool) : Cb → Prop where
  | select : Reached dta (select dta)
  | detect {cb : Cb} (h : Reached dta cb) : Reached dta (detectNDef cb).2.1
  | read {cb : Cb} (h : Reached dta cb) : Reached dta (readNDef cb).2.1
  | update {cb : Cb} (msg : Bytes) (h : Reached dta cb) : Reached dta (updateNDef msg cb).2.1
  | response {cb : Cb} (rsp : Bytes) (h : Reached dta cb) : Reached dta (dataCback cb rsp).1

section Sizes
variable {cb cb' : Cb}

/-- The container stays, and the new step is none that it is to be valid for, or it is the old one. -/
theorem Sized.kept (h : Sized cb) (hcc : cb'.ccFile = cb.ccFile)
    (hsub : cb'.subState = cb.subState ∨ cb'.subState ≠ .waitSelectNdefFile ∧ cb'.subState ≠ .waitReadNlen) : Sized cb' := by
  refine ⟨by rw [hcc]; exact h.file, by rw [hcc]; exact h.nlen, fun hs => ?_⟩
  rw [hcc]
  rcases hsub with hsame | hnone
  · rw [hsame] at hs
    exact h.valid hs
  · exact absurd hs (by rintro (h | h); exacts [hnone.1 h, hnone.2 h])

theorem readFile_kept (cb : Cb) (offset length : Nat) (isContinue : Bool) :
    (readFile cb offset length isContinue).2.1.ccFile = cb.ccFile ∧
      (readFile cb offset length isContinue).2.1.subState = cb.subState := by
  unfold readFile sendToLower
  dsimp only
  split
  all_goals
    split
    · split <;> exact ⟨rfl, rfl⟩
    · split <;> exact ⟨rfl, rfl⟩

theorem selectApplication_kept (cb : Cb) (version : Nat) :
    (selectApplication cb version).2.1.ccFile = cb.ccFile ∧
      (selectApplication cb version).2.1.subState = cb.subState := by
  unfold selectApplication
  split
  · exact ⟨rfl, rfl⟩
  · split <;> exact ⟨rfl, rfl⟩

theorem orFailed_kept (cb : Cb) (offset length : Nat) (sub : SubState) :
    (orFailed (readFile cb offset length false) sub).1.ccFile = cb.ccFile ∧
      ((orFailed (readFile cb offset length false) sub).1.subState = cb.subState ∨
        (orFailed (readFile cb offset length false) sub).1.subState = sub) := by
  have hread := readFile_kept cb offset length false
  unfold orFailed
  split
  · exact ⟨hread.1, .inr rfl⟩
  · exact ⟨hread.1, .inl hread.2⟩

theorem sized_selectNdefFile {n : Nat} (hfile : cb.ccFile.ndefFc.maxFileSize < 2 ^ 32) (hn : n ≤ 4)
    (hvalid : validateCcFile cb = true) : Sized (selectNdefFile cb n).1 := by
  refine ⟨hfile, hn, fun _ hversion => ?_⟩
  have hversion' : cb.ccFile.version = version20 ∨ cb.ccFile.version = version30 := hversion
  show n ≤ cb.ccFile.ndefFc.maxFileSize
  simp only [validateCcFile, Bool.and_eq_true, Bool.not_eq_true', Bool.or_eq_false_iff, Bool.and_eq_false_iff,
    beq_eq_false_iff_ne, decide_eq_false_iff_not] at hvalid
  have hsize := hvalid.1.1.2
  rcases hversion' with h | h
  · rw [h] at hsize
    omega
  · rw [h] at hsize
    omega

theorem parsed_lt (bs : Bytes) (i : Nat) : be16At bs i < 2 ^ 32 ∧ be32At bs i < 2 ^ 32 :=
  ⟨(be16At_lt bs i).trans (by omega), be32At_lt bs i⟩

/-- A container that has not been found valid. -/
theorem sized_notDetected (hfile : cb.ccFile.ndefFc.maxFileSize < 2 ^ 32) (hnlen : cb.ccFile.ndefFc.nlenSize ≤ 4)
    (hsub : cb.subState ≠ .waitSelectNdefFile ∧ cb.subState ≠ .waitReadNlen) (status : Status) :
    Sized (notDetected cb status).1 :=
  ⟨hfile, hnlen, fun hs => absurd hs (by rintro (h | h); exacts [hsub.1 h, hsub.2 h])⟩

theorem sized_orFailed (h : Sized cb) (offset length : Nat) {sub : SubState}
    (hsub : sub ≠ .waitSelectNdefFile ∧ sub ≠ .waitReadNlen ∨ sub = .waitReadNlen ∧ cb.subState = .waitSelectNdefFile) :
    Sized (orFailed (readFile cb offset length false) sub).1 := by
  obtain ⟨hcc, hto⟩ := orFailed_kept cb offset length sub
  refine ⟨by rw [hcc]; exact h.file, by rw [hcc]; exact h.nlen, fun hs => ?_⟩
  rw [hcc]
  rcases hto with hto | hto
  · rw [hto] at hs
    exact h.valid hs
  · rw [hto] at hs
    rcases hsub with hnone | ⟨-, hsel⟩
    · exact absurd hs (by rintro (h | h); exacts [hnone.1 h, hnone.2 h])
    · exact h.valid (.inl hsel)

theorem sized_handleCcFile (h : Sized cb) (hsub : cb.subState = .waitCcFile) (rsp : Bytes) :
    Sized (handleCcFile cb rsp).1 := by
  have hother : cb.subState ≠ .waitSelectNdefFile ∧ cb.subState ≠ .waitReadNlen := by
    rw [hsub]
    exact ⟨nofun, nofun⟩
  unfold handleCcFile
  split
  case isFalse => exact sized_notDetected h.file h.nlen hother _
  dsimp only
  split
  · split
    case isTrue hvalid => exact sized_selectNdefFile (parsed_lt rsp _).1 (by decide) hvalid
    case isFalse =>
      refine sized_notDetected ?_ ?_ ?_ _
      exacts [(parsed_lt rsp _).1, h.nlen, hother]
  split
  · apply sized_orFailed
    · exact ⟨h.file, h.nlen, fun hs => absurd hs (by rintro (h | h); exacts [hother.1 h, hother.2 h])⟩
    · exact .inl ⟨by decide, by decide⟩
  · refine sized_notDetected ?_ ?_ ?_ _
    exacts [h.file, h.nlen, hother]

theorem sized_handleEndefFileCtrlTlv (h : Sized cb) (hsub : cb.subState = .waitEndefFileCtrlTlv) (rsp : Bytes) :
    Sized (handleEndefFileCtrlTlv cb rsp).1 := by
  have hother : cb.subState ≠ .waitSelectNdefFile ∧ cb.subState ≠ .waitReadNlen := by
    rw [hsub]
    exact ⟨nofun, nofun⟩
  unfold handleEndefFileCtrlTlv
  split
  case isFalse => exact sized_notDetected h.file h.nlen hother _
  dsimp only
  split
  case isTrue hvalid => exact sized_selectNdefFile (parsed_lt rsp _).2 (Nat.le_refl 4) hvalid
  case isFalse =>
    refine sized_notDetected ?_ ?_ ?_ _
    exacts [(parsed_lt rsp _).2, h.nlen, hother]

theorem sized_detect (h : Sized cb) (rsp : Bytes) : Sized (smDetectNdef cb rsp).1 := by
  unfold smDetectNdef
  split
  · split
    · exact h.kept rfl (.inl rfl)
    · exact h.kept rfl (.inl rfl)
  split
  case h_1 => exact h.kept rfl (.inr ⟨nofun, nofun⟩)
  case h_2 => exact sized_orFailed h _ _ (.inl ⟨nofun, nofun⟩)
  case h_3 hsub => exact sized_handleCcFile h hsub rsp
  case h_4 hsub => exact sized_handleEndefFileCtrlTlv h hsub rsp
  case h_5 hsub => exact sized_orFailed h _ _ (.inr ⟨rfl, hsub⟩)
  case h_6 =>
    unfold handleReadNlen
    dsimp only
    generalize (if cb.ccFile.ndefFc.nlenSize = 2 then be16At rsp 0 else be32At rsp 0) = nlen
    split
    · split
      · exact h.kept rfl (.inl rfl)
      · exact h.kept rfl (.inl rfl)
    · exact h.kept rfl (.inl rfl)
  all_goals exact h.kept rfl (.inl rfl)

theorem deliver_kept (cb : Cb) (data : Bytes) :
    (deliver cb data).1.ccFile = cb.ccFile ∧ (deliver cb data).1.subState = cb.subState := by
  have hread := readFile_kept cb cb.rwOffset cb.rwLength true
  unfold deliver
  split
  · dsimp only
    split
    · exact hread
    · exact hread
  · exact ⟨rfl, rfl⟩

theorem consume_kept (cb : Cb) (len : Nat) :
    (consume cb len).ccFile = cb.ccFile ∧ (consume cb len).subState = cb.subState := by
  unfold consume
  split <;> exact ⟨rfl, rfl⟩

theorem deliver_consume_kept (cb : Cb) (len : Nat) (data : Bytes) :
    (deliver (consume cb len) data).1.ccFile = cb.ccFile ∧
      (deliver (consume cb len) data).1.subState = cb.subState :=
  ⟨(deliver_kept _ data).1.trans (consume_kept cb len).1, (deliver_kept _ data).2.trans (consume_kept cb len).2⟩

theorem deliverDdo_kept (cb : Cb) (rsp : Bytes) (head expected : Nat) :
    (deliverDdo cb rsp head expected).1.ccFile = cb.ccFile ∧
      (deliverDdo cb rsp head expected).1.subState = cb.subState := by
  unfold deliverDdo
  dsimp only
  split
  · exact deliver_consume_kept cb _ _
  · exact ⟨rfl, rfl⟩

theorem smReadNdef_kept (cb : Cb) (rsp : Bytes) :
    (smReadNdef cb rsp).1.ccFile = cb.ccFile ∧ (smReadNdef cb rsp).1.subState = cb.subState := by
  unfold smReadNdef
  split
  · exact ⟨rfl, rfl⟩
  split
  · exact ⟨rfl, rfl⟩
  split
  · unfold handleDdo
    split
    case isFalse => exact ⟨rfl, rfl⟩
    split
    · exact deliverDdo_kept cb rsp _ _
    split
    · split
      · exact deliverDdo_kept cb rsp _ _
      · exact ⟨rfl, rfl⟩
    split
    · split
      · exact deliverDdo_kept cb rsp _ _
      · exact deliver_kept cb _
    · exact ⟨rfl, rfl⟩
  · dsimp only
    split
    · exact deliver_consume_kept cb _ _
    split
    · split
      · unfold formatShortFieldCoding
        split <;> exact ⟨rfl, rfl⟩
      · exact ⟨rfl, rfl⟩
    · exact ⟨rfl, rfl⟩

theorem updateFile_kept (cb : Cb) (msg : Bytes) :
    (updateFile cb msg).2.1.ccFile = cb.ccFile ∧ (updateFile cb msg).2.1.subState = cb.subState := by
  unfold updateFile
  split
  · exact ⟨rfl, rfl⟩
  dsimp only
  split
  · split
    · unfold setBerTlv
      dsimp only
      split <;> exact ⟨rfl, rfl⟩
    · exact ⟨rfl, rfl⟩
  · exact ⟨rfl, rfl⟩

theorem sendPart_kept (cb : Cb) (msg : Bytes) :
    (sendPart cb msg).1.ccFile = cb.ccFile ∧ (sendPart cb msg).1.subState = cb.subState := by
  have hsend := updateFile_kept cb msg
  unfold sendPart
  dsimp only
  split <;> exact hsend

theorem sized_update (h : Sized cb) (rsp : Bytes) : Sized (smUpdateNdef cb rsp).1 := by
  unfold smUpdateNdef
  split
  · exact h.kept rfl (.inl rfl)
  split
  · split
    · exact h.kept (sendPart_kept _ _).1 (.inr (by rw [(sendPart_kept _ _).2]; exact ⟨nofun, nofun⟩))
    · exact h.kept rfl (.inl rfl)
  · split
    · exact h.kept (sendPart_kept _ _).1 (.inl (sendPart_kept _ _).2)
    · exact h.kept rfl (.inr ⟨nofun, nofun⟩)
  · exact h.kept rfl (.inl rfl)

theorem Reached.sized {dta : Bool} {cb : Cb} (h : Reached dta cb) : Sized cb := by
  induction h with
  | select => exact ⟨Nat.zero_lt_succ _, Nat.zero_le 4, by rintro (h | h) <;> exact absurd h nofun⟩
  | detect h ih =>
    unfold detectNDef
    split
    · exact ih
    split
    · exact ih.kept rfl (.inr ⟨nofun, nofun⟩)
    · dsimp only
      split
      case isTrue => exact ih.kept (selectApplication_kept _ _).1 (.inr ⟨nofun, nofun⟩)
      case isFalse => exact ih.kept (selectApplication_kept _ _).1 (.inl (selectApplication_kept _ _).2)
  | read h ih =>
    rename_i cb
    have hread := readFile_kept cb cb.ccFile.ndefFc.nlenSize cb.ndefLength false
    unfold readNDef
    split
    · exact ih
    split
    · dsimp only
      split
      · exact ih.kept hread.1 (.inr ⟨nofun, nofun⟩)
      · exact ih.kept hread.1 (.inl hread.2)
    · exact ih
  | update msg h ih =>
    unfold updateNDef
    split
    · exact ih
    split
    · exact ih
    split
    · exact ih
    split
    · exact ih
    · exact ih.kept rfl (.inr ⟨nofun, nofun⟩)
  | response rsp h ih =>
    unfold dataCback
    split
    · exact ih.kept rfl (.inl rfl)
    split
    · exact sized_detect ih rsp
    · exact ih.kept (smReadNdef_kept _ rsp).1 (.inl (smReadNdef_kept _ rsp).2)
    · exact sized_update ih rsp
    · exact ih
    · exact ih

def Untold (outs : List Out) : Prop := ∀ cur max ro, .event (.ndefDetect .ok cur max ro) ∉ outs

theorem untold_frame (f : Apdu) : Untold [.frame f] := by
  intro cur max ro h
  simp at h

theorem untold_handleError (cb : Cb) {status : Status} (hne : status ≠ .ok) : Untold (handleError cb status).2 := by
  intro cur max ro h
  unfold handleError at h
  dsimp only at h
  split at h
  all_goals
    simp at h
    try exact hne h.1.symm

theorem untold_badResp (cb : Cb) : Untold (notDetected cb .badResp).2 := untold_handleError _ nofun

theorem untold_orFailed (cb : Cb) (offset length : Nat) (sub : SubState) :
    Untold (orFailed (readFile cb offset length false) sub).2 := by
  have hread : (∃ f, (readFile cb offset length false).2.2 = [.frame f]) ∨ (readFile cb offset length false).1 = false := by
    unfold readFile sendToLower
    dsimp only
    rw [if_neg Bool.false_ne_true]
    split
    · split
      · exact .inl ⟨_, rfl⟩
      · exact .inr rfl
    · split <;> exact .inl ⟨_, rfl⟩
  unfold orFailed
  split
  case isTrue hok =>
    rcases hread with ⟨f, hf⟩ | hno
    · rw [hf]
      exact untold_frame f
    · exact absurd hok (by rw [hno]; exact nofun)
  case isFalse => exact untold_handleError _ nofun

/-- A detection is told to have been successful when the length of the message has been read. -/
theorem smDetectNdef_untold {rsp : Bytes} (h : cb.subState ≠ .waitReadNlen) : Untold (smDetectNdef cb rsp).2 := by
  unfold smDetectNdef
  split
  · split
    · exact untold_frame _
    · exact untold_handleError _ nofun
  split
  case h_1 => exact untold_frame _
  case h_2 => exact untold_orFailed cb _ _ _
  case h_3 =>
    unfold handleCcFile
    split
    case isFalse => exact untold_handleError _ nofun
    dsimp only
    split
    · split
      · exact untold_frame _
      · exact untold_handleError _ nofun
    split
    · exact untold_orFailed _ _ _ _
    · exact untold_handleError _ nofun
  case h_4 =>
    unfold handleEndefFileCtrlTlv
    split
    case isFalse => exact untold_handleError _ nofun
    dsimp only
    split
    · exact untold_frame _
    · exact untold_handleError _ nofun
  case h_5 => exact untold_orFailed cb _ _ _
  case h_6 hsub => exact absurd hsub h
  all_goals exact untold_handleError _ nofun

def SizesFit (cb : Cb) (curSize maxSize : Nat) : Prop :=
  curSize ≤ maxSize ∧ maxSize + cb.ccFile.ndefFc.nlenSize = cb.ccFile.ndefFc.maxFileSize

theorem nlen_sizes_iff (h : Sized cb) {rsp : Bytes} {cur max : Nat} {ro : Bool}
    (hev : .event (.ndefDetect .ok cur max ro) ∈ (handleReadNlen cb rsp).2) :
    SizesFit cb cur max ↔ cb.ccFile.ndefFc.nlenSize ≤ cb.ccFile.ndefFc.maxFileSize := by
  have hfile := h.file
  have hnlen := h.nlen
  unfold handleReadNlen at hev
  dsimp only at hev
  generalize (if cb.ccFile.ndefFc.nlenSize = 2 then be16At rsp 0 else be32At rsp 0) = nlen at hev
  split at hev
  case isFalse => exact absurd hev (untold_badResp cb _ _ _)
  split at hev
  case isFalse => exact absurd hev (untold_badResp cb _ _ _)
  case isTrue hle =>
    simp only [List.mem_singleton, Out.event.injEq, Event.ndefDetect.injEq, true_and] at hev
    obtain ⟨rfl, rfl, -⟩ := hev
    unfold SizesFit sub32 at *
    constructor
    · rintro ⟨-, hsum⟩
      omega
    · intro hfit
      omega

/-- The sizes that a detection tells fit together exactly if the file has room for the length of the message; in a
container of version 2.0 or 3.0 it has. -/
theorem detect_sizes_iff (h : Sized cb) {rsp : Bytes} {cur max : Nat} {ro : Bool}
    (hev : .event (.ndefDetect .ok cur max ro) ∈ (smDetectNdef cb rsp).2) :
    (SizesFit cb cur max ↔ cb.ccFile.ndefFc.nlenSize ≤ cb.ccFile.ndefFc.maxFileSize) ∧
      (cb.ccFile.version = version20 ∨ cb.ccFile.version = version30 →
        cb.ccFile.ndefFc.nlenSize ≤ cb.ccFile.ndefFc.maxFileSize) := by
  by_cases hsub : cb.subState = .waitReadNlen
  case neg => exact absurd hev (smDetectNdef_untold hsub _ _ _)
  refine ⟨?_, h.valid (.inr hsub)⟩
  unfold smDetectNdef at hev
  rw [hsub] at hev
  split at hev
  case isFalse => exact nlen_sizes_iff h hev
  case isTrue =>
    split at hev
    case isTrue hsel => exact absurd hsel.1 nofun
    case isFalse =>
      have huntold : Untold (notDetected cb .cmdNotCmpltd).2 := untold_handleError _ nofun
      exact absurd hev (huntold _ _ _)

end Sizes

/-! ## Detected and read -/

theorem awaits_readNDef {cb cb₀ : Cb} {outs : List Out} (h : readNDef cb = (.ok, cb₀, outs)) :
    AwaitsData cb₀ ∧ cb₀.rwLength = cb.ndefLength := by
  unfold readNDef at h
  split at h
  case isTrue => exact absurd (congrArg Prod.fst h) nofun
  split at h
  case isFalse => exact absurd (congrArg Prod.fst h) nofun
  rw [readFile_false] at h
  rcases continueRead_cases { cb with rwOffset := cb.ccFile.ndefFc.nlenSize, rwLength := cb.ndefLength } with
    ⟨f, ddo, hsend, hshort⟩ | hrefused
  · dsimp only at hsend
    rw [hsend] at h
    obtain rfl := congrArg (·.2.1) h
    exact ⟨⟨rfl, rfl, fun hd he => ⟨f, rfl, hshort hd he⟩⟩, rfl⟩
  · dsimp only at hrefused
    rw [hrefused] at h
    exact absurd (congrArg Prod.fst h) nofun

/-- A tag that may answer anything, detected and read: the sizes that are told fit together exactly if the file has
room for the length of the message, and a read ends and hands on what was announced if the bytes of every response are
counted. -/
theorem detected_and_read {dta : Bool} {cb : Cb} (hcb : Reached dta cb) :
    (∀ rsp cur max ro, .event (.ndefDetect .ok cur max ro) ∈ (smDetectNdef cb rsp).2 →
      (SizesFit cb cur max ↔ cb.ccFile.ndefFc.nlenSize ≤ cb.ccFile.ndefFc.maxFileSize) ∧
        (cb.ccFile.version = version20 ∨ cb.ccFile.version = version30 →
          cb.ccFile.ndefFc.nlenSize ≤ cb.ccFile.ndefFc.maxFileSize)) ∧
    ∀ cb₀ outs rsps, readNDef cb = (.ok, cb₀, outs) → (∀ i, 2 ≤ (rsps i).length ∧ (rsps i).length < 2 ^ 16) →
      (∀ i, ¬ Uncounted (after cb₀ rsps i) (rsps i)) → Bounded cb₀ rsps cb.ndefLength := by
  refine ⟨fun rsp cur max ro hev => detect_sizes_iff hcb.sized hev, fun cb₀ outs rsps hread hlen hcounted => ?_⟩
  obtain ⟨hawait, hlength⟩ := awaits_readNDef hread
  rw [← hlength]
  exact bounded_of_counted hawait hlen hcounted

/-- The reader after a detection that was answered with `rsps`. -/
def detectedWith (rsps : List Bytes) : Cb := rsps.foldl (fun cb rsp => (dataCback cb rsp).1) (detectNDef (select false)).2.1

theorem reached_detectedWith (rsps : List Bytes) : Reached false (detectedWith rsps) := by
  unfold detectedWith
  generalize hcb : (detectNDef (select false)).2.1 = cb
  have h : Reached false cb := hcb ▸ .detect .select
  clear hcb
  induction rsps generalizing cb with
  | nil => exact h
  | cons rsp rsps ih => exact ih _ (.response rsp h)

/-- A tag of version 3.0 whose message has 0x7FFE bytes. -/
def wideAnswers : List Bytes :=
  [[0x90, 0x00], [0x90, 0x00],
    [0x00, 0x0F, 0x30, 0x00, 0xFF, 0x00, 0xFF, 0x04, 0x06, 0xE1, 0x04, 0x80, 0x00, 0x00, 0x00, 0x90, 0x00],
    [0x90, 0x00], [0x7F, 0xFE, 0x90, 0x00]]

/-- A data object of one byte, and then an error. -/
def oneObject (i : Nat) : Bytes := if i = 0 then [0x53, 0x01, 0xAA, 0x90, 0x00] else [0x6A, 0x82]

theorem detected_and_read_objects :
    ∃ cb₀ outs, readNDef (detectedWith wideAnswers) = (.ok, cb₀, outs) ∧ cb₀.ddoLcFieldCoding = true ∧
      deliveredData (outsAt cb₀ oneObject 0) = [[0xAA]] ∧ Bounded cb₀ oneObject 0x7FFE := by
  obtain ⟨r, hr⟩ : ∃ r, r = readNDef (detectedWith wideAnswers) := ⟨_, rfl⟩
  have hok : r = (.ok, r.2.1, r.2.2) := by rw [hr]; decide +kernel
  have hlen : (detectedWith wideAnswers).ndefLength = 0x7FFE := by decide +kernel
  have hleft : r.2.1.rwLength = 0x7FFE := by rw [hr]; decide +kernel
  refine ⟨r.2.1, r.2.2, by rw [← hr]; exact hok, by rw [hr]; decide +kernel, by rw [hr]; decide +kernel, ?_⟩
  rw [← hlen]
  refine (detected_and_read (reached_detectedWith wideAnswers)).2 _ _ _ (by rw [← hr]; exact hok) (fun i => ?_) ?_
  · unfold oneObject
    split <;> decide
  have hidle : (after r.2.1 oneObject 2).state = .idle := by rw [hr]; decide +kernel
  intro i hun
  rcases i with - | - | i
  · obtain ⟨-, -, -, -, ⟨head, n, hobj, hbad⟩ | htoo⟩ := hun
    · -- the object has one byte, and more than that are left
      cases hobj with
      | short => exact absurd (show 1 = 0 ∧ _ ∨ r.2.1.rwLength < 1 from hbad) (by omega)
      | one h81 => exact absurd h81 (by decide)
      | two h82 => exact absurd h82 (by decide)
    · exact absurd htoo.2.1 (by decide)
  · exact absurd hun.2.2.1 (by decide)
  · have hstate := (idle_after hidle (Nat.le_add_left 2 i)).1
    exact absurd (hstate.symm.trans hun.1) nofun

/-- A read that is answered with empty data objects never ends. -/
theorem empty_objects_endless :
    ∃ cb cb₀ outs, Reached false cb ∧ readNDef cb = (.ok, cb₀, outs) ∧
      ∀ n, (after cb₀ (fun _ => [0x53, 0x00, 0x90, 0x00]) n).state = .readNdef ∧
        ¬ Ended (outsAt cb₀ (fun _ => [0x53, 0x00, 0x90, 0x00]) n) := by
  obtain ⟨r, hr⟩ : ∃ r, r = readNDef (detectedWith wideAnswers) := ⟨_, rfl⟩
  have hok : r = (.ok, r.2.1, r.2.2) := by rw [hr]; decide +kernel
  have hstep : (dataCback r.2.1 [0x53, 0x00, 0x90, 0x00]).1 = r.2.1 ∧
      ∃ f, (dataCback r.2.1 [0x53, 0x00, 0x90, 0x00]).2 = [.event (.read []), .frame f] := by
    rw [hr]
    exact ⟨by decide +kernel, _, rfl⟩
  have hsame : ∀ n, after r.2.1 (fun _ => [0x53, 0x00, 0x90, 0x00]) n = r.2.1 := by
    intro n
    induction n with
    | zero => rfl
    | succ n ih =>
      show (dataCback (after r.2.1 _ n) [0x53, 0x00, 0x90, 0x00]).1 = r.2.1
      rw [ih]
      exact hstep.1
  refine ⟨_, r.2.1, r.2.2, reached_detectedWith wideAnswers, by rw [← hr]; exact hok, fun n => ⟨?_, ?_⟩⟩
  · rw [hsame, hr]
    decide +kernel
  · obtain ⟨f, hf⟩ := hstep.2
    have houts : outsAt r.2.1 (fun _ => [0x53, 0x00, 0x90, 0x00]) n = [.event (.read []), .frame f] := by
      unfold outsAt
      rw [hsame]
      exact hf
    rw [houts]
    rintro (⟨data, h⟩ | ⟨status, h⟩)
    · simp at h
    · simp at h

end NfcStack.Rw.T4t
