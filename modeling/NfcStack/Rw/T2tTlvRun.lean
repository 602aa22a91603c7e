import NfcStack.Rw.T2tBitmap
import NfcStack.Rw.T2tTlvWalk

/- The detection of the NDEF message of a Type 2 tag as a whole: the data area is read
   sixteen bytes at a time, and each response goes through
   `rw_t2t_handle_tlv_detect_rsp`.

   What is proved:
     1. `detectLoop_flat`: it makes no difference that the bytes come in pieces.
     2. `search_run`: the responses together are one search over the memory.
     3. `detection_walks`: the detection reports what the walk over the TLVs meets, for a
        tag on which the walk does not come to a proprietary TLV without a value, and the
        variable that is not set does no harm. -/
namespace NfcStack.Rw

/-! ## Sixteen bytes at a time -/

def T2tCb.bare (cb : T2tCb) : T2tCb :=
  { cb with workOffset := 0, blockRead := 0, tagData := fun _ => 0, bReadData := false }

structure Piece (w : Nat) (r q : T2tCb × Search) : Prop where
  bare : r.1.bare = q.1
  search : r.2 = q.2
  work : r.1.workOffset = w

section Pieces
variable {mem : ByteFn} {cb : T2tCb} {w offset : Nat}

def piece (mem : ByteFn) (w : Nat) : ByteFn := fun i => mem (w + i)

theorem piece_apply : piece mem w offset = mem (w + offset) := rfl

theorem Piece.ite {p q : Prop} [Decidable p] [Decidable q] {r₁ r₂ q₁ q₂ : T2tCb × Search} (h : p ↔ q)
    (hpos : Piece w r₁ q₁) (hneg : Piece w r₂ q₂) : Piece w (if p then r₁ else r₂) (if q then q₁ else q₂) := by
  by_cases hp : p
  · rw [if_pos hp, if_pos (h.mp hp)]
    exact hpos
  · rw [if_neg hp, if_neg fun hq => hp (h.mpr hq)]
    exact hneg

theorem Piece.ite_go {p q : Prop} [Decidable p] [Decidable q] {u v u' v' : T2tCb} (h : p ↔ q)
    (hpos : Piece w (u, .go) (u', .go)) (hneg : Piece w (v, .go) (v', .go)) :
    Piece w (if p then u else v, .go) (if q then u' else v', .go) := by
  by_cases hp : p
  · rw [if_pos hp, if_pos (h.mp hp)]
    exact hpos
  · rw [if_neg hp, if_neg fun hq => hp (h.mpr hq)]
    exact hneg

theorem piece_detectTlv (hwork : cb.workOffset = w) (hw : w % t2tBlockSize = 0) :
    Piece w (detectTlv cb (piece mem w) offset) (detectTlv cb.bare mem (w + offset)) := by
  -- the first block starts in the same piece
  have hw' : w % 4 = 0 := hw
  have hindex : (w + offset + 1) % t2tBlockSize = (offset + 1) % t2tBlockSize := by
    change (w + offset + 1) % 4 = (offset + 1) % 4
    omega
  have hfirst : ∀ i, piece mem w (offset + 1 - (offset + 1) % t2tBlockSize + i)
      = mem (w + offset + 1 - (offset + 1) % t2tBlockSize + i) := by
    intro i
    have hle : (offset + 1) % t2tBlockSize ≤ offset + 1 := Nat.mod_le _ _
    rw [piece_apply]
    congr 1
    omega
  unfold detectTlv
  dsimp only
  rw [@piece_apply mem w offset, hindex]
  simp only [hfirst]
  apply Piece.ite Iff.rfl
  · exact ⟨rfl, rfl, hwork⟩
  apply Piece.ite Iff.rfl
  · exact ⟨rfl, rfl, hwork⟩
  apply Piece.ite Iff.rfl
  · exact ⟨rfl, rfl, hwork⟩
  apply Piece.ite Iff.rfl
  · exact ⟨rfl, rfl, hwork⟩
  · exact ⟨rfl, rfl, hwork⟩

theorem piece_findLenFieldLen (hwork : cb.workOffset = w) :
    Piece w (findLenFieldLen cb (piece mem w) offset) (findLenFieldLen cb.bare mem (w + offset)) := by
  have hsum : offset + cb.workOffset = w + offset + 0 := by omega
  unfold findLenFieldLen
  dsimp only
  rw [@piece_apply mem w offset, hsum]
  apply Piece.ite Iff.rfl
  · apply Piece.ite Iff.rfl
    · exact ⟨rfl, rfl, hwork⟩
    · exact ⟨rfl, rfl, hwork⟩
  · apply Piece.ite Iff.rfl
    · exact ⟨rfl, rfl, hwork⟩
    · exact ⟨rfl, rfl, hwork⟩

theorem piece_readTlvLen0 (hwork : cb.workOffset = w) :
    Piece w (readTlvLen0 cb (piece mem w) offset) (readTlvLen0 cb.bare mem (w + offset)) := by
  unfold readTlvLen0
  rw [@piece_apply mem w offset]
  apply Piece.ite Iff.rfl
  · apply Piece.ite Iff.rfl
    · exact ⟨rfl, rfl, hwork⟩
    · exact ⟨rfl, rfl, hwork⟩
  · exact ⟨rfl, rfl, hwork⟩

theorem piece_readTlvLen1 (hwork : cb.workOffset = w) :
    Piece w (readTlvLen1 cb (piece mem w) offset) (readTlvLen1 cb.bare mem (w + offset)) :=
  ⟨rfl, rfl, hwork⟩

theorem piece_readTlvValue (hwork : cb.workOffset = w) :
    Piece w (readTlvValue cb (piece mem w) offset) (readTlvValue cb.bare mem (w + offset)) := by
  have hsum : offset + cb.workOffset = w + offset + 0 := by omega
  unfold readTlvValue
  dsimp only
  rw [@piece_apply mem w offset, hsum]
  apply Piece.ite Iff.rfl
  · exact ⟨rfl, rfl, hwork⟩
  apply Piece.ite Iff.rfl
  · exact ⟨rfl, rfl, hwork⟩
  apply Piece.ite Iff.rfl
  · apply Piece.ite Iff.rfl
    · exact ⟨rfl, rfl, hwork⟩
    · apply Piece.ite_go Iff.rfl
      · exact ⟨rfl, rfl, hwork⟩
      · exact ⟨rfl, rfl, hwork⟩
  apply Piece.ite Iff.rfl
  · apply Piece.ite Iff.rfl
    · exact ⟨rfl, rfl, hwork⟩
    · apply Piece.ite Iff.rfl
      · exact ⟨rfl, rfl, hwork⟩
      · exact ⟨rfl, rfl, hwork⟩
  · apply Piece.ite_go Iff.rfl
    · exact ⟨rfl, rfl, hwork⟩
    · exact ⟨rfl, rfl, hwork⟩

theorem piece_detectByte (hwork : cb.workOffset = w) (hw : w % t2tBlockSize = 0) :
    Piece w (detectByte cb (piece mem w) offset) (detectByte cb.bare mem (w + offset)) := by
  unfold detectByte
  rw [show cb.bare.substate = cb.substate from rfl]
  cases cb.substate with
  | waitTlvDetect => exact piece_detectTlv hwork hw
  | waitFindLenFieldLen => exact piece_findLenFieldLen hwork
  | waitReadTlvLen0 => exact piece_readTlvLen0 hwork
  | waitReadTlvLen1 => exact piece_readTlvLen1 hwork
  | waitReadTlvValue => exact piece_readTlvValue hwork
  | _ => exact ⟨rfl, rfl, hwork⟩

/-- **It makes no difference that the bytes come in pieces.** -/
theorem detectLoop_flat (hw : w % t2tBlockSize = 0) (n : Nat) : ∀ {cb : T2tCb} {offset : Nat},
    cb.workOffset = w →
    Piece w (detectLoop (piece mem w) n cb offset) (detectLoop mem n cb.bare (w + offset)) := by
  induction n with
  | zero => exact fun hwork => ⟨rfl, rfl, hwork⟩
  | succ n ih =>
    intro cb offset hwork
    have hask : cb.bare.isLockResByte (cb.bare.workOffset + (w + offset))
        = cb.isLockResByte (cb.workOffset + offset) := by
      rw [hwork]
      change cb.isLockResByte (0 + (w + offset)) = _
      rw [Nat.zero_add]
    rw [detectLoop, detectLoop, hask]
    apply Piece.ite Iff.rfl
    · exact ih hwork
    · obtain ⟨hbare, hsearch, hwork'⟩ := @piece_detectByte mem cb w offset hwork hw
      revert hbare hsearch hwork'
      generalize detectByte cb (piece mem w) offset = r
      generalize detectByte cb.bare mem (w + offset) = q
      obtain ⟨u, search⟩ := r
      obtain ⟨v, search'⟩ := q
      rintro rfl rfl hwork'
      cases search with
      | go => exact ih hwork'
      | failed => exact ⟨rfl, rfl, hwork'⟩
      | found => exact ⟨rfl, rfl, hwork'⟩

end Pieces

/-! ## A whole detection -/

/-- The end of the data area, by the capability container of the tag. -/
def areaEnd (mem : ByteFn) : Nat := (mem t2tCc2TmsByte).toNat * t2tTmsTagFactor + t2tHeaderSize

/-- The end of the last response of the data area: there is at least one. -/
def readEnd (mem : ByteFn) : Nat := t2tHeaderSize + t2tReadDataLen * max 1 (((mem t2tCc2TmsByte).toNat + 1) / 2)

theorem readEnd_eq (mem : ByteFn) : readEnd mem = 16 + 16 * max 1 (((mem 14).toNat + 1) / 2) := rfl

theorem areaEnd_eq (mem : ByteFn) : areaEnd mem = (mem 14).toNat * 8 + 16 := rfl

section Runs
variable {mem data : ByteFn} {cb : T2tCb} {w : Nat}

theorem detectLoop_add (data : ByteFn) (m n : Nat) : ∀ (cb : T2tCb) (offset : Nat),
    detectLoop data (m + n) cb offset =
      match detectLoop data m cb offset with
      | (u, .go) => detectLoop data n u (offset + m)
      | r => r := by
  induction m with
  | zero =>
    intro cb offset
    rw [Nat.zero_add]
    rfl
  | succ m ih =>
    intro cb offset
    have hadd : m + 1 + n = m + n + 1 := by omega
    have hoff : offset + 1 + m = offset + (m + 1) := by omega
    rw [hadd, detectLoop, detectLoop]
    split
    · rw [ih, hoff]
    · cases detectByte cb data offset with
      | mk u search =>
        cases search with
        | go =>
          dsimp only
          rw [ih, hoff]
        | failed => rfl
        | found => rfl

theorem Searching.dataEnd (h : Searching mem cb) : cb.dataEnd = areaEnd mem := by
  unfold T2tCb.dataEnd areaEnd
  rw [h.hdr t2tCc2TmsByte (by decide)]
  rfl

def EndsWith (mem : ByteFn) (s : TagSys) (r : T2tCb × Search) : Prop :=
  ∃ n u, s.after handleDetectRsp n
      = ⟨(ntfTlvDetectComplete (extractDefaultLocksInfo u) (r.2 == .found)).1, mem, .done (r.2 == .found)⟩ ∧
    u.bare = r.1

theorem EndsWith.step {s t : TagSys} {r : T2tCb × Search} (hstep : tagSysStep handleDetectRsp s = some t)
    (h : EndsWith mem t r) : EndsWith mem s r := by
  obtain ⟨n, u, hafter, hbare⟩ := h
  refine ⟨n + 1, u, ?_, hbare⟩
  rw [TagSys.after, hstep]
  exact hafter

theorem search_response (h : Searching mem cb) (hwork : cb.workOffset = w) (hw : w % t2tBlockSize = 0) :
    ∃ u, Searching mem u ∧ u.bare = (detectLoop mem t2tReadDataLen cb.bare w).1 ∧ u.workOffset = w + t2tReadDataLen ∧
      let r := handleSearched u (detectLoop mem t2tReadDataLen cb.bare w).2
      tagSysStep handleDetectRsp ⟨cb, mem, .cmd (.read (w / t2tBlockSize))⟩ = some ⟨r.1, mem, r.2⟩ := by
  have hblock : w / t2tBlockSize * t2tBlockSize = w := Nat.div_mul_cancel (Nat.dvd_of_mod_eq_zero hw)
  have hdata : readBlocks mem (w / t2tBlockSize) = piece mem w := by
    unfold readBlocks piece
    rw [hblock]
  have hkeep : keepTagData cb (piece mem w) = cb := by
    have := h.work
    unfold keepTagData
    rw [if_neg (by omega)]
  obtain ⟨hbare, hsearch, hwork'⟩ := @detectLoop_flat mem w hw t2tReadDataLen cb 0 hwork
  have hs := (@searching_detectLoop mem (piece mem w) t2tReadDataLen cb 0 h).1
  rw [tagSysStep_read, hdata]
  unfold handleDetectRsp
  rw [if_neg h.sub]
  unfold handleTlvDetectRsp
  rw [hkeep]
  dsimp only [Nat.add_zero] at hbare hsearch
  revert hbare hsearch hwork' hs
  generalize detectLoop (piece mem w) t2tReadDataLen cb 0 = q
  obtain ⟨u, search⟩ := q
  intro hbare hsearch hwork' hs
  dsimp only at hbare hsearch hwork' hs ⊢
  rw [← hsearch]
  refine ⟨{ u with workOffset := u.workOffset + t2tReadDataLen }, ⟨hs.hdr, hs.data, ?_, hs.sub, hs.free⟩,
    hbare, by rw [hwork'], rfl⟩
  have := hs.work
  dsimp only
  omega

theorem search_run (k : Nat) : ∀ {cb : T2tCb} {w : Nat}, Searching mem cb → cb.workOffset = w →
    w % 16 = 0 → w + 16 * (k + 1) = readEnd mem →
    EndsWith mem ⟨cb, mem, .cmd (.read (w / t2tBlockSize))⟩ (searchFrom mem (readEnd mem) cb.bare w) := by
  induction k with
  | zero =>
    intro cb w h hwork hw hend
    obtain ⟨u, hs, hbare, hwork', hstep⟩ := search_response h hwork (show w % 4 = 0 by omega)
    have hlen : readEnd mem - w = t2tReadDataLen := by
      change readEnd mem - w = 16
      omega
    rw [searchFrom, hlen]
    have harea : u.workOffset ≥ u.dataEnd := by
      rw [hs.dataEnd, hwork', areaEnd_eq]
      rw [readEnd_eq] at hend
      change w + 16 ≥ _
      omega
    apply EndsWith.step hstep
    revert hbare hstep
    generalize detectLoop mem t2tReadDataLen cb.bare w = r
    obtain ⟨v, search⟩ := r
    intro hbare _
    refine ⟨0, u, ?_, hbare⟩
    cases search with
    | go =>
      unfold handleSearched
      dsimp only
      rw [if_pos harea]
      rfl
    | failed => rfl
    | found => rfl
  | succ k ih =>
    intro cb w h hwork hw hend
    obtain ⟨u, hs, hbare, hwork', hstep⟩ := search_response h hwork (show w % 4 = 0 by omega)
    have hlen : readEnd mem - w = t2tReadDataLen + (readEnd mem - (w + t2tReadDataLen)) := by
      change readEnd mem - w = 16 + (readEnd mem - (w + 16))
      omega
    have harea : ¬u.workOffset ≥ u.dataEnd := by
      have hstart := h.work
      rw [hs.dataEnd, hwork', areaEnd_eq]
      rw [readEnd_eq] at hend
      change ¬w + 16 ≥ _
      omega
    rw [searchFrom, hlen, detectLoop_add]
    apply EndsWith.step hstep
    revert hbare hstep
    generalize detectLoop mem t2tReadDataLen cb.bare w = r
    obtain ⟨v, search⟩ := r
    intro hbare _
    dsimp only at hbare ⊢
    cases search with
    | go =>
      unfold handleSearched
      dsimp only
      rw [if_neg harea, ← hbare, hwork']
      exact @ih { u with blockRead := (w + t2tReadDataLen) / t2tBlockSize } _
        ⟨hs.hdr, hs.data, hs.work, hs.sub, hs.free⟩ hwork' (by change (w + 16) % 16 = 0; omega)
        (by rw [← hend]; change w + 16 + 16 * (k + 1) = _; omega)
    | failed => exact ⟨0, u, rfl, hbare⟩
    | found => exact ⟨0, u, rfl, hbare⟩

/-- The capability container has been read, and the first blocks of the data area are asked for. -/
structure SearchBegins (mem : ByteFn) (cb : T2tCb) : Prop where
  sub : cb.substate = .waitTlvDetect
  work : cb.workOffset = 0
  lockBytes : cb.lockBytes = []
  memTlvs : cb.memTlvs = []
  hdr : ∀ i < 16, cb.tagHdr i = mem i

theorem search_endsWith (h : SearchBegins mem cb) :
    EndsWith mem ⟨cb, mem, .cmd (.read t2tFirstDataBlock)⟩
      (searchFrom mem (readEnd mem) cb.bare t2tHeaderSize) := by
  set u := keepTagData cb (readBlocks mem t2tFirstDataBlock) with hu
  have hkeep : u = { cb with
      workOffset := t2tFirstDataBlock * t2tBlockSize
      bReadData := true
      tagData := readBlocks mem t2tFirstDataBlock } := by
    rw [hu]
    unfold keepTagData
    rw [if_pos h.work]
  have hsub : u.substate = .waitTlvDetect := by
    rw [hkeep]
    exact h.sub
  have hnot : cb.substate ≠ .waitReadCc := by
    rw [h.sub]
    nofun
  have hs : Searching mem u := by
    rw [hkeep] at hsub ⊢
    refine ⟨h.hdr, fun i _ => rfl, Nat.le_refl 16, hnot, fun hb => ?_⟩
    have := hb.2
    rw [hsub] at this
    simp at this
  have hwork : u.workOffset = 16 := by
    rw [hkeep]
    rfl
  have hbare : u.bare = cb.bare := by
    rw [hkeep]
    rfl
  -- the response is handled as if the work offset had been set before
  have hstep : tagSysStep handleDetectRsp ⟨cb, mem, .cmd (.read t2tFirstDataBlock)⟩
      = tagSysStep handleDetectRsp ⟨u, mem, .cmd (.read t2tFirstDataBlock)⟩ := by
    have htwice : keepTagData u (readBlocks mem t2tFirstDataBlock) = u := by
      unfold keepTagData
      rw [if_neg (by omega)]
    rw [tagSysStep_read, tagSysStep_read]
    unfold handleDetectRsp
    rw [if_neg hnot, if_neg hs.sub]
    unfold handleTlvDetectRsp
    rw [← hu, htwice]
  have hend := readEnd_eq mem
  obtain ⟨n, v, hafter, hv⟩ := search_run (readEnd mem / 16 - 2) hs hwork (by decide) (by omega)
  rw [hbare] at hv
  rw [hbare] at hafter
  refine ⟨n, v, ?_, hv⟩
  cases n with
  | zero => exact absurd (congrArg TagSys.reply hafter) nofun
  | succ n =>
    rw [TagSys.after] at hafter ⊢
    rw [hstep]
    exact hafter

theorem extractDefaultLocksInfo_msg : (extractDefaultLocksInfo cb).ndefMsgLen = cb.ndefMsgLen ∧
    (extractDefaultLocksInfo cb).ndefMsgOffset = cb.ndefMsgOffset := by
  unfold extractDefaultLocksInfo
  split
  · exact ⟨rfl, rfl⟩
  · exact ⟨rfl, rfl⟩

theorem endsWith_walk (h : SearchBegins mem cb) :
    ∃ r, EndsWith mem ⟨cb, mem, .cmd (.read t2tFirstDataBlock)⟩ r ∧
      match walkArea true mem (readEnd mem) with
      | .ndef l header len msg => r.2 = .found ∧ AtNdef cb.tagHdr l header len msg r.1
      | _ => r.2 ≠ .found := by
  refine ⟨_, search_endsWith h, ?_⟩
  have hat : AtTlv cb.tagHdr ⟨[], []⟩ cb.bare := by
    refine ⟨h.sub, rfl, ?_, rfl, fun _ => h.lockBytes⟩
    change Layout.mk (cb.lockBytes.map _) cb.memTlvs = _
    rw [h.lockBytes, h.memTlvs]
    rfl
  have hdoes := @searchFrom_walk mem (readEnd mem) _ (readEnd mem + 1) _ _ _ hat
    (show readEnd mem - t2tHeaderSize < readEnd mem + 1 by omega)
  unfold walkArea
  cases hm : walk true mem (readEnd mem) (readEnd mem + 1) ⟨[], []⟩ t2tHeaderSize with
  | next l b => exact absurd hm (walk_ne_next _)
  | ndef l header len msg =>
    rw [hm] at hdoes
    obtain ⟨v, heq, hv⟩ := hdoes
    rw [heq]
    exact ⟨rfl, hv⟩
  | ended =>
    rw [hm] at hdoes
    exact hdoes
  | emptyProprietary =>
    rw [hm] at hdoes
    exact hdoes

theorem TagSys.after_unique {handler : Handler} {s t u : TagSys} {m n : Nat} {ok ok' : Bool}
    (ht : s.after handler m = t) (hu : s.after handler n = u) (hdone : t.reply = .done ok)
    (hdone' : u.reply = .done ok') : t = u := by
  calc t = t.after handler n := (TagSys.after_done hdone n).symm
    _ = s.after handler (m + n) := by rw [TagSys.after_add, ht]
    _ = s.after handler (n + m) := by rw [Nat.add_comm]
    _ = u.after handler m := by rw [TagSys.after_add, hu]
    _ = u := TagSys.after_done hdone' m

theorem detected_begins {cb₀ : T2tCb} (hhdr : cb₀.bReadHdr = true → ∀ i < 16, cb₀.tagHdr i = mem i)
    (h : Detected cb₀ mem cb) :
    ∃ u n, SearchBegins mem u ∧ u.tagHdr t2tCc0NmnByte = t2tCc0Nmn ∧
      TagSys.after handleDetectRsp n ⟨u, mem, .cmd (.read t2tFirstDataBlock)⟩ = ⟨cb, mem, .done true⟩ := by
  obtain ⟨u, reply, n, hstart, hend⟩ := h
  unfold t2tDetectNDef at hstart
  split at hstart
  · cases hstart
  · rename_i hnmn
    dsimp only at hstart
    split at hstart
    · rename_i hread
      obtain ⟨rfl, rfl⟩ := Prod.mk.inj (Option.some.inj hstart)
      refine ⟨_, n, ?_, ?_, hend⟩
      · exact ⟨rfl, rfl, rfl, rfl, hhdr hread⟩
      · by_contra hno
        exact hnmn ⟨hread, hno⟩
    · obtain ⟨rfl, rfl⟩ := Prod.mk.inj (Option.some.inj hstart)
      cases n with
      | zero => exact absurd (congrArg TagSys.reply hend) nofun
      | succ n =>
        have hfalse : ∀ {v : T2tCb}, TagSys.after handleDetectRsp n ⟨v, mem, .done false⟩
            ≠ ⟨cb, mem, .done true⟩ := by
          intro v heq
          rw [TagSys.after_done rfl] at heq
          exact absurd (congrArg TagSys.reply heq) (by simp)
        rw [TagSys.after, tagSysStep_read] at hend
        dsimp only at hend
        unfold handleDetectRsp at hend
        rw [if_pos rfl] at hend
        dsimp only at hend
        split at hend
        · rename_i hcc
          unfold handleCcReadRsp at hend
          dsimp only at hend
          split at hend
          · exact absurd hend hfalse
          · refine ⟨_, n, ?_, hcc, hend⟩
            refine ⟨rfl, rfl, rfl, rfl, fun i _ => ?_⟩
            change mem (0 * 4 + i) = mem i
            rw [Nat.zero_mul, Nat.zero_add]
        · exact absurd hend hfalse

theorem search_walks (h : SearchBegins mem cb)
    (hempty : walkArea true mem (readEnd mem) ≠ .emptyProprietary) :
    ∃ n v ok, TagSys.after handleDetectRsp n ⟨cb, mem, .cmd (.read t2tFirstDataBlock)⟩ = ⟨v, mem, .done ok⟩ ∧
      (ok = true ↔ ∃ l header len msg, walkArea true mem (readEnd mem) = .ndef l header len msg) ∧
      ∀ l header len msg, walkArea true mem (readEnd mem) = .ndef l header len msg →
        v.ndefMsgLen = len ∧ v.ndefMsgOffset = msg := by
  obtain ⟨r, ⟨n, u, hafter, hbare⟩, hwalk⟩ := endsWith_walk h
  refine ⟨n, _, _, hafter, ?_⟩
  cases hm : walkArea true mem (readEnd mem) with
  | ndef l header len msg =>
    rw [hm] at hwalk
    obtain ⟨hfound, hndef⟩ := hwalk
    constructor
    · simp [hfound]
    · rintro l' header' len' msg' heq
      obtain ⟨rfl, rfl, rfl, rfl⟩ := Met.ndef.inj heq
      obtain ⟨hlen, hmsg⟩ := @extractDefaultLocksInfo_msg u
      have hlen' : u.ndefMsgLen = len := (congrArg T2tCb.ndefMsgLen hbare).trans hndef.len
      have hmsg' : u.ndefMsgOffset = msg := (congrArg T2tCb.ndefMsgOffset hbare).trans hndef.msg
      exact ⟨hlen.trans hlen', hmsg.trans hmsg'⟩
  | ended =>
    rw [hm] at hwalk
    exact ⟨by simpa using hwalk, nofun⟩
  | next l b =>
    rw [hm] at hwalk
    exact ⟨by simpa using hwalk, nofun⟩
  | emptyProprietary => exact absurd hm hempty

/-- **The detection reports what the walk meets.** Over the bytes that the responses return it ends with
success just when the walk comes to the NDEF TLV, of which it has the length and the address of the
first byte of the value. -/
theorem detection_walks {junk : Junk} {s : AttrCb} (h : SearchBegins mem s.cb) (hblank : Blank s)
    (hsure : RunSure junk ⟨s, mem, .cmd (.read t2tFirstDataBlock)⟩)
    (hempty : walkArea true mem (readEnd mem) ≠ .emptyProprietary) :
    ∃ n t ok, TagSys.after (handleDetectRspMap junk) n ⟨s, mem, .cmd (.read t2tFirstDataBlock)⟩ =
        ⟨t, mem, .done ok⟩ ∧
      (ok = true ↔ ∃ l header len msg, walkArea true mem (readEnd mem) = .ndef l header len msg) ∧
      ∀ l header len msg, walkArea true mem (readEnd mem) = .ndef l header len msg →
        t.cb.ndefMsgLen = len ∧ t.cb.ndefMsgOffset = msg := by
  obtain ⟨n, v, ok, hafter, hok, hndef⟩ := search_walks h hempty
  have hasking : Asking s := ⟨attrInv_blank hblank h.lockBytes h.memTlvs, by rw [h.work]; exact Nat.zero_le _⟩
  have hstart : Simulates junk ⟨s, mem, .cmd (.read t2tFirstDataBlock)⟩ ⟨s.cb, mem, .cmd (.read t2tFirstDataBlock)⟩ :=
    ⟨rfl, rfl, .inl ⟨⟨_, rfl⟩, rfl, hasking⟩⟩
  have hsim := (simulates_after n hstart hsure).2
  rw [hafter] at hsim
  revert hsim
  generalize hend : TagSys.after (handleDetectRspMap junk) n ⟨s, mem, .cmd (.read t2tFirstDataBlock)⟩ = r
  obtain ⟨t, mem', reply⟩ := r
  intro hsim
  obtain ⟨hmem, hreply, hrest⟩ := hsim
  dsimp only at hmem hreply hrest
  subst hmem hreply
  refine ⟨n, t, ok, hend, hok, fun l header len msg heq => ?_⟩
  obtain ⟨⟨block, hcmd⟩, -⟩ | ⟨-, ⟨room, hcb⟩, -⟩ := hrest
  · cases hcmd
  · rw [hcb]
    exact hndef l header len msg heq

end Runs

def tagWith (bytes : List UInt8) : ByteFn := fun a =>
  if a < t2tHeaderSize then [t2tCc0Nmn, t2tCc1LegacyVno, t2tCc2TmsStatic, t2tCc3RwaRw].getD (a - t2tCc0NmnByte) 0
  else bytes.getD (a - t2tHeaderSize) 0

/-- The control block when the data area of a tag that has been activated is about to be read. -/
def aboutToSearch (mem : ByteFn) : AttrCb :=
  { attrActivated mem with cb := { t2tActivated with substate := .waitTlvDetect, tagHdr := mem, bReadHdr := true } }

theorem searchBegins_aboutToSearch (mem : ByteFn) : SearchBegins mem (aboutToSearch mem).cb :=
  ⟨rfl, rfl, rfl, rfl, fun _ _ => rfl⟩

theorem blank_aboutToSearch (mem : ByteFn) : Blank (aboutToSearch mem) := fun i _ => marked_zero i

/-- A lock control TLV (bytes 60 to 63), a memory control TLV (byte 31) and the NDEF TLV. -/
def controlTag : ByteFn :=
  tagWith [0x01, 0x03, 0xF0, 0x20, 0x32, 0x02, 0x03, 0x73, 0x01, 0x02, 0x03, 0x01, 0xD0, 0xFE]

theorem detection_walks_control : ∃ n t ok,
    TagSys.after (handleDetectRspMap junk16) n ⟨aboutToSearch controlTag, controlTag, .cmd (.read t2tFirstDataBlock)⟩ =
      ⟨t, controlTag, .done ok⟩ ∧ ok = true ∧ t.cb.ndefMsgLen = 1 ∧ t.cb.ndefMsgOffset = 28 := by
  have hwalk : walkArea true controlTag (readEnd controlTag) = .ndef ⟨[60, 61, 62, 63], [⟨31, 1⟩]⟩ 27 1 28 := by
    decide +kernel
  have hsure : ResponseSure junk16 ⟨aboutToSearch controlTag, controlTag, .cmd (.read t2tFirstDataBlock)⟩ := by
    refine @responseSure_read _ _ 4 rfl ?_
    decide +kernel
  have hend : (TagSys.after (handleDetectRspMap junk16) 1
      ⟨aboutToSearch controlTag, controlTag, .cmd (.read t2tFirstDataBlock)⟩).reply = .done true := by
    apply Reply.ended_iff.mp
    decide +kernel
  obtain ⟨n, t, ok, hafter, hok, hndef⟩ :=
    detection_walks (searchBegins_aboutToSearch controlTag) (blank_aboutToSearch controlTag)
      (runSure_last hsure hend) (by rw [hwalk]; nofun)
  exact ⟨n, t, ok, hafter, hok.mpr ⟨_, _, _, _, hwalk⟩, hndef _ _ _ _ hwalk⟩

def twoLockTlvs : ByteFn :=
  tagWith [0x01, 0x03, 0xF0, 0x08, 0x33, 0x01, 0x03, 0xF1, 0x08, 0x33, 0x03, 0x01, 0xD0, 0xFE]

/-- A tag with eight bytes of data, behind which there is an NDEF TLV. -/
def ndefBehind : ByteFn := fun a =>
  if a = t2tCc2TmsByte then 0x01 else tagWith [0, 0, 0, 0, 0, 0, 0, 0, 0x03, 0x01, 0xD0, 0xFE] a

/-- The walk of the grammar passes over two lock control TLVs, which the search refuses; and it ends with
the data area, which the search does not. -/
theorem second_lock_tlv_refused :
    (walkArea false twoLockTlvs (areaEnd twoLockTlvs) = .ndef ⟨[120, 121], []⟩ 27 1 28 ∧
      SearchBegins twoLockTlvs (aboutToSearch twoLockTlvs).cb ∧
      (TagSys.after (handleDetectRspMap junk16) 1
        ⟨aboutToSearch twoLockTlvs, twoLockTlvs, .cmd (.read t2tFirstDataBlock)⟩).reply = .done false) ∧
    (walkArea false ndefBehind (areaEnd ndefBehind) = .ended ∧
      SearchBegins ndefBehind (aboutToSearch ndefBehind).cb ∧
      (TagSys.after (handleDetectRspMap junk16) 1
        ⟨aboutToSearch ndefBehind, ndefBehind, .cmd (.read t2tFirstDataBlock)⟩).reply = .done true) := by
  refine ⟨⟨by decide +kernel, searchBegins_aboutToSearch _, ?_⟩, by decide +kernel, searchBegins_aboutToSearch _, ?_⟩
  · apply Reply.ended_iff.mp
    decide +kernel
  · apply Reply.ended_iff.mp
    decide +kernel

end NfcStack.Rw
