import NfcStack.Rw.T3tWrite

/- Reading the message of a Type 3 tag back.

   The reader goes by the attributes it has: those of the last detection, with the length
   of the message it has written itself. The flag of the attributes that says that a write
   is in progress stays as it was detected.

   What is proved:
     1. `sendNextNdefCheckCmd_spec`: the next CHECK.
     2. `serve_completes`, `check_completes`: from any number of blocks on, the rest of the
        message is delivered with finitely many more commands. -/
namespace NfcStack.Rw.T3t
open NfcStack.Lib

/-! ## The next command -/

/-- The CHECK of `n` blocks from the block `i + 1` on. -/
def checkFrame (idm : Bytes) (rwflag : UInt8) (i n : Nat) : Bytes :=
  cmdFrame idm opcCheckCmd (if rwflag = rwflagRo then ndefScRo else ndefScRw) (blockList (i + 1) n) n []

def checkCb (cb : Cb) (readlen : Nat) (final : Bool) : Cb :=
  { cb with
    ndefRxReadlen := readlen
    isFinalNdefSegment := final
    curCmd := .checkNdef
    rwState := .commandPending }

theorem sendNextNdefCheckCmd_spec {cb : Cb} {len i : Nat} (hln : cb.ndefAttrib.ln = len)
    (hoff : cb.ndefRxOffset = 16 * i) (hfinal : cb.isFinalNdefSegment = false) (hi : 16 * i < len)
    (hmax : len ≤ 16 * 65535) (hnbr : cb.ndefAttrib.nbr ≤ 15) :
    sendNextNdefCheckCmd cb =
      if (len + 15) / 16 - i ≤ cb.ndefAttrib.nbr then
        (.ok, checkCb cb (len - 16 * i) true,
          [.frame (checkFrame cb.peerNdefNfcid2 cb.ndefAttrib.rwflag i ((len + 15) / 16 - i))])
      else
        (.ok, checkCb cb (cb.ndefAttrib.nbr * 16) false,
          [.frame (checkFrame cb.peerNdefNfcid2 cb.ndefAttrib.rwflag i cb.ndefAttrib.nbr)]) := by
  have hblocks := blocksRemaining_eq (Nat.le_of_lt hi) hmax
  have hfirst : firstBlock (16 * i) = i + 1 := firstBlock_eq (by omega)
  have hsend : ∀ cb' n, sendCmd cb' .checkNdef
      (cmdHead cb opcCheckCmd (if cb.ndefAttrib.rwflag = rwflagRo then ndefScRo else ndefScRw) n ++ blockList (i + 1) n) =
      ({ cb' with curCmd := .checkNdef, rwState := .commandPending },
        [.frame (checkFrame cb.peerNdefNfcid2 cb.ndefAttrib.rwflag i n)]) := by
    intro cb' n
    exact sendCmd_frame_nil cb cb' .checkNdef opcCheckCmd _ n _
  cases cb with
  | mk rwState curCmd attrib msg msgLen sent readlen off peer final w4 =>
    dsimp only at hln hoff hfinal hnbr hsend ⊢
    subst hln hoff hfinal
    unfold sendNextNdefCheckCmd
    dsimp only
    rw [if_neg (by omega), hblocks, hfirst]
    by_cases hlast : (attrib.ln + 15) / 16 - i ≤ attrib.nbr
    · rw [if_pos hlast, decide_eq_true hlast, if_pos rfl, if_neg (by omega), if_pos rfl]
      exact congrArg (Prod.mk Status.ok) (hsend _ _)
    · rw [if_neg hlast, decide_eq_false hlast, if_neg Bool.false_ne_true, if_neg (by omega), if_neg Bool.false_ne_true]
      exact congrArg (Prod.mk Status.ok) (hsend _ _)

/-! ## One command -/

/-- The response to a CHECK of `n` blocks of the message. -/
def checkRsp (idm msg : Bytes) (i n : Nat) : Bytes :=
  opcCheckRsp :: idm ++ [0, 0, UInt8.ofNat n] ++ (List.range' i n).flatMap (msgBlock msg)

theorem length_checkRsp {idm : Bytes} (msg : Bytes) (i n : Nat) (hidm : idm.length = 8) :
    (checkRsp idm msg i n).length = 12 + 16 * n := by
  unfold checkRsp
  rw [List.length_append, List.length_append, List.length_cons, hidm, length_flatMap_msgBlock]
  rfl

def deliveredLen (cb : Cb) (n : Nat) : Nat :=
  if cb.isFinalNdefSegment ∧ cb.ndefAttrib.ln % 16 ≠ 0 then n * 16 - (16 - cb.ndefAttrib.ln % 16) else n * 16

theorem handleCheckNdefRsp_ok {cb : Cb} {idm msg : Bytes} {i n : Nat} (hidm : cb.peerNdefNfcid2 = idm)
    (hlen : idm.length = 8) (hn1 : 1 ≤ n) (hn : n ≤ 15) (hread : (cb.ndefRxReadlen + 15) / 16 = n) :
    handleCheckNdefRsp cb (checkRsp idm msg i n ++ [0]) =
      deliverCheck { cb with ndefRxOffset := cb.ndefRxOffset + cb.ndefRxReadlen }
        (((List.range' i n).flatMap (msgBlock msg)).take (deliveredLen cb n)) := by
  have hrsp : checkRsp idm msg i n ++ [0] =
      opcCheckRsp :: idm ++ (0 :: 0 :: UInt8.ofNat n :: ((List.range' i n).flatMap (msgBlock msg) ++ [0])) := by
    unfold checkRsp
    simp
  have hlength : (checkRsp idm msg i n ++ [0]).length = 12 + 16 * n + 1 := by
    rw [List.length_append, length_checkRsp msg i n hlen]
    rfl
  have hdata := length_flatMap_msgBlock msg n i
  have hnum : rspNumBlocks (checkRsp idm msg i n ++ [0]) = n := by
    rw [hrsp, rspNumBlocks_cons opcCheckRsp 0 0 _ hlen, UInt8.toNat_ofNat_of_lt' (Nat.lt_of_le_of_lt hn (by decide))]
  have hstatus : rspStatus1 (checkRsp idm msg i n ++ [0]) = 0 := by
    rw [hrsp]
    exact rspStatus1_cons opcCheckRsp 0 hlen
  have hidm' : rspIdm (checkRsp idm msg i n ++ [0]) = idm := by
    rw [hrsp]
    exact rspIdm_cons opcCheckRsp hlen
  have hcode : rspCode (checkRsp idm msg i n ++ [0]) = opcCheckRsp := rfl
  have hdrop : (checkRsp idm msg i n ++ [0]).drop rspOffsetCheckData = (List.range' i n).flatMap (msgBlock msg) ++ [0] := by
    rw [hrsp]
    exact drop_rsp opcCheckRsp 0 0 _ hlen
  have htake : ∀ k, k ≤ n * 16 → ((List.range' i n).flatMap (msgBlock msg) ++ [0]).take k =
      ((List.range' i n).flatMap (msgBlock msg)).take k := by
    intro k hk
    exact List.take_append_of_le_length (by omega)
  have hmod : n * 16 % 2 ^ 8 = n * 16 := Nat.mod_eq_of_lt (by omega)
  have hbad : ¬ (rspStatus1 (checkRsp idm msg i n ++ [0]) ≠ 0 ∨ rspIdm (checkRsp idm msg i n ++ [0]) ≠ cb.peerNdefNfcid2 ∨
      rspNumBlocks (checkRsp idm msg i n ++ [0]) ≠ (cb.ndefRxReadlen + 15) / 16) := by
    rw [hstatus, hidm', hnum, hidm, hread]
    simp
  have hlong : ¬ n * 16 > ((List.range' i n).flatMap (msgBlock msg) ++ [0]).length := by
    rw [List.length_append]
    omega
  have hshort : ¬ (checkRsp idm msg i n ++ [0]).length < 12 := by
    rw [hlength]
    omega
  unfold handleCheckNdefRsp deliveredLen
  rw [if_neg hshort, if_neg hbad, if_neg (not_not.mpr hcode), if_pos (by omega)]
  dsimp only
  rw [hnum, hmod, hdrop, if_neg hlong]
  split
  · rename_i hfin
    rw [if_neg (by omega), htake _ (by omega)]
  · rw [htake _ (Nat.le_refl _)]

/-- The tag has the first `m` blocks of `full`, and the reader knows how many blocks it may read at once. -/
structure Serves (full : Bytes) (m : Nat) (s : Sys) : Prop where
  idm : s.cb.peerNdefNfcid2 = s.tag.idm
  idmLen : s.tag.idm.length = 8
  nbr : s.cb.ndefAttrib.nbr = s.tag.attr.nbr
  nbrMax : s.tag.attr.nbr ≤ 15
  fits : m ≤ s.tag.attr.nmaxb
  nmaxb : s.tag.attr.nmaxb < 65536
  written : Written s.tag full m

structure Checking (msg : Bytes) (s : Sys) : Prop where
  idm : s.cb.peerNdefNfcid2 = s.tag.idm
  idmLen : s.tag.idm.length = 8
  nbr : s.cb.ndefAttrib.nbr = s.tag.attr.nbr
  nbrPos : 0 < s.tag.attr.nbr
  nbrMax : s.tag.attr.nbr ≤ 15
  ln : s.cb.ndefAttrib.ln = msg.length
  fits : msg.length ≤ s.tag.attr.nmaxb * 16
  nmaxb : s.tag.attr.nmaxb < 65536
  written : Written s.tag msg (numBlocks msg)

theorem Checking.serves {msg : Bytes} {s : Sys} (h : Checking msg s) : Serves msg (numBlocks msg) s := by
  have hfits := h.fits
  exact ⟨h.idm, h.idmLen, h.nbr, h.nbrMax, by unfold numBlocks; omega, h.nmaxb, h.written⟩

theorem flatMap_blocks {t : Tag} {msg : Bytes} {m : Nat} (h : Written t msg m) (n : Nat) : ∀ i, i + n ≤ m →
    (List.range' (i + 1) n).flatMap t.blocks = (List.range' i n).flatMap (msgBlock msg) := by
  induction n with
  | zero => exact fun _ _ => rfl
  | succ n ih =>
    intro i hle
    rw [List.range'_succ, List.range'_succ, List.flatMap_cons, List.flatMap_cons, ih (i + 1) (by omega),
      h i (by omega)]

theorem step_check {full : Bytes} {m : Nat} {s : Sys} (h : Serves full m s) {rwflag : UInt8} {i n : Nat}
    (hpending : s.pending = some (checkFrame s.tag.idm rwflag i n)) (hstate : s.cb.rwState = .commandPending)
    (hcmd : s.cb.curCmd = .checkNdef) (hn1 : 1 ≤ n) (hn : n ≤ s.tag.attr.nbr) (hle : i + n ≤ m) :
    s.step = Sys.emit s (handleCheckNdefRsp s.cb (checkRsp s.tag.idm full i n ++ [0])) := by
  have hmax := h.nbrMax
  have hlist := length_blockList_le n (i + 1)
  have hfits := h.fits
  have hnmaxb := h.nmaxb
  have hacc : s.tag.accepts s.tag.attr.nbr (List.range' (i + 1) n) := by
    refine ⟨.inl ⟨by rw [List.length_range']; exact hn1, by rw [List.length_range']; exact hn⟩, fun b hb => ?_⟩
    rw [List.mem_range'_1] at hb
    omega
  have hservice : (if rwflag = rwflagRo then ndefScRo else ndefScRw) = ndefScRo ∨
      (if rwflag = rwflagRo then ndefScRo else ndefScRw) = ndefScRw := by
    split
    · exact .inl rfl
    · exact .inr rfl
  have hexec := exec_check h.idmLen (show n < 256 by omega) (by omega) hservice
    (parseBlockList_blockList n (i + 1) [] (by omega)) hacc
  have hlen := @length_checkRsp s.tag.idm full i n h.idmLen
  unfold Sys.step
  rw [hpending]
  dsimp only
  unfold checkFrame
  rw [hexec]
  dsimp only
  rw [List.length_range', flatMap_blocks h.written n i hle]
  have hcback : dataCback s.cb (rspFrame (checkRsp s.tag.idm full i n)) =
      handleCheckNdefRsp s.cb (checkRsp s.tag.idm full i n ++ [0]) := by
    rw [dataCback_rsp hstate (by omega) (by omega)]
    unfold handleRsp
    rw [hcmd]
  exact congrArg (Sys.emit s) hcback

theorem step_check_refused {s : Sys} (hidm : s.tag.idm.length = 8) {rwflag : UInt8} {i n : Nat} (hn : n ≤ 15)
    (hi : i + 1 + n ≤ 65536) (hpending : s.pending = some (checkFrame s.tag.idm rwflag i n))
    (hstate : s.cb.rwState = .commandPending) (hcmd : s.cb.curCmd = .checkNdef)
    (hacc : ¬ s.tag.accepts s.tag.attr.nbr (List.range' (i + 1) n)) :
    s.step = Sys.emit s (checkCplt s.cb .failed) := by
  have hservice : (if rwflag = rwflagRo then ndefScRo else ndefScRw) < 65536 := by
    split <;> decide
  have hlist := length_blockList_le n (i + 1)
  have hexec : s.tag.exec (checkFrame s.tag.idm rwflag i n) =
      (s.tag, some (rspFrame (opcCheckRsp :: s.tag.idm ++ [0x01, 0x70]))) := by
    unfold Tag.exec checkFrame
    rw [parseFrame_cmd hidm hservice (by omega) (show 14 + (blockList (i + 1) n).length + 0 < 256 by omega)
      (parseBlockList_blockList n (i + 1) [] hi)]
    dsimp only
    rw [if_neg (not_not.mpr rfl), if_pos rfl, if_neg (fun h => hacc h.1)]
    rfl
  have hrsp : (opcCheckRsp :: s.tag.idm ++ [0x01, 0x70]).length = 11 := by
    rw [List.length_append, List.length_cons, hidm]
    rfl
  have hstatus : rspStatus1 (opcCheckRsp :: s.tag.idm ++ [0x01, 0x70] ++ [0]) = 0x01 := by
    rw [List.append_assoc]
    exact rspStatus1_cons opcCheckRsp 0x01 hidm
  have hcback : dataCback s.cb (rspFrame (opcCheckRsp :: s.tag.idm ++ [0x01, 0x70])) = checkCplt s.cb .failed := by
    rw [dataCback_rsp hstate (by omega) (by omega)]
    unfold handleRsp
    rw [hcmd]
    dsimp only
    unfold handleCheckNdefRsp
    have hlong : ¬ (opcCheckRsp :: s.tag.idm ++ [0x01, 0x70] ++ [0]).length < rspOffsetCheckData := by
      rw [List.length_append, hrsp]
      decide
    rw [if_neg hlong, if_pos (.inl (by rw [hstatus]; decide))]
  unfold Sys.step
  rw [hpending]
  dsimp only
  rw [hexec]
  dsimp only
  rw [hcback]
  rfl

/-! ## All commands -/

theorem take_flatMap_final {full msg : Bytes} {i n : Nat} (hfull : full.take msg.length = msg)
    (h : msg.length ≤ 16 * (i + n)) :
    ((List.range' i n).flatMap (msgBlock full)).take (msg.length - 16 * i) = msg.drop (16 * i) := by
  have hlen := length_slice_min full (16 * i) (16 * n)
  have hle : msg.length ≤ full.length := by
    rw [← hfull, List.length_take]
    omega
  rw [flatMap_msgBlock, List.take_append_of_le_length (by omega)]
  unfold slice
  rw [List.take_take, Nat.min_eq_left (by omega), ← List.drop_take, hfull]

theorem take_flatMap_full {full msg : Bytes} {i n : Nat} (hfull : full.take msg.length = msg)
    (h : 16 * (i + n) ≤ msg.length) :
    ((List.range' i n).flatMap (msgBlock full)).take (n * 16) = slice msg (16 * i) (16 * n) := by
  have hlen := length_slice_min full (16 * i) (16 * n)
  have hle : msg.length ≤ full.length := by
    rw [← hfull, List.length_take]
    omega
  rw [flatMap_msgBlock, List.take_append_of_le_length (by omega), List.take_of_length_le (by omega)]
  unfold slice
  rw [← hfull, List.drop_take, List.take_take, Nat.min_eq_left (by omega)]

/-- The rest of the message is delivered, from the system `s` on. -/
def Delivered (rest : Bytes) (s s' : Sys) : Prop :=
  s'.pending = none ∧ ∃ segs : List Bytes, s'.events = s.events ++ (segs.map Event.check ++ [.checkCplt .ok]) ∧
    segs.flatten = rest

theorem emit_event (s : Sys) (cb : Cb) (e : Event) (outs : List Out) :
    Sys.emit s (cb, .event e :: outs) = Sys.emit { s with events := s.events ++ [e] } (cb, outs) := by
  have hevents : s.events ++ (Out.event e :: outs).filterMap Out.event? =
      s.events ++ [e] ++ outs.filterMap Out.event? := List.append_cons _ _ _
  have hpending : (Out.event e :: outs).findSome? Out.frame? = outs.findSome? Out.frame? := rfl
  have hframes : (Out.event e :: outs).filterMap Out.frame? = outs.filterMap Out.frame? := rfl
  unfold Sys.emit
  dsimp only
  rw [hevents, hpending, hframes]

theorem serve_completes {full msg : Bytes} (hfull : full.take msg.length = msg) (k : Nat) :
    ∀ (i : Nat) (s : Sys), numBlocks msg - i ≤ k → 16 * i < msg.length →
    Serves full (numBlocks msg) s → 0 < s.tag.attr.nbr → s.cb.ndefAttrib.ln = msg.length →
    s.cb.ndefRxOffset = 16 * i → s.cb.isFinalNdefSegment = false →
    (sendNextNdefCheckCmd s.cb).1 = .ok ∧
      ∃ n, Delivered (msg.drop (16 * i)) s (Sys.after n (Sys.emit s (sendNextNdefCheckCmd s.cb).2)) := by
  induction k with
  | zero =>
    intro i s hk hi
    unfold numBlocks at hk
    omega
  | succ k ih =>
    intro i s hk hi h hpos hln hoff hfinal
    have hfits := h.fits
    have hnmaxb := h.nmaxb
    have hmax := h.nbrMax
    unfold numBlocks at hk hfits
    have hspec := sendNextNdefCheckCmd_spec hln hoff hfinal hi (by omega) (by rw [h.nbr]; exact hmax)
    rw [hspec]
    by_cases hlast : (msg.length + 15) / 16 - i ≤ s.cb.ndefAttrib.nbr
    · -- the last command
      rw [if_pos hlast]
      refine ⟨rfl, 1, ?_⟩
      dsimp only
      obtain ⟨n, hn⟩ : ∃ n, n = (msg.length + 15) / 16 - i := ⟨_, rfl⟩
      rw [← hn] at hlast ⊢
      obtain ⟨s₁, hs₁⟩ : ∃ s₁, s₁ = Sys.emit s (checkCb s.cb (msg.length - 16 * i) true,
          [.frame (checkFrame s.cb.peerNdefNfcid2 s.cb.ndefAttrib.rwflag i n)]) := ⟨_, rfl⟩
      have h₁ : Serves full (numBlocks msg) s₁ := by
        rw [hs₁]
        exact ⟨h.idm, h.idmLen, h.nbr, h.nbrMax, h.fits, h.nmaxb, h.written⟩
      have hstep := step_check h₁ (show s₁.pending = some (checkFrame s₁.tag.idm s.cb.ndefAttrib.rwflag i n) by
        rw [hs₁, h.idm]; rfl) (by rw [hs₁]; rfl) (by rw [hs₁]; rfl) (by omega) (by rw [← h₁.nbr, hs₁]; exact hlast)
        (by unfold numBlocks; omega)
      have hread : s₁.cb.ndefRxReadlen = msg.length - 16 * i := by rw [hs₁]; rfl
      have hfin : s₁.cb.isFinalNdefSegment = true := by rw [hs₁]; rfl
      have hlen : deliveredLen s₁.cb n = msg.length - 16 * i := by
        unfold deliveredLen
        have hln₁ : s₁.cb.ndefAttrib.ln = msg.length := by rw [hs₁]; exact hln
        rw [hfin, hln₁]
        split
        · omega
        · rename_i hno
          have : msg.length % 16 = 0 := by
            by_contra hne
            exact hno ⟨rfl, hne⟩
          omega
      rw [← hs₁, after_succ, hstep, handleCheckNdefRsp_ok h₁.idm h₁.idmLen (by omega)
        (by rw [h.nbr] at hlast; omega) (by rw [hread]; omega), hlen, take_flatMap_final hfull (by omega)]
      unfold deliverCheck
      dsimp only
      rw [if_pos hfin]
      refine ⟨rfl, [msg.drop (16 * i)], ?_, by simp⟩
      rw [hs₁]
      simp [Sys.emit, Sys.after, checkCplt, Out.event?]
    · rw [if_neg hlast]
      refine ⟨rfl, ?_⟩
      dsimp only
      obtain ⟨n, hn⟩ : ∃ n, n = s.cb.ndefAttrib.nbr := ⟨_, rfl⟩
      rw [← hn] at hlast ⊢
      have hn' : n = s.tag.attr.nbr := hn.trans h.nbr
      obtain ⟨s₁, hs₁⟩ : ∃ s₁, s₁ = Sys.emit s (checkCb s.cb (n * 16) false,
          [.frame (checkFrame s.cb.peerNdefNfcid2 s.cb.ndefAttrib.rwflag i n)]) := ⟨_, rfl⟩
      have h₁ : Serves full (numBlocks msg) s₁ := by
        rw [hs₁]
        exact ⟨h.idm, h.idmLen, h.nbr, h.nbrMax, h.fits, h.nmaxb, h.written⟩
      have hstep := step_check h₁ (show s₁.pending = some (checkFrame s₁.tag.idm s.cb.ndefAttrib.rwflag i n) by
        rw [hs₁, h.idm]; rfl) (by rw [hs₁]; rfl) (by rw [hs₁]; rfl) (by omega)
        (by rw [← h₁.nbr, hs₁]; exact Nat.le_of_eq hn) (by unfold numBlocks; omega)
      have hread : s₁.cb.ndefRxReadlen = n * 16 := by rw [hs₁]; rfl
      have hfin : s₁.cb.isFinalNdefSegment = false := by rw [hs₁]; rfl
      have hlen : deliveredLen s₁.cb n = n * 16 := by
        unfold deliveredLen
        rw [hfin, if_neg fun h => Bool.false_ne_true h.1]
      obtain ⟨s₂, hs₂⟩ : ∃ s₂ : Sys, s₂ = { s₁ with
          cb := { s₁.cb with ndefRxOffset := s₁.cb.ndefRxOffset + s₁.cb.ndefRxReadlen }
          events := s₁.events ++ [.check (slice msg (16 * i) (16 * n))] } := ⟨_, rfl⟩
      have h₂ : Serves full (numBlocks msg) s₂ := by
        rw [hs₂]
        exact ⟨h₁.idm, h₁.idmLen, h₁.nbr, h₁.nbrMax, h₁.fits, h₁.nmaxb, h₁.written⟩
      have hoff₂ : s₂.cb.ndefRxOffset = 16 * (i + n) := by
        rw [hs₂]
        show s₁.cb.ndefRxOffset + s₁.cb.ndefRxReadlen = _
        rw [hread, hs₁]
        show s.cb.ndefRxOffset + n * 16 = _
        omega
      obtain ⟨hok, m, hpend, segs, hev, hflat⟩ := ih (i + n) s₂ (by unfold numBlocks; omega) (by omega) h₂
        (by rw [hs₂, hs₁]; exact hpos) (by rw [hs₂, hs₁]; exact hln) hoff₂ (by rw [hs₂]; exact hfin)
      have hnext : s₁.step = Sys.emit s₂ (sendNextNdefCheckCmd s₂.cb).2 := by
        rw [hstep, handleCheckNdefRsp_ok h₁.idm h₁.idmLen (by omega) (by omega) (by rw [hread]; omega), hlen,
          take_flatMap_full hfull (by omega)]
        unfold deliverCheck
        dsimp only
        rw [hfin, if_neg Bool.false_ne_true]
        have hcb : s₂.cb = { s₁.cb with ndefRxOffset := s₁.cb.ndefRxOffset + s₁.cb.ndefRxReadlen } := by rw [hs₂]
        rw [← hfin, ← hcb, hok, if_pos rfl, emit_event, hs₂]
        rfl
      refine ⟨m + 1, ?_⟩
      rw [← hs₁, after_succ, hnext]
      refine ⟨hpend, slice msg (16 * i) (16 * n) :: segs, ?_, ?_⟩
      · rw [hev, hs₂, hs₁]
        simp [Sys.emit, Out.event?]
      · rw [List.flatten_cons, hflat]
        unfold slice
        rw [show 16 * (i + n) = 16 * i + 16 * n by omega, ← List.drop_drop, List.take_append_drop]

theorem check_completes {msg : Bytes} (k : Nat) : ∀ (i : Nat) (s : Sys), numBlocks msg - i ≤ k → 16 * i < msg.length →
    Checking msg s → s.cb.ndefRxOffset = 16 * i → s.cb.isFinalNdefSegment = false →
    (sendNextNdefCheckCmd s.cb).1 = .ok ∧
      ∃ n, Delivered (msg.drop (16 * i)) s (Sys.after n (Sys.emit s (sendNextNdefCheckCmd s.cb).2)) :=
  fun i s hk hi h => serve_completes List.take_length k i s hk hi h.serves h.nbrPos h.ln

end NfcStack.Rw.T3t
