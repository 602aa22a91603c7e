import NfcStack.Rw.T3tFrame

/- Writing a message to a Type 3 tag.

   The bytes sent so far are a number of whole blocks until the last one; from there the
   next UPDATE has at least one block, if the tag allows one at all, and not more than the
   tag and a frame allow.

   What is proved:
     1. `sendNextNdefUpdateCmd_spec`: the next UPDATE.
     2. `step_update`: what the tag and the reader make of an UPDATE.
     3. `update_completes`: from any number of blocks on, the message is written with
        finitely many more commands. -/
namespace NfcStack.Rw.T3t
open NfcStack.Lib

/-! ## The next command -/

structure Detect.Accepted (a : Detect) : Prop extends a.Fits where
  nbrMax : a.nbr ≤ numBlocksCheckMax
  nbwMax : a.nbw ≤ numBlocksUpdateMax
  status : a.status = .ok

def numBlocks (msg : Bytes) : Nat := (msg.length + 15) / 16

theorem blocksRemaining_eq {len i : Nat} (hi : 16 * i ≤ len) (hlen : len ≤ 16 * 65535) :
    blocksRemaining (len - 16 * i) = (len + 15) / 16 - i := by
  unfold blocksRemaining
  omega

theorem firstBlock_eq {i : Nat} (hi : i < 65535) : firstBlock (16 * i) = i + 1 := by
  unfold firstBlock
  omega

variable {msg : Bytes}

theorem slice_eq_of_ge {p m n : Nat} (hm : msg.length ≤ p + m) (hn : msg.length ≤ p + n) :
    slice msg p m = slice msg p n := by
  unfold slice
  rw [List.take_of_length_le (by rw [List.length_drop]; omega), List.take_of_length_le (by rw [List.length_drop]; omega)]

theorem updatePayload_eq {cb : Cb} {i n : Nat} (hmsg : cb.ndefMsg = msg)
    (hsent : cb.ndefMsgBytesSent = 16 * i) (hi : 16 * i < msg.length) (hlen : msg.length ≤ 16 * 65535) (hn : 1 ≤ n)
    (hle : i + n ≤ numBlocks msg) :
    updatePayload cb n (msg.length - 16 * i) =
      ((List.range' i n).flatMap (msgBlock msg), min (16 * (i + n)) msg.length - 16 * i) := by
  unfold numBlocks at hle
  have hblocks := blocksRemaining_eq (Nat.le_of_lt hi) hlen
  unfold updatePayload
  rw [hmsg, hsent, hblocks, flatMap_msgBlock]
  have hmin := length_slice_min msg (16 * i) (16 * n)
  dsimp only
  by_cases hlast : n = (msg.length + 15) / 16 - i
  · rw [if_pos hlast]
    by_cases hpad : (16 - (msg.length - 16 * i) % 16) % 16 = 0
    · -- the message ends with a block
      rw [if_neg (not_not.mpr hpad)]
      have hzero : 16 * n - (slice msg (16 * i) (16 * n)).length = 0 := by omega
      rw [hzero, List.replicate_zero, List.append_nil, Nat.mul_comm n 16]
      congr 1
      omega
    · rw [if_pos hpad, ← slice_split]
      have hbytes : slice msg (16 * i) ((n - 1) * 16 + (16 - (16 - (msg.length - 16 * i) % 16) % 16)) =
          slice msg (16 * i) (16 * n) := slice_eq_of_ge (by omega) (by omega)
      rw [hbytes]
      congr 1
      · congr 2
        omega
      · omega
  · rw [if_neg hlast, if_neg (not_not.mpr rfl)]
    have hzero : 16 * n - (slice msg (16 * i) (16 * n)).length = 0 := by omega
    rw [hzero, List.replicate_zero, List.append_nil, Nat.mul_comm n 16]
    congr 1
    omega

def updateFrame (idm msg : Bytes) (i n : Nat) : Bytes :=
  cmdFrame idm opcUpdateCmd ndefScRw (blockList (i + 1) n) n ((List.range' i n).flatMap (msgBlock msg))

variable {a : Detect}

theorem sendNextNdefUpdateCmd_spec {cb : Cb} {i : Nat} (hattr : cb.ndefAttrib = a)
    (hmsg : cb.ndefMsg = msg) (hlen : cb.ndefMsgLen = msg.length) (hsent : cb.ndefMsgBytesSent = 16 * i)
    (hi : 16 * i < msg.length) (hmax : msg.length ≤ a.nmaxb * 16) (ha : a.Accepted) (hnbw : 0 < a.nbw) :
    ∃ n, 1 ≤ n ∧ n ≤ a.nbw ∧ i + n ≤ numBlocks msg ∧ 14 + (blockList (i + 1) n).length + 16 * n < 256 ∧
      sendNextNdefUpdateCmd cb = (.ok, { cb with
        ndefMsgBytesSent := min (16 * (i + n)) msg.length
        curCmd := .updateNdef
        rwState := .commandPending }, [.frame (updateFrame cb.peerNdefNfcid2 msg i n)]) := by
  have hnmaxb := ha.nmaxb
  have hblocks := blocksRemaining_eq (Nat.le_of_lt hi) (show msg.length ≤ 16 * 65535 by omega)
  have hfirst : firstBlock (16 * i) = i + 1 := firstBlock_eq (by omega)
  -- the limit of the frame, then the one of the tag
  have hper : 1 ≤ blocksPerUpdate cb (i + 1) ∧ blocksPerUpdate cb (i + 1) ≤ a.nbw ∧
      (blocksPerUpdate cb (i + 1) ≤ 12 ∨ blocksPerUpdate cb (i + 1) ≤ 13 ∧ i + 1 + 13 < 256) := by
    have heq : blocksPerUpdate cb (i + 1) = if (if i + 1 + 13 < 256 then 13 else 12) > a.nbw then a.nbw
        else if i + 1 + 13 < 256 then 13 else 12 := by
      rw [← hattr]
      rfl
    rw [heq]
    split
    · split <;> omega
    · split <;> omega
  obtain ⟨n, hn⟩ : ∃ n, n = if (msg.length + 15) / 16 - i ≤ blocksPerUpdate cb (i + 1) then (msg.length + 15) / 16 - i
      else blocksPerUpdate cb (i + 1) := ⟨_, rfl⟩
  have hn1 : 1 ≤ n ∧ n ≤ blocksPerUpdate cb (i + 1) ∧ i + n ≤ (msg.length + 15) / 16 := by
    rw [hn]
    split <;> omega
  have hfit : 14 + (blockList (i + 1) n).length + 16 * n < 256 := by
    have hthree := length_blockList_le n (i + 1)
    by_cases hlow : i + 1 + n ≤ 256
    · rw [length_blockList_low n (i + 1) hlow]
      omega
    · omega
  refine ⟨n, hn1.1, by omega, hn1.2.2, hfit, ?_⟩
  have hpayload := updatePayload_eq hmsg hsent hi (by omega) hn1.1 hn1.2.2
  unfold sendNextNdefUpdateCmd
  rw [hlen, hsent, if_neg (by omega)]
  dsimp only
  rw [hblocks, hfirst, ← hn, if_neg (by omega), hpayload, sendCmd_frame]
  have hbytes : 16 * i + (min (16 * (i + n)) msg.length - 16 * i) = min (16 * (i + n)) msg.length := by omega
  rw [hbytes]
  rfl

/-! ## One command -/

/-- What the reader does when an UPDATE has been carried out. -/
def updateAnswered (cb : Cb) : Cb × List Out :=
  if cb.isFinalNdefSegment then
    updateCplt { cb with ndefAttrib := { cb.ndefAttrib with ln := cb.ndefMsgLen } } .ok
  else if cb.ndefMsgBytesSent < cb.ndefMsgLen then
    if (sendNextNdefUpdateCmd cb).1 = .ok then (sendNextNdefUpdateCmd cb).2
    else updateCplt (sendNextNdefUpdateCmd cb).2.1 (sendNextNdefUpdateCmd cb).1
  else sendUpdateNdefAttributeCmd { cb with isFinalNdefSegment := true } false

/-- The identifiers and the attributes of the tag are known to the reader. -/
structure Linked (a : Detect) (s : Sys) : Prop where
  idm : s.cb.peerNdefNfcid2 = s.tag.idm
  idmLen : s.tag.idm.length = 8
  nbr : s.tag.attr.nbr = a.nbr
  nbw : s.tag.attr.nbw = a.nbw
  nmaxb : s.tag.attr.nmaxb = a.nmaxb

structure Updating (a : Detect) (msg : Bytes) (s : Sys) : Prop extends Linked a s where
  attrib : s.cb.ndefAttrib = a
  pending : s.cb.rwState = .commandPending
  cmd : s.cb.curCmd = .updateNdef
  msgEq : s.cb.ndefMsg = msg
  msgLen : s.cb.ndefMsgLen = msg.length

theorem handleUpdateNdefRsp_ok {cb : Cb} {idm : Bytes} (hidm : cb.peerNdefNfcid2 = idm) (hlen : idm.length = 8) :
    handleUpdateNdefRsp cb (opcUpdateRsp :: idm ++ [0, 0] ++ [0]) = updateAnswered cb := by
  have hstatus : rspStatus1 (opcUpdateRsp :: idm ++ [0, 0] ++ [0]) = 0 := by
    rw [List.append_assoc]
    exact rspStatus1_cons opcUpdateRsp 0 hlen
  have hrsp : rspIdm (opcUpdateRsp :: idm ++ [0, 0] ++ [0]) = idm := by
    rw [List.append_assoc]
    exact rspIdm_cons opcUpdateRsp hlen
  have hcode : rspCode (opcUpdateRsp :: idm ++ [0, 0] ++ [0]) = opcUpdateRsp := rfl
  unfold handleUpdateNdefRsp
  rw [if_neg, if_neg (not_not.mpr hcode)]
  · rfl
  · rw [hstatus, hrsp, hidm]
    rintro (h | h)
    · exact h rfl
    · exact h rfl

theorem step_update {s : Sys} (h : Updating a msg s) {list data : Bytes} {n : Nat}
    {blocks : List Nat} (hpending : s.pending = some (cmdFrame s.tag.idm opcUpdateCmd ndefScRw list n data))
    (hn : n < 256) (hlen : 14 + list.length + data.length < 256)
    (hlist : parseBlockList n (list ++ data) = some (blocks, data)) (hacc : s.tag.accepts s.tag.attr.nbw blocks)
    (hdata : data.length = blocks.length * 16) :
    s.step = Sys.emit { s with tag := { s.tag with blocks := writeBlocks s.tag.blocks blocks data } }
      (updateAnswered s.cb) := by
  have hrsp : (opcUpdateRsp :: s.tag.idm ++ [0, 0]).length = 11 := by
    rw [List.length_append, List.length_cons, h.idmLen]
    rfl
  have hcmd : handleRsp s.cb (opcUpdateRsp :: s.tag.idm ++ [0, 0] ++ [0]) = updateAnswered s.cb := by
    rw [← handleUpdateNdefRsp_ok h.idm h.idmLen]
    unfold handleRsp
    rw [h.cmd]
  unfold Sys.step
  rw [hpending]
  dsimp only
  rw [exec_update h.idmLen hn hlen hlist hacc hdata]
  dsimp only
  rw [dataCback_rsp h.pending (by rw [hrsp]) (by rw [hrsp]; decide), hcmd]

/-! ## All commands -/

/-- The first `i` blocks of the message are on the tag. -/
def Written (t : Tag) (msg : Bytes) (i : Nat) : Prop := ∀ j, j < i → t.blocks (j + 1) = msgBlock msg j

/-- A frame of the reader: not too long, and not too many blocks. -/
structure FrameOk (a : Detect) (f : Bytes) : Prop where
  length : f.length ≤ 255
  blocks : ∀ c, parseFrame f = some c → c.blocks.length ≤ a.nbw

/-- The message is written, from the system `s` on. -/
structure Completed (a : Detect) (msg : Bytes) (s s' : Sys) : Prop where
  pending : s'.pending = none
  events : s'.events = s.events ++ [.updateCplt .ok]
  frames : ∃ fs, s'.frames = s.frames ++ fs ∧ ∀ f ∈ fs, FrameOk a f
  written : Written s'.tag msg (numBlocks msg)
  block0 : s'.tag.blocks 0 = attrInfo a writefOff msg.length
  idm : s'.tag.idm = s.tag.idm
  peer : s'.cb.peerNdefNfcid2 = s'.tag.idm
  state : s'.cb.rwState = .idle
  attrib : s'.cb.ndefAttrib = { a with ln := msg.length }

theorem after_succ (n : Nat) (s : Sys) : Sys.after (n + 1) s = Sys.after n s.step := rfl

theorem written_update {t : Tag} {i n : Nat} (h : Written t msg i) :
    Written { t with blocks := writeBlocks t.blocks (List.range' (i + 1) n) ((List.range' i n).flatMap (msgBlock msg)) }
      msg (i + n) := by
  intro j hj
  dsimp only
  rw [writeBlocks_range]
  by_cases hin : i + 1 ≤ j + 1 ∧ j + 1 < i + 1 + n
  · rw [if_pos hin]
    have hsub : j + 1 - (i + 1) = j - i := by omega
    rw [hsub, slice_flatMap_msgBlock msg (show j - i < n by omega)]
    congr 1
    omega
  · rw [if_neg hin]
    exact h j (by omega)

theorem block0_update (t : Tag) (i n : Nat) (data : Bytes) :
    writeBlocks t.blocks (List.range' (i + 1) n) data 0 = t.blocks 0 := by
  rw [writeBlocks_range, if_neg (by omega)]

theorem parse_block0 (data : Bytes) : parseBlockList 1 ([twoByteFormat, 0] ++ data) = some ([0], data) := rfl

theorem accepts_block0 (t : Tag) (limit : Nat) : t.accepts limit [0] := by
  refine ⟨.inr rfl, fun b hb => ?_⟩
  rw [List.mem_singleton.mp hb]
  exact Nat.zero_le _

theorem frameOk_block0 {idm info : Bytes} (hidm : idm.length = 8) (hinfo : info.length = 16)
    (hnbw : 0 < a.nbw) : FrameOk a (cmdFrame idm opcUpdateCmd ndefScRw [twoByteFormat, 0] 1 info) := by
  have hlen := @length_cmdFrame idm [twoByteFormat, 0] info opcUpdateCmd ndefScRw 1 hidm
  have htwo : [twoByteFormat, (0 : UInt8)].length = 2 := rfl
  refine ⟨by omega, fun c hc => ?_⟩
  rw [parseFrame_cmd hidm (by decide) (by decide) (by omega) (parse_block0 info)] at hc
  obtain rfl := Option.some.inj hc
  exact hnbw

theorem frameOk_updateFrame {idm msg : Bytes} {i n : Nat} (hidm : idm.length = 8) (hn : n ≤ a.nbw)
    (hblock : i + 1 + n ≤ 65536) (hlen : 14 + (blockList (i + 1) n).length + 16 * n < 256) :
    FrameOk a (updateFrame idm msg i n) := by
  have hdata := length_flatMap_msgBlock msg n i
  have hlength := @length_cmdFrame idm (blockList (i + 1) n) ((List.range' i n).flatMap (msgBlock msg))
    opcUpdateCmd ndefScRw n hidm
  refine ⟨?_, fun c hc => ?_⟩
  · unfold updateFrame
    omega
  · unfold updateFrame at hc
    rw [parseFrame_cmd hidm (by decide) (by omega) (by omega) (parseBlockList_blockList n (i + 1) _ hblock)] at hc
    obtain rfl := Option.some.inj hc
    dsimp only
    rw [List.length_range']
    exact hn

theorem update_finishes {s : Sys} (hnbw : 0 < a.nbw) (h : Updating a msg s)
    (hlast : s.cb.isFinalNdefSegment = false) (hsent : ¬ s.cb.ndefMsgBytesSent < s.cb.ndefMsgLen)
    (hw : Written s.tag msg (numBlocks msg)) :
    Completed a msg s (Sys.after 1 (Sys.emit s (updateAnswered s.cb))) := by
  obtain ⟨info, hinfo⟩ : ∃ info, info = attrInfo a writefOff msg.length := ⟨_, rfl⟩
  have hframe : updateAnswered s.cb = ({ s.cb with
      isFinalNdefSegment := true
      curCmd := .updateNdef
      rwState := .commandPending }, [.frame (cmdFrame s.tag.idm opcUpdateCmd ndefScRw [twoByteFormat, 0] 1 info)]) := by
    unfold updateAnswered
    rw [hlast, if_neg nofun, if_neg hsent]
    unfold sendUpdateNdefAttributeCmd
    dsimp only
    rw [if_neg nofun, sendCmd_frame, h.attrib, h.msgLen, ← hinfo, ← h.idm]
  obtain ⟨s₁, hs₁⟩ : ∃ s₁, s₁ = Sys.emit s (updateAnswered s.cb) := ⟨_, rfl⟩
  rw [hframe] at hs₁
  have h₁ : Updating a msg s₁ := by
    rw [hs₁]
    exact ⟨⟨h.idm, h.idmLen, h.nbr, h.nbw, h.nmaxb⟩, h.attrib, rfl, rfl, h.msgEq, h.msgLen⟩
  have hlen : info.length = 16 := by rw [hinfo]; rfl
  have hstep := step_update h₁ (by rw [hs₁]; rfl) (by decide) (by rw [hlen]; decide) (parse_block0 info)
    (accepts_block0 s₁.tag _) hlen
  rw [hframe, ← hs₁, after_succ, hstep]
  have hdone : updateAnswered s₁.cb =
      updateCplt { s₁.cb with ndefAttrib := { s₁.cb.ndefAttrib with ln := s₁.cb.ndefMsgLen } } .ok := by
    have hfin : s₁.cb.isFinalNdefSegment = true := by rw [hs₁]; rfl
    unfold updateAnswered
    rw [if_pos hfin]
  rw [hdone]
  have hinfo16 : info.take 16 = info := List.take_of_length_le (by omega)
  refine ⟨rfl, ?_, ⟨[cmdFrame s.tag.idm opcUpdateCmd ndefScRw [twoByteFormat, 0] 1 info], ?_, ?_⟩, ?_, ?_, ?_, ?_, rfl, ?_⟩
  · rw [hs₁]
    simp [Sys.emit, updateCplt, Out.event?, Sys.after]
  · rw [hs₁]
    simp [Sys.emit, updateCplt, Out.frame?, Sys.after]
  · intro f hf
    rw [List.mem_singleton.mp hf]
    exact frameOk_block0 h.idmLen hlen hnbw
  · intro j hj
    show Function.update s₁.tag.blocks 0 (info.take 16) (j + 1) = _
    rw [Function.update_of_ne (by omega), hs₁]
    exact hw j hj
  · show Function.update s₁.tag.blocks 0 (info.take 16) 0 = _
    rw [Function.update_self, hinfo16, hinfo]
  · rw [hs₁]
    rfl
  · rw [hs₁]
    exact h.idm
  · show ({ s₁.cb.ndefAttrib with ln := s₁.cb.ndefMsgLen } : Detect) = _
    rw [h₁.attrib, h₁.msgLen]

theorem update_completes (ha : a.Accepted) (hnbw : 0 < a.nbw)
    (hmax : msg.length ≤ a.nmaxb * 16) (k : Nat) : ∀ (i : Nat) (s : Sys), numBlocks msg - i ≤ k → i ≤ numBlocks msg →
    Updating a msg s → s.cb.isFinalNdefSegment = false → s.cb.ndefMsgBytesSent = min (16 * i) msg.length →
    Written s.tag msg i → ∃ n, Completed a msg s (Sys.after n (Sys.emit s (updateAnswered s.cb))) := by
  have hnmaxb := ha.nmaxb
  induction k with
  | zero =>
    intro i s hk hi h hlast hsent hw
    obtain rfl : i = numBlocks msg := by omega
    refine ⟨1, update_finishes hnbw h hlast ?_ hw⟩
    rw [hsent, h.msgLen]
    unfold numBlocks
    omega
  | succ k ih =>
    intro i s hk hi h hlast hsent hw
    by_cases hdone : i = numBlocks msg
    · subst hdone
      refine ⟨1, update_finishes hnbw h hlast ?_ hw⟩
      rw [hsent, h.msgLen]
      unfold numBlocks
      omega
    -- there is a block left
    have hlt : 16 * i < msg.length := by
      unfold numBlocks at hi hdone
      omega
    have hsent' : s.cb.ndefMsgBytesSent = 16 * i := by omega
    obtain ⟨n, hn1, hn, hle, hfit, hsend⟩ := sendNextNdefUpdateCmd_spec h.attrib h.msgEq h.msgLen hsent' hlt hmax ha hnbw
    have hbound : i + 1 + n ≤ 65536 := by
      unfold numBlocks at hle
      omega
    obtain ⟨s₁, hs₁⟩ : ∃ s₁, s₁ = Sys.emit s ({ s.cb with
        ndefMsgBytesSent := min (16 * (i + n)) msg.length
        curCmd := .updateNdef
        rwState := .commandPending }, [.frame (updateFrame s.tag.idm msg i n)]) := ⟨_, rfl⟩
    have hanswer : Sys.emit s (updateAnswered s.cb) = s₁ := by
      unfold updateAnswered
      rw [hlast, if_neg nofun, if_pos (by rw [hsent', h.msgLen]; exact hlt), hsend]
      dsimp only
      rw [if_pos rfl, hs₁, ← h.idm]
    have h₁ : Updating a msg s₁ := by
      rw [hs₁]
      exact ⟨⟨h.idm, h.idmLen, h.nbr, h.nbw, h.nmaxb⟩, h.attrib, rfl, rfl, h.msgEq, h.msgLen⟩
    have hdata := length_flatMap_msgBlock msg n i
    have hacc : s₁.tag.accepts s₁.tag.attr.nbw (List.range' (i + 1) n) := by
      rw [h₁.nbw]
      refine ⟨.inl ⟨by rw [List.length_range']; exact hn1, by rw [List.length_range']; exact hn⟩, fun b hb => ?_⟩
      rw [h₁.nmaxb]
      rw [List.mem_range'_1] at hb
      unfold numBlocks at hle
      omega
    have hstep := step_update h₁ (by rw [hs₁]; rfl) (by omega) (by omega)
      (parseBlockList_blockList n (i + 1) _ hbound) hacc (by rw [hdata, List.length_range']; omega)
    obtain ⟨s₂, hs₂⟩ : ∃ s₂, s₂ = { s₁ with tag := { s₁.tag with
        blocks := writeBlocks s₁.tag.blocks (List.range' (i + 1) n) ((List.range' i n).flatMap (msgBlock msg)) } } :=
      ⟨_, rfl⟩
    have h₂ : Updating a msg s₂ := by
      have hattr : s₂.tag.attr = s₁.tag.attr := by
        rw [hs₂]
        exact congrArg parseAttr (block0_update s₁.tag i n _)
      refine ⟨⟨?_, ?_, ?_, ?_, ?_⟩, ?_, ?_, ?_, ?_, ?_⟩
      · rw [hs₂]; exact h₁.idm
      · rw [hs₂]; exact h₁.idmLen
      · rw [hattr]; exact h₁.nbr
      · rw [hattr]; exact h₁.nbw
      · rw [hattr]; exact h₁.nmaxb
      · rw [hs₂]; exact h₁.attrib
      · rw [hs₂]; exact h₁.pending
      · rw [hs₂]; exact h₁.cmd
      · rw [hs₂]; exact h₁.msgEq
      · rw [hs₂]; exact h₁.msgLen
    have hw₂ : Written s₂.tag msg (i + n) := by
      rw [hs₂, hs₁]
      exact written_update hw
    obtain ⟨m, hm⟩ := ih (i + n) s₂ (by omega) hle h₂ (by rw [hs₂, hs₁]; exact hlast) (by rw [hs₂, hs₁]; rfl) hw₂
    refine ⟨m + 1, ?_⟩
    rw [hanswer, after_succ, hstep, ← hs₂]
    have hcb : s₂.cb = s₁.cb := by rw [hs₂]
    rw [hcb] at hm
    obtain ⟨fs, hfs, hok⟩ := hm.frames
    refine ⟨hm.pending, ?_, ⟨updateFrame s.tag.idm msg i n :: fs, ?_, ?_⟩, hm.written, hm.block0, ?_, hm.peer, hm.state,
      hm.attrib⟩
    · rw [hm.events, hs₂, hs₁]
      simp [Sys.emit, Out.event?]
    · rw [hfs, hs₂, hs₁]
      simp [Sys.emit, Out.frame?]
    · intro f hf
      rcases List.mem_cons.mp hf with rfl | hf
      · exact frameOk_updateFrame h.idmLen hn hbound hfit
      · exact hok f hf
    · rw [hm.idm, hs₂, hs₁]
      rfl

end NfcStack.Rw.T3t
