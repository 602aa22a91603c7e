import NfcStack.Rw.T2tFill

/- The operation that writes a message: its steps on the control block and on the tag, and
   what each of them sends.

   What is proved:
     1. `SamePlan`: what a write of a block leaves of the plan.
     2. `writeFirst_spec`, `writeNext_spec`: the block that is written, and its bytes.
     3. `isReadBeforeWrite_spec`: which block comes next, and from where it is taken. -/
namespace NfcStack.Rw

/-! ## What a write keeps -/

/-- What does not change while a message is written. -/
structure SamePlan (a b : T2tCb) : Prop where
  hdr : b.tagHdr = a.tagHdr
  lockTlvs : b.lockTlvs = a.lockTlvs
  lockBytes : b.lockBytes = a.lockBytes
  memTlvs : b.memTlvs = a.memTlvs
  header : b.ndefHeaderOffset = a.ndefHeaderOffset
  len : b.newNdefMsgLen = a.newNdefMsgLen
  buffer : b.newNdefBuffer = a.newNdefBuffer
  before : b.beforeNewBuffer = a.beforeNewBuffer
  last : b.ndefLastBlockNum = a.ndefLastBlockNum
  term : b.terminatorByteIndex = a.terminatorByteIndex
  msgOffset : b.ndefMsgOffset = a.ndefMsgOffset
  msgLen : b.ndefMsgLen = a.ndefMsgLen
  detected : b.ndefDetected = a.ndefDetected

section Plan
variable {a b c cb : T2tCb}

theorem SamePlan.trans (h : SamePlan a b) (h' : SamePlan b c) : SamePlan a c :=
  ⟨h'.hdr.trans h.hdr, h'.lockTlvs.trans h.lockTlvs, h'.lockBytes.trans h.lockBytes,
    h'.memTlvs.trans h.memTlvs, h'.header.trans h.header, h'.len.trans h.len, h'.buffer.trans h.buffer,
    h'.before.trans h.before, h'.last.trans h.last, h'.term.trans h.term, h'.msgOffset.trans h.msgOffset,
    h'.msgLen.trans h.msgLen, h'.detected.trans h.detected⟩

theorem SamePlan.marked (h : SamePlan a b) : b.marked = a.marked := by
  funext x
  unfold T2tCb.marked T2tCb.lockOffsets
  rw [h.lockTlvs, h.lockBytes, h.memTlvs]

theorem SamePlan.reserved (h : SamePlan a b) : b.isLockResByte = a.isLockResByte := by
  funext x
  unfold T2tCb.isLockResByte
  rw [h.marked]
  unfold T2tCb.lockOffsets
  rw [h.lockTlvs, h.lockBytes]

theorem SamePlan.freeCount (h : SamePlan a b) : b.freeCount = a.freeCount := by
  funext x
  unfold T2tCb.freeCount
  simp only [h.reserved]

theorem SamePlan.freeInBlock (h : SamePlan a b) : freeInBlock b = freeInBlock a := by
  funext x
  unfold Rw.freeInBlock
  rw [h.reserved]

theorem SamePlan.lengthFieldLen (h : SamePlan a b) : b.lengthFieldLen = a.lengthFieldLen := by
  unfold T2tCb.lengthFieldLen
  rw [h.len]

theorem SamePlan.totalBytes (h : SamePlan a b) : b.totalBytes = a.totalBytes := by
  unfold T2tCb.totalBytes
  rw [h.len, h.lengthFieldLen]

theorem SamePlan.totalBlocks (h : SamePlan a b) : b.totalBlocks = a.totalBlocks := by
  unfold T2tCb.totalBlocks
  rw [h.hdr]

theorem SamePlan.streamByte (h : SamePlan a b) : b.streamByte = a.streamByte := by
  funext field p
  unfold T2tCb.streamByte T2tCb.newByte
  rw [h.lengthFieldLen, h.len, h.before, h.buffer]

theorem SamePlan.lengthField (h : SamePlan a b) : b.lengthField = a.lengthField := by
  funext n
  unfold T2tCb.lengthField
  rw [h.lengthFieldLen]

/-! ## The block that is written -/

/-- The bytes of a block that is filled from the index on, over the bytes `wb`. -/
def T2tCb.filled (cb : T2tCb) (field : ByteFn) (block index : Nat) (wb : ByteFn) : ByteFn := fun i =>
  if index ≤ i ∧ i < 4 ∧ cb.isLockResByte (block * 4 + i) = false ∧
      cb.freeCount (block * 4 + i) - cb.freeCount cb.ndefHeaderOffset < cb.totalBytes then
    cb.streamByte field (cb.freeCount (block * 4 + i) - cb.freeCount cb.ndefHeaderOffset)
  else wb i

def T2tCb.workBehind (cb : T2tCb) (block : Nat) : Nat :=
  min cb.totalBytes (cb.freeCount (block * 4 + 4) - cb.freeCount cb.ndefHeaderOffset)

theorem totalBytes_pos (cb : T2tCb) : 0 < cb.totalBytes := Nat.add_pos_right _ (lengthFieldLen_pos cb)

def T2tCb.firstFilled (cb : T2tCb) (msgLen : Nat) : ByteFn :=
  cb.filled (cb.lengthField msgLen) (cb.ndefHeaderOffset / 4) (cb.ndefHeaderOffset % 4) cb.ndefFirstBlock

theorem firstBlockLoop_spec {msgLen n : Nat} (hfree : cb.isLockResByte cb.ndefHeaderOffset = false)
    (hin : cb.ndefHeaderOffset / 4 < cb.totalBlocks) :
    firstBlockLoop cb (cb.lengthField msgLen) (n + 1) (cb.ndefHeaderOffset / 4) (cb.ndefHeaderOffset % 4)
        cb.ndefFirstBlock =
      some (cb.ndefHeaderOffset / 4, cb.workBehind (cb.ndefHeaderOffset / 4), cb.firstFilled msgLen) := by
  have haddr : cb.ndefHeaderOffset / 4 * 4 + cb.ndefHeaderOffset % 4 = cb.ndefHeaderOffset := by omega
  obtain ⟨hwork, hbytes⟩ := @fillBlock_spec cb (cb.lengthField msgLen) (cb.ndefHeaderOffset / 4)
    (cb.freeCount cb.ndefHeaderOffset) (cb.ndefHeaderOffset % 4) 0 cb.ndefFirstBlock (by omega)
    (by rw [haddr, Nat.zero_add]) (lengthFieldLen_pos cb)
  have hfill : fillBlock cb (cb.lengthField msgLen) (cb.ndefHeaderOffset / 4) (cb.ndefHeaderOffset % 4) 0
      cb.ndefFirstBlock = (cb.workBehind (cb.ndefHeaderOffset / 4), cb.firstFilled msgLen) :=
    Prod.ext hwork (funext hbytes)
  have hprogress : cb.workBehind (cb.ndefHeaderOffset / 4) ≠ 0 := by
    have hsucc := freeCount_succ_free hfree
    have hmono := @freeCount_mono cb (cb.ndefHeaderOffset + 1) (cb.ndefHeaderOffset / 4 * 4 + 4) (by omega)
    have hpos := totalBytes_pos cb
    unfold T2tCb.workBehind
    omega
  unfold firstBlockLoop
  rw [if_pos hin, hfill]
  dsimp only
  rw [if_neg hprogress]

/-- The first block, if it has a number of eight bits and lies in the data area. -/
theorem writeFirst_spec {msgLen : Nat} {bUpdateLen : Bool}
    (hfree : cb.isLockResByte cb.ndefHeaderOffset = false) (hsmall : cb.ndefHeaderOffset / 4 < 2 ^ 8)
    (hin : cb.ndefHeaderOffset / 4 < cb.totalBlocks) :
    writeNdefFirstBlock cb msgLen bUpdateLen =
      sendWrite { updateCb { cb with workOffset := cb.workBehind (cb.ndefHeaderOffset / 4) }
          (cb.ndefHeaderOffset / 4) (cb.firstFilled msgLen) bUpdateLen with bReadData := false }
        (cb.ndefHeaderOffset / 4) (cb.firstFilled msgLen) := by
  have hloop := @firstBlockLoop_spec { cb with workOffset := 0 } msgLen (cb.totalBlocks + 255) hfree hin
  unfold writeNdefFirstBlock writeFirstFrom
  rw [show cb.ndefHeaderOffset / t2tBlockSize % 2 ^ 8 = cb.ndefHeaderOffset / 4 from
    Nat.mod_eq_of_lt hsmall, show ({ cb with workOffset := 0 } : T2tCb).totalBlocks + 2 ^ 8 = cb.totalBlocks + 255 + 1 from
    rfl, hloop]
  rfl

theorem writeFirst_outside {msgLen : Nat} {bUpdateLen : Bool} (hsmall : cb.ndefHeaderOffset / 4 < 2 ^ 8)
    (hout : ¬ cb.ndefHeaderOffset / 4 < cb.totalBlocks) :
    (writeNdefFirstBlock cb msgLen bUpdateLen).2 = .done false := by
  have hloop : ∀ (u : T2tCb), ¬ u.ndefHeaderOffset / 4 < u.totalBlocks → u.ndefHeaderOffset / 4 < 2 ^ 8 →
      (writeFirstFrom u msgLen bUpdateLen).2 = .done false := by
    intro u hu hsmall'
    unfold writeFirstFrom
    rw [show u.ndefHeaderOffset / t2tBlockSize % 2 ^ 8 = u.ndefHeaderOffset / 4 from
      Nat.mod_eq_of_lt hsmall', show u.totalBlocks + 2 ^ 8 = u.totalBlocks + 255 + 1 from rfl]
    unfold firstBlockLoop
    rw [if_neg hu]
  exact hloop { cb with workOffset := 0 } hout hsmall

/-- The bytes of a block behind the first one. -/
def T2tCb.nextFilled (cb : T2tCb) (msgLen block : Nat) : ByteFn :=
  cb.filled (cb.lengthField msgLen) block 0 cb.ndefReadBlock

/-- A block behind the first one, of which some byte is free, in the data area. -/
theorem writeNext_spec {block msgLen : Nat} {bUpdateLen : Bool}
    (hwork : cb.workOffset + cb.freeCount cb.ndefHeaderOffset = cb.freeCount (block * 4))
    (hlt : cb.workOffset < cb.totalBytes) (hfree : 0 < freeInBlock cb block)
    (hin : block < cb.totalBlocks) :
    writeNdefNextBlock cb block msgLen bUpdateLen =
      sendWrite (updateCb { cb with workOffset := cb.workBehind block } block (cb.nextFilled msgLen block)
        bUpdateLen) block (cb.nextFilled msgLen block) := by
  have hprogress : cb.workBehind block ≠ cb.workOffset := by
    have hcount := @freeCount_block cb block
    unfold T2tCb.workBehind
    omega
  have hfill : (if cb.workOffset ≥ cb.lengthFieldLen then
      fillMessage cb block t2tBlockSize 0 cb.workOffset cb.ndefReadBlock
      else fillBlock cb (cb.lengthField msgLen) block 0 cb.workOffset cb.ndefReadBlock) =
      (cb.workBehind block, cb.nextFilled msgLen block) := by
    split
    · rename_i hge
      obtain ⟨hwo, hbytes⟩ := @fillMessage_spec cb block (cb.freeCount cb.ndefHeaderOffset) t2tBlockSize 0
        cb.workOffset cb.ndefReadBlock hwork hlt.le
      refine Prod.ext hwo (funext fun i => (hbytes i).trans ?_)
      unfold T2tCb.nextFilled T2tCb.filled
      dsimp only
      rw [Nat.zero_add]
      by_cases hi : 0 ≤ i ∧ i < 4 ∧ cb.isLockResByte (block * 4 + i) = false ∧
          cb.freeCount (block * 4 + i) - cb.freeCount cb.ndefHeaderOffset < cb.totalBytes
      · have hmono := @freeCount_mono cb (block * 4) (block * 4 + i) (by omega)
        rw [if_pos hi, if_pos hi]
        unfold T2tCb.streamByte
        rw [if_neg (by omega)]
      · rw [if_neg hi, if_neg hi]
    · rename_i hlen
      obtain ⟨hwo, hbytes⟩ := @fillBlock_spec cb (cb.lengthField msgLen) block
        (cb.freeCount cb.ndefHeaderOffset) 0 cb.workOffset cb.ndefReadBlock (by omega) hwork (by omega)
      exact Prod.ext hwo (funext hbytes)
  have hloop : nextBlockLoop cb (cb.lengthField msgLen) (cb.totalBlocks - block - 1 + 1) block cb.ndefReadBlock =
      some (block, cb.workBehind block, cb.nextFilled msgLen block) := by
    unfold nextBlockLoop
    rw [hfill]
    dsimp only
    rw [if_neg hprogress]
  unfold writeNdefNextBlock
  rw [show cb.totalBlocks - block = cb.totalBlocks - block - 1 + 1 by omega, hloop]

theorem writeNext_outside {block msgLen : Nat} {bUpdateLen : Bool} (hout : ¬ block < cb.totalBlocks) :
    writeNdefNextBlock cb block msgLen bUpdateLen = (cb, .done false) := by
  unfold writeNdefNextBlock
  rw [show cb.totalBlocks - block = 0 by omega]
  rfl

/-! ## The next block -/

/-- The block behind one that is written: the last block, from its copy, or the next one of which
some byte is free, which is read first unless all are. -/
theorem isReadBeforeWrite_spec {b : Nat} (hfirst : b ≠ cb.ndefHeaderOffset / 4)
    (hterm : b = cb.terminatorByteIndex / 4 → b = cb.ndefLastBlockNum) :
    (b = cb.ndefLastBlockNum ∧
        isReadBeforeWriteBlock cb b = ({ cb with ndefReadBlock := cb.ndefLastBlock }, false, b)) ∨
      (b ≠ cb.ndefLastBlockNum ∧ ∃ rbw k, isReadBeforeWriteBlock cb b = (cb, rbw, k) ∧ b ≤ k ∧
        cb.freeCount (k * 4) = cb.freeCount (b * 4) ∧ (k < cb.totalBlocks → 0 < freeInBlock cb k) ∧
        (rbw = false → k < cb.totalBlocks ∧ freeInBlock cb k = t2tBlockSize)) := by
  unfold isReadBeforeWriteBlock
  rw [if_neg hfirst]
  by_cases hlast : b = cb.ndefLastBlockNum
  · rw [if_pos hlast]
    exact .inl ⟨hlast, rfl⟩
  · rw [if_neg hlast, if_neg fun h => hlast (hterm h)]
    obtain ⟨rbw, k, hr, hle, hmax, hcount, hsome, hdirect⟩ :=
      @freeBlockLoop_spec cb (cb.totalBlocks - b) b
    refine .inr ⟨hlast, rbw, k, by rw [hr], hle, hcount, fun hk => hsome (by omega), fun hf => ?_⟩
    obtain ⟨hk, hfull⟩ := hdirect hf
    exact ⟨by omega, hfull⟩

end Plan

theorem handle_first {cb : T2tCb} {data : ByteFn} (hsub : cb.substate = .waitReadNdefFirstBlock) :
    handleNdefWrite cb data = writeNdefFirstBlock
      { readNdefLastBlock { cb with ndefFirstBlock := data } with terminatorTlvBlock := fun _ => 0 } 0 false := by
  cases cb
  cases hsub
  rfl

theorem handle_readNext {cb : T2tCb} {data : ByteFn} {k r : Nat} (hsub : cb.substate = .waitReadNdefNextBlock)
    (hnum : cb.ndefReadBlockNum = k) (hread : cb.blockRead = r) :
    handleNdefWrite cb data = writeNdefNextBlock
      { cb with ndefReadBlock := fun i => data ((k - r) * t2tBlockSize + i) } k 0 false := by
  cases cb
  cases hsub
  cases hnum
  cases hread
  rfl

/-- The response to the write of the last block: the length field follows, from the copy of the
first block. -/
theorem handle_last {cb : T2tCb} {data : ByteFn} (hsub : cb.substate = .waitWriteNdefLastBlock) :
    handleNdefWrite cb data = writeNdefFirstBlock { cb with
      ndefWriteBlock := cb.ndefHeaderOffset / t2tBlockSize
      ndefReadBlock := cb.ndefFirstBlock } cb.newNdefMsgLen true := by
  have hread : isReadBeforeWriteBlock { cb with ndefWriteBlock := cb.ndefHeaderOffset / t2tBlockSize }
      (cb.ndefHeaderOffset / t2tBlockSize) = ({ cb with
        ndefWriteBlock := cb.ndefHeaderOffset / t2tBlockSize
        ndefReadBlock := cb.ndefFirstBlock }, false, cb.ndefHeaderOffset / t2tBlockSize) := if_pos rfl
  cases cb
  cases hsub
  unfold handleNdefWrite
  dsimp only
  rw [hread]

end NfcStack.Rw
