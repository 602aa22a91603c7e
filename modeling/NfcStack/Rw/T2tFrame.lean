import NfcStack.Rw.T2tWrite

/- What the operation that writes a message leaves alone. A whole block is written each
   time, most of them from a copy: the copy of the first block is read from the tag, that
   of the last block is not, and the block of the terminator is put together anew.

   What is proved:
     1. `planned_readNdefLastBlock`: where the message ends.
     2. `keeps_filled`: a block that is filled over a copy keeps what the copy keeps.
     3. `frame_step`: each command keeps the protected bytes, and each copy does. -/
namespace NfcStack.Rw

section Frame
variable {cb cb₁ u : T2tCb} {mem mem₀ d : ByteFn}

/-! ## Where the message ends -/

structure Planned (cb : T2tCb) : Prop where
  header : cb.ndefHeaderOffset / 4 ≤ cb.ndefLastBlockNum
  before : cb.freeCount (cb.ndefLastBlockNum * 4) < cb.totalBytes + cb.freeCount cb.ndefHeaderOffset
  behind : cb.totalBytes + cb.freeCount cb.ndefHeaderOffset ≤ cb.freeCount (cb.ndefLastBlockNum * 4 + 4)
  some : 0 < freeInBlock cb cb.ndefLastBlockNum
  term : cb.terminatorByteIndex ≠ 0 → cb.isLockResByte cb.terminatorByteIndex = false ∧
    cb.ndefHeaderOffset < cb.terminatorByteIndex ∧
    (cb.terminatorByteIndex / 4 = cb.ndefLastBlockNum ∨
      cb.terminatorByteIndex = cb.ndefLastBlockNum * 4 + 4)

theorem planned_placeEnd {e : Nat} (hcount : cb.freeCount e = cb.totalBytes + cb.freeCount cb.ndefHeaderOffset)
    (hge : cb.ndefHeaderOffset ≤ e - 1) (hpos : 0 < e) (hfree : cb.isLockResByte (e - 1) = false) :
    Planned (placeEnd cb e) := by
  have hsucc := freeCount_succ_free hfree
  rw [show e - 1 + 1 = e by omega] at hsucc
  have hmono := @freeCount_mono cb ((e - 1) / 4 * 4) (e - 1) (by omega)
  have hmono' := @freeCount_mono cb e ((e - 1) / 4 * 4 + 4) (by omega)
  constructor
  · show cb.ndefHeaderOffset / 4 ≤ (e - 1) / 4
    omega
  · show cb.freeCount ((e - 1) / 4 * 4) < cb.totalBytes + cb.freeCount cb.ndefHeaderOffset
    omega
  · show cb.totalBytes + cb.freeCount cb.ndefHeaderOffset ≤ cb.freeCount ((e - 1) / 4 * 4 + 4)
    omega
  · show 0 < freeInBlock cb ((e - 1) / 4)
    have hblock := @freeCount_block cb ((e - 1) / 4)
    omega
  · unfold placeEnd
    dsimp only
    intro hterm
    split at hterm
    · rename_i hroom
      split at hterm
      · exact absurd rfl hterm
      · rename_i hres
        rw [if_pos hroom, if_neg hres]
        refine ⟨?_, by omega, ?_⟩
        · show cb.isLockResByte e = false
          simpa using hres
        · show e / 4 = (e - 1) / 4 ∨ e = (e - 1) / 4 * 4 + 4
          omega
    · exact absurd rfl hterm

theorem planned_readNdefLastBlock (cb : T2tCb) : Planned (readNdefLastBlock cb) := by
  have hlf := lengthFieldLen_pos cb
  obtain ⟨hcount, hge, hpos, hfree⟩ := @lastByteLoop_spec cb (cb.lengthFieldLen + cb.newNdefMsgLen)
    cb.ndefHeaderOffset (by omega)
  rw [Nat.add_comm cb.lengthFieldLen] at hcount
  exact planned_placeEnd (by rw [Nat.add_comm cb.lengthFieldLen]; exact hcount) hge hpos hfree

/-! ## Protected bytes -/

/-- A byte that a TLV marks, that lies before the length field or outside the data area. -/
def T2tCb.Protected (cb : T2tCb) (a : Nat) : Prop :=
  cb.marked a = true ∨ a < cb.ndefHeaderOffset ∨ cb.dataEnd ≤ a

def T2tCb.Keeps (cb : T2tCb) (mem : ByteFn) (block : Nat) (d : ByteFn) : Prop :=
  ∀ i < 4, cb.Protected (block * 4 + i) → d i = mem (block * 4 + i)

theorem reserved_of_marked {a : Nat} (h : cb.marked a = true) : cb.isLockResByte a = true := by
  unfold T2tCb.isLockResByte
  rw [h, Bool.true_or]

theorem dataEnd_eq (cb : T2tCb) : cb.dataEnd = cb.totalBlocks * 4 := by
  show _ * 8 + 4 * 4 = (_ * 2 + 4) * 4
  omega

theorem SamePlan.filled (h : SamePlan cb₁ cb) : cb.filled = cb₁.filled := by
  funext field block index wb i
  unfold T2tCb.filled
  rw [h.reserved, h.freeCount, h.header, h.totalBytes, h.streamByte]

theorem SamePlan.workBehind (h : SamePlan cb₁ cb) : cb.workBehind = cb₁.workBehind := by
  funext block
  unfold T2tCb.workBehind
  rw [h.freeCount, h.header, h.totalBytes]

theorem keeps_filled {field wb : ByteFn} {block index : Nat} (hwb : cb.Keeps mem block wb)
    (hindex : cb.ndefHeaderOffset ≤ block * 4 + index) (hin : block < cb.totalBlocks) :
    cb.Keeps mem block (cb.filled field block index wb) := by
  intro i hi hprot
  unfold T2tCb.filled
  rw [if_neg, hwb i hi hprot]
  rintro ⟨hge, -, hfree, -⟩
  rcases hprot with hmarked | hbefore | hbehind
  · rw [reserved_of_marked hmarked] at hfree
    cases hfree
  · omega
  · rw [dataEnd_eq] at hbehind
    omega

/-- A block of which all bytes are free has none that is protected. -/
theorem keeps_free {block : Nat} (hfull : freeInBlock cb block = t2tBlockSize)
    (hfirst : cb.ndefHeaderOffset / 4 < block) (hin : block < cb.totalBlocks) (d : ByteFn) :
    cb.Keeps mem block d := by
  intro i hi hprot
  exfalso
  rcases hprot with hmarked | hbefore | hbehind
  · have hfree := free_of_freeInBlock hfull hi
    rw [reserved_of_marked hmarked] at hfree
    cases hfree
  · omega
  · rw [dataEnd_eq] at hbehind
    omega

/-- When a message can be written: the number of the first block has eight bits, the copy of the
last block is right where this is taken from it, and the terminator lies in the data area with
no protected byte behind it in its block, unless it is zero. -/
structure Writable (cb : T2tCb) (mem : ByteFn) : Prop where
  small : cb.ndefHeaderOffset / 4 < 2 ^ 8
  last : cb.ndefHeaderOffset / 4 < cb.ndefLastBlockNum → cb.ndefLastBlockNum < cb.totalBlocks →
    (cb.ndefLastBlockNum = cb.ndefHeaderOffset / 4 + 1 ∨ 0 < freeInBlock cb (cb.ndefLastBlockNum - 1)) →
    cb.Keeps mem cb.ndefLastBlockNum cb.ndefLastBlock
  term : cb.terminatorByteIndex ≠ 0 → cb.ndefLastBlockNum < cb.totalBlocks →
    cb.terminatorByteIndex / 4 < cb.totalBlocks ∧
    ∀ i, cb.terminatorByteIndex % 4 < i → i < 4 → cb.Protected (cb.terminatorByteIndex / 4 * 4 + i) →
      mem (cb.terminatorByteIndex / 4 * 4 + i) = 0

/-! ## Phases -/

/-- The phases of the operation, by what has been sent last. The work offset is at the number of
free bytes up to the block; a block that is sent keeps the protected bytes. -/
inductive Phase (cb₁ : T2tCb) (mem₀ : ByteFn) : T2tCb → Reply → Prop
  | next {cb : T2tCb} {b : Nat} {d : ByteFn}
      (hsub : cb.substate = .waitWriteNdefNextBlock ∨ cb.substate = .waitWriteNdefLenNextBlock ∧
        cb₁.ndefLastBlockNum < cb₁.totalBlocks ∧ cb₁.Keeps mem₀ cb₁.ndefLastBlockNum cb.ndefLastBlock)
      (hwritten : cb.blockWritten = b) (hfirst : cb₁.ndefHeaderOffset / 4 ≤ b)
      (hlast : b < cb₁.ndefLastBlockNum)
      (hsome : b = cb₁.ndefHeaderOffset / 4 ∨ 0 < freeInBlock cb₁ b)
      (hwork : cb.workOffset + cb₁.freeCount cb₁.ndefHeaderOffset = cb₁.freeCount (b * 4 + 4))
      (hkeeps : cb₁.Keeps mem₀ b d) : Phase cb₁ mem₀ cb (.cmd (.write b d))
  | readNext {cb : T2tCb} {k : Nat} (hsub : cb.substate = .waitReadNdefNextBlock)
      (hnum : cb.ndefReadBlockNum = k) (hread : cb.blockRead = k - k % 4)
      (hfirst : cb₁.ndefHeaderOffset / 4 < k) (hlast : k ≤ cb₁.ndefLastBlockNum)
      (hwork : cb.workOffset + cb₁.freeCount cb₁.ndefHeaderOffset = cb₁.freeCount (k * 4))
      (hsome : k < cb₁.totalBlocks → 0 < freeInBlock cb₁ k) :
      Phase cb₁ mem₀ cb (.cmd (.read (k - k % 4)))
  | last {cb : T2tCb} {d : ByteFn} (hsub : cb.substate = .waitWriteNdefLastBlock)
      (hin : cb₁.ndefLastBlockNum < cb₁.totalBlocks)
      (hcopy : cb₁.Keeps mem₀ cb₁.ndefLastBlockNum cb.ndefLastBlock)
      (hkeeps : cb₁.Keeps mem₀ cb₁.ndefLastBlockNum d) :
      Phase cb₁ mem₀ cb (.cmd (.write cb₁.ndefLastBlockNum d))
  | len {cb : T2tCb} {b : Nat} {d : ByteFn} (hsub : cb.substate = .waitWriteNdefLenBlock)
      (hin : cb₁.ndefLastBlockNum < cb₁.totalBlocks) (hterm : cb₁.terminatorByteIndex ≠ 0)
      (hcopy : cb₁.Keeps mem₀ cb₁.ndefLastBlockNum cb.ndefLastBlock)
      (hkeeps : cb₁.Keeps mem₀ b d) : Phase cb₁ mem₀ cb (.cmd (.write b d))
  | term {cb : T2tCb} {b : Nat} {d : ByteFn} (hsub : cb.substate = .waitWriteTermTlvCmplt)
      (hkeeps : cb₁.Keeps mem₀ b d) : Phase cb₁ mem₀ cb (.cmd (.write b d))
  | done {cb : T2tCb} {ok : Bool} : Phase cb₁ mem₀ cb (.done ok)

structure FrameInv (cb₁ : T2tCb) (mem₀ : ByteFn) (s : TagSys) : Prop where
  mem : ∀ a, cb₁.Protected a → s.mem a = mem₀ a
  phase : (∃ ok, s.reply = .done ok) ∨
    SamePlan cb₁ s.cb ∧ cb₁.Keeps mem₀ (cb₁.ndefHeaderOffset / 4) s.cb.ndefFirstBlock ∧
      (s.cb.ndefLastBlock = cb₁.ndefLastBlock ∨
        cb₁.Keeps mem₀ cb₁.ndefLastBlockNum s.cb.ndefLastBlock) ∧ Phase cb₁ mem₀ s.cb s.reply

/-! ## Steps -/

theorem SamePlan.firstFilled (h : SamePlan cb₁ cb) (msgLen : Nat) : cb.firstFilled msgLen =
    cb₁.filled (cb₁.lengthField msgLen) (cb₁.ndefHeaderOffset / 4) (cb₁.ndefHeaderOffset % 4)
      cb.ndefFirstBlock := by
  unfold T2tCb.firstFilled
  rw [h.filled, h.lengthField, h.header]

variable {bUpdateLen : Bool}

theorem writeFirst_same (h : SamePlan cb₁ cb) {msgLen : Nat}
    (hfree : cb₁.isLockResByte cb₁.ndefHeaderOffset = false) (hsmall : cb₁.ndefHeaderOffset / 4 < 2 ^ 8)
    (hin : cb₁.ndefHeaderOffset / 4 < cb₁.totalBlocks) :
    writeNdefFirstBlock cb msgLen bUpdateLen =
      sendWrite { updateCb { cb with workOffset := cb₁.workBehind (cb₁.ndefHeaderOffset / 4) }
          (cb₁.ndefHeaderOffset / 4) (cb.firstFilled msgLen) bUpdateLen with bReadData := false }
        (cb₁.ndefHeaderOffset / 4) (cb.firstFilled msgLen) := by
  have hspec := @writeFirst_spec cb msgLen bUpdateLen (by rw [h.reserved, h.header]; exact hfree)
    (by rw [h.header]; exact hsmall) (by rw [h.header, h.totalBlocks]; exact hin)
  rw [h.workBehind] at hspec
  rw [← h.header]
  exact hspec

theorem writeNext_same (h : SamePlan cb₁ cb) {block msgLen : Nat}
    (hwork : cb.workOffset + cb₁.freeCount cb₁.ndefHeaderOffset = cb₁.freeCount (block * 4))
    (hlt : cb.workOffset < cb₁.totalBytes) (hfree : 0 < freeInBlock cb₁ block)
    (hin : block < cb₁.totalBlocks) :
    writeNdefNextBlock cb block msgLen bUpdateLen =
      sendWrite (updateCb { cb with workOffset := cb₁.workBehind block } block
          (cb₁.filled (cb₁.lengthField msgLen) block 0 cb.ndefReadBlock) bUpdateLen)
        block (cb₁.filled (cb₁.lengthField msgLen) block 0 cb.ndefReadBlock) := by
  have hspec := @writeNext_spec cb block msgLen bUpdateLen (by rw [h.freeCount, h.header]; exact hwork)
    (by rw [h.totalBytes]; exact hlt) (by rw [h.freeInBlock]; exact hfree)
    (by rw [h.totalBlocks]; exact hin)
  unfold T2tCb.nextFilled at hspec
  rw [h.workBehind, h.filled, h.lengthField] at hspec
  exact hspec

theorem Planned.workBehind_last (h : Planned cb) : cb.workBehind cb.ndefLastBlockNum = cb.totalBytes := by
  have := h.behind
  unfold T2tCb.workBehind
  omega

theorem Planned.workBehind_before (h : Planned cb) {b : Nat} (hfirst : cb.ndefHeaderOffset / 4 ≤ b)
    (hlast : b < cb.ndefLastBlockNum) :
    cb.workBehind b + cb.freeCount cb.ndefHeaderOffset = cb.freeCount (b * 4 + 4) ∧
      cb.workBehind b < cb.totalBytes := by
  have hbefore := h.before
  have hmono := @freeCount_mono cb (b * 4 + 4) (cb.ndefLastBlockNum * 4) (by omega)
  have hmono' := @freeCount_mono cb cb.ndefHeaderOffset (b * 4 + 4) (by omega)
  unfold T2tCb.workBehind
  omega

theorem writeBlock_keeps {b : Nat} (hkeeps : cb.Keeps mem₀ b d) (hmem : ∀ a, cb.Protected a → mem a = mem₀ a) :
    ∀ a, cb.Protected a → writeBlock mem b d a = mem₀ a := by
  intro a ha
  unfold writeBlock
  split
  · rename_i hblock
    have hblock' : a / 4 = b := hblock
    have haddr : b * 4 + a % 4 = a := by omega
    have hd := hkeeps (a % 4) (by omega) (by rw [haddr]; exact ha)
    rw [haddr] at hd
    exact hd
  · exact hmem a ha

theorem frame_written (hP : Planned cb₁) (hmem : ∀ a, cb₁.Protected a → mem a = mem₀ a)
    (hplan : SamePlan cb₁ cb)
    (hfirstCopy : cb₁.Keeps mem₀ (cb₁.ndefHeaderOffset / 4) cb.ndefFirstBlock)
    (hlastCopy : cb.ndefLastBlock = cb₁.ndefLastBlock ∨
      cb₁.Keeps mem₀ cb₁.ndefLastBlockNum cb.ndefLastBlock)
    {k : Nat} (hfirst : cb₁.ndefHeaderOffset / 4 ≤ k) (hlast : k ≤ cb₁.ndefLastBlockNum)
    (hin : k < cb₁.totalBlocks) (hsome : k = cb₁.ndefHeaderOffset / 4 ∨ 0 < freeInBlock cb₁ k)
    {wb : ByteFn} (hkeeps : cb₁.Keeps mem₀ k wb)
    (hlen : bUpdateLen = true → cb₁.ndefLastBlockNum < cb₁.totalBlocks ∧
      cb₁.Keeps mem₀ cb₁.ndefLastBlockNum cb.ndefLastBlock) (bReadData : Bool) :
    FrameInv cb₁ mem₀ ⟨{ updateCb { cb with workOffset := cb₁.workBehind k } k wb bUpdateLen with
      bReadData := bReadData, blockWritten := k }, mem, .cmd (.write k wb)⟩ := by
  refine ⟨hmem, .inr ⟨hplan.trans ⟨rfl, rfl, rfl, rfl, rfl, rfl, rfl, rfl, rfl, rfl, rfl, rfl, rfl⟩, ?_, ?_, ?_⟩⟩
  · show cb₁.Keeps mem₀ _ (if k = cb.ndefHeaderOffset / 4 then wb else cb.ndefFirstBlock)
    rw [hplan.header]
    split
    · rename_i h
      rw [← h]
      exact hkeeps
    · exact hfirstCopy
  · show (if k = cb.ndefLastBlockNum then wb else cb.ndefLastBlock) = _ ∨
      cb₁.Keeps mem₀ _ (if k = cb.ndefLastBlockNum then wb else cb.ndefLastBlock)
    rw [hplan.last]
    split
    · rename_i h
      rw [← h]
      exact .inr hkeeps
    · exact hlastCopy
  · have hcopy : bUpdateLen = true → cb₁.Keeps mem₀ cb₁.ndefLastBlockNum
        (if k = cb.ndefLastBlockNum then wb else cb.ndefLastBlock) := by
      intro hupd
      rw [hplan.last]
      split
      · rename_i h
        rw [← h]
        exact hkeeps
      · exact (hlen hupd).2
    have hsub : T2tCb.nextSubstate { cb with workOffset := cb₁.workBehind k } k bUpdateLen =
        if bUpdateLen = false then
          if k = cb₁.ndefLastBlockNum then .waitWriteNdefLastBlock else .waitWriteNdefNextBlock
        else if cb₁.workBehind k ≥ cb₁.lengthFieldLen then
          if cb₁.terminatorByteIndex ≠ 0 then .waitWriteNdefLenBlock else .waitWriteTermTlvCmplt
        else .waitWriteNdefLenNextBlock := by
      rw [← hplan.last, ← hplan.lengthFieldLen, ← hplan.term]
      rfl
    by_cases hupd : bUpdateLen = false
    · rw [if_pos hupd] at hsub
      by_cases hk : k = cb₁.ndefLastBlockNum
      · rw [if_pos hk] at hsub
        have hcopy' : cb₁.Keeps mem₀ cb₁.ndefLastBlockNum
            (if k = cb.ndefLastBlockNum then wb else cb.ndefLastBlock) := by
          rw [if_pos (hk.trans hplan.last.symm), ← hk]
          exact hkeeps
        rw [hk] at hin hkeeps ⊢
        rw [hk] at hsub hcopy'
        exact .last hsub hin hcopy' hkeeps
      · rw [if_neg hk] at hsub
        have hwork : (if bUpdateLen = false ∧ k = cb.ndefLastBlockNum then 0 else cb₁.workBehind k) +
            cb₁.freeCount cb₁.ndefHeaderOffset = cb₁.freeCount (k * 4 + 4) := by
          rw [if_neg fun h => hk (h.2.trans hplan.last)]
          exact (hP.workBehind_before hfirst (by omega)).1
        exact .next (.inl hsub) rfl hfirst (by omega) hsome hwork hkeeps
    · have hupd' : bUpdateLen = true := by simpa using hupd
      rw [if_neg hupd] at hsub
      by_cases hwb : cb₁.workBehind k ≥ cb₁.lengthFieldLen
      · rw [if_pos hwb] at hsub
        by_cases hterm : cb₁.terminatorByteIndex ≠ 0
        · rw [if_pos hterm] at hsub
          exact .len hsub (hlen hupd').1 hterm (hcopy hupd') hkeeps
        · rw [if_neg hterm] at hsub
          exact .term hsub hkeeps
      · rw [if_neg hwb] at hsub
        have hk : k ≠ cb₁.ndefLastBlockNum := by
          rintro rfl
          rw [hP.workBehind_last] at hwb
          exact hwb (Nat.le_add_left _ _)
        have hwork : (if bUpdateLen = false ∧ k = cb.ndefLastBlockNum then 0 else cb₁.workBehind k) +
            cb₁.freeCount cb₁.ndefHeaderOffset = cb₁.freeCount (k * 4 + 4) := by
          rw [if_neg fun h => hk (h.2.trans hplan.last)]
          exact (hP.workBehind_before hfirst (by omega)).1
        exact .next (.inr ⟨hsub, (hlen hupd').1, hcopy hupd'⟩) rfl hfirst (by omega) hsome hwork hkeeps

/-- A handler that ends the operation leaves the tag as it is. -/
theorem frame_done (hmem : ∀ a, cb₁.Protected a → mem a = mem₀ a) {ok : Bool} :
    FrameInv cb₁ mem₀ ⟨cb, mem, .done ok⟩ := ⟨hmem, .inl ⟨ok, rfl⟩⟩

/-- A block behind the first one is filled over the copy that it has been read to. -/
theorem frame_writeNext (hP : Planned cb₁) (hmem : ∀ a, cb₁.Protected a → mem a = mem₀ a)
    (hplan : SamePlan cb₁ cb)
    (hfirstCopy : cb₁.Keeps mem₀ (cb₁.ndefHeaderOffset / 4) cb.ndefFirstBlock)
    (hlastCopy : cb.ndefLastBlock = cb₁.ndefLastBlock ∨
      cb₁.Keeps mem₀ cb₁.ndefLastBlockNum cb.ndefLastBlock)
    {k msgLen : Nat} (hfirst : cb₁.ndefHeaderOffset / 4 < k) (hlast : k ≤ cb₁.ndefLastBlockNum)
    (hsome : k < cb₁.totalBlocks → 0 < freeInBlock cb₁ k)
    (hwork : cb.workOffset + cb₁.freeCount cb₁.ndefHeaderOffset = cb₁.freeCount (k * 4))
    (hread : k < cb₁.totalBlocks → cb₁.Keeps mem₀ k cb.ndefReadBlock ∨ freeInBlock cb₁ k = t2tBlockSize)
    {bUpdateLen : Bool}
    (hlen : bUpdateLen = true → cb₁.ndefLastBlockNum < cb₁.totalBlocks ∧
      cb₁.Keeps mem₀ cb₁.ndefLastBlockNum cb.ndefLastBlock) :
    FrameInv cb₁ mem₀ ⟨(writeNdefNextBlock cb k msgLen bUpdateLen).1, mem,
      (writeNdefNextBlock cb k msgLen bUpdateLen).2⟩ := by
  by_cases hin : k < cb₁.totalBlocks
  · have hlt : cb.workOffset < cb₁.totalBytes := by
      have hbefore := hP.before
      have hmono := @freeCount_mono cb₁ (k * 4) (cb₁.ndefLastBlockNum * 4) (by omega)
      omega
    have hkeeps : cb₁.Keeps mem₀ k (cb₁.filled (cb₁.lengthField msgLen) k 0 cb.ndefReadBlock) := by
      rcases hread hin with hread | hfull
      · exact keeps_filled hread (by omega) hin
      · exact keeps_free hfull hfirst hin _
    rw [writeNext_same hplan hwork hlt (hsome hin) hin]
    exact frame_written hP hmem hplan hfirstCopy hlastCopy hfirst.le hlast hin (.inr (hsome hin)) hkeeps hlen
      cb.bReadData
  · rw [writeNext_outside (by rw [hplan.totalBlocks]; exact hin)]
    exact frame_done hmem

theorem frame_nextBlock (hP : Planned cb₁) (hW : Writable cb₁ mem₀)
    (hmem : ∀ a, cb₁.Protected a → mem a = mem₀ a) (hplan : SamePlan cb₁ cb)
    (hfirstCopy : cb₁.Keeps mem₀ (cb₁.ndefHeaderOffset / 4) cb.ndefFirstBlock)
    (hlastCopy : cb.ndefLastBlock = cb₁.ndefLastBlock ∨
      cb₁.Keeps mem₀ cb₁.ndefLastBlockNum cb.ndefLastBlock)
    {b : Nat} (hwritten : cb.blockWritten = b) (hfirst : cb₁.ndefHeaderOffset / 4 ≤ b)
    (hlast : b < cb₁.ndefLastBlockNum) (hsome : b = cb₁.ndefHeaderOffset / 4 ∨ 0 < freeInBlock cb₁ b)
    (hwork : cb.workOffset + cb₁.freeCount cb₁.ndefHeaderOffset = cb₁.freeCount (b * 4 + 4))
    (hlen : bUpdateLen = true → cb₁.ndefLastBlockNum < cb₁.totalBlocks ∧
      cb₁.Keeps mem₀ cb₁.ndefLastBlockNum cb.ndefLastBlock) :
    FrameInv cb₁ mem₀ ⟨(nextBlock cb bUpdateLen).1, mem, (nextBlock cb bUpdateLen).2⟩ := by
  have hnoTerm : b + 1 = cb.terminatorByteIndex / 4 → b + 1 = cb.ndefLastBlockNum := by
    rw [hplan.term, hplan.last]
    intro hb
    rcases (hP.term (by rintro h; rw [h] at hb; omega)).2.2 with h | h
    · omega
    · omega
  have hblock : (b + 1) * 4 = b * 4 + 4 := by omega
  unfold nextBlock
  rw [hwritten]
  rcases @isReadBeforeWrite_spec cb (b + 1) (by rw [hplan.header]; omega) hnoTerm with
    ⟨heq, hr⟩ | ⟨hne, rbw, k, hr, hle, hcount, hk, hdirect⟩
  · -- the last block, from its copy
    rw [hr]
    rw [hplan.last] at heq
    have hread : b + 1 < cb₁.totalBlocks → cb₁.Keeps mem₀ (b + 1) cb.ndefLastBlock ∨
        freeInBlock cb₁ (b + 1) = t2tBlockSize := by
      intro hin
      rw [heq]
      refine .inl (hlastCopy.elim (fun h => ?_) id)
      rw [h]
      apply hW.last (by omega) (by omega)
      rcases hsome with hb | hb
      · exact .inl (by omega)
      · rw [← heq, Nat.add_sub_cancel]
        exact .inr hb
    exact @frame_writeNext { cb with ndefReadBlock := cb.ndefLastBlock } cb₁ mem mem₀ hP hmem
      (hplan.trans ⟨rfl, rfl, rfl, rfl, rfl, rfl, rfl, rfl, rfl, rfl, rfl, rfl, rfl⟩) hfirstCopy hlastCopy
      (b + 1) _ (by omega) (by omega) (fun _ => by rw [heq]; exact hP.some) (by rw [hblock]; exact hwork)
      hread bUpdateLen hlen
  · rw [hr]
    rw [hplan.last] at hne
    rw [hplan.freeCount, hblock] at hcount
    rw [hplan.totalBlocks, hplan.freeInBlock] at hk hdirect
    have hkLast : k ≤ cb₁.ndefLastBlockNum := by
      by_contra hgt
      have hbefore := hP.before
      have hbehind := hP.behind
      have hmono := @freeCount_mono cb₁ (b * 4 + 4) (cb₁.ndefLastBlockNum * 4) (by omega)
      have hmono' := @freeCount_mono cb₁ (cb₁.ndefLastBlockNum * 4 + 4) (k * 4) (by omega)
      omega
    cases rbw with
    | true =>
      refine ⟨hmem, .inr ⟨hplan.trans ⟨rfl, rfl, rfl, rfl, rfl, rfl, rfl, rfl, rfl, rfl, rfl, rfl, rfl⟩,
        hfirstCopy, hlastCopy, ?_⟩⟩
      exact .readNext rfl rfl rfl (by omega) hkLast (hwork.trans hcount.symm) hk
    | false =>
      obtain ⟨hin, hfull⟩ := hdirect rfl
      exact frame_writeNext hP hmem hplan hfirstCopy hlastCopy (by omega) hkLast hk
        (hwork.trans hcount.symm) (fun _ => .inr hfull) hlen

theorem frame_writeFirst (hP : Planned cb₁) (hW : Writable cb₁ mem₀)
    (hfree : cb₁.ndefHeaderOffset / 4 < cb₁.totalBlocks → cb₁.isLockResByte cb₁.ndefHeaderOffset = false)
    (hmem : ∀ a, cb₁.Protected a → mem a = mem₀ a) (hplan : SamePlan cb₁ cb)
    (hfirstCopy : cb₁.Keeps mem₀ (cb₁.ndefHeaderOffset / 4) cb.ndefFirstBlock)
    (hlastCopy : cb.ndefLastBlock = cb₁.ndefLastBlock ∨
      cb₁.Keeps mem₀ cb₁.ndefLastBlockNum cb.ndefLastBlock)
    {msgLen : Nat} {bUpdateLen : Bool}
    (hlen : bUpdateLen = true → cb₁.ndefLastBlockNum < cb₁.totalBlocks ∧
      cb₁.Keeps mem₀ cb₁.ndefLastBlockNum cb.ndefLastBlock) :
    FrameInv cb₁ mem₀ ⟨(writeNdefFirstBlock cb msgLen bUpdateLen).1, mem,
      (writeNdefFirstBlock cb msgLen bUpdateLen).2⟩ := by
  by_cases hin : cb₁.ndefHeaderOffset / 4 < cb₁.totalBlocks
  · have hkeeps : cb₁.Keeps mem₀ (cb₁.ndefHeaderOffset / 4) (cb.firstFilled msgLen) := by
      rw [hplan.firstFilled]
      exact keeps_filled hfirstCopy (by omega) hin
    rw [writeFirst_same hplan (hfree hin) hW.small hin]
    exact frame_written hP hmem hplan hfirstCopy hlastCopy le_rfl hP.header hin (.inl rfl) hkeeps hlen false
  · have hout := @writeFirst_outside cb msgLen bUpdateLen (by rw [hplan.header]; exact hW.small)
      (by rw [hplan.header, hplan.totalBlocks]; exact hin)
    exact ⟨hmem, .inl ⟨false, hout⟩⟩

theorem frame_terminator (hP : Planned cb₁) (hW : Writable cb₁ mem₀)
    (hmem : ∀ a, cb₁.Protected a → mem a = mem₀ a) (hplan : SamePlan cb₁ cb)
    (hfirstCopy : cb₁.Keeps mem₀ (cb₁.ndefHeaderOffset / 4) cb.ndefFirstBlock)
    (hin : cb₁.ndefLastBlockNum < cb₁.totalBlocks) (hterm : cb₁.terminatorByteIndex ≠ 0)
    (hcopy : cb₁.Keeps mem₀ cb₁.ndefLastBlockNum cb.ndefLastBlock) :
    FrameInv cb₁ mem₀ ⟨(addTerminatorTlv cb).1, mem, (addTerminatorTlv cb).2⟩ := by
  obtain ⟨hfree, hbehind, hplace⟩ := hP.term hterm
  obtain ⟨hinside, hzero⟩ := hW.term hterm hin
  have hnot : ¬ cb₁.Protected cb₁.terminatorByteIndex := by
    rintro (hmarked | hbefore | hend)
    · rw [reserved_of_marked hmarked] at hfree
      cases hfree
    · omega
    · rw [dataEnd_eq] at hend
      omega
  -- the bytes from the terminator on
  have htail : ∀ (b : UInt8) (i : Nat), i < 4 → cb₁.terminatorByteIndex % 4 ≤ i →
      (cb₁.terminatorByteIndex % 4 < i → b = 0) →
      cb₁.Protected (cb₁.terminatorByteIndex / 4 * 4 + i) →
      b = mem₀ (cb₁.terminatorByteIndex / 4 * 4 + i) := by
    intro b i hi hge hwb hprot
    have hne : cb₁.terminatorByteIndex % 4 ≠ i := by
      rintro rfl
      apply hnot
      rwa [show cb₁.terminatorByteIndex / 4 * 4 + cb₁.terminatorByteIndex % 4 = cb₁.terminatorByteIndex by omega]
        at hprot
    rw [hwb (by omega), hzero i (by omega) hi hprot]
  have hterm' : cb.terminatorByteIndex = cb₁.terminatorByteIndex := hplan.term
  have hlast' : cb.ndefLastBlockNum = cb₁.ndefLastBlockNum := hplan.last
  unfold addTerminatorTlv
  dsimp only
  split
  · rename_i hsame
    have hsame' : cb₁.terminatorByteIndex / 4 = cb₁.ndefLastBlockNum := by
      rw [← hterm', ← hlast']
      exact hsame
    refine ⟨hmem, .inr ⟨hplan.trans ⟨rfl, rfl, rfl, rfl, rfl, rfl, rfl, rfl, rfl, rfl, rfl, rfl, rfl⟩,
      hfirstCopy, .inr hcopy, .term rfl fun i hi hprot => ?_⟩⟩
    by_cases hlt : i < cb₁.terminatorByteIndex % 4
    · rw [if_pos (by rw [hterm']; exact hlt)]
      have hprot' : cb₁.Protected (cb.terminatorByteIndex / 4 * 4 + i) := hprot
      show _ = mem₀ (cb.terminatorByteIndex / 4 * 4 + i)
      rw [hterm', hsame'] at hprot' ⊢
      exact hcopy i hi hprot'
    · have hprot' : cb₁.Protected (cb.terminatorByteIndex / 4 * 4 + i) := hprot
      show _ = mem₀ (cb.terminatorByteIndex / 4 * 4 + i)
      rw [hterm'] at hprot' ⊢
      refine htail _ i hi (by omega) (fun hgt => ?_) hprot'
      rw [if_neg hlt, if_neg (by show ¬ i = cb₁.terminatorByteIndex % 4; omega)]
  · rename_i hother
    have hother' : ¬ cb₁.terminatorByteIndex / 4 = cb₁.ndefLastBlockNum := by
      rw [← hterm', ← hlast']
      exact hother
    have hmod : cb₁.terminatorByteIndex % 4 = 0 := by omega
    rw [if_pos (by rw [hterm']; exact hterm)]
    refine ⟨hmem, .inr ⟨hplan.trans ⟨rfl, rfl, rfl, rfl, rfl, rfl, rfl, rfl, rfl, rfl, rfl, rfl, rfl⟩,
      hfirstCopy, .inr hcopy, .term rfl fun i hi hprot => ?_⟩⟩
    have hprot' : cb₁.Protected (cb.terminatorByteIndex / 4 * 4 + i) := hprot
    show _ = mem₀ (cb.terminatorByteIndex / 4 * 4 + i)
    rw [hterm'] at hprot' ⊢
    refine htail _ i hi (by omega) (fun hgt => ?_) hprot'
    rw [if_neg (by omega)]

/-- The event at the end changes no more than the control block. -/
theorem frame_handle {data : ByteFn}
    (h : FrameInv cb₁ mem₀ ⟨(handleNdefWrite cb data).1, mem, (handleNdefWrite cb data).2⟩) :
    FrameInv cb₁ mem₀ ⟨(handleNdefWriteRsp cb data).1, mem, (handleNdefWriteRsp cb data).2⟩ := by
  unfold handleNdefWriteRsp
  revert h
  generalize handleNdefWrite cb data = r
  obtain ⟨u, reply⟩ := r
  intro h
  cases reply with
  | cmd c => exact h
  | quiet => exact h
  | done ok =>
    cases ok with
    | false => exact h
    | true => exact frame_done h.mem

theorem frame_step (hP : Planned cb₁) (hW : Writable cb₁ mem₀)
    (hfree : cb₁.ndefHeaderOffset / 4 < cb₁.totalBlocks → cb₁.isLockResByte cb₁.ndefHeaderOffset = false)
    {s t : TagSys} (h : FrameInv cb₁ mem₀ s) (hstep : tagSysStep handleNdefWriteRsp s = some t) : FrameInv cb₁ mem₀ t := by
  obtain ⟨cb, mem, reply⟩ := s
  obtain ⟨hmem, ⟨ok, hdone⟩ | ⟨hplan, hfirstCopy, hlastCopy, hphase⟩⟩ := h
  · dsimp only at hdone
    subst hdone
    cases hstep
  · dsimp only at hmem hplan hfirstCopy hlastCopy hphase
    cases hphase with
    | next hsub hwritten hfirst hlast hsome hwork hkeeps =>
      obtain rfl := Option.some.inj hstep
      have hmem' := writeBlock_keeps hkeeps hmem
      apply frame_handle
      unfold handleNdefWrite
      rcases hsub with hsub | ⟨hsub, hin, hcopy⟩
      · rw [hsub]
        exact frame_nextBlock hP hW hmem' hplan hfirstCopy hlastCopy hwritten hfirst hlast hsome hwork nofun
      · rw [hsub]
        exact frame_nextBlock hP hW hmem' hplan hfirstCopy hlastCopy hwritten hfirst hlast hsome hwork
          fun _ => ⟨hin, hcopy⟩
    | @readNext k hsub hnum hread hfirst hlast hwork hsome =>
      obtain rfl := Option.some.inj hstep
      apply frame_handle
      rw [handle_readNext hsub hnum hread]
      refine @frame_writeNext { cb with
        ndefReadBlock := fun i => readBlocks mem (k - k % 4) ((k - (k - k % 4)) * t2tBlockSize + i) } cb₁ mem mem₀
        hP hmem (hplan.trans ⟨rfl, rfl, rfl, rfl, rfl, rfl, rfl, rfl, rfl, rfl, rfl, rfl, rfl⟩) hfirstCopy
        hlastCopy k 0 hfirst hlast hsome hwork (fun _ => .inl fun i hi hprot => ?_) false nofun
      show mem ((k - k % 4) * 4 + ((k - (k - k % 4)) * 4 + i)) = _
      rw [show (k - k % 4) * 4 + ((k - (k - k % 4)) * 4 + i) = k * 4 + i by omega]
      exact hmem _ hprot
    | last hsub hin hcopy hkeeps =>
      obtain rfl := Option.some.inj hstep
      have hmem' := writeBlock_keeps hkeeps hmem
      apply frame_handle
      rw [handle_last hsub]
      exact @frame_writeFirst { cb with
        ndefWriteBlock := cb.ndefHeaderOffset / t2tBlockSize
        ndefReadBlock := cb.ndefFirstBlock } cb₁ _ mem₀ hP hW hfree hmem'
        (hplan.trans ⟨rfl, rfl, rfl, rfl, rfl, rfl, rfl, rfl, rfl, rfl, rfl, rfl, rfl⟩) hfirstCopy hlastCopy _ true
        fun _ => ⟨hin, hcopy⟩
    | len hsub hin hterm hcopy hkeeps =>
      obtain rfl := Option.some.inj hstep
      have hmem' := writeBlock_keeps hkeeps hmem
      apply frame_handle
      unfold handleNdefWrite
      rw [hsub]
      exact frame_terminator hP hW hmem' hplan hfirstCopy hin hterm hcopy
    | term hsub hkeeps =>
      obtain rfl := Option.some.inj hstep
      have hmem' := writeBlock_keeps hkeeps hmem
      apply frame_handle
      unfold handleNdefWrite
      rw [hsub]
      exact frame_done hmem'
    | done => cases hstep

end Frame

end NfcStack.Rw
