import NfcStack.Rw.T2tFrame
import NfcStack.Rw.T2tBitmap

/- What the write of a message does to the bytes of the tag that are not for it: those that a
   lock or memory control TLV marks, those in front of the length field and those outside the
   data area.

   The block that the message ends in is filled over a copy that is not read from the tag, and
   the bytes behind the terminator are written as zeros. Where neither meets a protected byte
   that has another value, every command keeps the protected bytes. The write asks for bytes
   by their address, as the bitmap answers when it is exact for them.

   What is proved:
     1. `plan_ends`: the last byte and the terminator of the plan.
     2. `frame_start`: the first block that is sent.
     3. `t2t_writes_respect`: each command of an operation.
     4. `t2t_last_block_lost`: a reserved byte of the last block is lost. -/
namespace NfcStack.Rw

section Respect
variable {cb w u : T2tCb} {mem data : ByteFn} {len : Nat}

def lenFieldLen (len : Nat) : Nat := if len ≥ t2tLongNdefMinLen then t2tLongNdefLenFieldLen else t2tShortNdefLenFieldLen

/-- A message of `len` bytes that is laid out on the free bytes from the length field on has its
last byte at `a`. -/
def T2tCb.EndsAt (cb : T2tCb) (len a : Nat) : Prop :=
  cb.isLockResByte a = false ∧ cb.freeCount (a + 1) = len + lenFieldLen len + cb.freeCount cb.ndefHeaderOffset

/-- The blocks that are put together from something else than the tag meet no protected byte with
another value. -/
structure Respects (cb : T2tCb) (mem : ByteFn) (len : Nat) : Prop where
  small : cb.ndefHeaderOffset / 4 < 2 ^ 8
  last : ∀ a, cb.EndsAt len a → cb.ndefHeaderOffset / 4 < a / 4 → a / 4 < cb.totalBlocks →
    (a / 4 = cb.ndefHeaderOffset / 4 + 1 ∨ 0 < freeInBlock cb (a / 4 - 1)) →
    cb.Keeps mem (a / 4) cb.ndefLastBlock
  term : ∀ a, cb.EndsAt len a → len + 1 ≤ cb.maxNdefMsgLen → cb.isLockResByte (a + 1) = false →
    a / 4 < cb.totalBlocks → (a + 1) / 4 < cb.totalBlocks ∧
    ∀ i, (a + 1) % 4 < i → i < 4 → cb.Protected ((a + 1) / 4 * 4 + i) → mem ((a + 1) / 4 * 4 + i) = 0

/-- The bytes that the write of a message of `len` bytes asks for: those of the data area, those of
the message and the one behind it. The bitmap answers each by the layout, in whatever order. -/
def AsksExact (s : AttrCb) (len : Nat) : Prop :=
  ∃ e, s.cb.dataEnd ≤ e ∧ (∀ a, s.cb.EndsAt len a → a + 1 < e) ∧ AnswersBelow s e

theorem asksExact_of_ends {s : AttrCb} {junk : Junk} (hs : EndsAs junk s cb) (hlock : s.cb.lockBytes ≠ [])
    (hlast : ∀ a, s.cb.EndsAt len a → a + 1 < s.cb.dataEnd) : AsksExact s len := by
  have hend := dataEnd_le s.cb
  have hcached := hs.cached fun _ _ => harmless_of_lockBytes hlock
  exact ⟨s.cb.dataEnd, Nat.le_refl _, hlast, answersBelow_of_cached (by omega) hcached hlock⟩

structure RespectsAsked (s : AttrCb) (mem : ByteFn) (len : Nat) : Prop extends Respects s.cb mem len where
  exact : AsksExact s len

theorem plan_ends (cb : T2tCb) : ∃ a, cb.EndsAt cb.newNdefMsgLen a ∧
    (readNdefLastBlock cb).ndefLastBlockNum = a / 4 ∧
    ((readNdefLastBlock cb).terminatorByteIndex ≠ 0 → cb.newNdefMsgLen + 1 ≤ cb.maxNdefMsgLen ∧
      cb.isLockResByte (a + 1) = false ∧ (readNdefLastBlock cb).terminatorByteIndex = a + 1) := by
  have hlf := lengthFieldLen_pos cb
  obtain ⟨hcount, hge, hpos, hfree⟩ := @lastByteLoop_spec cb (cb.lengthFieldLen + cb.newNdefMsgLen)
    cb.ndefHeaderOffset (by omega)
  unfold readNdefLastBlock
  dsimp only
  generalize lastByteLoop cb (cb.lengthFieldLen + cb.newNdefMsgLen)
    (2 ^ 16 + (cb.lengthFieldLen + cb.newNdefMsgLen)) 0 cb.ndefHeaderOffset = e at *
  refine ⟨e - 1, ⟨hfree, ?_⟩, rfl, ?_⟩
  · rw [show e - 1 + 1 = e by omega, hcount]
    show cb.lengthFieldLen + _ + _ = _ + cb.lengthFieldLen + _
    omega
  · unfold placeEnd
    dsimp only
    intro hterm
    split at hterm
    · rename_i hroom
      split at hterm
      · exact absurd rfl hterm
      · rename_i hres
        rw [if_pos hroom, if_neg hres, show e - 1 + 1 = e by omega]
        exact ⟨hroom, by simpa using hres, rfl⟩
    · exact absurd rfl hterm

theorem writable_plan (h : Respects cb mem cb.newNdefMsgLen) : Writable (readNdefLastBlock cb) mem := by
  obtain ⟨a, hends, hlast, hterm⟩ := plan_ends cb
  constructor
  · exact h.small
  · rw [hlast]
    exact h.last a hends
  · intro hne hin
    obtain ⟨hroom, hfree, heq⟩ := hterm hne
    rw [hlast] at hin
    rw [heq]
    exact h.term a hends hroom hfree hin

theorem frame_start (hsub : w.substate = .waitReadNdefFirstBlock) (hr : Respects w mem w.newNdefMsgLen)
    (hfree : w.ndefHeaderOffset < w.dataEnd → w.isLockResByte w.ndefHeaderOffset = false)
    (hdata : ∀ i < 4, data i = mem (w.ndefHeaderOffset / 4 * 4 + i)) :
    FrameInv (readNdefLastBlock { w with ndefFirstBlock := data }) mem
      ⟨(handleNdefWriteRsp w data).1, mem, (handleNdefWriteRsp w data).2⟩ := by
  apply frame_handle
  rw [handle_first hsub]
  refine @frame_writeFirst
    { readNdefLastBlock { w with ndefFirstBlock := data } with terminatorTlvBlock := fun _ => 0 }
    (readNdefLastBlock { w with ndefFirstBlock := data }) mem mem (planned_readNdefLastBlock _)
    (@writable_plan { w with ndefFirstBlock := data } mem ⟨hr.small, hr.last, hr.term⟩) ?_ (fun a _ => rfl)
    ⟨rfl, rfl, rfl, rfl, rfl, rfl, rfl, rfl, rfl, rfl, rfl, rfl, rfl⟩ (fun i hi _ => hdata i hi) (.inl rfl)
    0 false nofun
  intro hin
  apply hfree
  have hend := dataEnd_eq w
  have hin' : w.ndefHeaderOffset / 4 < w.totalBlocks := hin
  omega

theorem frame_run (hsub : w.substate = .waitReadNdefFirstBlock) (hr : Respects w mem w.newNdefMsgLen)
    (hfree : w.ndefHeaderOffset < w.dataEnd → w.isLockResByte w.ndefHeaderOffset = false)
    (hdata : ∀ i < 4, data i = mem (w.ndefHeaderOffset / 4 * 4 + i)) (n : Nat) :
    FrameInv (readNdefLastBlock { w with ndefFirstBlock := data }) mem
      (TagSys.after handleNdefWriteRsp n ⟨(handleNdefWriteRsp w data).1, mem, (handleNdefWriteRsp w data).2⟩) := by
  refine @TagSys.after_invariant T2tCb handleNdefWriteRsp _ (fun s t hs hst => ?_) n _
    (frame_start hsub hr hfree hdata)
  refine frame_step (planned_readNdefLastBlock _)
    (@writable_plan { w with ndefFirstBlock := data } mem ⟨hr.small, hr.last, hr.term⟩) (fun hin => ?_) hs hst
  apply hfree
  have hend := dataEnd_eq w
  have hin' : w.ndefHeaderOffset / 4 < w.totalBlocks := hin
  omega

theorem FrameInv.write {cb₁ : T2tCb} {s : TagSys} (h : FrameInv cb₁ mem s) {block : Nat} {d : ByteFn}
    (hcmd : s.reply = .cmd (.write block d)) : cb₁.Keeps s.mem block d := by
  obtain ⟨cb, m, reply⟩ := s
  obtain ⟨hmem, ⟨ok, hdone⟩ | ⟨-, -, -, hphase⟩⟩ := h
  · rw [hdone] at hcmd
    cases hcmd
  · dsimp only at hmem hphase hcmd ⊢
    subst hcmd
    have hkeeps : cb₁.Keeps mem block d := by
      cases hphase with
      | next _ _ _ _ _ _ hkeeps => exact hkeeps
      | last _ _ _ hkeeps => exact hkeeps
      | len _ _ _ _ hkeeps => exact hkeeps
      | term _ hkeeps => exact hkeeps
    intro i hi hprot
    rw [hmem _ hprot]
    exact hkeeps i hi hprot

theorem writes_respect {msg : List UInt8} {before : UInt8} {reply : Reply} (hloc : Located cb mem)
    (hacc : t2tWriteNDef cb msg before = some (u, reply)) (hr : Respects cb mem msg.length) (n : Nat)
    {block : Nat} {d : ByteFn}
    (hcmd : (TagSys.after handleNdefWriteRsp n ⟨u, mem, reply⟩).reply = .cmd (.write block d)) :
    ∀ i < 4, cb.Protected (block * 4 + i) →
      d i = (TagSys.after handleNdefWriteRsp n ⟨u, mem, reply⟩).mem (block * 4 + i) := by
  have hheader := hloc.header
  unfold t2tWriteNDef at hacc
  dsimp only at hacc
  split at hacc
  · cases hacc
  split at hacc
  · cases hacc
  split at hacc
  · cases hacc
  split at hacc
  · cases hacc
  split at hacc
  · rename_i hcached
    obtain ⟨rfl, rfl⟩ := Prod.mk.inj (Option.some.inj hacc)
    have hblock : cb.ndefHeaderOffset / 4 < 8 := hcached.1
    refine (@frame_run { newMessage cb msg before with blockRead := cb.ndefHeaderOffset / 4 } mem _ rfl
      ⟨hr.small, hr.last, hr.term⟩ hloc.free (fun i hi => ?_) n).write hcmd
    show cb.tagData ((cb.ndefHeaderOffset / 4 - 4) * 4 + i) = mem (cb.ndefHeaderOffset / 4 * 4 + i)
    rw [hloc.data _ (by omega)]
    congr 1
    omega
  · obtain ⟨rfl, rfl⟩ := Prod.mk.inj (Option.some.inj hacc)
    cases n with
    | zero => cases hcmd
    | succ n =>
      exact (@frame_run { newMessage cb msg before with blockRead := cb.ndefHeaderOffset / 4 } mem
        (readBlocks mem (cb.ndefHeaderOffset / 4)) rfl ⟨hr.small, hr.last, hr.term⟩ hloc.free
        (fun i hi => rfl) n).write hcmd

/-- Every write of an operation that the conditions of `RespectsAsked` are met for keeps the protected
bytes. -/
theorem t2t_writes_respect {junk : Junk} {s₀ s : AttrCb} {msg : List UInt8} {before : UInt8} {reply : Reply}
    (hhdr : s₀.cb.bReadHdr = true → ∀ i < 16, s₀.cb.tagHdr i = mem i) (hblank : Blank s₀)
    (hsure : DetectionSure junk s₀ mem) (hdet : DetectedMap junk s₀ mem s)
    (hacc : t2tWriteNDef s.cb msg before = some (u, reply)) (hr : RespectsAsked s mem msg.length) (n : Nat)
    {block : Nat} {d : ByteFn}
    (hcmd : (TagSys.after handleNdefWriteRsp n ⟨u, mem, reply⟩).reply = .cmd (.write block d)) :
    ∀ i < 4, s.cb.Protected (block * 4 + i) →
      d i = (TagSys.after handleNdefWriteRsp n ⟨u, mem, reply⟩).mem (block * 4 + i) := by
  obtain ⟨cb, hcb, ⟨room, hs⟩, -⟩ := endsAs_of_detected hblank hsure hdet
  have hloc := located_of_detected hhdr hcb
  have hloc' : Located s.cb mem := by
    rw [hs]
    exact ⟨hloc.hdr, hloc.data, hloc.header, hloc.free⟩
  exact writes_respect hloc' hacc hr.toRespects n hcmd

end Respect

/-! ## A tag -/

/-- A static tag with a lock control TLV (bytes 60 to 63), a memory control TLV (byte 31) and an empty
message. -/
def reservedTag : ByteFn := fun a =>
  [0x04, 0, 0, 0, 0, 0, 0, 0, 0, 0, 0, 0, 0xE1, 0x10, 0x06, 0x00, 0x01, 0x03, 0xF0, 0x20, 0x32, 0x02, 0x03, 0x73,
    0x01, 0x02, 0x03, 0x00, 0xFE, 0, 0, 0xAA].getD a 0

def reservedDetected : AttrCb := (detectedMap junk16 reservedTag 2).cb

theorem reservedTag_detected : DetectionSure junk16 (attrActivated reservedTag) reservedTag ∧
    (detectedMap junk16 reservedTag 2).reply = .done true := by
  have hread : (detectedMap junk16 reservedTag 1).reply.reads = some 4 := by decide +kernel
  have hdone : (detectedMap junk16 reservedTag 2).reply = .done true := by
    apply Reply.ended_iff.mp
    decide +kernel
  refine ⟨detectionSure_second (responseSure_read hread ?_) hdone, hdone⟩
  decide +kernel

theorem reservedTag_cb :
    reservedDetected.cb.ndefHeaderOffset = 27 ∧ reservedDetected.cb.lockBytes ≠ [] ∧
      reservedDetected.cb.lockOffsets = [60, 61, 62, 63] ∧ reservedDetected.cb.memTlvs = [⟨31, 1⟩] ∧
      34 < reservedDetected.cb.dataEnd ∧ 34 / 4 < reservedDetected.cb.totalBlocks ∧
      ∀ i < 4, reservedDetected.cb.ndefLastBlock i = reservedTag (32 + i) := by
  decide +kernel

theorem reservedTag_layout (a : Nat) :
    reservedDetected.cb.isLockResByte a = decide (a = 31 ∨ 60 ≤ a ∧ a < 64) := by
  obtain ⟨-, -, hlocks, hmem, -⟩ := reservedTag_cb
  have hinternal : internalOffsets 63 = [] := rfl
  have hreserved : ResInfo.offsets ⟨31, 1⟩ = [31] := rfl
  unfold T2tCb.isLockResByte T2tCb.marked
  rw [hlocks, hmem, Bool.eq_iff_iff, decide_eq_true_iff]
  simp only [List.getLast?_cons_cons, List.getLast?_singleton, hinternal, hreserved, List.any_cons, List.any_nil,
    List.contains_eq_mem, List.mem_cons, List.not_mem_nil, decide_false, Bool.or_false, Bool.or_eq_true,
    decide_eq_true_iff, or_false]
  omega

theorem reservedTag_ends {a : Nat} (h : reservedDetected.cb.EndsAt 5 a) : a = 33 := by
  obtain ⟨hfree, hcount⟩ := h
  have hheader : reservedDetected.cb.ndefHeaderOffset = 27 := reservedTag_cb.1
  have hlayout : ∀ x, x ≠ 31 → x < 60 → reservedDetected.cb.isLockResByte x = false := by
    intro x hne hlt
    rw [reservedTag_layout, decide_eq_false_iff_not]
    omega
  have hres : reservedDetected.cb.isLockResByte 31 = true := by
    rw [reservedTag_layout]
    rfl
  have hstep : ∀ x, x ≠ 31 → x < 60 → reservedDetected.cb.freeCount (x + 1) = reservedDetected.cb.freeCount x + 1 :=
    fun x hne hlt => freeCount_succ_free (hlayout x hne hlt)
  have hcount' : reservedDetected.cb.freeCount 33 = reservedDetected.cb.freeCount 27 + 5 := by
    calc reservedDetected.cb.freeCount 33 = reservedDetected.cb.freeCount 32 + 1 := hstep 32 (by omega) (by omega)
      _ = reservedDetected.cb.freeCount 31 + 1 := by rw [freeCount_succ_reserved hres]
      _ = reservedDetected.cb.freeCount 27 + 5 := by
        rw [hstep 30 (by omega) (by omega), hstep 29 (by omega) (by omega), hstep 28 (by omega) (by omega),
          hstep 27 (by omega) (by omega)]
  have heq : reservedDetected.cb.freeCount a = reservedDetected.cb.freeCount 33 := by
    rw [hheader, freeCount_succ_free hfree] at hcount
    have hfield : lenFieldLen 5 = 1 := rfl
    omega
  exact Nat.count_injective hfree (hlayout 33 (by omega) (by omega)) heq

theorem reservedTag_respects : RespectsAsked reservedDetected reservedTag 5 := by
  obtain ⟨hsure, hdone⟩ := reservedTag_detected
  obtain ⟨hheader, hlock, -, -, hin, htotal, hdata⟩ := reservedTag_cb
  have hsmall : reservedDetected.cb.ndefHeaderOffset / 4 < 2 ^ 8 := by
    rw [hheader]
    decide
  obtain ⟨cb, -, hends⟩ := endsAs_of_detected blank_activated hsure (detected_detectedMap hdone)
  refine ⟨⟨hsmall, fun a ha _ _ _ i hi _ => ?_, fun a ha _ _ _ => ?_⟩, ?_⟩
  · rw [reservedTag_ends ha]
    exact hdata i hi
  · rw [reservedTag_ends ha]
    refine ⟨htotal, fun i hi hi' _ => ?_⟩
    obtain rfl : i = 3 := by omega
    rfl
  · refine asksExact_of_ends hends hlock fun a ha => ?_
    rw [reservedTag_ends ha]
    exact hin

def reservedWrite (msg : List UInt8) (n : Nat) : TagSys :=
  match t2tWriteNDef reservedDetected.cb msg 0 with
  | some (u, reply) => TagSys.after handleNdefWriteRsp n ⟨u, reservedTag, reply⟩
  | none => ⟨t2tActivated, reservedTag, .quiet⟩

/-- The third command writes block 7: the reserved byte is written with what the tag holds there. -/
theorem t2t_writes_respect_reserved : ∃ u reply d,
    t2tWriteNDef reservedDetected.cb [1, 2, 3, 4, 5] 0 = some (u, reply) ∧
      (TagSys.after handleNdefWriteRsp 2 ⟨u, reservedTag, reply⟩).reply = .cmd (.write 7 d) ∧ d 3 = 0xAA := by
  have hwrites : (reservedWrite [1, 2, 3, 4, 5] 2).reply.writes 0 = some (7, 1) := by decide +kernel
  have hmem : (reservedWrite [1, 2, 3, 4, 5] 2).mem 31 = 0xAA := by decide +kernel
  obtain ⟨hsure, hdone⟩ := reservedTag_detected
  unfold reservedWrite at hwrites hmem
  cases hacc : t2tWriteNDef reservedDetected.cb [1, 2, 3, 4, 5] 0 with
  | none =>
    rw [hacc] at hwrites
    cases hwrites
  | some r =>
    obtain ⟨u, reply⟩ := r
    rw [hacc] at hwrites hmem
    obtain ⟨d, hcmd, -⟩ := Reply.writes_iff.mp hwrites
    have hkeeps := @t2t_writes_respect u reservedTag junk16 (attrActivated reservedTag) reservedDetected
      [1, 2, 3, 4, 5] 0 reply (fun h => Bool.noConfusion h) blank_activated hsure
      (detected_detectedMap hdone) hacc reservedTag_respects 2 7 d hcmd 3 (by decide) (.inl ?_)
    · exact ⟨u, reply, d, rfl, hcmd, hkeeps.trans hmem⟩
    · decide +kernel

/-- The last block of a message of three bytes is written over the reserved byte. -/
theorem t2t_last_block_lost : ¬ ∀ (junk : Junk) (mem : ByteFn) (s : AttrCb) (u : T2tCb) (msg : List UInt8)
    (before : UInt8) (reply : Reply) (n block : Nat) (d : ByteFn), DetectedMap junk (attrActivated mem) mem s →
    t2tWriteNDef s.cb msg before = some (u, reply) →
    (TagSys.after handleNdefWriteRsp n ⟨u, mem, reply⟩).reply = .cmd (.write block d) →
    ∀ i < 4, s.cb.Protected (block * 4 + i) →
      d i = (TagSys.after handleNdefWriteRsp n ⟨u, mem, reply⟩).mem (block * 4 + i) := by
  intro h
  have hwrites : (reservedWrite [1, 2, 3] 1).reply.writes 3 = some (7, 0) := by decide +kernel
  have hmem : (reservedWrite [1, 2, 3] 1).mem 31 = 0xAA := by decide +kernel
  have hprot : reservedDetected.cb.marked 31 = true := by decide +kernel
  unfold reservedWrite at hwrites hmem
  cases hacc : t2tWriteNDef reservedDetected.cb [1, 2, 3] 0 with
  | none =>
    rw [hacc] at hwrites
    cases hwrites
  | some r =>
    obtain ⟨u, reply⟩ := r
    rw [hacc] at hwrites hmem
    obtain ⟨d, hcmd, hzero⟩ := Reply.writes_iff.mp hwrites
    have hlost := h junk16 reservedTag reservedDetected u [1, 2, 3] 0 reply 1 7 d
      (detected_detectedMap reservedTag_detected.2) hacc hcmd 3 (by decide) (.inl hprot)
    exact absurd (hzero.symm.trans (hlost.trans hmem)) (by decide)

end NfcStack.Rw
