import NfcStack.Rw.T2t

/- How a message is laid out around the lock and reserved bytes of a Type 2 tag. A byte of
   the length field or of the message goes to the free address that has as many free
   addresses before it, counted from the length field on.

   What is proved:
     1. `fillMessage_spec`, `fillBlock_spec`: what the loops over a block put into it.
     2. `lastByteLoop_spec`: the address behind the last byte of the message.
     3. `freeBlockLoop_spec`: the block that is written next. -/
namespace NfcStack.Rw

section Fill
variable {cb : T2tCb} {field : ByteFn} {block : Nat}

/-- The number of free addresses before `a`. -/
def T2tCb.freeCount (cb : T2tCb) (a : Nat) : Nat := Nat.count (fun x => cb.isLockResByte x = false) a

theorem freeCount_succ_free {a : Nat} (h : cb.isLockResByte a = false) :
    cb.freeCount (a + 1) = cb.freeCount a + 1 := by
  unfold T2tCb.freeCount
  rw [Nat.count_succ, if_pos h]

theorem freeCount_succ_reserved {a : Nat} (h : cb.isLockResByte a = true) :
    cb.freeCount (a + 1) = cb.freeCount a := by
  unfold T2tCb.freeCount
  rw [Nat.count_succ, if_neg (by simp [h]), Nat.add_zero]

theorem freeCount_mono {a b : Nat} (h : a ≤ b) : cb.freeCount a ≤ cb.freeCount b :=
  Nat.count_monotone _ h

/-- The number of bytes to be written, with the length field. -/
def T2tCb.totalBytes (cb : T2tCb) : Nat := cb.newNdefMsgLen + cb.lengthFieldLen

def T2tCb.streamByte (cb : T2tCb) (field : ByteFn) (workOffset : Nat) : UInt8 :=
  if workOffset < cb.lengthFieldLen ∧ 0 < cb.newNdefMsgLen then field workOffset else cb.newByte workOffset

theorem lengthFieldLen_pos (cb : T2tCb) : 0 < cb.lengthFieldLen := by
  unfold T2tCb.lengthFieldLen
  split
  · decide
  · decide

theorem lengthFieldLen_le (hpos : 0 < cb.newNdefMsgLen) : cb.lengthFieldLen ≤ cb.newNdefMsgLen := by
  unfold T2tCb.lengthFieldLen
  split
  · rename_i hlong
    have hlong' : 255 ≤ cb.newNdefMsgLen := hlong
    show 3 ≤ _
    omega
  · exact hpos

/-! ## The loops over a block -/

/-- The loop that writes the message. With the work offset at the number of free addresses since
`c`, it goes on to the end of the block. -/
theorem fillMessage_spec {c : Nat} (n : Nat) : ∀ {index workOffset : Nat} {wb : ByteFn},
    workOffset + c = cb.freeCount (block * 4 + index) → workOffset ≤ cb.totalBytes →
    (fillMessage cb block n index workOffset wb).1 =
        min cb.totalBytes (cb.freeCount (block * 4 + (index + n)) - c) ∧
      ∀ i, (fillMessage cb block n index workOffset wb).2 i =
        if index ≤ i ∧ i < index + n ∧ cb.isLockResByte (block * 4 + i) = false ∧
            cb.freeCount (block * 4 + i) - c < cb.totalBytes then
          cb.newByte (cb.freeCount (block * 4 + i) - c)
        else wb i := by
  induction n with
  | zero =>
    intro index workOffset wb hwork hle
    refine ⟨?_, fun i => ?_⟩
    · show workOffset = _
      rw [Nat.add_zero, ← hwork]
      omega
    · rw [if_neg (by omega)]
      rfl
  | succ n ih =>
    intro index workOffset wb hwork hle
    unfold fillMessage
    split
    · rename_i hlt
      have hlt' : workOffset < cb.totalBytes := hlt
      split
      · rename_i hres
        have hnext : workOffset + c = cb.freeCount (block * 4 + (index + 1)) := by
          rw [← Nat.add_assoc, freeCount_succ_reserved hres]
          exact hwork
        obtain ⟨hwo, hbytes⟩ := @ih (index + 1) workOffset wb hnext hle
        refine ⟨?_, fun i => ?_⟩
        · rw [hwo, show index + 1 + n = index + (n + 1) by omega]
        · rw [hbytes i]
          by_cases hi : i = index
          · have hfree : ¬ cb.isLockResByte (block * 4 + i) = false := by
              rw [hi]
              simp [show cb.isLockResByte (block * 4 + index) = true from hres]
            rw [if_neg (by omega), if_neg fun h => hfree h.2.2.1]
          · simp only [show index + 1 ≤ i ↔ index ≤ i by omega,
              show i < index + 1 + n ↔ i < index + (n + 1) by omega]
      · rename_i hres
        have hfree : cb.isLockResByte (block * 4 + index) = false := by simpa using hres
        have hnext : workOffset + 1 + c = cb.freeCount (block * 4 + (index + 1)) := by
          rw [← Nat.add_assoc, freeCount_succ_free hfree, ← hwork]
          omega
        obtain ⟨hwo, hbytes⟩ := @ih (index + 1) (workOffset + 1)
          (Function.update wb index (cb.newByte workOffset)) hnext hlt'
        refine ⟨?_, fun i => ?_⟩
        · rw [hwo, show index + 1 + n = index + (n + 1) by omega]
        · rw [hbytes i]
          by_cases hi : i = index
          · rw [if_neg (by omega), hi, Function.update_self, ← hwork, Nat.add_sub_cancel,
              if_pos ⟨le_rfl, by omega, hfree, hlt'⟩]
          · rw [Function.update_of_ne hi]
            simp only [show index + 1 ≤ i ↔ index ≤ i by omega,
              show i < index + 1 + n ↔ i < index + (n + 1) by omega]
    · rename_i hge
      have hge' : cb.totalBytes ≤ workOffset := not_lt.mp hge
      refine ⟨?_, fun i => ?_⟩
      · have hmono := @freeCount_mono cb (block * 4 + index) (block * 4 + (index + (n + 1))) (by omega)
        show workOffset = _
        omega
      · rw [if_neg]
        rintro ⟨hi, -, -, hlt⟩
        have hmono := @freeCount_mono cb (block * 4 + index) (block * 4 + i) (by omega)
        omega

theorem fillLength_spec {c : Nat} (n : Nat) : ∀ {index workOffset : Nat} {wb : ByteFn},
    workOffset + c = cb.freeCount (block * 4 + index) → workOffset < cb.lengthFieldLen →
    ∃ index' workOffset' wb', fillLength cb field block n index workOffset wb = (index', workOffset', wb') ∧
      index ≤ index' ∧ index' ≤ index + n ∧ workOffset' + c = cb.freeCount (block * 4 + index') ∧
      workOffset' ≤ cb.lengthFieldLen ∧
      (index' = index + n ∨ workOffset' = cb.lengthFieldLen ∨ cb.newNdefMsgLen ≤ workOffset') ∧
      ∀ i, wb' i = if index ≤ i ∧ i < index' ∧ cb.isLockResByte (block * 4 + i) = false then
        field (cb.freeCount (block * 4 + i) - c) else wb i := by
  induction n with
  | zero =>
    intro index workOffset wb hwork hlt
    refine ⟨index, workOffset, wb, rfl, le_rfl, le_rfl, hwork, hlt.le, .inl rfl, fun i => ?_⟩
    rw [if_neg (by omega)]
  | succ n ih =>
    intro index workOffset wb hwork hlt
    unfold fillLength
    split
    · split
      · rename_i hres
        have hnext : workOffset + c = cb.freeCount (block * 4 + (index + 1)) := by
          rw [← Nat.add_assoc, freeCount_succ_reserved hres]
          exact hwork
        rw [if_neg (by omega)]
        obtain ⟨index', workOffset', wb', hr, hge, hle, hwork', hlf, hend, hbytes⟩ :=
          @ih (index + 1) workOffset wb hnext hlt
        refine ⟨index', workOffset', wb', hr, by omega, by omega, hwork', hlf,
          hend.imp_left (by omega), fun i => ?_⟩
        rw [hbytes i]
        by_cases hi : i = index
        · have hfree : ¬ cb.isLockResByte (block * 4 + i) = false := by
            rw [hi]
            simp [show cb.isLockResByte (block * 4 + index) = true from hres]
          rw [if_neg (by omega), if_neg fun h => hfree h.2.2]
        · simp only [show index + 1 ≤ i ↔ index ≤ i by omega]
      · rename_i hres
        have hfree : cb.isLockResByte (block * 4 + index) = false := by simpa using hres
        have hnext : workOffset + 1 + c = cb.freeCount (block * 4 + (index + 1)) := by
          rw [← Nat.add_assoc, freeCount_succ_free hfree, ← hwork]
          omega
        dsimp only
        split
        · rename_i hlast
          refine ⟨index + 1, workOffset + 1, _, rfl, by omega, by omega, hnext, hlast.le, .inr (.inl hlast),
            fun i => ?_⟩
          by_cases hi : i = index
          · rw [hi, Function.update_self, ← hwork, Nat.add_sub_cancel, if_pos ⟨le_rfl, by omega, hfree⟩]
          · rw [Function.update_of_ne hi, if_neg (by omega)]
        · rename_i hlast
          obtain ⟨index', workOffset', wb', hr, hge, hle, hwork', hlf, hend, hbytes⟩ :=
            @ih (index + 1) (workOffset + 1) (Function.update wb index (field workOffset)) hnext (by omega)
          refine ⟨index', workOffset', wb', hr, by omega, by omega, hwork', hlf,
            hend.imp_left (by omega), fun i => ?_⟩
          rw [hbytes i]
          by_cases hi : i = index
          · rw [if_neg (by omega), hi, Function.update_self, ← hwork, Nat.add_sub_cancel,
              if_pos ⟨le_rfl, by omega, hfree⟩]
          · rw [Function.update_of_ne hi]
            simp only [show index + 1 ≤ i ↔ index ≤ i by omega]
    · rename_i hge
      refine ⟨index, workOffset, wb, rfl, le_rfl, by omega, hwork, hlt.le, .inr (.inr (not_lt.mp hge)),
        fun i => ?_⟩
      rw [if_neg (by omega)]

theorem fillBlock_spec {c index workOffset : Nat} {wb : ByteFn} (hindex : index ≤ 4)
    (hwork : workOffset + c = cb.freeCount (block * 4 + index)) (hlt : workOffset < cb.lengthFieldLen) :
    (fillBlock cb field block index workOffset wb).1 =
        min cb.totalBytes (cb.freeCount (block * 4 + 4) - c) ∧
      ∀ i, (fillBlock cb field block index workOffset wb).2 i =
        if index ≤ i ∧ i < 4 ∧ cb.isLockResByte (block * 4 + i) = false ∧
            cb.freeCount (block * 4 + i) - c < cb.totalBytes then
          cb.streamByte field (cb.freeCount (block * 4 + i) - c)
        else wb i := by
  obtain ⟨index', workOffset', wb', hr, hge, hle, hwork', hlf, hend, hbytes⟩ :=
    @fillLength_spec cb field block c (t2tBlockSize - index) index workOffset wb hwork hlt
  have hle' : index' ≤ 4 := by
    have hle4 : index' ≤ index + (4 - index) := hle
    omega
  have htotal : workOffset' ≤ cb.totalBytes := by
    unfold T2tCb.totalBytes
    omega
  obtain ⟨hwo, hrest⟩ := @fillMessage_spec cb block c (t2tBlockSize - index') index' workOffset' wb' hwork' htotal
  have hfill : fillBlock cb field block index workOffset wb =
      fillMessage cb block (t2tBlockSize - index') index' workOffset' wb' := by
    unfold fillBlock
    rw [hr]
  have hend4 : index' + (t2tBlockSize - index') = 4 := by
    show index' + (4 - index') = 4
    omega
  rw [hend4] at hwo hrest
  rw [hfill]
  refine ⟨hwo, fun i => ?_⟩
  rw [hrest i]
  have hmono := @freeCount_mono cb (block * 4 + index) (block * 4 + i)
  by_cases hi : index' ≤ i
  · have hmono' := @freeCount_mono cb (block * 4 + index') (block * 4 + i) (by omega)
    rw [show wb' i = wb i from (hbytes i).trans (if_neg (by omega))]
    -- behind the length field, or without one
    by_cases hcond : i < 4 ∧ cb.isLockResByte (block * 4 + i) = false ∧
        cb.freeCount (block * 4 + i) - c < cb.totalBytes
    · rw [if_pos ⟨hi, hcond⟩, if_pos ⟨by omega, hcond⟩]
      unfold T2tCb.streamByte
      rw [if_neg]
      rintro ⟨hlt', hpos⟩
      have hlen := lengthFieldLen_le hpos
      rcases hend with hend | hend | hend
      · have h4 : index' = index + (4 - index) := hend
        omega
      · omega
      · omega
    · rw [if_neg fun h => hcond h.2, if_neg fun h => hcond h.2]
  · rw [if_neg fun h => hi h.1, hbytes i]
    by_cases hcond : index ≤ i ∧ cb.isLockResByte (block * 4 + i) = false
    · have hsucc := freeCount_succ_free hcond.2
      have hmono' := @freeCount_mono cb (block * 4 + i + 1) (block * 4 + index') (by omega)
      have hpos : cb.freeCount (block * 4 + i) - c < cb.lengthFieldLen := by
        have := hmono (by omega)
        omega
      by_cases hmsg : 0 < cb.newNdefMsgLen
      · rw [if_pos ⟨hcond.1, by omega, hcond.2⟩, if_pos ⟨hcond.1, by omega, hcond.2, by
          unfold T2tCb.totalBytes
          omega⟩]
        unfold T2tCb.streamByte
        rw [if_pos ⟨hpos, hmsg⟩]
      · -- without a message the first loop does nothing
        exfalso
        have hnone : index' = index := by
          have hsize : t2tBlockSize - index = 3 - index + 1 := by
            show 4 - index = _
            omega
          rw [hsize] at hr
          unfold fillLength at hr
          rw [if_neg (by omega)] at hr
          exact (Prod.mk.inj hr).1.symm
        omega
    · rw [if_neg fun h => hcond ⟨h.1, h.2.2⟩, if_neg fun h => hcond ⟨h.1, h.2.2.1⟩]

/-! ## The last byte -/

theorem isLockResByte_of_ge {a : Nat} (h : 2 ^ 16 ≤ a) : cb.isLockResByte a = false := by
  have hlock : cb.lockOffsets.contains a = false := by
    rw [List.contains_eq_mem, decide_eq_false_iff_not]
    intro hmem
    obtain ⟨b, -, rfl⟩ := List.mem_map.mp hmem
    omega
  have hmem : (cb.memTlvs.any fun r => r.offsets.contains a) = false := by
    rw [List.any_eq_false]
    intro r _ hmem
    rw [List.contains_eq_mem, decide_eq_true_eq] at hmem
    obtain ⟨i, -, rfl⟩ := List.mem_map.mp hmem
    omega
  unfold T2tCb.isLockResByte T2tCb.marked
  rw [hlock, hmem, Bool.false_or, Bool.false_or]
  split
  · rw [List.contains_eq_mem, decide_eq_false_iff_not]
    intro hin
    unfold internalOffsets at hin
    dsimp only at hin
    split at hin
    · obtain ⟨i, -, rfl⟩ := List.mem_map.mp hin
      omega
    · cases hin
  · rfl

theorem freeCount_add_of_ge {a : Nat} (h : 2 ^ 16 ≤ a) (n : Nat) :
    cb.freeCount (a + n) = cb.freeCount a + n := by
  induction n with
  | zero => rfl
  | succ n ih =>
    rw [← Nat.add_assoc, freeCount_succ_free (isLockResByte_of_ge (by omega)), ih]
    rfl

theorem lastByteLoop_steps {total c : Nat} (n : Nat) : ∀ {num offset : Nat},
    num + c = cb.freeCount offset → num ≤ total → total + c ≤ cb.freeCount (offset + n) →
    cb.freeCount (lastByteLoop cb total n num offset) = total + c ∧
      (num < total → offset ≤ lastByteLoop cb total n num offset - 1 ∧
        0 < lastByteLoop cb total n num offset ∧
        cb.isLockResByte (lastByteLoop cb total n num offset - 1) = false) := by
  induction n with
  | zero =>
    intro num offset hnum hle hmax
    have hmax' : total + c ≤ cb.freeCount offset := hmax
    refine ⟨?_, fun hlt => absurd hlt (by omega)⟩
    show cb.freeCount offset = _
    omega
  | succ n ih =>
    intro num offset hnum hle hmax
    have hmax' : total + c ≤ cb.freeCount (offset + 1 + n) := by
      rw [show offset + 1 + n = offset + (n + 1) by omega]
      exact hmax
    unfold lastByteLoop
    split
    · rename_i hlt
      by_cases hres : cb.isLockResByte offset = true
      · rw [if_pos hres]
        have hnext : num + c = cb.freeCount (offset + 1) := by
          rw [freeCount_succ_reserved hres]
          exact hnum
        obtain ⟨hcount, hlast⟩ := ih hnext hle hmax'
        refine ⟨hcount, fun _ => ?_⟩
        obtain ⟨hge, hpos, hfree⟩ := hlast hlt
        exact ⟨by omega, hpos, hfree⟩
      · have hfree : cb.isLockResByte offset = false := by simpa using hres
        rw [if_neg hres]
        have hnext : num + 1 + c = cb.freeCount (offset + 1) := by
          rw [freeCount_succ_free hfree]
          omega
        obtain ⟨hcount, hlast⟩ := ih hnext hlt hmax'
        refine ⟨hcount, fun _ => ?_⟩
        by_cases hmore : num + 1 < total
        · obtain ⟨hge, hpos, hfree'⟩ := hlast hmore
          exact ⟨by omega, hpos, hfree'⟩
        · -- this is the last byte
          have hstop : lastByteLoop cb total n (num + 1) (offset + 1) = offset + 1 := by
            cases n with
            | zero => rfl
            | succ n => exact if_neg hmore
          rw [hstop]
          exact ⟨le_rfl, Nat.succ_pos _, hfree⟩
    · rename_i hge
      exact ⟨by omega, fun hlt => absurd hlt hge⟩

/-- The address behind the last byte: as many free addresses lie before it as there are bytes, and
the last of them is right before it. -/
theorem lastByteLoop_spec {total start : Nat} (hpos : 0 < total) :
    cb.freeCount (lastByteLoop cb total (2 ^ 16 + total) 0 start) = total + cb.freeCount start ∧
      start ≤ lastByteLoop cb total (2 ^ 16 + total) 0 start - 1 ∧
      0 < lastByteLoop cb total (2 ^ 16 + total) 0 start ∧
      cb.isLockResByte (lastByteLoop cb total (2 ^ 16 + total) 0 start - 1) = false := by
  have hmax : total + cb.freeCount start ≤ cb.freeCount (start + (2 ^ 16 + total)) := by
    rw [← Nat.add_assoc, freeCount_add_of_ge (by omega)]
    have := @freeCount_mono cb start (start + 2 ^ 16) (by omega)
    omega
  obtain ⟨hcount, hlast⟩ := lastByteLoop_steps (2 ^ 16 + total) (Nat.zero_add _) (Nat.zero_le _) hmax
  exact ⟨hcount, hlast hpos⟩

/-! ## The next block -/

theorem freeCount_block (block : Nat) :
    cb.freeCount (block * 4 + 4) = cb.freeCount (block * 4) + freeInBlock cb block := by
  unfold freeInBlock T2tCb.freeCount
  rw [show block * 4 + 4 = block * 4 + 3 + 1 by omega, Nat.count_succ,
    show block * 4 + 3 = block * 4 + 2 + 1 by omega, Nat.count_succ,
    show block * 4 + 2 = block * 4 + 1 + 1 by omega, Nat.count_succ, Nat.count_succ,
    show List.range t2tBlockSize = [0, 1, 2, 3] from rfl]
  simp only [List.filter_cons, List.filter_nil, Nat.add_zero,
    show block * 4 + 1 + 1 = block * 4 + 2 by omega, show block * 4 + 2 + 1 = block * 4 + 3 by omega]
  cases cb.isLockResByte (block * 4) <;> cases cb.isLockResByte (block * 4 + 1) <;>
    cases cb.isLockResByte (block * 4 + 2) <;> cases cb.isLockResByte (block * 4 + 3) <;> simp

theorem free_of_freeInBlock (h : freeInBlock cb block = t2tBlockSize) {i : Nat} (hi : i < 4) :
    cb.isLockResByte (block * 4 + i) = false := by
  unfold freeInBlock at h
  have hall := List.length_filter_eq_length_iff.mp (h.trans List.length_range.symm)
  simpa using hall i (List.mem_range.mpr hi)

/-- The loop goes past blocks of which no byte is free, to one of which some are, or to the end. -/
theorem freeBlockLoop_spec (n : Nat) : ∀ {block : Nat},
    ∃ rbw k, freeBlockLoop cb n block = (rbw, k) ∧ block ≤ k ∧ k ≤ block + n ∧
      cb.freeCount (k * 4) = cb.freeCount (block * 4) ∧ (k < block + n → 0 < freeInBlock cb k) ∧
      (rbw = false → k < block + n ∧ freeInBlock cb k = t2tBlockSize) := by
  induction n with
  | zero =>
    intro block
    exact ⟨true, block, rfl, le_rfl, le_rfl, rfl, by omega, nofun⟩
  | succ n ih =>
    intro block
    unfold freeBlockLoop
    dsimp only
    split
    · rename_i hall
      exact ⟨false, block, rfl, le_rfl, by omega, rfl, fun _ => by rw [hall]; decide,
        fun _ => ⟨by omega, hall⟩⟩
    · split
      · rename_i hnone
        obtain ⟨rbw, k, hr, hle, hmax, hcount, hsome, hdirect⟩ := @ih (block + 1)
        refine ⟨rbw, k, hr, by omega, by omega, ?_, fun hk => hsome (by omega), fun hf => ?_⟩
        · rw [hcount, show (block + 1) * 4 = block * 4 + 4 by omega, freeCount_block, hnone]
          rfl
        · obtain ⟨hk, hfull⟩ := hdirect hf
          exact ⟨by omega, hfull⟩
      · rename_i hsome
        exact ⟨true, block, rfl, le_rfl, by omega, rfl, fun _ => Nat.pos_of_ne_zero hsome, nofun⟩

end Fill

end NfcStack.Rw
