import NfcStack.Lib.Run
import NfcStack.Ce.T4t

/- The NDEF file of the emulated Type 4 tag. Its length is kept apart from the message,
   and reads and updates that touch both are split between them; seen from the reader
   there is one array of bytes.

   What is proved:
     1. `readBinary_ndef`, `updateNlen_file`: the parts of a read and of an update, put
        together.
     2. `Shaped`: the sizes of the buffers. `serves_dataCback`: every command keeps them,
        and reads, changes and reports the file as it does an array.
     3. `t4t_file_refines`: in every run of commands the file is read and updated as an
        array. -/
namespace NfcStack.Ce
open NfcStack.Lib

section File
variable {Cback : Type}

def T4tMem.message (m : T4tMem Cback) : Bytes :=
  match m.scratchBuf with
  | some buf => buf
  | none => m.ndefMsg.getD []

def T4tMem.file (m : T4tMem Cback) : Bytes := be16 m.nlen ++ m.message

inductive FileCmd where
  | read (offset le : Nat)
  | update (offset lc : Nat) (data : Bytes)
  | other
  deriving DecidableEq, Repr

/-- A command is for the file if the NDEF application and the file are selected. -/
def fileCmd (m : T4tMem Cback) (apdu : Bytes) : FileCmd :=
  if m.status.t4tAppSelected ∧ ¬ m.status.regAidSelected ∧ ¬ m.status.wildcardAidSelected ∧
      m.status.ndefSelected ∧ apdu.getD 0 0 = t4tCmdClass ∧ t4tCmdMaxHdrSize ≤ apdu.length then
    if apdu.getD 1 0 = t4tCmdInsReadBinary then .read (be16At apdu 2) (apdu.getD 4 0).toNat
    else if apdu.getD 1 0 = t4tCmdInsUpdateBinary then
      .update (be16At apdu 2) (apdu.getD 4 0).toNat (apdu.drop 5)
    else .other
  else .other

/-- The array of bytes, up to `max`: its new content, and the data and status of the response. -/
def fileStepTo (max : Nat) (readOnly : Bool) (f : Bytes) :
    FileCmd → Bytes × Option (Bytes × StatusWords)
  | .read offset le =>
    let n := min le (max - offset)
    (f, some (if n = 0 then ([], .wrongParams) else (slice f offset n, .cmdCmplted)))
  | .update offset lc data =>
    if readOnly then (f, some ([], .cmdNotAllowed))
    else if 0 < lc ∧ lc ≤ data.length ∧ offset + lc ≤ max then
      (blit f offset (data.take lc), some ([], .cmdCmplted))
    else (f, some ([], .wrongParams))
  | .other => (f, none)

def fileStep (readOnly : Bool) (f : Bytes) : FileCmd → Bytes × Option (Bytes × StatusWords) :=
  fileStepTo f.length readOnly f

/-- The length that an update reports as complete: one from the start that leaves a message. -/
def completes (max : Nat) (readOnly : Bool) (f : Bytes) : FileCmd → Option Nat
  | .update offset lc data =>
    if readOnly = false ∧ (0 < lc ∧ lc ≤ data.length ∧ offset + lc ≤ max) ∧ offset = 0 ∧
        0 < be16At (blit f offset (data.take lc)) 0 then
      some (be16At (blit f offset (data.take lc)) 0)
    else none
  | _ => none

/-- The response is the last thing that the handler does. -/
def Answers (outs : List (T4tOut Cback)) : Option (Bytes × StatusWords) → Prop
  | none => True
  | some (data, sw) => ∃ evts, outs = evts ++ [.rApdu data sw]

/-! ## Parts of the file -/

theorem be16_length (n : Nat) : (be16 n).length = 2 := rfl

theorem be16_be16At (a b : UInt8) (l : Bytes) : be16 (be16At (a :: b :: l) 0) = [a, b] := by
  have ha := a.toNat_lt
  have hb := b.toNat_lt
  show [UInt8.ofNat ((a.toNat * 2 ^ 8 + b.toNat) / 2 ^ 8), UInt8.ofNat (a.toNat * 2 ^ 8 + b.toNat)] =
    [a, b]
  congr 1
  · rw [show (a.toNat * 2 ^ 8 + b.toNat) / 2 ^ 8 = a.toNat by omega, UInt8.ofNat_toNat]
  · congr 1
    apply UInt8.toNat_inj.mp
    rw [UInt8.toNat_ofNat']
    omega

/-- The new bytes of the length, and those of the message behind them. -/
theorem blit_both (a b x y : UInt8) (msg data : Bytes) :
    blit (a :: b :: msg) 0 (x :: y :: data) = x :: y :: blit msg 0 data := by
  simp [blit]

theorem blit_low (a b x : UInt8) (msg data : Bytes) :
    blit (a :: b :: msg) 1 (x :: data) = a :: x :: blit msg 0 data := by
  simp [blit, show 1 + (data.length + 1) = data.length + 2 by omega]

theorem blit_message (a b : UInt8) (msg data : Bytes) (offset : Nat) :
    blit (a :: b :: msg) (offset + 2) data = a :: b :: blit msg offset data := by
  simp [blit, Nat.add_right_comm]

/-! ## The buffers -/

/-- The size of a file, for a message of at most `size` bytes. -/
def fileMax (size : Nat) : Nat := (size + 2) % 2 ^ 16

/-- The capability container has its size, the message has the configured one, and a file
that may be written has a scratch buffer. -/
structure Shaped (readOnly : Bool) (size : Nat) (m : T4tMem Cback) : Prop where
  cc : m.ccFile.length = t4tCcFileLen
  max : m.maxFileSize = fileMax size
  message : m.message.length = size
  msg : m.ndefMsg.isSome
  access : m.status.ndefFileReadOnly = readOnly
  scratch : readOnly = false → m.scratchBuf.isSome
  one : ¬ (m.status.ccFileSelected = true ∧ m.status.ndefSelected = true)

/-- The buffers and the access right are the same. -/
structure SameFile (m u : T4tMem Cback) : Prop where
  cc : u.ccFile.length = m.ccFile.length
  msg : u.ndefMsg = m.ndefMsg
  nlen : u.nlen = m.nlen
  max : u.maxFileSize = m.maxFileSize
  scratch : u.scratchBuf = m.scratchBuf
  access : u.status.ndefFileReadOnly = m.status.ndefFileReadOnly

variable {readOnly : Bool} {size : Nat} {m u : T4tMem Cback}

theorem SameFile.message (h : SameFile m u) : u.message = m.message := by
  unfold T4tMem.message
  rw [h.scratch, h.msg]

theorem SameFile.file (h : SameFile m u) : u.file = m.file := by
  unfold T4tMem.file
  rw [h.nlen, h.message]

theorem Shaped.same (h : Shaped readOnly size m) (hs : SameFile m u)
    (hone : ¬ (u.status.ccFileSelected = true ∧ u.status.ndefSelected = true)) :
    Shaped readOnly size u where
  cc := hs.cc.trans h.cc
  max := hs.max.trans h.max
  message := by
    rw [hs.message]
    exact h.message
  msg := by
    rw [hs.msg]
    exact h.msg
  access := hs.access.trans h.access
  scratch hro := by
    rw [hs.scratch]
    exact h.scratch hro
  one := hone

theorem SameFile.refl (m : T4tMem Cback) : SameFile m m := ⟨rfl, rfl, rfl, rfl, rfl, rfl⟩

/-! ## Reading -/

theorem readAt_of_le {mem : Bytes} {pos len : Nat} (h : pos + len ≤ mem.length) :
    readAt mem pos len = some (slice mem pos len) := if_pos h

theorem Shaped.readSrc_ndef (h : Shaped readOnly size m) (hsel : m.status.ndefSelected = true) :
    readSrc m = some m.message := by
  have hcc : m.status.ccFileSelected = false := by
    by_contra hcc
    exact h.one ⟨by simpa using hcc, hsel⟩
  unfold readSrc T4tMem.message
  rw [hcc, hsel]
  cases hbuf : m.scratchBuf with
  | some buf => simp
  | none =>
    obtain ⟨msg, hmsg⟩ := Option.isSome_iff_exists.mp h.msg
    simp [hmsg]

theorem readBinary_ndef (h : Shaped readOnly size m) (hsel : m.status.ndefSelected = true)
    {offset length : Nat} (hpos : 0 < length) (hlen : offset + length ≤ size + 2) :
    readBinary m offset length = some [.rApdu (slice m.file offset length) .cmdCmplted] := by
  unfold readBinary
  rw [h.readSrc_ndef hsel]
  dsimp only
  rw [if_pos ⟨hsel, hpos⟩]
  have hmsg := h.message
  match offset, length with
  | 0, 1 => rfl
  | 0, n + 2 =>
    have hfits : 0 + (n + 2 - t4tFileLengthSize) ≤ m.message.length := by
      show 0 + (n + 2 - 2) ≤ _
      omega
    rw [if_pos rfl, if_neg (by omega), readAt_of_le hfits]
    rfl
  | 1, n + 1 =>
    rw [if_neg (by omega), if_pos rfl, readAt_of_le (by omega)]
    rfl
  | o + 2, n + 1 =>
    have hfits : o + 2 - t4tFileLengthSize + (n + 1) ≤ m.message.length := by
      show o + 2 - 2 + (n + 1) ≤ _
      omega
    rw [if_neg (by omega), if_neg (by omega), readAt_of_le hfits]
    rfl

theorem readBinary_cc (h : Shaped readOnly size m) (hsel : m.status.ccFileSelected = true)
    (offset length : Nat) (hlen : offset + length ≤ t4tCcFileLen) :
    ∃ data, readBinary m offset length = some [.rApdu data .cmdCmplted] := by
  have hndef : ¬ (m.status.ndefSelected = true ∧ length > 0) := fun hn => h.one ⟨hsel, hn.1⟩
  unfold readBinary
  rw [show readSrc m = some m.ccFile from if_pos hsel]
  dsimp only
  rw [if_neg hndef, readAt_of_le (by rw [h.cc]; exact hlen)]
  exact ⟨_, rfl⟩

theorem clamped_length {le offset max : Nat} (hle : le < 2 ^ 8) :
    (if le ≤ ceT4tMaxLe then
      if le + offset > max then if offset < max then (max - offset) % 2 ^ 8 else 0 else le
      else 0) = min le (max - offset) := by
  have hmax : le ≤ ceT4tMaxLe := le_trans hle.le (by decide)
  rw [if_pos hmax]
  split
  · split
    · rw [Nat.mod_eq_of_lt (by omega)]
      omega
    · omega
  · omega

theorem fileMax_le (size : Nat) : fileMax size ≤ size + 2 := Nat.mod_le _ _

theorem Shaped.file_length (h : Shaped readOnly size m) : m.file.length = size + 2 := by
  show (be16 m.nlen ++ m.message).length = _
  rw [List.length_append, h.message, be16_length]
  omega

/-- A READ BINARY command is answered with the bytes that there are. -/
theorem readBinaryCmd_spec (h : Shaped readOnly size m) (apdu : Bytes)
    (hsel : m.status.ccFileSelected = true ∨ m.status.ndefSelected = true) :
    ∃ data sw, readBinaryCmd m apdu = some [.rApdu data sw] ∧
      (t4tCmdMaxHdrSize ≤ apdu.length → m.status.ndefSelected = true →
        some (data, sw) =
          (fileStepTo (fileMax size) readOnly m.file (.read (be16At apdu 2) (apdu.getD 4 0).toNat)).2) := by
  unfold readBinaryCmd
  dsimp only
  split
  · rename_i hshort
    exact ⟨_, _, rfl, fun hlen => absurd hlen (by omega)⟩
  · rw [clamped_length (apdu.getD 4 0).toNat_lt]
    generalize (apdu.getD 4 0).toNat = le
    generalize be16At apdu 2 = offset
    by_cases hcc : m.status.ccFileSelected = true
    · rw [if_pos hcc]
      have hndef : ¬ m.status.ndefSelected = true := fun hn => h.one ⟨hcc, hn⟩
      split
      · obtain ⟨data, hread⟩ := readBinary_cc h hcc offset (min le (t4tCcFileLen - offset)) (by omega)
        exact ⟨data, _, hread, fun _ hn => absurd hn hndef⟩
      · exact ⟨_, _, rfl, fun _ hn => absurd hn hndef⟩
    · rw [if_neg hcc, h.max]
      have hndef := hsel.resolve_left hcc
      have hmax := fileMax_le size
      unfold fileStepTo
      dsimp only
      split
      · rename_i hpos
        rw [if_neg (by omega)]
        exact ⟨_, _, readBinary_ndef h hndef hpos (by omega), fun _ _ => rfl⟩
      · rename_i hzero
        rw [if_pos (by omega)]
        exact ⟨_, _, rfl, fun _ _ => rfl⟩

/-! ## Updating -/

theorem blit_nil (mem : Bytes) (pos : Nat) : blit mem pos [] = mem := by
  simp [blit]

theorem updateNlen_behind (fileLength : Bytes) {offset : Nat} (h : 2 ≤ offset) (length : Nat)
    (data : Bytes) : updateNlen fileLength offset length data = (fileLength, offset, length, data) := by
  cases length with
  | zero => rfl
  | succ n =>
    have hnot : ¬ offset < t4tFileLengthSize := by
      show ¬ offset < 2
      omega
    exact if_neg hnot

/-- What the loop over the length leaves, and what this comes to in the file. -/
theorem updateNlen_file (a b : UInt8) (msg : Bytes) (offset : Nat) {length : Nat} {data : Bytes}
    (hpos : 0 < length) (hlen : length ≤ data.length) :
    ∃ x y offset' length' data',
      updateNlen [a, b] offset length data = ([x, y], offset', length', data') ∧
      blit (a :: b :: msg) offset (data.take length) =
        x :: y :: blit msg (offset' - 2) (data'.take length') ∧
      length' ≤ data'.length ∧ offset' + length' = offset + length ∧ (0 < length' → 2 ≤ offset') := by
  match offset, length, data with
  | 0, 1, d :: ds =>
    refine ⟨d, b, 1, 0, ds, rfl, ?_, by simp, rfl, by simp⟩
    rw [List.take_zero, blit_nil]
    rfl
  | 0, n + 2, d :: e :: ds =>
    have hloop : updateNlen [a, b] 0 (n + 2) (d :: e :: ds) = ([d, e], 2, n, ds) :=
      updateNlen_behind [d, e] le_rfl n ds
    simp only [List.length_cons] at hlen
    exact ⟨d, e, 2, n, ds, hloop, blit_both a b d e msg (ds.take n), by omega, by omega, fun _ => le_rfl⟩
  | 1, n + 1, d :: ds =>
    have hloop : updateNlen [a, b] 1 (n + 1) (d :: ds) = ([a, d], 2, n, ds) :=
      updateNlen_behind [a, d] le_rfl n ds
    simp only [List.length_cons] at hlen
    exact ⟨a, d, 2, n, ds, hloop, blit_low a b d msg (ds.take n), by omega, by omega, fun _ => le_rfl⟩
  | o + 2, n + 1, data =>
    exact ⟨a, b, o + 2, n + 1, data, updateNlen_behind _ (by omega) _ _, blit_message a b msg _ o, hlen,
      rfl, fun _ => by omega⟩
  | 0, n + 2, [_] => simp at hlen
  | 0, _ + 1, [] => simp at hlen
  | 1, _ + 1, [] => simp at hlen

theorem updateBinary_spec (h : Shaped false size m) {offset length : Nat} {data : Bytes}
    (hpos : 0 < length) (hlen : length ≤ data.length) (hfits : offset + length ≤ size + 2) :
    ∃ u outs, updateBinary m offset length data = some (u, outs) ∧ Shaped false size u ∧
      u.file = blit m.file offset (data.take length) ∧
      (∃ evts, outs = evts ++ [.rApdu [] .cmdCmplted]) ∧
      ∀ len, .ndefUpdateCplt len ∈ outs ↔ offset = 0 ∧
        0 < be16At (blit m.file offset (data.take length)) 0 ∧
        be16At (blit m.file offset (data.take length)) 0 = len := by
  obtain ⟨buf, hbuf⟩ := Option.isSome_iff_exists.mp (h.scratch rfl)
  have hmsg : m.message = buf := by
    unfold T4tMem.message
    rw [hbuf]
  have hsize : buf.length = size := by
    rw [← hmsg]
    exact h.message
  obtain ⟨x, y, offset', length', data', hloop, hfile, hlen', hsum, hoff⟩ :=
    updateNlen_file (UInt8.ofNat (m.nlen / 2 ^ 8)) (UInt8.ofNat m.nlen) m.message offset hpos hlen
  have hwrite : copyToScratch m.scratchBuf (offset' - t4tFileLengthSize) length' data' =
      some (some (blit buf (offset' - 2) (data'.take length'))) := by
    unfold copyToScratch
    rw [hbuf]
    split
    · rename_i hl
      have hin : offset' - t4tFileLengthSize + (data'.take length').length ≤ buf.length := by
        have hge := hoff hl
        rw [List.length_take]
        show offset' - 2 + _ ≤ _
        omega
      show (writeAt buf _ _).map some = _
      rw [show writeAt buf _ _ = some (blit buf _ _) from if_pos hin]
      rfl
    · rename_i hl
      rw [show length' = 0 by omega, List.take_zero, blit_nil]
  -- the message and the length that the update leaves, whatever is reported
  have hdone : ∀ updating : Bool,
      Shaped false size { m with
        nlen := be16At [x, y] 0
        scratchBuf := some (blit buf (offset' - 2) (data'.take length'))
        status := { m.status with ndefFileUpdating := updating } } := by
    intro updating
    refine ⟨h.cc, h.max, ?_, h.msg, h.access, fun _ => rfl, h.one⟩
    show (blit buf _ _).length = size
    rw [length_blit, hsize]
    rw [List.length_take]
    omega
  unfold updateBinary
  rw [show be16 m.nlen = [UInt8.ofNat (m.nlen / 2 ^ 8), UInt8.ofNat m.nlen] from rfl, hloop]
  dsimp only
  rw [hwrite]
  dsimp only [Option.bind_eq_bind, Option.bind_some]
  have hview : be16 (be16At [x, y] 0) ++ blit buf (offset' - 2) (data'.take length') =
      blit m.file offset (data.take length) := by
    rw [be16_be16At, ← hmsg]
    exact hfile.symm
  have hnlen : be16At (blit m.file offset (data.take length)) 0 = be16At [x, y] 0 := by
    rw [← hview, be16_be16At]
    rfl
  rw [hnlen]
  split
  · rename_i hcplt
    refine ⟨_, _, rfl, hdone false, hview, ⟨[.ndefUpdateCplt _], rfl⟩, fun len => ?_⟩
    simp [hcplt.1, show 0 < be16At [x, y] 0 from hcplt.2, eq_comm]
  · rename_i hcplt
    have hnot : ∀ len, ¬ (offset = 0 ∧ 0 < be16At [x, y] 0 ∧ be16At [x, y] 0 = len) :=
      fun len hc => hcplt ⟨hc.1, hc.2.1⟩
    split
    · exact ⟨_, _, rfl, hdone true, hview, ⟨[.ndefUpdateStart], rfl⟩,
        fun len => iff_of_false (by simp) (hnot len)⟩
    · exact ⟨_, _, rfl, hdone m.status.ndefFileUpdating, hview, ⟨[], rfl⟩,
        fun len => iff_of_false (by simp) (hnot len)⟩

/-- What a handler has to do for the file: it returns, the buffers keep their sizes, and the
file is changed, the reader answered and the end of an update reported as for an array. -/
def Serves (readOnly : Bool) (size : Nat) (m : T4tMem Cback) (cmd : FileCmd)
    (r : Option (T4tMem Cback × List (T4tOut Cback))) : Prop :=
  ∃ u outs, r = some (u, outs) ∧ Shaped readOnly size u ∧
    u.file = (fileStepTo (fileMax size) readOnly m.file cmd).1 ∧
    Answers outs (fileStepTo (fileMax size) readOnly m.file cmd).2 ∧
    ∀ len, .ndefUpdateCplt len ∈ outs ↔ completes (fileMax size) readOnly m.file cmd = some len

theorem serves_same (h : Shaped readOnly size m) {outs : List (T4tOut Cback)} (hs : SameFile m u)
    (hone : ¬ (u.status.ccFileSelected = true ∧ u.status.ndefSelected = true))
    (hquiet : ∀ len, .ndefUpdateCplt len ∉ outs) : Serves readOnly size m .other (some (u, outs)) :=
  ⟨u, outs, rfl, h.same hs hone, hs.file, trivial, fun len => iff_of_false (hquiet len) nofun⟩

theorem serves_answer (h : Shaped readOnly size m) {outs : List (T4tOut Cback)}
    (hquiet : ∀ len, .ndefUpdateCplt len ∉ outs) : Serves readOnly size m .other (some (m, outs)) :=
  serves_same h (SameFile.refl m) h.one hquiet

theorem checked_length {lc offset avail max : Nat} (hlc : lc < 2 ^ 8) :
    (if lc ≤ ceT4tMaxLc ∧ lc ≤ avail then if lc + offset > max then 0 else lc else 0) =
      if 0 < lc ∧ lc ≤ avail ∧ offset + lc ≤ max then lc else 0 := by
  have hmax : lc ≤ ceT4tMaxLc := le_trans hlc.le (by decide)
  by_cases hin : 0 < lc ∧ lc ≤ avail ∧ offset + lc ≤ max
  · obtain ⟨hpos, hlen, hfits⟩ := hin
    rw [if_pos ⟨hmax, hlen⟩, if_neg (by omega), if_pos ⟨hpos, hlen, hfits⟩]
  · rw [if_neg hin]
    split
    · split
      · rfl
      · omega
    · rfl

theorem updateBinaryCmd_spec (h : Shaped false size m) (apdu : Bytes)
    (hhdr : t4tCmdMaxHdrSize ≤ apdu.length) :
    Serves false size m (.update (be16At apdu 2) (apdu.getD 4 0).toNat (apdu.drop 5))
      (updateBinaryCmd m apdu) := by
  have hmax := fileMax_le size
  unfold updateBinaryCmd Serves fileStepTo
  dsimp only
  rw [if_neg (not_lt.mpr hhdr), checked_length (apdu.getD 4 0).toNat_lt, h.max,
    List.length_drop, if_neg Bool.false_ne_true]
  generalize (apdu.getD 4 0).toNat = lc
  generalize be16At apdu 2 = offset
  by_cases hin : 0 < lc ∧ lc ≤ apdu.length - 5 ∧ offset + lc ≤ fileMax size
  · rw [if_pos hin, if_pos hin]
    obtain ⟨hpos, hlen, hfits⟩ := hin
    rw [if_pos hpos]
    have hdata : lc ≤ (apdu.drop 5).length := by
      rw [List.length_drop]
      exact hlen
    obtain ⟨u, outs, hr, hu, hfile, hans, hevt⟩ := updateBinary_spec h hpos hdata (hfits.trans hmax)
    refine ⟨u, outs, hr, hu, hfile, hans, fun len => (hevt len).trans ?_⟩
    unfold completes
    dsimp only
    rw [List.length_drop]
    simp [hpos, hlen, hfits, and_assoc]
  · rw [if_neg hin, if_neg hin, if_neg (lt_irrefl 0)]
    refine ⟨m, _, rfl, h, rfl, ⟨[], rfl⟩, fun len => iff_of_false (by simp) ?_⟩
    unfold completes
    dsimp only
    rw [List.length_drop, if_neg fun hc => hin hc.2.1]
    exact nofun

variable {apdu : Bytes}

/-- Which commands to the NDEF application are for the file. -/
theorem fileCmd_app (happ : m.status.t4tAppSelected = true)
    (hreg : m.status.regAidSelected = false) (hwild : m.status.wildcardAidSelected = false)
    (hcla : apdu.getD 0 0 = t4tCmdClass) :
    fileCmd m apdu =
      if m.status.ndefSelected = true ∧ t4tCmdMaxHdrSize ≤ apdu.length then
        if apdu.getD 1 0 = t4tCmdInsReadBinary then .read (be16At apdu 2) (apdu.getD 4 0).toNat
        else if apdu.getD 1 0 = t4tCmdInsUpdateBinary then
          .update (be16At apdu 2) (apdu.getD 4 0).toNat (apdu.drop 5)
        else .other
      else .other := by
  unfold fileCmd
  rw [happ, hreg, hwild, hcla]
  simp

theorem serves_read (h : Shaped readOnly size m) {cmd : FileCmd}
    (hcmd : cmd = if m.status.ndefSelected = true ∧ t4tCmdMaxHdrSize ≤ apdu.length then
      .read (be16At apdu 2) (apdu.getD 4 0).toNat else .other) :
    Serves readOnly size m cmd
      (if m.status.ccFileSelected ∨ m.status.ndefSelected then
        (readBinaryCmd m apdu).map fun outs => (m, outs)
      else some (m, [.rApdu [] .cmdNotAllowed])) := by
  split
  · rename_i hsel
    obtain ⟨data, sw, hread, hans⟩ := readBinaryCmd_spec h apdu hsel
    rw [hread, hcmd]
    split
    · rename_i hfile
      refine ⟨m, _, rfl, h, rfl, ?_, fun len => iff_of_false (by simp) nofun⟩
      rw [← hans hfile.2 hfile.1]
      exact ⟨[], rfl⟩
    · exact serves_answer h (by simp)
  · rename_i hsel
    rw [hcmd, if_neg fun hfile => hsel (.inr hfile.1)]
    exact serves_answer h (by simp)

theorem serves_update (h : Shaped readOnly size m) {cmd : FileCmd}
    (hcmd : cmd = if m.status.ndefSelected = true ∧ t4tCmdMaxHdrSize ≤ apdu.length then
      .update (be16At apdu 2) (apdu.getD 4 0).toNat (apdu.drop 5) else .other) :
    Serves readOnly size m cmd
      (if m.status.ndefFileReadOnly then some (m, [.rApdu [] .cmdNotAllowed])
      else if m.status.ndefSelected then updateBinaryCmd m apdu
      else some (m, [.rApdu [] .cmdNotAllowed])) := by
  rw [h.access]
  cases readOnly with
  | true =>
    rw [hcmd, if_pos rfl]
    split
    · refine ⟨m, _, rfl, h, rfl, ⟨[], rfl⟩, fun len => iff_of_false (by simp) ?_⟩
      unfold completes
      dsimp only
      rw [if_neg fun hc => Bool.false_ne_true hc.1.symm]
      exact nofun
    · exact serves_answer h (by simp)
  | false =>
    rw [hcmd, if_neg Bool.false_ne_true]
    by_cases hsel : m.status.ndefSelected = true
    · rw [if_pos hsel]
      by_cases hhdr : t4tCmdMaxHdrSize ≤ apdu.length
      · rw [if_pos ⟨hsel, hhdr⟩]
        exact updateBinaryCmd_spec h apdu hhdr
      · rw [if_neg fun hfile => hhdr hfile.2]
        have hshort : updateBinaryCmd m apdu = some (m, [.rApdu [] .wrongLength]) :=
          if_pos (not_le.mp hhdr)
        rw [hshort]
        exact serves_answer h (by simp)
    · rw [if_neg hsel, if_neg fun hfile => hsel hfile.1]
      exact serves_answer h (by simp)

theorem serves_selectFile (h : Shaped readOnly size m) (apdu : Bytes) :
    Serves readOnly size m .other (some (processSelectFileCmd m apdu)) := by
  unfold processSelectFileCmd selectFile
  split
  · dsimp only
    split
    · exact serves_same h ⟨rfl, rfl, rfl, rfl, rfl, rfl⟩ (fun hs => absurd hs.2 Bool.false_ne_true)
        (by simp)
    · split
      · exact serves_same h ⟨rfl, rfl, rfl, rfl, rfl, rfl⟩
          (fun hs => absurd hs.1 Bool.false_ne_true) (by simp)
      · exact serves_same h ⟨rfl, rfl, rfl, rfl, rfl, rfl⟩
          (fun hs => absurd hs.1 Bool.false_ne_true) (by simp)
  · exact serves_answer h (by simp)

theorem serves_ndefAppCmd (h : Shaped readOnly size m)
    (happ : m.status.t4tAppSelected = true) (hreg : m.status.regAidSelected = false)
    (hwild : m.status.wildcardAidSelected = false) (hcla : apdu.getD 0 0 = t4tCmdClass) :
    Serves readOnly size m (fileCmd m apdu) (ndefAppCmd m apdu) := by
  have hcmd := fileCmd_app happ hreg hwild hcla
  unfold ndefAppCmd
  dsimp only
  by_cases hhdr : t4tCmdMinHdrSize ≤ apdu.length
  · rw [if_pos hhdr]
    split
    · rename_i hins
      rw [hins, if_neg (by decide : ¬ t4tCmdInsSelect = t4tCmdInsReadBinary),
        if_neg (by decide : ¬ t4tCmdInsSelect = t4tCmdInsUpdateBinary), ite_self] at hcmd
      rw [hcmd]
      split
      · split
        · exact serves_answer h (by simp)
        · exact serves_selectFile h apdu
      · exact serves_answer h (by simp)
    · split
      · rename_i hins
        rw [hins, if_pos rfl] at hcmd
        exact serves_read h hcmd
      · rename_i hread
        rw [if_neg hread] at hcmd
        split
        · rename_i hins
          rw [if_pos hins] at hcmd
          exact serves_update h hcmd
        · rename_i hins
          rw [if_neg hins, ite_self] at hcmd
          rw [hcmd]
          exact serves_answer h (by simp)
  · have hshort : ¬ (m.status.ndefSelected = true ∧ t4tCmdMaxHdrSize ≤ apdu.length) :=
      fun hfile => hhdr (le_trans (by decide) hfile.2)
    rw [if_neg hshort] at hcmd
    rw [hcmd, if_neg hhdr, if_neg (by decide), if_neg (by decide), if_neg (by decide)]
    exact serves_answer h (by simp)

theorem serves_select (h : Shaped readOnly size m) (apdu : Bytes) :
    Serves readOnly size m .other (some (processSelectAppCmd m apdu)) := by
  unfold processSelectAppCmd
  split
  · exact serves_answer h (by simp)
  · split
    · exact serves_same h ⟨rfl, rfl, rfl, rfl, rfl, rfl⟩
        (fun hs => absurd hs.1 Bool.false_ne_true) (by simp)
    · dsimp only
      split
      · split
        · exact serves_same h ⟨List.length_set, rfl, rfl, rfl, rfl, rfl⟩
            (fun hs => absurd hs.1 Bool.false_ne_true) (by simp)
        · split
          · exact serves_same h ⟨List.length_set, rfl, rfl, rfl, rfl, rfl⟩
              (fun hs => absurd hs.1 Bool.false_ne_true) (by simp)
          · exact serves_same h ⟨rfl, rfl, rfl, rfl, rfl, rfl⟩ h.one (by simp)
      · split
        · exact serves_same h ⟨rfl, rfl, rfl, rfl, rfl, rfl⟩
            (fun hs => absurd hs.1 Bool.false_ne_true) (by simp)
        · exact serves_same h ⟨rfl, rfl, rfl, rfl, rfl, rfl⟩ h.one (by simp)

theorem fileCmd_select (hsel : isSelectByName apdu = true) : fileCmd m apdu = .other := by
  have hins : apdu.getD 1 0 = t4tCmdInsSelect := by
    unfold isSelectByName at hsel
    simp only [Bool.and_eq_true, beq_iff_eq] at hsel
    exact hsel.1.2
  unfold fileCmd
  rw [hins, if_neg (by decide : ¬ t4tCmdInsSelect = t4tCmdInsReadBinary),
    if_neg (by decide : ¬ t4tCmdInsSelect = t4tCmdInsUpdateBinary), ite_self]

theorem serves_dataCback (h : Shaped readOnly size m) (apdu : Bytes) :
    Serves readOnly size m (fileCmd m apdu) (dataCback m apdu) := by
  -- a command that is not for the file, by the first condition that it fails
  have hother : ∀ hnot : ¬ (m.status.t4tAppSelected ∧ ¬ m.status.regAidSelected ∧
      ¬ m.status.wildcardAidSelected ∧ m.status.ndefSelected ∧ apdu.getD 0 0 = t4tCmdClass ∧
      t4tCmdMaxHdrSize ≤ apdu.length), fileCmd m apdu = .other := fun hnot => if_neg hnot
  unfold dataCback
  split
  · rename_i hnil
    rw [hother fun hfile => by simp [hnil] at hfile]
    exact serves_answer h (by simp)
  · split
    · rename_i hclass
      rw [hother fun hfile => hclass.1 hfile.2.2.2.2.1]
      exact serves_answer h (by simp)
    · rename_i hclass
      split
      · rename_i hname
        rw [fileCmd_select hname]
        split
        · exact serves_select h apdu
        · exact serves_answer h (by simp)
      · split
        · rename_i hreg
          rw [hother fun hfile => hfile.2.1 hreg]
          split
          · exact serves_answer h (by simp)
          · exact serves_answer h (by simp)
        · rename_i hreg
          split
          · rename_i hwild
            rw [hother fun hfile => hfile.2.2.1 hwild]
            exact serves_answer h (by simp)
          · rename_i hwild
            split
            · rename_i happ
              have hcla : apdu.getD 0 0 = t4tCmdClass := by
                by_contra hne
                exact hclass ⟨hne, hreg, hwild⟩
              exact serves_ndefAppCmd h happ (by simpa using hreg) (by simpa using hwild) hcla
            · rename_i happ
              rw [hother fun hfile => happ hfile.1]
              exact serves_answer h (by simp)

/-! ## Runs -/

def t4tStep (m : T4tMem Cback) (apdu : Bytes) : Option (T4tMem Cback) := (dataCback m apdu).map Prod.fst

theorem shaped_step (h : Shaped readOnly size m) (apdu : Bytes) :
    ∃ u, t4tStep m apdu = some u ∧ Shaped readOnly size u := by
  obtain ⟨u, outs, hr, hu, -⟩ := serves_dataCback h apdu
  refine ⟨u, ?_, hu⟩
  unfold t4tStep
  rw [hr]
  rfl

def firstMessage (msg : Bytes) (ndefMsgLen : Nat) : Option Bytes → Bytes
  | none => msg
  | some buf => blit buf 0 (slice msg 0 ndefMsgLen)

theorem initScratch_some {msg : Bytes} {len : Nat} {scratchBuf buf : Option Bytes}
    (h : initScratch msg len scratchBuf = some buf) :
    buf.getD msg = firstMessage msg len scratchBuf ∧
      (scratchBuf.isSome → buf.isSome) ∧
      ∀ n, msg.length = n → (∀ b, scratchBuf = some b → b.length = n) →
        (firstMessage msg len scratchBuf).length = n := by
  unfold initScratch at h
  cases scratchBuf with
  | none =>
    obtain rfl := Option.some.inj h
    exact ⟨rfl, id, fun n hn _ => hn⟩
  | some b =>
    dsimp only at h
    unfold readAt writeAt at h
    split at h
    · rename_i hread
      rw [Option.bind_some] at h
      split at h
      · rename_i hwrite
        obtain rfl := Option.some.inj h
        refine ⟨rfl, fun _ => rfl, fun n _ hb => ?_⟩
        exact (length_blit hwrite).trans (hb b rfl)
      · cases h
    · cases h

theorem message_eq {msg : Bytes} (h : m.ndefMsg = some msg) : m.message = m.scratchBuf.getD msg := by
  unfold T4tMem.message
  rw [h]
  cases m.scratchBuf with
  | none => rfl
  | some buf => rfl

theorem shaped_setLocalNDEFMsg {m₀ : T4tMem Cback} {ndefMsgMax ndefMsgLen : UInt16} {msg : Bytes}
    {scratchBuf : Option Bytes} (hro : readOnly = true ∨ scratchBuf ≠ none) (hmsg : msg.length = ndefMsgMax.toNat)
    (hbuf : ∀ buf, scratchBuf = some buf → buf.length = ndefMsgMax.toNat)
    (hset : setLocalNDEFMsg m₀ readOnly ndefMsgMax ndefMsgLen (some msg) scratchBuf = some m) :
    Shaped readOnly ndefMsgMax.toNat (selectT4t m) ∧
      (selectT4t m).file = be16 ndefMsgLen.toNat ++ firstMessage msg ndefMsgLen.toNat scratchBuf := by
  have hnot : ¬ (¬ readOnly = true ∧ scratchBuf = none) := by
    rintro ⟨hr, hs⟩
    exact hro.elim hr fun h => h hs
  unfold setLocalNDEFMsg at hset
  dsimp only at hset
  rw [if_neg hnot] at hset
  obtain ⟨buf, hinit, rfl⟩ := Option.map_eq_some_iff.mp hset
  obtain ⟨hfirst, hsome, hlen⟩ := initScratch_some hinit
  constructor
  · refine ⟨rfl, rfl, ?_, rfl, rfl, fun hr => ?_, fun hs => absurd hs.1 Bool.false_ne_true⟩
    · rw [message_eq rfl]
      exact (congrArg List.length hfirst).trans (hlen _ hmsg hbuf)
    · apply hsome
      rw [hr] at hro
      exact Option.isSome_iff_ne_none.mpr (hro.resolve_left Bool.false_ne_true)
  · unfold T4tMem.file
    rw [message_eq rfl]
    exact congrArg (be16 ndefMsgLen.toNat ++ ·) hfirst

end File

/-- After a configuration and an activation, every command of every run returns, so that no
access is outside the buffers, and the NDEF file is read and updated as an array of
`ndef_msg_max + 2` bytes. -/
theorem t4t_file_refines {Cback : Type} (m₀ m : T4tMem Cback) (readOnly : Bool)
    (ndefMsgMax ndefMsgLen : UInt16) (msg : Bytes) (scratchBuf : Option Bytes)
    (hmax : ndefMsgMax.toNat ≤ 65533) (hro : readOnly = true ∨ scratchBuf ≠ none)
    (hmsg : msg.length = ndefMsgMax.toNat)
    (hbuf : ∀ buf, scratchBuf = some buf → buf.length = ndefMsgMax.toNat)
    (hset : setLocalNDEFMsg m₀ readOnly ndefMsgMax ndefMsgLen (some msg) scratchBuf = some m) :
    (selectT4t m).file = be16 ndefMsgLen.toNat ++ firstMessage msg ndefMsgLen.toNat scratchBuf ∧
      ∀ apdus : List Bytes, ∃ t, run t4tStep (selectT4t m) apdus = some t ∧
        t.file.length = ndefMsgMax.toNat + 2 ∧
        ∀ apdu, ∃ u outs, dataCback t apdu = some (u, outs) ∧
          u.file = (fileStep readOnly t.file (fileCmd t apdu)).1 ∧
          Answers outs (fileStep readOnly t.file (fileCmd t apdu)).2 := by
  obtain ⟨hshaped, hfile⟩ := shaped_setLocalNDEFMsg hro hmsg hbuf hset
  refine ⟨hfile, fun apdus => ?_⟩
  obtain ⟨t, hrun, ht⟩ := @run_invariant _ _ t4tStep (fun _ _ => True) (Shaped readOnly _)
    (fun _ apdu h _ => shaped_step h apdu) apdus _ hshaped (stepsOk_true _ _ _)
  refine ⟨t, hrun, ht.file_length, fun apdu => ?_⟩
  obtain ⟨u, outs, hr, -, hu, hans, -⟩ := serves_dataCback ht apdu
  have hsize : fileMax ndefMsgMax.toNat = t.file.length := by
    rw [ht.file_length]
    exact Nat.mod_eq_of_lt (by omega)
  rw [hsize] at hu hans
  exact ⟨u, outs, hr, hu, hans⟩

/-- A file with room for four bytes, of which two are used. -/
theorem t4t_file_refines_small :
    ∃ m : T4tMem Unit, setLocalNDEFMsg (ceInit Unit) false 4 2 (some [0xD0, 0, 0, 0])
        (some [9, 9, 9, 9]) = some m ∧ (selectT4t m).file = [0, 2, 0xD0, 0, 9, 9] ∧
      ∀ apdus : List Bytes, ∃ t, run t4tStep (selectT4t m) apdus = some t ∧ t.file.length = 6 ∧
        ∀ apdu, ∃ u outs, dataCback t apdu = some (u, outs) ∧
          u.file = (fileStep false t.file (fileCmd t apdu)).1 ∧
          Answers outs (fileStep false t.file (fileCmd t apdu)).2 := by
  refine ⟨_, rfl, ?_⟩
  exact t4t_file_refines (ceInit Unit) _ false 4 2 [0xD0, 0, 0, 0] (some [9, 9, 9, 9]) (by decide)
    (.inr (by decide)) rfl (by simp) rfl

end NfcStack.Ce
