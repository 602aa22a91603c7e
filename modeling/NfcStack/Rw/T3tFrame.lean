import NfcStack.Rw.T3t

/- The frames between a Type 3 tag and its reader.

   What is proved:
     1. `parseFrame_cmd`: the tag finds in a frame the command that the reader has put
        there, with the numbers of the blocks in either format.
     2. `exec_update`, `exec_check`: what the tag does with it.
     3. `dataCback_rsp`: the reader takes the answer.
     4. `parseAttr_attrInfo`, `detectAttr_attrInfo`: the attributes that the reader writes
        are the attributes that it reads.
     5. `flatMap_msgBlock`: the blocks of a message are its bytes, filled up with zeroes. -/
namespace NfcStack.Rw.T3t
open NfcStack.Lib

/-! ## Block lists -/

theorem length_blockEntry (b : Nat) : (blockEntry b).length = if b < 256 then 2 else 3 := by
  unfold blockEntry
  split
  · rfl
  · rfl

theorem length_blockList_le (n : Nat) : ∀ first, (blockList first n).length ≤ 3 * n := by
  induction n with
  | zero => exact fun _ => Nat.le_refl 0
  | succ n ih =>
    intro first
    have hrest := ih (first + 1)
    unfold blockList at hrest ⊢
    rw [List.range'_succ, List.flatMap_cons, List.length_append, length_blockEntry]
    split <;> omega

theorem length_blockList_low (n : Nat) : ∀ first, first + n ≤ 256 → (blockList first n).length = 2 * n := by
  induction n with
  | zero => exact fun _ _ => rfl
  | succ n ih =>
    intro first h
    have hrest := ih (first + 1) (by omega)
    unfold blockList at hrest ⊢
    rw [List.range'_succ, List.flatMap_cons, List.length_append, length_blockEntry, if_pos (by omega)]
    omega

theorem parseBlockList_entry {b n : Nat} (hb : b < 65536) (rest : Bytes) :
    parseBlockList (n + 1) (blockEntry b ++ rest) = (parseBlockList n rest).map fun r => (b :: r.1, r.2) := by
  unfold blockEntry
  by_cases hlow : b < 256
  · rw [if_pos hlow]
    show (if twoByteFormat &&& 0x80 ≠ 0 then _ else _) = _
    rw [if_pos (by decide)]
    show (parseBlockList n rest).map (fun r => ((UInt8.ofNat b).toNat :: r.1, r.2)) = _
    rw [UInt8.toNat_ofNat_of_lt' hlow]
  · rw [if_neg hlow]
    show (if (0x00 : UInt8) &&& 0x80 ≠ 0 then _ else _) = _
    rw [if_neg (by decide)]
    show (parseBlockList n rest).map
      (fun r => (((UInt8.ofNat b).toNat + (UInt8.ofNat (b / 2 ^ 8)).toNat * 2 ^ 8) :: r.1, r.2)) = _
    have hnum : (UInt8.ofNat b).toNat + (UInt8.ofNat (b / 2 ^ 8)).toNat * 2 ^ 8 = b := by
      simp only [UInt8.toNat_ofNat']
      omega
    rw [hnum]

/-- The list is read back, in either format. -/
theorem parseBlockList_blockList (n : Nat) : ∀ (first : Nat) (rest : Bytes), first + n ≤ 65536 →
    parseBlockList n (blockList first n ++ rest) = some (List.range' first n, rest) := by
  induction n with
  | zero => exact fun _ _ _ => rfl
  | succ n ih =>
    intro first rest h
    have hrest := ih (first + 1) rest (by omega)
    unfold blockList at hrest ⊢
    rw [List.range'_succ, List.flatMap_cons, List.append_assoc, parseBlockList_entry (by omega), hrest]
    rfl

/-! ## Commands -/

/-- A command as it goes to the tag. -/
def cmdFrame (idm : Bytes) (opcode : UInt8) (service : Nat) (list : Bytes) (numBlocks : Nat) (data : Bytes) : Bytes :=
  let msg := opcode :: idm ++ [1] ++ le16 service ++ [UInt8.ofNat numBlocks] ++ list ++ data
  UInt8.ofNat (msg.length + 1) :: msg

theorem length_cmdFrame {idm list data : Bytes} {opcode : UInt8} {service numBlocks : Nat} (hidm : idm.length = 8) :
    (cmdFrame idm opcode service list numBlocks data).length = 14 + list.length + data.length := by
  unfold cmdFrame le16
  simp only [List.length_cons, List.length_append, List.length_nil, hidm]
  omega

theorem exists_idm {idm : Bytes} (h : idm.length = 8) :
    ∃ a b c d e f g k, idm = [a, b, c, d, e, f, g, k] := by
  match idm, h with
  | [a, b, c, d, e, f, g, k], _ => exact ⟨a, b, c, d, e, f, g, k, rfl⟩

theorem parseFrame_cmd {idm list data : Bytes} {opcode : UInt8} {service numBlocks : Nat} {blocks : List Nat}
    (hidm : idm.length = 8) (hservice : service < 65536) (hnum : numBlocks < 256)
    (hlen : 14 + list.length + data.length < 256)
    (hlist : parseBlockList numBlocks (list ++ data) = some (blocks, data)) :
    parseFrame (cmdFrame idm opcode service list numBlocks data) = some ⟨opcode, idm, service, blocks, data⟩ := by
  have hlength := @length_cmdFrame idm list data opcode service numBlocks hidm
  obtain ⟨a, b, c, d, e, f, g, k, rfl⟩ := exists_idm hidm
  have hframe : cmdFrame [a, b, c, d, e, f, g, k] opcode service list numBlocks data =
      UInt8.ofNat (14 + list.length + data.length) :: opcode :: a :: b :: c :: d :: e :: f :: g :: k :: 1 ::
        UInt8.ofNat service :: UInt8.ofNat (service / 2 ^ 8) :: UInt8.ofNat numBlocks :: (list ++ data) := by
    unfold cmdFrame le16
    simp only [List.cons_append, List.nil_append, List.length_cons, List.length_append]
    congr 2
    omega
  rw [hframe] at hlength ⊢
  unfold parseFrame
  rw [if_pos]
  · show (parseBlockList (UInt8.ofNat numBlocks).toNat (list ++ data)).map _ = _
    rw [UInt8.toNat_ofNat_of_lt' hnum, hlist]
    have hs : (UInt8.ofNat service).toNat + (UInt8.ofNat (service / 2 ^ 8)).toNat * 2 ^ 8 = service := by
      simp only [UInt8.toNat_ofNat']
      omega
    show some (TagCmd.mk opcode _ ((UInt8.ofNat service).toNat + (UInt8.ofNat (service / 2 ^ 8)).toNat * 2 ^ 8) _ _) = _
    rw [hs]
    rfl
  · refine ⟨?_, ?_, rfl⟩
    · rw [hlength]
      show _ = (UInt8.ofNat (14 + list.length + data.length)).toNat
      rw [UInt8.toNat_ofNat_of_lt' hlen]
    · rw [hlength]
      omega

/-- The commands of the reader are such frames. -/
theorem sendCmd_frame (cb cb' : Cb) (cmd : Cmd) (opcode : UInt8) (service numBlocks : Nat) (list data : Bytes) :
    sendCmd cb' cmd (cmdHead cb opcode service numBlocks ++ list ++ data) =
      ({ cb' with curCmd := cmd, rwState := .commandPending },
        [.frame (cmdFrame cb.peerNdefNfcid2 opcode service list numBlocks data)]) := rfl

theorem sendCmd_frame_nil (cb cb' : Cb) (cmd : Cmd) (opcode : UInt8) (service numBlocks : Nat) (list : Bytes) :
    sendCmd cb' cmd (cmdHead cb opcode service numBlocks ++ list) =
      ({ cb' with curCmd := cmd, rwState := .commandPending },
        [.frame (cmdFrame cb.peerNdefNfcid2 opcode service list numBlocks [])]) := by
  rw [← sendCmd_frame, List.append_nil]

/-! ## The tag -/

section Exec
variable {t : Tag} {idm list data : Bytes} {service numBlocks : Nat} {blocks : List Nat}

theorem exec_update (hidm : t.idm.length = 8) (hnum : numBlocks < 256)
    (hlen : 14 + list.length + data.length < 256)
    (hlist : parseBlockList numBlocks (list ++ data) = some (blocks, data))
    (hacc : t.accepts t.attr.nbw blocks) (hdata : data.length = blocks.length * 16) :
    t.exec (cmdFrame t.idm opcUpdateCmd ndefScRw list numBlocks data) =
      ({ t with blocks := writeBlocks t.blocks blocks data }, some (rspFrame (opcUpdateRsp :: t.idm ++ [0, 0]))) := by
  unfold Tag.exec
  rw [parseFrame_cmd hidm (by decide) hnum hlen hlist]
  dsimp only
  rw [if_neg (not_not.mpr rfl), if_neg (by decide), if_pos rfl, if_pos ⟨hacc, rfl, hdata⟩]

theorem exec_check (hidm : t.idm.length = 8) (hnum : numBlocks < 256) (hlen : 14 + list.length < 256)
    (hservice : service = ndefScRo ∨ service = ndefScRw)
    (hlist : parseBlockList numBlocks (list ++ []) = some (blocks, [])) (hacc : t.accepts t.attr.nbr blocks) :
    t.exec (cmdFrame t.idm opcCheckCmd service list numBlocks []) =
      (t, some (rspFrame (opcCheckRsp :: t.idm ++ [0, 0, UInt8.ofNat blocks.length] ++ blocks.flatMap t.blocks))) := by
  have hlt : service < 65536 := by rcases hservice with rfl | rfl <;> decide
  unfold Tag.exec
  rw [parseFrame_cmd hidm hlt hnum (by simpa using hlen) hlist]
  dsimp only
  rw [if_neg (not_not.mpr rfl), if_pos rfl, if_pos ⟨hacc, hservice⟩]

end Exec

/-- The blocks after an UPDATE of consecutive blocks. -/
theorem writeBlocks_range (n : Nat) : ∀ (blocks : Nat → Bytes) (first : Nat) (data : Bytes) (k : Nat),
    writeBlocks blocks (List.range' first n) data k =
      if first ≤ k ∧ k < first + n then slice data (16 * (k - first)) 16 else blocks k := by
  induction n with
  | zero =>
    intro blocks first data k
    rw [if_neg (by omega)]
    rfl
  | succ n ih =>
    intro blocks first data k
    rw [List.range'_succ, writeBlocks, ih]
    by_cases hk : first ≤ k ∧ k < first + (n + 1)
    · rw [if_pos hk]
      by_cases hfirst : k = first
      · subst hfirst
        rw [if_neg (by omega), Function.update_self, Nat.sub_self]
        rfl
      · rw [if_pos (by omega)]
        unfold slice
        rw [List.drop_drop]
        congr 2
        omega
    · rw [if_neg hk, if_neg (by omega), Function.update_of_ne (by omega)]

/-! ## Responses -/

def handleRsp (cb : Cb) (rsp : Bytes) : Cb × List Out :=
  match cb.curCmd with
  | .detectNdef => handleNdefDetectRsp cb rsp
  | .checkNdef => handleCheckNdefRsp cb rsp
  | .updateNdef => handleUpdateNdefRsp cb rsp

theorem dataCback_rsp {cb : Cb} {rsp : Bytes} (hpending : cb.rwState = .commandPending) (hmin : 11 ≤ rsp.length)
    (hmax : rsp.length + 1 < 256) : dataCback cb (rspFrame rsp) = handleRsp cb (rsp ++ [0]) := by
  have hlen : (rspFrame rsp).length = rsp.length + 2 := by
    unfold rspFrame
    simp
  have hsod : ((rspFrame rsp).getD 0 0).toNat = rsp.length + 1 := UInt8.toNat_ofNat_of_lt' hmax
  have hstatus : (rspFrame rsp).getD (rsp.length + 1) 0 = 0 := by
    unfold rspFrame
    simp
  have hwhole : ¬ ((rspFrame rsp).length < ((rspFrame rsp).getD 0 0).toNat ∨
      (rspFrame rsp).getD ((rspFrame rsp).getD 0 0).toNat 0 ≠ 0) := by
    rw [hsod, hstatus, hlen]
    rintro (h | h)
    · omega
    · exact h rfl
  unfold dataCback
  rw [if_neg (not_not.mpr hpending), if_neg (by omega), if_neg hwhole]
  rfl

theorem rspIdm_cons {idm rest : Bytes} (opcode : UInt8) (h : idm.length = 8) : rspIdm (opcode :: idm ++ rest) = idm := by
  obtain ⟨a, b, c, d, e, f, g, k, rfl⟩ := exists_idm h
  rfl

theorem rspStatus1_cons {idm rest : Bytes} (opcode x : UInt8) (h : idm.length = 8) :
    rspStatus1 (opcode :: idm ++ (x :: rest)) = x := by
  obtain ⟨a, b, c, d, e, f, g, k, rfl⟩ := exists_idm h
  rfl

theorem rspNumBlocks_cons {idm rest : Bytes} (opcode x y z : UInt8) (h : idm.length = 8) :
    rspNumBlocks (opcode :: idm ++ (x :: y :: z :: rest)) = z.toNat := by
  obtain ⟨a, b, c, d, e, f, g, k, rfl⟩ := exists_idm h
  rfl

theorem drop_rsp {idm rest : Bytes} (opcode x y z : UInt8) (h : idm.length = 8) :
    (opcode :: idm ++ (x :: y :: z :: rest)).drop rspOffsetCheckData = rest := by
  obtain ⟨a, b, c, d, e, f, g, k, rfl⟩ := exists_idm h
  rfl

/-! ## Attributes -/

/-- Attributes that fit into block 0. -/
structure Detect.Fits (a : Detect) : Prop where
  nbr : a.nbr < 256
  nbw : a.nbw < 256
  nmaxb : a.nmaxb < 65536

theorem three_bytes {n : Nat} (h : n < 16777216) : n / 256 % 256 * 256 + n % 256 + n / 65536 % 256 * 65536 = n := by
  omega

theorem parseAttr_attrInfo {a : Detect} (h : a.Fits) (writef : UInt8) {ln : Nat} (hln : ln < 2 ^ 24) :
    parseAttr (attrInfo a writef ln) =
      ⟨.ok, ndefVersion, a.nbr, a.nbw, a.nmaxb, writef, a.rwflag, ln⟩ := by
  have hnbr : (UInt8.ofNat a.nbr).toNat = a.nbr := UInt8.toNat_ofNat_of_lt' h.nbr
  have hnbw : (UInt8.ofNat a.nbw).toNat = a.nbw := UInt8.toNat_ofNat_of_lt' h.nbw
  have hnmaxb : (UInt8.ofNat (a.nmaxb / 2 ^ 8)).toNat * 2 ^ 8 + (UInt8.ofNat a.nmaxb).toNat = a.nmaxb := by
    have := h.nmaxb
    simp only [UInt8.toNat_ofNat']
    omega
  have hlen : (UInt8.ofNat (ln / 2 ^ 8)).toNat * 2 ^ 8 + (UInt8.ofNat ln).toNat +
      (UInt8.ofNat (ln / 2 ^ 16)).toNat * 2 ^ 16 = ln := by
    simp only [UInt8.toNat_ofNat']
    exact three_bytes hln
  show Detect.mk .ok ndefVersion (UInt8.ofNat a.nbr).toNat (UInt8.ofNat a.nbw).toNat
    ((UInt8.ofNat (a.nmaxb / 2 ^ 8)).toNat * 2 ^ 8 + (UInt8.ofNat a.nmaxb).toNat) writef a.rwflag
    ((UInt8.ofNat (ln / 2 ^ 8)).toNat * 2 ^ 8 + (UInt8.ofNat ln).toNat +
      (UInt8.ofNat (ln / 2 ^ 16)).toNat * 2 ^ 16) = _
  rw [hnbr, hnbw, hnmaxb, hlen]

theorem checksum_attrInfo (a : Detect) (writef : UInt8) (ln : Nat) (rest : Bytes) :
    checksum (attrInfo a writef ln ++ rest) = be16At (attrInfo a writef ln ++ rest) 14 := by
  have hlt : checksum (attrInfo a writef ln) < 65536 := Nat.mod_lt _ (by decide)
  have hbytes : (UInt8.ofNat (checksum (attrInfo a writef ln) / 2 ^ 8)).toNat * 2 ^ 8 +
      (UInt8.ofNat (checksum (attrInfo a writef ln))).toNat = checksum (attrInfo a writef ln) := by
    simp only [UInt8.toNat_ofNat']
    omega
  exact hbytes.symm

/-- Attributes that the reader has written are accepted if those it has read were. -/
theorem detectAttr_attrInfo {a : Detect} (h : a.Fits) (hnbr : a.nbr ≤ numBlocksCheckMax)
    (hnbw : a.nbw ≤ numBlocksUpdateMax) (old : Detect) (writef : UInt8) {ln : Nat} (hln : ln < 2 ^ 24) (rest : Bytes) :
    detectAttr old (attrInfo a writef ln ++ rest) =
      (⟨.ok, ndefVersion, a.nbr, a.nbw, a.nmaxb, writef, a.rwflag, ln⟩, .ndefDetect .ok ln (a.nmaxb * 16)) := by
  have hparse : parseAttr (attrInfo a writef ln ++ rest) = parseAttr (attrInfo a writef ln) := rfl
  have hversion : (attrInfo a writef ln ++ rest).getD 0 0 = ndefVersion := rfl
  unfold detectAttr
  rw [if_neg (not_not.mpr (checksum_attrInfo a writef ln rest)), hversion, if_neg (by decide), hparse,
    parseAttr_attrInfo h writef hln]
  dsimp only
  rw [if_neg (by omega)]

/-! ## The blocks of a message -/

/-- The block of the message with the number `i + 1`. -/
def msgBlock (msg : Bytes) (i : Nat) : Bytes :=
  slice msg (16 * i) 16 ++ List.replicate (16 - (slice msg (16 * i) 16).length) 0

theorem length_slice_min (msg : Bytes) (p n : Nat) : (slice msg p n).length = min n (msg.length - p) := by
  unfold slice
  rw [List.length_take, List.length_drop]

theorem length_msgBlock (msg : Bytes) (i : Nat) : (msgBlock msg i).length = 16 := by
  unfold msgBlock
  rw [List.length_append, List.length_replicate, length_slice_min]
  omega

theorem length_flatMap_whole {f : Nat → Bytes} (hf : ∀ k, (f k).length = 16) (n : Nat) : ∀ i,
    ((List.range' i n).flatMap f).length = 16 * n := by
  induction n with
  | zero => exact fun _ => rfl
  | succ n ih =>
    intro i
    rw [List.range'_succ, List.flatMap_cons, List.length_append, hf, ih]
    omega

theorem length_flatMap_msgBlock (msg : Bytes) (n : Nat) (i : Nat) :
    ((List.range' i n).flatMap (msgBlock msg)).length = 16 * n := length_flatMap_whole (length_msgBlock msg) n i

theorem flatMap_msgBlock (msg : Bytes) (n : Nat) : ∀ i, (List.range' i n).flatMap (msgBlock msg) =
    slice msg (16 * i) (16 * n) ++ List.replicate (16 * n - (slice msg (16 * i) (16 * n)).length) 0 := by
  induction n with
  | zero =>
    intro i
    simp
  | succ n ih =>
    intro i
    rw [List.range'_succ, List.flatMap_cons, ih]
    have hsplit : slice msg (16 * i) (16 * (n + 1)) = slice msg (16 * i) 16 ++ slice msg (16 * (i + 1)) (16 * n) := by
      rw [show 16 * (n + 1) = 16 + 16 * n by omega, slice_split, show 16 * i + 16 = 16 * (i + 1) by omega]
    rw [hsplit, List.length_append]
    unfold msgBlock
    by_cases hfull : 16 * (i + 1) ≤ msg.length
    · have hlen : (slice msg (16 * i) 16).length = 16 := by
        rw [length_slice_min]
        omega
      rw [hlen, Nat.sub_self, List.replicate_zero, List.append_nil, List.append_assoc]
      congr 3
      omega
    · have hnil : slice msg (16 * (i + 1)) (16 * n) = [] := by
        apply List.eq_nil_of_length_eq_zero
        rw [length_slice_min]
        omega
      rw [hnil, List.nil_append, List.append_nil, List.append_assoc, List.replicate_append_replicate]
      have hle := length_slice_min msg (16 * i) 16
      congr 2
      simp only [List.length_nil]
      omega

/-- A block that is one of many. -/
theorem slice_flatMap_whole {f : Nat → Bytes} (hf : ∀ k, (f k).length = 16) {i n j : Nat} (hj : j < n) :
    slice ((List.range' i n).flatMap f) (16 * j) 16 = f (i + j) := by
  have hsplit : List.range' i n = List.range' i j ++ ((i + j) :: List.range' (i + j + 1) (n - j - 1)) := by
    rw [← List.range'_succ, List.range'_append_1]
    congr 1
    omega
  rw [hsplit, List.flatMap_append, List.flatMap_cons, ← List.append_assoc, slice_append]
  · rw [length_flatMap_whole hf]
  · rw [hf]

theorem slice_flatMap_msgBlock (msg : Bytes) {i n j : Nat} (hj : j < n) :
    slice ((List.range' i n).flatMap (msgBlock msg)) (16 * j) 16 = msgBlock msg (i + j) :=
  slice_flatMap_whole (length_msgBlock msg) hj

end NfcStack.Rw.T3t
