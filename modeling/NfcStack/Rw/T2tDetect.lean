import NfcStack.Rw.T2t

/- Detection of the NDEF message of a Type 2 tag (`RW_T2tDetectNDef`). The header is read,
   then the data area, sixteen bytes at a time: a state machine goes over the bytes that are
   not lock or reserved bytes and takes down the lock and memory control TLVs in front of the
   NDEF TLV.

   What is proved:
     1. `searching_detectLoop`: where the length field is found, the byte is free under the
        layout that has been collected.
     2. `located_of_detected`: what the control block knows of the tag after a detection. -/
namespace NfcStack.Rw

/-! ## One byte -/

inductive Search where
  | go
  | failed
  | found
  deriving DecidableEq, Repr

def detectTlv (cb : T2tCb) (data : ByteFn) (offset : Nat) : T2tCb × Search :=
  let cb := { cb with foundTlv := data offset }
  if data offset = tagNullTlv then (cb, .go)
  else if data offset = tagNdefTlv then
    let index := (offset + 1) % t2tBlockSize
    ({ cb with
      ndefFirstBlock := fun i => if i < index then data (offset + 1 - index + i) else cb.ndefFirstBlock i
      substate := .waitFindLenFieldLen }, .go)
  else if data offset = tagLockCtrlTlv ∨ data offset = tagMemCtrlTlv then
    ({ cb with substate := .waitReadTlvLen0 }, .go)
  else if data offset = tagProprietaryTlv then ({ cb with substate := .waitFindLenFieldLen }, .go)
  else (cb, .failed)

/-- `RW_T2T_SUBSTATE_WAIT_FIND_LEN_FIELD_LEN`, for an NDEF or a proprietary TLV. -/
def findLenFieldLen (cb : T2tCb) (data : ByteFn) (offset : Nat) : T2tCb × Search :=
  if cb.foundTlv = tagNdefTlv then
    let cb := { cb with ndefHeaderOffset := offset + cb.workOffset }
    if data offset = t2tLongNdefLenFieldByte0 then ({ cb with substate := .waitReadTlvLen0 }, .go)
    else
      ({ cb with
        ndefMsgLen := (data offset).toNat
        bytesCount := (data offset).toNat
        substate := .waitReadTlvValue }, .go)
  else if data offset = t2tLongNdefLenFieldByte0 then ({ cb with substate := .waitReadTlvLen0 }, .go)
  else ({ cb with bytesCount := (data offset).toNat, substate := .waitReadTlvValue }, .go)

def readTlvLen0 (cb : T2tCb) (data : ByteFn) (offset : Nat) : T2tCb × Search :=
  if cb.foundTlv = tagLockCtrlTlv ∨ cb.foundTlv = tagMemCtrlTlv then
    if (data offset).toNat = tagDefaultTlvLen then
      ({ cb with substate := .waitReadTlvValue, bytesCount := tagDefaultTlvLen }, .go)
    else (cb, .failed)
  else ({ cb with bytesCount := (data offset).toNat, substate := .waitReadTlvLen1 }, .go)

def readTlvLen1 (cb : T2tCb) (data : ByteFn) (offset : Nat) : T2tCb × Search :=
  let count := (cb.bytesCount * 2 ^ 8 + (data offset).toNat) % 2 ^ 16
  ({ cb with
    bytesCount := count
    ndefMsgLen := if cb.foundTlv = tagNdefTlv then count else cb.ndefMsgLen
    substate := .waitReadTlvValue }, .go)

/-- The address that the position byte and the page size of a control TLV give. -/
def tlvAddress (v : ByteFn) : Nat :=
  (((v 0).toNat / 16 * 2 ^ ((v 2).toNat % 16)) % 2 ^ 16 + (v 0).toNat % 16) % 2 ^ 16

def addLockTlv (cb : T2tCb) (v : ByteFn) : T2tCb :=
  let bits := if (v 1).toNat = 0 then rwT2tMaxLockBytes * tagBitsPerByte else (v 1).toNat
  let count := min (bits / tagBitsPerByte + if bits % tagBitsPerByte ≠ 0 then 1 else 0) rwT2tMaxLockBytes
  { cb with
    lockBytes := cb.lockBytes ++ (List.range count).map fun i => ⟨cb.lockTlvs.length, i⟩
    lockTlvs := cb.lockTlvs ++ [⟨tlvAddress v, bits, 2 ^ ((v 2).toNat / 16)⟩]
    substate := .waitTlvDetect }

/-- The reserved bytes that a memory control TLV adds. -/
def addMemTlv (cb : T2tCb) (v : ByteFn) : T2tCb :=
  let count := if (v 1).toNat = 0 then rwT2tMaxLockBytes * tagBitsPerByte else (v 1).toNat
  { cb with
    memTlvs := cb.memTlvs ++ [⟨tlvAddress v, count⟩]
    substate := .waitTlvDetect }

/-- The bytes of the value of a control TLV, with the one that has been read. -/
def T2tCb.collect (cb : T2tCb) (b : UInt8) : T2tCb :=
  { cb with tlvValue := Function.update cb.tlvValue (2 - cb.bytesCount) b }

def readTlvValue (cb : T2tCb) (data : ByteFn) (offset : Nat) : T2tCb × Search :=
  if cb.foundTlv = tagNdefTlv then
    ({ cb with
      ndefMsgOffset := if cb.bytesCount = cb.ndefMsgLen then offset + cb.workOffset else cb.ndefMsgOffset
      bytesCount := cb.bytesCount - 1
      ndefDetected := true }, .found)
  else if cb.bytesCount = 0 then (cb, .failed)
  else
    let cb := { cb with bytesCount := cb.bytesCount - 1 }
    if cb.foundTlv = tagLockCtrlTlv then
      if cb.lockBytes ≠ [] then (cb, .failed)
      else
        let cb := cb.collect (data offset)
        (if cb.bytesCount = 0 then addLockTlv cb cb.tlvValue else cb, .go)
    else if cb.foundTlv = tagMemCtrlTlv then
      let cb := cb.collect (data offset)
      if cb.bytesCount ≠ 0 then (cb, .go)
      else if cb.memTlvs.length ≥ rwT2tMaxMemTlvs then (cb, .failed)
      else (addMemTlv cb cb.tlvValue, .go)
    else (if cb.bytesCount = 0 then { cb with substate := .waitTlvDetect } else cb, .go)

def detectByte (cb : T2tCb) (data : ByteFn) (offset : Nat) : T2tCb × Search :=
  match cb.substate with
  | .waitTlvDetect => detectTlv cb data offset
  | .waitFindLenFieldLen => findLenFieldLen cb data offset
  | .waitReadTlvLen0 => readTlvLen0 cb data offset
  | .waitReadTlvLen1 => readTlvLen1 cb data offset
  | .waitReadTlvValue => readTlvValue cb data offset
  | _ => (cb, .failed)

/-! ## One response -/

/-- The bytes of a response from `offset` on, of which there are `n`: lock and reserved bytes are
skipped. -/
def detectLoop (data : ByteFn) : Nat → T2tCb → Nat → T2tCb × Search
  | 0, cb, _ => (cb, .go)
  | n + 1, cb, offset =>
    if cb.isLockResByte (cb.workOffset + offset) then detectLoop data n cb (offset + 1)
    else
      match detectByte cb data offset with
      | (cb, .go) => detectLoop data n cb (offset + 1)
      | r => r

/-- `default_lock_blpb` of `t2t_tag_init_data`, by the manufacturer. -/
def defaultLockBlpb (manufacturerId : UInt8) : Nat := if isOtp manufacturerId then 4 else t2tDefaultLockBlpb

/-- The number of dynamic lock bits of a tag without a lock control TLV. -/
def numDynamicLockBits (cb : T2tCb) : Nat :=
  let area := (cb.tagHdr t2tCc2TmsByte).toNat * t2tTmsTagFactor - (t2tStaticSize - t2tHeaderSize)
  (area / defaultLockBlpb (cb.tagHdr 0) % 2 ^ 8 + if area % 8 = 0 then 0 else 1) % 2 ^ 8

/-- The number of lock bytes for that many bits. -/
def numDynamicLockBytes (bits : Nat) : Nat :=
  min (bits / 8 + if bits % 8 = 0 then 0 else 1) rwT2tMaxLockBytes

def extractDefaultLocksInfo (cb : T2tCb) : T2tCb :=
  if cb.lockTlvs = [] ∧ cb.tagHdr t2tCc2TmsByte > t2tCc2TmsStatic then
    { cb with
      lockTlvs := [⟨cb.dataEnd, numDynamicLockBits cb, defaultLockBlpb (cb.tagHdr 0)⟩]
      lockBytes := (List.range (numDynamicLockBytes (numDynamicLockBits cb))).map fun i => ⟨0, i⟩ }
  else cb

def ndefMaxSize (cb : T2tCb) : Nat :=
  if cb.dataEnd ≤ t2tStaticSize ∨ cb.tagHdr t2tCc0NmnByte ≠ t2tCc0Nmn ∧ cb.tagHdr t2tCc0NmnByte ≠ 0 then
    t2tStaticSize - t2tHeaderSize - 1 - t2tShortNdefLenFieldLen
  else
    let free := ((List.range' cb.ndefMsgOffset (cb.dataEnd - cb.ndefMsgOffset)).filter
      fun offset => !cb.isLockResByte offset).length
    if free ≥ 0xFF ∧ cb.ndefMsgOffset - cb.ndefHeaderOffset = t2tShortNdefLenFieldLen then
      free - (t2tLongNdefLenFieldLen - t2tShortNdefLenFieldLen)
    else free

def ntfTlvDetectComplete (cb : T2tCb) (ok : Bool) : T2tCb × Reply :=
  ({ cb with
    maxNdefMsgLen := if cb.tagHdr t2tCc3RwaByte = t2tCc3RwaRw then ndefMaxSize cb else cb.maxNdefMsgLen },
    .done ok)

/-- `rw_t2t_handle_tlv_detect_rsp`, behind its loop. -/
def handleSearched (cb : T2tCb) : Search → T2tCb × Reply
  | .go =>
    if cb.workOffset ≥ cb.dataEnd then ntfTlvDetectComplete (extractDefaultLocksInfo cb) false
    else sendRead cb (cb.workOffset / t2tBlockSize)
  | .failed => ntfTlvDetectComplete (extractDefaultLocksInfo cb) false
  | .found => ntfTlvDetectComplete (extractDefaultLocksInfo cb) true

/-- The first response of the data area is kept. -/
def keepTagData (cb : T2tCb) (data : ByteFn) : T2tCb :=
  if cb.workOffset = 0 then
    { cb with workOffset := t2tFirstDataBlock * t2tBlockSize, bReadData := true, tagData := data }
  else cb

def handleTlvDetectRsp (cb : T2tCb) (data : ByteFn) : T2tCb × Reply :=
  let (cb, search) := detectLoop data t2tReadDataLen (keepTagData cb data) 0
  handleSearched { cb with workOffset := cb.workOffset + t2tReadDataLen } search

def handleCcReadRsp (cb : T2tCb) : T2tCb × Reply :=
  let rwa := cb.tagHdr t2tCc3RwaByte
  let vno := cb.tagHdr t2tCc1VnoByte
  if rwa ≠ t2tCc3RwaRw ∧ rwa ≠ t2tCc3RwaRo ∨
      vno ≠ t2tCc1LegacyVno ∧ vno ≠ t2tCc1Vno ∧ vno ≠ t2tCc1NewVno then
    ntfTlvDetectComplete cb false
  else sendRead { cb with substate := .waitTlvDetect } t2tFirstDataBlock

/-- `rw_t2t_handle_rsp`, while the NDEF TLV is searched for. -/
def handleDetectRsp (cb : T2tCb) (data : ByteFn) : T2tCb × Reply :=
  if cb.substate = .waitReadCc then
    let cb := { cb with bReadHdr := true, tagHdr := data }
    if cb.tagHdr t2tCc0NmnByte = t2tCc0Nmn then handleCcReadRsp cb else ntfTlvDetectComplete cb false
  else handleTlvDetectRsp cb data

/-- `RW_T2tDetectNDef`, for a tag that is idle: none if it is refused. -/
def t2tDetectNDef (cb : T2tCb) : Option (T2tCb × Reply) :=
  if cb.bReadHdr ∧ cb.tagHdr t2tCc0NmnByte ≠ t2tCc0Nmn then none
  else
    let cb := { cb with
      workOffset := 0
      ndefMsgOffset := 0
      lockBytes := []
      lockTlvs := []
      memTlvs := []
      ndefMsgLen := 0
      ndefDetected := false }
    if cb.bReadHdr then some (sendRead { cb with substate := .waitTlvDetect } t2tFirstDataBlock)
    else some (sendRead { cb with substate := .waitReadCc } 0)

/-- A detection that starts with `cb₀` ends well with `cb`. -/
def Detected (cb₀ : T2tCb) (mem : ByteFn) (cb : T2tCb) : Prop :=
  ∃ u reply n, t2tDetectNDef cb₀ = some (u, reply) ∧
    TagSys.after handleDetectRsp n ⟨u, mem, reply⟩ = ⟨cb, mem, .done true⟩

/-! ## What a detection finds -/

def T2tCb.Behind (cb : T2tCb) : Prop :=
  cb.foundTlv = tagNdefTlv ∧
    (cb.substate = .waitReadTlvLen0 ∨ cb.substate = .waitReadTlvLen1 ∨ cb.substate = .waitReadTlvValue)

/-- While the data area is searched. The layout does not change any more once the length field has
begun, so that the byte it begins at stays free. -/
structure Searching (mem : ByteFn) (cb : T2tCb) : Prop where
  hdr : ∀ i < 16, cb.tagHdr i = mem i
  data : ∀ i < 16, cb.tagData i = mem (16 + i)
  work : 16 ≤ cb.workOffset
  sub : cb.substate ≠ .waitReadCc
  free : cb.Behind → 16 ≤ cb.ndefHeaderOffset ∧ cb.isLockResByte cb.ndefHeaderOffset = false

section Search
variable {mem data : ByteFn} {cb u : T2tCb} {offset : Nat}

theorem Searching.before (h : Searching mem cb) (hhdr : u.tagHdr = cb.tagHdr) (hdata : u.tagData = cb.tagData)
    (hwork : u.workOffset = cb.workOffset) (hsub : u.substate ≠ .waitReadCc) (hnot : ¬ u.Behind) :
    Searching mem u := by
  constructor
  · rw [hhdr]
    exact h.hdr
  · rw [hdata]
    exact h.data
  · rw [hwork]
    exact h.work
  · exact hsub
  · exact fun hb => absurd hb hnot

theorem searching_detectTlv (h : Searching mem cb) (hsub : cb.substate = .waitTlvDetect) :
    Searching mem (detectTlv cb data offset).1 ∧ (detectTlv cb data offset).2 ≠ .found := by
  have hstay : ¬ ({ cb with foundTlv := data offset } : T2tCb).Behind := by
    intro hb
    obtain ⟨-, hb⟩ := hb
    dsimp only at hb
    rw [hsub] at hb
    simp at hb
  unfold detectTlv
  dsimp only
  split
  · exact ⟨h.before rfl rfl rfl h.sub hstay, nofun⟩
  · split
    · refine ⟨h.before rfl rfl rfl nofun ?_, nofun⟩
      intro hb
      simpa using hb.2
    · rename_i hndef
      split
      · refine ⟨h.before rfl rfl rfl nofun ?_, nofun⟩
        intro hb
        exact hndef hb.1
      · split
        · refine ⟨h.before rfl rfl rfl nofun ?_, nofun⟩
          intro hb
          exact hndef hb.1
        · exact ⟨h.before rfl rfl rfl h.sub hstay, nofun⟩

theorem searching_findLenFieldLen (h : Searching mem cb)
    (hfree : cb.isLockResByte (cb.workOffset + offset) = false) :
    Searching mem (findLenFieldLen cb data offset).1 ∧ (findLenFieldLen cb data offset).2 ≠ .found := by
  have hwork := h.work
  have hheader : 16 ≤ offset + cb.workOffset ∧ cb.isLockResByte (offset + cb.workOffset) = false := by
    rw [Nat.add_comm offset]
    exact ⟨by omega, hfree⟩
  unfold findLenFieldLen
  split
  · dsimp only
    split
    · exact ⟨⟨h.hdr, h.data, h.work, nofun, fun _ => hheader⟩, nofun⟩
    · exact ⟨⟨h.hdr, h.data, h.work, nofun, fun _ => hheader⟩, nofun⟩
  · rename_i hndef
    split
    · exact ⟨h.before rfl rfl rfl nofun fun hb => hndef hb.1, nofun⟩
    · exact ⟨h.before rfl rfl rfl nofun fun hb => hndef hb.1, nofun⟩

theorem searching_readTlvLen0 (h : Searching mem cb) (hsub : cb.substate = .waitReadTlvLen0) :
    Searching mem (readTlvLen0 cb data offset).1 ∧ (readTlvLen0 cb data offset).2 ≠ .found := by
  unfold readTlvLen0
  split
  · rename_i hctrl
    have hndef : cb.foundTlv ≠ tagNdefTlv := by
      intro heq
      rw [heq] at hctrl
      revert hctrl
      decide
    split
    · exact ⟨h.before rfl rfl rfl nofun fun hb => hndef hb.1, nofun⟩
    · exact ⟨h, nofun⟩
  · refine ⟨⟨h.hdr, h.data, h.work, nofun, fun hb => ?_⟩, nofun⟩
    exact h.free ⟨hb.1, .inl hsub⟩

theorem searching_readTlvLen1 (h : Searching mem cb) (hsub : cb.substate = .waitReadTlvLen1) :
    Searching mem (readTlvLen1 cb data offset).1 ∧ (readTlvLen1 cb data offset).2 ≠ .found := by
  refine ⟨⟨h.hdr, h.data, h.work, nofun, fun hb => ?_⟩, nofun⟩
  exact h.free ⟨hb.1, .inr (.inl hsub)⟩

theorem searching_readTlvValue (h : Searching mem cb) (hsub : cb.substate = .waitReadTlvValue) :
    Searching mem (readTlvValue cb data offset).1 ∧
      ((readTlvValue cb data offset).2 = .found → (readTlvValue cb data offset).1.Behind) := by
  unfold readTlvValue
  split
  · rename_i hndef
    refine ⟨⟨h.hdr, h.data, h.work, h.sub, fun _ => ?_⟩, fun _ => ⟨hndef, .inr (.inr hsub)⟩⟩
    exact h.free ⟨hndef, .inr (.inr hsub)⟩
  · rename_i hndef
    split
    · exact ⟨h, nofun⟩
    · dsimp only
      split
      · split
        · exact ⟨h.before rfl rfl rfl h.sub fun hb => hndef hb.1, nofun⟩
        · split
          · exact ⟨h.before rfl rfl rfl nofun fun hb => hndef hb.1, nofun⟩
          · exact ⟨h.before rfl rfl rfl h.sub fun hb => hndef hb.1, nofun⟩
      · split
        · split
          · exact ⟨h.before rfl rfl rfl h.sub fun hb => hndef hb.1, nofun⟩
          · split
            · exact ⟨h.before rfl rfl rfl h.sub fun hb => hndef hb.1, nofun⟩
            · exact ⟨h.before rfl rfl rfl nofun fun hb => hndef hb.1, nofun⟩
        · split
          · exact ⟨h.before rfl rfl rfl nofun fun hb => hndef hb.1, nofun⟩
          · exact ⟨h.before rfl rfl rfl h.sub fun hb => hndef hb.1, nofun⟩

theorem searching_detectByte (h : Searching mem cb) (hfree : cb.isLockResByte (cb.workOffset + offset) = false) :
    Searching mem (detectByte cb data offset).1 ∧
      ((detectByte cb data offset).2 = .found → (detectByte cb data offset).1.Behind) := by
  unfold detectByte
  split
  · rename_i hsub
    obtain ⟨hs, hnot⟩ := @searching_detectTlv mem data cb offset h hsub
    exact ⟨hs, fun hfound => absurd hfound hnot⟩
  · obtain ⟨hs, hnot⟩ := @searching_findLenFieldLen mem data cb offset h hfree
    exact ⟨hs, fun hfound => absurd hfound hnot⟩
  · rename_i hsub
    obtain ⟨hs, hnot⟩ := @searching_readTlvLen0 mem data cb offset h hsub
    exact ⟨hs, fun hfound => absurd hfound hnot⟩
  · rename_i hsub
    obtain ⟨hs, hnot⟩ := @searching_readTlvLen1 mem data cb offset h hsub
    exact ⟨hs, fun hfound => absurd hfound hnot⟩
  · rename_i hsub
    exact searching_readTlvValue h hsub
  · exact ⟨h, nofun⟩

theorem searching_detectLoop (n : Nat) : ∀ {cb : T2tCb} {offset : Nat}, Searching mem cb →
    Searching mem (detectLoop data n cb offset).1 ∧
      ((detectLoop data n cb offset).2 = .found → (detectLoop data n cb offset).1.Behind) := by
  induction n with
  | zero => exact fun h => ⟨h, nofun⟩
  | succ n ih =>
    intro cb offset h
    unfold detectLoop
    split
    · exact ih h
    · rename_i hfree
      obtain ⟨hs, hfound⟩ := @searching_detectByte mem data cb offset h (by simpa using hfree)
      revert hs hfound
      generalize detectByte cb data offset = r
      obtain ⟨u, search⟩ := r
      intro hs hfound
      cases search with
      | go => exact ih hs
      | failed => exact ⟨hs, nofun⟩
      | found => exact ⟨hs, hfound⟩

/-! ## A whole detection -/

structure Located (cb : T2tCb) (mem : ByteFn) : Prop where
  hdr : ∀ i < 16, cb.tagHdr i = mem i
  data : ∀ i < 16, cb.tagData i = mem (16 + i)
  header : 16 ≤ cb.ndefHeaderOffset
  free : cb.ndefHeaderOffset < cb.dataEnd → cb.isLockResByte cb.ndefHeaderOffset = false

theorem dataEnd_le (cb : T2tCb) : cb.dataEnd ≤ 2056 := by
  have h := (cb.tagHdr t2tCc2TmsByte).toNat_lt
  show _ * 8 + 4 * 4 ≤ 2056
  omega

theorem free_of_behind {a e : Nat} (hoff : ∀ x ∈ u.lockOffsets, e ≤ x ∧ x < 2 ^ 15) (ha : a < e)
    (hmem : u.memTlvs = cb.memTlvs) (h : cb.isLockResByte a = false) : u.isLockResByte a = false := by
  unfold T2tCb.isLockResByte T2tCb.marked at h
  simp only [Bool.or_eq_false_iff] at h
  unfold T2tCb.isLockResByte T2tCb.marked
  simp only [Bool.or_eq_false_iff]
  refine ⟨⟨?_, ?_⟩, ?_⟩
  · rw [List.contains_eq_mem, decide_eq_false_iff_not]
    intro hin
    have := (hoff a hin).1
    omega
  · rw [hmem]
    exact h.1.2
  · cases hlast : u.lockOffsets.getLast? with
    | none => rfl
    | some x =>
      obtain ⟨hge, hlt⟩ := hoff x (List.mem_of_getLast? hlast)
      dsimp only
      rw [List.contains_eq_mem, decide_eq_false_iff_not]
      unfold internalOffsets
      dsimp only
      split
      · intro hin
        obtain ⟨i, hi, heq⟩ := List.mem_map.mp hin
        have hi' : i < 4 - (x + 1) % 4 := List.mem_range.mp hi
        rw [Nat.mod_eq_of_lt (by omega)] at heq
        omega
      · exact List.not_mem_nil

theorem free_extractDefaultLocksInfo {a : Nat} (ha : a < cb.dataEnd) (h : cb.isLockResByte a = false) :
    (extractDefaultLocksInfo cb).isLockResByte a = false := by
  unfold extractDefaultLocksInfo
  split
  · refine @free_of_behind cb _ a cb.dataEnd (fun x hx => ?_) ha rfl h
    have hend := dataEnd_le cb
    unfold T2tCb.lockOffsets at hx
    dsimp only at hx
    rw [List.map_map, List.mem_map] at hx
    obtain ⟨i, hi, rfl⟩ := hx
    have hi' : i ≤ 32 := Nat.le_trans (Nat.le_of_lt (List.mem_range.mp hi)) (Nat.min_le_right _ _)
    show cb.dataEnd ≤ (cb.dataEnd + i) % 2 ^ 16 ∧ (cb.dataEnd + i) % 2 ^ 16 < 2 ^ 15
    rw [Nat.mod_eq_of_lt (by omega)]
    omega
  · exact h

theorem extractDefaultLocksInfo_hdr : (extractDefaultLocksInfo cb).tagHdr = cb.tagHdr := by
  unfold extractDefaultLocksInfo
  split
  · rfl
  · rfl

theorem extractDefaultLocksInfo_data : (extractDefaultLocksInfo cb).tagData = cb.tagData := by
  unfold extractDefaultLocksInfo
  split
  · rfl
  · rfl

theorem extractDefaultLocksInfo_header :
    (extractDefaultLocksInfo cb).ndefHeaderOffset = cb.ndefHeaderOffset := by
  unfold extractDefaultLocksInfo
  split
  · rfl
  · rfl

theorem located_extractDefaultLocksInfo (h : Searching mem cb) (hb : cb.Behind) :
    Located (extractDefaultLocksInfo cb) mem := by
  obtain ⟨hheader, hfree⟩ := h.free hb
  constructor
  · rw [extractDefaultLocksInfo_hdr]
    exact h.hdr
  · rw [extractDefaultLocksInfo_data]
    exact h.data
  · rw [extractDefaultLocksInfo_header]
    exact hheader
  · unfold T2tCb.dataEnd
    rw [extractDefaultLocksInfo_hdr, extractDefaultLocksInfo_header]
    exact fun hlt => free_extractDefaultLocksInfo hlt hfree

/-- A detection: the header is read, then the first bytes of the data area and those behind them. -/
inductive Detecting (mem : ByteFn) : T2tCb → Reply → Prop
  | cc {cb : T2tCb} (hsub : cb.substate = .waitReadCc) (hwork : cb.workOffset = 0) :
      Detecting mem cb (.cmd (.read 0))
  | first {cb : T2tCb} (hsub : cb.substate = .waitTlvDetect) (hwork : cb.workOffset = 0)
      (hhdr : ∀ i < 16, cb.tagHdr i = mem i) : Detecting mem cb (.cmd (.read 4))
  | behind {cb : T2tCb} {block : Nat} (h : Searching mem cb) : Detecting mem cb (.cmd (.read block))
  | failed {cb : T2tCb} : Detecting mem cb (.done false)
  | found {cb : T2tCb} (h : Located cb mem) : Detecting mem cb (.done true)

theorem detecting_handleSearched {search : Search} (h : Searching mem cb) (hb : search = .found → cb.Behind) :
    Detecting mem (handleSearched cb search).1 (handleSearched cb search).2 := by
  cases search with
  | go =>
    unfold handleSearched
    dsimp only
    split
    · exact .failed
    · exact .behind ⟨h.hdr, h.data, h.work, h.sub, h.free⟩
  | failed => exact .failed
  | found =>
    have hloc := located_extractDefaultLocksInfo h (hb rfl)
    exact .found ⟨hloc.hdr, hloc.data, hloc.header, hloc.free⟩

theorem detecting_handleTlvDetectRsp (h : Searching mem (keepTagData cb data)) :
    Detecting mem (handleTlvDetectRsp cb data).1 (handleTlvDetectRsp cb data).2 := by
  obtain ⟨hs, hfound⟩ := @searching_detectLoop mem data t2tReadDataLen (keepTagData cb data) 0 h
  unfold handleTlvDetectRsp
  revert hs hfound
  generalize detectLoop data t2tReadDataLen (keepTagData cb data) 0 = r
  obtain ⟨u, search⟩ := r
  intro hs hfound
  refine detecting_handleSearched ⟨hs.hdr, hs.data, ?_, hs.sub, hs.free⟩ hfound
  have hwork := hs.work
  show 16 ≤ u.workOffset + 16
  omega

theorem detecting_handleCcReadRsp (hwork : cb.workOffset = 0) (hhdr : ∀ i < 16, cb.tagHdr i = mem i) :
    Detecting mem (handleCcReadRsp cb).1 (handleCcReadRsp cb).2 := by
  unfold handleCcReadRsp
  dsimp only
  split
  · exact .failed
  · exact .first rfl hwork hhdr

theorem detecting_step {s t : TagSys} (hmem : s.mem = mem) (h : Detecting mem s.cb s.reply)
    (hstep : tagSysStep handleDetectRsp s = some t) : t.mem = mem ∧ Detecting mem t.cb t.reply := by
  obtain ⟨cb, m, reply⟩ := s
  dsimp only at hmem h
  subst hmem
  cases h with
  | cc hsub hwork =>
    rw [tagSysStep_read] at hstep
    obtain rfl := Option.some.inj hstep
    refine ⟨rfl, ?_⟩
    dsimp only
    unfold handleDetectRsp
    rw [if_pos hsub]
    dsimp only
    split
    · refine detecting_handleCcReadRsp hwork fun i _ => ?_
      show m (0 * 4 + i) = m i
      rw [Nat.zero_mul, Nat.zero_add]
    · exact .failed
  | first hsub hwork hhdr =>
    rw [tagSysStep_read] at hstep
    obtain rfl := Option.some.inj hstep
    refine ⟨rfl, ?_⟩
    dsimp only
    unfold handleDetectRsp
    rw [if_neg (by rw [hsub]; nofun)]
    apply detecting_handleTlvDetectRsp
    unfold keepTagData
    rw [if_pos hwork]
    refine ⟨hhdr, fun i _ => rfl, Nat.le_refl 16, ?_, ?_⟩
    · show cb.substate ≠ _
      rw [hsub]
      nofun
    · intro hb
      have hb' := hb.2
      dsimp only at hb'
      rw [hsub] at hb'
      simp at hb'
  | behind hs =>
    rw [tagSysStep_read] at hstep
    obtain rfl := Option.some.inj hstep
    refine ⟨rfl, ?_⟩
    dsimp only
    unfold handleDetectRsp
    rw [if_neg hs.sub]
    apply detecting_handleTlvDetectRsp
    unfold keepTagData
    have hwork := hs.work
    rw [if_neg (by omega)]
    exact hs
  | failed => cases hstep
  | found => cases hstep

theorem located_of_detected {cb₀ : T2tCb} (hhdr : cb₀.bReadHdr = true → ∀ i < 16, cb₀.tagHdr i = mem i)
    (h : Detected cb₀ mem cb) : Located cb mem := by
  obtain ⟨u, reply, n, hstart, hend⟩ := h
  have hfirst : Detecting mem u reply := by
    unfold t2tDetectNDef at hstart
    split at hstart
    · cases hstart
    · dsimp only at hstart
      split at hstart
      · rename_i hread
        obtain ⟨rfl, rfl⟩ := Prod.mk.inj (Option.some.inj hstart)
        exact .first rfl rfl (hhdr hread)
      · obtain ⟨rfl, rfl⟩ := Prod.mk.inj (Option.some.inj hstart)
        exact .cc rfl rfl
  have hinv := @TagSys.after_invariant T2tCb handleDetectRsp (fun s => s.mem = mem ∧ Detecting mem s.cb s.reply)
    (fun s t hs hst => detecting_step hs.1 hs.2 hst) n ⟨u, mem, reply⟩ ⟨rfl, hfirst⟩
  rw [hend] at hinv
  cases hinv.2 with
  | found hloc => exact hloc

end Search

end NfcStack.Rw
