import NfcStack.Rw.T2tAttributes

/- The detection of the NDEF message of a Type 2 tag with the bitmap of the lock and reserved
   bytes: every byte is asked for of `rw_t2t_is_lock_res_byte`, and a control TLV that has
   been decoded makes the bitmap anew. `T2tDetect` has the same functions with each byte
   asked for by its address.

   What is proved:
     1. `detectLoopMap_spec`: the bytes of a response, where the variable that is not set
        does no harm.
     2. `simulates_after`: over any number of commands the detection by address goes the
        same way.
     3. `answersBelow_of_cached`: what is asked for afterwards. -/
namespace NfcStack.Rw
open NfcStack.Lib T1tLocks

/-! ## The code -/

/-- What the variable `offset` of `rw_t2t_update_attributes` holds before it is set, by the address:
when a byte is asked for, when a TLV ends there, and when the free bytes are counted. -/
structure Junk where
  asked : Nat → Nat
  decoded : Nat → Nat
  counted : Nat → Nat

def T2tCb.numTlvs (cb : T2tCb) : Nat := cb.lockTlvs.length + cb.memTlvs.length

/-- One byte. A control TLV that ends with it makes the bitmap anew. -/
def detectByteMap (junk : Junk) (s : AttrCb) (data : ByteFn) (offset : Nat) : AttrCb × Search :=
  let r := detectByte s.cb data offset
  let t := { s with cb := r.1 }
  if r.1.numTlvs = s.cb.numTlvs then (t, r.2)
  else (updateAttributes (junk.decoded (s.cb.workOffset + offset)) t, r.2)

def detectLoopMap (junk : Junk) (data : ByteFn) : Nat → AttrCb → Nat → AttrCb × Search
  | 0, s, _ => (s, .go)
  | n + 1, s, offset =>
    let index := s.cb.workOffset + offset
    let r := askLockResByte (junk.asked index) s index
    if r.2 then detectLoopMap junk data n r.1 (offset + 1)
    else
      match detectByteMap junk r.1 data offset with
      | (s, .go) => detectLoopMap junk data n s (offset + 1)
      | q => q

def countFreeMap (junk : Junk) : List Nat → AttrCb → AttrCb × Nat
  | [], s => (s, 0)
  | offset :: offsets, s =>
    let r := askLockResByte (junk.counted offset) s offset
    let q := countFreeMap junk offsets r.1
    (q.1, if r.2 then q.2 else q.2 + 1)

def ndefMaxSizeMap (junk : Junk) (s : AttrCb) : AttrCb × Nat :=
  if s.cb.dataEnd ≤ t2tStaticSize ∨
      s.cb.tagHdr t2tCc0NmnByte ≠ t2tCc0Nmn ∧ s.cb.tagHdr t2tCc0NmnByte ≠ 0 then
    (s, t2tStaticSize - t2tHeaderSize - 1 - t2tShortNdefLenFieldLen)
  else
    let r := countFreeMap junk (List.range' s.cb.ndefMsgOffset (s.cb.dataEnd - s.cb.ndefMsgOffset)) s
    (r.1, if r.2 ≥ 0xFF ∧ s.cb.ndefMsgOffset - s.cb.ndefHeaderOffset = t2tShortNdefLenFieldLen then
      r.2 - (t2tLongNdefLenFieldLen - t2tShortNdefLenFieldLen)
    else r.2)

def ntfTlvDetectCompleteMap (junk : Junk) (s : AttrCb) (ok : Bool) : AttrCb × Reply :=
  if s.cb.tagHdr t2tCc3RwaByte = t2tCc3RwaRw then
    let r := ndefMaxSizeMap junk s
    ({ r.1 with cb := { r.1.cb with maxNdefMsgLen := r.2 } }, .done ok)
  else (s, .done ok)

def handleSearchedMap (junk : Junk) (s : AttrCb) : Search → AttrCb × Reply
  | .go =>
    if s.cb.workOffset ≥ s.cb.dataEnd then
      ntfTlvDetectCompleteMap junk { s with cb := extractDefaultLocksInfo s.cb } false
    else
      let r := sendRead s.cb (s.cb.workOffset / t2tBlockSize)
      ({ s with cb := r.1 }, r.2)
  | .failed => ntfTlvDetectCompleteMap junk { s with cb := extractDefaultLocksInfo s.cb } false
  | .found => ntfTlvDetectCompleteMap junk { s with cb := extractDefaultLocksInfo s.cb } true

/-- What `rw_t2t_handle_tlv_detect_rsp` does before its loop. -/
def beginResponse (s : AttrCb) (data : ByteFn) : AttrCb := { s with cb := keepTagData s.cb data, segment := 0 }

def handleTlvDetectRspMap (junk : Junk) (s : AttrCb) (data : ByteFn) : AttrCb × Reply :=
  let r := detectLoopMap junk data t2tReadDataLen (beginResponse s data) 0
  handleSearchedMap junk { r.1 with cb := { r.1.cb with workOffset := r.1.cb.workOffset + t2tReadDataLen } } r.2

def handleCcReadRspMap (junk : Junk) (s : AttrCb) : AttrCb × Reply :=
  let rwa := s.cb.tagHdr t2tCc3RwaByte
  let vno := s.cb.tagHdr t2tCc1VnoByte
  if rwa ≠ t2tCc3RwaRw ∧ rwa ≠ t2tCc3RwaRo ∨
      vno ≠ t2tCc1LegacyVno ∧ vno ≠ t2tCc1Vno ∧ vno ≠ t2tCc1NewVno then
    ntfTlvDetectCompleteMap junk s false
  else
    let r := sendRead { s.cb with substate := .waitTlvDetect } t2tFirstDataBlock
    ({ s with cb := r.1 }, r.2)

/-- `rw_t2t_handle_rsp`, while the NDEF TLV is searched for. -/
def handleDetectRspMap (junk : Junk) (s : AttrCb) (data : ByteFn) : AttrCb × Reply :=
  if s.cb.substate = .waitReadCc then
    let s := { s with cb := { s.cb with bReadHdr := true, tagHdr := data } }
    if s.cb.tagHdr t2tCc0NmnByte = t2tCc0Nmn then handleCcReadRspMap junk s
    else ntfTlvDetectCompleteMap junk s false
  else handleTlvDetectRspMap junk s data

/-- A detection that starts with `s₀` ends well with `s`. -/
def DetectedMap (junk : Junk) (s₀ : AttrCb) (mem : ByteFn) (s : AttrCb) : Prop :=
  ∃ u reply n, t2tDetectNDef s₀.cb = some (u, reply) ∧
    (TagSys.after (handleDetectRspMap junk) n ⟨{ s₀ with cb := u }, mem, reply⟩).cb = s ∧
    (TagSys.after (handleDetectRspMap junk) n ⟨{ s₀ with cb := u }, mem, reply⟩).reply = .done true

/-! ## Where the variable does no harm -/

instance (junk : Nat) (cb : T2tCb) : Decidable (Harmless junk cb) := inferInstanceAs (Decidable (_ → _))

/-- Whenever the loop makes the bitmap anew, for another segment or behind a TLV, lock bytes are
known, or the variable marks none. -/
def LoopSure (junk : Junk) (data : ByteFn) : Nat → AttrCb → Nat → Prop
  | 0, _, _ => True
  | n + 1, s, offset =>
    let index := s.cb.workOffset + offset
    let r := askLockResByte (junk.asked index) s index
    let q := detectByteMap junk r.1 data offset
    (index / rwT2tSegmentBytes ≠ s.attrSeg → Harmless (junk.asked index) s.cb) ∧
    (r.2 = true → LoopSure junk data n r.1 (offset + 1)) ∧
    (r.2 = false → (q.1.cb.numTlvs ≠ s.cb.numTlvs → Harmless (junk.decoded index) q.1.cb) ∧
      (q.2 = .go → LoopSure junk data n q.1 (offset + 1)))

instance LoopSure.decidable (junk : Junk) (data : ByteFn) : ∀ n s offset, Decidable (LoopSure junk data n s offset)
  | 0, _, _ => .isTrue trivial
  | n + 1, _, _ =>
    let _ := LoopSure.decidable junk data n
    inferInstanceAs (Decidable ((_ → _) ∧ (_ → _) ∧ (_ → (_ → _) ∧ (_ → _))))

/-- So it is in the response to the command that has been sent. -/
def ResponseSure (junk : Junk) (t : TagSys AttrCb) : Prop :=
  ∀ block, t.reply = .cmd (.read block) → t.cb.cb.substate ≠ .waitReadCc →
    LoopSure junk (readBlocks t.mem block) t2tReadDataLen (beginResponse t.cb (readBlocks t.mem block)) 0

def RunSure (junk : Junk) (t : TagSys AttrCb) : Prop :=
  ∀ n, ResponseSure junk (t.after (handleDetectRspMap junk) n)

def DetectionSure (junk : Junk) (s₀ : AttrCb) (mem : ByteFn) : Prop :=
  ∀ u reply, t2tDetectNDef s₀.cb = some (u, reply) → RunSure junk ⟨{ s₀ with cb := u }, mem, reply⟩

/-- The bitmap marks nothing, as when the tag has been activated. -/
def Blank (s : AttrCb) : Prop := ∀ i < rwT2tSegmentBytes, marked s.attr i = false

/-- On a tag whose free bytes are counted, the bitmaps made for it are the layout. -/
def Countable (junk : Junk) (cb : T2tCb) : Prop :=
  t2tStaticSize < cb.dataEnd → ∀ a, Harmless (junk.counted a) cb

/-! ## The bytes of a response -/

section Loop
variable {junk : Junk} {data : ByteFn} {s : AttrCb} {cb : T2tCb} {offset : Nat}

theorem detectByte_work : (detectByte cb data offset).1.workOffset = cb.workOffset := by
  unfold detectByte
  split
  · unfold detectTlv
    dsimp only
    split_ifs <;> rfl
  · unfold findLenFieldLen
    dsimp only
    split_ifs <;> rfl
  · unfold readTlvLen0
    split_ifs <;> rfl
  · rfl
  · unfold readTlvValue
    dsimp only
    split_ifs <;> rfl
  · rfl

theorem detectByte_tables :
    let u := (detectByte cb data offset).1
    u.lockTlvs = cb.lockTlvs ∧ u.lockBytes = cb.lockBytes ∧ u.memTlvs = cb.memTlvs ∨
      (∃ x, u.lockTlvs = cb.lockTlvs ++ [x]) ∧ u.memTlvs = cb.memTlvs ∨
      (∃ x, u.memTlvs = cb.memTlvs ++ [x]) ∧ u.lockTlvs = cb.lockTlvs ∧ u.lockBytes = cb.lockBytes := by
  unfold detectByte
  dsimp only
  split
  · left
    unfold detectTlv
    dsimp only
    split_ifs <;> exact ⟨rfl, rfl, rfl⟩
  · left
    unfold findLenFieldLen
    dsimp only
    split_ifs <;> exact ⟨rfl, rfl, rfl⟩
  · left
    unfold readTlvLen0
    split_ifs <;> exact ⟨rfl, rfl, rfl⟩
  · exact .inl ⟨rfl, rfl, rfl⟩
  · -- only the last byte of the value of a control TLV adds one
    unfold readTlvValue
    dsimp only
    split_ifs
    all_goals first
      | exact .inl ⟨rfl, rfl, rfl⟩
      | exact .inr (.inl ⟨⟨_, rfl⟩, rfl⟩)
      | exact .inr (.inr ⟨⟨_, rfl⟩, rfl, rfl⟩)
  · exact .inl ⟨rfl, rfl, rfl⟩

theorem detectByteMap_cb : ((detectByteMap junk s data offset).1.cb, (detectByteMap junk s data offset).2) =
    detectByte s.cb data offset := by
  unfold detectByteMap
  dsimp only
  split <;> rfl

theorem attrInv_detectByteMap (hs : AttrInv s) (hseg : s.attrSeg = s.segment)
    (hjunk : (detectByteMap junk s data offset).1.cb.numTlvs ≠ s.cb.numTlvs →
      Harmless (junk.decoded (s.cb.workOffset + offset)) (detectByteMap junk s data offset).1.cb) :
    AttrInv (detectByteMap junk s data offset).1 := by
  have hcb : (detectByteMap junk s data offset).1.cb = (detectByte s.cb data offset).1 :=
    congrArg Prod.fst detectByteMap_cb
  have htables := @detectByte_tables data s.cb offset
  rw [hcb] at hjunk
  unfold detectByteMap
  revert hjunk htables
  dsimp only
  generalize detectByte s.cb data offset = r
  intro hjunk htables
  have htlv : r.1.lockTlvs = [] → r.1.lockBytes = [] := by
    intro hnone
    obtain ⟨hlock, hbytes, -⟩ | ⟨⟨x, hx⟩, -⟩ | ⟨-, hlock, hbytes⟩ := htables
    · exact hbytes.trans (hs.tlv (hlock.symm.trans hnone))
    · exact absurd (hx.symm.trans hnone) (by simp)
    · exact hbytes.trans (hs.tlv (hlock.symm.trans hnone))
  split
  · next hsame =>
    -- no TLV was added, and the bitmap is still that of the layout
    have hkept : r.1.lockTlvs = s.cb.lockTlvs ∧ r.1.lockBytes = s.cb.lockBytes ∧ r.1.memTlvs = s.cb.memTlvs := by
      unfold T2tCb.numTlvs at hsame
      obtain h | ⟨⟨x, hx⟩, hmem⟩ | ⟨⟨x, hx⟩, hlock, -⟩ := htables
      · exact h
      · simp [hx, hmem] at hsame
      · simp [hx, hlock] at hsame
    obtain ⟨hlock, hbytes, hmem⟩ := hkept
    have hoffsets : r.1.lockOffsets = s.cb.lockOffsets := by
      unfold T2tCb.lockOffsets
      rw [hlock, hbytes]
    refine ⟨fun i hi _ => ?_, htlv⟩
    exact (hs.cached i hi trivial).trans (isLockResByte_congr hoffsets hmem).symm
  · next hne => exact ⟨cached_decoded hseg (hjunk hne), htlv⟩

theorem detectLoopMap_spec (n : Nat) : ∀ {s : AttrCb} {offset : Nat}, AttrInv s →
    s.cb.workOffset + offset + n ≤ 2 ^ 15 → LoopSure junk data n s offset →
    ((detectLoopMap junk data n s offset).1.cb, (detectLoopMap junk data n s offset).2) =
        detectLoop data n s.cb offset ∧
      AttrInv (detectLoopMap junk data n s offset).1 ∧
      (detectLoopMap junk data n s offset).1.cb.workOffset = s.cb.workOffset := by
  -- on the bytes left: the bitmap is that of the layout before each of them
  induction n with
  | zero => exact fun hs _ _ => ⟨rfl, hs, rfl⟩
  | succ n ih =>
    intro s offset hs hle hsure
    unfold LoopSure at hsure
    obtain ⟨hask, htaken, hfree⟩ := hsure
    obtain ⟨hcb, hseg, hcached, hanswer⟩ := ask_spec hs.cached trivial (by omega) hask
    unfold detectLoopMap detectLoop
    dsimp only
    rw [← hanswer]
    revert hcb hseg hcached htaken hfree
    generalize askLockResByte (junk.asked (s.cb.workOffset + offset)) s (s.cb.workOffset + offset) = r
    intro htaken hfree hcb hseg hcached
    have hr : AttrInv r.1 := ⟨hcached, by rw [hcb]; exact hs.tlv⟩
    cases hres : r.2 with
    | true =>
      rw [if_pos rfl, if_pos rfl, ← hcb]
      -- a byte that is marked is passed over
      exact ih hr (by rw [hcb]; omega) (htaken hres)
    | false =>
      obtain ⟨hdecoded, hrest⟩ := hfree hres
      have hbyte := attrInv_detectByteMap hr hseg (by rw [hcb]; exact hdecoded)
      have hwork : (detectByteMap junk r.1 data offset).1.cb.workOffset = s.cb.workOffset := by
        have hfst : (detectByteMap junk r.1 data offset).1.cb = (detectByte r.1.cb data offset).1 :=
          congrArg Prod.fst detectByteMap_cb
        rw [hfst, detectByte_work, hcb]
      rw [if_neg (by simp), if_neg (by simp), ← hcb, ← @detectByteMap_cb junk data r.1 offset]
      revert hbyte hwork hrest
      generalize detectByteMap junk r.1 data offset = q
      obtain ⟨t, search⟩ := q
      intro hrest hbyte hwork
      dsimp only at hrest hbyte hwork ⊢
      cases search with
      | go =>
        obtain ⟨heq, hinv, hwork'⟩ := ih hbyte (by rw [hwork]; omega) (hrest rfl)
        exact ⟨heq, hinv, hwork'.trans (hwork.trans (congrArg T2tCb.workOffset hcb.symm))⟩
      | failed => exact ⟨rfl, hbyte, hwork.trans (congrArg T2tCb.workOffset hcb.symm)⟩
      | found => exact ⟨rfl, hbyte, hwork.trans (congrArg T2tCb.workOffset hcb.symm)⟩

theorem countFreeMap_spec {e : Nat} (he : e ≤ 2 ^ 15) : ∀ (offsets : List Nat) {s : AttrCb},
    CachedOn (· < e) s → (∀ a, Harmless (junk.counted a) s.cb) → (∀ a ∈ offsets, a < e) →
    (countFreeMap junk offsets s).1.cb = s.cb ∧ CachedOn (· < e) (countFreeMap junk offsets s).1 ∧
      (countFreeMap junk offsets s).2 = (offsets.filter fun a => !s.cb.isLockResByte a).length := by
  intro offsets
  induction offsets with
  | nil => exact fun hs _ _ => ⟨rfl, hs, rfl⟩
  | cons a offsets ih =>
    intro s hs hjunk hlt
    have ha : a < e := hlt a List.mem_cons_self
    obtain ⟨hcb, -, hcached, hanswer⟩ := @ask_spec s (· < e) hs a (junk.counted a) ha (by omega) fun _ => hjunk a
    obtain ⟨hcb', hcached', hcount⟩ := ih hcached (by rw [hcb]; exact hjunk)
      fun b hb => hlt b (List.mem_cons_of_mem _ hb)
    unfold countFreeMap
    dsimp only
    refine ⟨hcb'.trans hcb, hcached', ?_⟩
    rw [hcount, hcb, hanswer, List.filter_cons]
    cases s.cb.isLockResByte a with
    | true => rfl
    | false => rfl

theorem ndefMaxSizeMap_spec (hs : CachedOn (· < s.cb.dataEnd) s) (hcount : Countable junk s.cb) :
    (ndefMaxSizeMap junk s).1.cb = s.cb ∧ CachedOn (· < s.cb.dataEnd) (ndefMaxSizeMap junk s).1 ∧
      (ndefMaxSizeMap junk s).2 = ndefMaxSize s.cb := by
  unfold ndefMaxSizeMap ndefMaxSize
  split
  · exact ⟨rfl, hs, rfl⟩
  · next hbig =>
    have hend := dataEnd_le s.cb
    have hbig' : t2tStaticSize < s.cb.dataEnd := by
      by_contra hno
      exact hbig (.inl (not_lt.mp hno))
    obtain ⟨hcb, hcached, hfree⟩ := @countFreeMap_spec junk s.cb.dataEnd (by omega)
      (List.range' s.cb.ndefMsgOffset (s.cb.dataEnd - s.cb.ndefMsgOffset)) s hs (hcount hbig') (by
        intro a ha
        rw [List.mem_range'_1] at ha
        omega)
    dsimp only
    exact ⟨hcb, hcached, by rw [hfree]⟩

end Loop

/-! ## The detection -/

/-- The detection that has ended with `s` has ended with `cb` by address, apart from the room that is
reported; if that could be counted, the bitmap is still right within the data area. -/
structure EndsAs (junk : Junk) (s : AttrCb) (cb : T2tCb) : Prop where
  cb : ∃ room, s.cb = { cb with maxNdefMsgLen := room }
  cached : Countable junk s.cb → CachedOn (· < s.cb.dataEnd) s

structure Asking (s : AttrCb) : Prop where
  inv : AttrInv s
  work : s.cb.workOffset ≤ 2056

/-- The detection with the bitmap is where the one by address is. -/
def Simulates (junk : Junk) (t : TagSys AttrCb) (u : TagSys) : Prop :=
  t.mem = u.mem ∧ t.reply = u.reply ∧
    ((∃ block, t.reply = .cmd (.read block)) ∧ t.cb.cb = u.cb ∧ Asking t.cb ∨
      (∃ ok, t.reply = .done ok) ∧ EndsAs junk t.cb u.cb)

section Detection
variable {junk : Junk} {mem data : ByteFn} {s : AttrCb} {cb : T2tCb}

theorem endsAs_ntf (hs : CachedOn (· < s.cb.dataEnd) s) (ok : Bool) :
    EndsAs junk (ntfTlvDetectCompleteMap junk s ok).1 (ntfTlvDetectComplete s.cb ok).1 := by
  unfold ntfTlvDetectCompleteMap ntfTlvDetectComplete
  split
  · have hcb : ∀ (offsets : List Nat) (s : AttrCb), (countFreeMap junk offsets s).1.cb = s.cb := by
      intro offsets
      induction offsets with
      | nil => exact fun _ => rfl
      | cons a offsets ih =>
        intro s
        refine (ih _).trans ?_
        unfold askLockResByte
        dsimp only
        split <;> rfl
    -- the count changes the bitmap, not the control block
    have hsame : (ndefMaxSizeMap junk s).1.cb = s.cb := by
      unfold ndefMaxSizeMap
      split
      · rfl
      · exact hcb _ s
    constructor
    · refine ⟨(ndefMaxSizeMap junk s).2, ?_⟩
      dsimp only
      rw [hsame]
    · intro hcount
      dsimp only at hcount ⊢
      rw [hsame] at hcount ⊢
      have hcached := (ndefMaxSizeMap_spec hs hcount).2.1
      intro i hi hlt
      have hmark := hcached i hi hlt
      rw [hsame] at hmark
      exact hmark
  · exact ⟨⟨_, rfl⟩, fun _ => hs⟩

theorem cachedOn_extract (hs : AttrInv s) :
    CachedOn (· < (extractDefaultLocksInfo s.cb).dataEnd) { s with cb := extractDefaultLocksInfo s.cb } := by
  intro i hi hlt
  have hend : (extractDefaultLocksInfo s.cb).dataEnd = s.cb.dataEnd := by
    unfold T2tCb.dataEnd
    rw [extractDefaultLocksInfo_hdr]
  rw [hend] at hlt
  -- the default lock bytes lie behind the data area
  calc marked s.attr i = s.cb.isLockResByte _ := hs.cached i hi trivial
    _ = _ := (isLockResByte_defaultLocks hs.tlv fun _ => hlt).symm

theorem simulates_handleSearched (hs : AttrInv s) (search : Search) :
    Simulates junk ⟨(handleSearchedMap junk s search).1, mem, (handleSearchedMap junk s search).2⟩
      ⟨(handleSearched s.cb search).1, mem, (handleSearched s.cb search).2⟩ := by
  have hdone : ∀ ok, Simulates junk
      ⟨(ntfTlvDetectCompleteMap junk { s with cb := extractDefaultLocksInfo s.cb } ok).1, mem,
        (ntfTlvDetectCompleteMap junk { s with cb := extractDefaultLocksInfo s.cb } ok).2⟩
      ⟨(ntfTlvDetectComplete (extractDefaultLocksInfo s.cb) ok).1, mem,
        (ntfTlvDetectComplete (extractDefaultLocksInfo s.cb) ok).2⟩ := by
    intro ok
    have hreply : (ntfTlvDetectCompleteMap junk { s with cb := extractDefaultLocksInfo s.cb } ok).2 =
        .done ok := by
      unfold ntfTlvDetectCompleteMap
      split <;> rfl
    have hends := @endsAs_ntf junk { s with cb := extractDefaultLocksInfo s.cb } (cachedOn_extract hs) ok
    exact ⟨rfl, hreply, .inr ⟨⟨ok, hreply⟩, hends⟩⟩
  cases search with
  | go =>
    unfold handleSearchedMap handleSearched
    dsimp only
    split
    · exact hdone false
    · next hin =>
      have hend := dataEnd_le s.cb
      have hwork : s.cb.workOffset ≤ 2056 := by omega
      have hasking : Asking { s with cb := (sendRead s.cb (s.cb.workOffset / t2tBlockSize)).1 } :=
        ⟨⟨hs.cached, hs.tlv⟩, hwork⟩
      exact ⟨rfl, rfl, .inl ⟨⟨_, rfl⟩, rfl, hasking⟩⟩
  | failed => exact hdone false
  | found => exact hdone true

theorem simulates_handleTlvDetectRsp (hs : Asking s)
    (hsure : LoopSure junk data t2tReadDataLen (beginResponse s data) 0) :
    Simulates junk ⟨(handleTlvDetectRspMap junk s data).1, mem, (handleTlvDetectRspMap junk s data).2⟩
      ⟨(handleTlvDetectRsp s.cb data).1, mem, (handleTlvDetectRsp s.cb data).2⟩ := by
  have hwork : (keepTagData s.cb data).workOffset ≤ 2056 := by
    have hle := hs.work
    unfold keepTagData
    split
    · exact Nat.le_of_ble_eq_true rfl
    · exact hle
  -- what is kept of the data is no part of the layout
  have hlayout : ∀ a, (keepTagData s.cb data).isLockResByte a = s.cb.isLockResByte a := by
    intro a
    unfold keepTagData
    split <;> rfl
  have htlv : (keepTagData s.cb data).lockTlvs = [] → (keepTagData s.cb data).lockBytes = [] := by
    have h := hs.inv.tlv
    unfold keepTagData
    split
    · exact h
    · exact h
  have hbegin : AttrInv (beginResponse s data) :=
    ⟨fun i hi _ => (hs.inv.cached i hi trivial).trans (hlayout _).symm, htlv⟩
  have hlen : (beginResponse s data).cb.workOffset + 0 + t2tReadDataLen ≤ 2 ^ 15 := by
    change (keepTagData s.cb data).workOffset + 0 + 16 ≤ 2 ^ 15
    omega
  obtain ⟨heq, hinv, -⟩ := detectLoopMap_spec t2tReadDataLen hbegin hlen hsure
  have heq' : detectLoop data t2tReadDataLen (keepTagData s.cb data) 0 = (_, _) := heq.symm
  unfold handleTlvDetectRspMap handleTlvDetectRsp
  rw [heq']
  revert hinv
  generalize detectLoopMap junk data t2tReadDataLen (beginResponse s data) 0 = r
  intro hinv
  have hinv' : AttrInv { r.1 with cb := { r.1.cb with workOffset := r.1.cb.workOffset + t2tReadDataLen } } :=
    ⟨hinv.cached, hinv.tlv⟩
  exact simulates_handleSearched hinv' r.2

theorem simulates_cc (hs : Asking s) (data : ByteFn) :
    let t : AttrCb := { s with cb := { s.cb with bReadHdr := true, tagHdr := data } }
    let r := if t.cb.tagHdr t2tCc0NmnByte = t2tCc0Nmn then handleCcReadRspMap junk t
      else ntfTlvDetectCompleteMap junk t false
    let q := if t.cb.tagHdr t2tCc0NmnByte = t2tCc0Nmn then handleCcReadRsp t.cb
      else ntfTlvDetectComplete t.cb false
    Simulates junk ⟨r.1, mem, r.2⟩ ⟨q.1, mem, q.2⟩ := by
  intro t
  have hinv : AttrInv t := ⟨hs.inv.cached, hs.inv.tlv⟩
  have hdone : Simulates junk ⟨(ntfTlvDetectCompleteMap junk t false).1, mem,
        (ntfTlvDetectCompleteMap junk t false).2⟩
      ⟨(ntfTlvDetectComplete t.cb false).1, mem, (ntfTlvDetectComplete t.cb false).2⟩ := by
    have hreply : (ntfTlvDetectCompleteMap junk t false).2 = .done false := by
      unfold ntfTlvDetectCompleteMap
      split <;> rfl
    have hends := @endsAs_ntf junk t (fun i hi _ => hinv.cached i hi trivial) false
    exact ⟨rfl, hreply, .inr ⟨⟨false, hreply⟩, hends⟩⟩
  have hwork : t.cb.workOffset ≤ 2056 := hs.work
  have hasking : Asking { t with cb := (sendRead { t.cb with substate := .waitTlvDetect } t2tFirstDataBlock).1 } :=
    ⟨⟨hinv.cached, hinv.tlv⟩, hwork⟩
  dsimp only
  split
  · unfold handleCcReadRspMap handleCcReadRsp
    dsimp only
    split
    · exact hdone
    · exact ⟨rfl, rfl, .inl ⟨⟨_, rfl⟩, rfl, hasking⟩⟩
  · exact hdone

theorem simulates_step {t t' : TagSys AttrCb} {u : TagSys} (h : Simulates junk t u)
    (hsure : ResponseSure junk t) (hstep : tagSysStep (handleDetectRspMap junk) t = some t') :
    t'.mem = t.mem ∧ ∃ u', tagSysStep handleDetectRsp u = some u' ∧ Simulates junk t' u' := by
  obtain ⟨s, mem, reply⟩ := t
  obtain ⟨cb, mem', reply'⟩ := u
  obtain ⟨hmem, hreply, hrest⟩ := h
  dsimp only at hmem hreply hrest hsure
  subst hmem hreply
  obtain ⟨⟨block, rfl⟩, rfl, hs⟩ | ⟨⟨ok, rfl⟩, -⟩ := hrest
  · rw [tagSysStep_read] at hstep ⊢
    obtain rfl := Option.some.inj hstep
    refine ⟨rfl, _, rfl, ?_⟩
    unfold handleDetectRspMap handleDetectRsp
    by_cases hcc : s.cb.substate = .waitReadCc
    · -- the capability container
      rw [if_pos hcc, if_pos hcc]
      exact simulates_cc hs _
    · rw [if_neg hcc, if_neg hcc]
      exact simulates_handleTlvDetectRsp hs (hsure block rfl hcc)
  · cases hstep

theorem simulates_after (n : Nat) : ∀ {t : TagSys AttrCb} {u : TagSys}, Simulates junk t u → RunSure junk t →
    (t.after (handleDetectRspMap junk) n).mem = t.mem ∧
      Simulates junk (t.after (handleDetectRspMap junk) n) (u.after handleDetectRsp n) := by
  -- on the responses; the condition on the run is that of its rest
  induction n with
  | zero => exact fun h _ => ⟨rfl, h⟩
  | succ n ih =>
    intro t u h hsure
    unfold TagSys.after
    cases hstep : tagSysStep (handleDetectRspMap junk) t with
    | none =>
      -- both have ended
      have hnone : tagSysStep handleDetectRsp u = none := by
        obtain ⟨-, hreply, ⟨⟨block, hcmd⟩, -⟩ | ⟨⟨ok, hdone⟩, -⟩⟩ := h
        · unfold tagSysStep at hstep
          rw [hcmd] at hstep
          cases hstep
        · unfold tagSysStep
          rw [← hreply, hdone]
      rw [hnone]
      exact ⟨rfl, h⟩
    | some t' =>
      obtain ⟨hmem, u', hu, h'⟩ := simulates_step h (hsure 0) hstep
      rw [hu]
      refine (ih h' fun k => ?_).imp_left fun heq => heq.trans hmem
      have hnext : t.after (handleDetectRspMap junk) (k + 1) = t'.after (handleDetectRspMap junk) k := by
        rw [TagSys.after, hstep]
      rw [← hnext]
      exact hsure (k + 1)

theorem responseSure_read {t : TagSys AttrCb} {block : Nat} (hread : t.reply.reads = some block)
    (hloop : LoopSure junk (readBlocks t.mem block) t2tReadDataLen (beginResponse t.cb (readBlocks t.mem block)) 0) :
    ResponseSure junk t := by
  intro block' hcmd _
  rw [hcmd] at hread
  obtain rfl := Option.some.inj hread
  exact hloop

theorem runSure_done {t : TagSys AttrCb} {ok : Bool} (h : t.reply = .done ok) : RunSure junk t := by
  intro n block hcmd
  rw [TagSys.after_done h, h] at hcmd
  cases hcmd

theorem runSure_last {t : TagSys AttrCb} {ok : Bool} (hsure : ResponseSure junk t)
    (hend : (t.after (handleDetectRspMap junk) 1).reply = .done ok) : RunSure junk t := by
  intro n
  cases n with
  | zero => exact hsure
  | succ n =>
    rw [TagSys.after] at hend ⊢
    cases hstep : tagSysStep (handleDetectRspMap junk) t with
    | none => exact hsure
    | some t' =>
      rw [hstep] at hend
      exact runSure_done hend n

theorem attrInv_blank (hblank : Blank s) (hlock : s.cb.lockBytes = []) (hmem : s.cb.memTlvs = []) : AttrInv s := by
  refine ⟨fun i hi _ => ?_, fun _ => hlock⟩
  rw [hblank i hi]
  unfold T2tCb.isLockResByte T2tCb.marked
  rw [lockOffsets_nil hlock, hmem]
  rfl

theorem simulates_start {s₀ : AttrCb} (hblank : Blank s₀) {u : T2tCb} {reply : Reply}
    (hstart : t2tDetectNDef s₀.cb = some (u, reply)) :
    Simulates junk ⟨{ s₀ with cb := u }, mem, reply⟩ ⟨u, mem, reply⟩ := by
  have hu : (∃ block, reply = .cmd (.read block)) ∧ u.lockBytes = [] ∧ u.memTlvs = [] ∧ u.workOffset = 0 := by
    unfold t2tDetectNDef at hstart
    split at hstart
    · cases hstart
    · dsimp only at hstart
      split at hstart
      · obtain ⟨rfl, rfl⟩ := Prod.mk.inj (Option.some.inj hstart)
        exact ⟨⟨_, rfl⟩, rfl, rfl, rfl⟩
      · obtain ⟨rfl, rfl⟩ := Prod.mk.inj (Option.some.inj hstart)
        exact ⟨⟨_, rfl⟩, rfl, rfl, rfl⟩
  obtain ⟨hread, hlock, hmem, hwork⟩ := hu
  have hinv := @attrInv_blank { s₀ with cb := u } hblank hlock hmem
  exact ⟨rfl, rfl, .inl ⟨hread, rfl, hinv, by rw [hwork]; exact Nat.zero_le _⟩⟩

theorem endsAs_of_detected {s₀ : AttrCb} (hblank : Blank s₀) (hsure : DetectionSure junk s₀ mem)
    (h : DetectedMap junk s₀ mem s) : ∃ cb, Detected s₀.cb mem cb ∧ EndsAs junk s cb := by
  obtain ⟨u, reply, n, hstart, rfl, hend⟩ := h
  obtain ⟨hkept, hmem, hreply, hrest⟩ := simulates_after n (simulates_start hblank hstart) (hsure u reply hstart)
  revert hmem hreply hrest
  generalize hafter : TagSys.after handleDetectRsp n ⟨u, mem, reply⟩ = v
  obtain ⟨cb, mem', reply'⟩ := v
  intro hmem hreply hrest
  obtain rfl : mem = mem' := hkept.symm.trans hmem
  obtain rfl : Reply.done true = reply' := hend.symm.trans hreply
  obtain ⟨⟨block, hcmd⟩, -⟩ | ⟨-, hends⟩ := hrest
  · rw [hend] at hcmd
    cases hcmd
  · exact ⟨cb, ⟨u, reply, n, hstart, hafter⟩, hends⟩

end Detection

/-- Whatever is asked for, byte 16 is in the variable. -/
def junk16 : Junk := ⟨fun _ => 16, fun _ => 16, fun _ => 16⟩

/-- The system behind `n` commands of the first detection. -/
def detectedMap (junk : Junk) (mem : ByteFn) (n : Nat) : TagSys AttrCb :=
  match t2tDetectNDef (attrActivated mem).cb with
  | some (u, reply) => TagSys.after (handleDetectRspMap junk) n ⟨{ attrActivated mem with cb := u }, mem, reply⟩
  | none => ⟨attrActivated mem, mem, .quiet⟩

section First
variable {junk : Junk} {mem : ByteFn}

theorem blank_activated : Blank (attrActivated mem) := fun i _ => marked_zero i

theorem detectedMap_eq {u : T2tCb} {reply : Reply} (h : t2tDetectNDef (attrActivated mem).cb = some (u, reply)) (n : Nat) :
    detectedMap junk mem n = TagSys.after (handleDetectRspMap junk) n ⟨{ attrActivated mem with cb := u }, mem, reply⟩ := by
  unfold detectedMap
  rw [h]

def detectedByAddress (mem : ByteFn) (n : Nat) : TagSys :=
  match t2tDetectNDef (attrActivated mem).cb with
  | some (u, reply) => TagSys.after handleDetectRsp n ⟨u, mem, reply⟩
  | none => ⟨t2tActivated, mem, .quiet⟩

theorem detectedMap_endsAs (hsure : DetectionSure junk (attrActivated mem) mem) {n : Nat} {ok : Bool}
    (hdone : (detectedMap junk mem n).reply = .done ok) :
    EndsAs junk (detectedMap junk mem n).cb (detectedByAddress mem n).cb := by
  have hsim := (simulates_after n (simulates_start blank_activated rfl) (hsure _ _ rfl)).2
  obtain ⟨-, -, ⟨⟨block, hcmd⟩, -⟩ | ⟨-, hends⟩⟩ := hsim
  · have hread : (detectedMap junk mem n).reply = .cmd (.read block) := hcmd
    rw [hdone] at hread
    cases hread
  · exact hends

theorem detected_detectedMap {n : Nat} (hend : (detectedMap junk mem n).reply = .done true) :
    DetectedMap junk (attrActivated mem) mem (detectedMap junk mem n).cb := by
  refine ⟨_, _, n, rfl, ?_, ?_⟩
  · rw [← detectedMap_eq rfl]
  · rw [← detectedMap_eq rfl]
    exact hend

theorem detectionSure_second {ok : Bool} (hsure : ResponseSure junk (detectedMap junk mem 1))
    (hend : (detectedMap junk mem 2).reply = .done ok) : DetectionSure junk (attrActivated mem) mem := by
  intro u reply hstart n
  cases n with
  | zero =>
    intro block _ hsub
    obtain ⟨rfl, -⟩ := Prod.mk.inj (Option.some.inj hstart)
    exact absurd rfl hsub
  | succ n =>
    rw [← detectedMap_eq hstart]
    cases n with
    | zero => exact hsure
    | succ n =>
      have hadd : n + 1 + 1 = 2 + n := by omega
      rw [hadd, detectedMap_eq hstart, TagSys.after_add, ← detectedMap_eq hstart]
      exact runSure_done hend n

end First

/-! ## Behind a detection -/

/-- Whatever bytes in front of `e` are asked for, in whatever order, they are answered by the layout. -/
def AnswersBelow (s : AttrCb) (e : Nat) : Prop :=
  ∀ es : List AttrStep, (∀ x ∈ es, ∃ index < e, x.op = .query index) → StepsOk attrStep Answered s es

theorem answersBelow_of_cached {e : Nat} (he : e ≤ 2 ^ 15) : ∀ {s : AttrCb}, CachedOn (· < e) s →
    s.cb.lockBytes ≠ [] → AnswersBelow s e := by
  intro s hs hlock es
  induction es generalizing s with
  | nil => exact fun _ => trivial
  | cons x es ih =>
    intro hall
    obtain ⟨index, hlt, hop⟩ := hall x List.mem_cons_self
    obtain ⟨junk, op⟩ := x
    dsimp only at hop
    subst hop
    obtain ⟨hcb, -, hcached, hanswer⟩ :=
      @ask_spec s (· < e) hs index (junk 0) hlt (by omega) fun _ => harmless_of_lockBytes hlock
    constructor
    · intro i hi
      cases hi
      exact hanswer
    · intro t ht
      obtain rfl := Option.some.inj ht
      exact ih hcached (by rw [hcb]; exact hlock) fun y hy => hall y (List.mem_cons_of_mem _ hy)

end NfcStack.Rw
