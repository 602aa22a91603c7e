import NfcStack.Rw.I93Capacity
import NfcStack.Rw.T2tTlvRun

/- The room for a message that detection reports for a Type 2 tag
   (`rw_t2t_get_ndef_max_size`). The bytes behind the length field are counted which are
   no lock or reserved bytes. Where the length field has one byte and there is room for
   more than 254 bytes, two are taken off for the long one; a small tag has 46 bytes of
   room wherever the NDEF TLV stands.

   What is proved:
     1. `walk_ndef`, `foundTlv_of_detected`: where the length field and the value of the TLV are
        that was found.
     2. `freeIn_lenField`: from the length field to the value it has one byte or three that
        count.
     3. `max_size_exact`: where the bitmap is that of the layout, the room is the right one
        exactly in the cases of `SizeRight`. -/
namespace NfcStack.Rw

/-! ## Counting free bytes -/

namespace Layout
variable {l : Layout} {mem : ByteFn} {e a b c x : Nat}

/-- How many bytes from `a` on, in front of `b`, are not set aside. -/
def freeIn (l : Layout) (a b : Nat) : Nat :=
  ((List.range' a (b - a)).filter fun x => !l.taken x).length

theorem freeIn_of_le (h : b ≤ a) : l.freeIn a b = 0 := by
  simp [freeIn, Nat.sub_eq_zero_of_le h]

theorem freeIn_add (hab : a ≤ b) (hbc : b ≤ c) : l.freeIn a c = l.freeIn a b + l.freeIn b c := by
  have hlen : c - a = (b - a) + (c - b) := by omega
  have hstart : a + (b - a) = b := by omega
  have happ := List.range'_append_1 (s := a) (m := b - a) (n := c - b)
  rw [hstart] at happ
  rw [freeIn, hlen, ← happ, List.filter_append, List.length_append]
  rfl

theorem freeIn_mono (hab : a ≤ b) (hbc : b ≤ c) : l.freeIn a b ≤ l.freeIn a c := by
  rw [freeIn_add hab hbc]
  exact Nat.le_add_right _ _

theorem freeIn_one (hfree : l.taken a = false) : l.freeIn a (a + 1) = 1 := by
  have hlen : a + 1 - a = 1 := by omega
  simp [freeIn, hlen, hfree]

theorem freeIn_nextFree (h : l.nextFree e a = some x) : l.freeIn a x = 0 := by
  obtain ⟨hax, -, -⟩ := nextFree_bounds h
  obtain ⟨-, -, hbefore⟩ := List.find?_range'_eq_some.1 h
  rw [freeIn, List.length_eq_zero_iff, List.filter_eq_nil_iff]
  intro y hy
  rw [List.mem_range'_1] at hy
  simpa using hbefore y hy.1 (by omega)

theorem freeIn_step (h : l.nextFree e a = some x) : l.freeIn a (x + 1) = 1 := by
  obtain ⟨hax, -, hfree⟩ := nextFree_bounds h
  rw [freeIn_add hax (Nat.le_succ x), freeIn_nextFree h, freeIn_one hfree]

theorem freeIn_take {n : Nat} : ∀ {a : Nat} {r : List Nat × Nat}, l.take e n a = some r → a ≤ e →
    l.freeIn a r.2 = n ∧ a + n ≤ r.2 := by
  induction n with
  | zero =>
    intro a r h _
    cases h
    exact ⟨freeIn_of_le (Nat.le_refl a), Nat.le_refl a⟩
  | succ n ih =>
    intro a r h ha
    rw [take] at h
    cases hx : l.nextFree e a with
    | none => simp [hx] at h
    | some x =>
      obtain ⟨hax, hxe, -⟩ := nextFree_bounds hx
      simp only [hx, Option.map_eq_some_iff] at h
      obtain ⟨q, hq, rfl⟩ := h
      obtain ⟨hcount, hle⟩ := ih hq (by omega)
      have hstep := freeIn_step hx
      dsimp only
      rw [freeIn_add (show a ≤ x + 1 by omega) (show x + 1 ≤ q.2 by omega), hcount, hstep]
      omega

theorem freeIn_lenField {r : Nat × Nat × Nat} (h : l.lenField mem e a = some r) :
    l.freeIn r.1 r.2.2 = (if mem r.1 = t2tLongNdefLenFieldByte0 then 3 else 1) ∧
      r.1 + (if mem r.1 = t2tLongNdefLenFieldByte0 then 3 else 1) ≤ r.2.2 ∧
      (mem r.1 ≠ t2tLongNdefLenFieldByte0 → r.2.2 = r.1 + 1) := by
  unfold lenField at h
  cases hx : l.nextFree e a with
  | none => simp [hx] at h
  | some x =>
    obtain ⟨hax, hxe, hfree⟩ := nextFree_bounds hx
    simp only [hx] at h
    by_cases hlong : mem x = t2tLongNdefLenFieldByte0
    · rw [if_pos hlong] at h
      obtain ⟨q, hq, rfl⟩ := Option.map_eq_some_iff.1 h
      obtain ⟨hcount, hle⟩ := freeIn_take hq (by omega)
      dsimp only
      rw [if_pos hlong, freeIn_add (show x ≤ x + 1 by omega) (show x + 1 ≤ q.2 by omega), freeIn_one hfree, hcount]
      exact ⟨rfl, by omega, fun hno => absurd hlong hno⟩
    · rw [if_neg hlong] at h
      obtain rfl := Option.some.inj h
      dsimp only
      rw [if_neg hlong]
      exact ⟨freeIn_one hfree, Nat.le_refl _, fun _ => rfl⟩

end Layout

/-! ## The TLV that was found -/

section Walk
variable {mem : ByteFn} {e a : Nat} {l l' : Layout} {header len msg : Nat} {limits : Bool}

theorem walkTlv_ndef (h : walkTlv limits mem e l' a = .ndef l header len msg) :
    ∃ t b, l.lenField mem e t = some (header, len, b) ∧ l.nextFree e b = some msg := by
  unfold walkTlv at h
  cases hx : l'.nextFree e a with
  | none => simp [hx] at h
  | some t =>
    simp only [hx] at h
    split_ifs at h
    · unfold walkNdef at h
      cases hl : l'.lenField mem e (t + 1) with
      | none => simp [hl] at h
      | some r =>
        simp only [hl] at h
        cases hm : l'.nextFree e r.2.2 with
        | none => simp [hm] at h
        | some m =>
          simp only [hm] at h
          obtain ⟨rfl, rfl, rfl, rfl⟩ := Met.ndef.inj h
          exact ⟨t + 1, r.2.2, hl, hm⟩
    · unfold walkLock at h
      split at h
      · cases h
      · split at h
        · cases h
        · cases h
    · unfold walkMem at h
      split at h
      · cases h
      · split at h
        · cases h
        · cases h
    · unfold walkProprietary at h
      split at h
      · cases h
      · split at h
        · cases h
        · split at h
          · cases h
          · cases h

theorem walk_ndef (n : Nat) : ∀ {l' : Layout} {a : Nat}, walk limits mem e n l' a = .ndef l header len msg →
    ∃ t b, l.lenField mem e t = some (header, len, b) ∧ l.nextFree e b = some msg := by
  induction n with
  | zero => exact nofun
  | succ n ih =>
    intro l' a h
    rw [walk] at h
    split at h
    · exact ih h
    · exact walkTlv_ndef h

end Walk

/-- The TLV of a detection that has ended well, and the layout of the data area. -/
structure FoundTlv (mem : ByteFn) (cb : T2tCb) (l : Layout) : Prop where
  nmn : cb.tagHdr t2tCc0NmnByte = t2tCc0Nmn
  bytes : ∀ i < cb.dataEnd, cb.isLockResByte i = l.taken i
  tlv : ∃ t b, l.lenField mem (readEnd mem) t = some (cb.ndefHeaderOffset, cb.ndefMsgLen, b) ∧
    l.nextFree (readEnd mem) b = some cb.ndefMsgOffset

section Detection
variable {mem : ByteFn} {cb : T2tCb}

theorem foundTlv_of_detected {cb₀ : T2tCb} (hhdr : cb₀.bReadHdr = true → ∀ i < 16, cb₀.tagHdr i = mem i)
    (h : Detected cb₀ mem cb) : ∃ l, FoundTlv mem cb l := by
  obtain ⟨u, n, hbegins, hnmn, hafter⟩ := detected_begins hhdr h
  obtain ⟨r, ⟨m, v, hafter', hbare⟩, hwalk⟩ := endsWith_walk hbegins
  have heq := TagSys.after_unique hafter hafter' rfl rfl
  obtain ⟨hcb, -, hreply⟩ := TagSys.mk.inj heq
  have hfound : r.2 = .found := by
    have := Reply.done.inj hreply
    simpa using this.symm
  cases hm : walkArea true mem (readEnd mem) with
  | next l b =>
    rw [hm] at hwalk
    exact absurd hfound hwalk
  | ended =>
    rw [hm] at hwalk
    exact absurd hfound hwalk
  | emptyProprietary =>
    rw [hm] at hwalk
    exact absurd hfound hwalk
  | ndef l header len msg =>
    rw [hm] at hwalk
    obtain ⟨-, hlay, hhdr', htlv, hheader, hlen, hmsg⟩ := hwalk
    obtain ⟨t, b, hl, hnext⟩ := walk_ndef _ hm
    have hvhdr : v.tagHdr = u.tagHdr := (congrArg T2tCb.tagHdr hbare).trans hhdr'
    have hcbhdr : cb.tagHdr = v.tagHdr := by
      rw [hcb]
      exact extractDefaultLocksInfo_hdr
    have hlay' : ∀ i, v.isLockResByte i = l.taken i := by
      intro i
      rw [← hlay, ← hbare]
      rfl
    have htlv' : v.lockTlvs = [] → v.lockBytes = [] := by
      intro hnone
      rw [← hbare] at htlv
      exact htlv hnone
    refine ⟨l, ?_, fun i hi => ?_, t, b, ?_, ?_⟩
    · rw [hcbhdr, hvhdr, hnmn]
    · have hi' : i < v.dataEnd := by
        unfold T2tCb.dataEnd at hi ⊢
        rwa [hcbhdr] at hi
      rw [← hlay' i, ← isLockResByte_defaultLocks htlv' fun _ => hi', hcb]
      rfl
    · have hcbheader : cb.ndefHeaderOffset = header := by
        rw [hcb]
        exact extractDefaultLocksInfo_header.trans ((congrArg T2tCb.ndefHeaderOffset hbare).trans hheader)
      have hcblen : cb.ndefMsgLen = len := by
        rw [hcb]
        exact (@extractDefaultLocksInfo_msg v).1.trans ((congrArg T2tCb.ndefMsgLen hbare).trans hlen)
      rw [hcbheader, hcblen, hl]
    · have hcbmsg : cb.ndefMsgOffset = msg := by
        rw [hcb]
        exact (@extractDefaultLocksInfo_msg v).2.trans ((congrArg T2tCb.ndefMsgOffset hbare).trans hmsg)
      rw [hcbmsg, hnext]

/-! ## The room -/

def T2tCb.freeBytes (cb : T2tCb) : Nat :=
  ((List.range' cb.ndefHeaderOffset (cb.dataEnd - cb.ndefHeaderOffset)).filter
    fun offset => !cb.isLockResByte offset).length

/-- An NDEF TLV with a value of `n` bytes fits, with its type where it is. -/
def FitsTag (cb : T2tCb) (n : Nat) : Prop := I93.tlvSize n ≤ 1 + cb.freeBytes

/-- When the room is right: on a small tag, if the TLV is where it is expected; with a length field of
three bytes, if a message that needs it has room; with one byte, if the two bytes that are taken off
are not missed. -/
def SizeRight (mem : ByteFn) (cb : T2tCb) : Prop :=
  if cb.dataEnd ≤ t2tStaticSize then cb.freeBytes = 47
  else if mem cb.ndefHeaderOffset = t2tLongNdefLenFieldByte0 then cb.freeBytes = 1 ∨ 257 ≤ cb.freeBytes
  else if cb.ndefMsgOffset = cb.ndefHeaderOffset + 1 then cb.freeBytes ≠ 0 ∧ cb.freeBytes ≠ 256
  else 1 ≤ cb.freeBytes ∧ cb.freeBytes ≤ 255

/-- What the detection with the bitmap finds is what the one by address does. -/
theorem EndsAs.freeBytes {junk : Junk} {s : AttrCb} (h : EndsAs junk s cb) : s.cb.freeBytes = cb.freeBytes := by
  obtain ⟨room, hcb⟩ := h.cb
  rw [hcb]
  rfl

theorem EndsAs.sizeRight {junk : Junk} {s : AttrCb} (h : EndsAs junk s cb) (hright : SizeRight mem cb) :
    SizeRight mem s.cb := by
  obtain ⟨room, hcb⟩ := h.cb
  rw [hcb]
  exact hright

theorem EndsAs.lockBytes {junk : Junk} {s : AttrCb} (h : EndsAs junk s cb) : s.cb.lockBytes = cb.lockBytes := by
  obtain ⟨room, hcb⟩ := h.cb
  rw [hcb]

theorem fitsTag_greatest_iff (m : Nat) :
    IsGreatest {n | FitsTag cb n} m ↔ cb.freeBytes ≠ 0 ∧ m = I93.capacity (1 + cb.freeBytes) := by
  by_cases hzero : cb.freeBytes = 0
  · have hnone : ¬FitsTag cb m := by
      unfold FitsTag I93.tlvSize
      split <;> omega
    exact ⟨fun h => absurd h.1 hnone, fun h => absurd hzero h.1⟩
  · have hiff := @I93.fits_greatest_iff (1 + cb.freeBytes) m (by omega)
    exact ⟨fun h => ⟨hzero, hiff.mp h⟩, fun h => hiff.mpr h.2⟩

variable {l : Layout}

theorem FoundTlv.freeIn_eq (h : FoundTlv mem cb l) (a : Nat) :
    ((List.range' a (cb.dataEnd - a)).filter fun offset => !cb.isLockResByte offset).length
      = l.freeIn a cb.dataEnd := by
  unfold Layout.freeIn
  congr 1
  apply List.filter_congr
  intro i hi
  rw [List.mem_range'_1] at hi
  rw [h.bytes i (by omega)]

structure Counted (mem : ByteFn) (cb : T2tCb) (room : Nat) : Prop where
  behind : cb.ndefHeaderOffset + (if mem cb.ndefHeaderOffset = t2tLongNdefLenFieldByte0 then 3 else 1)
    ≤ cb.ndefMsgOffset
  inside : cb.ndefMsgOffset ≤ cb.dataEnd →
    cb.freeBytes = (if mem cb.ndefHeaderOffset = t2tLongNdefLenFieldByte0 then 3 else 1) + room
  outside : cb.dataEnd < cb.ndefMsgOffset →
    room = 0 ∧ cb.freeBytes ≤ if mem cb.ndefHeaderOffset = t2tLongNdefLenFieldByte0 then 3 else 1
  empty : cb.dataEnd ≤ cb.ndefHeaderOffset → cb.freeBytes = 0

theorem FoundTlv.counted (h : FoundTlv mem cb l) : Counted mem cb (l.freeIn cb.ndefMsgOffset cb.dataEnd) := by
  obtain ⟨t, b, hl, hm⟩ := h.tlv
  obtain ⟨hcount, hle, -⟩ := Layout.freeIn_lenField hl
  obtain ⟨hbm, -, -⟩ := Layout.nextFree_bounds hm
  have hgap := Layout.freeIn_nextFree hm
  have hbytes : cb.freeBytes = l.freeIn cb.ndefHeaderOffset cb.dataEnd := h.freeIn_eq _
  dsimp only at hcount hle
  -- up to the value only the length field counts
  have hfield := Layout.freeIn_add (l := l) (show cb.ndefHeaderOffset ≤ b by omega) hbm
  rw [hcount, hgap, Nat.add_zero] at hfield
  constructor
  · omega
  · intro hin
    rw [hbytes, Layout.freeIn_add (show cb.ndefHeaderOffset ≤ cb.ndefMsgOffset by omega) hin, hfield]
  · intro hout
    refine ⟨Layout.freeIn_of_le (by omega), ?_⟩
    rw [hbytes, ← hfield]
    by_cases hh : cb.ndefHeaderOffset ≤ cb.dataEnd
    · exact Layout.freeIn_mono hh (by omega)
    · rw [Layout.freeIn_of_le (by omega)]
      exact Nat.zero_le _
  · intro hh
    rw [hbytes, Layout.freeIn_of_le hh]

theorem FoundTlv.maxSize (h : FoundTlv mem cb l) :
    ndefMaxSize cb =
      if cb.dataEnd ≤ t2tStaticSize then 46
      else if l.freeIn cb.ndefMsgOffset cb.dataEnd ≥ 0xFF ∧ cb.ndefMsgOffset - cb.ndefHeaderOffset = 1 then
        l.freeIn cb.ndefMsgOffset cb.dataEnd - 2
      else l.freeIn cb.ndefMsgOffset cb.dataEnd := by
  have hcond : (cb.dataEnd ≤ t2tStaticSize ∨
      cb.tagHdr t2tCc0NmnByte ≠ t2tCc0Nmn ∧ cb.tagHdr t2tCc0NmnByte ≠ 0) ↔ cb.dataEnd ≤ t2tStaticSize :=
    ⟨fun hor => hor.resolve_right fun hne => hne.1 h.nmn, Or.inl⟩
  unfold ndefMaxSize
  rw [h.freeIn_eq]
  by_cases hs : cb.dataEnd ≤ t2tStaticSize
  · rw [if_pos (hcond.mpr hs), if_pos hs]
    rfl
  · rw [if_neg fun h => hs (hcond.mp h), if_neg hs]
    rfl

theorem size_exact {cb₀ : T2tCb} (hhdr : cb₀.bReadHdr = true → ∀ i < 16, cb₀.tagHdr i = mem i)
    (h : Detected cb₀ mem cb) : IsGreatest {n | FitsTag cb n} (ndefMaxSize cb) ↔ SizeRight mem cb := by
  obtain ⟨l, hf⟩ := foundTlv_of_detected hhdr h
  obtain ⟨hbehind, hinside, houtside, hempty⟩ := hf.counted
  rw [fitsTag_greatest_iff, hf.maxSize]
  unfold SizeRight I93.capacity
  revert hbehind hinside houtside hempty
  generalize l.freeIn cb.ndefMsgOffset cb.dataEnd = room
  generalize cb.freeBytes = free
  generalize cb.dataEnd = areaEnd
  generalize cb.ndefMsgOffset = msg
  generalize cb.ndefHeaderOffset = header
  intro hbehind hinside houtside hempty
  by_cases hs : areaEnd ≤ t2tStaticSize
  · rw [if_pos hs, if_pos hs]
    split_ifs <;> omega
  rw [if_neg hs, if_neg hs]
  by_cases hlong : mem header = t2tLongNdefLenFieldByte0
  · rw [if_pos hlong] at hbehind hinside houtside ⊢
    rw [if_neg (by omega)]
    by_cases hin : msg ≤ areaEnd
    · have := hinside hin
      split_ifs <;> omega
    · have := houtside (by omega)
      split_ifs <;> omega
  rw [if_neg hlong] at hbehind hinside houtside ⊢
  by_cases hnext : msg = header + 1
  · rw [if_pos hnext]
    by_cases hin : msg ≤ areaEnd
    · have := hinside hin
      split_ifs <;> omega
    · have := houtside (by omega)
      have := hempty (by omega)
      split_ifs <;> omega
  · rw [if_neg hnext, if_neg (by omega)]
    by_cases hin : msg ≤ areaEnd
    · have := hinside hin
      split_ifs <;> omega
    · have := houtside (by omega)
      split_ifs <;> omega

/-- **The room for a message.** It is the length of the longest message whose TLV fits, with its type
where it is, exactly in the cases of `SizeRight`. -/
theorem max_size_exact {junk : Junk} {s₀ s : AttrCb} (hhdr : s₀.cb.bReadHdr = true → ∀ i < 16, s₀.cb.tagHdr i = mem i)
    (hblank : Blank s₀) (hsure : DetectionSure junk s₀ mem) (hdet : DetectedMap junk s₀ mem s)
    (hcount : Countable junk s.cb) :
    IsGreatest {n | FitsTag s.cb n} (ndefMaxSizeMap junk s).2 ↔ SizeRight mem s.cb := by
  obtain ⟨cb, hcb, hends⟩ := endsAs_of_detected hblank hsure hdet
  obtain ⟨room, hs⟩ := hends.cb
  rw [(ndefMaxSizeMap_spec (hends.cached hcount) hcount).2.2, hs]
  have hexact := size_exact hhdr hcb
  exact hexact

end Detection

/-! ## Tags -/

-- its conditions are not to be evaluated on a tag
attribute [irreducible] SizeRight

/-- A tag with 96 bytes of data: a lock control TLV (bytes 112 and 113), a memory control TLV (bytes 64 to
67) and the NDEF TLV. -/
def roomyTag : ByteFn := fun a =>
  if a = t2tCc2TmsByte then 0x0C
  else tagWith [0x01, 0x03, 0x70, 0x10, 0x34, 0x02, 0x03, 0x40, 0x04, 0x04, 0x03, 0x01, 0xD0, 0xFE] a

def roomyDetected : AttrCb := (detectedMap junk16 roomyTag 2).cb

theorem roomyTag_detected : DetectionSure junk16 (attrActivated roomyTag) roomyTag ∧
    (detectedMap junk16 roomyTag 2).reply = .done true := by
  have hread : (detectedMap junk16 roomyTag 1).reply.reads = some 4 := by decide +kernel
  have hdone : (detectedMap junk16 roomyTag 2).reply = .done true := by
    apply Reply.ended_iff.mp
    decide +kernel
  refine ⟨detectionSure_second (responseSure_read hread ?_) hdone, hdone⟩
  decide +kernel

theorem roomyTag_cb :
    (detectedByAddress roomyTag 2).cb.ndefHeaderOffset = 27 ∧ (detectedByAddress roomyTag 2).cb.ndefMsgOffset = 28 ∧
      (detectedByAddress roomyTag 2).cb.dataEnd = 112 ∧ (detectedByAddress roomyTag 2).cb.lockBytes ≠ [] ∧
      (detectedByAddress roomyTag 2).cb.lockOffsets = [112, 113] ∧
      (detectedByAddress roomyTag 2).cb.memTlvs = [⟨64, 4⟩] := by
  decide +kernel

theorem roomyTag_free : (detectedByAddress roomyTag 2).cb.freeBytes = 81 := by
  obtain ⟨hheader, -, hend, -, hlocks, hmem⟩ := roomyTag_cb
  unfold T2tCb.freeBytes T2tCb.isLockResByte T2tCb.marked
  rw [hheader, hend, hlocks, hmem]
  rfl

/-- On a tag with control TLVs the room is right. -/
theorem max_size_exact_roomy :
    (ndefMaxSizeMap junk16 roomyDetected).2 = 80 ∧ IsGreatest {n | FitsTag roomyDetected.cb n} 80 := by
  obtain ⟨hsure, hdone⟩ := roomyTag_detected
  obtain ⟨hheader, hmsg, hend, hlock, -, -⟩ := roomyTag_cb
  have hends : EndsAs junk16 roomyDetected (detectedByAddress roomyTag 2).cb := detectedMap_endsAs hsure hdone
  have hfree : roomyDetected.cb.freeBytes = 81 := hends.freeBytes.trans roomyTag_free
  have hright : SizeRight roomyTag (detectedByAddress roomyTag 2).cb := by
    unfold SizeRight
    rw [hend, if_neg (by decide), hheader, hmsg, roomyTag_free]
    decide
  have hlock' : roomyDetected.cb.lockBytes ≠ [] := by
    rw [hends.lockBytes]
    exact hlock
  have hcount : Countable junk16 roomyDetected.cb := fun _ _ => harmless_of_lockBytes hlock'
  have hdet : DetectedMap junk16 (attrActivated roomyTag) roomyTag roomyDetected := detected_detectedMap hdone
  have hexact := (@max_size_exact roomyTag junk16 (attrActivated roomyTag) roomyDetected
    (fun h => Bool.noConfusion h) blank_activated hsure hdet hcount).mpr (hends.sizeRight hright)
  have hsize : (ndefMaxSizeMap junk16 roomyDetected).2 = 80 := by
    rw [((fitsTag_greatest_iff _).mp hexact).2, hfree]
    rfl
  refine ⟨hsize, ?_⟩
  rw [← hsize]
  exact hexact

def nullTag : ByteFn := tagWith [0x00, 0x03, 0x01, 0xD0, 0xFE]

def nullDetected : AttrCb := (detectedMap junk16 nullTag 2).cb

/-- On a small tag a message of 46 bytes is accepted and has no room. -/
theorem small_size_too_large :
    DetectedMap junk16 (attrActivated nullTag) nullTag nullDetected ∧ (ndefMaxSizeMap junk16 nullDetected).2 = 46 ∧
      ¬IsGreatest {n | FitsTag nullDetected.cb n} (ndefMaxSizeMap junk16 nullDetected).2 := by
  have hdone : (detectedMap junk16 nullTag 2).reply = .done true := by
    apply Reply.ended_iff.mp
    decide +kernel
  have hsize : (ndefMaxSizeMap junk16 nullDetected).2 = 46 := by decide +kernel
  have hfree : nullDetected.cb.freeBytes = 46 := by
    have hcb : nullDetected.cb.ndefHeaderOffset = 18 ∧ nullDetected.cb.dataEnd = 64 ∧
        nullDetected.cb.lockOffsets = [] ∧ nullDetected.cb.memTlvs = [] := by decide +kernel
    obtain ⟨hheader, hend, hlocks, hmem⟩ := hcb
    unfold T2tCb.freeBytes T2tCb.isLockResByte T2tCb.marked
    rw [hheader, hend, hlocks, hmem]
    rfl
  refine ⟨detected_detectedMap hdone, hsize, fun h => ?_⟩
  rw [hsize] at h
  have hfits : I93.tlvSize 46 ≤ 1 + nullDetected.cb.freeBytes := h.1
  rw [hfree] at hfits
  exact absurd hfits (by decide)

end NfcStack.Rw
