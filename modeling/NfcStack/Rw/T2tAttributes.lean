import NfcStack.Lib.Run
import NfcStack.Rw.AttributeMaps
import NfcStack.Rw.T2tDetect

/- The map of the lock and reserved bytes of a Type 2 tag (`rw_t2t_update_attributes`,
   `rw_t2t_is_lock_res_byte`). A bitmap is kept of one segment; it is made anew when a TLV
   has been decoded and when a byte of another segment is asked for. The variable `offset`
   is not set when there are no lock bytes, and yet the internal bytes are counted from it.

   What is proved:
     1. `marked_updateAttributes`: the bitmap that is made is the layout of its segment, if
        there are lock bytes or what stands in the variable is the end of a block.
     2. `attrStep_keeps`: what one step keeps.
     3. `attributes_exact`: in a run that keeps out the steps that go wrong, each query is
        answered by the layout. -/
namespace NfcStack.Rw
open NfcStack.Lib T1tLocks

abbrev rwT2tSegmentBytes : Nat := 128

/-! ## The code -/

structure AttrCb where
  cb : T2tCb
  attr : Attributes
  segment : Nat
  attrSeg : Nat

/-- The control block of a tag that is activated; `hdr` is the header that will be read. -/
def attrActivated (hdr : ByteFn) : AttrCb := ⟨{ t2tActivated with tagHdr := hdr }, fun _ => 0, 0, 0⟩

/-- `rw_t2t_update_attributes`; `junk` is what the variable `offset` holds before it is set. -/
def updateAttributes (junk : Nat) (s : AttrCb) : AttrCb :=
  let attr : Attributes := fun _ => 0
  let attr := s.cb.lockOffsets.foldl (markByte s.segment) attr
  let offset := s.cb.lockOffsets.getLast?.getD junk
  let attr := (internalOffsets offset).foldl (markByte s.segment) attr
  { s with attr := s.cb.memTlvs.foldl (fun attr r => r.offsets.foldl (markByte s.segment) attr) attr }

def askLockResByte (junk : Nat) (s : AttrCb) (index : Nat) : AttrCb × Bool :=
  let s := { s with segment := index / rwT2tSegmentBytes % 2 ^ 8 }
  let s := if s.attrSeg ≠ s.segment then { updateAttributes junk s with attrSeg := s.segment } else s
  let index := index % rwT2tSegmentBytes
  (s, bitSet (s.attr (index / 8)) (index % 8))

/-- What is done with the map. A TLV ends with a byte of its own, which is asked for first. -/
inductive AttrOp where
  | query (index : Nat)
  | lockTlv (index : Nat) (v : ByteFn)
  | memTlv (index : Nat) (v : ByteFn)
  | response
  | locate (tlvType : UInt8)
  | defaultLocks

def resetTlvs (cb : T2tCb) (tlvType : UInt8) : T2tCb :=
  if tlvType = tagLockCtrlTlv then { cb with lockBytes := [], lockTlvs := [] }
  else if tlvType = tagMemCtrlTlv then { cb with memTlvs := [] }
  else if tlvType = tagNdefTlv then { cb with lockBytes := [], lockTlvs := [], memTlvs := [] }
  else cb

/-- A step, with what is in `offset` at its calls of `rw_t2t_update_attributes`. -/
structure AttrStep where
  junk : Nat → Nat
  op : AttrOp

def attrStep (s : AttrCb) (e : AttrStep) : Option AttrCb :=
  match e.op with
  | .query index => some (askLockResByte (e.junk 0) s index).1
  | .lockTlv index v =>
    let (s, reserved) := askLockResByte (e.junk 0) s index
    if reserved ∨ s.cb.lockBytes ≠ [] then some s
    else some (updateAttributes (e.junk 1) { s with cb := addLockTlv s.cb v })
  | .memTlv index v =>
    let (s, reserved) := askLockResByte (e.junk 0) s index
    if reserved ∨ s.cb.memTlvs.length ≥ rwT2tMaxMemTlvs then some s
    else some (updateAttributes (e.junk 1) { s with cb := addMemTlv s.cb v })
  | .response => some { s with segment := 0 }
  | .locate tlvType => some { s with cb := resetTlvs s.cb tlvType }
  | .defaultLocks => some { s with cb := extractDefaultLocksInfo s.cb }

/-! ## The bitmap of a segment -/

section Marks
variable {s : AttrCb} {i : Nat}

theorem marked_zero (i : Nat) : marked (fun _ => 0) i = false := bitSet_zero _

/-- The internal bytes are those of the layout: there are lock bytes, or the variable marks none. -/
def Harmless (junk : Nat) (cb : T2tCb) : Prop := cb.lockBytes = [] → internalOffsets junk = []

theorem harmless_of_lockBytes {cb : T2tCb} {junk : Nat} (h : cb.lockBytes ≠ []) : Harmless junk cb :=
  fun hnone => absurd hnone h

theorem marked_updateAttributes {junk : Nat} (hjunk : Harmless junk s.cb) (hi : i < rwT2tSegmentBytes) :
    marked (updateAttributes junk s).attr i = s.cb.isLockResByte (s.segment * rwT2tSegmentBytes + i) := by
  have hany : ∀ (xs : List Nat) attr, marked (xs.foldl (markByte s.segment) attr) i =
      (marked attr i || xs.contains (s.segment * rwT2tSegmentBytes + i)) := by
    intro xs attr
    rw [marked_foldl (fun attr offset => marked_markByte hi attr offset), List.contains_eq_any_beq]
    congr 2
    funext offset
    rw [Bool.eq_iff_iff, decide_eq_true_iff, beq_iff_eq]
    exact eq_comm
  unfold updateAttributes T2tCb.isLockResByte T2tCb.marked
  dsimp only
  rw [marked_foldl fun attr r => hany (ResInfo.offsets r) attr]
  cases hlast : s.cb.lockOffsets.getLast? with
  | none =>
    have hnone := hjunk (List.map_eq_nil_iff.mp (List.getLast?_eq_none_iff.mp hlast))
    rw [Option.getD_none, hnone, List.foldl_nil, hany, marked_zero, Bool.false_or]
    exact (Bool.or_false _).symm
  | some offset =>
    rw [Option.getD_some, hany, hany, marked_zero, Bool.false_or, Bool.or_assoc, Bool.or_assoc,
      Bool.or_comm (List.any _ _)]

/-- The bitmap is the layout of its segment, on the bytes of `p`. -/
def CachedOn (p : Nat → Prop) (s : AttrCb) : Prop :=
  ∀ i < rwT2tSegmentBytes, p (s.attrSeg * rwT2tSegmentBytes + i) →
    marked s.attr i = s.cb.isLockResByte (s.attrSeg * rwT2tSegmentBytes + i)

abbrev Cached (s : AttrCb) : Prop := CachedOn (fun _ => True) s

/-- A byte that is answered for: its segment has a number, and its bitmap is there or can be made. -/
def Askable (s : AttrCb) (index : Nat) : Prop :=
  index < 2 ^ 15 ∧ (s.cb.lockBytes = [] → index / rwT2tSegmentBytes = s.attrSeg)

theorem ask_spec {p : Nat → Prop} (hs : CachedOn p s) {index junk : Nat} (hp : p index) (hlt : index < 2 ^ 15)
    (hjunk : index / rwT2tSegmentBytes ≠ s.attrSeg → Harmless junk s.cb) :
    let r := askLockResByte junk s index
    r.1.cb = s.cb ∧ r.1.attrSeg = r.1.segment ∧ CachedOn p r.1 ∧ r.2 = s.cb.isLockResByte index := by
  have hseg : index / rwT2tSegmentBytes % 2 ^ 8 = index / rwT2tSegmentBytes :=
    Nat.mod_eq_of_lt (Nat.div_lt_of_lt_mul hlt)
  have hindex : index / rwT2tSegmentBytes * rwT2tSegmentBytes + index % rwT2tSegmentBytes = index :=
    Nat.div_add_mod' index _
  have hmod : index % rwT2tSegmentBytes < rwT2tSegmentBytes := Nat.mod_lt _ (by decide)
  intro r
  have hspec : ∀ s' : AttrCb, s'.cb = s.cb → s'.attrSeg = index / rwT2tSegmentBytes → CachedOn p s' →
      marked s'.attr (index % rwT2tSegmentBytes) = s.cb.isLockResByte index := by
    intro s' hcb hattrSeg hs'
    rw [hs' _ hmod (by rwa [hattrSeg, hindex]), hcb, hattrSeg, hindex]
  by_cases hsame : s.attrSeg = index / rwT2tSegmentBytes
  · have hr : r = ({ s with segment := index / rwT2tSegmentBytes },
        marked s.attr (index % rwT2tSegmentBytes)) := by
      change askLockResByte junk s index = _
      unfold askLockResByte
      dsimp only
      rw [hseg, if_neg (not_not.mpr hsame)]
      rfl
    rw [hr]
    exact ⟨rfl, hsame, hs, hspec s rfl hsame hs⟩
  · set s₁ : AttrCb := { s with segment := index / rwT2tSegmentBytes } with hs₁
    set s₂ : AttrCb := { updateAttributes junk s₁ with attrSeg := s₁.segment } with hs₂
    have hr : r = (s₂, marked s₂.attr (index % rwT2tSegmentBytes)) := by
      change askLockResByte junk s index = _
      unfold askLockResByte
      dsimp only
      rw [hseg, if_pos hsame]
      rfl
    have hcached : CachedOn p s₂ := fun i hi _ =>
      @marked_updateAttributes s₁ i junk (hjunk fun h => hsame h.symm) hi
    rw [hr]
    exact ⟨rfl, rfl, hcached, hspec s₂ rfl rfl hcached⟩

theorem askLockResByte_spec (hs : Cached s) {index : Nat} (hask : Askable s index) (junk : Nat) :
    let r := askLockResByte junk s index
    r.1.cb = s.cb ∧ r.1.attrSeg = r.1.segment ∧ Cached r.1 ∧ r.2 = s.cb.isLockResByte index :=
  ask_spec hs trivial hask.1 fun hne hnone => absurd (hask.2 hnone) hne

end Marks

/-! ## Runs -/

/-- The steps that go well: a byte that is answered for; a memory control TLV behind a lock control
TLV; a search that has nothing to forget; and default lock bytes behind the segment of the bitmap. -/
def AttrOk (s : AttrCb) (e : AttrStep) : Prop :=
  match e.op with
  | .query index => Askable s index
  | .lockTlv index _ => Askable s index
  | .memTlv index _ => Askable s index ∧ s.cb.lockBytes ≠ []
  | .response => True
  | .locate tlvType => (tlvType = tagLockCtrlTlv ∨ tlvType = tagNdefTlv → s.cb.lockBytes = []) ∧
    (tlvType = tagMemCtrlTlv ∨ tlvType = tagNdefTlv → s.cb.memTlvs = [])
  | .defaultLocks => s.cb.lockTlvs = [] → (s.attrSeg + 1) * rwT2tSegmentBytes ≤ s.cb.dataEnd

def AttrOp.asks : AttrOp → Option Nat
  | .query index | .lockTlv index _ | .memTlv index _ => some index
  | _ => none

/-- The byte that is asked for is a lock, an internal or a reserved byte just when the answer says so. -/
def Answered (s : AttrCb) (e : AttrStep) : Prop :=
  ∀ index ∈ e.op.asks, (askLockResByte (e.junk 0) s index).2 = s.cb.isLockResByte index

instance (s : AttrCb) (e : AttrStep) : Decidable (Answered s e) :=
  inferInstanceAs (Decidable (∀ index ∈ e.op.asks, _))

section Layout
variable {cb u : T2tCb} {i : Nat}

theorem isLockResByte_congr (hlock : u.lockOffsets = cb.lockOffsets) (hmem : u.memTlvs = cb.memTlvs) :
    u.isLockResByte i = cb.isLockResByte i := by
  unfold T2tCb.isLockResByte T2tCb.marked
  rw [hlock, hmem]

theorem lockOffsets_nil (h : cb.lockBytes = []) : cb.lockOffsets = [] := by
  unfold T2tCb.lockOffsets
  rw [h]
  rfl

theorem isLockResByte_resetTlvs {tlvType : UInt8}
    (hlock : tlvType = tagLockCtrlTlv ∨ tlvType = tagNdefTlv → cb.lockBytes = [])
    (hmem : tlvType = tagMemCtrlTlv ∨ tlvType = tagNdefTlv → cb.memTlvs = []) :
    (resetTlvs cb tlvType).isLockResByte i = cb.isLockResByte i := by
  unfold resetTlvs
  split_ifs with h₁ h₂ h₃
  · exact isLockResByte_congr (lockOffsets_nil (hlock (.inl h₁))).symm rfl
  · exact isLockResByte_congr rfl (hmem (.inl h₂)).symm
  · exact isLockResByte_congr (lockOffsets_nil (hlock (.inr h₃))).symm (hmem (.inr h₃)).symm
  · rfl

theorem isLockResByte_defaultLocks (hlock : cb.lockTlvs = [] → cb.lockBytes = [])
    (hi : cb.lockTlvs = [] → i < cb.dataEnd) :
    (extractDefaultLocksInfo cb).isLockResByte i = cb.isLockResByte i := by
  by_cases hnone : cb.lockTlvs = []
  · cases hmark : cb.isLockResByte i with
    | false => exact free_extractDefaultLocksInfo (hi hnone) hmark
    | true =>
      -- without lock bytes it is a reserved byte, which it stays
      have hmem : (extractDefaultLocksInfo cb).memTlvs = cb.memTlvs := by
        unfold extractDefaultLocksInfo
        split <;> rfl
      unfold T2tCb.isLockResByte T2tCb.marked at hmark ⊢
      rw [lockOffsets_nil (hlock hnone)] at hmark
      rw [hmem]
      simp only [List.contains_nil, Bool.false_or, List.getLast?_nil, Bool.or_false] at hmark
      rw [hmark, Bool.or_true, Bool.true_or]
  · unfold extractDefaultLocksInfo
    rw [if_neg fun h => hnone h.1]

theorem addLockTlv_lockBytes (v : ByteFn) : (addLockTlv cb v).lockBytes ≠ [] := by
  unfold addLockTlv
  dsimp only
  intro h
  have hlen := congrArg List.length h
  simp only [List.length_append, List.length_map, List.length_range, List.length_nil, rwT2tMaxLockBytes,
    tagBitsPerByte] at hlen
  split_ifs at hlen <;> omega

end Layout

structure AttrInv (s : AttrCb) : Prop where
  cached : Cached s
  tlv : s.cb.lockTlvs = [] → s.cb.lockBytes = []

section Runs
variable {s t : AttrCb} {e : AttrStep}

theorem answered_of_ok (hs : AttrInv s) (hok : AttrOk s e) : Answered s e := by
  obtain ⟨junk, op⟩ := e
  have hask : ∀ {index}, Askable s index → ∀ i ∈ some index, (askLockResByte (junk 0) s i).2 = s.cb.isLockResByte i := by
    intro index h i hi
    cases hi
    exact (askLockResByte_spec hs.cached h _).2.2.2
  cases op with
  | query index => exact hask hok
  | lockTlv index v => exact hask hok
  | memTlv index v => exact hask hok.1
  | response => exact nofun
  | locate tlvType => exact nofun
  | defaultLocks => exact nofun

theorem cached_decoded (hseg : s.attrSeg = s.segment) {u : T2tCb} {junk : Nat} (hjunk : Harmless junk u) :
    Cached (updateAttributes junk { s with cb := u }) := by
  intro i hi _
  have hmark := @marked_updateAttributes { s with cb := u } i junk hjunk hi
  rw [hmark]
  change _ = u.isLockResByte (s.attrSeg * rwT2tSegmentBytes + i)
  rw [hseg]

theorem attrStep_keeps (hs : AttrInv s) (hok : AttrOk s e) : ∃ t, attrStep s e = some t ∧ AttrInv t := by
  obtain ⟨hc, htlv⟩ := hs
  obtain ⟨junk, op⟩ := e
  cases op with
  | query index =>
    obtain ⟨hcb, -, hcached, -⟩ := askLockResByte_spec hc hok (junk 0)
    exact ⟨_, rfl, hcached, by rwa [hcb]⟩
  | lockTlv index v =>
    obtain ⟨hcb, hseg, hcached, -⟩ := askLockResByte_spec hc hok (junk 0)
    unfold attrStep
    dsimp only
    split
    · exact ⟨_, rfl, hcached, by rwa [hcb]⟩
    · refine ⟨_, rfl, cached_decoded hseg (harmless_of_lockBytes (addLockTlv_lockBytes v)), fun h => ?_⟩
      exact absurd h (List.append_ne_nil_of_right_ne_nil _ (List.cons_ne_nil _ _))
  | memTlv index v =>
    obtain ⟨hcb, hseg, hcached, -⟩ := askLockResByte_spec hc hok.1 (junk 0)
    have hlock : (addMemTlv (askLockResByte (junk 0) s index).1.cb v).lockBytes ≠ [] := by
      change (askLockResByte (junk 0) s index).1.cb.lockBytes ≠ []
      rw [hcb]
      exact hok.2
    unfold attrStep
    dsimp only
    split
    · exact ⟨_, rfl, hcached, by rwa [hcb]⟩
    · refine ⟨_, rfl, cached_decoded hseg (harmless_of_lockBytes hlock), fun h => absurd (htlv ?_) hok.2⟩
      rw [← hcb]
      exact h
  | response => exact ⟨_, rfl, hc, htlv⟩
  | locate tlvType =>
    refine ⟨_, rfl, fun i hi _ => ?_, fun h => ?_⟩
    · exact (hc i hi trivial).trans (isLockResByte_resetTlvs hok.1 hok.2).symm
    · change (resetTlvs s.cb tlvType).lockBytes = []
      change (resetTlvs s.cb tlvType).lockTlvs = [] at h
      unfold resetTlvs at h ⊢
      split_ifs at h ⊢ with h₁ h₂ h₃
      · rfl
      · exact htlv h
      · rfl
      · exact htlv h
  | defaultLocks =>
    refine ⟨_, rfl, fun i hi _ => ?_, fun h => ?_⟩
    · have hbefore : s.cb.lockTlvs = [] → s.attrSeg * rwT2tSegmentBytes + i < s.cb.dataEnd := fun h => by
        have hend := hok h
        rw [Nat.add_mul] at hend
        omega
      exact (hc i hi trivial).trans (isLockResByte_defaultLocks htlv hbefore).symm
    · change (extractDefaultLocksInfo s.cb).lockBytes = []
      change (extractDefaultLocksInfo s.cb).lockTlvs = [] at h
      unfold extractDefaultLocksInfo at h ⊢
      split_ifs at h ⊢
      exact htlv h

end Runs

theorem attrInv_activated (hdr : ByteFn) : AttrInv (attrActivated hdr) :=
  ⟨fun i _ _ => marked_zero i, fun _ => rfl⟩

theorem attributes_exact (hdr : ByteFn) {es : List AttrStep} (hok : StepsOk attrStep AttrOk (attrActivated hdr) es) :
    StepsOk attrStep Answered (attrActivated hdr) es := by
  refine @stepsOk_imp AttrCb AttrStep attrStep AttrOk Answered AttrInv (fun s e => answered_of_ok) ?_ es _
    (attrInv_activated hdr) hok
  intro s e t hs hokStep hst
  obtain ⟨u, hu, hinv⟩ := attrStep_keeps hs hokStep
  rw [hu] at hst
  exact Option.some.inj hst ▸ hinv

/-- The value of a control TLV, of 16 bits or bytes at address 32. -/
def tlvAt32 : ByteFn := fun i => [0x20, 16, 0x34].getD i 0

def hdr496 : ByteFn := fun i => if i = t2tCc2TmsByte then 0x3E else 0

/-- A run with lock bytes in front of the reserved ones. -/
theorem attributes_exact_32 : StepsOk attrStep Answered (attrActivated hdr496)
    [⟨fun _ => 0, .query 16⟩, ⟨fun _ => 0, .lockTlv 20 tlvAt32⟩, ⟨fun _ => 0, .defaultLocks⟩, ⟨fun _ => 0, .query 1000⟩,
      ⟨fun _ => 0, .query 34⟩] := by
  apply attributes_exact
  refine ⟨⟨by decide, fun _ => rfl⟩, fun t ht => ?_⟩
  cases ht
  refine ⟨⟨by decide, fun _ => rfl⟩, fun t ht => ?_⟩
  cases ht
  refine ⟨fun _ => by decide, fun t ht => ?_⟩
  cases ht
  refine ⟨⟨by decide, fun h => absurd h (by decide)⟩, fun t ht => ?_⟩
  cases ht
  exact ⟨⟨by decide, fun h => absurd h (by decide)⟩, fun _ _ => trivial⟩

/-- Reserved bytes without lock bytes: byte 17 is taken for one, if 16 was in the variable. And byte
32800 is taken for byte 32. -/
theorem free_byte_taken :
    ¬ StepsOk attrStep Answered (attrActivated hdr496) [⟨fun _ => 16, .memTlv 24 tlvAt32⟩, ⟨fun _ => 0, .query 17⟩] ∧
    ¬ StepsOk attrStep Answered (attrActivated hdr496) [⟨fun _ => 0, .lockTlv 20 tlvAt32⟩, ⟨fun _ => 0, .query 32800⟩] := by
  constructor
  · intro h
    have hanswer := (h.2 _ rfl).1
    exact absurd hanswer (by decide)
  · intro h
    have hanswer := (h.2 _ rfl).1
    exact absurd hanswer (by decide)

end NfcStack.Rw
