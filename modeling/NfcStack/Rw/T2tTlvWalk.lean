import NfcStack.Rw.T2tDetect

/- The search for the NDEF TLV of a Type 2 tag (`rw_t2t_handle_tlv_detect_rsp`) against the
   grammar of the data area. The grammar is a walk over the whole memory: the TLVs are
   read one behind the other, each from the bytes that those before it have not set aside.
   The search goes byte by byte and keeps in a substate how far it is within a TLV. Here it
   is given the whole memory at once.

   What is proved:
     1. `searchFrom_eq`: the search goes from one free byte to the next.
     2. `searchFrom_tlv`: what it does with one TLV is what the walk does.
     3. `searchFrom_walk`: the search of the whole area ends as the walk does. -/
namespace NfcStack.Rw

/-! ## The grammar -/

/-- The bytes that the control TLVs set aside: lock bytes in their order, and reserved areas. -/
structure Layout where
  locks : List Nat
  reserved : List ResInfo
  deriving DecidableEq, Repr

namespace Layout

/-- A lock byte, a reserved byte, or a byte that completes the block of the last lock byte. -/
def taken (l : Layout) (a : Nat) : Bool :=
  l.locks.contains a || (l.reserved.any fun r => r.offsets.contains a) ||
    match l.locks.getLast? with
    | some x => (internalOffsets x).contains a
    | none => false

/-- The first byte from `a` on, in front of `e`, that is not set aside. -/
def nextFree (l : Layout) (e a : Nat) : Option Nat :=
  (List.range' a (e - a)).find? fun x => !l.taken x

/-- The next `n` such bytes, and the address behind them. -/
def take (l : Layout) (e : Nat) : Nat → Nat → Option (List Nat × Nat)
  | 0, a => some ([], a)
  | n + 1, a =>
    match l.nextFree e a with
    | none => none
    | some x => (l.take e n (x + 1)).map fun r => (x :: r.1, r.2)

/-- The length field of an NDEF or a proprietary TLV, of one byte or of three: its first byte, the
length, and the address behind it. -/
def lenField (l : Layout) (mem : ByteFn) (e a : Nat) : Option (Nat × Nat × Nat) :=
  match l.nextFree e a with
  | none => none
  | some h =>
    if mem h = t2tLongNdefLenFieldByte0 then
      (l.take e 2 (h + 1)).map fun r =>
        (h, (mem (r.1.getD 0 0)).toNat * 2 ^ 8 + (mem (r.1.getD 1 0)).toNat, r.2)
    else some (h, (mem h).toNat, h + 1)

/-- The value of a control TLV, which has three bytes, and the address behind it. -/
def ctrlValue (l : Layout) (mem : ByteFn) (e a : Nat) : Option (ByteFn × Nat) :=
  match l.nextFree e a with
  | none => none
  | some h =>
    if (mem h).toNat = tagDefaultTlvLen then
      (l.take e 3 (h + 1)).map fun r => (fun i => mem (r.1.getD i 0), r.2)
    else none

end Layout

def lockArea (v : ByteFn) : List Nat :=
  let bits := if (v 1).toNat = 0 then rwT2tMaxLockBytes * tagBitsPerByte else (v 1).toNat
  (List.range ((bits + 7) / 8)).map fun i => (tlvAddress v + i) % 2 ^ 16

def reservedArea (v : ByteFn) : ResInfo :=
  ⟨tlvAddress v, if (v 1).toNat = 0 then rwT2tMaxLockBytes * tagBitsPerByte else (v 1).toNat⟩

inductive Met where
  | next (l : Layout) (a : Nat)
  | ndef (l : Layout) (header len msg : Nat)
  | ended
  | emptyProprietary
  deriving DecidableEq, Repr

def walkNdef (mem : ByteFn) (e : Nat) (l : Layout) (a : Nat) : Met :=
  match l.lenField mem e a with
  | none => .ended
  | some (h, len, b) =>
    match l.nextFree e b with
    | none => .ended
    | some msg => .ndef l h len msg

/-- Behind the type of a lock control TLV. With `limits` there is room for one of them. -/
def walkLock (limits : Bool) (mem : ByteFn) (e : Nat) (l : Layout) (a : Nat) : Met :=
  match l.ctrlValue mem e a with
  | none => .ended
  | some (v, b) =>
    if limits ∧ l.locks ≠ [] then .ended else .next { l with locks := l.locks ++ lockArea v } b

/-- Behind the type of a memory control TLV. With `limits` there is room for five of them. -/
def walkMem (limits : Bool) (mem : ByteFn) (e : Nat) (l : Layout) (a : Nat) : Met :=
  match l.ctrlValue mem e a with
  | none => .ended
  | some (v, b) =>
    if limits ∧ l.reserved.length ≥ rwT2tMaxMemTlvs then .ended
    else .next { l with reserved := l.reserved ++ [reservedArea v] } b

/-- Behind the type of a proprietary TLV. With `limits` one without a value is told apart. -/
def walkProprietary (limits : Bool) (mem : ByteFn) (e : Nat) (l : Layout) (a : Nat) : Met :=
  match l.lenField mem e a with
  | none => .ended
  | some (_, len, b) =>
    if limits ∧ len = 0 then .emptyProprietary
    else
      match l.take e len b with
      | none => .ended
      | some (_, b) => .next l b

def walkTlv (limits : Bool) (mem : ByteFn) (e : Nat) (l : Layout) (a : Nat) : Met :=
  match l.nextFree e a with
  | none => .ended
  | some t =>
    if mem t = tagNullTlv then .next l (t + 1)
    else if mem t = tagNdefTlv then walkNdef mem e l (t + 1)
    else if mem t = tagLockCtrlTlv then walkLock limits mem e l (t + 1)
    else if mem t = tagMemCtrlTlv then walkMem limits mem e l (t + 1)
    else if mem t = tagProprietaryTlv then walkProprietary limits mem e l (t + 1)
    else .ended

/-- The TLVs one behind the other, of which there are at most `n`. -/
def walk (limits : Bool) (mem : ByteFn) (e : Nat) : Nat → Layout → Nat → Met
  | 0, _, _ => .ended
  | n + 1, l, a =>
    match walkTlv limits mem e l a with
    | .next l a => walk limits mem e n l a
    | m => m

def walkArea (limits : Bool) (mem : ByteFn) (e : Nat) : Met :=
  walk limits mem e (e + 1) ⟨[], []⟩ t2tHeaderSize

/-! ## Free bytes -/

namespace Layout
variable {l : Layout} {e a x : Nat}

theorem nextFree_none_of_le (h : e ≤ a) : l.nextFree e a = none := by
  rw [nextFree, Nat.sub_eq_zero_of_le h]
  rfl

theorem nextFree_of_free (h : a < e) (hfree : l.taken a = false) : l.nextFree e a = some a := by
  obtain ⟨n, hn⟩ : ∃ n, e - a = n + 1 := ⟨e - a - 1, by omega⟩
  simp [nextFree, hn, List.range'_succ, hfree]

theorem nextFree_of_taken (h : a < e) (htaken : l.taken a = true) :
    l.nextFree e a = l.nextFree e (a + 1) := by
  obtain ⟨n, hn⟩ : ∃ n, e - a = n + 1 := ⟨e - a - 1, by omega⟩
  have hn' : e - (a + 1) = n := by omega
  simp [nextFree, hn, hn', List.range'_succ, htaken]

theorem nextFree_bounds (h : l.nextFree e a = some x) : a ≤ x ∧ x < e ∧ l.taken x = false := by
  have hmem := List.mem_of_find?_eq_some h
  have hfree := List.find?_some h
  rw [List.mem_range'_1] at hmem
  exact ⟨hmem.1, by omega, by simpa using hfree⟩

theorem take_bounds {n : Nat} : ∀ {a : Nat} {r : List Nat × Nat}, l.take e n a = some r → a ≤ e →
    a ≤ r.2 ∧ r.2 ≤ e := by
  induction n with
  | zero =>
    intro a r h ha
    cases h
    exact ⟨Nat.le_refl a, ha⟩
  | succ n ih =>
    intro a r h ha
    rw [take] at h
    cases hx : l.nextFree e a with
    | none => simp [hx] at h
    | some x =>
      obtain ⟨hax, hxe, -⟩ := nextFree_bounds hx
      simp only [hx, Option.map_eq_some_iff] at h
      obtain ⟨q, hq, rfl⟩ := h
      have := ih hq (by omega)
      exact ⟨by omega, this.2⟩

end Layout

/-! ## The search over the memory -/

def T2tCb.layout (cb : T2tCb) : Layout := ⟨cb.lockOffsets, cb.memTlvs⟩

theorem isLockResByte_layout (cb : T2tCb) (a : Nat) : cb.isLockResByte a = cb.layout.taken a := rfl

/-- The search from `a` on, as if all bytes in front of `e` came in one response. -/
def searchFrom (mem : ByteFn) (e : Nat) (cb : T2tCb) (a : Nat) : T2tCb × Search :=
  detectLoop mem (e - a) cb a

section Search
variable {mem : ByteFn} {e a : Nat} {cb u : T2tCb}

theorem searchFrom_eq (hwork : cb.workOffset = 0) :
    searchFrom mem e cb a =
      match cb.layout.nextFree e a with
      | none => (cb, .go)
      | some x =>
        match detectByte cb mem x with
        | (u, .go) => searchFrom mem e u (x + 1)
        | r => r := by
  unfold searchFrom
  induction hn : e - a generalizing a with
  | zero =>
    rw [Layout.nextFree_none_of_le (by omega)]
    rfl
  | succ n ih =>
    have hn' : e - (a + 1) = n := by omega
    rw [detectLoop, hwork, Nat.zero_add, isLockResByte_layout]
    by_cases htaken : cb.layout.taken a = true
    · rw [if_pos htaken, Layout.nextFree_of_taken (by omega) htaken]
      exact ih hn'
    · rw [if_neg htaken, Layout.nextFree_of_free (by omega) (by simpa using htaken)]
      dsimp only
      subst hn'
      cases detectByte cb mem a with
      | mk u search => cases search <;> rfl

/-- The search goes on at the type of a TLV, with that layout. -/
structure AtTlv (hdr : ByteFn) (l : Layout) (cb : T2tCb) : Prop where
  sub : cb.substate = .waitTlvDetect
  work : cb.workOffset = 0
  layout : cb.layout = l
  hdr : cb.tagHdr = hdr
  tlv : cb.lockTlvs = [] → cb.lockBytes = []

structure AtNdef (hdr : ByteFn) (l : Layout) (header len msg : Nat) (cb : T2tCb) : Prop where
  layout : cb.layout = l
  hdr : cb.tagHdr = hdr
  tlv : cb.lockTlvs = [] → cb.lockBytes = []
  header : cb.ndefHeaderOffset = header
  len : cb.ndefMsgLen = len
  msg : cb.ndefMsgOffset = msg

def Does (mem : ByteFn) (e : Nat) (cb : T2tCb) (a : Nat) : Met → Prop
  | .next l b => ∃ v, searchFrom mem e cb a = searchFrom mem e v b ∧ AtTlv cb.tagHdr l v
  | .ndef l header len msg =>
    ∃ v, searchFrom mem e cb a = (v, .found) ∧ AtNdef cb.tagHdr l header len msg v
  | .ended => (searchFrom mem e cb a).2 ≠ .found
  | .emptyProprietary => (searchFrom mem e cb a).2 ≠ .found

structure SameTag (cb u : T2tCb) : Prop where
  work : u.workOffset = cb.workOffset
  lockTlvs : u.lockTlvs = cb.lockTlvs
  lockBytes : u.lockBytes = cb.lockBytes
  memTlvs : u.memTlvs = cb.memTlvs
  hdr : u.tagHdr = cb.tagHdr
  found : u.foundTlv = cb.foundTlv

theorem SameTag.layout (h : SameTag cb u) : u.layout = cb.layout := by
  simp only [T2tCb.layout, T2tCb.lockOffsets, h.lockTlvs, h.lockBytes, h.memTlvs]

theorem SameTag.trans {v : T2tCb} (h₁ : SameTag cb u) (h₂ : SameTag u v) : SameTag cb v where
  work := h₂.work.trans h₁.work
  lockTlvs := h₂.lockTlvs.trans h₁.lockTlvs
  lockBytes := h₂.lockBytes.trans h₁.lockBytes
  memTlvs := h₂.memTlvs.trans h₁.memTlvs
  hdr := h₂.hdr.trans h₁.hdr
  found := h₂.found.trans h₁.found

theorem searchFrom_go {x : Nat} (hwork : cb.workOffset = 0) (hx : cb.layout.nextFree e a = some x)
    (hbyte : detectByte cb mem x = (u, .go)) : searchFrom mem e cb a = searchFrom mem e u (x + 1) := by
  rw [searchFrom_eq hwork, hx]
  dsimp only
  rw [hbyte]

theorem searchFrom_none (hwork : cb.workOffset = 0) (hx : cb.layout.nextFree e a = none) :
    searchFrom mem e cb a = (cb, .go) := by
  rw [searchFrom_eq hwork, hx]

theorem searchFrom_end {x : Nat} (hwork : cb.workOffset = 0) (hx : cb.layout.nextFree e a = some x)
    {s : Search} (hs : s ≠ .go) (hbyte : detectByte cb mem x = (u, s)) : searchFrom mem e cb a = (u, s) := by
  rw [searchFrom_eq hwork, hx]
  dsimp only
  rw [hbyte]
  cases s with
  | go => exact absurd rfl hs
  | failed => rfl
  | found => rfl

/-! ## Within a TLV -/

/-- The search stands in the value of a TLV, of which `n` bytes are left. -/
structure InValue (cb : T2tCb) (n : Nat) (u : T2tCb) : Prop where
  same : SameTag cb u
  sub : u.substate = .waitReadTlvValue
  count : u.bytesCount = n

def Sized (cb : T2tCb) : Prop := cb.foundTlv = tagNdefTlv ∨ cb.foundTlv = tagProprietaryTlv

theorem Sized.not_ctrl (h : Sized cb) : ¬(cb.foundTlv = tagLockCtrlTlv ∨ cb.foundTlv = tagMemCtrlTlv) := by
  rcases h with h | h
  · rw [h]
    decide
  · rw [h]
    decide

variable {x : Nat}

theorem detectByte_short (hwork : cb.workOffset = 0) (hsub : cb.substate = .waitFindLenFieldLen)
    (hlong : mem x ≠ t2tLongNdefLenFieldByte0) :
    ∃ u, detectByte cb mem x = (u, .go) ∧ InValue cb (mem x).toNat u ∧
      (cb.foundTlv = tagNdefTlv → u.ndefHeaderOffset = x ∧ u.ndefMsgLen = (mem x).toNat) := by
  rw [detectByte, hsub]
  dsimp only
  unfold findLenFieldLen
  dsimp only
  by_cases hf : cb.foundTlv = tagNdefTlv
  · rw [if_pos hf, if_neg hlong]
    refine ⟨_, rfl, ⟨⟨rfl, rfl, rfl, rfl, rfl, rfl⟩, rfl, rfl⟩, fun _ => ⟨?_, rfl⟩⟩
    simp [hwork]
  · rw [if_neg hf, if_neg hlong]
    exact ⟨_, rfl, ⟨⟨rfl, rfl, rfl, rfl, rfl, rfl⟩, rfl, rfl⟩, fun h => absurd h hf⟩

theorem detectByte_long (hwork : cb.workOffset = 0) (hsub : cb.substate = .waitFindLenFieldLen)
    (hlong : mem x = t2tLongNdefLenFieldByte0) :
    ∃ u, detectByte cb mem x = (u, .go) ∧ SameTag cb u ∧ u.substate = .waitReadTlvLen0 ∧
      (cb.foundTlv = tagNdefTlv → u.ndefHeaderOffset = x) := by
  rw [detectByte, hsub]
  dsimp only
  unfold findLenFieldLen
  dsimp only
  by_cases hf : cb.foundTlv = tagNdefTlv
  · rw [if_pos hf, if_pos hlong]
    exact ⟨_, rfl, ⟨rfl, rfl, rfl, rfl, rfl, rfl⟩, rfl, fun _ => by simp [hwork]⟩
  · rw [if_neg hf, if_pos hlong]
    exact ⟨_, rfl, ⟨rfl, rfl, rfl, rfl, rfl, rfl⟩, rfl, fun h => absurd h hf⟩

theorem detectByte_len0 (hsub : cb.substate = .waitReadTlvLen0) (hsized : Sized cb) :
    ∃ u, detectByte cb mem x = (u, .go) ∧ SameTag cb u ∧ u.substate = .waitReadTlvLen1 ∧
      u.bytesCount = (mem x).toNat ∧ u.ndefHeaderOffset = cb.ndefHeaderOffset := by
  rw [detectByte, hsub]
  dsimp only
  unfold readTlvLen0
  rw [if_neg hsized.not_ctrl]
  exact ⟨_, rfl, ⟨rfl, rfl, rfl, rfl, rfl, rfl⟩, rfl, rfl, rfl⟩

theorem detectByte_len1 (hsub : cb.substate = .waitReadTlvLen1) (hcount : cb.bytesCount < 2 ^ 8) :
    ∃ u, detectByte cb mem x = (u, .go) ∧ InValue cb (cb.bytesCount * 2 ^ 8 + (mem x).toNat) u ∧
      u.ndefHeaderOffset = cb.ndefHeaderOffset ∧
      (cb.foundTlv = tagNdefTlv → u.ndefMsgLen = cb.bytesCount * 2 ^ 8 + (mem x).toNat) := by
  have hlt := (mem x).toNat_lt
  have hmod : (cb.bytesCount * 2 ^ 8 + (mem x).toNat) % 2 ^ 16 = cb.bytesCount * 2 ^ 8 + (mem x).toNat :=
    Nat.mod_eq_of_lt (by omega)
  rw [detectByte, hsub]
  dsimp only
  unfold readTlvLen1
  dsimp only
  rw [hmod]
  exact ⟨_, rfl, ⟨⟨rfl, rfl, rfl, rfl, rfl, rfl⟩, rfl, rfl⟩, rfl, fun h => if_pos h⟩

theorem searchFrom_lenField (hwork : cb.workOffset = 0) (hsub : cb.substate = .waitFindLenFieldLen)
    (hsized : Sized cb) :
    match cb.layout.lenField mem e a with
    | none => (searchFrom mem e cb a).2 ≠ .found
    | some (h, len, b) => ∃ v, searchFrom mem e cb a = searchFrom mem e v b ∧ InValue cb len v ∧
        (cb.foundTlv = tagNdefTlv → v.ndefHeaderOffset = h ∧ v.ndefMsgLen = len) := by
  unfold Layout.lenField
  cases hx : cb.layout.nextFree e a with
  | none =>
    rw [searchFrom_none hwork hx]
    nofun
  | some h =>
    dsimp only
    by_cases hlong : mem h = t2tLongNdefLenFieldByte0
    · rw [if_pos hlong]
      obtain ⟨u, hbyte, hsame, husub, hheader⟩ := detectByte_long hwork hsub hlong
      rw [searchFrom_go hwork hx hbyte]
      have huwork : u.workOffset = 0 := hsame.work.trans hwork
      have husized : Sized u := by
        unfold Sized
        rwa [hsame.found]
      simp only [Layout.take]
      rw [← hsame.layout]
      cases hx₁ : u.layout.nextFree e (h + 1) with
      | none =>
        rw [searchFrom_none huwork hx₁]
        nofun
      | some x₁ =>
        obtain ⟨v, hbyte₁, hsame₁, hvsub, hcount, hheader₁⟩ := @detectByte_len0 mem u x₁ husub husized
        rw [searchFrom_go huwork hx₁ hbyte₁]
        have hvwork : v.workOffset = 0 := hsame₁.work.trans huwork
        dsimp only
        rw [← hsame₁.layout]
        cases hx₂ : v.layout.nextFree e (x₁ + 1) with
        | none =>
          rw [searchFrom_none hvwork hx₂]
          nofun
        | some x₂ =>
          obtain ⟨w, hbyte₂, hin, hheader₂, hlen⟩ := @detectByte_len1 mem v x₂ hvsub
            (by rw [hcount]; exact (mem x₁).toNat_lt)
          rw [searchFrom_go hvwork hx₂ hbyte₂]
          rw [hcount] at hin hlen
          refine ⟨w, rfl, ⟨(hsame.trans hsame₁).trans hin.same, hin.sub, hin.count⟩, fun hf => ⟨?_, ?_⟩⟩
          · rw [hheader₂, hheader₁]
            exact hheader hf
          · apply hlen
            rw [hsame₁.found, hsame.found, hf]
    · rw [if_neg hlong]
      obtain ⟨u, hbyte, hin, hndef⟩ := detectByte_short hwork hsub hlong
      rw [searchFrom_go hwork hx hbyte]
      exact ⟨u, rfl, hin, hndef⟩

theorem detectByte_prop {n : Nat} (hsub : cb.substate = .waitReadTlvValue)
    (hfound : cb.foundTlv = tagProprietaryTlv) (hcount : cb.bytesCount = n + 1) :
    ∃ u, detectByte cb mem x = (u, .go) ∧ SameTag cb u ∧ u.bytesCount = n ∧
      u.substate = if n = 0 then .waitTlvDetect else .waitReadTlvValue := by
  rw [detectByte, hsub]
  dsimp only
  unfold readTlvValue
  rw [hfound, hcount, if_neg (by decide), if_neg (Nat.succ_ne_zero n)]
  dsimp only
  rw [if_neg (by decide), if_neg (by decide), Nat.add_sub_cancel]
  by_cases hn : n = 0
  · rw [if_pos hn, if_pos hn]
    exact ⟨_, rfl, ⟨rfl, rfl, rfl, rfl, rfl, hfound.symm⟩, rfl, rfl⟩
  · rw [if_neg hn, if_neg hn]
    exact ⟨_, rfl, ⟨rfl, rfl, rfl, rfl, rfl, hfound.symm⟩, rfl, hsub⟩

theorem detectByte_empty (hsub : cb.substate = .waitReadTlvValue) (hfound : cb.foundTlv = tagProprietaryTlv)
    (hcount : cb.bytesCount = 0) : (detectByte cb mem x).2 = .failed := by
  rw [detectByte, hsub]
  dsimp only
  unfold readTlvValue
  rw [hfound, if_neg (by decide), if_pos hcount]

theorem searchFrom_skip (n : Nat) : ∀ {cb : T2tCb} {a : Nat}, cb.workOffset = 0 →
    cb.substate = .waitReadTlvValue → cb.foundTlv = tagProprietaryTlv → cb.bytesCount = n + 1 →
    match cb.layout.take e (n + 1) a with
    | none => (searchFrom mem e cb a).2 ≠ .found
    | some (_, b) => ∃ v, searchFrom mem e cb a = searchFrom mem e v b ∧ SameTag cb v ∧
        v.substate = .waitTlvDetect := by
  induction n with
  | zero =>
    intro cb a hwork hsub hfound hcount
    simp only [Layout.take]
    cases hx : cb.layout.nextFree e a with
    | none =>
      rw [searchFrom_none hwork hx]
      nofun
    | some x =>
      obtain ⟨u, hbyte, hsame, -, husub⟩ := @detectByte_prop mem cb x 0 hsub hfound hcount
      exact ⟨u, searchFrom_go hwork hx hbyte, hsame, husub⟩
  | succ n ih =>
    intro cb a hwork hsub hfound hcount
    rw [Layout.take]
    cases hx : cb.layout.nextFree e a with
    | none =>
      rw [searchFrom_none hwork hx]
      nofun
    | some x =>
      obtain ⟨u, hbyte, hsame, hucount, husub⟩ := @detectByte_prop mem cb x (n + 1) hsub hfound hcount
      rw [if_neg (Nat.succ_ne_zero n)] at husub
      rw [searchFrom_go hwork hx hbyte]
      have hrest := @ih u (x + 1) (hsame.work.trans hwork) husub (hsame.found.trans hfound) hucount
      rw [hsame.layout] at hrest
      dsimp only
      cases ht : cb.layout.take e (n + 1) (x + 1) with
      | none =>
        rw [ht] at hrest
        exact hrest
      | some r =>
        rw [ht] at hrest
        obtain ⟨v, heq, hsame', hvsub⟩ := hrest
        exact ⟨v, heq, hsame.trans hsame', hvsub⟩

def Collects (cb : T2tCb) : Prop :=
  cb.foundTlv = tagLockCtrlTlv ∧ cb.lockBytes = [] ∨ cb.foundTlv = tagMemCtrlTlv

theorem Collects.ne_ndef (h : Collects cb) : cb.foundTlv ≠ tagNdefTlv := by
  rcases h with ⟨h, -⟩ | h
  · rw [h]
    decide
  · rw [h]
    decide

theorem detectByte_collect {n : Nat} (hsub : cb.substate = .waitReadTlvValue) (hcol : Collects cb)
    (hcount : cb.bytesCount = n + 1) (hn : n ≠ 0) :
    ∃ u, detectByte cb mem x = (u, .go) ∧ InValue cb n u ∧
      u.tlvValue = Function.update cb.tlvValue (2 - n) (mem x) := by
  rw [detectByte, hsub]
  dsimp only
  unfold readTlvValue
  rw [if_neg hcol.ne_ndef, if_neg (by omega)]
  dsimp only
  rcases hcol with ⟨hf, hlock⟩ | hf
  · rw [if_pos hf, if_neg (not_not.mpr hlock), hcount, Nat.add_sub_cancel]
    refine ⟨_, Prod.ext (if_neg hn) rfl, ⟨⟨rfl, rfl, rfl, rfl, rfl, rfl⟩, hsub, rfl⟩, rfl⟩
  · rw [if_neg (by rw [hf]; decide), if_pos hf, hcount, Nat.add_sub_cancel]
    exact ⟨_, if_pos hn, ⟨⟨rfl, rfl, rfl, rfl, rfl, rfl⟩, hsub, rfl⟩, rfl⟩

theorem detectByte_lock (hsub : cb.substate = .waitReadTlvValue) (hf : cb.foundTlv = tagLockCtrlTlv)
    (hlock : cb.lockBytes = []) (hcount : cb.bytesCount = 1) :
    ∃ u, detectByte cb mem x = (addLockTlv u u.tlvValue, .go) ∧ SameTag cb u ∧
      u.tlvValue = Function.update cb.tlvValue 2 (mem x) := by
  rw [detectByte, hsub]
  dsimp only
  unfold readTlvValue
  rw [if_neg (by rw [hf]; decide), if_neg (by omega)]
  dsimp only
  rw [if_pos hf, if_neg (not_not.mpr hlock), hcount]
  have hzero : (({ cb with bytesCount := 1 - 1 } : T2tCb).collect (mem x)).bytesCount = 0 := rfl
  rw [if_pos hzero]
  exact ⟨_, rfl, ⟨rfl, rfl, rfl, rfl, rfl, rfl⟩, rfl⟩

theorem detectByte_mem (hsub : cb.substate = .waitReadTlvValue) (hf : cb.foundTlv = tagMemCtrlTlv)
    (hcount : cb.bytesCount = 1) (hroom : cb.memTlvs.length < rwT2tMaxMemTlvs) :
    ∃ u, detectByte cb mem x = (addMemTlv u u.tlvValue, .go) ∧ SameTag cb u ∧
      u.tlvValue = Function.update cb.tlvValue 2 (mem x) := by
  rw [detectByte, hsub]
  dsimp only
  unfold readTlvValue
  rw [if_neg (by rw [hf]; decide), if_neg (by omega)]
  dsimp only
  rw [if_neg (by rw [hf]; decide), if_pos hf, hcount]
  have hzero : (({ cb with bytesCount := 1 - 1 } : T2tCb).collect (mem x)).bytesCount = 0 := rfl
  have hroom' : ¬(({ cb with bytesCount := 1 - 1 } : T2tCb).collect (mem x)).memTlvs.length
      ≥ rwT2tMaxMemTlvs := Nat.not_le.mpr hroom
  rw [if_neg (not_not.mpr hzero), if_neg hroom']
  exact ⟨_, rfl, ⟨rfl, rfl, rfl, rfl, rfl, rfl⟩, rfl⟩

/-- A second lock control TLV, and a memory control TLV for which there is no room. -/
theorem detectByte_lock_again (hsub : cb.substate = .waitReadTlvValue) (hf : cb.foundTlv = tagLockCtrlTlv)
    (hlock : cb.lockBytes ≠ []) (hcount : cb.bytesCount = 3) : (detectByte cb mem x).2 = .failed := by
  rw [detectByte, hsub]
  dsimp only
  unfold readTlvValue
  rw [if_neg (by rw [hf]; decide), if_neg (by omega)]
  dsimp only
  rw [if_pos hf, if_pos hlock]

theorem detectByte_mem_full (hsub : cb.substate = .waitReadTlvValue) (hf : cb.foundTlv = tagMemCtrlTlv)
    (hcount : cb.bytesCount = 1) (hroom : cb.memTlvs.length ≥ rwT2tMaxMemTlvs) :
    (detectByte cb mem x).2 = .failed := by
  rw [detectByte, hsub]
  dsimp only
  unfold readTlvValue
  rw [if_neg (by rw [hf]; decide), if_neg (by omega)]
  dsimp only
  rw [if_neg (by rw [hf]; decide), if_pos hf, hcount]
  have hzero : (({ cb with bytesCount := 1 - 1 } : T2tCb).collect (mem x)).bytesCount = 0 := rfl
  have hroom' : (({ cb with bytesCount := 1 - 1 } : T2tCb).collect (mem x)).memTlvs.length
      ≥ rwT2tMaxMemTlvs := hroom
  rw [if_neg (not_not.mpr hzero), if_pos hroom']

theorem searchFrom_failed (hwork : cb.workOffset = 0) (hx : cb.layout.nextFree e a = some x)
    (hbyte : (detectByte cb mem x).2 = .failed) : (searchFrom mem e cb a).2 ≠ .found := by
  cases hr : detectByte cb mem x with
  | mk u s =>
    rw [hr] at hbyte
    dsimp only at hbyte
    subst hbyte
    have hend : searchFrom mem e cb a = (u, .failed) :=
      searchFrom_end hwork hx (s := .failed) nofun hr
    rw [hend]
    nofun

/-- The two first bytes of the value of a control TLV, and the place of the third. -/
theorem searchFrom_collect (hwork : cb.workOffset = 0) (hsub : cb.substate = .waitReadTlvValue)
    (hcol : Collects cb) (hcount : cb.bytesCount = 3) :
    match cb.layout.take e 3 a with
    | none => (searchFrom mem e cb a).2 ≠ .found
    | some r => ∃ w y x, searchFrom mem e cb a = searchFrom mem e w y ∧ w.layout.nextFree e y = some x ∧
        r.2 = x + 1 ∧ InValue cb 1 w ∧
        ∀ i < 3, Function.update w.tlvValue 2 (mem x) i = mem (r.1.getD i 0) := by
  simp only [Layout.take]
  cases hx₁ : cb.layout.nextFree e a with
  | none =>
    rw [searchFrom_none hwork hx₁]
    nofun
  | some x₁ =>
    obtain ⟨u, hbyte₁, hin₁, hval₁⟩ := @detectByte_collect mem cb x₁ 2 hsub hcol hcount nofun
    rw [searchFrom_go hwork hx₁ hbyte₁]
    have huwork : u.workOffset = 0 := hin₁.same.work.trans hwork
    have hucol : Collects u := by
      unfold Collects
      rwa [hin₁.same.found, hin₁.same.lockBytes]
    dsimp only
    rw [← hin₁.same.layout]
    cases hx₂ : u.layout.nextFree e (x₁ + 1) with
    | none =>
      rw [searchFrom_none huwork hx₂]
      nofun
    | some x₂ =>
      obtain ⟨w, hbyte₂, hin₂, hval₂⟩ := @detectByte_collect mem u x₂ 1 hin₁.sub hucol hin₁.count nofun
      rw [searchFrom_go huwork hx₂ hbyte₂]
      have hwwork : w.workOffset = 0 := hin₂.same.work.trans huwork
      dsimp only
      rw [← hin₂.same.layout]
      cases hx₃ : w.layout.nextFree e (x₂ + 1) with
      | none =>
        rw [searchFrom_none hwwork hx₃]
        nofun
      | some x₃ =>
        refine ⟨w, x₂ + 1, x₃, rfl, hx₃, rfl, ⟨hin₁.same.trans hin₂.same, hin₂.sub, hin₂.count⟩, ?_⟩
        intro i hi
        rw [hval₂, hval₁]
        interval_cases i
        · rfl
        · rfl
        · rfl

theorem detectByte_ctrlLen (hsub : cb.substate = .waitReadTlvLen0)
    (hctrl : cb.foundTlv = tagLockCtrlTlv ∨ cb.foundTlv = tagMemCtrlTlv) :
    if (mem x).toNat = tagDefaultTlvLen then ∃ u, detectByte cb mem x = (u, .go) ∧ InValue cb 3 u
    else (detectByte cb mem x).2 = .failed := by
  rw [detectByte, hsub]
  dsimp only
  unfold readTlvLen0
  rw [if_pos hctrl]
  split
  · exact ⟨_, rfl, ⟨rfl, rfl, rfl, rfl, rfl, rfl⟩, rfl, rfl⟩
  · rfl

theorem lockArea_congr {v w : ByteFn} (h : ∀ i < 3, v i = w i) : lockArea v = lockArea w := by
  unfold lockArea tlvAddress
  rw [h 0 (by omega), h 1 (by omega), h 2 (by omega)]

theorem reservedArea_congr {v w : ByteFn} (h : ∀ i < 3, v i = w i) : reservedArea v = reservedArea w := by
  unfold reservedArea tlvAddress
  rw [h 0 (by omega), h 1 (by omega), h 2 (by omega)]

theorem layout_addLockTlv (hlock : cb.lockBytes = []) (v : ByteFn) :
    (addLockTlv cb v).layout = { cb.layout with locks := cb.layout.locks ++ lockArea v } := by
  have hlt := (v 1).toNat_lt
  have hcount : ∀ bits : Nat, bits ≤ 256 →
      min (bits / tagBitsPerByte + if bits % tagBitsPerByte ≠ 0 then 1 else 0) rwT2tMaxLockBytes
        = (bits + 7) / 8 := by
    intro bits hbits
    simp only [tagBitsPerByte, rwT2tMaxLockBytes]
    split_ifs <;> omega
  unfold addLockTlv T2tCb.layout T2tCb.lockOffsets lockArea
  dsimp only
  have hbits : (if (v 1).toNat = 0 then rwT2tMaxLockBytes * tagBitsPerByte else (v 1).toNat) ≤ 256 := by
    split
    · decide
    · omega
  rw [hlock, List.nil_append, List.map_nil, List.nil_append, hcount _ hbits, List.map_map]
  congr 1
  apply List.map_congr_left
  intro i _
  simp

theorem layout_addMemTlv (v : ByteFn) :
    (addMemTlv cb v).layout = { cb.layout with reserved := cb.layout.reserved ++ [reservedArea v] } := rfl

theorem locks_nil_iff : cb.layout.locks = [] ↔ cb.lockBytes = [] := List.map_eq_nil_iff

theorem searchFrom_ctrlLen (hwork : cb.workOffset = 0) (hsub : cb.substate = .waitReadTlvLen0)
    (hctrl : cb.foundTlv = tagLockCtrlTlv ∨ cb.foundTlv = tagMemCtrlTlv) :
    (cb.layout.ctrlValue mem e a = none ∧ (searchFrom mem e cb a).2 ≠ .found) ∨
    ∃ u h, InValue cb 3 u ∧ searchFrom mem e cb a = searchFrom mem e u (h + 1) ∧
      cb.layout.ctrlValue mem e a =
        (u.layout.take e 3 (h + 1)).map fun r => (fun i => mem (r.1.getD i 0), r.2) := by
  unfold Layout.ctrlValue
  cases hx : cb.layout.nextFree e a with
  | none =>
    left
    rw [searchFrom_none hwork hx]
    exact ⟨rfl, nofun⟩
  | some h =>
    have hbyte := @detectByte_ctrlLen mem cb h hsub hctrl
    dsimp only
    by_cases hlen : (mem h).toNat = tagDefaultTlvLen
    · rw [if_pos hlen] at hbyte ⊢
      obtain ⟨u, hgo, hin⟩ := hbyte
      right
      refine ⟨u, h, hin, searchFrom_go hwork hx hgo, ?_⟩
      rw [hin.same.layout]
    · rw [if_neg hlen] at hbyte ⊢
      left
      exact ⟨rfl, searchFrom_failed hwork hx hbyte⟩

theorem searchFrom_lockTlv (hwork : cb.workOffset = 0) (hsub : cb.substate = .waitReadTlvLen0)
    (hf : cb.foundTlv = tagLockCtrlTlv) :
    match cb.layout.ctrlValue mem e a with
    | none => (searchFrom mem e cb a).2 ≠ .found
    | some (v, b) =>
      if cb.layout.locks ≠ [] then (searchFrom mem e cb a).2 ≠ .found
      else ∃ w, searchFrom mem e cb a = searchFrom mem e w b ∧
        AtTlv cb.tagHdr { cb.layout with locks := cb.layout.locks ++ lockArea v } w := by
  rcases @searchFrom_ctrlLen mem e a cb hwork hsub (.inl hf) with ⟨hnone, hfail⟩ | ⟨u, h, hin, hgo, hval⟩
  · rw [hnone]
    exact hfail
  rw [hval, hgo]
  have huwork : u.workOffset = 0 := hin.same.work.trans hwork
  have huf : u.foundTlv = tagLockCtrlTlv := hin.same.found.trans hf
  by_cases hlock : u.lockBytes = []
  · have hcol := @searchFrom_collect mem e (h + 1) u huwork hin.sub (.inl ⟨huf, hlock⟩) hin.count
    cases ht : u.layout.take e 3 (h + 1) with
    | none =>
      rw [ht] at hcol
      exact hcol
    | some r =>
      rw [ht] at hcol
      obtain ⟨w, y, x, hgo', hx, hb, hin', hbytes⟩ := hcol
      have hwlock : w.lockBytes = [] := hin'.same.lockBytes.trans hlock
      obtain ⟨z, hbyte, hsame, hvalue⟩ := @detectByte_lock mem w x hin'.sub
        (hin'.same.found.trans huf) hwlock hin'.count
      have hzlock : z.lockBytes = [] := hsame.lockBytes.trans hwlock
      have hlay : z.layout = cb.layout := by
        rw [hsame.layout, hin'.same.layout, hin.same.layout]
      have hnil : ¬cb.layout.locks ≠ [] := by
        rw [← hlay, not_not]
        exact locks_nil_iff.mpr hzlock
      dsimp only [Option.map_some]
      rw [if_neg hnil, hb]
      refine ⟨addLockTlv z z.tlvValue, hgo'.trans (searchFrom_go (hin'.same.work.trans huwork) hx hbyte), ?_⟩
      have harea : lockArea z.tlvValue = lockArea fun i => mem (r.1.getD i 0) :=
        lockArea_congr fun i hi => by rw [hvalue, hbytes i hi]
      constructor
      · rfl
      · exact hsame.work.trans (hin'.same.work.trans huwork)
      · rw [layout_addLockTlv hzlock, hlay, harea]
      · exact hsame.hdr.trans (hin'.same.hdr.trans hin.same.hdr)
      · intro hnone
        exact absurd hnone (List.append_ne_nil_of_right_ne_nil _ (List.cons_ne_nil _ _))
  · -- the first byte of the value is refused
    have hfail : (searchFrom mem e u (h + 1)).2 ≠ .found := by
      cases hx : u.layout.nextFree e (h + 1) with
      | none =>
        rw [searchFrom_none huwork hx]
        nofun
      | some x => exact searchFrom_failed huwork hx (detectByte_lock_again hin.sub huf hlock hin.count)
    have hnil : cb.layout.locks ≠ [] := by
      rw [← hin.same.layout]
      exact fun h => hlock (locks_nil_iff.mp h)
    cases u.layout.take e 3 (h + 1) with
    | none => exact hfail
    | some r =>
      dsimp only [Option.map_some]
      rw [if_pos hnil]
      exact hfail

theorem searchFrom_memTlv (hwork : cb.workOffset = 0) (hsub : cb.substate = .waitReadTlvLen0)
    (hf : cb.foundTlv = tagMemCtrlTlv) (htlv : cb.lockTlvs = [] → cb.lockBytes = []) :
    match cb.layout.ctrlValue mem e a with
    | none => (searchFrom mem e cb a).2 ≠ .found
    | some (v, b) =>
      if cb.layout.reserved.length ≥ rwT2tMaxMemTlvs then (searchFrom mem e cb a).2 ≠ .found
      else ∃ w, searchFrom mem e cb a = searchFrom mem e w b ∧
        AtTlv cb.tagHdr { cb.layout with reserved := cb.layout.reserved ++ [reservedArea v] } w := by
  rcases @searchFrom_ctrlLen mem e a cb hwork hsub (.inr hf) with ⟨hnone, hfail⟩ | ⟨u, h, hin, hgo, hval⟩
  · rw [hnone]
    exact hfail
  rw [hval, hgo]
  have huwork : u.workOffset = 0 := hin.same.work.trans hwork
  have huf : u.foundTlv = tagMemCtrlTlv := hin.same.found.trans hf
  have hcol := @searchFrom_collect mem e (h + 1) u huwork hin.sub (.inr huf) hin.count
  cases ht : u.layout.take e 3 (h + 1) with
  | none =>
    rw [ht] at hcol
    exact hcol
  | some r =>
    rw [ht] at hcol
    obtain ⟨w, y, x, hgo', hx, hb, hin', hbytes⟩ := hcol
    have hsame := hin.same.trans hin'.same
    have hwwork : w.workOffset = 0 := hin'.same.work.trans huwork
    have hwf : w.foundTlv = tagMemCtrlTlv := hin'.same.found.trans huf
    have hmem : w.memTlvs = cb.layout.reserved := hsame.memTlvs
    dsimp only [Option.map_some]
    by_cases hroom : cb.layout.reserved.length ≥ rwT2tMaxMemTlvs
    · rw [if_pos hroom, hgo']
      exact searchFrom_failed hwwork hx (detectByte_mem_full hin'.sub hwf hin'.count (by rwa [hmem]))
    · obtain ⟨z, hbyte, hsame', hvalue⟩ := @detectByte_mem mem w x hin'.sub hwf hin'.count
        (by rw [hmem]; exact Nat.not_le.mp hroom)
      have hall := hsame.trans hsame'
      rw [if_neg hroom, hb]
      refine ⟨addMemTlv z z.tlvValue, hgo'.trans (searchFrom_go hwwork hx hbyte), ?_⟩
      have harea : reservedArea z.tlvValue = reservedArea fun i => mem (r.1.getD i 0) :=
        reservedArea_congr fun i hi => by rw [hvalue, hbytes i hi]
      constructor
      · rfl
      · exact hall.work.trans hwork
      · rw [layout_addMemTlv, hall.layout, harea]
      · exact hall.hdr
      · intro hnone
        exact hall.lockBytes.trans (htlv (hall.lockTlvs.symm.trans hnone))

/-! ## One TLV -/

/-- The type `t` has been read, and `s` is expected behind it. -/
structure TypeRead (cb : T2tCb) (t : UInt8) (s : Substate) (u : T2tCb) : Prop where
  sub : u.substate = s
  found : u.foundTlv = t
  work : u.workOffset = 0
  layout : u.layout = cb.layout
  hdr : u.tagHdr = cb.tagHdr
  tlv : u.lockTlvs = [] → u.lockBytes = []

theorem detectByte_detect (hsub : cb.substate = .waitTlvDetect) : detectByte cb mem x = detectTlv cb mem x := by
  simp [detectByte, hsub]

theorem detectByte_type {hdr : ByteFn} {l : Layout} (h : AtTlv hdr l cb) {t : UInt8} {s : Substate}
    (ht : mem x = t)
    (hs : t = tagNdefTlv ∧ s = .waitFindLenFieldLen ∨ t = tagProprietaryTlv ∧ s = .waitFindLenFieldLen ∨
      (t = tagLockCtrlTlv ∨ t = tagMemCtrlTlv) ∧ s = .waitReadTlvLen0) :
    ∃ u, detectByte cb mem x = (u, .go) ∧ TypeRead cb t s u := by
  rw [detectByte_detect h.sub]
  unfold detectTlv
  dsimp only
  rw [ht]
  rcases hs with ⟨rfl, rfl⟩ | ⟨rfl, rfl⟩ | ⟨rfl | rfl, rfl⟩
  · rw [if_neg (by decide), if_pos rfl]
    exact ⟨_, rfl, rfl, rfl, h.work, rfl, rfl, h.tlv⟩
  · rw [if_neg (by decide), if_neg (by decide), if_neg (by decide), if_pos rfl]
    exact ⟨_, rfl, rfl, rfl, h.work, rfl, rfl, h.tlv⟩
  · rw [if_neg (by decide), if_neg (by decide), if_pos (.inl rfl)]
    exact ⟨_, rfl, rfl, rfl, h.work, rfl, rfl, h.tlv⟩
  · rw [if_neg (by decide), if_neg (by decide), if_pos (.inr rfl)]
    exact ⟨_, rfl, rfl, rfl, h.work, rfl, rfl, h.tlv⟩

theorem detectByte_msg (hwork : cb.workOffset = 0) {len : Nat} (hsub : cb.substate = .waitReadTlvValue)
    (hf : cb.foundTlv = tagNdefTlv) (hcount : cb.bytesCount = len) (hlen : cb.ndefMsgLen = len) :
    ∃ u, detectByte cb mem x = (u, .found) ∧ u.ndefMsgOffset = x ∧ SameTag cb u ∧ u.ndefMsgLen = len ∧
      u.ndefHeaderOffset = cb.ndefHeaderOffset := by
  rw [detectByte, hsub]
  dsimp only
  unfold readTlvValue
  rw [if_pos hf, hcount, hlen, if_pos rfl, hwork]
  exact ⟨_, rfl, rfl, ⟨hwork.symm, rfl, rfl, rfl, rfl, rfl⟩, rfl, rfl⟩

section Types
variable {t : Nat}

theorem does_ndef (hgo : searchFrom mem e cb a = searchFrom mem e u (t + 1))
    (hu : TypeRead cb tagNdefTlv .waitFindLenFieldLen u) :
    Does mem e cb a (walkNdef mem e cb.layout (t + 1)) := by
  have hlen := @searchFrom_lenField mem e (t + 1) u hu.work hu.sub (.inl hu.found)
  rw [hu.layout] at hlen
  unfold walkNdef
  cases hl : cb.layout.lenField mem e (t + 1) with
  | none =>
    rw [hl, ← hgo] at hlen
    exact hlen
  | some r =>
    rw [hl, ← hgo] at hlen
    obtain ⟨v, hgo', hin, hndef⟩ := hlen
    obtain ⟨hheader, hmsgLen⟩ := hndef hu.found
    have hvwork : v.workOffset = 0 := hin.same.work.trans hu.work
    have hvlay : v.layout = cb.layout := hin.same.layout.trans hu.layout
    dsimp only
    rw [← hvlay]
    cases hm : v.layout.nextFree e r.2.2 with
    | none =>
      change (searchFrom mem e cb a).2 ≠ .found
      rw [hgo', searchFrom_none hvwork hm]
      nofun
    | some msg =>
      obtain ⟨w, hbyte, hmsg, hsame, hwlen, hwheader⟩ := @detectByte_msg mem v msg hvwork r.2.1 hin.sub
        (hin.same.found.trans hu.found) hin.count hmsgLen
      have hall := hin.same.trans hsame
      have hend := @searchFrom_end mem e r.2.2 v w msg hvwork hm .found nofun hbyte
      refine ⟨w, hgo'.trans hend, hsame.layout, hall.hdr.trans hu.hdr, fun hnone => ?_,
        hwheader.trans hheader, hwlen, hmsg⟩
      rw [hall.lockBytes]
      exact hu.tlv (hall.lockTlvs.symm.trans hnone)

theorem does_lock (hgo : searchFrom mem e cb a = searchFrom mem e u (t + 1))
    (hu : TypeRead cb tagLockCtrlTlv .waitReadTlvLen0 u) :
    Does mem e cb a (walkLock true mem e cb.layout (t + 1)) := by
  have hctrl := @searchFrom_lockTlv mem e (t + 1) u hu.work hu.sub hu.found
  rw [hu.layout, hu.hdr, ← hgo] at hctrl
  unfold walkLock
  cases hv : cb.layout.ctrlValue mem e (t + 1) with
  | none =>
    rw [hv] at hctrl
    exact hctrl
  | some r =>
    rw [hv] at hctrl
    dsimp only at hctrl ⊢
    by_cases hnil : cb.layout.locks ≠ []
    · rw [if_pos hnil] at hctrl
      rw [if_pos ⟨rfl, hnil⟩]
      exact hctrl
    · rw [if_neg hnil] at hctrl
      rw [if_neg fun h => hnil h.2]
      exact hctrl

theorem does_mem (hgo : searchFrom mem e cb a = searchFrom mem e u (t + 1))
    (hu : TypeRead cb tagMemCtrlTlv .waitReadTlvLen0 u) :
    Does mem e cb a (walkMem true mem e cb.layout (t + 1)) := by
  have hctrl := @searchFrom_memTlv mem e (t + 1) u hu.work hu.sub hu.found hu.tlv
  rw [hu.layout, hu.hdr, ← hgo] at hctrl
  unfold walkMem
  cases hv : cb.layout.ctrlValue mem e (t + 1) with
  | none =>
    rw [hv] at hctrl
    exact hctrl
  | some r =>
    rw [hv] at hctrl
    dsimp only at hctrl ⊢
    by_cases hroom : cb.layout.reserved.length ≥ rwT2tMaxMemTlvs
    · rw [if_pos hroom] at hctrl
      rw [if_pos ⟨rfl, hroom⟩]
      exact hctrl
    · rw [if_neg hroom] at hctrl
      rw [if_neg fun h => hroom h.2]
      exact hctrl

theorem does_proprietary (hgo : searchFrom mem e cb a = searchFrom mem e u (t + 1))
    (hu : TypeRead cb tagProprietaryTlv .waitFindLenFieldLen u) :
    Does mem e cb a (walkProprietary true mem e cb.layout (t + 1)) := by
  have hlen := @searchFrom_lenField mem e (t + 1) u hu.work hu.sub (.inr hu.found)
  rw [hu.layout, ← hgo] at hlen
  unfold walkProprietary
  cases hl : cb.layout.lenField mem e (t + 1) with
  | none =>
    rw [hl] at hlen
    exact hlen
  | some r =>
    rw [hl] at hlen
    obtain ⟨v, hgo', hin, -⟩ := hlen
    dsimp only
    by_cases hempty : r.2.1 = 0
    · rw [if_pos ⟨rfl, hempty⟩]
      change (searchFrom mem e cb a).2 ≠ .found
      have hvwork : v.workOffset = 0 := hin.same.work.trans hu.work
      rw [hgo']
      cases hx : v.layout.nextFree e r.2.2 with
      | none =>
        rw [searchFrom_none hvwork hx]
        nofun
      | some x =>
        exact searchFrom_failed hvwork hx (detectByte_empty hin.sub (hin.same.found.trans hu.found)
          (hin.count.trans hempty))
    rw [if_neg fun h => hempty h.2]
    obtain ⟨n, hn⟩ := Nat.exists_eq_succ_of_ne_zero hempty
    have hskip := @searchFrom_skip mem e n v r.2.2 (hin.same.work.trans hu.work) hin.sub
      (hin.same.found.trans hu.found) (hin.count.trans hn)
    rw [hin.same.layout.trans hu.layout, ← hgo'] at hskip
    rw [hn]
    cases ht : cb.layout.take e (n + 1) r.2.2 with
    | none =>
      rw [ht] at hskip
      exact hskip
    | some q =>
      rw [ht] at hskip
      obtain ⟨w, hgo'', hsame, hwsub⟩ := hskip
      have hall := hin.same.trans hsame
      refine ⟨w, hgo'', hwsub, hall.work.trans hu.work, hall.layout.trans hu.layout, hall.hdr.trans hu.hdr,
        fun hnone => ?_⟩
      rw [hall.lockBytes]
      exact hu.tlv (hall.lockTlvs.symm.trans hnone)

end Types

/-- **One TLV.** The search does with it what the walk does. -/
theorem searchFrom_tlv {hdr : ByteFn} {l : Layout} (h : AtTlv hdr l cb) :
    Does mem e cb a (walkTlv true mem e l a) := by
  obtain rfl := h.layout
  have hwork := h.work
  unfold walkTlv
  cases hx : cb.layout.nextFree e a with
  | none =>
    change (searchFrom mem e cb a).2 ≠ .found
    rw [searchFrom_none hwork hx]
    nofun
  | some t =>
    dsimp only
    by_cases hnull : mem t = tagNullTlv
    · rw [if_pos hnull]
      have hbyte : detectByte cb mem t = ({ cb with foundTlv := mem t }, .go) := by
        rw [detectByte_detect h.sub]
        unfold detectTlv
        rw [if_pos hnull]
      exact ⟨_, searchFrom_go hwork hx hbyte, h.sub, hwork, rfl, rfl, h.tlv⟩
    rw [if_neg hnull]
    by_cases hndef : mem t = tagNdefTlv
    · rw [if_pos hndef]
      obtain ⟨u, hbyte, hu⟩ := detectByte_type h hndef (.inl ⟨rfl, rfl⟩)
      exact does_ndef (searchFrom_go hwork hx hbyte) hu
    rw [if_neg hndef]
    by_cases hlock : mem t = tagLockCtrlTlv
    · rw [if_pos hlock]
      obtain ⟨u, hbyte, hu⟩ := detectByte_type h hlock (.inr (.inr ⟨.inl rfl, rfl⟩))
      exact does_lock (searchFrom_go hwork hx hbyte) hu
    rw [if_neg hlock]
    by_cases hmem : mem t = tagMemCtrlTlv
    · rw [if_pos hmem]
      obtain ⟨u, hbyte, hu⟩ := detectByte_type h hmem (.inr (.inr ⟨.inr rfl, rfl⟩))
      exact does_mem (searchFrom_go hwork hx hbyte) hu
    rw [if_neg hmem]
    by_cases hprop : mem t = tagProprietaryTlv
    · rw [if_pos hprop]
      obtain ⟨u, hbyte, hu⟩ := detectByte_type h hprop (.inr (.inl ⟨rfl, rfl⟩))
      exact does_proprietary (searchFrom_go hwork hx hbyte) hu
    · rw [if_neg hprop]
      apply searchFrom_failed hwork hx
      rw [detectByte_detect h.sub]
      unfold detectTlv
      rw [if_neg hnull, if_neg hndef, if_neg (not_or.mpr ⟨hlock, hmem⟩), if_neg hprop]

theorem Does.of_eq {b : Nat} {v : T2tCb} {m : Met} (hgo : searchFrom mem e cb a = searchFrom mem e v b)
    (hhdr : v.tagHdr = cb.tagHdr) (h : Does mem e v b m) : Does mem e cb a m := by
  cases m with
  | next l c =>
    obtain ⟨w, heq, hw⟩ := h
    exact ⟨w, hgo.trans heq, hhdr ▸ hw⟩
  | ndef l header len msg =>
    obtain ⟨w, heq, hw⟩ := h
    exact ⟨w, hgo.trans heq, hhdr ▸ hw⟩
  | ended =>
    change (searchFrom mem e cb a).2 ≠ .found
    rw [hgo]
    exact h
  | emptyProprietary =>
    change (searchFrom mem e cb a).2 ≠ .found
    rw [hgo]
    exact h

end Search

/-! ## The whole area -/

section Area
variable {mem : ByteFn} {e a : Nat} {l l' : Layout}

theorem Layout.lenField_bounds {r : Nat × Nat × Nat} (h : l.lenField mem e a = some r) :
    a ≤ r.1 ∧ r.1 < r.2.2 ∧ r.2.2 ≤ e ∧ l.taken r.1 = false := by
  unfold Layout.lenField at h
  cases hx : l.nextFree e a with
  | none => simp [hx] at h
  | some x =>
    obtain ⟨hax, hxe, hfree⟩ := Layout.nextFree_bounds hx
    simp only [hx] at h
    split at h
    · obtain ⟨q, hq, rfl⟩ := Option.map_eq_some_iff.1 h
      have hb := Layout.take_bounds hq (by omega)
      exact ⟨hax, by dsimp only; omega, hb.2, hfree⟩
    · obtain rfl := Option.some.inj h
      exact ⟨hax, Nat.lt_succ_self x, hxe, hfree⟩

theorem Layout.ctrlValue_bounds {r : ByteFn × Nat} (h : l.ctrlValue mem e a = some r) : a < r.2 := by
  unfold Layout.ctrlValue at h
  cases hx : l.nextFree e a with
  | none => simp [hx] at h
  | some x =>
    obtain ⟨hax, hxe, -⟩ := Layout.nextFree_bounds hx
    simp only [hx] at h
    split at h
    · obtain ⟨q, hq, rfl⟩ := Option.map_eq_some_iff.1 h
      have hb := Layout.take_bounds hq (by omega)
      dsimp only
      omega
    · cases h

variable {limits : Bool} {b : Nat}

theorem walkNdef_next : walkNdef mem e l a ≠ .next l' b := by
  unfold walkNdef
  split
  · nofun
  · split
    · nofun
    · nofun

theorem walkLock_next (h : walkLock limits mem e l a = .next l' b) : a < b := by
  unfold walkLock at h
  cases hv : l.ctrlValue mem e a with
  | none => simp [hv] at h
  | some r =>
    have hlt := Layout.ctrlValue_bounds hv
    simp only [hv] at h
    split at h
    · cases h
    · cases h
      exact hlt

theorem walkMem_next (h : walkMem limits mem e l a = .next l' b) : a < b := by
  unfold walkMem at h
  cases hv : l.ctrlValue mem e a with
  | none => simp [hv] at h
  | some r =>
    have hlt := Layout.ctrlValue_bounds hv
    simp only [hv] at h
    split at h
    · cases h
    · cases h
      exact hlt

theorem walkProprietary_next (h : walkProprietary limits mem e l a = .next l' b) : a < b := by
  unfold walkProprietary at h
  cases hv : l.lenField mem e a with
  | none => simp [hv] at h
  | some r =>
    obtain ⟨hle, hlt, hend, -⟩ := Layout.lenField_bounds hv
    simp only [hv] at h
    split at h
    · cases h
    · cases ht : l.take e r.2.1 r.2.2 with
      | none => simp [ht] at h
      | some q =>
        have hq := Layout.take_bounds ht hend
        simp only [ht] at h
        cases h
        omega

theorem walkTlv_next (h : walkTlv limits mem e l a = .next l' b) : a < b := by
  unfold walkTlv at h
  cases hx : l.nextFree e a with
  | none => simp [hx] at h
  | some t =>
    obtain ⟨hat, -, -⟩ := Layout.nextFree_bounds hx
    simp only [hx] at h
    split_ifs at h
    · cases h
      omega
    · exact absurd h walkNdef_next
    · have := walkLock_next h
      omega
    · have := walkMem_next h
      omega
    · have := walkProprietary_next h
      omega

theorem walk_ne_next (n : Nat) : ∀ {l : Layout} {a : Nat}, walk limits mem e n l a ≠ .next l' b := by
  induction n with
  | zero => exact nofun
  | succ n ih =>
    intro l a
    rw [walk]
    split
    · exact ih
    · rename_i hnext
      exact hnext l' b

/-- **The whole area.** The search ends as the walk does. -/
theorem searchFrom_walk {hdr : ByteFn} (n : Nat) : ∀ {cb : T2tCb} {l : Layout} {a : Nat}, AtTlv hdr l cb →
    e - a < n → Does mem e cb a (walk true mem e n l a) := by
  induction n with
  | zero =>
    intro cb l a _ hn
    omega
  | succ n ih =>
    intro cb l a h hn
    have htlv := @searchFrom_tlv mem e a cb hdr l h
    rw [walk]
    cases hm : walkTlv true mem e l a with
    | next l' b =>
      rw [hm] at htlv
      obtain ⟨v, hgo, hv⟩ := htlv
      have hb := walkTlv_next hm
      have hv' : AtTlv hdr l' v := by rwa [h.hdr] at hv
      by_cases hend : e ≤ a
      · simp [walkTlv, Layout.nextFree_none_of_le hend] at hm
      · exact (ih hv' (by omega)).of_eq hgo hv.hdr
    | ndef l' header len msg =>
      rw [hm] at htlv
      exact htlv
    | ended =>
      rw [hm] at htlv
      exact htlv
    | emptyProprietary =>
      rw [hm] at htlv
      exact htlv

end Area

end NfcStack.Rw
