import NfcStack.Ndef.Walk

/- Stores to the buffer of an NDEF message, and the two loops that move a part of it
   (`ndef_utils.cc`: `shiftdown`, `shiftup`). A store outside of the buffer is
   `none`.

   What is proved:
     1. `shiftdown_moves`, `shiftup_moves`: though source and destination overlap,
        the bytes that arrive are those that stood there before.
     2. `store_keeps`, `memcpy_keeps`, `shiftdown_keeps`, `shiftup_keeps`: what is below the
        place stays.
     3. `opensGap`, `closesGap`: what that is on a buffer written as an append of
        blocks, which is how the edits use it. -/
namespace NfcStack.Ndef
open NfcStack.Lib

/-! ## The code -/

def store (mem : Bytes) (p : Nat) (b : UInt8) : Option Bytes :=
  if p < mem.length then some (mem.set p b) else none

def modify (mem : Bytes) (p : Nat) (f : UInt8 → UInt8) : Option Bytes :=
  mem[p]?.bind fun b => store mem p (f b)

/-- `memcpy` of bytes from elsewhere. -/
def memcpy (mem : Bytes) (p : Nat) (bs : Bytes) : Option Bytes :=
  if p + bs.length ≤ mem.length then some (blit mem p bs) else none

/-- `shiftdown`: from the last byte to the first. -/
def shiftdown (mem : Bytes) (pMem : Nat) : Nat → Nat → Option Bytes
  | 0, _ => some mem
  | len + 1, shiftAmount =>
    mem[pMem + len]?.bind fun b => (store mem (pMem + len + shiftAmount) b).bind fun mem =>
      shiftdown mem pMem len shiftAmount

/-- `shiftup`: from the first byte to the last. -/
def shiftup (mem : Bytes) (pDest pSrc : Nat) : Nat → Option Bytes
  | 0 => some mem
  | len + 1 =>
    mem[pSrc]?.bind fun b => (store mem pDest b).bind fun mem => shiftup mem (pDest + 1) (pSrc + 1) len

/-- A field as the caller gives it: bytes, or a null pointer and a length, which only
reserves the place. -/
inductive Src where
  | bytes (bs : Bytes)
  | reserve (len : Nat)
  deriving DecidableEq, Repr

def Src.len : Src → Nat
  | .bytes bs => bs.length
  | .reserve n => n

def copySrc (mem : Bytes) (p : Nat) : Src → Option Bytes
  | .bytes bs => memcpy mem p bs
  | .reserve _ => some mem

/-- The bytes that a field may hold then. -/
def Src.Gives : Src → Bytes → Prop
  | .bytes bs, field => field = bs
  | .reserve n, field => field.length = n

theorem Src.Gives.length_eq {src : Src} {field : Bytes} (h : src.Gives field) :
    field.length = src.len := by
  cases src with
  | bytes bs => exact congrArg List.length h
  | reserve n => exact h

/-! ## What the loops do -/

theorem take_set_after (mem : Bytes) {i n : Nat} (b : UInt8) (h : n ≤ i) :
    (mem.set i b).take n = mem.take n := by
  rw [List.take_set, List.set_eq_of_length_le]
  simp
  omega

theorem drop_set_at {mem : Bytes} {i : Nat} (b : UInt8) (h : i < mem.length) :
    (mem.set i b).drop i = b :: mem.drop (i + 1) := by
  rw [List.drop_eq_getElem_cons (by simpa using h), List.getElem_set_self, List.drop_set_of_lt (by omega)]

theorem slice_set_before {mem : Bytes} {i pos : Nat} (b : UInt8) (len : Nat) (h : i < pos) :
    slice (mem.set i b) pos len = slice mem pos len := by
  rw [slice, slice, List.drop_set_of_lt h]

theorem slice_set_after {mem : Bytes} {i pos len : Nat} (b : UInt8) (h : pos + len ≤ i) :
    slice (mem.set i b) pos len = slice mem pos len := by
  have htake := take_set_after mem b h
  rw [slice, slice, List.take_drop, List.take_drop, htake]

theorem shiftdown_moves {p k : Nat} (len : Nat) :
    ∀ {mem : Bytes}, p + k + len ≤ mem.length →
      shiftdown mem p len k = some (blit mem (p + k) (slice mem p len)) := by
  induction len with
  | zero =>
    intro mem _
    simp [shiftdown, blit]
  | succ len ih =>
    intro mem h
    have hget : mem[p + len]? = some mem[p + len] := List.getElem?_eq_getElem (by omega)
    set b := mem[p + len]
    have hslice : slice mem p (len + 1) = slice mem p len ++ [b] := by
      have hlast : slice mem (p + len) 1 = [b] := by
        rw [slice, List.drop_eq_getElem_cons (show p + len < mem.length by omega)]
        rfl
      rw [slice_split, hlast]
    have hlen : (slice mem p len).length = len := length_slice (by omega)
    have hat : p + len + k = p + k + len := by omega
    rw [shiftdown, hget, Option.bind_some, store, if_pos (by omega), Option.bind_some,
      ih (by simp; omega), slice_set_after b (by omega), hslice]
    -- the byte stored first is the last one of the block
    rw [blit, blit, take_set_after _ b (by omega), hlen, hat, drop_set_at b (by omega),
      List.length_append, hlen]
    simp [Nat.add_assoc]

theorem shiftup_moves (len : Nat) :
    ∀ {mem : Bytes} {dest src : Nat}, dest ≤ src → src + len ≤ mem.length →
      shiftup mem dest src len = some (blit mem dest (slice mem src len)) := by
  induction len with
  | zero =>
    intro mem dest src _ _
    simp [shiftup, blit]
  | succ len ih =>
    intro mem dest src hle h
    have hget : mem[src]? = some mem[src] := List.getElem?_eq_getElem (by omega)
    set b := mem[src]
    have hslice : slice mem src (len + 1) = b :: slice mem (src + 1) len := by
      rw [slice, slice, List.drop_eq_getElem_cons (show src < mem.length by omega), List.take_succ_cons]
    have htake : (mem.set dest b).take (dest + 1) = mem.take dest ++ [b] := by
      rw [List.take_set, List.take_succ_eq_append_getElem (show dest < mem.length by omega),
        List.set_append_right _ _ (by simp)]
      have : min dest mem.length = dest := by omega
      simp [this]
    rw [shiftup, hget, Option.bind_some, store, if_pos (by omega), Option.bind_some,
      ih (by omega) (by simp; omega), slice_set_before b len (by omega), hslice]
    -- the byte stored first is the first one of the block
    rw [blit, blit, htake, List.drop_set_of_lt (by omega), List.length_cons,
      show dest + ((slice mem (src + 1) len).length + 1) =
        dest + 1 + (slice mem (src + 1) len).length by omega]
    simp

/-! ## What stays -/

structure Keeps (n : Nat) (mem mem' : Bytes) : Prop where
  length : mem'.length = mem.length
  below : ∀ i < n, mem'[i]? = mem[i]?

section Keeps
variable {mem mem' mem'' : Bytes} {n p : Nat}

theorem Keeps.refl (n : Nat) (mem : Bytes) : Keeps n mem mem := ⟨rfl, fun _ _ => rfl⟩

theorem Keeps.trans (h : Keeps n mem mem') (h' : Keeps n mem' mem'') : Keeps n mem mem'' :=
  ⟨h'.length.trans h.length, fun i hi => (h'.below i hi).trans (h.below i hi)⟩

theorem Keeps.mono {k : Nat} (h : Keeps n mem mem') (hk : k ≤ n) : Keeps k mem mem' :=
  ⟨h.length, fun i hi => h.below i (by omega)⟩

theorem store_some {b : UInt8} (h : store mem p b = some mem') : mem' = mem.set p b ∧ p < mem.length := by
  unfold store at h
  split at h
  case isTrue hp => exact ⟨(Option.some.inj h).symm, hp⟩
  case isFalse => cases h

theorem store_keeps {b : UInt8} (h : store mem p b = some mem') : Keeps p mem mem' := by
  obtain ⟨rfl, -⟩ := store_some h
  refine ⟨List.length_set, fun i hi => ?_⟩
  rw [List.getElem?_set_ne (by omega)]

theorem modify_keeps {f : UInt8 → UInt8} (h : modify mem p f = some mem') : Keeps p mem mem' := by
  obtain ⟨b, -, hs⟩ := Option.bind_eq_some_iff.mp h
  exact store_keeps hs

theorem length_blit_le {bs : Bytes} (h : p + bs.length ≤ mem.length) : (blit mem p bs).length = mem.length := by
  simp only [blit, List.length_append, List.length_take, List.length_drop]
  omega

theorem memcpy_keeps {bs : Bytes} (h : memcpy mem p bs = some mem') : Keeps p mem mem' := by
  unfold memcpy at h
  split at h
  case isTrue hle =>
    obtain rfl := Option.some.inj h
    refine ⟨length_blit_le hle, fun i hi => ?_⟩
    rw [blit, List.append_assoc, List.getElem?_append_left (by simp; omega), List.getElem?_take_of_lt hi]
  case isFalse => cases h

theorem copySrc_keeps {src : Src} (h : copySrc mem p src = some mem') : Keeps p mem mem' := by
  cases src with
  | bytes bs => exact memcpy_keeps h
  | reserve k =>
    obtain rfl := Option.some.inj h
    exact .refl p _

theorem shiftdown_keeps {k : Nat} (len : Nat) :
    ∀ {mem mem' : Bytes}, shiftdown mem p len k = some mem' → Keeps (p + k) mem mem' := by
  induction len with
  | zero =>
    intro mem mem' h
    obtain rfl := Option.some.inj h
    exact .refl _ _
  | succ len ih =>
    intro mem mem' h
    obtain ⟨b, -, h⟩ := Option.bind_eq_some_iff.mp h
    obtain ⟨mem₁, hs, h⟩ := Option.bind_eq_some_iff.mp h
    exact ((store_keeps hs).mono (by omega)).trans (ih h)

theorem shiftup_keeps (len : Nat) :
    ∀ {mem mem' : Bytes} {dest src : Nat}, shiftup mem dest src len = some mem' → Keeps dest mem mem' := by
  induction len with
  | zero =>
    intro mem mem' dest src h
    obtain rfl := Option.some.inj h
    exact .refl _ _
  | succ len ih =>
    intro mem mem' dest src h
    obtain ⟨b, -, h⟩ := Option.bind_eq_some_iff.mp h
    obtain ⟨mem₁, hs, h⟩ := Option.bind_eq_some_iff.mp h
    exact (store_keeps hs).trans ((ih h).mono (Nat.le_succ dest))

/-- A read behind the end of the memory. -/
theorem shiftup_none (len : Nat) :
    ∀ {mem : Bytes} {dest src : Nat}, 0 < len → mem.length < src + len → shiftup mem dest src len = none := by
  induction len with
  | zero => exact fun hpos _ => absurd hpos (lt_irrefl 0)
  | succ len ih =>
    intro mem dest src _ hout
    rw [shiftup, Option.bind_eq_none_iff]
    intro b hb
    rw [Option.bind_eq_none_iff]
    intro mem₁ hs
    have hin := (List.getElem?_eq_some_iff.mp hb).1
    exact ih (by omega) (by rw [(store_keeps hs).length]; omega)

theorem shiftdown_zero {len : Nat} (h : p + len ≤ mem.length) : shiftdown mem p len 0 = some mem := by
  rw [shiftdown_moves len (by omega), blit, slice, Nat.add_zero, List.length_take, List.length_drop,
    Nat.min_eq_left (by omega), ← List.drop_drop, List.append_assoc, List.take_append_drop,
    List.take_append_drop]

end Keeps

/-! ## On a buffer of blocks -/

section Blocks
variable {a b c d x : Bytes} {p : Nat}

theorem store_block {old new : UInt8} (hp : p = a.length) :
    store (a ++ old :: c) p new = some (a ++ new :: c) := by
  subst hp
  simp [store]

theorem modify_block {old : UInt8} (f : UInt8 → UInt8) (hp : p = a.length) :
    modify (a ++ old :: c) p f = some (a ++ f old :: c) := by
  have hget : (a ++ old :: c)[p]? = some old := by
    subst hp
    simp
  rw [modify, hget, Option.bind_some, store_block hp]

theorem memcpy_block (hp : p = a.length) (hx : x.length = b.length) :
    memcpy (a ++ b ++ c) p x = some (a ++ x ++ c) := by
  rw [memcpy, if_pos (by simp; omega), blit_append hp hx]

theorem copySrc_block {src : Src} (hp : p = a.length) (hb : src.len = b.length) :
    ∃ field, src.Gives field ∧ copySrc (a ++ b ++ c) p src = some (a ++ field ++ c) := by
  cases src with
  | bytes bs => exact ⟨bs, rfl, memcpy_block hp hb⟩
  | reserve n => exact ⟨b, hb.symm, rfl⟩

/-- `b` moves down by `k`, and what follows loses its first `k` bytes. -/
theorem opensGap_drop {k len : Nat} (hp : p = a.length) (hl : len = b.length) (hk : k ≤ c.length) :
    ∃ gap, shiftdown (a ++ b ++ c) p len k = some (a ++ gap ++ b ++ c.drop k) ∧ gap.length = k := by
  subst hp hl
  refine ⟨(b ++ c).take k, ?_, by simp; omega⟩
  rw [shiftdown_moves b.length (by simp; omega), slice_append rfl rfl, blit]
  congr 1
  have htake : (a ++ b ++ c).take (a.length + k) = a ++ (b ++ c).take k := by
    rw [List.append_assoc, List.take_length_add_append]
  have hdrop : (a ++ b ++ c).drop (a.length + k + b.length) = c.drop k := by
    rw [show a.length + k + b.length = (a ++ b).length + k by simp; omega,
      List.drop_length_add_append]
  rw [htake, hdrop]

/-- `b` moves down by `k`, at the expense of what follows. -/
theorem opensGap {k len : Nat} (hp : p = a.length) (hl : len = b.length) (hk : k ≤ c.length) :
    ∃ gap c', shiftdown (a ++ b ++ c) p len k = some (a ++ gap ++ b ++ c') ∧ gap.length = k ∧
      c'.length + k = c.length := by
  obtain ⟨gap, hs, hgap⟩ := opensGap_drop hp hl hk
  exact ⟨gap, c.drop k, hs, hgap, by simp; omega⟩

/-- `b` moves up over `d`; what was behind is left there, and more. -/
theorem closesGap {dest src len : Nat} (hd : dest = a.length) (hs : src = a.length + d.length)
    (hl : len = b.length) :
    ∃ c', shiftup (a ++ d ++ b ++ c) dest src len = some (a ++ b ++ c') ∧
      c'.length = d.length + c.length := by
  subst hd hs hl
  refine ⟨(d ++ b ++ c).drop b.length, ?_, by simp; omega⟩
  have hslice : slice (a ++ d ++ b ++ c) (a.length + d.length) b.length = b :=
    slice_append (by simp) rfl
  rw [shiftup_moves b.length (by omega) (by simp; omega), hslice, blit]
  congr 1
  have hassoc : a ++ d ++ b ++ c = a ++ (d ++ b ++ c) := by simp
  rw [hassoc, List.take_left, List.drop_length_add_append]

end Blocks

end NfcStack.Ndef
