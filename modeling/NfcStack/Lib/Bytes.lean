import Mathlib

/- Flat memories as lists of cells. `slice` reads a block, `blit` overwrites one
   in place. The lemmas say what both do on a memory written as an append of
   blocks, which is how every caller describes the layout it works on. -/
namespace NfcStack.Lib

variable {α : Type}

def slice (mem : List α) (pos len : Nat) : List α := (mem.drop pos).take len

def blit (mem : List α) (pos : Nat) (bs : List α) : List α :=
  mem.take pos ++ bs ++ mem.drop (pos + bs.length)

/-- The cells from `pos` on, if all `len` of them exist. -/
def readAt (mem : List α) (pos len : Nat) : Option (List α) :=
  if pos + len ≤ mem.length then some (slice mem pos len) else none

/-- The cells from `pos` on overwritten, if all of them exist. -/
def writeAt (mem : List α) (pos : Nat) (bs : List α) : Option (List α) :=
  if pos + bs.length ≤ mem.length then some (blit mem pos bs) else none

variable {mem : List α}

theorem length_slice {pos len : Nat} (h : pos + len ≤ mem.length) :
    (slice mem pos len).length = len := by
  simp [slice]; omega

@[simp] theorem slice_zero (mem : List α) (pos : Nat) : slice mem pos 0 = [] := by
  simp [slice]

variable {bs : List α}

theorem length_blit {pos : Nat} (h : pos + bs.length ≤ mem.length) :
    (blit mem pos bs).length = mem.length := by
  simp [blit]; omega

theorem slice_append {a b c : List α} {pos len : Nat} (hp : pos = a.length) (hl : len = b.length) :
    slice (a ++ b ++ c) pos len = b := by
  subst hp hl
  simp [slice]

theorem blit_append {a b c bs : List α} {pos : Nat} (hp : pos = a.length)
    (hl : bs.length = b.length) : blit (a ++ b ++ c) pos bs = a ++ bs ++ c := by
  subst hp
  simp [blit, hl]

theorem slice_split (mem : List α) (pos m n : Nat) :
    slice mem pos (m + n) = slice mem pos m ++ slice mem (pos + m) n := by
  simp [slice, List.take_add, List.drop_drop]

/-- What follows the overwritten block is still there. -/
theorem slice_blit_after (mem : List α) (pos : Nat) (bs : List α) (len : Nat)
    (h : pos + bs.length ≤ mem.length) :
    slice (blit mem pos bs) pos (bs.length + len) = bs ++ slice mem (pos + bs.length) len := by
  have hl : (mem.take pos).length = pos := by simp; omega
  simp only [slice, blit]
  rw [List.append_assoc, List.drop_append_of_le_length (by omega)]
  rw [List.drop_eq_nil_of_le (by omega), List.nil_append, List.take_append]
  simp

/-- What precedes the overwritten block is untouched. -/
theorem slice_blit_before {pos : Nat} {start len : Nat}
    (hb : start + len ≤ pos) (hp : pos ≤ mem.length) :
    slice (blit mem pos bs) start len = slice mem start len := by
  have hl : (mem.take pos).length = pos := by simp; omega
  simp only [slice, blit]
  rw [List.append_assoc, List.drop_append_of_le_length (by omega),
    List.take_append_of_le_length (by simp; omega), List.drop_take, List.take_take]
  congr 1
  omega

theorem slice_blit_same {pos len : Nat} (hl : len = bs.length)
    (h : pos + bs.length ≤ mem.length) : slice (blit mem pos bs) pos len = bs := by
  subst hl
  have key := slice_blit_after mem pos bs 0 h
  simpa using key

theorem slice_blit_behind {pos : Nat} {start len : Nat}
    (hb : pos + bs.length ≤ start) (hp : pos + bs.length ≤ mem.length) :
    slice (blit mem pos bs) start len = slice mem start len := by
  have hl : (mem.take pos ++ bs).length = pos + bs.length := by simp; omega
  simp only [slice, blit]
  rw [List.drop_append, hl, List.drop_eq_nil_of_le (by omega), List.nil_append, List.drop_drop]
  congr 2
  omega

theorem blit_blit {mem : List α} {pos : Nat} {a b : List α} (h : pos + a.length ≤ mem.length) :
    blit (blit mem pos a) (pos + a.length) b = blit mem pos (a ++ b) := by
  have hl : (mem.take pos ++ a).length = pos + a.length := by simp; omega
  have htake : (mem.take pos ++ a ++ mem.drop (pos + a.length)).take (pos + a.length) =
      mem.take pos ++ a := by
    rw [List.take_append_of_le_length hl.ge, List.take_of_length_le hl.le]
  have hdrop : (mem.take pos ++ a ++ mem.drop (pos + a.length)).drop (pos + a.length + b.length) =
      mem.drop (pos + (a ++ b).length) := by
    rw [List.drop_append, hl, List.drop_eq_nil_of_le (by omega), List.nil_append, List.drop_drop,
      List.length_append]
    congr 1
    omega
  simp only [blit]
  rw [htake, hdrop]
  simp only [List.append_assoc]

theorem or_and_mask (a b m : UInt8) : (a ||| b) &&& m = (a &&& m) ||| (b &&& m) := by
  rw [← UInt8.toBitVec_inj]
  simp [BitVec.and_or_distrib_right]

theorem or_self_and_mask (a m : UInt8) : (a ||| m) &&& m = m := by
  rw [← UInt8.toBitVec_inj]
  apply BitVec.eq_of_getElem_eq
  intro i hi
  simp only [UInt8.toBitVec_and, UInt8.toBitVec_or, BitVec.getElem_and, BitVec.getElem_or]
  cases m.toBitVec[i] <;> simp

theorem clear_and_mask (a m : UInt8) : (a &&& ~~~m) &&& m = 0 := by
  rw [← UInt8.toBitVec_inj]
  apply BitVec.eq_of_getElem_eq
  intro i hi
  simp

end NfcStack.Lib
