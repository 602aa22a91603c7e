import Mathlib

/- The bitmaps of lock and reserved bytes that the readers of Type 1 and Type 2 tags keep of
   one segment of the tag: `rw_t1t_mask_bits`, and the array with a bit for each byte.

   What is proved: which bits are set after bytes have been marked, one at a time
   (`marked_markByte`) or in a loop (`marked_foldl`). -/
namespace NfcStack.Rw.T1tLocks

abbrev t1tSegmentSize : Nat := 0x80

def maskBits (i : Nat) : UInt8 := [0x01, 0x02, 0x04, 0x08, 0x10, 0x20, 0x40, 0x80].getD i 0

/-- `b & rw_t1t_mask_bits[i]`. -/
def bitSet (b : UInt8) (i : Nat) : Bool := b &&& maskBits i != 0

abbrev Attributes := Nat → UInt8

/-- The bit of `offset` is set, if the byte is in the segment. -/
def markByte (segment : Nat) (attr : Attributes) (offset : Nat) : Attributes :=
  if segment * t1tSegmentSize ≤ offset ∧ offset < (segment + 1) * t1tSegmentSize then fun block =>
    if block = offset % t1tSegmentSize / 8 then attr block ||| maskBits (offset % t1tSegmentSize % 8)
    else attr block
  else attr

/-- The bit of byte `i` of the segment. -/
def marked (attr : Attributes) (i : Nat) : Bool := bitSet (attr (i / 8)) (i % 8)

theorem maskBits_toNat {i : Nat} (hi : i < 8) : (maskBits i).toNat = 2 ^ i := by
  interval_cases i <;> rfl

theorem bitSet_eq {i : Nat} (hi : i < 8) (b : UInt8) : bitSet b i = b.toNat.testBit i := by
  have hand : (b &&& maskBits i).toNat = (b.toNat.testBit i).toNat * 2 ^ i := by
    rw [UInt8.toNat_and, maskBits_toNat hi, Nat.and_two_pow]
  have hpow : 2 ^ i ≠ 0 := by positivity
  rw [bitSet, bne, Bool.not_eq_eq_eq_not, beq_eq_decide]
  cases hbit : b.toNat.testBit i with
  | false =>
    have hzero : b &&& maskBits i = 0 := by
      apply UInt8.toNat_inj.mp
      simp [hand, hbit]
    simp [hzero]
  | true =>
    have hne : b &&& maskBits i ≠ 0 := by
      intro h
      have := congrArg UInt8.toNat h
      simp [hand, hbit] at this
    simp [hne]

@[simp] theorem bitSet_zero (i : Nat) : bitSet 0 i = false := by
  simp [bitSet]

theorem bitSet_or {i j : Nat} (hi : i < 8) (hj : j < 8) (b : UInt8) :
    bitSet (b ||| maskBits j) i = (bitSet b i || decide (j = i)) := by
  rw [bitSet_eq hi, bitSet_eq hi, UInt8.toNat_or, Nat.testBit_or, maskBits_toNat hj, Nat.testBit_two_pow]

theorem marked_or (attr : Attributes) {p i : Nat} :
    marked (fun block => if block = p / 8 then attr block ||| maskBits (p % 8) else attr block) i =
      (marked attr i || decide (p = i)) := by
  simp only [marked]
  by_cases hblock : i / 8 = p / 8
  · rw [if_pos hblock, bitSet_or (Nat.mod_lt _ (by decide)) (Nat.mod_lt _ (by decide))]
    congr 2
    apply propext
    omega
  · rw [if_neg hblock]
    have hne : ¬ p = i := by
      intro h
      exact hblock (by rw [h])
    simp [hne]

theorem marked_foldl {α : Type} {step : Attributes → α → Attributes} {hit : α → Bool} {i : Nat}
    (h : ∀ attr x, marked (step attr x) i = (marked attr i || hit x)) (xs : List α) :
    ∀ attr, marked (xs.foldl step attr) i = (marked attr i || xs.any hit) := by
  induction xs with
  | nil => simp
  | cons x xs ih =>
    intro attr
    rw [List.foldl_cons, ih, h, List.any_cons, Bool.or_assoc]

theorem marked_markByte {segment i : Nat} (hi : i < t1tSegmentSize) (attr : Attributes) (offset : Nat) :
    marked (markByte segment attr offset) i =
      (marked attr i || decide (offset = segment * t1tSegmentSize + i)) := by
  simp only [t1tSegmentSize] at hi
  simp only [markByte, t1tSegmentSize]
  by_cases hin : segment * 128 ≤ offset ∧ offset < (segment + 1) * 128
  · rw [if_pos hin, marked_or]
    congr 2
    apply propext
    omega
  · rw [if_neg hin]
    have hne : ¬ offset = segment * 128 + i := by omega
    simp [hne]

end NfcStack.Rw.T1tLocks
