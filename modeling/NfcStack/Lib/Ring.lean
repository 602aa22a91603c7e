import Mathlib

/- A queue in an array that is used as a ring: its elements lie from a position on, and the
   positions go around the end of the array. -/
namespace NfcStack.Lib

variable {α : Type} {xs q : List α} {head n k : Nat}

/-- The elements of `q` lie in `xs` from `head` on, around the end. -/
structure RingHolds (xs : List α) (head : Nat) (q : List α) : Prop where
  inside : head < xs.length
  fits : q.length ≤ xs.length
  elems : ∀ i < q.length, xs[(head + i) % xs.length]? = q[i]?

/-- A position that is moved on by no more than the length of the array. -/
theorem ring_wrap (hhead : head < n) (hk : k ≤ n) :
    (if head + k ≥ n then head + k - n else head + k) = (head + k) % n := by
  split
  · rename_i hge
    rw [Nat.mod_eq_sub_mod hge, Nat.mod_eq_of_lt (by omega)]
  · rename_i hlt
    rw [Nat.mod_eq_of_lt (by omega)]

theorem ringHolds_nil (hpos : 0 < xs.length) : RingHolds xs 0 [] :=
  ⟨hpos, Nat.zero_le _, fun i hi => absurd hi (Nat.not_lt_zero i)⟩

theorem ring_ne {i j : Nat} (hhead : head < n) (hi : i < j) (hj : j < n) : (head + i) % n ≠ (head + j) % n := by
  rw [← ring_wrap hhead (by omega), ← ring_wrap hhead (by omega)]
  split <;> split <;> omega

theorem RingHolds.push (h : RingHolds xs head q) (hroom : q.length < xs.length) (a : α) :
    RingHolds (xs.set ((head + q.length) % xs.length) a) head (q ++ [a]) := by
  have hpos : 0 < xs.length := by omega
  constructor
  · rw [List.length_set]
    exact h.inside
  · rw [List.length_set, List.length_append, List.length_singleton]
    exact hroom
  · intro i hi
    rw [List.length_append, List.length_singleton] at hi
    rw [List.length_set]
    rcases Nat.lt_or_ge i q.length with hlt | hge
    · rw [List.getElem?_set_ne (Ne.symm (ring_ne h.inside hlt hroom)), List.getElem?_append_left hlt]
      exact h.elems i hlt
    · obtain rfl : i = q.length := by omega
      rw [List.getElem?_set_self (Nat.mod_lt _ hpos), List.getElem?_concat_length]

theorem RingHolds.drop (h : RingHolds xs head q) (hn : n ≤ q.length) :
    RingHolds xs ((head + n) % xs.length) (q.drop n) := by
  have hpos : 0 < xs.length := Nat.lt_of_le_of_lt (Nat.zero_le _) h.inside
  constructor
  · exact Nat.mod_lt _ hpos
  · rw [List.length_drop]
    exact Nat.le_trans (Nat.sub_le _ _) h.fits
  · intro i hi
    rw [List.length_drop] at hi
    rw [List.getElem?_drop, ← h.elems (n + i) (by omega), Nat.mod_add_mod, Nat.add_assoc]

end NfcStack.Lib
