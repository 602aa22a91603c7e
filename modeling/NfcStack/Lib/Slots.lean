import Mathlib

/- Fixed tables of slots. A slot is free or holds a key, so a table is read as a
   partial map from slots to keys; a parent table lists its children by a bit
   mask over the child slots. Nothing here knows what is stored.

   `firstSlot` is the search loop over a table, `setBit` and `clearBit` are the
   two mask updates, `Distinct` says that no two slots hold the same key, and
   `Indexes` that each parent's mask lists exactly the children that name it. -/
namespace NfcStack.Lib

/-! ## The search loop -/

/-- The first slot that satisfies `p`, as a `for` loop with an early exit finds it. -/
def firstSlot {n : Nat} (p : Fin n → Bool) : Option (Fin n) := (List.finRange n).find? p

variable {n : Nat} {p : Fin n → Bool}

theorem firstSlot_holds {i : Fin n} (h : firstSlot p = some i) :
    p i = true :=
  List.find?_some h

@[simp] theorem firstSlot_eq_none :
    firstSlot p = none ↔ ∀ i, p i = false := by
  simp [firstSlot]

theorem firstSlot_first {i : Fin n} (h : firstSlot p = some i)
    (j : Fin n) (hj : j < i) : p j = false := by
  obtain ⟨-, as, bs, hsplit, has⟩ := List.find?_eq_some_iff_append.mp h
  -- `as` are the slots before `i`, and `j` is one of them
  have hmem : j ∈ as := by
    have hsorted : (as ++ i :: bs).Pairwise (· < ·) := hsplit ▸ List.pairwise_lt_finRange n
    have hj' : j ∈ as ++ i :: bs := hsplit ▸ List.mem_finRange j
    rcases List.mem_append.mp hj' with h | h
    · exact h
    · rcases List.mem_cons.mp h with rfl | h
      · exact absurd hj (lt_irrefl _)
      · have hlt : i < j := List.rel_of_pairwise_cons (List.pairwise_append.mp hsorted).2.1 h
        exact absurd hlt (not_lt.mpr hj.le)
  simpa using has j hmem

/-! ## The slots that satisfy a predicate -/

/-- All slots that satisfy `p`, in order. -/
def slotsOf {n : Nat} (p : Fin n → Bool) : List (Fin n) := (List.finRange n).filter p

@[simp] theorem mem_slotsOf {i : Fin n} :
    i ∈ slotsOf p ↔ p i = true := by
  simp [slotsOf]

theorem slotsOf_sorted (p : Fin n → Bool) : (slotsOf p).Pairwise (· < ·) :=
  (List.pairwise_lt_finRange n).filter p

theorem head?_slotsOf (p : Fin n → Bool) : (slotsOf p).head? = firstSlot p :=
  List.head?_filter

/-- The list is determined by being in order and by its members. -/
theorem slotsOf_eq {l : List (Fin n)} (hsorted : l.Pairwise (· < ·))
    (hmem : ∀ i, i ∈ l ↔ p i = true) : slotsOf p = l := by
  have hperm : (slotsOf p).Perm l := by
    rw [List.perm_ext_iff_of_nodup (slotsOf_sorted p).nodup hsorted.nodup]
    intro i
    rw [mem_slotsOf, hmem]
  exact hperm.eq_of_pairwise (fun a b _ _ hab hba => absurd (lt_trans hab hba) (lt_irrefl a))
    (slotsOf_sorted p) hsorted

theorem slotsOf_snoc {p q : Fin n → Bool} {j : Fin n} (hlast : ∀ i, p i = true → i < j)
    (hq : ∀ i, q i = true ↔ p i = true ∨ i = j) : slotsOf q = slotsOf p ++ [j] := by
  apply slotsOf_eq
  · rw [List.pairwise_append]
    refine ⟨slotsOf_sorted p, List.pairwise_singleton _ j, ?_⟩
    intro a ha b hb
    rw [List.mem_singleton.mp hb]
    exact hlast a (mem_slotsOf.mp ha)
  · intro i
    rw [List.mem_append, mem_slotsOf, List.mem_singleton, hq]

theorem slotsOf_tail {p q : Fin n → Bool} {j : Fin n} {rest : List (Fin n)}
    (h : slotsOf p = j :: rest) (hq : ∀ i, q i = true ↔ p i = true ∧ i ≠ j) :
    slotsOf q = rest := by
  have hsorted := slotsOf_sorted p
  rw [h, List.pairwise_cons] at hsorted
  apply slotsOf_eq hsorted.2
  intro i
  rw [hq, ← mem_slotsOf, h, List.mem_cons]
  constructor
  · intro hi
    exact ⟨.inr hi, (hsorted.1 i hi).ne'⟩
  · rintro ⟨rfl | hi, hne⟩
    · exact absurd rfl hne
    · exact hi

/-! ## Bit masks -/

def setBit {w : Nat} (mask : BitVec w) (i : Nat) : BitVec w := mask ||| (1#w <<< i)

def clearBit {w : Nat} (mask : BitVec w) (i : Nat) : BitVec w := mask &&& ~~~(1#w <<< i)

theorem getLsbD_one_shiftLeft {w : Nat} (i j : Nat) :
    (1#w <<< i).getLsbD j = (decide (j = i) && decide (j < w)) := by
  rw [← BitVec.twoPow_eq, BitVec.getLsbD_twoPow]
  rcases eq_or_ne j i with rfl | h
  · simp
  · simp [h, h.symm]

theorem getLsbD_setBit {w : Nat} (mask : BitVec w) {i : Nat} (hi : i < w) (j : Nat) :
    (setBit mask i).getLsbD j = (mask.getLsbD j || decide (j = i)) := by
  unfold setBit
  rw [BitVec.getLsbD_or, getLsbD_one_shiftLeft]
  by_cases h : j = i <;> simp [h, hi]

theorem getLsbD_clearBit {w : Nat} (mask : BitVec w) (i j : Nat) :
    (clearBit mask i).getLsbD j = (mask.getLsbD j && decide (j ≠ i)) := by
  unfold clearBit
  rw [BitVec.getLsbD_and, BitVec.getLsbD_not, getLsbD_one_shiftLeft]
  by_cases hj : j < w
  · by_cases h : j = i <;> simp [h, hj]
  · simp [BitVec.getLsbD_of_ge mask j (by omega)]

/-! ## Keys -/

variable {ι π K : Type}

def Distinct (key : ι → Option K) : Prop :=
  ∀ i j k, key i = some k → key j = some k → i = j

/-- The mask of every parent in use lists exactly the children that name it. -/
def Indexes (parent : π → Option K) (listed : π → ι → Prop) (home : ι → Option K) : Prop :=
  ∀ g k, parent g = some k → ∀ i, listed g i ↔ home i = some k

section Update
variable [DecidableEq ι]

theorem Distinct.update_none {key : ι → Option K} (h : Distinct key) (i : ι) :
    Distinct (Function.update key i none) := by
  intro a b k ha hb
  rcases eq_or_ne a i with rfl | hai
  · simp at ha
  · rcases eq_or_ne b i with rfl | hbi
    · simp at hb
    · rw [Function.update_of_ne hai] at ha
      rw [Function.update_of_ne hbi] at hb
      exact h a b k ha hb

theorem Distinct.update_some {key : ι → Option K} (h : Distinct key) (i : ι) (k : K)
    (fresh : ∀ j, j ≠ i → key j ≠ some k) : Distinct (Function.update key i (some k)) := by
  intro a b k' ha hb
  rcases eq_or_ne a i with rfl | hai
  · rcases eq_or_ne b a with rfl | hba
    · rfl
    · rw [Function.update_self, Option.some.injEq] at ha
      rw [Function.update_of_ne hba, ← ha] at hb
      exact absurd hb (fresh b hba)
  · rw [Function.update_of_ne hai] at ha
    rcases eq_or_ne b i with rfl | hbi
    · rw [Function.update_self, Option.some.injEq] at hb
      rw [← hb] at ha
      exact absurd ha (fresh a hai)
    · rw [Function.update_of_ne hbi] at hb
      exact h a b k' ha hb

theorem Indexes.free {parent : π → Option K} {listed listed' : π → ι → Prop}
    {home : ι → Option K} (h : Indexes parent listed home) (i : ι)
    (struck : ∀ g k, parent g = some k → ∀ j, listed' g j ↔ listed g j ∧ j ≠ i) :
    Indexes parent listed' (Function.update home i none) := by
  intro g k hg j
  rw [struck g k hg j, h g k hg j]
  rcases eq_or_ne j i with rfl | hji
  · simp
  · simp [hji]

/-- A child slot gets the home `k`: it is added to the mask of `k` and must not
be listed by any other parent. -/
theorem Indexes.place {parent : π → Option K} {listed listed' : π → ι → Prop}
    {home : ι → Option K} (h : Indexes parent listed home) (i : ι) (k : K)
    (at_home : ∀ g, parent g = some k → ∀ j, listed' g j ↔ listed g j ∨ j = i)
    (elsewhere : ∀ g k', parent g = some k' → k' ≠ k → ∀ j, listed' g j ↔ listed g j)
    (unlisted : ∀ g k', parent g = some k' → k' ≠ k → ¬ listed g i) :
    Indexes parent listed' (Function.update home i (some k)) := by
  intro g k' hg j
  rcases eq_or_ne k' k with rfl | hk
  · rw [at_home g hg j, h g k' hg j]
    rcases eq_or_ne j i with rfl | hji
    · simp
    · simp [hji]
  · rw [elsewhere g k' hg hk j, h g k' hg j]
    rcases eq_or_ne j i with rfl | hji
    · have hno : home j ≠ some k' := fun hj => unlisted g k' hg hk ((h g k' hg j).mpr hj)
      simp [hno, hk.symm]
    · simp [hji]

end Update

section Parents
variable [DecidableEq π]

/-- A parent slot takes a key that no child names, with an empty mask. -/
theorem Indexes.open_parent {parent : π → Option K} {listed listed' : π → ι → Prop}
    {home : ι → Option K} (h : Indexes parent listed home) (g : π) (k : K)
    (empty : ∀ j, ¬ listed' g j) (others : ∀ g', g' ≠ g → ∀ j, listed' g' j ↔ listed g' j)
    (unnamed : ∀ i, home i ≠ some k) :
    Indexes (Function.update parent g (some k)) listed' home := by
  intro g' k' hg' j
  rcases eq_or_ne g' g with rfl | hne
  · rw [Function.update_self, Option.some.injEq] at hg'
    subst hg'
    exact iff_of_false (empty j) (unnamed j)
  · rw [Function.update_of_ne hne] at hg'
    rw [others g' hne j, h g' k' hg' j]

/-- A parent slot is freed; its mask no longer matters. -/
theorem Indexes.close_parent {parent : π → Option K} {listed listed' : π → ι → Prop}
    {home : ι → Option K} (h : Indexes parent listed home) (g : π)
    (others : ∀ g', g' ≠ g → ∀ j, listed' g' j ↔ listed g' j) :
    Indexes (Function.update parent g none) listed' home := by
  intro g' k' hg' j
  rcases eq_or_ne g' g with rfl | hne
  · simp at hg'
  · rw [Function.update_of_ne hne] at hg'
    rw [others g' hne j, h g' k' hg' j]

end Parents

end NfcStack.Lib
