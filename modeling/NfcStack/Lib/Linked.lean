import Mathlib

/- Doubly linked lists in a store, and lists coded by differences.

   `Seg m prev next is` says that in the store of links `m` the cells `is` are
   chained in this order, entered from `prev` and left to `next`. Every
   operation is a few stores, so what is needed is: how a segment splits, that
   stores elsewhere leave it alone, and how a store at either end moves that
   end.

   `Deltas v base xs` says that the store of values `v` holds, for each cell,
   the difference to the cell before. -/
namespace NfcStack.Lib

/-! ## Chains -/

structure Link (ι : Type) where
  next : Option ι
  prev : Option ι
  deriving DecidableEq, Repr

variable {ι : Type}

/-- The first cell, or what follows an empty chain. -/
def headOr (next : Option ι) : List ι → Option ι
  | [] => next
  | i :: _ => some i

/-- The last cell, or what precedes an empty chain. -/
def lastOr (prev : Option ι) : List ι → Option ι
  | [] => prev
  | i :: is => lastOr (some i) is

def Seg (m : ι → Link ι) (prev next : Option ι) : List ι → Prop
  | [] => True
  | i :: is => m i = ⟨headOr next is, prev⟩ ∧ Seg m (some i) next is

@[simp] theorem headOr_append (next : Option ι) (xs ys : List ι) :
    headOr next (xs ++ ys) = headOr (headOr next ys) xs := by
  cases xs <;> rfl

@[simp] theorem lastOr_append (prev : Option ι) (xs ys : List ι) :
    lastOr prev (xs ++ ys) = lastOr (lastOr prev xs) ys := by
  induction xs generalizing prev with
  | nil => rfl
  | cons i is ih => exact ih (some i)

theorem mem_of_headOr {next : Option ι} {xs : List ι} {x i : ι}
    (h : headOr next (xs ++ [x]) = some i) : i ∈ xs ++ [x] := by
  cases xs with
  | nil => simpa [headOr, eq_comm] using h
  | cons y ys => exact List.mem_cons.mpr (.inl (Option.some.inj h).symm)

theorem mem_of_lastOr {xs : List ι} {x i : ι} (h : lastOr (some x) xs = some i) : i ∈ x :: xs := by
  induction xs generalizing x with
  | nil => simpa [lastOr, eq_comm] using h
  | cons y ys ih => exact List.mem_cons_of_mem x (ih h)

theorem seg_append {m : ι → Link ι} {prev next : Option ι} {xs ys : List ι} :
    Seg m prev next (xs ++ ys) ↔
      Seg m prev (headOr next ys) xs ∧ Seg m (lastOr prev xs) next ys := by
  induction xs generalizing prev with
  | nil => simp [Seg, lastOr]
  | cons i is ih => simp [Seg, lastOr, ih, and_assoc]

theorem seg_congr {m m' : ι → Link ι} {prev next : Option ι} {xs : List ι}
    (h : ∀ i ∈ xs, m' i = m i) (hs : Seg m prev next xs) : Seg m' prev next xs := by
  induction xs generalizing prev with
  | nil => trivial
  | cons i is ih =>
    obtain ⟨hi, his⟩ := hs
    exact ⟨(h i (by simp)).trans hi, ih (fun j hj => h j (by simp [hj])) his⟩

section Store
variable [DecidableEq ι] {m : ι → Link ι} {prev next : Option ι} {xs : List ι} {i : ι}

theorem seg_update (hi : i ∉ xs) (l : Link ι) (hs : Seg m prev next xs) :
    Seg (Function.update m i l) prev next xs :=
  seg_congr (fun j hj => Function.update_of_ne (fun h : j = i => hi (h ▸ hj)) _ _) hs

/-- The first cell is entered from elsewhere. -/
theorem seg_setPrev (hi : i ∉ xs) (hs : Seg m prev next (i :: xs)) (prev' : Option ι) :
    Seg (Function.update m i ⟨(m i).next, prev'⟩) prev' next (i :: xs) := by
  obtain ⟨hm, hxs⟩ := hs
  refine ⟨?_, seg_update hi _ hxs⟩
  rw [Function.update_self, hm]

/-- The last cell is left to elsewhere. -/
theorem seg_setNext (hi : i ∉ xs) (hs : Seg m prev next (xs ++ [i])) (next' : Option ι) :
    Seg (Function.update m i ⟨next', (m i).prev⟩) prev next' (xs ++ [i]) := by
  obtain ⟨hxs, hm, -⟩ := seg_append.mp hs
  refine seg_append.mpr ⟨seg_update hi _ hxs, ?_, trivial⟩
  rw [Function.update_self, hm]
  rfl

end Store

/-! ## Differences -/

/-- The last value, or the one the list starts from. -/
def lastVal (base : Int) : List (ι × Int) → Int
  | [] => base
  | x :: xs => lastVal x.2 xs

def Deltas (v : ι → Int) (base : Int) : List (ι × Int) → Prop
  | [] => True
  | x :: xs => v x.1 = x.2 - base ∧ Deltas v x.2 xs

@[simp] theorem lastVal_append (base : Int) (xs ys : List (ι × Int)) :
    lastVal base (xs ++ ys) = lastVal (lastVal base xs) ys := by
  induction xs generalizing base with
  | nil => rfl
  | cons x xs ih => exact ih x.2

theorem deltas_append {v : ι → Int} {base : Int} {xs ys : List (ι × Int)} :
    Deltas v base (xs ++ ys) ↔ Deltas v base xs ∧ Deltas v (lastVal base xs) ys := by
  induction xs generalizing base with
  | nil => simp [Deltas, lastVal]
  | cons x xs ih => simp [Deltas, lastVal, ih, and_assoc]

theorem deltas_congr {v v' : ι → Int} {base : Int} {xs : List (ι × Int)}
    (h : ∀ x ∈ xs, v' x.1 = v x.1) (hs : Deltas v base xs) : Deltas v' base xs := by
  induction xs generalizing base with
  | nil => trivial
  | cons x xs ih =>
    obtain ⟨hx, hxs⟩ := hs
    exact ⟨(h x (by simp)).trans hx, ih (fun y hy => h y (by simp [hy])) hxs⟩

section Store
variable [DecidableEq ι] {v : ι → Int} {base : Int} {xs ys : List (ι × Int)} {x y : ι × Int}

theorem deltas_update {i : ι} (hi : i ∉ xs.map Prod.fst) (d : Int) (hs : Deltas v base xs) :
    Deltas (Function.update v i d) base xs := by
  refine deltas_congr (fun z hz => ?_) hs
  exact Function.update_of_ne (fun h : z.1 = i => hi (h ▸ List.mem_map_of_mem hz)) _ _

/-- A cell comes in, and the one after it is taken relative to it. -/
theorem deltas_insert (hx : x.1 ∉ (xs ++ y :: ys).map Prod.fst)
    (hy : y.1 ∉ (xs ++ ys).map Prod.fst) (hs : Deltas v base (xs ++ y :: ys)) :
    Deltas (Function.update (Function.update v x.1 (x.2 - lastVal base xs)) y.1
      (v y.1 - (x.2 - lastVal base xs))) base (xs ++ x :: y :: ys) := by
  simp only [List.map_append, List.map_cons, List.mem_append, List.mem_cons, not_or] at hx hy
  obtain ⟨hxs, hvy, hys⟩ := deltas_append.mp hs
  refine deltas_append.mpr ⟨deltas_update hy.1 _ (deltas_update hx.1 _ hxs), ?_, ?_,
    deltas_update hy.2 _ (deltas_update hx.2.2 _ hys)⟩
  · rw [Function.update_of_ne hx.2.1, Function.update_self]
  · rw [Function.update_self, hvy]
    omega

/-- A cell goes out, and the one after it is taken relative to the one before. -/
theorem deltas_erase (hy : y.1 ∉ (xs ++ ys).map Prod.fst)
    (hs : Deltas v base (xs ++ x :: y :: ys)) :
    Deltas (Function.update v y.1 (v y.1 + v x.1)) base (xs ++ y :: ys) := by
  simp only [List.map_append, List.mem_append, not_or] at hy
  obtain ⟨hxs, hvx, hvy, hys⟩ := deltas_append.mp hs
  refine deltas_append.mpr ⟨deltas_update hy.1 _ hxs, ?_, deltas_update hy.2 _ hys⟩
  rw [Function.update_self, hvx, hvy]
  omega

end Store

/-- The differences add up to the last value. -/
theorem deltas_sum {v : ι → Int} {base : Int} {xs : List (ι × Int)} (hs : Deltas v base xs) :
    base + (xs.map fun x => v x.1).sum = lastVal base xs := by
  induction xs generalizing base with
  | nil => simp [lastVal]
  | cons x xs ih =>
    obtain ⟨hx, hxs⟩ := hs
    have := ih hxs
    simp only [List.map_cons, List.sum_cons, lastVal]
    omega

end NfcStack.Lib
