import Mathlib

/- Association lists with distinct keys, in the order the keys were first put in. `put`
   replaces the value of a key that is there and `remove` drops it, so the keys stay
   distinct (`Keyed.put`, `Keyed.remove`). What a lookup finds is said of each of them
   (`lookup_put`, `lookup_remove`, `lookup_removeAll`); where the keys are distinct, it
   finds every entry (`lookup_of_mem`). -/
namespace NfcStack.Lib.Assoc

variable {κ α β : Type} [DecidableEq κ]

def put (k : κ) (v : α) : List (κ × α) → List (κ × α)
  | [] => [(k, v)]
  | (k', w) :: m => if k' = k then (k, v) :: m else (k', w) :: put k v m

def remove (k : κ) (m : List (κ × α)) : List (κ × α) := m.filter fun e => e.1 ≠ k

/-- No key occurs twice. -/
def Keyed (m : List (κ × α)) : Prop := (m.map Prod.fst).Nodup

omit [DecidableEq κ] in
theorem keyed_cons {e : κ × α} {m : List (κ × α)} :
    Keyed (e :: m) ↔ e.1 ∉ m.map Prod.fst ∧ Keyed m := List.nodup_cons

theorem lookup_cons_ite (k : κ) (e : κ × α) (m : List (κ × α)) :
    (e :: m).lookup k = if k = e.1 then some e.2 else m.lookup k := by
  rw [List.lookup_cons]
  by_cases hk : k = e.1
  · rw [beq_iff_eq.mpr hk, if_pos hk]
  · rw [beq_false_of_ne hk, if_neg hk]

theorem lookup_put (k k' : κ) (v : α) (m : List (κ × α)) :
    (put k v m).lookup k' = if k' = k then some v else m.lookup k' := by
  induction m with
  | nil => exact lookup_cons_ite k' (k, v) []
  | cons e m ih =>
    by_cases he : e.1 = k
    · rw [put, if_pos he, lookup_cons_ite, lookup_cons_ite, he]
      split <;> rfl
    · rw [put, if_neg he, lookup_cons_ite, lookup_cons_ite, ih]
      by_cases hk : k' = e.1
      · rw [if_pos hk, if_neg (hk ▸ he), if_pos hk]
      · rw [if_neg hk, if_neg hk]

theorem lookup_remove (k k' : κ) (m : List (κ × α)) :
    (remove k m).lookup k' = if k' = k then none else m.lookup k' := by
  induction m with
  | nil => simp [remove]
  | cons e m ih =>
    unfold remove at ih ⊢
    by_cases he : e.1 = k
    · rw [List.filter_cons_of_neg (by simp [he]), ih, lookup_cons_ite, he]
      split <;> rfl
    · rw [List.filter_cons_of_pos (by simp [he]), lookup_cons_ite, lookup_cons_ite, ih]
      by_cases hk : k' = e.1
      · rw [if_pos hk, if_neg (hk ▸ he), if_pos hk]
      · rw [if_neg hk, if_neg hk]

/-- Removing the keys of a list one after the other. -/
theorem lookup_removeAll {ε : Type} (key : ε → κ) (k : κ) (es : List ε) :
    ∀ m : List (κ × α), (es.foldl (fun m e => remove (key e) m) m).lookup k =
      if k ∈ es.map key then none else m.lookup k := by
  induction es with
  | nil => simp
  | cons e es ih =>
    intro m
    rw [List.foldl_cons, ih, lookup_remove, List.map_cons]
    by_cases hk : k = key e
    · simp [hk]
    · simp only [List.mem_cons, hk, false_or, if_false]

theorem mem_keys_put {k k' : κ} {v : α} {m : List (κ × α)} :
    k' ∈ (put k v m).map Prod.fst ↔ k' = k ∨ k' ∈ m.map Prod.fst := by
  induction m with
  | nil => simp [put]
  | cons e m ih =>
    by_cases he : e.1 = k
    · simp [put, he]
    · rw [put, if_neg he, List.map_cons, List.mem_cons, ih, List.map_cons, List.mem_cons]
      tauto

theorem Keyed.put {k : κ} {v : α} {m : List (κ × α)} (h : Keyed m) : Keyed (put k v m) := by
  induction m with
  | nil => exact List.nodup_singleton k
  | cons e m ih =>
    obtain ⟨hnot, hm⟩ := keyed_cons.mp h
    by_cases he : e.1 = k
    · rw [Assoc.put, if_pos he]
      exact keyed_cons.mpr ⟨he ▸ hnot, hm⟩
    · rw [Assoc.put, if_neg he]
      refine keyed_cons.mpr ⟨fun hmem => ?_, ih hm⟩
      rcases mem_keys_put.mp hmem with hek | hmem
      · exact he hek
      · exact hnot hmem

omit [DecidableEq κ] in
theorem Keyed.filter {p : κ × α → Bool} {m : List (κ × α)} (h : Keyed m) : Keyed (m.filter p) :=
  List.Nodup.sublist (List.filter_sublist.map Prod.fst) h

theorem Keyed.remove {k : κ} {m : List (κ × α)} (h : Keyed m) : Keyed (remove k m) := h.filter

theorem lookup_of_mem {k : κ} {v : α} {m : List (κ × α)} (h : Keyed m) (hmem : (k, v) ∈ m) :
    m.lookup k = some v := by
  induction m with
  | nil => cases hmem
  | cons e m ih =>
    obtain ⟨hnot, hm⟩ := keyed_cons.mp h
    rcases List.mem_cons.mp hmem with rfl | hmem
    · exact List.lookup_cons_self
    · have hne : k ≠ e.1 := by
        intro hk
        exact hnot (hk ▸ List.mem_map_of_mem hmem)
      rw [lookup_cons_ite, if_neg hne]
      exact ih hm hmem

theorem mem_of_lookup {k : κ} {v : α} {m : List (κ × α)} (h : m.lookup k = some v) :
    (k, v) ∈ m := by
  obtain ⟨l₁, l₂, rfl, -⟩ := List.lookup_eq_some_iff.mp h
  exact List.mem_append_right _ List.mem_cons_self

end NfcStack.Lib.Assoc
