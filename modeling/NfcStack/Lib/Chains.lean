import NfcStack.Lib.Linked

/- Several singly linked lists in one store of links. `Chained next stop is` says
   that the cells `is` follow each other in `next` and the last one is followed by
   `stop`; `Chains next ls` that each `ls k` is such a list, ended by a null link,
   and that no cell is in two of them or twice in one.

   The five ways to edit a list (`push`, `cons`, `pop`, `cut`, and a store outside
   all lists) are given as the stores a program makes and what they do to the
   lists. `edit` is the frame rule they share: only one list changes, and only
   cells of that list and a new one are stored to. -/
namespace NfcStack.Lib

variable {ι κ : Type}

/-! ## One list -/

def Chained (next : ι → Option ι) (stop : Option ι) : List ι → Prop
  | [] => True
  | i :: is => next i = headOr stop is ∧ Chained next stop is

theorem headOr_none (is : List ι) : headOr none is = is.head? := by
  cases is <;> rfl

variable {next : ι → Option ι}

theorem chained_append {stop : Option ι} {xs ys : List ι} :
    Chained next stop (xs ++ ys) ↔ Chained next (headOr stop ys) xs ∧ Chained next stop ys := by
  induction xs with
  | nil => simp [Chained]
  | cons i is ih => simp [Chained, ih, and_assoc]

theorem chained_congr {next next' : ι → Option ι} {stop : Option ι} {xs : List ι}
    (h : ∀ i ∈ xs, next' i = next i) (hs : Chained next stop xs) : Chained next' stop xs := by
  induction xs with
  | nil => trivial
  | cons i is ih =>
    obtain ⟨hi, his⟩ := hs
    exact ⟨(h i (by simp)).trans hi, ih (fun j hj => h j (by simp [hj])) his⟩

theorem Chained.next_eq {xs ys : List ι} {i : ι}
    (h : Chained next none (xs ++ i :: ys)) : next i = ys.head? := by
  obtain ⟨-, hi, -⟩ := chained_append.mp h
  rw [hi, headOr_none]

theorem Chained.next_head {ys : List ι} {i : ι}
    (h : Chained next none (i :: ys)) : next i = ys.head? := by
  rw [h.1, headOr_none]

/-- Cells laid out one after the other, each linked to the next. -/
theorem chained_range {f : Nat → ι} {n : Nat}
    (h : ∀ i < n, next (f i) = if i + 1 < n then some (f (i + 1)) else none) :
    Chained next none ((List.range n).map f) := by
  have hfrom : ∀ m start, start + m = n → Chained next none ((List.range' start m).map f) := by
    intro m
    induction m with
    | zero => exact fun _ _ => trivial
    | succ m ih =>
      intro start hsum
      rw [List.range'_succ, List.map_cons]
      refine ⟨?_, ih (start + 1) (by omega)⟩
      rw [h start (by omega)]
      cases m with
      | zero =>
        rw [if_neg (by omega)]
        rfl
      | succ m =>
        rw [if_pos (by omega), List.range'_succ, List.map_cons]
        rfl
  rw [List.range_eq_range']
  exact hfrom n 0 (by omega)

/-- A list and the same list without the cell behind `p`. -/
theorem perm_cut (xs ys : List ι) (p i : ι) :
    (xs ++ p :: i :: ys).Perm (i :: (xs ++ p :: ys)) := by
  have hassoc : xs ++ p :: i :: ys = (xs ++ [p]) ++ i :: ys := by simp
  have hassoc' : xs ++ p :: ys = (xs ++ [p]) ++ ys := by simp
  rw [hassoc, hassoc']
  exact List.perm_middle

/-! ## A family of lists -/

structure Chains (next : ι → Option ι) (ls : κ → List ι) : Prop where
  linked : ∀ k, Chained next none (ls k)
  nodup : ∀ k, (ls k).Nodup
  apart : ∀ k k' i, i ∈ ls k → i ∈ ls k' → k = k'

/-- The link of the cell that a pointer names is set; nothing happens through a
null pointer. -/
def relink [DecidableEq ι] (next : ι → Option ι) (p : Option ι) (q : Option ι) : ι → Option ι :=
  match p with
  | none => next
  | some i => Function.update next i q

namespace Chains
variable [DecidableEq κ] {next next' : ι → Option ι} {ls : κ → List ι} {k : κ} {i : ι}

/-- One list becomes `is`, made of its own cells and cells of no list, and the
stores leave the other lists alone. -/
theorem edit (h : Chains next ls) (k : κ) {is : List ι} (hlinked : Chained next' none is)
    (hnodup : is.Nodup) (hmem : ∀ i ∈ is, i ∈ ls k ∨ ∀ k', i ∉ ls k')
    (hframe : ∀ k', k' ≠ k → ∀ i ∈ ls k', next' i = next i) :
    Chains next' (Function.update ls k is) := by
  refine ⟨?_, ?_, ?_⟩
  · intro k'
    by_cases hk : k' = k
    · subst hk
      rw [Function.update_self]
      exact hlinked
    · rw [Function.update_of_ne hk]
      exact chained_congr (hframe k' hk) (h.linked k')
  · intro k'
    by_cases hk : k' = k
    · subst hk
      rw [Function.update_self]
      exact hnodup
    · rw [Function.update_of_ne hk]
      exact h.nodup k'
  · -- a cell of the edited list is not in another one
    have hout : ∀ k', k' ≠ k → ∀ i ∈ is, i ∉ ls k' := by
      intro k' hk i hi hi'
      rcases hmem i hi with hin | hno
      · exact hk (h.apart k' k i hi' hin)
      · exact hno k' hi'
    intro a b i ha hb
    by_cases hak : a = k
    · subst hak
      rw [Function.update_self] at ha
      by_contra hab
      rw [Function.update_of_ne (Ne.symm hab)] at hb
      exact hout b (Ne.symm hab) i ha hb
    · rw [Function.update_of_ne hak] at ha
      by_cases hbk : b = k
      · subst hbk
        rw [Function.update_self] at hb
        exact absurd ha (hout a hak i hb)
      · rw [Function.update_of_ne hbk] at hb
        exact h.apart a b i ha hb

section Stores
variable [DecidableEq ι]

omit [DecidableEq κ] in
theorem outside (h : Chains next ls) (hi : ∀ k, i ∉ ls k) (q : Option ι) :
    Chains (Function.update next i q) ls := by
  refine ⟨fun k => ?_, h.nodup, h.apart⟩
  apply chained_congr _ (h.linked k)
  intro j hj
  apply Function.update_of_ne
  rintro rfl
  exact hi k hj

/-- A cell is appended: the last one is linked to it. -/
theorem push (h : Chains next ls) (k : κ) (hi : ∀ k, i ∉ ls k) :
    Chains (Function.update (relink next (ls k).getLast? (some i)) i none)
      (Function.update ls k (ls k ++ [i])) := by
  have hnodup : (ls k ++ [i]).Nodup := by
    rw [List.nodup_append]
    refine ⟨h.nodup k, List.nodup_singleton i, ?_⟩
    intro a ha b hb hab
    rw [List.mem_singleton.mp hb] at hab
    exact hi k (hab ▸ ha)
  have hmem : ∀ j ∈ ls k ++ [i], j ∈ ls k ∨ ∀ k', j ∉ ls k' := by
    intro j hj
    rcases List.mem_append.mp hj with hj | hj
    · exact .inl hj
    · rw [List.mem_singleton.mp hj]
      exact .inr hi
  have hne : ∀ {k' : κ} {j : ι}, j ∈ ls k' → j ≠ i := by
    rintro k' j hj rfl
    exact hi k' hj
  rcases List.eq_nil_or_concat (ls k) with hnil | ⟨xs, l, hconcat⟩
  · apply h.edit k _ hnodup hmem
    · intro k' _ j hj
      rw [Function.update_of_ne (hne hj), hnil]
      rfl
    · rw [hnil]
      exact ⟨Function.update_self .., trivial⟩
  · have hlast : ls k = xs ++ [l] := by rw [hconcat, List.concat_eq_append]
    have hl : l ∈ ls k := by simp [hlast]
    have hlink := h.linked k
    have hnd := h.nodup k
    rw [hlast, chained_append] at hlink
    rw [hlast] at hnd
    have hget : (ls k).getLast? = some l := by simp [hlast]
    rw [hget]
    apply h.edit k _ hnodup hmem
    · intro k' hk j hj
      have hjl : j ≠ l := by
        rintro rfl
        exact hk (h.apart k' k j hj hl)
      rw [Function.update_of_ne (hne hj)]
      exact Function.update_of_ne hjl _ _
    · have hli : l ≠ i := hne hl
      rw [hlast, List.append_assoc, chained_append]
      refine ⟨chained_congr ?_ hlink.1, ?_, ?_, trivial⟩
      · intro j hj
        have hjl : j ≠ l := by
          rintro rfl
          exact (List.disjoint_of_nodup_append hnd) hj (List.mem_singleton_self j)
        have hjk : j ∈ ls k := by
          rw [hlast]
          exact List.mem_append_left _ hj
        have hji : j ≠ i := hne hjk
        rw [Function.update_of_ne hji]
        exact Function.update_of_ne hjl _ _
      · rw [Function.update_of_ne hli]
        exact Function.update_self ..
      · exact Function.update_self ..

theorem cons (h : Chains next ls) (k : κ) (hi : ∀ k, i ∉ ls k) :
    Chains (Function.update next i (ls k).head?) (Function.update ls k (i :: ls k)) := by
  have hne : ∀ {k' : κ} {j : ι}, j ∈ ls k' → j ≠ i := by
    rintro k' j hj rfl
    exact hi k' hj
  apply h.edit k
  · refine ⟨?_, ?_⟩
    · rw [Function.update_self, headOr_none]
    · exact chained_congr (fun j hj => Function.update_of_ne (hne hj) _ _) (h.linked k)
  · exact List.nodup_cons.mpr ⟨hi k, h.nodup k⟩
  · intro j hj
    rcases List.mem_cons.mp hj with rfl | hj
    · exact .inr hi
    · exact .inl hj
  · intro k' _ j hj
    exact Function.update_of_ne (hne hj) _ _

theorem pop (h : Chains next ls) {is : List ι} (hk : ls k = i :: is) :
    Chains (Function.update next i none) (Function.update ls k is) := by
  have hlink := h.linked k
  have hnd := h.nodup k
  rw [hk] at hlink hnd
  rw [List.nodup_cons] at hnd
  apply h.edit k
  · apply chained_congr _ hlink.2
    intro j hj
    apply Function.update_of_ne
    rintro rfl
    exact hnd.1 hj
  · exact hnd.2
  · intro j hj
    rw [hk]
    exact .inl (List.mem_cons_of_mem i hj)
  · intro k' hk' j hj
    apply Function.update_of_ne
    rintro rfl
    exact hk' (h.apart k' k j hj (by simp [hk]))

theorem cut (h : Chains next ls) {xs ys : List ι} {p : ι} (hk : ls k = xs ++ p :: i :: ys) :
    Chains (Function.update (Function.update next p (next i)) i none)
      (Function.update ls k (xs ++ p :: ys)) := by
  have hlink := h.linked k
  have hnd := h.nodup k
  have hnexti : next i = ys.head? := by
    have hsplit : ls k = (xs ++ [p]) ++ i :: ys := by simp [hk]
    rw [hsplit] at hlink
    exact hlink.next_eq
  rw [hk] at hlink hnd
  obtain ⟨hxs, -, -, hys⟩ := chained_append.mp hlink
  have hsub : (xs ++ p :: ys).Sublist (xs ++ p :: i :: ys) :=
    List.Sublist.append_left (List.Sublist.cons_cons p (List.sublist_cons_self i ys)) xs
  have hnd' := hsub.nodup hnd
  -- no cell of the new list is `i`, and only one of its cells is `p`
  have hi_notin : i ∉ xs ++ p :: ys := by
    have hmid : (i :: (xs ++ p :: ys)).Nodup := by
      exact (perm_cut xs ys p i).nodup_iff.mp hnd
    exact (List.nodup_cons.mp hmid).1
  have hp_notin : p ∉ xs ++ ys := by
    have hmid : (p :: (xs ++ ys)).Nodup := List.perm_middle.nodup_iff.mp hnd'
    exact (List.nodup_cons.mp hmid).1
  have hstore : ∀ j, j ≠ p → j ≠ i →
      Function.update (Function.update next p (next i)) i none j = next j := by
    intro j hjp hji
    rw [Function.update_of_ne hji, Function.update_of_ne hjp]
  have hsame : ∀ j ∈ xs ++ ys, Function.update (Function.update next p (next i)) i none j =
      next j := by
    intro j hj
    apply hstore
    · rintro rfl
      exact hp_notin hj
    · rintro rfl
      apply hi_notin
      rcases List.mem_append.mp hj with hj | hj
      · exact List.mem_append_left _ hj
      · exact List.mem_append_right _ (List.mem_cons_of_mem p hj)
  apply h.edit k
  · rw [chained_append]
    refine ⟨chained_congr (fun j hj => hsame j (List.mem_append_left _ hj)) hxs, ?_, ?_⟩
    · have hpi : p ≠ i := by
        rintro rfl
        exact hi_notin (by simp)
      rw [Function.update_of_ne hpi, Function.update_self, hnexti, headOr_none]
    · exact chained_congr (fun j hj => hsame j (List.mem_append_right _ hj)) hys
  · exact hnd'
  · intro j hj
    rw [hk]
    exact .inl (hsub.subset hj)
  · intro k' hk' j hj
    have hout : j ∉ xs ++ p :: i :: ys := by
      intro hj'
      rw [← hk] at hj'
      exact hk' (h.apart k' k j hj hj')
    apply hstore
    · rintro rfl
      exact hout (by simp)
    · rintro rfl
      exact hout (by simp)

end Stores

theorem mem_insert {is : List ι} (hmem : ∀ j, j ∈ is ↔ j = i ∨ j ∈ ls k) (j : ι) :
    (∃ k', j ∈ Function.update ls k is k') ↔ j = i ∨ ∃ k', j ∈ ls k' := by
  constructor
  · rintro ⟨k', hj⟩
    by_cases hk : k' = k
    · subst hk
      rw [Function.update_self, hmem] at hj
      exact hj.imp_right fun hj => ⟨k', hj⟩
    · rw [Function.update_of_ne hk] at hj
      exact .inr ⟨k', hj⟩
  · intro hj
    by_cases hin : j ∈ is
    · exact ⟨k, by rwa [Function.update_self]⟩
    · rw [hmem, not_or] at hin
      obtain ⟨k', hk'⟩ := hj.resolve_left hin.1
      have hne : k' ≠ k := by
        rintro rfl
        exact hin.2 hk'
      exact ⟨k', by rwa [Function.update_of_ne hne]⟩

/-- The cells of all lists after one cell went out. -/
theorem mem_remove (h : Chains next ls) {is : List ι} (hi : i ∈ ls k)
    (hmem : ∀ j, j ∈ is ↔ j ≠ i ∧ j ∈ ls k) (j : ι) :
    (∃ k', j ∈ Function.update ls k is k') ↔ j ≠ i ∧ ∃ k', j ∈ ls k' := by
  constructor
  · rintro ⟨k', hj⟩
    by_cases hk : k' = k
    · subst hk
      rw [Function.update_self, hmem] at hj
      exact ⟨hj.1, k', hj.2⟩
    · rw [Function.update_of_ne hk] at hj
      refine ⟨?_, k', hj⟩
      rintro rfl
      exact hk (h.apart k' k j hj hi)
  · rintro ⟨hne, k', hj⟩
    by_cases hk : k' = k
    · subst hk
      exact ⟨k', by rw [Function.update_self, hmem]; exact ⟨hne, hj⟩⟩
    · exact ⟨k', by rwa [Function.update_of_ne hk]⟩

end Chains

end NfcStack.Lib
