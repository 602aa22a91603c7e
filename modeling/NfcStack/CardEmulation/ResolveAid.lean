import NfcStack.Lib.SortedMap

/- Resolving an AID in the cache of registered AIDs (`RegisteredAidCache.java`).

   The keys of the cache are AIDs, with a `*` behind a prefix and a `#` behind a subset. To
   resolve an AID all keys between its first ten digits and the AID filled up with F to 32
   digits are looked at.

   What is proved:
     1. `first_le`, `le_filled_iff`: every key that matches lies in this range but one that
        is the filled-up AID with a `*` or a `#`.
     2. `mem_services_resolveAid`: which services are found.
     3. `resolveAid_exact`: when these are the services of all matching keys. -/
namespace NfcStack.CardEmulation.AidCache
open NfcStack.Lib

/-! ## The code -/

abbrev Aid := List Char

def isPrefix (aid : Aid) : Bool := aid.getLast? == some '*'
def isSubset (aid : Aid) : Bool := aid.getLast? == some '#'

/-- `String.format("%-32s", aid).replace(' ', 'F')`. -/
def filled (aid : Aid) : Aid :=
  (aid ++ List.replicate (32 - aid.length) ' ').map fun c => if c = ' ' then 'F' else c

def equalsIgnoreCase (a b : Aid) : Bool := a.map Char.toUpper == b.map Char.toUpper

inductive Category where
  | payment
  | other
  deriving DecidableEq, Repr

structure ResolvedPrefixConflictAid where
  prefixAid : Option Aid := none
  matchingSubset : Bool := false
  deriving DecidableEq, Repr

variable {σ : Type} [DecidableEq σ]

structure AidResolveInfo (σ : Type) where
  services : List σ := []
  defaultService : Option σ := none
  category : Option Category := none
  prefixInfo : Option ResolvedPrefixConflictAid := none
  unCheckedOffHostSecureElement : List String := []

abbrev Cache (σ : Type) := SortedMap Aid (AidResolveInfo σ)

/-- `services` with those that are not there yet. -/
def addServices (services more : List σ) : List σ :=
  more.foldl (fun l s => if l.contains s then l else l ++ [s]) services

/-- The test in the loop of `resolveAid`. -/
def entryMatches (aid key : Aid) : Bool :=
  let entryAid := if isPrefix key || isSubset key then key.dropLast else key
  equalsIgnoreCase entryAid aid || (isPrefix key && entryAid.isPrefixOf aid) || (isSubset key && aid.isPrefixOf entryAid)

/-- The loop of `resolveAid` at one entry of the range. -/
def resolveEntry (aid : Aid) (r : AidResolveInfo σ) (entry : Aid × AidResolveInfo σ) : AidResolveInfo σ :=
  if entryMatches aid entry.1 then
    let r' := if entry.2.defaultService.isSome then
        { r with defaultService := entry.2.defaultService, category := entry.2.category }
      else r
    { r' with services := addServices r.services entry.2.services }
  else r

/-- `resolveAid`; none is `null`. -/
def resolveAid (supportsPrefixes supportsSubset : Bool) (cache : Cache σ) (aid : Aid) : Option (AidResolveInfo σ) :=
  if aid.length < 10 then some {}
  else if supportsPrefixes || supportsSubset then
    some ((cache.subMap (aid.take 10) (filled aid)).foldl (resolveEntry aid) { category := some .other })
  else cache.get? aid

/-! ## Keys -/

/-- The digits of upper-case AIDs. -/
def hexDigits : List Char := ['0', '1', '2', '3', '4', '5', '6', '7', '8', '9', 'A', 'B', 'C', 'D', 'E', 'F']

/-- An upper-case AID of 5 to 16 bytes' length, a half byte being allowed. -/
structure Digits (a : Aid) : Prop where
  hex : ∀ c ∈ a, c ∈ hexDigits
  ten_le : 10 ≤ a.length
  le : a.length ≤ 32

/-- The keys of the cache. -/
inductive Key : Aid → Prop where
  | exact {a : Aid} : Digits a → Key a
  | pre {p : Aid} : Digits p → Key (p ++ ['*'])
  | sub {s : Aid} : Digits s → Key (s ++ ['#'])

/-- The key is for the AID. -/
inductive Matches (a : Aid) : Aid → Prop where
  | exact : Matches a a
  | pre {p : Aid} : p <+: a → Matches a (p ++ ['*'])
  | sub {s : Aid} : a <+: s → Matches a (s ++ ['#'])

/-- Behind the end of the range. -/
def Beyond (a key : Aid) : Prop := key = filled a ++ ['*'] ∨ key = filled a ++ ['#']

instance (a key : Aid) : Decidable (Beyond a key) := inferInstanceAs (Decidable (_ ∨ _))

section Order
variable {a b p s t : Aid}

theorem digit_bounds {c : Char} (h : c ∈ hexDigits) : '#' < c ∧ '*' < c ∧ c ≤ 'F' ∧ c ≠ ' ' ∧ c.toUpper = c ∧
    c ≠ '*' ∧ c ≠ '#' := by
  simp only [hexDigits, List.mem_cons, List.not_mem_nil, or_false] at h
  rcases h with rfl | rfl | rfl | rfl | rfl | rfl | rfl | rfl | rfl | rfl | rfl | rfl | rfl | rfl | rfl | rfl
  all_goals decide

theorem filled_eq (h : Digits a) : filled a = a ++ List.replicate (32 - a.length) 'F' := by
  unfold filled
  rw [List.map_append, List.map_replicate]
  congr 1
  conv_rhs => rw [← List.map_id a]
  apply List.map_congr_left
  intro c hc
  rw [if_neg (digit_bounds (h.hex c hc)).2.2.2.1]
  rfl

theorem length_filled (h : Digits a) : (filled a).length = 32 := by
  have := h.le
  rw [filled_eq h, List.length_append, List.length_replicate]
  omega

theorem Digits.filled (h : Digits a) : Digits (filled a) := by
  refine ⟨fun c hc => ?_, by rw [length_filled h]; omega, (length_filled h).le⟩
  rw [filled_eq h, List.mem_append] at hc
  rcases hc with hc | hc
  · exact h.hex c hc
  · rw [List.eq_of_mem_replicate hc]
    simp [hexDigits]

theorem sub_le_row (t : Aid) : ∀ {n : Nat}, (∀ c ∈ t, c ∈ hexDigits) → t.length ≤ n →
    (t ++ ['#'] ≤ List.replicate n 'F' ↔ t ≠ List.replicate n 'F') := by
  induction t with
  | nil =>
    intro n _ _
    cases n with
    | zero => simp
    | succ n =>
      refine iff_of_true ?_ (by simp [List.replicate_succ])
      rw [List.nil_append, List.replicate_succ, lex_cons_le_cons]
      exact .inl (by decide)
  | cons c t ih =>
    intro n hhex hlen
    obtain ⟨n, rfl⟩ : ∃ m, n = m + 1 := ⟨n - 1, by simp at hlen; omega⟩
    have hrest := ih (fun x hx => hhex x (List.mem_cons_of_mem _ hx)) (by simpa using hlen)
    have hc := (digit_bounds (hhex c List.mem_cons_self)).2.2.1
    rw [List.cons_append, List.replicate_succ, lex_cons_le_cons, hrest]
    rcases lt_or_eq_of_le hc with hlt | rfl
    · have hne : c ≠ 'F' := ne_of_lt hlt
      simp [hlt, hne]
    · simp

theorem key_digits (h : Key (p ++ ['*'])) : 10 ≤ p.length := by
  generalize hk : p ++ ['*'] = key at h
  cases h with
  | exact hd =>
    have hmem := hd.hex '*' (by rw [← hk]; simp)
    exact absurd rfl (digit_bounds hmem).2.2.2.2.2.1
  | pre hd =>
    obtain rfl := (List.append_inj' hk rfl).1
    exact hd.ten_le
  | sub hd => exact absurd (List.append_inj' hk rfl).2 (by decide)

theorem key_digits_sub (h : Key (s ++ ['#'])) : (∀ c ∈ s, c ∈ hexDigits) ∧ s.length ≤ 32 := by
  generalize hk : s ++ ['#'] = key at h
  cases h with
  | exact hd =>
    have hmem := hd.hex '#' (by rw [← hk]; simp)
    exact absurd rfl (digit_bounds hmem).2.2.2.2.2.2
  | pre hd => exact absurd (List.append_inj' hk rfl).2 (by decide)
  | sub hd =>
    obtain rfl := (List.append_inj' hk rfl).1
    exact ⟨hd.hex, hd.le⟩

end Order

theorem first_le {a key : Aid} (hkey : Key key) (h : Matches a key) : a.take 10 ≤ key := by
  cases h with
  | exact => exact lex_le_of_prefix (List.take_prefix 10 a)
  | pre hp =>
    rename_i p
    have hten : 10 ≤ p.length := key_digits hkey
    have hsub : a.take 10 <+: p := List.prefix_of_prefix_length_le (List.take_prefix 10 a) hp (by simp; omega)
    exact lex_le_of_prefix (hsub.trans (List.prefix_append p ['*']))
  | sub hs =>
    rename_i s
    exact lex_le_of_prefix (((List.take_prefix 10 a).trans hs).trans (List.prefix_append s ['#']))

theorem le_filled_iff {a key : Aid} (ha : Digits a) (hkey : Key key) (h : Matches a key) :
    key ≤ filled a ↔ ¬ Beyond a key := by
  have hlen := ha.le
  cases h with
  | exact =>
    refine iff_of_true ?_ ?_
    · rw [filled_eq ha]
      exact lex_le_append a _
    · rintro (h | h)
      all_goals
        have hl := congrArg List.length h
        rw [List.length_append, length_filled ha, List.length_singleton] at hl
        omega
  | pre hp =>
    rename_i p
    obtain ⟨t, rfl⟩ := hp
    have hbeyond : Beyond (p ++ t) (p ++ ['*']) ↔ p = filled (p ++ t) := by
      constructor
      · rintro (h | h)
        · exact (List.append_inj' h rfl).1
        · exact absurd (List.append_inj' h rfl).2 (by decide)
      · intro h
        exact .inl (by rw [← h])
    rw [hbeyond, filled_eq ha, List.append_assoc, lex_append_le_append]
    cases t with
    | nil =>
      simp only [List.append_nil, List.nil_append, List.self_eq_append_right, List.replicate_eq_nil_iff]
      cases h32 : 32 - p.length with
      | zero => exact iff_of_false (by decide) (by simp)
      | succ n =>
        refine iff_of_true ?_ (by simp)
        rw [List.replicate_succ, lex_cons_le_cons]
        exact .inl (by decide)
    | cons c t =>
      have hc := (digit_bounds (ha.hex c (by simp))).2.1
      refine iff_of_true ?_ ?_
      · rw [List.cons_append, lex_cons_le_cons]
        exact .inl hc
      · intro h
        have hl := congrArg List.length h
        simp only [List.length_append, List.length_cons] at hl
        omega
  | sub hs =>
    rename_i s
    obtain ⟨t, rfl⟩ := hs
    obtain ⟨hhex, hle⟩ := key_digits_sub hkey
    have hbeyond : Beyond a (a ++ t ++ ['#']) ↔ t = List.replicate (32 - a.length) 'F' := by
      rw [Beyond, filled_eq ha]
      constructor
      · rintro (h | h)
        · exact absurd (List.append_inj' h rfl).2 (by decide)
        · exact List.append_cancel_left (List.append_inj' h rfl).1
      · rintro rfl
        exact .inr rfl
    rw [hbeyond, filled_eq ha, List.append_assoc, lex_append_le_append]
    apply sub_le_row t (fun c hc => hhex c (List.mem_append_right _ hc))
    rw [List.length_append] at hle
    omega

/-! ## Resolving -/

section Resolve
variable {σ : Type} [DecidableEq σ]

theorem Digits.toUpper {a : Aid} (h : Digits a) : a.map Char.toUpper = a := by
  conv_rhs => rw [← List.map_id a]
  exact List.map_congr_left fun c hc => (digit_bounds (h.hex c hc)).2.2.2.2.1

theorem Digits.not_marked {a : Aid} (h : Digits a) : isPrefix a = false ∧ isSubset a = false := by
  unfold isPrefix isSubset
  cases hlast : a.getLast? with
  | none => exact ⟨rfl, rfl⟩
  | some c =>
    have hc := (digit_bounds (h.hex c (List.mem_of_getLast? hlast))).2.2.2.2.2
    exact ⟨by simp [hc.1], by simp [hc.2]⟩

theorem Digits.eq_ignoring {a b : Aid} (ha : Digits a) (hb : Digits b) : equalsIgnoreCase a b = true ↔ a = b := by
  rw [equalsIgnoreCase, ha.toUpper, hb.toUpper, beq_iff_eq]

theorem entryMatches_iff {a key : Aid} (ha : Digits a) (hkey : Key key) : entryMatches a key = true ↔ Matches a key := by
  cases hkey with
  | exact hd =>
    obtain ⟨hp, hs⟩ := hd.not_marked
    simp only [entryMatches, hp, hs, Bool.or_false, Bool.false_eq_true, if_false, Bool.false_and, hd.eq_ignoring ha]
    constructor
    · rintro rfl
      exact .exact
    · intro h
      cases h with
      | exact => rfl
      | pre _ => exact absurd hp (by simp [isPrefix])
      | sub _ => exact absurd hs (by simp [isSubset])
  | pre hd =>
    rename_i p
    have hp : isPrefix (p ++ ['*']) = true := by simp [isPrefix]
    have hs : isSubset (p ++ ['*']) = false := by simp [isSubset]
    simp only [entryMatches, hp, hs, if_true, List.dropLast_concat, Bool.true_and, Bool.false_and,
      Bool.or_false, Bool.or_eq_true, hd.eq_ignoring ha, List.isPrefixOf_iff_prefix]
    constructor
    · rintro (rfl | h)
      · exact .pre (List.prefix_refl p)
      · exact .pre h
    · intro h
      generalize hk : p ++ ['*'] = key at h
      cases h with
      | exact => exact absurd hp (by rw [hk]; simp [ha.not_marked.1])
      | pre h' => exact .inr ((List.append_inj' hk rfl).1 ▸ h')
      | sub _ => exact absurd (List.append_inj' hk rfl).2 (by decide)
  | sub hd =>
    rename_i q
    have hp : isPrefix (q ++ ['#']) = false := by simp [isPrefix]
    have hs : isSubset (q ++ ['#']) = true := by simp [isSubset]
    simp only [entryMatches, hp, hs, Bool.or_true, if_true, List.dropLast_concat, Bool.true_and, Bool.false_and,
      Bool.or_false, Bool.or_eq_true, hd.eq_ignoring ha, List.isPrefixOf_iff_prefix]
    constructor
    · rintro (rfl | h)
      · exact .sub (List.prefix_refl q)
      · exact .sub h
    · intro h
      generalize hk : q ++ ['#'] = key at h
      cases h with
      | exact => exact absurd hs (by rw [hk]; simp [ha.not_marked.2])
      | pre _ => exact absurd (List.append_inj' hk rfl).2 (by decide)
      | sub h' => exact .inr ((List.append_inj' hk rfl).1 ▸ h')

theorem mem_addServices {services more : List σ} {s : σ} : s ∈ addServices services more ↔ s ∈ services ∨ s ∈ more := by
  induction more generalizing services with
  | nil => simp [addServices]
  | cons x more ih =>
    have hstep : addServices services (x :: more) =
        addServices (if services.contains x then services else services ++ [x]) more := rfl
    rw [hstep, ih, List.mem_cons]
    split
    case isTrue hx =>
      have hmem : x ∈ services := by simpa using hx
      constructor
      · rintro (h | h)
        · exact .inl h
        · exact .inr (.inr h)
      · rintro (h | rfl | h)
        · exact .inl h
        · exact .inl hmem
        · exact .inr h
    case isFalse =>
      rw [List.mem_append, List.mem_singleton, or_assoc]

theorem nodup_addServices {services more : List σ} (h : services.Nodup) : (addServices services more).Nodup := by
  induction more generalizing services with
  | nil => exact h
  | cons x more ih =>
    have hstep : addServices services (x :: more) =
        addServices (if services.contains x then services else services ++ [x]) more := rfl
    rw [hstep]
    split
    case isTrue => exact ih h
    case isFalse hx =>
      have hnot : x ∉ services := by simpa using hx
      exact ih (List.nodup_append.mpr ⟨h, by simp, by
        intro y hy z hz
        obtain rfl := List.mem_singleton.mp hz
        exact fun heq => hnot (heq ▸ hy)⟩)

theorem foldl_resolveEntry (a : Aid) (es : List (Aid × AidResolveInfo σ)) (r : AidResolveInfo σ) (hr : r.services.Nodup) :
    (es.foldl (resolveEntry a) r).services.Nodup ∧
      ∀ s, s ∈ (es.foldl (resolveEntry a) r).services ↔
        s ∈ r.services ∨ ∃ e ∈ es, entryMatches a e.1 = true ∧ s ∈ e.2.services := by
  induction es generalizing r with
  | nil => exact ⟨hr, by simp⟩
  | cons e es ih =>
    have hservices : (resolveEntry a r e).services =
        if entryMatches a e.1 then addServices r.services e.2.services else r.services := by
      unfold resolveEntry
      split <;> rfl
    have hnodup : (resolveEntry a r e).services.Nodup := by
      rw [hservices]
      split
      · exact nodup_addServices hr
      · exact hr
    obtain ⟨h1, h2⟩ := ih (resolveEntry a r e) hnodup
    refine ⟨h1, fun s => ?_⟩
    rw [List.foldl_cons, h2, hservices]
    split
    case isTrue hm =>
      rw [mem_addServices, or_assoc]
      simp [hm]
    case isFalse hm => simp [hm]

variable {supportsPrefixes supportsSubset : Bool} {cache : Cache σ} {a : Aid}

theorem mem_services_resolveAid (hsupport : (supportsPrefixes || supportsSubset) = true)
    (hkeys : ∀ key ∈ cache.keys, Key key) (ha : Digits a) :
    ∃ r, resolveAid supportsPrefixes supportsSubset cache a = some r ∧ r.services.Nodup ∧
      ∀ s, s ∈ r.services ↔ ∃ e ∈ cache.entries, (Matches a e.1 ∧ ¬ Beyond a e.1) ∧ s ∈ e.2.services := by
  have hten := ha.ten_le
  have hfold := foldl_resolveEntry a (cache.subMap (a.take 10) (filled a))
    ({ category := some .other } : AidResolveInfo σ) List.nodup_nil
  refine ⟨_, by rw [resolveAid, if_neg (by omega), if_pos hsupport], hfold.1, fun s => ?_⟩
  rw [hfold.2]
  simp only [List.not_mem_nil, false_or]
  constructor
  · rintro ⟨e, he, hm, hs⟩
    obtain ⟨hmem, -, hhi⟩ := SortedMap.mem_subMap.mp he
    have hkey := hkeys e.1 (List.mem_map_of_mem hmem)
    have hmatch := (entryMatches_iff ha hkey).mp hm
    exact ⟨e, hmem, ⟨hmatch, (le_filled_iff ha hkey hmatch).mp hhi⟩, hs⟩
  · rintro ⟨e, hmem, ⟨hmatch, hnot⟩, hs⟩
    have hkey := hkeys e.1 (List.mem_map_of_mem hmem)
    exact ⟨e, SortedMap.mem_subMap.mpr ⟨hmem, first_le hkey hmatch, (le_filled_iff ha hkey hmatch).mpr hnot⟩,
      (entryMatches_iff ha hkey).mpr hmatch, hs⟩

/-- The services found are those of all keys that match exactly if each service of a key behind the range is one of
another such key, too. -/
theorem resolveAid_exact (hsupport : (supportsPrefixes || supportsSubset) = true)
    (hkeys : ∀ key ∈ cache.keys, Key key) (ha : Digits a) :
    ∃ r, resolveAid supportsPrefixes supportsSubset cache a = some r ∧ r.services.Nodup ∧
      ((∀ s, s ∈ r.services ↔ ∃ e ∈ cache.entries, Matches a e.1 ∧ s ∈ e.2.services) ↔
        ∀ e ∈ cache.entries, Matches a e.1 → Beyond a e.1 → ∀ s ∈ e.2.services,
          ∃ e' ∈ cache.entries, (Matches a e'.1 ∧ ¬ Beyond a e'.1) ∧ s ∈ e'.2.services) := by
  obtain ⟨r, hr, hnodup, hmem⟩ := mem_services_resolveAid hsupport hkeys ha
  refine ⟨r, hr, hnodup, ?_⟩
  constructor
  · intro h e he hmatch _ s hs
    exact (hmem s).mp ((h s).mpr ⟨e, he, hmatch, hs⟩)
  · intro h s
    rw [hmem]
    constructor
    · rintro ⟨e, he, ⟨hmatch, -⟩, hs⟩
      exact ⟨e, he, hmatch, hs⟩
    · rintro ⟨e, he, hmatch, hs⟩
      by_cases hb : Beyond a e.1
      · exact h e he hmatch hb s hs
      · exact ⟨e, he, ⟨hmatch, hb⟩, hs⟩

end Resolve

def oneKey (key : Aid) : Cache Nat := SortedMap.empty.put key { services := [1] }

def aid3 : Aid := ['A', '0', '0', '0', '0', '0', '0', '0', '0', '3']

theorem digits_aid3 : Digits aid3 := ⟨by simp [aid3, hexDigits], by decide, by decide⟩

theorem entries_oneKey (key : Aid) : (oneKey key).entries = [(key, { services := [1] })] := by
  simp [oneKey, SortedMap.put, SortedMap.empty, Entries.put]

theorem resolveAid_exact_prefix :
    ∃ r, resolveAid true false (oneKey (aid3 ++ ['*'])) (aid3 ++ ['1', '0']) = some r ∧ 1 ∈ r.services := by
  have ha : Digits (aid3 ++ ['1', '0']) := ⟨by simp [aid3, hexDigits], by decide, by decide⟩
  have hkeys : ∀ key ∈ (oneKey (aid3 ++ ['*'])).keys, Key key := by
    intro key hkey
    obtain rfl : key = aid3 ++ ['*'] := by simpa [SortedMap.keys, entries_oneKey] using hkey
    exact Key.pre digits_aid3
  obtain ⟨r, hr, -, hiff⟩ := resolveAid_exact (Bool.or_false true) hkeys ha
  refine ⟨r, hr, ?_⟩
  have hin : ∀ e ∈ (oneKey (aid3 ++ ['*'])).entries, ¬ Beyond (aid3 ++ ['1', '0']) e.1 := by
    intro e he
    obtain rfl : e = (aid3 ++ ['*'], { services := [1] }) := by simpa [entries_oneKey] using he
    decide
  refine (hiff.mpr (fun e he _ hb => absurd hb (hin e he)) 1).mpr ?_
  exact ⟨_, by rw [entries_oneKey]; exact List.mem_singleton_self _, .pre ⟨['1', '0'], rfl⟩, List.mem_singleton_self _⟩

/-- The subset key A000000003 and 22 F is for A000000003, but is not found. -/
theorem filled_subset_missed :
    Digits aid3 ∧ Key (filled aid3 ++ ['#']) ∧ Matches aid3 (filled aid3 ++ ['#']) ∧
      ∃ r, resolveAid true true (oneKey (filled aid3 ++ ['#'])) aid3 = some r ∧ 1 ∉ r.services := by
  have hf : Digits (filled aid3) := digits_aid3.filled
  have hkeys : ∀ key ∈ (oneKey (filled aid3 ++ ['#'])).keys, Key key := by
    intro key hkey
    obtain rfl : key = filled aid3 ++ ['#'] := by simpa [SortedMap.keys, entries_oneKey] using hkey
    exact Key.sub hf
  refine ⟨digits_aid3, Key.sub hf, .sub (by rw [filled_eq digits_aid3]; exact List.prefix_append _ _), ?_⟩
  obtain ⟨r, hr, -, hmem⟩ := mem_services_resolveAid (Bool.or_self true) hkeys digits_aid3
  refine ⟨r, hr, fun h => ?_⟩
  obtain ⟨e, he, ⟨-, hnot⟩, -⟩ := (hmem 1).mp h
  obtain rfl : e = (filled aid3 ++ ['#'], { services := [1] }) := by simpa [entries_oneKey] using he
  exact hnot (.inr rfl)

end NfcStack.CardEmulation.AidCache
