import NfcStack.Ndef.Accepted
import NfcStack.Nfa.NdefDispatch

/- When the handlers of an NDEF message are called as the records ask for.

   The code differs in two places. A record without a type is taken for any type of its type
   name format, and the length of a record without a payload leaves its type out.

   What is proved:
     1. `taken_due_iff`: who is called for a record is who is due, exactly if no type is taken
        for another.
     2. `dispatch_iff`: over the records of a message, by induction.
     3. `records_dispatched`: on every message that the validator accepts. -/
namespace NfcStack.Nfa.NdefDm
open NfcStack.Lib NfcStack.Ndef

/-! ## When the calls are those that are asked for -/

abbrev specTakes (h : Handler) (r : Rec) : Bool := decide (Matches h r)

/-- For a record without a type: who asks for its type name format and another type was told
the whole message before; and then somebody asks for the record, or there is no default
handler to get it. -/
def UntypedClear (tbl : HandlerTable) (told : Told) (r : Rec) : Prop :=
  r.type = [] → ∀ i h, i ≠ 0 → tbl.slot i = some h → h.tnf = r.tnf → ¬ Matches h r →
    told i = true ∧
      ((∃ j g, j ≠ 0 ∧ tbl.slot j = some g ∧ Matches g r) ∨ tbl.slot 0 = none ∨ told 0 = true)

/-- A record with a type and without a payload goes to handlers of whole messages only. -/
def EmptyClear (tbl : HandlerTable) (told : Told) (r : Rec) : Prop :=
  r.payload = [] → r.type ≠ [] →
    ∀ i ∈ due specTakes tbl told r, tbl.slot i = none ∨ tbl.whole i = true

def Clear (tbl : HandlerTable) : Told → List Rec → Prop
  | _, [] => True
  | told, r :: rs =>
    UntypedClear tbl told r ∧ EmptyClear tbl told r ∧
      Clear tbl (toldBy tbl told (due specTakes tbl told r)) rs

section Exact
variable {tbl : HandlerTable} {msgLen : UInt32} {told : Told} {r : Rec}

abbrev taken (tbl : HandlerTable) (is : List (Fin ndefMaxHandlers)) : List (Fin ndefMaxHandlers) :=
  is.filter fun i => (tbl.slot i).isSome

theorem callsOf_taken (p : Nat) (recLen : UInt32) (is : List (Fin ndefMaxHandlers)) :
    callsOf tbl msgLen p recLen (taken tbl is) = callsOf tbl msgLen p recLen is := by
  induction is with
  | nil => rfl
  | cons i is ih =>
    cases hi : tbl.slot i with
    | none => simp [taken, callsOf, hi] at ih ⊢; exact ih
    | some h => simp [taken, callsOf, hi] at ih ⊢; exact ih

theorem callsOf_inj {p : Nat} {len len' : UInt32} : ∀ {is js : List (Fin ndefMaxHandlers)},
    (∀ i ∈ is, (tbl.slot i).isSome) → (∀ j ∈ js, (tbl.slot j).isSome) →
    (callsOf tbl msgLen p len is = callsOf tbl msgLen p len' js ↔
      is = js ∧ ∀ j ∈ js, tbl.whole j = true ∨ len = len')
  | [], [], _, _ => by simp [callsOf]
  | [], j :: js, _, hj => by
    obtain ⟨h, hh⟩ := Option.isSome_iff_exists.mp (hj j List.mem_cons_self)
    simp [callsOf, hh]
  | i :: is, [], hi, _ => by
    obtain ⟨h, hh⟩ := Option.isSome_iff_exists.mp (hi i List.mem_cons_self)
    simp [callsOf, hh]
  | i :: is, j :: js, hi, hj => by
    obtain ⟨h, hh⟩ := Option.isSome_iff_exists.mp (hi i List.mem_cons_self)
    obtain ⟨g, hg⟩ := Option.isSome_iff_exists.mp (hj j List.mem_cons_self)
    have ih := @callsOf_inj p len len' is js (fun a ha => hi a (List.mem_cons_of_mem _ ha))
      (fun a ha => hj a (List.mem_cons_of_mem _ ha))
    have hhead : callOf h msgLen p len = callOf g msgLen p len' ↔ i = j ∧ (tbl.whole j = true ∨ len = len') := by
      constructor
      · intro heq
        have hij : i = j := by
          apply handleOf_injective
          rw [← tbl.handle_eq i h hh, ← tbl.handle_eq j g hg, ← @callOf_handle msgLen h p len,
            ← @callOf_handle msgLen g p len', heq]
        subst hij
        obtain rfl : h = g := Option.some.inj (hh.symm.trans hg)
        refine ⟨rfl, ?_⟩
        by_cases hw : has h.flags flagHandleWholeMessage
        · exact .inl (by simp [HandlerTable.whole, hh, hw])
        · right
          simpa [callOf, hw] using heq
      · rintro ⟨rfl, hlen⟩
        obtain rfl : h = g := Option.some.inj (hh.symm.trans hg)
        rcases hlen with hw | rfl
        · have hw' : has h.flags flagHandleWholeMessage := by simpa [HandlerTable.whole, hh] using hw
          simp only [callOf, if_pos hw']
        · rfl
    simp only [callsOf, List.filterMap_cons, hh, hg, Option.map_some, List.cons.injEq, hhead] at ih ⊢
    rw [ih]
    simp only [List.forall_mem_cons]
    tauto

theorem codeSpan_eq_iff (r : Rec) : codeSpan r = spanOf r ↔ r.payload = [] → r.type = [] := by
  have htype := r.type_lt
  have hid := r.id_lt
  have hhead : r.head.length ≤ 7 := by
    rw [r.length_head]
    split <;> split <;> omega
  unfold codeSpan spanOf
  by_cases hnil : r.payload = []
  · rw [if_pos hnil, r.length_bytes, hnil, ← UInt32.toNat_inj, ← @List.length_eq_zero_iff _ r.type]
    simp only [UInt32.toNat_ofNat', List.length_nil, forall_const]
    omega
  · rw [if_neg hnil]
    simp [hnil]

section Due
variable {takes : Handler → Rec → Bool}

/-- Somebody at the place takes the record. -/
def At (takes : Handler → Rec → Bool) (tbl : HandlerTable) (r : Rec) (i : Fin ndefMaxHandlers) : Prop :=
  ∃ h, tbl.slot i = some h ∧ takes h r = true

theorem any_iff_at (i : Fin ndefMaxHandlers) : (tbl.slot i).any (takes · r) = true ↔ At takes tbl r i := by
  simp [At, Option.any_eq_true]

theorem mem_due (i : Fin ndefMaxHandlers) : i ∈ due takes tbl told r ↔
    told i = false ∧ ((i ≠ 0 ∧ At takes tbl r i) ∨ (i = 0 ∧ ∀ j, j ≠ 0 → ¬ At takes tbl r j)) := by
  have hplaces : ∀ j : Fin ndefMaxHandlers, j ∈ placesFrom 1 ↔ j ≠ 0 := by decide
  have hnil : (placesFrom 1).filter (fun j => (tbl.slot j).any (takes · r)) = [] ↔
      ∀ j, j ≠ 0 → ¬ At takes tbl r j := by
    simp only [List.filter_eq_nil_iff, hplaces, any_iff_at]
  rw [due, List.mem_filter, offered]
  split
  case isTrue h =>
    have hnone := hnil.mp h
    simp only [List.mem_singleton, Bool.not_eq_true', and_comm]
    constructor
    · rintro ⟨ht, rfl⟩
      exact ⟨ht, .inr ⟨rfl, hnone⟩⟩
    · rintro ⟨ht, ⟨hne, hat⟩ | ⟨rfl, -⟩⟩
      · exact absurd hat (hnone i hne)
      · exact ⟨ht, rfl⟩
  case isFalse h =>
    have hsome : ¬ ∀ j, j ≠ 0 → ¬ At takes tbl r j := fun hc => h (hnil.mpr hc)
    simp only [List.mem_filter, hplaces, any_iff_at, Bool.not_eq_true']
    constructor
    · rintro ⟨⟨hne, hat⟩, ht⟩
      exact ⟨ht, .inl ⟨hne, hat⟩⟩
    · rintro ⟨ht, ⟨hne, hat⟩ | ⟨-, hc⟩⟩
      · exact ⟨⟨hne, hat⟩, ht⟩
      · exact absurd hc hsome

theorem sorted_due : (due takes tbl told r).Pairwise (· < ·) := by
  apply List.Pairwise.filter
  unfold offered
  dsimp only
  split
  · exact List.pairwise_singleton _ _
  · apply List.Pairwise.filter
    decide

end Due

theorem at_code_iff (i : Fin ndefMaxHandlers) : At codeTakes tbl r i ↔
    At specTakes tbl r i ∨ (r.type = [] ∧ ∃ h, tbl.slot i = some h ∧ h.tnf = r.tnf ∧ ¬ Matches h r) := by
  simp only [At, decide_eq_true_eq]
  constructor
  · rintro ⟨h, hi, htnf, hnil | hm⟩
    · by_cases hm : Matches h r
      · exact .inl ⟨h, hi, hm⟩
      · exact .inr ⟨hnil, h, hi, htnf, hm⟩
    · exact .inl ⟨h, hi, hm⟩
  · rintro (⟨h, hi, hm⟩ | ⟨hnil, h, hi, htnf, -⟩)
    · exact ⟨h, hi, hm.1, .inr hm⟩
    · exact ⟨h, hi, htnf, .inl hnil⟩

theorem taken_due_iff : taken tbl (due codeTakes tbl told r) = taken tbl (due specTakes tbl told r) ↔
    UntypedClear tbl told r := by
  have hmem : taken tbl (due codeTakes tbl told r) = taken tbl (due specTakes tbl told r) ↔
      ∀ i, (tbl.slot i).isSome = true → (i ∈ due codeTakes tbl told r ↔ i ∈ due specTakes tbl told r) := by
    constructor
    · intro heq i hi
      have : i ∈ taken tbl (due codeTakes tbl told r) ↔ i ∈ taken tbl (due specTakes tbl told r) := by rw [heq]
      simpa [hi] using this
    · intro h
      apply List.Pairwise.eq_of_mem_iff (r := (· < ·)) (sorted_due.filter _) (sorted_due.filter _)
      intro i
      simp only [List.mem_filter]
      constructor
      · rintro ⟨hd, hi⟩
        exact ⟨(h i hi).mp hd, hi⟩
      · rintro ⟨hd, hi⟩
        exact ⟨(h i hi).mpr hd, hi⟩
  rw [hmem]
  constructor
  · intro h hnil i g hne hi htnf hm
    have hcode : At codeTakes tbl r i := (at_code_iff i).mpr (.inr ⟨hnil, g, hi, htnf, hm⟩)
    have hspec : ¬ At specTakes tbl r i := by
      rintro ⟨g', hi', hm'⟩
      obtain rfl : g = g' := Option.some.inj (hi.symm.trans hi')
      exact hm (of_decide_eq_true hm')
    constructor
    · by_contra ht
      have hd := (h i (by simp [hi])).mp ((mem_due i).mpr ⟨by simpa using ht, .inl ⟨hne, hcode⟩⟩)
      obtain ⟨-, ⟨-, hat⟩ | ⟨hz, -⟩⟩ := (mem_due i).mp hd
      · exact hspec hat
      · exact hne hz
    · by_contra hc
      push Not at hc
      obtain ⟨hno, hdef, ht⟩ := hc
      have hall : ∀ j, j ≠ 0 → ¬ At specTakes tbl r j := by
        rintro j hj ⟨g', hj', hm'⟩
        exact hno j g' hj hj' (of_decide_eq_true hm')
      have hd := (h 0 (Option.isSome_iff_ne_none.mpr hdef)).mpr
        ((mem_due 0).mpr ⟨by simpa using ht, .inr ⟨rfl, hall⟩⟩)
      obtain ⟨-, ⟨hz, -⟩ | ⟨-, hcn⟩⟩ := (mem_due 0).mp hd
      · exact hz rfl
      · exact hcn i hne hcode
  · intro h i hi
    have hother : ∀ j, j ≠ 0 → told j = false → (At codeTakes tbl r j ↔ At specTakes tbl r j) := by
      intro j hj ht
      rw [at_code_iff]
      constructor
      · rintro (hat | ⟨hnil, g, hg, htnf, hm⟩)
        · exact hat
        · exact absurd (h hnil j g hj hg htnf hm).1 (by simp [ht])
      · exact .inl
    rw [mem_due, mem_due]
    apply and_congr_right
    intro ht
    by_cases hz : i = 0
    · subst hz
      have : (∀ j, j ≠ 0 → ¬ At codeTakes tbl r j) ↔ ∀ j, j ≠ 0 → ¬ At specTakes tbl r j := by
        constructor
        · intro hno j hj hat
          exact hno j hj ((at_code_iff j).mpr (.inl hat))
        · intro hno j hj hat
          rcases (at_code_iff j).mp hat with hat | ⟨hnil, g, hg, htnf, hm⟩
          · exact hno j hj hat
          · rcases (h hnil j g hj hg htnf hm).2 with ⟨k, g', hk, hg', hm'⟩ | hdef | htold
            · exact hno k hk ⟨g', hg', decide_eq_true hm'⟩
            · simp [hdef] at hi
            · simp [ht] at htold
      simp [this]
    · simp [hz, hother i hz ht]

theorem toldBy_taken (is : List (Fin ndefMaxHandlers)) : toldBy tbl told (taken tbl is) = toldBy tbl told is := by
  funext i
  cases hi : tbl.slot i with
  | none => simp [toldBy, HandlerTable.whole, hi]
  | some h => simp [toldBy, hi]

theorem head_iff (p : Nat) :
    callsOf tbl msgLen p (codeSpan r) (due codeTakes tbl told r) =
        callsOf tbl msgLen p (spanOf r) (due specTakes tbl told r) ↔
      UntypedClear tbl told r ∧ EmptyClear tbl told r := by
  have hslots : ∀ is, ∀ i ∈ taken tbl is, (tbl.slot i).isSome := fun is i hi => (List.mem_filter.mp hi).2
  have hempty : (∀ j ∈ taken tbl (due specTakes tbl told r), tbl.whole j = true ∨ codeSpan r = spanOf r) ↔
      EmptyClear tbl told r := by
    rw [codeSpan_eq_iff]
    constructor
    · intro h hpay htype i hi
      cases hs : tbl.slot i with
      | none => exact .inl rfl
      | some g =>
        right
        exact (h i (List.mem_filter.mpr ⟨hi, by simp [hs]⟩)).resolve_right fun hc => htype (hc hpay)
    · intro h i hi
      obtain ⟨hdue, hsome⟩ := List.mem_filter.mp hi
      by_cases hnil : r.payload = [] → r.type = []
      · exact .inr hnil
      · have hpt := Classical.not_imp.mp hnil
        left
        exact (h hpt.1 hpt.2 i hdue).resolve_left fun hc => by simp [hc] at hsome
  rw [← callsOf_taken, ← @callsOf_taken tbl msgLen p (spanOf r), callsOf_inj (hslots _) (hslots _),
    taken_due_iff, hempty]

theorem dispatch_iff (rs : List Rec) : ∀ (told : Told) (p : Nat),
    dispatch codeTakes codeSpan tbl msgLen told p rs = dispatch specTakes spanOf tbl msgLen told p rs ↔
      Clear tbl told rs := by
  induction rs with
  | nil => simp [dispatch, Clear]
  | cons r rs ih =>
    intro told p
    rw [dispatch, dispatch, List.cons.injEq, head_iff, Clear, and_assoc]
    apply and_congr_right
    intro huntyped
    apply and_congr_right
    intro hempty
    have htold : toldBy tbl told (due codeTakes tbl told r) = toldBy tbl told (due specTakes tbl told r) := by
      rw [← toldBy_taken, taken_due_iff.mpr huntyped, toldBy_taken]
    rw [htold, ih]

end Exact

theorem ndefHandleMessage_run {cb : DmCb} {mem : Ndef.Bytes} {len : UInt32} (hlen : mem.length = len.toNat)
    (hexcl : cb.exclRfActive = true → cb.exclNdefCback = none)
    (hok : ndefMsgValidate (some mem) len true = some .ok) {rs : List Rec} (hmem : mem = recsBytes rs)
    (hmarked : Marked rs) :
    ∃ cb', ndefHandleMessage cb statusOk mem len =
      some (cb', dispatch codeTakes codeSpan cb.ndefHandler len (fun _ => false) 0 rs) := by
  have hlen3 : ¬ len < 3 := by
    intro hc
    simp [ndefMsgValidate, hc] at hok
  have hlen0 : len ≠ 0 := by
    rintro rfl
    exact hlen3 (by decide)
  have hne : rs ≠ [] := by
    rintro rfl
    apply hlen0
    rw [← UInt32.toNat_inj, ← hlen, hmem]
    rfl
  have hlt := len.toNat_lt
  have hstands : Stands mem 0 rs := by
    refine ⟨[], [], by simp [hmem], rfl, ?_⟩
    rw [recsLen, ← hmem]
    omega
  have hends : EndsOnce rs := endsOnce_of_marked hne fun i hi => (hmarked i hi).2
  have hfuel : rs.length ≤ walkFuel mem := by
    have := hstands.length_le
    rw [walkFuel]
    omega
  obtain ⟨told', hrun⟩ := @messageLoop_spec cb.ndefHandler mem len rs (walkFuel mem) 0 (fun _ => false)
    hstands hends hfuel
  have hshared : (if cb.exclRfActive then cb.exclNdefCback else none) = none := by
    cases hx : cb.exclRfActive with
    | true => simpa using hexcl hx
    | false => simp
  refine ⟨{ cb with ndefHandler := shadow cb.ndefHandler told' }, ?_⟩
  rw [ndefHandleMessage, if_neg (by simp), hshared]
  simp only
  rw [if_neg hlen0, hok, Option.bind_some, if_neg (by simp), ← shadow_notTold, hrun, Option.map_some]

/-- On a message that is accepted, who is called is who asks for the records, each with the
record it asks for or once with the whole message, exactly if no type is taken for another and
no handler of single records gets a record that has a type and no payload. -/
theorem records_dispatched (cb : DmCb) (mem : Ndef.Bytes) (len : UInt32) (hlen : mem.length = len.toNat)
    (hexcl : cb.exclRfActive = true → cb.exclNdefCback = none)
    (hok : ndefMsgValidate (some mem) len true = some .ok) :
    (∃ rs, mem = recsBytes rs ∧ Marked rs) ∧
      ∀ rs, mem = recsBytes rs → Marked rs →
        ∃ cb' calls, ndefHandleMessage cb statusOk mem len = some (cb', calls) ∧
          (∀ i, cb.ndefHandler.whole i = true → calls.flatten.countP (isTo i) ≤ 1) ∧
          (calls = dispatch specTakes spanOf cb.ndefHandler len (fun _ => false) 0 rs ↔
            Clear cb.ndefHandler (fun _ => false) rs) := by
  constructor
  · obtain ⟨rs, hmem, -, hmarked, -, -⟩ := ndefMsgValidate_records hlen hok
    exact ⟨rs, hmem, hmarked⟩
  · intro rs hmem hmarked
    obtain ⟨cb', hrun⟩ := ndefHandleMessage_run hlen hexcl hok hmem hmarked
    refine ⟨cb', _, hrun, fun i hw => ?_, dispatch_iff rs _ 0⟩
    have := @dispatch_once codeTakes codeSpan cb.ndefHandler len i hw rs (fun _ => false) 0
    simpa using this

/-- One handler, of the well-known type T, for single records or for whole messages. -/
def textTable (whole : Bool) : HandlerTable where
  slot i :=
    if i = 1 then some ⟨handleOf 1, if whole then 1 else 0, 7, ndefTnfWkt, 0, [0x54], text_type_lt⟩ else none
  handle_eq i h hi := by
    split at hi
    · subst i
      cases hi
      rfl
    · cases hi

def textCb (whole : Bool) : DmCb := ⟨false, none, textTable whole⟩

/-- A text record with one byte of payload. -/
theorem records_dispatched_text :
    ∃ rs cb' calls, [0xD1, 1, 1, 0x54, 9] = recsBytes rs ∧
      ndefHandleMessage (textCb false) statusOk [0xD1, 1, 1, 0x54, 9] 5 = some (cb', calls) ∧
      (∀ i, (textTable false).whole i = true → calls.flatten.countP (isTo i) ≤ 1) ∧
      (calls = dispatch specTakes spanOf (textTable false) 5 (fun _ => false) 0 rs ↔
        Clear (textTable false) (fun _ => false) rs) := by
  obtain ⟨⟨rs, hmem, hmarked⟩, hall⟩ :=
    records_dispatched (textCb false) [0xD1, 1, 1, 0x54, 9] 5 rfl (by decide) (by decide)
  obtain ⟨cb', calls, hrun⟩ := hall rs hmem hmarked
  exact ⟨rs, cb', calls, hmem, hrun⟩

theorem bareText_il : ¬ has 0xD1 ndefIlMask → ([] : Ndef.Bytes) = [] := fun _ => rfl
theorem bareText_payload : ([] : Ndef.Bytes).length < if has 0xD1 ndefSrMask then 256 else 4294967296 := by decide

/-- A text record without a payload. -/
def bareText : Rec where
  hdr := 0xD1
  type := [0x54]
  id := []
  payload := []
  type_lt := text_type_lt
  id_lt := no_bytes_lt
  id_il := bareText_il
  payload_lt := bareText_payload

/-- The record D1 01 00 54 has four bytes; its handler is told of three. -/
theorem record_cut_short :
    ¬ ∀ (cb : DmCb) (mem : Ndef.Bytes) (len : UInt32), mem.length = len.toNat →
      (cb.exclRfActive = true → cb.exclNdefCback = none) →
      ndefMsgValidate (some mem) len true = some .ok →
      ∀ rs, mem = recsBytes rs → Marked rs →
        (ndefHandleMessage cb statusOk mem len).map Prod.snd =
          some (dispatch specTakes spanOf cb.ndefHandler len (fun _ => false) 0 rs) := by
  intro h
  have hmarked : Marked [bareText] := by
    intro i hi
    obtain rfl : i = 0 := by simpa using hi
    change (bareText.mb ↔ 0 = 0) ∧ (bareText.me ↔ 0 + 1 = 1)
    decide
  have := h (textCb false) [0xD1, 1, 0, 0x54] 4 rfl (by decide) (by decide) [bareText] (by decide) hmarked
  revert this
  decide

end NfcStack.Nfa.NdefDm
