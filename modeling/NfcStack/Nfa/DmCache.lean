import NfcStack.Nfa.DmConfig

/- The copies of the controller's parameters and what is sent to keep them equal. The
   parameters are a map from types to values; a list of TLVs is applied to it one after the
   other. What is to be sent of a list are the TLVs that differ from the map at their turn.

   What is proved:
     1. `checkAll_spec`: a walk sends what differs among the TLVs that a copy can hold, and
        the copies are those of the map behind them.
     2. `checkSetConfig_meets_iff`: when a call keeps the copies equal to the controller.
     3. `config_lost_without_buffer`: a call that fails has changed a copy. -/
namespace NfcStack.Nfa

open NfcStack.Lib

abbrev ParamMap := UInt8 → List UInt8

def applyTlvs (ctrl : ParamMap) (ts : List ParamTlv) : ParamMap :=
  ts.foldl (fun c t => Function.update c t.type t.value) ctrl

/-- The TLVs that differ from the map at their turn, or that are not kept. -/
def changedTlvs (nciVersion : Nat) : ParamMap → List ParamTlv → List ParamTlv
  | _, [] => []
  | ctrl, t :: ts =>
    if paramSlot nciVersion t.type ≠ none ∧ ctrl t.type = t.value then changedTlvs nciVersion ctrl ts
    else t :: changedTlvs nciVersion (Function.update ctrl t.type t.value) ts

def DmParams.value (p : DmParams) (nciVersion : Nat) (type : UInt8) : List UInt8 :=
  match paramSlot nciVersion type with
  | some slot => p.bytes type (if slot.hasLen then p.curLen type else slot.maxLen)
  | none => []

/-- Two maps have the same value for each parameter that is kept. -/
def KeptEq (nciVersion : Nat) (a b : ParamMap) : Prop :=
  ∀ type, paramSlot nciVersion type ≠ none → a type = b type

/-- No length beside a buffer is larger than the buffer. -/
def DmParams.Sized (p : DmParams) (nciVersion : Nat) : Prop :=
  ∀ type slot, paramSlot nciVersion type = some slot → slot.hasLen = true → p.curLen type ≤ slot.maxLen

/-- A TLV that a copy can hold, or that is not kept. -/
def ParamTlv.holds (nciVersion : Nat) (t : ParamTlv) : Bool :=
  match paramSlot nciVersion t.type with
  | some slot => if slot.hasLen then t.value.length ≤ slot.maxLen else t.value.length = slot.maxLen
  | none => true

section Cache
variable {nciVersion : Nat} {p : DmParams} {ctrl known : ParamMap} {t : ParamTlv} {ts : List ParamTlv} {type : UInt8}

/-! ## One TLV -/

theorem bytes_store_same (p : DmParams) (type : UInt8) (value : List UInt8) :
    (p.store type value).bytes type value.length = value := by
  unfold DmParams.bytes DmParams.store
  dsimp only
  rw [Function.update_self]
  apply List.ext_getElem
  · rw [List.length_map, List.length_range]
  · intro i h₁ h₂
    rw [List.getElem_map, List.getElem_range, List.getD_eq_getElem _ _ h₂]

theorem bytes_store_other {other : UInt8} (h : other ≠ type) (value : List UInt8) (len : Nat) :
    (p.store type value).bytes other len = p.bytes other len := by
  unfold DmParams.bytes DmParams.store
  dsimp only
  rw [Function.update_of_ne h]

theorem length_bytes (p : DmParams) (type : UInt8) (len : Nat) : (p.bytes type len).length = len := by
  unfold DmParams.bytes
  rw [List.length_map, List.length_range]

theorem value_store {slot : ParamSlot} (hslot : paramSlot nciVersion t.type = some slot)
    {q : DmParams} (hlen : q.curLen = if slot.hasLen then Function.update p.curLen t.type t.value.length else p.curLen)
    (hstored : q.stored = p.stored) (hholds : t.holds nciVersion = true) :
    (q.store t.type t.value).value nciVersion = Function.update (p.value nciVersion) t.type t.value := by
  unfold ParamTlv.holds at hholds
  rw [hslot] at hholds
  funext other
  by_cases hother : other = t.type
  · subst hother
    rw [Function.update_self]
    unfold DmParams.value
    rw [hslot]
    dsimp only at hholds ⊢
    have hcur : (if slot.hasLen = true then (q.store t.type t.value).curLen t.type else slot.maxLen) =
        t.value.length := by
      show (if slot.hasLen = true then q.curLen t.type else slot.maxLen) = _
      rw [hlen]
      split
      · rw [Function.update_self]
      · rename_i hno
        rw [if_neg hno] at hholds
        exact (of_decide_eq_true hholds).symm
    rw [hcur]
    exact bytes_store_same q t.type t.value
  · rw [Function.update_of_ne hother]
    unfold DmParams.value
    cases paramSlot nciVersion other with
    | none => rfl
    | some slot' =>
      dsimp only
      rw [bytes_store_other hother]
      have hcur : (q.store t.type t.value).curLen other = p.curLen other := by
        show q.curLen other = _
        rw [hlen]
        split
        · rw [Function.update_of_ne hother]
        · rfl
      rw [hcur]
      unfold DmParams.bytes
      rw [hstored]

theorem checkParam_spec (p : DmParams) (t : ParamTlv) :
    (checkParam nciVersion false p t).2 = (t.holds nciVersion &&
      !(decide (paramSlot nciVersion t.type ≠ none) && decide (p.value nciVersion t.type = t.value))) ∧
    ∀ type, paramSlot nciVersion type ≠ none → (checkParam nciVersion false p t).1.value nciVersion type =
      if t.holds nciVersion = true then Function.update (p.value nciVersion) t.type t.value type
      else p.value nciVersion type := by
  cases hslot : paramSlot nciVersion t.type with
  | none =>
    unfold checkParam ParamTlv.holds
    rw [hslot]
    refine ⟨rfl, fun type htype => ?_⟩
    rw [if_pos rfl, Function.update_of_ne]
    rintro rfl
    exact htype hslot
  | some slot =>
    have hvalue : p.value nciVersion t.type =
        p.bytes t.type (if slot.hasLen then p.curLen t.type else slot.maxLen) := by
      unfold DmParams.value
      rw [hslot]
    have hholds : t.holds nciVersion =
        if slot.hasLen then decide (t.value.length ≤ slot.maxLen) else decide (t.value.length = slot.maxLen) := by
      unfold ParamTlv.holds
      rw [hslot]
    have hsame : ∀ type, paramSlot nciVersion type ≠ none → p.value nciVersion t.type = t.value →
        p.value nciVersion type = Function.update (p.value nciVersion) t.type t.value type := by
      intro type _ heq
      rw [← heq, Function.update_eq_self]
    unfold checkParam
    rw [hslot]
    dsimp only
    by_cases hlen : slot.hasLen
    · rw [if_pos hlen] at hvalue hholds
      by_cases hmax : t.value.length ≤ slot.maxLen
      · have htrue : t.holds nciVersion = true := by
          rw [hholds]
          exact decide_eq_true hmax
        rw [if_pos hmax, if_pos hlen, htrue]
        by_cases hcur : p.curLen t.type = t.value.length
        · rw [if_neg (not_not.mpr hcur)]
          rw [hcur] at hvalue
          by_cases hsamev : p.value nciVersion t.type = t.value
          · rw [if_neg (by rw [← hvalue, hsamev]; simp)]
            refine ⟨by simp [hsamev], fun type htype => ?_⟩
            rw [if_pos rfl]
            exact hsame type htype hsamev
          · rw [if_pos (.inl (by rw [← hvalue]; exact Ne.symm hsamev))]
            refine ⟨by simp [hsamev], fun type _ => ?_⟩
            rw [if_pos rfl, @value_store nciVersion p t slot hslot _ _ rfl htrue]
            rw [if_pos hlen, ← hcur, Function.update_eq_self]
        · rw [if_pos hcur]
          have hne : p.value nciVersion t.type ≠ t.value := by
            intro heq
            apply hcur
            rw [← heq, hvalue, length_bytes]
          refine ⟨by simp [hne], fun type _ => ?_⟩
          rw [if_pos rfl, @value_store nciVersion p t slot hslot
            { p with curLen := Function.update p.curLen t.type t.value.length } (by rw [if_pos hlen]) rfl htrue]
      · have hfalse : t.holds nciVersion = false := by
          rw [hholds]
          exact decide_eq_false hmax
        rw [if_neg hmax, hfalse]
        exact ⟨rfl, fun _ _ => (if_neg nofun).symm⟩
    · rw [if_neg hlen] at hvalue hholds
      by_cases heq : t.value.length = slot.maxLen
      · have htrue : t.holds nciVersion = true := by
          rw [hholds]
          exact decide_eq_true heq
        rw [if_pos (Nat.le_of_eq heq), if_neg hlen, if_pos heq, htrue]
        rw [← heq] at hvalue
        by_cases hsamev : p.value nciVersion t.type = t.value
        · rw [if_neg (by rw [← hvalue, hsamev]; simp)]
          refine ⟨by simp [hsamev], fun type htype => ?_⟩
          rw [if_pos rfl]
          exact hsame type htype hsamev
        · rw [if_pos (.inl (by rw [← hvalue]; exact Ne.symm hsamev))]
          refine ⟨by simp [hsamev], fun type _ => ?_⟩
          rw [if_pos rfl, @value_store nciVersion p t slot hslot _ _ rfl htrue]
          rw [if_neg hlen]
      · have hfalse : t.holds nciVersion = false := by
          rw [hholds]
          exact decide_eq_false heq
        rw [hfalse]
        split
        · exact ⟨rfl, fun _ _ => (if_neg nofun).symm⟩
        · exact ⟨rfl, fun _ _ => (if_neg nofun).symm⟩

/-! ## A list of TLVs -/

theorem keptEq_update {a b : ParamMap} (h : KeptEq nciVersion a b) (type : UInt8) (value : List UInt8) :
    KeptEq nciVersion (Function.update a type value) (Function.update b type value) := by
  intro other hother
  by_cases heq : other = type
  · subst heq
    rw [Function.update_self, Function.update_self]
  · rw [Function.update_of_ne heq, Function.update_of_ne heq]
    exact h other hother

theorem changedTlvs_same (hkept : paramSlot nciVersion t.type ≠ none) (h : ctrl t.type = t.value) :
    changedTlvs nciVersion ctrl (t :: ts) = changedTlvs nciVersion ctrl ts := by
  rw [changedTlvs, if_pos ⟨hkept, h⟩]

theorem changedTlvs_new (h : paramSlot nciVersion t.type ≠ none → ctrl t.type ≠ t.value) :
    changedTlvs nciVersion ctrl (t :: ts) =
      t :: changedTlvs nciVersion (Function.update ctrl t.type t.value) ts := by
  rw [changedTlvs, if_neg fun hc => h hc.1 hc.2]

theorem changedTlvs_congr (ts : List ParamTlv) : ∀ {a b : ParamMap}, KeptEq nciVersion a b →
    changedTlvs nciVersion a ts = changedTlvs nciVersion b ts := by
  induction ts with
  | nil => exact fun _ => rfl
  | cons t ts ih =>
    intro a b h
    by_cases hsame : paramSlot nciVersion t.type ≠ none ∧ a t.type = t.value
    · rw [changedTlvs_same hsame.1 hsame.2, changedTlvs_same hsame.1 ((h t.type hsame.1).symm.trans hsame.2), ih h]
    · rw [changedTlvs_new fun hk he => hsame ⟨hk, he⟩,
        changedTlvs_new fun hk he => hsame ⟨hk, (h t.type hk).trans he⟩, ih (keptEq_update h _ _)]

theorem applyTlvs_congr (ts : List ParamTlv) : ∀ {a b : ParamMap}, KeptEq nciVersion a b →
    KeptEq nciVersion (applyTlvs a ts) (applyTlvs b ts) := by
  induction ts with
  | nil => exact fun h => h
  | cons t ts ih => exact fun h => ih (keptEq_update h _ _)

theorem applyTlvs_changedTlvs (ts : List ParamTlv) : ∀ (ctrl : ParamMap),
    applyTlvs ctrl (changedTlvs nciVersion ctrl ts) = applyTlvs ctrl ts := by
  induction ts with
  | nil => exact fun _ => rfl
  | cons t ts ih =>
    intro ctrl
    by_cases hsame : paramSlot nciVersion t.type ≠ none ∧ ctrl t.type = t.value
    · rw [changedTlvs_same hsame.1 hsame.2, ih ctrl]
      show _ = applyTlvs (Function.update ctrl t.type t.value) ts
      rw [← hsame.2, Function.update_eq_self]
    · rw [changedTlvs_new fun hk he => hsame ⟨hk, he⟩]
      exact ih (Function.update ctrl t.type t.value)

theorem checkAll_spec (ts : List ParamTlv) : ∀ {p : DmParams} {known : ParamMap},
    KeptEq nciVersion (p.value nciVersion) known →
    (checkAll nciVersion false p ts).2 = changedTlvs nciVersion known (ts.filter (·.holds nciVersion)) ∧
    KeptEq nciVersion ((checkAll nciVersion false p ts).1.value nciVersion)
      (applyTlvs known (ts.filter (·.holds nciVersion))) := by
  induction ts with
  | nil => exact fun h => ⟨rfl, h⟩
  | cons t ts ih =>
    intro p known h
    obtain ⟨hsent, hvalue⟩ := @checkParam_spec nciVersion p t
    dsimp only [checkAll]
    by_cases hholds : t.holds nciVersion = true
    · have hstep : KeptEq nciVersion ((checkParam nciVersion false p t).1.value nciVersion)
          (Function.update known t.type t.value) := by
        intro type htype
        rw [hvalue type htype, if_pos hholds]
        exact keptEq_update h _ _ type htype
      obtain ⟨hus, hkept⟩ := ih hstep
      rw [List.filter_cons_of_pos hholds, hsent, hholds, hus]
      refine ⟨?_, hkept⟩
      by_cases hsame : paramSlot nciVersion t.type ≠ none ∧ known t.type = t.value
      · rw [changedTlvs_same hsame.1 hsame.2, if_neg (by simp [hsame.1, h t.type hsame.1, hsame.2]), ← hsame.2,
          Function.update_eq_self]
      · rw [changedTlvs_new fun hk he => hsame ⟨hk, he⟩, if_pos]
        by_cases hslot : paramSlot nciVersion t.type = none
        · simp [hslot]
        · have hne : known t.type ≠ t.value := fun he => hsame ⟨hslot, he⟩
          simp [h t.type hslot, hne]
    · have hstep : KeptEq nciVersion ((checkParam nciVersion false p t).1.value nciVersion) known := by
        intro type htype
        rw [hvalue type htype, if_neg hholds]
        exact h type htype
      obtain ⟨hus, hkept⟩ := ih hstep
      rw [List.filter_cons_of_neg hholds, hsent, if_neg (by simp [hholds]), hus]
      exact ⟨rfl, hkept⟩

/-! ## TLVs that no copy can hold -/

theorem kept_of_not_holds (h : t.holds nciVersion = false) : paramSlot nciVersion t.type ≠ none := by
  intro hnone
  unfold ParamTlv.holds at h
  rw [hnone] at h
  cases h

theorem value_holds (hsized : p.Sized nciVersion) (hkept : paramSlot nciVersion type ≠ none) :
    (⟨type, p.value nciVersion type⟩ : ParamTlv).holds nciVersion = true := by
  obtain ⟨slot, hslot⟩ := Option.ne_none_iff_exists'.mp hkept
  unfold ParamTlv.holds DmParams.value
  dsimp only
  rw [hslot]
  dsimp only
  rw [length_bytes]
  by_cases hlen : slot.hasLen = true
  · rw [if_pos hlen, if_pos hlen]
    exact decide_eq_true (hsized type slot hslot hlen)
  · rw [if_neg hlen, if_neg hlen]
    exact decide_eq_true rfl

/-- The maps differ only where one has a value that no copy can hold. -/
def Masked (nciVersion : Nat) (known full : ParamMap) : Prop :=
  ∀ type, full type = known type ∨ (⟨type, full type⟩ : ParamTlv).holds nciVersion = false

theorem masked_update {known full : ParamMap} (h : Masked nciVersion known full) (type : UInt8)
    (value : List UInt8) : Masked nciVersion (Function.update known type value) (Function.update full type value) := by
  intro other
  by_cases heq : other = type
  · subst heq
    rw [Function.update_self, Function.update_self]
    exact .inl rfl
  · rw [Function.update_of_ne heq, Function.update_of_ne heq]
    exact h other

theorem masked_set {known full : ParamMap} (h : Masked nciVersion known full)
    (ht : t.value = known t.type ∨ t.holds nciVersion = false) :
    Masked nciVersion known (Function.update full t.type t.value) := by
  intro other
  by_cases heq : other = t.type
  · subst heq
    rw [Function.update_self]
    exact ht
  · rw [Function.update_of_ne heq]
    exact h other

theorem changedTlvs_sublist (ts : List ParamTlv) : ∀ {known full : ParamMap}, Masked nciVersion known full →
    (changedTlvs nciVersion known (ts.filter (·.holds nciVersion))).Sublist (changedTlvs nciVersion full ts) := by
  induction ts with
  | nil => exact fun _ => List.Sublist.refl []
  | cons t ts ih =>
    intro known full h
    by_cases hholds : t.holds nciVersion = true
    · rw [List.filter_cons_of_pos hholds]
      by_cases hsame : paramSlot nciVersion t.type ≠ none ∧ known t.type = t.value
      · rw [changedTlvs_same hsame.1 hsame.2]
        by_cases hfull : full t.type = t.value
        · rw [changedTlvs_same hsame.1 hfull]
          exact ih h
        · rw [changedTlvs_new fun _ => hfull]
          exact (ih (masked_set h (.inl hsame.2.symm))).cons t
      · have hfull : paramSlot nciVersion t.type ≠ none → full t.type ≠ t.value := by
          intro hk he
          rcases h t.type with heq | hnot
          · exact hsame ⟨hk, heq.symm.trans he⟩
          · rw [he] at hnot
            rw [hholds] at hnot
            cases hnot
        rw [changedTlvs_new fun hk he => hsame ⟨hk, he⟩, changedTlvs_new hfull]
        exact (ih (masked_update h _ _)).cons_cons t
    · rw [List.filter_cons_of_neg hholds]
      by_cases hfull : paramSlot nciVersion t.type ≠ none ∧ full t.type = t.value
      · rw [changedTlvs_same hfull.1 hfull.2]
        exact ih h
      · rw [changedTlvs_new fun hk he => hfull ⟨hk, he⟩]
        exact (ih (masked_set h (.inr (by simpa using hholds)))).cons t

theorem changedTlvs_not_holds (ts : List ParamTlv) : ∀ {known : ParamMap},
    (∀ type, paramSlot nciVersion type ≠ none → (⟨type, known type⟩ : ParamTlv).holds nciVersion = true) →
    (∃ t ∈ ts, t.holds nciVersion = false) →
    ∃ t ∈ changedTlvs nciVersion known ts, t.holds nciVersion = false := by
  induction ts with
  | nil =>
    rintro known - ⟨t, ht, -⟩
    cases ht
  | cons t ts ih =>
    intro known hknown hbad
    cases hholds : t.holds nciVersion with
    | false =>
      have hkept := kept_of_not_holds hholds
      rw [changedTlvs_new]
      · exact ⟨t, List.mem_cons_self, hholds⟩
      · intro _ he
        have := hknown t.type hkept
        rw [he] at this
        rw [hholds] at this
        cases this
    | true =>
      have hrest : ∃ t ∈ ts, t.holds nciVersion = false := by
        obtain ⟨u, hu, hnot⟩ := hbad
        rcases List.mem_cons.mp hu with rfl | hu
        · rw [hholds] at hnot
          cases hnot
        · exact ⟨u, hu, hnot⟩
      by_cases hsame : paramSlot nciVersion t.type ≠ none ∧ known t.type = t.value
      · rw [changedTlvs_same hsame.1 hsame.2]
        exact ih hknown hrest
      · rw [changedTlvs_new fun hk he => hsame ⟨hk, he⟩]
        obtain ⟨u, hu, hnot⟩ := @ih (Function.update known t.type t.value) (fun type hk => by
          by_cases heq : type = t.type
          · subst heq
            rw [Function.update_self]
            exact hholds
          · rw [Function.update_of_ne heq]
            exact hknown type hk) hrest
        exact ⟨u, List.mem_cons_of_mem t hu, hnot⟩

theorem changedTlvs_subset (ts : List ParamTlv) : ∀ {known : ParamMap},
    (changedTlvs nciVersion known ts).Sublist ts := by
  induction ts with
  | nil => exact List.Sublist.refl []
  | cons t ts ih =>
    intro known
    rw [changedTlvs]
    split
    · exact ih.cons t
    · exact ih.cons_cons t

theorem flatten_sublist {us cs : List ParamTlv} (h : us.Sublist cs) :
    (us.flatMap ParamTlv.bytes).length ≤ (cs.flatMap ParamTlv.bytes).length := by
  induction h with
  | slnil => exact Nat.le_refl _
  | cons c _ ih =>
    rw [List.flatMap_cons, List.length_append]
    omega
  | cons_cons c _ ih =>
    rw [List.flatMap_cons, List.flatMap_cons, List.length_append, List.length_append]
    omega

theorem flatten_lt_of_not_holds {us cs : List ParamTlv} (h : us.Sublist cs)
    (hus : ∀ t ∈ us, t.holds nciVersion = true) (hcs : ∃ t ∈ cs, t.holds nciVersion = false) :
    (us.flatMap ParamTlv.bytes).length < (cs.flatMap ParamTlv.bytes).length := by
  induction h with
  | slnil =>
    obtain ⟨t, ht, -⟩ := hcs
    cases ht
  | cons c hsub ih =>
    have hle := flatten_sublist hsub
    have hpos : 0 < c.bytes.length := Nat.succ_pos _
    rw [List.flatMap_cons, List.length_append]
    omega
  | cons_cons c hsub ih =>
    rw [List.flatMap_cons, List.flatMap_cons, List.length_append, List.length_append]
    have := ih (fun t ht => hus t (List.mem_cons_of_mem c ht)) (by
      obtain ⟨t, ht, hnot⟩ := hcs
      rcases List.mem_cons.mp ht with rfl | ht
      · rw [hus t List.mem_cons_self] at hnot
        cases hnot
      · exact ⟨t, ht, hnot⟩)
    omega

end Cache

/-! ## A call -/

def tlvsOfList (list : List UInt8) : List ParamTlv := (parseTlvs list.length list).1

def wholeTlvs (list : List UInt8) : Bool := (parseTlvs list.length list).2

/-- What a call is to do. If a command is accepted, it has what differs from the controller, and behind
it the copies are equal to the controller, which is as if the whole list had been applied. A call that
fails leaves the copies. -/
def MeetsConfig (nciVersion : Nat) (cb : DmCb) (ctrl : ParamMap) (list : List UInt8) (appInit hasBuf : Bool) : Prop :=
  let r := checkSetConfig nciVersion false cb list appInit hasBuf
  (∀ cmd, r.sent = some cmd → cmd.received = changedTlvs nciVersion ctrl (tlvsOfList list) ∧
    KeptEq nciVersion (r.cb.params.value nciVersion) (applyTlvs ctrl cmd.received) ∧
    applyTlvs ctrl cmd.received = applyTlvs ctrl (tlvsOfList list)) ∧
  (r.ok = false → KeptEq nciVersion (r.cb.params.value nciVersion) (cb.params.value nciVersion))

/-- The TLVs of the list that a copy can hold, or that are not kept. -/
def heldTlvs (nciVersion : Nat) (list : List UInt8) : List ParamTlv :=
  (tlvsOfList list).filter (·.holds nciVersion)

def newTlvs (nciVersion : Nat) (cb : DmCb) (list : List UInt8) : List ParamTlv :=
  changedTlvs nciVersion (cb.params.value nciVersion) (heldTlvs nciVersion list)

def newLen (nciVersion : Nat) (cb : DmCb) (list : List UInt8) : Nat :=
  ((newTlvs nciVersion cb list).flatMap ParamTlv.bytes).length

/-- The last TLV of each parameter gives the value that its copy has. -/
def Restores (nciVersion : Nat) (cb : DmCb) (list : List UInt8) : Prop :=
  KeptEq nciVersion (applyTlvs (cb.params.value nciVersion) (heldTlvs nciVersion list)) (cb.params.value nciVersion)

/-- A command would be accepted: there is a buffer, and for an application the bytes that are taken
from the front of its list are whole TLVs. -/
def Accepted (nciVersion : Nat) (cb : DmCb) (list : List UInt8) (appInit hasBuf : Bool) : Prop :=
  hasBuf = true ∧ (appInit = true → wholeTlvs (list.take (newLen nciVersion cb list)) = true)

/-- Every TLV can be held, the new ones stand in front if the list is an application's, and the
length octet of the command has room for them. -/
structure InFront (nciVersion : Nat) (cb : DmCb) (list : List UInt8) (appInit : Bool) : Prop where
  holds : ∀ t ∈ tlvsOfList list, t.holds nciVersion = true
  front : appInit = true → ∃ rest, tlvsOfList list = newTlvs nciVersion cb list ++ rest
  room : newLen nciVersion cb list ≤ 254

section Call
variable {nciVersion : Nat} {cb : DmCb} {ctrl : ParamMap} {list bytes : List UInt8} {appInit hasBuf : Bool}
  {cmd : SetConfigCmd}

theorem params_send : (sendSetConfig cb bytes appInit hasBuf).cb.params = cb.params := by
  have hdone : ∀ c : DmCb, c.dtaDone.params = c.params := by
    intro c
    unfold DmCb.dtaDone
    split
    · rfl
    · rfl
  have hsent : cb.dtaSent.params = cb.params := by
    unfold DmCb.dtaSent
    split
    · rfl
    · rfl
  unfold sendSetConfig
  split
  · rw [hdone]
    exact hsent
  · rw [hdone]

theorem sent_send : (sendSetConfig cb bytes appInit hasBuf).sent = nfcSetConfig hasBuf bytes := by
  unfold sendSetConfig
  split
  · rename_i hcmd
    rw [hcmd]
  · rename_i hcmd
    rw [hcmd]

theorem ok_send : (sendSetConfig cb bytes appInit hasBuf).ok = (nfcSetConfig hasBuf bytes).isSome := by
  unfold sendSetConfig
  split
  · rename_i hcmd
    rw [hcmd]
    rfl
  · rename_i hcmd
    rw [hcmd]
    rfl

theorem isSome_nfcSetConfig : (nfcSetConfig hasBuf bytes).isSome = (hasBuf && wholeTlvs bytes) := by
  unfold nfcSetConfig wholeTlvs
  rcases parseTlvs bytes.length bytes with ⟨ts, ok⟩
  dsimp only
  cases hasBuf <;> cases ok <;> rfl

theorem received_nfcSetConfig (h : nfcSetConfig hasBuf bytes = some cmd) (hlen : bytes.length ≤ 255) :
    cmd.received = if bytes.length ≤ 254 then tlvsOfList bytes else [] := by
  have hcmd : cmd.lenOctet = UInt8.ofNat (bytes.length + 1) ∧ cmd.tlvs = bytes := by
    unfold nfcSetConfig at h
    dsimp only at h
    split at h
    · obtain rfl := Option.some.inj h
      exact ⟨rfl, rfl⟩
    · cases h
  unfold SetConfigCmd.received
  rw [hcmd.1, hcmd.2, UInt8.toNat_ofNat']
  split
  · rename_i hroom
    rw [Nat.mod_eq_of_lt (by omega), List.take_of_length_le (by simp)]
    rfl
  · rw [show bytes.length + 1 = 2 ^ 8 by omega, Nat.mod_self]
    rfl

theorem checkSetConfig_cases (hnum : cb.setcfgPendingNum < 32) :
    ∃ params, KeptEq nciVersion (params.value nciVersion)
        (applyTlvs (cb.params.value nciVersion) (heldTlvs nciVersion list)) ∧
      checkSetConfig nciVersion false cb list appInit hasBuf =
        if wholeTlvs list = false then ⟨{ cb with params := params }, none, false⟩
        else if newLen nciVersion cb list ≠ 0 ∨ appInit = true then
          sendSetConfig { cb with params := params } (if appInit = true then list.take (newLen nciVersion cb list)
            else (newTlvs nciVersion cb list).flatMap ParamTlv.bytes) appInit hasBuf
        else ⟨{ cb with params := params }, none, true⟩ := by
  obtain ⟨hok, hparams, hlen, happ, hint⟩ := @walk_spec nciVersion false appInit list.length list.length
    ⟨cb.params, list, 0, 0⟩ rfl (Nat.le_refl 0)
  obtain ⟨hus, hkept⟩ := @checkAll_spec nciVersion (tlvsOfList list) cb.params _ (fun _ _ => rfl)
  refine ⟨(checkAll nciVersion false cb.params (tlvsOfList list)).1, hkept, ?_⟩
  unfold checkSetConfig
  rw [if_neg (by show ¬ 32 ≤ cb.setcfgPendingNum; omega), Bool.false_and]
  rw [List.drop_zero] at hok hparams hlen hint
  change _ = wholeTlvs list at hok
  change _ = (checkAll nciVersion false cb.params (tlvsOfList list)).1 at hparams
  have hlen' : (walkTlvs nciVersion false appInit list.length list.length ⟨cb.params, list, 0, 0⟩).1.updatedLen =
      newLen nciVersion cb list := by
    rw [hlen]
    show 0 + ((checkAll nciVersion false cb.params (tlvsOfList list)).2.flatMap ParamTlv.bytes).length = _
    rw [hus, Nat.zero_add]
    rfl
  have hbytes : appInit = false → (walkTlvs nciVersion false appInit list.length list.length
      ⟨cb.params, list, 0, 0⟩).1.list.take (newLen nciVersion cb list) =
      (newTlvs nciVersion cb list).flatMap ParamTlv.bytes := by
    intro h
    rw [← hlen', hint h]
    show [] ++ (checkAll nciVersion false cb.params (tlvsOfList list)).2.flatMap ParamTlv.bytes = _
    rw [hus]
    rfl
  revert hok hparams happ hlen' hbytes
  clear hlen hint
  generalize walkTlvs nciVersion false appInit list.length list.length ⟨cb.params, list, 0, 0⟩ = r
  obtain ⟨w, ok⟩ := r
  intro happ hok hparams hlen hbytes
  dsimp only at hok hparams happ hlen hbytes ⊢
  rw [hok, hlen, hparams]
  cases hwhole : wholeTlvs list with
  | false => rfl
  | true =>
    simp only [Bool.false_eq_true, not_false_eq_true, true_or, and_true, false_and, or_false]
    cases appInit with
    | true => rw [happ rfl]; rfl
    | false => rw [hbytes rfl]; rfl

def sentBytes (nciVersion : Nat) (cb : DmCb) (list : List UInt8) (appInit : Bool) : List UInt8 :=
  if appInit = true then list.take (newLen nciVersion cb list)
  else (newTlvs nciVersion cb list).flatMap ParamTlv.bytes

theorem newTlvs_mem {t : ParamTlv} (h : t ∈ newTlvs nciVersion cb list) :
    t ∈ tlvsOfList list ∧ t.holds nciVersion = true :=
  List.mem_filter.mp ((changedTlvs_subset _).subset h)

theorem newTlvs_fits : ∀ t ∈ newTlvs nciVersion cb list, t.Fits :=
  fun t ht => parseTlvs_fits _ _ t (newTlvs_mem ht).1

theorem newLen_le : newLen nciVersion cb list ≤ list.length := by
  obtain ⟨tail, htail⟩ := parseTlvs_begins list.length list
  have hlen := congrArg List.length htail
  rw [List.length_append] at hlen
  have hsub : (newTlvs nciVersion cb list).Sublist (tlvsOfList list) :=
    (changedTlvs_subset (heldTlvs nciVersion list)).trans List.filter_sublist
  have hle : newLen nciVersion cb list ≤ ((tlvsOfList list).flatMap ParamTlv.bytes).length := flatten_sublist hsub
  have htl : ((tlvsOfList list).flatMap ParamTlv.bytes).length + tail.length = list.length := hlen
  omega

theorem length_sentBytes : (sentBytes nciVersion cb list appInit).length = newLen nciVersion cb list := by
  unfold sentBytes
  split
  · rw [List.length_take, Nat.min_eq_left newLen_le]
  · rfl

theorem accepted_iff : (nfcSetConfig hasBuf (sentBytes nciVersion cb list appInit)).isSome = true ↔
    Accepted nciVersion cb list appInit hasBuf := by
  rw [isSome_nfcSetConfig, Bool.and_eq_true]
  unfold Accepted sentBytes
  cases appInit with
  | true => simp
  | false =>
    simp only [Bool.false_eq_true, if_false, false_imp_iff, and_true, and_iff_left_iff_imp]
    intro _
    unfold wholeTlvs
    rw [parseTlvs_flatten newTlvs_fits (Nat.le_refl _)]

theorem tlvsOfList_append {us : List ParamTlv} (hus : ∀ t ∈ us, t.Fits) {tail : List UInt8}
    (h : us.flatMap ParamTlv.bytes ++ tail = list) : ∃ rest, tlvsOfList list = us ++ rest := by
  have hle := length_le_tlvBytes us
  have hlen : (us.flatMap ParamTlv.bytes).length ≤ list.length := by
    rw [← h, List.length_append]
    omega
  refine ⟨(parseTlvs (list.length - us.length) tail).1, ?_⟩
  have hparse := parseTlvs_flatten_append us (list.length - us.length) tail hus
  rw [h, show us.length + (list.length - us.length) = list.length by omega] at hparse
  unfold tlvsOfList
  rw [hparse]

theorem newTlvs_of_holds (h : ∀ t ∈ tlvsOfList list, t.holds nciVersion = true) :
    newTlvs nciVersion cb list = changedTlvs nciVersion (cb.params.value nciVersion) (tlvsOfList list) := by
  unfold newTlvs heldTlvs
  rw [List.filter_eq_self.mpr h]

theorem holds_of_flatten_le (hsized : cb.params.Sized nciVersion)
    (h : ((changedTlvs nciVersion (cb.params.value nciVersion) (tlvsOfList list)).flatMap ParamTlv.bytes).length ≤
      newLen nciVersion cb list) : ∀ t ∈ tlvsOfList list, t.holds nciVersion = true := by
  by_contra hbad
  push Not at hbad
  obtain ⟨t, ht, hnot⟩ := hbad
  have hex := @changedTlvs_not_holds nciVersion (tlvsOfList list) (cb.params.value nciVersion)
    (fun type hk => value_holds hsized hk) ⟨t, ht, by simpa using hnot⟩
  have hlt := flatten_lt_of_not_holds
    (@changedTlvs_sublist nciVersion (tlvsOfList list) (cb.params.value nciVersion) _ fun _ => .inl rfl)
    (fun t ht => (@newTlvs_mem nciVersion cb list t ht).2) hex
  exact absurd hlt (by
    have : newLen nciVersion cb list = ((changedTlvs nciVersion (cb.params.value nciVersion)
      (heldTlvs nciVersion list)).flatMap ParamTlv.bytes).length := rfl
    unfold heldTlvs at this
    omega)

theorem received_iff (hsized : cb.params.Sized nciVersion) (hlist : list.length ≤ 255)
    (hcmd : nfcSetConfig hasBuf (sentBytes nciVersion cb list appInit) = some cmd) :
    cmd.received = changedTlvs nciVersion (cb.params.value nciVersion) (tlvsOfList list) ↔
      InFront nciVersion cb list appInit := by
  have hle := @newLen_le nciVersion cb list
  rw [received_nfcSetConfig hcmd (by rw [length_sentBytes]; omega), length_sentBytes]
  constructor
  · intro h
    by_cases hroom : newLen nciVersion cb list ≤ 254
    · rw [if_pos hroom] at h
      obtain ⟨tail, htail⟩ := parseTlvs_begins (sentBytes nciVersion cb list appInit).length
        (sentBytes nciVersion cb list appInit)
      change (tlvsOfList (sentBytes nciVersion cb list appInit)).flatMap ParamTlv.bytes ++ tail = _ at htail
      rw [h] at htail
      have hlen := congrArg List.length htail
      rw [List.length_append, length_sentBytes] at hlen
      have hholds := @holds_of_flatten_le nciVersion cb list hsized (by omega)
      refine ⟨hholds, fun happ => ?_, hroom⟩
      rw [← newTlvs_of_holds hholds] at htail
      unfold sentBytes at htail
      rw [if_pos happ] at htail
      exact tlvsOfList_append newTlvs_fits (by
        rw [← List.append_assoc, htail, List.take_append_drop])
    · rw [if_neg hroom] at h
      have hsub := @changedTlvs_sublist nciVersion (tlvsOfList list) (cb.params.value nciVersion) _ fun _ => .inl rfl
      rw [← h] at hsub
      have hnil : newTlvs nciVersion cb list = [] := List.sublist_nil.mp hsub
      unfold newLen at hroom
      rw [hnil] at hroom
      exact absurd (Nat.zero_le 254) hroom
  · intro h
    rw [if_pos h.room, ← newTlvs_of_holds h.holds]
    unfold sentBytes
    split
    · rename_i happ
      obtain ⟨rest, hrest⟩ := h.front happ
      obtain ⟨tail, htail⟩ := parseTlvs_begins list.length list
      change (tlvsOfList list).flatMap ParamTlv.bytes ++ tail = _ at htail
      rw [hrest, List.flatMap_append, List.append_assoc] at htail
      have htake : list.take (newLen nciVersion cb list) = (newTlvs nciVersion cb list).flatMap ParamTlv.bytes := by
        have htake := @List.take_left _ ((newTlvs nciVersion cb list).flatMap ParamTlv.bytes)
          (rest.flatMap ParamTlv.bytes ++ tail)
        rw [htail] at htake
        exact htake
      rw [htake]
      unfold tlvsOfList
      rw [parseTlvs_flatten newTlvs_fits (Nat.le_refl _)]
    · unfold tlvsOfList
      rw [parseTlvs_flatten newTlvs_fits (Nat.le_refl _)]

/-- A call keeps the copies equal to the controller, in the cases of the condition and in no others. -/
theorem checkSetConfig_meets_iff (hsized : cb.params.Sized nciVersion)
    (hctrl : KeptEq nciVersion (cb.params.value nciVersion) ctrl) (hlist : list.length ≤ 255) :
    MeetsConfig nciVersion cb ctrl list appInit hasBuf ↔
      (cb.setcfgPendingNum < 32 →
        (wholeTlvs list = false → Restores nciVersion cb list) ∧
        (wholeTlvs list = true → newLen nciVersion cb list ≠ 0 ∨ appInit = true →
          (Accepted nciVersion cb list appInit hasBuf → InFront nciVersion cb list appInit) ∧
          (¬ Accepted nciVersion cb list appInit hasBuf → Restores nciVersion cb list))) := by
  have hchanged := @changedTlvs_congr nciVersion (tlvsOfList list) _ _ hctrl
  unfold MeetsConfig
  dsimp only
  by_cases hnum : cb.setcfgPendingNum < 32
  · obtain ⟨params, hkept, heq⟩ := @checkSetConfig_cases nciVersion cb list appInit hasBuf hnum
    change _ = if _ then _ else if _ then sendSetConfig _ (sentBytes nciVersion cb list appInit) appInit hasBuf
      else _ at heq
    -- a call that fails has applied the TLVs to the copies
    have hfailed : KeptEq nciVersion (params.value nciVersion) (cb.params.value nciVersion) ↔
        Restores nciVersion cb list := by
      constructor
      · exact fun h type hk => (hkept type hk).symm.trans (h type hk)
      · exact fun h type hk => (hkept type hk).trans (h type hk)
    rw [heq]
    cases hwhole : wholeTlvs list with
    | false =>
      rw [if_pos rfl]
      constructor
      · exact fun h _ => ⟨fun _ => hfailed.mp (h.2 rfl), nofun⟩
      · exact fun h => ⟨nofun, fun _ => hfailed.mpr ((h hnum).1 rfl)⟩
    | true =>
      rw [if_neg nofun]
      by_cases hsend : newLen nciVersion cb list ≠ 0 ∨ appInit = true
      · rw [if_pos hsend, sent_send, ok_send, params_send]
        by_cases hacc : Accepted nciVersion cb list appInit hasBuf
        · obtain ⟨cmd, hcmd⟩ := Option.isSome_iff_exists.mp (accepted_iff.mpr hacc)
          have hiff := received_iff hsized hlist hcmd
          rw [hcmd]
          constructor
          · intro h _
            refine ⟨nofun, fun _ _ => ⟨fun _ => hiff.mp ?_, fun hn => absurd hacc hn⟩⟩
            rw [(h.1 cmd rfl).1, hchanged]
          · intro h
            have hfront := ((h hnum).2 rfl hsend).1 hacc
            have hreceived := hiff.mpr hfront
            rw [hchanged] at hreceived
            refine ⟨fun c hc => ?_, nofun⟩
            obtain rfl := Option.some.inj hc
            have happly : applyTlvs ctrl cmd.received = applyTlvs ctrl (tlvsOfList list) := by
              rw [hreceived, applyTlvs_changedTlvs]
            refine ⟨hreceived, fun type hk => ?_, happly⟩
            rw [happly, hkept type hk]
            unfold heldTlvs
            rw [List.filter_eq_self.mpr hfront.holds]
            exact applyTlvs_congr _ hctrl type hk
        · have hnone : nfcSetConfig hasBuf (sentBytes nciVersion cb list appInit) = none := by
            rw [← Option.not_isSome_iff_eq_none]
            exact fun h => hacc (accepted_iff.mp h)
          rw [hnone]
          constructor
          · exact fun h _ => ⟨nofun, fun _ _ => ⟨fun ha => absurd ha hacc, fun _ => hfailed.mp (h.2 rfl)⟩⟩
          · exact fun h => ⟨nofun, fun _ => hfailed.mpr (((h hnum).2 rfl hsend).2 hacc)⟩
      · rw [if_neg hsend]
        constructor
        · exact fun _ _ => ⟨nofun, fun _ hs => absurd hs hsend⟩
        · exact fun _ => ⟨nofun, nofun⟩
  · have hfull : checkSetConfig nciVersion false cb list appInit hasBuf = ⟨cb, none, false⟩ := by
      unfold checkSetConfig
      rw [if_pos (by show 32 ≤ cb.setcfgPendingNum; omega)]
    rw [hfull]
    constructor
    · exact fun _ h => absurd h hnum
    · exact fun _ => ⟨nofun, fun _ _ _ => rfl⟩

end Call

/-! ## Calls on a control block that has just been set to zero -/

def dmInit : DmCb := ⟨⟨fun _ _ => 0, fun _ => 0⟩, 0, 0, 0⟩

theorem sized_dmInit (nciVersion : Nat) : dmInit.params.Sized nciVersion := fun _ _ _ _ => Nat.zero_le _

/-- Two parameters of an application, of which the first is new. -/
theorem checkSetConfig_meets_iff_selInfo :
    MeetsConfig 0x20 dmInit (dmInit.params.value 0x20) [0x32, 0x01, 0x20, 0x19, 0x01, 0x00] true true := by
  refine (checkSetConfig_meets_iff (sized_dmInit 0x20) (fun _ _ => rfl) (by decide)).mpr
    fun _ => ⟨fun h => absurd h (by decide), ?_⟩
  refine fun _ _ => ⟨fun _ => ⟨by decide, fun _ => ⟨[⟨0x19, [0x00]⟩], by decide⟩, by decide⟩, fun hn => absurd ?_ hn⟩
  exact ⟨rfl, fun _ => by decide⟩

/-- There is no buffer for the command of an application: the call fails, and the copy has changed. -/
theorem config_lost_without_buffer : ¬ ∀ (nciVersion : Nat) (cb : DmCb) (ctrl : ParamMap) (list : List UInt8)
    (appInit hasBuf : Bool), cb.params.Sized nciVersion → KeptEq nciVersion (cb.params.value nciVersion) ctrl →
    list.length ≤ 255 → MeetsConfig nciVersion cb ctrl list appInit hasBuf := by
  intro h
  have hmeets := h 0x20 dmInit (dmInit.params.value 0x20) [0x32, 0x01, 0x20] true false (sized_dmInit 0x20)
    (fun _ _ => rfl) (by decide)
  have hkept := hmeets.2 (by decide) 0x32 (by decide)
  revert hkept
  decide

end NfcStack.Nfa
