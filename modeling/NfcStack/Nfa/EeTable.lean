import NfcStack.Lib.Bytes
import NfcStack.Nfa.EeBlocks

/- The table of NFCEEs while they are discovered (`nfa_ee_act.cc`:
   `nfa_ee_nci_disc_rsp`, `nfa_ee_nci_disc_ntf`, `nfa_ee_nci_disc_req_ntf`). The
   blocks below `cur_ee` are those of the NFCEEs that were found; a discovery
   request for an unknown one sets the first free block aside for it, with
   `NFA_EE_ECB_FLAGS_ORDER`, until its notification comes.

   What is proved:
     1. `Arranged`: the blocks in use come first, their ids are distinct, and those
        from `cur_ee` on are the ones set aside. `arranged_discRsp`,
        `arranged_discNtf`, `arranged_discReqEntry`: an orderly event keeps it and
        changes no id.
     2. `table_consistent`: so in every run of orderly events the table is
        consistent. `table_inconsistent`: without that condition it is not. -/
namespace NfcStack.Nfa
open NfcStack.Lib

/-! ## Events -/

inductive DiscEvent where
  | discRsp (numNfcee : UInt8) (ok : Bool)
  | discNtf (nfceeId eeStatus : UInt8) (ndef : Bool)
  | discReqNtf (infos : List (Bool × UInt8))
  deriving DecidableEq, Repr

def discStep (env : EeEnv) (s : Ee) : DiscEvent → Option Ee
  | .discRsp numNfcee ok => some (nciDiscRsp s numNfcee ok)
  | .discNtf nfceeId eeStatus ndef => some (nciDiscNtf env s nfceeId eeStatus ndef)
  | .discReqNtf infos => some (nciDiscReqNtf env s infos)

def Ee.ordered (s : Ee) (k : EcbIx) : Prop := s.ecbFlags k &&& flagOrder ≠ 0

instance (s : Ee) (k : EcbIx) : Decidable (s.ordered k) := inferInstanceAs (Decidable (_ ≠ _))

/-- The table is consistent: the blocks below `cur_ee` have ids of NFCEEs, all different,
the others are free or set aside, and there are not too many. -/
structure Consistent (s : Ee) : Prop where
  curLe : s.curEe ≤ nfaEeMaxEeSupported
  valid : ∀ k : EcbIx, k.val < s.curEe →
    (s.ecb k).nfceeId ≠ nfaEeInvalid ∧ (s.ecb k).nfceeId ≠ nfcDhId
  distinct : ∀ j k : EcbIx, j.val < s.curEe → k.val < s.curEe →
    (s.ecb j).nfceeId = (s.ecb k).nfceeId → j = k
  rest : ∀ k : EcbIx, k ≠ cb4Dh → s.curEe ≤ k.val →
    (s.ecb k).nfceeId = nfaEeInvalid ∨ s.ordered k

def KeepsIds (s t : Ee) : Prop :=
  ∀ k : EcbIx, k ≠ cb4Dh → (s.ecb k).nfceeId ≠ nfaEeInvalid →
    (t.ecb k).nfceeId = (s.ecb k).nfceeId

/-- Whether the notification of an NFCEE is stored. -/
def stores (env : EeEnv) (nfceeId : UInt8) (ndef : Bool) : Prop :=
  ¬ (ndef ∧ nfceeId = env.defaultNdefNfcee ∧ ¬ env.t4tNfceeConfig)

instance (env : EeEnv) (nfceeId : UInt8) (ndef : Bool) : Decidable (stores env nfceeId ndef) :=
  inferInstanceAs (Decidable (¬ _))

/-- The block with the index `cur_ee` is free: none is set aside. -/
def Ee.nextFree (s : Ee) : Prop :=
  ∀ k : EcbIx, k ≠ cb4Dh → k.val = s.curEe → (s.ecb k).nfceeId = nfaEeInvalid

instance (s : Ee) : Decidable s.nextFree := inferInstanceAs (Decidable (∀ _, _))

/-- The block with the index `cur_ee` is the one of the id, or it is free and the id has
none. -/
def Ee.nextIs (s : Ee) (nfceeId : UInt8) : Prop :=
  match findEcb s nfceeId with
  | some k => k.val = s.curEe
  | none => s.nextFree

instance (s : Ee) (nfceeId : UInt8) : Decidable (s.nextIs nfceeId) := by
  unfold Ee.nextIs
  split <;> infer_instance

/-- A response comes before any NFCEE is known, or it counts the known ones. -/
def OrderlyRsp (s : Ee) (numNfcee : UInt8) : Prop :=
  match s.emState with
  | .init => s.curEe = 0
  | .initDone => numNfcee = 0 ∨ min numNfcee.toNat nfaEeMaxEeSupported = s.curEe

instance (s : Ee) (numNfcee : UInt8) : Decidable (OrderlyRsp s numNfcee) := by
  unfold OrderlyRsp
  split <;> infer_instance

/-- A notification finds the block it counts: at the start the id is a new one or the next
that was set aside, later a known one, the next that was set aside, or a new one while none is or
no block is left. -/
def OrderlyNtf (env : EeEnv) (s : Ee) (nfceeId : UInt8) (ndef : Bool) : Prop :=
  match s.emState with
  | .init =>
    s.curEe < nfaEeMaxEeSupported →
      if stores env nfceeId ndef then nfceeId ≠ nfaEeInvalid ∧ s.nextIs nfceeId else s.nextFree
  | .initDone =>
    match findEcb s nfceeId with
    | some k => s.ordered k → stores env nfceeId ndef ∧ k.val = s.curEe
    | none => stores env nfceeId ndef → (findEcb s nfaEeInvalid).isSome → s.nextFree

instance (env : EeEnv) (s : Ee) (nfceeId : UInt8) (ndef : Bool) :
    Decidable (OrderlyNtf env s nfceeId ndef) := by
  unfold OrderlyNtf
  split
  · infer_instance
  · split <;> infer_instance

def OrderlyInfo (env : EeEnv) (s : Ee) (nfceeId : UInt8) : Prop :=
  findEcb s nfceeId = none → nfceeId ∈ env.uiccIds → s.curEe < nfaEeMaxEeSupported → s.nextFree

instance (env : EeEnv) (s : Ee) (nfceeId : UInt8) : Decidable (OrderlyInfo env s nfceeId) :=
  inferInstanceAs (Decidable (_ → _))

def OrderlyInfos (env : EeEnv) : Ee → List (Bool × UInt8) → Prop
  | _, [] => True
  | s, i :: infos => OrderlyInfo env s i.2 ∧ OrderlyInfos env (discReqEntry env s i.1 i.2) infos

instance OrderlyInfos.decidable (env : EeEnv) :
    ∀ (infos : List (Bool × UInt8)) (s : Ee), Decidable (OrderlyInfos env s infos)
  | [], _ => .isTrue trivial
  | i :: infos, s =>
    have := OrderlyInfos.decidable env infos (discReqEntry env s i.1 i.2)
    inferInstanceAs (Decidable (_ ∧ _))

/-- The events that the handlers keep the table consistent for. -/
def Orderly (env : EeEnv) (s : Ee) : DiscEvent → Prop
  | .discRsp numNfcee _ => OrderlyRsp s numNfcee
  | .discNtf nfceeId _ ndef => OrderlyNtf env s nfceeId ndef
  | .discReqNtf infos => OrderlyInfos env s infos

instance (env : EeEnv) (s : Ee) : ∀ e, Decidable (Orderly env s e)
  | .discRsp numNfcee _ => inferInstanceAs (Decidable (OrderlyRsp s numNfcee))
  | .discNtf nfceeId _ ndef => inferInstanceAs (Decidable (OrderlyNtf env s nfceeId ndef))
  | .discReqNtf infos => inferInstanceAs (Decidable (OrderlyInfos env s infos))

/-! ## Finding a block -/

theorem find_finRange {n : Nat} {p : Fin n → Bool} {k : Fin n}
    (h : (List.finRange n).find? p = some k) : p k = true ∧ ∀ j, j < k → p j = false := by
  obtain ⟨hp, i, hi, hk, hbefore⟩ := List.find?_eq_some_iff_getElem.mp h
  have hki : k.val = i := by
    rw [← hk]
    simp
  refine ⟨hp, fun j hj => ?_⟩
  have hji : j.val < i := by
    rw [← hki]
    exact hj
  simpa using hbefore j.val hji

section Find
variable {s : Ee} {x : UInt8} {k : EcbIx}

theorem findEcb_some (h : findEcb s x = some k) (hx : x ≠ nfcDhId) :
    k ≠ cb4Dh ∧ (s.ecb k).nfceeId = x ∧ ∀ j : EcbIx, j < k → (s.ecb j).nfceeId ≠ x := by
  unfold findEcb at h
  rw [if_neg hx] at h
  obtain ⟨hk, hbefore⟩ := find_finRange h
  simp only [Bool.and_eq_true, decide_eq_true_eq, beq_iff_eq] at hk
  refine ⟨hk.1, hk.2, fun j hj hid => ?_⟩
  have hj' := hbefore j hj
  have hdh : j ≠ cb4Dh := by
    rintro rfl
    have hlt : k.val < 8 := k.isLt
    have hgt : 7 < k.val := hj
    omega
  simp [hdh, hid] at hj'

theorem findEcb_none (h : findEcb s x = none) :
    x ≠ nfcDhId ∧ ∀ j : EcbIx, j ≠ cb4Dh → (s.ecb j).nfceeId ≠ x := by
  unfold findEcb at h
  by_cases hx : x = nfcDhId
  · rw [if_pos hx] at h
    cases h
  · rw [if_neg hx] at h
    refine ⟨hx, fun j hj hid => ?_⟩
    have := List.find?_eq_none.mp h j (List.mem_finRange j)
    simp [hj, hid] at this

theorem findEcb_dh (s : Ee) : findEcb s nfcDhId = some cb4Dh := if_pos rfl

end Find

/-! ## The blocks in use come first -/

/-- The first `n` blocks are in use, those from `cur_ee` on are set aside, and the others
are free. -/
structure Arranged (s : Ee) (n : Nat) : Prop where
  cur : s.curEe ≤ n
  le : n ≤ nfaEeMaxEeSupported
  used : ∀ k : EcbIx, k.val < n →
    (s.ecb k).nfceeId ≠ nfaEeInvalid ∧ (s.ecb k).nfceeId ≠ nfcDhId
  distinct : ∀ j k : EcbIx, j.val < n → k.val < n → (s.ecb j).nfceeId = (s.ecb k).nfceeId → j = k
  free : ∀ k : EcbIx, k ≠ cb4Dh → n ≤ k.val → (s.ecb k).nfceeId = nfaEeInvalid
  order : ∀ k : EcbIx, s.ordered k ↔ s.curEe ≤ k.val ∧ k.val < n

section Arranged
variable {env : EeEnv} {s t : Ee} {n : Nat} {x : UInt8} {k : EcbIx}

theorem ne_dh_of_lt (hk : k.val < nfaEeMaxEeSupported) : k ≠ cb4Dh := by
  rintro rfl
  exact absurd hk (by decide)

theorem lt_of_ne_dh (hk : k ≠ cb4Dh) : k.val < nfaEeMaxEeSupported := by
  have hlt : k.val < 8 := k.isLt
  have hne : k.val ≠ 7 := fun h => hk (Fin.ext h)
  show k.val < 7
  omega

theorem Arranged.consistent (h : Arranged s n) : Consistent s := by
  refine ⟨h.cur.trans h.le, fun k hk => h.used k (hk.trans_le h.cur),
    fun j k hj hk => h.distinct j k (hj.trans_le h.cur) (hk.trans_le h.cur), fun k hk hcur => ?_⟩
  by_cases hn : k.val < n
  · exact Or.inr ((h.order k).mpr ⟨hcur, hn⟩)
  · exact Or.inl (h.free k hk (not_lt.mp hn))

structure SameTable (s t : Ee) : Prop where
  cur : t.curEe = s.curEe
  ids : ∀ k, k ≠ cb4Dh → (t.ecb k).nfceeId = (s.ecb k).nfceeId
  order : ∀ k, t.ordered k ↔ s.ordered k

theorem SameTable.keepsIds (h : SameTable s t) : KeepsIds s t := fun k hk _ => h.ids k hk

theorem Arranged.same (h : Arranged s n) (hst : SameTable s t) : Arranged t n := by
  have hdh : ∀ k : EcbIx, k.val < n → k ≠ cb4Dh := fun k hk => ne_dh_of_lt (hk.trans_le h.le)
  refine ⟨hst.cur ▸ h.cur, h.le, fun k hk => ?_, fun j k hj hk hid => ?_, fun k hk hn => ?_,
    fun k => ?_⟩
  · rw [hst.ids k (hdh k hk)]
    exact h.used k hk
  · rw [hst.ids j (hdh j hj), hst.ids k (hdh k hk)] at hid
    exact h.distinct j k hj hk hid
  · rw [hst.ids k hk]
    exact h.free k hk hn
  · rw [hst.order, hst.cur]
    exact h.order k

theorem Arranged.lt_of_findEcb (h : Arranged s n) (hfind : findEcb s x = some k) (hx : x ≠ nfcDhId)
    (hinv : x ≠ nfaEeInvalid) : k.val < n := by
  obtain ⟨hdh, hid, -⟩ := findEcb_some hfind hx
  by_contra hn
  exact hinv (hid.symm.trans (h.free k hdh (not_lt.mp hn)))

theorem Arranged.findEcb_invalid (h : Arranged s n) (hfind : findEcb s nfaEeInvalid = some k) :
    k.val = n ∧ k ≠ cb4Dh := by
  obtain ⟨hdh, hid, hbefore⟩ := findEcb_some hfind (by decide)
  have hge : n ≤ k.val := by
    by_contra hn
    exact (h.used k (not_le.mp hn)).1 hid
  refine ⟨?_, hdh⟩
  by_contra hne
  have hlt : n < k.val := lt_of_le_of_ne hge (Ne.symm hne)
  let j : EcbIx := ⟨n, hlt.trans k.isLt⟩
  have hj : j ≠ cb4Dh := ne_dh_of_lt (hlt.trans (lt_of_ne_dh hdh))
  exact hbefore j hlt (h.free j hj le_rfl)

theorem Arranged.cur_eq_of_nextFree (h : Arranged s n) (hfree : s.nextFree) : s.curEe = n := by
  by_contra hne
  have hlt : s.curEe < n := lt_of_le_of_ne h.cur hne
  have hmax : s.curEe < nfaEeMaxEeSupported := hlt.trans_le h.le
  let k : EcbIx := ⟨s.curEe, Nat.lt_succ_of_lt hmax⟩
  exact (h.used k hlt).1 (hfree k (ne_dh_of_lt hmax) rfl)

structure Takes (s t : Ee) (n : Nat) (x : UInt8) : Prop where
  valid : x ≠ nfaEeInvalid ∧ x ≠ nfcDhId
  new : ∀ k : EcbIx, k ≠ cb4Dh → (s.ecb k).nfceeId ≠ x
  ids : ∀ k : EcbIx, (t.ecb k).nfceeId = if k.val = n then x else (s.ecb k).nfceeId

theorem Takes.keepsIds (hst : Takes s t n x) (h : Arranged s n) : KeepsIds s t := by
  intro k hk hid
  rw [hst.ids, if_neg]
  intro hn
  exact hid (h.free k hk hn.ge)

theorem Takes.used (hst : Takes s t n x) (h : Arranged s n) :
    ∀ k : EcbIx, k.val < n + 1 → (t.ecb k).nfceeId ≠ nfaEeInvalid ∧ (t.ecb k).nfceeId ≠ nfcDhId := by
  intro k hk
  rw [hst.ids]
  by_cases hn : k.val = n
  · rw [if_pos hn]
    exact hst.valid
  · rw [if_neg hn]
    exact h.used k (by omega)

theorem Takes.distinct (hst : Takes s t n x) (h : Arranged s n) :
    ∀ j k : EcbIx, j.val < n + 1 → k.val < n + 1 → (t.ecb j).nfceeId = (t.ecb k).nfceeId →
      j = k := by
  have hold : ∀ k : EcbIx, k.val < n → (s.ecb k).nfceeId ≠ x := fun k hk =>
    hst.new k (ne_dh_of_lt (hk.trans_le h.le))
  intro j k hj hk hid
  rw [hst.ids, hst.ids] at hid
  by_cases hjn : j.val = n
  · by_cases hkn : k.val = n
    · exact Fin.ext (hjn.trans hkn.symm)
    · rw [if_pos hjn, if_neg hkn] at hid
      exact absurd hid.symm (hold k (by omega))
  · by_cases hkn : k.val = n
    · rw [if_neg hjn, if_pos hkn] at hid
      exact absurd hid (hold j (by omega))
    · rw [if_neg hjn, if_neg hkn] at hid
      exact h.distinct j k (by omega) (by omega) hid

theorem Takes.free (hst : Takes s t n x) (h : Arranged s n) :
    ∀ k : EcbIx, k ≠ cb4Dh → n + 1 ≤ k.val → (t.ecb k).nfceeId = nfaEeInvalid := by
  intro k hk hn
  rw [hst.ids, if_neg (by omega)]
  exact h.free k hk (by omega)

theorem Arranged.found (h : Arranged s n) (hst : Takes s t n x) (hn : n < nfaEeMaxEeSupported)
    (hcur : s.curEe = n) (hcur' : t.curEe = n + 1) (horder : ∀ k, t.ordered k → s.ordered k) :
    Arranged t (n + 1) := by
  refine ⟨hcur'.le, hn, hst.used h, hst.distinct h, hst.free h, fun k => ⟨fun hk => ?_, fun hk => ?_⟩⟩
  · have := (h.order k).mp (horder k hk)
    omega
  · omega

theorem Arranged.setAside (h : Arranged s n) (hst : Takes s t n x) (hn : n < nfaEeMaxEeSupported)
    (hcur : t.curEe = s.curEe) (horder : ∀ k, t.ordered k ↔ s.ordered k ∨ k.val = n) :
    Arranged t (n + 1) := by
  have hle := h.cur
  refine ⟨by omega, hn, hst.used h, hst.distinct h, hst.free h, fun k => ?_⟩
  rw [horder, h.order, hcur]
  omega

/-- The notification comes for the first block that was set aside. -/
theorem Arranged.counted (h : Arranged s n) (hcur : t.curEe = s.curEe + 1) (hlt : s.curEe < n)
    (hids : ∀ k, (t.ecb k).nfceeId = (s.ecb k).nfceeId)
    (horder : ∀ k, t.ordered k ↔ s.ordered k ∧ k.val ≠ s.curEe) : Arranged t n := by
  refine ⟨by omega, h.le, fun k hk => ?_, fun j k hj hk hid => ?_, fun k hk hn => ?_, fun k => ?_⟩
  · rw [hids]
    exact h.used k hk
  · rw [hids, hids] at hid
    exact h.distinct j k hj hk hid
  · rw [hids]
    exact h.free k hk hn
  · rw [horder, h.order, hcur]
    omega

end Arranged

/-! ## The handlers -/

section Handlers
variable {env : EeEnv} {s t : Ee} {n : Nat} {x : UInt8} {k : EcbIx} {ndef : Bool}

theorem ordered_addFlags_discReq (s : Ee) (k j : EcbIx) :
    (s.addFlags k flagDiscReq).ordered j ↔ s.ordered j := by
  have hbits : (s.ecbFlags k ||| flagDiscReq) &&& flagOrder = s.ecbFlags k &&& flagOrder := by
    rw [or_and_mask, show flagDiscReq &&& flagOrder = 0 by decide, UInt8.or_zero]
  unfold Ee.ordered Ee.addFlags
  by_cases hj : j = k
  · rw [hj]
    simp only [Function.update_self, hbits]
  · simp only [Function.update_of_ne hj]

theorem ordered_addFlags_order (s : Ee) (k j : EcbIx) :
    (s.addFlags k flagOrder).ordered j ↔ s.ordered j ∨ j = k := by
  have hbits : (s.ecbFlags k ||| flagOrder) &&& flagOrder ≠ 0 := by
    rw [or_self_and_mask]
    decide
  unfold Ee.ordered Ee.addFlags
  by_cases hj : j = k
  · rw [hj]
    simp only [Function.update_self, or_true, iff_true]
    exact hbits
  · simp only [Function.update_of_ne hj, hj, or_false]

/-- The end of a notification: the block is no longer set aside. -/
theorem storeInfo_ordered (inc : Bool) (eeStatus : UInt8) (j : EcbIx) :
    (storeInfo env s k inc x eeStatus ndef).ordered j ↔ s.ordered j ∧ j ≠ k := by
  have hflags : (storeInfo env s k inc x eeStatus ndef).ecbFlags =
      Function.update s.ecbFlags k (s.ecbFlags k &&& ~~~flagOrder) := by
    unfold storeInfo
    split
    · split <;> rfl
    · rfl
  unfold Ee.ordered
  rw [hflags]
  by_cases hj : j = k
  · rw [hj, Function.update_self, clear_and_mask]
    simp
  · rw [Function.update_of_ne hj]
    simp [hj]

/-- What is stored of an NFCEE gives its block the id. -/
theorem storeInfo_stored (hst : stores env x ndef) (inc : Bool) (eeStatus : UInt8) :
    (storeInfo env s k inc x eeStatus ndef).curEe = s.curEe ∧
      ∀ j, ((storeInfo env s k inc x eeStatus ndef).ecb j).nfceeId =
        if j = k then x else (s.ecb j).nfceeId := by
  unfold storeInfo
  rw [if_neg hst]
  refine ⟨rfl, fun j => ?_⟩
  by_cases hj : j = k
  · rw [if_pos hj, hj]
    simp [Ee.setEcb]
  · rw [if_neg hj]
    simp [Ee.setEcb, hj]

/-- An NFCEE that is not stored is not counted either. -/
theorem storeInfo_discarded (hst : ¬ stores env x ndef) (inc : Bool) (eeStatus : UInt8) :
    (storeInfo env s k inc x eeStatus ndef).curEe =
        (if inc then (s.curEe + 255) % 2 ^ 8 else s.curEe) ∧
      (storeInfo env s k inc x eeStatus ndef).ecb = s.ecb := by
  unfold storeInfo
  rw [if_pos (not_not.mp hst)]
  cases inc
  · exact ⟨rfl, rfl⟩
  · exact ⟨rfl, rfl⟩

def Keeps (s t : Ee) : Prop := (∃ n, Arranged t n) ∧ KeepsIds s t

theorem Arranged.keeps_same (h : Arranged s n) (hst : SameTable s t) : Keeps s t :=
  ⟨⟨n, h.same hst⟩, hst.keepsIds⟩

theorem arranged_discRsp (h : Arranged s n) {numNfcee : UInt8} (hord : OrderlyRsp s numNfcee)
    (ok : Bool) : Keeps s (nciDiscRsp s numNfcee ok) := by
  have hexp : ∀ t : Ee, SameTable s t →
      Keeps s (if ok then { t with numEeExpecting := numNfcee.toNat } else t) := by
    intro t hst
    apply h.keeps_same
    split
    · exact ⟨hst.cur, hst.ids, hst.order⟩
    · exact hst
  unfold nciDiscRsp
  unfold OrderlyRsp at hord
  apply hexp
  cases hem : s.emState with
  | init =>
    rw [hem] at hord
    dsimp only at hord ⊢
    split
    · exact ⟨hord.symm, fun _ _ => rfl, fun _ => Iff.rfl⟩
    · exact ⟨hord.symm, fun _ _ => rfl, fun _ => Iff.rfl⟩
  | initDone =>
    rw [hem] at hord
    dsimp only at hord ⊢
    by_cases hnum : numNfcee = 0
    · rw [if_pos hnum]
      exact ⟨rfl, fun _ _ => rfl, fun _ => Iff.rfl⟩
    · rw [if_neg hnum]
      have hcur := hord.resolve_left hnum
      refine ⟨hcur, fun k _ => ?_, fun _ => Iff.rfl⟩
      dsimp only
      rw [if_neg (by omega)]

/-- A notification starts with the table of the state, apart from `cur_ee`. -/
structure SameBlocks (s u : Ee) : Prop where
  ecb : u.ecb = s.ecb
  flags : u.ecbFlags = s.ecbFlags

variable {u : Ee}

theorem SameBlocks.ordered (hu : SameBlocks s u) (j : EcbIx) : u.ordered j ↔ s.ordered j := by
  unfold Ee.ordered
  rw [hu.flags]

section
variable (h : Arranged s n)
include h

theorem store_counted (hu : SameBlocks s u) (hcur : u.curEe = s.curEe + 1)
    (hk : k.val = s.curEe) (hlt : k.val < n) (hid : (s.ecb k).nfceeId = x)
    (hst : stores env x ndef) (inc : Bool) (eeStatus : UInt8) :
    Keeps s (storeInfo env u k inc x eeStatus ndef) := by
  obtain ⟨hcur', hids⟩ := @storeInfo_stored env u x k ndef hst inc eeStatus
  have hids' : ∀ j, ((storeInfo env u k inc x eeStatus ndef).ecb j).nfceeId =
      (s.ecb j).nfceeId := by
    intro j
    rw [hids, hu.ecb]
    split
    case isTrue hj => rw [hj, hid]
    case isFalse => rfl
  refine ⟨⟨n, h.counted (hcur'.trans hcur) (hk ▸ hlt) hids' fun j => ?_⟩, fun j _ _ => hids' j⟩
  rw [storeInfo_ordered, hu.ordered, ← hk, Ne, Fin.ext_iff]

theorem store_found (hu : SameBlocks s u) (hcur : u.curEe = n + 1)
    (hcurN : s.curEe = n) (hk : k.val = n) (hn : n < nfaEeMaxEeSupported)
    (hfind : findEcb s x = none) (hinv : x ≠ nfaEeInvalid) (hst : stores env x ndef) (inc : Bool)
    (eeStatus : UInt8) : Keeps s (storeInfo env u k inc x eeStatus ndef) := by
  obtain ⟨hcur', hids⟩ := @storeInfo_stored env u x k ndef hst inc eeStatus
  obtain ⟨hdh, hnew⟩ := findEcb_none hfind
  have htakes : Takes s (storeInfo env u k inc x eeStatus ndef) n x := by
    refine ⟨⟨hinv, hdh⟩, hnew, fun j => ?_⟩
    rw [hids, hu.ecb, ← hk]
    simp only [Fin.ext_iff]
  refine ⟨⟨n + 1, h.found htakes hn hcurN (hcur'.trans hcur) fun j hj => ?_⟩, htakes.keepsIds h⟩
  rw [storeInfo_ordered, hu.ordered] at hj
  exact hj.1

/-- The table stays when a known NFCEE is stored again. -/
theorem store_known (hfind : findEcb s x = some k) (hord : ¬ s.ordered k)
    (hst : stores env x ndef) (hu : SameBlocks s u) (hcur : u.curEe = s.curEe)
    (inc : Bool) (eeStatus : UInt8) : Keeps s (storeInfo env u k inc x eeStatus ndef) := by
  obtain ⟨hcur', hids⟩ := @storeInfo_stored env u x k ndef hst inc eeStatus
  refine h.keeps_same ⟨hcur'.trans hcur, fun j hj => ?_, fun j => ?_⟩
  · rw [hids, hu.ecb]
    split
    case isTrue hjk =>
      by_cases hx : x = nfcDhId
      · rw [hx, findEcb_dh] at hfind
        exact absurd (hjk.trans (Option.some.inj hfind).symm) hj
      · rw [hjk, (findEcb_some hfind hx).2.1]
    case isFalse => rfl
  · rw [storeInfo_ordered, hu.ordered]
    refine ⟨And.left, fun hj' => ⟨hj', ?_⟩⟩
    rintro rfl
    exact hord hj'

theorem store_discarded (hord : ¬ s.ordered k) (hst : ¬ stores env x ndef)
    (hu : SameBlocks s u) {inc : Bool} (hcur : u.curEe = if inc then s.curEe + 1 else s.curEe)
    (eeStatus : UInt8) : Keeps s (storeInfo env u k inc x eeStatus ndef) := by
  obtain ⟨hcur', hecb⟩ := @storeInfo_discarded env u x k ndef hst inc eeStatus
  have hle : s.curEe ≤ 7 := h.cur.trans h.le
  refine h.keeps_same ⟨?_, fun j _ => ?_, fun j => ?_⟩
  · rw [hcur', hcur]
    cases inc
    · rfl
    · simp only [if_true]
      omega
  · rw [hecb, hu.ecb]
  · rw [storeInfo_ordered, hu.ordered]
    refine ⟨And.left, fun hj' => ⟨hj', ?_⟩⟩
    rintro rfl
    exact hord hj'

theorem arranged_discNtf_init (hem : s.emState = .init) {nfceeId : UInt8}
    (hord : OrderlyNtf env s nfceeId ndef) (eeStatus : UInt8) :
    Keeps s (nciDiscNtf env s nfceeId eeStatus ndef) := by
  unfold nciDiscNtf
  unfold OrderlyNtf at hord
  rw [hem] at hord
  simp only [hem]
  by_cases hlt : s.curEe < nfaEeMaxEeSupported
  · rw [dif_pos hlt]
    have hnext := hord hlt
    by_cases hst : stores env nfceeId ndef
    · rw [if_pos hst] at hnext
      obtain ⟨hinv, hnext⟩ := hnext
      unfold Ee.nextIs at hnext
      cases hfind : findEcb s nfceeId with
      | some k =>
        rw [hfind] at hnext
        have hdh : nfceeId ≠ nfcDhId := by
          rintro rfl
          rw [findEcb_dh] at hfind
          obtain rfl := Option.some.inj hfind
          exact absurd hlt (by rw [← hnext]; decide)
        have hk := h.lt_of_findEcb hfind hdh hinv
        obtain rfl : k = ⟨s.curEe, Nat.lt_succ_of_lt hlt⟩ := Fin.ext hnext
        refine store_counted h ⟨?_, ?_⟩ ?_ rfl hk (findEcb_some hfind hdh).2.1 hst _ _
        · rfl
        · rfl
        · rfl
      | none =>
        rw [hfind] at hnext
        have hcur := h.cur_eq_of_nextFree hnext
        refine store_found h ⟨?_, ?_⟩ ?_ hcur ?_ (hcur ▸ hlt) hfind hinv hst _ _
        · rfl
        · rfl
        · exact congrArg (· + 1) hcur
        · exact hcur
    · rw [if_neg hst] at hnext
      have hcur := h.cur_eq_of_nextFree hnext
      have hfree : ¬ s.ordered ⟨s.curEe, Nat.lt_succ_of_lt hlt⟩ := by
        rw [h.order]
        simp only
        omega
      refine store_discarded h hfree hst ⟨?_, ?_⟩ ?_ _
      · rfl
      · rfl
      · rfl
  · rw [dif_neg hlt]
    exact h.keeps_same ⟨rfl, fun _ _ => rfl, fun _ => Iff.rfl⟩

theorem arranged_discNtf_initDone (hem : s.emState = .initDone) {nfceeId : UInt8}
    (hord : OrderlyNtf env s nfceeId ndef) (eeStatus : UInt8) :
    Keeps s (nciDiscNtf env s nfceeId eeStatus ndef) := by
  have hle : s.curEe ≤ 7 := h.cur.trans h.le
  unfold nciDiscNtf
  unfold OrderlyNtf at hord
  rw [hem] at hord
  simp only [hem]
  have hfindEq : ∀ x, findEcb { s with
      emState := .initDone, numEeExpecting := s.numEeExpecting - 1 } x = findEcb s x := fun _ => rfl
  rw [hfindEq, hfindEq]
  cases hfind : findEcb s nfceeId with
  | some k =>
    rw [hfind] at hord
    dsimp only at hord ⊢
    by_cases hk : s.ordered k
    · rw [if_pos (show s.ecbFlags k &&& flagOrder ≠ 0 from hk)]
      obtain ⟨hst, hcur⟩ := hord hk
      have hlt := ((h.order k).mp hk).2
      have hdh : nfceeId ≠ nfcDhId := by
        rintro rfl
        rw [findEcb_dh] at hfind
        obtain rfl := Option.some.inj hfind
        exact absurd (hlt.trans_le h.le) (by decide)
      refine store_counted h ⟨?_, ?_⟩ ?_ hcur hlt (findEcb_some hfind hdh).2.1 hst _ _
      · rfl
      · rfl
      · exact Nat.mod_eq_of_lt (by omega)
    · rw [if_neg (show ¬ s.ecbFlags k &&& flagOrder ≠ 0 from hk)]
      by_cases hst : stores env nfceeId ndef
      · refine store_known h hfind hk hst ⟨?_, ?_⟩ ?_ _ _
        · rfl
        · rfl
        · rfl
      · refine store_discarded h hk hst ⟨?_, ?_⟩ ?_ _
        · rfl
        · rfl
        · rfl
  | none =>
    rw [hfind] at hord
    dsimp only at hord ⊢
    cases hfree : findEcb s nfaEeInvalid with
    | none => exact h.keeps_same ⟨rfl, fun _ _ => rfl, fun _ => Iff.rfl⟩
    | some k =>
      obtain ⟨hk, hdh⟩ := h.findEcb_invalid hfree
      have hn : n < nfaEeMaxEeSupported := hk ▸ lt_of_ne_dh hdh
      have hinv : nfceeId ≠ nfaEeInvalid := by
        rintro rfl
        rw [hfind] at hfree
        cases hfree
      dsimp only
      rw [if_pos (h.cur.trans_lt hn)]
      by_cases hst : stores env nfceeId ndef
      · have hcur := h.cur_eq_of_nextFree (hord hst (by rw [hfree]; rfl))
        refine store_found h ⟨?_, ?_⟩ ?_ hcur hk hn hfind hinv hst _ _
        · rfl
        · rfl
        · exact congrArg (· + 1) hcur
      · have hfreeK : ¬ s.ordered k := by
          rw [h.order]
          omega
        refine store_discarded h hfreeK hst ⟨?_, ?_⟩ ?_ _
        · rfl
        · rfl
        · rfl

theorem arranged_discNtf {nfceeId : UInt8} (hord : OrderlyNtf env s nfceeId ndef)
    (eeStatus : UInt8) : Keeps s (nciDiscNtf env s nfceeId eeStatus ndef) := by
  cases hem : s.emState with
  | init => exact arranged_discNtf_init h hem hord eeStatus
  | initDone => exact arranged_discNtf_initDone h hem hord eeStatus

/-- A new MEP NFCEE gets the block behind those in use. -/
theorem arranged_addMepEcb (hfind : findEcb s x = none)
    (hfree : s.curEe < nfaEeMaxEeSupported → s.nextFree) (hadd : addMepEcb s x = some (t, k)) :
    Keeps s t := by
  unfold addMepEcb at hadd
  by_cases hlt : s.curEe < nfaEeMaxEeSupported
  · rw [dif_pos hlt] at hadd
    obtain ⟨rfl, rfl⟩ := Prod.mk.inj (Option.some.inj hadd)
    have hcur := h.cur_eq_of_nextFree (hfree hlt)
    obtain ⟨hdh, hnew⟩ := findEcb_none hfind
    have hinv : x ≠ nfaEeInvalid := by
      rintro rfl
      exact hnew _ (ne_dh_of_lt hlt) (hfree hlt ⟨s.curEe, Nat.lt_succ_of_lt hlt⟩ (ne_dh_of_lt hlt) rfl)
    have htakes : Takes s { s.setEcb ⟨s.curEe, Nat.lt_succ_of_lt hlt⟩ { s.ecb ⟨s.curEe,
        Nat.lt_succ_of_lt hlt⟩ with nfceeId := x, eeStatus := nfaEeStatusMepMask } with
        curEe := s.curEe + 1 } n x := by
      refine ⟨⟨hinv, hdh⟩, hnew, fun j => ?_⟩
      dsimp only [Ee.setEcb]
      by_cases hj : j.val = n
      · obtain rfl : j = ⟨s.curEe, Nat.lt_succ_of_lt hlt⟩ := Fin.ext (hj.trans hcur.symm)
        rw [if_pos hj, Function.update_self]
      · have hne : j ≠ ⟨s.curEe, Nat.lt_succ_of_lt hlt⟩ := by
          rintro rfl
          exact hj hcur
        rw [if_neg hj, Function.update_of_ne hne]
    exact ⟨⟨n + 1, h.found htakes (hcur ▸ hlt) hcur (congrArg (· + 1) hcur) fun _ => id⟩,
      htakes.keepsIds h⟩
  · rw [dif_neg hlt] at hadd
    cases hadd

theorem arranged_setAside (hfind : findEcb s x = none) (hfree : findEcb s nfaEeInvalid = some k) :
    Keeps s ((s.setEcb k { s.ecb k with nfceeId := x }).addFlags k flagOrder) := by
  obtain ⟨hk, hdhK⟩ := h.findEcb_invalid hfree
  obtain ⟨hdh, hnew⟩ := findEcb_none hfind
  have hinv : x ≠ nfaEeInvalid := by
    rintro rfl
    rw [hfind] at hfree
    cases hfree
  have htakes : Takes s ((s.setEcb k { s.ecb k with nfceeId := x }).addFlags k flagOrder) n x := by
    refine ⟨⟨hinv, hdh⟩, hnew, fun j => ?_⟩
    dsimp only [Ee.addFlags, Ee.setEcb]
    by_cases hj : j = k
    · rw [hj, if_pos hk, Function.update_self]
    · rw [if_neg (fun hn => hj (Fin.ext (hn.trans hk.symm))), Function.update_of_ne hj]
  refine ⟨⟨n + 1, h.setAside htakes (hk ▸ lt_of_ne_dh hdhK) rfl fun j => ?_⟩, htakes.keepsIds h⟩
  rw [ordered_addFlags_order, ← hk, Fin.ext_iff]
  rfl

theorem arranged_discReqBlock (hord : OrderlyInfo env s x)
    (hblock : discReqBlock env s x = some (t, k)) : Keeps s t := by
  unfold discReqBlock at hblock
  cases hfind : findEcb s x with
  | some j =>
    rw [hfind] at hblock
    obtain ⟨rfl, rfl⟩ := Prod.mk.inj (Option.some.inj hblock)
    exact h.keeps_same ⟨rfl, fun _ _ => rfl, fun _ => Iff.rfl⟩
  | none =>
    rw [hfind] at hblock
    dsimp only at hblock
    cases hmep : (if x ∈ env.uiccIds then addMepEcb s x else none) with
    | some r =>
      rw [hmep] at hblock
      obtain rfl := Option.some.inj hblock
      by_cases hx : x ∈ env.uiccIds
      · rw [if_pos hx] at hmep
        exact arranged_addMepEcb h hfind (hord hfind hx) hmep
      · rw [if_neg hx] at hmep
        cases hmep
    | none =>
      rw [hmep] at hblock
      dsimp only at hblock
      obtain ⟨j, hj, hpair⟩ := Option.map_eq_some_iff.mp hblock
      obtain ⟨rfl, rfl⟩ := Prod.mk.inj hpair
      exact arranged_setAside h hfind hj

end

theorem Keeps.same (h : Keeps s t) (hst : SameTable t u) : Keeps s u := by
  obtain ⟨⟨m, hm⟩, hids⟩ := h
  refine ⟨⟨m, hm.same hst⟩, fun k hk hid => ?_⟩
  rw [hst.ids k hk]
  exact hids k hk hid

theorem Keeps.trans (h : Keeps s t) (h' : Keeps t u) : Keeps s u := by
  refine ⟨h'.1, fun k hk hid => ?_⟩
  have hst := h.2 k hk hid
  rw [← hst] at hid ⊢
  exact h'.2 k hk hid

theorem arranged_discReqEntry (h : Arranged s n) (hord : OrderlyInfo env s x) (add : Bool) :
    Keeps s (discReqEntry env s add x) := by
  unfold discReqEntry
  cases hblock : discReqBlock env s x with
  | none => exact h.keeps_same ⟨rfl, fun _ _ => rfl, fun _ => Iff.rfl⟩
  | some r =>
    obtain ⟨t, k⟩ := r
    apply (arranged_discReqBlock h hord hblock).same
    dsimp only
    split
    · refine ⟨rfl, fun j _ => ?_, fun j => ordered_addFlags_discReq t k j⟩
      by_cases hj : j = k
      · rw [hj]
        simp [Ee.setEcb, Ee.addFlags]
      · simp [Ee.setEcb, Ee.addFlags, hj]
    · exact ⟨rfl, fun _ _ => rfl, fun j => ordered_addFlags_discReq t k j⟩

theorem arranged_discReqNtf {infos : List (Bool × UInt8)} :
    ∀ {s : Ee} {n : Nat}, Arranged s n → OrderlyInfos env s infos →
      Keeps s (nciDiscReqNtf env s infos) := by
  induction infos with
  | nil => exact fun h _ => h.keeps_same ⟨rfl, fun _ _ => rfl, fun _ => Iff.rfl⟩
  | cons i infos ih =>
    intro s n h hord
    have hentry := arranged_discReqEntry h hord.1 i.1
    obtain ⟨m, hm⟩ := hentry.1
    exact hentry.trans (ih hm hord.2)

end Handlers

/-! ## Runs -/

theorem arranged_discStep {env : EeEnv} {s : Ee} {n : Nat} (h : Arranged s n) {e : DiscEvent}
    (hord : Orderly env s e) : ∃ t, discStep env s e = some t ∧ Keeps s t := by
  cases e with
  | discRsp numNfcee ok => exact ⟨_, rfl, arranged_discRsp h hord ok⟩
  | discNtf nfceeId eeStatus ndef => exact ⟨_, rfl, arranged_discNtf h hord eeStatus⟩
  | discReqNtf infos => exact ⟨_, rfl, arranged_discReqNtf h hord⟩

theorem arranged_start (discover : Bool) : Arranged (Ee.start discover) 0 := by
  refine ⟨Nat.zero_le _, Nat.zero_le _, fun k hk => absurd hk (Nat.not_lt_zero _),
    fun j k hj _ => absurd hj (Nat.not_lt_zero _), fun k hk _ => ?_, fun k => ?_⟩
  · show (if k = cb4Dh then _ else _ : Ecb).nfceeId = _
    rw [if_neg hk]
  · show (0 : UInt8) &&& flagOrder ≠ 0 ↔ 0 ≤ k.val ∧ k.val < 0
    simp

/-- What every orderly event keeps, every run of orderly events keeps. -/
theorem run_keeps {env : EeEnv} {s : Ee} {n : Nat} (h : Arranged s n) {es : List DiscEvent}
    (hok : StepsOk (discStep env) (Orderly env) s es) :
    ∃ t, run (discStep env) s es = some t ∧ Keeps s t := by
  have hstep : ∀ u e, Keeps s u → Orderly env u e → ∃ t, discStep env u e = some t ∧ Keeps s t := by
    intro u e hu he
    obtain ⟨m, hm⟩ := hu.1
    obtain ⟨t, ht, hkeeps⟩ := arranged_discStep hm he
    exact ⟨t, ht, hu.trans hkeeps⟩
  exact run_invariant hstep es s (h.keeps_same ⟨rfl, fun _ _ => rfl, fun _ => Iff.rfl⟩) hok

theorem table_consistent (env : EeEnv) (discover : Bool) (es es' : List DiscEvent)
    (hok : StepsOk (discStep env) (Orderly env) (Ee.start discover) (es ++ es')) :
    ∃ s t, run (discStep env) (Ee.start discover) es = some s ∧ run (discStep env) s es' = some t ∧
      Consistent s ∧ Consistent t ∧ KeepsIds s t := by
  obtain ⟨hok, hok'⟩ := stepsOk_append es es' hok
  obtain ⟨s, hs, ⟨n, hn⟩, -⟩ := run_keeps (arranged_start discover) hok
  obtain ⟨t, ht, ⟨m, hm⟩, hids⟩ := run_keeps hn (hok' s hs)
  exact ⟨s, t, hs, ht, hn.consistent, hm.consistent, hids⟩

/-- Settings in which the NFCEE 0x82 is one of a UICC with several ports. -/
def mepEnv : EeEnv where
  nci2 := true
  lmrtSize := 1000
  routeBlockControl := 0
  muteTechRouteOption := true
  techBlock := false
  techBlockMask := 0
  nfcSecure := false
  uiccIds := [0x82]
  defaultNdefNfcee := 0x10
  t4tNfceeConfig := false

/-- Two NFCEEs are found, one of two ports is added, and a request comes before the
notification of its NFCEE. -/
theorem table_consistent_orderly : ∃ s t,
    run (discStep mepEnv) (Ee.start true)
      [.discRsp 2 true, .discNtf 0x80 1 false, .discNtf 0x81 1 false] = some s ∧
    run (discStep mepEnv) s
      [.discReqNtf [(true, 0x82)], .discReqNtf [(true, 0x83)], .discNtf 0x83 0 false] = some t ∧
    Consistent s ∧ Consistent t ∧ KeepsIds s t :=
  table_consistent mepEnv true _ _ (by decide)

/-- The request of a port takes the block that was set aside for another NFCEE; and the
NFCEEs that a response has counted are counted again, past the last block. -/
theorem table_inconsistent :
    (∃ s t, run (discStep mepEnv) (Ee.start true)
        [.discRsp 0 true, .discReqNtf [(true, 0x81)]] = some s ∧
      run (discStep mepEnv) s [.discReqNtf [(true, 0x82)]] = some t ∧
      (s.ecb 0).nfceeId = 0x81 ∧ (t.ecb 0).nfceeId = 0x82 ∧ ¬ KeepsIds s t) ∧
    ∃ t, run (discStep mepEnv) (Ee.start true)
        [.discRsp 0 true, .discRsp 7 true, .discReqNtf [(true, 0x81)], .discNtf 0x81 0 false] =
          some t ∧
      t.curEe = 8 ∧ ¬ Consistent t := by
  refine ⟨⟨_, _, rfl, rfl, by decide, by decide, fun h => ?_⟩, _, rfl, by decide, fun h => ?_⟩
  · exact absurd (h 0 (by decide) (by decide)) (by decide)
  · exact absurd h.curLe (by decide)

end NfcStack.Nfa
