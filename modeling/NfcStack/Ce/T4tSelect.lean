import NfcStack.Lib.Run
import NfcStack.Ce.T4tFile

/- Which application of the emulated Type 4 tag is selected. The flags and the index are
   set by the reader's SELECT commands, while the table of registered AIDs and the
   wildcard callback are changed by the host at any time.

   What is proved:
     1. `safe_registerAID`, `selectable_deregisterAID`, `stepSafe_apdu`: when a step
        leaves the selection at an application with a callback, and exactly when it
        does not.
     2. `selection_safe`: for runs, if and only if no selected application is
        deregistered and no SELECT fails while a registered AID is selected.
        `selection_lost`: a run that does each. -/
namespace NfcStack.Ce
open NfcStack.Lib

section Select
variable {Cback : Type}

inductive T4tEvent (Cback : Type) where
  | registerAID (aid : Bytes) (cback : Option Cback)
  | deregisterAID (aidHandle : Nat)
  | apdu (bs : Bytes)

def t4tHandle (m : T4tMem Cback) : T4tEvent Cback → Option (T4tMem Cback × List (T4tOut Cback))
  | .registerAID aid cback => some ((registerAID m aid cback).1, [])
  | .deregisterAID aidHandle => some (deregisterAID m aidHandle, [])
  | .apdu bs => dataCback m bs

def selectStep (m : T4tMem Cback) (e : T4tEvent Cback) : Option (T4tMem Cback) :=
  (t4tHandle m e).map Prod.fst

inductive Handler where
  | registered (aidHandle : Nat)
  | wildcard
  | ndefApp
  | nobody
  deriving DecidableEq, Repr

def T4tMem.handler (m : T4tMem Cback) : Handler :=
  if m.status.regAidSelected then
    if m.selectedAidIdx < ceT4tMaxRegAid then .registered m.selectedAidIdx else .nobody
  else if m.status.wildcardAidSelected then .wildcard
  else if m.status.t4tAppSelected then .ndefApp
  else .nobody

structure Selectable (m : T4tMem Cback) : Prop where
  reg : m.status.regAidSelected = true → ∃ h : m.selectedAidIdx < ceT4tMaxRegAid,
    (m.regAid ⟨m.selectedAidIdx, h⟩).aid ≠ [] ∧ (m.regAid ⟨m.selectedAidIdx, h⟩).cback.isSome
  wild : m.status.wildcardAidSelected = true → m.wildcardAidCback.isSome

/-- A step returns, leaves the selection at an application that is there, forwards nothing to
a null callback, and a SELECT by name that is not found leaves the selection unchanged. -/
def StepSafe (m : T4tMem Cback) (e : T4tEvent Cback) : Prop :=
  ∃ t outs, t4tHandle m e = some (t, outs) ∧ Selectable t ∧ (∀ n, .rawFrame none n ∉ outs) ∧
    ∀ bs, e = .apdu bs → isSelectByName bs = true → .rApdu [] .notFound ∈ outs →
      t.status = m.status ∧ t.handler = m.handler

/-- No AID matches a SELECT by name: neither a registered one, nor the one of the NDEF
application, and there is no wildcard. -/
def selectNotFound (m : T4tMem Cback) (bs : Bytes) : Prop :=
  isSelectByName bs = true ∧ t4tCmdMaxHdrSize ≤ bs.length ∧ (bs.getD 4 0).toNat ≤ bs.length - 5 ∧
    findRegAid m (selectAid bs) = none ∧
    if isNdefAid m bs then bs.getD 11 0 ≠ 0x00 ∧ bs.getD 11 0 ≠ 0x01 else m.wildcardAidCback = none

/-- The application that is selected is not deregistered, and no SELECT fails while a
registered AID is selected. -/
def SelectOk (m : T4tMem Cback) : T4tEvent Cback → Prop
  | .registerAID _ _ => True
  | .deregisterAID aidHandle =>
    ¬ (m.status.regAidSelected = true ∧ m.selectedAidIdx = aidHandle) ∧
      ¬ (m.status.wildcardAidSelected = true ∧ aidHandle = ceT4tMaxRegAid)
  | .apdu bs => ¬ (m.status.regAidSelected = true ∧ selectNotFound m bs)

/-! ## The invariant -/

/-- The NDEF application is selected only if it is configured. -/
def Sound (m : T4tMem Cback) : Prop :=
  (m.ndefMsg = none ∧ m.status.t4tAppSelected = false) ∨ ∃ readOnly size, Shaped readOnly size m

/-- The application that is selected is there, and every registered AID has a callback. -/
structure Safe (m : T4tMem Cback) : Prop where
  selectable : Selectable m
  table : ∀ xx, (m.regAid xx).aid ≠ [] → (m.regAid xx).cback.isSome
  sound : Sound m

variable {m u : T4tMem Cback} {bs : Bytes} {outs : List (T4tOut Cback)}

theorem Sound.same (h : Sound m) (hs : SameFile m u) (hst : u.status = m.status) : Sound u := by
  rcases h with ⟨hmsg, happ⟩ | ⟨readOnly, size, hshape⟩
  · exact .inl ⟨hs.msg.trans hmsg, by rw [hst]; exact happ⟩
  · exact .inr ⟨readOnly, size, hshape.same hs (by rw [hst]; exact hshape.one)⟩

/-! ## Registration -/

theorem safe_registerAID (h : Safe m) (aid : Bytes) (cback : Option Cback) :
    Safe (registerAID m aid cback).1 := by
  unfold registerAID
  split
  · split
    · exact h
    · rename_i hwild
      exact ⟨⟨h.selectable.reg, fun hw => absurd (h.selectable.wild hw) hwild⟩, h.table,
        h.sound.same ⟨rfl, rfl, rfl, rfl, rfl, rfl⟩ rfl⟩
  · split
    · exact h
    · split
      · exact h
      · rename_i hcback
        split
        · exact h
        · split
          · rename_i xx hfree
            have hempty : (m.regAid xx).aid = [] := by simpa using List.find?_some hfree
            refine ⟨⟨fun hr => ?_, h.selectable.wild⟩, fun yy hyy => ?_,
              h.sound.same ⟨rfl, rfl, rfl, rfl, rfl, rfl⟩ rfl⟩
            · -- the entry in use is not the free one
              obtain ⟨hlt, haid, hcb⟩ := h.selectable.reg hr
              have hne : (⟨m.selectedAidIdx, hlt⟩ : Fin ceT4tMaxRegAid) ≠ xx := by
                rintro rfl
                exact haid hempty
              refine ⟨hlt, ?_⟩
              dsimp only
              rw [Function.update_of_ne hne]
              exact ⟨haid, hcb⟩
            · dsimp only at hyy ⊢
              by_cases hxy : yy = xx
              · rw [hxy, Function.update_self]
                exact Option.isSome_iff_ne_none.mpr hcback
              · rw [Function.update_of_ne hxy] at hyy ⊢
                exact h.table yy hyy
          · exact h

theorem sound_deregisterAID (h : Sound m) (aidHandle : Nat) : Sound (deregisterAID m aidHandle) := by
  unfold deregisterAID
  split
  · exact h.same ⟨rfl, rfl, rfl, rfl, rfl, rfl⟩ rfl
  · split
    · split
      · exact h
      · exact h.same ⟨rfl, rfl, rfl, rfl, rfl, rfl⟩ rfl
    · exact h

theorem table_deregisterAID (h : Safe m) (aidHandle : Nat) (xx : Fin ceT4tMaxRegAid)
    (haid : ((deregisterAID m aidHandle).regAid xx).aid ≠ []) :
    ((deregisterAID m aidHandle).regAid xx).cback.isSome := by
  unfold deregisterAID at haid ⊢
  split at haid
  · rw [if_pos ‹_›]
    exact h.table xx haid
  · rw [if_neg ‹_›]
    split at haid
    · rename_i hlt
      rw [dif_pos hlt]
      split at haid
      · rw [if_pos ‹_›]
        exact h.table xx haid
      · rw [if_neg ‹_›]
        dsimp only at haid ⊢
        by_cases hxx : xx = ⟨aidHandle, hlt⟩
        · rw [hxx, Function.update_self] at haid
          exact absurd rfl haid
        · rw [Function.update_of_ne hxx] at haid ⊢
          exact h.table xx haid
    · rw [dif_neg ‹_›]
      exact h.table xx haid

theorem selectable_deregisterAID (h : Safe m) (aidHandle : Nat) :
    Selectable (deregisterAID m aidHandle) ↔ SelectOk m (.deregisterAID aidHandle) := by
  unfold deregisterAID SelectOk
  split
  · rename_i hwildcard
    constructor
    · intro hs
      refine ⟨fun hr => ?_, fun hw => ?_⟩
      · obtain ⟨hlt, -⟩ := h.selectable.reg hr.1
        omega
      · exact absurd (hs.wild hw.1) Bool.false_ne_true
    · intro hok
      exact ⟨h.selectable.reg, fun hw => absurd ⟨hw, hwildcard⟩ hok.2⟩
  · rename_i hother
    split
    · rename_i hlt
      split
      · rename_i hfree
        refine ⟨fun _ => ⟨fun hr => ?_, fun hw => hother hw.2⟩, fun _ => h.selectable⟩
        obtain ⟨hidx, haid, -⟩ := h.selectable.reg hr.1
        obtain ⟨-, rfl⟩ := hr
        exact haid hfree
      · constructor
        · intro hs
          refine ⟨fun hr => ?_, fun hw => hother hw.2⟩
          obtain ⟨hidx, haid, -⟩ := hs.reg hr.1
          obtain ⟨-, rfl⟩ := hr
          dsimp only at haid
          rw [Function.update_self] at haid
          exact haid rfl
        · intro hok
          refine ⟨fun hr => ?_, h.selectable.wild⟩
          obtain ⟨hidx, haid, hcb⟩ := h.selectable.reg hr
          have hne : (⟨m.selectedAidIdx, hidx⟩ : Fin ceT4tMaxRegAid) ≠ ⟨aidHandle, hlt⟩ := by
            intro heq
            exact hok.1 ⟨hr, congrArg Fin.val heq⟩
          refine ⟨hidx, ?_⟩
          dsimp only
          rw [Function.update_of_ne hne]
          exact ⟨haid, hcb⟩
    · rename_i hlt
      refine ⟨fun _ => ⟨fun hr => ?_, fun hw => hother hw.2⟩, fun _ => h.selectable⟩
      obtain ⟨hidx, -⟩ := h.selectable.reg hr.1
      omega

/-! ## Commands -/

/-- The selection of an application, the table and the wildcard are the same, and nothing is
forwarded. -/
structure Quiet (m u : T4tMem Cback) (outs : List (T4tOut Cback)) : Prop where
  reg : u.status.regAidSelected = m.status.regAidSelected
  wild : u.status.wildcardAidSelected = m.status.wildcardAidSelected
  idx : u.selectedAidIdx = m.selectedAidIdx
  table : u.regAid = m.regAid
  cback : u.wildcardAidCback = m.wildcardAidCback
  silent : ∀ cb n, .rawFrame cb n ∉ outs

theorem quiet_answer (m : T4tMem Cback) (data : Bytes) (sw : StatusWords) :
    Quiet m m [.rApdu data sw] := ⟨rfl, rfl, rfl, rfl, rfl, by simp⟩

theorem quiet_readBinary {offset length : Nat} (h : readBinary m offset length = some outs) :
    Quiet m m outs := by
  have hmap : ∀ {src : Option Bytes} {f : Bytes → Bytes},
      (src.map fun bs => [T4tOut.rApdu (f bs) .cmdCmplted]) = some outs → Quiet m m outs := by
    intro src f hsrc
    obtain ⟨bs, -, rfl⟩ := Option.map_eq_some_iff.mp hsrc
    exact quiet_answer m _ _
  unfold readBinary at h
  split at h
  · obtain rfl := Option.some.inj h
    exact quiet_answer m _ _
  · split at h
    · split at h
      · split at h
        · obtain rfl := Option.some.inj h
          exact quiet_answer m _ _
        · exact hmap h
      · split at h
        · exact hmap h
        · exact hmap h
    · exact hmap h

theorem quiet_updateBinary {offset length : Nat} {data : Bytes}
    (h : updateBinary m offset length data = some (u, outs)) : Quiet m u outs := by
  unfold updateBinary at h
  dsimp only at h
  obtain ⟨buf, -, h⟩ := Option.bind_eq_some_iff.mp h
  split at h
  · obtain ⟨rfl, rfl⟩ := Prod.mk.inj (Option.some.inj h)
    exact ⟨rfl, rfl, rfl, rfl, rfl, by simp⟩
  · split at h
    · obtain ⟨rfl, rfl⟩ := Prod.mk.inj (Option.some.inj h)
      exact ⟨rfl, rfl, rfl, rfl, rfl, by simp⟩
    · obtain ⟨rfl, rfl⟩ := Prod.mk.inj (Option.some.inj h)
      exact ⟨rfl, rfl, rfl, rfl, rfl, by simp⟩

theorem quiet_selectFile (m : T4tMem Cback) (bs : Bytes) :
    Quiet m (processSelectFileCmd m bs).1 (processSelectFileCmd m bs).2 := by
  unfold processSelectFileCmd selectFile
  split
  · dsimp only
    split
    · exact ⟨rfl, rfl, rfl, rfl, rfl, by simp⟩
    · split
      · exact ⟨rfl, rfl, rfl, rfl, rfl, by simp⟩
      · exact ⟨rfl, rfl, rfl, rfl, rfl, by simp⟩
  · exact quiet_answer m _ _

theorem quiet_ndefAppCmd (h : ndefAppCmd m bs = some (u, outs)) : Quiet m u outs := by
  have hans : ∀ {sw : StatusWords}, some (m, [T4tOut.rApdu [] sw]) = some (u, outs) → Quiet m u outs := by
    intro sw heq
    obtain ⟨rfl, rfl⟩ := Prod.mk.inj (Option.some.inj heq)
    exact quiet_answer m _ _
  unfold ndefAppCmd at h
  dsimp only at h
  generalize (if t4tCmdMinHdrSize ≤ bs.length then bs.getD 1 0 else 0) = instruct at h
  split at h
  · split at h
    · split at h
      · exact hans h
      · obtain ⟨rfl, rfl⟩ := Prod.mk.inj (Option.some.inj h)
        exact quiet_selectFile m bs
    · exact hans h
  · split at h
    · split at h
      · obtain ⟨outs', hread, heq⟩ := Option.map_eq_some_iff.mp h
        obtain ⟨rfl, rfl⟩ := Prod.mk.inj heq
        unfold readBinaryCmd at hread
        dsimp only at hread
        split at hread
        · obtain rfl := Option.some.inj hread
          exact quiet_answer m _ _
        · rw [clamped_length (bs.getD 4 0).toNat_lt] at hread
          generalize min (bs.getD 4 0).toNat _ = le at hread
          split at hread
          · exact quiet_readBinary hread
          · obtain rfl := Option.some.inj hread
            exact quiet_answer m _ _
      · exact hans h
    · split at h
      · split at h
        · exact hans h
        · split at h
          · unfold updateBinaryCmd at h
            dsimp only at h
            split at h
            · exact hans h
            · rw [checked_length (bs.getD 4 0).toNat_lt] at h
              by_cases hin : 0 < (bs.getD 4 0).toNat ∧
                  (bs.getD 4 0).toNat ≤ bs.length - t4tCmdMaxHdrSize ∧
                  be16At bs 2 + (bs.getD 4 0).toNat ≤ m.maxFileSize
              · rw [if_pos hin, if_pos hin.1] at h
                exact quiet_updateBinary h
              · rw [if_neg hin, if_neg (lt_irrefl 0)] at h
                exact hans h
          · exact hans h
      · exact hans h

/-- What a command can do: select an application, go to the one that is selected, or
neither. -/
theorem dataCback_cases (h : dataCback m bs = some (u, outs)) :
    (isSelectByName bs = true ∧ t4tCmdMaxHdrSize ≤ bs.length ∧ processSelectAppCmd m bs = (u, outs)) ∨
    (isSelectByName bs = false ∧ u = m ∧ m.status.regAidSelected = true ∧
      ∃ hlt, outs = [.rawFrame (m.regAid ⟨m.selectedAidIdx, hlt⟩).cback m.selectedAidIdx]) ∨
    (isSelectByName bs = false ∧ u = m ∧ m.status.wildcardAidSelected = true ∧
      outs = [.rawFrame m.wildcardAidCback ceT4tMaxRegAid]) ∨
    Quiet m u outs ∧ (isSelectByName bs = true → u = m ∧ bs.length < t4tCmdMaxHdrSize) := by
  have hans : ∀ {sw : StatusWords}, some (m, [T4tOut.rApdu [] sw]) = some (u, outs) →
      u = m ∧ Quiet m u outs := by
    intro sw heq
    obtain ⟨rfl, rfl⟩ := Prod.mk.inj (Option.some.inj heq)
    exact ⟨rfl, quiet_answer m _ _⟩
  unfold dataCback at h
  split at h
  · rename_i hnil
    exact .inr (.inr (.inr ⟨(hans h).2, fun _ => ⟨(hans h).1, by simp [hnil]⟩⟩))
  · split at h
    · rename_i hclass
      refine .inr (.inr (.inr ⟨(hans h).2, fun hsel => absurd ?_ hclass.1⟩))
      unfold isSelectByName at hsel
      simp only [Bool.and_eq_true, beq_iff_eq] at hsel
      exact hsel.1.1.2
    · split at h
      · rename_i hsel
        split at h
        · rename_i hlen
          exact .inl ⟨hsel, hlen, Option.some.inj h⟩
        · rename_i hlen
          exact .inr (.inr (.inr ⟨(hans h).2, fun _ => ⟨(hans h).1, not_le.mp hlen⟩⟩))
      · rename_i hsel
        have hno : isSelectByName bs = false := by simpa using hsel
        split at h
        · rename_i hreg
          split at h
          · rename_i hlt
            obtain ⟨rfl, rfl⟩ := Prod.mk.inj (Option.some.inj h)
            exact .inr (.inl ⟨hno, rfl, hreg, hlt, rfl⟩)
          · exact .inr (.inr (.inr ⟨(hans h).2, fun hs => absurd hs hsel⟩))
        · split at h
          · rename_i hwild
            obtain ⟨rfl, rfl⟩ := Prod.mk.inj (Option.some.inj h)
            exact .inr (.inr (.inl ⟨hno, rfl, hwild, rfl⟩))
          · split at h
            · exact .inr (.inr (.inr ⟨quiet_ndefAppCmd h, fun hs => absurd hs hsel⟩))
            · exact .inr (.inr (.inr ⟨(hans h).2, fun hs => absurd hs hsel⟩))

theorem select_cases (hsel : isSelectByName bs = true) (hhdr : t4tCmdMaxHdrSize ≤ bs.length)
    (h : processSelectAppCmd m bs = (u, outs)) :
    (¬ selectNotFound m bs ∧
      ((u = m ∧ outs = [.rApdu [] .wrongLength]) ∨
      (∃ xx : Fin ceT4tMaxRegAid, (m.regAid xx).aid ≠ [] ∧ u.selectedAidIdx = xx.val ∧
        u.status.wildcardAidSelected = false ∧ u.regAid = m.regAid ∧
        outs = [.rawFrame (m.regAid xx).cback xx.val]) ∨
      (u.status.regAidSelected = false ∧ u.status.wildcardAidSelected = false ∧
        u.regAid = m.regAid ∧ outs = [.rApdu [] .cmdCmplted]) ∨
      (u.status.regAidSelected = false ∧ u.wildcardAidCback = m.wildcardAidCback ∧
        m.wildcardAidCback.isSome ∧ u.regAid = m.regAid ∧
        outs = [.rawFrame m.wildcardAidCback ceT4tMaxRegAid]))) ∨
    (selectNotFound m bs ∧ u = { m with selectedAidIdx := ceT4tMaxRegAid } ∧
      outs = [.rApdu [] .notFound]) := by
  unfold processSelectAppCmd at h
  split at h
  · rename_i hlen
    obtain ⟨rfl, rfl⟩ := Prod.mk.inj h
    exact .inl ⟨fun hnf => absurd hnf.2.2.1 (not_le.mpr hlen), .inl ⟨rfl, rfl⟩⟩
  · rename_i hlen
    split at h
    · rename_i xx hfind
      have haid := List.find?_some hfind
      rw [decide_eq_true_iff] at haid
      obtain ⟨rfl, rfl⟩ := Prod.mk.inj h
      refine .inl ⟨fun hnf => ?_, .inr (.inl ⟨xx, haid.1, rfl, rfl, rfl, rfl⟩)⟩
      rw [hnf.2.2.2.1] at hfind
      cases hfind
    · rename_i hfind
      have hsome : ∀ hcond : (if isNdefAid m bs then bs.getD 11 0 ≠ 0x00 ∧ bs.getD 11 0 ≠ 0x01
          else m.wildcardAidCback = none), selectNotFound m bs :=
        fun hcond => ⟨hsel, hhdr, not_lt.mp hlen, hfind, hcond⟩
      dsimp only at h
      split at h
      · rename_i hndef
        have hndef' : isNdefAid m bs = true := hndef
        rw [if_pos hndef'] at hsome
        have hversion : ¬ (bs.getD 11 0 ≠ 0x00 ∧ bs.getD 11 0 ≠ 0x01) → ¬ selectNotFound m bs := by
          intro hv hnf
          have hcond := hnf.2.2.2.2
          rw [if_pos hndef'] at hcond
          exact hv hcond
        split at h
        · rename_i hzero
          obtain ⟨rfl, rfl⟩ := Prod.mk.inj h
          exact .inl ⟨hversion fun hv => hv.1 hzero, .inr (.inr (.inl ⟨rfl, rfl, rfl, rfl⟩))⟩
        · rename_i hzero
          split at h
          · rename_i hone
            obtain ⟨rfl, rfl⟩ := Prod.mk.inj h
            exact .inl ⟨hversion fun hv => hv.2 hone, .inr (.inr (.inl ⟨rfl, rfl, rfl, rfl⟩))⟩
          · rename_i hone
            obtain ⟨rfl, rfl⟩ := Prod.mk.inj h
            exact .inr ⟨hsome ⟨hzero, hone⟩, rfl, rfl⟩
      · rename_i hndef
        have hndef' : ¬ isNdefAid m bs = true := hndef
        rw [if_neg hndef'] at hsome
        split at h
        · rename_i hwild
          obtain ⟨rfl, rfl⟩ := Prod.mk.inj h
          refine .inl ⟨fun hnf => ?_, .inr (.inr (.inr ⟨rfl, rfl, hwild, rfl, rfl⟩))⟩
          have hcond := hnf.2.2.2.2
          rw [if_neg hndef'] at hcond
          exact absurd hcond (Option.isSome_iff_ne_none.mp hwild)
        · rename_i hwild
          obtain ⟨rfl, rfl⟩ := Prod.mk.inj h
          exact .inr ⟨hsome (by simpa using hwild), rfl, rfl⟩

theorem unconfigured_select (hmsg : m.ndefMsg = none) (happ : m.status.t4tAppSelected = false) :
    (processSelectAppCmd m bs).1.ndefMsg = none ∧
      (processSelectAppCmd m bs).1.status.t4tAppSelected = false := by
  have hndef : ∀ v : T4tMem Cback, v.ndefMsg = none → isNdefAid v bs = false := by
    intro v hv
    unfold isNdefAid
    rw [hv]
    simp
  unfold processSelectAppCmd
  split
  · exact ⟨hmsg, happ⟩
  · split
    · exact ⟨hmsg, rfl⟩
    · dsimp only
      rw [hndef _ (by exact hmsg), if_neg Bool.false_ne_true]
      split
      · exact ⟨hmsg, rfl⟩
      · exact ⟨hmsg, happ⟩

theorem sound_dataCback (h : Sound m) (bs : Bytes) :
    ∃ u outs, dataCback m bs = some (u, outs) ∧ Sound u := by
  rcases h with ⟨hmsg, happ⟩ | ⟨readOnly, size, hshape⟩
  · have hm : Sound m := .inl ⟨hmsg, happ⟩
    unfold dataCback
    split
    · exact ⟨m, _, rfl, hm⟩
    · split
      · exact ⟨m, _, rfl, hm⟩
      · split
        · split
          · exact ⟨_, _, rfl, .inl (unconfigured_select hmsg happ)⟩
          · exact ⟨m, _, rfl, hm⟩
        · split
          · split
            · exact ⟨m, _, rfl, hm⟩
            · exact ⟨m, _, rfl, hm⟩
          · split
            · exact ⟨m, _, rfl, hm⟩
            · rw [happ, if_neg Bool.false_ne_true]
              exact ⟨m, _, rfl, hm⟩
  · obtain ⟨u, outs, hr, hu, -⟩ := serves_dataCback hshape bs
    exact ⟨u, outs, hr, .inr ⟨readOnly, size, hu⟩⟩

theorem table_dataCback (h : dataCback m bs = some (u, outs)) : u.regAid = m.regAid := by
  rcases dataCback_cases h with ⟨hsel, hhdr, hproc⟩ | ⟨-, rfl, -⟩ | ⟨-, rfl, -⟩ | ⟨hquiet, -⟩
  · rcases select_cases hsel hhdr hproc with ⟨-, ⟨rfl, -⟩ | ⟨_, -, -, -, ht, -⟩ | ⟨-, -, ht, -⟩ |
      ⟨-, -, -, ht, -⟩⟩ | ⟨-, rfl, -⟩
    · rfl
    · exact ht
    · exact ht
    · exact ht
    · rfl
  · rfl
  · rfl
  · exact hquiet.table

theorem Selectable.quiet (h : Selectable m) (hq : Quiet m u outs) : Selectable u := by
  refine ⟨fun hr => ?_, fun hw => ?_⟩
  · rw [hq.reg] at hr
    obtain ⟨hlt, haid⟩ := h.reg hr
    rw [← hq.idx] at hlt
    refine ⟨hlt, ?_⟩
    simp only [hq.table, hq.idx]
    exact haid
  · rw [hq.wild] at hw
    rw [hq.cback]
    exact h.wild hw

/-- A selection by name is safe exactly if it does not fail while a registered AID is
selected. -/
theorem stepSafe_select (h : Safe m) (hsel : isSelectByName bs = true)
    (hhdr : t4tCmdMaxHdrSize ≤ bs.length) (hr : dataCback m bs = some (u, outs))
    (hproc : processSelectAppCmd m bs = (u, outs)) :
    StepSafe m (.apdu bs) ↔ SelectOk m (.apdu bs) := by
  rcases select_cases hsel hhdr hproc with ⟨hnf, hcases⟩ | ⟨hnf, rfl, rfl⟩
  · refine iff_of_true ⟨u, outs, hr, ?_⟩ fun hreg => hnf hreg.2
    rcases hcases with ⟨rfl, rfl⟩ | ⟨xx, haid, hidx, hwild, ht, rfl⟩ | ⟨hreg, hwild, ht, rfl⟩ |
      ⟨hreg, hcb, hsome, ht, rfl⟩
    · exact ⟨h.selectable, by simp, by simp⟩
    · have hcb := h.table xx haid
      refine ⟨⟨fun _ => ?_, fun hw => ?_⟩, fun n hn => ?_, by simp⟩
      · refine ⟨hidx ▸ xx.isLt, ?_⟩
        simp only [hidx, ht]
        exact ⟨haid, hcb⟩
      · rw [hwild] at hw
        cases hw
      · simp only [List.mem_singleton, T4tOut.rawFrame.injEq] at hn
        rw [← hn.1] at hcb
        cases hcb
    · refine ⟨⟨fun hx => ?_, fun hx => ?_⟩, by simp, by simp⟩
      · rw [hreg] at hx
        cases hx
      · rw [hwild] at hx
        cases hx
    · refine ⟨⟨fun hx => ?_, fun _ => by rw [hcb]; exact hsome⟩, fun n hn => ?_, by simp⟩
      · rw [hreg] at hx
        cases hx
      · simp only [List.mem_singleton, T4tOut.rawFrame.injEq] at hn
        rw [← hn.1] at hsome
        cases hsome
  · constructor
    · rintro ⟨t, outs', ht, hs, -⟩ ⟨hreg, -⟩
      obtain ⟨rfl, rfl⟩ := Prod.mk.inj (Option.some.inj (hr.symm.trans ht))
      obtain ⟨hlt, -⟩ := hs.reg hreg
      exact absurd hlt (lt_irrefl ceT4tMaxRegAid)
    · intro hok
      have hreg : m.status.regAidSelected = false := by
        by_contra hne
        exact hok ⟨by simpa using hne, hnf⟩
      refine ⟨_, _, hr, ⟨fun hx => ?_, h.selectable.wild⟩, by simp, fun _ _ _ _ => ⟨rfl, ?_⟩⟩
      · have hx' : m.status.regAidSelected = true := hx
        rw [hreg] at hx'
        cases hx'
      · unfold T4tMem.handler
        dsimp only
        rw [hreg, if_neg Bool.false_ne_true]
        rfl

theorem stepSafe_apdu (h : Safe m) (bs : Bytes) : StepSafe m (.apdu bs) ↔ SelectOk m (.apdu bs) := by
  obtain ⟨u, outs, hr, -⟩ := sound_dataCback h.sound bs
  have hnamed : ∀ hno : isSelectByName bs = false, SelectOk m (.apdu bs) := by
    intro hno hreg
    rw [hreg.2.1] at hno
    cases hno
  rcases dataCback_cases hr with ⟨hsel, hhdr, hproc⟩ | ⟨hno, rfl, hreg, hlt, rfl⟩ | ⟨hno, rfl, hwild, rfl⟩ |
    ⟨hquiet, hsame⟩
  · exact stepSafe_select h hsel hhdr hr hproc
  · refine iff_of_true ⟨u, _, hr, h.selectable, fun n hn => ?_, by simp⟩ (hnamed hno)
    obtain ⟨_, -, hcb⟩ := h.selectable.reg hreg
    simp only [List.mem_singleton, T4tOut.rawFrame.injEq] at hn
    rw [← hn.1] at hcb
    cases hcb
  · refine iff_of_true ⟨u, _, hr, h.selectable, fun n hn => ?_, by simp⟩ (hnamed hno)
    have hcb := h.selectable.wild hwild
    simp only [List.mem_singleton, T4tOut.rawFrame.injEq] at hn
    rw [← hn.1] at hcb
    cases hcb
  · refine iff_of_true ⟨u, outs, hr, h.selectable.quiet hquiet, hquiet.silent none, ?_⟩ ?_
    · intro bs' hbs hsel _
      obtain rfl := T4tEvent.apdu.inj hbs
      obtain ⟨rfl, -⟩ := hsame hsel
      exact ⟨rfl, rfl⟩
    · intro hreg
      exact absurd hreg.2.2.1 (not_le.mpr (hsame hreg.2.1).2)

/-! ## Runs -/

theorem stepSafe_iff (h : Safe m) (e : T4tEvent Cback) : StepSafe m e ↔ SelectOk m e := by
  cases e with
  | registerAID aid cback =>
    exact iff_of_true ⟨_, _, rfl, (safe_registerAID h aid cback).selectable, by simp, by simp⟩ trivial
  | deregisterAID aidHandle =>
    rw [← selectable_deregisterAID h aidHandle]
    constructor
    · rintro ⟨t, outs, ht, hs, -⟩
      obtain ⟨rfl, -⟩ := Prod.mk.inj (Option.some.inj ht)
      exact hs
    · intro hs
      exact ⟨_, _, rfl, hs, by simp, by simp⟩
  | apdu bs => exact stepSafe_apdu h bs

theorem safe_step {e : T4tEvent Cback} (h : Safe m) (hsafe : StepSafe m e)
    (hstep : selectStep m e = some u) : Safe u := by
  obtain ⟨⟨v, outs⟩, hr, rfl⟩ := Option.map_eq_some_iff.mp hstep
  obtain ⟨t, outs', ht, hs, -⟩ := hsafe
  obtain ⟨rfl, -⟩ := Prod.mk.inj (Option.some.inj (ht.symm.trans hr))
  cases e with
  | registerAID aid cback =>
    obtain ⟨rfl, -⟩ := Prod.mk.inj (Option.some.inj hr)
    exact safe_registerAID h aid cback
  | deregisterAID aidHandle =>
    obtain ⟨rfl, -⟩ := Prod.mk.inj (Option.some.inj hr)
    exact ⟨hs, table_deregisterAID h aidHandle, sound_deregisterAID h.sound aidHandle⟩
  | apdu bs =>
    obtain ⟨w, outs'', hw, hsound⟩ := sound_dataCback h.sound bs
    obtain ⟨rfl, -⟩ := Prod.mk.inj (Option.some.inj (hw.symm.trans hr))
    refine ⟨hs, ?_, hsound⟩
    rw [table_dataCback hw]
    exact h.table

/-- No application is selected, every registered AID has a callback, and the NDEF
application is configured or not. -/
structure Inactive (m : T4tMem Cback) : Prop where
  reg : m.status.regAidSelected = false
  wild : m.status.wildcardAidSelected = false
  table : ∀ xx, (m.regAid xx).aid ≠ [] → (m.regAid xx).cback.isSome
  sound : Sound m

theorem Inactive.safe (h : Inactive m) : Safe m := by
  refine ⟨⟨fun hr => ?_, fun hw => ?_⟩, h.table, h.sound⟩
  · rw [h.reg] at hr
    cases hr
  · rw [h.wild] at hw
    cases hw

end Select

theorem selection_safe {Cback : Type} (m : T4tMem Cback) (hm : Inactive m)
    (es : List (T4tEvent Cback)) :
    Selectable m ∧ (StepsOk selectStep StepSafe m es ↔ StepsOk selectStep SelectOk m es) :=
  ⟨hm.safe.selectable,
    @stepsOk_iff _ _ selectStep StepSafe SelectOk Safe (fun _ e h => stepSafe_iff h e)
      (fun _ _ _ h hsafe hstep => safe_step h hsafe hstep) es m hm.safe⟩

theorem inactive_ceInit (Cback : Type) : Inactive (ceInit Cback) :=
  ⟨rfl, rfl, fun _ h => absurd rfl h, .inl ⟨rfl, rfl⟩⟩

/-- Two AIDs are registered; one of them is selected and the other one deregistered. -/
theorem selection_safe_other :
    Selectable (ceInit Bool) ∧
      (StepsOk selectStep StepSafe (ceInit Bool)
          [.registerAID [1, 2, 3, 4, 5] (some true), .registerAID [5, 4, 3, 2, 1] (some false),
            .apdu [0, 0xA4, 4, 0, 5, 1, 2, 3, 4, 5], .deregisterAID 1, .apdu [0x80, 1, 2, 3]] ↔
        StepsOk selectStep SelectOk (ceInit Bool)
          [.registerAID [1, 2, 3, 4, 5] (some true), .registerAID [5, 4, 3, 2, 1] (some false),
            .apdu [0, 0xA4, 4, 0, 5, 1, 2, 3, 4, 5], .deregisterAID 1, .apdu [0x80, 1, 2, 3]]) :=
  selection_safe (ceInit Bool) (inactive_ceInit Bool) _

/-- A registered AID is selected. If it is deregistered, the next command is forwarded to a
null callback; if instead a SELECT is not found, the next command is not forwarded. -/
theorem selection_lost :
    (∃ t : T4tMem Bool, run selectStep (ceInit Bool)
        [.registerAID [1, 2, 3, 4, 5] (some true), .apdu [0, 0xA4, 4, 0, 5, 1, 2, 3, 4, 5],
          .deregisterAID 0] = some t ∧ ¬ Selectable t ∧
      (dataCback t [0x80, 1, 2, 3]).map Prod.snd = some [.rawFrame none 0]) ∧
    ∃ s t : T4tMem Bool, run selectStep (ceInit Bool)
        [.registerAID [1, 2, 3, 4, 5] (some true), .apdu [0, 0xA4, 4, 0, 5, 1, 2, 3, 4, 5]] = some s ∧
      s.handler = .registered 0 ∧ dataCback s [0, 0xA4, 4, 0, 1, 7] = some (t, [.rApdu [] .notFound]) ∧
      t.handler = .nobody ∧ ¬ StepSafe s (.apdu [0, 0xA4, 4, 0, 1, 7]) ∧
      (dataCback t [0x80, 1, 2, 3]).map Prod.snd = some [.rApdu [] .notFound] := by
  refine ⟨⟨_, rfl, fun h => ?_, by decide⟩, _, _, rfl, by decide, rfl, by decide, fun h => ?_, by decide⟩
  · obtain ⟨hlt, haid, -⟩ := h.reg (by decide)
    exact haid rfl
  · obtain ⟨t, outs, ht, hs, -⟩ := h
    obtain ⟨rfl, -⟩ := Prod.mk.inj (Option.some.inj ht)
    obtain ⟨hlt, -⟩ := hs.reg (by decide)
    exact absurd hlt (by decide)

end NfcStack.Ce
