import NfcStack.Lib.Bytes
import NfcStack.Nfa.AidArrays

/- The AID database as a map (`nfa_ee_act.cc`: `nfa_ee_api_add_aid`,
   `nfa_ee_api_remove_aid`, `nfa_ee_find_aid_offset`): each AID has the NFCEE it is
   routed to, its power state and its qualifier, as the last operations that
   succeeded left them.

   What is proved:
     1. `Maps`: the lists of the blocks stand for the map. `maps_block`: what a
        change of one block has to say; `maps_addAid`, `maps_removeAid`: each
        operation keeps it.
     2. `aid_db_refines`: in every run whose operations meet `AidOk` the arrays
        represent the map, and an operation that is refused changes nothing.
        `aid_qualifier_moves`: without that condition the qualifier of another AID
        changes. -/
namespace NfcStack.Nfa
open NfcStack.Lib

/-! ## Operations -/

/-- The block, the power state and the qualifier of each AID. -/
abbrev AidMap := Bytes → Option (EcbIx × UInt8 × UInt8)

/-- `NFA_EeAddAidRouting` lets no longer AID pass. -/
inductive AidOp where
  | add (k : EcbIx) (aid : Bytes) (haid : aid.length ≤ nfaMaxAidLen) (powerState aidInfo : UInt8)
  | remove (aid : Bytes)

def AidOp.apply (env : EeEnv) (d : AidDb) : AidOp → AidStatus × AidDb
  | .add k aid _ powerState aidInfo => d.addAid env k aid powerState aidInfo
  | .remove aid => d.removeAid env aid

/-- What an operation that reports a status does to the map. -/
def mapStep (m : AidMap) : AidOp → AidStatus → AidMap
  | .add k aid _ powerState aidInfo, .ok => Function.update m aid (some (k, powerState, aidInfo))
  | .remove aid, .ok =>
    if m aid ≠ none then Function.update m aid none
    else if aid = nfaRemoveAllAid then fun _ => none
    else m
  | _, _ => m

def aidStep (env : EeEnv) (s : AidDb × AidMap) (op : AidOp) : Option (AidDb × AidMap) :=
  let r := op.apply env s.1
  some (r.2, mapStep s.2 op r.1)

def AidDb.entryOf (d : AidDb) (k : EcbIx) (i : Nat) : AidEntry :=
  (d.arrays k).entryAt i ((d.arrays k).lenFrom i 0)

/-- The arrays hold the map: each entry is one of the map and is routed, no AID is there
twice, and the search finds the AIDs of the map at their places and no others. -/
structure Represents (d : AidDb) (m : AidMap) : Prop where
  entry : ∀ k i, i < (d.arrays k).aidEntries.toNat →
    m (d.entryOf k i).aid = some (k, (d.arrays k).aidPwrCfg i, (d.arrays k).aidInfo i) ∧
      (d.arrays k).aidRtInfo i &&& nfaEeAeRoute ≠ 0
  once : ∀ k i j, i < (d.arrays k).aidEntries.toNat → j < (d.arrays k).aidEntries.toNat →
    (d.entryOf k i).aid = (d.entryOf k j).aid → i = j
  found : ∀ aid k powerState aidInfo, m aid = some (k, powerState, aidInfo) →
    ∃ i, i < (d.arrays k).aidEntries.toNat ∧ (d.entryOf k i).aid = aid ∧
      d.findAidOffset aid = some (k, (d.arrays k).lenFrom i 0, i)
  absent : ∀ aid, m aid = none → d.findAidOffset aid = none

/-- Whether a new AID is stored. -/
def AidDb.fits (env : EeEnv) (d : AidDb) (k : EcbIx) (aid : Bytes) : Prop :=
  aid.length + 2 + (d.arrays k).findTotalAidLen 0 ≤ findMaxAidCfgLen env ∧
    (d.arrays k).aidEntries.toNat < maxAidEntries env ∧
    (totalLmrtSize d.ee + 4 + aid.length) % 2 ^ 16 ≤ env.lmrtSize.toNat

instance (env : EeEnv) (d : AidDb) (k : EcbIx) (aid : Bytes) : Decidable (d.fits env k aid) :=
  inferInstanceAs (Decidable (_ ∧ _))

/-- An AID is stored for an NFCEE that the search looks at and that has less than 255; one
that is there is changed while the table is not too large; and behind one that is removed
all have its qualifier. -/
def AidOk (env : EeEnv) (s : AidDb × AidMap) : AidOp → Prop
  | .add k aid _ _ _ =>
    match s.1.findAidOffset aid with
    | some (chk, _, _) => chk = k → totalLmrtSize s.1.ee ≤ env.lmrtSize.toNat
    | none => s.1.fits env k aid → k ∈ s.1.ee.aidBlocks ∧ (s.1.arrays k).aidEntries.toNat < 255
  | .remove aid =>
    match s.1.findAidOffset aid with
    | some (k, _, entry) => ∀ i, i < (s.1.arrays k).aidEntries.toNat - 1 → entry ≤ i →
        (s.1.arrays k).aidInfo (i + 1) = (s.1.arrays k).aidInfo i
    | none => True

/-! ## The blocks stand for the map -/

theorem map_modify_eq {α β : Type} {f : α → β} {g : α → α} {l : List α}
    (h : ∀ a ∈ l, f (g a) = f a) (i : Nat) : (l.modify i g).map f = l.map f := by
  induction l generalizing i with
  | nil => simp
  | cons a l ih =>
    cases i with
    | zero => rw [List.modify_zero_cons, List.map_cons, List.map_cons, h a (by simp)]
    | succ i =>
      rw [List.modify_succ_cons, List.map_cons, List.map_cons, ih (fun x hx => h x (by simp [hx]))]

structure Maps (s : Ee) (m : AidMap) : Prop where
  entry : ∀ k i e, (s.ecb k).aids[i]? = some e →
    m e.aid = some (k, e.pwrCfg, (s.ecb k).aidInfo i) ∧ e.rtInfo &&& nfaEeAeRoute ≠ 0
  searched : ∀ k, (s.ecb k).aids ≠ [] → k ∈ s.aidBlocks
  has : ∀ aid k v, m aid = some (k, v) → ∃ e ∈ (s.ecb k).aids, e.aid = aid
  once : ∀ k, ((s.ecb k).aids.map AidEntry.aid).Nodup

section Maps
variable {env : EeEnv} {s t : Ee} {m m' : AidMap} {aid : Bytes} {k : EcbIx}

theorem Maps.find (h : Maps s m) {i : Nat} {e : AidEntry} (he : (s.ecb k).aids[i]? = some e) :
    findAidOffset s e.aid = some (k, i) := by
  cases hfind : findAidOffset s e.aid with
  | none =>
    have hmem : e ∈ (s.ecb k).aids := List.mem_of_getElem? he
    exact absurd rfl (findAidOffset_none hfind (h.searched k (List.ne_nil_of_mem hmem)) e hmem)
  | some r =>
    obtain ⟨j, i'⟩ := r
    obtain ⟨e', he', haid, -⟩ := findAidOffset_some hfind
    have hmap := (h.entry j i' e' he').1
    rw [haid, (h.entry k i e he).1] at hmap
    obtain rfl := (Prod.mk.inj (Option.some.inj hmap)).1
    have hi : ((s.ecb k).aids.map AidEntry.aid)[i]? = ((s.ecb k).aids.map AidEntry.aid)[i']? := by
      rw [List.getElem?_map, List.getElem?_map, he, he', Option.map_some, Option.map_some, haid]
    have hlt : i < ((s.ecb k).aids.map AidEntry.aid).length := by
      rw [List.length_map]
      exact (List.getElem?_eq_some_iff.mp he).1
    rw [(List.getElem?_inj hlt (h.once k)).mp hi]

theorem Maps.find_none (h : Maps s m) : findAidOffset s aid = none ↔ m aid = none := by
  constructor
  · intro hfind
    cases hm : m aid with
    | none => rfl
    | some r =>
      obtain ⟨k, v⟩ := r
      obtain ⟨e, hmem, haid⟩ := h.has aid k v hm
      exact absurd haid (findAidOffset_none hfind (h.searched k (List.ne_nil_of_mem hmem)) e hmem)
  · intro hm
    cases hfind : findAidOffset s aid with
    | none => rfl
    | some r =>
      obtain ⟨e, he, haid, -⟩ := findAidOffset_some hfind
      have := (h.entry _ _ e he).1
      rw [haid, hm] at this
      cases this

structure SameAids (s t : Ee) : Prop where
  aids : ∀ k, (t.ecb k).aids = (s.ecb k).aids
  aidInfo : ∀ k, (t.ecb k).aidInfo = (s.ecb k).aidInfo
  cur : t.curEe = s.curEe

theorem SameAids.blocks (hst : SameAids s t) : t.aidBlocks = s.aidBlocks := by
  unfold Ee.aidBlocks
  rw [hst.cur]

theorem Maps.same (h : Maps s m) (hst : SameAids s t) : Maps t m := by
  refine ⟨fun k i e he => ?_, fun k hk => ?_, fun aid k v hm => ?_, fun k => ?_⟩
  · rw [hst.aids] at he
    rw [hst.aidInfo]
    exact h.entry k i e he
  · rw [hst.aids] at hk
    rw [hst.blocks]
    exact h.searched k hk
  · rw [hst.aids]
    exact h.has aid k v hm
  · rw [hst.aids]
    exact h.once k

theorem maps_block (h : Maps s m) {cb : Ecb} (hst : SameAids (s.setEcb k cb) t)
    (hentry : ∀ i e, cb.aids[i]? = some e →
      m' e.aid = some (k, e.pwrCfg, cb.aidInfo i) ∧ e.rtInfo &&& nfaEeAeRoute ≠ 0)
    (hother : ∀ aid j v, j ≠ k → (m' aid = some (j, v) ↔ m aid = some (j, v)))
    (hhas : ∀ aid v, m' aid = some (k, v) → ∃ e ∈ cb.aids, e.aid = aid)
    (honce : (cb.aids.map AidEntry.aid).Nodup) (hsearched : cb.aids ≠ [] → k ∈ s.aidBlocks) :
    Maps t m' := by
  apply Maps.same _ hst
  have hself : (s.setEcb k cb).ecb k = cb := setEcb_ecb s k cb
  have hne : ∀ j, j ≠ k → (s.setEcb k cb).ecb j = s.ecb j := fun j hj => Function.update_of_ne hj _ _
  refine ⟨fun j i e he => ?_, fun j hj => ?_, fun aid j v hm => ?_, fun j => ?_⟩
  · by_cases hjk : j = k
    · subst hjk
      rw [hself] at he ⊢
      exact hentry i e he
    · rw [hne j hjk] at he ⊢
      obtain ⟨hm, hrt⟩ := h.entry j i e he
      exact ⟨(hother _ _ _ hjk).mpr hm, hrt⟩
  · by_cases hjk : j = k
    · subst hjk
      rw [hself] at hj
      exact hsearched hj
    · rw [hne j hjk] at hj
      exact h.searched j hj
  · by_cases hjk : j = k
    · subst hjk
      rw [hself]
      exact hhas aid v hm
    · rw [hne j hjk]
      exact h.has aid j v ((hother aid j v hjk).mp hm)
  · by_cases hjk : j = k
    · subst hjk
      rw [hself]
      exact honce
    · rw [hne j hjk]
      exact h.once j

theorem aidAdded_ecb (s : Ee) (k : EcbIx) :
    (aidAdded s k).ecb = Function.update s.ecb k (updateRouteAidSize (s.ecb k)) := by
  unfold aidAdded
  dsimp only
  split <;> rfl

theorem aidAdded_curEe (s : Ee) (k : EcbIx) : (aidAdded s k).curEe = s.curEe := by
  unfold aidAdded
  dsimp only
  split <;> rfl

theorem sameAids_added (s : Ee) (k : EcbIx) : SameAids s (aidAdded s k) := by
  refine ⟨fun j => ?_, fun j => ?_, aidAdded_curEe s k⟩
  · rw [aidAdded_ecb]
    by_cases hj : j = k
    · rw [hj, Function.update_self]
      rfl
    · rw [Function.update_of_ne hj]
  · rw [aidAdded_ecb]
    by_cases hj : j = k
    · rw [hj, Function.update_self]
      rfl
    · rw [Function.update_of_ne hj]

/-- An entry that is there is routed with a new power state and qualifier. -/
theorem maps_changed (h : Maps s m) {entry : Nat} {e : AidEntry}
    (he : (s.ecb k).aids[entry]? = some e) (powerState info : UInt8) {cb : Ecb}
    (haids : cb.aids = (s.ecb k).aids.modify entry fun e =>
      { e with rtInfo := e.rtInfo ||| nfaEeAeRoute, pwrCfg := powerState })
    (hinfo : cb.aidInfo = Function.update (s.ecb k).aidInfo entry info)
    (hst : SameAids (s.setEcb k cb) t) :
    Maps t (Function.update m e.aid (some (k, powerState, info))) := by
  have hmap : cb.aids.map AidEntry.aid = (s.ecb k).aids.map AidEntry.aid := by
    rw [haids]
    apply map_modify_eq
    exact fun _ _ => rfl
  have hlt : entry < ((s.ecb k).aids.map AidEntry.aid).length := by
    rw [List.length_map]
    exact (List.getElem?_eq_some_iff.mp he).1
  apply maps_block h hst
  · intro i x hx
    rw [haids, List.getElem?_modify] at hx
    obtain ⟨y, hy, hxy⟩ := Option.map_eq_some_iff.mp hx
    obtain ⟨hm, hrt⟩ := h.entry k i y hy
    by_cases hi : entry = i
    · subst hi
      obtain rfl := Option.some.inj (he.symm.trans hy)
      rw [if_pos rfl] at hxy
      subst hxy
      refine ⟨?_, ?_⟩
      · rw [hinfo, Function.update_self, Function.update_self]
      · dsimp only
        rw [or_self_and_mask]
        decide
    · rw [if_neg hi] at hxy
      subst hxy
      have hne : y.aid ≠ e.aid := by
        intro hyx
        apply hi
        apply (List.getElem?_inj hlt (h.once k)).mp
        rw [List.getElem?_map, List.getElem?_map, he, hy, Option.map_some, Option.map_some, hyx]
      refine ⟨?_, hrt⟩
      rw [Function.update_of_ne hne, hinfo, Function.update_of_ne (Ne.symm hi)]
      exact hm
  · intro aid j v hj
    by_cases haid : aid = e.aid
    · rw [haid, Function.update_self, (h.entry k entry e he).1]
      simp [Ne.symm hj]
    · rw [Function.update_of_ne haid]
  · intro aid v hm
    have hmem : aid ∈ cb.aids.map AidEntry.aid := by
      rw [hmap]
      by_cases haid : aid = e.aid
      · rw [haid]
        exact List.mem_map_of_mem (List.mem_of_getElem? he)
      · rw [Function.update_of_ne haid] at hm
        obtain ⟨x, hx, hxa⟩ := h.has aid k v hm
        exact List.mem_map.mpr ⟨x, hx, hxa⟩
    exact List.mem_map.mp hmem
  · rw [hmap]
    exact h.once k
  · intro _
    exact h.searched k (List.ne_nil_of_mem (List.mem_of_getElem? he))

theorem maps_pushed (h : Maps s m) (hm : m aid = none) (hk : k ∈ s.aidBlocks)
    (powerState info : UInt8) {cb : Ecb}
    (haids : cb.aids = (s.ecb k).aids ++ [⟨aid, powerState, nfaEeAeRoute⟩])
    (hinfo : cb.aidInfo = Function.update (s.ecb k).aidInfo (s.ecb k).aids.length info)
    (hst : SameAids (s.setEcb k cb) t) :
    Maps t (Function.update m aid (some (k, powerState, info))) := by
  have hnew : ∀ j (i : Nat) (e : AidEntry), (s.ecb j).aids[i]? = some e → e.aid ≠ aid := by
    intro j i e he haid
    have := (h.entry j i e he).1
    rw [haid, hm] at this
    cases this
  apply maps_block h hst
  · intro i x hx
    rw [haids] at hx
    by_cases hi : i < (s.ecb k).aids.length
    · rw [List.getElem?_append_left hi] at hx
      obtain ⟨hmx, hrt⟩ := h.entry k i x hx
      rw [Function.update_of_ne (hnew k i x hx), hinfo, Function.update_of_ne hi.ne]
      exact ⟨hmx, hrt⟩
    · rw [List.getElem?_append_right (not_lt.mp hi), List.getElem?_singleton] at hx
      split at hx
      case isTrue hzero =>
        obtain rfl := Option.some.inj hx
        have hlast : i = (s.ecb k).aids.length := by omega
        rw [Function.update_self, hinfo, hlast, Function.update_self]
        exact ⟨rfl, show nfaEeAeRoute &&& nfaEeAeRoute ≠ 0 by decide⟩
      case isFalse => cases hx
  · intro x j v hj
    by_cases hx : x = aid
    · rw [hx, Function.update_self, hm]
      simp [Ne.symm hj]
    · rw [Function.update_of_ne hx]
  · intro x v hmx
    rw [haids]
    by_cases hx : x = aid
    · exact ⟨_, List.mem_append_right _ (List.mem_singleton_self _), hx.symm⟩
    · rw [Function.update_of_ne hx] at hmx
      obtain ⟨e, he, hea⟩ := h.has x k v hmx
      exact ⟨e, List.mem_append_left _ he, hea⟩
  · rw [haids, List.map_append, List.nodup_append]
    refine ⟨h.once k, List.nodup_singleton _, ?_⟩
    intro x hx y hy
    obtain ⟨e, he, rfl⟩ := List.mem_map.mp hx
    obtain ⟨i, hi⟩ := List.mem_iff_getElem?.mp he
    obtain rfl : y = aid := by simpa using hy
    exact hnew k i e hi
  · exact fun _ => hk

/-- An entry is removed; those behind it have its qualifier. -/
theorem maps_erased (h : Maps s m) {entry : Nat} {e : AidEntry}
    (he : (s.ecb k).aids[entry]? = some e) {cb : Ecb} (haids : cb.aids = (s.ecb k).aids.eraseIdx entry)
    (hinfo : cb.aidInfo = (s.ecb k).aidInfo)
    (hqual : ∀ i, i < (s.ecb k).aids.length - 1 → entry ≤ i →
      (s.ecb k).aidInfo (i + 1) = (s.ecb k).aidInfo i)
    (hst : SameAids (s.setEcb k cb) t) : Maps t (Function.update m e.aid none) := by
  have hlt : entry < (s.ecb k).aids.length := (List.getElem?_eq_some_iff.mp he).1
  have hother : ∀ (i : Nat) (x : AidEntry), (s.ecb k).aids[i]? = some x → i ≠ entry → x.aid ≠ e.aid := by
    intro i x hx hi hxe
    apply hi
    have hlt' : i < ((s.ecb k).aids.map AidEntry.aid).length := by
      rw [List.length_map]
      exact (List.getElem?_eq_some_iff.mp hx).1
    apply (List.getElem?_inj hlt' (h.once k)).mp
    rw [List.getElem?_map, List.getElem?_map, he, hx, Option.map_some, Option.map_some, hxe]
  apply maps_block h hst
  · intro i x hx
    rw [haids, List.getElem?_eraseIdx] at hx
    rw [hinfo]
    split at hx
    case isTrue hi =>
      obtain ⟨hm, hrt⟩ := h.entry k i x hx
      rw [Function.update_of_ne (hother i x hx hi.ne)]
      exact ⟨hm, hrt⟩
    case isFalse hi =>
      obtain ⟨hm, hrt⟩ := h.entry k (i + 1) x hx
      have hlen := (List.getElem?_eq_some_iff.mp hx).1
      rw [Function.update_of_ne (hother (i + 1) x hx (by omega)), ← hqual i (by omega) (by omega)]
      exact ⟨hm, hrt⟩
  · intro x j v hj
    by_cases hx : x = e.aid
    · rw [hx, Function.update_self, (h.entry k entry e he).1]
      simp [Ne.symm hj]
    · rw [Function.update_of_ne hx]
  · intro x v hm
    by_cases hx : x = e.aid
    · rw [hx, Function.update_self] at hm
      cases hm
    · rw [Function.update_of_ne hx] at hm
      obtain ⟨y, hy, hya⟩ := h.has x k v hm
      obtain ⟨i, hi⟩ := List.mem_iff_getElem?.mp hy
      have hie : i ≠ entry := by
        rintro rfl
        obtain rfl := Option.some.inj (he.symm.trans hi)
        exact hx hya.symm
      refine ⟨y, ?_, hya⟩
      rw [haids, List.mem_eraseIdx_iff_getElem?]
      exact ⟨i, hie, hi⟩
  · rw [haids]
    exact (h.once k).sublist ((List.eraseIdx_sublist _ _).map _)
  · intro _
    exact h.searched k (List.ne_nil_of_mem (List.mem_of_getElem? he))

theorem maps_empty (hst : ∀ k, (t.ecb k).aids = []) : Maps t fun _ => none := by
  refine ⟨fun k i e he => ?_, fun k hk => absurd (hst k) hk, fun aid k v hm => ?_, fun k => ?_⟩
  · rw [hst] at he
    simp at he
  · cases hm
  · rw [hst]
    exact List.nodup_nil

end Maps

/-! ## The operations -/

section Ops
variable {env : EeEnv} {d : AidDb} {m : AidMap} {k : EcbIx} {aid : Bytes}

theorem sameAids_view_added (d : AidDb) (k : EcbIx) (a : AidArrays) :
    SameAids (d.view.setEcb k ((d.ee.ecb k).withAids a)) ((d.setArrays k a).added k).view := by
  rw [view_added, view_setArrays]
  exact sameAids_added _ _

theorem maps_addAid (hp : d.Packed) (h : Maps d.view m) (haid : aid.length ≤ nfaMaxAidLen)
    (powerState info : UInt8) (hok : AidOk env (d, m) (.add k aid haid powerState info)) :
    Maps (d.addAid env k aid powerState info).2.view
        (mapStep m (.add k aid haid powerState info) (d.addAid env k aid powerState info).1) ∧
      ((d.addAid env k aid powerState info).1 ≠ .ok → (d.addAid env k aid powerState info).2 = d) := by
  dsimp only [AidOk] at hok
  unfold AidDb.addAid
  rw [view_findAidOffset] at hok ⊢
  cases hfind : findAidOffset d.view aid with
  | some r =>
    obtain ⟨chk, entry⟩ := r
    rw [hfind] at hok
    dsimp only [Option.map_some] at hok ⊢
    by_cases hchk : chk = k
    · subst hchk
      rw [if_pos rfl, if_neg (not_lt.mpr (hok rfl))]
      obtain ⟨e, he, rfl, -⟩ := findAidOffset_some hfind
      obtain ⟨hmark, hmarked⟩ := entries_mark (hp chk) entry info
      obtain ⟨hpower, -⟩ := entries_setPower hmarked entry powerState
      refine ⟨?_, fun hne => absurd rfl hne⟩
      apply maps_changed h he powerState info _ rfl (sameAids_view_added d chk _)
      show ((d.arrays chk).mark entry info |>.setPower entry powerState).entries = _
      rw [hpower, hmark, List.modify_modify_eq]
      rfl
    · rw [if_neg hchk]
      exact ⟨h, fun _ => rfl⟩
  | none =>
    rw [hfind] at hok
    dsimp only [Option.map_none] at hok ⊢
    split
    · exact ⟨h, fun _ => rfl⟩
    case isFalse hlen =>
      split
      case isFalse => exact ⟨h, fun _ => rfl⟩
      case isTrue hcount =>
        split
        · exact ⟨h, fun _ => rfl⟩
        case isFalse hsize =>
          obtain ⟨hk, hfew⟩ := hok ⟨not_lt.mp hlen, hcount, not_lt.mp hsize⟩
          obtain ⟨hentries, -⟩ := entries_push (hp k) haid powerState info
          refine ⟨?_, fun hne => absurd rfl hne⟩
          apply maps_pushed h (h.find_none.mp hfind) hk powerState info _ _ (sameAids_view_added d k _)
          · show ((d.arrays k).push aid powerState info).entries = _
            rw [hentries, List.take_of_length_le]
            · rfl
            · rw [List.length_append, List.length_singleton, length_entries, Nat.mod_eq_of_lt (by omega)]
          · show Function.update (d.arrays k).aidInfo (d.arrays k).aidEntries.toNat info = _
            rw [← length_entries]
            rfl

theorem removeAidAt_ecb (s : Ee) (k : EcbIx) (entry : Nat) (e : AidEntry) :
    (removeAidAt s k entry e).ecb = Function.update s.ecb k
      (updateRouteAidSize { s.ecb k with aids := (s.ecb k).aids.eraseIdx entry }) := by
  unfold removeAidAt
  dsimp only
  split <;> split <;> rfl

theorem removeAidAt_curEe (s : Ee) (k : EcbIx) (entry : Nat) (e : AidEntry) :
    (removeAidAt s k entry e).curEe = s.curEe := by
  unfold removeAidAt
  dsimp only
  split <;> split <;> rfl

theorem sameAids_removeAidAt (s : Ee) (k : EcbIx) (entry : Nat) (e : AidEntry) :
    SameAids (s.setEcb k { s.ecb k with aids := (s.ecb k).aids.eraseIdx entry })
      (removeAidAt s k entry e) := by
  refine ⟨fun j => ?_, fun j => ?_, removeAidAt_curEe s k entry e⟩
  · rw [removeAidAt_ecb]
    unfold Ee.setEcb
    by_cases hj : j = k
    · rw [hj]
      simp only [Function.update_self, updateRouteAidSize]
    · simp only [Function.update_of_ne hj]
  · rw [removeAidAt_ecb]
    unfold Ee.setEcb
    by_cases hj : j = k
    · rw [hj]
      simp only [Function.update_self, updateRouteAidSize]
    · simp only [Function.update_of_ne hj]

theorem removeAllAids_aids (s : Ee) (k : EcbIx) : ((removeAllAids s).ecb k).aids = [] := by
  unfold removeAllAids
  dsimp only [Ee.addFlags, Ee.addCfged]
  split
  · rfl
  case isFalse hk => exact not_not.mp (not_or.mp hk).2

theorem maps_removeAid (hp : d.Packed) (h : Maps d.view m) (hok : AidOk env (d, m) (.remove aid)) :
    Maps (d.removeAid env aid).2.view (mapStep m (.remove aid) (d.removeAid env aid).1) := by
  have hview := (@view_removeAid env d hp aid).1
  dsimp only [AidOk] at hok
  unfold apiRemoveAid at hview
  rw [hview]
  unfold AidDb.removeAid
  rw [view_findAidOffset] at hok ⊢
  cases hfind : findAidOffset d.view aid with
  | some r =>
    obtain ⟨k, entry⟩ := r
    rw [hfind] at hok
    obtain ⟨e, he, rfl, -⟩ := findAidOffset_some hfind
    have hm : m e.aid ≠ none := by
      rw [(h.entry k entry e he).1]
      exact Option.some_ne_none _
    dsimp only [Option.map_some, mapStep] at hok ⊢
    rw [he, if_pos hm]
    refine maps_erased h he ?_ ?_ (fun i hi => ?_) (sameAids_removeAidAt d.view k entry e)
    · rfl
    · rfl
    · rw [show (d.view.ecb k).aids.length = _ from length_entries _] at hi
      exact hok i hi
  | none =>
    dsimp only [Option.map_none]
    by_cases hall : aid = nfaRemoveAllAid
    · have hm : ¬ m aid ≠ none := not_not.mpr (h.find_none.mp hfind)
      rw [if_pos hall, if_pos hall]
      dsimp only [mapStep]
      rw [if_neg hm, if_pos hall]
      exact maps_empty (removeAllAids_aids _)
    · rw [if_neg hall, if_neg hall]
      exact h

theorem Maps.represents (h : Maps d.view m) : Represents d m := by
  have hget : ∀ k i, i < (d.arrays k).aidEntries.toNat →
      (d.view.ecb k).aids[i]? = some (d.entryOf k i) := by
    intro k i hi
    have := getElem?_readFrom (d.arrays k) hi 0 0
    rw [Nat.zero_add, Nat.zero_add] at this
    exact this
  refine ⟨fun k i hi => h.entry k i _ (hget k i hi), fun k i j hi hj haid => ?_,
    fun x k p q hm => ?_, fun x hm => ?_⟩
  · have hfind := h.find (hget k i hi)
    rw [haid, h.find (hget k j hj)] at hfind
    exact (Prod.mk.inj (Option.some.inj hfind)).2.symm
  · obtain ⟨e, hmem, rfl⟩ := h.has x k _ hm
    obtain ⟨i, he⟩ := List.mem_iff_getElem?.mp hmem
    have hi : i < (d.arrays k).aidEntries.toNat := by
      rw [← length_entries]
      exact (List.getElem?_eq_some_iff.mp he).1
    obtain rfl := Option.some.inj ((hget k i hi).symm.trans he)
    refine ⟨i, hi, rfl, ?_⟩
    rw [view_findAidOffset, h.find he]
    rfl
  · rw [view_findAidOffset, h.find_none.mpr hm]
    rfl

end Ops

/-! ## Runs -/

theorem aid_db_refines (env : EeEnv) (d : AidDb) (hempty : ∀ k, (d.arrays k).aidEntries = 0)
    (ops : List AidOp) (hok : StepsOk (aidStep env) (AidOk env) (d, fun _ => none) ops) :
    ∃ t m, run (aidStep env) (d, fun _ => none) ops = some (t, m) ∧ Represents t m ∧
      ∀ k aid haid powerState info, AidOk env (t, m) (.add k aid haid powerState info) →
        (t.addAid env k aid powerState info).1 ≠ .ok → (t.addAid env k aid powerState info).2 = t := by
  have hstep : ∀ (s : AidDb × AidMap) op, s.1.Packed ∧ Maps s.1.view s.2 → AidOk env s op →
      ∃ u, aidStep env s op = some u ∧ u.1.Packed ∧ Maps u.1.view u.2 := by
    rintro ⟨s, m⟩ op ⟨hp, hm⟩ hop
    refine ⟨_, rfl, ?_⟩
    cases op with
    | add k aid haid powerState info =>
      exact ⟨(view_addAid hp haid powerState info).2, (maps_addAid hp hm haid powerState info hop).1⟩
    | remove aid => exact ⟨(view_removeAid hp aid).2, maps_removeAid hp hm hop⟩
  have hstart : d.Packed ∧ Maps d.view fun _ => none := by
    refine ⟨fun k => ?_, maps_empty fun k => ?_⟩
    · unfold AidArrays.Packed
      rw [hempty]
      trivial
    · show (d.arrays k).entries = []
      unfold AidArrays.entries
      rw [hempty]
      rfl
  obtain ⟨⟨t, m⟩, hrun, hp, hm⟩ := run_invariant hstep ops _ hstart hok
  exact ⟨t, m, hrun, hm.represents, fun k aid haid powerState info hadd =>
    (maps_addAid hp hm haid powerState info hadd).2⟩

instance (env : EeEnv) (s : AidDb × AidMap) : ∀ op, Decidable (AidOk env s op)
  | .add k aid _ _ _ =>
    match h : s.1.findAidOffset aid with
    | some (chk, _, _) =>
      decidable_of_iff (chk = k → totalLmrtSize s.1.ee ≤ env.lmrtSize.toNat) (by simp only [AidOk, h])
    | none =>
      decidable_of_iff
        (s.1.fits env k aid → k ∈ s.1.ee.aidBlocks ∧ (s.1.arrays k).aidEntries.toNat < 255)
        (by simp only [AidOk, h])
  | .remove aid =>
    match h : s.1.findAidOffset aid with
    | some (k, _, entry) =>
      decidable_of_iff (∀ i, i < (s.1.arrays k).aidEntries.toNat - 1 → entry ≤ i →
        (s.1.arrays k).aidInfo (i + 1) = (s.1.arrays k).aidInfo i) (by simp only [AidOk, h])
    | none => .isTrue (by simp only [AidOk, h])

/-- A database without AIDs, and settings for a table of 1000 bytes. -/
def emptyDb : AidDb := ⟨Ee.start false, fun _ => ⟨fun _ => 0, fun _ => 0, fun _ => 0, fun _ => 0, fun _ => 0, 0⟩⟩

def aidEnv : EeEnv where
  nci2 := true
  lmrtSize := 1000
  routeBlockControl := 0
  muteTechRouteOption := true
  techBlock := false
  techBlockMask := 0
  nfcSecure := false
  uiccIds := []
  defaultNdefNfcee := 0x10
  t4tNfceeConfig := false

/-- Two AIDs are added, the first one is changed, and the second is removed. -/
theorem aid_db_refines_changed :
    ∃ t m, run (aidStep aidEnv) (emptyDb, fun _ => none)
        [.add 7 [1, 2, 3, 4, 5] (by decide) 1 0x10, .add 7 [6, 7, 8, 9, 10] (by decide) 1 0x20,
          .add 7 [1, 2, 3, 4, 5] (by decide) 3 0x20, .remove [6, 7, 8, 9, 10]] = some (t, m) ∧
      Represents t m ∧
      ∀ k aid haid powerState info, AidOk aidEnv (t, m) (.add k aid haid powerState info) →
        (t.addAid aidEnv k aid powerState info).1 ≠ .ok →
          (t.addAid aidEnv k aid powerState info).2 = t :=
  aid_db_refines aidEnv emptyDb (fun _ => rfl) _ (by decide +kernel)

/-- The AID behind one that is removed gets its qualifier. -/
theorem aid_qualifier_moves :
    ∃ t m, run (aidStep aidEnv) (emptyDb, fun _ => none)
        [.add 7 [1, 2, 3, 4, 5] (by decide) 1 0x10, .add 7 [6, 7, 8, 9, 10] (by decide) 1 0x20,
          .remove [1, 2, 3, 4, 5]] = some (t, m) ∧
      m [6, 7, 8, 9, 10] = some (7, 1, 0x20) ∧ t.findAidOffset [6, 7, 8, 9, 10] = some (7, 0, 0) ∧
      (t.arrays 7).aidInfo 0 = 0x10 ∧ ¬ Represents t m := by
  refine ⟨_, _, rfl, by decide +kernel, by decide +kernel, by decide +kernel, fun h => ?_⟩
  have hentry := (h.entry 7 0 (by decide +kernel)).1
  exact absurd hentry (by decide +kernel)

end NfcStack.Nfa
