import NfcStack.Nfa.EeLmrt
import NfcStack.Nfa.AidMap

/- The accounts of the routing table (`nfa_ee_act.cc`: `nfa_ee_update_route_size`,
   `nfa_ee_total_lmrt_size`, `nfa_ee_api_lmrt_size` and the handlers that change a
   block). The sizes that a block keeps should be the bytes that its entries take in
   the download, and their total should fit in the NFCC.

   What is proved:
     1. `techTlvs_length` and its siblings: the bytes of the entries of a block.
     2. `Counted`: the sizes of a block are these bytes. `total_change`: what a change
        of one block does to the total; `account_setCfg` and its siblings: what each
        handler does to its block and to the total.
     3. `sizes_accounted`: every state of a run is accounted for, exactly if no NFCEE
        with routes is deactivated and none is activated whose routes do not fit.
        `sizes_stale`: a run that does the first. -/
namespace NfcStack.Nfa
open NfcStack.Lib

/-! ## Events -/

inductive CfgEvent where
  | setTechCfg (k : EcbIx) (m : Masks)
  | setProtoCfg (k : EcbIx) (m : Masks)
  | clearTechCfg (k : EcbIx) (m : Masks)
  | clearProtoCfg (k : EcbIx) (m : Masks)
  | addAid (k : EcbIx) (aid : Bytes) (haid : aid.length ≤ nfaMaxAidLen) (powerState aidInfo : UInt8)
  | removeAid (aid : Bytes)
  | addSysCode (k : EcbIx) (nfceeId : UInt8) (code : Bytes) (hcode : code.length = 2)
      (powerState : UInt8)
  | removeSysCode (code : Bytes)
  | clearRoutingTable (clearProto clearTech clearSc : Bool)
  | modeSetRsp (nfceeId : UInt8) (ok activate : Bool)

def cfgApply (env : EeEnv) (s : Ee) : CfgEvent → Ee
  | .setTechCfg k m => apiSetTechCfg env s k m
  | .setProtoCfg k m => apiSetProtoCfg env s k m
  | .clearTechCfg k m => apiClearTechCfg env s k m
  | .clearProtoCfg k m => apiClearProtoCfg env s k m
  | .addAid k aid _ powerState aidInfo => apiAddAid env s k aid powerState aidInfo
  | .removeAid aid => apiRemoveAid s aid
  | .addSysCode k nfceeId code _ powerState => apiAddSysCode env s k nfceeId code powerState
  | .removeSysCode code => apiRemoveSysCode s code
  | .clearRoutingTable clearProto clearTech clearSc =>
    apiClearRoutingTable s clearProto clearTech clearSc
  | .modeSetRsp nfceeId ok activate => nciModeSetRsp s nfceeId ok activate

def cfgStep (env : EeEnv) (s : Ee) (e : CfgEvent) : Option Ee := some (cfgApply env s e)

/-- The size that `nfa_ee_api_lmrt_size` reports, in 16 bits. -/
def apiLmrtSize (env : EeEnv) (s : Ee) : Nat := (env.lmrtSize.toNat + 2 ^ 16 - totalLmrtSize s) % 2 ^ 16

/-- The entries of the system codes, as for an NFCEE that is active. -/
def allSysCodeTlvs (env : EeEnv) (cb : Ecb) : List Bytes :=
  (cb.sysCodes.filter fun e => e.vsInfo &&& nfaEeAeRoute != 0).map (sysCodeTlv env)

/-- The sizes are the bytes of the entries, the total fits in the table, and what remains is
reported. -/
structure Accounted (env : EeEnv) (s : Ee) : Prop where
  tech : ∀ k, (s.ecb k).sizeMaskTech = (techTlvs env (s.ecb k)).flatten.length
  proto : ∀ k, (s.ecb k).sizeMaskProto = (protoTlvs env (s.ecb k)).flatten.length
  aid : ∀ k, (s.ecb k).sizeAid =
    (aidTlvs env (s.ecb k) false).flatten.length + (aidTlvs env (s.ecb k) true).flatten.length
  sysCode : ∀ k, (s.ecb k).sizeSysCode = (allSysCodeTlvs env (s.ecb k)).flatten.length
  total : totalLmrtSize s ≤ env.lmrtSize.toNat
  remaining : apiLmrtSize env s + totalLmrtSize s = env.lmrtSize.toNat

/-- No NFCEE with a technology, a protocol or an AID is deactivated, and the routes of one
that is activated fit in the table. -/
def SizeOk (env : EeEnv) (s : Ee) : CfgEvent → Prop
  | .modeSetRsp nfceeId true true =>
    ∀ k, findEcb s nfceeId = some k → k.val < s.curEe → (s.ecb k).isActive = false →
      totalLmrtSize s + (s.ecb k).size ≤ env.lmrtSize.toNat
  | .modeSetRsp nfceeId true false =>
    ∀ k, findEcb s nfceeId = some k →
      (s.ecb k).sizeMaskTech = 0 ∧ (s.ecb k).sizeMaskProto = 0 ∧ (s.ecb k).sizeAid = 0
  | _ => True

/-! ## The bytes of the entries -/

section Bytes
variable {env : EeEnv}

/-- Whether a bit is routed does not depend on the states of the screen. -/
theorem powerCfg_zero_iff {nci2 screens : Bool} {m : Masks} {bit : UInt8} :
    powerCfg nci2 screens m bit = 0 ↔
      m.switchOn &&& bit = 0 ∧ m.switchOff &&& bit = 0 ∧ m.batteryOff &&& bit = 0 := by
  have hbit : ∀ x f : UInt8, f ≠ 0 → (bitIf x bit f = 0 ↔ x &&& bit = 0) := by
    intro x f hf
    unfold bitIf
    by_cases hx : x &&& bit = 0
    · simp [hx]
    · simp [hx, hf]
  have hbase : (bitIf m.switchOn bit pwrStateOn ||| bitIf m.switchOff bit pwrStateSwitchOff |||
      bitIf m.batteryOff bit pwrStateBattOff) = 0 ↔
      m.switchOn &&& bit = 0 ∧ m.switchOff &&& bit = 0 ∧ m.batteryOff &&& bit = 0 := by
    rw [UInt8.or_eq_zero_iff, UInt8.or_eq_zero_iff, hbit _ _ (by decide), hbit _ _ (by decide),
      hbit _ _ (by decide), and_assoc]
  rw [← hbase]
  unfold powerCfg
  dsimp only
  generalize (bitIf m.switchOn bit pwrStateOn ||| bitIf m.switchOff bit pwrStateSwitchOff |||
    bitIf m.batteryOff bit pwrStateBattOff) = p
  split
  case isTrue h =>
    rw [UInt8.or_eq_zero_iff, UInt8.or_eq_zero_iff, UInt8.or_eq_zero_iff]
    refine ⟨fun h => h.1.1.1, ?_⟩
    rintro rfl
    exact absurd h.1 (by decide)
  case isFalse => exact Iff.rfl

/-- Entries of one length. -/
theorem flatten_length_filterMap {α : Type} {l : List α} {f : α → Option Bytes} {p : α → Bool} {n : Nat}
    (hlen : ∀ x e, f x = some e → e.length = n) (hp : ∀ x, p x = (f x).isSome) :
    (l.filterMap f).flatten.length = n * l.countP p := by
  induction l with
  | nil => simp
  | cons x l ih =>
    rw [List.countP_cons, hp]
    cases hf : f x with
    | none =>
      rw [List.filterMap_cons_none hf, ih]
      simp
    | some e =>
      rw [List.filterMap_cons_some hf, List.flatten_cons, List.length_append, hlen x e hf, ih]
      simp
      ring

theorem techTlv_length (nfceeId power bit tech : UInt8) :
    (techTlv env nfceeId power bit tech).length = 5 := by
  unfold techTlv
  split
  · rfl
  · split <;> rfl

theorem techTlvs_length (cb : Ecb) : (techTlvs env cb).flatten.length = techSize env cb.tech := by
  apply flatten_length_filterMap
  · intro x e he
    dsimp only at he
    split at he
    · cases he
    · rw [← Option.some.inj he]
      exact techTlv_length _ _ _ _
  · intro x
    dsimp only
    split
    case isTrue h => simp [h]
    case isFalse h => simp [h]

theorem protoTlvs_length (cb : Ecb) : (protoTlvs env cb).flatten.length = protoSize env cb.proto := by
  apply flatten_length_filterMap
  · intro x e he
    dsimp only at he
    split at he
    · cases he
    · rw [← Option.some.inj he]
      rfl
  · intro x
    dsimp only
    split
    case isTrue h =>
      rw [powerCfg_zero_iff.mpr (powerCfg_zero_iff.mp h)]
      rfl
    case isFalse h =>
      have hne : powerCfg env.nci2 true cb.proto x.1 ≠ 0 := fun hz =>
        h (powerCfg_zero_iff.mpr (powerCfg_zero_iff.mp hz))
      simp [hne]

theorem aidTlvsFrom_length (cb : Ecb) (l : List AidEntry) : ∀ xx,
    (aidTlvsFrom env cb false xx l).flatten.length + (aidTlvsFrom env cb true xx l).flatten.length =
      (l.map aidSize).sum := by
  induction l with
  | nil => exact fun _ => rfl
  | cons e l ih =>
    intro xx
    have hlen : ∀ info, (aidTlv env cb.nfceeId info e).length = 4 + e.aid.length := by
      intro info
      unfold aidTlv
      simp
      omega
    have hrest := ih (xx + 1)
    rw [List.map_cons, List.sum_cons, aidTlvsFrom, aidTlvsFrom, aidSize]
    -- an entry is empty or not, and in one of the two lists if it is routed
    by_cases hempty : e.aidLen = 2
    · by_cases hroute : e.rtInfo &&& nfaEeAeRoute ≠ 0
      · simp only [hempty, hroute, decide_true, Bool.true_eq_false, false_and, if_false, true_and,
          not_false_eq_true, if_true, ne_eq, List.flatten_cons, List.length_append, hlen]
        omega
      · simp only [hroute, and_false, if_false]
        omega
    · by_cases hroute : e.rtInfo &&& nfaEeAeRoute ≠ 0
      · simp only [hempty, hroute, decide_false, Bool.false_eq_true, false_and, if_false, true_and,
          not_false_eq_true, if_true, ne_eq, List.flatten_cons, List.length_append, hlen]
        omega
      · simp only [hroute, and_false, if_false]
        omega

theorem aidTlvs_length (cb : Ecb) :
    (aidTlvs env cb false).flatten.length + (aidTlvs env cb true).flatten.length =
      (cb.aids.map aidSize).sum := aidTlvsFrom_length cb cb.aids 0

theorem allSysCodeTlvs_length {cb : Ecb} (h : ∀ e ∈ cb.sysCodes, e.code.length = 2) :
    (allSysCodeTlvs env cb).flatten.length = (cb.sysCodes.map sysCodeSize).sum := by
  unfold allSysCodeTlvs
  generalize cb.sysCodes = l at h
  induction l with
  | nil => rfl
  | cons e l ih =>
    have hcode := h e (by simp)
    have hrest := ih fun x hx => h x (by simp [hx])
    have hlen : (sysCodeTlv env e).length = 6 := by
      simp [sysCodeTlv, hcode]
    rw [List.map_cons, List.sum_cons, sysCodeSize, List.filter_cons]
    by_cases hroute : e.vsInfo &&& nfaEeAeRoute = 0
    · simpa [hroute] using hrest
    · simp only [hroute, bne_iff_ne, ne_eq, not_false_eq_true, if_true, List.map_cons,
        List.flatten_cons, List.length_append, hlen, hrest]

/-- Masks with fewer bits take no more. -/
theorem powerCfg_without {nci2 : Bool} {m b : Masks} {bit : UInt8}
    (h : powerCfg nci2 true (m.without b) bit ≠ 0) : powerCfg nci2 true m bit ≠ 0 := by
  intro hz
  apply h
  have hclear : ∀ x y : UInt8, x &&& bit = 0 → (x &&& ~~~y) &&& bit = 0 := by
    intro x y hx
    rw [UInt8.and_assoc, UInt8.and_comm (~~~y), ← UInt8.and_assoc, hx, UInt8.zero_and]
  obtain ⟨hon, hoff, hbatt⟩ := powerCfg_zero_iff.mp hz
  exact powerCfg_zero_iff.mpr ⟨hclear _ _ hon, hclear _ _ hoff, hclear _ _ hbatt⟩

theorem techSize_without (m b : Masks) : techSize env (m.without b) ≤ techSize env m := by
  apply Nat.mul_le_mul_left
  apply List.countP_mono_left
  intro x _ hx
  simpa using powerCfg_without (by simpa using hx)

theorem protoSize_without (m b : Masks) : protoSize env (m.without b) ≤ protoSize env m := by
  apply Nat.mul_le_mul_left
  apply List.countP_mono_left
  intro x _ hx
  simpa using powerCfg_without (by simpa using hx)

end Bytes

/-! ## The total -/

/-- The sizes of a block are the bytes of its entries, all of which are routed. -/
structure Counted (env : EeEnv) (cb : Ecb) : Prop where
  tech : cb.sizeMaskTech = techSize env cb.tech
  proto : cb.sizeMaskProto = protoSize env cb.proto
  aid : cb.sizeAid = (cb.aids.map aidSize).sum
  aidLen : ∀ e ∈ cb.aids, e.aid.length ≤ 16
  aidCount : cb.aids.length ≤ 255
  aidRoute : ∀ e ∈ cb.aids, e.rtInfo &&& nfaEeAeRoute ≠ 0
  sysCode : cb.sizeSysCode = (cb.sysCodes.map sysCodeSize).sum
  codeLen : ∀ e ∈ cb.sysCodes, e.code.length = 2
  sysCount : cb.sysCodes.length ≤ 10
  sysRoute : ∀ e ∈ cb.sysCodes, e.vsInfo &&& nfaEeAeRoute ≠ 0

section Total
variable {env : EeEnv} {s t : Ee} {k : EcbIx} {cb : Ecb}

theorem Counted.sized (h : Counted env cb) : Sized env cb :=
  ⟨h.tech.ge, h.tech ▸ techSize_le _, h.proto.ge, h.proto ▸ protoSize_le _, h.aid.ge,
    h.aid ▸ aidSum_le h.aidLen h.aidCount, h.aidLen, h.aidCount, h.sysCode.ge,
    h.sysCode ▸ sysCodeSum_le h.sysCount, h.codeLen, h.sysCount⟩

theorem Sized.size_le (h : Sized env cb) : cb.size ≤ 5200 := by
  have := h.techLe
  have := h.protoLe
  have := h.aidLe
  have := h.sysCodeLe
  unfold Ecb.size
  omega

def Ee.share (s : Ee) (k : EcbIx) : Nat :=
  if k = cb4Dh ∨ (k.val < s.curEe ∧ (s.ecb k).isActive = true) then (s.ecb k).size else 0

theorem share_le (s : Ee) (k : EcbIx) : s.share k ≤ (s.ecb k).size := by
  unfold Ee.share
  split
  · exact le_rfl
  · exact Nat.zero_le _

theorem sum_map_filter {α : Type} (l : List α) (p : α → Bool) (f : α → Nat) :
    ((l.filter p).map f).sum = (l.map fun x => if p x = true then f x else 0).sum := by
  induction l with
  | nil => rfl
  | cons x l ih =>
    rw [List.filter_cons, List.map_cons, List.sum_cons]
    split
    · rw [List.map_cons, List.sum_cons, ih]
    · rw [ih, Nat.zero_add]

theorem total_eq (hcur : s.curEe ≤ nfaEeMaxEeSupported) (h : SizedAll env s) :
    totalLmrtSize s = ∑ k, s.share k := by
  have hblocks : s.sizedBlocks = s.found := if_pos (hcur.trans (by decide))
  have hsplit : ∀ k, s.share k = (if k = cb4Dh then (s.ecb k).size else 0) +
      (if k.val < s.curEe ∧ (s.ecb k).isActive = true then (s.ecb k).size else 0) := by
    intro k
    unfold Ee.share
    by_cases hk : k = cb4Dh
    · have hout : ¬ (k.val < s.curEe ∧ (s.ecb k).isActive = true) := by
        rw [hk]
        exact fun h => absurd h.1 (not_lt.mpr hcur)
      rw [if_pos (Or.inl hk), if_pos hk, if_neg hout, Nat.add_zero]
    · rw [if_neg hk, Nat.zero_add]
      simp only [hk, false_or]
  have hle : ∑ k, s.share k ≤ 41600 := by
    have hcard := Finset.sum_le_card_nsmul Finset.univ s.share 5200
      (fun k _ => (share_le s k).trans (h k).size_le)
    rw [Finset.card_univ, Fintype.card_fin] at hcard
    exact hcard
  have hsum : ∑ k, s.share k = (s.ecb cb4Dh).size +
      ((s.found.filter fun k => (s.ecb k).isActive).map fun k => (s.ecb k).size).sum := by
    rw [Finset.sum_congr rfl fun k _ => hsplit k, Finset.sum_add_distrib, Finset.sum_ite_eq',
      if_pos (Finset.mem_univ _), Fin.sum_univ_def]
    congr 1
    unfold Ee.found
    rw [List.filter_filter, sum_map_filter]
    congr 1
    apply List.map_congr_left
    intro k _
    simp only [Bool.and_eq_true, decide_eq_true_eq, and_comm]
  unfold totalLmrtSize
  rw [hblocks, ← hsum]
  exact Nat.mod_eq_of_lt (by omega)

/-- What a change of one block does to the total. -/
theorem total_change (hcur : s.curEe ≤ nfaEeMaxEeSupported) (hs : SizedAll env s) (ht : SizedAll env t)
    (hcur' : t.curEe = s.curEe) (hother : ∀ j, j ≠ k → t.ecb j = s.ecb j) :
    totalLmrtSize t + s.share k = totalLmrtSize s + t.share k := by
  have hrest : ∑ j ∈ Finset.univ.erase k, t.share j = ∑ j ∈ Finset.univ.erase k, s.share j := by
    apply Finset.sum_congr rfl
    intro j hj
    unfold Ee.share
    rw [hcur', hother j (Finset.ne_of_mem_erase hj)]
  rw [total_eq hcur hs, total_eq (hcur' ▸ hcur) ht, ← Finset.add_sum_erase _ t.share (Finset.mem_univ k),
    ← Finset.add_sum_erase _ s.share (Finset.mem_univ k), hrest]
  omega

/-- The total does not grow when no share does. -/
theorem total_le (hcur : s.curEe ≤ nfaEeMaxEeSupported) (hs : SizedAll env s) (ht : SizedAll env t)
    (hcur' : t.curEe = s.curEe) (hshare : ∀ k, t.share k ≤ s.share k) :
    totalLmrtSize t ≤ totalLmrtSize s := by
  rw [total_eq hcur hs, total_eq (hcur' ▸ hcur) ht]
  exact Finset.sum_le_sum fun k _ => hshare k

structure Account (env : EeEnv) (s : Ee) : Prop where
  counted : ∀ k, Counted env (s.ecb k)
  cur : s.curEe ≤ nfaEeMaxEeSupported
  total : totalLmrtSize s ≤ env.lmrtSize.toNat

theorem Account.sizedAll (h : Account env s) : SizedAll env s := fun k => (h.counted k).sized

/-- A handler changes one block, in its entries or its status. -/
structure Changes (s t : Ee) (k : EcbIx) (cb : Ecb) : Prop where
  ecb : t.ecb = Function.update s.ecb k cb
  cur : t.curEe = s.curEe

theorem changes_setEcb (s : Ee) (k : EcbIx) (cb : Ecb) : Changes s (s.setEcb k cb) k cb := ⟨rfl, rfl⟩

theorem Changes.self (hc : Changes s t k cb) : t.ecb k = cb := by
  rw [hc.ecb, Function.update_self]

theorem Changes.other (hc : Changes s t k cb) : ∀ j, j ≠ k → t.ecb j = s.ecb j := by
  intro j hj
  rw [hc.ecb, Function.update_of_ne hj]

theorem Changes.counted (hc : Changes s t k cb) (h : Account env s) (hcb : Counted env cb) :
    ∀ j, Counted env (t.ecb j) := by
  intro j
  by_cases hj : j = k
  · rw [hj, hc.self]
    exact hcb
  · rw [hc.other j hj]
    exact h.counted j

theorem Changes.total (hc : Changes s t k cb) (h : Account env s) (hcb : Counted env cb) :
    totalLmrtSize t + s.share k = totalLmrtSize s + t.share k :=
  total_change h.cur h.sizedAll (fun j => (hc.counted h hcb j).sized) hc.cur hc.other

theorem account_change (h : Account env s) (hc : Changes s t k cb) (hcb : Counted env cb)
    (hactive : cb.isActive = true → (s.ecb k).isActive = true)
    (hfits : totalLmrtSize s + cb.size ≤ env.lmrtSize.toNat + (s.ecb k).size) : Account env t := by
  refine ⟨hc.counted h hcb, hc.cur ▸ h.cur, ?_⟩
  have htotal := hc.total h hcb
  have hbefore := h.total
  have hshare : t.share k = if k = cb4Dh ∨ (k.val < s.curEe ∧ cb.isActive = true) then cb.size else 0 := by
    unfold Ee.share
    rw [hc.self, hc.cur]
  by_cases hcounts : k = cb4Dh ∨ (k.val < s.curEe ∧ cb.isActive = true)
  · have hcounts' : k = cb4Dh ∨ (k.val < s.curEe ∧ (s.ecb k).isActive = true) :=
      hcounts.imp id fun hk => ⟨hk.1, hactive hk.2⟩
    have hold : s.share k = (s.ecb k).size := if_pos hcounts'
    rw [if_pos hcounts] at hshare
    omega
  · rw [if_neg hcounts] at hshare
    omega

/-- A change that was looked at before it was made. -/
theorem account_checked (h : Account env s) (hc : Changes s t k cb) (hcb : Counted env cb)
    (htotal : totalLmrtSize t ≤ env.lmrtSize.toNat) : Account env t :=
  ⟨hc.counted h hcb, hc.cur ▸ h.cur, htotal⟩

theorem Account.total_le_max (h : Account env s) : totalLmrtSize s ≤ 41600 := by
  rw [total_eq h.cur h.sizedAll]
  have hcard := Finset.sum_le_card_nsmul Finset.univ s.share 5200
    (fun k _ => (share_le s k).trans (h.sizedAll k).size_le)
  rw [Finset.card_univ, Fintype.card_fin] at hcard
  exact hcard

end Total

/-! ## The handlers -/

section Handlers
variable {env : EeEnv} {s t : Ee} {k : EcbIx} {cb : Ecb}

theorem counted_updateRouteSize (h : Counted env cb) (tech proto : Masks) :
    Counted env (updateRouteSize env { cb with tech := tech, proto := proto }) :=
  ⟨rfl, rfl, h.aid, h.aidLen, h.aidCount, h.aidRoute, h.sysCode, h.codeLen, h.sysCount, h.sysRoute⟩

theorem account_setCfg (h : Account env s) (kind : MaskKind) (k : EcbIx) (m : Masks) :
    Account env (apiSetCfg env kind s k m) := by
  have hk := h.counted k
  unfold apiSetCfg
  dsimp only
  by_cases hsame : (s.ecb k).masks kind = m
  · rw [if_pos hsame]
    exact h
  rw [if_neg hsame]
  generalize ((s.ecb k).masks kind).or m = new
  have hnew : Counted env (updateRouteSize env ((s.ecb k).setMasks kind new)) := by
    cases kind with
    | tech => exact counted_updateRouteSize hk new (s.ecb k).proto
    | proto => exact counted_updateRouteSize hk (s.ecb k).tech new
  by_cases hfull : totalLmrtSize (s.setEcb k (updateRouteSize env ((s.ecb k).setMasks kind new))) >
      env.lmrtSize.toNat
  · rw [if_pos hfull]
    -- the masks and the size of the kind are the old ones, the other size is counted again
    cases kind with
    | tech =>
      refine account_change h ⟨rfl, rfl⟩ ⟨hk.tech, rfl, hk.aid, hk.aidLen, hk.aidCount, hk.aidRoute,
        hk.sysCode, hk.codeLen, hk.sysCount, hk.sysRoute⟩ id ?_
      have hsize : protoSize env (s.ecb k).proto = (s.ecb k).sizeMaskProto := hk.proto.symm
      have htotal := h.total
      show totalLmrtSize s + (protoSize env (s.ecb k).proto + (s.ecb k).sizeMaskTech +
        (s.ecb k).sizeAid + (s.ecb k).sizeSysCode) ≤ _
      rw [hsize]
      unfold Ecb.size
      omega
    | proto =>
      refine account_change h ⟨rfl, rfl⟩ ⟨rfl, hk.proto, hk.aid, hk.aidLen, hk.aidCount, hk.aidRoute,
        hk.sysCode, hk.codeLen, hk.sysCount, hk.sysRoute⟩ id ?_
      have hsize : techSize env (s.ecb k).tech = (s.ecb k).sizeMaskTech := hk.tech.symm
      have htotal := h.total
      show totalLmrtSize s + ((s.ecb k).sizeMaskProto + techSize env (s.ecb k).tech +
        (s.ecb k).sizeAid + (s.ecb k).sizeSysCode) ≤ _
      rw [hsize]
      unfold Ecb.size
      omega
  · rw [if_neg hfull]
    split
    · exact account_checked h ⟨rfl, rfl⟩ hnew (not_lt.mp hfull)
    · exact account_checked h ⟨rfl, rfl⟩ hnew (not_lt.mp hfull)

/-- A change that takes no more than before. -/
theorem account_smaller (h : Account env s) (hc : Changes s t k cb) (hcb : Counted env cb)
    (hactive : cb.isActive = true → (s.ecb k).isActive = true) (hsize : cb.size ≤ (s.ecb k).size) :
    Account env t := by
  have htotal := h.total
  exact account_change h hc hcb hactive (by omega)

theorem account_clearCfg (h : Account env s) (kind : MaskKind) (k : EcbIx) (m : Masks) :
    Account env (apiClearCfg env kind s k m) := by
  have hk := h.counted k
  unfold apiClearCfg
  dsimp only
  split
  · exact h
  · cases kind with
    | tech =>
      refine account_smaller h ⟨rfl, rfl⟩ (counted_updateRouteSize hk _ (s.ecb k).proto) id ?_
      have hless := @techSize_without env (s.ecb k).tech m
      show protoSize env (s.ecb k).proto + techSize env ((s.ecb k).tech.without m) +
        (s.ecb k).sizeAid + (s.ecb k).sizeSysCode ≤ _
      rw [← hk.proto]
      rw [← hk.tech] at hless
      unfold Ecb.size
      omega
    | proto =>
      refine account_smaller h ⟨rfl, rfl⟩ (counted_updateRouteSize hk (s.ecb k).tech _) id ?_
      have hless := @protoSize_without env (s.ecb k).proto m
      show protoSize env ((s.ecb k).proto.without m) + techSize env (s.ecb k).tech +
        (s.ecb k).sizeAid + (s.ecb k).sizeSysCode ≤ _
      rw [← hk.tech]
      rw [← hk.proto] at hless
      unfold Ecb.size
      omega

theorem counted_updateRouteAidSize (h : Counted env cb) {aids : List AidEntry} (info : Nat → UInt8)
    (hlen : ∀ e ∈ aids, e.aid.length ≤ 16) (hcount : aids.length ≤ 255)
    (hroute : ∀ e ∈ aids, e.rtInfo &&& nfaEeAeRoute ≠ 0) :
    Counted env (updateRouteAidSize { cb with aids := aids, aidInfo := info }) ∧
      (updateRouteAidSize { cb with aids := aids, aidInfo := info }).size + (cb.aids.map aidSize).sum =
        cb.size + (aids.map aidSize).sum := by
  have hsum := aidSum_le hlen hcount
  have heq : (aids.map aidSize).sum % 2 ^ 16 = (aids.map aidSize).sum := Nat.mod_eq_of_lt (by omega)
  refine ⟨⟨h.tech, h.proto, heq, hlen, hcount, hroute, h.sysCode, h.codeLen, h.sysCount,
    h.sysRoute⟩, ?_⟩
  have hold := h.aid
  show cb.sizeMaskProto + cb.sizeMaskTech + (aids.map aidSize).sum % 2 ^ 16 + cb.sizeSysCode + _ = _
  unfold Ecb.size
  omega

theorem changes_aidAdded (s : Ee) (k : EcbIx) (cb : Ecb) :
    Changes s (aidAdded (s.setEcb k cb) k) k (updateRouteAidSize cb) := by
  refine ⟨?_, aidAdded_curEe _ _⟩
  rw [aidAdded_ecb, setEcb_ecb]
  unfold Ee.setEcb
  rw [Function.update_idem]

theorem account_addAid (h : Account env s) (k : EcbIx) {aid : Bytes} (haid : aid.length ≤ 16)
    (powerState aidInfo : UInt8) : Account env (apiAddAid env s k aid powerState aidInfo) := by
  have hk := h.counted k
  unfold apiAddAid
  dsimp only
  cases findAidOffset s aid with
  | some r =>
    obtain ⟨chk, entry⟩ := r
    dsimp only
    split
    · rw [totalLmrtSize_setEcb, if_neg (not_lt.mpr h.total), List.modify_modify_eq]
      · -- the entry was routed before, so that the sizes do not change
        have hsum : ((s.ecb k).aids.modify entry ((fun e : AidEntry => { e with pwrCfg := powerState }) ∘
            fun e => { e with rtInfo := e.rtInfo ||| nfaEeAeRoute })).map aidSize =
            (s.ecb k).aids.map aidSize := by
          apply map_modify_eq
          intro e he
          have hroute : (e.rtInfo ||| nfaEeAeRoute) &&& nfaEeAeRoute ≠ 0 := by
            rw [or_self_and_mask]
            decide
          unfold aidSize
          rw [if_pos (hk.aidRoute e he)]
          exact if_pos hroute
        have hlen : ∀ e ∈ (s.ecb k).aids.modify entry
            ((fun e : AidEntry => { e with pwrCfg := powerState }) ∘
              fun e => { e with rtInfo := e.rtInfo ||| nfaEeAeRoute }), e.aid.length ≤ 16 := by
          apply forall_modify (P := fun e : AidEntry => e.aid.length ≤ 16)
          · exact fun _ he => he
          · exact hk.aidLen
        have hroute : ∀ e ∈ (s.ecb k).aids.modify entry
            ((fun e : AidEntry => { e with pwrCfg := powerState }) ∘
              fun e => { e with rtInfo := e.rtInfo ||| nfaEeAeRoute }),
            e.rtInfo &&& nfaEeAeRoute ≠ 0 := by
          apply forall_modify (P := fun e : AidEntry => e.rtInfo &&& nfaEeAeRoute ≠ 0)
          · intro e _
            show (e.rtInfo ||| nfaEeAeRoute) &&& nfaEeAeRoute ≠ 0
            rw [or_self_and_mask]
            decide
          · exact hk.aidRoute
        obtain ⟨hcounted, hsize⟩ := counted_updateRouteAidSize hk
          (Function.update (s.ecb k).aidInfo entry aidInfo) hlen
          (by rw [List.length_modify]; exact hk.aidCount) hroute
        rw [hsum] at hsize
        exact account_smaller h (changes_aidAdded s k _) hcounted id (Nat.add_right_cancel hsize).le
      · rfl
      · rfl
    · exact h
  | none =>
    dsimp only
    split
    · exact h
    split
    · split
      · exact h
      case isFalse hfits =>
        have hmax := h.total_le_max
        rw [Nat.mod_eq_of_lt (by omega)] at hfits
        have hsub := List.take_sublist (((s.ecb k).aids.length + 1) % 2 ^ 8)
          ((s.ecb k).aids ++ [(⟨aid, powerState, nfaEeAeRoute⟩ : AidEntry)])
        have hlt : ((s.ecb k).aids.length + 1) % 2 ^ 8 < 2 ^ 8 := Nat.mod_lt _ (by decide)
        obtain ⟨hcounted, hsize⟩ := counted_updateRouteAidSize hk
          (Function.update (s.ecb k).aidInfo (s.ecb k).aids.length aidInfo)
          (fun e he => by
            rcases List.mem_append.mp (hsub.subset he) with he | he
            · exact hk.aidLen e he
            · rw [List.mem_singleton.mp he]
              exact haid)
          (by rw [List.length_take]; omega)
          (fun e he => by
            rcases List.mem_append.mp (hsub.subset he) with he | he
            · exact hk.aidRoute e he
            · rw [List.mem_singleton.mp he]
              show nfaEeAeRoute &&& nfaEeAeRoute ≠ 0
              decide)
        have hsum := (hsub.map aidSize).sum_le_sum (fun _ _ => Nat.zero_le _)
        have hnew : aidSize ⟨aid, powerState, nfaEeAeRoute⟩ = 4 + aid.length :=
          if_pos (show nfaEeAeRoute &&& nfaEeAeRoute ≠ 0 by decide)
        rw [List.map_append, List.sum_append, List.map_singleton, List.sum_singleton, hnew] at hsum
        refine account_change h (changes_aidAdded s k _) hcounted id ?_
        have hbefore : totalLmrtSize s + (4 + aid.length) ≤ env.lmrtSize.toNat := by omega
        have hgrow : (updateRouteAidSize
            ((s.ecb k).pushAid ⟨aid, powerState, nfaEeAeRoute⟩ aidInfo)).size + _ = _ := hsize
        omega
    · exact h

theorem le_of_balance {a b x y : Nat} (h : a + x = b + y) (hxy : y ≤ x) : a ≤ b := by omega

/-- All blocks change, none of them to take more. -/
theorem account_all (h : Account env s) (hcur : t.curEe = s.curEe) (hcounted : ∀ k, Counted env (t.ecb k))
    (hactive : ∀ k, (t.ecb k).isActive = (s.ecb k).isActive)
    (hsize : ∀ k, (t.ecb k).size ≤ (s.ecb k).size) : Account env t := by
  refine ⟨hcounted, hcur ▸ h.cur, le_trans ?_ h.total⟩
  apply total_le h.cur h.sizedAll (fun k => (hcounted k).sized) hcur
  intro k
  unfold Ee.share
  rw [hcur, hactive k]
  split
  · exact hsize k
  · exact le_rfl

theorem counted_noAids (h : Counted env cb) : Counted env { cb with aids := [], sizeAid := 0 } :=
  ⟨h.tech, h.proto, rfl, fun _ he => absurd he List.not_mem_nil, Nat.zero_le _,
    fun _ he => absurd he List.not_mem_nil, h.sysCode, h.codeLen, h.sysCount, h.sysRoute⟩

theorem account_removeAid (h : Account env s) (aid : Bytes) : Account env (apiRemoveAid s aid) := by
  unfold apiRemoveAid
  cases findAidOffset s aid with
  | some r =>
    obtain ⟨k, entry⟩ := r
    dsimp only
    cases (s.ecb k).aids[entry]? with
    | none => exact h
    | some e =>
      have hk := h.counted k
      have hsub := List.eraseIdx_sublist (s.ecb k).aids entry
      obtain ⟨hcounted, hsize⟩ := counted_updateRouteAidSize hk (s.ecb k).aidInfo
        (fun e he => hk.aidLen e (hsub.subset he)) (hsub.length_le.trans hk.aidCount)
        (fun e he => hk.aidRoute e (hsub.subset he))
      have hsum := (hsub.map aidSize).sum_le_sum (fun _ _ => Nat.zero_le _)
      exact account_smaller h ⟨removeAidAt_ecb s k entry e, removeAidAt_curEe s k entry e⟩ hcounted id
        (le_of_balance hsize hsum)
  | none =>
    dsimp only
    split
    · refine account_all h rfl (fun k => ?_) (fun k => ?_) (fun k => ?_)
      · show Counted env (if _ then _ else _)
        split
        · exact counted_noAids (h.counted k)
        · exact h.counted k
      · show Ecb.isActive (if _ then _ else _) = _
        split <;> rfl
      · show Ecb.size (if _ then _ else _) ≤ _
        split
        · unfold Ecb.size
          dsimp only
          omega
        · exact le_rfl
    · exact h

/-- New system codes, counted. -/
theorem counted_updateRouteSysCodeSize (h : Counted env cb) (codes : List SysCode)
    (hlen : ∀ e ∈ codes, e.code.length = 2) (hcount : codes.length ≤ 10)
    (hroute : ∀ e ∈ codes, e.vsInfo &&& nfaEeAeRoute ≠ 0) :
    Counted env (updateRouteSysCodeSize { cb with sysCodes := codes }) ∧
      (updateRouteSysCodeSize { cb with sysCodes := codes }).size + (cb.sysCodes.map sysCodeSize).sum =
        cb.size + (codes.map sysCodeSize).sum := by
  have hsum := sysCodeSum_le hcount
  have heq : (codes.map sysCodeSize).sum % 2 ^ 16 = (codes.map sysCodeSize).sum :=
    Nat.mod_eq_of_lt (by omega)
  refine ⟨⟨h.tech, h.proto, h.aid, h.aidLen, h.aidCount, h.aidRoute, heq, hlen, hcount, hroute⟩, ?_⟩
  have hold := h.sysCode
  show cb.sizeMaskProto + cb.sizeMaskTech + cb.sizeAid + (codes.map sysCodeSize).sum % 2 ^ 16 + _ = _
  unfold Ecb.size
  omega

theorem changes_sysCodeAdded (s : Ee) (k : EcbIx) (cb : Ecb) :
    Changes s (sysCodeAdded (s.setEcb k cb) k) k (updateRouteSysCodeSize cb) :=
  ⟨by simp [sysCodeAdded, Ee.setEcb, Ee.addCfged, Ee.addFlags], rfl⟩

theorem account_addSysCode (h : Account env s) (k : EcbIx) (nfceeId : UInt8) {code : Bytes}
    (hcode : code.length = 2) (powerState : UInt8) :
    Account env (apiAddSysCode env s k nfceeId code powerState) := by
  have hk := h.counted k
  unfold apiAddSysCode
  dsimp only
  cases findSysCodeOffset s code with
  | some r =>
    obtain ⟨chk, entry⟩ := r
    dsimp only
    split
    · rw [totalLmrtSize_setEcb, if_neg (not_lt.mpr h.total), List.modify_modify_eq]
      · have hmark : ∀ x : UInt8, (x ||| nfaEeAeRoute) &&& nfaEeAeRoute ≠ 0 := by
          intro x
          rw [or_self_and_mask]
          decide
        have hsum : ((s.ecb k).sysCodes.modify entry
            ((fun e : SysCode => { e with pwrCfg := powerState }) ∘
              fun e => { e with vsInfo := e.vsInfo ||| nfaEeAeRoute })).map sysCodeSize =
            (s.ecb k).sysCodes.map sysCodeSize := by
          apply map_modify_eq
          intro e he
          unfold sysCodeSize
          rw [if_pos (hk.sysRoute e he)]
          exact if_pos (hmark e.vsInfo)
        have hlen : ∀ e ∈ (s.ecb k).sysCodes.modify entry
            ((fun e : SysCode => { e with pwrCfg := powerState }) ∘
              fun e => { e with vsInfo := e.vsInfo ||| nfaEeAeRoute }), e.code.length = 2 := by
          apply forall_modify (P := fun e : SysCode => e.code.length = 2)
          · exact fun _ he => he
          · exact hk.codeLen
        have hroute : ∀ e ∈ (s.ecb k).sysCodes.modify entry
            ((fun e : SysCode => { e with pwrCfg := powerState }) ∘
              fun e => { e with vsInfo := e.vsInfo ||| nfaEeAeRoute }),
            e.vsInfo &&& nfaEeAeRoute ≠ 0 := by
          apply forall_modify (P := fun e : SysCode => e.vsInfo &&& nfaEeAeRoute ≠ 0)
          · exact fun e _ => hmark e.vsInfo
          · exact hk.sysRoute
        obtain ⟨hcounted, hsize⟩ := counted_updateRouteSysCodeSize hk _ hlen
          (by rw [List.length_modify]; exact hk.sysCount) hroute
        rw [hsum] at hsize
        exact account_smaller h (changes_sysCodeAdded s k _) hcounted id (Nat.add_right_cancel hsize).le
      · rfl
      · rfl
    · exact h
  | none =>
    dsimp only
    split
    · exact h
    split
    case isFalse => exact h
    case isTrue hroom =>
      split
      · exact h
      case isFalse hfits =>
        have hmax := h.total_le_max
        rw [Nat.mod_eq_of_lt (by omega)] at hfits
        split
        · obtain ⟨hcounted, hsize⟩ := counted_updateRouteSysCodeSize hk
            ((s.ecb k).sysCodes ++ [⟨code, powerState, nfceeId, nfaEeAeRoute⟩])
            (fun e he => by
              rcases List.mem_append.mp he with he | he
              · exact hk.codeLen e he
              · rw [List.mem_singleton.mp he]
                exact hcode)
            (by rw [List.length_append, List.length_singleton]; exact hroom)
            (fun e he => by
              rcases List.mem_append.mp he with he | he
              · exact hk.sysRoute e he
              · rw [List.mem_singleton.mp he]
                show nfaEeAeRoute &&& nfaEeAeRoute ≠ 0
                decide)
          have hnew : sysCodeSize ⟨code, powerState, nfceeId, nfaEeAeRoute⟩ = 6 :=
            if_pos (show nfaEeAeRoute &&& nfaEeAeRoute ≠ 0 by decide)
          rw [List.map_append, List.sum_append, List.map_singleton, List.sum_singleton, hnew] at hsize
          exact account_change h (changes_sysCodeAdded s k _) hcounted id (by omega)
        · have hsame : s.setEcb k { s.ecb k with sysCodes := (s.ecb k).sysCodes } = s := by
            simp [Ee.setEcb]
          obtain ⟨hcounted, hsize⟩ := counted_updateRouteSysCodeSize hk _ hk.codeLen hk.sysCount
            hk.sysRoute
          rw [← hsame]
          exact account_smaller h (changes_sysCodeAdded s k _) hcounted id
            (Nat.add_right_cancel hsize).le

theorem removeSysCodeAt_ecb (s : Ee) (k : EcbIx) (entry : Nat) (e : SysCode) :
    Changes s (removeSysCodeAt s k entry e) k
      (updateRouteSysCodeSize { s.ecb k with sysCodes := (s.ecb k).sysCodes.eraseIdx entry }) := by
  unfold removeSysCodeAt
  dsimp only
  split <;> split <;> exact ⟨rfl, rfl⟩

theorem account_removeSysCode (h : Account env s) (code : Bytes) :
    Account env (apiRemoveSysCode s code) := by
  unfold apiRemoveSysCode
  cases findSysCodeOffset s code with
  | none => exact h
  | some r =>
    obtain ⟨k, entry⟩ := r
    dsimp only
    cases (s.ecb k).sysCodes[entry]? with
    | none => exact h
    | some e =>
      have hk := h.counted k
      have hsub := List.eraseIdx_sublist (s.ecb k).sysCodes entry
      obtain ⟨hcounted, hsize⟩ := counted_updateRouteSysCodeSize hk _
        (fun e he => hk.codeLen e (hsub.subset he)) (hsub.length_le.trans hk.sysCount)
        (fun e he => hk.sysRoute e (hsub.subset he))
      have hsum := (hsub.map sysCodeSize).sum_le_sum (fun _ _ => Nat.zero_le _)
      exact account_smaller h (removeSysCodeAt_ecb s k entry e) hcounted id (le_of_balance hsize hsum)

theorem account_clearRoutingTable (h : Account env s) (clearProto clearTech clearSc : Bool) :
    Account env (apiClearRoutingTable s clearProto clearTech clearSc) := by
  have htech : techSize env {} = 0 := by simp [techSize, powerCfg_off]
  have hproto : protoSize env {} = 0 := by simp [protoSize, powerCfg_off]
  refine account_all h rfl (fun k => ?_) (fun k => ?_) (fun k => ?_)
  · have hk := h.counted k
    cases clearProto <;> cases clearTech <;> cases clearSc
    all_goals
      refine ⟨?_, ?_, hk.aid, hk.aidLen, hk.aidCount, hk.aidRoute, ?_, ?_, ?_, ?_⟩
      all_goals simp [apiClearRoutingTable, htech, hproto, hk.tech, hk.proto, hk.sysCode, hk.sysCount]
      all_goals first | exact hk.codeLen | exact hk.sysRoute
  · cases clearProto <;> cases clearTech <;> cases clearSc <;> rfl
  · cases clearProto <;> cases clearTech <;> cases clearSc
    all_goals
      simp only [apiClearRoutingTable, Ecb.size, if_true, Bool.false_eq_true, if_false]
      omega

theorem Counted.named (h : Counted env cb) (eeStatus : UInt8) :
    Counted env { cb with eeStatus := eeStatus } :=
  ⟨h.tech, h.proto, h.aid, h.aidLen, h.aidCount, h.aidRoute, h.sysCode, h.codeLen, h.sysCount,
    h.sysRoute⟩

/-- The block of a deactivated NFCEE is counted only if it had no routes of these kinds. -/
theorem counted_deactivated (h : Counted env cb) : Counted env cb.deactivated ↔
    cb.sizeMaskTech = 0 ∧ cb.sizeMaskProto = 0 ∧ cb.sizeAid = 0 := by
  have htech : techSize env cb.deactivated.tech = 0 := by
    simp [techSize, Ecb.deactivated, powerCfg_off]
  have hproto : protoSize env cb.deactivated.proto = 0 := by
    simp [protoSize, Ecb.deactivated, powerCfg_off]
  constructor
  · exact fun hd => ⟨hd.tech.trans htech, hd.proto.trans hproto, hd.aid⟩
  · rintro ⟨ht, hp, ha⟩
    exact ⟨ht.trans htech.symm, hp.trans hproto.symm, ha, fun _ he => absurd he List.not_mem_nil,
      Nat.zero_le _, fun _ he => absurd he List.not_mem_nil, h.sysCode, h.codeLen, h.sysCount,
      h.sysRoute⟩

theorem isActive_active (cb : Ecb) : { cb with eeStatus := statusActive }.isActive = true := by
  show (statusActive &&& ~~~nfaEeStatusMepMask == statusActive) = true
  decide

/-- An NFCEE that is activated counts in the total. -/
theorem total_activated (h : Account env s) {k : EcbIx} (hk : k.val < s.curEe)
    (hactive : (s.ecb k).isActive = false) :
    totalLmrtSize (s.setEcb k { s.ecb k with eeStatus := statusActive }) =
      totalLmrtSize s + (s.ecb k).size := by
  have hc := changes_setEcb s k { s.ecb k with eeStatus := statusActive }
  have htotal := hc.total h ((h.counted k).named statusActive)
  have hdh : k ≠ cb4Dh := by
    rintro rfl
    exact absurd (hk.trans_le h.cur) (by decide)
  have hbefore : s.share k = 0 := by
    unfold Ee.share
    rw [if_neg]
    simp [hdh, hactive]
  have hafter : (s.setEcb k { s.ecb k with eeStatus := statusActive }).share k = (s.ecb k).size := by
    unfold Ee.share
    rw [hc.self, if_pos (Or.inr ⟨hk, isActive_active _⟩)]
    rfl
  omega

theorem account_activated (h : Account env s) {k : EcbIx}
    (hfits : k.val < s.curEe → (s.ecb k).isActive = false →
      totalLmrtSize s + (s.ecb k).size ≤ env.lmrtSize.toNat) :
    Account env (s.setEcb k { s.ecb k with eeStatus := statusActive }) := by
  have hcb := (h.counted k).named statusActive
  have hc := changes_setEcb s k { s.ecb k with eeStatus := statusActive }
  apply account_checked h hc hcb
  by_cases hnew : k.val < s.curEe ∧ (s.ecb k).isActive = false
  · rw [total_activated h hnew.1 hnew.2]
    exact hfits hnew.1 hnew.2
  · -- the block counts as it did before
    have htotal := hc.total h hcb
    have hshare : (s.setEcb k { s.ecb k with eeStatus := statusActive }).share k = s.share k := by
      unfold Ee.share
      rw [hc.self]
      by_cases hk : k.val < s.curEe
      · have hactive : (s.ecb k).isActive = true := by
          rw [← Bool.not_eq_false]
          exact fun hf => hnew ⟨hk, hf⟩
        rw [if_pos (Or.inr ⟨hk, isActive_active _⟩), if_pos (Or.inr ⟨hk, hactive⟩)]
        rfl
      · have hout : ¬ k.val < (s.setEcb k { s.ecb k with eeStatus := statusActive }).curEe := hk
        simp only [hk, hout, false_and, or_false]
        rfl
    have := h.total
    omega

theorem Account.accounted (h : Account env s) : Accounted env s := by
  have htotal := h.total
  have hlt := env.lmrtSize.toNat_lt
  refine ⟨fun k => ?_, fun k => ?_, fun k => ?_, fun k => ?_, htotal, ?_⟩
  · rw [techTlvs_length]
    exact (h.counted k).tech
  · rw [protoTlvs_length]
    exact (h.counted k).proto
  · rw [aidTlvs_length]
    exact (h.counted k).aid
  · rw [allSysCodeTlvs_length (h.counted k).codeLen]
    exact (h.counted k).sysCode
  · unfold apiLmrtSize
    omega

end Handlers

/-! ## Runs -/

section Runs
variable {env : EeEnv} {s : Ee}

/-- What holds of every state that a response leads to, and when. -/
theorem account_modeSetRsp (h : Account env s) (nfceeId : UInt8) (ok activate : Bool)
    (hok : SizeOk env s (.modeSetRsp nfceeId ok activate)) :
    Account env (nciModeSetRsp s nfceeId ok activate) := by
  unfold nciModeSetRsp
  cases hfind : findEcb s nfceeId with
  | none => exact h
  | some k =>
    dsimp only
    cases ok with
    | true =>
      cases activate with
      | true => exact account_activated h (hok k hfind)
      | false =>
        dsimp only
        have hcb := (counted_deactivated (h.counted k)).mpr (hok k hfind)
        have hset : Account env (s.setEcb k (s.ecb k).deactivated) := by
          apply account_smaller h (changes_setEcb s k _) hcb
          · intro hactive
            exact absurd hactive (by show ¬ (statusInactive &&& ~~~nfaEeStatusMepMask == statusActive) = true; decide)
          · exact le_rfl
        split
        · exact ⟨hset.counted, hset.cur, hset.total⟩
        · exact hset
    | false =>
      cases activate with
      | true =>
        apply account_smaller h (changes_setEcb s k _) ((h.counted k).named statusRemoved)
        · intro hactive
          exact absurd hactive (by show ¬ (statusRemoved &&& ~~~nfaEeStatusMepMask == statusActive) = true; decide)
        · exact le_rfl
      | false => exact h

theorem account_step (h : Account env s) {e : CfgEvent} (hok : SizeOk env s e) :
    Account env (cfgApply env s e) := by
  cases e with
  | setTechCfg k m => exact account_setCfg h .tech k m
  | setProtoCfg k m => exact account_setCfg h .proto k m
  | clearTechCfg k m => exact account_clearCfg h .tech k m
  | clearProtoCfg k m => exact account_clearCfg h .proto k m
  | addAid k aid haid powerState aidInfo => exact account_addAid h k haid powerState aidInfo
  | removeAid aid => exact account_removeAid h aid
  | addSysCode k nfceeId code hcode powerState => exact account_addSysCode h k nfceeId hcode powerState
  | removeSysCode code => exact account_removeSysCode h code
  | clearRoutingTable clearProto clearTech clearSc =>
    exact account_clearRoutingTable h clearProto clearTech clearSc
  | modeSetRsp nfceeId ok activate => exact account_modeSetRsp h nfceeId ok activate hok

/-- A response that leads to a state with right accounts is one of those allowed. -/
theorem sizeOk_of_accounted (h : Account env s) {e : CfgEvent}
    (ht : Accounted env (cfgApply env s e)) : SizeOk env s e := by
  cases e with
  | modeSetRsp nfceeId ok activate =>
    cases ok with
    | false => cases activate <;> trivial
    | true =>
      cases activate with
      | true =>
        intro k hfind hk hactive
        have htotal := ht.total
        dsimp only [cfgApply] at htotal
        unfold nciModeSetRsp at htotal
        rw [hfind] at htotal
        dsimp only at htotal
        rw [total_activated h hk hactive] at htotal
        exact htotal
      | false =>
        intro k hfind
        have hecb : (nciModeSetRsp s nfceeId true false).ecb k = (s.ecb k).deactivated := by
          unfold nciModeSetRsp
          rw [hfind]
          dsimp only
          split
          · exact Function.update_self _ _ _
          · exact Function.update_self _ _ _
        have htech := ht.tech k
        have hproto := ht.proto k
        have haid := ht.aid k
        dsimp only [cfgApply] at htech hproto haid
        rw [hecb] at htech hproto haid
        rw [techTlvs_length] at htech
        rw [protoTlvs_length] at hproto
        rw [aidTlvs_length] at haid
        have hzero : techSize env (s.ecb k).deactivated.tech = 0 := by
          simp [techSize, Ecb.deactivated, powerCfg_off]
        have hzero' : protoSize env (s.ecb k).deactivated.proto = 0 := by
          simp [protoSize, Ecb.deactivated, powerCfg_off]
        exact ⟨htech.trans hzero, hproto.trans hzero', haid⟩
  | _ => trivial

structure Blank (s : Ee) : Prop where
  cur : s.curEe ≤ nfaEeMaxEeSupported
  ecb : ∀ k, ∃ nfceeId eeStatus, s.ecb k = { nfceeId := nfceeId, eeStatus := eeStatus }

theorem account_blank (h : Blank s) : Account env s := by
  have htech : techSize env {} = 0 := by simp [techSize, powerCfg_off]
  have hproto : protoSize env {} = 0 := by simp [protoSize, powerCfg_off]
  have hcounted : ∀ k, Counted env (s.ecb k) := by
    intro k
    obtain ⟨nfceeId, eeStatus, hecb⟩ := h.ecb k
    rw [hecb]
    exact ⟨htech.symm, hproto.symm, rfl, fun _ he => absurd he List.not_mem_nil, Nat.zero_le _,
      fun _ he => absurd he List.not_mem_nil, rfl, fun _ he => absurd he List.not_mem_nil,
      Nat.zero_le _, fun _ he => absurd he List.not_mem_nil⟩
  refine ⟨hcounted, h.cur, ?_⟩
  have hshare : ∀ k, s.share k = 0 := by
    intro k
    apply Nat.le_zero.mp
    apply (share_le s k).trans
    obtain ⟨nfceeId, eeStatus, hecb⟩ := h.ecb k
    rw [hecb]
    exact le_rfl
  rw [total_eq h.cur (fun k => (hcounted k).sized), Finset.sum_eq_zero fun k _ => hshare k]
  exact Nat.zero_le _

theorem sizes_accounted (env : EeEnv) (s : Ee) (hblank : Blank s) (es : List CfgEvent) :
    Accounted env s ∧
      (StepsOk (cfgStep env) (fun s e => ∀ t, cfgStep env s e = some t → Accounted env t) s es ↔
        StepsOk (cfgStep env) (SizeOk env) s es) := by
  refine ⟨(account_blank hblank).accounted, ?_⟩
  refine @stepsOk_iff _ _ (cfgStep env) _ _ (Account env) (fun u e hu => ?_) (fun u e t hu h ht => ?_)
    es s (account_blank hblank)
  · constructor
    · exact fun h => sizeOk_of_accounted hu (h _ rfl)
    · intro hok t ht
      obtain rfl := Option.some.inj ht
      exact (account_step hu hok).accounted
  · obtain rfl := Option.some.inj ht
    exact account_step hu (sizeOk_of_accounted hu (h _ rfl))

end Runs

/-- One NFCEE is known, with the given status. -/
def oneNfcee (eeStatus : UInt8) : Ee :=
  { Ee.start false with
    ecb := Function.update (Ee.start false).ecb 0 { nfceeId := 0x81, eeStatus := eeStatus }
    curEe := 1 }

theorem blank_oneNfcee (eeStatus : UInt8) : Blank (oneNfcee eeStatus) := by
  refine ⟨show 1 ≤ 7 by decide, fun k => ?_⟩
  show ∃ _ _, Function.update (Ee.start false).ecb 0 _ k = _
  by_cases hk : k = 0
  · rw [hk, Function.update_self]
    exact ⟨_, _, rfl⟩
  · rw [Function.update_of_ne hk]
    show ∃ _ _, (if k = cb4Dh then _ else _ : Ecb) = _
    split
    · exact ⟨_, _, rfl⟩
    · exact ⟨_, _, rfl⟩

def techA : Masks := { switchOn := 1 }

/-- A technology is routed to an NFCEE, and it is activated while there is room. -/
theorem sizes_accounted_activated : Accounted aidEnv (oneNfcee statusInactive) ∧
    (StepsOk (cfgStep aidEnv) (fun s e => ∀ t, cfgStep aidEnv s e = some t → Accounted aidEnv t)
        (oneNfcee statusInactive) [.setTechCfg 0 techA, .modeSetRsp 0x81 true true] ↔
      StepsOk (cfgStep aidEnv) (SizeOk aidEnv) (oneNfcee statusInactive)
        [.setTechCfg 0 techA, .modeSetRsp 0x81 true true]) :=
  sizes_accounted aidEnv (oneNfcee statusInactive) (blank_oneNfcee _) _

/-- The size of an NFCEE that was deactivated still counts its technology; and an NFCEE is
activated whose routes do not fit, so that the size reported as remaining is huge. -/
theorem sizes_stale :
    (∃ t, run (cfgStep aidEnv) (oneNfcee statusActive)
        [.setTechCfg 0 techA, .modeSetRsp 0x81 true false] = some t ∧
      (t.ecb 0).sizeMaskTech = 5 ∧ techTlvs aidEnv (t.ecb 0) = [] ∧ ¬ Accounted aidEnv t) ∧
    ∃ t, run (cfgStep { aidEnv with lmrtSize := 5 }) (oneNfcee statusInactive)
        [.setTechCfg 0 techA, .setTechCfg cb4Dh techA, .modeSetRsp 0x81 true true] = some t ∧
      totalLmrtSize t = 10 ∧ apiLmrtSize { aidEnv with lmrtSize := 5 } t = 65531 ∧
      ¬ Accounted { aidEnv with lmrtSize := 5 } t := by
  refine ⟨⟨_, rfl, by decide +kernel, by decide +kernel, fun h => ?_⟩, _, rfl, by decide +kernel,
    by decide +kernel, fun h => ?_⟩
  · exact absurd (h.tech 0) (by decide +kernel)
  · exact absurd h.total (by decide +kernel)

end NfcStack.Nfa
