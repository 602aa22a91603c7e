import NfcStack.Hci.Consistency

/- The configuration that the HCI task keeps in non-volatile memory, and the
   check it makes when it reads it back (`nfa_hci_is_valid_cfg`). The memory
   stores the block as it is, so reading back what was written gives the same
   configuration.

   What is proved:
     1. `isValidCfg_of_nvOk`: the check accepts every configuration with `NvOk`.
     2. `nv_config_accepted`: in every run whose steps all meet `nvPolicy`, the
        current configuration and the stored one are accepted.
     3. `last_slot_rejected`: a table whose last pipe block is in use is not.

   The check ends its walk over a mask with the loop counter at the number of
   pipe blocks exactly when the last bit is set, and takes that for an error. -/
namespace NfcStack.Hci
open NfcStack.Lib

/-! ## The check -/

def isGateId (gate : UInt8) : Bool :=
  !((gate != nfaHciLoopBackGate && gate != nfaHciIdentityManagementGate &&
      gate < nfaHciFirstHostSpecificGenericGate) || nfaHciLastPropGate < gate)

/-- The names: each ends in its field, and none starts with an earlier one. -/
def namesValid (c : HciCfg) : Bool :=
  (List.finRange nfaHciMaxAppCb).all fun x =>
    (c.regAppNames x).length ≤ nfaMaxHciAppNameLen &&
      (c.regAppNames x == [] || (List.finRange nfaHciMaxAppCb).all fun y =>
        !(x < y && c.regAppNames y != [] && (c.regAppNames x).isPrefixOf (c.regAppNames y)))

def regApps (c : HciCfg) : List UInt16 :=
  ((List.finRange nfaHciMaxAppCb).filter fun x => c.regAppNames x != []).map appHandle

def gateValid (c : HciCfg) (g : GateIx) : Bool :=
  let x := c.dynGates g
  isGateId x.gateId &&
    ((List.finRange nfaHciMaxGateCb).all fun g' =>
      !(g < g' && (c.dynGates g').gateId != 0 && x.gateId == (c.dynGates g').gateId)) &&
    (x.gateOwner &&& ~~~nfaHandleGroupHci).toNat < nfaHciMaxAppCb &&
    (x.gateId == nfaHciConnectivityGate ||
      nfaHciFirstPropGate ≤ x.gateId && x.gateId ≤ nfaHciLastPropGate ||
      (regApps c).contains x.gateOwner)

/-- The loop over the gate blocks, with the gate ids and the mask collected so far. -/
def gateLoop (c : HciCfg) :
    List GateIx → List UInt8 → BitVec 32 → Option (List UInt8 × BitVec 32)
  | [], valid, mask => some (valid, mask)
  | g :: gs, valid, mask =>
    let x := c.dynGates g
    if x.gateId = 0 then gateLoop c gs valid mask
    else if gateValid c g && (mask &&& x.pipeInxMask == 0) then
      gateLoop c gs (valid ++ [x.gateId]) (mask ||| x.pipeInxMask)
    else none

/-- `for (xx = 0; (mask && (xx < NFA_HCI_MAX_PIPE_CB)); xx++, mask >>= 1)`, with
`n` blocks to go; the result is `xx` at the end. -/
def maskLoop (check : PipeIx → Bool) : Nat → BitVec 32 → Option Nat
  | 0, _ => some nfaHciMaxPipeCb
  | n + 1, mask =>
    if mask = 0 then some (nfaHciMaxPipeCb - (n + 1))
    else if mask.getLsbD 0 && !check ⟨nfaHciMaxPipeCb - (n + 1), by simp only [nfaHciMaxPipeCb]; omega⟩ then none
    else maskLoop check n (mask >>> 1)

/-- The walk over a mask: it must stop before the last block. -/
def maskValid (check : PipeIx → Bool) (mask : BitVec 32) : Bool :=
  match maskLoop check nfaHciMaxPipeCb mask with
  | none => false
  | some xx => xx != nfaHciMaxPipeCb

def pipeValid (c : HciCfg) (validGate : List UInt8) (i : PipeIx) : Bool :=
  let p := c.dynPipes i
  p.pipeId == 0 ||
    nfaHciFirstDynamicPipe ≤ p.pipeId &&
    (p.pipeState == nfaHciPipeOpened || p.pipeState == nfaHciPipeClosed) &&
    isGateId p.localGate && isGateId p.destGate &&
    ((List.finRange nfaHciMaxPipeCb).all fun j =>
      !(i < j && (c.dynPipes j).pipeId != 0 && p.pipeId == (c.dynPipes j).pipeId)) &&
    validGate.contains p.localGate

def stateValid (state : UInt8) : Bool := state == nfaHciPipeOpened || state == nfaHciPipeClosed

def nfaHciIsValidCfg (c : HciCfg) : Bool :=
  namesValid c &&
    match gateLoop c (List.finRange nfaHciMaxGateCb) [] 0 with
    | none => false
    | some (validGate, mask) =>
      maskValid (fun i => nfaHciFirstDynamicPipe ≤ (c.dynPipes i).pipeId) mask &&
        (List.finRange nfaHciMaxPipeCb).all (pipeValid c validGate) &&
        stateValid c.pipe01State && stateValid c.pipe00State &&
        maskValid (fun i => nfaHciFirstDynamicPipe ≤ (c.dynPipes i).pipeId &&
          (c.dynPipes i).localGate == nfaHciIdentityManagementGate) c.idMgmtMask

/-! ## What it accepts -/

/-- A pipe block in use that the check accepts; the last block must be free. -/
structure PipeOk (i : PipeIx) (p : DynPipe) : Prop where
  id : nfaHciFirstDynamicPipe ≤ p.pipeId
  state : stateValid p.pipeState = true
  localGate : ¬ Untabled p.localGate
  destGate : isPeerGate p.destGate
  notLast : i.val + 1 < nfaHciMaxPipeCb

structure GateOk (c : HciCfg) (x : DynGate) : Prop where
  owner : x.gateOwner = 0 ∨ ∃ a, x.gateOwner = appHandle a
  registered : x.gateId = nfaHciConnectivityGate ∨ nfaHciFirstPropGate ≤ x.gateId ∨
    ∃ a, x.gateOwner = appHandle a ∧ c.regAppNames a ≠ []

/-- What the steps keep, besides the agreement of the tables. -/
structure NvOk (t : Tab) : Prop where
  nameLen : ∀ x, (t.cfg.regAppNames x).length ≤ nfaMaxHciAppNameLen
  names : ∀ x y, x ≠ y → t.cfg.regAppNames x ≠ [] → t.cfg.regAppNames y ≠ [] →
    ¬ t.cfg.regAppNames x <+: t.cfg.regAppNames y
  cbacks : ∀ x, t.pAppCback x = true → t.cfg.regAppNames x ≠ []
  gates : ∀ g, (t.gate g).gateId ≠ 0 → GateOk t.cfg (t.gate g)
  pipes : ∀ i, (t.pipe i).pipeId ≠ 0 → PipeOk i (t.pipe i)
  admin : stateValid t.cfg.pipe01State = true
  link : stateValid t.cfg.pipe00State = true
  idMgmt : t.cfg.idMgmtMask = 0

theorem isGateId_of_le {gate : UInt8} (h : nfaHciFirstHostSpecificGenericGate ≤ gate) :
    isGateId gate = true := by
  have hle : gate ≤ nfaHciLastPropGate := by
    rw [UInt8.le_iff_toNat_le]
    have := gate.toNat_lt
    have hlast : nfaHciLastPropGate.toNat = 255 := rfl
    omega
  have h1 : ¬ gate < nfaHciFirstHostSpecificGenericGate := UInt8.not_lt.mpr h
  have h2 : ¬ nfaHciLastPropGate < gate := UInt8.not_lt.mpr hle
  simp [isGateId, h1, h2]

theorem isGateId_of_peer {gate : UInt8} (h : isPeerGate gate) : isGateId gate = true := by
  rcases h with h | rfl | rfl
  · exact isGateId_of_le h
  · decide
  · decide

theorem maskLoop_accepts {check : PipeIx → Bool} (n : Nat) :
    ∀ mask : BitVec 32, n + 1 ≤ nfaHciMaxPipeCb →
      (∀ j, mask.getLsbD j = true → ∃ h : nfaHciMaxPipeCb - (n + 1) + j < nfaHciMaxPipeCb,
        nfaHciMaxPipeCb - (n + 1) + j + 1 < nfaHciMaxPipeCb ∧ check ⟨_, h⟩ = true) →
      ∃ xx, maskLoop check (n + 1) mask = some xx ∧ xx ≠ nfaHciMaxPipeCb := by
  induction n with
  | zero =>
    intro mask _ hbits
    have hzero : mask = 0 := by
      apply BitVec.eq_of_getLsbD_eq
      intro j _
      rw [Bool.eq_iff_iff]
      constructor
      · intro hj
        obtain ⟨h, -⟩ := hbits j hj
        have hj0 : j = 0 := by simp only [nfaHciMaxPipeCb] at h; omega
        obtain ⟨-, h', -⟩ := hbits j hj
        simp only [nfaHciMaxPipeCb] at h'
        omega
      · intro hj
        simp at hj
    refine ⟨nfaHciMaxPipeCb - 1, ?_, by decide⟩
    unfold maskLoop
    rw [if_pos hzero]
  | succ n ih =>
    intro mask hn hbits
    unfold maskLoop
    split
    · exact ⟨_, rfl, by simp only [nfaHciMaxPipeCb] at hn ⊢; omega⟩
    · have hcheck : (mask.getLsbD 0 &&
          !check ⟨nfaHciMaxPipeCb - (n + 1 + 1), by simp only [nfaHciMaxPipeCb]; omega⟩) = false := by
        by_cases hb : mask.getLsbD 0 = true
        · obtain ⟨_, -, hc⟩ := hbits 0 hb
          simp only [Nat.add_zero] at hc
          simp [hc]
        · rw [Bool.not_eq_true] at hb
          rw [hb, Bool.false_and]
      rw [hcheck]
      apply ih (mask >>> 1) (by omega)
      intro j hj
      rw [BitVec.getLsbD_ushiftRight] at hj
      have hidx : nfaHciMaxPipeCb - (n + 1 + 1) + (1 + j) = nfaHciMaxPipeCb - (n + 1) + j := by
        simp only [nfaHciMaxPipeCb] at hn ⊢
        omega
      have hb := hbits (1 + j) hj
      simp only [hidx] at hb
      exact hb

theorem maskValid_of_bits {check : PipeIx → Bool} {mask : BitVec 32}
    (h : ∀ j, mask.getLsbD j = true →
      ∃ hj : j < nfaHciMaxPipeCb, j + 1 < nfaHciMaxPipeCb ∧ check ⟨j, hj⟩ = true) :
    maskValid check mask = true := by
  obtain ⟨xx, hxx, hne⟩ := @maskLoop_accepts check 9 mask (by decide) (by
    intro j hj
    obtain ⟨hlt, hlast, hc⟩ := h j hj
    have hidx : nfaHciMaxPipeCb - (9 + 1) + j = j := by simp only [nfaHciMaxPipeCb]; omega
    simp only [hidx]
    exact ⟨hlt, hlast, hc⟩)
  unfold maskValid
  rw [show maskLoop check nfaHciMaxPipeCb mask = some xx from hxx]
  simpa using hne

section Accepted
variable {t : Tab}

theorem Tab.Ok.masks_disjoint (h : t.Ok) {g g' : GateIx} (hne : g ≠ g')
    (hg : (t.gate g).gateId ≠ 0) (hg' : (t.gate g').gateId ≠ 0) {j : Nat}
    (hj : (t.gate g).pipeInxMask.getLsbD j = true) :
    (t.gate g').pipeInxMask.getLsbD j = false := by
  rw [Bool.eq_false_iff]
  intro hj'
  have hc := h.consistent
  obtain ⟨_, _, hhome⟩ := (hc.masks g hg j).mp hj
  obtain ⟨_, _, hhome'⟩ := (hc.masks g' hg' j).mp hj'
  exact hne (hc.gateIds g g' hg (hhome.symm.trans hhome'))

theorem mem_regApps {c : HciCfg} {a : AppIx} (h : c.regAppNames a ≠ []) :
    appHandle a ∈ regApps c := by
  apply List.mem_map_of_mem
  rw [List.mem_filter]
  exact ⟨List.mem_finRange a, by simpa using h⟩

theorem ownerIndex_lt {owner : UInt16} (h : owner = 0 ∨ ∃ a, owner = appHandle a) :
    (owner &&& ~~~nfaHandleGroupHci).toNat < nfaHciMaxAppCb := by
  rcases h with rfl | ⟨a, rfl⟩
  · decide
  · revert a
    decide

theorem gateValid_of_nvOk (h : t.Ok) (hn : NvOk t) {g : GateIx} (h0 : (t.gate g).gateId ≠ 0) :
    gateValid t.cfg g = true := by
  have hkey : (t.gate g).key = some (t.gate g).gateId := DynGate.key_eq_some.mpr ⟨h0, rfl⟩
  have hgate := hn.gates g h0
  have hreg : (t.gate g).gateId = nfaHciConnectivityGate ∨
      (nfaHciFirstPropGate ≤ (t.gate g).gateId ∧ (t.gate g).gateId ≤ nfaHciLastPropGate) ∨
      (t.gate g).gateOwner ∈ regApps t.cfg := by
    rcases hgate.registered with hconn | hprop | ⟨a, howner, hname⟩
    · exact .inl hconn
    · refine .inr (.inl ⟨hprop, ?_⟩)
      rw [UInt8.le_iff_toNat_le]
      exact Nat.le_of_lt_succ (t.gate g).gateId.toNat_lt
    · rw [howner]
      exact .inr (.inr (mem_regApps hname))
  have hdistinct : ∀ g', ¬ (g < g' ∧ (t.gate g').gateId ≠ 0 ∧
      (t.gate g).gateId = (t.gate g').gateId) := by
    rintro g' ⟨hlt, -, heq⟩
    exact absurd (h.consistent.gateIds g g' h0 heq) (Fin.ne_of_lt hlt)
  unfold gateValid
  simp only [Bool.and_eq_true, Bool.or_eq_true, List.all_eq_true, beq_iff_eq, decide_eq_true_eq,
    Bool.not_eq_true', List.contains_eq_mem, or_assoc]
  refine ⟨⟨⟨isGateId_of_le (h.gateLow g _ hkey), ?_⟩, ownerIndex_lt hgate.owner⟩, hreg⟩
  intro g' _
  rw [Bool.eq_false_iff]
  simpa [Tab.gate] using hdistinct g'

theorem gateLoop_accepts (h : t.Ok) (hn : NvOk t) (gs : List GateIx) :
    ∀ valid mask, gs.Nodup →
      (∀ j, mask.getLsbD j = true → ∃ g, g ∉ gs ∧ (t.gate g).gateId ≠ 0 ∧
        (t.gate g).pipeInxMask.getLsbD j = true) →
      ∃ valid' mask', gateLoop t.cfg gs valid mask = some (valid', mask') ∧
        (∀ id ∈ valid, id ∈ valid') ∧
        (∀ g ∈ gs, (t.gate g).gateId ≠ 0 → (t.gate g).gateId ∈ valid') ∧
        ∀ j, mask'.getLsbD j = true → ∃ g, (t.gate g).gateId ≠ 0 ∧
          (t.gate g).pipeInxMask.getLsbD j = true := by
  induction gs with
  | nil =>
    intro valid mask _ hmask
    refine ⟨valid, mask, rfl, fun _ h => h, by simp, ?_⟩
    intro j hj
    obtain ⟨g, -, hg⟩ := hmask j hj
    exact ⟨g, hg⟩
  | cons g gs ih =>
    intro valid mask hnodup hmask
    rw [List.nodup_cons] at hnodup
    unfold gateLoop
    dsimp only
    by_cases h0 : (t.gate g).gateId = 0
    · -- a free block is passed over
      rw [if_pos (show (t.cfg.dynGates g).gateId = 0 from h0)]
      obtain ⟨valid', mask', hloop, hvalid, hgs, hbits⟩ := ih valid mask hnodup.2 (by
        intro j hj
        obtain ⟨g', hg', hin⟩ := hmask j hj
        exact ⟨g', fun hmem => hg' (List.mem_cons_of_mem g hmem), hin⟩)
      refine ⟨valid', mask', hloop, hvalid, ?_, hbits⟩
      intro g' hg' h0'
      rcases List.mem_cons.mp hg' with rfl | hmem
      · exact absurd h0 h0'
      · exact hgs g' hmem h0'
    · have hdisjoint : mask &&& (t.gate g).pipeInxMask = 0 := by
        apply BitVec.eq_of_getLsbD_eq
        intro j _
        rw [BitVec.getLsbD_and]
        by_cases hj : mask.getLsbD j = true
        · obtain ⟨g', hg', h0', hbit⟩ := hmask j hj
          have hne : g' ≠ g := by
            rintro rfl
            exact hg' List.mem_cons_self
          rw [h.masks_disjoint hne h0' h0 hbit]
          simp
        · rw [Bool.not_eq_true] at hj
          rw [hj]
          simp
      have hpass : (gateValid t.cfg g && (mask &&& (t.cfg.dynGates g).pipeInxMask == 0)) = true := by
        rw [gateValid_of_nvOk h hn h0, Bool.true_and, beq_iff_eq]
        exact hdisjoint
      rw [if_neg (show (t.cfg.dynGates g).gateId ≠ 0 from h0), if_pos hpass]
      obtain ⟨valid', mask', hloop, hvalid, hgs, hbits⟩ :=
        ih (valid ++ [(t.gate g).gateId]) (mask ||| (t.gate g).pipeInxMask) hnodup.2 (by
          intro j hj
          rw [BitVec.getLsbD_or, Bool.or_eq_true] at hj
          rcases hj with hj | hj
          · obtain ⟨g', hg', hin⟩ := hmask j hj
            exact ⟨g', fun hmem => hg' (List.mem_cons_of_mem g hmem), hin⟩
          · exact ⟨g, hnodup.1, h0, hj⟩)
      refine ⟨valid', mask', hloop, fun id hid => hvalid id (List.mem_append_left _ hid), ?_, hbits⟩
      intro g' hg' h0'
      rcases List.mem_cons.mp hg' with rfl | hmem
      · exact hvalid _ (List.mem_append_right _ List.mem_cons_self)
      · exact hgs g' hmem h0'

theorem namesValid_of_nvOk (hn : NvOk t) : namesValid t.cfg = true := by
  unfold namesValid
  rw [List.all_eq_true]
  intro x _
  rw [Bool.and_eq_true, decide_eq_true_eq, Bool.or_eq_true, beq_iff_eq]
  refine ⟨hn.nameLen x, ?_⟩
  by_cases hx : t.cfg.regAppNames x = []
  · exact .inl hx
  · refine .inr (List.all_eq_true.mpr ?_)
    intro y _
    rw [Bool.not_eq_true', Bool.eq_false_iff]
    simp only [ne_eq, Bool.and_eq_true, decide_eq_true_eq, bne_iff_ne, List.isPrefixOf_iff_prefix]
    rintro ⟨⟨hlt, hy⟩, hpre⟩
    exact hn.names x y (Fin.ne_of_lt hlt) hx hy hpre

theorem pipeValid_of_nvOk (h : t.Ok) (hn : NvOk t) {valid : List UInt8}
    (hvalid : ∀ g, (t.gate g).gateId ≠ 0 → (t.gate g).gateId ∈ valid) (i : PipeIx) :
    pipeValid t.cfg valid i = true := by
  unfold pipeValid
  dsimp only
  by_cases h0 : (t.pipe i).pipeId = 0
  · rw [show (t.cfg.dynPipes i).pipeId = 0 from h0]
    rfl
  · have hp := hn.pipes i h0
    have hhome : (t.pipe i).home = some (t.pipe i).localGate :=
      DynPipe.home_eq_some.mpr ⟨h0, rfl⟩
    obtain ⟨g, hg⟩ := (h.homed i _ hhome).resolve_left hp.localGate
    obtain ⟨hg0, hgid⟩ := DynGate.key_eq_some.mp hg
    have hdistinct : ∀ j, ¬ (i < j ∧ (t.pipe j).pipeId ≠ 0 ∧
        (t.pipe i).pipeId = (t.pipe j).pipeId) := by
      rintro j ⟨hlt, -, heq⟩
      exact absurd (h.consistent.pipeIds i j h0 heq) (Fin.ne_of_lt hlt)
    have hstate := hp.state
    unfold stateValid at hstate
    simp only [Bool.and_eq_true, Bool.or_eq_true, List.all_eq_true, decide_eq_true_eq,
      Bool.not_eq_true', List.contains_eq_mem]
    refine .inr ⟨⟨⟨⟨⟨hp.id, by simpa [Tab.pipe] using hstate⟩, ?_⟩, isGateId_of_peer hp.destGate⟩, ?_⟩, ?_⟩
    · exact isGateId_of_le (h.gateLow g _ hg)
    · intro j _
      rw [Bool.eq_false_iff]
      simpa [Tab.pipe] using hdistinct j
    · rw [← show (t.gate g).gateId = (t.cfg.dynPipes i).localGate from hgid]
      exact hvalid g hg0

theorem isValidCfg_of_nvOk (h : t.Ok) (hn : NvOk t) : nfaHciIsValidCfg t.cfg = true := by
  obtain ⟨valid, mask, hloop, -, hvalid, hbits⟩ :=
    gateLoop_accepts h hn (List.finRange nfaHciMaxGateCb) [] 0 (List.nodup_finRange _) (by simp)
  unfold nfaHciIsValidCfg
  rw [namesValid_of_nvOk hn, hloop]
  simp only [Bool.true_and, Bool.and_eq_true, List.all_eq_true]
  refine ⟨⟨⟨⟨?_, ?_⟩, hn.admin⟩, hn.link⟩, ?_⟩
  · apply maskValid_of_bits
    intro j hj
    obtain ⟨g, h0, hbit⟩ := hbits j hj
    obtain ⟨hlt, hin, -⟩ := (h.consistent.masks g h0 j).mp hbit
    have hp := hn.pipes ⟨j, hlt⟩ hin
    exact ⟨hlt, hp.notLast, decide_eq_true hp.id⟩
  · intro i _
    exact pipeValid_of_nvOk h hn (fun g => hvalid g (List.mem_finRange g)) i
  · rw [hn.idMgmt]
    rfl

end Accepted

/-! ## Runs that stay accepted -/

/-- The new name neither starts with a registered one nor starts one. -/
def nameFits (t : Tab) (name : Bytes) : Bool :=
  (findApp t name).isSome || (List.finRange nfaHciMaxAppCb).all (t.cfg.regAppNames · != []) ||
    name != [] && (List.finRange nfaHciMaxAppCb).all fun x =>
      t.cfg.regAppNames x == [] || !(t.cfg.regAppNames x).isPrefixOf (copyName name) &&
        !(copyName name).isPrefixOf (t.cfg.regAppNames x)

def roomBeforeLast (pipes : PipeIx → DynPipe) (pipeId : UInt8) : Prop :=
  ∃ i : PipeIx, i.val + 1 < nfaHciMaxPipeCb ∧ ((pipes i).pipeId = 0 ∨ (pipes i).pipeId = pipeId)

instance (pipes : PipeIx → DynPipe) (pipeId : UInt8) : Decidable (roomBeforeLast pipes pipeId) := by
  unfold roomBeforeLast
  infer_instance

structure PipeFits (pipes : PipeIx → DynPipe) (pipeId localGate destGate : UInt8) : Prop where
  place : PlaceOk pipes pipeId localGate
  id : nfaHciFirstDynamicPipe ≤ pipeId
  localGate : ¬ Untabled localGate
  destGate : isPeerGate destGate
  room : roomBeforeLast pipes pipeId

instance (pipes : PipeIx → DynPipe) (pipeId localGate destGate : UInt8) :
    Decidable (PipeFits pipes pipeId localGate destGate) :=
  decidable_of_iff (PlaceOk pipes pipeId localGate ∧ nfaHciFirstDynamicPipe ≤ pipeId ∧
      ¬ Untabled localGate ∧ isPeerGate destGate ∧ roomBeforeLast pipes pipeId)
    ⟨fun ⟨h1, h2, h3, h4, h5⟩ => ⟨h1, h2, h3, h4, h5⟩, fun ⟨h1, h2, h3, h4, h5⟩ => ⟨h1, h2, h3, h4, h5⟩⟩

/-- Every name and every pipe fits, gates are allocated for entries of the
application table, and nothing is deregistered. -/
def nvPolicy : Policy where
  add pipes pipeId localGate destGate := decide (PipeFits pipes pipeId localGate destGate)
  alloc handle := decide ((handle &&& nfaHandleMask).toNat < nfaHciMaxAppCb)
  drop := false
  register := nameFits
  forget := false

section Kept
variable {t t' : Tab}

theorem appHandle_of_index {handle : UInt16} (hh : isHciHandle handle)
    (hlt : (handle &&& nfaHandleMask).toNat < nfaHciMaxAppCb) :
    handle = appHandle ⟨(handle &&& nfaHandleMask).toNat, hlt⟩ := by
  have hsplit : handle = (handle &&& nfaHandleMask) ||| (handle &&& nfaHandleGroupMask) := by
    unfold nfaHandleMask nfaHandleGroupMask
    apply UInt16.eq_of_toBitVec_eq
    ext i hi
    interval_cases i <;> simp
  unfold isHciHandle at hh
  unfold appHandle
  rw [UInt16.ofNat_toNat, ← hh]
  exact hsplit

theorem NvOk.fewer (h : NvOk t) (hf : Fewer t t') : NvOk t' where
  nameLen x := hf.names ▸ h.nameLen x
  names := hf.names ▸ h.names
  cbacks := by
    rw [hf.cbacks, hf.names]
    exact h.cbacks
  gates g h0 := by
    rw [hf.ids] at h0
    have hg := h.gates g h0
    exact ⟨hf.owners g ▸ hg.owner, by rw [hf.ids, hf.owners, hf.names]; exact hg.registered⟩
  pipes i h0 := by
    have heq := hf.pipes i h0
    rw [heq] at h0 ⊢
    exact h.pipes i h0
  admin := hf.admin ▸ h.admin
  link := hf.link ▸ h.link
  idMgmt := by
    apply BitVec.eq_of_getLsbD_eq
    intro j _
    have hzero : t.cfg.idMgmtMask.getLsbD j = false := by
      rw [h.idMgmt]
      simp
    have hj : t'.cfg.idMgmtMask.getLsbD j = false := by
      rw [Bool.eq_false_iff]
      intro hj
      rw [hf.idMgmt j hj] at hzero
      cases hzero
    rw [hj]
    simp

theorem NvOk.congr (h : NvOk t) (hcfg : t'.cfg = t.cfg) (hc : t'.pAppCback = t.pAppCback) :
    NvOk t' := by
  have hf : Fewer t t' := by
    constructor
    all_goals simp [Tab.pipe, Tab.gate, hcfg, hc]
  exact h.fewer hf

theorem NvOk.setGate (h : NvOk t) (g : GateIx) {x : DynGate}
    (hx : x.gateId ≠ 0 → GateOk t.cfg x) : NvOk (t.setGate g x) where
  nameLen := h.nameLen
  names := h.names
  cbacks := h.cbacks
  gates g' h0 := by
    rcases eq_or_ne g' g with rfl | hne
    · simp only [Tab.gate, Tab.setGate, Function.update_self] at h0 ⊢
      exact ⟨(hx h0).owner, (hx h0).registered⟩
    · simp only [Tab.gate, Tab.setGate, Function.update_of_ne hne] at h0 ⊢
      exact ⟨(h.gates g' h0).owner, (h.gates g' h0).registered⟩
  pipes := h.pipes
  admin := h.admin
  link := h.link
  idMgmt := h.idMgmt

theorem NvOk.setPipe (h : NvOk t) (i : PipeIx) {x : DynPipe}
    (hx : x.pipeId ≠ 0 → PipeOk i x) : NvOk (t.setPipe i x) where
  nameLen := h.nameLen
  names := h.names
  cbacks := h.cbacks
  gates g h0 := ⟨(h.gates g h0).owner, (h.gates g h0).registered⟩
  pipes j h0 := by
    rcases eq_or_ne j i with rfl | hne
    · simp only [Tab.pipe, Tab.setPipe, Function.update_self] at h0 ⊢
      exact hx h0
    · simp only [Tab.pipe, Tab.setPipe, Function.update_of_ne hne] at h0 ⊢
      exact h.pipes j h0
  admin := h.admin
  link := h.link
  idMgmt := h.idMgmt

theorem NvOk.hasCback (h : NvOk t) {appInx : UInt16} (hc : t.hasCback appInx = true) :
    ∃ hlt : appInx.toNat < nfaHciMaxAppCb, t.cfg.regAppNames ⟨appInx.toNat, hlt⟩ ≠ [] := by
  unfold Tab.hasCback at hc
  split at hc
  · rename_i hlt
    exact ⟨hlt, h.cbacks _ hc⟩
  · cases hc

theorem NvOk.owned (h : NvOk t) {handle : UInt16} {x : DynGate} (howner : x.gateOwner = handle)
    (hh : isHciHandle handle) (hlt : (handle &&& nfaHandleMask).toNat < nfaHciMaxAppCb)
    (hr : nfaHciFirstPropGate ≤ x.gateId ∨ t.hasCback (handle &&& nfaHandleMask) = true) :
    GateOk t.cfg x where
  owner := .inr ⟨_, howner.trans (appHandle_of_index hh hlt)⟩
  registered := by
    rcases hr with hprop | hc
    · exact .inr (.inl hprop)
    · obtain ⟨_, hname⟩ := h.hasCback hc
      exact .inr (.inr ⟨_, howner.trans (appHandle_of_index hh hlt), hname⟩)

theorem Alloc.notLast {t1 : Tab} (h : NvOk t) {pipeId : UInt8} {i : PipeIx}
    (ha : Alloc t t1 t' pipeId i) (h0 : pipeId ≠ 0) (hroom : roomBeforeLast t.cfg.dynPipes pipeId) :
    i.val + 1 < nfaHciMaxPipeCb := by
  rcases ha.slot with ⟨-, hfirst⟩ | ⟨-, -, hid⟩
  · obtain ⟨j, hj, hslot⟩ := hroom
    by_contra hlast
    have hji : j < i := by
      rw [Fin.lt_def]
      omega
    -- so the block `j` is in use after the release, as it was before
    have hin := hfirst j hji
    have hkept := ha.fewer.pipes j hin
    rcases hslot with hfree | hsame
    · rw [hkept] at hin
      exact hin hfree
    · apply ha.fresh h0 j (Fin.ne_of_lt hji)
      rw [hkept]
      exact hsame
  · exact (h.pipes i (hid ▸ h0)).notLast

theorem addPipeToGate_nvOk (h : NvOk t) (hok : t.Ok) {pipeId localGate destGate : UInt8}
    (hfit : PipeFits t.cfg.dynPipes pipeId localGate destGate) (destHost : UInt8) :
    NvOk (nfaHciuAddPipeToGate t pipeId localGate destHost destGate).2 := by
  have h0 : pipeId ≠ 0 := by
    rintro rfl
    exact absurd hfit.id (by decide)
  unfold nfaHciuAddPipeToGate
  split
  · exact h
  · rename_i g hg
    split
    · rename_i t' ha
      exact h.fewer (allocPipe_none hok ha).2
    · rename_i i t' ha
      obtain ⟨t1, hA⟩ := allocPipe_some hok ha
      have hpipe : PipeOk i ⟨pipeId, nfaHciPipeClosed, localGate, destHost, destGate⟩ :=
        ⟨hfit.id, rfl, hfit.localGate, hfit.destGate, hA.notLast h h0 hfit.room⟩
      have h1 : NvOk (t1.setPipe i ⟨pipeId, nfaHciPipeClosed, localGate, destHost, destGate⟩) :=
        (h.fewer hA.fewer).setPipe i fun _ => hpipe
      have h2 : NvOk (t'.setPipe i ⟨pipeId, nfaHciPipeClosed, localGate, destHost, destGate⟩) :=
        h1.congr (hA.cfg _) hA.cbacks
      exact h2.setGate g fun hid => ⟨(h2.gates g hid).owner, (h2.gates g hid).registered⟩

theorem allocGate_nvOk (h : NvOk t) {gateId : UInt8} {handle : UInt16} {g : GateIx}
    (hgate : gateId = 0 ∨ nfaHciFirstHostSpecificGenericGate ≤ gateId)
    (hby : allocBy nvPolicy gateId handle)
    (ha : nfaHciuAllocGate t gateId handle = some (g, t')) : NvOk t' := by
  rcases allocGate_cases hgate ha with ⟨rfl, -, -⟩ | ⟨id, -, -, heq, htake⟩
  · exact h
  · unfold takeGate at htake
    rw [Option.map_eq_some_iff] at htake
    obtain ⟨g0, -, hpair⟩ := htake
    obtain ⟨rfl, rfl⟩ := Prod.mk.inj hpair
    refine NvOk.congr (h.setGate g0 fun _ => ?_) rfl rfl
    rcases hby with ⟨rfl, hwho⟩ | ⟨hh, hP, hconn⟩
    · -- a gate of the stack itself
      have hne : gateId ≠ 0 := by
        rcases hwho with rfl | hprop
        · decide
        · rintro rfl
          exact absurd hprop (by decide)
      rw [heq hne]
      exact ⟨.inl rfl, hwho.imp_right .inl⟩
    · have hown := (allocGate_owner (hgate.imp_right fun hle => ⟨hle, hconn⟩) ha).2.2
      have hself : (((t.setGate g0 ⟨id, handle, 0⟩).nvWrite).gate g0).gateId = id := by
        simp [Tab.gate, Tab.setGate, Tab.nvWrite]
      rw [hself] at hown
      exact h.owned rfl hh (of_decide_eq_true hP) hown

theorem registerApp_nvOk (h : NvOk t) {name : Bytes} {b : Bool} {x : AppIx} {reused : Bool}
    (hfit : nameFits t name = true) (hr : registerApp t name b = some (x, reused, t')) :
    NvOk t' := by
  unfold registerApp at hr
  split at hr
  · -- the name is there: only the callback changes
    rename_i y hy
    simp only [Option.some.injEq, Prod.mk.injEq] at hr
    obtain ⟨rfl, -, rfl⟩ := hr
    have hname : t.cfg.regAppNames y ≠ [] := by
      have := firstSlot_holds hy
      rw [Bool.and_eq_true, bne_iff_ne] at this
      exact this.1
    refine ⟨h.nameLen, h.names, ?_, ?_, h.pipes, h.admin, h.link, h.idMgmt⟩
    · intro z hz
      rcases eq_or_ne z y with rfl | hne
      · exact hname
      · simp only [Tab.enroll, Tab.setCback, Function.update_of_ne hne] at hz
        exact h.cbacks z hz
    · intro g h0
      exact ⟨(h.gates g h0).owner, (h.gates g h0).registered⟩
  · rename_i hnone
    rw [Option.map_eq_some_iff] at hr
    obtain ⟨y, hy, hpair⟩ := hr
    simp only [Prod.mk.injEq] at hpair
    obtain ⟨rfl, -, rfl⟩ := hpair
    have hfree : t.cfg.regAppNames y = [] := by simpa using firstSlot_holds hy
    unfold nameFits at hfit
    simp only [hnone, Option.isSome_none, Bool.false_or, Bool.or_eq_true, List.all_eq_true,
      Bool.and_eq_true, bne_iff_ne, beq_iff_eq, Bool.not_eq_true', List.mem_finRange,
      forall_const] at hfit
    rcases hfit with hall | ⟨hne, hpre⟩
    · exact absurd hfree (hall y)
    have hcopy : copyName name ≠ [] := by
      intro hnil
      rw [copyName, List.take_eq_nil_iff] at hnil
      rcases hnil with hlen | hnil
      · exact absurd hlen (by decide)
      · exact hne hnil
    have hboth : ∀ z, t.cfg.regAppNames z ≠ [] →
        ¬ t.cfg.regAppNames z <+: copyName name ∧ ¬ copyName name <+: t.cfg.regAppNames z := by
      intro z hz
      have hp := (hpre z).resolve_left hz
      rw [← List.isPrefixOf_iff_prefix, ← List.isPrefixOf_iff_prefix, hp.1, hp.2]
      exact ⟨Bool.false_ne_true, Bool.false_ne_true⟩
    refine ⟨?_, ?_, ?_, ?_, h.pipes, h.admin, h.link, h.idMgmt⟩
    · intro z
      rcases eq_or_ne z y with rfl | hzy
      · simp only [Tab.enroll, Tab.setCback, Tab.nvWrite, Tab.setName, Function.update_self, copyName,
          List.length_take]
        omega
      · simp only [Tab.enroll, Tab.setCback, Tab.nvWrite, Tab.setName, Function.update_of_ne hzy]
        exact h.nameLen z
    · intro u v huv
      simp only [Tab.enroll, Tab.setCback, Tab.nvWrite, Tab.setName]
      rcases eq_or_ne u y with rfl | huy
      · rw [Function.update_self, Function.update_of_ne huv.symm]
        intro _ hv
        exact (hboth v hv).2
      · rw [Function.update_of_ne huy]
        rcases eq_or_ne v y with rfl | hvy
        · rw [Function.update_self]
          intro hu _
          exact (hboth u hu).1
        · rw [Function.update_of_ne hvy]
          exact h.names u v huv
    · intro z hz
      rcases eq_or_ne z y with rfl | hzy
      · simp only [Tab.enroll, Tab.setCback, Tab.nvWrite, Tab.setName, Function.update_self]
        exact hcopy
      · simp only [Tab.enroll, Tab.setCback, Tab.nvWrite, Tab.setName,
          Function.update_of_ne hzy] at hz ⊢
        exact h.cbacks z hz
    · intro g h0
      refine ⟨(h.gates g h0).owner, ?_⟩
      -- the entry that was free is not the one of an owner
      rcases (h.gates g h0).registered with hc | hp | ⟨a, ha, hname⟩
      · exact .inl hc
      · exact .inr (.inl hp)
      · refine .inr (.inr ⟨a, ha, ?_⟩)
        have hay : a ≠ y := by
          rintro rfl
          exact hname hfree
        simp only [Tab.enroll, Tab.setCback, Tab.nvWrite, Tab.setName, Function.update_of_ne hay]
        exact hname

theorem nv_kept : Kept nvPolicy fun t => (Base t ∧ t.Ok) ∧ NvOk t := by
  have K : Kept nvPolicy fun t => Base t ∧ t.Ok :=
    tables_kept (fun _ _ _ _ h => (of_decide_eq_true h : PipeFits _ _ _ _).place) rfl
  exact
    { base := fun h => h.1.1
      other := by
        intro t t' h hn hg hp hm hc h1 h0
        refine ⟨K.other h.1 hn hg hp hm hc h1 h0, ?_⟩
        have hkept : ∀ {a b : UInt8}, stateValid a = true →
            b = a ∨ b = nfaHciPipeClosed ∨ b = nfaHciPipeOpened → stateValid b = true := by
          rintro a b ha (rfl | rfl | rfl)
          · exact ha
          · rfl
          · rfl
        refine ⟨hn ▸ h.2.nameLen, hn ▸ h.2.names, ?_, ?_, ?_, hkept h.2.admin h1,
          hkept h.2.link h0, hm ▸ h.2.idMgmt⟩
        · rw [hc, hn]
          exact h.2.cbacks
        · unfold Tab.gate
          rw [hg]
          intro g hid
          exact ⟨(h.2.gates g hid).owner, hn ▸ (h.2.gates g hid).registered⟩
        · unfold Tab.pipe
          rw [hp]
          exact h.2.pipes
      pipeState := by
        intro t i state h hs
        refine ⟨K.pipeState i state h.1 hs, h.2.setPipe i ?_⟩
        intro h0
        have hp := h.2.pipes i h0
        refine ⟨hp.id, ?_, hp.localGate, hp.destGate, hp.notLast⟩
        rcases hs with rfl | rfl <;> rfl
      release := fun t pipeId h =>
        ⟨K.release t pipeId h.1, h.2.fewer (releasePipe_fewer t pipeId)⟩
      add := fun destHost h hP =>
        ⟨K.add destHost h.1 hP, addPipeToGate_nvOk h.2 h.1.2 (of_decide_eq_true hP) destHost⟩
      addStatic := by
        intro t pipeId localGate destGate destHost h hs hP
        exact absurd (.inr hs.symm) (of_decide_eq_true hP : PipeFits _ _ _ _).localGate
      alloc := fun h hgate hby ha => ⟨K.alloc h.1 hgate hby ha, allocGate_nvOk h.2 hgate hby ha⟩
      own := fun h h0 hh hP hr =>
        ⟨K.own h.1 h0 hh hP hr, h.2.setGate _ fun _ => h.2.owned rfl hh (of_decide_eq_true hP) hr⟩
      drop := by
        intro t gateId h hd
        refine ⟨K.drop h.1 hd, ?_⟩
        unfold nfaHciuReleaseGate
        split
        · exact h.2
        · rename_i g _
          exact NvOk.congr (h.2.setGate g fun h0 => absurd rfl h0) rfl rfl
      register := fun h hlen hP hr => ⟨K.register h.1 hlen hP hr, registerApp_nvOk h.2 hP hr⟩
      forget := fun _ _ hf => Bool.noConfusion hf
      silence := fun _ _ hf => Bool.noConfusion hf }

end Kept

theorem nvOk_init (sessionId : Bytes) : NvOk (Task.init sessionId).cb.toTab where
  nameLen _ := Nat.zero_le _
  names _ _ _ h := absurd rfl h
  cbacks _ h := Bool.noConfusion h
  gates _ h := absurd rfl h
  pipes _ h := absurd rfl h
  admin := rfl
  link := rfl
  idMgmt := rfl

theorem serve_nv {s s' : Task} (hs : s.serve = some s') :
    s'.nv = s.nv ∨ s'.nv = some s'.cb.cfg := by
  unfold Task.serve at hs
  rw [Option.map_eq_some_iff] at hs
  obtain ⟨cb, -, rfl⟩ := hs
  dsimp only
  generalize (if nfaHciuIsNoHostResetting cb then nfaHciCheckPendingApiRequests cb else cb) = cb'
  split
  · exact .inr rfl
  · exact .inl rfl

theorem step_nv {s s' : Task} {e : Event} (hs : s.step e = some s') :
    s'.nv = s.nv ∨ s'.nv = some s'.cb.cfg := by
  cases e with
  | call r =>
    cases hs
    exact .inl rfl
  | deliver =>
    unfold Task.step at hs
    dsimp only at hs
    split at hs
    · cases hs
      exact .inl rfl
    · have hstored := serve_nv hs
      exact hstored
  | checkQueue => exact serve_nv hs
  | timeout =>
    obtain ⟨cb, -, hu⟩ := Option.bind_eq_some_iff.mp hs
    have hstored := serve_nv hu
    exact hstored
  | connCreated buffSize =>
    cases hs
    exact .inl rfl
  | data header message payload env =>
    unfold Task.step at hs
    rw [Option.map_eq_some_iff] at hs
    obtain ⟨cb, -, rfl⟩ := hs
    exact .inl rfl

theorem nv_config_accepted (sessionId : Bytes) (es : List Event) (s : Task)
    (hok : StepsOk Task.step (Allows nvPolicy) (Task.init sessionId) es)
    (hrun : run Task.step (Task.init sessionId) es = some s) :
    nfaHciIsValidCfg s.cb.cfg = true ∧ ∀ c, s.nv = some c → nfaHciIsValidCfg c = true := by
  have hstart : ∀ c, (Task.init sessionId).nv = some c → nfaHciIsValidCfg c = true := by
    intro c hc
    cases hc
  have hinv := @run_keeps_of_step _ _ _ _
    (fun s => ((Base s.cb.toTab ∧ s.cb.toTab.Ok) ∧ NvOk s.cb.toTab) ∧
      ∀ c, s.nv = some c → nfaHciIsValidCfg c = true)
    (by
      intro s e s' hI hstep hs
      have hkept := step_keeps nv_kept hI.1 hstep hs
      refine ⟨hkept, ?_⟩
      intro c hc
      rcases step_nv hs with hsame | hstored
      · exact hI.2 c (hsame ▸ hc)
      · rw [hstored, Option.some.injEq] at hc
        rw [← hc]
        exact isValidCfg_of_nvOk hkept.1.2 hkept.2)
    es _ _ ⟨⟨⟨base_init sessionId, tables_init sessionId⟩, nvOk_init sessionId⟩, hstart⟩ hok hrun
  exact ⟨isValidCfg_of_nvOk hinv.1.1.2 hinv.1.2, hinv.2⟩

theorem nv_config_accepted_announced :
    ∃ s, run Task.step (Task.init []) (uiccAnnounces 0x21) = some s ∧
      (s.cb.cfg.dynPipes 0).pipeId = 0x21 ∧ nfaHciIsValidCfg s.cb.cfg = true := by
  obtain ⟨s, hs⟩ : ∃ s, run Task.step (Task.init []) (uiccAnnounces 0x21) = some s := ⟨_, rfl⟩
  refine ⟨s, hs, ?_, (nv_config_accepted [] _ s (by decide +kernel) hs).1⟩
  obtain rfl := Option.some.inj hs
  decide +kernel

/-- The UICC announces ten pipes to the connectivity gate, from ten of its gates. -/
def uiccAnnouncesTen : List Event :=
  .connCreated 0x20 :: [0x41, 0x42, 0x43, 0x44, 0x45, 0x46, 0x47, 0x48, 0x49, 0x4A].map fun gate =>
    .data 0x81 0x12 [0x02, gate, 0x01, 0x41, gate - 0x20] quietEnv

/-- With the last block in use the walk over the masks ends at the number of blocks. -/
theorem last_slot_rejected :
    ∃ s, run Task.step (Task.init []) uiccAnnouncesTen = some s ∧
      (∀ i, (s.cb.cfg.dynPipes i).localGate = nfaHciConnectivityGate ∧
        isDynamicPipe (s.cb.cfg.dynPipes i).pipeId) ∧ nfaHciIsValidCfg s.cb.cfg = false := by
  obtain ⟨s, hs⟩ : ∃ s, run Task.step (Task.init []) uiccAnnouncesTen = some s := ⟨_, rfl⟩
  refine ⟨s, hs, ?_⟩
  obtain rfl := Option.some.inj hs
  decide +kernel

end NfcStack.Hci
