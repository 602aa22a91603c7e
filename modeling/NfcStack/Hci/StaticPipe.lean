import NfcStack.Hci.Apps

/- The event that reports a static pipe, and what a failed request leaves behind.

   What is proved:
     1. `addStaticPipe_cb`: the event goes with the state of `nfaHciApiAddStaticPipe`.
     2. `add_static_pipe_atomic_iff`: a request that fails leaves both tables alone
        unless the pipe does not fit and the gate is in use, or is put into a free
        block that is not zero.
     3. `full_table_drops_gate`: the eleventh static pipe of a gate fails, and the
        gate is gone while its ten pipes stay. -/
namespace NfcStack.Hci
open NfcStack.Lib

def nfaStatusOk : UInt8 := 0x00
def nfaStatusFailed : UInt8 := 0x03

/-- `nfa_hci_api_add_static_pipe`, with the status of the event it sends. -/
def addStaticPipeEvent (cb : HciCb) (hciHandle : UInt16) (host gate pipe : UInt8) : UInt8 × HciCb :=
  match nfaHciuAllocGate cb.toTab gate hciHandle with
  | none => (nfaStatusFailed, cb)
  | some (g, t) =>
    let t := t.setOwner g hciHandle
    let gateId := (t.gate g).gateId
    let added := nfaHciuAddPipeToGate t pipe gateId host gate
    if added.1 ≠ nfaHciAnyOk then
      (nfaStatusFailed, { cb with toTab := nfaHciuReleaseGate added.2 gateId })
    else
      match nfaHciuFindPipeByPid added.2 pipe with
      | none => (nfaStatusFailed, { cb with toTab := added.2 })
      | some i => (nfaStatusOk, { cb with toTab := added.2.setPipeState i nfaHciPipeOpened })

theorem addStaticPipe_cb (cb : HciCb) (hciHandle : UInt16) (host gate pipe : UInt8) :
    (addStaticPipeEvent cb hciHandle host gate pipe).2 =
      nfaHciApiAddStaticPipe cb hciHandle host gate pipe := by
  unfold addStaticPipeEvent nfaHciApiAddStaticPipe
  cases nfaHciuAllocGate cb.toTab gate hciHandle with
  | none => rfl
  | some found =>
    dsimp only
    split_ifs
    · rfl
    · cases nfaHciuFindPipeByPid (nfaHciuAddPipeToGate (found.2.setOwner found.1 hciHandle) pipe
        ((found.2.setOwner found.1 hciHandle).gate found.1).gateId host gate).2 pipe <;> rfl

def SameTables (t t' : Tab) : Prop :=
  t'.cfg.dynGates = t.cfg.dynGates ∧ t'.cfg.dynPipes = t.cfg.dynPipes

/-- If the request fails, the tables are as before. -/
def AtomicAdd (cb : HciCb) (hciHandle : UInt16) (host gate pipe : UInt8) : Prop :=
  (addStaticPipeEvent cb hciHandle host gate pipe).1 ≠ nfaStatusOk →
    SameTables cb.toTab (addStaticPipeEvent cb hciHandle host gate pipe).2.toTab

/-- The gate is new, and a block it is put into is zero. -/
def NewGate (t : Tab) (gate : UInt8) : Prop :=
  nfaHciuFindGateByGid t gate = none ∧ ∀ g ∈ nfaHciuFindGateByGid t 0, t.gate g = DynGate.free

instance (t : Tab) (gate : UInt8) : Decidable (NewGate t gate) := inferInstanceAs (Decidable (_ ∧ _))

section Add
variable {t : Tab} {pipeId localGate destHost destGate : UInt8}

theorem addPipeToGate_fits {g : GateIx} (hg : nfaHciuFindGateByGid t localGate = some g)
    (hfits : fits t pipeId = true) :
    (nfaHciuAddPipeToGate t pipeId localGate destHost destGate).1 = nfaHciAnyOk := by
  by_contra hfail
  rw [(addPipeToGate_failed hg hfail).1] at hfits
  cases hfits

theorem addPipeToGate_full {g : GateIx} (hg : nfaHciuFindGateByGid t localGate = some g)
    (hfull : fits t pipeId = false) :
    nfaHciuAddPipeToGate t pipeId localGate destHost destGate = (nfaHciAdmENoPipesAvailable, t) := by
  unfold fits at hfull
  rw [Bool.or_eq_false_iff, Option.isSome_eq_false_iff, Option.isSome_eq_false_iff,
    Option.isNone_iff_eq_none, Option.isNone_iff_eq_none] at hfull
  unfold nfaHciuAddPipeToGate nfaHciuAllocPipe nfaHciuAllocPipe.takePipe
  rw [hg, hfull.1, hfull.2]

theorem addPipeToGate_found
    (hok : (nfaHciuAddPipeToGate t pipeId localGate destHost destGate).1 = nfaHciAnyOk) :
    nfaHciuFindPipeByPid (nfaHciuAddPipeToGate t pipeId localGate destHost destGate).2 pipeId ≠
      none := by
  unfold nfaHciuAddPipeToGate at hok ⊢
  split at hok
  · exact absurd hok (by decide : nfaHciAdmENoPipesAvailable ≠ nfaHciAnyOk)
  · split at hok
    · exact absurd hok (by decide : nfaHciAdmENoPipesAvailable ≠ nfaHciAnyOk)
    · rename_i i t' _
      intro hnone
      apply findPipe_none.mp hnone i
      simp [Tab.pipe, Tab.setPipe, Tab.setGate]

end Add

theorem addStaticPipe_some {cb : HciCb} {hciHandle : UInt16} {host gate pipe : UInt8} {g : GateIx}
    {t : Tab} (ha : nfaHciuAllocGate cb.toTab gate hciHandle = some (g, t))
    (hid : (t.gate g).gateId = gate)
    (hfirst : nfaHciuFindGateByGid (t.setOwner g hciHandle) gate = some g) :
    AtomicAdd cb hciHandle host gate pipe ↔ fits t pipe = true ∨
      SameTables cb.toTab (t.setGate g DynGate.free) := by
  have howner : ((t.setOwner g hciHandle).gate g).gateId = gate := by
    rw [← hid]
    simp [Tab.gate, Tab.setOwner, Tab.setGate]
  have hsame : fits (t.setOwner g hciHandle) pipe = fits t pipe := rfl
  unfold AtomicAdd addStaticPipeEvent
  rw [ha]
  dsimp only
  rw [howner]
  cases hfits : fits t pipe with
  | true =>
    have hok := @addPipeToGate_fits _ pipe _ host gate _ hfirst (hsame.trans hfits)
    rw [if_neg (not_not.mpr hok)]
    split
    · rename_i hnone
      exact absurd hnone (addPipeToGate_found hok)
    · simp
  | false =>
    have hfull := @addPipeToGate_full _ pipe _ host gate _ hfirst (hsame.trans hfits)
    rw [hfull, if_pos (by decide : nfaHciAdmENoPipesAvailable ≠ nfaHciAnyOk)]
    have hrelease : (nfaHciuReleaseGate (t.setOwner g hciHandle) gate).cfg.dynGates =
        (t.setGate g DynGate.free).cfg.dynGates := by
      unfold nfaHciuReleaseGate
      rw [hfirst]
      exact Function.update_idem _ _ _
    have hpipes : (nfaHciuReleaseGate (t.setOwner g hciHandle) gate).cfg.dynPipes =
        (t.setGate g DynGate.free).cfg.dynPipes := by
      unfold nfaHciuReleaseGate
      rw [hfirst]
      rfl
    unfold SameTables
    dsimp only
    rw [hrelease, hpipes]
    simp [nfaStatusFailed, nfaStatusOk]

theorem add_static_pipe_atomic_iff (cb : HciCb) (hciHandle : UInt16) (host gate pipe : UInt8)
    (hc : (Request.addStaticPipe hciHandle host gate pipe).Checked) :
    AtomicAdd cb hciHandle host gate pipe ↔
      fits cb.toTab pipe = true ∨ NewGate cb.toTab gate := by
  have hprop : ¬ gate < nfaHciFirstPropGate := by
    rw [UInt8.lt_iff_toNat_lt]
    have := UInt8.lt_iff_toNat_lt.mp hc.2.1
    change ¬ gate.toNat < 240
    change 239 < gate.toNat at this
    omega
  have h0 : gate ≠ 0 := by
    rintro rfl
    exact hprop (by decide)
  have halloc : nfaHciuAllocGate cb.toTab gate hciHandle =
      (nfaHciuFindGateByGid cb.toTab gate).elim (takeGate cb.toTab gate hciHandle) fun g => some (g, cb.toTab) := by
    unfold nfaHciuAllocGate
    refine (if_neg (fun h => hprop h.2.1)).trans ((if_pos h0).trans ?_)
    cases nfaHciuFindGateByGid cb.toTab gate <;> rfl
  unfold NewGate
  cases hfind : nfaHciuFindGateByGid cb.toTab gate with
  | some g =>
    rw [hfind] at halloc
    have hid := findGate_some hfind
    -- the gate was there before: releasing it is no way back
    rw [addStaticPipe_some halloc hid]
    · have hgone : ¬ SameTables cb.toTab (cb.toTab.setGate g DynGate.free) := by
        intro hsame
        have hg := congrFun hsame.1 g
        rw [show (cb.toTab.setGate g DynGate.free).cfg.dynGates g = DynGate.free from
          Function.update_self _ _ _] at hg
        have hzero : (cb.toTab.gate g).gateId = 0 := congrArg DynGate.gateId hg.symm
        exact h0 (hid.symm.trans hzero)
      simp [hgone]
    · rw [← hfind]
      unfold nfaHciuFindGateByGid
      congr 1
      funext g'
      rcases eq_or_ne g' g with rfl | hne
      · simp [Tab.gate, Tab.setOwner, Tab.setGate]
      · simp [Tab.gate, Tab.setOwner, Tab.setGate, hne]
  | none =>
    rw [hfind] at halloc
    unfold takeGate at halloc
    cases hfree : nfaHciuFindGateByGid cb.toTab 0 with
    | none =>
      -- without a free block nothing is written
      rw [hfree] at halloc
      have hatomic : AtomicAdd cb hciHandle host gate pipe := by
        unfold AtomicAdd addStaticPipeEvent
        rw [halloc]
        exact fun _ => ⟨rfl, rfl⟩
      simp [hatomic]
    | some g =>
      rw [hfree] at halloc
      rw [addStaticPipe_some halloc]
      · have hback : SameTables cb.toTab
            (((cb.toTab.setGate g ⟨gate, hciHandle, 0⟩).nvWrite).setGate g DynGate.free) ↔
              cb.toTab.gate g = DynGate.free := by
          have hgates : (((cb.toTab.setGate g ⟨gate, hciHandle, 0⟩).nvWrite).setGate g
              DynGate.free).cfg.dynGates = Function.update cb.cfg.dynGates g DynGate.free :=
            Function.update_idem _ _ _
          unfold SameTables
          rw [hgates, Function.update_eq_self_iff]
          exact ⟨fun h => h.1.symm, fun h => ⟨h.symm, rfl⟩⟩
        rw [hback]
        simp [fits, nfaHciuFindPipeByPid, Tab.pipe, Tab.setGate, Tab.nvWrite]
      · simp [Tab.gate, Tab.setGate, Tab.nvWrite]
      · -- no other block has the id
        have hothers := findGate_none.mp hfind
        cases hagain : nfaHciuFindGateByGid
            (((cb.toTab.setGate g ⟨gate, hciHandle, 0⟩).nvWrite).setOwner g hciHandle) gate with
        | none =>
          apply absurd _ (findGate_none.mp hagain g)
          simp [Tab.gate, Tab.setOwner, Tab.setGate, Tab.nvWrite]
        | some g' =>
          have hid' := findGate_some hagain
          rcases eq_or_ne g' g with rfl | hne
          · rfl
          · apply absurd _ (hothers g')
            simpa [Tab.gate, Tab.setOwner, Tab.setGate, Tab.nvWrite, hne] using hid'

/-- The task starts up with one other host, and an application adds `n` static pipes to a gate. -/
def addsStaticPipes (n : Nat) : List Event :=
  .connCreated 0x20 :: List.replicate 5 (.data 0x81 0x80 [] quietEnv) ++
    .data 0x81 0x80 [0x80] quietEnv :: (List.range n).flatMap fun k =>
      [.call (.addStaticPipe 0x0800 0x80 0xF0 (0x70 + UInt8.ofNat k)), .deliver]

/-- With the table full, a request at a new gate fails as well, but leaves no trace. -/
theorem add_static_pipe_atomic_full :
    ∃ s, run Task.step (Task.init []) (addsStaticPipes 10) = some s ∧
      (addStaticPipeEvent s.cb 0x0800 0x80 0xF1 0x7A).1 = nfaStatusFailed ∧
      AtomicAdd s.cb 0x0800 0x80 0xF1 0x7A := by
  obtain ⟨s, hs⟩ : ∃ s, run Task.step (Task.init []) (addsStaticPipes 10) = some s := ⟨_, rfl⟩
  have hread : (run Task.step (Task.init []) (addsStaticPipes 10)).map (fun s =>
      ((addStaticPipeEvent s.cb 0x0800 0x80 0xF1 0x7A).1, decide (NewGate s.cb.toTab 0xF1))) =
      some (nfaStatusFailed, true) := by decide +kernel
  rw [hs, Option.map_some, Option.some.injEq, Prod.mk.injEq] at hread
  obtain ⟨hstatus, hgate⟩ := hread
  exact ⟨s, hs, hstatus,
    (add_static_pipe_atomic_iff _ _ _ _ _ (by decide)).mpr (.inr (of_decide_eq_true hgate))⟩

theorem full_table_drops_gate :
    ∃ s, run Task.step (Task.init []) (addsStaticPipes 10) = some s ∧
      (Request.addStaticPipe 0x0800 0x80 0xF0 0x7A).Checked ∧
      ¬ AtomicAdd s.cb 0x0800 0x80 0xF0 0x7A := by
  obtain ⟨s, hs⟩ : ∃ s, run Task.step (Task.init []) (addsStaticPipes 10) = some s := ⟨_, rfl⟩
  have hread : (run Task.step (Task.init []) (addsStaticPipes 10)).map (fun s =>
      ((addStaticPipeEvent s.cb 0x0800 0x80 0xF0 0x7A).1, (s.cb.cfg.dynGates 1).gateId,
        ((addStaticPipeEvent s.cb 0x0800 0x80 0xF0 0x7A).2.cfg.dynGates 1).gateId)) =
      some (nfaStatusFailed, 0xF0, 0) := by decide +kernel
  rw [hs, Option.map_some, Option.some.injEq, Prod.mk.injEq, Prod.mk.injEq] at hread
  obtain ⟨hstatus, hbefore, hafter⟩ := hread
  refine ⟨s, hs, by decide, ?_⟩
  intro h
  have hsame := (h (by rw [hstatus]; decide)).1
  have hg := congrArg DynGate.gateId (congrFun hsame 1)
  rw [hafter, hbefore] at hg
  exact absurd hg (by decide)

end NfcStack.Hci
