import NfcStack.Lib.Run
import NfcStack.Hci.Actions

/- What a step of the HCI task can do to its tables.

   A `Policy` says which table operations a step may make, `Allows` reads off a
   step which of them it would make and asks the policy, and `Kept` lists what a
   property of the tables has to survive. `step_keeps` goes through the code
   once: what is `Kept` survives every allowed step. Every result about runs of
   the task instantiates it.

   What is proved:
     1. `step_keeps`, `run_keeps`: the rule above, for a step and for a run.
     2. `base_kept`: in every reachable state gate ids are distinct and free gate
        blocks have no owner. -/
namespace NfcStack.Hci
open NfcStack.Lib

/-! ## Policies -/

structure Policy where
  /-- A pipe with this id, local gate and peer gate is added. -/
  add : (PipeIx → DynPipe) → UInt8 → UInt8 → UInt8 → Bool
  /-- A gate is allocated for this application handle. -/
  alloc : UInt16 → Bool
  /-- A gate that has pipes may be released. -/
  drop : Bool
  /-- An application registers with this name. -/
  register : Tab → Bytes → Bool
  /-- An application may be deregistered. -/
  forget : Bool

/-- The pipe is in the table, or there is room for it. -/
def fits (t : Tab) (pipe : UInt8) : Bool :=
  (nfaHciuFindPipeByPid t pipe).isSome || (nfaHciuFindPipeByPid t 0).isSome

def Unused (t : Tab) (gateId : UInt8) : Prop := ∀ i, (t.pipe i).home ≠ some gateId

instance (t : Tab) (gateId : UInt8) : Decidable (Unused t gateId) := by
  unfold Unused
  infer_instance

section Allows
variable (P : Policy)

def requestOk (t : Tab) : Request → Bool
  | .register _ name _ => P.register t name
  | .deregister _ _ => P.forget
  | .allocGate h _ => P.alloc h
  | .addStaticPipe h _ gate pipe =>
    P.alloc h && P.add t.cfg.dynPipes pipe gate gate &&
      (P.drop || fits t pipe || decide (Unused t gate))
  | _ => true

/-- The operations of a turn of the request loop. -/
def turnOk (cb : HciCb) : Bool :=
  cb.hciState != .idle ||
    match cb.hciApiQ with
    | [] => true
    | request :: _ => requestOk P cb.toTab request.1

def serveOk (cb : HciCb) : Prop :=
  StepsOk (fun cb (_ : Unit) => apiTurn cb) (fun cb _ => turnOk P cb = true) cb
    (List.replicate cb.hciApiQ.length ())

instance (cb : HciCb) : Decidable (serveOk P cb) := by unfold serveOk; infer_instance

def notifyAccepted (t : Tab) (sourceHost sourceGate destGate : UInt8) : Bool :=
  destGate == nfaHciIdentityManagementGate || destGate == nfaHciLoopBackGate ||
    !(sourceHost == 0x02 && destGate != nfaHciConnectivityGate) &&
      match nfaHciuFindGateByGid t destGate with
      | some _ => !nfaHciuCheckPipeBetweenGates t destGate sourceHost sourceGate
      | none => nfaHciFirstPropGate ≤ destGate

/-- The operations of a command on the administration pipe. -/
def cmdOk (t : Tab) (inst : UInt8) : Bytes → Bool
  | sourceHost :: sourceGate :: _ :: destGate :: pipe :: _ =>
    inst != nfaHciAdmNotifyPipeCreated || !notifyAccepted t sourceHost sourceGate destGate ||
      P.add t.cfg.dynPipes pipe destGate sourceGate
  | _ => true

def starting : HciState → Bool
  | .startup | .restore | .waitNetwkEnable | .restoreNetwkEnable => true
  | _ => false

/-- The operations of a response on the administration pipe. -/
def rspOk (cb : HciCb) (inst : UInt8) (data : Bytes) : Bool :=
  starting cb.hciState ||
    (cb.hciState != .appDeregister || P.forget) &&
      (cb.cmdSent != nfaHciAdmCreatePipe || inst != nfaHciAnyOk ||
        match data.take (data.length % 256) with
        | _ :: sourceGate :: _ :: destGate :: pipe :: _ =>
          sourceGate != cb.localGateInUse || P.add cb.cfg.dynPipes pipe sourceGate destGate
        | _ => true)

/-- Every operation the step makes on the tables is allowed. -/
def Allows (s : Task) : Event → Prop
  | .call _ | .connCreated _ => True
  | .deliver => ∀ r ∈ s.mailbox.head?, serveOk P { s.cb with hciApiQ := s.cb.hciApiQ ++ [r] }
  | .checkQueue => serveOk P s.cb
  | .timeout =>
    (s.cb.hciState != .appDeregister || P.forget) = true ∧
      ∀ cb ∈ nfaHciRspTimeout s.cb, serveOk P cb
  | .data header message payload _ =>
    header &&& 0x7F ≠ nfaHciAdminPipe ∨
      (if (message >>> 6) &&& 0x03 = nfaHciCommandType then
          cmdOk P s.cb.toTab (message &&& 0x3F) payload = true
        else if (message >>> 6) &&& 0x03 = nfaHciResponseType then
          rspOk P s.cb (message &&& 0x3F) payload = true
        else True)

instance (s : Task) : ∀ e, Decidable (Allows P s e)
  | .call _ | .connCreated _ => .isTrue trivial
  | .deliver => by unfold Allows; infer_instance
  | .checkQueue => by unfold Allows; infer_instance
  | .timeout => by unfold Allows; infer_instance
  | .data _ _ _ _ => by unfold Allows; infer_instance

end Allows

/-! ## What is kept -/

/-- Gate ids are distinct, and a free gate block has no owner. -/
structure Base (t : Tab) : Prop where
  gateIds : Distinct fun g => (t.gate g).key
  unowned : ∀ g, (t.gate g).gateId = 0 → (t.gate g).gateOwner = 0

/-- Who a gate is allocated for: the stack itself, for the connectivity gate and
for proprietary gates, or an application. -/
def allocBy (P : Policy) (gateId : UInt8) (handle : UInt16) : Prop :=
  (handle = 0 ∧ (gateId = nfaHciConnectivityGate ∨ nfaHciFirstPropGate ≤ gateId)) ∨
    (isHciHandle handle ∧ P.alloc handle = true ∧ gateId ≠ nfaHciConnectivityGate)

/-- `I` survives every operation on the tables that `P` allows. -/
structure Kept (P : Policy) (I : Tab → Prop) : Prop where
  base : ∀ {t}, I t → Base t
  other : ∀ {t t'}, I t → t'.cfg.regAppNames = t.cfg.regAppNames →
    t'.cfg.dynGates = t.cfg.dynGates → t'.cfg.dynPipes = t.cfg.dynPipes →
    t'.cfg.idMgmtMask = t.cfg.idMgmtMask → t'.pAppCback = t.pAppCback →
    (t'.cfg.pipe01State = t.cfg.pipe01State ∨ t'.cfg.pipe01State = nfaHciPipeClosed ∨
      t'.cfg.pipe01State = nfaHciPipeOpened) →
    (t'.cfg.pipe00State = t.cfg.pipe00State ∨ t'.cfg.pipe00State = nfaHciPipeClosed ∨
      t'.cfg.pipe00State = nfaHciPipeOpened) → I t'
  pipeState : ∀ {t} i state, I t → state = nfaHciPipeClosed ∨ state = nfaHciPipeOpened →
    I (t.setPipeState i state)
  release : ∀ t pipeId, I t → I (nfaHciuReleasePipe t pipeId).2
  add : ∀ {t pipeId localGate destGate} destHost, I t →
    P.add t.cfg.dynPipes pipeId localGate destGate = true →
    I (nfaHciuAddPipeToGate t pipeId localGate destHost destGate).2
  addStatic : ∀ {t pipeId localGate destGate} destHost, I t →
    localGate = nfaHciIdentityManagementGate ∨ localGate = nfaHciLoopBackGate →
    P.add t.cfg.dynPipes pipeId localGate destGate = true →
    I (nfaHciuAddPipeToStaticGate t localGate pipeId destHost destGate).2
  alloc : ∀ {t gateId handle g t'}, I t →
    gateId = 0 ∨ nfaHciFirstHostSpecificGenericGate ≤ gateId → allocBy P gateId handle →
    nfaHciuAllocGate t gateId handle = some (g, t') → I t'
  own : ∀ {t g handle}, I t → (t.gate g).gateId ≠ 0 → isHciHandle handle →
    P.alloc handle = true →
    nfaHciFirstPropGate ≤ (t.gate g).gateId ∨ t.hasCback (handle &&& nfaHandleMask) = true →
    I (t.setOwner g handle)
  drop : ∀ {t gateId}, I t → (P.drop = true ∨ Unused t gateId ∨
    ∃ g, (t.gate g).gateId = gateId ∧ (t.gate g).gateId ≠ 0 ∧ (t.gate g).pipeInxMask = 0) →
    I (nfaHciuReleaseGate t gateId)
  register : ∀ {t name b x reused t'}, I t → name.length < nfaMaxHciAppNameLen →
    P.register t name = true →
    registerApp t name b = some (x, reused, t') → I t'
  forget : ∀ {t} x, I t → P.forget = true → I ((t.setName x []).setCback x false)
  silence : ∀ {t} x, I t → P.forget = true → I (t.setCback x false)

/-! ## Sending a command leaves the tables alone -/

@[simp] theorem sendCmd_toTab (cb : HciCb) (inst : UInt8) (payload : Bytes) :
    (sendCmd cb inst payload).toTab = cb.toTab := by
  unfold sendCmd
  split <;> rfl

@[simp] theorem sendCreate_toTab (cb : HciCb) (g h d : UInt8) :
    (nfaHciuSendCreatePipeCmd cb g h d).toTab = cb.toTab := sendCmd_toTab _ _ _

@[simp] theorem sendDelete_toTab (cb : HciCb) (pipe : UInt8) :
    (nfaHciuSendDeletePipeCmd cb pipe).toTab = cb.toTab := by
  unfold nfaHciuSendDeletePipeCmd
  split
  · rfl
  · exact sendCmd_toTab _ _ _

@[simp] theorem sendClearAll_toTab (cb : HciCb) :
    (nfaHciuSendClearAllPipeCmd cb).toTab = cb.toTab := sendCmd_toTab _ _ _

@[simp] theorem sendOpen_toTab (cb : HciCb) (pipe : UInt8) :
    (nfaHciuSendOpenPipeCmd cb pipe).toTab = cb.toTab := sendCmd_toTab _ _ _

@[simp] theorem sendClose_toTab (cb : HciCb) (pipe : UInt8) :
    (nfaHciuSendClosePipeCmd cb pipe).toTab = cb.toTab := sendCmd_toTab _ _ _

@[simp] theorem sendGetParam_toTab (cb : HciCb) (index : UInt8) :
    (nfaHciuSendGetParamCmd cb index).toTab = cb.toTab := sendCmd_toTab _ _ _

@[simp] theorem sendSetParam_toTab (cb : HciCb) (sent : Bool) (index : UInt8) (value : Bytes) :
    (nfaHciuSendSetParamCmd cb sent index value).toTab = cb.toTab := by
  unfold nfaHciuSendSetParamCmd
  dsimp only
  split <;> exact sendCmd_toTab _ _ _

@[simp] theorem mapTab_toTab (cb : HciCb) (f : Tab → Tab) : (cb.mapTab f).toTab = f cb.toTab := rfl

@[simp] theorem createPipe_toTab (cb : HciCb) (h : UInt16) (s d g : UInt8) (r : ApiRequest) :
    (nfaHciApiCreatePipe cb h s d g r).toTab = cb.toTab := by
  unfold nfaHciApiCreatePipe
  split
  · rfl
  · split_ifs
    · rfl
    · rfl
    · simp

@[simp] theorem checkPending_toTab (cb : HciCb) :
    (nfaHciCheckPendingApiRequests cb).toTab = cb.toTab := by
  unfold nfaHciCheckPendingApiRequests
  split_ifs
  · rfl
  · split
    · rfl
    · dsimp only
      split
      · simp
      · rfl

/-! ## The code, operation by operation -/

section Keeps
variable {P : Policy} {I : Tab → Prop} (K : Kept P I)
include K

theorem Kept.nvWrite {t : Tab} (h : I t) : I t.nvWrite :=
  K.other h rfl rfl rfl rfl rfl (.inl rfl) (.inl rfl)

theorem Kept.removeAll {t : Tab} (h : I t) (host : UInt8) :
    I (nfaHciuRemoveAllPipesFromHost t host) :=
  removeAllPipesFromHost_keeps K.release h host

/-- Each gate the loop finds can be released, and stays so while others are released. -/
theorem releaseGates_keeps {p : DynGate → Bool} (hp : p DynGate.free = false) (n : Nat) :
    ∀ {t t' : Tab}, I t →
      (∀ g, p (t.gate g) = true → (t.gate g).gateId ≠ 0 ∧
        (Unused t (t.gate g).gateId ∨ (t.gate g).pipeInxMask = 0)) →
      releaseGates (fun t => firstSlot fun g => p (t.gate g)) n t = some t' → I t' := by
  induction n with
  | zero => intro t t' _ _ h; cases h
  | succ n ih =>
    intro t t' ht hall h
    unfold releaseGates at h
    split at h
    · cases h
      exact ht
    · rename_i g hg
      obtain ⟨h0, hdrop⟩ := hall g (firstSlot_holds hg)
      have hI : I (nfaHciuReleaseGate t (t.gate g).gateId) := by
        apply K.drop ht
        rcases hdrop with hun | hmask
        · exact .inr (.inl hun)
        · exact .inr (.inr ⟨g, rfl, h0, hmask⟩)
      refine ih hI ?_ h
      -- the gates still to be released are the ones that were there before
      intro g' hg'
      unfold nfaHciuReleaseGate at hg' ⊢
      split at hg'
      · exact hall g' hg'
      · rename_i g1 hg1
        rcases eq_or_ne g' g1 with rfl | hne
        · simp [Tab.gate, Tab.setGate, Tab.nvWrite, hp] at hg'
        · simp only [Tab.gate, Tab.setGate, Tab.nvWrite, Function.update_of_ne hne] at hg' ⊢
          exact hall g' hg'

omit K in
/-- A loop that also finds free blocks never ends once it finds something. -/
theorem releaseGates_free {p : DynGate → Bool} (hp : p DynGate.free = true) (n : Nat) :
    ∀ {t t' : Tab}, releaseGates (fun t => firstSlot fun g => p (t.gate g)) n t = some t' →
      t' = t := by
  have hnone : ∀ n (t : Tab), (∃ g, p (t.gate g) = true) →
      releaseGates (fun t => firstSlot fun g => p (t.gate g)) n t = none := by
    intro n
    induction n with
    | zero => intro t _; rfl
    | succ n ih =>
      rintro t ⟨g, hg⟩
      unfold releaseGates
      split
      · rename_i hnone
        rw [firstSlot_eq_none] at hnone
        exact absurd hg (by simp [hnone g])
      · rename_i g0 _
        apply ih
        unfold nfaHciuReleaseGate
        split
        · exact ⟨g, hg⟩
        · rename_i g1 _
          exact ⟨g1, by simp [Tab.gate, Tab.setGate, Tab.nvWrite, hp]⟩
  intro t t' h
  cases n with
  | zero => cases h
  | succ n =>
    unfold releaseGates at h
    split at h
    · cases h
      rfl
    · rename_i g hg
      have hstart : releaseGates (fun t => firstSlot fun g => p (t.gate g)) (n + 1) t = none :=
        hnone (n + 1) t ⟨g, firstSlot_holds hg⟩
      unfold releaseGates at hstart
      rw [hg] at hstart
      dsimp only at hstart
      rw [hstart] at h
      cases h

variable {handle : UInt16}

omit K in
/-- If no pipe belongs to an application, no pipe is on one of its gates. -/
theorem unused_of_no_pipe {t : Tab} (hB : Base t)
    (hnone : nfaHciuFindPipeByOwner t handle = none) {g : GateIx}
    (howner : (t.gate g).gateOwner = handle) (h0 : (t.gate g).gateId ≠ 0) :
    Unused t (t.gate g).gateId := by
  intro i hi
  obtain ⟨hpid, hlocal⟩ := DynPipe.home_eq_some.mp hi
  have hfind : nfaHciuFindGateByGid t (t.pipe i).localGate = some g := by
    rw [hlocal]
    match hf : nfaHciuFindGateByGid t (t.gate g).gateId with
    | none => exact absurd rfl (findGate_none.mp hf g)
    | some g' =>
      have hid := findGate_some hf
      rw [hB.gateIds g' g _ (DynGate.key_eq_some.mpr ⟨hid ▸ h0, hid⟩)
        (DynGate.key_eq_some.mpr ⟨h0, rfl⟩)]
  unfold nfaHciuFindPipeByOwner findPipeWith at hnone
  rw [firstSlot_eq_none] at hnone
  have := hnone i
  rw [hfind] at this
  simp [hpid, howner] at this

omit K in
theorem free_owner_ne (h : handle ≠ 0) :
    (DynGate.free.gateOwner == handle) = false := by
  simpa [DynGate.free] using h.symm

theorem deregisterApp_keeps {cb cb' : HciCb} {x : AppIx} (hd : deregisterApp cb x = some cb')
    (h : I cb.toTab) (hf : P.forget = true) : I cb'.toTab := by
  have hB := K.base h
  have hin : cb.appInUse ≠ 0 → ∀ g, (cb.gate g).gateOwner = cb.appInUse →
      (cb.gate g).gateId ≠ 0 := by
    intro h0 g hg hid
    exact h0 (hg ▸ hB.unowned g hid)
  unfold deregisterApp at hd
  split at hd
  · rename_i hnone
    rw [Option.map_eq_some_iff] at hd
    obtain ⟨t, ht, rfl⟩ := hd
    have hI : I t := by
      by_cases h0 : cb.appInUse = 0
      · have := releaseGates_free (p := fun g => g.gateOwner == cb.appInUse)
          (by simp [h0, DynGate.free]) _ ht
        exact this ▸ h
      · refine releaseGates_keeps K (p := fun g => g.gateOwner == cb.appInUse)
          (free_owner_ne h0) _ h ?_ ht
        intro g hg
        have hg' := beq_iff_eq.mp hg
        exact ⟨hin h0 g hg', .inl (unused_of_no_pipe hB (Option.isNone_iff_eq_none.mp hnone) hg'
          (hin h0 g hg'))⟩
    exact K.nvWrite (K.forget x hI hf)
  · split at hd
    · rw [Option.map_eq_some_iff] at hd
      obtain ⟨t, ht, rfl⟩ := hd
      have hI : I t := by
        by_cases h0 : cb.appInUse = 0
        · have := releaseGates_free (p := fun g => g.gateOwner == cb.appInUse &&
            g.pipeInxMask == 0) (by simp [h0, DynGate.free]) _ ht
          exact this ▸ h
        · refine releaseGates_keeps K (p := fun g => g.gateOwner == cb.appInUse &&
            g.pipeInxMask == 0) (by simp [free_owner_ne h0]) _ h ?_ ht
          intro g hg
          obtain ⟨hg', hmask⟩ := Bool.and_eq_true_iff.mp hg
          exact ⟨hin h0 g (beq_iff_eq.mp hg'), .inr (beq_iff_eq.mp hmask)⟩
      exact K.nvWrite (K.silence x hI hf)
    · cases hd
      simpa using h

theorem apiDeregister_keeps {cb cb' : HciCb} (h : I cb.toTab) (hf : P.forget = true)
    (name : Option Bytes) (hd : nfaHciApiDeregister cb name = some cb') : I cb'.toTab := by
  unfold nfaHciApiDeregister at hd
  split at hd
  · split at hd
    · cases hd
      exact h
    · exact deregisterApp_keeps K hd h hf
  · split at hd
    · exact deregisterApp_keeps K hd h hf
    · cases hd

variable {cb : HciCb}

theorem deallocGate_keeps (h : I cb.toTab) (gateId : UInt8) (handle : UInt16) :
    I (deallocGate cb gateId handle).toTab := by
  unfold deallocGate
  split
  · exact h
  · rename_i g hg
    split_ifs with howner hnone
    · exact h
    · -- every pipe on the gate would have been found
      apply K.nvWrite
      apply K.drop h
      refine .inr (.inl ?_)
      intro i hi
      obtain ⟨hpid, hlocal⟩ := DynPipe.home_eq_some.mp hi
      rw [Option.isNone_iff_eq_none] at hnone
      unfold nfaHciuFindPipeOnGate findPipeWith at hnone
      rw [firstSlot_eq_none] at hnone
      have hfind : nfaHciuFindGateByGid cb.toTab (cb.pipe i).localGate = some g := by
        rw [hlocal, findGate_some hg]
        exact hg
      have := hnone i
      rw [hfind] at this
      simp [hpid] at this
    · split
      · exact K.nvWrite h
      · simpa using h

theorem apiDeallocGate_keeps (h : I cb.toTab) (r : Option (UInt8 × UInt16)) :
    I (nfaHciApiDeallocGate cb r).toTab := by
  unfold nfaHciApiDeallocGate
  split
  · exact deallocGate_keeps K h _ _
  · apply deallocGate_keeps K
    exact h

omit K in
/-- A gate block that was handed out is in use, and outside the proprietary
range its application has a callback. -/
theorem allocGate_owner {t t' : Tab} {gateId : UInt8} {g : GateIx}
    (hgate : gateId = 0 ∨ nfaHciFirstHostSpecificGenericGate ≤ gateId ∧
      gateId ≠ nfaHciConnectivityGate) (ha : nfaHciuAllocGate t gateId handle = some (g, t')) :
    (t'.gate g).gateId ≠ 0 ∧ (gateId ≠ 0 → (t'.gate g).gateId = gateId) ∧
      (nfaHciFirstPropGate ≤ (t'.gate g).gateId ∨
        t'.hasCback (handle &&& nfaHandleMask) = true) := by
  have hchecked : nfaHciFirstPropGate ≤ gateId ∨ t.hasCback (handle &&& nfaHandleMask) = true := by
    by_contra hno
    obtain ⟨hlow, hcb⟩ := not_or.mp hno
    have hconn : gateId ≠ nfaHciConnectivityGate := by
      rcases hgate with rfl | ⟨-, h⟩
      · decide
      · exact h
    unfold nfaHciuAllocGate at ha
    rw [if_pos ⟨hconn, UInt8.not_le.mp hlow, .inr (by simpa using hcb)⟩] at ha
    cases ha
  rcases allocGate_cases (hgate.imp_right And.left) ha with
    ⟨rfl, h0, hid⟩ | ⟨id, hid, hnone, heq, htake⟩
  · rw [hid]
    exact ⟨h0, fun _ => rfl, hchecked⟩
  · unfold takeGate at htake
    rw [Option.map_eq_some_iff] at htake
    obtain ⟨g0, hg0, hpair⟩ := htake
    obtain ⟨rfl, rfl⟩ := Prod.mk.inj hpair
    have hself : (((t.setGate g0 ⟨id, handle, 0⟩).nvWrite).gate g0).gateId = id := by
      simp [Tab.gate, Tab.setGate, Tab.nvWrite]
    rw [hself]
    refine ⟨?_, heq, ?_⟩
    · rintro rfl
      exact absurd hid (by decide)
    · by_cases h0 : gateId = 0
      · rcases hchecked with hprop | hcb
        · rw [h0] at hprop
          exact absurd hprop (by decide)
        · exact .inr hcb
      · rw [heq h0]
        exact hchecked

theorem apiAllocGate_keeps (h : I cb.toTab) {gate : UInt8}
    (hc : (Request.allocGate handle gate).Checked) (hP : P.alloc handle = true) :
    I (nfaHciApiAllocGate cb handle gate).toTab := by
  obtain ⟨hhandle, hgate⟩ := hc
  unfold nfaHciApiAllocGate
  split
  · exact h
  · rename_i g t ha
    have hconn : gate ≠ nfaHciConnectivityGate := by
      rcases hgate with rfl | ⟨-, hne⟩
      · decide
      · exact hne
    have hI : I t := K.alloc h (hgate.imp_right And.left) (.inr ⟨hhandle, hP, hconn⟩) ha
    obtain ⟨h0, -, hown⟩ := allocGate_owner hgate ha
    dsimp only
    split_ifs
    · exact K.own hI h0 hhandle hP hown
    · exact hI

omit K in
/-- Allocating a gate leaves the pipes alone. -/
theorem allocGate_pipes {t t' : Tab} {gateId : UInt8} {g : GateIx}
    (ha : nfaHciuAllocGate t gateId handle = some (g, t')) : t'.cfg.dynPipes = t.cfg.dynPipes := by
  have htake : ∀ id, takeGate t id handle = some (g, t') → t'.cfg.dynPipes = t.cfg.dynPipes := by
    intro id h
    unfold takeGate at h
    rw [Option.map_eq_some_iff] at h
    obtain ⟨g0, -, hpair⟩ := h
    obtain ⟨-, rfl⟩ := Prod.mk.inj hpair
    rfl
  unfold nfaHciuAllocGate at ha
  split_ifs at ha with hbad h0
  · split at ha
    · simp only [Option.some.injEq, Prod.mk.injEq] at ha
      rw [ha.2]
    · exact htake _ ha
  · obtain ⟨id, -, h⟩ := Option.bind_eq_some_iff.mp ha
    exact htake id h

omit K in
/-- An addition that fails finds no room, and changes nothing. -/
theorem addPipeToGate_failed {t : Tab} {pipeId localGate destHost destGate : UInt8} {g : GateIx}
    (hg : nfaHciuFindGateByGid t localGate = some g)
    (hfail : (nfaHciuAddPipeToGate t pipeId localGate destHost destGate).1 ≠ nfaHciAnyOk) :
    fits t pipeId = false ∧ (nfaHciuAddPipeToGate t pipeId localGate destHost destGate).2 = t := by
  unfold nfaHciuAddPipeToGate at hfail ⊢
  rw [hg] at hfail ⊢
  dsimp only at hfail ⊢
  split at hfail
  · rename_i t1 ha
    dsimp only
    unfold nfaHciuAllocPipe at ha
    split at ha
    · rename_i i hi
      split_ifs at ha with hlast
      · cases ha
      · -- releasing the pipe makes room, so the search cannot fail
        unfold nfaHciuAllocPipe.takePipe at ha
        split at ha
        · rename_i hnone
          exact absurd (releasePipe_frees hi hlast) (findPipe_none.mp hnone i)
        · cases ha
    · rename_i hnone
      unfold nfaHciuAllocPipe.takePipe at ha
      split at ha
      · rename_i hfull
        exact ⟨by simp [fits, hnone, hfull], (congrArg Prod.snd ha).symm⟩
      · cases ha
  · exact absurd rfl hfail

theorem apiAddStaticPipe_keeps (h : I cb.toTab)
    {host gate pipe : UInt8} (hc : (Request.addStaticPipe handle host gate pipe).Checked)
    (hP : requestOk P cb.toTab (.addStaticPipe handle host gate pipe) = true) :
    I (nfaHciApiAddStaticPipe cb handle host gate pipe).toTab := by
  obtain ⟨hhandle, hlast, hpipe⟩ := hc
  simp only [requestOk, Bool.and_eq_true, Bool.or_eq_true, decide_eq_true_eq] at hP
  obtain ⟨⟨halloc, hadd⟩, hroom⟩ := hP
  have hprop : nfaHciFirstPropGate ≤ gate := by
    rw [UInt8.le_iff_toNat_le]
    rw [UInt8.lt_iff_toNat_lt] at hlast
    exact hlast
  have hgen : nfaHciFirstHostSpecificGenericGate ≤ gate :=
    UInt8.le_trans (by decide : nfaHciFirstHostSpecificGenericGate ≤ nfaHciFirstPropGate) hprop
  have hconn : gate ≠ nfaHciConnectivityGate := by
    rintro rfl
    exact absurd hprop (by decide)
  have h0 : gate ≠ 0 := by
    rintro rfl
    exact absurd hprop (by decide)
  unfold nfaHciApiAddStaticPipe
  split
  · exact h
  · rename_i g t ha
    obtain ⟨hg0, hid, -⟩ := allocGate_owner (.inr ⟨hgen, hconn⟩) ha
    have hI : I t := K.alloc h (.inr hgen) (.inr ⟨hhandle, halloc, hconn⟩) ha
    have hown : I (t.setOwner g handle) := K.own hI hg0 hhandle halloc (.inl (hid h0 ▸ hprop))
    have hpipes : (t.setOwner g handle).cfg.dynPipes = cb.cfg.dynPipes := by
      rw [← allocGate_pipes ha]
      rfl
    have hgate : ((t.setOwner g handle).gate g).gateId = gate := by
      rw [← hid h0]
      simp [Tab.gate, Tab.setOwner, Tab.setGate]
    have hA : I (nfaHciuAddPipeToGate (t.setOwner g handle) pipe gate host gate).2 :=
      K.add host hown (by rw [hpipes]; exact hadd)
    dsimp only
    rw [hgate]
    split_ifs with hok
    · -- the gate is released: it has no pipe, or the policy does not mind
      cases hf : nfaHciuFindGateByGid (t.setOwner g handle) gate with
      | none => exact absurd hgate (findGate_none.mp hf g)
      | some g' =>
        obtain ⟨hfits, hsame⟩ := addPipeToGate_failed hf hok
        rw [hsame]
        have hfits' : fits cb.toTab pipe = false := by
          have : fits (t.setOwner g handle) pipe = fits cb.toTab pipe := by
            unfold fits nfaHciuFindPipeByPid Tab.pipe
            rw [hpipes]
          exact this ▸ hfits
        apply K.drop hown
        rcases hroom with (hd | hf') | hun
        · exact .inl hd
        · rw [hfits'] at hf'
          cases hf'
        · refine .inr (.inl ?_)
          intro i
          unfold Tab.pipe
          rw [hpipes]
          exact hun i
    · split
      · exact hA
      · exact K.pipeState _ _ hA (.inr rfl)

theorem apiTurn_keeps {cb cb' : HciCb} (h : I cb.toTab) (hok : turnOk P cb = true)
    (ht : apiTurn cb = some cb') : I cb'.toTab := by
  unfold apiTurn at ht
  unfold turnOk at hok
  split_ifs at ht with hidle
  · cases ht
    exact h
  · have hidle : (cb.hciState != .idle) = false := by simpa using hidle
    rw [hidle, Bool.false_or] at hok
    split at ht
    · cases ht
      exact h
    · rename_i request q hq
      rw [hq] at hok
      dsimp only at hok ht
      obtain ⟨r, hr⟩ := request
      cases r with
      | register hd name b =>
        cases ht
        unfold nfaHciApiRegister
        split
        · exact h
        · rename_i x reused t hreg
          exact K.register h hr.1 hok hreg
      | deregister hd name =>
        exact apiDeregister_keeps K (by exact h) hok _ ht
      | allocGate hd gate =>
        cases ht
        exact apiAllocGate_keeps K (by exact h) hr hok
      | deallocGate hd gate =>
        cases ht
        exact apiDeallocGate_keeps K (by exact h) _
      | getHostList hd =>
        cases ht
        unfold nfaHciApiGetHostList
        dsimp only
        split
        · simpa using h
        · exact h
      | createPipe hd s d g =>
        cases ht
        simpa using h
      | openPipe hd pipe =>
        cases ht
        unfold nfaHciApiOpenPipe
        split
        · exact h
        · split
          · simpa using h
          · exact h
      | closePipe hd pipe =>
        cases ht
        unfold nfaHciApiClosePipe
        split
        · exact h
        · split
          · simpa using h
          · exact h
      | deletePipe hd pipe =>
        cases ht
        unfold nfaHciApiDeletePipe
        split
        · exact h
        · simpa using h
      | addStaticPipe hd host gate pipe =>
        cases ht
        exact apiAddStaticPipe_keeps K (by exact h) hr hok

theorem notifyPipeCreated_keeps {t : Tab} (h : I t) {sourceHost sourceGate destGate pipe : UInt8}
    (hP : notifyAccepted t sourceHost sourceGate destGate = true →
      P.add t.cfg.dynPipes pipe destGate sourceGate = true) :
    I (notifyPipeCreated t sourceHost sourceGate destGate pipe).2 := by
  unfold notifyPipeCreated
  split
  · rename_i hstatic
    apply K.addStatic _ h hstatic
    apply hP
    rcases hstatic with rfl | rfl <;> simp [notifyAccepted]
  split
  · exact h
  rename_i hsim
  have hsim' : (sourceHost == 0x02 && destGate != nfaHciConnectivityGate) = false := by
    simpa using hsim
  split
  · rename_i g hg
    split
    · exact h
    · rename_i hbetween
      apply K.add _ h
      apply hP
      simp [notifyAccepted, hsim', hg, hbetween]
  · rename_i hg
    split
    · rename_i hprop
      split
      · exact h
      · rename_i g t' ha
        have hgen : nfaHciFirstHostSpecificGenericGate ≤ destGate :=
          UInt8.le_trans (by decide) hprop.1
        have hI : I t' := K.alloc h (.inr hgen) (.inl ⟨rfl, .inr hprop.1⟩) ha
        apply K.add _ hI
        rw [allocGate_pipes ha]
        apply hP
        simp [notifyAccepted, hsim', hg, hprop.1]
    · exact h

theorem Kept.closeStatic (h : I cb.toTab) : I (closeStatic cb).toTab :=
  K.other h rfl rfl rfl rfl rfl (.inr (.inl rfl)) (.inr (.inl rfl))

theorem Kept.adminState (h : I cb.toTab) {state : UInt8}
    (hs : state = nfaHciPipeClosed ∨ state = nfaHciPipeOpened) : I (setAdminState cb state).toTab :=
  K.other h rfl rfl rfl rfl rfl (.inr hs) (.inl rfl)

theorem Kept.linkState (h : I cb.toTab) {state : UInt8}
    (hs : state = nfaHciPipeClosed ∨ state = nfaHciPipeOpened) : I (setLinkState cb state).toTab :=
  K.other h rfl rfl rfl rfl rfl (.inl rfl) (.inr hs)

theorem Kept.newSession (h : I cb.toTab) (env : Env) : I (newSessionId cb env).toTab :=
  K.other h rfl rfl rfl rfl rfl (.inl rfl) (.inl rfl)

theorem Kept.clearAll (h : I cb.toTab) :
    I ((NfcStack.Hci.closeStatic (cb.mapTab (nfaHciuRemoveAllPipesFromHost · 0))).mapTab
      Tab.nvWrite).toTab := by
  apply K.nvWrite
  apply K.closeStatic
  rw [mapTab_toTab]
  exact K.removeAll h 0

omit K in
@[simp] theorem noteReset_toTab (cb : HciCb) (host : UInt8) : (noteReset cb host).toTab = cb.toTab := by
  unfold noteReset
  split
  · split <;> rfl
  · rfl

variable {data : Bytes}

theorem adminGateCmd_keeps (h : I cb.toTab) {inst : UInt8}
    (hok : cmdOk P cb.toTab inst data = true) :
    I (nfaHciHandleAdminGateCmd cb inst data).toTab := by
  unfold nfaHciHandleAdminGateCmd
  split
  · exact K.adminState h (.inr rfl)
  split
  · rw [sendOpen_toTab]
    exact K.adminState h (.inl rfl)
  split
  · rename_i hcreated
    split
    · rename_i sourceHost sourceGate _ destGate pipe _
      rw [mapTab_toTab]
      apply notifyPipeCreated_keeps K h
      intro hacc
      simpa [cmdOk, hcreated, hacc] using hok
    · exact h
  split
  · split
    · exact K.release _ _ h
    · exact h
  split
  · split
    · rename_i sourceHost _
      have hI : I (cb.mapTab (nfaHciuRemoveAllPipesFromHost · sourceHost)).toTab := by
        rw [mapTab_toTab]
        exact K.removeAll h sourceHost
      generalize cb.mapTab (nfaHciuRemoveAllPipesFromHost · sourceHost) = cb' at hI
      dsimp only
      split
      · rw [sendOpen_toTab]
        exact K.closeStatic hI
      · rw [noteReset_toTab]
        exact hI
    · exact h
  · exact h

omit K in
@[simp] theorem dhStartupComplete_toTab (cb : HciCb) :
    (nfaHciDhStartupComplete cb).toTab = cb.toTab := by
  unfold nfaHciDhStartupComplete
  split
  · split <;> rfl
  · split
    · rfl
    · simp

omit K in
@[simp] theorem enableOneNfcee_toTab (cb : HciCb) (env : Env) :
    (nfaHciEnableOneNfcee cb env).toTab = cb.toTab := by
  unfold nfaHciEnableOneNfcee
  split
  · rfl
  · split <;> simp

theorem startupRsp_keeps (h : I cb.toTab) (inst : UInt8) (data : Bytes) (env : Env) :
    I (startupRsp cb inst data env).toTab := by
  unfold startupRsp
  split
  · simpa using h
  split
  · exact h
  split
  · split
    · simpa using h
    split
    · -- the parameter was the allow list
      have hI : I (if cb.hciState = .startup ∨ cb.hciState = .restore then
          nfaHciDhStartupComplete cb else cb).toTab := by
        split
        · simpa using h
        · exact h
      dsimp only
      split
      · simpa using hI
      · exact hI
    · exact h
  split
  · split
    · exact h
    split
    · split
      · simpa using h
      · simpa using h
    · exact h
  split
  · have hI : I (setAdminState cb nfaHciPipeOpened).toTab := K.adminState h (.inr rfl)
    generalize setAdminState cb nfaHciPipeOpened = cb' at hI
    dsimp only
    split
    · simpa using hI
    split
    · rw [sendSetParam_toTab]
      apply K.newSession
      exact hI
    · simpa using hI
  split
  · rw [sendOpen_toTab]
    exact K.clearAll h
  · exact h

theorem goOn_keeps {cb cb' : HciCb} (h : I cb.toTab)
    (hf : (cb.hciState != .appDeregister || P.forget) = true) (hg : goOn cb = some cb') :
    I cb'.toTab := by
  unfold goOn at hg
  split at hg
  · rename_i hstate
    exact apiDeregister_keeps K h (by simpa [hstate] using hf) _ hg
  · cases hg
    exact apiDeallocGate_keeps K h _
  · cases hg
    exact h

theorem operationRsp_keeps {cb cb' : HciCb} (h : I cb.toTab) {inst : UInt8}
    {env : Env} (hf : (cb.hciState != .appDeregister || P.forget) = true)
    (hadd : cb.cmdSent = nfaHciAdmCreatePipe → inst = nfaHciAnyOk →
      ∀ x sourceGate destHost destGate pipe rest,
        data = x :: sourceGate :: destHost :: destGate :: pipe :: rest →
        sourceGate = cb.localGateInUse →
        P.add cb.cfg.dynPipes pipe sourceGate destGate = true)
    (hr : operationRsp cb inst data env = some cb') : I cb'.toTab := by
  unfold operationRsp at hr
  split at hr
  · exact goOn_keeps K h hf hr
  split at hr
  · split at hr
    · split at hr
      · cases hr
        rw [sendSetParam_toTab]
        apply K.nvWrite
        exact K.newSession h env
      · exact goOn_keeps K h hf hr
    split at hr
    · cases hr
      have hcollect : I (collectHosts cb data).toTab := h
      split
      · simpa using hcollect
      · exact hcollect
    · cases hr
      exact h
  split at hr
  · rename_i hcreate
    split at hr
    · rename_i hokc
      split at hr
      · split at hr
        · cases hr
          exact h
        · rename_i hsource
          cases hr
          exact K.add _ h (hadd hcreate hokc _ _ _ _ _ _ rfl (not_not.mp hsource))
      · cases hr
        exact h
    · cases hr
      exact h
  split at hr
  · split at hr
    · apply goOn_keeps K _ _ hr
      · exact K.release _ _ h
      · exact hf
    · cases hr
      exact h
  split at hr
  · split at hr
    · cases hr
      rw [sendGetParam_toTab]
      apply K.nvWrite
      exact K.adminState h (.inr rfl)
    · cases hr
      apply K.nvWrite
      exact K.adminState h (.inl rfl)
  split at hr
  · cases hr
    rw [sendOpen_toTab]
    exact K.clearAll h
  · cases hr
    exact h

theorem pipeOpenCloseCmd_keeps (h : I cb.toTab) (i : PipeIx) (inst : UInt8) :
    I (pipeOpenCloseCmd cb i inst).toTab := by
  unfold pipeOpenCloseCmd
  split
  · exact K.pipeState i _ h (.inr rfl)
  split
  · exact K.pipeState i _ h (.inl rfl)
  · exact h

theorem pipeOpenCloseRsp_keeps (h : I cb.toTab) (i : PipeIx) (inst : UInt8) :
    I (pipeOpenCloseRsp cb i inst).toTab := by
  unfold pipeOpenCloseRsp
  split
  · exact K.pipeState i _ h (.inr rfl)
  split
  · exact K.pipeState i _ h (.inl rfl)
  · exact h

theorem dynPipePkt_keeps (h : I cb.toTab) (pipeId type inst : UInt8) (env : Env) :
    I (nfaHciHandleDynPipePkt cb pipeId type inst env).toTab := by
  unfold nfaHciHandleDynPipePkt
  split
  · exact h
  rename_i i _
  have hcmd := pipeOpenCloseCmd_keeps K h i inst
  have hrsp := pipeOpenCloseRsp_keeps K h i inst
  dsimp only
  split
  · split
    · exact hcmd
    · exact h
  split
  · split
    · exact hcmd
    split
    · exact hrsp
    · exact h
  split
  · exact h
  split
  · exact hcmd
  split
  · split
    · exact K.nvWrite hrsp
    · exact h
  · exact h

theorem linkMgmGateCmd_keeps (h : I cb.toTab) (inst : UInt8) (data : Bytes) :
    I (nfaHciHandleLinkMgmGateCmd cb inst data).toTab := by
  unfold nfaHciHandleLinkMgmGateCmd
  split
  · exact h
  split
  · split
    · split
      · exact K.other h rfl rfl rfl rfl rfl (.inl rfl) (.inl rfl)
      · exact h
    · exact h
  split
  · exact K.linkState h (.inr rfl)
  split
  · exact K.linkState h (.inl rfl)
  · exact h

theorem allocConnectivityGate_keeps (h : I cb.toTab) :
    I (allocConnectivityGate cb).toTab := by
  unfold allocConnectivityGate
  split
  · split
    · exact h
    · rename_i g t ha
      exact K.alloc h (.inr (by decide)) (.inl ⟨rfl, .inl rfl⟩) ha
  · exact h

theorem connCreated_keeps (h : I cb.toTab) (buffSize : UInt8) :
    I (connCreated cb buffSize).toTab := by
  have hI : I (allocConnectivityGate { cb with buffSize := buffSize }).toTab :=
    allocConnectivityGate_keeps K (by exact h)
  unfold connCreated
  generalize allocConnectivityGate { cb with buffSize := buffSize } = cb' at hI
  dsimp only
  split
  · simpa using hI
  · simpa using hI

theorem rspTimeout_keeps {cb cb' : HciCb} (h : I cb.toTab)
    (hf : (cb.hciState != .appDeregister || P.forget) = true)
    (ht : nfaHciRspTimeout cb = some cb') : I cb'.toTab := by
  have hall : I (cb.mapTab (nfaHciuRemoveAllPipesFromHost · 0)).toTab := by
    rw [mapTab_toTab]
    exact K.removeAll h 0
  unfold nfaHciRspTimeout at ht
  split at ht
  · obtain rfl := Option.some.inj ht
    exact h
  · obtain rfl := Option.some.inj ht
    exact h
  · split at ht
    · obtain rfl := Option.some.inj ht
      simpa using h
    · obtain rfl := Option.some.inj ht
      exact h
  · split at ht
    · obtain rfl := Option.some.inj ht
      simpa using h
    · obtain rfl := Option.some.inj ht
      exact h
  · split at ht
    · obtain rfl := Option.some.inj ht
      simpa using h
    · obtain rfl := Option.some.inj ht
      exact apiDeallocGate_keeps K hall none
  · rename_i hstate
    split at ht
    · obtain rfl := Option.some.inj ht
      simpa using h
    · exact apiDeregister_keeps K hall (by simpa [hstate] using hf) none ht
  · dsimp only at ht
    split at ht
    · obtain rfl := Option.some.inj ht
      exact h
    split at ht
    · split at ht
      · obtain rfl := Option.some.inj ht
        exact K.release _ _ h
      · obtain rfl := Option.some.inj ht
        exact h
    · obtain rfl := Option.some.inj ht
      unfold dropPipeInUse
      split
      · rw [mapTab_toTab, sendDelete_toTab]
        exact K.release _ _ h
      · exact h
  · obtain rfl := Option.some.inj ht
    exact h

theorem adminGateRsp_keeps {cb cb' : HciCb} (h : I cb.toTab) {inst : UInt8}
    {env : Env} (hok : rspOk P cb inst data = true)
    (hr : nfaHciHandleAdminGateRsp cb inst data env = some cb') : I cb'.toTab := by
  have hop : starting cb.hciState = false →
      operationRsp cb inst (data.take (data.length % 256)) env = some cb' → I cb'.toTab := by
    intro hstart hr
    rw [rspOk, hstart, Bool.false_or, Bool.and_eq_true] at hok
    refine operationRsp_keeps K h hok.1 ?_ hr
    intro hcreate hinst x sourceGate destHost destGate pipe rest hdata hsource
    have := hok.2
    rw [hdata] at this
    simpa [hcreate, hinst, hsource] using this
  unfold nfaHciHandleAdminGateRsp at hr
  dsimp only at hr
  split at hr
  · cases hr
    exact startupRsp_keeps K h _ _ _
  · cases hr
    exact startupRsp_keeps K h _ _ _
  · cases hr
    exact startupRsp_keeps K h _ _ _
  · cases hr
    exact startupRsp_keeps K h _ _ _
  · rename_i h1 h2 h3 h4
    apply hop _ hr
    generalize cb.hciState = state at h1 h2 h3 h4
    cases state <;> simp_all [starting]

omit K in
/-- The response is judged by fields that the reception of a packet does not change. -/
theorem rspOk_congr {cb cb' : HciCb} (hstart : starting cb'.hciState = starting cb.hciState)
    (hdereg : (cb'.hciState != .appDeregister) = (cb.hciState != .appDeregister))
    (hcmd : cb'.cmdSent = cb.cmdSent) (hgate : cb'.localGateInUse = cb.localGateInUse)
    (htab : cb'.toTab = cb.toTab) (inst : UInt8) (data : Bytes) :
    rspOk P cb' inst data = rspOk P cb inst data := by
  unfold rspOk
  rw [hstart, hdereg, hcmd, hgate, htab]

theorem connData_keeps {cb cb' : HciCb} (h : I cb.toTab) {header message : UInt8} {env : Env}
    (hok : header &&& 0x7F ≠ nfaHciAdminPipe ∨ (if (message >>> 6) &&& 0x03 = nfaHciCommandType then
          cmdOk P cb.toTab (message &&& 0x3F) data = true
        else if (message >>> 6) &&& 0x03 = nfaHciResponseType then
          rspOk P cb (message &&& 0x3F) data = true else True))
    (hd : connData cb header message data env = some cb') : I cb'.toTab := by
  unfold connData at hd
  dsimp only at hd
  -- the state the handlers start from differs in the timer and the task state only
  obtain ⟨cb1, hcb1⟩ : ∃ cb1, cb1 =
      if cb.hciState = .waitNetwkEnable ∨ cb.hciState = .restoreNetwkEnable then
        { cb with rspTimer := cb.w4HciNetwkInit } else cb := ⟨_, rfl⟩
  obtain ⟨cb2, hcb2⟩ : ∃ cb2, cb2 =
      if cb1.hciState = .waitRsp ∧ (message >>> 6) &&& 0x03 = nfaHciResponseType then
        { cb1 with rspTimer := false, hciState := .idle } else cb1 := ⟨_, rfl⟩
  rw [← hcb1, ← hcb2] at hd
  have h1 : cb1.toTab = cb.toTab ∧ cb1.hciState = cb.hciState ∧ cb1.cmdSent = cb.cmdSent ∧
      cb1.localGateInUse = cb.localGateInUse := by
    rw [hcb1]
    split <;> exact ⟨rfl, rfl, rfl, rfl⟩
  have h2 : cb2.toTab = cb1.toTab ∧ cb2.cmdSent = cb1.cmdSent ∧
      cb2.localGateInUse = cb1.localGateInUse ∧ (cb2.hciState = cb1.hciState ∨
        cb1.hciState = .waitRsp ∧ cb2.hciState = .idle) := by
    rw [hcb2]
    split
    · rename_i hw
      exact ⟨rfl, rfl, rfl, .inr ⟨hw.1, rfl⟩⟩
    · exact ⟨rfl, rfl, rfl, .inl rfl⟩
  have htab : cb2.toTab = cb.toTab := h2.1.trans h1.1
  have hI : I cb2.toTab := htab ▸ h
  split at hd
  · rename_i hadmin
    have hok := hok.resolve_left (not_not_intro hadmin)
    split at hd
    · rename_i hcmd
      rw [if_pos hcmd] at hok
      cases hd
      apply adminGateCmd_keeps K hI
      rw [htab]
      exact hok
    split at hd
    · rename_i hcmd hrsp
      rw [if_neg hcmd, if_pos hrsp] at hok
      refine adminGateRsp_keeps K hI ?_ hd
      rw [rspOk_congr _ _ (h2.2.1.trans h1.2.2.1) (h2.2.2.1.trans h1.2.2.2) htab]
      · exact hok
      · rcases h2.2.2.2 with heq | ⟨hw, hidle⟩
        · rw [heq, h1.2.1]
        · rw [hidle, ← h1.2.1, hw]
          rfl
      · rcases h2.2.2.2 with heq | ⟨hw, hidle⟩
        · rw [heq, h1.2.1]
        · rw [hidle, ← h1.2.1, hw]
          rfl
    · cases hd
      exact hI
  split at hd
  · split at hd
    · cases hd
      exact linkMgmGateCmd_keeps K hI _ _
    · cases hd
      exact hI
  · cases hd
    exact dynPipePkt_keeps K hI _ _ _ _

theorem serve_keeps {s s' : Task} (h : I s.cb.toTab) (hok : serveOk P s.cb)
    (hs : s.serve = some s') : I s'.cb.toTab := by
  unfold Task.serve at hs
  rw [Option.map_eq_some_iff] at hs
  obtain ⟨cb, hrun, rfl⟩ := hs
  have hI : I cb.toTab :=
    @run_keeps_of_step _ _ _ _ (fun cb => I cb.toTab)
      (fun cb _ cb' hI hturn hstep => apiTurn_keeps K hI hturn hstep) _ _ _ h hok hrun
  have hpending : I (if nfaHciuIsNoHostResetting cb then nfaHciCheckPendingApiRequests cb
      else cb).toTab := by
    split
    · simpa using hI
    · exact hI
  generalize (if nfaHciuIsNoHostResetting cb then nfaHciCheckPendingApiRequests cb
    else cb) = cb' at hpending
  dsimp only
  split
  · exact K.other hpending rfl rfl rfl rfl rfl (.inl rfl) (.inl rfl)
  · exact hpending

/-- What is kept survives every step that is allowed. -/
theorem step_keeps {s s' : Task} {e : Event} (h : I s.cb.toTab) (hok : Allows P s e)
    (hs : s.step e = some s') : I s'.cb.toTab := by
  cases e with
  | call r =>
    cases hs
    exact h
  | deliver =>
    simp only [Task.step] at hs
    simp only [Allows] at hok
    split at hs
    · cases hs
      exact h
    · rename_i r rest hmail
      exact serve_keeps K (by exact h) (hok r (by rw [hmail]; rfl)) hs
  | checkQueue => exact serve_keeps K h hok hs
  | timeout =>
    obtain ⟨cb, hcb, hserve⟩ := Option.bind_eq_some_iff.mp hs
    obtain ⟨hf, hok⟩ := hok
    exact serve_keeps K (by exact rspTimeout_keeps K h hf hcb) (hok cb hcb) hserve
  | connCreated buffSize =>
    cases hs
    exact connCreated_keeps K h buffSize
  | data header message payload env =>
    unfold Task.step at hs
    rw [Option.map_eq_some_iff] at hs
    obtain ⟨cb, hcb, rfl⟩ := hs
    exact connData_keeps K h hok hcb

/-- What is kept holds in every state that a run of allowed steps reaches. -/
theorem run_keeps {s s' : Task} {es : List Event} (h : I s.cb.toTab)
    (hok : StepsOk Task.step (Allows P) s es) (hrun : run Task.step s es = some s') :
    I s'.cb.toTab :=
  @run_keeps_of_step _ _ _ _ (fun s => I s.cb.toTab)
    (fun _ _ _ hI hstep hs => step_keeps K hI hstep hs) es _ _ h hok hrun

end Keeps

/-! ## What holds in every run -/

section Base
variable {t : Tab}

theorem Base.congr {t' : Tab} (h : Base t) (hg : ∀ g, (t'.gate g).gateId = (t.gate g).gateId ∧
    (t'.gate g).gateOwner = (t.gate g).gateOwner) : Base t' where
  gateIds := by
    have hkey : ∀ g, (t'.gate g).key = (t.gate g).key := by
      intro g
      simp [DynGate.key, (hg g).1]
    simpa only [hkey] using h.gateIds
  unowned g h0 := by
    rw [(hg g).1] at h0
    rw [(hg g).2]
    exact h.unowned g h0

theorem Base.nvWrite (h : Base t) : Base t.nvWrite := h.congr fun _ => ⟨rfl, rfl⟩

theorem Base.setGate {x : DynGate} (h : Base t) (g : GateIx)
    (hx : ∀ k, x.key = some k → ∀ g', g' ≠ g → (t.gate g').key ≠ some k)
    (hown : x.gateId = 0 → x.gateOwner = 0) : Base (t.setGate g x) where
  gateIds := by
    have hkeys : (fun g' => ((t.setGate g x).gate g').key) =
        Function.update (fun g' => (t.gate g').key) g x.key :=
      Function.comp_update DynGate.key t.cfg.dynGates g x
    rw [hkeys]
    match hxk : x.key with
    | none => exact h.gateIds.update_none g
    | some k => exact h.gateIds.update_some g k (hx k hxk)
  unowned g' h0 := by
    rcases eq_or_ne g' g with rfl | hne
    · simp only [Tab.gate, Tab.setGate, Function.update_self] at h0 ⊢
      exact hown h0
    · simp only [Tab.gate, Tab.setGate, Function.update_of_ne hne] at h0 ⊢
      exact h.unowned g' h0

/-- A registration leaves gates and pipes alone. -/
theorem registerApp_tables {name : Bytes} {b : Bool} {x : AppIx} {reused : Bool} {t' : Tab}
    (h : registerApp t name b = some (x, reused, t')) :
    t'.cfg.dynGates = t.cfg.dynGates ∧ t'.cfg.dynPipes = t.cfg.dynPipes := by
  unfold registerApp at h
  split at h
  · simp only [Option.some.injEq, Prod.mk.injEq] at h
    rw [← h.2.2]
    exact ⟨rfl, rfl⟩
  · rw [Option.map_eq_some_iff] at h
    obtain ⟨y, -, hpair⟩ := h
    simp only [Prod.mk.injEq] at hpair
    rw [← hpair.2.2]
    exact ⟨rfl, rfl⟩

theorem base_kept (P : Policy) : Kept P Base where
  base h := h
  other h _ hg _ _ _ _ _ := h.congr fun g => by simp [Tab.gate, hg]
  pipeState _ _ h _ := h.congr fun _ => ⟨rfl, rfl⟩
  release t pipeId h :=
    h.congr fun g => ⟨(releasePipe_fewer t pipeId).ids g, (releasePipe_fewer t pipeId).owners g⟩
  add _ h _ := h.congr fun g => addPipeToGate_gates _ _ _ _ _ g
  addStatic _ h _ _ := h.congr fun g => addPipeToStaticGate_gates _ _ _ _ _ g
  alloc h hgate _ ha := by
    rcases allocGate_cases hgate ha with ⟨rfl, -, -⟩ | ⟨id, hid, hnone, -, htake⟩
    · exact h
    · unfold takeGate at htake
      rw [Option.map_eq_some_iff] at htake
      obtain ⟨g0, hg0, hpair⟩ := htake
      obtain ⟨rfl, rfl⟩ := Prod.mk.inj hpair
      apply Base.nvWrite
      apply h.setGate g0
      · intro k hk g' _ hg'
        have hk' := (DynGate.key_eq_some.mp hk).2
        exact findGate_none.mp hnone g' ((DynGate.key_eq_some.mp hg').2.trans hk'.symm)
      · intro h0
        rw [show id = 0 from h0] at hid
        exact absurd hid (by decide)
  own {t g handle} h h0 _ _ _ := by
    apply h.setGate g
    · intro k hk g' hne hg'
      exact hne (h.gateIds g' g k hg' hk)
    · intro h0'
      exact absurd h0' h0
  drop h _ := by
    unfold nfaHciuReleaseGate
    split
    · exact h
    · rename_i g _
      apply Base.nvWrite
      apply h.setGate g
      · intro k hk
        cases hk
      · intro _
        rfl
  register h _ _ hr := h.congr fun g => by simp [Tab.gate, (registerApp_tables hr).1]
  forget _ h _ := h.congr fun _ => ⟨rfl, rfl⟩
  silence _ h _ := h.congr fun _ => ⟨rfl, rfl⟩

theorem base_init (sessionId : Bytes) : Base (Task.init sessionId).cb.toTab where
  gateIds _ _ _ h := by cases h
  unowned _ _ := rfl

end Base

end NfcStack.Hci
