import NfcStack.Lib.Slots
import NfcStack.Hci.Hcp

/- The gate and pipe tables of the HCI control block and the functions of
   `nfa_hci_utils.cc` that change them. A block is free when its id is 0; a gate
   lists its pipes in `pipe_inx_mask`, one bit for each slot of `dyn_pipes`.

   What is proved:
     1. `Tables`: the invariant. It contains `Consistent`, the agreement of the
        two tables, and where the pipes and gates in use can be.
     2. One lemma for each function that writes a table: gates are taken and
        released, pipes are added, released and opened, all under `Tables`.
     3. `addPipeToGate_ok` and `addPipeToStaticGate_ok` need `PlaceOk`:
        two branches of `nfa_hciu_alloc_pipe` hand out a slot that is not free.

   A pointer into a table is an index. Notices to applications, and the messages
   handed to `nfa_hciu_send_msg`, are left out. -/
namespace NfcStack.Hci
open NfcStack.Lib

/-! ## The control block -/

abbrev nfaHciMaxAppCb : Nat := 5
abbrev nfaHciMaxGateCb : Nat := 6
abbrev nfaHciMaxPipeCb : Nat := 10
abbrev nfaHciMaxHostInNetwork : Nat := 6

abbrev AppIx := Fin nfaHciMaxAppCb
abbrev GateIx := Fin nfaHciMaxGateCb
abbrev PipeIx := Fin nfaHciMaxPipeCb

def nfaHciLoopBackGate : UInt8 := 0x04
def nfaHciIdentityManagementGate : UInt8 := 0x05
def nfaHciFirstHostSpecificGenericGate : UInt8 := 0x10
def nfaHciConnectivityGate : UInt8 := 0x41
def nfaHciLastHostSpecificGate : UInt8 := 0xEF
def nfaHciFirstPropGate : UInt8 := 0xF0
def nfaHciLastPropGate : UInt8 := 0xFF

def nfaHciLinkManagementPipe : UInt8 := 0x00
def nfaHciAdminPipe : UInt8 := 0x01
def nfaHciLastDynamicPipe : UInt8 := 0x6F

def nfaHciHostController : UInt8 := 0x00
def nfaHciHostIdUicc0 : UInt8 := 0x02
def nfaHciHostIdFirstDynamicallyAllocated : UInt8 := 0x80

def nfaHciAnySetParameter : UInt8 := 0x01
def nfaHciAnyOpenPipe : UInt8 := 0x03
def nfaHciAnyClosePipe : UInt8 := 0x04
def nfaHciAdmCreatePipe : UInt8 := 0x10
def nfaHciAdmDeletePipe : UInt8 := 0x11
def nfaHciAdmNotifyPipeCreated : UInt8 := 0x12
def nfaHciAdmNotifyPipeDeleted : UInt8 := 0x13
def nfaHciAdmClearAllPipe : UInt8 := 0x14
def nfaHciAdmNotifyAllPipeCleared : UInt8 := 0x15

def nfaHciAnyOk : UInt8 := 0x00
def nfaHciAnyENok : UInt8 := 0x03
def nfaHciAdmENoPipesAvailable : UInt8 := 0x04
def nfaHciAnyEPipeNotOpened : UInt8 := 0x06

def nfaHciPipeClosed : UInt8 := 0
def nfaHciPipeOpened : UInt8 := 1

def nfaHandleGroupHci : UInt16 := 0x0800
def nfaHandleGroupMask : UInt16 := 0xFF00
def nfaHandleMask : UInt16 := 0x00FF
def nfaHandleInvalid : UInt16 := 0xFFFF

structure DynGate where
  gateId : UInt8
  gateOwner : UInt16
  pipeInxMask : BitVec 32
  deriving DecidableEq, Repr

structure DynPipe where
  pipeId : UInt8
  pipeState : UInt8
  localGate : UInt8
  destHost : UInt8
  destGate : UInt8
  deriving DecidableEq, Repr

def DynGate.free : DynGate := ⟨0, 0, 0⟩
def DynPipe.free : DynPipe := ⟨0, 0, 0, 0, 0⟩

/-- `nfa_hci_cb.cfg`, what is kept in non-volatile memory. A name is the bytes
before its terminator, so an entry is free when the name is empty. -/
structure HciCfg where
  regAppNames : AppIx → Bytes
  dynGates : GateIx → DynGate
  dynPipes : PipeIx → DynPipe
  bSendConnEvts : AppIx → Bool
  pipe01State : UInt8
  sessionId : Bytes
  pipe00State : UInt8
  recErrors : UInt16
  idMgmtMask : BitVec 32

structure Tab where
  cfg : HciCfg
  pAppCback : AppIx → Bool
  nvWriteNeeded : Bool

def Tab.gate (t : Tab) (g : GateIx) : DynGate := t.cfg.dynGates g
def Tab.pipe (t : Tab) (i : PipeIx) : DynPipe := t.cfg.dynPipes i

def Tab.setGate (t : Tab) (g : GateIx) (x : DynGate) : Tab :=
  { t with cfg := { t.cfg with dynGates := Function.update t.cfg.dynGates g x } }

def Tab.setPipe (t : Tab) (i : PipeIx) (x : DynPipe) : Tab :=
  { t with cfg := { t.cfg with dynPipes := Function.update t.cfg.dynPipes i x } }

def Tab.nvWrite (t : Tab) : Tab := { t with nvWriteNeeded := true }

/-! ## Lookup -/

/-- `nfa_hciu_find_pipe_by_pid`. For id 0 this is a free block. -/
def nfaHciuFindPipeByPid (t : Tab) (pipeId : UInt8) : Option PipeIx :=
  firstSlot fun i => (t.pipe i).pipeId == pipeId

/-- `nfa_hciu_find_gate_by_gid`. For id 0 this is a free block. -/
def nfaHciuFindGateByGid (t : Tab) (gateId : UInt8) : Option GateIx :=
  firstSlot fun g => (t.gate g).gateId == gateId

def nfaHciuFindGateByOwner (t : Tab) (appHandle : UInt16) : Option GateIx :=
  firstSlot fun g => (t.gate g).gateOwner == appHandle

def nfaHciuFindGateWithNopipesByOwner (t : Tab) (appHandle : UInt16) : Option GateIx :=
  firstSlot fun g => (t.gate g).gateOwner == appHandle && (t.gate g).pipeInxMask == 0

/-- The loops of `nfa_hciu_find_pipe_by_owner`, `..._on_gate` and their two
`active` forms: the first block that `use` accepts and whose gate `own` accepts. -/
def findPipeWith (t : Tab) (use : DynPipe → Bool) (own : DynGate → Bool) : Option PipeIx :=
  firstSlot fun i => use (t.pipe i) &&
    match nfaHciuFindGateByGid t (t.pipe i).localGate with
    | none => false
    | some g => own (t.gate g)

/-- The condition of the `active` forms. -/
def usableBy (isActiveHost : UInt8 → Bool) (p : DynPipe) : Bool :=
  p.pipeId != 0 && nfaHciFirstDynamicPipe ≤ p.pipeId && p.pipeId ≤ nfaHciLastDynamicPipe &&
    isActiveHost p.destHost

def nfaHciuFindPipeByOwner (t : Tab) (appHandle : UInt16) : Option PipeIx :=
  findPipeWith t (fun p => p.pipeId != 0) fun g => g.gateOwner == appHandle

def nfaHciuFindPipeOnGate (t : Tab) (gateId : UInt8) : Option PipeIx :=
  findPipeWith t (fun p => p.pipeId != 0) fun g => g.gateId == gateId

def nfaHciuFindActivePipeByOwner (t : Tab) (isActiveHost : UInt8 → Bool) (appHandle : UInt16) :
    Option PipeIx :=
  findPipeWith t (usableBy isActiveHost) fun g => g.gateOwner == appHandle

def nfaHciuFindActivePipeOnGate (t : Tab) (isActiveHost : UInt8 → Bool) (gateId : UInt8) :
    Option PipeIx :=
  findPipeWith t (usableBy isActiveHost) fun g => g.gateId == gateId

/-- `nfa_hciu_check_pipe_between_gates`. -/
def nfaHciuCheckPipeBetweenGates (t : Tab) (localGate destHost destGate : UInt8) : Bool :=
  (firstSlot fun i =>
    let p := t.pipe i
    p.pipeId != 0 && nfaHciFirstDynamicPipe ≤ p.pipeId && p.pipeId ≤ nfaHciLastDynamicPipe &&
      p.localGate == localGate && p.destHost == destHost && p.destGate == destGate).isSome

/-! ## Gates -/

/-- `nfa_hci_cb.p_app_cback[appInx] != nullptr`, for an index in range. -/
def Tab.hasCback (t : Tab) (appInx : UInt16) : Bool :=
  if h : appInx.toNat < nfaHciMaxAppCb then t.pAppCback ⟨appInx.toNat, h⟩ else false

/-- The gate id the search for a free one settles on. -/
def freeGateId (t : Tab) : Option UInt8 :=
  ((List.range' 0x10 0xF0).map UInt8.ofNat).find? fun id =>
    id != nfaHciConnectivityGate && (nfaHciuFindGateByGid t id).isNone

/-- Take the first free gate block. -/
def takeGate (t : Tab) (gateId : UInt8) (appHandle : UInt16) : Option (GateIx × Tab) :=
  (nfaHciuFindGateByGid t 0).map fun g => (g, (t.setGate g ⟨gateId, appHandle, 0⟩).nvWrite)

/-- `nfa_hciu_alloc_gate`. `none` is the null pointer; nothing is changed then. -/
def nfaHciuAllocGate (t : Tab) (gateId : UInt8) (appHandle : UInt16) : Option (GateIx × Tab) :=
  if gateId ≠ nfaHciConnectivityGate ∧ gateId < nfaHciFirstPropGate ∧
      (appHandle &&& nfaHandleGroupMask ≠ nfaHandleGroupHci ∨
        t.hasCback (appHandle &&& nfaHandleMask) = false) then none
  else if gateId ≠ 0 then
    match nfaHciuFindGateByGid t gateId with
    | some g => some (g, t)
    | none => takeGate t gateId appHandle
  else (freeGateId t).bind fun id => takeGate t id appHandle

/-- `nfa_hciu_release_gate`. -/
def nfaHciuReleaseGate (t : Tab) (gateId : UInt8) : Tab :=
  match nfaHciuFindGateByGid t gateId with
  | none => t
  | some g => (t.setGate g DynGate.free).nvWrite

/-! ## Pipes -/

/-- `nfa_hciu_release_pipe`. -/
def nfaHciuReleasePipe (t : Tab) (pipeId : UInt8) : UInt8 × Tab :=
  match nfaHciuFindPipeByPid t pipeId with
  | none => (nfaHciAnyENok, t)
  | some i =>
    if nfaHciLastDynamicPipe < pipeId then (nfaHciAnyENok, t)
    else if (t.pipe i).localGate = nfaHciIdentityManagementGate then
      (nfaHciAnyOk,
        ({ t with cfg := { t.cfg with idMgmtMask := clearBit t.cfg.idMgmtMask i } }.setPipe i
          DynPipe.free).nvWrite)
    else
      match nfaHciuFindGateByGid t (t.pipe i).localGate with
      | none => (nfaHciAnyENok, t.setPipe i { t.pipe i with pipeId := 0 })
      | some g =>
        (nfaHciAnyOk,
          ((t.setGate g { t.gate g with pipeInxMask := clearBit (t.gate g).pipeInxMask i }).setPipe
            i DynPipe.free).nvWrite)

/-- `nfa_hciu_alloc_pipe`. A pipe id above the dynamic range that is in use is
handed out again without being released. -/
def nfaHciuAllocPipe (t : Tab) (pipeId : UInt8) : Option PipeIx × Tab :=
  match nfaHciuFindPipeByPid t pipeId with
  | some i =>
    if nfaHciLastDynamicPipe < pipeId then (some i, t)
    else takePipe (nfaHciuReleasePipe t pipeId).2
  | none => takePipe t
where
  /-- Take the first free pipe block. -/
  takePipe (t : Tab) : Option PipeIx × Tab :=
    match nfaHciuFindPipeByPid t 0 with
    | none => (none, t)
    | some i => (some i, (t.setPipe i { t.pipe i with pipeId := pipeId }).nvWrite)

/-- `nfa_hciu_add_pipe_to_gate`. -/
def nfaHciuAddPipeToGate (t : Tab) (pipeId localGate destHost destGate : UInt8) : UInt8 × Tab :=
  match nfaHciuFindGateByGid t localGate with
  | none => (nfaHciAdmENoPipesAvailable, t)
  | some g =>
    match nfaHciuAllocPipe t pipeId with
    | (none, t) => (nfaHciAdmENoPipesAvailable, t)
    | (some i, t) =>
      let t := t.setPipe i ⟨pipeId, nfaHciPipeClosed, localGate, destHost, destGate⟩
      (nfaHciAnyOk,
        t.setGate g { t.gate g with pipeInxMask := setBit (t.gate g).pipeInxMask i })

/-- `nfa_hciu_add_pipe_to_static_gate`. -/
def nfaHciuAddPipeToStaticGate (t : Tab) (localGate pipeId destHost destGate : UInt8) :
    UInt8 × Tab :=
  match nfaHciuAllocPipe t pipeId with
  | (none, t) => (nfaHciAdmENoPipesAvailable, t)
  | (some i, t) =>
    let t := t.setPipe i ⟨pipeId, nfaHciPipeClosed, localGate, destHost, destGate⟩
    (nfaHciAnyOk,
      if localGate = nfaHciIdentityManagementGate then
        { t with cfg := { t.cfg with idMgmtMask := setBit t.cfg.idMgmtMask i } }
      else t)

/-- `nfa_hciu_remove_all_pipes_from_host`. -/
def nfaHciuRemoveAllPipesFromHost (t : Tab) (host : UInt8) : Tab :=
  (List.finRange nfaHciMaxPipeCb).foldl
    (fun t i =>
      let p := t.pipe i
      if p.pipeId = 0 ∨ host ≠ 0 ∧ (p.destHost ≠ host ∨ nfaHciLastDynamicPipe < p.pipeId) then t
      else (nfaHciuReleasePipe t p.pipeId).2) t

/-- `p_pipe->pipe_state = state`. -/
def Tab.setPipeState (t : Tab) (i : PipeIx) (state : UInt8) : Tab :=
  t.setPipe i { t.pipe i with pipeState := state }

/-- `p_gate->gate_owner = owner`. -/
def Tab.setOwner (t : Tab) (g : GateIx) (owner : UInt16) : Tab :=
  t.setGate g { t.gate g with gateOwner := owner }

/-! ## The invariant -/

/-- What the two tables promise each other: ids are distinct, and each gate in
use lists exactly the pipes in use that name it. -/
structure Consistent (c : HciCfg) : Prop where
  pipeIds : ∀ i j, (c.dynPipes i).pipeId ≠ 0 → (c.dynPipes i).pipeId = (c.dynPipes j).pipeId → i = j
  gateIds : ∀ g h, (c.dynGates g).gateId ≠ 0 → (c.dynGates g).gateId = (c.dynGates h).gateId → g = h
  masks : ∀ g, (c.dynGates g).gateId ≠ 0 → ∀ i : Nat,
    (c.dynGates g).pipeInxMask.getLsbD i = true ↔
      ∃ h : i < nfaHciMaxPipeCb, (c.dynPipes ⟨i, h⟩).pipeId ≠ 0 ∧
        (c.dynPipes ⟨i, h⟩).localGate = (c.dynGates g).gateId

/-- The id of a gate block in use. -/
def DynGate.key (g : DynGate) : Option UInt8 := if g.gateId = 0 then none else some g.gateId

/-- The id of a pipe block in use. -/
def DynPipe.key (p : DynPipe) : Option UInt8 := if p.pipeId = 0 then none else some p.pipeId

/-- The gate a pipe block in use belongs to. -/
def DynPipe.home (p : DynPipe) : Option UInt8 := if p.pipeId = 0 then none else some p.localGate

theorem DynGate.key_eq_some {g : DynGate} {k : UInt8} :
    g.key = some k ↔ g.gateId ≠ 0 ∧ g.gateId = k := by
  unfold DynGate.key
  split <;> simp_all

theorem DynPipe.key_eq_some {p : DynPipe} {k : UInt8} :
    p.key = some k ↔ p.pipeId ≠ 0 ∧ p.pipeId = k := by
  unfold DynPipe.key
  split <;> simp_all

theorem DynPipe.home_eq_some {p : DynPipe} {k : UInt8} :
    p.home = some k ↔ p.pipeId ≠ 0 ∧ p.localGate = k := by
  unfold DynPipe.home
  split <;> simp_all

/-- A gate that is not in the table: the two static ones, and the id of a free block. -/
def Untabled (gate : UInt8) : Prop :=
  gate = 0 ∨ gate = nfaHciLoopBackGate ∨ gate = nfaHciIdentityManagementGate

instance (gate : UInt8) : Decidable (Untabled gate) := by unfold Untabled; infer_instance

theorem Untabled.low {gate : UInt8} (h : Untabled gate) :
    ¬ nfaHciFirstHostSpecificGenericGate ≤ gate := by
  rcases h with rfl | rfl | rfl <;> decide

/-- `Consistent`, with what the functions below need to keep it: where gate ids
start, and that no pipe in use has lost its gate. -/
structure Tables (gates : GateIx → DynGate) (pipes : PipeIx → DynPipe) : Prop where
  pipeIds : Distinct fun i => (pipes i).key
  gateIds : Distinct fun g => (gates g).key
  index : Indexes (fun g => (gates g).key)
    (fun g (i : PipeIx) => (gates g).pipeInxMask.getLsbD i = true) fun i => (pipes i).home
  high : ∀ g k, (gates g).key = some k → ∀ j, nfaHciMaxPipeCb ≤ j →
    (gates g).pipeInxMask.getLsbD j = false
  gateLow : ∀ g k, (gates g).key = some k → nfaHciFirstHostSpecificGenericGate ≤ k
  homed : ∀ i k, (pipes i).home = some k → Untabled k ∨ ∃ g, (gates g).key = some k

def Tab.Ok (t : Tab) : Prop := Tables t.cfg.dynGates t.cfg.dynPipes

theorem Tab.Ok.consistent {t : Tab} (h : t.Ok) : Consistent t.cfg where
  pipeIds i j hi hij :=
    h.pipeIds i j _ (DynPipe.key_eq_some.mpr ⟨hi, rfl⟩) (DynPipe.key_eq_some.mpr ⟨hij ▸ hi, hij.symm⟩)
  gateIds g g' hg hgg' :=
    h.gateIds g g' _ (DynGate.key_eq_some.mpr ⟨hg, rfl⟩)
      (DynGate.key_eq_some.mpr ⟨hgg' ▸ hg, hgg'.symm⟩)
  masks g hg i := by
    have hkey : (t.cfg.dynGates g).key = some (t.cfg.dynGates g).gateId :=
      DynGate.key_eq_some.mpr ⟨hg, rfl⟩
    by_cases hi : i < nfaHciMaxPipeCb
    · have hiff := h.index g _ hkey ⟨i, hi⟩
      rw [DynPipe.home_eq_some] at hiff
      exact hiff.trans ⟨fun hp => ⟨hi, hp⟩, fun ⟨_, hp⟩ => hp⟩
    · rw [h.high g _ hkey i (by omega)]
      constructor
      · intro hfalse
        exact absurd hfalse (by decide)
      · rintro ⟨hlt, -⟩
        exact absurd hlt hi

section Frames
variable {gates gates' : GateIx → DynGate} {pipes : PipeIx → DynPipe}

theorem Tables.freePipe (h : Tables gates pipes) (i : PipeIx) (x : DynPipe) (hx : x.pipeId = 0)
    (ids : ∀ g, (gates' g).gateId = (gates g).gateId)
    (struck : ∀ g k, (gates g).key = some k → ∀ j : Nat, (gates' g).pipeInxMask.getLsbD j =
      ((gates g).pipeInxMask.getLsbD j && decide (j ≠ i))) :
    Tables gates' (Function.update pipes i x) := by
  have hkey : ∀ g, (gates' g).key = (gates g).key := by intro g; simp [DynGate.key, ids g]
  have hxk : x.key = none := by simp [DynPipe.key, hx]
  have hxh : x.home = none := by simp [DynPipe.home, hx]
  have hkeys : (fun j => (Function.update pipes i x j).key) =
      Function.update (fun j => (pipes j).key) i none :=
    hxk ▸ Function.comp_update DynPipe.key pipes i x
  have hhomes : (fun j => (Function.update pipes i x j).home) =
      Function.update (fun j => (pipes j).home) i none :=
    hxh ▸ Function.comp_update DynPipe.home pipes i x
  constructor
  · rw [hkeys]
    exact h.pipeIds.update_none i
  · simpa only [hkey] using h.gateIds
  · simp only [hkey]
    rw [hhomes]
    apply h.index.free i
    intro g k hg j
    rw [struck g k hg j]
    simp [Fin.ext_iff]
  · intro g k hg j hj
    rw [hkey] at hg
    rw [struck g k hg j, h.high g k hg j hj]
    rfl
  · intro g k hg
    exact h.gateLow g k (hkey g ▸ hg)
  · intro j k hj
    simp only [hkey]
    rcases eq_or_ne j i with rfl | hji
    · rw [Function.update_self, hxh] at hj
      cases hj
    · rw [Function.update_of_ne hji] at hj
      exact h.homed j k hj

/-- A pipe block takes a pipe of the gate `x.localGate`, whose mask gets its bit. -/
theorem Tables.placePipe (h : Tables gates pipes) (i : PipeIx) (x : DynPipe)
    (hx : x.pipeId ≠ 0) (fresh : ∀ j, j ≠ i → (pipes j).pipeId ≠ x.pipeId)
    (ids : ∀ g, (gates' g).gateId = (gates g).gateId)
    (marked : ∀ g k, (gates g).key = some k → ∀ j : Nat, (gates' g).pipeInxMask.getLsbD j =
      ((gates g).pipeInxMask.getLsbD j || (decide (k = x.localGate) && decide (j = i))))
    (unlisted : ∀ g k, (gates g).key = some k → k ≠ x.localGate →
      (gates g).pipeInxMask.getLsbD i = false)
    (home : Untabled x.localGate ∨ ∃ g, (gates g).key = some x.localGate) :
    Tables gates' (Function.update pipes i x) := by
  have hkey : ∀ g, (gates' g).key = (gates g).key := by intro g; simp [DynGate.key, ids g]
  have hxk : x.key = some x.pipeId := DynPipe.key_eq_some.mpr ⟨hx, rfl⟩
  have hxh : x.home = some x.localGate := DynPipe.home_eq_some.mpr ⟨hx, rfl⟩
  have hkeys : (fun j => (Function.update pipes i x j).key) =
      Function.update (fun j => (pipes j).key) i (some x.pipeId) :=
    hxk ▸ Function.comp_update DynPipe.key pipes i x
  have hhomes : (fun j => (Function.update pipes i x j).home) =
      Function.update (fun j => (pipes j).home) i (some x.localGate) :=
    hxh ▸ Function.comp_update DynPipe.home pipes i x
  constructor
  · rw [hkeys]
    apply h.pipeIds.update_some
    intro j hji hj
    exact fresh j hji (DynPipe.key_eq_some.mp hj).2
  · simpa only [hkey] using h.gateIds
  · simp only [hkey]
    rw [hhomes]
    apply h.index.place i
    · intro g hg j
      rw [marked g _ hg j]
      simp [Fin.ext_iff]
    · intro g k hg hk j
      rw [marked g k hg j]
      simp [hk]
    · intro g k hg hk
      simp [unlisted g k hg hk]
  · intro g k hg j hj
    rw [hkey] at hg
    have hne : j ≠ i := by omega
    rw [marked g k hg j, h.high g k hg j hj]
    simp [hne]
  · intro g k hg
    exact h.gateLow g k (hkey g ▸ hg)
  · intro j k hj
    simp only [hkey]
    rcases eq_or_ne j i with rfl | hji
    · rw [Function.update_self, hxh, Option.some.injEq] at hj
      exact hj ▸ home
    · rw [Function.update_of_ne hji] at hj
      exact h.homed j k hj

/-- A gate block takes an id that is not in use. -/
theorem Tables.openGate (h : Tables gates pipes) (g : GateIx) (k : UInt8) (owner : UInt16)
    (hk : nfaHciFirstHostSpecificGenericGate ≤ k) (fresh : ∀ g', (gates g').gateId ≠ k)
    (hfree : (gates g).gateId = 0) :
    Tables (Function.update gates g ⟨k, owner, 0⟩) pipes := by
  have hk0 : k ≠ 0 := by
    rintro rfl
    exact absurd hk (by decide)
  have hxk : (DynGate.mk k owner 0).key = some k := DynGate.key_eq_some.mpr ⟨hk0, rfl⟩
  have hkeys : (fun g' => (Function.update gates g ⟨k, owner, 0⟩ g').key) =
      Function.update (fun g' => (gates g').key) g (some k) :=
    hxk ▸ Function.comp_update DynGate.key gates g _
  constructor
  · exact h.pipeIds
  · rw [hkeys]
    apply h.gateIds.update_some
    intro g' _ hg'
    exact fresh g' (DynGate.key_eq_some.mp hg').2
  · rw [hkeys]
    apply h.index.open_parent
    · simp
    · intro g' hg' j
      simp [hg']
    · -- a pipe of the gate `k` would still have it
      intro i hi
      rcases h.homed i k hi with hun | ⟨g', hg'⟩
      · exact hun.low hk
      · exact fresh g' (DynGate.key_eq_some.mp hg').2
  · intro g' k' hg' j hj
    rcases eq_or_ne g' g with rfl | hne
    · simp
    · rw [Function.update_of_ne hne] at hg' ⊢
      exact h.high g' k' hg' j hj
  · intro g' k' hg'
    rcases eq_or_ne g' g with rfl | hne
    · rw [Function.update_self, hxk, Option.some.injEq] at hg'
      exact hg' ▸ hk
    · rw [Function.update_of_ne hne] at hg'
      exact h.gateLow g' k' hg'
  · intro i k' hi
    apply (h.homed i k' hi).imp_right
    rintro ⟨g', hg'⟩
    have hne : g' ≠ g := by
      rintro rfl
      exact (DynGate.key_eq_some.mp hg').1 hfree
    exact ⟨g', by rw [Function.update_of_ne hne]; exact hg'⟩

/-- A gate block that no pipe in use names is freed. -/
theorem Tables.closeGate (h : Tables gates pipes) (g : GateIx)
    (empty : ∀ i, (pipes i).home ≠ some (gates g).gateId) :
    Tables (Function.update gates g DynGate.free) pipes := by
  have hkeys : (fun g' => (Function.update gates g DynGate.free g').key) =
      Function.update (fun g' => (gates g').key) g none :=
    Function.comp_update DynGate.key gates g DynGate.free
  constructor
  · exact h.pipeIds
  · rw [hkeys]
    exact h.gateIds.update_none g
  · rw [hkeys]
    apply h.index.close_parent
    intro g' hg' j
    simp [hg']
  · intro g' k' hg' j hj
    rcases eq_or_ne g' g with rfl | hne
    · simp [DynGate.free]
    · rw [Function.update_of_ne hne] at hg' ⊢
      exact h.high g' k' hg' j hj
  · intro g' k' hg'
    rcases eq_or_ne g' g with rfl | hne
    · rw [Function.update_self] at hg'
      cases hg'
    · rw [Function.update_of_ne hne] at hg'
      exact h.gateLow g' k' hg'
  · intro i k' hi
    apply (h.homed i k' hi).imp_right
    rintro ⟨g', hg'⟩
    have hne : g' ≠ g := by
      rintro rfl
      exact empty i ((DynGate.key_eq_some.mp hg').2 ▸ hi)
    exact ⟨g', by rw [Function.update_of_ne hne]; exact hg'⟩

/-- Owners and pipe states are no part of the agreement. -/
theorem Tables.congr {pipes' : PipeIx → DynPipe} (h : Tables gates pipes)
    (hg : ∀ g, (gates' g).gateId = (gates g).gateId ∧
      (gates' g).pipeInxMask = (gates g).pipeInxMask)
    (hp : ∀ i, (pipes' i).pipeId = (pipes i).pipeId ∧ (pipes' i).localGate = (pipes i).localGate) :
    Tables gates' pipes' := by
  have hkey : ∀ g, (gates' g).key = (gates g).key := by
    intro g
    simp [DynGate.key, (hg g).1]
  have hpkey : ∀ i, (pipes' i).key = (pipes i).key := by
    intro i
    simp [DynPipe.key, (hp i).1]
  have hhome : ∀ i, (pipes' i).home = (pipes i).home := by
    intro i
    simp [DynPipe.home, (hp i).1, (hp i).2]
  constructor
  · simpa only [hpkey] using h.pipeIds
  · simpa only [hkey] using h.gateIds
  · simpa only [hkey, hhome, (hg _).2] using h.index
  · simpa only [hkey, (hg _).2] using h.high
  · simpa only [hkey] using h.gateLow
  · simpa only [hkey, hhome] using h.homed

end Frames

/-! ## Each function keeps it -/

section Lookup
variable {t : Tab}

theorem findPipe_some {pipeId : UInt8} {i : PipeIx} (h : nfaHciuFindPipeByPid t pipeId = some i) :
    (t.pipe i).pipeId = pipeId := by
  simpa using firstSlot_holds h

theorem findPipe_none {pipeId : UInt8} :
    nfaHciuFindPipeByPid t pipeId = none ↔ ∀ i, (t.pipe i).pipeId ≠ pipeId := by
  simp [nfaHciuFindPipeByPid]

theorem findGate_some {gateId : UInt8} {g : GateIx} (h : nfaHciuFindGateByGid t gateId = some g) :
    (t.gate g).gateId = gateId := by
  simpa using firstSlot_holds h

theorem findGate_none {gateId : UInt8} :
    nfaHciuFindGateByGid t gateId = none ↔ ∀ g, (t.gate g).gateId ≠ gateId := by
  simp [nfaHciuFindGateByGid]

/-- A gate does not list the pipe of another gate. -/
theorem Tab.Ok.unlisted (h : t.Ok) {g : GateIx} {k : UInt8} (hg : (t.gate g).key = some k)
    {i : PipeIx} (hi : (t.pipe i).localGate ≠ k) :
    (t.gate g).pipeInxMask.getLsbD i = false := by
  rw [Bool.eq_false_iff]
  intro hbit
  exact hi (DynPipe.home_eq_some.mp ((h.index g k hg i).mp hbit)).2

theorem Tab.Ok.unlisted_free (h : t.Ok) {g : GateIx} {k : UInt8} (hg : (t.gate g).key = some k)
    {i : PipeIx} (hi : (t.pipe i).pipeId = 0) : (t.gate g).pipeInxMask.getLsbD i = false := by
  rw [Bool.eq_false_iff]
  intro hbit
  exact (DynPipe.home_eq_some.mp ((h.index g k hg i).mp hbit)).1 hi

end Lookup

section Pipes
variable {t : Tab}

/-- Striking a bit that is not set changes nothing. -/
theorem strike_unlisted {mask : BitVec 32} {i : Nat} (h : mask.getLsbD i = false) (j : Nat) :
    mask.getLsbD j = (mask.getLsbD j && decide (j ≠ i)) := by
  rcases eq_or_ne j i with rfl | hji
  · simp [h]
  · simp [hji]

theorem releasePipe_ok (h : t.Ok) (pipeId : UInt8) : (nfaHciuReleasePipe t pipeId).2.Ok := by
  unfold nfaHciuReleasePipe
  split
  · exact h
  · rename_i i hi
    split_ifs with hlast hid
    · exact h
    · -- no gate in the table lists a pipe of the identity management gate
      apply h.freePipe i DynPipe.free rfl (fun _ => rfl)
      intro g k hg
      apply strike_unlisted
      apply Tab.Ok.unlisted h hg
      intro heq
      rw [hid] at heq
      exact absurd (heq ▸ h.gateLow g k hg) (by decide)
    · split
      · -- the pipe's gate is not in the table
        rename_i hnone
        apply h.freePipe i _ rfl (fun _ => rfl)
        intro g k hg
        apply strike_unlisted
        apply Tab.Ok.unlisted h hg
        intro heq
        exact findGate_none.mp hnone g (heq ▸ (DynGate.key_eq_some.mp hg).2)
      · rename_i g0 hg0
        apply h.freePipe i DynPipe.free rfl
        · intro g
          rcases eq_or_ne g g0 with rfl | hne
          · simp [Tab.setGate, Tab.setPipe, Tab.nvWrite, Tab.gate]
          · simp [Tab.setGate, Tab.setPipe, Tab.nvWrite, hne]
        · intro g k hg j
          rcases eq_or_ne g g0 with rfl | hne
          · simp [Tab.setGate, Tab.setPipe, Tab.nvWrite, Tab.gate, getLsbD_clearBit]
          · -- another gate in use has another id
            have hother : (t.pipe i).localGate ≠ k := by
              intro heq
              apply hne
              apply h.gateIds g g0 k hg
              exact DynGate.key_eq_some.mpr ⟨(findGate_some hg0).trans heq ▸
                (DynGate.key_eq_some.mp hg).2 ▸ (DynGate.key_eq_some.mp hg).1,
                (findGate_some hg0).trans heq⟩
            simp only [Tab.setGate, Tab.setPipe, Tab.nvWrite, Function.update_of_ne hne]
            exact strike_unlisted (Tab.Ok.unlisted h hg hother) j

structure Fewer (t t' : Tab) : Prop where
  names : t'.cfg.regAppNames = t.cfg.regAppNames
  cbacks : t'.pAppCback = t.pAppCback
  pipes : ∀ i, (t'.pipe i).pipeId ≠ 0 → t'.pipe i = t.pipe i
  ids : ∀ g, (t'.gate g).gateId = (t.gate g).gateId
  owners : ∀ g, (t'.gate g).gateOwner = (t.gate g).gateOwner
  admin : t'.cfg.pipe01State = t.cfg.pipe01State
  link : t'.cfg.pipe00State = t.cfg.pipe00State
  idMgmt : ∀ j, t'.cfg.idMgmtMask.getLsbD j = true → t.cfg.idMgmtMask.getLsbD j = true

theorem Fewer.refl (t : Tab) : Fewer t t :=
  ⟨rfl, rfl, fun _ _ => rfl, fun _ => rfl, fun _ => rfl, rfl, rfl, fun _ h => h⟩

theorem releasePipe_fewer (t : Tab) (pipeId : UInt8) :
    Fewer t (nfaHciuReleasePipe t pipeId).2 := by
  unfold nfaHciuReleasePipe
  split
  · exact Fewer.refl t
  · rename_i i hi
    have hpipes : ∀ x : DynPipe, x.pipeId = 0 → ∀ j,
        (Function.update t.cfg.dynPipes i x j).pipeId ≠ 0 →
          Function.update t.cfg.dynPipes i x j = t.cfg.dynPipes j := by
      intro x hx j hj
      rcases eq_or_ne j i with rfl | hji
      · rw [Function.update_self] at hj
        exact absurd hx hj
      · rw [Function.update_of_ne hji]
    split_ifs with hlast hid
    · exact Fewer.refl t
    · refine ⟨rfl, rfl, hpipes _ rfl, fun _ => rfl, fun _ => rfl, rfl, rfl, ?_⟩
      intro j hj
      simp only [Tab.setPipe, Tab.nvWrite, getLsbD_clearBit, Bool.and_eq_true] at hj
      exact hj.1
    · split
      · exact ⟨rfl, rfl, hpipes _ rfl, fun _ => rfl, fun _ => rfl, rfl, rfl, fun _ h => h⟩
      · rename_i g0 hg0
        refine ⟨rfl, rfl, hpipes _ rfl, ?_, ?_, rfl, rfl, fun _ h => h⟩
        all_goals
          intro g
          rcases eq_or_ne g g0 with rfl | hne
          · simp [Tab.setGate, Tab.setPipe, Tab.nvWrite, Tab.gate]
          · simp [Tab.setGate, Tab.setPipe, Tab.nvWrite, Tab.gate, hne]

variable {pipeId : UInt8} {i : PipeIx}

/-- The block of a dynamic pipe that is released is free. -/
theorem releasePipe_frees
    (hfind : nfaHciuFindPipeByPid t pipeId = some i) (hdyn : ¬ nfaHciLastDynamicPipe < pipeId) :
    ((nfaHciuReleasePipe t pipeId).2.pipe i).pipeId = 0 := by
  unfold nfaHciuReleasePipe
  rw [hfind]
  dsimp only
  rw [if_neg hdyn]
  split_ifs
  · simp [Tab.setPipe, Tab.nvWrite, Tab.pipe, DynPipe.free]
  · split <;> simp [Tab.setPipe, Tab.setGate, Tab.nvWrite, Tab.pipe, DynPipe.free]

/-- A dynamic pipe that is released is gone. -/
theorem releasePipe_gone (h : Distinct fun i => (t.pipe i).key) (h0 : pipeId ≠ 0)
    (hdyn : ¬ nfaHciLastDynamicPipe < pipeId) (j : PipeIx) :
    ((nfaHciuReleasePipe t pipeId).2.pipe j).pipeId ≠ pipeId := by
  intro hj
  have hkept := (releasePipe_fewer t pipeId).pipes j (by rw [hj]; exact h0)
  rw [hkept] at hj
  -- so `j` is the block the search finds, which the function frees
  have hfind : nfaHciuFindPipeByPid t pipeId = some j := by
    match hf : nfaHciuFindPipeByPid t pipeId with
    | none => exact absurd hj (findPipe_none.mp hf j)
    | some i =>
      have hi := findPipe_some hf
      rw [h i j pipeId (DynPipe.key_eq_some.mpr ⟨hi ▸ h0, hi⟩)
        (DynPipe.key_eq_some.mpr ⟨hj ▸ h0, hj⟩)]
  have hfreed := releasePipe_frees hfind hdyn
  rw [hkept, hj] at hfreed
  exact h0 hfreed

/-- What `nfa_hciu_alloc_pipe` hands out: the block `i`, over a table `t1` from
which a pipe of the same id has been released. Its caller overwrites the block. -/
structure Alloc (t t1 t' : Tab) (pipeId : UInt8) (i : PipeIx) : Prop where
  ok : t1.Ok
  fewer : Fewer t t1
  cfg : ∀ x, (t'.setPipe i x).cfg = (t1.setPipe i x).cfg
  cbacks : t'.pAppCback = t1.pAppCback
  slot : ((t1.pipe i).pipeId = 0 ∧ ∀ j, j < i → (t1.pipe j).pipeId ≠ 0) ∨
    (nfaHciLastDynamicPipe < pipeId ∧ t1 = t ∧ (t.pipe i).pipeId = pipeId)
  fresh : pipeId ≠ 0 → ∀ j, j ≠ i → (t1.pipe j).pipeId ≠ pipeId

theorem takePipe_alloc {t1 : Tab} (h1 : t1.Ok) (hf : Fewer t t1)
    (hgone : pipeId ≠ 0 → ∀ j, (t1.pipe j).pipeId ≠ pipeId) {t' : Tab}
    (h : nfaHciuAllocPipe.takePipe pipeId t1 = (some i, t')) : Alloc t t1 t' pipeId i := by
  unfold nfaHciuAllocPipe.takePipe at h
  split at h
  · cases h
  · rename_i i' hi
    simp only [Prod.mk.injEq, Option.some.injEq] at h
    obtain ⟨rfl, rfl⟩ := h
    refine ⟨h1, hf, ?_, rfl, .inl ⟨findPipe_some hi, ?_⟩, fun h0 j _ => hgone h0 j⟩
    · intro x
      simp [Tab.setPipe, Tab.nvWrite]
    · intro j hj
      simpa using firstSlot_first hi j hj

theorem allocPipe_some (h : t.Ok) {t' : Tab}
    (ha : nfaHciuAllocPipe t pipeId = (some i, t')) : ∃ t1, Alloc t t1 t' pipeId i := by
  unfold nfaHciuAllocPipe at ha
  split at ha
  · rename_i i0 hi0
    split_ifs at ha with hlast
    · simp only [Prod.mk.injEq, Option.some.injEq] at ha
      obtain ⟨rfl, rfl⟩ := ha
      have hid := findPipe_some hi0
      refine ⟨t, h, Fewer.refl t, fun _ => rfl, rfl, .inr ⟨hlast, rfl, hid⟩, ?_⟩
      intro h0 j hj hjid
      exact hj (h.pipeIds j i0 pipeId (DynPipe.key_eq_some.mpr ⟨hjid ▸ h0, hjid⟩)
        (DynPipe.key_eq_some.mpr ⟨hid ▸ h0, hid⟩))
    · exact ⟨_, takePipe_alloc (releasePipe_ok h pipeId) (releasePipe_fewer t pipeId)
        (fun h0 => releasePipe_gone h.pipeIds h0 hlast) ha⟩
  · rename_i hnone
    exact ⟨t, takePipe_alloc h (Fewer.refl t) (fun _ => findPipe_none.mp hnone) ha⟩

theorem allocPipe_none (h : t.Ok) {t' : Tab}
    (ha : nfaHciuAllocPipe t pipeId = (none, t')) : t'.Ok ∧ Fewer t t' := by
  have htake : ∀ t1, nfaHciuAllocPipe.takePipe pipeId t1 = (none, t') → t' = t1 := by
    intro t1 h1
    unfold nfaHciuAllocPipe.takePipe at h1
    split at h1
    · exact (congrArg Prod.snd h1).symm
    · cases h1
  unfold nfaHciuAllocPipe at ha
  split at ha
  · split_ifs at ha with hlast
    · cases ha
    · rw [htake _ ha]
      exact ⟨releasePipe_ok h pipeId, releasePipe_fewer t pipeId⟩
  · rw [htake _ ha]
    exact ⟨h, Fewer.refl t⟩

/-- Handing out a block changes no id and no owner of a gate. -/
theorem allocPipe_gates (t : Tab) (pipeId : UInt8) (g : GateIx) :
    ((nfaHciuAllocPipe t pipeId).2.gate g).gateId = (t.gate g).gateId ∧
      ((nfaHciuAllocPipe t pipeId).2.gate g).gateOwner = (t.gate g).gateOwner := by
  have htake : ∀ t1 : Tab, (nfaHciuAllocPipe.takePipe pipeId t1).2.gate g = t1.gate g := by
    intro t1
    unfold nfaHciuAllocPipe.takePipe
    split <;> rfl
  have hf := releasePipe_fewer t pipeId
  unfold nfaHciuAllocPipe
  split
  · split
    · exact ⟨rfl, rfl⟩
    · rw [htake]
      exact ⟨hf.ids g, hf.owners g⟩
  · rw [htake]
    exact ⟨rfl, rfl⟩

theorem addPipeToGate_gates (t : Tab) (pipeId localGate destHost destGate : UInt8) (g : GateIx) :
    ((nfaHciuAddPipeToGate t pipeId localGate destHost destGate).2.gate g).gateId =
        (t.gate g).gateId ∧
      ((nfaHciuAddPipeToGate t pipeId localGate destHost destGate).2.gate g).gateOwner =
        (t.gate g).gateOwner := by
  have ha := allocPipe_gates t pipeId g
  unfold nfaHciuAddPipeToGate
  split
  · exact ⟨rfl, rfl⟩
  · rename_i g0 _
    split
    · rename_i t' heq
      rw [heq] at ha
      exact ha
    · rename_i i t' heq
      rw [heq] at ha
      rcases eq_or_ne g g0 with rfl | hne
      · simpa [Tab.setGate, Tab.setPipe, Tab.gate] using ha
      · simpa [Tab.setGate, Tab.setPipe, Tab.gate, hne] using ha

theorem addPipeToStaticGate_gates (t : Tab) (pipeId localGate destHost destGate : UInt8)
    (g : GateIx) :
    ((nfaHciuAddPipeToStaticGate t localGate pipeId destHost destGate).2.gate g).gateId =
        (t.gate g).gateId ∧
      ((nfaHciuAddPipeToStaticGate t localGate pipeId destHost destGate).2.gate g).gateOwner =
        (t.gate g).gateOwner := by
  have ha := allocPipe_gates t pipeId g
  unfold nfaHciuAddPipeToStaticGate
  split
  · rename_i t' heq
    rw [heq] at ha
    exact ha
  · rename_i i t' heq
    rw [heq] at ha
    dsimp only
    split <;> exact ha

/-- A pipe `pipeId` may be added to the gate `localGate`: id 0 would leave the
block free while its bit is set, and a pipe above the dynamic range that is in
use keeps its bit in the gate it had. -/
def PlaceOk (pipes : PipeIx → DynPipe) (pipeId localGate : UInt8) : Prop :=
  (pipeId = 0 → Untabled localGate ∨ ∀ i, (pipes i).pipeId ≠ 0) ∧
  (nfaHciLastDynamicPipe < pipeId → ∀ i, (pipes i).pipeId = pipeId →
    (pipes i).localGate = localGate ∨ Untabled (pipes i).localGate)

instance (pipes : PipeIx → DynPipe) (pipeId localGate : UInt8) :
    Decidable (PlaceOk pipes pipeId localGate) := by
  unfold PlaceOk
  infer_instance

theorem Alloc.gates {t1 t' : Tab} (ha : Alloc t t1 t' pipeId i) :
    t'.cfg.dynGates = t1.cfg.dynGates := by
  have h : (t'.setPipe i DynPipe.free).cfg.dynGates = (t1.setPipe i DynPipe.free).cfg.dynGates := by
    rw [ha.cfg DynPipe.free]
  exact h

theorem Alloc.pipes {t1 t' : Tab} (ha : Alloc t t1 t' pipeId i)
    (x : DynPipe) : (t'.setPipe i x).cfg.dynPipes = Function.update t1.cfg.dynPipes i x := by
  rw [ha.cfg x]
  rfl

/-- No gate but `localGate` lists the block that was handed out. -/
theorem Alloc.unlisted {t1 t' : Tab} {pipeId localGate : UInt8}
    (ha : Alloc t t1 t' pipeId i) (hp : PlaceOk t.cfg.dynPipes pipeId localGate) {g : GateIx} {k : UInt8}
    (hg : (t1.gate g).key = some k) (hk : k ≠ localGate) :
    (t1.gate g).pipeInxMask.getLsbD i = false := by
  rcases ha.slot with ⟨hfree, -⟩ | ⟨hlast, rfl, hid⟩
  · exact ha.ok.unlisted_free hg hfree
  · apply Tab.Ok.unlisted ha.ok hg
    rcases hp.2 hlast i hid with heq | hun
    · rw [show (t1.pipe i).localGate = localGate from heq]
      exact hk.symm
    · rintro rfl
      exact hun.low (ha.ok.gateLow g _ hg)

/-- Id 0 is only handed out when there is a free block. -/
theorem allocPipe_zero {t' : Tab} (ha : nfaHciuAllocPipe t 0 = (some i, t')) :
    ∃ j, (t.pipe j).pipeId = 0 := by
  unfold nfaHciuAllocPipe at ha
  split at ha
  · rename_i i0 hi0
    exact ⟨i0, findPipe_some hi0⟩
  · rename_i hnone
    simp [nfaHciuAllocPipe.takePipe, hnone] at ha

theorem allocPipe_zero_untabled {localGate : UInt8} {t' : Tab}
    (ha : nfaHciuAllocPipe t 0 = (some i, t')) (hp : PlaceOk t.cfg.dynPipes 0 localGate) :
    Untabled localGate := by
  obtain ⟨j, hj⟩ := allocPipe_zero ha
  rcases hp.1 rfl with hun | hall
  · exact hun
  · exact absurd hj (hall j)

/-- Writing the new pipe over the block that was handed out, with `gates'` the
gates after the mask of `localGate`, if it is in the table, got its bit. -/
theorem Alloc.write_ok {t1 t' : Tab} {pipeId localGate : UInt8}
    (ha : Alloc t t1 t' pipeId i) (hp : PlaceOk t.cfg.dynPipes pipeId localGate)
    (hzero : pipeId = 0 → Untabled localGate) (state host gate : UInt8)
    {gates' : GateIx → DynGate} (ids : ∀ g, (gates' g).gateId = (t1.gate g).gateId)
    (marked : ∀ g k, (t1.gate g).key = some k → ∀ j : Nat, (gates' g).pipeInxMask.getLsbD j =
      ((t1.gate g).pipeInxMask.getLsbD j || (decide (k = localGate) && decide (j = i))))
    (home : Untabled localGate ∨ ∃ g, (t1.gate g).key = some localGate) :
    Tables gates' (Function.update t1.cfg.dynPipes i ⟨pipeId, state, localGate, host, gate⟩) := by
  rcases eq_or_ne pipeId 0 with rfl | h0
  · -- the block stays free, and no gate in the table is marked
    apply Tables.freePipe ha.ok i _ rfl ids
    intro g k hg j
    have hk : k ≠ localGate := by
      rintro rfl
      exact (hzero rfl).low (ha.ok.gateLow g _ hg)
    rw [marked g k hg j, decide_eq_false hk, Bool.false_and, Bool.or_false]
    exact strike_unlisted (ha.unlisted hp hg hk) j
  · exact Tables.placePipe ha.ok i _ h0 (fun j hj => ha.fresh h0 j hj) ids marked
      (fun g k hg hk => ha.unlisted hp hg hk) home

theorem addPipeToGate_ok (h : t.Ok) {pipeId localGate : UInt8} (hp : PlaceOk t.cfg.dynPipes pipeId localGate)
    (destHost destGate : UInt8) :
    (nfaHciuAddPipeToGate t pipeId localGate destHost destGate).2.Ok := by
  unfold nfaHciuAddPipeToGate
  split
  · exact h
  · rename_i g0 hg0
    split
    · rename_i t' ha
      exact (allocPipe_none h ha).1
    · rename_i i t' ha
      have hzero : pipeId = 0 → Untabled localGate := by
        rintro rfl
        exact allocPipe_zero_untabled ha hp
      obtain ⟨t1, hA⟩ := allocPipe_some h ha
      -- the gate found before the allocation is still the first of its id
      have hid : (t1.gate g0).gateId = localGate := (hA.fewer.ids g0).trans (findGate_some hg0)
      have hgates := hA.gates
      show Tables _ (t'.setPipe i _).cfg.dynPipes
      rw [hA.pipes]
      apply hA.write_ok hp hzero
      · intro g
        rcases eq_or_ne g g0 with rfl | hne
        · simp [Tab.setGate, Tab.setPipe, Tab.gate, hgates]
        · simp [Tab.setGate, Tab.setPipe, Tab.gate, hgates, hne]
      · intro g k hg j
        rcases eq_or_ne g g0 with rfl | hne
        · have hk : k = localGate := (DynGate.key_eq_some.mp hg).2.symm.trans hid
          have hi : i.val < 32 := lt_trans i.isLt (by decide)
          simp [Tab.setGate, Tab.setPipe, Tab.gate, hgates, getLsbD_setBit _ hi, hk]
        · have hk : k ≠ localGate := by
            rintro rfl
            have hin := DynGate.key_eq_some.mp hg
            exact hne (hA.ok.gateIds g g0 _ hg (DynGate.key_eq_some.mpr ⟨hid ▸ hin.2 ▸ hin.1, hid⟩))
          simp [Tab.setGate, Tab.setPipe, Tab.gate, hgates, hne, hk]
      · by_cases h0 : localGate = 0
        · exact .inl (.inl h0)
        · exact .inr ⟨g0, DynGate.key_eq_some.mpr ⟨hid ▸ h0, hid⟩⟩

theorem addPipeToStaticGate_ok (h : t.Ok) {pipeId localGate : UInt8}
    (hp : PlaceOk t.cfg.dynPipes pipeId localGate) (hstatic : Untabled localGate) (destHost destGate : UInt8) :
    (nfaHciuAddPipeToStaticGate t localGate pipeId destHost destGate).2.Ok := by
  unfold nfaHciuAddPipeToStaticGate
  split
  · rename_i t' ha
    exact (allocPipe_none h ha).1
  · rename_i i t' ha
    obtain ⟨t1, hA⟩ := allocPipe_some h ha
    have hwrite : Tables t1.cfg.dynGates (Function.update t1.cfg.dynPipes i
        ⟨pipeId, nfaHciPipeClosed, localGate, destHost, destGate⟩) := by
      apply hA.write_ok hp (fun _ => hstatic) _ _ _ (fun _ => rfl) _ (.inl hstatic)
      intro g k hg j
      have hk : k ≠ localGate := by
        rintro rfl
        exact hstatic.low (hA.ok.gateLow g _ hg)
      simp [hk, Tab.gate]
    dsimp only
    split_ifs
    all_goals
      show Tables t'.cfg.dynGates (t'.setPipe i _).cfg.dynPipes
      rw [hA.gates, hA.pipes]
      exact hwrite

theorem removeAllPipesFromHost_keeps {I : Tab → Prop}
    (hI : ∀ t pipeId, I t → I (nfaHciuReleasePipe t pipeId).2) (h : I t) (host : UInt8) :
    I (nfaHciuRemoveAllPipesFromHost t host) := by
  unfold nfaHciuRemoveAllPipesFromHost
  apply List.foldlRecOn (motive := I) _ _ h
  intro t ht i _
  dsimp only
  split
  · exact ht
  · exact hI t _ ht

theorem setPipeState_ok (h : t.Ok) (i : PipeIx) (state : UInt8) : (t.setPipeState i state).Ok := by
  apply Tables.congr h (fun _ => ⟨rfl, rfl⟩)
  intro j
  rcases eq_or_ne j i with rfl | hne
  · simp [Tab.setPipeState, Tab.setPipe, Tab.pipe]
  · simp [Tab.setPipeState, Tab.setPipe, hne]

end Pipes

section Gates
variable {t : Tab}

variable {gateId : UInt8}

theorem takeGate_ok (h : t.Ok) (hid : nfaHciFirstHostSpecificGenericGate ≤ gateId)
    (hnone : nfaHciuFindGateByGid t gateId = none) {appHandle : UInt16} {g : GateIx} {t' : Tab}
    (ht : takeGate t gateId appHandle = some (g, t')) : t'.Ok := by
  unfold takeGate at ht
  rw [Option.map_eq_some_iff] at ht
  obtain ⟨g0, hg0, heq⟩ := ht
  obtain ⟨rfl, rfl⟩ := Prod.mk.inj heq
  exact Tables.openGate h g0 gateId appHandle hid (findGate_none.mp hnone) (findGate_some hg0)

theorem freeGateId_spec {id : UInt8} (h : freeGateId t = some id) :
    nfaHciFirstHostSpecificGenericGate ≤ id ∧ id ≠ nfaHciConnectivityGate ∧
      nfaHciuFindGateByGid t id = none := by
  have hp := List.find?_some h
  have hmem := List.mem_of_find?_eq_some h
  simp only [Bool.and_eq_true, bne_iff_ne, Option.isNone_iff_eq_none] at hp
  refine ⟨?_, hp⟩
  obtain ⟨n, hn, rfl⟩ := List.mem_map.mp hmem
  rw [List.mem_range'_1] at hn
  rw [UInt8.le_iff_toNat_le, UInt8.toNat_ofNat_of_lt' (by have : UInt8.size = 256 := rfl; omega)]
  exact hn.1

/-- What allocating a gate does: nothing, if the gate is there, or it takes a
free block for an id that is not in use. -/
theorem allocGate_cases {appHandle : UInt16} {g : GateIx} {t' : Tab}
    (hgate : gateId = 0 ∨ nfaHciFirstHostSpecificGenericGate ≤ gateId)
    (h : nfaHciuAllocGate t gateId appHandle = some (g, t')) :
    (t' = t ∧ gateId ≠ 0 ∧ (t.gate g).gateId = gateId) ∨
    ∃ id, nfaHciFirstHostSpecificGenericGate ≤ id ∧ nfaHciuFindGateByGid t id = none ∧
      (gateId ≠ 0 → id = gateId) ∧ takeGate t id appHandle = some (g, t') := by
  unfold nfaHciuAllocGate at h
  split_ifs at h with hbad h0
  · split at h
    · rename_i g0 hg0
      simp only [Option.some.injEq, Prod.mk.injEq] at h
      obtain ⟨rfl, rfl⟩ := h
      exact .inl ⟨rfl, h0, findGate_some hg0⟩
    · rename_i hnone
      exact .inr ⟨gateId, hgate.resolve_left h0, hnone, fun _ => rfl, h⟩
  · obtain ⟨id, hid, htake⟩ := Option.bind_eq_some_iff.mp h
    obtain ⟨hlow, -, hnone⟩ := freeGateId_spec hid
    exact .inr ⟨id, hlow, hnone, fun h' => absurd h' h0, htake⟩

theorem allocGate_ok (h : t.Ok) {appHandle : UInt16} {g : GateIx} {t' : Tab}
    (hgate : gateId = 0 ∨ nfaHciFirstHostSpecificGenericGate ≤ gateId)
    (ha : nfaHciuAllocGate t gateId appHandle = some (g, t')) : t'.Ok := by
  rcases allocGate_cases hgate ha with ⟨rfl, -, -⟩ | ⟨id, hid, hnone, -, htake⟩
  · exact h
  · exact takeGate_ok h hid hnone htake

theorem releaseGate_ok (h : t.Ok)
    (hempty : ∀ i, (t.pipe i).home ≠ some gateId) : (nfaHciuReleaseGate t gateId).Ok := by
  unfold nfaHciuReleaseGate
  split
  · exact h
  · rename_i g hg
    apply Tables.closeGate h g
    have hid := findGate_some hg
    intro i
    rw [show (t.cfg.dynGates g).gateId = gateId from hid]
    exact hempty i

theorem setOwner_ok (h : t.Ok) (g : GateIx) (owner : UInt16) : (t.setOwner g owner).Ok := by
  apply Tables.congr h _ (fun _ => ⟨rfl, rfl⟩)
  intro g'
  rcases eq_or_ne g' g with rfl | hne
  · simp [Tab.setOwner, Tab.setGate, Tab.gate]
  · simp [Tab.setOwner, Tab.setGate, hne]

end Gates

end NfcStack.Hci
