import NfcStack.Hci.Tables

/- The HCI task (`nfa_hci_act.cc`, `nfa_hci_main.cc` and the front end in
   `nfa_hci_api.cc`): requests of applications, commands and responses of the
   host controller on the administration pipe, and the response timer.

   Application calls are checked where they are made and reach the task through
   its mailbox; a request waits in `hci_api_q` until the task is idle.

   Left out: responses the device sends and notices to applications (they
   change nothing here), the registry and data requests, EE callbacks and the
   power mode. `none` is an index outside `p_app_cback`. -/
namespace NfcStack.Hci
open NfcStack.Lib

/-! ## Requests -/

/-- A call of an application, and its message to the HCI task. The sender of the
first two messages never writes their handle. -/
inductive Request where
  | register (hciHandle : UInt16) (appName : Bytes) (bSendConnEvts : Bool)
  | deregister (hciHandle : UInt16) (appName : Bytes)
  | allocGate (hciHandle : UInt16) (gate : UInt8)
  | deallocGate (hciHandle : UInt16) (gate : UInt8)
  | getHostList (hciHandle : UInt16)
  | createPipe (hciHandle : UInt16) (sourceGate destHost destGate : UInt8)
  | openPipe (hciHandle : UInt16) (pipe : UInt8)
  | closePipe (hciHandle : UInt16) (pipe : UInt8)
  | deletePipe (hciHandle : UInt16) (pipe : UInt8)
  | addStaticPipe (hciHandle : UInt16) (host gate pipe : UInt8)
  deriving DecidableEq, Repr

def Request.hciHandle : Request → UInt16
  | .register h _ _ | .deregister h _ | .allocGate h _ | .deallocGate h _ | .getHostList h
  | .createPipe h _ _ _ | .openPipe h _ | .closePipe h _ | .deletePipe h _
  | .addStaticPipe h _ _ _ => h

def nfaMaxHciAppNameLen : Nat := 16

/-- What `strlcpy(dst, src, NFA_MAX_HCI_APP_NAME_LEN)` leaves in `dst`. -/
def copyName (name : Bytes) : Bytes := name.take (nfaMaxHciAppNameLen - 1)

def isHciHandle (handle : UInt16) : Prop := handle &&& nfaHandleGroupMask = nfaHandleGroupHci

def isDynamicPipe (pipe : UInt8) : Prop :=
  nfaHciFirstDynamicPipe ≤ pipe ∧ pipe ≤ nfaHciLastDynamicPipe

/-- A gate at the far end of a pipe: generic, proprietary or one of the two static ones. -/
def isPeerGate (gate : UInt8) : Prop :=
  nfaHciFirstHostSpecificGenericGate ≤ gate ∨ gate = nfaHciLoopBackGate ∨
    gate = nfaHciIdentityManagementGate

instance (handle : UInt16) : Decidable (isHciHandle handle) := by
  unfold isHciHandle
  infer_instance

instance (pipe : UInt8) : Decidable (isDynamicPipe pipe) := by unfold isDynamicPipe; infer_instance

instance (gate : UInt8) : Decidable (isPeerGate gate) := by unfold isPeerGate; infer_instance

/-- What the front end has checked when a message is in the mailbox. -/
def Request.Checked : Request → Prop
  | .register _ name _ | .deregister _ name => name.length < nfaMaxHciAppNameLen ∧ 0 ∉ name
  | .allocGate h gate => isHciHandle h ∧ (gate = 0 ∨
      nfaHciFirstHostSpecificGenericGate ≤ gate ∧ gate ≠ nfaHciConnectivityGate)
  | .deallocGate h gate => isHciHandle h ∧ nfaHciFirstHostSpecificGenericGate ≤ gate ∧
      gate ≠ nfaHciConnectivityGate
  | .getHostList _ => True
  | .createPipe h sourceGate _ destGate => isHciHandle h ∧
      nfaHciFirstHostSpecificGenericGate ≤ sourceGate ∧ isPeerGate destGate
  | .openPipe h pipe | .closePipe h pipe | .deletePipe h pipe => isHciHandle h ∧ isDynamicPipe pipe
  | .addStaticPipe h _ gate pipe => isHciHandle h ∧ nfaHciLastHostSpecificGate < gate ∧
      nfaHciLastDynamicPipe < pipe

/-- A message in the mailbox or in a queue. -/
abbrev ApiRequest := { r : Request // r.Checked }

/-! ## The control block -/

/-- The fields of `nfa_hci_cb` that the functions below use. `activeHost` is the
hosts found so far, in order; the array is zero behind them. -/
structure HciCb extends Sender, Tab where
  numNfcee : UInt8
  numEeDisReqNtf : UInt8
  activeHost : List UInt8
  resetHost : Fin nfaHciMaxHostInNetwork → UInt8
  bHciNewSessionId : Bool
  bHciNetwkReset : Bool
  w4HciNetwkInit : Bool
  appInUse : UInt16
  localGateInUse : UInt8
  remoteGateInUse : UInt8
  remoteHostInUse : UInt8
  pipeInUse : UInt8
  hciApiQ : List ApiRequest
  hciHostResetApiQ : List ApiRequest

/-- A host other than the controller and the terminal. -/
def isOtherHost (host : UInt8) : Bool :=
  host == nfaHciHostIdUicc0 || nfaHciHostIdFirstDynamicallyAllocated ≤ host

def nfaHciuIsActiveHost (cb : HciCb) (host : UInt8) : Bool :=
  isOtherHost host && cb.activeHost.contains host

def nfaHciuIsHostReseting (cb : HciCb) (host : UInt8) : Bool :=
  isOtherHost host && (firstSlot fun x => cb.resetHost x == host).isSome

def nfaHciuIsNoHostResetting (cb : HciCb) : Bool := (firstSlot fun x => cb.resetHost x != 0).isNone

/-- The first registered name that starts with `name`: what
`strncmp(name, entry, strlen(name))` accepts. -/
def findApp (t : Tab) (name : Bytes) : Option AppIx :=
  firstSlot fun x => t.cfg.regAppNames x != [] && name.isPrefixOf (t.cfg.regAppNames x)

/-! ## The front end -/

section FrontEnd
variable (cb : HciCb)

def cstr (s : Bytes) : Bytes := s.takeWhile (· ≠ 0)

theorem cstr_copied (s : Bytes) :
    (copyName (cstr s)).length < nfaMaxHciAppNameLen ∧ 0 ∉ copyName (cstr s) := by
  constructor
  · simp only [copyName, nfaMaxHciAppNameLen, List.length_take]
    omega
  · intro hmem
    have := List.mem_takeWhile_imp (List.mem_of_mem_take hmem)
    simp at this

/-- `NFA_HciRegister`. The length is cut to a byte before it is compared. -/
def nfaHciRegister (garbage : UInt16) (appName : Bytes) (bSendConnEvts : Bool) :
    Option ApiRequest :=
  if cb.hciState ≠ .disabled ∧ (cstr appName).length % 256 ≤ nfaMaxHciAppNameLen then
    some ⟨.register garbage (copyName (cstr appName)) bSendConnEvts, cstr_copied appName⟩
  else none

def nfaHciDeregister (garbage : UInt16) (appName : Bytes) : Option ApiRequest :=
  if (cstr appName).length % 256 ≤ nfaMaxHciAppNameLen ∧
      (findApp cb.toTab ((cstr appName).take ((cstr appName).length % 256))).isSome ∧
      cb.hciState ≠ .disabled then
    some ⟨.deregister garbage (copyName (cstr appName)), cstr_copied appName⟩
  else none

/-- The other calls: their arguments are checked and sent as they are. -/
def sendChecked (r : Request) [Decidable r.Checked] (ready : Bool) : Option ApiRequest :=
  if h : r.Checked then if ready ∧ cb.hciState ≠ .disabled then some ⟨r, h⟩ else none else none

instance (r : Request) : Decidable r.Checked := by
  cases r <;> unfold Request.Checked <;> infer_instance

def nfaHciAllocGate (hciHandle : UInt16) (gate : UInt8) : Option ApiRequest :=
  sendChecked cb (.allocGate hciHandle gate) true

def nfaHciDeallocGate (hciHandle : UInt16) (gate : UInt8) : Option ApiRequest :=
  sendChecked cb (.deallocGate hciHandle gate) true

def nfaHciGetHostList (hciHandle : UInt16) : Option ApiRequest :=
  sendChecked cb (.getHostList hciHandle) (decide (isHciHandle hciHandle))

def nfaHciCreatePipe (hciHandle : UInt16) (sourceGate destHost destGate : UInt8) :
    Option ApiRequest :=
  sendChecked cb (.createPipe hciHandle sourceGate destHost destGate)
    (nfaHciuIsActiveHost cb destHost)

def nfaHciOpenPipe (hciHandle : UInt16) (pipe : UInt8) : Option ApiRequest :=
  sendChecked cb (.openPipe hciHandle pipe) true

def nfaHciClosePipe (hciHandle : UInt16) (pipe : UInt8) : Option ApiRequest :=
  sendChecked cb (.closePipe hciHandle pipe) true

def nfaHciDeletePipe (hciHandle : UInt16) (pipe : UInt8) : Option ApiRequest :=
  sendChecked cb (.deletePipe hciHandle pipe) true

def nfaHciAddStaticPipe (hciHandle : UInt16) (host gate pipe : UInt8) : Option ApiRequest :=
  sendChecked cb (.addStaticPipe hciHandle host gate pipe) (nfaHciuIsActiveHost cb host)

/-- The message a call sends, if it is accepted. -/
def apiCall : Request → Option ApiRequest
  | .register h name b => nfaHciRegister cb h name b
  | .deregister h name => nfaHciDeregister cb h name
  | .allocGate h gate => nfaHciAllocGate cb h gate
  | .deallocGate h gate => nfaHciDeallocGate cb h gate
  | .getHostList h => nfaHciGetHostList cb h
  | .createPipe h sourceGate destHost destGate =>
    nfaHciCreatePipe cb h sourceGate destHost destGate
  | .openPipe h pipe => nfaHciOpenPipe cb h pipe
  | .closePipe h pipe => nfaHciClosePipe cb h pipe
  | .deletePipe h pipe => nfaHciDeletePipe cb h pipe
  | .addStaticPipe h host gate pipe => nfaHciAddStaticPipe cb h host gate pipe

end FrontEnd

/-! ## Commands -/

/-- What sending the command `inst` does to the control block: nothing, if the
connection's buffers are too small, else it is awaited. -/
def sendCmd (cb : HciCb) (inst : UInt8) (payload : Bytes) : HciCb :=
  if cb.buffSize.toNat ≤ nciDataHdrSize + 2 then cb
  else
    { cb with
      toSender := awaitResponse
        (if inst = nfaHciAnyGetParameter then { cb.toSender with paramInUse := payload.headD 0 }
          else cb.toSender) nfaHciCommandType inst }

def nfaHciuSendCreatePipeCmd (cb : HciCb) (sourceGate destHost destGate : UInt8) : HciCb :=
  sendCmd cb nfaHciAdmCreatePipe [sourceGate, destHost, destGate]

def nfaHciuSendDeletePipeCmd (cb : HciCb) (pipe : UInt8) : HciCb :=
  if nfaHciLastDynamicPipe < pipe then cb
  else sendCmd { cb with pipeInUse := pipe } nfaHciAdmDeletePipe [pipe]

def nfaHciuSendClearAllPipeCmd (cb : HciCb) : HciCb := sendCmd cb nfaHciAdmClearAllPipe [0x02, 0x01]

def nfaHciuSendOpenPipeCmd (cb : HciCb) (pipe : UInt8) : HciCb :=
  sendCmd { cb with pipeInUse := pipe } nfaHciAnyOpenPipe []

def nfaHciuSendClosePipeCmd (cb : HciCb) (pipe : UInt8) : HciCb :=
  sendCmd { cb with pipeInUse := pipe } nfaHciAnyClosePipe []

def nfaHciuSendGetParamCmd (cb : HciCb) (index : UInt8) : HciCb :=
  sendCmd cb nfaHciAnyGetParameter [index]

/-- `nfa_hciu_send_set_param_cmd`; `sent` is whether the transport took the message. -/
def nfaHciuSendSetParamCmd (cb : HciCb) (sent : Bool) (index : UInt8) (value : Bytes) : HciCb :=
  let cb' := sendCmd cb nfaHciAnySetParameter (index :: value)
  if sent ∧ nciDataHdrSize + 2 < cb.buffSize.toNat then { cb' with paramInUse := index } else cb'

def nfaHciSessionIdentityIndex : UInt8 := 0x01
def nfaHciWhitelistIndex : UInt8 := 0x03
def nfaHciHostListIndex : UInt8 := 0x04
def nfaHciSessionIdLen : Nat := 8

/-! ## Requests of applications -/

/-- `xx | NFA_HANDLE_GROUP_HCI`. -/
def appHandle (x : AppIx) : UInt16 := UInt16.ofNat x.val ||| nfaHandleGroupHci

def Tab.setName (t : Tab) (x : AppIx) (name : Bytes) : Tab :=
  { t with cfg := { t.cfg with regAppNames := Function.update t.cfg.regAppNames x name } }

def Tab.setCback (t : Tab) (x : AppIx) (present : Bool) : Tab :=
  { t with pAppCback := Function.update t.pAppCback x present }

/-- The callback and the connectivity flag of a registered application. -/
def Tab.enroll (t : Tab) (x : AppIx) (bSendConnEvts : Bool) : Tab :=
  { t.setCback x true with
    cfg := { t.cfg with bSendConnEvts := Function.update t.cfg.bSendConnEvts x bSendConnEvts } }

/-- The table after a registration, the entry, and whether it was there before. -/
def registerApp (t : Tab) (name : Bytes) (bSendConnEvts : Bool) : Option (AppIx × Bool × Tab) :=
  match findApp t name with
  | some x => some (x, true, t.enroll x bSendConnEvts)
  | none =>
    (firstSlot fun x => t.cfg.regAppNames x == []).map fun x =>
      (x, false, ((t.setName x (copyName name)).nvWrite).enroll x bSendConnEvts)

/-- `nfa_hci_api_register`, with the handle it reports. -/
def nfaHciApiRegister (cb : HciCb) (name : Bytes) (bSendConnEvts : Bool) :
    Option UInt16 × HciCb :=
  match registerApp cb.toTab name bSendConnEvts with
  | none => (none, cb)
  | some (x, reused, t) =>
    (some (appHandle x),
      { cb with toTab := t, appInUse := if reused then appHandle x else cb.appInUse })

/-- `while ((p_gate = find (...)) != nullptr) nfa_hciu_release_gate (p_gate->gate_id)`. -/
def releaseGates (find : Tab → Option GateIx) : Nat → Tab → Option Tab
  | 0, _ => none
  | n + 1, t =>
    match find t with
    | none => some t
    | some g => releaseGates find n (nfaHciuReleaseGate t (t.gate g).gateId)

/-- The end of a deregistration that has no more pipe to delete. -/
def deregistered (cb : HciCb) (t : Tab) : HciCb :=
  { cb with
    toTab := t.nvWrite
    hciState := if cb.hciState = .appDeregister then .idle else cb.hciState }

/-- The part of `nfa_hci_api_deregister` after the application `x` is known. -/
def deregisterApp (cb : HciCb) (x : AppIx) : Option HciCb :=
  if (nfaHciuFindPipeByOwner cb.toTab cb.appInUse).isNone then
    (releaseGates (nfaHciuFindGateByOwner · cb.appInUse) (nfaHciMaxGateCb + 1) cb.toTab).map
      fun t => deregistered cb ((t.setName x []).setCback x false)
  else
    match nfaHciuFindActivePipeByOwner cb.toTab (nfaHciuIsActiveHost cb) cb.appInUse with
    | none =>
      (releaseGates (nfaHciuFindGateWithNopipesByOwner · cb.appInUse) (nfaHciMaxGateCb + 1)
        cb.toTab).map fun t => deregistered cb (t.setCback x false)
    | some i =>
      some (nfaHciuSendDeletePipeCmd { cb with hciState := .appDeregister } (cb.pipe i).pipeId)

/-- `nfa_hci_api_deregister`; without a name it goes on with `app_in_use`. -/
def nfaHciApiDeregister (cb : HciCb) : Option Bytes → Option HciCb
  | some name =>
    match findApp cb.toTab name with
    | none => some cb
    | some x => deregisterApp { cb with appInUse := appHandle x } x
  | none =>
    if h : (cb.appInUse &&& nfaHandleMask).toNat < nfaHciMaxAppCb then
      deregisterApp { cb with rspTimer := false } ⟨_, h⟩
    else none

def nfaHciApiAllocGate (cb : HciCb) (hciHandle : UInt16) (gate : UInt8) : HciCb :=
  match nfaHciuAllocGate cb.toTab gate hciHandle with
  | none => cb
  | some (g, t) =>
    { cb with toTab := if (t.gate g).gateOwner = 0 then t.setOwner g hciHandle else t }

/-- The end of a gate removal that has no more pipe to delete. -/
def gateRemoved (cb : HciCb) (t : Tab) : HciCb :=
  { cb with
    toTab := t.nvWrite
    hciState := if cb.hciState = .removeGate then .idle else cb.hciState }

/-- The part of `nfa_hci_api_dealloc_gate` after its gate and application are known. -/
def deallocGate (cb : HciCb) (gateId : UInt8) (hciHandle : UInt16) : HciCb :=
  match nfaHciuFindGateByGid cb.toTab gateId with
  | none => cb
  | some g =>
    if (cb.gate g).gateOwner ≠ hciHandle then cb
    else if (nfaHciuFindPipeOnGate cb.toTab (cb.gate g).gateId).isNone then
      gateRemoved cb (nfaHciuReleaseGate cb.toTab (cb.gate g).gateId)
    else
      match nfaHciuFindActivePipeOnGate cb.toTab (nfaHciuIsActiveHost cb) (cb.gate g).gateId with
      | none => gateRemoved cb cb.toTab
      | some i =>
        nfaHciuSendDeletePipeCmd
          { cb with
            localGateInUse := gateId
            appInUse := hciHandle
            hciState := .removeGate } (cb.pipe i).pipeId

/-- `nfa_hci_api_dealloc_gate`; without a request it goes on with the gate in use. -/
def nfaHciApiDeallocGate (cb : HciCb) : Option (UInt8 × UInt16) → HciCb
  | some (gate, hciHandle) => deallocGate cb gate hciHandle
  | none => deallocGate { cb with rspTimer := false } cb.localGateInUse cb.appInUse

def nfaHciApiGetHostList (cb : HciCb) (hciHandle : UInt16) : HciCb :=
  let cb := { cb with appInUse := hciHandle }
  if hciHandle = nfaHandleInvalid ∨ cb.hasCback (hciHandle &&& nfaHandleMask) then
    nfaHciuSendGetParamCmd cb nfaHciHostListIndex
  else cb

/-- `nfa_hci_api_create_pipe`. The reset check is made on the destination gate. -/
def nfaHciApiCreatePipe (cb : HciCb) (hciHandle : UInt16) (sourceGate destHost destGate : UInt8)
    (request : ApiRequest) : HciCb :=
  match nfaHciuFindGateByGid cb.toTab sourceGate with
  | none => cb
  | some g =>
    if (cb.gate g).gateOwner ≠ hciHandle ∨
        nfaHciuCheckPipeBetweenGates cb.toTab sourceGate destHost destGate then cb
    else if nfaHciuIsHostReseting cb destGate then
      { cb with hciHostResetApiQ := cb.hciHostResetApiQ ++ [request] }
    else
      nfaHciuSendCreatePipeCmd
        { cb with
          localGateInUse := sourceGate
          remoteGateInUse := destGate
          remoteHostInUse := destHost
          appInUse := hciHandle } sourceGate destHost destGate

/-- The pipe and whether the application may use it, as open, close and delete check. -/
def ownedPipe (cb : HciCb) (hciHandle : UInt16) (pipe : UInt8) : Option PipeIx :=
  (nfaHciuFindPipeByPid cb.toTab pipe).filter fun i =>
    match nfaHciuFindGateByGid cb.toTab (cb.pipe i).localGate with
    | none => false
    | some g => nfaHciuIsActiveHost cb (cb.pipe i).destHost && (cb.gate g).gateOwner == hciHandle

def nfaHciApiOpenPipe (cb : HciCb) (hciHandle : UInt16) (pipe : UInt8) : HciCb :=
  match ownedPipe cb hciHandle pipe with
  | none => cb
  | some i =>
    if (cb.pipe i).pipeState = nfaHciPipeClosed then nfaHciuSendOpenPipeCmd cb pipe else cb

def nfaHciApiClosePipe (cb : HciCb) (hciHandle : UInt16) (pipe : UInt8) : HciCb :=
  match ownedPipe cb hciHandle pipe with
  | none => cb
  | some i =>
    if (cb.pipe i).pipeState = nfaHciPipeOpened then nfaHciuSendClosePipeCmd cb pipe else cb

def nfaHciApiDeletePipe (cb : HciCb) (hciHandle : UInt16) (pipe : UInt8) : HciCb :=
  match ownedPipe cb hciHandle pipe with
  | none => cb
  | some _ => nfaHciuSendDeletePipeCmd cb pipe

/-- `nfa_hci_api_add_static_pipe`. If the pipe does not fit, the gate is
released, whether or not this call allocated it. -/
def nfaHciApiAddStaticPipe (cb : HciCb) (hciHandle : UInt16) (host gate pipe : UInt8) : HciCb :=
  match nfaHciuAllocGate cb.toTab gate hciHandle with
  | none => cb
  | some (g, t) =>
    let t := t.setOwner g hciHandle
    let gateId := (t.gate g).gateId
    let added := nfaHciuAddPipeToGate t pipe gateId host gate
    if added.1 ≠ nfaHciAnyOk then { cb with toTab := nfaHciuReleaseGate added.2 gateId }
    else
      match nfaHciuFindPipeByPid added.2 pipe with
      | none => { cb with toTab := added.2 }
      | some i => { cb with toTab := added.2.setPipeState i nfaHciPipeOpened }

/-- One turn of the loop of `nfa_hci_check_api_requests`. -/
def apiTurn (cb : HciCb) : Option HciCb :=
  if cb.hciState ≠ .idle then some cb
  else
    match cb.hciApiQ with
    | [] => some cb
    | request :: q =>
      let cb := { cb with hciApiQ := q, appInUse := request.1.hciHandle }
      match request.1 with
      | .register _ name b => some (nfaHciApiRegister cb name b).2
      | .deregister _ name => nfaHciApiDeregister cb (some name)
      | .allocGate h gate => some (nfaHciApiAllocGate cb h gate)
      | .deallocGate h gate => some (nfaHciApiDeallocGate cb (some (gate, h)))
      | .getHostList h => some (nfaHciApiGetHostList cb h)
      | .createPipe h sourceGate destHost destGate =>
        some (nfaHciApiCreatePipe cb h sourceGate destHost destGate request)
      | .openPipe h pipe => some (nfaHciApiOpenPipe cb h pipe)
      | .closePipe h pipe => some (nfaHciApiClosePipe cb h pipe)
      | .deletePipe h pipe => some (nfaHciApiDeletePipe cb h pipe)
      | .addStaticPipe h host gate pipe => some (nfaHciApiAddStaticPipe cb h host gate pipe)

/-- `nfa_hci_check_pending_api_requests`. Only pipe creations wait in this queue here. -/
def nfaHciCheckPendingApiRequests (cb : HciCb) : HciCb :=
  if cb.hciState ≠ .idle then cb
  else
    match cb.hciHostResetApiQ with
    | [] => cb
    | request :: q =>
      let cb := { cb with hciHostResetApiQ := q, appInUse := request.1.hciHandle }
      match request.1 with
      | .createPipe h sourceGate destHost destGate =>
        nfaHciApiCreatePipe cb h sourceGate destHost destGate request
      | _ => cb

/-! ## Start-up -/

structure Env where
  /-- `GKI_get_os_tick_count`, as the bytes in memory. -/
  osTick : Bytes
  /-- `NFC_SendData` takes the message. -/
  sent : Bool
  /-- The controller speaks NCI 2.0 or later. -/
  nci2 : Bool
  /-- For each NFCEE, whether it is inactive. -/
  eeInactive : List Bool
  /-- The configured allow list of hosts. -/
  allowlist : Bytes
  /-- `NAME_OFF_HOST_SIM_PIPE_IDS`. -/
  simPipeIds : List UInt8

def nfaHciStartupComplete (cb : HciCb) (ok : Bool) : HciCb :=
  { cb with rspTimer := false, hciState := if ok then .idle else .disabled }

def nfaHciDhStartupComplete (cb : HciCb) : HciCb :=
  if cb.w4HciNetwkInit then
    match cb.hciState with
    | .startup => { cb with hciState := .waitNetwkEnable, rspTimer := true }
    | .restore => { cb with hciState := .restoreNetwkEnable, rspTimer := true }
    | _ => cb
  else if 1 < cb.numNfcee ∧ cb.numEeDisReqNtf ≠ cb.numNfcee - 1 then { cb with rspTimer := true }
  else nfaHciuSendGetParamCmd cb nfaHciHostListIndex

def nfaHciEnableOneNfcee (cb : HciCb) (env : Env) : HciCb :=
  if env.eeInactive.any id then cb
  else
    match cb.hciState with
    | .waitNetwkEnable | .restoreNetwkEnable => nfaHciuSendGetParamCmd cb nfaHciHostListIndex
    | .eeRecovery => { cb with hciState := .idle }
    | _ => cb

/-- The host list of a response: the other hosts among its first six, each no
longer resetting. -/
def collectHosts (cb : HciCb) (data : Bytes) : HciCb :=
  let hosts := (data.take nfaHciMaxHostInNetwork).filter isOtherHost
  { cb with
    activeHost := hosts
    resetHost := hosts.foldl (fun reset host =>
      match firstSlot fun x => reset x == host with
      | none => reset
      | some x => Function.update reset x 0) cb.resetHost }

/-- The new session id: the tick count before the first half of the old one. -/
def newSessionId (cb : HciCb) (env : Env) : HciCb :=
  { cb with cfg := { cb.cfg with
    sessionId := env.osTick.take 4 ++ cb.cfg.sessionId.take (nfaHciSessionIdLen / 2) } }

/-- The two static pipes after all pipes were cleared. -/
def closeStatic (cb : HciCb) : HciCb :=
  { cb with cfg := { cb.cfg with
    pipe01State := nfaHciPipeClosed
    pipe00State := nfaHciPipeClosed } }

def setAdminState (cb : HciCb) (state : UInt8) : HciCb :=
  { cb with cfg := { cb.cfg with pipe01State := state } }

def setLinkState (cb : HciCb) (state : UInt8) : HciCb :=
  { cb with cfg := { cb.cfg with pipe00State := state } }

def HciCb.mapTab (cb : HciCb) (f : Tab → Tab) : HciCb := { cb with toTab := f cb.toTab }

/-! ## The administration gate -/

/-- The NOTIFY_PIPE_CREATED branch, with the response. -/
def notifyPipeCreated (t : Tab) (sourceHost sourceGate destGate pipe : UInt8) : UInt8 × Tab :=
  if destGate = nfaHciIdentityManagementGate ∨ destGate = nfaHciLoopBackGate then
    nfaHciuAddPipeToStaticGate t destGate pipe sourceHost sourceGate
  else if sourceHost = 0x02 ∧ destGate ≠ nfaHciConnectivityGate then (nfaHciAnyENok, t)
  else
    match nfaHciuFindGateByGid t destGate with
    | some _ =>
      if nfaHciuCheckPipeBetweenGates t destGate sourceHost sourceGate then (nfaHciAnyENok, t)
      else nfaHciuAddPipeToGate t pipe destGate sourceHost sourceGate
    | none =>
      if nfaHciFirstPropGate ≤ destGate ∧ destGate ≤ nfaHciLastPropGate then
        match nfaHciuAllocGate t destGate 0 with
        | none => (nfaHciAnyENok, t)
        | some (_, t) => nfaHciuAddPipeToGate t pipe destGate sourceHost sourceGate
      else (nfaHciAnyENok, t)

/-- A host that announced that its pipes are cleared is resetting. -/
def noteReset (cb : HciCb) (host : UInt8) : HciCb :=
  if isOtherHost host then
    match firstSlot fun x => cb.resetHost x == 0 with
    | none => cb
    | some x => { cb with resetHost := Function.update cb.resetHost x host }
  else cb

def nfaHciHandleAdminGateCmd (cb : HciCb) (inst : UInt8) (data : Bytes) : HciCb :=
  if inst = nfaHciAnyOpenPipe then setAdminState cb nfaHciPipeOpened
  else if inst = nfaHciAnyClosePipe then
    nfaHciuSendOpenPipeCmd { setAdminState cb nfaHciPipeClosed with appInUse := nfaHandleInvalid }
      nfaHciAdminPipe
  else if inst = nfaHciAdmNotifyPipeCreated then
    match data with
    | sourceHost :: sourceGate :: _ :: destGate :: pipe :: _ =>
      cb.mapTab fun t => (notifyPipeCreated t sourceHost sourceGate destGate pipe).2
    | _ => cb
  else if inst = nfaHciAdmNotifyPipeDeleted then
    match data with
    | pipe :: _ => cb.mapTab fun t => (nfaHciuReleasePipe t pipe).2
    | [] => cb
  else if inst = nfaHciAdmNotifyAllPipeCleared then
    match data with
    | sourceHost :: _ =>
      let cb := cb.mapTab (nfaHciuRemoveAllPipesFromHost · sourceHost)
      if sourceHost = nfaHciHostController then
        nfaHciuSendOpenPipeCmd { closeStatic cb with appInUse := nfaHandleInvalid } nfaHciAdminPipe
      else noteReset cb sourceHost
    | [] => cb
  else cb

/-- The start-up branch of `nfa_hci_handle_admin_gate_rsp`. -/
def startupRsp (cb : HciCb) (inst : UInt8) (data : Bytes) (env : Env) : HciCb :=
  if inst = nfaHciAnyEPipeNotOpened then nfaHciuSendOpenPipeCmd cb nfaHciAdminPipe
  else if inst ≠ nfaHciAnyOk then nfaHciStartupComplete cb false
  else if cb.cmdSent = nfaHciAnySetParameter then
    if cb.paramInUse = nfaHciSessionIdentityIndex then
      nfaHciuSendSetParamCmd cb env.sent nfaHciWhitelistIndex env.allowlist
    else if cb.paramInUse = nfaHciWhitelistIndex then
      let cb := if cb.hciState = .startup ∨ cb.hciState = .restore then nfaHciDhStartupComplete cb
        else cb
      if env.nci2 then
        nfaHciEnableOneNfcee
          { cb with
            hciState := .waitNetwkEnable
            numNfcee := UInt8.ofNat env.eeInactive.length } env
      else cb
    else cb
  else if cb.cmdSent = nfaHciAnyGetParameter then
    if cb.paramInUse = nfaHciHostListIndex then nfaHciStartupComplete (collectHosts cb data) true
    else if cb.paramInUse = nfaHciSessionIdentityIndex then
      if nfaHciSessionIdLen ≤ data.length ∧ data.take nfaHciSessionIdLen = cb.cfg.sessionId then
        nfaHciuSendSetParamCmd cb env.sent nfaHciWhitelistIndex env.allowlist
      else { nfaHciuSendClearAllPipeCmd cb with bHciNewSessionId := true }
    else cb
  else if cb.cmdSent = nfaHciAnyOpenPipe then
    let cb := setAdminState cb nfaHciPipeOpened
    if cb.bHciNetwkReset then
      { nfaHciuSendClearAllPipeCmd cb with bHciNetwkReset := false, bHciNewSessionId := true }
    else if cb.bHciNewSessionId then
      let cb := newSessionId { cb with bHciNewSessionId := false } env
      nfaHciuSendSetParamCmd cb env.sent nfaHciSessionIdentityIndex cb.cfg.sessionId
    else nfaHciuSendGetParamCmd cb nfaHciSessionIdentityIndex
  else if cb.cmdSent = nfaHciAdmClearAllPipe then
    nfaHciuSendOpenPipeCmd
      ((closeStatic (cb.mapTab (nfaHciuRemoveAllPipesFromHost · 0))).mapTab Tab.nvWrite)
      nfaHciAdminPipe
  else cb

/-- A deregistration or a gate removal that is under way goes on. -/
def goOn (cb : HciCb) : Option HciCb :=
  match cb.hciState with
  | .appDeregister => nfaHciApiDeregister cb none
  | .removeGate => some (nfaHciApiDeallocGate cb none)
  | _ => some cb

/-- The other branch of `nfa_hci_handle_admin_gate_rsp`. -/
def operationRsp (cb : HciCb) (inst : UInt8) (data : Bytes) (env : Env) : Option HciCb :=
  if cb.cmdSent = nfaHciAnySetParameter then goOn cb
  else if cb.cmdSent = nfaHciAnyGetParameter then
    if cb.paramInUse = nfaHciSessionIdentityIndex then
      if nfaHciSessionIdLen ≤ data.length ∧
          data.take nfaHciSessionIdLen = List.replicate nfaHciSessionIdLen 0xFF then
        let cb := (newSessionId cb env).mapTab Tab.nvWrite
        some (nfaHciuSendSetParamCmd cb env.sent nfaHciSessionIdentityIndex cb.cfg.sessionId)
      else goOn cb
    else if cb.paramInUse = nfaHciHostListIndex then
      let cb := collectHosts cb data
      some (if nfaHciuIsNoHostResetting cb then nfaHciCheckPendingApiRequests cb else cb)
    else some cb
  else if cb.cmdSent = nfaHciAdmCreatePipe then
    if inst = nfaHciAnyOk then
      match data with
      | _ :: sourceGate :: destHost :: destGate :: pipe :: _ =>
        if sourceGate ≠ cb.localGateInUse then some cb
        else some (cb.mapTab fun t => (nfaHciuAddPipeToGate t pipe sourceGate destHost destGate).2)
      | _ => some cb
    else some cb
  else if cb.cmdSent = nfaHciAdmDeletePipe then
    if inst = nfaHciAnyOk ∨ cb.hciState = .appDeregister ∨ cb.hciState = .removeGate then
      goOn (cb.mapTab fun t => (nfaHciuReleasePipe t cb.pipeInUse).2)
    else some cb
  else if cb.cmdSent = nfaHciAnyOpenPipe then
    if inst = nfaHciAnyOk then
      some (nfaHciuSendGetParamCmd ((setAdminState cb nfaHciPipeOpened).mapTab Tab.nvWrite)
        nfaHciSessionIdentityIndex)
    else some ((setAdminState cb nfaHciPipeClosed).mapTab Tab.nvWrite)
  else if cb.cmdSent = nfaHciAdmClearAllPipe then
    some (nfaHciuSendOpenPipeCmd
      ((closeStatic (cb.mapTab (nfaHciuRemoveAllPipesFromHost · 0))).mapTab Tab.nvWrite)
      nfaHciAdminPipe)
  else some cb

/-- `nfa_hci_handle_admin_gate_rsp`; its length argument is a byte. -/
def nfaHciHandleAdminGateRsp (cb : HciCb) (inst : UInt8) (data : Bytes) (env : Env) :
    Option HciCb :=
  let data := data.take (data.length % 256)
  match cb.hciState with
  | .startup | .restore | .waitNetwkEnable | .restoreNetwkEnable =>
    some (startupRsp cb inst data env)
  | _ => operationRsp cb inst data env

/-! ## The other pipes -/

def nfaHciHandleLinkMgmGateCmd (cb : HciCb) (inst : UInt8) (data : Bytes) : HciCb :=
  if cb.cfg.pipe00State ≠ nfaHciPipeOpened ∧ inst ≠ nfaHciAnyOpenPipe then cb
  else if inst = nfaHciAnySetParameter then
    match data with
    | index :: lo :: hi :: _ =>
      if index = 1 then
        { cb with cfg := { cb.cfg with recErrors := lo.toUInt16 + (hi.toUInt16 <<< 8) } }
      else cb
    | _ => cb
  else if inst = nfaHciAnyOpenPipe then setLinkState cb nfaHciPipeOpened
  else if inst = nfaHciAnyClosePipe then setLinkState cb nfaHciPipeClosed
  else cb

/-- An open or close command on a dynamic pipe. -/
def pipeOpenCloseCmd (cb : HciCb) (i : PipeIx) (inst : UInt8) : HciCb :=
  if inst = nfaHciAnyOpenPipe then cb.mapTab (·.setPipeState i nfaHciPipeOpened)
  else if inst = nfaHciAnyClosePipe then cb.mapTab (·.setPipeState i nfaHciPipeClosed)
  else cb

/-- The response to an open or close command of the device. -/
def pipeOpenCloseRsp (cb : HciCb) (i : PipeIx) (inst : UInt8) : HciCb :=
  if cb.cmdSent = nfaHciAnyOpenPipe ∧ inst = nfaHciAnyOk then
    cb.mapTab (·.setPipeState i nfaHciPipeOpened)
  else if cb.cmdSent = nfaHciAnyClosePipe then cb.mapTab (·.setPipeState i nfaHciPipeClosed)
  else cb

/-- `nfa_hci_handle_dyn_pipe_pkt` and the handlers it calls: the identity
management gate only takes commands, and only a response on a generic gate asks
for the configuration to be written. -/
def nfaHciHandleDynPipePkt (cb : HciCb) (pipeId type inst : UInt8) (env : Env) : HciCb :=
  match nfaHciuFindPipeByPid cb.toTab pipeId with
  | none => cb
  | some i =>
    let localGate := (cb.pipe i).localGate
    if localGate = nfaHciIdentityManagementGate then
      if type = nfaHciCommandType then pipeOpenCloseCmd cb i inst else cb
    else if localGate = nfaHciLoopBackGate ∨ env.simPipeIds.contains pipeId ∨
        localGate = nfaHciConnectivityGate then
      if type = nfaHciCommandType then pipeOpenCloseCmd cb i inst
      else if type = nfaHciResponseType then pipeOpenCloseRsp cb i inst
      else cb
    else if (nfaHciuFindGateByGid cb.toTab localGate).isNone then cb
    else if type = nfaHciCommandType then pipeOpenCloseCmd cb i inst
    else if type = nfaHciResponseType then
      if cb.cmdSent = nfaHciAnyOpenPipe ∨ cb.cmdSent = nfaHciAnyClosePipe then
        (pipeOpenCloseRsp cb i inst).mapTab Tab.nvWrite
      else cb
    else cb

/-! ## The task -/

/-- At start-up the connectivity gate is allocated. -/
def allocConnectivityGate (cb : HciCb) : HciCb :=
  if cb.hciState = .startup then
    match nfaHciuAllocGate cb.toTab nfaHciConnectivityGate 0 with
    | none => { cb with w4HciNetwkInit := true }
    | some (_, t) => { cb with w4HciNetwkInit := true, toTab := t }
  else cb

/-- `nfa_hci_conn_cback`, when the connection to the host controller is created. -/
def connCreated (cb : HciCb) (buffSize : UInt8) : HciCb :=
  let cb := allocConnectivityGate { cb with buffSize := buffSize }
  if cb.cfg.pipe01State = nfaHciPipeClosed then nfaHciuSendOpenPipeCmd cb nfaHciAdminPipe
  else nfaHciuSendGetParamCmd cb nfaHciSessionIdentityIndex

/-- `nfa_hci_conn_cback`, when a message is complete: `header` is its pipe byte,
`message` its type and instruction. -/
def connData (cb : HciCb) (header message : UInt8) (data : Bytes) (env : Env) : Option HciCb :=
  let pipe := header &&& 0x7F
  let type := (message >>> 6) &&& 0x03
  let inst := message &&& 0x3F
  let cb :=
    if cb.hciState = .waitNetwkEnable ∨ cb.hciState = .restoreNetwkEnable then
      { cb with rspTimer := cb.w4HciNetwkInit }
    else cb
  let cb :=
    if cb.hciState = .waitRsp ∧ type = nfaHciResponseType then
      { cb with rspTimer := false, hciState := .idle }
    else cb
  if pipe = nfaHciAdminPipe then
    if type = nfaHciCommandType then some (nfaHciHandleAdminGateCmd cb inst data)
    else if type = nfaHciResponseType then nfaHciHandleAdminGateRsp cb inst data env
    else some cb
  else if pipe = nfaHciLinkManagementPipe then
    if type = nfaHciCommandType then some (nfaHciHandleLinkMgmGateCmd cb inst data) else some cb
  else some (nfaHciHandleDynPipePkt cb pipe type inst env)

/-- A pipe whose command was not answered is deleted, and released at once. -/
def dropPipeInUse (cb : HciCb) : HciCb :=
  if cb.pipeInUse ≠ 0 ∧ cb.pipeInUse ≤ nfaHciLastDynamicPipe then
    (nfaHciuSendDeletePipeCmd cb cb.pipeInUse).mapTab fun t =>
      (nfaHciuReleasePipe t cb.pipeInUse).2
  else cb

def nfaHciRspTimeout (cb : HciCb) : Option HciCb :=
  match cb.hciState with
  | .startup | .restore => some (nfaHciStartupComplete cb false)
  | .waitNetwkEnable | .restoreNetwkEnable =>
    if cb.w4HciNetwkInit then
      some (nfaHciuSendGetParamCmd { cb with w4HciNetwkInit := false } nfaHciHostListIndex)
    else some (nfaHciStartupComplete cb false)
  | .removeGate =>
    if cb.cmdSent = nfaHciAdmDeletePipe then some (nfaHciuSendClearAllPipeCmd cb)
    else some (nfaHciApiDeallocGate (cb.mapTab (nfaHciuRemoveAllPipesFromHost · 0)) none)
  | .appDeregister =>
    if cb.cmdSent = nfaHciAdmDeletePipe then some (nfaHciuSendClearAllPipeCmd cb)
    else nfaHciApiDeregister (cb.mapTab (nfaHciuRemoveAllPipesFromHost · 0)) none
  | .waitRsp =>
    let cb := { cb with hciState := .idle }
    if cb.cmdSent = nfaHciAdmCreatePipe then some cb
    else if cb.cmdSent = nfaHciAdmDeletePipe then
      if cb.pipeInUse ≤ nfaHciLastDynamicPipe then
        some (cb.mapTab fun t => (nfaHciuReleasePipe t cb.pipeInUse).2)
      else some cb
    else some (dropPipeInUse cb)
  | _ => some cb

/-- `nfa_hci_check_api_requests`: each turn takes a request, so as many turns as
there are requests empty the queue. -/
def nfaHciCheckApiRequests (cb : HciCb) : Option HciCb :=
  run (fun cb (_ : Unit) => apiTurn cb) cb (List.replicate cb.hciApiQ.length ())

structure Task where
  cb : HciCb
  mailbox : List ApiRequest
  nv : Option HciCfg

/-- The end of `nfa_hci_evt_hdlr`, after the event itself is handled. -/
def Task.serve (s : Task) : Option Task :=
  (nfaHciCheckApiRequests s.cb).map fun cb =>
    let cb := if nfaHciuIsNoHostResetting cb then nfaHciCheckPendingApiRequests cb else cb
    if cb.hciState = .idle ∧ cb.nvWriteNeeded then
      { s with cb := { cb with nvWriteNeeded := false }, nv := some cb.cfg }
    else { s with cb := cb }

/-- What can happen: a call, the delivery of the next message, a check of the
queue, the response timer, and the packets of the connection. -/
inductive Event where
  | call (r : Request)
  | deliver
  | checkQueue
  | timeout
  | connCreated (buffSize : UInt8)
  | data (header message : UInt8) (payload : Bytes) (env : Env)

def Task.step (s : Task) : Event → Option Task
  | .call r => some { s with mailbox := s.mailbox ++ (apiCall s.cb r).toList }
  | .deliver =>
    match s.mailbox with
    | [] => some s
    | r :: rest =>
      { s with mailbox := rest, cb := { s.cb with hciApiQ := s.cb.hciApiQ ++ [r] } }.serve
  | .checkQueue => s.serve
  | .timeout => (nfaHciRspTimeout s.cb).bind fun cb => { s with cb := cb }.serve
  | .connCreated buffSize => some { s with cb := NfcStack.Hci.connCreated s.cb buffSize }
  | .data header message payload env =>
    (connData s.cb header message payload env).map fun cb => { s with cb := cb }

def nfaHciRestoreDefaultConfig (sessionId : Bytes) : HciCfg where
  regAppNames := fun _ => []
  dynGates := fun _ => DynGate.free
  dynPipes := fun _ => DynPipe.free
  bSendConnEvts := fun _ => false
  pipe01State := nfaHciPipeClosed
  sessionId := sessionId
  pipe00State := nfaHciPipeClosed
  recErrors := 0
  idMgmtMask := 0

/-- After `nfa_hci_init` and a configuration that was not there or not valid. -/
def Task.init (sessionId : Bytes) : Task where
  cb :=
    { buffSize := 0, paramInUse := 0, cmdSent := 0, hciState := .startup, rspTimer := false
      cfg := nfaHciRestoreDefaultConfig sessionId
      pAppCback := fun _ => false
      nvWriteNeeded := true
      numNfcee := UInt8.ofNat nfaHciMaxHostInNetwork
      numEeDisReqNtf := 0
      activeHost := []
      resetHost := fun _ => 0
      bHciNewSessionId := false
      bHciNetwkReset := true
      w4HciNetwkInit := false
      appInUse := 0
      localGateInUse := 0
      remoteGateInUse := 0
      remoteHostInUse := 0
      pipeInUse := 0
      hciApiQ := []
      hciHostResetApiQ := [] }
  mailbox := []
  nv := none

end NfcStack.Hci
