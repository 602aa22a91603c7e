import NfcStack.Hci.Apps

/- Requests that are directed at another host, and the queue they wait in while
   that host is resetting. A handler here reports what it puts on
   `hci_host_reset_api_q` and what it hands to `nfa_hciu_send_msg`.

   What is proved:
     1. `handle_open`, `handle_close`, `handle_delete`, `handle_create`: the control
        block is that of the handlers of `Actions`.
     2. `deferred_while_resetting`: a request that is accepted is deferred exactly
        while its host is resetting, unless it opens, closes or deletes a pipe. A
        pipe creation is left out where its host and its gate differ in being a
        resetting host, since the gate is what the code looks up.
     3. `open_not_deferred`: a pipe to a resetting host is opened at once. -/
namespace NfcStack.Hci
open NfcStack.Lib

/-! ## The requests -/

/-- A request that is directed at a host. The data of the last three is what the message holds. -/
inductive HostRequest where
  | createPipe (hciHandle : UInt16) (sourceGate destHost destGate : UInt8)
  | openPipe (hciHandle : UInt16) (pipe : UInt8)
  | closePipe (hciHandle : UInt16) (pipe : UInt8)
  | deletePipe (hciHandle : UInt16) (pipe : UInt8)
  | getRegistry (hciHandle : UInt16) (pipe regInx : UInt8)
  | setRegistry (hciHandle : UInt16) (pipe regInx : UInt8) (data : Bytes)
  | sendCmd (hciHandle : UInt16) (pipe cmdCode : UInt8) (data : Bytes)
  | sendEvent (hciHandle : UInt16) (pipe evtCode : UInt8) (pEvtBuf : Bytes) (rspLen : UInt16)
      (pRspBuf : Option Bytes) (rspTimeout : UInt16)
  deriving DecidableEq, Repr

structure EvtCb extends HciCb where
  w4RspEvt : Bool
  rspBufSize : UInt16
  pRspBuf : Option Bytes

structure Handled where
  cb : EvtCb
  queued : Option HostRequest
  msgs : List HcpMessage

def Handled.nothing (cb : EvtCb) : Handled := ⟨cb, none, []⟩

def Handled.defer (cb : EvtCb) (request : HostRequest) : Handled := ⟨cb, some request, []⟩

def Handled.command (cb : EvtCb) (pipe inst : UInt8) (payload : Bytes) : Handled :=
  ⟨{ cb with toHciCb := NfcStack.Hci.sendCmd cb.toHciCb inst payload }, none,
    [⟨pipe, nfaHciCommandType, inst, payload⟩]⟩

/-! ## The handlers -/

section Handlers
variable (sendMsg : HcpMessage → NfaStatus) (cb : EvtCb)

/-- `nfa_hci_api_create_pipe`. The reset check is made on the destination gate. -/
def apiCreatePipe (hciHandle : UInt16) (sourceGate destHost destGate : UInt8) : Handled :=
  match nfaHciuFindGateByGid cb.toTab sourceGate with
  | none => .nothing cb
  | some g =>
    if (cb.gate g).gateOwner ≠ hciHandle ∨
        nfaHciuCheckPipeBetweenGates cb.toTab sourceGate destHost destGate then .nothing cb
    else if nfaHciuIsHostReseting cb.toHciCb destGate then
      .defer cb (.createPipe hciHandle sourceGate destHost destGate)
    else
      .command
        { cb with
          localGateInUse := sourceGate
          remoteGateInUse := destGate
          remoteHostInUse := destHost
          appInUse := hciHandle } nfaHciAdminPipe nfaHciAdmCreatePipe [sourceGate, destHost, destGate]

def apiOpenPipe (hciHandle : UInt16) (pipe : UInt8) : Handled :=
  match ownedPipe cb.toHciCb hciHandle pipe with
  | none => .nothing cb
  | some i =>
    if (cb.pipe i).pipeState = nfaHciPipeClosed then
      .command { cb with pipeInUse := pipe } pipe nfaHciAnyOpenPipe []
    else .nothing cb

def apiClosePipe (hciHandle : UInt16) (pipe : UInt8) : Handled :=
  match ownedPipe cb.toHciCb hciHandle pipe with
  | none => .nothing cb
  | some i =>
    if (cb.pipe i).pipeState = nfaHciPipeOpened then
      .command { cb with pipeInUse := pipe } pipe nfaHciAnyClosePipe []
    else .nothing cb

def apiDeletePipe (hciHandle : UInt16) (pipe : UInt8) : Handled :=
  match ownedPipe cb.toHciCb hciHandle pipe with
  | none => .nothing cb
  | some _ =>
    if nfaHciLastDynamicPipe < pipe then .nothing cb
    else .command { cb with pipeInUse := pipe } nfaHciAdminPipe nfaHciAdmDeletePipe [pipe]

/-- `nfa_hci_api_get_reg_value` and `nfa_hci_api_set_reg_value`, which differ in the command. -/
def apiRegValue (request : HostRequest) (hciHandle : UInt16) (pipe regInx inst : UInt8)
    (payload : Bytes) : Handled :=
  match ownedPipe cb.toHciCb hciHandle pipe with
  | none => .nothing cb
  | some i =>
    let cb := { cb with appInUse := hciHandle }
    if nfaHciuIsHostReseting cb.toHciCb (cb.pipe i).destHost then .defer cb request
    else if (cb.pipe i).pipeState = nfaHciPipeClosed then .nothing cb
    else
      let handled := Handled.command cb pipe inst payload
      if sendMsg ⟨pipe, nfaHciCommandType, inst, payload⟩ = .ok then
        { handled with cb := { handled.cb with paramInUse := regInx } }
      else handled

def nfaHciuGetPipeOwner (t : Tab) (pipe : UInt8) : UInt16 :=
  match nfaHciuFindPipeByPid t pipe with
  | none => nfaHandleInvalid
  | some i =>
    match nfaHciuFindGateByGid t (t.pipe i).localGate with
    | none => nfaHandleInvalid
    | some g => (t.gate g).gateOwner

/-- The pipe, if its host is active and the application may send on it: the check of
`nfa_hci_api_send_cmd` and `nfa_hci_api_send_event`. -/
def sendPipe (hciHandle : UInt16) (pipe : UInt8) : Option PipeIx :=
  (nfaHciuFindPipeByPid cb.toTab pipe).filter fun i =>
    nfaHciuIsActiveHost cb.toHciCb (cb.pipe i).destHost &&
      (nfaHciuGetPipeOwner cb.toTab pipe == hciHandle ||
        (cb.pipe i).localGate == nfaHciConnectivityGate)

def apiSendCmd (hciHandle : UInt16) (pipe cmdCode : UInt8) (data : Bytes) : Handled :=
  match sendPipe cb hciHandle pipe with
  | none => .nothing cb
  | some i =>
    if nfaHciuIsHostReseting cb.toHciCb (cb.pipe i).destHost then
      .defer cb (.sendCmd hciHandle pipe cmdCode data)
    else if (cb.pipe i).pipeState = nfaHciPipeOpened then
      .command { cb with pipeInUse := pipe } (cb.pipe i).pipeId cmdCode data
    else .nothing cb

/-- What is kept of an event that was sent, to recognise its answer. -/
def awaitAnswer (pipe : UInt8) (loopback : Bool) (rspLen : UInt16) (pRspBuf : Option Bytes)
    (rspTimeout : UInt16) : EvtCb :=
  let cb := if loopback then { cb with w4RspEvt := true, hciState := .waitRsp } else cb
  if rspLen ≠ 0 then
    let cb := { cb with pipeInUse := pipe, rspBufSize := rspLen, pRspBuf := pRspBuf }
    if rspTimeout ≠ 0 then { cb with w4RspEvt := true, hciState := .waitRsp, rspTimer := true }
    else if loopback then { cb with rspTimer := true }
    else cb
  else
    let cb := if loopback then { cb with pipeInUse := pipe, rspTimer := true } else cb
    { cb with rspBufSize := 0, pRspBuf := none }

def apiSendEvent (hciHandle : UInt16) (pipe evtCode : UInt8) (pEvtBuf : Bytes) (rspLen : UInt16)
    (pRspBuf : Option Bytes) (rspTimeout : UInt16) : Handled :=
  match sendPipe cb hciHandle pipe with
  | none => .nothing cb
  | some i =>
    if nfaHciuIsHostReseting cb.toHciCb (cb.pipe i).destHost then
      .defer cb (.sendEvent hciHandle pipe evtCode pEvtBuf rspLen pRspBuf rspTimeout)
    else if (cb.pipe i).pipeState = nfaHciPipeOpened then
      let msg : HcpMessage := ⟨(cb.pipe i).pipeId, nfaHciEventType, evtCode, pEvtBuf⟩
      let cb :=
        if evtCode = nfaHciAnyGetParameter ∧ nciDataHdrSize + 2 < cb.buffSize.toNat then
          { cb with paramInUse := pEvtBuf.headD 0 }
        else cb
      let loopback := (cb.pipe i).localGate == nfaHciLoopBackGate
      ⟨if sendMsg msg = .ok then awaitAnswer cb pipe loopback rspLen pRspBuf rspTimeout else cb,
        none, [msg]⟩
    else .nothing cb

def handle : HostRequest → Handled
  | .createPipe h sourceGate destHost destGate => apiCreatePipe cb h sourceGate destHost destGate
  | .openPipe h pipe => apiOpenPipe cb h pipe
  | .closePipe h pipe => apiClosePipe cb h pipe
  | .deletePipe h pipe => apiDeletePipe cb h pipe
  | .getRegistry h pipe regInx =>
    apiRegValue sendMsg cb (.getRegistry h pipe regInx) h pipe regInx nfaHciAnyGetParameter [regInx]
  | .setRegistry h pipe regInx data =>
    apiRegValue sendMsg cb (.setRegistry h pipe regInx data) h pipe regInx nfaHciAnySetParameter
      (regInx :: data)
  | .sendCmd h pipe cmdCode data => apiSendCmd cb h pipe cmdCode data
  | .sendEvent h pipe evtCode pEvtBuf rspLen pRspBuf rspTimeout =>
    apiSendEvent sendMsg cb h pipe evtCode pEvtBuf rspLen pRspBuf rspTimeout

/-! ## The same control block -/

theorem handle_open (h : UInt16) (pipe : UInt8) :
    (handle sendMsg cb (.openPipe h pipe)).cb.toHciCb = nfaHciApiOpenPipe cb.toHciCb h pipe := by
  change (apiOpenPipe cb h pipe).cb.toHciCb = _
  unfold apiOpenPipe nfaHciApiOpenPipe
  cases ownedPipe cb.toHciCb h pipe with
  | none => rfl
  | some i =>
    dsimp only
    split_ifs
    · rfl
    · rfl

theorem handle_close (h : UInt16) (pipe : UInt8) :
    (handle sendMsg cb (.closePipe h pipe)).cb.toHciCb = nfaHciApiClosePipe cb.toHciCb h pipe := by
  change (apiClosePipe cb h pipe).cb.toHciCb = _
  unfold apiClosePipe nfaHciApiClosePipe
  cases ownedPipe cb.toHciCb h pipe with
  | none => rfl
  | some i =>
    dsimp only
    split_ifs
    · rfl
    · rfl

theorem handle_delete (h : UInt16) (pipe : UInt8) :
    (handle sendMsg cb (.deletePipe h pipe)).cb.toHciCb = nfaHciApiDeletePipe cb.toHciCb h pipe := by
  change (apiDeletePipe cb h pipe).cb.toHciCb = _
  unfold apiDeletePipe nfaHciApiDeletePipe nfaHciuSendDeletePipeCmd
  cases ownedPipe cb.toHciCb h pipe with
  | none => rfl
  | some i =>
    dsimp only
    split_ifs
    · rfl
    · rfl

theorem handle_create (request : ApiRequest) (h : UInt16) (s d g : UInt8) :
    nfaHciApiCreatePipe cb.toHciCb h s d g request =
      let handled := handle sendMsg cb (.createPipe h s d g)
      if handled.queued.isSome then
        { handled.cb.toHciCb with hciHostResetApiQ := cb.hciHostResetApiQ ++ [request] }
      else handled.cb.toHciCb := by
  change _ = let handled := apiCreatePipe cb h s d g
    if handled.queued.isSome then
      { handled.cb.toHciCb with hciHostResetApiQ := cb.hciHostResetApiQ ++ [request] }
    else handled.cb.toHciCb
  unfold apiCreatePipe nfaHciApiCreatePipe
  cases nfaHciuFindGateByGid cb.toTab s with
  | none => rfl
  | some i =>
    dsimp only
    by_cases hrefused : (cb.gate i).gateOwner ≠ h ∨ nfaHciuCheckPipeBetweenGates cb.toTab s d g
    · rw [if_pos hrefused, if_pos hrefused]
      rfl
    · rw [if_neg hrefused, if_neg hrefused]
      by_cases hreset : nfaHciuIsHostReseting cb.toHciCb g
      · rw [if_pos hreset, if_pos hreset]
        rfl
      · rw [if_neg hreset, if_neg hreset]
        rfl

/-! ## Deferral -/

/-- The host a request is directed at. -/
def target : HostRequest → Option UInt8
  | .createPipe _ _ destHost _ => some destHost
  | .openPipe _ pipe | .closePipe _ pipe | .deletePipe _ pipe | .getRegistry _ pipe _
  | .setRegistry _ pipe _ _ | .sendCmd _ pipe _ _ | .sendEvent _ pipe _ _ _ _ _ =>
    (nfaHciuFindPipeByPid cb.toTab pipe).map fun i => (cb.pipe i).destHost

/-- The host a request is directed at is resetting. -/
def TargetResetting (r : HostRequest) : Prop :=
  ∃ host ∈ target cb r, nfaHciuIsHostReseting cb.toHciCb host = true

/-- The application may make the request. -/
def Accepted : HostRequest → Prop
  | .createPipe h sourceGate destHost destGate =>
    (∃ g ∈ nfaHciuFindGateByGid cb.toTab sourceGate, (cb.gate g).gateOwner = h) ∧
      nfaHciuCheckPipeBetweenGates cb.toTab sourceGate destHost destGate = false
  | .openPipe h pipe | .closePipe h pipe | .deletePipe h pipe | .getRegistry h pipe _
  | .setRegistry h pipe _ _ => (ownedPipe cb.toHciCb h pipe).isSome = true
  | .sendCmd h pipe _ _ | .sendEvent h pipe _ _ _ _ _ => (sendPipe cb h pipe).isSome = true

/-- Its host, or the gate that is looked up instead, makes no difference to a creation. -/
def SameReset : HostRequest → Prop
  | .createPipe _ _ destHost destGate =>
    nfaHciuIsHostReseting cb.toHciCb destHost = nfaHciuIsHostReseting cb.toHciCb destGate
  | _ => True

end Handlers

/-- All requests but opening, closing and deleting a pipe. -/
def HostRequest.Deferrable : HostRequest → Bool
  | .openPipe _ _ | .closePipe _ _ | .deletePipe _ _ => false
  | _ => true

/-- What handling a request comes to: it is deferred, or not queued; and what is refused sends
nothing. -/
structure Right (cb : EvtCb) (r : HostRequest) (x : Handled) : Prop where
  deferred : r.Deferrable = true → Accepted cb r → TargetResetting cb r →
    x.queued = some r ∧ x.msgs = []
  notQueued : ¬ (r.Deferrable = true ∧ Accepted cb r ∧ TargetResetting cb r) → x.queued = none
  refused : ¬ Accepted cb r → x.msgs = []

section Deferral
variable {sendMsg : HcpMessage → NfaStatus} {cb : EvtCb} {r : HostRequest} {x : Handled}

theorem right_refused (ha : ¬ Accepted cb r) : Right cb r (.nothing cb) where
  deferred _ h := absurd h ha
  notQueued _ := rfl
  refused _ := rfl

theorem right_defer (hd : r.Deferrable = true) (ha : Accepted cb r) (ht : TargetResetting cb r)
    (cb' : EvtCb) : Right cb r (.defer cb' r) where
  deferred _ _ _ := ⟨rfl, rfl⟩
  notQueued hno := absurd ⟨hd, ha, ht⟩ hno
  refused hno := absurd ha hno

theorem right_now (ha : Accepted cb r) (hq : x.queued = none)
    (hno : r.Deferrable = true → ¬ TargetResetting cb r) : Right cb r x where
  deferred hd _ ht := absurd ht (hno hd)
  notQueued _ := hq
  refused h := absurd ha h

variable {pipe : UInt8}

theorem targetResetting_pipe {i : PipeIx}
    (ht : target cb r = (nfaHciuFindPipeByPid cb.toTab pipe).map fun i => (cb.pipe i).destHost)
    (hi : nfaHciuFindPipeByPid cb.toTab pipe = some i) :
    TargetResetting cb r ↔ nfaHciuIsHostReseting cb.toHciCb (cb.pipe i).destHost = true := by
  unfold TargetResetting
  rw [ht, hi]
  simp

variable {h : UInt16}

theorem ownedPipe_find {i : PipeIx}
    (hi : ownedPipe cb.toHciCb h pipe = some i) : nfaHciuFindPipeByPid cb.toTab pipe = some i :=
  (Option.filter_eq_some_iff.mp hi).1

theorem sendPipe_find {i : PipeIx} (hi : sendPipe cb h pipe = some i) :
    nfaHciuFindPipeByPid cb.toTab pipe = some i :=
  (Option.filter_eq_some_iff.mp hi).1

theorem right_create (h : UInt16) (s d g : UInt8) (hsame : SameReset cb (.createPipe h s d g)) :
    Right cb (.createPipe h s d g) (apiCreatePipe cb h s d g) := by
  have htarget : TargetResetting cb (.createPipe h s d g) ↔
      nfaHciuIsHostReseting cb.toHciCb g = true := by
    change (∃ host ∈ some d, _) ↔ _
    rw [← hsame]
    simp
  unfold apiCreatePipe
  cases hgate : nfaHciuFindGateByGid cb.toTab s with
  | none =>
    apply right_refused
    rintro ⟨⟨i, hi, _⟩, _⟩
    rw [hgate] at hi
    cases hi
  | some i =>
    dsimp only
    split_ifs with hrefused hreset
    · apply right_refused
      rintro ⟨⟨j, hj, howner⟩, hpipe⟩
      obtain rfl := Option.some.inj (hgate.symm.trans hj)
      rcases hrefused with hno | hyes
      · exact hno howner
      · rw [hpipe] at hyes
        cases hyes
    all_goals
      rw [not_or, not_not, Bool.not_eq_true] at hrefused
      have ha : Accepted cb (.createPipe h s d g) := ⟨⟨i, hgate, hrefused.1⟩, hrefused.2⟩
    · exact right_defer rfl ha (htarget.mpr hreset) cb
    · exact right_now ha rfl fun _ => mt htarget.mp hreset

theorem right_reg {pipe regInx inst : UInt8} {payload : Bytes}
    (hd : r.Deferrable = true) (ha : Accepted cb r ↔ (ownedPipe cb.toHciCb h pipe).isSome = true)
    (ht : target cb r = (nfaHciuFindPipeByPid cb.toTab pipe).map fun i => (cb.pipe i).destHost) :
    Right cb r (apiRegValue sendMsg cb r h pipe regInx inst payload) := by
  unfold apiRegValue
  cases hown : ownedPipe cb.toHciCb h pipe with
  | none =>
    apply right_refused
    rw [ha, hown]
    simp
  | some i =>
    have ha' : Accepted cb r := by
      rw [ha, hown]
      rfl
    have htarget := targetResetting_pipe ht (ownedPipe_find hown)
    dsimp only
    split_ifs with hreset hclosed hok
    · exact right_defer hd ha' (htarget.mpr hreset) _
    all_goals exact right_now ha' rfl fun _ => mt htarget.mp hreset

theorem right_owned {f : PipeIx → Handled} (hd : r.Deferrable = false)
    (ha : Accepted cb r ↔ (ownedPipe cb.toHciCb h pipe).isSome = true)
    (hx : ∀ i, (f i).queued = none) :
    Right cb r (match ownedPipe cb.toHciCb h pipe with | none => .nothing cb | some i => f i) := by
  cases hown : ownedPipe cb.toHciCb h pipe with
  | none =>
    apply right_refused
    rw [ha, hown]
    simp
  | some i =>
    apply right_now (by rw [ha, hown]; rfl) (hx i)
    rw [hd]
    intro hfalse
    cases hfalse

theorem right_send {f : PipeIx → Handled} (hd : r.Deferrable = true)
    (ha : Accepted cb r ↔ (sendPipe cb h pipe).isSome = true)
    (ht : target cb r = (nfaHciuFindPipeByPid cb.toTab pipe).map fun i => (cb.pipe i).destHost)
    (hx : ∀ i, (f i).queued = none) :
    Right cb r (match sendPipe cb h pipe with
      | none => .nothing cb
      | some i =>
        if nfaHciuIsHostReseting cb.toHciCb (cb.pipe i).destHost then .defer cb r else f i) := by
  cases hpipe : sendPipe cb h pipe with
  | none =>
    apply right_refused
    rw [ha, hpipe]
    simp
  | some i =>
    have ha' : Accepted cb r := by
      rw [ha, hpipe]
      rfl
    have htarget := targetResetting_pipe ht (sendPipe_find hpipe)
    dsimp only
    split_ifs with hreset
    · exact right_defer hd ha' (htarget.mpr hreset) cb
    · exact right_now ha' (hx i) fun _ => mt htarget.mp hreset

theorem deferred_while_resetting (sendMsg : HcpMessage → NfaStatus) (cb : EvtCb) (r : HostRequest)
    (hsame : SameReset cb r) : Right cb r (handle sendMsg cb r) := by
  cases r with
  | createPipe h s d g => exact right_create h s d g hsame
  | openPipe h pipe =>
    apply right_owned rfl Iff.rfl
    intro i
    split_ifs <;> rfl
  | closePipe h pipe =>
    apply right_owned rfl Iff.rfl
    intro i
    split_ifs <;> rfl
  | deletePipe h pipe =>
    apply right_owned rfl Iff.rfl
    intro i
    split_ifs <;> rfl
  | getRegistry h pipe regInx => exact right_reg rfl Iff.rfl rfl
  | setRegistry h pipe regInx data => exact right_reg rfl Iff.rfl rfl
  | sendCmd h pipe cmdCode data =>
    apply right_send rfl Iff.rfl rfl
    intro i
    split_ifs <;> rfl
  | sendEvent h pipe evtCode pEvtBuf rspLen pRspBuf rspTimeout =>
    apply right_send rfl Iff.rfl rfl
    intro i
    split_ifs <;> rfl

end Deferral

/-- The control block of the task, with no event under way. -/
def EvtCb.of (cb : HciCb) : EvtCb := ⟨cb, false, 0, none⟩

/-- The task starts up with one other host, an application allocates a gate, and the host resets
and announces a pipe to that gate. -/
def resetThenPipe : List Event :=
  .connCreated 0x20 :: List.replicate 5 (.data 0x81 0x80 [] quietEnv) ++
    [.data 0x81 0x80 [0x80] quietEnv, .call (.allocGate 0x0800 0xF0), .deliver,
      .data 0x81 0x15 [0x80] quietEnv, .data 0x81 0x12 [0x80, 0x10, 0x01, 0xF0, 0x21] quietEnv]

/-- While the host resets, a pipe to it and an event to it are put on the queue. -/
theorem deferred_while_resetting_start :
    ∃ s, run Task.step (Task.init []) resetThenPipe = some s ∧
      nfaHciuIsHostReseting s.cb 0x80 = true ∧
      Right (.of s.cb) (.createPipe 0x0800 0xF0 0x80 0x80)
        (handle (fun _ => .ok) (.of s.cb) (.createPipe 0x0800 0xF0 0x80 0x80)) ∧
      (handle (fun _ => .ok) (.of s.cb) (.createPipe 0x0800 0xF0 0x80 0x80)).queued =
        some (.createPipe 0x0800 0xF0 0x80 0x80) ∧
      Right (.of s.cb) (.sendEvent 0x0800 0x21 0x10 [1] 0 none 0)
        (handle (fun _ => .ok) (.of s.cb) (.sendEvent 0x0800 0x21 0x10 [1] 0 none 0)) ∧
      (handle (fun _ => .ok) (.of s.cb) (.sendEvent 0x0800 0x21 0x10 [1] 0 none 0)).queued =
        some (.sendEvent 0x0800 0x21 0x10 [1] 0 none 0) := by
  obtain ⟨s, hs⟩ : ∃ s, run Task.step (Task.init []) resetThenPipe = some s := ⟨_, rfl⟩
  have hread : (run Task.step (Task.init []) resetThenPipe).map (fun s =>
      (nfaHciuIsHostReseting s.cb 0x80,
        (handle (fun _ => .ok) (.of s.cb) (.createPipe 0x0800 0xF0 0x80 0x80)).queued,
        (handle (fun _ => .ok) (.of s.cb) (.sendEvent 0x0800 0x21 0x10 [1] 0 none 0)).queued)) =
      some (true, some (.createPipe 0x0800 0xF0 0x80 0x80),
        some (.sendEvent 0x0800 0x21 0x10 [1] 0 none 0)) := by
    decide +kernel
  rw [hs, Option.map_some, Option.some.injEq, Prod.mk.injEq, Prod.mk.injEq] at hread
  obtain ⟨hreset, hcreate, hsend⟩ := hread
  exact ⟨s, hs, hreset, deferred_while_resetting _ _ _ rfl, hcreate,
    deferred_while_resetting _ _ _ trivial, hsend⟩

theorem open_not_deferred :
    ∃ s, run Task.step (Task.init []) resetThenPipe = some s ∧
      TargetResetting (.of s.cb) (.openPipe 0x0800 0x21) ∧
      (handle (fun _ => .ok) (.of s.cb) (.openPipe 0x0800 0x21)).queued = none ∧
      (handle (fun _ => .ok) (.of s.cb) (.openPipe 0x0800 0x21)).msgs =
        [⟨0x21, nfaHciCommandType, nfaHciAnyOpenPipe, []⟩] := by
  obtain ⟨s, hs⟩ : ∃ s, run Task.step (Task.init []) resetThenPipe = some s := ⟨_, rfl⟩
  have hread : (run Task.step (Task.init []) resetThenPipe).map (fun s =>
      (target (.of s.cb) (.openPipe 0x0800 0x21), nfaHciuIsHostReseting s.cb 0x80,
        (handle (fun _ => .ok) (.of s.cb) (.openPipe 0x0800 0x21)).queued,
        (handle (fun _ => .ok) (.of s.cb) (.openPipe 0x0800 0x21)).msgs)) =
      some (some 0x80, true, none, [⟨0x21, nfaHciCommandType, nfaHciAnyOpenPipe, []⟩]) := by
    decide +kernel
  rw [hs, Option.map_some, Option.some.injEq, Prod.mk.injEq, Prod.mk.injEq, Prod.mk.injEq] at hread
  obtain ⟨htarget, hreset, hqueued, hmsgs⟩ := hread
  exact ⟨s, hs, ⟨0x80, htarget, hreset⟩, hqueued, hmsgs⟩

end NfcStack.Hci
