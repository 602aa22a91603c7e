import NfcStack.Lib.Run

/- RF discovery (`nfa_dm_discover.cc`, with the requests of `nfa_dm_act.cc`): a state machine
   that sends RF_DISCOVER and RF_DEACTIVATE commands and is driven by requests, by the
   responses and notifications of the controller, and by timers.

   A request of the reader or of a module that has been told of an activation can come from
   inside a step: it is one of the choices that an event has in its `Env`, with what the
   step reads outside of discovery.

   A command is sent when it is asked for, and the controller answers commands in the order
   in which they are sent. The two states of the low power mode are left out (nothing sends
   NFA_DM_LP_LISTEN_CMD), and of the reports those of activations, results and selections. -/
namespace NfcStack.Nfa.Discovery
open NfcStack.Lib

/-- `tNFA_DM_RF_DISC_STATE`. -/
inductive RfState where
  | idle
  | discovery
  | w4AllDiscoveries
  | w4HostSelect
  | pollActive
  | pollRemovalDetection
  | listenActive
  | listenSleep
  deriving DecidableEq, Repr

inductive DeactType where
  | idle
  | sleep
  | sleepAf
  | discovery
  deriving DecidableEq, Repr

inductive Protocol where
  | invalid
  | t1t
  | t5t
  | nfcDep
  | kovio
  | mifare
  | other
  deriving DecidableEq, Repr

/-- `mifare_pres_check_status`. -/
inductive PresCheck where
  | none
  | start
  | normal
  | idle
  | authTx
  | authOn
  deriving DecidableEq, Repr

inductive Cmd where
  | discover
  | deactivate (type : DeactType)
  deriving DecidableEq, Repr

inductive Report where
  | discoveryStarted (ok : Bool)
  | discoveryStopped
  | exclStarted (ok : Bool)
  | exclStopped
  | transportErr
  deriving DecidableEq, Repr

/-- `tNFA_DM_DISC_CB` with its flags. `unanswered` has the commands that have been sent and not answered, the oldest
first; `ntfDue` says that a deactivation to idle has been refused and that a notification is waited for; `reported`
is what the application has been told. -/
structure Cb where
  state : RfState
  enabled : Bool
  stopping : Bool
  disabling : Bool
  checking : Bool
  notify : Bool
  w4Rsp : Bool
  w4Ntf : Bool
  exclInUse : Bool
  exclActive : Bool
  exclCback : Bool
  protocol : Protocol
  deactPending : Bool
  pendingDeactType : DeactType
  listenDeactCmdType : DeactType
  tle : Bool
  kovioTle : Bool
  mifarePcTle : Bool
  presCheck : PresCheck
  deactivateCmdRetry : Nat
  pollingStartCnt : Nat
  unanswered : List Cmd
  ntfDue : Bool
  reported : List Report
  deriving DecidableEq, Repr

def init : Cb where
  state := .idle
  enabled := false
  stopping := false
  disabling := false
  checking := false
  notify := false
  w4Rsp := false
  w4Ntf := false
  exclInUse := false
  exclActive := false
  exclCback := false
  protocol := .invalid
  deactPending := false
  pendingDeactType := .idle
  listenDeactCmdType := .idle
  tle := false
  kovioTle := false
  mifarePcTle := false
  presCheck := .none
  deactivateCmdRetry := 0
  pollingStartCnt := 0
  unanswered := []
  ntfDue := false
  reported := []

/-- What a step finds outside of discovery: whether there is a technology to discover, whether NFCEEs are being
recovered, whether the core stack is closing, whether a module has asked for what is activated, whether a Kovio tag
is the one that was there, the configured kind of the Kovio presence check, whether test mode is on, and whether the
module that is told of an activation, and the reader when it is told that a check has failed, ask for a deactivation
to discovery. -/
structure Env where
  tech : Bool
  recovery : Bool
  closing : Bool
  matched : Bool
  sameTag : Bool
  kovioIdle : Bool
  dtaMode : Bool
  actCback : Bool
  rwCback : Bool
  deriving DecidableEq, Repr

/-- An activation: its protocol, whether it is in listen mode, and whether its interface is that of an NFCEE. -/
structure Activation where
  protocol : Protocol
  listen : Bool
  eeDirect : Bool
  deriving DecidableEq, Repr

/-- `NFC_DiscoveryStart`, `NFC_Deactivate`. -/
def send (cb : Cb) (c : Cmd) : Cb := { cb with unanswered := cb.unanswered ++ [c] }

def report (cb : Cb) (r : Report) : Cb := { cb with reported := cb.reported ++ [r] }

def notifyStarted (cb : Cb) (ok : Bool) : Cb :=
  if cb.notify then
    report { cb with notify := false } (if cb.exclInUse then .exclStarted ok else .discoveryStarted ok)
  else cb

def relExclRfControlAndNotify (cb : Cb) : Cb :=
  report { cb with exclActive := false, exclInUse := false, exclCback := false } .exclStopped

/-- The discovery has stopped: what stopped it is told. -/
def finishStop (cb : Cb) : Cb :=
  let cb := if cb.stopping then
      let cb := { cb with stopping := false }
      if cb.exclActive then relExclRfControlAndNotify cb else report cb .discoveryStopped
    else cb
  { cb with disabling := false }

def newState (cb : Cb) (state : RfState) : Cb :=
  let cb := { cb with state := state, ntfDue := false }
  if state = .idle ∧ cb.w4Rsp = false then finishStop cb else cb

def startRfDiscover (env : Env) (cb : Cb) : Cb :=
  if cb.enabled = false ∧ cb.exclInUse = false then cb
  else
    let cb := if env.tech then { send cb .discover with w4Rsp := true } else notifyStarted cb true
    if cb.protocol ≠ .kovio ∨ cb.kovioTle = false then { cb with protocol := .invalid } else cb

/-! ## Deactivation -/

def forceToIdle (cb : Cb) : Bool × Cb :=
  if cb.w4Ntf then (true, send (newState { cb with w4Ntf := false, w4Rsp := true } .idle) (.deactivate .idle))
  else (false, cb)

def sendDeactivateCmd (cb : Cb) (type : DeactType) : Bool × Cb :=
  if cb.w4Rsp = false ∧ cb.w4Ntf = false then
    (true, { send { cb with w4Rsp := true, w4Ntf := true } (.deactivate type) with tle := true })
  else if type = .sleep then (false, cb)
  else if cb.tle then (true, cb)
  else forceToIdle cb

/-- A command is sent if none is waited for. -/
def sendUnlessW4Rsp (cb : Cb) (type : DeactType) : Cb :=
  if cb.w4Rsp then cb else send { cb with w4Rsp := true } (.deactivate type)

/-- The deactivation waits for the end of the sleep wakeup. -/
def pend (cb : Cb) (type : DeactType) : Cb := { cb with deactPending := true, pendingDeactType := type }

/-- A tag that is being selected again is deactivated. -/
def hostSelectDeactivate (cb : Cb) (type : DeactType) : Cb :=
  if cb.presCheck = .idle then sendUnlessW4Rsp { cb with checking := true } .idle
  else if cb.checking ∧ type ≠ .idle then pend cb type
  else sendUnlessW4Rsp { cb with checking := false } .idle

/-- `nfa_dm_disc_sm_execute`, for NFA_DM_RF_DEACTIVATE_CMD. -/
def deactivateCmd (cb : Cb) (type : DeactType) : Cb :=
  match cb.state with
  | .idle => cb
  | .discovery =>
    if cb.w4Rsp then cb
    else send { cb with w4Rsp := true, checking := cb.checking || cb.presCheck == .idle } (.deactivate type)
  | .w4AllDiscoveries => sendUnlessW4Rsp cb .idle
  | .w4HostSelect => hostSelectDeactivate cb type
  | .pollActive =>
    if cb.protocol = .mifare then
      let cb := pend cb type
      let cb := if cb.presCheck = .idle then { cb with deactPending := false, checking := true } else cb
      (sendDeactivateCmd cb type).2
    else if cb.checking then pend cb type
    else (sendDeactivateCmd cb type).2
  | .pollRemovalDetection => (sendDeactivateCmd cb type).2
  | .listenActive => { (sendDeactivateCmd cb type).2 with listenDeactCmdType := type }
  | .listenSleep => { (sendDeactivateCmd cb .idle).2 with w4Ntf := false, tle := false }

def notifyDeactivation (cb : Cb) : Cb :=
  if cb.checking then cb
  else
    { cb with
      presCheck := if cb.protocol = .mifare then .none else cb.presCheck
      protocol := .invalid }

/-- `nfa_dm_rf_deactivate`, with its status. `timeout` is the Kovio timeout, which is called in discovery. -/
def rfDeactivateWith (timeout : Cb → Cb) (cb : Cb) (type : DeactType) : Bool × Cb :=
  let cb := if cb.checking = false ∧ cb.presCheck = .idle then { cb with presCheck := .none } else cb
  let type := if type = .sleep ∧ cb.protocol = .nfcDep then .sleepAf else type
  match cb.state with
  | .idle => (false, cb)
  | .discovery =>
    match type with
    | .discovery => if cb.kovioTle then (true, timeout { cb with kovioTle := false }) else (false, cb)
    | .idle =>
      let cb := if cb.kovioTle then timeout { cb with kovioTle := false } else cb
      (true, deactivateCmd cb type)
    | .sleep | .sleepAf => (false, cb)
  | _ => (true, deactivateCmd cb type)

/-- What the reader does when it is told the end of a check. The Kovio timeout has then nothing to report, since the
check has ended. -/
def tellReader (env : Env) (cb : Cb) (ok : Bool) : Cb :=
  if env.rwCback ∧ ok = false then (rfDeactivateWith notifyDeactivation cb .discovery).2 else cb

/-- A deactivation that has waited is carried out. -/
def runPending (cb : Cb) : Cb :=
  if cb.deactPending then deactivateCmd { cb with deactPending := false } cb.pendingDeactType else cb

def reportKovioPresenceCheck (env : Env) (cb : Cb) (ok : Bool) : Cb :=
  if cb.checking then runPending (tellReader env { cb with checking := false } ok) else cb

def kovioTimeoutCback (env : Env) (cb : Cb) : Cb :=
  let cb := reportKovioPresenceCheck env cb false
  if cb.state = .pollActive then { cb with kovioTle := true } else notifyDeactivation cb

def rfDeactivate (env : Env) (cb : Cb) (type : DeactType) : Bool × Cb := rfDeactivateWith (kovioTimeoutCback env) cb type

def endSleepWakeup (env : Env) (cb : Cb) (ok : Bool) : Cb :=
  if cb.protocol = .kovio ∧ cb.kovioTle then cb
  else if cb.checking then
    let cb := { cb with checking := false }
    if cb.protocol = .mifare ∧ cb.presCheck = .start ∧ ok = false then
      runPending { cb with presCheck := .idle, deactPending := true, pendingDeactType := .idle, mifarePcTle := true }
    else
      let cb := if cb.protocol = .mifare ∧ cb.presCheck = .start then { cb with presCheck := .normal } else cb
      let cb := if cb.protocol = .mifare ∧ cb.presCheck = .idle then { cb with deactPending := false } else cb
      let cb := if cb.presCheck = .idle ∧ ok = false then { cb with mifarePcTle := false } else cb
      runPending (tellReader env cb ok)
  else cb

/-! ## Activation -/

/-- `nfa_dm_disc_handle_kovio_activation`, with whether the activation is a repeated one. -/
def handleKovioActivation (env : Env) (cb : Cb) : Bool × Cb :=
  if cb.kovioTle then (env.sameTag, reportKovioPresenceCheck env cb env.sameTag)
  else (false, { cb with kovioTle := true })

/-- The module that has asked for the activation is told of it. -/
def tellActivated (env : Env) (cb : Cb) : Cb := if env.actCback then (rfDeactivate env cb .discovery).2 else cb

def notifyActivation (env : Env) (cb : Cb) (a : Activation) : Bool × Cb :=
  if cb.exclInUse then
    let cb := { cb with protocol := a.protocol }
    if a.protocol = .kovio then
      let (again, cb) := handleKovioActivation env cb
      (true, if again then cb else tellActivated env cb)
    else (true, tellActivated env cb)
  else if a.eeDirect then
    if env.matched then (true, tellActivated env { cb with protocol := .other }) else (false, cb)
  else if env.matched then
    let cb := { cb with protocol := a.protocol }
    let (again, cb) := if a.protocol = .kovio then handleKovioActivation env cb else (false, cb)
    (true, if again ∨ cb.presCheck = .idle ∨ cb.stopping then cb else tellActivated env cb)
  else (false, { cb with protocol := .invalid })

/-- A MIFARE tag that has been deactivated to idle for a check is there again, or something else is. -/
def endIdleCheck (env : Env) (cb : Cb) (a : Activation) : Cb :=
  let cb := if a.protocol ≠ .mifare then endSleepWakeup env { cb with presCheck := .none } false
    else (notifyActivation env (endSleepWakeup env cb true) a).2
  { cb with mifarePcTle := false }

/-! ## The state machine -/

inductive SmEvent where
  | discoverCmd
  | discoverRsp (ok : Bool)
  | discoverNtf (more : Bool)
  | selectCmd
  | selectRsp (ok : Bool)
  | activatedNtf (a : Activation)
  | deactivateCmd (type : DeactType)
  | deactivateRsp (ok : Bool)
  | deactivateNtf (type : DeactType) (reqFailed : Bool)
  | removalDetectionNtf
  | coreIntfErrorNtf
  deriving DecidableEq, Repr

/-- The response to a discover command has come in idle. -/
def idleDiscoverRsp (env : Env) (cb : Cb) (ok : Bool) : Cb :=
  let cb := { cb with w4Rsp := false }
  if ok then
    let cb := newState { cb with pollingStartCnt := 0 } .discovery
    let cb := if cb.stopping ∨ cb.disabling then send { cb with w4Rsp := true } (.deactivate .idle) else cb
    if cb.disabling then cb else notifyStarted cb ok
  else if env.closing then cb
  else if cb.pollingStartCnt < 10 then send { cb with w4Rsp := true } (.deactivate .idle)
  else report { cb with pollingStartCnt := 0 } .transportErr

def smIdle (env : Env) (cb : Cb) : SmEvent → Cb
  | .discoverCmd => startRfDiscover env cb
  | .discoverRsp ok => idleDiscoverRsp env cb ok
  | .deactivateRsp ok =>
    let cb := { cb with w4Rsp := false }
    if ok then
      if cb.w4Ntf then cb
      else
        let cb := startRfDiscover env (newState (notifyDeactivation cb) .idle)
        { cb with pollingStartCnt := cb.pollingStartCnt + 1 }
    else { cb with ntfDue := true }
  | .deactivateNtf type _ =>
    let cb := { cb with ntfDue := false }
    let cb := if cb.w4Ntf then cb
      else if type = .discovery then send { cb with w4Rsp := true } (.deactivate .idle)
      else startRfDiscover env (newState (notifyDeactivation cb) .idle)
    { cb with w4Ntf := false }
  | .activatedNtf _ => send { cb with w4Rsp := true, w4Ntf := true } (.deactivate .idle)
  | .deactivateCmd type => deactivateCmd cb type
  | .discoverNtf _ | .selectCmd | .selectRsp _ | .removalDetectionNtf | .coreIntfErrorNtf => cb

/-- The activation that ends a discovery. -/
def discoveryActivated (env : Env) (cb : Cb) (a : Activation) : Cb :=
  if cb.w4Rsp then { cb with w4Ntf := true }
  else if cb.presCheck = .idle then newState (endIdleCheck env cb a) .pollActive
  else
    let cb := newState cb (if a.eeDirect ∨ a.listen then .listenActive else .pollActive)
    let (ok, cb) := notifyActivation env cb a
    if ok then cb else send { cb with w4Rsp := true, w4Ntf := true } (.deactivate .idle)

def smDiscovery (env : Env) (cb : Cb) : SmEvent → Cb
  | .deactivateCmd type => deactivateCmd cb type
  | .deactivateRsp _ =>
    let cb := { cb with w4Rsp := false }
    if cb.w4Ntf then cb else startRfDiscover env (newState cb .idle)
  | .discoverNtf _ =>
    let cb := if cb.checking ∧ cb.presCheck ≠ .idle then { cb with checking := false } else cb
    newState cb .w4AllDiscoveries
  | .activatedNtf a => discoveryActivated env cb a
  | .deactivateNtf _ _ =>
    if cb.w4Ntf then
      let cb := { cb with w4Ntf := false }
      if cb.w4Rsp then cb else startRfDiscover env (newState cb .idle)
    else cb
  | .discoverCmd | .discoverRsp _ | .selectCmd | .selectRsp _ | .removalDetectionNtf | .coreIntfErrorNtf => cb

def smW4AllDiscoveries (env : Env) (cb : Cb) : SmEvent → Cb
  | .deactivateCmd type => deactivateCmd cb type
  | .deactivateRsp _ => startRfDiscover env (newState (notifyDeactivation { cb with w4Rsp := false }) .idle)
  | .discoverNtf more => if cb.w4Rsp ∨ more then cb else newState cb .w4HostSelect
  | .activatedNtf a =>
    let (ok, cb) := notifyActivation env (newState cb .pollActive) a
    if ok then cb else send cb (.deactivate .idle)
  | .discoverCmd | .discoverRsp _ | .selectCmd | .selectRsp _ | .deactivateNtf _ _ | .removalDetectionNtf
  | .coreIntfErrorNtf => cb

/-- The state of an activation that may have crossed a deactivation, whose notification is then waited for. -/
def newStateCrossed (cb : Cb) (state : RfState) : Cb :=
  let cb := newState cb state
  if cb.w4Rsp then { cb with w4Ntf := true } else cb

/-- The tag that has been selected is activated. -/
def hostSelectActivated (env : Env) (cb : Cb) (a : Activation) : Cb :=
  let old := cb.checking
  let cb := newStateCrossed cb .pollActive
  if cb.presCheck = .idle then endIdleCheck env cb a
  else
    let (ok, cb) := notifyActivation env cb a
    if old then endSleepWakeup env cb true
    else if ok then cb
    else send cb (.deactivate .idle)

def smW4HostSelect (env : Env) (cb : Cb) : SmEvent → Cb
  | .selectCmd => if cb.w4Rsp then { cb with notify := false } else cb
  | .selectRsp ok =>
    if cb.checking then (if ok then cb else endSleepWakeup env cb false) else { cb with notify := false }
  | .activatedNtf a => hostSelectActivated env cb a
  | .deactivateCmd type => deactivateCmd cb type
  | .deactivateRsp _ => startRfDiscover env (newState (notifyDeactivation { cb with w4Rsp := false }) .idle)
  | .coreIntfErrorNtf => if cb.checking then endSleepWakeup env cb false else cb
  | .discoverCmd | .discoverRsp _ | .discoverNtf _ | .deactivateNtf _ _ | .removalDetectionNtf => cb

/-- The response to a deactivation comes after its notification: the controller is idle. -/
def activeDeactivateRsp (env : Env) (cb : Cb) : Cb :=
  let cb := { cb with w4Rsp := false }
  if cb.w4Ntf then cb else startRfDiscover env (newState (notifyDeactivation cb) .idle)

/-- A tag could not be left: the deactivation is sent again, and to discovery after three times. -/
def retryDeactivate (cb : Cb) (type : DeactType) (old : Bool) : Cb :=
  if cb.deactivateCmdRetry = 3 then
    if old = false ∨ cb.deactPending = false then (sendDeactivateCmd cb .discovery).2 else cb
  else (sendDeactivateCmd { cb with deactivateCmdRetry := cb.deactivateCmdRetry + 1 } type).2

/-- A tag has been put to sleep; `old` says that this was for a check. -/
def pollSleepNtf (env : Env) (cb : Cb) (type : DeactType) (reqFailed old : Bool) : Cb :=
  let cb := if reqFailed then cb else newState cb .w4HostSelect
  let cb := if old ∧ cb.deactPending then endSleepWakeup env cb true else cb
  let cb := if reqFailed then retryDeactivate cb type old else cb
  if cb.stopping ∧ old = false then send cb (.deactivate .idle) else cb

/-- A tag has been left for the discovery. -/
def pollDiscoveryNtf (env : Env) (cb : Cb) (reqFailed old : Bool) : Cb :=
  let cb := { newState cb .discovery with deactivateCmdRetry := 0 }
  let cb := if reqFailed then notifyDeactivation (if old then endSleepWakeup env cb false else cb) else cb
  let cb := if cb.stopping then send cb (.deactivate .idle) else cb
  if old ∧ reqFailed = false then endSleepWakeup env cb false else cb

/-- The notification of a deactivation, in poll mode. -/
def pollDeactivateNtf (env : Env) (cb : Cb) (type : DeactType) (reqFailed : Bool) : Cb :=
  let old := cb.checking
  let cb := { cb with w4Ntf := false, tle := false }
  if cb.w4Rsp then cb
  else
    let cb := if reqFailed then cb else notifyDeactivation { cb with deactivateCmdRetry := 0 }
    match type with
    | .sleep | .sleepAf => pollSleepNtf env cb type reqFailed old
    | .idle =>
      let cb := startRfDiscover env (newState cb .idle)
      if old ∧ cb.presCheck ≠ .idle ∧ reqFailed = false then endSleepWakeup env cb false else cb
    | .discovery => pollDiscoveryNtf env cb reqFailed old

def smPollActive (env : Env) (cb : Cb) : SmEvent → Cb
  | .deactivateCmd type => deactivateCmd cb type
  | .deactivateRsp _ => activeDeactivateRsp env cb
  | .deactivateNtf type reqFailed => pollDeactivateNtf env cb type reqFailed
  | .coreIntfErrorNtf =>
    let old := cb.checking
    let cb := if old = false ∨ cb.deactPending = false then (sendDeactivateCmd cb .discovery).2 else cb
    if old then endSleepWakeup env cb false else cb
  | .removalDetectionNtf => { newState cb .pollRemovalDetection with notify := false }
  | .discoverCmd | .discoverRsp _ | .discoverNtf _ | .selectCmd | .selectRsp _ | .activatedNtf _ => cb

def smPollRemovalDetection (env : Env) (cb : Cb) : SmEvent → Cb
  | .removalDetectionNtf => (sendDeactivateCmd cb .idle).2
  | .deactivateCmd type => deactivateCmd cb type
  | .deactivateRsp _ => activeDeactivateRsp env cb
  | .deactivateNtf type reqFailed =>
    let cb := { cb with w4Ntf := false, tle := false }
    if cb.w4Rsp then cb
    else
      let cb := if reqFailed then cb else notifyDeactivation cb
      match type with
      | .idle => startRfDiscover env (newState cb .idle)
      | .discovery =>
        let cb := { newState cb .discovery with deactivateCmdRetry := 0 }
        let cb := if reqFailed then notifyDeactivation cb else cb
        if cb.stopping then send cb (.deactivate .idle) else cb
      | .sleep | .sleepAf => cb
  | .discoverCmd | .discoverRsp _ | .discoverNtf _ | .selectCmd | .selectRsp _ | .activatedNtf _
  | .coreIntfErrorNtf => cb

/-- The notification of a deactivation, in listen mode. -/
def listenDeactivateNtf (env : Env) (cb : Cb) (type : DeactType) : Cb :=
  let cb := { cb with w4Ntf := false, tle := false }
  if cb.w4Rsp then
    match type with
    | .sleep | .sleepAf => newState cb .listenSleep
    | .discovery =>
      let cb := newState (notifyDeactivation cb) .discovery
      if cb.listenDeactCmdType = .discovery then newState cb .idle else cb
    | .idle => cb
  else
    let cb := notifyDeactivation cb
    match type with
    | .idle => startRfDiscover env (newState cb .idle)
    | .sleep | .sleepAf => newState cb .listenSleep
    | .discovery =>
      let cb := newState cb .discovery
      if cb.stopping then send cb (.deactivate .idle) else cb

def smListenActive (env : Env) (cb : Cb) : SmEvent → Cb
  | .deactivateCmd type => deactivateCmd cb type
  | .deactivateRsp _ => activeDeactivateRsp env cb
  | .deactivateNtf type _ => listenDeactivateNtf env cb type
  | .discoverCmd | .discoverRsp _ | .discoverNtf _ | .selectCmd | .selectRsp _ | .activatedNtf _
  | .removalDetectionNtf | .coreIntfErrorNtf => cb

def smListenSleep (env : Env) (cb : Cb) : SmEvent → Cb
  | .deactivateCmd type => deactivateCmd cb type
  | .deactivateRsp _ => activeDeactivateRsp env cb
  | .deactivateNtf type _ =>
    let cb := notifyDeactivation { cb with w4Rsp := false, w4Ntf := false, tle := false }
    if type = .discovery then newState cb .discovery else startRfDiscover env (newState cb .idle)
  | .activatedNtf a =>
    let (ok, cb) := notifyActivation env (newStateCrossed cb .listenActive) a
    if ok then cb else send cb (.deactivate .idle)
  | .discoverCmd | .discoverRsp _ | .discoverNtf _ | .selectCmd | .selectRsp _ | .removalDetectionNtf
  | .coreIntfErrorNtf => cb

def smExecute (env : Env) (cb : Cb) (ev : SmEvent) : Cb :=
  match cb.state with
  | .idle => smIdle env cb ev
  | .discovery => smDiscovery env cb ev
  | .w4AllDiscoveries => smW4AllDiscoveries env cb ev
  | .w4HostSelect => smW4HostSelect env cb ev
  | .pollActive => smPollActive env cb ev
  | .pollRemovalDetection => smPollRemovalDetection env cb ev
  | .listenActive => smListenActive env cb ev
  | .listenSleep => smListenSleep env cb ev

/-! ## Requests -/

def actStartRfDiscovery (env : Env) (cb : Cb) : Cb :=
  if cb.enabled ∨ env.recovery then report cb (.discoveryStarted true)
  else if cb.state ≠ .idle then report cb (.discoveryStarted false)
  else startRfDiscover env { cb with enabled := true, notify := true }

def actStopRfDiscovery (env : Env) (cb : Cb) : Cb :=
  if cb.enabled = false ∨ cb.state = .idle then
    let cb := { cb with enabled := false }
    if cb.w4Rsp then { cb with stopping := true } else report cb .discoveryStopped
  else
    let (ok, after) := rfDeactivate env { cb with enabled := false, stopping := true } .idle
    if ok then { after with kovioTle := false }
    else
      -- the flags are as they were
      { after with
        enabled := cb.enabled
        stopping := cb.stopping
        disabling := cb.disabling
        checking := cb.checking
        notify := cb.notify
        w4Rsp := cb.w4Rsp
        w4Ntf := cb.w4Ntf }

def actRequestExclRfCtrl (env : Env) (cb : Cb) : Cb :=
  if cb.exclCback ∨ cb.state ≠ .idle then report cb (.exclStarted false)
  else smExecute env { cb with exclCback := true, exclActive := true, exclInUse := true } .discoverCmd

def actReleaseExclRfCtrl (env : Env) (cb : Cb) : Cb :=
  let cb := { cb with stopping := true }
  let cb := if cb.state = .idle ∧ cb.w4Rsp then cb else (rfDeactivate env cb .idle).2
  { cb with kovioTle := false }

/-- The kind of deactivation that `nfa_dm_act_deactivate` asks for; `none` if it is not allowed. -/
def deactTypeFor (env : Env) (cb : Cb) (sleepMode : Bool) : Option DeactType :=
  if sleepMode = false ∨ (cb.protocol ≠ .t1t ∧ (cb.protocol ≠ .nfcDep ∨ env.dtaMode) ∧ cb.protocol ≠ .t5t ∧
      cb.protocol ≠ .kovio) then
    some (if cb.state = .w4AllDiscoveries then .idle
      else if sleepMode then
        if cb.state = .w4HostSelect ∨ cb.state = .pollRemovalDetection then .idle
        else if cb.state = .listenSleep then .discovery
        else .sleep
      else .discovery)
  else none

def actDeactivate (env : Env) (cb : Cb) (sleepMode : Bool) : Cb :=
  match deactTypeFor env cb sleepMode with
  | none => cb
  | some type =>
    let (ok, cb) := rfDeactivate env cb type
    if ok then { cb with kovioTle := false } else cb

/-- The graceful part of `nfa_dm_disable`. -/
def disable (cb : Cb) : Cb :=
  if cb.enabled then
    let cb := { cb with enabled := false }
    if cb.state = .idle then { cb with disabling := cb.disabling || cb.w4Rsp }
    else
      let cb := deactivateCmd { cb with disabling := true } .idle
      if cb.w4Rsp = false ∧ cb.w4Ntf = false then { cb with disabling := false } else cb
  else cb

def sleepWakeup (cb : Cb) : Bool × Cb :=
  if cb.state = .pollActive then
    let (ok, cb) := sendDeactivateCmd cb .sleep
    (ok, if ok then { cb with checking := true, deactPending := false } else cb)
  else (false, cb)

def startKovioPresenceCheck (env : Env) (cb : Cb) : Bool × Cb :=
  if cb.protocol = .kovio ∧ cb.kovioTle then
    if cb.state = .pollActive then
      let (ok, cb) := sendDeactivateCmd cb (if env.kovioIdle then .idle else .discovery)
      (ok, if ok then { cb with checking := true, deactPending := false } else cb)
    else (true, { cb with checking := true, deactPending := false })
  else (false, cb)

/-- `nfa_rw_presence_check`, for a tag that is checked by a deactivation; `protocol` is that of the reader's tag. -/
def presenceCheck (env : Env) (cb : Cb) (protocol : Protocol) : Cb :=
  if protocol = .mifare ∧ cb.presCheck = .authOn then cb
  else if protocol = .mifare ∧ cb.presCheck = .idle then
    { (rfDeactivate env { cb with checking := true } .idle).2 with mifarePcTle := true }
  else
    let cb := if protocol = .mifare ∧ cb.presCheck = .none then { cb with presCheck := .start } else cb
    let (ok, cb) := if protocol = .kovio then startKovioPresenceCheck env cb else sleepWakeup cb
    if ok = false ∧ env.rwCback then (rfDeactivate env cb .discovery).2 else cb

/-! ## Steps -/

inductive Event where
  | start
  | stop
  | requestExcl
  | releaseExcl
  | deactivate (sleepMode : Bool)
  | rfDeactivate (type : DeactType)
  | select
  | disable
  | sleepWakeup
  | presenceCheck (protocol : Protocol)
  | mifareAuth (on : Option Bool)
  | discoverRsp (ok : Bool)
  | deactivateRsp (ok : Bool)
  | selectRsp (ok : Bool)
  | discoverNtf (more : Bool)
  | activatedNtf (a : Activation)
  | deactivateNtf (type : DeactType) (reqFailed : Bool)
  | removalDetectionNtf
  | coreIntfErrorNtf
  | deactNtfTimeout
  | kovioTimeout
  | mifareIdleTimeout
  deriving DecidableEq, Repr

/-- One event. A response is to the oldest command that has not been answered, and a timer expires only if it
runs. -/
def step (cb : Cb) : Env × Event → Option Cb
  | (env, .start) => some (actStartRfDiscovery env cb)
  | (env, .stop) => some (actStopRfDiscovery env cb)
  | (env, .requestExcl) => some (actRequestExclRfCtrl env cb)
  | (env, .releaseExcl) => some (actReleaseExclRfCtrl env cb)
  | (env, .deactivate sleepMode) => some (actDeactivate env cb sleepMode)
  | (env, .rfDeactivate type) => some (rfDeactivate env cb type).2
  | (env, .select) =>
    some (if cb.state = .w4HostSelect then smExecute env { cb with notify := true } .selectCmd else cb)
  | (_, .disable) => some (disable cb)
  | (_, .sleepWakeup) => some (sleepWakeup cb).2
  | (env, .presenceCheck protocol) => some (presenceCheck env cb protocol)
  | (_, .mifareAuth on) =>
    some { cb with presCheck := match on with | some true => .authOn | some false => .authTx | none => .none }
  | (env, .discoverRsp ok) =>
    match cb.unanswered with
    | .discover :: rest => some (smExecute env { cb with unanswered := rest } (.discoverRsp ok))
    | _ => none
  | (env, .deactivateRsp ok) =>
    match cb.unanswered with
    | .deactivate _ :: rest => some (smExecute env { cb with unanswered := rest } (.deactivateRsp ok))
    | _ => none
  | (env, .selectRsp ok) => some (smExecute env cb (.selectRsp ok))
  | (env, .discoverNtf more) => some (smExecute env cb (.discoverNtf more))
  | (env, .activatedNtf a) => some (smExecute env cb (.activatedNtf a))
  | (env, .deactivateNtf type reqFailed) => some (smExecute env cb (.deactivateNtf type reqFailed))
  | (env, .removalDetectionNtf) => some (smExecute env cb .removalDetectionNtf)
  | (env, .coreIntfErrorNtf) => some (smExecute env cb .coreIntfErrorNtf)
  | (_, .deactNtfTimeout) => if cb.tle then some (forceToIdle { cb with tle := false }).2 else none
  | (env, .kovioTimeout) => if cb.kovioTle then some (kovioTimeoutCback env { cb with kovioTle := false }) else none
  | (env, .mifareIdleTimeout) =>
    if cb.mifarePcTle then some (endSleepWakeup env { cb with mifarePcTle := false, presCheck := .none } false) else none

end NfcStack.Nfa.Discovery
