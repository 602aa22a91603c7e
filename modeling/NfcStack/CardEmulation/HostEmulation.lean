import NfcStack.Lib.Run

/-
  Host card emulation (`HostEmulationManager`).

  The manager sits between the reader and the HCE services: it resolves SELECT
  APDUs to services, binds the services, forwards APDUs and polling frames and
  sends the answers back. Every public entry point, every service connection
  callback and every delayed runnable is one step (`step`), run under the
  manager's lock. So is the answer of a service, although `handleMessage` leaves
  the lock before it reads `mState` and sends the data: what comes between is left
  out. What the manager is told by other parts of the system when a
  step runs (the AID cache, the polling loop filters, the outcome of a bind or of
  a send) is the step's `Env`.

  A service is known by the `Messenger` made of the binder its connection
  callback delivers: two messengers are equal when their binders are. The binder
  is written as the service it belongs to and a number for its instance.

  Correspondence (Java ↔ Lean):
    `mComponentNameToConnectionsMap`              ↔ `Hem.connections`
    callbacks posted on `mHandler`                ↔ `Hem.returnToIdlePosted`,
                                                    `Hem.afterTransactionPosted`, …
    `Messenger.send`, `NfcService.sendData`       ↔ an `Item` of `Hem.trace`
    `mAidCache`, `mContext`, `NfcAdapter`         ↔ `Env`

  Left out: wake locks, statistics, event logs, traces, the tap-again and the
  chooser dialogs, `mLastSelectedAid` (read by the dialogs only) and
  `mActiveServiceUserId` (never read).
-/
namespace NfcStack.CardEmulation.Hce

/-- Component names are only compared. -/
abbrev ComponentName := Nat

structure ComponentNameAndUser where
  userId : Int
  componentName : ComponentName
  deriving DecidableEq, Repr

/-- The binder of one instance of a service. -/
structure Messenger where
  service : ComponentNameAndUser
  inst : Nat
  deriving DecidableEq, Repr

inductive State where
  | idle | w4Select | w4Service | w4Deactivate | xfer | pollingLoop
  deriving DecidableEq, Repr

inductive PollingLoopState where
  | evaluatingPollingLoop | filterMatched | deliveringToPreferred
  deriving DecidableEq, Repr

inductive FrameType where
  | a | b | f | on | off | unknown
  deriving DecidableEq, Repr

structure PollingFrame where
  type : FrameType
  data : List UInt8
  deriving DecidableEq, Repr

/-- A C-APDU; `serial` says which of the APDUs received so far it is. -/
structure Apdu where
  serial : Nat
  bytes : List UInt8
  deriving DecidableEq, Repr

inductive Reason where
  | linkLoss | deselected
  deriving DecidableEq, Repr

/-- What `ApduServiceInfo` says of a service; `userId` is that of its uid. -/
structure ApduServiceInfo where
  component : ComponentName
  userId : Int
  isOnHost : Bool
  requiresUnlock : Bool
  requiresScreenOn : Bool
  deriving DecidableEq, Repr

def ApduServiceInfo.key (info : ApduServiceInfo) : ComponentNameAndUser :=
  ⟨info.userId, info.component⟩

structure AidResolveInfo where
  services : List ApduServiceInfo
  defaultService : Option ApduServiceInfo
  deriving DecidableEq, Repr

/-- What other parts of the system answer while a step runs. -/
structure Env where
  /-- `mAidCache.getPreferredService()`, `none` for no component. -/
  preferredService : Option ComponentNameAndUser
  /-- `mAidCache.getPreferredServiceInfo()` is there and says on host. -/
  preferredOnHost : Bool
  preferredPaymentService : Option ComponentNameAndUser
  resolveAid : List UInt8 → Option AidResolveInfo
  isSecureNfcEnabled : Bool
  isDeviceLocked : Bool
  isScreenOn : Bool
  /-- `bindServiceAsUser` returns true (not false, and no `SecurityException`). -/
  binds : ComponentNameAndUser → Bool
  /-- `unbindService` does not throw. -/
  unbinds : Bool
  /-- `Messenger.send` does not raise a `RemoteException`. -/
  alive : Messenger → Bool
  /-- The current user's services with a filter or a pattern that matches the frame. -/
  matching : List UInt8 → List ApduServiceInfo
  resolvePollingLoopFilterConflict : List ApduServiceInfo → Option ApduServiceInfo
  shouldAutoTransact : ApduServiceInfo → List UInt8 → Bool
  /-- `Flags.autoDisableObserveMode() && !revertAutoDisableObserveMode()`. -/
  autoDisableObserveMode : Bool
  isObserveModeEnabled : Bool
  arePackagesInForeground : Bool
  /-- The adapter is there and in `STATE_ON`. -/
  adapterOn : Bool

/-- What the manager sends, and the events that begin and end what it serves. -/
inductive Item where
  | activated
  | deactivated
  | offHost
  /-- A SELECT is taken for the service it was resolved to. -/
  | accepted (service : ComponentNameAndUser) (apdu : Apdu)
  /-- `MSG_COMMAND_APDU`. -/
  | command (service : Messenger) (apdu : Apdu)
  /-- `MSG_POLLING_LOOP`. -/
  | frames (service : Messenger) (frames : List PollingFrame)
  /-- `MSG_DEACTIVATED`. -/
  | deselected (service : Messenger) (reason : Reason)
  /-- An R-APDU of a service, passed on to the reader. -/
  | response (of : Messenger) (bytes : List UInt8)
  /-- An answer of the manager's own. -/
  | status (bytes : List UInt8)
  | setObserveMode (enabled : Bool)
  deriving DecidableEq, Repr

abbrev Connections := List (ComponentNameAndUser × Option Messenger)

/-- The fields of `HostEmulationManager`. -/
structure Hem where
  state : State
  fieldOn : Bool
  connections : Connections
  pendingPollingLoopFrames : Option (List PollingFrame)
  unprocessedPollingFrames : Option (List PollingFrame)
  pollingFramesToSend : Option (List (ComponentName × List PollingFrame))
  pollingLoopState : PollingLoopState
  paymentService : Option Messenger
  paymentServiceBound : Bool
  paymentServiceName : Option ComponentName
  paymentServiceUserId : Int
  lastBoundPaymentServiceName : Option ComponentName
  enableObserveModeAfterTransaction : Bool
  enableObserveModeOnFieldOff : Bool
  firmwareExitFrame : Option PollingFrame
  activeService : Option Messenger
  activeServiceName : Option ComponentName
  selectApdu : Option Apdu
  /-- `mAutoDisableObserveModeRunnable` is not null; its run does not reset it. -/
  autoDisable : Bool
  autoDisablePosted : Bool
  /-- How often each runnable stands in the handler's queue. -/
  returnToIdlePosted : Nat
  afterTransactionPosted : Nat
  unbindInactivePosted : Bool
  /-- Bookkeeping: the APDUs received so far, and what was sent. -/
  received : Nat
  trace : List Item
  deriving DecidableEq, Repr

def init : Hem where
  state := .idle
  fieldOn := false
  connections := []
  pendingPollingLoopFrames := none
  unprocessedPollingFrames := none
  pollingFramesToSend := none
  pollingLoopState := .evaluatingPollingLoop
  paymentService := none
  paymentServiceBound := false
  paymentServiceName := none
  paymentServiceUserId := 0
  lastBoundPaymentServiceName := none
  enableObserveModeAfterTransaction := false
  enableObserveModeOnFieldOff := false
  firmwareExitFrame := none
  activeService := none
  activeServiceName := none
  selectApdu := none
  autoDisable := false
  autoDisablePosted := false
  returnToIdlePosted := 0
  afterTransactionPosted := 0
  unbindInactivePosted := true
  received := 0
  trace := []

/-! ## The connection map -/

def Connections.get (conns : Connections) (key : ComponentNameAndUser) :
    Option (Option Messenger) :=
  (conns.find? fun entry => entry.1 = key).map Prod.snd

def Connections.remove (conns : Connections) (key : ComponentNameAndUser) : Connections :=
  conns.filter fun entry => entry.1 ≠ key

def Connections.put (conns : Connections) (key : ComponentNameAndUser)
    (messenger : Option Messenger) : Connections :=
  (key, messenger) :: conns.remove key

/-! ## Helpers -/

def emit (hem : Hem) (item : Item) : Hem :=
  { hem with trace := hem.trace ++ [item] }

def isHostCardEmulationActivated (hem : Hem) : Bool :=
  hem.state ≠ .idle && hem.state ≠ .pollingLoop

def resetActiveService (hem : Hem) : Hem :=
  { hem with activeService := none, activeServiceName := none }

def returnToIdleState (hem : Hem) : Hem :=
  { resetActiveService hem with
    pendingPollingLoopFrames := none
    pollingFramesToSend := none
    unprocessedPollingFrames := none
    pollingLoopState := .evaluatingPollingLoop
    state := .idle }

def rescheduleInactivityChecks (hem : Hem) : Hem :=
  { hem with returnToIdlePosted := 0, unbindInactivePosted := true }

def clearAutoDisableObserveModeRunnableLocked (hem : Hem) : Hem :=
  if hem.autoDisable then { hem with autoDisable := false, autoDisablePosted := false } else hem

/-- The request to leave observe mode is posted; the flags are to undo it. -/
def allowOneTransaction (hem : Hem) : Hem :=
  emit { hem with
    enableObserveModeAfterTransaction := true
    enableObserveModeOnFieldOff := true } (.setObserveMode false)

/-! ## Binding -/

def unbindInactiveServicesLocked (env : Env) (hem : Hem) : Hem :=
  { hem with
    connections := hem.connections.filter fun entry => env.preferredService = some entry.1 }

/-- Only a forced unbind does anything. -/
def unbindServiceIfNeededLocked (env : Env) (force : Bool) (hem : Hem) : Hem :=
  if force then unbindInactiveServicesLocked env hem else hem

def unbindPaymentServiceLocked (env : Env) (hem : Hem) : Hem :=
  { hem with
    connections :=
      match hem.paymentServiceBound && env.unbinds, hem.paymentServiceName with
      | true, some name => hem.connections.remove ⟨hem.paymentServiceUserId, name⟩
      | _, _ => hem.connections
    paymentServiceBound := false
    paymentService := none
    paymentServiceName := none
    paymentServiceUserId := -1 }

/-- After the unbind the user id is -1 until a bind is accepted. -/
def bindPaymentServiceLocked (env : Env) (hem : Hem) (key : ComponentNameAndUser) : Hem :=
  let hem := unbindPaymentServiceLocked env hem
  let hem := { hem with connections := hem.connections.put key none }
  if env.binds key then
    { hem with
      paymentServiceBound := true
      paymentServiceUserId := key.userId
      lastBoundPaymentServiceName := some key.componentName }
  else hem

/-- `bindPaymentServiceLocked(mPaymentServiceUserId, mLastBoundPaymentServiceName)`. -/
def rebindPaymentService (env : Env) (hem : Hem) : Hem :=
  match hem.lastBoundPaymentServiceName with
  | some name => bindPaymentServiceLocked env hem ⟨hem.paymentServiceUserId, name⟩
  | none => hem

/-- The service's messenger when it is bound and connected; otherwise a bind is
under way when the call returns. -/
def bindServiceIfNeededLocked (env : Env) (hem : Hem) (key : ComponentNameAndUser) :
    Option Messenger × Hem :=
  if hem.paymentServiceName = some key.componentName ∧ hem.paymentServiceUserId = key.userId then
    (hem.paymentService, hem)
  else if hem.paymentServiceBound = false ∧ env.preferredPaymentService = some key then
    (none, bindPaymentServiceLocked env hem key)
  else match hem.connections.get key with
    | some (some messenger) => (some messenger, hem)
    | _ => (none, { unbindServiceIfNeededLocked env false hem with
        connections := hem.connections.put key none })

/-! ## Sending to services -/

def sendDeactivateToActiveServiceLocked (reason : Reason) (hem : Hem) : Hem :=
  match hem.activeService with
  | none => hem
  | some service => emit hem (.deselected service reason)

/-- `mActiveService` and its name, from the payment service or the connections. -/
def setActiveService (service : Messenger) (hem : Hem) : Hem :=
  { hem with
    activeService := some service
    activeServiceName :=
      if hem.paymentService = some service then hem.paymentServiceName
      else match hem.connections.find? fun entry => entry.2 = some service with
        | some entry => some entry.1.componentName
        | none => hem.activeServiceName }

/-- What the catch block of a send does for the payment service. -/
def rebindIfPayment (env : Env) (service : Messenger) (hem : Hem) : Hem :=
  if hem.paymentService = some service then rebindPaymentService env hem else hem

def sendDataToServiceLocked (env : Env) (service : Messenger) (apdu : Apdu) (hem : Hem) : Hem :=
  let hem := { hem with state := .xfer }
  let hem :=
    if hem.activeService = some service then hem
    else setActiveService service (sendDeactivateToActiveServiceLocked .deselected hem)
  let hem := emit hem (.command service apdu)
  if env.alive service then hem else rebindIfPayment env service hem

def sendPollingFramesToServiceLocked (env : Env) (service : Messenger)
    (frames : List PollingFrame) (hem : Hem) : Hem :=
  let hem := if hem.activeService = some service then hem else setActiveService service hem
  let hem := if hem.state = .idle then { hem with state := .pollingLoop } else hem
  let hem := emit hem (.frames service frames)
  if env.alive service then hem
  else rebindIfPayment env service (allowOneTransaction hem)

/-! ## Polling frames -/

def addPollingFrames (name : ComponentName) (frames : List PollingFrame)
    (toSend : List (ComponentName × List PollingFrame)) :
    List (ComponentName × List PollingFrame) :=
  if toSend.any fun entry => entry.1 = name then
    toSend.map fun entry => if entry.1 = name then (entry.1, entry.2 ++ frames) else entry
  else (name, frames) :: toSend

/-- Frames for a service that is not connected yet wait for its callback; from
then on new frames are kept unprocessed. -/
def sendFramesToServiceLocked (env : Env) (service : Option Messenger) (name : ComponentName)
    (frames : List PollingFrame) (hem : Hem) : Hem :=
  let hem := match service with
    | some service => sendPollingFramesToServiceLocked env service frames hem
    | none => { hem with
        unprocessedPollingFrames := some []
        pollingFramesToSend :=
          some (addPollingFrames name frames (hem.pollingFramesToSend.getD [])) }
  if env.autoDisableObserveMode && !hem.autoDisable then
    { hem with autoDisable := true, autoDisablePosted := true }
  else hem

/-- The preferred service, when there is one on the host that frames may go to. -/
def Env.preferredForPollingLoop (env : Env) : Option ComponentNameAndUser :=
  match env.preferredService with
  | none => none
  | some key => if key.userId < 0 ∨ env.preferredOnHost = false then none else some key

/-- `bindToForegroundServiceOrDefaultForPollingLoop`, and the frames sent to what
it returns; `none` when it returns null. -/
def sendToPreferred (env : Env) (frames : List PollingFrame) (hem : Hem) : Option Hem :=
  match env.preferredForPollingLoop with
  | none => none
  | some key =>
    let (service, hem) := bindServiceIfNeededLocked env hem key
    some (sendFramesToServiceLocked env service key.componentName frames hem)

/-- The service whose filter matches the frame, if any does. -/
def Env.filterService (env : Env) (data : List UInt8) : Option ApduServiceInfo :=
  match env.matching data with
  | [] => none
  | [info] => some info
  | info :: rest =>
    some ((env.resolvePollingLoopFilterConflict (info :: rest)).getD info)

/-- A frame that a service auto-transacts on: either the firmware has left
observe mode on this very frame, or the manager leaves it. -/
def autoTransact (frame : PollingFrame) (hem : Hem) : Hem :=
  if hem.firmwareExitFrame.map PollingFrame.data = some frame.data then
    { hem with
      firmwareExitFrame := none
      enableObserveModeAfterTransaction := true
      enableObserveModeOnFieldOff := true }
  else allowOneTransaction hem

/-- One turn of the loop over the frames in `onPollingLoopDetected`. -/
def processFrame (env : Env) (hem : Hem) (frame : PollingFrame) : Hem :=
  match hem.unprocessedPollingFrames with
  | some frames => { hem with unprocessedPollingFrames := some (frames ++ [frame]) }
  | none =>
    match frame.type with
    | .f => (sendToPreferred env [frame] hem).getD hem
    | .unknown =>
      match env.filterService frame.data with
      | none => (sendToPreferred env [frame] hem).getD hem
      | some info =>
        let hem := if env.shouldAutoTransact info frame.data then autoTransact frame hem else hem
        if info.isOnHost then
          let (service, hem) := bindServiceIfNeededLocked env hem info.key
          let hem := { hem with pollingLoopState := .filterMatched }
          sendFramesToServiceLocked env service info.component [frame] hem
        else hem
    | _ => { hem with
        pendingPollingLoopFrames := some (hem.pendingPollingLoopFrames.getD [] ++ [frame]) }

/-- Whether the pending frames show that no filter will match: the loop over them
with its four counters. -/
def loopIsOver (aCount bCount onCount offCount : Nat) : List PollingFrame → Bool
  | [] => false
  | frame :: rest =>
    match frame.type with
    | .a => if aCount + 1 > 3 then true else loopIsOver (aCount + 1) bCount onCount offCount rest
    | .b => if bCount + 1 > 3 then true else loopIsOver aCount (bCount + 1) onCount offCount rest
    | .on => loopIsOver aCount bCount (onCount + 1) offCount rest
    | .off =>
      if onCount ≥ 2 ∧ offCount + 1 ≥ 2 then true
      else loopIsOver aCount bCount onCount (offCount + 1) rest
    | _ => loopIsOver aCount bCount onCount offCount rest

/-- What `onPollingLoopDetected` does before its loop over the frames. -/
def beginPollingLoop (frames : List PollingFrame) (hem : Hem) : Hem :=
  let hem := rescheduleInactivityChecks hem
  let hem := if frames.getLast?.map PollingFrame.type = some .off then
      { hem with returnToIdlePosted := hem.returnToIdlePosted + 1 } else hem
  let hem := if hem.state = .idle then { hem with state := .pollingLoop } else hem
  { hem with pendingPollingLoopFrames := some (hem.pendingPollingLoopFrames.getD []) }

/-- Once the loop is over the pending frames go to the preferred service; without
one an exit from observe mode is granted. -/
def deliverPending (env : Env) (pending : List PollingFrame) (hem : Hem) : Hem :=
  if hem.pollingLoopState = .deliveringToPreferred then
    match sendToPreferred env pending hem with
    | some hem => { hem with pendingPollingLoopFrames := none }
    | none => allowOneTransaction hem
  else hem

/-- What `onPollingLoopDetected` does after its loop over the frames. -/
def endPollingLoop (env : Env) (hem : Hem) : Hem :=
  let hem := { hem with firmwareExitFrame := none }
  let pending := hem.pendingPollingLoopFrames.getD []
  let hem := if hem.pollingLoopState = .evaluatingPollingLoop ∧ pending.length ≥ 3 ∧
      loopIsOver 0 0 0 0 pending then
      { hem with pollingLoopState := .deliveringToPreferred } else hem
  deliverPending env pending hem

def onPollingLoopDetected (env : Env) (frames : List PollingFrame) (hem : Hem) : Hem :=
  endPollingLoop env (frames.foldl (processFrame env) (beginPollingLoop frames hem))

/-! ## APDUs -/

def androidHceAid : List UInt8 :=
  [0xA0, 0x00, 0x00, 0x04, 0x76, 0x41, 0x6E, 0x64, 0x72, 0x6F, 0x69, 0x64, 0x48, 0x43, 0x45]
def androidHceResponse : List UInt8 := [0x14, 0x81, 0x00, 0x00, 0x90, 0x00]
def aidNotFound : List UInt8 := [0x6A, 0x82]
def unknownError : List UInt8 := [0x6F, 0x00]

/-- The AID of a SELECT by name; `data[3]` is logged and not checked. -/
def findSelectAid (data : List UInt8) : Option (List UInt8) :=
  if data.length < 5 + 5 then none
  else match data with
    | 0x00 :: 0xA4 :: 0x04 :: _ :: aidLength :: rest =>
      if data.length < 5 + aidLength.toNat then none else some (rest.take aidLength.toNat)
    | _ => none

/-- What a SELECT AID comes to before the state is looked at. -/
inductive Resolution where
  | answer (status : List UInt8)
  | conflict
  | service (info : ApduServiceInfo)
  deriving DecidableEq, Repr

/-- Without a default service the active one is taken when it is among the
services for the AID. -/
def resolveSelect (env : Env) (hem : Hem) (selectAid : List UInt8) : Resolution :=
  if selectAid = androidHceAid then .answer androidHceResponse
  else match env.resolveAid selectAid with
    | none => .answer aidNotFound
    | some resolveInfo =>
      if resolveInfo.services = [] then .answer aidNotFound
      else match resolveInfo.defaultService with
        | some info =>
          if (info.requiresUnlock || env.isSecureNfcEnabled) && env.isDeviceLocked then
            .answer aidNotFound
          else if info.requiresScreenOn && !env.isScreenOn then .answer aidNotFound
          else if !info.isOnHost then .answer aidNotFound
          else .service info
        | none =>
          match resolveInfo.services.find? fun info =>
              hem.activeServiceName = some info.component with
          | some info => .service info
          | none => .conflict

/-- A SELECT resolved to a service, in `STATE_W4_SELECT` and `STATE_XFER`. -/
def deliverSelect (env : Env) (key : ComponentNameAndUser) (apdu : Apdu) (hem : Hem) : Hem :=
  let hem := emit hem (.accepted key apdu)
  let (existingService, hem) := bindServiceIfNeededLocked env hem key
  match existingService with
  | some service => sendDataToServiceLocked env service apdu hem
  | none => { hem with selectApdu := some apdu, state := .w4Service }

def handleSelect (env : Env) (selectAid : List UInt8) (apdu : Apdu) (hem : Hem) : Hem :=
  match resolveSelect env hem selectAid with
  | .answer status => emit hem (.status status)
  | .conflict => { hem with state := .w4Deactivate }
  | .service info =>
    match hem.state with
    | .w4Select | .xfer => deliverSelect env info.key apdu hem
    | _ => hem

def handleOther (env : Env) (apdu : Apdu) (hem : Hem) : Hem :=
  match hem.state with
  | .w4Select => emit hem (.status unknownError)
  | .xfer =>
    match hem.activeService with
    | some service => sendDataToServiceLocked env service apdu hem
    | none => hem
  | _ => hem

def onHostEmulationData (env : Env) (data : List UInt8) (hem : Hem) : Hem :=
  let apdu : Apdu := ⟨hem.received, data⟩
  let hem := rescheduleInactivityChecks
    { hem with afterTransactionPosted := 0, received := hem.received + 1 }
  if hem.state = .idle ∨ hem.state = .w4Deactivate then hem
  else match findSelectAid data with
    | some selectAid => handleSelect env selectAid apdu hem
    | none => handleOther env apdu hem

/-! ## Activation, field and off-host selection -/

def onHostEmulationActivated (hem : Hem) : Hem :=
  let hem := rescheduleInactivityChecks hem
  let hem := if hem.enableObserveModeAfterTransaction then
      { hem with enableObserveModeOnFieldOff := false } else hem
  emit { hem with state := .w4Select } .activated

def onHostEmulationDeactivated (env : Env) (hem : Hem) : Hem :=
  let hem := sendDeactivateToActiveServiceLocked .linkLoss hem
  let hem := returnToIdleState (unbindServiceIfNeededLocked env false hem)
  let hem := clearAutoDisableObserveModeRunnableLocked hem
  let hem := if hem.enableObserveModeAfterTransaction then
      { hem with afterTransactionPosted := hem.afterTransactionPosted + 1 } else hem
  emit hem .deactivated

/-- Only in `STATE_XFER` is the active service told. -/
def onOffHostAidSelectedOrTransaction (env : Env) (hem : Hem) : Hem :=
  let hem := rescheduleInactivityChecks { hem with afterTransactionPosted := 0 }
  let hem := if hem.state = .xfer then sendDeactivateToActiveServiceLocked .deselected hem else hem
  let hem := unbindServiceIfNeededLocked env false (resetActiveService hem)
  emit { hem with state := .w4Select } .offHost

def onFieldChangeDetected (fieldOn : Bool) (hem : Hem) : Hem :=
  let hem := rescheduleInactivityChecks { hem with fieldOn := fieldOn }
  let hem := if fieldOn then hem else { hem with returnToIdlePosted := hem.returnToIdlePosted + 1 }
  if !fieldOn && hem.enableObserveModeOnFieldOff && hem.enableObserveModeAfterTransaction then
    { hem with afterTransactionPosted := hem.afterTransactionPosted + 1 }
  else hem

/-- `hasCallbacks` is that the runnable stands in the queue. -/
def updateForShouldDefaultToObserveMode (enabled : Bool) (hem : Hem) : Hem :=
  if isHostCardEmulationActivated hem then
    { hem with enableObserveModeAfterTransaction := enabled }
  else if hem.afterTransactionPosted > 0 then
    if enabled then hem
    else emit { hem with
      afterTransactionPosted := 0
      enableObserveModeAfterTransaction := false
      enableObserveModeOnFieldOff := false } (.setObserveMode enabled)
  else emit hem (.setObserveMode enabled)

/-! ## Delayed runnables -/

/-- `mEnableObserveModeAfterTransactionRunnable`, taken off the queue to run. -/
def runAfterTransaction (hem : Hem) : Hem :=
  let hem := { hem with afterTransactionPosted := hem.afterTransactionPosted - 1 }
  if isHostCardEmulationActivated hem || hem.fieldOn then
    { hem with afterTransactionPosted := hem.afterTransactionPosted + 1 }
  else if !hem.enableObserveModeAfterTransaction && !hem.enableObserveModeOnFieldOff then hem
  else emit { hem with
    enableObserveModeAfterTransaction := false
    enableObserveModeOnFieldOff := false } (.setObserveMode true)

def runReturnToIdle (hem : Hem) : Hem :=
  returnToIdleState { hem with returnToIdlePosted := hem.returnToIdlePosted - 1 }

def runUnbindInactive (env : Env) (hem : Hem) : Hem :=
  let hem := { hem with unbindInactivePosted := false }
  if isHostCardEmulationActivated hem then rescheduleInactivityChecks hem
  else unbindInactiveServicesLocked env hem

def runAutoDisable (env : Env) (hem : Hem) : Hem :=
  let hem := { hem with autoDisablePosted := false }
  if !env.isObserveModeEnabled then hem
  else if env.arePackagesInForeground then hem
  else allowOneTransaction hem

/-! ## Preferred services -/

def resetIfNotActivated (hem : Hem) : Hem :=
  if isHostCardEmulationActivated hem then hem else resetActiveService hem

/-- The body that `onPreferredPaymentServiceChanged` posts. -/
def onPreferredPaymentServiceChanged (env : Env) (service : Option ComponentNameAndUser)
    (hem : Hem) : Hem :=
  let hem := resetIfNotActivated hem
  match service with
  | some key => bindPaymentServiceLocked env hem key
  | none => unbindPaymentServiceLocked env hem

def onPreferredForegroundServiceChanged (env : Env) (service : Option ComponentNameAndUser)
    (hem : Hem) : Hem :=
  let hem := resetIfNotActivated hem
  match service with
  | some key => (bindServiceIfNeededLocked env hem key).2
  | none => unbindServiceIfNeededLocked env true hem

/-! ## Connection callbacks -/

/-- The frames that waited for the service `name`, then those that came since. -/
def sendWaitingFrames (env : Env) (service : Messenger) (name : ComponentName)
    (hem : Hem) : Hem :=
  match hem.pollingFramesToSend.bind fun toSend => toSend.find? fun entry => entry.1 = name with
  | none => hem
  | some entry =>
    let hem := sendPollingFramesToServiceLocked env service entry.2 hem
    let hem := { hem with
      pollingFramesToSend :=
        hem.pollingFramesToSend.map (List.filter fun entry => entry.1 ≠ name) }
    match hem.unprocessedPollingFrames with
    | some frames => onPollingLoopDetected env frames { hem with unprocessedPollingFrames := none }
    | none => hem

/-- The payment service's messenger, kept under the user that was bound last. -/
def registerPayment (service : Messenger) (hem : Hem) : Hem :=
  { hem with
    paymentServiceName := some service.service.componentName
    paymentService := some service
    connections := hem.connections.put
      ⟨hem.paymentServiceUserId, service.service.componentName⟩ (some service) }

/-- `mPaymentConnection.onServiceConnected`. Only the name is compared with what
was bound last, and a pending SELECT is not looked at. -/
def paymentServiceConnected (env : Env) (service : Messenger) (hem : Hem) : Hem :=
  if hem.lastBoundPaymentServiceName ≠ some service.service.componentName then hem
  else sendWaitingFrames env service service.service.componentName (registerPayment service hem)

def paymentServiceDisconnected (name : ComponentName) (hem : Hem) : Hem :=
  { hem with
    connections := hem.connections.remove ⟨hem.paymentServiceUserId, name⟩
    paymentService := none
    paymentServiceName := none }

def paymentBindingDied (env : Env) (hem : Hem) : Hem :=
  if hem.paymentServiceUserId ≥ 0 then rebindPaymentService env hem else hem

def register (service : Messenger) (hem : Hem) : Hem :=
  { hem with connections := hem.connections.put service.service (some service) }

/-- A connection that is no longer wanted when its callback arrives. -/
def notWanted (env : Env) (service : Messenger) (hem : Hem) : Bool :=
  hem.state = .idle ∧
    env.preferredService.map ComponentNameAndUser.componentName ≠
      some service.service.componentName

def serviceConnected (env : Env) (service : Messenger) (hem : Hem) : Hem :=
  if !env.adapterOn then hem
  else if notWanted env service hem then
    { hem with connections := hem.connections.remove service.service }
  else match hem.selectApdu with
    | some apdu =>
      { sendDataToServiceLocked env service apdu (register service hem) with selectApdu := none }
    | none =>
      sendWaitingFrames env service service.service.componentName (register service hem)

def serviceDisconnected (key : ComponentNameAndUser) (hem : Hem) : Hem :=
  { hem with connections := hem.connections.remove key }

/-! ## Answers of the services -/

/-- `MSG_RESPONSE_APDU` from the service whose messenger is `replyTo`. -/
def handleResponse (replyTo : Messenger) (data : List UInt8) (hem : Hem) : Hem :=
  if hem.activeService ≠ some replyTo then hem
  else if data = [] then hem
  else if hem.state = .xfer then emit hem (.response replyTo data)
  else hem

/-! ## The system -/

inductive Event where
  | activated
  | data (bytes : List UInt8)
  | deactivated
  | offHostSelected
  | fieldChange (fieldOn : Bool)
  | pollingLoop (frames : List PollingFrame)
  | exitInFirmware (exitFrame : PollingFrame)
  | allowOneTransaction
  | observeModeStateChange (enabled : Bool)
  | defaultToObserveMode (enabled : Bool)
  | nfcFChange
  | preferredPayment (service : Option ComponentNameAndUser)
  | preferredForeground (service : Option ComponentNameAndUser)
  | paymentConnected (service : Messenger)
  | paymentDisconnected (name : ComponentName)
  | paymentBindingDied
  | connected (service : Messenger)
  | disconnected (key : ComponentNameAndUser)
  | bindingDied
  | response (replyTo : Messenger) (data : List UInt8)
  | returnToIdle
  | afterTransaction
  | unbindInactive
  | autoDisable
  deriving DecidableEq, Repr

/-- One event; a runnable runs only when it stands in the queue. -/
def step (hem : Hem) : Env × Event → Option Hem
  | (_, .activated) => some (onHostEmulationActivated hem)
  | (env, .data bytes) => some (onHostEmulationData env bytes hem)
  | (env, .deactivated) => some (onHostEmulationDeactivated env hem)
  | (env, .offHostSelected) => some (onOffHostAidSelectedOrTransaction env hem)
  | (_, .fieldChange fieldOn) => some (onFieldChangeDetected fieldOn hem)
  | (env, .pollingLoop frames) => some (onPollingLoopDetected env frames hem)
  | (_, .exitInFirmware exitFrame) => some (clearAutoDisableObserveModeRunnableLocked
      { hem with firmwareExitFrame := some exitFrame })
  | (_, .allowOneTransaction) => some (allowOneTransaction hem)
  | (_, .observeModeStateChange enabled) =>
    some (if enabled then hem else clearAutoDisableObserveModeRunnableLocked hem)
  | (_, .defaultToObserveMode enabled) => some (updateForShouldDefaultToObserveMode enabled hem)
  | (_, .nfcFChange) => some (clearAutoDisableObserveModeRunnableLocked hem)
  | (env, .preferredPayment service) => some (onPreferredPaymentServiceChanged env service hem)
  | (env, .preferredForeground service) =>
    some (onPreferredForegroundServiceChanged env service hem)
  | (env, .paymentConnected service) => some (paymentServiceConnected env service hem)
  | (_, .paymentDisconnected name) => some (paymentServiceDisconnected name hem)
  | (env, .paymentBindingDied) => some (paymentBindingDied env hem)
  | (env, .connected service) => some (serviceConnected env service hem)
  | (_, .disconnected key) => some (serviceDisconnected key hem)
  | (env, .bindingDied) => some (unbindServiceIfNeededLocked env true hem)
  | (_, .response replyTo data) => some (handleResponse replyTo data hem)
  | (_, .returnToIdle) => if hem.returnToIdlePosted > 0 then some (runReturnToIdle hem) else none
  | (_, .afterTransaction) =>
    if hem.afterTransactionPosted > 0 then some (runAfterTransaction hem) else none
  | (env, .unbindInactive) =>
    if hem.unbindInactivePosted then some (runUnbindInactive env hem) else none
  | (env, .autoDisable) => if hem.autoDisablePosted then some (runAutoDisable env hem) else none

end NfcStack.CardEmulation.Hce
