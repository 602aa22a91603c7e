import NfcStack.Lib.Run
import NfcStack.CardEmulation.PreferredServices

/- Host card emulation of NFC-F (`HostNfcFEmulationManager.java`). Each callback is one
   step: all of them take the lock, and the two locked parts of `handleMessage` run on the
   thread of the service connection, whose callbacks alone lead to `STATE_XFER`. A step is
   `none` where a callback throws. What it sends and the calls of the activity manager are
   its `out`.

   Left out: `onHostEmulationActivated`, which only logs, the statistics and the dumps. -/
namespace NfcStack.CardEmulation.HostNfcF

inductive HostState where
  | idle       -- STATE_IDLE
  | w4Service  -- STATE_W4_SERVICE
  | xfer       -- STATE_XFER
  deriving DecidableEq, Repr

def NFCID2_LENGTH : Nat := 8
def MINIMUM_NFCF_PACKET_LENGTH : Nat := 10
def MSG_RESPONSE_PACKET : Int := 1
def DEACTIVATION_LINK_LOSS : Int := 0

structure Service where
  userId : Int
  component : ComponentName
  deriving DecidableEq, Repr

/-- A messenger is an object around the binder of a service; the code never asks which
service that is. -/
structure Messenger where
  object : Nat
  binder : Nat
  owner : Service
  deriving DecidableEq, Repr

structure NfcFServiceInfo where
  component : ComponentName
  uid : Int

inductive BindResult where
  | bound
  | refused
  | securityException

inductive Obs where
  | commandPacket (service : Messenger) (data : List UInt8)
  | deactivated (service : Messenger) (reason : Int)
  | sendData (data : List UInt8)
  | bindService (service : Service)
  | unbindService
  deriving DecidableEq

structure State where
  enabledFgServiceName : Option ComponentName
  enabledFgServiceUserId : Int
  service : Option Messenger
  serviceBound : Bool
  serviceName : Option ComponentName
  serviceUserId : Int
  activeService : Option Messenger
  activeServiceName : Option ComponentName
  state : HostState
  pendingPacket : Option (List UInt8)
  /-- How many messengers have been made. -/
  messengers : Nat
  out : List Obs

def State.init : State :=
  { enabledFgServiceName := none, enabledFgServiceUserId := 0, service := none
    serviceBound := false, serviceName := none, serviceUserId := 0, activeService := none
    activeServiceName := none, state := .idle, pendingPacket := none, messengers := 0, out := [] }

def State.emit (c : State) (o : Obs) : State := { c with out := c.out ++ [o] }

/-! ## The packets -/

def hexChars : List Char := "0123456789ABCDEF".toList

def bytesToString (bytes : List UInt8) (offset length : Nat) : List Char :=
  ((bytes.drop offset).take length).flatMap fun b =>
    [hexChars.getD (b.toNat / 16) '0', hexChars.getD (b.toNat % 16) '0']

def findNfcid2 (data : List UInt8) : Option (List Char) :=
  if data.length < MINIMUM_NFCF_PACKET_LENGTH then none
  else some (bytesToString data 2 NFCID2_LENGTH)

/-! ## The services -/

def sendDeactivateToActiveServiceLocked (c : State) (reason : Int) : State :=
  match c.activeService with
  | none => c
  | some active => c.emit (.deactivated active reason)

/-- Messengers are compared as objects. -/
def sendDataToServiceLocked (c : State) (service : Option Messenger) (data : List UInt8) :
    Option State :=
  let c :=
    if service ≠ c.activeService then
      { sendDeactivateToActiveServiceLocked c DEACTIVATION_LINK_LOSS with
        activeService := service
        activeServiceName := c.serviceName }
    else c
  c.activeService.map fun active => c.emit (.commandPacket active data)

def unbindServiceIfNeededLocked (c : State) : State :=
  if c.serviceBound then
    { c.emit .unbindService with
      serviceBound := false, service := none, serviceName := none, serviceUserId := -1 }
  else c

/-- The part of `bindServiceIfNeededLocked` that binds. -/
def bindServiceLocked (c : State) (userId : Int) (service : ComponentName) (result : BindResult) :
    State :=
  let c := (unbindServiceIfNeededLocked c).emit (.bindService ⟨userId, service⟩)
  match result with
  | .bound => { c with serviceBound := true, serviceUserId := userId }
  | .refused => { c with serviceBound := false }
  | .securityException => c

def bindServiceIfNeededLocked (c : State) (userId : Int) (service : ComponentName)
    (result : BindResult) : Option (Option Messenger × State) :=
  if c.serviceBound then
    c.serviceName.map fun name =>
      if name = service ∧ c.serviceUserId = userId then (c.service, c)
      else (none, bindServiceLocked c userId service result)
  else some (none, bindServiceLocked c userId service result)

/-! ## The callbacks -/

def onEnabledForegroundNfcFServiceChanged (c : State) (userId : Int)
    (service : Option ComponentName) : State :=
  let c := { c with enabledFgServiceUserId := userId, enabledFgServiceName := service }
  if service = none then
    unbindServiceIfNeededLocked (sendDeactivateToActiveServiceLocked c DEACTIVATION_LINK_LOSS)
  else c

/-- A packet of an enabled service in `STATE_IDLE`. -/
def startTransfer (c : State) (userId : Int) (service : ComponentName) (data : List UInt8)
    (bind : BindResult) : Option State :=
  (bindServiceIfNeededLocked c userId service bind).bind fun existing =>
    match existing with
    | (some messenger, c) => sendDataToServiceLocked { c with state := .xfer } (some messenger) data
    | (none, c) => some { c with pendingPacket := some data, state := .w4Service }

/-- `resolveNfcid2` is the look-up in the cache of T3T identifiers. -/
def onHostEmulationData (c : State) (data : List UInt8)
    (resolveNfcid2 : List Char → Option NfcFServiceInfo) (bind : BindResult) : Option State :=
  let resolvedService := (findNfcid2 data).bind resolveNfcid2
  match (resolvedService.map NfcFServiceInfo.component).or c.activeServiceName with
  | none => some c
  | some resolvedServiceName =>
    if c.enabledFgServiceName ≠ some resolvedServiceName then some c
    else
      match c.state with
      | .idle =>
        let userId := match resolvedService with
          | none => c.enabledFgServiceUserId
          | some info => userOf info.uid
        startTransfer c userId resolvedServiceName data bind
      | .w4Service => some c
      | .xfer => sendDataToServiceLocked c c.activeService data

/-- What `onHostEmulationDeactivated`, `onNfcDisabled` and `onUserSwitched` share. -/
def endActivation (c : State) : State :=
  let c := unbindServiceIfNeededLocked
    { sendDeactivateToActiveServiceLocked c DEACTIVATION_LINK_LOSS with
      activeService := none, activeServiceName := none }
  { c with state := .idle }

def onHostEmulationDeactivated (c : State) : State := endActivation c

def onNfcDisabled (c : State) : State := { endActivation c with enabledFgServiceName := none }

def onUserSwitched (c : State) : State := { endActivation c with enabledFgServiceName := none }

def onServiceConnected (c : State) (owner : Service) (binder : Nat) : Option State :=
  let c := { c with
    service := some ⟨c.messengers, binder, owner⟩
    serviceBound := true
    serviceName := some owner.component
    state := .xfer
    messengers := c.messengers + 1 }
  match c.pendingPacket with
  | none => some c
  | some packet =>
    (sendDataToServiceLocked c c.service packet).map fun c => { c with pendingPacket := none }

def onServiceDisconnected (c : State) : State :=
  { c with service := none, serviceBound := false, serviceName := none }

/-- The length byte of a response counts the whole packet. -/
def validResponse (data : List UInt8) : Bool :=
  data.length == 0 || data.length == (data.headD 0).toNat

/-- `replyTo` is the binder of the messenger to reply to. -/
def handleMessage (c : State) (what : Int) (data : Option (List UInt8)) (replyTo : Option Nat) :
    Option State :=
  match c.activeService with
  | none => some c
  | some active =>
    replyTo.map fun binder =>
      match data with
      | some data =>
        if binder = active.binder ∧ what = MSG_RESPONSE_PACKET ∧ validResponse data = true
            ∧ c.state = .xfer then c.emit (.sendData data)
        else c
      | none => c

inductive Event where
  | enabledForegroundNfcFServiceChanged (userId : Int) (service : Option ComponentName)
  | hostEmulationData (data : List UInt8) (resolveNfcid2 : List Char → Option NfcFServiceInfo)
      (bind : BindResult)
  | hostEmulationDeactivated
  | nfcDisabled
  | userSwitched
  | serviceConnected (owner : Service) (binder : Nat)
  | serviceDisconnected
  | message (what : Int) (data : Option (List UInt8)) (replyTo : Option Nat)

def handle (c : State) : Event → Option State
  | .enabledForegroundNfcFServiceChanged userId service =>
    some (onEnabledForegroundNfcFServiceChanged c userId service)
  | .hostEmulationData data resolveNfcid2 bind => onHostEmulationData c data resolveNfcid2 bind
  | .hostEmulationDeactivated => some (onHostEmulationDeactivated c)
  | .nfcDisabled => some (onNfcDisabled c)
  | .userSwitched => some (onUserSwitched c)
  | .serviceConnected owner binder => onServiceConnected c owner binder
  | .serviceDisconnected => some (onServiceDisconnected c)
  | .message what data replyTo => handleMessage c what data replyTo

/-- A callback, and only what it sends. -/
def step (c : State) (e : Event) : Option State := handle { c with out := [] } e

end NfcStack.CardEmulation.HostNfcF
