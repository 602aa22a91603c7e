import NfcStack.Lib.Run
import NfcStack.CardEmulation.HostNfcF

/- The enabled NFC-F service. Four classes each keep it: `EnabledNfcFServices` (what was
   asked for and what is enabled), `RegisteredT3tIdentifiersCache` (its identifiers),
   `SystemCodeRoutingManager` (the identifiers registered with the controller) and
   `HostNfcFEmulationManager`. A step is one event as `CardEmulationManager` hands it on;
   it is `none` where a callback throws.

   The services of a user are those last reported: the service cache reports every list
   that it takes. A map of identifiers is an association list; it is cleared before it is
   filled. A service is a value: the objects of the source are shared by the classes, and a
   system code or an NFCID2 that is set at run time changes them in place. -/
namespace NfcStack.CardEmulation.NfcF

structure NfcFServiceInfo where
  component : ComponentName
  systemCode : String
  nfcid2 : String
  t3tPmm : String
  deriving DecidableEq, Repr

structure T3tIdentifier where
  systemCode : String
  nfcid2 : String
  t3tPmm : String
  deriving DecidableEq, Repr

/-- `String.equalsIgnoreCase`; the codes are ASCII. -/
def equalsIgnoreCase (s t : String) : Bool := s.toLower == t.toLower

/-- `T3tIdentifier.equals`: the PMm is not compared. -/
def T3tIdentifier.same (a b : T3tIdentifier) : Bool :=
  equalsIgnoreCase a.systemCode b.systemCode && equalsIgnoreCase a.nfcid2 b.nfcid2

structure State where
  -- EnabledNfcFServices
  foregroundComponent : Option ComponentName
  foregroundRequested : Option ComponentName
  foregroundUid : Int
  computeFgRequested : Bool
  activated : Bool
  -- RegisteredT3tIdentifiersCache
  userNfcFServiceInfo : Int → Option (List NfcFServiceInfo)
  foregroundT3tIdentifiersCache : List (String × NfcFServiceInfo)
  enabledForegroundService : Option ComponentName
  enabledForegroundServiceUserId : Int
  nfcEnabled : Bool
  -- SystemCodeRoutingManager
  configuredT3tIdentifiers : List T3tIdentifier
  /-- What the controller has registered. -/
  registered : List T3tIdentifier
  /-- `HostNfcFEmulationManager`. -/
  host : HostNfcF.State

def State.init : State :=
  { foregroundComponent := none, foregroundRequested := none, foregroundUid := -1
    computeFgRequested := false, activated := false, userNfcFServiceInfo := fun _ => none
    foregroundT3tIdentifiersCache := [], enabledForegroundService := none
    enabledForegroundServiceUserId := -1, nfcEnabled := false, configuredT3tIdentifiers := []
    registered := [], host := HostNfcF.State.init }

/-! ## The routing manager -/

/-- `SystemCodeRoutingManager.configureRouting`, and whether anything changed. -/
def configureRouting (c : State) (t3tIdentifiers : List T3tIdentifier) : State × Bool :=
  let toBeAdded := t3tIdentifiers.filter fun t => !c.configuredT3tIdentifiers.any t.same
  let toBeRemoved := c.configuredT3tIdentifiers.filter fun t => !t3tIdentifiers.any t.same
  if toBeAdded = [] ∧ toBeRemoved = [] then (c, false)
  else
    ({ c with
        registered := toBeRemoved.foldl List.erase c.registered ++ toBeAdded
        configuredT3tIdentifiers := t3tIdentifiers }, true)

def onNfccRoutingTableCleared (c : State) : State :=
  { c with registered := [], configuredT3tIdentifiers := [] }

/-! ## The cache of T3T identifiers -/

def isNull (s : String) : Bool := equalsIgnoreCase s "NULL"

def identifierOf (info : NfcFServiceInfo) : T3tIdentifier :=
  { systemCode := info.systemCode, nfcid2 := info.nfcid2, t3tPmm := info.t3tPmm }

/-- A forced update hands the routing manager an empty list and fills the same list later:
where the manager has kept it, the second call finds nothing to change. -/
def updateRoutingLocked (c : State) (force : Bool) : State :=
  if !c.nfcEnabled then c
  else
    let t3tIdentifiers := c.foregroundT3tIdentifiersCache.map fun entry => identifierOf entry.2
    if force then
      match configureRouting c [] with
      | (c, true) => { c with configuredT3tIdentifiers := t3tIdentifiers }
      | (c, false) => (configureRouting c t3tIdentifiers).1
    else (configureRouting c t3tIdentifiers).1

/-- The entry of a service: the first one of its component, if it has both codes. -/
def cacheEntry (services : List NfcFServiceInfo) (component : ComponentName) :
    List (String × NfcFServiceInfo) :=
  match services.find? fun info => component = info.component with
  | none => []
  | some info =>
    if !isNull info.systemCode && !isNull info.nfcid2 then [(info.nfcid2, info)] else []

def generateForegroundT3tIdentifiersCacheLocked (c : State) : Option State :=
  match c.enabledForegroundService with
  | none => some (updateRoutingLocked { c with foregroundT3tIdentifiersCache := [] } false)
  | some component =>
    (c.userNfcFServiceInfo c.enabledForegroundServiceUserId).map fun services =>
      updateRoutingLocked
        { c with foregroundT3tIdentifiersCache := cacheEntry services component } false

/-- `RegisteredT3tIdentifiersCache.onEnabledForegroundNfcFServiceChanged`. -/
def cacheEnabledServiceChanged (c : State) (userId : Int) :
    Option ComponentName → Option State
  | some component =>
    if c.enabledForegroundService.isSome ∧ c.enabledForegroundServiceUserId = userId then some c
    else
      generateForegroundT3tIdentifiersCacheLocked
        { c with
          enabledForegroundService := some component
          enabledForegroundServiceUserId := userId }
  | none =>
    if c.enabledForegroundService = none then some c
    else
      generateForegroundT3tIdentifiersCacheLocked
        { c with enabledForegroundService := none, enabledForegroundServiceUserId := -1 }

/-! ## The enabled services -/

/-- `CardEmulationManager.onEnabledForegroundNfcFServiceChanged`. -/
def onEnabledForegroundNfcFServiceChanged (c : State) (userId : Int)
    (service : Option ComponentName) : Option State :=
  (cacheEnabledServiceChanged c userId service).map fun c =>
    { c with host := HostNfcF.onEnabledForegroundNfcFServiceChanged c.host userId service }

def computeEnabledForegroundService (c : State) : Option State :=
  if c.activated then some { c with computeFgRequested := true }
  else
    let c := { c with computeFgRequested := false }
    if c.foregroundRequested ≠ c.foregroundComponent then
      onEnabledForegroundNfcFServiceChanged { c with foregroundComponent := c.foregroundRequested }
        (userOf c.foregroundUid) c.foregroundRequested
    else some c

def getService (c : State) (userId : Int) (service : ComponentName) : Option NfcFServiceInfo :=
  ((c.userNfcFServiceInfo userId).getD []).find? fun info => service = info.component

def registerEnabledForegroundService (c : State) (service : ComponentName) (callingUid : Nat)
    (inForeground : Bool) : Option State :=
  match getService c (userOf callingUid) service with
  | none => some c
  | some info =>
    if isNull info.systemCode || isNull info.nfcid2 || isNull info.t3tPmm then some c
    else if c.foregroundRequested = some service ∧ c.foregroundUid = callingUid then some c
    else if inForeground then
      computeEnabledForegroundService
        { c with foregroundRequested := some service, foregroundUid := callingUid }
    else some c

def unregisterForegroundService (c : State) (uid : Nat) : Option State :=
  if c.foregroundUid = uid then
    computeEnabledForegroundService { c with foregroundRequested := none, foregroundUid := -1 }
  else some c

/-! ## The events -/

def onNfcFServicesUpdated (c : State) (userId : Int) (services : List NfcFServiceInfo) :
    Option State :=
  let c := { c with userNfcFServiceInfo := Function.update c.userNfcFServiceInfo userId (some services) }
  if c.foregroundComponent.isSome then
    computeEnabledForegroundService { c with foregroundRequested := none, foregroundUid := -1 }
  else some c

def onHostCardEmulationDeactivated (c : State) : Option State :=
  let c := { c with host := HostNfcF.onHostEmulationDeactivated c.host, activated := false }
  if c.computeFgRequested then computeEnabledForegroundService c else some c

/-- What `EnabledNfcFServices` forgets when NFC goes off and when the user changes. -/
def forgetEnabled (c : State) : State :=
  { c with
    foregroundComponent := none, foregroundRequested := none, activated := false
    computeFgRequested := false, foregroundUid := -1 }

def onNfcDisabled (c : State) : State :=
  let c := { c with
    host := HostNfcF.onNfcDisabled c.host
    nfcEnabled := false
    foregroundT3tIdentifiersCache := []
    enabledForegroundService := none
    enabledForegroundServiceUserId := -1 }
  forgetEnabled (onNfccRoutingTableCleared c)

def onUserSwitched (c : State) : State :=
  let c := updateRoutingLocked
    { c with host := HostNfcF.onUserSwitched c.host, foregroundT3tIdentifiersCache := [] } false
  forgetEnabled { c with enabledForegroundService := none, enabledForegroundServiceUserId := -1 }

inductive Event where
  | enableService (service : ComponentName) (callingUid : Nat) (inForeground : Bool)
  | disableService (callingUid : Nat) (inForeground : Bool)
  | uidToBackground (uid : Nat)
  | hostEmulationActivated
  | hostEmulationDeactivated
  | servicesUpdated (userId : Int) (services : List NfcFServiceInfo)
  | nfcEnabled
  | nfcDisabled
  | userSwitched
  | triggerRoutingTableUpdate

def step (c : State) : Event → Option State
  | .enableService service callingUid inForeground =>
    registerEnabledForegroundService c service callingUid inForeground
  | .disableService callingUid inForeground =>
    if inForeground then unregisterForegroundService c callingUid else some c
  | .uidToBackground uid => unregisterForegroundService c uid
  | .hostEmulationActivated => some { c with activated := true }
  | .hostEmulationDeactivated => onHostCardEmulationDeactivated c
  | .servicesUpdated userId services => onNfcFServicesUpdated c userId services
  | .nfcEnabled => some { c with nfcEnabled := true }
  | .nfcDisabled => some (onNfcDisabled c)
  | .userSwitched => some (onUserSwitched c)
  | .triggerRoutingTableUpdate => some (updateRoutingLocked c true)

end NfcStack.CardEmulation.NfcF
