import NfcStack.Lib.Run

/- The preferred services of card emulation (`PreferredServices.java`): the service
   that the foreground app asks for, the default for the next tap, and the payment
   default of the settings. Each public method is one step. What the service cache,
   the AID cache, the settings, the wallet role and the activity manager answer while
   a step runs is its `Env`.

   Left out: the dumps, and `packageHasPreferredService`. -/
namespace NfcStack.CardEmulation

structure ComponentName where
  packageName : String
  className : String
  deriving DecidableEq, Repr

/-- `UserHandle.getUserHandleForUid(uid).getIdentifier()`. -/
def userOf (uid : Int) : Int := uid.tdiv 100000

namespace Preferred

def CATEGORY_PAYMENT : String := "payment"

/-- What is read of an `ApduServiceInfo`. -/
structure ApduServiceInfo where
  component : ComponentName
  uid : Int
  aids : List String
  hasPayment : Bool
  categoryForAid : String → String

/-- `ApduServiceInfo.equals`. -/
def ApduServiceInfo.same (a b : ApduServiceInfo) : Bool :=
  a.component == b.component && a.uid == b.uid

structure AidResolveInfo where
  defaultService : Option ApduServiceInfo
  category : Option String

structure Env where
  getService : Int → Option ComponentName → Option ApduServiceInfo
  getInstalledServices : Int → List ApduServiceInfo
  resolveAid : String → AidResolveInfo
  isWalletRoleFeatureEnabled : Bool
  /-- The package and the user of the role holder. -/
  getDefaultWalletRoleHolder : Int → Option String × Int
  registerUidToBackgroundCallback : Int → Bool
  isInForeground : Int → Bool
  /-- `ActivityManager.getCurrentUser()`. -/
  currentUser : Int
  enabledProfiles : List Int
  /-- The default component in the settings of a profile; `none` for an `IllegalStateException`. -/
  paymentDefaultComponent : Int → Option (Option String)
  /-- `none` for a `SettingNotFoundException`. -/
  paymentForeground : Int → Option Int
  unflattenFromString : String → Option ComponentName

structure PaymentDefaults where
  preferForeground : Bool
  settingsDefault : Option ComponentName
  currentPreferred : Option ComponentName
  userHandle : Option Int
  deriving DecidableEq

/-- The callbacks, with the user and the component they are given. -/
inductive Obs where
  | onPreferredPaymentServiceChanged (userId : Int) (service : Option ComponentName)
  | onPreferredForegroundServiceChanged (userId : Int) (service : Option ComponentName)
  deriving DecidableEq

structure State where
  paymentDefaults : PaymentDefaults
  foregroundRequested : Option ComponentName
  foregroundUid : Int
  nextTapDefault : Option ComponentName
  nextTapDefaultUserId : Int
  clearNextTapDefault : Bool
  foregroundCurrent : Option ComponentName
  foregroundCurrentUid : Int
  defaultWalletHolderPaymentService : Option ComponentName
  userIdDefaultWalletHolder : Int
  trace : List Obs
  deriving DecidableEq

def State.emit (c : State) (obs : Obs) : State := { c with trace := c.trace ++ [obs] }

/-! ## The foreground preference -/

/-- What `computePreferredForegroundService` prefers: the default of the next tap, else
the request of the foreground app. -/
def preferredService (c : State) : Option ComponentName :=
  match c.nextTapDefault with
  | some service => some service
  | none => c.foregroundRequested

def preferredServiceUserId (c : State) : Int :=
  match c.nextTapDefault with
  | some _ => c.nextTapDefaultUserId
  | none => userOf c.foregroundUid

/-- The test for a change: the user is compared with that of the remembered uid. -/
def preferenceChanged (c : State) : Bool :=
  match preferredService c with
  | some service => c.foregroundCurrent != some service
      || preferredServiceUserId c != userOf c.foregroundCurrentUid
  | none => c.foregroundCurrent.isSome

def computePreferredForegroundService (c : State) : State :=
  if preferenceChanged c then
    { c with
      foregroundCurrent := preferredService c
      foregroundCurrentUid := c.foregroundUid }.emit
      (.onPreferredForegroundServiceChanged (preferredServiceUserId c) (preferredService c))
  else c

/-- An AID of the service belongs to the payment default. -/
def conflicts (env : Env) (payment : ApduServiceInfo) (aid : String) : Bool :=
  (env.resolveAid aid).category == some CATEGORY_PAYMENT
    && (env.resolveAid aid).defaultService.any payment.same

/-- `isForegroundAllowedLocked`; `none` where the user of the payment default is null. -/
def isForegroundAllowed (env : Env) (p : PaymentDefaults) (service : ComponentName)
    (callingUid : Int) : Option Bool :=
  if p.currentPreferred = some service then some true
  else
    match env.getService (userOf callingUid) (some service) with
    | none => some false
    | some info =>
      if p.preferForeground then some true
      else if info.hasPayment then some false
      else
        p.userHandle.map fun user =>
          match env.getService user p.currentPreferred with
          | none => true
          | some payment => !info.aids.any (conflicts env payment)

def registerPreferredForegroundService (env : Env) (c : State) (service : ComponentName)
    (callingUid : Int) : State :=
  if isForegroundAllowed env c.paymentDefaults service callingUid = some true
      ∧ env.registerUidToBackgroundCallback callingUid then
    computePreferredForegroundService
      { c with foregroundRequested := some service, foregroundUid := callingUid }
  else c

def unregisterForegroundService (c : State) (uid : Int) : State :=
  if c.foregroundUid = uid then
    computePreferredForegroundService { c with foregroundRequested := none, foregroundUid := -1 }
  else c

def unregisteredPreferredForegroundService (env : Env) (c : State) (callingUid : Int) : State :=
  if env.isInForeground callingUid then unregisterForegroundService c callingUid else c

def setDefaultForNextTap (c : State) (userId : Int) (service : Option ComponentName) : State :=
  computePreferredForegroundService
    { c with nextTapDefault := service, nextTapDefaultUserId := userId }

/-- `onHostEmulationActivated` and `onOffHostAidSelected`. -/
def markNextTapDefault (c : State) : State :=
  { c with clearNextTapDefault := c.nextTapDefault.isSome }

def onHostEmulationDeactivated (c : State) : State :=
  if c.clearNextTapDefault then
    if c.nextTapDefault.isSome then
      computePreferredForegroundService
        { c with nextTapDefault := none, clearNextTapDefault := false }
    else { c with clearNextTapDefault := false }
  else c

/-! ## The payment preference -/

/-- The components of the package that have a payment AID. -/
def roleHolderPaymentServices (env : Env) (packageName : String) (userId : Int) :
    List ComponentName :=
  ((env.getInstalledServices userId).filter fun info =>
    info.component.packageName == packageName
      && info.aids.any fun aid => info.categoryForAid aid == CATEGORY_PAYMENT).map (·.component)

def onWalletRoleHolderChanged (env : Env) (c : State) (packageName : Option String)
    (userId : Int) : State × Bool :=
  match packageName with
  | none =>
    ({ c with
        defaultWalletHolderPaymentService := none
        userIdDefaultWalletHolder := userId }.emit
        (.onPreferredPaymentServiceChanged userId none), true)
  | some packageName =>
    let candidate := (roleHolderPaymentServices env packageName userId).head?
    if candidate ≠ c.defaultWalletHolderPaymentService ∨ userId ≠ c.userIdDefaultWalletHolder then
      ({ c with
          defaultWalletHolderPaymentService := candidate
          userIdDefaultWalletHolder := userId }.emit
          (.onPreferredPaymentServiceChanged userId candidate), true)
    else (c, false)

/-- One profile in the search for the payment default: the last one with a setting wins.
The accumulator has the profile, its setting, and the user that is loaded for. -/
def readProfile (env : Env) (userId : Int) (found : Option (Int × String) × Int) (uh : Int) :
    Option (Int × String) × Int :=
  match env.paymentDefaultComponent uh with
  | none => found
  | some name =>
    ((name.map fun name => (uh, name)).or found.1, if uh = userId then uh else found.2)

def loadDefaultsFromSettings (env : Env) (c : State) (userId : Int) (force : Bool) : State :=
  let found := env.enabledProfiles.foldl (readProfile env userId) (none, env.currentUser)
  let newUser := (found.1.map Prod.fst).getD found.2
  let newDefault := found.1.bind fun f => env.unflattenFromString f.2
  let preferForeground :=
    env.isWalletRoleFeatureEnabled || (env.paymentForeground found.2).any (· != 0)
  let p := c.paymentDefaults
  let preferForegroundChanged := preferForeground != p.preferForeground
  let defaultChanged :=
    match newDefault with
    | some service => p.currentPreferred != some service || p.userHandle != some newUser
    | none => p.currentPreferred.isSome
  let p := { p with preferForeground := preferForeground, settingsDefault := newDefault }
  let p :=
    if defaultChanged then { p with currentPreferred := newDefault, userHandle := some newUser }
    else p
  let c := { c with paymentDefaults := p }
  let c :=
    if !env.isWalletRoleFeatureEnabled && (defaultChanged || force) then
      c.emit (.onPreferredPaymentServiceChanged newUser newDefault)
    else c
  if preferForegroundChanged || force then computePreferredForegroundService c else c

/-! ## Updates and runs -/

/-- The foreground service may not override any more. -/
def foregroundRevoked (env : Env) (c : State) : Bool :=
  c.foregroundCurrent.any fun service =>
    isForegroundAllowed env c.paymentDefaults service c.foregroundCurrentUid == some false

/-- The check throws: nothing is updated. -/
def foregroundThrows (env : Env) (c : State) : Bool :=
  c.foregroundCurrent.any fun service =>
    isForegroundAllowed env c.paymentDefaults service c.foregroundCurrentUid == none

def onServicesUpdated (env : Env) (c : State) : State :=
  if foregroundThrows env c then c
  else
    let c :=
      if foregroundRevoked env c then
        computePreferredForegroundService
          { c with foregroundRequested := none, foregroundUid := -1, foregroundCurrentUid := -1 }
      else c
    if env.isWalletRoleFeatureEnabled ∧ 0 ≤ c.userIdDefaultWalletHolder then
      let holder := env.getDefaultWalletRoleHolder c.userIdDefaultWalletHolder
      (onWalletRoleHolderChanged env c holder.1 holder.2).1
    else c

/-- The constructor. -/
def State.new (env : Env) : State :=
  let c : State :=
    { paymentDefaults :=
        { preferForeground := false, settingsDefault := none, currentPreferred := none
          userHandle := none }
      foregroundRequested := none, foregroundUid := 0, nextTapDefault := none
      nextTapDefaultUserId := 0, clearNextTapDefault := false, foregroundCurrent := none
      foregroundCurrentUid := 0, defaultWalletHolderPaymentService := none
      userIdDefaultWalletHolder := 0, trace := [] }
  let c := loadDefaultsFromSettings env c env.currentUser false
  if env.isWalletRoleFeatureEnabled then
    let holder := env.getDefaultWalletRoleHolder env.currentUser
    (onWalletRoleHolderChanged env c holder.1 holder.2).1
  else c

inductive Op where
  | registerPreferredForegroundService (service : ComponentName) (callingUid : Int)
  | unregisteredPreferredForegroundService (callingUid : Int)
  | uidToBackground (uid : Int)
  | setDefaultForNextTap (userId : Int) (service : Option ComponentName)
  | hostEmulationActivated
  | offHostAidSelected
  | hostEmulationDeactivated
  | servicesUpdated
  | settingsChanged
  | userSwitched (userId : Int)
  | walletRoleHolderChanged (packageName : Option String) (userId : Int)
  deriving DecidableEq

structure Event where
  env : Env
  op : Op

def step (c : State) (e : Event) : Option State :=
  some <| match e.op with
  | .registerPreferredForegroundService service callingUid =>
    registerPreferredForegroundService e.env c service callingUid
  | .unregisteredPreferredForegroundService callingUid =>
    unregisteredPreferredForegroundService e.env c callingUid
  | .uidToBackground uid => unregisterForegroundService c uid
  | .setDefaultForNextTap userId service => setDefaultForNextTap c userId service
  | .hostEmulationActivated => markNextTapDefault c
  | .offHostAidSelected => markNextTapDefault c
  | .hostEmulationDeactivated => onHostEmulationDeactivated c
  | .servicesUpdated => onServicesUpdated e.env c
  | .settingsChanged => loadDefaultsFromSettings e.env c e.env.currentUser false
  | .userSwitched userId => loadDefaultsFromSettings e.env c userId true
  | .walletRoleHolderChanged packageName userId =>
    (onWalletRoleHolderChanged e.env c packageName userId).1

end Preferred
end NfcStack.CardEmulation
