import NfcStack.Lib.Assoc

/-
  Dynamic settings of HCE services (`RegisteredServicesCache`).

  AID groups and off-host elements that an application registers at run time are
  kept twice: in `dynamicSettings`, which is what is written to the file, and in
  the cached `ApduServiceInfo`, which is what routing reads. Each of the four
  operations changes one or both, writes the file, and undoes by hand what it
  thinks it changed when the write fails.

  What is proved:
    1. `undone_register_iff`, `not_undone_remove`, `undone_setOffHost_iff`,
       `undone_resetOffHost` — which state lets each operation undo itself.
    2. `failed_persist_undone_iff` — a call whose write fails reports failure and
       leaves both stores as they were exactly in the states `Undoable` names.
    3. `group_lost` — a registration that fails loses the group registered before.

  Left out: the polling loop filters and the other settings of a service, which
  the four operations do not touch, and what a successful call reports.
-/
namespace NfcStack.CardEmulation.Settings
open NfcStack.Lib

/-- Component names are only compared. -/
abbrev ComponentName := Nat

structure AidGroup where
  category : String
  aids : List String
  deriving DecidableEq, Repr

/-- The part of `ApduServiceInfo` that the operations use. -/
structure ApduServiceInfo where
  uid : Nat
  isOnHost : Bool
  staticOffHost : Option String
  offHostSecureElement : Option String
  dynamicAidGroups : List (String × AidGroup)
  deriving DecidableEq, Repr

/-- `aidGroups` is a `HashMap`, and `null` is put into it as a value. -/
structure DynamicSettings where
  uid : Nat
  aidGroups : List (String × Option AidGroup)
  offHostSE : Option String
  deriving DecidableEq, Repr

structure UserServices where
  services : List (ComponentName × ApduServiceInfo)
  dynamicSettings : List (ComponentName × DynamicSettings)
  deriving DecidableEq, Repr

abbrev Cache := List (Int × UserServices)

/-- What a call returns, what `writeDynamicSettingsLocked` returned if it was
called, and the cache it leaves. -/
structure Answer where
  success : Bool
  wrote : Option Bool
  cache : Cache
  deriving DecidableEq, Repr

/-! ## The stores -/

def findOrCreateUser (cache : Cache) (userId : Int) : UserServices :=
  (cache.lookup userId).getD ⟨[], []⟩

def getService (cache : Cache) (userId : Int) (component : ComponentName) :
    Option ApduServiceInfo :=
  (findOrCreateUser cache userId).services.lookup component

def getSettings (cache : Cache) (userId : Int) (component : ComponentName) :
    Option DynamicSettings :=
  (findOrCreateUser cache userId).dynamicSettings.lookup component

def putService (cache : Cache) (userId : Int) (component : ComponentName)
    (info : ApduServiceInfo) : Cache :=
  let user := findOrCreateUser cache userId
  Assoc.put userId { user with services := Assoc.put component info user.services } cache

def putSettings (cache : Cache) (userId : Int) (component : ComponentName)
    (settings : DynamicSettings) : Cache :=
  let user := findOrCreateUser cache userId
  Assoc.put userId
    { user with dynamicSettings := Assoc.put component settings user.dynamicSettings } cache

/-- The write fails when the file cannot be written, and when a group is `null`:
the exception that raises is caught with the others. -/
def writeDynamicSettingsLocked (disk : Bool) (cache : Cache) : Bool :=
  disk && cache.all fun user => user.2.dynamicSettings.all fun service =>
    service.2.aidGroups.all fun group => group.2.isSome

def isPrivileged (callingUid : Nat) : Bool :=
  callingUid = 1000 || callingUid = 1027 || callingUid = 0

/-! ## AIDs -/

def isHexDigit (c : Char) : Bool :=
  ('0' ≤ c && c ≤ '9') || ('A' ≤ c && c ≤ 'F') || ('a' ≤ c && c ≤ 'f')

/-- `AID_PATTERN`: 10 to 32 hex digits, at most one `*`, at most one `#`. -/
def matchesAidPattern (cs : List Char) : Bool :=
  let digits := cs.takeWhile isHexDigit
  let rest := cs.dropWhile isHexDigit
  decide (10 ≤ digits.length) && decide (digits.length ≤ 32) &&
    (rest = [] || rest = ['*'] || rest = ['#'] || rest = ['*', '#'])

/-- A prefix or subset AID has odd length, any other one even length. -/
def isValidAid (aid : String) : Bool :=
  let cs := aid.toList
  let marked : Bool := cs.getLast? = some '*' || cs.getLast? = some '#'
  (if marked then cs.length % 2 ≠ 0 else cs.length % 2 = 0) && matchesAidPattern cs

/-! ## The operations -/

/-- A call that is refused before it changes anything. -/
def refused (cache : Cache) : Option Answer := some ⟨false, none, cache⟩

def mayChange (uid : Nat) (info : ApduServiceInfo) : Bool := isPrivileged uid || info.uid = uid

def registerAidGroupForService (disk : Bool) (cache : Cache) (userId : Int) (uid : Nat)
    (component : ComponentName) (aidGroup : AidGroup) : Option Answer :=
  match getService cache userId component with
  | none => refused cache
  | some info =>
    if !mayChange uid info then refused cache
    else if !aidGroup.aids.all isValidAid then refused cache
    else
      let cache := putService cache userId component
        { info with
          dynamicAidGroups := Assoc.put aidGroup.category aidGroup info.dynamicAidGroups }
      let settings := (getSettings cache userId component).getD ⟨info.uid, [], none⟩
      let settings := { settings with
        aidGroups := Assoc.put aidGroup.category (some aidGroup) settings.aidGroups }
      let cache := putSettings cache userId component settings
      if writeDynamicSettingsLocked disk cache then some ⟨true, some true, cache⟩
      else
        some ⟨false, some false, putSettings cache userId component
          { settings with aidGroups := Assoc.remove aidGroup.category settings.aidGroups }⟩

/-- The group is taken out of the cached service first; a failed write puts it, or
`null`, back into the settings only. -/
def removeAidGroupForService (disk : Bool) (cache : Cache) (userId : Int) (uid : Nat)
    (component : ComponentName) (category : String) : Option Answer :=
  match getService cache userId component with
  | none => refused cache
  | some info =>
    if !mayChange uid info then refused cache
    else match info.dynamicAidGroups.lookup category with
      | none => refused cache
      | some _ =>
        let cache := putService cache userId component
          { info with dynamicAidGroups := Assoc.remove category info.dynamicAidGroups }
        match getSettings cache userId component with
        | none => some ⟨false, none, cache⟩
        | some settings =>
          let deletedGroup := (settings.aidGroups.lookup category).join
          let settings := { settings with
            aidGroups := Assoc.remove category settings.aidGroups }
          let cache := putSettings cache userId component settings
          if writeDynamicSettingsLocked disk cache then some ⟨true, some true, cache⟩
          else
            some ⟨false, some false, putSettings cache userId component
              { settings with aidGroups := Assoc.put category deletedGroup settings.aidGroups }⟩

/-- `dynSettings.offHostSE = value`. Settings made for the call are not put into the
map, so the assignment is seen only where there were some. -/
def assignOffHost (cache : Cache) (userId : Int) (component : ComponentName)
    (value : Option String) : Cache :=
  match getSettings cache userId component with
  | some settings => putSettings cache userId component { settings with offHostSE := value }
  | none => cache

def setOffHostSecureElement (disk : Bool) (cache : Cache) (userId : Int) (uid : Nat)
    (component : ComponentName) (offHostSE : Option String) : Option Answer :=
  match getService cache userId component, offHostSE with
  | some info, some offHost =>
    if !mayChange uid info then refused cache
    else if info.isOnHost then refused cache
    else
      let cache := assignOffHost cache userId component (some offHost)
      if writeDynamicSettingsLocked disk cache then
        some ⟨true, some true,
          putService cache userId component { info with offHostSecureElement := some offHost }⟩
      else some ⟨false, some false, assignOffHost cache userId component none⟩
  | _, _ => refused cache

/-- `none` where the settings of the service are `null` and dereferenced. -/
def resetOffHostSecureElement (disk : Bool) (cache : Cache) (userId : Int) (uid : Nat)
    (component : ComponentName) : Option Answer :=
  match getService cache userId component with
  | none => refused cache
  | some info =>
    if !mayChange uid info then refused cache
    else if info.isOnHost || info.offHostSecureElement = none then refused cache
    else match getSettings cache userId component with
      | none => none
      | some settings =>
        let cache := putSettings cache userId component { settings with offHostSE := none }
        if writeDynamicSettingsLocked disk cache then
          some ⟨true, some true, putService cache userId component
            { info with offHostSecureElement := info.staticOffHost }⟩
        else
          some ⟨false, some false,
            putSettings cache userId component { settings with offHostSE := settings.offHostSE }⟩

inductive Call where
  | registerAidGroup (aidGroup : AidGroup)
  | removeAidGroup (category : String)
  | setOffHost (offHostSE : Option String)
  | resetOffHost
  deriving DecidableEq, Repr

structure Request where
  userId : Int
  uid : Nat
  component : ComponentName
  call : Call
  deriving DecidableEq, Repr

def perform (disk : Bool) (cache : Cache) (r : Request) : Option Answer :=
  match r.call with
  | .registerAidGroup aidGroup =>
    registerAidGroupForService disk cache r.userId r.uid r.component aidGroup
  | .removeAidGroup category =>
    removeAidGroupForService disk cache r.userId r.uid r.component category
  | .setOffHost offHostSE => setOffHostSecureElement disk cache r.userId r.uid r.component offHostSE
  | .resetOffHost => resetOffHostSecureElement disk cache r.userId r.uid r.component

/-! ## What the stores hold -/

/-- The group of a category in the settings of a service. -/
def groupOf (cache : Cache) (userId : Int) (component : ComponentName) (category : String) :
    Option AidGroup :=
  (getSettings cache userId component).bind fun settings =>
    (settings.aidGroups.lookup category).join

def offHostOf (cache : Cache) (userId : Int) (component : ComponentName) : Option String :=
  (getSettings cache userId component).bind DynamicSettings.offHostSE

/-- The dynamic group of a category in the cached service. -/
def cachedGroupOf (cache : Cache) (userId : Int) (component : ComponentName)
    (category : String) : Option AidGroup :=
  (getService cache userId component).bind fun info => info.dynamicAidGroups.lookup category

def cachedOffHostOf (cache : Cache) (userId : Int) (component : ComponentName) : Option String :=
  (getService cache userId component).bind ApduServiceInfo.offHostSecureElement

/-- Both stores hold the same groups and off-host elements. -/
structure Same (before after : Cache) : Prop where
  group : ∀ userId component category,
    groupOf after userId component category = groupOf before userId component category
  offHost : ∀ userId component, offHostOf after userId component = offHostOf before userId component
  cachedGroup : ∀ userId component category,
    cachedGroupOf after userId component category = cachedGroupOf before userId component category
  cachedOffHost : ∀ userId component,
    cachedOffHostOf after userId component = cachedOffHostOf before userId component

/-- The state lets the call undo itself: a group to register is in the cached
service and not in the settings, and an off-host element to set follows none. -/
def Undoable (cache : Cache) (r : Request) : Prop :=
  match r.call with
  | .registerAidGroup aidGroup =>
    cachedGroupOf cache r.userId r.component aidGroup.category = some aidGroup ∧
      groupOf cache r.userId r.component aidGroup.category = none
  | .removeAidGroup _ => False
  | .setOffHost _ => offHostOf cache r.userId r.component = none
  | .resetOffHost => True

/-! ## Reading after a change -/

theorem user_put (cache : Cache) (userId other : Int) (user : UserServices) :
    findOrCreateUser (Assoc.put userId user cache) other =
      if other = userId then user else findOrCreateUser cache other := by
  unfold findOrCreateUser
  rw [Assoc.lookup_put]
  split <;> rfl

section
variable (cache : Cache) (userId other : Int) (component name : ComponentName)
  (info : ApduServiceInfo) (settings : DynamicSettings)

theorem getService_putService :
    getService (putService cache userId component info) other name =
      if other = userId ∧ name = component then some info else getService cache other name := by
  unfold getService putService
  rw [user_put]
  by_cases hu : other = userId
  · rw [if_pos hu, Assoc.lookup_put, hu]
    simp only [true_and]
  · rw [if_neg hu, if_neg (fun h => hu h.1)]

theorem getSettings_putService :
    getSettings (putService cache userId component info) other name =
      getSettings cache other name := by
  unfold getSettings putService
  rw [user_put]
  by_cases hu : other = userId
  · rw [if_pos hu, hu]
  · rw [if_neg hu]

theorem getSettings_putSettings :
    getSettings (putSettings cache userId component settings) other name =
      if other = userId ∧ name = component then some settings
      else getSettings cache other name := by
  unfold getSettings putSettings
  rw [user_put]
  by_cases hu : other = userId
  · rw [if_pos hu, Assoc.lookup_put, hu]
    simp only [true_and]
  · rw [if_neg hu, if_neg (fun h => hu h.1)]

theorem getService_putSettings :
    getService (putSettings cache userId component settings) other name =
      getService cache other name := by
  unfold getService putSettings
  rw [user_put]
  by_cases hu : other = userId
  · rw [if_pos hu, hu]
  · rw [if_neg hu]

end

/-! ## Failed writes -/

variable {cache : Cache} {userId : Int} {uid : Nat} {component : ComponentName}
  {info : ApduServiceInfo} {settings : DynamicSettings}

theorem same_of_one {before after : Cache}
    (hservice : ∀ other name, ¬ (other = userId ∧ name = component) →
      getService after other name = getService before other name)
    (hsettings : ∀ other name, ¬ (other = userId ∧ name = component) →
      getSettings after other name = getSettings before other name)
    (hgroup : ∀ category,
      groupOf after userId component category = groupOf before userId component category)
    (hoffHost : offHostOf after userId component = offHostOf before userId component)
    (hcachedGroup : ∀ category,
      cachedGroupOf after userId component category =
        cachedGroupOf before userId component category)
    (hcachedOffHost : cachedOffHostOf after userId component =
      cachedOffHostOf before userId component) : Same before after := by
  constructor
  · intro other name category
    by_cases hone : other = userId ∧ name = component
    · obtain ⟨rfl, rfl⟩ := hone
      exact hgroup category
    · rw [groupOf, groupOf, hsettings other name hone]
  · intro other name
    by_cases hone : other = userId ∧ name = component
    · obtain ⟨rfl, rfl⟩ := hone
      exact hoffHost
    · rw [offHostOf, offHostOf, hsettings other name hone]
  · intro other name category
    by_cases hone : other = userId ∧ name = component
    · obtain ⟨rfl, rfl⟩ := hone
      exact hcachedGroup category
    · rw [cachedGroupOf, cachedGroupOf, hservice other name hone]
  · intro other name
    by_cases hone : other = userId ∧ name = component
    · obtain ⟨rfl, rfl⟩ := hone
      exact hcachedOffHost
    · rw [cachedOffHostOf, cachedOffHostOf, hservice other name hone]

theorem groupOf_putSettings (category : String) :
    groupOf (putSettings cache userId component settings) userId component category =
      (settings.aidGroups.lookup category).join := by
  rw [groupOf, getSettings_putSettings, if_pos ⟨rfl, rfl⟩, Option.bind_some]

theorem offHostOf_putSettings :
    offHostOf (putSettings cache userId component settings) userId component =
      settings.offHostSE := by
  rw [offHostOf, getSettings_putSettings, if_pos ⟨rfl, rfl⟩, Option.bind_some]

theorem cachedGroupOf_putSettings (category : String) :
    cachedGroupOf (putSettings cache userId component settings) userId component category =
      cachedGroupOf cache userId component category := by
  rw [cachedGroupOf, getService_putSettings, cachedGroupOf]

theorem cachedOffHostOf_putSettings :
    cachedOffHostOf (putSettings cache userId component settings) userId component =
      cachedOffHostOf cache userId component := by
  rw [cachedOffHostOf, getService_putSettings, cachedOffHostOf]

theorem cachedGroupOf_putService (category : String) :
    cachedGroupOf (putService cache userId component info) userId component category =
      info.dynamicAidGroups.lookup category := by
  rw [cachedGroupOf, getService_putService, if_pos ⟨rfl, rfl⟩, Option.bind_some]

theorem cachedOffHostOf_putService :
    cachedOffHostOf (putService cache userId component info) userId component =
      info.offHostSecureElement := by
  rw [cachedOffHostOf, getService_putService, if_pos ⟨rfl, rfl⟩, Option.bind_some]

theorem groupOf_getD (category : String) :
    ((((getSettings cache userId component).getD ⟨uid, [], none⟩).aidGroups).lookup category).join =
      groupOf cache userId component category := by
  unfold groupOf
  cases getSettings cache userId component <;> rfl

theorem offHostOf_getD :
    ((getSettings cache userId component).getD ⟨uid, [], none⟩).offHostSE =
      offHostOf cache userId component := by
  unfold offHostOf
  cases getSettings cache userId component <;> rfl

/-- A failed write ends in one of the four undos. -/
def Undone (cache : Cache) (answer : Answer) : Prop :=
  answer.success = false ∧ Same cache answer.cache

variable {answer : Answer}

theorem undone_register_iff {aidGroup : AidGroup} {disk : Bool}
    (h : registerAidGroupForService disk cache userId uid component aidGroup = some answer)
    (hwrote : answer.wrote = some false) :
    Undone cache answer ↔
      cachedGroupOf cache userId component aidGroup.category = some aidGroup ∧
        groupOf cache userId component aidGroup.category = none := by
  unfold registerAidGroupForService at h
  split at h
  next => cases h; cases hwrote
  next info hinfo =>
    split at h
    · cases h; cases hwrote
    · split at h
      · cases h; cases hwrote
      · dsimp only at h
        split at h
        · cases h; cases hwrote
        · obtain rfl := Option.some.inj h
          rw [getSettings_putService]
          constructor
          · rintro ⟨-, hsame⟩
            have hcached := hsame.cachedGroup userId component aidGroup.category
            have hgroup := hsame.group userId component aidGroup.category
            rw [cachedGroupOf_putSettings, cachedGroupOf_putSettings, cachedGroupOf_putService,
              Assoc.lookup_put, if_pos rfl] at hcached
            rw [groupOf_putSettings, Assoc.lookup_remove, if_pos rfl] at hgroup
            exact ⟨hcached.symm, hgroup.symm⟩
          · rintro ⟨hcached, hgroup⟩
            refine ⟨rfl, @same_of_one userId component _ _ ?_ ?_ ?_ ?_ ?_ ?_⟩
            · intro other name hone
              rw [getService_putSettings, getService_putSettings, getService_putService, if_neg hone]
            · intro other name hone
              rw [getSettings_putSettings, if_neg hone, getSettings_putSettings, if_neg hone,
                getSettings_putService]
            · intro category
              rw [groupOf_putSettings, Assoc.lookup_remove]
              split
              next heq => rw [heq, hgroup]; rfl
              next hne => rw [Assoc.lookup_put, if_neg hne, groupOf_getD]
            · rw [offHostOf_putSettings]
              exact offHostOf_getD
            · intro category
              rw [cachedGroupOf_putSettings, cachedGroupOf_putSettings, cachedGroupOf_putService,
                Assoc.lookup_put]
              split
              next heq => rw [heq, hcached]
              next => rw [cachedGroupOf, hinfo, Option.bind_some]
            · rw [cachedOffHostOf_putSettings, cachedOffHostOf_putSettings,
                cachedOffHostOf_putService, cachedOffHostOf, hinfo, Option.bind_some]

theorem not_undone_remove {category : String} {disk : Bool}
    (h : removeAidGroupForService disk cache userId uid component category = some answer)
    (hwrote : answer.wrote = some false) : ¬ Undone cache answer := by
  unfold removeAidGroupForService at h
  split at h
  next => cases h; cases hwrote
  next info hinfo =>
    split at h
    · cases h; cases hwrote
    · split at h
      next => cases h; cases hwrote
      next group hgroup =>
        dsimp only at h
        split at h
        next => cases h; cases hwrote
        next settings hsettings =>
          split at h
          · cases h; cases hwrote
          · obtain rfl := Option.some.inj h
            rintro ⟨-, hsame⟩
            have hcached := hsame.cachedGroup userId component category
            rw [cachedGroupOf_putSettings, cachedGroupOf_putSettings, cachedGroupOf_putService,
              Assoc.lookup_remove, if_pos rfl, cachedGroupOf, hinfo, Option.bind_some,
              hgroup] at hcached
            cases hcached

theorem same_put_back {settings changed : DynamicSettings} (hsettings : getSettings cache userId component = some settings) :
    Same cache (putSettings (putSettings cache userId component changed) userId component settings) := by
  refine @same_of_one userId component _ _ ?_ ?_ ?_ ?_ ?_ ?_
  · intro other name _
    rw [getService_putSettings, getService_putSettings]
  · intro other name hone
    rw [getSettings_putSettings, if_neg hone, getSettings_putSettings, if_neg hone]
  · intro category
    rw [groupOf_putSettings, groupOf, hsettings]
    rfl
  · rw [offHostOf_putSettings, offHostOf, hsettings]
    rfl
  · intro category
    rw [cachedGroupOf_putSettings, cachedGroupOf_putSettings]
  · rw [cachedOffHostOf_putSettings, cachedOffHostOf_putSettings]

theorem undone_assign_iff {offHost : Option String} :
    Undone cache ⟨false, some false, assignOffHost (assignOffHost cache userId component offHost)
      userId component none⟩ ↔ offHostOf cache userId component = none := by
  cases hsettings : getSettings cache userId component with
  | none =>
    have hkept : ∀ value, assignOffHost cache userId component value = cache := by
      intro value
      rw [assignOffHost, hsettings]
    rw [hkept, hkept, offHostOf, hsettings]
    exact iff_of_true ⟨rfl, fun _ _ _ => rfl, fun _ _ => rfl, fun _ _ _ => rfl, fun _ _ => rfl⟩ rfl
  | some settings =>
    have hassigned : assignOffHost (assignOffHost cache userId component offHost) userId component
        none = putSettings (putSettings cache userId component { settings with offHostSE := offHost })
          userId component { settings with offHostSE := none } := by
      have hfirst : assignOffHost cache userId component offHost =
          putSettings cache userId component { settings with offHostSE := offHost } := by
        rw [assignOffHost, hsettings]
      rw [hfirst, assignOffHost, getSettings_putSettings, if_pos ⟨rfl, rfl⟩]
    have hoff : offHostOf cache userId component = settings.offHostSE := by
      rw [offHostOf, hsettings, Option.bind_some]
    rw [hassigned, hoff]
    constructor
    · rintro ⟨-, hsame⟩
      have hoff' := hsame.offHost userId component
      rw [offHostOf_putSettings, hoff] at hoff'
      exact hoff'.symm
    · intro hnone
      have hback : { settings with offHostSE := none } = settings := by rw [← hnone]
      rw [hback]
      exact ⟨rfl, same_put_back hsettings⟩

theorem undone_setOffHost_iff {offHostSE : Option String} {disk : Bool}
    (h : setOffHostSecureElement disk cache userId uid component offHostSE = some answer)
    (hwrote : answer.wrote = some false) :
    Undone cache answer ↔ offHostOf cache userId component = none := by
  unfold setOffHostSecureElement at h
  split at h
  next info offHost hinfo _ =>
    split at h
    · cases h; cases hwrote
    · split at h
      · cases h; cases hwrote
      · dsimp only at h
        split at h
        · cases h; cases hwrote
        · obtain rfl := Option.some.inj h
          exact undone_assign_iff
  next => cases h; cases hwrote

theorem undone_resetOffHost {disk : Bool}
    (h : resetOffHostSecureElement disk cache userId uid component = some answer)
    (hwrote : answer.wrote = some false) : Undone cache answer := by
  unfold resetOffHostSecureElement at h
  split at h
  next => cases h; cases hwrote
  next info hinfo =>
    split at h
    · cases h; cases hwrote
    · split at h
      · cases h; cases hwrote
      · split at h
        next => cases h
        next settings hsettings =>
          dsimp only at h
          split at h
          · cases h; cases hwrote
          · obtain rfl := Option.some.inj h
            exact ⟨rfl, same_put_back hsettings⟩

theorem failed_persist_undone_iff {disk : Bool} {cache : Cache} {r : Request} {answer : Answer}
    (h : perform disk cache r = some answer) (hwrote : answer.wrote = some false) :
    (answer.success = false ∧ Same cache answer.cache) ↔ Undoable cache r := by
  unfold perform at h
  unfold Undoable
  split at h
  · exact undone_register_iff h hwrote
  · exact iff_of_false (not_undone_remove h hwrote) id
  · exact undone_setOffHost_iff h hwrote
  · exact iff_of_true (undone_resetOffHost h hwrote) trivial

/-! ## A group that is lost -/

/-- One service of the application 10001, as the manifests give it. -/
def installed : Cache := [(0, ⟨[(1, ⟨10001, true, none, none, []⟩)], []⟩)]

/-- The application registers a group for its service. -/
def registration (aids : List String) : Request :=
  ⟨0, 10001, 1, .registerAidGroup ⟨"payment", aids⟩⟩

theorem group_lost :
    ∃ before after, perform true installed (registration ["A0000000031010"]) = some before ∧
      before.success = true ∧
      perform false before.cache (registration ["A0000000041010"]) = some after ∧
      after.wrote = some false ∧
      groupOf before.cache 0 1 "payment" = some ⟨"payment", ["A0000000031010"]⟩ ∧
      groupOf after.cache 0 1 "payment" = none ∧ ¬ Same before.cache after.cache := by
  refine ⟨_, _, rfl, by decide, rfl, by decide, by decide, by decide, ?_⟩
  intro hsame
  have hgroup := hsame.group 0 1 "payment"
  revert hgroup
  decide

/-- One off-host service whose element was set to the SIM. -/
def offHostSet : Cache :=
  [(0, ⟨[(1, ⟨10001, false, some "eSE", some "SIM", []⟩)], [(1, ⟨10001, [], some "SIM"⟩)]⟩)]

/-- The element is reset, and the write fails. -/
theorem failed_reset_undone :
    ∃ answer, perform false offHostSet ⟨0, 10001, 1, .resetOffHost⟩ = some answer ∧
      answer.wrote = some false ∧ answer.success = false ∧ Same offHostSet answer.cache := by
  refine ⟨_, rfl, rfl, ?_⟩
  apply (@failed_persist_undone_iff false offHostSet ⟨0, 10001, 1, .resetOffHost⟩ _ rfl rfl).2
  trivial

end NfcStack.CardEmulation.Settings
