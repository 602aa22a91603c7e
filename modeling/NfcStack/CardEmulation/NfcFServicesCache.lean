import NfcStack.Lib.Assoc
import NfcStack.CardEmulation.NfcFServices

/-
  The cache of NFC-F services (`RegisteredNfcFServicesCache`) of one user.

  `invalidateCache` compares the installed services with the cached ones, puts
  what is new, removes what is gone, and then lays the system codes and NFCID2s
  that applications have set at run time over the services that are left. A
  service whose manifest has changed is both new and gone.

  Correspondence (Java ↔ Lean):
    `UserServices.services`                       ↔ `State.services`
    `UserServices.dynamicSystemCode`              ↔ `State.dynamicSystemCode`
    `UserServices.dynamicNfcid2`                  ↔ `State.dynamicNfcid2`
    `Math.random()` for a service                 ↔ `random`

  What is proved:
    1. `lookup_updateServices` — what the two lists leave of a component.
    2. `invalidateCache_exact_iff` — a refresh is exact, and a second one changes
       nothing, exactly when no service is there with a changed manifest, and a
       refresh that finds no service changed finds nothing else to do.
    3. `changed_service_lost` — a service with a new system code is lost.

  Left out: the file, which only a restart reads, and what is reported of the
  services.
-/
namespace NfcStack.CardEmulation.NfcFCache
open NfcStack.Lib
open NfcStack.CardEmulation.NfcF (equalsIgnoreCase)

abbrev ComponentName := Nat

structure NfcFServiceInfo where
  component : ComponentName
  uid : Nat
  systemCode : String
  nfcid2 : String
  t3tPmm : String
  dynamicSystemCode : Option String
  dynamicNfcid2 : Option String
  deriving DecidableEq, Repr

/-- `NfcFServiceInfo.equals` does not look at what was set at run time. -/
def NfcFServiceInfo.equals (a b : NfcFServiceInfo) : Bool :=
  a.component = b.component && a.uid = b.uid && a.systemCode = b.systemCode &&
    a.nfcid2 = b.nfcid2 && a.t3tPmm = b.t3tPmm

def NfcFServiceInfo.getNfcid2 (info : NfcFServiceInfo) : String :=
  info.dynamicNfcid2.getD info.nfcid2

def NfcFServiceInfo.setDynamicSystemCode (info : NfcFServiceInfo) (systemCode : String) :
    NfcFServiceInfo := { info with dynamicSystemCode := some systemCode }

def NfcFServiceInfo.setDynamicNfcid2 (info : NfcFServiceInfo) (nfcid2 : String) :
    NfcFServiceInfo := { info with dynamicNfcid2 := some nfcid2 }

structure Dynamic where
  uid : Nat
  value : String
  deriving DecidableEq, Repr

structure State where
  userSwitched : Bool
  services : List (ComponentName × NfcFServiceInfo)
  dynamicSystemCode : List (ComponentName × Dynamic)
  dynamicNfcid2 : List (ComponentName × Dynamic)
  deriving DecidableEq, Repr

/-! ## The services -/

def toBeAdded (validServices : List NfcFServiceInfo)
    (services : List (ComponentName × NfcFServiceInfo)) : List NfcFServiceInfo :=
  validServices.filter fun validService => !services.any fun entry => validService.equals entry.2

def toBeRemoved (validServices : List NfcFServiceInfo)
    (services : List (ComponentName × NfcFServiceInfo)) : List NfcFServiceInfo :=
  (services.map Prod.snd).filter fun cachedService =>
    !validServices.any fun validService => cachedService.equals validService

/-- The new services are put in first, then those that are gone are removed. -/
def updateServices (validServices : List NfcFServiceInfo)
    (services : List (ComponentName × NfcFServiceInfo)) : List (ComponentName × NfcFServiceInfo) :=
  (toBeRemoved validServices services).foldl (fun map service => Assoc.remove service.component map)
    ((toBeAdded validServices services).foldl
      (fun map service => Assoc.put service.component service map) services)

/-! ## What was set at run time -/

/-- No service of the component, or one of another uid. -/
def isStale (services : List (ComponentName × NfcFServiceInfo))
    (entry : ComponentName × Dynamic) : Bool :=
  match services.lookup entry.1 with
  | none => true
  | some service => service.uid ≠ entry.2.uid

/-- The loop that applies the records of one kind. -/
def applyRecords (set : NfcFServiceInfo → String → NfcFServiceInfo)
    (records : List (ComponentName × Dynamic)) (services : List (ComponentName × NfcFServiceInfo)) :
    List (ComponentName × NfcFServiceInfo) :=
  records.foldl (fun services entry =>
    match services.lookup entry.1 with
    | none => services
    | some service =>
      if service.uid ≠ entry.2.uid then services
      else Assoc.put entry.1 (set service entry.2.value) services) services

def removeStale (services : List (ComponentName × NfcFServiceInfo))
    (records : List (ComponentName × Dynamic)) : List (ComponentName × Dynamic) :=
  (records.filter (isStale services)).foldl (fun map entry => Assoc.remove entry.1 map) records

def generateRandomNfcid2 (random : Fin (2 ^ 48)) : String :=
  String.ofList ('0' :: '2' :: 'F' :: 'E' :: [5, 4, 3, 2, 1, 0].flatMap fun i : Nat =>
    let byte := random.val / 2 ^ (8 * i) % 256
    [(byte / 16).digitChar.toUpper, (byte % 16).digitChar.toUpper])

def isRandom (info : NfcFServiceInfo) : Bool := equalsIgnoreCase info.getNfcid2 "RANDOM"

/-- The loop that gives a NFCID2 to the services that ask for a random one. -/
def assignNfcid2s (random : ComponentName → Fin (2 ^ 48))
    (services : List (ComponentName × NfcFServiceInfo)) (records : List (ComponentName × Dynamic)) :
    List (ComponentName × NfcFServiceInfo) × List (ComponentName × Dynamic) :=
  (services.map fun entry =>
    (entry.1, if isRandom entry.2 then
      entry.2.setDynamicNfcid2 (generateRandomNfcid2 (random entry.1)) else entry.2),
   services.foldl (fun records entry =>
    if isRandom entry.2 then
      Assoc.put entry.1 ⟨entry.2.uid, generateRandomNfcid2 (random entry.1)⟩ records
    else records) records)

/-! ## The refresh -/

/-- Everything after the check whether anything changed. -/
def rebuild (random : ComponentName → Fin (2 ^ 48)) (validServices : List NfcFServiceInfo)
    (s : State) : State :=
  let services := updateServices validServices s.services
  let services := applyRecords NfcFServiceInfo.setDynamicSystemCode s.dynamicSystemCode services
  let services := applyRecords NfcFServiceInfo.setDynamicNfcid2 s.dynamicNfcid2 services
  let dynamicSystemCode := removeStale services s.dynamicSystemCode
  let dynamicNfcid2 := removeStale services s.dynamicNfcid2
  let assigned := assignNfcid2s random services dynamicNfcid2
  { userSwitched := false, services := assigned.1, dynamicSystemCode := dynamicSystemCode
    dynamicNfcid2 := assigned.2 }

def invalidateCache (random : ComponentName → Fin (2 ^ 48)) (validServices : List NfcFServiceInfo)
    (s : State) : State :=
  if !s.userSwitched && (toBeAdded validServices s.services).isEmpty &&
      (toBeRemoved validServices s.services).isEmpty then s
  else rebuild random validServices s

/-! ## What a refresh is to do -/

/-- A map has each key once, and a service is kept under its component. -/
structure Valid (s : State) : Prop where
  services : Assoc.Keyed s.services
  component : ∀ entry ∈ s.services, entry.2.component = entry.1
  dynamicSystemCode : Assoc.Keyed s.dynamicSystemCode
  dynamicNfcid2 : Assoc.Keyed s.dynamicNfcid2

def installedAt (validServices : List NfcFServiceInfo) (component : ComponentName) :
    Option NfcFServiceInfo :=
  validServices.find? fun service => service.component = component

/-- The record of a component, if it is of an installed service and has its uid. -/
def recordOf (validServices : List NfcFServiceInfo) (records : List (ComponentName × Dynamic))
    (component : ComponentName) : Option Dynamic :=
  (records.lookup component).filter fun record =>
    (installedAt validServices component).any fun service => service.uid = record.uid

/-- What an installed service has before the refresh: it may be cached already. -/
def before (s : State) (service : NfcFServiceInfo) : NfcFServiceInfo :=
  (s.services.lookup service.component).getD service

/-- A recorded value, and without one what the service has before. -/
def overlay (validServices : List NfcFServiceInfo) (records : List (ComponentName × Dynamic))
    (component : ComponentName) (old : Option String) : Option String :=
  match recordOf validServices records component with
  | some record => some record.value
  | none => old

/-- The service asks for a random NFCID2, with its recorded one if there is one. -/
def asksRandom (validServices : List NfcFServiceInfo) (s : State) (service : NfcFServiceInfo) :
    Bool :=
  equalsIgnoreCase ((overlay validServices s.dynamicNfcid2 service.component
    (before s service).dynamicNfcid2).getD service.nfcid2) "RANDOM"

/-- `t` is `s` refreshed for the installed services. -/
structure Exact (random : ComponentName → Fin (2 ^ 48)) (validServices : List NfcFServiceInfo)
    (s t : State) : Prop where
  /-- Every installed service is cached. -/
  cached : ∀ service ∈ validServices,
    ∃ info, t.services.lookup service.component = some info ∧ info.equals service = true
  /-- No other one is. -/
  installed : ∀ component info, t.services.lookup component = some info →
    (installedAt validServices component).isSome = true
  systemCode : ∀ service ∈ validServices, ∀ info,
    t.services.lookup service.component = some info →
      info.dynamicSystemCode = overlay validServices s.dynamicSystemCode service.component
        (before s service).dynamicSystemCode
  nfcid2 : ∀ service ∈ validServices, ∀ info,
    t.services.lookup service.component = some info →
      info.dynamicNfcid2 =
        if asksRandom validServices s service then
          some (generateRandomNfcid2 (random service.component))
        else overlay validServices s.dynamicNfcid2 service.component
          (before s service).dynamicNfcid2
  noRandom : ∀ component info, t.services.lookup component = some info → isRandom info = false
  /-- The records kept are those of the installed services. -/
  systemCodes : ∀ component,
    t.dynamicSystemCode.lookup component = recordOf validServices s.dynamicSystemCode component
  /-- They are, and the NFCID2s assigned. -/
  nfcid2s : ∀ component, t.dynamicNfcid2.lookup component =
    match installedAt validServices component with
    | none => none
    | some service =>
      if asksRandom validServices s service then
        some ⟨service.uid, generateRandomNfcid2 (random component)⟩
      else recordOf validServices s.dynamicNfcid2 component

/-- No installed service is cached with other identifiers or another uid. -/
def NoneChanged (validServices : List NfcFServiceInfo) (s : State) : Prop :=
  ∀ service ∈ validServices, ∀ info,
    s.services.lookup service.component = some info → service.equals info = true

/-- The refresh finds the user the same and every service as it was. -/
def Unchanged (validServices : List NfcFServiceInfo) (s : State) : Prop :=
  s.userSwitched = false ∧ toBeAdded validServices s.services = [] ∧
    toBeRemoved validServices s.services = []

/-- Every record is of a cached service with its uid and is applied to it, and no service
asks for a random NFCID2. -/
structure Settled (s : State) : Prop where
  systemCodes : ∀ component record, s.dynamicSystemCode.lookup component = some record →
    ∃ info, s.services.lookup component = some info ∧ info.uid = record.uid ∧
      info.dynamicSystemCode = some record.value
  nfcid2s : ∀ component record, s.dynamicNfcid2.lookup component = some record →
    ∃ info, s.services.lookup component = some info ∧ info.uid = record.uid ∧
      info.dynamicNfcid2 = some record.value
  noRandom : ∀ component info, s.services.lookup component = some info → isRandom info = false

/-! ## Equality -/

theorem equals_iff {a b : NfcFServiceInfo} :
    a.equals b = true ↔ a.component = b.component ∧ a.uid = b.uid ∧
      a.systemCode = b.systemCode ∧ a.nfcid2 = b.nfcid2 ∧ a.t3tPmm = b.t3tPmm := by
  simp [NfcFServiceInfo.equals, and_assoc]

theorem equals_comm (a b : NfcFServiceInfo) : a.equals b = b.equals a := by
  have himp : ∀ {a b : NfcFServiceInfo}, a.equals b = true → b.equals a = true := by
    intro a b h
    obtain ⟨h₁, h₂, h₃, h₄, h₅⟩ := equals_iff.mp h
    exact equals_iff.mpr ⟨h₁.symm, h₂.symm, h₃.symm, h₄.symm, h₅.symm⟩
  exact Bool.eq_iff_iff.mpr ⟨himp, himp⟩

theorem equals_set {a b : NfcFServiceInfo} (value : String) :
    (a.setDynamicSystemCode value).equals b = a.equals b ∧
      (a.setDynamicNfcid2 value).equals b = a.equals b := ⟨rfl, rfl⟩

/-! ## The installed services -/

section
variable {validServices : List NfcFServiceInfo} {component : ComponentName}
  {service : NfcFServiceInfo}

theorem installedAt_some (h : installedAt validServices component = some service) :
    service ∈ validServices ∧ service.component = component := by
  have hfound := List.find?_some h
  exact ⟨List.mem_of_find?_eq_some h, by simpa using hfound⟩

theorem installedAt_of_mem (hdistinct : (validServices.map NfcFServiceInfo.component).Nodup)
    (h : service ∈ validServices) : installedAt validServices service.component = some service := by
  induction validServices with
  | nil => cases h
  | cons first rest ih =>
    rw [List.map_cons, List.nodup_cons] at hdistinct
    unfold installedAt at ih ⊢
    rw [List.find?_cons]
    rcases List.mem_cons.mp h with rfl | h
    · simp
    · have hne : first.component ≠ service.component := by
        intro heq
        exact hdistinct.1 (heq ▸ List.mem_map_of_mem h)
      simp only [hne, decide_false]
      exact ih hdistinct.2 h

theorem installedAt_none : installedAt validServices component = none ↔
    ∀ service ∈ validServices, service.component ≠ component := by
  simp [installedAt]

end

/-! ## Updating the services -/

section
variable {services : List (ComponentName × NfcFServiceInfo)} {component : ComponentName}

theorem lookup_putServices (added : List NfcFServiceInfo)
    (hdistinct : (added.map NfcFServiceInfo.component).Nodup) :
    ∀ services : List (ComponentName × NfcFServiceInfo),
      (added.foldl (fun map service => Assoc.put service.component service map) services).lookup
          component =
        (installedAt added component).or (services.lookup component) := by
  induction added with
  | nil => simp [installedAt]
  | cons first added ih =>
    intro services
    rw [List.map_cons, List.nodup_cons] at hdistinct
    rw [List.foldl_cons, ih hdistinct.2, Assoc.lookup_put]
    unfold installedAt
    rw [List.find?_cons]
    by_cases h : component = first.component
    · have hnone : installedAt added component = none := by
        apply installedAt_none.mpr
        intro service hservice heq
        exact hdistinct.1 (h ▸ heq ▸ List.mem_map_of_mem hservice)
      unfold installedAt at hnone
      rw [hnone, if_pos h]
      simp [h]
    · simp [h, Ne.symm h]

theorem mem_toBeAdded {validServices : List NfcFServiceInfo} {service : NfcFServiceInfo} :
    service ∈ toBeAdded validServices services ↔
      service ∈ validServices ∧ ∀ entry ∈ services, service.equals entry.2 = false := by
  simp [toBeAdded]

theorem mem_toBeRemoved {validServices : List NfcFServiceInfo} {service : NfcFServiceInfo} :
    service ∈ toBeRemoved validServices services ↔
      (∃ entry ∈ services, entry.2 = service) ∧
        ∀ valid ∈ validServices, service.equals valid = false := by
  simp [toBeRemoved]

section
variable {validServices : List NfcFServiceInfo} (hkeyed : Assoc.Keyed services)
  (hcomponent : ∀ entry ∈ services, entry.2.component = entry.1)
  (hdistinct : (validServices.map NfcFServiceInfo.component).Nodup)

include hcomponent in
theorem component_of_lookup {cached : NfcFServiceInfo}
    (h : services.lookup component = some cached) : cached.component = component :=
  hcomponent (component, cached) (Assoc.mem_of_lookup h)

include hkeyed hcomponent

theorem mem_removed :
    component ∈ (toBeRemoved validServices services).map NfcFServiceInfo.component ↔
      ∃ cached, services.lookup component = some cached ∧
        ∀ valid ∈ validServices, cached.equals valid = false := by
  rw [List.mem_map]
  constructor
  · intro ⟨service, hservice, heq⟩
    obtain ⟨⟨entry, hentry, hsame⟩, hnone⟩ := mem_toBeRemoved.mp hservice
    refine ⟨service, ?_, hnone⟩
    rw [← heq, ← hsame, hcomponent entry hentry]
    exact Assoc.lookup_of_mem hkeyed hentry
  · intro ⟨cached, hcached, hnone⟩
    have hmem := Assoc.mem_of_lookup hcached
    exact ⟨cached, mem_toBeRemoved.mpr ⟨⟨_, hmem, rfl⟩, hnone⟩,
      component_of_lookup hcomponent hcached⟩

include hdistinct

theorem installedAt_added :
    installedAt (toBeAdded validServices services) component =
      (installedAt validServices component).filter fun service =>
        !(services.lookup component).any service.equals := by
  have hadded : ((toBeAdded validServices services).map NfcFServiceInfo.component).Nodup :=
    hdistinct.sublist (List.filter_sublist.map _)
  have hmem : ∀ service, service.component = component →
      (service ∈ toBeAdded validServices services ↔ service ∈ validServices ∧
        (services.lookup component).any service.equals = false) := by
    intro service hservice
    rw [mem_toBeAdded]
    apply and_congr_right
    intro _
    constructor
    · intro hnone
      cases hcached : services.lookup component with
      | none => rfl
      | some cached => simp [hnone _ (Assoc.mem_of_lookup hcached)]
    · intro hany entry hentry
      by_contra hequals
      rw [Bool.not_eq_false] at hequals
      have hentryat : entry.1 = component := by
        rw [← hcomponent entry hentry, ← (equals_iff.mp hequals).1, hservice]
      rw [← hentryat, Assoc.lookup_of_mem hkeyed hentry, Option.any_some, hequals] at hany
      cases hany
  cases hvalid : installedAt validServices component with
  | none =>
    rw [Option.filter_none]
    apply installedAt_none.mpr
    intro service hservice
    exact installedAt_none.mp hvalid service (mem_toBeAdded.mp hservice).1
  | some service =>
    obtain ⟨hservice, heq⟩ := installedAt_some hvalid
    rw [Option.filter_some]
    split
    next hany =>
      rw [Bool.not_eq_true'] at hany
      rw [← heq]
      exact installedAt_of_mem hadded ((hmem service heq).mpr ⟨hservice, hany⟩)
    next hany =>
      apply installedAt_none.mpr
      intro other hother hat
      have hsame : other = service := by
        have hat' := installedAt_of_mem hdistinct (mem_toBeAdded.mp hother).1
        rw [hat, hvalid] at hat'
        exact (Option.some.inj hat').symm
      rw [hsame] at hother
      rw [((hmem service heq).mp hother).2] at hany
      exact hany rfl

/-- What the two lists leave of a component: a service that is both new and gone is not left. -/
theorem lookup_updateServices :
    (updateServices validServices services).lookup component =
      match installedAt validServices component, services.lookup component with
      | some service, some cached => if service.equals cached then some cached else none
      | some service, none => some service
      | none, _ => none := by
  have hadded : ((toBeAdded validServices services).map NfcFServiceInfo.component).Nodup :=
    hdistinct.sublist (List.filter_sublist.map _)
  unfold updateServices
  rw [Assoc.lookup_removeAll NfcFServiceInfo.component, lookup_putServices _ hadded,
    installedAt_added hkeyed hcomponent hdistinct]
  have hremoved : component ∈
        (toBeRemoved validServices services).map NfcFServiceInfo.component ↔
      ∃ cached, services.lookup component = some cached ∧
        ∀ valid ∈ validServices, cached.equals valid = false := mem_removed hkeyed hcomponent
  cases hvalid : installedAt validServices component with
  | none =>
    dsimp only
    split
    next => rfl
    next hnot =>
      -- a cached service of a component that is not installed is removed
      cases hcached : services.lookup component with
      | none => rfl
      | some cached =>
        exfalso
        apply hnot
        apply hremoved.mpr
        refine ⟨cached, hcached, fun valid hmem => ?_⟩
        by_contra hequals
        rw [Bool.not_eq_false] at hequals
        apply installedAt_none.mp hvalid valid hmem
        rw [← (equals_iff.mp hequals).1, component_of_lookup hcomponent hcached]
  | some service =>
    obtain ⟨hservice, heq⟩ := installedAt_some hvalid
    cases hcached : services.lookup component with
    | none =>
      rw [if_neg]
      · simp
      · intro hmem
        obtain ⟨cached, hsome, -⟩ := hremoved.mp hmem
        rw [hcached] at hsome
        cases hsome
    | some cached =>
      dsimp only
      by_cases hequals : service.equals cached = true
      · rw [if_neg, if_pos hequals]
        · simp [Option.filter_some, hequals]
        · intro hmem
          obtain ⟨other, hsome, hnone⟩ := hremoved.mp hmem
          rw [hcached] at hsome
          cases hsome
          rw [equals_comm, hnone service hservice] at hequals
          cases hequals
      · rw [if_pos, if_neg hequals]
        apply hremoved.mpr
        refine ⟨cached, hcached, fun valid hmem => ?_⟩
        by_contra hsame
        rw [Bool.not_eq_false] at hsame
        -- an installed service equal to the cached one is the one of its component
        have hvalidAt := installedAt_of_mem hdistinct hmem
        rw [← (equals_iff.mp hsame).1, component_of_lookup hcomponent hcached, hvalid]
          at hvalidAt
        rw [Option.some.inj hvalidAt, equals_comm] at hequals
        exact hequals hsame

end

end

/-! ## Applying the records -/

section
variable {services : List (ComponentName × NfcFServiceInfo)}
  {records : List (ComponentName × Dynamic)} {component : ComponentName}

def applied (set : NfcFServiceInfo → String → NfcFServiceInfo) (record : Option Dynamic)
    (info : NfcFServiceInfo) : NfcFServiceInfo :=
  match record with
  | some record => if info.uid = record.uid then set info record.value else info
  | none => info

theorem lookup_applyRecords (set : NfcFServiceInfo → String → NfcFServiceInfo)
    (hkeyed : Assoc.Keyed records) :
    ∀ services : List (ComponentName × NfcFServiceInfo),
      (applyRecords set records services).lookup component =
        (services.lookup component).map (applied set (records.lookup component)) := by
  unfold applyRecords
  induction records with
  | nil =>
    intro services
    rw [List.foldl_nil]
    cases services.lookup component <;> rfl
  | cons entry records ih =>
    intro services
    obtain ⟨hnew, hkeyed⟩ := Assoc.keyed_cons.mp hkeyed
    have hstep : ((match services.lookup entry.1 with
          | none => services
          | some service =>
            if service.uid ≠ entry.2.uid then services
            else Assoc.put entry.1 (set service entry.2.value) services).lookup component) =
        if component = entry.1 then
          (services.lookup component).map (applied set (some entry.2))
        else services.lookup component := by
      by_cases heq : component = entry.1
      · rw [if_pos heq, heq]
        cases hservice : services.lookup entry.1 with
        | none => exact hservice
        | some service =>
          dsimp only
          by_cases huid : service.uid = entry.2.uid
          · simp [huid, Assoc.lookup_put, applied]
          · simp [huid, hservice, applied]
      · rw [if_neg heq]
        split
        next => rfl
        next =>
          split
          next => rfl
          next => rw [Assoc.lookup_put, if_neg heq]
    rw [List.foldl_cons, ih hkeyed, hstep, Assoc.lookup_cons_ite]
    by_cases heq : component = entry.1
    · -- the other records are of other components
      have hnone : records.lookup component = none := by
        apply List.lookup_eq_none_iff.mpr
        intro other hother
        have hne : component ≠ other.1 := by
          intro h
          exact hnew (heq ▸ h ▸ List.mem_map_of_mem hother)
        simpa using hne
      rw [if_pos heq, if_pos heq, hnone]
      cases services.lookup component <;> rfl
    · rw [if_neg heq, if_neg heq]

theorem keyed_applyRecords (set : NfcFServiceInfo → String → NfcFServiceInfo)
    (records : List (ComponentName × Dynamic)) (h : Assoc.Keyed services) :
    Assoc.Keyed (applyRecords set records services) := by
  apply List.foldlRecOn
  · exact h
  · intro map hmap entry _
    split
    · exact hmap
    · split
      · exact hmap
      · exact hmap.put

theorem keyed_updateServices (validServices : List NfcFServiceInfo) (h : Assoc.Keyed services) :
    Assoc.Keyed (updateServices validServices services) := by
  apply List.foldlRecOn
  · apply List.foldlRecOn
    · exact h
    · exact fun map hmap service _ => hmap.put
  · exact fun map hmap service _ => hmap.remove

theorem lookup_removeStale (hkeyed : Assoc.Keyed records) :
    (removeStale services records).lookup component =
      (records.lookup component).filter fun record => !isStale services (component, record) := by
  have hmem : component ∈ (records.filter (isStale services)).map Prod.fst ↔
      ∃ record, records.lookup component = some record ∧
        isStale services (component, record) = true := by
    rw [List.mem_map]
    constructor
    · intro ⟨entry, hentry, heq⟩
      obtain ⟨hentry, hstale⟩ := List.mem_filter.mp hentry
      refine ⟨entry.2, ?_, ?_⟩
      · rw [← heq]
        exact Assoc.lookup_of_mem hkeyed hentry
      · rw [← heq]
        exact hstale
    · intro ⟨record, hrecord, hstale⟩
      exact ⟨(component, record), List.mem_filter.mpr ⟨Assoc.mem_of_lookup hrecord, hstale⟩, rfl⟩
  unfold removeStale
  rw [Assoc.lookup_removeAll Prod.fst]
  cases hrecord : records.lookup component with
  | none => simp
  | some record =>
    rw [hrecord] at hmem
    rw [Option.filter_some]
    by_cases hstale : isStale services (component, record) = true
    · rw [if_pos (hmem.mpr ⟨record, rfl, hstale⟩), if_neg (by simp [hstale])]
    · rw [if_neg, if_pos (by simp [hstale])]
      intro h
      obtain ⟨other, hother, hstale'⟩ := hmem.mp h
      cases hother
      exact hstale hstale'

end

/-! ## Assigning NFCID2s -/

section
variable {random : ComponentName → Fin (2 ^ 48)}
  {services : List (ComponentName × NfcFServiceInfo)}
  {records : List (ComponentName × Dynamic)} {component : ComponentName}

theorem not_random (n : Fin (2 ^ 48)) :
    equalsIgnoreCase (generateRandomNfcid2 n) "RANDOM" = false := by
  apply beq_false_of_ne
  intro heq
  have hhead := congrArg (fun s : String => s.toList.head?) heq
  unfold generateRandomNfcid2 String.toLower at hhead
  rw [String.toList_map, String.toList_map, String.toList_ofList] at hhead
  revert hhead
  simp

def assigned (random : Fin (2 ^ 48)) (info : NfcFServiceInfo) : NfcFServiceInfo :=
  if isRandom info then info.setDynamicNfcid2 (generateRandomNfcid2 random) else info

theorem lookup_assigned_services :
    (assignNfcid2s random services records).1.lookup component =
      (services.lookup component).map (assigned (random component)) := by
  unfold assignNfcid2s
  dsimp only
  induction services with
  | nil => rfl
  | cons entry services ih =>
    rw [List.map_cons, Assoc.lookup_cons_ite, Assoc.lookup_cons_ite, ih]
    by_cases h : component = entry.1
    · rw [if_pos h, if_pos h, h]
      rfl
    · rw [if_neg h, if_neg h]

theorem lookup_assigned_records (hkeyed : Assoc.Keyed services) :
    ∀ records : List (ComponentName × Dynamic),
      (assignNfcid2s random services records).2.lookup component =
        match services.lookup component with
        | some info =>
          if isRandom info then some ⟨info.uid, generateRandomNfcid2 (random component)⟩
          else records.lookup component
        | none => records.lookup component := by
  unfold assignNfcid2s
  dsimp only
  induction services with
  | nil => exact fun _ => rfl
  | cons entry services ih =>
    intro records
    obtain ⟨hnew, hkeyed⟩ := Assoc.keyed_cons.mp hkeyed
    rw [List.foldl_cons, ih hkeyed, Assoc.lookup_cons_ite]
    by_cases h : component = entry.1
    · have hnone : services.lookup component = none := by
        apply List.lookup_eq_none_iff.mpr
        intro other hother
        have hne : component ≠ other.1 := by
          intro heq
          exact hnew (h ▸ heq ▸ List.mem_map_of_mem hother)
        simpa using hne
      rw [hnone, if_pos h]
      dsimp only
      by_cases hrandom : isRandom entry.2 = true
      · rw [if_pos hrandom, if_pos hrandom, Assoc.lookup_put, if_pos h, h]
      · rw [if_neg hrandom, if_neg hrandom]
    · rw [if_neg h]
      have hsame : (if isRandom entry.2 then
          Assoc.put entry.1 ⟨entry.2.uid, generateRandomNfcid2 (random entry.1)⟩ records
          else records).lookup component = records.lookup component := by
        split
        · rw [Assoc.lookup_put, if_neg h]
        · rfl
      rw [hsame]

end

/-! ## A refresh that changes something -/

section
variable {random : ComponentName → Fin (2 ^ 48)} {validServices : List NfcFServiceInfo}
  {s : State} (hvalid : Valid s)
  (hdistinct : (validServices.map NfcFServiceInfo.component).Nodup)

/-- A service with the records of its component applied. -/
def overlaid (s : State) (service : NfcFServiceInfo) : NfcFServiceInfo :=
  applied NfcFServiceInfo.setDynamicNfcid2 (s.dynamicNfcid2.lookup service.component)
    (applied NfcFServiceInfo.setDynamicSystemCode (s.dynamicSystemCode.lookup service.component)
      (before s service))

theorem applied_equals {set : NfcFServiceInfo → String → NfcFServiceInfo}
    (hset : ∀ info value other, (set info value).equals other = info.equals other)
    (record : Option Dynamic) (info other : NfcFServiceInfo) :
    (applied set record info).equals other = info.equals other := by
  unfold applied
  split
  · split
    · exact hset info _ other
    · rfl
  · rfl

theorem overlaid_equals (service other : NfcFServiceInfo) :
    (overlaid s service).equals other = (before s service).equals other := by
  unfold overlaid
  rw [applied_equals fun _ value _ => (equals_set value).2,
    applied_equals fun _ value _ => (equals_set value).1]

section
variable {service : NfcFServiceInfo} (hmem : service ∈ validServices)
  (hbefore : service.equals (before s service) = true)
include hdistinct hmem hbefore

theorem recordOf_mem (records : List (ComponentName × Dynamic)) :
    recordOf validServices records service.component =
      (records.lookup service.component).filter fun record =>
        (before s service).uid = record.uid := by
  unfold recordOf
  rw [installedAt_of_mem hdistinct hmem, (equals_iff.mp hbefore).2.1.symm]
  rfl

theorem overlay_applied (records : List (ComponentName × Dynamic)) (old : Option String) :
    overlay validServices records service.component old =
      match records.lookup service.component with
      | some record => if (before s service).uid = record.uid then some record.value else old
      | none => old := by
  unfold overlay
  rw [recordOf_mem hdistinct hmem hbefore]
  cases records.lookup service.component with
  | none => rfl
  | some record =>
    rw [Option.filter_some]
    by_cases huid : (before s service).uid = record.uid
    · simp [huid]
    · simp [huid]

theorem overlaid_systemCode :
    (overlaid s service).dynamicSystemCode =
      overlay validServices s.dynamicSystemCode service.component
        (before s service).dynamicSystemCode := by
  rw [overlay_applied hdistinct hmem hbefore]
  have houter : ∀ record info, (applied NfcFServiceInfo.setDynamicNfcid2 record info
      ).dynamicSystemCode = info.dynamicSystemCode := by
    intro record info
    unfold applied
    split
    · split <;> rfl
    · rfl
  unfold overlaid
  rw [houter]
  cases s.dynamicSystemCode.lookup service.component with
  | none => rfl
  | some record =>
    dsimp only [applied]
    split <;> rfl

theorem overlaid_nfcid2 :
    (overlaid s service).dynamicNfcid2 =
      overlay validServices s.dynamicNfcid2 service.component (before s service).dynamicNfcid2 := by
  rw [overlay_applied hdistinct hmem hbefore]
  have hinner : ∀ record info, (applied NfcFServiceInfo.setDynamicSystemCode record info
      ).dynamicNfcid2 = info.dynamicNfcid2 ∧
      (applied NfcFServiceInfo.setDynamicSystemCode record info).uid = info.uid := by
    intro record info
    unfold applied
    split
    · split <;> exact ⟨rfl, rfl⟩
    · exact ⟨rfl, rfl⟩
  unfold overlaid
  cases s.dynamicNfcid2.lookup service.component with
  | none => exact (hinner _ _).1
  | some record =>
    obtain ⟨hnfcid2, huid⟩ := hinner (s.dynamicSystemCode.lookup service.component)
      (before s service)
    dsimp only [applied]
    dsimp only [applied] at hnfcid2 huid
    rw [huid]
    split
    · rfl
    · exact hnfcid2

theorem isRandom_overlaid :
    isRandom (overlaid s service) = asksRandom validServices s service := by
  have hmanifest : (overlaid s service).nfcid2 = service.nfcid2 := by
    have heq := @overlaid_equals s service service
    rw [equals_comm (before s service), hbefore] at heq
    exact (equals_iff.mp heq).2.2.2.1
  unfold isRandom asksRandom NfcFServiceInfo.getNfcid2
  rw [overlaid_nfcid2 hdistinct hmem hbefore, hmanifest]

end

theorem before_equals (hnone : NoneChanged validServices s) {service : NfcFServiceInfo}
    (hmem : service ∈ validServices) : service.equals (before s service) = true := by
  unfold before
  cases hcached : s.services.lookup service.component with
  | none => exact equals_iff.mpr ⟨rfl, rfl, rfl, rfl, rfl⟩
  | some cached => exact hnone service hmem cached hcached

theorem stale_overlaid (hnone : NoneChanged validServices s)
    {services : List (ComponentName × NfcFServiceInfo)}
    (hservices : ∀ component, services.lookup component =
      (installedAt validServices component).map (overlaid s))
    {records : List (ComponentName × Dynamic)} (hkeyed : Assoc.Keyed records)
    (component : ComponentName) :
    (removeStale services records).lookup component =
      recordOf validServices records component := by
  rw [lookup_removeStale hkeyed]
  unfold recordOf
  congr 1
  funext record
  unfold isStale
  dsimp only
  rw [hservices]
  cases hat : installedAt validServices component with
  | none => rfl
  | some service =>
    obtain ⟨hmem, rfl⟩ := installedAt_some hat
    have hbefore := before_equals hnone hmem
    have hequals := @overlaid_equals s service service
    rw [equals_comm (before s service), hbefore] at hequals
    have huid := (equals_iff.mp hequals).2.1
    simp [huid]

include hvalid hdistinct

/-- Where no service is changed, all that are installed are cached, as they were before. -/
theorem lookup_updated (hnone : NoneChanged validServices s) (component : ComponentName) :
    (updateServices validServices s.services).lookup component =
      (installedAt validServices component).map (before s) := by
  rw [lookup_updateServices hvalid.services hvalid.component hdistinct]
  cases hat : installedAt validServices component with
  | none => rfl
  | some service =>
    obtain ⟨hmem, rfl⟩ := installedAt_some hat
    cases hcached : s.services.lookup service.component with
    | none => simp [before, hcached]
    | some cached => simp [before, hcached, hnone service hmem cached hcached]

theorem lookup_overlaid (hnone : NoneChanged validServices s) (component : ComponentName) :
    (applyRecords NfcFServiceInfo.setDynamicNfcid2 s.dynamicNfcid2
      (applyRecords NfcFServiceInfo.setDynamicSystemCode s.dynamicSystemCode
        (updateServices validServices s.services))).lookup component =
      (installedAt validServices component).map (overlaid s) := by
  rw [lookup_applyRecords _ hvalid.dynamicNfcid2, lookup_applyRecords _ hvalid.dynamicSystemCode,
    lookup_updated hvalid hdistinct hnone]
  cases hat : installedAt validServices component with
  | none => rfl
  | some service =>
    obtain ⟨-, rfl⟩ := installedAt_some hat
    rfl

theorem lookup_rebuild (hnone : NoneChanged validServices s) (component : ComponentName) :
    (rebuild random validServices s).services.lookup component =
        (installedAt validServices component).map
          (fun service => assigned (random component) (overlaid s service)) ∧
      (rebuild random validServices s).dynamicSystemCode.lookup component =
        recordOf validServices s.dynamicSystemCode component ∧
      (rebuild random validServices s).dynamicNfcid2.lookup component =
        match installedAt validServices component with
        | some service =>
          if isRandom (overlaid s service) then
            some ⟨(overlaid s service).uid, generateRandomNfcid2 (random component)⟩
          else recordOf validServices s.dynamicNfcid2 component
        | none => recordOf validServices s.dynamicNfcid2 component := by
  have hservices := lookup_overlaid hvalid hdistinct hnone
  have hkeyed := keyed_applyRecords NfcFServiceInfo.setDynamicNfcid2 s.dynamicNfcid2
    (keyed_applyRecords NfcFServiceInfo.setDynamicSystemCode s.dynamicSystemCode
      (keyed_updateServices validServices hvalid.services))
  unfold rebuild
  dsimp only
  refine ⟨?_, ?_, ?_⟩
  · rw [lookup_assigned_services, hservices, Option.map_map]
    rfl
  · exact stale_overlaid hnone hservices hvalid.dynamicSystemCode component
  · rw [lookup_assigned_records hkeyed, hservices,
      stale_overlaid hnone hservices hvalid.dynamicNfcid2]
    cases installedAt validServices component <;> rfl

theorem rebuild_exact (hnone : NoneChanged validServices s) :
    Exact random validServices s (rebuild random validServices s) := by
  have hleft := @lookup_rebuild random validServices s hvalid hdistinct hnone
  have hat : ∀ service ∈ validServices, ∀ info,
      (rebuild random validServices s).services.lookup service.component = some info →
        info = assigned (random service.component) (overlaid s service) := by
    intro service hmem info hinfo
    rw [(hleft _).1, installedAt_of_mem hdistinct hmem] at hinfo
    exact (Option.some.inj hinfo).symm
  have hequals : ∀ service ∈ validServices, (overlaid s service).equals service = true := by
    intro service hmem
    rw [overlaid_equals, equals_comm]
    exact before_equals hnone hmem
  constructor
  · intro service hmem
    rw [(hleft _).1, installedAt_of_mem hdistinct hmem]
    refine ⟨_, rfl, ?_⟩
    unfold assigned
    dsimp only
    split
    · rw [(equals_set _).2]
      exact hequals service hmem
    · exact hequals service hmem
  · intro component info hinfo
    rw [(hleft _).1] at hinfo
    cases hinst : installedAt validServices component with
    | none => rw [hinst] at hinfo; cases hinfo
    | some service => rfl
  · intro service hmem info hinfo
    rw [hat service hmem info hinfo,
      ← overlaid_systemCode hdistinct hmem (before_equals hnone hmem)]
    unfold assigned
    split <;> rfl
  · intro service hmem info hinfo
    rw [hat service hmem info hinfo, ← isRandom_overlaid hdistinct hmem (before_equals hnone hmem),
      ← overlaid_nfcid2 hdistinct hmem (before_equals hnone hmem)]
    unfold assigned
    split <;> rfl
  · intro component info hinfo
    rw [(hleft _).1] at hinfo
    obtain ⟨service, -, rfl⟩ := Option.map_eq_some_iff.mp hinfo
    unfold assigned
    split
    next => exact not_random (random component)
    next h => exact Bool.not_eq_true _ ▸ h
  · exact fun component => (hleft component).2.1
  · intro component
    rw [(hleft component).2.2]
    cases hinst : installedAt validServices component with
    | none => simp [recordOf, hinst]
    | some service =>
      obtain ⟨hmem, rfl⟩ := installedAt_some hinst
      dsimp only
      rw [isRandom_overlaid hdistinct hmem (before_equals hnone hmem),
        (equals_iff.mp (hequals service hmem)).2.1]

end

/-! ## A refresh that changes nothing -/

section
variable {random : ComponentName → Fin (2 ^ 48)} {validServices : List NfcFServiceInfo}

/-- Two lists that agree: each installed service is cached, and each cached one installed. -/
theorem unchanged_iff {services : List (ComponentName × NfcFServiceInfo)}
    (hkeyed : Assoc.Keyed services)
    (hcomponent : ∀ entry ∈ services, entry.2.component = entry.1) :
    (toBeAdded validServices services = [] ∧ toBeRemoved validServices services = []) ↔
      (∀ service ∈ validServices,
        ∃ info, services.lookup service.component = some info ∧ info.equals service = true) ∧
      ∀ component info, services.lookup component = some info →
        ∃ service ∈ validServices, info.equals service = true := by
  rw [List.eq_nil_iff_forall_not_mem, List.eq_nil_iff_forall_not_mem]
  apply and_congr
  · constructor
    · intro h service hmem
      have hnot := h service
      rw [mem_toBeAdded] at hnot
      push Not at hnot
      obtain ⟨entry, hentry, hequals⟩ := hnot hmem
      rw [Bool.ne_false_iff] at hequals
      refine ⟨entry.2, ?_, equals_comm service entry.2 ▸ hequals⟩
      rw [(equals_iff.mp hequals).1, hcomponent entry hentry]
      exact Assoc.lookup_of_mem hkeyed hentry
    · intro h service hmem
      obtain ⟨hservice, hnone⟩ := mem_toBeAdded.mp hmem
      obtain ⟨info, hinfo, hequals⟩ := h service hservice
      rw [equals_comm, hnone _ (Assoc.mem_of_lookup hinfo)] at hequals
      cases hequals
  · constructor
    · intro h component info hinfo
      have hnot := h info
      rw [mem_toBeRemoved] at hnot
      push Not at hnot
      obtain ⟨service, hservice, hequals⟩ := hnot ⟨_, Assoc.mem_of_lookup hinfo, rfl⟩
      exact ⟨service, hservice, Bool.ne_false_iff.mp hequals⟩
    · intro h service hmem
      obtain ⟨⟨entry, hentry, rfl⟩, hnone⟩ := mem_toBeRemoved.mp hmem
      obtain ⟨valid, hvalid, hequals⟩ := h entry.1 entry.2 (Assoc.lookup_of_mem hkeyed hentry)
      rw [hnone valid hvalid] at hequals
      cases hequals

variable {s : State}

theorem invalidateCache_unchanged (h : Unchanged validServices s) :
    invalidateCache random validServices s = s := by
  obtain ⟨huser, hadded, hremoved⟩ := h
  simp [invalidateCache, huser, hadded, hremoved]

theorem invalidateCache_changed (h : ¬ Unchanged validServices s) :
    invalidateCache random validServices s = rebuild random validServices s := by
  unfold invalidateCache
  rw [if_neg]
  intro hall
  apply h
  simpa [Unchanged, and_assoc] using hall

theorem Unchanged.agree (hvalid : Valid s) (h : Unchanged validServices s) :
    (∀ service ∈ validServices, ∃ info,
      s.services.lookup service.component = some info ∧ info.equals service = true) ∧
    ∀ component info, s.services.lookup component = some info →
      ∃ service ∈ validServices, service.component = component ∧ info.equals service = true := by
  obtain ⟨hcached, hinstalled⟩ :=
    (unchanged_iff hvalid.services hvalid.component).mp ⟨h.2.1, h.2.2⟩
  refine ⟨hcached, fun component info hinfo => ?_⟩
  obtain ⟨service, hmem, hequals⟩ := hinstalled component info hinfo
  refine ⟨service, hmem, ?_, hequals⟩
  rw [← (equals_iff.mp hequals).1]
  exact component_of_lookup hvalid.component hinfo

theorem recordOf_cached (hvalid : Valid s) (h : Unchanged validServices s)
    {records : List (ComponentName × Dynamic)} {component : ComponentName} {record : Dynamic}
    (hrecord : recordOf validServices records component = some record) :
    ∃ service ∈ validServices, ∃ info, service.component = component ∧
      s.services.lookup component = some info ∧ info.uid = record.uid := by
  obtain ⟨-, hany⟩ := Option.filter_eq_some_iff.mp hrecord
  cases hat : installedAt validServices component with
  | none => rw [hat] at hany; cases hany
  | some service =>
    obtain ⟨hmem, rfl⟩ := installedAt_some hat
    obtain ⟨info, hinfo, hequals⟩ := (h.agree hvalid).1 service hmem
    rw [hat, Option.any_some, decide_eq_true_eq] at hany
    exact ⟨service, hmem, info, rfl, hinfo, by rw [(equals_iff.mp hequals).2.1, hany]⟩

/-- Records that are applied to cached services are all kept, and applying them again
changes nothing. -/
theorem records_settled (hvalid : Valid s)
    (hdistinct : (validServices.map NfcFServiceInfo.component).Nodup)
    (h : Unchanged validServices s) {records : List (ComponentName × Dynamic)}
    {get : NfcFServiceInfo → Option String}
    (hrecords : ∀ component record, records.lookup component = some record →
      ∃ info, s.services.lookup component = some info ∧ info.uid = record.uid ∧
        get info = some record.value) :
    (∀ component, records.lookup component = recordOf validServices records component) ∧
    ∀ (service : NfcFServiceInfo) (info : NfcFServiceInfo),
      s.services.lookup service.component = some info →
        overlay validServices records service.component (get info) = get info := by
  have hkept : ∀ component,
      records.lookup component = recordOf validServices records component := by
    intro component
    unfold recordOf
    cases hrecord : records.lookup component with
    | none => rfl
    | some record =>
      obtain ⟨info, hinfo, huid, -⟩ := hrecords component record hrecord
      obtain ⟨service, hmem, rfl, hequals⟩ := (h.agree hvalid).2 component info hinfo
      rw [installedAt_of_mem hdistinct hmem, Option.filter_some, Option.any_some,
        ← (equals_iff.mp hequals).2.1, huid]
      simp
  refine ⟨hkept, fun service info hinfo => ?_⟩
  unfold overlay
  rw [← hkept]
  cases hrecord : records.lookup service.component with
  | none => rfl
  | some record =>
    obtain ⟨other, hother, -, hget⟩ := hrecords _ record hrecord
    rw [hinfo] at hother
    cases hother
    exact hget.symm

theorem exact_of_settled (hvalid : Valid s)
    (hdistinct : (validServices.map NfcFServiceInfo.component).Nodup)
    (h : Unchanged validServices s) (hsettled : Settled s) : Exact random validServices s s := by
  obtain ⟨hcached, hinstalled⟩ := h.agree hvalid
  obtain ⟨hsystemCodes, hsystemCode⟩ := records_settled hvalid hdistinct h hsettled.systemCodes
  obtain ⟨hnfcid2s, hnfcid2⟩ := records_settled hvalid hdistinct h hsettled.nfcid2s
  have hbefore : ∀ service info,
      s.services.lookup service.component = some info → before s service = info := by
    intro service info hinfo
    rw [before, hinfo, Option.getD_some]
  have hasks : ∀ service ∈ validServices, asksRandom validServices s service = false := by
    intro service hmem
    obtain ⟨info, hinfo, hequals⟩ := hcached service hmem
    have hquiet := hsettled.noRandom _ info hinfo
    unfold asksRandom
    rw [hbefore service info hinfo, hnfcid2 service info hinfo,
      ← (equals_iff.mp hequals).2.2.2.1]
    exact hquiet
  constructor
  · exact hcached
  · intro component info hinfo
    obtain ⟨service, hmem, rfl, -⟩ := hinstalled component info hinfo
    rw [installedAt_of_mem hdistinct hmem]
    rfl
  · intro service _ info hinfo
    rw [hbefore service info hinfo, hsystemCode service info hinfo]
  · intro service hmem info hinfo
    rw [hasks service hmem, hbefore service info hinfo, hnfcid2 service info hinfo]
    rfl
  · exact hsettled.noRandom
  · exact hsystemCodes
  · intro component
    rw [hnfcid2s]
    cases hat : installedAt validServices component with
    | none => simp [recordOf, hat]
    | some service => simp [hasks service (installedAt_some hat).1]

theorem settled_of_exact (hvalid : Valid s) (h : Unchanged validServices s)
    (hexact : Exact random validServices s s) : Settled s := by
  constructor
  · intro component record hrecord
    rw [hexact.systemCodes] at hrecord
    obtain ⟨service, hmem, info, rfl, hinfo, huid⟩ := recordOf_cached hvalid h hrecord
    refine ⟨info, hinfo, huid, ?_⟩
    rw [hexact.systemCode service hmem info hinfo, overlay, hrecord]
  · intro component record hrecord
    rw [hexact.nfcid2s] at hrecord
    cases hat : installedAt validServices component with
    | none => rw [hat] at hrecord; cases hrecord
    | some service =>
      obtain ⟨hmem, rfl⟩ := installedAt_some hat
      rw [hat] at hrecord
      dsimp only at hrecord
      by_cases hasks : asksRandom validServices s service = true
      · rw [if_pos hasks] at hrecord
        obtain ⟨info, hinfo, hequals⟩ := hexact.cached service hmem
        cases hrecord
        refine ⟨info, hinfo, (equals_iff.mp hequals).2.1, ?_⟩
        rw [hexact.nfcid2 service hmem info hinfo, if_pos hasks]
      · rw [if_neg hasks] at hrecord
        obtain ⟨_, _, info, _, hinfo, huid⟩ := recordOf_cached hvalid h hrecord
        refine ⟨info, hinfo, huid, ?_⟩
        rw [hexact.nfcid2 service hmem info hinfo, if_neg hasks, overlay, hrecord]
  · exact hexact.noRandom

end

/-! ## Refreshes -/

section
variable {random : ComponentName → Fin (2 ^ 48)} {validServices : List NfcFServiceInfo}
  {s : State}

/-- What a refresh leaves is again a map that keeps services under their components. -/
theorem rebuild_valid (hvalid : Valid s)
    (hexact : Exact random validServices s (rebuild random validServices s)) :
    Assoc.Keyed (rebuild random validServices s).services ∧
      ∀ entry ∈ (rebuild random validServices s).services, entry.2.component = entry.1 := by
  have hkeyed : Assoc.Keyed (rebuild random validServices s).services := by
    have hleft := keyed_applyRecords NfcFServiceInfo.setDynamicNfcid2 s.dynamicNfcid2
      (keyed_applyRecords NfcFServiceInfo.setDynamicSystemCode s.dynamicSystemCode
        (keyed_updateServices validServices hvalid.services))
    unfold rebuild assignNfcid2s Assoc.Keyed
    dsimp only
    rw [List.map_map]
    exact hleft
  refine ⟨hkeyed, fun entry hentry => ?_⟩
  have hinfo := Assoc.lookup_of_mem hkeyed hentry
  obtain ⟨service, hat⟩ := Option.isSome_iff_exists.mp (hexact.installed _ _ hinfo)
  obtain ⟨hmem, hcomponent⟩ := installedAt_some hat
  obtain ⟨info, hcached, hequals⟩ := hexact.cached service hmem
  rw [hcomponent, hinfo] at hcached
  cases hcached
  rw [(equals_iff.mp hequals).1, hcomponent]

theorem rebuild_unchanged (hvalid : Valid s)
    (hexact : Exact random validServices s (rebuild random validServices s)) :
    Unchanged validServices (rebuild random validServices s) := by
  obtain ⟨hkeyed, hcomponent⟩ := rebuild_valid hvalid hexact
  refine ⟨rfl, (unchanged_iff hkeyed hcomponent).mpr ⟨hexact.cached, ?_⟩⟩
  intro component info hinfo
  obtain ⟨service, hat⟩ := Option.isSome_iff_exists.mp (hexact.installed _ _ hinfo)
  obtain ⟨hmem, rfl⟩ := installedAt_some hat
  obtain ⟨other, hother, hequals⟩ := hexact.cached service hmem
  rw [hinfo] at hother
  cases hother
  exact ⟨service, hmem, hequals⟩

theorem noneChanged_of_exact (hvalid : Valid s)
    (hdistinct : (validServices.map NfcFServiceInfo.component).Nodup)
    (hexact : Exact random validServices s (rebuild random validServices s)) :
    NoneChanged validServices s := by
  intro service hmem info hinfo
  obtain ⟨left, hleft, -⟩ := hexact.cached service hmem
  have hupdated := @lookup_updateServices s.services service.component validServices
    hvalid.services hvalid.component hdistinct
  rw [installedAt_of_mem hdistinct hmem, hinfo] at hupdated
  by_contra hequals
  dsimp only at hupdated
  rw [if_neg hequals] at hupdated
  unfold rebuild at hleft
  dsimp only at hleft
  rw [lookup_assigned_services, lookup_applyRecords _ hvalid.dynamicNfcid2,
    lookup_applyRecords _ hvalid.dynamicSystemCode, hupdated] at hleft
  cases hleft

/-- A refresh is exact, and a second one for the same services changes nothing, exactly when no
installed service is cached with other identifiers or another uid, and a refresh that finds
every service as it was finds every record applied and no random NFCID2 to assign. -/
theorem invalidateCache_exact_iff (hvalid : Valid s)
    (hdistinct : (validServices.map NfcFServiceInfo.component).Nodup) :
    (Exact random validServices s (invalidateCache random validServices s) ∧
      ∀ again, invalidateCache again validServices (invalidateCache random validServices s) =
        invalidateCache random validServices s) ↔
    NoneChanged validServices s ∧ (Unchanged validServices s → Settled s) := by
  by_cases h : Unchanged validServices s
  · rw [invalidateCache_unchanged h]
    constructor
    · intro ⟨hexact, _⟩
      refine ⟨fun service hmem info hinfo => ?_, fun _ => settled_of_exact hvalid h hexact⟩
      obtain ⟨other, hother, hequals⟩ := hexact.cached service hmem
      rw [hinfo] at hother
      cases hother
      rw [equals_comm]
      exact hequals
    · intro ⟨_, hsettled⟩
      exact ⟨exact_of_settled hvalid hdistinct h (hsettled h),
        fun _ => invalidateCache_unchanged h⟩
  · rw [invalidateCache_changed h]
    constructor
    · intro ⟨hexact, _⟩
      exact ⟨noneChanged_of_exact hvalid hdistinct hexact, fun hsame => absurd hsame h⟩
    · intro ⟨hnone, _⟩
      have hexact := @rebuild_exact random validServices s hvalid hdistinct hnone
      exact ⟨hexact, fun _ => invalidateCache_unchanged (rebuild_unchanged hvalid hexact)⟩

end

/-! ## A service with a new system code -/

/-- A service of uid 10001 with one of two system codes. -/
def wallet (systemCode : String) : NfcFServiceInfo :=
  ⟨1, 10001, systemCode, "02FE000000000001", "FFFFFFFFFFFFFFFF", none, none⟩

/-- The service is cached, with a system code set at run time. -/
def walletCached : State := ⟨false, [(1, wallet "4000")], [(1, ⟨10001, "4ABC"⟩)], []⟩

/-- An update of the service changes its system code: it is put in and removed again, and so is
what was set for it. -/
theorem changed_service_lost :
    invalidateCache (fun _ => 0) [wallet "4001"] walletCached = ⟨false, [], [], []⟩ ∧
      ¬ Exact (fun _ => 0) [wallet "4001"] walletCached
        (invalidateCache (fun _ => 0) [wallet "4001"] walletCached) := by
  have hlost : invalidateCache (fun _ => 0) [wallet "4001"] walletCached = ⟨false, [], [], []⟩ := by
    decide
  refine ⟨hlost, ?_⟩
  rw [hlost]
  intro hexact
  obtain ⟨info, hinfo, -⟩ := hexact.cached (wallet "4001") List.mem_cons_self
  cases hinfo

def ticket : NfcFServiceInfo :=
  ⟨2, 10002, "4002", "RANDOM", "FFFFFFFFFFFFFFFF", none, none⟩

theorem invalidateCache_exact_new :
    (Exact (fun _ => 0) [wallet "4000", ticket] walletCached
        (invalidateCache (fun _ => 0) [wallet "4000", ticket] walletCached) ∧
      ∀ again, invalidateCache again [wallet "4000", ticket]
          (invalidateCache (fun _ => 0) [wallet "4000", ticket] walletCached) =
        invalidateCache (fun _ => 0) [wallet "4000", ticket] walletCached) := by
  have hvalid : Valid walletCached := by
    refine ⟨List.nodup_singleton 1, ?_, List.nodup_singleton 1, List.nodup_nil⟩
    decide
  have hnone : NoneChanged [wallet "4000", ticket] walletCached := by
    intro service hmem info hinfo
    rcases List.mem_cons.mp hmem with rfl | hmem
    · cases hinfo
      decide
    · rw [List.mem_singleton.mp hmem] at hinfo
      cases hinfo
  apply (invalidateCache_exact_iff hvalid (by decide)).mpr
  refine ⟨hnone, fun h => ?_⟩
  exact absurd h.2.1 (by decide)

end NfcStack.CardEmulation.NfcFCache
