import NfcStack.Lib.Run

/- The AID routing manager of the NFC service (`AidRoutingManager.java`): from
   a map of AIDs to entries, `configureRouting` computes the table of entries
   for the controller, tries other default routes while the table does not
   fit, and hands it to `commit` unless it decides that nothing changed.

   An AID is the list of its characters, a map the list of its entries in
   iteration order, with distinct keys. The order in which a `HashSet` of AIDs
   is walked is a parameter (`Env.walk`): it decides which of two AIDs of one
   route wins when both strip to the same key. The routing options, the NCI
   version and the table size are read anew by every call, so they come with
   the call, as does the status that `commitRouting` will report: the NFC
   service of this tree posts the commit and always reports success. -/
namespace NfcStack.CardEmulation

abbrev Aid := List Char

structure AidEntry where
  isOnHost : Bool
  offHostSE : Option String
  route : Nat
  aidInfo : Nat
  power : Nat
  unCheckedOffHostSE : List String
  deriving DecidableEq, Repr

abbrev Entries := List (Aid × AidEntry)

inductive AidMatching where
  | exactOnly | exactOrPrefix | prefixOnly | exactOrSubsetOrPrefix
  deriving DecidableEq, Repr

structure Env where
  aidMatchingSupport : AidMatching
  walk : Entries → Entries
  walk_perm : ∀ l, (walk l).Perm l

/-- The default routes of AIDs and of the other routing entries. -/
structure DefaultRoutes where
  aid : Nat
  isoDep : Nat
  offHost : Nat
  felica : Nat
  sysCode : Nat
  deriving DecidableEq, Repr

/-- What a call reads from the routing option manager and the NFC service. -/
structure RoutingOptions where
  isRoutingTableOverrided : Bool
  defaults : DefaultRoutes
  overrides : DefaultRoutes
  isAutoChangeEnabled : Bool
  getRouteForSecureElement : String → Nat
  nciVersion : Nat
  maxAidRoutingTableSize : Nat

def routeHost : Nat := 0x00
def nciVersion20 : Nat := 0x20
def aidRouteQualPrefix : Nat := 0x10
def powerStateSwitchOn : Nat := 0x1
def powerStateScreenOnLocked : Nat := 0x10
def powerStateAll : Nat := 0x3F
def powerStateAllNci10 : Nat := 0x7

/-- The routes the options ask for. -/
def RoutingOptions.routes (o : RoutingOptions) : DefaultRoutes :=
  if o.isRoutingTableOverrided then o.overrides else o.defaults

def RoutingOptions.nci2 (o : RoutingOptions) : Bool := decide (nciVersion20 ≤ o.nciVersion)

/-- The route of an entry; `none` where the entry is skipped because its secure
element has no route. -/
def RoutingOptions.entryRoute (o : RoutingOptions) (e : AidEntry) : Option Nat :=
  if e.isOnHost then some routeHost
  else match e.offHostSE with
    | none => some (o.getRouteForSecureElement "SIM")
    | some se =>
      if o.getRouteForSecureElement se = 0 then none else some (o.getRouteForSecureElement se)

/-- The entries that have a route, with it. -/
def RoutingOptions.routed (o : RoutingOptions) (aidMap : Entries) : Entries :=
  aidMap.filterMap fun p => (o.entryRoute p.2).map fun r => (p.1, { p.2 with route := r })

/-- The default routes to try, in order. -/
def RoutingOptions.seList (o : RoutingOptions) (m : Entries) : List Nat :=
  let first := if o.routes.aid ≠ routeHost then [o.routes.aid, routeHost] else [o.routes.aid]
  let all := m.foldl
    (fun l p => if l.contains p.2.route then l else l ++ [p.2.route]) first
  if !o.isAutoChangeEnabled && decide (2 ≤ all.length) then all.take 1 else all

def put (cache : Entries) (a : Aid) (e : AidEntry) : Entries :=
  (a, e) :: cache.filter fun p => decide (p.1 ≠ a)

/-- The key under which an AID goes to the table, if the controller supports
its form. -/
def tableKey (mode : AidMatching) (aid : Aid) : Option Aid :=
  if aid.getLast? = some '*' then
    match mode with
    | .exactOnly => none
    | .prefixOnly | .exactOrPrefix | .exactOrSubsetOrPrefix => some aid.dropLast
  else if aid.getLast? = some '#' then
    match mode with
    | .exactOnly | .prefixOnly | .exactOrPrefix => none
    | .exactOrSubsetOrPrefix => some aid.dropLast
  else some aid

def addAidToRoutingtable (mode : AidMatching) (cache : Entries) (p : Aid × AidEntry) : Entries :=
  match tableKey mode p.1 with
  | none => cache
  | some k => put cache k p.2

/-- The length in bytes of a table. -/
def calculateAidRouteSize (routeCache : Entries) : Nat :=
  (routeCache.map fun p =>
    if p.1.getLast? = some '*' then (p.1.length - 1) / 2 + 4 else p.1.length / 2 + 4).sum

/-- `mAidRoutingTable.get(route)`, as it is walked. -/
def Env.aidsOn (env : Env) (m : Entries) (route : Nat) : Entries :=
  env.walk (m.filter fun p => decide (p.2.route = route))

/-- The keys of `mAidRoutingTable`, which a `SparseArray` keeps ascending. -/
def routesOf (m : Entries) : List Nat :=
  (m.map fun p => p.2.route).dedup.insertionSort (· ≤ ·)

/-- An AID of another route than `d` is a prefix of `aid`. -/
def hasShorter (m : Entries) (d : Nat) (aid : Aid) : Bool :=
  m.any fun q => q.1.isPrefixOf aid && decide (q.2.route ≠ d)

/-- The power state of the empty AID's entry. -/
def Env.emptyAidPower (env : Env) (m : Entries) (d : Nat) : Nat :=
  if d = routeHost then
    (env.aidsOn m d).foldl (fun w p => w ||| p.2.power)
      (powerStateSwitchOn ||| powerStateScreenOnLocked)
  else powerStateAll

def emptyAidEntry (d power : Nat) : AidEntry :=
  { isOnHost := decide (d = routeHost), offHostSE := none, route := d,
    aidInfo := aidRouteQualPrefix, power := power, unCheckedOffHostSE := [] }

/-- The power state that AIDs on an off-host default route get from it. -/
def RoutingOptions.defaultRoutePower (o : RoutingOptions) : Nat :=
  if o.nci2 then powerStateAll else powerStateAllNci10

/-- The default route `d` gets AIDs with a power state of their own. -/
def Env.ownPower (env : Env) (o : RoutingOptions) (m : Entries) (d : Nat) : Bool :=
  decide (d ≠ routeHost) &&
    (env.aidsOn m d).any fun p => decide (p.2.power ≠ o.defaultRoutePower)

/-- The entry stays when the route cache is checked: it is not there for
unchecked off-host services, or one of these is on the default route. -/
def RoutingOptions.staysOnHost (o : RoutingOptions) (d : Nat) (e : AidEntry) : Bool :=
  !e.isOnHost || e.unCheckedOffHostSE.isEmpty ||
    e.unCheckedOffHostSE.any fun se => decide (o.getRouteForSecureElement se = d)

def checkOffHostRouteToHost (o : RoutingOptions) (d : Nat) (routeCache : Entries) : Entries :=
  routeCache.filter fun p => o.staysOnHost d p.2

/-- The default-route AIDs a controller that treats every entry as a prefix
needs in front of shorter ones. -/
def Env.addShadowed (env : Env) (m : Entries) (d : Nat) : Entries :=
  if env.aidMatchingSupport = .prefixOnly then
    (env.aidsOn m d).foldl
      (fun cache p => if hasShorter m d p.1 then put cache p.1 p.2 else cache) []
  else []

/-- The entries of all routes but the default one. -/
def Env.addNonDefault (env : Env) (m : Entries) (d : Nat) (cache : Entries) : Entries :=
  (routesOf m).foldl
    (fun cache route =>
      if route ≠ d then
        (env.aidsOn m route).foldl (addAidToRoutingtable env.aidMatchingSupport) cache
      else cache) cache

/-- The entry of the empty AID. -/
def Env.addEmptyAid (env : Env) (o : RoutingOptions) (m : Entries) (d : Nat) (cache : Entries) :
    Entries :=
  if o.nci2 then put cache [] (emptyAidEntry d (env.emptyAidPower m d)) else cache

/-- The off-host AIDs whose power state is not the default route's. -/
def Env.addOwnPower (env : Env) (o : RoutingOptions) (m : Entries) (d : Nat) (cache : Entries) :
    Entries :=
  if d ≠ routeHost then
    (env.aidsOn m d).foldl
      (fun cache p =>
        if p.2.power ≠ o.defaultRoutePower then
          addAidToRoutingtable env.aidMatchingSupport cache p
        else cache) cache
  else cache

/-- `aidRoutingTableCache` for the default route `d`. -/
def Env.tableFor (env : Env) (o : RoutingOptions) (m : Entries) (d : Nat) : Entries :=
  let cache := env.addShadowed m d
  let cache := env.addNonDefault m d cache
  let cache := env.addEmptyAid o m d cache
  let cache := env.addOwnPower o m d cache
  if d ≠ routeHost then checkOffHostRouteToHost o d cache else cache

def Env.fits (env : Env) (o : RoutingOptions) (m : Entries) (d : Nat) : Bool :=
  decide (calculateAidRouteSize (env.tableFor o m d) ≤ o.maxAidRoutingTableSize) ||
    o.isRoutingTableOverrided

structure Tried where
  aidRoutingTableCache : Entries
  defaultRoute : Nat
  powerEmptyAid : Nat
  isPowerStateUpdated : Bool
  aidRouteResolved : Bool

def Env.tryRoute (env : Env) (o : RoutingOptions) (m : Entries) (t : Tried) (d : Nat) : Tried :=
  { aidRoutingTableCache := env.tableFor o m d
    defaultRoute := d
    powerEmptyAid := if o.nci2 then env.emptyAidPower m d else t.powerEmptyAid
    isPowerStateUpdated := t.isPowerStateUpdated ||
      (o.nci2 && decide (t.powerEmptyAid ≠ env.emptyAidPower m d)) || env.ownPower o m d
    aidRouteResolved := env.fits o m d }

def Env.tryRoutes (env : Env) (o : RoutingOptions) (m : Entries) : List Nat → Tried → Tried
  | [], t => t
  | d :: ds, t =>
    if env.fits o m d then env.tryRoute o m t d
    else env.tryRoutes o m ds (env.tryRoute o m t d)

/-- `HashMap.equals`. -/
def sameMap (a b : List (Aid × Nat)) : Bool :=
  (a.map Prod.fst ++ b.map Prod.fst).all fun k => a.lookup k == b.lookup k

/-- Some AID of `routes` off the default route is not in `other` with the same
route, or its power state changed (`checkUnrouteAid`, `checkRouteAid`). -/
def anyUpdated (d : Nat) (routes other power prevPower : List (Aid × Nat)) : Bool :=
  routes.any fun p => decide (p.2 ≠ d) &&
    (!(other.lookup p.1).isSome || !(other.lookup p.1 == some p.2) ||
      !(power.lookup p.1 == prevPower.lookup p.1))

structure Manager where
  defaultRoutes : DefaultRoutes
  powerEmptyAid : Nat
  routeForAid : List (Aid × Nat)
  powerForAid : List (Aid × Nat)
  deriving DecidableEq, Repr

/-- A call of `configureRouting` with all that it reads. -/
structure Call where
  aidMap : Entries
  distinct : (aidMap.map Prod.fst).Nodup
  force : Bool
  options : RoutingOptions
  commitOk : Bool

inductive Result where
  | success | tableFull | unknown
  deriving DecidableEq, Repr

/-- An entry as `routeAids` receives it: AID, route, qualifier and power state. -/
structure Row where
  aid : Aid
  route : Nat
  aidInfo : Nat
  power : Nat
  deriving DecidableEq, Repr

def row (p : Aid × AidEntry) : Row := ⟨p.1, p.2.route, p.2.aidInfo, p.2.power⟩

/-- What a call leaves: the manager, the table it handed to `commitRouting`, if
any, and its result. -/
structure Outcome where
  mgr : Manager
  sent : Option (List Row)
  result : Result

variable (env : Env)

namespace Call

variable (c : Call)

def routed : Entries := c.options.routed c.aidMap
def routeForAid : List (Aid × Nat) := c.routed.map fun p => (p.1, p.2.route)
def powerForAid : List (Aid × Nat) := c.routed.map fun p => (p.1, p.2.power)

/-- The loop over the default routes, from what the manager remembers. -/
def tried (powerEmptyAid : Nat) : Tried :=
  env.tryRoutes c.options c.routed (c.options.seList c.routed)
    ⟨[], c.options.routes.aid, powerEmptyAid, false, false⟩

end Call

/-- The routing maps are those remembered, and the call is not forced. -/
def unchanged (s : Manager) (c : Call) : Bool :=
  sameMap c.routeForAid s.routeForAid && sameMap c.powerForAid s.powerForAid && !c.force

/-- The checks after the loop ask for a new table. -/
def updateRequired (s : Manager) (c : Call) : Bool :=
  let t := c.tried env s.powerEmptyAid
  t.isPowerStateUpdated ||
    anyUpdated t.defaultRoute c.routeForAid s.routeForAid c.powerForAid s.powerForAid ||
    anyUpdated t.defaultRoute s.routeForAid c.routeForAid c.powerForAid s.powerForAid ||
    (decide (s.defaultRoutes.aid ≠ t.defaultRoute) ||
      decide (s.defaultRoutes.isoDep ≠ c.options.routes.isoDep) ||
      decide (s.defaultRoutes.offHost ≠ c.options.routes.offHost)) ||
    c.force

def configureRouting (s : Manager) (c : Call) : Outcome :=
  let routes := c.options.routes
  if unchanged s c then
    -- the Felica and system code routes are not restored
    ⟨{ s with defaultRoutes :=
        { s.defaultRoutes with felica := routes.felica, sysCode := routes.sysCode } },
      none, .success⟩
  else
    let t := c.tried env s.powerEmptyAid
    let mgr : Manager := ⟨{ routes with aid := t.defaultRoute }, t.powerEmptyAid,
      c.routeForAid, c.powerForAid⟩
    if updateRequired env s c then
      if t.aidRouteResolved then
        ⟨mgr, some (t.aidRoutingTableCache.map row), if c.commitOk then .success else .unknown⟩
      else ⟨mgr, none, .tableFull⟩
    else ⟨mgr, none, .success⟩

end NfcStack.CardEmulation
