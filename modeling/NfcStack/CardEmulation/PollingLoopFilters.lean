import NfcStack.Lib.Assoc
import NfcStack.CardEmulation.HcePolling

/-
  The polling loop filters of `HostEmulationManager`.

  A frame of unknown type goes to a service with a filter for it: an exact one,
  looked up by the frame's hex string, or a pattern. `HostEmulation` takes what
  is found from its `Env`; here are the tables it is found in, which every user
  has two of. The services found by patterns are added to the list found in the
  exact table, and that list is the table's own.

  What is proved:
    1. `lookUp_tables_iff` — a look-up leaves the tables alone exactly when the
       frame does not match both an exact filter and a pattern.
    2. `filters_kept` — in a run that handles no such frame the tables stay as
       they were built, and every frame finds the services with an exact filter
       for it, then those with a pattern.
    3. `step_kept` — such a step is a step of `HostEmulation`, with what is found as
       its `Env.matching`.
    4. `found_twice` — a frame that matches both finds one service more the
       second time.

  Left out: `updatePollingLoopFilters` in the middle of a run, as the filters of
  a run are fixed.
-/
namespace NfcStack.CardEmulation.Hce.Filters
open NfcStack.Lib

variable {Pattern : Type}

structure FilteringService (Pattern : Type) where
  info : ApduServiceInfo
  pollingLoopFilters : List String
  pollingLoopPatternFilters : List Pattern

/-- `mPollingLoopFilters` and `mPollingLoopPatternFilters`. -/
structure Tables (Pattern : Type) where
  pollingLoopFilters : List (Int × List (String × List ApduServiceInfo))
  pollingLoopPatternFilters : List (Int × List (Pattern × List ApduServiceInfo))
  deriving DecidableEq, Repr

/-- The order in which the key set of a `HashMap` is iterated, and what a pattern matches. -/
structure Regex (Pattern : Type) where
  keySet : List Pattern → List Pattern
  perm : ∀ patterns, (keySet patterns).Perm patterns
  isMatch : Pattern → String → Bool

/-! ## Building the tables -/

def addService {κ : Type} [DecidableEq κ] (info : ApduServiceInfo)
    (map : List (κ × List ApduServiceInfo)) (key : κ) : List (κ × List ApduServiceInfo) :=
  Assoc.put key ((map.lookup key).getD [] ++ [info]) map

/-- The loop over the services, for the filters or for the patterns. -/
def collect {κ : Type} [DecidableEq κ] (keys : FilteringService Pattern → List κ)
    (services : List (FilteringService Pattern)) : List (κ × List ApduServiceInfo) :=
  services.foldl (fun map service => (keys service).foldl (addService service.info) map) []

section
variable [DecidableEq Pattern]

def updatePollingLoopFilters (tables : Tables Pattern)
    (update : Int × List (FilteringService Pattern)) : Tables Pattern where
  pollingLoopFilters := Assoc.put update.1
    (collect FilteringService.pollingLoopFilters update.2) tables.pollingLoopFilters
  pollingLoopPatternFilters := Assoc.put update.1
    (collect FilteringService.pollingLoopPatternFilters update.2) tables.pollingLoopPatternFilters

/-- The tables after the updates, each for one user. -/
def build (updates : List (Int × List (FilteringService Pattern))) : Tables Pattern :=
  updates.foldl updatePollingLoopFilters ⟨[], []⟩

/-! ## Looking a frame up -/

/-- `HexFormat.of().formatHex(data).toUpperCase(Locale.ROOT)`. -/
def formatHex (data : List UInt8) : String :=
  String.ofList (data.flatMap fun b =>
    [(b.toNat / 16).digitChar.toUpper, (b.toNat % 16).digitChar.toUpper])

def matchedPatterns (regex : Regex Pattern) (dataStr : String)
    (mapping : Option (List (Pattern × List ApduServiceInfo))) : List Pattern :=
  match mapping with
  | some map => (regex.keySet (map.map Prod.fst)).filter fun p => regex.isMatch p dataStr
  | none => []

/-- The services found for a frame, and the tables that the look-up leaves. -/
def lookUp (regex : Regex Pattern) (currentUser : Int) (dataStr : String)
    (tables : Tables Pattern) : List ApduServiceInfo × Tables Pattern :=
  let mappingForUser := tables.pollingLoopFilters.lookup currentUser
  let serviceInfos := mappingForUser.bind fun map => map.lookup dataStr
  let patternMapping := tables.pollingLoopPatternFilters.lookup currentUser
  let matched := matchedPatterns regex dataStr patternMapping
  if matched = [] then (serviceInfos.getD [], tables)
  else
    let found := matched.foldl
      (fun found p => found ++ ((patternMapping.getD []).lookup p).getD [])
      (serviceInfos.getD [])
    -- `addAll` on a list that `get` returned changes the table
    match mappingForUser, serviceInfos with
    | some map, some _ => (found, { tables with
        pollingLoopFilters :=
          Assoc.put currentUser (Assoc.put dataStr found map) tables.pollingLoopFilters })
    | _, _ => (found, tables)

/-! ## The manager with its tables -/

structure Look where
  user : Int
  data : List UInt8
  candidates : List ApduServiceInfo
  deriving DecidableEq, Repr

structure Loop (Pattern : Type) where
  hem : Hem
  tables : Tables Pattern
  looked : List Look
  deriving DecidableEq

/-- An event, what the system answers during it, and `ActivityManager.getCurrentUser()`. -/
structure Turn where
  env : Env
  currentUser : Int
  event : Event

def withMatching (env : Env) (found : List UInt8 → List ApduServiceInfo) : Env :=
  { env with matching := found }

/-- Only a frame of unknown type that is not kept unprocessed is looked up. -/
def processFrame (regex : Regex Pattern) (env : Env) (currentUser : Int) (s : Loop Pattern)
    (frame : PollingFrame) : Loop Pattern :=
  if s.hem.unprocessedPollingFrames = none ∧ frame.type = .unknown then
    let (found, tables) := lookUp regex currentUser (formatHex frame.data) s.tables
    { hem := Hce.processFrame (withMatching env fun _ => found) s.hem frame
      tables := tables
      looked := s.looked ++ [⟨currentUser, frame.data, found⟩] }
  else { s with hem := Hce.processFrame env s.hem frame }

def onPollingLoopDetected (regex : Regex Pattern) (env : Env) (currentUser : Int)
    (frames : List PollingFrame) (s : Loop Pattern) : Loop Pattern :=
  let s := frames.foldl (processFrame regex env currentUser)
    { s with hem := beginPollingLoop frames s.hem }
  { s with hem := endPollingLoop env s.hem }

def sendWaitingFrames (regex : Regex Pattern) (env : Env) (currentUser : Int)
    (service : Messenger) (name : ComponentName) (s : Loop Pattern) : Loop Pattern :=
  match waitingFrames s.hem name with
  | none => s
  | some waiting =>
    let hem := sendPollingFramesToServiceLocked env service waiting s.hem
    let hem := { hem with
      pollingFramesToSend :=
        hem.pollingFramesToSend.map (List.filter fun entry => entry.1 ≠ name) }
    match hem.unprocessedPollingFrames with
    | some frames => onPollingLoopDetected regex env currentUser frames
        { s with hem := { hem with unprocessedPollingFrames := none } }
    | none => { s with hem := hem }

def paymentServiceConnected (regex : Regex Pattern) (env : Env) (currentUser : Int)
    (service : Messenger) (s : Loop Pattern) : Loop Pattern :=
  if s.hem.lastBoundPaymentServiceName ≠ some service.service.componentName then s
  else sendWaitingFrames regex env currentUser service service.service.componentName
    { s with hem := registerPayment service s.hem }

def serviceConnected (regex : Regex Pattern) (env : Env) (currentUser : Int)
    (service : Messenger) (s : Loop Pattern) : Loop Pattern :=
  if !env.adapterOn then s
  else if notWanted env service s.hem then
    { s with hem := { s.hem with connections := s.hem.connections.remove service.service } }
  else match s.hem.selectApdu with
    | some apdu => { s with hem :=
        { sendDataToServiceLocked env service apdu (register service s.hem) with
          selectApdu := none } }
    | none => sendWaitingFrames regex env currentUser service service.service.componentName
        { s with hem := register service s.hem }

/-- The other events do not look frames up. -/
def step (regex : Regex Pattern) (s : Loop Pattern) (turn : Turn) : Option (Loop Pattern) :=
  match turn.event with
  | .pollingLoop frames => some (onPollingLoopDetected regex turn.env turn.currentUser frames s)
  | .paymentConnected service =>
    some (paymentServiceConnected regex turn.env turn.currentUser service s)
  | .connected service => some (serviceConnected regex turn.env turn.currentUser service s)
  | event => (Hce.step s.hem (turn.env, event)).map fun hem => { s with hem := hem }

/-! ## What a frame is to find -/

/-- The services that were registered for a user last. -/
def servicesOf (updates : List (Int × List (FilteringService Pattern))) (user : Int) :
    List (FilteringService Pattern) :=
  (updates.reverse.lookup user).getD []

/-- A service stands for each time it has the filter. -/
def registeredFor {κ : Type} [DecidableEq κ] (keys : FilteringService Pattern → List κ)
    (services : List (FilteringService Pattern)) (key : κ) : List ApduServiceInfo :=
  services.flatMap fun service =>
    ((keys service).filter fun other => other = key).map fun _ => service.info

def exactMatches (services : List (FilteringService Pattern)) (dataStr : String) :
    List ApduServiceInfo :=
  registeredFor FilteringService.pollingLoopFilters services dataStr

def matchingPatterns (regex : Regex Pattern) (services : List (FilteringService Pattern))
    (dataStr : String) : List Pattern :=
  (regex.keySet ((collect FilteringService.pollingLoopPatternFilters services).map
    Prod.fst)).filter fun p => regex.isMatch p dataStr

def patternMatches (regex : Regex Pattern) (services : List (FilteringService Pattern))
    (dataStr : String) : List ApduServiceInfo :=
  (matchingPatterns regex services dataStr).flatMap
    (registeredFor FilteringService.pollingLoopPatternFilters services)

def candidates (regex : Regex Pattern) (services : List (FilteringService Pattern))
    (dataStr : String) : List ApduServiceInfo :=
  exactMatches services dataStr ++ patternMatches regex services dataStr

/-- Some service has an exact filter for the frame, and one has a pattern for it. -/
def MatchesBoth (regex : Regex Pattern) (services : List (FilteringService Pattern))
    (dataStr : String) : Prop :=
  (∃ service ∈ services, dataStr ∈ service.pollingLoopFilters) ∧
  ∃ service ∈ services, ∃ p ∈ service.pollingLoopPatternFilters, regex.isMatch p dataStr = true

def Unmixed (regex : Regex Pattern) (services : List (FilteringService Pattern))
    (frames : List PollingFrame) : Prop :=
  ∀ frame ∈ frames, frame.type = .unknown → ¬ MatchesBoth regex services (formatHex frame.data)

/-- The frames that an event makes the manager handle do not match both: those of a
batch, and at a connection for which frames wait those kept unprocessed. -/
def Handles (regex : Regex Pattern) (updates : List (Int × List (FilteringService Pattern)))
    (s : Loop Pattern) (turn : Turn) : Prop :=
  let services := servicesOf updates turn.currentUser
  match turn.event with
  | .pollingLoop frames =>
    s.hem.unprocessedPollingFrames = none → Unmixed regex services frames
  | .paymentConnected service | .connected service =>
    waitingFrames s.hem service.service.componentName ≠ none →
      Unmixed regex services (s.hem.unprocessedPollingFrames.getD [])
  | _ => True

end

/-! ## What the tables hold -/

section
variable {κ : Type} [DecidableEq κ]

def Filled (map : List (κ × List ApduServiceInfo)) : Prop :=
  ∀ key found, map.lookup key = some found → found ≠ []

theorem lookup_addService (info : ApduServiceInfo) (map : List (κ × List ApduServiceInfo))
    (key other : κ) :
    (((addService info map key).lookup other).getD []) =
      (map.lookup other).getD [] ++ if key = other then [info] else [] := by
  unfold addService
  rw [Assoc.lookup_put]
  by_cases h : other = key
  · simp [h]
  · simp [h, Ne.symm h]

theorem Filled.addService {info : ApduServiceInfo} {map : List (κ × List ApduServiceInfo)}
    {key : κ} (h : Filled map) : Filled (addService info map key) := by
  intro other found hfound
  rw [Filters.addService, Assoc.lookup_put] at hfound
  split at hfound
  · cases hfound
    simp
  · exact h other found hfound

theorem lookup_addKeys (info : ApduServiceInfo) (key : κ) (keys : List κ) :
    ∀ {map : List (κ × List ApduServiceInfo)}, Filled map →
      Filled (keys.foldl (addService info) map) ∧
      ((keys.foldl (addService info) map).lookup key).getD [] =
        (map.lookup key).getD [] ++
          ((keys.filter fun other => other = key).map fun _ => info) := by
  induction keys with
  | nil =>
    intro map hmap
    exact ⟨hmap, by simp⟩
  | cons first keys ih =>
    intro map hmap
    obtain ⟨hfilled, hlookup⟩ := @ih (addService info map first) hmap.addService
    refine ⟨hfilled, ?_⟩
    rw [List.foldl_cons, hlookup, lookup_addService]
    by_cases h : first = key
    · simp [h]
    · simp [h]

theorem lookup_addServices (keys : FilteringService Pattern → List κ) (key : κ)
    (services : List (FilteringService Pattern)) :
    ∀ {map : List (κ × List ApduServiceInfo)}, Filled map →
      Filled (services.foldl
        (fun map service => (keys service).foldl (addService service.info) map) map) ∧
      ((services.foldl (fun map service => (keys service).foldl (addService service.info) map)
        map).lookup key).getD [] = (map.lookup key).getD [] ++ registeredFor keys services key := by
  induction services with
  | nil =>
    intro map hmap
    exact ⟨hmap, by simp [registeredFor]⟩
  | cons service services ih =>
    intro map hmap
    obtain ⟨hfilled, hlookup⟩ := lookup_addKeys service.info key (keys service) hmap
    obtain ⟨hfilled, hrest⟩ := ih hfilled
    refine ⟨hfilled, ?_⟩
    rw [List.foldl_cons, hrest, hlookup, List.append_assoc]
    rfl

theorem lookup_collect (keys : FilteringService Pattern → List κ)
    (services : List (FilteringService Pattern)) (key : κ) :
    (collect keys services).lookup key =
      if registeredFor keys services key = [] then none
      else some (registeredFor keys services key) := by
  have hnil : Filled ([] : List (κ × List ApduServiceInfo)) := by
    intro other found h
    cases h
  obtain ⟨hfilled, hlookup⟩ := lookup_addServices keys key services hnil
  change Filled (collect keys services) at hfilled
  change ((collect keys services).lookup key).getD [] = [] ++ registeredFor keys services key
    at hlookup
  rw [List.nil_append] at hlookup
  cases hfound : (collect keys services).lookup key with
  | none =>
    rw [hfound, Option.getD_none] at hlookup
    rw [if_pos hlookup.symm]
  | some found =>
    rw [hfound] at hlookup
    have hne := hfilled key found hfound
    rw [← hlookup]
    simp [hne]

theorem getD_lookup_collect (keys : FilteringService Pattern → List κ)
    (services : List (FilteringService Pattern)) (key : κ) :
    ((collect keys services).lookup key).getD [] = registeredFor keys services key := by
  rw [lookup_collect]
  split
  next h => exact h.symm
  next => rfl

variable {keys : FilteringService Pattern → List κ} {services : List (FilteringService Pattern)}

theorem registeredFor_eq_nil {key : κ} :
    registeredFor keys services key = [] ↔ ∀ service ∈ services, key ∉ keys service := by
  simp only [registeredFor, List.flatMap_eq_nil_iff, List.map_eq_nil_iff, List.filter_eq_nil_iff,
    decide_eq_true_eq]
  constructor
  · intro h service hservice hkey
    exact h service hservice key hkey rfl
  · intro h service hservice other hother heq
    exact h service hservice (heq ▸ hother)

theorem mem_registeredFor {key : κ} {info : ApduServiceInfo} :
    info ∈ registeredFor keys services key ↔
      ∃ service ∈ services, key ∈ keys service ∧ service.info = info := by
  simp [registeredFor, @eq_comm _ info]

theorem mem_keys_collect {key : κ} :
    key ∈ (collect keys services).map Prod.fst ↔ ∃ service ∈ services, key ∈ keys service := by
  have hlookup := lookup_collect keys services key
  constructor
  · intro hmem
    by_contra hnone
    push Not at hnone
    rw [if_pos (registeredFor_eq_nil.mpr hnone)] at hlookup
    obtain ⟨entry, hentry, rfl⟩ := List.mem_map.mp hmem
    have hne := List.lookup_eq_none_iff.mp hlookup entry hentry
    simp at hne
  · intro ⟨service, hservice, hkey⟩
    rw [if_neg] at hlookup
    · exact List.mem_map_of_mem (Assoc.mem_of_lookup hlookup)
    · intro hnil
      exact registeredFor_eq_nil.mp hnil service hservice hkey

end

section
variable [DecidableEq Pattern]
  (updates : List (Int × List (FilteringService Pattern))) (user : Int)

theorem lookup_build :
    (build updates).pollingLoopFilters.lookup user =
        (updates.reverse.lookup user).map (collect FilteringService.pollingLoopFilters) ∧
      (build updates).pollingLoopPatternFilters.lookup user =
        (updates.reverse.lookup user).map
          (collect FilteringService.pollingLoopPatternFilters) := by
  unfold build
  induction updates using List.reverseRecOn with
  | nil => exact ⟨rfl, rfl⟩
  | append_singleton updates update ih =>
    rw [List.foldl_append, List.reverse_append]
    simp only [List.foldl_cons, List.foldl_nil, List.reverse_cons, List.reverse_nil,
      List.nil_append, List.singleton_append, updatePollingLoopFilters]
    rw [Assoc.lookup_put, Assoc.lookup_put, Assoc.lookup_cons_ite, ih.1, ih.2]
    by_cases h : user = update.1
    · simp [h]
    · simp [h]

variable (regex : Regex Pattern) (dataStr : String)

omit [DecidableEq Pattern] in
variable {services : List (FilteringService Pattern)}

theorem exactMatches_ne_nil :
    exactMatches services dataStr ≠ [] ↔
      ∃ service ∈ services, dataStr ∈ service.pollingLoopFilters := by
  unfold exactMatches
  rw [Ne, registeredFor_eq_nil]
  push Not
  rfl

theorem mem_matchingPatterns {p : Pattern} :
    p ∈ matchingPatterns regex services dataStr ↔
      (∃ service ∈ services, p ∈ service.pollingLoopPatternFilters) ∧
        regex.isMatch p dataStr = true := by
  unfold matchingPatterns
  rw [List.mem_filter, (regex.perm _).mem_iff, mem_keys_collect]

theorem matchingPatterns_ne_nil :
    matchingPatterns regex services dataStr ≠ [] ↔
      ∃ service ∈ services, ∃ p ∈ service.pollingLoopPatternFilters,
        regex.isMatch p dataStr = true := by
  constructor
  · intro hne
    obtain ⟨p, hp⟩ := List.exists_mem_of_ne_nil _ hne
    obtain ⟨⟨service, hservice, hmem⟩, hmatch⟩ := (mem_matchingPatterns regex dataStr).mp hp
    exact ⟨service, hservice, p, hmem, hmatch⟩
  · intro ⟨service, hservice, p, hmem, hmatch⟩
    exact List.ne_nil_of_mem
      ((mem_matchingPatterns regex dataStr).mpr ⟨⟨service, hservice, hmem⟩, hmatch⟩)

theorem patternMatches_ne_nil (h : matchingPatterns regex services dataStr ≠ []) :
    patternMatches regex services dataStr ≠ [] := by
  obtain ⟨service, hservice, p, hmem, hmatch⟩ := (matchingPatterns_ne_nil regex dataStr).mp h
  apply List.ne_nil_of_mem
  · apply List.mem_flatMap.mpr
    refine ⟨p, (mem_matchingPatterns regex dataStr).mpr ⟨⟨service, hservice, hmem⟩, hmatch⟩, ?_⟩
    exact mem_registeredFor.mpr ⟨service, hservice, hmem, rfl⟩

theorem foldl_patterns (services : List (FilteringService Pattern))
    (found : List ApduServiceInfo) (matched : List Pattern) :
    matched.foldl (fun found p => found ++
        ((collect FilteringService.pollingLoopPatternFilters services).lookup p).getD []) found =
      found ++ matched.flatMap
        (registeredFor FilteringService.pollingLoopPatternFilters services) := by
  induction matched generalizing found with
  | nil => simp
  | cons p matched ih =>
    rw [List.foldl_cons, ih, getD_lookup_collect, List.flatMap_cons, List.append_assoc]

/-- The tables after a look-up that finds services in both. -/
def mixed : Tables Pattern :=
  { build updates with
    pollingLoopFilters := Assoc.put user
      (Assoc.put dataStr (candidates regex (servicesOf updates user) dataStr)
        (collect FilteringService.pollingLoopFilters (servicesOf updates user)))
      (build updates).pollingLoopFilters }

theorem lookUp_build :
    lookUp regex user dataStr (build updates) =
      (candidates regex (servicesOf updates user) dataStr,
        if matchingPatterns regex (servicesOf updates user) dataStr = [] ∨
            exactMatches (servicesOf updates user) dataStr = [] then build updates
        else mixed updates user regex dataStr) := by
  unfold lookUp mixed candidates patternMatches exactMatches servicesOf
  rw [(lookup_build updates user).1, (lookup_build updates user).2]
  cases updates.reverse.lookup user with
  | none =>
    -- without a table there is no key, in any order
    have hnil : matchingPatterns regex [] dataStr = [] := by
      simp [matchingPatterns, collect, (regex.perm []).eq_nil]
    simp [hnil, matchedPatterns, registeredFor]
  | some services =>
    have hmatched : matchedPatterns regex dataStr
        (some (collect FilteringService.pollingLoopPatternFilters services)) =
        matchingPatterns regex services dataStr := rfl
    dsimp only [Option.map_some, Option.bind_some, Option.getD_some]
    rw [hmatched, getD_lookup_collect, foldl_patterns, lookup_collect]
    by_cases hpatterns : matchingPatterns regex services dataStr = []
    · simp [hpatterns]
    · rw [if_neg hpatterns]
      by_cases hexact : registeredFor FilteringService.pollingLoopFilters services dataStr = []
      · rw [if_pos hexact, if_pos (Or.inr hexact)]
      · rw [if_neg hexact, if_neg (by simp [hpatterns, hexact])]

theorem mixed_ne (h : matchingPatterns regex (servicesOf updates user) dataStr ≠ [] ∧
    exactMatches (servicesOf updates user) dataStr ≠ []) :
    mixed updates user regex dataStr ≠ build updates := by
  intro hsame
  have hlook := congrArg (fun tables => ((tables.pollingLoopFilters.lookup user).bind
    fun map => map.lookup dataStr).getD []) hsame
  have hbuilt : (((build updates).pollingLoopFilters.lookup user).bind
      fun map => map.lookup dataStr).getD [] = exactMatches (servicesOf updates user) dataStr := by
    rw [(lookup_build updates user).1, servicesOf]
    cases updates.reverse.lookup user with
    | none => rfl
    | some services => exact getD_lookup_collect _ services dataStr
  simp only [hbuilt] at hlook
  rw [mixed, Assoc.lookup_put, if_pos rfl, Option.bind_some, Assoc.lookup_put, if_pos rfl,
    Option.getD_some, candidates] at hlook
  exact patternMatches_ne_nil regex dataStr h.1 (List.append_right_eq_self.mp hlook)

theorem lookUp_tables_iff :
    (lookUp regex user dataStr (build updates)).2 = build updates ↔
      ¬ MatchesBoth regex (servicesOf updates user) dataStr := by
  unfold MatchesBoth
  rw [lookUp_build, ← exactMatches_ne_nil, ← matchingPatterns_ne_nil]
  dsimp only
  split
  next h => simp only [true_iff]; tauto
  next h =>
    push Not at h
    exact iff_of_false (mixed_ne updates user regex dataStr h) fun hnot => hnot ⟨h.2, h.1⟩

end

/-! ## Handling frames -/

theorem processFrame_congr {env : Env} {found : List UInt8 → List ApduServiceInfo} {hem : Hem}
    {frame : PollingFrame}
    (h : hem.unprocessedPollingFrames = none → frame.type = .unknown →
      env.matching frame.data = found frame.data) :
    Hce.processFrame env hem frame = Hce.processFrame (withMatching env found) hem frame := by
  unfold Hce.processFrame
  cases hwait : hem.unprocessedPollingFrames with
  | some frames => rfl
  | none =>
    cases htype : frame.type with
    | unknown =>
      have hfilter : env.filterService frame.data =
          (withMatching env found).filterService frame.data := by
        unfold Env.filterService
        rw [h hwait htype]
        rfl
      dsimp only
      rw [hfilter]
      rfl
    | a | b | f | on | off => rfl

theorem processFrame_waits {env : Env} {hem : Hem} {frame : PollingFrame}
    (h : (Hce.processFrame env hem frame).unprocessedPollingFrames = none) :
    hem.unprocessedPollingFrames = none := by
  cases hwait : hem.unprocessedPollingFrames with
  | none => rfl
  | some frames =>
    unfold Hce.processFrame at h
    rw [hwait] at h
    cases h

section
variable [DecidableEq Pattern] {regex : Regex Pattern}
  {updates : List (Int × List (FilteringService Pattern))} {user : Int} {env : Env}
  {s : Loop Pattern}

/-- The services that a user's frame is to find. -/
def found (regex : Regex Pattern) (updates : List (Int × List (FilteringService Pattern)))
    (user : Int) (data : List UInt8) : List ApduServiceInfo :=
  candidates regex (servicesOf updates user) (formatHex data)

/-- The tables are as they were built, and every frame found what it is to find. -/
structure Kept (regex : Regex Pattern) (updates : List (Int × List (FilteringService Pattern)))
    (s : Loop Pattern) : Prop where
  tables : s.tables = build updates
  looked : ∀ look ∈ s.looked, look.candidates = found regex updates look.user look.data

/-- `t` keeps the tables, and its manager is `hem`. -/
def KeptAt (regex : Regex Pattern) (updates : List (Int × List (FilteringService Pattern)))
    (t : Loop Pattern) (hem : Hem) : Prop := Kept regex updates t ∧ t.hem = hem

theorem Kept.withHem (h : Kept regex updates s) (hem : Hem) :
    Kept regex updates { s with hem := hem } := ⟨h.tables, h.looked⟩

theorem processFrame_kept (h : Kept regex updates s) {frame : PollingFrame}
    (hboth : s.hem.unprocessedPollingFrames = none → frame.type = .unknown →
      ¬ MatchesBoth regex (servicesOf updates user) (formatHex frame.data)) :
    KeptAt regex updates (processFrame regex env user s frame)
      (Hce.processFrame (withMatching env (found regex updates user)) s.hem frame) := by
  unfold processFrame
  split
  next hlook =>
    have htables := (lookUp_tables_iff updates user regex (formatHex frame.data)).mpr
      (hboth hlook.1 hlook.2)
    have hfound : (lookUp regex user (formatHex frame.data) (build updates)).1 =
        found regex updates user frame.data := by rw [lookUp_build]; rfl
    rw [h.tables]
    dsimp only
    refine ⟨⟨htables, ?_⟩, ?_⟩
    · intro look hmem
      rcases List.mem_append.mp hmem with hmem | hmem
      · exact h.looked look hmem
      · rw [List.mem_singleton.mp hmem]
        exact hfound
    · dsimp only
      rw [hfound]
      apply processFrame_congr
      intro _ _
      rfl
  next hlook =>
    refine ⟨h.withHem _, ?_⟩
    apply processFrame_congr
    intro hwait htype
    exact absurd ⟨hwait, htype⟩ hlook

theorem frames_kept (frames : List PollingFrame) :
    ∀ {s : Loop Pattern}, Kept regex updates s →
      (s.hem.unprocessedPollingFrames = none →
        Unmixed regex (servicesOf updates user) frames) →
      KeptAt regex updates (frames.foldl (processFrame regex env user) s)
        (frames.foldl
          (Hce.processFrame (withMatching env (found regex updates user))) s.hem) := by
  induction frames with
  | nil => exact fun h _ => ⟨h, rfl⟩
  | cons frame frames ih =>
    intro s h hunmixed
    obtain ⟨hkept, hhem⟩ := @processFrame_kept _ _ regex updates user env s h frame
      (fun hwait => hunmixed hwait frame List.mem_cons_self)
    rw [List.foldl_cons, List.foldl_cons, ← hhem]
    apply ih hkept
    intro hwait other hmem
    rw [hhem] at hwait
    exact hunmixed (processFrame_waits hwait) other (List.mem_cons_of_mem _ hmem)

theorem detected_kept (h : Kept regex updates s) {frames : List PollingFrame}
    (hunmixed : s.hem.unprocessedPollingFrames = none →
      Unmixed regex (servicesOf updates user) frames) :
    KeptAt regex updates (onPollingLoopDetected regex env user frames s)
      (Hce.onPollingLoopDetected (withMatching env (found regex updates user)) frames s.hem) := by
  obtain ⟨hkept, hhem⟩ := @frames_kept _ _ regex updates user env frames _
    (h.withHem (beginPollingLoop frames s.hem))
    (fun hwait => hunmixed ((track_begin frames s.hem).waits hwait))
  refine ⟨hkept.withHem _, ?_⟩
  unfold onPollingLoopDetected Hce.onPollingLoopDetected
  dsimp only
  rw [hhem]
  rfl

theorem waiting_kept (h : Kept regex updates s) {service : Messenger} {name : ComponentName}
    (hunmixed : waitingFrames s.hem name ≠ none →
      Unmixed regex (servicesOf updates user) (s.hem.unprocessedPollingFrames.getD [])) :
    KeptAt regex updates (sendWaitingFrames regex env user service name s)
      (Hce.sendWaitingFrames (withMatching env (found regex updates user)) service name
        s.hem) := by
  unfold sendWaitingFrames Hce.sendWaitingFrames
  unfold waitingFrames at hunmixed ⊢
  cases hwaiting : s.hem.pollingFramesToSend.bind
      (fun toSend => toSend.find? fun entry => entry.1 = name) with
  | none => exact ⟨h, rfl⟩
  | some entry =>
    rw [hwaiting] at hunmixed
    have hsame := (sendPolling_loop env service entry.2 s.hem).1
    simp only [Option.map_some]
    cases hframes : s.hem.unprocessedPollingFrames with
    | none =>
      rw [hframes] at hsame
      have hsame' := (sendPolling_loop (withMatching env (found regex updates user)) service
        entry.2 s.hem).1
      rw [hframes] at hsame'
      simp only [hsame, hsame']
      exact ⟨h.withHem _, rfl⟩
    | some frames =>
      rw [hframes] at hsame
      have hsame' := (sendPolling_loop (withMatching env (found regex updates user)) service
        entry.2 s.hem).1
      rw [hframes] at hsame' hunmixed
      simp only [hsame, hsame']
      exact detected_kept (h.withHem _) fun _ => hunmixed (by simp)

theorem step_kept {turn : Turn} {t : Loop Pattern} (h : Kept regex updates s)
    (hok : Handles regex updates s turn) (ht : step regex s turn = some t) :
    Kept regex updates t ∧
      Hce.step s.hem (withMatching turn.env (found regex updates turn.currentUser), turn.event) =
        some t.hem := by
  obtain ⟨env, user, event⟩ := turn
  cases event with
  | pollingLoop frames =>
    obtain rfl := Option.some.inj ht
    obtain ⟨hkept, hhem⟩ := @detected_kept _ _ regex updates user env s h frames hok
    exact ⟨hkept, congrArg some hhem.symm⟩
  | paymentConnected service =>
    obtain rfl := Option.some.inj ht
    dsimp only [Hce.step]
    unfold paymentServiceConnected Hce.paymentServiceConnected
    split
    next => exact ⟨h, rfl⟩
    next =>
      obtain ⟨hkept, hhem⟩ := @waiting_kept _ _ regex updates user env _
        (h.withHem (registerPayment service s.hem)) service service.service.componentName hok
      exact ⟨hkept, congrArg some hhem.symm⟩
  | connected service =>
    obtain rfl := Option.some.inj ht
    dsimp only [Hce.step]
    unfold serviceConnected Hce.serviceConnected
    have hadapter : (withMatching env (found regex updates user)).adapterOn = env.adapterOn := rfl
    have hwanted : notWanted (withMatching env (found regex updates user)) service s.hem =
        notWanted env service s.hem := rfl
    rw [hadapter, hwanted]
    split
    next => exact ⟨h, rfl⟩
    next =>
      split
      next => exact ⟨h.withHem _, rfl⟩
      next =>
        cases hselect : s.hem.selectApdu with
        | some apdu => exact ⟨h.withHem _, rfl⟩
        | none =>
          obtain ⟨hkept, hhem⟩ := @waiting_kept _ _ regex updates user env _
            (h.withHem (register service s.hem)) service service.service.componentName hok
          exact ⟨hkept, congrArg some hhem.symm⟩
  | _ =>
    dsimp only [step] at ht
    obtain ⟨hem, hhem, rfl⟩ := Option.map_eq_some_iff.mp ht
    exact ⟨h.withHem hem, hhem⟩

/-- In a run that handles no frame with both an exact filter and a pattern, the tables stay
as they were built and every frame finds the same services each time: those with an exact
filter for it, then those with a pattern. -/
theorem filters_kept {hem : Hem} {turns : List Turn}
    (hok : StepsOk (step regex) (Handles regex updates) ⟨hem, build updates, []⟩ turns)
    (hrun : run (step regex) ⟨hem, build updates, []⟩ turns = some s) :
    s.tables = build updates ∧ ∀ look ∈ s.looked,
      look.candidates =
        exactMatches (servicesOf updates look.user) (formatHex look.data) ++
          patternMatches regex (servicesOf updates look.user) (formatHex look.data) := by
  have hstart : Kept regex updates ⟨hem, build updates, []⟩ :=
    ⟨rfl, fun _ hmem => absurd hmem List.not_mem_nil⟩
  have hend := run_keeps_of_step (fun s turn t hs hturn ht => (step_kept hs hturn ht).1) turns
    hstart hok hrun
  exact ⟨hend.tables, hend.looked⟩

end

/-! ## A frame that matches both -/

/-- One pattern, which matches everything. -/
def anything : Regex Unit := ⟨id, fun _ => List.Perm.refl _, fun _ _ => true⟩

/-- A service off the host with the given filters. -/
def offHost (component : ComponentName) (filters : List String) (patterns : List Unit) :
    FilteringService Unit := ⟨⟨component, 0, false, false, false⟩, filters, patterns⟩

/-- The system while nothing is bound and no service is preferred. -/
def quietEnv : Env where
  preferredService := none
  preferredOnHost := false
  preferredPaymentService := none
  resolveAid := fun _ => none
  isSecureNfcEnabled := false
  isDeviceLocked := false
  isScreenOn := true
  binds := fun _ => true
  unbinds := true
  alive := fun _ => true
  matching := fun _ => []
  resolvePollingLoopFilterConflict := fun _ => none
  shouldAutoTransact := fun _ _ => false
  autoDisableObserveMode := false
  isObserveModeEnabled := true
  arePackagesInForeground := false
  adapterOn := true

def frameAA : Turn := ⟨quietEnv, 0, .pollingLoop [⟨.unknown, [0xAA]⟩]⟩

theorem found_twice :
    ∃ s, run (step anything) ⟨init, build [(0, [offHost 1 ["AA"] [], offHost 2 [] [()]])], []⟩
        [frameAA, frameAA] = some s ∧
      s.tables ≠ build [(0, [offHost 1 ["AA"] [], offHost 2 [] [()]])] ∧
      s.looked.map (fun look => look.candidates.map ApduServiceInfo.component) =
        [[1, 2], [1, 2, 2]] := by
  refine ⟨_, rfl, ?_, ?_⟩
  · decide
  · decide

/-- With the pattern alone the frame finds its service twice in a row. -/
theorem filters_kept_pattern :
    ∃ s, run (step anything) ⟨init, build [(0, [offHost 2 [] [()]])], []⟩
        [frameAA, frameAA] = some s ∧
      s.tables = build [(0, [offHost 2 [] [()]])] ∧ ∀ look ∈ s.looked,
        look.candidates = exactMatches (servicesOf [(0, [offHost 2 [] [()]])] look.user)
            (formatHex look.data) ++
          patternMatches anything (servicesOf [(0, [offHost 2 [] [()]])] look.user)
            (formatHex look.data) := by
  have hunmixed : ∀ frames, Unmixed anything [offHost 2 [] [()]] frames := by
    intro frames frame _ _ hboth
    obtain ⟨service, hservice, hfilter⟩ := hboth.1
    rw [List.mem_singleton.mp hservice] at hfilter
    exact absurd hfilter List.not_mem_nil
  have hok : StepsOk (step anything) (Handles anything [(0, [offHost 2 [] [()]])])
      ⟨init, build [(0, [offHost 2 [] [()]])], []⟩ [frameAA, frameAA] :=
    ⟨fun _ => hunmixed _, fun _ _ => ⟨fun _ => hunmixed _, fun _ _ => trivial⟩⟩
  exact ⟨_, rfl, filters_kept hok rfl⟩

end NfcStack.CardEmulation.Hce.Filters
