import NfcStack.Lib.Run
import NfcStack.CardEmulation.NfcFServices
import NfcStack.CardEmulation.HostNfcFDelivery

/- The agreement on the enabled NFC-F service. The cache of identifiers takes a new service
   only of another user, the routing manager tells identifiers apart by their codes alone,
   and what was cached while NFC was off is never registered; a change of the services during
   an activation is undone by a new request for the same service.

   What is proved:
     1. `configureRouting_exact`: identifiers that differ in their codes, if at all, are
        registered exactly.
     2. `sound_compute`: a computation brings the four classes into agreement if the change
        is one that each of them takes up.
     3. `components_agree`: over every run whose computations are so, that switches NFC on
        with no identifiers cached and forces no update of registered ones, the four agree
        between activations while NFC is on.
     4. `second_service_missed`: a second service of the same user is enabled without its
        identifiers. -/
namespace NfcStack.CardEmulation.NfcF
open NfcStack.Lib

def identifiersOf (entries : List (String × NfcFServiceInfo)) : List T3tIdentifier :=
  entries.map fun entry => identifierOf entry.2

/-- The entry of a service as the services of the user now are. -/
def currentEntry (c : State) (userId : Int) (component : ComponentName) :
    List (String × NfcFServiceInfo) :=
  cacheEntry ((c.userNfcFServiceInfo userId).getD []) component

/-- The classes name one service; its current identifiers are cached and registered. -/
structure Agree (c : State) : Prop where
  cached : c.enabledForegroundService = c.foregroundComponent
  host : c.host.enabledFgServiceName = c.foregroundComponent
  entries : c.foregroundT3tIdentifiersCache =
    match c.foregroundComponent with
    | none => []
    | some service => currentEntry c (userOf c.foregroundUid) service
  registered : c.registered = identifiersOf c.foregroundT3tIdentifiersCache

/-- A change that all classes take up: a service follows another one only if it is of another
user and its identifiers differ in their codes, or in nothing; the service that is enabled
already is asked for by its own user, with its cached entry current. -/
def ChangeOk (c : State) : Prop :=
  match c.foregroundComponent, c.foregroundRequested with
  | some enabled, some requested =>
    if requested = enabled then
      userOf c.foregroundUid = c.enabledForegroundServiceUserId ∧
        c.foregroundT3tIdentifiersCache = currentEntry c (userOf c.foregroundUid) enabled
    else
      userOf c.foregroundUid ≠ c.enabledForegroundServiceUserId ∧
        ∀ x ∈ c.configuredT3tIdentifiers,
          ∀ y ∈ identifiersOf (currentEntry c (userOf c.foregroundUid) requested),
            x.same y = true → x = y
  | _, _ => True

instance (c : State) : Decidable (ChangeOk c) := by
  unfold ChangeOk
  split
  · split <;> infer_instance
  · infer_instance

def accepted (c : State) (service : ComponentName) (callingUid : Nat) (inForeground : Bool) : Bool :=
  inForeground && (getService c (userOf callingUid) service).any fun info =>
    !(isNull info.systemCode || isNull info.nfcid2 || isNull info.t3tPmm)

def InOrder (c : State) : Event → Prop
  | .enableService service callingUid inForeground =>
    c.activated = false → accepted c service callingUid inForeground = true →
      ChangeOk { c with foregroundRequested := some service, foregroundUid := callingUid }
  | .hostEmulationDeactivated => c.computeFgRequested = true → ChangeOk c
  | .nfcEnabled => c.nfcEnabled = true ∨ c.foregroundT3tIdentifiersCache = []
  | .triggerRoutingTableUpdate => c.nfcEnabled = true → c.configuredT3tIdentifiers = []
  | _ => True

instance (c : State) (e : Event) : Decidable (InOrder c e) := by
  unfold InOrder
  split <;> infer_instance

/-! ## The invariant -/

/-- What holds also while a change waits for the end of an activation. -/
structure Based (c : State) : Prop where
  cached : c.enabledForegroundService = c.foregroundComponent
  host : c.host.enabledFgServiceName = c.foregroundComponent
  none : c.foregroundComponent = none → c.foregroundT3tIdentifiersCache = []
  single : c.foregroundT3tIdentifiersCache.length ≤ 1
  configured : c.configuredT3tIdentifiers =
    if c.nfcEnabled then identifiersOf c.foregroundT3tIdentifiersCache else []
  registered : c.registered = c.configuredT3tIdentifiers
  listed : ∀ service, c.foregroundRequested = some service →
    (c.userNfcFServiceInfo (userOf c.foregroundUid)).isSome = true

/-- The service asked for is the one enabled, with its current entry. -/
def Settled (c : State) : Prop :=
  c.foregroundRequested = c.foregroundComponent ∧
    ∀ service, c.foregroundComponent = some service →
      userOf c.foregroundUid = c.enabledForegroundServiceUserId ∧
        c.foregroundT3tIdentifiersCache = currentEntry c (userOf c.foregroundUid) service

structure Sound (c : State) : Prop extends Based c where
  settled : c.computeFgRequested = false → Settled c
  idle : c.activated = false → c.computeFgRequested = false

theorem sound_init : Sound State.init :=
  ⟨⟨rfl, rfl, fun _ => rfl, Nat.zero_le 1, rfl, rfl, nofun⟩, fun _ => ⟨rfl, nofun⟩, fun _ => rfl⟩

section
variable {c : State}

theorem Sound.agree (h : Sound c) (hidle : c.activated = false) (hon : c.nfcEnabled = true) :
    Agree c := by
  obtain ⟨-, hcurrent⟩ := h.settled (h.idle hidle)
  refine ⟨h.cached, h.host, ?_, ?_⟩
  · cases hc : c.foregroundComponent with
    | none => exact h.none hc
    | some service => exact (hcurrent service hc).2
  · rw [h.registered, h.configured, hon]
    rfl

/-! ## The routing manager -/

theorem same_refl (x : T3tIdentifier) : x.same x = true := by
  unfold T3tIdentifier.same equalsIgnoreCase
  rw [beq_self_eq_true, beq_self_eq_true]
  rfl

theorem same_comm (x y : T3tIdentifier) : x.same y = y.same x := by
  unfold T3tIdentifier.same equalsIgnoreCase
  rw [Bool.beq_comm (a := x.systemCode.toLower), Bool.beq_comm (a := x.nfcid2.toLower)]

theorem length_le_one {α : Type} {l : List α} (h : l.length ≤ 1) : l = [] ∨ ∃ x, l = [x] := by
  match l, h with
  | [], _ => exact Or.inl rfl
  | [x], _ => exact Or.inr ⟨x, rfl⟩

/-- Replacing the identifiers: nothing is to be done, or the new ones are left. -/
theorem replaced {old ids : List T3tIdentifier} (hold : old.length ≤ 1) (hnew : ids.length ≤ 1)
    (hsame : ∀ x ∈ old, ∀ y ∈ ids, x.same y = true → x = y) :
    (old = ids ∧ (ids.filter fun t => !old.any t.same) = [] ∧
      (old.filter fun t => !ids.any t.same) = []) ∨
    (¬ ((ids.filter fun t => !old.any t.same) = [] ∧ (old.filter fun t => !ids.any t.same) = []) ∧
      (old.filter fun t => !ids.any t.same).foldl List.erase old ++
        (ids.filter fun t => !old.any t.same) = ids) := by
  rcases length_le_one hold with rfl | ⟨x, rfl⟩
  · rcases length_le_one hnew with rfl | ⟨y, rfl⟩
    · exact Or.inl ⟨rfl, rfl, rfl⟩
    · exact Or.inr ⟨fun h => absurd h.1 (List.cons_ne_nil _ _), rfl⟩
  · rcases length_le_one hnew with rfl | ⟨y, rfl⟩
    · refine Or.inr ⟨fun h => absurd h.2 (List.cons_ne_nil _ _), ?_⟩
      change [x].erase x ++ [] = []
      rw [List.erase_cons_head]
      rfl
    · cases hxy : x.same y with
      | true =>
        obtain rfl := hsame x List.mem_cons_self y List.mem_cons_self hxy
        refine Or.inl ⟨rfl, ?_, ?_⟩
        · simp [same_refl]
        · simp [same_refl]
      | false =>
        have hyx : y.same x = false := (same_comm y x).trans hxy
        refine Or.inr ⟨fun h => ?_, ?_⟩
        · simp [hyx] at h
        · simp [hxy, hyx]

theorem routes_same {ids : List T3tIdentifier} (hconf : c.configuredT3tIdentifiers = ids)
    (hreg : c.registered = ids) :
    c = { c with registered := ids, configuredT3tIdentifiers := ids } := by
  cases c
  cases hconf
  cases hreg
  rfl

theorem configureRouting_exact {ids : List T3tIdentifier}
    (hreg : c.registered = c.configuredT3tIdentifiers)
    (hold : c.configuredT3tIdentifiers.length ≤ 1) (hnew : ids.length ≤ 1)
    (hsame : ∀ x ∈ c.configuredT3tIdentifiers, ∀ y ∈ ids, x.same y = true → x = y) :
    (configureRouting c ids).1 = { c with registered := ids, configuredT3tIdentifiers := ids } := by
  unfold configureRouting
  dsimp only
  rcases replaced hold hnew hsame with ⟨hsameList, hadded, hremoved⟩ | ⟨hchange, hreplaced⟩
  · rw [if_pos ⟨hadded, hremoved⟩]
    exact routes_same hsameList (hreg.trans hsameList)
  · rw [if_neg hchange]
    dsimp only
    rw [hreg, hreplaced]

/-- The identifiers of the cache go to the controller while NFC is on. -/
theorem updateRouting_exact (hreg : c.registered = c.configuredT3tIdentifiers)
    (hold : c.configuredT3tIdentifiers.length ≤ 1)
    (hnew : c.foregroundT3tIdentifiersCache.length ≤ 1)
    (hoff : c.nfcEnabled = false → c.configuredT3tIdentifiers = [])
    (hsame : ∀ x ∈ c.configuredT3tIdentifiers,
      ∀ y ∈ identifiersOf c.foregroundT3tIdentifiersCache, x.same y = true → x = y) :
    updateRoutingLocked c false =
      { c with
        registered := if c.nfcEnabled then identifiersOf c.foregroundT3tIdentifiersCache else []
        configuredT3tIdentifiers :=
          if c.nfcEnabled then identifiersOf c.foregroundT3tIdentifiersCache else [] } := by
  have hlen : (identifiersOf c.foregroundT3tIdentifiersCache).length ≤ 1 :=
    (List.length_map ..).trans_le hnew
  unfold updateRoutingLocked
  by_cases hon : c.nfcEnabled = true
  · rw [if_neg (by rw [hon]; decide), if_pos hon]
    exact configureRouting_exact hreg hold hlen hsame
  · have hconf := hoff (Bool.eq_false_of_not_eq_true hon)
    rw [if_pos (by rw [Bool.eq_false_of_not_eq_true hon]; rfl), if_neg hon]
    exact routes_same hconf (hreg.trans hconf)

theorem cacheEntry_length (services : List NfcFServiceInfo) (component : ComponentName) :
    (cacheEntry services component).length ≤ 1 := by
  unfold cacheEntry
  split
  · exact Nat.zero_le 1
  · split
    · exact Nat.le_refl 1
    · exact Nat.zero_le 1

/-! ## The cache -/

theorem generate_exact {entries : List (String × NfcFServiceInfo)}
    (hentries : (match c.enabledForegroundService with
      | none => some []
      | some service => (c.userNfcFServiceInfo c.enabledForegroundServiceUserId).map
          fun services => cacheEntry services service) = some entries)
    (hreg : c.registered = c.configuredT3tIdentifiers)
    (hold : c.configuredT3tIdentifiers.length ≤ 1)
    (hoff : c.nfcEnabled = false → c.configuredT3tIdentifiers = [])
    (hsame : ∀ x ∈ c.configuredT3tIdentifiers, ∀ y ∈ identifiersOf entries, x.same y = true → x = y) :
    generateForegroundT3tIdentifiersCacheLocked c = some
      { c with
        foregroundT3tIdentifiersCache := entries
        registered := if c.nfcEnabled then identifiersOf entries else []
        configuredT3tIdentifiers := if c.nfcEnabled then identifiersOf entries else [] } := by
  obtain ⟨u, hu⟩ : ∃ u, u = { c with
      foregroundT3tIdentifiersCache := entries
      registered := if c.nfcEnabled then identifiersOf entries else []
      configuredT3tIdentifiers := if c.nfcEnabled then identifiersOf entries else [] } := ⟨_, rfl⟩
  have hupdate : entries.length ≤ 1 →
      updateRoutingLocked { c with foregroundT3tIdentifiersCache := entries } false = u := by
    intro hlen
    rw [hu]
    exact updateRouting_exact (c := { c with foregroundT3tIdentifiersCache := entries })
      hreg hold hlen hoff hsame
  rw [← hu]
  unfold generateForegroundT3tIdentifiersCacheLocked
  split
  · next hservice =>
    rw [hservice] at hentries
    cases hentries
    exact congrArg some (hupdate (Nat.zero_le 1))
  · next service hservice =>
    rw [hservice] at hentries
    obtain ⟨services, hlist, rfl⟩ := Option.map_eq_some_iff.mp hentries
    rw [hlist]
    exact congrArg some (hupdate (cacheEntry_length _ _))

/-! ## The host emulation -/

theorem host_changed (host : HostNfcF.State) (userId : Int) (service : Option ComponentName) :
    (HostNfcF.onEnabledForegroundNfcFServiceChanged host userId service).enabledFgServiceName =
      service := by
  unfold HostNfcF.onEnabledForegroundNfcFServiceChanged
  dsimp only
  split
  · next hnone =>
    rw [(HostNfcF.quiet_unbind _).1.enabled, (HostNfcF.quiet_sendDeactivate _ _).enabled]
  · rfl

theorem host_deactivated (host : HostNfcF.State) :
    (HostNfcF.onHostEmulationDeactivated host).enabledFgServiceName = host.enabledFgServiceName := by
  unfold HostNfcF.onHostEmulationDeactivated HostNfcF.endActivation
  exact (HostNfcF.quiet_unbind _).1.enabled.trans (HostNfcF.quiet_sendDeactivate _ _).enabled

/-! ## A computation -/

theorem Based.off (h : Based c) (hoff : c.nfcEnabled = false) : c.configuredT3tIdentifiers = [] := by
  rw [h.configured, hoff]
  rfl

theorem Based.configured_single (h : Based c) : c.configuredT3tIdentifiers.length ≤ 1 := by
  rw [h.configured]
  split
  · exact (List.length_map ..).trans_le h.single
  · exact Nat.zero_le 1

/-- The service asked for, if any, is the enabled one from now on. -/
theorem changed_exact (h : Based c) {requested : Option ComponentName}
    (hreq : c.foregroundRequested = requested) (hne : requested ≠ c.foregroundComponent)
    (hok : ChangeOk c) :
    ∃ d, onEnabledForegroundNfcFServiceChanged
        { c with computeFgRequested := false, foregroundComponent := requested }
        (userOf c.foregroundUid) requested = some d ∧ Based d ∧ Settled d ∧
      d.computeFgRequested = false := by
  obtain ⟨v, hv⟩ : ∃ v, v = { c with computeFgRequested := false, foregroundComponent := requested } :=
    ⟨_, rfl⟩
  rw [← hv]
  cases requested with
  | none =>
    have henabled : v.enabledForegroundService ≠ none := by
      rw [hv]
      exact fun hnone => hne (hnone.symm.trans h.cached)
    have hgenerate := @generate_exact
      { v with enabledForegroundService := none, enabledForegroundServiceUserId := -1 } [] rfl
      (by rw [hv]; exact h.registered) (by rw [hv]; exact h.configured_single)
      (by rw [hv]; exact h.off) nofun
    unfold onEnabledForegroundNfcFServiceChanged cacheEnabledServiceChanged
    dsimp only
    rw [if_neg henabled, hgenerate]
    refine ⟨_, rfl, ⟨?_, (host_changed _ _ _).trans ?_, fun _ => rfl, Nat.zero_le 1, ?_, rfl, ?_⟩,
      ⟨?_, ?_⟩, ?_⟩
    · rw [hv]
    · rw [hv]
    · exact (ite_self _).symm ▸ rfl
    · rw [hv]
      intro service hs
      rw [hreq] at hs
      cases hs
    · rw [hv]
      exact hreq
    · rw [hv]
      exact nofun
    · rw [hv]
  | some service =>
    obtain ⟨services, hservices⟩ := Option.isSome_iff_exists.mp (h.listed service hreq)
    have hcurrent : currentEntry c (userOf c.foregroundUid) service = cacheEntry services service := by
      unfold currentEntry
      rw [hservices]
      rfl
    -- another service is enabled only for another user, with other codes
    have hother : ∀ enabled, c.foregroundComponent = some enabled →
        userOf c.foregroundUid ≠ c.enabledForegroundServiceUserId ∧
          ∀ x ∈ c.configuredT3tIdentifiers,
            ∀ y ∈ identifiersOf (currentEntry c (userOf c.foregroundUid) service),
              x.same y = true → x = y := by
      intro enabled hc
      unfold ChangeOk at hok
      rw [hc, hreq] at hok
      dsimp only at hok
      rw [if_neg (fun heq => hne (by rw [heq, hc]))] at hok
      exact hok
    have hnew : ¬ (v.enabledForegroundService.isSome = true ∧
        v.enabledForegroundServiceUserId = userOf c.foregroundUid) := by
      rw [hv]
      rintro ⟨hsome, huser⟩
      obtain ⟨enabled, he⟩ := Option.isSome_iff_exists.mp hsome
      exact (hother enabled (h.cached.symm.trans he)).1 huser.symm
    have hcodes : ∀ x ∈ c.configuredT3tIdentifiers,
        ∀ y ∈ identifiersOf (cacheEntry services service), x.same y = true → x = y := by
      cases hc : c.foregroundComponent with
      | none =>
        intro x hx
        rw [h.configured, h.none hc] at hx
        cases hon : c.nfcEnabled <;> rw [hon] at hx <;> cases hx
      | some enabled =>
        rw [← hcurrent]
        exact (hother enabled hc).2
    have hgenerate := @generate_exact
      { v with
        enabledForegroundService := some service
        enabledForegroundServiceUserId := userOf c.foregroundUid }
      (cacheEntry services service) (by rw [hv]; dsimp only; rw [hservices]; rfl)
      (by rw [hv]; exact h.registered) (by rw [hv]; exact h.configured_single)
      (by rw [hv]; exact h.off) (by rw [hv]; exact hcodes)
    unfold onEnabledForegroundNfcFServiceChanged cacheEnabledServiceChanged
    dsimp only
    rw [if_neg hnew, hgenerate]
    refine ⟨_, rfl, ⟨?_, (host_changed _ _ _).trans ?_, ?_, cacheEntry_length _ _, rfl, rfl, ?_⟩,
      ⟨?_, ?_⟩, ?_⟩
    · rw [hv]
    · rw [hv]
    · rw [hv]
      exact nofun
    · rw [hv]
      exact h.listed
    · rw [hv]
      exact hreq
    · rw [hv]
      intro service' hs
      cases hs
      exact ⟨rfl, hcurrent.symm⟩
    · rw [hv]

theorem sound_compute (h : Based c) (hidle : c.activated = false) (hok : ChangeOk c) :
    ∃ d, computeEnabledForegroundService c = some d ∧ Sound d := by
  unfold computeEnabledForegroundService
  rw [if_neg (by rw [hidle]; exact Bool.false_ne_true)]
  dsimp only
  by_cases hsame : c.foregroundRequested = c.foregroundComponent
  · rw [if_neg (fun hne => hne hsame)]
    refine ⟨_, rfl, ⟨h.cached, h.host, h.none, h.single, h.configured, h.registered, h.listed⟩,
      fun _ => ⟨hsame, fun service hs => ?_⟩, fun _ => rfl⟩
    have hs' : c.foregroundComponent = some service := hs
    unfold ChangeOk at hok
    rw [hs', hsame.trans hs'] at hok
    dsimp only at hok
    rw [if_pos rfl] at hok
    exact hok
  · rw [if_pos hsame]
    obtain ⟨d, hd, hbased, hsettled, hflag⟩ := changed_exact h rfl hsame hok
    exact ⟨d, hd, hbased, fun _ => hsettled, fun _ => hflag⟩

/-- A change of what is asked for: it is computed, or waits for the end of the activation. -/
theorem sound_asked (h : Based c) (hok : c.activated = false → ChangeOk c) :
    ∃ d, computeEnabledForegroundService c = some d ∧ Sound d := by
  by_cases hactive : c.activated = true
  · unfold computeEnabledForegroundService
    rw [if_pos hactive]
    refine ⟨_, rfl, ⟨h.cached, h.host, h.none, h.single, h.configured, h.registered, h.listed⟩,
      nofun, fun hidle => ?_⟩
    exact absurd (hactive.symm.trans hidle) (by decide)
  · have hidle := Bool.eq_false_of_not_eq_true hactive
    exact sound_compute h hidle (hok hidle)

/-! ## One event -/

theorem sound_enable (h : Sound c) {service : ComponentName} {callingUid : Nat} {inForeground : Bool}
    (hok : InOrder c (.enableService service callingUid inForeground)) :
    ∃ d, registerEnabledForegroundService c service callingUid inForeground = some d ∧ Sound d := by
  unfold registerEnabledForegroundService
  cases hinfo : getService c (userOf callingUid) service with
  | none => exact ⟨c, rfl, h⟩
  | some info =>
    dsimp only
    by_cases hnull : (isNull info.systemCode || isNull info.nfcid2 || isNull info.t3tPmm) = true
    · rw [if_pos hnull]
      exact ⟨c, rfl, h⟩
    · rw [if_neg hnull]
      split
      · exact ⟨c, rfl, h⟩
      · split
        · next hforeground =>
          have hlisted : (c.userNfcFServiceInfo (userOf callingUid)).isSome = true := by
            unfold getService at hinfo
            cases hlist : c.userNfcFServiceInfo (userOf callingUid) with
            | none =>
              rw [hlist] at hinfo
              cases hinfo
            | some services => rfl
          refine sound_asked (c := { c with
            foregroundRequested := some service, foregroundUid := callingUid })
            ⟨h.cached, h.host, h.none, h.single, h.configured, h.registered, fun _ _ => hlisted⟩ ?_
          intro hidle
          refine hok hidle ?_
          unfold accepted
          rw [hforeground, hinfo, Option.any_some, Bool.eq_false_of_not_eq_true hnull]
          rfl
        · exact ⟨c, rfl, h⟩

theorem sound_withdrawn (h : Based c) :
    ∃ d, computeEnabledForegroundService
      { c with foregroundRequested := none, foregroundUid := -1 } = some d ∧ Sound d := by
  refine sound_asked (c := { c with foregroundRequested := none, foregroundUid := -1 })
    ⟨h.cached, h.host, h.none, h.single, h.configured, h.registered, nofun⟩ fun _ => ?_
  unfold ChangeOk
  dsimp only
  split
  · next hreq => cases hreq
  · trivial

theorem sound_unregister (h : Sound c) (uid : Nat) :
    ∃ d, unregisterForegroundService c uid = some d ∧ Sound d := by
  unfold unregisterForegroundService
  split
  · exact sound_withdrawn h.toBased
  · exact ⟨c, rfl, h⟩

theorem sound_deactivated (h : Sound c) (hok : InOrder c .hostEmulationDeactivated) :
    ∃ d, onHostCardEmulationDeactivated c = some d ∧ Sound d := by
  have hbased : Based { c with
      host := HostNfcF.onHostEmulationDeactivated c.host, activated := false } :=
    ⟨h.cached, (host_deactivated c.host).trans h.host, h.none, h.single, h.configured, h.registered,
      h.listed⟩
  unfold onHostCardEmulationDeactivated
  dsimp only
  split
  · next hflag => exact sound_compute hbased rfl (hok hflag)
  · next hflag => exact ⟨_, rfl, hbased, h.settled, fun _ => Bool.eq_false_of_not_eq_true hflag⟩

theorem sound_servicesUpdated (h : Sound c) (userId : Int) (services : List NfcFServiceInfo) :
    ∃ d, onNfcFServicesUpdated c userId services = some d ∧ Sound d := by
  have hbased : Based { c with
      userNfcFServiceInfo := Function.update c.userNfcFServiceInfo userId (some services) } := by
    refine ⟨h.cached, h.host, h.none, h.single, h.configured, h.registered, fun service hs => ?_⟩
    dsimp only
    by_cases huser : userOf c.foregroundUid = userId
    · rw [huser, Function.update_self]
      rfl
    · rw [Function.update_of_ne huser]
      exact h.listed service hs
  unfold onNfcFServicesUpdated
  dsimp only
  split
  · exact sound_withdrawn hbased
  · next hnone =>
    refine ⟨_, rfl, hbased, fun hflag => ⟨(h.settled hflag).1, fun service hs => ?_⟩, h.idle⟩
    have hs' : c.foregroundComponent = some service := hs
    exact absurd (by rw [hs']; rfl) hnone

theorem sound_nfcEnabled (h : Sound c) (hok : InOrder c .nfcEnabled) :
    Sound { c with nfcEnabled := true } := by
  refine ⟨⟨h.cached, h.host, h.none, h.single, ?_, h.registered, h.listed⟩, h.settled, h.idle⟩
  rcases hok with hon | hempty
  · rw [h.configured, hon]
  · rw [h.configured, hempty]
    exact ite_self _

theorem sound_forgotten (hcached : c.enabledForegroundService = none)
    (hhost : c.host.enabledFgServiceName = none) (hcache : c.foregroundT3tIdentifiersCache = [])
    (hconf : c.configuredT3tIdentifiers = []) (hreg : c.registered = []) : Sound (forgetEnabled c) := by
  refine ⟨⟨hcached, hhost, fun _ => hcache, ?_, ?_, hreg.trans hconf.symm, nofun⟩,
    fun _ => ⟨rfl, nofun⟩, fun _ => rfl⟩
  · change c.foregroundT3tIdentifiersCache.length ≤ 1
    rw [hcache]
    exact Nat.zero_le 1
  · change c.configuredT3tIdentifiers =
      if c.nfcEnabled then identifiersOf c.foregroundT3tIdentifiersCache else []
    rw [hconf, hcache]
    exact (ite_self _).symm

theorem sound_userSwitched (h : Sound c) : Sound (onUserSwitched c) := by
  obtain ⟨v, hv⟩ : ∃ v, v = { c with
      host := HostNfcF.onUserSwitched c.host, foregroundT3tIdentifiersCache := [] } := ⟨_, rfl⟩
  have hupdate := updateRouting_exact (c := v) (by rw [hv]; exact h.registered)
    (by rw [hv]; exact h.configured_single) (by rw [hv]; exact Nat.zero_le 1)
    (by rw [hv]; exact h.off) (by rw [hv]; exact nofun)
  unfold onUserSwitched
  dsimp only
  rw [← hv, hupdate]
  have hcache : v.foregroundT3tIdentifiersCache = [] := by rw [hv]
  have hids : (if v.nfcEnabled then identifiersOf v.foregroundT3tIdentifiersCache else []) = [] := by
    rw [hcache]
    exact ite_self _
  refine sound_forgotten rfl ?_ hcache hids hids
  rw [hv]
  rfl

theorem sound_trigger (h : Sound c) (hok : InOrder c .triggerRoutingTableUpdate) :
    Sound (updateRoutingLocked c true) := by
  unfold updateRoutingLocked
  split
  · exact h
  · next hon =>
    have hon' : c.nfcEnabled = true := by
      rw [Bool.not_eq_true] at hon
      exact (Bool.not_eq_false' ..).mp hon
    have hconf := hok hon'
    have hids : identifiersOf c.foregroundT3tIdentifiersCache = [] := by
      have := h.configured
      rw [hon', hconf] at this
      exact this.symm
    have hsame : configureRouting c [] = (c, false) := by
      unfold configureRouting
      rw [hconf]
      rfl
    dsimp only
    rw [if_pos rfl, show (c.foregroundT3tIdentifiersCache.map fun entry => identifierOf entry.2) = []
      from hids, hsame]
    dsimp only
    rw [hsame]
    exact h

theorem sound_step (h : Sound c) {e : Event} (hok : InOrder c e) : ∃ d, step c e = some d ∧ Sound d := by
  cases e with
  | enableService service callingUid inForeground => exact sound_enable h hok
  | disableService callingUid inForeground =>
    unfold step
    dsimp only
    split
    · exact sound_unregister h callingUid
    · exact ⟨c, rfl, h⟩
  | uidToBackground uid => exact sound_unregister h uid
  | hostEmulationActivated =>
    exact ⟨_, rfl, ⟨h.cached, h.host, h.none, h.single, h.configured, h.registered, h.listed⟩,
      h.settled, nofun⟩
  | hostEmulationDeactivated => exact sound_deactivated h hok
  | servicesUpdated userId services => exact sound_servicesUpdated h userId services
  | nfcEnabled => exact ⟨_, rfl, sound_nfcEnabled h hok⟩
  | nfcDisabled => exact ⟨_, rfl, sound_forgotten rfl rfl rfl rfl rfl⟩
  | userSwitched => exact ⟨_, rfl, sound_userSwitched h⟩
  | triggerRoutingTableUpdate => exact ⟨_, rfl, sound_trigger h hok⟩

end

theorem components_agree (es : List Event) (hok : StepsOk step InOrder State.init es) :
    ∃ c, run step State.init es = some c ∧
      (c.activated = false → c.nfcEnabled = true → Agree c) := by
  obtain ⟨c, hc, hsound⟩ := run_invariant (fun _ _ h hok => sound_step h hok) es State.init sound_init hok
  exact ⟨c, hc, hsound.agree⟩

def demoCard : NfcFServiceInfo :=
  { component := ⟨"com.example.transit", "CardService"⟩, systemCode := "4000"
    nfcid2 := "02FE000000000001", t3tPmm := "FFFFFFFFFFFFFFFF" }

def demoPass : NfcFServiceInfo :=
  { component := ⟨"com.example.transit", "PassService"⟩, systemCode := "4001"
    nfcid2 := "02FE000000000002", t3tPmm := "FFFFFFFFFFFFFFFF" }

/-- The services of the user are known and NFC is on; one of them is enabled. -/
def demoEnabled : List Event :=
  [.servicesUpdated 0 [demoCard, demoPass], .nfcEnabled, .enableService demoCard.component 10057 true]

/-- The app goes to the background during a transaction, and asks for the other service later. -/
theorem components_agree_demo :
    ∃ c, run step State.init (demoEnabled ++ [.hostEmulationActivated, .uidToBackground 10057,
        .hostEmulationDeactivated, .enableService demoPass.component 10057 true]) = some c ∧
      (c.activated = false → c.nfcEnabled = true → Agree c) :=
  components_agree _ (by decide +kernel)

/-- The run ends between activations with NFC on, and the classes do not agree. -/
def Disagree (es : List Event) : Prop :=
  ∃ c, run step State.init es = some c ∧ c.activated = false ∧ c.nfcEnabled = true ∧ ¬ Agree c

theorem disagree_of_read {es : List Event} {b : Bool}
    (hread : ((run step State.init es).map fun c => (c.activated, c.nfcEnabled,
      decide (c.enabledForegroundService = c.foregroundComponent),
      decide (c.registered = identifiersOf c.foregroundT3tIdentifiersCache))) =
        some (false, true, b, !b)) : Disagree es := by
  obtain ⟨c, hc, hfields⟩ := Option.map_eq_some_iff.mp hread
  rw [Prod.mk.injEq, Prod.mk.injEq, Prod.mk.injEq] at hfields
  obtain ⟨hactivated, henabled, hcached, hregistered⟩ := hfields
  refine ⟨c, hc, hactivated, henabled, fun h => ?_⟩
  rw [decide_eq_true h.cached] at hcached
  rw [decide_eq_true h.registered, ← hcached] at hregistered
  cases hregistered

/-- The app asks for its other service without withdrawing the first: that one's identifiers
stay cached and registered. A service asked for before NFC is on is never registered, and a
forced update takes the identifiers of the enabled one away. -/
theorem second_service_missed :
    Disagree (demoEnabled ++ [.enableService demoPass.component 10057 true]) ∧
      Disagree [.servicesUpdated 0 [demoCard], .enableService demoCard.component 10057 true, .nfcEnabled] ∧
      Disagree (demoEnabled ++ [.triggerRoutingTableUpdate]) := by
  refine ⟨disagree_of_read (b := false) ?_, disagree_of_read (b := true) ?_,
    disagree_of_read (b := true) ?_⟩
  all_goals decide +kernel

end NfcStack.CardEmulation.NfcF
