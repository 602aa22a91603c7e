import NfcStack.Lib.Run
import NfcStack.Lib.Monitor
import NfcStack.CardEmulation.PreferredServices

/- The announced foreground preference. `computePreferredForegroundService` compares the
   user of the preference with the user of `mForegroundCurrentUid`, which is the uid of
   the foreground app also when the preference is a next-tap default of another user; and
   a default set between an activation and the deactivation takes over the flag that was
   meant for the one before.

   What is proved:
     1. `synced_compute`: where the user of a next-tap default that is taken up is that of
        the foreground uid, a computation announces exactly the changes.
     2. `preference_announced`: over every run that sets only such defaults, none of them
        between an activation and its deactivation, the callback is told each change and
        only changes, and a default goes by the deactivation after an activation that
        saw it.
     3. `preference_missed`: a default of another user hides the request of the same
        service, and a default goes by a deactivation whose activation did not see it. -/
namespace NfcStack.CardEmulation.Preferred
open NfcStack.Lib

/-! ## What should be announced -/

def nextTapOf (c : State) : Option (Int × ComponentName) :=
  c.nextTapDefault.map fun service => (c.nextTapDefaultUserId, service)

def requestOf (c : State) : Option (Int × ComponentName) :=
  c.foregroundRequested.map fun service => (userOf c.foregroundUid, service)

def effective (c : State) : Option (Int × ComponentName) := (nextTapOf c).or (requestOf c)

/-- The pair announced last is replaced by another one at each callback. -/
def nextNote (last : Option (Int × ComponentName)) :
    Obs → Option (Option (Int × ComponentName))
  | .onPreferredForegroundServiceChanged userId service =>
    let pair := service.map fun service => (userId, service)
    if pair = last then none else some pair
  | .onPreferredPaymentServiceChanged _ _ => some last

/-- The next-tap default, and whether an activation saw it. -/
structure Tap where
  default : Option (Int × ComponentName)
  seen : Bool

/-- A default goes by the first deactivation after an activation, or an off-host
selection, that saw it. -/
def Tap.next (t : Tap) (e : Event) : Tap :=
  match e.op with
  | .setDefaultForNextTap userId service =>
    { default := service.map fun service => (userId, service), seen := false }
  | .hostEmulationActivated => { t with seen := t.default.isSome }
  | .offHostAidSelected => { t with seen := t.default.isSome }
  | .hostEmulationDeactivated => if t.seen then { default := none, seen := false } else t
  | _ => t

def tapOf (es : List Event) : Tap := es.foldl Tap.next { default := none, seen := false }

/-- A next-tap default is already preferred, or is one of the user of the foreground uid,
and none is set while a deactivation is to clear one; an update that revokes the
foreground service finds no next-tap default of another user than that of the uid -1. -/
def Orderly (c : State) (e : Event) : Prop :=
  match e.op with
  | .setDefaultForNextTap userId (some service) =>
    (effective c = some (userId, service) ∨ userId = userOf c.foregroundUid) ∧
      c.clearNextTapDefault = false
  | .servicesUpdated =>
    foregroundRevoked e.env c = true → c.nextTapDefault.isSome = true →
      c.nextTapDefaultUserId = userOf (-1)
  | _ => True

instance (c : State) (e : Event) : Decidable (Orderly c e) := by
  unfold Orderly
  split <;> infer_instance

/-! ## The computation -/

section Compute
variable {c d : State} {t : Tap}

def remembered (c : State) : Option (Int × ComponentName) :=
  c.foregroundCurrent.map fun service => (userOf c.foregroundCurrentUid, service)

def Told (c : State) : Prop := watch nextNote none c.trace = some (remembered c)

theorem effective_eq (c : State) :
    effective c = (preferredService c).map fun service => (preferredServiceUserId c, service) := by
  unfold effective nextTapOf requestOf preferredService preferredServiceUserId
  cases c.nextTapDefault <;> rfl

theorem preferenceChanged_iff (c : State) :
    preferenceChanged c = true ↔ effective c ≠ remembered c := by
  rw [effective_eq]
  unfold preferenceChanged remembered
  cases preferredService c with
  | none => cases c.foregroundCurrent <;> simp
  | some service =>
    cases c.foregroundCurrent with
    | none => simp
    | some current =>
      simp only [Option.map_some, ne_eq, Option.some.injEq, Prod.mk.injEq, Bool.or_eq_true,
        bne_iff_ne, not_and_or]
      rw [eq_comm (a := current), or_comm]

/-- The preference computed is the remembered one, or one of the user of the foreground uid. -/
def Matches (c : State) : Prop :=
  effective c = remembered c ∨ ∀ p, effective c = some p → p.1 = userOf c.foregroundUid

theorem matches_of_no_tap (h : c.nextTapDefault = none) : Matches c := by
  refine Or.inr fun p hp => ?_
  unfold effective nextTapOf requestOf at hp
  rw [h] at hp
  obtain ⟨service, -, rfl⟩ := Option.map_eq_some_iff.mp hp
  rfl

theorem told_compute (htold : Told c) (hmatch : Matches c) :
    Told (computePreferredForegroundService c) ∧
      remembered (computePreferredForegroundService c) = effective c := by
  unfold computePreferredForegroundService
  split
  · next hchanged =>
    have hne := (preferenceChanged_iff c).mp hchanged
    have hpair : (preferredService c).map (fun service => (preferredServiceUserId c, service)) =
        (preferredService c).map fun service => (userOf c.foregroundUid, service) := by
      rcases hmatch with h | h
      · exact absurd h hne
      · rw [effective_eq] at h
        cases hs : preferredService c with
        | none => rfl
        | some service =>
          rw [hs] at h
          exact congrArg some (Prod.ext (h _ rfl) rfl)
    refine ⟨?_, hpair.symm.trans (effective_eq c).symm⟩
    refine watch_append_one htold ?_
    rw [nextNote, ← effective_eq, if_neg hne, effective_eq]
    exact congrArg some hpair
  · next hsame =>
    refine ⟨htold, ?_⟩
    by_contra hne
    exact hsame ((preferenceChanged_iff c).mpr (Ne.symm hne))

theorem compute_fields (c : State) :
    effective (computePreferredForegroundService c) = effective c ∧
    nextTapOf (computePreferredForegroundService c) = nextTapOf c ∧
    (computePreferredForegroundService c).clearNextTapDefault = c.clearNextTapDefault := by
  unfold computePreferredForegroundService
  split
  · exact ⟨rfl, rfl, rfl⟩
  · exact ⟨rfl, rfl, rfl⟩

/-! ## The invariant -/

structure Synced (c : State) (t : Tap) : Prop where
  told : Told c
  current : remembered c = effective c
  tap : nextTapOf c = t.default
  seen : t.default.isSome = true → t.seen = c.clearNextTapDefault
  idle : t.default = none → t.seen = false

theorem synced_compute (htold : Told c) (hmatch : Matches c) (htap : nextTapOf c = t.default)
    (hseen : t.default.isSome = true → t.seen = c.clearNextTapDefault)
    (hidle : t.default = none → t.seen = false) :
    Synced (computePreferredForegroundService c) t := by
  obtain ⟨htold', hcurrent⟩ := told_compute htold hmatch
  obtain ⟨heff, htap', hclear⟩ := compute_fields c
  exact ⟨htold', hcurrent.trans heff.symm, htap'.trans htap, fun h => (hseen h).trans hclear.symm,
    hidle⟩

/-- What has no say in the foreground preference. -/
structure Unmoved (c d : State) : Prop where
  told : Told c → Told d
  current : remembered d = remembered c
  effective : effective d = effective c
  tap : nextTapOf d = nextTapOf c
  clear : d.clearNextTapDefault = c.clearNextTapDefault

theorem Synced.unmoved (h : Synced c t) (hd : Unmoved c d) : Synced d t :=
  ⟨hd.told h.told, hd.current.trans (h.current.trans hd.effective.symm), hd.tap.trans h.tap,
    fun hs => (h.seen hs).trans hd.clear.symm, h.idle⟩

theorem Synced.recompute (h : Synced c t) (hd : Unmoved c d) :
    Synced (computePreferredForegroundService d) t := by
  have hd' := h.unmoved hd
  exact synced_compute hd'.told (Or.inl hd'.current.symm) hd'.tap hd'.seen hd'.idle

theorem told_payment (h : Told c) (userId : Int) (service : Option ComponentName) :
    Told (c.emit (.onPreferredPaymentServiceChanged userId service)) :=
  watch_append_one h rfl

/-! ## One step -/

theorem nextTap_none (htap : nextTapOf c = none) : c.nextTapDefault = none :=
  Option.map_eq_none_iff.mp htap

theorem effective_tap {p : Int × ComponentName} (h : nextTapOf c = some p) : effective c = some p := by
  unfold effective
  rw [h]
  rfl

theorem synced_request (h : Synced c t) (requested : Option ComponentName) (uid : Int) :
    Synced (computePreferredForegroundService
      { c with foregroundRequested := requested, foregroundUid := uid }) t := by
  refine synced_compute (c := { c with foregroundRequested := requested, foregroundUid := uid })
    h.told ?_ h.tap h.seen h.idle
  cases htap : nextTapOf c with
  | none => exact matches_of_no_tap (nextTap_none htap)
  | some p =>
    have heff : remembered c = some p := h.current.trans (effective_tap htap)
    refine Or.inl ((effective_tap ?_).trans heff.symm)
    exact htap

theorem synced_setDefaultForNextTap (h : Synced c t) {userId : Int} {service : Option ComponentName}
    {env : Env} (hok : Orderly c ⟨env, .setDefaultForNextTap userId service⟩) :
    Synced (setDefaultForNextTap c userId service)
      { default := service.map fun service => (userId, service), seen := false } := by
  unfold setDefaultForNextTap
  refine synced_compute h.told ?_ rfl ?_ fun _ => rfl
  · cases service with
    | none => exact matches_of_no_tap rfl
    | some service =>
      rcases hok.1 with heff | huser
      · exact Or.inl (heff.symm.trans h.current.symm)
      · refine Or.inr fun p hp => ?_
        cases hp
        exact huser
  · intro hsome
    cases service with
    | none => cases hsome
    | some service => exact hok.2.symm

theorem synced_mark (h : Synced c t) :
    Synced (markNextTapDefault c) { t with seen := t.default.isSome } := by
  have hsome : t.default.isSome = c.nextTapDefault.isSome := by
    rw [← h.tap]
    exact Option.isSome_map
  exact ⟨h.told, h.current, h.tap, fun _ => hsome, fun hnone => by rw [hnone]; rfl⟩

theorem synced_deactivated (h : Synced c t) :
    Synced (onHostEmulationDeactivated c)
      (if t.seen then { default := none, seen := false } else t) := by
  unfold onHostEmulationDeactivated
  cases htap : t.default with
  | none =>
    -- no default: at most the flag is cleared
    rw [h.idle htap, if_neg Bool.false_ne_true]
    have hnone : c.nextTapDefault = none := nextTap_none (h.tap.trans htap)
    have hidle : Synced { c with clearNextTapDefault := false } t :=
      ⟨h.told, h.current, h.tap, fun hs => (by rw [htap] at hs; cases hs), h.idle⟩
    split
    · rw [if_neg (by rw [hnone]; exact Bool.false_ne_true)]
      exact hidle
    · exact h
  | some p =>
    have hsome : c.nextTapDefault.isSome = true := by
      have : (nextTapOf c).isSome = true := by rw [h.tap, htap]; rfl
      exact Option.isSome_map.symm.trans this
    rw [h.seen (by rw [htap]; rfl)]
    by_cases hclear : c.clearNextTapDefault = true
    · rw [if_pos hclear, if_pos hclear, if_pos hsome]
      exact synced_compute h.told (matches_of_no_tap rfl) rfl (fun hs => (by cases hs))
        fun _ => rfl
    · rw [if_neg hclear, if_neg hclear]
      exact h

theorem unmoved_wallet (env : Env) (c : State) (packageName : Option String) (userId : Int) :
    Unmoved c (onWalletRoleHolderChanged env c packageName userId).1 := by
  unfold onWalletRoleHolderChanged
  split
  · exact ⟨fun h => told_payment h _ _, rfl, rfl, rfl, rfl⟩
  · dsimp only
    split
    · exact ⟨fun h => told_payment h _ _, rfl, rfl, rfl, rfl⟩
    · exact ⟨fun h => h, rfl, rfl, rfl, rfl⟩

theorem synced_load (h : Synced c t) (env : Env) (userId : Int) (force : Bool) :
    Synced (loadDefaultsFromSettings env c userId force) t := by
  unfold loadDefaultsFromSettings
  dsimp only
  have hset : ∀ p, Unmoved c { c with paymentDefaults := p } :=
    fun p => ⟨fun h => h, rfl, rfl, rfl, rfl⟩
  have hemit : ∀ (p : PaymentDefaults) (user : Int) (service : Option ComponentName) (b : Bool),
      Unmoved c (if b then { c with paymentDefaults := p }.emit
        (.onPreferredPaymentServiceChanged user service) else { c with paymentDefaults := p }) := by
    intro p user service b
    cases b with
    | true => exact ⟨fun h => told_payment (c := { c with paymentDefaults := p }) h _ _, rfl, rfl,
        rfl, rfl⟩
    | false => exact hset p
  split
  · exact h.recompute (hemit _ _ _ _)
  · exact h.unmoved (hemit _ _ _ _)

theorem synced_revoked (h : Synced c t) (hcurrent : c.foregroundCurrent.isSome = true)
    (hok : c.nextTapDefault.isSome = true → c.nextTapDefaultUserId = userOf (-1)) :
    Synced (computePreferredForegroundService
      { c with foregroundRequested := none, foregroundUid := -1, foregroundCurrentUid := -1 }) t := by
  obtain ⟨d, hd⟩ : ∃ d, d = { c with
    foregroundRequested := none, foregroundUid := -1, foregroundCurrentUid := -1 } := ⟨_, rfl⟩
  rw [← hd]
  have htapd : nextTapOf d = nextTapOf c := by rw [hd]; rfl
  have hcleard : d.clearNextTapDefault = c.clearNextTapDefault := by rw [hd]
  cases htap : c.nextTapDefault with
  | none =>
    have hpref : preferredService d = none := by
      rw [hd]
      unfold preferredService
      dsimp only
      rw [htap]
    have hchanged : preferenceChanged d = true := by
      unfold preferenceChanged
      rw [hpref, hd]
      exact hcurrent
    have heff : effective d = none := by rw [effective_eq, hpref]; rfl
    have hlast : watch nextNote none d.trace = some (remembered c) := by rw [hd]; exact h.told
    have hne : none ≠ remembered c := by
      obtain ⟨service, hservice⟩ := Option.isSome_iff_exists.mp hcurrent
      rw [remembered, hservice]
      exact nofun
    obtain ⟨heffd, htap', hclear'⟩ := compute_fields d
    refine ⟨?_, ?_, (htap'.trans htapd).trans h.tap, fun hs => ?_, h.idle⟩
    · unfold Told computePreferredForegroundService
      rw [if_pos hchanged]
      have hrem : remembered { d with
          foregroundCurrent := preferredService d, foregroundCurrentUid := d.foregroundUid } = none := by
        unfold remembered
        dsimp only
        rw [hpref]
        rfl
      refine (watch_append_one hlast ?_).trans (congrArg some hrem.symm)
      rw [nextNote, hpref]
      exact if_neg hne
    · rw [heffd, heff]
      unfold computePreferredForegroundService
      rw [if_pos hchanged]
      unfold remembered
      rw [show (State.emit _ _).foregroundCurrent = preferredService d from rfl, hpref]
      rfl
    · exact (h.seen hs).trans (hclear'.trans hcleard).symm
  | some service =>
    have huser := hok (by rw [htap]; rfl)
    have htapc : nextTapOf c = some (c.nextTapDefaultUserId, service) := by
      rw [nextTapOf, htap]
      rfl
    have hrem : remembered c = some (c.nextTapDefaultUserId, service) :=
      h.current.trans (effective_tap htapc)
    have hremd : remembered d = remembered c := by
      obtain ⟨current, hcur, hpair⟩ := Option.map_eq_some_iff.mp hrem
      obtain ⟨-, rfl⟩ := Prod.mk.inj hpair
      rw [hrem, hd, huser]
      unfold remembered
      dsimp only
      rw [hcur]
      rfl
    have heffd : effective d = remembered d := by
      rw [hremd, hrem]
      exact effective_tap (htapd.trans htapc)
    have htold : Told d := by
      unfold Told
      rw [hremd, hd]
      exact h.told
    exact synced_compute htold (Or.inl heffd) (htapd.trans h.tap)
      (fun hs => (h.seen hs).trans hcleard.symm) h.idle

theorem synced_servicesUpdated (h : Synced c t) {env : Env}
    (hok : Orderly c ⟨env, .servicesUpdated⟩) : Synced (onServicesUpdated env c) t := by
  unfold onServicesUpdated
  split
  · exact h
  · dsimp only
    obtain ⟨u, hu⟩ : ∃ u, u = if foregroundRevoked env c then
        computePreferredForegroundService
          { c with foregroundRequested := none, foregroundUid := -1, foregroundCurrentUid := -1 }
        else c := ⟨_, rfl⟩
    rw [← hu]
    have hforeground : Synced u t := by
      rw [hu]
      split
      · next hrevoked =>
        refine synced_revoked h ?_ (hok hrevoked)
        obtain ⟨service, hservice, -⟩ := (Option.any_eq_true _ _).mp hrevoked
        rw [hservice]
        rfl
      · exact h
    split
    · exact hforeground.unmoved (unmoved_wallet env _ _ _)
    · exact hforeground

theorem synced_step (h : Synced c t) {e : Event} (hok : Orderly c e) :
    ∃ d, step c e = some d ∧ Synced d (t.next e) := by
  refine ⟨_, rfl, ?_⟩
  obtain ⟨env, op⟩ := e
  cases op with
  | registerPreferredForegroundService service callingUid =>
    show Synced (registerPreferredForegroundService env c service callingUid) t
    unfold registerPreferredForegroundService
    split
    · exact synced_request h _ _
    · exact h
  | unregisteredPreferredForegroundService callingUid =>
    show Synced (unregisteredPreferredForegroundService env c callingUid) t
    unfold unregisteredPreferredForegroundService unregisterForegroundService
    split
    · split
      · exact synced_request h _ _
      · exact h
    · exact h
  | uidToBackground uid =>
    show Synced (unregisterForegroundService c uid) t
    unfold unregisterForegroundService
    split
    · exact synced_request h _ _
    · exact h
  | setDefaultForNextTap userId service => exact synced_setDefaultForNextTap h hok
  | hostEmulationActivated => exact synced_mark h
  | offHostAidSelected => exact synced_mark h
  | hostEmulationDeactivated => exact synced_deactivated h
  | servicesUpdated => exact synced_servicesUpdated h hok
  | settingsChanged => exact synced_load h env _ _
  | userSwitched userId => exact synced_load h env userId true
  | walletRoleHolderChanged packageName userId =>
    exact h.unmoved (unmoved_wallet env c packageName userId)

theorem synced_new (env : Env) : Synced (State.new env) (tapOf []) := by
  have hblank : ∀ c : State, c.foregroundCurrent = none → c.foregroundRequested = none →
      c.nextTapDefault = none → c.trace = [] → Synced c (tapOf []) := by
    intro c hcur hreq htap htrace
    refine ⟨?_, ?_, ?_, fun hs => (by cases hs), fun _ => rfl⟩
    · rw [Told, htrace, remembered, hcur]
      rfl
    · rw [remembered, effective, nextTapOf, requestOf, hcur, hreq, htap]
      rfl
    · rw [nextTapOf, htap]
      rfl
  unfold State.new
  dsimp only
  split
  · exact (synced_load (hblank _ rfl rfl rfl rfl) env _ _).unmoved (unmoved_wallet env _ _ _)
  · exact synced_load (hblank _ rfl rfl rfl rfl) env _ _

end Compute

/-! ## Runs -/

theorem preference_announced (env : Env) (es : List Event)
    (hok : StepsOk step Orderly (State.new env) es) :
    ∃ c, run step (State.new env) es = some c ∧
      watch nextNote none c.trace = some (effective c) ∧ nextTapOf c = (tapOf es).default := by
  obtain ⟨c, hc, hsynced⟩ := @run_simulates State Event Tap step Orderly Tap.next Synced
    (fun _ _ _ h hok => synced_step h hok) es _ _ (synced_new env) hok
  exact ⟨c, hc, hsynced.told.trans (congrArg some hsynced.current), hsynced.tap⟩

def wallet : ComponentName := ⟨"wallet", "Pay"⟩
def transit : ComponentName := ⟨"transit", "Ride"⟩

/-- Every service is installed, and the settings let the foreground app override. -/
def permissive : Env :=
  { getService := fun user service => service.map fun service =>
      { component := service, uid := user * 100000, aids := [], hasPayment := false
        categoryForAid := fun _ => "other" }
    getInstalledServices := fun _ => [], resolveAid := fun _ => ⟨none, none⟩
    isWalletRoleFeatureEnabled := false, getDefaultWalletRoleHolder := fun user => (none, user)
    registerUidToBackgroundCallback := fun _ => true, isInForeground := fun _ => true
    currentUser := 0, enabledProfiles := [0], paymentDefaultComponent := fun _ => some none
    paymentForeground := fun _ => some 1, unflattenFromString := fun _ => none }

/-- A request and a next-tap default of one user, and a tap. -/
def oneUser : List Event :=
  [⟨permissive, .registerPreferredForegroundService wallet 10001⟩,
    ⟨permissive, .setDefaultForNextTap 0 (some transit)⟩, ⟨permissive, .hostEmulationActivated⟩,
    ⟨permissive, .servicesUpdated⟩, ⟨permissive, .hostEmulationDeactivated⟩]

theorem preference_announced_one_user :
    ∃ c, run step (State.new permissive) oneUser = some c ∧
      watch nextNote none c.trace = some (effective c) ∧
      nextTapOf c = (tapOf oneUser).default :=
  preference_announced permissive oneUser (by decide +kernel)

/-- The app of user 10 asks for the wallet, the next tap is to go to the wallet of user 0. -/
def otherUser : List Event :=
  [⟨permissive, .registerPreferredForegroundService wallet 1010001⟩,
    ⟨permissive, .setDefaultForNextTap 0 (some wallet)⟩, ⟨permissive, .hostEmulationActivated⟩,
    ⟨permissive, .hostEmulationDeactivated⟩]

/-- The next tap is to go to the transit service; during the tap the wallet is chosen. -/
def duringTap : List Event :=
  [⟨permissive, .setDefaultForNextTap 0 (some transit)⟩, ⟨permissive, .hostEmulationActivated⟩,
    ⟨permissive, .setDefaultForNextTap 0 (some wallet)⟩, ⟨permissive, .hostEmulationDeactivated⟩]

theorem preference_missed :
    (∃ c, run step (State.new permissive) otherUser = some c ∧ effective c = some (10, wallet) ∧
      watch nextNote none c.trace = some (some (0, wallet))) ∧
    ∃ c, run step (State.new permissive) duringTap = some c ∧ nextTapOf c = none ∧
      (tapOf duringTap).default = some (0, wallet) := by
  have hother : (run step (State.new permissive) otherUser).any (fun c =>
      decide (effective c = some (10, wallet)) &&
        decide (watch nextNote none c.trace = some (some (0, wallet)))) = true := by
    decide +kernel
  have hduring : (run step (State.new permissive) duringTap).any (fun c =>
      decide (nextTapOf c = none)) = true := by decide +kernel
  obtain ⟨c, hc, h⟩ := (Option.any_eq_true _ _).mp hother
  obtain ⟨d, hd, h'⟩ := (Option.any_eq_true _ _).mp hduring
  rw [Bool.and_eq_true] at h
  exact ⟨⟨c, hc, of_decide_eq_true h.1, of_decide_eq_true h.2⟩, d, hd, of_decide_eq_true h',
    by decide +kernel⟩

end NfcStack.CardEmulation.Preferred
