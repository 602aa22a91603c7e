import NfcStack.CardEmulation.HceSession

/-
  Which services a SELECT may reach.

  A service that is not on the host, or whose demands on the lock and the screen
  are not met, is not to be given a SELECT. `onHostEmulationData` checks this for
  a default service; the active service is taken without a look at it, and may
  have become active under other conditions.

  What is proved:
    1. `select_sent` — what a SELECT sends and binds is for the one service it
       reaches, and `reaches_nobody` — where it reaches none, it does neither.
    2. `select_protected_iff` — it reaches only services that may be given it
       exactly when it is not resolved to an active service that may not.
    3. `locked_reached` — polling frames make a service active that requires
       unlock, and a SELECT reaches it on the locked device.
-/
namespace NfcStack.CardEmulation.Hce

structure Allowed (env : Env) (info : ApduServiceInfo) : Prop where
  onHost : info.isOnHost = true
  unlocked : (info.requiresUnlock || env.isSecureNfcEnabled) = true → env.isDeviceLocked = false
  screenOn : info.requiresScreenOn = true → env.isScreenOn = true

def sentSince (hem next : Hem) : List Item := next.trace.drop hem.trace.length

/-- The SELECT in `data` is resolved to `info`, and taken for its service: sent
to it, or kept while it is bound (`select_sent`). -/
def Reaches (env : Env) (data : List UInt8) (hem : Hem) (info : ApduServiceInfo) : Prop :=
  ∃ selectAid, findSelectAid data = some selectAid ∧
    resolveSelect env hem selectAid = .service info ∧
    .accepted info.key ⟨hem.received, data⟩ ∈ sentSince hem (onHostEmulationData env data hem)

/-- The SELECT has no default service, and the active one, which is among the
services for its AID, may not be given it. -/
def ResolvedUnchecked (env : Env) (data : List UInt8) (hem : Hem) : Prop :=
  ∃ selectAid resolveInfo info, findSelectAid data = some selectAid ∧
    selectAid ≠ androidHceAid ∧ env.resolveAid selectAid = some resolveInfo ∧
    resolveInfo.defaultService = none ∧
    resolveInfo.services.find? (fun info => hem.activeServiceName = some info.component) =
      some info ∧
    ¬ Allowed env info

/-! ## Delivery -/

/-- `onHostEmulationData` before it looks at the APDU. -/
def dataReceived (hem : Hem) : Hem :=
  rescheduleInactivityChecks { hem with afterTransactionPosted := 0, received := hem.received + 1 }

theorem bind_trace (env : Env) (hem : Hem) (key : ComponentNameAndUser) :
    (bindServiceIfNeededLocked env hem key).2.trace = hem.trace := by
  rw [(bind_rebound env hem key).1]

theorem deliverSelect_sent (env : Env) (key : ComponentNameAndUser) (apdu : Apdu) (hem : Hem) :
    ∃ items, (deliverSelect env key apdu hem).trace = hem.trace ++ .accepted key apdu :: items ∧
      ∀ service other, .command service other ∈ items → Knows hem key service ∧ other = apdu := by
  unfold deliverSelect
  dsimp only
  split
  next service hservice =>
    obtain ⟨hknows, hsame⟩ := bind_some hservice
    rw [hsame]
    obtain ⟨name, hreb⟩ := sendData_spec env service apdu (emit hem (.accepted key apdu))
    refine ⟨farewell hem service ++ [.command service apdu], ?_, ?_⟩
    · rw [hreb.1]
      change hem.trace ++ [.accepted key apdu] ++ farewell hem service ++ [.command service apdu] = _
      simp only [List.append_assoc, List.cons_append, List.nil_append]
    · intro m other hmem
      rcases List.mem_append.mp hmem with hmem | hmem
      · unfold farewell at hmem
        split at hmem
        · split at hmem <;> simp at hmem
        · simp at hmem
      · obtain ⟨rfl, rfl⟩ : m = service ∧ other = apdu := by simpa using hmem
        exact ⟨hknows, rfl⟩
  next =>
    refine ⟨[], ?_, by simp⟩
    dsimp only
    rw [bind_trace]
    rfl

variable {env : Env} {data : List UInt8} {hem : Hem}

theorem resolveSelect_received (selectAid : List UInt8) :
    resolveSelect env (dataReceived hem) selectAid = resolveSelect env hem selectAid := rfl

theorem data_handleSelect {selectAid : List UInt8} (haid : findSelectAid data = some selectAid) :
    onHostEmulationData env data hem =
      if hem.state = .idle ∨ hem.state = .w4Deactivate then dataReceived hem
      else handleSelect env selectAid ⟨hem.received, data⟩ (dataReceived hem) := by
  unfold onHostEmulationData
  rw [haid]
  rfl

variable {selectAid : List UInt8} {info : ApduServiceInfo}

theorem reaches_of_delivered (haid : findSelectAid data = some selectAid)
    (hresolve : resolveSelect env hem selectAid = .service info)
    (hcall : onHostEmulationData env data hem =
      deliverSelect env info.key ⟨hem.received, data⟩ (dataReceived hem)) :
    Reaches env data hem info := by
  obtain ⟨items, htrace, -⟩ :=
    deliverSelect_sent env info.key ⟨hem.received, data⟩ (dataReceived hem)
  refine ⟨selectAid, haid, hresolve, ?_⟩
  have hsent : sentSince hem (onHostEmulationData env data hem) =
      .accepted info.key ⟨hem.received, data⟩ :: items := by
    rw [hcall, sentSince, htrace]
    exact List.drop_left
  rw [hsent]
  exact List.mem_cons_self

theorem reaches_nobody {next : Hem} (hcall : onHostEmulationData env data hem = next)
    (htrace : next.trace = hem.trace ∨ ∃ status, next.trace = hem.trace ++ [.status status])
    (hconns : next.connections = hem.connections) :
    (∀ info, ¬ Reaches env data hem info) ∧
      (onHostEmulationData env data hem).connections = hem.connections ∧
      ∀ service apdu, .command service apdu ∉ sentSince hem (onHostEmulationData env data hem) := by
  have hsent : ∀ item ∈ sentSince hem (onHostEmulationData env data hem),
      ∃ status, item = .status status := by
    intro item hitem
    rw [hcall] at hitem
    unfold sentSince at hitem
    rcases htrace with htrace | ⟨status, htrace⟩
    · rw [htrace, List.drop_length] at hitem
      exact absurd hitem List.not_mem_nil
    · rw [htrace, List.drop_left] at hitem
      exact ⟨status, List.mem_singleton.mp hitem⟩
  refine ⟨?_, by rw [hcall, hconns], fun service apdu hmem => ?_⟩
  · rintro info ⟨-, -, -, hmem⟩
    obtain ⟨status, hstatus⟩ := hsent _ hmem
    cases hstatus
  · obtain ⟨status, hstatus⟩ := hsent _ hmem
    cases hstatus

theorem reaches_of_resolved (haid : findSelectAid data = some selectAid)
    (hresolve : resolveSelect env hem selectAid = .service info)
    (hstate : hem.state = .w4Select ∨ hem.state = .xfer) : Reaches env data hem info := by
  refine reaches_of_delivered haid hresolve ?_
  have hopen : ¬ (hem.state = .idle ∨ hem.state = .w4Deactivate) := by
    rcases hstate with h | h <;> rw [h] <;> decide
  have hsame : (dataReceived hem).state = hem.state := rfl
  rw [data_handleSelect haid, if_neg hopen, handleSelect, resolveSelect_received, hresolve]
  dsimp only
  rw [hsame]
  rcases hstate with h | h <;> rw [h]

theorem Reaches.state (h : Reaches env data hem info) :
    hem.state = .w4Select ∨ hem.state = .xfer := by
  obtain ⟨selectAid, haid, hresolve, -⟩ := id h
  have hcall := @data_handleSelect env data hem selectAid haid
  split at hcall
  next => exact absurd h ((reaches_nobody hcall (.inl rfl) rfl).1 info)
  next =>
    rw [handleSelect, resolveSelect_received, hresolve] at hcall
    dsimp only at hcall
    split at hcall
    next hstate => exact .inl hstate
    next hstate => exact .inr hstate
    next => exact absurd h ((reaches_nobody hcall (.inl rfl) rfl).1 info)

/-- What is sent is for a service that the SELECT reaches, and only then one is bound. -/
structure SentOnly (env : Env) (data : List UInt8) (hem : Hem) : Prop where
  sent : ∀ service apdu, .command service apdu ∈ sentSince hem (onHostEmulationData env data hem) →
    ∃ info, Reaches env data hem info ∧ Knows hem info.key service ∧ apdu = ⟨hem.received, data⟩
  bound : (onHostEmulationData env data hem).connections ≠ hem.connections →
    ∃ info, Reaches env data hem info

theorem sentOnly_nobody {next : Hem} (hcall : onHostEmulationData env data hem = next)
    (htrace : next.trace = hem.trace ∨ ∃ status, next.trace = hem.trace ++ [.status status])
    (hconns : next.connections = hem.connections) : SentOnly env data hem := by
  obtain ⟨-, hsame, hnone⟩ := reaches_nobody hcall htrace hconns
  exact ⟨fun service apdu hmem => absurd hmem (hnone service apdu), fun hne => absurd hsame hne⟩

theorem select_sent (haid : findSelectAid data = some selectAid) :
    SentOnly env data hem := by
  have hcall := @data_handleSelect env data hem selectAid haid
  split at hcall
  next => exact sentOnly_nobody hcall (.inl rfl) rfl
  next hopen =>
    rw [handleSelect, resolveSelect_received] at hcall
    cases hresolve : resolveSelect env hem selectAid with
    | answer status =>
      rw [hresolve] at hcall
      exact sentOnly_nobody hcall (.inr ⟨status, rfl⟩) rfl
    | conflict =>
      rw [hresolve] at hcall
      exact sentOnly_nobody hcall (.inl rfl) rfl
    | service info =>
      rw [hresolve] at hcall
      dsimp only at hcall
      by_cases hstate : hem.state = .w4Select ∨ hem.state = .xfer
      · have hreaches := reaches_of_resolved haid hresolve hstate
        obtain ⟨items, htrace, hitems⟩ :=
          deliverSelect_sent env info.key ⟨hem.received, data⟩ (dataReceived hem)
        have hdeliver : onHostEmulationData env data hem =
            deliverSelect env info.key ⟨hem.received, data⟩ (dataReceived hem) := by
          rw [hcall, show (dataReceived hem).state = hem.state from rfl]
          rcases hstate with h | h <;> rw [h]
        refine ⟨fun service apdu hmem => ?_, fun _ => ⟨info, hreaches⟩⟩
        rw [hdeliver, sentSince, htrace] at hmem
        have hmem' : .command service apdu ∈ Item.accepted info.key ⟨hem.received, data⟩ :: items := by
          rwa [show (dataReceived hem).trace = hem.trace from rfl, List.drop_left] at hmem
        obtain ⟨hknows, happ⟩ := hitems service apdu (by simpa using hmem')
        exact ⟨info, hreaches, hknows, happ⟩
      · rw [show (dataReceived hem).state = hem.state from rfl] at hcall
        split at hcall
        next h => exact absurd (.inl h) hstate
        next h => exact absurd (.inr h) hstate
        next => exact sentOnly_nobody hcall (.inl rfl) rfl

/-! ## The resolution -/

theorem resolveSelect_service (h : resolveSelect env hem selectAid = .service info) :
    Allowed env info ∨
      selectAid ≠ androidHceAid ∧ ∃ resolveInfo, env.resolveAid selectAid = some resolveInfo ∧
        resolveInfo.defaultService = none ∧
        resolveInfo.services.find? (fun info => hem.activeServiceName = some info.component) =
          some info := by
  unfold resolveSelect at h
  split at h
  next => cases h
  next haid =>
    split at h
    next => cases h
    next resolveInfo hinfo =>
      split at h
      next => cases h
      next =>
        split at h
        next default _ =>
          split at h
          next => cases h
          next hlock =>
            split at h
            next => cases h
            next hscreen =>
              split at h
              next => cases h
              next hhost =>
                obtain rfl := Resolution.service.inj h
                left
                constructor
                · simpa using hhost
                · intro hreq
                  simpa [hreq] using hlock
                · intro hreq
                  simpa [hreq] using hscreen
        next hdefault =>
          split at h
          next active hfind =>
            obtain rfl := Resolution.service.inj h
            exact .inr ⟨haid, resolveInfo, hinfo, hdefault, hfind⟩
          next => cases h

theorem resolveSelect_active {resolveInfo : AidResolveInfo} (haid : selectAid ≠ androidHceAid)
    (hinfo : env.resolveAid selectAid = some resolveInfo)
    (hdefault : resolveInfo.defaultService = none) (hfind : resolveInfo.services.find?
      (fun info => hem.activeServiceName = some info.component) = some info) :
    resolveSelect env hem selectAid = .service info := by
  have hsome : resolveInfo.services ≠ [] := by
    intro hnil
    rw [hnil] at hfind
    cases hfind
  unfold resolveSelect
  rw [if_neg haid, hinfo]
  dsimp only
  rw [if_neg hsome, hdefault]
  dsimp only
  rw [hfind]

theorem select_protected_iff (env : Env) (data : List UInt8) (hem : Hem) :
    (∀ info, Reaches env data hem info → Allowed env info) ↔
      ((hem.state = .w4Select ∨ hem.state = .xfer) → ¬ ResolvedUnchecked env data hem) := by
  constructor
  · rintro hall hstate ⟨selectAid, resolveInfo, info, haid, hown, hinfo, hdefault, hfind, hnot⟩
    have hresolve : resolveSelect env hem selectAid = .service info :=
      resolveSelect_active hown hinfo hdefault hfind
    exact hnot (hall info (reaches_of_resolved haid hresolve hstate))
  · intro hchecked info hreaches
    by_contra hnot
    obtain ⟨selectAid, haid, hresolve, -⟩ := id hreaches
    rcases resolveSelect_service hresolve with hallowed | ⟨hown, resolveInfo, hinfo, hdefault, hfind⟩
    · exact hnot hallowed
    · exact hchecked hreaches.state
        ⟨selectAid, resolveInfo, info, haid, hown, hinfo, hdefault, hfind, hnot⟩

/-- A service that requires unlock, in the foreground of a locked device; an AID
that it shares with service B is routed to neither by default. -/
def guarded : ApduServiceInfo := ⟨3, 0, true, true, false⟩

def lockedDevice : Env :=
  { twoServices guarded with
    resolveAid := fun _ => some ⟨[guarded, serviceB], none⟩
    isDeviceLocked := true }

def lockedTap : List (Env × Event) :=
  [(lockedDevice, .preferredForeground (some guarded.key)),
    (lockedDevice, .connected ⟨guarded.key, 0⟩),
    (lockedDevice, .pollingLoop [⟨.f, []⟩]),
    (lockedDevice, .activated)]

theorem locked_reached :
    ¬ ∀ (es : List (Env × Event)) (hem : Hem), Lib.run step init es = some hem →
      ∀ env data info, Reaches env data hem info → Allowed env info := by
  intro hall
  have hreaches := hall lockedTap _ rfl lockedDevice (selectOf guarded) guarded
    ⟨[0xF0, 0x00, 0x00, 0x00, 0x03], by decide, by decide, by decide⟩
  exact absurd (hreaches.unlocked rfl) (by decide)

end NfcStack.CardEmulation.Hce
