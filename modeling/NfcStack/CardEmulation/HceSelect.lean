import NfcStack.CardEmulation.HceSession

/-
  Where a SELECT goes.

  A SELECT that is accepted for a service is sent to it at once when it is
  connected, and otherwise kept in `mSelectApdu` for a connection callback.
  `Selects.next` watches the SELECTs: one is handed over only to the service it
  was accepted for, once, and before the activation it arrived in ends.
  `HandedOver` adds that the callback of that service hands it over when it
  finds the manager still waiting.

  What is proved:
    1. `selects_delivered` — both hold in every run whose steps all meet
       `SelectOk`: while a SELECT is pending no other regular connection is
       completed, nor its own after the activation, nor the connection of the
       payment service when that is the service waited for.
    2. `select_misdelivered` — without that a SELECT goes to another service.
-/
namespace NfcStack.CardEmulation.Hce

/-- The SELECTs accepted in this activation and not handed over, the last one
first; and the number the next one has at least. -/
structure Selects where
  waiting : List (ComponentNameAndUser × Apdu)
  serial : Nat
  deriving DecidableEq, Repr

def Selects.next (selects : Selects) : Item → Option Selects
  | .accepted service apdu =>
    if selects.serial ≤ apdu.serial then
      some ⟨(service, apdu) :: selects.waiting, apdu.serial + 1⟩
    else none
  | .command service apdu =>
    if isSelect apdu then
      if (service.service, apdu) ∈ selects.waiting then
        some { selects with waiting := selects.waiting.erase (service.service, apdu) }
      else none
    else some selects
  | .activated | .deactivated => some { selects with waiting := [] }
  | _ => some selects

def selects (trace : List Item) : Option Selects :=
  Lib.watch Selects.next ⟨[], 0⟩ trace

/-- The SELECTs of the running activation that wait for their service. -/
def waitingOf (hem : Hem) : List (ComponentNameAndUser × Apdu) :=
  ((selects hem.trace).map Selects.waiting).getD []

def Awaits (hem : Hem) (service : ComponentNameAndUser) (apdu : Apdu) : Prop :=
  hem.state = .w4Service ∧ (waitingOf hem).head? = some (service, apdu)

/-- The connection callback of the service that is waited for hands the SELECT over. -/
def HandedOver (hem next : Hem) : Event → Prop
  | .connected service | .paymentConnected service =>
    ∀ apdu, Awaits hem service.service apdu → .command service apdu ∈ next.trace
  | _ => True

/-- A regular connection is completed with a SELECT pending only when that was
resolved to its service, in the activation that still runs, and with NFC on when
it is waited for. The payment connection is completed only for the user it was
bound for last, and not while its service is waited for. -/
def SelectOk (hem : Hem) : Env × Event → Prop
  | (env, .connected service) =>
      (env.adapterOn = true ∨ ∀ apdu, ¬ Awaits hem service.service apdu) ∧
      (env.adapterOn = true → notWanted env service hem = false →
        ∀ apdu, hem.selectApdu = some apdu → (service.service, apdu) ∈ waitingOf hem)
  | (_, .paymentConnected service) =>
      (∀ apdu, ¬ Awaits hem service.service apdu) ∧
      (hem.lastBoundPaymentServiceName = some service.service.componentName →
        service.service.userId = hem.paymentServiceUserId)
  | _ => True

/-! ## The trace -/

variable {hem : Hem} {s : Selects}

theorem selects_farewell (service : Messenger)
    (h : selects hem.trace = some s) : selects (hem.trace ++ farewell hem service) = some s := by
  unfold farewell
  split
  next active _ =>
    split
    · rw [List.append_nil]
      exact h
    · exact Lib.watch_append_one h rfl
  next =>
    rw [List.append_nil]
    exact h

/-! ## The invariant -/

structure Routed (s : Selects) (hem : Hem) : Prop where
  trace : selects hem.trace = some s
  serial : s.serial ≤ hem.received
  owned : ∀ key service, Knows hem key service → service.service = key
  awaited : hem.state = .w4Service →
    ∃ key apdu, s.waiting.head? = some (key, apdu) ∧ hem.selectApdu = some apdu
  pending : ∀ apdu, hem.selectApdu = some apdu → isSelect apdu = true

theorem Routed.waitingOf (h : Routed s hem) :
    waitingOf hem = s.waiting := by
  rw [Hce.waitingOf, h.trace]
  rfl

theorem Rebound.routed {a b : Hem} (hreb : Rebound a b) (h : Routed s a) :
    Routed s b := by
  have howned : ∀ key service, Knows b key service → service.service = key :=
    fun key service hknows => h.owned key service (hreb.2 key service hknows)
  rw [hreb.1] at howned ⊢
  exact ⟨h.trace, h.serial, howned, h.awaited, h.pending⟩

/-- A step that only sends what the SELECTs do not look at. -/
theorem Routed.emit (h : Routed s hem) {item : Item}
    (hnext : s.next item = some s) : Routed s (emit hem item) :=
  ⟨Lib.watch_append_one h.trace hnext, h.serial, h.owned, h.awaited, h.pending⟩

theorem Routed.allow (h : Routed s hem) :
    Routed s (allowOneTransaction hem) :=
  ⟨Lib.watch_append_one h.trace rfl, h.serial, h.owned, h.awaited, h.pending⟩

variable {env : Env} {service : Messenger}

/-- A SELECT handed to the service it waits for. -/
theorem routed_sendSelect {apdu : Apdu}
    (h : Routed s hem) (hmem : (service.service, apdu) ∈ s.waiting) (hsel : isSelect apdu = true) :
    ∃ s', Routed s' (sendDataToServiceLocked env service apdu hem) := by
  obtain ⟨name, hreb⟩ := sendData_spec env service apdu hem
  refine ⟨{ s with waiting := s.waiting.erase (service.service, apdu) }, hreb.routed
    ⟨?_, h.serial, h.owned, nofun, h.pending⟩⟩
  refine Lib.watch_append_one (selects_farewell service h.trace) ?_
  simp [Selects.next, hsel, hmem]

theorem routed_sendOther {apdu : Apdu} (h : Routed s hem) (hsel : isSelect apdu = false) :
    Routed s (sendDataToServiceLocked env service apdu hem) := by
  obtain ⟨name, hreb⟩ := sendData_spec env service apdu hem
  refine hreb.routed ⟨?_, h.serial, h.owned, nofun, h.pending⟩
  refine Lib.watch_append_one (selects_farewell service h.trace) ?_
  simp [Selects.next, hsel]

theorem routed_sendPolling {fs : List PollingFrame} (h : Routed s hem) :
    Routed s (sendPollingFramesToServiceLocked env service fs hem) := by
  obtain ⟨name, hreb⟩ := sendPolling_spec env service fs hem
  refine hreb.routed ⟨?_, h.serial, h.owned, fun hstate => h.awaited ?_, h.pending⟩
  · unfold framesSent
    dsimp only
    rw [selects, Lib.watch_append h.trace]
    split <;> rfl
  · unfold framesSent at hstate
    dsimp only at hstate
    split at hstate
    · exact absurd hstate (by decide)
    · exact hstate

theorem polls_routed (env : Env) (frames : List PollingFrame) (hem : Hem) (s : Selects) :
    Polls env frames hem (Routed s) where
  quiet hq h := by
    rw [hq]
    exact ⟨h.trace, h.serial, h.owned, h.awaited, h.pending⟩
  wake _ h := ⟨h.trace, h.serial, h.owned, nofun, h.pending⟩
  allow _ h := h.allow
  transact frame _ h := by
    unfold autoTransact
    split
    · exact ⟨h.trace, h.serial, h.owned, h.awaited, h.pending⟩
    · exact h.allow
  bind h := (bind_rebound env _ _).routed h
  send _ _ h := routed_sendPolling h

theorem routed_waiting {name : ComponentName}
    (h : Routed s hem) : Routed s (sendWaitingFrames env service name hem) :=
  Polls.waiting (fun _ _ => polls_routed env _ _ s) (fun _ _ => routed_sendPolling h) h

/-! ## Connections -/

/-- A messenger put under its own key. -/
theorem owned_put {conns : Connections} {bound key : ComponentNameAndUser}
    {service m : Messenger} (hbound : service.service = bound)
    (hmem : (key, some m) ∈ conns.put bound (some service)) :
    m.service = key ∨ (key, some m) ∈ conns := by
  rcases Connections.mem_put hmem with heq | hmem
  · have hkey : key = bound := congrArg Prod.fst heq
    have hm : some m = some service := congrArg Prod.snd heq
    exact .inl (by rw [Option.some.inj hm, hkey, hbound])
  · exact .inr hmem

section
variable (h : Routed s hem)
include h

theorem routed_register :
    Routed s (register service hem) := by
  refine ⟨h.trace, h.serial, fun key m hknows => ?_, h.awaited, h.pending⟩
  rcases hknows with hpay | hmem
  · exact h.owned key m (.inl hpay)
  · exact (owned_put rfl hmem).elim id fun hmem => h.owned key m (.inr hmem)

theorem routed_registerPayment (huser : service.service.userId = hem.paymentServiceUserId) :
    Routed s (registerPayment service hem) := by
  have hkey : service.service = ⟨hem.paymentServiceUserId, service.service.componentName⟩ := by
    rw [← huser]
  refine ⟨h.trace, h.serial, fun key m hknows => ?_, h.awaited, h.pending⟩
  rcases hknows with ⟨hname, hid, hm⟩ | hmem
  · have hname : service.service.componentName = key.componentName := Option.some.inj hname
    have hid : hem.paymentServiceUserId = key.userId := hid
    rw [← Option.some.inj hm, hkey, hname, hid]
  · exact (owned_put hkey hmem).elim id fun hmem => h.owned key m (.inr hmem)

/-! ## APDUs -/

theorem routed_deliverSelect {key : ComponentNameAndUser} {apdu : Apdu}
    (hserial : s.serial ≤ apdu.serial)
    (hreceived : apdu.serial < hem.received) (hsel : isSelect apdu = true)
    (hstate : hem.state ≠ .w4Service) :
    ∃ s', Routed s' (deliverSelect env key apdu hem) := by
  have haccepted : Routed ⟨(key, apdu) :: s.waiting, apdu.serial + 1⟩
      (emit hem (.accepted key apdu)) :=
    ⟨Lib.watch_append_one h.trace (if_pos hserial), hreceived, h.owned,
      fun hw => absurd hw hstate, h.pending⟩
  have hbound := (bind_rebound env _ key).routed haccepted
  unfold deliverSelect
  dsimp only
  split
  next service hservice =>
    obtain ⟨hknows, -⟩ := bind_some hservice
    obtain rfl := haccepted.owned key service hknows
    exact routed_sendSelect hbound List.mem_cons_self hsel
  next =>
    refine ⟨_, hbound.trace, hbound.serial, hbound.owned, fun _ => ⟨key, apdu, rfl, rfl⟩, ?_⟩
    intro other hother
    obtain rfl := Option.some.inj hother
    exact hsel

theorem routed_data {bytes : List UInt8} :
    ∃ s', Routed s' (onHostEmulationData env bytes hem) := by
  have hstart : Routed s (rescheduleInactivityChecks
      { hem with afterTransactionPosted := 0, received := hem.received + 1 }) :=
    ⟨h.trace, Nat.le_succ_of_le h.serial, h.owned, h.awaited, h.pending⟩
  unfold onHostEmulationData
  dsimp only
  split
  next => exact ⟨s, hstart⟩
  next =>
    split
    next aid haid =>
      have hsel : isSelect ⟨hem.received, bytes⟩ = true := by simp [isSelect, haid]
      unfold handleSelect
      split
      next => exact ⟨s, hstart.emit rfl⟩
      next => exact ⟨s, hstart.trace, hstart.serial, hstart.owned, (fun hw => by cases hw), hstart.pending⟩
      next =>
        split
        next hstate =>
          exact routed_deliverSelect hstart h.serial (Nat.lt_succ_self _) hsel (by rw [hstate]; decide)
        next hstate =>
          exact routed_deliverSelect hstart h.serial (Nat.lt_succ_self _) hsel (by rw [hstate]; decide)
        next => exact ⟨s, hstart⟩
    next hnone =>
      have hsel : isSelect ⟨hem.received, bytes⟩ = false := by simp [isSelect, hnone]
      unfold handleOther
      split
      next => exact ⟨s, hstart.emit rfl⟩
      next =>
        split
        next => exact ⟨s, routed_sendOther hstart hsel⟩
        next => exact ⟨s, hstart⟩
      next => exact ⟨s, hstart⟩

/-! ## The other events -/

theorem routed_deselect {reason : Reason} :
    Routed s (sendDeactivateToActiveServiceLocked reason hem) := by
  unfold sendDeactivateToActiveServiceLocked
  split
  · exact h
  · exact h.emit rfl

theorem routed_deactivated :
    ∃ s', Routed s' (onHostEmulationDeactivated env hem) := by
  have htold : Routed s (sendDeactivateToActiveServiceLocked .linkLoss hem) := routed_deselect h
  refine ⟨{ s with waiting := [] }, ?_⟩
  unfold onHostEmulationDeactivated clearAutoDisableObserveModeRunnableLocked
  dsimp only
  split <;> split <;>
    exact ⟨Lib.watch_append_one htold.trace rfl, htold.serial, htold.owned, nofun, htold.pending⟩

theorem routed_offHost :
    Routed s (onOffHostAidSelectedOrTransaction env hem) := by
  have hstart : Routed s (rescheduleInactivityChecks { hem with afterTransactionPosted := 0 }) :=
    ⟨h.trace, h.serial, h.owned, h.awaited, h.pending⟩
  have htold : Routed s (sendDeactivateToActiveServiceLocked .deselected
      (rescheduleInactivityChecks { hem with afterTransactionPosted := 0 })) :=
    routed_deselect hstart
  unfold onOffHostAidSelectedOrTransaction
  dsimp only
  split
  · exact ⟨Lib.watch_append_one htold.trace rfl, htold.serial, htold.owned, nofun, htold.pending⟩
  · exact ⟨Lib.watch_append_one h.trace rfl, h.serial, h.owned, nofun, h.pending⟩

theorem routed_resetIfNotActivated :
    Routed s (resetIfNotActivated hem) := by
  unfold resetIfNotActivated
  split
  · exact h
  · exact ⟨h.trace, h.serial, h.owned, h.awaited, h.pending⟩

theorem routed_clearAutoDisable :
    Routed s (clearAutoDisableObserveModeRunnableLocked hem) := by
  unfold clearAutoDisableObserveModeRunnableLocked
  split
  · exact ⟨h.trace, h.serial, h.owned, h.awaited, h.pending⟩
  · exact h

theorem routed_fieldChange {fieldOn : Bool} :
    Routed s (onFieldChangeDetected fieldOn hem) := by
  unfold onFieldChangeDetected
  dsimp only
  split <;> split <;> exact ⟨h.trace, h.serial, h.owned, h.awaited, h.pending⟩

theorem routed_defaultToObserveMode {enabled : Bool} :
    Routed s (updateForShouldDefaultToObserveMode enabled hem) := by
  unfold updateForShouldDefaultToObserveMode
  split
  · exact ⟨h.trace, h.serial, h.owned, h.awaited, h.pending⟩
  · split
    · split
      · exact h
      · exact ⟨Lib.watch_append_one h.trace rfl, h.serial, h.owned, h.awaited, h.pending⟩
    · exact h.emit rfl

theorem routed_afterTransaction :
    Routed s (runAfterTransaction hem) := by
  unfold runAfterTransaction
  dsimp only
  split
  · exact ⟨h.trace, h.serial, h.owned, h.awaited, h.pending⟩
  · split
    · exact ⟨h.trace, h.serial, h.owned, h.awaited, h.pending⟩
    · exact ⟨Lib.watch_append_one h.trace rfl, h.serial, h.owned, h.awaited, h.pending⟩

theorem routed_runAutoDisable :
    Routed s (runAutoDisable env hem) := by
  have hrun : Routed s { hem with autoDisablePosted := false } :=
    ⟨h.trace, h.serial, h.owned, h.awaited, h.pending⟩
  unfold runAutoDisable
  dsimp only
  split
  · exact hrun
  · split
    · exact hrun
    · exact hrun.allow

theorem routed_connected (hok : SelectOk hem (env, .connected service)) :
    ∃ s', Routed s' (serviceConnected env service hem) := by
  obtain ⟨-, hok⟩ := hok
  unfold serviceConnected
  split
  next => exact ⟨s, h⟩
  next hon =>
    split
    next =>
      exact ⟨s, (remove_rebound hem service.service).routed h⟩
    next hwanted =>
      split
      next apdu hsel =>
        have hmem := hok (by simpa using hon) (by simpa using hwanted) apdu hsel
        rw [h.waitingOf] at hmem
        obtain ⟨s', hsent⟩ : ∃ s', Routed s'
            (sendDataToServiceLocked env service apdu (register service hem)) :=
          routed_sendSelect (routed_register h) hmem (h.pending apdu hsel)
        have hstate : (sendDataToServiceLocked env service apdu (register service hem)).state =
            .xfer := by
          obtain ⟨name, hreb⟩ := sendData_spec env service apdu (register service hem)
          rw [hreb.1]
        refine ⟨s', hsent.trace, hsent.serial, hsent.owned, fun hw => ?_, nofun⟩
        exact absurd (hstate.symm.trans hw) (by decide)
      next => exact ⟨s, routed_waiting (routed_register h)⟩

end

/-! ## Runs -/

theorem step_routed {hem next : Hem} {e : Env × Event} (h : Routed s hem)
    (hok : SelectOk hem e) (hstep : step hem e = some next) : ∃ s', Routed s' next := by
  obtain ⟨env, event⟩ := e
  cases event with
  | activated =>
    obtain rfl := Option.some.inj hstep
    refine ⟨{ s with waiting := [] }, ?_⟩
    unfold onHostEmulationActivated
    dsimp only
    split <;> exact ⟨Lib.watch_append_one h.trace rfl, h.serial, h.owned, nofun, h.pending⟩
  | data bytes =>
    obtain rfl := Option.some.inj hstep
    exact routed_data h
  | deactivated =>
    obtain rfl := Option.some.inj hstep
    exact routed_deactivated h
  | offHostSelected =>
    obtain rfl := Option.some.inj hstep
    exact ⟨s, routed_offHost h⟩
  | fieldChange fieldOn =>
    obtain rfl := Option.some.inj hstep
    exact ⟨s, routed_fieldChange h⟩
  | pollingLoop frames =>
    obtain rfl := Option.some.inj hstep
    exact ⟨s, (polls_routed env frames hem s).detected h⟩
  | exitInFirmware exitFrame =>
    obtain rfl := Option.some.inj hstep
    exact ⟨s, routed_clearAutoDisable ⟨h.trace, h.serial, h.owned, h.awaited, h.pending⟩⟩
  | allowOneTransaction =>
    obtain rfl := Option.some.inj hstep
    exact ⟨s, h.allow⟩
  | observeModeStateChange enabled =>
    obtain rfl := Option.some.inj hstep
    cases enabled
    · exact ⟨s, routed_clearAutoDisable h⟩
    · exact ⟨s, h⟩
  | defaultToObserveMode enabled =>
    obtain rfl := Option.some.inj hstep
    exact ⟨s, routed_defaultToObserveMode h⟩
  | nfcFChange =>
    obtain rfl := Option.some.inj hstep
    exact ⟨s, routed_clearAutoDisable h⟩
  | preferredPayment service =>
    obtain rfl := Option.some.inj hstep
    refine ⟨s, ?_⟩
    cases service with
    | some key => exact (bindPayment_rebound env _ key).routed (routed_resetIfNotActivated h)
    | none => exact (unbindPayment_rebound env _).routed (routed_resetIfNotActivated h)
  | preferredForeground service =>
    obtain rfl := Option.some.inj hstep
    refine ⟨s, ?_⟩
    cases service with
    | some key => exact (bind_rebound env _ key).routed (routed_resetIfNotActivated h)
    | none => exact (unbindInactive_rebound env _).routed (routed_resetIfNotActivated h)
  | paymentConnected service =>
    obtain rfl := Option.some.inj hstep
    refine ⟨s, ?_⟩
    unfold paymentServiceConnected
    split
    next => exact h
    next hlast =>
      exact routed_waiting (routed_registerPayment h (hok.2 (by simpa using hlast)))
  | paymentDisconnected name =>
    obtain rfl := Option.some.inj hstep
    refine ⟨s, h.trace, h.serial, fun key m hknows => ?_, h.awaited, h.pending⟩
    rcases hknows with ⟨hname, -, -⟩ | hmem
    · exact absurd hname (by simp [paymentServiceDisconnected])
    · exact h.owned key m (.inr (Connections.mem_remove.mp hmem).1)
  | paymentBindingDied =>
    obtain rfl := Option.some.inj hstep
    refine ⟨s, ?_⟩
    unfold paymentBindingDied
    split
    · exact (rebind_rebound env hem).routed h
    · exact h
  | connected service =>
    obtain rfl := Option.some.inj hstep
    exact routed_connected h hok
  | disconnected key =>
    obtain rfl := Option.some.inj hstep
    exact ⟨s, (remove_rebound hem key).routed h⟩
  | bindingDied =>
    obtain rfl := Option.some.inj hstep
    exact ⟨s, (unbindInactive_rebound env hem).routed h⟩
  | response replyTo data =>
    obtain rfl := Option.some.inj hstep
    refine ⟨s, ?_⟩
    unfold handleResponse
    split
    · exact h
    · split
      · exact h
      · split
        · exact h.emit rfl
        · exact h
  | returnToIdle =>
    obtain ⟨-, hnext⟩ := Option.ite_none_right_eq_some.mp hstep
    obtain rfl := Option.some.inj hnext
    exact ⟨s, h.trace, h.serial, h.owned, nofun, h.pending⟩
  | afterTransaction =>
    obtain ⟨-, hnext⟩ := Option.ite_none_right_eq_some.mp hstep
    obtain rfl := Option.some.inj hnext
    exact ⟨s, routed_afterTransaction h⟩
  | unbindInactive =>
    obtain ⟨-, hnext⟩ := Option.ite_none_right_eq_some.mp hstep
    obtain rfl := Option.some.inj hnext
    refine ⟨s, ?_⟩
    unfold runUnbindInactive
    dsimp only
    split
    · exact ⟨h.trace, h.serial, h.owned, h.awaited, h.pending⟩
    · exact (unbindInactive_rebound env _).routed
        ⟨h.trace, h.serial, h.owned, h.awaited, h.pending⟩
  | autoDisable =>
    obtain ⟨-, hnext⟩ := Option.ite_none_right_eq_some.mp hstep
    obtain rfl := Option.some.inj hnext
    exact ⟨s, routed_runAutoDisable h⟩

/-- The callback that the manager waits for hands the pending SELECT over. -/
theorem step_handedOver {hem next : Hem} {e : Env × Event} (h : Routed s hem)
    (hok : SelectOk hem e) (hstep : step hem e = some next) : HandedOver hem next e.2 := by
  obtain ⟨env, event⟩ := e
  cases event with
  | connected service =>
    obtain rfl := Option.some.inj hstep
    intro apdu hawaits
    have hon : env.adapterOn = true := hok.1.resolve_right fun hno => hno apdu hawaits
    obtain ⟨hstate, hhead⟩ := hawaits
    rw [h.waitingOf] at hhead
    obtain ⟨key, pending, hpending, hselect⟩ := h.awaited hstate
    obtain ⟨-, rfl⟩ := Prod.mk.inj (Option.some.inj (hpending.symm.trans hhead))
    have hwanted : notWanted env service hem = false := by simp [notWanted, hstate]
    unfold serviceConnected
    rw [if_neg (by simp [hon]), if_neg (by simp [hwanted]), hselect]
    obtain ⟨name, hreb⟩ := sendData_spec env service pending (register service hem)
    dsimp only
    rw [hreb.1]
    simp
  | paymentConnected service => exact fun apdu hawaits => absurd hawaits (hok.1 apdu)
  | _ => trivial

theorem selects_delivered {es : List (Env × Event)} {hem : Hem}
    (hok : Lib.StepsOk step SelectOk init es) (hrun : Lib.run step init es = some hem) :
    selects hem.trace ≠ none ∧
      ∀ e next, SelectOk hem e → step hem e = some next → HandedOver hem next e.2 := by
  have hinit : Routed ⟨[], 0⟩ init :=
    ⟨rfl, Nat.le_refl 0, fun key m hknows => absurd hknows (by simp [Knows, init]),
      fun hw => absurd hw (by decide), fun _ h => absurd h nofun⟩
  obtain ⟨s, h⟩ := @Lib.run_keeps_of_step _ _ step SelectOk (fun hem => ∃ s, Routed s hem)
    (fun _ _ _ h hok hstep => h.elim fun _ h => step_routed h hok hstep) es _ _ ⟨_, hinit⟩ hok hrun
  refine ⟨?_, fun e next hok hstep => step_handedOver h hok hstep⟩
  rw [h.trace]
  exact Option.some_ne_none _

def firstTap : List (Env × Event) :=
  [(twoServices serviceB, .activated), (twoServices serviceB, .data (selectOf serviceA)),
    (twoServices serviceB, .connected ⟨serviceA.key, 0⟩)]

theorem selects_delivered_tap :
    ∃ hem, Lib.run step init firstTap = some hem ∧
      .command ⟨serviceA.key, 0⟩ ⟨0, selectOf serviceA⟩ ∈ hem.trace ∧
      selects hem.trace ≠ none := by
  refine ⟨_, rfl, by decide, (@selects_delivered firstTap _ ?_ rfl).1⟩
  refine ⟨trivial, fun _ h => ?_⟩
  obtain rfl := Option.some.inj h
  refine ⟨trivial, fun _ h => ?_⟩
  obtain rfl := Option.some.inj h
  refine ⟨⟨.inl rfl, fun _ _ apdu hapdu => ?_⟩, fun _ _ => trivial⟩
  obtain rfl := Option.some.inj hapdu
  decide

/-- Service B, bound for being preferred, is connected while the SELECT for
service A is pending. -/
def otherConnected : List (Env × Event) :=
  [(twoServices serviceB, .preferredForeground (some serviceB.key)),
    (twoServices serviceB, .activated), (twoServices serviceB, .data (selectOf serviceA)),
    (twoServices serviceB, .connected ⟨serviceB.key, 0⟩)]

theorem select_misdelivered :
    ¬ ∀ (es : List (Env × Event)) (hem : Hem), Lib.run step init es = some hem →
      selects hem.trace ≠ none ∧
        ∀ e next, step hem e = some next → HandedOver hem next e.2 := by
  intro hall
  exact (hall otherConnected _ rfl).1 (by decide)

end NfcStack.CardEmulation.Hce
