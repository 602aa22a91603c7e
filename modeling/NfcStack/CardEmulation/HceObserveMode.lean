import NfcStack.CardEmulation.HcePolling

/-
  A temporary exit from observe mode and its undoing.

  `mEnableObserveModeAfterTransaction` says that observe mode was left for one
  transaction. It is undone by `mEnableObserveModeAfterTransactionRunnable`,
  which a deactivation or the loss of the field posts. So while the flag is set
  the field should be on, a transaction running, or the runnable in the queue
  (`Undone`).

  What is proved:
    1. `exit_undone` — `Undone` holds in every state of a run whose steps all
       meet `ExitOk`.
    2. `exit_dropped` — it does not hold in every run: an APDU in the idle state
       takes the runnable off the queue.
-/
namespace NfcStack.CardEmulation.Hce

def Watched (hem : Hem) : Prop :=
  hem.fieldOn = true ∨ isHostCardEmulationActivated hem = true ∨ hem.afterTransactionPosted > 0

def Undone (hem : Hem) : Prop :=
  hem.enableObserveModeAfterTransaction = true → Watched hem

def conflicts (env : Env) (hem : Hem) (bytes : List UInt8) : Prop :=
  ∃ aid, findSelectAid bytes = some aid ∧ resolveSelect env hem aid = .conflict

/-- A connection callback has frames to send and grants an exit with them: the
service has died, or those kept unprocessed since grant one. -/
def CallbackGrants (env : Env) (service : Messenger) (hem : Hem) : Prop :=
  waitingFrames hem service.service.componentName ≠ none ∧
    (env.alive service = false ∨
      Grants env (hem.unprocessedPollingFrames.getD []) (resumed hem))

/-- When a step does not drop the undoing: no APDU arrives outside a transaction
with the field gone, the field is not lost with neither a transaction, nor the
runnable, nor `mEnableObserveModeOnFieldOff` to post it, the return to the idle
state does not cut off a transaction with the field gone, and no exit is granted
when nothing is left to undo it. -/
def ExitOk (hem : Hem) : Env × Event → Prop
  | (env, .data bytes) => hem.enableObserveModeAfterTransaction = true →
      hem.fieldOn = true ∨ isHostCardEmulationActivated hem = true ∨
        hem.state = .pollingLoop ∧ conflicts env hem bytes
  | (_, .fieldChange false) => hem.enableObserveModeAfterTransaction = true →
      hem.enableObserveModeOnFieldOff = true ∨ isHostCardEmulationActivated hem = true ∨
        hem.afterTransactionPosted > 0
  | (_, .returnToIdle) => hem.enableObserveModeAfterTransaction = true →
      hem.fieldOn = true ∨ hem.afterTransactionPosted > 0
  | (_, .allowOneTransaction) => Watched hem
  | (env, .autoDisable) =>
      Watched hem ∨ env.isObserveModeEnabled = false ∨ env.arePackagesInForeground = true
  | (env, .pollingLoop frames) => Watched hem ∨ ¬ Grants env frames hem
  | (env, .paymentConnected service) =>
      Watched hem ∨ ¬ CallbackGrants env service (registerPayment service hem)
  | (env, .connected service) =>
      Watched hem ∨ hem.selectApdu ≠ none ∨ ¬ CallbackGrants env service (register service hem)
  | _ => True

/-! ## Binding, sends and frames -/

theorem Watched.rebound {a b : Hem} (h : Watched a) (hreb : Rebound a b) : Watched b := by
  rw [hreb.1]
  exact h

theorem Undone.rebound {a b : Hem} (h : Undone a) (hreb : Rebound a b) : Undone b := by
  rw [hreb.1]
  exact h

theorem watched_sendData (env : Env) (service : Messenger) (apdu : Apdu) (hem : Hem) :
    isHostCardEmulationActivated (sendDataToServiceLocked env service apdu hem) = true := by
  obtain ⟨name, hreb⟩ := sendData_spec env service apdu hem
  rw [hreb.1]
  rfl

variable {env : Env} {service : Messenger} {hem : Hem}

theorem watched_framesSent {fs : List PollingFrame}
    {name : Option ComponentName} (h : Watched hem) :
    Watched (framesSent env service fs name hem) := by
  rcases h with h | h | h
  · exact .inl h
  · refine .inr (.inl ?_)
    unfold framesSent isHostCardEmulationActivated at *
    cases hstate : hem.state <;> simp_all
  · exact .inr (.inr h)

/-- Handling frames does not touch what will undo an exit. -/
theorem polls_watched (env : Env) (frames : List PollingFrame) (hem : Hem) :
    Polls env frames hem Watched where
  quiet hq h := by
    rw [hq]
    exact h
  wake hidle h := by
    rcases h with h | h | h
    · exact .inl h
    · exact absurd h (by simp [isHostCardEmulationActivated, hidle])
    · exact .inr (.inr h)
  allow _ h := h
  transact frame _ h := by
    unfold autoTransact
    split
    · exact h
    · exact h
  bind h := h.rebound (bind_rebound env _ _)
  send {a _ service fs} _ _ h := by
    obtain ⟨name, hreb⟩ := sendPolling_spec env service fs a
    exact (watched_framesSent h).rebound hreb

theorem undone_sendPolling {fs : List PollingFrame}
    (h : Undone hem) (halive : env.alive service = true) :
    Undone (sendPollingFramesToServiceLocked env service fs hem) := by
  obtain ⟨name, hreb⟩ := sendPolling_spec env service fs hem
  refine Undone.rebound (fun hflag => watched_framesSent (h ?_)) hreb
  simpa [framesSent, halive] using hflag

/-- Without a grant it does not set the flag either. -/
theorem polls_undone {frames : List PollingFrame} {hem base : Hem}
    (hdec : Decides hem base) (hno : ¬ Grants env frames base) :
    Polls env frames hem (fun a => Undone a ∧ KnownBy base a) where
  quiet hq h := by
    rw [hq]
    exact h
  wake hidle h := ⟨fun hflag => (polls_watched env frames hem).wake hidle (h.1 hflag), h.2⟩
  allow hgrant := absurd (grants_of hdec hgrant) hno
  transact _ hgrant := absurd (grants_of hdec hgrant) hno
  bind h := ⟨h.1.rebound (bind_rebound env _ _), h.2.rebound (bind_rebound env _ _)⟩
  send {_ key service _} hcand hknows h := by
    have halive : env.alive service = true := by
      by_contra hdead
      exact hno (.inr (.inr ⟨key, service, candidate_of hdec hcand, h.2 key service hknows,
        by simpa using hdead⟩))
    exact ⟨undone_sendPolling h.1 halive, knownBy_sendPolling h.2⟩

theorem undone_detected {frames : List PollingFrame} (h : Undone hem)
    (hok : Watched hem ∨ ¬ Grants env frames hem) :
    Undone (onPollingLoopDetected env frames hem) := by
  rcases hok with hw | hno
  · exact fun _ => (polls_watched env frames hem).detected hw
  · have hpolls := polls_undone ⟨rfl, rfl, rfl, fun _ _ hknows => hknows⟩ hno
    exact (hpolls.detected ⟨h, fun _ _ hknows => hknows⟩).1

theorem undone_waiting (h : Undone hem) (hok : Watched hem ∨ ¬ CallbackGrants env service hem) :
    Undone (sendWaitingFrames env service service.service.componentName hem) := by
  rcases hok with hw | hno
  · refine fun _ => Polls.waiting (fun fs _ => polls_watched env _ _) (fun fs _ => ?_) hw
    obtain ⟨name, hreb⟩ := sendPolling_spec env service fs hem
    exact (watched_framesSent hw).rebound hreb
  · have hknown : KnownBy (resumed hem) hem := fun _ _ hknows => hknows
    refine (Polls.waiting (P := fun a => Undone a ∧ KnownBy (resumed hem) a)
      (fun fs hwait => ?_) (fun fs hwait => ?_) ⟨h, hknown⟩).1
    · refine polls_undone (afterWaiting_decides env service _ fs hem) fun hgrants => ?_
      exact hno ⟨by simp [hwait], .inr hgrants⟩
    · refine ⟨undone_sendPolling h ?_, knownBy_sendPolling hknown⟩
      by_contra hdead
      exact hno ⟨by simp [hwait], .inl (by simpa using hdead)⟩

/-! ## APDUs -/

theorem activated_handleSelect {aid : List UInt8} {apdu : Apdu}
    (h : isHostCardEmulationActivated hem = true ∨ resolveSelect env hem aid = .conflict) :
    isHostCardEmulationActivated (handleSelect env aid apdu hem) = true := by
  unfold handleSelect
  split
  next hres =>
    rw [hres] at h
    exact h.resolve_right nofun
  next => rfl
  next info hres =>
    rw [hres] at h
    have hact := h.resolve_right nofun
    have hsent : ∀ key, isHostCardEmulationActivated (deliverSelect env key apdu hem) = true := by
      intro key
      unfold deliverSelect
      dsimp only
      split
      · exact watched_sendData env _ apdu _
      · rfl
    split
    · exact hsent _
    · exact hsent _
    · exact hact

theorem activated_handleOther {apdu : Apdu} (h : isHostCardEmulationActivated hem = true) :
    isHostCardEmulationActivated (handleOther env apdu hem) = true := by
  unfold handleOther
  split
  · exact h
  · split
    · exact watched_sendData env _ apdu _
    · exact h
  · exact h

/-- An APDU changes neither the flag nor the field. -/
theorem data_flags (env : Env) (bytes : List UInt8) (hem : Hem) :
    (onHostEmulationData env bytes hem).enableObserveModeAfterTransaction =
        hem.enableObserveModeAfterTransaction ∧
      (onHostEmulationData env bytes hem).fieldOn = hem.fieldOn := by
  have hsend : ∀ (service : Messenger) (apdu : Apdu) (a : Hem),
      (sendDataToServiceLocked env service apdu a).enableObserveModeAfterTransaction =
          a.enableObserveModeAfterTransaction ∧
        (sendDataToServiceLocked env service apdu a).fieldOn = a.fieldOn := by
    intro service apdu a
    obtain ⟨name, hreb⟩ := sendData_spec env service apdu a
    rw [hreb.1]
    exact ⟨rfl, rfl⟩
  have hdeliver : ∀ (key : ComponentNameAndUser) (apdu : Apdu) (a : Hem),
      (deliverSelect env key apdu a).enableObserveModeAfterTransaction =
          a.enableObserveModeAfterTransaction ∧
        (deliverSelect env key apdu a).fieldOn = a.fieldOn := by
    intro key apdu a
    have hbind := (bind_rebound env (emit a (.accepted key apdu)) key).1
    unfold deliverSelect
    dsimp only
    split
    · refine (hsend _ apdu _).imp (fun h => h.trans ?_) (fun h => h.trans ?_)
      · rw [hbind]; rfl
      · rw [hbind]; rfl
    · rw [hbind]
      exact ⟨rfl, rfl⟩
  unfold onHostEmulationData
  dsimp only
  split
  · exact ⟨rfl, rfl⟩
  · split
    · unfold handleSelect
      split
      · exact ⟨rfl, rfl⟩
      · exact ⟨rfl, rfl⟩
      · split
        · exact hdeliver _ _ _
        · exact hdeliver _ _ _
        · exact ⟨rfl, rfl⟩
    · unfold handleOther
      split
      · exact ⟨rfl, rfl⟩
      · split
        · exact hsend _ _ _
        · exact ⟨rfl, rfl⟩
      · exact ⟨rfl, rfl⟩

theorem undone_data {bytes : List UInt8}
    (hok : ExitOk hem (env, .data bytes)) : Undone (onHostEmulationData env bytes hem) := by
  intro hflag
  obtain ⟨hsame, hfield⟩ := data_flags env bytes hem
  rw [hsame] at hflag
  rcases hok hflag with h | h | ⟨hpoll, aid, hfind, hres⟩
  · exact .inl (hfield.trans h)
  · refine .inr (.inl ?_)
    unfold onHostEmulationData
    dsimp only
    split
    · exact h
    · split
      · exact activated_handleSelect (.inl h)
      · exact activated_handleOther h
  · refine .inr (.inl ?_)
    unfold onHostEmulationData
    dsimp only
    have hstate : ¬ (hem.state = .idle ∨ hem.state = .w4Deactivate) := by simp [hpoll]
    rw [if_neg (by exact hstate), hfind]
    exact activated_handleSelect (.inr hres)

/-! ## The other events -/

theorem undone_fieldChange {fieldOn : Bool} (hok : ExitOk hem (env, .fieldChange fieldOn)) :
    Undone (onFieldChangeDetected fieldOn hem) := by
  cases fieldOn with
  | true => exact fun _ => .inl rfl
  | false =>
    have hlost : onFieldChangeDetected false hem =
        { hem with
          fieldOn := false
          returnToIdlePosted := 1
          unbindInactivePosted := true
          afterTransactionPosted := hem.afterTransactionPosted +
            if hem.enableObserveModeOnFieldOff && hem.enableObserveModeAfterTransaction then 1
            else 0 } := by
      unfold onFieldChangeDetected
      cases hem.enableObserveModeOnFieldOff <;> cases hem.enableObserveModeAfterTransaction <;> rfl
    intro hflag
    rw [hlost] at hflag ⊢
    rcases hok hflag with h | h | h
    · refine .inr (.inr ?_)
      simp [h, show hem.enableObserveModeAfterTransaction = true from hflag]
    · exact .inr (.inl h)
    · exact .inr (.inr (Nat.add_pos_left h _))

theorem undone_deactivated (env : Env) (hem : Hem) : Undone (onHostEmulationDeactivated env hem) := by
  unfold onHostEmulationDeactivated
  dsimp only
  split
  next => exact fun _ => .inr (.inr (Nat.succ_pos _))
  next hno => exact fun hflag => absurd hflag hno

theorem undone_defaultToObserveMode {enabled : Bool} (h : Undone hem) :
    Undone (updateForShouldDefaultToObserveMode enabled hem) := by
  unfold updateForShouldDefaultToObserveMode
  split
  next hact => exact fun _ => .inr (.inl hact)
  next =>
    split
    next =>
      split
      · exact h
      · exact nofun
    next => exact h

theorem undone_afterTransaction (hem : Hem) : Undone (runAfterTransaction hem) := by
  unfold runAfterTransaction
  dsimp only
  split
  next => exact fun _ => .inr (.inr (Nat.succ_pos _))
  next =>
    split
    next hnone =>
      intro hflag
      have hclear : hem.enableObserveModeAfterTransaction = false := by
        simp only [Bool.and_eq_true, Bool.not_eq_true'] at hnone
        exact hnone.1
      exact absurd (hclear.symm.trans hflag) Bool.false_ne_true
    next => exact nofun

theorem undone_connected (h : Undone hem)
    (hok : ExitOk hem (env, .connected service)) : Undone (serviceConnected env service hem) := by
  unfold serviceConnected
  split
  next => exact h
  next =>
    split
    next => exact h
    next =>
      split
      next apdu hsel => exact fun _ => .inr (.inl (watched_sendData env service apdu _))
      next hsel =>
        refine undone_waiting h ?_
        rcases hok with hw | hsome | hno
        · exact .inl hw
        · exact absurd hsel hsome
        · exact .inr hno

theorem undone_paymentConnected (h : Undone hem)
    (hok : ExitOk hem (env, .paymentConnected service)) :
    Undone (paymentServiceConnected env service hem) := by
  unfold paymentServiceConnected
  split
  · exact h
  · exact undone_waiting h hok

theorem undone_resetIfNotActivated (h : Undone hem) :
    Undone (resetIfNotActivated hem) := by
  unfold resetIfNotActivated
  split
  · exact h
  · exact h

theorem undone_clearAutoDisable (h : Undone hem) :
    Undone (clearAutoDisableObserveModeRunnableLocked hem) := by
  unfold clearAutoDisableObserveModeRunnableLocked
  split
  · exact h
  · exact h

theorem undone_runAutoDisable (h : Undone hem)
    (hok : ExitOk hem (env, .autoDisable)) : Undone (runAutoDisable env hem) := by
  unfold runAutoDisable
  dsimp only
  split
  next => exact h
  next hmode =>
    split
    next => exact h
    next hfore =>
      rcases hok with hw | hoff | hfg
      · exact fun _ => hw
      · exact absurd hoff (by simpa using hmode)
      · exact absurd hfg hfore

/-! ## Runs -/

theorem step_undone {hem next : Hem} {e : Env × Event} (h : Undone hem) (hok : ExitOk hem e)
    (hstep : step hem e = some next) : Undone next := by
  obtain ⟨env, event⟩ := e
  cases event with
  | activated =>
    obtain rfl := Option.some.inj hstep
    exact fun _ => .inr (.inl rfl)
  | data bytes =>
    obtain rfl := Option.some.inj hstep
    exact undone_data hok
  | deactivated =>
    obtain rfl := Option.some.inj hstep
    exact undone_deactivated env hem
  | offHostSelected =>
    obtain rfl := Option.some.inj hstep
    exact fun _ => .inr (.inl rfl)
  | fieldChange fieldOn =>
    obtain rfl := Option.some.inj hstep
    exact undone_fieldChange hok
  | pollingLoop frames =>
    obtain rfl := Option.some.inj hstep
    exact undone_detected h hok
  | exitInFirmware exitFrame =>
    obtain rfl := Option.some.inj hstep
    exact undone_clearAutoDisable h
  | allowOneTransaction =>
    obtain rfl := Option.some.inj hstep
    exact fun _ => hok
  | observeModeStateChange enabled =>
    obtain rfl := Option.some.inj hstep
    cases enabled
    · exact undone_clearAutoDisable h
    · exact h
  | defaultToObserveMode enabled =>
    obtain rfl := Option.some.inj hstep
    exact undone_defaultToObserveMode h
  | nfcFChange =>
    obtain rfl := Option.some.inj hstep
    exact undone_clearAutoDisable h
  | preferredPayment service =>
    obtain rfl := Option.some.inj hstep
    cases service with
    | some key => exact (undone_resetIfNotActivated h).rebound (bindPayment_rebound env _ key)
    | none => exact (undone_resetIfNotActivated h).rebound (unbindPayment_rebound env _)
  | preferredForeground service =>
    obtain rfl := Option.some.inj hstep
    cases service with
    | some key => exact (undone_resetIfNotActivated h).rebound (bind_rebound env _ key)
    | none => exact (undone_resetIfNotActivated h).rebound (unbindInactive_rebound env _)
  | paymentConnected service =>
    obtain rfl := Option.some.inj hstep
    exact undone_paymentConnected h hok
  | paymentDisconnected name =>
    obtain rfl := Option.some.inj hstep
    exact h
  | paymentBindingDied =>
    obtain rfl := Option.some.inj hstep
    unfold paymentBindingDied
    split
    · exact h.rebound (rebind_rebound env hem)
    · exact h
  | connected service =>
    obtain rfl := Option.some.inj hstep
    exact undone_connected h hok
  | disconnected key =>
    obtain rfl := Option.some.inj hstep
    exact h
  | bindingDied =>
    obtain rfl := Option.some.inj hstep
    exact h.rebound (unbindInactive_rebound env hem)
  | response replyTo data =>
    obtain rfl := Option.some.inj hstep
    unfold handleResponse
    split <;> [exact h; split <;> [exact h; split <;> exact h]]
  | returnToIdle =>
    obtain ⟨-, hnext⟩ := Option.ite_none_right_eq_some.mp hstep
    obtain rfl := Option.some.inj hnext
    intro hflag
    rcases hok hflag with hfield | hposted
    · exact .inl hfield
    · exact .inr (.inr hposted)
  | afterTransaction =>
    obtain ⟨-, hnext⟩ := Option.ite_none_right_eq_some.mp hstep
    obtain rfl := Option.some.inj hnext
    exact undone_afterTransaction hem
  | unbindInactive =>
    obtain ⟨-, hnext⟩ := Option.ite_none_right_eq_some.mp hstep
    obtain rfl := Option.some.inj hnext
    unfold runUnbindInactive
    dsimp only
    split
    · exact h
    · exact h
  | autoDisable =>
    obtain ⟨-, hnext⟩ := Option.ite_none_right_eq_some.mp hstep
    obtain rfl := Option.some.inj hnext
    exact undone_runAutoDisable h hok

/-- In every run whose steps all meet `ExitOk`, a set flag is undone: the field
is on, a transaction runs or the runnable is in the queue. -/
theorem exit_undone {es : List (Env × Event)} {hem : Hem} (hok : Lib.StepsOk step ExitOk init es)
    (hrun : Lib.run step init es = some hem) : Undone hem :=
  Lib.run_keeps_of_step (fun _ _ _ h hok hstep => step_undone h hok hstep) es
    (fun h => absurd h Bool.false_ne_true) hok hrun

/-- Everything is alive, nothing is preferred and no AID resolves. -/
def bareEnv : Env where
  preferredService := none
  preferredOnHost := false
  preferredPaymentService := none
  resolveAid _ := none
  isSecureNfcEnabled := false
  isDeviceLocked := false
  isScreenOn := true
  binds _ := true
  unbinds := true
  alive _ := true
  matching _ := []
  resolvePollingLoopFilterConflict _ := none
  shouldAutoTransact _ _ := false
  autoDisableObserveMode := false
  isObserveModeEnabled := true
  arePackagesInForeground := false
  adapterOn := true

/-- An exit granted in the field, a transaction, and the loss of the field. -/
def tap : List (Env × Event) :=
  [(bareEnv, .fieldChange true), (bareEnv, .allowOneTransaction), (bareEnv, .activated),
    (bareEnv, .deactivated), (bareEnv, .fieldChange false)]

theorem exit_undone_tap :
    ∃ hem, Lib.run step init tap = some hem ∧ hem.enableObserveModeAfterTransaction = true ∧
      Undone hem := by
  refine ⟨_, rfl, by decide, @exit_undone tap _ ?_ rfl⟩
  refine ⟨trivial, fun _ h => ?_⟩
  obtain rfl := Option.some.inj h
  refine ⟨.inl rfl, fun _ h => ?_⟩
  obtain rfl := Option.some.inj h
  refine ⟨trivial, fun _ h => ?_⟩
  obtain rfl := Option.some.inj h
  refine ⟨trivial, fun _ h => ?_⟩
  obtain rfl := Option.some.inj h
  exact ⟨fun _ => .inr (.inr (by decide)), fun _ _ => trivial⟩

/-- The field is lost before a transaction begins, which posts the runnable; a
stray APDU in the idle state takes it off again, and nothing will post it. -/
theorem exit_dropped :
    ¬ ∀ (es : List (Env × Event)) (hem : Hem), Lib.run step init es = some hem → Undone hem := by
  intro hall
  have hdropped := hall [(bareEnv, .fieldChange true), (bareEnv, .allowOneTransaction),
    (bareEnv, .fieldChange false), (bareEnv, .data [0x00, 0xB0])] _ rfl
  exact absurd (hdropped (by decide)) (by unfold Watched; decide)

end NfcStack.CardEmulation.Hce
