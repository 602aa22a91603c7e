import NfcStack.Lib.Monitor
import NfcStack.CardEmulation.HcePolling

/-
  Who an APDU session belongs to.

  `Session.next` watches what the manager sends. The service that was given the
  last SELECT is the target: APDUs that are not SELECTs go to it, the answers
  passed on to the reader are its own, and it gets one `MSG_DEACTIVATED` when
  another service or the secure element is selected or the link ends, before
  anything else happens to it. A trace that breaks one of these has no session.

  What is proved:
    1. `sessions_hold` — in every run whose steps all meet `SessionOk` the trace
       has a session: while there is a target, polling frames go to no other
       service, the manager does not return to the idle state on its own, and
       an off-host selection finds it in `STATE_XFER`.
    2. `frames_redirect` — without that, polling frames redirect the APDUs of a
       transaction in progress.
-/
namespace NfcStack.CardEmulation.Hce

structure Session where
  target : Option Messenger
  told : Bool
  deriving DecidableEq, Repr

def isSelect (apdu : Apdu) : Bool := (findSelectAid apdu.bytes).isSome

/-- The service is the target and has not been told otherwise. -/
def Session.serves (session : Session) (service : Messenger) : Bool :=
  session.target = some service && !session.told

def Session.settled (session : Session) : Bool :=
  session.target = none || session.told

def Session.next (session : Session) : Item → Option Session
  | .command service apdu =>
    if session.serves service then some session
    else if isSelect apdu && session.settled then some ⟨some service, false⟩ else none
  | .response service _ => if session.serves service then some session else none
  | .deselected service _ =>
    if session.target = some service then
      if session.told then none else some { session with told := true }
    else some session
  | .deactivated | .offHost => if session.settled then some ⟨none, false⟩ else none
  | _ => some session

def session (trace : List Item) : Option Session :=
  Lib.watch Session.next ⟨none, false⟩ trace

/-- The service that was given the last SELECT of the transaction. -/
def targetOf (hem : Hem) : Option Messenger := (session hem.trace).bind Session.target

def NoOther (hem : Hem) (service : Messenger) : Prop :=
  targetOf hem = none ∨ targetOf hem = some service

/-- A connection callback sends the frames that waited to no one but the target. -/
def CallbackServes (env : Env) (service : Messenger) (hem : Hem) : Prop :=
  waitingFrames hem service.service.componentName ≠ none → NoOther hem service ∧
    ∀ key m, Candidate env (hem.unprocessedPollingFrames.getD []) (resumed hem) key →
      Knows hem key m → NoOther hem m

/-- While there is a target, frames go to no other service, the manager does not
return to the idle state, and an off-host selection finds it exchanging APDUs. -/
def SessionOk (hem : Hem) : Env × Event → Prop
  | (env, .pollingLoop frames) =>
      ∀ key m, Candidate env frames hem key → Knows hem key m → NoOther hem m
  | (env, .paymentConnected service) => CallbackServes env service (registerPayment service hem)
  | (env, .connected service) =>
      hem.selectApdu = none → CallbackServes env service (register service hem)
  | (_, .returnToIdle) => targetOf hem = none
  | (_, .offHostSelected) => targetOf hem = none ∨ hem.state = .xfer
  | _ => True

/-! ## The invariant -/

/-- The target is the active service; the manager exchanges APDUs only with a
target, and has none outside a transaction. -/
structure Held (target : Option Messenger) (hem : Hem) : Prop where
  trace : session hem.trace = some ⟨target, false⟩
  active : ∀ m, target = some m → hem.activeService = some m
  xfer : hem.state = .xfer → target ≠ none
  outside : isHostCardEmulationActivated hem = false → target = none
  pending : ∀ apdu, hem.selectApdu = some apdu → isSelect apdu = true

variable {target : Option Messenger} {hem : Hem}

theorem Held.targetOf (h : Held target hem) :
    targetOf hem = target := by
  rw [Hce.targetOf, h.trace]
  rfl

theorem Rebound.held {a b : Hem} (hreb : Rebound a b) (h : Held target a) : Held target b := by
  rw [hreb.1]
  exact ⟨h.trace, h.active, h.xfer, h.outside, h.pending⟩

theorem Held.emit (h : Held target hem) {item : Item}
    (hnext : ∀ s : Session, s.next item = some s) : Held target (emit hem item) :=
  ⟨Lib.watch_append_one h.trace (hnext _), h.active, h.xfer, h.outside, h.pending⟩

theorem Held.allow (h : Held target hem) :
    Held target (allowOneTransaction hem) :=
  ⟨Lib.watch_append_one h.trace rfl, h.active, h.xfer, h.outside, h.pending⟩

variable {env : Env} {service : Messenger} {apdu : Apdu}

/-- A SELECT handed to `service` makes it the target. -/
theorem held_sendSelect (h : Held target hem) (hsel : isSelect apdu = true) :
    Held (some service) (sendDataToServiceLocked env service apdu hem) := by
  obtain ⟨name, hreb⟩ := sendData_spec env service apdu hem
  refine hreb.held ⟨?_, fun m hm => hm, fun _ => nofun, fun h => absurd h (by simp [isHostCardEmulationActivated]),
    h.pending⟩
  dsimp only
  cases target with
  | none =>
    have hfarewell : session (hem.trace ++ farewell hem service) = some ⟨none, false⟩ := by
      unfold farewell
      split
      next active _ =>
        split
        · rw [List.append_nil]
          exact h.trace
        · exact Lib.watch_append_one h.trace rfl
      next =>
        rw [List.append_nil]
        exact h.trace
    refine Lib.watch_append_one hfarewell ?_
    simp [Session.next, Session.serves, Session.settled, hsel]
  | some active =>
    have hactive := h.active active rfl
    unfold farewell
    rw [hactive]
    dsimp only
    split
    next heq =>
      rw [List.append_nil]
      refine Lib.watch_append_one h.trace ?_
      simp [Session.next, Session.serves, heq]
    next hne =>
      have htold : session (hem.trace ++ [.deselected active .deselected]) =
          some ⟨some active, true⟩ := Lib.watch_append_one h.trace (by simp [Session.next])
      refine Lib.watch_append_one htold ?_
      simp [Session.next, Session.serves, Session.settled, hsel]

theorem held_sendToTarget (h : Held (some service) hem) :
    Held (some service) (sendDataToServiceLocked env service apdu hem) := by
  obtain ⟨name, hreb⟩ := sendData_spec env service apdu hem
  refine hreb.held ⟨?_, fun m hm => hm, fun _ => nofun, fun h => absurd h (by simp [isHostCardEmulationActivated]),
    h.pending⟩
  have hsame : farewell hem service = [] := by simp [farewell, h.active service rfl]
  dsimp only
  rw [hsame, List.append_nil]
  exact Lib.watch_append_one h.trace (by simp [Session.next, Session.serves])

theorem held_sendPolling {fs : List PollingFrame} (h : Held target hem)
    (hno : target = none ∨ target = some service) :
    Held target (sendPollingFramesToServiceLocked env service fs hem) := by
  obtain ⟨name, hreb⟩ := sendPolling_spec env service fs hem
  refine hreb.held ⟨?_, ?_, ?_, ?_, h.pending⟩
  · unfold framesSent
    dsimp only
    rw [session, Lib.watch_append h.trace]
    split <;> rfl
  · intro m hm
    rcases hno with hno | hno
    · exact absurd (hno.symm.trans hm) (by simp)
    · exact hno.symm.trans hm
  · intro hxfer
    refine h.xfer ?_
    unfold framesSent at hxfer
    dsimp only at hxfer
    split at hxfer
    · exact absurd hxfer (by decide)
    · exact hxfer
  · intro hout
    refine h.outside ?_
    unfold framesSent isHostCardEmulationActivated at *
    cases hstate : hem.state <;> simp_all

/-! ## Frames -/

theorem polls_held {frames : List PollingFrame} {hem base : Hem} (hdec : Decides hem base)
    (hno : ∀ key m, Candidate env frames base key → Knows base key m →
      target = none ∨ target = some m) :
    Polls env frames hem (fun a => Held target a ∧ KnownBy base a) where
  quiet hq h := by
    rw [hq]
    exact ⟨⟨h.1.trace, h.1.active, h.1.xfer, h.1.outside, h.1.pending⟩, h.2⟩
  wake hidle h := ⟨⟨h.1.trace, h.1.active, nofun,
    fun _ => h.1.outside (by simp [isHostCardEmulationActivated, hidle]), h.1.pending⟩, h.2⟩
  allow _ h := ⟨h.1.allow, h.2⟩
  transact frame _ h := by
    unfold autoTransact
    split
    · exact ⟨⟨h.1.trace, h.1.active, h.1.xfer, h.1.outside, h.1.pending⟩, h.2⟩
    · exact ⟨h.1.allow, h.2⟩
  bind h := ⟨(bind_rebound env _ _).held h.1, h.2.rebound (bind_rebound env _ _)⟩
  send {_ key service _} hcand hknows h :=
    ⟨held_sendPolling h.1 (hno key service (candidate_of hdec hcand) (h.2 key service hknows)),
      knownBy_sendPolling h.2⟩

section
variable (h : Held target hem)
include h

theorem held_waiting (hok : CallbackServes env service hem) :
    Held target (sendWaitingFrames env service service.service.componentName hem) := by
  have hknown : KnownBy (resumed hem) hem := fun _ _ hknows => hknows
  unfold CallbackServes NoOther at hok
  rw [h.targetOf] at hok
  refine (Polls.waiting (P := fun a => Held target a ∧ KnownBy (resumed hem) a)
    (fun fs hwait => ?_) (fun fs hwait => ?_) ⟨h, hknown⟩).1
  · exact polls_held (afterWaiting_decides env service _ fs hem) (hok (by simp [hwait])).2
  · exact ⟨held_sendPolling h (hok (by simp [hwait])).1, knownBy_sendPolling hknown⟩

/-! ## APDUs -/

theorem held_deliverSelect {key : ComponentNameAndUser} (hsel : isSelect apdu = true) :
    ∃ target', Held target' (deliverSelect env key apdu hem) := by
  have hbound : Held target (bindServiceIfNeededLocked env (emit hem (.accepted key apdu)) key).2 :=
    (bind_rebound env _ key).held (h.emit fun _ => rfl)
  unfold deliverSelect
  dsimp only
  split
  next service _ => exact ⟨some service, held_sendSelect hbound hsel⟩
  next =>
    refine ⟨target, hbound.trace, hbound.active, nofun, nofun, fun other hother => ?_⟩
    obtain rfl := Option.some.inj hother
    exact hsel

theorem held_handleSelect {aid : List UInt8} (hsel : isSelect apdu = true) :
    ∃ target', Held target' (handleSelect env aid apdu hem) := by
  unfold handleSelect
  split
  next => exact ⟨target, h.emit fun _ => rfl⟩
  next => exact ⟨target, h.trace, h.active, nofun, nofun, h.pending⟩
  next =>
    split
    · exact held_deliverSelect h hsel
    · exact held_deliverSelect h hsel
    · exact ⟨target, h⟩

theorem held_handleOther : Held target (handleOther env apdu hem) := by
  unfold handleOther
  split
  next => exact h.emit fun _ => rfl
  next hxfer =>
    split
    next service hservice =>
      obtain ⟨m, rfl⟩ := Option.ne_none_iff_exists'.mp (h.xfer hxfer)
      obtain rfl := Option.some.inj ((h.active m rfl).symm.trans hservice)
      exact held_sendToTarget h
    next => exact h
  next => exact h

theorem held_data {bytes : List UInt8} :
    ∃ target', Held target' (onHostEmulationData env bytes hem) := by
  have hstart : Held target (rescheduleInactivityChecks
      { hem with afterTransactionPosted := 0, received := hem.received + 1 }) :=
    ⟨h.trace, h.active, h.xfer, h.outside, h.pending⟩
  unfold onHostEmulationData
  dsimp only
  split
  next => exact ⟨target, hstart⟩
  next =>
    split
    next aid haid => exact held_handleSelect hstart (by simp [isSelect, haid])
    next => exact ⟨target, held_handleOther hstart⟩

/-! ## The other events -/

/-- A message to the active service, when that is the target. -/
theorem session_told (reason : Reason) :
    ∃ s, session (sendDeactivateToActiveServiceLocked reason hem).trace = some s ∧
      s.settled = true := by
  unfold sendDeactivateToActiveServiceLocked
  cases target with
  | none =>
    refine ⟨⟨none, false⟩, ?_, rfl⟩
    split
    · exact h.trace
    · exact Lib.watch_append_one h.trace rfl
  | some m =>
    rw [h.active m rfl]
    refine ⟨⟨some m, true⟩, Lib.watch_append_one h.trace (by simp [Session.next]), ?_⟩
    simp [Session.settled]

theorem held_deactivated : Held none (onHostEmulationDeactivated env hem) := by
  obtain ⟨s, hs, hsettled⟩ := session_told h .linkLoss
  have hselect : (sendDeactivateToActiveServiceLocked .linkLoss hem).selectApdu =
      hem.selectApdu := by
    unfold sendDeactivateToActiveServiceLocked
    split <;> rfl
  have hnext : s.next .deactivated = some ⟨none, false⟩ := if_pos hsettled
  unfold onHostEmulationDeactivated clearAutoDisableObserveModeRunnableLocked
  dsimp only
  split <;> split <;>
    exact ⟨Lib.watch_append_one hs hnext, nofun, nofun, fun _ => rfl, hselect ▸ h.pending⟩

theorem held_offHost (hok : target = none ∨ hem.state = .xfer) :
    Held none (onOffHostAidSelectedOrTransaction env hem) := by
  have hstart : Held target (rescheduleInactivityChecks { hem with afterTransactionPosted := 0 }) :=
    ⟨h.trace, h.active, h.xfer, h.outside, h.pending⟩
  obtain ⟨s, hs, hsettled⟩ := session_told hstart .deselected
  have hselect : ∀ a : Hem, (sendDeactivateToActiveServiceLocked .deselected a).selectApdu =
      a.selectApdu := by
    intro a
    unfold sendDeactivateToActiveServiceLocked
    split <;> rfl
  unfold onOffHostAidSelectedOrTransaction
  dsimp only
  split
  next =>
    exact ⟨Lib.watch_append_one hs (if_pos hsettled), nofun, nofun, nofun,
      (hselect _).symm ▸ h.pending⟩
  next hstate =>
    obtain rfl := hok.resolve_right hstate
    exact ⟨Lib.watch_append_one h.trace rfl, nofun, nofun, nofun, h.pending⟩

theorem held_resetIfNotActivated :
    Held target (resetIfNotActivated hem) := by
  unfold resetIfNotActivated
  split
  next => exact h
  next hout =>
    obtain rfl := h.outside (by simpa using hout)
    exact ⟨h.trace, nofun, h.xfer, h.outside, h.pending⟩

theorem held_clearAutoDisable :
    Held target (clearAutoDisableObserveModeRunnableLocked hem) := by
  unfold clearAutoDisableObserveModeRunnableLocked
  split
  · exact ⟨h.trace, h.active, h.xfer, h.outside, h.pending⟩
  · exact h

theorem held_fieldChange {fieldOn : Bool} : Held target (onFieldChangeDetected fieldOn hem) := by
  unfold onFieldChangeDetected
  dsimp only
  split <;> split <;> exact ⟨h.trace, h.active, h.xfer, h.outside, h.pending⟩

theorem held_defaultToObserveMode {enabled : Bool} :
    Held target (updateForShouldDefaultToObserveMode enabled hem) := by
  unfold updateForShouldDefaultToObserveMode
  split
  · exact ⟨h.trace, h.active, h.xfer, h.outside, h.pending⟩
  · split
    · split
      · exact h
      · exact ⟨Lib.watch_append_one h.trace rfl, h.active, h.xfer, h.outside, h.pending⟩
    · exact h.emit fun _ => rfl

theorem held_afterTransaction :
    Held target (runAfterTransaction hem) := by
  unfold runAfterTransaction
  dsimp only
  split
  · exact ⟨h.trace, h.active, h.xfer, h.outside, h.pending⟩
  · split
    · exact ⟨h.trace, h.active, h.xfer, h.outside, h.pending⟩
    · exact ⟨Lib.watch_append_one h.trace rfl, h.active, h.xfer, h.outside, h.pending⟩

theorem held_runAutoDisable : Held target (runAutoDisable env hem) := by
  have hrun : Held target { hem with autoDisablePosted := false } :=
    ⟨h.trace, h.active, h.xfer, h.outside, h.pending⟩
  unfold runAutoDisable
  dsimp only
  split
  · exact hrun
  · split
    · exact hrun
    · exact hrun.allow

theorem held_connected
    (hok : hem.selectApdu = none → CallbackServes env service (register service hem)) :
    ∃ target', Held target' (serviceConnected env service hem) := by
  have hreg : Held target (register service hem) :=
    ⟨h.trace, h.active, h.xfer, h.outside, h.pending⟩
  unfold serviceConnected
  split
  next => exact ⟨target, h⟩
  next =>
    split
    next => exact ⟨target, h.trace, h.active, h.xfer, h.outside, h.pending⟩
    next =>
      split
      next apdu hsel =>
        have hsent : Held (some service)
            (sendDataToServiceLocked env service apdu (register service hem)) :=
          held_sendSelect hreg (h.pending apdu hsel)
        exact ⟨some service, hsent.trace, hsent.active, hsent.xfer, hsent.outside, nofun⟩
      next hsel => exact ⟨target, held_waiting hreg (hok hsel)⟩

theorem held_response {replyTo : Messenger} {data : List UInt8} :
    Held target (handleResponse replyTo data hem) := by
  unfold handleResponse
  split
  next => exact h
  next hactive =>
    split
    next => exact h
    next =>
      split
      next hxfer =>
        obtain ⟨m, rfl⟩ := Option.ne_none_iff_exists'.mp (h.xfer hxfer)
        have hsame : hem.activeService = some replyTo := by simpa using hactive
        obtain rfl := Option.some.inj ((h.active m rfl).symm.trans hsame)
        exact ⟨Lib.watch_append_one h.trace (by simp [Session.next, Session.serves]),
          h.active, h.xfer, h.outside, h.pending⟩
      next => exact h

end

/-! ## Runs -/

theorem step_held {hem next : Hem} {e : Env × Event} (h : Held target hem)
    (hok : SessionOk hem e) (hstep : step hem e = some next) :
    ∃ target', Held target' next := by
  obtain ⟨env, event⟩ := e
  cases event with
  | activated =>
    obtain rfl := Option.some.inj hstep
    refine ⟨target, ?_⟩
    unfold onHostEmulationActivated
    dsimp only
    split <;> exact ⟨Lib.watch_append_one h.trace rfl, h.active, nofun, nofun, h.pending⟩
  | data bytes =>
    obtain rfl := Option.some.inj hstep
    exact held_data h
  | deactivated =>
    obtain rfl := Option.some.inj hstep
    exact ⟨none, held_deactivated h⟩
  | offHostSelected =>
    obtain rfl := Option.some.inj hstep
    unfold SessionOk at hok
    rw [h.targetOf] at hok
    exact ⟨none, held_offHost h hok⟩
  | fieldChange fieldOn =>
    obtain rfl := Option.some.inj hstep
    exact ⟨target, held_fieldChange h⟩
  | pollingLoop frames =>
    obtain rfl := Option.some.inj hstep
    unfold SessionOk NoOther at hok
    rw [h.targetOf] at hok
    have hpolls := polls_held ⟨rfl, rfl, rfl, fun _ _ hknows => hknows⟩ hok
    exact ⟨target, (hpolls.detected ⟨h, fun _ _ hknows => hknows⟩).1⟩
  | exitInFirmware exitFrame =>
    obtain rfl := Option.some.inj hstep
    exact ⟨target, held_clearAutoDisable ⟨h.trace, h.active, h.xfer, h.outside, h.pending⟩⟩
  | allowOneTransaction =>
    obtain rfl := Option.some.inj hstep
    exact ⟨target, h.allow⟩
  | observeModeStateChange enabled =>
    obtain rfl := Option.some.inj hstep
    cases enabled
    · exact ⟨target, held_clearAutoDisable h⟩
    · exact ⟨target, h⟩
  | defaultToObserveMode enabled =>
    obtain rfl := Option.some.inj hstep
    exact ⟨target, held_defaultToObserveMode h⟩
  | nfcFChange =>
    obtain rfl := Option.some.inj hstep
    exact ⟨target, held_clearAutoDisable h⟩
  | preferredPayment service =>
    obtain rfl := Option.some.inj hstep
    refine ⟨target, ?_⟩
    cases service with
    | some key => exact (bindPayment_rebound env _ key).held (held_resetIfNotActivated h)
    | none => exact (unbindPayment_rebound env _).held (held_resetIfNotActivated h)
  | preferredForeground service =>
    obtain rfl := Option.some.inj hstep
    refine ⟨target, ?_⟩
    cases service with
    | some key => exact (bind_rebound env _ key).held (held_resetIfNotActivated h)
    | none => exact (unbindInactive_rebound env _).held (held_resetIfNotActivated h)
  | paymentConnected service =>
    obtain rfl := Option.some.inj hstep
    refine ⟨target, ?_⟩
    unfold paymentServiceConnected
    split
    · exact h
    · exact held_waiting ⟨h.trace, h.active, h.xfer, h.outside, h.pending⟩ hok
  | paymentDisconnected name =>
    obtain rfl := Option.some.inj hstep
    exact ⟨target, h.trace, h.active, h.xfer, h.outside, h.pending⟩
  | paymentBindingDied =>
    obtain rfl := Option.some.inj hstep
    refine ⟨target, ?_⟩
    unfold paymentBindingDied
    split
    · exact (rebind_rebound env hem).held h
    · exact h
  | connected service =>
    obtain rfl := Option.some.inj hstep
    exact held_connected h hok
  | disconnected key =>
    obtain rfl := Option.some.inj hstep
    exact ⟨target, h.trace, h.active, h.xfer, h.outside, h.pending⟩
  | bindingDied =>
    obtain rfl := Option.some.inj hstep
    exact ⟨target, (unbindInactive_rebound env hem).held h⟩
  | response replyTo data =>
    obtain rfl := Option.some.inj hstep
    exact ⟨target, held_response h⟩
  | returnToIdle =>
    obtain ⟨-, hnext⟩ := Option.ite_none_right_eq_some.mp hstep
    obtain rfl := Option.some.inj hnext
    obtain rfl : target = none := h.targetOf.symm.trans hok
    exact ⟨none, h.trace, nofun, nofun, fun _ => rfl, h.pending⟩
  | afterTransaction =>
    obtain ⟨-, hnext⟩ := Option.ite_none_right_eq_some.mp hstep
    obtain rfl := Option.some.inj hnext
    exact ⟨target, held_afterTransaction h⟩
  | unbindInactive =>
    obtain ⟨-, hnext⟩ := Option.ite_none_right_eq_some.mp hstep
    obtain rfl := Option.some.inj hnext
    refine ⟨target, ?_⟩
    unfold runUnbindInactive
    dsimp only
    split
    · exact ⟨h.trace, h.active, h.xfer, h.outside, h.pending⟩
    · exact ⟨h.trace, h.active, h.xfer, h.outside, h.pending⟩
  | autoDisable =>
    obtain ⟨-, hnext⟩ := Option.ite_none_right_eq_some.mp hstep
    obtain rfl := Option.some.inj hnext
    exact ⟨target, held_runAutoDisable h⟩

theorem sessions_hold {es : List (Env × Event)} {hem : Hem}
    (hok : Lib.StepsOk step SessionOk init es) (hrun : Lib.run step init es = some hem) :
    session hem.trace ≠ none := by
  have hinit : Held none init :=
    ⟨rfl, nofun, fun hxfer => absurd hxfer (by decide), fun _ => rfl, fun _ h => absurd h nofun⟩
  obtain ⟨target, h⟩ := @Lib.run_keeps_of_step _ _ step SessionOk (fun hem => ∃ target, Held target hem)
    (fun _ _ _ h hok hstep => h.elim fun _ h => step_held h hok hstep) es _ _ ⟨none, hinit⟩ hok hrun
  rw [h.trace]
  exact Option.some_ne_none _

/-- Two services of the current user, and SELECT APDUs for AIDs of their own. -/
def serviceA : ApduServiceInfo := ⟨1, 0, true, false, false⟩
def serviceB : ApduServiceInfo := ⟨2, 0, true, false, false⟩

def selectOf (service : ApduServiceInfo) : List UInt8 :=
  [0x00, 0xA4, 0x04, 0x00, 0x05, 0xF0, 0x00, 0x00, 0x00, service.component.toUInt8]

/-- The AIDs are routed to the two services, and `preferred` is in the foreground. -/
def twoServices (preferred : ApduServiceInfo) : Env where
  preferredService := some preferred.key
  preferredOnHost := true
  preferredPaymentService := none
  resolveAid aid :=
    if aid = [0xF0, 0x00, 0x00, 0x00, 0x01] then some ⟨[serviceA], some serviceA⟩
    else if aid = [0xF0, 0x00, 0x00, 0x00, 0x02] then some ⟨[serviceB], some serviceB⟩
    else none
  isSecureNfcEnabled := false
  isDeviceLocked := false
  isScreenOn := true
  binds _ := true
  unbinds := true
  alive _ := true
  matching _ := []
  resolvePollingLoopFilterConflict _ := none
  shouldAutoTransact _ _ := false
  autoDisableObserveMode := false
  isObserveModeEnabled := true
  arePackagesInForeground := false
  adapterOn := true

/-- A polling frame and a transaction with the preferred service. -/
def preferredTap : List (Env × Event) :=
  [(twoServices serviceA, .preferredForeground (some serviceA.key)),
    (twoServices serviceA, .connected ⟨serviceA.key, 0⟩),
    (twoServices serviceA, .pollingLoop [⟨.f, []⟩]),
    (twoServices serviceA, .activated),
    (twoServices serviceA, .data (selectOf serviceA)),
    (twoServices serviceA, .data [0x00, 0xB0]),
    (twoServices serviceA, .response ⟨serviceA.key, 0⟩ [0x90, 0x00]),
    (twoServices serviceA, .deactivated)]

theorem sessions_hold_tap :
    ∃ hem, Lib.run step init preferredTap = some hem ∧
      .response ⟨serviceA.key, 0⟩ [0x90, 0x00] ∈ hem.trace ∧ session hem.trace ≠ none := by
  refine ⟨_, rfl, by decide, @sessions_hold preferredTap _ ?_ rfl⟩
  refine ⟨trivial, fun _ h => ?_⟩
  obtain rfl := Option.some.inj h
  refine ⟨fun _ hwait => absurd (by decide) hwait, fun _ h => ?_⟩
  obtain rfl := Option.some.inj h
  refine ⟨fun _ _ _ _ => .inl (by decide), fun _ h => ?_⟩
  obtain rfl := Option.some.inj h
  refine ⟨trivial, fun _ h => ?_⟩
  obtain rfl := Option.some.inj h
  refine ⟨trivial, fun _ h => ?_⟩
  obtain rfl := Option.some.inj h
  refine ⟨trivial, fun _ h => ?_⟩
  obtain rfl := Option.some.inj h
  refine ⟨trivial, fun _ h => ?_⟩
  obtain rfl := Option.some.inj h
  exact ⟨trivial, fun _ _ => trivial⟩

/-- A transaction with service A while B is in the foreground: a polling frame
for B makes B the active service, and the next APDU goes to B. -/
def redirected : List (Env × Event) :=
  [(twoServices serviceB, .preferredForeground (some serviceB.key)),
    (twoServices serviceB, .connected ⟨serviceB.key, 0⟩),
    (twoServices serviceB, .activated),
    (twoServices serviceB, .data (selectOf serviceA)),
    (twoServices serviceB, .connected ⟨serviceA.key, 0⟩),
    (twoServices serviceB, .pollingLoop [⟨.f, []⟩]),
    (twoServices serviceB, .data [0x00, 0xB0])]

theorem frames_redirect :
    ¬ ∀ (es : List (Env × Event)) (hem : Hem), Lib.run step init es = some hem →
      session hem.trace ≠ none := by
  intro hall
  exact hall redirected _ rfl (by decide)

end NfcStack.CardEmulation.Hce
