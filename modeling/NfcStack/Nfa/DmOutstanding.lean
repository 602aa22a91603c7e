import NfcStack.Nfa.DmCommands

/- Runs of RF discovery and the commands that have not been answered.

   What is proved:
     1. `booked_step`: an event, with the requests and the timers.
     2. `commands_booked`: over any sequence of events a command that has not been answered is
        waited for, and there is at most one, if no event makes a command be sent without the
        flag or in spite of it.
     3. `stop_unbooked`: a stop that crosses a deactivation to discovery. -/
namespace NfcStack.Nfa.Discovery
open NfcStack.Lib

/-! ## Requests -/

section Requests
variable {cb : Cb} {env : Env}

/-- A request for a deactivation. -/
theorem booked_rfDeactivate (h : Booked cb) (hok : cb.state.Active → ¬ Forces cb) (type : DeactType) :
    Booked (rfDeactivate env cb type).2 :=
  (safe_reaction (reaction_rfDeactivate trivial cb type) ⟨h, fun _ => hok⟩).1

theorem booked_start (h : Booked cb)
    (hok : cb.state = .idle → cb.enabled = false → env.recovery = false → env.tech = true → cb.unanswered = []) :
    Booked (actStartRfDiscovery env cb) := by
  unfold actStartRfDiscovery
  split
  · exact h
  case isFalse hoff =>
    rw [not_or, Bool.not_eq_true, Bool.not_eq_true] at hoff
    split
    · exact h
    case isFalse hs =>
      have hcb : Booked { cb with enabled := true, notify := true } := h
      exact booked_startRfDiscover hcb fun hr => hok (not_not.mp hs) hoff.1 hoff.2 hr.2

theorem booked_stop (h : Booked cb) (hok : cb.state.Active → ¬ Forces cb) : Booked (actStopRfDiscovery env cb) := by
  unfold actStopRfDiscovery
  split
  · dsimp only
    split <;> exact h
  case isFalse hs =>
    rw [not_or] at hs
    have hcb : Booked { cb with enabled := false, stopping := true } := h
    have hafter := @booked_rfDeactivate { cb with enabled := false, stopping := true } env hcb hok .idle
    have hdone : (rfDeactivate env { cb with enabled := false, stopping := true } .idle).1 = true :=
      rfDeactivateWith_idle _ hs.2
    dsimp only
    rw [if_pos hdone]
    exact hafter

theorem booked_requestExcl (h : Booked cb)
    (hok : cb.state = .idle → cb.exclCback = false → env.tech = true → cb.unanswered = []) :
    Booked (actRequestExclRfCtrl env cb) := by
  unfold actRequestExclRfCtrl
  split
  · exact h
  case isFalse hs =>
    rw [not_or, Bool.not_eq_true, not_not] at hs
    have hcb : Booked { cb with exclCback := true, exclActive := true, exclInUse := true } := h
    have hidle : smExecute env { cb with exclCback := true, exclActive := true, exclInUse := true } .discoverCmd =
        startRfDiscover env { cb with exclCback := true, exclActive := true, exclInUse := true } := by
      unfold smExecute
      dsimp only
      rw [hs.2]
      rfl
    rw [hidle]
    exact booked_startRfDiscover hcb fun hr => hok hs.2 hs.1 hr.2

theorem booked_releaseExcl (h : Booked cb) (hok : cb.state.Active → ¬ Forces cb) : Booked (actReleaseExclRfCtrl env cb) := by
  have hcb : Booked { cb with stopping := true } := h
  have hset : ∀ c : Cb, Booked c → Booked { c with kovioTle := false } := fun _ hc => hc
  unfold actReleaseExclRfCtrl
  refine hset _ ?_
  split
  · exact hcb
  · exact @booked_rfDeactivate { cb with stopping := true } env hcb hok .idle

theorem booked_deactivate (h : Booked cb) (hok : cb.state.Active → ¬ Forces cb) (sleepMode : Bool) :
    Booked (actDeactivate env cb sleepMode) := by
  unfold actDeactivate
  split
  · exact h
  · dsimp only
    split <;> exact booked_rfDeactivate h hok _

theorem booked_disable (h : Booked cb) (hok : cb.state.Active → ¬ Forces cb) : Booked (disable cb) := by
  have hset : ∀ (c : Cb) (p : Prop) [Decidable p], Booked c → Booked (if p then { c with disabling := false } else c) := by
    intro c p _ hc
    split <;> exact hc
  unfold disable
  split
  · dsimp only
    split
    · exact h
    · have hsafe : Safe True { cb with enabled := false, disabling := true } := ⟨h, fun _ => hok⟩
      exact hset _ _ (safe_deactivateCmd trivial hsafe .idle).1
  · exact h

theorem booked_sleepWakeup (h : Booked cb) : Booked (sleepWakeup cb).2 := by
  have hset : ∀ (c : Cb) (p : Prop) [Decidable p], Booked c →
      Booked (if p then { c with checking := true, deactPending := false } else c) := by
    intro c p _ hc
    split <;> exact hc
  unfold sleepWakeup
  split
  · refine hset _ _ ?_
    -- a deactivation to sleep is not forced
    unfold sendDeactivateCmd
    split
    case isTrue hw => exact booked_send { cb with w4Rsp := true, w4Ntf := true } _ (h.unanswered_eq_nil hw.1) rfl
    case isFalse => exact h
  · exact h

theorem safe_sleepWakeup (h : Safe True cb) : Safe True (sleepWakeup cb).2 := by
  unfold sleepWakeup
  split
  case isTrue hs =>
    have hsent : Safe True (sendDeactivateCmd cb .sleep).2 := safe_sendDeactivateCmd h.1 (h.2 trivial (.inl hs)) .sleep
    dsimp only
    split <;> exact hsent
  case isFalse => exact h

theorem safe_startKovio (h : Safe True cb) : Safe True (startKovioPresenceCheck env cb).2 := by
  unfold startKovioPresenceCheck
  split
  · split
    case isTrue hs =>
      obtain ⟨type, htype⟩ : ∃ type, type = if env.kovioIdle then DeactType.idle else .discovery := ⟨_, rfl⟩
      have hsent : Safe True (sendDeactivateCmd cb type).2 := safe_sendDeactivateCmd h.1 (h.2 trivial (.inl hs)) type
      dsimp only
      rw [← htype]
      split <;> exact hsent
    case isFalse => exact h
  · exact h

theorem booked_presenceCheck (h : Booked cb) (hok : cb.state.Active → ¬ Forces cb) (protocol : Protocol) :
    Booked (presenceCheck env cb protocol) := by
  have hask : ∀ (c : Cb) (p : Prop) [Decidable p], Safe True c → Booked (if p then (rfDeactivate env c .discovery).2 else c) := by
    intro c p _ hc
    split
    · exact booked_rfDeactivate hc.1 (hc.2 trivial) .discovery
    · exact hc.1
  have hset : Safe True (if protocol = .mifare ∧ cb.presCheck = .none then { cb with presCheck := .start } else cb) := by
    split <;> exact ⟨h, fun _ => hok⟩
  unfold presenceCheck
  split
  · exact h
  split
  · exact @booked_rfDeactivate { cb with checking := true } env h hok .idle
  · dsimp only
    refine hask _ _ ?_
    by_cases hkovio : protocol = .kovio
    · rw [if_pos hkovio]
      exact safe_startKovio hset
    · rw [if_neg hkovio]
      exact safe_sleepWakeup hset

end Requests

/-! ## Runs -/

/-- An event after which a command that has not been answered is still waited for. A command is not sent when there is
one already: a discovery is not started again, a deactivation is not forced, and no unexpected notification is followed
by a command. Nor is one sent without the flag: an activation is accepted where the flag is not set to refuse it, and a
discovery that is being stopped is not left for another state by a deactivation. -/
def BookOk (cb : Cb) : Env × Event → Prop
  | (env, .start) =>
    cb.state = .idle → cb.enabled = false → env.recovery = false → env.tech = true → cb.unanswered = []
  | (env, .requestExcl) => cb.state = .idle → cb.exclCback = false → env.tech = true → cb.unanswered = []
  | (_, .stop) | (_, .releaseExcl) | (_, .deactivate _) | (_, .rfDeactivate _) | (_, .disable) | (_, .presenceCheck _)
  | (_, .removalDetectionNtf) | (_, .coreIntfErrorNtf) => cb.state.Active → ¬ Forces cb
  | (env, .activatedNtf _) => ActivationOk env cb
  | (env, .deactivateNtf type _) => DeactivationOk env cb type
  | (_, .deactNtfTimeout) => cb.w4Ntf = true → cb.unanswered = []
  | (env, .kovioTimeout) | (env, .mifareIdleTimeout) =>
    env.rwCback = true ∨ cb.deactPending = true → cb.state.Active → ¬ Forces cb
  | _ => True

theorem booked_step {cb t : Cb} {e : Env × Event} (h : Booked cb) (hok : BookOk cb e) (ht : step cb e = some t) :
    Booked t := by
  obtain ⟨env, ev⟩ := e
  -- the oldest command is answered, and it was the only one
  have hanswer : ∀ {c rest}, cb.unanswered = c :: rest → rest = [] := by
    intro c rest hcmd
    have hone := h.1
    rw [hcmd] at hone
    exact List.length_eq_zero_iff.mp (Nat.le_zero.mp (Nat.le_of_succ_le_succ hone))
  cases ev with
  | start =>
    obtain rfl := Option.some.inj ht
    exact booked_start h hok
  | stop =>
    obtain rfl := Option.some.inj ht
    exact booked_stop h hok
  | requestExcl =>
    obtain rfl := Option.some.inj ht
    exact booked_requestExcl h hok
  | releaseExcl =>
    obtain rfl := Option.some.inj ht
    exact booked_releaseExcl h hok
  | deactivate sleepMode =>
    obtain rfl := Option.some.inj ht
    exact booked_deactivate h hok sleepMode
  | rfDeactivate type =>
    obtain rfl := Option.some.inj ht
    exact booked_rfDeactivate h hok type
  | select =>
    obtain rfl := Option.some.inj ht
    split
    case isTrue hs =>
      unfold smExecute
      dsimp only
      rw [hs]
      unfold smW4HostSelect
      dsimp only
      split <;> exact h
    case isFalse => exact h
  | disable =>
    obtain rfl := Option.some.inj ht
    exact booked_disable h hok
  | sleepWakeup =>
    obtain rfl := Option.some.inj ht
    exact booked_sleepWakeup h
  | presenceCheck protocol =>
    obtain rfl := Option.some.inj ht
    exact booked_presenceCheck h hok protocol
  | mifareAuth on =>
    obtain rfl := Option.some.inj ht
    exact h
  | discoverRsp ok =>
    obtain ⟨rest, hcmd, rfl⟩ := step_discoverRsp ht
    exact @booked_discoverRsp { cb with unanswered := rest } env (hanswer hcmd) ok
  | deactivateRsp ok =>
    obtain ⟨_, rest, hcmd, rfl⟩ := step_deactivateRsp ht
    exact @booked_deactivateRsp { cb with unanswered := rest } env (hanswer hcmd) ok
  | selectRsp ok =>
    obtain rfl := Option.some.inj ht
    exact booked_selectRsp h ok
  | discoverNtf more =>
    obtain rfl := Option.some.inj ht
    exact booked_discoverNtf h more
  | activatedNtf a =>
    obtain rfl := Option.some.inj ht
    exact booked_activatedNtf h hok a
  | deactivateNtf type reqFailed =>
    obtain rfl := Option.some.inj ht
    exact booked_deactivateNtf h hok reqFailed
  | removalDetectionNtf =>
    obtain rfl := Option.some.inj ht
    exact booked_removalDetectionNtf h hok
  | coreIntfErrorNtf =>
    obtain rfl := Option.some.inj ht
    exact booked_coreIntfErrorNtf h hok
  | deactNtfTimeout =>
    obtain ⟨-, ht⟩ := Option.ite_none_right_eq_some.mp ht
    obtain rfl := Option.some.inj ht
    exact @booked_forceToIdle { cb with tle := false } h hok
  | kovioTimeout =>
    obtain ⟨-, ht⟩ := Option.ite_none_right_eq_some.mp ht
    obtain rfl := Option.some.inj ht
    have hsafe : Safe (env.rwCback = true ∨ cb.deactPending = true) { cb with kovioTle := false } := ⟨h, hok⟩
    exact (safe_reaction (reaction_kovioTimeout _ .inl .inr) hsafe).1
  | mifareIdleTimeout =>
    obtain ⟨-, ht⟩ := Option.ite_none_right_eq_some.mp ht
    obtain rfl := Option.some.inj ht
    have hsafe : Safe (env.rwCback = true ∨ cb.deactPending = true)
      { cb with mifarePcTle := false, presCheck := .none } := ⟨h, hok⟩
    exact (safe_reaction (reaction_endSleepWakeup _ false (fun ha => .inl ha.1) .inr nofun) hsafe).1

theorem commands_booked (es : List (Env × Event)) (cb : Cb) (hok : StepsOk step BookOk init es)
    (hrun : run step init es = some cb) : Booked cb :=
  run_keeps_of_step (fun _ _ _ => booked_step) es (booked_nil rfl) hok hrun

def leaveAndStop : List (Env × Event) :=
  [(quiet, .start), (quiet, .discoverRsp true), (quiet, .activatedNtf ⟨.other, false, false⟩), (quiet, .deactivate false),
    (quiet, .deactivateRsp true), (quiet, .deactivateNtf .discovery false), (quiet, .stop), (quiet, .deactivateRsp true)]

theorem commands_booked_leave : ∃ cb, run step init leaveAndStop = some cb ∧
    cb.reported = [.discoveryStarted true, .discoveryStopped] ∧
    Booked cb := by
  refine ⟨_, rfl, by decide, @commands_booked leaveAndStop _ ?_ rfl⟩
  refine ⟨fun _ _ _ _ => rfl, fun _ h => ?_⟩
  obtain rfl := Option.some.inj h
  refine ⟨trivial, fun _ h => ?_⟩
  obtain rfl := Option.some.inj h
  refine ⟨trivial, fun _ h => ?_⟩
  obtain rfl := Option.some.inj h
  refine ⟨fun _ hf => hf.2.2 rfl, fun _ h => ?_⟩
  obtain rfl := Option.some.inj h
  refine ⟨trivial, fun _ h => ?_⟩
  obtain rfl := Option.some.inj h
  refine ⟨fun _ hstop => absurd hstop nofun, fun _ h => ?_⟩
  obtain rfl := Option.some.inj h
  refine ⟨fun _ hf => hf.2.2 rfl, fun _ h => ?_⟩
  obtain rfl := Option.some.inj h
  exact ⟨trivial, fun _ _ => trivial⟩

/-- The discovery is stopped while a tag is being left for it: a deactivation to idle is sent when the tag has been
left, and it is not waited for. -/
theorem stop_unbooked : ¬ ∀ (es : List (Env × Event)) (cb : Cb), run step init es = some cb → Booked cb := by
  intro hclaim
  obtain ⟨cb, hrun, hcmd, hrsp⟩ : ∃ cb, run step init
      [(quiet, .start), (quiet, .discoverRsp true), (quiet, .activatedNtf ⟨.other, false, false⟩),
        (quiet, .deactivate false), (quiet, .stop), (quiet, .deactivateRsp true),
        (quiet, .deactivateNtf .discovery false)] = some cb ∧
      cb.unanswered = [.deactivate .idle] ∧ cb.w4Rsp = false := ⟨_, rfl, by decide, by decide⟩
  have hw := (hclaim _ cb hrun).2 (by rw [hcmd]; exact nofun)
  rw [hrsp] at hw
  cases hw

end NfcStack.Nfa.Discovery
