import NfcStack.Nfa.DmReaction

/- The commands of RF discovery: an RF_DISCOVER or RF_DEACTIVATE command that has not been
   answered is waited for, with the flag W4_RSP, and there is at most one.

   What is proved:
     1. `safe_deactivateCmd`: a deactivation sends no second command, unless it is forced.
     2. `booked_activatedNtf`, `booked_deactivateNtf`: an activation and the notification of a
        deactivation, in each state.
     3. `booked_deactivateRsp`, `booked_discoverRsp`: the responses. -/
namespace NfcStack.Nfa.Discovery

/-! ## Deactivations -/

def Booked (cb : Cb) : Prop := cb.unanswered.length ≤ 1 ∧ (cb.unanswered ≠ [] → cb.w4Rsp = true)

/-- The states in which a deactivation is sent with a timer, and is forced if the timer does not run. -/
def RfState.Active (s : RfState) : Prop :=
  s = .pollActive ∨ s = .pollRemovalDetection ∨ s = .listenActive ∨ s = .listenSleep
  deriving Decidable

def Forces (cb : Cb) : Prop := cb.w4Ntf = true ∧ cb.tle = false ∧ cb.unanswered ≠ []

def Safe (asks : Prop) (cb : Cb) : Prop := Booked cb ∧ (asks → cb.state.Active → ¬ Forces cb)

section Sends
variable {cb : Cb} {asks : Prop} {env : Env}

theorem booked_nil (h : cb.unanswered = []) : Booked cb := by
  refine ⟨?_, fun hne => absurd h hne⟩
  rw [h]
  exact Nat.zero_le 1

theorem booked_send (cb : Cb) (c : Cmd) (h : cb.unanswered = []) (hrsp : cb.w4Rsp = true) : Booked (send cb c) := by
  refine ⟨?_, fun _ => hrsp⟩
  show (cb.unanswered ++ [c]).length ≤ 1
  rw [h]
  exact Nat.le_refl 1

theorem Booked.unanswered_eq_nil (h : Booked cb) (hrsp : cb.w4Rsp = false) : cb.unanswered = [] := by
  by_contra hne
  rw [h.2 hne] at hrsp
  cases hrsp

theorem booked_newState (h : Booked cb) (state : RfState) : Booked (newState cb state) := by
  unfold Booked
  rw [newState_unanswered, newState_w4Rsp]
  exact h

theorem booked_notifyStarted (h : Booked cb) (ok : Bool) : Booked (notifyStarted cb ok) := by
  unfold Booked
  rw [notifyStarted_unanswered, notifyStarted_w4Rsp]
  exact h

theorem booked_frame {b c : Cb} (hf : Frame b c) (h : Booked b) : Booked c := by
  obtain ⟨_, _, _, _, _, _, _, rfl⟩ := hf
  exact h

theorem safe_frame {b c : Cb} (hf : Frame b c) (h : Safe asks b) : Safe asks c := by
  obtain ⟨_, _, _, _, _, _, _, rfl⟩ := hf
  exact h

theorem safe_nil (h : cb.unanswered = []) : Safe asks cb := ⟨booked_nil h, fun _ _ hf => hf.2.2 h⟩

theorem booked_forceToIdle (h : Booked cb) (hf : cb.w4Ntf = true → cb.unanswered = []) : Booked (forceToIdle cb).2 := by
  unfold forceToIdle
  split
  case isTrue hntf =>
    refine booked_send _ _ ?_ (newState_w4Rsp _ _)
    rw [newState_unanswered]
    exact hf hntf
  case isFalse => exact h

theorem safe_sendDeactivateCmd (h : Booked cb) (hf : ¬ Forces cb) (type : DeactType) :
    Safe asks (sendDeactivateCmd cb type).2 := by
  unfold sendDeactivateCmd
  split
  case isTrue hw =>
    exact ⟨booked_send { cb with w4Rsp := true, w4Ntf := true } _ (h.unanswered_eq_nil hw.1) rfl,
      fun _ _ hforces => absurd hforces.2.1 nofun⟩
  split
  · exact ⟨h, fun _ _ => hf⟩
  split
  · exact ⟨h, fun _ _ => hf⟩
  case isFalse htle =>
    have hnil : cb.w4Ntf = true → cb.unanswered = [] := by
      intro hntf
      by_contra hne
      exact hf ⟨hntf, Bool.eq_false_of_not_eq_true htle, hne⟩
    refine ⟨booked_forceToIdle h hnil, fun _ _ => ?_⟩
    unfold forceToIdle
    split
    · rintro ⟨hntf, -⟩
      rw [show (send (newState _ .idle) _).w4Ntf = (newState _ .idle).w4Ntf from rfl, newState_w4Ntf] at hntf
      cases hntf
    · exact hf

theorem booked_sendUnlessW4Rsp (h : Booked cb) (type : DeactType) : Booked (sendUnlessW4Rsp cb type) := by
  unfold sendUnlessW4Rsp
  split
  · exact h
  case isFalse hw =>
    have hnil : cb.unanswered = [] := h.unanswered_eq_nil (Bool.eq_false_of_not_eq_true hw)
    exact booked_send _ _ hnil rfl

theorem safe_of_inactive (h : Booked cb) (hs : ¬ cb.state.Active) : Safe asks cb := ⟨h, fun _ hact => absurd hact hs⟩

theorem safe_hostSelectDeactivate (h : Booked cb) (hs : cb.state = .w4HostSelect) (type : DeactType) :
    Safe asks (hostSelectDeactivate cb type) := by
  have hsend : ∀ cb' : Cb, Booked cb' → cb'.state = cb.state → Safe asks (sendUnlessW4Rsp cb' .idle) := by
    intro cb' h' hs'
    refine safe_of_inactive (booked_sendUnlessW4Rsp h' .idle) ?_
    rw [sendUnlessW4Rsp_state, hs', hs]
    decide
  unfold hostSelectDeactivate
  split
  · exact hsend _ h rfl
  split
  · refine safe_of_inactive h ?_
    show ¬ cb.state.Active
    rw [hs]
    decide
  · exact hsend _ h rfl

theorem safe_deactivateCmd (ha : asks) (h : Safe asks cb) (type : DeactType) : Safe asks (deactivateCmd cb type) := by
  unfold deactivateCmd
  split
  case h_1 => exact h
  case h_2 hs =>
    have hinactive : ¬ cb.state.Active := by
      rw [hs]
      decide
    split
    · exact h
    case isFalse hw =>
      have hnil : cb.unanswered = [] := h.1.unanswered_eq_nil (Bool.eq_false_of_not_eq_true hw)
      exact safe_of_inactive (booked_send _ _ hnil rfl) hinactive
  case h_3 hs =>
    refine safe_of_inactive (booked_sendUnlessW4Rsp h.1 .idle) ?_
    rw [sendUnlessW4Rsp_state, hs]
    decide
  case h_4 hs => exact safe_hostSelectDeactivate h.1 hs type
  case h_5 hs =>
    have hfree : ¬ Forces cb := h.2 ha (.inl hs)
    split
    · refine safe_sendDeactivateCmd ?_ ?_ type
      · split <;> exact h.1
      · split <;> exact hfree
    split
    · exact h
    · exact safe_sendDeactivateCmd h.1 hfree type
  case h_6 hs => exact safe_sendDeactivateCmd h.1 (h.2 ha (.inr (.inl hs))) type
  case h_7 hs => exact safe_sendDeactivateCmd h.1 (h.2 ha (.inr (.inr (.inl hs)))) type
  case h_8 hs =>
    have hsent : Safe asks (sendDeactivateCmd cb .idle).2 :=
      safe_sendDeactivateCmd h.1 (h.2 ha (.inr (.inr (.inr hs)))) .idle
    exact ⟨hsent.1, fun _ _ hforces => absurd hforces.1 nofun⟩

/-- In poll mode: a deactivation that has been sent is timed, so that another one is not forced. -/
def Timed (cb : Cb) : Prop :=
  Booked cb ∧ cb.state = .pollActive ∧ ((cb.w4Rsp = false ∧ cb.w4Ntf = false) ∨ cb.tle = true)

theorem Timed.free (h : Timed cb) : ¬ Forces cb := by
  rintro ⟨hntf, htle, -⟩
  rcases h.2.2 with h | h
  · rw [h.2] at hntf
    cases hntf
  · rw [h] at htle
    cases htle

theorem timed_frame {b c : Cb} (hf : Frame b c) (h : Timed b) : Timed c := by
  obtain ⟨_, _, _, _, _, _, _, rfl⟩ := hf
  exact h

theorem timed_sendDeactivateCmd (h : Timed cb) (type : DeactType) : Timed (sendDeactivateCmd cb type).2 := by
  have hbooked : Booked (sendDeactivateCmd cb type).2 := (@safe_sendDeactivateCmd cb True h.1 h.free type).1
  unfold sendDeactivateCmd at hbooked ⊢
  split
  case isTrue hw =>
    rw [if_pos hw] at hbooked
    exact ⟨hbooked, h.2.1, .inr rfl⟩
  split
  · exact h
  split
  · exact h
  case isFalse hw _ htle => exact absurd (h.2.2.resolve_right htle) hw

theorem timed_deactivateCmd (h : Timed cb) (type : DeactType) : Timed (deactivateCmd cb type) := by
  unfold deactivateCmd
  rw [h.2.1]
  dsimp only
  split
  · refine timed_sendDeactivateCmd ?_ type
    split <;> exact h
  split
  · exact h
  · exact timed_sendDeactivateCmd h type

theorem reaction_stopping {b : Cb} (hr : Reaction asks cb b) : b.stopping = cb.stopping :=
  congrArg Prod.fst hr.stopFields_eq

theorem safe_reaction {b : Cb} (hr : Reaction asks cb b) (h : Safe asks cb) : Safe asks b :=
  hr.keeps safe_frame (fun ha _ type hb => safe_deactivateCmd ha hb type) h

end Sends

/-! ## Events -/

def Restarts (env : Env) (cb : Cb) : Prop := (cb.enabled = true ∨ cb.exclInUse = true) ∧ env.tech = true

section States
variable {cb : Cb} {env : Env}

theorem booked_startRfDiscover (h : Booked cb) (hr : Restarts env cb → cb.unanswered = []) :
    Booked (startRfDiscover env cb) := by
  unfold startRfDiscover
  split
  · exact h
  case isFalse hon =>
    have hsent : Booked (if env.tech then { send cb .discover with w4Rsp := true } else notifyStarted cb true) := by
      split
      case isTrue htech =>
        have hnil : cb.unanswered = [] := by
          refine hr ⟨?_, htech⟩
          by_contra hoff
          rw [not_or, Bool.not_eq_true, Bool.not_eq_true] at hoff
          exact hon hoff
        exact booked_send { cb with w4Rsp := true } .discover hnil rfl
      case isFalse => exact booked_notifyStarted h true
    have hset : ∀ c : Cb, Booked c →
        Booked (if c.protocol ≠ .kovio ∨ c.kovioTle = false then { c with protocol := .invalid } else c) := by
      intro c hc
      split <;> exact hc
    exact hset _ hsent

/-- The controller is idle, and no command is waited for. -/
theorem booked_restart (h : cb.unanswered = []) : Booked (startRfDiscover env (newState (notifyDeactivation cb) .idle)) := by
  have hnil : (newState (notifyDeactivation cb) .idle).unanswered = [] := by
    rw [newState_unanswered, notifyDeactivation_unanswered]
    exact h
  exact booked_startRfDiscover (booked_nil hnil) fun _ => hnil

/-- An activation: nothing is sent after a command that has not been answered, and nothing without the flag. -/
def ActivationOk (env : Env) (cb : Cb) : Prop :=
  match cb.state with
  | .idle => cb.unanswered = []
  | .w4AllDiscoveries => Accepts env cb ∧ (Asks env cb → ¬ Forces cb)
  | .w4HostSelect =>
    (Accepts env cb ∨ cb.checking = true ∨ cb.presCheck = .idle) ∧ (Asks env cb → cb.unanswered ≠ [] → cb.tle = true)
  | .listenSleep => Accepts env cb ∧ (Asks env cb → cb.unanswered ≠ [] → cb.tle = true)
  | _ => True

/-- The notification of a deactivation: nothing is sent after a command that has not been answered, and nothing
without the flag. -/
def DeactivationOk (env : Env) (cb : Cb) (type : DeactType) : Prop :=
  match cb.state with
  | .idle => cb.w4Ntf = false → type = .discovery ∨ Restarts env cb → cb.unanswered = []
  | .pollActive =>
    cb.w4Rsp = false → cb.stopping = true → type ≠ .discovery ∧ (type = .idle ∨ cb.checking = true)
  | .pollRemovalDetection | .listenActive => cb.w4Rsp = false → cb.stopping = true → type ≠ .discovery
  | .listenSleep => cb.unanswered = []
  | _ => True

theorem booked_idleDiscoverRsp (h : cb.unanswered = []) (ok : Bool) : Booked (idleDiscoverRsp env cb ok) := by
  have hnil : ∀ state, (newState { cb with w4Rsp := false, pollingStartCnt := 0 } state).unanswered = [] := by
    intro state
    rw [newState_unanswered]
    exact h
  unfold idleDiscoverRsp
  dsimp only
  split
  · have htell : ∀ c : Cb, Booked c → Booked (if c.disabling then c else notifyStarted c ok) := by
      intro c hc
      split
      · exact hc
      · exact booked_notifyStarted hc ok
    refine htell _ ?_
    split
    · exact booked_send _ _ (hnil _) rfl
    · exact booked_nil (hnil _)
  split
  · exact booked_nil h
  split
  · exact booked_send _ _ h rfl
  · exact booked_nil h

theorem booked_discoverRsp (h : cb.unanswered = []) (ok : Bool) : Booked (smExecute env cb (.discoverRsp ok)) := by
  unfold smExecute
  split
  · exact booked_idleDiscoverRsp h ok
  all_goals exact booked_nil h

theorem booked_activeDeactivateRsp (h : cb.unanswered = []) : Booked (activeDeactivateRsp env cb) := by
  unfold activeDeactivateRsp
  dsimp only
  split
  · exact booked_nil h
  · exact booked_restart h

theorem booked_deactivateRsp (h : cb.unanswered = []) (ok : Bool) : Booked (smExecute env cb (.deactivateRsp ok)) := by
  unfold smExecute
  split
  case h_1 =>
    unfold smIdle
    dsimp only
    split
    · split
      · exact booked_nil h
      · exact @booked_restart { cb with w4Rsp := false } env h
    · exact booked_nil h
  case h_2 =>
    unfold smDiscovery
    dsimp only
    split
    · exact booked_nil h
    · have hnil : (newState { cb with w4Rsp := false } .idle).unanswered = [] := by
        rw [newState_unanswered]
        exact h
      exact booked_startRfDiscover (booked_nil hnil) fun _ => hnil
  case h_3 => exact booked_restart h
  case h_4 => exact booked_restart h
  all_goals exact booked_activeDeactivateRsp h

theorem booked_discoverNtf (h : Booked cb) (more : Bool) : Booked (smExecute env cb (.discoverNtf more)) := by
  unfold smExecute
  split
  case h_2 =>
    refine booked_newState ?_ _
    split <;> exact h
  case h_3 =>
    unfold smW4AllDiscoveries
    dsimp only
    split
    · exact h
    · exact booked_newState h _
  all_goals exact h

theorem booked_selectRsp (h : Booked cb) (ok : Bool) : Booked (smExecute env cb (.selectRsp ok)) := by
  unfold smExecute
  split
  case h_4 hs =>
    unfold smW4HostSelect
    dsimp only
    split
    · split
      · exact h
      · have hsafe : Safe True cb := safe_of_inactive h (by rw [hs]; decide)
        exact (safe_reaction (reaction_endSleepWakeup cb false (fun _ => trivial) (fun _ => trivial)
          fun _ _ => trivial) hsafe).1
    · exact h
  all_goals exact h

theorem notifyActivation_accepted (h : Accepts env cb) (a : Activation) : (notifyActivation env cb a).1 = true := by
  by_contra hne
  exact (notifyActivation_failed (Bool.eq_false_of_not_eq_true hne)).1 h

theorem booked_discoveryActivated (h : Booked cb) (a : Activation) : Booked (discoveryActivated env cb a) := by
  unfold discoveryActivated
  split
  · exact h
  case isFalse hw =>
    have hnil : cb.unanswered = [] := h.unanswered_eq_nil (Bool.eq_false_of_not_eq_true hw)
    split
    · refine booked_newState ?_ _
      exact (safe_reaction (reaction_endIdleCheck cb a id) (safe_nil hnil)).1
    · obtain ⟨c, hc⟩ : ∃ c, c = newState cb (if a.eeDirect ∨ a.listen then .listenActive else .pollActive) := ⟨_, rfl⟩
      have hcnil : c.unanswered = [] := by
        rw [hc, newState_unanswered]
        exact hnil
      have hreact := safe_reaction (@reaction_notifyActivation _ env c a id) (safe_nil hcnil)
      dsimp only
      rw [← hc]
      split
      · exact hreact.1
      case isFalse hfail =>
        obtain ⟨-, hframe⟩ := notifyActivation_failed (Bool.eq_false_of_not_eq_true hfail)
        obtain ⟨_, _, _, _, _, _, _, hframe⟩ := hframe
        rw [hframe]
        exact booked_send _ _ hcnil rfl

/-- What an activation finds that may have crossed a deactivation. -/
theorem newStateCrossed_spec {state : RfState} (h : Booked cb) (hs : state ≠ .idle)
    (hasks : Asks env cb → cb.unanswered ≠ [] → cb.tle = true) :
    Safe (Asks env cb) (newStateCrossed cb state) ∧ (Asks env (newStateCrossed cb state) → Asks env cb) ∧
      (Accepts env cb → Accepts env (newStateCrossed cb state)) ∧ (newStateCrossed cb state).presCheck = cb.presCheck := by
  have hfree : Asks env cb → cb.tle = false → cb.unanswered ≠ [] → False := by
    intro ha htle hne
    rw [hasks ha hne] at htle
    cases htle
  unfold newStateCrossed
  dsimp only
  rw [newState_of_ne hs]
  split
  · exact ⟨⟨h, fun ha _ hf => hfree ha hf.2.1 hf.2.2⟩, id, id, rfl⟩
  · exact ⟨⟨h, fun ha _ hf => hfree ha hf.2.1 hf.2.2⟩, id, id, rfl⟩

theorem booked_hostSelectActivated (h : Booked cb) (hacc : Accepts env cb ∨ cb.checking = true ∨ cb.presCheck = .idle)
    (hasks : Asks env cb → cb.unanswered ≠ [] → cb.tle = true) (a : Activation) :
    Booked (hostSelectActivated env cb a) := by
  obtain ⟨hsafe, hask, haccepts, hpres⟩ := @newStateCrossed_spec cb env .pollActive h (by decide) hasks
  unfold hostSelectActivated
  dsimp only
  split
  · exact (safe_reaction (reaction_endIdleCheck _ a hask) hsafe).1
  case isFalse hidle =>
    have hreact := reaction_notifyActivation (newStateCrossed cb .pollActive) a hask
    split
    · refine (safe_reaction (hreact.trans (reaction_endSleepWakeup _ true nofun ?_ nofun)) hsafe).1
      exact hreact.pending fun hp => hask (.inr (.inr hp))
    case isFalse hold =>
      have hok : (notifyActivation env (newStateCrossed cb .pollActive) a).1 = true := by
        refine notifyActivation_accepted (haccepts ?_) a
        rcases hacc with h | h | h
        · exact h
        · exact absurd h hold
        · exact absurd (hpres.trans h) hidle
      rw [if_pos hok]
      exact (safe_reaction hreact hsafe).1

theorem booked_activatedNtf (h : Booked cb) (hok : ActivationOk env cb) (a : Activation) :
    Booked (smExecute env cb (.activatedNtf a)) := by
  unfold ActivationOk at hok
  unfold smExecute
  split
  case h_1 hs =>
    rw [hs] at hok
    exact booked_send _ _ hok rfl
  case h_2 => exact booked_discoveryActivated h a
  case h_3 hs =>
    rw [hs] at hok
    obtain ⟨hacc, hasks⟩ := hok
    have hnew : newState cb .pollActive = { cb with state := .pollActive, ntfDue := false } := newState_of_ne (by decide)
    have hsafe : Safe (Asks env cb) (newState cb .pollActive) := by
      rw [hnew]
      exact ⟨h, fun ha _ => hasks ha⟩
    have haccepts : Accepts env (newState cb .pollActive) := by
      rw [hnew]
      exact hacc
    have hask : Asks env (newState cb .pollActive) → Asks env cb := by
      rw [hnew]
      exact id
    unfold smW4AllDiscoveries
    dsimp only
    rw [if_pos (notifyActivation_accepted haccepts a)]
    exact (safe_reaction (reaction_notifyActivation _ a hask) hsafe).1
  case h_4 hs =>
    rw [hs] at hok
    exact booked_hostSelectActivated h hok.1 hok.2 a
  case h_8 hs =>
    rw [hs] at hok
    obtain ⟨hsafe, hask, haccepts, -⟩ := @newStateCrossed_spec cb env .listenActive h (by decide) hok.2
    unfold smListenSleep
    dsimp only
    rw [if_pos (notifyActivation_accepted (haccepts hok.1) a)]
    exact (safe_reaction (reaction_notifyActivation _ a hask) hsafe).1
  all_goals exact h

variable {type : DeactType}

theorem booked_pollSleepNtf {reqFailed old : Bool} (h : Timed cb) (hnil : cb.unanswered = [])
    (hstop : cb.stopping = true → old = true) : Booked (pollSleepNtf env cb type reqFailed old) := by
  obtain ⟨c, hc⟩ : ∃ c, c = if reqFailed then cb else newState cb .w4HostSelect := ⟨_, rfl⟩
  obtain ⟨d, hd⟩ : ∃ d, d = if old ∧ c.deactPending then endSleepWakeup env c true else c := ⟨_, rfl⟩
  have hcstop : c.stopping = cb.stopping := by
    rw [hc, newState_of_ne (by decide)]
    split <;> rfl
  have hcnil : c.unanswered = [] := by
    rw [hc]
    split
    · exact hnil
    · rw [newState_unanswered]
      exact hnil
  have hcd : Reaction True c d := by
    rw [hd]
    split
    · exact reaction_checked _ true
    · exact .refl
  have hlast : ∀ e : Cb, Booked e → e.stopping = cb.stopping →
      Booked (if e.stopping ∧ old = false then send e (.deactivate .idle) else e) := by
    intro e he hstop'
    rw [if_neg]
    · exact he
    · rintro ⟨hs, hold⟩
      rw [hstop (hstop' ▸ hs)] at hold
      cases hold
  unfold pollSleepNtf
  dsimp only
  rw [← hc, ← hd]
  have hdstop : d.stopping = cb.stopping := (reaction_stopping hcd).trans hcstop
  cases reqFailed with
  | false => exact hlast d (safe_reaction hcd (safe_nil hcnil)).1 hdstop
  | true =>
    have htimed : Timed d := by
      refine hcd.keeps timed_frame (fun _ _ type hb => timed_deactivateCmd hb type) ?_
      rw [hc]
      exact h
    rw [if_pos rfl]
    unfold retryDeactivate
    refine hlast _ ?_ ?_
    · split
      · split
        · exact (timed_sendDeactivateCmd htimed _).1
        · exact htimed.1
      · exact (@timed_sendDeactivateCmd { d with deactivateCmdRetry := d.deactivateCmdRetry + 1 } htimed _).1
    · split
      · split
        · exact (congrArg Prod.fst (stopFields_sendDeactivateCmd _ _)).trans hdstop
        · exact hdstop
      · exact (congrArg Prod.fst (stopFields_sendDeactivateCmd _ _)).trans hdstop

theorem booked_pollDiscoveryNtf {reqFailed old : Bool} (hnil : cb.unanswered = []) (hstop : cb.stopping = false) :
    Booked (pollDiscoveryNtf env cb reqFailed old) := by
  obtain ⟨c, hc⟩ : ∃ c : Cb, c = { newState cb .discovery with deactivateCmdRetry := 0 } := ⟨_, rfl⟩
  obtain ⟨d, hd⟩ : ∃ d, d = if reqFailed then notifyDeactivation (if old then endSleepWakeup env c false else c) else c :=
    ⟨_, rfl⟩
  rw [newState_of_ne (by decide)] at hc
  have hcd : Reaction True c d := by
    rw [hd]
    split
    · refine Reaction.notifyDeactivation ?_
      split
      · exact reaction_checked _ false
      · exact .refl
    · exact .refl
  have hcstop : c.stopping = false := by
    rw [hc]
    exact hstop
  have hdstop : ¬ d.stopping = true := by
    rw [reaction_stopping hcd, hcstop]
    exact nofun
  unfold pollDiscoveryNtf
  rw [newState_of_ne (by decide)]
  dsimp only
  rw [← hc, ← hd, if_neg hdstop]
  have hsafe : Safe True c := safe_nil (by rw [hc]; exact hnil)
  split
  · exact (safe_reaction (hcd.trans (reaction_checked _ false)) hsafe).1
  · exact (safe_reaction hcd hsafe).1

theorem booked_pollDeactivateNtf {reqFailed : Bool} (h : Booked cb) (hs : cb.state = .pollActive)
    (hok : cb.w4Rsp = false → cb.stopping = true → type ≠ .discovery ∧ (type = .idle ∨ cb.checking = true)) :
    Booked (pollDeactivateNtf env cb type reqFailed) := by
  unfold pollDeactivateNtf
  dsimp only
  split
  · exact h
  case isFalse hw =>
    have hw : cb.w4Rsp = false := Bool.eq_false_of_not_eq_true hw
    have hnil : cb.unanswered = [] := h.unanswered_eq_nil hw
    obtain ⟨c, hc⟩ : ∃ c, c = if reqFailed then { cb with w4Ntf := false, tle := false }
      else notifyDeactivation { cb with w4Ntf := false, tle := false, deactivateCmdRetry := 0 } := ⟨_, rfl⟩
    have hspec : c.unanswered = [] ∧ c.w4Rsp = false ∧ c.w4Ntf = false ∧ c.state = .pollActive ∧ c.stopping = cb.stopping := by
      rw [hc]
      split
      · exact ⟨hnil, hw, rfl, hs, rfl⟩
      · unfold notifyDeactivation
        split <;> exact ⟨hnil, hw, rfl, hs, rfl⟩
    obtain ⟨hcnil, hcw, hcntf, hcs, hcstop⟩ := hspec
    have htimed : Timed c := ⟨booked_nil hcnil, hcs, .inl ⟨hcw, hcntf⟩⟩
    rw [← hc]
    have hsleep : type ≠ .idle → c.stopping = true → cb.checking = true := fun hne hstop =>
      (hok hw (hcstop ▸ hstop)).2.resolve_left hne
    cases type with
    | sleep => exact booked_pollSleepNtf htimed hcnil (hsleep nofun)
    | sleepAf => exact booked_pollSleepNtf htimed hcnil (hsleep nofun)
    | idle =>
      have hnew : (newState c .idle).unanswered = [] := by
        rw [newState_unanswered]
        exact hcnil
      have hstart : Booked (startRfDiscover env (newState c .idle)) :=
        booked_startRfDiscover (booked_nil hnew) fun _ => hnew
      dsimp only
      split
      · refine (safe_reaction (reaction_checked _ false) (safe_of_inactive hstart ?_)).1
        rw [startRfDiscover_state, newState_state]
        decide
      · exact hstart
    | discovery =>
      refine booked_pollDiscoveryNtf hcnil (Bool.eq_false_of_not_eq_true fun hstop => ?_)
      exact (hok hw (hcstop ▸ hstop)).1 rfl

theorem booked_listenDeactivateNtf (h : Booked cb)
    (hok : cb.w4Rsp = false → cb.stopping = true → type ≠ .discovery) : Booked (listenDeactivateNtf env cb type) := by
  unfold listenDeactivateNtf
  dsimp only
  have hcb : Booked { cb with w4Ntf := false, tle := false } := h
  have hnotify : ∀ c : Cb, Booked c → Booked (notifyDeactivation c) := fun c => booked_frame (frame_notifyDeactivation c)
  split
  · cases type with
    | sleep => exact booked_newState hcb _
    | sleepAf => exact booked_newState hcb _
    | discovery =>
      have hnew := booked_newState (hnotify _ hcb) .discovery
      dsimp only
      split
      · exact booked_newState hnew _
      · exact hnew
    | idle => exact h
  case isFalse hw =>
    have hw : cb.w4Rsp = false := Bool.eq_false_of_not_eq_true hw
    have hnil : cb.unanswered = [] := h.unanswered_eq_nil hw
    cases type with
    | sleep => exact booked_newState (hnotify _ hcb) _
    | sleepAf => exact booked_newState (hnotify _ hcb) _
    | idle => exact @booked_restart { cb with w4Ntf := false, tle := false } env hnil
    | discovery =>
      have hstop : ¬ (newState (notifyDeactivation { cb with w4Ntf := false, tle := false }) .discovery).stopping = true := by
        rw [newState_of_ne (by decide)]
        show ¬ (notifyDeactivation _).stopping = true
        rw [notifyDeactivation_stopping]
        exact fun hs => hok hw hs rfl
      dsimp only
      rw [if_neg hstop]
      exact booked_newState (hnotify _ hcb) _

theorem booked_idleDeactivateNtf {reqFailed : Bool} (h : Booked cb)
    (hok : cb.w4Ntf = false → type = .discovery ∨ Restarts env cb → cb.unanswered = []) :
    Booked (smIdle env cb (.deactivateNtf type reqFailed)) := by
  have hclear : ∀ c : Cb, Booked c → Booked { c with w4Ntf := false } := fun _ hc => hc
  unfold smIdle
  dsimp only
  refine hclear _ ?_
  split
  · exact h
  case isFalse hntf =>
    have hok := hok (Bool.eq_false_of_not_eq_true hntf)
    split
    case isTrue htype => exact booked_send _ _ (hok (.inl htype)) rfl
    case isFalse =>
      by_cases hnil : cb.unanswered = []
      · exact @booked_restart { cb with ntfDue := false } env hnil
      · have hcb : Booked { cb with ntfDue := false } := h
        refine booked_startRfDiscover (booked_newState (booked_frame (frame_notifyDeactivation _) hcb) _) fun hr => ?_
        have hrsp : (notifyDeactivation { cb with ntfDue := false }).w4Rsp = true := by
          rw [notifyDeactivation_w4Rsp]
          exact h.2 hnil
        rw [newState_of_w4Rsp hrsp] at hr
        refine absurd (hok (.inr ?_)) hnil
        unfold notifyDeactivation at hr
        split at hr <;> exact hr

theorem booked_removalDeactivateNtf {reqFailed : Bool} (h : Booked cb)
    (hok : cb.w4Rsp = false → cb.stopping = true → type ≠ .discovery) :
    Booked (smPollRemovalDetection env cb (.deactivateNtf type reqFailed)) := by
  unfold smPollRemovalDetection
  dsimp only
  split
  · exact h
  case isFalse hw =>
    have hw : cb.w4Rsp = false := Bool.eq_false_of_not_eq_true hw
    have hnil : cb.unanswered = [] := h.unanswered_eq_nil hw
    obtain ⟨c, hc⟩ : ∃ c, c = if reqFailed then { cb with w4Ntf := false, tle := false }
      else notifyDeactivation { cb with w4Ntf := false, tle := false } := ⟨_, rfl⟩
    have hspec : c.unanswered = [] ∧ c.stopping = cb.stopping := by
      rw [hc]
      split
      · exact ⟨hnil, rfl⟩
      · rw [notifyDeactivation_unanswered, notifyDeactivation_stopping]
        exact ⟨hnil, rfl⟩
    rw [← hc]
    cases type with
    | sleep => exact booked_nil hspec.1
    | sleepAf => exact booked_nil hspec.1
    | idle =>
      have hnew : (newState c .idle).unanswered = [] := by
        rw [newState_unanswered]
        exact hspec.1
      exact booked_startRfDiscover (booked_nil hnew) fun _ => hnew
    | discovery =>
      have hstop : ¬ cb.stopping = true := fun hs => hok hw hs rfl
      dsimp only
      rw [newState_of_ne (by decide)]
      split
      · rw [notifyDeactivation_stopping, if_neg (hspec.2.symm ▸ hstop)]
        exact booked_frame (frame_notifyDeactivation _) (booked_nil hspec.1)
      · rw [if_neg (hspec.2.symm ▸ hstop)]
        exact booked_nil hspec.1

theorem booked_deactivateNtf (h : Booked cb) (hok : DeactivationOk env cb type) (reqFailed : Bool) :
    Booked (smExecute env cb (.deactivateNtf type reqFailed)) := by
  unfold DeactivationOk at hok
  unfold smExecute
  split
  case h_1 hs =>
    rw [hs] at hok
    exact booked_idleDeactivateNtf h hok
  case h_2 =>
    unfold smDiscovery
    dsimp only
    split
    · split
      · exact h
      case isFalse hw =>
        have hnew : (newState { cb with w4Ntf := false } .idle).unanswered = [] := by
          rw [newState_unanswered]
          exact h.unanswered_eq_nil (Bool.eq_false_of_not_eq_true hw)
        exact booked_startRfDiscover (booked_nil hnew) fun _ => hnew
    · exact h
  case h_5 hs =>
    rw [hs] at hok
    exact booked_pollDeactivateNtf h hs hok
  case h_6 hs =>
    rw [hs] at hok
    exact booked_removalDeactivateNtf h hok
  case h_7 hs =>
    rw [hs] at hok
    exact booked_listenDeactivateNtf h hok
  case h_8 hs =>
    rw [hs] at hok
    unfold smListenSleep
    dsimp only
    split
    · refine booked_newState (booked_nil ?_) _
      rw [notifyDeactivation_unanswered]
      exact hok
    · exact @booked_restart { cb with w4Rsp := false, w4Ntf := false, tle := false } env hok
  all_goals exact h

theorem booked_coreIntfErrorNtf (h : Booked cb) (hok : cb.state.Active → ¬ Forces cb) :
    Booked (smExecute env cb .coreIntfErrorNtf) := by
  unfold smExecute
  split
  case h_4 hs =>
    unfold smW4HostSelect
    dsimp only
    split
    · exact (safe_reaction (reaction_checked _ false) (safe_of_inactive h (by rw [hs]; decide))).1
    · exact h
  case h_5 hs =>
    have hfree : ¬ Forces cb := hok (.inl hs)
    have hsent : Safe True (if cb.checking = false ∨ cb.deactPending = false then (sendDeactivateCmd cb .discovery).2 else cb) := by
      split
      · exact safe_sendDeactivateCmd h hfree .discovery
      · exact ⟨h, fun _ _ => hfree⟩
    unfold smPollActive
    dsimp only
    cases hold : cb.checking
    · rw [hold] at hsent
      exact hsent.1
    · rw [hold] at hsent
      exact (safe_reaction (reaction_checked _ false) hsent).1
  all_goals exact h

theorem booked_removalDetectionNtf (h : Booked cb) (hok : cb.state.Active → ¬ Forces cb) :
    Booked (smExecute env cb .removalDetectionNtf) := by
  unfold smExecute
  split
  case h_5 => exact booked_newState h .pollRemovalDetection
  case h_6 hs => exact (@safe_sendDeactivateCmd cb True h (hok (.inr (.inl hs))) .idle).1
  all_goals exact h

end States

end NfcStack.Nfa.Discovery
