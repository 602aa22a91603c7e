import NfcStack.Lib.Run
import NfcStack.Nfc.ControlBlock
import NfcStack.Nfc.CmdQueue

/- Requests of the HAL for the command window. Two parties ask for the window with
   the one flag NFC_FL_CONTROL_REQUESTED: the HAL (NFC_FL_HAL_REQUESTED) and
   `NFC_DiscoveryStart` (NFC_FL_DISCOVER_PENDING). `nfc_ncif_check_cmd_queue`
   clears the shared flag and serves the discovery first.

   What is proved:
     1. `check_halInv`: one call of `nfc_ncif_check_cmd_queue` leaves no request
        behind in an open window, if it does not find both.
     2. `hal_request_kept`: over every run in which the window never opens on both
        requests, a recorded request keeps the shared flag, is gone when the window
        is open, and goes only by a grant or by a cleanup.
     3. `hal_request_dropped`: with both pending, the discovery takes the flag and
        the request of the HAL stays recorded and is never served. -/
namespace NfcStack.Nfc
open NfcStack.Lib

/-- A recorded request keeps the shared flag, and that flag is set only while the
window is closed. -/
structure HalInv (s : CmdState) : Prop where
  kept : s.flags.halRequested = true → s.flags.controlRequested = true
  closed : s.flags.controlRequested = true → s.nciCmdWindow = 0
  window : s.nciCmdWindow ≤ nciMaxCmdWindow

def CmdState.bothPending (s : CmdState) : Prop :=
  s.flags.discoverPending = true ∧ s.flags.halRequested = true

instance (s : CmdState) : Decidable s.bothPending := inferInstanceAs (Decidable (_ ∧ _))

/-- The event does not open the window, or find it open, with nothing queued and
both parties waiting for it. -/
def OneRequest (s : CmdState) : CmdEvent → Prop
  | .message b => s.takes b = true → s.nciCmdXmitQ = [] → ¬ s.bothPending
  | .requestControl =>
    s.nciCmdWindow = nciMaxCmdWindow → s.nciCmdXmitQ = [] → s.flags.discoverPending = false
  | .releaseControl => s.flags.controlGranted = true → s.nciCmdXmitQ = [] → ¬ s.bothPending
  | _ => True

instance (s : CmdState) (e : CmdEvent) : Decidable (OneRequest s e) := by
  unfold OneRequest
  split <;> infer_instance

/-- How a recorded request may end: it is still recorded, or control was granted. -/
def Served (s t : CmdState) : Prop :=
  s.flags.halRequested = true → t.flags.halRequested = true ∨ t.flags.controlGranted = true

/-! ## One call -/

section Check
variable {prediscover : Nat → Bool} {s t : CmdState}

theorem transmitNext_window (h : s.nciCmdWindow ≤ nciMaxCmdWindow) :
    s.transmitNext.nciCmdWindow = if s.nciCmdXmitQ = [] then s.nciCmdWindow else 0 := by
  simp only [nciMaxCmdWindow] at h
  unfold CmdState.transmitNext
  split
  · next h0 => simp [h0]
  · split
    · next hq => simp [hq]
    · next p rest hq =>
      rw [hq, if_neg (List.cons_ne_nil p rest)]
      show s.nciCmdWindow - 1 = 0
      omega

theorem transmit_some_window (h : s.nciCmdWindow ≤ nciMaxCmdWindow) (p : Cmd) :
    (s.transmit (some p)).nciCmdWindow = 0 := by
  unfold CmdState.transmit
  dsimp only
  split
  · rw [transmitNext_window (s := { s with nciCmdXmitQ := s.nciCmdXmitQ ++ [p] }) h, if_neg]
    exact List.append_ne_nil_of_right_ne_nil _ (List.cons_ne_nil p [])
  · simp only [nciMaxCmdWindow] at h
    show s.nciCmdWindow - 1 = 0
    omega

theorem transmit_window_le (h : s.nciCmdWindow ≤ nciMaxCmdWindow) (pBuf : Option Cmd) :
    (s.transmit pBuf).nciCmdWindow ≤ s.nciCmdWindow := by
  cases pBuf with
  | some p =>
    rw [transmit_some_window h]
    exact Nat.zero_le _
  | none =>
    show s.transmitNext.nciCmdWindow ≤ _
    rw [transmitNext_window h]
    split
    · exact le_rfl
    · exact Nat.zero_le _

theorem handOver_halInv {sendCmd : CmdState → Cmd → Option CmdState}
    (hsend : ∀ u p v, u.flags.controlRequested = false → u.nciCmdWindow ≤ nciMaxCmdWindow →
      sendCmd u p = some v → v.flags = u.flags ∧ v.nciCmdWindow ≤ nciMaxCmdWindow)
    (hr : s.flags.controlRequested = false) (hwin : s.nciCmdWindow ≤ nciMaxCmdWindow)
    (hone : ¬ s.bothPending) (h : handOver prediscover sendCmd s = some t) :
    HalInv t ∧ Served s t := by
  unfold handOver at h
  split at h
  · next hd =>
    -- the discovery is served, and no request of the HAL is recorded
    have hhal : s.flags.halRequested = false := by
      rw [← Bool.not_eq_true]
      exact fun hh => hone ⟨hd, hh⟩
    have hserved : ∀ t, Served s t := fun t hh => by rw [hhal] at hh; cases hh
    split at h
    · obtain rfl := Option.some.inj h
      refine ⟨⟨?_, fun _ => rfl, Nat.zero_le _⟩, hserved _⟩
      intro hh
      rw [show s.askHal.giveWindow.flags.halRequested = s.flags.halRequested from rfl, hhal] at hh
      cases hh
    · obtain ⟨params, -, h⟩ := Option.bind_eq_some_iff.mp h
      obtain ⟨v, hv, rfl⟩ := Option.map_eq_some_iff.mp h
      obtain ⟨hflags, hw⟩ := hsend s.askHal.clearDiscover _ _ hr hwin hv
      refine ⟨⟨?_, ?_, hw⟩, hserved _⟩
      · intro hh
        rw [show v.flags.halRequested = s.flags.halRequested by rw [hflags]; rfl, hhal] at hh
        cases hh
      · intro hcr
        rw [show v.flags.controlRequested = s.flags.controlRequested by rw [hflags]; rfl, hr] at hcr
        cases hcr
  · split at h
    · obtain rfl := Option.some.inj h
      refine ⟨⟨?_, fun _ => rfl, Nat.zero_le _⟩, fun _ => .inr rfl⟩
      intro hh
      cases hh
    · next hhal =>
      obtain rfl := Option.some.inj h
      refine ⟨⟨fun hh => absurd hh hhal, ?_, hwin⟩, fun hh => absurd hh hhal⟩
      intro hcr
      rw [hr] at hcr
      cases hcr

theorem check_halInv {pBuf : Option Cmd} (hwin : s.nciCmdWindow ≤ nciMaxCmdWindow)
    (hkept : s.flags.halRequested = true → s.flags.controlRequested = true)
    (hone : (s.transmit pBuf).nciCmdWindow = nciMaxCmdWindow → ¬ s.bothPending)
    (h : nfcNcifCheckCmdQueue prediscover checkDepth s pBuf = some t) :
    HalInv t ∧ Served s t := by
  have hflags := (transmit_frame s pBuf).1
  have hle := (transmit_window_le hwin pBuf).trans hwin
  rw [checkDepth, nfcNcifCheckCmdQueue] at h
  split at h
  · next hreq =>
    have hboth : ¬ (s.transmit pBuf).clearRequest.bothPending := by
      have hno := hone hreq.1
      unfold CmdState.bothPending CmdState.clearRequest at *
      rw [hflags]
      exact hno
    obtain ⟨hinv, hserved⟩ := handOver_halInv (s := (s.transmit pBuf).clearRequest) (by
      intro u p v hr hu hv
      have hrec : (u.record p).flags.controlRequested = false := hr
      rw [check_no_request 0 hrec] at hv
      obtain rfl := Option.some.inj hv
      exact ⟨(transmit_frame (u.record p) (some p)).1,
        (transmit_window_le (s := u.record p) hu (some p)).trans hu⟩) rfl hle hboth h
    refine ⟨hinv, fun hh => hserved ?_⟩
    show (s.transmit pBuf).flags.halRequested = true
    rw [hflags]
    exact hh
  · next hreq =>
    obtain rfl := Option.some.inj h
    refine ⟨⟨?_, ?_, hle⟩, ?_⟩
    · rw [hflags]
      exact hkept
    · intro hcr
      -- asked for and not served: the window is not open
      have hne : (s.transmit pBuf).nciCmdWindow ≠ nciMaxCmdWindow := fun hw => hreq ⟨hw, hcr⟩
      simp only [nciMaxCmdWindow] at hne hle
      omega
    · intro hh
      rw [hflags]
      exact .inl hh

end Check

/-! ## Runs -/

section Runs
variable {prediscover : Nat → Bool} {s t : CmdState}

theorem send_halInv {p : Cmd} (hwin : s.nciCmdWindow ≤ nciMaxCmdWindow)
    (hkept : s.flags.halRequested = true → s.flags.controlRequested = true)
    (h : nfcNcifSendCmd prediscover s p = some t) : HalInv t ∧ Served s t := by
  refine check_halInv (s := s.record p) hwin hkept ?_ h
  rw [transmit_some_window (s := s.record p) hwin]
  intro h0
  cases h0

theorem look_halInv (hwin : s.nciCmdWindow ≤ nciMaxCmdWindow)
    (hkept : s.flags.halRequested = true → s.flags.controlRequested = true)
    (hone : s.nciCmdWindow = nciMaxCmdWindow → s.nciCmdXmitQ = [] → ¬ s.bothPending)
    (h : nfcNcifCheckCmdQueue prediscover checkDepth s none = some t) :
    HalInv t ∧ Served s t := by
  refine check_halInv hwin hkept ?_ h
  show s.transmitNext.nciCmdWindow = _ → _
  rw [transmitNext_window hwin]
  split
  · next hq => exact fun hw => hone hw hq
  · intro h0
    cases h0

theorem updateWindow_halInv (hi : HalInv s) (hone : s.nciCmdXmitQ = [] → ¬ s.bothPending)
    (h : nfcNcifUpdateWindow prediscover s = some t) : HalInv t ∧ Served s t := by
  unfold nfcNcifUpdateWindow at h
  split at h
  · obtain rfl := Option.some.inj h
    exact ⟨hi, .inl⟩
  · next hw =>
    have hwin := hi.window
    refine look_halInv (s := { s with
      nciWaitRspTimer := false, pVscCback := none, nciCmdWindow := s.nciCmdWindow + 1,
      outstanding := s.outstanding.dropLast }) ?_ hi.kept (fun _ hq => hone hq) h
    show s.nciCmdWindow + 1 ≤ nciMaxCmdWindow
    omega

theorem message_halInv (hi : HalInv s) {b : Bytes} (hok : OneRequest s (.message b))
    (h : nfcNcifProcessEvent prediscover s b = some t) : HalInv t ∧ Served s t := by
  have hsame : some s = some t → HalInv t ∧ Served s t := by
    intro h
    obtain rfl := Option.some.inj h
    exact ⟨hi, .inl⟩
  unfold nfcNcifProcessEvent at h
  split at h
  · exact hsame h
  · next hst =>
    split at h
    · exact hsame h
    · next hc =>
      rw [not_not] at hc
      split at h
      · next hraw =>
        obtain ⟨u, hu, rfl⟩ := Option.map_eq_some_iff.mp h
        obtain ⟨hi', hserved⟩ := @updateWindow_halInv prediscover
          { s with pVscCback := none, rawVsCbflag := false } u ⟨hi.kept, hi.closed, hi.window⟩
          (hok (by simp [CmdState.takes, hst, hc, hraw])) hu
        exact ⟨⟨hi'.kept, hi'.closed, hi'.window⟩, hserved⟩
      · split at h
        · next hrsp =>
          exact updateWindow_halInv hi (hok (by simp [CmdState.takes, hst, hc, hrsp])) h
        · exact hsame h

theorem hal_step {e : CmdEvent} (hi : HalInv s) (hok : OneRequest s e)
    (h : s.step prediscover e = some t) : HalInv t ∧ (Served s t ∨ e = .cleanup) := by
  have hsame : some s = some t → HalInv t ∧ (Served s t ∨ e = .cleanup) := by
    intro h
    obtain rfl := Option.some.inj h
    exact ⟨hi, .inl .inl⟩
  have hsend : ∀ p, nfcNcifSendCmd prediscover s p = some t →
      HalInv t ∧ (Served s t ∨ e = .cleanup) := by
    intro p h
    exact (send_halInv hi.window hi.kept h).imp_right .inl
  cases e with
  | sendCmd bytes => exact hsend _ h
  | sendVsCommand oid payload pCback =>
    simp only [CmdState.step] at h
    split at h
    · exact hsend _ h
    · exact hsame h
  | sendRawVsCommand bytes pCback =>
    simp only [CmdState.step] at h
    split at h
    · exact hsend _ h
    · exact hsame h
  | message b => exact (message_halInv hi hok h).imp_right .inl
  | cmdTimeout =>
    obtain rfl := Option.some.inj h
    exact ⟨⟨hi.kept, hi.closed, hi.window⟩, .inl .inl⟩
  | preDiscoverCplt =>
    simp only [CmdState.step, halPreDiscoverCplt] at h
    split at h
    · obtain ⟨params, -, h⟩ := Option.bind_eq_some_iff.mp h
      obtain ⟨v, hv, rfl⟩ := Option.map_eq_some_iff.mp h
      obtain ⟨hv', hserved⟩ := send_halInv (s := s.restoreWindow.clearDiscover) le_rfl hi.kept hv
      exact ⟨⟨hv'.kept, hv'.closed, hv'.window⟩, .inl hserved⟩
    · next hd =>
      -- the discovery was given up meanwhile
      obtain ⟨ht, hserved⟩ := look_halInv (s := s.restoreWindow) le_rfl hi.kept
        (fun _ _ hboth => hd hboth.1) h
      exact ⟨ht, .inl hserved⟩
  | requestControl =>
    obtain ⟨ht, hserved⟩ := look_halInv
      (s := { s with flags := { s.flags with controlRequested := true, halRequested := true } })
      hi.window (fun _ => rfl) (by
        intro hw hq hboth
        have hd : s.flags.discoverPending = true := hboth.1
        rw [hok hw hq] at hd
        cases hd) h
    exact ⟨ht, .inl fun _ => hserved rfl⟩
  | releaseControl =>
    simp only [CmdState.step, halReleaseControl] at h
    split at h
    · next hg =>
      obtain ⟨ht, hserved⟩ := look_halInv (s := s.restoreWindow) le_rfl hi.kept
        (fun _ hq => hok hg hq) h
      exact ⟨ht, .inl hserved⟩
    · exact hsame h
  | discoveryStart params =>
    simp only [CmdState.step, nfcDiscoveryStart] at h
    split at h
    · exact hsame h
    · obtain ⟨ht, hserved⟩ := look_halInv
        (s := { s with
          flags := { s.flags with discoverPending := true, controlRequested := true }
          pDiscPending := some params }) hi.window (fun _ => rfl) (by
        intro hw _ hboth
        -- a recorded request means that the window is closed
        have h0 := hi.closed (hi.kept hboth.2)
        rw [show s.nciCmdWindow = nciMaxCmdWindow from hw] at h0
        cases h0) h
      exact ⟨ht, .inl hserved⟩
  | deactivate deactType =>
    simp only [CmdState.step, nfcDeactivate] at h
    split at h
    · obtain rfl := Option.some.inj h
      refine ⟨⟨?_, ?_, hi.window⟩, .inl .inl⟩
      · intro hh
        have hh' : s.flags.halRequested = true := hh
        show (s.flags.controlRequested && s.flags.halRequested) = true
        rw [hi.kept hh', hh']
        rfl
      · intro hcr
        exact hi.closed (Bool.and_eq_true _ _ ▸ hcr).1
    · obtain ⟨ht, hserved⟩ := send_halInv
        (s := { s with nfcState := if s.nfcState = .open then .closing else s.nfcState })
        hi.window hi.kept h
      exact ⟨ht, .inl hserved⟩
  | cleanup =>
    obtain rfl := Option.some.inj h
    refine ⟨⟨?_, ?_, le_rfl⟩, .inr rfl⟩
    · intro hh
      cases hh
    · intro hcr
      cases hcr
  | setState nfcState =>
    obtain rfl := Option.some.inj h
    exact ⟨⟨hi.kept, hi.closed, hi.window⟩, .inl .inl⟩

end Runs

theorem halInv_run {prediscover : Nat → Bool} {nfcState : NfcState} {es : List CmdEvent}
    {s : CmdState}
    (hok : StepsOk (CmdState.step prediscover) OneRequest { nfcState := nfcState } es)
    (hrun : run (CmdState.step prediscover) { nfcState := nfcState } es = some s) : HalInv s := by
  have hinit : HalInv { nfcState := nfcState } := by
    refine ⟨?_, ?_, le_rfl⟩
    · intro hh
      cases hh
    · intro hcr
      cases hcr
  exact @run_keeps_of_step _ _ (CmdState.step prediscover) OneRequest HalInv
    (fun _ _ _ h hone hs => (hal_step h hone hs).1) es _ _ hinit hok hrun

theorem hal_request_kept (prediscover : Nat → Bool) (nfcState : NfcState) (es : List CmdEvent)
    (s : CmdState)
    (hok : StepsOk (CmdState.step prediscover) OneRequest { nfcState := nfcState } es)
    (hrun : run (CmdState.step prediscover) { nfcState := nfcState } es = some s) :
    (s.flags.halRequested = true →
      s.flags.controlRequested = true ∨ s.flags.controlGranted = true) ∧
    (s.nciCmdWindow = nciMaxCmdWindow → s.flags.halRequested = false) ∧
    ∀ e t, OneRequest s e → s.step prediscover e = some t → s.flags.halRequested = true →
      t.flags.halRequested = true ∨ t.flags.controlGranted = true ∨ e = .cleanup := by
  have hi := halInv_run hok hrun
  refine ⟨fun hh => .inl (hi.kept hh), ?_, ?_⟩
  · intro hw
    rw [← Bool.not_eq_true]
    intro hh
    have h0 := hi.closed (hi.kept hh)
    rw [hw] at h0
    cases h0
  · intro e t hone hs hh
    rcases (hal_step hi hone hs).2 with hserved | rfl
    · exact (hserved hh).imp_right .inl
    · exact .inr (.inr rfl)

/-- The HAL asks while a command is unanswered and is given the window with the
response. -/
theorem hal_request_kept_served :
    ∃ s t, run (CmdState.step fun _ => false) {} [coreCmd 0, .requestControl] = some s ∧
      s.flags.controlRequested = true ∧
      s.step (fun _ => false) (coreRsp 0) = some t ∧ t.flags.controlGranted = true := by
  refine ⟨_, _, rfl, ?_, rfl, ?_⟩
  · have h := (hal_request_kept (fun _ => false) .idle [coreCmd 0, .requestControl] _
      (by decide +kernel) rfl).1 rfl
    rcases h with h | h
    · exact h
    · cases h
  · rcases (hal_request_kept (fun _ => false) .idle [coreCmd 0, .requestControl] _
      (by decide +kernel) rfl).2.2 (coreRsp 0) _ (by decide +kernel) rfl rfl with h | h | h
    · cases h
    · exact h
    · cases h

/-- The HAL asks and discovery is started while a command is unanswered. With the
response the discovery takes the flag: once RF_DISCOVER is answered too, the
window is open, the request is still recorded, and nobody asks for control. -/
theorem hal_request_dropped :
    (run (CmdState.step fun _ => false) {}
        [coreCmd 0, .requestControl, .discoveryStart [(0, 1)], coreRsp 0]).map
      (fun s => (s.flags.halRequested, s.flags.controlRequested, s.flags.controlGranted)) =
        some (true, false, false) ∧
    (run (CmdState.step fun _ => false) {}
        [coreCmd 0, .requestControl, .discoveryStart [(0, 1)], coreRsp 0,
          .message [0x41, 3, 1, 0]]).map
      (fun s => (s.flags.halRequested, s.flags.controlRequested, s.flags.controlGranted,
        s.nciCmdWindow, s.nciCmdXmitQ)) = some (true, false, false, nciMaxCmdWindow, []) := by
  refine ⟨by decide +kernel, by decide +kernel⟩

end NfcStack.Nfc
