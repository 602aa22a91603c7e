import NfcStack.Lib.Run
import NfcStack.Nfc.CmdQueue

/- The pending discovery: NFC_FL_DISCOVER_PENDING and `p_disc_pending`, and
   `NFC_DiscoveryStart` with a buffer that may be refused.

   What is proved:
     1. `check_pending`: `nfc_ncif_check_cmd_queue` leaves both as they are or clears both.
     2. `discover_pending_paired`: in every run in which no discovery is started
        without a buffer, the flag is set exactly while the parameters are there,
        every step returns, and a start that fails leaves the flags alone.
     3. `start_without_buffer`: a start that gets no buffer always leaves the flag without
        parameters; `refused_buffer_faults`: the next answered command reads them. -/
namespace NfcStack.Nfc
open NfcStack.Lib

inductive StartStatus where
  | cmdStarted | busy | noBuffers
  deriving DecidableEq, Repr

section Start
variable (prediscover : Nat → Bool)

/-- `NFC_DiscoveryStart`. The flags are set before the buffer is asked for. -/
def startDiscovery (getbuf : Bool) (s : CmdState) (params : List (UInt8 × UInt8)) :
    Option (StartStatus × CmdState) :=
  if s.pDiscPending.isSome then some (.busy, s)
  else
    let s := { s with flags := { s.flags with discoverPending := true, controlRequested := true } }
    if getbuf then
      (nfcNcifCheckCmdQueue prediscover checkDepth { s with pDiscPending := some params } none).map
        fun s => (.cmdStarted, s)
    else some (.noBuffers, s)

theorem startDiscovery_getbuf (s : CmdState) (params : List (UInt8 × UInt8)) :
    (startDiscovery prediscover true s params).map (·.2) = nfcDiscoveryStart prediscover s params := by
  unfold startDiscovery nfcDiscoveryStart
  by_cases hpend : s.pDiscPending.isSome
  · rw [if_pos hpend, if_pos hpend]
    rfl
  · rw [if_neg hpend, if_neg hpend]
    dsimp only
    rw [if_pos rfl, Option.map_map]
    exact Option.map_id'

/-- What happens on the command path, and a start of the discovery that may get no buffer. -/
inductive DiscEvent where
  | cmd (e : CmdEvent)
  | start (params : List (UInt8 × UInt8)) (getbuf : Bool)
  deriving DecidableEq, Repr

def CmdState.discStep (s : CmdState) : DiscEvent → Option CmdState
  | .cmd e => s.step prediscover e
  | .start params getbuf => (startDiscovery prediscover getbuf s params).map (·.2)

end Start

/-- The flag is set exactly while the parameters are there. -/
def Paired (s : CmdState) : Prop := s.flags.discoverPending = true ↔ s.pDiscPending.isSome = true

/-- The flag and the parameters are both as before, or both gone. -/
def KeptOrGone (s t : CmdState) : Prop :=
  (t.flags.discoverPending = s.flags.discoverPending ∧ t.pDiscPending = s.pDiscPending) ∨
    (t.flags.discoverPending = false ∧ t.pDiscPending = none)

def GotBuffer (s : CmdState) : DiscEvent → Prop
  | .start _ getbuf => getbuf = true ∨ s.pDiscPending.isSome = true
  | .cmd _ => True

instance (s : CmdState) : (e : DiscEvent) → Decidable (GotBuffer s e)
  | .start _ _ => inferInstanceAs (Decidable (_ ∨ _))
  | .cmd _ => .isTrue trivial

section Steps
variable {prediscover : Nat → Bool} {s t : CmdState}

theorem KeptOrGone.paired (h : KeptOrGone s t) (hs : Paired s) : Paired t := by
  unfold Paired at *
  rcases h with ⟨hflag, hparams⟩ | ⟨hflag, hparams⟩
  · rw [hflag, hparams]
    exact hs
  · rw [hflag, hparams]
    simp

theorem check_pending (hs : s.flags.discoverPending = true → s.pDiscPending.isSome = true)
    (pBuf : Option Cmd) :
    ∃ t, nfcNcifCheckCmdQueue prediscover checkDepth s pBuf = some t ∧ KeptOrGone s t := by
  obtain ⟨hflags, hparams⟩ := transmit_frame s pBuf
  have hflag : (s.transmit pBuf).flags.discoverPending = s.flags.discoverPending := by rw [hflags]
  rw [checkDepth, nfcNcifCheckCmdQueue]
  split
  · unfold handOver
    split
    · next hd =>
      have hd' : s.flags.discoverPending = true := hflag.symm.trans hd
      split
      · exact ⟨_, rfl, .inl ⟨hflag, hparams⟩⟩
      · obtain ⟨params, hp⟩ := Option.isSome_iff_exists.mp (hs hd')
        have hp' : (s.transmit pBuf).clearRequest.pDiscPending = some params := hparams.trans hp
        -- the request is cleared, so the RF_DISCOVER command is only sent or queued
        have hcall : nfcNcifCheckCmdQueue prediscover 1
            ((s.transmit pBuf).clearRequest.askHal.clearDiscover.record (discoverCmd params))
            (some (discoverCmd params)) = some _ := check_no_request 0 rfl
        rw [hp', Option.bind_some]
        dsimp only
        rw [hcall]
        refine ⟨_, rfl, .inr ⟨?_, rfl⟩⟩
        change (CmdState.transmit _ _).flags.discoverPending = false
        rw [(transmit_frame _ _).1]
        rfl
    · split
      · exact ⟨_, rfl, .inl ⟨hflag, hparams⟩⟩
      · exact ⟨_, rfl, .inl ⟨hflag, hparams⟩⟩
  · exact ⟨_, rfl, .inl ⟨hflag, hparams⟩⟩

theorem check_paired (hs : Paired s) (pBuf : Option Cmd) :
    ∃ t, nfcNcifCheckCmdQueue prediscover checkDepth s pBuf = some t ∧ Paired t := by
  obtain ⟨t, ht, hkept⟩ := check_pending hs.mp pBuf
  exact ⟨t, ht, hkept.paired hs⟩

theorem updateWindow_paired (hs : Paired s) :
    ∃ t, nfcNcifUpdateWindow prediscover s = some t ∧ Paired t := by
  unfold nfcNcifUpdateWindow
  split
  · exact ⟨s, rfl, hs⟩
  · apply check_paired
    exact hs

theorem message_paired (hs : Paired s) (b : Bytes) :
    ∃ t, nfcNcifProcessEvent prediscover s b = some t ∧ Paired t := by
  unfold nfcNcifProcessEvent
  split_ifs
  · exact ⟨s, rfl, hs⟩
  · obtain ⟨t, ht, hpaired⟩ := @updateWindow_paired prediscover
      { s with pVscCback := none, rawVsCbflag := false } hs
    rw [nciProcPropRawVsRsp, ht]
    exact ⟨_, rfl, hpaired⟩
  · exact updateWindow_paired hs
  · exact ⟨s, rfl, hs⟩
  · exact ⟨s, rfl, hs⟩

theorem preDiscoverCplt_paired (hs : Paired s) :
    ∃ t, halPreDiscoverCplt prediscover s = some t ∧ Paired t := by
  unfold halPreDiscoverCplt
  split
  · next hd =>
    obtain ⟨params, hp⟩ := Option.isSome_iff_exists.mp (hs.mp hd)
    have hfree : s.restoreWindow.clearDiscover.flags.discoverPending = true →
        s.restoreWindow.clearDiscover.pDiscPending.isSome = true := by
      intro hfalse
      cases hfalse
    obtain ⟨t, ht, hkept⟩ := @check_pending prediscover
      (s.restoreWindow.clearDiscover.record (discoverCmd params)) hfree (some (discoverCmd params))
    refine ⟨{ t with pDiscPending := none }, ?_, ?_⟩
    · rw [hp, Option.bind_some, nfcNcifSendCmd, ht]
      rfl
    · have hflag : t.flags.discoverPending = false := by
        rcases hkept with h | h
        · exact h.1
        · exact h.1
      unfold Paired
      simp [hflag]
  · apply check_paired
    exact hs

theorem deactivate_paired (hs : Paired s) (deactType : UInt8) :
    ∃ t, nfcDeactivate prediscover s deactType = some t ∧ Paired t := by
  unfold nfcDeactivate
  split
  · refine ⟨_, rfl, ?_⟩
    unfold Paired
    simp
  · apply check_paired
    exact hs

theorem paired_step {e : DiscEvent} (hs : Paired s) (hok : GotBuffer s e) :
    ∃ t, s.discStep prediscover e = some t ∧ Paired t := by
  cases e with
  | start params getbuf =>
    change ∃ t, (startDiscovery prediscover getbuf s params).map (·.2) = some t ∧ Paired t
    unfold startDiscovery
    by_cases hpend : s.pDiscPending.isSome
    · rw [if_pos hpend]
      exact ⟨s, rfl, hs⟩
    · rcases hok with rfl | hsome
      · rw [if_neg hpend]
        dsimp only
        rw [if_pos rfl]
        obtain ⟨t, ht, hpaired⟩ := @check_paired prediscover
          { s with
            flags := { s.flags with discoverPending := true, controlRequested := true }
            pDiscPending := some params } (by simp [Paired]) none
        exact ⟨t, by rw [ht]; rfl, hpaired⟩
      · exact absurd hsome hpend
  | cmd e =>
    have hsend : ∀ p, ∃ t, nfcNcifSendCmd prediscover s p = some t ∧ Paired t := by
      intro p
      apply check_paired
      exact hs
    cases e with
    | sendCmd bytes => exact hsend _
    | sendVsCommand oid payload pCback =>
      simp only [CmdState.discStep, CmdState.step]
      split
      · exact hsend _
      · exact ⟨s, rfl, hs⟩
    | sendRawVsCommand bytes pCback =>
      simp only [CmdState.discStep, CmdState.step]
      split
      · exact hsend _
      · exact ⟨s, rfl, hs⟩
    | message b => exact message_paired hs b
    | cmdTimeout => exact ⟨_, rfl, hs⟩
    | preDiscoverCplt => exact preDiscoverCplt_paired hs
    | requestControl =>
      apply check_paired
      exact hs
    | releaseControl =>
      simp only [CmdState.discStep, CmdState.step, halReleaseControl]
      split
      · apply check_paired
        exact hs
      · exact ⟨s, rfl, hs⟩
    | discoveryStart params =>
      simp only [CmdState.discStep, CmdState.step, nfcDiscoveryStart]
      split
      · exact ⟨s, rfl, hs⟩
      · apply check_paired
        simp [Paired]
    | deactivate deactType => exact deactivate_paired hs deactType
    | cleanup =>
      refine ⟨_, rfl, ?_⟩
      unfold Paired
      cases hd : s.flags.discoverPending with
      | true => simp [nfcGenCleanup, nfcMainFlushCmdQueue, hd]
      | false =>
        have hnone : s.pDiscPending = none := by
          rw [← Option.not_isSome_iff_eq_none]
          intro hsome
          rw [hs.mpr hsome] at hd
          cases hd
        simp [nfcGenCleanup, nfcMainFlushCmdQueue, hnone]
    | setState nfcState => exact ⟨_, rfl, hs⟩

theorem discover_pending_paired (prediscover : Nat → Bool) (nfcState : NfcState)
    (es : List DiscEvent)
    (hes : StepsOk (CmdState.discStep prediscover) GotBuffer { nfcState := nfcState } es) :
    ∃ t, run (CmdState.discStep prediscover) { nfcState := nfcState } es = some t ∧
      (t.flags.discoverPending = true ↔ t.pDiscPending.isSome = true) ∧
      ∀ params getbuf status u, GotBuffer t (.start params getbuf) →
        startDiscovery prediscover getbuf t params = some (status, u) → status ≠ .cmdStarted →
          u.flags = t.flags := by
  obtain ⟨t, ht, hpaired⟩ := run_invariant (fun s e h he => paired_step h he) es _
    (show Paired { nfcState := nfcState } by simp [Paired]) hes
  refine ⟨t, ht, hpaired, ?_⟩
  intro params getbuf status u hok hstart hstatus
  unfold startDiscovery at hstart
  split_ifs at hstart with hpend hbuf
  · exact congrArg CmdState.flags (Prod.mk.inj (Option.some.inj hstart)).2.symm
  · obtain ⟨v, -, hv⟩ := Option.map_eq_some_iff.mp hstart
    exact absurd (Prod.mk.inj hv).1.symm hstatus
  · rcases hok with htrue | hsome
    · exact absurd htrue hbuf
    · exact absurd hsome hpend

theorem start_without_buffer (params : List (UInt8 × UInt8)) (hpend : s.pDiscPending = none) :
    ∃ t, s.discStep prediscover (.start params false) = some t ∧
      t.flags.discoverPending = true ∧ t.pDiscPending = none := by
  refine ⟨{ s with flags := { s.flags with discoverPending := true, controlRequested := true } },
    ?_, rfl, hpend⟩
  simp [CmdState.discStep, startDiscovery, hpend]

end Steps

/-- A discovery waits for the answer to a command, is started again, and goes out with the answer. -/
theorem discover_pending_paired_answered :
    ∃ t, run (CmdState.discStep fun _ => false) {}
        [.cmd (coreCmd 0), .start [(0, 1)] true, .start [(1, 1)] false, .cmd (coreRsp 0)] = some t ∧
      (t.flags.discoverPending = true ↔ t.pDiscPending.isSome = true) := by
  obtain ⟨t, ht, hpaired, -⟩ := discover_pending_paired (fun _ => false) .idle
    [.cmd (coreCmd 0), .start [(0, 1)] true, .start [(1, 1)] false, .cmd (coreRsp 0)]
    (by decide +kernel)
  exact ⟨t, ht, hpaired⟩

/-- A start that is refused a buffer changes the flags and leaves the flag without parameters; the
next command that is answered reads through the null pointer. -/
theorem refused_buffer_faults :
    (startDiscovery (fun _ => false) false {} [(0, 1)]).map
        (fun x => (x.1, x.2.flags.discoverPending, x.2.pDiscPending)) =
      some (.noBuffers, true, none) ∧
    run (CmdState.discStep fun _ => false) {}
      [.start [(0, 1)] false, .cmd (coreCmd 0), .cmd (coreRsp 0)] = none := by
  refine ⟨by decide +kernel, by decide +kernel⟩

end NfcStack.Nfc
