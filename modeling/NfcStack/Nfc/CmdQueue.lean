import NfcStack.Lib.Run
import NfcStack.Nfc.ControlBlock

/- The command window (`nfc_ncif.cc`: `nfc_ncif_check_cmd_queue`,
   `nfc_ncif_update_window`, `nfc_ncif_send_cmd`, the response part of
   `nfc_ncif_process_event`; `nfc_main.cc`: `nfc_main_handle_hal_evt`,
   `nfc_gen_cleanup`, `NFC_DiscoveryStart`, `NFC_Deactivate`; `nfc_vs.cc`;
   `nci_hrcv.cc`: `nci_proc_prop_raw_vs_rsp`). One command may be unanswered at a
   time; the others wait in `nci_cmd_xmit_q`, and the HAL may be given the window.

   What is proved:
     1. `books_transmit`, `cmdInv_check`: handing a command to the queue, or
        looking at it, keeps the books.
     2. `cmd_window_safe`: over every run in which the HAL reports the end of
        pre-discovery only while it has control, and no response is taken while
        it has: the window, the unanswered command and the grant add up to one,
        a waiting command has something to wait for, and between two flushes the
        commands written are a prefix of those submitted.
     3. `cmd_window_unsafe`: a flush loses the commands it frees, and a response
        taken while the HAL has control ends in two unanswered commands.

   `epoch`, `submitted`, `written` and `outstanding` are history: the number of
   flushes, what was submitted and written in each epoch, and what was written
   and not yet taken as answered. Upper layers run as events of their own: what
   a response callback submits comes before the response is counted, while the
   window is still closed. A command gets its buffer: what `nci_snd_discover_cmd`
   and `nci_snd_deactivate_cmd` do without one is left out. -/
namespace NfcStack.Nfc
open NfcStack.Lib

/-! ## The code -/

def nfcWaitRspVsc : Nat := 0x01
def nfcWaitRspRawVs : Nat := 0x02
def nciMtData : UInt8 := 0
def nciMtCmd : UInt8 := 1
def nciMtRsp : UInt8 := 2
def nciMtNtf : UInt8 := 3
def nciGidRfManage : UInt8 := 0x01
def nciGidProp : UInt8 := 0x0F
def nciMsgRfDiscover : UInt8 := 3
def nciMsgRfDeactivate : UInt8 := 6
def nciMaxVscSize : Nat := 0x102

/-- A command buffer: its bytes, `layer_specific` and the callback of a vendor
specific command. -/
structure Cmd where
  bytes : Bytes
  layerSpecific : Nat := 0
  pCback : Option Nat := none
  deriving DecidableEq, Repr

structure CmdState where
  nfcState : NfcState := .idle
  nciCmdWindow : Nat := nciMaxCmdWindow
  nciCmdXmitQ : List Cmd := []
  flags : NfcFlags := {}
  lastHdr : Bytes := [0, 0]
  pVscCback : Option Nat := none
  rawVsCbflag : Bool := false
  pDiscPending : Option (List (UInt8 × UInt8)) := none
  nciWaitRspTimer : Bool := false
  prediscovers : Nat := 0
  epoch : Nat := 0
  submitted : List (Nat × Cmd) := []
  written : List (Nat × Cmd) := []
  outstanding : List Cmd := []
  deriving DecidableEq, Repr

def CmdState.write (s : CmdState) (p : Cmd) : CmdState :=
  { s with
    lastHdr := [p.bytes.getD 0 0, p.bytes.getD 1 0]
    pVscCback :=
      if p.layerSpecific = nfcWaitRspVsc ∨ p.layerSpecific = nfcWaitRspRawVs then p.pCback
      else s.pVscCback
    rawVsCbflag := if p.layerSpecific = nfcWaitRspRawVs then true else s.rawVsCbflag
    nciCmdWindow := s.nciCmdWindow - 1
    nciWaitRspTimer := true
    written := s.written ++ [(s.epoch, p)]
    outstanding := s.outstanding ++ [p] }

/-- The first queued command is sent, if the window is open. -/
def CmdState.transmitNext (s : CmdState) : CmdState :=
  if s.nciCmdWindow = 0 then s
  else
    match s.nciCmdXmitQ with
    | [] => s
    | p :: rest => CmdState.write { s with nciCmdXmitQ := rest } p

/-- The first half of `nfc_ncif_check_cmd_queue`: the command is queued or sent,
and the next one is sent. -/
def CmdState.transmit (s : CmdState) : Option Cmd → CmdState
  | some p =>
    if s.nciCmdXmitQ ≠ [] ∨ s.nciCmdWindow = 0 then
      CmdState.transmitNext { s with nciCmdXmitQ := s.nciCmdXmitQ ++ [p] }
    else s.write p
  | none => s.transmitNext

/-- The bytes of the RF_DISCOVER command that `nci_snd_discover_cmd` composes. -/
def discoverCmd (params : List (UInt8 × UInt8)) : Cmd :=
  { bytes := [(nciMtCmd <<< 5) ||| nciGidRfManage, nciMsgRfDiscover,
        UInt8.ofNat (1 + 2 * params.length), UInt8.ofNat params.length] ++
      params.flatMap fun x => [x.1, x.2] }

/-- The RF_DEACTIVATE command of `nci_snd_deactivate_cmd`. -/
def deactivateCmd (deactType : UInt8) : Cmd :=
  { bytes := [(nciMtCmd <<< 5) ||| nciGidRfManage, nciMsgRfDeactivate, 1, deactType] }

/-- A vendor specific command with its header, as `NFC_SendVsCommand` builds it. -/
def vsCmd (oid : UInt8) (payload : Bytes) (pCback : Option Nat) : Cmd :=
  { bytes := [(nciMtCmd <<< 5) ||| nciGidProp, oid, UInt8.ofNat payload.length] ++ payload
    layerSpecific := nfcWaitRspVsc
    pCback := pCback }

/-- The command joins the history of what was submitted. -/
def CmdState.record (s : CmdState) (p : Cmd) : CmdState :=
  { s with submitted := s.submitted ++ [(s.epoch, p)] }

def CmdState.clearRequest (s : CmdState) : CmdState :=
  { s with flags := { s.flags with controlRequested := false } }

def CmdState.clearDiscover (s : CmdState) : CmdState :=
  { s with flags := { s.flags with discoverPending := false } }

def CmdState.clearHalRequest (s : CmdState) : CmdState :=
  { s with flags := { s.flags with halRequested := false } }

def CmdState.askHal (s : CmdState) : CmdState := { s with prediscovers := s.prediscovers + 1 }

/-- The HAL has the command window now. -/
def CmdState.giveWindow (s : CmdState) : CmdState :=
  { s with flags := { s.flags with controlGranted := true }, nciCmdWindow := 0 }

/-- The HAL gives the command window back. -/
def CmdState.restoreWindow (s : CmdState) : CmdState :=
  { s with flags := { s.flags with controlGranted := false }, nciCmdWindow := nciMaxCmdWindow }

section Commands
variable (prediscover : Nat → Bool)

/-- The second half of `nfc_ncif_check_cmd_queue`, with the window open and
control asked for. `prediscover n` is what the HAL answers the n-th time it is
asked; `sendCmd` is the call it makes with the pending RF_DISCOVER command. -/
def handOver (sendCmd : CmdState → Cmd → Option CmdState) (s : CmdState) : Option CmdState :=
  if s.flags.discoverPending then
    if prediscover s.prediscovers then some s.askHal.giveWindow
    else
      s.pDiscPending.bind fun params =>
        (sendCmd s.askHal.clearDiscover (discoverCmd params)).map fun s =>
          { s with pDiscPending := none }
  else if s.flags.halRequested then some s.clearHalRequest.giveWindow
  else some s

/-- `nfc_ncif_check_cmd_queue`. It goes through itself once more with a pending
RF_DISCOVER command; `depth` counts these calls, and `none` is a call that does
not return or reads a null `p_disc_pending`. -/
def nfcNcifCheckCmdQueue : Nat → CmdState → Option Cmd → Option CmdState
  | 0, _, _ => none
  | depth + 1, s, pBuf =>
    if (s.transmit pBuf).nciCmdWindow = nciMaxCmdWindow ∧ (s.transmit pBuf).flags.controlRequested then
      handOver prediscover (fun s p => nfcNcifCheckCmdQueue depth (s.record p) (some p))
        (s.transmit pBuf).clearRequest
    else some (s.transmit pBuf)

/-- The depth that every call needs at most: the second one finds the control
request cleared. -/
def checkDepth : Nat := 2

/-- `nfc_ncif_send_cmd`, and the vendor specific senders once they have set
`layer_specific`. -/
def nfcNcifSendCmd (s : CmdState) (p : Cmd) : Option CmdState :=
  nfcNcifCheckCmdQueue prediscover checkDepth (s.record p) (some p)

def nfcNcifUpdateWindow (s : CmdState) : Option CmdState :=
  if s.nciCmdWindow = nciMaxCmdWindow then some s
  else
    nfcNcifCheckCmdQueue prediscover checkDepth
      { s with
        nciWaitRspTimer := false
        pVscCback := none
        nciCmdWindow := s.nciCmdWindow + 1
        outstanding := s.outstanding.dropLast } none

def nfcNcifProcProprietaryRsp (mt gid oid : UInt8) : Bool :=
  if mt = nciMtData then gid ≠ 0x03 ∧ oid ≠ 0x00
  else mt ≠ nciMtNtf

def msgMt (b : Bytes) : UInt8 := (b.getD 0 0 &&& 0xE0) >>> 5
def msgGid (b : Bytes) : UInt8 := b.getD 0 0 &&& 0x0F
def msgOid (b : Bytes) : UInt8 := b.getD 1 0 &&& 0x3F

/-- The message has its header and as many bytes as that says. -/
def msgComplete (b : Bytes) : Bool := 3 ≤ b.length ∧ (b.getD 2 0).toNat + 3 ≤ b.length

/-- The message is taken as the response to a raw vendor specific command. -/
def CmdState.takesRawVs (s : CmdState) (b : Bytes) : Bool :=
  s.rawVsCbflag ∧ nfcNcifProcProprietaryRsp (msgMt b) (msgGid b) (msgOid b)

/-- The message is the response that the last header calls for. -/
def CmdState.takesRsp (s : CmdState) (b : Bytes) : Bool :=
  msgMt b = nciMtRsp ∧ msgGid s.lastHdr = msgGid b ∧ msgOid s.lastHdr = msgOid b

/-- `nci_proc_prop_raw_vs_rsp`, which may send the next raw command and set the flag again. -/
def nciProcPropRawVsRsp (s : CmdState) : Option CmdState :=
  nfcNcifUpdateWindow prediscover { s with pVscCback := none, rawVsCbflag := false }

/-- `nfc_ncif_process_event`, as far as the command window goes. -/
def nfcNcifProcessEvent (s : CmdState) (b : Bytes) : Option CmdState :=
  if s.nfcState = .w4HalClose then some s
  else if ¬ msgComplete b then some s
  else if s.takesRawVs b then
    (nciProcPropRawVsRsp prediscover s).map fun s => { s with rawVsCbflag := false }
  else if s.takesRsp b then nfcNcifUpdateWindow prediscover s
  else some s

/-- `HAL_NFC_PRE_DISCOVER_CPLT_EVT`. -/
def halPreDiscoverCplt (s : CmdState) : Option CmdState :=
  if s.flags.discoverPending then
    s.pDiscPending.bind fun params =>
      (nfcNcifSendCmd prediscover s.restoreWindow.clearDiscover (discoverCmd params)).map fun s =>
        { s with pDiscPending := none }
  else nfcNcifCheckCmdQueue prediscover checkDepth s.restoreWindow none

/-- `HAL_NFC_REQUEST_CONTROL_EVT`. -/
def halRequestControl (s : CmdState) : Option CmdState :=
  nfcNcifCheckCmdQueue prediscover checkDepth
    { s with flags := { s.flags with controlRequested := true, halRequested := true } } none

/-- `HAL_NFC_RELEASE_CONTROL_EVT`. -/
def halReleaseControl (s : CmdState) : Option CmdState :=
  if s.flags.controlGranted then nfcNcifCheckCmdQueue prediscover checkDepth s.restoreWindow none
  else some s

def nfcDiscoveryStart (s : CmdState) (params : List (UInt8 × UInt8)) : Option CmdState :=
  if s.pDiscPending.isSome then some s
  else
    nfcNcifCheckCmdQueue prediscover checkDepth
      { s with
        flags := { s.flags with discoverPending := true, controlRequested := true }
        pDiscPending := some params } none

def nfcDeactivate (s : CmdState) (deactType : UInt8) : Option CmdState :=
  if s.flags.discoverPending then
    some { s with
      flags := { s.flags with
        discoverPending := false
        controlRequested := s.flags.controlRequested && s.flags.halRequested }
      pDiscPending := none }
  else
    nfcNcifSendCmd prediscover
      { s with nfcState := if s.nfcState = .open then .closing else s.nfcState }
      (deactivateCmd deactType)

def nfcMainFlushCmdQueue (s : CmdState) : CmdState :=
  { s with
    nciCmdWindow := nciMaxCmdWindow
    nciWaitRspTimer := false
    nciCmdXmitQ := []
    epoch := s.epoch + 1
    outstanding := [] }

/-- `nfc_gen_cleanup`, the only caller of the flush. -/
def nfcGenCleanup (s : CmdState) : CmdState :=
  nfcMainFlushCmdQueue
    { s with
      pDiscPending := if s.flags.discoverPending then none else s.pDiscPending
      flags := { s.flags with
        discoverPending := false
        controlRequested := false
        controlGranted := false
        halRequested := false } }

inductive CmdEvent where
  | sendCmd (bytes : Bytes)
  | sendVsCommand (oid : UInt8) (payload : Bytes) (pCback : Option Nat)
  | sendRawVsCommand (bytes : Bytes) (pCback : Option Nat)
  | message (bytes : Bytes)
  | cmdTimeout
  | preDiscoverCplt
  | requestControl
  | releaseControl
  | discoveryStart (params : List (UInt8 × UInt8))
  | deactivate (deactType : UInt8)
  | cleanup
  | setState (nfcState : NfcState)
  deriving DecidableEq, Repr

/-- One event. `nfc_ncif_cmd_timeout` only reports the error. -/
def CmdState.step (s : CmdState) : CmdEvent → Option CmdState
  | .sendCmd bytes => nfcNcifSendCmd prediscover s { bytes := bytes }
  | .sendVsCommand oid payload pCback =>
    if payload.length ≤ nciMaxVscSize then nfcNcifSendCmd prediscover s (vsCmd oid payload pCback)
    else some s
  | .sendRawVsCommand bytes pCback =>
    if bytes.length ≤ nciMaxVscSize then
      nfcNcifSendCmd prediscover s
        { bytes := bytes, layerSpecific := nfcWaitRspRawVs, pCback := pCback }
    else some s
  | .message bytes => nfcNcifProcessEvent prediscover s bytes
  | .cmdTimeout => some { s with nciWaitRspTimer := false }
  | .preDiscoverCplt => halPreDiscoverCplt prediscover s
  | .requestControl => halRequestControl prediscover s
  | .releaseControl => halReleaseControl prediscover s
  | .discoveryStart params => nfcDiscoveryStart prediscover s params
  | .deactivate deactType => nfcDeactivate prediscover s deactType
  | .cleanup => some (nfcGenCleanup s)
  | .setState nfcState => some { s with nfcState := nfcState }

end Commands

/-! ## The books -/

/-- The commands of one epoch. -/
def inEpoch (l : List (Nat × Cmd)) (e : Nat) : List Cmd := (l.filter (·.1 = e)).map (·.2)

theorem inEpoch_snoc_same (l : List (Nat × Cmd)) (e : Nat) (p : Cmd) :
    inEpoch (l ++ [(e, p)]) e = inEpoch l e ++ [p] := by
  simp [inEpoch]

theorem inEpoch_snoc_other (l : List (Nat × Cmd)) {e e' : Nat} (p : Cmd) (h : e' ≠ e) :
    inEpoch (l ++ [(e, p)]) e' = inEpoch l e' := by
  simp [inEpoch, Ne.symm h]

theorem inEpoch_eq_nil {l : List (Nat × Cmd)} {e : Nat} (h : ∀ x ∈ l, x.1 < e) :
    inEpoch l e = [] := by
  have hne : ∀ x ∈ l, ¬ x.1 = e := fun x hx => (h x hx).ne
  simp [inEpoch, List.filter_eq_nil_iff]
  exact fun a b hab => hne (a, b) hab

/-- The HAL's share of the window. -/
def granted (flags : NfcFlags) : Nat := if flags.controlGranted then 1 else 0

/-- The accounts of a state in which the commands `due` are still to be written. -/
structure Books (s : CmdState) (due : List Cmd) : Prop where
  balance : s.nciCmdWindow + s.outstanding.length + granted s.flags = 1
  disc : s.flags.discoverPending → s.pDiscPending.isSome
  fifo : inEpoch s.submitted s.epoch = inEpoch s.written s.epoch ++ due
  past : ∀ e < s.epoch, inEpoch s.written e <+: inEpoch s.submitted e
  submittedBy : ∀ x ∈ s.submitted, x.1 ≤ s.epoch
  writtenBy : ∀ x ∈ s.written, x.1 ≤ s.epoch

/-- The books are in order, and a command waits only while the window is closed. -/
structure CmdInv (s : CmdState) : Prop where
  books : Books s s.nciCmdXmitQ
  waits : s.nciCmdXmitQ ≠ [] → s.nciCmdWindow = 0

variable {s : CmdState}

theorem books_record {due : List Cmd} (h : Books s due) (p : Cmd) :
    Books (s.record p) (due ++ [p]) := by
  refine ⟨h.balance, h.disc, ?_, ?_, ?_, h.writtenBy⟩
  · change inEpoch (s.submitted ++ [(s.epoch, p)]) s.epoch = _
    rw [inEpoch_snoc_same, h.fifo, List.append_assoc]
    rfl
  · intro e he
    change _ <+: inEpoch (s.submitted ++ [(s.epoch, p)]) e
    rw [inEpoch_snoc_other _ _ (Nat.ne_of_lt he : e ≠ s.epoch)]
    exact h.past e he
  · intro x hx
    obtain hx | hx := List.mem_append.mp hx
    · exact h.submittedBy x hx
    · rw [List.mem_singleton.mp hx]; exact le_rfl

theorem books_write {p : Cmd} {due : List Cmd} (h : Books s (p :: due))
    (hw : s.nciCmdWindow ≠ 0) : Books (s.write p) due := by
  have hbal := h.balance
  refine ⟨?_, h.disc, ?_, ?_, h.submittedBy, ?_⟩
  · simp only [CmdState.write, List.length_append, List.length_singleton]
    omega
  · change _ = inEpoch (s.written ++ [(s.epoch, p)]) s.epoch ++ due
    rw [inEpoch_snoc_same, List.append_assoc]
    exact h.fifo
  · intro e he
    change inEpoch (s.written ++ [(s.epoch, p)]) e <+: _
    rw [inEpoch_snoc_other _ _ (Nat.ne_of_lt he : e ≠ s.epoch)]
    exact h.past e he
  · intro x hx
    obtain hx | hx := List.mem_append.mp hx
    · exact h.writtenBy x hx
    · rw [List.mem_singleton.mp hx]; exact le_rfl

theorem write_window {due : List Cmd} (h : Books s due) (p : Cmd) :
    (s.write p).nciCmdWindow = 0 := by
  have hbal := h.balance
  simp only [CmdState.write]
  omega

theorem books_transmitNext (h : Books s s.nciCmdXmitQ) : CmdInv s.transmitNext := by
  unfold CmdState.transmitNext
  split
  · next hw => exact ⟨h, fun _ => hw⟩
  · next hw =>
    split
    · next hq => exact ⟨h, fun hne => absurd hq hne⟩
    · next p rest hq =>
      rw [hq] at h
      have hset : Books { s with nciCmdXmitQ := rest } (p :: rest) :=
        ⟨h.balance, h.disc, h.fifo, h.past, h.submittedBy, h.writtenBy⟩
      exact ⟨books_write hset hw, fun _ => write_window hset p⟩

theorem books_transmit (pBuf : Option Cmd)
    (h : Books s (s.nciCmdXmitQ ++ pBuf.toList)) : CmdInv (s.transmit pBuf) := by
  cases pBuf with
  | none => exact books_transmitNext (by simpa using h)
  | some p =>
    simp only [CmdState.transmit]
    split
    · exact books_transmitNext
        ⟨h.balance, h.disc, h.fifo, h.past, h.submittedBy, h.writtenBy⟩
    · next hq =>
      obtain ⟨hnil, hw⟩ : s.nciCmdXmitQ = [] ∧ s.nciCmdWindow ≠ 0 := by
        simpa [not_or] using hq
      have hdue : Books s (p :: []) := by simpa [hnil] using h
      refine ⟨?_, fun _ => write_window hdue p⟩
      have hq' : (s.write p).nciCmdXmitQ = [] := hnil
      rw [hq']
      exact books_write hdue hw

theorem transmit_frame (s : CmdState) (pBuf : Option Cmd) :
    (s.transmit pBuf).flags = s.flags ∧ (s.transmit pBuf).pDiscPending = s.pDiscPending := by
  have hnext : ∀ s : CmdState, s.transmitNext.flags = s.flags ∧
      s.transmitNext.pDiscPending = s.pDiscPending := by
    intro s
    unfold CmdState.transmitNext
    split
    · exact ⟨rfl, rfl⟩
    · split <;> exact ⟨rfl, rfl⟩
  cases pBuf with
  | none => exact hnext s
  | some p =>
    simp only [CmdState.transmit]
    split
    · exact hnext _
    · exact ⟨rfl, rfl⟩

section Steps
variable {prediscover : Nat → Bool}

variable {s : CmdState}

theorem check_no_request {pBuf : Option Cmd} (depth : Nat) (hr : s.flags.controlRequested = false) :
    nfcNcifCheckCmdQueue prediscover (depth + 1) s pBuf = some (s.transmit pBuf) := by
  rw [nfcNcifCheckCmdQueue, if_neg]
  rw [(transmit_frame s pBuf).1, hr]
  simp

theorem CmdInv.window_open (h : CmdInv s) (hw : s.nciCmdWindow = nciMaxCmdWindow) :
    s.nciCmdXmitQ = [] ∧ s.outstanding.length = 0 := by
  have hbal := h.books.balance
  simp only [nciMaxCmdWindow] at hw
  refine ⟨?_, by omega⟩
  by_contra hne
  have h0 := h.waits hne
  omega

theorem cmdInv_giveWindow (h : CmdInv s) (hw : s.nciCmdWindow = nciMaxCmdWindow) :
    CmdInv s.giveWindow := by
  obtain ⟨-, hout⟩ := h.window_open hw
  have hb := h.books
  refine ⟨⟨?_, hb.disc, hb.fifo, hb.past, hb.submittedBy, hb.writtenBy⟩, fun _ => rfl⟩
  simp only [CmdState.giveWindow, granted]
  simp [hout]

theorem books_clearDiscover {due : List Cmd} (h : Books s due) :
    Books s.clearDiscover due := by
  refine ⟨h.balance, ?_, h.fifo, h.past, h.submittedBy, h.writtenBy⟩
  intro hd
  simp [CmdState.clearDiscover] at hd

theorem cmdInv_freeDiscover (h : CmdInv s) (hd : s.flags.discoverPending = false) :
    CmdInv { s with pDiscPending := none } := by
  have hb := h.books
  refine ⟨⟨hb.balance, ?_, hb.fifo, hb.past, hb.submittedBy, hb.writtenBy⟩, h.waits⟩
  intro hd'
  rw [show s.flags.discoverPending = true from hd'] at hd
  cases hd

theorem cmdInv_sendDiscover {depth : Nat} {params : List (UInt8 × UInt8)}
    (h : Books s s.nciCmdXmitQ) (hr : s.flags.controlRequested = false) :
    ∃ t, (nfcNcifCheckCmdQueue prediscover (depth + 1) (s.clearDiscover.record (discoverCmd params))
        (some (discoverCmd params))).map (fun s => { s with pDiscPending := none }) = some t ∧
      CmdInv t ∧ t.flags.discoverPending = false := by
  have hsend := books_transmit (some (discoverCmd params))
    (books_record (books_clearDiscover h) (discoverCmd params))
  have hflags := (transmit_frame (s.clearDiscover.record (discoverCmd params))
    (some (discoverCmd params))).1
  have hd : ((s.clearDiscover.record (discoverCmd params)).transmit
      (some (discoverCmd params))).flags.discoverPending = false := by
    rw [hflags]; rfl
  have hreq : (s.clearDiscover.record (discoverCmd params)).flags.controlRequested = false := hr
  rw [check_no_request depth hreq]
  exact ⟨_, rfl, cmdInv_freeDiscover hsend hd, hd⟩

theorem cmdInv_check (pBuf : Option Cmd) (h : Books s (s.nciCmdXmitQ ++ pBuf.toList)) :
    ∃ t, nfcNcifCheckCmdQueue prediscover checkDepth s pBuf = some t ∧ CmdInv t ∧
      (s.flags.discoverPending = false → t.flags.discoverPending = false) := by
  have hinv := books_transmit pBuf h
  have hflags := (transmit_frame s pBuf).1
  rw [checkDepth, nfcNcifCheckCmdQueue]
  generalize s.transmit pBuf = u at hinv hflags
  rw [← hflags]
  have hb := hinv.books
  split
  · next hreq =>
    have hclear : CmdInv u.clearRequest :=
      ⟨⟨hb.balance, hb.disc, hb.fifo, hb.past, hb.submittedBy, hb.writtenBy⟩, hinv.waits⟩
    have hw : u.clearRequest.nciCmdWindow = nciMaxCmdWindow := hreq.1
    have hb := hclear.books
    unfold handOver
    split
    · next hdisc =>
      have hask : CmdInv u.clearRequest.askHal :=
        ⟨⟨hb.balance, hb.disc, hb.fifo, hb.past, hb.submittedBy, hb.writtenBy⟩, hclear.waits⟩
      split
      · exact ⟨_, rfl, cmdInv_giveWindow hask hw, id⟩
      · obtain ⟨params, hparams⟩ := Option.isSome_iff_exists.mp (hb.disc hdisc)
        rw [hparams, Option.bind_some]
        obtain ⟨t, ht, hinv', hd⟩ := cmdInv_sendDiscover
          hask.books rfl
        exact ⟨t, ht, hinv', fun _ => hd⟩
    · split
      · have hhal : CmdInv u.clearRequest.clearHalRequest :=
          ⟨⟨hb.balance, hb.disc, hb.fifo, hb.past, hb.submittedBy, hb.writtenBy⟩, hclear.waits⟩
        exact ⟨_, rfl, cmdInv_giveWindow hhal hw, id⟩
      · exact ⟨_, rfl, hclear, id⟩
  · exact ⟨u, rfl, hinv, id⟩

theorem cmdInv_look (h : Books s s.nciCmdXmitQ) :
    ∃ t, nfcNcifCheckCmdQueue prediscover checkDepth s none = some t ∧ CmdInv t := by
  obtain ⟨t, ht, hinv, -⟩ := cmdInv_check none (by simpa using h)
  exact ⟨t, ht, hinv⟩

theorem cmdInv_send (h : Books s s.nciCmdXmitQ) (p : Cmd) :
    ∃ t, nfcNcifSendCmd prediscover s p = some t ∧ CmdInv t ∧
      (s.flags.discoverPending = false → t.flags.discoverPending = false) :=
  cmdInv_check (some p) (books_record h p)

theorem books_restoreWindow {due : List Cmd} (h : Books s due)
    (hg : s.flags.controlGranted = true) : Books s.restoreWindow due := by
  have hbal := h.balance
  simp only [granted, hg, if_true] at hbal
  refine ⟨?_, h.disc, h.fifo, h.past, h.submittedBy, h.writtenBy⟩
  change 1 + s.outstanding.length + 0 = 1
  omega

/-! ## Runs -/

/-- The message is taken as a response. -/
def CmdState.takes (s : CmdState) (b : Bytes) : Bool :=
  s.nfcState ≠ .w4HalClose ∧ msgComplete b ∧ (s.takesRawVs b ∨ s.takesRsp b)

/-- What the HAL is relied on for: it reports the end of pre-discovery only while
it has control, and keeps the responses to itself meanwhile. -/
def CmdEvent.Ok (s : CmdState) : CmdEvent → Prop
  | .preDiscoverCplt => s.flags.controlGranted = true
  | .message b => s.takes b = true → s.flags.controlGranted = false
  | _ => True

theorem cmdInv_updateWindow {s : CmdState} (h : CmdInv s) (hg : s.flags.controlGranted = false) :
    ∃ t, nfcNcifUpdateWindow prediscover s = some t ∧ CmdInv t := by
  unfold nfcNcifUpdateWindow
  split
  · exact ⟨s, rfl, h⟩
  · next hw =>
    have hb := h.books
    have hbal := hb.balance
    refine cmdInv_look ⟨?_, hb.disc, hb.fifo, hb.past, hb.submittedBy, hb.writtenBy⟩
    simp only [granted, hg, List.length_dropLast, nciMaxCmdWindow] at hbal hw ⊢
    simp at hbal ⊢
    omega

theorem cmdInv_message (h : CmdInv s) {b : Bytes}
    (hok : s.takes b = true → s.flags.controlGranted = false) :
    ∃ t, nfcNcifProcessEvent prediscover s b = some t ∧ CmdInv t := by
  unfold nfcNcifProcessEvent
  have hb := h.books
  split
  · exact ⟨s, rfl, h⟩
  · next hst =>
    split
    · exact ⟨s, rfl, h⟩
    · next hc =>
      rw [not_not] at hc
      split
      · next hraw =>
        obtain ⟨t, ht, hinv⟩ := @cmdInv_updateWindow prediscover
          { s with pVscCback := none, rawVsCbflag := false }
          ⟨⟨hb.balance, hb.disc, hb.fifo, hb.past, hb.submittedBy, hb.writtenBy⟩, h.waits⟩
          (hok (by simp [CmdState.takes, hst, hc, hraw]))
        have hb' := hinv.books
        rw [nciProcPropRawVsRsp, ht]
        exact ⟨_, rfl, ⟨⟨hb'.balance, hb'.disc, hb'.fifo, hb'.past, hb'.submittedBy, hb'.writtenBy⟩,
          hinv.waits⟩⟩
      · split
        · next hrsp => exact cmdInv_updateWindow h (hok (by simp [CmdState.takes, hst, hc, hrsp]))
        · exact ⟨s, rfl, h⟩

theorem cmdInv_cleanup (h : CmdInv s) : CmdInv (nfcGenCleanup s) := by
  have hb := h.books
  refine ⟨⟨rfl, fun hd => by simp [nfcGenCleanup, nfcMainFlushCmdQueue] at hd, ?_, ?_, ?_, ?_⟩,
    fun hne => absurd rfl hne⟩
  · change inEpoch s.submitted (s.epoch + 1) = inEpoch s.written (s.epoch + 1) ++ []
    rw [inEpoch_eq_nil fun x hx => Nat.lt_succ_of_le (hb.submittedBy x hx),
      inEpoch_eq_nil fun x hx => Nat.lt_succ_of_le (hb.writtenBy x hx)]
    rfl
  · intro e he
    obtain he | rfl := Nat.lt_succ_iff_lt_or_eq.mp (he : e < s.epoch + 1)
    · exact hb.past e he
    · change inEpoch s.written s.epoch <+: inEpoch s.submitted s.epoch
      rw [hb.fifo]
      exact List.prefix_append _ _
  · exact fun x hx => Nat.le_succ_of_le (hb.submittedBy x hx)
  · exact fun x hx => Nat.le_succ_of_le (hb.writtenBy x hx)

theorem cmdInv_step (h : CmdInv s) {e : CmdEvent} (hok : e.Ok s) :
    ∃ t, s.step prediscover e = some t ∧ CmdInv t := by
  have hb := h.books
  have send : ∀ p, ∃ t, nfcNcifSendCmd prediscover s p = some t ∧ CmdInv t := by
    intro p
    obtain ⟨t, ht, hinv, -⟩ := cmdInv_send hb p
    exact ⟨t, ht, hinv⟩
  cases e with
  | sendCmd bytes => exact send _
  | sendVsCommand oid payload pCback =>
    simp only [CmdState.step]
    split
    · exact send _
    · exact ⟨s, rfl, h⟩
  | sendRawVsCommand bytes pCback =>
    simp only [CmdState.step]
    split
    · exact send _
    · exact ⟨s, rfl, h⟩
  | message b => exact cmdInv_message h hok
  | cmdTimeout =>
    exact ⟨_, rfl, ⟨⟨hb.balance, hb.disc, hb.fifo, hb.past, hb.submittedBy, hb.writtenBy⟩, h.waits⟩⟩
  | preDiscoverCplt =>
    have hrest := books_restoreWindow hb hok
    simp only [CmdState.step, halPreDiscoverCplt]
    split
    · next hd =>
      obtain ⟨params, hparams⟩ := Option.isSome_iff_exists.mp (hb.disc hd)
      obtain ⟨t, ht, hinv, hdisc⟩ := cmdInv_send
        (books_clearDiscover hrest) (discoverCmd params)
      rw [hparams, Option.bind_some, ht]
      exact ⟨_, rfl, cmdInv_freeDiscover hinv (hdisc rfl)⟩
    · exact cmdInv_look hrest
  | requestControl =>
    exact cmdInv_look ⟨hb.balance, hb.disc, hb.fifo, hb.past, hb.submittedBy, hb.writtenBy⟩
  | releaseControl =>
    simp only [CmdState.step, halReleaseControl]
    split
    · next hg => exact cmdInv_look (books_restoreWindow hb hg)
    · exact ⟨s, rfl, h⟩
  | discoveryStart params =>
    simp only [CmdState.step, nfcDiscoveryStart]
    split
    · exact ⟨s, rfl, h⟩
    · exact cmdInv_look ⟨hb.balance, fun _ => rfl, hb.fifo, hb.past, hb.submittedBy, hb.writtenBy⟩
  | deactivate deactType =>
    simp only [CmdState.step, nfcDeactivate]
    split
    · refine ⟨_, rfl, ⟨⟨hb.balance, fun hd => ?_, hb.fifo, hb.past, hb.submittedBy, hb.writtenBy⟩,
        h.waits⟩⟩
      simp at hd
    · obtain ⟨t, ht, hinv, -⟩ := cmdInv_send
        (s := { s with nfcState := if s.nfcState = .open then .closing else s.nfcState })
        ⟨hb.balance, hb.disc, hb.fifo, hb.past, hb.submittedBy, hb.writtenBy⟩ (deactivateCmd deactType)
      exact ⟨t, ht, hinv⟩
  | cleanup => exact ⟨_, rfl, cmdInv_cleanup h⟩
  | setState nfcState =>
    exact ⟨_, rfl, ⟨⟨hb.balance, hb.disc, hb.fifo, hb.past, hb.submittedBy, hb.writtenBy⟩, h.waits⟩⟩

theorem cmdInv_init (nfcState : NfcState) : CmdInv { nfcState := nfcState } :=
  ⟨⟨rfl, fun hd => by simp at hd, rfl, fun e he => by simp at he, by simp, by simp⟩,
    fun hne => absurd rfl hne⟩

theorem cmd_window_safe (prediscover : Nat → Bool) (nfcState : NfcState) (es : List CmdEvent)
    (hes : StepsOk (CmdState.step prediscover) (fun s e => e.Ok s) { nfcState := nfcState } es) :
    ∃ t, run (CmdState.step prediscover) { nfcState := nfcState } es = some t ∧
      (t.nciCmdWindow = 0 ∨ t.nciCmdWindow = 1) ∧
      t.outstanding.length ≤ 1 ∧
      t.nciCmdWindow + t.outstanding.length + granted t.flags = 1 ∧
      (t.nciCmdXmitQ ≠ [] → t.outstanding ≠ [] ∨ t.flags.controlGranted = true) ∧
      inEpoch t.submitted t.epoch = inEpoch t.written t.epoch ++ t.nciCmdXmitQ ∧
      ∀ e < t.epoch, inEpoch t.written e <+: inEpoch t.submitted e := by
  obtain ⟨t, ht, hinv⟩ := run_invariant (fun s e h he => cmdInv_step h he) es _
    (cmdInv_init nfcState) hes
  have hbal := hinv.books.balance
  refine ⟨t, ht, by omega, by omega, hbal, ?_, hinv.books.fifo, hinv.books.past⟩
  intro hne
  have hw := hinv.waits hne
  by_cases hg : t.flags.controlGranted = true
  · exact Or.inr hg
  · refine Or.inl fun hnil => ?_
    simp [hw, hnil, granted, hg] at hbal

end Steps

/-! ## Flushes, and responses behind the HAL's back -/

def coreCmd (oid : UInt8) : CmdEvent := .sendCmd [0x20, oid, 0]
def coreRsp (oid : UInt8) : CmdEvent := .message [0x40, oid, 1, 0]

/-- The HAL reports the end of pre-discovery only while it has control. -/
def CmdEvent.PreDiscoverOk (s : CmdState) (e : CmdEvent) : Prop :=
  e = .preDiscoverCplt → s.flags.controlGranted = true

instance (s : CmdState) (e : CmdEvent) : Decidable (e.PreDiscoverOk s) :=
  inferInstanceAs (Decidable (_ → _))

instance (s : CmdState) : (e : CmdEvent) → Decidable (e.Ok s)
  | .preDiscoverCplt => inferInstanceAs (Decidable (_ = _))
  | .message _ => inferInstanceAs (Decidable (_ → _))
  | .sendCmd _ | .sendVsCommand _ _ _ | .sendRawVsCommand _ _ | .cmdTimeout | .requestControl
  | .releaseControl | .discoveryStart _ | .deactivate _ | .cleanup | .setState _ => .isTrue trivial

/-- A flush frees the second of three commands, so what was written is no prefix of
what was submitted; and a response repeated while the HAL has control reopens the
window, so that two commands end up unanswered. -/
theorem cmd_window_unsafe :
    (StepsOk (CmdState.step fun _ => true) (fun s e => e.PreDiscoverOk s) {}
        [coreCmd 0, coreCmd 1, .cleanup, coreCmd 2] ∧
      (run (CmdState.step fun _ => true) {} [coreCmd 0, coreCmd 1, .cleanup, coreCmd 2]).map
        (fun t => (t.submitted.map (·.2.bytes), t.written.map (·.2.bytes))) =
        some ([[0x20, 0, 0], [0x20, 1, 0], [0x20, 2, 0]], [[0x20, 0, 0], [0x20, 2, 0]])) ∧
    (StepsOk (CmdState.step fun _ => true) (fun s e => e.PreDiscoverOk s) {}
        [coreCmd 0, coreRsp 0, .requestControl, coreCmd 1, coreRsp 0, .releaseControl, coreCmd 2] ∧
      (run (CmdState.step fun _ => true) {}
        [coreCmd 0, coreRsp 0, .requestControl, coreCmd 1, coreRsp 0, .releaseControl, coreCmd 2]).map
        (fun t => t.outstanding.map (·.bytes)) = some [[0x20, 1, 0], [0x20, 2, 0]]) := by
  refine ⟨⟨by decide +kernel, by decide +kernel⟩, by decide +kernel, by decide +kernel⟩

/-- The HAL takes and returns control between two commands and their responses. -/
theorem cmd_window_safe_with_grant :
    ∃ t, run (CmdState.step fun _ => true) {}
        [coreCmd 0, coreCmd 1, .requestControl, coreRsp 0, coreRsp 1, coreCmd 2, .releaseControl] =
          some t ∧
      inEpoch t.submitted t.epoch = inEpoch t.written t.epoch ++ t.nciCmdXmitQ := by
  obtain ⟨t, ht, -, -, -, -, hfifo, -⟩ := cmd_window_safe (fun _ => true) .idle
    [coreCmd 0, coreCmd 1, .requestControl, coreRsp 0, coreRsp 1, coreCmd 2, .releaseControl]
    (by decide +kernel)
  exact ⟨t, ht, hfifo⟩

end NfcStack.Nfc
