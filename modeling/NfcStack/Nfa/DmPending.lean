import NfcStack.Nfa.DmConfig

/- The commands that wait for a response of the controller. Each command is counted, and a
   bit of a mask says whether an application asked for it: the bit with the number of the
   commands in front of it. A response takes the lowest bit, and the others move down.

   What is proved:
     1. `pending_call`, `pending_response`: the mask is the list of the outstanding
        commands, by a call and by a response.
     2. `setConfig_events`: over any sequence of calls and responses, an event is reported for
        the responses to an application's commands and for no others. -/
namespace NfcStack.Nfa

/-- `NFC_SET_CONFIG_REVT`: the control block, and whether `NFA_DM_SET_CONFIG_EVT` is reported. -/
def setConfigRsp (cb : DmCb) : DmCb × Bool :=
  (if cb.setcfgPendingNum > 0 then
    { cb with
      setcfgPendingMask := cb.setcfgPendingMask >>> 1
      setcfgPendingNum := cb.setcfgPendingNum - 1 }
  else cb, cb.setcfgPendingMask.getLsbD 0)

/-- A call of `nfa_dm_check_set_config`, or the response to the oldest command. -/
inductive ConfigOp where
  | call (dta : Bool) (list : List UInt8) (appInit hasBuf : Bool)
  | response

/-- The control block and the controller: the origins of the commands that have not been answered,
oldest first, those of the commands that have been, and whether each response was reported. -/
structure ConfigSys where
  cb : DmCb
  outstanding : List Bool
  answered : List Bool
  reported : List Bool

/-- One step. Without an outstanding command no response arrives. -/
def configStep (nciVersion : Nat) (s : ConfigSys) : ConfigOp → ConfigSys
  | .call dta list appInit hasBuf =>
    let r := checkSetConfig nciVersion dta s.cb list appInit hasBuf
    { s with
      cb := r.cb
      outstanding := if r.sent.isSome then s.outstanding ++ [appInit] else s.outstanding }
  | .response =>
    match s.outstanding with
    | [] => s
    | origin :: rest =>
      ⟨(setConfigRsp s.cb).1, rest, s.answered ++ [origin], s.reported ++ [(setConfigRsp s.cb).2]⟩

def configRun (nciVersion : Nat) (s : ConfigSys) (ops : List ConfigOp) : ConfigSys :=
  ops.foldl (configStep nciVersion) s

structure Pending (cb : DmCb) (outstanding : List Bool) : Prop where
  num : cb.setcfgPendingNum = outstanding.length
  most : outstanding.length ≤ 32
  mask : ∀ (i : Nat) (h : i < outstanding.length), cb.setcfgPendingMask.getLsbD i = outstanding.get ⟨i, h⟩

section Steps
variable {nciVersion : Nat} {cb : DmCb} {outstanding : List Bool} {bytes list : List UInt8} {dta appInit hasBuf : Bool}

theorem Pending.congr {cb' : DmCb} (h : Pending cb outstanding) (hmask : cb'.setcfgPendingMask = cb.setcfgPendingMask)
    (hnum : cb'.setcfgPendingNum = cb.setcfgPendingNum) : Pending cb' outstanding := by
  constructor
  · rw [hnum]
    exact h.num
  · exact h.most
  · rw [hmask]
    exact h.mask

theorem pending_dtaSent (h : Pending cb outstanding) : Pending cb.dtaSent outstanding := by
  unfold DmCb.dtaSent
  split
  · exact h.congr rfl rfl
  · exact h

theorem pending_dtaDone (h : Pending cb outstanding) : Pending cb.dtaDone outstanding := by
  unfold DmCb.dtaDone
  split
  · exact h.congr rfl rfl
  · exact h

theorem pending_pending (h : Pending cb outstanding) (hroom : outstanding.length < 32) :
    Pending (cb.pending appInit) (outstanding ++ [appInit]) := by
  constructor
  · rw [List.length_append]
    show cb.setcfgPendingNum + 1 = _
    rw [h.num]
    rfl
  · rw [List.length_append]
    show outstanding.length + 1 ≤ 32
    omega
  · intro i hi
    rw [List.length_append] at hi
    have hi' : i < outstanding.length + 1 := hi
    have hbit : (1#32 <<< cb.setcfgPendingNum).getLsbD i = decide (i = outstanding.length) := by
      rw [h.num, BitVec.getLsbD_shiftLeft]
      by_cases heq : i = outstanding.length
      · subst heq
        simp [hroom]
      · have : i < outstanding.length := by omega
        simp [heq, this]
    rw [List.get_eq_getElem, List.getElem_append]
    unfold DmCb.pending
    dsimp only
    by_cases heq : i = outstanding.length
    · subst heq
      rw [dif_neg (Nat.lt_irrefl _)]
      split
      · rename_i happ
        rw [BitVec.getLsbD_or, hbit]
        simp [happ]
      · rename_i happ
        rw [BitVec.getLsbD_and, BitVec.getLsbD_not, hbit]
        simp [happ]
    · have hlt : i < outstanding.length := by omega
      rw [dif_pos hlt]
      have hold := h.mask i hlt
      rw [List.get_eq_getElem] at hold
      split
      · rw [BitVec.getLsbD_or, hbit, hold]
        simp [heq]
      · rw [BitVec.getLsbD_and, BitVec.getLsbD_not, hbit, hold]
        have : i < 32 := by omega
        simp [heq, this]

theorem pending_send (h : Pending cb outstanding) (hroom : outstanding.length < 32) :
    Pending (sendSetConfig cb bytes appInit hasBuf).cb
      (if (sendSetConfig cb bytes appInit hasBuf).sent.isSome then outstanding ++ [appInit] else outstanding) := by
  unfold sendSetConfig
  split
  · exact pending_dtaDone (pending_pending (pending_dtaSent h) hroom)
  · exact pending_dtaDone h

theorem pending_call (h : Pending cb outstanding) :
    Pending (checkSetConfig nciVersion dta cb list appInit hasBuf).cb
      (if (checkSetConfig nciVersion dta cb list appInit hasBuf).sent.isSome then outstanding ++ [appInit]
        else outstanding) := by
  unfold checkSetConfig
  split
  · exact h
  · rename_i hfew
    dsimp only
    split
    · exact h.congr rfl rfl
    · split
      · refine pending_send (h.congr rfl rfl) ?_
        have hnum := h.num
        have hfew' : ¬ 32 ≤ cb.setcfgPendingNum := hfew
        omega
      · exact h.congr rfl rfl

theorem pending_response {origin : Bool} (h : Pending cb (origin :: outstanding)) :
    (setConfigRsp cb).2 = origin ∧ Pending (setConfigRsp cb).1 outstanding := by
  have hnum := h.num
  rw [List.length_cons] at hnum
  refine ⟨h.mask 0 (Nat.succ_pos _), ?_⟩
  unfold setConfigRsp
  dsimp only
  rw [if_pos (by omega)]
  constructor
  · show cb.setcfgPendingNum - 1 = _
    omega
  · have := h.most
    rw [List.length_cons] at this
    omega
  · intro i hi
    show (cb.setcfgPendingMask >>> 1).getLsbD i = _
    rw [BitVec.getLsbD_ushiftRight, Nat.add_comm]
    exact h.mask (i + 1) (Nat.succ_lt_succ hi)

end Steps

structure ConfigInv (s : ConfigSys) : Prop where
  pending : Pending s.cb s.outstanding
  events : s.reported = s.answered

theorem configInv_step {nciVersion : Nat} {s : ConfigSys} (h : ConfigInv s) (op : ConfigOp) :
    ConfigInv (configStep nciVersion s op) := by
  cases op with
  | call dta list appInit hasBuf => exact ⟨pending_call h.pending, h.events⟩
  | response =>
    unfold configStep
    dsimp only
    split
    · exact h
    · rename_i origin rest hout
      have hp := h.pending
      rw [hout] at hp
      obtain ⟨hreport, hrest⟩ := pending_response hp
      exact ⟨hrest, by rw [hreport, h.events]⟩

theorem configInv_run {nciVersion : Nat} (ops : List ConfigOp) : ∀ {s : ConfigSys}, ConfigInv s →
    ConfigInv (configRun nciVersion s ops) := by
  induction ops with
  | nil => exact fun h => h
  | cons op ops ih => exact fun h => ih (configInv_step h op)

/-- From a control block without outstanding commands: each response is reported if and only if an
application asked for the command, and the counter is that of the unanswered commands. -/
theorem setConfig_events (nciVersion : Nat) (params : DmParams) (mask : BitVec 32) (eDtaMode : UInt32)
    (ops : List ConfigOp) :
    (configRun nciVersion ⟨⟨params, mask, 0, eDtaMode⟩, [], [], []⟩ ops).reported =
      (configRun nciVersion ⟨⟨params, mask, 0, eDtaMode⟩, [], [], []⟩ ops).answered ∧
    (configRun nciVersion ⟨⟨params, mask, 0, eDtaMode⟩, [], [], []⟩ ops).cb.setcfgPendingNum =
      (configRun nciVersion ⟨⟨params, mask, 0, eDtaMode⟩, [], [], []⟩ ops).outstanding.length := by
  have hinit : ConfigInv ⟨⟨params, mask, 0, eDtaMode⟩, [], [], []⟩ := ⟨⟨rfl, Nat.zero_le 32, nofun⟩, rfl⟩
  have hinv := @configInv_run nciVersion ops _ hinit
  exact ⟨hinv.events, hinv.pending.num⟩

end NfcStack.Nfa
