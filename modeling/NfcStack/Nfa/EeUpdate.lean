import NfcStack.Lib.Run
import NfcStack.Lib.Bytes
import NfcStack.Nfa.EeLmrt
import NfcStack.Nfa.EeSizes

/- Updates of the routing table (`nfa_ee_act.cc`: `nfa_ee_api_update_now`,
   `nfa_ee_rout_timeout`, `nfa_ee_need_recfg`, `nfa_ee_update_rout`,
   `nfa_ee_nci_wait_rsp`, `nfa_ee_report_update_evt`). A request is kept as a bit of
   `ee_cfged` until the update has been started, and then as a bit of `ee_wait_evt`
   until the last command is answered.

   What is proved:
     1. `Tracks`: what the two bits and `wait_rsp` say about the requests and the
        commands so far. `tracks_routTimeout`, `tracks_nciWaitRsp`: it is kept.
     2. `cfgApply_wait`: a change of the configuration leaves them as they are.
     3. `updated_evt_exact`: each request that is accepted is reported once, with no
        command unanswered, if no timer expires while the bit is set and no request
        waits. `updated_evt_spurious`: the bit is also the one of the host's block.

   The events are those that `nfa_ee_evt_hdlr` lets pass in `INIT_DONE`. -/
namespace NfcStack.Nfa
open NfcStack.Lib

/-! ## The code -/

/-- What a handler does towards the NFCC and the application. -/
inductive Out where
  | setRouting (c : SetRouting)
  | updatedEvt (ok : Bool)
  deriving DecidableEq, Repr

def needRecfg (s : Ee) : Bool :=
  (s.eeCfged != 0 || s.eeCfgSts != 0) &&
    (s.eeCfgSts &&& stsChanged != 0 ||
      s.aidBlocks.any fun k => s.ecbFlags k != 0 && s.eeCfged &&& ecbToMask k != 0)

/-- Whether a block has a route, at the end of an update. -/
def Ecb.hasRoutes (cb : Ecb) : Bool :=
  cb.tech.switchOn ||| cb.tech.switchOff ||| cb.tech.batteryOff ||| cb.proto.switchOn |||
    cb.proto.switchOff ||| cb.proto.batteryOff != 0 || !cb.aids.isEmpty || !cb.sysCodes.isEmpty

def updateRout (env : EeEnv) (s : Ee) : Ee × List SetRouting :=
  let (s, cmds) := lmrtToNfcc env s
  ({ s with
    eeCfgSts := s.eeCfgSts &&& stsPrev
    eeCfged := ((List.finRange nfaEeNumEcbs).filter fun k => (s.ecb k).hasRoutes).foldl
      (fun m k => m ||| ecbToMask k) 0
    ecbFlags := fun _ => 0 }, cmds)

/-- `nfa_ee_report_update_evt`. -/
def reportUpdateEvt (s : Ee) : Ee × List Out :=
  if s.waitRsp = 0 then
    let s := { s with eeWaitEvt := s.eeWaitEvt &&& ~~~waitUpdateRsp }
    if s.eeWaitEvt &&& waitUpdate ≠ 0 then
      ({ s with eeWaitEvt := s.eeWaitEvt &&& ~~~waitUpdate }, [.updatedEvt true])
    else (s, [])
  else (s, [])

def routTimeout (env : EeEnv) (s : Ee) : Ee × List Out :=
  let eeCfged := s.eeCfged
  let (s, cmds) := if needRecfg s then updateRout env s else (s, [])
  let s := if s.waitRsp ≠ 0 then { s with eeWaitEvt := s.eeWaitEvt ||| waitUpdateRsp } else s
  if eeCfged &&& cfgedUpdateNow ≠ 0 then
    let s := { s with eeWaitEvt := s.eeWaitEvt ||| waitUpdate }
    if s.waitRsp = 0 then
      let (s, outs) := reportUpdateEvt s
      (s, cmds.map .setRouting ++ outs)
    else (s, cmds.map .setRouting)
  else (s, cmds.map .setRouting)

def apiUpdateNow (env : EeEnv) (s : Ee) : Ee × List Out :=
  if s.eeWaitEvt &&& waitUpdateAll ≠ 0 then (s, [.updatedEvt false])
  else routTimeout env (s.addCfged cfgedUpdateNow)

/-- `nfa_ee_nci_wait_rsp`, for the response to a routing command. -/
def nciWaitRsp (s : Ee) : Ee × List Out :=
  reportUpdateEvt (if s.waitRsp ≠ 0 then { s with waitRsp := s.waitRsp - 1 } else s)

/-! ## Events -/

inductive UpdEvent where
  | cfg (e : CfgEvent)
  | updateNow
  | timeout
  | waitRsp

/-- What the application and the NFCC see. -/
inductive Note where
  | accepted
  | answered
  | out (o : Out)
  deriving DecidableEq, Repr

structure Upd where
  ee : Ee
  log : List Note

def Upd.after (u : Upd) (front : List Note) (r : Ee × List Out) : Upd :=
  ⟨r.1, u.log ++ front ++ r.2.map .out⟩

def updApply (env : EeEnv) (u : Upd) : UpdEvent → Upd
  | .cfg e => { u with ee := cfgApply env u.ee e }
  | .updateNow =>
    u.after (if u.ee.eeWaitEvt &&& waitUpdateAll ≠ 0 then [] else [.accepted]) (apiUpdateNow env u.ee)
  | .timeout => u.after [] (routTimeout env u.ee)
  | .waitRsp => u.after [.answered] (nciWaitRsp u.ee)

def updStep (env : EeEnv) (u : Upd) (e : UpdEvent) : Option Upd := some (updApply env u e)

/-! ## What is exact -/

/-- One note: whether a request waits to be reported, and how many commands are
unanswered. A second request before the first is reported, and a report without a request
or with a command unanswered, are wrong. -/
def watchStep : Bool × Nat → Note → Option (Bool × Nat)
  | (w, n), .accepted => if w then none else some (true, n)
  | (w, n), .answered => some (w, n - 1)
  | (w, n), .out (.setRouting _) => some (w, n + 1)
  | (w, n), .out (.updatedEvt true) => if w ∧ n = 0 then some (false, n) else none
  | (w, n), .out (.updatedEvt false) => some (w, n)

def watch (x : Bool × Nat) (log : List Note) : Option (Bool × Nat) := log.foldlM watchStep x

/-- Nothing is wrong, and when no command is unanswered no request waits. -/
def Exact (log : List Note) : Prop :=
  ∃ w n, watch (false, 0) log = some (w, n) ∧ (n = 0 → w = false)

/-- The commands that an update in this state would send are counted in eight bits. -/
def countable (env : EeEnv) (s : Ee) : Prop :=
  needRecfg s = true → s.waitRsp + (lmrtToNfcc env s).2.length < 2 ^ 8

instance (env : EeEnv) (s : Ee) : Decidable (countable env s) := inferInstanceAs (Decidable (_ → _))

/-- No timer expires while the bit of a request is set and none waits. -/
def UpdOk (env : EeEnv) (u : Upd) : UpdEvent → Prop
  | .cfg _ => True
  | .updateNow =>
    u.ee.eeWaitEvt &&& waitUpdateAll ≠ 0 ∨ countable env (u.ee.addCfged cfgedUpdateNow)
  | .timeout =>
    (u.ee.eeCfged &&& cfgedUpdateNow = 0 ∨ u.ee.eeWaitEvt &&& waitUpdate ≠ 0) ∧ countable env u.ee
  | .waitRsp => True

instance (env : EeEnv) (u : Upd) : ∀ e, Decidable (UpdOk env u e)
  | .cfg _ => inferInstanceAs (Decidable True)
  | .updateNow => inferInstanceAs (Decidable (_ ∨ _))
  | .timeout => inferInstanceAs (Decidable (_ ∧ _))
  | .waitRsp => inferInstanceAs (Decidable True)

/-! ## The configuration -/

section Config
variable {env : EeEnv} {s : Ee}

/-- `ee_wait_evt` and `wait_rsp` are the same. -/
structure SameWait (s t : Ee) : Prop where
  evt : t.eeWaitEvt = s.eeWaitEvt
  rsp : t.waitRsp = s.waitRsp

theorem SameWait.trans {t u : Ee} (h : SameWait s t) (h' : SameWait t u) : SameWait s u :=
  ⟨h'.evt.trans h.evt, h'.rsp.trans h.rsp⟩

theorem aidAdded_wait (s : Ee) (k : EcbIx) (cb : Ecb) : SameWait s (aidAdded (s.setEcb k cb) k) := by
  unfold aidAdded
  dsimp only
  split
  · exact ⟨rfl, rfl⟩
  · exact ⟨rfl, rfl⟩

theorem addAid_wait (k : EcbIx) (aid : Bytes) (powerState aidInfo : UInt8) :
    SameWait s (apiAddAid env s k aid powerState aidInfo) := by
  unfold apiAddAid
  dsimp only
  split
  · split
    · split
      · exact ⟨rfl, rfl⟩
      · exact aidAdded_wait s k _
    · exact ⟨rfl, rfl⟩
  · split
    · exact ⟨rfl, rfl⟩
    · split
      · split
        · exact ⟨rfl, rfl⟩
        · exact aidAdded_wait s k _
      · exact ⟨rfl, rfl⟩

theorem addFlags_wait (s : Ee) (k : EcbIx) (f : UInt8) (c : Prop) [Decidable c] :
    SameWait s (if c then s.addFlags k f else s) := by
  split
  · exact ⟨rfl, rfl⟩
  · exact ⟨rfl, rfl⟩

theorem removeAid_wait (aid : Bytes) : SameWait s (apiRemoveAid s aid) := by
  unfold apiRemoveAid
  split
  · rename_i k entry _
    cases (s.ecb k).aids[entry]? with
    | none => exact ⟨rfl, rfl⟩
    | some e =>
      show SameWait s (removeAidAt s k entry e)
      unfold removeAidAt
      dsimp only
      refine SameWait.trans (addFlags_wait s k flagAid (e.rtInfo &&& nfaEeAeRoute ≠ 0)) ?_
      refine SameWait.trans (addFlags_wait _ k flagVs (e.rtInfo &&& nfaEeAeVs ≠ 0)) ?_
      exact ⟨rfl, rfl⟩
  · split
    · exact ⟨rfl, rfl⟩
    · exact ⟨rfl, rfl⟩

theorem addSysCode_wait (k : EcbIx) (nfceeId : UInt8) (code : Bytes) (powerState : UInt8) :
    SameWait s (apiAddSysCode env s k nfceeId code powerState) := by
  unfold apiAddSysCode
  dsimp only
  split
  · split
    · split
      · exact ⟨rfl, rfl⟩
      · exact ⟨rfl, rfl⟩
    · exact ⟨rfl, rfl⟩
  · split
    · exact ⟨rfl, rfl⟩
    · split
      · split
        · exact ⟨rfl, rfl⟩
        · split
          · exact ⟨rfl, rfl⟩
          · exact ⟨rfl, rfl⟩
      · exact ⟨rfl, rfl⟩

theorem removeSysCode_wait (code : Bytes) : SameWait s (apiRemoveSysCode s code) := by
  unfold apiRemoveSysCode
  split
  · rename_i k entry _
    cases (s.ecb k).sysCodes[entry]? with
    | none => exact ⟨rfl, rfl⟩
    | some e =>
      show SameWait s (removeSysCodeAt s k entry e)
      unfold removeSysCodeAt
      dsimp only
      refine SameWait.trans (addFlags_wait s k flagSyscode (e.vsInfo &&& nfaEeAeRoute ≠ 0)) ?_
      refine SameWait.trans (addFlags_wait _ k flagVs (e.vsInfo &&& nfaEeAeVs ≠ 0)) ?_
      exact ⟨rfl, rfl⟩
  · exact ⟨rfl, rfl⟩

theorem setCfg_wait (kind : MaskKind) (k : EcbIx) (m : Masks) :
    SameWait s (apiSetCfg env kind s k m) := by
  unfold apiSetCfg
  dsimp only
  split
  · exact ⟨rfl, rfl⟩
  · split
    · exact ⟨rfl, rfl⟩
    · split
      · exact ⟨rfl, rfl⟩
      · exact ⟨rfl, rfl⟩

theorem clearCfg_wait (kind : MaskKind) (k : EcbIx) (m : Masks) :
    SameWait s (apiClearCfg env kind s k m) := by
  unfold apiClearCfg
  dsimp only
  split
  · exact ⟨rfl, rfl⟩
  · exact ⟨rfl, rfl⟩

theorem modeSetRsp_wait (nfceeId : UInt8) (ok activate : Bool) :
    SameWait s (nciModeSetRsp s nfceeId ok activate) := by
  unfold nciModeSetRsp
  split
  · exact ⟨rfl, rfl⟩
  · dsimp only
    split
    · exact ⟨rfl, rfl⟩
    · split
      · exact ⟨rfl, rfl⟩
      · exact ⟨rfl, rfl⟩
    · exact ⟨rfl, rfl⟩
    · exact ⟨rfl, rfl⟩

theorem cfgApply_wait (e : CfgEvent) : SameWait s (cfgApply env s e) := by
  cases e with
  | setTechCfg k m => exact setCfg_wait .tech k m
  | setProtoCfg k m => exact setCfg_wait .proto k m
  | clearTechCfg k m => exact clearCfg_wait .tech k m
  | clearProtoCfg k m => exact clearCfg_wait .proto k m
  | addAid k aid _ powerState aidInfo => exact addAid_wait k aid powerState aidInfo
  | removeAid aid => exact removeAid_wait aid
  | addSysCode k nfceeId code _ powerState => exact addSysCode_wait k nfceeId code powerState
  | removeSysCode code => exact removeSysCode_wait code
  | clearRoutingTable _ _ _ => exact ⟨rfl, rfl⟩
  | modeSetRsp nfceeId ok activate => exact modeSetRsp_wait nfceeId ok activate

end Config

/-! ## Requests and commands -/

section Watch
variable {env : EeEnv} {s : Ee} {w : Bool} {n : Nat}

theorem watch_append (x : Bool × Nat) (a b : List Note) :
    watch x (a ++ b) = (watch x a).bind fun y => watch y b :=
  List.foldlM_append

theorem watch_sent (w : Bool) (cmds : List SetRouting) : ∀ n,
    watch (w, n) ((cmds.map Out.setRouting).map Note.out) = some (w, n + cmds.length) := by
  induction cmds with
  | nil => exact fun _ => rfl
  | cons c cmds ih =>
    intro n
    show watch (w, n + 1) ((cmds.map Out.setRouting).map Note.out) = _
    rw [ih, List.length_cons]
    congr 2
    omega

/-- The control block knows how many commands are unanswered; if any is, a request may
wait. -/
structure Tracks (s : Ee) (w : Bool) (n : Nat) : Prop where
  rsp : s.waitRsp = n
  small : n < 2 ^ 8
  waits : w = true ↔ s.eeWaitEvt &&& waitUpdate ≠ 0
  busy : w = true → n ≠ 0
  pending : n ≠ 0 → s.eeWaitEvt &&& waitUpdateRsp ≠ 0

theorem Tracks.same {t : Ee} (h : Tracks s w n) (hst : SameWait s t) : Tracks t w n := by
  refine ⟨hst.rsp.trans h.rsp, h.small, ?_, h.busy, ?_⟩
  · rw [hst.evt]
    exact h.waits
  · rw [hst.evt]
    exact h.pending

theorem tracks_report (hrsp : s.waitRsp = 0) (hwaits : w = true ↔ s.eeWaitEvt &&& waitUpdate ≠ 0) :
    watch (w, 0) ((reportUpdateEvt s).2.map Note.out) = some (false, 0) ∧
      Tracks (reportUpdateEvt s).1 false 0 := by
  have hkept : (s.eeWaitEvt &&& ~~~waitUpdateRsp) &&& waitUpdate = s.eeWaitEvt &&& waitUpdate := by
    rw [UInt8.and_assoc]
    rfl
  unfold reportUpdateEvt
  rw [if_pos hrsp]
  dsimp only
  rw [hkept]
  split
  · rename_i hevt
    rw [hwaits.mpr hevt]
    refine ⟨rfl, hrsp, by decide, ?_, by simp, by simp⟩
    rw [clear_and_mask]
    decide
  · rename_i hevt
    have hw : w = false := by
      cases w with
      | true => exact absurd (hwaits.mp rfl) hevt
      | false => rfl
    rw [hw]
    refine ⟨rfl, hrsp, by decide, ?_, by simp, by simp⟩
    rw [hkept]
    simpa using hevt

theorem tracks_nciWaitRsp (h : Tracks s w n) :
    ∃ w', watch (w, n) (Note.answered :: (nciWaitRsp s).2.map Note.out) = some (w', n - 1) ∧
      Tracks (nciWaitRsp s).1 w' (n - 1) := by
  have hdec : (if s.waitRsp ≠ 0 then { s with waitRsp := s.waitRsp - 1 } else s) =
      { s with waitRsp := n - 1 } := by
    split
    · rw [h.rsp]
    · rename_i hzero
      have hn : n = 0 := by
        rw [← h.rsp]
        exact not_not.mp hzero
      rw [hn]
      cases s
      simp only [Ee.mk.injEq, true_and]
      simpa using hzero
  unfold nciWaitRsp
  rw [hdec]
  show ∃ w', watch (w, n - 1) _ = _ ∧ _
  by_cases hlast : n - 1 = 0
  · rw [hlast]
    obtain ⟨hwatch, ht⟩ := tracks_report (s := { s with waitRsp := 0 }) rfl h.waits
    exact ⟨false, hwatch, ht⟩
  · have hsame : reportUpdateEvt { s with waitRsp := n - 1 } = ({ s with waitRsp := n - 1 }, []) :=
      if_neg hlast
    rw [hsame]
    exact ⟨w, rfl, rfl, by have := h.small; omega, h.waits, fun _ => hlast, fun _ => h.pending (by omega)⟩

theorem updateRout_wait (hrsp : s.waitRsp < 2 ^ 8) :
    (updateRout env s).1.eeWaitEvt = s.eeWaitEvt ∧
      (updateRout env s).1.waitRsp = (s.waitRsp + (updateRout env s).2.length) % 2 ^ 8 := by
  obtain ⟨-, -, hevt, hwait⟩ := lmrtToNfcc_kept env hrsp
  exact ⟨hevt, hwait⟩

theorem tracks_routTimeout (hrsp : s.waitRsp = n) (hcount : countable env s) (hsmall : n < 2 ^ 8)
    (hwaits : w = true ↔ s.eeCfged &&& cfgedUpdateNow ≠ 0 ∨ s.eeWaitEvt &&& waitUpdate ≠ 0)
    (hbusy : w = true → s.eeCfged &&& cfgedUpdateNow ≠ 0 ∨ n ≠ 0) :
    ∃ w' n', watch (w, n) ((routTimeout env s).2.map Note.out) = some (w', n') ∧
      Tracks (routTimeout env s).1 w' n' := by
  obtain ⟨t, cmds, hupd, hevt, hwait, hlt⟩ : ∃ t cmds,
      (if needRecfg s then updateRout env s else (s, [])) = (t, cmds) ∧
      t.eeWaitEvt = s.eeWaitEvt ∧ t.waitRsp = n + cmds.length ∧ n + cmds.length < 2 ^ 8 := by
    by_cases hneed : needRecfg s = true
    · rw [if_pos hneed]
      obtain ⟨hevt, hwait⟩ := @updateRout_wait env s (by omega)
      have hlt : n + (updateRout env s).2.length < 2 ^ 8 := by
        have hlen := hcount hneed
        rw [hrsp] at hlen
        exact hlen
      rw [hrsp, Nat.mod_eq_of_lt hlt] at hwait
      exact ⟨(updateRout env s).1, (updateRout env s).2, rfl, hevt, hwait, hlt⟩
    · rw [if_neg hneed]
      exact ⟨s, [], rfl, rfl, hrsp, hsmall⟩
  unfold routTimeout
  dsimp only
  rw [hupd]
  dsimp only
  obtain ⟨t', ht', hwait', hevt', hpend'⟩ : ∃ t',
      (if t.waitRsp ≠ 0 then { t with eeWaitEvt := t.eeWaitEvt ||| waitUpdateRsp } else t) = t' ∧
      t'.waitRsp = n + cmds.length ∧ t'.eeWaitEvt &&& waitUpdate = s.eeWaitEvt &&& waitUpdate ∧
      (n + cmds.length ≠ 0 → t'.eeWaitEvt &&& waitUpdateRsp ≠ 0) := by
    refine ⟨_, rfl, ?_⟩
    split
    · refine ⟨hwait, ?_, fun _ => ?_⟩
      · show (t.eeWaitEvt ||| waitUpdateRsp) &&& waitUpdate = _
        rw [or_and_mask, hevt, show waitUpdateRsp &&& waitUpdate = 0 by decide, UInt8.or_zero]
      · show (t.eeWaitEvt ||| waitUpdateRsp) &&& waitUpdateRsp ≠ 0
        rw [or_self_and_mask]
        decide
    · rename_i hzero
      refine ⟨hwait, by rw [hevt], fun h => absurd ?_ hzero⟩
      rw [hwait]
      exact h
  rw [ht']
  split
  · -- the request is reported here if no command was sent
    rename_i hbit
    have hw : w = true := hwaits.mpr (.inl hbit)
    have hset : (t'.eeWaitEvt ||| waitUpdate) &&& waitUpdate ≠ 0 := by
      rw [or_self_and_mask]
      decide
    split
    · rename_i hzero
      obtain ⟨hwatch, htracks⟩ := tracks_report (w := w)
        (s := { t' with eeWaitEvt := t'.eeWaitEvt ||| waitUpdate }) hzero (iff_of_true hw hset)
      have hnone : n + cmds.length = 0 := by
        rw [← hwait']
        exact hzero
      refine ⟨false, 0, ?_, htracks⟩
      rw [List.map_append, watch_append, watch_sent, hnone]
      exact hwatch
    · rename_i hne
      rw [hwait'] at hne
      refine ⟨w, n + cmds.length, watch_sent _ _ _, hwait', hlt, iff_of_true hw hset, fun _ => hne,
        fun h => ?_⟩
      show (t'.eeWaitEvt ||| waitUpdate) &&& waitUpdateRsp ≠ 0
      rw [or_and_mask, show waitUpdate &&& waitUpdateRsp = 0 by decide, UInt8.or_zero]
      exact hpend' h
  · rename_i hbit
    have hiff : w = true ↔ t'.eeWaitEvt &&& waitUpdate ≠ 0 := by
      rw [hwaits, hevt']
      exact or_iff_right hbit
    refine ⟨w, n + cmds.length, watch_sent _ _ _, hwait', hlt, hiff, fun hw => ?_, hpend'⟩
    have hn := (hbusy hw).resolve_left hbit
    omega

end Watch

/-! ## Runs -/

section Runs
variable {env : EeEnv} {u : Upd}

/-- The notes so far are right, and the control block knows what they come to. -/
def Seen (u : Upd) : Prop := ∃ w n, watch (false, 0) u.log = some (w, n) ∧ Tracks u.ee w n

theorem seen_after {x y : Bool × Nat} (hlog : watch (false, 0) u.log = some x) (front : List Note)
    (r : Ee × List Out) (hwatch : watch x (front ++ r.2.map Note.out) = some y)
    (ht : Tracks r.1 y.1 y.2) : Seen (u.after front r) := by
  refine ⟨y.1, y.2, ?_, ht⟩
  show watch (false, 0) (u.log ++ front ++ r.2.map Note.out) = _
  rw [List.append_assoc, watch_append, hlog]
  exact hwatch

theorem clear_of_all {x : UInt8} (h : x &&& waitUpdateAll = 0) :
    x &&& waitUpdate = 0 ∧ x &&& waitUpdateRsp = 0 := by
  have hupd : x &&& waitUpdate = (x &&& waitUpdateAll) &&& waitUpdate := by
    rw [UInt8.and_assoc]
    rfl
  have hrsp : x &&& waitUpdateRsp = (x &&& waitUpdateAll) &&& waitUpdateRsp := by
    rw [UInt8.and_assoc]
    rfl
  rw [hupd, hrsp, h]
  exact ⟨UInt8.zero_and, UInt8.zero_and⟩

theorem seen_updateNow (h : Seen u) (hok : UpdOk env u .updateNow) :
    Seen (updApply env u .updateNow) := by
  obtain ⟨w, n, hlog, ht⟩ := h
  show Seen (u.after _ (apiUpdateNow env u.ee))
  unfold apiUpdateNow
  split
  · exact seen_after hlog [] _ rfl ht
  · rename_i hfree
    obtain ⟨hupd, hrsp⟩ := clear_of_all (not_not.mp hfree)
    have hn : n = 0 := by
      by_contra hne
      exact ht.pending hne hrsp
    have hw : w = false := by
      cases w with
      | false => rfl
      | true => exact absurd hupd (ht.waits.mp rfl)
    subst hn hw
    have hbit : (u.ee.addCfged cfgedUpdateNow).eeCfged &&& cfgedUpdateNow ≠ 0 := by
      show (u.ee.eeCfged ||| cfgedUpdateNow) &&& cfgedUpdateNow ≠ 0
      rw [or_self_and_mask]
      decide
    obtain ⟨w', n', hwatch, ht'⟩ := tracks_routTimeout (s := u.ee.addCfged cfgedUpdateNow) (w := true)
      ht.rsp (hok.resolve_left hfree) (by decide) (iff_of_true rfl (.inl hbit)) (fun _ => .inl hbit)
    exact seen_after hlog [.accepted] _ hwatch ht'

theorem seen_timeout (h : Seen u) (hok : UpdOk env u .timeout) :
    Seen (updApply env u .timeout) := by
  obtain ⟨w, n, hlog, ht⟩ := h
  obtain ⟨hquiet, hcount⟩ := hok
  have hwaits : w = true ↔
      u.ee.eeCfged &&& cfgedUpdateNow ≠ 0 ∨ u.ee.eeWaitEvt &&& waitUpdate ≠ 0 := by
    constructor
    · exact fun hw => .inr (ht.waits.mp hw)
    · intro hor
      rcases hor with hbit | hevt
      · exact ht.waits.mpr (hquiet.resolve_left hbit)
      · exact ht.waits.mpr hevt
  obtain ⟨w', n', hwatch, ht'⟩ := tracks_routTimeout ht.rsp hcount ht.small hwaits
    (fun hw => .inr (ht.busy hw))
  exact seen_after hlog [] _ hwatch ht'

theorem seen_waitRsp (h : Seen u) : Seen (updApply env u .waitRsp) := by
  obtain ⟨w, n, hlog, ht⟩ := h
  obtain ⟨w', hwatch, ht'⟩ := tracks_nciWaitRsp ht
  exact seen_after hlog [.answered] _ hwatch ht'

theorem seen_step (h : Seen u) {e : UpdEvent} (hok : UpdOk env u e) : Seen (updApply env u e) := by
  cases e with
  | cfg e =>
    obtain ⟨w, n, hlog, ht⟩ := h
    exact ⟨w, n, hlog, ht.same (cfgApply_wait e)⟩
  | updateNow => exact seen_updateNow h hok
  | timeout => exact seen_timeout h hok
  | waitRsp => exact seen_waitRsp h

structure Idle (s : Ee) : Prop where
  evt : s.eeWaitEvt &&& waitUpdateAll = 0
  rsp : s.waitRsp = 0

theorem seen_idle {s : Ee} (h : Idle s) : Seen ⟨s, []⟩ := by
  obtain ⟨hupd, -⟩ := clear_of_all h.evt
  exact ⟨false, 0, rfl, h.rsp, by decide, by simp [hupd], by simp, by simp⟩

theorem Seen.exact (h : Seen u) : Exact u.log := by
  obtain ⟨w, n, hlog, ht⟩ := h
  refine ⟨w, n, hlog, fun hn => ?_⟩
  cases w with
  | false => rfl
  | true => exact absurd hn (ht.busy rfl)

theorem run_answers : ∀ (n : Nat) {u : Upd} {w : Bool}, watch (false, 0) u.log = some (w, n) →
    Tracks u.ee w n → ∃ v, run (updStep env) u (List.replicate n .waitRsp) = some v ∧
      watch (false, 0) v.log = some (false, 0) := by
  intro n
  induction n with
  | zero =>
    intro u w hlog ht
    have hw : w = false := by
      cases w with
      | false => rfl
      | true => exact absurd rfl (ht.busy rfl)
    exact ⟨u, rfl, by rw [hlog, hw]⟩
  | succ n ih =>
    intro u w hlog ht
    obtain ⟨w', hwatch, ht'⟩ := tracks_nciWaitRsp ht
    have hlog' : watch (false, 0) (updApply env u .waitRsp).log = some (w', n) := by
      show watch (false, 0) (u.log ++ [.answered] ++ (nciWaitRsp u.ee).2.map Note.out) = _
      rw [List.append_assoc, watch_append, hlog]
      exact hwatch
    exact ih hlog' ht'

end Runs

theorem updated_evt_exact (env : EeEnv) (s : Ee) (hidle : Idle s) (es : List UpdEvent)
    (hok : StepsOk (updStep env) (UpdOk env) ⟨s, []⟩ es) :
    ∃ u, run (updStep env) ⟨s, []⟩ es = some u ∧ Exact u.log ∧
      ∃ n v, run (updStep env) u (List.replicate n .waitRsp) = some v ∧
        watch (false, 0) v.log = some (false, 0) := by
  obtain ⟨u, hrun, hseen⟩ := @run_invariant _ _ (updStep env) (UpdOk env) Seen
    (fun u e h he => ⟨updApply env u e, rfl, seen_step h he⟩) es ⟨s, []⟩ (seen_idle hidle) hok
  refine ⟨u, hrun, hseen.exact, ?_⟩
  obtain ⟨w, n, hlog, ht⟩ := hseen
  exact ⟨n, run_answers n hlog ht⟩

/-- A technology is routed to an NFCEE, the update is requested and its command answered. -/
theorem updated_evt_exact_answered :
    ∃ u, run (updStep aidEnv) ⟨oneNfcee statusActive, []⟩
        [.cfg (.setTechCfg 0 techA), .updateNow, .waitRsp] = some u ∧ Exact u.log ∧
      ∃ n v, run (updStep aidEnv) u (List.replicate n .waitRsp) = some v ∧
        watch (false, 0) v.log = some (false, 0) :=
  updated_evt_exact aidEnv (oneNfcee statusActive) ⟨rfl, rfl⟩ _ (by decide +kernel)

/-- A technology is routed to the host, the timer expires and the command is answered: an
update is reported that was not requested. -/
theorem updated_evt_spurious :
    ∃ u, run (updStep aidEnv) ⟨oneNfcee statusActive, []⟩
        [.cfg (.setTechCfg cb4Dh techA), .timeout, .waitRsp] = some u ∧
      u.log = [.out (.setRouting ⟨false, 1, [0, 3, 0, 1, 0]⟩), .answered, .out (.updatedEvt true)] ∧
      ¬ Exact u.log := by
  have hlog : (updApply aidEnv (updApply aidEnv (updApply aidEnv ⟨oneNfcee statusActive, []⟩
      (.cfg (.setTechCfg cb4Dh techA))) .timeout) .waitRsp).log =
      [.out (.setRouting ⟨false, 1, [0, 3, 0, 1, 0]⟩), .answered, .out (.updatedEvt true)] := by
    decide +kernel
  refine ⟨_, rfl, hlog, fun h => ?_⟩
  obtain ⟨w, n, hwatch, -⟩ := h
  rw [hlog] at hwatch
  cases hwatch

end NfcStack.Nfa
