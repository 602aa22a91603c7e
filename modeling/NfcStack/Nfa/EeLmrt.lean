import NfcStack.Lib.Bytes
import NfcStack.Nfa.EeBlocks

/- The download of the listen mode routing table (`nfa_ee_act.cc`:
   `nfa_ee_lmrt_to_nfcc`, `nfa_ee_route_add_one_ecb_by_route_order`,
   `nfa_ee_check_set_routing` and the four functions that add a block's
   technologies, protocols, AIDs and system codes). The entries are collected in
   one buffer whose first byte counts them; when an entry does not fit, the buffer
   is sent and the entry is moved to its front.

   What is proved:
     1. `Kept`: what a download leaves as it is, and that it counts its commands.
        `kept_checkSetRouting`, `kept_put`: so when the buffer is sent and when an
        entry is added. `kept_routeAddOne`: so when a block adds its entries.
     2. `lmrtToNfcc_kept`: so for the whole download.

   The buffer is the memory that the code writes to, with the positions it
   computes; `NFC_SetRouting` is recorded with its arguments and succeeds. -/
namespace NfcStack.Nfa
open NfcStack.Lib

/-! ## The code -/

abbrev nfaEeRoutBufSize : Nat := 540
abbrev nfaEeRoutMaxTlvSize : Nat := 0xFD

structure SetRouting where
  more : Bool
  numTlv : UInt8
  tlvs : Bytes
  deriving DecidableEq, Repr

structure Lmrt where
  ee : Ee
  buf : Bytes
  maxLen : Nat
  curOffset : Nat
  cmds : List SetRouting
  emptyAid : Option (EcbIx × Nat)
  addEmptyAidRoute : Bool

def Lmrt.ps (t : Lmrt) : UInt8 := t.buf.headD 0

def Lmrt.setPs (t : Lmrt) (n : UInt8) : Lmrt := { t with buf := blit t.buf 0 [n] }

def Lmrt.setRouting (t : Lmrt) (more : Bool) (numTlv : UInt8) (tlvSize : Nat) : Lmrt :=
  { t with
    cmds := t.cmds ++ [⟨more, numTlv, slice t.buf 1 (tlvSize % 2 ^ 8)⟩]
    ee := { t.ee with waitRsp := (t.ee.waitRsp + 1) % 2 ^ 8 } }

def checkSetRouting (t : Lmrt) (newSize : Nat) : Lmrt :=
  let maxTlv := if t.maxLen > nfaEeRoutMaxTlvSize then nfaEeRoutMaxTlvSize else t.maxLen
  if newSize + t.curOffset > maxTlv then
    let t := t.setRouting true t.ps t.curOffset
    { t with maxLen := t.maxLen - t.curOffset, curOffset := 0 }.setPs 0
  else t

/-- The local variables of the four functions. -/
structure Adding where
  t : Lmrt
  pp : Nat
  numTlv : UInt8

/-- An entry is written at `pp`. -/
def Adding.put (r : Adding) (tlv : Bytes) : Adding :=
  { t := { r.t with buf := blit r.t.buf r.pp tlv }, pp := r.pp + tlv.length, numTlv := r.numTlv + 1 }

/-- `NFA_EE_CFGED_OFF_ROUTING` is set for a route that is not only for the power state on. -/
def Adding.offRouting (r : Adding) (power : UInt8) : Adding :=
  if power ≠ pwrStateOn then { r with t := { r.t with ee := r.t.ee.addCfged cfgedOffRouting } } else r

/-- The offset and the count after a group of entries from `p` on. -/
def Adding.finish (r : Adding) (p : Nat) : Lmrt :=
  { r.t with curOffset := r.t.curOffset + (r.pp - p) % 2 ^ 8 }.setPs r.numTlv

abbrev tagTech : UInt8 := 0x00
abbrev tagProto : UInt8 := 0x01
abbrev tagAid : UInt8 := 0x02
abbrev tagSysCode : UInt8 := 0x03

/-- The entry of a technology. A blocked one goes to the host, in no power state. -/
def techTlv (env : EeEnv) (nfceeId power bit tech : UInt8) : Bytes :=
  if env.muteTechRouteOption then [tagTech, 3, nfceeId, power, tech]
  else if env.techBlock ∧ env.techBlockMask &&& bit = 0 then
    [env.routeBlockControl ||| tagTech, 3, 0, 0, tech]
  else
    [if env.nfcSecure then env.routeBlockControl ||| tagTech else tagTech, 3, nfceeId, power, tech]

def techStep (env : EeEnv) (k : EcbIx) (r : Adding) (x : UInt8 × UInt8) : Adding :=
  let cb := r.t.ee.ecb k
  let power := powerCfg env.nci2 true cb.tech x.1
  if power = 0 then r else (r.put (techTlv env cb.nfceeId power x.1 x.2)).offRouting power

/-- `nfa_ee_add_tech_route_to_ecb`. -/
def addTechRouteToEcb (env : EeEnv) (t : Lmrt) (k : EcbIx) : Lmrt :=
  let p := 1 + t.curOffset
  (techList.foldl (techStep env k) ⟨t, p, t.ps⟩).finish p

def protoTlv (env : EeEnv) (nfceeId power bit proto : UInt8) : Bytes :=
  [if bit = protoMaskIsoDep then tagProto ||| env.routeBlockControl else tagProto, 3, nfceeId, power,
    proto]

def protoStep (env : EeEnv) (k : EcbIx) (r : Adding) (x : UInt8 × UInt8) : Adding :=
  let cb := r.t.ee.ecb k
  let power := powerCfg env.nci2 (x.1 == protoMaskIsoDep) cb.proto x.1
  if power = 0 then r else (r.put (protoTlv env cb.nfceeId power x.1 x.2)).offRouting power

/-- `nfa_ee_add_proto_route_to_ecb`. -/
def addProtoRouteToEcb (env : EeEnv) (t : Lmrt) (k : EcbIx) : Lmrt :=
  let p := 1 + t.curOffset
  (protoList.foldl (protoStep env k) ⟨t, p, t.ps⟩).finish p

/-- The entry was not in the command just sent: it is moved to the front. -/
def Adding.moveUp (r : Adding) (pStart newSize : Nat) : Adding :=
  let t := { r.t with curOffset := newSize }.setPs 1
  { t := { t with buf := blit t.buf 1 (slice t.buf pStart newSize) }, pp := 1 + newSize, numTlv := 1 }

def Adding.keep (r : Adding) (newSize : Nat) : Adding :=
  { r with t := { r.t with curOffset := r.t.curOffset + newSize }.setPs r.numTlv }

def routeQual (info : UInt8) : UInt8 := bitIf info 0x10 0x10 ||| bitIf info 0x20 0x20

def aidTlv (env : EeEnv) (nfceeId info : UInt8) (e : AidEntry) : Bytes :=
  [tagAid ||| env.routeBlockControl ||| routeQual info, UInt8.ofNat (e.aid.length + 2), nfceeId,
    e.pwrCfg] ++ e.aid

/-- One AID, from the place of `pp`. -/
def addAidEntry (env : EeEnv) (k : EcbIx) (xx : Nat) (e : AidEntry) (r : Adding) : Adding :=
  let cb := r.t.ee.ecb k
  let pStart := r.pp
  let r := if e.rtInfo &&& nfaEeAeRoute ≠ 0 then r.put (aidTlv env cb.nfceeId (cb.aidInfo xx) e) else r
  let newSize := (r.pp - pStart) % 2 ^ 8
  let r := { r with t := checkSetRouting r.t newSize }
  if r.t.ps = 0 then r.moveUp pStart newSize else r.keep newSize

/-- The loop of `nfa_ee_add_aid_route_to_ecb` from the entry `xx` on. The empty AID waits
for its own turn. -/
def aidLoop (env : EeEnv) (k : EcbIx) : Nat → List AidEntry → Adding → Adding
  | _, [], r => r
  | xx, e :: es, r =>
    if e.aidLen = 2 ∧ ¬ r.t.addEmptyAidRoute then
      aidLoop env k (xx + 1) es { r with t := { r.t with emptyAid := some (k, xx) } }
    else
      let r := addAidEntry env k xx e r
      if r.t.addEmptyAidRoute then r else aidLoop env k (xx + 1) es r

/-- `nfa_ee_add_aid_route_to_ecb`. -/
def addAidRouteToEcb (env : EeEnv) (t : Lmrt) (k : EcbIx) : Lmrt :=
  let xx := if t.addEmptyAidRoute then (t.emptyAid.map Prod.snd).getD 0 else 0
  (aidLoop env k xx ((t.ee.ecb k).aids.drop xx) ⟨t, 1 + t.curOffset, t.ps⟩).t

def isActive (s : Ee) (nfceeId : UInt8) : Bool :=
  nfceeId == nfcDhId ||
    ((s.found.find? fun k => (s.ecb k).nfceeId == nfceeId).map fun k => (s.ecb k).isActive).getD false

abbrev technologyMaskF : UInt8 := 0x04

def sysCodeTlv (env : EeEnv) (e : SysCode) : Bytes :=
  let blocked := ¬ env.muteTechRouteOption ∧ env.techBlock ∧ env.techBlockMask &&& technologyMaskF = 0
  [tagSysCode ||| env.routeBlockControl, 4, if blocked then 0 else e.rtLoc,
    if blocked then 0 else e.pwrCfg] ++ e.code

/-- One system code, from the place of `pp`. -/
def addSysCodeEntry (env : EeEnv) (k : EcbIx) (e : SysCode) (r : Adding) : Adding :=
  let pStart := r.pp
  let r : Adding :=
    if e.vsInfo &&& nfaEeAeRoute ≠ 0 ∧ isActive r.t.ee e.rtLoc then
      let r := r.put (sysCodeTlv env e)
      { r with t := { r.t with ee := r.t.ee.addFlags k flagsRouting } }
    else r
  let newSize := (r.pp - pStart) % 2 ^ 8
  let r := { r with t := checkSetRouting r.t newSize }
  if r.t.ps = 0 ∧ r.numTlv ≠ 0 then r.moveUp pStart newSize else r.keep newSize

/-- The loop of `nfa_ee_add_sys_code_route_to_ecb`. -/
def sysCodeLoop (env : EeEnv) (k : EcbIx) : Nat → List SysCode → Adding → Adding
  | _, [], r => r
  | xx, e :: es, r =>
    if e.vsInfo &&& nfaEeAeRoute ≠ 0 ∧ 2 * xx > 18 then r
    else sysCodeLoop env k (xx + 1) es (addSysCodeEntry env k e r)

/-- `nfa_ee_add_sys_code_route_to_ecb`. -/
def addSysCodeRouteToEcb (env : EeEnv) (t : Lmrt) (k : EcbIx) : Lmrt :=
  (sysCodeLoop env k 0 (t.ee.ecb k).sysCodes ⟨t, 1 + t.curOffset, t.ps⟩).t

/-- The route types in their order; the second number is not used. -/
inductive RouteOrder where
  | aid
  | unused
  | sysCode
  | protocol
  | technology
  deriving DecidableEq, Repr

def addRoutes (env : EeEnv) : RouteOrder → Lmrt → EcbIx → Lmrt
  | .technology, t, k =>
    addTechRouteToEcb env (checkSetRouting t (t.ee.ecb k).sizeMaskTech) k
  | .protocol, t, k =>
    addProtoRouteToEcb env (checkSetRouting t (t.ee.ecb k).sizeMaskProto) k
  | .aid, t, k => addAidRouteToEcb env t k
  | .sysCode, t, k => addSysCodeRouteToEcb env t k
  | .unused, t, _ => t

/-- What a block adds to the marks of the control block. -/
def markConfigured (s : Ee) (k : EcbIx) : Ee :=
  let s := if totalLmrtSize s ≠ 0 then s.addCfged (ecbToMask k) else s
  if s.ecbFlags k &&& flagsRouting ≠ 0 then { s with eeCfgSts := s.eeCfgSts ||| stsChangedRouting }
  else s

/-- The last command, if anything changed; or an empty one, if nothing is left. -/
def sendLast (t : Lmrt) : Lmrt :=
  let tlvSize := totalLmrtSize t.ee
  if t.ee.eeCfgSts &&& stsChangedRouting ≠ 0 then
    let sts := if tlvSize ≠ 0 then t.ee.eeCfgSts ||| stsPrevRouting
      else t.ee.eeCfgSts &&& ~~~stsPrevRouting
    { t with ee := { t.ee with eeCfgSts := sts } }.setRouting false t.ps t.curOffset
  else if t.ee.eeCfgSts &&& stsPrevRouting ≠ 0 then
    if tlvSize = 0 then
      let sts := t.ee.eeCfgSts &&& ~~~stsPrevRouting ||| stsChangedRouting
      { t with ee := { t.ee with eeCfgSts := sts } }.setRouting false 0 0
    else t
  else t

/-- `nfa_ee_route_add_one_ecb_by_route_order`. -/
def routeAddOne (env : EeEnv) (rt : RouteOrder) (more : Bool) (t : Lmrt) (k : EcbIx) : Lmrt :=
  let t := addRoutes env rt t k
  let t := { t with ee := markConfigured t.ee k }
  if more then t else sendLast t

/-- One round of `nfa_ee_lmrt_to_nfcc`: the active NFCEEs, the host, and then the empty AID. -/
def routeRound (env : EeEnv) (check : Bool) (t : Lmrt) (rt : RouteOrder) : Lmrt :=
  let t :=
    if check then
      t.ee.found.foldl (fun t k => if (t.ee.ecb k).isActive then routeAddOne env rt true t k else t) t
    else t
  let t := routeAddOne env rt (rt != .technology) t cb4Dh
  if rt = .aid then
    match t.emptyAid with
    | some (k, _) => routeAddOne env rt true { t with addEmptyAidRoute := true } k
    | none => t
  else t

/-- The sizes that `GKI_getbuf` gives a buffer for. -/
abbrev maxGetbuf : Nat := 65532

/-- `nfa_ee_lmrt_to_nfcc`: the new state and the commands. Without a block below `cur_ee`
it gives up. -/
def lmrtToNfcc (env : EeEnv) (s : Ee) : Ee × List SetRouting :=
  let maxLen := max env.lmrtSize.toNat nfaEeRoutBufSize
  if maxLen > maxGetbuf then (s, [])
  else if s.curEe = 0 ∨ s.curEe > nfaEeNumEcbs then (s, [])
  else
    let check := s.found.any fun k => (s.ecb k).isActive && (s.ecb k).nfceeId != nfaEeInvalid
    let t : Lmrt := ⟨s, List.replicate maxLen 0, maxLen, 0, [], none, false⟩
    let t := [RouteOrder.aid, .unused, .sysCode, .protocol, .technology].foldl
      (routeRound env check) t
    (t.ee, t.cmds)

/-! ## The table of the control blocks -/

/-- The blocks whose routes are downloaded, in their order. -/
def Ee.processed (s : Ee) : List EcbIx :=
  (s.found.filter fun k => decide (k ≠ cb4Dh) && (s.ecb k).isActive) ++ [cb4Dh]

/-- The entries of the AIDs from the entry `xx` on: those of empty AIDs, or the others. -/
def aidTlvsFrom (env : EeEnv) (cb : Ecb) (empty : Bool) : Nat → List AidEntry → List Bytes
  | _, [] => []
  | xx, e :: es =>
    if decide (e.aidLen = 2) = empty ∧ e.rtInfo &&& nfaEeAeRoute ≠ 0 then
      aidTlv env cb.nfceeId (cb.aidInfo xx) e :: aidTlvsFrom env cb empty (xx + 1) es
    else aidTlvsFrom env cb empty (xx + 1) es

def aidTlvs (env : EeEnv) (cb : Ecb) (empty : Bool) : List Bytes := aidTlvsFrom env cb empty 0 cb.aids

/-- The system codes that are routed to an active NFCEE. -/
def sysCodeTlvs (env : EeEnv) (s : Ee) (cb : Ecb) : List Bytes :=
  (cb.sysCodes.filter fun e => e.vsInfo &&& nfaEeAeRoute != 0 && isActive s e.rtLoc).map
    (sysCodeTlv env)

def protoTlvs (env : EeEnv) (cb : Ecb) : List Bytes :=
  protoList.filterMap fun x =>
    let power := powerCfg env.nci2 (x.1 == protoMaskIsoDep) cb.proto x.1
    if power = 0 then none else some (protoTlv env cb.nfceeId power x.1 x.2)

def techTlvs (env : EeEnv) (cb : Ecb) : List Bytes :=
  techList.filterMap fun x =>
    let power := powerCfg env.nci2 true cb.tech x.1
    if power = 0 then none else some (techTlv env cb.nfceeId power x.1 x.2)

/-- The routing table that the control blocks describe. -/
def routingTable (env : EeEnv) (s : Ee) : List Bytes :=
  s.processed.flatMap (fun k => aidTlvs env (s.ecb k) false) ++
  s.processed.flatMap (fun k => aidTlvs env (s.ecb k) true) ++
  s.processed.flatMap (fun k => sysCodeTlvs env s (s.ecb k)) ++
  s.processed.flatMap (fun k => protoTlvs env (s.ecb k)) ++
  s.processed.flatMap (fun k => techTlvs env (s.ecb k))

/-! ## What the download leaves as it is -/

/-- The blocks, `cur_ee` and the pending events stay, a mark of a change stays, and each
command is counted. -/
structure Kept (s : Ee) (t : Lmrt) : Prop where
  ecb : t.ee.ecb = s.ecb
  cur : t.ee.curEe = s.curEe
  waitEvt : t.ee.eeWaitEvt = s.eeWaitEvt
  rsp : t.ee.waitRsp = (s.waitRsp + t.cmds.length) % 2 ^ 8
  changed : s.eeCfgSts &&& stsChangedRouting ≠ 0 → t.ee.eeCfgSts &&& stsChangedRouting ≠ 0

section Kept
variable {env : EeEnv} {s : Ee} {t : Lmrt} {r : Adding}

theorem Kept.of_eq {t' : Lmrt} (h : Kept s t) (hee : t'.ee = t.ee) (hcmds : t'.cmds = t.cmds) :
    Kept s t' := by
  refine ⟨?_, ?_, ?_, ?_, ?_⟩
  all_goals rw [hee]
  · exact h.ecb
  · exact h.cur
  · exact h.waitEvt
  · rw [hcmds]
    exact h.rsp
  · exact h.changed

theorem kept_setRouting (h : Kept s t) (more : Bool) (numTlv : UInt8) (tlvSize : Nat) :
    Kept s (t.setRouting more numTlv tlvSize) := by
  refine ⟨h.ecb, h.cur, h.waitEvt, ?_, h.changed⟩
  show (t.ee.waitRsp + 1) % 2 ^ 8 = (s.waitRsp + (t.cmds ++ [_]).length) % 2 ^ 8
  rw [h.rsp, List.length_append, List.length_singleton, Nat.mod_add_mod, Nat.add_assoc]

theorem kept_checkSetRouting (h : Kept s t) (newSize : Nat) : Kept s (checkSetRouting t newSize) := by
  unfold checkSetRouting
  dsimp only
  generalize (if t.maxLen > nfaEeRoutMaxTlvSize then nfaEeRoutMaxTlvSize else t.maxLen) = maxTlv
  split
  · exact (kept_setRouting h true t.ps t.curOffset).of_eq rfl rfl
  · exact h

theorem kept_put (h : Kept s r.t) (tlv : Bytes) : Kept s (r.put tlv).t := h.of_eq rfl rfl

theorem kept_addCfged {u : Ee} {m : UInt8} (h : Kept s t) (hu : u = t.ee.addCfged m) :
    Kept s { t with ee := u } := by
  rw [hu]
  exact ⟨h.ecb, h.cur, h.waitEvt, h.rsp, h.changed⟩

theorem kept_offRouting (h : Kept s r.t) (power : UInt8) : Kept s (r.offRouting power).t := by
  unfold Adding.offRouting
  split
  · exact kept_addCfged h rfl
  · exact h

theorem kept_techFold (k : EcbIx) (l : List (UInt8 × UInt8)) :
    ∀ {r : Adding}, Kept s r.t → Kept s (l.foldl (techStep env k) r).t := by
  induction l with
  | nil => exact fun h => h
  | cons x l ih =>
    intro r h
    apply ih
    unfold techStep
    dsimp only
    split
    · exact h
    · exact kept_offRouting (kept_put h _) _

theorem kept_protoFold (k : EcbIx) (l : List (UInt8 × UInt8)) :
    ∀ {r : Adding}, Kept s r.t → Kept s (l.foldl (protoStep env k) r).t := by
  induction l with
  | nil => exact fun h => h
  | cons x l ih =>
    intro r h
    apply ih
    unfold protoStep
    dsimp only
    split
    · exact h
    · exact kept_offRouting (kept_put h _) _

theorem kept_addAidEntry (h : Kept s r.t) (k : EcbIx) (xx : Nat) (e : AidEntry) :
    Kept s (addAidEntry env k xx e r).t := by
  have hput : ∀ r' : Adding, Kept s r'.t → ∀ newSize pStart, Kept s
      (if (checkSetRouting r'.t newSize).ps = 0 then
        ({ r' with t := checkSetRouting r'.t newSize } : Adding).moveUp pStart newSize
      else ({ r' with t := checkSetRouting r'.t newSize } : Adding).keep newSize).t := by
    intro r' h' newSize pStart
    have hcheck := kept_checkSetRouting h' newSize
    split
    · exact hcheck.of_eq rfl rfl
    · exact hcheck.of_eq rfl rfl
  unfold addAidEntry
  dsimp only
  split
  · exact hput _ (kept_put h _) _ _
  · exact hput _ h _ _

theorem kept_aidLoop (k : EcbIx) (l : List AidEntry) :
    ∀ {xx : Nat} {r : Adding}, Kept s r.t → Kept s (aidLoop env k xx l r).t := by
  induction l with
  | nil => exact fun h => h
  | cons e l ih =>
    intro xx r h
    unfold aidLoop
    split
    · apply ih
      exact h.of_eq rfl rfl
    · dsimp only
      split
      · exact kept_addAidEntry h k xx e
      · exact ih (kept_addAidEntry h k xx e)

theorem kept_addSysCodeEntry (h : Kept s r.t) (k : EcbIx) (e : SysCode) :
    Kept s (addSysCodeEntry env k e r).t := by
  have hput : ∀ r' : Adding, Kept s r'.t → ∀ newSize pStart, Kept s
      (if (checkSetRouting r'.t newSize).ps = 0 ∧ r'.numTlv ≠ 0 then
        ({ r' with t := checkSetRouting r'.t newSize } : Adding).moveUp pStart newSize
      else ({ r' with t := checkSetRouting r'.t newSize } : Adding).keep newSize).t := by
    intro r' h' newSize pStart
    have hcheck := kept_checkSetRouting h' newSize
    split
    · exact hcheck.of_eq rfl rfl
    · exact hcheck.of_eq rfl rfl
  unfold addSysCodeEntry
  dsimp only
  split
  · apply hput
    have hp := kept_put h (sysCodeTlv env e)
    exact ⟨hp.ecb, hp.cur, hp.waitEvt, hp.rsp, hp.changed⟩
  · exact hput _ h _ _

theorem kept_sysCodeLoop (k : EcbIx) (l : List SysCode) :
    ∀ {xx : Nat} {r : Adding}, Kept s r.t → Kept s (sysCodeLoop env k xx l r).t := by
  induction l with
  | nil => exact fun h => h
  | cons e l ih =>
    intro xx r h
    unfold sysCodeLoop
    split
    · exact h
    · exact ih (kept_addSysCodeEntry h k e)

theorem kept_addRoutes (h : Kept s t) (rt : RouteOrder) (k : EcbIx) : Kept s (addRoutes env rt t k) := by
  cases rt with
  | aid => exact kept_aidLoop k _ h
  | unused => exact h
  | sysCode => exact kept_sysCodeLoop k _ h
  | protocol =>
    have hcheck := kept_checkSetRouting h (t.ee.ecb k).sizeMaskProto
    exact (kept_protoFold (r := ⟨_, _, _⟩) k protoList hcheck).of_eq rfl rfl
  | technology =>
    have hcheck := kept_checkSetRouting h (t.ee.ecb k).sizeMaskTech
    exact (kept_techFold (r := ⟨_, _, _⟩) k techList hcheck).of_eq rfl rfl

theorem kept_markConfigured (h : Kept s t) (k : EcbIx) :
    Kept s { t with ee := markConfigured t.ee k } := by
  have hsts : ∀ u : Ee, Kept s { t with ee := u } →
      Kept s { t with ee := (if u.ecbFlags k &&& flagsRouting ≠ 0 then
        { u with eeCfgSts := u.eeCfgSts ||| stsChangedRouting } else u) } := by
    intro u hu
    split
    · refine ⟨hu.ecb, hu.cur, hu.waitEvt, hu.rsp, fun _ => ?_⟩
      show (u.eeCfgSts ||| stsChangedRouting) &&& stsChangedRouting ≠ 0
      rw [or_self_and_mask]
      decide
    · exact hu
  unfold markConfigured
  dsimp only
  apply hsts
  split
  · exact kept_addCfged h rfl
  · exact h

theorem kept_cfgSts (h : Kept s t) {sts : UInt8}
    (hsts : t.ee.eeCfgSts &&& stsChangedRouting ≠ 0 → sts &&& stsChangedRouting ≠ 0) :
    Kept s { t with ee := { t.ee with eeCfgSts := sts } } :=
  ⟨h.ecb, h.cur, h.waitEvt, h.rsp, fun hs => hsts (h.changed hs)⟩

theorem kept_sendLast (h : Kept s t) : Kept s (sendLast t) := by
  have hset : ∀ x : UInt8, x &&& stsChangedRouting ≠ 0 →
      (x ||| stsPrevRouting) &&& stsChangedRouting ≠ 0 := by
    intro x hx
    rw [or_and_mask, show stsPrevRouting &&& stsChangedRouting = 0 by decide, UInt8.or_zero]
    exact hx
  have hclear : ∀ x : UInt8, x &&& stsChangedRouting ≠ 0 →
      (x &&& ~~~stsPrevRouting) &&& stsChangedRouting ≠ 0 := by
    intro x hx
    rw [UInt8.and_assoc, show ~~~stsPrevRouting &&& stsChangedRouting = stsChangedRouting by decide]
    exact hx
  unfold sendLast
  dsimp only
  split
  · apply kept_setRouting
    apply kept_cfgSts h
    split
    · exact hset _
    · exact hclear _
  · split
    · split
      · apply kept_setRouting
        apply kept_cfgSts h
        intro _
        rw [or_self_and_mask]
        decide
      · exact h
    · exact h

theorem kept_routeAddOne (h : Kept s t) (rt : RouteOrder) (more : Bool) (k : EcbIx) :
    Kept s (routeAddOne env rt more t k) := by
  have hadd : Kept s (addRoutes env rt t k) := kept_addRoutes h rt k
  have hmark := kept_markConfigured hadd k
  unfold routeAddOne
  dsimp only
  split
  · exact hmark
  · exact kept_sendLast hmark

theorem kept_foundFold (rt : RouteOrder) (ks : List EcbIx) : ∀ {t : Lmrt}, Kept s t →
    Kept s (ks.foldl (fun t k => if (t.ee.ecb k).isActive then routeAddOne env rt true t k else t) t) := by
  induction ks with
  | nil => exact fun h => h
  | cons k ks ih =>
    intro t h
    apply ih
    dsimp only
    split
    · exact kept_routeAddOne h rt true k
    · exact h

theorem kept_routeRound (h : Kept s t) (check : Bool) (rt : RouteOrder) :
    Kept s (routeRound env check t rt) := by
  have hfound : Kept s (if check then
      t.ee.found.foldl (fun t k => if (t.ee.ecb k).isActive then routeAddOne env rt true t k else t) t
      else t) := by
    split
    · exact kept_foundFold rt _ h
    · exact h
  have hdh : Kept s (routeAddOne env rt (rt != .technology) _ cb4Dh) :=
    kept_routeAddOne hfound rt (rt != .technology) cb4Dh
  unfold routeRound
  dsimp only
  split
  · split
    · apply kept_routeAddOne
      exact hdh.of_eq rfl rfl
    · exact hdh
  · exact hdh

theorem kept_roundFold (check : Bool) (rts : List RouteOrder) :
    ∀ {t : Lmrt}, Kept s t → Kept s (rts.foldl (routeRound env check) t) := by
  induction rts with
  | nil => exact fun h => h
  | cons rt rts ih => exact fun h => ih (kept_routeRound h check rt)

end Kept

theorem lmrtToNfcc_kept (env : EeEnv) {s : Ee} (hrsp : s.waitRsp < 2 ^ 8) :
    (lmrtToNfcc env s).1.ecb = s.ecb ∧ (lmrtToNfcc env s).1.curEe = s.curEe ∧
      (lmrtToNfcc env s).1.eeWaitEvt = s.eeWaitEvt ∧
      (lmrtToNfcc env s).1.waitRsp = (s.waitRsp + (lmrtToNfcc env s).2.length) % 2 ^ 8 := by
  have hzero : s.waitRsp = (s.waitRsp + 0) % 2 ^ 8 := (Nat.mod_eq_of_lt hrsp).symm
  unfold lmrtToNfcc
  dsimp only
  split
  · exact ⟨rfl, rfl, rfl, hzero⟩
  · split
    · exact ⟨rfl, rfl, rfl, hzero⟩
    · have hstart : Kept s ⟨s, List.replicate (max env.lmrtSize.toNat nfaEeRoutBufSize) 0,
          max env.lmrtSize.toNat nfaEeRoutBufSize, 0, [], none, false⟩ :=
        ⟨rfl, rfl, rfl, hzero, id⟩
      have h : Kept s (List.foldl (routeRound env _) _ _) := kept_roundFold
        (s.found.any fun k => (s.ecb k).isActive && (s.ecb k).nfceeId != nfaEeInvalid)
        [.aid, .unused, .sysCode, .protocol, .technology] hstart
      exact ⟨h.ecb, h.cur, h.waitEvt, h.rsp⟩

end NfcStack.Nfa
