import NfcStack.Lib.Run

/- The control blocks of NFA-EE and the handlers that change what is routed
   (`nfa_ee_act.cc`, `nfa_ee_main.cc`). There is a block for each NFCEE and, as the
   last one, for the device host. A block holds the technologies and protocols
   routed to it, its AIDs and its system codes, and the sizes that these take in
   the routing table, which each handler keeps up to date by hand.

   What is proved:
     1. `techSize_le`, `protoSize_le`, `aidSum_le`, `sysCodeSum_le`: what the routes of
        a block can take. `Sized`: its sizes are not less than that, and small.

   The AIDs are a list of entries; `aid_info`, which `nfa_ee_api_remove_aid` does not
   move with the other arrays, stays an array. `NFA_EE_EM_STATE_RESTORING` and what
   belongs to it is left out: it is entered by `NFA_PowerOffSleepMode` alone, which
   nothing in the repository calls. -/
namespace NfcStack.Nfa
open NfcStack.Lib

abbrev Bytes := List UInt8

/-! ## The blocks -/

abbrev nfaEeMaxEeSupported : Nat := 7
abbrev nfaEeNumEcbs : Nat := nfaEeMaxEeSupported + 1
abbrev nfaEeInvalid : UInt8 := 0xFF
abbrev nfcDhId : UInt8 := 0x00
abbrev nfaMaxAidLen : Nat := 16
abbrev nfaMinAidLen : Nat := 5
abbrev nfaEeMaxSystemCodeEntries : Nat := 10

abbrev statusActive : UInt8 := 0x00
abbrev statusInactive : UInt8 := 0x01
abbrev statusRemoved : UInt8 := 0x02
abbrev nfaEeStatusMepMask : UInt8 := 0x40

abbrev nfaEeAeRoute : UInt8 := 0x80
abbrev nfaEeAeVs : UInt8 := 0x40

abbrev flagSyscode : UInt8 := 0x01
abbrev flagTech : UInt8 := 0x02
abbrev flagProto : UInt8 := 0x04
abbrev flagAid : UInt8 := 0x08
abbrev flagVs : UInt8 := 0x10
abbrev flagDiscReq : UInt8 := 0x40
abbrev flagOrder : UInt8 := 0x80
abbrev flagsRouting : UInt8 := 0x0E

abbrev stsChangedRouting : UInt8 := 0x01
abbrev stsChanged : UInt8 := 0x0F
abbrev stsPrevRouting : UInt8 := 0x10
abbrev stsPrev : UInt8 := 0xF0

abbrev cfgedUpdateNow : UInt8 := 0x80
abbrev cfgedOffRouting : UInt8 := 0x40

abbrev waitUpdate : UInt8 := 0x10
abbrev waitUpdateRsp : UInt8 := 0x20
abbrev waitUpdateAll : UInt8 := 0xF0

abbrev EcbIx := Fin nfaEeNumEcbs
instance (priority := 1100) : NeZero nfaEeNumEcbs := ⟨by decide⟩

/-- `NFA_EE_CB_4_DH`. -/
abbrev cb4Dh : EcbIx := 7

/-- The six masks of the technologies, or of the protocols, one for each power state. -/
structure Masks where
  switchOn : UInt8 := 0
  switchOff : UInt8 := 0
  batteryOff : UInt8 := 0
  screenLock : UInt8 := 0
  screenOff : UInt8 := 0
  screenOffLock : UInt8 := 0
  deriving DecidableEq, Repr

/-- An entry of `aid_cfg`, `aid_len`, `aid_pwr_cfg` and `aid_rt_info`. -/
structure AidEntry where
  aid : Bytes
  pwrCfg : UInt8
  rtInfo : UInt8
  deriving DecidableEq, Repr

/-- The length of the entry with its tag and length. -/
def AidEntry.aidLen (e : AidEntry) : Nat := e.aid.length + 2

structure SysCode where
  code : Bytes
  pwrCfg : UInt8
  rtLoc : UInt8
  vsInfo : UInt8
  deriving DecidableEq, Repr

/-- `tNFA_EE_ECB`, what concerns routing. The `ecb_flags` are kept beside the blocks. -/
structure Ecb where
  nfceeId : UInt8
  eeStatus : UInt8
  tech : Masks := {}
  proto : Masks := {}
  aids : List AidEntry := []
  aidInfo : Nat → UInt8 := fun _ => 0
  sysCodes : List SysCode := []
  sizeMaskTech : Nat := 0
  sizeMaskProto : Nat := 0
  sizeAid : Nat := 0
  sizeSysCode : Nat := 0

inductive EmState where
  | init
  | initDone
  deriving DecidableEq, Repr

structure Ee where
  ecb : EcbIx → Ecb
  ecbFlags : EcbIx → UInt8
  emState : EmState
  curEe : Nat
  numEeExpecting : Nat
  eeCfged : UInt8
  eeCfgSts : UInt8
  eeWaitEvt : UInt8
  waitRsp : Nat

/-- What the code reads and does not change: the NCI version (2.0 or later), the size of
the table in the NFCC, the block bit of the routes, the settings that mute technologies,
and those that concern new NFCEEs. -/
structure EeEnv where
  nci2 : Bool
  lmrtSize : UInt16
  routeBlockControl : UInt8
  muteTechRouteOption : Bool
  techBlock : Bool
  techBlockMask : UInt8
  nfcSecure : Bool
  uiccIds : List UInt8
  defaultNdefNfcee : UInt8
  t4tNfceeConfig : Bool

def Ee.setEcb (s : Ee) (k : EcbIx) (cb : Ecb) : Ee := { s with ecb := Function.update s.ecb k cb }

/-- `p_cb->ecb_flags |= f`. -/
def Ee.addFlags (s : Ee) (k : EcbIx) (f : UInt8) : Ee :=
  { s with ecbFlags := Function.update s.ecbFlags k (s.ecbFlags k ||| f) }

/-- `nfa_ee_ecb_to_mask`. -/
def ecbToMask (k : EcbIx) : UInt8 := 1 <<< (UInt8.ofNat k.val)

def Ee.addCfged (s : Ee) (m : UInt8) : Ee := { s with eeCfged := s.eeCfged ||| m }

/-- `(ee_status & ~NFA_EE_STATUS_MEP_MASK) == NFC_NFCEE_STATUS_ACTIVE`. -/
def Ecb.isActive (cb : Ecb) : Bool := (cb.eeStatus &&& ~~~nfaEeStatusMepMask) == statusActive

/-- The blocks below `cur_ee`. -/
def Ee.found (s : Ee) : List EcbIx := (List.finRange nfaEeNumEcbs).filter fun k => k.val < s.curEe

/-! ## Sizes -/

abbrev techList : List (UInt8 × UInt8) := [(0x01, 0x00), (0x02, 0x01), (0x04, 0x02)]

abbrev protoMaskIsoDep : UInt8 := 0x08

/-- The masks and codes of the protocols; the fifth entry of the tables is zero. -/
abbrev protoList : List (UInt8 × UInt8) :=
  [(0x01, 0x01), (0x02, 0x02), (0x04, 0x03), (protoMaskIsoDep, 0x04), (0x00, 0x00)]

abbrev pwrStateOn : UInt8 := 0x01
abbrev pwrStateSwitchOff : UInt8 := 0x02
abbrev pwrStateBattOff : UInt8 := 0x04
abbrev pwrStateScreenOffUnlock : UInt8 := 0x08
abbrev pwrStateScreenOnLock : UInt8 := 0x10
abbrev pwrStateScreenOffLock : UInt8 := 0x20

def bitIf (m bit f : UInt8) : UInt8 := if m &&& bit ≠ 0 then f else 0

/-- The power states in which `bit` is routed; `screens` is whether those with the screen
off or locked are looked at. -/
def powerCfg (nci2 screens : Bool) (m : Masks) (bit : UInt8) : UInt8 :=
  let p := bitIf m.switchOn bit pwrStateOn ||| bitIf m.switchOff bit pwrStateSwitchOff |||
    bitIf m.batteryOff bit pwrStateBattOff
  if p &&& pwrStateOn ≠ 0 ∧ nci2 ∧ screens then
    p ||| bitIf m.screenLock bit pwrStateScreenOnLock |||
      bitIf m.screenOff bit pwrStateScreenOffUnlock |||
      bitIf m.screenOffLock bit pwrStateScreenOffLock
  else p

/-- `nfa_ee_update_route_size`. -/
def updateRouteSize (env : EeEnv) (cb : Ecb) : Ecb :=
  { cb with
    sizeMaskProto := 5 * (protoList.countP fun x => powerCfg env.nci2 true cb.proto x.1 ≠ 0)
    sizeMaskTech := 5 * (techList.countP fun x => powerCfg env.nci2 true cb.tech x.1 ≠ 0) }

def aidSize (e : AidEntry) : Nat := if e.rtInfo &&& nfaEeAeRoute ≠ 0 then 4 + e.aid.length else 0

/-- `nfa_ee_update_route_aid_size`. -/
def updateRouteAidSize (cb : Ecb) : Ecb :=
  { cb with sizeAid := (cb.aids.map aidSize).sum % 2 ^ 16 }

def sysCodeSize (e : SysCode) : Nat := if e.vsInfo &&& nfaEeAeRoute ≠ 0 then 6 else 0

/-- `nfa_ee_update_route_sys_code_size`. -/
def updateRouteSysCodeSize (cb : Ecb) : Ecb :=
  { cb with sizeSysCode := (cb.sysCodes.map sysCodeSize).sum % 2 ^ 16 }

def Ecb.size (cb : Ecb) : Nat := cb.sizeMaskProto + cb.sizeMaskTech + cb.sizeAid + cb.sizeSysCode

/-- The blocks that `nfa_ee_total_lmrt_size` goes through, from `cur_ee - 1` down, or from
the one of the host if there are none or too many. -/
def Ee.sizedBlocks (s : Ee) : List EcbIx :=
  if s.curEe ≤ nfaEeNumEcbs then s.found else List.finRange nfaEeNumEcbs

/-- `nfa_ee_total_lmrt_size`. -/
def totalLmrtSize (s : Ee) : Nat :=
  ((s.ecb cb4Dh).size +
    ((s.sizedBlocks.filter fun k => (s.ecb k).isActive).map fun k => (s.ecb k).size).sum) % 2 ^ 16

/-- `nfa_ee_find_max_aid_cfg_len`. -/
def findMaxAidCfgLen (env : EeEnv) : Nat := env.lmrtSize.toNat - 86

def maxAidEntries (env : EeEnv) : Nat := findMaxAidCfgLen env / nfaMinAidLen + 1

/-- `nfa_ee_find_total_aid_len`, from the first entry. -/
def findTotalAidLen (cb : Ecb) : Nat := (cb.aids.map AidEntry.aidLen).sum

/-! ## Technologies and protocols -/

inductive MaskKind where
  | tech
  | proto
  deriving DecidableEq, Repr

def Ecb.masks (cb : Ecb) : MaskKind → Masks
  | .tech => cb.tech
  | .proto => cb.proto

def Ecb.setMasks (cb : Ecb) : MaskKind → Masks → Ecb
  | .tech, m => { cb with tech := m }
  | .proto, m => { cb with proto := m }

def Ecb.sizeMask (cb : Ecb) : MaskKind → Nat
  | .tech => cb.sizeMaskTech
  | .proto => cb.sizeMaskProto

def Ecb.setSizeMask (cb : Ecb) : MaskKind → Nat → Ecb
  | .tech, n => { cb with sizeMaskTech := n }
  | .proto, n => { cb with sizeMaskProto := n }

def MaskKind.flag : MaskKind → UInt8
  | .tech => flagTech
  | .proto => flagProto

def Masks.or (a b : Masks) : Masks where
  switchOn := a.switchOn ||| b.switchOn
  switchOff := a.switchOff ||| b.switchOff
  batteryOff := a.batteryOff ||| b.batteryOff
  screenLock := a.screenLock ||| b.screenLock
  screenOff := a.screenOff ||| b.screenOff
  screenOffLock := a.screenOffLock ||| b.screenOffLock

def Masks.without (a b : Masks) : Masks where
  switchOn := a.switchOn &&& ~~~b.switchOn
  switchOff := a.switchOff &&& ~~~b.switchOff
  batteryOff := a.batteryOff &&& ~~~b.batteryOff
  screenLock := a.screenLock &&& ~~~b.screenLock
  screenOff := a.screenOff &&& ~~~b.screenOff
  screenOffLock := a.screenOffLock &&& ~~~b.screenOffLock

/-- `nfa_ee_api_set_tech_cfg` and `nfa_ee_api_set_proto_cfg`. When the table is full, the
size of the other kind stays as it was counted. -/
def apiSetCfg (env : EeEnv) (kind : MaskKind) (s : Ee) (k : EcbIx) (m : Masks) : Ee :=
  let cb := s.ecb k
  if cb.masks kind = m then s
  else
    let new := updateRouteSize env (cb.setMasks kind ((cb.masks kind).or m))
    let t := s.setEcb k new
    if totalLmrtSize t > env.lmrtSize.toNat then
      s.setEcb k ((new.setMasks kind (cb.masks kind)).setSizeMask kind (cb.sizeMask kind))
    else
      let t := t.addFlags k kind.flag
      if new.masks kind ≠ {} then t.addCfged (ecbToMask k) else t

def apiSetTechCfg (env : EeEnv) : Ee → EcbIx → Masks → Ee := apiSetCfg env .tech

def apiSetProtoCfg (env : EeEnv) : Ee → EcbIx → Masks → Ee := apiSetCfg env .proto

/-- `nfa_ee_api_clear_tech_cfg` and `nfa_ee_api_clear_proto_cfg`. -/
def apiClearCfg (env : EeEnv) (kind : MaskKind) (s : Ee) (k : EcbIx) (m : Masks) : Ee :=
  let cb := s.ecb k
  if (cb.masks kind).without m = cb.masks kind then s
  else
    (s.setEcb k (updateRouteSize env (cb.setMasks kind ((cb.masks kind).without m)))).addFlags k
      kind.flag

def apiClearTechCfg (env : EeEnv) : Ee → EcbIx → Masks → Ee := apiClearCfg env .tech

def apiClearProtoCfg (env : EeEnv) : Ee → EcbIx → Masks → Ee := apiClearCfg env .proto

/-! ## AIDs -/

/-- The order in which `nfa_ee_find_aid_offset` goes through the blocks. -/
def Ee.aidBlocks (s : Ee) : List EcbIx :=
  cb4Dh :: (List.finRange nfaEeNumEcbs).filter fun k => k.val < min s.curEe nfaEeMaxEeSupported

/-- `nfa_ee_find_aid_offset`: the block and the entry. -/
def findAidOffset (s : Ee) (aid : Bytes) : Option (EcbIx × Nat) :=
  s.aidBlocks.findSome? fun k =>
    ((s.ecb k).aids.findIdx? fun e => decide (e.aid = aid)).map fun i => (k, i)

/-- The end of `nfa_ee_api_add_aid` when it succeeded. The first block with the same id as
`p_cb` is marked too. -/
def aidAdded (s : Ee) (k : EcbIx) : Ee :=
  let s := (s.addFlags k flagAid).addCfged (ecbToMask k)
  let s :=
    match (List.finRange nfaEeNumEcbs).find? fun i => (s.ecb i).nfceeId == (s.ecb k).nfceeId with
    | some i => (s.addCfged (ecbToMask i)).addFlags i flagAid
    | none => s
  s.setEcb k (updateRouteAidSize (s.ecb k))

/-- A new entry at the end; `aid_entries` has 8 bits. -/
def Ecb.pushAid (cb : Ecb) (e : AidEntry) (info : UInt8) : Ecb :=
  { cb with
    aids := (cb.aids ++ [e]).take ((cb.aids.length + 1) % 2 ^ 8)
    aidInfo := Function.update cb.aidInfo cb.aids.length info }

/-- `nfa_ee_api_add_aid`. -/
def apiAddAid (env : EeEnv) (s : Ee) (k : EcbIx) (aid : Bytes) (powerState aidInfo : UInt8) : Ee :=
  let cb := s.ecb k
  match findAidOffset s aid with
  | some (chk, entry) =>
    if chk = k then
      let marked := { cb with
        aids := cb.aids.modify entry fun e => { e with rtInfo := e.rtInfo ||| nfaEeAeRoute }
        aidInfo := Function.update cb.aidInfo entry aidInfo }
      if totalLmrtSize (s.setEcb k marked) > env.lmrtSize.toNat then
        s.setEcb k { marked with
          aids := marked.aids.modify entry fun e => { e with rtInfo := e.rtInfo &&& ~~~nfaEeAeRoute } }
      else
        aidAdded (s.setEcb k { marked with
          aids := marked.aids.modify entry fun e => { e with pwrCfg := powerState } }) k
    else s
  | none =>
    if aid.length + 2 + findTotalAidLen cb > findMaxAidCfgLen env then s
    else if cb.aids.length < maxAidEntries env then
      if (totalLmrtSize s + 4 + aid.length) % 2 ^ 16 > env.lmrtSize.toNat then s
      else aidAdded (s.setEcb k (cb.pushAid ⟨aid, powerState, nfaEeAeRoute⟩ aidInfo)) k
    else s

/-- `NFA_REMOVE_ALL_AID`. -/
abbrev nfaRemoveAllAid : Bytes := List.replicate 8 0xFF

/-- The removal of one entry. -/
def removeAidAt (s : Ee) (k : EcbIx) (entry : Nat) (e : AidEntry) : Ee :=
  let s := if e.rtInfo &&& nfaEeAeRoute ≠ 0 then s.addFlags k flagAid else s
  let s := if e.rtInfo &&& nfaEeAeVs ≠ 0 then s.addFlags k flagVs else s
  let cb := { s.ecb k with aids := (s.ecb k).aids.eraseIdx entry }
  (s.setEcb k (updateRouteAidSize cb)).addCfged (ecbToMask k)

/-- The removal of all entries. -/
def removeAllAids (s : Ee) : Ee :=
  let s :=
    { s with
      ecb := fun k => if k = cb4Dh ∨ (s.ecb k).aids ≠ [] then { s.ecb k with aids := [], sizeAid := 0 }
        else s.ecb k
      eeCfged := ((List.finRange nfaEeNumEcbs).filter fun k => k ≠ cb4Dh ∧ (s.ecb k).aids ≠ []).foldl
        (fun m k => m ||| ecbToMask k) s.eeCfged }
  (s.addFlags cb4Dh flagAid).addCfged (ecbToMask cb4Dh)

/-- `nfa_ee_api_remove_aid`. -/
def apiRemoveAid (s : Ee) (aid : Bytes) : Ee :=
  match findAidOffset s aid with
  | some (k, entry) => ((s.ecb k).aids[entry]?).elim s fun e => removeAidAt s k entry e
  | none => if aid = nfaRemoveAllAid then removeAllAids s else s

/-! ## System codes -/

/-- `nfa_ee_find_sys_code_offset`: only the blocks marked in `ee_cfged`. -/
def findSysCodeOffset (s : Ee) (code : Bytes) : Option (EcbIx × Nat) :=
  (List.finRange nfaEeNumEcbs).findSome? fun k =>
    if s.eeCfged &&& ecbToMask k = 0 then none
    else ((s.ecb k).sysCodes.findIdx? fun e => decide (e.code = code)).map fun i => (k, i)

/-- `nfa_all_ee_find_total_sys_code_len`. -/
def findTotalSysCodeLen (s : Ee) : Nat :=
  ((List.finRange nfaEeNumEcbs).map fun k => 2 * (s.ecb k).sysCodes.length).sum

/-- The end of `nfa_ee_api_add_sys_code` when it succeeded. -/
def sysCodeAdded (s : Ee) (k : EcbIx) : Ee :=
  let s := (s.addFlags k flagSyscode).addCfged (ecbToMask k)
  s.setEcb k (updateRouteSysCodeSize (s.ecb k))

/-- `nfa_ee_api_add_sys_code`. -/
def apiAddSysCode (env : EeEnv) (s : Ee) (k : EcbIx) (nfceeId : UInt8) (code : Bytes)
    (powerState : UInt8) : Ee :=
  let cb := s.ecb k
  match findSysCodeOffset s code with
  | some (chk, entry) =>
    if chk = k then
      let marked := { cb with
        sysCodes := cb.sysCodes.modify entry fun e => { e with vsInfo := e.vsInfo ||| nfaEeAeRoute } }
      if totalLmrtSize (s.setEcb k marked) > env.lmrtSize.toNat then
        s.setEcb k { marked with
          sysCodes := marked.sysCodes.modify entry fun e =>
            { e with vsInfo := e.vsInfo &&& ~~~nfaEeAeRoute } }
      else
        sysCodeAdded (s.setEcb k { marked with
          sysCodes := marked.sysCodes.modify entry fun e => { e with pwrCfg := powerState } }) k
    else s
  | none =>
    if 2 + findTotalSysCodeLen s > 60 then s
    else if cb.sysCodes.length < nfaEeMaxSystemCodeEntries then
      if (totalLmrtSize s + 6) % 2 ^ 16 > env.lmrtSize.toNat then s
      else if powerState ≠ 0 then
        sysCodeAdded (s.setEcb k
          { cb with sysCodes := cb.sysCodes ++ [⟨code, powerState, nfceeId, nfaEeAeRoute⟩] }) k
      else sysCodeAdded s k
    else s

def removeSysCodeAt (s : Ee) (k : EcbIx) (entry : Nat) (e : SysCode) : Ee :=
  let s := if e.vsInfo &&& nfaEeAeRoute ≠ 0 then s.addFlags k flagSyscode else s
  let s := if e.vsInfo &&& nfaEeAeVs ≠ 0 then s.addFlags k flagVs else s
  let cb := { s.ecb k with sysCodes := (s.ecb k).sysCodes.eraseIdx entry }
  (s.setEcb k (updateRouteSysCodeSize cb)).addCfged (ecbToMask k)

/-- `nfa_ee_api_remove_sys_code`. -/
def apiRemoveSysCode (s : Ee) (code : Bytes) : Ee :=
  match findSysCodeOffset s code with
  | some (k, entry) => ((s.ecb k).sysCodes[entry]?).elim s fun e => removeSysCodeAt s k entry e
  | none => s

/-- `nfa_ee_api_clear_routing_table`. -/
def apiClearRoutingTable (s : Ee) (clearProto clearTech clearSc : Bool) : Ee :=
  let proto (cb : Ecb) : Ecb := if clearProto then { cb with proto := {}, sizeMaskProto := 0 } else cb
  let tech (cb : Ecb) : Ecb := if clearTech then { cb with tech := {}, sizeMaskTech := 0 } else cb
  let sc (cb : Ecb) : Ecb := if clearSc then { cb with sysCodes := [], sizeSysCode := 0 } else cb
  { s with ecb := fun k => sc (tech (proto (s.ecb k))) }

/-! ## NFCEEs -/

/-- `nfa_ee_find_ecb`. -/
def findEcb (s : Ee) (nfceeId : UInt8) : Option EcbIx :=
  if nfceeId = nfcDhId then some cb4Dh
  else (List.finRange nfaEeNumEcbs).find? fun k => k ≠ cb4Dh && (s.ecb k).nfceeId == nfceeId

/-- Whether a block has a technology, a protocol or an AID, when its NFCEE is deactivated. -/
def Ecb.stillConfigured (cb : Ecb) : Bool :=
  cb.tech.switchOn ||| cb.tech.switchOff ||| cb.tech.batteryOff ||| cb.proto.switchOn |||
    cb.proto.switchOff ||| cb.proto.batteryOff != 0 || !cb.aids.isEmpty

/-- The block of a deactivated NFCEE: its sizes and system codes stay. -/
def Ecb.deactivated (cb : Ecb) : Ecb :=
  { cb with
    tech := { cb.tech with switchOn := 0, switchOff := 0, batteryOff := 0 }
    proto := { cb.proto with switchOn := 0, switchOff := 0, batteryOff := 0 }
    aids := []
    eeStatus := statusInactive }

/-- `nfa_ee_nci_mode_set_rsp`; `ok` is whether the status of the response is. -/
def nciModeSetRsp (s : Ee) (nfceeId : UInt8) (ok activate : Bool) : Ee :=
  match findEcb s nfceeId with
  | none => s
  | some k =>
    let cb := s.ecb k
    match ok, activate with
    | true, true => s.setEcb k { cb with eeStatus := statusActive }
    | true, false =>
      let s :=
        if cb.stillConfigured then
          { s with
            eeCfged := s.eeCfged &&& ~~~ecbToMask k
            eeCfgSts := s.eeCfgSts ||| stsChangedRouting }
        else s
      s.setEcb k cb.deactivated
    | false, true => s.setEcb k { cb with eeStatus := statusRemoved }
    | false, false => s

/-- `nfa_ee_nci_disc_rsp`. -/
def nciDiscRsp (s : Ee) (numNfcee : UInt8) (ok : Bool) : Ee :=
  let s :=
    match s.emState with
    | .init =>
      let s := { s with curEe := 0, numEeExpecting := 0 }
      if numNfcee = 0 then { s with emState := .initDone } else s
    | .initDone =>
      if numNfcee = 0 then s
      else
        let num := min numNfcee.toNat nfaEeMaxEeSupported
        { s with
          ecb := fun k =>
            if s.curEe ≤ k.val ∧ k.val < num then { s.ecb k with nfceeId := nfaEeInvalid } else s.ecb k
          curEe := num }
  if ok then { s with numEeExpecting := numNfcee.toNat } else s

/-- What is stored of an NFCEE; an NDEF-NFCEE that is not wanted is not. -/
def storeInfo (env : EeEnv) (s : Ee) (k : EcbIx) (incremented : Bool) (nfceeId eeStatus : UInt8)
    (ndef : Bool) : Ee :=
  let s :=
    if ndef ∧ nfceeId = env.defaultNdefNfcee ∧ ¬ env.t4tNfceeConfig then
      if incremented then { s with curEe := (s.curEe + 255) % 2 ^ 8 } else s
    else s.setEcb k { s.ecb k with nfceeId := nfceeId, eeStatus := eeStatus }
  { s with ecbFlags := Function.update s.ecbFlags k (s.ecbFlags k &&& ~~~flagOrder) }

/-- `nfa_ee_nci_disc_ntf`. A block that was set aside for a discovery request counts as a
new one; here `cur_ee` is not compared with the number of blocks. -/
def nciDiscNtf (env : EeEnv) (s : Ee) (nfceeId eeStatus : UInt8) (ndef : Bool) : Ee :=
  let s := { s with numEeExpecting := s.numEeExpecting - 1 }
  match s.emState with
  | .init =>
    let done := { s with emState := if s.numEeExpecting = 0 then .initDone else .init }
    if h : s.curEe < nfaEeMaxEeSupported then
      storeInfo env { done with curEe := s.curEe + 1 } ⟨s.curEe, Nat.lt_succ_of_lt h⟩ true nfceeId eeStatus ndef
    else done
  | .initDone =>
    match findEcb s nfceeId with
    | some k =>
      if s.ecbFlags k &&& flagOrder ≠ 0 then
        storeInfo env { s with curEe := (s.curEe + 1) % 2 ^ 8 } k true nfceeId eeStatus ndef
      else storeInfo env s k false nfceeId eeStatus ndef
    | none =>
      match findEcb s nfaEeInvalid with
      | none => s
      | some k =>
        if s.curEe < nfaEeMaxEeSupported then
          storeInfo env { s with curEe := s.curEe + 1 } k true nfceeId eeStatus ndef
        else storeInfo env s k false nfceeId eeStatus ndef

/-- `nfa_ee_add_mep_ecb`, for an id without a block. -/
def addMepEcb (s : Ee) (nfceeId : UInt8) : Option (Ee × EcbIx) :=
  if h : s.curEe < nfaEeMaxEeSupported then
    let k : EcbIx := ⟨s.curEe, Nat.lt_succ_of_lt h⟩
    some ({ s.setEcb k { s.ecb k with nfceeId := nfceeId, eeStatus := nfaEeStatusMepMask } with
      curEe := s.curEe + 1 }, k)
  else none

/-- The block of a discovery request: the one of the id, a new one of a MEP NFCEE, or one
that is set aside. -/
def discReqBlock (env : EeEnv) (s : Ee) (nfceeId : UInt8) : Option (Ee × EcbIx) :=
  match findEcb s nfceeId with
  | some k => some (s, k)
  | none =>
    match if nfceeId ∈ env.uiccIds then addMepEcb s nfceeId else none with
    | some r => some r
    | none =>
      (findEcb s nfaEeInvalid).map fun k =>
        ((s.setEcb k { s.ecb k with nfceeId := nfceeId }).addFlags k flagOrder, k)

/-- One entry of a discovery request. -/
def discReqEntry (env : EeEnv) (s : Ee) (add : Bool) (nfceeId : UInt8) : Ee :=
  match discReqBlock env s nfceeId with
  | none => s
  | some (s, k) =>
    let s := s.addFlags k flagDiscReq
    if (s.ecb k).eeStatus &&& nfaEeStatusMepMask ≠ 0 then
      s.setEcb k { s.ecb k with
        eeStatus := (if add then statusActive else statusInactive) ||| nfaEeStatusMepMask }
    else s

/-- `nfa_ee_nci_disc_req_ntf`: whether each entry adds, and its id. -/
def nciDiscReqNtf (env : EeEnv) (s : Ee) (infos : List (Bool × UInt8)) : Ee :=
  infos.foldl (fun s i => discReqEntry env s i.1 i.2) s

/-- `nfa_ee_init` and `nfa_ee_sys_enable`; `discover` is whether any NFCEE may be
configured. -/
def Ee.start (discover : Bool) : Ee where
  ecb k := if k = cb4Dh then { nfceeId := nfcDhId, eeStatus := statusActive }
    else { nfceeId := nfaEeInvalid, eeStatus := statusInactive }
  ecbFlags _ := 0
  emState := if discover then .init else .initDone
  curEe := 0
  numEeExpecting := 0
  eeCfged := 0
  eeCfgSts := 0
  eeWaitEvt := 0
  waitRsp := 0

/-! ## The sizes cover the routes -/

def techSize (env : EeEnv) (m : Masks) : Nat :=
  5 * (techList.countP fun x => powerCfg env.nci2 true m x.1 ≠ 0)

def protoSize (env : EeEnv) (m : Masks) : Nat :=
  5 * (protoList.countP fun x => powerCfg env.nci2 true m x.1 ≠ 0)

/-- The sizes of a block are not less than what its routes take, and its entries are as
many and as long as the handlers let them be. -/
structure Sized (env : EeEnv) (cb : Ecb) : Prop where
  tech : techSize env cb.tech ≤ cb.sizeMaskTech
  techLe : cb.sizeMaskTech ≤ 15
  proto : protoSize env cb.proto ≤ cb.sizeMaskProto
  protoLe : cb.sizeMaskProto ≤ 25
  aid : (cb.aids.map aidSize).sum ≤ cb.sizeAid
  aidLe : cb.sizeAid ≤ 5100
  aidLen : ∀ e ∈ cb.aids, e.aid.length ≤ 16
  aidCount : cb.aids.length ≤ 255
  sysCode : (cb.sysCodes.map sysCodeSize).sum ≤ cb.sizeSysCode
  sysCodeLe : cb.sizeSysCode ≤ 60
  codeLen : ∀ e ∈ cb.sysCodes, e.code.length = 2
  sysCount : cb.sysCodes.length ≤ 10

section Blocks
variable {env : EeEnv} {cb : Ecb}

theorem techSize_le (m : Masks) : techSize env m ≤ 15 := by
  have hcount : (techList.countP fun x => powerCfg env.nci2 true m x.1 ≠ 0) ≤ techList.length :=
    List.countP_le_length
  unfold techSize
  simp only [List.length_cons, List.length_nil] at hcount
  omega

theorem protoSize_le (m : Masks) : protoSize env m ≤ 25 := by
  have hcount : (protoList.countP fun x => powerCfg env.nci2 true m x.1 ≠ 0) ≤ protoList.length :=
    List.countP_le_length
  unfold protoSize
  simp only [List.length_cons, List.length_nil] at hcount
  omega

theorem sum_le_mul {α : Type} {f : α → Nat} {b : Nat} {l : List α} (h : ∀ a ∈ l, f a ≤ b) :
    (l.map f).sum ≤ l.length * b := by
  have hcard := List.sum_le_card_nsmul (l.map f) b (by simpa using h)
  simpa using hcard

theorem aidSize_le {e : AidEntry} (h : e.aid.length ≤ 16) : aidSize e ≤ 20 := by
  unfold aidSize
  split <;> omega

theorem aidSum_le {l : List AidEntry} (hlen : ∀ e ∈ l, e.aid.length ≤ 16)
    (hcount : l.length ≤ 255) : (l.map aidSize).sum ≤ 5100 := by
  have hsum : (l.map aidSize).sum ≤ l.length * 20 :=
    sum_le_mul fun e he => aidSize_le (hlen e he)
  omega

theorem sysCodeSum_le {l : List SysCode} (h : l.length ≤ 10) : (l.map sysCodeSize).sum ≤ 60 := by
  have hsum : (l.map sysCodeSize).sum ≤ l.length * 6 := by
    apply sum_le_mul
    intro e _
    unfold sysCodeSize
    split <;> omega
  omega

theorem forall_modify {α : Type} {P : α → Prop} {g : α → α} (h : ∀ a, P a → P (g a)) {l : List α}
    (hl : ∀ a ∈ l, P a) (i : Nat) : ∀ a ∈ l.modify i g, P a := by
  induction l generalizing i with
  | nil => simp
  | cons b l ih =>
    have hb : P b := hl b (by simp)
    have hrest : ∀ a ∈ l, P a := fun a ha => hl a (by simp [ha])
    cases i with
    | zero =>
      intro a ha
      rw [List.modify_zero_cons, List.mem_cons] at ha
      rcases ha with rfl | ha
      · exact h b hb
      · exact hrest a ha
    | succ i =>
      intro a ha
      rw [List.modify_succ_cons, List.mem_cons] at ha
      rcases ha with rfl | ha
      · exact hb
      · exact ih hrest i a ha

theorem powerCfg_off {nci2 screens : Bool} {m : Masks} (hon : m.switchOn = 0)
    (hoff : m.switchOff = 0) (hbatt : m.batteryOff = 0) (bit : UInt8) :
    powerCfg nci2 screens m bit = 0 := by
  simp [powerCfg, bitIf, hon, hoff, hbatt]

end Blocks

def SizedAll (env : EeEnv) (s : Ee) : Prop := ∀ k, Sized env (s.ecb k)

end NfcStack.Nfa
