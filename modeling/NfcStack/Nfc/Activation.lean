import NfcStack.Lib.Bytes
import NfcStack.Nfc.ControlBlock

/- The RF notifications of `nfc_ncif.cc`: `nfc_ncif_decode_rf_params`,
   `nfc_ncif_proc_discover_ntf` and `nfc_ncif_proc_activate`. The notification is
   the bytes of its declared length; `p` is an offset into it, and `none` is a read
   behind its end. There is a `p_discv_cback`; `nfc_set_state` and `timer_start` are
   left out. The unions of `tNFC_RF_TECH_PARAMS` and `tNFC_INTF_PARAMS` are
   zeroed memory into which a member is written at its offset.

   What is proved:
     1. `decodeRfParams_some`, `isoDepParams_spec`: what is read is inside, for
        any bytes.
     2. `notifications_atomic_iff`: a malformed notification is refused, and the RF
        connection kept, exactly if one of the lengths that are tested is too long.
     3. `nfcid1_not_refused`: an NFCID1 longer than the RF parameters is accepted.
        The decoder stops there, and does not say so.

   `Malformed` tests a length against what is left of the RF parameters, or of the
   notification behind them; the code cuts some lengths to their array first. -/
namespace NfcStack.Nfc.Activation
open NfcStack.Lib

def nciStatusOk : UInt8 := 0x00
def nciStatusFailed : UInt8 := 0x03
def nciInterfaceFrame : UInt8 := 1
def nciInterfaceIsoDep : UInt8 := 2
def nciProtocolT1t : UInt8 := 0x01
def nciProtocolNfcDep : UInt8 := 0x05
def nciDiscoveryTypePollA : UInt8 := 0x00
def nciDiscoveryTypePollB : UInt8 := 0x01
def nciDiscoveryTypePollF : UInt8 := 0x02
def nciDiscoveryTypePollV : UInt8 := 0x06
def nciDiscoveryTypeListenA : UInt8 := 0x80
def nciDiscoveryTypeListenB : UInt8 := 0x81
def nciDiscoveryTypeListenF : UInt8 := 0x82
abbrev nciMsgHdrSize : Nat := 3
abbrev nciNfcid1MaxLen : Nat := 10
abbrev nciT1tHrLen : Nat := 2
abbrev nciMaxSensbResLen : Nat := 12
abbrev nfcNfcid0MaxLen : Nat := 4
abbrev nciMaxSensfResLen : Nat := 18
abbrev nciNfcid2Len : Nat := 8
abbrev nciMrtiCheckIndex : Nat := 13
abbrev nciMrtiUpdateIndex : Nat := 14
abbrev nfcIso15693UidLen : Nat := 8
abbrev nfcKovioMaxLen : Nat := 32
abbrev nfcMaxRawParams : Nat := 16
abbrev nfcMaxAtsLen : Nat := 64
abbrev nfcMaxHisBytesLen : Nat := 50
abbrev nfcMaxAttribLen : Nat := 58
abbrev nfcMaxGenBytesLen : Nat := 48
abbrev nfcPbAttribReqFixedBytes : Nat := 1
abbrev nfcLbAttribReqFixedBytes : Nat := 8
def nciIsoDepMaxInfo : UInt8 := 253
def nciAtsTaMask : UInt8 := 0x10
def nciAtsTbMask : UInt8 := 0x20
def nciAtsTcMask : UInt8 := 0x40

/-- The configured values of `p_nfa_proprietary_cfg`. -/
structure ProprietaryCfg where
  proProtocol18092Active : UInt8
  proDiscoveryKovioPoll : UInt8
  deriving DecidableEq, Repr

/-! ## Reading -/

section Read
variable {α : Type} (ntf : Bytes)

/-- `*p`. -/
def readU8 (p : Nat) (k : UInt8 → Option α) : Option α :=
  if p < ntf.length then k (ntf.getD p 0) else none

/-- `STREAM_TO_ARRAY`. -/
def readArray (p n : Nat) (k : Bytes → Option α) : Option α :=
  if p + n ≤ ntf.length then k (slice ntf p n) else none

/-- The length that stands at an offset. -/
def declared (p : Nat) : Nat := (ntf.getD p 0).toNat

variable {ntf}

theorem readU8_of {p : Nat} (h : p < ntf.length) (k : UInt8 → Option α) :
    readU8 ntf p k = k (ntf.getD p 0) := if_pos h

theorem readArray_of {p n : Nat} (h : p + n ≤ ntf.length) (k : Bytes → Option α) :
    readArray ntf p n k = k (slice ntf p n) := if_pos h

end Read

/-! ## The RF parameters -/

/-- The zeroed `tNFC_RF_TECH_PARAMU`; `tNFC_RF_ACM_P_PARAMS` is its longest member. -/
def rfParamZero : Bytes := List.replicate 116 0

def paHrLen : Nat := 14

section Decode
variable (ntf : Bytes) (p plen : Nat) (param : Bytes)

/-- The HRx of `tNFC_RF_PA_PARAMS`. -/
def decodeHr : Option Bytes :=
  readU8 ntf p fun hrLen =>
  let param := blit param paHrLen [hrLen]
  if hrLen.toNat = nciT1tHrLen then
    readArray ntf (p + 1) nciT1tHrLen fun hr => some (blit param 15 hr)
  else some param

/-- `tNFC_RF_PA_PARAMS`: `sens_res` at 0, `nfcid1_len` at 2, `nfcid1` at 3, `sel_rsp` at 13. -/
def decodePollA : Option Bytes :=
  if plen < 3 then some param
  else
    readArray ntf p 2 fun sensRes => readU8 ntf (p + 2) fun len =>
    let n := min len.toNat nciNfcid1MaxLen
    let param := blit (blit param 0 sensRes) 2 [UInt8.ofNat n]
    if plen - 3 < n + 1 then some param
    else
      readArray ntf (p + 3) n fun nfcid1 => readU8 ntf (p + 3 + n) fun u8 =>
      let param := blit param 3 nfcid1
      if u8 = 0 then
        if plen = 7 + n + u8.toNat then decodeHr ntf (p + 4 + n) param else some param
      else if plen - 3 - (n + 1) < 1 then some param
      else
        -- one byte is taken, whatever the length says
        readU8 ntf (p + 4 + n) fun selRsp =>
        let param := blit param 13 [selRsp]
        if plen = 7 + n + u8.toNat then decodeHr ntf (p + 5 + n) param else some param

/-- `tNFC_RF_PB_PARAMS`: `sensb_res` at 1, `nfcid0` at 13, `fwi` at 17. -/
def decodePollB : Option Bytes :=
  if plen < 1 then some param
  else
    readU8 ntf p fun len =>
    let n := min len.toNat nciMaxSensbResLen
    let param := blit param 0 [UInt8.ofNat n]
    if plen - 1 < n then some param
    else
      readArray ntf (p + 1) n fun sensbRes =>
      let param := blit param 1 sensbRes
      let param := blit param 13 (slice param 1 nfcNfcid0MaxLen)
      some (blit param 17 [param.getD (1 + 10) 0 >>> 4])

/-- `tNFC_RF_PF_PARAMS`: `sensf_res` at 2, `nfcid2` at 20, `mrti_check` at 28. -/
def decodePollF : Option Bytes :=
  if plen < 2 then some param
  else
    readU8 ntf p fun bitRate => readU8 ntf (p + 1) fun len =>
    let n := min len.toNat nciMaxSensfResLen
    let param := blit param 0 [bitRate, UInt8.ofNat n]
    if plen - 2 < n then some param
    else
      readArray ntf (p + 2) n fun sensfRes =>
      let param := blit param 2 sensfRes
      if n < nciMrtiUpdateIndex + 1 then some param
      else
        let param := blit param 20 (slice param 2 nciNfcid2Len)
        some (blit param 28 [param.getD (2 + nciMrtiCheckIndex) 0,
          param.getD (2 + nciMrtiUpdateIndex) 0])

/-- `tNFC_RF_LF_PARAMS`. -/
def decodeListenF : Option Bytes :=
  if plen < 1 then some param
  else
    readU8 ntf p fun u8 =>
    if u8 = 0 ∨ plen - 1 < nciNfcid2Len then some param
    else readArray ntf (p + 1) nciNfcid2Len fun nfcid2 => some (blit param 0 nfcid2)

/-- `tNFC_RF_PISO15693_PARAMS`. -/
def decodePollV : Option Bytes :=
  if plen < 2 then some param
  else
    readU8 ntf p fun flag => readU8 ntf (p + 1) fun dsfid =>
    let param := blit param 0 [flag, dsfid]
    if plen - 2 < nfcIso15693UidLen then some param
    else readArray ntf (p + 2) nfcIso15693UidLen fun uid => some (blit param 2 uid)

/-- `tNFC_RF_PKOVIO_PARAMS`. -/
def decodePollKovio : Option Bytes :=
  let n := min plen nfcKovioMaxLen
  readArray ntf p n fun uid => some (blit param 0 (UInt8.ofNat n :: uid))

end Decode

/-- `nfc_ncif_decode_rf_params`: the parameters, and the offset behind them. -/
def decodeRfParams (cfg : ProprietaryCfg) (ntf : Bytes) (p : Nat) (mode : UInt8) :
    Option (Bytes × Nat) :=
  readU8 ntf p fun b =>
  let len := b.toNat
  let param :=
    if mode = nciDiscoveryTypePollA then decodePollA ntf (p + 1) len rfParamZero
    else if mode = nciDiscoveryTypePollB then decodePollB ntf (p + 1) len rfParamZero
    else if mode = nciDiscoveryTypePollF then decodePollF ntf (p + 1) len rfParamZero
    else if mode = nciDiscoveryTypeListenF then decodeListenF ntf (p + 1) len rfParamZero
    else if mode = nciDiscoveryTypePollV then decodePollV ntf (p + 1) len rfParamZero
    else if mode = cfg.proDiscoveryKovioPoll then decodePollKovio ntf (p + 1) len rfParamZero
    else some rfParamZero
  param.map fun param => (param, p + 1 + len)

/-! ## The discovery notification -/

structure ResultDevt where
  status : UInt8
  rfDiscId : UInt8
  protocol : UInt8
  mode : UInt8
  param : Bytes
  more : UInt8
  deriving DecidableEq, Repr

/-- `nfc_ncif_proc_discover_ntf`, with the event for `p_discv_cback`. What the event holds is
not initialized; `evt` is what was on the stack. -/
def procDiscoverNtf (cfg : ProprietaryCfg) (evt : ResultDevt) (ntf : Bytes) : Option ResultDevt :=
  if ntf.length < nciMsgHdrSize + 4 then some { evt with status := nciStatusFailed }
  else
    readU8 ntf 3 fun rfDiscId => readU8 ntf 4 fun protocol => readU8 ntf 5 fun mode =>
    readU8 ntf 6 fun len =>
    let plen := ntf.length - (nciMsgHdrSize + 4)
    let evt := { evt with
      status := nciStatusOk, rfDiscId := rfDiscId, protocol := protocol, mode := mode }
    if plen < len.toNat + 1 then some { evt with status := nciStatusFailed }
    else
      (decodeRfParams cfg ntf 6 mode).bind fun x =>
      readU8 ntf x.2 fun more => some { evt with param := x.1, more := more }

/-! ## The activation notification -/

structure ActivateDevt where
  rfDiscId : UInt8
  protocol : UInt8
  mode : UInt8
  param : Bytes
  dataMode : UInt8
  txBitrate : UInt8
  rxBitrate : UInt8
  type : UInt8
  intfParam : Bytes
  deriving DecidableEq, Repr

/-- `tNFC_DISCOVER` is a union: its `status` is the byte of `activate.rf_disc_id`. -/
def ActivateDevt.status (evt : ActivateDevt) : UInt8 := evt.rfDiscId

def ActivateDevt.failed (evt : ActivateDevt) : ActivateDevt := { evt with rfDiscId := nciStatusFailed }

/-- After `memset`. -/
def ActivateDevt.zero : ActivateDevt := ⟨0, 0, 0, rfParamZero, 0, 0, 0, 0, List.replicate 119 0⟩

section IsoDep
variable (ntf : Bytes) (p plen : Nat) (param : Bytes)

/-- An interface byte of an ATS, if T0 announces it; `none` if it is not there. -/
def atsByte (present : Bool) (pp : Bytes) : Option (Option UInt8 × Bytes) :=
  if present then
    match pp with
    | [] => none
    | b :: pp => some (some b, pp)
  else some (none, pp)

/-- The ATS behind its length, of `tNFC_INTF_PA_ISO_DEP`: `nad_used` at 65, `fwi` and `sfgi` at
66, `his_byte_len` at 68. A flag says whether it was accepted. -/
def parseAts (ats : Bytes) : Bool × Bytes :=
  let t0 := ats.headD 0
  match atsByte (t0 &&& nciAtsTaMask ≠ 0) ats.tail with
  | none => (false, param)
  | some (_, pp) =>
    match atsByte (t0 &&& nciAtsTbMask ≠ 0) pp with
    | none => (false, param)
    | some (tb, pp) =>
      let param := match tb with
        | none => param
        | some tb => blit param 66 [tb >>> 4 &&& 0x0F, tb &&& 0x0F]
      match atsByte (t0 &&& nciAtsTcMask ≠ 0) pp with
      | none => (false, param)
      | some (tc, pp) =>
        let param := match tc with
          | none => param
          | some tc => blit param 65 [tc &&& 1]
        let n := min pp.length nfcMaxHisBytesLen
        (true, blit param 68 (UInt8.ofNat n :: pp.take n))

/-- An ISO-DEP parameter with its length before it, cut to its array. -/
def readLv (max : Nat) (k : Bytes → Bytes → Bool × Bytes) : Option (Bool × Bytes) :=
  if plen < 1 then some (false, param)
  else
    readU8 ntf p fun len =>
    let n := min len.toNat max
    let param := blit param 0 [UInt8.ofNat n]
    if len = 0 then some (true, param)
    else if plen - 1 < n then some (false, param)
    else readArray ntf (p + 1) n fun bs => some (k (blit param 1 bs) bs)

/-- `hi_info_len` at 59 and `hi_info` behind it. -/
def putHiInfo (fixed : Nat) (attrib : Bytes) : Bytes :=
  if attrib.length > fixed then
    let n := min (attrib.length - fixed) nfcMaxGenBytesLen
    blit param 59 (UInt8.ofNat n :: slice attrib fixed n)
  else param

/-- The parameters of NCI_INTERFACE_ISO_DEP. -/
def isoDepParams (mode : UInt8) : Option (Bool × Bytes) :=
  if mode = nciDiscoveryTypePollA then readLv ntf p plen param nfcMaxAtsLen parseAts
  else if mode = nciDiscoveryTypeListenA then
    if plen < 1 then some (false, param)
    else readU8 ntf p fun rats => some (true, blit param 0 [rats])
  else if mode = nciDiscoveryTypePollB then
    readLv ntf p plen param nfcMaxAttribLen fun param res =>
      -- `mbli` is behind `hi_info`
      (true, putHiInfo (blit param 108 [res.headD 0 >>> 4]) nfcPbAttribReqFixedBytes res)
  else if mode = nciDiscoveryTypeListenB then
    readLv ntf p plen param nfcMaxAttribLen fun param req =>
      if req.length < nfcNfcid0MaxLen then (false, param)
      else (true, putHiInfo (blit param 108 (req.take nfcNfcid0MaxLen)) nfcLbAttribReqFixedBytes req)
  else some (true, param)

end IsoDep

/-- The RF connection takes what was activated. -/
def activated (cb : ConnCb) (evt : ActivateDevt) (buffSize numBuff : UInt8) : ConnCb :=
  { cb with
    actProtocol := evt.protocol
    actInterface := evt.type
    buffSize := buffSize
    numBuff := numBuff
    initCredits := numBuff }

/-- The end of `nfc_ncif_proc_activate`, from the activation parameters on. -/
def procIntfParams (cb : ConnCb) (ntf : Bytes) (p plen lenAct : Nat) (buffSize numBuff : UInt8)
    (evt : ActivateDevt) : Option (ConnCb × ActivateDevt) :=
  let n := min lenAct nfcMaxRawParams
  let evt := { evt with intfParam := blit evt.intfParam 0 [UInt8.ofNat n] }
  if plen < n then some (cb, evt.failed)
  else
    readArray ntf p n fun raw =>
    let evt := { evt with intfParam := blit evt.intfParam 1 raw }
    if evt.type = nciInterfaceIsoDep then
      let buffSize := if nciIsoDepMaxInfo < buffSize then nciIsoDepMaxInfo else buffSize
      (isoDepParams ntf p plen evt.intfParam evt.mode).map fun x =>
        let evt := { evt with intfParam := x.2 }
        if x.1 then (activated cb evt buffSize numBuff, evt) else (cb, evt.failed)
    else if evt.type = nciInterfaceFrame ∧ evt.protocol = nciProtocolT1t ∧ lenAct = nciT1tHrLen ∧
        evt.param.getD paHrLen 0 = 0 then
      let evt := { evt with param := blit evt.param paHrLen [UInt8.ofNat nciT1tHrLen] }
      if plen < 2 then some (cb, evt.failed)
      else
        readArray ntf p 2 fun hr =>
        let evt := { evt with param := blit evt.param 15 hr }
        some (activated cb evt buffSize numBuff, evt)
    else some (activated cb evt buffSize numBuff, evt)

/-- `nfc_ncif_proc_activate`, with the event for `p_discv_cback`. -/
def procActivate (cfg : ProprietaryCfg) (cb : ConnCb) (ntf : Bytes) :
    Option (ConnCb × ActivateDevt) :=
  if ntf.length < 7 then some (cb, ActivateDevt.zero.failed)
  else
    readU8 ntf 0 fun rfDiscId => readU8 ntf 1 fun type => readU8 ntf 2 fun protocol =>
    readU8 ntf 3 fun mode => readU8 ntf 4 fun buffSize => readU8 ntf 5 fun numBuff =>
    readU8 ntf 6 fun len =>
    let evt := { ActivateDevt.zero with
      rfDiscId := rfDiscId
      type := type
      protocol := if protocol = cfg.proProtocol18092Active then nciProtocolNfcDep else protocol
      mode := mode }
    if ntf.length - 7 < len.toNat + 4 then some (cb, evt.failed)
    else
      (decodeRfParams cfg ntf 6 mode).bind fun x =>
      readU8 ntf x.2 fun dataMode => readU8 ntf (x.2 + 1) fun txBitrate =>
      readU8 ntf (x.2 + 2) fun rxBitrate => readU8 ntf (x.2 + 3) fun lenAct =>
      procIntfParams cb ntf (x.2 + 4) (ntf.length - 7 - (len.toNat + 4)) lenAct.toNat buffSize numBuff
        { evt with param := x.1, dataMode := dataMode, txBitrate := txBitrate, rxBitrate := rxBitrate }

/-! ## What is read is inside -/

section Inside
variable {ntf : Bytes} {p plen : Nat} (param : Bytes)

theorem decodeHr_isSome (h : p + 3 ≤ ntf.length) : (decodeHr ntf p param).isSome := by
  unfold decodeHr
  rw [readU8_of (by omega)]
  dsimp only
  split
  · rw [readArray_of (by change p + 1 + 2 ≤ _; omega)]
    rfl
  · rfl

theorem decodePollA_isSome (h : p + plen ≤ ntf.length) : (decodePollA ntf p plen param).isSome := by
  unfold decodePollA
  split
  · rfl
  · rw [readArray_of (by omega), readU8_of (by omega)]
    dsimp only
    split
    · rfl
    · rw [readArray_of (by omega), readU8_of (by omega)]
      split
      · split
        · exact decodeHr_isSome _ (by omega)
        · rfl
      · next hu =>
        have hpos : 0 < (ntf.getD (p + 3 + min (ntf.getD (p + 2) 0).toNat nciNfcid1MaxLen) 0).toNat := by
          apply Nat.pos_of_ne_zero
          intro h0
          exact hu (UInt8.toNat_inj.mp h0)
        split
        · rfl
        · rw [readU8_of (by omega)]
          split
          · exact decodeHr_isSome _ (by omega)
          · rfl

theorem decodePollB_isSome (h : p + plen ≤ ntf.length) : (decodePollB ntf p plen param).isSome := by
  unfold decodePollB
  split
  · rfl
  · rw [readU8_of (by omega)]
    dsimp only
    split
    · rfl
    · rw [readArray_of (by omega)]
      rfl

theorem decodePollF_isSome (h : p + plen ≤ ntf.length) : (decodePollF ntf p plen param).isSome := by
  unfold decodePollF
  split
  · rfl
  · rw [readU8_of (by omega), readU8_of (by omega)]
    dsimp only
    split
    · rfl
    · rw [readArray_of (by omega)]
      split <;> rfl

theorem decodeListenF_isSome (h : p + plen ≤ ntf.length) :
    (decodeListenF ntf p plen param).isSome := by
  unfold decodeListenF
  split
  · rfl
  · rw [readU8_of (by omega)]
    split
    · rfl
    · rw [readArray_of (by omega)]
      rfl

theorem decodePollV_isSome (h : p + plen ≤ ntf.length) : (decodePollV ntf p plen param).isSome := by
  unfold decodePollV
  split
  · rfl
  · rw [readU8_of (by omega), readU8_of (by omega)]
    dsimp only
    split
    · rfl
    · rw [readArray_of (by omega)]
      rfl

end Inside

theorem decodeRfParams_some (cfg : ProprietaryCfg) {ntf : Bytes} {p : Nat} (mode : UInt8)
    (hp : p < ntf.length) (h : p + 1 + declared ntf p ≤ ntf.length) :
    ∃ param, decodeRfParams cfg ntf p mode = some (param, p + 1 + declared ntf p) := by
  unfold decodeRfParams
  rw [readU8_of hp]
  have hmap : ∀ {o : Option Bytes}, o.isSome →
      ∃ param, (o.map fun param => (param, p + 1 + declared ntf p)) =
        some (param, p + 1 + declared ntf p) := by
    intro o ho
    obtain ⟨x, hx⟩ := Option.isSome_iff_exists.mp ho
    exact ⟨x, by rw [hx]; rfl⟩
  apply hmap
  split
  · exact decodePollA_isSome _ h
  split
  · exact decodePollB_isSome _ h
  split
  · exact decodePollF_isSome _ h
  split
  · exact decodeListenF_isSome _ h
  split
  · exact decodePollV_isSome _ h
  split
  · unfold decodePollKovio
    rw [readArray_of (by unfold declared at h; omega)]
    rfl
  · rfl

/-! ## The lengths -/

/-- How many bytes T0 announces. -/
def interfaceBytes (t0 : UInt8) : Nat :=
  (if t0 &&& nciAtsTaMask ≠ 0 then 1 else 0) + (if t0 &&& nciAtsTbMask ≠ 0 then 1 else 0) +
    (if t0 &&& nciAtsTcMask ≠ 0 then 1 else 0)

section Lengths
variable (cfg : ProprietaryCfg) (ntf : Bytes)

/-- A length in the RF parameters, whose own length is at `p`, is more than what is left of them. -/
def RfMalformed (p : Nat) (mode : UInt8) : Prop :=
  let len := declared ntf p
  if mode = nciDiscoveryTypePollA then
    -- SENS_RES, NFCID1, SEL_RES, and HRx if there is more
    let n := declared ntf (p + 3)
    let s := declared ntf (p + 4 + n)
    len < 4 + n + s ∨ 4 + n + s < len ∧ len < 5 + n + s + declared ntf (p + 5 + n + s)
  else if mode = nciDiscoveryTypePollB then len < 1 + declared ntf (p + 1)
  else if mode = nciDiscoveryTypePollF then len < 2 + declared ntf (p + 2)
  else if mode = nciDiscoveryTypeListenF then len < 1 + declared ntf (p + 1)
  else if mode = nciDiscoveryTypePollV then len < 2 + nfcIso15693UidLen
  else False

/-- An ISO-DEP parameter at `p` is longer than what is left, or shorter than its T0 says. -/
def IsoMalformed (p : Nat) (mode : UInt8) : Prop :=
  let left := ntf.length - p
  if mode = nciDiscoveryTypePollA then
    left < 1 + declared ntf p ∨
      declared ntf p ≠ 0 ∧ declared ntf p < 1 + interfaceBytes (ntf.getD (p + 1) 0)
  else if mode = nciDiscoveryTypeListenA then left < 1
  else if mode = nciDiscoveryTypePollB ∨ mode = nciDiscoveryTypeListenB then
    left < 1 + declared ntf p
  else False

/-- The same with the length cut to its array; and ATTRIB must hold an NFCID0. -/
def IsoRefused (p : Nat) (mode : UInt8) : Prop :=
  let left := ntf.length - p
  if mode = nciDiscoveryTypePollA then
    let n := min (declared ntf p) nfcMaxAtsLen
    left < 1 + n ∨ n ≠ 0 ∧ n < 1 + interfaceBytes (ntf.getD (p + 1) 0)
  else if mode = nciDiscoveryTypeListenA then left < 1
  else if mode = nciDiscoveryTypePollB then left < 1 + min (declared ntf p) nfcMaxAttribLen
  else if mode = nciDiscoveryTypeListenB then
    let n := min (declared ntf p) nfcMaxAttribLen
    left < 1 + n ∨ n ≠ 0 ∧ n < nfcNfcid0MaxLen
  else False

/-- Where the length of the activation parameters is: behind the RF parameters and three bytes. -/
def lenActAt : Nat := 10 + declared ntf 6

def Malformed : Prop :=
  ntf.length < 7 ∨ ntf.length < 11 + declared ntf 6 ∨ RfMalformed ntf 6 (ntf.getD 3 0) ∨
    ntf.length < lenActAt ntf + 1 + declared ntf (lenActAt ntf) ∨
      ntf.getD 1 0 = nciInterfaceIsoDep ∧ IsoMalformed ntf (lenActAt ntf + 1) (ntf.getD 3 0)

/-- One of the lengths that `nfc_ncif_proc_activate` tests itself is too long. -/
def Refused : Prop :=
  ntf.length < 7 ∨ ntf.length < 11 + declared ntf 6 ∨
    ntf.length < lenActAt ntf + 1 + min (declared ntf (lenActAt ntf)) nfcMaxRawParams ∨
      ntf.getD 1 0 = nciInterfaceIsoDep ∧ IsoRefused ntf (lenActAt ntf + 1) (ntf.getD 3 0)

def MalformedDiscover : Prop :=
  ntf.length < nciMsgHdrSize + 4 ∨ ntf.length < nciMsgHdrSize + 5 + declared ntf 6 ∨
    RfMalformed ntf 6 (ntf.getD 5 0)

def RefusedDiscover : Prop :=
  ntf.length < nciMsgHdrSize + 4 ∨ ntf.length < nciMsgHdrSize + 5 + declared ntf 6

end Lengths

/-! ## What is refused -/

theorem atsByte_spec (present : Bool) (pp : Bytes) :
    match atsByte present pp with
    | none => pp.length < if present then 1 else 0
    | some x => x.2.length + (if present then 1 else 0) = pp.length := by
  cases present with
  | false => simp [atsByte]
  | true => cases pp <;> simp [atsByte]

theorem parseAts_refused (param ats : Bytes) :
    (parseAts param ats).1 = false ↔ ats.tail.length < interfaceBytes (ats.headD 0) := by
  unfold parseAts interfaceBytes
  have ha := atsByte_spec (ats.headD 0 &&& nciAtsTaMask ≠ 0) ats.tail
  simp only [decide_eq_true_eq] at ha ⊢
  split
  · next h => rw [h] at ha; simp only [true_iff]; dsimp only at ha; omega
  · next pa h =>
    rw [h] at ha
    have hb := atsByte_spec (ats.headD 0 &&& nciAtsTbMask ≠ 0) pa
    simp only [decide_eq_true_eq] at hb
    split
    · next h => rw [h] at hb; simp only [true_iff]; dsimp only at ha hb; omega
    · next tb pb h =>
      rw [h] at hb
      have hc := atsByte_spec (ats.headD 0 &&& nciAtsTcMask ≠ 0) pb
      simp only [decide_eq_true_eq] at hc
      split
      · next h => rw [h] at hc; simp only [true_iff]; dsimp only at ha hb hc; omega
      · next tc pc h =>
        rw [h] at hc
        simp only [Bool.true_eq_false, false_iff]
        dsimp only at ha hb hc
        omega

section Refusal
variable {ntf : Bytes} {p plen : Nat}

theorem readLv_spec (hp : p + plen = ntf.length) (param : Bytes) {max : Nat} (hmax : 0 < max)
    {k : Bytes → Bytes → Bool × Bytes} {bad : Prop}
    (hk : ∀ param, min (declared ntf p) max ≠ 0 → p + 1 + min (declared ntf p) max ≤ ntf.length →
      ((k param (slice ntf (p + 1) (min (declared ntf p) max))).1 = false ↔ bad)) :
    ∃ x, readLv ntf p plen param max k = some x ∧
      (x.1 = false ↔ ntf.length - p < 1 + min (declared ntf p) max ∨
        min (declared ntf p) max ≠ 0 ∧ bad) := by
  unfold readLv
  split
  · refine ⟨_, rfl, ?_⟩
    simp only [true_iff]
    exact Or.inl (by omega)
  · rw [readU8_of (by omega)]
    dsimp only
    split
    · next h0 =>
      have hzero : declared ntf p = 0 := by rw [declared, h0]; rfl
      refine ⟨_, rfl, ?_⟩
      simp only [Bool.true_eq_false, false_iff, hzero]
      omega
    · next h0 =>
      have hpos : declared ntf p ≠ 0 := fun h => h0 (UInt8.toNat_inj.mp h)
      change ∃ x, (if plen - 1 < min (declared ntf p) max then _ else
        readArray ntf (p + 1) (min (declared ntf p) max) _) = some x ∧ _
      split
      · refine ⟨_, rfl, ?_⟩
        simp only [true_iff]
        exact Or.inl (by omega)
      · rw [readArray_of (by omega)]
        refine ⟨_, rfl, ?_⟩
        rw [hk _ (by omega) (by omega)]
        constructor
        · exact fun hbad => Or.inr ⟨by omega, hbad⟩
        · intro h
          obtain h | h := h
          · omega
          · exact h.2

theorem headD_slice {bs : Bytes} {p n : Nat} (hn : n ≠ 0) (h : p + n ≤ bs.length) :
    (slice bs p n).headD 0 = bs.getD p 0 := by
  have hlen := length_slice h
  rw [List.headD_eq_head?_getD, List.head?_eq_getElem?, List.getD_eq_getElem?_getD, slice]
  rw [List.getElem?_take_of_lt (by omega), List.getElem?_drop, Nat.add_zero]

theorem isoDepParams_spec (hp : p + plen = ntf.length) (param : Bytes) (mode : UInt8) :
    ∃ x, isoDepParams ntf p plen param mode = some x ∧ (x.1 = false ↔ IsoRefused ntf p mode) := by
  unfold isoDepParams IsoRefused
  dsimp only
  split
  · apply readLv_spec hp param (by decide)
    intro param hn hin
    have hlen := length_slice hin
    rw [parseAts_refused, headD_slice hn hin, List.length_tail, hlen]
    omega
  split
  · split
    · exact ⟨_, rfl, by simp only [true_iff]; omega⟩
    · rw [readU8_of (by omega)]
      exact ⟨_, rfl, by simp only [Bool.true_eq_false, false_iff]; omega⟩
  split
  · obtain ⟨x, hx, hiff⟩ := @readLv_spec ntf p plen hp param nfcMaxAttribLen (by decide)
      (fun param res => (true, putHiInfo (blit param 108 [res.headD 0 >>> 4])
        nfcPbAttribReqFixedBytes res)) False (fun _ _ _ => by simp)
    refine ⟨x, hx, ?_⟩
    rw [hiff]
    simp
  split
  · apply readLv_spec hp param (by decide)
    intro param hn hin
    rw [length_slice hin]
    split <;> simp [*]
  · exact ⟨_, rfl, by simp⟩

/-- The connection is kept, and the event says that it failed. -/
def IsRefusal (cb : ConnCb) (x : ConnCb × ActivateDevt) : Prop :=
  x.1 = cb ∧ x.2.status = nciStatusFailed

theorem procIntfParams_spec (cb : ConnCb) (hp : p + plen = ntf.length) (lenAct : Nat)
    (buffSize numBuff : UInt8) (evt : ActivateDevt) :
    ∃ x, procIntfParams cb ntf p plen lenAct buffSize numBuff evt = some x ∧
      (ntf.length < p + min lenAct nfcMaxRawParams ∨
          evt.type = nciInterfaceIsoDep ∧ IsoRefused ntf p evt.mode → IsRefusal cb x) ∧
      (¬ (ntf.length < p + min lenAct nfcMaxRawParams ∨
          evt.type = nciInterfaceIsoDep ∧ IsoRefused ntf p evt.mode) →
        x.1 = activated cb evt (if evt.type = nciInterfaceIsoDep ∧ nciIsoDepMaxInfo < buffSize then
          nciIsoDepMaxInfo else buffSize) numBuff ∧ x.2.status = evt.rfDiscId) := by
  unfold procIntfParams
  dsimp only
  split
  · exact ⟨_, rfl, fun _ => ⟨rfl, rfl⟩, fun h => absurd (Or.inl (by omega)) h⟩
  · next hraw =>
    rw [readArray_of (by omega)]
    split
    · next htype =>
      obtain ⟨x, hx, hiff⟩ := isoDepParams_spec hp
        (blit (blit evt.intfParam 0 [UInt8.ofNat (min lenAct nfcMaxRawParams)]) 1
          (slice ntf p (min lenAct nfcMaxRawParams))) evt.mode
      rw [hx, Option.map_some]
      refine ⟨_, rfl, ?_, ?_⟩
      · intro h
        obtain h | h := h
        · omega
        · rw [hiff.mpr h.2]
          exact ⟨rfl, rfl⟩
      · intro h
        have hok : x.1 = true := by
          by_contra hne
          exact h (Or.inr ⟨htype, hiff.mp (by simpa using hne)⟩)
        simp only [hok, if_true, htype, true_and]
        exact ⟨by simp [activated, htype], rfl⟩
    · next htype =>
      have hsame : ¬ (evt.type = nciInterfaceIsoDep ∧ nciIsoDepMaxInfo < buffSize) :=
        fun h => htype h.1
      have hnot : ¬ (ntf.length < p + min lenAct nfcMaxRawParams ∨
          evt.type = nciInterfaceIsoDep ∧ IsoRefused ntf p evt.mode) := by
        intro h
        obtain h | h := h
        · omega
        · exact htype h.1
      rw [if_neg hsame]
      split
      · next ht1t =>
        -- two bytes were found to be there before
        have htwo : lenAct = 2 := ht1t.2.2.1
        have h16 : nfcMaxRawParams = 16 := rfl
        rw [if_neg (by omega), readArray_of (by omega)]
        exact ⟨_, rfl, fun h => absurd h hnot, fun _ => ⟨rfl, rfl⟩⟩
      · exact ⟨_, rfl, fun h => absurd h hnot, fun _ => ⟨rfl, rfl⟩⟩

end Refusal

/-! ## The notifications -/

/-- The RF connection after an accepted notification. -/
def taken (cfg : ProprietaryCfg) (cb : ConnCb) (ntf : Bytes) : ConnCb :=
  { cb with
    actProtocol :=
      if ntf.getD 2 0 = cfg.proProtocol18092Active then nciProtocolNfcDep else ntf.getD 2 0
    actInterface := ntf.getD 1 0
    buffSize :=
      if ntf.getD 1 0 = nciInterfaceIsoDep ∧ nciIsoDepMaxInfo < ntf.getD 4 0 then nciIsoDepMaxInfo
      else ntf.getD 4 0
    numBuff := ntf.getD 5 0
    initCredits := ntf.getD 5 0 }

theorem procActivate_spec (cfg : ProprietaryCfg) (cb : ConnCb) (ntf : Bytes) :
    ∃ x, procActivate cfg cb ntf = some x ∧ (Refused ntf → IsRefusal cb x) ∧
      (¬ Refused ntf → x.1 = taken cfg cb ntf ∧ x.2.status = ntf.getD 0 0) := by
  unfold procActivate Refused
  split
  · next h => exact ⟨_, rfl, fun _ => ⟨rfl, rfl⟩, fun hn => absurd (Or.inl h) hn⟩
  · next h7 =>
    rw [readU8_of (by omega), readU8_of (by omega), readU8_of (by omega), readU8_of (by omega),
      readU8_of (by omega), readU8_of (by omega), readU8_of (by omega)]
    dsimp only
    change ∃ x, (if ntf.length - 7 < declared ntf 6 + 4 then _ else _) = some x ∧ _
    split
    · next h =>
      refine ⟨_, rfl, fun _ => ⟨rfl, rfl⟩, fun hn => absurd (Or.inr (Or.inl ?_)) hn⟩
      omega
    · next h11 =>
      obtain ⟨param, hparam⟩ := decodeRfParams_some cfg (ntf.getD 3 0)
        (show 6 < ntf.length by omega) (by omega)
      rw [hparam, Option.bind_some]
      dsimp only
      rw [readU8_of (by omega), readU8_of (by omega), readU8_of (by omega), readU8_of (by omega)]
      have hat : 6 + 1 + declared ntf 6 + 3 = lenActAt ntf := by unfold lenActAt; omega
      have hbehind : 6 + 1 + declared ntf 6 + 4 = lenActAt ntf + 1 := by unfold lenActAt; omega
      rw [hat, hbehind]
      obtain ⟨x, hx, href, hacc⟩ := procIntfParams_spec cb
        (show lenActAt ntf + 1 + (ntf.length - 7 - (declared ntf 6 + 4)) = ntf.length by
          unfold lenActAt; omega)
        (declared ntf (lenActAt ntf)) (ntf.getD 4 0) (ntf.getD 5 0)
        { ActivateDevt.zero with
          rfDiscId := ntf.getD 0 0
          type := ntf.getD 1 0
          protocol :=
            if ntf.getD 2 0 = cfg.proProtocol18092Active then nciProtocolNfcDep else ntf.getD 2 0
          mode := ntf.getD 3 0
          param := param
          dataMode := ntf.getD (6 + 1 + declared ntf 6) 0
          txBitrate := ntf.getD (6 + 1 + declared ntf 6 + 1) 0
          rxBitrate := ntf.getD (6 + 1 + declared ntf 6 + 2) 0 }
      refine ⟨x, hx, ?_, ?_⟩
      · intro h
        obtain h | h | h := h
        · omega
        · omega
        · exact href h
      · exact fun h => hacc fun hor => h (Or.inr (Or.inr hor))

theorem procDiscoverNtf_spec (cfg : ProprietaryCfg) (evt : ResultDevt) (ntf : Bytes) :
    ∃ evt', procDiscoverNtf cfg evt ntf = some evt' ∧
      (RefusedDiscover ntf → evt'.status = nciStatusFailed) ∧
        (¬ RefusedDiscover ntf → evt'.status = nciStatusOk) := by
  unfold procDiscoverNtf RefusedDiscover
  have hhdr : nciMsgHdrSize = 3 := rfl
  split
  · next h => exact ⟨_, rfl, fun _ => rfl, fun hn => absurd (Or.inl h) hn⟩
  · next h7 =>
    rw [readU8_of (by omega), readU8_of (by omega), readU8_of (by omega), readU8_of (by omega)]
    dsimp only
    change ∃ evt', (if ntf.length - (nciMsgHdrSize + 4) < declared ntf 6 + 1 then _ else _) =
      some evt' ∧ _
    split
    · next h => exact ⟨_, rfl, fun _ => rfl, fun hn => absurd (Or.inr (by omega)) hn⟩
    · next h8 =>
      obtain ⟨param, hparam⟩ := decodeRfParams_some cfg (ntf.getD 5 0)
        (show 6 < ntf.length by omega) (by omega)
      rw [hparam, Option.bind_some, readU8_of (by omega)]
      exact ⟨_, rfl, fun h => by omega, fun _ => rfl⟩

/-- What the events and the connection depend on. -/
def SameConn (a b : ConnCb) : Prop :=
  a.actProtocol = b.actProtocol ∧ a.actInterface = b.actInterface ∧ a.buffSize = b.buffSize ∧
    a.numBuff = b.numBuff

/-- The bytes as an activation and as a discovery notification: no read is behind their end,
and if they are malformed, the connection is kept and the event is not NFC_STATUS_OK. -/
structure NotificationsRight (cfg : ProprietaryCfg) (cb : ConnCb) (evt : ResultDevt) (ntf : Bytes) :
    Prop where
  decode : ∀ p mode, p < ntf.length → p + 1 + declared ntf p ≤ ntf.length →
    (decodeRfParams cfg ntf p mode).isSome
  activate : ∃ cb' evt', procActivate cfg cb ntf = some (cb', evt') ∧
    (Malformed ntf → SameConn cb cb' ∧ evt'.status ≠ nciStatusOk)
  discover : ∃ evt', procDiscoverNtf cfg evt ntf = some evt' ∧
    (MalformedDiscover ntf → evt'.status ≠ nciStatusOk)

/-- What a notification would change is there already, and the discovery id is not 0. -/
def AlreadySo (cfg : ProprietaryCfg) (cb : ConnCb) (ntf : Bytes) : Prop :=
  SameConn cb (taken cfg cb ntf) ∧ ntf.getD 0 0 ≠ nciStatusOk

theorem notifications_atomic_iff (cfg : ProprietaryCfg) (cb : ConnCb) (evt : ResultDevt)
    (ntf : Bytes) :
    NotificationsRight cfg cb evt ntf ↔
      (Malformed ntf → Refused ntf ∨ AlreadySo cfg cb ntf) ∧
        (MalformedDiscover ntf → RefusedDiscover ntf) := by
  obtain ⟨⟨cb', evt'⟩, hrun, href, hacc⟩ := procActivate_spec cfg cb ntf
  obtain ⟨evt'', hdisc, hfailed, hok⟩ := procDiscoverNtf_spec cfg evt ntf
  constructor
  · intro h
    refine ⟨fun hm => ?_, fun hm => ?_⟩
    · by_cases hr : Refused ntf
      · exact Or.inl hr
      · obtain ⟨cb₁, evt₁, hrun₁, hkeep⟩ := h.activate
        obtain ⟨rfl, rfl⟩ := Prod.mk.inj (Option.some.inj (hrun.symm.trans hrun₁))
        obtain ⟨hsame, hstatus⟩ := hkeep hm
        obtain ⟨htaken, hid⟩ := hacc hr
        exact Or.inr ⟨htaken ▸ hsame, hid ▸ hstatus⟩
    · by_contra hr
      obtain ⟨evt₁, hrun₁, hkeep⟩ := h.discover
      obtain rfl := Option.some.inj (hdisc.symm.trans hrun₁)
      exact hkeep hm (hok hr)
  · intro h
    refine ⟨?_, ⟨cb', evt', hrun, fun hm => ?_⟩, ⟨evt'', hdisc, fun hm => ?_⟩⟩
    · intro p mode hp hin
      obtain ⟨param, hparam⟩ := decodeRfParams_some cfg mode hp hin
      rw [hparam]
      rfl
    · by_cases hr : Refused ntf
      · obtain ⟨hcb, hstatus⟩ := href hr
        refine ⟨?_, by rw [hstatus]; decide⟩
        rw [show cb' = cb from hcb]
        exact ⟨rfl, rfl, rfl, rfl⟩
      · obtain ⟨htaken, hid⟩ := hacc hr
        obtain hbad | hso := h.1 hm
        · exact absurd hbad hr
        · rw [show cb' = taken cfg cb ntf from htaken]
          exact ⟨hso.1, by rw [hid]; exact hso.2⟩
    · rw [hfailed (h.2 hm)]
      decide

/-- NFC-A parameters of five bytes that say their NFCID1 has seven; and two bytes behind them. -/
def longNfcid1 : Bytes := [0x01, 0x01, 0x02, 0x00, 0x20, 0x01, 0x05, 0x44, 0x00, 0x07, 1, 2, 0, 0, 0, 0]

def someCfg : ProprietaryCfg := ⟨0x8F, 0x70⟩

theorem nfcid1_not_refused :
    Malformed longNfcid1 ∧
      (procActivate someCfg {} longNfcid1).map (fun x => (x.1.actProtocol, x.1.actInterface)) =
        some (0x02, nciInterfaceFrame) ∧
      ∀ evt, ¬ NotificationsRight someCfg {} evt longNfcid1 := by
  have hm : Malformed longNfcid1 := by
    unfold Malformed RfMalformed
    exact Or.inr (Or.inr (Or.inl (by decide)))
  refine ⟨hm, by decide, fun evt h => ?_⟩
  obtain ⟨cb', evt', hrun, hkeep⟩ := h.activate
  have hset : (procActivate someCfg {} longNfcid1).map (fun x => x.1.actProtocol) = some 0x02 := by
    decide
  rw [hrun, Option.map_some] at hset
  have hsame : (0 : UInt8) = cb'.actProtocol := (hkeep hm).1.1
  rw [← hsame] at hset
  exact absurd hset (by decide)

end NfcStack.Nfc.Activation
