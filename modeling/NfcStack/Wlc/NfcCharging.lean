import NfcStack.Framework.NdefRecord

/- Wireless charging (`NfcCharging.java`): the messages of the listener, WLC_CAP,
   WLC_CTL and WLC_STAI, and the state machine `HandleWLCState`, which the watchdog
   thread drives until the tag is lost, the battery is full or it is ended.

   A step is `none` where an exception leaves it: a payload is read past its end, or
   `mWatchdogWlc` is null. The bytes of a payload are signed where the source widens
   them to `int` without a mask. The message that the tag returns and `isMultiTag`
   are arguments of a step. A message has its records in an array that is not null,
   and `getRecords` does not throw. -/
namespace NfcStack.Wlc
open NfcStack.Ndef NfcStack.Framework

/-! ## Data -/

def WLCCAP : Bytes := [0x57, 0x4c, 0x43, 0x43, 0x41, 0x50]
def WLCCTL : Bytes := [0x57, 0x4c, 0x43, 0x43, 0x54, 0x4C]
def WLCSTAI : Bytes := [0x57, 0x4c, 0x43, 0x53, 0x54, 0x41, 0x49]
def USIWLC : Bytes := [0x75, 0x73, 0x69, 0x3A, 0x77, 0x6C, 0x63]
def WLCPI : Bytes := [0x57, 0x4c, 0x43, 0x49, 0x4e, 0x46]

def DISCONNECTED : Int := 0
def CONNECTED_NOT_CHARGING : Int := 1
def CONNECTED_CHARGING : Int := 2

def MODE_REQ_STATIC : Nat := 0
def MODE_REQ_NEGOTIATED : Nat := 1
def MODE_REQ_BATTERY_FULL : Nat := 2

/-- The states of `HandleWLCState`. -/
inductive WlcState where
  | readCap          -- STATE_2
  | staticWpt        -- STATE_6
  | negoWait         -- STATE_8
  | writeInfo        -- STATE_11
  | readCtl          -- STATE_12
  | readConf         -- STATE_16
  | checkWpt         -- STATE_17
  | handleWpt        -- STATE_21
  | infoReq          -- STATE_22
  | removal          -- STATE_24
  | timeCompleted    -- STATE_21_1
  | fod              -- STATE_21_2
  deriving DecidableEq, Repr

structure DeviceInfo where
  batteryLevel : Int
  receivePower : Int
  receiveVoltage : Int
  receiveCurrent : Int
  temperatureBattery : Int
  temperatureListener : Int
  vendorId : Int
  state : Int
  deriving DecidableEq, Repr

/-- `PresenceCheckWatchdog`: its thread runs while `running`. -/
structure Watchdog where
  watchdogTimeout : Int
  isPresent : Bool
  isStopped : Bool
  isFull : Bool
  deriving DecidableEq, Repr

def Watchdog.running (w : Watchdog) : Bool := w.isPresent && !w.isStopped && !w.isFull

/-- What the component does to the outside; `accepted` and `ended` mark where a WLC_CTL
record is accepted and where the thread ends. -/
inductive Obs where
  | wlcData (info : DeviceInfo)
  | startWlcPowerTransfer (sm : WlcState) (powerAdjReq : Int) (wptTime : Nat)
  | writeNdef (type payload : Bytes)
  | startPresenceChecking (delay : Nat)
  | stopPresenceChecking
  | accepted (payload : Bytes)
  | ended
  deriving DecidableEq, Repr

structure State where
  wlcState : WlcState
  -- WLCCAP
  capModeReq : Nat
  nwtMax : Nat
  capNegoWait : Nat
  capRdConf : Nat
  tNdefRdWt : Int
  capCapWt : Nat
  tCapWt : Int
  capNdefWrTo : Int
  tNdefWrTo : Int
  tNdefWrWt : Int
  mNwccRetry : Nat
  mNretry : Nat
  -- WLCCTL
  ctlErrorFlag : Int
  ctlBatteryStatus : Nat
  mCnt : Int
  ctlCntNew : Nat
  ctlWptReq : Nat
  ctlWptDuration : Nat
  tWptDuration : Int
  ctlWptInfoReq : Nat
  ctlPowerAdjReq : Int
  ctlBatteryLevel : Int
  ctlHoldOffWt : Int
  tHoldOffWt : Int
  ctlReceivePower : Int
  ctlReceiveVoltage : Int
  ctlTemperatureBattery : Int
  ctlTemperatureWlcl : Int
  ptx : UInt8
  mUpdatedBatteryLevel : Int
  mLastState : Int
  mNdefMessage : Option (List NdefRecord)
  mNdefPayload : Option Bytes
  mNdefPayload2 : Option Bytes
  mNdefType : Option Bytes
  nfcChargingOnGoing : Bool
  nfcChargingMode : Bool
  wlclPresence : Bool
  mFirstOccurrence : Bool
  wlcDeviceInfo : DeviceInfo
  mWatchdogWlc : Option Watchdog
  trace : List Obs

def State.emit (c : State) (obs : Obs) : State := { c with trace := c.trace ++ [obs] }

/-- `onWlcData(WlcDeviceInfo)`. -/
def State.onWlcData (c : State) : State := c.emit (.wlcData c.wlcDeviceInfo)

def State.setDeviceState (c : State) (state : Int) : State :=
  { c with wlcDeviceInfo := { c.wlcDeviceInfo with state := state } }

def unknownInfo : DeviceInfo :=
  { batteryLevel := -1, receivePower := -1, receiveVoltage := -1, receiveCurrent := -1
    temperatureBattery := -1, temperatureListener := -1, vendorId := -1, state := -1 }

def resetInternalValues (c : State) : State :=
  { c with
    mCnt := -1, mNretry := 0, capModeReq := 0, ctlBatteryLevel := -1, ctlReceivePower := -1
    ctlReceiveVoltage := -1, ctlTemperatureBattery := -1, ctlTemperatureWlcl := -1
    mUpdatedBatteryLevel := -1, mLastState := -1, wlcDeviceInfo := unknownInfo
    ctlErrorFlag := 0, mFirstOccurrence := true }

/-- The constructor. -/
def State.new : State :=
  resetInternalValues
    { wlcState := .readCap, capModeReq := 0, nwtMax := 0, capNegoWait := 0, capRdConf := 0
      tNdefRdWt := 0, capCapWt := 0, tCapWt := 0, capNdefWrTo := 0, tNdefWrTo := 0, tNdefWrWt := 0
      mNwccRetry := 0, mNretry := 0, ctlErrorFlag := 0, ctlBatteryStatus := 0, mCnt := -1
      ctlCntNew := 0, ctlWptReq := 0, ctlWptDuration := 0, tWptDuration := 0, ctlWptInfoReq := 0
      ctlPowerAdjReq := 0, ctlBatteryLevel := 0xFF, ctlHoldOffWt := 0, tHoldOffWt := 0
      ctlReceivePower := 0, ctlReceiveVoltage := 0, ctlTemperatureBattery := 0
      ctlTemperatureWlcl := 0, ptx := 100, mUpdatedBatteryLevel := -1, mLastState := -1
      mNdefMessage := none, mNdefPayload := none, mNdefPayload2 := none, mNdefType := none
      nfcChargingOnGoing := false, nfcChargingMode := false, wlclPresence := false
      mFirstOccurrence := true, wlcDeviceInfo := unknownInfo, mWatchdogWlc := none, trace := [] }

/-! ## Integers -/

/-- A `byte` widened to `int`. -/
def signed (b : UInt8) : Int := b.toInt8.toInt

/-- A sum of `int`s. -/
def int32 (n : Int) : Int := n.bmod (2 ^ 32)

/-- `(int) Math.pow(2, e)`: the cast cuts off a fraction and stops at the largest `int`. -/
def pow2 (e : Int) : Int :=
  if e < 0 then 0 else if e < 31 then 2 ^ e.toNat else 2 ^ 31 - 1

/-- `(hi << 8 | lo) >> 4` on signed bytes. -/
def vendorOf (hi lo : UInt8) : Int :=
  (((hi.toInt8.toInt32 <<< 8) ||| lo.toInt8.toInt32) >>> 4).toInt

/-! ## The messages of the listener -/

/-- One field of WLC_STAI: the control byte announces it and it is the next byte. -/
def staiField (payload : Bytes) (controlByte : UInt8) (s : State × Nat)
    (field : UInt8 × (State → Int → State)) : Option (State × Nat) :=
  if controlByte &&& field.1 = field.1 ∧ s.2 < payload.length then
    (payload[s.2 + 1]?).map fun b => (field.2 s.1 (signed b), s.2 + 1)
  else some s

def setBatteryLevel (c : State) (v : Int) : State :=
  { c with ctlBatteryLevel := v, wlcDeviceInfo := { c.wlcDeviceInfo with batteryLevel := v } }
def setReceivePower (c : State) (v : Int) : State :=
  { c with ctlReceivePower := v, wlcDeviceInfo := { c.wlcDeviceInfo with receivePower := v } }
def setReceiveVoltage (c : State) (v : Int) : State :=
  { c with ctlReceiveVoltage := v, wlcDeviceInfo := { c.wlcDeviceInfo with receiveVoltage := v } }
def setTemperatureBattery (c : State) (v : Int) : State :=
  { c with
    ctlTemperatureBattery := v
    wlcDeviceInfo := { c.wlcDeviceInfo with temperatureBattery := v } }
def setTemperatureListener (c : State) (v : Int) : State :=
  { c with
    ctlTemperatureWlcl := v
    wlcDeviceInfo := { c.wlcDeviceInfo with temperatureListener := v } }

def staiFields : List (UInt8 × (State → Int → State)) :=
  [(0x01, setBatteryLevel), (0x02, setReceivePower), (0x04, setReceiveVoltage),
    (0x08, setTemperatureBattery), (0x10, setTemperatureListener)]

def checkWlcStaiMsg (c : State) (payload : Bytes) : Option State :=
  (payload[0]?).bind fun controlByte =>
    (staiFields.foldlM (staiField payload controlByte) (c, 0)).map Prod.fst

/-- The end of both checks: the level of the battery is reported when it has risen. -/
def reportBattery (c : State) : State :=
  if c.mUpdatedBatteryLevel + 5 < c.wlcDeviceInfo.batteryLevel then
    { c.onWlcData with mUpdatedBatteryLevel := c.wlcDeviceInfo.batteryLevel }
  else c

/-- The fields of WLC_CAP. -/
def capFields (c : State) (b1 b2 b3 b4 b5 : UInt8) : State :=
  let capWt := min (b2 &&& 0x1F).toNat 0x13
  let wrTo := if signed b4 = 0 ∨ 4 < signed b4 then 4 else signed b4
  { c with
    capModeReq := ((b1 >>> 6) &&& 0x3).toNat
    nwtMax := ((b1 >>> 2) &&& 0xF).toNat
    capNegoWait := ((b1 >>> 1) &&& 0x1).toNat
    capRdConf := (b1 &&& 0x1).toNat
    capCapWt := capWt
    tCapWt := max (pow2 (capWt + 3)) 250
    tNdefRdWt := if b3 = 0 ∨ b3 = 0xFF then 2540 else b3.toNat * 10
    capNdefWrTo := wrTo
    tNdefWrTo := pow2 (wrTo + 5)
    tNdefWrWt := min (signed b5) 0x0A }

/-- A record that follows WLC_CAP. -/
def capRecord (c : State) (r : NdefRecord) : Option State :=
  let c := { c with mNdefType := some r.type, mNdefPayload2 := some r.payload }
  if r.type = WLCSTAI then checkWlcStaiMsg c r.payload
  else if r.type = USIWLC ∧ 8 < r.payload.length then
    some { c with wlcDeviceInfo :=
      { c.wlcDeviceInfo with
        vendorId := vendorOf (r.payload.getD 8 0) (r.payload.getD 7 0) } }
  else some c

def checkWlcCapMsg (c : State) : Option (List NdefRecord) → Option (State × Bool)
  | none => some (reportBattery c, false)
  | some [] => some ({ c with mNdefMessage := some [] }, false)
  | some (first :: rest) =>
    let c := { c with
      mNdefMessage := some (first :: rest)
      mNdefType := some first.type
      mNdefPayload := some first.payload }
    if first.type ≠ WLCCAP then some (c, false)
    else
      match first.payload with
      | _ :: b1 :: payload =>
        if b1 &&& 0xC0 = 0xC0 then some (c, false)
        else
          match payload with
          | b2 :: b3 :: b4 :: b5 :: _ =>
            (rest.foldlM capRecord (capFields c b1 b2 b3 b4 b5)).map fun c =>
              (reportBattery { c with nfcChargingOnGoing := true }, true)
          | _ => none
      | _ => none

/-- The fields of WLC_CTL. The limit of the duration is put on the request, and the
adjustment is taken as it is: every signed byte is at most 0x14 or at least 0xF6. -/
def ctlFields (c : State) (b0 b1 b2 b3 b5 : UInt8) : State :=
  let req := ((b1 &&& 0xC0) >>> 6).toNat
  let req := if 1 < req then 0 else req
  let duration := ((b1 &&& 0x3e) >>> 1).toNat
  let req := if 0x13 < duration then 0x13 else req
  let batteryStatus := ((b0 &&& 0x18) >>> 3).toNat
  let holdOffWt := if 0xF < signed b5 then 0xF else signed b5
  let c := { c with
    ctlErrorFlag := signed b0 / 128
    ctlBatteryStatus := batteryStatus
    ctlCntNew := (b0 &&& 0x7).toNat
    ctlWptReq := req
    ctlWptDuration := duration
    tWptDuration := pow2 (duration + 3)
    ctlWptInfoReq := if req = 0 then 0 else (b1 &&& 0x1).toNat
    ctlPowerAdjReq := if signed b2 ≤ 0x14 ∨ -10 ≤ signed b2 then signed b2 else 0
    ctlHoldOffWt := holdOffWt
    tHoldOffWt := holdOffWt * 2 }
  if signed b3 < 0x64 ∧ batteryStatus = 1 then setBatteryLevel c (signed b3) else c

/-- A record that follows WLC_CTL. -/
def ctlRecord (c : State) (r : NdefRecord) : Option State :=
  let c := { c with mNdefType := some r.type, mNdefPayload2 := some r.payload }
  if r.type = WLCSTAI then checkWlcStaiMsg c r.payload else some c

def checkWlcCtlMsg (c : State) : Option (List NdefRecord) → Option (State × Bool)
  | none => some (reportBattery c, false)
  | some [] => some (c, false)
  | some (first :: rest) =>
    let c := { c with mNdefType := some first.type, mNdefPayload := some first.payload }
    if first.type ≠ WLCCTL then some (c, false)
    else
      match first.payload with
      | b0 :: b1 :: b2 :: b3 :: _ :: b5 :: _ =>
        (rest.foldlM ctlRecord (ctlFields c b0 b1 b2 b3 b5)).map fun c => (reportBattery c, true)
      | _ => none

/-! ## The state machine -/

/-- `mWatchdogWlc.lost()`. -/
def State.lost (c : State) : State :=
  { c with mWatchdogWlc := c.mWatchdogWlc.map fun w => { w with isPresent := false } }

/-- `mWatchdogWlc.full()`. -/
def State.full (c : State) : State :=
  { c with mWatchdogWlc := c.mWatchdogWlc.map fun w => { w with isFull := true } }

/-- `lost()` and no listener: the presence check failed. -/
def State.absent (c : State) : State := { c.lost with wlclPresence := false }

def State.goto (c : State) (wlcState : WlcState) : State := { c with wlcState := wlcState }

/-- STATE_2 with a WLC_CAP message that has been checked. -/
def chooseMode (c : State) (multiTag : Bool) : State × Int :=
  if c.capModeReq = MODE_REQ_BATTERY_FULL then
    let c := c.full
    let c := { c with
      nfcChargingOnGoing := false
      wlcState := .removal
      wlcDeviceInfo := { c.wlcDeviceInfo with batteryLevel := 0x64, state := c.mLastState }
      mUpdatedBatteryLevel := 0x64
      mLastState := CONNECTED_NOT_CHARGING }
    (c.onWlcData, c.tCapWt)
  else if c.capModeReq = MODE_REQ_STATIC ∨ multiTag then (c.goto .staticWpt, 0)
  else (c.goto .negoWait, 5)

def handleReadCap (c : State) (ndef : Option (List NdefRecord)) (multiTag : Bool) :
    Option (State × Int) :=
  let c :=
    if c.mLastState ≠ CONNECTED_CHARGING then
      ({ c with mLastState := CONNECTED_CHARGING }.setDeviceState CONNECTED_CHARGING).onWlcData
    else c
  if c.mFirstOccurrence then
    match c.mNdefMessage with
    | none => some (c.absent, 1)
    | some _ => some (chooseMode { c with mFirstOccurrence := false } multiTag)
  else
    match ndef with
    | none => some ({ c with mNdefMessage := none }.absent, 1)
    | some msg =>
      (checkWlcCapMsg { c with mNdefMessage := some msg } (some msg)).map fun r =>
        if r.2 then chooseMode r.1 multiTag else (r.1.absent, 1)

def handleNegoWait (c : State) : State × Int :=
  if c.capNegoWait = 1 then
    if c.nwtMax < c.mNretry then (c.absent.goto .readCap, 1)
    else ({ c with mNretry := c.mNretry + 1 }.goto .readCap, c.tCapWt)
  else (c.goto .writeInfo, 5)

/-- The message was no valid WLC_CTL, or one with the counter of the last: it is read
again, three times. -/
def retryCtl (c : State) : State × Int :=
  if c.mNwccRetry < 3 then ({ c with mNwccRetry := c.mNwccRetry + 1 }, 30)
  else if c.mNwccRetry = 3 then ({ c with mNwccRetry := 0 }.lost, 1)
  else ({ c with wlclPresence := false }, 1)

def acceptCtl (c : State) : State × Int :=
  let c := { c with mNwccRetry := 0, mCnt := c.ctlCntNew }.emit (.accepted (c.mNdefPayload.getD []))
  if c.capRdConf = 1 then (c.goto .readConf, c.tNdefWrWt) else (c.goto .checkWpt, 1)

/-- STATE_12 with a message that has been checked. -/
def judgeCtl (c : State) (valid : Bool) : State × Int :=
  if !valid then retryCtl c
  else if c.mCnt = -1 then acceptCtl c
  else if (c.ctlCntNew : Int) = c.mCnt then
    if c.mNwccRetry ≤ 3 then retryCtl c else acceptCtl { c with wlclPresence := false }
  else acceptCtl c

def handleReadCtl (c : State) (ndef : Option (List NdefRecord)) : Option (State × Int) :=
  let c := { c with mNdefMessage := ndef }
  match ndef with
  | none => some (c.absent, 1)
  | some msg => (checkWlcCtlMsg c (some msg)).map fun r => judgeCtl r.1 r.2

def handleCheckWpt (c : State) : State × Int :=
  if c.ctlWptReq = 0 then
    let c := c.goto .removal
    (if 4000 < c.tWptDuration then c.emit (.startPresenceChecking 200) else c, c.tWptDuration)
  else (c.goto .handleWpt, 1 + c.tHoldOffWt)

/-- `HandleWLCState`: the next state, and the time to wait for it. -/
def handleWLCState (c : State) (ndef : Option (List NdefRecord)) (multiTag : Bool) :
    Option (State × Int) :=
  match c.wlcState with
  | .readCap => handleReadCap c ndef multiTag
  | .staticWpt =>
    some ((c.goto .readCap).emit (.startWlcPowerTransfer .staticWpt c.ctlPowerAdjReq c.capCapWt),
      int32 (c.tCapWt + 5000))
  | .negoWait => some (handleNegoWait c)
  | .writeInfo =>
    some ((c.emit (.writeNdef WLCPI [c.ptx, 0, 0, 0, 0, 0])).goto .readCtl, c.tNdefRdWt + 20)
  | .readCtl => handleReadCtl c ndef
  | .readConf => some ((c.emit (.writeNdef [] [])).goto .checkWpt, 1)
  | .checkWpt => some (handleCheckWpt c)
  | .handleWpt =>
    some ((c.emit (.startWlcPowerTransfer .handleWpt c.ctlPowerAdjReq c.ctlWptDuration)).goto
      .infoReq, int32 (c.tWptDuration + 5000))
  | .infoReq =>
    if c.ctlWptInfoReq = 1 then some (c.goto .writeInfo, 1) else some (c.goto .readCtl, 0)
  | .removal =>
    some ({ (c.emit .stopPresenceChecking).goto .readCap with nfcChargingOnGoing := false }.lost, 1)
  | .timeCompleted => some (c.goto .infoReq, 0)
  | .fod => some ({ c.goto .readCap with nfcChargingOnGoing := false }.lost, 0)

/-! ## The thread and the events -/

/-- The end of the thread of the watchdog. -/
def endRun (c : State) : State :=
  let c := resetInternalValues { c with nfcChargingOnGoing := false }
  let c := ({ c with mLastState := DISCONNECTED }.setDeviceState DISCONNECTED).onWlcData
  { c with mWatchdogWlc := none, nfcChargingMode := false }.emit .ended

/-- One round of the loop of the thread; without a watchdog there is no thread. -/
def watchdogStep (c : State) (ndef : Option (List NdefRecord)) (multiTag : Bool) : Option State :=
  match c.mWatchdogWlc with
  | none => some c
  | some w =>
    if w.running then
      (handleWLCState c ndef multiTag).map fun r =>
        { r.1 with mWatchdogWlc :=
          r.1.mWatchdogWlc.map fun w => { w with watchdogTimeout := r.2 } }
    else some (endRun c)

def startNfcCharging (c : State) (enableWlc : Bool) : State × Bool :=
  if enableWlc then
    ({ c with
        wlclPresence := true
        wlcState := .readCap
        mWatchdogWlc := some (c.mWatchdogWlc.getD
          { watchdogTimeout := 50, isPresent := true, isStopped := false, isFull := false }) }, true)
  else (c, false)

/-- A tag is discovered while WLC is enabled (`NfcService`). -/
def tagDiscovered (c : State) (ndefMsg : Option (List NdefRecord)) (enableWlc : Bool) :
    Option State :=
  if c.nfcChargingMode then some c
  else
    (checkWlcCapMsg c ndefMsg).map fun r =>
      if r.2 then
        let started := startNfcCharging r.1 enableWlc
        if started.2 then { started.1 with nfcChargingMode := true } else started.1
      else r.1

/-- `mWatchdogWlc.setTimeout(0)`, and the state the event asks for. -/
def interrupt (c : State) (wlcState : WlcState) : Option State :=
  c.mWatchdogWlc.map fun w =>
    { c with mWatchdogWlc := some { w with watchdogTimeout := 0 }, wlcState := wlcState }

def onWlcStopped (c : State) (wptEndCondition : Nat) : Option State :=
  match wptEndCondition with
  | 0 => interrupt c (if c.capModeReq = MODE_REQ_NEGOTIATED then .timeCompleted else .readCap)
  | 1 => interrupt c (if c.capModeReq = MODE_REQ_NEGOTIATED then .fod else .readCap)
  | _ => interrupt c .fod

def onEndpointRemoved (c : State) : Option State := interrupt c .readCap

inductive Event where
  | tagDiscovered (ndefMsg : Option (List NdefRecord)) (enableWlc : Bool)
  | watchdog (ndef : Option (List NdefRecord)) (multiTag : Bool)
  | wlcStopped (wptEndCondition : Nat)
  | endpointRemoved

def step (c : State) : Event → Option State
  | .tagDiscovered ndefMsg enableWlc => tagDiscovered c ndefMsg enableWlc
  | .watchdog ndef multiTag => watchdogStep c ndef multiTag
  | .wlcStopped wptEndCondition => onWlcStopped c wptEndCondition
  | .endpointRemoved => onEndpointRemoved c

end NfcStack.Wlc
