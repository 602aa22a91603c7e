import NfcStack.Lib.Run

/- Polling frames in the emulated controller (casimir, `controller.rs`): the host
   sets the observe mode, the observed technologies and the exit frames;
   `poll_command` reports each polling frame to the host and suspends the observe
   mode when the frame matches an exit frame; `tick` resumes it once the timeout
   has passed.

   A step is `none` where the controller stops: it panics, or a notification does
   not fit the size fields of its packet. Times are nanoseconds of the monotonic
   clock, read once in each step. What the rest of the controller leaves in the RF
   state and in the discovery configuration is the event `rf`. -/
namespace NfcStack.Casimir

inductive Technology where
  | nfcA | nfcB | nfcF | nfcV | raw
  deriving DecidableEq, Repr

def Technology.fromU8 (value : UInt8) : Technology :=
  if value = 0 then .nfcA
  else if value = 1 then .nfcB
  else if value = 2 then .nfcF
  else if value = 3 then .nfcV
  else .raw

inductive PollingFrameFormat where
  | short | long
  deriving DecidableEq, Repr

/-- The RF states, without the data of the peer. -/
inductive RfState where
  | idle | discovery | pollActive | listenSleep | listenActive | waitForHostSelect
  | waitForSelectResponse
  deriving DecidableEq, Repr

inductive RfTechnologyAndMode where
  | nfcAPassivePollMode | nfcBPassivePollMode | nfcFPassivePollMode | nfcActivePollMode
  | nfcVPassivePollMode | nfcAPassiveListenMode | nfcBPassiveListenMode | nfcFPassiveListenMode
  | nfcActiveListenMode
  | proprietary (mode : UInt8)
  deriving DecidableEq, Repr

inductive PollingFrameType where
  | remoteField | reqa | reqb | reqf | wupa | wupb | wupf | unknown | reqv | wupv
  deriving DecidableEq, Repr

/-- `TechnologyMask`. -/
def maskNfcA : UInt8 := 0x01
def maskNfcB : UInt8 := 0x02
def maskNfcF : UInt8 := 0x04
def maskNfcV : UInt8 := 0x08
def maskAllOn : UInt8 := 0x0F

/-- `PassiveObserveMode::Disable`. -/
def modeDisable : UInt8 := 0x00

def EXIT_FRAME_QUALIFIER_TECHNOLOGY_MASK : UInt8 := 0b00000011
def EXIT_FRAME_QUALIFIER_PREFIX_MATCHING_MASK : UInt8 := 0b00010000

/-! ## CRC -/

def crc16Byte (wCrc : UInt16) (byte : UInt8) : UInt16 :=
  let temp := byte.toUInt16 ^^^ (wCrc &&& 0x00FF)
  let temp := (temp ^^^ (temp <<< 4)) &&& 0xFF
  (wCrc >>> 8) ^^^ (temp <<< 8) ^^^ (temp <<< 3) ^^^ (temp >>> 4)

def crc16 (data : List UInt8) (initial : UInt16) (invert : Bool) : UInt8 × UInt8 :=
  let wCrc := data.foldl crc16Byte initial
  let wCrc := if invert then ~~~wCrc else wCrc
  ((wCrc &&& 0xFF).toUInt8, ((wCrc >>> 8) &&& 0xFF).toUInt8)

def crc16a (data : List UInt8) : UInt8 × UInt8 := crc16 data 0x6363 false

def crc16b (data : List UInt8) : UInt8 × UInt8 := crc16 data 0xFFFF true

/-- `verify_crc(..).is_ok()`. -/
def verifyCrc (technology : Technology) (data : List UInt8) : Bool :=
  if data.length ≤ 2 then false
  else
    let body := data.take (data.length - 2)
    let tail := data.drop (data.length - 2)
    match technology with
    | .nfcA => tail == [(crc16a body).1, (crc16a body).2]
    | .nfcB => tail == [(crc16b body).1, (crc16b body).2]
    | _ => false

/-! ## Exit frames -/

/-- `ExitFrameEntry`, as the host sends it. -/
structure ExitFrameEntry where
  qualifierType : UInt8
  fieldValue : List UInt8
  deriving DecidableEq, Repr

/-- `RfExitFrame`: every byte of the data has a byte of the mask. -/
structure RfExitFrame where
  isPrefixMatchingAllowed : Bool
  rfTechnology : Technology
  powerStates : UInt8
  data : List UInt8
  mask : List UInt8
  covers : data.length ≤ mask.length
  deriving DecidableEq, Repr

/-- One round of the loop over the incoming frames: an empty value panics. -/
def ExitFrameEntry.parse (frame : ExitFrameEntry) : Option RfExitFrame :=
  match frame.fieldValue with
  | [] => none
  | powerStates :: rest =>
    let dataLength := rest.length / 2
    some {
      isPrefixMatchingAllowed :=
        frame.qualifierType &&& EXIT_FRAME_QUALIFIER_PREFIX_MATCHING_MASK != 0
      rfTechnology :=
        Technology.fromU8 (frame.qualifierType &&& EXIT_FRAME_QUALIFIER_TECHNOLOGY_MASK)
      powerStates := powerStates
      data := rest.take dataLength
      mask := rest.drop dataLength
      covers := by
        rw [List.length_take, List.length_drop]
        omega }

/-- The byte `n` of the frame is the one the exit frame asks for. -/
def RfExitFrame.agreesAt (exitFrame : RfExitFrame) (polled : List UInt8)
    (n : Fin exitFrame.data.length) : Bool :=
  match polled[n.val]? with
  | none => false
  | some byte => exitFrame.data.get n == byte &&& exitFrame.mask.get (n.castLE exitFrame.covers)

/-- One round of the loop of `has_exit_frame`. -/
def RfExitFrame.isMatch (exitFrame : RfExitFrame) (polled : List UInt8)
    (rfTechnology : Technology) : Bool :=
  rfTechnology == exitFrame.rfTechnology
    && (List.finRange exitFrame.data.length).all (exitFrame.agreesAt polled)
    && (exitFrame.data.length == polled.length || exitFrame.isPrefixMatchingAllowed)

/-! ## The controller -/

structure PollCommand where
  sender : UInt16
  technology : Technology
  format : PollingFrameFormat
  powerLevel : UInt8
  payload : List UInt8
  deriving DecidableEq, Repr

structure PollingFrame where
  frameType : PollingFrameType
  format : PollingFrameFormat
  timestamp : List UInt8
  gain : UInt8
  payload : List UInt8
  deriving DecidableEq, Repr

inductive Status where
  | ok | semanticError
  deriving DecidableEq, Repr

/-- What the modelled part of the controller sends to the host and over the air. -/
inductive Packet where
  | passiveObserveModeResponse (status : Status)
  | setPassiveObserverExitFrameResponse (status : Status)
  | passiveObserverSuspended (exitFrameType : UInt8) (payload : List UInt8)
  | passiveObserverResumed
  | pollingLoop (frames : List PollingFrame)
  | nfcAPollResponse (receiver sender : UInt16) (nfcid1 : List UInt8)
      (intProtocol bitFrameSdd : UInt8)
  | poll (cmd : PollCommand)
  deriving DecidableEq, Repr

/-- The configuration parameters a poll response carries. -/
structure ConfigParameters where
  laNfcid1 : List UInt8
  laSelInfo : UInt8
  laBitFrameSdd : UInt8
  deriving DecidableEq, Repr

structure State where
  id : UInt16
  configParameters : ConfigParameters
  discoverConfiguration : List RfTechnologyAndMode
  rfState : RfState
  passiveObserveMode : UInt8
  lastObserveModeState : Option UInt8
  startTime : Nat
  exitFrameTimeout : Nat
  exitFrameStartTime : Option Nat
  exitFrames : List RfExitFrame
  sent : List Packet
  deriving DecidableEq, Repr

/-- `Controller::new`, at the time `now`. -/
def State.new (id : UInt16) (params : ConfigParameters) (now : Nat) : State :=
  { id := id, configParameters := params, discoverConfiguration := [], rfState := .idle
    passiveObserveMode := modeDisable, lastObserveModeState := none, startTime := now
    exitFrameTimeout := 0, exitFrameStartTime := none, exitFrames := [], sent := [] }

def State.send (c : State) (packet : Packet) : State :=
  { c with sent := c.sent ++ [packet] }

def elapsedMillis (since now : Nat) : Nat := (now - since) / 1000000

/-- `(elapsed.as_micros() as u32).to_be_bytes()`. -/
def timestamp (since now : Nat) : List UInt8 :=
  let micros := (now - since) / 1000 % 2 ^ 32
  [UInt8.ofNat (micros / 2 ^ 24), UInt8.ofNat (micros / 2 ^ 16), UInt8.ofNat (micros / 2 ^ 8),
    UInt8.ofNat micros]

def State.nfcid1 (c : State) : List UInt8 :=
  if c.configParameters.laNfcid1.length = 4 ∧ c.configParameters.laNfcid1.head? = some 0x08 then
    [0x08, 186, 7, 99]
  else c.configParameters.laNfcid1

/-! ## Host commands -/

/-- `android_passive_observe_mode`: every value but `Disable` is an `Enable`. -/
def androidPassiveObserveMode (c : State) (mode : UInt8) : State :=
  { c with
    passiveObserveMode := if mode = modeDisable then modeDisable else maskAllOn
    lastObserveModeState := none
    exitFrameStartTime := none }.send (.passiveObserveModeResponse .ok)

def androidSetPassiveObserverTech (c : State) (techMask : UInt8) : State :=
  { c with
    passiveObserveMode := techMask
    lastObserveModeState := none
    exitFrameStartTime := none }.send (.passiveObserveModeResponse .ok)

def androidSetPassiveObserverExitFrames (c : State) (timeout : UInt16)
    (frames : List ExitFrameEntry) : Option State :=
  if c.rfState = .idle ∨ c.rfState = .discovery then
    (frames.mapM ExitFrameEntry.parse).map fun exitFrames =>
      { c with exitFrameTimeout := timeout.toNat, exitFrames := exitFrames }.send
        (.setPassiveObserverExitFrameResponse .ok)
  else some (c.send (.setPassiveObserverExitFrameResponse .semanticError))

/-! ## Polling frames -/

def State.hasExitFrame (c : State) (polled : List UInt8) (rfTechnology : Technology) : Bool :=
  c.exitFrames.any fun exitFrame => exitFrame.isMatch polled rfTechnology

/-- Whether the frame has a valid CRC, and its data without it. -/
def PollCommand.checked (cmd : PollCommand) : Bool × List UInt8 :=
  if (cmd.technology = .nfcA ∨ cmd.technology = .nfcB) ∧ 2 < cmd.payload.length
      ∧ cmd.format = .long ∧ verifyCrc cmd.technology cmd.payload then
    (true, cmd.payload.take (cmd.payload.length - 2))
  else (false, cmd.payload)

def PollCommand.data (cmd : PollCommand) : List UInt8 := cmd.checked.2

/-- The exit frame type in the notification: other technologies panic. -/
def exitFrameType : Technology → Option UInt8
  | .nfcA => some 0x00
  | .nfcB => some 0x01
  | _ => none

/-- `PassiveObserverSuspendedNotification` has a size field of eight bits. -/
def sendSuspended (c : State) (cmd : PollCommand) : Option State :=
  match exitFrameType cmd.technology with
  | none => none
  | some type =>
    if cmd.data.length ≤ 255 then some (c.send (.passiveObserverSuspended type cmd.data)) else none

/-- The frame matched an exit frame. -/
def suspend (c : State) (cmd : PollCommand) (now : Nat) : Option State :=
  sendSuspended
    { c with
      lastObserveModeState := some c.passiveObserveMode
      passiveObserveMode := modeDisable
      exitFrameStartTime := some now } cmd

def PollCommand.frameType (cmd : PollCommand) : PollingFrameType :=
  match cmd.technology with
  | .nfcA =>
    if cmd.checked.1 = false ∧ cmd.format = .short ∧ (cmd.data = [0x52] ∨ cmd.data = [0x26]) then
      .reqa
    else .unknown
  | .nfcB =>
    if cmd.checked.1 = true ∧ cmd.format = .long ∧ cmd.data.length = 3
        ∧ cmd.data.head? = some 0x05 then .reqb
    else .unknown
  | .nfcF => .reqf
  | .nfcV => .reqv
  | .raw => .unknown

/-- The size field of a polling frame counts five bytes more than the payload. -/
def sendPollingLoop (c : State) (cmd : PollCommand) (now : Nat) : Option State :=
  if cmd.data.length + 5 ≤ 255 then
    some (c.send (.pollingLoop [{
      frameType := cmd.frameType, format := cmd.format, timestamp := timestamp c.startTime now
      gain := cmd.powerLevel, payload := cmd.data }]))
  else none

def Technology.mask : Technology → UInt8
  | .nfcA => maskNfcA
  | .nfcB => maskNfcB
  | .nfcF => maskNfcF
  | .nfcV => maskNfcV
  | .raw => 0

def listensTo : RfTechnologyAndMode → Technology → Bool
  | .nfcAPassiveListenMode, .nfcA => true
  | .nfcBPassiveListenMode, .nfcB => true
  | .nfcFPassiveListenMode, .nfcF => true
  | _, _ => false

/-- The poll response: none while the technology is observed. -/
def respond (c : State) (cmd : PollCommand) : State :=
  if c.passiveObserveMode &&& cmd.technology.mask ≠ 0 then c
  else if c.discoverConfiguration.any (fun config => listensTo config cmd.technology) then
    match cmd.technology with
    | .nfcA =>
      c.send (.nfcAPollResponse cmd.sender c.id c.nfcid1 (c.configParameters.laSelInfo >>> 5)
        c.configParameters.laBitFrameSdd)
    | _ => c
  else c

def pollCommand (c : State) (cmd : PollCommand) (now : Nat) : Option State :=
  if c.rfState ≠ .discovery then some c
  else
    (if c.hasExitFrame cmd.data cmd.technology then suspend c cmd now else some c).bind fun c =>
      (sendPollingLoop c cmd now).map fun c => respond c cmd

/-! ## The timer -/

/-- The suspension ends when more than the timeout has passed. -/
def resume (c : State) (now : Nat) : State :=
  match c.exitFrameStartTime with
  | none => c
  | some since =>
    if c.exitFrameTimeout < elapsedMillis since now then
      { c with
        exitFrameStartTime := none
        passiveObserveMode := c.lastObserveModeState.getD maskAllOn }.send .passiveObserverResumed
    else c

/-- The technology of the poll command sent for a discovery mode. -/
def pollTechnology : RfTechnologyAndMode → Option Technology
  | .nfcAPassivePollMode => some .nfcA
  | .nfcBPassivePollMode => some .nfcB
  | .nfcFPassivePollMode => some .nfcF
  | .nfcVPassivePollMode => some .nfcV
  | _ => none

def sendPoll (c : State) (config : RfTechnologyAndMode) : State :=
  match pollTechnology config with
  | none => c
  | some technology =>
    c.send (.poll {
      sender := c.id, technology := technology
      format := if config = .nfcAPassivePollMode then .short else .long
      powerLevel := 255, payload := [] })

/-- `tick`, up to the wait for poll responses; what follows it is the event `rf`. -/
def tick (c : State) (now : Nat) : State :=
  if c.rfState ≠ .discovery then c
  else c.discoverConfiguration.foldl sendPoll (resume c now)

/-! ## Runs -/

inductive Event where
  | setMode (mode : UInt8)
  | setTech (techMask : UInt8)
  | setExitFrames (timeout : UInt16) (frames : List ExitFrameEntry)
  | polled (cmd : PollCommand) (now : Nat)
  | tick (now : Nat)
  | rf (rfState : RfState) (discoverConfiguration : List RfTechnologyAndMode)
  deriving DecidableEq, Repr

def step (c : State) : Event → Option State
  | .setMode mode => some (androidPassiveObserveMode c mode)
  | .setTech techMask => some (androidSetPassiveObserverTech c techMask)
  | .setExitFrames timeout frames => androidSetPassiveObserverExitFrames c timeout frames
  | .polled cmd now => pollCommand c cmd now
  | .tick now => some (tick c now)
  | .rf rfState discoverConfiguration =>
    some { c with rfState := rfState, discoverConfiguration := discoverConfiguration }

end NfcStack.Casimir
