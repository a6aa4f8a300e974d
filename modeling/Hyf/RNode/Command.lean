import Hyf.Core.Types
import Hyf.Kiss.Kiss

/-!
# RNode commands and flow control (`hyf_link_rnode`)

An RNode modem reports its state in KISS frames whose command byte names the report. Each report has
one payload length; a frame of another length is an error, and a frame with an unknown command byte
is reported as such. The driver keeps from the reports whether the modem is ready to transmit.
-/

namespace Hyf

open ByteCodec

def rnodeCmdData : UInt8 := 0x00
def rnodeCmdFrequency : UInt8 := 0x01
def rnodeCmdBandwidth : UInt8 := 0x02
def rnodeCmdTxpower : UInt8 := 0x03
def rnodeCmdSf : UInt8 := 0x04
def rnodeCmdCr : UInt8 := 0x05
def rnodeCmdRadioState : UInt8 := 0x06
def rnodeCmdReady : UInt8 := 0x0f
def rnodeCmdStatRx : UInt8 := 0x21
def rnodeCmdStatTx : UInt8 := 0x22
def rnodeCmdStatRssi : UInt8 := 0x23
def rnodeCmdStatSnr : UInt8 := 0x24
def rnodeCmdPlatform : UInt8 := 0x48
def rnodeCmdMcu : UInt8 := 0x49
def rnodeCmdFwVersion : UInt8 := 0x50
def rnodeCmdError : UInt8 := 0x90

def rnodeRadioStateOff : UInt8 := 0x00
def rnodeRadioStateOn : UInt8 := 0x01
def rnodeRadioStateAsk : UInt8 := 0xff

def rnodeErrorInitradio : UInt8 := 0x01
def rnodeErrorTxfailed : UInt8 := 0x02
def rnodeErrorEepromLocked : UInt8 := 0x03
def rnodeErrorQueueFull : UInt8 := 0x04
def rnodeErrorMemoryLow : UInt8 := 0x05
def rnodeErrorModemTimeout : UInt8 := 0x06

def rnodeRssiOffset : ℤ := 157
def rnodeRequiredFwMajor : UInt8 := 1
def rnodeRequiredFwMinor : UInt8 := 52

/-- The error of `parse_command_frame`; the other variants are errors of `encode_command`. -/
inductive RNodeError where
  | invalidPayloadLength (command : UInt8) (actual expected : ℕ)
  deriving DecidableEq

/-- The states of the radio. `ask` is a question, which the firmware may echo. -/
inductive RNodeRadioState where
  | off
  | on
  | ask
  deriving DecidableEq

/-- What the firmware reports as failed. A code without a name is kept. -/
inductive RNodeHardwareError where
  | initRadio
  | txFailed
  | eepromLocked
  | queueFull
  | memoryLow
  | modemTimeout
  | unknown (code : UInt8)
  deriving DecidableEq

/-- A version, and whether it is recent enough. -/
structure RNodeFirmwareVersion where
  major : UInt8
  minor : UInt8
  supported : Bool
  deriving DecidableEq

/-- A parameter as the firmware has it. -/
inductive RNodeConfigReport where
  | frequencyHz (value : UInt32)
  | bandwidthHz (value : UInt32)
  | txPowerDbm (value : UInt8)
  | spreadingFactor (value : UInt8)
  | codingRate (value : UInt8)
  | radioState (state : RNodeRadioState)
  | platform (value : UInt8)
  | mcu (value : UInt8)
  deriving DecidableEq

/-- A measurement or a counter. -/
inductive RNodeStat where
  | rxBytes (value : UInt32)
  | txBytes (value : UInt32)
  | rssiDbm (value : ℤ)
  | snrQuarterDb (value : Int8)
  deriving DecidableEq

/-- What a frame from the firmware can mean. -/
inductive RNodeEvent where
  | data (payload : List UInt8)
  | ready
  | error (error : RNodeHardwareError)
  | firmwareVersion (version : RNodeFirmwareVersion)
  | configReport (report : RNodeConfigReport)
  | stat (stat : RNodeStat)
  | unknown (command : UInt8) (payload : List UInt8)
  deriving DecidableEq

/-! ## Parsing -/

/-- `expect_len`: the payload, which then has the length that its fields are read at. -/
def expectLen (command : UInt8) (payload : List UInt8) (expected : ℕ) :
    Except RNodeError (ByteArrayN expected) :=
  if h : payload.length = expected then .ok ⟨payload, h⟩
  else .error (.invalidPayloadLength command payload.length expected)

/-- `parse_ready`: the payload has one byte at most, which is not looked at. -/
def parseReady (payload : List UInt8) : Except RNodeError RNodeEvent :=
  if payload.length ≤ 1 then .ok .ready
  else .error (.invalidPayloadLength rnodeCmdReady payload.length 1)

/-- `parse_error`. -/
def parseError (command : UInt8) (payload : List UInt8) : Except RNodeError RNodeEvent := do
  let payload ← expectLen command payload 1
  let code := payload.head
  let error :=
    if code = rnodeErrorInitradio then .initRadio
    else if code = rnodeErrorTxfailed then .txFailed
    else if code = rnodeErrorEepromLocked then .eepromLocked
    else if code = rnodeErrorQueueFull then .queueFull
    else if code = rnodeErrorMemoryLow then .memoryLow
    else if code = rnodeErrorModemTimeout then .modemTimeout
    else .unknown code
  return .error error

/-- Versions are compared by their major number first. -/
def firmwareSupported (major minor : UInt8) : Bool :=
  major > rnodeRequiredFwMajor || (major == rnodeRequiredFwMajor && minor ≥ rnodeRequiredFwMinor)

/-- `parse_firmware_version`. -/
def parseFirmwareVersion (command : UInt8) (payload : List UInt8) : Except RNodeError RNodeEvent := do
  let payload ← expectLen command payload 2
  let major := payload.get 0
  let minor := payload.get 1
  return .firmwareVersion ⟨major, minor, firmwareSupported major minor⟩

/-- `parse_u32`, big-endian. -/
def parseU32 (command : UInt8) (payload : List UInt8) : Except RNodeError UInt32 := do
  let payload ← expectLen command payload 4
  return UInt32.ofNat (ofBe payload.toList)

/-- `parse_u32_stat`. -/
def parseU32Stat (command : UInt8) (payload : List UInt8) (build : UInt32 → RNodeStat) :
    Except RNodeError RNodeEvent := do
  let value ← parseU32 command payload
  return .stat (build value)

/-- `parse_rssi`: the byte is offset. -/
def parseRssi (command : UInt8) (payload : List UInt8) : Except RNodeError RNodeEvent := do
  let payload ← expectLen command payload 1
  return .stat (.rssiDbm (payload.head.toNat - rnodeRssiOffset))

/-- `parse_snr`: a signed byte, in quarters of a decibel. -/
def parseSnr (command : UInt8) (payload : List UInt8) : Except RNodeError RNodeEvent := do
  let payload ← expectLen command payload 1
  return .stat (.snrQuarterDb payload.head.toInt8)

/-- `parse_u32_config`. -/
def parseU32Config (command : UInt8) (payload : List UInt8) (build : UInt32 → RNodeConfigReport) :
    Except RNodeError RNodeEvent := do
  let value ← parseU32 command payload
  return .configReport (build value)

/-- `parse_u8_config`. -/
def parseU8Config (command : UInt8) (payload : List UInt8) (build : UInt8 → RNodeConfigReport) :
    Except RNodeError RNodeEvent := do
  let payload ← expectLen command payload 1
  return .configReport (build payload.head)

/-- `parse_radio_state`. -/
def parseRadioState (command : UInt8) (payload : List UInt8) : Except RNodeError RNodeEvent := do
  let state ← expectLen command payload 1
  if state.head = rnodeRadioStateOff then return .configReport (.radioState .off)
  else if state.head = rnodeRadioStateOn then return .configReport (.radioState .on)
  else if state.head = rnodeRadioStateAsk then return .configReport (.radioState .ask)
  else return .unknown command payload

/-- `parse_command_frame`. Commands without a meaning here are passed on as unknown. -/
def parseCommandFrame (frame : KissFrameRef) : Except RNodeError RNodeEvent :=
  let command := frame.command
  let payload := frame.payload
  if command = rnodeCmdData then .ok (.data payload)
  else if command = rnodeCmdReady then parseReady payload
  else if command = rnodeCmdError then parseError command payload
  else if command = rnodeCmdFwVersion then parseFirmwareVersion command payload
  else if command = rnodeCmdStatRx then parseU32Stat command payload .rxBytes
  else if command = rnodeCmdStatTx then parseU32Stat command payload .txBytes
  else if command = rnodeCmdStatRssi then parseRssi command payload
  else if command = rnodeCmdStatSnr then parseSnr command payload
  else if command = rnodeCmdFrequency then parseU32Config command payload .frequencyHz
  else if command = rnodeCmdBandwidth then parseU32Config command payload .bandwidthHz
  else if command = rnodeCmdTxpower then parseU8Config command payload .txPowerDbm
  else if command = rnodeCmdSf then parseU8Config command payload .spreadingFactor
  else if command = rnodeCmdCr then parseU8Config command payload .codingRate
  else if command = rnodeCmdRadioState then parseRadioState command payload
  else if command = rnodeCmdPlatform then parseU8Config command payload .platform
  else if command = rnodeCmdMcu then parseU8Config command payload .mcu
  else .ok (.unknown command payload)

/-! ## Flow control -/

/-- Whether the interface announces when it is ready, whether it is, and its last error. -/
structure RNodeState where
  flowControl : Bool
  interfaceReady : Bool
  lastError : Option RNodeHardwareError
  deriving DecidableEq

namespace RNodeState

/-- With flow control the interface is not ready before it says so. -/
def new (flowControl : Bool) : RNodeState where
  flowControl := flowControl
  interfaceReady := !flowControl
  lastError := none

/-- Without flow control the interface is always ready. -/
def canTransmit (state : RNodeState) : Bool := !state.flowControl || state.interfaceReady

/-- A transmission blocks the next one until the interface is ready again. -/
def markTxStarted (state : RNodeState) : RNodeState :=
  if state.flowControl then { state with interfaceReady := false } else state

/-- A ready report opens the interface; an error closes it and is remembered. -/
def applyEvent (state : RNodeState) : RNodeEvent → RNodeState
  | .ready => { state with interfaceReady := true }
  | .error error => { state with lastError := some error, interfaceReady := false }
  | _ => state

/-- A transmission does not switch flow control. -/
@[simp] theorem markTxStarted_flowControl (state : RNodeState) :
    state.markTxStarted.flowControl = state.flowControl := by
  unfold markTxStarted
  split_ifs <;> rfl

/-- No event switches flow control. -/
@[simp] theorem applyEvent_flowControl (state : RNodeState) (event : RNodeEvent) :
    (state.applyEvent event).flowControl = state.flowControl := by
  cases event <;> rfl

end RNodeState

end Hyf
