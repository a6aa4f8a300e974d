import Hyf.Common.BufferM
import Hyf.Common.Checks
import Hyf.Kiss.Resync
import Hyf.RNode.Command

/-!
# Configuring an RNode (`hyf_link_rnode`)

A command to the modem is checked against the range of its value and written as one KISS frame. The modem
answers a configuration command with a report of the same form, so that the parser can read the commands
too: `commands_roundTrip` says what it makes of any sequence of them, however their bytes arrive.
-/

namespace Hyf

open ByteCodec

def rnodeCmdDetect : UInt8 := 0x08
def rnodeCmdLeave : UInt8 := 0x0a

def rnodeDetectRequest : UInt8 := 0x73
def rnodeLeaveRequest : UInt8 := 0xff

def rnodeFrequencyMinHz : UInt32 := 137000000
def rnodeFrequencyMaxHz : UInt32 := 3000000000
def rnodeBandwidthMinHz : UInt32 := 7800
def rnodeBandwidthMaxHz : UInt32 := 1625000
def rnodeTxPowerMaxDbm : UInt8 := 37
def rnodeSpreadingFactorMin : UInt8 := 5
def rnodeSpreadingFactorMax : UInt8 := 12
def rnodeCodingRateMin : UInt8 := 5
def rnodeCodingRateMax : UInt8 := 8

/-- The errors of the checks and of `encode_command`, which the source has in the enum `RNodeError` too. -/
inductive RNodeCommandError where
  | kiss (error : KissError)
  | invalidFrequencyHz (actual minimum maximum : UInt32)
  | invalidBandwidthHz (actual minimum maximum : UInt32)
  | invalidTxPowerDbm (actual maximum : UInt8)
  | invalidSpreadingFactor (actual minimum maximum : UInt8)
  | invalidCodingRate (actual minimum maximum : UInt8)
  deriving DecidableEq

/-- The commands that can be encoded. -/
inductive RNodeCommand where
  | frequencyHz (value : UInt32)
  | bandwidthHz (value : UInt32)
  | txPowerDbm (value : UInt8)
  | spreadingFactor (value : UInt8)
  | codingRate (value : UInt8)
  | radioState (state : RNodeRadioState)
  | detect
  | leave
  | ready (enabled : Bool)
  deriving DecidableEq

/-! ## The checks -/

/-- `validate_frequency_hz`. -/
def validateFrequencyHz (value : UInt32) : Except RNodeCommandError Unit :=
  if rnodeFrequencyMinHz ≤ value ∧ value ≤ rnodeFrequencyMaxHz then .ok ()
  else .error (.invalidFrequencyHz value rnodeFrequencyMinHz rnodeFrequencyMaxHz)

/-- `validate_bandwidth_hz`. -/
def validateBandwidthHz (value : UInt32) : Except RNodeCommandError Unit :=
  if rnodeBandwidthMinHz ≤ value ∧ value ≤ rnodeBandwidthMaxHz then .ok ()
  else .error (.invalidBandwidthHz value rnodeBandwidthMinHz rnodeBandwidthMaxHz)

/-- `validate_tx_power_dbm`. -/
def validateTxPowerDbm (value : UInt8) : Except RNodeCommandError Unit :=
  if value ≤ rnodeTxPowerMaxDbm then .ok () else .error (.invalidTxPowerDbm value rnodeTxPowerMaxDbm)

/-- `validate_spreading_factor`. -/
def validateSpreadingFactor (value : UInt8) : Except RNodeCommandError Unit :=
  if rnodeSpreadingFactorMin ≤ value ∧ value ≤ rnodeSpreadingFactorMax then .ok ()
  else .error (.invalidSpreadingFactor value rnodeSpreadingFactorMin rnodeSpreadingFactorMax)

/-- `validate_coding_rate`. -/
def validateCodingRate (value : UInt8) : Except RNodeCommandError Unit :=
  if rnodeCodingRateMin ≤ value ∧ value ≤ rnodeCodingRateMax then .ok ()
  else .error (.invalidCodingRate value rnodeCodingRateMin rnodeCodingRateMax)

/-- The parameters of the radio. -/
structure RNodeConfig where
  frequencyHz : UInt32
  bandwidthHz : UInt32
  txPowerDbm : UInt8
  spreadingFactor : UInt8
  codingRate : UInt8
  flowControl : Bool

/-- `validate_config`: the first parameter that is wrong is reported. -/
def validateConfig (config : RNodeConfig) : Except RNodeCommandError Unit := do
  validateFrequencyHz config.frequencyHz
  validateBandwidthHz config.bandwidthHz
  validateTxPowerDbm config.txPowerDbm
  validateSpreadingFactor config.spreadingFactor
  validateCodingRate config.codingRate

/-! ## Encoding -/

/-- `as_byte`. -/
def RNodeRadioState.asByte : RNodeRadioState → UInt8
  | .off => rnodeRadioStateOff
  | .on => rnodeRadioStateOn
  | .ask => rnodeRadioStateAsk

/-- The command byte and the payload of a command whose value was checked. -/
def RNodeCommand.frame : RNodeCommand → Except RNodeCommandError (UInt8 × List UInt8)
  | .frequencyHz value => do
    validateFrequencyHz value
    return (rnodeCmdFrequency, toBe 4 value.toNat)
  | .bandwidthHz value => do
    validateBandwidthHz value
    return (rnodeCmdBandwidth, toBe 4 value.toNat)
  | .txPowerDbm value => do
    validateTxPowerDbm value
    return (rnodeCmdTxpower, [value])
  | .spreadingFactor value => do
    validateSpreadingFactor value
    return (rnodeCmdSf, [value])
  | .codingRate value => do
    validateCodingRate value
    return (rnodeCmdCr, [value])
  | .radioState state => return (rnodeCmdRadioState, [state.asByte])
  | .detect => return (rnodeCmdDetect, [rnodeDetectRequest])
  | .leave => return (rnodeCmdLeave, [rnodeLeaveRequest])
  | .ready enabled => return (rnodeCmdReady, [if enabled then 1 else 0])

/-- The command is written into the slice, and the number of bytes returned. -/
def encodeCommand (command : RNodeCommand) : EStateM (Fault RNodeCommandError) (List UInt8) ℕ := do
  let (commandByte, payload) ← (ofResult id command.frame).lift
  BufferM.convert (encodeCommandFrame commandByte payload) .kiss

/-! ## The round trip -/

namespace RNodeCommand

/-- The value is in its range. -/
def Valid : RNodeCommand → Prop
  | frequencyHz value => rnodeFrequencyMinHz ≤ value ∧ value ≤ rnodeFrequencyMaxHz
  | bandwidthHz value => rnodeBandwidthMinHz ≤ value ∧ value ≤ rnodeBandwidthMaxHz
  | txPowerDbm value => value ≤ rnodeTxPowerMaxDbm
  | spreadingFactor value => rnodeSpreadingFactorMin ≤ value ∧ value ≤ rnodeSpreadingFactorMax
  | codingRate value => rnodeCodingRateMin ≤ value ∧ value ≤ rnodeCodingRateMax
  | radioState _ | detect | leave | ready _ => True

instance : DecidablePred Valid
  | frequencyHz _ | bandwidthHz _ | spreadingFactor _ | codingRate _ => instDecidableAnd
  | txPowerDbm value => inferInstanceAs (Decidable (value ≤ rnodeTxPowerMaxDbm))
  | radioState _ | detect | leave | ready _ => .isTrue trivial

/-- What the parser takes the command for. -/
def event : RNodeCommand → RNodeEvent
  | frequencyHz value => .configReport (.frequencyHz value)
  | bandwidthHz value => .configReport (.bandwidthHz value)
  | txPowerDbm value => .configReport (.txPowerDbm value)
  | spreadingFactor value => .configReport (.spreadingFactor value)
  | codingRate value => .configReport (.codingRate value)
  | radioState state => .configReport (.radioState state)
  | detect => .unknown rnodeCmdDetect [rnodeDetectRequest]
  | leave => .unknown rnodeCmdLeave [rnodeLeaveRequest]
  | ready _ => .ready

/-- The payload of a command. -/
def payload : RNodeCommand → List UInt8
  | frequencyHz value | bandwidthHz value => toBe 4 value.toNat
  | txPowerDbm value | spreadingFactor value | codingRate value => [value]
  | radioState state => [state.asByte]
  | detect => [rnodeDetectRequest]
  | leave => [rnodeLeaveRequest]
  | ready enabled => [if enabled then 1 else 0]

/-- The command byte of the frame. -/
def commandByte : RNodeCommand → UInt8
  | frequencyHz _ => rnodeCmdFrequency
  | bandwidthHz _ => rnodeCmdBandwidth
  | txPowerDbm _ => rnodeCmdTxpower
  | spreadingFactor _ => rnodeCmdSf
  | codingRate _ => rnodeCmdCr
  | radioState _ => rnodeCmdRadioState
  | detect => rnodeCmdDetect
  | leave => rnodeCmdLeave
  | ready _ => rnodeCmdReady

/-- The frame that a command is sent as. -/
def kissFrame (command : RNodeCommand) : KissFrameRef := ⟨command.commandByte, command.payload⟩

/-- The bytes of a command on the line. -/
def encoded (command : RNodeCommand) : List UInt8 := frameBytes command.commandByte command.payload

/-- No payload is longer than four bytes. -/
theorem length_payload_le (command : RNodeCommand) : command.payload.length ≤ 4 := by
  cases command <;> simp [payload]

/-- No command byte has to be escaped. -/
theorem commandByte_ne (command : RNodeCommand) :
    command.commandByte ≠ kissFend ∧ command.commandByte ≠ kissFesc := by
  have hbytes : ([rnodeCmdFrequency, rnodeCmdBandwidth, rnodeCmdTxpower, rnodeCmdSf, rnodeCmdCr,
      rnodeCmdRadioState, rnodeCmdDetect, rnodeCmdLeave, rnodeCmdReady].all fun byte =>
        decide (byte ≠ kissFend ∧ byte ≠ kissFesc)) = true := rfl
  apply of_decide_eq_true (List.all_eq_true.mp hbytes _ _)
  cases command <;> simp [commandByte]

/-- The error of a value that is out of its range. -/
def rangeError : RNodeCommand → Option RNodeCommandError
  | frequencyHz value => some (.invalidFrequencyHz value rnodeFrequencyMinHz rnodeFrequencyMaxHz)
  | bandwidthHz value => some (.invalidBandwidthHz value rnodeBandwidthMinHz rnodeBandwidthMaxHz)
  | txPowerDbm value => some (.invalidTxPowerDbm value rnodeTxPowerMaxDbm)
  | spreadingFactor value =>
    some (.invalidSpreadingFactor value rnodeSpreadingFactorMin rnodeSpreadingFactorMax)
  | codingRate value => some (.invalidCodingRate value rnodeCodingRateMin rnodeCodingRateMax)
  | radioState _ | detect | leave | ready _ => none

/-- A check, and a frame behind it. -/
theorem checked_cases {valid : Prop} [Decidable valid] (error : RNodeCommandError)
    (frame : UInt8 × List UInt8) :
    (valid ∧ ((if valid then .ok () else .error error) >>= fun _ : Unit => pure frame) =
      Except.ok frame) ∨
    ¬valid ∧ ∃ refused, some error = some refused ∧
      ((if valid then .ok () else .error error) >>= fun _ : Unit => pure frame) =
        Except.error refused := by
  by_cases h : valid
  · rw [if_pos h]
    exact .inl ⟨h, rfl⟩
  · rw [if_neg h]
    exact .inr ⟨h, error, rfl, rfl⟩

/-- A command in its range has a frame; any other has the error of its check. -/
theorem frame_cases (command : RNodeCommand) :
    (command.Valid ∧ command.frame = .ok (command.commandByte, command.payload)) ∨
      ¬command.Valid ∧ ∃ error, command.rangeError = some error ∧
        command.frame = .error error := by
  cases command with
  | frequencyHz value => exact checked_cases _ _
  | bandwidthHz value => exact checked_cases _ _
  | txPowerDbm value => exact checked_cases _ _
  | spreadingFactor value => exact checked_cases _ _
  | codingRate value => exact checked_cases _ _
  | radioState state => exact .inl ⟨trivial, rfl⟩
  | detect => exact .inl ⟨trivial, rfl⟩
  | leave => exact .inl ⟨trivial, rfl⟩
  | ready enabled => exact .inl ⟨trivial, rfl⟩

/-- The parser reads the frame of a command. -/
theorem parseCommandFrame_eq (command : RNodeCommand) :
    parseCommandFrame command.kissFrame = .ok command.event := by
  have hvalue : ∀ value : UInt32, UInt32.ofNat (ofBe (toBe 4 value.toNat)) = value := by
    intro value
    rw [ofBe_toBe value.toNat_lt, UInt32.ofNat_toNat]
  cases command with
  | frequencyHz value =>
    have hparse : parseCommandFrame ⟨rnodeCmdFrequency, toBe 4 value.toNat⟩ =
        .ok (.configReport (.frequencyHz (UInt32.ofNat (ofBe (toBe 4 value.toNat))))) := rfl
    rw [hvalue] at hparse
    exact hparse
  | bandwidthHz value =>
    have hparse : parseCommandFrame ⟨rnodeCmdBandwidth, toBe 4 value.toNat⟩ =
        .ok (.configReport (.bandwidthHz (UInt32.ofNat (ofBe (toBe 4 value.toNat))))) := rfl
    rw [hvalue] at hparse
    exact hparse
  | txPowerDbm value => rfl
  | spreadingFactor value => rfl
  | codingRate value => rfl
  | radioState state => cases state <;> rfl
  | detect => rfl
  | leave => rfl
  | ready enabled => rfl

/-- `encode_command` turns the command into `bytes`: it writes exactly these bytes, or, into a slice that
is too short, nothing. -/
structure Encodes (command : RNodeCommand) (bytes : List UInt8) : Prop where
  writes : ∀ out, bytes.length ≤ out.length →
    encodeCommand command out = .ok bytes.length (bytes ++ out.drop bytes.length)
  short : ∀ out, out.length < bytes.length →
    encodeCommand command out =
      .error (.error (.kiss (.outputBufferTooShort out.length bytes.length))) out

/-- A valid command is encoded into these bytes. -/
theorem encodes_encoded {command : RNodeCommand} (h : command.Valid) :
    Encodes command command.encoded := by
  obtain ⟨-, hframe⟩ | ⟨hinvalid, -⟩ := command.frame_cases
  · have hlift : ofResult id command.frame = .ok (command.commandByte, command.payload) :=
      ofResult_eq_ok hframe id
    have hkiss : EncodesTo command.commandByte command.payload command.encoded :=
      @encodesTo_frameBytes 5 (by decide) command.commandByte _
        (Nat.add_le_add_left command.length_payload_le 1)
    refine ⟨?_, ?_⟩
    · intro out hout
      rw [encodeCommand, Outcome.lift_bind hlift]
      exact BufferM.run_convert_ok (hkiss.writes out hout) _
    · intro out hout
      rw [encodeCommand, Outcome.lift_bind hlift]
      simp only [BufferM.convert, hkiss.short out hout]
      rfl
  · exact absurd h hinvalid

/-- A value that is out of its range is refused, and nothing is written. -/
theorem encodeCommand_invalid {command : RNodeCommand} (h : ¬command.Valid) (out : List UInt8) :
    ∃ error, command.rangeError = some error ∧
      encodeCommand command out = .error (.error error) out := by
  obtain ⟨hvalid, -⟩ | ⟨-, error, herror, hframe⟩ := command.frame_cases
  · exact absurd hvalid h
  · refine ⟨error, herror, ?_⟩
    rw [encodeCommand, hframe]
    rfl

/-- A decoder that stands anywhere hands over the frames of the commands, behind at most the frame that was
open. -/
theorem runs_encoded {capacity : ℕ} (hcapacity : 5 ≤ capacity) {decoder : KissDecoder capacity}
    (h : decoder.Idle) (commands : List RNodeCommand) :
    ∃ garbage : List KissFrameRef, garbage.length ≤ 1 ∧ ∃ after : KissDecoder capacity,
      KissDecoder.next.Runs decoder (commands.flatMap encoded)
        ((garbage ++ commands.map kissFrame).map .ok) after := by
  have hone {decoder : KissDecoder capacity} (hidle : decoder.Idle) (command : RNodeCommand) :
      KissDecoder.next.Runs decoder command.encoded
        ((decoder.openFrame.toList ++ [command.kissFrame]).map .ok) (KissDecoder.boundary capacity) := by
    have hfit : 1 + command.payload.length ≤ capacity := by
      have hlength := command.length_payload_le
      omega
    exact KissDecoder.runs_frameBytes hidle command.commandByte_ne.1 command.commandByte_ne.2 hfit
  -- behind the first command the decoder stands between two frames, and nothing is open
  have hrest (commands : List RNodeCommand) :
      KissDecoder.next.Runs (KissDecoder.boundary capacity) (commands.flatMap encoded)
        ((commands.map kissFrame).map .ok) (KissDecoder.boundary capacity) := by
    induction commands with
    | nil => exact Mealy.Runs.nil _
    | cons command commands ih =>
      exact (hone KissDecoder.idle_boundary command).append ih
  cases commands with
  | nil => exact ⟨[], Nat.zero_le 1, decoder, Mealy.Runs.nil _⟩
  | cons command commands =>
    refine ⟨decoder.openFrame.toList, Option.length_toList_le, KissDecoder.boundary capacity, ?_⟩
    have hruns := (hone h command).append (hrest commands)
    rw [← List.map_append, List.append_assoc] at hruns
    exact hruns

end RNodeCommand

namespace RNodeConfig

/-- The commands that set a configuration. -/
def commands (config : RNodeConfig) : List RNodeCommand :=
  [.frequencyHz config.frequencyHz, .bandwidthHz config.bandwidthHz, .txPowerDbm config.txPowerDbm,
    .spreadingFactor config.spreadingFactor, .codingRate config.codingRate]

open Checks

/-- The configurations that are accepted are those whose commands can be sent. -/
theorem validateConfig_eq_ok_iff (config : RNodeConfig) :
    validateConfig config = .ok () ↔ ∀ command ∈ config.commands, command.Valid := by
  unfold validateConfig validateFrequencyHz validateBandwidthHz validateTxPowerDbm
    validateSpreadingFactor validateCodingRate
  rw [bind_eq_ok_iff, bind_eq_ok_iff, bind_eq_ok_iff, bind_eq_ok_iff, acceptIf_eq_ok_iff,
    acceptIf_eq_ok_iff, acceptIf_eq_ok_iff, acceptIf_eq_ok_iff, acceptIf_eq_ok_iff]
  simp [commands, RNodeCommand.Valid]

end RNodeConfig

/-- **RNode commands round-trip.** A command whose value is out of its range is refused with the error of
that range and nothing is written; every other command is written as one frame, or nothing is written where
it does not fit. Whatever a decoder has read before, and however the bytes of a sequence of commands are
cut, it hands over one frame for each of them, in order, behind at most one that was open, and the parser
reads each as the report of the same value. The commands of an accepted configuration are such a
sequence. -/
theorem commands_roundTrip {capacity : ℕ} (hcapacity : 5 ≤ capacity)
    {decoder : KissDecoder capacity} (h : decoder.Reachable) (commands : List RNodeCommand) :
    (∀ command : RNodeCommand, ¬command.Valid → ∀ out, ∃ error,
      command.rangeError = some error ∧ encodeCommand command out = .error (.error error) out) ∧
    ((∀ command ∈ commands, command.Valid) →
      ∃ bytes : List (List UInt8), List.Forall₂ RNodeCommand.Encodes commands bytes ∧
      ∃ garbage frames : List KissFrameRef, garbage.length ≤ 1 ∧
        (∃ after, decoder.Delivers bytes.flatten (garbage ++ frames) after) ∧
        frames.map parseCommandFrame = commands.map (Except.ok ·.event)) ∧
    ∀ config : RNodeConfig,
      validateConfig config = .ok () ↔ ∀ command ∈ config.commands, command.Valid := by
  refine ⟨fun command hinvalid => RNodeCommand.encodeCommand_invalid hinvalid, ?_, ?_⟩
  · intro hvalid
    obtain ⟨garbage, hgarbage, after, hruns⟩ := RNodeCommand.runs_encoded hcapacity h.idle commands
    refine ⟨commands.map RNodeCommand.encoded, ?_, garbage, commands.map RNodeCommand.kissFrame,
      hgarbage, ⟨after, ?_⟩, ?_⟩
    · rw [List.forall₂_map_right_iff, List.forall₂_same]
      exact fun command hcommand => RNodeCommand.encodes_encoded (hvalid command hcommand)
    · rw [← List.flatMap_def]
      exact KissDecoder.delivers_of_runs hruns
    · rw [List.map_map]
      exact List.map_congr_left fun command _ => command.parseCommandFrame_eq
  · exact RNodeConfig.validateConfig_eq_ok_iff

/-- A frequency with escaped bytes, behind an unfinished frame. -/
theorem commands_roundTrip_afterGarbage :
    (∀ command : RNodeCommand, ¬command.Valid → ∀ out, ∃ error,
      command.rangeError = some error ∧ encodeCommand command out = .error (.error error) out) ∧
    ((∀ command ∈ [RNodeCommand.frequencyHz 0x30c0db00, .leave], command.Valid) →
      ∃ bytes : List (List UInt8),
        List.Forall₂ RNodeCommand.Encodes [.frequencyHz 0x30c0db00, .leave] bytes ∧
      ∃ garbage frames : List KissFrameRef, garbage.length ≤ 1 ∧
        (∃ after, (KissDecoder.pushBytes (KissDecoder.accept List.concat) [0xc0, 0x05]
          (KissDecoder.new 8, [])).state.1.Delivers bytes.flatten (garbage ++ frames) after) ∧
        frames.map parseCommandFrame =
          [RNodeCommand.frequencyHz 0x30c0db00, .leave].map (Except.ok ·.event)) ∧
    ∀ config : RNodeConfig,
      validateConfig config = .ok () ↔ ∀ command ∈ config.commands, command.Valid :=
  commands_roundTrip (by decide) (.push .new _ _ _) [.frequencyHz 0x30c0db00, .leave]

end Hyf
