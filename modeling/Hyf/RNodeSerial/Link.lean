import Hyf.Kiss.Kiss
import Hyf.Link.Frame
import Hyf.RNode.Command
import Hyf.Rns.Packet
import Hyf.Wire.Envelope

/-!
# The RNode serial link (`hyf_link_rnode_serial`)

The link sends a payload as one KISS frame, written piece by piece, and reads its port byte by byte
into a KISS decoder. A complete frame waits in one `pending` slot until a poll hands it over. Every
poll first takes the frame up, if none is pending, and then either drains it or keeps it.

The port is any type with `read` and `write_all`. A run of the link sees of it what the successive calls
return, so the port is modelled by these results. The output slice of a poll is its length, and for the
envelope encoder its bytes; what is written into it is in the frame that is returned.
-/

namespace Hyf.RNodeSerial

open Rns

/-- What data frames carry: envelopes, or packets of RNS. -/
inductive RNodeDataMode where
  | hyfEnvelope
  | rawRnsPacket
  deriving DecidableEq

/-- The errors of the link. -/
inductive RNodeSerialError where
  | invalidMtu (mtu : ℕ)
  | invalidFrameCapacity (mtu capacity : ℕ)
  | frameTooLarge (actual mtu : ℕ)
  | readBufferTooSmall (actual required : ℕ)
  | writeBufferFull (required capacity : ℕ)
  | injectedReadFailure
  | injectedWriteFailure
  | serialOpenFailure
  | serialReadFailure
  | serialWriteFailure
  | flowControlBlocked
  | rawRnsModeRequired
  | rnsWrapParamsRequired
  | rnsWrapParamsUnexpected
  | rnsWrapParamsUnavailable
  | kiss (error : KissError)
  | rnode (error : RNodeError)
  | rns (error : HyfLinkRnsError)
  | hyfWire (error : HyfWireError)
  deriving DecidableEq

/-- The configuration of the link. -/
structure RNodeSerialConfig where
  linkId : LinkId
  mtu : ℕ
  flowControl : Bool
  dataMode : RNodeDataMode
  deriving DecidableEq

/-- `validate`. -/
def RNodeSerialConfig.validate (config : RNodeSerialConfig) : Except RNodeSerialError Unit :=
  if config.mtu = 0 then .error (.invalidMtu config.mtu) else .ok ()

/-- What the link reports. -/
inductive RNodeSerialEvent where
  | frame (frame : LinkFrameRef)
  | ready
  | error (error : RNodeHardwareError)
  | firmwareVersion (version : RNodeFirmwareVersion)
  | configReport (report : RNodeConfigReport)
  | stat (stat : RNodeStat)
  | unknown (command : UInt8) (payloadLen : ℕ)
  deriving DecidableEq

/-- The report of an event of the firmware. -/
def RNodeSerialEvent.fromRnode : RNodeEvent → RNodeSerialEvent
  | .data _ => .unknown 0x00 0
  | .ready => .ready
  | .error hardwareError => .error hardwareError
  | .firmwareVersion version => .firmwareVersion version
  | .configReport report => .configReport report
  | .stat value => .stat value
  | .unknown command payload => .unknown command payload.length

/-! ## The port -/

/-- A call of `read` into a buffer of one byte returns a count, or an error. The byte is what the
buffer then holds. -/
abbrev ReadResult := Except RNodeSerialError (ℕ × UInt8)

/-- A serial port: the results of its next calls, and what was written to it. Behind the listed
results, `read` finds no byte and `write_all` succeeds. -/
structure SerialPort where
  reads : List ReadResult
  writes : List (Except RNodeSerialError Unit)
  written : List UInt8

namespace SerialPort

/-- A call that fails has written nothing. -/
def writeAll (input : List UInt8) : EStateM RNodeSerialError SerialPort Unit := fun port =>
  match port.writes with
  | [] => .ok () { port with written := port.written ++ input }
  | .ok () :: writes => .ok () { port with writes, written := port.written ++ input }
  | .error error :: writes => .error error { port with writes }

end SerialPort

/-- The loop of `write_kiss_frame` over the payload. -/
def writeKissPayload : List UInt8 → EStateM RNodeSerialError SerialPort Unit
  | [] => return ()
  | byte :: payload => do
    if byte = kissFend then SerialPort.writeAll [kissFesc, kissTfend]
    else if byte = kissFesc then SerialPort.writeAll [kissFesc, kissTfesc]
    else SerialPort.writeAll [byte]
    writeKissPayload payload

/-- `write_kiss_frame`: the frame goes to the port piece by piece. -/
def writeKissFrame (command : UInt8) (payload : List UInt8) :
    EStateM RNodeSerialError SerialPort Unit := do
  SerialPort.writeAll [kissFend, command]
  writeKissPayload payload
  SerialPort.writeAll [kissFend]

/-! ## The link -/

/-- A frame that was read and not taken yet, and when it was read. -/
@[ext]
structure PendingFrame (capacity : ℕ) where
  command : UInt8
  payload : List UInt8
  receivedAtMs : TimestampMs
  length_le : payload.length ≤ capacity

instance {capacity : ℕ} : DecidableEq (PendingFrame capacity) :=
  fun _ _ => decidable_of_iff' _ PendingFrame.ext_iff

/-- `try_from_kiss_frame`. -/
def PendingFrame.tryFromKissFrame {capacity : ℕ} (frame : KissFrameRef)
    (receivedAtMs : TimestampMs) : Except KissError (PendingFrame capacity) :=
  if h : frame.payload.length > capacity then
    .error (.frameTooLarge frame.payload.length capacity)
  else .ok ⟨frame.command, frame.payload, receivedAtMs, Nat.le_of_not_lt h⟩

/-- A link over its port. Frames fit into the bytes that are kept for one. -/
structure RNodeSerialLink (frameMax : ℕ) where
  config : RNodeSerialConfig
  io : SerialPort
  state : RNodeState
  decoder : KissDecoder frameMax
  pending : Option (PendingFrame frameMax)
  capacity : config.mtu < frameMax

namespace RNodeSerialLink

variable {frameMax : ℕ}

/-- `new`: the configuration is checked, and with flow control the link starts blocked. -/
def new (config : RNodeSerialConfig) (io : SerialPort) :
    Except RNodeSerialError (RNodeSerialLink frameMax) := do
  config.validate
  if h : config.mtu + 1 > frameMax then
    throw (.invalidFrameCapacity config.mtu frameMax)
  else
    return {
      config := config
      io := io
      state := RNodeState.new config.flowControl
      decoder := KissDecoder.new frameMax
      pending := none
      capacity := Nat.lt_of_succ_le (Nat.le_of_not_lt h) }

/-- The link is up when it may transmit. -/
def isUp (link : RNodeSerialLink frameMax) : Bool := link.state.canTransmit

/-- A call of the link. -/
abbrev LinkM (frameMax : ℕ) := EStateM RNodeSerialError (RNodeSerialLink frameMax)

/-- A call of the link's port. -/
def onPort {α : Type} (call : EStateM RNodeSerialError SerialPort α) : LinkM frameMax α := fun link =>
  match call link.io with
  | .ok a io => .ok a { link with io }
  | .error error io => .error error { link with io }

/-- Lift a call that does not touch the link, as `?` does it. -/
def check {ε α : Type} (convert : ε → RNodeSerialError) (result : Except ε α) : LinkM frameMax α :=
  fun link =>
    match result with
    | .ok a => .ok a link
    | .error error => .error (convert error) link

/-! ### Sending -/

/-- `payload_for_send`: the envelope itself, or the packet in it. -/
def payloadForSend (link : RNodeSerialLink frameMax) (bytes : List UInt8) :
    Except RNodeSerialError (List UInt8) :=
  match link.config.dataMode with
  | .hyfEnvelope => do
    let _ ← (decodeEnvelope bytes).mapError .hyfWire
    return bytes
  | .rawRnsPacket => do
    let envelope ← (decodeEnvelope bytes).mapError .hyfWire
    (unwrapRnsPacket envelope).mapError .rns

/-- The state notes a transmission. -/
def markTxStarted : LinkM frameMax Unit := modify fun link =>
  { link with state := link.state.markTxStarted }

/-- `send_gateway_bytes`. -/
def sendGatewayBytes (bytes : List UInt8) : LinkM frameMax Unit := do
  let link ← get
  let payload ← check id (link.payloadForSend bytes)
  if payload.length > link.config.mtu then
    throw (.frameTooLarge payload.length link.config.mtu)
  if !link.state.canTransmit then
    throw .flowControlBlocked
  onPort (writeKissFrame kissCmdData payload)
  markTxStarted

/-! ### Reading -/

/-- The callback of `read_until_pending`: it keeps the frame. -/
def capturePending (nowMs : TimestampMs) : KissDecoder.OnFrame (Option (PendingFrame frameMax)) :=
  fun frame captured =>
    match PendingFrame.tryFromKissFrame frame nowMs with
    | .ok pending => .ok () (some pending)
    | .error error => .error error captured

/-- The loop of `read_until_pending` over the results of `read`. -/
def readLoop (nowMs : TimestampMs) :
    List ReadResult → RNodeSerialLink frameMax → EStateM.Result RNodeSerialError
      (RNodeSerialLink frameMax) Bool
  | [], link => .ok false { link with io := { link.io with reads := [] } }
  | .error error :: reads, link => .error error { link with io := { link.io with reads } }
  | .ok (read, byte) :: reads, link =>
    let io := { link.io with reads }
    if read = 0 then .ok false { link with io }
    else if read > 1 then .error (.readBufferTooSmall 1 read) { link with io }
    else
      match KissDecoder.pushBytes (capturePending nowMs) [byte] (link.decoder, none) with
      | .error error (decoder, _) => .error (.kiss error) { link with io, decoder }
      | .ok () (decoder, some pending) =>
        .ok true { link with io, decoder, pending := some pending }
      | .ok () (decoder, none) => readLoop nowMs reads { link with io, decoder }

/-- `read_until_pending`, over what the port has. -/
def readUntilPending (nowMs : TimestampMs) : LinkM frameMax Bool := fun link =>
  readLoop nowMs link.io.reads link

/-- `if self.pending.is_none() && !self.read_until_pending(now_ms)?`: whether a frame is pending
afterwards. -/
def takeUp (nowMs : TimestampMs) : LinkM frameMax Bool := fun link =>
  match link.pending with
  | some _ => .ok true link
  | none => readUntilPending nowMs link

/-- The pending frame is given up. -/
def clearPending : LinkM frameMax Unit := modify fun link => { link with pending := none }

/-! ### Draining -/

/-- A report is parsed, applied and handed over. -/
def drainPendingCommand : LinkM frameMax (Option RNodeSerialEvent) := do
  let link ← get
  match link.pending with
  | none => return none
  | some pending =>
    if pending.command = kissCmdData then
      return none
    let rnodeEvent ← check .rnode (parseCommandFrame ⟨pending.command, pending.payload⟩)
    modify fun link => { link with state := link.state.applyEvent rnodeEvent }
    clearPending
    return some (.fromRnode rnodeEvent)

/-- `drain_pending_frame`: the payload of a data frame, whatever it is. -/
def drainPendingFrame (output : List UInt8) : LinkM frameMax (Option LinkFrameRef) := do
  let link ← get
  match link.pending with
  | none => return none
  | some pending =>
    if pending.command ≠ kissCmdData then
      return none
    if output.length < pending.payload.length then
      throw (.readBufferTooSmall output.length pending.payload.length)
    clearPending
    return some ⟨link.config.linkId, pending.receivedAtMs, pending.payload⟩

/-- `drain_pending_hyf_frame`: a payload that is an envelope. -/
def drainPendingHyfFrame (output : List UInt8) : LinkM frameMax (Option LinkFrameRef) := do
  let link ← get
  match link.pending with
  | none => return none
  | some pending =>
    if pending.command ≠ kissCmdData then
      return none
    if output.length < pending.payload.length then
      throw (.readBufferTooSmall output.length pending.payload.length)
    match decodeEnvelope pending.payload with
    | .error error =>
      clearPending
      throw (.hyfWire error)
    | .ok _ =>
      clearPending
      return some ⟨link.config.linkId, pending.receivedAtMs, pending.payload⟩

/-- `drain_pending_raw_rns_frame`: the envelope of a packet. -/
def drainPendingRawRnsFrame (output : List UInt8) (params : RnsWrapParams) :
    LinkM frameMax (Option LinkFrameRef) := do
  let link ← get
  match link.pending with
  | none => return none
  | some pending =>
    if pending.command ≠ kissCmdData then
      return none
    match validateRnsPacket pending.payload with
    | .error error =>
      clearPending
      throw (.rns error)
    | .ok packet =>
      let envelope ← check .rns (wrapRnsPacket packet params)
      let (len, output) ← check .hyfWire (encodeEnvelope envelope output)
      clearPending
      return some ⟨link.config.linkId, pending.receivedAtMs, output.take len⟩

/-! ### Termination of the polls -/

/-- A frame costs one read at least. -/
theorem readLoop_reads_lt {nowMs : TimestampMs} {reads : List ReadResult}
    {link link' : RNodeSerialLink frameMax} (h : readLoop nowMs reads link = .ok true link') :
    link'.io.reads.length < reads.length := by
  induction reads generalizing link with
  | nil => cases h
  | cons result reads ih =>
    obtain error | ⟨read, byte⟩ := result
    · cases h
    · simp only [readLoop] at h
      split_ifs at h with hnone hmany
      · simp at h
      · split at h
        · cases h
        · cases h
          exact Nat.lt_succ_self _
        · exact Nat.lt_succ_of_lt (ih h)

/-- The link after it applied a report. -/
def applied (link : RNodeSerialLink frameMax) (event : RNodeEvent) : RNodeSerialLink frameMax :=
  { link with state := link.state.applyEvent event, pending := none }

section Command

variable {link : RNodeSerialLink frameMax} {pending : PendingFrame frameMax}

/-- A pending command is reported and applied. -/
theorem drainPendingCommand_ok (hpending : link.pending = some pending)
    (hcommand : pending.command ≠ kissCmdData) {event : RNodeEvent}
    (hparse : parseCommandFrame ⟨pending.command, pending.payload⟩ = .ok event) :
    drainPendingCommand link = .ok (some (.fromRnode event)) (link.applied event) := by
  rw [drainPendingCommand, ByteCodec.run_get_bind, hpending]
  simp only
  rw [if_neg hcommand, hparse]
  rfl

/-- A malformed command is an error and stays. -/
theorem drainPendingCommand_error (hpending : link.pending = some pending)
    (hcommand : pending.command ≠ kissCmdData) {error : RNodeError}
    (hparse : parseCommandFrame ⟨pending.command, pending.payload⟩ = .error error) :
    drainPendingCommand link = .error (.rnode error) link := by
  rw [drainPendingCommand, ByteCodec.run_get_bind, hpending]
  simp only
  rw [if_neg hcommand, hparse]
  rfl

end Command

/-- What is left to take up: the results of `read`, and the pending frame. -/
def backlog (link : RNodeSerialLink frameMax) : ℕ :=
  link.io.reads.length + link.pending.toList.length

/-- Taking up a frame and draining it leaves less to take up. -/
theorem backlog_applied_lt {nowMs : TimestampMs} {link link' : RNodeSerialLink frameMax}
    (h : takeUp nowMs link = .ok true link') (event : RNodeEvent) :
    (link'.applied event).backlog < link.backlog := by
  unfold takeUp at h
  split at h
  · rename_i pending hpending
    cases h
    simp [backlog, applied, hpending]
  · rename_i hpending
    have hlt := readLoop_reads_lt h
    simpa [backlog, applied, hpending] using hlt

/-! ### The polls -/

/-- The loop that the gateway polls share: reports are drained until a data frame is pending. The
result says whether one is. -/
def nextDataFrame (nowMs : TimestampMs) (link : RNodeSerialLink frameMax) :
    EStateM.Result RNodeSerialError (RNodeSerialLink frameMax) Bool :=
  match _htake : takeUp nowMs link with
  | .error error link => .error error link
  | .ok false link => .ok false link
  | .ok true link' =>
    match _hpending : link'.pending with
    | none => .ok false link'
    | some pending =>
      if _hcommand : pending.command = kissCmdData then .ok true link'
      else
        match _hdrain : drainPendingCommand link' with
        | .error error link => .error error link
        | .ok _ link => nextDataFrame nowMs link
termination_by link.backlog
decreasing_by
  cases hparse : parseCommandFrame ⟨pending.command, pending.payload⟩ with
  | error error =>
    rw [drainPendingCommand_error _hpending _hcommand hparse] at _hdrain
    cases _hdrain
  | ok event =>
    rw [drainPendingCommand_ok _hpending _hcommand hparse] at _hdrain
    cases _hdrain
    exact backlog_applied_lt _htake event

section NextDataFrame

variable {nowMs : TimestampMs} {link link' link'' : RNodeSerialLink frameMax}
  {pending : PendingFrame frameMax}

/-- An error of the reads is one of the loop. -/
theorem nextDataFrame_error {error : RNodeSerialError} (htake : takeUp nowMs link = .error error link') :
    nextDataFrame nowMs link = .error error link' := by
  rw [nextDataFrame]
  split <;> simp_all

/-- Nothing was read, so nothing comes next. -/
theorem nextDataFrame_none (htake : takeUp nowMs link = .ok false link') :
    nextDataFrame nowMs link = .ok false link' := by
  rw [nextDataFrame]
  split <;> simp_all

/-- Without a pending frame nothing comes next. -/
theorem nextDataFrame_empty (htake : takeUp nowMs link = .ok true link')
    (hpending : link'.pending = none) : nextDataFrame nowMs link = .ok false link' := by
  rw [nextDataFrame]
  split <;> simp_all
  split <;> simp_all

/-- One round of the loop over a frame that was taken up. -/
theorem nextDataFrame_taken (htake : takeUp nowMs link = .ok true link')
    (hpending : link'.pending = some pending) :
    nextDataFrame nowMs link =
      if pending.command = kissCmdData then .ok true link'
      else (drainPendingCommand >>= fun _ => nextDataFrame nowMs) link' := by
  show _ = if _ then _ else EStateM.bind drainPendingCommand (fun _ => nextDataFrame nowMs) link'
  simp only [EStateM.bind]
  rw [nextDataFrame]
  split
  · simp_all
  · simp_all
  · rename_i taken heq
    rw [htake] at heq
    cases heq
    split
    · simp_all
    · rename_i pending' hpending'
      rw [hpending] at hpending'
      cases hpending'
      by_cases hcommand : pending.command = kissCmdData
      · rw [dif_pos hcommand, if_pos hcommand]
      · rw [dif_neg hcommand, if_neg hcommand]
        split <;> simp_all

/-- A data frame in front ends the loop. -/
theorem nextDataFrame_data (htake : takeUp nowMs link = .ok true link')
    (hpending : link'.pending = some pending) (hcommand : pending.command = kissCmdData) :
    nextDataFrame nowMs link = .ok true link' := by
  rw [nextDataFrame_taken htake hpending, if_pos hcommand]

/-- A command in front is applied, and the loop goes on. -/
theorem nextDataFrame_command (htake : takeUp nowMs link = .ok true link')
    (hpending : link'.pending = some pending) (hcommand : pending.command ≠ kissCmdData)
    {event : RNodeEvent}
    (hparse : parseCommandFrame ⟨pending.command, pending.payload⟩ = .ok event) :
    nextDataFrame nowMs link = nextDataFrame nowMs (link'.applied event) := by
  rw [nextDataFrame_taken htake hpending, if_neg hcommand]
  exact ByteCodec.run_bind_of_ok (drainPendingCommand_ok hpending hcommand hparse) _

/-- A malformed command ends the loop with its error, and stays. -/
theorem nextDataFrame_malformed (htake : takeUp nowMs link = .ok true link')
    (hpending : link'.pending = some pending) (hcommand : pending.command ≠ kissCmdData)
    {error : RNodeError}
    (hparse : parseCommandFrame ⟨pending.command, pending.payload⟩ = .error error) :
    nextDataFrame nowMs link = .error (.rnode error) link' := by
  rw [nextDataFrame_taken htake hpending, if_neg hcommand]
  exact ByteCodec.run_bind_of_error (drainPendingCommand_error hpending hcommand hparse) _

end NextDataFrame

/-- `poll_event_at`: the next frame, whatever it is. -/
def pollEventAt (nowMs : TimestampMs) (output : List UInt8) :
    LinkM frameMax (Option RNodeSerialEvent) := do
  if !(← takeUp nowMs) then
    return none
  match (← get).pending with
  | none => return none
  | some pending =>
    if pending.command = kissCmdData then
      return (← drainPendingFrame output).map .frame
    drainPendingCommand

/-- The next data frame as an envelope. -/
def pollHyfGatewayFrame (nowMs : TimestampMs) (output : List UInt8) :
    LinkM frameMax (Option LinkFrameRef) := do
  if ← nextDataFrame nowMs then drainPendingHyfFrame output else return none

/-- The next data frame as a packet. -/
def pollRawRnsGatewayFrame (nowMs : TimestampMs) (output : List UInt8) (params : RnsWrapParams) :
    LinkM frameMax (Option LinkFrameRef) := do
  if ← nextDataFrame nowMs then drainPendingRawRnsFrame output params else return none

/-- `poll_gateway_frame_at`, for a link in envelope mode. -/
def pollGatewayFrameAt (nowMs : TimestampMs) (output : List UInt8) :
    LinkM frameMax (Option LinkFrameRef) := do
  if (← get).config.dataMode = .rawRnsPacket then
    throw .rnsWrapParamsRequired
  pollHyfGatewayFrame nowMs output

/-- `poll_gateway_frame_with_rns_params_at`: in raw mode every packet gets these parameters. -/
def pollGatewayFrameWithRnsParamsAt (nowMs : TimestampMs) (output : List UInt8)
    (params : RnsWrapParams) : LinkM frameMax (Option LinkFrameRef) := do
  if (← get).config.dataMode = .hyfEnvelope then
    throw .rnsWrapParamsUnexpected
  pollRawRnsGatewayFrame nowMs output params

/-- `LinkDriver::poll_frame`. -/
def pollFrame (nowMs : TimestampMs) (output : List UInt8) : LinkM frameMax (Option LinkFrameRef) := do
  if ← nextDataFrame nowMs then pollGatewayFrameAt nowMs output else return none

end RNodeSerialLink

/-! ## The driver with a provider -/

/-- A provider chooses the envelope's fields for a received packet; it may keep a state of its own. -/
abbrev RnsWrapParamsProvider (π : Type) :=
  RnsPacketRef → TimestampMs → π → Option RnsWrapParams × π

/-- A link in raw mode, and what gives packets their addresses. -/
structure RNodeRawRnsSerialDriver (frameMax : ℕ) (π : Type) where
  link : RNodeSerialLink frameMax
  provider : π

namespace RNodeRawRnsSerialDriver

open RNodeSerialLink

variable {frameMax : ℕ} {π : Type}

/-- `new`, for a link in raw mode only. -/
def new (link : RNodeSerialLink frameMax) (provider : π) :
    Except RNodeSerialError (RNodeRawRnsSerialDriver frameMax π) :=
  if link.config.dataMode ≠ .rawRnsPacket then .error .rawRnsModeRequired
  else .ok ⟨link, provider⟩

/-- A call of the driver. -/
abbrev DriverM (frameMax : ℕ) (π : Type) :=
  EStateM RNodeSerialError (RNodeRawRnsSerialDriver frameMax π)

/-- A call of the link. -/
def onLink {α : Type} (call : LinkM frameMax α) : DriverM frameMax π α := fun driver =>
  match call driver.link with
  | .ok a link => .ok a { driver with link }
  | .error error link => .error error { driver with link }

/-- The provider is asked for the address of a packet. -/
def askProvider (wrapParams : RnsWrapParamsProvider π) (packet : RnsPacketRef)
    (receivedAtMs : TimestampMs) : DriverM frameMax π (Option RnsWrapParams) := fun driver =>
  let (params, provider) := wrapParams packet receivedAtMs driver.provider
  .ok params { driver with provider }

/-- `drain_pending_raw_rns_frame_with_provider`: a packet stays until it has an address and room. -/
def drainPendingRawRnsFrameWithProvider (wrapParams : RnsWrapParamsProvider π)
    (output : List UInt8) : DriverM frameMax π (Option LinkFrameRef) := do
  let link := (← get).link
  match link.pending with
  | none => return none
  | some pending =>
    if pending.command ≠ kissCmdData then
      return none
    match validateRnsPacket pending.payload with
    | .error error =>
      onLink clearPending
      throw (.rns error)
    | .ok packet =>
      match ← askProvider wrapParams packet pending.receivedAtMs with
      | none => throw .rnsWrapParamsUnavailable
      | some params =>
        let envelope ← onLink (check .rns (wrapRnsPacket packet params))
        let (len, output) ← onLink (check .hyfWire (encodeEnvelope envelope output))
        onLink clearPending
        return some ⟨link.config.linkId, pending.receivedAtMs, output.take len⟩

/-- `LinkDriver::poll_frame` of the driver. -/
def pollFrame (wrapParams : RnsWrapParamsProvider π) (nowMs : TimestampMs) (output : List UInt8) :
    DriverM frameMax π (Option LinkFrameRef) := do
  if ← onLink (nextDataFrame nowMs) then drainPendingRawRnsFrameWithProvider wrapParams output
  else return none

end RNodeRawRnsSerialDriver

end Hyf.RNodeSerial
