import Hyf.Bridge.BitchatBridge
import Hyf.Bridge.LxmfBridge
import Hyf.Bridge.NostrBridge
import Hyf.Common.SlotArray
import Hyf.Common.Transaction

/-!
# The bridge orchestrator (`hyf_bridge_runtime`)

The orchestrator takes a message from one of the foreign networks, turns it into a bridge message and
emits it to HYF and to the networks of its route policy. A key that it remembers is dropped as a
duplicate. A call computes every output in scratch buffers before it remembers the key and writes the
first command; a command is a value here, where the source has it point into the scratch.
-/

namespace Hyf.BridgeRuntime

open ByteCodec Bridge BitchatBridge LxmfBridge NostrBridge Nostr

/-- The errors of the runtime. -/
inductive BridgeRuntimeError where
  | bitchat (error : BitchatBridgeError)
  | bridge (error : BridgeError)
  | dedupeCapacityZero
  | lxmf (error : LxmfBridgeError)
  | nostr (error : NostrBridgeError)
  | outputTooSmall (actual required : ℕ)
  deriving DecidableEq

/-- Why a message is not passed on. -/
inductive BridgeDropReason where
  | duplicate
  | loopPrevented
  | unsupportedProfile
  | outputTooSmall
  | malformedInput
  deriving DecidableEq

/-- What the runtime asks for. -/
inductive BridgeRuntimeCommand where
  | emitHyfEnvelope (envelope : HyfEnvelopeRef)
  | emitBitChatPacket (packet : List UInt8)
  | emitLxmfMessage (message : List UInt8)
  | emitNostrEvent (event : List UInt8)
  | drop (key : BridgeMessageKey) (reason : BridgeDropReason)
  deriving DecidableEq

/-- Where a message came from. -/
structure BridgeOrigin where
  protocol : BridgeProtocol
  endpointHash : ByteArrayN 32
  deriving DecidableEq

/-! ## The dedupe set -/

/-- A ring of the keys inserted last. -/
@[ext]
structure BridgeDedupeSet (n : ℕ) where
  keys : SlotArray BridgeMessageKey n
  nextIndex : ℕ
  len : ℕ
  nextIndex_lt : 0 < n → nextIndex < n
  deriving DecidableEq

namespace BridgeDedupeSet

variable {n : ℕ}

/-- An empty set. -/
def new (n : ℕ) : BridgeDedupeSet n := ⟨SlotArray.empty _ n, 0, 0, id⟩

/-- `contains`. -/
def contains (set : BridgeDedupeSet n) (key : BridgeMessageKey) : Bool :=
  set.keys.live.any fun stored => stored = key

/-- The writes of `insert`. The cell that is written is in range by `nextIndex_lt`. -/
def push (set : BridgeDedupeSet n) (key : BridgeMessageKey) : BridgeDedupeSet n where
  keys := set.keys.write set.nextIndex (some key)
  nextIndex := (set.nextIndex + 1) % n
  len := if set.len < n then set.len + 1 else set.len
  nextIndex_lt := Nat.mod_lt _

/-- Whether the key is new, and the set afterwards. -/
def insert (set : BridgeDedupeSet n) (key : BridgeMessageKey) :
    Outcome BridgeRuntimeError (Bool × BridgeDedupeSet n) :=
  if set.contains key then .ok (false, set)
  else if n = 0 then fail .dedupeCapacityZero
  else .ok (true, set.push key)

end BridgeDedupeSet

/-! ## The route policy -/

/-- The networks that messages are passed on to, and whether one may get its own back. -/
structure BridgeRoutePolicy (maxEgress : ℕ) where
  allowEcho : Bool
  egressProtocols : SlotArray BridgeProtocol maxEgress
  deriving DecidableEq

/-- `protocol_index`. -/
def protocolIndex : BridgeProtocol → Fin 4
  | .hyf => 0
  | .bitChat => 1
  | .lxmf => 2
  | .nostr => 3

/-- Whether the protocol was seen before, and the marks afterwards. -/
def markSeen (seen : List.Vector Bool 4) (protocol : BridgeProtocol) : Bool × List.Vector Bool 4 :=
  (seen.get (protocolIndex protocol), seen.set (protocolIndex protocol) true)

namespace BridgeRoutePolicy

variable {maxEgress : ℕ}

/-- `no_echo`: no network gets its own messages back. -/
def noEcho (egressProtocols : SlotArray BridgeProtocol maxEgress) : BridgeRoutePolicy maxEgress :=
  ⟨false, egressProtocols⟩

/-- `protocol_is_blocked`. -/
def protocolIsBlocked (policy : BridgeRoutePolicy maxEgress) (origin : BridgeOrigin)
    (protocol : BridgeProtocol) : Bool :=
  !policy.allowEcho && decide (origin.protocol = protocol)

/-- The loop of `selected_egress_count`. -/
def countLoop (policy : BridgeRoutePolicy maxEgress) (origin : BridgeOrigin) :
    List.Vector Bool 4 → ℕ → List BridgeProtocol → ℕ
  | _, count, [] => count
  | selected, count, protocol :: protocols =>
    if policy.protocolIsBlocked origin protocol then countLoop policy origin selected count protocols
    else
      let (wasSeen, selected) := markSeen selected protocol
      if wasSeen then countLoop policy origin selected count protocols
      else countLoop policy origin selected (count + 1) protocols

/-- `selected_egress_count`. -/
def selectedEgressCount (policy : BridgeRoutePolicy maxEgress) (origin : BridgeOrigin) : ℕ :=
  policy.countLoop origin (List.Vector.replicate 4 false) 0 policy.egressProtocols.live

/-- The loop of `select_egress`: the count and the output afterwards. -/
def selectLoop (policy : BridgeRoutePolicy maxEgress) (origin : BridgeOrigin) :
    List.Vector Bool 4 → ℕ → List BridgeProtocol → List BridgeProtocol →
    Outcome BridgeRuntimeError (ℕ × List BridgeProtocol)
  | _, count, output, [] => .ok (count, output)
  | selected, count, output, protocol :: protocols =>
    if policy.protocolIsBlocked origin protocol then
      selectLoop policy origin selected count output protocols
    else
      let (wasSeen, selected) := markSeen selected protocol
      if wasSeen then selectLoop policy origin selected count output protocols
      else do
        let output ← setAt output count protocol
        selectLoop policy origin selected (count + 1) output protocols

/-- `select_egress`: the networks that are not blocked, in order. -/
def selectEgress (policy : BridgeRoutePolicy maxEgress) (origin : BridgeOrigin)
    (output : List BridgeProtocol) : Outcome BridgeRuntimeError (ℕ × List BridgeProtocol) := do
  let required := policy.selectedEgressCount origin
  rejectIf (output.length < required) (.outputTooSmall output.length required)
  policy.selectLoop origin (List.Vector.replicate 4 false) 0 output policy.egressProtocols.live

end BridgeRoutePolicy

/-! ## Parameters and buffers -/

/-- What the forms of a message need that are sent. -/
structure BridgeRuntimeEgressParams where
  bitchat : Option BitchatBridgeEgressParams
  lxmf : Option LxmfBridgeEgressParams
  nostr : Option NostrBridgeEgressParams
  deriving DecidableEq

/-- The time, and what is needed to send. -/
structure BridgeRuntimeDispatchParams where
  wrap : BridgeWrapParams
  egress : BridgeRuntimeEgressParams
  deriving DecidableEq

/-- The buffers of the runtime. -/
structure BridgeRuntimeScratch where
  bridgeMessage : ByteArrayN hyfBridgeMessageMaxLen
  bitchatPacket : ByteArrayN bitchatBridgePacketMaxLen
  lxmfMessage : ByteArrayN lxmfBridgeMessageMaxLen
  nostrEvent : NostrBridgeEventScratch
  nostrEventJson : ByteArrayN hyfNostrBridgeEventJsonMaxLen

/-- The buffers that are sent from. -/
structure EgressOutputs where
  bitchatPacket : List UInt8
  lxmfMessage : List UInt8
  nostrEvent : NostrBridgeEventScratch
  nostrEventJson : List UInt8

/-- The buffers among the scratch that are sent from. -/
def BridgeRuntimeScratch.outputs (scratch : BridgeRuntimeScratch) : EgressOutputs where
  bitchatPacket := scratch.bitchatPacket.toList
  lxmfMessage := scratch.lxmfMessage.toList
  nostrEvent := scratch.nostrEvent
  nostrEventJson := scratch.nostrEventJson.toList

/-- A message in the form of one network. -/
inductive EgressPlan where
  | bitChat (len : ℕ)
  | lxmf (len : ℕ)
  | nostr (len : ℕ)
  | unsupportedProfile
  deriving DecidableEq

/-! ## Calls -/

/-- The routes, and the messages that were passed on. -/
structure BridgeOrchestrator (dedupeCapacity maxEgress : ℕ) where
  dedupe : BridgeDedupeSet dedupeCapacity
  routePolicy : BridgeRoutePolicy maxEgress
  deriving DecidableEq

/-- `new`. -/
def BridgeOrchestrator.new {dedupeCapacity maxEgress : ℕ} (routePolicy : BridgeRoutePolicy maxEgress) :
    BridgeOrchestrator dedupeCapacity maxEgress :=
  ⟨BridgeDedupeSet.new dedupeCapacity, routePolicy⟩

/-- What a call borrows to write to: the orchestrator and the slice of commands. -/
structure RuntimeState (dedupeCapacity maxEgress : ℕ) where
  orchestrator : BridgeOrchestrator dedupeCapacity maxEgress
  commands : List BridgeRuntimeCommand
  deriving DecidableEq

/-- A call of the runtime: its state, and the commands that it writes. -/
abbrev RuntimeM (dedupeCapacity maxEgress : ℕ) :=
  EStateM (Fault BridgeRuntimeError) (RuntimeState dedupeCapacity maxEgress)

/-- `ensure_command_capacity`. -/
def ensureCommandCapacity (commands : List BridgeRuntimeCommand) (required : ℕ) :
    Outcome BridgeRuntimeError Unit :=
  rejectIf (commands.length < required) (.outputTooSmall commands.length required)

/-- The drop of a message whose profile is not supported. -/
def unsupportedProfileDrop (key : BridgeMessageKey) : BridgeRuntimeCommand :=
  .drop key .unsupportedProfile

/-- The network whose authors a protocol knows. -/
def expectedNetwork : BridgeProtocol → Option ForeignNetworkKind
  | .bitChat => some .bitChat
  | .lxmf => some .lxmf
  | .nostr => some .nostr
  | .hyf => none

/-- `endpoint_hash`: the identifier of an author of the protocol's own network, cut or filled to 32
bytes, and zeros for others. -/
def endpointHash (originProtocol : BridgeProtocol) (message : BridgeMessageRef) : ByteArrayN 32 :=
  match expectedNetwork originProtocol with
  | some network =>
    if message.author.kind = .foreign network then
      let len := min message.author.id.length 32
      ⟨message.author.id.take len ++ List.replicate (32 - len) 0, by
        rw [List.length_append, List.length_take, List.length_replicate]
        omega⟩
    else fillBytes 32 0
  | none => fillBytes 32 0

section

variable (sha256 : List UInt8 → ByteArrayN 32) (schnorr : Schnorr)

/-- One round of the planning loop: the plan and the outputs afterwards. -/
def planEgress (rawBridge : List UInt8) (params : BridgeRuntimeEgressParams)
    (outputs : EgressOutputs) :
    BridgeProtocol → Outcome BridgeRuntimeError (EgressPlan × EgressOutputs)
  | .bitChat =>
    match params.bitchat with
    | some egress => do
      let message ← (decodeBridgeMessage rawBridge).convert .bridge
      let (len, bitchatPacket) ←
        (bridgeMessageToBitchatPacketV2 message egress outputs.bitchatPacket).convert .bitchat
      return (.bitChat len, { outputs with bitchatPacket })
    | none => .ok (.unsupportedProfile, outputs)
  | .lxmf =>
    match params.lxmf with
    | some egress => do
      let message ← (decodeBridgeMessage rawBridge).convert .bridge
      let (len, lxmfMessage) ←
        (bridgeMessageToLxmfMessageFixture message egress outputs.lxmfMessage).convert .lxmf
      return (.lxmf len, { outputs with lxmfMessage })
    | none => .ok (.unsupportedProfile, outputs)
  | .nostr =>
    match params.nostr with
    | some egress => do
      let (len, nostrEventJson) ← (bridgeMessageToNostrEventJson sha256 schnorr rawBridge egress
        outputs.nostrEvent outputs.nostrEventJson).convert .nostr
      return (.nostr len, { outputs with nostrEventJson })
    | none => .ok (.unsupportedProfile, outputs)
  | .hyf => .ok (.unsupportedProfile, outputs)

/-- The planning loop from the position `index` on: the plans and the outputs afterwards. -/
def planLoop (rawBridge : List UInt8) (params : BridgeRuntimeEgressParams) :
    ℕ → List BridgeProtocol → List EgressPlan → EgressOutputs →
    Outcome BridgeRuntimeError (List EgressPlan × EgressOutputs)
  | _, [], plans, outputs => .ok (plans, outputs)
  | index, protocol :: protocols, plans, outputs => do
    let (plan, outputs) ← planEgress sha256 schnorr rawBridge params outputs protocol
    let plans ← setAt plans index plan
    planLoop rawBridge params (index + 1) protocols plans outputs

/-- The command of a plan. -/
def planCommand (key : BridgeMessageKey) (outputs : EgressOutputs) :
    EgressPlan → Outcome BridgeRuntimeError BridgeRuntimeCommand
  | .bitChat len => do
    let packet ← sliceTo outputs.bitchatPacket len
    return .emitBitChatPacket packet
  | .lxmf len => do
    let message ← sliceTo outputs.lxmfMessage len
    return .emitLxmfMessage message
  | .nostr len => do
    let event ← sliceTo outputs.nostrEventJson len
    return .emitNostrEvent event
  | .unsupportedProfile => return unsupportedProfileDrop key

variable {dedupeCapacity maxEgress : ℕ}

/-- `commands[index] = command`. -/
def setCommand (index : ℕ) (command : BridgeRuntimeCommand) :
    RuntimeM dedupeCapacity maxEgress Unit := do
  let state ← get
  let commands ← Outcome.lift (setAt state.commands index command)
  set { state with commands }

/-- The emission loop: the number of commands afterwards. -/
def emitLoop (key : BridgeMessageKey) (outputs : EgressOutputs) :
    ℕ → List EgressPlan → RuntimeM dedupeCapacity maxEgress ℕ
  | commandCount, [] => return commandCount
  | commandCount, plan :: plans => do
    let command ← Outcome.lift (planCommand key outputs plan)
    setCommand commandCount command
    emitLoop key outputs (commandCount + 1) plans

/-- `emit_bridge_message`. -/
def emitBridgeMessage (originProtocol : BridgeProtocol) (rawBridge : List UInt8)
    (params : BridgeRuntimeDispatchParams) (outputs : EgressOutputs) :
    RuntimeM dedupeCapacity maxEgress ℕ := do
  let ⟨⟨dedupe, routePolicy⟩, commands⟩ ← get
  let message ← Outcome.lift ((validateBridgeMessage rawBridge).convert .bridge)
  let key : BridgeMessageKey := ⟨message.roomId, message.messageId⟩
  if dedupe.contains key then do
    Outcome.lift (ensureCommandCapacity commands 1)
    setCommand 0 (.drop key .duplicate)
    return 1
  else do
    let origin : BridgeOrigin := ⟨originProtocol, endpointHash originProtocol message⟩
    let requiredCommands := 1 + routePolicy.selectedEgressCount origin
    Outcome.lift (ensureCommandCapacity commands requiredCommands)
    let hyfEnvelope ← Outcome.lift ((wrapBridgeMessage rawBridge params.wrap).convert .bridge)
    let (selectedCount, selected) ←
      Outcome.lift (routePolicy.selectEgress origin (List.replicate maxEgress .hyf))
    let selected ← Outcome.lift (sliceTo selected selectedCount)
    let (plans, outputs) ← Outcome.lift (planLoop sha256 schnorr rawBridge params.egress 0 selected
      (List.replicate maxEgress .unsupportedProfile) outputs)
    let (_, dedupe) ← Outcome.lift (dedupe.insert key)
    modify fun state => { state with orchestrator.dedupe := dedupe }
    setCommand 0 (.emitHyfEnvelope hyfEnvelope)
    let plans ← Outcome.lift (sliceTo plans selectedCount)
    emitLoop key outputs 1 plans

/-- `ingest_bitchat`. -/
def ingestBitchat (raw : List UInt8) (ingressParams : BitchatBridgeIngressParams)
    (params : BridgeRuntimeDispatchParams) (scratch : BridgeRuntimeScratch) :
    RuntimeM dedupeCapacity maxEgress ℕ := do
  let ingress ← Outcome.lift ((bitchatPacketToBridgeMessage raw ingressParams).convert .bitchat)
  let (bridgeLen, bridgeMessage) ← Outcome.lift
    ((encodeBridgeMessage ingress.bridgeMessage scratch.bridgeMessage.toList).convert .bridge)
  let rawBridge ← Outcome.lift (sliceTo bridgeMessage bridgeLen)
  emitBridgeMessage sha256 schnorr .bitChat rawBridge params scratch.outputs

/-- `ingest_lxmf`. -/
def ingestLxmf (raw : List UInt8) (ingressParams : LxmfBridgeIngressParams)
    (params : BridgeRuntimeDispatchParams) (scratch : BridgeRuntimeScratch) :
    RuntimeM dedupeCapacity maxEgress ℕ := do
  let ingress ← Outcome.lift ((lxmfMessageToBridgeMessage raw ingressParams).convert .lxmf)
  let (bridgeLen, bridgeMessage) ← Outcome.lift
    ((encodeBridgeMessage ingress.bridgeMessage scratch.bridgeMessage.toList).convert .bridge)
  let rawBridge ← Outcome.lift (sliceTo bridgeMessage bridgeLen)
  emitBridgeMessage sha256 schnorr .lxmf rawBridge params scratch.outputs

/-- `ingest_nostr`. -/
def ingestNostr (event : NostrEvent) (params : BridgeRuntimeDispatchParams)
    (scratch : BridgeRuntimeScratch) : RuntimeM dedupeCapacity maxEgress ℕ := do
  let (ingress, bridgeMessage) ← Outcome.lift
    ((nostrEventToBridgeMessage sha256 schnorr event scratch.bridgeMessage.toList).convert .nostr)
  let bridgeLen := ingress.rawBridgeMessage.length
  let rawBridge ← Outcome.lift (sliceTo bridgeMessage bridgeLen)
  emitBridgeMessage sha256 schnorr .nostr rawBridge params scratch.outputs

/-- One call to the orchestrator, with the input and the parameters of its kind. -/
inductive Ingress where
  | bitchat (raw : List UInt8) (ingressParams : BitchatBridgeIngressParams)
  | lxmf (raw : List UInt8) (ingressParams : LxmfBridgeIngressParams)
  | nostr (event : NostrEvent)
  deriving DecidableEq

/-- An input of any of the three networks. -/
def ingest (input : Ingress) (params : BridgeRuntimeDispatchParams)
    (scratch : BridgeRuntimeScratch) : RuntimeM dedupeCapacity maxEgress ℕ :=
  match input with
  | .bitchat raw ingressParams => ingestBitchat sha256 schnorr raw ingressParams params scratch
  | .lxmf raw ingressParams => ingestLxmf sha256 schnorr raw ingressParams params scratch
  | .nostr event => ingestNostr sha256 schnorr event params scratch

end

end Hyf.BridgeRuntime
