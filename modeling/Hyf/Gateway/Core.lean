import Hyf.Common.LoggedSteps
import Hyf.Config.Config

/-!
# The gateway core (`hyf_gateway`)

`GatewayCore` connects the router and the store: it routes an event, executes the commands, and then
flushes the store. Frames leave through an executor, which the caller lends to each call and which
may answer any send with any error.

A call is a computation on a `World`: the core, the executor, and a log. The log is not in the
source. It records what a call did, in order, each event together with the core right after it, and
nothing reads it except `flushIteration`, for the event that reports what was executed.
-/

namespace Hyf

def gatewayFrameBufferLen : ℕ := 2048

/-! ## Errors -/

/-- The errors of the loopback link. -/
inductive LoopbackError where
  | down (linkId : LinkId)
  | frameTooLarge (actual mtu : ℕ)
  | internalFrameTooLarge (actual maximum : ℕ)
  | queueFull (linkId : LinkId) (capacity : ℕ)
  | outputTooSmall (actual required : ℕ)
  | linkMismatch (expected actual : LinkId)
  deriving DecidableEq

/-- How the gateway classifies them. -/
def LoopbackError.driverErrorKind : LoopbackError → LinkDriverErrorKind
  | down _ => .linkDown
  | queueFull _ _ => .backpressure
  | outputTooSmall _ _ => .outputTooSmall
  | frameTooLarge _ _ | internalFrameTooLarge _ _ => .frameTooLarge
  | linkMismatch _ _ => .unsupported

/-- The errors of the gateway. -/
inductive GatewayError where
  | config (error : ConfigError)
  | router (error : RouterError)
  | store (error : StoreError)
  | wire (error : HyfWireError)
  | loopback (error : LoopbackError)
  | unsupportedLink (linkId : LinkId)
  | driver (linkId : LinkId) (kind : LinkDriverErrorKind)
  | runtimeCapacity (name : String) (configured maximum : ℕ)
  deriving DecidableEq

/-- The errors after which a flush keeps the record and tries again later. -/
def GatewayError.isRecoverableSendFailure : GatewayError → Bool
  | driver _ kind => kind.isRecoverableSendFailure
  | loopback error => error.driverErrorKind.isRecoverableSendFailure
  | _ => false

/-! ## State -/

/-- Addition on `u64` that stops at the largest value. -/
def saturatingAdd (a b : UInt64) : UInt64 :=
  if a.toNat + b.toNat < 2 ^ 64 then a + b else UInt64.ofNat (2 ^ 64 - 1)

/-- What the gateway counts. -/
structure GatewayMetrics where
  submitted : UInt64 := 0
  received : UInt64 := 0
  sent : UInt64 := 0
  stored : UInt64 := 0
  delivered : UInt64 := 0
  dropped : UInt64 := 0
  expired : UInt64 := 0
  linkErrors : UInt64 := 0
  bytesSent : UInt64 := 0

namespace GatewayMetrics

/-- A message was submitted. -/
def addSubmitted (metrics : GatewayMetrics) : GatewayMetrics :=
  { metrics with submitted := saturatingAdd metrics.submitted 1 }

/-- A frame came in. -/
def addReceived (metrics : GatewayMetrics) : GatewayMetrics :=
  { metrics with received := saturatingAdd metrics.received 1 }

/-- A frame went out, with its bytes. -/
def addSent (len : ℕ) (metrics : GatewayMetrics) : GatewayMetrics :=
  { metrics with
    sent := saturatingAdd metrics.sent 1
    bytesSent := saturatingAdd metrics.bytesSent (UInt64.ofNat len) }

/-- A message was put into the store. -/
def addStored (metrics : GatewayMetrics) : GatewayMetrics :=
  { metrics with stored := saturatingAdd metrics.stored 1 }

/-- A message was delivered here. -/
def addDelivered (metrics : GatewayMetrics) : GatewayMetrics :=
  { metrics with delivered := saturatingAdd metrics.delivered 1 }

/-- A message was dropped. -/
def addDropped (metrics : GatewayMetrics) : GatewayMetrics :=
  { metrics with dropped := saturatingAdd metrics.dropped 1 }

/-- So many messages expired in the store. -/
def addExpired (expired : ℕ) (metrics : GatewayMetrics) : GatewayMetrics :=
  { metrics with expired := saturatingAdd metrics.expired (UInt64.ofNat expired) }

/-- A link failed. -/
def addLinkError (metrics : GatewayMetrics) : GatewayMetrics :=
  { metrics with linkErrors := saturatingAdd metrics.linkErrors 1 }

end GatewayMetrics

/-- The gateway: its configuration, router, store and counters, its clock, and what it delivered
last. -/
structure GatewayCore (maxLinks maxSeen storeCapacity : ℕ) where
  config : GatewayConfig maxLinks
  router : Router maxLinks maxSeen
  store : Store storeCapacity gatewayFrameBufferLen
  metrics : GatewayMetrics
  lastNowMs : TimestampMs
  lastDeliveredMessageId : Option MessageId
  lastDeliveredPayloadLen : ℕ

/-- Whoever sends frames for the gateway: it has a state of its own, and answers every send. -/
class GatewayLinkExecutor (E : Type) where
  sendLinkBytes : E → LinkId → List UInt8 → TimestampMs → Except GatewayError Unit × E

/-- What a call does, as the log records it. -/
inductive GatewayEvent where
  /-- The executor was asked to send, and answered. -/
  | sendLinkBytes (linkId : LinkId) (bytes : List UInt8) (nowMs : TimestampMs)
      (answer : Except GatewayError Unit)
  /-- A key entered the duplicate filter. -/
  | committed (key : RouterSeenKey)
  /-- A router command was executed. -/
  | executed (command : RouterCommand) (outcome : Except GatewayError Unit)
  /-- A flush iteration for the record under `messageId` executed these commands. -/
  | flushed (messageId : MessageId) (executions : List (RouterCommand × Except GatewayError Unit))
  deriving DecidableEq

section

variable (maxLinks maxSeen storeCapacity : ℕ)

/-- An event and the core right after it. -/
structure Moment where
  event : GatewayEvent
  core : GatewayCore maxLinks maxSeen storeCapacity

/-- A core with its executor, and the log of what happened. -/
structure World (E : Type) where
  core : GatewayCore maxLinks maxSeen storeCapacity
  executor : E
  log : List (Moment maxLinks maxSeen storeCapacity)

/-- A call of the gateway. -/
abbrev GatewayM (E α : Type) := EStateM GatewayError (World maxLinks maxSeen storeCapacity E) α

end

/-- The execution an event reports. -/
def GatewayEvent.execution? : GatewayEvent → Option (RouterCommand × Except GatewayError Unit)
  | executed command outcome => some (command, outcome)
  | _ => none

/-- The commands a stretch of the log executed, with their outcomes. -/
def executionsOf {maxLinks maxSeen storeCapacity : ℕ}
    (log : List (Moment maxLinks maxSeen storeCapacity)) :
    List (RouterCommand × Except GatewayError Unit) :=
  log.filterMap fun moment => moment.event.execution?

/-- `validate_runtime_capacity`. -/
def validateRuntimeCapacity (name : String) (configured maximum : ℕ) : Except GatewayError Unit :=
  if configured > maximum then .error (.runtimeCapacity name configured maximum) else .ok ()

/-- `dummy_command`, which fills the arrays of commands. -/
def dummyCommand : RouterCommand := .drop ⟨fillBytes 32 0⟩ .duplicate

/-- The slice the router writes into. -/
def commandBuffer : List RouterCommand := List.replicate routerCommandCapacity dummyCommand

namespace GatewayCore

variable {maxLinks maxSeen storeCapacity : ℕ}

/-- `new`: the configured numbers have to fit the capacities. -/
def new (config : GatewayConfig maxLinks) :
    Except GatewayError (GatewayCore maxLinks maxSeen storeCapacity) := do
  config.validate.mapError .config
  validateRuntimeCapacity "router links" config.router.maxLinks maxLinks
  validateRuntimeCapacity "router dedupe" config.router.maxSeenMessages maxSeen
  validateRuntimeCapacity "store" config.store.capacity storeCapacity
  return {
    config
    router := Router.new config.routerPolicy
    store := Store.new config.storePolicy
    metrics := {}
    lastNowMs := 0
    lastDeliveredMessageId := none
    lastDeliveredPayloadLen := 0 }

/-- `stored_len`. -/
def storedLen (core : GatewayCore maxLinks maxSeen storeCapacity) : ℕ := core.store.len

variable {E : Type}

/-- Append to the log. -/
def record (event : GatewayEvent) : GatewayM maxLinks maxSeen storeCapacity E Unit :=
  modify fun world => { world with log := world.log ++ [⟨event, world.core⟩] }

/-- A change of the core. -/
def modifyCore (f : GatewayCore maxLinks maxSeen storeCapacity →
    GatewayCore maxLinks maxSeen storeCapacity) : GatewayM maxLinks maxSeen storeCapacity E Unit :=
  modify fun world => { world with core := f world.core }

/-- The `?` operator: go on with the value, or fail with the converted error. -/
def propagate {ε α : Type} (convert : ε → GatewayError) :
    Except ε α → GatewayM maxLinks maxSeen storeCapacity E α
  | .ok a => return a
  | .error error => throw (convert error)

/-- A change of the counters. -/
def modifyMetrics (f : GatewayMetrics → GatewayMetrics) :
    GatewayM maxLinks maxSeen storeCapacity E Unit :=
  modifyCore fun core => { core with metrics := f core.metrics }

/-! ## Executing commands -/

/-- The router's `commit_seen`, logged when the key is new. -/
def commitSeen (envelope : HyfEnvelopeRef) : GatewayM maxLinks maxSeen storeCapacity E Unit := do
  let key := seenKeyFor envelope
  let seen := (← get).core.router.hasSeen key
  modifyCore fun core => { core with router := core.router.commitSeen envelope }
  unless seen do record (.committed key)

section

variable [GatewayLinkExecutor E]

/-- The executor is asked to send, and its answer is logged. -/
def callExecutor (linkId : LinkId) (bytes : List UInt8) (nowMs : TimestampMs) :
    GatewayM maxLinks maxSeen storeCapacity E (Except GatewayError Unit) := do
  let (answer, executor) :=
    GatewayLinkExecutor.sendLinkBytes (← get).executor linkId bytes nowMs
  modify fun world => { world with executor }
  record (.sendLinkBytes linkId bytes nowMs answer)
  return answer

/-- `send_envelope`: a failure is counted and returned. -/
def sendEnvelope (linkId : LinkId) (envelope : HyfEnvelopeRef) :
    GatewayM maxLinks maxSeen storeCapacity E Unit := do
  let (len, frame) ←
    propagate .wire (encodeEnvelope envelope (List.replicate gatewayFrameBufferLen 0))
  match ← callExecutor linkId (frame.take len) envelope.createdAtMs with
  | .error error =>
    modifyMetrics .addLinkError
    throw error
  | .ok () => modifyMetrics (.addSent len)

/-- `execute_command`. -/
def executeCommand (command : RouterCommand) : GatewayM maxLinks maxSeen storeCapacity E Unit := do
  match command with
  | .send linkId envelope =>
    sendEnvelope linkId envelope
    commitSeen envelope
  | .store (.put envelope) =>
    if (← get).core.config.policy.allowStoreAndForward then
      let store ← propagate .store ((← get).core.store.putEnvelope envelope)
      modifyCore fun core => { core with store }
      modifyMetrics .addStored
      commitSeen envelope
    else modifyMetrics .addDropped
  | .store (.remove messageId) =>
    let store ← propagate .store ((← get).core.store.remove messageId)
    modifyCore fun core => { core with store }
  | .store (.expireBefore now) =>
    let (expired, store) := (← get).core.store.expireBefore now
    modifyCore fun core => { core with store }
    modifyMetrics (.addExpired expired)
  | .drop _ _ | .dropFrame _ _ => modifyMetrics .addDropped
  | .deliverLocal envelope =>
    modifyCore fun core => { core with
      lastDeliveredMessageId := some envelope.messageId
      lastDeliveredPayloadLen := envelope.payload.length }
    modifyMetrics .addDelivered
    commitSeen envelope

end

end GatewayCore

/-- The counters `execute_commands_record` keeps. -/
structure CommandExecution where
  successes : ℕ := 0
  plannedSends : ℕ := 0
  successfulSends : ℕ := 0
  firstError : Option GatewayError := none
  firstNonrecoverableError : Option GatewayError := none

/-- The body of the loop of `execute_commands_record`, after the command was executed. -/
def CommandExecution.add (result : CommandExecution) (command : RouterCommand)
    (outcome : Except GatewayError Unit) : CommandExecution :=
  let result := if command.isSend then { result with plannedSends := result.plannedSends + 1 }
    else result
  match outcome with
  | .ok () =>
    let result := { result with successes := result.successes + 1 }
    if command.isSend then { result with successfulSends := result.successfulSends + 1 } else result
  | .error error =>
    let result := if result.firstError.isNone then { result with firstError := some error }
      else result
    if !error.isRecoverableSendFailure && result.firstNonrecoverableError.isNone then
      { result with firstNonrecoverableError := some error }
    else result

namespace GatewayCore

variable {maxLinks maxSeen storeCapacity : ℕ} {E : Type} [GatewayLinkExecutor E]

/-- The loop over the commands: each is executed, whatever became of those before it. -/
def executeCommandsRecord : List RouterCommand → CommandExecution →
    GatewayM maxLinks maxSeen storeCapacity E CommandExecution
  | [], result => return result
  | command :: rest, result => do
    let outcome ← observing (executeCommand command)
    record (.executed command outcome)
    executeCommandsRecord rest (result.add command outcome)

/-- `execute_commands`. -/
def executeCommands (commands : List RouterCommand) :
    GatewayM maxLinks maxSeen storeCapacity E Unit := do
  let result ← executeCommandsRecord commands {}
  if result.successes > 0 || commands.isEmpty then
    return ()
  match result.firstError with
  | some error => throw error
  | none => return ()

/-- The commands of a stored message: whether it has left as it should and may be removed. -/
def executeCommandsForFlush (commands : List RouterCommand) :
    GatewayM maxLinks maxSeen storeCapacity E Bool := do
  let result ← executeCommandsRecord commands {}
  if let some error := result.firstNonrecoverableError then
    throw error
  if result.plannedSends > 0 then
    return result.successfulSends == result.plannedSends
  if result.successes > 0 || commands.isEmpty then
    return true
  match result.firstError with
  | some error => if error.isRecoverableSendFailure then return false else throw error
  | none => return true

/-- `route_event`. -/
def routeEvent (event : RouterEvent) : GatewayM maxLinks maxSeen storeCapacity E Unit := do
  let (emission, router) := (← get).core.router.handleEvent event commandBuffer
  modifyCore fun core => { core with router }
  let count ← propagate .router emission.result
  executeCommands (emission.out.take count)

/-- `observe_time`: the clock goes forward, and the router learns it. -/
def observeTime (now : TimestampMs) : GatewayM maxLinks maxSeen storeCapacity E Unit := do
  if now ≤ (← get).core.lastNowMs then
    return ()
  modifyCore fun core => { core with lastNowMs := now }
  routeEvent (.tick now)

/-! ## Flushing the store -/

/-- One turn of the loop of `flush_store`; the result says whether the loop goes on. The stored
bytes are copied into a frame buffer of `gatewayFrameBufferLen` bytes first, which a record always
fits. -/
def flushIteration : GatewayM maxLinks maxSeen storeCapacity E Bool := do
  let world ← get
  match world.core.store.firstPending with
  | none => return false
  | some stored =>
    let envelope ← propagate .wire (decodeEnvelope stored.bytes)
    let emission := world.core.router.forwardStored envelope commandBuffer
    let count ← propagate .router emission.result
    if count = 0 then
      return false
    let flushed ← observing (executeCommandsForFlush (emission.out.take count))
    record (.flushed stored.messageId (executionsOf ((← get).log.drop world.log.length)))
    if !(← propagate id flushed) then
      return false
    let store ← propagate .store ((← get).core.store.remove stored.messageId)
    modifyCore fun core => { core with store }
    return true

/-- The loop of `flush_store`, at most `fuel` turns of it. -/
def flushLoop : ℕ → GatewayM maxLinks maxSeen storeCapacity E Unit
  | 0 => return ()
  | fuel + 1 => do
    if ← flushIteration then
      flushLoop fuel

/-- Every turn that goes on has removed a record, so the loop ends within this many turns
(`run_flushLoop`). -/
def flushStore : GatewayM maxLinks maxSeen storeCapacity E Unit := do
  let core := (← get).core
  let (expired, store) := core.store.expireBefore core.lastNowMs
  modifyCore fun core => { core with store }
  modifyMetrics (.addExpired expired)
  flushLoop (store.len + 1)

/-! ## The operations -/

/-- `submit`. -/
def submit (envelope : HyfEnvelopeRef) : GatewayM maxLinks maxSeen storeCapacity E Unit := do
  modifyMetrics .addSubmitted
  routeEvent (.localSubmit envelope)
  flushStore

/-- `ingest_link_frame`. -/
def ingestLinkFrame (frame : LinkFrameRef) : GatewayM maxLinks maxSeen storeCapacity E Unit := do
  modifyMetrics .addReceived
  observeTime frame.receivedAtMs
  routeEvent (.link (.frame frame))
  flushStore

/-- `tick`. -/
def tick (now : TimestampMs) : GatewayM maxLinks maxSeen storeCapacity E Unit := do
  observeTime now
  flushStore

/-- `handle_link_event`: the store is flushed when a link has come up. -/
def handleLinkEvent (event : LinkEvent) : GatewayM maxLinks maxSeen storeCapacity E Unit := do
  let flushAfterRecovery := match event with
    | .up _ => true
    | _ => false
  routeEvent (.link event)
  if flushAfterRecovery then
    flushStore

end GatewayCore

end Hyf
