import Hyf.Gateway.Runs
import Hyf.Loopback.Fifo
import Hyf.Common.EndsWith

/-!
# The gateway runtime (`hyf_gateway`)

A runtime is a gateway core together with the loopback driver that it sends to. The frames that the
core sends wait in the loopback queues until they are received there, or polled back into the core.

A call is a computation on a `RuntimeWorld`: the world of the core, whose executor is the loopback
pair, and the frames that were received from the pair so far. Like the log of the core these are not
in the source, and nothing reads them.
-/

namespace Hyf

open ByteCodec BufferM Loopback

/-- `map_loopback_error`. -/
def mapLoopbackError : LoopbackError → GatewayError
  | .linkMismatch _ actual => .unsupportedLink actual
  | error => .loopback error

namespace Loopback

variable {N : ℕ} {side : LoopbackSide} {bytes : List UInt8} {nowMs : TimestampMs}

/-! ## Sending does not panic -/

/-- `enqueue` does not panic on frames that fit a cell. -/
theorem LoopbackEndpoint.enqueue_ends (peer : LoopbackEndpoint N)
    (h : bytes.length ≤ loopbackMaxFrameLen) :
    EndsWith (LoopbackEndpoint.enqueue bytes nowMs) peer (fun _ _ => True) fun _ _ => True := by
  unfold LoopbackEndpoint.enqueue
  apply EndsWith.get_bind
  cases hfree : peer.queue.firstFree with
  | none => exact .throw trivial
  | some index =>
    obtain ⟨written, stored, hwritten, hstored, -⟩ := @exists_stored LoopbackError _ _ h
    simp only [Outcome.lift_bind hwritten, Outcome.lift_bind hstored]
    exact .of_ok rfl trivial

/-- `validate_up` does not panic, and lets pass what fits a cell. -/
theorem LoopbackEndpoint.validateUp_ends (endpoint : LoopbackEndpoint N) (bytes : List UInt8) :
    Ends (endpoint.validateUp bytes) fun _ => bytes.length ≤ loopbackMaxFrameLen := by
  obtain ⟨⟨-, -, hlen⟩, hvalid⟩ | ⟨-, error, hvalid⟩ := endpoint.validateUp_cases bytes
  · rw [hvalid]
    exact hlen
  · rw [hvalid]
    trivial

/-- `send_bytes_to` of an endpoint does not panic. -/
theorem LoopbackEndpoint.sendBytesTo_ends (endpoint peer : LoopbackEndpoint N)
    (bytes : List UInt8) (nowMs : TimestampMs) :
    EndsWith (endpoint.sendBytesTo bytes nowMs) peer (fun _ _ => True) fun _ _ => True := by
  unfold LoopbackEndpoint.sendBytesTo LoopbackEndpoint.validateSend LoopbackEndpoint.validateReceive
  refine .lift_bind (endpoint.validateUp_ends bytes) (fun _ => trivial) fun _ hlen => ?_
  apply EndsWith.get_bind
  exact .lift_bind (peer.validateUp_ends bytes) (fun _ => trivial) fun _ _ =>
    peer.enqueue_ends hlen

/-- `send_bytes_to` of the pair does not panic. -/
theorem LoopbackPair.sendBytesTo_ends (pair : LoopbackPair N) :
    EndsWith (LoopbackPair.sendBytesTo side bytes nowMs) pair (fun _ _ => True) fun _ _ => True := by
  have hends := LoopbackEndpoint.sendBytesTo_ends (pair.endpoint side) (pair.endpoint side.peer)
    bytes nowMs
  apply EndsWith.get_bind
  unfold EndsWith LoopbackPair.onEndpoint at *
  cases hrun : (pair.endpoint side).sendBytesTo bytes nowMs (pair.endpoint side.peer) with
  | ok value peer => trivial
  | error fault peer =>
    rw [hrun] at hends
    cases fault with
    | error error => trivial
    | panic => exact hends

/-- `send_link_bytes` of a driver does not panic. -/
theorem LoopbackDriver.sendLinkBytes_ends (linkId : LinkId) (pair : LoopbackPair N) :
    EndsWith (LoopbackDriver.sendLinkBytes side linkId bytes nowMs) pair (fun _ _ => True)
      fun _ _ => True := by
  unfold LoopbackDriver.sendLinkBytes
  split_ifs
  · exact pair.sendBytesTo_ends
  · exact pair.sendBytesTo_ends
  · exact .throw trivial

end Loopback

/-- The driver of a runtime is the left side of its pair. -/
instance {N : ℕ} : GatewayLinkExecutor (LoopbackPair N) where
  sendLinkBytes pair linkId bytes nowMs :=
    match hrun : LoopbackDriver.sendLinkBytes .left linkId bytes nowMs pair with
    | .ok () pair => (.ok (), pair)
    | .error (.error error) pair => (.error (mapLoopbackError error), pair)
    | .error .panic pair' =>
      absurd hrun ((LoopbackDriver.sendLinkBytes_ends linkId pair).ne_panic pair')

/-- A core with the loopback pair that it sends to, and the frames received from the pair. -/
structure RuntimeWorld (maxLinks maxSeen storeCapacity loopbackQueue : ℕ) where
  gateway : World maxLinks maxSeen storeCapacity (LoopbackPair loopbackQueue)
  received : List LinkFrameRef

/-- The world with another loopback pair. -/
def RuntimeWorld.withPair {maxLinks maxSeen storeCapacity loopbackQueue : ℕ}
    (world : RuntimeWorld maxLinks maxSeen storeCapacity loopbackQueue)
    (pair : LoopbackPair loopbackQueue) :
    RuntimeWorld maxLinks maxSeen storeCapacity loopbackQueue :=
  { world with gateway := { world.gateway with executor := pair } }

/-- Putting the pair back changes nothing. -/
@[simp] theorem RuntimeWorld.withPair_self {maxLinks maxSeen storeCapacity loopbackQueue : ℕ}
    (world : RuntimeWorld maxLinks maxSeen storeCapacity loopbackQueue) :
    world.withPair world.gateway.executor = world := rfl

/-- The pair is no part of what was received. -/
@[simp] theorem RuntimeWorld.withPair_received {maxLinks maxSeen storeCapacity loopbackQueue : ℕ}
    (world : RuntimeWorld maxLinks maxSeen storeCapacity loopbackQueue)
    (pair : LoopbackPair loopbackQueue) : (world.withPair pair).received = world.received := rfl

abbrev RuntimeM (maxLinks maxSeen storeCapacity loopbackQueue : ℕ) :=
  EStateM (Fault GatewayError) (RuntimeWorld maxLinks maxSeen storeCapacity loopbackQueue)

/-! ## Construction -/

/-- The loop of `validate_supported_links`. -/
def validateLinks : List LinkConfig → Except GatewayError Unit
  | [] => .ok ()
  | link :: rest =>
    if link.enabled ∧ link.linkId ≠ loopbackLeftId ∧ link.linkId ≠ loopbackRightId then
      .error (.unsupportedLink link.linkId)
    else validateLinks rest

/-- `validate_supported_links`. -/
def validateSupportedLinks {maxLinks : ℕ} (config : GatewayConfig maxLinks) :
    Except GatewayError Unit := validateLinks config.links.live

/-- `first_link_mtu`. -/
def firstLinkMtu {maxLinks : ℕ} (config : GatewayConfig maxLinks) : ℕ :=
  ((config.links.live.find? LinkConfig.enabled).map LinkConfig.mtu).getD loopbackMaxFrameLen

namespace GatewayRuntime

variable {maxLinks maxSeen storeCapacity loopbackQueue : ℕ} {α : Type}

/-- A call of the core. -/
def onCore (call : GatewayM maxLinks maxSeen storeCapacity (LoopbackPair loopbackQueue) α) :
    RuntimeM maxLinks maxSeen storeCapacity loopbackQueue α := fun world =>
  match call world.gateway with
  | .ok a gateway => .ok a { world with gateway }
  | .error error gateway => .error (.error error) { world with gateway }

/-- A call of the driver, whose error is converted. -/
def onLoopback (call : LoopbackDriverM loopbackQueue α) :
    RuntimeM maxLinks maxSeen storeCapacity loopbackQueue α := fun world =>
  match call world.gateway.executor with
  | .ok a pair => .ok a (world.withPair pair)
  | .error fault pair => .error (fault.map mapLoopbackError) (world.withPair pair)

/-- `set_link_up`: the end of the pair first, and then its event. -/
def setLinkUp (linkId : LinkId) (up : Bool) :
    RuntimeM maxLinks maxSeen storeCapacity loopbackQueue Unit := do
  let event ← onLoopback (LoopbackDriver.setLinkUp linkId up)
  onCore (GatewayCore.handleLinkEvent event)

/-- The loop of `activate_configured_links`. -/
def activateLinks : List LinkConfig → RuntimeM maxLinks maxSeen storeCapacity loopbackQueue Unit
  | [] => return ()
  | link :: rest => do
    if link.enabled then
      setLinkUp link.linkId true
    activateLinks rest

/-- `activate_configured_links`. -/
def activateConfiguredLinks : RuntimeM maxLinks maxSeen storeCapacity loopbackQueue Unit := do
  let config := (← get).gateway.core.config
  activateLinks config.links.live

/-- The runtime that `new` returns. -/
def new (config : GatewayConfig maxLinks) :
    Outcome GatewayError (RuntimeWorld maxLinks maxSeen storeCapacity loopbackQueue) := do
  ofResult id (validateSupportedLinks config)
  let core ← ofResult id (GatewayCore.new config)
  match activateConfiguredLinks ⟨⟨core, LoopbackPair.new (firstLinkMtu config), []⟩, []⟩ with
  | .ok () world => return world
  | .error fault _ => .error fault

/-! ## The operations -/

/-- `loopback_queued_len`. -/
def loopbackQueuedLen (linkId : LinkId) :
    RuntimeM maxLinks maxSeen storeCapacity loopbackQueue ℕ :=
  onLoopback (LoopbackDriver.queuedLen linkId)

/-- The frame borrows the output slice, which the model does not hand back. -/
def receiveLoopbackFrame (linkId : LinkId) (output : List UInt8) :
    RuntimeM maxLinks maxSeen storeCapacity loopbackQueue (Option LinkFrameRef) := fun world =>
  match LoopbackDriver.receiveLinkFrame linkId (world.gateway.executor, output) with
  | .ok frame (pair, _) =>
    .ok frame { world.withPair pair with received := world.received ++ frame.toList }
  | .error fault (pair, _) => .error (fault.map mapLoopbackError) (world.withPair pair)

/-- `ingest_link_frame`. -/
def ingestLinkFrame (frame : LinkFrameRef) :
    RuntimeM maxLinks maxSeen storeCapacity loopbackQueue Unit :=
  onCore (GatewayCore.ingestLinkFrame frame)

/-- `poll_loopback`: a frame that is there is ingested. -/
def pollLoopback (linkId : LinkId) (output : List UInt8) :
    RuntimeM maxLinks maxSeen storeCapacity loopbackQueue Bool := do
  match ← receiveLoopbackFrame linkId output with
  | none => return false
  | some frame =>
    ingestLinkFrame frame
    return true

/-- `submit`. -/
def submit (envelope : HyfEnvelopeRef) :
    RuntimeM maxLinks maxSeen storeCapacity loopbackQueue Unit :=
  onCore (GatewayCore.submit envelope)

/-- `tick`. -/
def tick (now : TimestampMs) : RuntimeM maxLinks maxSeen storeCapacity loopbackQueue Unit :=
  onCore (GatewayCore.tick now)

end GatewayRuntime

end Hyf
