import Hyf.Fips.Sidecar
import Hyf.Gateway.Core

/-!
# The gateway executor of a FIPS link (`hyf_gateway`)

One link of the gateway over a sidecar: it sends to one remote endpoint, and hands on a datagram only if
that endpoint sent it to this one. A datagram is taken from the sidecar before its endpoints are looked
at.
-/

namespace Hyf.Fips

open ByteCodec BufferM

def mapFipsSendError (linkId : LinkId) (error : FipsError) : GatewayError :=
  .driver linkId <| match error with
    | .linkDown => .linkDown
    | .outboundFull _ | .inboundFull _ => .backpressure
    | .frameTooLarge _ _ => .frameTooLarge
    | .outputTooSmall _ _ => .outputTooSmall
    | .unknownPeer | .duplicatePeer | .peerTableFull _ | .invalidEndpoint
    | .controlResponseTooLarge _ _ | .malformedControlStatus | .utf8 => .protocol

def mapFipsReceiveError (linkId : LinkId) (error : FipsError) : GatewayError :=
  .driver linkId <| match error with
    | .linkDown => .linkDown
    | .outboundFull _ | .inboundFull _ => .backpressure
    | .outputTooSmall _ _ => .outputTooSmall
    | .frameTooLarge _ _ | .unknownPeer | .duplicatePeer | .peerTableFull _ | .invalidEndpoint
    | .controlResponseTooLarge _ _ | .malformedControlStatus | .utf8 => .protocol

structure FipsGatewayExecutor (peerMax queueMax frameMax : ℕ) where
  linkId : LinkId
  localEndpoint : FipsEndpoint
  remoteEndpoint : FipsEndpoint
  sidecar : FakeFipsSidecar peerMax queueMax frameMax
  mtu : ℕ
  up : Bool

namespace FipsGatewayExecutor

variable {peerMax queueMax frameMax : ℕ}

def validate (sha256 : List UInt8 → ByteArrayN 32)
    (executor : FipsGatewayExecutor peerMax queueMax frameMax) : Outcome GatewayError Unit := do
  (executor.localEndpoint.validate sha256).convert (mapFipsSendError executor.linkId)
  (executor.remoteEndpoint.validate sha256).convert (mapFipsSendError executor.linkId)
  rejectIf (executor.mtu = 0 ∨ executor.sidecar.localEndpoint ≠ executor.localEndpoint ∨
    executor.mtu > executor.sidecar.mtu ∨ executor.sidecar.hasPeer executor.remoteEndpoint = false)
    (.driver executor.linkId .protocol)

def new (sha256 : List UInt8 → ByteArrayN 32) (linkId : LinkId)
    (localEndpoint remoteEndpoint : FipsEndpoint)
    (sidecar : FakeFipsSidecar peerMax queueMax frameMax) (mtu : ℕ) :
    Outcome GatewayError (FipsGatewayExecutor peerMax queueMax frameMax) := do
  let executor : FipsGatewayExecutor peerMax queueMax frameMax :=
    ⟨linkId, localEndpoint, remoteEndpoint, sidecar, mtu, false⟩
  executor.validate sha256
  return executor

def setUp (up : Bool) :
    EStateM (Fault GatewayError) (FipsGatewayExecutor peerMax queueMax frameMax) Unit :=
  modify fun executor => { executor with up, sidecar := { executor.sidecar with up } }

/-- `self.sidecar.poll_inbound(output).map_err(..)`; the state is the executor and the output slice. -/
def pollInbound : EStateM (Fault GatewayError)
    (FipsGatewayExecutor peerMax queueMax frameMax × List UInt8) (Option FipsDatagramRef) :=
  fun (executor, output) =>
    match FakeFipsSidecar.pollInbound (executor.sidecar, output) with
    | .ok datagram (sidecar, output) => .ok datagram ({ executor with sidecar }, output)
    | .error fault (sidecar, output) =>
      .error (fault.map (mapFipsReceiveError executor.linkId)) ({ executor with sidecar }, output)

def pollSidecarFrame (nowMs : TimestampMs) : EStateM (Fault GatewayError)
    (FipsGatewayExecutor peerMax queueMax frameMax × List UInt8) (Option LinkFrameRef) := do
  let (executor, _) ← get
  (rejectIf (executor.up = false) (GatewayError.driver executor.linkId .linkDown)).lift
  match ← pollInbound with
  | none => return none
  | some datagram => do
    (rejectIf (datagram.source ≠ executor.remoteEndpoint ∨
      datagram.destination ≠ executor.localEndpoint)
      (GatewayError.driver executor.linkId .protocol)).lift
    return some ⟨executor.linkId, nowMs, datagram.bytes⟩

/-- `self.sidecar.send_to(..).map_err(..)`. -/
def sendTo (sha256 : List UInt8 → ByteArrayN 32) (destination : FipsEndpoint) (bytes : List UInt8) :
    EStateM (Fault GatewayError) (FipsGatewayExecutor peerMax queueMax frameMax) Unit := fun executor =>
  match FakeFipsSidecar.sendTo sha256 destination bytes executor.sidecar with
  | .ok () sidecar => .ok () { executor with sidecar }
  | .error fault sidecar =>
    .error (fault.map (mapFipsSendError executor.linkId)) { executor with sidecar }

def sendLinkBytes (sha256 : List UInt8 → ByteArrayN 32) (linkId : LinkId) (bytes : List UInt8) :
    EStateM (Fault GatewayError) (FipsGatewayExecutor peerMax queueMax frameMax) Unit := do
  let executor ← get
  (rejectIf (linkId ≠ executor.linkId) (GatewayError.unsupportedLink linkId)).lift
  (rejectIf (executor.up = false) (GatewayError.driver linkId .linkDown)).lift
  (rejectIf (bytes.length > executor.mtu) (GatewayError.driver linkId .frameTooLarge)).lift
  sendTo sha256 executor.remoteEndpoint bytes

end FipsGatewayExecutor

end Hyf.Fips
