import Hyf.Gateway.Core
import Hyf.Nostr.FakeRelay

/-!
# The Nostr executor of the gateway (`hyf_gateway`)

The executor sends the frames of the gateway as signed events to a relay, and turns the outputs of the
relay into frames for the gateway or reports on the link. An output that was handed over is consumed;
one that did not fit the buffer of the caller stays.

The buffer that a frame is decoded into is an argument; the frame holds the part of it that was
filled. A bounded text of the gateway is the same structure as one of the relay.
-/

namespace Hyf

open ByteCodec Nostr

structure NostrGatewayExecutor (R : Type) where
  linkId : LinkId
  mtu : ℕ
  up : Bool
  authorSecret : NostrSecretKey
  recipientPubkey : NostrPublicKey
  relay : R

abbrev NostrGatewayControlText := StoredString hyfNostrMaxRelayStatusChars
abbrev NostrGatewaySubscriptionId := StoredString nostrSubscriptionIdMaxLen

structure NostrGatewayRelayStatus where
  statusPrefix : NostrRelayStatusPrefix
  rawPrefix : NostrGatewayControlText
  detail : NostrGatewayControlText
  deriving DecidableEq

inductive NostrGatewayRelayOutput where
  | frame (frame : LinkFrameRef)
  | ok (eventId : NostrEventId) (accepted : Bool) (status : NostrGatewayRelayStatus)
  | eose (subscriptionId : NostrGatewaySubscriptionId)
  | closed (subscriptionId : NostrGatewaySubscriptionId) (status : NostrGatewayRelayStatus)
  | notice (message : NostrGatewayControlText)
  | auth (challenge : NostrGatewayControlText)
  deriving DecidableEq

def NostrGatewayRelayStatus.fromStatus (status : NostrRelayStatus) :
    Outcome NostrError NostrGatewayRelayStatus := do
  let rawPrefix ← StoredString.fromStr hyfNostrMaxRelayStatusChars status.rawPrefix
  let detail ← StoredString.fromStr hyfNostrMaxRelayStatusChars status.detail
  return ⟨status.statusPrefix, rawPrefix, detail⟩

/-! ## Errors -/

def mapNostrSendError (linkId : LinkId) (error : NostrError) : GatewayError :=
  match error with
  | .relayEventStoreFull _ | .relayOutputFull _ => .driver linkId .backpressure
  | .contentTooLarge _ _ | .envelopeTooLarge _ _ | .outputTooSmall _ _ => .driver linkId .frameTooLarge
  | _ => .driver linkId .protocol

def mapNostrReceiveError (linkId : LinkId) (error : NostrError) : GatewayError :=
  match error with
  | .outputTooSmall _ _ => .driver linkId .outputTooSmall
  | _ => .driver linkId .protocol

def mapRelayRejection (linkId : LinkId) (status : NostrRelayStatus) : GatewayError :=
  match status.statusPrefix with
  | .rateLimited | .pow => .driver linkId .backpressure
  | .authRequired => .driver linkId .linkDown
  | _ => .driver linkId .protocol

def isOutputTooSmall : GatewayError → Bool
  | .driver _ .outputTooSmall => true
  | _ => false

/-- `a.checked_mul(b)` on `u64`. -/
def checkedMulU64 (a b : UInt64) : Option UInt64 :=
  if a.toNat * b.toNat < 2 ^ 64 then some (a * b) else none

namespace NostrGatewayExecutor

section

variable (sha256 : List UInt8 → ByteArrayN 32) (schnorr : Schnorr)

/-- The frame that an event carries. -/
def decodeRelayEvent (linkId : LinkId) (event : NostrEvent) (output : List UInt8) :
    Outcome GatewayError LinkFrameRef := do
  match checkedMulU64 event.createdAt 1000 with
  | none => fail (.driver linkId .protocol)
  | some receivedAtMs =>
    let (_, output) ← (verifyAndDecodeHyfNostrEvent sha256 schnorr event output).convert
      (mapNostrReceiveError linkId)
    let bytes ← slice output 0 ((asBytes event.content).length / 2)
    return ⟨linkId, receivedAtMs, bytes⟩

variable {eventCapacity subscriptionCapacity outputCapacity : ℕ}

/-- A call of the executor. -/
abbrev NostrGatewayM (eventCapacity subscriptionCapacity outputCapacity : ℕ) :=
  EStateM (Fault GatewayError)
    (NostrGatewayExecutor (FakeNostrRelay eventCapacity subscriptionCapacity outputCapacity))

/-- A call of the relay, whose error is converted. -/
def onRelay {α : Type} (convert : NostrError → GatewayError)
    (call : FakeNostrRelay.RelayM eventCapacity subscriptionCapacity outputCapacity α) :
    NostrGatewayM eventCapacity subscriptionCapacity outputCapacity α := fun executor =>
  match call executor.relay with
  | .ok a relay => .ok a { executor with relay }
  | .error fault relay => .error (fault.map convert) { executor with relay }

/-- `self.relay.consume_output()`, whose result is dropped. -/
def consumeRelayOutput : NostrGatewayM eventCapacity subscriptionCapacity outputCapacity Unit := do
  let executor ← get
  let _ ← onRelay (mapNostrReceiveError executor.linkId) FakeNostrRelay.consumeOutput

/-! ## Receiving -/

def nextControlOutput
    (executor : NostrGatewayExecutor
      (FakeNostrRelay eventCapacity subscriptionCapacity outputCapacity)) :
    Outcome GatewayError NostrGatewayRelayOutput :=
  match executor.relay.nextControlOutput with
  | none => fail (.driver executor.linkId .protocol)
  | some output => Outcome.convert (mapNostrReceiveError executor.linkId) do
    match output with
    | .ok eventId accepted status =>
      return .ok eventId accepted (← NostrGatewayRelayStatus.fromStatus status)
    | .eose subscriptionId =>
      return .eose (← StoredString.fromStr nostrSubscriptionIdMaxLen subscriptionId)
    | .closed subscriptionId status =>
      return .closed (← StoredString.fromStr nostrSubscriptionIdMaxLen subscriptionId)
        (← NostrGatewayRelayStatus.fromStatus status)
    | .notice message => return .notice (← StoredString.fromStr hyfNostrMaxRelayStatusChars message)
    | .auth challenge => return .auth (← StoredString.fromStr hyfNostrMaxRelayStatusChars challenge)

/-- The callback of `poll_relay_output` for an event. -/
def decodeOutput (linkId : LinkId) (output : List UInt8) :
    FakeNostrRelayOutput → Outcome GatewayError LinkFrameRef
  | .event _ event => decodeRelayEvent sha256 schnorr linkId event output
  | _ => fail (.driver linkId .protocol)

def isEventOutput : FakeNostrRelayOutput → Bool
  | .event _ _ => true
  | _ => false

/-- `poll_relay_output` for an output that carries an event. -/
def pollEvent (output : List UInt8) :
    NostrGatewayM eventCapacity subscriptionCapacity outputCapacity
      (Option NostrGatewayRelayOutput) := do
  let executor ← get
  let decoded ← ((executor.relay.withNextOutput
    (decodeOutput sha256 schnorr executor.linkId output)).convert
      (mapNostrReceiveError executor.linkId)).lift
  match decoded with
  | none => throw (.error (.driver executor.linkId .protocol))
  | some (.ok frame) => do
    consumeRelayOutput
    return some (.frame frame)
  | some (.error (.error error)) =>
    if isOutputTooSmall error then throw (.error error)
    else do
      consumeRelayOutput
      throw (.error error)
  | some (.error .panic) => throw .panic

def pollRelayOutput (output : List UInt8) :
    NostrGatewayM eventCapacity subscriptionCapacity outputCapacity
      (Option NostrGatewayRelayOutput) := do
  let executor ← get
  (rejectIf (executor.up = false) (GatewayError.driver executor.linkId .linkDown)).lift
  let next ← ((executor.relay.withNextOutput isEventOutput).convert
    (mapNostrReceiveError executor.linkId)).lift
  match next with
  | none => return none
  | some true => pollEvent sha256 schnorr output
  | some false => do
    let control ← executor.nextControlOutput.lift
    consumeRelayOutput
    return some control

/-! ## Sending -/

/-- The callback of `send_link_bytes`, which publishes the event. -/
def publishEvent (linkId : LinkId) (event : NostrEvent) :
    NostrGatewayM eventCapacity subscriptionCapacity outputCapacity Unit := do
  match ← onRelay (mapNostrSendError linkId) (FakeNostrRelay.publish sha256 schnorr event
    (List.replicate gatewayFrameBufferLen 0)) with
  | .accepted _ => return ()
  | .acceptedDuplicate _ => return ()
  | .rejected status => throw (.error (mapRelayRejection linkId status))

def sendLinkBytes (linkId : LinkId) (bytes : List UInt8) (nowMs : TimestampMs) :
    NostrGatewayM eventCapacity subscriptionCapacity outputCapacity Unit := do
  let executor ← get
  (rejectIf (linkId ≠ executor.linkId) (GatewayError.unsupportedLink linkId)).lift
  (rejectIf (executor.up = false) (GatewayError.driver linkId .linkDown)).lift
  (rejectIf (bytes.length > executor.mtu) (GatewayError.driver linkId .frameTooLarge)).lift
  let event ← ((withSignedHyfNostrEvent sha256 schnorr bytes executor.authorSecret
    executor.recipientPubkey (nowMs / 1000) .new id).convert (mapNostrSendError linkId)).lift
  publishEvent sha256 schnorr linkId event

end

end NostrGatewayExecutor

end Hyf
