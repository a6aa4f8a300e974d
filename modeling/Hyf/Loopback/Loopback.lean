import Hyf.Common.BufferM
import Hyf.Common.SlotQueue
import Hyf.Gateway.Core

/-!
# The loopback link (`hyf_link_loopback`)

Two endpoints, each with a queue of the frames that the other one sent to it. A frame is stored in an
array of the largest frame length, at the first empty place of the queue; receiving copies the first
frame out and shifts the rest. A driver is a pair of endpoints of which one is its own side.
-/

namespace Hyf.Loopback

open ByteCodec BufferM

def loopbackMaxFrameLen : ℕ := 2048

/-- `LOOPBACK_LEFT_ID`. -/
def loopbackLeftId : LinkId := ⟨⟨[0, 0, 0, 0, 0, 0, 0, 0, 0, 0, 0, 0, 0, 0, 0, 1], rfl⟩⟩

/-- `LOOPBACK_RIGHT_ID`. -/
def loopbackRightId : LinkId := ⟨⟨[0, 0, 0, 0, 0, 0, 0, 0, 0, 0, 0, 0, 0, 0, 0, 2], rfl⟩⟩

/-- What a link can be asked for. -/
inductive LinkCommand where
  | send (linkId : LinkId) (bytes : List UInt8)

/-- The two ends of the link. -/
inductive LoopbackSide where
  | left
  | right
  deriving DecidableEq

namespace LoopbackSide

/-- The link as it is named at this end. -/
def linkId : LoopbackSide → LinkId
  | left => loopbackLeftId
  | right => loopbackRightId

/-- The other side. -/
def peer : LoopbackSide → LoopbackSide
  | left => right
  | right => left

end LoopbackSide

/-- A frame in a queue; only the first `len` bytes of the array are its own. -/
structure QueuedFrame where
  bytes : ByteArrayN loopbackMaxFrameLen
  len : ℕ
  receivedAtMs : TimestampMs

/-- An end of the link, with the frames that wait there. -/
structure LoopbackEndpoint (N : ℕ) where
  linkId : LinkId
  mtu : ℕ
  up : Bool
  queue : SlotArray QueuedFrame N

namespace LoopbackEndpoint

variable {N : ℕ}

/-- `new`: an end that is up, with an empty queue. -/
def new (linkId : LinkId) (mtu : ℕ) : LoopbackEndpoint N where
  linkId
  mtu
  up := true
  queue := .empty QueuedFrame N

/-- `queued_len`. -/
def queuedLen (endpoint : LoopbackEndpoint N) : ℕ :=
  (endpoint.queue.toList.filter Option.isSome).length

/-- `set_up`. -/
def setUp (up : Bool) : EStateM (Fault LoopbackError) (LoopbackEndpoint N) LinkEvent := do
  modify fun endpoint => { endpoint with up }
  let endpoint ← get
  return if up then .up endpoint.linkId else .down endpoint.linkId

/-! ## Sending -/

/-- `validate_frame_len`. -/
def validateFrameLen (endpoint : LoopbackEndpoint N) (bytes : List UInt8) :
    Outcome LoopbackError Unit := do
  rejectIf (bytes.length > endpoint.mtu) (.frameTooLarge bytes.length endpoint.mtu)
  rejectIf (bytes.length > loopbackMaxFrameLen)
    (.internalFrameTooLarge bytes.length loopbackMaxFrameLen)

/-- `validate_send` and `validate_receive`, which are the same check. -/
def validateUp (endpoint : LoopbackEndpoint N) (bytes : List UInt8) : Outcome LoopbackError Unit := do
  rejectIf (endpoint.up = false) (.down endpoint.linkId)
  endpoint.validateFrameLen bytes

/-- `validate_send`. -/
def validateSend (endpoint : LoopbackEndpoint N) (bytes : List UInt8) :
    Outcome LoopbackError Unit := endpoint.validateUp bytes

/-- `validate_receive`. -/
def validateReceive (endpoint : LoopbackEndpoint N) (bytes : List UInt8) :
    Outcome LoopbackError Unit := endpoint.validateUp bytes

/-- `enqueue`: the first free cell. -/
def enqueue (bytes : List UInt8) (receivedAtMs : TimestampMs) :
    EStateM (Fault LoopbackError) (LoopbackEndpoint N) Unit := do
  let endpoint ← get
  match endpoint.queue.firstFree with
  | none => throw (.error (.queueFull endpoint.linkId N))
  | some index => do
    let (_, stored) ← (BufferM.runOn (copyInto 0 bytes.length bytes)
      (List.replicate loopbackMaxFrameLen 0)).lift
    let stored ← (toArray loopbackMaxFrameLen stored).lift
    set { endpoint with queue := endpoint.queue.write index (some ⟨stored, bytes.length, receivedAtMs⟩) }

/-- The state is the peer. -/
def sendBytesTo (endpoint : LoopbackEndpoint N) (bytes : List UInt8) (nowMs : TimestampMs) :
    EStateM (Fault LoopbackError) (LoopbackEndpoint N) Unit := do
  (endpoint.validateSend bytes).lift
  let peer ← get
  (peer.validateReceive bytes).lift
  enqueue bytes nowMs

/-- `send_command_to`. -/
def sendCommandTo (endpoint : LoopbackEndpoint N) (command : LinkCommand) (nowMs : TimestampMs) :
    EStateM (Fault LoopbackError) (LoopbackEndpoint N) Unit :=
  match command with
  | .send linkId bytes => do
    (rejectIf (linkId ≠ endpoint.linkId) (LoopbackError.linkMismatch endpoint.linkId linkId)).lift
    endpoint.sendBytesTo bytes nowMs

/-! ## Receiving -/

/-- The frames move forward by one cell. -/
def shiftQueue (queue : SlotArray QueuedFrame N) : SlotArray QueuedFrame N :=
  if N = 0 then queue else queue.shiftDown.write (N - 1) none

/-- The state is the endpoint and the output slice. -/
def receiveInto : EStateM (Fault LoopbackError) (LoopbackEndpoint N × List UInt8)
    (Option LinkFrameRef) := do
  let (endpoint, output) ← get
  match endpoint.queue.toList.head? with
  | none => throw .panic
  | some none => return none
  | some (some frame) => do
    (rejectIf (output.length < frame.len) (LoopbackError.outputTooSmall output.length frame.len)).lift
    let bytes ← (slice frame.bytes.toList 0 frame.len).lift
    let (_, output) ← (BufferM.runOn (copyInto 0 frame.len bytes) output).lift
    set ({ endpoint with queue := shiftQueue endpoint.queue }, output)
    let bytes ← (slice output 0 frame.len).lift
    return some ⟨endpoint.linkId, frame.receivedAtMs, bytes⟩

end LoopbackEndpoint

/-! ## Pairs -/

/-- Both ends. -/
structure LoopbackPair (N : ℕ) where
  left : LoopbackEndpoint N
  right : LoopbackEndpoint N

namespace LoopbackPair

variable {N : ℕ} {α : Type}

/-- `new`. -/
def new (mtu : ℕ) : LoopbackPair N where
  left := .new loopbackLeftId mtu
  right := .new loopbackRightId mtu

/-- The end on a side. -/
def endpoint (pair : LoopbackPair N) : LoopbackSide → LoopbackEndpoint N
  | .left => pair.left
  | .right => pair.right

/-- The pair with another endpoint on one side. -/
def setEndpoint (pair : LoopbackPair N) (endpoint : LoopbackEndpoint N) :
    LoopbackSide → LoopbackPair N
  | .left => { pair with left := endpoint }
  | .right => { pair with right := endpoint }

/-- A call whose state is the endpoint of one side. -/
def onEndpoint (side : LoopbackSide) (call : EStateM (Fault LoopbackError) (LoopbackEndpoint N) α) :
    EStateM (Fault LoopbackError) (LoopbackPair N) α := fun pair =>
  match call (pair.endpoint side) with
  | .ok a endpoint => .ok a (pair.setEndpoint endpoint side)
  | .error fault endpoint => .error fault (pair.setEndpoint endpoint side)

/-- `left.send_bytes_to(right, ..)`, or the other way round. -/
def sendBytesTo (side : LoopbackSide) (bytes : List UInt8) (nowMs : TimestampMs) :
    EStateM (Fault LoopbackError) (LoopbackPair N) Unit := do
  let pair ← get
  onEndpoint side.peer ((pair.endpoint side).sendBytesTo bytes nowMs)

/-- `send_command_to`. -/
def sendCommandTo (side : LoopbackSide) (command : LinkCommand) (nowMs : TimestampMs) :
    EStateM (Fault LoopbackError) (LoopbackPair N) Unit := do
  let pair ← get
  onEndpoint side.peer ((pair.endpoint side).sendCommandTo command nowMs)

/-- The state is the pair and the output slice. -/
def receiveInto (side : LoopbackSide) :
    EStateM (Fault LoopbackError) (LoopbackPair N × List UInt8) (Option LinkFrameRef) :=
  fun (pair, output) =>
    match LoopbackEndpoint.receiveInto (pair.endpoint side, output) with
    | .ok frame (endpoint, output) => .ok frame (pair.setEndpoint endpoint side, output)
    | .error fault (endpoint, output) => .error fault (pair.setEndpoint endpoint side, output)

/-- `set_up`. -/
def setUp (side : LoopbackSide) (up : Bool) :
    EStateM (Fault LoopbackError) (LoopbackPair N) LinkEvent :=
  onEndpoint side (LoopbackEndpoint.setUp up)

/-- The side whose endpoint `endpoint_for_link_mut` returns. -/
def sideForLink (linkId : LinkId) : Outcome LoopbackError LoopbackSide :=
  if linkId = loopbackLeftId then .ok .left
  else if linkId = loopbackRightId then .ok .right
  else fail (.linkMismatch loopbackLeftId linkId)

end LoopbackPair

/-! ## Drivers -/

/-- A driver; its fixed side is the argument of its calls, whose state is its pair. -/
abbrev LoopbackDriverM (N : ℕ) := EStateM (Fault LoopbackError) (LoopbackPair N)

namespace LoopbackDriver

variable {N : ℕ}

/-- `set_link_up`. -/
def setLinkUp (linkId : LinkId) (up : Bool) : LoopbackDriverM N LinkEvent := do
  let side ← (LoopbackPair.sideForLink linkId).lift
  LoopbackPair.setUp side up

/-- `queued_len`. -/
def queuedLen (linkId : LinkId) : LoopbackDriverM N ℕ := do
  let side ← (LoopbackPair.sideForLink linkId).lift
  let pair ← get
  return (pair.endpoint side).queuedLen

/-- `receive_link_frame`. -/
def receiveLinkFrame (linkId : LinkId) :
    EStateM (Fault LoopbackError) (LoopbackPair N × List UInt8) (Option LinkFrameRef) := do
  let side ← (LoopbackPair.sideForLink linkId).lift
  LoopbackPair.receiveInto side

/-- `send_link_bytes`. -/
def sendLinkBytes (side : LoopbackSide) (linkId : LinkId) (bytes : List UInt8) (nowMs : TimestampMs) :
    LoopbackDriverM N Unit :=
  if linkId = loopbackLeftId then LoopbackPair.sendBytesTo .left bytes nowMs
  else if linkId = loopbackRightId then LoopbackPair.sendBytesTo .right bytes nowMs
  else throw (.error (.linkMismatch side.linkId linkId))

/-- `LinkDriver::send_bytes`. -/
def sendBytes (side : LoopbackSide) (bytes : List UInt8) (nowMs : TimestampMs) :
    LoopbackDriverM N Unit := LoopbackPair.sendBytesTo side bytes nowMs

/-- `LinkDriver::poll_frame`: a frame that the other side was sent. -/
def pollFrame (side : LoopbackSide) :
    EStateM (Fault LoopbackError) (LoopbackPair N × List UInt8) (Option LinkFrameRef) :=
  LoopbackPair.receiveInto side.peer

end LoopbackDriver

end Hyf.Loopback
