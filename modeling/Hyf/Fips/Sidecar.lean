import Hyf.Common.BufferM
import Hyf.Common.SlotQueue
import Hyf.Common.SlotAccess
import Hyf.Core.Types

/-!
# The FIPS sidecar (`hyf_link_fips`)

An endpoint is a public key with the two addresses that are derived from it. The sidecar keeps a table
of peers and two queues of datagrams, each an array of slots with a length counter of its own: a
datagram goes into the slot at the counter, and a poll copies the first one out and shifts the rest.
-/

namespace Hyf.Fips

open ByteCodec BufferM

/-- The errors of the sidecar. -/
inductive FipsError where
  | linkDown
  | unknownPeer
  | duplicatePeer
  | peerTableFull (capacity : ℕ)
  | invalidEndpoint
  | frameTooLarge (len mtu : ℕ)
  | outboundFull (capacity : ℕ)
  | inboundFull (capacity : ℕ)
  | outputTooSmall (needed available : ℕ)
  | controlResponseTooLarge (len maximum : ℕ)
  | malformedControlStatus
  | utf8
  deriving DecidableEq

/-! ## Endpoints -/

/-- A public key. -/
structure FipsPublicKey where
  bytes : ByteArrayN 32
  deriving DecidableEq

/-- The address of a node, a hash of its key. -/
structure FipsNodeAddr where
  bytes : ByteArrayN 16
  deriving DecidableEq

/-- An address in the form of IPv6. -/
structure FipsIpv6Addr where
  bytes : ByteArrayN 16
  deriving DecidableEq

/-- A key with the addresses derived from it. -/
structure FipsEndpoint where
  publicKey : FipsPublicKey
  nodeAddr : FipsNodeAddr
  ipv6Addr : FipsIpv6Addr
  deriving DecidableEq

/-- `derive_fips_node_addr`. -/
def deriveFipsNodeAddr (sha256 : List UInt8 → ByteArrayN 32) (publicKey : FipsPublicKey) : FipsNodeAddr :=
  ⟨⟨(sha256 publicKey.bytes.toList).toList.take 16, by simp⟩⟩

/-- `derive_fips_ipv6_addr`. -/
def deriveFipsIpv6Addr (nodeAddr : FipsNodeAddr) : FipsIpv6Addr :=
  ⟨⟨0xfd :: nodeAddr.bytes.toList.take 15, by simp⟩⟩

/-- `derive_fips_endpoint`. -/
def deriveFipsEndpoint (sha256 : List UInt8 → ByteArrayN 32) (publicKey : FipsPublicKey) :
    FipsEndpoint where
  publicKey
  nodeAddr := deriveFipsNodeAddr sha256 publicKey
  ipv6Addr := deriveFipsIpv6Addr (deriveFipsNodeAddr sha256 publicKey)

/-- `validate`: the addresses are the derived ones. -/
def FipsEndpoint.validate (sha256 : List UInt8 → ByteArrayN 32) (endpoint : FipsEndpoint) :
    Outcome FipsError Unit :=
  let expectedNodeAddr := deriveFipsNodeAddr sha256 endpoint.publicKey
  let expectedIpv6Addr := deriveFipsIpv6Addr expectedNodeAddr
  if endpoint.nodeAddr = expectedNodeAddr ∧ endpoint.ipv6Addr = expectedIpv6Addr then .ok ()
  else fail .invalidEndpoint

/-- `endpoints_overlap`. -/
def endpointsOverlap (left right : FipsEndpoint) : Bool :=
  left.publicKey = right.publicKey ∨ left.nodeAddr = right.nodeAddr ∨ left.ipv6Addr = right.ipv6Addr

/-! ## Datagrams -/

/-- A datagram in a queue; only the first `len` bytes of the array are its own. -/
structure FipsDatagramRecord (frameMax : ℕ) where
  source : FipsEndpoint
  destination : FipsEndpoint
  len : ℕ
  bytes : ByteArrayN frameMax
  len_le : len ≤ frameMax

/-- A datagram over its bytes. -/
structure FipsDatagramRef where
  source : FipsEndpoint
  destination : FipsEndpoint
  bytes : List UInt8
  deriving DecidableEq

/-- `new`. -/
def FipsDatagramRecord.new (sha256 : List UInt8 → ByteArrayN 32) {frameMax : ℕ}
    (source destination : FipsEndpoint) (bytes : List UInt8) :
    Outcome FipsError (FipsDatagramRecord frameMax) := do
  source.validate sha256
  destination.validate sha256
  if h : bytes.length ≤ frameMax then do
    let (_, stored) ← BufferM.runOn (copyInto 0 bytes.length bytes) (List.replicate frameMax 0)
    let stored ← toArray frameMax stored
    return ⟨source, destination, bytes.length, stored, h⟩
  else fail (.frameTooLarge bytes.length frameMax)

/-! ## Queues -/

/-- The slots of a queue and its length counter. -/
structure FipsQueue (queueMax frameMax : ℕ) where
  slots : SlotArray (FipsDatagramRecord frameMax) queueMax
  len : ℕ

section

variable {queueMax frameMax : ℕ}

/-- An empty queue. -/
def FipsQueue.empty : FipsQueue queueMax frameMax where
  slots := .empty _ queueMax
  len := 0

/-- `enqueue`: the first free cell. -/
def enqueue (queue : FipsQueue queueMax frameMax) (record : FipsDatagramRecord frameMax) :
    Outcome FipsError (FipsQueue queueMax frameMax) := do
  let slots ← queue.slots.writeAt queue.len (some record)
  return ⟨slots, queue.len + 1⟩

/-- The datagrams move forward by one cell. -/
def shiftQueue (queue : FipsQueue queueMax frameMax) :
    Outcome FipsError (FipsQueue queueMax frameMax) :=
  if queue.len = 0 then .ok queue
  else do
    let slots ← queue.slots.shiftTo queue.len
    let len ← subUsize queue.len 1
    let slots ← slots.writeAt len none
    return ⟨slots, len⟩

/-- The state is the queue and the output slice. -/
def pollQueue : EStateM (Fault FipsError) (FipsQueue queueMax frameMax × List UInt8)
    (Option FipsDatagramRef) := do
  let (queue, output) ← get
  if queue.len = 0 then return none
  else do
    match ← (queue.slots.readAt 0 : Outcome FipsError _).lift with
    | none => do
      set ({ queue with len := 0 }, output)
      return none
    | some record => do
      (rejectIf (output.length < record.len) (.outputTooSmall record.len output.length)).lift
      let bytes ← (slice record.bytes.toList 0 record.len).lift
      let (_, output) ← (BufferM.runOn (copyInto 0 record.len bytes) output).lift
      let queue ← (shiftQueue queue).lift
      set (queue, output)
      let bytes ← (slice output 0 record.len).lift
      return some ⟨record.source, record.destination, bytes⟩

end

/-! ## The sidecar -/

/-- The sidecar: its own end, its peers, and a queue in each direction. -/
structure FakeFipsSidecar (peerMax queueMax frameMax : ℕ) where
  localEndpoint : FipsEndpoint
  peers : SlotArray FipsEndpoint peerMax
  outbound : FipsQueue queueMax frameMax
  inbound : FipsQueue queueMax frameMax
  up : Bool
  mtu : ℕ

namespace FakeFipsSidecar

variable {peerMax queueMax frameMax : ℕ}

/-- `has_peer`. -/
def hasPeer (sidecar : FakeFipsSidecar peerMax queueMax frameMax) (endpoint : FipsEndpoint) : Bool :=
  sidecar.peers.live.any fun peer => peer = endpoint

/-- `validate_up`. -/
def validateUp (sidecar : FakeFipsSidecar peerMax queueMax frameMax) : Outcome FipsError Unit :=
  if sidecar.up then .ok () else fail .linkDown

/-- `validate_frame_len`. -/
def validateFrameLen (sidecar : FakeFipsSidecar peerMax queueMax frameMax) (bytes : List UInt8) :
    Outcome FipsError Unit :=
  rejectIf (bytes.length > sidecar.mtu) (.frameTooLarge bytes.length sidecar.mtu)

/-- `set_up`. -/
def setUp (up : Bool) :
    EStateM (Fault FipsError) (FakeFipsSidecar peerMax queueMax frameMax) Unit :=
  modify fun sidecar => { sidecar with up }

section

variable (sha256 : List UInt8 → ByteArrayN 32)

/-- `new`. -/
def new (localEndpoint : FipsEndpoint) (mtu : ℕ) :
    Outcome FipsError (FakeFipsSidecar peerMax queueMax frameMax) := do
  localEndpoint.validate sha256
  rejectIf (mtu > frameMax) (.frameTooLarge mtu frameMax)
  return ⟨localEndpoint, .empty _ peerMax, .empty, .empty, true, mtu⟩

/-- `register_peer`: no address of a peer is used twice. -/
def registerPeer (endpoint : FipsEndpoint) :
    EStateM (Fault FipsError) (FakeFipsSidecar peerMax queueMax frameMax) Unit := do
  (endpoint.validate sha256).lift
  let sidecar ← get
  (rejectIf (endpointsOverlap sidecar.localEndpoint endpoint ∨
    sidecar.peers.live.any fun registered => endpointsOverlap registered endpoint)
    FipsError.duplicatePeer).lift
  match sidecar.peers.firstFree with
  | none => throw (.error (.peerTableFull peerMax))
  | some slot => set { sidecar with peers := sidecar.peers.write slot (some endpoint) }

/-- `send_to`. -/
def sendTo (destination : FipsEndpoint) (bytes : List UInt8) :
    EStateM (Fault FipsError) (FakeFipsSidecar peerMax queueMax frameMax) Unit := do
  let sidecar ← get
  sidecar.validateUp.lift
  (rejectIf (sidecar.hasPeer destination = false) FipsError.unknownPeer).lift
  (sidecar.validateFrameLen bytes).lift
  (rejectIf (sidecar.outbound.len ≥ queueMax) (FipsError.outboundFull queueMax)).lift
  let record ← (FipsDatagramRecord.new sha256 sidecar.localEndpoint destination bytes).lift
  let outbound ← (enqueue sidecar.outbound record).lift
  set { sidecar with outbound }

/-- `inject_from`. -/
def injectFrom (source : FipsEndpoint) (bytes : List UInt8) :
    EStateM (Fault FipsError) (FakeFipsSidecar peerMax queueMax frameMax) Unit := do
  let sidecar ← get
  sidecar.validateUp.lift
  (rejectIf (sidecar.hasPeer source = false) FipsError.unknownPeer).lift
  (sidecar.validateFrameLen bytes).lift
  (rejectIf (sidecar.inbound.len ≥ queueMax) (FipsError.inboundFull queueMax)).lift
  let record ← (FipsDatagramRecord.new sha256 source sidecar.localEndpoint bytes).lift
  let inbound ← (enqueue sidecar.inbound record).lift
  set { sidecar with inbound }

end

/-- The state is the sidecar and the output slice. -/
def pollInbound : EStateM (Fault FipsError) (FakeFipsSidecar peerMax queueMax frameMax × List UInt8)
    (Option FipsDatagramRef) := fun (sidecar, output) =>
  match pollQueue (sidecar.inbound, output) with
  | .ok datagram (inbound, output) => .ok datagram ({ sidecar with inbound }, output)
  | .error fault (inbound, output) => .error fault ({ sidecar with inbound }, output)

/-- `poll_outbound`. -/
def pollOutbound : EStateM (Fault FipsError) (FakeFipsSidecar peerMax queueMax frameMax × List UInt8)
    (Option FipsDatagramRef) := fun (sidecar, output) =>
  match pollQueue (sidecar.outbound, output) with
  | .ok datagram (outbound, output) => .ok datagram ({ sidecar with outbound }, output)
  | .error fault (outbound, output) => .error fault ({ sidecar with outbound }, output)

end FakeFipsSidecar

end Hyf.Fips
