import Hyf.Core.Types
import Hyf.Common.ByteCodec

/-!
# The HYF envelope and its wire format (`hyf_wire`)

An envelope is encoded as version, message id, source, destination, creation and expiry time, hop
limit, payload kind, payload length and payload. The functions below follow the source statement by
statement; `wireBytes` is the layout as one byte string, to which both the encoder and the decoder
are compared in `Hyf.Wire.EnvelopeTheorems`.
-/

namespace Hyf

open ByteCodec

def hyfWireVersion0 : UInt8 := 0

def hyfEnvelopeMaxPayloadLen : ℕ := 65535

def messageIdLen : ℕ := 32
def nodeIdLen : ℕ := 32
def communityIdLen : ℕ := 16
def u64Len : ℕ := 8
def u16Len : ℕ := 2

/-- The errors of the wire format. -/
inductive HyfWireError where
  | invalidVersion (actual : UInt8)
  | invalidDestinationTag (tag : UInt8)
  | invalidPayloadKind (tag : UInt8)
  | inputTooShort (actual minimum : ℕ)
  | trailingBytes (actual expected : ℕ)
  | envelopeTooLarge (actual maximum : ℕ)
  | outputBufferTooShort (actual required : ℕ)
  | invalidExpiry
  | invalidForeignEndpoint (error : ForeignEndpointError)
  deriving DecidableEq

/-- Whom a message is for. -/
inductive HyfDestination where
  | node (node : NodeId)
  | community (community : CommunityId)
  | foreign (endpoint : ForeignEndpointId)
  deriving DecidableEq

/-- `wire_tag`. -/
def HyfDestination.wireTag : HyfDestination → UInt8
  | node _ => 0
  | community _ => 1
  | foreign _ => 2

/-- What a message carries. -/
inductive PayloadKind where
  | hyfNativeV0
  | hyfBridgeMessageV0
  | foreignRnsPacket
  | foreignLxmfMessage
  | foreignBitChatPacket
  deriving DecidableEq

namespace PayloadKind

/-- `wire_tag`. -/
def wireTag : PayloadKind → UInt8
  | hyfNativeV0 => 0
  | hyfBridgeMessageV0 => 1
  | foreignRnsPacket => 16
  | foreignLxmfMessage => 17
  | foreignBitChatPacket => 18

/-- `from_wire_tag`. -/
def fromWireTag (tag : UInt8) : Except HyfWireError PayloadKind :=
  if tag = 0 then .ok hyfNativeV0
  else if tag = 1 then .ok hyfBridgeMessageV0
  else if tag = 16 then .ok foreignRnsPacket
  else if tag = 17 then .ok foreignLxmfMessage
  else if tag = 18 then .ok foreignBitChatPacket
  else .error (.invalidPayloadKind tag)

end PayloadKind

/-- A message over its bytes. -/
structure HyfEnvelopeRef where
  version : UInt8
  messageId : MessageId
  source : NodeId
  destination : HyfDestination
  createdAtMs : TimestampMs
  expiresAtMs : TimestampMs
  hopLimit : UInt8
  payloadKind : PayloadKind
  payload : List UInt8
  deriving DecidableEq

/-- `validate_envelope`. -/
def validateEnvelope (envelope : HyfEnvelopeRef) : Except HyfWireError Unit :=
  if envelope.version ≠ hyfWireVersion0 then .error (.invalidVersion envelope.version)
  else if envelope.expiresAtMs ≤ envelope.createdAtMs then .error .invalidExpiry
  else if envelope.payload.length > hyfEnvelopeMaxPayloadLen then
    .error (.envelopeTooLarge envelope.payload.length hyfEnvelopeMaxPayloadLen)
  else .ok ()

/-! ## Encoding -/

/-- The length without the payload. -/
def fixedEncodedLen (destination : HyfDestination) : Except HyfWireError ℕ :=
  let destinationLen := match destination with
    | .node _ => 1 + nodeIdLen
    | .community _ => 1 + communityIdLen
    | .foreign endpoint => 1 + 1 + 1 + endpoint.len
  match checkedAdd destinationLen
      (1 + messageIdLen + nodeIdLen + u64Len + u64Len + 1 + 1 + u16Len) with
  | some len => .ok len
  | none => .error (.envelopeTooLarge destinationLen hyfEnvelopeMaxPayloadLen)

/-- `envelope_encoded_len`. -/
def envelopeEncodedLen (envelope : HyfEnvelopeRef) : Except HyfWireError ℕ := do
  validateEnvelope envelope
  let fixed ← fixedEncodedLen envelope.destination
  match checkedAdd fixed envelope.payload.length with
  | some len => .ok len
  | none => .error (.envelopeTooLarge envelope.payload.length hyfEnvelopeMaxPayloadLen)

/-- The tag of a destination and its bytes. -/
def encodeDestination (destination : HyfDestination) (cursor : WriteCursor) : WriteCursor :=
  let cursor := cursor.writeU8 destination.wireTag
  match destination with
  | .node node => cursor.writeArray node.bytes.toList
  | .community community => cursor.writeArray community.bytes.toList
  | .foreign endpoint =>
    let cursor := cursor.writeU8 endpoint.network.wireTag
    let cursor := cursor.writeU8 (UInt8.ofNat endpoint.len)
    cursor.writeArray endpoint.bytes

/-- Encode into `output`. Returns the number of bytes written and the slice afterwards; an error is
returned before anything is written. -/
def encodeEnvelope (envelope : HyfEnvelopeRef) (output : List UInt8) :
    Except HyfWireError (ℕ × List UInt8) := do
  let required ← envelopeEncodedLen envelope
  if output.length < required then
    throw (.outputBufferTooShort output.length required)
  let cursor := WriteCursor.new output
  let cursor := cursor.writeU8 envelope.version
  let cursor := cursor.writeArray envelope.messageId.bytes.toList
  let cursor := cursor.writeArray envelope.source.bytes.toList
  let cursor := encodeDestination envelope.destination cursor
  let cursor := cursor.writeU64 envelope.createdAtMs
  let cursor := cursor.writeU64 envelope.expiresAtMs
  let cursor := cursor.writeU8 envelope.hopLimit
  let cursor := cursor.writeU8 envelope.payloadKind.wireTag
  let cursor := cursor.writeU16 (UInt16.ofNat envelope.payload.length)
  let cursor := cursor.writeArray envelope.payload
  return (required, cursor.output)

/-! ## Decoding -/

/-- The reads of the envelope format, with its errors. -/
abbrev EnvelopeReader := Reader HyfWireError

namespace EnvelopeReader

/-- So many bytes, as an array. -/
def readSlice (len : ℕ) : EnvelopeReader (ByteArrayN len) :=
  ByteCodec.readSlice (fun len => .envelopeTooLarge len hyfEnvelopeMaxPayloadLen)
    .inputTooShort len

/-- `read_u8`. -/
def readU8 : EnvelopeReader UInt8 := do
  let slice ← readSlice 1
  return slice.head

/-- `read_u16`, big-endian. -/
def readU16 : EnvelopeReader UInt16 := do
  let slice ← readSlice u16Len
  return UInt16.ofNat (ofBe slice.toList)

/-- `read_u64`, big-endian. -/
def readU64 : EnvelopeReader UInt64 := do
  let slice ← readSlice u64Len
  return UInt64.ofNat (ofBe slice.toList)

end EnvelopeReader

open EnvelopeReader

/-- `decode_destination`. -/
def decodeDestination : EnvelopeReader HyfDestination := do
  let tag ← readU8
  if tag = 0 then
    return .node ⟨← readSlice nodeIdLen⟩
  else if tag = 1 then
    return .community ⟨← readSlice communityIdLen⟩
  else if tag = 2 then
    let networkTag ← readU8
    let network ← MonadExcept.ofExcept
      ((ForeignNetworkKind.fromWireTag networkTag).mapError HyfWireError.invalidForeignEndpoint)
    let endpointLen ← readU8
    let bytes ← readSlice endpointLen.toNat
    let endpoint ← MonadExcept.ofExcept
      ((ForeignEndpointId.new network bytes.toList).mapError HyfWireError.invalidForeignEndpoint)
    return .foreign endpoint
  else
    throw (.invalidDestinationTag tag)

/-- The field reads of `decode_envelope`, in order. -/
def readEnvelope : EnvelopeReader HyfEnvelopeRef := do
  let version ← readU8
  if version ≠ hyfWireVersion0 then
    throw (.invalidVersion version)
  let messageId ← readSlice messageIdLen
  let source ← readSlice nodeIdLen
  let destination ← decodeDestination
  let createdAtMs ← readU64
  let expiresAtMs ← readU64
  let hopLimit ← readU8
  let payloadTag ← readU8
  let payloadKind ← MonadExcept.ofExcept (PayloadKind.fromWireTag payloadTag)
  let payloadLen ← readU16
  let payload ← readSlice payloadLen.toNat
  return {
    version, messageId := ⟨messageId⟩, source := ⟨source⟩, destination, createdAtMs, expiresAtMs,
    hopLimit, payloadKind, payload := payload.toList }

/-- `decode_envelope`. -/
def decodeEnvelope (input : List UInt8) : Except HyfWireError HyfEnvelopeRef := do
  let (envelope, cursor) ← readEnvelope.run (ReadCursor.new input)
  if cursor.position ≠ input.length then
    throw (.trailingBytes input.length cursor.position)
  validateEnvelope envelope
  return envelope

/-! ## The layout -/

/-- The bytes of a destination. -/
def destinationBytes (destination : HyfDestination) : List UInt8 :=
  [destination.wireTag] ++ match destination with
    | .node node => node.bytes.toList
    | .community community => community.bytes.toList
    | .foreign endpoint =>
      [endpoint.network.wireTag] ++ [UInt8.ofNat endpoint.len] ++ endpoint.bytes

/-- The bytes of an envelope, field after field. -/
def wireBytes (envelope : HyfEnvelopeRef) : List UInt8 :=
  [envelope.version] ++ envelope.messageId.bytes.toList ++ envelope.source.bytes.toList ++
    destinationBytes envelope.destination ++ toBe u64Len envelope.createdAtMs.toNat ++
    toBe u64Len envelope.expiresAtMs.toNat ++ [envelope.hopLimit] ++
    [envelope.payloadKind.wireTag] ++
    toBe u16Len (UInt16.ofNat envelope.payload.length).toNat ++ envelope.payload

end Hyf
