import Hyf.Core.Types
import Hyf.Common.CursorM

/-!
# BitChat packets (`hyf_bitchat_core`)

A packet has a version byte, a type, a time to live, a timestamp and five flags, which say which of
the optional fields follow: a recipient, a route, a signature, and whether the payload is compressed.
Both versions are decoded; only version 2 with a plain payload is encoded, and the encoder computes
the flags from the fields instead of taking those of the packet.
-/

namespace Hyf.Bitchat

open ByteCodec CursorM WriterM

def bitchatV1HeaderLen : ℕ := 14
def bitchatV2HeaderLen : ℕ := 16
def bitchatPeerIdLen : ℕ := 8
def bitchatSignatureLen : ℕ := 64
def bitchatRouteMaxHops : ℕ := 16
def bitchatCorePacketMaxLen : ℕ := 2048
def bitchatPayloadMaxLen : ℕ := 1536

/-- The errors of the codec. -/
inductive BitchatError where
  | packetTooShort (actual minimum : ℕ)
  | packetTooLarge (actual maximum : ℕ)
  | unknownVersion (version : UInt8)
  | reservedFlags (flags : UInt8)
  | v1RouteFlag
  | payloadTooLarge (actual maximum : ℕ)
  | routeTooManyHops (actual maximum : ℕ)
  | missingField (field : String) (needed remaining : ℕ)
  | trailingBytes (remaining : ℕ)
  | compressedOriginalLenMissing (actual minimum : ℕ)
  | compressedOriginalLenZero
  | compressedOriginalLenTooLarge (actual maximum : ℕ)
  | compressedBodyEmpty
  | unsupportedEncodeVersion (version : UInt8)
  | unsupportedCompressedEncode
  | invalidRouteByteLength (hopCount : UInt8) (actual expected : ℕ)
  | lengthOverflow
  | outputTooSmall (needed available : ℕ)
  deriving DecidableEq

/-! ## Versions and flags -/

/-- The two versions of the layout. -/
inductive BitchatVersion where
  | v1
  | v2
  deriving DecidableEq

namespace BitchatVersion

/-- `from_wire_value`. -/
def fromWireValue (version : UInt8) : Outcome BitchatError BitchatVersion :=
  if version = 1 then .ok v1
  else if version = 2 then .ok v2
  else fail (.unknownVersion version)

/-- `wire_value`. -/
def wireValue : BitchatVersion → UInt8
  | v1 => 1
  | v2 => 2

end BitchatVersion

def flagHasRecipient : UInt8 := 0x01
def flagHasSignature : UInt8 := 0x02
def flagIsCompressed : UInt8 := 0x04
def flagHasRoute : UInt8 := 0x08
def flagIsRsr : UInt8 := 0x10
def flagReservedMask : UInt8 := 0xe0

/-- The flags of a packet. -/
structure BitchatFlags where
  hasRecipient : Bool
  hasSignature : Bool
  isCompressed : Bool
  hasRoute : Bool
  isRsr : Bool
  deriving DecidableEq

/-- A flag's bit, if it is set. -/
def boolFlag (value : Bool) (flag : UInt8) : UInt8 := if value then flag else 0

namespace BitchatFlags

/-- No flag is set. -/
def empty : BitchatFlags := ⟨false, false, false, false, false⟩

/-- The flags of a byte, whatever its reserved bits. -/
def ofByte (flags : UInt8) : BitchatFlags where
  hasRecipient := flags &&& flagHasRecipient ≠ 0
  hasSignature := flags &&& flagHasSignature ≠ 0
  isCompressed := flags &&& flagIsCompressed ≠ 0
  hasRoute := flags &&& flagHasRoute ≠ 0
  isRsr := flags &&& flagIsRsr ≠ 0

/-- `from_wire_byte`: reserved bits are refused. -/
def fromWireByte (flags : UInt8) : Outcome BitchatError BitchatFlags := do
  rejectIf (flags &&& flagReservedMask ≠ 0) (.reservedFlags flags)
  return ofByte flags

/-- `to_wire_byte`. -/
def toWireByte (flags : BitchatFlags) : UInt8 :=
  boolFlag flags.hasRecipient flagHasRecipient ||| boolFlag flags.hasSignature flagHasSignature |||
    boolFlag flags.isCompressed flagIsCompressed ||| boolFlag flags.hasRoute flagHasRoute |||
    boolFlag flags.isRsr flagIsRsr

end BitchatFlags

/-! ## Packets -/

/-- Eight bytes. -/
structure BitchatPeerId where
  bytes : ByteArrayN 8
  deriving DecidableEq

/-- A signature, which is not verified here. -/
structure BitchatSignature where
  bytes : ByteArrayN 64
  deriving DecidableEq

/-- A route as it stands in the packet. -/
structure BitchatRouteRef where
  hopCount : UInt8
  rawHops : List UInt8
  deriving DecidableEq

/-- A payload in plain, or compressed with its size before. -/
inductive BitchatPayloadRef where
  | plain (bytes : List UInt8)
  | compressed (originalLen : ℕ) (compressedBytes : List UInt8)
  deriving DecidableEq

/-- `matches!(payload, BitchatPayloadRef::Compressed { .. })`. -/
def BitchatPayloadRef.isCompressed : BitchatPayloadRef → Bool
  | plain _ => false
  | compressed _ _ => true

/-- A packet over its bytes. -/
structure BitchatPacketRef where
  version : BitchatVersion
  packetType : UInt8
  ttl : UInt8
  timestamp : UInt64
  flags : BitchatFlags
  senderId : BitchatPeerId
  recipientId : Option BitchatPeerId
  route : Option BitchatRouteRef
  payload : BitchatPayloadRef
  signature : Option BitchatSignature
  deriving DecidableEq

/-! ## Decoding -/

/-- `read_slice`, with the name of the field for the error. -/
def readSlice (field : String) : ℕ → CursorM BitchatError (List UInt8) :=
  takeSlice (fun _ _ => .lengthOverflow)
    fun cursor len => .missingField field len (cursor.input.length - cursor.index)

/-- Nothing may follow a packet. -/
def decodeFinish : CursorM BitchatError Unit := do
  let cursor ← get
  let remaining := cursor.input.length - cursor.index
  raise (if remaining = 0 then .ok () else fail (.trailingBytes remaining))

/-- The first byte of a packet. -/
def decodeVersion (input : List UInt8) : Outcome BitchatError BitchatVersion :=
  match input.head? with
  | none => fail (.packetTooShort 0 1)
  | some version => BitchatVersion.fromWireValue version

/-- The length of the fixed header. -/
def fixedHeaderLen : BitchatVersion → ℕ
  | .v1 => bitchatV1HeaderLen
  | .v2 => bitchatV2HeaderLen

/-- The width of the size in front of a compressed payload. -/
def compressedPreambleLen : BitchatVersion → ℕ
  | .v1 => 2
  | .v2 => 4

/-- `usize::checked_add` and `checked_mul`, with the error of this format. -/
def checkedAddLen (a b : ℕ) : Outcome BitchatError ℕ :=
  match checkedAdd a b with
  | some len => .ok len
  | none => fail .lengthOverflow

/-- `checked_mul`, with the error of a length that overflows. -/
def checkedMulLen (a b : ℕ) : Outcome BitchatError ℕ :=
  if a * b < addressLimit then .ok (a * b) else fail .lengthOverflow

/-- `decode_route`: in version 2 only, with at most 16 hops. -/
def decodeRoute (version : BitchatVersion) (flags : BitchatFlags) :
    CursorM BitchatError (Option BitchatRouteRef) :=
  if flags.hasRoute = false then return none
  else do
    raise (rejectIf (version = .v1) .v1RouteFlag)
    let hopCount ← readU8 (readSlice "route hop count")
    raise (rejectIf (hopCount.toNat > bitchatRouteMaxHops)
      (.routeTooManyHops hopCount.toNat bitchatRouteMaxHops))
    let routeLen ← raise (checkedMulLen hopCount.toNat bitchatPeerIdLen)
    let rawHops ← readSlice "route hops" routeLen
    return some ⟨hopCount, rawHops⟩

/-- The bytes `payload_bytes[0]`, `payload_bytes[1]`, and so on, as one big-endian number. -/
def readOriginalLen (payloadBytes : List UInt8) : BitchatVersion → Outcome BitchatError ℕ
  | .v1 => do
    let b0 ← byteAt payloadBytes 0
    let b1 ← byteAt payloadBytes 1
    return ofBe [b0, b1]
  | .v2 => do
    let b0 ← byteAt payloadBytes 0
    let b1 ← byteAt payloadBytes 1
    let b2 ← byteAt payloadBytes 2
    let b3 ← byteAt payloadBytes 3
    return ofBe [b0, b1, b2, b3]

/-- `decode_payload`: a compressed payload has the original size in front. -/
def decodePayload (version : BitchatVersion) (flags : BitchatFlags) (payloadBytes : List UInt8) :
    Outcome BitchatError BitchatPayloadRef :=
  if flags.isCompressed = false then .ok (.plain payloadBytes)
  else do
    let preambleLen := compressedPreambleLen version
    rejectIf (payloadBytes.length < preambleLen)
      (.compressedOriginalLenMissing payloadBytes.length preambleLen)
    let originalLen ← readOriginalLen payloadBytes version
    rejectIf (originalLen = 0) .compressedOriginalLenZero
    rejectIf (originalLen > bitchatPayloadMaxLen)
      (.compressedOriginalLenTooLarge originalLen bitchatPayloadMaxLen)
    let compressedBytes ← slice payloadBytes preambleLen payloadBytes.length
    rejectIf (compressedBytes = []) .compressedBodyEmpty
    return .compressed originalLen compressedBytes

/-- The length of the payload, in the width of the version. -/
def readPayloadLen : BitchatVersion → CursorM BitchatError ℕ
  | .v1 => return (← readU16 (readSlice "payload length")).toNat
  | .v2 => return (← readU32 (readSlice "payload length")).toNat

/-- `read_peer_id`. -/
def readPeerId (field : String) : CursorM BitchatError BitchatPeerId :=
  return ⟨← readArray (readSlice field) 8⟩

/-- `read_signature`. -/
def readSignature : CursorM BitchatError BitchatSignature :=
  return ⟨← readArray (readSlice "signature") 64⟩

/-- `if present { Some(..) } else { None }`. -/
def readOptional {α : Type} (present : Bool) (reader : CursorM BitchatError α) :
    CursorM BitchatError (Option α) :=
  if present then return some (← reader) else return none

/-- The field reads of `decode_bitchat_packet`, in order. -/
def readBitchatPacket (version : BitchatVersion) : CursorM BitchatError BitchatPacketRef := do
  let _version ← readU8 (readSlice "version")
  let packetType ← readU8 (readSlice "packet type")
  let ttl ← readU8 (readSlice "ttl")
  let timestamp ← readU64 (readSlice "timestamp")
  let flagsByte ← readU8 (readSlice "flags")
  let flags ← raise (BitchatFlags.fromWireByte flagsByte)
  raise (rejectIf (version = .v1 ∧ flags.hasRoute = true) .v1RouteFlag)
  let payloadLen ← readPayloadLen version
  raise (rejectIf (payloadLen > bitchatPayloadMaxLen)
    (.payloadTooLarge payloadLen bitchatPayloadMaxLen))
  let senderId ← readPeerId "sender ID"
  let recipientId ← readOptional flags.hasRecipient (readPeerId "recipient ID")
  let route ← decodeRoute version flags
  let payloadBytes ← readSlice "payload" payloadLen
  let payload ← raise (decodePayload version flags payloadBytes)
  let signature ← readOptional flags.hasSignature readSignature
  return {
    version, packetType, ttl, timestamp, flags, senderId, recipientId, route, payload, signature }

/-- `decode_bitchat_packet`. -/
def decodeBitchatPacket (input : List UInt8) : Outcome BitchatError BitchatPacketRef := do
  rejectIf (input.length > bitchatCorePacketMaxLen)
    (.packetTooLarge input.length bitchatCorePacketMaxLen)
  let version ← decodeVersion input
  let minimumHeaderLen := fixedHeaderLen version
  rejectIf (input.length < minimumHeaderLen) (.packetTooShort input.length minimumHeaderLen)
  CursorM.runOn (do
    let packet ← readBitchatPacket version
    decodeFinish
    return packet) input

/-! ## Encoding -/

/-- The encoder takes plain payloads in version 2 only. -/
def encodePlainPayloadLen (packet : BitchatPacketRef) : Outcome BitchatError ℕ := do
  rejectIf (packet.version ≠ .v2) (.unsupportedEncodeVersion packet.version.wireValue)
  match packet.payload with
  | .compressed _ _ => fail .unsupportedCompressedEncode
  | .plain payload => do
    rejectIf (payload.length > bitchatPayloadMaxLen)
      (.payloadTooLarge payload.length bitchatPayloadMaxLen)
    return payload.length

/-- The bytes of a route, if it is well formed. -/
def encodedRouteLen (route : Option BitchatRouteRef) : Outcome BitchatError ℕ :=
  match route with
  | none => .ok 0
  | some route => do
    rejectIf (route.hopCount.toNat > bitchatRouteMaxHops)
      (.routeTooManyHops route.hopCount.toNat bitchatRouteMaxHops)
    let expected ← checkedMulLen route.hopCount.toNat bitchatPeerIdLen
    rejectIf (route.rawHops.length ≠ expected)
      (.invalidRouteByteLength route.hopCount route.rawHops.length expected)
    checkedAddLen expected 1

/-- `if present { len = len.checked_add(extra)? }`. -/
def addOptionalLen (present : Bool) (len extra : ℕ) : Outcome BitchatError ℕ :=
  if present then checkedAddLen len extra else .ok len

/-- `bitchat_packet_encoded_len_v2`. -/
def bitchatPacketEncodedLenV2 (packet : BitchatPacketRef) : Outcome BitchatError ℕ := do
  let payloadLen ← encodePlainPayloadLen packet
  let routeLen ← encodedRouteLen packet.route
  let len ← checkedAddLen bitchatV2HeaderLen bitchatPeerIdLen
  let len ← addOptionalLen packet.recipientId.isSome len bitchatPeerIdLen
  let len ← checkedAddLen len routeLen
  let len ← checkedAddLen len payloadLen
  let len ← addOptionalLen packet.signature.isSome len bitchatSignatureLen
  rejectIf (len > bitchatCorePacketMaxLen) (.packetTooLarge len bitchatCorePacketMaxLen)
  return len

/-- The flags that are written: they say what is there. -/
def canonicalEncodeFlags (packet : BitchatPacketRef) : BitchatFlags where
  hasRecipient := packet.recipientId.isSome
  hasSignature := packet.signature.isSome
  isCompressed := false
  hasRoute := packet.route.isSome
  isRsr := packet.flags.isRsr

/-- `write_slice`. -/
def writeSlice (bytes : List UInt8) : WriterM BitchatError Unit :=
  WriterM.writeSlice (fun _ _ => .lengthOverflow)
    (fun cursor bytes => .outputTooSmall (cursor.index + bytes.length) cursor.output.length) bytes

/-- `write_u8`. -/
def writeU8 (value : UInt8) : WriterM BitchatError Unit := writeSlice [value]

/-- `if let Some(value) = value { .. }`. -/
def writeOptional {α : Type} (value : Option α) (write : α → WriterM BitchatError Unit) :
    WriterM BitchatError Unit :=
  match value with
  | some value => write value
  | none => pure ()

/-- A route with its number of hops. -/
def writeRoute (route : BitchatRouteRef) : WriterM BitchatError Unit := do
  writeU8 route.hopCount
  writeSlice route.rawHops

/-- The parts of a packet, in order. -/
def writeBitchatPacket (packet : BitchatPacketRef) (payload : List UInt8) :
    WriterM BitchatError Unit := do
  writeU8 2
  writeU8 packet.packetType
  writeU8 packet.ttl
  writeSlice (toBe 8 packet.timestamp.toNat)
  writeU8 (canonicalEncodeFlags packet).toWireByte
  writeSlice (toBe 4 (UInt32.ofNat payload.length).toNat)
  writeSlice packet.senderId.bytes.toList
  writeOptional packet.recipientId fun recipientId => writeSlice recipientId.bytes.toList
  writeOptional packet.route writeRoute
  writeSlice payload
  writeOptional packet.signature fun signature => writeSlice signature.bytes.toList

/-- Encode into `output`: the position of the cursor and the slice afterwards. -/
def encodeBitchatPacketV2 (packet : BitchatPacketRef) (output : List UInt8) :
    Outcome BitchatError (ℕ × List UInt8) := do
  let needed ← bitchatPacketEncodedLenV2 packet
  rejectIf (output.length < needed) (.outputTooSmall needed output.length)
  match packet.payload with
  | .compressed _ _ => fail .unsupportedCompressedEncode
  | .plain payload => do
    let cursor ← WriterM.runOn (writeBitchatPacket packet payload) output
    return (cursor.index, cursor.output)

/-! ## The layout -/

/-- The width of the payload length. -/
def payloadLenWidth : BitchatVersion → ℕ
  | .v1 => 2
  | .v2 => 4

/-- The payload as it stands in the packet: a compressed one follows its original length. -/
def payloadBytes (version : BitchatVersion) : BitchatPayloadRef → List UInt8
  | .plain bytes => bytes
  | .compressed originalLen compressedBytes =>
    toBe (compressedPreambleLen version) originalLen ++ compressedBytes

/-- The bytes of a part that may be missing. -/
def optionalBytes {α : Type} (bytes : α → List UInt8) : Option α → List UInt8
  | some value => bytes value
  | none => []

/-- The bytes of a route. -/
def routeBytes (route : BitchatRouteRef) : List UInt8 := [route.hopCount] ++ route.rawHops

/-- The bytes of a packet, field after field. -/
def packetBytes (packet : BitchatPacketRef) : List UInt8 :=
  [packet.version.wireValue] ++ [packet.packetType] ++ [packet.ttl] ++
    toBe 8 packet.timestamp.toNat ++ [packet.flags.toWireByte] ++
    toBe (payloadLenWidth packet.version) (payloadBytes packet.version packet.payload).length ++
    packet.senderId.bytes.toList ++
    optionalBytes (fun recipientId => recipientId.bytes.toList) packet.recipientId ++
    optionalBytes routeBytes packet.route ++ payloadBytes packet.version packet.payload ++
    optionalBytes (fun signature => signature.bytes.toList) packet.signature

end Hyf.Bitchat
