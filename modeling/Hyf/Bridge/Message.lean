import Hyf.Wire.EnvelopeChecked

/-!
# Bridge messages (`hyf_bridge_core`)

A bridge message is what every foreign network is translated to and from: a room, a message id, an
author on one of the networks, a creation time and a payload of at most 1024 bytes. It travels as the
payload of an envelope. Encoder and decoder follow the source over cursors that can panic;
`messageBytes` is the layout, to which both are compared in `Hyf.Bridge.MessageTheorems`.
-/

namespace Hyf.Bridge

open ByteCodec CursorM WriterM

def hyfBridgeMessageVersion0 : UInt8 := 0

def hyfBridgeHyfNodeAuthorIdLen : ℕ := 32
def hyfBridgeBitchatAuthorIdLen : ℕ := 8
def hyfBridgeLxmfAuthorIdLen : ℕ := 16
def hyfBridgeNostrAuthorIdLen : ℕ := 32

def hyfBridgePayloadMaxLen : ℕ := 1024

def hyfBridgeMessageMaxLen : ℕ := 1536

def roomIdLen : ℕ := 16
def fixedPrefixLen : ℕ := 1 + roomIdLen + messageIdLen + 1 + 1 + 1
def fixedSuffixLen : ℕ := u64Len + 1 + u16Len

def authorKindHyfNode : UInt8 := 0
def authorKindForeign : UInt8 := 1
def hyfAuthorNetworkTag : UInt8 := 0

/-- A HYF node, or an author of another network. -/
inductive BridgeEndpointKind where
  | hyfNode
  | foreign (network : ForeignNetworkKind)
  deriving DecidableEq

/-- An author by the bytes of the identifier. -/
structure BridgeEndpointRef where
  kind : BridgeEndpointKind
  id : List UInt8
  deriving DecidableEq

/-- A text, or bytes that are not looked into. -/
inductive BridgePayloadKind where
  | textUtf8
  | opaqueBytes
  deriving DecidableEq

/-- `wire_tag`. -/
def BridgePayloadKind.wireTag : BridgePayloadKind → UInt8
  | textUtf8 => 1
  | opaqueBytes => 255

/-- A message over its bytes. -/
structure BridgeMessageRef where
  version : UInt8
  roomId : CommunityId
  messageId : MessageId
  author : BridgeEndpointRef
  createdAtMs : TimestampMs
  payloadKind : BridgePayloadKind
  payload : List UInt8
  deriving DecidableEq

/-- The networks that are bridged. -/
inductive BridgeProtocol where
  | hyf
  | bitChat
  | lxmf
  | nostr
  deriving DecidableEq

/-- Who vouches for a message that came in. -/
inductive BridgeVerificationState where
  | unverified
  | transportSigned
  | policyVerified
  deriving DecidableEq

/-- Where a message came from, and who vouches for it. -/
structure BridgeIngressMeta where
  originProtocol : BridgeProtocol
  verificationState : BridgeVerificationState
  deriving DecidableEq

/-- What tells messages apart. -/
structure BridgeMessageKey where
  roomId : CommunityId
  messageId : MessageId
  deriving DecidableEq

/-- The errors of the codec. -/
inductive BridgeError where
  | invalidVersion (actual : UInt8)
  | zeroRoomId
  | zeroMessageId
  | unknownAuthorKind (tag : UInt8)
  | unexpectedHyfAuthorNetworkTag (tag : UInt8)
  | invalidForeignNetworkTag (tag : UInt8)
  | unsupportedAuthorNetwork (network : ForeignNetworkKind)
  | invalidAuthorIdLen (len : ℕ)
  | unknownPayloadKind (tag : UInt8)
  | invalidTextUtf8
  | payloadTooLarge (actual maximum : ℕ)
  | messageTooLarge (actual maximum : ℕ)
  | inputTooShort (actual minimum : ℕ)
  | trailingBytes (actual expected : ℕ)
  | outputTooSmall (actual required : ℕ)
  | wrongPayloadKind (actual : PayloadKind)
  | envelopeMessageIdMismatch
  | envelopeRoomMismatch
  | hyfWire (error : HyfWireError)
  deriving DecidableEq

/-- `core::str::from_utf8(bytes).is_ok()`. -/
def isUtf8 (bytes : List UInt8) : Bool := (ByteArray.mk bytes.toArray).validateUTF8

/-! ## Checks -/

/-- `expected_author_id_len`: networks without authors here are refused. -/
def expectedAuthorIdLen : BridgeEndpointKind → Outcome BridgeError ℕ
  | .hyfNode => .ok hyfBridgeHyfNodeAuthorIdLen
  | .foreign .bitChat => .ok hyfBridgeBitchatAuthorIdLen
  | .foreign .lxmf => .ok hyfBridgeLxmfAuthorIdLen
  | .foreign .nostr => .ok hyfBridgeNostrAuthorIdLen
  | .foreign network => fail (.unsupportedAuthorNetwork network)

/-- `validate_author_id_len`. -/
def validateAuthorIdLen (kind : BridgeEndpointKind) (len : ℕ) : Outcome BridgeError Unit := do
  let expected ← expectedAuthorIdLen kind
  rejectIf (len ≠ expected) (.invalidAuthorIdLen len)

/-- `validate_payload`: a text has to be UTF-8. -/
def validatePayload (kind : BridgePayloadKind) (payload : List UInt8) : Outcome BridgeError Unit :=
  rejectIf (kind = .textUtf8 ∧ isUtf8 payload = false) .invalidTextUtf8

/-- `validate_bridge_message_ref`. -/
def validateBridgeMessageRef (message : BridgeMessageRef) : Outcome BridgeError Unit := do
  rejectIf (message.version ≠ hyfBridgeMessageVersion0) (.invalidVersion message.version)
  rejectIf (message.roomId = ⟨fillBytes roomIdLen 0⟩) .zeroRoomId
  rejectIf (message.messageId = ⟨fillBytes messageIdLen 0⟩) .zeroMessageId
  validateAuthorIdLen message.author.kind message.author.id.length
  rejectIf (message.payload.length > hyfBridgePayloadMaxLen)
    (.payloadTooLarge message.payload.length hyfBridgePayloadMaxLen)
  validatePayload message.payloadKind message.payload

/-- `decode_author_kind`. -/
def decodeAuthorKind (authorKindTag authorNetworkTag : UInt8) :
    Outcome BridgeError BridgeEndpointKind :=
  if authorKindTag = authorKindHyfNode then do
    rejectIf (authorNetworkTag ≠ hyfAuthorNetworkTag)
      (.unexpectedHyfAuthorNetworkTag authorNetworkTag)
    return .hyfNode
  else if authorKindTag = authorKindForeign then do
    let network ← ofResult (fun _ => .invalidForeignNetworkTag authorNetworkTag)
      (ForeignNetworkKind.fromWireTag authorNetworkTag)
    rejectIf (network = .fips ∨ network = .rns) (.unsupportedAuthorNetwork network)
    return .foreign network
  else fail (.unknownAuthorKind authorKindTag)

/-- `decode_payload_kind`. -/
def decodePayloadKind (tag : UInt8) : Outcome BridgeError BridgePayloadKind :=
  if tag = 1 then .ok .textUtf8
  else if tag = 255 then .ok .opaqueBytes
  else fail (.unknownPayloadKind tag)

/-! ## Decoding -/

/-- `read_slice`. -/
def readSlice : ℕ → CursorM BridgeError (List UInt8) :=
  takeSlice (fun cursor _ => .inputTooShort cursor.input.length cursor.index)
    fun cursor len => .inputTooShort cursor.input.length (cursor.index + len)

/-- The field reads of `decode_bridge_message`, in order. -/
def readBridgeMessage : CursorM BridgeError BridgeMessageRef := do
  let version ← readU8 readSlice
  raise (rejectIf (version ≠ hyfBridgeMessageVersion0) (.invalidVersion version))
  let roomId := CommunityId.mk (← readArray readSlice roomIdLen)
  raise (rejectIf (roomId = ⟨fillBytes roomIdLen 0⟩) .zeroRoomId)
  let messageId := MessageId.mk (← readArray readSlice messageIdLen)
  raise (rejectIf (messageId = ⟨fillBytes messageIdLen 0⟩) .zeroMessageId)
  let authorKindTag ← readU8 readSlice
  let authorNetworkTag ← readU8 readSlice
  let authorIdLen ← readU8 readSlice
  let authorKind ← raise (decodeAuthorKind authorKindTag authorNetworkTag)
  raise (validateAuthorIdLen authorKind authorIdLen.toNat)
  let authorId ← readSlice authorIdLen.toNat
  let createdAtMs ← readU64 readSlice
  let payloadTag ← readU8 readSlice
  let payloadKind ← raise (decodePayloadKind payloadTag)
  let payloadLen ← readU16 readSlice
  raise (rejectIf (payloadLen.toNat > hyfBridgePayloadMaxLen)
    (.payloadTooLarge payloadLen.toNat hyfBridgePayloadMaxLen))
  let payload ← readSlice payloadLen.toNat
  raise (validatePayload payloadKind payload)
  return {
    version, roomId, messageId, author := ⟨authorKind, authorId⟩, createdAtMs, payloadKind,
    payload }

/-- `decode_bridge_message`. -/
def decodeBridgeMessage (input : List UInt8) : Outcome BridgeError BridgeMessageRef := do
  rejectIf (input.length > hyfBridgeMessageMaxLen)
    (.messageTooLarge input.length hyfBridgeMessageMaxLen)
  CursorM.runOn (do
    let message ← readBridgeMessage
    finish fun cursor => .trailingBytes cursor.input.length cursor.index
    return message) input

/-! ## Encoding -/

/-- `bridge_message_encoded_len`. -/
def bridgeMessageEncodedLen (message : BridgeMessageRef) : Outcome BridgeError ℕ := do
  validateBridgeMessageRef message
  let len := (((checkedAdd fixedPrefixLen message.author.id.length).bind
    fun len => checkedAdd len fixedSuffixLen).bind
    fun len => checkedAdd len message.payload.length).filter fun len => len ≤ hyfBridgeMessageMaxLen
  match len with
  | some len => .ok len
  | none => fail (.messageTooLarge message.payload.length hyfBridgeMessageMaxLen)

/-- The two tags of an author. -/
def writeAuthorKind : BridgeEndpointKind → WriterM BridgeError Unit
  | .hyfNode => do
    writeU8 authorKindHyfNode
    writeU8 hyfAuthorNetworkTag
  | .foreign network => do
    writeU8 authorKindForeign
    writeU8 network.wireTag

/-- The parts of a message, in order. -/
def writeBridgeMessage (message : BridgeMessageRef) : WriterM BridgeError Unit := do
  writeU8 message.version
  writeArray message.roomId.bytes.toList
  writeArray message.messageId.bytes.toList
  writeAuthorKind message.author.kind
  writeU8 (UInt8.ofNat message.author.id.length)
  writeArray message.author.id
  writeU64 message.createdAtMs
  writeU8 message.payloadKind.wireTag
  writeU16 (UInt16.ofNat message.payload.length)
  writeArray message.payload

/-- Encode into `output`: the number of bytes written and the slice afterwards. -/
def encodeBridgeMessage (message : BridgeMessageRef) (output : List UInt8) :
    Outcome BridgeError (ℕ × List UInt8) := do
  let required ← bridgeMessageEncodedLen message
  rejectIf (output.length < required) (.outputTooSmall output.length required)
  let cursor ← WriterM.runOn (writeBridgeMessage message) output
  return (required, cursor.output)

/-! ## Envelopes -/

/-- What an envelope needs beside the message. -/
structure BridgeWrapParams where
  sourceNode : NodeId
  createdAtMs : TimestampMs
  expiresAtMs : TimestampMs
  hopLimit : UInt8
  deriving DecidableEq

/-- `validate_bridge_message`. -/
def validateBridgeMessage (raw : List UInt8) : Outcome BridgeError BridgeMessageRef :=
  decodeBridgeMessage raw

/-- `wrap_bridge_message`. -/
def wrapBridgeMessage (raw : List UInt8) (params : BridgeWrapParams) :
    Outcome BridgeError HyfEnvelopeRef := do
  let message ← validateBridgeMessage raw
  let envelope : HyfEnvelopeRef := {
    version := hyfWireVersion0
    messageId := message.messageId
    source := params.sourceNode
    destination := .community message.roomId
    createdAtMs := params.createdAtMs
    expiresAtMs := params.expiresAtMs
    hopLimit := params.hopLimit
    payloadKind := .hyfBridgeMessageV0
    payload := raw }
  ofResult .hyfWire (validateEnvelope envelope)
  return envelope

/-- `unwrap_bridge_message`. -/
def unwrapBridgeMessage (envelope : HyfEnvelopeRef) : Outcome BridgeError (List UInt8) := do
  ofResult .hyfWire (validateEnvelope envelope)
  rejectIf (envelope.payloadKind ≠ .hyfBridgeMessageV0) (.wrongPayloadKind envelope.payloadKind)
  let message ← validateBridgeMessage envelope.payload
  rejectIf (envelope.messageId ≠ message.messageId) .envelopeMessageIdMismatch
  rejectIf (envelope.destination ≠ .community message.roomId) .envelopeRoomMismatch
  return envelope.payload

/-! ## The layout -/

/-- The two tag bytes of an author. -/
def authorTags : BridgeEndpointKind → List UInt8
  | .hyfNode => [authorKindHyfNode] ++ [hyfAuthorNetworkTag]
  | .foreign network => [authorKindForeign] ++ [network.wireTag]

/-- The bytes of a bridge message, field after field. -/
def messageBytes (message : BridgeMessageRef) : List UInt8 :=
  [message.version] ++ message.roomId.bytes.toList ++ message.messageId.bytes.toList ++
    authorTags message.author.kind ++ [UInt8.ofNat message.author.id.length] ++ message.author.id ++
    toBe u64Len message.createdAtMs.toNat ++ [message.payloadKind.wireTag] ++
    toBe u16Len (UInt16.ofNat message.payload.length).toNat ++ message.payload

end Hyf.Bridge
