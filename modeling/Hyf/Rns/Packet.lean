import Hyf.Common.BufferM
import Hyf.Wire.Envelope

/-!
# RNS packets as envelope payloads (`hyf_rns_wire`, `hyf_link_rns`)

A raw RNS packet starts with a flags byte and a hop count, followed by one or two truncated hashes and
a context byte. The link checks that the bytes are a packet before it wraps them into an envelope, and
again when it unwraps them.
-/

namespace Hyf.Rns

open ByteCodec BufferM

def rnsMtu : ℕ := 500
def rnsTruncatedHashLen : ℕ := 16
def rnsHeader1Len : ℕ := 19
def rnsHeader2Len : ℕ := 35

/-- The errors of the wire format. -/
inductive RnsWireError where
  | unsupportedPacketAccessCode
  | invalidFlags
  | invalidHeaderType
  | invalidTransportType
  | invalidDestinationType
  | invalidPacketType
  | packetTooShort (actual minimum : ℕ)
  | packetTooLarge (actual maximum : ℕ)
  | missingTransportId
  | unexpectedTransportId
  | outputBufferTooShort (actual required : ℕ)
  | malformedAnnounce
  | invalidPublicIdentity
  | invalidSignature
  | cryptoFailed
  | invalidIfacSize (actual maximum : ℕ)
  | invalidIfacKey
  | missingPacketAccessCode
  | invalidPacketAccessCode
  | destinationMismatch
  | timestampOverflow
  | randomSourceFailed
  | invalidDestinationName
  deriving DecidableEq

/-! ## Flags -/

/-- Whether a packet has one address or two. -/
inductive RnsHeaderType where
  | header1
  | header2
  deriving DecidableEq

/-- `to_bits`. -/
def RnsHeaderType.toBits : RnsHeaderType → UInt8
  | header1 => 0
  | header2 => 1

/-- `from_bits`. -/
def RnsHeaderType.fromBits (bits : UInt8) : Except RnsWireError RnsHeaderType :=
  if bits = 0 then .ok header1 else if bits = 1 then .ok header2 else .error .invalidHeaderType

/-- How a packet is carried. -/
inductive RnsTransportType where
  | broadcast
  | transport
  deriving DecidableEq

/-- `to_bits`. -/
def RnsTransportType.toBits : RnsTransportType → UInt8
  | broadcast => 0
  | transport => 1

/-- `from_bits`. -/
def RnsTransportType.fromBits (bits : UInt8) : Except RnsWireError RnsTransportType :=
  if bits = 0 then .ok broadcast else if bits = 1 then .ok transport
  else .error .invalidTransportType

/-- What a packet is addressed to. -/
inductive RnsDestinationType where
  | single
  | group
  | plain
  | link
  deriving DecidableEq

/-- `to_bits`. -/
def RnsDestinationType.toBits : RnsDestinationType → UInt8
  | single => 0
  | group => 1
  | plain => 2
  | link => 3

/-- `from_bits`. -/
def RnsDestinationType.fromBits (bits : UInt8) : Except RnsWireError RnsDestinationType :=
  if bits = 0 then .ok single else if bits = 1 then .ok group
  else if bits = 2 then .ok plain else if bits = 3 then .ok link
  else .error .invalidDestinationType

/-- What a packet is for. -/
inductive RnsPacketType where
  | data
  | announce
  | linkRequest
  | proof
  deriving DecidableEq

/-- `to_bits`. -/
def RnsPacketType.toBits : RnsPacketType → UInt8
  | data => 0
  | announce => 1
  | linkRequest => 2
  | proof => 3

/-- `from_bits`. -/
def RnsPacketType.fromBits (bits : UInt8) : Except RnsWireError RnsPacketType :=
  if bits = 0 then .ok data else if bits = 1 then .ok announce
  else if bits = 2 then .ok linkRequest else if bits = 3 then .ok proof
  else .error .invalidPacketType

/-- The five fields of the first byte. -/
structure RnsPacketFlags where
  headerType : RnsHeaderType
  contextFlag : Bool
  transportType : RnsTransportType
  destinationType : RnsDestinationType
  packetType : RnsPacketType
  deriving DecidableEq

/-- `encode_flags`. -/
def encodeFlags (flags : RnsPacketFlags) : UInt8 :=
  (flags.headerType.toBits <<< 6) ||| (flags.contextFlag.toUInt8 <<< 5) |||
    (flags.transportType.toBits <<< 4) ||| (flags.destinationType.toBits <<< 2) |||
    flags.packetType.toBits

/-- `decode_flags`: a set top bit means an access code, which is not handled here. -/
def decodeFlags (byte : UInt8) : Except RnsWireError RnsPacketFlags := do
  if byte &&& 0x80 ≠ 0 then
    throw .unsupportedPacketAccessCode
  return {
    headerType := ← RnsHeaderType.fromBits ((byte &&& 0x40) >>> 6)
    contextFlag := byte &&& 0x20 ≠ 0
    transportType := ← RnsTransportType.fromBits ((byte &&& 0x10) >>> 4)
    destinationType := ← RnsDestinationType.fromBits ((byte &&& 0x0c) >>> 2)
    packetType := ← RnsPacketType.fromBits (byte &&& 0x03) }

/-! ## Packets -/

/-- A packet over its bytes. -/
structure RnsPacket where
  flags : RnsPacketFlags
  hops : UInt8
  transportId : Option (ByteArrayN rnsTruncatedHashLen)
  destinationHash : ByteArrayN rnsTruncatedHashLen
  context : UInt8
  data : List UInt8
  deriving DecidableEq

/-- The length of the header, with the context byte. -/
def headerLen : RnsHeaderType → ℕ
  | .header1 => rnsHeader1Len
  | .header2 => rnsHeader2Len

/-- `read_truncated_hash` at an offset that is in bounds. -/
def readTruncatedHash (input : List UInt8) (start : ℕ)
    (h : start + rnsTruncatedHashLen ≤ input.length) : ByteArrayN rnsTruncatedHashLen :=
  ⟨(input.drop start).take rnsTruncatedHashLen, by
    rw [List.length_take, List.length_drop]
    omega⟩

/-- A packet with one address. The length has been checked. -/
def decodeHeader1Packet (input : List UInt8) (flags : RnsPacketFlags)
    (h : rnsHeader1Len ≤ input.length) : RnsPacket :=
  have hlen : 19 ≤ input.length := h
  { flags := flags
    hops := input[1]
    transportId := none
    destinationHash := readTruncatedHash input 2 (by rw [rnsTruncatedHashLen]; omega)
    context := input[18]
    data := input.drop 19 }

/-- A packet with a transport address in front of the destination. -/
def decodeHeader2Packet (input : List UInt8) (flags : RnsPacketFlags)
    (h : rnsHeader2Len ≤ input.length) : RnsPacket :=
  have hlen : 35 ≤ input.length := h
  { flags := flags
    hops := input[1]
    transportId := some (readTruncatedHash input 2 (by rw [rnsTruncatedHashLen]; omega))
    destinationHash := readTruncatedHash input 18 (by rw [rnsTruncatedHashLen]; omega)
    context := input[34]
    data := input.drop 35 }

/-- `decode_packet`. -/
def decodePacket (input : List UInt8) : Except RnsWireError RnsPacket :=
  if input.length > rnsMtu then .error (.packetTooLarge input.length rnsMtu)
  else match input with
    | [] => .error (.packetTooShort 0 1)
    | first :: rest => do
      let flags ← decodeFlags first
      let input := first :: rest
      match flags.headerType with
      | .header1 =>
        if h : rnsHeader1Len ≤ input.length then return decodeHeader1Packet input flags h
        else throw (.packetTooShort input.length rnsHeader1Len)
      | .header2 =>
        if h : rnsHeader2Len ≤ input.length then return decodeHeader2Packet input flags h
        else throw (.packetTooShort input.length rnsHeader2Len)

/-- `encoded_len`. -/
def encodedLen (packet : RnsPacket) : Except RnsWireError ℕ :=
  match checkedAdd (headerLen packet.flags.headerType) packet.data.length with
  | none => .error (.packetTooLarge packet.data.length rnsMtu)
  | some required =>
    if required > rnsMtu then .error (.packetTooLarge required rnsMtu) else .ok required

/-- `validate_transport_id`: there is one exactly for two addresses. -/
def validateTransportId (packet : RnsPacket) :
    Except RnsWireError (Option (ByteArrayN rnsTruncatedHashLen)) :=
  match packet.flags.headerType, packet.transportId with
  | .header1, none => .ok none
  | .header2, some transportId => .ok (some transportId)
  | .header1, some _ => .error .unexpectedTransportId
  | .header2, none => .error .missingTransportId

/-- The parts of a packet with one address, in order. -/
def encodeHeader1Packet (packet : RnsPacket) : BufferM RnsWireError Unit := do
  copyInto 2 18 packet.destinationHash.toList
  setByte 18 packet.context
  copyInto 19 (19 + packet.data.length) packet.data

/-- The parts of a packet with two addresses, in order. -/
def encodeHeader2Packet (packet : RnsPacket) (transportId : ByteArrayN rnsTruncatedHashLen) :
    BufferM RnsWireError Unit := do
  copyInto 2 18 transportId.toList
  copyInto 18 34 packet.destinationHash.toList
  setByte 34 packet.context
  copyInto 35 (35 + packet.data.length) packet.data

/-- The part of `encode_packet` that writes, after its checks. -/
def writePacket (packet : RnsPacket) (transportId : Option (ByteArrayN rnsTruncatedHashLen)) :
    BufferM RnsWireError Unit := do
  setByte 0 (encodeFlags packet.flags)
  setByte 1 packet.hops
  match packet.flags.headerType, transportId with
  | .header1, _ => encodeHeader1Packet packet
  | .header2, none => (fail .missingTransportId).lift
  | .header2, some transportId => encodeHeader2Packet packet transportId

/-- `encode_packet`. -/
def encodePacket (packet : RnsPacket) : BufferM RnsWireError ℕ := do
  let required ← (ofResult id (encodedLen packet)).lift
  let output ← get
  (rejectIf (output.length < required) (.outputBufferTooShort output.length required)).lift
  let transportId ← (ofResult id (validateTransportId packet)).lift
  writePacket packet transportId
  return required

/-! ## Packets in envelopes -/

/-- The errors of the carrier. -/
inductive HyfLinkRnsError where
  | rnsWire (error : RnsWireError)
  | hyfWire (error : HyfWireError)
  | notForeignRnsPacket
  deriving DecidableEq

/-- The bytes of a packet that was checked. -/
structure RnsPacketRef where
  raw : List UInt8
  destinationHash : ByteArrayN 16
  deriving DecidableEq

/-- `validate_rns_packet`. -/
def validateRnsPacket (raw : List UInt8) : Except HyfLinkRnsError RnsPacketRef := do
  let packet ← (decodePacket raw).mapError .rnsWire
  return ⟨raw, packet.destinationHash⟩

/-- What an envelope needs beside the packet. -/
structure RnsWrapParams where
  sourceNode : NodeId
  destination : HyfDestination
  createdAtMs : TimestampMs
  expiresAtMs : TimestampMs
  hopLimit : UInt8
  messageId : MessageId
  deriving DecidableEq

/-- `wrap_rns_packet`. -/
def wrapRnsPacket (packet : RnsPacketRef) (params : RnsWrapParams) :
    Except HyfLinkRnsError HyfEnvelopeRef := do
  let _ ← validateRnsPacket packet.raw
  let envelope : HyfEnvelopeRef := {
    version := hyfWireVersion0
    messageId := params.messageId
    source := params.sourceNode
    destination := params.destination
    createdAtMs := params.createdAtMs
    expiresAtMs := params.expiresAtMs
    hopLimit := params.hopLimit
    payloadKind := .foreignRnsPacket
    payload := packet.raw }
  (validateEnvelope envelope).mapError .hyfWire
  return envelope

/-- `unwrap_rns_packet`. -/
def unwrapRnsPacket (envelope : HyfEnvelopeRef) : Except HyfLinkRnsError (List UInt8) := do
  (validateEnvelope envelope).mapError .hyfWire
  if envelope.payloadKind ≠ .foreignRnsPacket then
    throw .notForeignRnsPacket
  let packet ← validateRnsPacket envelope.payload
  return packet.raw

end Hyf.Rns
