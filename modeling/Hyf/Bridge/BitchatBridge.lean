import Hyf.Bridge.MessageTheorems
import Hyf.Bitchat.PacketTheorems

/-!
# The BitChat bridge (`hyf_bridge_bitchat`)

A public BitChat packet is a version 2 packet of type 2 without flags: no recipient, no route, no
signature, not compressed. Only these cross the bridge. The ingress check looks at flags and fields
both, so the accepted packets are exactly those that the egress builds (`publicPacket`), and the two
conversions are inverse to each other.
-/

namespace Hyf.BitchatBridge

open ByteCodec Bridge Bitchat

def bitchatBridgePacketTypePublicMessage : UInt8 := 0x02

def bitchatBridgePacketMaxLen : ℕ := bitchatCorePacketMaxLen

/-- What the bridge adds to a packet on its way in. -/
structure BitchatBridgeIngressParams where
  roomId : CommunityId
  messageId : MessageId
  deriving DecidableEq

/-- What the bridge adds to a message on its way out. -/
structure BitchatBridgeEgressParams where
  senderId : BitchatPeerId
  ttl : UInt8
  deriving DecidableEq

/-- The errors of the two conversions. -/
inductive BitchatBridgeError where
  | bitchat (error : BitchatError)
  | bridge (error : BridgeError)
  | unsupportedVersion (version : BitchatVersion)
  | unsupportedPacketType (packetType : UInt8)
  | signedPacket
  | compressedPacket
  | directedPacket
  | routedPacket
  | rsrPacket
  | emptyPayload
  | invalidPayloadUtf8
  | timestampZero
  | unsupportedBridgePayloadKind (kind : BridgePayloadKind)
  deriving DecidableEq

/-- A packet on its way in, with what it is converted to. -/
structure BitchatBridgeIngress where
  packet : BitchatPacketRef
  params : BitchatBridgeIngressParams
  senderId : ByteArrayN 8
  payload : List UInt8
  deriving DecidableEq

namespace BitchatBridgeIngress

def ingressMeta (_ingress : BitchatBridgeIngress) : BridgeIngressMeta := ⟨.bitChat, .unverified⟩

/-- `bridge_message`: the text with its author and its room. -/
def bridgeMessage (ingress : BitchatBridgeIngress) : BridgeMessageRef where
  version := hyfBridgeMessageVersion0
  roomId := ingress.params.roomId
  messageId := ingress.params.messageId
  author := ⟨.foreign .bitChat, ingress.senderId.toList⟩
  createdAtMs := ingress.packet.timestamp
  payloadKind := .textUtf8
  payload := ingress.payload

end BitchatBridgeIngress

/-- `validate_ingress_packet`: only plain packets to everybody pass. -/
def validateIngressPacket (packet : BitchatPacketRef) : Outcome BitchatBridgeError Unit := do
  rejectIf (packet.version ≠ .v2) (.unsupportedVersion packet.version)
  rejectIf (packet.packetType ≠ bitchatBridgePacketTypePublicMessage)
    (.unsupportedPacketType packet.packetType)
  rejectIf (packet.flags.hasSignature ∨ packet.signature.isSome) .signedPacket
  rejectIf (packet.flags.isCompressed ∨ packet.payload.isCompressed) .compressedPacket
  rejectIf (packet.flags.hasRecipient ∨ packet.recipientId.isSome) .directedPacket
  rejectIf (packet.flags.hasRoute ∨ packet.route.isSome) .routedPacket
  rejectIf packet.flags.isRsr .rsrPacket
  rejectIf (packet.timestamp = 0) .timestampZero

/-- `bitchat_packet_to_bridge_message`. -/
def bitchatPacketToBridgeMessage (raw : List UInt8) (params : BitchatBridgeIngressParams) :
    Outcome BitchatBridgeError BitchatBridgeIngress := do
  let packet ← (decodeBitchatPacket raw).convert .bitchat
  validateIngressPacket packet
  match packet.payload with
  | .compressed _ _ => fail .compressedPacket
  | .plain payload => do
    rejectIf (payload = []) .emptyPayload
    rejectIf (isUtf8 payload = false) .invalidPayloadUtf8
    return { packet, params, senderId := packet.senderId.bytes, payload }

/-- `validate_egress_message`: what a packet can say. -/
def validateEgressMessage (message : BridgeMessageRef) : Outcome BitchatBridgeError Unit := do
  rejectIf (message.payloadKind ≠ .textUtf8) (.unsupportedBridgePayloadKind message.payloadKind)
  rejectIf (message.payload = []) .emptyPayload
  rejectIf (isUtf8 message.payload = false) .invalidPayloadUtf8
  rejectIf (message.createdAtMs = 0) .timestampZero
  let _ ← (bridgeMessageEncodedLen message).convert .bridge
  return ()

/-- The packet that the egress builds for a message. -/
def publicPacket (message : BridgeMessageRef) (params : BitchatBridgeEgressParams) :
    BitchatPacketRef where
  version := .v2
  packetType := bitchatBridgePacketTypePublicMessage
  ttl := params.ttl
  timestamp := message.createdAtMs
  flags := BitchatFlags.empty
  senderId := params.senderId
  recipientId := none
  route := none
  payload := .plain message.payload
  signature := none

/-- `bridge_message_to_bitchat_packet_v2`. -/
def bridgeMessageToBitchatPacketV2 (message : BridgeMessageRef)
    (params : BitchatBridgeEgressParams) (output : List UInt8) :
    Outcome BitchatBridgeError (ℕ × List UInt8) := do
  validateEgressMessage message
  (encodeBitchatPacketV2 (publicPacket message params) output).convert .bitchat

/-! ## What the checks establish -/

/-- A packet without flags and optional fields. -/
structure PublicPacket (packet : BitchatPacketRef) : Prop where
  version_eq : packet.version = .v2
  packetType_eq : packet.packetType = bitchatBridgePacketTypePublicMessage
  flags_eq : packet.flags = BitchatFlags.empty
  recipient_eq : packet.recipientId = none
  route_eq : packet.route = none
  signature_eq : packet.signature = none
  timestamp_ne : packet.timestamp ≠ 0

/-- A message that the egress accepts. -/
structure EgressMessage (message : BridgeMessageRef) : Prop where
  valid : ValidMessage message
  payloadKind_eq : message.payloadKind = .textUtf8
  payload_ne : message.payload ≠ []
  createdAtMs_ne : message.createdAtMs ≠ 0

/-- What passes is a public packet. -/
theorem ends_validateIngressPacket (packet : BitchatPacketRef) :
    Ends (validateIngressPacket packet) fun _ => PublicPacket packet := by
  refine (ends_rejectIf _ _).bind fun _ hversion => ?_
  refine (ends_rejectIf _ _).bind fun _ htype => ?_
  refine (ends_rejectIf _ _).bind fun _ hsignature => ?_
  refine (ends_rejectIf _ _).bind fun _ hcompressed => ?_
  refine (ends_rejectIf _ _).bind fun _ hrecipient => ?_
  refine (ends_rejectIf _ _).bind fun _ hroute => ?_
  refine (ends_rejectIf _ _).bind fun _ hrsr => ?_
  refine (ends_rejectIf _ _).mono fun _ htimestamp => ?_
  simp only [not_or, Bool.not_eq_true, Option.isSome_eq_false_iff, Option.isNone_iff_eq_none]
    at hsignature hcompressed hrecipient hroute hrsr
  have hflags : packet.flags = BitchatFlags.empty := by
    obtain ⟨version, packetType, ttl, timestamp, flags, senderId, recipientId, route, payload,
      signature⟩ := packet
    obtain ⟨_, _, _, _, _⟩ := flags
    simp only at hsignature hcompressed hrecipient hroute hrsr
    rw [hsignature.1, hcompressed.1, hrecipient.1, hroute.1, hrsr]
    rfl
  exact ⟨not_not.mp hversion, not_not.mp htype, hflags, hrecipient.2, hroute.2, hsignature.2,
    htimestamp⟩

/-- A public packet that is not compressed passes. -/
theorem validateIngressPacket_eq_ok {packet : BitchatPacketRef} (h : PublicPacket packet)
    (hplain : packet.payload.isCompressed = false) : validateIngressPacket packet = .ok () := by
  have hflags := h.flags_eq
  rw [validateIngressPacket, Outcome.bind_eq (rejectIf_eq_ok (not_not.mpr h.version_eq)),
    Outcome.bind_eq (rejectIf_eq_ok (not_not.mpr h.packetType_eq)),
    Outcome.bind_eq (rejectIf_eq_ok (by simp [hflags, h.signature_eq, BitchatFlags.empty])),
    Outcome.bind_eq (rejectIf_eq_ok (by simp [hflags, hplain, BitchatFlags.empty])),
    Outcome.bind_eq (rejectIf_eq_ok (by simp [hflags, h.recipient_eq, BitchatFlags.empty])),
    Outcome.bind_eq (rejectIf_eq_ok (by simp [hflags, h.route_eq, BitchatFlags.empty])),
    Outcome.bind_eq (rejectIf_eq_ok (by simp [hflags, BitchatFlags.empty]))]
  exact rejectIf_eq_ok h.timestamp_ne

/-- What is converted is a public packet with a text. -/
theorem ends_bitchatPacketToBridgeMessage (raw : List UInt8) (params : BitchatBridgeIngressParams) :
    Ends (bitchatPacketToBridgeMessage raw params) fun ingress =>
      decodeBitchatPacket raw = .ok ingress.packet ∧ ingress.params = params ∧
      ingress.senderId = ingress.packet.senderId.bytes ∧ PublicPacket ingress.packet ∧
      ingress.packet.payload = .plain ingress.payload ∧ ingress.payload ≠ [] ∧
      isUtf8 ingress.payload = true := by
  apply ((ends_decodeBitchatPacket raw).with_eq.convert _).bind
  rintro packet ⟨-, hdecode⟩
  refine (ends_validateIngressPacket packet).bind fun _ hpublic => ?_
  cases hpayload : packet.payload with
  | compressed originalLen body => exact trivial
  | plain payload =>
    refine (ends_rejectIf _ _).bind fun _ hempty => ?_
    refine (ends_rejectIf _ _).bind fun _ hutf8 => ?_
    rw [Bool.not_eq_false] at hutf8
    exact ⟨hdecode, rfl, rfl, hpublic, hpayload, hempty, hutf8⟩

/-- What passes can be said by a packet. -/
theorem ends_validateEgressMessage (message : BridgeMessageRef) :
    Ends (validateEgressMessage message) fun _ => EgressMessage message := by
  refine (ends_rejectIf _ _).bind fun _ hkind => ?_
  refine (ends_rejectIf _ _).bind fun _ hempty => ?_
  refine (ends_rejectIf _ _).bind fun _ _ => ?_
  refine (ends_rejectIf _ _).bind fun _ htimestamp => ?_
  apply ((ends_bridgeMessageEncodedLen message).convert _).bind
  rintro _ ⟨hvalid, -⟩
  exact ⟨hvalid, not_not.mp hkind, hempty, htimestamp⟩

/-- What can be said by a packet passes. -/
theorem validateEgressMessage_eq_ok {message : BridgeMessageRef} (h : EgressMessage message) :
    validateEgressMessage message = .ok () := by
  have hutf8 := h.valid.payload_utf8 h.payloadKind_eq
  have hlen : (bridgeMessageEncodedLen message).convert BitchatBridgeError.bridge =
      .ok (messageBytes message).length := by
    rw [bridgeMessageEncodedLen_eq h.valid]
    rfl
  rw [validateEgressMessage, Outcome.bind_eq (rejectIf_eq_ok (not_not.mpr h.payloadKind_eq)),
    Outcome.bind_eq (rejectIf_eq_ok h.payload_ne), Outcome.bind_eq (rejectIf_eq_ok (by simp [hutf8])),
    Outcome.bind_eq (rejectIf_eq_ok h.createdAtMs_ne), Outcome.bind_eq hlen]
  rfl

/-! ## Both directions -/

/-- The packet that the egress builds is encoded with the flags it has. -/
theorem canonicalPacket_publicPacket (message : BridgeMessageRef)
    (params : BitchatBridgeEgressParams) :
    canonicalPacket (publicPacket message params) = publicPacket message params := rfl

/-- The packet that is written for a message is public. -/
theorem public_publicPacket {message : BridgeMessageRef} (params : BitchatBridgeEgressParams)
    (h : message.createdAtMs ≠ 0) : PublicPacket (publicPacket message params) where
  version_eq := rfl
  packetType_eq := rfl
  flags_eq := rfl
  recipient_eq := rfl
  route_eq := rfl
  signature_eq := rfl
  timestamp_ne := h

/-- A public packet is the one that the egress builds for its message. -/
theorem PublicPacket.eq_publicPacket {packet : BitchatPacketRef} (h : PublicPacket packet)
    {message : BridgeMessageRef} (htimestamp : message.createdAtMs = packet.timestamp)
    (hpayload : packet.payload = .plain message.payload) :
    packet = publicPacket message ⟨packet.senderId, packet.ttl⟩ := by
  obtain ⟨version, packetType, ttl, timestamp, flags, senderId, recipientId, route, payload,
    signature⟩ := packet
  obtain ⟨rfl, rfl, rfl, rfl, rfl, rfl, -⟩ := h
  simp only at htimestamp hpayload
  rw [publicPacket, htimestamp, hpayload]

/-- The ingress accepts the encoding of a public packet with a text. -/
theorem bitchatPacketToBridgeMessage_eq_ok {raw payload : List UInt8} {packet : BitchatPacketRef}
    (hdecode : decodeBitchatPacket raw = .ok packet) (h : PublicPacket packet)
    (hpayload : packet.payload = .plain payload) (hempty : payload ≠ [])
    (hutf8 : isUtf8 payload = true) (params : BitchatBridgeIngressParams) :
    bitchatPacketToBridgeMessage raw params =
      .ok { packet, params, senderId := packet.senderId.bytes, payload } := by
  have hconvert : (decodeBitchatPacket raw).convert BitchatBridgeError.bitchat = .ok packet := by
    rw [hdecode]
    rfl
  rw [bitchatPacketToBridgeMessage, Outcome.bind_eq hconvert,
    Outcome.bind_eq (validateIngressPacket_eq_ok h (by rw [hpayload]; rfl)), hpayload]
  simp only
  rw [Outcome.bind_eq (rejectIf_eq_ok hempty), Outcome.bind_eq (rejectIf_eq_ok (by simp [hutf8]))]
  rfl

/-- What the egress writes decodes to the packet it built. -/
theorem ends_bridgeMessageToBitchatPacketV2 (message : BridgeMessageRef)
    (params : BitchatBridgeEgressParams) (output : List UInt8) :
    Ends (bridgeMessageToBitchatPacketV2 message params output) fun written =>
      EgressMessage message ∧ written.1 ≤ written.2.length ∧
      decodeBitchatPacket (written.2.take written.1) = .ok (publicPacket message params) := by
  refine (ends_validateEgressMessage message).bind fun _ hegress => ?_
  apply ((ends_encodeBitchatPacketV2 _ output).convert _).mono
  rintro _ ⟨⟨payload, hencodable⟩, rfl⟩
  refine ⟨hegress, ?_, ?_⟩
  · rw [List.length_append]
    exact Nat.le_add_right _ _
  · rw [List.take_left]
    exact decodeBitchatPacket_packetBytes hencodable.validPacket hencodable.length_le

/-- The egress writes back the packet that a message came from. -/
theorem bridgeMessageToBitchatPacketV2_eq {raw : List UInt8} {message : BridgeMessageRef}
    {params : BitchatBridgeEgressParams} (hegress : EgressMessage message)
    (hdecode : decodeBitchatPacket raw = .ok (publicPacket message params)) {output : List UInt8}
    (hroom : raw.length ≤ output.length) :
    bridgeMessageToBitchatPacketV2 message params output =
      .ok (raw.length, raw ++ output.drop raw.length) := by
  obtain ⟨hvalid, rfl, hlen⟩ := (ends_decodeBitchatPacket raw).of_ok hdecode
  obtain ⟨hcanonical, payload, hencodable⟩ := hvalid.encodable rfl rfl hlen
  have hencode := encodeBitchatPacketV2_eq hencodable (hcanonical.symm ▸ hroom)
  rw [hcanonical] at hencode
  rw [bridgeMessageToBitchatPacketV2, Outcome.bind_eq (validateEgressMessage_eq_ok hegress), hencode]
  rfl

/-- A text that a bridge message can carry fits into a packet. -/
theorem EgressMessage.encodable {message : BridgeMessageRef} (h : EgressMessage message)
    (params : BitchatBridgeEgressParams) :
    EncodablePacket (publicPacket message params) message.payload where
  version_eq := rfl
  payload_eq := rfl
  payload_length := h.valid.payload_length.trans (by decide)
  route_valid := nofun
  length_le := by
    have hpayload := h.valid.payload_length
    have hlen := @length_canonicalPacket (publicPacket message params) _ rfl rfl
    have hparts : bitchatV2HeaderLen + bitchatPeerIdLen = 24 := rfl
    have hroute : (optionalBytes routeBytes (publicPacket message params).route).length = 0 := rfl
    rw [hyfBridgePayloadMaxLen] at hpayload
    rw [hlen, hparts, hroute, publicPacket, bitchatCorePacketMaxLen]
    simp only [Option.isSome_none, Bool.false_eq_true, if_false]
    omega

/-- A buffer of the size of a packet has room for every text. -/
theorem exists_bridgeMessageToBitchatPacketV2 {message : BridgeMessageRef} (h : EgressMessage message)
    (params : BitchatBridgeEgressParams) {output : List UInt8}
    (hroom : output.length = bitchatBridgePacketMaxLen) : ∃ len written,
      bridgeMessageToBitchatPacketV2 message params output = .ok (len, written) ∧
      written.length = output.length := by
  have hencodable := h.encodable params
  have hfits : (packetBytes (canonicalPacket (publicPacket message params))).length ≤ output.length :=
    hroom.symm ▸ hencodable.length_le
  have hencode := encodeBitchatPacketV2_eq hencodable hfits
  rw [bridgeMessageToBitchatPacketV2, Outcome.bind_eq (validateEgressMessage_eq_ok h)]
  refine ⟨_, _, Outcome.convert_eq hencode _, ?_⟩
  rw [List.length_append, List.length_drop]
  exact Nat.add_sub_cancel' hfits

/-- **The BitChat bridge is a round trip.** The packet that the egress writes is accepted with every
room and message id, and the message has the payload, the kind and the time it had, and the sender
as its author; and an accepted packet, given a room, an id and a payload that a bridge message can
carry, is written back byte for byte. -/
theorem bitchatBridge_roundtrip :
    (∀ message params output len written,
      bridgeMessageToBitchatPacketV2 message params output = .ok (len, written) →
      ∀ ingressParams, ∃ ingress,
        bitchatPacketToBridgeMessage (written.take len) ingressParams = .ok ingress ∧
        ingress.bridgeMessage = { message with
          version := hyfBridgeMessageVersion0
          roomId := ingressParams.roomId
          messageId := ingressParams.messageId
          author := ⟨.foreign .bitChat, params.senderId.bytes.toList⟩ }) ∧
    ∀ raw params ingress, bitchatPacketToBridgeMessage raw params = .ok ingress →
      params.roomId ≠ ⟨fillBytes 16 0⟩ → params.messageId ≠ ⟨fillBytes 32 0⟩ →
      ingress.bridgeMessage.payload.length ≤ hyfBridgePayloadMaxLen →
      (∃ len, bridgeMessageEncodedLen ingress.bridgeMessage = .ok len ∧
        ∀ output : List UInt8, len ≤ output.length → ∃ written,
          encodeBridgeMessage ingress.bridgeMessage output = .ok (len, written)) ∧
      ∀ output : List UInt8, raw.length ≤ output.length →
        bridgeMessageToBitchatPacketV2 ingress.bridgeMessage
          ⟨ingress.packet.senderId, ingress.packet.ttl⟩ output =
          .ok (raw.length, raw ++ output.drop raw.length) := by
  constructor
  · intro message params output len written hegress ingressParams
    obtain ⟨haccepted, -, hdecode⟩ :=
      (ends_bridgeMessageToBitchatPacketV2 message params output).of_ok hegress
    have hutf8 := haccepted.valid.payload_utf8 haccepted.payloadKind_eq
    refine ⟨_, bitchatPacketToBridgeMessage_eq_ok hdecode
      (public_publicPacket params haccepted.createdAtMs_ne) rfl haccepted.payload_ne hutf8
      ingressParams, ?_⟩
    rw [BitchatBridgeIngress.bridgeMessage, haccepted.payloadKind_eq]
    rfl
  · intro raw params ingress hingress hroom hid hlength
    -- the profile leaves nothing in the packet that the message and the parameters do not determine
    obtain ⟨hdecode, rfl, hsender, hpublic, hpayload, hempty, hutf8⟩ :=
      (ends_bitchatPacketToBridgeMessage raw params).of_ok hingress
    have hvalid : ValidMessage ingress.bridgeMessage :=
      ⟨rfl, hroom, hid, by simp [BitchatBridgeIngress.bridgeMessage, expectedAuthorIdLen,
        hyfBridgeBitchatAuthorIdLen], hlength, fun _ => hutf8⟩
    have hegress : EgressMessage ingress.bridgeMessage :=
      ⟨hvalid, rfl, hempty, hpublic.timestamp_ne⟩
    refine ⟨⟨_, bridgeMessageEncodedLen_eq hvalid, fun output hfits =>
      ⟨_, encodeBridgeMessage_eq hvalid hfits⟩⟩, fun output hfits => ?_⟩
    refine bridgeMessageToBitchatPacketV2_eq hegress ?_ hfits
    rw [hdecode]
    exact congrArg Except.ok (hpublic.eq_publicPacket rfl hpayload)

/-- The sample can be said by a packet. -/
theorem egressMessage_sampleMessage : EgressMessage sampleMessage where
  valid := validMessage_sampleMessage
  payloadKind_eq := rfl
  payload_ne := by decide
  createdAtMs_ne := by decide

/-- The sample message crosses the bridge both ways. -/
theorem bitchatBridge_sampleMessage : ∃ raw ingress,
    bitchatPacketToBridgeMessage raw ⟨⟨fillBytes 16 1⟩, ⟨fillBytes 32 2⟩⟩ = .ok ingress ∧
    ingress.bridgeMessage = sampleMessage ∧
    bridgeMessageToBitchatPacketV2 ingress.bridgeMessage
      ⟨ingress.packet.senderId, ingress.packet.ttl⟩ raw = .ok (raw.length, raw) := by
  have hencodable := egressMessage_sampleMessage.encodable ⟨⟨fillBytes 8 4⟩, 7⟩
  have hdecode := decodeBitchatPacket_packetBytes hencodable.validPacket hencodable.length_le
  rw [canonicalPacket_publicPacket] at hdecode
  have hegress := bridgeMessageToBitchatPacketV2_eq egressMessage_sampleMessage hdecode
    (le_refl (packetBytes _).length)
  rw [List.drop_length, List.append_nil] at hegress
  obtain ⟨ingress, hingress, hmessage⟩ := bitchatBridge_roundtrip.1 _ _ _ _ _ hegress
    ⟨⟨fillBytes 16 1⟩, ⟨fillBytes 32 2⟩⟩
  rw [List.take_length] at hingress
  have hsame : ingress.bridgeMessage = sampleMessage := hmessage.trans (by decide)
  have hback := (bitchatBridge_roundtrip.2 _ _ _ hingress (by decide) (by decide)
    (by rw [hsame]; exact validMessage_sampleMessage.payload_length)).2 _ le_rfl
  rw [List.drop_length, List.append_nil] at hback
  exact ⟨_, ingress, hingress, hsame, hback⟩

end Hyf.BitchatBridge
