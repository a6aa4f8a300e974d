import Hyf.Bitchat.PacketTheorems
import Hyf.Bridge.MessageTheorems
import Hyf.Config.Config
import Hyf.Lxmf.SignatureTheorems
import Hyf.Rns.Packet

/-!
# Packets in envelopes (`hyf_link_bitchat`, `hyf_link_lxmf`, `hyf_link_rns`, `hyf_bridge_core`)

Each carrier checks a packet of its network, puts its bytes into an envelope and checks that; taking it out
makes the same checks again. `Carrier.wrap` and `Carrier.unwrap` are the two functions for any carrier. An
envelope is taken apart exactly if the same carrier could have made it, but the LXMF carrier, which
addresses an envelope to the destination of its message, does not look at that again
(`unwraps_iff_wrapped`).
-/

namespace Hyf

open ByteCodec

namespace Carrier

variable {δ ρ : Type}

/-- A packet that is valid becomes the payload of an envelope that is valid. -/
def wrap (wire : HyfWireError → δ) (validate : List UInt8 → Except δ ρ) (envelope : ρ → HyfEnvelopeRef)
    (raw : List UInt8) : Except δ HyfEnvelopeRef := do
  let message ← validate raw
  (validateEnvelope (envelope message)).mapError wire
  return envelope message

/-- `check` is what a carrier compares between the envelope and its message. -/
def unwrap (wire : HyfWireError → δ) (kind : PayloadKind) (wrongKind : PayloadKind → δ)
    (validate : List UInt8 → Except δ ρ) (check : HyfEnvelopeRef → ρ → Except δ Unit)
    (envelope : HyfEnvelopeRef) : Except δ (List UInt8) := do
  (validateEnvelope envelope).mapError wire
  if envelope.payloadKind ≠ kind then
    throw (wrongKind envelope.payloadKind)
  let message ← validate envelope.payload
  check envelope message
  return envelope.payload

variable {wire : HyfWireError → δ} {kind : PayloadKind} {wrongKind : PayloadKind → δ}
  {validate : List UInt8 → Except δ ρ}

/-- The check passes for valid envelopes. -/
theorem mapError_validateEnvelope_eq_ok_iff {envelope : HyfEnvelopeRef} :
    (validateEnvelope envelope).mapError wire = .ok () ↔ ValidEnvelope envelope := by
  rw [ValidEnvelope]
  cases validateEnvelope envelope with
  | ok value => exact ⟨fun _ => rfl, fun _ => rfl⟩
  | error error =>
    constructor
    · intro h
      cases h
    · intro h
      cases h

/-- Exactly valid packets are wrapped, if the envelope is valid. -/
theorem wrap_eq_ok_iff {envelope : ρ → HyfEnvelopeRef} {raw : List UInt8} {wrapped : HyfEnvelopeRef} :
    wrap wire validate envelope raw = .ok wrapped ↔
      ∃ message, validate raw = .ok message ∧ ValidEnvelope wrapped ∧ envelope message = wrapped := by
  constructor
  · intro h
    obtain ⟨message, hmessage, h⟩ := Except.exists_of_bind_eq_ok h
    obtain ⟨_, hvalid, h⟩ := Except.exists_of_bind_eq_ok h
    cases h
    exact ⟨message, hmessage, mapError_validateEnvelope_eq_ok_iff.mp hvalid, rfl⟩
  · rintro ⟨message, hmessage, hvalid, rfl⟩
    simp only [wrap, hmessage, mapError_validateEnvelope_eq_ok_iff.mpr hvalid, bind, Except.bind]
    rfl

/-- Exactly the payloads of the kind are unwrapped that are valid packets and pass the check. -/
theorem unwrap_eq_ok_iff {check : HyfEnvelopeRef → ρ → Except δ Unit} {envelope : HyfEnvelopeRef}
    {raw : List UInt8} :
    unwrap wire kind wrongKind validate check envelope = .ok raw ↔
      ValidEnvelope envelope ∧ envelope.payloadKind = kind ∧ envelope.payload = raw ∧
        ∃ message, validate raw = .ok message ∧ check envelope message = .ok () := by
  constructor
  · intro h
    obtain ⟨_, hvalid, h⟩ := Except.exists_of_bind_eq_ok h
    by_cases hkind : envelope.payloadKind = kind
    · rw [if_neg (not_not.mpr hkind)] at h
      obtain ⟨message, hmessage, h⟩ := Except.exists_of_bind_eq_ok h
      obtain ⟨_, hcheck, h⟩ := Except.exists_of_bind_eq_ok h
      cases h
      exact ⟨mapError_validateEnvelope_eq_ok_iff.mp hvalid, hkind, rfl, message, hmessage, hcheck⟩
    · rw [if_pos hkind] at h
      cases h
  · rintro ⟨hvalid, hkind, rfl, message, hmessage, hcheck⟩
    simp only [unwrap, mapError_validateEnvelope_eq_ok_iff.mpr hvalid, hkind, hmessage, hcheck, ne_eq,
      not_true_eq_false, if_false, bind, Except.bind, pure, Except.pure]

/-- An error of neither part is none of the whole. -/
theorem bind_ne {α β : Type} {x : Except δ α} {next : α → Except δ β} {bad : δ} (hx : x ≠ .error bad)
    (hnext : ∀ a, next a ≠ .error bad) : x >>= next ≠ .error bad := by
  cases x with
  | ok a => exact hnext a
  | error error =>
    intro h
    exact hx (congrArg Except.error (Except.error.inj h))

/-- The check of the envelope has errors of the wire only. -/
theorem mapError_validateEnvelope_ne {bad : δ} (hwire : ∀ error, wire error ≠ bad)
    (envelope : HyfEnvelopeRef) : (validateEnvelope envelope).mapError wire ≠ .error bad := by
  cases validateEnvelope envelope with
  | ok value => simp [Except.mapError]
  | error error => simpa [Except.mapError] using hwire error

/-- What neither the checks nor their errors are, a carrier does not end with. -/
theorem wrap_ne {bad : δ} (hwire : ∀ error, wire error ≠ bad) (hvalidate : ∀ raw, validate raw ≠ .error bad)
    (envelope : ρ → HyfEnvelopeRef) (raw : List UInt8) : wrap wire validate envelope raw ≠ .error bad := by
  apply bind_ne (hvalidate raw)
  intro message
  apply bind_ne (mapError_validateEnvelope_ne hwire _)
  intro _ h
  cases h

/-- Unwrapping has no error but those of its parts. -/
theorem unwrap_ne {bad : δ} {check : HyfEnvelopeRef → ρ → Except δ Unit} (hwire : ∀ error, wire error ≠ bad)
    (hkind : ∀ actual, wrongKind actual ≠ bad) (hvalidate : ∀ raw, validate raw ≠ .error bad)
    (hcheck : ∀ envelope message, check envelope message ≠ .error bad) (envelope : HyfEnvelopeRef) :
    unwrap wire kind wrongKind validate check envelope ≠ .error bad := by
  apply bind_ne (mapError_validateEnvelope_ne hwire _)
  intro _
  by_cases hexpected : envelope.payloadKind = kind
  · rw [if_neg (not_not.mpr hexpected)]
    apply bind_ne (hvalidate _)
    intro message
    apply bind_ne (hcheck _ _)
    intro _ h
    cases h
  · rw [if_pos hexpected]
    intro h
    exact hkind _ (Except.error.inj h)

/-- The hop limit is no part of what is checked. -/
theorem unwrap_withHopLimit {check : HyfEnvelopeRef → ρ → Except δ Unit} (envelope : HyfEnvelopeRef)
    (hopLimit : UInt8)
    (hcheck : ∀ message, check { envelope with hopLimit } message = check envelope message) :
    unwrap wire kind wrongKind validate check { envelope with hopLimit } =
      unwrap wire kind wrongKind validate check envelope := by
  simp only [unwrap, hcheck]
  rfl

end Carrier

/-! ## BitChat -/

namespace Bitchat

def bitchatCarrierPacketMaxLen : ℕ := 1536

/-- The errors of the carrier. -/
inductive HyfLinkBitchatError where
  | bitchat (error : BitchatError)
  | hyfWire (error : HyfWireError)
  | packetTooLargeForCarrier (actual maximum : ℕ)
  | wrongPayloadKind (actual : PayloadKind)
  deriving DecidableEq

/-- What an envelope needs beside the packet. -/
structure BitchatWrapParams where
  messageId : MessageId
  sourceNode : NodeId
  destination : HyfDestination
  createdAtMs : TimestampMs
  expiresAtMs : TimestampMs
  hopLimit : UInt8
  deriving DecidableEq

/-- `enforce_carrier_packet_len`. -/
def enforceCarrierPacketLen (raw : List UInt8) : Outcome HyfLinkBitchatError Unit :=
  rejectIf (raw.length > bitchatCarrierPacketMaxLen)
    (.packetTooLargeForCarrier raw.length bitchatCarrierPacketMaxLen)

/-- `validate_bitchat_packet`. -/
def validateBitchatPacket (raw : List UInt8) : Outcome HyfLinkBitchatError BitchatPacketRef := do
  enforceCarrierPacketLen raw
  (decodeBitchatPacket raw).convert .bitchat

/-- `wrap_bitchat_packet`. -/
def wrapBitchatPacket (raw : List UInt8) (params : BitchatWrapParams) :
    Outcome HyfLinkBitchatError HyfEnvelopeRef :=
  Carrier.wrap (fun error => .error (.hyfWire error)) validateBitchatPacket (fun _ => {
    version := hyfWireVersion0
    messageId := params.messageId
    source := params.sourceNode
    destination := params.destination
    createdAtMs := params.createdAtMs
    expiresAtMs := params.expiresAtMs
    hopLimit := params.hopLimit
    payloadKind := .foreignBitChatPacket
    payload := raw }) raw

/-- `unwrap_bitchat_packet`. -/
def unwrapBitchatPacket (envelope : HyfEnvelopeRef) : Outcome HyfLinkBitchatError (List UInt8) :=
  Carrier.unwrap (fun error => .error (.hyfWire error)) .foreignBitChatPacket
    (fun actual => .error (.wrongPayloadKind actual)) validateBitchatPacket (fun _ _ => .ok ()) envelope

end Bitchat

/-! ## LXMF -/

/-- `ForeignEndpointId::from_fixed_16`. -/
def ForeignEndpointId.fromFixed16 (network : ForeignNetworkKind) (bytes : ByteArrayN 16) :
    ForeignEndpointId where
  network := network
  bytes := bytes.toList
  nonempty := by
    intro h
    have hlength := bytes.toList_length
    rw [h] at hlength
    cases hlength
  length_le := by
    rw [bytes.toList_length]
    decide

namespace Lxmf

/-- The errors of the carrier. -/
inductive HyfLinkLxmfError where
  | lxmf (error : LxmfError)
  | hyfWire (error : HyfWireError)
  | wrongPayloadKind (actual : PayloadKind)
  deriving DecidableEq

/-- What an envelope needs beside the message. -/
structure LxmfWrapParams where
  messageId : MessageId
  sourceNode : NodeId
  createdAtMs : TimestampMs
  expiresAtMs : TimestampMs
  hopLimit : UInt8
  deriving DecidableEq

/-- `validate_lxmf_message`. -/
def validateLxmfMessage (raw : List UInt8) : Outcome HyfLinkLxmfError LxmfMessageRef :=
  (decodeLxmfMessage raw).convert .lxmf

/-- `wrap_lxmf_message`. -/
def wrapLxmfMessage (raw : List UInt8) (params : LxmfWrapParams) :
    Outcome HyfLinkLxmfError HyfEnvelopeRef :=
  Carrier.wrap (fun error => .error (.hyfWire error)) validateLxmfMessage (fun message => {
    version := hyfWireVersion0
    messageId := params.messageId
    source := params.sourceNode
    destination := .foreign (.fromFixed16 .lxmf message.destinationHash.bytes)
    createdAtMs := params.createdAtMs
    expiresAtMs := params.expiresAtMs
    hopLimit := params.hopLimit
    payloadKind := .foreignLxmfMessage
    payload := raw }) raw

/-- `unwrap_lxmf_message`. -/
def unwrapLxmfMessage (envelope : HyfEnvelopeRef) : Outcome HyfLinkLxmfError (List UInt8) :=
  Carrier.unwrap (fun error => .error (.hyfWire error)) .foreignLxmfMessage
    (fun actual => .error (.wrongPayloadKind actual)) validateLxmfMessage (fun _ _ => .ok ()) envelope

end Lxmf

/-! ## Which envelopes are taken apart -/

/-- Exactly what was wrapped is unwrapped. -/
theorem Bitchat.unwrapBitchatPacket_eq_ok_iff {envelope : HyfEnvelopeRef} {raw : List UInt8} :
    unwrapBitchatPacket envelope = .ok raw ↔ ∃ params, wrapBitchatPacket raw params = .ok envelope := by
  rw [unwrapBitchatPacket, Carrier.unwrap_eq_ok_iff]
  simp only [wrapBitchatPacket, Carrier.wrap_eq_ok_iff]
  constructor
  · rintro ⟨hvalid, hkind, hpayload, packet, hpacket, -⟩
    refine ⟨⟨envelope.messageId, envelope.source, envelope.destination, envelope.createdAtMs,
      envelope.expiresAtMs, envelope.hopLimit⟩, packet, hpacket, hvalid, ?_⟩
    rw [← (validEnvelope_iff.mp hvalid).1, ← hkind, ← hpayload]
  · rintro ⟨params, packet, hpacket, hvalid, rfl⟩
    exact ⟨hvalid, rfl, rfl, packet, hpacket, trivial⟩

/-- The destination of an envelope is not compared with that of its message. -/
theorem Lxmf.unwrapLxmfMessage_eq_ok_iff {envelope : HyfEnvelopeRef} {raw : List UInt8} :
    unwrapLxmfMessage envelope = .ok raw ↔ ∃ params addressed, wrapLxmfMessage raw params = .ok addressed ∧
      envelope = { addressed with destination := envelope.destination } := by
  rw [unwrapLxmfMessage, Carrier.unwrap_eq_ok_iff]
  simp only [wrapLxmfMessage, Carrier.wrap_eq_ok_iff]
  constructor
  · rintro ⟨hvalid, hkind, hpayload, message, hmessage, -⟩
    have hversion := (validEnvelope_iff.mp hvalid).1
    refine ⟨⟨envelope.messageId, envelope.source, envelope.createdAtMs, envelope.expiresAtMs,
      envelope.hopLimit⟩, _, ⟨message, hmessage, ?_, rfl⟩, ?_⟩
    · rw [validEnvelope_iff, ← hpayload]
      exact ⟨rfl, (validEnvelope_iff.mp hvalid).2⟩
    · rw [← hversion, ← hkind, ← hpayload]
  · rintro ⟨params, addressed, ⟨message, hmessage, hvalid, rfl⟩, henvelope⟩
    have hvalid' : ValidEnvelope envelope := by
      rw [henvelope]
      exact validEnvelope_iff.mpr (validEnvelope_iff.mp hvalid)
    rw [henvelope] at hvalid' ⊢
    exact ⟨hvalid', rfl, rfl, message, hmessage, trivial⟩

namespace Rns

/-- The carrier of RNS wraps as all carriers do. -/
theorem wrapRnsPacket_eq (packet : RnsPacketRef) (params : RnsWrapParams) :
    wrapRnsPacket packet params = Carrier.wrap .hyfWire validateRnsPacket (fun _ => {
      version := hyfWireVersion0
      messageId := params.messageId
      source := params.sourceNode
      destination := params.destination
      createdAtMs := params.createdAtMs
      expiresAtMs := params.expiresAtMs
      hopLimit := params.hopLimit
      payloadKind := .foreignRnsPacket
      payload := packet.raw }) packet.raw := rfl

/-- What is checked of a packet is returned with it. -/
theorem raw_of_validateRnsPacket {raw : List UInt8} {packet : RnsPacketRef}
    (h : validateRnsPacket raw = .ok packet) : packet.raw = raw := by
  obtain ⟨decoded, -, h⟩ := Except.exists_of_bind_eq_ok h
  cases h
  rfl

/-- The carrier of RNS unwraps as all carriers do. -/
theorem unwrapRnsPacket_eq (envelope : HyfEnvelopeRef) :
    unwrapRnsPacket envelope = Carrier.unwrap .hyfWire .foreignRnsPacket
      (fun _ => .notForeignRnsPacket) validateRnsPacket (fun _ _ => .ok ()) envelope := by
  have hraw : ∀ raw, (validateRnsPacket raw >>= fun packet => pure packet.raw) =
      (validateRnsPacket raw >>= fun _ => pure raw) := by
    intro raw
    cases hpacket : validateRnsPacket raw with
    | error error => rfl
    | ok packet => exact congrArg Except.ok (raw_of_validateRnsPacket hpacket)
  simp only [unwrapRnsPacket, Carrier.unwrap, hraw]
  rfl

/-- Exactly what was wrapped is unwrapped. -/
theorem unwrapRnsPacket_eq_ok_iff {envelope : HyfEnvelopeRef} {raw : List UInt8} :
    unwrapRnsPacket envelope = .ok raw ↔
      ∃ packet params, packet.raw = raw ∧ wrapRnsPacket packet params = .ok envelope := by
  rw [unwrapRnsPacket_eq, Carrier.unwrap_eq_ok_iff]
  simp only [wrapRnsPacket_eq, Carrier.wrap_eq_ok_iff]
  constructor
  · rintro ⟨hvalid, hkind, hpayload, packet, hpacket, -⟩
    have hraw := raw_of_validateRnsPacket hpacket
    refine ⟨packet, ⟨envelope.source, envelope.destination, envelope.createdAtMs, envelope.expiresAtMs,
      envelope.hopLimit, envelope.messageId⟩, hraw, packet, by rwa [hraw], hvalid, ?_⟩
    rw [hraw, ← (validEnvelope_iff.mp hvalid).1, ← hkind, ← hpayload]
  · rintro ⟨packet, params, rfl, checked, hchecked, hvalid, rfl⟩
    exact ⟨hvalid, rfl, rfl, checked, hchecked, trivial⟩

end Rns

namespace Bridge

/-- A result of the other crate as an outcome. -/
theorem ofResult_eq_mapError {ε α : Type} (convert : ε → BridgeError) (result : Except ε α) :
    ofResult convert result = result.mapError fun error => .error (convert error) := by
  cases result <;> rfl

/-- The carrier of bridge messages wraps as all carriers do. -/
theorem wrapBridgeMessage_eq (raw : List UInt8) (params : BridgeWrapParams) :
    wrapBridgeMessage raw params = Carrier.wrap (fun error => .error (.hyfWire error))
      validateBridgeMessage (fun message => {
        version := hyfWireVersion0
        messageId := message.messageId
        source := params.sourceNode
        destination := .community message.roomId
        createdAtMs := params.createdAtMs
        expiresAtMs := params.expiresAtMs
        hopLimit := params.hopLimit
        payloadKind := .hyfBridgeMessageV0
        payload := raw }) raw := by
  simp only [wrapBridgeMessage, Carrier.wrap, ofResult_eq_mapError]

/-- What the bridge compares between an envelope and its message. -/
def checkAddress (envelope : HyfEnvelopeRef) (message : BridgeMessageRef) : Outcome BridgeError Unit := do
  rejectIf (envelope.messageId ≠ message.messageId) .envelopeMessageIdMismatch
  rejectIf (envelope.destination ≠ .community message.roomId) .envelopeRoomMismatch

/-- The address of the envelope is the one of the message. -/
theorem checkAddress_eq_ok_iff {envelope : HyfEnvelopeRef} {message : BridgeMessageRef} :
    checkAddress envelope message = .ok () ↔
      envelope.messageId = message.messageId ∧ envelope.destination = .community message.roomId := by
  constructor
  · intro h
    obtain ⟨_, hid, h⟩ := Except.exists_of_bind_eq_ok h
    exact ⟨not_not.mp (rejectIf_eq_ok_iff.mp hid), not_not.mp (rejectIf_eq_ok_iff.mp h)⟩
  · rintro ⟨hid, hroom⟩
    rw [checkAddress, Outcome.bind_eq (rejectIf_eq_ok (not_not.mpr hid))]
    exact rejectIf_eq_ok (not_not.mpr hroom)

/-- The carrier of bridge messages unwraps as all carriers do. -/
theorem unwrapBridgeMessage_eq (envelope : HyfEnvelopeRef) :
    unwrapBridgeMessage envelope = Carrier.unwrap (fun error => .error (.hyfWire error))
      .hyfBridgeMessageV0 (fun actual => .error (.wrongPayloadKind actual)) validateBridgeMessage
      checkAddress envelope := by
  simp only [unwrapBridgeMessage, Carrier.unwrap, ofResult_eq_mapError, checkAddress, bind_assoc]
  by_cases hkind : envelope.payloadKind = .hyfBridgeMessageV0
  · simp only [hkind, rejectIf, ne_eq, not_true_eq_false, if_false]
    rfl
  · simp only [hkind, rejectIf, ne_eq, not_false_eq_true, if_true]
    rfl

/-- Exactly what was wrapped is unwrapped. -/
theorem unwrapBridgeMessage_eq_ok_iff {envelope : HyfEnvelopeRef} {raw : List UInt8} :
    unwrapBridgeMessage envelope = .ok raw ↔ ∃ params, wrapBridgeMessage raw params = .ok envelope := by
  rw [unwrapBridgeMessage_eq, Carrier.unwrap_eq_ok_iff]
  simp only [wrapBridgeMessage_eq, Carrier.wrap_eq_ok_iff, checkAddress_eq_ok_iff]
  constructor
  · rintro ⟨hvalid, hkind, hpayload, message, hmessage, hid, hroom⟩
    refine ⟨⟨envelope.source, envelope.createdAtMs, envelope.expiresAtMs, envelope.hopLimit⟩, message,
      hmessage, hvalid, ?_⟩
    rw [← (validEnvelope_iff.mp hvalid).1, ← hkind, ← hpayload, ← hid, ← hroom]
  · rintro ⟨params, message, hmessage, hvalid, rfl⟩
    exact ⟨hvalid, rfl, rfl, message, hmessage, rfl, rfl⟩

end Bridge

/-- The check of a packet does not panic. -/
theorem Bitchat.validateBitchatPacket_ne_panic (raw : List UInt8) :
    validateBitchatPacket raw ≠ .error .panic :=
  Carrier.bind_ne (ends_rejectIf _ _).ne_panic fun _ =>
    ((ends_decodeBitchatPacket raw).convert _).ne_panic

/-- **An envelope is taken apart exactly if it could have been made**, by the same carrier and around the
same bytes; an LXMF envelope may also have been addressed to somebody else. No carrier panics. -/
theorem unwraps_iff_wrapped (envelope : HyfEnvelopeRef) (raw : List UInt8) :
    ((Bitchat.unwrapBitchatPacket envelope = .ok raw ↔
        ∃ params, Bitchat.wrapBitchatPacket raw params = .ok envelope) ∧
      (Rns.unwrapRnsPacket envelope = .ok raw ↔
        ∃ packet params, packet.raw = raw ∧ Rns.wrapRnsPacket packet params = .ok envelope) ∧
      (Bridge.unwrapBridgeMessage envelope = .ok raw ↔
        ∃ params, Bridge.wrapBridgeMessage raw params = .ok envelope) ∧
      (Lxmf.unwrapLxmfMessage envelope = .ok raw ↔
        ∃ params addressed, Lxmf.wrapLxmfMessage raw params = .ok addressed ∧
          envelope = { addressed with destination := envelope.destination })) ∧
    (Bitchat.unwrapBitchatPacket envelope ≠ .error .panic ∧
      ∀ params, Bitchat.wrapBitchatPacket raw params ≠ .error .panic) ∧
    (Bridge.unwrapBridgeMessage envelope ≠ .error .panic ∧
      ∀ params, Bridge.wrapBridgeMessage raw params ≠ .error .panic) ∧
    (Lxmf.unwrapLxmfMessage envelope ≠ .error .panic ∧
      ∀ params, Lxmf.wrapLxmfMessage raw params ≠ .error .panic) := by
  have hfault : ∀ {ε ν : Type} (convert : ν → ε) (error : ν),
      (Fault.error (convert error) : Fault ε) ≠ .panic := by
    intro ε ν convert error h
    cases h
  have hpass : ∀ {ε ν ρ : Type} (envelope : ν) (message : ρ), (.ok () : Outcome ε Unit) ≠ .error .panic := by
    intro ε ν ρ envelope message h
    cases h
  have hbridge : ∀ raw, Bridge.validateBridgeMessage raw ≠ .error .panic :=
    fun raw => (Bridge.ends_decodeBridgeMessage raw).ne_panic
  have hlxmf : ∀ raw, Lxmf.validateLxmfMessage raw ≠ .error .panic :=
    fun raw => ((Lxmf.ends_decodeLxmfMessage raw).convert _).ne_panic
  have haddress : ∀ envelope message, Bridge.checkAddress envelope message ≠ .error .panic :=
    fun _ _ => Carrier.bind_ne (ends_rejectIf _ _).ne_panic fun _ => (ends_rejectIf _ _).ne_panic
  refine ⟨⟨Bitchat.unwrapBitchatPacket_eq_ok_iff, Rns.unwrapRnsPacket_eq_ok_iff,
    Bridge.unwrapBridgeMessage_eq_ok_iff, Lxmf.unwrapLxmfMessage_eq_ok_iff⟩, ⟨?_, ?_⟩, ⟨?_, ?_⟩, ?_, ?_⟩
  · exact Carrier.unwrap_ne (hfault _) (hfault _) Bitchat.validateBitchatPacket_ne_panic hpass _
  · exact fun params => Carrier.wrap_ne (hfault _) Bitchat.validateBitchatPacket_ne_panic _ _
  · rw [Bridge.unwrapBridgeMessage_eq]
    exact Carrier.unwrap_ne (hfault _) (hfault _) hbridge haddress _
  · intro params
    rw [Bridge.wrapBridgeMessage_eq]
    exact Carrier.wrap_ne (hfault _) hbridge _ _
  · exact Carrier.unwrap_ne (hfault _) (hfault _) hlxmf hpass _
  · exact fun params => Carrier.wrap_ne (hfault _) hlxmf _ _

end Hyf
