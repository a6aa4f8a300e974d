import Hyf.Bridge.MessageTheorems
import Hyf.Common.FloatExponent
import Hyf.Lxmf.MessageTheorems

/-!
# The LXMF bridge (`hyf_bridge_lxmf`)

Only LXMF messages that consist of a text cross the bridge: no title, no fields, no stamp. LXMF
counts time in seconds as a float and the bridge in whole milliseconds, so the conversion of a
timestamp rounds on the way out and truncates on the way in; floats are Lean's own, which follow
IEEE 754 as the source's do.
-/

namespace Hyf.LxmfBridge

open ByteCodec Bridge Lxmf

def lxmfBridgeMessageMaxLen : ℕ := lxmfMessageMaxLen

/-- The encoding of a map without entries. -/
def emptyFieldsMap : List UInt8 := [0x80]

/-- What the bridge adds to an LXMF message on its way in. -/
structure LxmfBridgeIngressParams where
  roomId : CommunityId
  messageId : MessageId
  deriving DecidableEq

/-- What the bridge adds to a message on its way out. -/
structure LxmfBridgeEgressParams where
  destinationHash : LxmfDestinationHash
  sourceHash : LxmfSourceHash
  signature : LxmfSignature
  deriving DecidableEq

/-- The errors of the two conversions. -/
inductive LxmfBridgeError where
  | lxmf (error : LxmfError)
  | bridge (error : BridgeError)
  | nonEmptyTitle
  | nonEmptyFields
  | stampPresent
  | emptyContent
  | invalidContentUtf8
  | negativeTimestamp
  | timestampOverflow
  | unsupportedBridgePayloadKind (kind : BridgePayloadKind)
  deriving DecidableEq

/-- An LXMF message on its way in, with what it is converted to. -/
structure LxmfBridgeIngress where
  message : LxmfMessageRef
  params : LxmfBridgeIngressParams
  sourceHash : ByteArrayN 16
  createdAtMs : TimestampMs
  content : List UInt8
  deriving DecidableEq

namespace LxmfBridgeIngress

def ingressMeta (_ingress : LxmfBridgeIngress) : BridgeIngressMeta := ⟨.lxmf, .unverified⟩

/-- `bridge_message`: the content with its author. -/
def bridgeMessage (ingress : LxmfBridgeIngress) : BridgeMessageRef where
  version := hyfBridgeMessageVersion0
  roomId := ingress.params.roomId
  messageId := ingress.params.messageId
  author := ⟨.foreign .lxmf, ingress.sourceHash.toList⟩
  createdAtMs := ingress.createdAtMs
  payloadKind := .textUtf8
  payload := ingress.content

end LxmfBridgeIngress

/-- `validate_content_only_payload`: no title, no fields, no stamp, and a text. -/
def validateContentOnlyPayload (payload : LxmfPayloadRef) : Outcome LxmfBridgeError Unit := do
  rejectIf (payload.title ≠ []) .nonEmptyTitle
  rejectIf (payload.fields ≠ emptyFieldsMap) .nonEmptyFields
  rejectIf payload.stamp.isSome .stampPresent
  rejectIf (payload.content = []) .emptyContent
  rejectIf (isUtf8 payload.content = false) .invalidContentUtf8

/-- The cast `as u64` of the source truncates, as `Float.toUInt64` does. -/
def timestampSecsToMs (timestampSecs : Float) : Outcome LxmfBridgeError TimestampMs := do
  rejectIf (timestampSecs < 0.0) .negativeTimestamp
  let millis := timestampSecs * 1000.0
  rejectIf (millis.isFinite = false ∨ millis > (UInt64.ofNat (2 ^ 64 - 1)).toFloat)
    .timestampOverflow
  return millis.toUInt64

/-- `lxmf_message_to_bridge_message`. -/
def lxmfMessageToBridgeMessage (raw : List UInt8) (params : LxmfBridgeIngressParams) :
    Outcome LxmfBridgeError LxmfBridgeIngress := do
  let message ← (decodeLxmfMessage raw).convert .lxmf
  let payload := message.payload
  validateContentOnlyPayload payload
  let createdAtMs ← timestampSecsToMs (Float.ofBits payload.timestampSecs)
  return {
    message, params, sourceHash := message.sourceHash.bytes, createdAtMs,
    content := payload.content }

/-- `validate_egress_message`: a text that is not empty. -/
def validateEgressMessage (message : BridgeMessageRef) : Outcome LxmfBridgeError Unit := do
  rejectIf (message.payloadKind ≠ .textUtf8) (.unsupportedBridgePayloadKind message.payloadKind)
  rejectIf (message.payload = []) .emptyContent
  rejectIf (isUtf8 message.payload = false) .invalidContentUtf8
  let _ ← (bridgeMessageEncodedLen message).convert .bridge
  return ()

/-- The payload that the egress builds for a message. -/
def contentPayload (message : BridgeMessageRef) : LxmfPayloadRef where
  timestampSecs := (message.createdAtMs.toFloat / 1000.0).toBits
  title := []
  content := message.payload
  fields := emptyFieldsMap
  stamp := none

/-- `bridge_message_to_lxmf_message_fixture`. -/
def bridgeMessageToLxmfMessageFixture (message : BridgeMessageRef)
    (params : LxmfBridgeEgressParams) (output : List UInt8) :
    Outcome LxmfBridgeError (ℕ × List UInt8) := do
  validateEgressMessage message
  (encodeLxmfMessage params.destinationHash params.sourceHash params.signature
    (contentPayload message) output).convert .lxmf

/-! ## No panic -/

/-- The conversion of the time does not panic. -/
theorem ends_timestampSecsToMs (timestampSecs : Float) :
    Ends (timestampSecsToMs timestampSecs) fun _ => True := by
  refine (ends_rejectIf _ _).bind fun _ _ => ?_
  refine (ends_rejectIf _ _).bind fun _ _ => ?_
  exact trivial

/-- What passes has nothing but a text. -/
theorem ends_validateContentOnlyPayload (payload : LxmfPayloadRef) :
    Ends (validateContentOnlyPayload payload) fun _ =>
      payload.title = [] ∧ payload.fields = emptyFieldsMap ∧ payload.stamp = none ∧
      payload.content ≠ [] ∧ isUtf8 payload.content = true := by
  refine (ends_rejectIf _ _).bind fun _ htitle => ?_
  refine (ends_rejectIf _ _).bind fun _ hfields => ?_
  refine (ends_rejectIf _ _).bind fun _ hstamp => ?_
  refine (ends_rejectIf _ _).bind fun _ hempty => ?_
  refine (ends_rejectIf _ _).mono fun _ hutf8 => ?_
  rw [Option.not_isSome_iff_eq_none] at hstamp
  rw [Bool.not_eq_false] at hutf8
  exact ⟨not_not.mp htitle, not_not.mp hfields, hstamp, hempty, hutf8⟩

/-- An accepted message is a text, which the ingress keeps with its author. -/
theorem ends_lxmfMessageToBridgeMessage (raw : List UInt8) (params : LxmfBridgeIngressParams) :
    Ends (lxmfMessageToBridgeMessage raw params) fun ingress =>
      decodeLxmfMessage raw = .ok ingress.message ∧ ingress.params = params ∧
      ingress.sourceHash = ingress.message.sourceHash.bytes ∧
      ingress.content = ingress.message.payload.content ∧ ingress.content ≠ [] ∧
      isUtf8 ingress.content = true := by
  apply ((ends_decodeLxmfMessage raw).with_eq.convert _).bind
  rintro message ⟨-, hdecode⟩
  apply (ends_validateContentOnlyPayload message.payload).bind
  rintro - ⟨-, -, -, hempty, hutf8⟩
  refine (ends_timestampSecsToMs _).bind fun createdAtMs _ => ?_
  exact ⟨hdecode, rfl, rfl, rfl, hempty, hutf8⟩

/-- What passes is a valid message with a text. -/
theorem ends_validateEgressMessage (message : BridgeMessageRef) :
    Ends (validateEgressMessage message) fun _ =>
      ValidMessage message ∧ message.payloadKind = .textUtf8 ∧ message.payload ≠ [] := by
  refine (ends_rejectIf _ _).bind fun _ hkind => ?_
  refine (ends_rejectIf _ _).bind fun _ hempty => ?_
  refine (ends_rejectIf _ _).bind fun _ _ => ?_
  apply ((ends_bridgeMessageEncodedLen message).convert _).bind
  rintro _ ⟨hvalid, -⟩
  exact ⟨hvalid, not_not.mp hkind, hempty⟩

/-- What the egress writes is the header and the payload of the message. -/
theorem ends_bridgeMessageToLxmfMessageFixture (message : BridgeMessageRef)
    (params : LxmfBridgeEgressParams) (output : List UInt8) :
    Ends (bridgeMessageToLxmfMessageFixture message params output) fun written =>
      written.1 ≤ output.length ∧ written.2.length = output.length ∧
      written.2.take written.1 =
        headerBytes params.destinationHash params.sourceHash params.signature ++
          payloadBytes (contentPayload message) := by
  refine (ends_validateEgressMessage message).bind fun _ _ => ?_
  apply ((ends_encodeLxmfMessage _ _ _ _ output).convert _).mono
  rintro _ ⟨-, hroom, rfl⟩
  have hheader := length_headerBytes params.destinationHash params.sourceHash params.signature
  refine ⟨hroom, ?_, ?_⟩
  · rw [List.length_append, List.length_append, List.length_drop, hheader]
    omega
  · apply List.take_left'
    rw [List.length_append, hheader]

/-! ## Every text fits -/

/-- An exponent field that is not all ones. -/
theorem isFinite_of_field_lt {bits : UInt64} (h : FloatExponent.field bits.toBitVec < 2047) :
    isFinite bits = true := by
  rw [isFinite, decide_eq_true_eq]
  intro hones
  have hfield : FloatExponent.field bits.toBitVec = bits.toNat >>> 52 % 2 ^ 11 := rfl
  have hmask : (0x7ff : UInt64).toNat = 2 ^ 11 - 1 := rfl
  have hfull : ((bits >>> 52) &&& 0x7ff).toNat = 2047 := congrArg UInt64.toNat hones
  rw [UInt64.toNat_and, UInt64.toNat_shiftRight, hmask, Nat.and_two_pow_sub_one_eq_mod] at hfull
  rw [hfield] at h
  exact absurd hfull h.ne

/-- No time in milliseconds is too large for a float of seconds. -/
theorem isFinite_timestampSecs (createdAtMs : TimestampMs) :
    isFinite (createdAtMs.toFloat / 1000.0).toBits = true := by
  have hdivisor : (1000.0 : Float).toModel.unpack =
      .finite .positive (1000 * 2 ^ 43) (-43) (by decide) := by rfl
  exact isFinite_of_field_lt
    (FloatExponent.field_toFloat_div_lt createdAtMs hdivisor (by decide) (by decide))

/-- The empty map is a map of the format. -/
theorem isRawMap_emptyFieldsMap : IsRawMap emptyFieldsMap := by
  have hempty : Msgpack.Value.WellFormed (.map .fixed []) := .map rfl (by simp) (by simp)
  exact ⟨.map .fixed [], ⟨⟨hempty, by decide⟩, rfl⟩, rfl⟩

/-- The length of a payload with nothing but a content. -/
theorem length_contentPayload (message : BridgeMessageRef) :
    (payloadBytes (contentPayload message)).length = 13 + binEncodedLen message.payload.length := by
  have htitle : binEncodedLen ([] : List UInt8).length = 2 := rfl
  have hfields : emptyFieldsMap.length = 1 := rfl
  rw [length_payloadBytes]
  show 1 + 9 + binEncodedLen ([] : List UInt8).length + binEncodedLen message.payload.length +
    emptyFieldsMap.length = _
  omega

/-- A text that a bridge message can carry is far below the limits of LXMF. -/
theorem encodable_contentPayload {message : BridgeMessageRef}
    (h : message.payload.length ≤ hyfBridgePayloadMaxLen) :
    EncodablePayload (contentPayload message) where
  finite := isFinite_timestampSecs message.createdAtMs
  title_length := Nat.zero_le _
  content_length := h.trans (by decide)
  fields_isRawMap := isRawMap_emptyFieldsMap
  fields_length := show emptyFieldsMap.length ≤ lxmfFieldsMaxLen by decide
  stamp_length := nofun
  length_le := by
    rw [hyfBridgePayloadMaxLen] at h
    rw [length_contentPayload, binEncodedLen, lxmfPayloadMaxLen, lxmfMessageMaxLen, lxmfFixedHeaderLen]
    split_ifs <;> omega

/-- A valid message with a text passes. -/
theorem validateEgressMessage_eq_ok {message : BridgeMessageRef} (h : ValidMessage message)
    (hkind : message.payloadKind = .textUtf8) (hpayload : message.payload ≠ []) :
    validateEgressMessage message = .ok () := by
  have hutf8 := h.payload_utf8 hkind
  have hlen : (bridgeMessageEncodedLen message).convert LxmfBridgeError.bridge =
      .ok (messageBytes message).length := Outcome.convert_eq (bridgeMessageEncodedLen_eq h) _
  rw [validateEgressMessage, Outcome.bind_eq (rejectIf_eq_ok (not_not.mpr hkind)),
    Outcome.bind_eq (rejectIf_eq_ok hpayload), Outcome.bind_eq (rejectIf_eq_ok (by simp [hutf8])),
    Outcome.bind_eq hlen]
  rfl

/-- A buffer of the size of a message has room for every text. -/
theorem exists_bridgeMessageToLxmfMessageFixture {message : BridgeMessageRef} (h : ValidMessage message)
    (hkind : message.payloadKind = .textUtf8) (hpayload : message.payload ≠ [])
    (params : LxmfBridgeEgressParams) {output : List UInt8}
    (hroom : output.length = lxmfBridgeMessageMaxLen) : ∃ len written,
      bridgeMessageToLxmfMessageFixture message params output = .ok (len, written) ∧
      written.length = output.length := by
  have hencodable := encodable_contentPayload h.payload_length
  have hfits : 96 + (payloadBytes (contentPayload message)).length ≤ output.length := by
    have hlen := hencodable.length_le
    rw [lxmfPayloadMaxLen, lxmfFixedHeaderLen] at hlen
    rw [hroom, lxmfBridgeMessageMaxLen]
    rw [lxmfMessageMaxLen] at hlen ⊢
    omega
  have hencode := hencodable.encodeLxmfMessage_eq params.destinationHash params.sourceHash
    params.signature hfits
  have hheader := length_headerBytes params.destinationHash params.sourceHash params.signature
  rw [bridgeMessageToLxmfMessageFixture, Outcome.bind_eq (validateEgressMessage_eq_ok h hkind hpayload)]
  refine ⟨_, _, Outcome.convert_eq hencode _, ?_⟩
  rw [List.length_append, List.length_append, List.length_drop, hheader]
  omega

end Hyf.LxmfBridge
