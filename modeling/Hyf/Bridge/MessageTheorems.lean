import Hyf.Bridge.Message

/-!
# The bridge codec round trip

`ValidMessage` is what the encoder checks of a message; the decoder checks the bytes field by field
with rules of its own. The two describe the same language: what the decoder accepts is the layout of
a valid message, and the layout of a valid message is accepted.
-/

namespace Hyf.Bridge

open ByteCodec CursorM WriterM

/-- The messages that can be encoded. -/
structure ValidMessage (message : BridgeMessageRef) : Prop where
  version_eq : message.version = hyfBridgeMessageVersion0
  roomId_ne : message.roomId ≠ ⟨fillBytes roomIdLen 0⟩
  messageId_ne : message.messageId ≠ ⟨fillBytes messageIdLen 0⟩
  author_length : expectedAuthorIdLen message.author.kind = .ok message.author.id.length
  payload_length : message.payload.length ≤ hyfBridgePayloadMaxLen
  payload_utf8 : message.payloadKind = .textUtf8 → isUtf8 message.payload = true

/-! ## The checks -/

/-- The length that a kind of author asks for is found without a panic. -/
theorem ends_expectedAuthorIdLen (kind : BridgeEndpointKind) :
    Ends (expectedAuthorIdLen kind) fun len => expectedAuthorIdLen kind = .ok len := by
  rcases kind with _ | network
  · exact rfl
  · cases network
    · exact trivial
    · exact trivial
    · exact rfl
    · exact rfl
    · exact rfl

/-- An author that passes has the length its kind asks for. -/
theorem ends_validateAuthorIdLen (kind : BridgeEndpointKind) (len : ℕ) :
    Ends (validateAuthorIdLen kind len) fun _ => expectedAuthorIdLen kind = .ok len := by
  apply (ends_expectedAuthorIdLen kind).bind
  intro expected hexpected
  apply (ends_rejectIf _ _).mono
  intro _ hlen
  rw [hexpected, not_not.mp hlen]

/-- An author of the right length passes. -/
theorem validateAuthorIdLen_eq_ok {kind : BridgeEndpointKind} {len : ℕ}
    (h : expectedAuthorIdLen kind = .ok len) : validateAuthorIdLen kind len = .ok () := by
  rw [validateAuthorIdLen, h]
  exact rejectIf_eq_ok (not_not.mpr rfl)

/-- A text that passes is valid UTF-8. -/
theorem ends_validatePayload (kind : BridgePayloadKind) (payload : List UInt8) :
    Ends (validatePayload kind payload) fun _ => kind = .textUtf8 → isUtf8 payload = true := by
  apply (ends_rejectIf _ _).mono
  intro _ hpayload hkind
  rw [← Bool.not_eq_false]
  exact fun hinvalid => hpayload ⟨hkind, hinvalid⟩

/-- A payload passes if it is no text, or valid UTF-8. -/
theorem validatePayload_eq_ok {kind : BridgePayloadKind} {payload : List UInt8}
    (h : kind = .textUtf8 → isUtf8 payload = true) : validatePayload kind payload = .ok () := by
  apply rejectIf_eq_ok
  rintro ⟨hkind, hinvalid⟩
  rw [h hkind] at hinvalid
  cases hinvalid

/-- A message that passes is valid. -/
theorem ends_validateBridgeMessageRef (message : BridgeMessageRef) :
    Ends (validateBridgeMessageRef message) fun _ => ValidMessage message := by
  refine (ends_rejectIf _ _).bind fun _ hversion => ?_
  refine (ends_rejectIf _ _).bind fun _ hroomId => ?_
  refine (ends_rejectIf _ _).bind fun _ hmessageId => ?_
  refine (ends_validateAuthorIdLen _ _).bind fun _ hauthor => ?_
  refine (ends_rejectIf _ _).bind fun _ hlength => ?_
  refine (ends_validatePayload _ _).mono fun _ hutf8 => ?_
  exact ⟨not_not.mp hversion, hroomId, hmessageId, hauthor, Nat.le_of_not_lt hlength, hutf8⟩

/-- A valid message passes. -/
theorem validateBridgeMessageRef_eq_ok {message : BridgeMessageRef} (h : ValidMessage message) :
    validateBridgeMessageRef message = .ok () := by
  unfold validateBridgeMessageRef
  rw [rejectIf_eq_ok (not_not.mpr h.version_eq), rejectIf_eq_ok h.roomId_ne,
    rejectIf_eq_ok h.messageId_ne, validateAuthorIdLen_eq_ok h.author_length,
    rejectIf_eq_ok (Nat.not_lt.mpr h.payload_length), validatePayload_eq_ok h.payload_utf8]
  rfl

/-- Exactly the valid messages pass the encoder's check. -/
theorem validateBridgeMessageRef_eq_ok_iff {message : BridgeMessageRef} :
    validateBridgeMessageRef message = .ok () ↔ ValidMessage message :=
  ⟨(ends_validateBridgeMessageRef message).of_ok, validateBridgeMessageRef_eq_ok⟩

/-! ## Tags -/

/-- A kind of author that was decoded has these two tags. -/
theorem ends_decodeAuthorKind (authorKindTag authorNetworkTag : UInt8) :
    Ends (decodeAuthorKind authorKindTag authorNetworkTag) fun kind =>
      [authorKindTag] ++ [authorNetworkTag] = authorTags kind := by
  unfold decodeAuthorKind
  split_ifs with hnode hforeign
  · refine (ends_rejectIf _ _).bind fun _ hnetwork => ?_
    show [authorKindTag] ++ [authorNetworkTag] = authorTags .hyfNode
    rw [hnode, not_not.mp hnetwork]
    rfl
  · refine (ends_ofResult _ _).bind fun network hnetwork => ?_
    refine (ends_rejectIf _ _).bind fun _ _ => ?_
    show [authorKindTag] ++ [authorNetworkTag] = authorTags (.foreign network)
    rw [hforeign, ← ForeignNetworkKind.wireTag_of_fromWireTag hnetwork]
    rfl
  · exact trivial

/-- The author networks of valid messages are the ones the decoder supports. -/
theorem decodeAuthorKind_authorTags {kind : BridgeEndpointKind} {len : ℕ}
    (h : expectedAuthorIdLen kind = .ok len) : ∃ authorKindTag authorNetworkTag,
      authorTags kind = [authorKindTag] ++ [authorNetworkTag] ∧
      decodeAuthorKind authorKindTag authorNetworkTag = .ok kind := by
  rcases kind with _ | network
  · exact ⟨_, _, rfl, rfl⟩
  · cases network
    · cases h
    · cases h
    · exact ⟨_, _, rfl, rfl⟩
    · exact ⟨_, _, rfl, rfl⟩
    · exact ⟨_, _, rfl, rfl⟩

/-- The tag of a kind of payload decodes to it. -/
theorem decodePayloadKind_wireTag (kind : BridgePayloadKind) :
    decodePayloadKind kind.wireTag = .ok kind := by
  cases kind
  · rfl
  · rfl

/-- A kind of payload that was decoded has this tag. -/
theorem ends_decodePayloadKind (tag : UInt8) :
    Ends (decodePayloadKind tag) fun kind => kind.wireTag = tag := by
  unfold decodePayloadKind
  split_ifs with htext hopaque
  · exact htext.symm
  · exact hopaque.symm
  · exact trivial

/-- No kind asks for more than 32 bytes. -/
theorem expectedAuthorIdLen_le {kind : BridgeEndpointKind} {len : ℕ}
    (h : expectedAuthorIdLen kind = .ok len) : len ≤ 32 := by
  rcases kind with _ | network
  · cases h
    decide
  · cases network
    · cases h
    · cases h
    · cases h
      decide
    · cases h
      decide
    · cases h
      decide

/-! ## Decoding -/

/-- The decoder's slices take exactly what they are asked for. -/
theorem takesSlices : TakesSlices readSlice := takesSlices_takeSlice _ _

/-- A message that was read is valid, and its bytes are the ones that were taken. -/
theorem yields_readBridgeMessage :
    Yields readBridgeMessage fun message bytes =>
      ValidMessage message ∧ bytes = messageBytes message := by
  unfold readBridgeMessage
  apply takesSlices.yields_readU8.bind
  rintro version _ rfl
  refine Yields.check (ends_rejectIf _ _) fun _ hversion => ?_
  apply (takesSlices.yields_readArray roomIdLen).bind
  rintro roomId _ rfl
  refine Yields.check (ends_rejectIf _ _) fun _ hroomId => ?_
  apply (takesSlices.yields_readArray messageIdLen).bind
  rintro messageId _ rfl
  refine Yields.check (ends_rejectIf _ _) fun _ hmessageId => ?_
  apply takesSlices.yields_readU8.bind
  rintro authorKindTag _ rfl
  apply takesSlices.yields_readU8.bind
  rintro authorNetworkTag _ rfl
  apply takesSlices.yields_readU8.bind
  rintro authorIdLen _ rfl
  refine Yields.check (ends_decodeAuthorKind _ _) fun authorKind htags => ?_
  refine Yields.check (ends_validateAuthorIdLen _ _) fun _ hauthor => ?_
  apply (takesSlices.yields authorIdLen.toNat).bind
  rintro authorId _ ⟨rfl, hauthorLen⟩
  apply takesSlices.yields_readU64.bind
  rintro createdAtMs _ rfl
  apply takesSlices.yields_readU8.bind
  rintro payloadTag _ rfl
  refine Yields.check (ends_decodePayloadKind _) fun payloadKind hkind => ?_
  apply takesSlices.yields_readU16.bind
  rintro payloadLen _ rfl
  refine Yields.check (ends_rejectIf _ _) fun _ hlength => ?_
  apply (takesSlices.yields payloadLen.toNat).bind
  rintro payload _ ⟨rfl, hpayloadLen⟩
  refine Yields.check (ends_validatePayload _ _) fun _ hutf8 => ?_
  -- the two lengths on the wire are those of the slices they announced
  refine Yields.pure ⟨?_, ?_⟩
  · rw [← hauthorLen] at hauthor
    rw [← hpayloadLen] at hlength
    exact ⟨not_not.mp hversion, hroomId, hmessageId, hauthor, Nat.le_of_not_lt hlength, hutf8⟩
  · simp only [messageBytes, ← htags, hkind, hauthorLen, hpayloadLen, UInt8.ofNat_toNat,
      UInt16.ofNat_toNat, List.append_assoc, List.append_nil]
    rfl

/-- A valid message is read from its bytes. -/
theorem reads_readBridgeMessage {message : BridgeMessageRef} (h : ValidMessage message) :
    Reads readBridgeMessage (messageBytes message) message := by
  obtain ⟨authorKindTag, authorNetworkTag, htags, hkind⟩ :=
    decodeAuthorKind_authorTags h.author_length
  have hauthorLen : (UInt8.ofNat message.author.id.length).toNat = message.author.id.length := by
    have hle := expectedAuthorIdLen_le h.author_length
    rw [UInt8.toNat_ofNat', Nat.mod_eq_of_lt (by omega)]
  have hpayloadLen : (UInt16.ofNat message.payload.length).toNat = message.payload.length := by
    have hle := h.payload_length
    rw [hyfBridgePayloadMaxLen] at hle
    rw [UInt16.toNat_ofNat', Nat.mod_eq_of_lt (by omega)]
  -- from here on field by field; the checks in between are those of `ValidMessage`
  unfold readBridgeMessage messageBytes
  rw [htags]
  simp only [List.append_assoc]
  apply (takesSlices.reads_readU8 _).bind
  refine Reads.check (rejectIf_eq_ok (not_not.mpr h.version_eq)) ?_
  refine (takesSlices.reads_readArray _).bind ?_
  refine Reads.check (rejectIf_eq_ok h.roomId_ne) ?_
  refine (takesSlices.reads_readArray _).bind ?_
  refine Reads.check (rejectIf_eq_ok h.messageId_ne) ?_
  refine (takesSlices.reads_readU8 _).bind ?_
  apply (takesSlices.reads_readU8 _).bind
  apply (takesSlices.reads_readU8 _).bind
  refine Reads.check hkind ?_
  refine Reads.check (validateAuthorIdLen_eq_ok ?_) ?_
  · rw [hauthorLen]
    exact h.author_length
  apply (takesSlices.reads_of_length hauthorLen).bind
  apply (takesSlices.reads_readU64 _).bind
  apply (takesSlices.reads_readU8 _).bind
  refine Reads.check (decodePayloadKind_wireTag _) ?_
  refine (takesSlices.reads_readU16 _).bind ?_
  refine Reads.check (rejectIf_eq_ok ?_) ?_
  · rw [hpayloadLen]
    exact Nat.not_lt.mpr h.payload_length
  rw [← List.append_nil message.payload]
  apply (takesSlices.reads_of_length (by simpa using hpayloadLen)).bind
  refine Reads.check (validatePayload_eq_ok h.payload_utf8) ?_
  exact Reads.pure _

/-- A kind of author takes two tags. -/
theorem length_authorTags (kind : BridgeEndpointKind) : (authorTags kind).length = 2 := by
  cases kind
  · rfl
  · rfl

/-- The length of a message: two fixed parts, the author's identifier and the payload. -/
theorem length_messageBytes (message : BridgeMessageRef) :
    (messageBytes message).length =
      fixedPrefixLen + message.author.id.length + fixedSuffixLen + message.payload.length := by
  simp only [messageBytes, List.length_append, List.length_singleton, length_toBe, length_authorTags,
    List.Vector.toList_length, fixedPrefixLen, fixedSuffixLen, roomIdLen, messageIdLen]
  omega

/-- A valid message always fits the message size. -/
theorem ValidMessage.length_le {message : BridgeMessageRef} (h : ValidMessage message) :
    (messageBytes message).length ≤ 1119 := by
  have hauthor := expectedAuthorIdLen_le h.author_length
  have hpayload := h.payload_length
  rw [hyfBridgePayloadMaxLen] at hpayload
  rw [length_messageBytes, fixedPrefixLen, fixedSuffixLen, roomIdLen, messageIdLen, u64Len, u16Len]
  omega

/-- Whatever the decoder accepts is the layout of a valid message, and it never panics. -/
theorem ends_decodeBridgeMessage (input : List UInt8) : Ends (decodeBridgeMessage input)
    fun message => ValidMessage message ∧ input = messageBytes message := by
  refine (ends_rejectIf _ _).bind fun _ _ => ?_
  exact yields_readBridgeMessage.runOn_finishes (finishes_finish _) input

/-- The layout of a valid message decodes to it. -/
theorem decodeBridgeMessage_messageBytes {message : BridgeMessageRef} (h : ValidMessage message) :
    decodeBridgeMessage (messageBytes message) = .ok message := by
  have hlen := h.length_le
  unfold decodeBridgeMessage
  rw [Outcome.bind_eq (rejectIf_eq_ok (by rw [hyfBridgeMessageMaxLen]; omega))]
  apply (reads_readBridgeMessage h).runOn_finishes (finishes_finish _)
  rw [addressLimit]
  omega

/-! ## Encoding -/

/-- The length that is announced for a valid message is the length of its bytes. -/
theorem bridgeMessageEncodedLen_eq {message : BridgeMessageRef} (h : ValidMessage message) :
    bridgeMessageEncodedLen message = .ok (messageBytes message).length := by
  have hle := h.length_le
  have hlen := length_messageBytes message
  rw [hlen] at hle
  rw [bridgeMessageEncodedLen, validateBridgeMessageRef_eq_ok h, hlen]
  have hlimit : 1119 < addressLimit := by decide
  simp only [Bind.bind, Except.bind]
  rw [checkedAdd_eq_some (by omega), Option.bind_some, checkedAdd_eq_some (by omega),
    Option.bind_some, checkedAdd_eq_some (by omega), Option.filter_some,
    if_pos (by rw [decide_eq_true_eq, hyfBridgeMessageMaxLen]; omega)]

/-- A length is announced for valid messages only, without a panic. -/
theorem ends_bridgeMessageEncodedLen (message : BridgeMessageRef) :
    Ends (bridgeMessageEncodedLen message) fun len =>
      ValidMessage message ∧ len = (messageBytes message).length := by
  cases hcheck : validateBridgeMessageRef message with
  | ok =>
    have hvalid := validateBridgeMessageRef_eq_ok_iff.mp hcheck
    rw [bridgeMessageEncodedLen_eq hvalid]
    exact ⟨hvalid, rfl⟩
  | error fault =>
    have hends := ends_validateBridgeMessageRef message
    rw [hcheck] at hends
    rw [bridgeMessageEncodedLen, hcheck]
    cases fault with
    | error error => exact trivial
    | panic => exact hends

/-- A kind of author is written as its tags. -/
theorem writes_writeAuthorKind (kind : BridgeEndpointKind) :
    Writes (writeAuthorKind kind) (authorTags kind) := by
  cases kind with
  | hyfNode => exact (writes_writeArray _).bind (writes_writeArray _)
  | foreign network => exact (writes_writeArray _).bind (writes_writeArray _)

/-- A message is written as its bytes. -/
theorem writes_writeBridgeMessage (message : BridgeMessageRef) :
    Writes (writeBridgeMessage message) (messageBytes message) := by
  simp only [messageBytes, List.append_assoc]
  apply (writes_writeArray _).bind
  apply (writes_writeArray _).bind
  apply (writes_writeArray _).bind
  apply (writes_writeAuthorKind _).bind
  apply (writes_writeArray _).bind
  apply (writes_writeArray _).bind
  apply (writes_writeArray _).bind
  apply (writes_writeArray _).bind
  apply (writes_writeArray _).bind
  exact writes_writeArray _

/-- A valid message is written at the front of an output that has room for it. -/
theorem encodeBridgeMessage_eq {message : BridgeMessageRef} (h : ValidMessage message)
    {output : List UInt8} (hroom : (messageBytes message).length ≤ output.length) :
    encodeBridgeMessage message output = .ok ((messageBytes message).length,
      messageBytes message ++ output.drop (messageBytes message).length) := by
  have hlimit : (messageBytes message).length < addressLimit := by
    have hle := h.length_le
    rw [addressLimit]
    omega
  rw [encodeBridgeMessage, bridgeMessageEncodedLen_eq h]
  simp only [Bind.bind, Except.bind]
  rw [rejectIf_eq_ok (by omega), (writes_writeBridgeMessage message).runOn hlimit hroom]
  rfl

/-- What the encoder accepts is valid and fits the output. -/
theorem ends_encodeBridgeMessage (message : BridgeMessageRef) (output : List UInt8) :
    Ends (encodeBridgeMessage message output) fun written => ValidMessage message ∧
      written = ((messageBytes message).length,
        messageBytes message ++ output.drop (messageBytes message).length) := by
  apply (ends_bridgeMessageEncodedLen message).bind
  rintro _ ⟨hvalid, rfl⟩
  refine (ends_rejectIf _ _).bind fun _ hroom => ?_
  have hencode := encodeBridgeMessage_eq hvalid (Nat.le_of_not_lt hroom)
  rw [encodeBridgeMessage, bridgeMessageEncodedLen_eq hvalid] at hencode
  simp only [Bind.bind, Except.bind, rejectIf_eq_ok hroom] at hencode
  simp only [Bind.bind, Except.bind]
  rw [hencode]
  exact ⟨hvalid, rfl⟩

/-- A wrapped message is unwrapped again. -/
theorem ends_wrapBridgeMessage (raw : List UInt8) (params : BridgeWrapParams) :
    Ends (wrapBridgeMessage raw params) fun envelope => unwrapBridgeMessage envelope = .ok raw := by
  apply (ends_decodeBridgeMessage raw).with_eq.bind
  rintro message ⟨-, hdecode⟩
  refine (ends_ofResult _ _).bind fun _ hvalid => ?_
  show unwrapBridgeMessage _ = .ok raw
  rw [unwrapBridgeMessage, Outcome.bind_eq (ofResult_eq_ok hvalid _),
    Outcome.bind_eq (rejectIf_eq_ok (not_not.mpr rfl)), validateBridgeMessage,
    Outcome.bind_eq hdecode, Outcome.bind_eq (rejectIf_eq_ok (not_not.mpr rfl)),
    Outcome.bind_eq (rejectIf_eq_ok (not_not.mpr rfl))]
  rfl

/-- **The bridge codec is a bijection** between the messages the encoder accepts and the byte strings
the decoder accepts. -/
theorem bridgeCodec_bijection :
    (∀ message output len written, encodeBridgeMessage message output = .ok (len, written) →
      bridgeMessageEncodedLen message = .ok len ∧
      decodeBridgeMessage (written.take len) = .ok message) ∧
    (∀ bytes message, decodeBridgeMessage bytes = .ok message →
      ∀ output : List UInt8, bytes.length ≤ output.length →
        encodeBridgeMessage message output =
          .ok (bytes.length, bytes ++ output.drop bytes.length)) ∧
    ∀ message, (∃ output written, encodeBridgeMessage message output = .ok written) ↔
      ∃ bytes, decodeBridgeMessage bytes = .ok message := by
  -- both languages are `ValidMessage`, and both directions go through its layout
  have hencoded : ∀ message output written, encodeBridgeMessage message output = .ok written →
      ValidMessage message ∧ written = ((messageBytes message).length,
        messageBytes message ++ output.drop (messageBytes message).length) :=
    fun message output written h => (ends_encodeBridgeMessage message output).of_ok h
  refine ⟨?_, ?_, ?_⟩
  · intro message output len written hencode
    obtain ⟨hvalid, heq⟩ := hencoded message output _ hencode
    cases heq
    rw [List.take_left]
    exact ⟨bridgeMessageEncodedLen_eq hvalid, decodeBridgeMessage_messageBytes hvalid⟩
  · intro bytes message hdecode output hroom
    obtain ⟨hvalid, rfl⟩ := (ends_decodeBridgeMessage bytes).of_ok hdecode
    exact encodeBridgeMessage_eq hvalid hroom
  · intro message
    constructor
    · rintro ⟨output, written, hencode⟩
      exact ⟨_, decodeBridgeMessage_messageBytes (hencoded message output written hencode).1⟩
    · rintro ⟨bytes, hdecode⟩
      obtain ⟨hvalid, rfl⟩ := (ends_decodeBridgeMessage bytes).of_ok hdecode
      exact ⟨messageBytes message, _, encodeBridgeMessage_eq hvalid le_rfl⟩

/-- A small text message from BitChat, to evaluate definitions on. -/
def sampleMessage : BridgeMessageRef where
  version := 0
  roomId := ⟨fillBytes 16 1⟩
  messageId := ⟨fillBytes 32 2⟩
  author := ⟨.foreign .bitChat, [4, 4, 4, 4, 4, 4, 4, 4]⟩
  createdAtMs := 1000
  payloadKind := .textUtf8
  payload := [104, 105]

/-- The sample passes all checks. -/
theorem validMessage_sampleMessage : ValidMessage sampleMessage where
  version_eq := rfl
  roomId_ne := by decide
  messageId_ne := by decide
  author_length := rfl
  payload_length := by simp [sampleMessage, hyfBridgePayloadMaxLen]
  payload_utf8 := by decide

/-- The sample, there and back. -/
theorem bridgeCodec_sampleMessage : ∃ bytes, decodeBridgeMessage bytes = .ok sampleMessage ∧
    encodeBridgeMessage sampleMessage bytes = .ok (bytes.length, bytes) := by
  have hroom : (messageBytes sampleMessage).length ≤ (messageBytes sampleMessage).length := le_rfl
  have hencode := encodeBridgeMessage_eq validMessage_sampleMessage hroom
  rw [List.drop_length, List.append_nil] at hencode
  have hdecode := (bridgeCodec_bijection.1 _ _ _ _ hencode).2
  rw [List.take_length] at hdecode
  have hagain := bridgeCodec_bijection.2.1 _ _ hdecode _ hroom
  rw [List.drop_length, List.append_nil] at hagain
  exact ⟨messageBytes sampleMessage, hdecode, hagain⟩

end Hyf.Bridge
