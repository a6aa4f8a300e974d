import Hyf.Wire.Envelope

/-!
# The envelope codec is a round trip

`encodeEnvelope` writes exactly `wireBytes` at the front of its output, and `decodeEnvelope` reads
`wireBytes` back to the envelope it came from. The store, the router and the gateway use only these
two facts and the validity of whatever was decoded.
-/

namespace Hyf

open ByteCodec EnvelopeReader

/-- An envelope that `validate_envelope` accepts. -/
def ValidEnvelope (envelope : HyfEnvelopeRef) : Prop := validateEnvelope envelope = .ok ()

instance (envelope : HyfEnvelopeRef) : Decidable (ValidEnvelope envelope) :=
  inferInstanceAs (Decidable (validateEnvelope envelope = .ok ()))

/-- What the source checks of an envelope. -/
theorem validEnvelope_iff {envelope : HyfEnvelopeRef} :
    ValidEnvelope envelope ↔ envelope.version = hyfWireVersion0 ∧
      envelope.createdAtMs < envelope.expiresAtMs ∧
      envelope.payload.length ≤ hyfEnvelopeMaxPayloadLen := by
  unfold ValidEnvelope validateEnvelope
  split_ifs with hversion hexpiry hpayload
  · simp [hversion]
  · simp [UInt64.not_lt.mpr hexpiry]
  · simp only [false_iff]
    omega
  · simp only [true_iff]
    exact ⟨not_not.mp hversion, UInt64.not_le.mp hexpiry, by omega⟩

/-! ## Lengths -/

/-- A destination takes 35 bytes at most. -/
theorem length_destinationBytes (destination : HyfDestination) :
    (destinationBytes destination).length ≤ 35 := by
  cases destination with
  | node node => simp [destinationBytes]
  | community community => simp [destinationBytes]
  | foreign endpoint =>
    have hle := endpoint.length_le
    simp only [destinationBytes, List.length_append, List.length_singleton,
      foreignEndpointMaxLen] at hle ⊢
    omega

/-- An envelope takes 85 bytes besides its destination and its payload. -/
theorem length_wireBytes (envelope : HyfEnvelopeRef) :
    (wireBytes envelope).length =
      85 + (destinationBytes envelope.destination).length + envelope.payload.length := by
  simp only [wireBytes, List.length_append, List.length_singleton, List.Vector.toList_length,
    length_toBe, u64Len, u16Len]
  omega

/-- `fixed_encoded_len` does not overflow. -/
theorem fixedEncodedLen_eq (destination : HyfDestination) :
    fixedEncodedLen destination = .ok (85 + (destinationBytes destination).length) := by
  have hfixed : 1 + messageIdLen + nodeIdLen + u64Len + u64Len + 1 + 1 + u16Len = 85 := rfl
  have hadd : ∀ len ≤ 35, checkedAdd len 85 = some (85 + len) := by
    intro len hlen
    rw [checkedAdd, if_pos (by rw [addressLimit]; omega), Nat.add_comm]
  have hle := length_destinationBytes destination
  cases destination with
  | node node =>
    have hlen : (destinationBytes (.node node)).length = 1 + nodeIdLen := by
      simp [destinationBytes, nodeIdLen]
    rw [hlen] at hle ⊢
    simp only [fixedEncodedLen, hfixed, hadd _ hle]
  | community community =>
    have hlen : (destinationBytes (.community community)).length = 1 + communityIdLen := by
      simp [destinationBytes, communityIdLen]
    rw [hlen] at hle ⊢
    simp only [fixedEncodedLen, hfixed, hadd _ hle]
  | foreign endpoint =>
    have hlen : (destinationBytes (.foreign endpoint)).length = 1 + 1 + 1 + endpoint.len := by
      simp only [destinationBytes, List.length_append, List.length_singleton, ForeignEndpointId.len]
      omega
    rw [hlen] at hle ⊢
    simp only [fixedEncodedLen, hfixed, hadd _ hle]

/-- The length function agrees with the layout. -/
theorem envelopeEncodedLen_eq {envelope : HyfEnvelopeRef} (h : ValidEnvelope envelope) :
    envelopeEncodedLen envelope = .ok (wireBytes envelope).length := by
  have hpayload := (validEnvelope_iff.mp h).2.2
  have hdestination := length_destinationBytes envelope.destination
  rw [hyfEnvelopeMaxPayloadLen] at hpayload
  have hadd : checkedAdd (85 + (destinationBytes envelope.destination).length)
      envelope.payload.length = some (wireBytes envelope).length := by
    rw [checkedAdd, addressLimit, if_pos (by omega), length_wireBytes]
  rw [ValidEnvelope] at h
  simp only [envelopeEncodedLen, h, fixedEncodedLen_eq, hadd, Except.bind, Bind.bind]

/-- An invalid envelope has no length. -/
theorem envelopeEncodedLen_of_invalid {envelope : HyfEnvelopeRef} {error : HyfWireError}
    (h : validateEnvelope envelope = .error error) :
    envelopeEncodedLen envelope = .error error := by
  simp only [envelopeEncodedLen, h, Except.bind, Bind.bind]

/-! ## Encoding -/

/-- The bytes of a destination are written. -/
theorem encodeDestination_eq {cursor : WriteCursor} (h : cursor.index ≤ cursor.output.length)
    (destination : HyfDestination) :
    encodeDestination destination cursor = cursor.writeArray (destinationBytes destination) := by
  cases destination <;>
    simp only [encodeDestination, destinationBytes, WriteCursor.writeU8,
      WriteCursor.writeArray_writeArray h, List.append_assoc]

/-- **The encoder writes the layout** at the front of the output and keeps the rest of it. -/
theorem encodeEnvelope_eq {envelope : HyfEnvelopeRef} (h : ValidEnvelope envelope)
    {output : List UInt8} (hlen : (wireBytes envelope).length ≤ output.length) :
    encodeEnvelope envelope output = .ok ((wireBytes envelope).length,
      wireBytes envelope ++ output.drop (wireBytes envelope).length) := by
  have hnew : (WriteCursor.new output).index ≤ (WriteCursor.new output).output.length :=
    Nat.zero_le _
  have hwrite : ∀ a : List UInt8, ((WriteCursor.new output).writeArray a).index ≤
      ((WriteCursor.new output).writeArray a).output.length := by
    intro a
    simp only [WriteCursor.writeArray, WriteCursor.new, List.length_append]
    omega
  simp only [encodeEnvelope, envelopeEncodedLen_eq h, Except.bind, Bind.bind]
  rw [if_neg (by omega)]
  simp only [WriteCursor.writeU8, WriteCursor.writeU16, WriteCursor.writeU64,
    WriteCursor.writeArray_writeArray hnew, encodeDestination_eq (hwrite _)]
  simp [WriteCursor.writeArray, WriteCursor.new, wireBytes, Pure.pure, Except.pure, u64Len, u16Len]

/-- A buffer that is too short is refused. -/
theorem encodeEnvelope_of_short {envelope : HyfEnvelopeRef} (h : ValidEnvelope envelope)
    {output : List UInt8} (hlen : output.length < (wireBytes envelope).length) :
    encodeEnvelope envelope output =
      .error (.outputBufferTooShort output.length (wireBytes envelope).length) := by
  simp only [encodeEnvelope, envelopeEncodedLen_eq h, Except.bind, Bind.bind]
  rw [if_pos hlen]
  rfl

/-! ## Decoding -/

/-- An array is read from its bytes. -/
theorem reads_slice {len : ℕ} (value : ByteArrayN len) :
    Reads (EnvelopeReader.readSlice len) value.toList value :=
  reads_readSlice _ _ value

/-- A byte is read from itself. -/
theorem reads_readU8 (value : UInt8) : Reads readU8 [value] value :=
  (reads_slice (⟨[value], rfl⟩ : ByteArrayN 1)).map List.Vector.head

/-- A number of 16 bits is read from its big-endian bytes. -/
theorem reads_readU16 (value : UInt16) : Reads readU16 (toBe u16Len value.toNat) value := by
  have h := (reads_slice (⟨toBe u16Len value.toNat, length_toBe _ _⟩ : ByteArrayN u16Len)).map
    fun slice => UInt16.ofNat (ofBe slice.toList)
  have hvalue : ofBe (toBe u16Len value.toNat) = value.toNat := ofBe_toBe value.toNat_lt
  rwa [List.Vector.toList_mk, hvalue, UInt16.ofNat_toNat] at h

/-- A number of 64 bits is read from its big-endian bytes. -/
theorem reads_readU64 (value : UInt64) : Reads readU64 (toBe u64Len value.toNat) value := by
  have h := (reads_slice (⟨toBe u64Len value.toNat, length_toBe _ _⟩ : ByteArrayN u64Len)).map
    fun slice => UInt64.ofNat (ofBe slice.toList)
  have hvalue : ofBe (toBe u64Len value.toNat) = value.toNat := ofBe_toBe value.toNat_lt
  rwa [List.Vector.toList_mk, hvalue, UInt64.ofNat_toNat] at h

/-- The tag of a kind of payload decodes to it. -/
theorem PayloadKind.fromWireTag_wireTag (kind : PayloadKind) :
    fromWireTag kind.wireTag = .ok kind := by
  cases kind <;> rfl

/-- Only a kind's own tag decodes to it. -/
theorem PayloadKind.wireTag_of_fromWireTag {tag : UInt8} {kind : PayloadKind}
    (h : fromWireTag tag = .ok kind) : kind.wireTag = tag := by
  unfold fromWireTag at h
  split_ifs at h with h0 h1 h16 h17 h18
  all_goals cases h; simp [wireTag, *]

/-- A destination is read from its bytes. -/
theorem reads_decodeDestination (destination : HyfDestination) :
    Reads decodeDestination (destinationBytes destination) destination := by
  unfold decodeDestination destinationBytes
  cases destination with
  | node node =>
    apply (reads_readU8 0).bind
    rw [if_pos rfl]
    exact (reads_slice node.bytes).map fun bytes => HyfDestination.node ⟨bytes⟩
  | community community =>
    apply (reads_readU8 1).bind
    rw [if_neg (by decide), if_pos rfl]
    exact (reads_slice community.bytes).map fun bytes => HyfDestination.community ⟨bytes⟩
  | foreign endpoint =>
    have hle := endpoint.length_le
    rw [foreignEndpointMaxLen] at hle
    have hlen : (UInt8.ofNat endpoint.len).toNat = endpoint.bytes.length := by
      rw [UInt8.toNat_ofNat', ForeignEndpointId.len, Nat.mod_eq_of_lt (by omega)]
    apply (reads_readU8 2).bind
    rw [if_neg (by decide), if_neg (by decide), if_pos rfl]
    simp only [List.append_assoc]
    apply (reads_readU8 endpoint.network.wireTag).bind
    apply Reads.check (by rw [ForeignNetworkKind.fromWireTag_wireTag]; rfl)
    apply (reads_readU8 (UInt8.ofNat endpoint.len)).bind
    -- the slice length is read from the wire, so the vector it yields is the endpoint's bytes
    have hread := reads_slice
      (⟨endpoint.bytes, hlen.symm⟩ : ByteArrayN (UInt8.ofNat endpoint.len).toNat)
    rw [← List.append_nil endpoint.bytes]
    refine hread.bind (Reads.check (a := endpoint) ?_ (Reads.pure _))
    rw [List.Vector.toList_mk, ForeignEndpointId.new_self]
    rfl

/-- A valid envelope is read from its bytes. -/
theorem reads_readEnvelope {envelope : HyfEnvelopeRef} (h : ValidEnvelope envelope) :
    Reads readEnvelope (wireBytes envelope) envelope := by
  obtain ⟨hversion, -, hpayload⟩ := validEnvelope_iff.mp h
  rw [hyfEnvelopeMaxPayloadLen] at hpayload
  have hlen : (UInt16.ofNat envelope.payload.length).toNat = envelope.payload.length := by
    rw [UInt16.toNat_ofNat', Nat.mod_eq_of_lt (by omega)]
  have hread := (reads_slice (⟨envelope.payload, hlen.symm⟩ :
    ByteArrayN (UInt16.ofNat envelope.payload.length).toNat)).map fun payload =>
      { envelope with payload := payload.toList }
  simp only [wireBytes, List.append_assoc]
  apply (reads_readU8 envelope.version).bind
  rw [if_neg (not_not.mpr hversion)]
  apply (reads_slice envelope.messageId.bytes).bind
  apply (reads_slice envelope.source.bytes).bind
  apply (reads_decodeDestination envelope.destination).bind
  apply (reads_readU64 envelope.createdAtMs).bind
  apply (reads_readU64 envelope.expiresAtMs).bind
  apply (reads_readU8 envelope.hopLimit).bind
  apply (reads_readU8 envelope.payloadKind.wireTag).bind
  apply Reads.check (PayloadKind.fromWireTag_wireTag _)
  exact (reads_readU16 (UInt16.ofNat envelope.payload.length)).bind hread

/-- **Round trip.** The decoder returns the envelope whose layout it is given. -/
theorem decodeEnvelope_wireBytes {envelope : HyfEnvelopeRef} (h : ValidEnvelope envelope) :
    decodeEnvelope (wireBytes envelope) = .ok envelope := by
  have hpayload := (validEnvelope_iff.mp h).2.2
  have hdestination := length_destinationBytes envelope.destination
  rw [hyfEnvelopeMaxPayloadLen] at hpayload
  have hlimit : (wireBytes envelope).length < addressLimit := by
    rw [length_wireBytes, addressLimit]
    omega
  have hread := reads_readEnvelope h (ReadCursor.new (wireBytes envelope)) [] hlimit
    (Nat.zero_le _) (by simp [ReadCursor.new])
  simp only [decodeEnvelope, StateT.run, hread, Except.bind, Bind.bind]
  rw [if_neg (by simp [ReadCursor.new, ReadCursor.position])]
  rw [ValidEnvelope] at h
  simp only [h, Pure.pure, Except.pure]

/-- Whatever the decoder accepts is a valid envelope. -/
theorem validEnvelope_of_decodeEnvelope {bytes : List UInt8} {envelope : HyfEnvelopeRef}
    (h : decodeEnvelope bytes = .ok envelope) : ValidEnvelope envelope := by
  unfold decodeEnvelope at h
  simp only [Bind.bind, Except.bind] at h
  split at h
  · cases h
  · split_ifs at h
    split at h
    · cases h
    · rename_i hvalid
      cases h
      exact hvalid

/-- A small message, to evaluate definitions on: id and source are constant bytes, and it expires at
time 100. -/
def sampleEnvelope (id : UInt8) (destination : HyfDestination) (hopLimit : UInt8) :
    HyfEnvelopeRef where
  version := hyfWireVersion0
  messageId := ⟨fillBytes 32 id⟩
  source := ⟨fillBytes 32 9⟩
  destination := destination
  createdAtMs := 1
  expiresAtMs := 100
  hopLimit := hopLimit
  payloadKind := .hyfNativeV0
  payload := [7]

/-- The sample envelopes are valid. -/
theorem validEnvelope_sampleEnvelope (id : UInt8) (destination : HyfDestination)
    (hopLimit : UInt8) : ValidEnvelope (sampleEnvelope id destination hopLimit) := by
  refine validEnvelope_iff.mpr ⟨rfl, ?_, ?_⟩
  · change (1 : UInt64) < 100
    decide
  · change 1 ≤ hyfEnvelopeMaxPayloadLen
    decide

end Hyf
