import Hyf.Common.CursorM
import Hyf.Wire.EnvelopeTheorems

/-!
# The envelope codec with its panics

The functions of `Hyf.Wire.Envelope` cannot panic: their slices are in bounds by construction. Here
the encoder and the decoder are written once more over cursors whose slices, indices and additions
panic as in the source. `Checked.decodeEnvelope_eq` and `Checked.encodeEnvelope_eq` say that this
changes nothing: no input makes them panic, and the values and errors are the same.

The decoder here also gives the converse of the round trip: whatever it accepts is the layout of the
envelope it returns, byte for byte.
-/

namespace Hyf

open ByteCodec CursorM WriterM

namespace Checked

/-! ## Decoding -/

/-- `read_slice`, with its addition checked. -/
def readSlice : ℕ → CursorM HyfWireError (List UInt8) :=
  takeSlice (fun _ len => .envelopeTooLarge len hyfEnvelopeMaxPayloadLen)
    fun cursor len => .inputTooShort cursor.input.length (cursor.index + len)

/-- `decode_destination`. -/
def decodeDestination : CursorM HyfWireError HyfDestination := do
  let tag ← readU8 readSlice
  if tag = 0 then
    return .node ⟨← readArray readSlice nodeIdLen⟩
  else if tag = 1 then
    return .community ⟨← readArray readSlice communityIdLen⟩
  else if tag = 2 then
    let networkTag ← readU8 readSlice
    let network ← raise (ofResult .invalidForeignEndpoint (ForeignNetworkKind.fromWireTag networkTag))
    let endpointLen ← readU8 readSlice
    let bytes ← readSlice endpointLen.toNat
    let endpoint ← raise (ofResult .invalidForeignEndpoint (ForeignEndpointId.new network bytes))
    return .foreign endpoint
  else
    raise (fail (.invalidDestinationTag tag))

/-- The body of `decode_envelope`, before the check for trailing bytes. -/
def readEnvelope : CursorM HyfWireError HyfEnvelopeRef := do
  let version ← readU8 readSlice
  raise (rejectIf (version ≠ hyfWireVersion0) (.invalidVersion version))
  let messageId ← readArray readSlice messageIdLen
  let source ← readArray readSlice nodeIdLen
  let destination ← decodeDestination
  let createdAtMs ← readU64 readSlice
  let expiresAtMs ← readU64 readSlice
  let hopLimit ← readU8 readSlice
  let payloadTag ← readU8 readSlice
  let payloadKind ← raise (ofResult id (PayloadKind.fromWireTag payloadTag))
  let payloadLen ← readU16 readSlice
  let payload ← readSlice payloadLen.toNat
  return {
    version, messageId := ⟨messageId⟩, source := ⟨source⟩, destination, createdAtMs, expiresAtMs,
    hopLimit, payloadKind, payload }

/-- `decode_envelope`. -/
def decodeEnvelope (input : List UInt8) : Outcome HyfWireError HyfEnvelopeRef := do
  let envelope ← runOn (do
    let envelope ← readEnvelope
    finish fun cursor => .trailingBytes cursor.input.length cursor.index
    return envelope) input
  ofResult id (validateEnvelope envelope)
  return envelope

/-! ## Encoding -/

/-- `encode_destination`. -/
def encodeDestination (destination : HyfDestination) : WriterM HyfWireError Unit := do
  writeU8 destination.wireTag
  match destination with
  | .node node => writeArray node.bytes.toList
  | .community community => writeArray community.bytes.toList
  | .foreign endpoint => do
    writeU8 endpoint.network.wireTag
    writeU8 (UInt8.ofNat endpoint.len)
    writeArray endpoint.bytes

/-- The body of `encode_envelope`, behind the checks of its lengths. -/
def writeEnvelope (envelope : HyfEnvelopeRef) : WriterM HyfWireError Unit := do
  writeU8 envelope.version
  writeArray envelope.messageId.bytes.toList
  writeArray envelope.source.bytes.toList
  encodeDestination envelope.destination
  writeU64 envelope.createdAtMs
  writeU64 envelope.expiresAtMs
  writeU8 envelope.hopLimit
  writeU8 envelope.payloadKind.wireTag
  writeU16 (UInt16.ofNat envelope.payload.length)
  writeArray envelope.payload

/-- `encode_envelope`: how many bytes were written, and the output with them. -/
def encodeEnvelope (envelope : HyfEnvelopeRef) (output : List UInt8) :
    Outcome HyfWireError (ℕ × List UInt8) := do
  let required ← ofResult id (envelopeEncodedLen envelope)
  rejectIf (output.length < required) (.outputBufferTooShort output.length required)
  let cursor ← WriterM.runOn (writeEnvelope envelope) output
  return (required, cursor.output)

/-! ## What the decoder accepts -/

/-- The decoder's slices take exactly what they are asked for. -/
theorem takesSlices : TakesSlices readSlice := takesSlices_takeSlice _ _

/-- A destination that was read has the bytes of one. -/
theorem yields_decodeDestination :
    Yields decodeDestination fun destination bytes => bytes = destinationBytes destination := by
  unfold decodeDestination
  apply takesSlices.yields_readU8.bind
  rintro tag first rfl
  split_ifs with hnode hcommunity hforeign
  · subst hnode
    apply (takesSlices.yields_readArray nodeIdLen).bind
    rintro bytes second rfl
    apply Yields.pure
    rw [List.append_nil]
    rfl
  · subst hcommunity
    apply (takesSlices.yields_readArray communityIdLen).bind
    rintro bytes second rfl
    apply Yields.pure
    rw [List.append_nil]
    rfl
  · subst hforeign
    apply takesSlices.yields_readU8.bind
    rintro networkTag second rfl
    apply Yields.check (ends_ofResult _ _)
    intro network hnetwork
    apply takesSlices.yields_readU8.bind
    rintro endpointLen third rfl
    apply (takesSlices.yields endpointLen.toNat).bind
    rintro bytes fourth ⟨rfl, hlen⟩
    apply Yields.check (ends_ofResult _ _)
    intro endpoint hendpoint
    obtain ⟨rfl, rfl⟩ := ForeignEndpointId.new_eq_ok hendpoint
    have htag := ForeignNetworkKind.wireTag_of_fromWireTag hnetwork
    -- the length is not a field of the endpoint, it is recovered from its bytes
    have hlenByte : UInt8.ofNat endpoint.len = endpointLen := by
      rw [ForeignEndpointId.len, hlen, UInt8.ofNat_toNat]
    exact Yields.pure (by simp [destinationBytes, HyfDestination.wireTag, htag, hlenByte])
  · exact Yields.raise trivial

/-- An envelope that was read has the bytes of one. -/
theorem yields_readEnvelope :
    Yields readEnvelope fun envelope bytes => bytes = wireBytes envelope := by
  unfold readEnvelope
  apply takesSlices.yields_readU8.bind
  rintro version _ rfl
  apply Yields.check (ends_rejectIf _ _)
  intro _ hversion
  apply (takesSlices.yields_readArray messageIdLen).bind
  rintro messageId _ rfl
  apply (takesSlices.yields_readArray nodeIdLen).bind
  rintro source _ rfl
  apply yields_decodeDestination.bind
  rintro destination _ rfl
  apply takesSlices.yields_readU64.bind
  rintro createdAtMs _ rfl
  apply takesSlices.yields_readU64.bind
  rintro expiresAtMs _ rfl
  apply takesSlices.yields_readU8.bind
  rintro hopLimit _ rfl
  apply takesSlices.yields_readU8.bind
  rintro payloadTag _ rfl
  apply Yields.check (ends_ofResult _ _)
  intro payloadKind hkind
  apply takesSlices.yields_readU16.bind
  rintro payloadLen _ rfl
  apply (takesSlices.yields payloadLen.toNat).bind
  rintro payload _ ⟨rfl, hlen⟩
  apply Yields.pure
  have htag := PayloadKind.wireTag_of_fromWireTag hkind
  simp only [wireBytes, htag, hlen, UInt16.ofNat_toNat, List.append_assoc, List.append_nil]
  rfl

/-! ## Agreement with the codec without panics -/

/-- `checked` does what `reader` does: it returns the image of the same value at the same position,
or reports the same error. -/
def Agrees {α β : Type} (f : β → α) (checked : CursorM HyfWireError α)
    (reader : EnvelopeReader β) : Prop :=
  ∀ cursor : Cursor, cursor.index ≤ cursor.input.length →
    match reader ⟨cursor.input, cursor.index⟩ with
    | .ok (b, next) => next.index ≤ next.input.length ∧
        checked cursor = .ok (f b) ⟨next.input, next.index, cursor.ticks⟩
    | .error e => ∃ cursor', checked cursor = .error (.error e) cursor'

section

variable {α β γ δ : Type}

/-- Readers that agree part by part agree. -/
theorem Agrees.bind {f : β → α} {g : δ → γ} {checked : CursorM HyfWireError α}
    {reader : EnvelopeReader β} {checkedNext : α → CursorM HyfWireError γ}
    {next : β → EnvelopeReader δ} (h : Agrees f checked reader)
    (hnext : ∀ b, Agrees g (checkedNext (f b)) (next b)) :
    Agrees g (checked >>= checkedNext) (reader >>= next) := by
  intro cursor hindex
  have hfirst := h cursor hindex
  simp only [Bind.bind, EStateM.bind, StateT.bind, Except.bind]
  cases hrun : reader ⟨cursor.input, cursor.index⟩ with
  | error e =>
    rw [hrun] at hfirst
    obtain ⟨cursor', hchecked⟩ := hfirst
    rw [hchecked]
    exact ⟨cursor', rfl⟩
  | ok result =>
    obtain ⟨b, middle⟩ := result
    rw [hrun] at hfirst
    rw [hfirst.2]
    exact hnext b ⟨middle.input, middle.index, cursor.ticks⟩ hfirst.1

/-- The same value without reading. -/
theorem Agrees.pure {f : β → α} {a : α} {b : β} (h : a = f b) :
    Agrees f (Pure.pure a) (Pure.pure b) := by
  subst h
  exact fun cursor hindex => ⟨hindex, rfl⟩

/-- The same outcome of a check on the side. -/
theorem Agrees.ofExcept {ε : Type} {convert : ε → HyfWireError} {x : Except ε α}
    {y : Except HyfWireError α} (h : x.mapError convert = y) :
    Agrees id (raise (ofResult convert x)) (MonadExcept.ofExcept y) := by
  subst h
  intro cursor hindex
  cases x with
  | ok a => exact ⟨hindex, rfl⟩
  | error e => exact ⟨cursor, rfl⟩

/-- Both slice reads take the same bytes or report the same error. -/
theorem agrees_readSlice (len : ℕ) :
    Agrees List.Vector.toList (readSlice len) (EnvelopeReader.readSlice len) := by
  intro cursor hindex
  unfold EnvelopeReader.readSlice ByteCodec.readSlice readSlice takeSlice checkedAdd
  simp only
  by_cases hlimit : cursor.index + len < addressLimit
  · rw [if_pos hlimit]
    by_cases hfits : cursor.index + len ≤ cursor.input.length
    · simp only [dif_pos hfits, slice]
      rw [if_neg (by omega), if_pos (by omega), Nat.add_sub_cancel_left]
      exact ⟨hfits, rfl⟩
    · simp only [dif_neg hfits]
      rw [if_pos (by omega)]
      exact ⟨cursor, rfl⟩
  · rw [if_neg hlimit]
    exact ⟨cursor, rfl⟩

/-- Both readers take the same arrays. -/
theorem agrees_readArray (n : ℕ) :
    Agrees id (readArray readSlice n) (EnvelopeReader.readSlice n) := by
  have harray : ∀ b : List.Vector UInt8 n, Agrees id
      (raise (toArray n b.toList : Outcome HyfWireError _)) (Pure.pure b) := by
    intro b
    rw [toArray, dif_pos b.toList_length]
    exact Agrees.pure rfl
  have hbind : Agrees id (readArray readSlice n) (EnvelopeReader.readSlice n >>= Pure.pure) :=
    (agrees_readSlice n).bind harray
  rwa [bind_pure] at hbind

/-- Both readers take the same byte. -/
theorem agrees_readU8 : Agrees id (readU8 readSlice) EnvelopeReader.readU8 := by
  apply (agrees_readSlice 1).bind
  intro b
  have hbyte : (byteAt b.toList 0 : Outcome HyfWireError UInt8) = .ok b.head := by
    obtain ⟨byte, rest, rfl⟩ := b.exists_eq_cons
    rfl
  rw [hbyte]
  exact Agrees.pure rfl

/-- Both readers take the same number of 16 bits. -/
theorem agrees_readU16 : Agrees id (readU16 readSlice) EnvelopeReader.readU16 :=
  (agrees_readArray 2).bind fun _ => Agrees.pure rfl

/-- Both readers take the same number of 64 bits. -/
theorem agrees_readU64 : Agrees id (readU64 readSlice) EnvelopeReader.readU64 :=
  (agrees_readArray 8).bind fun _ => Agrees.pure rfl

/-- Both readers fail with the same error. -/
theorem Agrees.error (error : HyfWireError) :
    Agrees (id : α → α) (raise (fail error)) (throw error : EnvelopeReader α) :=
  fun cursor _ => ⟨cursor, rfl⟩

/-- Both readers take the same destination. -/
theorem agrees_decodeDestination : Agrees id decodeDestination Hyf.decodeDestination := by
  refine agrees_readU8.bind fun tag => ?_
  simp only [id]
  split_ifs
  · exact (agrees_readArray nodeIdLen).bind fun _ => Agrees.pure rfl
  · exact (agrees_readArray communityIdLen).bind fun _ => Agrees.pure rfl
  · refine agrees_readU8.bind fun networkTag => ?_
    refine (Agrees.ofExcept rfl).bind fun network => ?_
    refine agrees_readU8.bind fun endpointLen => ?_
    refine (agrees_readSlice _).bind fun bytes => ?_
    exact (Agrees.ofExcept rfl).bind fun endpoint => Agrees.pure rfl
  · exact Agrees.error _

/-- Both readers take the same envelope. -/
theorem agrees_readEnvelope : Agrees id readEnvelope Hyf.readEnvelope := by
  refine agrees_readU8.bind fun version => ?_
  by_cases hversion : version ≠ hyfWireVersion0
  · rw [id, rejectIf, if_pos hversion, if_pos hversion]
    exact fun cursor _ => ⟨cursor, rfl⟩
  rw [id, rejectIf, if_neg hversion, if_neg hversion]
  refine (agrees_readArray messageIdLen).bind fun messageId => ?_
  refine (agrees_readArray nodeIdLen).bind fun source => ?_
  refine agrees_decodeDestination.bind fun destination => ?_
  refine agrees_readU64.bind fun createdAtMs => ?_
  refine agrees_readU64.bind fun expiresAtMs => ?_
  refine agrees_readU8.bind fun hopLimit => ?_
  refine agrees_readU8.bind fun payloadTag => ?_
  have hkind : (PayloadKind.fromWireTag payloadTag).mapError id =
      PayloadKind.fromWireTag payloadTag := by
    cases PayloadKind.fromWireTag payloadTag <;> rfl
  refine (Agrees.ofExcept hkind).bind fun payloadKind => ?_
  refine agrees_readU16.bind fun payloadLen => ?_
  exact (agrees_readSlice _).bind fun payload => Agrees.pure rfl

end

/-- **The decoder never panics**, and its values and errors are those of the decoder without
panics. -/
theorem decodeEnvelope_eq (input : List UInt8) :
    decodeEnvelope input = ofResult id (Hyf.decodeEnvelope input) := by
  have hread := agrees_readEnvelope ⟨input, 0, 0⟩ (Nat.zero_le _)
  simp only at hread
  unfold decodeEnvelope Hyf.decodeEnvelope
  simp only [CursorM.runOn, StateT.run, Bind.bind, EStateM.bind, Except.bind, ReadCursor.new]
  cases hrun : Hyf.readEnvelope ⟨input, 0⟩ with
  | error e =>
    rw [hrun] at hread
    obtain ⟨cursor, hchecked⟩ := hread
    rw [hchecked]
    rfl
  | ok result =>
    obtain ⟨envelope, cursor⟩ := result
    rw [hrun] at hread
    obtain ⟨-, hchecked⟩ := hread
    obtain ⟨bytes, htook, -⟩ := yields_readEnvelope.sound _ _ _ (Nat.zero_le _) hchecked
    have hinput : cursor.input = input := htook.input_eq
    rw [hchecked]
    simp only [run_finish, hinput, ReadCursor.position, id]
    by_cases hend : cursor.index = input.length
    · simp only [hend, ne_eq, not_true_eq_false, if_true, if_false, Pure.pure, EStateM.pure]
      cases validateEnvelope envelope <;> rfl
    · simp only [hend, ne_eq, not_false_eq_true, if_true, if_false]
      rfl

/-- Whatever the decoder accepts is the layout of the envelope it returns. -/
theorem ends_decodeEnvelope (input : List UInt8) : Ends (decodeEnvelope input) fun envelope =>
    ValidEnvelope envelope ∧ input = wireBytes envelope := by
  apply (yields_readEnvelope.runOn_finishes (finishes_finish _) input).bind
  intro envelope hbytes
  apply (ends_ofResult _ _).bind
  intro _ hvalid
  exact ⟨hvalid, hbytes⟩

/-- A destination is written as its bytes. -/
theorem writes_encodeDestination (destination : HyfDestination) :
    Writes (encodeDestination destination) (destinationBytes destination) := by
  unfold encodeDestination destinationBytes
  apply (writes_writeArray _).bind
  cases destination with
  | node node => exact writes_writeArray _
  | community community => exact writes_writeArray _
  | foreign endpoint =>
    simp only [List.append_assoc]
    exact (writes_writeArray _).bind ((writes_writeArray _).bind (writes_writeArray _))

/-- An envelope is written as its bytes. -/
theorem writes_writeEnvelope (envelope : HyfEnvelopeRef) :
    Writes (writeEnvelope envelope) (wireBytes envelope) := by
  simp only [wireBytes, List.append_assoc]
  apply (writes_writeArray _).bind
  apply (writes_writeArray _).bind
  apply (writes_writeArray _).bind
  apply (writes_encodeDestination _).bind
  apply (writes_writeArray _).bind
  apply (writes_writeArray _).bind
  apply (writes_writeArray _).bind
  apply (writes_writeArray _).bind
  apply (writes_writeArray _).bind
  exact writes_writeArray _

/-- **The encoder never panics**, and its results are those of the encoder without panics. -/
theorem encodeEnvelope_eq (envelope : HyfEnvelopeRef) (output : List UInt8) :
    encodeEnvelope envelope output = ofResult id (Hyf.encodeEnvelope envelope output) := by
  cases hcheck : validateEnvelope envelope with
  | error error =>
    have hlen := envelopeEncodedLen_of_invalid hcheck
    simp only [encodeEnvelope, Hyf.encodeEnvelope, hlen, Bind.bind, Except.bind]
    rfl
  | ok =>
    have hvalid : ValidEnvelope envelope := hcheck
    have hlen := envelopeEncodedLen_eq hvalid
    -- with room the cursor stays inside the output; without it both encoders refuse first
    by_cases hroom : (wireBytes envelope).length ≤ output.length
    · have hlimit : (wireBytes envelope).length < addressLimit := by
        have hpayload := (validEnvelope_iff.mp hvalid).2.2
        have hdestination := length_destinationBytes envelope.destination
        rw [hyfEnvelopeMaxPayloadLen] at hpayload
        rw [length_wireBytes, addressLimit]
        omega
      have hwrite := (writes_writeEnvelope envelope).runOn hlimit hroom
      rw [Hyf.encodeEnvelope_eq hvalid hroom]
      simp only [encodeEnvelope, hlen, ofResult, Bind.bind, Except.bind, hwrite]
      rw [rejectIf, if_neg (by omega)]
      rfl
    · rw [encodeEnvelope_of_short hvalid (by omega)]
      simp only [encodeEnvelope, hlen, ofResult, Bind.bind, Except.bind]
      rw [rejectIf, if_pos (by omega)]
      rfl

end Checked

/-- **The envelope codec is a bijection** between valid envelopes and the byte strings it accepts:
a valid envelope is encoded in exactly `envelope_encoded_len` bytes at the front of any output that
has room for them and is decoded from them; bytes that decode to an envelope are its encoding; and
no input makes the decoder panic. -/
theorem envelopeCodec_bijection :
    (∀ envelope, ValidEnvelope envelope → ∃ len, envelopeEncodedLen envelope = .ok len ∧
      ∀ output : List UInt8, len ≤ output.length → ∃ bytes, bytes.length = len ∧
        Checked.encodeEnvelope envelope output = .ok (len, bytes ++ output.drop len) ∧
        Checked.decodeEnvelope bytes = .ok envelope) ∧
    (∀ bytes envelope, Checked.decodeEnvelope bytes = .ok envelope →
      ∀ output : List UInt8, bytes.length ≤ output.length →
        Checked.encodeEnvelope envelope output =
          .ok (bytes.length, bytes ++ output.drop bytes.length)) ∧
    ∀ bytes, Checked.decodeEnvelope bytes ≠ .error .panic := by
  refine ⟨?_, ?_, ?_⟩
  · intro envelope hvalid
    refine ⟨_, envelopeEncodedLen_eq hvalid, fun output hroom => ?_⟩
    refine ⟨wireBytes envelope, rfl, ?_, ?_⟩
    · rw [Checked.encodeEnvelope_eq, encodeEnvelope_eq hvalid hroom]
      rfl
    · rw [Checked.decodeEnvelope_eq, decodeEnvelope_wireBytes hvalid]
      rfl
  · intro bytes envelope hdecode output hroom
    obtain ⟨hvalid, rfl⟩ := (Checked.ends_decodeEnvelope bytes).of_ok hdecode
    rw [Checked.encodeEnvelope_eq, encodeEnvelope_eq hvalid hroom]
    rfl
  · exact fun bytes => (Checked.ends_decodeEnvelope bytes).ne_panic

/-- A foreign endpoint with a one-byte name. -/
def sampleEndpoint : ForeignEndpointId := ⟨.nostr, [5], by decide, by decide⟩

/-- An envelope to another network's endpoint, there and back. -/
theorem envelopeCodec_sampleEndpoint : ∃ bytes,
    Checked.decodeEnvelope bytes = .ok (sampleEnvelope 2 (.foreign sampleEndpoint) 3) ∧
    Checked.encodeEnvelope (sampleEnvelope 2 (.foreign sampleEndpoint) 3) bytes =
      .ok (bytes.length, bytes) := by
  obtain ⟨len, hlen, hencode⟩ := envelopeCodec_bijection.1 _
    (validEnvelope_sampleEnvelope 2 (.foreign sampleEndpoint) 3)
  obtain ⟨bytes, hbytes, -, hdecode⟩ := hencode (List.replicate len 0) (by simp)
  have hagain := envelopeCodec_bijection.2.1 bytes _ hdecode bytes le_rfl
  rw [List.drop_length, List.append_nil] at hagain
  exact ⟨bytes, hdecode, hagain⟩

end Hyf
