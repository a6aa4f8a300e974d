import Hyf.Lxmf.MessageTheorems

/-!
# LXMF messages there and back

What the encoder writes is one of the layouts that the decoder accepts: an array of four with the
shortest headers of byte strings. The decoder gives the parts back, and of an accepted message that is
laid out so, which its markers tell, the encoder makes the same bytes again.
-/

namespace Hyf.Lxmf

open ByteCodec CursorM Msgpack

/-! ## Texts -/

/-- The marker of the shortest header of a byte string. -/
def binMarker (len : ℕ) : UInt8 := if len ≤ 255 then markerBin8 else markerBin16

theorem binBytes_of_le {bytes : List UInt8} (h : bytes.length ≤ 255) :
    binBytes bytes = [markerBin8] ++ toBe 1 bytes.length ++ bytes := by
  have hvalue : (UInt8.ofNat bytes.length).toNat = bytes.length := by
    rw [UInt8.toNat_ofNat', Nat.mod_eq_of_lt (by omega)]
  have hlen : toBe 1 bytes.length = [UInt8.ofNat bytes.length] := by rw [← toBe_one, hvalue]
  rw [binBytes, if_pos h, hlen, List.append_assoc]
  rfl

theorem binBytes_of_lt {bytes : List UInt8} (h : 255 < bytes.length) (hlen : bytes.length < 256 ^ 2) :
    binBytes bytes = [markerBin16] ++ toBe 2 bytes.length ++ bytes := by
  have hvalue : (UInt16.ofNat bytes.length).toNat = bytes.length := by
    rw [UInt16.toNat_ofNat', Nat.mod_eq_of_lt (by omega)]
  rw [binBytes, if_neg (not_le.mpr h), hvalue, List.append_assoc]
  rfl

theorem isText_binBytes {bytes : List UInt8} (h : bytes.length < 256 ^ 2) :
    IsText bytes (binBytes bytes) := by
  by_cases hshort : bytes.length ≤ 255
  · exact ⟨.bin, .len8, _, .inr rfl, sized_eq (by omega), binBytes_of_le hshort⟩
  · exact ⟨.bin, .len16, _, .inr rfl, sized_eq h, binBytes_of_lt (not_le.mp hshort) h⟩

/-- The markers of short strings are none of byte strings. -/
theorem fixstr_ne_binMarker {len : ℕ} (h : len < 32) : UInt8.ofNat (0xa0 + len) ≠ binMarker len := by
  rw [binMarker, if_pos (by omega)]
  interval_cases len <;> decide

/-- A text with the marker of the shortest byte string is that byte string. -/
theorem IsText.eq_binBytes {content bytes : List UInt8} (h : IsText content bytes)
    (hmarker : bytes.head? = some (binMarker content.length)) : bytes = binBytes content := by
  obtain ⟨family, form, head, hfamily, hheader, rfl⟩ := h
  have hsized : ∀ {marker : UInt8} {width : ℕ}, sized marker width content.length = some head →
      marker = binMarker content.length ∧ content.length < 256 ^ width ∧
        head = [marker] ++ toBe width content.length := by
    intro marker width hheader
    obtain ⟨hlen, rfl⟩ := sized_eq_some hheader
    exact ⟨Option.some_inj.mp hmarker, hlen, rfl⟩
  have hforeign : ∀ {marker : UInt8} {width : ℕ}, marker ≠ markerBin8 → marker ≠ markerBin16 →
      sized marker width content.length ≠ some head := by
    intro marker width hbin8 hbin16 hheader
    obtain ⟨hbin, -⟩ := hsized hheader
    rw [binMarker] at hbin
    split_ifs at hbin
    · exact hbin8 hbin
    · exact hbin16 hbin
  obtain rfl | rfl := hfamily
  · cases form with
    | fixed =>
      simp only [header] at hheader
      split_ifs at hheader with hlen
      cases hheader
      exact absurd (Option.some_inj.mp hmarker) (fixstr_ne_binMarker hlen)
    | len8 => exact absurd hheader (hforeign (by decide) (by decide))
    | len16 => exact absurd hheader (hforeign (by decide) (by decide))
    | len32 => exact absurd hheader (hforeign (by decide) (by decide))
  · cases form with
    | fixed => cases hheader
    | len8 =>
      obtain ⟨-, hlen, rfl⟩ := hsized hheader
      exact (binBytes_of_le (by omega)).symm
    | len16 =>
      obtain ⟨hbin, hlen, rfl⟩ := hsized hheader
      rw [binMarker] at hbin
      split_ifs at hbin with hshort
      · exact absurd hbin (by decide)
      · exact (binBytes_of_lt (not_le.mp hshort) hlen).symm
    | len32 => exact absurd hheader (hforeign (by decide) (by decide))

/-! ## Payloads -/

/-- **What the encoder writes is a layout**, of the payload without its stamp. -/
theorem ValidPayload.layout {payload : LxmfPayloadRef} (h : ValidPayload payload) :
    PayloadLayout { payload with stamp := none } [fixedArray4Marker] (binBytes payload.title)
      (binBytes payload.content) (payloadBytes payload) where
  head_eq := ⟨.fixed, show header .array .fixed 4 = some [fixedArray4Marker] from rfl⟩
  finite := h.finite
  title_isText := isText_binBytes (lt_of_le_of_lt h.title_length (by decide))
  title_length := h.title_length
  content_isText := isText_binBytes (lt_of_le_of_lt h.content_length (by decide))
  content_length := h.content_length
  fields_isRawMap := h.fields_isRawMap
  fields_length := h.fields_length
  stamp_isRawValue := nofun
  stamp_length := nofun
  packed_eq := by
    rw [payloadBytes, floatBytes, Option.getD_none, List.append_nil, List.append_assoc]
    rfl

/-- The markers in a packed payload are those that the encoder writes: an array of four with the
one-byte header, and a title and a content with the shortest headers of byte strings. -/
structure EncoderForms (packed : List UInt8) (payload : LxmfPayloadRef) : Prop where
  array_eq : packed[0]? = some 0x94
  title_eq : packed[10]? = some (binMarker payload.title.length)
  content_eq : packed[10 + binEncodedLen payload.title.length]? = some (binMarker payload.content.length)

theorem getElem?_append_of_length {before after : List UInt8} (hafter : after ≠ []) {index : ℕ}
    (hlen : before.length = index) (rest : List UInt8) :
    (before ++ (after ++ rest))[index]? = after.head? := by
  rw [List.getElem?_append_right hlen.le, hlen, Nat.sub_self]
  cases after with
  | nil => exact absurd rfl hafter
  | cons byte after => rfl

theorem IsText.ne_nil {content bytes : List UInt8} (h : IsText content bytes) : bytes ≠ [] := by
  obtain ⟨family, form, head, -, hheader, rfl⟩ := h
  obtain ⟨marker, tail, rfl, -⟩ := isMapMarker_of_header hheader
  exact List.cons_ne_nil _ _

/-- The markers tell the layout of the encoder. -/
theorem PayloadLayout.eq_payloadBytes {payload : LxmfPayloadRef} {head title content packed : List UInt8}
    (h : PayloadLayout payload head title content packed) (hstamp : payload.stamp = none)
    (hforms : EncoderForms packed payload) : packed = payloadBytes payload := by
  obtain ⟨form, hhead⟩ := h.head_eq
  have hpacked := h.packed_eq
  rw [hstamp, Option.getD_none, List.append_nil] at hpacked
  rw [hstamp] at hhead
  obtain rfl : head = [fixedArray4Marker] := by
    obtain ⟨marker, tail, rfl, -⟩ := isMapMarker_of_header hhead
    apply header_array4 hhead
    have harray := hforms.array_eq
    rw [hpacked] at harray
    exact harray
  have htitle : title = binBytes payload.title := by
    apply h.title_isText.eq_binBytes
    rw [← hforms.title_eq, hpacked, ← List.append_assoc]
    refine (getElem?_append_of_length h.title_isText.ne_nil ?_ _).symm
    rw [floatBytes, List.length_append, List.length_append, length_toBe]
    rfl
  subst htitle
  have hcontent : content = binBytes payload.content := by
    apply h.content_isText.eq_binBytes
    rw [← hforms.content_eq, hpacked, ← List.append_assoc, ← List.append_assoc]
    refine (getElem?_append_of_length h.content_isText.ne_nil ?_ _).symm
    rw [floatBytes, List.length_append, List.length_append, List.length_append, length_toBe,
      length_binBytes]
    rfl
  subst hcontent
  rw [hpacked, payloadBytes, floatBytes, List.append_assoc]
  rfl

/-! ## Messages -/

/-- An accepted payload without a stamp passes the checks of the encoder. -/
theorem PayloadLayout.validPayload {payload : LxmfPayloadRef} {head title content packed : List UInt8}
    (h : PayloadLayout payload head title content packed) : ValidPayload payload where
  finite := h.finite
  title_length := h.title_length
  content_length := h.content_length
  fields_isRawMap := h.fields_isRawMap
  fields_length := h.fields_length
  stamp_length := h.stamp_length

/-- **LXMF messages there and back.** The encoder writes as many bytes as it announces, the decoder gives
back what they were made of, without a stamp, and the rest of the output is left alone; and an accepted
message without a stamp, in the forms of the encoder, is encoded to the bytes that it was decoded from. -/
theorem lxmfMessage_roundTrip :
    (∀ destination source signature payload output len written,
      encodeLxmfMessage destination source signature payload output = .ok (len, written) →
      ∃ payloadLen packed, lxmfPayloadEncodedLen payload = .ok payloadLen ∧ len = 96 + payloadLen ∧
        written.length = output.length ∧ written.drop len = output.drop len ∧
        decodeLxmfMessage (written.take len) =
          .ok ⟨destination, source, signature, packed, { payload with stamp := none }⟩) ∧
    ∀ input message, decodeLxmfMessage input = .ok message → message.payload.stamp = none →
      EncoderForms message.packedPayload message.payload →
      ∀ output : List UInt8, input.length ≤ output.length →
        encodeLxmfMessage message.destinationHash message.sourceHash message.signature message.payload
          output = .ok (input.length, input ++ output.drop input.length) := by
  constructor
  · intro destination source signature payload output len written hencode
    obtain ⟨hencodable, hroom, hwritten⟩ :=
      (ends_encodeLxmfMessage destination source signature payload output).of_ok hencode
    obtain ⟨rfl, rfl⟩ := Prod.mk.inj hwritten
    have hlen : (headerBytes destination source signature ++ payloadBytes payload).length =
        96 + (payloadBytes payload).length := by
      rw [List.length_append, length_headerBytes]
    refine ⟨_, payloadBytes payload, hencodable.lxmfPayloadEncodedLen_eq, rfl, ?_, ?_, ?_⟩
    · rw [List.length_append, hlen, List.length_drop]
      omega
    · rw [← hlen, List.drop_left]
    · rw [← hlen, List.take_left]
      exact decodeLxmfMessage_eq destination source signature
        (hencodable.layout.decodeLxmfPayload_eq hencodable.length_le)
  · intro input message hdecode hstamp hforms output hroom
    obtain ⟨hinput, hpayload⟩ := (ends_decodeLxmfMessage_bytes input).of_ok hdecode
    obtain ⟨hlen, head, title, content, hlayout⟩ := (ends_decodeLxmfPayload _).of_ok hpayload
    have hpacked := hlayout.eq_payloadBytes hstamp hforms
    have hencodable : EncodablePayload message.payload := ⟨hlayout.validPayload, hpacked ▸ hlen⟩
    have hinputLen : input.length = 96 + (payloadBytes message.payload).length := by
      rw [hinput, hpacked, List.length_append, length_headerBytes]
    rw [hencodable.encodeLxmfMessage_eq _ _ _ (hinputLen ▸ hroom), ← hinputLen, ← hpacked, ← hinput]

/-- The sample message without a stamp. -/
theorem lxmfMessage_sampleMessage4 :
    encodeLxmfMessage ⟨fillBytes 16 1⟩ ⟨fillBytes 16 2⟩ ⟨fillBytes 64 3⟩
        (sampleDecoded (samplePayload 4) none).payload sampleMessage4 =
      .ok (sampleMessage4.length, sampleMessage4) ∧
    ∃ payloadLen packed,
      lxmfPayloadEncodedLen (sampleDecoded (samplePayload 4) none).payload = .ok payloadLen ∧
      sampleMessage4.length = 96 + payloadLen ∧
      decodeLxmfMessage sampleMessage4 = .ok (sampleDecoded packed none) := by
  have hencode := lxmfMessage_roundTrip.2 _ _ decode_sampleMessage4 rfl ⟨rfl, rfl, rfl⟩ sampleMessage4
    le_rfl
  rw [List.drop_length, List.append_nil] at hencode
  obtain ⟨payloadLen, packed, hpayloadLen, hlen, -, -, hdecode⟩ :=
    lxmfMessage_roundTrip.1 _ _ _ _ _ _ _ hencode
  rw [List.take_length] at hdecode
  exact ⟨hencode, payloadLen, packed, hpayloadLen, hlen, hdecode⟩

end Hyf.Lxmf
