import Hyf.Lxmf.SignatureTheorems

/-!
# What the LXMF encoder writes

The encoder writes the layout `messageBytes` or reports an error; it never panics, and leaves what
follows the message in the output alone.
-/

namespace Hyf.Lxmf

open ByteCodec CursorM WriterM Msgpack

/-- A byte string with the header that `write_bin` gives it. -/
def binBytes (bytes : List UInt8) : List UInt8 :=
  if bytes.length ≤ 255 then [0xc4] ++ ([UInt8.ofNat bytes.length] ++ bytes)
  else [0xc5] ++ (toBe 2 (UInt16.ofNat bytes.length).toNat ++ bytes)

/-- The bytes of a payload: an array header, the time, and the parts. -/
def payloadBytes (payload : LxmfPayloadRef) : List UInt8 :=
  [fixedArray4Marker] ++ ([0xcb] ++ (toBe 8 payload.timestampSecs.toNat ++
    (binBytes payload.title ++ (binBytes payload.content ++ payload.fields))))

/-- The checks that the encoder makes on the parts of a payload. -/
structure ValidPayload (payload : LxmfPayloadRef) : Prop where
  finite : isFinite payload.timestampSecs = true
  title_length : payload.title.length ≤ lxmfTitleMaxLen
  content_length : payload.content.length ≤ lxmfContentMaxLen
  fields_isRawMap : IsRawMap payload.fields
  fields_length : payload.fields.length ≤ lxmfFieldsMaxLen
  stamp_length : ∀ stamp ∈ payload.stamp, stamp.length ≤ lxmfStampMaxLen

/-- All the checks that the encoder makes on a payload. -/
structure EncodablePayload (payload : LxmfPayloadRef) : Prop extends ValidPayload payload where
  length_le : (payloadBytes payload).length ≤ lxmfPayloadMaxLen

/-- The length of bytes with their header. -/
theorem length_binBytes (bytes : List UInt8) : (binBytes bytes).length = binEncodedLen bytes.length := by
  unfold binBytes binEncodedLen
  split_ifs
  · simp only [List.length_append, List.length_singleton]
    omega
  · simp only [List.length_append, List.length_singleton, length_toBe]
    omega

/-- The length of a payload is the one of its parts. -/
theorem length_payloadBytes (payload : LxmfPayloadRef) : (payloadBytes payload).length =
    1 + 9 + binEncodedLen payload.title.length + binEncodedLen payload.content.length +
      payload.fields.length := by
  simp only [payloadBytes, List.length_append, List.length_singleton, length_toBe, length_binBytes]
  omega

/-! ## Lengths -/

/-- What passes is a map. -/
theorem ends_validateRawMap (input : List UInt8) :
    Ends (validateRawMap input) fun _ => IsRawMap input := by
  have hindex : (⟨input, 0, 0⟩ : Cursor).index ≤ (⟨input, 0, 0⟩ : Cursor).input.length :=
    Nat.zero_le _
  rw [validateRawMap, CursorM.runOn]
  cases hrun : readRawMap ⟨input, 0, 0⟩ with
  | ok raw cursor =>
    rw [run_bind_of_ok hrun]
    obtain ⟨bytes, htook, -, hmap⟩ := yields_readRawMap.sound _ cursor raw hindex hrun
    obtain ⟨hend, hok⟩ | ⟨-, error, herror⟩ :=
      finishes_finishPayload cursor (htook.index_le hindex)
    · rw [htook.index_eq, htook.input_eq, Nat.zero_add] at hend
      have hbytes : bytes = input := htook.bytes_prefix.eq_of_length hend
      rw [hok]
      exact show IsRawMap input from hbytes ▸ hmap
    · rw [herror]
      exact trivial
  | error fault cursor =>
    rw [run_bind_of_error hrun]
    cases fault with
    | error error => exact trivial
    | panic => exact absurd hrun (yields_readRawMap.noPanic _ cursor hindex)

/-- A map passes. -/
theorem IsRawMap.validateRawMap_eq {input : List UInt8} (h : IsRawMap input)
    (hlimit : input.length < addressLimit) : validateRawMap input = .ok () := by
  have hfinish : ReadsRest finishPayload [] () := by
    intro cursor _ hindex hrest
    obtain ⟨-, hok⟩ | ⟨hne, -⟩ := finishes_finishPayload cursor hindex
    · exact ⟨cursor.ticks, hok⟩
    · exact absurd (Nat.le_antisymm hindex (List.drop_eq_nil_iff.mp hrest)) hne
  have hrest : ReadsRest (do let _ ← readRawMap; finishPayload) (input ++ []) () :=
    h.reads.bind_rest hfinish
  rw [List.append_nil] at hrest
  exact hrest.runOn hlimit

/-- What passes can be encoded. -/
theorem ends_validatePayloadForEncode (payload : LxmfPayloadRef) :
    Ends (validatePayloadForEncode payload) fun _ => ValidPayload payload := by
  refine (ends_rejectIf _ _).bind fun _ hfinite => ?_
  refine (ends_rejectIf _ _).bind fun _ htitle => ?_
  refine (ends_rejectIf _ _).bind fun _ hcontent => ?_
  refine (ends_validateRawMap _).bind fun _ hmap => ?_
  refine (ends_rejectIf _ _).bind fun _ hfields => ?_
  rw [Bool.not_eq_false] at hfinite
  cases hstamp : payload.stamp with
  | none =>
    exact ⟨hfinite, not_lt.mp htitle, not_lt.mp hcontent, hmap, not_lt.mp hfields, by simp [hstamp]⟩
  | some stamp =>
    refine (ends_rejectIf _ _).mono fun _ hlen => ?_
    exact ⟨hfinite, not_lt.mp htitle, not_lt.mp hcontent, hmap, not_lt.mp hfields,
      by simpa [hstamp] using not_lt.mp hlen⟩

/-- What can be encoded passes. -/
theorem ValidPayload.validatePayloadForEncode_eq {payload : LxmfPayloadRef} (h : ValidPayload payload) :
    validatePayloadForEncode payload = .ok () := by
  have hlimit : payload.fields.length < addressLimit :=
    lt_of_le_of_lt h.fields_length (by decide)
  rw [validatePayloadForEncode, Outcome.bind_eq (rejectIf_eq_ok (by rw [h.finite]; exact Bool.noConfusion)),
    Outcome.bind_eq (rejectIf_eq_ok (not_lt.mpr h.title_length)),
    Outcome.bind_eq (rejectIf_eq_ok (not_lt.mpr h.content_length)),
    Outcome.bind_eq (h.fields_isRawMap.validateRawMap_eq hlimit),
    Outcome.bind_eq (rejectIf_eq_ok (not_lt.mpr h.fields_length))]
  have hlen := h.stamp_length
  cases hstamp : payload.stamp with
  | none => rfl
  | some stamp => exact rejectIf_eq_ok (not_lt.mpr (hlen stamp hstamp))

/-- The parts are bounded, so none of the checked additions fails. -/
theorem ValidPayload.lxmfPayloadEncodedLen_eq {payload : LxmfPayloadRef} (h : ValidPayload payload) :
    lxmfPayloadEncodedLen payload = (do
      rejectIf ((payloadBytes payload).length > lxmfPayloadMaxLen)
        (.payloadTooLarge (payloadBytes payload).length lxmfPayloadMaxLen)
      return (payloadBytes payload).length) := by
  have htitle := h.title_length
  have hcontent := h.content_length
  have hfields := h.fields_length
  have hbin : ∀ len, binEncodedLen len ≤ 3 + len := by
    intro len
    rw [binEncodedLen]
    split_ifs <;> omega
  have htitleLen := hbin payload.title.length
  have hcontentLen := hbin payload.content.length
  rw [lxmfTitleMaxLen] at htitle
  rw [lxmfContentMaxLen] at hcontent
  rw [lxmfFieldsMaxLen] at hfields
  have hlimit : 2 ^ 20 < addressLimit := by decide
  have hlen := length_payloadBytes payload
  have hsum : (((checkedAdd 1 9).bind
      fun len => checkedAdd len (binEncodedLen payload.title.length)).bind
      fun len => checkedAdd len (binEncodedLen payload.content.length)).bind
      (fun len => checkedAdd len payload.fields.length) = some (payloadBytes payload).length := by
    rw [hlen, checkedAdd_eq_some (by omega), Option.bind_some, checkedAdd_eq_some (by omega),
      Option.bind_some, checkedAdd_eq_some (by omega), Option.bind_some,
      checkedAdd_eq_some (by omega)]
  rw [lxmfPayloadEncodedLen, Outcome.bind_eq h.validatePayloadForEncode_eq]
  simp only [hsum]

/-- The announced length is the length of the payload. -/
theorem EncodablePayload.lxmfPayloadEncodedLen_eq {payload : LxmfPayloadRef}
    (h : EncodablePayload payload) :
    lxmfPayloadEncodedLen payload = .ok (payloadBytes payload).length := by
  rw [h.toValidPayload.lxmfPayloadEncodedLen_eq, Outcome.bind_eq (rejectIf_eq_ok (not_lt.mpr h.length_le))]
  rfl

/-- A length is announced for what can be encoded, without a panic. -/
theorem ends_lxmfPayloadEncodedLen (payload : LxmfPayloadRef) :
    Ends (lxmfPayloadEncodedLen payload) fun len =>
      EncodablePayload payload ∧ len = (payloadBytes payload).length := by
  have hends := ends_validatePayloadForEncode payload
  cases hvalidate : validatePayloadForEncode payload with
  | ok _ =>
    have hvalid := hends.of_ok hvalidate
    rw [hvalid.lxmfPayloadEncodedLen_eq]
    refine (ends_rejectIf _ _).bind fun _ hmax => ?_
    exact ⟨⟨hvalid, not_lt.mp hmax⟩, rfl⟩
  | error fault =>
    rw [hvalidate] at hends
    rw [lxmfPayloadEncodedLen, hvalidate]
    cases fault with
    | error error => exact trivial
    | panic => exact hends

/-! ## Writes -/

/-- Bytes are written with their header. -/
theorem writes_writeBin {bytes : List UInt8} (h : bytes.length ≤ 2048) :
    Writes (writeBin bytes) (binBytes bytes) := by
  unfold writeBin binBytes
  split_ifs with hshort hlong
  · exact (writes_writeArray _).bind ((writes_writeArray _).bind (writes_writeArray _))
  · exact (writes_writeArray _).bind ((writes_writeArray _).bind (writes_writeArray _))
  · omega

/-- A payload is written as its bytes. -/
theorem writes_writeLxmfPayload {payload : LxmfPayloadRef} (h : EncodablePayload payload) :
    Writes (writeLxmfPayload payload) (payloadBytes payload) := by
  refine (writes_writeArray _).bind ((writes_writeArray _).bind ((writes_writeArray _).bind ?_))
  refine (writes_writeBin h.title_length).bind ((writes_writeBin h.content_length).bind ?_)
  exact writes_writeArray _

/-- A header is written as its bytes. -/
theorem writes_writeLxmfHeader (destination : LxmfDestinationHash) (source : LxmfSourceHash)
    (signature : LxmfSignature) : Writes (writeLxmfHeader destination source signature)
      (headerBytes destination source signature) :=
  (writes_writeArray _).bind ((writes_writeArray _).bind (writes_writeArray _))

/-- With room for it a payload is encoded, and the rest of the output is left. -/
theorem EncodablePayload.encodeLxmfPayload_eq {payload : LxmfPayloadRef} (h : EncodablePayload payload)
    {output : List UInt8} (hroom : (payloadBytes payload).length ≤ output.length) :
    encodeLxmfPayload payload output = .ok ((payloadBytes payload).length,
      payloadBytes payload ++ output.drop (payloadBytes payload).length) := by
  have hlimit := lt_addressLimit_of_le_payloadMaxLen h.length_le
  rw [encodeLxmfPayload, Outcome.bind_eq h.lxmfPayloadEncodedLen_eq,
    Outcome.bind_eq (rejectIf_eq_ok (not_lt.mpr hroom)),
    Outcome.bind_eq ((writes_writeLxmfPayload h).runOn (by omega) hroom)]
  rfl

/-- A payload that is encodable is written behind the header, into every output with room for it. -/
theorem EncodablePayload.encodeLxmfMessage_eq {payload : LxmfPayloadRef} (h : EncodablePayload payload)
    (destination : LxmfDestinationHash) (source : LxmfSourceHash) (signature : LxmfSignature)
    {output : List UInt8} (hroom : 96 + (payloadBytes payload).length ≤ output.length) :
    encodeLxmfMessage destination source signature payload output =
      .ok (96 + (payloadBytes payload).length,
        headerBytes destination source signature ++ payloadBytes payload ++
          output.drop (96 + (payloadBytes payload).length)) := by
  have hlimit := lt_addressLimit_of_le_payloadMaxLen h.length_le
  have hlen := h.length_le
  have hfixed : lxmfFixedHeaderLen = 96 := rfl
  rw [lxmfPayloadMaxLen, hfixed] at hlen
  have hrequired : checkedAdd lxmfFixedHeaderLen (payloadBytes payload).length =
      some (96 + (payloadBytes payload).length) := checkedAdd_eq_some (by
    rw [hfixed]
    omega)
  have hmax : ¬96 + (payloadBytes payload).length > lxmfMessageMaxLen := by
    rw [lxmfMessageMaxLen] at hlen ⊢
    omega
  have hheader := length_headerBytes destination source signature
  have hwrite := (writes_writeLxmfHeader destination source signature).runOn
    (by rw [hheader]; omega) (show _ ≤ output.length by rw [hheader]; omega)
  rw [encodeLxmfMessage, Outcome.bind_eq h.lxmfPayloadEncodedLen_eq, hrequired]
  simp only [pure_bind]
  rw [Outcome.bind_eq (rejectIf_eq_ok hmax), Outcome.bind_eq (rejectIf_eq_ok (not_lt.mpr hroom)),
    Outcome.bind_eq hwrite, hheader]
  simp only
  -- the payload is written into the part of the output behind the header
  have hslice : (slice (headerBytes destination source signature ++ output.drop 96)
      lxmfFixedHeaderLen (96 + (payloadBytes payload).length) : Outcome LxmfError (List UInt8)) =
      .ok ((output.drop 96).take (payloadBytes payload).length) := by
    rw [slice, hfixed, if_pos ⟨by omega, by rw [List.length_append, List.length_drop]; omega⟩,
      Nat.add_sub_cancel_left, ← hheader, List.drop_left]
  have hpart : (payloadBytes payload).length ≤
      ((output.drop 96).take (payloadBytes payload).length).length := by
    rw [List.length_take, List.length_drop]
    omega
  rw [Outcome.bind_eq hslice, Outcome.bind_eq (h.encodeLxmfPayload_eq hpart)]
  have hrest : ((output.drop 96).take (payloadBytes payload).length).drop
      (payloadBytes payload).length = [] := by
    rw [List.drop_eq_nil_iff, List.length_take]
    omega
  have htail : (headerBytes destination source signature ++ output.drop 96).drop
      (96 + (payloadBytes payload).length) = output.drop (96 + (payloadBytes payload).length) := by
    rw [List.drop_append, hheader, List.drop_eq_nil_of_le (by omega), List.nil_append,
      List.drop_drop, Nat.add_sub_cancel_left]
  have hfront : (headerBytes destination source signature ++ output.drop 96).take
      lxmfFixedHeaderLen = headerBytes destination source signature := by
    rw [hfixed, ← hheader, List.take_left]
  simp only
  rw [hrest, List.append_nil, htail, hfront]
  rfl

/-- **The encoder writes the layout of a message or reports an error.** -/
theorem ends_encodeLxmfMessage (destination : LxmfDestinationHash) (source : LxmfSourceHash)
    (signature : LxmfSignature) (payload : LxmfPayloadRef) (output : List UInt8) :
    Ends (encodeLxmfMessage destination source signature payload output) fun written =>
      EncodablePayload payload ∧ 96 + (payloadBytes payload).length ≤ output.length ∧
      written = (96 + (payloadBytes payload).length,
        headerBytes destination source signature ++ payloadBytes payload ++
          output.drop (96 + (payloadBytes payload).length)) := by
  have hends := ends_lxmfPayloadEncodedLen payload
  cases hencoded : lxmfPayloadEncodedLen payload with
  | ok len =>
    obtain ⟨hencodable, rfl⟩ := hends.of_ok hencoded
    by_cases hroom : 96 + (payloadBytes payload).length ≤ output.length
    · rw [hencodable.encodeLxmfMessage_eq destination source signature hroom]
      exact ⟨hencodable, hroom, rfl⟩
    · -- an output that is too small is reported, whatever the checks before it say
      have hlimit := lt_addressLimit_of_le_payloadMaxLen hencodable.length_le
      have hrequired : checkedAdd lxmfFixedHeaderLen (payloadBytes payload).length =
          some (96 + (payloadBytes payload).length) := checkedAdd_eq_some (by
        rw [lxmfFixedHeaderLen]
        omega)
      rw [encodeLxmfMessage, Outcome.bind_eq hencoded, hrequired]
      simp only [pure_bind]
      refine (ends_rejectIf _ _).bind fun _ _ => ?_
      exact (ends_rejectIf _ _).bind fun _ hnot => absurd (not_lt.mp hnot) hroom
  | error fault =>
    rw [hencoded] at hends
    rw [encodeLxmfMessage, hencoded]
    cases fault with
    | error error => exact trivial
    | panic => exact hends

end Hyf.Lxmf
