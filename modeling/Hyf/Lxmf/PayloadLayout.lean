import Hyf.Lxmf.Message
import Hyf.Lxmf.MsgpackTheorems

/-!
# The layout of an LXMF payload

A packed payload is the header of an array, a float, two texts, a map and, in an array of five, a
stamp. The payload reader takes a byte string exactly when it is laid out so (`PayloadLayout`) and
keeps within the limits; the readers of the single types have one lemma each way.
-/

namespace Hyf.Lxmf

open ByteCodec CursorM Msgpack

/-! ## The readers of the single types -/

/-- The bytes are one value of the grammar that the skipper takes. -/
def IsRawValue (bytes : List UInt8) : Prop :=
  ∃ value, Admits lxmfMsgpackMaxDepth value ∧ bytes = value.encode

/-- The length of an array is read from its header. -/
theorem reads_readArrayLen {form : LengthForm} {len : ℕ} {head : List UInt8}
    (h : header .array form len = some head) : Reads readArrayLen head len := by
  cases form with
  | fixed =>
    simp only [header] at h
    split_ifs at h with hlen
    cases h
    apply (takesSlices.reads_readU8 _).bind
    interval_cases len <;> exact Reads.pure _
  | len8 => cases h
  | len16 =>
    obtain ⟨hlen, rfl⟩ := sized_eq_some h
    have hread : Reads (do let len ← readU16 readSlice; pure len.toNat) (toBe 2 len ++ []) len :=
      reads_sized16 hlen (Reads.pure len)
    rw [List.append_nil] at hread
    exact (takesSlices.reads_readU8 markerArray16).bind hread
  | len32 =>
    obtain ⟨hlen, rfl⟩ := sized_eq_some h
    exact (takesSlices.reads_readU8 markerArray32).bind (reads_readU32AsUsize hlen)

/-- A length that was read has such a header. -/
theorem yields_readArrayLen : Yields readArrayLen fun len bytes =>
    ∃ form, header .array form len = some bytes := by
  apply takesSlices.yields_readU8.bind
  rintro marker _ rfl
  refine Yields.ite (fun hfixed => ?_) fun _ => ?_
  · obtain ⟨hlen, hmarker⟩ := fixarray_marker marker hfixed
    refine Yields.pure ⟨.fixed, ?_⟩
    rw [header, if_pos hlen, hmarker]
    rfl
  refine Yields.ite ?_ fun _ => ?_
  · rintro rfl
    apply takesSlices.yields_readU16.bind
    rintro len _ rfl
    refine Yields.pure ⟨.len16, ?_⟩
    rw [List.append_nil]
    exact sized_eq len.toNat_lt
  refine Yields.ite ?_ fun _ => Yields.raise trivial
  rintro rfl
  apply yields_readU32AsUsize.mono
  rintro len _ ⟨hlen, rfl⟩
  exact ⟨.len32, sized_eq hlen⟩

/-- The bytes of a 64-bit float. -/
def floatBytes (bits : UInt64) : List UInt8 := [markerFloat64] ++ toBe 8 bits.toNat

/-- A float is read from its bytes. -/
theorem reads_readFloat64 (bits : UInt64) : Reads readFloat64 (floatBytes bits) bits := by
  apply (takesSlices.reads_readU8 _).bind
  exact Reads.check (rejectIf_eq_ok (not_not.mpr rfl)) (takesSlices.reads_readU64 bits)

/-- A float that was read has these bytes. -/
theorem yields_readFloat64 : Yields readFloat64 fun bits bytes => bytes = floatBytes bits := by
  apply takesSlices.yields_readU8.bind
  rintro marker _ rfl
  refine Yields.check (ends_rejectIf _ _) fun _ hmarker => ?_
  obtain rfl := not_not.mp hmarker
  apply takesSlices.yields_readU64.mono
  rintro bits _ rfl
  rfl

/-- A float is a value of the format. -/
theorem isRawValue_floatBytes (bits : UInt64) : IsRawValue (floatBytes bits) :=
  ⟨.number .float64 bits.toNat, ⟨.number bits.toNat_lt, Nat.le_add_left 1 15⟩, rfl⟩

/-- The bytes are a string or a byte string with this content. -/
def IsText (content bytes : List UInt8) : Prop :=
  ∃ family form head, (family = .str ∨ family = .bin) ∧
    header family form content.length = some head ∧ bytes = head ++ content

/-- A text is a value of the format. -/
theorem IsText.isRawValue {content bytes : List UInt8} (h : IsText content bytes) :
    IsRawValue bytes := by
  obtain ⟨family, form, head, rfl | rfl, hheader, rfl⟩ := h
  · refine ⟨.str form content, ⟨.str (by rw [hheader]; rfl), Nat.le_add_left 1 15⟩, ?_⟩
    rw [Value.encode, hheader, Option.getD_some]
  · refine ⟨.bin form content, ⟨.bin (by rw [hheader]; rfl), Nat.le_add_left 1 15⟩, ?_⟩
    rw [Value.encode, hheader, Option.getD_some]

/-- A content whose length follows the marker. -/
theorem isText_sized {family : Family} (hfamily : family = .str ∨ family = .bin) (form : LengthForm)
    {marker : UInt8} {width : ℕ} (hheader : ∀ len, header family form len = sized marker width len)
    {content read : List UInt8}
    (h : SizedBody width (fun len content bytes => content = bytes ∧ bytes.length = len) content read) :
    IsText content ([marker] ++ read) := by
  obtain ⟨len, hlen, bytes, rfl, rfl, rfl⟩ := h
  refine ⟨family, form, [marker] ++ toBe width content.length, hfamily, ?_, ?_⟩
  · rw [hheader, sized_eq hlen]
  · rw [List.append_assoc]

/-- What was read is a text. -/
theorem yields_readBinOrStrBytes : Yields readBinOrStrBytes IsText := by
  have hslice := takesSlices.yields
  apply takesSlices.yields_readU8.bind
  rintro marker _ rfl
  refine Yields.ite (fun hfixed => ?_) fun _ => ?_
  · obtain ⟨hlen, hmarker⟩ := fixstr_marker marker hfixed
    apply (hslice _).mono
    rintro content _ ⟨rfl, hcontent⟩
    refine ⟨.str, .fixed, [marker], .inl rfl, ?_, rfl⟩
    rw [hcontent, header, if_pos hlen, hmarker]
  refine Yields.ite ?_ fun _ => Yields.ite ?_ fun _ => Yields.ite ?_ fun _ => Yields.raise trivial
  · rintro (rfl | rfl)
    · exact (yields_sized8 hslice).mono fun _ _ => isText_sized (.inr rfl) .len8 fun _ => rfl
    · exact (yields_sized8 hslice).mono fun _ _ => isText_sized (.inl rfl) .len8 fun _ => rfl
  · rintro (rfl | rfl)
    · exact (yields_sized16 hslice).mono fun _ _ => isText_sized (.inr rfl) .len16 fun _ => rfl
    · exact (yields_sized16 hslice).mono fun _ _ => isText_sized (.inl rfl) .len16 fun _ => rfl
  · rintro (rfl | rfl)
    · exact (yields_sized32 hslice).mono fun _ _ => isText_sized (.inr rfl) .len32 fun _ => rfl
    · exact (yields_sized32 hslice).mono fun _ _ => isText_sized (.inl rfl) .len32 fun _ => rfl

/-- A header with the length in the marker. -/
theorem readBinOrStrBytes_fixstr {len : ℕ} (h : len < 32) :
    (0xa0 ≤ UInt8.ofNat (0xa0 + len) ∧ UInt8.ofNat (0xa0 + len) ≤ 0xbf) ∧
      (UInt8.ofNat (0xa0 + len) &&& 0x1f).toNat = len := by
  interval_cases len <;> decide

/-- A text is read. -/
theorem reads_readBinOrStrBytes {content bytes : List UInt8} (h : IsText content bytes) :
    Reads readBinOrStrBytes bytes content := by
  obtain ⟨family, form, head, hfamily, hheader, rfl⟩ := h
  -- the two families share their markers' branches, but for the short strings
  have hsized8 : ∀ {marker : UInt8}, sized marker 1 content.length = some head →
      (marker = markerBin8 ∨ marker = markerStr8) → Reads readBinOrStrBytes (head ++ content) content := by
    intro marker hsized hmarker
    obtain ⟨hlen, rfl⟩ := sized_eq_some hsized
    have hbody := reads_sized8 hlen (takesSlices.reads content)
    rw [List.append_assoc]
    obtain rfl | rfl := hmarker
    · exact (takesSlices.reads_readU8 markerBin8).bind hbody
    · exact (takesSlices.reads_readU8 markerStr8).bind hbody
  have hsized16 : ∀ {marker : UInt8}, sized marker 2 content.length = some head →
      (marker = markerBin16 ∨ marker = markerStr16) →
        Reads readBinOrStrBytes (head ++ content) content := by
    intro marker hsized hmarker
    obtain ⟨hlen, rfl⟩ := sized_eq_some hsized
    have hbody := reads_sized16 hlen (takesSlices.reads content)
    rw [List.append_assoc]
    obtain rfl | rfl := hmarker
    · exact (takesSlices.reads_readU8 markerBin16).bind hbody
    · exact (takesSlices.reads_readU8 markerStr16).bind hbody
  have hsized32 : ∀ {marker : UInt8}, sized marker 4 content.length = some head →
      (marker = markerBin32 ∨ marker = markerStr32) →
        Reads readBinOrStrBytes (head ++ content) content := by
    intro marker hsized hmarker
    obtain ⟨hlen, rfl⟩ := sized_eq_some hsized
    have hbody := reads_sized32 hlen (takesSlices.reads content)
    rw [List.append_assoc]
    obtain rfl | rfl := hmarker
    · exact (takesSlices.reads_readU8 markerBin32).bind hbody
    · exact (takesSlices.reads_readU8 markerStr32).bind hbody
  obtain rfl | rfl := hfamily
  · cases form with
    | fixed =>
      simp only [header] at hheader
      split_ifs at hheader with hlen
      cases hheader
      obtain ⟨hfixed, hvalue⟩ := readBinOrStrBytes_fixstr hlen
      apply (takesSlices.reads_readU8 _).bind
      rw [if_pos hfixed, hvalue]
      exact takesSlices.reads content
    | len8 => exact hsized8 hheader (.inr rfl)
    | len16 => exact hsized16 hheader (.inr rfl)
    | len32 => exact hsized32 hheader (.inr rfl)
  · cases form with
    | fixed => cases hheader
    | len8 => exact hsized8 hheader (.inl rfl)
    | len16 => exact hsized16 hheader (.inl rfl)
    | len32 => exact hsized32 hheader (.inl rfl)

/-- The bytes are one map that the skipper takes. -/
def IsRawMap (bytes : List UInt8) : Prop :=
  ∃ value, (Admits lxmfMsgpackMaxDepth value ∧ value.isMap = true) ∧ bytes = value.encode

/-- A map is a value of the format. -/
theorem IsRawMap.isRawValue {bytes : List UInt8} (h : IsRawMap bytes) : IsRawValue bytes := by
  obtain ⟨value, hvalue, hbytes⟩ := h
  exact ⟨value, hvalue.1, hbytes⟩

/-- A map is read. -/
theorem IsRawMap.reads {bytes : List UInt8} (h : IsRawMap bytes) : Reads readRawMap bytes bytes := by
  obtain ⟨value, ⟨hvalue, hmap⟩, rfl⟩ := h
  exact reads_readRawMap hvalue hmap

/-- A value is read. -/
theorem IsRawValue.reads {bytes : List UInt8} (h : IsRawValue bytes) :
    Reads readRawValue bytes bytes := by
  obtain ⟨value, hvalue, rfl⟩ := h
  exact reads_readRawValue hvalue

/-! ## The payload -/

/-- The number of items that a payload with or without a stamp has. -/
def itemCount (stamp : Option (List UInt8)) : ℕ :=
  if stamp.isSome then lxmfPayloadArrayWithStampLen else lxmfPayloadArrayLen

/-- A packed payload and its parts as they are written, within the limits of the decoder. -/
structure PayloadLayout (payload : LxmfPayloadRef) (head title content packed : List UInt8) : Prop where
  head_eq : ∃ form, header .array form (itemCount payload.stamp) = some head
  finite : isFinite payload.timestampSecs = true
  title_isText : IsText payload.title title
  title_length : payload.title.length ≤ lxmfTitleMaxLen
  content_isText : IsText payload.content content
  content_length : payload.content.length ≤ lxmfContentMaxLen
  fields_isRawMap : IsRawMap payload.fields
  fields_length : payload.fields.length ≤ lxmfFieldsMaxLen
  stamp_isRawValue : ∀ stamp ∈ payload.stamp, IsRawValue stamp
  stamp_length : ∀ stamp ∈ payload.stamp, stamp.length ≤ lxmfStampMaxLen
  packed_eq : packed = head ++ (floatBytes payload.timestampSecs ++ (title ++ (content ++
    (payload.fields ++ payload.stamp.getD []))))

/-- A stamp that was read is a value that is short enough, and there is one if the array has a place
for it. -/
theorem yields_readStamp (arrayLen : ℕ) : Yields (readStamp arrayLen) fun stamp bytes =>
    bytes = stamp.getD [] ∧ (stamp.isSome = true ↔ arrayLen = lxmfPayloadArrayWithStampLen) ∧
      (∀ raw ∈ stamp, IsRawValue raw) ∧ ∀ raw ∈ stamp, raw.length ≤ lxmfStampMaxLen := by
  refine Yields.ite (fun harray => ?_) fun harray => ?_
  · apply yields_readRawValue.bind
    rintro raw _ ⟨rfl, hraw⟩
    refine Yields.check (ends_rejectIf _ _) fun _ hlen => Yields.pure ?_
    simpa [harray] using ⟨hraw, not_lt.mp hlen⟩
  · exact Yields.pure (by simpa using harray)

/-- Soundness of the payload reader. -/
theorem yields_readLxmfPayload : Yields readLxmfPayload fun payload packed =>
    ∃ head title content, PayloadLayout payload head title content packed := by
  apply yields_readArrayLen.bind
  rintro arrayLen head ⟨form, hhead⟩
  refine Yields.check (ends_rejectIf _ _) fun _ harrayLen => ?_
  apply yields_readFloat64.bind
  rintro timestampSecs _ rfl
  refine Yields.check (ends_rejectIf _ _) fun _ hfinite => ?_
  apply yields_readBinOrStrBytes.bind
  rintro title titleBytes htitle
  refine Yields.check (ends_rejectIf _ _) fun _ htitleLen => ?_
  apply yields_readBinOrStrBytes.bind
  rintro content contentBytes hcontent
  refine Yields.check (ends_rejectIf _ _) fun _ hcontentLen => ?_
  apply yields_readRawMap.bind
  rintro fields _ ⟨rfl, hfields⟩
  refine Yields.check (ends_rejectIf _ _) fun _ hfieldsLen => ?_
  apply (yields_readStamp arrayLen).bind
  rintro stamp _ ⟨rfl, hstamp, hraw, hrawLen⟩
  refine Yields.pure ⟨head, titleBytes, contentBytes, ⟨form, ?_⟩, Bool.not_eq_false _ ▸ hfinite, htitle,
    not_lt.mp htitleLen, hcontent, not_lt.mp hcontentLen, hfields, not_lt.mp hfieldsLen, hraw, hrawLen, ?_⟩
  · have hcount : itemCount stamp = arrayLen := by
      rw [itemCount]
      split_ifs with hsome
      · exact (hstamp.mp hsome).symm
      · rw [hstamp] at hsome
        omega
    rw [hcount, hhead]
  · rw [List.append_nil]

/-- A stamp is read, or its absence. -/
theorem reads_readStamp {stamp : Option (List UInt8)} (hraw : ∀ raw ∈ stamp, IsRawValue raw)
    (hlen : ∀ raw ∈ stamp, raw.length ≤ lxmfStampMaxLen) :
    Reads (readStamp (itemCount stamp)) (stamp.getD []) stamp := by
  cases stamp with
  | none => exact CursorM.Reads.pure none
  | some raw =>
    have hcheck : (rejectIf (raw.length > lxmfStampMaxLen) (.stampTooLarge raw.length lxmfStampMaxLen) :
        Outcome LxmfError Unit) = .ok () := rejectIf_eq_ok (not_lt.mpr (hlen raw rfl))
    have hread : Reads (readStamp (itemCount (some raw))) (raw ++ []) (some raw) :=
      (hraw raw rfl).reads.bind (CursorM.Reads.check hcheck (CursorM.Reads.pure (some raw)))
    rwa [List.append_nil] at hread

/-- Completeness of the payload reader. -/
theorem PayloadLayout.reads {payload : LxmfPayloadRef} {head title content packed : List UInt8}
    (h : PayloadLayout payload head title content packed) : Reads readLxmfPayload packed payload := by
  obtain ⟨form, hhead⟩ := h.head_eq
  rw [h.packed_eq]
  apply (reads_readArrayLen hhead).bind
  apply CursorM.Reads.check (rejectIf_eq_ok ?_)
  swap
  · rw [itemCount]
    split_ifs <;> simp
  apply (reads_readFloat64 _).bind
  apply CursorM.Reads.check (rejectIf_eq_ok (by rw [h.finite]; exact Bool.noConfusion))
  apply (reads_readBinOrStrBytes h.title_isText).bind
  apply CursorM.Reads.check (rejectIf_eq_ok (not_lt.mpr h.title_length))
  apply (reads_readBinOrStrBytes h.content_isText).bind
  apply CursorM.Reads.check (rejectIf_eq_ok (not_lt.mpr h.content_length))
  apply h.fields_isRawMap.reads.bind
  apply CursorM.Reads.check (rejectIf_eq_ok (not_lt.mpr h.fields_length))
  rw [← List.append_nil (payload.stamp.getD [])]
  exact (reads_readStamp h.stamp_isRawValue h.stamp_length).bind (CursorM.Reads.pure payload)

/-- The check for trailing bytes ends the payload. -/
theorem finishes_finishPayload : Finishes finishPayload := finishes_finish _

/-- Lengths of payloads do not overflow. -/
theorem lt_addressLimit_of_le_payloadMaxLen {len : ℕ} (h : len ≤ lxmfPayloadMaxLen) :
    len + 1024 < addressLimit := by
  simp only [lxmfPayloadMaxLen, lxmfMessageMaxLen, lxmfFixedHeaderLen] at h
  rw [addressLimit]
  omega

/-- **The payload decoder** accepts the payloads with a layout, of at most the maximal length. -/
theorem ends_decodeLxmfPayload (packed : List UInt8) :
    Ends (decodeLxmfPayload packed) fun payload => packed.length ≤ lxmfPayloadMaxLen ∧
      ∃ head title content, PayloadLayout payload head title content packed := by
  refine (ends_rejectIf _ _).bind fun _ hlen => ?_
  apply (yields_readLxmfPayload.runOn_finishes finishes_finishPayload packed).mono
  exact fun payload hpayload => ⟨not_lt.mp hlen, hpayload⟩

/-- A layout decodes to its payload. -/
theorem PayloadLayout.decodeLxmfPayload_eq {payload : LxmfPayloadRef}
    {head title content packed : List UInt8} (h : PayloadLayout payload head title content packed)
    (hlen : packed.length ≤ lxmfPayloadMaxLen) : decodeLxmfPayload packed = .ok payload := by
  have hlimit := lt_addressLimit_of_le_payloadMaxLen hlen
  rw [decodeLxmfPayload, Outcome.bind_eq (rejectIf_eq_ok (not_lt.mpr hlen))]
  exact h.reads.runOn_finishes finishes_finishPayload (by omega)

/-! ## The message -/

/-- The two hashes and the signature in front of the payload. -/
def headerBytes (destination : LxmfDestinationHash) (source : LxmfSourceHash)
    (signature : LxmfSignature) : List UInt8 :=
  destination.bytes.toList ++ (source.bytes.toList ++ signature.bytes.toList)

/-- The header has 96 bytes. -/
theorem length_headerBytes (destination : LxmfDestinationHash) (source : LxmfSourceHash)
    (signature : LxmfSignature) : (headerBytes destination source signature).length = 96 := by
  have hdestination : destination.bytes.toList.length = 16 := List.Vector.toList_length _
  have hsource : source.bytes.toList.length = 16 := List.Vector.toList_length _
  have hsignature : signature.bytes.toList.length = 64 := List.Vector.toList_length _
  rw [headerBytes, List.length_append, List.length_append, hdestination, hsource, hsignature]

/-- An input that is long enough starts with a header. -/
theorem exists_headerBytes {input : List UInt8} (h : lxmfFixedHeaderLen ≤ input.length) :
    ∃ destination source signature packed, input = headerBytes destination source signature ++ packed := by
  rw [lxmfFixedHeaderLen] at h
  have hdestination : (input.take 16).length = 16 := by
    rw [List.length_take]
    omega
  have hsource : ((input.drop 16).take 16).length = 16 := by
    rw [List.length_take, List.length_drop]
    omega
  have hsignature : (((input.drop 16).drop 16).take 64).length = 64 := by
    rw [List.length_take, List.length_drop, List.length_drop]
    omega
  refine ⟨⟨⟨_, hdestination⟩⟩, ⟨⟨_, hsource⟩⟩, ⟨⟨_, hsignature⟩⟩, ((input.drop 16).drop 16).drop 64, ?_⟩
  rw [headerBytes, List.append_assoc, List.append_assoc]
  show input = input.take 16 ++ ((input.drop 16).take 16 ++ (((input.drop 16).drop 16).take 64 ++
    ((input.drop 16).drop 16).drop 64))
  rw [List.take_append_drop, List.take_append_drop, List.take_append_drop]

/-- The decoder takes a header apart and decodes what follows it. -/
theorem decodeLxmfMessage_headerBytes (destination : LxmfDestinationHash) (source : LxmfSourceHash)
    (signature : LxmfSignature) (packed : List UInt8) :
    decodeLxmfMessage (headerBytes destination source signature ++ packed) = (do
      rejectIf (96 + packed.length > lxmfMessageMaxLen)
        (.messageTooLarge (96 + packed.length) lxmfMessageMaxLen)
      let payload ← decodeLxmfPayload packed
      return ⟨destination, source, signature, packed, payload⟩) := by
  have hlen : (headerBytes destination source signature ++ packed).length = 96 + packed.length := by
    rw [List.length_append, length_headerBytes]
  have hlong : ¬96 + packed.length < lxmfFixedHeaderLen := not_lt.mpr (Nat.le_add_right 96 _)
  have hdestination : destination.bytes.toList.length = 16 := List.Vector.toList_length _
  have hsource : source.bytes.toList.length = 16 := List.Vector.toList_length _
  have hsignature : signature.bytes.toList.length = 64 := List.Vector.toList_length _
  have hslice : ∀ (before part after : List UInt8) {start stop : ℕ}, before.length = start →
      start + part.length = stop → destination.bytes.toList ++ (source.bytes.toList ++
        (signature.bytes.toList ++ packed)) = before ++ part ++ after →
      (slice (headerBytes destination source signature ++ packed) start stop :
        Outcome LxmfError (List UInt8)) = .ok part := by
    intro before part after start stop hstart hstop hbytes
    rw [headerBytes, List.append_assoc, List.append_assoc, hbytes]
    exact slice_append hstart hstop
  have hfirst : (slice (headerBytes destination source signature ++ packed) 0 lxmfDestinationHashLen :
      Outcome LxmfError (List UInt8)) = .ok destination.bytes.toList :=
    hslice [] _ _ rfl ((Nat.zero_add _).trans hdestination) rfl
  have hsecond : (slice (headerBytes destination source signature ++ packed) lxmfDestinationHashLen
      (lxmfDestinationHashLen + lxmfSourceHashLen) : Outcome LxmfError (List UInt8)) =
      .ok source.bytes.toList :=
    hslice destination.bytes.toList _ (signature.bytes.toList ++ packed) hdestination
      (by rw [hsource]; rfl) (by rw [List.append_assoc])
  have hthird : (slice (headerBytes destination source signature ++ packed)
      (lxmfDestinationHashLen + lxmfSourceHashLen)
      (lxmfDestinationHashLen + lxmfSourceHashLen + lxmfSignatureLen) :
      Outcome LxmfError (List UInt8)) = .ok signature.bytes.toList :=
    hslice (destination.bytes.toList ++ source.bytes.toList) _ packed
      (by rw [List.length_append, hdestination, hsource]; rfl) (by rw [hsignature]; rfl)
      (by simp only [List.append_assoc])
  have hfourth : (slice (headerBytes destination source signature ++ packed) lxmfFixedHeaderLen
      (96 + packed.length) : Outcome LxmfError (List UInt8)) = .ok packed :=
    hslice (headerBytes destination source signature) packed [] (length_headerBytes _ _ _) rfl
      (by simp only [headerBytes, List.append_assoc, List.append_nil])
  rw [decodeLxmfMessage, Outcome.bind_eq (rejectIf_eq_ok (hlen.symm ▸ hlong)), hlen]
  apply bind_congr
  intro _
  simp only
  rw [Outcome.bind_eq hfirst, Outcome.bind_eq (toArray_toList destination.bytes),
    Outcome.bind_eq hsecond, Outcome.bind_eq (toArray_toList source.bytes), Outcome.bind_eq hthird,
    Outcome.bind_eq (toArray_toList signature.bytes), Outcome.bind_eq hfourth]

/-- What the message decoder establishes: the header, and that the payload is decoded. -/
theorem ends_decodeLxmfMessage_bytes (input : List UInt8) :
    Ends (decodeLxmfMessage input) fun message =>
      input = headerBytes message.destinationHash message.sourceHash message.signature ++
        message.packedPayload ∧ decodeLxmfPayload message.packedPayload = .ok message.payload := by
  by_cases hlen : lxmfFixedHeaderLen ≤ input.length
  · obtain ⟨destination, source, signature, packed, rfl⟩ := exists_headerBytes hlen
    rw [decodeLxmfMessage_headerBytes]
    refine (ends_rejectIf _ _).bind fun _ _ => ?_
    apply (ends_decodeLxmfPayload packed).with_eq.bind
    rintro payload ⟨-, hpayload⟩
    exact ⟨rfl, hpayload⟩
  · rw [decodeLxmfMessage, rejectIf_eq_fail (not_le.mp hlen)]
    exact trivial

/-- A header and the layout of a payload decode to the message. -/
theorem decodeLxmfMessage_eq (destination : LxmfDestinationHash) (source : LxmfSourceHash)
    (signature : LxmfSignature) {packed : List UInt8} {payload : LxmfPayloadRef}
    (h : decodeLxmfPayload packed = .ok payload) :
    decodeLxmfMessage (headerBytes destination source signature ++ packed) =
      .ok ⟨destination, source, signature, packed, payload⟩ := by
  have hlen := ((ends_decodeLxmfPayload packed).of_ok h).1
  rw [lxmfPayloadMaxLen, lxmfMessageMaxLen, lxmfFixedHeaderLen] at hlen
  rw [decodeLxmfMessage_headerBytes, lxmfMessageMaxLen,
    Outcome.bind_eq (rejectIf_eq_ok (by omega)), Outcome.bind_eq h]
  rfl

end Hyf.Lxmf
