import Hyf.Lxmf.PayloadLayout

/-!
# The identity of an LXMF message does not depend on its stamp

The decoder walks a payload with the readers of the single types, and the signing code walks it
again with the skipper. The two agree because each part of a layout is one value of the grammar
(`PayloadLayout.packedItems`) and the skipper takes every such value (`reads_readRawValue`). The first
four items of a payload (`FirstFour`) are the ones of what is signed, and an array has only one list
of items, which gives both directions.
-/

namespace Hyf.Lxmf

open ByteCodec CursorM WriterM Msgpack

/-! ## The items of a payload -/

/-- A packed payload is an array of values that the skipper takes. -/
structure PackedItems (packed : List UInt8) (form : LengthForm) (items : List Value) : Prop where
  header_isSome : (header .array form items.length).isSome
  admits : ∀ item ∈ items, Admits lxmfMsgpackMaxDepth item
  packed_eq : packed = (Value.array form items).encode

/-- The first four items of a packed array, as they are written in it. -/
def FirstFour (packed : List UInt8) (elements : List (List UInt8)) : Prop :=
  ∃ form items, (Value.array form items).WellFormed ∧ packed = (Value.array form items).encode ∧
    elements = (items.take 4).map Value.encode

/-- An array of packed items is well formed. -/
theorem PackedItems.wellFormed {packed : List UInt8} {form : LengthForm} {items : List Value}
    (h : PackedItems packed form items) : (Value.array form items).WellFormed :=
  .array h.header_isSome fun item hitem => (h.admits item hitem).1

/-- **The parts of a payload are values**: four, or five with a stamp. -/
theorem PayloadLayout.packedItems {payload : LxmfPayloadRef} {head title content packed : List UInt8}
    (h : PayloadLayout payload head title content packed) :
    ∃ form items, PackedItems packed form items ∧ items.length = itemCount payload.stamp := by
  obtain ⟨form, hhead⟩ := h.head_eq
  obtain ⟨timestampValue, htimestamp, htimestampBytes⟩ := isRawValue_floatBytes payload.timestampSecs
  obtain ⟨titleValue, htitle, htitleBytes⟩ := h.title_isText.isRawValue
  obtain ⟨contentValue, hcontent, hcontentBytes⟩ := h.content_isText.isRawValue
  obtain ⟨fieldsValue, hfields, hfieldsBytes⟩ := h.fields_isRawMap.isRawValue
  obtain ⟨last, hlast, hlastBytes, hcount⟩ : ∃ last : List Value,
      (∀ item ∈ last, Admits lxmfMsgpackMaxDepth item) ∧ payload.stamp.getD [] = encodeItems last ∧
        last.length + 4 = itemCount payload.stamp := by
    cases hstamp : payload.stamp with
    | none => exact ⟨[], by simp, rfl, rfl⟩
    | some stamp =>
      obtain ⟨value, hvalue, rfl⟩ := h.stamp_isRawValue stamp hstamp
      exact ⟨[value], by simpa using hvalue, (List.append_nil _).symm, rfl⟩
  refine ⟨form, timestampValue :: titleValue :: contentValue :: fieldsValue :: last,
    ⟨?_, by simpa using ⟨htimestamp, htitle, hcontent, hfields, hlast⟩, ?_⟩, hcount⟩
  · simp only [List.length_cons, hcount, hhead, Option.isSome_some]
  · rw [h.packed_eq, htimestampBytes, htitleBytes, hcontentBytes, hfieldsBytes, hlastBytes]
    simp only [Value.encode, encodeItems, List.length_cons, hcount, hhead, Option.getD_some]

/-! ## An array has one list of items -/

/-- Of one input only one well-formed value is next. -/
theorem encode_unique {value other : Value} (h : value.WellFormed) (h' : other.WellFormed)
    {rest rest' : List UInt8} (heq : value.encode ++ rest = other.encode ++ rest')
    (hlimit : (value.encode ++ rest).length < addressLimit) :
    value.encode = other.encode ∧ rest = rest' := by
  have hvalue := @reads_skipValue (max value.depth other.depth) _ ⟨h, le_max_left _ _⟩
  have hother := @reads_skipValue (max value.depth other.depth) _ ⟨h', le_max_right _ _⟩
  obtain ⟨hencode, -, hrest⟩ := hvalue.unique hother heq hlimit
  exact ⟨hencode, hrest⟩

/-- Items of one encoding are encoded one by one alike. -/
theorem map_encode_unique {items others : List Value} (h : ∀ item ∈ items, item.WellFormed)
    (h' : ∀ item ∈ others, item.WellFormed) (hlen : items.length = others.length)
    (heq : encodeItems items = encodeItems others)
    (hlimit : (encodeItems items).length < addressLimit) :
    items.map Value.encode = others.map Value.encode := by
  induction items generalizing others with
  | nil =>
    obtain rfl := List.length_eq_zero_iff.mp hlen.symm
    rfl
  | cons item items ih =>
    match others, hlen with
    | other :: others, hlen =>
      rw [List.forall_mem_cons] at h h'
      rw [encodeItems] at heq hlimit
      rw [encodeItems] at heq
      obtain ⟨hfirst, hrest⟩ := encode_unique h.1 h'.1 heq hlimit
      rw [List.length_append] at hlimit
      have hmap := ih h.2 h'.2 (by simpa using hlen) hrest (by omega)
      rw [List.map_cons, List.map_cons, hfirst, hmap]

/-- The first four elements of a payload are unique. -/
theorem firstFour_unique {packed : List UInt8} {elements others : List (List UInt8)}
    (h : FirstFour packed elements) (h' : FirstFour packed others)
    (hlimit : packed.length < addressLimit) : elements = others := by
  obtain ⟨form, items, hwell, rfl, rfl⟩ := h
  obtain ⟨form', items', hwell', heq, rfl⟩ := h'
  cases hwell with
  | array hheader hitems =>
  cases hwell' with
  | array hheader' hitems' =>
  obtain ⟨head, hhead⟩ := Option.isSome_iff_exists.mp hheader
  obtain ⟨head', hhead'⟩ := Option.isSome_iff_exists.mp hheader'
  simp only [Value.encode, hhead, hhead', Option.getD_some] at heq hlimit
  obtain ⟨-, hlen, hbody⟩ := (reads_readArrayLen hhead).unique (reads_readArrayLen hhead') heq hlimit
  rw [List.length_append] at hlimit
  rw [List.map_take, List.map_take,
    map_encode_unique hitems hitems' hlen hbody (by omega)]

/-! ## The signing payload -/

namespace SigningPayload

/-- The bytes that are hashed and signed. -/
def bytes : SigningPayload → List UInt8
  | original bytes => bytes
  | canonicalArray4 elements _ => [fixedArray4Marker] ++ elements.toList.flatten

/-- The payload is hashed behind what was hashed before. -/
theorem updateHasher_eq (hasher : List UInt8) (payload : SigningPayload) :
    payload.updateHasher hasher = hasher ++ payload.bytes := by
  have hfold : ∀ (elements : List (List UInt8)) (start : List UInt8),
      elements.foldl (fun hasher element => hasher ++ element) start = start ++ elements.flatten := by
    intro elements
    induction elements with
    | nil => simp
    | cons element elements ih =>
      intro start
      rw [List.foldl_cons, ih, List.flatten_cons, List.append_assoc]
  cases payload with
  | original bytes => rfl
  | canonicalArray4 elements len => rw [updateHasher, hfold, bytes, List.append_assoc]

/-- The signed payload is written. -/
theorem writes_writeTo (payload : SigningPayload) : Writes payload.writeTo payload.bytes := by
  have hwrite : ∀ elements, Writes (writeElements elements) elements.flatten := by
    intro elements
    induction elements with
    | nil => exact Writes.nil
    | cons element elements ih => exact (writes_writeArray element).bind ih
  cases payload with
  | original bytes => exact writes_writeArray bytes
  | canonicalArray4 elements len =>
    exact (writes_writeArray [fixedArray4Marker]).bind (hwrite elements.toList)

end SigningPayload

/-- The lengths of the elements are added up. -/
theorem addElementLens_eq {len : ℕ} {elements : List (List UInt8)}
    (h : len + elements.flatten.length < addressLimit) :
    addElementLens len elements = .ok (len + elements.flatten.length) := by
  induction elements generalizing len with
  | nil => rfl
  | cons element elements ih =>
    rw [List.flatten_cons, List.length_append] at h ⊢
    rw [addElementLens, checkedAdd_eq_some (by omega)]
    simp only
    rw [ih (by omega), Nat.add_assoc]

/-- Items within the depth are read one by one. -/
theorem reads_readRawValues {items : List Value}
    (h : ∀ item ∈ items, Admits lxmfMsgpackMaxDepth item) :
    Reads (readRawValues items.length) (encodeItems items) () := by
  induction items with
  | nil => exact Reads.pure ()
  | cons item items ih =>
    rw [List.forall_mem_cons] at h
    rw [encodeItems]
    exact (reads_readRawValue h.1).bind (ih h.2)

/-- The skipper walks an array of four and keeps the payload as it is. -/
theorem parse_array4 {packed : List UInt8} {form : LengthForm} {items : List Value}
    (h : PackedItems packed form items) (hitems : items.length = 4)
    (hlen : packed.length ≤ lxmfPayloadMaxLen) :
    SigningPayload.parse packed = .ok (.original packed) := by
  obtain ⟨head, hhead⟩ := Option.isSome_iff_exists.mp h.header_isSome
  have hpacked : packed = head ++ encodeItems items := by
    rw [h.packed_eq, Value.encode, hhead, Option.getD_some]
  have hreads := reads_readRawValues h.admits
  rw [hitems] at hhead hreads
  have hrest : ReadsRest (SigningPayload.read packed) (head ++ (encodeItems items ++ []))
      (.original packed) := by
    refine (reads_readArrayLen hhead).bind_rest (hreads.bind_rest ?_)
    exact finishes_finishPayload.bind_rest (CursorM.Reads.pure _).rest
  rw [List.append_nil, ← hpacked] at hrest
  have hlimit := lt_addressLimit_of_le_payloadMaxLen hlen
  exact hrest.runOn (by omega)

/-- The skipper walks an array of five and keeps the first four items. -/
theorem parse_array5 {packed : List UInt8} {form : LengthForm} {a b c d e : Value}
    (h : PackedItems packed form [a, b, c, d, e]) (hlen : packed.length ≤ lxmfPayloadMaxLen) :
    SigningPayload.parse packed = .ok (.canonicalArray4
      ⟨[a.encode, b.encode, c.encode, d.encode], rfl⟩
      (1 + [a.encode, b.encode, c.encode, d.encode].flatten.length)) := by
  obtain ⟨head, hhead⟩ := Option.isSome_iff_exists.mp h.header_isSome
  have hpacked : packed = head ++ (a.encode ++ (b.encode ++ (c.encode ++ (d.encode ++
      (e.encode ++ []))))) := by
    rw [h.packed_eq, Value.encode, hhead, Option.getD_some]
    rfl
  have hlimit := lt_addressLimit_of_le_payloadMaxLen hlen
  have hadmits := h.admits
  simp only [List.forall_mem_cons] at hadmits
  obtain ⟨ha, hb, hc, hd, he, -⟩ := hadmits
  -- the elements lie in the payload, so the sum of their lengths does not overflow
  have hcanonical : canonicalArray4Len ⟨[a.encode, b.encode, c.encode, d.encode], rfl⟩ =
      .ok (1 + [a.encode, b.encode, c.encode, d.encode].flatten.length) := by
    apply addElementLens_eq
    rw [hpacked] at hlimit
    simp only [List.Vector.toList_mk, List.flatten_cons, List.flatten_nil, List.length_append,
      List.length_nil] at hlimit ⊢
    omega
  have hrest : ReadsRest (SigningPayload.read packed) (head ++ (a.encode ++ (b.encode ++ (c.encode ++
      (d.encode ++ (e.encode ++ [])))))) (.canonicalArray4
        ⟨[a.encode, b.encode, c.encode, d.encode], rfl⟩
        (1 + [a.encode, b.encode, c.encode, d.encode].flatten.length)) := by
    refine (reads_readArrayLen hhead).bind_rest ((reads_readRawValue ha).bind_rest ?_)
    refine (reads_readRawValue hb).bind_rest ((reads_readRawValue hc).bind_rest ?_)
    refine (reads_readRawValue hd).bind_rest ((reads_readRawValue he).bind_rest ?_)
    apply finishes_finishPayload.bind_rest
    apply CursorM.Reads.rest
    apply CursorM.Reads.check hcanonical
    exact CursorM.Reads.pure _
  rw [← hpacked] at hrest
  exact hrest.runOn (by omega)

/-- The one-byte header of an array of four starts with its marker, the longer ones do not. -/
theorem header_array4 {form : LengthForm} {head : List UInt8} (h : header .array form 4 = some head)
    (hmarker : head.head? = some fixedArray4Marker) : head = [fixedArray4Marker] := by
  cases form with
  | fixed =>
    cases h
    rfl
  | len8 => cases h
  | len16 =>
    cases h
    cases hmarker
  | len32 =>
    cases h
    cases hmarker

/-- The payload carries a stamp, or its header is the one byte `0x94`. -/
def Canonical (message : LxmfMessageRef) : Prop :=
  message.payload.stamp.isSome = true ∨ message.packedPayload.head? = some fixedArray4Marker

/-- What the signing code makes of an accepted message. -/
structure Signs (message : LxmfMessageRef) (signing : SigningPayload)
    (elements : List (List UInt8)) : Prop where
  parse_eq : SigningPayload.parse message.packedPayload = .ok signing
  packed_length_le : message.packedPayload.length ≤ lxmfPayloadMaxLen
  len_eq : signing.len = signing.bytes.length
  length_le : signing.bytes.length ≤ lxmfPayloadMaxLen
  firstFour_packed : FirstFour message.packedPayload elements
  firstFour_bytes : FirstFour signing.bytes elements
  bytes_eq : Canonical message → signing.bytes = [fixedArray4Marker] ++ elements.flatten

/-- Items are encoded one behind the other. -/
theorem encodeItems_eq_flatten (items : List Value) :
    encodeItems items = (items.map Value.encode).flatten := by
  induction items with
  | nil => rfl
  | cons item items ih => rw [encodeItems, ih, List.map_cons, List.flatten_cons]

/-- **The two walks agree** on the items of a payload. -/
theorem exists_signs {message : LxmfMessageRef} {form : LengthForm} {items : List Value}
    (h : PackedItems message.packedPayload form items)
    (hitems : items.length = itemCount message.payload.stamp)
    (hlen : message.packedPayload.length ≤ lxmfPayloadMaxLen) :
    ∃ signing elements, Signs message signing elements := by
  obtain ⟨head, hhead⟩ := Option.isSome_iff_exists.mp h.header_isSome
  have hpacked : message.packedPayload = head ++ (items.map Value.encode).flatten := by
    rw [h.packed_eq, Value.encode, hhead, Option.getD_some, encodeItems_eq_flatten]
  cases hstamp : message.payload.stamp.isSome with
  | false =>
    have hfour : items.length = 4 := by
      rw [hitems, itemCount, hstamp]
      rfl
    -- without a stamp the payload is signed as it stands
    have htake : items.take 4 = items := by rw [← hfour, List.take_length]
    have hfirst : FirstFour message.packedPayload (items.map Value.encode) :=
      ⟨form, items, h.wellFormed, h.packed_eq, by rw [htake]⟩
    refine ⟨.original message.packedPayload, items.map Value.encode, parse_array4 h hfour hlen, hlen,
      rfl, hlen, hfirst, hfirst, ?_⟩
    rintro (hsome | hmarker)
    · rw [hstamp] at hsome
      cases hsome
    · obtain ⟨marker, tail, rfl, -⟩ := isMapMarker_of_header hhead
      have hheader : marker :: tail = [fixedArray4Marker] := by
        apply header_array4 (hfour ▸ hhead)
        rwa [hpacked] at hmarker
      show message.packedPayload = _
      rw [hpacked, hheader]
  | true =>
    have hfive : items.length = 5 := by
      rw [hitems, itemCount, hstamp]
      rfl
    -- with a stamp the first four items are signed under the one-byte header
    obtain ⟨a, b, c, d, e, rfl⟩ : ∃ a b c d e, items = [a, b, c, d, e] := by
      obtain ⟨a, rest, rfl⟩ := List.exists_cons_of_length_eq_add_one hfive
      obtain ⟨b, c, d, e, rfl⟩ := List.length_eq_four.mp (Nat.succ.inj hfive)
      exact ⟨a, b, c, d, e, rfl⟩
    have hadmits := h.admits
    simp only [List.forall_mem_cons] at hadmits
    obtain ⟨ha, hb, hc, hd, -⟩ := hadmits
    refine ⟨_, [a, b, c, d].map Value.encode, parse_array5 h hlen, hlen, ?_, ?_,
      ⟨form, _, h.wellFormed, h.packed_eq, rfl⟩, ⟨.fixed, [a, b, c, d], ?_, ?_, rfl⟩, fun _ => rfl⟩
    · simp only [SigningPayload.len, SigningPayload.bytes, List.Vector.toList_mk,
        List.length_append, List.length_singleton]
    · obtain ⟨marker, tail, rfl, -⟩ := isMapMarker_of_header hhead
      rw [hpacked] at hlen
      simp only [SigningPayload.bytes, List.Vector.toList_mk, List.map_cons, List.map_nil,
        List.flatten_cons, List.flatten_nil, List.length_append, List.length_cons,
        List.length_nil] at hlen ⊢
      omega
    · refine .array rfl ?_
      simpa using ⟨ha.1, hb.1, hc.1, hd.1⟩
    · have hfixed : header .array .fixed 4 = some [fixedArray4Marker] := rfl
      show _ = (header .array .fixed 4).getD [] ++ encodeItems [a, b, c, d]
      rw [hfixed, encodeItems_eq_flatten]
      rfl

/-- A message that was decoded signs a payload. -/
theorem ends_decodeLxmfMessage (input : List UInt8) :
    Ends (decodeLxmfMessage input) fun message =>
      ∃ signing elements, Signs message signing elements := by
  apply (ends_decodeLxmfMessage_bytes input).mono
  rintro message ⟨-, hpayload⟩
  obtain ⟨hlen, head, title, content, hlayout⟩ := (ends_decodeLxmfPayload _).of_ok hpayload
  obtain ⟨form, items, hpacked, hitems⟩ := hlayout.packedItems
  exact exists_signs hpacked hitems hlen

/-! ## Message ids and signature inputs -/

section

variable (sha256 : List UInt8 → ByteArrayN lxmfMessageIdLen)

/-- `bytes` are the signature input: their number is announced, and they are what is written to
every output with room for them, which is otherwise left alone. -/
def SignatureInput (message : LxmfMessageRef) (bytes : List UInt8) : Prop :=
  lxmfSignatureInputLen message = .ok bytes.length ∧
  ∀ output : List UInt8, bytes.length ≤ output.length →
    writeLxmfSignatureInput sha256 message output =
      .ok (bytes.length, bytes ++ output.drop bytes.length)

/-- What is hashed: the two hashes and the bytes to sign. -/
def hashedBytes (message : LxmfMessageRef) (signed : List UInt8) : List UInt8 :=
  message.destinationHash.bytes.toList ++ message.sourceHash.bytes.toList ++ signed

/-- The layout of a signature input: what is hashed and its hash. -/
def signatureInputBytes (message : LxmfMessageRef) (signed : List UInt8) : List UInt8 :=
  hashedBytes message signed ++ (sha256 (hashedBytes message signed)).toList

variable {sha256} {message : LxmfMessageRef} {signing : SigningPayload}
  {elements : List (List UInt8)}

/-- The two addresses and the payload are hashed. -/
theorem length_hashedBytes (message : LxmfMessageRef) (signed : List UInt8) :
    (hashedBytes message signed).length = 32 + signed.length := by
  have hdestination : message.destinationHash.bytes.toList.length = 16 := List.Vector.toList_length _
  have hsource : message.sourceHash.bytes.toList.length = 16 := List.Vector.toList_length _
  rw [hashedBytes, List.length_append, List.length_append, hdestination, hsource]

/-- The hash stands behind what was hashed. -/
theorem length_signatureInputBytes (message : LxmfMessageRef) (signed : List UInt8) :
    (signatureInputBytes sha256 message signed).length = 32 + signed.length + 32 := by
  have hid : (sha256 (hashedBytes message signed)).toList.length = 32 := List.Vector.toList_length _
  rw [signatureInputBytes, List.length_append, length_hashedBytes, hid]

/-- The identifier is the hash. -/
theorem messageIdWithSigningPayload_eq (message : LxmfMessageRef) (signing : SigningPayload) :
    messageIdWithSigningPayload sha256 message signing =
      ⟨sha256 (hashedBytes message signing.bytes)⟩ := by
  rw [messageIdWithSigningPayload, SigningPayload.updateHasher_eq]
  rfl

/-- The identifier hashes the header and what is signed. -/
theorem Signs.lxmfMessageId_eq (h : Signs message signing elements) :
    lxmfMessageId sha256 message = .ok ⟨sha256 (hashedBytes message signing.bytes)⟩ := by
  rw [lxmfMessageId, Outcome.bind_eq h.parse_eq, messageIdWithSigningPayload_eq]
  rfl

/-- The input of the signature is written as its bytes. -/
theorem writes_writeSignatureInput (message : LxmfMessageRef) (signing : SigningPayload) :
    Writes (writeSignatureInput sha256 message signing)
      (signatureInputBytes sha256 message signing.bytes) := by
  have hbytes : signatureInputBytes sha256 message signing.bytes =
      message.destinationHash.bytes.toList ++ (message.sourceHash.bytes.toList ++ (signing.bytes ++
        (messageIdWithSigningPayload sha256 message signing).bytes.toList)) := by
    rw [messageIdWithSigningPayload_eq]
    simp only [signatureInputBytes, hashedBytes, List.append_assoc]
  rw [hbytes]
  refine (writes_writeArray _).bind ((writes_writeArray _).bind ?_)
  exact signing.writes_writeTo.bind (writes_writeArray _)

/-- These bytes are an input of the signature. -/
theorem Signs.signatureInput (h : Signs message signing elements) :
    SignatureInput sha256 message (signatureInputBytes sha256 message signing.bytes) := by
  have hlimit := lt_addressLimit_of_le_payloadMaxLen h.length_le
  have hlen : (signatureInputBytes sha256 message signing.bytes).length =
      32 + signing.bytes.length + 32 := length_signatureInputBytes message signing.bytes
  constructor
  · have hhashes : (addUsize lxmfDestinationHashLen lxmfSourceHashLen : Outcome LxmfError ℕ) =
        .ok 32 := if_pos (by decide)
    have hsum : (addUsize 32 signing.len : Outcome LxmfError ℕ) =
        .ok (32 + signing.bytes.length) := by
      rw [addUsize, h.len_eq, if_pos (by omega)]
    rw [lxmfSignatureInputLen, Outcome.bind_eq h.parse_eq, Outcome.bind_eq hhashes,
      Outcome.bind_eq hsum, addUsize, hlen]
    exact if_pos (by rw [lxmfMessageIdLen]; omega)
  · intro output houtput
    -- the writer adds up the length once more, with checks
    have hrequired : ((checkedAdd lxmfDestinationHashLen lxmfSourceHashLen).bind
        fun len => checkedAdd len signing.len).bind (fun len => checkedAdd len lxmfMessageIdLen) =
        some (32 + signing.bytes.length + 32) := by
      have hhashes : checkedAdd lxmfDestinationHashLen lxmfSourceHashLen = some 32 :=
        checkedAdd_eq_some (by decide)
      rw [hhashes, h.len_eq, Option.bind_some, checkedAdd_eq_some (by omega), Option.bind_some]
      exact checkedAdd_eq_some (by rw [lxmfMessageIdLen]; omega)
    have hwrite := (@writes_writeSignatureInput sha256 message signing).runOn
      (by rw [hlen]; omega) houtput
    rw [writeLxmfSignatureInput, Outcome.bind_eq h.parse_eq]
    simp only [hrequired]
    rw [hlen] at houtput
    rw [Outcome.bind_eq (rejectIf_eq_ok (not_lt.mpr houtput)), Outcome.bind_eq hwrite, hlen]
    rfl

/-- The first four elements are decided by the payload. -/
theorem Signs.firstFour_unique (h : Signs message signing elements) {other : List (List UInt8)}
    (hother : FirstFour message.packedPayload other) : other = elements := by
  have hlimit := lt_addressLimit_of_le_payloadMaxLen h.packed_length_le
  exact Lxmf.firstFour_unique hother h.firstFour_packed (by omega)

/-- A message has one signature input: write it to an output of its own length. -/
theorem SignatureInput.unique {bytes other : List UInt8} (h : SignatureInput sha256 message bytes)
    (h' : SignatureInput sha256 message other) : bytes = other := by
  have hlen : bytes.length = other.length := Except.ok.inj (h.1.symm.trans h'.1)
  have hwrite := h.2 bytes le_rfl
  rw [h'.2 bytes hlen.ge] at hwrite
  simp only [Except.ok.injEq, Prod.mk.injEq] at hwrite
  have hdrop : bytes.drop other.length = bytes.drop bytes.length := by rw [hlen]
  rw [hdrop] at hwrite
  exact (List.append_cancel_right hwrite.2).symm

/-- Equal signature inputs are made of equal parts. -/
theorem signatureInputBytes_injective {message' : LxmfMessageRef} {signed signed' : List UInt8}
    (h : signatureInputBytes sha256 message signed = signatureInputBytes sha256 message' signed') :
    message.destinationHash = message'.destinationHash ∧
    message.sourceHash = message'.sourceHash ∧ signed = signed' := by
  have hlen := congrArg List.length h
  rw [length_signatureInputBytes, length_signatureInputBytes] at hlen
  obtain ⟨hhashed, -⟩ := List.append_inj h (by
    rw [length_hashedBytes, length_hashedBytes]
    omega)
  obtain ⟨hhashes, hsigned⟩ := List.append_inj' hhashed (by omega)
  obtain ⟨hdestination, hsource⟩ := List.append_inj hhashes (by
    rw [List.Vector.toList_length, List.Vector.toList_length])
  refine ⟨?_, ?_, hsigned⟩
  · exact LxmfDestinationHash.ext (List.Vector.toList_injective hdestination)
  · exact LxmfSourceHash.ext (List.Vector.toList_injective hsource)

/-- **The identity of a message is that of its first four items.** Accepted messages have an id and a
signature input; these are equal for equal hashes and equal first four items, whatever the stamps
are, and equal signature inputs come from equal hashes and equal first four items. -/
theorem lxmfIdentity_stampIndependent (sha256 : List UInt8 → ByteArrayN lxmfMessageIdLen)
    {input input' : List UInt8} {message message' : LxmfMessageRef}
    (h : decodeLxmfMessage input = .ok message) (h' : decodeLxmfMessage input' = .ok message') :
    ((∃! elements, FirstFour message.packedPayload elements) ∧
      (∃ id, lxmfMessageId sha256 message = .ok id) ∧
      ∃ bytes, SignatureInput sha256 message bytes) ∧
    (message.destinationHash = message'.destinationHash → message.sourceHash = message'.sourceHash →
      (∃ elements, FirstFour message.packedPayload elements ∧
        FirstFour message'.packedPayload elements) →
      Canonical message → Canonical message' →
      ∃ id bytes, lxmfMessageId sha256 message = .ok id ∧ lxmfMessageId sha256 message' = .ok id ∧
        SignatureInput sha256 message bytes ∧ SignatureInput sha256 message' bytes) ∧
    (∀ bytes, SignatureInput sha256 message bytes → SignatureInput sha256 message' bytes →
      message.destinationHash = message'.destinationHash ∧
      message.sourceHash = message'.sourceHash ∧
      ∃ elements, FirstFour message.packedPayload elements ∧
        FirstFour message'.packedPayload elements) := by
  obtain ⟨signing, elements, hsigns⟩ := (ends_decodeLxmfMessage input).of_ok h
  obtain ⟨signing', elements', hsigns'⟩ := (ends_decodeLxmfMessage input').of_ok h'
  have hunique : ∀ other, FirstFour message.packedPayload other → other = elements :=
    fun other hother => hsigns.firstFour_unique hother
  refine ⟨⟨⟨elements, hsigns.firstFour_packed, hunique⟩, ⟨_, hsigns.lxmfMessageId_eq⟩,
    ⟨_, hsigns.signatureInput⟩⟩, ?_, ?_⟩
  · rintro hdestination hsource ⟨common, hcommon, hcommon'⟩ hcanonical hcanonical'
    -- both sign the array of the common items
    have hbytes : signing.bytes = signing'.bytes := by
      rw [hsigns.bytes_eq hcanonical, hsigns'.bytes_eq hcanonical', ← hsigns.firstFour_unique hcommon,
        ← hsigns'.firstFour_unique hcommon']
    have hhashed : hashedBytes message signing.bytes = hashedBytes message' signing'.bytes := by
      rw [hashedBytes, hashedBytes, hdestination, hsource, hbytes]
    refine ⟨_, _, hsigns.lxmfMessageId_eq, ?_, hsigns.signatureInput, ?_⟩
    · rw [hhashed]
      exact hsigns'.lxmfMessageId_eq
    · rw [signatureInputBytes, hhashed]
      exact hsigns'.signatureInput
  · intro bytes hinput hinput'
    have heq := (hsigns.signatureInput.unique hinput).trans
      (hsigns'.signatureInput.unique hinput').symm
    obtain ⟨hdestination, hsource, hbytes⟩ := signatureInputBytes_injective heq
    refine ⟨hdestination, hsource, elements, hsigns.firstFour_packed, ?_⟩
    have hlimit := lt_addressLimit_of_le_payloadMaxLen hsigns.length_le
    have helements : elements = elements' :=
      firstFour_unique hsigns.firstFour_bytes (hbytes ▸ hsigns'.firstFour_bytes) (by omega)
    rw [helements]
    exact hsigns'.firstFour_packed

end

/-- `[1.5, b"title", b"hello", {}]`, with the header of an array of `count`. -/
def samplePayload (count : UInt8) : List UInt8 :=
  [0x90 + count, 0xcb, 0x3f, 0xf8, 0, 0, 0, 0, 0, 0] ++ [0xc4, 5, 0x74, 0x69, 0x74, 0x6c, 0x65] ++
    [0xc4, 5, 0x68, 0x65, 0x6c, 0x6c, 0x6f] ++ [0x80]

def sampleHeader : List UInt8 :=
  List.replicate 16 1 ++ List.replicate 16 2 ++ List.replicate 64 3

/-- The hash of the sample message. -/
def sampleMessageId : ByteArrayN lxmfMessageIdLen :=
  ⟨[0x18, 0x93, 0xa6, 0xcf, 0x0c, 0xca, 0x60, 0x56, 0x8b, 0x39, 0xf7, 0xa7, 0x00, 0xa1, 0x7a, 0x67,
    0xc0, 0x1c, 0x05, 0xb1, 0xc1, 0xea, 0xbc, 0x6b, 0xa5, 0xf5, 0xd9, 0xf6, 0xfa, 0x17, 0xe3, 0xe3],
    rfl⟩

/-- The message without a stamp, and with the stamp `b"xx"`. -/
def sampleMessage4 : List UInt8 := sampleHeader ++ samplePayload 4
def sampleMessage5 : List UInt8 := sampleHeader ++ samplePayload 5 ++ [0xc4, 2, 0x78, 0x78]

/-- What they are decoded to. -/
def sampleDecoded (packedPayload : List UInt8) (stamp : Option (List UInt8)) : LxmfMessageRef where
  destinationHash := ⟨fillBytes 16 1⟩
  sourceHash := ⟨fillBytes 16 2⟩
  signature := ⟨fillBytes 64 3⟩
  packedPayload
  payload := {
    timestampSecs := 0x3ff8000000000000
    title := [0x74, 0x69, 0x74, 0x6c, 0x65]
    content := [0x68, 0x65, 0x6c, 0x6c, 0x6f]
    fields := [0x80]
    stamp }

/-- The sample without a stamp decodes. -/
theorem decode_sampleMessage4 :
    decodeLxmfMessage sampleMessage4 = .ok (sampleDecoded (samplePayload 4) none) := by
  decide +kernel

/-- The sample with a stamp decodes. -/
theorem decode_sampleMessage5 : decodeLxmfMessage sampleMessage5 =
    .ok (sampleDecoded (samplePayload 5 ++ [0xc4, 2, 0x78, 0x78]) (some [0xc4, 2, 0x78, 0x78])) := by
  decide +kernel

def sampleItems : List Value :=
  [.number .float64 0x3ff8000000000000, .bin .len8 [0x74, 0x69, 0x74, 0x6c, 0x65],
    .bin .len8 [0x68, 0x65, 0x6c, 0x6c, 0x6f], .map .fixed []]

/-- The elements of the sample are values of the format. -/
theorem wellFormed_sampleItems : ∀ item ∈ sampleItems, item.WellFormed := by
  simp only [sampleItems, List.forall_mem_cons]
  exact ⟨.number (by decide), .bin rfl, .bin rfl, .map rfl (by simp) (by simp), by simp⟩

/-- They are the first four of the payload without a stamp. -/
theorem firstFour_samplePayload4 : FirstFour (samplePayload 4) (sampleItems.map Value.encode) :=
  ⟨.fixed, sampleItems, .array rfl wellFormed_sampleItems, by decide, rfl⟩

/-- They are the first four of the payload with a stamp. -/
theorem firstFour_samplePayload5 : FirstFour (samplePayload 5 ++ [0xc4, 2, 0x78, 0x78])
    (sampleItems.map Value.encode) := by
  refine ⟨.fixed, sampleItems ++ [.bin .len8 [0x78, 0x78]], .array rfl ?_, by decide, rfl⟩
  rw [List.forall_mem_append]
  exact ⟨wellFormed_sampleItems, by simpa using Value.WellFormed.bin rfl⟩

/-- Both samples have one identifier and one signature input. -/
theorem lxmfIdentity_sampleMessages :
    ∃ id bytes,
      lxmfMessageId (fun _ => sampleMessageId) (sampleDecoded (samplePayload 4) none) = .ok id ∧
      lxmfMessageId (fun _ => sampleMessageId) (sampleDecoded (samplePayload 5 ++
        [0xc4, 2, 0x78, 0x78]) (some [0xc4, 2, 0x78, 0x78])) = .ok id ∧
      SignatureInput (fun _ => sampleMessageId) (sampleDecoded (samplePayload 4) none) bytes ∧
      SignatureInput (fun _ => sampleMessageId) (sampleDecoded (samplePayload 5 ++
        [0xc4, 2, 0x78, 0x78]) (some [0xc4, 2, 0x78, 0x78])) bytes :=
  (lxmfIdentity_stampIndependent (fun _ => sampleMessageId) decode_sampleMessage4
    decode_sampleMessage5).2.1 rfl rfl ⟨_, firstFour_samplePayload4, firstFour_samplePayload5⟩
    (.inr rfl) (.inl rfl)

end Hyf.Lxmf
