import Hyf.Common.JsonCompact
import Hyf.Nostr.EventTheorems

/-!
# The canonical serialization binds every field (`hyf_link_nostr`)

`canonicalBytes` is the compact JSON array of the fields of an event. A JSON text has one derivation
only, so from equal bytes the fields can be read off: `canonicalBytes_injective`. Since the id of an
event is the hash of these bytes, two events that are accepted with one id differ only if the hash
collides.
-/

namespace Hyf.Nostr

open ByteCodec WriterM JsonText

/-! ## The serialization in a buffer -/

/-- `BufferSink::write`: both errors tell how much room was needed. -/
def bufferWrite : List UInt8 → WriterM NostrError Unit :=
  writeSlice (fun cursor _ => .outputTooSmall (2 ^ 64 - 1) cursor.output.length)
    fun cursor bytes => .outputTooSmall (cursor.index + bytes.length) cursor.output.length

/-- `finish`: the text that was written so far. -/
def finishText (cursor : WriteCursor) : Outcome NostrError String := do
  let written ← slice cursor.output 0 cursor.index
  match fromUtf8 written with
  | some text => return text
  | none => fail .utf8

/-- Serialize into `out`: the text and the slice afterwards. -/
def writeCanonicalEvent (event : NostrUnsignedEvent) (out : List UInt8) :
    Outcome NostrError (String × List UInt8) := do
  let cursor ← WriterM.runOn (writeCanonicalTo bufferWrite event) out
  let text ← finishText cursor
  return (text, cursor.output)

theorem emits_writes : Emits Writes bufferWrite where
  nil := Writes.nil
  bind := Writes.bind
  write := writes_writeSlice _ _

theorem emits_attempts : Emits Attempts bufferWrite where
  nil := Attempts.nil
  bind := Attempts.bind
  write := attempts_writeSlice _ _

theorem finishText_eq {bytes rest : List UInt8} {text : String} (h : fromUtf8 bytes = some text) :
    finishText ⟨bytes ++ rest, bytes.length⟩ = .ok text := by
  have hslice : (slice (bytes ++ rest) 0 bytes.length : Outcome NostrError (List UInt8)) = .ok bytes := by
    rw [slice, if_pos ⟨Nat.zero_le _, by rw [List.length_append]; omega⟩, List.drop_zero, Nat.sub_zero,
      List.take_left]
  rw [finishText, Outcome.bind_eq hslice]
  simp only [h]
  rfl

/-- A serializer that succeeds has written its bytes, and the text is made of them. -/
theorem exists_of_runOn_finish {writer : WriterM NostrError Unit} {bytes out : List UInt8}
    (h : Attempts writer bytes) {result : String × List UInt8}
    (hrun : (do
      let cursor ← WriterM.runOn writer out
      let text ← finishText cursor
      return (text, cursor.output) : Outcome NostrError (String × List UInt8)) = .ok result) :
    fromUtf8 bytes = some result.1 := by
  have hends := h.ends_runOn out
  cases hwrite : WriterM.runOn writer out with
  | error fault =>
    rw [hwrite] at hrun
    cases hrun
  | ok cursor =>
    rw [hwrite] at hends
    obtain ⟨-, rfl⟩ := hends
    rw [Outcome.bind_eq hwrite] at hrun
    cases htext : fromUtf8 bytes with
    | some text =>
      rw [Outcome.bind_eq (finishText_eq htext)] at hrun
      cases hrun
      rfl
    | none =>
      have hslice : (slice (bytes ++ out.drop bytes.length) 0 bytes.length :
          Outcome NostrError (List UInt8)) = .ok bytes := by
        rw [slice, if_pos ⟨Nat.zero_le _, by rw [List.length_append]; omega⟩, List.drop_zero,
          Nat.sub_zero, List.take_left]
      rw [finishText, Outcome.bind_eq hslice] at hrun
      simp only [htext] at hrun
      cases hrun

/-! ## The serialization as JSON -/

/-- The control escapes are those of the compact trees. -/
theorem jsonChar_controlEscape (c : Char) :
    jsonChar controlEscape c = utf8Bytes (partOf c).text := by
  apply forall_partOf (P := fun c => jsonChar controlEscape c = utf8Bytes (partOf c).text)
  · decide
  · intro c hle h hpart
    have hne : c.toNat ≠ 0x22 ∧ c.toNat ≠ 0x5c ∧ c.toNat ≠ 0x0a ∧ c.toNat ≠ 0x0d ∧ c.toNat ≠ 0x09 ∧
        c.toNat ≠ 0x08 ∧ c.toNat ≠ 0x0c ∧ ¬c.toNat ≤ 0x1f := by omega
    rw [hpart, StringPart.text, utf8Bytes_cons]
    unfold jsonChar
    simp only [hne, if_false]
    exact (List.append_nil _).symm

theorem bytes_textOf (value : String) : (stringOf value).bytes = jsonString controlEscape value :=
  bytes_stringOf jsonChar_controlEscape value

/-- The tree of an array of arrays of strings. -/
def rowsOf (rows : List (List String)) : Syntax :=
  arrayOf (rows.map fun values => arrayOf (values.map stringOf))

theorem bytes_rowsOf (rows : List (List String)) :
    (rowsOf rows).bytes = jsonRows controlEscape rows := by
  have hrow : ∀ values : List String,
      (arrayOf (values.map stringOf)).bytes = jsonRow controlEscape values := by
    intro values
    have hstrings : (values.map stringOf).map Syntax.bytes = values.map (jsonString controlEscape) := by
      rw [List.map_map]
      exact List.map_congr_left fun value _ => bytes_textOf value
    rw [bytes_arrayOf, hstrings, jsonRow]
  have hrows : (rows.map fun values => arrayOf (values.map stringOf)).map Syntax.bytes =
      rows.map (jsonRow controlEscape) := by
    rw [List.map_map]
    exact List.map_congr_left fun values _ => hrow values
  rw [rowsOf, bytes_arrayOf, hrows, jsonRows]

/-- The value of an array of arrays of strings. -/
def rowsValue (rows : List (List String)) : JsonValue :=
  .array (rows.map fun values => .array (values.map JsonValue.string))

theorem value_stringOf (value : String) : (stringOf value).value = .string value :=
  congrArg JsonValue.string (value_bodyOf value)

theorem value_rowsOf (rows : List (List String)) : (rowsOf rows).value = rowsValue rows := by
  have hrow : ∀ values : List String,
      (arrayOf (values.map stringOf)).value = .array (values.map JsonValue.string) := by
    intro values
    rw [value_arrayOf, List.map_map]
    exact congrArg JsonValue.array (List.map_congr_left fun value _ => value_stringOf value)
  rw [rowsOf, value_arrayOf, List.map_map]
  exact congrArg JsonValue.array (List.map_congr_left fun values _ => hrow values)

theorem rowsValue_injective {rows rows' : List (List String)} (h : rowsValue rows = rowsValue rows') :
    rows = rows' := by
  have hstrings : Function.Injective JsonValue.string := fun _ _ => JsonValue.string.inj
  have hrow : Function.Injective fun values : List String =>
      JsonValue.array (values.map JsonValue.string) :=
    fun _ _ heq => List.map_injective_iff.mpr hstrings (JsonValue.array.inj heq)
  exact List.map_injective_iff.mpr hrow (JsonValue.array.inj h)

/-- The tree of the serialization. -/
def canonicalTree (event : NostrUnsignedEvent) : Syntax :=
  arrayOf [numberOf 0, stringOf (hexText event.pubkey.bytes.toList), numberOf event.createdAt,
    numberOf (UInt64.ofNat event.kind.toNat), rowsOf (event.tags.map NostrTagRef.values),
    stringOf event.content]

theorem toNat_kind (kind : UInt16) : (UInt64.ofNat kind.toNat).toNat = kind.toNat := by
  have hlt := kind.toNat_lt
  rw [UInt64.toNat_ofNat', Nat.mod_eq_of_lt (by omega)]

theorem bytes_canonicalTree (event : NostrUnsignedEvent) :
    (canonicalTree event).bytes = canonicalBytes event := by
  simp only [canonicalTree, bytes_arrayOf, List.map_cons, List.map_nil, separated_cons_cons,
    separated_singleton, bytes_textOf, bytes_numberOf, bytes_rowsOf, toNat_kind, List.append_assoc,
    canonicalBytes]
  rfl

/-- The hexadecimal spelling of an array can be read back. -/
theorem hexText_injective {n : ℕ} (hn : n < addressLimit) {value value' : ByteArrayN n}
    (h : hexText value.toList = hexText value'.toList) : value = value' := by
  have hdecode := decodeFixedLowerHex_eq value (asBytes_hexText value.toList) hn
  have hdecode' := decodeFixedLowerHex_eq value' (asBytes_hexText value'.toList) hn
  rw [h, hdecode'] at hdecode
  cases hdecode
  rfl

/-- **Events with the same serialization are the same event.** -/
theorem canonicalBytes_injective {event event' : NostrUnsignedEvent}
    (h : canonicalBytes event = canonicalBytes event') : event = event' := by
  rw [← bytes_canonicalTree, ← bytes_canonicalTree] at h
  have hvalue := value_eq_of_bytes_eq h
  simp only [canonicalTree, value_arrayOf, List.map_cons, List.map_nil, value_stringOf, value_numberOf,
    value_rowsOf, JsonValue.array.injEq, List.cons.injEq, JsonValue.string.injEq,
    JsonValue.number.injEq, true_and, and_true] at hvalue
  obtain ⟨hpubkey, hcreatedAt, hkind, htags, hcontent⟩ := hvalue
  obtain ⟨⟨pubkey⟩, createdAt, kind, tags, content⟩ := event
  obtain ⟨⟨pubkey'⟩, createdAt', kind', tags', content'⟩ := event'
  have hkinds : kind = kind' := by
    have hnat := congrArg UInt64.toNat hkind
    rw [toNat_kind, toNat_kind] at hnat
    exact UInt16.toNat_inj.mp hnat
  have hvalues : Function.Injective NostrTagRef.values := by
    rintro ⟨values, hne⟩ ⟨values', hne'⟩ rfl
    rfl
  obtain rfl := hexText_injective (by decide) hpubkey
  obtain rfl := List.map_injective_iff.mpr hvalues (rowsValue_injective htags)
  obtain rfl : createdAt = createdAt' := hcreatedAt
  obtain rfl : content = content' := hcontent
  rw [hkinds]

variable {sha256 : List UInt8 → ByteArrayN 32} {schnorr : Schnorr}

/-- The id of an accepted event is the hash of its serialization. -/
theorem id_eq_of_verifyEvent {event : NostrEvent} (h : verifyEvent sha256 schnorr event = .ok ()) :
    event.id = ⟨sha256 (canonicalBytes event.unsigned)⟩ := by
  rw [verifyEvent, Outcome.bind_eq (eventId_eq event.unsigned)] at h
  by_contra hne
  rw [rejectIf_eq_fail hne] at h
  cases h

/-- **Event ids bind all signed fields.** Serializations that are the same bytes are those of the same
event, the id is the hash of the bytes that `write_canonical_event` writes, and an accepted event
with another's id but other fields is a collision of the hash. -/
theorem event_id_binds_fields :
    (∀ (event event' : NostrUnsignedEvent) (out out' : List UInt8)
      (result result' : String × List UInt8), writeCanonicalEvent event out = .ok result →
      writeCanonicalEvent event' out' = .ok result' → asBytes result.1 = asBytes result'.1 →
      event.pubkey = event'.pubkey ∧ event.createdAt = event'.createdAt ∧ event.kind = event'.kind ∧
        event.tags = event'.tags ∧ event.content = event'.content) ∧
    (∀ (event : NostrUnsignedEvent) (out : List UInt8), (canonicalBytes event).length < addressLimit →
      (canonicalBytes event).length ≤ out.length → ∃ result, writeCanonicalEvent event out = .ok result) ∧
    (∀ (event : NostrUnsignedEvent) (out : List UInt8) (result : String × List UInt8),
      writeCanonicalEvent event out = .ok result →
      eventId sha256 event = .ok ⟨sha256 (asBytes result.1)⟩) ∧
    ∀ signed changed : NostrEvent, verifyEvent sha256 schnorr signed = .ok () →
      verifyEvent sha256 schnorr changed = .ok () →
      (changed.unsigned = signed.unsigned → changed.id = signed.id) ∧
      (changed.id = signed.id → changed.unsigned ≠ signed.unsigned →
        canonicalBytes changed.unsigned ≠ canonicalBytes signed.unsigned ∧
          sha256 (canonicalBytes changed.unsigned) = sha256 (canonicalBytes signed.unsigned)) := by
  have hwritten : ∀ (event : NostrUnsignedEvent) (out : List UInt8) (result : String × List UInt8),
      writeCanonicalEvent event out = .ok result → asBytes result.1 = canonicalBytes event := by
    intro event out result h
    exact asBytes_fromUtf8 (exists_of_runOn_finish (emits_writeCanonicalTo emits_attempts event) h)
  refine ⟨?_, ?_, ?_, ?_⟩
  · intro event event' out out' result result' h h' heq
    rw [hwritten event out result h, hwritten event' out' result' h'] at heq
    obtain rfl := canonicalBytes_injective heq
    exact ⟨rfl, rfl, rfl, rfl, rfl⟩
  · intro event out hlimit hroom
    have hrun := (emits_writeCanonicalTo emits_writes event).runOn hlimit hroom
    have htext : fromUtf8 (canonicalBytes event) = some (String.ofList (canonicalTree event).text) := by
      rw [← bytes_canonicalTree]
      exact fromUtf8_utf8Bytes _
    rw [writeCanonicalEvent, Outcome.bind_eq hrun, Outcome.bind_eq (finishText_eq htext)]
    exact ⟨_, rfl⟩
  · intro event out result h
    rw [hwritten event out result h]
    exact eventId_eq event
  · intro signed changed hsigned hchanged
    rw [id_eq_of_verifyEvent hsigned, id_eq_of_verifyEvent hchanged]
    refine ⟨fun hsame => by rw [hsame], fun hid hne => ⟨fun hbytes => ?_, ?_⟩⟩
    · exact hne (canonicalBytes_injective hbytes)
    · exact NostrEventId.mk.inj hid

end Hyf.Nostr
