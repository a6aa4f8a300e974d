import Hyf.Nostr.JsonParserValues
import Hyf.Nostr.MessagesWriting

/-!
# Messages survive the wire (`hyf_link_nostr`)

The text of a message is parsed to the value of its tree, and each decoder takes that value apart
again. So a message that was written is decoded to itself, field by field.
-/

namespace Hyf.Nostr

open ByteCodec JsonText

/-! ## The owned form of a message -/

/-- The event that a reader gets. -/
def NostrEvent.toOwned (event : NostrEvent) : NostrOwnedEvent where
  id := event.id
  pubkey := event.pubkey
  createdAt := event.createdAt
  kind := event.kind
  tags := event.tags.map NostrTagRef.values
  content := event.content
  sig := event.sig

/-- The filter that a reader gets. -/
def NostrFilter.toOwned (filter : NostrFilter) : NostrOwnedFilter where
  kinds := filter.kinds
  authors := filter.authors
  pTags := filter.pTags
  since := filter.since
  «until» := filter.«until»
  limit := filter.limit

/-- The message that a relay reads. -/
def NostrClientMessage.toOwned : NostrClientMessage → NostrOwnedClientMessage
  | .event signed => .event signed.toOwned
  | .req subscriptionId filters => .req subscriptionId (filters.map NostrFilter.toOwned)
  | .close subscriptionId => .close subscriptionId
  | .auth signed => .auth signed.toOwned

/-- The message that a client reads. -/
def NostrRelayMessage.toOwned : NostrRelayMessage → NostrOwnedRelayMessage
  | .event subscriptionId signed => .event subscriptionId signed.toOwned
  | .ok eventId accepted message => .ok eventId accepted message
  | .eose subscriptionId => .eose subscriptionId
  | .closed subscriptionId message => .closed subscriptionId message
  | .notice message => .notice message
  | .auth challenge => .auth challenge

/-! ## The trees have no pairs -/

/-- A string is written without pairs. -/
theorem hasPair_stringOf (value : String) : (stringOf value).hasPair = false := hasPair_bodyOf value

/-- So are rows of strings. -/
theorem hasPair_rowsOf (rows : List (List String)) : (rowsOf rows).hasPair = false := by
  apply hasPair_arrayOf
  rw [List.forall_mem_map]
  intro values _
  apply hasPair_arrayOf
  rw [List.forall_mem_map]
  exact fun value _ => hasPair_stringOf value

/-- So is an event. -/
theorem hasPair_eventTree (event : NostrEvent) : (eventTree event).hasPair = false := by
  apply hasPair_objectOf
  simp [hexOf, kindOf, hasPair_stringOf, hasPair_rowsOf, numberOf, Syntax.hasPair]

/-- So is a field of an array, if its items are. -/
theorem hasPair_arrayField {α : Type} {tree : α → Syntax} (h : ∀ value, (tree value).hasPair = false)
    (values : List α) : ∀ item ∈ arrayField tree values, item.hasPair = false := by
  intro item hitem
  unfold arrayField at hitem
  split_ifs at hitem
  · cases hitem
  · obtain rfl := Option.mem_some_iff.mp hitem
    apply hasPair_arrayOf
    rw [List.forall_mem_map]
    exact fun value _ => h value

/-- So is a field, if its value is. -/
theorem hasPair_fieldOf {name : String} {value : Option Syntax}
    (h : ∀ item ∈ value, item.hasPair = false) :
    ∀ member ∈ fieldOf name value, member.2.hasPair = false := by
  cases value with
  | none => exact fun member hmember => absurd hmember List.not_mem_nil
  | some item => exact List.forall_mem_singleton.mpr (h item rfl)

/-- So is a filter. -/
theorem hasPair_filterTree (filter : NostrFilter) : (filterTree filter).hasPair = false := by
  have hkey : ∀ key : NostrPublicKey, (hexOf key.bytes.toList).hasPair = false :=
    fun key => hasPair_stringOf _
  have hnumber : ∀ {α : Type} (tree : α → UInt64) (value : Option α),
      ∀ item ∈ value.map fun number => numberOf (tree number), item.hasPair = false := by
    intro α tree value item hitem
    obtain ⟨number, -, rfl⟩ := Option.map_eq_some_iff.mp hitem
    rfl
  apply hasPair_objectOf
  unfold filterFields
  simp only [List.forall_mem_append]
  refine ⟨hasPair_fieldOf (hasPair_arrayField (fun _ => rfl) _),
    hasPair_fieldOf (hasPair_arrayField hkey _), hasPair_fieldOf (hasPair_arrayField hkey _),
    hasPair_fieldOf (hnumber id _), hasPair_fieldOf (hnumber id _), hasPair_fieldOf (hnumber _ _)⟩

/-! ## Events are decoded -/

/-- Items that are read one by one are read together. -/
theorem mapM_eq_ok {α β γ : Type} {f : α → Outcome NostrError β} {g : γ → α} {h : γ → β}
    (items : List γ) (heach : ∀ item ∈ items, f (g item) = .ok (h item)) :
    (items.map g).mapM f = .ok (items.map h) := by
  induction items with
  | nil => rfl
  | cons item items ih =>
    rw [List.forall_mem_cons] at heach
    rw [List.map_cons, List.mapM_cons, heach.1, ih heach.2]
    rfl

/-- Tags are read from their rows. -/
theorem parseTags_rowsValue (tags : List NostrTagRef) :
    parseTags (rowsValue (tags.map NostrTagRef.values)) = .ok (tags.map NostrTagRef.values) := by
  have hvalues : ∀ values : List String, (values.map JsonValue.string).mapM expectString = .ok values := by
    intro values
    have hmap := mapM_eq_ok (f := expectString) (g := JsonValue.string) (h := id) values fun _ _ => rfl
    rwa [List.map_id] at hmap
  have htag : ∀ tag ∈ tags, parseTag (.array (tag.values.map JsonValue.string)) = .ok tag.values := by
    intro tag _
    have hne : ¬(tag.values.map JsonValue.string).isEmpty := by
      rw [List.isEmpty_iff, List.map_eq_nil_iff]
      exact tag.ne_nil
    rw [parseTag, expectArray, Outcome.bind_eq rfl, Outcome.bind_eq (rejectIf_eq_ok hne)]
    exact hvalues tag.values
  rw [parseTags, rowsValue, List.map_map, expectArray, Outcome.bind_eq rfl]
  exact mapM_eq_ok tags htag

/-- A key is read from its hexadecimal text. -/
theorem fromHex_key (key : NostrPublicKey) :
    NostrPublicKey.fromHex (hexText key.bytes.toList) = .ok key := by
  rw [NostrPublicKey.fromHex, Outcome.bind_eq
    (decodeFixedLowerHex_eq key.bytes (asBytes_hexText _) (by decide))]
  rfl

/-- A hash is read from its hexadecimal text. -/
theorem fromHex_eventId (id : NostrEventId) :
    NostrEventId.fromHex (hexText id.bytes.toList) = .ok id := by
  rw [NostrEventId.fromHex, Outcome.bind_eq
    (decodeFixedLowerHex_eq id.bytes (asBytes_hexText _) (by decide))]
  rfl

/-- A signature is read from its hexadecimal text. -/
theorem fromHex_signature (signature : NostrSignature) :
    NostrSignature.fromHex (hexText signature.bytes.toList) = .ok signature := by
  rw [NostrSignature.fromHex, Outcome.bind_eq
    (decodeFixedLowerHex_eq signature.bytes (asBytes_hexText _) (by decide))]
  rfl

/-- A kind fits in 16 bits. -/
theorem numberToU16_kind (kind : UInt16) : numberToU16 (UInt64.ofNat kind.toNat) = .ok kind := by
  rw [numberToU16, toNat_kind, if_pos kind.toNat_lt, UInt16.ofNat_toNat]

/-- The value of an event. -/
theorem value_eventTree (event : NostrEvent) : (eventTree event).value = .object
    [("id", .string (hexText event.id.bytes.toList)),
      ("pubkey", .string (hexText event.pubkey.bytes.toList)),
      ("created_at", .number event.createdAt), ("kind", .number (UInt64.ofNat event.kind.toNat)),
      ("tags", rowsValue (event.tags.map NostrTagRef.values)), ("content", .string event.content),
      ("sig", .string (hexText event.sig.bytes.toList))] := by
  simp only [eventTree, value_objectOf, List.map_cons, List.map_nil, hexOf, kindOf, value_stringOf,
    value_numberOf, value_rowsOf]

/-- An event is read from its object. -/
theorem parseEvent_eventTree (event : NostrEvent) :
    parseEvent (eventTree event).value = .ok event.toOwned := by
  have hkind := numberToU16_kind event.kind
  rw [UInt64.ofNat_uInt16ToNat] at hkind
  rw [value_eventTree]
  simp [parseEvent, expectObject, requiredField, optionalField, expectString, expectNumber, hkind,
    fromHex_key, fromHex_eventId, fromHex_signature, parseTags_rowsValue, NostrEvent.toOwned,
    Bind.bind, Except.bind, pure, Except.pure]

/-! ## Filters are decoded -/

/-- The value of a field, if there is one. -/
def fieldValue (name : String) (value : Option Syntax) : List (String × JsonValue) :=
  (value.map fun item => (name, item.value)).toList

/-- The value of a field. -/
theorem map_fieldOf (name : String) (value : Option Syntax) :
    (fieldOf name value).map (fun member => (member.1, member.2.value)) = fieldValue name value := by
  cases value <;> rfl

/-- A field is found by its name. -/
theorem find_fieldValue (name sought : String) (value : Option Syntax) :
    (fieldValue name value).find? (fun field => field.1 = sought) =
      if name = sought then value.map fun item => (name, item.value) else none := by
  cases value with
  | none => simp [fieldValue]
  | some item => by_cases h : name = sought <;> simp [fieldValue, h]

/-- A filter means the object of its fields. -/
theorem value_filterTree (filter : NostrFilter) : (filterTree filter).value = .object
    (fieldValue "kinds" (arrayField kindOf filter.kinds) ++
      (fieldValue "authors" (arrayField (fun key => hexOf key.bytes.toList) filter.authors) ++
      (fieldValue "#p" (arrayField (fun key => hexOf key.bytes.toList) filter.pTags) ++
      (fieldValue "since" (filter.since.map numberOf) ++
      (fieldValue "until" (filter.«until».map numberOf) ++
      fieldValue "limit" (filter.limit.map fun limit => numberOf (UInt64.ofNat limit))))))) := by
  simp only [filterTree, filterFields, value_objectOf, List.map_append, map_fieldOf]

/-- The items of an array field are decoded, and none when it was left out. -/
theorem optionalArray_eq {α : Type} {fields : List (String × JsonValue)} {name : String}
    {tree : α → Syntax} {values : List α} {parseItem : JsonValue → Outcome NostrError α}
    (hfield : optionalField fields name = (arrayField tree values).map Syntax.value)
    (hitem : ∀ value, parseItem (tree value).value = .ok value) :
    optionalArray fields name parseItem = .ok values := by
  unfold optionalArray
  rw [hfield, arrayField]
  cases values with
  | nil => rfl
  | cons value values =>
    have hmap := mapM_eq_ok (f := parseItem) (g := Syntax.value ∘ tree) (h := id) (value :: values)
      fun item _ => hitem item
    rw [List.map_id, ← List.map_map] at hmap
    rw [List.isEmpty_cons, if_neg Bool.false_ne_true, Option.map_some, value_arrayOf]
    exact hmap

/-- The fields of an object are expected. -/
theorem expectObject_object (fields : List (String × JsonValue)) :
    expectObject (.object fields) = .ok fields := rfl

/-- The fields of a filter, apart from their names. -/
theorem optionalField_filterTree (filter : NostrFilter) {fields : List (String × JsonValue)}
    (hfields : (filterTree filter).value = .object fields) :
    optionalField fields "kinds" = (arrayField kindOf filter.kinds).map Syntax.value ∧
      optionalField fields "authors" =
        (arrayField (fun key => hexOf key.bytes.toList) filter.authors).map Syntax.value ∧
      optionalField fields "#p" =
        (arrayField (fun key => hexOf key.bytes.toList) filter.pTags).map Syntax.value ∧
      optionalField fields "since" = filter.since.map JsonValue.number ∧
      optionalField fields "until" = filter.«until».map JsonValue.number ∧
      optionalField fields "limit" =
        filter.limit.map fun limit => JsonValue.number (UInt64.ofNat limit) := by
  rw [value_filterTree] at hfields
  obtain rfl := JsonValue.object.inj hfields
  have hvalue : ∀ value : UInt64, (numberOf value).value = .number value := value_numberOf
  simp [optionalField, List.find?_append, find_fieldValue, Function.comp_def, hvalue]

/-- A field of numbers is read, also where it was left out. -/
theorem optionalNumberArray_eq {fields : List (String × JsonValue)} {name : String}
    {values : List UInt16}
    (hfield : optionalField fields name = (arrayField kindOf values).map Syntax.value) :
    optionalNumberArray fields name = .ok values := by
  apply optionalArray_eq hfield
  intro kind
  rw [kindOf, value_numberOf]
  exact numberToU16_kind kind

/-- A field of keys is read, also where it was left out. -/
theorem optionalKeyArray_eq {fields : List (String × JsonValue)} {name : String}
    {values : List NostrPublicKey} (hfield : optionalField fields name =
      (arrayField (fun key => hexOf key.bytes.toList) values).map Syntax.value) :
    optionalKeyArray fields name = .ok values := by
  apply optionalArray_eq hfield
  intro key
  rw [hexOf, value_stringOf]
  exact fromHex_key key

/-- A field of one number is read, also where it was left out. -/
theorem optionalNumber_eq {fields : List (String × JsonValue)} {name : String}
    {value : Option UInt64} (hfield : optionalField fields name = value.map JsonValue.number) :
    optionalNumber fields name = .ok value := by
  rw [optionalNumber, hfield]
  cases value <;> rfl

/-- A field with a count is read, also where it was left out. -/
theorem optionalUsize_eq {fields : List (String × JsonValue)} {name : String} {value : Option ℕ}
    (hfield : optionalField fields name =
      value.map fun limit => JsonValue.number (UInt64.ofNat limit))
    (hlimit : ∀ limit ∈ value, limit < addressLimit) :
    optionalUsize fields name = .ok value := by
  rw [optionalUsize, hfield]
  cases value with
  | none => rfl
  | some limit =>
    have hlt : limit < addressLimit := hlimit limit rfl
    have htoNat : (UInt64.ofNat limit).toNat = limit := UInt64.toNat_ofNat_of_lt' hlt
    have hnumber : numberToUsize (UInt64.ofNat limit) = .ok limit := by
      rw [numberToUsize, htoNat, if_pos hlt]
    rw [Option.map_some, Option.mapM_some]
    show (numberToUsize (UInt64.ofNat limit)).map some = _
    rw [hnumber]
    rfl

/-- A filter is read from its object. -/
theorem parseFilter_filterTree {filter : NostrFilter}
    (hlimit : ∀ limit ∈ filter.limit, limit < addressLimit) :
    parseFilter (filterTree filter).value = .ok filter.toOwned := by
  obtain ⟨fields, hfields⟩ : ∃ fields, (filterTree filter).value = .object fields :=
    ⟨_, value_filterTree filter⟩
  obtain ⟨hkinds, hauthors, hpTags, hsince, huntil, hlimits⟩ := optionalField_filterTree filter hfields
  rw [hfields, parseFilter, Outcome.bind_eq (expectObject_object fields),
    Outcome.bind_eq (optionalNumberArray_eq hkinds),
    Outcome.bind_eq (optionalKeyArray_eq hauthors), Outcome.bind_eq (optionalKeyArray_eq hpTags),
    Outcome.bind_eq (optionalNumber_eq hsince), Outcome.bind_eq (optionalNumber_eq huntil),
    Outcome.bind_eq (optionalUsize_eq hlimits hlimit)]
  rfl

/-! ## Messages are decoded -/

/-- The text of a tree without pairs is read back. -/
theorem parse_text {item : Syntax} (h : item.hasPair = false) :
    JsonParser.parse (String.ofList item.text) = .ok item.value := by
  rw [JsonParser.parse_eq_ok_iff]
  refine ⟨documentOf item, h, ?_, rfl⟩
  rw [text_documentOf, String.toList_ofList]

/-- A message is read back as its kind and its items. -/
theorem parseMessage_text {kind : String} {items : List Syntax}
    (h : ∀ item ∈ items, item.hasPair = false) :
    parseMessage (String.ofList (arrayOf (stringOf kind :: items)).text) =
      .ok (kind, .string kind :: items.map Syntax.value) := by
  have hpair : (arrayOf (stringOf kind :: items)).hasPair = false :=
    hasPair_arrayOf (List.forall_mem_cons.mpr ⟨hasPair_stringOf kind, h⟩)
  have hparse := parse_text hpair
  rw [value_arrayOf, List.map_cons, value_stringOf] at hparse
  rw [parseMessage, Outcome.bind_eq hparse]
  rfl

/-- A valid identifier is read. -/
theorem parseSubscriptionId_eq {kind subscriptionId : String} {items : List JsonValue}
    (h : ValidSubscriptionId subscriptionId) :
    parseSubscriptionId (.string kind :: .string subscriptionId :: items) = .ok subscriptionId := by
  have hvalid := validateSubscriptionId_eq h
  show (do validateSubscriptionId subscriptionId; return subscriptionId : Outcome _ _) = _
  rw [Outcome.bind_eq hvalid]
  rfl

/-- A valid client message is read from its text. -/
theorem decodeClientMessage_text {message : NostrClientMessage} (h : ClientMessageValid message) :
    decodeClientMessage (String.ofList (clientTree message).text) = .ok message.toOwned := by
  cases message with
  | event event =>
    have hparse := parseEvent_eventTree event
    rw [clientTree, decodeClientMessage, Outcome.bind_eq (parseMessage_text
      (List.forall_mem_singleton.mpr (hasPair_eventTree event)))]
    simp [itemAt, rejectIf, Bind.bind, Except.bind, pure, Except.pure, hparse, NostrClientMessage.toOwned]
  | req subscriptionId filters =>
    have hitems : ∀ item ∈ stringOf subscriptionId :: filters.map filterTree, item.hasPair = false := by
      rw [List.forall_mem_cons, List.forall_mem_map]
      exact ⟨hasPair_stringOf _, fun filter _ => hasPair_filterTree filter⟩
    have hfilters : (filters.map (Syntax.value ∘ filterTree)).mapM parseFilter =
        .ok (filters.map NostrFilter.toOwned) :=
      mapM_eq_ok filters fun filter hfilter => parseFilter_filterTree (h.2.2 filter hfilter)
    have hlength : ¬(filters.length + 1 + 1 < 3) := by
      have := List.length_pos_iff.mpr h.2.1
      omega
    rw [clientTree, decodeClientMessage, Outcome.bind_eq (parseMessage_text hitems)]
    simp [rejectIf, Bind.bind, Except.bind, pure, Except.pure, value_stringOf,
      parseSubscriptionId_eq h.1, hfilters, hlength, NostrClientMessage.toOwned]
  | close subscriptionId =>
    rw [clientTree, decodeClientMessage, Outcome.bind_eq (parseMessage_text
      (List.forall_mem_singleton.mpr (hasPair_stringOf _)))]
    simp [rejectIf, Bind.bind, Except.bind, pure, Except.pure, value_stringOf,
      parseSubscriptionId_eq h, NostrClientMessage.toOwned]
  | auth event =>
    have hparse := parseEvent_eventTree event
    rw [clientTree, decodeClientMessage, Outcome.bind_eq (parseMessage_text
      (List.forall_mem_singleton.mpr (hasPair_eventTree event)))]
    simp [itemAt, rejectIf, Bind.bind, Except.bind, pure, Except.pure, hparse, NostrClientMessage.toOwned]

/-- A valid relay message is read from its text. -/
theorem decodeRelayMessage_text {message : NostrRelayMessage} (h : RelayMessageValid message) :
    decodeRelayMessage (String.ofList (relayTree message).text) = .ok message.toOwned := by
  cases message with
  | event subscriptionId event =>
    have hparse := parseEvent_eventTree event
    have hitems : ∀ item ∈ [stringOf subscriptionId, eventTree event], item.hasPair = false :=
      List.forall_mem_cons.mpr ⟨hasPair_stringOf _, List.forall_mem_singleton.mpr (hasPair_eventTree _)⟩
    rw [relayTree, decodeRelayMessage, Outcome.bind_eq (parseMessage_text hitems)]
    simp [itemAt, rejectIf, Bind.bind, Except.bind, pure, Except.pure, value_stringOf,
      parseSubscriptionId_eq h, hparse, NostrRelayMessage.toOwned]
  | ok eventId accepted message =>
    have hbool : (boolOf accepted).hasPair = false := by cases accepted <;> rfl
    have hitems : ∀ item ∈ [hexOf eventId.bytes.toList, boolOf accepted, stringOf message],
        item.hasPair = false := by
      simp [hexOf, hasPair_stringOf, hbool]
    rw [relayTree, decodeRelayMessage, Outcome.bind_eq (parseMessage_text hitems)]
    simp [itemAt, rejectIf, Bind.bind, Except.bind, pure, Except.pure, hexOf, value_stringOf,
      value_boolOf, expectString, expectBool, fromHex_eventId, NostrRelayMessage.toOwned]
  | eose subscriptionId =>
    rw [relayTree, decodeRelayMessage, Outcome.bind_eq (parseMessage_text
      (List.forall_mem_singleton.mpr (hasPair_stringOf _)))]
    simp [rejectIf, Bind.bind, Except.bind, pure, Except.pure, value_stringOf,
      parseSubscriptionId_eq h, NostrRelayMessage.toOwned]
  | closed subscriptionId message =>
    have hitems : ∀ item ∈ [stringOf subscriptionId, stringOf message], item.hasPair = false :=
      List.forall_mem_cons.mpr ⟨hasPair_stringOf _, List.forall_mem_singleton.mpr (hasPair_stringOf _)⟩
    rw [relayTree, decodeRelayMessage, Outcome.bind_eq (parseMessage_text hitems)]
    simp [itemAt, rejectIf, Bind.bind, Except.bind, pure, Except.pure, value_stringOf, expectString,
      parseSubscriptionId_eq h, NostrRelayMessage.toOwned]
  | notice message =>
    rw [relayTree, decodeRelayMessage, Outcome.bind_eq (parseMessage_text
      (List.forall_mem_singleton.mpr (hasPair_stringOf _)))]
    simp [itemAt, rejectIf, Bind.bind, Except.bind, pure, Except.pure, value_stringOf, expectString,
      NostrRelayMessage.toOwned]
  | auth challenge =>
    rw [relayTree, decodeRelayMessage, Outcome.bind_eq (parseMessage_text
      (List.forall_mem_singleton.mpr (hasPair_stringOf _)))]
    simp [itemAt, rejectIf, Bind.bind, Except.bind, pure, Except.pure, value_stringOf, expectString,
      NostrRelayMessage.toOwned]

/-! ## The round trip -/

/-- A message whose text fits into the output is written there. -/
theorem writeClientMessage_eq {message : NostrClientMessage} {out : List UInt8}
    (h : ClientMessageValid message) (hroom : (clientTree message).bytes.length ≤ out.length)
    (hlimit : out.length < addressLimit) :
    writeClientMessage message out = .ok (String.ofList (clientTree message).text,
      (clientTree message).bytes ++ out.drop (clientTree message).bytes.length) :=
  JsonWriter.writeMessage_eq (JsonWriter.writes_writeClientFields h) (by omega) hroom

/-- A valid relay message is written where there is room. -/
theorem writeRelayMessage_eq {message : NostrRelayMessage} {out : List UInt8}
    (h : RelayMessageValid message) (hroom : (relayTree message).bytes.length ≤ out.length)
    (hlimit : out.length < addressLimit) :
    writeRelayMessage message out = .ok (String.ofList (relayTree message).text,
      (relayTree message).bytes ++ out.drop (relayTree message).bytes.length) :=
  JsonWriter.writeMessage_eq (JsonWriter.writes_writeRelayFields h) (by omega) hroom

/-- **What is written is decoded to the same message.** Every output that has room for the text is
large enough. -/
theorem messages_round_trip :
    (∀ message, ClientMessageValid message → ∃ text, decodeClientMessage text = .ok message.toOwned ∧
      ∀ out : List UInt8, (asBytes text).length ≤ out.length → out.length < addressLimit →
        ∃ output, writeClientMessage message out = .ok (text, output)) ∧
      ∀ message, RelayMessageValid message → ∃ text, decodeRelayMessage text = .ok message.toOwned ∧
        ∀ out : List UInt8, (asBytes text).length ≤ out.length → out.length < addressLimit →
          ∃ output, writeRelayMessage message out = .ok (text, output) := by
  constructor
  · intro message h
    refine ⟨_, decodeClientMessage_text h, fun out hroom hlimit => ?_⟩
    rw [asBytes_ofList] at hroom
    exact ⟨_, writeClientMessage_eq h hroom hlimit⟩
  · intro message h
    refine ⟨_, decodeRelayMessage_text h, fun out hroom hlimit => ?_⟩
    rw [asBytes_ofList] at hroom
    exact ⟨_, writeRelayMessage_eq h hroom hlimit⟩

/-- A request whose id has a quote and a line feed in it. -/
theorem messages_round_trip_sample :
    ∃ text, decodeClientMessage text = .ok (.req "a\"\nü" [⟨[9775], [], [], none, some 7, some 3⟩]) ∧
      ∀ out : List UInt8, (asBytes text).length ≤ out.length → out.length < addressLimit →
        ∃ output, writeClientMessage (.req "a\"\nü" [⟨[9775], [], [], none, some 7, some 3⟩]) out =
          .ok (text, output) := by
  have hid : ValidSubscriptionId "a\"\nü" := ⟨by decide, by decide⟩
  apply messages_round_trip.1 (.req "a\"\nü" [⟨[9775], [], [], none, some 7, some 3⟩])
  refine ⟨hid, List.cons_ne_nil _ _, ?_⟩
  simp [addressLimit]

end Hyf.Nostr
