import Hyf.Nostr.Messages

/-!
# What the message writer writes (`hyf_link_nostr`)

Every part of a message is the compact tree of its JSON value: `JsonWriter` writes the bytes of the
tree wherever there is room for them.
-/

namespace Hyf.Nostr

open ByteCodec WriterM JsonText

/-! ## The trees of a message -/

/-- Bytes as a hexadecimal string. -/
def hexOf (bytes : List UInt8) : Syntax := stringOf (hexText bytes)

/-- A kind as a number. -/
def kindOf (kind : UInt16) : Syntax := numberOf (UInt64.ofNat kind.toNat)

/-- The derivation of an event. -/
def eventTree (event : NostrEvent) : Syntax :=
  objectOf [("id", hexOf event.id.bytes.toList), ("pubkey", hexOf event.pubkey.bytes.toList),
    ("created_at", numberOf event.createdAt), ("kind", kindOf event.kind),
    ("tags", rowsOf (event.tags.map NostrTagRef.values)), ("content", stringOf event.content),
    ("sig", hexOf event.sig.bytes.toList)]

/-- A field that is left out when there is nothing to say. -/
def fieldOf (name : String) (value : Option Syntax) : List (String × Syntax) :=
  (value.map fun item => (name, item)).toList

/-- An array field is left out when it is empty. -/
def arrayField {α : Type} (tree : α → Syntax) (values : List α) : Option Syntax :=
  if values.isEmpty then none else some (arrayOf (values.map tree))

/-- The fields that a filter has. -/
def filterFields (filter : NostrFilter) : List (String × Syntax) :=
  fieldOf "kinds" (arrayField kindOf filter.kinds) ++
  (fieldOf "authors" (arrayField (fun key => hexOf key.bytes.toList) filter.authors) ++
  (fieldOf "#p" (arrayField (fun key => hexOf key.bytes.toList) filter.pTags) ++
  (fieldOf "since" (filter.since.map numberOf) ++
  (fieldOf "until" (filter.«until».map numberOf) ++
  fieldOf "limit" (filter.limit.map fun limit => numberOf (UInt64.ofNat limit))))))

/-- The derivation of a filter. -/
def filterTree (filter : NostrFilter) : Syntax := objectOf (filterFields filter)

/-- The derivation of a client message. -/
def clientTree : NostrClientMessage → Syntax
  | .event event => arrayOf [stringOf "EVENT", eventTree event]
  | .req subscriptionId filters =>
    arrayOf (stringOf "REQ" :: stringOf subscriptionId :: filters.map filterTree)
  | .close subscriptionId => arrayOf [stringOf "CLOSE", stringOf subscriptionId]
  | .auth event => arrayOf [stringOf "AUTH", eventTree event]

/-- The derivation of a relay message. -/
def relayTree : NostrRelayMessage → Syntax
  | .event subscriptionId event => arrayOf [stringOf "EVENT", stringOf subscriptionId, eventTree event]
  | .ok eventId accepted message =>
    arrayOf [stringOf "OK", hexOf eventId.bytes.toList, boolOf accepted, stringOf message]
  | .eose subscriptionId => arrayOf [stringOf "EOSE", stringOf subscriptionId]
  | .closed subscriptionId message =>
    arrayOf [stringOf "CLOSED", stringOf subscriptionId, stringOf message]
  | .notice message => arrayOf [stringOf "NOTICE", stringOf message]
  | .auth challenge => arrayOf [stringOf "AUTH", stringOf challenge]

/-! ## Messages that the writer does not refuse -/

/-- What the source checks of a subscription id. -/
def ValidSubscriptionId (subscriptionId : String) : Prop :=
  1 ≤ (asBytes subscriptionId).length ∧ (asBytes subscriptionId).length ≤ 64

/-- An identifier of 1 to 64 bytes passes. -/
theorem validateSubscriptionId_eq {subscriptionId : String} (h : ValidSubscriptionId subscriptionId) :
    validateSubscriptionId subscriptionId = .ok () := by
  have hne : ¬(asBytes subscriptionId).length = 0 := Nat.one_le_iff_ne_zero.mp h.1
  rw [validateSubscriptionId, Outcome.bind_eq (rejectIf_eq_ok hne)]
  exact rejectIf_eq_ok (not_lt.mpr h.2)

/-- The identifier is valid, some filter is there, and limits fit into an address. -/
def ClientMessageValid : NostrClientMessage → Prop
  | .req subscriptionId filters => ValidSubscriptionId subscriptionId ∧ filters ≠ [] ∧
    ∀ filter ∈ filters, ∀ limit ∈ filter.limit, limit < addressLimit
  | .close subscriptionId => ValidSubscriptionId subscriptionId
  | _ => True

/-- The identifier is valid. -/
def RelayMessageValid : NostrRelayMessage → Prop
  | .event subscriptionId _ | .eose subscriptionId | .closed subscriptionId _ =>
    ValidSubscriptionId subscriptionId
  | _ => True

/-! ## The pieces -/

namespace JsonWriter

/-- A byte is written. -/
theorem writes_pushByte (byte : UInt8) : Writes (pushByte byte) [byte] := emits_writes.write _

/-- A string is written as it is derived. -/
theorem writes_writeJsonString (value : String) :
    Writes (writeJsonString value) (stringOf value).bytes := by
  rw [bytes_textOf]
  exact emits_writes.writeJsonString (fun _ => emits_writes.write _) value

/-- A number is written as it is derived. -/
theorem writes_writeU64 (value : UInt64) : Writes (writeU64 value) (numberOf value).bytes := by
  rw [bytes_numberOf]
  exact emits_writeU64 emits_writes value

/-- Tags are written as they are derived. -/
theorem writes_writeTags (tags : List NostrTagRef) :
    Writes (writeTags tags) (rowsOf (tags.map NostrTagRef.values)).bytes := by
  rw [bytes_rowsOf]
  exact emits_writes.writeRows (fun _ => emits_writes.write _) _

/-- A truth value is written as it is derived. -/
theorem writes_writeBool (value : Bool) : Writes (writeBool value) (boolOf value).bytes := by
  cases value with
  | true => exact emits_writes.write (asBytes "true")
  | false => exact emits_writes.write (asBytes "false")

/-- The bytes of the members of an object. -/
abbrev fieldBytes : String × Syntax → List UInt8 := memberBytes controlEscape

/-- A hash fits the buffer for its text. -/
theorem eventHex_eq (bytes : ByteArrayN 32) :
    encodeLowerHex bytes.toList (List.replicate 64 0) =
      .ok (hexText bytes.toList, lowerHex bytes.toList) := encodeLowerHex_vector bytes (by decide)

/-- An event is written as it is derived. -/
theorem writes_writeEvent (event : NostrEvent) : Writes (writeEvent event) (eventTree event).bytes := by
  have hsig : encodeLowerHex event.sig.bytes.toList (List.replicate 128 0) =
      .ok (hexText event.sig.bytes.toList, lowerHex event.sig.bytes.toList) :=
    encodeLowerHex_vector event.sig.bytes (by decide)
  have hkey := fun name => writes_writeJsonString name
  rw [writeEvent, NostrEventId.writeHex, NostrPublicKey.writeHex, NostrSignature.writeHex,
    Outcome.lift_bind (eventHex_eq event.id.bytes)]
  simp only [Outcome.lift_bind (eventHex_eq event.pubkey.bytes), Outcome.lift_bind hsig]
  rw [eventTree, bytes_objectOf jsonChar_controlEscape]
  simp only [List.map_cons, List.map_nil, separated_cons_cons, separated_singleton, memberBytes,
    ← bytes_textOf, List.append_assoc]
  have hcolon := writes_pushByte 0x3a
  have hcomma := writes_pushByte 0x2c
  apply (writes_pushByte 0x7b).bind
  apply (hkey "id").bind (hcolon.bind ((hkey _).bind (hcomma.bind _)))
  apply (hkey "pubkey").bind (hcolon.bind ((hkey _).bind (hcomma.bind _)))
  apply (hkey "created_at").bind (hcolon.bind ((writes_writeU64 _).bind (hcomma.bind _)))
  apply (hkey "kind").bind (hcolon.bind ((writes_writeU64 _).bind (hcomma.bind _)))
  apply (hkey "tags").bind (hcolon.bind ((writes_writeTags _).bind (hcomma.bind _)))
  apply (hkey "content").bind (hcolon.bind ((hkey _).bind (hcomma.bind _)))
  exact (hkey "sig").bind (hcolon.bind ((hkey _).bind (writes_pushByte 0x7d)))

/-! ## Filters -/

/-- The bytes of the fields that are still to come. -/
def pendingBytes (wrote : Bool) (fields : List (String × Syntax)) : List UInt8 :=
  separated (if wrote then 1 else 0) (fields.map fieldBytes)

/-- Items in two parts, with the comma between them counted. -/
theorem separated_append (index : ℕ) (items items' : List (List UInt8)) :
    separated index (items ++ items') =
      separated index items ++ separated (index + items.length) items' := by
  induction items generalizing index with
  | nil => rfl
  | cons item items ih =>
    rw [List.cons_append, separated, separated, ih, List.length_cons, List.append_assoc,
      List.append_assoc, Nat.add_assoc, Nat.add_comm 1]

/-- Behind some fields the next one has a comma in front. -/
theorem pendingBytes_append (wrote : Bool) (fields fields' : List (String × Syntax)) :
    pendingBytes wrote (fields ++ fields') =
      pendingBytes wrote fields ++ pendingBytes (wrote || !fields.isEmpty) fields' := by
  have hindex : ∀ index items, separated (index + 1) items = separated 1 items := separated_succ
  rw [pendingBytes, pendingBytes, pendingBytes, List.map_append, separated_append, List.length_map]
  cases fields with
  | nil => rw [List.length_nil, Nat.add_zero, List.isEmpty_nil, Bool.not_true, Bool.or_false]
  | cons field fields =>
    rw [List.length_cons, ← Nat.add_assoc, hindex, List.isEmpty_cons, Bool.not_false, Bool.or_true,
      if_pos rfl]

/-- The program writes the fields, with commas between all that were written so far. -/
def WritesFields (program : Bool → WriterM NostrError Bool) (fields : List (String × Syntax)) : Prop :=
  ∀ wrote, WritesAs (program wrote) (pendingBytes wrote fields) (wrote || !fields.isEmpty)

/-- A field that is left out. -/
theorem writesFields_nil {program : Bool → WriterM NostrError Bool}
    (h : ∀ wrote, program wrote = pure wrote) : WritesFields program [] := by
  intro wrote
  rw [h, List.isEmpty_nil, Bool.not_true, Bool.or_false]
  exact WritesAs.pure wrote

/-- A comma stands in front of all fields but the first. -/
theorem writesAs_fieldSeparator (wrote : Bool) :
    WritesAs (writeFieldSeparator wrote) (if wrote then [0x2c] else []) true := by
  cases wrote with
  | true => exact WritesAs.bind (writes_pushByte 0x2c) (WritesAs.pure true)
  | false => exact WritesAs.pure true

/-- The bytes of one more field. -/
theorem pendingBytes_fieldOf (wrote : Bool) (name : String) (item : Syntax) :
    pendingBytes wrote (fieldOf name (some item)) = (if wrote then [0x2c] else []) ++
      ((stringOf name).bytes ++ ([0x3a] ++ item.bytes)) := by
  rw [bytes_textOf]
  cases wrote <;> exact congrArg _ (List.append_nil _)

/-- A field of an array is written unless it is empty. -/
theorem writesFields_array {α : Type} {writeItem : α → WriterM NostrError Unit} {tree : α → Syntax}
    (h : ∀ value, Writes (writeItem value) (tree value).bytes) (name : String) (values : List α) :
    WritesFields (writeArrayField writeItem name values) (fieldOf name (arrayField tree values)) := by
  by_cases hempty : values.isEmpty
  · rw [arrayField, if_pos hempty]
    exact writesFields_nil fun wrote => if_pos hempty
  · intro wrote
    rw [arrayField, writeArrayField, if_neg hempty, if_neg hempty, pendingBytes_fieldOf,
      bytes_arrayOf, List.map_map, fieldOf, Option.map_some, Option.toList_some, List.isEmpty_cons,
      Bool.not_false, Bool.or_true]
    have hitems := emits_writes.writeSeparated h values 0
    apply (writesAs_fieldSeparator wrote).bind
    apply WritesAs.bind (writes_writeJsonString name)
    apply WritesAs.bind (writes_pushByte 0x3a)
    apply WritesAs.bind (writes_pushByte 0x5b)
    apply WritesAs.bind hitems
    exact WritesAs.bind (writes_pushByte 0x5d) (WritesAs.pure true)

/-- A key is written as it is derived. -/
theorem writes_writeKey (value : NostrPublicKey) :
    Writes (writeKey value) (hexOf value.bytes.toList).bytes := by
  rw [writeKey, NostrPublicKey.writeHex, Outcome.lift_bind (eventHex_eq value.bytes)]
  exact writes_writeJsonString _

/-- A field of one number is written unless it is missing. -/
theorem writesFields_optionalU64 (name : String) (value : Option UInt64) :
    WritesFields (writeOptionalU64Field name value) (fieldOf name (value.map numberOf)) := by
  cases value with
  | none => exact writesFields_nil fun _ => rfl
  | some value =>
    intro wrote
    rw [Option.map_some, pendingBytes_fieldOf, fieldOf, Option.map_some, Option.toList_some,
      List.isEmpty_cons, Bool.not_false, Bool.or_true]
    apply (writesAs_fieldSeparator wrote).bind
    apply WritesAs.bind (writes_writeJsonString name)
    apply WritesAs.bind (writes_pushByte 0x3a)
    have hend : WritesAs (do writeU64 value; return true) ((numberOf value).bytes ++ []) true :=
      WritesAs.bind (writes_writeU64 value) (WritesAs.pure true)
    rw [List.append_nil] at hend
    exact hend

/-- The limit is written unless it is missing. -/
theorem writes_writeLimit (limit : Option ℕ) (wrote : Bool) :
    Writes (writeLimit limit wrote) (pendingBytes wrote
      (fieldOf "limit" (limit.map fun limit => numberOf (UInt64.ofNat limit)))) := by
  cases limit with
  | none => exact Writes.nil
  | some limit =>
    rw [Option.map_some, pendingBytes_fieldOf]
    apply (writesAs_fieldSeparator wrote).bind
    apply WritesAs.bind (writes_writeJsonString "limit")
    exact WritesAs.bind (writes_pushByte 0x3a) (writes_writeU64 _)

/-- Fields in a row. -/
theorem WritesFields.bind {program : Bool → WriterM NostrError Bool}
    {fields fields' : List (String × Syntax)} (h : WritesFields program fields) {β : Type}
    {next : Bool → WriterM NostrError β} {y : β} {rest : List UInt8}
    (hnext : ∀ wrote, WritesAs (next wrote) (pendingBytes wrote fields' ++ rest) y) (wrote : Bool) :
    WritesAs (program wrote >>= next) (pendingBytes wrote (fields ++ fields') ++ rest) y := by
  rw [pendingBytes_append, List.append_assoc]
  exact (h wrote).bind (hnext _)

/-- A filter is written as it is derived. -/
theorem writes_writeFilter (filter : NostrFilter) :
    Writes (writeFilter filter) (filterTree filter).bytes := by
  have hnumber : ∀ kind : UInt16, Writes (writeU64 (UInt64.ofNat kind.toNat)) (kindOf kind).bytes :=
    fun kind => writes_writeU64 _
  rw [filterTree, bytes_objectOf jsonChar_controlEscape]
  apply WritesAs.bind (writes_pushByte 0x7b)
  refine WritesFields.bind (writesFields_array hnumber "kinds" filter.kinds) (fun wrote => ?_) false
  refine WritesFields.bind (writesFields_array writes_writeKey "authors" filter.authors)
    (fun wrote => ?_) wrote
  refine WritesFields.bind (writesFields_array writes_writeKey "#p" filter.pTags)
    (fun wrote => ?_) wrote
  refine WritesFields.bind (writesFields_optionalU64 "since" filter.since) (fun wrote => ?_) wrote
  refine WritesFields.bind (writesFields_optionalU64 "until" filter.«until») (fun wrote => ?_) wrote
  exact WritesAs.bind (writes_writeLimit filter.limit wrote) (writes_pushByte 0x7d)

/-- The filters of a request, each behind a comma. -/
theorem writes_writeFilters (filters : List NostrFilter) :
    Writes (writeFilters filters) (separated 1 (filters.map fun filter => (filterTree filter).bytes)) := by
  induction filters with
  | nil => exact Writes.nil
  | cons filter filters ih =>
    rw [List.map_cons, separated, if_pos Nat.one_pos, separated_succ 1]
    exact WritesAs.bind (writes_pushByte 0x2c) (WritesAs.bind (writes_writeFilter filter) ih)

/-! ## Messages -/

/-- The bytes of a message: its brackets around its kind and what follows. -/
theorem bytes_message (kind : String) (items : List Syntax) :
    (arrayOf (stringOf kind :: items)).bytes =
      [0x5b] ++ (((stringOf kind).bytes ++ separated 1 (items.map Syntax.bytes)) ++ [0x5d]) := by
  rw [bytes_arrayOf, List.map_cons, separated_zero_cons]

/-- One more item has a comma in front. -/
theorem separated_one_singleton (item : List UInt8) : separated 1 [item] = [0x2c] ++ item := by
  rw [separated_one_cons, separated, List.append_nil]

/-- The program writes an item behind its comma. -/
theorem writes_last {item : Syntax} {program : WriterM NostrError Unit}
    (h : Writes program item.bytes) :
    Writes (do pushByte 0x2c; program) (separated 1 [item.bytes]) := by
  rw [separated_one_singleton]
  exact (writes_pushByte 0x2c).bind h

/-- One more item, and the rest. -/
theorem writes_more {item : Syntax} {program rest : WriterM NostrError Unit}
    {items : List (List UInt8)} (h : Writes program item.bytes)
    (hrest : Writes rest (separated 1 items)) :
    Writes (do pushByte 0x2c; program; rest) (separated 1 (item.bytes :: items)) := by
  rw [separated_one_cons]
  exact (writes_pushByte 0x2c).bind (h.bind hrest)

/-- A client message is written as it is derived. -/
theorem writes_writeClientFields {message : NostrClientMessage} (h : ClientMessageValid message) :
    Writes (do pushByte 0x5b; writeClientFields message; pushByte 0x5d) (clientTree message).bytes := by
  have hkey := fun name => writes_writeJsonString name
  cases message with
  | event event =>
    rw [clientTree, bytes_message]
    exact (writes_pushByte 0x5b).bind (Writes.bind
      ((hkey "EVENT").bind (writes_last (writes_writeEvent event))) (writes_pushByte 0x5d))
  | req subscriptionId filters =>
    have hfilters := writes_writeFilters filters
    rw [clientTree, bytes_message, List.map_cons, List.map_map, writeClientFields,
      Outcome.lift_bind (validateSubscriptionId_eq h.1)]
    exact (writes_pushByte 0x5b).bind (Writes.bind
      ((hkey "REQ").bind (writes_more (hkey subscriptionId) hfilters)) (writes_pushByte 0x5d))
  | close subscriptionId =>
    rw [clientTree, bytes_message, writeClientFields, Outcome.lift_bind (validateSubscriptionId_eq h)]
    exact (writes_pushByte 0x5b).bind (Writes.bind
      ((hkey "CLOSE").bind (writes_last (hkey subscriptionId))) (writes_pushByte 0x5d))
  | auth event =>
    rw [clientTree, bytes_message]
    exact (writes_pushByte 0x5b).bind (Writes.bind
      ((hkey "AUTH").bind (writes_last (writes_writeEvent event))) (writes_pushByte 0x5d))

/-- A relay message is written as it is derived. -/
theorem writes_writeRelayFields {message : NostrRelayMessage} (h : RelayMessageValid message) :
    Writes (do pushByte 0x5b; writeRelayFields message; pushByte 0x5d) (relayTree message).bytes := by
  have hkey := fun name => writes_writeJsonString name
  cases message with
  | event subscriptionId event =>
    rw [relayTree, bytes_message, writeRelayFields, Outcome.lift_bind (validateSubscriptionId_eq h)]
    exact (writes_pushByte 0x5b).bind (Writes.bind ((hkey "EVENT").bind
      (writes_more (hkey subscriptionId) (writes_last (writes_writeEvent event)))) (writes_pushByte 0x5d))
  | ok eventId accepted message =>
    have hid := hkey (hexText eventId.bytes.toList)
    rw [relayTree, bytes_message]
    apply (writes_pushByte 0x5b).bind
    apply Writes.bind _ (writes_pushByte 0x5d)
    apply (hkey "OK").bind
    apply (writes_pushByte 0x2c).bind
    rw [NostrEventId.writeHex, Outcome.lift_bind (eventHex_eq eventId.bytes)]
    exact hid.bind (writes_more (writes_writeBool accepted) (writes_last (hkey message)))
  | eose subscriptionId =>
    rw [relayTree, bytes_message, writeRelayFields, Outcome.lift_bind (validateSubscriptionId_eq h)]
    exact (writes_pushByte 0x5b).bind (Writes.bind
      ((hkey "EOSE").bind (writes_last (hkey subscriptionId))) (writes_pushByte 0x5d))
  | closed subscriptionId message =>
    rw [relayTree, bytes_message, writeRelayFields, Outcome.lift_bind (validateSubscriptionId_eq h)]
    exact (writes_pushByte 0x5b).bind (Writes.bind ((hkey "CLOSED").bind
      (writes_more (hkey subscriptionId) (writes_last (hkey message)))) (writes_pushByte 0x5d))
  | notice message =>
    rw [relayTree, bytes_message]
    exact (writes_pushByte 0x5b).bind (Writes.bind
      ((hkey "NOTICE").bind (writes_last (hkey message))) (writes_pushByte 0x5d))
  | auth challenge =>
    rw [relayTree, bytes_message]
    exact (writes_pushByte 0x5b).bind (Writes.bind
      ((hkey "AUTH").bind (writes_last (hkey challenge))) (writes_pushByte 0x5d))

/-- A message that fits is written, and the text is the one of its tree. -/
theorem writeMessage_eq {fields : WriterM NostrError Unit} {tree : Syntax} {out : List UInt8}
    (h : Writes (do pushByte 0x5b; fields; pushByte 0x5d) tree.bytes)
    (hlimit : tree.bytes.length < addressLimit) (hroom : tree.bytes.length ≤ out.length) :
    writeMessage fields out =
      .ok (String.ofList tree.text, tree.bytes ++ out.drop tree.bytes.length) := by
  have htext : fromUtf8 tree.bytes = some (String.ofList tree.text) := fromUtf8_utf8Bytes tree.text
  rw [writeMessage, Outcome.bind_eq (h.runOn hlimit hroom), Outcome.bind_eq (finishText_eq htext)]
  rfl

end JsonWriter

end Hyf.Nostr
