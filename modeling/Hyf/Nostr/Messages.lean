import Hyf.Nostr.Canonical
import Hyf.Nostr.Filter
import Hyf.Nostr.JsonParser

/-!
# Client and relay messages (`hyf_link_nostr`)

A message is a JSON array that begins with its kind. `JsonWriter` writes one into a slice and the
decoders take the value that `JsonParser` reads apart again. What is decoded owns its strings, so
events and filters have an owned form.
-/

namespace Hyf.Nostr

open ByteCodec JsonText

/-- What a client sends to a relay. -/
inductive NostrClientMessage where
  | event (event : NostrEvent)
  | req (subscriptionId : String) (filters : List NostrFilter)
  | close (subscriptionId : String)
  | auth (event : NostrEvent)

/-- What a relay sends to a client. -/
inductive NostrRelayMessage where
  | event (subscriptionId : String) (event : NostrEvent)
  | ok (eventId : NostrEventId) (accepted : Bool) (message : String)
  | eose (subscriptionId : String)
  | closed (subscriptionId message : String)
  | notice (message : String)
  | auth (challenge : String)

/-- An event that was read, with texts of its own. -/
structure NostrOwnedEvent where
  id : NostrEventId
  pubkey : NostrPublicKey
  createdAt : UInt64
  kind : UInt16
  tags : List (List String)
  content : String
  sig : NostrSignature
  deriving DecidableEq

/-- A filter that was read. -/
structure NostrOwnedFilter where
  kinds : List UInt16
  authors : List NostrPublicKey
  pTags : List NostrPublicKey
  since : Option UInt64
  «until» : Option UInt64
  limit : Option ℕ
  deriving DecidableEq

/-- A message that a relay has read. -/
inductive NostrOwnedClientMessage where
  | event (event : NostrOwnedEvent)
  | req (subscriptionId : String) (filters : List NostrOwnedFilter)
  | close (subscriptionId : String)
  | auth (event : NostrOwnedEvent)
  deriving DecidableEq

/-- A message that a client has read. -/
inductive NostrOwnedRelayMessage where
  | event (subscriptionId : String) (event : NostrOwnedEvent)
  | ok (eventId : NostrEventId) (accepted : Bool) (message : String)
  | eose (subscriptionId : String)
  | closed (subscriptionId message : String)
  | notice (message : String)
  | auth (challenge : String)
  deriving DecidableEq

/-! ## Writing -/

namespace JsonWriter

/-- Bytes go to the end of what is written. -/
def writeBytes : List UInt8 → WriterM NostrError Unit := bufferWrite

/-- `push_byte`. -/
def pushByte (byte : UInt8) : WriterM NostrError Unit := JsonText.pushByte writeBytes byte

/-- The bytes of a text, without quotes. -/
def writeStr (value : String) : WriterM NostrError Unit := writeBytes (asBytes value)

/-- `true` or `false`. -/
def writeBool (value : Bool) : WriterM NostrError Unit :=
  if value then writeStr "true" else writeStr "false"

/-- A string in quotes. -/
def writeJsonString (value : String) : WriterM NostrError Unit :=
  JsonText.writeJsonString writeBytes (writeControlEscape writeBytes) value

/-- A number in decimal. -/
def writeU64 (value : UInt64) : WriterM NostrError Unit := Nostr.writeU64 writeBytes value

/-- The tags of an event. -/
def writeTags (tags : List NostrTagRef) : WriterM NostrError Unit := Nostr.writeTags writeBytes tags

/-- An event as an object. -/
def writeEvent (event : NostrEvent) : WriterM NostrError Unit := do
  let (id, _) ← Outcome.lift (event.id.writeHex (List.replicate 64 0))
  let (pubkey, _) ← Outcome.lift (event.pubkey.writeHex (List.replicate 64 0))
  let (signature, _) ← Outcome.lift (event.sig.writeHex (List.replicate 128 0))
  pushByte 0x7b
  writeJsonString "id"
  pushByte 0x3a
  writeJsonString id
  pushByte 0x2c
  writeJsonString "pubkey"
  pushByte 0x3a
  writeJsonString pubkey
  pushByte 0x2c
  writeJsonString "created_at"
  pushByte 0x3a
  writeU64 event.createdAt
  pushByte 0x2c
  writeJsonString "kind"
  pushByte 0x3a
  writeU64 (UInt64.ofNat event.kind.toNat)
  pushByte 0x2c
  writeJsonString "tags"
  pushByte 0x3a
  writeTags event.tags
  pushByte 0x2c
  writeJsonString "content"
  pushByte 0x3a
  writeJsonString event.content
  pushByte 0x2c
  writeJsonString "sig"
  pushByte 0x3a
  writeJsonString signature
  pushByte 0x7d

/-- The comma in front of every field but the first; the flag afterwards. -/
def writeFieldSeparator (wrote : Bool) : WriterM NostrError Bool := do
  if wrote then pushByte 0x2c
  return true

/-- An array field, of which one item is written by `writeItem`. -/
def writeArrayField {α : Type} (writeItem : α → WriterM NostrError Unit) (name : String)
    (values : List α) (wrote : Bool) : WriterM NostrError Bool :=
  if values.isEmpty then return wrote
  else do
    let wrote ← writeFieldSeparator wrote
    writeJsonString name
    pushByte 0x3a
    pushByte 0x5b
    writeSeparated writeBytes writeItem 0 values
    pushByte 0x5d
    return wrote

/-- A field of numbers, left out where it is empty. -/
def writeNumberArrayField (name : String) (values : List UInt16) (wrote : Bool) :
    WriterM NostrError Bool :=
  writeArrayField (fun value => writeU64 (UInt64.ofNat value.toNat)) name values wrote

/-- One round of the loop of `write_key_array_field`. -/
def writeKey (value : NostrPublicKey) : WriterM NostrError Unit := do
  let (hex, _) ← Outcome.lift (value.writeHex (List.replicate 64 0))
  writeJsonString hex

/-- A field of keys, left out where it is empty. -/
def writeKeyArrayField (name : String) (values : List NostrPublicKey) (wrote : Bool) :
    WriterM NostrError Bool :=
  writeArrayField writeKey name values wrote

/-- A field of one number, left out where it is missing. -/
def writeOptionalU64Field (name : String) (value : Option UInt64) (wrote : Bool) :
    WriterM NostrError Bool :=
  match value with
  | none => return wrote
  | some value => do
    let wrote ← writeFieldSeparator wrote
    writeJsonString name
    pushByte 0x3a
    writeU64 value
    return wrote

/-- The last field of `write_filter`. -/
def writeLimit (limit : Option ℕ) (wrote : Bool) : WriterM NostrError Unit :=
  match limit with
  | none => return ()
  | some limit => do
    let _ ← writeFieldSeparator wrote
    writeJsonString "limit"
    pushByte 0x3a
    writeU64 (UInt64.ofNat limit)

/-- A filter as an object of the fields that it has. -/
def writeFilter (filter : NostrFilter) : WriterM NostrError Unit := do
  pushByte 0x7b
  let wrote ← writeNumberArrayField "kinds" filter.kinds false
  let wrote ← writeKeyArrayField "authors" filter.authors wrote
  let wrote ← writeKeyArrayField "#p" filter.pTags wrote
  let wrote ← writeOptionalU64Field "since" filter.since wrote
  let wrote ← writeOptionalU64Field "until" filter.until wrote
  writeLimit filter.limit wrote
  pushByte 0x7d

/-- `for filter in filters`. -/
def writeFilters : List NostrFilter → WriterM NostrError Unit
  | [] => return ()
  | filter :: filters => do
    pushByte 0x2c
    writeFilter filter
    writeFilters filters

/-- The `match` of `write_client_message`. -/
def writeClientFields : NostrClientMessage → WriterM NostrError Unit
  | .event event => do
    writeJsonString "EVENT"
    pushByte 0x2c
    writeEvent event
  | .req subscriptionId filters => do
    Outcome.lift (validateSubscriptionId subscriptionId)
    writeJsonString "REQ"
    pushByte 0x2c
    writeJsonString subscriptionId
    writeFilters filters
  | .close subscriptionId => do
    Outcome.lift (validateSubscriptionId subscriptionId)
    writeJsonString "CLOSE"
    pushByte 0x2c
    writeJsonString subscriptionId
  | .auth event => do
    writeJsonString "AUTH"
    pushByte 0x2c
    writeEvent event

/-- The `match` of `write_relay_message`. -/
def writeRelayFields : NostrRelayMessage → WriterM NostrError Unit
  | .event subscriptionId event => do
    Outcome.lift (validateSubscriptionId subscriptionId)
    writeJsonString "EVENT"
    pushByte 0x2c
    writeJsonString subscriptionId
    pushByte 0x2c
    writeEvent event
  | .ok eventId accepted message => do
    writeJsonString "OK"
    pushByte 0x2c
    let (eventIdHex, _) ← Outcome.lift (eventId.writeHex (List.replicate 64 0))
    writeJsonString eventIdHex
    pushByte 0x2c
    writeBool accepted
    pushByte 0x2c
    writeJsonString message
  | .eose subscriptionId => do
    Outcome.lift (validateSubscriptionId subscriptionId)
    writeJsonString "EOSE"
    pushByte 0x2c
    writeJsonString subscriptionId
  | .closed subscriptionId message => do
    Outcome.lift (validateSubscriptionId subscriptionId)
    writeJsonString "CLOSED"
    pushByte 0x2c
    writeJsonString subscriptionId
    pushByte 0x2c
    writeJsonString message
  | .notice message => do
    writeJsonString "NOTICE"
    pushByte 0x2c
    writeJsonString message
  | .auth challenge => do
    writeJsonString "AUTH"
    pushByte 0x2c
    writeJsonString challenge

/-- A message in its brackets: the text and the slice afterwards. -/
def writeMessage (fields : WriterM NostrError Unit) (out : List UInt8) :
    Outcome NostrError (String × List UInt8) := do
  let cursor ← WriterM.runOn (do
    pushByte 0x5b
    fields
    pushByte 0x5d) out
  let text ← finishText cursor
  return (text, cursor.output)

end JsonWriter

/-- `write_client_message`. -/
def writeClientMessage (message : NostrClientMessage) (out : List UInt8) :
    Outcome NostrError (String × List UInt8) :=
  JsonWriter.writeMessage (JsonWriter.writeClientFields message) out

/-- `write_relay_message`. -/
def writeRelayMessage (message : NostrRelayMessage) (out : List UInt8) :
    Outcome NostrError (String × List UInt8) :=
  JsonWriter.writeMessage (JsonWriter.writeRelayFields message) out

/-! ## Decoding -/

/-- `&items[index]`. -/
def itemAt {α : Type} (items : List α) (index : ℕ) : Outcome NostrError α :=
  match items[index]? with
  | some item => .ok item
  | none => .error .panic

/-- The fields of an object. -/
def expectObject : JsonValue → Outcome NostrError (List (String × JsonValue))
  | .object fields => .ok fields
  | _ => fail .malformedMessage

/-- The items of an array. -/
def expectArray : JsonValue → Outcome NostrError (List JsonValue)
  | .array values => .ok values
  | _ => fail .malformedMessage

/-- A string. -/
def expectString : JsonValue → Outcome NostrError String
  | .string value => .ok value
  | _ => fail .malformedMessage

/-- A number. -/
def expectNumber : JsonValue → Outcome NostrError UInt64
  | .number value => .ok value
  | _ => fail .malformedMessage

/-- A truth value. -/
def expectBool : JsonValue → Outcome NostrError Bool
  | .bool value => .ok value
  | _ => fail .malformedMessage

/-- The first field of the name, if there is one. -/
def optionalField (fields : List (String × JsonValue)) (name : String) : Option JsonValue :=
  (fields.find? fun field => field.1 = name).map Prod.snd

/-- The first field of the name. -/
def requiredField (fields : List (String × JsonValue)) (name : String) :
    Outcome NostrError JsonValue :=
  match optionalField fields name with
  | some value => .ok value
  | none => fail .malformedMessage

/-- A number that fits in 16 bits. -/
def numberToU16 (value : UInt64) : Outcome NostrError UInt16 :=
  if value.toNat < 2 ^ 16 then .ok (UInt16.ofNat value.toNat) else fail .malformedMessage

/-- `from_hex`. -/
def NostrPublicKey.fromHex (hex : String) : Outcome NostrError NostrPublicKey := do
  let bytes ← decodeFixedLowerHex 32 hex
  return ⟨bytes⟩

/-- `from_hex`. -/
def NostrEventId.fromHex (hex : String) : Outcome NostrError NostrEventId := do
  let bytes ← decodeFixedLowerHex 32 hex
  return ⟨bytes⟩

/-- `from_hex`. -/
def NostrSignature.fromHex (hex : String) : Outcome NostrError NostrSignature := do
  let bytes ← decodeFixedLowerHex 64 hex
  return ⟨bytes⟩

/-- One round of the outer loop of `parse_tags`. -/
def parseTag (tag : JsonValue) : Outcome NostrError (List String) := do
  let values ← expectArray tag
  rejectIf values.isEmpty .tagEmpty
  values.mapM expectString

/-- An array of arrays of strings. -/
def parseTags (value : JsonValue) : Outcome NostrError (List (List String)) := do
  let tags ← expectArray value
  tags.mapM parseTag

/-- `parse_event`. -/
def parseEvent (value : JsonValue) : Outcome NostrError NostrOwnedEvent := do
  let fields ← expectObject value
  let id ← NostrEventId.fromHex (← expectString (← requiredField fields "id"))
  let pubkey ← NostrPublicKey.fromHex (← expectString (← requiredField fields "pubkey"))
  let createdAt ← expectNumber (← requiredField fields "created_at")
  let kind ← numberToU16 (← expectNumber (← requiredField fields "kind"))
  let tags ← parseTags (← requiredField fields "tags")
  let content ← expectString (← requiredField fields "content")
  let sig ← NostrSignature.fromHex (← expectString (← requiredField fields "sig"))
  return ⟨id, pubkey, createdAt, kind, tags, content, sig⟩

/-- The `let Some(value) = optional_field(..) else ..` of the array fields and its loop. -/
def optionalArray {α : Type} (fields : List (String × JsonValue)) (name : String)
    (parseItem : JsonValue → Outcome NostrError α) : Outcome NostrError (List α) :=
  match optionalField fields name with
  | none => .ok []
  | some value => do
    let values ← expectArray value
    values.mapM parseItem

/-- A field of numbers of 16 bits; a missing one is empty. -/
def optionalNumberArray (fields : List (String × JsonValue)) (name : String) :
    Outcome NostrError (List UInt16) :=
  optionalArray fields name fun value => do numberToU16 (← expectNumber value)

/-- A field of keys; a missing one is empty. -/
def optionalKeyArray (fields : List (String × JsonValue)) (name : String) :
    Outcome NostrError (List NostrPublicKey) :=
  optionalArray fields name fun value => do NostrPublicKey.fromHex (← expectString value)

/-- A field of one number, if it is there. -/
def optionalNumber (fields : List (String × JsonValue)) (name : String) :
    Outcome NostrError (Option UInt64) :=
  (optionalField fields name).mapM expectNumber

/-- `usize::try_from`. -/
def numberToUsize (value : UInt64) : Outcome NostrError ℕ :=
  if value.toNat < addressLimit then .ok value.toNat else fail .malformedMessage

/-- A field with a count, if it is there. -/
def optionalUsize (fields : List (String × JsonValue)) (name : String) :
    Outcome NostrError (Option ℕ) :=
  (optionalField fields name).mapM fun value => do numberToUsize (← expectNumber value)

/-- `parse_filter`. -/
def parseFilter (value : JsonValue) : Outcome NostrError NostrOwnedFilter := do
  let fields ← expectObject value
  let kinds ← optionalNumberArray fields "kinds"
  let authors ← optionalKeyArray fields "authors"
  let pTags ← optionalKeyArray fields "#p"
  let since ← optionalNumber fields "since"
  let «until» ← optionalNumber fields "until"
  let limit ← optionalUsize fields "limit"
  return ⟨kinds, authors, pTags, since, «until», limit⟩

/-- The subscription id of a message. -/
def parseSubscriptionId (items : List JsonValue) : Outcome NostrError String := do
  let subscriptionId ← expectString (← itemAt items 1)
  validateSubscriptionId subscriptionId
  return subscriptionId

/-- The items of a message and the kind that they begin with. -/
def parseMessage (input : String) : Outcome NostrError (String × List JsonValue) := do
  let value ← JsonParser.parse input
  let items ← expectArray value
  match items.head? with
  | some (.string kind) => return (kind, items)
  | _ => fail .malformedMessage

/-- `decode_client_message`. -/
def decodeClientMessage (input : String) : Outcome NostrError NostrOwnedClientMessage := do
  let (kind, items) ← parseMessage input
  if kind = "EVENT" then do
    rejectIf (items.length ≠ 2) .malformedMessage
    return .event (← parseEvent (← itemAt items 1))
  else if kind = "REQ" then do
    rejectIf (items.length < 3) .malformedMessage
    let subscriptionId ← parseSubscriptionId items
    let filters ← (items.drop 2).mapM parseFilter
    return .req subscriptionId filters
  else if kind = "CLOSE" then do
    rejectIf (items.length ≠ 2) .malformedMessage
    let subscriptionId ← parseSubscriptionId items
    return .close subscriptionId
  else if kind = "AUTH" then do
    rejectIf (items.length ≠ 2) .malformedMessage
    return .auth (← parseEvent (← itemAt items 1))
  else fail .unsupportedMessage

/-- `decode_relay_message`. -/
def decodeRelayMessage (input : String) : Outcome NostrError NostrOwnedRelayMessage := do
  let (kind, items) ← parseMessage input
  if kind = "EVENT" then do
    rejectIf (items.length ≠ 3) .malformedMessage
    let subscriptionId ← parseSubscriptionId items
    return .event subscriptionId (← parseEvent (← itemAt items 2))
  else if kind = "OK" then do
    rejectIf (items.length ≠ 4) .malformedMessage
    let eventId ← NostrEventId.fromHex (← expectString (← itemAt items 1))
    let accepted ← expectBool (← itemAt items 2)
    let message ← expectString (← itemAt items 3)
    return .ok eventId accepted message
  else if kind = "EOSE" then do
    rejectIf (items.length ≠ 2) .malformedMessage
    let subscriptionId ← parseSubscriptionId items
    return .eose subscriptionId
  else if kind = "CLOSED" then do
    rejectIf (items.length ≠ 3) .malformedMessage
    let subscriptionId ← parseSubscriptionId items
    let message ← expectString (← itemAt items 2)
    return .closed subscriptionId message
  else if kind = "NOTICE" then do
    rejectIf (items.length ≠ 2) .malformedMessage
    let message ← expectString (← itemAt items 1)
    return .notice message
  else if kind = "AUTH" then do
    rejectIf (items.length ≠ 2) .malformedMessage
    let challenge ← expectString (← itemAt items 1)
    return .auth challenge
  else fail .unsupportedMessage

end Hyf.Nostr
