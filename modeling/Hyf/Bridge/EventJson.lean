import Hyf.Bridge.NostrBridge
import Hyf.Nostr.LowerHex
import Hyf.Nostr.MessagesRoundTrip
import Mathlib.Data.Nat.Digits.Lemmas
import Mathlib.Tactic.Ring

/-!
# The event that the bridge writes (`hyf_bridge_nostr`, `hyf_link_nostr`)

The bridge has a JSON writer of its own, which computes digits and escapes in another way than the
writer of the link. Both write the compact tree of an event, so what the bridge hands out can be put
into a message for a relay as it is. The event of a bridge message has one variable part, the digits of
its content, so that its length is known.
-/

namespace Hyf.NostrBridge

open ByteCodec JsonText Nostr Bridge

/-- The table of the bridge and the arithmetic of the link give the same digits. -/
theorem hexDigit_eq_hexNibble {nibble : UInt8} (h : nibble < 16) : hexDigit nibble = hexNibble nibble := by
  have hdigits : ∀ nibble : Fin 16,
      hexDigit (UInt8.ofNat nibble) = hexNibble (UInt8.ofNat nibble) := by decide
  have hdigit := hdigits ⟨nibble.toNat, h⟩
  rwa [UInt8.ofNat_toNat] at hdigit

theorem jsonControlEscape_eq : jsonControlEscape = controlEscape := by
  funext character
  obtain ⟨hhigh, hlow, -⟩ := nibble_lt (UInt8.ofNat character.toNat)
  rw [jsonControlEscape, hexPair, hexDigit_eq_hexNibble hhigh, hexDigit_eq_hexNibble hlow]
  rfl

/-- The bridge writes the tree of the event. -/
theorem eventJson_eq (event : NostrEvent) : eventJson event = (eventTree event).bytes := by
  have hkind : kindOf event.kind = numberOf (UInt64.ofNat event.kind.toNat) := rfl
  rw [eventTree, bytes_objectOf jsonChar_controlEscape, eventJson, jsonControlEscape_eq]
  simp only [List.map_cons, List.map_nil, separated_cons_cons, separated_singleton, memberBytes,
    hexOf, bytes_textOf, bytes_numberOf, bytes_rowsOf, hkind, List.append_assoc]

/-! ## The length of an event -/

theorem length_decimal_le {value width : ℕ} (h : value < 10 ^ (width + 1)) :
    (decimal value).length ≤ width + 1 := by
  unfold decimal
  split_ifs
  · exact Nat.le_add_left 1 width
  · rw [List.length_reverse, List.length_map]
    exact (Nat.digits_length_le_iff (by decide) value).mpr h

/-- A digit is written as it is. -/
theorem jsonChar_digit {byte : UInt8} (h : IsLowerHexDigit byte) :
    jsonChar jsonControlEscape (Char.ofNat byte.toNat) = [byte] := by
  obtain ⟨nibble, hlt, rfl⟩ := (isLowerHexDigit_iff byte).mp h
  have hdigits : ∀ nibble : Fin 16,
      jsonChar jsonControlEscape (Char.ofNat (hexDigit (UInt8.ofNat nibble)).toNat) =
        [hexDigit (UInt8.ofNat nibble)] := by
    decide
  have hdigit := hdigits ⟨nibble.toNat, hlt⟩
  rwa [UInt8.ofNat_toNat] at hdigit

/-- Digits need no escapes. -/
theorem jsonString_hexText (bytes : List UInt8) :
    jsonString jsonControlEscape (hexText bytes) = [0x22] ++ (lowerHex bytes ++ [0x22]) := by
  have htext : (hexText bytes).toList = (lowerHex bytes).map fun byte => Char.ofNat byte.toNat := by
    have hsome := fromUtf8_lowerHex bytes
    rw [fromUtf8_ascii (lowerHex_ascii bytes), Option.some_inj] at hsome
    rw [← hsome, String.toList_ofList]
  have hchars : ∀ digits : List UInt8, (∀ digit ∈ digits, IsLowerHexDigit digit) →
      (digits.map fun byte => Char.ofNat byte.toNat).flatMap (jsonChar jsonControlEscape) = digits := by
    intro digits hdigits
    induction digits with
    | nil => rfl
    | cons digit digits ih =>
      rw [List.forall_mem_cons] at hdigits
      rw [List.map_cons, List.flatMap_cons, jsonChar_digit hdigits.1, ih hdigits.2,
        List.singleton_append]
  rw [jsonString, htext, hchars _ (isLowerHexDigit_lowerHex bytes)]

theorem length_jsonString_hexText (bytes : List UInt8) :
    (jsonString jsonControlEscape (hexText bytes)).length = bytes.length * 2 + 2 := by
  rw [jsonString_hexText, List.length_append, List.length_append, length_lowerHex,
    List.length_singleton]
  omega

theorem length_bridgeTags (message : BridgeMessageRef) :
    (jsonRows jsonControlEscape ((bridgeTags message).map NostrTagRef.values)).length = 101 := by
  have hroom : message.roomId.bytes.toList.length = 16 := message.roomId.bytes.toList_length
  have hcommunity := length_jsonString_hexText message.roomId.bytes.toList
  have hfixed : (jsonString jsonControlEscape hyfNostrBridgeHyfTag).length = 5 ∧
      (jsonString jsonControlEscape "bridge").length = 8 ∧
      (jsonString jsonControlEscape hyfNostrBridgeVersionTag).length = 4 ∧
      (jsonString jsonControlEscape "community").length = 11 ∧
      (jsonString jsonControlEscape "alt").length = 5 ∧
      (jsonString jsonControlEscape hyfNostrBridgeAltTag).length = 20 := by
    decide
  rw [hroom] at hcommunity
  simp only [bridgeTags, List.map_cons, List.map_nil, jsonRows, jsonRow, separated,
    List.length_append, hfixed, hcommunity]
  rfl

theorem length_memberNames : (jsonString jsonControlEscape "id").length = 4 ∧
    (jsonString jsonControlEscape "pubkey").length = 8 ∧
    (jsonString jsonControlEscape "created_at").length = 12 ∧
    (jsonString jsonControlEscape "kind").length = 6 ∧
    (jsonString jsonControlEscape "tags").length = 6 ∧
    (jsonString jsonControlEscape "content").length = 9 ∧
    (jsonString jsonControlEscape "sig").length = 5 := by decide

/-- The content and the two numbers are all that differs between messages. -/
theorem length_eventJson {raw : List UInt8} {message : BridgeMessageRef} {event : NostrEvent}
    {pubkey : NostrPublicKey} {createdAt : UInt64}
    (hevent : event.unsigned = bridgeUnsigned raw message pubkey createdAt) :
    (eventJson event).length = 430 + raw.length * 2 + (decimal event.createdAt.toNat).length +
      (decimal (UInt64.ofNat event.kind.toNat).toNat).length := by
  have htags : event.tags = bridgeTags message := congrArg NostrUnsignedEvent.tags hevent
  have hcontent : event.content = hexText raw := congrArg NostrUnsignedEvent.content hevent
  have hid : event.id.bytes.toList.length = 32 := event.id.bytes.toList_length
  have hpubkey : event.pubkey.bytes.toList.length = 32 := event.pubkey.bytes.toList_length
  have hsig : event.sig.bytes.toList.length = 64 := event.sig.bytes.toList_length
  simp only [eventJson, List.length_append, List.length_singleton, htags, hcontent, length_bridgeTags,
    length_jsonString_hexText, hid, hpubkey, hsig, length_memberNames]
  ring

/-- The object of a message is at most this long. -/
theorem length_eventJson_le {raw : List UInt8} {message : BridgeMessageRef} {event : NostrEvent}
    {pubkey : NostrPublicKey} {createdAt : UInt64}
    (hdecode : decodeBridgeMessage raw = .ok message)
    (hevent : event.unsigned = bridgeUnsigned raw message pubkey createdAt) :
    (eventJson event).length ≤ 2708 := by
  have hraw := length_le_of_decode hdecode
  have hcreated : (decimal event.createdAt.toNat).length ≤ 20 :=
    length_decimal_le (event.createdAt.toNat_lt.trans (by norm_num))
  have hkind : (decimal (UInt64.ofNat event.kind.toNat).toNat).length ≤ 20 :=
    length_decimal_le ((UInt64.toNat_lt _).trans (by norm_num))
  have hlen := length_eventJson hevent
  calc (eventJson event).length
      = 430 + raw.length * 2 + (decimal event.createdAt.toNat).length +
          (decimal (UInt64.ofNat event.kind.toNat).toNat).length := hlen
    _ ≤ 430 + 1119 * 2 + 20 + 20 := by gcongr

/-! ## In a message -/

/-- An object put into a message of the kind `EVENT`. -/
def wrapEvent (object : List UInt8) : List UInt8 := asBytes "[\"EVENT\"," ++ object ++ asBytes "]"

theorem bytes_clientTree_event (event : NostrEvent) :
    (clientTree (.event event)).bytes = wrapEvent (eventJson event) := by
  have hkind : [0x5b] ++ ((stringOf "EVENT").bytes ++ [0x2c]) = asBytes "[\"EVENT\"," := by
    rw [bytes_textOf]
    decide
  have hclose : [0x5d] = asBytes "]" := by decide
  rw [clientTree, JsonWriter.bytes_message, List.map_singleton, JsonWriter.separated_one_singleton,
    wrapEvent, eventJson_eq, ← hkind, ← hclose]
  simp only [List.append_assoc]

theorem length_wrapEvent (object : List UInt8) : (wrapEvent object).length = object.length + 10 := by
  have hopen : (asBytes "[\"EVENT\",").length = 9 := by decide
  have hclose : (asBytes "]").length = 1 := by decide
  rw [wrapEvent, List.length_append, List.length_append, hopen, hclose]
  omega

/-- A text with the bytes of a tree is the text of the tree. -/
theorem eq_text_of_asBytes {text : String} {item : Syntax} (h : asBytes text = item.bytes) :
    text = String.ofList item.text := by
  have htext := fromUtf8_asBytes text
  rw [h] at htext
  exact Option.some.inj (htext.symm.trans (fromUtf8_utf8Bytes item.text))

/-- **The bridge and the link write the same event.** Into every output with room for it the bridge
writes one object, and the message of the link is this object in its brackets; a text that consists of
the brackets and the object is decoded to the event, whoever has put it together. -/
theorem eventJson_agrees (event : NostrEvent) : ∃ object : List UInt8,
    (∀ output : List UInt8, object.length ≤ output.length → output.length < addressLimit →
      writeNostrEventJson event output =
        .ok (object.length, object ++ output.drop object.length)) ∧
    (∀ out : List UInt8, object.length + 10 ≤ out.length → out.length < addressLimit →
      ∃ text, asBytes text = wrapEvent object ∧
        writeClientMessage (.event event) out =
          .ok (text, wrapEvent object ++ out.drop (object.length + 10))) ∧
    ∀ text, asBytes text = wrapEvent object →
      decodeClientMessage text = .ok (.event event.toOwned) := by
  have hbytes := bytes_clientTree_event event
  have hlen := length_wrapEvent (eventJson event)
  refine ⟨eventJson event, fun output hroom hlimit => writeNostrEventJson_eq hlimit hroom,
    fun out hroom hlimit => ?_, fun text htext => ?_⟩
  · have hwrite := @writeClientMessage_eq (.event event) out trivial (by rw [hbytes]; omega) hlimit
    rw [hbytes, hlen] at hwrite
    refine ⟨_, ?_, hwrite⟩
    rw [asBytes_ofList]
    exact hbytes
  · rw [eq_text_of_asBytes (htext.trans hbytes.symm)]
    exact decodeClientMessage_text trivial

end Hyf.NostrBridge
