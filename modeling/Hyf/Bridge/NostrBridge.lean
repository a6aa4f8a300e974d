import Hyf.Bridge.MessageTheorems
import Hyf.Nostr.EventTheorems

/-!
# The Nostr bridge (`hyf_bridge_nostr`)

A bridge message crosses to Nostr as the content of a signed event, in hexadecimal, with the room in
a tag. On the way back the signature, the kind, the tags and the content are checked, and a message
that names a Nostr author is accepted only from that author's key.
-/

namespace Hyf.NostrBridge

open ByteCodec WriterM JsonText Bridge Nostr

def hyfNostrBridgeEventKind : UInt16 := 9109
def hyfNostrBridgeHyfTag : String := "hyf"
def hyfNostrBridgeVersionTag : String := "v0"
def hyfNostrBridgeAltTag : String := "HYF bridge message"
def hyfNostrBridgeEventJsonMaxLen : ℕ := 6144

/-- The errors of the bridge. -/
inductive NostrBridgeError where
  | nostr (error : NostrError)
  | bridge (error : BridgeError)
  | wrongKind (actual : UInt16)
  | missingRequiredTag (tag : String)
  | communityTagMismatch
  | nostrAuthorPubkeyMismatch
  deriving DecidableEq

/-- The buffers that an event is built in. -/
structure NostrBridgeEventScratch where
  content : ByteArrayN (hyfBridgeMessageMaxLen * 2)
  communityHex : ByteArrayN 32

/-- Who signs an event, and its time. -/
structure NostrBridgeEgressParams where
  authorSecret : NostrSecretKey
  createdAt : UInt64
  deriving DecidableEq

/-- A message that came in, with its bytes and who vouches for it. -/
structure NostrBridgeIngress where
  rawBridgeMessage : List UInt8
  bridgeMessage : BridgeMessageRef
  ingressMeta : BridgeIngressMeta
  deriving DecidableEq

/-! ## Contents -/

/-- `encode_bridge_nostr_content`: the message in lower-case hexadecimal. -/
def encodeBridgeNostrContent (rawBridgeMessage output : List UInt8) :
    Outcome NostrBridgeError (String × List UInt8) := do
  let _ ← (validateBridgeMessage rawBridgeMessage).convert .bridge
  (encodeLowerHex rawBridgeMessage output).convert .nostr

/-- Decode into `output`: the message and the slice afterwards. -/
def decodeBridgeNostrContent (content : String) (output : List UInt8) :
    Outcome NostrBridgeError (List UInt8 × List UInt8) := do
  let (len, output) ← (decodeLowerHex content output).convert .nostr
  let raw ← slice output 0 len
  let _ ← (validateBridgeMessage raw).convert .bridge
  return (raw, output)

/-! ## Events -/

section

variable (sha256 : List UInt8 → ByteArrayN 32) (schnorr : Schnorr)

/-- `bridge_message_to_nostr_event`: the event is handed to `f`. -/
def bridgeMessageToNostrEvent {T : Type} (rawBridgeMessage : List UInt8)
    (authorSecret : NostrSecretKey) (createdAt : UInt64) (scratch : NostrBridgeEventScratch)
    (f : NostrEvent → T) : Outcome NostrBridgeError T := do
  let bridgeMessage ← (validateBridgeMessage rawBridgeMessage).convert .bridge
  let (content, _) ← encodeBridgeNostrContent rawBridgeMessage scratch.content.toList
  let (communityHex, _) ←
    (encodeLowerHex bridgeMessage.roomId.bytes.toList scratch.communityHex.toList).convert .nostr
  let hyfTag ← (NostrTagRef.new
    [hyfNostrBridgeHyfTag, "bridge", hyfNostrBridgeVersionTag]).convert .nostr
  let communityTag ← (NostrTagRef.new ["community", communityHex]).convert .nostr
  let altTag ← (NostrTagRef.new ["alt", hyfNostrBridgeAltTag]).convert .nostr
  let pubkey ← (deriveNostrPublicKey schnorr authorSecret).convert .nostr
  let unsigned ← (NostrUnsignedEvent.new pubkey createdAt hyfNostrBridgeEventKind
    [hyfTag, communityTag, altTag] content).convert .nostr
  let event ← (signEvent sha256 schnorr unsigned authorSecret).convert .nostr
  return f event

/-- `require_static_tag`: some tag has exactly these values. -/
def requireStaticTag (tags : List NostrTagRef) (expected : List String) (missingName : String) :
    Outcome NostrBridgeError Unit :=
  rejectIf (¬tags.any fun tag => tag.values = expected) (.missingRequiredTag missingName)

/-- `require_community_tag`: the first tag of a community with one value is read, which has to be
the room in hexadecimal. -/
def requireCommunityTag : List NostrTagRef → Outcome NostrBridgeError CommunityId
  | [] => fail (.missingRequiredTag "community")
  | tag :: tags =>
    match tag.values with
    | [name, value] =>
      if name = "community" then do
        let bytes ← (decodeFixedLowerHex 16 value).convert .nostr
        return ⟨bytes⟩
      else requireCommunityTag tags
    | _ => requireCommunityTag tags

/-- `validate_nostr_author_rule`: an author of Nostr is the key that signed. -/
def validateNostrAuthorRule (pubkey : NostrPublicKey) (bridgeMessage : BridgeMessageRef) :
    Outcome NostrBridgeError Unit :=
  rejectIf (bridgeMessage.author.kind = .foreign .nostr ∧
    bridgeMessage.author.id ≠ pubkey.bytes.toList) .nostrAuthorPubkeyMismatch

/-- The ingress, whose message lies in `output`, and `output` afterwards. -/
def nostrEventToBridgeMessage (event : NostrEvent) (output : List UInt8) :
    Outcome NostrBridgeError (NostrBridgeIngress × List UInt8) := do
  (verifyEvent sha256 schnorr event).convert .nostr
  rejectIf (event.kind ≠ hyfNostrBridgeEventKind) (.wrongKind event.kind)
  requireStaticTag event.tags [hyfNostrBridgeHyfTag, "bridge", hyfNostrBridgeVersionTag] "hyf"
  requireStaticTag event.tags ["alt", hyfNostrBridgeAltTag] "alt"
  let communityId ← requireCommunityTag event.tags
  let (raw, output) ← decodeBridgeNostrContent event.content output
  let bridgeMessage ← (decodeBridgeMessage raw).convert .bridge
  rejectIf (communityId ≠ bridgeMessage.roomId) .communityTagMismatch
  validateNostrAuthorRule event.pubkey bridgeMessage
  return (⟨raw, bridgeMessage, ⟨.nostr, .transportSigned⟩⟩, output)

/-! ## JSON -/

/-- `JsonWriter::write`. -/
def writeJsonBytes : List UInt8 → WriterM NostrBridgeError Unit :=
  writeSlice (fun cursor _ => .nostr (.outputTooSmall (2 ^ 64 - 1) cursor.output.length))
    fun cursor bytes => .nostr (.outputTooSmall (cursor.index + bytes.length) cursor.output.length)

/-- `write_json_control_escape`. -/
def writeJsonControlEscape (character : Char) : WriterM NostrBridgeError Unit := do
  let value := UInt8.ofNat character.toNat
  writeJsonBytes [0x5c, 0x75, 0x30, 0x30]
  let high ← Outcome.lift (byteAt hexDigits (value >>> 4).toNat)
  pushByte writeJsonBytes high
  let low ← Outcome.lift (byteAt hexDigits (value &&& 0x0f).toNat)
  pushByte writeJsonBytes low

/-- `write_json_text`: a string in quotes. -/
def writeJsonText : String → WriterM NostrBridgeError Unit :=
  writeJsonString writeJsonBytes writeJsonControlEscape

/-- `write_json_u64`. -/
def writeJsonU64 (value : UInt64) : WriterM NostrBridgeError Unit := do
  let digits ← Outcome.lift (digitsLoop 20 value.toNat [])
  writeJsonBytes digits

/-- `write_json_tags`. -/
def writeJsonTags (tags : List NostrTagRef) : WriterM NostrBridgeError Unit :=
  writeRows writeJsonBytes writeJsonControlEscape (tags.map NostrTagRef.values)

/-- The writes of `write_nostr_event_json`, in order. -/
def writeEventObject (event : NostrEvent) (idHex pubkeyHex sigHex : String) :
    WriterM NostrBridgeError Unit := do
  pushByte writeJsonBytes 0x7b
  writeJsonText "id"
  pushByte writeJsonBytes 0x3a
  writeJsonText idHex
  pushByte writeJsonBytes 0x2c
  writeJsonText "pubkey"
  pushByte writeJsonBytes 0x3a
  writeJsonText pubkeyHex
  pushByte writeJsonBytes 0x2c
  writeJsonText "created_at"
  pushByte writeJsonBytes 0x3a
  writeJsonU64 event.createdAt
  pushByte writeJsonBytes 0x2c
  writeJsonText "kind"
  pushByte writeJsonBytes 0x3a
  writeJsonU64 (UInt64.ofNat event.kind.toNat)
  pushByte writeJsonBytes 0x2c
  writeJsonText "tags"
  pushByte writeJsonBytes 0x3a
  writeJsonTags event.tags
  pushByte writeJsonBytes 0x2c
  writeJsonText "content"
  pushByte writeJsonBytes 0x3a
  writeJsonText event.content
  pushByte writeJsonBytes 0x2c
  writeJsonText "sig"
  pushByte writeJsonBytes 0x3a
  writeJsonText sigHex
  pushByte writeJsonBytes 0x7d

/-- Write into `output`: the number of bytes written and the slice afterwards. -/
def writeNostrEventJson (event : NostrEvent) (output : List UInt8) :
    Outcome NostrBridgeError (ℕ × List UInt8) := do
  let (idHex, _) ← (event.id.writeHex (List.replicate 64 0)).convert .nostr
  let (pubkeyHex, _) ← (event.pubkey.writeHex (List.replicate 64 0)).convert .nostr
  let (sigHex, _) ← (event.sig.writeHex (List.replicate 128 0)).convert .nostr
  let cursor ← WriterM.runOn (writeEventObject event idHex pubkeyHex sigHex) output
  return (cursor.index, cursor.output)

/-- `bridge_message_to_nostr_event_json`. -/
def bridgeMessageToNostrEventJson (rawBridgeMessage : List UInt8) (params : NostrBridgeEgressParams)
    (scratch : NostrBridgeEventScratch) (output : List UInt8) :
    Outcome NostrBridgeError (ℕ × List UInt8) := do
  let written ← bridgeMessageToNostrEvent sha256 schnorr rawBridgeMessage params.authorSecret
    params.createdAt scratch fun event => writeNostrEventJson event output
  written

end

/-! ## What an accepted event says -/

/-- A tag of two values with the name `community`. -/
def isCommunityTag (tag : NostrTagRef) : Bool :=
  tag.values.length = 2 ∧ tag.values.head? = some "community"

/-- A community that was read stands in the first tag of its kind. -/
theorem ends_requireCommunityTag (tags : List NostrTagRef) :
    Ends (requireCommunityTag tags) fun community => ∃ tag value,
      tags.find? isCommunityTag = some tag ∧ tag.values = ["community", value] ∧
      asBytes value = lowerHex community.bytes.toList := by
  induction tags with
  | nil => exact trivial
  | cons tag tags ih =>
    -- a tag that is not a community tag is passed over, by the loop and by `find?`
    have hskip : isCommunityTag tag = false → Ends (requireCommunityTag tags) fun community =>
        ∃ found value, (tag :: tags).find? isCommunityTag = some found ∧
          found.values = ["community", value] ∧
          asBytes value = lowerHex community.bytes.toList := by
      intro hfalse
      rwa [List.find?_cons_of_neg (by rw [hfalse]; decide)]
    unfold requireCommunityTag
    split
    · rename_i name value hvalues
      split_ifs with hname
      · subst hname
        refine ((ends_decodeFixedLowerHex (by decide) value).convert _).bind fun bytes hbytes => ?_
        have htag : isCommunityTag tag = true := by simp [isCommunityTag, hvalues]
        exact ⟨tag, value, List.find?_cons_of_pos htag, hvalues, hbytes⟩
      · exact hskip (by simp [isCommunityTag, hvalues, hname])
    · rename_i hvalues
      apply hskip
      rw [isCommunityTag, decide_eq_false_iff_not]
      rintro ⟨hlen, -⟩
      obtain ⟨name, value, heq⟩ := List.length_eq_two.mp hlen
      exact hvalues name value heq

/-- What acceptance of an event establishes about it and the message it carries. -/
structure Bound (event : NostrEvent) (ingress : NostrBridgeIngress) : Prop where
  kind_eq : event.kind = 9109
  communityTag : ∃ tag value, event.tags.find? isCommunityTag = some tag ∧
    tag.values = ["community", value] ∧
    asBytes value = lowerHex ingress.bridgeMessage.roomId.bytes.toList
  content_eq : asBytes event.content = lowerHex ingress.rawBridgeMessage
  message_valid : decodeBridgeMessage ingress.rawBridgeMessage = .ok ingress.bridgeMessage
  author_eq : ingress.bridgeMessage.author.kind = .foreign .nostr →
    ingress.bridgeMessage.author.id = event.pubkey.bytes.toList

/-- Content that was decoded is the hexadecimal text of the bytes, and they are put in front of the
output. -/
theorem ends_decodeBridgeNostrContent (content : String) {output : List UInt8}
    (hlimit : output.length < addressLimit) :
    Ends (decodeBridgeNostrContent content output) fun decoded =>
      asBytes content = lowerHex decoded.1 ∧ decoded.1.length ≤ output.length ∧
      decoded.2 = decoded.1 ++ output.drop decoded.1.length := by
  apply ((ends_decodeLowerHex content hlimit).convert _).bind
  rintro _ ⟨bytes, hbytes, hfits, rfl⟩
  apply (ends_slice (Nat.zero_le _) (by simp)).bind
  rintro _ rfl
  refine ((ends_decodeBridgeMessage _).convert _).bind fun _ _ => ?_
  simp only [List.drop_zero, Nat.sub_zero, List.take_left]
  exact ⟨hbytes, hfits, rfl⟩

/-- An event that was accepted is bound to its message, which is put in front of the output. -/
theorem ends_nostrEventToBridgeMessage (sha256 : List UInt8 → ByteArrayN 32) (schnorr : Schnorr)
    (event : NostrEvent) {output : List UInt8} (hlimit : output.length < addressLimit) :
    Ends (nostrEventToBridgeMessage sha256 schnorr event output) fun accepted =>
      Bound event accepted.1 ∧ accepted.2 = accepted.1.rawBridgeMessage ++
        output.drop accepted.1.rawBridgeMessage.length := by
  refine ((ends_verifyEvent sha256 schnorr event).convert _).bind fun _ _ => ?_
  refine (ends_rejectIf _ _).bind fun _ hkind => ?_
  refine (ends_rejectIf _ _).bind fun _ _ => (ends_rejectIf _ _).bind fun _ _ => ?_
  apply (ends_requireCommunityTag event.tags).bind
  rintro community ⟨tag, value, hfind, hvalues, hvalue⟩
  apply (ends_decodeBridgeNostrContent event.content hlimit).bind
  rintro ⟨raw, output'⟩ ⟨hcontent, -, houtput⟩
  apply ((ends_decodeBridgeMessage raw).with_eq.convert _).bind
  rintro message ⟨-, hdecode⟩
  refine (ends_rejectIf _ _).bind fun _ hroom => ?_
  refine (ends_rejectIf _ _).bind fun _ hauthor => ?_
  obtain rfl := not_not.mp hroom
  refine ⟨⟨not_not.mp hkind, ⟨tag, value, hfind, hvalues, hvalue⟩, hcontent, hdecode, ?_⟩, houtput⟩
  intro hnostr
  by_contra hne
  exact hauthor ⟨hnostr, hne⟩

/-! ## The event of a message -/

section

variable {sha256 : List UInt8 → ByteArrayN 32} {schnorr : Schnorr}

/-- The tags of the event of a message. -/
def bridgeTags (message : BridgeMessageRef) : List NostrTagRef :=
  [⟨[hyfNostrBridgeHyfTag, "bridge", hyfNostrBridgeVersionTag], by simp⟩,
    ⟨["community", hexText message.roomId.bytes.toList], by simp⟩,
    ⟨["alt", hyfNostrBridgeAltTag], by simp⟩]

/-- The event of a message before it is signed. -/
def bridgeUnsigned (raw : List UInt8) (message : BridgeMessageRef) (pubkey : NostrPublicKey)
    (createdAt : UInt64) : NostrUnsignedEvent :=
  ⟨pubkey, createdAt, hyfNostrBridgeEventKind, bridgeTags message, hexText raw⟩

/-- A bridge message has 1119 bytes at most. -/
theorem length_le_of_decode {raw : List UInt8} {message : BridgeMessageRef}
    (h : decodeBridgeMessage raw = .ok message) : raw.length ≤ 1119 := by
  obtain ⟨hvalid, rfl⟩ := (ends_decodeBridgeMessage raw).of_ok h
  exact hvalid.length_le

/-- A message fits the scratch and is written in hexadecimal. -/
theorem encodeBridgeNostrContent_eq {raw : List UInt8} {message : BridgeMessageRef}
    (hdecode : decodeBridgeMessage raw = .ok message) (scratch : NostrBridgeEventScratch) :
    encodeBridgeNostrContent raw scratch.content.toList =
      .ok (hexText raw, lowerHex raw ++ scratch.content.toList.drop (raw.length * 2)) := by
  have hraw := length_le_of_decode hdecode
  have hroom : scratch.content.toList.length = 3072 := scratch.content.toList_length
  have hlimit : raw.length * 2 < addressLimit := by
    rw [addressLimit]
    omega
  rw [encodeBridgeNostrContent, validateBridgeMessage,
    Outcome.bind_eq (Outcome.convert_eq hdecode _)]
  exact Outcome.convert_eq (encodeLowerHex_eq hlimit (by omega)) _

/-- The room fits the scratch and is written in hexadecimal. -/
theorem encodeRoomId_eq (message : BridgeMessageRef) (scratch : NostrBridgeEventScratch) :
    encodeLowerHex message.roomId.bytes.toList scratch.communityHex.toList =
      .ok (hexText message.roomId.bytes.toList, lowerHex message.roomId.bytes.toList ++
        scratch.communityHex.toList.drop (message.roomId.bytes.toList.length * 2)) := by
  have hlen : message.roomId.bytes.toList.length = 16 := message.roomId.bytes.toList_length
  have hroom : scratch.communityHex.toList.length = 32 := scratch.communityHex.toList_length
  refine encodeLowerHex_eq ?_ ?_
  · rw [hlen]
    decide
  · rw [hlen, hroom]

/-- A tag with values is one. -/
theorem convert_newTag_eq {values : List String} (h : values ≠ []) :
    (NostrTagRef.new values).convert NostrBridgeError.nostr = .ok ⟨values, h⟩ := by
  rw [NostrTagRef.new, dif_neg h]
  rfl

/-- Up to its signature the event of a message is the one announced. -/
theorem bridgeMessageToNostrEvent_eq {raw : List UInt8} {message : BridgeMessageRef}
    (hdecode : decodeBridgeMessage raw = .ok message) (secret : NostrSecretKey) (createdAt : UInt64)
    (scratch : NostrBridgeEventScratch) {T : Type} (f : NostrEvent → T) :
    bridgeMessageToNostrEvent sha256 schnorr raw secret createdAt scratch f = (do
      let pubkey ← (deriveNostrPublicKey schnorr secret).convert .nostr
      let unsigned ← (NostrUnsignedEvent.new pubkey createdAt hyfNostrBridgeEventKind
        (bridgeTags message) (hexText raw)).convert .nostr
      let event ← (signEvent sha256 schnorr unsigned secret).convert .nostr
      return f event) := by
  rw [bridgeMessageToNostrEvent, validateBridgeMessage,
    Outcome.bind_eq (Outcome.convert_eq hdecode _),
    Outcome.bind_eq (encodeBridgeNostrContent_eq hdecode scratch)]
  simp only
  rw [Outcome.bind_eq (Outcome.convert_eq (encodeRoomId_eq message scratch) _)]
  simp only
  rw [Outcome.bind_eq (convert_newTag_eq (by simp)), Outcome.bind_eq (convert_newTag_eq (by simp)),
    Outcome.bind_eq (convert_newTag_eq (by simp))]
  rfl

/-- A message that decodes is put into a signed event. -/
theorem exists_bridgeMessageToNostrEvent (hschnorr : schnorr.Accepts) {raw : List UInt8}
    {message : BridgeMessageRef} (hdecode : decodeBridgeMessage raw = .ok message)
    {secret : NostrSecretKey} {key : schnorr.SigningKey}
    (hkey : schnorr.signingKeyFromSlice secret.bytes = some key) (createdAt : UInt64)
    (scratch : NostrBridgeEventScratch) : ∃ event,
      (∀ (T : Type) (f : NostrEvent → T), bridgeMessageToNostrEvent sha256 schnorr raw secret
        createdAt scratch f = .ok (f event)) ∧
      event.unsigned = bridgeUnsigned raw message (publicKeyFromSigningKey schnorr key) createdAt ∧
      verifyEvent sha256 schnorr event = .ok () := by
  have hraw := length_le_of_decode hdecode
  have hpubkey : deriveNostrPublicKey schnorr secret = .ok (publicKeyFromSigningKey schnorr key) := by
    rw [deriveNostrPublicKey, Outcome.bind_eq (signingKey_eq hkey)]
    rfl
  -- a message has at most 1536 bytes, so its digits fit the content of an event
  have hchars : (asBytes (hexText raw)).length ≤ hyfNostrMaxContentChars := by
    rw [asBytes_hexText, length_lowerHex, hyfNostrMaxContentChars, hyfNostrMaxEnvelopeBytes]
    omega
  have hunsigned : NostrUnsignedEvent.new (publicKeyFromSigningKey schnorr key) createdAt
      hyfNostrBridgeEventKind (bridgeTags message) (hexText raw) =
      .ok (bridgeUnsigned raw message (publicKeyFromSigningKey schnorr key) createdAt) := by
    rw [NostrUnsignedEvent.new, validateContentLen,
      Outcome.bind_eq (rejectIf_eq_ok (not_lt.mpr hchars))]
    rfl
  obtain ⟨event, hsign, hevent, hverify⟩ := @exists_signEvent sha256 schnorr hschnorr secret key hkey
    (bridgeUnsigned raw message (publicKeyFromSigningKey schnorr key) createdAt) rfl hchars
  refine ⟨event, fun T f => ?_, hevent, hverify⟩
  rw [bridgeMessageToNostrEvent_eq hdecode, Outcome.bind_eq (Outcome.convert_eq hpubkey _),
    Outcome.bind_eq (Outcome.convert_eq hunsigned _), Outcome.bind_eq (Outcome.convert_eq hsign _)]
  rfl

/-- What is returned was made of an event. -/
theorem ends_bridgeMessageToNostrEvent (raw : List UInt8) (secret : NostrSecretKey)
    (createdAt : UInt64) (scratch : NostrBridgeEventScratch) {T : Type} (f : NostrEvent → T) :
    Ends (bridgeMessageToNostrEvent sha256 schnorr raw secret createdAt scratch f) fun result =>
      ∃ event, result = f event := by
  cases hdecode : decodeBridgeMessage raw with
  | error fault =>
    have hends := ends_decodeBridgeMessage raw
    rw [hdecode] at hends
    rw [bridgeMessageToNostrEvent, validateBridgeMessage, hdecode]
    cases fault with
    | error error => exact trivial
    | panic => exact hends
  | ok message =>
    rw [bridgeMessageToNostrEvent_eq hdecode]
    refine ((ends_deriveNostrPublicKey secret).convert _).bind fun pubkey _ => ?_
    have hnew : Ends (NostrUnsignedEvent.new pubkey createdAt hyfNostrBridgeEventKind
        (bridgeTags message) (hexText raw)) fun _ => True :=
      (ends_rejectIf _ _).bind fun _ _ => trivial
    refine (hnew.convert _).bind fun unsigned _ => ?_
    refine ((ends_signEvent unsigned secret).convert _).bind fun event _ => ?_
    exact ⟨event, rfl⟩

/-! ## The JSON of an event -/

/-- What a writer attempts is emitted. -/
theorem emits_attempts : Emits Attempts writeJsonBytes where
  nil := Attempts.nil
  bind := Attempts.bind
  write := attempts_writeSlice _ _

/-- What a writer writes is emitted. -/
theorem emits_writes : Emits Writes writeJsonBytes where
  nil := Writes.nil
  bind := Writes.bind
  write := writes_writeSlice _ _

/-- The escape of a control character, as the JSON writer spells it. -/
def jsonControlEscape (character : Char) : List UInt8 :=
  [0x5c, 0x75, 0x30, 0x30] ++ hexPair (UInt8.ofNat character.toNat)

section

variable {P : WriterM NostrBridgeError Unit → List UInt8 → Prop} (h : Emits P writeJsonBytes)

include h

/-- A control character is emitted as its escape. -/
theorem emits_writeJsonControlEscape (character : Char) :
    P (writeJsonControlEscape character) (jsonControlEscape character) := by
  obtain ⟨hhigh, hlow⟩ := @byteAt_hexDigits NostrBridgeError (UInt8.ofNat character.toNat)
  unfold writeJsonControlEscape
  simp only [Outcome.lift_bind hhigh, Outcome.lift_bind hlow]
  exact h.bind (h.write _) (h.bind (h.write [_]) (h.write [_]))

/-- A number is emitted in decimal. -/
theorem emits_writeJsonU64 (value : UInt64) : P (writeJsonU64 value) (decimal value.toNat) := by
  have hdigits : (digitsLoop 20 value.toNat [] : Outcome NostrBridgeError (List UInt8)) =
      .ok (decimal value.toNat) := by
    have hlt : value.toNat < 10 ^ (19 + 1) := value.toNat_lt.trans (by norm_num)
    rw [digitsLoop_eq hlt, List.append_nil]
  unfold writeJsonU64
  rw [Outcome.lift_bind hdigits]
  exact h.write _

end

/-- The bytes of the JSON object of an event. -/
def eventJson (event : NostrEvent) : List UInt8 :=
  let text := jsonString jsonControlEscape
  [0x7b] ++ (text "id" ++ ([0x3a] ++ (text (hexText event.id.bytes.toList) ++ ([0x2c] ++
    (text "pubkey" ++ ([0x3a] ++ (text (hexText event.pubkey.bytes.toList) ++ ([0x2c] ++
    (text "created_at" ++ ([0x3a] ++ (decimal event.createdAt.toNat ++ ([0x2c] ++
    (text "kind" ++ ([0x3a] ++ (decimal (UInt64.ofNat event.kind.toNat).toNat ++ ([0x2c] ++
    (text "tags" ++ ([0x3a] ++
      (jsonRows jsonControlEscape (event.tags.map NostrTagRef.values) ++ ([0x2c] ++
    (text "content" ++ ([0x3a] ++ (text event.content ++ ([0x2c] ++
    (text "sig" ++ ([0x3a] ++ (text (hexText event.sig.bytes.toList) ++
    [0x7d])))))))))))))))))))))))))))

/-- An event is emitted as its JSON. -/
theorem emits_writeEventObject {P : WriterM NostrBridgeError Unit → List UInt8 → Prop}
    (h : Emits P writeJsonBytes) (event : NostrEvent) :
    P (writeEventObject event (hexText event.id.bytes.toList)
      (hexText event.pubkey.bytes.toList) (hexText event.sig.bytes.toList)) (eventJson event) := by
  have hescape := emits_writeJsonControlEscape h
  have htext := h.writeJsonString hescape
  -- every member is a name, a colon and a value; a comma or the closing brace follows it
  have hmember : ∀ (name : String) {writeValue rest : WriterM NostrBridgeError Unit}
      {value bytes : List UInt8}, P writeValue value → P rest bytes →
      P (do writeJsonText name; pushByte writeJsonBytes 0x3a; writeValue; rest)
        (jsonString jsonControlEscape name ++ ([0x3a] ++ (value ++ bytes))) :=
    fun name _ _ _ _ hvalue hrest => h.bind (htext name) (h.bind (h.write _) (h.bind hvalue hrest))
  refine h.bind (h.write _) (hmember "id" (htext _) (h.bind (h.write _) ?_))
  refine hmember "pubkey" (htext _) (h.bind (h.write _) ?_)
  refine hmember "created_at" (emits_writeJsonU64 h _) (h.bind (h.write _) ?_)
  refine hmember "kind" (emits_writeJsonU64 h _) (h.bind (h.write _) ?_)
  refine hmember "tags" (h.writeRows hescape _) (h.bind (h.write _) ?_)
  refine hmember "content" (htext _) (h.bind (h.write _) ?_)
  exact hmember "sig" (htext _) (h.write _)

/-- The three texts of fixed length always fit their arrays, and the rest is up to the writer. -/
theorem writeNostrEventJson_eq_runOn (event : NostrEvent) (output : List UInt8) :
    writeNostrEventJson event output = (do
      let cursor ← WriterM.runOn (writeEventObject event (hexText event.id.bytes.toList)
        (hexText event.pubkey.bytes.toList) (hexText event.sig.bytes.toList)) output
      return (cursor.index, cursor.output)) := by
  have hid := encodeLowerHex_vector event.id.bytes (by decide)
  have hpubkey := encodeLowerHex_vector event.pubkey.bytes (by decide)
  have hsig := encodeLowerHex_vector event.sig.bytes (by decide)
  rw [writeNostrEventJson, NostrEventId.writeHex, NostrPublicKey.writeHex, NostrSignature.writeHex,
    Outcome.bind_eq (Outcome.convert_eq hid _)]
  simp only
  rw [Outcome.bind_eq (Outcome.convert_eq hpubkey _)]
  simp only
  rw [Outcome.bind_eq (Outcome.convert_eq hsig _)]

/-- The JSON of an event is put in front of an output that has room for it. -/
theorem ends_writeNostrEventJson (event : NostrEvent) (output : List UInt8) :
    Ends (writeNostrEventJson event output) fun written =>
      (eventJson event).length ≤ output.length ∧ written = ((eventJson event).length,
        eventJson event ++ output.drop (eventJson event).length) := by
  rw [writeNostrEventJson_eq_runOn]
  apply ((emits_writeEventObject emits_attempts event).ends_runOn output).bind
  rintro _ ⟨hroom, rfl⟩
  exact ⟨hroom, rfl⟩

/-- An output with room for the object is large enough. -/
theorem writeNostrEventJson_eq {event : NostrEvent} {output : List UInt8}
    (hlimit : output.length < addressLimit) (hroom : (eventJson event).length ≤ output.length) :
    writeNostrEventJson event output =
      .ok ((eventJson event).length, eventJson event ++ output.drop (eventJson event).length) := by
  have hwrite := (emits_writeEventObject emits_writes event).runOn (by omega) hroom
  rw [writeNostrEventJson_eq_runOn, Outcome.bind_eq hwrite]
  rfl

/-- The egress writes the JSON of an event, or reports an error. -/
theorem ends_bridgeMessageToNostrEventJson (raw : List UInt8) (params : NostrBridgeEgressParams)
    (scratch : NostrBridgeEventScratch) (output : List UInt8) :
    Ends (bridgeMessageToNostrEventJson sha256 schnorr raw params scratch output) fun written =>
      ∃ event, (eventJson event).length ≤ output.length ∧ written = ((eventJson event).length,
        eventJson event ++ output.drop (eventJson event).length) := by
  apply (ends_bridgeMessageToNostrEvent raw params.authorSecret params.createdAt scratch _).bind
  rintro _ ⟨event, rfl⟩
  exact (ends_writeNostrEventJson event output).mono fun _ hwritten => ⟨event, hwritten⟩

/-- The tags of an event name the room of its message. -/
theorem requireCommunityTag_bridgeTags (message : BridgeMessageRef) :
    requireCommunityTag (bridgeTags message) = .ok message.roomId := by
  have hdecode := decodeFixedLowerHex_eq message.roomId.bytes
    (asBytes_hexText message.roomId.bytes.toList) (by decide)
  have hroom : requireCommunityTag (bridgeTags message) =
      ((decodeFixedLowerHex 16 (hexText message.roomId.bytes.toList)).convert .nostr >>=
        fun bytes => pure ⟨bytes⟩) := by
    rw [bridgeTags, requireCommunityTag]
    simp only
    rw [requireCommunityTag]
    rfl
  rw [hroom, Outcome.bind_eq (Outcome.convert_eq hdecode _)]
  rfl

/-- The way back, up to the rule for Nostr authors. -/
theorem nostrEventToBridgeMessage_eq {raw : List UInt8} {message : BridgeMessageRef}
    (hdecode : decodeBridgeMessage raw = .ok message) {event : NostrEvent} {pubkey : NostrPublicKey}
    {createdAt : UInt64} (hevent : event.unsigned = bridgeUnsigned raw message pubkey createdAt)
    (hverify : verifyEvent sha256 schnorr event = .ok ()) {output : List UInt8}
    (hroom : raw.length ≤ output.length) :
    nostrEventToBridgeMessage sha256 schnorr event output = (do
      validateNostrAuthorRule pubkey message
      return (⟨raw, message, ⟨.nostr, .transportSigned⟩⟩, raw ++ output.drop raw.length)) := by
  have hkind : event.kind = hyfNostrBridgeEventKind := congrArg NostrUnsignedEvent.kind hevent
  have htags : event.tags = bridgeTags message := congrArg NostrUnsignedEvent.tags hevent
  have htext : event.content = hexText raw := congrArg NostrUnsignedEvent.content hevent
  have hpubkey : event.pubkey = pubkey := congrArg NostrUnsignedEvent.pubkey hevent
  have hraw := length_le_of_decode hdecode
  have hhex := decodeLowerHex_eq (asBytes_hexText raw) (by rw [addressLimit]; omega) hroom
  have hslice : (slice (raw ++ output.drop raw.length) 0 raw.length :
      Outcome NostrBridgeError (List UInt8)) = .ok raw := by
    rw [slice, if_pos ⟨Nat.zero_le _, by simp⟩, List.drop_zero, Nat.sub_zero, List.take_left]
  -- the content decodes to the message it was written from
  have hcontent : decodeBridgeNostrContent (hexText raw) output =
      .ok (raw, raw ++ output.drop raw.length) := by
    rw [decodeBridgeNostrContent, Outcome.bind_eq (Outcome.convert_eq hhex _)]
    simp only
    rw [Outcome.bind_eq hslice, validateBridgeMessage,
      Outcome.bind_eq (Outcome.convert_eq hdecode _)]
    rfl
  have hhyf : requireStaticTag (bridgeTags message)
      [hyfNostrBridgeHyfTag, "bridge", hyfNostrBridgeVersionTag] "hyf" = .ok () :=
    rejectIf_eq_ok (by simp [bridgeTags])
  have halt : requireStaticTag (bridgeTags message) ["alt", hyfNostrBridgeAltTag] "alt" = .ok () :=
    rejectIf_eq_ok (by simp [bridgeTags])
  rw [nostrEventToBridgeMessage, Outcome.bind_eq (Outcome.convert_eq hverify _),
    Outcome.bind_eq (rejectIf_eq_ok (not_not.mpr hkind)), htags, htext, hpubkey,
    Outcome.bind_eq hhyf, Outcome.bind_eq halt,
    Outcome.bind_eq (requireCommunityTag_bridgeTags message), Outcome.bind_eq hcontent]
  simp only
  rw [Outcome.bind_eq (Outcome.convert_eq hdecode _),
    Outcome.bind_eq (rejectIf_eq_ok (not_not.mpr rfl))]

/-- The message has no Nostr author, or its author has this key. -/
def AuthorAgrees (message : BridgeMessageRef) (pubkey : NostrPublicKey) : Prop :=
  message.author.kind ≠ .foreign .nostr ∨ message.author.id = pubkey.bytes.toList

/-- The rule lets pass an author that agrees. -/
theorem validateNostrAuthorRule_eq_ok {message : BridgeMessageRef} {pubkey : NostrPublicKey}
    (h : AuthorAgrees message pubkey) : validateNostrAuthorRule pubkey message = .ok () := by
  apply rejectIf_eq_ok
  rintro ⟨hkind, hid⟩
  rcases h with hother | hsame
  · exact hother hkind
  · exact hid hsame

/-- The rule refuses an author that does not. -/
theorem validateNostrAuthorRule_eq_fail {message : BridgeMessageRef} {pubkey : NostrPublicKey}
    (h : ¬AuthorAgrees message pubkey) :
    validateNostrAuthorRule pubkey message = fail .nostrAuthorPubkeyMismatch := by
  rw [AuthorAgrees, not_or, not_not] at h
  exact rejectIf_eq_fail h

end

/-- **The Nostr bridge is a round trip that binds the author.** The event of a message is accepted
with exactly that message when the message may come from the signing key, and is refused for its
author otherwise; and an accepted event is bound to its message, whatever its tags are. -/
theorem nostrBridge_roundtrip (sha256 : List UInt8 → ByteArrayN 32) (schnorr : Schnorr)
    (hschnorr : schnorr.Accepts) :
    (∀ raw message secret key createdAt scratch, decodeBridgeMessage raw = .ok message →
      schnorr.signingKeyFromSlice (NostrSecretKey.bytes secret) = some key →
      ∃ event,
        (∀ (T : Type) (f : NostrEvent → T), bridgeMessageToNostrEvent sha256 schnorr raw secret
          createdAt scratch f = .ok (f event)) ∧
        ∀ output : List UInt8, raw.length ≤ output.length →
          (nostrEventToBridgeMessage sha256 schnorr event output =
            .ok (⟨raw, message, ⟨.nostr, .transportSigned⟩⟩, raw ++ output.drop raw.length) ↔
            AuthorAgrees message ⟨schnorr.verifyingKeyBytes key⟩) ∧
          (¬AuthorAgrees message ⟨schnorr.verifyingKeyBytes key⟩ →
            nostrEventToBridgeMessage sha256 schnorr event output =
              fail .nostrAuthorPubkeyMismatch)) ∧
    ∀ event output ingress written, output.length < addressLimit →
      nostrEventToBridgeMessage sha256 schnorr event output = .ok (ingress, written) →
      Bound event ingress := by
  constructor
  · intro raw message secret key createdAt scratch hdecode hkey
    obtain ⟨event, hevent, hunsigned, hverify⟩ :=
      @exists_bridgeMessageToNostrEvent sha256 _ hschnorr _ _ hdecode _ _ hkey createdAt scratch
    refine ⟨event, hevent, fun output hroom => ?_⟩
    -- only the rule for Nostr authors is left to decide
    have hback := nostrEventToBridgeMessage_eq hdecode hunsigned hverify hroom
    have hmismatch : ¬AuthorAgrees message ⟨schnorr.verifyingKeyBytes key⟩ →
        nostrEventToBridgeMessage sha256 schnorr event output = fail .nostrAuthorPubkeyMismatch := by
      intro hother
      rw [hback, publicKeyFromSigningKey, validateNostrAuthorRule_eq_fail hother]
      rfl
    refine ⟨⟨?_, ?_⟩, hmismatch⟩
    · intro hok
      by_contra hother
      rw [hmismatch hother] at hok
      cases hok
    · intro hagrees
      rw [hback, publicKeyFromSigningKey, Outcome.bind_eq (validateNostrAuthorRule_eq_ok hagrees)]
      rfl
  · intro event output ingress written hlimit hok
    exact ((ends_nostrEventToBridgeMessage sha256 schnorr event hlimit).of_ok hok).1

/-- The public key of the secret key 3. -/
def samplePubkey : ByteArrayN 32 :=
  ⟨[0xf9, 0x30, 0x8a, 0x01, 0x92, 0x58, 0xc3, 0x10, 0x49, 0x34, 0x4f, 0x85, 0xf8, 0x9d, 0x52, 0x29,
    0xb5, 0x31, 0xc8, 0x45, 0x83, 0x6f, 0x99, 0xb0, 0x86, 0x01, 0xf1, 0x13, 0xbc, 0xe0, 0x36, 0xf9],
    rfl⟩

/-- The id of the event of the sample message at the time 1720000000. -/
def sampleEventId : ByteArrayN 32 :=
  ⟨[0xea, 0x12, 0x31, 0xb9, 0x1d, 0x88, 0xb3, 0xcc, 0xc3, 0xc6, 0x1d, 0xa2, 0x3f, 0xe8, 0xf7, 0x05,
    0xeb, 0x95, 0xe5, 0x48, 0x60, 0x31, 0xbc, 0xc8, 0x27, 0xc9, 0x2c, 0xc1, 0xa3, 0x6d, 0xda, 0x34],
    rfl⟩

/-- Its signature with the secret key 3. -/
def sampleSignature : ByteArrayN 64 :=
  ⟨[0x1a, 0xda, 0xbf, 0x64, 0x69, 0xec, 0x2e, 0x9e, 0xab, 0x80, 0xcc, 0x3a, 0xf9, 0xa1, 0x71, 0x04,
    0xda, 0x50, 0xc3, 0x31, 0xec, 0x1e, 0x4e, 0xa2, 0x6a, 0x88, 0x0d, 0x0a, 0xb9, 0x68, 0xa0, 0x4d,
    0xec, 0x56, 0xc0, 0x22, 0x75, 0xdc, 0x84, 0x8d, 0xce, 0x26, 0xaa, 0x58, 0xda, 0xea, 0x98, 0x9a,
    0x08, 0xe3, 0xbc, 0x5f, 0xa0, 0x5f, 0x08, 0x01, 0x41, 0x4a, 0xac, 0xdd, 0x8a, 0xb4, 0x1b, 0x4e],
    rfl⟩

/-- The secret key 3. -/
def sampleSecret : NostrSecretKey := ⟨⟨List.replicate 31 0 ++ [3], rfl⟩⟩

/-- Schnorr signatures on the sample event, with the secret key 3 as the only key. -/
def sampleSchnorr : Schnorr where
  SigningKey := Unit
  VerifyingKey := ByteArrayN 32
  Signature := ByteArrayN 64
  signingKeyFromSlice bytes := if bytes = sampleSecret.bytes then some () else none
  verifyingKeyBytes _ := samplePubkey
  signRaw _ _ _ := some sampleSignature
  verifyingKeyFromSlice bytes := some bytes
  signatureFromSlice bytes := some bytes
  verifyRaw verifyingKey _ signature :=
    decide (verifyingKey = samplePubkey ∧ signature = sampleSignature)

/-- These signatures verify. -/
theorem accepts_sampleSchnorr : sampleSchnorr.Accepts where
  signs _ _ := ⟨sampleSignature, rfl⟩
  verifies _ _ _ signature hsign := by
    cases hsign
    refine ⟨samplePubkey, sampleSignature, rfl, rfl, ?_⟩
    show decide (samplePubkey = samplePubkey ∧ sampleSignature = sampleSignature) = true
    exact decide_eq_true ⟨rfl, rfl⟩

/-- The sample message of a Nostr author. -/
def nostrSampleMessage : BridgeMessageRef :=
  { sampleMessage with author := ⟨.foreign .nostr, samplePubkey.toList⟩ }

/-- The sample message is valid. -/
theorem validMessage_nostrSampleMessage : ValidMessage nostrSampleMessage :=
  { validMessage_sampleMessage with author_length := rfl }

/-- The sample message goes out as an event and comes back from it. -/
theorem nostrBridge_sampleMessage : ∃ event,
    bridgeMessageToNostrEvent (fun _ => sampleEventId) sampleSchnorr
      (messageBytes nostrSampleMessage) sampleSecret 1720000000
      ⟨fillBytes 3072 0, fillBytes 32 0⟩ id = .ok event ∧
    nostrEventToBridgeMessage (fun _ => sampleEventId) sampleSchnorr event
      (messageBytes nostrSampleMessage) =
      .ok (⟨messageBytes nostrSampleMessage, nostrSampleMessage, ⟨.nostr, .transportSigned⟩⟩,
        messageBytes nostrSampleMessage) := by
  obtain ⟨event, hevent, hback⟩ := (nostrBridge_roundtrip (fun _ => sampleEventId) sampleSchnorr
    accepts_sampleSchnorr).1 _ _ sampleSecret () 1720000000 ⟨fillBytes 3072 0, fillBytes 32 0⟩
    (decodeBridgeMessage_messageBytes validMessage_nostrSampleMessage) rfl
  have hingress := (hback (messageBytes nostrSampleMessage) le_rfl).1.mpr (.inr rfl)
  rw [List.drop_length, List.append_nil] at hingress
  exact ⟨event, hevent NostrEvent id, hingress⟩

end Hyf.NostrBridge
