import Hyf.Core.Types
import Hyf.Common.JsonText

/-!
# Nostr events (`hyf_link_nostr`)

Keys, tags and events, the lower-case hexadecimal in which keys and payloads are spelled, the
canonical serialization whose SHA-256 hash is the event id, and signing. The hash and the Schnorr
signatures are third-party code: a function on byte strings and the structure `Schnorr`.
-/

namespace Hyf.Nostr

open ByteCodec WriterM JsonText

def hyfNostrMaxEnvelopeBytes : ℕ := 2048
def hyfNostrMaxContentChars : ℕ := hyfNostrMaxEnvelopeBytes * 2

/-- The errors of the link. -/
inductive NostrError where
  | contentTooLarge (actual maximum : ℕ)
  | crypto
  | envelopeTooLarge (actual maximum : ℕ)
  | eventIdMismatch
  | hexLength (expected actual : ℕ)
  | invalidSignature
  | invalidHexChar (index : ℕ) (byte : UInt8)
  | invalidSubscriptionId
  | malformedMessage
  | malformedEnvelope
  | missingRequiredTag (tag : String)
  | nonCanonicalHex (index : ℕ) (byte : UInt8)
  | oddHexLength (len : ℕ)
  | outputTooSmall (needed available : ℕ)
  | publicKeyMismatch
  | relayEventStoreFull (capacity : ℕ)
  | relayOutputFull (capacity : ℕ)
  | relaySubscriptionFull (capacity : ℕ)
  | storedStringTooLarge (actual maximum : ℕ)
  | subscriptionIdTooLong (len maximum : ℕ)
  | tagCountTooLarge (actual maximum : ℕ)
  | tagEmpty
  | tagValueCountTooLarge (actual maximum : ℕ)
  | tagValueTooLarge (actual maximum : ℕ)
  | unexpectedKind (expected actual : UInt16)
  | unsupportedMessage
  | unsupported
  | utf8
  deriving DecidableEq

/-- A public key of 32 bytes. -/
structure NostrPublicKey where
  bytes : ByteArrayN 32
  deriving DecidableEq

/-- A secret key of 32 bytes. -/
structure NostrSecretKey where
  bytes : ByteArrayN 32
  deriving DecidableEq

/-- The hash of an event. -/
structure NostrEventId where
  bytes : ByteArrayN 32
  deriving DecidableEq

/-- A signature of 64 bytes. -/
structure NostrSignature where
  bytes : ByteArrayN 64
  deriving DecidableEq

/-! ## Hexadecimal -/

/-- The sixteen digits in lower case. -/
def hexDigits : List UInt8 :=
  [0x30, 0x31, 0x32, 0x33, 0x34, 0x35, 0x36, 0x37, 0x38, 0x39, 0x61, 0x62, 0x63, 0x64, 0x65, 0x66]

/-- The loop of `encode_lower_hex`: two digits for each byte. -/
def writeHexDigits : List UInt8 → WriterM NostrError Unit
  | [] => return ()
  | byte :: bytes => do
    let high ← Outcome.lift (byteAt hexDigits (byte >>> 4).toNat)
    writeU8 high
    let low ← Outcome.lift (byteAt hexDigits (byte &&& 0x0f).toNat)
    writeU8 low
    writeHexDigits bytes

/-- Encode into `out`: the text and the slice afterwards. -/
def encodeLowerHex (bytes out : List UInt8) : Outcome NostrError (String × List UInt8) := do
  let needed ← match checkedMul bytes.length 2 with
    | some needed => pure needed
    | none => fail (.outputTooSmall (2 ^ 64 - 1) out.length)
  rejectIf (out.length < needed) (.outputTooSmall needed out.length)
  let cursor ← WriterM.runOn (writeHexDigits bytes) out
  let written ← slice cursor.output 0 needed
  match fromUtf8 written with
  | some text => return (text, cursor.output)
  | none => fail .utf8

/-- `decode_nibble`: lower case only. -/
def decodeNibble (byte : UInt8) (index : ℕ) : Outcome NostrError UInt8 :=
  if 0x30 ≤ byte ∧ byte ≤ 0x39 then .ok (byte - 0x30)
  else if 0x61 ≤ byte ∧ byte ≤ 0x66 then .ok (byte - 0x61 + 10)
  else if 0x41 ≤ byte ∧ byte ≤ 0x46 then fail (.nonCanonicalHex index byte)
  else fail (.invalidHexChar index byte)

/-- The loop of `decode_lower_hex` from the round `index` on, with the digits that are left. -/
def writeDecodedHex (index : ℕ) : List UInt8 → WriterM NostrError Unit
  | high :: low :: digits => do
    let high ← Outcome.lift (decodeNibble high (index * 2))
    let low ← Outcome.lift (decodeNibble low (index * 2 + 1))
    writeU8 ((high <<< 4) ||| low)
    writeDecodedHex (index + 1) digits
  | _ => return ()

/-- Decode into `out`: the number of bytes and the slice afterwards. -/
def decodeLowerHex (input : String) (out : List UInt8) : Outcome NostrError (ℕ × List UInt8) := do
  let bytes := asBytes input
  rejectIf (bytes.length % 2 ≠ 0) (.oddHexLength bytes.length)
  let needed := bytes.length / 2
  rejectIf (out.length < needed) (.outputTooSmall needed out.length)
  let cursor ← WriterM.runOn (writeDecodedHex 0 bytes) out
  return (needed, cursor.output)

/-- `decode_fixed_lower_hex`. -/
def decodeFixedLowerHex (n : ℕ) (input : String) : Outcome NostrError (ByteArrayN n) := do
  let expected := n * 2
  rejectIf ((asBytes input).length ≠ expected) (.hexLength expected (asBytes input).length)
  let (_, out) ← decodeLowerHex input (List.replicate n 0)
  toArray n out

/-- `write_hex`. -/
def NostrPublicKey.writeHex (key : NostrPublicKey) (out : List UInt8) :
    Outcome NostrError (String × List UInt8) :=
  encodeLowerHex key.bytes.toList out

/-- `write_hex`. -/
def NostrEventId.writeHex (id : NostrEventId) (out : List UInt8) :
    Outcome NostrError (String × List UInt8) :=
  encodeLowerHex id.bytes.toList out

/-- `write_hex`. -/
def NostrSignature.writeHex (signature : NostrSignature) (out : List UInt8) :
    Outcome NostrError (String × List UInt8) :=
  encodeLowerHex signature.bytes.toList out

/-! ## Tags and events -/

/-- A tag has at least one value, its name. -/
structure NostrTagRef where
  values : List String
  ne_nil : values ≠ []
  deriving DecidableEq

/-- `new`: a tag has a name at least. -/
def NostrTagRef.new (values : List String) : Outcome NostrError NostrTagRef :=
  if h : values = [] then fail .tagEmpty else .ok ⟨values, h⟩

/-- An event before it is hashed. -/
structure NostrUnsignedEvent where
  pubkey : NostrPublicKey
  createdAt : UInt64
  kind : UInt16
  tags : List NostrTagRef
  content : String
  deriving DecidableEq

/-- An event with its hash and its signature. -/
structure NostrEvent where
  id : NostrEventId
  pubkey : NostrPublicKey
  createdAt : UInt64
  kind : UInt16
  tags : List NostrTagRef
  content : String
  sig : NostrSignature
  deriving DecidableEq

/-- `validate_content_len`. -/
def validateContentLen (content : String) : Outcome NostrError Unit :=
  rejectIf ((asBytes content).length > hyfNostrMaxContentChars)
    (.contentTooLarge (asBytes content).length hyfNostrMaxContentChars)

/-- `new`. -/
def NostrUnsignedEvent.new (pubkey : NostrPublicKey) (createdAt : UInt64) (kind : UInt16)
    (tags : List NostrTagRef) (content : String) : Outcome NostrError NostrUnsignedEvent := do
  validateContentLen content
  return ⟨pubkey, createdAt, kind, tags, content⟩

/-- `new`: the hash and the signature are not checked. -/
def NostrEvent.new (id : NostrEventId) (pubkey : NostrPublicKey) (createdAt : UInt64)
    (kind : UInt16) (tags : List NostrTagRef) (content : String) (sig : NostrSignature) :
    Outcome NostrError NostrEvent := do
  validateContentLen content
  return ⟨id, pubkey, createdAt, kind, tags, content, sig⟩

/-- `unsigned`. -/
def NostrEvent.unsigned (event : NostrEvent) : NostrUnsignedEvent :=
  ⟨event.pubkey, event.createdAt, event.kind, event.tags, event.content⟩

/-! ## The canonical serialization -/

/-- `hex_nibble`. -/
def hexNibble (value : UInt8) : UInt8 := if value ≤ 9 then 0x30 + value else 0x61 + (value - 10)

/-- The six bytes `\u00xx` of a control character. -/
def controlEscape (character : Char) : List UInt8 :=
  let value := UInt8.ofNat character.toNat
  [0x5c, 0x75, 0x30, 0x30, hexNibble (value >>> 4), hexNibble (value &&& 0x0f)]

section Canonical

variable {σ : Type} (write : List UInt8 → EStateM (Fault NostrError) σ Unit)

/-- The other control characters by their code. -/
def writeControlEscape (character : Char) : EStateM (Fault NostrError) σ Unit :=
  write (controlEscape character)

/-- `write_u64`. -/
def writeU64 (value : UInt64) : EStateM (Fault NostrError) σ Unit :=
  if value = 0 then pushByte write 0x30
  else do
    let digits ← Outcome.lift (digitsWhile 20 value.toNat [])
    write digits

/-- `write_tags`. -/
def writeTags (tags : List NostrTagRef) : EStateM (Fault NostrError) σ Unit :=
  writeRows write (writeControlEscape write) (tags.map NostrTagRef.values)

/-- `write_canonical_to`: what is hashed of an event. -/
def writeCanonicalTo (event : NostrUnsignedEvent) : EStateM (Fault NostrError) σ Unit := do
  let (pubkeyHex, _) ← Outcome.lift (event.pubkey.writeHex (List.replicate 64 0))
  pushByte write 0x5b
  pushByte write 0x30
  pushByte write 0x2c
  writeJsonString write (writeControlEscape write) pubkeyHex
  pushByte write 0x2c
  writeU64 write event.createdAt
  pushByte write 0x2c
  writeU64 write (UInt64.ofNat event.kind.toNat)
  pushByte write 0x2c
  writeTags write event.tags
  pushByte write 0x2c
  writeJsonString write (writeControlEscape write) event.content
  pushByte write 0x5d

end Canonical

/-- `HashSink::write`: a hasher is the bytes that it was given so far. -/
def hashWrite (bytes : List UInt8) : EStateM (Fault NostrError) (List UInt8) Unit :=
  modify fun hashed => hashed ++ bytes

section Signing

variable (sha256 : List UInt8 → ByteArrayN 32)

/-- `event_id`. -/
def eventId (event : NostrUnsignedEvent) : Outcome NostrError NostrEventId :=
  match writeCanonicalTo hashWrite event [] with
  | .ok _ hashed => .ok ⟨sha256 hashed⟩
  | .error fault _ => .error fault

/-- The calls of `k256::schnorr`. -/
structure Schnorr where
  SigningKey : Type
  VerifyingKey : Type
  Signature : Type
  signingKeyFromSlice : ByteArrayN 32 → Option SigningKey
  verifyingKeyBytes : SigningKey → ByteArrayN 32
  signRaw : SigningKey → ByteArrayN 32 → ByteArrayN 32 → Option (ByteArrayN 64)
  verifyingKeyFromSlice : ByteArrayN 32 → Option VerifyingKey
  signatureFromSlice : ByteArrayN 64 → Option Signature
  verifyRaw : VerifyingKey → ByteArrayN 32 → Signature → Bool

variable (schnorr : Schnorr)

/-- `DETERMINISTIC_AUX_RAND`. -/
def deterministicAuxRand : ByteArrayN 32 := fillBytes 32 0

/-- `signing_key`. -/
def signingKey (secret : NostrSecretKey) : Outcome NostrError schnorr.SigningKey :=
  match schnorr.signingKeyFromSlice secret.bytes with
  | some key => .ok key
  | none => fail .crypto

/-- `public_key_from_signing_key`. -/
def publicKeyFromSigningKey (key : schnorr.SigningKey) : NostrPublicKey :=
  ⟨schnorr.verifyingKeyBytes key⟩

/-- `derive_nostr_public_key`. -/
def deriveNostrPublicKey (secret : NostrSecretKey) : Outcome NostrError NostrPublicKey := do
  let key ← signingKey schnorr secret
  return publicKeyFromSigningKey schnorr key

/-- `sign_event`: the key has to be the one of the event. -/
def signEvent (event : NostrUnsignedEvent) (secret : NostrSecretKey) :
    Outcome NostrError NostrEvent := do
  let key ← signingKey schnorr secret
  let pubkey := publicKeyFromSigningKey schnorr key
  rejectIf (event.pubkey ≠ pubkey) .publicKeyMismatch
  let id ← eventId sha256 event
  match schnorr.signRaw key id.bytes deterministicAuxRand with
  | none => fail .crypto
  | some signature =>
    NostrEvent.new id event.pubkey event.createdAt event.kind event.tags event.content ⟨signature⟩

/-- `verify_event`: the hash, and then the signature. -/
def verifyEvent (event : NostrEvent) : Outcome NostrError Unit := do
  let expectedId ← eventId sha256 event.unsigned
  rejectIf (event.id ≠ expectedId) .eventIdMismatch
  match schnorr.verifyingKeyFromSlice event.pubkey.bytes with
  | none => fail .crypto
  | some verifyingKey =>
    match schnorr.signatureFromSlice event.sig.bytes with
    | none => fail .invalidSignature
    | some signature =>
      rejectIf (schnorr.verifyRaw verifyingKey event.id.bytes signature = false) .invalidSignature

end Signing

end Hyf.Nostr
