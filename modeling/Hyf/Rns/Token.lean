import Hyf.Rns.Announce
import Hyf.Rns.Pkcs7

/-!
# Tokens (`hyf_rns_crypto`)

A token is an initialization vector, the padded text under AES-CBC and a tag over both. It is built in
the caller's output and taken apart there, so a text is in the output before its padding is known to be
right.
-/

namespace Hyf.Rns

open ByteCodec BufferM

def rnsTokenIvLen : ℕ := 16
def rnsTokenHmacLen : ℕ := 32
def rnsTokenOverhead : ℕ := rnsTokenIvLen + rnsTokenHmacLen

def tokenKey32Len : ℕ := 32
def tokenKey64Len : ℕ := 64

inductive TokenKeyKind where
  | aes128
  | aes256
  deriving DecidableEq

/-- `key_len`, the length of either key. -/
def TokenKeyKind.keyLen : TokenKeyKind → ℕ
  | .aes128 => 16
  | .aes256 => 32

structure TokenKeys where
  kind : TokenKeyKind
  signingKey : ByteArrayN kind.keyLen
  encryptionKey : ByteArrayN kind.keyLen

/-- One arm of `split`: the first half signs, the rest encrypts. -/
def TokenKeys.ofHalves (kind : TokenKeyKind) (key : List UInt8) : Outcome RnsCryptoError TokenKeys := do
  let signingKey ← slice key 0 kind.keyLen
  let signingKey ← toArray kind.keyLen signingKey
  let encryptionKey ← slice key kind.keyLen key.length
  let encryptionKey ← toArray kind.keyLen encryptionKey
  return ⟨kind, signingKey, encryptionKey⟩

def TokenKeys.split (key : List UInt8) : Outcome RnsCryptoError TokenKeys :=
  if key.length = tokenKey32Len then TokenKeys.ofHalves .aes128 key
  else if key.length = tokenKey64Len then TokenKeys.ofHalves .aes256 key
  else fail (.invalidTokenKeyLength key.length)

/-- The ciphers in CBC mode and the keyed hash, third-party code. A cipher is set up with a key and an
initialization vector and rewrites whole blocks in place; it says whether it could, and leaves a buffer
of the same length in either case. The keyed hash refuses a key that it cannot use. -/
structure TokenPrimitives where
  encryptCbc : TokenKeyKind → (key iv : List UInt8) → (n : ℕ) → ByteArrayN n → Bool × ByteArrayN n
  decryptCbc : TokenKeyKind → (key iv : List UInt8) → (n : ℕ) → ByteArrayN n → Bool × ByteArrayN n
  hmacSha256 : (key message : List UInt8) → Option (ByteArrayN 32)

/-- Run a cipher on the buffer. -/
def cbcInPlace (cipher : (n : ℕ) → ByteArrayN n → Bool × ByteArrayN n) :
    BufferM RnsCryptoError Unit := fun buffer =>
  let (success, buffer') := cipher buffer.length ⟨buffer, rfl⟩
  if success then .ok () buffer'.toList else .error (.error .cipherFailed) buffer'.toList

/-- `debug_assert!(holds)`. -/
def debugAssert (holds : Prop) [Decidable holds] : Outcome RnsCryptoError Unit :=
  if holds then .ok () else .error .panic

def tokenLenForCiphertext (ciphertextLen : ℕ) : Outcome RnsCryptoError ℕ :=
  checkedLen rnsTokenOverhead ciphertextLen

section

variable (crypto : TokenPrimitives)

def encryptCbc (keys : TokenKeys) (iv : List UInt8) (messageLen : ℕ) : BufferM RnsCryptoError Unit := do
  let buffer ← get
  (rejectIf (buffer.length < messageLen) .cipherFailed).lift
  within 0 messageLen (cbcInPlace (crypto.encryptCbc keys.kind keys.encryptionKey.toList iv))

def decryptCbc (keys : TokenKeys) (iv : List UInt8) : BufferM RnsCryptoError Unit :=
  cbcInPlace (crypto.decryptCbc keys.kind keys.encryptionKey.toList iv)

def hmacSha256 (key message : List UInt8) : Outcome RnsCryptoError (ByteArrayN rnsTokenHmacLen) :=
  match crypto.hmacSha256 key message with
  | some tag => .ok tag
  | none => fail .cipherFailed

def verifyHmacSha256 (key message tag : List UInt8) : Outcome RnsCryptoError Unit :=
  match crypto.hmacSha256 key message with
  | some expected => rejectIf (tag ≠ expected.toList) .authenticationFailed
  | none => fail .cipherFailed

def tokenEncryptWithIv (key plaintext : List UInt8) (iv : ByteArrayN rnsTokenIvLen) :
    BufferM RnsCryptoError ℕ := do
  let keys ← (TokenKeys.split key).lift
  let ciphertextLen ← (pkcs7PaddedLen plaintext.length).lift
  let required ← (tokenLenForCiphertext ciphertextLen).lift
  let out ← get
  (rejectIf (out.length < required) (.outputBufferTooShort out.length required)).lift
  copyInto 0 rnsTokenIvLen iv.toList
  let ciphertextEnd ← (addUsize rnsTokenIvLen ciphertextLen).lift
  let paddedLen ← within rnsTokenIvLen ciphertextEnd (pkcs7Pad plaintext)
  (debugAssert (paddedLen = ciphertextLen)).lift
  within rnsTokenIvLen ciphertextEnd (encryptCbc crypto keys iv.toList ciphertextLen)
  let out ← get
  let message ← (slice out 0 ciphertextEnd).lift
  let tag ← (hmacSha256 crypto keys.signingKey.toList message).lift
  copyInto ciphertextEnd required tag.toList
  return required

def tokenEncrypt (key plaintext : List UInt8) (rng : TryRng) : BufferM RnsCryptoError ℕ :=
  match rng rnsTokenIvLen with
  | some iv => tokenEncryptWithIv crypto key plaintext iv
  | none => (fail .randomSourceFailed).lift

/-- The part of `token_decrypt` that writes. -/
def decryptInto (keys : TokenKeys) (iv ciphertext : List UInt8) (ciphertextLen : ℕ) :
    BufferM RnsCryptoError ℕ := do
  copyInto 0 ciphertextLen ciphertext
  onError (within 0 ciphertextLen (decryptCbc crypto keys iv)) (fill 0 ciphertextLen 0)
  let out ← get
  let blocks ← (slice out 0 ciphertextLen).lift
  let plaintext ← onError (pkcs7Unpad blocks).lift (fill 0 ciphertextLen 0)
  fill plaintext.length ciphertextLen 0
  return plaintext.length

def tokenDecrypt (key token : List UInt8) : BufferM RnsCryptoError ℕ := do
  let keys ← (TokenKeys.split key).lift
  (rejectIf (token.length ≤ rnsTokenOverhead) .invalidToken).lift
  let ciphertextLen ← (subUsize token.length rnsTokenOverhead).lift
  (rejectIf (ciphertextLen % rnsTokenIvLen ≠ 0) .invalidToken).lift
  let tagStart ← (subUsize token.length rnsTokenHmacLen).lift
  let message ← (slice token 0 tagStart).lift
  let tag ← (slice token tagStart token.length).lift
  (verifyHmacSha256 crypto keys.signingKey.toList message tag).lift
  let out ← get
  (rejectIf (out.length < ciphertextLen) (.outputBufferTooShort out.length ciphertextLen)).lift
  let iv ← (slice token 0 rnsTokenIvLen).lift
  let ciphertext ← (slice token rnsTokenIvLen tagStart).lift
  decryptInto crypto keys iv ciphertext ciphertextLen

end

end Hyf.Rns
