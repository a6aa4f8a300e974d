import Hyf.Rns.TokenTheorems

/-!
# Single packets (`hyf_rns_crypto`)

A packet to an identity is a token behind an ephemeral public key; the key of the token is derived from
what the ephemeral key and the key of the recipient agree on. The recipient tries its ratchets in order
and then, unless ratchets are enforced, its identity key. All attempts share the caller's output:
`decryptForIdentity_eq` puts them in a row, and `decryptFirst_eq` says which of them decides.
-/

namespace Hyf.Rns

open ByteCodec BufferM

def rnsSinglePacketEphemeralPublicLen : ℕ := 32
def rnsSinglePacketDerivedKeyLen : ℕ := 64

structure RnsRatchetSecretRef where
  secret : ByteArrayN 32
  deriving DecidableEq

structure RnsDecryptOutcome where
  plaintext : List UInt8
  ratchetIndex : Option ℕ
  deriving DecidableEq

/-- The key agreement, third-party code: what a secret and a public key agree on, and whether both
contributed to it. -/
structure KeyAgreement where
  diffieHellman : (secret publicKey : ByteArrayN 32) → ByteArrayN 32
  wasContributory : ByteArrayN 32 → Bool

section

variable (crypto : Primitives) (agreement : KeyAgreement) (tokens : TokenPrimitives)

def deriveTokenKey (shared : ByteArrayN 32) (recipient : RnsPublicIdentity) :
    Outcome RnsCryptoError (List UInt8) := do
  rejectIf (agreement.wasContributory shared = false) .invalidPublicIdentity
  let salt := identityHash crypto recipient
  let (_, key) ← runOn (rnsHkdfSha256 crypto rnsSinglePacketDerivedKeyLen shared.toList
    (some salt.toList) none) (List.replicate rnsSinglePacketDerivedKeyLen 0)
  return key

def singlePacketLenForPlaintext (plaintextLen : ℕ) : Outcome RnsCryptoError ℕ := do
  let tokenCiphertextLen ← pkcs7PaddedLen plaintextLen
  let tokenLen ← checkedLen rnsTokenOverhead tokenCiphertextLen
  checkedLen rnsSinglePacketEphemeralPublicLen tokenLen

def encryptWithSecret (recipient : RnsPublicIdentity) (plaintext : List UInt8)
    (ephemeralSecret : ByteArrayN 32)
    (tokenEncryptor : (key plaintext : List UInt8) → BufferM RnsCryptoError ℕ) :
    BufferM RnsCryptoError ℕ := do
  let required ← (singlePacketLenForPlaintext plaintext.length).lift
  let out ← get
  (rejectIf (out.length < required) (.outputBufferTooShort out.length required)).lift
  let ephemeralPublic := crypto.x25519Public ephemeralSecret
  let shared := agreement.diffieHellman ephemeralSecret recipient.x25519Public
  let key ← (deriveTokenKey crypto agreement shared recipient).lift
  copyInto 0 rnsSinglePacketEphemeralPublicLen ephemeralPublic.toList
  let tokenLen ← within rnsSinglePacketEphemeralPublicLen required (tokenEncryptor key plaintext)
  (addUsize rnsSinglePacketEphemeralPublicLen tokenLen).lift

def encryptForIdentity (recipient : RnsPublicIdentity) (plaintext : List UInt8) (rng : TryRng) :
    BufferM RnsCryptoError ℕ :=
  match rng 32 with
  | some ephemeralSecret => encryptWithSecret crypto agreement recipient plaintext ephemeralSecret
      fun key plaintext => tokenEncrypt tokens key plaintext rng
  | none => (fail .randomSourceFailed).lift

def parseEphemeralPublic (ciphertextToken : List UInt8) : Outcome RnsCryptoError (ByteArrayN 32) := do
  let bytes ← slice ciphertextToken 0 rnsSinglePacketEphemeralPublicLen
  toArray 32 bytes

def decryptWithSecretLen (secret : ByteArrayN 32) (recipient : RnsPublicIdentity)
    (ephemeralPublic : ByteArrayN 32) (token : List UInt8) : BufferM RnsCryptoError ℕ := do
  let shared := agreement.diffieHellman secret ephemeralPublic
  let key ← (deriveTokenKey crypto agreement shared recipient).lift
  tokenDecrypt tokens key token

/-- One attempt of `decrypt_for_identity`, with the outcome for its secret. -/
def decryptWithSecret (recipient : RnsPublicIdentity) (ephemeralPublic : ByteArrayN 32)
    (token : List UInt8) (secret : ByteArrayN 32) (ratchetIndex : Option ℕ) :
    BufferM RnsCryptoError RnsDecryptOutcome := do
  let plaintextLen ← decryptWithSecretLen crypto agreement tokens secret recipient ephemeralPublic token
  let out ← get
  let plaintext ← (slice out 0 plaintextLen).lift
  return ⟨plaintext, ratchetIndex⟩

/-- `match attempt { Err(AuthenticationFailed) => {} result => return result }`. -/
def orNext {α : Type} (attempt next : BufferM RnsCryptoError α) : BufferM RnsCryptoError α := fun out =>
  match attempt out with
  | .error (.error .authenticationFailed) out => next out
  | result => result

/-- The loop over the ratchets, which `next` follows. -/
def decryptWithRatchets (recipient : RnsPublicIdentity) (ephemeralPublic : ByteArrayN 32)
    (token : List UInt8) (next : BufferM RnsCryptoError RnsDecryptOutcome) :
    (ratchets : List RnsRatchetSecretRef) → (index : ℕ) → BufferM RnsCryptoError RnsDecryptOutcome
  | [], _ => next
  | ratchet :: ratchets, index =>
    orNext (decryptWithSecret crypto agreement tokens recipient ephemeralPublic token ratchet.secret
      (some index))
      (decryptWithRatchets recipient ephemeralPublic token next ratchets (index + 1))

def decryptForIdentity (recipient : RnsSecretIdentity) (ciphertextToken : List UInt8)
    (ratchets : List RnsRatchetSecretRef) (enforceRatchets : Bool) :
    BufferM RnsCryptoError RnsDecryptOutcome := do
  (rejectIf (ciphertextToken.length ≤ rnsSinglePacketEphemeralPublicLen) .invalidToken).lift
  let recipientPublic := recipient.publicIdentity crypto
  let ephemeralPublic ← (parseEphemeralPublic ciphertextToken).lift
  let token ← (slice ciphertextToken rnsSinglePacketEphemeralPublicLen ciphertextToken.length).lift
  let identityAttempt :=
    if enforceRatchets then (fail .authenticationFailed).lift
    else decryptWithSecret crypto agreement tokens recipientPublic ephemeralPublic token
      recipient.x25519Secret none
  decryptWithRatchets crypto agreement tokens recipientPublic ephemeralPublic token identityAttempt
    ratchets 0

end

end Hyf.Rns
