import Hyf.Rns.Packet
import Mathlib.Logic.Equiv.Basic

/-!
# Identities and signatures (`hyf_rns_crypto`)

SHA-256, the curves and the key derivation are third-party code, the fields of `Primitives`. What the
source builds on them is modelled: public identities and their bytes, the hash of an identity, signing
and verifying, and the key derivation with its checks.
-/

namespace Hyf.Rns

open ByteCodec BufferM

/-- The errors of the crate. -/
inductive RnsCryptoError where
  | invalidPublicIdentity
  | invalidSecretIdentity
  | invalidSignature
  | emptyHkdfOutput
  | emptyHkdfInputKeyMaterial
  | invalidHkdfLength
  | lengthOverflow
  | outputBufferTooShort (actual required : ℕ)
  | invalidPadding
  | invalidToken
  | invalidTokenKeyLength (actual : ℕ)
  | authenticationFailed
  | randomSourceFailed
  | cipherFailed
  deriving DecidableEq

/-- `map_crypto_error` of the announce and of the access code. -/
def mapCryptoError : RnsCryptoError → RnsWireError
  | .invalidPublicIdentity => .invalidPublicIdentity
  | .invalidSecretIdentity | .invalidSignature => .invalidSignature
  | _ => .cryptoFailed

/-- The third-party code: hashing, deriving public keys, checking the encoding of a verifying key,
signing, verifying, and the bytes that HKDF over SHA-256 derives from a salt, a key, a context and
a length. -/
structure Primitives where
  sha256 : List UInt8 → ByteArrayN 32
  x25519Public : ByteArrayN 32 → ByteArrayN 32
  verifyingKey : ByteArrayN 32 → ByteArrayN 32
  isVerifyingKey : ByteArrayN 32 → Bool
  sign : ByteArrayN 32 → List UInt8 → ByteArrayN 64
  verify : ByteArrayN 32 → List UInt8 → ByteArrayN 64 → Bool
  expand : (salt inputKey context : List UInt8) → (len : ℕ) → ByteArrayN len

/-- The public keys of an identity. -/
structure RnsPublicIdentity where
  x25519Public : ByteArrayN 32
  ed25519Public : ByteArrayN 32
  deriving DecidableEq

/-- The secret keys of an identity. -/
structure RnsSecretIdentity where
  x25519Secret : ByteArrayN 32
  ed25519Secret : ByteArrayN 32
  deriving DecidableEq

section

variable (crypto : Primitives)

def RnsSecretIdentity.publicIdentity (secret : RnsSecretIdentity) : RnsPublicIdentity where
  x25519Public := crypto.x25519Public secret.x25519Secret
  ed25519Public := crypto.verifyingKey secret.ed25519Secret

def publicIdentityFromBytes (bytes : ByteArrayN 64) : Except RnsCryptoError RnsPublicIdentity :=
  let x25519Public : ByteArrayN 32 := ⟨bytes.toList.take 32, by simp⟩
  let ed25519Public : ByteArrayN 32 := ⟨bytes.toList.drop 32, by simp⟩
  if crypto.isVerifyingKey ed25519Public then .ok ⟨x25519Public, ed25519Public⟩
  else .error .invalidPublicIdentity

def publicIdentityToBytes (identity : RnsPublicIdentity) : ByteArrayN 64 :=
  ⟨identity.x25519Public.toList ++ identity.ed25519Public.toList, by simp⟩

def truncatedHash (data : List UInt8) : ByteArrayN rnsTruncatedHashLen :=
  ⟨(crypto.sha256 data).toList.take rnsTruncatedHashLen, by simp [rnsTruncatedHashLen]⟩

def identityHash (identity : RnsPublicIdentity) : ByteArrayN rnsTruncatedHashLen :=
  truncatedHash crypto (publicIdentityToBytes identity).toList

def sign (identity : RnsSecretIdentity) (message : List UInt8) :
    Except RnsCryptoError (ByteArrayN 64) :=
  .ok (crypto.sign identity.ed25519Secret message)

def verify (identity : RnsPublicIdentity) (message : List UInt8) (signature : ByteArrayN 64) :
    Except RnsCryptoError Unit :=
  if ¬crypto.isVerifyingKey identity.ed25519Public then .error .invalidPublicIdentity
  else if crypto.verify identity.ed25519Public message signature then .ok ()
  else .error .invalidSignature

/-- `rns_hkdf_sha256` on the first `len` bytes of a slice. -/
def rnsHkdfSha256 (len : ℕ) (inputKeyMaterial : List UInt8) (salt context : Option (List UInt8)) :
    BufferM RnsCryptoError Unit := do
  (rejectIf (len = 0) .emptyHkdfOutput).lift
  (rejectIf (inputKeyMaterial = []) .emptyHkdfInputKeyMaterial).lift
  let salt := match salt with
    | none | some [] => List.replicate 32 0
    | some salt => salt
  -- the derivation is defined up to 255 blocks of the hash
  (rejectIf (255 * 32 < len) .invalidHkdfLength).lift
  copyInto 0 len (crypto.expand salt inputKeyMaterial (context.getD []) len).toList

end

/-! ## What the primitives promise -/

/-- What a signing key signs is accepted under the key derived from it, which is a valid key. -/
structure Primitives.Accepts (crypto : Primitives) : Prop where
  isVerifyingKey : ∀ secret, crypto.isVerifyingKey (crypto.verifyingKey secret) = true
  verify : ∀ secret message,
    crypto.verify (crypto.verifyingKey secret) message (crypto.sign secret message) = true

theorem sign_eq (crypto : Primitives) (identity : RnsSecretIdentity) (message : List UInt8) :
    sign crypto identity message = .ok (crypto.sign identity.ed25519Secret message) := rfl

/-- The derived bytes are put at the start of the slice. -/
theorem run_rnsHkdfSha256 {crypto : Primitives} {salt inputKeyMaterial : List UInt8} (hsalt : salt ≠ [])
    (hinput : inputKeyMaterial ≠ []) {len : ℕ} (hpos : 0 < len) (hlen : len ≤ 255 * 32)
    {output : List UInt8} (hroom : len ≤ output.length) :
    rnsHkdfSha256 crypto len inputKeyMaterial (some salt) none output =
      .ok () ((crypto.expand salt inputKeyMaterial [] len).toList ++ output.drop len) := by
  have hcopy := @run_copyInto_front RnsCryptoError _ _ _
    (crypto.expand salt inputKeyMaterial [] len).toList_length hroom
  obtain ⟨byte, bytes, rfl⟩ := List.exists_cons_of_ne_nil hsalt
  rw [rnsHkdfSha256, Outcome.lift_bind (rejectIf_eq_ok hpos.ne'),
    Outcome.lift_bind (rejectIf_eq_ok hinput), Outcome.lift_bind (rejectIf_eq_ok (not_lt.mpr hlen))]
  · exact hcopy
  · exact hsalt

/-- A public identity with a valid key survives the trip through its bytes. -/
theorem publicIdentityFromBytes_toBytes {crypto : Primitives} {identity : RnsPublicIdentity}
    (h : crypto.isVerifyingKey identity.ed25519Public = true) :
    publicIdentityFromBytes crypto (publicIdentityToBytes identity) = .ok identity := by
  have hx : (identity.x25519Public.toList ++ identity.ed25519Public.toList).take 32 =
      identity.x25519Public.toList := List.take_left' identity.x25519Public.toList_length
  have hed : (identity.x25519Public.toList ++ identity.ed25519Public.toList).drop 32 =
      identity.ed25519Public.toList := List.drop_left' identity.x25519Public.toList_length
  have hbytes : (publicIdentityToBytes identity).toList =
      identity.x25519Public.toList ++ identity.ed25519Public.toList := rfl
  simp only [publicIdentityFromBytes, hbytes, hx, hed, List.Vector.mk_toList]
  rw [if_pos h]

/-! ## Known values

What SHA-256, X25519, Ed25519 and HKDF give for one identity on the inputs of the examples.
-/

/-- The bytes that a numeral spells. -/
def spelled (n value : ℕ) : ByteArrayN n := ⟨toBe n value, length_toBe n value⟩

def sampleIdentity : RnsSecretIdentity := ⟨fillBytes 32 1, fillBytes 32 2⟩

/-- The public key for the agreement of the sample identity. -/
def sampleX25519Public : ByteArrayN 32 :=
  spelled 32 0xa4e09292b651c278b9772c569f5fa9bb13d906b46ab68c9df9dc2b4409f8a209

/-- The public key for the signatures of the sample identity. -/
def sampleVerifyingKey : ByteArrayN 32 :=
  spelled 32 0x8139770ea87d175f56a35466c34c7ecccb8d8a91b4ee37a25df60f5b8fc9b394

/-- SHA-256 of the public identity. -/
def sampleIdentityHash : ByteArrayN 32 :=
  spelled 32 0x7a3dba479539b74cb177c61c70940d082c68b391074832538decfceac7864738

/-- SHA-256 of the name `chat.one`. -/
def sampleNameHash : ByteArrayN 32 :=
  spelled 32 0x8a51970768c0e89039108bc2b790bfc4b806f5f72db8a786c22c5b6fda1a9092

/-- SHA-256 of the starts of the two hashes. -/
def sampleDestinationHash : ByteArrayN 32 :=
  spelled 32 0xdfbfad49bd6f95110b1aad839c845107d63d4f3224f04c8c3323ac79a03aa91f

/-- Five random bytes and a time. -/
def sampleRandomHash : ByteArrayN 10 :=
  spelled 10 (0x0707070707 * 2 ^ 40 + 1700000000)

/-- What an announce of the destination with these application data signs. -/
def sampleSignedData (appData : List UInt8) : List UInt8 :=
  sampleDestinationHash.toList.take 16 ++ sampleX25519Public.toList ++ sampleVerifyingKey.toList ++
    sampleNameHash.toList.take 10 ++ sampleRandomHash.toList ++ appData

/-- The signature of the identity on two announces and on a short packet. -/
def sampleSignature (message : List UInt8) : ByteArrayN 64 :=
  spelled 64 (
    if message = sampleSignedData [1, 2] then
      0xb90f9fa98c6a1b1e2d76b523180fb06fe009b151837eb69918f790a9dbd57930 * 2 ^ 256 +
        0x02fed484318a88790784dcb11769b460817b07bcf99264cfe048f3915a55880d
    else if message = sampleSignedData (List.replicate 32 5) then
      0x96dd24c666fca96cde8806917e68ed1c9594979139cf02ebf668ddc70dc21e48 * 2 ^ 256 +
        0x58236a4ef2249dd5618cfaecfd77f3d2fa06e0bc5093685577d20153d8fc700f
    else if message = [1, 2, 3, 4] then
      0xd6d94713526434588547d7b8139d70e271b0ec27b10cb5fe65e97af528f65c80 * 2 ^ 256 +
        0x7853e08697da5c89302fc05983c7ced89729fd4e7cb244a2efa7ea8754a00303
    else 0)

/-- The primitives as tables of these values. -/
def samplePrimitives : Primitives where
  sha256 data :=
    if data = sampleX25519Public.toList ++ sampleVerifyingKey.toList then sampleIdentityHash
    else if data = [0x63, 0x68, 0x61, 0x74, 0x2e, 0x6f, 0x6e, 0x65] then sampleNameHash
    else if data = sampleNameHash.toList.take 10 ++ sampleIdentityHash.toList.take 16 then
      sampleDestinationHash
    else if data = [0x61, 0x70, 0x70, 0x2e] then
      spelled 32 0x1ef4a5d1b64f7326ee4ca361e4cb36eb75cf3399cefaceeead2115cb79279209
    else fillBytes 32 0
  x25519Public := Equiv.swap sampleIdentity.x25519Secret sampleX25519Public
  verifyingKey := Equiv.swap sampleIdentity.ed25519Secret sampleVerifyingKey
  isVerifyingKey _ := true
  sign secret message :=
    if secret = sampleIdentity.ed25519Secret then sampleSignature message else fillBytes 64 0
  verify key message signature :=
    signature = if key = sampleVerifyingKey then sampleSignature message else fillBytes 64 0
  expand salt inputKey _ len :=
    -- the mask of the short packet under an access key
    if salt = [7] ∧ inputKey = toBe 8 0xefa7ea8754a00303 ∧ len = 12 then
      spelled len 0xae3263cc0e8efabd527e91b7
    else fillBytes len 0

/-- Every signature is accepted with the key that belongs to its secret. -/
theorem samplePrimitives_accepts : samplePrimitives.Accepts where
  isVerifyingKey _ := rfl
  verify secret message := by
    have hkey : samplePrimitives.verifyingKey secret = sampleVerifyingKey ↔
        secret = sampleIdentity.ed25519Secret := by
      show Equiv.swap sampleIdentity.ed25519Secret sampleVerifyingKey secret = _ ↔ _
      rw [Equiv.swap_apply_eq_iff, Equiv.swap_apply_right]
    apply decide_eq_true
    show (if secret = _ then _ else _) = if samplePrimitives.verifyingKey secret = _ then _ else _
    simp only [hkey]

end Hyf.Rns
