import Hyf.Rns.Token
import Mathlib.Logic.Equiv.Basic

/-!
# What tokens carry (`hyf_rns_crypto`)

`tokenDecrypt_cases` says what a call leaves in the output, whatever the key and the token, and
`exists_token` that a text under a key comes back. Both take the token apart at its fields; with the
blocks in the output, `decryptInto_of_decrypted` reduces the rest to their padding.
-/

namespace Hyf.Rns

open ByteCodec BufferM

/-! ## Keys -/

/-- A key of twice the length has two halves. -/
theorem TokenKeys.exists_ofHalves {kind : TokenKeyKind} {key : List UInt8}
    (h : key.length = 2 * kind.keyLen) :
    ∃ keys, TokenKeys.ofHalves kind key = .ok keys ∧
      keys.signingKey.toList ++ keys.encryptionKey.toList = key := by
  have hsigning : (key.take kind.keyLen).length = kind.keyLen := by
    rw [List.length_take]
    omega
  have hencryption : (key.drop kind.keyLen).length = kind.keyLen := by
    rw [List.length_drop]
    omega
  refine ⟨⟨kind, ⟨_, hsigning⟩, ⟨_, hencryption⟩⟩, ?_, List.take_append_drop _ key⟩
  rw [TokenKeys.ofHalves, Outcome.bind_eq (slice_take (by omega)),
    Outcome.bind_eq (toArray_eq_ok hsigning), Outcome.bind_eq (slice_drop (by omega)),
    Outcome.bind_eq (toArray_eq_ok hencryption)]
  rfl

/-- A key of 32 or 64 bytes is split. -/
theorem TokenKeys.exists_split {key : List UInt8} (h : key.length = 32 ∨ key.length = 64) :
    ∃ keys, TokenKeys.split key = .ok keys ∧
      keys.signingKey.toList ++ keys.encryptionKey.toList = key := by
  obtain hlen | hlen := h
  · rw [TokenKeys.split, tokenKey32Len, if_pos hlen]
    exact exists_ofHalves hlen
  · have hne : ¬key.length = 32 := by omega
    rw [TokenKeys.split, tokenKey32Len, tokenKey64Len, if_neg hne, if_pos hlen]
    exact exists_ofHalves hlen

/-- No other key is. -/
theorem TokenKeys.split_eq_fail {key : List UInt8} (h : ¬(key.length = 32 ∨ key.length = 64)) :
    TokenKeys.split key = fail (.invalidTokenKeyLength key.length) := by
  rw [not_or] at h
  rw [TokenKeys.split, tokenKey32Len, tokenKey64Len, if_neg h.1, if_neg h.2]

/-! ## Taking a token apart -/

section

variable {crypto : TokenPrimitives} {keys : TokenKeys} {iv ciphertext middle : List UInt8}
  (rest : List UInt8)

/-- A cipher that fails leaves zeros. -/
theorem decryptInto_of_failed (hlen : middle.length = ciphertext.length)
    (h : (crypto.decryptCbc keys.kind keys.encryptionKey.toList iv _ ⟨ciphertext, rfl⟩).1 = false) :
    decryptInto crypto keys iv ciphertext ciphertext.length (middle ++ rest) =
      .error (.error .cipherFailed) (List.replicate ciphertext.length 0 ++ rest) := by
  obtain ⟨⟨success, blocks⟩, hcipher⟩ : ∃ result,
      crypto.decryptCbc keys.kind keys.encryptionKey.toList iv _ ⟨ciphertext, rfl⟩ = result := ⟨_, rfl⟩
  rw [hcipher] at h
  have hrun : decryptCbc crypto keys iv ciphertext =
      .error (.error .cipherFailed) blocks.toList := by
    simp only [decryptCbc, cbcInPlace, hcipher, h]
    rfl
  have hclean := run_onError_error (run_within_start_error rest rfl hrun)
    (run_fill_start rest blocks.toList_length 0)
  rw [decryptInto, run_bind_of_ok (run_copyInto_start rest hlen hlen.symm), run_bind_of_error hclean,
    blocks.toList_length]

/-- With the blocks in the output, the rest depends on their padding. -/
theorem decryptInto_of_decrypted (hlen : middle.length = ciphertext.length)
    {blocks : ByteArrayN ciphertext.length}
    (h : crypto.decryptCbc keys.kind keys.encryptionKey.toList iv _ ⟨ciphertext, rfl⟩ =
      (true, blocks)) {result : EStateM.Result (Fault RnsCryptoError) (List UInt8) ℕ}
    (hresult : (do
      let plaintext ← onError (pkcs7Unpad blocks.toList).lift (fill 0 ciphertext.length 0)
      fill plaintext.length ciphertext.length 0
      return plaintext.length) (blocks.toList ++ rest) = result) :
    decryptInto crypto keys iv ciphertext ciphertext.length (middle ++ rest) = result := by
  have hrun : decryptCbc crypto keys iv ciphertext = .ok () blocks.toList := by
    simp only [decryptCbc, cbcInPlace, h]
    rfl
  have hdecrypt := run_onError_ok (run_within_start rest rfl hrun)
    (fill 0 ciphertext.length 0)
  have hblocks : (slice (blocks.toList ++ rest) 0 ciphertext.length :
      Outcome RnsCryptoError (List UInt8)) = .ok blocks.toList := slice_left blocks.toList_length
  rw [decryptInto, run_bind_of_ok (run_copyInto_start rest hlen hlen.symm), run_bind_of_ok hdecrypt,
    run_get_bind, Outcome.lift_bind hblocks, hresult]

/-- A text whose padding is wrong is cleared from the output. -/
theorem decryptInto_of_invalidPadding (hlen : middle.length = ciphertext.length)
    {blocks : ByteArrayN ciphertext.length}
    (h : crypto.decryptCbc keys.kind keys.encryptionKey.toList iv _ ⟨ciphertext, rfl⟩ =
      (true, blocks)) {error : RnsCryptoError} (hpadding : pkcs7Unpad blocks.toList = fail error) :
    decryptInto crypto keys iv ciphertext ciphertext.length (middle ++ rest) =
      .error (.error error) (List.replicate ciphertext.length 0 ++ rest) := by
  apply decryptInto_of_decrypted rest hlen h
  have hunpad : (pkcs7Unpad blocks.toList).lift (blocks.toList ++ rest) =
      .error (.error error) (blocks.toList ++ rest) := by
    rw [hpadding]
    rfl
  have hclean := run_onError_error hunpad (run_fill_start rest blocks.toList_length 0)
  rw [run_bind_of_error hclean, blocks.toList_length]

/-- A text whose padding is right stays, and the padding is cleared. -/
theorem decryptInto_of_padded (hlen : middle.length = ciphertext.length)
    {blocks : ByteArrayN ciphertext.length}
    (h : crypto.decryptCbc keys.kind keys.encryptionKey.toList iv _ ⟨ciphertext, rfl⟩ =
      (true, blocks)) {plaintext : List UInt8} (hpadding : blocks.toList = padded plaintext) :
    decryptInto crypto keys iv ciphertext ciphertext.length (middle ++ rest) =
      .ok plaintext.length
        (plaintext ++ List.replicate (ciphertext.length - plaintext.length) 0 ++ rest) := by
  apply decryptInto_of_decrypted rest hlen h
  have hunpad : (pkcs7Unpad blocks.toList).lift (blocks.toList ++ rest) =
      .ok plaintext (blocks.toList ++ rest) := by
    rw [hpadding, pkcs7Unpad_padded]
    rfl
  have hsum := congrArg List.length hpadding
  rw [blocks.toList_length, padded, List.length_append] at hsum
  have hfill := @run_fill RnsCryptoError plaintext _ rest _ _ rfl hsum.symm 0
  rw [← padded, ← hpadding, List.length_replicate] at hfill
  have hcount : ciphertext.length - plaintext.length = paddingLen plaintext.length := by
    rw [List.length_replicate] at hsum
    omega
  rw [run_bind_of_ok (run_onError_ok hunpad _), run_bind_of_ok hfill, hcount]
  rfl

/-- What is left in the output: the text, or zeros. -/
theorem decryptInto_cases (crypto : TokenPrimitives) (keys : TokenKeys) (iv ciphertext : List UInt8)
    {output : List UInt8} (hroom : ciphertext.length ≤ output.length) :
    (∃ plaintext, plaintext.length ≤ ciphertext.length ∧
      decryptInto crypto keys iv ciphertext ciphertext.length output = .ok plaintext.length
        (plaintext ++ List.replicate (ciphertext.length - plaintext.length) 0 ++
          output.drop ciphertext.length)) ∨
    ∃ error, (error = .cipherFailed ∨ error = .invalidPadding) ∧
      decryptInto crypto keys iv ciphertext ciphertext.length output = .error (.error error)
        (List.replicate ciphertext.length 0 ++ output.drop ciphertext.length) := by
  have hlen : (output.take ciphertext.length).length = ciphertext.length := by
    rw [List.length_take]
    omega
  have houtput := List.take_append_drop ciphertext.length output
  obtain ⟨⟨success, blocks⟩, hcipher⟩ : ∃ result,
      crypto.decryptCbc keys.kind keys.encryptionKey.toList iv _ ⟨ciphertext, rfl⟩ = result := ⟨_, rfl⟩
  cases success with
  | false =>
    have hrun := decryptInto_of_failed (output.drop ciphertext.length) hlen
      (congrArg Prod.fst hcipher)
    rw [houtput] at hrun
    exact .inr ⟨_, .inl rfl, hrun⟩
  | true =>
    have hends := (ends_pkcs7Unpad blocks.toList).with_eq
    cases hunpad : pkcs7Unpad blocks.toList with
    | ok plaintext =>
      have hpadding := (ends_pkcs7Unpad blocks.toList).of_ok hunpad
      have hrun := decryptInto_of_padded (output.drop ciphertext.length) hlen hcipher hpadding
      have hle := congrArg List.length hpadding
      rw [blocks.toList_length, padded, List.length_append] at hle
      rw [houtput] at hrun
      exact .inl ⟨plaintext, by omega, hrun⟩
    | error fault =>
      rw [hunpad] at hends
      cases fault with
      | panic => exact hends.elim
      | error error =>
        have hrun := decryptInto_of_invalidPadding (output.drop ciphertext.length) hlen
          hcipher hunpad
        rw [houtput] at hrun
        exact .inr ⟨error, .inr (reports_pkcs7Unpad _ error hunpad), hrun⟩

/-- The last bytes of the token are the tag of the bytes before them. -/
def Authenticates (crypto : TokenPrimitives) (signingKey token : List UInt8) : Prop :=
  (crypto.hmacSha256 signingKey (token.take (token.length - 32))).map List.Vector.toList =
    some (token.drop (token.length - 32))

instance (crypto : TokenPrimitives) (signingKey token : List UInt8) :
    Decidable (Authenticates crypto signingKey token) :=
  inferInstanceAs (Decidable (Option.map _ _ = some _))

section

variable {signingKey key token : List UInt8}

/-- An authentic token passes. -/
theorem verifyHmacSha256_eq_ok (h : Authenticates crypto signingKey token) :
    verifyHmacSha256 crypto signingKey (token.take (token.length - 32))
      (token.drop (token.length - 32)) = .ok () := by
  obtain ⟨tag, htag, hdrop⟩ := Option.map_eq_some_iff.mp h
  rw [verifyHmacSha256, htag]
  exact rejectIf_eq_ok (not_not.mpr hdrop.symm)

/-- A token whose code is another one fails. -/
theorem verifyHmacSha256_eq_fail (h : ¬Authenticates crypto signingKey token)
    (hhmac : (crypto.hmacSha256 signingKey (token.take (token.length - 32))).isSome) :
    verifyHmacSha256 crypto signingKey (token.take (token.length - 32))
      (token.drop (token.length - 32)) = fail .authenticationFailed := by
  obtain ⟨tag, htag⟩ := Option.isSome_iff_exists.mp hhmac
  rw [verifyHmacSha256, htag]
  apply rejectIf_eq_fail
  intro hdrop
  apply h
  rw [Authenticates, htag, hdrop]
  rfl

/-- A token that is not authentic fails. -/
theorem exists_verifyHmacSha256_eq_fail (h : ¬Authenticates crypto signingKey token) :
    ∃ error, verifyHmacSha256 crypto signingKey (token.take (token.length - 32))
      (token.drop (token.length - 32)) = fail error := by
  cases hhmac : crypto.hmacSha256 signingKey (token.take (token.length - 32)) with
  | none => exact ⟨.cipherFailed, by rw [verifyHmacSha256, hhmac]⟩
  | some tag => exact ⟨_, verifyHmacSha256_eq_fail h (Option.isSome_of_eq_some hhmac)⟩

/-- Before its tag, a token is checked for its length. -/
theorem tokenDecrypt_eq (hkeys : TokenKeys.split key = .ok keys) (hlen : 48 < token.length)
    (hblocks : (token.length - 48) % 16 = 0) :
    tokenDecrypt crypto key token = (do
      (verifyHmacSha256 crypto keys.signingKey.toList (token.take (token.length - 32))
        (token.drop (token.length - 32))).lift
      let out ← get
      (rejectIf (out.length < token.length - 48)
        (.outputBufferTooShort out.length (token.length - 48))).lift
      decryptInto crypto keys (token.take 16) ((token.take (token.length - 32)).drop 16)
        (token.length - 48)) := by
  have hlong : ¬token.length ≤ rnsTokenOverhead := not_le.mpr hlen
  have hlenSub : (subUsize token.length rnsTokenOverhead : Outcome RnsCryptoError ℕ) =
      .ok (token.length - 48) := subUsize_eq_ok hlen.le
  have hwhole : ¬(token.length - 48) % rnsTokenIvLen ≠ 0 := not_not.mpr hblocks
  have htagSub : (subUsize token.length rnsTokenHmacLen : Outcome RnsCryptoError ℕ) =
      .ok (token.length - 32) := subUsize_eq_ok (by rw [rnsTokenHmacLen]; omega)
  have hiv : (slice token 0 rnsTokenIvLen : Outcome RnsCryptoError (List UInt8)) =
      .ok (token.take 16) := slice_take (by rw [rnsTokenIvLen]; omega)
  have hciphertext : (slice token rnsTokenIvLen (token.length - 32) :
      Outcome RnsCryptoError (List UInt8)) = .ok ((token.take (token.length - 32)).drop 16) := by
    rw [slice_eq_ok (by rw [rnsTokenIvLen]; omega) (Nat.sub_le _ _), List.drop_take, rnsTokenIvLen]
  rw [tokenDecrypt, Outcome.lift_bind hkeys, Outcome.lift_bind (rejectIf_eq_ok hlong),
    Outcome.lift_bind hlenSub, Outcome.lift_bind (rejectIf_eq_ok hwhole), Outcome.lift_bind htagSub,
    Outcome.lift_bind (slice_take (Nat.sub_le _ _)), Outcome.lift_bind (slice_drop (Nat.sub_le _ _))]
  simp only [Outcome.lift_bind hiv, Outcome.lift_bind hciphertext]

/-- A token that is not authentic is refused before anything is written. -/
theorem tokenDecrypt_of_not_authentic (hkeys : TokenKeys.split key = .ok keys)
    (hlen : 48 < token.length) (hblocks : (token.length - 48) % 16 = 0)
    (hhmac : ∀ key message, (crypto.hmacSha256 key message).isSome)
    (h : ¬Authenticates crypto keys.signingKey.toList token) (output : List UInt8) :
    tokenDecrypt crypto key token output = .error (.error .authenticationFailed) output := by
  rw [tokenDecrypt_eq hkeys hlen hblocks,
    Outcome.run_lift_bind_fail (verifyHmacSha256_eq_fail h (hhmac _ _))]

/-- An authentic token is decrypted into every output with room for its blocks. -/
theorem tokenDecrypt_of_authentic (hkeys : TokenKeys.split key = .ok keys)
    (hlen : 48 < token.length) (hblocks : (token.length - 48) % 16 = 0)
    (h : Authenticates crypto keys.signingKey.toList token) {output : List UInt8}
    (hroom : token.length - 48 ≤ output.length) :
    tokenDecrypt crypto key token output = decryptInto crypto keys (token.take 16)
      ((token.take (token.length - 32)).drop 16) (token.length - 48) output := by
  rw [tokenDecrypt_eq hkeys hlen hblocks, Outcome.lift_bind (verifyHmacSha256_eq_ok h), run_get_bind,
    Outcome.lift_bind (rejectIf_eq_ok (not_lt.mpr hroom))]

/-- A buffer that is too short is left as it is. -/
theorem tokenDecrypt_of_short (hkeys : TokenKeys.split key = .ok keys)
    (hlen : 48 < token.length) (hblocks : (token.length - 48) % 16 = 0)
    (h : Authenticates crypto keys.signingKey.toList token) {output : List UInt8}
    (hshort : output.length < token.length - 48) :
    tokenDecrypt crypto key token output =
      .error (.error (.outputBufferTooShort output.length (token.length - 48))) output := by
  rw [tokenDecrypt_eq hkeys hlen hblocks, Outcome.lift_bind (verifyHmacSha256_eq_ok h), run_get_bind,
    Outcome.run_lift_bind_fail (rejectIf_eq_fail hshort)]

/-- Behind the authentication, no error is one of authentication. -/
theorem tokenDecrypt_ne_authenticationFailed (hkeys : TokenKeys.split key = .ok keys)
    (hlen : 48 < token.length) (hblocks : (token.length - 48) % 16 = 0)
    (h : Authenticates crypto keys.signingKey.toList token) (output output' : List UInt8) :
    tokenDecrypt crypto key token output ≠ .error (.error .authenticationFailed) output' := by
  intro hfailed
  by_cases hroom : token.length - 48 ≤ output.length
  · have hciphertext : ((token.take (token.length - 32)).drop 16).length = token.length - 48 := by
      rw [List.length_drop, List.length_take]
      omega
    rw [tokenDecrypt_of_authentic hkeys hlen hblocks h hroom] at hfailed
    obtain ⟨plaintext, -, hrun⟩ | ⟨error, herror, hrun⟩ := decryptInto_cases crypto keys
      (token.take 16) ((token.take (token.length - 32)).drop 16) (hciphertext ▸ hroom)
    · rw [← hciphertext, hrun] at hfailed
      cases hfailed
    · rw [← hciphertext, hrun] at hfailed
      cases hfailed
      simp at herror
  · rw [tokenDecrypt_of_short hkeys hlen hblocks h (not_le.mp hroom)] at hfailed
    cases hfailed

/-- A key of another length leaves the buffer as it is. -/
theorem tokenDecrypt_of_keyLength (h : ¬(key.length = 32 ∨ key.length = 64)) (output : List UInt8) :
    tokenDecrypt crypto key token output =
      .error (.error (.invalidTokenKeyLength key.length)) output := by
  rw [tokenDecrypt, Outcome.run_lift_bind_fail (TokenKeys.split_eq_fail h)]

/-- So does a token without whole blocks. -/
theorem tokenDecrypt_of_tokenLength (hkeys : TokenKeys.split key = .ok keys)
    (h : ¬(48 < token.length ∧ (token.length - 48) % 16 = 0)) (output : List UInt8) :
    tokenDecrypt crypto key token output = .error (.error .invalidToken) output := by
  rw [tokenDecrypt, Outcome.lift_bind hkeys]
  by_cases hlen : 48 < token.length
  · have hlong : ¬token.length ≤ rnsTokenOverhead := not_le.mpr hlen
    have hlenSub : (subUsize token.length rnsTokenOverhead : Outcome RnsCryptoError ℕ) =
        .ok (token.length - 48) := subUsize_eq_ok hlen.le
    have hpart : (token.length - 48) % rnsTokenIvLen ≠ 0 := fun hblocks => h ⟨hlen, hblocks⟩
    rw [Outcome.lift_bind (rejectIf_eq_ok hlong), Outcome.lift_bind hlenSub,
      Outcome.run_lift_bind_fail (rejectIf_eq_fail hpart)]
  · have hshort : token.length ≤ rnsTokenOverhead := not_lt.mp hlen
    rw [Outcome.run_lift_bind_fail (rejectIf_eq_fail hshort)]

/-- What a call leaves in the output: what was there, zeros, or the text and zeros. -/
theorem tokenDecrypt_cases (crypto : TokenPrimitives) (key token output : List UInt8) :
    (∃ error, tokenDecrypt crypto key token output = .error (.error error) output) ∨
    (token.length - 48 ≤ output.length ∧
      ∃ error, tokenDecrypt crypto key token output = .error (.error error)
        (List.replicate (token.length - 48) 0 ++ output.drop (token.length - 48))) ∨
    ∃ plaintext, plaintext.length ≤ token.length - 48 ∧
      tokenDecrypt crypto key token output = .ok plaintext.length
        (plaintext ++ List.replicate (token.length - 48 - plaintext.length) 0 ++
          output.drop (token.length - 48)) := by
  by_cases hkey : key.length = 32 ∨ key.length = 64
  · obtain ⟨keys, hkeys, -⟩ := TokenKeys.exists_split hkey
    by_cases hlen : 48 < token.length ∧ (token.length - 48) % 16 = 0
    · obtain ⟨hlen, hblocks⟩ := hlen
      by_cases hauthentic : Authenticates crypto keys.signingKey.toList token
      · by_cases hroom : token.length - 48 ≤ output.length
        · have hciphertext : ((token.take (token.length - 32)).drop 16).length =
              token.length - 48 := by
            rw [List.length_drop, List.length_take]
            omega
          rw [tokenDecrypt_of_authentic hkeys hlen hblocks hauthentic hroom]
          obtain ⟨plaintext, hle, hrun⟩ | ⟨error, -, hrun⟩ := decryptInto_cases crypto keys
            (token.take 16) ((token.take (token.length - 32)).drop 16) (hciphertext ▸ hroom)
          · rw [hciphertext] at hle hrun
            exact .inr (.inr ⟨plaintext, hle, hrun⟩)
          · rw [hciphertext] at hrun
            exact .inr (.inl ⟨hroom, error, hrun⟩)
        · exact .inl ⟨_, tokenDecrypt_of_short hkeys hlen hblocks hauthentic (not_le.mp hroom)⟩
      · obtain ⟨error, hverify⟩ := exists_verifyHmacSha256_eq_fail hauthentic
        refine .inl ⟨error, ?_⟩
        rw [tokenDecrypt_eq hkeys hlen hblocks, Outcome.run_lift_bind_fail hverify]
    · exact .inl ⟨_, tokenDecrypt_of_tokenLength hkeys hlen output⟩
  · exact .inl ⟨_, tokenDecrypt_of_keyLength hkey output⟩

end

end

/-! ## Building a token -/

/-- The cipher inverts itself on whole blocks, for keys and vectors of its lengths, and the keyed hash
takes every key. -/
structure TokenPrimitives.Inverts (crypto : TokenPrimitives) : Prop where
  encrypt : ∀ (kind : TokenKeyKind) (key iv : List UInt8) (n : ℕ) (blocks : ByteArrayN n),
    key.length = kind.keyLen → iv.length = 16 → n % 16 = 0 →
      (crypto.encryptCbc kind key iv n blocks).1 = true
  decrypt : ∀ (kind : TokenKeyKind) (key iv : List UInt8) (n : ℕ) (blocks : ByteArrayN n),
    key.length = kind.keyLen → iv.length = 16 → n % 16 = 0 →
      crypto.decryptCbc kind key iv n (crypto.encryptCbc kind key iv n blocks).2 = (true, blocks)
  hmac : ∀ key message, (crypto.hmacSha256 key message).isSome

section

variable {crypto : TokenPrimitives} {keys : TokenKeys} {iv : ByteArrayN rnsTokenIvLen}
  {key plaintext : List UInt8}

/-- The padded text under the cipher. -/
def ciphertextOf (crypto : TokenPrimitives) (keys : TokenKeys) (iv plaintext : List UInt8) :
    ByteArrayN (padded plaintext).length :=
  (crypto.encryptCbc keys.kind keys.encryptionKey.toList iv _ ⟨padded plaintext, rfl⟩).2

/-- The padded text is encrypted in place. -/
theorem run_encryptCbc (hcrypto : crypto.Inverts) :
    encryptCbc crypto keys iv.toList (padded plaintext).length (padded plaintext) =
      .ok () (ciphertextOf crypto keys iv.toList plaintext).toList := by
  have hblocks : (padded plaintext).length % 16 = 0 := by
    rw [length_padded, Nat.mul_mod_right]
  have hencrypt := hcrypto.encrypt keys.kind _ _ _ ⟨padded plaintext, rfl⟩
    keys.encryptionKey.toList_length iv.toList_length hblocks
  have hcbc : cbcInPlace (crypto.encryptCbc keys.kind keys.encryptionKey.toList iv.toList)
      (padded plaintext) = .ok () (ciphertextOf crypto keys iv.toList plaintext).toList := by
    simp only [cbcInPlace, hencrypt]
    rfl
  have hwithin := run_within_start [] rfl hcbc
  rw [List.append_nil, List.append_nil] at hwithin
  rw [encryptCbc, run_get_bind, Outcome.lift_bind (rejectIf_eq_ok (lt_irrefl _)), hwithin]

/-- The token is written at the start of the output. -/
theorem tokenEncryptWithIv_eq (hcrypto : crypto.Inverts) (hkeys : TokenKeys.split key = .ok keys)
    {tag : ByteArrayN rnsTokenHmacLen} (htag : crypto.hmacSha256 keys.signingKey.toList
      (iv.toList ++ (ciphertextOf crypto keys iv.toList plaintext).toList) = some tag)
    {output : List UInt8} (hlimit : output.length < addressLimit)
    (hroom : 48 + (padded plaintext).length ≤ output.length) :
    tokenEncryptWithIv crypto key plaintext iv output = .ok (48 + (padded plaintext).length)
      (iv.toList ++ (ciphertextOf crypto keys iv.toList plaintext).toList ++ tag.toList ++
        output.drop (48 + (padded plaintext).length)) := by
  set len := (padded plaintext).length with hlen
  set blocks := ciphertextOf crypto keys iv.toList plaintext with hblocks
  -- the parts of the output that the fields of the token go into
  have hthird : (output.drop (16 + len)).take 32 ++ output.drop (48 + len) = output.drop (16 + len) := by
    have hsplit := List.take_append_drop 32 (output.drop (16 + len))
    rwa [List.drop_drop, Nat.add_right_comm] at hsplit
  have hsecond : (output.drop 16).take len ++ output.drop (16 + len) = output.drop 16 := by
    rw [← List.drop_drop, List.take_append_drop]
  have hpaddedLen : pkcs7PaddedLen plaintext.length = .ok len := by
    rw [hlen, length_padded]
    apply pkcs7PaddedLen_eq
    rw [← length_padded]
    omega
  have hrequired : tokenLenForCiphertext len = .ok (48 + len) := by
    rw [tokenLenForCiphertext, checkedLen_eq_ok (by
      rw [rnsTokenOverhead, rnsTokenIvLen, rnsTokenHmacLen]
      omega)]
    rfl
  have hend : (addUsize rnsTokenIvLen len : Outcome RnsCryptoError ℕ) = .ok (16 + len) := by
    rw [addUsize, rnsTokenIvLen, if_pos (by omega)]
  have hiv : (copyInto 0 rnsTokenIvLen iv.toList : BufferM RnsCryptoError Unit) output =
      .ok () (iv.toList ++ (output.drop 16).take len ++ output.drop (16 + len)) := by
    rw [List.append_assoc, hsecond]
    exact run_copyInto_front iv.toList_length (by rw [rnsTokenIvLen]; omega)
  have hmiddle : ((output.drop 16).take len).length = len := by
    rw [List.length_take, List.length_drop]
    omega
  have hpad : pkcs7Pad plaintext ((output.drop 16).take len) = .ok len (padded plaintext) := by
    rw [pkcs7Pad_eq (by omega) hmiddle.ge, List.drop_of_length_le hmiddle.le, List.append_nil]
  have hpadWithin : within rnsTokenIvLen (16 + len) (pkcs7Pad plaintext)
      (iv.toList ++ (output.drop 16).take len ++ output.drop (16 + len)) =
        .ok len (iv.toList ++ padded plaintext ++ output.drop (16 + len)) :=
    run_within iv.toList_length (by rw [hmiddle]; rfl) hpad
  have hencryptWithin : within rnsTokenIvLen (16 + len) (encryptCbc crypto keys iv.toList len)
      (iv.toList ++ padded plaintext ++ output.drop (16 + len)) =
        .ok () (iv.toList ++ blocks.toList ++ output.drop (16 + len)) :=
    run_within iv.toList_length rfl (run_encryptCbc hcrypto)
  have hmessage : (slice (iv.toList ++ blocks.toList ++ output.drop (16 + len)) 0 (16 + len) :
      Outcome RnsCryptoError (List UInt8)) = .ok (iv.toList ++ blocks.toList) := by
    apply slice_left
    rw [List.length_append, iv.toList_length, blocks.toList_length]
    rfl
  have hassert : debugAssert (len = len) = .ok () := if_pos rfl
  have htagEq : hmacSha256 crypto keys.signingKey.toList (iv.toList ++ blocks.toList) = .ok tag := by
    rw [hmacSha256, htag]
  have hcopyTag : (copyInto (16 + len) (48 + len) tag.toList : BufferM RnsCryptoError Unit)
      (iv.toList ++ blocks.toList ++ output.drop (16 + len)) =
        .ok () (iv.toList ++ blocks.toList ++ tag.toList ++ output.drop (48 + len)) := by
    have htake : ((output.drop (16 + len)).take 32).length = 32 := by
      rw [List.length_take, List.length_drop]
      omega
    rw [← hthird, ← List.append_assoc]
    apply run_copyInto
    · rw [List.length_append, iv.toList_length, blocks.toList_length]
      rfl
    · rw [htake]
      omega
    · rw [htake, tag.toList_length, rnsTokenHmacLen]
  rw [tokenEncryptWithIv, Outcome.lift_bind hkeys, Outcome.lift_bind hpaddedLen,
    Outcome.lift_bind hrequired, run_get_bind, Outcome.lift_bind (rejectIf_eq_ok (not_lt.mpr hroom)),
    run_bind_of_ok hiv, Outcome.lift_bind hend, run_bind_of_ok hpadWithin,
    Outcome.lift_bind hassert, run_bind_of_ok hencryptWithin, run_get_bind,
    Outcome.lift_bind hmessage, Outcome.lift_bind htagEq, run_bind_of_ok hcopyTag]
  rfl

/-- A cipher does not care how the length of its blocks is written. -/
theorem exists_decryptCbc {kind : TokenKeyKind} {key iv : List UInt8} {n : ℕ} {blocks text : ByteArrayN n}
    (h : crypto.decryptCbc kind key iv n blocks = (true, text)) :
    ∃ text' : ByteArrayN blocks.toList.length,
      crypto.decryptCbc kind key iv _ ⟨blocks.toList, rfl⟩ = (true, text') ∧
        text'.toList = text.toList := by
  obtain ⟨blocks, rfl⟩ := blocks
  exact ⟨text, h, rfl⟩

/-- What is written comes back, and its padding is cleared. -/
theorem tokenDecrypt_eq_ok (hcrypto : crypto.Inverts) (hkeys : TokenKeys.split key = .ok keys)
    {tag : ByteArrayN rnsTokenHmacLen} (htag : crypto.hmacSha256 keys.signingKey.toList
      (iv.toList ++ (ciphertextOf crypto keys iv.toList plaintext).toList) = some tag)
    {output : List UInt8} (hroom : (padded plaintext).length ≤ output.length) :
    tokenDecrypt crypto key
        (iv.toList ++ (ciphertextOf crypto keys iv.toList plaintext).toList ++ tag.toList) output =
      .ok plaintext.length (plaintext ++
        List.replicate ((padded plaintext).length - plaintext.length) 0 ++
          output.drop (padded plaintext).length) := by
  set blocks := ciphertextOf crypto keys iv.toList plaintext with hblocks
  have hpadded := length_padded plaintext
  have hiv : iv.toList.length = 16 := iv.toList_length
  have hmessage : (iv.toList ++ blocks.toList).length = 16 + (padded plaintext).length := by
    rw [List.length_append, hiv, blocks.toList_length]
  have hlen : (iv.toList ++ blocks.toList ++ tag.toList).length = 48 + (padded plaintext).length := by
    rw [List.length_append, hmessage, tag.toList_length, rnsTokenHmacLen]
    omega
  have hstart : (iv.toList ++ blocks.toList ++ tag.toList).length - 32 =
      (iv.toList ++ blocks.toList).length := by omega
  have hcount : (iv.toList ++ blocks.toList ++ tag.toList).length - 48 = blocks.toList.length := by
    rw [blocks.toList_length]
    omega
  have hauthentic : Authenticates crypto keys.signingKey.toList
      (iv.toList ++ blocks.toList ++ tag.toList) := by
    rw [Authenticates, hstart, List.take_left, List.drop_left, htag]
    rfl
  have hdecrypt := hcrypto.decrypt keys.kind _ _ _ ⟨padded plaintext, rfl⟩
    keys.encryptionKey.toList_length iv.toList_length (by rw [hpadded, Nat.mul_mod_right])
  obtain ⟨text, htext, hpadding⟩ := exists_decryptCbc hdecrypt
  have hmiddle : (output.take blocks.toList.length).length = blocks.toList.length := by
    rw [List.length_take, blocks.toList_length]
    omega
  have hrun := decryptInto_of_padded (output.drop blocks.toList.length) hmiddle htext hpadding
  rw [List.take_append_drop] at hrun
  rw [tokenDecrypt_of_authentic hkeys (by omega) (by omega) hauthentic (by omega), hstart, hcount,
    List.take_left, List.append_assoc, List.take_left' hiv,
    List.drop_left' hiv, hrun, blocks.toList_length]

/-- The token of a text: any output with room takes it, and any output with room for its blocks gives
the text back. -/
theorem exists_token (hcrypto : crypto.Inverts) (hkey : key.length = 32 ∨ key.length = 64)
    (plaintext : List UInt8) {rng : TryRng} (hrng : rng rnsTokenIvLen = some iv) :
    ∃ token : List UInt8, token.length = 48 + 16 * (plaintext.length / 16 + 1) ∧
      token.take 16 = iv.toList ∧
      (∀ output : List UInt8, output.length < addressLimit → token.length ≤ output.length →
        tokenEncrypt crypto key plaintext rng output =
          .ok token.length (token ++ output.drop token.length)) ∧
      ∀ output : List UInt8, 16 * (plaintext.length / 16 + 1) ≤ output.length →
        tokenDecrypt crypto key token output = .ok plaintext.length (plaintext ++
          List.replicate (16 * (plaintext.length / 16 + 1) - plaintext.length) 0 ++
            output.drop (16 * (plaintext.length / 16 + 1))) := by
  obtain ⟨keys, hkeys, -⟩ := TokenKeys.exists_split hkey
  set blocks := ciphertextOf crypto keys iv.toList plaintext with hblocks
  obtain ⟨tag, htag⟩ := Option.isSome_iff_exists.mp
    (hcrypto.hmac keys.signingKey.toList (iv.toList ++ blocks.toList))
  have hiv : iv.toList.length = 16 := iv.toList_length
  have hlen : (iv.toList ++ blocks.toList ++ tag.toList).length = 48 + (padded plaintext).length := by
    rw [List.length_append, List.length_append, hiv, blocks.toList_length, tag.toList_length]
    omega
  have hpadded := length_padded plaintext
  refine ⟨iv.toList ++ blocks.toList ++ tag.toList, hpadded ▸ hlen, ?_, ?_, ?_⟩
  · rw [List.append_assoc, List.take_left' hiv]
  · intro output hlimit hroom
    rw [tokenEncrypt, hrng, hlen]
    exact tokenEncryptWithIv_eq hcrypto hkeys htag hlimit (hlen ▸ hroom)
  · intro output hroom
    rw [← hpadded] at hroom ⊢
    exact tokenDecrypt_eq_ok hcrypto hkeys htag hroom

end

/-! ## The round trip -/

/-- A token carries every text, the padding is a bijection, and a failed decryption leaves what was in
the output, or zeros. -/
theorem token_roundTrip (crypto : TokenPrimitives) :
    (crypto.Inverts → ∀ (key plaintext : List UInt8) (iv : ByteArrayN rnsTokenIvLen) (rng : TryRng),
      key.length = 32 ∨ key.length = 64 → rng rnsTokenIvLen = some iv →
      ∃ token : List UInt8, token.length = 48 + 16 * (plaintext.length / 16 + 1) ∧
        token.take 16 = iv.toList ∧
        (∀ output : List UInt8, output.length < addressLimit → token.length ≤ output.length →
          tokenEncrypt crypto key plaintext rng output =
            .ok token.length (token ++ output.drop token.length)) ∧
        ∀ output : List UInt8, 16 * (plaintext.length / 16 + 1) ≤ output.length →
          tokenDecrypt crypto key token output = .ok plaintext.length (plaintext ++
            List.replicate (16 * (plaintext.length / 16 + 1) - plaintext.length) 0 ++
              output.drop (16 * (plaintext.length / 16 + 1)))) ∧
    (∀ bytes plaintext : List UInt8, bytes.length < addressLimit →
      (pkcs7Unpad bytes = .ok plaintext ↔ ∃ out out',
        pkcs7Pad plaintext out = .ok bytes.length out' ∧ out'.take bytes.length = bytes)) ∧
    ∀ (key token output output' : List UInt8) (fault : Fault RnsCryptoError),
      tokenDecrypt crypto key token output = .error fault output' →
      fault ≠ .panic ∧ (output' = output ∨ token.length - 48 ≤ output.length ∧
        output' = List.replicate (token.length - 48) 0 ++ output.drop (token.length - 48)) := by
  refine ⟨?_, ?_, ?_⟩
  · intro hcrypto key plaintext iv rng hkey hrng
    exact exists_token hcrypto hkey plaintext hrng
  · intro bytes plaintext hlimit
    exact pkcs7Unpad_eq_ok_iff_pad hlimit
  · intro key token output output' fault h
    obtain ⟨error, hrun⟩ | ⟨hroom, error, hrun⟩ | ⟨plaintext, -, hrun⟩ :=
      tokenDecrypt_cases crypto key token output
    · rw [hrun] at h
      cases h
      exact ⟨nofun, .inl rfl⟩
    · rw [hrun] at h
      cases h
      exact ⟨nofun, .inr ⟨hroom, rfl⟩⟩
    · rw [hrun] at h
      cases h

/-- Swapping two texts of one length keeps the length. -/
theorem length_swap {text blocks : List UInt8} (h : text.length = blocks.length) (buffer : List UInt8) :
    (Equiv.swap text blocks buffer).length = buffer.length := by
  rw [Equiv.swap_apply_def]
  split_ifs with htext hblocks
  · rw [htext, h]
  · rw [hblocks, h]
  · rfl

/-- The key of the token below. -/
def sampleTokenKey : List UInt8 := (List.range 32).map UInt8.ofNat

def sampleTokenIv : ByteArrayN rnsTokenIvLen := List.Vector.ofFn fun i => UInt8.ofNat (0xa0 + i)

/-- The text `hello token` under AES-128-CBC with the key and the vector above. -/
def sampleCiphertext : List UInt8 := toBe 16 0x111c0579413c7cd45de041e1e99e50a7

/-- HMAC-SHA256 of the vector and the blocks. -/
def sampleTag : ByteArrayN 32 :=
  spelled 32 0x9a67288e721b62e303e18a6d4afcc34c75ff00a0919f0a0e67686886ede87f67

def helloToken : List UInt8 := [0x68, 0x65, 0x6c, 0x6c, 0x6f, 0x20, 0x74, 0x6f, 0x6b, 0x65, 0x6e]

/-- A cipher for one text: it exchanges the text and its blocks, and leaves other blocks alone. -/
def swapCbc (text blocks : List UInt8) (h : text.length = blocks.length) (kind : TokenKeyKind)
    (key iv : List UInt8) (n : ℕ) (buffer : ByteArrayN n) : Bool × ByteArrayN n :=
  (key.length = kind.keyLen ∧ iv.length = 16 ∧ n % 16 = 0,
    ⟨Equiv.swap text blocks buffer.toList, (length_swap h _).trans buffer.toList_length⟩)

def swapTokens (text blocks : List UInt8) (h : text.length = blocks.length)
    (hmac : List UInt8 → List UInt8 → ByteArrayN 32) : TokenPrimitives where
  encryptCbc := swapCbc text blocks h
  decryptCbc := swapCbc text blocks h
  hmacSha256 key message := some (hmac key message)

/-- Swapping twice gives everything back. -/
theorem swapTokens_inverts (text blocks : List UInt8) (h : text.length = blocks.length)
    (hmac : List UInt8 → List UInt8 → ByteArrayN 32) : (swapTokens text blocks h hmac).Inverts where
  encrypt kind key iv n buffer hkey hiv hblocks := decide_eq_true ⟨hkey, hiv, hblocks⟩
  decrypt kind key iv n buffer hkey hiv hblocks := by
    apply Prod.ext
    · exact decide_eq_true ⟨hkey, hiv, hblocks⟩
    · apply List.Vector.toList_injective
      exact congrFun (congrArg DFunLike.coe (Equiv.swap_swap text blocks)) buffer.toList
  hmac _ _ := rfl

def sampleHmac (key message : List UInt8) : ByteArrayN 32 :=
  if key = sampleTokenKey.take 16 ∧ message = sampleTokenIv.toList ++ sampleCiphertext then sampleTag
  else fillBytes 32 0

def sampleTokenPrimitives : TokenPrimitives :=
  swapTokens (padded helloToken) sampleCiphertext rfl sampleHmac

/-- A token of a short key, there and back. -/
theorem token_roundTrip_sample :
    (∃ token : List UInt8, token.length = 64 ∧ token.take 16 = sampleTokenIv.toList ∧
      (∀ output : List UInt8, output.length < addressLimit → token.length ≤ output.length →
        tokenEncrypt sampleTokenPrimitives sampleTokenKey helloToken
          (fun _ => some (List.Vector.ofFn fun i => UInt8.ofNat (0xa0 + i))) output =
            .ok token.length (token ++ output.drop token.length)) ∧
      ∀ output : List UInt8, 16 ≤ output.length →
        tokenDecrypt sampleTokenPrimitives sampleTokenKey token output =
          .ok 11 (helloToken ++ [0, 0, 0, 0, 0] ++ output.drop 16)) ∧
    (pkcs7Unpad (padded helloToken) = .ok helloToken ↔ ∃ out out',
      pkcs7Pad helloToken out = .ok 16 out' ∧ out'.take 16 = padded helloToken) ∧
    (Fault.error (RnsCryptoError.invalidTokenKeyLength 7) ≠ .panic ∧
      ([1, 2] = ([1, 2] : List UInt8) ∨ 64 - 48 ≤ 2 ∧ [1, 2] = List.replicate 16 (0 : UInt8) ++ [])) :=
  ⟨(token_roundTrip sampleTokenPrimitives).1 (swapTokens_inverts _ _ _ _) sampleTokenKey helloToken
      sampleTokenIv (fun _ => some (List.Vector.ofFn fun i => UInt8.ofNat (0xa0 + i))) (by decide) rfl,
    (token_roundTrip sampleTokenPrimitives).2.1 (padded helloToken) helloToken (by decide),
    (token_roundTrip sampleTokenPrimitives).2.2 (List.replicate 7 0) (List.replicate 64 0) [1, 2] [1, 2]
      (.error (.invalidTokenKeyLength 7)) rfl⟩

end Hyf.Rns
