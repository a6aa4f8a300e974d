import Hyf.Rns.SinglePacket
import Mathlib.Data.Sym.Sym2

/-!
# Which key decrypts a single packet (`hyf_rns_crypto`)

The recipient tries its secrets one after the other, and all attempts share the caller's output.
`decryptForIdentity_eq` puts the attempts in a row. An attempt whose key does not authenticate the token
leaves the output alone, and one whose key does is the last, whatever its result:
`decryptFirst_of_first` is the induction over the row.
-/

namespace Hyf.Rns

open ByteCodec BufferM

/-- The signing key is the first half. -/
theorem TokenKeys.signingKey_eq {keys : TokenKeys} {key : List UInt8}
    (h : keys.signingKey.toList ++ keys.encryptionKey.toList = key) :
    keys.signingKey.toList = key.take (key.length / 2) := by
  have hlen := congrArg List.length h
  rw [List.length_append, keys.signingKey.toList_length, keys.encryptionKey.toList_length] at hlen
  rw [← h, List.take_left' (by rw [h, keys.signingKey.toList_length]; omega)]

section

variable {crypto : Primitives} {agreement : KeyAgreement} {tokens : TokenPrimitives}

/-! ## The key of a token -/

/-- The key that HKDF derives from a shared secret, with the identity as the salt. -/
def derivedTokenKey (crypto : Primitives) (shared : ByteArrayN 32) (recipient : RnsPublicIdentity) :
    List UInt8 :=
  (crypto.expand (identityHash crypto recipient).toList shared.toList [] 64).toList

/-- It has 64 bytes. -/
@[simp] theorem length_derivedTokenKey (crypto : Primitives) (shared : ByteArrayN 32)
    (recipient : RnsPublicIdentity) : (derivedTokenKey crypto shared recipient).length = 64 :=
  List.Vector.toList_length _

/-- A contributory secret gives the derived key. -/
theorem deriveTokenKey_eq {shared : ByteArrayN 32} (h : agreement.wasContributory shared = true)
    (recipient : RnsPublicIdentity) :
    deriveTokenKey crypto agreement shared recipient = .ok (derivedTokenKey crypto shared recipient) := by
  have hcontributory : ¬agreement.wasContributory shared = false := by rw [h]; exact nofun
  have hsalt : (identityHash crypto recipient).toList ≠ [] := by
    apply List.ne_nil_of_length_pos
    rw [List.Vector.toList_length]
    decide
  have hshared : shared.toList ≠ [] := by
    apply List.ne_nil_of_length_pos
    rw [List.Vector.toList_length]
    decide
  have hexpand := runOn_eq_ok (@run_rnsHkdfSha256 crypto _ _ hsalt hshared 64 (by decide) (by decide)
    (List.replicate 64 0) (by rw [List.length_replicate]))
  rw [List.drop_replicate, Nat.sub_self, List.replicate_zero, List.append_nil] at hexpand
  rw [deriveTokenKey, Outcome.bind_eq (rejectIf_eq_ok hcontributory)]
  exact Outcome.bind_eq hexpand _

/-! ## The attempts in a row -/

/-- The secrets in the order in which they are tried. -/
def candidates (recipient : RnsSecretIdentity) (ratchets : List RnsRatchetSecretRef)
    (enforceRatchets : Bool) : List (ByteArrayN 32 × Option ℕ) :=
  (ratchets.zipIdx.map fun entry => (entry.1.secret, some entry.2)) ++
    if enforceRatchets then [] else [(recipient.x25519Secret, none)]

/-- What holds of the secret of each ratchet holds of each candidate that stands for one. -/
theorem forall_ratchetCandidates {ratchets : List RnsRatchetSecretRef} {P : ByteArrayN 32 → Prop}
    (h : ∀ ratchet ∈ ratchets, P ratchet.secret) :
    ∀ candidate ∈ ratchets.zipIdx.map fun entry => (entry.1.secret, some entry.2), P candidate.1 := by
  intro candidate hmem
  obtain ⟨⟨ratchet, index⟩, hentry, rfl⟩ := List.mem_map.mp hmem
  exact h ratchet (List.fst_mem_of_mem_zipIdx hentry)

/-- What holds of all ratchets and of the identity key holds of the candidates. -/
theorem forall_candidates {recipient : RnsSecretIdentity} {ratchets : List RnsRatchetSecretRef}
    {P : ByteArrayN 32 → Prop} (h : ∀ ratchet ∈ ratchets, P ratchet.secret)
    (hidentity : P recipient.x25519Secret) (enforceRatchets : Bool) :
    ∀ candidate ∈ candidates recipient ratchets enforceRatchets, P candidate.1 := by
  intro candidate hmem
  obtain hmem | hmem := List.mem_append.mp hmem
  · exact forall_ratchetCandidates h candidate hmem
  · cases enforceRatchets with
    | true => cases hmem
    | false =>
      rw [List.mem_singleton.mp hmem]
      exact hidentity

/-- Try the candidates in order, up to the first whose attempt does not fail the authentication. -/
def decryptFirst (attempt : ByteArrayN 32 × Option ℕ → BufferM RnsCryptoError RnsDecryptOutcome)
    (list : List (ByteArrayN 32 × Option ℕ)) (last : BufferM RnsCryptoError RnsDecryptOutcome) :
    BufferM RnsCryptoError RnsDecryptOutcome :=
  list.foldr (fun candidate next => orNext (attempt candidate) next) last

/-- An attempt in front of nothing is the attempt. -/
theorem orNext_fail (attempt : BufferM RnsCryptoError RnsDecryptOutcome) :
    orNext attempt (fail .authenticationFailed).lift = attempt := by
  funext out
  rw [orNext]
  split
  · next h => rw [h]; rfl
  · rfl

/-- The recursion over the ratchets is a list of attempts. -/
theorem decryptWithRatchets_eq (recipient : RnsPublicIdentity) (ephemeralPublic : ByteArrayN 32)
    (token : List UInt8) (next : BufferM RnsCryptoError RnsDecryptOutcome)
    (ratchets : List RnsRatchetSecretRef) (index : ℕ) :
    decryptWithRatchets crypto agreement tokens recipient ephemeralPublic token next ratchets index =
      decryptFirst (fun candidate => decryptWithSecret crypto agreement tokens recipient ephemeralPublic
        token candidate.1 candidate.2)
        ((ratchets.zipIdx index).map fun entry => (entry.1.secret, some entry.2)) next := by
  induction ratchets generalizing index with
  | nil => rfl
  | cons ratchet ratchets ih =>
    rw [decryptWithRatchets, ih, List.zipIdx_cons, List.map_cons]
    rfl

section

variable {recipient : RnsSecretIdentity} {ciphertextToken : List UInt8} {ephemeralPublic : ByteArrayN 32}

/-- One attempt on a packet. -/
def attemptOn (crypto : Primitives) (agreement : KeyAgreement) (tokens : TokenPrimitives)
    (recipient : RnsSecretIdentity) (ciphertextToken : List UInt8) (ephemeralPublic : ByteArrayN 32)
    (candidate : ByteArrayN 32 × Option ℕ) : BufferM RnsCryptoError RnsDecryptOutcome :=
  decryptWithSecret crypto agreement tokens (recipient.publicIdentity crypto) ephemeralPublic
    (ciphertextToken.drop 32) candidate.1 candidate.2

/-- The loop and what follows it are one row of attempts. -/
theorem decryptForIdentity_eq (hlen : 32 < ciphertextToken.length)
    (hephemeral : ephemeralPublic.toList = ciphertextToken.take 32)
    (ratchets : List RnsRatchetSecretRef) (enforceRatchets : Bool) :
    decryptForIdentity crypto agreement tokens recipient ciphertextToken ratchets enforceRatchets =
      decryptFirst (attemptOn crypto agreement tokens recipient ciphertextToken ephemeralPublic)
        (candidates recipient ratchets enforceRatchets) (fail .authenticationFailed).lift := by
  have hlong : ¬ciphertextToken.length ≤ rnsSinglePacketEphemeralPublicLen := not_le.mpr hlen
  have hslice : (slice ciphertextToken 0 rnsSinglePacketEphemeralPublicLen :
      Outcome RnsCryptoError (List UInt8)) = .ok ephemeralPublic.toList := by
    rw [hephemeral]
    exact slice_take hlen.le
  have hparse : parseEphemeralPublic ciphertextToken = .ok ephemeralPublic := by
    rw [parseEphemeralPublic, Outcome.bind_eq hslice, toArray_toList]
  have htoken : (slice ciphertextToken rnsSinglePacketEphemeralPublicLen ciphertextToken.length :
      Outcome RnsCryptoError (List UInt8)) = .ok (ciphertextToken.drop 32) := slice_drop hlen.le
  rw [decryptForIdentity, Outcome.lift_bind (rejectIf_eq_ok hlong), Outcome.lift_bind hparse,
    Outcome.lift_bind htoken, decryptWithRatchets_eq, candidates, decryptFirst, decryptFirst,
    List.foldr_append]
  cases enforceRatchets with
  | true => rfl
  | false =>
    rw [if_neg Bool.false_ne_true, if_neg Bool.false_ne_true, List.foldr_cons, List.foldr_nil,
      orNext_fail]
    rfl

/-! ## One attempt -/

/-- The key of the token for one secret of the recipient. -/
def candidateKey (crypto : Primitives) (agreement : KeyAgreement) (recipient : RnsSecretIdentity)
    (ephemeralPublic secret : ByteArrayN 32) : List UInt8 :=
  derivedTokenKey crypto (agreement.diffieHellman secret ephemeralPublic) (recipient.publicIdentity crypto)

/-- The outcome that is built from the result of `token_decrypt`. -/
def withRatchet (ratchetIndex : Option ℕ) : EStateM.Result (Fault RnsCryptoError) (List UInt8) ℕ →
    EStateM.Result (Fault RnsCryptoError) (List UInt8) RnsDecryptOutcome
  | .ok plaintextLen out => .ok ⟨out.take plaintextLen, ratchetIndex⟩ out
  | .error fault out => .error fault out

/-- An attempt decrypts the token with the key of its candidate. -/
theorem attemptOn_eq {candidate : ByteArrayN 32 × Option ℕ}
    (h : agreement.wasContributory (agreement.diffieHellman candidate.1 ephemeralPublic) = true)
    (output : List UInt8) :
    attemptOn crypto agreement tokens recipient ciphertextToken ephemeralPublic candidate output =
      withRatchet candidate.2 (tokenDecrypt tokens
        (candidateKey crypto agreement recipient ephemeralPublic candidate.1)
        (ciphertextToken.drop 32) output) := by
  have hattempt : decryptWithSecretLen crypto agreement tokens candidate.1
      (recipient.publicIdentity crypto) ephemeralPublic (ciphertextToken.drop 32) =
        tokenDecrypt tokens (candidateKey crypto agreement recipient ephemeralPublic candidate.1)
          (ciphertextToken.drop 32) := by
    rw [decryptWithSecretLen, Outcome.lift_bind (deriveTokenKey_eq h _)]
    rfl
  rw [attemptOn, decryptWithSecret, hattempt]
  obtain ⟨error, hrun⟩ | ⟨-, error, hrun⟩ | ⟨plaintext, -, hrun⟩ := tokenDecrypt_cases tokens
    (candidateKey crypto agreement recipient ephemeralPublic candidate.1) (ciphertextToken.drop 32) output
  · rw [run_bind_of_error hrun, hrun, withRatchet]
  · rw [run_bind_of_error hrun, hrun, withRatchet]
  · rw [run_bind_of_ok hrun, hrun, withRatchet, run_get_bind, List.append_assoc,
      Outcome.lift_bind (slice_left rfl), List.take_left]
    rfl

/-- The first half of the key authenticates. -/
theorem exists_split_candidateKey (crypto : Primitives) (agreement : KeyAgreement)
    (recipient : RnsSecretIdentity) (ephemeralPublic secret : ByteArrayN 32) :
    ∃ keys, TokenKeys.split (candidateKey crypto agreement recipient ephemeralPublic secret) = .ok keys ∧
      keys.signingKey.toList =
        (candidateKey crypto agreement recipient ephemeralPublic secret).take 32 := by
  have hlen : (candidateKey crypto agreement recipient ephemeralPublic secret).length = 64 :=
    length_derivedTokenKey crypto _ _
  obtain ⟨keys, hkeys, hkey⟩ := TokenKeys.exists_split (.inr hlen)
  have hsigning := TokenKeys.signingKey_eq hkey
  rw [hlen] at hsigning
  exact ⟨keys, hkeys, hsigning⟩

section

variable {secret : ByteArrayN 32} (hlen : 48 < (ciphertextToken.drop 32).length)
  (hblocks : ((ciphertextToken.drop 32).length - 48) % 16 = 0)

include hlen hblocks

/-- A secret whose key does not authenticate the token fails, and leaves the output alone. -/
theorem tokenDecrypt_candidateKey_of_not_authentic
    (hhmac : ∀ key message, (tokens.hmacSha256 key message).isSome)
    (h : ¬Authenticates tokens
      ((candidateKey crypto agreement recipient ephemeralPublic secret).take 32) (ciphertextToken.drop 32))
    (output : List UInt8) :
    tokenDecrypt tokens (candidateKey crypto agreement recipient ephemeralPublic secret)
      (ciphertextToken.drop 32) output = .error (.error .authenticationFailed) output := by
  obtain ⟨keys, hkeys, hsigning⟩ := exists_split_candidateKey crypto agreement recipient
    ephemeralPublic secret
  exact tokenDecrypt_of_not_authentic hkeys hlen hblocks hhmac (hsigning ▸ h) output

/-- Behind the authentication, no error is one of authentication. -/
theorem tokenDecrypt_candidateKey_of_authentic
    (h : Authenticates tokens
      ((candidateKey crypto agreement recipient ephemeralPublic secret).take 32) (ciphertextToken.drop 32))
    (output output' : List UInt8) :
    tokenDecrypt tokens (candidateKey crypto agreement recipient ephemeralPublic secret)
      (ciphertextToken.drop 32) output ≠ .error (.error .authenticationFailed) output' := by
  obtain ⟨keys, hkeys, hsigning⟩ := exists_split_candidateKey crypto agreement recipient
    ephemeralPublic secret
  exact tokenDecrypt_ne_authenticationFailed hkeys hlen hblocks (hsigning ▸ h) output output'

end

/-! ## The first that authenticates -/

/-- Where no attempt succeeds the last resort is taken. -/
theorem decryptFirst_of_none
    {attempt : ByteArrayN 32 × Option ℕ → BufferM RnsCryptoError RnsDecryptOutcome}
    {list : List (ByteArrayN 32 × Option ℕ)} {output : List UInt8}
    (h : ∀ candidate ∈ list, attempt candidate output = .error (.error .authenticationFailed) output)
    (last : BufferM RnsCryptoError RnsDecryptOutcome) :
    decryptFirst attempt list last output = last output := by
  induction list with
  | nil => rfl
  | cons candidate list ih =>
    rw [List.forall_mem_cons] at h
    have hnext := ih h.2
    rw [decryptFirst] at hnext
    rw [decryptFirst, List.foldr_cons, orNext, h.1]
    exact hnext

/-- The first attempt that does not fail the authentication decides. -/
theorem decryptFirst_of_first
    {attempt : ByteArrayN 32 × Option ℕ → BufferM RnsCryptoError RnsDecryptOutcome}
    {before after : List (ByteArrayN 32 × Option ℕ)} {candidate : ByteArrayN 32 × Option ℕ}
    {output : List UInt8}
    (hbefore : ∀ candidate ∈ before,
      attempt candidate output = .error (.error .authenticationFailed) output)
    (h : ∀ output', attempt candidate output ≠ .error (.error .authenticationFailed) output')
    (last : BufferM RnsCryptoError RnsDecryptOutcome) :
    decryptFirst attempt (before ++ candidate :: after) last output = attempt candidate output := by
  have hrow : decryptFirst attempt (before ++ candidate :: after) last =
      decryptFirst attempt before (decryptFirst attempt (candidate :: after) last) :=
    List.foldr_append
  rw [hrow, decryptFirst_of_none hbefore, decryptFirst, List.foldr_cons, orNext]
  split
  · next hfailed => exact absurd hfailed (h _)
  · rfl

/-- The secrets are tried in order, and the first whose key authenticates the token decides. -/
theorem decryptForIdentity_selects {ratchets : List RnsRatchetSecretRef} {enforceRatchets : Bool}
    {k : ℕ} (hk : 1 ≤ k) (hlen : ciphertextToken.length = 32 + 48 + 16 * k)
    (hephemeral : ephemeralPublic.toList = ciphertextToken.take 32)
    (hcontributory : ∀ candidate ∈ candidates recipient ratchets enforceRatchets,
      agreement.wasContributory (agreement.diffieHellman candidate.1 ephemeralPublic) = true)
    (hhmac : ∀ key message, (tokens.hmacSha256 key message).isSome) (output : List UInt8) :
    ((∀ candidate ∈ candidates recipient ratchets enforceRatchets, ¬Authenticates tokens
        ((candidateKey crypto agreement recipient ephemeralPublic candidate.1).take 32)
        (ciphertextToken.drop 32)) →
      decryptForIdentity crypto agreement tokens recipient ciphertextToken ratchets enforceRatchets
        output = .error (.error .authenticationFailed) output) ∧
    ∀ before candidate after,
      candidates recipient ratchets enforceRatchets = before ++ candidate :: after →
      (∀ earlier ∈ before, ¬Authenticates tokens
        ((candidateKey crypto agreement recipient ephemeralPublic earlier.1).take 32)
        (ciphertextToken.drop 32)) →
      Authenticates tokens
        ((candidateKey crypto agreement recipient ephemeralPublic candidate.1).take 32)
        (ciphertextToken.drop 32) →
      decryptForIdentity crypto agreement tokens recipient ciphertextToken ratchets enforceRatchets
        output = withRatchet candidate.2 (tokenDecrypt tokens
          (candidateKey crypto agreement recipient ephemeralPublic candidate.1)
          (ciphertextToken.drop 32) output) := by
  have htoken : (ciphertextToken.drop 32).length = 48 + 16 * k := by
    rw [List.length_drop]
    omega
  -- an attempt whose key does not authenticate
  have hfails : ∀ candidate : ByteArrayN 32 × Option ℕ,
      candidate ∈ candidates recipient ratchets enforceRatchets → ¬Authenticates tokens
        ((candidateKey crypto agreement recipient ephemeralPublic candidate.1).take 32)
        (ciphertextToken.drop 32) →
      attemptOn crypto agreement tokens recipient ciphertextToken ephemeralPublic candidate output =
        .error (.error .authenticationFailed) output := by
    intro candidate hmem hne
    rw [attemptOn_eq (hcontributory candidate hmem),
      tokenDecrypt_candidateKey_of_not_authentic (by omega) (by omega) hhmac hne, withRatchet]
  rw [decryptForIdentity_eq (by omega) hephemeral]
  constructor
  · intro hnone
    rw [decryptFirst_of_none fun candidate hmem => hfails candidate hmem (hnone candidate hmem)]
    rfl
  · intro before candidate after hcandidates hbefore hauthentic
    have hmem : candidate ∈ candidates recipient ratchets enforceRatchets := by
      rw [hcandidates]
      exact List.mem_append_right _ List.mem_cons_self
    have hattempt := @attemptOn_eq crypto agreement tokens recipient ciphertextToken ephemeralPublic
      candidate (hcontributory candidate hmem) output
    have hdecides : ∀ output', tokenDecrypt tokens
        (candidateKey crypto agreement recipient ephemeralPublic candidate.1)
        (ciphertextToken.drop 32) output ≠ .error (.error .authenticationFailed) output' :=
      tokenDecrypt_candidateKey_of_authentic (by omega) (by omega) hauthentic output
    rw [hcandidates, decryptFirst_of_first, hattempt]
    · intro earlier hearlier
      apply hfails earlier _ (hbefore earlier hearlier)
      rw [hcandidates]
      exact List.mem_append_left _ hearlier
    · intro output' hfailed
      rw [hattempt] at hfailed
      cases hrun : tokenDecrypt tokens (candidateKey crypto agreement recipient ephemeralPublic candidate.1)
          (ciphertextToken.drop 32) output with
      | ok plaintextLen out =>
        rw [hrun, withRatchet] at hfailed
        cases hfailed
      | error fault out =>
        rw [hrun, withRatchet] at hfailed
        cases hfailed
        exact hdecides _ hrun

end

/-! ## Packets to the identity key -/

/-- Two parties agree on the same bytes. -/
def KeyAgreement.Commutes (agreement : KeyAgreement) (crypto : Primitives) : Prop :=
  ∀ first second : ByteArrayN 32, agreement.diffieHellman first (crypto.x25519Public second) =
    agreement.diffieHellman second (crypto.x25519Public first)

section

variable {recipient : RnsSecretIdentity} {ephemeralSecret : ByteArrayN 32}
  {iv : ByteArrayN rnsTokenIvLen} {rng : TryRng}

/-- The length of a packet that does not overflow. -/
theorem singlePacketLenForPlaintext_eq {plaintextLen : ℕ}
    (h : 32 + (48 + 16 * (plaintextLen / 16 + 1)) < addressLimit) :
    singlePacketLenForPlaintext plaintextLen = .ok (32 + (48 + 16 * (plaintextLen / 16 + 1))) := by
  have hpadded : pkcs7PaddedLen plaintextLen = .ok (16 * (plaintextLen / 16 + 1)) :=
    pkcs7PaddedLen_eq (by omega)
  have htoken : checkedLen rnsTokenOverhead (16 * (plaintextLen / 16 + 1)) =
      .ok (48 + 16 * (plaintextLen / 16 + 1)) :=
    checkedLen_eq_ok (by rw [rnsTokenOverhead, rnsTokenIvLen, rnsTokenHmacLen]; omega)
  rw [singlePacketLenForPlaintext, Outcome.bind_eq hpadded, Outcome.bind_eq htoken]
  exact checkedLen_eq_ok h

/-- A packet to an identity: the public key in front, and the token for the key that both parties
derive. -/
theorem exists_packet (htokens : tokens.Inverts) (hcommutes : agreement.Commutes crypto)
    (hephemeral : rng 32 = some ephemeralSecret) (hiv : rng rnsTokenIvLen = some iv)
    (hcontributory : agreement.wasContributory (agreement.diffieHellman recipient.x25519Secret
      (crypto.x25519Public ephemeralSecret)) = true) (plaintext : List UInt8) :
    ∃ packet : List UInt8, packet.length = 32 + 48 + 16 * (plaintext.length / 16 + 1) ∧
      packet.take 32 = (crypto.x25519Public ephemeralSecret).toList ∧
      (∀ output : List UInt8, output.length < addressLimit → packet.length ≤ output.length →
        encryptForIdentity crypto agreement tokens (recipient.publicIdentity crypto) plaintext rng
          output = .ok packet.length (packet ++ output.drop packet.length)) ∧
      ∀ output : List UInt8, 16 * (plaintext.length / 16 + 1) ≤ output.length →
        tokenDecrypt tokens (candidateKey crypto agreement recipient
          (crypto.x25519Public ephemeralSecret) recipient.x25519Secret) (packet.drop 32) output =
            .ok plaintext.length (plaintext ++
              List.replicate (16 * (plaintext.length / 16 + 1) - plaintext.length) 0 ++
                output.drop (16 * (plaintext.length / 16 + 1))) := by
  have hkeyLen : (candidateKey crypto agreement recipient (crypto.x25519Public ephemeralSecret)
      recipient.x25519Secret).length = 64 := length_derivedTokenKey crypto _ _
  obtain ⟨token, hlen, -, hencrypt, hdecrypt⟩ := exists_token htokens (.inr hkeyLen) plaintext hiv
  have hpublic : (crypto.x25519Public ephemeralSecret).toList.length = 32 := List.Vector.toList_length _
  have hpacket : ((crypto.x25519Public ephemeralSecret).toList ++ token).length =
      32 + (48 + 16 * (plaintext.length / 16 + 1)) := by
    rw [List.length_append, hpublic, hlen]
  refine ⟨(crypto.x25519Public ephemeralSecret).toList ++ token, ?_, ?_, ?_, ?_⟩
  · rw [hpacket, Nat.add_assoc]
  · rw [List.take_left' hpublic]
  · intro output hlimit hroom
    rw [hpacket] at hroom ⊢
    have hderive : deriveTokenKey crypto agreement (agreement.diffieHellman ephemeralSecret
        (recipient.publicIdentity crypto).x25519Public) (recipient.publicIdentity crypto) =
          .ok (candidateKey crypto agreement recipient (crypto.x25519Public ephemeralSecret)
            recipient.x25519Secret) := by
      have hshared : agreement.diffieHellman ephemeralSecret
          (recipient.publicIdentity crypto).x25519Public = agreement.diffieHellman
            recipient.x25519Secret (crypto.x25519Public ephemeralSecret) := hcommutes _ _
      rw [hshared, deriveTokenKey_eq hcontributory]
      rfl
    -- the parts of the output that the key and the token go into
    have hsecond : (output.drop 32).take token.length ++ output.drop (32 + token.length) =
        output.drop 32 := by
      rw [← List.drop_drop, List.take_append_drop]
    have hmiddle : ((output.drop 32).take token.length).length = token.length := by
      rw [List.length_take, List.length_drop]
      omega
    have hcopy : (copyInto 0 rnsSinglePacketEphemeralPublicLen
        (crypto.x25519Public ephemeralSecret).toList : BufferM RnsCryptoError Unit)
          output = .ok () ((crypto.x25519Public ephemeralSecret).toList ++
            (output.drop 32).take token.length ++ output.drop (32 + token.length)) := by
      rw [List.append_assoc, hsecond]
      exact run_copyInto_front hpublic (by rw [rnsSinglePacketEphemeralPublicLen]; omega)
    have htoken := hencrypt ((output.drop 32).take token.length) (by omega) hmiddle.ge
    rw [List.drop_of_length_le hmiddle.le, List.append_nil] at htoken
    have hwithin : within rnsSinglePacketEphemeralPublicLen
        (32 + (48 + 16 * (plaintext.length / 16 + 1)))
        (tokenEncrypt tokens (candidateKey crypto agreement recipient
          (crypto.x25519Public ephemeralSecret) recipient.x25519Secret) plaintext rng)
        ((crypto.x25519Public ephemeralSecret).toList ++ (output.drop 32).take token.length ++
          output.drop (32 + token.length)) = .ok token.length
            ((crypto.x25519Public ephemeralSecret).toList ++ token ++
              output.drop (32 + token.length)) :=
      run_within hpublic (by rw [hmiddle, hlen]) htoken
    have hsum : (addUsize rnsSinglePacketEphemeralPublicLen token.length :
        Outcome RnsCryptoError ℕ) = .ok (32 + token.length) :=
      if_pos (by rw [rnsSinglePacketEphemeralPublicLen]; omega)
    rw [encryptForIdentity, hephemeral]
    simp only
    rw [encryptWithSecret, Outcome.lift_bind (singlePacketLenForPlaintext_eq (by omega)),
      run_get_bind, Outcome.lift_bind (rejectIf_eq_ok (not_lt.mpr hroom)), Outcome.lift_bind hderive,
      run_bind_of_ok hcopy, run_bind_of_ok hwithin, hsum, hlen]
    rfl
  · intro output hroom
    rw [List.drop_left' hpublic]
    exact hdecrypt output hroom

end

end

/-- The first secret whose key authenticates the token decides, and no secret after it is tried. A
packet for the identity key comes back when no ratchet authenticates it, unless ratchets are
enforced. -/
theorem ratchet_selection (crypto : Primitives) (agreement : KeyAgreement) (tokens : TokenPrimitives)
    (recipient : RnsSecretIdentity) :
    (∀ (ciphertextToken : List UInt8) (ephemeralPublic : ByteArrayN 32)
      (ratchets : List RnsRatchetSecretRef) (enforceRatchets : Bool) (output : List UInt8) (k : ℕ),
      1 ≤ k → ciphertextToken.length = 32 + 48 + 16 * k →
      ephemeralPublic.toList = ciphertextToken.take 32 →
      (∀ candidate ∈ candidates recipient ratchets enforceRatchets,
        agreement.wasContributory (agreement.diffieHellman candidate.1 ephemeralPublic) = true) →
      (∀ key message, (tokens.hmacSha256 key message).isSome) →
      ((∀ candidate ∈ candidates recipient ratchets enforceRatchets, ¬Authenticates tokens
          ((candidateKey crypto agreement recipient ephemeralPublic candidate.1).take 32)
          (ciphertextToken.drop 32)) →
        decryptForIdentity crypto agreement tokens recipient ciphertextToken ratchets enforceRatchets
          output = .error (.error .authenticationFailed) output) ∧
      ∀ before candidate after,
        candidates recipient ratchets enforceRatchets = before ++ candidate :: after →
        (∀ earlier ∈ before, ¬Authenticates tokens
          ((candidateKey crypto agreement recipient ephemeralPublic earlier.1).take 32)
          (ciphertextToken.drop 32)) →
        Authenticates tokens
          ((candidateKey crypto agreement recipient ephemeralPublic candidate.1).take 32)
          (ciphertextToken.drop 32) →
        decryptForIdentity crypto agreement tokens recipient ciphertextToken ratchets enforceRatchets
          output = withRatchet candidate.2 (tokenDecrypt tokens
            (candidateKey crypto agreement recipient ephemeralPublic candidate.1)
            (ciphertextToken.drop 32) output)) ∧
    ∀ (plaintext : List UInt8) (rng : TryRng) (ephemeralSecret : ByteArrayN 32)
      (iv : ByteArrayN rnsTokenIvLen), tokens.Inverts → agreement.Commutes crypto →
      rng 32 = some ephemeralSecret → rng rnsTokenIvLen = some iv →
      agreement.wasContributory (agreement.diffieHellman recipient.x25519Secret
        (crypto.x25519Public ephemeralSecret)) = true →
      ∃ packet : List UInt8, packet.length = 32 + 48 + 16 * (plaintext.length / 16 + 1) ∧
        (∀ output : List UInt8, output.length < addressLimit → packet.length ≤ output.length →
          encryptForIdentity crypto agreement tokens (recipient.publicIdentity crypto) plaintext rng
            output = .ok packet.length (packet ++ output.drop packet.length)) ∧
        ∀ ratchets : List RnsRatchetSecretRef,
          (∀ ratchet ∈ ratchets, agreement.wasContributory (agreement.diffieHellman ratchet.secret
            (crypto.x25519Public ephemeralSecret)) = true) →
          (∀ ratchet ∈ ratchets, ¬Authenticates tokens
            ((candidateKey crypto agreement recipient (crypto.x25519Public ephemeralSecret)
              ratchet.secret).take 32) (packet.drop 32)) →
          (∀ output : List UInt8, 16 * (plaintext.length / 16 + 1) ≤ output.length →
            decryptForIdentity crypto agreement tokens recipient packet ratchets false output =
              .ok ⟨plaintext, none⟩ (plaintext ++
                List.replicate (16 * (plaintext.length / 16 + 1) - plaintext.length) 0 ++
                  output.drop (16 * (plaintext.length / 16 + 1)))) ∧
          ∀ output : List UInt8,
            decryptForIdentity crypto agreement tokens recipient packet ratchets true output =
              .error (.error .authenticationFailed) output := by
  constructor
  · intro ciphertextToken ephemeralPublic ratchets enforceRatchets output k hk hlen hephemeral
      hcontributory hhmac
    exact decryptForIdentity_selects hk hlen hephemeral hcontributory hhmac output
  · intro plaintext rng ephemeralSecret iv htokens hcommutes hrng hiv hidentity
    obtain ⟨packet, hlen, hephemeral, hencrypt, hdecrypt⟩ :=
      exists_packet htokens hcommutes hrng hiv hidentity plaintext
    have hk : 1 ≤ plaintext.length / 16 + 1 := Nat.le_add_left 1 _
    refine ⟨packet, hlen, hencrypt, ?_⟩
    intro ratchets hcontributory hratchets
    have hall := fun enforceRatchets => forall_candidates
      (P := fun secret => agreement.wasContributory (agreement.diffieHellman secret
        (crypto.x25519Public ephemeralSecret)) = true) hcontributory hidentity enforceRatchets
    have hrow := forall_ratchetCandidates (P := fun secret => ¬Authenticates tokens
      ((candidateKey crypto agreement recipient (crypto.x25519Public ephemeralSecret) secret).take 32)
      (packet.drop 32)) hratchets
    constructor
    · intro output hroom
      have hpacket : (packet.drop 32).length = 48 + 16 * (plaintext.length / 16 + 1) := by
        rw [List.length_drop]
        omega
      have hauthentic : Authenticates tokens ((candidateKey crypto agreement recipient
          (crypto.x25519Public ephemeralSecret) recipient.x25519Secret).take 32) (packet.drop 32) := by
        by_contra hne
        have hfailed := tokenDecrypt_candidateKey_of_not_authentic (by omega) (by omega) htokens.hmac
          hne output
        rw [hdecrypt output hroom] at hfailed
        cases hfailed
      have hrun := (decryptForIdentity_selects hk hlen hephemeral.symm (hall false) htokens.hmac
        output).2 _ (recipient.x25519Secret, none) [] rfl hrow hauthentic
      rw [hrun, hdecrypt output hroom, withRatchet, List.append_assoc, List.take_left]
    · intro output
      have hcandidates : candidates recipient ratchets true =
          ratchets.zipIdx.map fun entry => (entry.1.secret, some entry.2) := List.append_nil _
      apply (decryptForIdentity_selects hk hlen hephemeral.symm (hall true) htokens.hmac output).1
      rw [hcandidates]
      exact hrow

/-! ## A packet with known keys -/

/-- The ephemeral secret of the packet. -/
def packetEphemeralSecret : ByteArrayN 32 := fillBytes 32 3

/-- A ratchet that the packet was not sent to. -/
def packetRatchet : RnsRatchetSecretRef := ⟨fillBytes 32 4⟩

/-- The ephemeral public key, in front of the packet. -/
def packetEphemeralPublic : ByteArrayN 32 :=
  spelled 32 0x5dfedd3b6bd47f6fa28ee15d969d5bb0ea53774d488bdaf9df1c6e0124b3ef22

/-- What the ephemeral key and the identity key agree on. -/
def packetShared : ByteArrayN 32 :=
  spelled 32 0xb0190541a2abb8bc163b6eef0fae7ba0179004b444326f73809563164d47c521

/-- What the ephemeral key and the ratchet agree on. -/
def packetRatchetShared : ByteArrayN 32 :=
  spelled 32 0x40e47a3f525bdcac491d418978d7db5af623ac7afe7623c6d78a5d4fce9d0f63

/-- The key derived for the identity key. -/
def packetKey : ℕ :=
  0xbd625ac4cfa4d01cf6114b6650d8db7d1f46e4f696f3be846abe403630e86911 * 2 ^ 256 +
    0xdbfe0335ad733c927bb65436f74f73fa28721f3a1ecb357ba1162470d7469559

/-- The key derived for the ratchet. -/
def packetRatchetKey : ℕ :=
  0x5c136840e585cab5d36e6f114cd7c745531689d8320bc9e7b945e8c77d9373ed * 2 ^ 256 +
    0x6b07e133898ae2da24c1d92df63c714e556cab0619d8eeff502b77e47fae9411

/-- The vector of the packet. -/
def packetIv : ByteArrayN rnsTokenIvLen := fillBytes rnsTokenIvLen 5

/-- The blocks of the packet under AES. -/
def packetCiphertext : List UInt8 := toBe 16 0x5fb8618b9b43ebdb38113c3b1ff546a9

/-- The tag under the identity key. -/
def packetTag : ByteArrayN 32 :=
  spelled 32 0xc9b891fff5a7cd51df378c2bda319f7ec4adba9a2857d7d03159f41647c50ca0

/-- The tag under the ratchet, which is not the one of the packet. -/
def packetRatchetTag : ByteArrayN 32 :=
  spelled 32 0x11c711db72b375a4a36fa409d80be8f70175f6cb127e6274959572b7b4942440

/-- The public keys of the two secrets. -/
def packetPublicKeys : Equiv.Perm (ByteArrayN 32) :=
  (Equiv.swap sampleIdentity.x25519Secret sampleX25519Public).trans
    (Equiv.swap packetEphemeralSecret packetEphemeralPublic)

/-- The known values, with the keys derived for the packet. -/
def packetPrimitives : Primitives :=
  { samplePrimitives with
    x25519Public := packetPublicKeys
    expand := fun salt inputKey _ len => spelled len (
      if salt = sampleIdentityHash.toList.take 16 ∧ inputKey = packetShared.toList then packetKey
      else if salt = sampleIdentityHash.toList.take 16 ∧ inputKey = packetRatchetShared.toList then
        packetRatchetKey
      else 0) }

/-- What two secrets agree on. -/
def packetAgreement : ByteArrayN 32 → ByteArrayN 32 → ByteArrayN 32 := fun first second =>
  if s(first, second) = s(sampleIdentity.x25519Secret, packetEphemeralSecret) then packetShared
  else if s(first, second) = s(packetRatchet.secret, packetEphemeralSecret) then packetRatchetShared
  else fillBytes 32 0

/-- X25519 on the known keys. -/
def packetKeyAgreement : KeyAgreement where
  diffieHellman secret publicKey := packetAgreement secret (packetPublicKeys.symm publicKey)
  wasContributory shared := shared ≠ fillBytes 32 0

/-- HMAC on the known inputs. -/
def packetHmac (key message : List UInt8) : ByteArrayN 32 :=
  if message ≠ packetIv.toList ++ packetCiphertext then fillBytes 32 0
  else if key = toBe 32 (packetKey / 2 ^ 256) then packetTag
  else if key = toBe 32 (packetRatchetKey / 2 ^ 256) then packetRatchetTag
  else fillBytes 32 0

/-- The cipher keeps the length. -/
theorem length_packetCiphertext : (padded helloToken).length = packetCiphertext.length := rfl

/-- AES and HMAC on the known inputs. -/
def packetTokens : TokenPrimitives :=
  swapTokens (padded helloToken) packetCiphertext length_packetCiphertext packetHmac

/-- The vector, the blocks and the tag. -/
def packetToken : List UInt8 := packetIv.toList ++ packetCiphertext ++ packetTag.toList

/-- Both sides agree on one secret. -/
theorem packetKeyAgreement_commutes : packetKeyAgreement.Commutes packetPrimitives := by
  intro first second
  have hsymm : ∀ a b, packetAgreement a b = packetAgreement b a := by
    intro a b
    rw [packetAgreement, packetAgreement, Sym2.eq_swap]
  show packetAgreement first (packetPublicKeys.symm (packetPublicKeys second)) =
    packetAgreement second (packetPublicKeys.symm (packetPublicKeys first))
  rw [Equiv.symm_apply_apply, Equiv.symm_apply_apply, hsymm]

/-- The hash of the identity. -/
theorem identityHash_sampleIdentity :
    (identityHash packetPrimitives (sampleIdentity.publicIdentity packetPrimitives)).toList =
      sampleIdentityHash.toList.take 16 := by
  have hpublic : packetPublicKeys sampleIdentity.x25519Secret = sampleX25519Public := by decide
  have hverifying : packetPrimitives.verifyingKey sampleIdentity.ed25519Secret = sampleVerifyingKey :=
    Equiv.swap_apply_left _ _
  have hsha256 : packetPrimitives.sha256 (sampleX25519Public.toList ++ sampleVerifyingKey.toList) =
      sampleIdentityHash := by
    simp only [packetPrimitives, samplePrimitives, if_true]
  show ((packetPrimitives.sha256 ((packetPublicKeys sampleIdentity.x25519Secret).toList ++
    (packetPrimitives.verifyingKey sampleIdentity.ed25519Secret).toList)).toList.take 16) = _
  rw [hpublic, hverifying, hsha256]

/-- The key of the identity. -/
theorem candidateKey_sampleIdentity :
    candidateKey packetPrimitives packetKeyAgreement sampleIdentity packetEphemeralPublic
      sampleIdentity.x25519Secret = toBe 64 packetKey := by
  have hshared : packetKeyAgreement.diffieHellman sampleIdentity.x25519Secret packetEphemeralPublic =
      packetShared := by decide
  rw [candidateKey, derivedTokenKey, hshared, identityHash_sampleIdentity]
  exact congrArg (toBe 64) (if_pos ⟨rfl, rfl⟩)

/-- The key of the ratchet. -/
theorem candidateKey_packetRatchet :
    candidateKey packetPrimitives packetKeyAgreement sampleIdentity packetEphemeralPublic
      packetRatchet.secret = toBe 64 packetRatchetKey := by
  have hshared : packetKeyAgreement.diffieHellman packetRatchet.secret packetEphemeralPublic =
      packetRatchetShared := by decide
  have hne : ¬(sampleIdentityHash.toList.take 16 = sampleIdentityHash.toList.take 16 ∧
      packetRatchetShared.toList = packetShared.toList) := by decide
  rw [candidateKey, derivedTokenKey, hshared, identityHash_sampleIdentity]
  exact congrArg (toBe 64) ((if_neg hne).trans (if_pos ⟨rfl, rfl⟩))

/-- What is authenticated, and the tag. -/
theorem packetToken_parts :
    packetToken.take (packetToken.length - 32) = packetIv.toList ++ packetCiphertext ∧
      packetToken.drop (packetToken.length - 32) = packetTag.toList := ⟨rfl, rfl⟩

/-- The token authenticates under the key of the identity. -/
theorem authenticates_packetKey : Authenticates packetTokens ((toBe 64 packetKey).take 32) packetToken := by
  have hkey : (toBe 64 packetKey).take 32 = toBe 32 (packetKey / 2 ^ 256) := by decide
  have htag : packetHmac (toBe 32 (packetKey / 2 ^ 256)) (packetIv.toList ++ packetCiphertext) =
      packetTag := by
    rw [packetHmac, if_neg (not_not.mpr rfl), if_pos rfl]
  rw [Authenticates, packetToken_parts.1, packetToken_parts.2, hkey]
  exact congrArg (fun tag => some tag.toList) htag

/-- It does not under the key of the ratchet. -/
theorem not_authenticates_packetRatchetKey :
    ¬Authenticates packetTokens ((toBe 64 packetRatchetKey).take 32) packetToken := by
  have hkey : (toBe 64 packetRatchetKey).take 32 = toBe 32 (packetRatchetKey / 2 ^ 256) := by decide
  have hne : toBe 32 (packetRatchetKey / 2 ^ 256) ≠ toBe 32 (packetKey / 2 ^ 256) := by decide
  have htag : packetHmac (toBe 32 (packetRatchetKey / 2 ^ 256)) (packetIv.toList ++ packetCiphertext) =
      packetRatchetTag := by
    rw [packetHmac, if_neg (not_not.mpr rfl), if_neg hne, if_pos rfl]
  have htags : packetRatchetTag.toList ≠ packetTag.toList := by decide
  rw [Authenticates, packetToken_parts.1, packetToken_parts.2, hkey]
  intro h
  apply htags
  rw [← htag]
  exact Option.some.inj h

/-- The packet is refused where ratchets are enforced, and decrypted with the identity key where
they are not. -/
theorem ratchet_selection_sample :
    (decryptForIdentity packetPrimitives packetKeyAgreement packetTokens sampleIdentity
      (packetEphemeralPublic.toList ++ packetToken) [packetRatchet] true [7] =
        .error (.error .authenticationFailed) [7] ∧
      decryptForIdentity packetPrimitives packetKeyAgreement packetTokens sampleIdentity
        (packetEphemeralPublic.toList ++ packetToken) [packetRatchet] false [7] =
          withRatchet none (tokenDecrypt packetTokens (toBe 64 packetKey) packetToken [7])) ∧
    ∃ packet : List UInt8, packet.length = 96 ∧
      (∀ output : List UInt8, output.length < addressLimit → packet.length ≤ output.length →
        encryptForIdentity packetPrimitives packetKeyAgreement packetTokens
          (sampleIdentity.publicIdentity packetPrimitives) helloToken
          (fun n => some (fillBytes n (if n = 32 then 3 else 5))) output =
            .ok packet.length (packet ++ output.drop packet.length)) ∧
      ∀ output : List UInt8, 16 ≤ output.length →
        decryptForIdentity packetPrimitives packetKeyAgreement packetTokens sampleIdentity packet []
          false output = .ok ⟨helloToken, none⟩ (helloToken ++ [0, 0, 0, 0, 0] ++ output.drop 16) := by
  have hpublic : packetEphemeralPublic.toList.length = 32 := packetEphemeralPublic.toList_length
  have htoken : (packetEphemeralPublic.toList ++ packetToken).drop 32 = packetToken :=
    List.drop_left' hpublic
  have htake : packetEphemeralPublic.toList = (packetEphemeralPublic.toList ++ packetToken).take 32 :=
    (List.take_left' hpublic).symm
  have hselects := fun enforceRatchets hcontributory => (ratchet_selection packetPrimitives
    packetKeyAgreement packetTokens sampleIdentity).1 (packetEphemeralPublic.toList ++ packetToken)
    packetEphemeralPublic [packetRatchet] enforceRatchets [7] 1 le_rfl rfl htake hcontributory
    fun _ _ => rfl
  rw [htoken] at hselects
  have hratchet : packetKeyAgreement.wasContributory
      (packetKeyAgreement.diffieHellman packetRatchet.secret packetEphemeralPublic) = true := by decide
  have hidentity : packetKeyAgreement.wasContributory (packetKeyAgreement.diffieHellman
      sampleIdentity.x25519Secret packetEphemeralPublic) = true := by decide
  have hne : ¬Authenticates packetTokens ((candidateKey packetPrimitives packetKeyAgreement
      sampleIdentity packetEphemeralPublic packetRatchet.secret).take 32) packetToken := by
    rw [candidateKey_packetRatchet]
    exact not_authenticates_packetRatchetKey
  have hauthentic : Authenticates packetTokens ((candidateKey packetPrimitives packetKeyAgreement
      sampleIdentity packetEphemeralPublic sampleIdentity.x25519Secret).take 32) packetToken := by
    rw [candidateKey_sampleIdentity]
    exact authenticates_packetKey
  refine ⟨⟨(hselects true (List.forall_mem_singleton.mpr hratchet)).1
    (List.forall_mem_singleton.mpr hne), ?_⟩, ?_⟩
  · rw [← candidateKey_sampleIdentity]
    exact (hselects false (List.forall_mem_cons.mpr ⟨hratchet, List.forall_mem_singleton.mpr
      hidentity⟩)).2 [(packetRatchet.secret, some 0)] (sampleIdentity.x25519Secret, none) [] rfl
      (List.forall_mem_singleton.mpr hne) hauthentic
  · have hephemeral : packetPrimitives.x25519Public packetEphemeralSecret = packetEphemeralPublic := by
      decide
    obtain ⟨packet, hlen, hencrypt, hdecrypt⟩ := (ratchet_selection packetPrimitives
      packetKeyAgreement packetTokens sampleIdentity).2 helloToken
      (fun n => some (fillBytes n (if n = 32 then 3 else 5))) packetEphemeralSecret packetIv
      (swapTokens_inverts _ _ _ _) packetKeyAgreement_commutes rfl rfl (hephemeral ▸ hidentity)
    exact ⟨packet, hlen, hencrypt, (hdecrypt [] (by simp) (by simp)).1⟩

end Hyf.Rns
