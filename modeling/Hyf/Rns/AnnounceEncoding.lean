import Hyf.Rns.AnnounceTheorems

/-!
# Every announce that is encoded validates

`signedAnnounce` is the announce that the encoder makes of its parameters. The encoder checks the
lengths, the name, the clock and the random source before it writes, in that order
(`encodeAnnouncePacket_eq_error`); past them it writes the packet of that announce
(`encodeAnnouncePacket_eq_ok`), whose validation goes through the same layouts.
-/

namespace Hyf.Rns

open ByteCodec BufferM WriterM

/-- What the encoder asks of a name, the application data, the random source, the clock and the
output. -/
structure Announceable (params : RnsAnnounceEncodeParams) (rng : TryRng) (nowUnixSecs : UInt64)
    (outLen : ℕ) : Prop where
  appData_le : params.appData.length ≤ 333
  room : 167 + params.appData.length ≤ outLen
  appName : '.' ∉ params.appName.toList
  aspects : ∀ aspect ∈ params.aspects, '.' ∉ aspect.toList
  clock : nowUnixSecs.toNat < 2 ^ 40
  random : (rng 5).isSome

section

variable (crypto : Primitives) (params : RnsAnnounceEncodeParams)

/-- The announce before it is signed. -/
def unsignedAnnounce (nameHash : ByteArrayN rnsNameHashLen)
    (randomHash : ByteArrayN rnsAnnounceRandomHashLen) : RnsAnnounce where
  destinationHash := destinationHash crypto nameHash (some (identityHash crypto params.publicIdentity))
  publicIdentity := publicIdentityToBytes params.publicIdentity
  nameHash := nameHash
  randomHash := randomHash
  ratchet := none
  signature := fillBytes rnsAnnounceSignatureLen 0
  appData := params.appData

def signedAnnounce (nameHash : ByteArrayN rnsNameHashLen)
    (randomHash : ByteArrayN rnsAnnounceRandomHashLen) : RnsAnnounce :=
  { unsignedAnnounce crypto params nameHash randomHash with
    signature := crypto.sign params.secretIdentity.ed25519Secret
      (signedData (unsignedAnnounce crypto params nameHash randomHash)) }

end

/-! ## The checks in front -/

theorem destinationNameHash_cases (crypto : Primitives) (appName : String) (aspects : List String) :
    (('.' ∉ appName.toList ∧ ∀ aspect ∈ aspects, '.' ∉ aspect.toList) ∧
      ∃ nameHash, destinationNameHash crypto appName aspects = .ok nameHash) ∨
    ¬('.' ∉ appName.toList ∧ ∀ aspect ∈ aspects, '.' ∉ aspect.toList) ∧
      ∃ error, destinationNameHash crypto appName aspects = .error error := by
  unfold destinationNameHash validateDestinationName containsDot
  by_cases happName : '.' ∈ appName.toList
  · refine .inr ⟨fun h => h.1 happName, ?_⟩
    rw [if_pos (by simpa using happName)]
    exact ⟨_, rfl⟩
  · rw [if_neg (by simpa using happName)]
    by_cases haspects : ∃ aspect ∈ aspects, '.' ∈ aspect.toList
    · refine .inr ⟨fun h => ?_, ?_⟩
      · obtain ⟨aspect, hmem, hdot⟩ := haspects
        exact h.2 aspect hmem hdot
      · rw [if_pos (by simpa using haspects)]
        exact ⟨_, rfl⟩
    · refine .inl ⟨⟨happName, ?_⟩, ?_⟩
      · intro aspect hmem hdot
        exact haspects ⟨aspect, hmem, hdot⟩
      · rw [if_neg (by simpa using haspects)]
        exact ⟨_, rfl⟩

/-- The random hash ends in the time. -/
theorem reticulumRandomHash_cases (rng : TryRng) (nowUnixSecs : UInt64) :
    ((nowUnixSecs.toNat < 2 ^ 40 ∧ (rng 5).isSome) ∧ ∃ randomHash,
      reticulumRandomHash rng nowUnixSecs = .ok randomHash ∧
        randomHash.toList.drop 5 = toBe 5 nowUnixSecs.toNat) ∨
    ¬(nowUnixSecs.toNat < 2 ^ 40 ∧ (rng 5).isSome) ∧
      ∃ error, reticulumRandomHash rng nowUnixSecs = fail error := by
  by_cases hclock : nowUnixSecs.toNat < 2 ^ 40
  · have hlimit : ¬maxReticulumRandomHashTimestamp < nowUnixSecs.toNat := by
      rw [maxReticulumRandomHashTimestamp]
      omega
    rw [reticulumRandomHash, Outcome.bind_eq (rejectIf_eq_ok hlimit)]
    cases hrandom : rng 5 with
    | none => exact .inr ⟨fun h => Bool.false_ne_true h.2, _, rfl⟩
    | some random =>
      refine .inl ⟨⟨hclock, rfl⟩, _, rfl, ?_⟩
      have hlen : random.toList.length = 5 := random.toList_length
      exact (List.drop_left' hlen).trans (drop_toBe 3 5 nowUnixSecs.toNat)
  · have hlimit : maxReticulumRandomHashTimestamp < nowUnixSecs.toNat := by
      rw [maxReticulumRandomHashTimestamp]
      omega
    rw [reticulumRandomHash, rejectIf_eq_fail hlimit]
    exact .inr ⟨fun h => hclock h.1, _, rfl⟩

theorem announceEncodeDataLen_cases (appDataLen : ℕ) :
    announceEncodeDataLen appDataLen = .ok (148 + appDataLen) ∨
    333 < appDataLen ∧ ∃ error, announceEncodeDataLen appDataLen = fail error := by
  unfold announceEncodeDataLen checkedAdd announceNoRatchetMinLen
  split_ifs with hlimit
  · exact .inl rfl
  · rw [addressLimit] at hlimit
    exact .inr ⟨by omega, _, rfl⟩

theorem packetLenForAnnounceData_cases (len : ℕ) :
    (19 + len ≤ rnsMtu ∧ packetLenForAnnounceData len = .ok (19 + len)) ∨
    rnsMtu < 19 + len ∧ ∃ error, packetLenForAnnounceData len = fail error := by
  by_cases hsize : 19 + len ≤ rnsMtu
  · refine .inl ⟨hsize, ?_⟩
    rw [packetLenForAnnounceData, rnsHeader1Len, checkedAdd_eq_some (hsize.trans_lt (by decide))]
    simp only [Bind.bind, Except.bind, rejectIf_eq_ok (Nat.not_lt.mpr hsize)]
    rfl
  · refine .inr ⟨Nat.not_le.mp hsize, ?_⟩
    unfold packetLenForAnnounceData checkedAdd rnsHeader1Len
    split_ifs with hlimit
    · simp only [Bind.bind, Except.bind, rejectIf_eq_fail (Nat.not_le.mp hsize)]
      exact ⟨_, rfl⟩
    · exact ⟨_, rfl⟩

/-! ## The parts behind the checks -/

theorem writes_writeAnnounceData (crypto : Primitives) (params : RnsAnnounceEncodeParams)
    (nameHash : ByteArrayN rnsNameHashLen) (randomHash : ByteArrayN rnsAnnounceRandomHashLen) :
    Writes (writeAnnounceData (publicIdentityToBytes params.publicIdentity) nameHash randomHash
      (signedAnnounce crypto params nameHash randomHash).signature params.appData)
      (announceData (signedAnnounce crypto params nameHash randomHash)) :=
  (writes_writeArray _).bind ((writes_writeArray _).bind ((writes_writeArray _).bind
    ((writes_writeArray _).bind (writes_writeArray _))))

theorem slice_front (bytes rest : List UInt8) :
    (slice (bytes ++ rest) 0 bytes.length : Outcome RnsWireError (List UInt8)) = .ok bytes :=
  @slice_append _ [] bytes rest 0 bytes.length rfl (Nat.zero_add bytes.length)

/-- Behind the checks the encoder writes the packet of the signed announce. -/
theorem encodeAnnouncePacket_eq {crypto : Primitives} {params : RnsAnnounceEncodeParams} {rng : TryRng}
    {nowUnixSecs : UInt64} {output : List UInt8} {nameHash : ByteArrayN rnsNameHashLen}
    {randomHash : ByteArrayN rnsAnnounceRandomHashLen} (happData : params.appData.length ≤ 333)
    (hroom : 167 + params.appData.length ≤ output.length)
    (hname : destinationNameHash crypto params.appName params.aspects = .ok nameHash)
    (hrandom : reticulumRandomHash rng nowUnixSecs = .ok randomHash) :
    encodeAnnouncePacket crypto params rng nowUnixSecs output =
      encodePacket (announcePacket (signedAnnounce crypto params nameHash randomHash)) output := by
  obtain hdata | ⟨hlong, -⟩ := announceEncodeDataLen_cases params.appData.length
  swap
  · omega
  obtain ⟨-, hpacket⟩ | ⟨hlong, -⟩ := packetLenForAnnounceData_cases (148 + params.appData.length)
  swap
  · rw [rnsMtu] at hlong
    omega
  -- both buffers have room for what is written into them
  have hsigned : (signedData (unsignedAnnounce crypto params nameHash randomHash)).length =
      100 + params.appData.length := length_signedData _
  have hannounce : (announceData (signedAnnounce crypto params nameHash randomHash)).length =
      148 + params.appData.length := length_announceData _
  have hbuild := @buildAnnounceSignedData_eq (unsignedAnnounce crypto params nameHash randomHash)
    (List.replicate rnsMtu 0) (by rw [hsigned, addressLimit]; omega)
    (by rw [hsigned, List.length_replicate, rnsMtu]; omega)
  have hwrite := (writes_writeAnnounceData crypto params nameHash randomHash).runOn
    (show _ < addressLimit by rw [hannounce, addressLimit]; omega)
    (show _ ≤ (List.replicate (rnsMtu - rnsHeader1Len) (0 : UInt8)).length by
      rw [hannounce, List.length_replicate, rnsMtu, rnsHeader1Len]; omega)
  rw [encodeAnnouncePacket, Outcome.lift_bind hdata, Outcome.lift_bind hpacket, run_get_bind,
    Outcome.lift_bind (rejectIf_eq_ok (by omega))]
  simp only [Outcome.lift_bind (ofResult_eq_ok hname fun _ => RnsWireError.invalidDestinationName)]
  rw [Outcome.lift_bind hrandom]
  -- what is read back from the buffers is what was written
  refine (congrFun (Outcome.lift_bind hbuild _) output).trans ?_
  refine (congrFun (Outcome.lift_bind (slice_front _ _) _) output).trans ?_
  refine (congrFun (Outcome.lift_bind (ofResult_eq_ok (sign_eq crypto _ _) mapCryptoError) _)
    output).trans ?_
  refine (congrFun (Outcome.lift_bind hwrite _) output).trans ?_
  exact congrFun (Outcome.lift_bind (slice_front _ _) _) output

/-- The first check that fails is reported, and nothing is written. -/
theorem encodeAnnouncePacket_eq_error {crypto : Primitives} {params : RnsAnnounceEncodeParams}
    {rng : TryRng} {nowUnixSecs : UInt64} {output : List UInt8}
    (h : ¬Announceable params rng nowUnixSecs output.length) :
    ∃ error, encodeAnnouncePacket crypto params rng nowUnixSecs output =
      .error (.error error) output := by
  unfold encodeAnnouncePacket
  obtain hdata | ⟨-, error, hdata⟩ := announceEncodeDataLen_cases params.appData.length
  swap
  · exact ⟨_, Outcome.run_lift_bind_fail hdata _ _⟩
  rw [Outcome.lift_bind hdata]
  obtain ⟨hsize, hpacket⟩ | ⟨-, error, hpacket⟩ :=
    packetLenForAnnounceData_cases (148 + params.appData.length)
  swap
  · exact ⟨_, Outcome.run_lift_bind_fail hpacket _ _⟩
  rw [Outcome.lift_bind hpacket, run_get_bind]
  by_cases hroom : output.length < 19 + (148 + params.appData.length)
  · exact ⟨_, Outcome.run_lift_bind_fail (rejectIf_eq_fail hroom) _ _⟩
  rw [Outcome.lift_bind (rejectIf_eq_ok hroom)]
  obtain ⟨⟨happName, haspects⟩, nameHash, hname⟩ | ⟨-, error, hname⟩ :=
    destinationNameHash_cases crypto params.appName params.aspects
  swap
  · exact ⟨_, Outcome.run_lift_bind_fail (ofResult_eq_fail hname _) _ _⟩
  simp only [Outcome.lift_bind (ofResult_eq_ok hname fun _ => RnsWireError.invalidDestinationName)]
  obtain ⟨⟨hclock, hrng⟩, -⟩ | ⟨-, error, hrandom⟩ := reticulumRandomHash_cases rng nowUnixSecs
  swap
  · exact ⟨_, Outcome.run_lift_bind_fail hrandom _ _⟩
  rw [rnsMtu] at hsize
  exact absurd ⟨by omega, by omega, happName, haspects, hclock, hrng⟩ h

/-! ## Validation -/

/-- What validation asks of the announce in a packet. -/
theorem validateAnnouncePacket_eq_ok {crypto : Primitives} {packet : RnsPacket} {announce : RnsAnnounce}
    {identity : RnsPublicIdentity} (hannounces : Announces packet announce)
    (hidentity : publicIdentityFromBytes crypto announce.publicIdentity = .ok identity)
    (hdestination : destinationHash crypto announce.nameHash (some (identityHash crypto identity)) =
      announce.destinationHash)
    (hsize : (signedData announce).length ≤ rnsMtu)
    (hverify : verify crypto identity (signedData announce) announce.signature = .ok ()) :
    validateAnnouncePacket crypto packet = .ok announce := by
  have hbuild := @buildAnnounceSignedData_eq announce (List.replicate rnsMtu 0)
    (hsize.trans_lt (by decide)) (by rw [List.length_replicate]; exact hsize)
  rw [validateAnnouncePacket, Outcome.bind_eq (decodeAnnouncePacket_eq_ok hannounces),
    Outcome.bind_eq (ofResult_eq_ok hidentity _),
    Outcome.bind_eq (rejectIf_eq_ok (not_not.mpr hdestination))]
  simp only [Outcome.bind_eq hbuild]
  rw [Outcome.bind_eq (slice_front _ _), Outcome.bind_eq (ofResult_eq_ok hverify _)]
  rfl

/-- The announce that a node signs with its own identity is validated. -/
theorem validateAnnouncePacket_signedAnnounce {crypto : Primitives} (hcrypto : crypto.Accepts)
    {params : RnsAnnounceEncodeParams}
    (hidentity : params.publicIdentity = params.secretIdentity.publicIdentity crypto)
    (happData : params.appData.length ≤ 333) (nameHash : ByteArrayN rnsNameHashLen)
    (randomHash : ByteArrayN rnsAnnounceRandomHashLen) :
    validateAnnouncePacket crypto (announcePacket (signedAnnounce crypto params nameHash randomHash)) =
      .ok (signedAnnounce crypto params nameHash randomHash) := by
  have hkey : params.publicIdentity.ed25519Public =
      crypto.verifyingKey params.secretIdentity.ed25519Secret := by rw [hidentity]; rfl
  have hvalid : crypto.isVerifyingKey params.publicIdentity.ed25519Public = true := by
    rw [hkey]
    exact hcrypto.isVerifyingKey _
  have hlen : (signedData (signedAnnounce crypto params nameHash randomHash)).length =
      100 + params.appData.length := length_signedData _
  apply validateAnnouncePacket_eq_ok (announces_announcePacket _)
    (publicIdentityFromBytes_toBytes hvalid) rfl
  · rw [hlen, rnsMtu]
    omega
  · have haccepted : crypto.verify params.publicIdentity.ed25519Public
        (signedData (signedAnnounce crypto params nameHash randomHash))
        (signedAnnounce crypto params nameHash randomHash).signature = true := by
      rw [hkey]
      exact hcrypto.verify _ _
    unfold verify
    rw [if_neg (not_not.mpr hvalid), if_pos haccepted]

/-- **Every announce a node produces is accepted.** With the identity of its own secret, a name without
dots, at most 333 bytes of application data, a clock below 2^40, a random source that does not fail and
room in the output, the encoder writes an announce that is decoded and validated: the identity, the
hash of the name, no ratchet, the application data, and the clock at the end of the random hash. In all
other cases it fails and leaves the output alone. -/
theorem encoded_announce_validates {crypto : Primitives} (hcrypto : crypto.Accepts)
    (secret : RnsSecretIdentity) (appName : String) (aspects : List String) (appData : List UInt8)
    (rng : TryRng) (nowUnixSecs : UInt64) (output : List UInt8) :
    let params : RnsAnnounceEncodeParams :=
      ⟨secret, secret.publicIdentity crypto, appName, aspects, appData⟩
    (appData.length ≤ 333 ∧ 167 + appData.length ≤ output.length ∧ '.' ∉ appName.toList ∧
        (∀ aspect ∈ aspects, '.' ∉ aspect.toList) ∧ nowUnixSecs.toNat < 2 ^ 40 ∧ (rng 5).isSome →
      ∃ bytes packet announce, bytes.length = 167 + appData.length ∧
        encodeAnnouncePacket crypto params rng nowUnixSecs output =
          .ok bytes.length (bytes ++ output.drop bytes.length) ∧
        Checked.decodePacket bytes = .ok packet ∧
        validateAnnouncePacket crypto packet = .ok announce ∧
        publicIdentityFromBytes crypto announce.publicIdentity = .ok (secret.publicIdentity crypto) ∧
        destinationNameHash crypto appName aspects = .ok announce.nameHash ∧
        announce.ratchet = none ∧ announce.appData = appData ∧
        announce.randomHash.toList.drop 5 = toBe 5 nowUnixSecs.toNat) ∧
    (¬(appData.length ≤ 333 ∧ 167 + appData.length ≤ output.length ∧ '.' ∉ appName.toList ∧
        (∀ aspect ∈ aspects, '.' ∉ aspect.toList) ∧ nowUnixSecs.toNat < 2 ^ 40 ∧ (rng 5).isSome) →
      ∃ error, encodeAnnouncePacket crypto params rng nowUnixSecs output =
        .error (.error error) output) := by
  intro params
  refine ⟨?_, ?_⟩
  · rintro ⟨happData, hroom, hname, haspects, hclock, hrng⟩
    obtain ⟨-, nameHash, hnameHash⟩ | ⟨hdotted, -⟩ := destinationNameHash_cases crypto appName aspects
    swap
    · exact absurd ⟨hname, haspects⟩ hdotted
    obtain ⟨-, randomHash, hrandom, htime⟩ | ⟨hrefused, -⟩ :=
      reticulumRandomHash_cases rng nowUnixSecs
    swap
    · exact absurd ⟨hclock, hrng⟩ hrefused
    have hencode := @encodeAnnouncePacket_eq crypto params rng nowUnixSecs output nameHash randomHash
      happData hroom hnameHash hrandom
    have hdata : (announceData (signedAnnounce crypto params nameHash randomHash)).length =
        148 + appData.length := length_announceData _
    have hencodable : Encodable (announcePacket (signedAnnounce crypto params nameHash randomHash)) :=
      ⟨iff_of_false Bool.false_ne_true RnsHeaderType.noConfusion, by
        show 19 + (announceData _).length ≤ 500; omega⟩
    have hlen : (packetBytes (announcePacket (signedAnnounce crypto params nameHash randomHash))).length =
        167 + appData.length := by
      rw [length_packetBytes hencodable.transport]
      show 19 + (announceData _).length = _
      omega
    have hkey : crypto.isVerifyingKey (secret.publicIdentity crypto).ed25519Public = true :=
      hcrypto.isVerifyingKey secret.ed25519Secret
    exact ⟨_, _, _, hlen, hencode.trans (encodePacket_eq_ok hencodable (hlen ▸ hroom)),
      Checked.decodePacket_eq_ok_iff.mpr (decodePacket_packetBytes hencodable),
      validateAnnouncePacket_signedAnnounce hcrypto rfl happData nameHash randomHash,
      publicIdentityFromBytes_toBytes hkey, hnameHash, rfl, rfl, htime⟩
  · intro h
    apply encodeAnnouncePacket_eq_error
    intro hannounceable
    exact h ⟨hannounceable.appData_le, hannounceable.room, hannounceable.appName,
      hannounceable.aspects, hannounceable.clock, hannounceable.random⟩

theorem encoded_announce_validates_sample :
    ∃ bytes packet announce, bytes.length = 169 ∧
      encodeAnnouncePacket samplePrimitives
        ⟨sampleIdentity, sampleIdentity.publicIdentity samplePrimitives, "chat", ["one"], [1, 2]⟩
        (fun n => some (fillBytes n 7)) 1700000000 (List.replicate 200 0) =
          .ok bytes.length (bytes ++ (List.replicate 200 0).drop bytes.length) ∧
      Checked.decodePacket bytes = .ok packet ∧
      validateAnnouncePacket samplePrimitives packet = .ok announce ∧
      publicIdentityFromBytes samplePrimitives announce.publicIdentity =
        .ok (sampleIdentity.publicIdentity samplePrimitives) ∧
      destinationNameHash samplePrimitives "chat" ["one"] = .ok announce.nameHash ∧
      announce.ratchet = none ∧ announce.appData = [1, 2] ∧
      announce.randomHash.toList.drop 5 = toBe 5 1700000000 :=
  (encoded_announce_validates samplePrimitives_accepts sampleIdentity "chat" ["one"] [1, 2]
    (fun n => some (fillBytes n 7)) 1700000000 (List.replicate 200 0)).1 (by decide +kernel)

/-- The packet of that announce, byte by byte. -/
example : (do
    let len ← encodeAnnouncePacket samplePrimitives
      ⟨sampleIdentity, sampleIdentity.publicIdentity samplePrimitives, "chat", ["one"], [1, 2]⟩
      (fun n => some (fillBytes n 7)) 1700000000
    return (len, ← get)).run' (List.replicate 200 0) =
      some (169, packetBytes (announcePacket { plainAnnounce with
        signature := sampleSignature (sampleSignedData [1, 2])
        appData := [1, 2] }) ++ List.replicate 31 0) := by
  decide +kernel

end Hyf.Rns
