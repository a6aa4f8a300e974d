import Hyf.Rns.Announce
import Hyf.Rns.Ifac

/-!
# What an announce authenticates

`announceData` and `signedData` lay out the data of an announce packet and what is signed of it. The
first decides the announce once the context flag is known; the second does not contain the flag, and
`signedData_eq_cases` says what that leaves open.
-/

namespace Hyf.Rns

open ByteCodec BufferM WriterM

/-! ## Layout -/

/-- The bytes of the ratchet, if there is one. -/
def ratchetBytes : Option (ByteArrayN rnsAnnounceRatchetLen) → List UInt8
  | none => []
  | some ratchet => ratchet.toList

/-- The data of an announce packet. -/
def announceData (announce : RnsAnnounce) : List UInt8 :=
  announce.publicIdentity.toList ++ (announce.nameHash.toList ++ (announce.randomHash.toList ++
    (ratchetBytes announce.ratchet ++ (announce.signature.toList ++ announce.appData))))

/-- What is signed of an announce. -/
def signedData (announce : RnsAnnounce) : List UInt8 :=
  announce.destinationHash.toList ++ (announce.publicIdentity.toList ++ (announce.nameHash.toList ++
    (announce.randomHash.toList ++ (ratchetBytes announce.ratchet ++ announce.appData))))

section

variable (announce : RnsAnnounce)

/-- The field of the destination. -/
@[simp] theorem length_destinationHash : announce.destinationHash.toList.length = 16 :=
  announce.destinationHash.toList_length

/-- The field of the identity. -/
@[simp] theorem length_publicIdentity : announce.publicIdentity.toList.length = 64 :=
  announce.publicIdentity.toList_length

/-- The field of the name. -/
@[simp] theorem length_nameHash : announce.nameHash.toList.length = 10 :=
  announce.nameHash.toList_length

/-- The field of the random hash. -/
@[simp] theorem length_randomHash : announce.randomHash.toList.length = 10 :=
  announce.randomHash.toList_length

/-- The field of the signature. -/
@[simp] theorem length_signature : announce.signature.toList.length = 64 :=
  announce.signature.toList_length

/-- A ratchet takes 32 bytes, and none takes nothing. -/
@[simp] theorem length_ratchetBytes (ratchet : Option (ByteArrayN rnsAnnounceRatchetLen)) :
    (ratchetBytes ratchet).length = if ratchet.isSome then 32 else 0 := by
  cases ratchet with
  | none => rfl
  | some ratchet => exact ratchet.toList_length

end

/-- The bytes tell whether there is a ratchet, and which. -/
theorem ratchetBytes_injective : Function.Injective ratchetBytes := by
  intro first second h
  have hlen := congrArg List.length h
  cases first with
  | none =>
    cases second with
    | none => rfl
    | some second => simp at hlen
  | some first =>
    cases second with
    | none => simp at hlen
    | some second => exact congrArg some (List.Vector.toList_injective h)

/-- The length of what is signed. -/
theorem length_signedData (announce : RnsAnnounce) :
    (signedData announce).length =
      100 + (ratchetBytes announce.ratchet).length + announce.appData.length := by
  simp only [signedData, List.length_append, length_destinationHash, length_publicIdentity,
    length_nameHash, length_randomHash]
  omega

/-! ## Decoding -/

/-- A read in bounds succeeds. -/
theorem exists_readArray {n : ℕ} {input : List UInt8} {start stop : ℕ} (hstop : start + n = stop)
    (h : stop ≤ input.length) : ∃ field, readArray n input start stop = .ok field := by
  have hlen : ((input.drop start).take (stop - start)).length = n := by
    rw [List.length_take, List.length_drop]
    omega
  have hslice : (slice input start stop : Outcome RnsWireError (List UInt8)) = _ :=
    slice_eq_ok (by omega) h
  rw [readArray, Outcome.bind_eq hslice, toArray_eq_ok hlen]
  exact ⟨_, rfl⟩

/-- What is read stands in the input. -/
theorem ends_readArray {n : ℕ} {input : List UInt8} {start stop : ℕ} (hstop : start + n = stop)
    (h : stop ≤ input.length) :
    Ends (readArray n input start stop) fun field =>
      field.toList ++ input.drop stop = input.drop start := by
  have hlen : ((input.drop start).take (stop - start)).length = n := by
    rw [List.length_take, List.length_drop]
    omega
  have hslice : (slice input start stop : Outcome RnsWireError (List UInt8)) = _ :=
    slice_eq_ok (by omega) h
  rw [readArray, Outcome.bind_eq hslice, toArray_eq_ok hlen]
  show (input.drop start).take (stop - start) ++ input.drop stop = input.drop start
  have hdrop : input.drop stop = (input.drop start).drop (stop - start) := by
    rw [List.drop_drop]
    congr 1
    omega
  rw [hdrop, List.take_append_drop]

/-- The rest of the data, from an offset in bounds. -/
theorem slice_rest {input : List UInt8} {start : ℕ} (h : start ≤ input.length) :
    (slice input start input.length : Outcome RnsWireError (List UInt8)) = .ok (input.drop start) := by
  rw [slice_eq_ok h le_rfl, List.take_of_length_le (by rw [List.length_drop])]

/-- How an announce stands in its packet. -/
structure Announces (packet : RnsPacket) (announce : RnsAnnounce) : Prop where
  packetType : packet.flags.packetType = .announce
  destinationType : packet.flags.destinationType = .single
  ratchet : announce.ratchet.isSome = packet.flags.contextFlag
  destinationHash : announce.destinationHash = packet.destinationHash
  data : announceData announce = packet.data

/-- The packet that carries an announce on its first hop. -/
def announcePacket (announce : RnsAnnounce) : RnsPacket where
  flags := ⟨.header1, announce.ratchet.isSome, .broadcast, .single, .announce⟩
  hops := 0
  transportId := none
  destinationHash := announce.destinationHash
  context := 0
  data := announceData announce

/-- The packet that is written for an announce announces it. -/
theorem announces_announcePacket (announce : RnsAnnounce) :
    Announces (announcePacket announce) announce := ⟨rfl, rfl, rfl, rfl, rfl⟩

/-- The decoder never panics. -/
theorem ends_decodeAnnouncePacket (packet : RnsPacket) :
    Ends (decodeAnnouncePacket packet) (Announces packet) := by
  unfold decodeAnnouncePacket
  apply (ends_rejectIf _ _).bind
  intro _ hpacketType
  apply (ends_rejectIf _ _).bind
  intro _ hdestinationType
  rw [not_not] at hpacketType hdestinationType
  by_cases hflag : packet.flags.contextFlag = true
  · rw [if_pos hflag, decodeRatchetAnnounce]
    apply (ends_rejectIf _ _).bind
    intro _ hlong
    rw [announceRatchetMinLen] at hlong
    apply (ends_readArray (by rfl) (by omega)).bind
    intro publicIdentity hpublicIdentity
    apply (ends_readArray (by rfl) (by omega)).bind
    intro nameHash hnameHash
    apply (ends_readArray (by rfl) (by omega)).bind
    intro randomHash hrandomHash
    apply (ends_readArray (by rfl) (by omega)).bind
    intro ratchet hratchet
    apply (ends_readArray (by rfl) (by omega)).bind
    intro signature hsignature
    rw [Outcome.bind_eq (slice_rest (by omega))]
    refine ⟨hpacketType, hdestinationType, hflag.symm, rfl, ?_⟩
    simp only [announceData, ratchetBytes]
    rw [hsignature, hratchet, hrandomHash, hnameHash, hpublicIdentity]
    rfl
  · rw [if_neg hflag, decodeNoRatchetAnnounce]
    apply (ends_rejectIf _ _).bind
    intro _ hlong
    rw [announceNoRatchetMinLen] at hlong
    apply (ends_readArray (by rfl) (by omega)).bind
    intro publicIdentity hpublicIdentity
    apply (ends_readArray (by rfl) (by omega)).bind
    intro nameHash hnameHash
    apply (ends_readArray (by rfl) (by omega)).bind
    intro randomHash hrandomHash
    apply (ends_readArray (by rfl) (by omega)).bind
    intro signature hsignature
    rw [Outcome.bind_eq (slice_rest (by omega))]
    refine ⟨hpacketType, hdestinationType, by simpa using hflag, rfl, ?_⟩
    simp only [announceData, ratchetBytes, List.nil_append]
    rw [hsignature, hrandomHash, hnameHash, hpublicIdentity]
    rfl

/-- With the context flag known, the data decide the announce. -/
theorem Announces.unique {packet : RnsPacket} {first second : RnsAnnounce}
    (h : Announces packet first) (h' : Announces packet second) : first = second := by
  have hdata := h.data.trans h'.data.symm
  have hflag := h.ratchet.trans h'.ratchet.symm
  have hdestination := h.destinationHash.trans h'.destinationHash.symm
  obtain ⟨destination, identity, name, random, ratchet, signature, appData⟩ := first
  obtain ⟨destination', identity', name', random', ratchet', signature', appData'⟩ := second
  simp only [announceData] at hdata hflag hdestination
  obtain ⟨hidentity, hdata⟩ := List.append_inj hdata (by simp only [List.Vector.toList_length])
  obtain ⟨hname, hdata⟩ := List.append_inj hdata (by simp only [List.Vector.toList_length])
  obtain ⟨hrandom, hdata⟩ := List.append_inj hdata (by simp only [List.Vector.toList_length])
  obtain ⟨hratchet, hdata⟩ := List.append_inj hdata (by simp only [length_ratchetBytes, hflag])
  obtain ⟨hsignature, happData⟩ := List.append_inj hdata (by simp only [List.Vector.toList_length])
  rw [hdestination, List.Vector.toList_injective hidentity, List.Vector.toList_injective hname,
    List.Vector.toList_injective hrandom, ratchetBytes_injective hratchet,
    List.Vector.toList_injective hsignature, happData]

/-- The length of what is sent. -/
theorem length_announceData (announce : RnsAnnounce) :
    (announceData announce).length =
      148 + (ratchetBytes announce.ratchet).length + announce.appData.length := by
  simp only [announceData, List.length_append, length_publicIdentity, length_nameHash,
    length_randomHash, length_signature]
  omega

/-- The layout of an announce is decoded to it. -/
theorem decodeAnnouncePacket_eq_ok {packet : RnsPacket} {announce : RnsAnnounce}
    (h : Announces packet announce) : decodeAnnouncePacket packet = .ok announce := by
  have hlength := length_announceData announce
  rw [h.data, length_ratchetBytes, h.ratchet] at hlength
  -- nothing is refused, and what is returned is announced by the packet too
  have hok : ∃ found, decodeAnnouncePacket packet = .ok found := by
    rw [decodeAnnouncePacket, Outcome.bind_eq (rejectIf_eq_ok (not_not.mpr h.packetType)),
      Outcome.bind_eq (rejectIf_eq_ok (not_not.mpr h.destinationType))]
    obtain ⟨identity, hidentity⟩ := @exists_readArray rnsPublicIdentityLen packet.data 0 64 rfl
      (by omega)
    obtain ⟨name, hname⟩ := @exists_readArray rnsNameHashLen packet.data 64 74 rfl (by omega)
    obtain ⟨random, hrandom⟩ := @exists_readArray rnsAnnounceRandomHashLen packet.data 74 84 rfl
      (by omega)
    by_cases hflag : packet.flags.contextFlag = true
    · rw [if_pos hflag] at hlength
      obtain ⟨ratchet, hratchet⟩ := @exists_readArray rnsAnnounceRatchetLen packet.data 84 116 rfl
        (by omega)
      obtain ⟨signature, hsignature⟩ := @exists_readArray rnsAnnounceSignatureLen packet.data 116 180
        rfl (by omega)
      rw [if_pos hflag, decodeRatchetAnnounce,
        Outcome.bind_eq (rejectIf_eq_ok (by rw [announceRatchetMinLen]; omega)),
        Outcome.bind_eq hidentity, Outcome.bind_eq hname, Outcome.bind_eq hrandom,
        Outcome.bind_eq hratchet, Outcome.bind_eq hsignature, Outcome.bind_eq (slice_rest (by omega))]
      exact ⟨_, rfl⟩
    · rw [if_neg hflag] at hlength
      obtain ⟨signature, hsignature⟩ := @exists_readArray rnsAnnounceSignatureLen packet.data 84 148
        rfl (by omega)
      rw [if_neg hflag, decodeNoRatchetAnnounce,
        Outcome.bind_eq (rejectIf_eq_ok (by rw [announceNoRatchetMinLen]; omega)),
        Outcome.bind_eq hidentity, Outcome.bind_eq hname, Outcome.bind_eq hrandom,
        Outcome.bind_eq hsignature, Outcome.bind_eq (slice_rest (by omega))]
      exact ⟨_, rfl⟩
  obtain ⟨found, hfound⟩ := hok
  rw [hfound, ((ends_decodeAnnouncePacket packet).of_ok hfound).unique h]

/-! ## Signed data -/

/-- What is signed is written. -/
theorem writes_writeSignedData (announce : RnsAnnounce) :
    Writes (writeSignedData announce) (signedData announce) := by
  refine (writes_writeArray _).bind ((writes_writeArray _).bind ((writes_writeArray _).bind
    ((writes_writeArray _).bind ?_)))
  cases announce.ratchet with
  | none => exact writes_writeArray announce.appData
  | some ratchet => exact (writes_writeArray ratchet.toList).bind (writes_writeArray announce.appData)

/-- All but the last addition are between constants. -/
theorem announceSignedDataLen_eq (announce : RnsAnnounce) :
    announceSignedDataLen announce = checkedSignedDataLenAdd
      (100 + (ratchetBytes announce.ratchet).length) announce.appData.length := by
  have hfixed : checkedSignedDataLenAdd rnsTruncatedHashLen rnsPublicIdentityLen = .ok 80 := rfl
  have hname : checkedSignedDataLenAdd 80 rnsNameHashLen = .ok 90 := rfl
  have hrandom : checkedSignedDataLenAdd 90 rnsAnnounceRandomHashLen = .ok 100 := rfl
  have hratchet : checkedSignedDataLenAdd 100 rnsAnnounceRatchetLen = .ok 132 := rfl
  rw [announceSignedDataLen, Outcome.bind_eq hfixed, Outcome.bind_eq hname, Outcome.bind_eq hrandom,
    length_ratchetBytes]
  cases announce.ratchet with
  | none => rfl
  | some ratchet =>
    simp only [Option.isSome_some, if_true]
    rw [Outcome.bind_eq hratchet]

/-- The announced length is the length of what is signed. -/
theorem announceSignedDataLen_eq_ok {announce : RnsAnnounce}
    (h : (signedData announce).length < addressLimit) :
    announceSignedDataLen announce = .ok (signedData announce).length := by
  rw [length_signedData] at h ⊢
  rw [announceSignedDataLen_eq, checkedSignedDataLenAdd, checkedAdd_eq_some h]

/-- The signed data is built at the front of an output with room for it. -/
theorem buildAnnounceSignedData_eq {announce : RnsAnnounce} {output : List UInt8}
    (hlimit : (signedData announce).length < addressLimit)
    (hroom : (signedData announce).length ≤ output.length) :
    buildAnnounceSignedData announce output = .ok ((signedData announce).length,
      signedData announce ++ output.drop (signedData announce).length) := by
  have hwrite := (writes_writeSignedData announce).runOn hlimit hroom
  rw [buildAnnounceSignedData, Outcome.bind_eq (announceSignedDataLen_eq_ok hlimit),
    Outcome.bind_eq (rejectIf_eq_ok (Nat.not_lt.mpr hroom)), Outcome.bind_eq hwrite]
  rfl

/-- Whatever the builder returns is the signed data at the front of the output. -/
theorem ends_buildAnnounceSignedData (announce : RnsAnnounce) (output : List UInt8) :
    Ends (buildAnnounceSignedData announce output) fun result =>
      result.1 = (signedData announce).length ∧ result.2.take result.1 = signedData announce ∧
        result.1 ≤ result.2.length := by
  by_cases hlimit : (signedData announce).length < addressLimit
  · by_cases hroom : (signedData announce).length ≤ output.length
    · rw [buildAnnounceSignedData_eq hlimit hroom]
      exact ⟨rfl, List.take_left, by simp⟩
    · rw [buildAnnounceSignedData, Outcome.bind_eq (announceSignedDataLen_eq_ok hlimit),
        rejectIf_eq_fail (Nat.not_le.mp hroom)]
      exact trivial
  · -- the last addition overflows
    rw [length_signedData] at hlimit
    rw [buildAnnounceSignedData, announceSignedDataLen_eq, checkedSignedDataLenAdd, checkedAdd,
      if_neg hlimit]
    exact trivial

/-- Announces whose signed data are equal differ at most in where the ratchet ends. -/
theorem signedData_eq_cases {first second : RnsAnnounce} (h : signedData first = signedData second)
    (hsignature : first.signature = second.signature) :
    (first.ratchet.isSome = second.ratchet.isSome → first = second) ∧
    ∀ ratchet, first.ratchet = some ratchet → second.ratchet = none →
      second = { first with ratchet := none, appData := ratchet.toList ++ first.appData } := by
  obtain ⟨destination, identity, name, random, ratchet, signature, appData⟩ := first
  obtain ⟨destination', identity', name', random', ratchet', signature', appData'⟩ := second
  simp only [signedData] at h hsignature
  obtain ⟨hdestination, h⟩ := List.append_inj h (by simp only [List.Vector.toList_length])
  obtain ⟨hidentity, h⟩ := List.append_inj h (by simp only [List.Vector.toList_length])
  obtain ⟨hname, h⟩ := List.append_inj h (by simp only [List.Vector.toList_length])
  obtain ⟨hrandom, h⟩ := List.append_inj h (by simp only [List.Vector.toList_length])
  rw [List.Vector.toList_injective hdestination, List.Vector.toList_injective hidentity,
    List.Vector.toList_injective hname, List.Vector.toList_injective hrandom, hsignature]
  refine ⟨?_, ?_⟩
  · intro hflag
    obtain ⟨hratchet, happData⟩ := List.append_inj h (by simp only [length_ratchetBytes, hflag])
    rw [ratchetBytes_injective hratchet, happData]
  · intro bytes hsome hnone
    simp only at hsome hnone
    subst hsome
    subst hnone
    rw [RnsAnnounce.mk.injEq]
    exact ⟨rfl, rfl, rfl, rfl, rfl, rfl, h.symm⟩

/-- Validation never panics, and returns the announce that the packet announces. -/
theorem ends_validateAnnouncePacket (crypto : Primitives) (packet : RnsPacket) :
    Ends (validateAnnouncePacket crypto packet) (Announces packet) := by
  apply (ends_decodeAnnouncePacket packet).bind
  intro announce hannounces
  apply (ends_ofResult mapCryptoError _).bind
  intro publicIdentity _
  apply (ends_rejectIf _ _).bind
  intro _ _
  apply (ends_buildAnnounceSignedData announce _).bind
  rintro ⟨len, written⟩ ⟨-, -, hlen⟩
  apply (ends_slice (Nat.zero_le len) hlen).bind
  intro message _
  apply (ends_ofResult mapCryptoError _).bind
  intro _ _
  exact hannounces

/-- **What one signature authenticates.** If two packets validate to announces with the same public
identity, the same signature and byte-identical signed data, then the announces are equal in every
field exactly when the packets have the same context flag. If one has the flag and the other has not,
the second is the first with the 32 bytes of its ratchet moved to the front of the application data. -/
theorem signature_authenticates (crypto : Primitives) :
    ∀ p q a b, validateAnnouncePacket crypto p = .ok a → validateAnnouncePacket crypto q = .ok b →
      ∀ len len' out out', buildAnnounceSignedData a (List.replicate rnsMtu 0) = .ok (len, out) →
        buildAnnounceSignedData b (List.replicate rnsMtu 0) = .ok (len', out') →
        out.take len = out'.take len' → a.publicIdentity = b.publicIdentity →
        a.signature = b.signature →
          (a = b ↔ p.flags.contextFlag = q.flags.contextFlag) ∧
          (p.flags.contextFlag = true → q.flags.contextFlag = false →
            ∃ ratchet, a.ratchet = some ratchet ∧
              b = { a with ratchet := none, appData := ratchet.toList ++ a.appData }) := by
  intro p q a b hp hq len len' out out' hbuild hbuild' hequal _ hsignature
  obtain ⟨-, htake, -⟩ := (ends_buildAnnounceSignedData a _).of_ok hbuild
  obtain ⟨-, htake', -⟩ := (ends_buildAnnounceSignedData b _).of_ok hbuild'
  simp only at htake htake'
  rw [htake, htake'] at hequal
  have ha := (ends_validateAnnouncePacket crypto p).of_ok hp
  have hb := (ends_validateAnnouncePacket crypto q).of_ok hq
  obtain ⟨hsame, hmoved⟩ := signedData_eq_cases hequal hsignature
  refine ⟨⟨?_, ?_⟩, ?_⟩
  · intro hab
    rw [← ha.ratchet, ← hb.ratchet, hab]
  · intro hflag
    exact hsame (by rw [ha.ratchet, hb.ratchet, hflag])
  · intro hset hclear
    rw [← ha.ratchet] at hset
    rw [← hb.ratchet, Option.isSome_eq_false_iff, Option.isNone_iff_eq_none] at hclear
    obtain ⟨ratchet, hratchet⟩ := Option.isSome_iff_exists.mp hset
    exact ⟨ratchet, hratchet, hmoved ratchet hratchet hclear⟩

/-- An announce with 32 bytes of application data. -/
def plainAnnounce : RnsAnnounce where
  destinationHash := ⟨sampleDestinationHash.toList.take 16, rfl⟩
  publicIdentity := publicIdentityToBytes ⟨sampleX25519Public, sampleVerifyingKey⟩
  nameHash := ⟨sampleNameHash.toList.take 10, rfl⟩
  randomHash := sampleRandomHash
  ratchet := none
  signature := sampleSignature (sampleSignedData (List.replicate 32 5))
  appData := List.replicate 32 5

/-- The same bytes as a ratchet. -/
def ratchetAnnounce : RnsAnnounce :=
  { plainAnnounce with ratchet := some (fillBytes 32 5), appData := [] }

/-- Setting the context flag and moving the application data before the signature turns an announce
into another one under the same signature. -/
theorem rearranged_announce_validates :
    validateAnnouncePacket samplePrimitives (announcePacket plainAnnounce) = .ok plainAnnounce ∧
      validateAnnouncePacket samplePrimitives (announcePacket ratchetAnnounce) = .ok ratchetAnnounce ∧
      plainAnnounce.publicIdentity = ratchetAnnounce.publicIdentity ∧
      plainAnnounce.signature = ratchetAnnounce.signature ∧
      buildAnnounceSignedData plainAnnounce (List.replicate rnsMtu 0) =
        buildAnnounceSignedData ratchetAnnounce (List.replicate rnsMtu 0) ∧
      plainAnnounce ≠ ratchetAnnounce := by
  decide +kernel

/-- The ratchet of one announce reads as application data of another with the same signed bytes. -/
theorem signature_authenticates_rearranged :
    (ratchetAnnounce = plainAnnounce ↔ true = false) ∧ (true = true → false = false →
      ∃ ratchet, ratchetAnnounce.ratchet = some ratchet ∧
        plainAnnounce = { ratchetAnnounce with
          ratchet := none
          appData := ratchet.toList ++ ratchetAnnounce.appData }) :=
  signature_authenticates samplePrimitives (announcePacket ratchetAnnounce)
    (announcePacket plainAnnounce) ratchetAnnounce plainAnnounce (by decide +kernel)
    (by decide +kernel) _ _ _ _
    (buildAnnounceSignedData_eq (by decide +kernel) (by decide +kernel))
    (buildAnnounceSignedData_eq (by decide +kernel) (by decide +kernel))
    (by decide +kernel) rfl rfl

end Hyf.Rns
