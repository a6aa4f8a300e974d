import Hyf.Common.Text
import Hyf.Rns.Crypto
import Hyf.Rns.PacketTheorems

/-!
# Announces (`hyf_rns_wire`, `hyf_rns_core`)

An announce is a signed packet that makes a destination known: a public identity, the hash of its name,
a random hash that ends in the time, perhaps a ratchet, the signature and application data. Whether
there is a ratchet is said by the context flag of the packet alone. What is signed is put together again
from the decoded fields.
-/

namespace Hyf.Rns

open ByteCodec BufferM WriterM

def rnsNameHashLen : ℕ := 10
def rnsPublicIdentityLen : ℕ := 64
def rnsAnnounceRandomHashLen : ℕ := 10
def rnsAnnounceRatchetLen : ℕ := 32
def rnsAnnounceSignatureLen : ℕ := 64
def announceNoRatchetMinLen : ℕ := 148
def announceRatchetMinLen : ℕ := 180
def maxReticulumRandomHashTimestamp : ℕ := 0xffffffffff

/-! ## Destinations -/

inductive RnsCoreError where
  | destinationAppNameContainsDot
  | destinationAspectContainsDot
  deriving DecidableEq

/-- `name.contains('.')`. -/
def containsDot (name : String) : Bool := name.toList.contains '.'

def validateDestinationName (appName : String) (aspects : List String) : Except RnsCoreError Unit :=
  if containsDot appName then .error .destinationAppNameContainsDot
  else if aspects.any containsDot then .error .destinationAspectContainsDot
  else .ok ()

/-- What is hashed of a name: its components, separated by dots. -/
def destinationNameBytes (appName : String) (aspects : List String) : List UInt8 :=
  asBytes appName ++ aspects.flatMap fun aspect => 0x2e :: asBytes aspect

section

variable (crypto : Primitives)

def destinationNameHash (appName : String) (aspects : List String) :
    Except RnsCoreError (ByteArrayN rnsNameHashLen) := do
  validateDestinationName appName aspects
  return ⟨(crypto.sha256 (destinationNameBytes appName aspects)).toList.take rnsNameHashLen,
    by simp [rnsNameHashLen]⟩

def destinationHash (nameHash : ByteArrayN rnsNameHashLen)
    (identityHash : Option (ByteArrayN rnsTruncatedHashLen)) : ByteArrayN rnsTruncatedHashLen :=
  let identity := match identityHash with
    | some identityHash => identityHash.toList
    | none => []
  ⟨(crypto.sha256 (nameHash.toList ++ identity)).toList.take rnsTruncatedHashLen,
    by simp [rnsTruncatedHashLen]⟩

end

/-! ## Decoding -/

structure RnsAnnounce where
  destinationHash : ByteArrayN rnsTruncatedHashLen
  publicIdentity : ByteArrayN rnsPublicIdentityLen
  nameHash : ByteArrayN rnsNameHashLen
  randomHash : ByteArrayN rnsAnnounceRandomHashLen
  ratchet : Option (ByteArrayN rnsAnnounceRatchetLen)
  signature : ByteArrayN rnsAnnounceSignatureLen
  appData : List UInt8
  deriving DecidableEq

/-- `read_array(&input[start..stop])`. -/
def readArray (n : ℕ) (input : List UInt8) (start stop : ℕ) : Outcome RnsWireError (ByteArrayN n) := do
  let bytes ← slice input start stop
  toArray n bytes

def decodeNoRatchetAnnounce (packet : RnsPacket) : Outcome RnsWireError RnsAnnounce := do
  rejectIf (packet.data.length < announceNoRatchetMinLen) .malformedAnnounce
  return {
    destinationHash := packet.destinationHash
    publicIdentity := ← readArray rnsPublicIdentityLen packet.data 0 64
    nameHash := ← readArray rnsNameHashLen packet.data 64 74
    randomHash := ← readArray rnsAnnounceRandomHashLen packet.data 74 84
    ratchet := none
    signature := ← readArray rnsAnnounceSignatureLen packet.data 84 148
    appData := ← slice packet.data 148 packet.data.length }

def decodeRatchetAnnounce (packet : RnsPacket) : Outcome RnsWireError RnsAnnounce := do
  rejectIf (packet.data.length < announceRatchetMinLen) .malformedAnnounce
  return {
    destinationHash := packet.destinationHash
    publicIdentity := ← readArray rnsPublicIdentityLen packet.data 0 64
    nameHash := ← readArray rnsNameHashLen packet.data 64 74
    randomHash := ← readArray rnsAnnounceRandomHashLen packet.data 74 84
    ratchet := some (← readArray rnsAnnounceRatchetLen packet.data 84 116)
    signature := ← readArray rnsAnnounceSignatureLen packet.data 116 180
    appData := ← slice packet.data 180 packet.data.length }

def decodeAnnouncePacket (packet : RnsPacket) : Outcome RnsWireError RnsAnnounce := do
  rejectIf (packet.flags.packetType ≠ .announce) .invalidPacketType
  rejectIf (packet.flags.destinationType ≠ .single) .invalidDestinationType
  if packet.flags.contextFlag then decodeRatchetAnnounce packet
  else decodeNoRatchetAnnounce packet

/-! ## Signed data -/

def checkedSignedDataLenAdd (len addend : ℕ) : Outcome RnsWireError ℕ :=
  match checkedAdd len addend with
  | some sum => .ok sum
  | none => fail (.packetTooLarge len rnsMtu)

def announceSignedDataLen (announce : RnsAnnounce) : Outcome RnsWireError ℕ := do
  let len ← checkedSignedDataLenAdd rnsTruncatedHashLen rnsPublicIdentityLen
  let len ← checkedSignedDataLenAdd len rnsNameHashLen
  let len ← checkedSignedDataLenAdd len rnsAnnounceRandomHashLen
  let len ← if announce.ratchet.isSome then checkedSignedDataLenAdd len rnsAnnounceRatchetLen
    else .ok len
  checkedSignedDataLenAdd len announce.appData.length

/-- The parts that `build_announce_signed_data` writes one behind the other. -/
def writeSignedData (announce : RnsAnnounce) : WriterM RnsWireError Unit := do
  writeArray announce.destinationHash.toList
  writeArray announce.publicIdentity.toList
  writeArray announce.nameHash.toList
  writeArray announce.randomHash.toList
  match announce.ratchet with
  | some ratchet => writeArray ratchet.toList
  | none => pure ()
  writeArray announce.appData

/-- The offset behind the signed data, and the output afterwards. -/
def buildAnnounceSignedData (announce : RnsAnnounce) (output : List UInt8) :
    Outcome RnsWireError (ℕ × List UInt8) := do
  let required ← announceSignedDataLen announce
  rejectIf (output.length < required) (.outputBufferTooShort output.length required)
  let cursor ← WriterM.runOn (writeSignedData announce) output
  return (cursor.index, cursor.output)

def validateAnnouncePacket (crypto : Primitives) (packet : RnsPacket) :
    Outcome RnsWireError RnsAnnounce := do
  let announce ← decodeAnnouncePacket packet
  let publicIdentity ← ofResult mapCryptoError (publicIdentityFromBytes crypto announce.publicIdentity)
  let expectedDestinationHash :=
    destinationHash crypto announce.nameHash (some (identityHash crypto publicIdentity))
  rejectIf (expectedDestinationHash ≠ announce.destinationHash) .destinationMismatch
  let (signedDataLen, signedData) ← buildAnnounceSignedData announce (List.replicate rnsMtu 0)
  let message ← slice signedData 0 signedDataLen
  ofResult mapCryptoError (verify crypto publicIdentity message announce.signature)
  return announce

/-! ## Encoding -/

structure RnsAnnounceEncodeParams where
  secretIdentity : RnsSecretIdentity
  publicIdentity : RnsPublicIdentity
  appName : String
  aspects : List String
  appData : List UInt8

def announceEncodeDataLen (appDataLen : ℕ) : Outcome RnsWireError ℕ :=
  match checkedAdd announceNoRatchetMinLen appDataLen with
  | some len => .ok len
  | none => fail (.packetTooLarge appDataLen rnsMtu)

def packetLenForAnnounceData (announceDataLen : ℕ) : Outcome RnsWireError ℕ := do
  let packetLen ← (match checkedAdd rnsHeader1Len announceDataLen with
    | some len => .ok len
    | none => fail (.packetTooLarge announceDataLen rnsMtu) : Outcome RnsWireError ℕ)
  rejectIf (rnsMtu < packetLen) (.packetTooLarge packetLen rnsMtu)
  return packetLen

/-- A random source, by what `try_fill_bytes` fills the next `n` bytes with, if it does not fail. -/
abbrev TryRng := (n : ℕ) → Option (ByteArrayN n)

/-- Five random bytes and the low five bytes of the time. -/
def reticulumRandomHash (rng : TryRng) (nowUnixSecs : UInt64) :
    Outcome RnsWireError (ByteArrayN rnsAnnounceRandomHashLen) := do
  rejectIf (maxReticulumRandomHashTimestamp < nowUnixSecs.toNat) .timestampOverflow
  match rng 5 with
  | none => fail .randomSourceFailed
  | some random =>
    return ⟨random.toList ++ (toBe 8 nowUnixSecs.toNat).drop 3, by
      simp [rnsAnnounceRandomHashLen]⟩

/-- The parts that `encode_announce_packet` writes into its data buffer. -/
def writeAnnounceData (publicIdentity : ByteArrayN rnsPublicIdentityLen)
    (nameHash : ByteArrayN rnsNameHashLen) (randomHash : ByteArrayN rnsAnnounceRandomHashLen)
    (signature : ByteArrayN 64) (appData : List UInt8) : WriterM RnsWireError Unit := do
  writeArray publicIdentity.toList
  writeArray nameHash.toList
  writeArray randomHash.toList
  writeArray signature.toList
  writeArray appData

def encodeAnnouncePacket (crypto : Primitives) (params : RnsAnnounceEncodeParams) (rng : TryRng)
    (nowUnixSecs : UInt64) : BufferM RnsWireError ℕ := do
  let announceDataLen ← (announceEncodeDataLen params.appData.length).lift
  let packetLen ← (packetLenForAnnounceData announceDataLen).lift
  let output ← get
  (rejectIf (output.length < packetLen) (.outputBufferTooShort output.length packetLen)).lift
  let publicIdentityBytes := publicIdentityToBytes params.publicIdentity
  let nameHash ← (ofResult (fun _ => .invalidDestinationName)
    (destinationNameHash crypto params.appName params.aspects)).lift
  let destinationHash :=
    destinationHash crypto nameHash (some (identityHash crypto params.publicIdentity))
  let randomHash ← (reticulumRandomHash rng nowUnixSecs).lift
  let unsignedAnnounce : RnsAnnounce := {
    destinationHash
    publicIdentity := publicIdentityBytes
    nameHash
    randomHash
    ratchet := none
    signature := fillBytes rnsAnnounceSignatureLen 0
    appData := params.appData }
  let (signedDataLen, signedData) ←
    (buildAnnounceSignedData unsignedAnnounce (List.replicate rnsMtu 0)).lift
  let message ← (slice signedData 0 signedDataLen).lift
  let signature ← (ofResult mapCryptoError (sign crypto params.secretIdentity message)).lift
  let cursor ← (WriterM.runOn (writeAnnounceData publicIdentityBytes nameHash randomHash signature
    params.appData) (List.replicate (rnsMtu - rnsHeader1Len) 0)).lift
  let announceData ← (slice cursor.output 0 cursor.index).lift
  encodePacket {
    flags := {
      headerType := .header1
      contextFlag := false
      transportType := .broadcast
      destinationType := .single
      packetType := .announce }
    hops := 0
    transportId := none
    destinationHash
    context := 0
    data := announceData }

end Hyf.Rns
