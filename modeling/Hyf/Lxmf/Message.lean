import Hyf.Core.Types
import Hyf.Lxmf.MsgpackCursor

/-!
# LXMF messages (`hyf_lxmf_core`)

An LXMF message is two hashes, a signature and a MessagePack payload: an array of a timestamp, a
title, a content, a map of fields and, optionally, a stamp. A stamp may be added to a message after
it was signed, so the message id and the input of the signature leave it out: they are computed from
the array of the first four items (`SigningPayload`). The timestamp is kept as the bits of its float.
-/

namespace Hyf.Lxmf

open ByteCodec CursorM WriterM

def lxmfDestinationHashLen : ℕ := 16
def lxmfSourceHashLen : ℕ := 16
def lxmfSignatureLen : ℕ := 64
def lxmfMessageIdLen : ℕ := 32
def lxmfTitleMaxLen : ℕ := 2048
def lxmfContentMaxLen : ℕ := 2048
def lxmfFieldsMaxLen : ℕ := 1024
def lxmfStampMaxLen : ℕ := 128

def lxmfPayloadArrayLen : ℕ := 4
def lxmfPayloadArrayWithStampLen : ℕ := 5
def fixedArray4Marker : UInt8 := 0x90 ||| UInt8.ofNat lxmfPayloadArrayLen

/-- Whom a message is for. -/
@[ext]
structure LxmfDestinationHash where
  bytes : ByteArrayN lxmfDestinationHashLen
  deriving DecidableEq

/-- Whom a message is from. -/
@[ext]
structure LxmfSourceHash where
  bytes : ByteArrayN lxmfSourceHashLen
  deriving DecidableEq

/-- A signature, which is not verified here. -/
structure LxmfSignature where
  bytes : ByteArrayN lxmfSignatureLen
  deriving DecidableEq

/-- The hash of a message without its stamp. -/
structure LxmfMessageId where
  bytes : ByteArrayN lxmfMessageIdLen
  deriving DecidableEq

/-- A payload over its bytes. -/
structure LxmfPayloadRef where
  timestampSecs : UInt64
  title : List UInt8
  content : List UInt8
  fields : List UInt8
  stamp : Option (List UInt8)
  deriving DecidableEq

/-- A message over its bytes. -/
structure LxmfMessageRef where
  destinationHash : LxmfDestinationHash
  sourceHash : LxmfSourceHash
  signature : LxmfSignature
  packedPayload : List UInt8
  payload : LxmfPayloadRef
  deriving DecidableEq

/-- `f64::is_finite` on the bits: the exponent is not all ones. -/
def isFinite (bits : UInt64) : Bool := (bits >>> 52) &&& 0x7ff ≠ 0x7ff

/-! ## Decoding -/

/-- The item behind the fields, which only an array of five has. -/
def readStamp (arrayLen : ℕ) : CursorM LxmfError (Option (List UInt8)) :=
  if arrayLen = lxmfPayloadArrayWithStampLen then do
    let bytes ← readRawValue
    raise (rejectIf (bytes.length > lxmfStampMaxLen) (.stampTooLarge bytes.length lxmfStampMaxLen))
    return some bytes
  else return none

/-- The reads of `decode_lxmf_payload`, in order. -/
def readLxmfPayload : CursorM LxmfError LxmfPayloadRef := do
  let arrayLen ← readArrayLen
  raise (rejectIf (arrayLen ≠ lxmfPayloadArrayLen ∧ arrayLen ≠ lxmfPayloadArrayWithStampLen)
    (.invalidPayloadArrayLen arrayLen))
  let timestampSecs ← readFloat64
  raise (rejectIf (isFinite timestampSecs = false) .invalidTimestamp)
  let title ← readBinOrStrBytes
  raise (rejectIf (title.length > lxmfTitleMaxLen) (.titleTooLarge title.length lxmfTitleMaxLen))
  let content ← readBinOrStrBytes
  raise (rejectIf (content.length > lxmfContentMaxLen)
    (.contentTooLarge content.length lxmfContentMaxLen))
  let fields ← readRawMap
  raise (rejectIf (fields.length > lxmfFieldsMaxLen)
    (.fieldsTooLarge fields.length lxmfFieldsMaxLen))
  let stamp ← readStamp arrayLen
  return { timestampSecs, title, content, fields, stamp }

/-- `decode_lxmf_payload`. -/
def decodeLxmfPayload (input : List UInt8) : Outcome LxmfError LxmfPayloadRef := do
  rejectIf (input.length > lxmfPayloadMaxLen) (.payloadTooLarge input.length lxmfPayloadMaxLen)
  CursorM.runOn (do
    let payload ← readLxmfPayload
    finishPayload
    return payload) input

/-- `decode_lxmf_message`. -/
def decodeLxmfMessage (input : List UInt8) : Outcome LxmfError LxmfMessageRef := do
  rejectIf (input.length < lxmfFixedHeaderLen) (.messageTooShort input.length lxmfFixedHeaderLen)
  rejectIf (input.length > lxmfMessageMaxLen) (.messageTooLarge input.length lxmfMessageMaxLen)
  let destination ← slice input 0 lxmfDestinationHashLen
  let destinationHash ← toArray lxmfDestinationHashLen destination
  let sourceStart := lxmfDestinationHashLen
  let sourceEnd := sourceStart + lxmfSourceHashLen
  let source ← slice input sourceStart sourceEnd
  let sourceHash ← toArray lxmfSourceHashLen source
  let signatureEnd := sourceEnd + lxmfSignatureLen
  let signatureBytes ← slice input sourceEnd signatureEnd
  let signature ← toArray lxmfSignatureLen signatureBytes
  let packedPayload ← slice input lxmfFixedHeaderLen input.length
  let payload ← decodeLxmfPayload packedPayload
  return ⟨⟨destinationHash⟩, ⟨sourceHash⟩, ⟨signature⟩, packedPayload, payload⟩

/-! ## Encoding -/

/-- `validate_raw_map`: one map and nothing behind it. -/
def validateRawMap (input : List UInt8) : Outcome LxmfError Unit :=
  CursorM.runOn (do
    let _ ← readRawMap
    finishPayload) input

/-- `validate_payload_for_encode`. -/
def validatePayloadForEncode (payload : LxmfPayloadRef) : Outcome LxmfError Unit := do
  rejectIf (isFinite payload.timestampSecs = false) .invalidTimestamp
  rejectIf (payload.title.length > lxmfTitleMaxLen)
    (.titleTooLarge payload.title.length lxmfTitleMaxLen)
  rejectIf (payload.content.length > lxmfContentMaxLen)
    (.contentTooLarge payload.content.length lxmfContentMaxLen)
  validateRawMap payload.fields
  rejectIf (payload.fields.length > lxmfFieldsMaxLen)
    (.fieldsTooLarge payload.fields.length lxmfFieldsMaxLen)
  match payload.stamp with
  | some stamp =>
    rejectIf (stamp.length > lxmfStampMaxLen) (.stampTooLarge stamp.length lxmfStampMaxLen)
  | none => return ()

/-- `bin_encoded_len`, with the header. -/
def binEncodedLen (len : ℕ) : ℕ := if len ≤ 255 then 2 + len else 3 + len

/-- `lxmf_payload_encoded_len`. -/
def lxmfPayloadEncodedLen (payload : LxmfPayloadRef) : Outcome LxmfError ℕ := do
  validatePayloadForEncode payload
  let required := (((checkedAdd 1 9).bind
    fun len => checkedAdd len (binEncodedLen payload.title.length)).bind
    fun len => checkedAdd len (binEncodedLen payload.content.length)).bind
    fun len => checkedAdd len payload.fields.length
  match required with
  | none => fail (.payloadTooLarge payload.fields.length lxmfPayloadMaxLen)
  | some required => do
    rejectIf (required > lxmfPayloadMaxLen) (.payloadTooLarge required lxmfPayloadMaxLen)
    return required

/-- `write_bin`: the shorter header where it suffices. -/
def writeBin (bytes : List UInt8) : WriterM LxmfError Unit :=
  if bytes.length ≤ 255 then do
    writeU8 0xc4
    writeU8 (UInt8.ofNat bytes.length)
    writeArray bytes
  else if bytes.length ≤ 65535 then do
    writeU8 0xc5
    writeU16 (UInt16.ofNat bytes.length)
    writeArray bytes
  else throw (.error (.payloadTooLarge bytes.length lxmfPayloadMaxLen))

/-- `write_lxmf_payload`. -/
def writeLxmfPayload (payload : LxmfPayloadRef) : WriterM LxmfError Unit := do
  writeU8 (0x90 ||| UInt8.ofNat lxmfPayloadArrayLen)
  writeU8 0xcb
  writeU64 payload.timestampSecs
  writeBin payload.title
  writeBin payload.content
  writeArray payload.fields

/-- Encode into `output`: the number of bytes written and the slice afterwards. -/
def encodeLxmfPayload (payload : LxmfPayloadRef) (output : List UInt8) :
    Outcome LxmfError (ℕ × List UInt8) := do
  let required ← lxmfPayloadEncodedLen payload
  rejectIf (output.length < required) (.outputTooSmall required output.length)
  let cursor ← WriterM.runOn (writeLxmfPayload payload) output
  return (required, cursor.output)

/-- The two hashes and the signature in front of the payload. -/
def writeLxmfHeader (destination : LxmfDestinationHash) (source : LxmfSourceHash)
    (signature : LxmfSignature) : WriterM LxmfError Unit := do
  writeArray destination.bytes.toList
  writeArray source.bytes.toList
  writeArray signature.bytes.toList

/-- `encode_lxmf_message`. -/
def encodeLxmfMessage (destination : LxmfDestinationHash) (source : LxmfSourceHash)
    (signature : LxmfSignature) (payload : LxmfPayloadRef) (output : List UInt8) :
    Outcome LxmfError (ℕ × List UInt8) := do
  let payloadLen ← lxmfPayloadEncodedLen payload
  let required ← match checkedAdd lxmfFixedHeaderLen payloadLen with
    | some required => pure required
    | none => fail (.messageTooLarge payloadLen lxmfMessageMaxLen)
  rejectIf (required > lxmfMessageMaxLen) (.messageTooLarge required lxmfMessageMaxLen)
  rejectIf (output.length < required) (.outputTooSmall required output.length)
  let cursor ← WriterM.runOn (writeLxmfHeader destination source signature) output
  let packed ← slice cursor.output lxmfFixedHeaderLen required
  let (written, packed) ← encodeLxmfPayload payload packed
  return (lxmfFixedHeaderLen + written,
    cursor.output.take lxmfFixedHeaderLen ++ packed ++ cursor.output.drop required)

/-! ## What is signed -/

/-- The payload without its stamp: as it is, or the first four items of an array of five. -/
inductive SigningPayload where
  | original (bytes : List UInt8)
  | canonicalArray4 (elements : List.Vector (List UInt8) 4) (len : ℕ)
  deriving DecidableEq

/-- The loop over `elements`, from the length `len` on. -/
def addElementLens (len : ℕ) : List (List UInt8) → Outcome LxmfError ℕ
  | [] => .ok len
  | element :: elements =>
    match checkedAdd len element.length with
    | some len => addElementLens len elements
    | none => fail (.payloadTooLarge usizeMax lxmfPayloadMaxLen)

/-- `canonical_array4_len`. -/
def canonicalArray4Len (elements : List.Vector (List UInt8) 4) : Outcome LxmfError ℕ :=
  addElementLens 1 elements.toList

/-- `for _ in 0..count` with one raw value in each round. -/
def readRawValues : ℕ → CursorM LxmfError Unit
  | 0 => return ()
  | count + 1 => do
    let _ ← readRawValue
    readRawValues count

namespace SigningPayload

/-- The reads of `parse`, in order. -/
def read (packedPayload : List UInt8) : CursorM LxmfError SigningPayload := do
  let arrayLen ← readArrayLen
  if arrayLen = lxmfPayloadArrayLen then do
    readRawValues lxmfPayloadArrayLen
    finishPayload
    return .original packedPayload
  else if arrayLen = lxmfPayloadArrayWithStampLen then do
    let timestamp ← readRawValue
    let title ← readRawValue
    let content ← readRawValue
    let fields ← readRawValue
    let _ ← readRawValue
    finishPayload
    let elements : List.Vector (List UInt8) 4 := ⟨[timestamp, title, content, fields], rfl⟩
    let len ← raise (canonicalArray4Len elements)
    return .canonicalArray4 elements len
  else raise (fail (.invalidPayloadArrayLen arrayLen))

/-- `parse`: a payload of five elements is signed without the last. -/
def parse (packedPayload : List UInt8) : Outcome LxmfError SigningPayload :=
  CursorM.runOn (read packedPayload) packedPayload

/-- `len`. -/
def len : SigningPayload → ℕ
  | original bytes => bytes.length
  | canonicalArray4 _ len => len

/-- A hasher is the bytes that it was given so far. -/
def updateHasher (hasher : List UInt8) : SigningPayload → List UInt8
  | original bytes => hasher ++ bytes
  | canonicalArray4 elements _ =>
    elements.toList.foldl (fun hasher element => hasher ++ element) (hasher ++ [fixedArray4Marker])

/-- `for element in elements` with one write in each round. -/
def writeElements : List (List UInt8) → WriterM LxmfError Unit
  | [] => return ()
  | element :: elements => do
    writeArray element
    writeElements elements

/-- `write_to`. -/
def writeTo : SigningPayload → WriterM LxmfError Unit
  | original bytes => writeArray bytes
  | canonicalArray4 elements _ => do
    writeArray [fixedArray4Marker]
    writeElements elements.toList

end SigningPayload

section

variable (sha256 : List UInt8 → ByteArrayN lxmfMessageIdLen)

/-- What is hashed of a message in front of its payload. -/
def messageIdHasher (message : LxmfMessageRef) : List UInt8 :=
  message.destinationHash.bytes.toList ++ message.sourceHash.bytes.toList

/-- `message_id_with_signing_payload`. -/
def messageIdWithSigningPayload (message : LxmfMessageRef) (signingPayload : SigningPayload) :
    LxmfMessageId :=
  ⟨sha256 (signingPayload.updateHasher (messageIdHasher message))⟩

/-- `lxmf_message_id`. -/
def lxmfMessageId (message : LxmfMessageRef) : Outcome LxmfError LxmfMessageId := do
  let signingPayload ← SigningPayload.parse message.packedPayload
  return messageIdWithSigningPayload sha256 message signingPayload

/-- `lxmf_signature_input_len`. -/
def lxmfSignatureInputLen (message : LxmfMessageRef) : Outcome LxmfError ℕ := do
  let signingPayload ← SigningPayload.parse message.packedPayload
  let hashes ← addUsize lxmfDestinationHashLen lxmfSourceHashLen
  let len ← addUsize hashes signingPayload.len
  addUsize len lxmfMessageIdLen

/-- The writes of `write_lxmf_signature_input`, in order. -/
def writeSignatureInput (message : LxmfMessageRef) (signingPayload : SigningPayload) :
    WriterM LxmfError Unit := do
  writeArray message.destinationHash.bytes.toList
  writeArray message.sourceHash.bytes.toList
  signingPayload.writeTo
  writeArray (messageIdWithSigningPayload sha256 message signingPayload).bytes.toList

/-- `write_lxmf_signature_input`: the message, and then its identifier. -/
def writeLxmfSignatureInput (message : LxmfMessageRef) (output : List UInt8) :
    Outcome LxmfError (ℕ × List UInt8) := do
  let signingPayload ← SigningPayload.parse message.packedPayload
  let required := ((checkedAdd lxmfDestinationHashLen lxmfSourceHashLen).bind
    fun len => checkedAdd len signingPayload.len).bind fun len => checkedAdd len lxmfMessageIdLen
  match required with
  | none => fail (.outputTooSmall usizeMax output.length)
  | some required => do
    rejectIf (output.length < required) (.outputTooSmall required output.length)
    let cursor ← WriterM.runOn (writeSignatureInput sha256 message signingPayload) output
    return (required, cursor.output)

end

end Hyf.Lxmf
