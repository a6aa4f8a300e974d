import Hyf.Common.Transaction

/-!
# KISS framing (`hyf_link_kiss`)

A frame on a serial line stands between two `FEND` bytes; `FEND` and `FESC` inside it are escaped by
two bytes each. The encoder writes into a slice. The decoder is fed one byte at a time and keeps its
state across chunks; a complete frame is handed to a callback, whose error ends the chunk.

The decoder's buffer `buffer[..len]` is the list of its live bytes.
-/

namespace Hyf

open ByteCodec

def kissFend : UInt8 := 0xc0
def kissFesc : UInt8 := 0xdb
def kissTfend : UInt8 := 0xdc
def kissTfesc : UInt8 := 0xdd
def kissCmdData : UInt8 := 0x00

inductive KissError where
  | encodedLengthOverflow
  | outputBufferTooShort (actual required : ℕ)
  | frameTooLarge (actual maximum : ℕ)
  | malformedEscape (byte : UInt8)
  deriving DecidableEq

structure KissFrameRef where
  command : UInt8
  payload : List UInt8
  deriving DecidableEq

/-! ## Encoding -/

def maxEncodedCommandLen (payloadLen : ℕ) : Except KissError ℕ :=
  match checkedMul payloadLen 2 >>= fun len => checkedAdd len 3 with
  | some len => .ok len
  | none => .error .encodedLengthOverflow

/-- The loop of `encoded_len` from a length already counted. -/
def encodedLenFrom (len : ℕ) : List UInt8 → Except KissError ℕ
  | [] => .ok len
  | byte :: payload =>
    let increment := if byte = kissFend ∨ byte = kissFesc then 2 else 1
    match checkedAdd len increment with
    | some len => encodedLenFrom len payload
    | none => .error .encodedLengthOverflow

def encodedLen (payload : List UInt8) : Except KissError ℕ := encodedLenFrom 3 payload

/-- A program that writes into the output slice. -/
abbrev KissWriter := EStateM (Fault KissError) (List UInt8)

/-- The loop of `encode_command_frame` over the payload; it returns the offset behind the last byte
written. -/
def encodePayload (offset : ℕ) : List UInt8 → KissWriter ℕ
  | [] => return offset
  | byte :: payload => do
    if byte = kissFend then
      storeAt offset kissFesc
      storeAt (offset + 1) kissTfend
      encodePayload (offset + 2) payload
    else if byte = kissFesc then
      storeAt offset kissFesc
      storeAt (offset + 1) kissTfesc
      encodePayload (offset + 2) payload
    else
      storeAt offset byte
      encodePayload (offset + 1) payload

def encodeCommandFrame (command : UInt8) (payload : List UInt8) : KissWriter ℕ := do
  let required ← (ofResult id (encodedLen payload)).lift
  let out ← get
  if out.length < required then
    throw (.error (.outputBufferTooShort out.length required))
  storeAt 0 kissFend
  storeAt 1 command
  let offset ← encodePayload 2 payload
  storeAt offset kissFend
  return offset + 1

/-! ## Decoding -/

structure KissDecoder (capacity : ℕ) where
  /-- `buffer[..len]`. -/
  buffer : List UInt8
  inFrame : Bool
  escapePending : Bool
  length_le : buffer.length ≤ capacity
  deriving DecidableEq

namespace KissDecoder

variable {capacity : ℕ} {σ : Type}

def new (capacity : ℕ) : KissDecoder capacity where
  buffer := []
  inFrame := false
  escapePending := false
  length_le := Nat.zero_le capacity

def reset (_decoder : KissDecoder capacity) : KissDecoder capacity where
  buffer := []
  inFrame := false
  escapePending := false
  length_le := Nat.zero_le capacity

/-- A decoder at work: its state and what the callback has captured. -/
abbrev Feed (capacity : ℕ) (σ : Type) := EStateM KissError (KissDecoder capacity × σ)

/-- The callback that takes the frames. -/
abbrev OnFrame (σ : Type) := KissFrameRef → EStateM KissError σ Unit

def modifyDecoder (f : KissDecoder capacity → KissDecoder capacity) : Feed capacity σ Unit :=
  modify fun (decoder, captured) => (f decoder, captured)

theorem length_concat_le {decoder : KissDecoder capacity} (byte : UInt8)
    (h : ¬decoder.buffer.length = capacity) : (decoder.buffer ++ [byte]).length ≤ capacity := by
  have hle := decoder.length_le
  rw [List.length_append, List.length_singleton]
  omega

def pushDecodedByte (byte : UInt8) : Feed capacity σ Unit := fun (decoder, captured) =>
  if h : decoder.buffer.length = capacity then
    .error (.frameTooLarge (decoder.buffer.length + 1) capacity) (decoder.reset, captured)
  else
    .ok () ({ decoder with
      buffer := decoder.buffer ++ [byte]
      length_le := length_concat_le byte h }, captured)

/-- A frame ends: the buffer is handed over and emptied, also when the callback fails. -/
def finishFrame (onFrame : OnFrame σ) : Feed capacity σ Unit := fun (decoder, captured) =>
  match decoder.buffer with
  | [] => .ok () (decoder, captured)
  | command :: payload =>
    let emptied : KissDecoder capacity :=
      { decoder with buffer := [], escapePending := false, length_le := Nat.zero_le capacity }
    match onFrame ⟨command, payload⟩ captured with
    | .ok () captured => .ok () (emptied, captured)
    | .error error captured => .error error (emptied, captured)

def pushByte (onFrame : OnFrame σ) (byte : UInt8) : Feed capacity σ Unit := do
  let (decoder, _) ← get
  if byte = kissFend then
    if decoder.inFrame then
      finishFrame onFrame
    modifyDecoder fun decoder => { decoder with inFrame := true, escapePending := false }
  else if !decoder.inFrame then
    return
  else if decoder.escapePending then
    modifyDecoder fun decoder => { decoder with escapePending := false }
    if byte = kissTfend then
      pushDecodedByte kissFend
    else if byte = kissTfesc then
      pushDecodedByte kissFesc
    else
      modifyDecoder reset
      throw (.malformedEscape byte)
  else if byte = kissFesc then
    modifyDecoder fun decoder => { decoder with escapePending := true }
  else
    pushDecodedByte byte

/-- One chunk. An error ends it: the bytes behind it are dropped. -/
def pushBytes (onFrame : OnFrame σ) (input : List UInt8) : Feed capacity σ Unit :=
  input.forM (pushByte onFrame)

end KissDecoder

end Hyf
