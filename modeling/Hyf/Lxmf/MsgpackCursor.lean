import Hyf.Common.CursorM
import Hyf.Common.Msgpack

/-!
# The MessagePack cursor (`hyf_lxmf_core::msgpack`)

LXMF payloads are MessagePack. The cursor reads the few types that a payload is made of and skips
whole values of any type, which bounds their nesting. The source counts the depth upwards from 1 and
refuses a value beyond level 16; here `skipValue` is given the number of levels that are left, which
is 16 for the outermost value, and refuses when there is none. It counts its own calls with `tick`.
-/

namespace Hyf.Lxmf

open ByteCodec CursorM

def lxmfMessageMaxLen : ℕ := 4096
def lxmfFixedHeaderLen : ℕ := 16 + 16 + 64
def lxmfPayloadMaxLen : ℕ := lxmfMessageMaxLen - lxmfFixedHeaderLen
def lxmfMsgpackMaxDepth : ℕ := 16

/-- The errors of the decoder. -/
inductive LxmfError where
  | messageTooShort (actual minimum : ℕ)
  | messageTooLarge (actual maximum : ℕ)
  | payloadTooLarge (actual maximum : ℕ)
  | invalidPayloadArrayLen (actual : ℕ)
  | unsupportedMsgpackType (marker : UInt8)
  | msgpackTruncated
  | msgpackTrailingBytes
  | msgpackDepthExceeded (maximum : ℕ)
  | invalidTimestamp
  | titleTooLarge (actual maximum : ℕ)
  | contentTooLarge (actual maximum : ℕ)
  | fieldsTooLarge (actual maximum : ℕ)
  | stampTooLarge (actual maximum : ℕ)
  | outputTooSmall (needed available : ℕ)
  deriving DecidableEq

def markerNil : UInt8 := 0xc0
def markerFalse : UInt8 := 0xc2
def markerTrue : UInt8 := 0xc3
def markerBin8 : UInt8 := 0xc4
def markerBin16 : UInt8 := 0xc5
def markerBin32 : UInt8 := 0xc6
def markerExt8 : UInt8 := 0xc7
def markerExt16 : UInt8 := 0xc8
def markerExt32 : UInt8 := 0xc9
def markerFloat32 : UInt8 := 0xca
def markerFloat64 : UInt8 := 0xcb
def markerUint8 : UInt8 := 0xcc
def markerUint16 : UInt8 := 0xcd
def markerUint32 : UInt8 := 0xce
def markerUint64 : UInt8 := 0xcf
def markerInt8 : UInt8 := 0xd0
def markerInt16 : UInt8 := 0xd1
def markerInt32 : UInt8 := 0xd2
def markerInt64 : UInt8 := 0xd3
def markerFixext1 : UInt8 := 0xd4
def markerFixext2 : UInt8 := 0xd5
def markerFixext4 : UInt8 := 0xd6
def markerFixext8 : UInt8 := 0xd7
def markerFixext16 : UInt8 := 0xd8
def markerStr8 : UInt8 := 0xd9
def markerStr16 : UInt8 := 0xda
def markerStr32 : UInt8 := 0xdb
def markerArray16 : UInt8 := 0xdc
def markerArray32 : UInt8 := 0xdd
def markerMap16 : UInt8 := 0xde
def markerMap32 : UInt8 := 0xdf

/-! ## Reads -/

/-- `read_slice`. -/
def readSlice : ℕ → CursorM LxmfError (List UInt8) :=
  takeSlice (fun _ len => .payloadTooLarge len lxmfPayloadMaxLen) fun _ _ => .msgpackTruncated

/-- The greatest `usize`. -/
def usizeMax : ℕ := 2 ^ 64 - 1

/-- `read_u32_as_usize`. -/
def readU32AsUsize : CursorM LxmfError ℕ := do
  let value := (← readU32 readSlice).toNat
  raise (rejectIf (value > usizeMax) (.payloadTooLarge usizeMax lxmfPayloadMaxLen))
  return value

/-- `peek_u8`. -/
def peekU8 : CursorM LxmfError UInt8 := do
  let cursor ← get
  raise (match cursor.input[cursor.index]? with
    | some byte => .ok byte
    | none => fail .msgpackTruncated)

/-- Nothing may follow the payload. -/
def finishPayload : CursorM LxmfError Unit := finish fun _ => .msgpackTrailingBytes

/-- `read_array_len`. -/
def readArrayLen : CursorM LxmfError ℕ := do
  let marker ← readU8 readSlice
  if 0x90 ≤ marker ∧ marker ≤ 0x9f then
    return (marker &&& 0x0f).toNat
  else if marker = markerArray16 then
    return (← readU16 readSlice).toNat
  else if marker = markerArray32 then
    readU32AsUsize
  else
    raise (fail (.unsupportedMsgpackType marker))

/-- The bits of the 64-bit float. -/
def readFloat64 : CursorM LxmfError UInt64 := do
  let marker ← readU8 readSlice
  raise (rejectIf (marker ≠ markerFloat64) (.unsupportedMsgpackType marker))
  readU64 readSlice

/-- `read_bin_or_str_bytes`: bytes, or the bytes of a string. -/
def readBinOrStrBytes : CursorM LxmfError (List UInt8) := do
  let marker ← readU8 readSlice
  if 0xa0 ≤ marker ∧ marker ≤ 0xbf then
    readSlice (marker &&& 0x1f).toNat
  else if marker = markerBin8 ∨ marker = markerStr8 then do
    let len ← readU8 readSlice
    readSlice len.toNat
  else if marker = markerBin16 ∨ marker = markerStr16 then do
    let len ← readU16 readSlice
    readSlice len.toNat
  else if marker = markerBin32 ∨ marker = markerStr32 then do
    let len ← readU32AsUsize
    readSlice len
  else
    raise (fail (.unsupportedMsgpackType marker))

/-! ## Skips -/

/-- `skip_len`. -/
def skipLen (len : ℕ) : CursorM LxmfError Unit := do
  let _ ← readSlice len
  return ()

/-- An extension has a type byte in front of its data. -/
def skipExt (len : ℕ) : CursorM LxmfError Unit := do
  skipLen 1
  skipLen len

section

variable (skipItem : CursorM LxmfError Unit)

/-- `for _ in 0..len` with one skip in each round. -/
def skipArray : ℕ → CursorM LxmfError Unit
  | 0 => return ()
  | len + 1 => do
    skipItem
    skipArray len

/-- `for _ in 0..len` with two skips in each round. -/
def skipMap : ℕ → CursorM LxmfError Unit
  | 0 => return ()
  | len + 1 => do
    skipItem
    skipItem
    skipMap len

/-- What follows the marker of a value, where `skipItem` skips a value one level down. -/
def skipMarker (marker : UInt8) : CursorM LxmfError Unit :=
  if marker ≤ 0x7f ∨ 0xe0 ≤ marker ∨ marker = markerNil ∨ marker = markerFalse ∨
      marker = markerTrue then return ()
  else if 0x80 ≤ marker ∧ marker ≤ 0x8f then skipMap skipItem (marker &&& 0x0f).toNat
  else if 0x90 ≤ marker ∧ marker ≤ 0x9f then skipArray skipItem (marker &&& 0x0f).toNat
  else if 0xa0 ≤ marker ∧ marker ≤ 0xbf then skipLen (marker &&& 0x1f).toNat
  else if marker = markerBin8 ∨ marker = markerStr8 then do
    let len ← readU8 readSlice
    skipLen len.toNat
  else if marker = markerBin16 ∨ marker = markerStr16 then do
    let len ← readU16 readSlice
    skipLen len.toNat
  else if marker = markerBin32 ∨ marker = markerStr32 then do
    let len ← readU32AsUsize
    skipLen len
  else if marker = markerExt8 then do
    let len ← readU8 readSlice
    skipExt len.toNat
  else if marker = markerExt16 then do
    let len ← readU16 readSlice
    skipExt len.toNat
  else if marker = markerExt32 then do
    let len ← readU32AsUsize
    skipExt len
  else if marker = markerFloat32 ∨ marker = markerUint32 ∨ marker = markerInt32 then skipLen 4
  else if marker = markerFloat64 ∨ marker = markerUint64 ∨ marker = markerInt64 then skipLen 8
  else if marker = markerUint8 ∨ marker = markerInt8 then skipLen 1
  else if marker = markerUint16 ∨ marker = markerInt16 then skipLen 2
  else if marker = markerFixext1 then skipExt 1
  else if marker = markerFixext2 then skipExt 2
  else if marker = markerFixext4 then skipExt 4
  else if marker = markerFixext8 then skipExt 8
  else if marker = markerFixext16 then skipExt 16
  else if marker = markerArray16 then do
    let len ← readU16 readSlice
    skipArray skipItem len.toNat
  else if marker = markerArray32 then do
    let len ← readU32AsUsize
    skipArray skipItem len
  else if marker = markerMap16 then do
    let len ← readU16 readSlice
    skipMap skipItem len.toNat
  else if marker = markerMap32 then do
    let len ← readU32AsUsize
    skipMap skipItem len
  else raise (fail (.unsupportedMsgpackType marker))

end

/-- `skip_value`, where the depth that is left is given out. -/
def skipValue : ℕ → CursorM LxmfError Unit
  | 0 => do
    tick
    raise (fail (.msgpackDepthExceeded lxmfMsgpackMaxDepth))
  | levels + 1 => do
    tick
    let marker ← readU8 readSlice
    skipMarker (skipValue levels) marker

/-- `is_map_marker`. -/
def isMapMarker (marker : UInt8) : Bool :=
  (0x80 ≤ marker ∧ marker ≤ 0x8f) ∨ marker = markerMap16 ∨ marker = markerMap32

/-- `read_raw_value`: the bytes of one value. -/
def readRawValue : CursorM LxmfError (List UInt8) := rawBytes (skipValue lxmfMsgpackMaxDepth)

/-- `read_raw_map`: the bytes of one value that is a map. -/
def readRawMap : CursorM LxmfError (List UInt8) := do
  let marker ← peekU8
  raise (rejectIf (isMapMarker marker = false) (.unsupportedMsgpackType marker))
  rawBytes (skipValue lxmfMsgpackMaxDepth)

end Hyf.Lxmf
