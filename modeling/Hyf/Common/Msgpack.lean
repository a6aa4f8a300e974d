import Hyf.Common.ByteCodec

/-!
# The MessagePack format

A `Value` is a MessagePack value together with the way it is written: the format allows a short
string behind a 32-bit length, so the encoding of a value is not determined by its content alone.
`Value.encode` is the encoding, `Value.WellFormed` says that every length fits its header, and
`Value.depth` counts the levels of nesting, the outermost value being level one.
-/

namespace Msgpack

open ByteCodec

/-- The numbers that follow a marker in a fixed number of bytes. -/
inductive NumberKind where
  | float32
  | float64
  | uint8
  | uint16
  | uint32
  | uint64
  | int8
  | int16
  | int32
  | int64
  deriving DecidableEq

namespace NumberKind

def marker : NumberKind → UInt8
  | float32 => 0xca
  | float64 => 0xcb
  | uint8 => 0xcc
  | uint16 => 0xcd
  | uint32 => 0xce
  | uint64 => 0xcf
  | int8 => 0xd0
  | int16 => 0xd1
  | int32 => 0xd2
  | int64 => 0xd3

/-- The number of bytes behind the marker. -/
def width : NumberKind → ℕ
  | uint8 | int8 => 1
  | uint16 | int16 => 2
  | float32 | uint32 | int32 => 4
  | float64 | uint64 | int64 => 8

end NumberKind

/-- The values that announce a length. -/
inductive Family where
  | str
  | bin
  | ext
  | array
  | map
  deriving DecidableEq

/-- How a length is written: inside the marker, or behind it in one, two or four bytes. -/
inductive LengthForm where
  | fixed
  | len8
  | len16
  | len32
  deriving DecidableEq

/-- A marker and a length behind it, if the length fits. -/
def sized (marker : UInt8) (width len : ℕ) : Option (List UInt8) :=
  if len < 256 ^ width then some ([marker] ++ toBe width len) else none

/-- The header of a value of some length, where the format has one. -/
def header (family : Family) (form : LengthForm) (len : ℕ) : Option (List UInt8) :=
  match family, form with
  | .str, .fixed => if len < 32 then some [UInt8.ofNat (0xa0 + len)] else none
  | .str, .len8 => sized 0xd9 1 len
  | .str, .len16 => sized 0xda 2 len
  | .str, .len32 => sized 0xdb 4 len
  | .bin, .fixed => none
  | .bin, .len8 => sized 0xc4 1 len
  | .bin, .len16 => sized 0xc5 2 len
  | .bin, .len32 => sized 0xc6 4 len
  | .ext, .fixed =>
    if len = 1 then some [0xd4]
    else if len = 2 then some [0xd5]
    else if len = 4 then some [0xd6]
    else if len = 8 then some [0xd7]
    else if len = 16 then some [0xd8]
    else none
  | .ext, .len8 => sized 0xc7 1 len
  | .ext, .len16 => sized 0xc8 2 len
  | .ext, .len32 => sized 0xc9 4 len
  | .array, .fixed => if len < 16 then some [UInt8.ofNat (0x90 + len)] else none
  | .array, .len8 => none
  | .array, .len16 => sized 0xdc 2 len
  | .array, .len32 => sized 0xdd 4 len
  | .map, .fixed => if len < 16 then some [UInt8.ofNat (0x80 + len)] else none
  | .map, .len8 => none
  | .map, .len16 => sized 0xde 2 len
  | .map, .len32 => sized 0xdf 4 len

/-- A MessagePack value and how it is written. Numbers are their bit patterns. -/
inductive Value where
  | fixint (byte : UInt8)
  | nil
  | boolean (value : Bool)
  | number (kind : NumberKind) (bits : ℕ)
  | str (form : LengthForm) (bytes : List UInt8)
  | bin (form : LengthForm) (bytes : List UInt8)
  | ext (form : LengthForm) (type : UInt8) (bytes : List UInt8)
  | array (form : LengthForm) (items : List Value)
  | map (form : LengthForm) (entries : List (Value × Value))

mutual

def Value.encode : Value → List UInt8
  | .fixint byte => [byte]
  | .nil => [0xc0]
  | .boolean value => [if value then 0xc3 else 0xc2]
  | .number kind bits => [kind.marker] ++ toBe kind.width bits
  | .str form bytes => (header .str form bytes.length).getD [] ++ bytes
  | .bin form bytes => (header .bin form bytes.length).getD [] ++ bytes
  | .ext form type bytes => (header .ext form bytes.length).getD [] ++ ([type] ++ bytes)
  | .array form items => (header .array form items.length).getD [] ++ encodeItems items
  | .map form entries => (header .map form entries.length).getD [] ++ encodeEntries entries

def encodeItems : List Value → List UInt8
  | [] => []
  | item :: items => item.encode ++ encodeItems items

def encodeEntries : List (Value × Value) → List UInt8
  | [] => []
  | entry :: entries => encodeEntry entry ++ encodeEntries entries

def encodeEntry : Value × Value → List UInt8
  | (key, value) => key.encode ++ value.encode

end

mutual

/-- The number of levels: one for the value itself, and those of its deepest part. -/
def Value.depth : Value → ℕ
  | .array _ items => depthItems items + 1
  | .map _ entries => depthEntries entries + 1
  | _ => 1

def depthItems : List Value → ℕ
  | [] => 0
  | item :: items => max item.depth (depthItems items)

def depthEntries : List (Value × Value) → ℕ
  | [] => 0
  | entry :: entries => max (depthEntry entry) (depthEntries entries)

def depthEntry : Value × Value → ℕ
  | (key, value) => max key.depth value.depth

end

/-- Every byte and every length is one that its header can express. -/
inductive Value.WellFormed : Value → Prop
  | fixint {byte : UInt8} : byte ≤ 0x7f ∨ 0xe0 ≤ byte → WellFormed (.fixint byte)
  | nil : WellFormed .nil
  | boolean (value : Bool) : WellFormed (.boolean value)
  | number {kind : NumberKind} {bits : ℕ} : bits < 256 ^ kind.width →
    WellFormed (.number kind bits)
  | str {form : LengthForm} {bytes : List UInt8} : (header .str form bytes.length).isSome →
    WellFormed (.str form bytes)
  | bin {form : LengthForm} {bytes : List UInt8} : (header .bin form bytes.length).isSome →
    WellFormed (.bin form bytes)
  | ext {form : LengthForm} (type : UInt8) {bytes : List UInt8} :
    (header .ext form bytes.length).isSome → WellFormed (.ext form type bytes)
  | array {form : LengthForm} {items : List Value} : (header .array form items.length).isSome →
    (∀ item ∈ items, item.WellFormed) → WellFormed (.array form items)
  | map {form : LengthForm} {entries : List (Value × Value)} :
    (header .map form entries.length).isSome → (∀ entry ∈ entries, entry.1.WellFormed) →
    (∀ entry ∈ entries, entry.2.WellFormed) → WellFormed (.map form entries)

def Value.isMap : Value → Bool
  | .map _ _ => true
  | _ => false

/-! ## Nesting -/

theorem Value.depth_pos (value : Value) : 0 < value.depth := by
  cases value <;> simp [Value.depth]

theorem depthItems_le_iff {items : List Value} {levels : ℕ} :
    depthItems items ≤ levels ↔ ∀ item ∈ items, item.depth ≤ levels := by
  induction items with
  | nil => simp [depthItems]
  | cons item items ih => simp [depthItems, ih]

theorem depthEntries_le_iff {entries : List (Value × Value)} {levels : ℕ} :
    depthEntries entries ≤ levels ↔
      ∀ entry ∈ entries, entry.1.depth ≤ levels ∧ entry.2.depth ≤ levels := by
  induction entries with
  | nil => simp [depthEntries]
  | cons entry entries ih =>
    obtain ⟨key, value⟩ := entry
    simp [depthEntries, depthEntry, ih, and_assoc]

end Msgpack
