import Hyf.Common.JsonSyntax
import Hyf.Common.TextParser
import Hyf.Nostr.Event

/-!
# The JSON parser (`hyf_link_nostr`)

`JsonParser` walks over the bytes of a text: `parse` reads one value and rejects what is left behind
it. The recursion from a value to its items is bounded here by a depth that no input reaches, since
every level takes an opening bracket; the stack of the machine is not modelled.
-/

namespace Hyf.Nostr

open ByteCodec JsonText

abbrev JsonParser := TextParser NostrError

def hexValue (value : UInt8) : Outcome NostrError UInt8 :=
  if 0x30 ≤ value ∧ value ≤ 0x39 then .ok (value - 0x30)
  else if 0x61 ≤ value ∧ value ≤ 0x66 then .ok (value - 0x61 + 10)
  else if 0x41 ≤ value ∧ value ≤ 0x46 then .ok (value - 0x41 + 10)
  else fail .malformedMessage

/-- `char::from_u32`. -/
def charFromU32 (value : UInt32) : Option Char :=
  if h : value.toNat.isValidChar then some ⟨value, h⟩ else none

/-- `str::parse::<u64>` of a text of digits. -/
def parseU64 (digits : List UInt8) : Option UInt64 :=
  let value := digits.foldl (fun value digit => 10 * value + (digit.toNat - 0x30)) 0
  if digits ≠ [] ∧ value < 2 ^ 64 then some (UInt64.ofNat value) else none

namespace JsonParser

open TextParser

def malformed {α : Type} : JsonParser α := throw (.error .malformedMessage)

def isWsByte (byte : UInt8) : Bool := byte == 0x20 || byte == 0x0a || byte == 0x0d || byte == 0x09

def isDigitByte (byte : UInt8) : Bool := 0x30 ≤ byte && byte ≤ 0x39

def skipWs : JsonParser Unit := modify fun rest => rest.dropWhile isWsByte

def expectByte (byte : UInt8) : JsonParser Unit := do
  if ← consumeByte byte then return () else malformed

def parseLiteral (literal : List UInt8) (value : JsonValue) : JsonParser JsonValue := do
  if (← get).take literal.length = literal then do
    advance literal.length
    return value
  else malformed

/-- `for _ in 0..4` of `parse_unicode_escape`, with the rounds that are left. -/
def parseHexDigits : ℕ → UInt32 → JsonParser UInt32
  | 0, value => return value
  | rounds + 1, value => do
    match ← nextByte with
    | none => malformed
    | some byte => do
      let digit ← (hexValue byte).lift
      parseHexDigits rounds ((value <<< 4) ||| digit.toUInt32)

def parseUnicodeEscape : JsonParser Char := do
  let value ← parseHexDigits 4 0
  match charFromU32 value with
  | some character => return character
  | none => malformed

/-- The `match` of `parse_escape` on the byte behind the backslash. -/
def parseEscapeAt (out : String) : Option UInt8 → JsonParser String
  | none => malformed
  | some byte =>
    if byte = 0x22 then return out.push '"'
    else if byte = 0x5c then return out.push '\\'
    else if byte = 0x2f then return out.push '/'
    else if byte = 0x62 then return out.push (Char.ofNat 0x08)
    else if byte = 0x66 then return out.push (Char.ofNat 0x0c)
    else if byte = 0x6e then return out.push '\n'
    else if byte = 0x72 then return out.push '\r'
    else if byte = 0x74 then return out.push '\t'
    else if byte = 0x75 then do
      let character ← parseUnicodeEscape
      return out.push character
    else malformed

def parseEscape (out : String) : JsonParser String := do
  let byte ← nextByte
  parseEscapeAt out byte

/-- The character of `parse_string` that has more than one byte. -/
def parseCharacter (out : String) : JsonParser String := do
  match fromUtf8 (← get) with
  | none => throw (.error .utf8)
  | some remaining =>
    match remaining.toList with
    | [] => malformed
    | character :: _ => do
      advance character.utf8Size
      return out.push character

/-- The `match` of `parse_string` on the next byte. -/
def stringRoundAt (out : String) : Option UInt8 → JsonParser (String ⊕ String)
  | none => malformed
  | some byte =>
    if byte = 0x22 then do
      advance 1
      return .inr out
    else if byte = 0x5c then do
      advance 1
      let out ← parseEscape out
      return .inl out
    else if byte ≤ 0x1f then malformed
    else if byte ≤ 0x7f then do
      advance 1
      return .inl (out.push (Char.ofNat byte.toNat))
    else do
      let out ← parseCharacter out
      return .inl out

/-- One round of the loop of `parse_string`. -/
def stringRound (out : String) : JsonParser (String ⊕ String) := do
  let byte ← peek
  stringRoundAt out byte

def parseString : JsonParser String := do
  expectByte 0x22
  loopRest stringRound ""

def parseNumber : JsonParser JsonValue := do
  let digits := (← get).takeWhile isDigitByte
  modify fun rest => rest.dropWhile isDigitByte
  match fromUtf8 digits with
  | none => throw (.error .utf8)
  | some text =>
    match parseU64 (asBytes text) with
    | none => malformed
    | some value => return .number value

section Values

variable (parseValue : JsonParser JsonValue)

/-- One round of the loop of `parse_array`. -/
def arrayRound (values : List JsonValue) : JsonParser (List JsonValue ⊕ JsonValue) := do
  let value ← parseValue
  let values := values ++ [value]
  skipWs
  if ← consumeByte 0x5d then return .inr (.array values)
  else do
    expectByte 0x2c
    return .inl values

def parseArray : JsonParser JsonValue := do
  expectByte 0x5b
  skipWs
  if ← consumeByte 0x5d then return .array []
  else loopRest (arrayRound parseValue) []

/-- One round of the loop of `parse_object`. -/
def objectRound (fields : List (String × JsonValue)) :
    JsonParser (List (String × JsonValue) ⊕ JsonValue) := do
  skipWs
  let key ← parseString
  skipWs
  expectByte 0x3a
  let value ← parseValue
  let fields := fields ++ [(key, value)]
  skipWs
  if ← consumeByte 0x7d then return .inr (.object fields)
  else do
    expectByte 0x2c
    return .inl fields

def parseObject : JsonParser JsonValue := do
  expectByte 0x7b
  skipWs
  if ← consumeByte 0x7d then return .object []
  else loopRest (objectRound parseValue) []

/-- The `match` of `parse_value` on the next byte. -/
def parseValueAt : Option UInt8 → JsonParser JsonValue
  | none => malformed
  | some byte =>
    if byte = 0x6e then parseLiteral [0x6e, 0x75, 0x6c, 0x6c] .null
    else if byte = 0x74 then parseLiteral [0x74, 0x72, 0x75, 0x65] (.bool true)
    else if byte = 0x66 then parseLiteral [0x66, 0x61, 0x6c, 0x73, 0x65] (.bool false)
    else if byte = 0x22 then do
      let text ← parseString
      return .string text
    else if byte = 0x5b then parseArray parseValue
    else if byte = 0x7b then parseObject parseValue
    else if isDigitByte byte then parseNumber
    else malformed

end Values

/-- `depth` is how deep arrays and objects may still be nested. -/
def parseValue : ℕ → JsonParser JsonValue
  | 0 => throw .panic
  | depth + 1 => do
    skipWs
    let byte ← peek
    parseValueAt (parseValue depth) byte

def parseAll (depth : ℕ) : JsonParser JsonValue := do
  let value ← parseValue depth
  skipWs
  if (← get) ≠ [] then malformed
  else return value

def parse (input : String) : Outcome NostrError JsonValue :=
  match parseAll ((asBytes input).length + 1) (asBytes input) with
  | .ok value _ => .ok value
  | .error fault _ => .error fault

end JsonParser

end Hyf.Nostr
